import SubmissionsChecker.Effects.SquadDraws
import SubmissionsChecker.Invariants.Answers
import SubmissionsChecker.Invariants.PortalWork
import SubmissionsChecker.Library.Deal

/-! What is drawn. The slices of a squad share its draw out, and a retry draws as many questions as the slice has,
those the slice requires among them. A stored draw stays, so what the members were drawn from it in any order fits
together. -/

namespace SubmissionsChecker

namespace QuizConfig

/-- The question with this id can be graded. -/
def IsGradable (quiz : QuizConfig) (id : ℕ) : Prop := ∃ q, quiz.questions[id]? = some q ∧ q.type ≠ .unsupported

/-- It is required, too. -/
def Requires (quiz : QuizConfig) (id : ℕ) : Prop :=
  ∃ q, quiz.questions[id]? = some q ∧ q.type ≠ .unsupported ∧ q.required = true

/-- The questions that can be graded. -/
def gradable (quiz : QuizConfig) : List ℕ := Table.idsWhere (·.type != .unsupported) quiz.questions

def requiredIds (quiz : QuizConfig) : List ℕ := Table.idsWhere (fun q => q.type != .unsupported && q.required) quiz.questions

def optionalIds (quiz : QuizConfig) : List ℕ := Table.idsWhere (fun q => q.type != .unsupported && !q.required) quiz.questions

/-- How many optional questions the draw asks for. -/
def optionalWanted (quiz : QuizConfig) : ℕ :=
  (max 0 (quiz.questionsToSend.getD quiz.questions.length - quiz.requiredIds.length)).toNat

instance (quiz : QuizConfig) (id : ℕ) : Decidable (quiz.IsGradable id) :=
  decidable_of_iff ((quiz.questions[id]?).any (·.type != .unsupported)) <| by
    rw [Option.any_eq_true]
    exact exists_congr fun q => and_congr_right' bne_iff_ne

end QuizConfig

/-- The slices share the questions of the draw out among the members. -/
structure SquadDraw.Shared (draw : SquadDraw) : Prop where
  disjoint : ∀ t ∈ draw.memberOrder, ∀ t' ∈ draw.memberOrder, t ≠ t' → (draw.sliceOf t).Disjoint (draw.sliceOf t')
  covers : ∀ id, id ∈ draw.questionIds ↔ ∃ t ∈ draw.memberOrder, id ∈ draw.sliceOf t
  nodup : ∀ t, (draw.sliceOf t).Nodup

/-- The questions `ids` of an attempt of member `t` are what the draw gives them, first or again. -/
structure SquadDraw.Gives (draw : SquadDraw) (quiz : QuizConfig) (t : ℕ) (first : Prop) (ids : List ℕ) : Prop where
  member : t ∈ draw.memberOrder
  indexed : ∀ id ∈ ids, id < quiz.questions.length
  slice : first → ids.Perm (draw.sliceOf t)
  again : ¬ first → ids.length = min (draw.sliceOf t).length quiz.gradable.length ∧
    ∀ id ∈ draw.sliceOf t, quiz.Requires id → id ∈ ids

namespace Db

/-- The quiz an attempt was drawn from: the one of the config pinned to it. -/
def quizOf (db : Db) (a : QuizAttempt) : Option QuizConfig :=
  (a.pluginConfigId.bind (db.blockIn · a.submissionId)).map (·.quiz)

/-- No attempt of the student at submission `i` is older than attempt `k`. -/
def IsFirst (db : Db) (k i t : ℕ) : Prop :=
  ∀ (j : ℕ) b, j < k → db.quizAttempts[j]? = some b → b.submissionId = i → b.studentId ≠ some t

/-- The attempts of the squads are what the shared draws give the members. -/
structure DrawsOk (db : Db) : Prop where
  members : ∀ s ∈ db.squads, s.members.Nodup
  linked : ∀ sub ∈ db.submissions, ∀ q, sub.squadId = some q → q < db.squads.length
  owned : ∀ a ∈ db.quizAttempts, a.studentId.isSome = true ∧ a.submissionId < db.submissions.length
  shared : ∀ i draw, db.drawOf i = some draw → draw.Shared
  drawn : ∀ (k : ℕ) a t squad, db.quizAttempts[k]? = some a → a.studentId = some t →
    db.squadForSubmission a.submissionId = some squad → ∃ draw quiz, db.drawOf a.submissionId = some draw ∧
      db.quizOf a = some quiz ∧ draw.Gives quiz t (db.IsFirst k a.submissionId t) (a.questionsSnapshot.map (·.id))

/-- Attempts, draws and what they are drawn from stay; submissions and squads are only added. -/
structure KeepsDrawn (db db' : Db) : Prop where
  origins : db'.quizAttempts.map QuizAttempt.origin = db.quizAttempts.map QuizAttempt.origin
  draws : db.SameDraws db'
  blocks : ∀ c i block, db.blockIn c i = some block → db'.blockIn c i = some block
  squadIds : ∀ (i : ℕ) sub', db'.submissions[i]? = some sub' →
    (∃ sub, db.submissions[i]? = some sub ∧ sub'.squadId = sub.squadId) ∨
      db.submissions[i]? = none ∧ ∀ q, sub'.squadId = some q → q < db.squads.length
  submissions : db.submissions.length ≤ db'.submissions.length
  squads : db.squads.length ≤ db'.squads.length

end Db

section

variable {quiz : QuizConfig} {ids : List ℕ} {id n t : ℕ} {rnd : Shuffles}

/-! The selection -/

theorem mem_requiredIds : id ∈ quiz.requiredIds ↔ quiz.Requires id := by
  unfold QuizConfig.requiredIds QuizConfig.Requires
  simp only [Table.mem_idsWhere, Bool.and_eq_true, bne_iff_ne]

theorem mem_optionalIds : id ∈ quiz.optionalIds ↔ quiz.IsGradable id ∧ ¬ quiz.Requires id := by
  unfold QuizConfig.optionalIds QuizConfig.IsGradable QuizConfig.Requires
  simp only [Table.mem_idsWhere, Bool.and_eq_true, bne_iff_ne, Bool.not_eq_true']
  constructor
  · rintro ⟨q, hq, htype, hreq⟩
    refine ⟨⟨q, hq, htype⟩, ?_⟩
    rintro ⟨q', hq', -, hreq'⟩
    rw [hq, Option.some_inj] at hq'
    rw [hq', hreq'] at hreq
    cases hreq
  · rintro ⟨⟨q, hq, htype⟩, hnot⟩
    exact ⟨q, hq, htype, Bool.not_eq_true _ ▸ fun hreq => hnot ⟨q, hq, htype, hreq⟩⟩

theorem mem_gradable : id ∈ quiz.gradable ↔ quiz.IsGradable id := by
  unfold QuizConfig.gradable QuizConfig.IsGradable
  simp only [Table.mem_idsWhere, bne_iff_ne]

theorem QuizConfig.Requires.isGradable (h : quiz.Requires id) : quiz.IsGradable id := by
  obtain ⟨q, hq, htype, -⟩ := h
  exact ⟨q, hq, htype⟩

theorem QuizConfig.IsGradable.lt (h : quiz.IsGradable id) : id < quiz.questions.length := by
  obtain ⟨q, hq, -⟩ := h
  exact (List.getElem?_eq_some_iff.mp hq).1

/-- The required questions, then a part of the optional ones, in some order. -/
theorem selectQuestionIds_perm (quiz : QuizConfig) (rnd : Shuffles) : ∃ optional : List ℕ, optional.Perm quiz.optionalIds ∧
    (selectQuestionIds quiz rnd).Perm (quiz.requiredIds ++ optional.take quiz.optionalWanted) := by
  unfold selectQuestionIds
  dsimp only
  split_ifs
  · exact ⟨_, rnd.optional.perm _, rnd.selected.perm _⟩
  · exact ⟨_, .rfl, .rfl⟩

theorem isGradable_of_selected (h : id ∈ selectQuestionIds quiz rnd) : quiz.IsGradable id := by
  obtain ⟨optional, hopt, hsel⟩ := selectQuestionIds_perm quiz rnd
  rcases List.mem_append.mp (hsel.subset h) with hr | ho
  · exact (mem_requiredIds.mp hr).isGradable
  · exact (mem_optionalIds.mp (hopt.subset (List.mem_of_mem_take ho))).1

theorem selected_of_requires (h : quiz.Requires id) : id ∈ selectQuestionIds quiz rnd := by
  obtain ⟨optional, -, hsel⟩ := selectQuestionIds_perm quiz rnd
  exact hsel.symm.subset (List.mem_append_left _ (mem_requiredIds.mpr h))

/-- A gradable question is required or optional. -/
theorem length_gradable (quiz : QuizConfig) :
    quiz.requiredIds.length + quiz.optionalIds.length = quiz.gradable.length := by
  have hsplit := List.filter_append_perm (fun i => (quiz.questions[i]?).any (·.required)) quiz.gradable
  rw [← hsplit.length_eq, List.length_append]
  unfold QuizConfig.requiredIds QuizConfig.optionalIds QuizConfig.gradable Table.idsWhere
  rw [List.filter_filter, List.filter_filter]
  congr 2
  · refine List.filter_congr fun i _ => ?_
    cases quiz.questions[i]? with
    | none => rfl
    | some q => exact Bool.and_comm _ _
  · refine List.filter_congr fun i _ => ?_
    cases quiz.questions[i]? with
    | none => rfl
    | some q => exact Bool.and_comm _ _

theorem length_selectQuestionIds (quiz : QuizConfig) (rnd : Shuffles) : (selectQuestionIds quiz rnd).length =
    quiz.requiredIds.length + min quiz.optionalWanted quiz.optionalIds.length := by
  obtain ⟨optional, hopt, hsel⟩ := selectQuestionIds_perm quiz rnd
  rw [hsel.length_eq, List.length_append, List.length_take, hopt.length_eq]

/-! The retry -/

theorem retryConfig_get (quiz : QuizConfig) (mine : List ℕ) (id : ℕ) : (retryConfig quiz mine).questions[id]? =
    (quiz.questions[id]?).map fun q => { q with required := q.required && mine.contains id } := by
  unfold retryConfig
  rw [List.getElem?_map, List.getElem?_zipIdx]
  cases quiz.questions[id]? <;> simp

theorem retry_isGradable {mine : List ℕ} : (retryConfig quiz mine).IsGradable id ↔ quiz.IsGradable id := by
  unfold QuizConfig.IsGradable
  rw [retryConfig_get]
  constructor
  · rintro ⟨q, hq, htype⟩
    obtain ⟨q₀, hq₀, rfl⟩ := Option.map_eq_some_iff.mp hq
    exact ⟨q₀, hq₀, htype⟩
  · rintro ⟨q, hq, htype⟩
    exact ⟨{ q with required := q.required && mine.contains id }, by rw [hq, Option.map_some], htype⟩

theorem retry_requires {mine : List ℕ} : (retryConfig quiz mine).Requires id ↔ quiz.Requires id ∧ id ∈ mine := by
  unfold QuizConfig.Requires
  rw [retryConfig_get]
  constructor
  · rintro ⟨q, hq, htype, hreq⟩
    obtain ⟨q₀, hq₀, rfl⟩ := Option.map_eq_some_iff.mp hq
    have hboth := Bool.and_eq_true_iff.mp hreq
    exact ⟨⟨q₀, hq₀, htype, hboth.1⟩, List.contains_iff_mem.mp hboth.2⟩
  · rintro ⟨⟨q, hq, htype, hreq⟩, hmine⟩
    have hboth : (q.required && mine.contains id) = true := Bool.and_eq_true_iff.mpr ⟨hreq, List.contains_iff_mem.mpr hmine⟩
    exact ⟨{ q with required := q.required && mine.contains id }, by rw [hq, Option.map_some], htype, hboth⟩

theorem retry_gradable (quiz : QuizConfig) (mine : List ℕ) :
    (retryConfig quiz mine).gradable.Perm quiz.gradable := by
  refine (List.perm_ext_iff_of_nodup (Table.nodup_idsWhere _ _) (Table.nodup_idsWhere _ _)).mpr fun id => ?_
  change id ∈ (retryConfig quiz mine).gradable ↔ id ∈ quiz.gradable
  rw [mem_gradable, mem_gradable, retry_isGradable]

/-- A retry has the size of the slice, or all there is. -/
theorem length_retry {mine : List ℕ} (hmine : mine.Nodup) (quiz : QuizConfig) (rnd : Shuffles) :
    (selectQuestionIds (retryConfig quiz mine) rnd).length = min mine.length quiz.gradable.length := by
  have hrequired : (retryConfig quiz mine).requiredIds.length ≤ mine.length := by
    refine (List.Nodup.subperm (Table.nodup_idsWhere _ _) fun id hid => ?_).length_le
    exact (retry_requires.mp (mem_requiredIds.mp hid)).2
  have hwanted : (retryConfig quiz mine).optionalWanted = mine.length - (retryConfig quiz mine).requiredIds.length := by
    have hsize : (retryConfig quiz mine).questionsToSend = some (mine.dedup.length : ℤ) := rfl
    unfold QuizConfig.optionalWanted
    rw [hsize, hmine.dedup, Option.getD_some]
    omega
  have hall := length_gradable (retryConfig quiz mine)
  rw [(retry_gradable quiz mine).length_eq] at hall
  rw [length_selectQuestionIds, hwanted]
  omega

/-! The slices -/

/-- The order in which the questions are dealt: the required ones first. -/
def dealtOrder (questions : List QuestionSnapshot) : List QuestionSnapshot :=
  questions.filter (·.isRequired) ++ questions.filter (!·.isRequired)

theorem splitDraw_eq (questions : List QuestionSnapshot) (n : ℕ) :
    splitDraw questions n = (List.range n).map fun m => Deal.hand n m 0 ((dealtOrder questions).map (·.id)) := by
  unfold splitDraw
  refine List.map_congr_left fun m _ => ?_
  rw [Deal.hand_map, Deal.hand, List.map_map]
  rfl

theorem snapshot_ids (h : ∀ id ∈ ids, id < quiz.questions.length) : (snapshotQuestions quiz ids).map (·.id) = ids := by
  rw [ids_snapshotQuestions]
  refine List.filter_eq_self.mpr fun id hid => ?_
  rw [List.getElem?_eq_getElem (h id hid)]
  rfl

/-- A member's slice of a fresh split is their hand. -/
theorem sliceOf_split {order : List ℕ} (ht : t ∈ order) (questions : List QuestionSnapshot) (ids : List ℕ) :
    SquadDraw.sliceOf ⟨ids, splitDraw questions order.length, order⟩ t =
      Deal.hand order.length (order.idxOf t) 0 ((dealtOrder questions).map (·.id)) := by
  have hlt : order.idxOf t < order.length := List.idxOf_lt_length_of_mem ht
  unfold SquadDraw.sliceOf
  dsimp only
  rw [splitDraw_eq, List.getElem?_map, List.getElem?_range hlt]
  rfl

theorem shared_split {order : List ℕ} (horder : order.Nodup) (hsome : order ≠ []) (hids : ids.Nodup)
    (hrange : ∀ id ∈ ids, id < quiz.questions.length) :
    SquadDraw.Shared ⟨ids, splitDraw (snapshotQuestions quiz ids) order.length, order⟩ := by
  have hpos : 0 < order.length := List.length_pos_iff.mpr hsome
  have hdealt : ((dealtOrder (snapshotQuestions quiz ids)).map (·.id)).Perm ids := by
    refine ((List.filter_append_perm _ _).map _).trans ?_
    rw [snapshot_ids hrange]
  have hhands := (Deal.flatMap_hands_perm hpos 0 ((dealtOrder (snapshotQuestions quiz ids)).map (·.id))).trans hdealt
  have hnodup : ((dealtOrder (snapshotQuestions quiz ids)).map (·.id)).Nodup := (hdealt.nodup_iff).mpr hids
  refine ⟨fun t ht t' ht' hne => ?_, fun id => ?_, fun t => ?_⟩
  · rw [sliceOf_split ht, sliceOf_split ht']
    exact Deal.hands_disjoint (fun heq => hne ((List.idxOf_inj ht).mp heq)) 0 hnodup
  · change id ∈ ids ↔ ∃ t ∈ order, _
    rw [← hhands.mem_iff, List.mem_flatMap]
    constructor
    · rintro ⟨m, hm, hid⟩
      have hm := List.mem_range.mp hm
      refine ⟨order[m], List.getElem_mem hm, ?_⟩
      rw [sliceOf_split (List.getElem_mem hm), List.Nodup.idxOf_getElem horder]
      exact hid
    · rintro ⟨t, ht, hid⟩
      rw [sliceOf_split ht] at hid
      exact ⟨_, List.mem_range.mpr (List.idxOf_lt_length_of_mem ht), hid⟩
  · have hsnap : ((snapshotQuestions quiz ids).map (·.id)).Nodup := nodup_snapshotQuestions hids
    have hslices := nodup_splitDraw hsnap order.length
    unfold SquadDraw.sliceOf
    dsimp only
    rcases hs : (splitDraw (snapshotQuestions quiz ids) order.length)[order.idxOf t]? with _ | slice
    · exact List.nodup_nil
    · exact hslices slice (List.mem_of_getElem? hs)

theorem drawIds_perm (draw : SquadDraw) (quiz : QuizConfig) (t : ℕ) (rnd : Shuffles) :
    (draw.drawIds quiz t false rnd).2.Perm (draw.sliceOf t) := by
  change (if quiz.shuffleQuestions.getD true then rnd.slice.run (draw.sliceOf t) else draw.sliceOf t).Perm _
  split_ifs
  · exact rnd.slice.perm _
  · rfl

/-- What `_draw_for_member` draws from a shared draw. -/
theorem SquadDraw.Shared.gives {draw : SquadDraw} (hs : draw.Shared) (ht : t ∈ draw.memberOrder) {retry : Bool}
    (hrange : ∀ id ∈ (draw.drawIds quiz t retry rnd).2, id < (draw.drawIds quiz t retry rnd).1.questions.length)
    {first : Prop} (hretry : retry = true ↔ ¬ first) :
    draw.Gives quiz t first
      ((snapshotQuestions (draw.drawIds quiz t retry rnd).1 (draw.drawIds quiz t retry rnd).2).map (·.id)) := by
  rw [snapshot_ids hrange]
  cases retry with
  | false =>
    have hfirst : first := not_not.mp fun h => Bool.false_ne_true (hretry.mpr h)
    exact ⟨ht, hrange, fun _ => drawIds_perm draw quiz t rnd, fun h => absurd hfirst h⟩
  | true =>
    have hagain : ¬ first := hretry.mp rfl
    have hlen : (retryConfig quiz (draw.sliceOf t)).questions.length = quiz.questions.length := by
      unfold retryConfig
      rw [List.length_map, List.length_zipIdx]
    refine ⟨ht, fun id hid => hlen ▸ hrange id hid, fun h => absurd h hagain, fun _ => ⟨?_, fun id hid hreq => ?_⟩⟩
    · exact length_retry (hs.nodup t) quiz rnd
    · exact selected_of_requires (retry_requires.mpr ⟨hreq, hid⟩)

end

/-! The attempts -/

section

variable {db db₁ db' : Db} {i t : ℕ}

theorem isFirst_congr (h : db'.quizAttempts.map QuizAttempt.origin = db.quizAttempts.map QuizAttempt.origin) (k : ℕ) :
    db'.IsFirst k i t ↔ db.IsFirst k i t := by
  have hget : ∀ (j : ℕ), (db'.quizAttempts[j]?).map QuizAttempt.origin = (db.quizAttempts[j]?).map QuizAttempt.origin := by
    intro j
    rw [← List.getElem?_map, ← List.getElem?_map, h]
  have hdir : ∀ {db db' : Db}, (∀ j : ℕ, (db'.quizAttempts[j]?).map QuizAttempt.origin = (db.quizAttempts[j]?).map QuizAttempt.origin) →
      db.IsFirst k i t → db'.IsFirst k i t := by
    intro db db' hget hfirst j b' hj hb' hsub
    have hsame := hget j
    rw [hb', Option.map_some, eq_comm, Option.map_eq_some_iff] at hsame
    obtain ⟨b, hb, ho⟩ := hsame
    have hsub' : b.submissionId = b'.submissionId := congrArg Prod.fst ho
    have hst : b.studentId = b'.studentId := congrArg (·.2.1) ho
    rw [← hst]
    exact hfirst j b hj hb (hsub'.trans hsub)
  exact ⟨hdir fun j => (hget j).symm, hdir hget⟩

theorem Db.DrawsOk.keep (ok : db.DrawsOk) (h : db.KeepsDrawn db') (hmembers : ∀ s ∈ db'.squads, s.members.Nodup) :
    db'.DrawsOk := by
  have hold : ∀ {k : ℕ} {a' : QuizAttempt}, db'.quizAttempts[k]? = some a' →
      ∃ a, db.quizAttempts[k]? = some a ∧ a.origin = a'.origin := by
    intro k a' ha'
    have hsame := congrArg (·[k]?) h.origins
    rw [List.getElem?_map, List.getElem?_map, ha', Option.map_some, eq_comm, Option.map_eq_some_iff] at hsame
    exact hsame
  refine ⟨hmembers, fun sub' hsub' q hq => ?_, fun a' ha' => ?_, fun i draw hdraw => ?_, fun k a' t squad ha' hst hsquad => ?_⟩
  · obtain ⟨i, hi⟩ := List.mem_iff_getElem?.mp hsub'
    rcases h.squadIds i sub' hi with ⟨sub, hsub, hsame⟩ | ⟨-, hlt⟩
    · exact (ok.linked sub (List.mem_of_getElem? hsub) q (hsame ▸ hq)).trans_le h.squads
    · exact (hlt q hq).trans_le h.squads
  · obtain ⟨k, hk⟩ := List.mem_iff_getElem?.mp ha'
    obtain ⟨a, ha, ho⟩ := hold hk
    obtain ⟨hsome, hlt⟩ := ok.owned a (List.mem_of_getElem? ha)
    have hsub : a.submissionId = a'.submissionId := congrArg Prod.fst ho
    have hst : a.studentId = a'.studentId := congrArg (·.2.1) ho
    exact ⟨hst ▸ hsome, hsub ▸ hlt.trans_le h.submissions⟩
  · rw [h.draws] at hdraw
    exact ok.shared i draw hdraw
  · obtain ⟨a, ha, ho⟩ := hold ha'
    have hsub : a.submissionId = a'.submissionId := congrArg Prod.fst ho
    have hst' : a.studentId = a'.studentId := congrArg (·.2.1) ho
    have hpin : a.pluginConfigId = a'.pluginConfigId := congrArg (·.2.2.1) ho
    have hquestions : a.questionsSnapshot = a'.questionsSnapshot := congrArg (·.2.2.2.2.1) ho
    have hlt := (ok.owned a (List.mem_of_getElem? ha)).2
    have hsquad₀ : ∃ squad₀, db.squadForSubmission a.submissionId = some squad₀ := by
      unfold Db.squadForSubmission at hsquad
      obtain ⟨q, hq, -⟩ := Option.bind_eq_some_iff.mp hsquad
      obtain ⟨sub', hsub', hq⟩ := Option.bind_eq_some_iff.mp hq
      rcases h.squadIds _ sub' hsub' with ⟨sub, hsub₀, hsame⟩ | ⟨hnone, -⟩
      · have hlink := ok.linked sub (List.mem_of_getElem? hsub₀) q (hsame ▸ hq)
        refine ⟨db.squads[q], ?_⟩
        unfold Db.squadForSubmission
        rw [hsub, hsub₀, Option.bind_some, ← hsame, hq, Option.bind_some, List.getElem?_eq_getElem hlink]
      · rw [← hsub, List.getElem?_eq_getElem hlt] at hnone
        cases hnone
    obtain ⟨squad₀, hsquad₀⟩ := hsquad₀
    obtain ⟨draw, quiz, hdraw, hquiz, hgives⟩ := ok.drawn k a t squad₀ ha (hst'.trans hst) hsquad₀
    rw [hsub] at hdraw hgives
    refine ⟨draw, quiz, by rw [h.draws, hdraw], ?_, ?_⟩
    · unfold Db.quizOf at hquiz ⊢
      obtain ⟨block, hblock, rfl⟩ := Option.map_eq_some_iff.mp hquiz
      obtain ⟨c, hc, hblock⟩ := Option.bind_eq_some_iff.mp hblock
      rw [← hpin, ← hsub, hc, Option.bind_some, h.blocks c _ block hblock, Option.map_some]
    · rw [← hquestions]
      have hfirst := isFirst_congr (i := a'.submissionId) (t := t) h.origins k
      exact ⟨hgives.member, hgives.indexed, fun hf => hgives.slice (hfirst.mp hf),
        fun hf => hgives.again (hf ∘ hfirst.mpr)⟩

/-! One step -/

theorem Evolves.origins (h : Evolves db db') (hlen : db'.quizAttempts.length = db.quizAttempts.length) :
    db'.quizAttempts.map QuizAttempt.origin = db.quizAttempts.map QuizAttempt.origin := by
  refine List.ext_getElem? fun k => ?_
  rw [List.getElem?_map, List.getElem?_map]
  cases ha : db.quizAttempts[k]? with
  | none =>
    rw [List.getElem?_eq_none (by rw [hlen]; exact List.getElem?_eq_none_iff.mp ha)]
  | some a =>
    obtain ⟨a', ha', hkeep⟩ := h.attempts k a ha
    rw [ha', Option.map_some, Option.map_some, hkeep.origin]

theorem blockIn_some {c : ℕ} {block : PluginAssignment} : db.blockIn c i = some block ↔
    ∃ sub asg cfg, db.submissions[i]? = some sub ∧ db.assignmentOf sub.studentsAssignmentId = some asg ∧
      db.pluginConfigs[c]? = some cfg ∧ asg.code.isSome = true ∧ cfg.assignment asg.code = block := by
  unfold Db.blockIn
  simp only [Option.bind_eq_some_iff, Option.map_eq_some_iff, Option.isSome_iff_exists]
  constructor
  · rintro ⟨sub, hsub, asg, hasg, cfg, hcfg, code, hcode, hblock⟩
    exact ⟨sub, asg, cfg, hsub, hasg, hcfg, ⟨code, hcode⟩, hblock⟩
  · rintro ⟨sub, asg, cfg, hsub, hasg, hcfg, ⟨code, hcode⟩, hblock⟩
    exact ⟨sub, hsub, asg, hasg, cfg, hcfg, code, hcode, hblock⟩

theorem Evolves.blockIn {c : ℕ} {block : PluginAssignment} (h : Evolves db db') (hb : db.blockIn c i = some block) :
    db'.blockIn c i = some block := by
  obtain ⟨sub, asg, cfg, hsub, hasg, hcfg, hcode, hblock⟩ := blockIn_some.mp hb
  obtain ⟨sub', hsub', hsa, -⟩ := h.submission hsub
  exact blockIn_some.mpr ⟨sub', asg, cfg, hsub', by rw [hsa]; exact h.assignmentOf hasg, by rw [h.pluginConfigs, hcfg],
    hcode, hblock⟩

theorem StepSpec.keepsDrawn {op : Op} (h : StepSpec db op db') (hlen : db'.quizAttempts.length = db.quizAttempts.length)
    (hdraws : db.SameDraws db') : db.KeepsDrawn db' := by
  have hev := h.evolves
  have hsquads : db'.squads.length = db.squads.length := by
    have := congrArg List.length hev.rosters
    rwa [List.length_map, List.length_map] at this
  refine ⟨hev.origins hlen, hdraws, fun c i block => hev.blockIn, fun i sub' hsub' => ?_, ?_, hsquads.ge⟩
  · cases hsub : db.submissions[i]? with
    | some sub =>
      obtain ⟨s, hs, -, -, hq, -⟩ := hev.submission hsub
      rw [hsub', Option.some_inj] at hs
      exact .inl ⟨sub, rfl, hs ▸ hq⟩
    | none =>
      refine .inr ⟨rfl, fun q hq => ?_⟩
      obtain ⟨s, -, hs, -⟩ := (h.workOk hsub hsub').member q hq
      rw [← hsquads]
      exact (List.getElem?_eq_some_iff.mp hs).1
  · by_contra hlt
    obtain ⟨sub', hsub', -⟩ := hev.submission (List.getElem?_eq_getElem (Nat.lt_of_not_le hlt))
    exact absurd (List.getElem?_eq_some_iff.mp hsub').1 (Nat.lt_irrefl _)

theorem Evolves.members (h : Evolves db db') (hm : ∀ s ∈ db.squads, s.members.Nodup) : ∀ s ∈ db'.squads, s.members.Nodup := by
  intro s' hs'
  obtain ⟨q, hq⟩ := List.mem_iff_getElem?.mp hs'
  obtain ⟨s, hs, -, hmembers⟩ := roster_get h.rosters hq
  rw [← hmembers]
  exact hm s (List.mem_of_getElem? hs)

/-- A start asks for a retry when the student has an attempt already. -/
theorem Db.DrawsOk.retry_iff (ok : db.DrawsOk) (halone : ∀ b ∈ db.attemptsOf i t, b.status ≠ .inProgress ∧ b.passed = false) :
    decide (0 < ((db.attemptsOf i t).filter (·.status.isTerminal)).length) = true ↔
      ¬ db.IsFirst db.quizAttempts.length i t := by
  have hall : (db.attemptsOf i t).filter (·.status.isTerminal) = db.attemptsOf i t := by
    refine List.filter_eq_self.mpr fun b hb => ?_
    have hrun := (halone b hb).1
    cases hst : b.status with
    | inProgress => exact absurd hst hrun
    | _ => rfl
  rw [hall, decide_eq_true_iff, List.length_pos_iff_exists_mem]
  unfold Db.IsFirst Db.attemptsOf
  push Not
  constructor
  · rintro ⟨b, hb⟩
    obtain ⟨hmem, hb⟩ := List.mem_filter.mp hb
    simp only [Bool.and_eq_true, Bool.or_eq_true, beq_iff_eq] at hb
    obtain ⟨j, hj⟩ := List.mem_iff_getElem?.mp hmem
    refine ⟨j, b, (List.getElem?_eq_some_iff.mp hj).1, hj, hb.1, hb.2.resolve_right fun hnone => ?_⟩
    have := (ok.owned b hmem).1
    rw [hnone] at this
    cases this
  · rintro ⟨j, b, -, hj, hsub, hst⟩
    exact ⟨b, List.mem_filter.mpr ⟨List.mem_of_getElem? hj, by simp [hsub, hst]⟩⟩

/-- The plan of a start is the block of the config pinned to the submission. -/
theorem startPlan_ok {sub : Submission} {asg : SubjectsAssignment} {plan : StartPlan}
    (hsub : db.submissions[i]? = some sub) (hasg : db.assignmentOf sub.studentsAssignmentId = some asg)
    (h : db.startPlan sub asg = .ok plan) :
    sub.pluginConfigId = some plan.configId ∧ db.blockIn plan.configId i = some plan.block := by
  unfold Db.startPlan at h
  split at h
  · cases h
  · rename_i c hc
    split at h
    · cases h
    · rename_i cfg hcfg
      split_ifs at h with hcode
      dsimp only at h
      split_ifs at h
      cases h
      refine ⟨hc, blockIn_some.mpr ⟨sub, asg, cfg, hsub, hasg, hcfg, ?_, rfl⟩⟩
      cases hcode' : asg.code with
      | none => rw [hcode'] at hcode; exact absurd rfl hcode
      | some code => rfl

/-- A new attempt with what the draw of its squad, stored by now, gives its student. -/
theorem Db.DrawsOk.add (ok : db.DrawsOk) {a : QuizAttempt} (hst : a.studentId = some t)
    (hlt : a.submissionId < db.submissions.length)
    (hdrawn : ∀ squad, db.squadForSubmission a.submissionId = some squad → ∃ draw quiz,
      db.drawOf a.submissionId = some draw ∧ db.quizOf a = some quiz ∧
      draw.Gives quiz t (db.IsFirst db.quizAttempts.length a.submissionId t) (a.questionsSnapshot.map (·.id))) :
    ({ db with quizAttempts := db.quizAttempts ++ [a] } : Db).DrawsOk := by
  have hfirst : ∀ {k i t' : ℕ}, k ≤ db.quizAttempts.length →
      (({ db with quizAttempts := db.quizAttempts ++ [a] } : Db).IsFirst k i t' ↔ db.IsFirst k i t') := by
    intro k i t' hk
    refine forall_congr' fun j => forall_congr' fun b => forall_congr' fun hj => ?_
    rw [List.getElem?_append_left (by omega)]
  refine ⟨ok.members, ok.linked, fun b hb => ?_, ok.shared, fun k b u squad hb hu hsquad => ?_⟩
  · rcases List.mem_append.mp hb with hb | hb
    · exact ok.owned b hb
    · rw [List.mem_singleton.mp hb]
      exact ⟨by rw [hst]; rfl, hlt⟩
  · rcases Table.getElem?_concat_some hb with hold | ⟨rfl, rfl⟩
    · obtain ⟨draw, quiz, hdraw, hquiz, hgives⟩ := ok.drawn k b u squad hold hu hsquad
      have hk := (List.getElem?_eq_some_iff.mp hold).1.le
      exact ⟨draw, quiz, hdraw, hquiz, hgives.member, hgives.indexed, fun h => hgives.slice ((hfirst hk).mp h),
        fun h => hgives.again (h ∘ (hfirst hk).mpr)⟩
    · rw [hst, Option.some_inj] at hu
      subst hu
      obtain ⟨draw, quiz, hdraw, hquiz, hgives⟩ := hdrawn squad hsquad
      exact ⟨draw, quiz, hdraw, hquiz, hgives.member, hgives.indexed, fun h => hgives.slice ((hfirst le_rfl).mp h),
        fun h => hgives.again (h ∘ (hfirst le_rfl).mpr)⟩

/-- The draw of a squad that has none is stored: nobody of it has an attempt yet. -/
theorem Db.DrawsOk.store (ok : db.DrawsOk) {squad : Squad} {draw : SquadDraw}
    (hsquad : db.squadForSubmission i = some squad) (hnone : db.drawOf i = none) (hshared : draw.Shared) :
    (db.setSubmission i ({ · with squadQuizDraw := some draw })).DrawsOk ∧
      (db.setSubmission i ({ · with squadQuizDraw := some draw })).drawOf i = some draw := by
  have hget : ∀ j : ℕ, (db.setSubmission i ({ · with squadQuizDraw := some draw })).submissions[j]? =
      (db.submissions[j]?).map fun sub => if i = j then { sub with squadQuizDraw := some draw } else sub := by
    intro j
    rw [Db.setSubmission_submissions, List.getElem?_modify]
    cases db.submissions[j]? with
    | none => rfl
    | some sub => split_ifs <;> rfl
  have hself : (db.setSubmission i ({ · with squadQuizDraw := some draw })).drawOf i = some draw := by
    unfold Db.squadForSubmission at hsquad
    obtain ⟨q, hq, -⟩ := Option.bind_eq_some_iff.mp hsquad
    obtain ⟨sub, hsub, -⟩ := Option.bind_eq_some_iff.mp hq
    exact drawOf_store hsub draw
  have hother : ∀ j, j ≠ i → (db.setSubmission i ({ · with squadQuizDraw := some draw })).drawOf j = db.drawOf j := by
    intro j hj
    rw [Db.drawOf, hget]
    unfold Db.drawOf
    cases db.submissions[j]? with
    | none => rfl
    | some sub => rw [Option.map_some, if_neg hj.symm]
  have hsquads : ∀ j, (db.setSubmission i ({ · with squadQuizDraw := some draw })).squadForSubmission j =
      db.squadForSubmission j := by
    intro j
    unfold Db.squadForSubmission
    rw [hget]
    cases db.submissions[j]? with
    | none => rfl
    | some sub =>
      rw [Option.map_some, Option.bind_some, Option.bind_some]
      split_ifs <;> rfl
  have hev : Evolves db (db.setSubmission i ({ · with squadQuizDraw := some draw })) :=
    evolves_setSubmission db i fun _ => rfl
  refine ⟨⟨ok.members, fun sub' hsub' q hq => ?_, fun a ha => ?_, fun j draw' hdraw' => ?_, fun k a u squad' ha hu hsq => ?_⟩, hself⟩
  · obtain ⟨j, hj⟩ := List.mem_iff_getElem?.mp hsub'
    rw [hget] at hj
    obtain ⟨sub, hsub, rfl⟩ := Option.map_eq_some_iff.mp hj
    refine ok.linked sub (List.mem_of_getElem? hsub) q ?_
    split_ifs at hq <;> exact hq
  · refine ⟨(ok.owned a ha).1, ?_⟩
    rw [Db.setSubmission_submissions, List.length_modify]
    exact (ok.owned a ha).2
  · by_cases hj : j = i
    · rw [hj, hself, Option.some_inj] at hdraw'
      rw [← hdraw']
      exact hshared
    · rw [hother j hj] at hdraw'
      exact ok.shared j draw' hdraw'
  · rw [hsquads] at hsq
    obtain ⟨draw', quiz, hdraw', hquiz, hgives⟩ := ok.drawn k a u squad' ha hu hsq
    have hne : a.submissionId ≠ i := by
      rintro heq
      rw [heq, hnone] at hdraw'
      cases hdraw'
    refine ⟨draw', quiz, by rw [hother _ hne, hdraw'], ?_, hgives⟩
    unfold Db.quizOf at hquiz ⊢
    obtain ⟨block, hblock, rfl⟩ := Option.map_eq_some_iff.mp hquiz
    obtain ⟨c, hc, hblock⟩ := Option.bind_eq_some_iff.mp hblock
    rw [hc, Option.bind_some, hev.blockIn hblock, Option.map_some]

theorem nodup_memberOrder {members : List ℕ} (h : members.Nodup) : (members.insertionSort (· ≤ ·)).Nodup :=
  ((List.perm_insertionSort (· ≤ ·) members).nodup_iff).mpr h

/-- A draw that a start stores shares its questions out. -/
theorem squadDraw_shared {squad : Squad} {quiz : QuizConfig} {rnd : Shuffles} {draw : SquadDraw}
    (hmembers : squad.members.Nodup) (hstored : ∀ draw, db.drawOf i = some draw → draw.Shared)
    (h : db.squadDraw i squad quiz rnd = .ok (db', draw)) : draw.Shared := by
  rcases squadDraw_ok h with ⟨hdraw, -⟩ | ⟨-, hsome, -, rfl⟩
  · exact hstored draw hdraw
  · refine shared_split (nodup_memberOrder hmembers) (fun hnil => hsome ?_) (nodup_selectQuestionIds quiz rnd)
      fun id hid => (isGradable_of_selected hid).lt
    rw [← List.length_eq_zero_iff, ← List.length_insertionSort (· ≤ ·), hnil]
    rfl

theorem Db.DrawsOk.startAttempt {asg : SubjectsAssignment} {sa : StudentAssignment} {sub : Submission} {rnd : Shuffles}
    (ok : db.DrawsOk) (hsub : db.submissions[i]? = some sub) (hasg : db.assignmentOf sub.studentsAssignmentId = some asg)
    (halone : ∀ b ∈ db.attemptsOf i sa.studentId, b.status ≠ .inProgress ∧ b.passed = false)
    (h : db.startAttempt sa asg i sub (db.attemptsOf i sa.studentId) rnd = .ok db') : db'.DrawsOk := by
  have hlt : i < db.submissions.length := (List.getElem?_eq_some_iff.mp hsub).1
  rcases startAttempt_ok h with rfl | ⟨plan, db₁, questions, hplan, rfl, ⟨hsolo, rfl⟩ | ⟨squad, hsquad, hdraw⟩⟩
  · exact ok
  · refine ok.add rfl hlt fun squad hsquad => ?_
    rw [show (db₁.newAttempt i sa.studentId plan.configId plan.version plan.block questions).submissionId = i from rfl,
      hsolo] at hsquad
    cases hsquad
  · obtain ⟨-, hblock⟩ := startPlan_ok hsub hasg hplan
    obtain ⟨draw, hdrawn, hmember, hrange, rfl⟩ := drawForMember_ok hdraw
    have hmembers : squad.members.Nodup := by
      unfold Db.squadForSubmission at hsquad
      obtain ⟨q, -, hq⟩ := Option.bind_eq_some_iff.mp hsquad
      exact ok.members squad (List.mem_of_getElem? hq)
    have hshared := squadDraw_shared hmembers (ok.shared i) hdrawn
    have hgives := hshared.gives hmember hrange (ok.retry_iff halone)
    -- the state the attempt is added to, with the draw stored
    have hstored : db₁.DrawsOk ∧ db₁.drawOf i = some draw ∧ db₁.quizAttempts = db.quizAttempts ∧
        i < db₁.submissions.length ∧ db₁.blockIn plan.configId i = some plan.block := by
      rcases squadDraw_ok hdrawn with ⟨hold, rfl⟩ | ⟨hnone, -, rfl, -⟩
      · exact ⟨ok, hold, rfl, hlt, hblock⟩
      · obtain ⟨hok, hself⟩ := ok.store hsquad hnone hshared
        have hev : Evolves db (db.setSubmission i ({ · with squadQuizDraw := some draw })) :=
          evolves_setSubmission db i fun _ => rfl
        refine ⟨hok, hself, rfl, ?_, hev.blockIn hblock⟩
        rw [Db.setSubmission_submissions, List.length_modify]
        exact hlt
    obtain ⟨hok, hself, hattempts, hlt₁, hblock₁⟩ := hstored
    refine hok.add rfl hlt₁ fun _ _ => ⟨draw, plan.block.quiz, hself, ?_, ?_⟩
    · change ((some plan.configId).bind (db₁.blockIn · i)).map (·.quiz) = _
      rw [Option.bind_some, hblock₁, Option.map_some]
    · have hsame : db₁.IsFirst db₁.quizAttempts.length i sa.studentId ↔ db.IsFirst db.quizAttempts.length i sa.studentId := by
        unfold Db.IsFirst
        rw [hattempts]
      exact ⟨hgives.member, hgives.indexed, fun hf => hgives.slice (hsame.mp hf), fun hf => hgives.again (hf ∘ hsame.mpr)⟩

/-- Every step of the system keeps what was drawn. -/
theorem Db.DrawsOk.step (ok : db.DrawsOk) (op : Op) : (db.step op).DrawsOk := by
  have hspec := step_spec db op
  by_cases hop : ∀ saId t rnd, op ≠ .startQuiz saId t rnd
  · have hlen : (db.step op).quizAttempts.length = db.quizAttempts.length := by
      rcases hspec.attempts with hsame | ⟨⟨saId, t, rnd, rfl⟩, -⟩
      · exact hsame
      · exact absurd rfl (hop saId t rnd)
    exact ok.keep (hspec.keepsDrawn hlen (hspec.sameDraws hop)) (hspec.evolves.members ok.members)
  · push Not at hop
    obtain ⟨saId, t, rnd, rfl⟩ := hop
    unfold Db.step
    cases hreq : db.request (.startQuiz saId t rnd) with
    | error e => exact ok
    | ok db' =>
      obtain ⟨sa, asg, db₂, i, sub, hsa, rfl, hasg, hfinds, hsub, -, h⟩ := startOrResumeQuiz_ok hreq
      obtain ⟨hreach, hasgs⟩ := hfinds.reaches hsa rfl hasg
      obtain ⟨hdraws, hattempts, hstarted⟩ := hfinds.keeps hsa rfl
      have hspec₂ : StepSpec db (.startQuiz saId sa.studentId rnd) db₂ := .start hstarted
      have ok₂ : db₂.DrawsOk :=
        ok.keep (hspec₂.keepsDrawn (congrArg List.length hattempts) hdraws) (hspec₂.evolves.members ok.members)
      rcases h with rfl | ⟨halone, h⟩
      · exact ok₂
      · obtain ⟨sub', row, asg', hsub', hrow, hrowasg, hasg', -⟩ := hreach
        rw [hsub, Option.some_inj] at hsub'
        subst hsub'
        refine ok₂.startAttempt hsub ?_ halone h
        rw [Db.assignmentOf, hrow, Option.bind_some, hrowasg, hasgs, hasg]

end

end SubmissionsChecker
