import SubmissionsChecker.Library.Deal
import SubmissionsChecker.Properties.SquadDraws

/-! Whether each member of a squad can pass. What a member is dealt is worth the more the more questions there are, and
nothing compares their number and points with the squad: the least a member can be dealt decides. -/

namespace SubmissionsChecker

open Deal Runs

/-- Whatever answers are given to them, the attempt counts out of something, and all the right ones pass. -/
def Passable (questions : List QuestionSnapshot) : Prop :=
  ∀ a : QuizAttempt, a.questionsSnapshot = questions → 0 < a.scoreAttempt.maxScore ∧
    (a.answers = questions.map (gradeAnswer · true) → a.forceFail = false →
      a.configSnapshot.passThresholdPct.getD defaultPassThresholdPct ≤ 1 → a.scoreAttempt.isPassed = true)

/-- Whatever draw is shared next, every member's first attempt on it can be passed. -/
def Db.FirstsPassable (db : Db) (i : ℕ) (squad : Squad) (quiz : QuizConfig) : Prop :=
  ∀ rnd db₁ draw, db.squadDraw i squad quiz rnd = .ok (db₁, draw) → ∀ t ∈ squad.members, ∀ rnd' db₂ questions,
    db₁.drawForMember i squad quiz t false rnd' = .ok (db₂, questions) → Passable questions

namespace QuizConfig

/-- What the snapshot of question `id` is worth. -/
def worth (quiz : QuizConfig) (id : ℕ) : ℤ := ((quiz.questions[id]?).map (·.points.getD 1)).getD 0

/-- The least that the questions dealt to member `m` of `n` can be worth: of the order of the config, or of the cheapest
questions in any order. -/
def leastWorth (quiz : QuizConfig) (n m : ℕ) : ℤ :=
  if quiz.shuffleQuestions.getD true then
    cheapest (dealt n m 0 quiz.requiredIds.length) (quiz.requiredIds.map quiz.worth) +
      cheapest (dealt n m quiz.requiredIds.length (min quiz.optionalWanted quiz.optionalIds.length))
        (quiz.optionalIds.map quiz.worth)
  else ((hand n m 0 (quiz.requiredIds ++ quiz.optionalIds.take quiz.optionalWanted)).map quiz.worth).sum

/-- Each of `n` members is worth something. -/
def PaysAll (quiz : QuizConfig) (n : ℕ) : Prop := ∀ m < n, 0 < quiz.leastWorth n m

instance (quiz : QuizConfig) (n : ℕ) : Decidable (quiz.PaysAll n) :=
  inferInstanceAs (Decidable (∀ m < n, 0 < quiz.leastWorth n m))

end QuizConfig

section

variable {quiz : QuizConfig} {ids : List ℕ} {id n m i t : ℕ} {rnd : Shuffles} {questions : List QuestionSnapshot}

/-! The worth of a snapshot -/

theorem sum_snapshotQuestions (quiz : QuizConfig) (ids : List ℕ) :
    ((snapshotQuestions quiz ids).map (·.points)).sum = (ids.map quiz.worth).sum := by
  unfold snapshotQuestions
  induction ids with
  | nil => rfl
  | cons id ids ih =>
    rw [List.map_cons, List.sum_cons, ← ih, List.filterMap_cons, QuizConfig.worth]
    cases quiz.questions[id]? with
    | none => exact (zero_add _).symm
    | some q => rfl

theorem sum_gradeAnswer (htypes : ∀ q ∈ questions, q.type ≠ .unsupported) :
    pointsTotal (questions.map (gradeAnswer · true)) = (questions.map (·.points)).sum := by
  unfold pointsTotal
  rw [List.map_map]
  congr 1
  refine List.map_congr_left fun q hq => ?_
  have hright : (true && q.type != .unsupported) = true := by simpa using htypes q hq
  change (some (if (true && q.type != .unsupported) = true then q.points else 0)).getD 0 = q.points
  rw [if_pos hright]
  rfl

/-- An attempt can be passed exactly when its questions are worth something. -/
theorem passable_iff (htypes : ∀ q ∈ questions, q.type ≠ .unsupported) :
    Passable questions ↔ 0 < (questions.map (·.points)).sum := by
  constructor
  · intro h
    have hmax := (h { submissionId := 0, questionsSnapshot := questions } rfl).1
    rwa [scoreAttempt_maxScore] at hmax
  · rintro hpos a rfl
    rw [scoreAttempt_maxScore]
    refine ⟨hpos, fun hanswers hforce hthreshold => ?_⟩
    have hscore : pointsTotal a.answers = (a.questionsSnapshot.map (·.points)).sum := by
      rw [hanswers, sum_gradeAnswer htypes]
    unfold QuizAttempt.scoreAttempt
    rw [if_neg (by simp [hforce]), hscore]
    have hne : (((a.questionsSnapshot.map (·.points)).sum : ℤ) : ℚ) ≠ 0 := Int.cast_ne_zero.mpr hpos.ne'
    simp only [Bool.and_eq_true, decide_eq_true_eq]
    exact ⟨hpos, by rw [div_self hne]; exact hthreshold⟩

/-! The order in which a draw is dealt -/

/-- The ids of a draw in the order they are dealt. -/
def dealtIds (quiz : QuizConfig) (rnd : Shuffles) : List ℕ :=
  (dealtOrder (snapshotQuestions quiz (selectQuestionIds quiz rnd))).map (·.id)

theorem filter_snapshotQuestions (p : Bool → Bool) (h : ∀ id ∈ ids, id < quiz.questions.length) :
    ((snapshotQuestions quiz ids).filter fun q => p q.isRequired).map (·.id) =
      ids.filter fun id => p ((quiz.questions[id]?).any (·.required)) := by
  induction ids with
  | nil => rfl
  | cons id ids ih =>
    have hrest := ih fun id hid => h id (List.mem_cons_of_mem _ hid)
    have hget := List.getElem?_eq_getElem (h id List.mem_cons_self)
    unfold snapshotQuestions at hrest ⊢
    rw [List.filterMap_cons, hget, Option.map_some, List.filter_cons, List.filter_cons, hget]
    dsimp only [Option.any_some]
    split_ifs
    · rw [List.map_cons, hrest]
    · exact hrest

theorem dealtIds_eq (quiz : QuizConfig) (rnd : Shuffles) : dealtIds quiz rnd =
    (selectQuestionIds quiz rnd).filter (fun id => (quiz.questions[id]?).any (·.required)) ++
      (selectQuestionIds quiz rnd).filter fun id => !(quiz.questions[id]?).any (·.required) := by
  have hrange : ∀ id ∈ selectQuestionIds quiz rnd, id < quiz.questions.length := fun id hid => (isGradable_of_selected hid).lt
  rw [dealtIds, dealtOrder, List.map_append, ← filter_snapshotQuestions (fun b => b) hrange,
    ← filter_snapshotQuestions (fun b => !b) hrange]

theorem required_of_mem (h : id ∈ quiz.requiredIds) : (quiz.questions[id]?).any (·.required) = true := by
  obtain ⟨q, hq, -, hreq⟩ := mem_requiredIds.mp h
  rw [hq]
  exact hreq

theorem optional_of_mem (h : id ∈ quiz.optionalIds) : (quiz.questions[id]?).any (·.required) = false := by
  obtain ⟨⟨q, hq, htype⟩, hnot⟩ := mem_optionalIds.mp h
  rw [hq]
  exact Bool.eq_false_iff.mpr fun hreq => hnot ⟨q, hq, htype, hreq⟩

/-- A list of required questions and then optional ones is dealt as it is. -/
theorem filter_parts (quiz : QuizConfig) {required optional : List ℕ} (hr : required ⊆ quiz.requiredIds) (ho : optional ⊆ quiz.optionalIds) :
    (required ++ optional).filter (fun id => (quiz.questions[id]?).any (·.required)) = required ∧
      (required ++ optional).filter (fun id => !(quiz.questions[id]?).any (·.required)) = optional := by
  rw [List.filter_append, List.filter_append]
  refine ⟨?_, ?_⟩
  · rw [List.filter_eq_self.mpr fun id hid => required_of_mem (hr hid),
      List.filter_eq_nil_iff.mpr fun id hid => by rw [optional_of_mem (ho hid)]; exact Bool.false_ne_true, List.append_nil]
  · rw [List.filter_eq_nil_iff.mpr fun id hid => by rw [required_of_mem (hr hid)]; exact Bool.false_ne_true,
      List.filter_eq_self.mpr fun id hid => by rw [optional_of_mem (ho hid)]; rfl, List.nil_append]

/-- Without shuffling the draw is dealt in the order of the config. -/
theorem dealtIds_ordered (h : quiz.shuffleQuestions.getD true = false) (rnd : Shuffles) :
    dealtIds quiz rnd = quiz.requiredIds ++ quiz.optionalIds.take quiz.optionalWanted := by
  have hsel : selectQuestionIds quiz rnd = quiz.requiredIds ++ quiz.optionalIds.take quiz.optionalWanted := by
    unfold selectQuestionIds
    dsimp only
    rw [h]
    rfl
  obtain ⟨hr, ho⟩ := filter_parts quiz (List.Subset.refl _) (List.take_subset quiz.optionalWanted quiz.optionalIds)
  rw [dealtIds_eq, hsel, hr, ho]

theorem dealtIds_parts (quiz : QuizConfig) (rnd : Shuffles) : ∃ required optional : List ℕ,
    dealtIds quiz rnd = required ++ optional ∧ required.Perm quiz.requiredIds ∧ optional.Subperm quiz.optionalIds ∧
      optional.length = min quiz.optionalWanted quiz.optionalIds.length := by
  obtain ⟨optional, hopt, hsel⟩ := selectQuestionIds_perm quiz rnd
  have htake : optional.take quiz.optionalWanted ⊆ quiz.optionalIds := fun id hid => hopt.subset (List.mem_of_mem_take hid)
  obtain ⟨hr, ho⟩ := filter_parts quiz (List.Subset.refl _) htake
  have hreq := hsel.filter fun id => (quiz.questions[id]?).any (·.required)
  have hrest := hsel.filter fun id => !(quiz.questions[id]?).any (·.required)
  rw [hr] at hreq
  rw [ho] at hrest
  refine ⟨_, _, dealtIds_eq quiz rnd, hreq, hrest.subperm.trans ?_, ?_⟩
  · exact (List.take_sublist _ _).subperm.trans hopt.subperm
  · rw [hrest.length_eq, List.length_take, hopt.length_eq]

/-- A shuffle may put any one list in any order. -/
theorem exists_shuffle {l l' : List ℕ} (h : l'.Perm l) : ∃ s : Shuffle, s.run l = l' := by
  refine ⟨⟨fun x => if x = l then l' else x, fun x => ?_⟩, if_pos rfl⟩
  split_ifs with hx
  · rw [hx]
    exact h
  · rfl

/-- With shuffling it may be dealt in any order that starts with the required questions. -/
theorem exists_dealtIds (h : quiz.shuffleQuestions.getD true = true) {required optional chosen : List ℕ}
    (hr : required.Perm quiz.requiredIds) (ho : optional.Perm quiz.optionalIds)
    (hc : chosen.Perm (optional.take quiz.optionalWanted)) : ∃ rnd, dealtIds quiz rnd = required ++ chosen := by
  obtain ⟨s, hs⟩ := exists_shuffle ho
  obtain ⟨s', hs'⟩ := exists_shuffle (hr.append hc)
  have hsel : selectQuestionIds quiz { optional := s, selected := s' } = required ++ chosen := by
    unfold selectQuestionIds
    dsimp only
    rw [if_pos h, if_pos h]
    change s'.run (quiz.requiredIds ++ (s.run quiz.optionalIds).take quiz.optionalWanted) = _
    rw [hs, hs']
  have hsub : chosen ⊆ quiz.optionalIds := fun id hid => ho.subset (List.mem_of_mem_take (hc.subset hid))
  obtain ⟨hreq, hopt⟩ := filter_parts quiz hr.subset hsub
  exact ⟨_, by rw [dealtIds_eq, hsel, hreq, hopt]⟩

/-! The worth of a hand -/

/-- What member `m` of `n` is dealt is worth. -/
def handWorth (quiz : QuizConfig) (n m : ℕ) (rnd : Shuffles) : ℤ := ((hand n m 0 (dealtIds quiz rnd)).map quiz.worth).sum

theorem cheapest_hand_le {l l' : List ℕ} (h : l.Subperm l') (n m s : ℕ) (worth : ℕ → ℤ) :
    cheapest (dealt n m s l.length) (l'.map worth) ≤ ((hand n m s l).map worth).sum := by
  obtain ⟨k, hperm, hsub⟩ := (hand_sublist s l).subperm.trans h
  have hworth : ((hand n m s l).map worth).Subperm (l'.map worth) := ⟨k.map worth, hperm.map worth, hsub.map worth⟩
  have hle := cheapest_le hworth
  rwa [List.length_map, length_hand] at hle

theorem leastWorth_le (quiz : QuizConfig) (n m : ℕ) (rnd : Shuffles) : quiz.leastWorth n m ≤ handWorth quiz n m rnd := by
  unfold QuizConfig.leastWorth handWorth
  by_cases hshuffle : quiz.shuffleQuestions.getD true = true
  · obtain ⟨required, optional, hdealt, hr, ho, hlen⟩ := dealtIds_parts quiz rnd
    have hreq := cheapest_hand_le hr.subperm n m 0 quiz.worth
    have hopt := cheapest_hand_le ho n m required.length quiz.worth
    rw [hr.length_eq] at hreq hopt
    rw [hlen] at hopt
    rw [if_pos hshuffle, hdealt, hand_append, List.map_append, List.sum_append, Nat.zero_add, hr.length_eq]
    exact add_le_add hreq hopt
  · rw [if_neg hshuffle, dealtIds_ordered (Bool.not_eq_true _ ▸ hshuffle)]

/-- Some shuffle deals no more than that. -/
theorem exists_leastWorth (quiz : QuizConfig) (n m : ℕ) : ∃ rnd, handWorth quiz n m rnd = quiz.leastWorth n m := by
  unfold QuizConfig.leastWorth handWorth
  by_cases hshuffle : quiz.shuffleQuestions.getD true = true
  · obtain ⟨required, hr, hreq⟩ := exists_cheapest n m 0 quiz.requiredIds.length quiz.worth quiz.requiredIds le_rfl
    obtain ⟨chosen, hc, hopt⟩ := exists_cheapest n m quiz.requiredIds.length (min quiz.optionalWanted quiz.optionalIds.length)
      quiz.worth quiz.optionalIds (min_le_right _ _)
    have hsorted := List.perm_insertionSort (fun a b => quiz.worth a ≤ quiz.worth b) quiz.optionalIds
    have hr' : required.Perm quiz.requiredIds := by
      rw [List.take_of_length_le (List.length_insertionSort _ _).le] at hr
      exact hr.trans (List.perm_insertionSort _ _)
    have hc' : chosen.Perm ((quiz.optionalIds.insertionSort fun a b => quiz.worth a ≤ quiz.worth b).take quiz.optionalWanted) := by
      rwa [← hsorted.length_eq, ← List.take_eq_take_min] at hc
    obtain ⟨rnd, hrnd⟩ := exists_dealtIds hshuffle hr' hsorted hc'
    refine ⟨rnd, ?_⟩
    rw [if_pos hshuffle, hrnd, hand_append, List.map_append, List.sum_append, hreq, Nat.zero_add, hr'.length_eq, hopt]
  · rw [if_neg hshuffle]
    exact ⟨{}, by rw [dealtIds_ordered (Bool.not_eq_true _ ▸ hshuffle)]⟩

/-! The first attempts of a squad -/

variable {db db₁ db₂ : Db} {squad : Squad} {draw : SquadDraw} {sub : Submission}

theorem squadDraw_fresh (hsub : db.submissions[i]? = some sub) (hnone : db.drawOf i = none)
    (h : db.squadDraw i squad quiz rnd = .ok (db₁, draw)) : db₁.drawOf i = some draw ∧
      draw = { questionIds := selectQuestionIds quiz rnd
               slices := splitDraw (snapshotQuestions quiz (selectQuestionIds quiz rnd))
                 (squad.members.insertionSort (· ≤ ·)).length
               memberOrder := squad.members.insertionSort (· ≤ ·) } := by
  rcases squadDraw_ok h with ⟨hstored, -⟩ | ⟨-, -, rfl, hdraw⟩
  · rw [hnone] at hstored
    cases hstored
  · exact ⟨drawOf_store hsub draw, hdraw⟩

theorem snapshot_supported (hquiz : quiz.Supported) : ∀ q ∈ snapshotQuestions quiz ids, q.type ≠ .unsupported := by
  intro q hq
  obtain ⟨id, -, hq⟩ := List.mem_filterMap.mp hq
  obtain ⟨c, hc, rfl⟩ := Option.map_eq_some_iff.mp hq
  exact hquiz c (List.mem_of_getElem? hc)

/-- The first attempt of member `t` is worth what they were dealt. -/
theorem first_attempt_worth (hquiz : quiz.Supported) (hsub : db.submissions[i]? = some sub) (hnone : db.drawOf i = none)
    (hdraw : db.squadDraw i squad quiz rnd = .ok (db₁, draw)) (ht : t ∈ squad.members) {rnd' : Shuffles}
    (h : db₁.drawForMember i squad quiz t false rnd' = .ok (db₂, questions)) :
    (∀ q ∈ questions, q.type ≠ .unsupported) ∧ (questions.map (·.points)).sum =
      handWorth quiz squad.members.length ((squad.members.insertionSort (· ≤ ·)).idxOf t) rnd := by
  obtain ⟨hstored, hdrawn⟩ := squadDraw_fresh hsub hnone hdraw
  obtain ⟨draw', hdraw', hmember, hrange, rfl⟩ := drawForMember_ok h
  rw [squadDraw_stored hstored, Except.ok.injEq, Prod.mk.injEq] at hdraw'
  obtain ⟨rfl, rfl⟩ := hdraw'
  change (∀ q ∈ snapshotQuestions quiz (draw.drawIds quiz t false rnd').2, _) ∧
    ((snapshotQuestions quiz (draw.drawIds quiz t false rnd').2).map (·.points)).sum = _
  refine ⟨snapshot_supported hquiz, ?_⟩
  · have horder : t ∈ squad.members.insertionSort (· ≤ ·) := (List.mem_insertionSort _).mpr ht
    rw [sum_snapshotQuestions, ((drawIds_perm draw quiz t rnd').map quiz.worth).sum_eq, hdrawn,
      sliceOf_split horder, List.length_insertionSort]
    rfl

/-- The draw gives each member a first attempt. -/
theorem first_attempt_drawn (hquiz : quiz.Supported) (hmembers : squad.members.Nodup)
    (hsub : db.submissions[i]? = some sub) (hnone : db.drawOf i = none)
    (hdraw : db.squadDraw i squad quiz rnd = .ok (db₁, draw)) (ht : t ∈ squad.members) (rnd' : Shuffles) :
    ∃ questions, db₁.drawForMember i squad quiz t false rnd' = .ok (db₁, questions) := by
  obtain ⟨hstored, hdrawn⟩ := squadDraw_fresh hsub hnone hdraw
  have hshared : draw.Shared := squadDraw_shared hmembers (fun d hd => by rw [hnone] at hd; cases hd) hdraw
  have horder : t ∈ draw.memberOrder := by
    rw [hdrawn]
    exact (List.mem_insertionSort _).mpr ht
  refine (drawForMember_ok_iff hquiz.isGradable_iff (squadDraw_stored hstored) horder false).mpr fun id hid => ?_
  have hin := (hshared.covers id).mpr ⟨t, horder, (drawIds_perm draw quiz t rnd').subset hid⟩
  rw [hdrawn] at hin
  exact isGradable_of_selected hin

/-- Every first attempt on a new draw can be passed exactly when the least that any member can be dealt is worth
something. -/
theorem members_can_pass_iff {cfg : SubjectConfig} {code : String} {block : AssignmentBlock}
    (hcfg : cfg.validateQuizQuestions = .ok ()) (hblock : (code, block) ∈ cfg.assignments)
    (hsub : db.submissions[i]? = some sub) (hnone : db.drawOf i = none) (hmembers : squad.members.Nodup)
    (hsome : squad.members ≠ []) :
    db.FirstsPassable i squad block.quiz ↔ block.quiz.PaysAll squad.members.length := by
  have hquiz := supported_of_accepted hcfg hblock
  constructor
  · intro hall m hm
    obtain ⟨rnd, hrnd⟩ := exists_leastWorth block.quiz squad.members.length m
    obtain ⟨db₁, draw, hdraw⟩ := squadDraw_new hnone hsome block.quiz rnd
    have hm' : m < (squad.members.insertionSort (· ≤ ·)).length := by rwa [List.length_insertionSort]
    have ht : (squad.members.insertionSort (· ≤ ·))[m] ∈ squad.members :=
      (List.mem_insertionSort (· ≤ ·)).mp (List.getElem_mem hm')
    obtain ⟨questions, hdrawn⟩ := first_attempt_drawn hquiz hmembers hsub hnone hdraw ht {}
    obtain ⟨htypes, hworth⟩ := first_attempt_worth hquiz hsub hnone hdraw ht hdrawn
    have hpass := (passable_iff htypes).mp (hall rnd db₁ draw hdraw _ ht {} db₁ questions hdrawn)
    rwa [hworth, List.Nodup.idxOf_getElem (nodup_memberOrder hmembers), hrnd] at hpass
  · intro hpays rnd db₁ draw hdraw t ht rnd' db₂ questions hdrawn
    obtain ⟨htypes, hworth⟩ := first_attempt_worth hquiz hsub hnone hdraw ht hdrawn
    have hlt : (squad.members.insertionSort (· ≤ ·)).idxOf t < squad.members.length := by
      have hidx := List.idxOf_lt_length_of_mem ((List.mem_insertionSort (· ≤ ·)).mpr ht)
      rwa [List.length_insertionSort] at hidx
    rw [passable_iff htypes, hworth]
    exact (hpays _ hlt).trans_le (leastWorth_le _ _ _ _)

end

/-! A quiz with fewer questions than members -/

/-- The config with one question is applied before the squad is formed. -/
def oneForTwo : List PortalOp := .apply 0 (quizAfterChecks 1) :: sentToTwo

/-- The second member is dealt nothing. -/
theorem dealt_nothing : ¬ ∀ (isTest : ℕ → Bool) (p₀ p : Portal) (ops : List PortalOp) (i : ℕ) (squad : Squad)
    (block : PluginAssignment) (rnd : Shuffles) (db₁ : Db) (draw : SquadDraw) (t : ℕ) (rnd' : Shuffles) (db₂ : Db)
    (questions : List QuestionSnapshot), p₀.Fresh → Run (Portal.step isTest) Any p₀ ops p →
    p.db.squadForSubmission i = some squad → p.db.pinnedBlock i = some block → block.quiz.questions ≠ [] →
    p.db.squadDraw i squad block.quiz rnd = .ok (db₁, draw) → t ∈ squad.members →
    db₁.drawForMember i squad block.quiz t false rnd' = .ok (db₂, questions) → Passable questions := by
  intro hall
  have hrun : Run (Portal.step fun _ => false) Any quizForTwo oneForTwo
      (oneForTwo.foldl (Portal.step fun _ => false) quizForTwo) := run_foldl _
  have hsquad : (oneForTwo.foldl (Portal.step fun _ => false) quizForTwo).db.squadForSubmission 0 =
      some { subjectId := 0, members := [0, 1], lockedAt := some 0 } := by decide +kernel
  have hblock : (oneForTwo.foldl (Portal.step fun _ => false) quizForTwo).db.pinnedBlock 0 =
      some { reviewMode := some .testsThenQuiz, quiz := quizOnce 1 } := by decide +kernel
  have hnone : (oneForTwo.foldl (Portal.step fun _ => false) quizForTwo).db.drawOf 0 = none := by decide +kernel
  obtain ⟨sub, hsub⟩ : ∃ sub, (oneForTwo.foldl (Portal.step fun _ => false) quizForTwo).db.submissions[0]? = some sub :=
    Option.isSome_iff_exists.mp (by decide +kernel)
  have hquiz : (quizOnce 1).Supported := by
    unfold QuizConfig.Supported
    decide
  have hsome : ({ subjectId := 0, members := [0, 1], lockedAt := some 0 } : Squad).members ≠ [] := by decide
  obtain ⟨db₁, draw, hdraw⟩ := squadDraw_new hnone hsome (quizOnce 1) {}
  obtain ⟨questions, hdrawn⟩ := first_attempt_drawn hquiz (by decide) hsub hnone hdraw (t := 1) (by decide) {}
  obtain ⟨htypes, hworth⟩ := first_attempt_worth hquiz hsub hnone hdraw (t := 1) (by decide) hdrawn
  have hpass := hall _ _ _ _ 0 _ _ {} db₁ draw 1 {} db₁ questions quizForTwo_fresh hrun hsquad hblock (by decide) hdraw
    (by decide) hdrawn
  rw [passable_iff htypes, hworth] at hpass
  exact absurd hpass (by decide +kernel)

/-- With four questions both members are dealt some. -/
theorem four_for_two : (sentToTwo.foldl (Portal.step fun _ => false) quizForTwo).db.FirstsPassable 0
    { subjectId := 0, members := [0, 1], lockedAt := some 0 } (quizOnce 4) := by
  obtain ⟨sub, hsub⟩ : ∃ sub, (sentToTwo.foldl (Portal.step fun _ => false) quizForTwo).db.submissions[0]? = some sub :=
    Option.isSome_iff_exists.mp (by decide +kernel)
  have hcfg : (quizAfterChecks 4).validateQuizQuestions = .ok () := rfl
  have hblock : ("A", { config := { reviewMode := some .testsThenQuiz }, quiz := quizOnce 4 }) ∈
      (quizAfterChecks 4).assignments := List.mem_singleton_self _
  exact (members_can_pass_iff hcfg hblock hsub (by decide +kernel) (by decide)
    (by decide)).mpr (by decide +kernel)

end SubmissionsChecker
