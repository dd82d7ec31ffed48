import SubmissionsChecker.Sessions.Starts
import SubmissionsChecker.Sessions.Finishes
import SubmissionsChecker.Invariants.Reachable

/-! The answers of an attempt. A draw has each question once, a running stepped attempt has the
answers its cursor has passed, a running single-page attempt has none, and a finished one has at most
one a question: its form was graded once, and credited rows replace the answers they credit. -/

namespace SubmissionsChecker

open Runs

/-- A running attempt has the answers its cursor has passed, a single page none. -/
def QuizAttempt.InStep (a : QuizAttempt) : Prop :=
  a.answers.map (·.questionId) =
    if a.configSnapshot.perQuestionTiming then (a.questionsSnapshot.take a.currentIndex).map (·.id) else []

/-- No question is drawn twice, none has two answers. -/
structure QuizAttempt.Tidy (a : QuizAttempt) : Prop where
  drawn : (a.questionsSnapshot.map (·.id)).Nodup
  answered : (a.answers.map (·.questionId)).Nodup
  running : a.status = .inProgress → a.InStep

/-- So for all attempts, and for the draws of the squads. -/
structure Db.Tidy (db : Db) : Prop where
  attempts : ∀ (k : ℕ) a, db.quizAttempts[k]? = some a → a.Tidy
  draws : ∀ (i : ℕ) sub draw, db.submissions[i]? = some sub → sub.squadQuizDraw = some draw → ∀ slice ∈ draw.slices, slice.Nodup

section

variable {db db' : Db} {a : QuizAttempt} {k i : ℕ} {quiz : QuizConfig} {ids : List ℕ}

/-! Draws -/

theorem ids_snapshotQuestions (quiz : QuizConfig) (ids : List ℕ) :
    (snapshotQuestions quiz ids).map (·.id) = ids.filter fun i => (quiz.questions[i]?).isSome := by
  unfold snapshotQuestions
  rw [List.map_filterMap, ← List.filterMap_eq_filter]
  refine List.filterMap_congr fun i _ => ?_
  rcases hq : quiz.questions[i]? with _ | q
  · simp [Option.guard, hq]
  · simp [Option.guard, hq]

theorem nodup_snapshotQuestions (h : ids.Nodup) : ((snapshotQuestions quiz ids).map (·.id)).Nodup := by
  rw [ids_snapshotQuestions]
  exact h.filter _

theorem nodup_selectQuestionIds (quiz : QuizConfig) (rnd : Shuffles) : (selectQuestionIds quiz rnd).Nodup := by
  have hselected : ∀ optional' : List ℕ,
      optional'.Perm (Table.idsWhere (fun q => q.type != .unsupported && !q.required) quiz.questions) → ∀ n,
      (Table.idsWhere (fun q => q.type != .unsupported && q.required) quiz.questions ++ optional'.take n).Nodup := by
    intro optional' hperm n
    have hopt : (optional'.take n).Nodup := (hperm.nodup_iff.mpr (Table.nodup_idsWhere _ _)).sublist (List.take_sublist n _)
    refine (Table.nodup_idsWhere _ _).append hopt fun i hr ho => ?_
    obtain ⟨q, hq, hreq⟩ := Table.mem_idsWhere.mp hr
    obtain ⟨q', hq', hnot⟩ := Table.mem_idsWhere.mp (hperm.subset (List.mem_of_mem_take ho))
    rw [hq, Option.some_inj] at hq'
    subst hq'
    simp only [Bool.and_eq_true, Bool.not_eq_true'] at hreq hnot
    rw [hreq.2] at hnot
    cases hnot.2
  unfold selectQuestionIds
  dsimp only
  split_ifs
  · exact ((rnd.selected.perm _).nodup_iff).mpr (hselected _ (rnd.optional.perm _) _)
  · exact hselected _ .rfl _

theorem nodup_splitDraw {questions : List QuestionSnapshot} (h : (questions.map (·.id)).Nodup) (n : ℕ) :
    ∀ slice ∈ splitDraw questions n, slice.Nodup := by
  intro slice hslice
  obtain ⟨m, -, rfl⟩ := List.mem_map.mp hslice
  set ordered := questions.filter (·.isRequired) ++ questions.filter (!·.isRequired) with hordered
  have hperm : (ordered.map (·.id)).Nodup := (((List.filter_append_perm _ questions).map _).nodup_iff).mpr h
  have hsub : List.Sublist ((ordered.zipIdx.filter fun p => p.2 % n == m).map (·.1.id)) (ordered.map (·.id)) := by
    have hall : ordered.map (·.id) = ordered.zipIdx.map (·.1.id) := by
      conv_lhs => rw [← List.zipIdx_map_fst 0 ordered, List.map_map]
      rfl
    rw [hall]
    exact List.Sublist.map _ List.filter_sublist
  exact hperm.sublist hsub

/-! Credits -/

theorem ids_foldl_credit (answered : List ℕ) (qs : List QuestionSnapshot) : ∀ answers : List QuizAnswer,
    (qs.foldl (creditQuestion answered) answers).map (·.questionId) =
      answers.map (·.questionId) ++ (qs.map (·.id)).filter (· ∉ answered) := by
  induction qs with
  | nil => intro answers; simp
  | cons q qs ih =>
    intro answers
    rw [List.foldl_cons, ih, creditQuestion]
    by_cases hq : q.id ∈ answered
    · simp [hq, creditLast_ids]
    · simp [hq, QuizAnswer.created]

theorem nodup_applyOverrides (hdrawn : (a.questionsSnapshot.map (·.id)).Nodup)
    (hanswered : (a.answers.map (·.questionId)).Nodup) (overrides : Finset ℕ) :
    ((a.applyOverrides overrides).answers.map (·.questionId)).Nodup := by
  unfold QuizAttempt.applyOverrides applyQuestionOverrides
  rw [ids_foldl_credit]
  have hcredited : ((a.questionsSnapshot.filter (·.id ∈ overrides)).map (·.id)).Nodup :=
    hdrawn.sublist (List.Sublist.map _ List.filter_sublist)
  refine hanswered.append (hcredited.filter _) fun x hx hnot => ?_
  have := (List.mem_filter.mp hnot).2
  simp only [decide_not, Bool.not_eq_true', decide_eq_false_iff_not] at this
  exact this hx

theorem length_applyOverrides (a : QuizAttempt) (overrides : Finset ℕ) :
    a.answers.length ≤ (a.applyOverrides overrides).answers.length := by
  have hids := congrArg List.length (ids_foldl_credit (a.answers.map (·.questionId))
    (a.questionsSnapshot.filter (·.id ∈ overrides)) a.answers)
  rw [List.length_map, List.length_append, List.length_map] at hids
  unfold QuizAttempt.applyOverrides applyQuestionOverrides
  dsimp only
  omega

/-- A finished attempt is tidy when its answers are. -/
theorem tidy_finishedAttempt (db : Db) (hdrawn : (a.questionsSnapshot.map (·.id)).Nodup)
    (hanswered : (a.answers.map (·.questionId)).Nodup) {status : QuizAttemptStatus} (hst : status.isTerminal = true) :
    (db.finishedAttempt a status).Tidy where
  drawn := hdrawn
  answered := nodup_applyOverrides hdrawn hanswered _
  running hrun := by
    have hterm : (db.finishedAttempt a status).status.isTerminal = true := finishedAttempt_terminal hst
    rw [hrun] at hterm
    cases hterm

theorem QuizAttempt.Tidy.regrade (h : a.Tidy) (hst : a.status.isTerminal = true) (q : ℕ) : (a.regrade q).Tidy where
  drawn := h.drawn
  answered := nodup_applyOverrides h.drawn h.answered _
  running hrun := by
    change a.status = .inProgress at hrun
    rw [hrun] at hst
    cases hst

/-! Edits -/

theorem tidy_of_inStep (hdrawn : (a.questionsSnapshot.map (·.id)).Nodup) (h : a.InStep) : a.Tidy where
  drawn := hdrawn
  answered := by
    rw [h]
    split_ifs
    · exact hdrawn.sublist (List.Sublist.map _ (List.take_sublist _ _))
    · exact List.nodup_nil
  running _ := h

/-- The answer to the current question, and the cursor moves. -/
theorem QuizAttempt.InStep.next (h : a.InStep) (htiming : a.configSnapshot.perQuestionTiming = true) {q : QuestionSnapshot}
    (hq : a.currentQuestion = some q) {answer : QuizAnswer} (hid : answer.questionId = q.id) :
    QuizAttempt.InStep { a with answers := a.answers ++ [answer], currentIndex := a.currentIndex + 1 } := by
  unfold QuizAttempt.InStep at h ⊢
  unfold QuizAttempt.currentQuestion at hq
  rw [if_pos htiming] at h ⊢
  dsimp only
  rw [List.map_append, h, List.take_add_one, hq, List.map_append, List.map_singleton, hid]
  rfl

theorem QuizAttempt.InStep.advanceExpired (expired : ℕ) : ∀ {a : QuizAttempt}, a.InStep →
    a.configSnapshot.perQuestionTiming = true → (a.advanceExpired expired).1.InStep := by
  induction expired with
  | zero => exact fun h _ => h
  | succ expired ih =>
    intro a h htiming
    unfold QuizAttempt.advanceExpired
    split
    · exact h
    · rename_i q hq
      split_ifs
      · exact h
      · exact ih (a := a.burn q) (h.next htiming hq rfl) htiming

theorem advanceExpired_timing (a : QuizAttempt) (expired : ℕ) :
    (a.advanceExpired expired).1.configSnapshot = a.configSnapshot := by
  have he := edited_advanceExpired expired a
  rw [he]

theorem QuizAttempt.InStep.recordAnswer (h : a.InStep) (htiming : a.configSnapshot.perQuestionTiming = true)
    (index expired : ℕ) (isRight : Bool) : (a.recordAnswer index isRight expired).InStep := by
  have hburned := h.advanceExpired expired htiming
  unfold QuizAttempt.recordAnswer
  dsimp only
  split
  · exact hburned
  · rename_i q hq
    split_ifs
    · exact hburned.next ((congrArg _ (advanceExpired_timing a expired)).trans htiming) hq rfl
    · exact hburned

/-- What a request leaves of a running attempt: answers of its own questions, and unless it ends the
attempt these are in step. -/
theorem QuizAttempt.Tidy.edit (h : a.Tidy) (hrun : a.status = .inProgress) (post : QuizPost) :
    Edited a (post.edit a).1 ∧ ((post.edit a).1.answers.map (·.questionId)).Nodup ∧
      ((post.edit a).2 = none → (post.edit a).1.InStep) := by
  have hstep := h.running hrun
  have hmoved : ∀ a', Edited a a' → a'.InStep → Edited a a' ∧ (a'.answers.map (·.questionId)).Nodup ∧ a'.InStep := by
    intro a' he hstep'
    have hdrawn : (a'.questionsSnapshot.map (·.id)).Nodup := by
      rw [he]
      exact h.drawn
    exact ⟨he, (tidy_of_inStep hdrawn hstep').answered, hstep'⟩
  have hsame : Edited a a ∧ (a.answers.map (·.questionId)).Nodup ∧ a.InStep := hmoved a (.refl a) hstep
  have hthen : ∀ {a' : QuizAttempt} {st : Option QuizAttemptStatus}, Edited a a' ∧ (a'.answers.map (·.questionId)).Nodup ∧
      a'.InStep → Edited a a' ∧ (a'.answers.map (·.questionId)).Nodup ∧ (st = none → a'.InStep) :=
    fun hall => ⟨hall.1, hall.2.1, fun _ => hall.2.2⟩
  unfold QuizPost.edit
  rcases post with ⟨timedOut, expired⟩ | ⟨index, isRight, expired⟩ | ⟨isRight, timedOut⟩
  · dsimp only
    split
    · exact hthen hsame
    split
    · exact hthen hsame
    split
    · rename_i htiming
      exact hthen (hmoved _ (edited_advanceExpired expired a) (hstep.advanceExpired expired htiming))
    · exact hthen hsame
  · dsimp only
    split
    · exact hthen hsame
    · rename_i htiming
      split
      · exact hthen hsame
      · exact hthen (hmoved _ (edited_recordAnswer a index isRight expired)
          (hstep.recordAnswer (by simpa using htiming) index expired isRight))
  · dsimp only
    split
    · exact hthen hsame
    · refine ⟨rfl, ?_, fun hnone => by cases hnone⟩
      dsimp only
      rw [List.map_map]
      exact h.drawn

/-! What leaves attempts and draws alone -/

/-- The attempts are the same and no draw is new. -/
structure Db.KeepsQuiz (db db' : Db) : Prop where
  attempts : db'.quizAttempts = db.quizAttempts
  draws : ∀ (i : ℕ) sub' draw, db'.submissions[i]? = some sub' → sub'.squadQuizDraw = some draw →
    ∃ (j : ℕ) (sub : Submission), db.submissions[j]? = some sub ∧ sub.squadQuizDraw = some draw

theorem Db.KeepsQuiz.tidy (h : db.KeepsQuiz db') (hd : db.Tidy) : db'.Tidy where
  attempts k a ha := hd.attempts k a (by rw [← h.attempts]; exact ha)
  draws i sub' draw hsub' hdraw := by
    obtain ⟨j, sub, hsub, hold⟩ := h.draws i sub' draw hsub' hdraw
    exact hd.draws j sub draw hsub hold

theorem Db.KeepsQuiz.trans {db₁ : Db} (h₁ : db.KeepsQuiz db₁) (h₂ : db₁.KeepsQuiz db') : db.KeepsQuiz db' where
  attempts := h₂.attempts.trans h₁.attempts
  draws i sub' draw hsub' hdraw := by
    obtain ⟨j, sub, hsub, hold⟩ := h₂.draws i sub' draw hsub' hdraw
    exact h₁.draws j sub draw hsub hold

theorem keepsQuiz_of_same (ha : db'.quizAttempts = db.quizAttempts) (hs : db'.submissions = db.submissions) :
    db.KeepsQuiz db' where
  attempts := ha
  draws i sub' draw hsub' hdraw := ⟨i, sub', by rw [← hs]; exact hsub', hdraw⟩

theorem Within.keepsQuiz {scope : Scope} (h : Within scope db db') : db.KeepsQuiz db' where
  attempts := h.quizAttempts
  draws i sub' draw hsub' hdraw := by
    have hkeep : ∀ s, (scope.keep i s).squadQuizDraw = s.squadQuizDraw := by
      intro s
      cases scope <;> simp only [Scope.keep] <;> split_ifs <;> rfl
    have hsame := h.map_sub (·.squadQuizDraw) i hkeep
    rw [hsub', Option.map_some, eq_comm, Option.map_eq_some_iff] at hsame
    obtain ⟨sub, hsub, hold⟩ := hsame
    exact ⟨i, sub, hsub, hold.trans hdraw⟩

theorem keepsQuiz_setSubmission (db : Db) (i : ℕ) {f : Submission → Submission}
    (hf : ∀ s, (f s).squadQuizDraw = s.squadQuizDraw) : db.KeepsQuiz (db.setSubmission i f) where
  attempts := rfl
  draws j sub' draw hsub' hdraw := by
    rw [Db.setSubmission_submissions] at hsub'
    obtain ⟨sub, hsub, rfl⟩ := Table.getElem?_modify_some hsub'
    refine ⟨j, sub, hsub, ?_⟩
    split_ifs at hdraw
    · rw [← hf]
      exact hdraw
    · exact hdraw

theorem keepsQuiz_addSubmission (db : Db) {sub : Submission} (h : sub.squadQuizDraw = none) :
    db.KeepsQuiz (db.addSubmission sub) where
  attempts := addSubmission_quizAttempts db sub
  draws i sub' draw hsub' hdraw := by
    rw [addSubmission_submissions] at hsub'
    rcases Table.getElem?_concat_some hsub' with hold | ⟨-, rfl⟩
    · exact ⟨i, sub', hold, hdraw⟩
    · rw [h] at hdraw
      cases hdraw

theorem Adds.keepsQuiz {saId : ℕ} {sub : Submission} (h : Adds db saId sub db') : db.KeepsQuiz (db'.addSubmission sub) :=
  h.within.keepsQuiz.trans (keepsQuiz_addSubmission db' h.undrawn)

/-! The start of an attempt -/

theorem tidy_newAttempt (db : Db) (i t c v : ℕ) (block : PluginAssignment) {questions : List QuestionSnapshot}
    (h : (questions.map (·.id)).Nodup) : (db.newAttempt i t c v block questions).Tidy := by
  refine tidy_of_inStep h ?_
  unfold QuizAttempt.InStep Db.newAttempt
  split_ifs <;> rfl

theorem Db.Tidy.addAttempt (hd : db.Tidy) (ha : a.Tidy) :
    Db.Tidy { db with quizAttempts := db.quizAttempts ++ [a] } where
  attempts k b hb := by
    rcases Table.getElem?_concat_some hb with hold | ⟨-, rfl⟩
    · exact hd.attempts k b hold
    · exact ha
  draws := hd.draws

theorem Db.Tidy.squadDraw {squad : Squad} {rnd : Shuffles} {draw : SquadDraw} (hd : db.Tidy)
    (h : db.squadDraw i squad quiz rnd = .ok (db', draw)) : db'.Tidy ∧ ∀ slice ∈ draw.slices, slice.Nodup := by
  unfold Db.squadDraw at h
  split at h
  · rename_i stored hstored
    cases h
    obtain ⟨sub, hsub, hdraw⟩ := Option.bind_eq_some_iff.mp hstored
    exact ⟨hd, hd.draws i sub draw hsub hdraw⟩
  · dsimp only at h
    split_ifs at h
    cases h
    have hdrawn : ((snapshotQuestions quiz (selectQuestionIds quiz rnd)).map (·.id)).Nodup :=
      nodup_snapshotQuestions (nodup_selectQuestionIds quiz rnd)
    have hslices := nodup_splitDraw hdrawn (squad.members.insertionSort (· ≤ ·)).length
    refine ⟨⟨hd.attempts, fun j sub' draw hsub' hdraw => ?_⟩, hslices⟩
    rw [Db.setSubmission_submissions] at hsub'
    obtain ⟨sub, hsub, rfl⟩ := Table.getElem?_modify_some hsub'
    split_ifs at hdraw
    · cases hdraw
      exact hslices
    · exact hd.draws j sub draw hsub hdraw

theorem SquadDraw.nodup_drawIds {draw : SquadDraw} (h : ∀ slice ∈ draw.slices, slice.Nodup) (quiz : QuizConfig) (t : ℕ)
    (retry : Bool) (rnd : Shuffles) : (draw.drawIds quiz t retry rnd).2.Nodup := by
  have hmine : (draw.sliceOf t).Nodup := by
    unfold SquadDraw.sliceOf
    rcases hs : draw.slices[draw.memberOrder.idxOf t]? with _ | slice
    · exact List.nodup_nil
    · exact h slice (List.mem_of_getElem? hs)
  unfold SquadDraw.drawIds
  dsimp only
  split_ifs
  · exact nodup_selectQuestionIds _ rnd
  · exact ((rnd.slice.perm _).nodup_iff).mpr hmine
  · exact hmine

theorem Db.Tidy.drawForMember {squad : Squad} {t : ℕ} {retry : Bool} {rnd : Shuffles} {questions : List QuestionSnapshot}
    (hd : db.Tidy) (h : db.drawForMember i squad quiz t retry rnd = .ok (db', questions)) :
    db'.Tidy ∧ (questions.map (·.id)).Nodup := by
  obtain ⟨⟨db₁, draw⟩, hdraw, h⟩ := bind_ok h
  obtain ⟨hd₁, hslices⟩ := hd.squadDraw hdraw
  dsimp only at h
  split_ifs at h
  cases h
  exact ⟨hd₁, nodup_snapshotQuestions (SquadDraw.nodup_drawIds hslices quiz t retry rnd)⟩

theorem Db.Tidy.startAttempt {sa : StudentAssignment} {asg : SubjectsAssignment} {sub : Submission}
    {existing : List QuizAttempt} {rnd : Shuffles} (hd : db.Tidy)
    (h : db.startAttempt sa asg i sub existing rnd = .ok db') : db'.Tidy := by
  rw [startAttempt_eq] at h
  rcases hplan : db.startPlan sub asg with e | plan
  · rw [hplan] at h
    cases h
  rw [hplan] at h
  change ite _ _ _ = _ at h
  split_ifs at h
  · cases h
    exact hd
  · split at h
    · cases h
      exact hd.addAttempt (tidy_newAttempt _ _ _ _ _ _ (nodup_snapshotQuestions (nodup_selectQuestionIds _ rnd)))
    · obtain ⟨⟨db₁, questions⟩, hdraw, h⟩ := bind_ok h
      cases h
      obtain ⟨hd₁, hquestions⟩ := hd.drawForMember hdraw
      exact hd₁.addAttempt (tidy_newAttempt _ _ _ _ _ _ hquestions)

theorem Opened.keepsQuiz {saId : ℕ} (h : Opened db saId db' i) : db.KeepsQuiz db' := by
  rcases h with hi | ⟨ha, -⟩
  · exact (within_latestSubmission .grades db saId).keepsQuiz
  · exact ha.keepsQuiz.trans (keepsQuiz_setSubmission _ _ fun _ => rfl)

theorem Db.Tidy.startOrResumeQuiz {saId t : ℕ} {rnd : Shuffles} (hd : db.Tidy)
    (h : db.startOrResumeQuiz saId t rnd = .ok db') : db'.Tidy := by
  obtain ⟨sa, asg, db₂, i, sub, hsa, hst, -, hfinds, -, -, h⟩ := startOrResumeQuiz_ok h
  have hw := within_latestSubmission .grades db saId
  have hd₂ : db₂.Tidy := by
    cases hfinds with
    | latest => exact hw.keepsQuiz.tidy hd
    | opened ho =>
      obtain ⟨sa₁, hsa₁, hst₁, -⟩ := hw.rows saId sa hsa
      exact (openQuizSubmission_spec hsa₁ (hst₁.trans hst) ho).keepsQuiz.tidy (hw.keepsQuiz.tidy hd)
  rcases h with rfl | ⟨-, h⟩
  · exact hd₂
  · exact hd₂.startAttempt h

/-! The requests of an attempt -/

theorem Db.Tidy.setAttempt (hd : db.Tidy) {f : QuizAttempt → QuizAttempt}
    (hf : ∀ a, db.quizAttempts[k]? = some a → (f a).Tidy) : (db.setAttempt k f).Tidy where
  attempts j b hb := by
    rw [Db.setAttempt_quizAttempts] at hb
    obtain ⟨a, ha, rfl⟩ := Table.getElem?_modify_some hb
    split_ifs with hj
    · subst hj
      exact hf a ha
    · exact hd.attempts j a ha
  draws := hd.draws

/-- An attempt that is finished with these answers. -/
theorem Db.Tidy.finish {db₁ : Db} {st : QuizAttemptStatus} (hd : db.Tidy)
    (hothers : ∀ j, j ≠ k → db₁.quizAttempts[j]? = db.quizAttempts[j]?) (hsubs : db₁.submissions = db.submissions)
    (ha : db₁.quizAttempts[k]? = some a) (hdrawn : (a.questionsSnapshot.map (·.id)).Nodup)
    (hanswered : (a.answers.map (·.questionId)).Nodup) (hst : st.isTerminal = true)
    (h : db₁.gradeAndFinalize k st = .ok db') : db'.Tidy := by
  obtain ⟨db'', hrun, hfin⟩ := gradeAndFinalize_spec st ha
  rw [h] at hrun
  cases hrun
  refine hfin.within.keepsQuiz.tidy ⟨fun j b hb => ?_, fun i sub draw hsub => ?_⟩
  · rw [Db.setAttempt_quizAttempts] at hb
    obtain ⟨b₀, hb₀, rfl⟩ := Table.getElem?_modify_some hb
    split_ifs with hj
    · exact tidy_finishedAttempt db₁ hdrawn hanswered hst
    · exact hd.attempts j b₀ ((hothers j (Ne.symm hj)).symm.trans hb₀)
  · rw [Db.setAttempt_submissions, hsubs] at hsub
    exact hd.draws i sub draw hsub

/-- A request of a running attempt as its edit, and the grading if it ends the attempt. -/
def Db.handlePost (db : Db) (k : ℕ) (a : QuizAttempt) (post : QuizPost) : Except Raised Db :=
  match (post.edit a).2 with
  | some status => (db.setAttempt k fun _ => (post.edit a).1).gradeAndFinalize k status
  | none => .ok (db.setAttempt k fun _ => (post.edit a).1)

theorem Db.Tidy.handlePost (hd : db.Tidy) (ha : db.quizAttempts[k]? = some a) (hrun : a.status = .inProgress)
    {post : QuizPost} (h : db.handlePost k a post = .ok db') : db'.Tidy := by
  obtain ⟨hedited, hanswered, hstep⟩ := (hd.attempts k a ha).edit hrun post
  have hdrawn : ((post.edit a).1.questionsSnapshot.map (·.id)).Nodup := by
    rw [hedited]
    exact (hd.attempts k a ha).drawn
  unfold Db.handlePost at h
  split at h
  · rename_i status hstatus
    refine hd.finish (a := (post.edit a).1) (k := k) (fun j hj => ?_) (Db.setAttempt_submissions ..) ?_ hdrawn hanswered
      (edit_terminal hstatus) h
    · rw [Db.setAttempt_quizAttempts, Table.getElem?_modify_ne _ hj.symm]
    · rw [Db.setAttempt_quizAttempts, Table.getElem?_modify_self, ha]
      rfl
  · rename_i hnone
    cases h
    exact hd.setAttempt fun _ _ => tidy_of_inStep hdrawn (hstep hnone)

theorem setAttempt_same (ha : db.quizAttempts[k]? = some a) : (db.setAttempt k fun _ => a) = db := by
  have hsame : db.quizAttempts.modify k (fun _ => a) = db.quizAttempts := by
    refine List.ext_getElem? fun j => ?_
    by_cases hj : k = j
    · subst hj
      rw [Table.getElem?_modify_self, ha]
      rfl
    · rw [Table.getElem?_modify_ne _ hj]
  unfold Db.setAttempt
  rw [hsame]

theorem showQuiz_eq {t : ℕ} {timedOut : Bool} {expired : ℕ} (h : db.showQuiz k t timedOut expired = .ok db') :
    db' = db ∨ ∃ a, db.quizAttempts[k]? = some a ∧ a.status = .inProgress ∧
      db.handlePost k a (.page timedOut expired) = .ok db' := by
  obtain ⟨a, hfor, h⟩ := bind_ok h
  have ha := attemptFor_ok hfor
  by_cases hterm : a.status.isTerminal = true
  · rw [if_pos hterm] at h
    cases h
    exact .inl rfl
  rw [if_neg hterm] at h
  refine .inr ⟨a, ha, inProgress_of_not_terminal hterm, ?_⟩
  unfold Db.handlePost QuizPost.edit
  dsimp only
  split_ifs at h ⊢ with hforce hout htiming hlast
  · rw [setAttempt_same ha]
    exact h
  · rw [setAttempt_same ha]
    exact h
  · dsimp only at h
    rw [if_pos hlast] at h
    exact h
  · dsimp only at h
    rw [if_neg hlast] at h
    exact h
  · rw [setAttempt_same ha]
    exact h

theorem answerQuestion_eq {t index expired : ℕ} {isRight : Bool}
    (h : db.answerQuestion k t index isRight expired = .ok db') :
    db' = db ∨ ∃ a, db.quizAttempts[k]? = some a ∧ a.status = .inProgress ∧
      db.handlePost k a (.answer index isRight expired) = .ok db' := by
  obtain ⟨a, hfor, h⟩ := bind_ok h
  have ha := attemptFor_ok hfor
  by_cases hterm : a.status.isTerminal = true
  · rw [if_pos hterm] at h
    cases h
    exact .inl rfl
  rw [if_neg hterm] at h
  refine .inr ⟨a, ha, inProgress_of_not_terminal hterm, ?_⟩
  unfold Db.handlePost QuizPost.edit
  dsimp only
  split_ifs at h ⊢ with htiming hforce hlast
  · rw [setAttempt_same ha]
    exact h
  · rw [setAttempt_same ha]
    exact h
  · dsimp only at h
    rw [if_pos hlast] at h
    exact h
  · dsimp only at h
    rw [if_neg hlast] at h
    exact h

theorem submitQuiz_eq {t : ℕ} {isRight : ℕ → Bool} {timedOut : Bool} (h : db.submitQuiz k t isRight timedOut = .ok db') :
    db' = db ∨ ∃ a, db.quizAttempts[k]? = some a ∧ a.status = .inProgress ∧
      db.handlePost k a (.submit isRight timedOut) = .ok db' := by
  obtain ⟨a, hfor, h⟩ := bind_ok h
  have ha := attemptFor_ok hfor
  by_cases hterm : a.status.isTerminal = true
  · rw [if_pos hterm] at h
    cases h
    exact .inl rfl
  rw [if_neg hterm] at h
  refine .inr ⟨a, ha, inProgress_of_not_terminal hterm, ?_⟩
  unfold Db.handlePost QuizPost.edit
  dsimp only
  by_cases htiming : a.configSnapshot.perQuestionTiming = true
  · rw [if_pos htiming] at h ⊢
    rw [setAttempt_same ha]
    exact h
  · rw [if_neg htiming] at h ⊢
    dsimp only at h ⊢
    rw [setAttempt_congr (g := fun _ =>
      { a with answers := a.questionsSnapshot.map fun q => gradeAnswer q (isRight q.id) }) ha rfl] at h
    exact h

theorem Db.Tidy.reportViolation {t : ℕ} {isFail : Bool} (hd : db.Tidy) (h : db.reportViolation k t isFail = .ok db') :
    db'.Tidy := by
  obtain ⟨a, hfor, h⟩ := bind_ok h
  have ha := attemptFor_ok hfor
  split_ifs at h
  · cases h
    refine hd.setAttempt fun b hb => ?_
    obtain ⟨hdrawn, hanswered, hrunning⟩ := hd.attempts k b hb
    exact ⟨hdrawn, hanswered, hrunning⟩
  · cases h
    exact hd

theorem Db.Tidy.ruled (hd : db.Tidy) (d c v q : ℕ) (note : String) : (db.ruledDb d c v q note).Tidy where
  attempts k b hb := by
    rw [ruledDb_quizAttempts, List.getElem?_map] at hb
    obtain ⟨a, ha, rfl⟩ := Option.map_eq_some_iff.mp hb
    split_ifs with hcandidate
    · refine (hd.attempts k a ha).regrade ?_ q
      unfold QuizAttempt.isCandidate at hcandidate
      simp only [Bool.and_eq_true, Bool.or_eq_true, beq_iff_eq] at hcandidate
      obtain ⟨⟨⟨-, hst | hst⟩, -⟩, -⟩ := hcandidate <;> rw [hst] <;> rfl
    · exact hd.attempts k a ha
  draws i sub draw hsub hdraw := by
    rw [ruledDb_submissions] at hsub
    exact hd.draws i sub draw hsub hdraw

theorem Db.Tidy.same (hd : db.Tidy) (ha : db'.quizAttempts = db.quizAttempts) (hs : db'.submissions = db.submissions) :
    db'.Tidy :=
  (keepsQuiz_of_same ha hs).tidy hd

theorem Db.Tidy.setSubmission (hd : db.Tidy) {f : Submission → Submission}
    (hf : ∀ s, (f s).squadQuizDraw = s.squadQuizDraw) : (db.setSubmission i f).Tidy :=
  (keepsQuiz_setSubmission db i hf).tidy hd

theorem Db.Tidy.within {scope : Scope} (hd : db.Tidy) (h : Within scope db db') : db'.Tidy := h.keepsQuiz.tidy hd

/-- Every step keeps attempts and draws tidy. -/
theorem Db.Tidy.step (hd : db.Tidy) (op : Op) : (db.step op).Tidy := by
  have hspec := step_spec db op
  generalize hdb : db.step op = db' at hspec
  have hrequest : ∀ {r : Except Raised Db}, db.request op = r → (∀ e, r = .ok e → e.Tidy) → db'.Tidy := by
    intro r hr hall
    rw [← hdb, Db.step, hr]
    split
    · exact hall _ rfl
    · exact hd
  cases hspec with
  | same => exact hd
  | upload h =>
    rcases h with ⟨ha, -⟩ | ⟨ha, -, -, -, hc⟩
    · exact (ha.keepsQuiz.tidy hd).same rfl rfl
    · exact (ha.keepsQuiz.tidy hd).within hc.finalizes.within
  | check _ h => exact (hd.within h.finalizes.within).same rfl rfl
  | aiReview _ h => exact (hd.within h.finalizes.within).same rfl rfl
  | retry => exact hd.same rfl rfl
  | skip => exact hd.setSubmission fun _ => rfl
  | @review i action reason db' h =>
    rcases h with _ | _ | _
    · have hset : (db.setSubmission i ({ · with status := .completed })).Tidy := hd.setSubmission fun _ => rfl
      exact hset.within (within_finalizeGrade _ i)
    · exact hd.setSubmission fun _ => rfl
    · rename_i results _ _
      have hset : (db.setSubmission i ({ · with testResults := results })).Tidy := hd.setSubmission fun _ => rfl
      exact hset.setSubmission fun _ => rfl
  | @rerun i db' h =>
    obtain ⟨-, -, -, -⟩ := h
    have hset : (db.setSubmission i ({ · with status := .pending })).Tidy := hd.setSubmission fun _ => rfl
    have hcleared : ((db.setSubmission i ({ · with status := .pending })).setSubmission i
        ({ · with pluginConfigId := none, testResults := none, aiReview := none })).Tidy := hset.setSubmission fun _ => rfl
    exact hcleared.same rfl rfl
  | start => exact hrequest rfl fun e he => hd.startOrResumeQuiz he
  | quiz hop =>
    obtain ⟨t, timedOut, expired, rfl⟩ | ⟨t, index, isRight, expired, rfl⟩ | ⟨t, isRight, timedOut, rfl⟩ | ⟨t, isFail, rfl⟩ := hop
    · refine hrequest rfl fun e he => ?_
      rcases showQuiz_eq he with rfl | ⟨a, ha, hrun, hpost⟩
      · exact hd
      · exact hd.handlePost ha hrun hpost
    · refine hrequest rfl fun e he => ?_
      rcases answerQuestion_eq he with rfl | ⟨a, ha, hrun, hpost⟩
      · exact hd
      · exact hd.handlePost ha hrun hpost
    · refine hrequest rfl fun e he => ?_
      rcases submitQuiz_eq he with rfl | ⟨a, ha, hrun, hpost⟩
      · exact hd
      · exact hd.handlePost ha hrun hpost
    · exact hrequest rfl fun e he => hd.reportViolation he
  | report => exact hd.same rfl rfl
  | ruled => exact (hd.ruled _ _ _ _ _).within (within_advancedAll _ _)
  | closed => exact hd.same rfl rfl
  | @grant i t studentId db' h =>
    rcases h with @⟨s, extras⟩
    have hset : (db.setSubmission i fun sub => { sub with quizExtraAttempts := extras sub }).Tidy :=
      hd.setSubmission fun _ => rfl
    exact hset.setSubmission fun _ => rfl
  | scores h =>
    rcases h with ⟨w, -⟩ | @⟨db₁, i, w, -⟩ | @⟨db₁, i, w, -⟩
    · exact hd.within w
    · have hset : (db₁.setSubmission i ({ · with status := .completed })).Tidy := (hd.within w).setSubmission fun _ => rfl
      exact hset.within (within_finalizeGrade _ i)
    · exact (hd.within w).within (within_finalizeGrade _ i)
  | unenroll => exact hd.same rfl rfl
  | tick => exact hd.same rfl rfl

end

/-- In every reachable state. -/
theorem tidy_of_run {db db' : Db} {ok : Db → Op → Prop} {ops : List Op} (hstart : db.Start)
    (h : Run Db.step ok db ops db') : db'.Tidy := by
  refine h.invariant (I := Db.Tidy) ⟨fun k a ha => ?_, fun i sub draw hsub => ?_⟩ fun _ op hd _ => hd.step op
  · rw [hstart.quizAttempts] at ha
    cases ha
  · rw [hstart.submissions] at hsub
    cases hsub

end SubmissionsChecker
