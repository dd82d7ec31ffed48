import SubmissionsChecker.Effects.AttemptRows
import SubmissionsChecker.Sessions.Starts

/-! The shared draws. Only the start of an attempt stores one, on a squad's submission that has none. -/

namespace SubmissionsChecker

/-- Every submission has the draw it had. -/
def Db.SameDraws (db db' : Db) : Prop := ∀ i, db'.drawOf i = db.drawOf i

section

variable {db db₁ db' : Db} {op : Op} {i saId t : ℕ}

theorem Db.SameDraws.trans (h₁ : db.SameDraws db₁) (h₂ : db₁.SameDraws db') : db.SameDraws db' :=
  fun i => (h₂ i).trans (h₁ i)

theorem sameDraws_of_submissions (h : db'.submissions = db.submissions) : db.SameDraws db' := by
  intro i
  unfold Db.drawOf
  rw [h]

theorem Within.sameDraws {scope : Scope} (h : Within scope db db') : db.SameDraws db' := by
  intro i
  have hkeep : ∀ s, (scope.keep i s).squadQuizDraw = s.squadQuizDraw := by
    intro s
    cases scope <;> simp only [Scope.keep] <;> split_ifs <;> rfl
  have hsame := h.map_sub (·.squadQuizDraw) i hkeep
  unfold Db.drawOf
  cases hold : db.submissions[i]? with
  | none =>
    rw [hold, Option.map_none, Option.map_eq_none_iff] at hsame
    rw [hsame]
  | some sub =>
    rw [hold, Option.map_some, Option.map_eq_some_iff] at hsame
    obtain ⟨sub', hsub', hdraw⟩ := hsame
    rw [hsub', Option.bind_some, Option.bind_some, hdraw]

theorem sameDraws_setSubmission (db : Db) (j : ℕ) {f : Submission → Submission}
    (hf : ∀ s, (f s).squadQuizDraw = s.squadQuizDraw) : db.SameDraws (db.setSubmission j f) := by
  intro i
  unfold Db.drawOf
  rw [Db.setSubmission_submissions, List.getElem?_modify]
  cases db.submissions[i]? with
  | none => rfl
  | some sub =>
    change (if j = i then f sub else sub).squadQuizDraw = _
    split_ifs
    · exact hf sub
    · rfl

theorem drawOf_store {sub : Submission} (hsub : db.submissions[i]? = some sub) (draw : SquadDraw) :
    (db.setSubmission i ({ · with squadQuizDraw := some draw })).drawOf i = some draw := by
  rw [Db.drawOf, Db.setSubmission_submissions, List.getElem?_modify, hsub]
  change (if i = i then { sub with squadQuizDraw := some draw } else sub).squadQuizDraw = some draw
  rw [if_pos rfl]

theorem Adds.sameDraws {sub : Submission} (h : Adds db saId sub db₁) : db.SameDraws (db₁.addSubmission sub) := by
  refine h.within.sameDraws.trans fun i => ?_
  unfold Db.drawOf
  rw [addSubmission_submissions]
  rcases Nat.lt_trichotomy i db₁.submissions.length with hi | rfl | hi
  · rw [List.getElem?_append_left hi]
  · rw [Table.getElem?_concat_length, List.getElem?_eq_none le_rfl, Option.bind_some, h.undrawn]
    rfl
  · rw [List.getElem?_eq_none (by simp; omega), List.getElem?_eq_none (by omega)]

theorem Opened.sameDraws (h : Opened db saId db' i) : db.SameDraws db' := by
  cases h with
  | reused => exact (within_latestSubmission .grades db saId).sameDraws
  | opened ha => exact ha.sameDraws.trans (sameDraws_setSubmission _ _ fun _ => rfl)

theorem sameDraws_complete (db : Db) (i : ℕ) :
    db.SameDraws ((db.setSubmission i ({ · with status := .completed })).finalizeGrade i) := by
  have hset : db.SameDraws (db.setSubmission i ({ · with status := .completed })) :=
    sameDraws_setSubmission db i fun _ => rfl
  exact hset.trans (within_finalizeGrade _ i).sameDraws

/-- No other operation stores a draw. -/
theorem StepSpec.sameDraws (h : StepSpec db op db') (hop : ∀ saId t rnd, op ≠ .startQuiz saId t rnd) :
    db.SameDraws db' := by
  cases h with
  | same => exact fun _ => rfl
  | upload h =>
    cases h with
    | queued ha => exact ha.sameDraws.trans (sameDraws_of_submissions rfl)
    | checked ha _ _ _ hc => exact ha.sameDraws.trans hc.finalizes.within.sameDraws
  | check _ h => exact h.finalizes.within.sameDraws.trans (sameDraws_of_submissions rfl)
  | aiReview _ h => exact h.finalizes.within.sameDraws.trans (sameDraws_of_submissions rfl)
  | retry => exact sameDraws_of_submissions rfl
  | skip => exact sameDraws_setSubmission db _ fun _ => rfl
  | @review i action reason db' h =>
    cases h with
    | approved => exact sameDraws_complete db i
    | sentQuiz => exact sameDraws_setSubmission db i fun _ => rfl
    | @rejected results =>
      have hset : db.SameDraws (db.setSubmission i ({ · with testResults := results })) :=
        sameDraws_setSubmission db i fun _ => rfl
      exact hset.trans (sameDraws_setSubmission _ i fun _ => rfl)
  | @rerun i db' h =>
    cases h
    have hset : db.SameDraws (db.setSubmission i ({ · with status := .pending })) :=
      sameDraws_setSubmission db i fun _ => rfl
    have hcleared := hset.trans (sameDraws_setSubmission _ i (f := fun s =>
      { s with pluginConfigId := none, testResults := none, aiReview := none }) fun _ => rfl)
    exact hcleared.trans (sameDraws_of_submissions rfl)
  | @start saId t rnd => exact absurd rfl (hop saId t rnd)
  | quiz _ h =>
    cases h with
    | same => exact fun _ => rfl
    | edited => exact sameDraws_of_submissions rfl
    | finished _ _ _ _ _ hfin =>
      exact (sameDraws_of_submissions (Db.setAttempt_submissions ..)).trans hfin.within.sameDraws
  | report => exact sameDraws_of_submissions rfl
  | ruled => exact (sameDraws_of_submissions (ruledDb_submissions ..)).trans (within_advancedAll _ _).sameDraws
  | closed => exact sameDraws_of_submissions rfl
  | @grant i t studentId db' h =>
    cases h with
    | @mk s extras =>
      have hset : db.SameDraws (db.setSubmission i fun sub => { sub with quizExtraAttempts := extras sub }) :=
        sameDraws_setSubmission db i fun _ => rfl
      exact hset.trans (sameDraws_setSubmission _ i fun _ => rfl)
  | scores h =>
    cases h with
    | written w => exact w.sameDraws
    | @completed db₁ i w => exact w.sameDraws.trans (sameDraws_complete db₁ i)
    | @regraded db₁ i w => exact w.sameDraws.trans (within_finalizeGrade db₁ i).sameDraws
  | unenroll => exact sameDraws_of_submissions rfl
  | tick => exact sameDraws_of_submissions rfl

/-! The start -/

/-- What looking for the submission leaves. -/
theorem Db.Finds.keeps (h : db.Finds saId t db₁ i) {sa : StudentAssignment} (hsa : db.studentsAssignments[saId]? = some sa)
    (hst : sa.studentId = t) : db.SameDraws db₁ ∧ db₁.quizAttempts = db.quizAttempts ∧ Started db saId t db₁ := by
  have hw := within_latestSubmission .grades db saId
  cases h with
  | latest => exact ⟨hw.sameDraws, hw.quizAttempts, .looked⟩
  | opened ho =>
    obtain ⟨sa₁, hsa₁, hst₁, -⟩ := hw.rows saId sa hsa
    have hopened := openQuizSubmission_spec hsa₁ (hst₁.trans hst) ho
    exact ⟨hw.sameDraws.trans hopened.sameDraws, hopened.quizAttempts.trans hw.quizAttempts, .opened hopened .same⟩

/-- The draw a start uses: the stored one, or one it stores. -/
theorem squadDraw_ok {squad : Squad} {quiz : QuizConfig} {rnd : Shuffles} {draw : SquadDraw}
    (h : db.squadDraw i squad quiz rnd = .ok (db', draw)) : db.drawOf i = some draw ∧ db' = db ∨
      db.drawOf i = none ∧ squad.members ≠ [] ∧ db' = db.setSubmission i ({ · with squadQuizDraw := some draw }) ∧
        draw =
          { questionIds := selectQuestionIds quiz rnd
            slices := splitDraw (snapshotQuestions quiz (selectQuestionIds quiz rnd))
              (squad.members.insertionSort (· ≤ ·)).length
            memberOrder := squad.members.insertionSort (· ≤ ·) } := by
  unfold Db.squadDraw at h
  split at h
  · rename_i stored hstored
    cases h
    exact .inl ⟨hstored, rfl⟩
  · rename_i hnone
    dsimp only at h
    split_ifs at h with hlen
    cases h
    refine .inr ⟨hnone, ?_, rfl, rfl⟩
    rintro hnil
    rw [hnil] at hlen
    exact hlen Nat.zero_lt_one

theorem squadDraw_stored {squad : Squad} {quiz : QuizConfig} {rnd : Shuffles} {draw : SquadDraw} (h : db.drawOf i = some draw) :
    db.squadDraw i squad quiz rnd = .ok (db, draw) := by
  unfold Db.squadDraw
  rw [h]

theorem squadDraw_new {squad : Squad} (hnone : db.drawOf i = none) (hsome : squad.members ≠ []) (quiz : QuizConfig)
    (rnd : Shuffles) : ∃ db₁ draw, db.squadDraw i squad quiz rnd = .ok (db₁, draw) := by
  unfold Db.squadDraw
  rw [hnone]
  dsimp only
  have hpos : ¬ (squad.members.insertionSort (· ≤ ·)).length < 1 := by
    rw [List.length_insertionSort]
    have := List.length_pos_iff.mpr hsome
    omega
  rw [if_neg hpos]
  exact ⟨_, _, rfl⟩

theorem drawForMember_ok {squad : Squad} {quiz : QuizConfig} {retry : Bool} {rnd : Shuffles}
    {questions : List QuestionSnapshot} (h : db.drawForMember i squad quiz t retry rnd = .ok (db', questions)) :
    ∃ draw, db.squadDraw i squad quiz rnd = .ok (db', draw) ∧ t ∈ draw.memberOrder ∧
      (∀ id ∈ (draw.drawIds quiz t retry rnd).2, id < (draw.drawIds quiz t retry rnd).1.questions.length) ∧
      questions = snapshotQuestions (draw.drawIds quiz t retry rnd).1 (draw.drawIds quiz t retry rnd).2 := by
  obtain ⟨⟨db₁, draw⟩, hdraw, h⟩ := bind_ok h
  dsimp only at h
  split_ifs at h with hmember hrange
  cases h
  exact ⟨draw, hdraw, hmember, fun id hid => by simpa using List.all_eq_true.mp hrange id hid, rfl⟩

/-- A start that is not refused adds an attempt, unless the cap is reached. -/
theorem startAttempt_ok {sa : StudentAssignment} {asg : SubjectsAssignment} {sub : Submission}
    {existing : List QuizAttempt} {rnd : Shuffles} (h : db.startAttempt sa asg i sub existing rnd = .ok db') :
    db' = db ∨ ∃ plan db₁ questions, db.startPlan sub asg = .ok plan ∧
      db' = { db₁ with quizAttempts := db₁.quizAttempts ++
        [db₁.newAttempt i sa.studentId plan.configId plan.version plan.block questions] } ∧
      (db.squadForSubmission i = none ∧ db₁ = db ∨ ∃ squad, db.squadForSubmission i = some squad ∧
        db.drawForMember i squad plan.block.quiz sa.studentId (0 < (existing.filter (·.status.isTerminal)).length) rnd =
          .ok (db₁, questions)) := by
  rw [startAttempt_eq] at h
  cases hplan : db.startPlan sub asg with
  | error e => rw [hplan] at h; cases h
  | ok plan =>
    rw [hplan] at h
    change ite _ _ _ = _ at h
    split_ifs at h
    · cases h
      exact .inl rfl
    · right
      cases hsquad : db.squadForSubmission i with
      | none =>
        rw [hsquad] at h
        cases h
        exact ⟨plan, db, _, rfl, rfl, .inl ⟨rfl, rfl⟩⟩
      | some squad =>
        rw [hsquad] at h
        obtain ⟨⟨db₁, questions⟩, hdraw, h⟩ := bind_ok h
        cases h
        exact ⟨plan, db₁, questions, rfl, rfl, .inr ⟨squad, rfl, hdraw⟩⟩

end

end SubmissionsChecker
