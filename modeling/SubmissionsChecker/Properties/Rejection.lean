import SubmissionsChecker.Effects.Passes
import SubmissionsChecker.Invariants.Reachable

/-! What becomes of a submission the teacher rejected. `FAILED` does not record its cause, so a
ruling that makes the quiz complete completes it; nothing else does without the teacher. -/

namespace SubmissionsChecker

open Runs

/-- A decision of the teacher on submission `i`. -/
def Op.DecidesOn (op : Op) (i : ℕ) : Prop :=
  (∃ reason, op = .review i .approve reason) ∨ op = .rerunChecks i ∨ ∃ studentId, op = .grantQuizAttempt i studentId

namespace Db

/-- The teacher approves, re-runs or grants an attempt on submission `i`, and it is not refused. -/
def TakesDecision (db : Db) (op : Op) (i : ℕ) : Prop := op.DecidesOn i ∧ ∃ db', db.request op = .ok db'

/-- With the attempts the ruling lifts, every enrolled member of the squad of `i` has passed. -/
def CompleteUnder (db : Db) (op : Op) (i : ℕ) : Prop := ∀ squad, db.squadForSubmission i = some squad →
  ∀ t ∈ db.enrolledMemberIds squad, t ∈ db.passedStudentIds i ∨ ∃ a, db.Lifts op i a ∧ a.studentId = some t

/-- A ruling completes the quiz of submission `i`, which failed, under a mode that ends with it. -/
def RulingCompletes (db : Db) (op : Op) (i : ℕ) : Prop :=
  db.status i = some .failed ∧ db.CompleteUnder op i ∧
    ∃ a, db.Lifts op i a ∧ a.configSnapshot.reviewMode ≠ some .quizThenTeacher

/-- No step of the run decides on submission `i` or completes its quiz by a ruling. -/
def LeavesRejected (i : ℕ) (db : Db) (op : Op) : Prop := ¬ db.TakesDecision op i ∧ ¬ db.RulingCompletes op i

/-- The rejection holds: not completed, no grade. -/
def StandsRejected (db : Db) (i : ℕ) : Prop :=
  db.status i ≠ some .completed ∧ (db.submissions[i]?).bind (·.gradeBreakdown) = none

/-- Failed, or back with the teacher after a ruling. -/
def AtTeacher (db : Db) (i : ℕ) : Prop :=
  (db.status i = some .failed ∨ db.status i = some .awaitingTeacherReview) ∧ db.isScoredSubmission i = false

end Db

section

variable {db db' : Db} {op : Op} {i : ℕ} {sub sub' : Submission}

/-- A pass after a ruling was there before, or is of an attempt the ruling lifts. -/
theorem passed_or_lifted {d : ℕ} {note : String} {t : ℕ} (h : StepSpec db (.resolve d true note) db')
    (ht : t ∈ db'.passedStudentIds i) :
    t ∈ db.passedStudentIds i ∨ ∃ a, db.Lifts (.resolve d true note) i a ∧ a.studentId = some t := by
  have hsame : db'.quizAttempts = db.quizAttempts → t ∈ db.passedStudentIds i :=
    fun h => (noNewPass_same h).passedStudentIds ht
  cases h with
  | same => exact .inl (hsame rfl)
  | quiz hop => rcases hop with ⟨_, _, _, h⟩ | ⟨_, _, _, _, h⟩ | ⟨_, _, _, h⟩ | ⟨_, _, h⟩ <;> cases h
  | closed => exact .inl (hsame rfl)
  | @ruled _ _ dispute c v hd hopen hnote hc hv =>
    simp only [Db.passedStudentIds, List.mem_filterMap, List.mem_filter, Bool.and_eq_true, beq_iff_eq] at ht ⊢
    obtain ⟨a', ⟨ha', hi, hp⟩, hst⟩ := ht
    rw [(within_advancedAll _ _).quizAttempts] at ha'
    obtain ⟨k, hk⟩ := List.mem_iff_getElem?.mp ha'
    obtain ⟨a, ha, hregrade⟩ := ruledDb_attempt hk
    by_cases hcand : a.isCandidate c v dispute.questionId = true
    · rw [if_pos hcand] at hregrade
      subst hregrade
      refine .inr ⟨a, ⟨c, v, dispute.questionId, k, ⟨d, note, dispute, rfl, hnote, hd, hopen, hc, hv, rfl⟩, ?_, ha, hi⟩,
        hst⟩
      exact Table.mem_idsWhere.mpr ⟨a, ha, by rw [hcand, hp]; rfl⟩
    · rw [if_neg hcand] at hregrade
      subst hregrade
      exact .inl ⟨a', ⟨List.mem_of_getElem? ha, hi, hp⟩, hst⟩

/-- A complete quiz after a ruling, in the terms of the state before it. -/
theorem completeUnder_of_complete {a : QuizAttempt} (h : StepSpec db op db') (hs : db.submissions[i]? = some sub)
    (hl : db.Lifts op i a) (hc : db'.quizComplete i = true) : db.CompleteUnder op i := by
  obtain ⟨c, v, q, k, ⟨d, note, dispute, rfl, -⟩, -⟩ := hl
  have hev := h.evolves
  intro squad hq t ht
  cases hq' : db'.squadForSubmission i with
  | none =>
    rw [hev.squad_none hs hq'] at hq
    cases hq
  | some squad' =>
    obtain ⟨squad₀, hsquad₀, hsubject, hmembers⟩ := hev.squad_some hs hq'
    rw [hq] at hsquad₀
    cases hsquad₀
    refine passed_or_lifted h (membersPassed_of_complete hc squad' hq' t ?_)
    rcases enrolled_step h with henrolled | ⟨_, _, hop, -⟩
    · simpa [Db.enrolledMemberIds, henrolled, ← hsubject, ← hmembers] using ht
    · cases hop

/-- A decision that moved the submission was not refused. -/
theorem takesDecision_of_moved (hop : op.DecidesOn i) (hs : db.submissions[i]? = some sub)
    (hs' : (db.step op).submissions[i]? = some sub') (hne : sub'.status ≠ sub.status) : db.TakesDecision op i := by
  refine ⟨hop, ?_⟩
  cases hreq : db.request op with
  | ok db' => exact ⟨db', rfl⟩
  | error e =>
    have hstep : db.step op = db := by unfold Db.step; rw [hreq]
    rw [hstep, hs, Option.some_inj] at hs'
    exact absurd (by rw [hs']) hne

/-- Without a decision and such a ruling the submission stays with the teacher. -/
theorem AtTeacher.step (ok : db.Ok) (h : db.AtTeacher i) (hop : Db.LeavesRejected i db op) :
    (db.step op).AtTeacher i := by
  have hspec := step_spec db op
  obtain ⟨hst, hplain⟩ := h
  obtain ⟨sub, hs, hsub⟩ : ∃ sub, db.submissions[i]? = some sub ∧
      (sub.status = .failed ∨ sub.status = .awaitingTeacherReview) := by
    rcases hst with h | h <;> obtain ⟨sub, hs, hst⟩ := Option.map_eq_some_iff.mp h
    · exact ⟨sub, hs, .inl hst⟩
    · exact ⟨sub, hs, .inr hst⟩
  have hsubOk := ok.subs i sub hs
  obtain ⟨asg, hasg⟩ := hsubOk.assignment
  obtain ⟨sub', hs', -⟩ := hspec.evolves.submission hs
  refine ⟨?_, by rw [hspec.evolves.isScored hs hasg, hplain]⟩
  rw [status_of_row hs', Option.some_inj, Option.some_inj]
  have hscored : sub.status.isScoredStatus = true := by rcases hsub with h | h <;> rw [h] <;> rfl
  cases row_step hspec hs hs' hasg with
  | kept hst => rw [hst]; exact hsub
  | checked _ _ hm => rw [hm.scored hscored]; exact hsub
  | requeued hreq _ _ hst =>
    refine absurd (takesDecision_of_moved (.inr (.inl hreq)) hs hs' ?_) hop.1
    rw [hst]
    rcases hsub with h | h <;> rw [h] <;> decide
  | granted hgrant _ _ hst =>
    refine absurd (takesDecision_of_moved (.inr (.inr ⟨_, hgrant⟩)) hs hs' ?_) hop.1
    rw [hst]
    rcases hsub with h | h <;> rw [h] <;> decide
  | moved hm =>
    generalize hold : sub.status = s, hnew : sub'.status = s' at hm
    rw [hold] at hsub hscored
    cases hm with
    | aiFailed hai => rw [isScoredStatus_of_isAi hai] at hscored; cases hscored
    | aiReviewed hai => rw [isScoredStatus_of_isAi hai] at hscored; cases hscored
    | skipped => cases hscored
    | approved happrove =>
      exact absurd (takesDecision_of_moved (.inl ⟨_, happrove⟩) hs hs' (by rw [hold, hnew]; decide)) hop.1
    | sentQuiz happrove =>
      exact absurd (takesDecision_of_moved (.inl ⟨_, happrove⟩) hs hs' (by rw [hold, hnew]; decide)) hop.1
    | rejected => exact .inl rfl
    | saved hm => rw [hplain] at hm; cases hm
    | passed => rcases hsub with h | h <;> cases h
    | failed => exact .inl rfl
    | ruled hfrom hl hc _ hmode =>
      have hfailed : s = .failed := by
        rcases hfrom with h | h
        · rw [h] at hsub; rcases hsub with h | h <;> cases h
        · exact h
      rw [hmode hplain]
      split_ifs with hteach
      · exact .inr rfl
      · refine absurd ⟨by rw [status_of_row hs, hold, hfailed], completeUnder_of_complete hspec hs hl hc, _, hl, ?_⟩ hop.2
        simpa using hteach

/-- Scored submissions are not rejected. -/
theorem plain_of_rejected {reason : String} (ok : db.Ok) (hawait : db.status i = some .awaitingTeacherReview)
    (hreject : (db.step (.review i .reject reason)).status i = some .failed) : db.isScoredSubmission i = false := by
  have hspec := step_spec db (.review i .reject reason)
  obtain ⟨sub, hs, hst⟩ := Option.map_eq_some_iff.mp hawait
  obtain ⟨asg, hasg⟩ := (ok.subs i sub hs).assignment
  obtain ⟨sub', hs', -⟩ := hspec.evolves.submission hs
  rw [status_of_row hs', Option.some_inj] at hreject
  cases row_step hspec hs hs' hasg with
  | kept hkept =>
    rw [hkept, hst] at hreject
    cases hreject
  | checked _ _ hm =>
    rw [hm.scored (by rw [hst]; rfl), hst] at hreject
    cases hreject
  | requeued hop => cases hop
  | granted hop => cases hop
  | moved hm =>
    generalize hold : sub.status = s, hnew : sub'.status = s' at hm
    rw [hst] at hold
    rw [hreject] at hnew
    cases hm with
    | aiFailed => cases hnew
    | aiReviewed hai =>
      rw [← hold] at hai
      cases hai
    | skipped => cases hnew
    | approved => cases hnew
    | sentQuiz => cases hnew
    | rejected _ hplain => exact hplain
    | saved => cases hnew
    | passed => cases hold
    | failed => cases hold
    | ruled hfrom => rcases hfrom with h | h <;> rw [h] at hold <;> cases hold

/-- After a rejection, a run without a later decision and without such a ruling leaves it. -/
theorem rejection_stands {db₁ db₂ : Db} {ops ops' : List Op} {reason : String} (hstart : db.Start)
    (h : Run Db.step Any db ops db₁) (hawait : db₁.status i = some .awaitingTeacherReview)
    (hreject : (db₁.step (.review i .reject reason)).status i = some .failed)
    (h' : Run Db.step (Db.LeavesRejected i) (db₁.step (.review i .reject reason)) ops' db₂) :
    db₂.StandsRejected i := by
  have ok₁ := ok_of_run hstart h
  have hplain := plain_of_rejected ok₁ hawait hreject
  have hfirst : (db₁.step (.review i .reject reason)).AtTeacher i := ⟨.inl hreject, by
    obtain ⟨sub, hs, hst⟩ := Option.map_eq_some_iff.mp hawait
    obtain ⟨asg, hasg⟩ := (ok₁.subs i sub hs).assignment
    rw [(evolves_step db₁ _).isScored hs hasg, hplain]⟩
  have hboth := h'.invariant (I := fun e => e.Ok ∧ e.AtTeacher i) ⟨ok₁.step _, hfirst⟩
    fun t op hinv hop => ⟨hinv.1.step op, AtTeacher.step hinv.1 hinv.2 hop⟩
  obtain ⟨ok₂, hst, -⟩ := hboth
  have hne : db₂.status i ≠ some .completed := by rcases hst with h | h <;> rw [h] <;> decide
  refine ⟨hne, ?_⟩
  cases hs : db₂.submissions[i]? with
  | none => rfl
  | some sub =>
    by_contra hb
    exact hne (by rw [status_of_row hs, (ok₂.subs i sub hs).graded hb])

end

/-- The teacher reviews after the tests; one attempt at a quiz of one question. -/
def teacherThenQuiz : Db :=
  oneSubject { reviewMode := some .testsThenTeacher, quiz := { questions := [{ type := .trueFalse }], maxQuizAttempts := some 1 } }
    {} [] [0]

/-- The quiz is failed for good and one of its questions reported; the checks are run again. -/
def backToTeacher : List Op :=
  [.upload 0 0 true 1 .raises, .processMessage 0 (.tested true 1 1) .providerError, .review 0 .approve "",
    .startQuiz 0 0 {}, .submitQuiz 0 0 (fun _ => false) false, .reportQuestion 0 0 0, .rerunChecks 0,
    .processMessage 1 (.tested true 1 1) .providerError]

/-- The teacher rejects the submission; a ruling for its question then completes it. -/
theorem rejection_overturned : ¬ ∀ (db db₁ db₂ : Db) (ops ops' : List Op) (i : ℕ) (reason : String), db.Start →
    Run Db.step Any db ops db₁ → db₁.status i = some .awaitingTeacherReview →
    (db₁.step (.review i .reject reason)).status i = some .failed →
    Run Db.step (fun t op => ¬ t.TakesDecision op i) (db₁.step (.review i .reject reason)) ops' db₂ →
    db₂.StandsRejected i := by
  intro hall
  have hops : Run Db.step (fun t op => ¬ t.TakesDecision op 0)
      ((backToTeacher.foldl Db.step teacherThenQuiz).step (.review 0 .reject "no")) [.resolve 0 true "unclear"] _ :=
    run_of_forall _ fun op hop t htakes => by
      rw [List.mem_singleton.mp hop] at htakes
      obtain ⟨⟨_, h⟩ | h | ⟨_, h⟩, -⟩ := htakes <;> cases h
  have h := hall teacherThenQuiz _ _ backToTeacher _ 0 "no" (oneSubject_start (by decide) (by simp))
    (run_foldl backToTeacher) (by decide +kernel) (by decide +kernel) hops
  exact h.1 (by decide +kernel)

/-- A ruling against the report leaves the rejection. -/
theorem backToTeacher_stands :
    (backToTeacher.foldl Db.step teacherThenQuiz).status 0 = some .awaitingTeacherReview ∧
      (((backToTeacher.foldl Db.step teacherThenQuiz).step (.review 0 .reject "no")).step
        (.resolve 0 false "clear")).StandsRejected 0 := by
  refine ⟨by decide +kernel, rejection_stands (oneSubject_start (by decide) (by simp)) (run_foldl backToTeacher)
    (by decide +kernel) (by decide +kernel) (run_cons ⟨?_, ?_⟩ .nil)⟩
  · rintro ⟨⟨_, h⟩ | h | ⟨_, h⟩, -⟩ <;> cases h
  · rintro ⟨-, -, a, ⟨_, _, _, _, ⟨_, _, _, h, -⟩, -⟩, -⟩
    cases h

end SubmissionsChecker
