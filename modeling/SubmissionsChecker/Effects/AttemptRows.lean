import SubmissionsChecker.Effects.Moves

/-! What one step does to the attempts: nothing, one attempt more, one request of a running attempt,
or a ruling's credit. -/

namespace SubmissionsChecker

/-- All that a step can do to `quiz_attempts`. -/
inductive AttemptRows (db : Db) (op : Op) (db' : Db) : Prop
  | same (h : db'.quizAttempts = db.quizAttempts)
  | started {db₁ i t a} (ha : StartsAttempt db₁ i t a) (h : db'.quizAttempts = db.quizAttempts ++ [a])
  | quiz {k} (hop : op.IsQuizRequest k) (h : QuizStep db k (db.endedBy op) db')
  | ruled {c v q} (h : db'.quizAttempts = db.quizAttempts.map fun a => if a.isCandidate c v q then a.regrade q else a)

section

variable {db db' : Db} {op : Op}

theorem Adds.quizAttempts {saId : ℕ} {sub : Submission} {db₁ : Db} (h : Adds db saId sub db₁) :
    (db₁.addSubmission sub).quizAttempts = db.quizAttempts :=
  (addSubmission_quizAttempts _ _).trans h.within.quizAttempts

theorem Opened.quizAttempts {saId i : ℕ} (h : Opened db saId db' i) : db'.quizAttempts = db.quizAttempts := by
  cases h with
  | reused => exact (within_latestSubmission .grades _ saId).quizAttempts
  | opened ha => rw [Db.setSubmission_quizAttempts, ha.quizAttempts]

theorem Starts.attemptRows {db₁ : Db} {i t : ℕ} (h : Starts db₁ i t db') (hsame : db₁.quizAttempts = db.quizAttempts) :
    AttemptRows db op db' := by
  cases h with
  | same => exact .same hsame
  | attempt hd ha =>
    refine .started ha ?_
    rcases hd with rfl | ⟨draw, rfl⟩
    · exact congrArg (· ++ [_]) hsame
    · exact congrArg (· ++ [_]) hsame

theorem StepSpec.attemptRows (h : StepSpec db op db') : AttemptRows db op db' := by
  cases h with
  | same => exact .same rfl
  | upload h =>
    cases h with
    | queued ha => exact .same ha.quizAttempts
    | checked ha _ _ _ hc => exact .same (hc.finalizes.within.quizAttempts.trans ha.quizAttempts)
  | check _ h => exact .same h.finalizes.within.quizAttempts
  | aiReview _ h => exact .same h.finalizes.within.quizAttempts
  | retry => exact .same rfl
  | skip => exact .same rfl
  | @review i action reason db' h =>
    cases h with
    | approved => exact .same (within_finalizeGrade _ i).quizAttempts
    | sentQuiz => exact .same rfl
    | rejected => exact .same rfl
  | rerun h => cases h; exact .same rfl
  | @start saId t rnd db' h =>
    have hl := (within_latestSubmission .grades db saId).quizAttempts
    cases h with
    | looked => exact .same hl
    | latest hs => exact hs.attemptRows hl
    | opened ho hs => exact hs.attemptRows (ho.quizAttempts.trans hl)
  | quiz hop h => exact .quiz hop h
  | report => exact .same rfl
  | ruled => exact .ruled ((within_advancedAll _ _).quizAttempts.trans (ruledDb_quizAttempts _ _ _ _ _ _))
  | closed => exact .same rfl
  | grant h => cases h; exact .same rfl
  | scores h =>
    cases h with
    | written w => exact .same w.quizAttempts
    | @completed db₁ i w => exact .same ((within_finalizeGrade _ i).quizAttempts.trans w.quizAttempts)
    | @regraded db₁ i w => exact .same ((within_finalizeGrade _ i).quizAttempts.trans w.quizAttempts)
  | unenroll => exact .same rfl
  | tick => exact .same rfl

theorem attemptRows_step (db : Db) (op : Op) : AttemptRows db op (db.step op) := (step_spec db op).attemptRows

/-- Only finished attempts are credited by a ruling. -/
theorem isCandidate_terminal {a : QuizAttempt} {c v q : ℕ} (h : a.isCandidate c v q = true) :
    a.status.isTerminal = true := by
  unfold QuizAttempt.isCandidate at h
  simp only [Bool.and_eq_true, Bool.or_eq_true, beq_iff_eq] at h
  rcases h.1.1.2 with hs | hs <;> rw [hs] <;> rfl

/-- A request of the system that is no attempt route leaves a running attempt running. -/
theorem running_stays (hop : ∀ k, ¬ op.IsQuizRequest k) {k : ℕ} {a : QuizAttempt} (ha : db.quizAttempts[k]? = some a)
    (hrun : a.status = .inProgress) : ∃ a', (db.step op).quizAttempts[k]? = some a' ∧ a'.status = .inProgress := by
  cases attemptRows_step db op with
  | same h => exact ⟨a, by rw [h, ha], hrun⟩
  | started _ h => exact ⟨a, by rw [h]; exact Table.getElem?_append_old ha, hrun⟩
  | quiz hq => exact absurd hq (hop _)
  | @ruled c v q h =>
    refine ⟨a, ?_, hrun⟩
    have hnot : a.isCandidate c v q ≠ true := by
      intro hc
      have := isCandidate_terminal hc
      rw [hrun] at this
      cases this
    rw [h, List.getElem?_map, ha, Option.map_some, if_neg hnot]

end

end SubmissionsChecker
