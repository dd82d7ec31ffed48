import SubmissionsChecker.Effects.Moves

/-! Whose passes a step adds. A pass appears when an attempt is finished or lifted by a ruling,
and then a submission at the quiz whose quiz is complete is moved on. -/

namespace SubmissionsChecker

/-- Submission `i` has no pass in `db'` that it did not have in `db`. -/
def NoNewPass (db db' : Db) (i : ℕ) : Prop := ∀ (k : ℕ) a', db'.quizAttempts[k]? = some a' → a'.submissionId = i →
  a'.passed = true → ∃ a, db.quizAttempts[k]? = some a ∧ a.submissionId = i ∧ a.passed = true ∧ a.studentId = a'.studentId

section

variable {db db' db₁ : Db} {op : Op} {i k : ℕ}

theorem noNewPass_same (h : db'.quizAttempts = db.quizAttempts) : NoNewPass db db' i :=
  fun _ a' ha' hi hp => ⟨a', h ▸ ha', hi, hp, rfl⟩

theorem NoNewPass.passedStudentIds (h : NoNewPass db db' i) {t : ℕ} (ht : t ∈ db'.passedStudentIds i) :
    t ∈ db.passedStudentIds i := by
  simp only [Db.passedStudentIds, List.mem_filterMap, List.mem_filter, Bool.and_eq_true, beq_iff_eq] at ht ⊢
  obtain ⟨a', ⟨ha', hi, hp⟩, hst⟩ := ht
  obtain ⟨k, hk⟩ := List.mem_iff_getElem?.mp ha'
  obtain ⟨a, ha, hi₀, hp₀, hst₀⟩ := h k a' hk hi hp
  exact ⟨a, ⟨List.mem_of_getElem? ha, hi₀, hp₀⟩, hst₀.trans hst⟩

/-- Writing an attempt adds a pass to its own submission at most. -/
theorem noNewPass_setAttempt {a : QuizAttempt} (h : a.submissionId = i → a.passed = false) :
    NoNewPass db (db.setAttempt k fun _ => a) i := by
  intro j a' ha' hi hp
  obtain ⟨a₀, ha₀, rfl⟩ := Table.getElem?_modify_some ha'
  split_ifs at hi hp ⊢ with hj
  · rw [h hi] at hp; cases hp
  · exact ⟨a₀, ha₀, hi, hp, rfl⟩

theorem noNewPass_add {a : QuizAttempt} (hsame : db'.quizAttempts = db.quizAttempts ++ [a])
    (hp : a.isPassed = none) : NoNewPass db db' i := by
  intro j a' ha' hi hpass
  rw [hsame] at ha'
  rcases Table.getElem?_concat_some ha' with ha' | ⟨-, rfl⟩
  · exact ⟨a', ha', hi, hpass, rfl⟩
  · rw [QuizAttempt.passed, hp] at hpass
    cases hpass

theorem QuizStep.passes {ends : Option (QuizAttempt × QuizAttemptStatus)} (h : QuizStep db k ends db') :
    NoNewPass db db' i ∨ (db'.status i = some .quizSent → db'.quizComplete i = false) := by
  cases h with
  | same => exact .inl (noNewPass_same rfl)
  | @edited a a₁ ha hrun he =>
    left
    intro j a' ha' hi hp
    obtain ⟨a₀, ha₀, rfl⟩ := Table.getElem?_modify_some ha'
    split_ifs at hi hp ⊢ with hj
    · subst hj
      rw [ha] at ha₀
      cases ha₀
      exact ⟨a, ha, by rw [he] at hi; exact hi, by rw [he] at hp; exact hp, by rw [he]⟩
    · exact ⟨a₀, ha₀, hi, hp, rfl⟩
  | @finished a₀ a st _ ha hrun he hst hends hfin =>
    have hw := hfin.within
    by_cases hi : a.submissionId = i
    · subst hi
      rw [finishedAttempt_submissionId] at hw
      cases hp : (db.finishedAttempt a st).passed with
      | false =>
        have hset : NoNewPass db (db.setAttempt k fun _ => db.finishedAttempt a st) a.submissionId :=
          noNewPass_setAttempt fun _ => hp
        exact .inl fun j a' ha' => hset j a' (by rw [← hw.quizAttempts]; exact ha')
      | true =>
        right
        intro hsent
        cases hfin with
        | left hpass => exact hpass hsent hp
        | completed hs =>
          rw [finishedAttempt_submissionId] at hs hsent
          rw [status_finalizeGrade, status_setStatus hs, if_pos rfl] at hsent
          cases hsent
        | toTeacher hs =>
          rw [finishedAttempt_submissionId] at hs hsent
          rw [status_setStatus hs, if_pos rfl] at hsent
          cases hsent
        | failed _ hno => rw [hp] at hno; cases hno
    · have hset : NoNewPass db (db.setAttempt k fun _ => db.finishedAttempt a st) i :=
        noNewPass_setAttempt fun h => absurd h hi
      exact .inl fun j a' ha' => hset j a' (by rw [← hw.quizAttempts]; exact ha')

theorem passes_ruled {d c v q : ℕ} {note : String} :
    NoNewPass db (db.ruledDb d c v q note) i ∨ ∃ k ∈ db.liftedBy c v q, ∃ a,
      (db.ruledDb d c v q note).quizAttempts[k]? = some a ∧ a.submissionId = i := by
  by_cases hlift : ∃ k ∈ db.liftedBy c v q, ∃ a,
      (db.ruledDb d c v q note).quizAttempts[k]? = some a ∧ a.submissionId = i
  · exact .inr hlift
  · left
    intro k a' ha' hi hp
    obtain ⟨a, ha, hregrade⟩ := ruledDb_attempt ha'
    by_cases hcand : a.isCandidate c v q = true
    · rw [if_pos hcand] at hregrade
      refine absurd ⟨k, ?_, a', ha', hi⟩ hlift
      exact Table.mem_idsWhere.mpr ⟨a, ha, by rw [hcand, ← hregrade, hp]; rfl⟩
    · rw [if_neg hcand] at hregrade
      subst hregrade
      exact ⟨a', ha, hi, hp, rfl⟩

/-- A step adds no pass to a submission, or does not leave it at a complete quiz. -/
theorem passes_step (h : StepSpec db op db') (i : ℕ) :
    NoNewPass db db' i ∨ (db'.status i = some .quizSent → db'.quizComplete i = false) := by
  cases h with
  | same => exact .inl (noNewPass_same rfl)
  | upload h =>
    left
    cases h with
    | queued ha =>
      exact noNewPass_same ((addSubmission_quizAttempts _ _).trans ha.within.quizAttempts)
    | checked ha _ _ _ hc =>
      refine noNewPass_same ?_
      rw [hc.finalizes.within.quizAttempts, addSubmission_quizAttempts, ha.within.quizAttempts]
  | check _ h => exact .inl (noNewPass_same h.finalizes.within.quizAttempts)
  | aiReview _ h => exact .inl (noNewPass_same h.finalizes.within.quizAttempts)
  | retry => exact .inl (noNewPass_same rfl)
  | skip => exact .inl (noNewPass_same rfl)
  | @review j _ _ _ h =>
    left
    cases h with
    | approved => exact noNewPass_same ((within_finalizeGrade _ j).quizAttempts)
    | sentQuiz => exact noNewPass_same rfl
    | rejected => exact noNewPass_same rfl
  | rerun h => cases h; exact .inl (noNewPass_same rfl)
  | @start saId t _ _ h =>
    left
    have hl := (within_latestSubmission .grades db saId).quizAttempts
    have hstarts : ∀ {e : Db} {j : ℕ}, Starts e j t db' → e.quizAttempts = db.quizAttempts → NoNewPass db db' i := by
      intro e j hs hsame
      cases hs with
      | same => exact noNewPass_same hsame
      | @attempt e₁ a hd ha =>
        refine noNewPass_add (a := a) ?_ ha.unpassed
        rcases hd with rfl | ⟨draw, rfl⟩ <;> simp [hsame]
    cases h with
    | looked => exact noNewPass_same hl
    | latest hs => exact hstarts hs hl
    | opened ho hs =>
      refine hstarts hs (Eq.trans ?_ hl)
      cases ho with
      | reused => exact (within_latestSubmission .grades _ saId).quizAttempts
      | opened ha =>
        rw [Db.setSubmission_quizAttempts, addSubmission_quizAttempts, ha.within.quizAttempts]
  | quiz _ h => exact h.passes
  | report => exact .inl (noNewPass_same rfl)
  | ruled =>
    have hw := fun ks e => (within_advancedAll ks e).quizAttempts
    rcases passes_ruled with h | ⟨k, hk, a, ha, hi⟩
    · exact .inl fun j a' ha' => h j a' (by rw [← hw]; exact ha')
    · right
      intro hsent
      rw [(within_advancedAll _ _).quizComplete]
      exact settled_advancedAll _ _ hk ha hi hsent
  | closed => exact .inl (noNewPass_same rfl)
  | grant h => cases h; exact .inl (noNewPass_same rfl)
  | scores h =>
    left
    cases h with
    | written w => exact noNewPass_same w.quizAttempts
    | @completed db₁ j w => exact noNewPass_same (((within_finalizeGrade _ j).quizAttempts).trans w.quizAttempts)
    | @regraded db₁ j w => exact noNewPass_same (((within_finalizeGrade _ j).quizAttempts).trans w.quizAttempts)
  | unenroll => exact .inl (noNewPass_same rfl)
  | tick => exact .inl (noNewPass_same rfl)

/-- Only an unenrolment changes who is enrolled. -/
theorem enrolled_step (h : StepSpec db op db') : db'.subjectsStudents = db.subjectsStudents ∨
    ∃ subject t, op = .unenroll subject t ∧ db' = db.unenrollStudent subject t := by
  have hadd := addSubmission_subjectsStudents
  cases h with
  | same => exact .inl rfl
  | upload h =>
    left
    cases h with
    | queued ha => exact (hadd _ _).trans ha.within.subjectsStudents
    | checked ha _ _ _ hc =>
      exact hc.finalizes.within.subjectsStudents.trans ((hadd _ _).trans ha.within.subjectsStudents)
  | check _ h => exact .inl h.finalizes.within.subjectsStudents
  | aiReview _ h => exact .inl h.finalizes.within.subjectsStudents
  | retry => exact .inl rfl
  | skip => exact .inl rfl
  | @review j _ _ _ h =>
    left
    cases h with
    | approved => exact (within_finalizeGrade _ j).subjectsStudents
    | sentQuiz => rfl
    | rejected => rfl
  | rerun h => cases h; exact .inl rfl
  | @start saId t _ _ h =>
    left
    have hl := (within_latestSubmission .grades db saId).subjectsStudents
    have hstarts : ∀ {e : Db} {j : ℕ}, Starts e j t db' → db'.subjectsStudents = e.subjectsStudents := by
      intro e j hs
      cases hs with
      | same => rfl
      | attempt hd => rcases hd with rfl | ⟨draw, rfl⟩ <;> rfl
    cases h with
    | looked => exact hl
    | latest hs => exact (hstarts hs).trans hl
    | opened ho hs =>
      refine (hstarts hs).trans (Eq.trans ?_ hl)
      cases ho with
      | reused => exact (within_latestSubmission .grades _ saId).subjectsStudents
      | opened ha => exact (hadd _ _).trans ha.within.subjectsStudents
  | quiz _ h =>
    left
    cases h with
    | same => rfl
    | edited => rfl
    | finished _ _ _ _ _ hfin => exact hfin.within.subjectsStudents
  | report => exact .inl rfl
  | ruled =>
    refine .inl ((within_advancedAll _ _).subjectsStudents.trans ?_)
    simp only [Db.ruledDb, Db.regradeQuestion, Db.closeSiblings, Db.addOverride]
    split_ifs <;> rfl
  | closed => exact .inl rfl
  | grant h => cases h; exact .inl rfl
  | scores h =>
    left
    cases h with
    | written w => exact w.subjectsStudents
    | @completed db₁ j w => exact (within_finalizeGrade _ j).subjectsStudents.trans w.subjectsStudents
    | @regraded db₁ j w => exact (within_finalizeGrade _ j).subjectsStudents.trans w.subjectsStudents
  | @unenroll subject t => exact .inr ⟨subject, t, rfl, rfl⟩
  | tick => exact .inl rfl

end

end SubmissionsChecker
