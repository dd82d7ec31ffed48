import SubmissionsChecker.Effects.Moves

/-! A breakdown is only ever stored on a completed submission, and nothing leaves `COMPLETED`. -/

namespace SubmissionsChecker

/-- Completed submissions stay so, and a breakdown changes only where the submission is completed. -/
def GradesDone (db db' : Db) : Prop := ∀ (i : ℕ) sub, db.submissions[i]? = some sub →
  ∃ sub', db'.submissions[i]? = some sub' ∧ (sub.status = .completed → sub'.status = .completed) ∧
    (sub'.gradeBreakdown = sub.gradeBreakdown ∨ sub'.status = .completed)

namespace GradesDone

variable {db db₁ db₂ : Db}

theorem same (h : db₁.submissions = db.submissions) : GradesDone db db₁ :=
  fun _ sub hs => ⟨sub, by rw [h, hs], id, .inl rfl⟩

theorem trans (h₁ : GradesDone db db₁) (h₂ : GradesDone db₁ db₂) : GradesDone db db₂ := by
  intro i sub hs
  obtain ⟨sub₁, hs₁, hc₁, hb₁⟩ := h₁ i sub hs
  obtain ⟨sub₂, hs₂, hc₂, hb₂⟩ := h₂ i sub₁ hs₁
  refine ⟨sub₂, hs₂, fun h => hc₂ (hc₁ h), ?_⟩
  rcases hb₁ with hb₁ | hb₁
  · exact hb₂.imp_left (·.trans hb₁)
  · exact .inr (hc₂ hb₁)

end GradesDone

section

variable {db db' : Db} {op : Op} {i : ℕ}

theorem Finalizes.gradesDone {scope : Scope} (h : Finalizes scope i db db')
    (hc : ∀ j, db.status j = some .completed → db'.status j = some .completed) : GradesDone db db' := by
  intro j sub hs
  obtain ⟨sub', hs', -⟩ := h.within.sub hs
  refine ⟨sub', hs', fun hdone => ?_, (h.breakdown hs hs').imp_right (·.2)⟩
  have := hc j (by rw [status_of_row hs, hdone])
  rwa [status_of_row hs', Option.some_inj] at this

theorem gradesDone_rows (w : Within .grades db db') (u : Ungraded db db') : GradesDone db db' :=
  (Finalizes.ungraded (i := 0) w u).gradesDone fun j h => by rw [w.status_grades, h]

theorem gradesDone_finalizeGrade (h : db.status i = some .completed) : GradesDone db (db.finalizeGrade i) :=
  (Finalizes.graded (.refl .grades db) (.refl db) h).gradesDone fun j hj => by rw [status_finalizeGrade, hj]

theorem gradesDone_setSubmission (db : Db) (i : ℕ) {f : Submission → Submission}
    (hf : ∀ s, db.submissions[i]? = some s → (f s).gradeBreakdown = s.gradeBreakdown ∧
      (s.status = .completed → (f s).status = .completed)) : GradesDone db (db.setSubmission i f) := by
  intro j s hs
  refine ⟨if i = j then f s else s, ?_, ?_⟩
  · rw [Db.setSubmission_submissions, List.getElem?_modify, hs]
    split_ifs <;> rfl
  · split_ifs with hj
    · exact ⟨(hf s (hj ▸ hs)).2, .inl (hf s (hj ▸ hs)).1⟩
    · exact ⟨id, .inl rfl⟩

/-- A status written over one that is not `COMPLETED`. -/
theorem gradesDone_setStatus {s next : SubmissionStatus} (hs : db.status i = some s) (hne : s ≠ .completed) :
    GradesDone db (db.setSubmission i ({ · with status := next })) := by
  refine gradesDone_setSubmission db i fun sub hsub => ⟨rfl, fun h => ?_⟩
  rw [status_of_row hsub, h, Option.some_inj] at hs
  exact absurd hs.symm hne

theorem gradesDone_complete {s : SubmissionStatus} (hs : db.status i = some s) (hne : s ≠ .completed) :
    GradesDone db ((db.setSubmission i ({ · with status := .completed })).finalizeGrade i) :=
  (gradesDone_setStatus hs hne).trans (gradesDone_finalizeGrade (status_setSubmission_status hs))

theorem gradesDone_addSubmission (db : Db) (sub : Submission) : GradesDone db (db.addSubmission sub) := by
  intro j s hs
  refine ⟨s, ?_, id, .inl rfl⟩
  rw [addSubmission_submissions]
  exact Table.getElem?_append_old hs

theorem gradesDone_advanced (db : Db) (k : ℕ) : GradesDone db (db.advanced k) := by
  unfold Db.advanced
  split
  · exact .same rfl
  · rename_i a _
    dsimp only
    by_cases hopen : db.status a.submissionId = some .quizSent ∨ db.status a.submissionId = some .failed
    · obtain ⟨s, hs, hne⟩ : ∃ s, db.status a.submissionId = some s ∧ s ≠ .completed := by
        rcases hopen with h | h <;> exact ⟨_, h, by decide⟩
      rw [if_pos hopen]
      split_ifs
      · exact gradesDone_setStatus hs hne
      · exact gradesDone_complete hs hne
      · exact .same rfl
    · rw [if_neg hopen]
      split_ifs with hdone
      · exact gradesDone_finalizeGrade hdone
      · exact .same rfl

theorem gradesDone_advancedAll (ks : List ℕ) : ∀ db : Db, GradesDone db (ks.foldl Db.advanced db) := by
  induction ks with
  | nil => exact fun _ => .same rfl
  | cons k ks ih => exact fun db => (gradesDone_advanced db k).trans (ih _)

theorem CheckMove.completed {check : CheckResult} {mode : Option ReviewMode} {s' : Option SubmissionStatus}
    (h : CheckMove check mode (some .completed) s') : s' = some .completed := by
  cases h with
  | stays => rfl
  | refused h => rcases h with h | h <;> cases h

theorem ReviewMove.completed {ai : AiResult} {ns : Option NextStep} {s' : Option SubmissionStatus}
    (h : ReviewMove ai ns (some .completed) s') : s' = some .completed := by
  cases h with
  | stays => rfl
  | failed h => cases h
  | reviewed h => cases h

theorem Checked.gradesDone {check : CheckResult} (h : Checked i check db db') : GradesDone db db' := by
  refine h.finalizes.gradesDone fun j hj => ?_
  by_cases hi : j = i
  · subst hi
    have hmove := h.move
    rw [hj] at hmove
    exact hmove.completed
  · rw [h.finalizes.within.status_ne hi, hj]

theorem Reviewed.gradesDone {ns : Option NextStep} {ai : AiResult} (h : Reviewed i ns ai db db') :
    GradesDone db db' := by
  refine h.finalizes.gradesDone fun j hj => ?_
  by_cases hi : j = i
  · subst hi
    have hmove := h.move
    rw [hj] at hmove
    exact hmove.completed
  · rw [h.finalizes.within.status_ne hi, hj]

theorem Adds.gradesDone {saId : ℕ} {sub : Submission} (h : Adds db saId sub db') :
    GradesDone db (db'.addSubmission sub) :=
  (gradesDone_rows h.within h.ungraded).trans (gradesDone_addSubmission _ _)

theorem Uploaded.gradesDone {saId : ℕ} {check : CheckResult} (h : Uploaded db saId check db') :
    GradesDone db db' := by
  cases h with
  | queued ha => exact ha.gradesDone.trans (.same rfl)
  | checked ha _ _ _ hc => exact ha.gradesDone.trans hc.gradesDone

theorem Opened.gradesDone {saId : ℕ} (h : Opened db saId db' i) : GradesDone db db' := by
  cases h with
  | reused => exact gradesDone_rows (within_latestSubmission .grades db saId) (ungraded_latestSubmission db saId)
  | @opened sub db₁ ha =>
    intro j s hs
    obtain ⟨s', hs', hkeep⟩ := ha.gradesDone j s hs
    refine ⟨s', ?_, hkeep⟩
    have hj : j < db.submissions.length := (List.getElem?_eq_some_iff.mp hs).1
    rw [Db.setSubmission_submissions, Table.getElem?_modify_ne _ (by omega), hs']

theorem Starts.gradesDone {t : ℕ} (h : Starts db i t db') : GradesDone db db' := by
  cases h with
  | same => exact .same rfl
  | @attempt db₁ a hd ha =>
    have hadd : GradesDone db₁ { db₁ with quizAttempts := db₁.quizAttempts ++ [a] } := .same rfl
    rcases hd with rfl | ⟨draw, rfl⟩
    · exact hadd
    · have hset : GradesDone db (db.setSubmission i ({ · with squadQuizDraw := some draw })) :=
        gradesDone_setSubmission db i fun _ _ => ⟨rfl, id⟩
      exact hset.trans hadd

theorem Started.gradesDone {saId t : ℕ} (h : Started db saId t db') : GradesDone db db' := by
  have hl := gradesDone_rows (within_latestSubmission .grades db saId) (ungraded_latestSubmission db saId)
  cases h with
  | looked => exact hl
  | latest hs => exact hl.trans hs.gradesDone
  | opened ho hs => exact (hl.trans ho.gradesDone).trans hs.gradesDone

theorem Decided.gradesDone {action : ReviewAction} (h : Decided db i action db') : GradesDone db db' := by
  cases h with
  | approved hs => exact gradesDone_complete hs (by decide)
  | sentQuiz hs => exact gradesDone_setStatus hs (by decide)
  | @rejected results hs =>
    have hset : GradesDone db (db.setSubmission i ({ · with testResults := results })) :=
      gradesDone_setSubmission db i fun _ _ => ⟨rfl, id⟩
    exact hset.trans (gradesDone_setStatus (by rw [status_testResults, hs]) (by decide))

theorem Requeued.gradesDone (h : Requeued db i db') : GradesDone db db' := by
  cases h with
  | @mk s sub hsub hs hr =>
    have hst : db.status i = some s := by rw [status_of_row hsub, hs]
    have hne : s ≠ .completed := by rintro rfl; cases hr
    have hreset : GradesDone (db.setSubmission i ({ · with status := .pending }))
        ((db.setSubmission i ({ · with status := .pending })).setSubmission i
          ({ · with pluginConfigId := none, testResults := none, aiReview := none })) :=
      gradesDone_setSubmission _ i fun _ _ => ⟨rfl, id⟩
    exact ((gradesDone_setStatus hst hne).trans hreset).trans (.same rfl)

theorem Granted.gradesDone {t : ℕ} (h : Granted db i t db') : GradesDone db db' := by
  cases h with
  | @mk s extras hs hfs =>
    have hset : GradesDone db (db.setSubmission i fun sub => { sub with quizExtraAttempts := extras sub }) :=
      gradesDone_setSubmission db i fun _ _ => ⟨rfl, id⟩
    refine hset.trans (gradesDone_setStatus (s := s) ?_ (by rintro rfl; rcases hfs with h | h <;> cases h))
    rw [← hs]
    exact status_setSubmission_same fun _ => rfl

theorem Saved.gradesDone {asgId t : ℕ} (h : Saved db asgId t db') : GradesDone db db' := by
  cases h with
  | written w u => exact gradesDone_rows w u
  | completed w u _ _ hs =>
    exact (gradesDone_rows w u).trans (gradesDone_complete (by rw [w.status_grades, hs]) (by decide))
  | regraded w u _ hs =>
    exact (gradesDone_rows w u).trans (gradesDone_finalizeGrade (by rw [w.status_grades, hs]))

theorem QuizStep.gradesDone {k : ℕ} {ends : Option (QuizAttempt × QuizAttemptStatus)}
    (h : QuizStep db k ends db') : GradesDone db db' := by
  cases h with
  | same => exact .same rfl
  | edited => exact .same rfl
  | @finished a₀ a st _ _ _ _ _ _ hfin =>
    have hset : GradesDone db (db.setAttempt k fun _ => db.finishedAttempt a st) := .same rfl
    refine hset.trans ?_
    cases hfin with
    | left => exact .same rfl
    | completed hs => exact gradesDone_complete hs (by decide)
    | toTeacher hs => exact gradesDone_setStatus hs (by decide)
    | failed hs => exact gradesDone_setStatus hs (by decide)

theorem StepSpec.gradesDone (h : StepSpec db op db') : GradesDone db db' := by
  cases h with
  | same => exact .same rfl
  | upload h => exact h.gradesDone
  | check _ h => exact h.gradesDone.trans (.same rfl)
  | aiReview _ h => exact h.gradesDone.trans (.same rfl)
  | retry => exact .same rfl
  | skip hs => exact gradesDone_setStatus hs (by decide)
  | review h => exact h.gradesDone
  | rerun h => exact h.gradesDone
  | start h => exact h.gradesDone
  | quiz _ h => exact h.gradesDone
  | report => exact .same rfl
  | ruled => exact (GradesDone.same (ruledDb_submissions _ _ _ _ _ _)).trans (gradesDone_advancedAll _ _)
  | closed => exact .same rfl
  | grant h => exact h.gradesDone
  | scores h => exact h.gradesDone
  | unenroll => exact .same rfl
  | tick => exact .same rfl

end

end SubmissionsChecker
