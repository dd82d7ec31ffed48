import SubmissionsChecker.Effects.NewWork

/-! What a teacher's request does to a submission: a review decision, the unstick controls, a
granted attempt, saved scores. -/

namespace SubmissionsChecker

/-- A review decision on submission `i`. -/
inductive Decided (db : Db) (i : ℕ) : ReviewAction → Db → Prop
  | approved (hs : db.status i = some .awaitingTeacherReview) (hq : db.hasQuiz i = true → db.quizPassed i = true)
      (hc : db.isScoredSubmission i = true → db.scoresCompleteFor i = true) :
      Decided db i .approve ((db.setSubmission i ({ · with status := .completed })).finalizeGrade i)
  | sentQuiz (hs : db.status i = some .awaitingTeacherReview) (hq : db.hasQuiz i = true)
      (hp : db.quizPassed i = false) : Decided db i .approve (db.setSubmission i ({ · with status := .quizSent }))
  | rejected {results} (hs : db.status i = some .awaitingTeacherReview) (hm : db.isScoredSubmission i = false) :
      Decided db i .reject ((db.setSubmission i ({ · with testResults := results })).setSubmission i
        ({ · with status := .failed }))

/-- The checks of submission `i` are queued again. -/
inductive Requeued (db : Db) (i : ℕ) : Db → Prop
  | mk {s sub} (hsub : db.submissions[i]? = some sub) (hs : sub.status = s) (hr : s.requeueable = true)
      (ht : sub.sourceType ≠ .quizOnly) :
      Requeued db i (((db.setSubmission i ({ · with status := .pending })).setSubmission i
        ({ · with pluginConfigId := none, testResults := none, aiReview := none })).addMessage (.runChecks i))

/-- Student `t` gets one attempt more at submission `i`. -/
inductive Granted (db : Db) (i t : ℕ) : Db → Prop
  | mk {s} {extras : Submission → List (ℕ × ℕ)} (hs : db.status i = some s) (hfs : s = .failed ∨ s = .quizSent) (ht : t ∈ db.studentsOn i)
      (hg : db.isGrantable i t (db.baseMaxAttempts i) = true) :
      Granted db i t ((db.setSubmission i fun sub => { sub with quizExtraAttempts := extras sub }).setSubmission i
        ({ · with status := .quizSent }))

section

variable {db db' : Db} {i : ℕ}

theorem isScoredSubmission_eq {sub : Submission} {asg : SubjectsAssignment}
    (hsub : db.submissions[i]? = some sub) (hasg : db.assignmentOf sub.studentsAssignmentId = some asg) :
    db.isScoredSubmission i = asg.config.isScoredMode := by
  simp only [Db.isScoredSubmission, hsub, Option.bind_some, hasg]

theorem scoresCompleteFor_eq {sub : Submission} {sa : StudentAssignment} {asg : SubjectsAssignment}
    (hsub : db.submissions[i]? = some sub) (hsa : db.studentsAssignments[sub.studentsAssignmentId]? = some sa)
    (hasg : db.assignmentOf sub.studentsAssignmentId = some asg) :
    db.scoresCompleteFor i = isComplete asg.config.grading.teacherCriteria sa.teacherScores := by
  rw [Db.assignmentOf, hsa, Option.bind_some] at hasg
  simp only [Db.scoresCompleteFor, hsub, Option.bind_some, hsa, hasg]

theorem applyReviewDecision_spec {action : ReviewAction} {reason : String}
    (hs : db.status i = some .awaitingTeacherReview)
    (h : db.applyReviewDecision i action reason = .ok db') : Decided db i action db' := by
  unfold Db.applyReviewDecision at h
  cases hsub : db.submissions[i]? with
  | none => simp only [hsub] at h; cases h
  | some sub =>
    simp only [hsub] at h
    cases hsa : db.studentsAssignments[sub.studentsAssignmentId]? with
    | none => simp only [hsa] at h; cases h
    | some sa =>
      cases hasg : db.assignmentOf sub.studentsAssignmentId with
      | none => simp only [hsa, hasg] at h; cases h
      | some asg =>
        simp only [hsa, hasg] at h
        have hscored := isScoredSubmission_eq hsub hasg
        have hcomplete := scoresCompleteFor_eq hsub hsa hasg
        cases action with
        | approve =>
          dsimp only at h
          split_ifs at h with hscores hquiz
          · rw [transition_of_status hs
              (show SubmissionStatus.awaitingTeacherReview.transitions .teacherSendQuiz = some .quizSent from rfl)] at h
            cases h
            simp only [Bool.and_eq_true, Bool.not_eq_true'] at hquiz
            exact .sentQuiz hs hquiz.1 hquiz.2
          · rw [transition_of_status hs
              (show SubmissionStatus.awaitingTeacherReview.transitions .teacherApprove = some .completed from rfl)] at h
            cases h
            refine .approved hs (fun hq => ?_) fun hm => ?_
            · simpa [hq] using hquiz
            · rw [hcomplete]
              by_contra hno
              exact hscores ⟨hscored.symm.trans hm, hno⟩
        | reject =>
          dsimp only at h
          split_ifs at h with hm
          all_goals
            rw [transition_of_status (by rw [status_testResults]; exact hs)
              (show SubmissionStatus.awaitingTeacherReview.transitions .teacherReject = some .failed from rfl)] at h
            cases h
            exact .rejected hs (by rw [hscored]; simpa using hm)
        | other => cases h

theorem reviewSubmission_spec {action : ReviewAction} {reason : String}
    (h : db.reviewSubmission i action reason = .ok db') : Decided db i action db' := by
  unfold Db.reviewSubmission at h
  split_ifs at h with hs
  split at h
  · cases h
  · exact applyReviewDecision_spec hs h

theorem requeueChecks_spec (h : db.requeueChecks i = .ok db') : Requeued db i db' := by
  unfold Db.requeueChecks at h
  split at h
  · cases h
  · rename_i sub hsub
    split_ifs at h with ht
    obtain ⟨db₁, hmove, h⟩ := bind_ok h
    cases h
    obtain ⟨s, next, hs, hn, rfl⟩ := transition_ok hmove
    rw [Db.status, hsub, Option.map_some, Option.some_inj] at hs
    have hnext : next = .pending ∧ s.requeueable = true := by
      cases s <;> simp_all [SubmissionStatus.transitions, SubmissionStatus.requeueable]
    obtain ⟨rfl, hr⟩ := hnext
    exact .mk hsub hs hr ht

theorem skipAiReview_spec (h : db.skipAiReview i = .ok db') : db.status i = some .aiReviewFailed ∧
    db' = db.setSubmission i ({ · with status := .awaitingTeacherReview }) := by
  unfold Db.skipAiReview at h
  split_ifs at h with hs
  rw [transition_of_status hs
    (show SubmissionStatus.aiReviewFailed.transitions .aiReviewSkipToTeacher = some .awaitingTeacherReview from rfl)] at h
  cases h
  exact ⟨hs, rfl⟩

theorem retryAiReview_spec (h : db.retryAiReview i = .ok db') : db.status i = some .aiReviewFailed ∧
    db' = db.addMessage (.runAiReview i (some (nextStepFor (((db.submissions[i]?).bind fun sub =>
      (db.assignmentOf sub.studentsAssignmentId).bind (·.config.reviewMode)).getD .testsOnly)))) := by
  unfold Db.retryAiReview at h
  split_ifs at h with hs
  cases h
  exact ⟨hs, rfl⟩

theorem isGrantable_status {t : ℕ} {base : Option ℤ} (h : db.isGrantable i t base = true) :
    ∃ s, db.status i = some s ∧ (s = .failed ∨ s = .quizSent) := by
  unfold Db.isGrantable at h
  split at h
  · cases h
  · rename_i sub hsub
    simp only [Bool.and_eq_true, Bool.or_eq_true, beq_iff_eq] at h
    exact ⟨sub.status, by rw [Db.status, hsub, Option.map_some], h.1.1⟩

theorem grantQuizAttempt_spec {studentId : Option ℕ} (h : db.grantQuizAttempt i studentId = .ok db') :
    ∃ t, Granted db i t db' := by
  unfold Db.grantQuizAttempt at h
  split at h
  · cases h
  · rename_i sa _
    split at h
    · cases h
    · unfold Db.grantExtraAttempt at h
      split_ifs at h with hg
      obtain ⟨s, hs, hfs⟩ := isGrantable_status hg.2
      obtain ⟨s', next, hs', hn, rfl⟩ := transition_ok h
      rw [status_setSubmission_same, hs, Option.some_inj] at hs'
      · subst hs'
        have hnext : next = .quizSent := by
          rcases hfs with rfl | rfl <;> exact (Option.some_inj.mp hn).symm
        subst hnext
        exact ⟨_, .mk hs hfs hg.1 hg.2⟩
      · exact fun _ => rfl

end

/-! Saved scores -/

/-- Submission `i` is the latest in the scope of student `t` for the assignment. -/
def Db.IsLatestOf (db : Db) (t asgId i : ℕ) : Prop :=
  ∃ (db₀ : Db) (own : ℕ) (sa : StudentAssignment), Within .grades db db₀ ∧
    db₀.studentsAssignments[own]? = some sa ∧ sa.studentId = t ∧ sa.subjectsAssignmentId = asgId ∧
    (db₀.latestSubmission own).2 = some i

/-- The submission that a save of points for student `t` finds, with the rows it looked up. -/
def Db.lookedUpFor (db : Db) (t asgId : ℕ) : Db × Option ℕ :=
  (db.ensureSa t asgId).1.latestSubmission (db.ensureSa t asgId).2

/-- The rows it writes. -/
def Db.scoreTargets (db : Db) (subject t asgId own : ℕ) : Db × List ℕ :=
  match (db.squadOf subject t).bind (db.squads[·]?) with
  | none => (db, [own])
  | some squad => db.memberSaIds squad.members asgId

def Db.withScores (db : Db) (subject t asgId : ℕ) (scores : TeacherScores) : Db :=
  let targets := (db.lookedUpFor t asgId).1.scoreTargets subject t asgId (db.ensureSa t asgId).2
  targets.1.writeScores scores targets.2

/-- Points saved for student `t`: written, and the latest submission completed or graded again. -/
inductive Saved (db : Db) (asgId t : ℕ) : Db → Prop
  | written {db₁} (w : Within .grades db db₁) (u : Ungraded db db₁) : Saved db asgId t db₁
  | completed {db₁ i} (w : Within .grades db db₁) (u : Ungraded db db₁) (hl : db.IsLatestOf t asgId i)
      (hm : db₁.isScoredSubmission i = true) (hs : db.status i = some .awaitingTeacherReview)
      (hp : db.quizPassed i = true) :
      Saved db asgId t ((db₁.setSubmission i ({ · with status := .completed })).finalizeGrade i)
  | regraded {db₁ i} (w : Within .grades db db₁) (u : Ungraded db db₁) (hl : db.IsLatestOf t asgId i)
      (hs : db.status i = some .completed) : Saved db asgId t (db₁.finalizeGrade i)

section

variable {db db' : Db}

theorem writeScores_spec (scores : TeacherScores) (saIds : List ℕ) :
    ∀ db : Db, Within .grades db (db.writeScores scores saIds) ∧ Ungraded db (db.writeScores scores saIds) := by
  induction saIds with
  | nil => exact fun db => ⟨.refl _ db, .refl db⟩
  | cons r rs ih =>
    intro db
    have hw : Within .grades db (db.setStudentAssignment r ({ · with teacherScores := some scores })) :=
      within_setStudentAssignment _ db r fun _ => ⟨rfl, rfl⟩
    have hu : Ungraded db (db.setStudentAssignment r ({ · with teacherScores := some scores })) :=
      ungraded_setStudentAssignment db r fun _ => rfl
    exact ⟨hw.trans (ih _).1, hu.trans (ih _).2⟩

/-- Saved scores only concern a scored assignment. -/
theorem reaches_scored {t asgId i : ℕ} {asg : SubjectsAssignment} (h : db.Reaches t asgId i)
    (hasg : db.subjectsAssignments[asgId]? = some asg) : db.isScoredSubmission i = asg.config.isScoredMode := by
  obtain ⟨sub, row, asg', hsub, hrow, hrowasg, hasg', -⟩ := h
  rw [hasg] at hasg'
  cases hasg'
  exact isScoredSubmission_eq hsub (by rw [Db.assignmentOf, hrow, Option.bind_some, hrowasg, hasg])

/-- The end of a save, for the latest submission of the student. -/
theorem gradeAfterScores_spec {asgId t : ℕ} {asg : SubjectsAssignment} {db₁ : Db} {latest : Option ℕ}
    (w : Within .grades db db₁) (u : Ungraded db db₁) (hasg : db.subjectsAssignments[asgId]? = some asg)
    (hscored : asg.config.isScoredMode = true)
    (hl : ∀ i, latest = some i → db.IsLatestOf t asgId i ∧ db₁.Reaches t asgId i)
    (h : db₁.gradeAfterScores latest = .ok db') : Saved db asgId t db' := by
  unfold Db.gradeAfterScores at h
  cases hi : latest with
  | none => rw [hi] at h; cases h; exact .written w u
  | some i =>
    obtain ⟨hlatest, hreach⟩ := hl i hi
    have hpassed : db₁.quizPassed i = db.quizPassed i := by simp only [Db.quizPassed, w.quizAttempts]
    rw [hi] at h
    dsimp only at h
    rw [w.status_grades, hpassed] at h
    split_ifs at h with hwait hdone
    · rw [transition_of_status ((w.status_grades i).trans hwait.1)
        (show SubmissionStatus.awaitingTeacherReview.transitions .teacherApprove = some .completed from rfl)] at h
      cases h
      exact .completed w u hlatest ((reaches_scored hreach (by rw [w.subjectsAssignments]; exact hasg)).trans hscored)
        hwait.1 hwait.2
    · cases h
      exact .regraded w u hlatest hdone
    · cases h
      exact .written w u

section

variable {subject asgId t : ℕ} {form : String → Option ℕ} {asg : SubjectsAssignment}

/-- What an accepted save did: the points were parsed and written, and complete points went on to the
latest submission. -/
theorem saveScores_ok (h : db.saveScores subject asgId t form = .ok db') : ∃ asg scores,
    db.subjectsAssignments[asgId]? = some asg ∧ asg.subjectId = subject ∧ asg.config.isScoredMode = true ∧
      parseForm asg.config.grading.teacherCriteria form = .ok scores ∧
      if isComplete asg.config.grading.teacherCriteria (some scores) = true then
        (db.withScores subject t asgId scores).gradeAfterScores (db.lookedUpFor t asgId).2 = .ok db'
      else db' = db.withScores subject t asgId scores := by
  unfold Db.saveScores at h
  rcases hasg : db.subjectsAssignments[asgId]? with _ | asg
  · rw [hasg] at h
    cases h
  · simp only [hasg] at h
    split_ifs at h with hsubject hscored henrolled
    obtain ⟨scores, hparse, h⟩ := bind_ok h
    replace h : (if (db.lookedUpFor t asgId).2.any (fun j => (db.lookedUpFor t asgId).1.status j == some .completed) &&
          !isComplete asg.config.grading.teacherCriteria (some scores) then
        .error (.http 422 "A graded work cannot lose a required score")
      else if isComplete asg.config.grading.teacherCriteria (some scores) then
        (db.withScores subject t asgId scores).gradeAfterScores (db.lookedUpFor t asgId).2
      else .ok (db.withScores subject t asgId scores)) = .ok db' := h
    refine ⟨asg, scores, rfl, not_not.mp hsubject, by simpa using hscored, hparse, ?_⟩
    split_ifs at h ⊢
    · exact h
    · exact (Except.ok.inj h).symm

/-- The row and the submission found are the student's. -/
theorem lookedUpFor_spec (t : ℕ) (hasg : db.subjectsAssignments[asgId]? = some asg) :
    Within .grades db (db.lookedUpFor t asgId).1 ∧ Ungraded db (db.lookedUpFor t asgId).1 ∧
      (∃ row, (db.lookedUpFor t asgId).1.studentsAssignments[(db.ensureSa t asgId).2]? = some row ∧
        row.studentId = t ∧ row.subjectsAssignmentId = asgId) ∧
      ∀ i, (db.lookedUpFor t asgId).2 = some i →
        db.IsLatestOf t asgId i ∧ (db.lookedUpFor t asgId).1.Reaches t asgId i := by
  obtain ⟨sa, hsa, hst, hsaasg⟩ := ensureSa_row db t asgId
  have hw₀ := within_ensureSa .grades db t asgId
  have hw₁ := within_latestSubmission .grades (db.ensureSa t asgId).1 (db.ensureSa t asgId).2
  obtain ⟨row, hrow, hrowst, hrowasg⟩ := hw₁.rows _ sa hsa
  refine ⟨hw₀.trans hw₁, (ungraded_ensureSa db t asgId).trans (ungraded_latestSubmission _ _),
    ⟨row, hrow, hrowst.trans hst, hrowasg.trans hsaasg⟩, fun i hi => ⟨⟨_, _, sa, hw₀, hsa, hst, hsaasg, hi⟩, ?_⟩⟩
  have hreach := latestSubmission_reaches hsa (by rw [hsaasg, hw₀.subjectsAssignments]; exact hasg) hi
  rwa [hst, hsaasg] at hreach

theorem within_scoreTargets (db : Db) (subject t asgId own : ℕ) :
    Within .grades db (db.scoreTargets subject t asgId own).1 ∧ Ungraded db (db.scoreTargets subject t asgId own).1 := by
  unfold Db.scoreTargets
  split
  · exact ⟨.refl _ _, .refl _⟩
  · exact ⟨within_memberSaIds _ _ _ _, ungraded_memberSaIds _ _ _⟩

/-- The points written after the look-up change no submission and no grade. -/
theorem within_withScores (db : Db) (subject t asgId : ℕ) (scores : TeacherScores) :
    Within .grades (db.lookedUpFor t asgId).1 (db.withScores subject t asgId scores) ∧
      Ungraded (db.lookedUpFor t asgId).1 (db.withScores subject t asgId scores) := by
  obtain ⟨hw, hu⟩ := within_scoreTargets (db.lookedUpFor t asgId).1 subject t asgId (db.ensureSa t asgId).2
  obtain ⟨hw', hu'⟩ := writeScores_spec scores
    ((db.lookedUpFor t asgId).1.scoreTargets subject t asgId (db.ensureSa t asgId).2).2 _
  exact ⟨hw.trans hw', hu.trans hu'⟩

theorem saveScores_spec (h : db.saveScores subject asgId t form = .ok db') : Saved db asgId t db' := by
  obtain ⟨asg, scores, hasg, -, hscored, -, h⟩ := saveScores_ok h
  obtain ⟨hw₁, hu₁, -, hlatest⟩ := lookedUpFor_spec t hasg
  obtain ⟨hw₂, hu₂⟩ := within_withScores db subject t asgId scores
  split_ifs at h with hcomplete
  · refine gradeAfterScores_spec (hw₁.trans hw₂) (hu₁.trans hu₂) hasg hscored (fun i hi => ?_) h
    exact ⟨(hlatest i hi).1, hw₂.reaches (hlatest i hi).2⟩
  · rw [h]
    exact .written (hw₁.trans hw₂) (hu₁.trans hu₂)

end

end

end SubmissionsChecker
