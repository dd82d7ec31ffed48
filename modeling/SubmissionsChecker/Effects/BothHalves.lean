import SubmissionsChecker.Effects.GradeSteps
import SubmissionsChecker.Invariants.Scopes

/-! Which steps make sure that a grade can be computed before they complete a submission. A quiz, a
ruling and a save of points do; a task and an approval complete it as it is. -/

namespace SubmissionsChecker

/-- Neither half of a scored grade is missing: the points are entered and a quiz is passed. -/
def Db.bothHalves (db : Db) (i : ℕ) : Bool :=
  !db.isScoredSubmission i || (db.scoresCompleteFor i && db.quizPassed i)

/-- The requests that ask for both halves before they complete a submission. -/
def Op.asksForHalves : Op → Bool
  | .showQuiz .. | .answerQuestion .. | .submitQuiz .. | .reportViolation .. | .resolve .. | .saveScores .. => true
  | _ => false

section

variable {db db₁ db' : Db} {op : Op} {i : ℕ}

/-! Where the halves stay as they are -/

theorem bothHalves_congr (hown : db.SubsOwned)
    (hsub : (db'.submissions[i]?).map (·.studentsAssignmentId) = (db.submissions[i]?).map (·.studentsAssignmentId))
    (hrows : ∀ (r : ℕ) row, db.studentsAssignments[r]? = some row →
      ∃ row', db'.studentsAssignments[r]? = some row' ∧ GivesGrade row row')
    (hasg : db'.subjectsAssignments = db.subjectsAssignments) (hattempts : db'.quizAttempts = db.quizAttempts) :
    db'.bothHalves i = db.bothHalves i := by
  have hscored : db'.isScoredSubmission i = db.isScoredSubmission i ∧
      db'.scoresCompleteFor i = db.scoresCompleteFor i := by
    unfold Db.isScoredSubmission Db.scoresCompleteFor Db.assignmentOf
    rcases hs : db.submissions[i]? with _ | sub
    · rw [hs, Option.map_none, Option.map_eq_none_iff] at hsub
      rw [hsub]
      exact ⟨rfl, rfl⟩
    · rw [hs, Option.map_some, Option.map_eq_some_iff] at hsub
      obtain ⟨sub', hs', hid⟩ := hsub
      obtain ⟨row, hrow⟩ := hown i sub hs
      obtain ⟨row', hrow', hgives⟩ := hrows _ row hrow
      simp only [hs', Option.bind_some, hid, hrow, hrow', hgives.asg, hgives.scores, hasg, and_self]
  unfold Db.bothHalves Db.quizPassed
  rw [hscored.1, hscored.2, hattempts]

theorem Grades.bothHalves (h : Grades db db') (hown : db.SubsOwned) (i : ℕ) : db'.bothHalves i = db.bothHalves i :=
  bothHalves_congr hown (h.within.map_sub (·.studentsAssignmentId) i (by simp)) h.rows h.within.subjectsAssignments
    h.within.quizAttempts

theorem TaskPrepares.bothHalves {j : ℕ} (h : TaskPrepares j db db') (hown : db.SubsOwned) (i : ℕ) :
    db'.bothHalves i = db.bothHalves i :=
  bothHalves_congr hown (h.within.map_sub (·.studentsAssignmentId) i (by simp))
    (fun _ row hrow => ⟨row, by rw [h.rows, hrow], .refl row⟩) h.within.subjectsAssignments h.within.quizAttempts

theorem TaskGrades.bothHalves {j : ℕ} (h : TaskGrades j db db') (hown : db.SubsOwned) (i : ℕ) :
    db'.bothHalves i = db.bothHalves i := by
  obtain ⟨e, he, rfl | rfl⟩ := h
  · exact he.bothHalves hown i
  · have hown' := he.within.subsOwned hown
    exact ((grades_complete hown' j).bothHalves hown' i).trans (he.bothHalves hown i)

theorem processMessage_bothHalves (db : Db) (m : ℕ) (check : CheckResult) (ai : AiResult) (hown : db.SubsOwned) (i : ℕ) :
    (db.processMessage m check ai).bothHalves i = db.bothHalves i := by
  unfold Db.processMessage
  split
  · rfl
  · rename_i message _
    split_ifs
    · rfl
    · dsimp only
      cases message.payload with
      | runChecks j => exact (executeCheck_grades db j check).bothHalves hown i
      | runAiReview j ns => exact (executeAiReview_grades db j ns ai).bothHalves hown i

/-! Where they are asked for -/

theorem quizPassed_of_complete (h : db.quizComplete i = true) : db.quizPassed i = true := by
  unfold Db.quizComplete at h
  split at h
  · exact h
  · rename_i squad _
    simp only [Bool.and_eq_true, Bool.not_eq_true', List.isEmpty_eq_false_iff, List.all_eq_true,
      List.contains_iff_mem] at h
    obtain ⟨t, ht⟩ := List.exists_mem_of_ne_nil _ h.1
    obtain ⟨a, ha, -⟩ := List.mem_filterMap.mp (h.2 t ht)
    obtain ⟨ha, hp⟩ := List.mem_filter.mp ha
    unfold Db.quizPassed
    exact List.any_eq_true.mpr ⟨a, ha, hp⟩

theorem bothHalves_of_complete {mode : Option ReviewMode} (hc : db.quizComplete i = true)
    (ht : db.goesToTeacher i mode = false) : db.bothHalves i = true := by
  have hpassed := quizPassed_of_complete hc
  unfold Db.goesToTeacher at ht
  unfold Db.bothHalves
  rw [hpassed]
  split_ifs at ht with hscored
  · rw [Bool.not_eq_false'] at ht
    simp [ht]
  · simp [hscored]

theorem status_complete_ne {j : ℕ} (h : i ≠ j) :
    ((db.setSubmission j ({ · with status := .completed })).finalizeGrade j).status i = db.status i := by
  rw [status_finalizeGrade, status_setStatus_ne db _ h]

theorem Finished.bothHalves {a : QuizAttempt} {k : ℕ} (h : Finished db a k db') (hopen : db.status i ≠ some .completed)
    (hdone : db'.status i = some .completed) : db.bothHalves i = true := by
  have hstays : ∀ s : SubmissionStatus, s ≠ .completed →
      (db.setSubmission a.submissionId ({ · with status := s })).status i ≠ some .completed := by
    intro s hs hdone
    exact hopen ((prepares_setStatus hs db a.submissionId i).2 hdone)
  cases h with
  | left => exact absurd hdone hopen
  | completed _ _ hc ht =>
    by_cases hi : i = a.submissionId
    · subst hi
      exact bothHalves_of_complete hc ht
    · rw [status_complete_ne hi] at hdone
      exact absurd hdone hopen
  | toTeacher => exact absurd hdone (hstays _ (by decide))
  | failed => exact absurd hdone (hstays _ (by decide))

theorem QuizStep.bothHalves {k : ℕ} {ends : Option (QuizAttempt × QuizAttemptStatus)} (h : QuizStep db k ends db')
    (hown : db.SubsOwned) (hopen : db.status i ≠ some .completed) (hdone : db'.status i = some .completed) :
    db'.bothHalves i = true := by
  cases h with
  | same => exact absurd hdone hopen
  | edited => exact absurd hdone hopen
  | @finished a a₁ st _ ha hrun he hst hends hfin =>
    have hown₁ : (db.setAttempt k fun _ => db.finishedAttempt a₁ st).SubsOwned := hown.same rfl rfl
    rw [(hfin.grades hown₁).bothHalves hown₁]
    exact hfin.bothHalves hopen hdone

/-- One lifted attempt. -/
theorem advanced_bothHalves {k : ℕ} (hopen : db.status i ≠ some .completed)
    (hdone : (db.advanced k).status i = some .completed) : db.bothHalves i = true := by
  rw [status_advanced] at hdone
  split at hdone
  · exact absurd hdone hopen
  · rename_i a _
    split_ifs at hdone with hmoves ht
    · cases hdone
    · exact bothHalves_of_complete hmoves.2.2 (by simpa using ht)
    · exact absurd hdone hopen

theorem advancedAll_bothHalves (ks : List ℕ) : ∀ {db : Db}, db.SubsOwned → db.status i ≠ some .completed →
    (ks.foldl Db.advanced db).status i = some .completed → (ks.foldl Db.advanced db).bothHalves i = true := by
  induction ks with
  | nil => exact fun _ hopen hdone => absurd hdone hopen
  | cons k ks ih =>
    intro db hown hopen hdone
    have hg := grades_advanced hown k
    have hown' := hg.within.subsOwned hown
    by_cases hnow : (db.advanced k).status i = some .completed
    · rw [List.foldl_cons, (grades_advancedAll ks hown').bothHalves hown', hg.bothHalves hown]
      exact advanced_bothHalves hopen hnow
    · exact ih hown' hnow hdone

/-! A save of points -/

/-- The row of the submission that the student finds is among those written. -/
theorem scoreTargets_covers {t asgId own : ℕ} {asg : SubjectsAssignment} {row : StudentAssignment} {sub : Submission}
    (hunique : db.UniqueRows) (hone : db.OneSquad) (hreach : db.Reaches t asgId i)
    (hasg : db.subjectsAssignments[asgId]? = some asg) (hown : db.studentsAssignments[own]? = some row)
    (hst : row.studentId = t) (hrowasg : row.subjectsAssignmentId = asgId) (hsub : db.submissions[i]? = some sub) :
    sub.studentsAssignmentId ∈ (db.scoreTargets asg.subjectId t asgId own).2 := by
  obtain ⟨sub', row', asg', hsub', hrow', hrowasg', hasg', hreach⟩ := hreach
  rw [hsub, Option.some_inj] at hsub'
  rw [hasg, Option.some_inj] at hasg'
  subst hsub' hasg'
  unfold Db.scoreTargets
  cases hsquad : (db.squadOf asg.subjectId t).bind (db.squads[·]?) with
  | none =>
    have hnone : db.squadOf asg.subjectId t = none := by
      cases hfind : db.squadOf asg.subjectId t with
      | none => rfl
      | some q =>
        obtain ⟨s, hs, -⟩ := Table.findId_some hfind
        rw [hfind, Option.bind_some, hs] at hsquad
        cases hsquad
    rcases hreach with hst' | ⟨q, s, hs, hsubject, ht, -⟩
    · rw [hunique _ own row' row hrow' hown (hst'.trans hst.symm) (hrowasg'.trans hrowasg.symm)]
      exact List.mem_singleton_self own
    · have hno := Table.findId_none hnone s (List.mem_of_getElem? hs)
      simp [hsubject, ht] at hno
  | some squad =>
    obtain ⟨q, hfind, hq⟩ := Option.bind_eq_some_iff.mp hsquad
    obtain ⟨s, hs, hp⟩ := Table.findId_some hfind
    rw [hq, Option.some_inj] at hs
    subst hs
    simp only [Bool.and_eq_true, beq_iff_eq, List.contains_iff_mem] at hp
    refine mem_memberSaIds squad.members asgId db row' hunique hrow' ?_ hrowasg'
    rcases hreach with hst' | ⟨q', s', hs', hsubject, ht, hmember⟩
    · rw [hst']
      exact hp.2
    · obtain rfl : q' = q := hone q' q s' squad t hs' hq (hsubject.trans hp.1.symm) ht hp.2
      rw [hq, Option.some_inj] at hs'
      rw [hs']
      exact hmember

theorem gradeAfterScores_bothHalves {latest : Option ℕ} (hown : db.SubsOwned)
    (hscores : ∀ j, latest = some j → db.scoresCompleteFor j = true) (h : db.gradeAfterScores latest = .ok db')
    (hopen : db.status i ≠ some .completed) (hdone : db'.status i = some .completed) : db'.bothHalves i = true := by
  unfold Db.gradeAfterScores at h
  cases hlatest : latest with
  | none =>
    rw [hlatest] at h
    cases h
    exact absurd hdone hopen
  | some j =>
    rw [hlatest] at h
    dsimp only at h
    split_ifs at h with hwait hcompleted
    · rw [transition_of_status hwait.1
        (show SubmissionStatus.awaitingTeacherReview.transitions .teacherApprove = some .completed from rfl)] at h
      cases h
      by_cases hi : i = j
      · subst hi
        rw [(grades_complete hown i).bothHalves hown]
        simp [Db.bothHalves, hscores i hlatest, hwait.2]
      · rw [status_complete_ne hi] at hdone
        exact absurd hdone hopen
    · cases h
      rw [status_finalizeGrade] at hdone
      exact absurd hdone hopen
    · cases h
      exact absurd hdone hopen

/-- The owner of the submission found gets the points. -/
theorem withScores_owner {subject asgId t j : ℕ} {asg : SubjectsAssignment} (hunique : db.UniqueRows) (hone : db.OneSquad)
    (hasg : db.subjectsAssignments[asgId]? = some asg) (hsubject : asg.subjectId = subject) (scores : TeacherScores)
    (hj : (db.lookedUpFor t asgId).2 = some j) :
    ∃ sub row, (db.withScores subject t asgId scores).submissions[j]? = some sub ∧
      (db.withScores subject t asgId scores).studentsAssignments[sub.studentsAssignmentId]? = some row ∧
      row.teacherScores = some scores ∧ (db.withScores subject t asgId scores).subjectsAssignments[row.subjectsAssignmentId]? = some asg := by
  obtain ⟨hw, -, ⟨own, hown, hst, hownasg⟩, hlatest⟩ := lookedUpFor_spec t hasg
  obtain ⟨hw', -⟩ := within_withScores db subject t asgId scores
  obtain ⟨sub, row, asg', hsub, hrow, hrowasg, -⟩ := (hlatest j hj).2
  have hasg₂ : (db.lookedUpFor t asgId).1.subjectsAssignments[asgId]? = some asg := by rw [hw.subjectsAssignments, hasg]
  have hone₂ : (db.lookedUpFor t asgId).1.OneSquad := by
    unfold Db.OneSquad
    rw [hw.squads]
    exact hone
  have hmem := scoreTargets_covers (hw.unique hunique) hone₂ (hlatest j hj).2 hasg₂ hown hst hownasg hsub
  rw [hsubject] at hmem
  obtain ⟨hw₃, -⟩ := within_scoreTargets (db.lookedUpFor t asgId).1 subject t asgId (db.ensureSa t asgId).2
  obtain ⟨row₃, hrow₃, -, hrowasg₃⟩ := hw₃.rows _ row hrow
  obtain ⟨sub', hsub', -⟩ := hw'.sub hsub
  have hid := hw'.map_sub (·.studentsAssignmentId) j (by simp)
  rw [hsub', hsub, Option.map_some, Option.map_some, Option.some_inj] at hid
  refine ⟨sub', { row₃ with teacherScores := some scores }, hsub', ?_, rfl, ?_⟩
  · rw [hid]
    unfold Db.withScores
    rw [writeScores_rows, hrow₃, Option.map_some, if_pos hmem]
  · change (db.withScores subject t asgId scores).subjectsAssignments[row₃.subjectsAssignmentId]? = some asg
    rw [hrowasg₃, hrowasg, hw'.subjectsAssignments, hasg₂]

/-- Points that complete a submission are complete for its owner. -/
theorem saveScores_bothHalves {subject asgId t : ℕ} {form : String → Option ℕ} (hown : db.SubsOwned)
    (hunique : db.UniqueRows) (hone : db.OneSquad) (h : db.saveScores subject asgId t form = .ok db')
    (hopen : db.status i ≠ some .completed) (hdone : db'.status i = some .completed) : db'.bothHalves i = true := by
  obtain ⟨asg, scores, hasg, hsubject, -, -, h⟩ := saveScores_ok h
  obtain ⟨hw₁, -⟩ := lookedUpFor_spec t hasg
  have hw := hw₁.trans (within_withScores db subject t asgId scores).1
  have hopen' : (db.withScores subject t asgId scores).status i ≠ some .completed := by rwa [hw.status_grades]
  split_ifs at h with hcomplete
  · refine gradeAfterScores_bothHalves (hw.subsOwned hown) (fun j hj => ?_) h hopen' hdone
    obtain ⟨sub, row, hsub, hrow, hscores, hrowasg⟩ := withScores_owner hunique hone hasg hsubject scores hj
    unfold Db.scoresCompleteFor
    simp only [hsub, Option.bind_some, hrow, hrowasg, hscores]
    exact hcomplete
  · rw [h] at hdone
    exact absurd hdone hopen'

/-! The steps -/

/-- The submission that a step completes has both halves after it when the request asked for them,
and otherwise when it had them before. -/
theorem step_bothHalves (hown : db.SubsOwned) (hunique : db.UniqueRows) (hone : db.OneSquad)
    (hopen : db.status i ≠ some .completed) (hdone : (db.step op).status i = some .completed) :
    (db.step op).bothHalves i = (op.asksForHalves || db.bothHalves i) := by
  have hprepares : ∀ {e : Db}, Prepares db e → e.status i = some .completed → False := fun hp h => hopen ((hp i).2 h)
  by_cases hmessage : ∃ m check ai, op = .processMessage m check ai
  · obtain ⟨m, check, ai, rfl⟩ := hmessage
    exact processMessage_bothHalves db m check ai hown i
  push Not at hmessage
  by_cases hsave : ∃ subject asgId t form, op = .saveScores subject asgId t form
  · obtain ⟨subject, asgId, t, form, rfl⟩ := hsave
    unfold Db.step at hdone ⊢
    rcases hreq : db.request (.saveScores subject asgId t form) with e | db'
    · rw [hreq] at hdone
      exact absurd hdone hopen
    · rw [hreq] at hdone
      exact saveScores_bothHalves hown hunique hone hreq hopen hdone
  push Not at hsave
  have hspec := step_spec db op
  generalize db.step op = db' at hdone hspec
  cases hspec with
  | same => exact absurd hdone hopen
  | upload h => exact (hprepares (h.prepares hown).1 hdone).elim
  | check => exact absurd rfl (hmessage _ _ _)
  | aiReview => exact absurd rfl (hmessage _ _ _)
  | retry => exact absurd hdone hopen
  | @skip j => exact (hprepares (prepares_setStatus (s := .awaitingTeacherReview) (by decide) db j) hdone).elim
  | @review j action reason _ h =>
    cases h with
    | approved => exact (grades_complete hown j).bothHalves hown i
    | sentQuiz => exact (hprepares (prepares_setStatus (s := .quizSent) (by decide) db j) hdone).elim
    | @rejected results =>
      have hnote : Prepares db (db.setSubmission j ({ · with testResults := results })) :=
        prepares_setSubmission db j fun _ => ⟨rfl, id⟩
      exact (hprepares (hnote.trans (prepares_setStatus (s := .failed) (by decide) _ j)) hdone).elim
  | rerun h => exact (hprepares (h.prepares hown).1 hdone).elim
  | start h => exact (hprepares (h.prepares hown).1 hdone).elim
  | quiz hop h =>
    rw [h.bothHalves hown hopen hdone]
    rcases hop with ⟨_, _, _, rfl⟩ | ⟨_, _, _, _, rfl⟩ | ⟨_, _, _, rfl⟩ | ⟨_, _, rfl⟩ <;> rfl
  | report => exact absurd hdone hopen
  | @ruled d note dispute c v =>
    have hsubs := ruledDb_submissions db d c v dispute.questionId note
    have hrows : (db.ruledDb d c v dispute.questionId note).studentsAssignments = db.studentsAssignments := by
      simp only [Db.ruledDb, Db.regradeQuestion, Db.closeSiblings, Db.addOverride]
      split_ifs <;> rfl
    have hopen' : (db.ruledDb d c v dispute.questionId note).status i ≠ some .completed := by
      rw [Db.status, hsubs]
      exact hopen
    rw [advancedAll_bothHalves _ (hown.same hsubs hrows) hopen' hdone]
    rfl
  | closed => exact absurd hdone hopen
  | grant h => exact (hprepares (h.prepares hown).1 hdone).elim
  | scores => exact absurd rfl (hsave _ _ _ _)
  | unenroll => exact absurd hdone hopen
  | tick => exact absurd hdone hopen

end

end SubmissionsChecker
