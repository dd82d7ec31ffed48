import SubmissionsChecker.Services.Grading
import Mathlib.Data.List.MinMax

/-! `services/quiz_open.py`: opening a quiz with nothing uploaded, and the two questions the
quiz outcomes ask about a scored submission. -/

namespace SubmissionsChecker

/-- `REOPENABLE`. -/
def SubmissionStatus.isReopenable : SubmissionStatus → Bool
  | validationFailed | testFailed => true
  | _ => false

namespace Db

/-- `ORDER BY version DESC LIMIT 1` over a subject's configs. -/
def latestConfig (db : Db) (subjectId : ℕ) : Option ℕ :=
  (Table.idsWhere (fun c => c.subjectId == subjectId) db.pluginConfigs).argmax fun i =>
    ((db.pluginConfigs[i]?).map (·.version)).getD 0

/-- `is_scored_submission`. -/
def isScoredSubmission (db : Db) (i : ℕ) : Bool :=
  match (db.submissions[i]?).bind (fun sub => db.assignmentOf sub.studentsAssignmentId) with
  | none => false
  | some asg => asg.config.isScoredMode

/-- `scores_complete_for`. -/
def scoresCompleteFor (db : Db) (i : ℕ) : Bool :=
  match (db.submissions[i]?).bind (fun sub => db.studentsAssignments[sub.studentsAssignmentId]?) with
  | none => false
  | some sa =>
    match db.subjectsAssignments[sa.subjectsAssignmentId]? with
    | none => false
    | some asg => isComplete asg.config.grading.teacherCriteria sa.teacherScores

/-- The squad a new submission is made for, when the subject has squads and no invitation is open. -/
def squadForUpload (db : Db) (subjectId studentId : ℕ) (refuse : Raised) : Except Raised (Option ℕ) :=
  match db.subjects[subjectId]? with
  | none => .ok none
  | some subject =>
    if subject.squadMaxSize.isNone then .ok none
    else if db.hasPendingInvites subjectId studentId || db.squadHasPendingInvites subjectId studentId then
      .error refuse
    else .ok (db.squadOf subjectId studentId)

/-- `db.add(submission)`, then `lock_on_submit`. -/
def addSubmission (db : Db) (sub : Submission) : Db :=
  let db₁ := { db with submissions := db.submissions ++ [sub] }
  match sub.squadId with
  | none => db₁
  | some q => db₁.lockOnSubmit q

/-- `open_quiz_submission`. -/
def openQuizSubmission (db : Db) (saId studentId : ℕ) : Except Raised (Db × ℕ) :=
  let (db₁, existing) := db.latestSubmission saId
  let reusable := existing.filter fun i => (db₁.status i).any fun s => !s.isReopenable
  match reusable with
  | some i => .ok (db₁, i)
  | none =>
    match db₁.assignmentOf saId with
    | none => .error (.quizOpenError "Quiz not available for this submission")
    | some asg =>
      if !asg.config.isScoredMode then .error (.quizOpenError "Quiz not available for this submission")
      else do
        let squad ← db₁.squadForUpload asg.subjectId studentId
          (.quizOpenError "Squad invitation pending; answer or cancel it first.")
        match db₁.latestConfig asg.subjectId with
        | none => .error (.quizOpenError "No plugin config for this subject")
        | some configId =>
          let i := db₁.submissions.length
          let db₂ := db₁.addSubmission
            { studentsAssignmentId := saId, sourceType := .quizOnly, pluginConfigId := some configId,
              squadId := squad, testResults := some (.skipped .quizAndTeacherScores), createdAt := db₁.now }
          let db₃ ← db₂.transition i .quizOpened
          .ok (db₃, i)

end Db

/-! A new submission leaves the other tables alone, up to the lock of its squad -/

section

variable (db : Db) (sub : Submission)

@[simp] theorem addSubmission_submissions : (db.addSubmission sub).submissions = db.submissions ++ [sub] := by
  unfold Db.addSubmission
  dsimp only
  split <;> rfl

@[simp] theorem addSubmission_studentsAssignments :
    (db.addSubmission sub).studentsAssignments = db.studentsAssignments := by
  unfold Db.addSubmission
  dsimp only
  split <;> rfl

@[simp] theorem addSubmission_subjectsAssignments :
    (db.addSubmission sub).subjectsAssignments = db.subjectsAssignments := by
  unfold Db.addSubmission
  dsimp only
  split <;> rfl

@[simp] theorem addSubmission_subjectsStudents : (db.addSubmission sub).subjectsStudents = db.subjectsStudents := by
  unfold Db.addSubmission
  dsimp only
  split <;> rfl

@[simp] theorem addSubmission_quizAttempts : (db.addSubmission sub).quizAttempts = db.quizAttempts := by
  unfold Db.addSubmission
  dsimp only
  split <;> rfl

@[simp] theorem addSubmission_disputes : (db.addSubmission sub).disputes = db.disputes := by
  unfold Db.addSubmission
  dsimp only
  split <;> rfl

@[simp] theorem addSubmission_outbox : (db.addSubmission sub).outbox = db.outbox := by
  unfold Db.addSubmission
  dsimp only
  split <;> rfl

end

end SubmissionsChecker
