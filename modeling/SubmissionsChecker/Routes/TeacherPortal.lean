import SubmissionsChecker.Services.QuizGrants
import SubmissionsChecker.Services.QuizOpen
import SubmissionsChecker.Services.QuizRegrade

/-! `api/routes/teacher_portal.py` and `teacher_disputes.py`: review decisions, the unstick
controls, grants, score saves, rulings and unenrolment. A bulk board action is the same
decision on one row after another. -/

namespace SubmissionsChecker

inductive ReviewAction
  | approve | reject | other
  deriving DecidableEq, Repr

/-- `_next_step_for`, by the suffix of the mode's name. -/
def nextStepFor : ReviewMode → NextStep
  | .testsThenTeacher | .testsThenAiThenTeacher | .testsThenAiTeacher | .quizThenTeacher => .teacher
  | .testsThenAiThenQuiz | .testsThenQuiz => .quiz
  | .testsOnly | .testsThenAi | .quizOnly | .quizAndTeacherScores => .completed

namespace Db

/-- `_quiz_passed`. -/
def quizPassed (db : Db) (i : ℕ) : Bool := db.quizAttempts.any fun a => a.submissionId == i && a.passed

/-- `has_quiz` of `_apply_review_decision`: the pinned config has questions for the assignment. -/
def hasQuiz (db : Db) (i : ℕ) : Bool := (db.pinnedBlock i).any fun block => block.quiz.questions != []

/-- `_apply_review_decision`. -/
def applyReviewDecision (db : Db) (i : ℕ) (action : ReviewAction) (reason : String) : Except Raised Db :=
  match db.submissions[i]? with
  | none => .error (.http 404 "")
  | some sub =>
    match db.studentsAssignments[sub.studentsAssignmentId]?, db.assignmentOf sub.studentsAssignmentId with
    | some sa, some asg =>
      match action with
      | .approve =>
        if asg.config.isScoredMode ∧ ¬ isComplete asg.config.grading.teacherCriteria sa.teacherScores then
          .error (.reviewNotAllowed "Enter the work points on the assignment board first")
        else if db.hasQuiz i && !db.quizPassed i then db.transition i .teacherSendQuiz
        else do
          let db₁ ← db.transition i .teacherApprove
          .ok (db₁.finalizeGrade i)
      | .reject =>
        if asg.config.isScoredMode then
          .error (.reviewNotAllowed "Rejecting is not available here; enter the points")
        else
          let checkReason := if reason = "" then "Rejected by teacher" else reason
          (db.setSubmission i ({ · with testResults := some (.checkReason checkReason) })).transition i
            .teacherReject
      | .other => .error (.http 400 "Invalid action")
    | _, _ => .error (.http 404 "")

/-- `teacher_review_submission_action`. -/
def reviewSubmission (db : Db) (i : ℕ) (action : ReviewAction) (reason : String) : Except Raised Db :=
  if db.status i = some .awaitingTeacherReview then
    match db.applyReviewDecision i action reason with
    | .error (.reviewNotAllowed message) => .error (.http 409 message)
    | r => r
  else .error (.http 404 "")

/-- `_requeue_checks`. -/
def requeueChecks (db : Db) (i : ℕ) : Except Raised Db :=
  match db.submissions[i]? with
  | none => .error (.http 404 "")
  | some sub =>
    if sub.sourceType = .quizOnly then
      .error (.invalidTransition .requeueChecks sub.status)
    else do
      let db₁ ← db.transition i .requeueChecks
      let db₂ := db₁.setSubmission i
        ({ · with pluginConfigId := none, testResults := none, aiReview := none })
      .ok (db₂.addMessage (.runChecks i))

/-- `teacher_retry_ai_review`. -/
def retryAiReview (db : Db) (i : ℕ) : Except Raised Db :=
  if db.status i = some .aiReviewFailed then
    let mode := ((db.submissions[i]?).bind fun sub =>
      (db.assignmentOf sub.studentsAssignmentId).bind (·.config.reviewMode)).getD .testsOnly
    .ok (db.addMessage (.runAiReview i (some (nextStepFor mode))))
  else .error (.http 409 "Submission is not in a state that allows this action")

/-- `teacher_skip_ai_review`. -/
def skipAiReview (db : Db) (i : ℕ) : Except Raised Db :=
  if db.status i = some .aiReviewFailed then db.transition i .aiReviewSkipToTeacher
  else .error (.http 409 "Submission is not in a state that allows this action")

/-- `teacher_grant_quiz_attempt`. -/
def grantQuizAttempt (db : Db) (i : ℕ) (studentId : Option ℕ) : Except Raised Db :=
  match (db.submissions[i]?).bind fun sub => db.studentsAssignments[sub.studentsAssignmentId]? with
  | none => .error (.http 404 "")
  | some sa =>
    match db.grantExtraAttempt i (studentId.getD sa.studentId) with
    | .error (.grantError _) =>
      .error (.http 409 "Submission is not in a state that allows this action")
    | r => r

/-- The last part of `teacher_save_scores`: complete scores move or re-grade the submission. -/
def gradeAfterScores (db : Db) (latest : Option ℕ) : Except Raised Db :=
  match latest with
  | none => .ok db
  | some i =>
    if db.status i = some .awaitingTeacherReview ∧ db.quizPassed i then do
      let db₁ ← db.transition i .teacherApprove
      .ok (db₁.finalizeGrade i)
    else if db.status i = some .completed then .ok (db.finalizeGrade i)
    else .ok db

def writeScores (db : Db) (scores : TeacherScores) (saIds : List ℕ) : Db :=
  saIds.foldl (fun db saId => db.setStudentAssignment saId ({ · with teacherScores := some scores })) db

/-- `teacher_save_scores`. -/
def saveScores (db : Db) (subjectId asgId studentId : ℕ) (form : String → Option ℕ) :
    Except Raised Db :=
  match db.subjectsAssignments[asgId]? with
  | none => .error (.http 404 "Assignment not found")
  | some asg =>
    if asg.subjectId ≠ subjectId then .error (.http 404 "Assignment not found")
    else if !asg.config.isScoredMode then .error (.http 409 "This assignment takes no teacher points")
    else if (subjectId, studentId) ∉ db.subjectsStudents then
      .error (.http 404 "Student is not enrolled")
    else do
      let crits := asg.config.grading.teacherCriteria
      let scores ← parseForm crits form
      let (db₁, own) := db.ensureSa studentId asgId
      let (db₂, latest) := db₁.latestSubmission own
      let complete := isComplete crits (some scores)
      if latest.any (fun i => db₂.status i == some .completed) && !complete then
        .error (.http 422 "A graded work cannot lose a required score")
      else
        let (db₃, targets) :=
          match (db₂.squadOf subjectId studentId).bind (db₂.squads[·]?) with
          | none => (db₂, [own])
          | some squad => db₂.memberSaIds squad.members asgId
        let db₄ := db₃.writeScores scores targets
        if complete then db₄.gradeAfterScores latest else .ok db₄

/-- `unenroll_student`. -/
def unenrollStudent (db : Db) (subjectId studentId : ℕ) : Db :=
  { db with subjectsStudents := db.subjectsStudents.erase (subjectId, studentId) }

/-- `teacher_disputes.resolve`. -/
def resolve (db : Db) (d : ℕ) (accept : Bool) (note : String) : Except Raised Db :=
  match db.disputes[d]? with
  | none => .error (.http 404 "")
  | some dispute =>
    if note = "" then .error (.http 400 "A note explaining the decision is required")
    else if dispute.status ≠ .opened then .error (.http 409 "This report has already been resolved")
    else db.resolveDispute d accept note

end Db

/-! ## Access

Which teacher may send which request: the checks of `api/authz.py` and `teacher_portal.py` in front
of the review, the bulk action of the board, the re-run, the grant and the scores. -/

/-- `CurrentUserData` of a teacher route. -/
structure TeacherUser where
  userId : ℕ
  isAdmin : Bool := false
  deriving DecidableEq, Repr

/-- A `SUBMISSION_REVIEWED` message. -/
structure ReviewedMessage where
  submissionId : ℕ
  action : ReviewAction
  reason : String
  deriving DecidableEq

/-- The `action` of the board. -/
inductive BulkAction
  | approve | reject | rerun | other
  deriving DecidableEq, Repr

def BulkAction.decision : BulkAction → ReviewAction
  | approve => .approve
  | reject => .reject
  | rerun | other => .other

/-- The database with `Subject.owner_id` and the review messages of the outbox. -/
structure Desk where
  db : Db
  owner : ℕ → Option ℕ
  reviewed : List ReviewedMessage := []

/-- The requests of these routes. A reason comes stripped; `studentId` is the form's, if it is a number. -/
inductive TeacherRequest
  | review (submission : ℕ) (action : ReviewAction) (reason : String)
  | bulk (subject assignment : ℕ) (action : BulkAction) (submissions : List ℕ) (reason : String)
  | rerunChecks (submission : ℕ)
  | grantQuizAttempt (submission : ℕ) (studentId : Option ℕ)
  | saveScores (subject assignment : ℕ) (studentId : Option ℕ) (form : String → Option ℕ)

namespace Desk

/-- The subject of submission `i`. -/
def subjectOf (s : Desk) (i : ℕ) : Option ℕ :=
  ((s.db.submissions[i]?).bind fun sub => s.db.assignmentOf sub.studentsAssignmentId).map (·.subjectId)

/-- `current_user.role != UserRole.ADMIN and subject.owner_id != current_user.user_id`. -/
def refuses (s : Desk) (user : TeacherUser) (subjectId : ℕ) : Bool :=
  !user.isAdmin && s.owner subjectId != some user.userId

/-- `require_subject_access`. -/
def requireSubjectAccess (s : Desk) (user : TeacherUser) (subjectId : ℕ) : Except Raised Unit :=
  match s.db.subjects[subjectId]? with
  | none => .error (.http 404 "Subject not found")
  | some _ => if s.refuses user subjectId then .error (.http 403 "Not authorized for this subject") else .ok ()

/-- `_load_submission_for_teacher`. -/
def loadSubmissionForTeacher (s : Desk) (user : TeacherUser) (i : ℕ) : Except Raised Unit :=
  match s.subjectOf i with
  | none => .error (.http 404 "")
  | some subjectId => if s.refuses user subjectId then .error (.http 403 "Not authorized for this subject") else .ok ()

/-- `_apply_review_decision`, with its message. -/
def applyReviewDecision (s : Desk) (i : ℕ) (action : ReviewAction) (reason : String) : Except Raised Desk := do
  let db ← s.db.applyReviewDecision i action reason
  .ok { s with db, reviewed := s.reviewed ++ [{ submissionId := i, action, reason }] }

/-- `teacher_review_submission_action`. -/
def reviewSubmission (s : Desk) (user : TeacherUser) (i : ℕ) (action : ReviewAction) (reason : String) :
    Except Raised Desk :=
  if s.db.status i = some .awaitingTeacherReview then
    match s.subjectOf i with
    | none => .error (.http 404 "")
    | some subjectId => do
      s.requireSubjectAccess user subjectId
      match s.applyReviewDecision i action reason with
      | .error (.reviewNotAllowed message) => .error (.http 409 message)
      | r => r
  else .error (.http 404 "")

/-- One row of the bulk action; `none` is a skipped one. -/
def bulkRow (s : Desk) (asgId : ℕ) (action : BulkAction) (reason : String) (i : ℕ) : Except Raised (Option Desk) :=
  if ((s.db.submissions[i]?).bind fun sub => s.db.studentsAssignments[sub.studentsAssignmentId]?).map
      (·.subjectsAssignmentId) ≠ some asgId then .ok none
  else if action = .rerun then
    match s.db.requeueChecks i with
    | .ok db => .ok (some { s with db })
    | .error (.invalidTransition _ _) => .ok none
    | .error e => .error e
  else if s.db.status i ≠ some .awaitingTeacherReview then .ok none
  else
    match s.applyReviewDecision i action.decision reason with
    | .ok s' => .ok (some s')
    | .error (.reviewNotAllowed _) => .ok none
    | .error e => .error e

/-- The loop of the bulk action, with `applied` and `skipped`. -/
def bulkLoop (asgId : ℕ) (action : BulkAction) (reason : String) : List ℕ → Desk × ℕ × ℕ → Except Raised (Desk × ℕ × ℕ)
  | [], r => .ok r
  | i :: is, (s, applied, skipped) => do
    match ← s.bulkRow asgId action reason i with
    | none => bulkLoop asgId action reason is (s, applied, skipped + 1)
    | some s' => bulkLoop asgId action reason is (s', applied + 1, skipped)

/-- `Submission.id.in_(submission_ids)`. -/
def selected (s : Desk) (ids : List ℕ) : List ℕ := (List.range s.db.submissions.length).filter (ids.contains ·)

/-- `teacher_bulk_board_action`. -/
def bulkBoardAction (s : Desk) (user : TeacherUser) (subjectId asgId : ℕ) (action : BulkAction) (ids : List ℕ)
    (reason : String) : Except Raised (Desk × ℕ × ℕ) := do
  s.requireSubjectAccess user subjectId
  if action = .other then .error (.http 400 "Invalid action")
  else if action = .reject ∧ reason = "" then .error (.http 422 "A reason is required to reject")
  else bulkLoop asgId action reason (s.selected ids) (s, 0, 0)

/-- `teacher_rerun_checks`. -/
def rerunChecks (s : Desk) (user : TeacherUser) (i : ℕ) : Except Raised Desk := do
  s.loadSubmissionForTeacher user i
  match s.db.requeueChecks i with
  | .ok db => .ok { s with db }
  | .error (.invalidTransition _ _) => .error (.http 409 "Submission is not in a state that allows this action")
  | .error e => .error e

/-- `teacher_grant_quiz_attempt`. -/
def grantQuizAttempt (s : Desk) (user : TeacherUser) (i : ℕ) (studentId : Option ℕ) : Except Raised Desk := do
  s.loadSubmissionForTeacher user i
  let db ← s.db.grantQuizAttempt i studentId
  .ok { s with db }

/-- The submission that saved scores have just completed. -/
def approvedByScores (s : Desk) (db' : Db) (asgId studentId : ℕ) : Option ℕ :=
  let (db₁, own) := s.db.ensureSa studentId asgId
  (db₁.latestSubmission own).2.filter fun i =>
    s.db.status i == some .awaitingTeacherReview && db'.status i == some .completed

/-- `teacher_save_scores`. -/
def saveScores (s : Desk) (user : TeacherUser) (subjectId asgId : ℕ) (studentId : Option ℕ) (form : String → Option ℕ) :
    Except Raised Desk := do
  s.requireSubjectAccess user subjectId
  match studentId with
  | none =>
    match s.db.subjectsAssignments[asgId]? with
    | none => .error (.http 404 "Assignment not found")
    | some asg =>
      if asg.subjectId ≠ subjectId then .error (.http 404 "Assignment not found")
      else if !asg.config.isScoredMode then .error (.http 409 "This assignment takes no teacher points")
      else .error (.http 422 "student_id is required")
  | some studentId => do
    let db ← s.db.saveScores subjectId asgId studentId form
    .ok { s with
      db
      reviewed := s.reviewed ++ (s.approvedByScores db asgId studentId).toList.map fun i =>
        { submissionId := i, action := .approve, reason := "" } }

def request (s : Desk) (user : TeacherUser) : TeacherRequest → Except Raised Desk
  | .review i action reason => s.reviewSubmission user i action reason
  | .bulk subjectId asgId action ids reason => do
    let r ← s.bulkBoardAction user subjectId asgId action ids reason
    .ok r.1
  | .rerunChecks i => s.rerunChecks user i
  | .grantQuizAttempt i studentId => s.grantQuizAttempt user i studentId
  | .saveScores subjectId asgId studentId form => s.saveScores user subjectId asgId studentId form

/-- One request: one that raises leaves everything as it was. -/
def handle (s : Desk) (user : TeacherUser) (r : TeacherRequest) : Desk :=
  match s.request user r with
  | .ok s' => s'
  | .error _ => s

end Desk

end SubmissionsChecker
