import SubmissionsChecker.Services.QuizOpen

/-! `workers/tasks/check_tasks.py`: running the checks of one submission. Opening the archive,
resolving the plan and the sandbox run are outside the model: their result is an input. A
handler that raises keeps the changes it made, since the outbox processor commits them. -/

namespace SubmissionsChecker

/-- `_QUIZ_FIRST_MODES`. -/
def ReviewMode.isQuizFirst : ReviewMode → Bool
  | quizOnly | quizThenTeacher | quizAndTeacherScores => true
  | _ => false

/-- What opening the archive, resolving the plan and running the sandbox give. -/
inductive CheckResult
  | raises
  | unusable (reason : String)
  | raisesInSandbox
  | executionError (reason : String)
  | validationFailed (reason : String)
  | tested (passed : Bool) (score maxScore : ℚ)
  deriving DecidableEq, Repr

/-- The database a task leaves and what it raised. -/
abbrev Handled := Db × Option Raised

/-- A task that raises keeps what it changed before. -/
def Handled.andThen (h : Handled) (f : Db → Handled) : Handled :=
  match h.2 with
  | none => f h.1
  | some e => (h.1, some e)

namespace Db

def attemptTransition (db : Db) (i : ℕ) (event : Event) : Handled :=
  match db.transition i event with
  | .ok db' => (db', none)
  | .error e => (db, some e)

/-- `_fail_validation`. -/
def failValidation (db : Db) (i : ℕ) (reason : String) : Handled :=
  let db₁ := db.setSubmission i ({ · with testResults := some (.checkReason reason) })
  let entered : Handled :=
    if db₁.status i = some .pending then db₁.attemptTransition i .startValidation else (db₁, none)
  entered.andThen fun db => db.attemptTransition i .validationFailed

/-- `_accept_without_checks`. -/
def acceptWithoutChecks (db : Db) (i : ℕ) (reviewMode : ReviewMode) (result : CheckResult) : Handled :=
  match result with
  | .raises => (db, some (.runtime "Submission has no saved_as in source_metadata"))
  | .unusable reason => db.failValidation i reason
  | _ =>
    let db₁ := db.setSubmission i ({ · with testResults := some (.skipped reviewMode) })
    ((db₁.attemptTransition i .startValidation).andThen fun db =>
      db.attemptTransition i .validationPassed).andThen fun db => db.attemptTransition i .testPassedQuiz

/-- The transition to `AWAITING_AI_REVIEW` and its outbox message. -/
def sendToAi (db : Db) (i : ℕ) (nextStep : Option NextStep) : Handled :=
  (db.attemptTransition i .testPassedAi).andThen fun db => (db.addMessage (.runAiReview i nextStep), none)

/-- `_advance_after_tests`. -/
def advanceAfterTests (db : Db) (i : ℕ) (reviewMode : ReviewMode) : Handled :=
  match reviewMode with
  | .testsThenAi => db.sendToAi i none
  | .testsThenTeacher => db.attemptTransition i .testPassedTeacher
  | .testsThenAiThenTeacher | .testsThenAiTeacher => db.sendToAi i (some .teacher)
  | .testsThenAiThenQuiz => db.sendToAi i (some .quiz)
  | .testsThenQuiz => db.attemptTransition i .testPassedQuiz
  | .testsOnly | .quizOnly | .quizThenTeacher | .quizAndTeacherScores =>
    (db.attemptTransition i .testPassedTestsOnly).andThen fun db => (db.finalizeGrade i, none)

/-- The sandbox part of `_execute_check`, after the archive was extracted. -/
def runSandbox (db : Db) (i : ℕ) (reviewMode : ReviewMode) (version : ℕ) (result : CheckResult) : Handled :=
  (db.attemptTransition i .startValidation).andThen fun db =>
    match result with
    | .validationFailed reason =>
      (db.setSubmission i ({ · with testResults := some (.checkReason reason) })).attemptTransition i
        .validationFailed
    | .tested passed score maxScore =>
      (db.attemptTransition i .validationPassed).andThen fun db =>
        let db₁ := db.setSubmission i
          ({ · with testResults := some (.tested passed score maxScore version) })
        if passed then db₁.advanceAfterTests i reviewMode else db₁.attemptTransition i .testFailed
    | .raisesInSandbox => (db, some (.runtime "sandbox"))
    | .executionError reason => db.failValidation i reason
    | .raises | .unusable _ => (db, none)

/-- The config record of `_execute_check`: pinned when the check starts, once. -/
def pinConfig (db : Db) (i : ℕ) (sub : Submission) (subjectId : ℕ) :
    Option (Db × Option SubjectPluginConfig) :=
  match sub.pluginConfigId with
  | some c => some (db, db.pluginConfigs[c]?)
  | none =>
    match db.latestConfig subjectId with
    | none => none
    | some c => some (db.setSubmission i ({ · with pluginConfigId := some c }), db.pluginConfigs[c]?)

/-- `_execute_check`. -/
def executeCheck (db : Db) (i : ℕ) (result : CheckResult) : Handled :=
  match (db.submissions[i]?).bind fun sub => (db.assignmentOf sub.studentsAssignmentId).map (sub, ·) with
  | none => (db, none)
  | some (sub, asg) =>
    match db.pinConfig i sub asg.subjectId with
    | none => db.failValidation i "No plugin configuration found for this subject. Contact your teacher."
    | some (db₁, none) => (db₁, some (.runtime "Pinned plugin_config_id not found"))
    | some (db₁, some cfg) =>
      let reviewMode := ((cfg.assignment asg.code).reviewMode).getD .testsOnly
      if reviewMode.isQuizFirst then db₁.acceptWithoutChecks i reviewMode result
      else if asg.code.isNone then
        db₁.failValidation i "This assignment has no plugin code set, so no check can be selected."
      else
        match result with
        | .raises => (db₁, some (.runtime "Submission has no saved_as in source_metadata"))
        | .unusable reason => db₁.failValidation i reason
        | _ => db₁.runSandbox i reviewMode cfg.version result

/-- `is_quiz_first_assignment`. -/
def isQuizFirstAssignment (db : Db) (subjectId : ℕ) (code : Option String) : Bool :=
  match code, (db.latestConfig subjectId).bind (db.pluginConfigs[·]?) with
  | some _, some cfg => (((cfg.assignment code).reviewMode).getD .testsOnly).isQuizFirst
  | _, _ => false

end Db

/-! ## The AI review

`workers/tasks/review_tasks.py`: the AI review of one submission, and the outbox messages
that run the two tasks. -/

/-- The provider's answer: an error, or a code mark and whether the verdict is flagged. -/
inductive AiResult
  | providerError
  | verdict (codeMark : Option ℚ) (isFlagged : Bool)
  deriving DecidableEq, Repr

namespace Db

/-- `_enter_reviewing`. -/
def enterReviewing (db : Db) (i : ℕ) : Handled :=
  match db.status i with
  | some .awaitingAiReview => db.attemptTransition i .startAiReview
  | some .aiReviewFailed => db.attemptTransition i .retryAiReview
  | some .aiReviewing => (db, none)
  | _ => db.attemptTransition i .startAiReview

/-- `_execute_ai_review`. -/
def executeAiReview (db : Db) (i : ℕ) (nextStep : Option NextStep) (result : AiResult) : Handled :=
  (db.enterReviewing i).andThen fun db =>
    match result with
    | .providerError => (db.attemptTransition i .aiReviewFailed).andThen fun db => (db, some .aiProvider)
    | .verdict codeMark isFlagged =>
      let db₁ := db.setSubmission i ({ · with aiReview := some { codeMark } })
      match nextStep.getD .completed with
      | .quiz =>
        db₁.attemptTransition i (if isFlagged then .aiReviewDoneTeacher else .aiReviewPassedQuiz)
      | .teacher => db₁.attemptTransition i .aiReviewDoneTeacher
      | .completed =>
        (db₁.attemptTransition i .aiReviewDoneCompleted).andThen fun db => (db.finalizeGrade i, none)

/-- One message of `process_outbox_messages`: a task that raises leaves the message in `ERROR`,
to be retried, and its changes are committed with it. -/
def processMessage (db : Db) (m : ℕ) (check : CheckResult) (ai : AiResult) : Db :=
  match db.outbox[m]? with
  | none => db
  | some message =>
    if message.state = .finished then db
    else
      let handled :=
        match message.payload with
        | .runChecks i => db.executeCheck i check
        | .runAiReview i nextStep => db.executeAiReview i nextStep ai
      handled.1.setMessage m ({ · with state := if handled.2.isNone then .finished else .error })

end Db

end SubmissionsChecker
