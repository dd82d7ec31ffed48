import SubmissionsChecker.Effects.Moves

/-! `_execute_check` with the calls that can raise after the tests ran: the notification and the
finalisation. Without such a fault it is the handler itself. -/

namespace SubmissionsChecker

/-- The late call that raises, if any. -/
inductive LateFault
  | none
  | notification
  | finalisation
  deriving DecidableEq, Repr

/-- A notification at the end of a handler. -/
def Handled.notify (late : LateFault) (h : Handled) : Handled :=
  h.andThen fun db => if late = .notification then (db, some (.runtime "notification")) else (db, none)

namespace Db

/-- `finalize_grade`, when it may raise before it writes the grade. -/
def finalizeGradeUnless (late : LateFault) (db : Db) (i : ℕ) : Handled :=
  if late = .finalisation then (db, some (.runtime "finalisation")) else (db.finalizeGrade i, none)

/-- `_advance_after_tests`. -/
def advanceWith (late : LateFault) (db : Db) (i : ℕ) (reviewMode : ReviewMode) : Handled :=
  match reviewMode with
  | .testsThenTeacher => (db.attemptTransition i .testPassedTeacher).notify late
  | .testsOnly | .quizOnly | .quizThenTeacher | .quizAndTeacherScores =>
    ((db.attemptTransition i .testPassedTestsOnly).andThen fun db => db.finalizeGradeUnless late i).notify late
  | .testsThenAi | .testsThenAiThenTeacher | .testsThenAiTeacher | .testsThenAiThenQuiz | .testsThenQuiz =>
    db.advanceAfterTests i reviewMode

/-- The sandbox part of `_execute_check`. -/
def runSandboxWith (late : LateFault) (db : Db) (i : ℕ) (reviewMode : ReviewMode) (version : ℕ) (result : CheckResult) :
    Handled :=
  match result with
  | .tested passed score maxScore =>
    ((db.attemptTransition i .startValidation).andThen fun db => db.attemptTransition i .validationPassed).andThen fun db =>
      let db₁ := db.setSubmission i ({ · with testResults := some (.tested passed score maxScore version) })
      if passed then db₁.advanceWith late i reviewMode else (db₁.attemptTransition i .testFailed).notify late
  | _ => db.runSandbox i reviewMode version result

/-- `_execute_check`. -/
def executeCheckWith (late : LateFault) (db : Db) (i : ℕ) (result : CheckResult) : Handled :=
  match (db.submissions[i]?).bind fun sub => (db.assignmentOf sub.studentsAssignmentId).map (sub, ·) with
  | none => (db, none)
  | some (sub, asg) =>
    match db.pinConfig i sub asg.subjectId with
    | none => db.failValidation i "No plugin configuration found for this subject. Contact your teacher."
    | some (db₁, none) => (db₁, some (.runtime "Pinned plugin_config_id not found"))
    | some (db₁, some cfg) =>
      let reviewMode := ((cfg.assignment asg.code).reviewMode).getD .testsOnly
      if reviewMode.isQuizFirst then db₁.acceptWithoutChecks i reviewMode result
      else if asg.code.isNone then
        db₁.failValidation i "This assignment has no plugin code set, so no check can be selected."
      else
        match result with
        | .raises => (db₁, some (.runtime "Submission has no saved_as in source_metadata"))
        | .unusable reason => db₁.failValidation i reason
        | _ => db₁.runSandboxWith late i reviewMode cfg.version result

/-- One message of `process_outbox_messages`. -/
def processMessageWith (late : LateFault) (db : Db) (m : ℕ) (check : CheckResult) (ai : AiResult) : Db :=
  match db.outbox[m]? with
  | none => db
  | some message =>
    if message.state = .finished then db
    else
      let handled :=
        match message.payload with
        | .runChecks i => db.executeCheckWith late i check
        | .runAiReview i nextStep => db.executeAiReview i nextStep ai
      handled.1.setMessage m ({ · with state := if handled.2.isNone then .finished else .error })

/-- One operation, with the fault its message meets. -/
def stepWith (db : Db) (o : LateFault × Op) : Db :=
  match o.2 with
  | .processMessage m check ai => db.processMessageWith o.1 m check ai
  | op => db.step op

end Db

theorem notify_none (h : Handled) : h.notify .none = h := by
  obtain ⟨db, _ | e⟩ := h <;> rfl

theorem advanceWith_none (db : Db) (i : ℕ) (m : ReviewMode) : db.advanceWith .none i m = db.advanceAfterTests i m := by
  rcases m <;> simp [Db.advanceWith, Db.advanceAfterTests, notify_none, Db.finalizeGradeUnless]

theorem runSandboxWith_none (db : Db) (i : ℕ) (m : ReviewMode) (version : ℕ) (result : CheckResult) :
    db.runSandboxWith .none i m version result = db.runSandbox i m version result := by
  rcases result with _ | _ | _ | _ | _ | ⟨passed, score, maxScore⟩
  · rfl
  · rfl
  · rfl
  · rfl
  · rfl
  · simp only [Db.runSandboxWith, Db.runSandbox, advanceWith_none, notify_none]
    obtain ⟨db₁, _ | e⟩ := db.attemptTransition i .startValidation <;> rfl

/-- Without a late fault this is the handler. -/
theorem executeCheckWith_none (db : Db) (i : ℕ) (result : CheckResult) :
    db.executeCheckWith .none i result = db.executeCheck i result := by
  unfold Db.executeCheckWith
  simp only [runSandboxWith_none]
  rfl

theorem stepWith_other {op : Op} (db : Db) (late : LateFault) (h : ∀ m check ai, op ≠ .processMessage m check ai) :
    db.stepWith (late, op) = db.step op := by
  rcases op
  case processMessage m check ai => exact absurd rfl (h m check ai)
  all_goals rfl

theorem stepWith_none (db : Db) (op : Op) : db.stepWith (.none, op) = db.step op := by
  rcases op
  case processMessage m check ai =>
    change db.processMessageWith .none m check ai = _
    unfold Db.processMessageWith
    simp only [executeCheckWith_none]
    rfl
  all_goals rfl

end SubmissionsChecker
