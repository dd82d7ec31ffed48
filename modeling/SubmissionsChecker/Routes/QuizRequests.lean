import SubmissionsChecker.Routes.AntiCheat

/-! The requests of one attempt with its clocks (`api/routes/student_quiz.py`): the page, an answer, the form, a
violation, a pause and its end. Whether an answer is right, and which questions a teacher has credited, are inputs;
the owner checks are left out. -/

namespace SubmissionsChecker

/-- What the rule that a violation meets does to the clocks and the outcome. -/
inductive ViolationEffect
  | nothing
  | penalty (seconds : ℤ)
  | forceFail
  deriving DecidableEq

/-- One request. -/
inductive QuizRequest
  | show
  /-- `index` and the graded form; an index that is no number is posted as -1. -/
  | answer (postedIndex : ℤ) (isRight : ℕ → Bool)
  | submit (isRight : ℕ → Bool)
  | violation (effect : ViolationEffect)
  /-- The moment at which the pause begins, when it is granted. -/
  | pause (granted : Option ℚ)
  | resume

/-- A request at its moment, with the questions that are credited by then. -/
structure ClockedRequest where
  now : ℚ
  overrides : Finset ℕ := ∅
  request : QuizRequest

/-- The attempt as `_grade_and_finalize` leaves it, with the credited questions. -/
def QuizAttempt.finished (a : QuizAttempt) (overrides : Finset ℕ) (status : QuizAttemptStatus) : QuizAttempt :=
  let credited := a.applyOverrides overrides
  let s := credited.scoreAttempt
  { credited with
    score := some s.score, maxScore := some s.maxScore, isPassed := some s.isPassed
    status := if s.forceFailed then .violationFail else status }

namespace TimedAttempt

/-- `_grade_and_finalize`, as far as the attempt goes; an open pause is closed. -/
def gradeAndFinalize (a : TimedAttempt) (overrides : Finset ℕ) (status : QuizAttemptStatus) (now : ℚ) : TimedAttempt :=
  { (a.closeOpenPause now).1 with attempt := a.attempt.finished overrides status }

/-- A stepped attempt whose questions are all behind it is finished. -/
def finishIfDone (a : TimedAttempt) (overrides : Finset ℕ) (now : ℚ) : TimedAttempt :=
  if a.attempt.currentQuestion.isNone then a.gradeAndFinalize overrides .completed now else a

/-- `show_quiz`. -/
def handleShow (a : TimedAttempt) (overrides : Finset ℕ) (now : ℚ) : TimedAttempt :=
  if a.attempt.status.isTerminal then a
  else if a.attempt.forceFail then a.gradeAndFinalize overrides .violationFail now
  else if a.pausedAt.isSome then a
  else if a.isTimedOut now then a.gradeAndFinalize overrides .timedOut now
  else if a.isStepped then (a.showQuiz now).finishIfDone overrides now
  else a

/-- The answer to the current question, unless another was meant or its window closed. -/
def recordAnswer (a : TimedAttempt) (postedIndex : ℤ) (isRight : ℕ → Bool) (now : ℚ) : TimedAttempt :=
  let (a', burned) := a.advanceExpired now
  match a'.attempt.currentQuestion with
  | none => a'
  | some q =>
    if burned = 0 ∧ postedIndex = a'.attempt.currentIndex then
      { a' with
        attempt := { a'.attempt with
          answers := a'.attempt.answers ++ [gradeAnswer q (isRight q.id)], currentIndex := a'.attempt.currentIndex + 1 }
        questionStartedAt := some now }
    else a'

/-- `answer_question`. -/
def handleAnswer (a : TimedAttempt) (overrides : Finset ℕ) (postedIndex : ℤ) (isRight : ℕ → Bool) (now : ℚ) : TimedAttempt :=
  if a.attempt.status.isTerminal then a
  else if !a.isStepped then a
  else if a.pausedAt.isSome then a
  else if a.attempt.forceFail then a.gradeAndFinalize overrides .violationFail now
  else (a.recordAnswer postedIndex isRight now).finishIfDone overrides now

/-- The status of a form that is handed in. -/
def finalStatus (a : TimedAttempt) (now : ℚ) : QuizAttemptStatus :=
  if a.attempt.forceFail then .violationFail else if a.isTimedOut now then .timedOut else .completed

/-- The attempt with the form as its answers. -/
def withForm (a : TimedAttempt) (isRight : ℕ → Bool) : TimedAttempt :=
  { a with attempt := { a.attempt with answers := a.attempt.questionsSnapshot.map fun q => gradeAnswer q (isRight q.id) } }

/-- `submit_quiz`. -/
def handleSubmit (a : TimedAttempt) (overrides : Finset ℕ) (isRight : ℕ → Bool) (now : ℚ) : TimedAttempt :=
  if a.attempt.status.isTerminal then a
  else if a.isStepped then a
  else if a.pausedAt.isSome then a
  else (a.withForm isRight).gradeAndFinalize overrides (a.finalStatus now) now

/-- `report_violation`. -/
def handleViolation (a : TimedAttempt) (effect : ViolationEffect) : TimedAttempt :=
  if a.attempt.status ≠ .inProgress then a
  else if a.pausedAt.isSome then a
  else
    match effect with
    | .nothing => a
    | .penalty seconds => a.reduceTime seconds
    | .forceFail => { a with attempt := { a.attempt with forceFail := true } }

/-- `request_air_raid_pause`: the clock is settled before it is stopped. A request that is not granted stores what ran out. -/
def handlePause (a : TimedAttempt) (overrides : Finset ℕ) (now : ℚ) (granted : Option ℚ) : TimedAttempt :=
  if a.attempt.status ≠ .inProgress then a
  else if a.pausedAt.isSome then a
  else if a.isTimedOut now then a.gradeAndFinalize overrides .timedOut now
  else
    let settled := if a.isStepped then a.advanceExpired now else (a, 0)
    if a.isStepped ∧ settled.1.attempt.currentQuestion.isNone then settled.1.gradeAndFinalize overrides .completed now
    else
      match granted with
      | some pausedAt => settled.1.pause pausedAt
      | none => if settled.2 = 0 then a else settled.1

def handle (a : TimedAttempt) (r : ClockedRequest) : TimedAttempt :=
  match r.request with
  | .show => a.handleShow r.overrides r.now
  | .answer postedIndex isRight => a.handleAnswer r.overrides postedIndex isRight r.now
  | .submit isRight => a.handleSubmit r.overrides isRight r.now
  | .violation effect => a.handleViolation effect
  | .pause granted => a.handlePause r.overrides r.now granted
  | .resume => a.resume r.now

end TimedAttempt

section

variable {a : TimedAttempt}

theorem finishedAttempt_eq (db : Db) (a : QuizAttempt) (status : QuizAttemptStatus) : db.finishedAttempt a status =
    a.finished (db.loadQuestionOverrides a.pluginConfigId a.pluginConfigVersion) status := rfl

end

end SubmissionsChecker
