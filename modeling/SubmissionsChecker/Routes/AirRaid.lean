import SubmissionsChecker.System
import Mathlib.Data.List.MinMax

/-! `api/routes/student_quiz.py` with the air-raid pause: the columns of an attempt that stop its
clocks, the rows that record each pause, and the attempt routes with their pause checks. Times are in
microseconds. Whether a pause request is granted (coordinates, covered region, active alert) is an
input, as is what the stopped clocks say. -/

namespace SubmissionsChecker

/-- One pause window; `ended_at` is null while the student is sheltering. -/
structure QuizAttemptPause where
  startedAt : ℕ
  endedAt : Option ℕ := none
  deriving DecidableEq, Repr

/-- The pause columns of an attempt, with its rows in `quiz_attempt_pauses`. -/
structure PauseColumns where
  pausedAt : Option ℕ := none
  pausedSeconds : ℕ := 0
  pauses : List QuizAttemptPause := []
  deriving DecidableEq, Repr

def microsPerSecond : ℕ := 1000000

namespace PauseColumns

/-- `_close_open_pause`, with the seconds it returns. -/
def closeOpenPause (c : PauseColumns) (now : ℕ) : PauseColumns × ℕ :=
  match c.pausedAt with
  | none => (c, 0)
  | some pausedAt =>
    let elapsed := (now - pausedAt) / microsPerSecond
    ({ c with pausedAt := none, pausedSeconds := c.pausedSeconds + elapsed }, elapsed)

/-- The ids of the rows without an end. -/
def openIds (c : PauseColumns) : List ℕ := Table.idsWhere (·.endedAt.isNone) c.pauses

/-- `_open_pause`: the latest of them. -/
def openPause (c : PauseColumns) : Option ℕ :=
  c.openIds.argmax fun i => ((c.pauses[i]?).map (·.startedAt)).getD 0

/-- What a granted pause request writes. -/
def pause (c : PauseColumns) (now : ℕ) : PauseColumns :=
  { c with pausedAt := some now, pauses := c.pauses ++ [{ startedAt := now }] }

/-- What `resume_after_air_raid` writes. -/
def resume (c : PauseColumns) (now : ℕ) : PauseColumns :=
  match c.pausedAt with
  | none => c
  | some pausedAt =>
    let (closed, elapsed) := c.closeOpenPause now
    match c.openPause with
    | none => closed
    | some i =>
      let endedAt := some (pausedAt + elapsed * microsPerSecond)
      { closed with pauses := closed.pauses.modify i ({ · with endedAt }) }

end PauseColumns

/-- The system with the pause columns of each attempt; `now` is the clock of the pauses. -/
structure Sittings where
  db : Db
  columns : ℕ → PauseColumns := fun _ => {}
  now : ℕ := 0

inductive SittingOp
  | request (op : Op)
  | pause (attempt studentId : ℕ) (timedOut : Bool) (expired : ℕ) (granted : Bool)
  | resume (attempt studentId : ℕ)
  | tick (micros : ℕ)

namespace Sittings

/-- `attempt.paused_at is not None`. -/
def isPaused (s : Sittings) (k : ℕ) : Bool := (s.columns k).pausedAt.isSome

def setAttempt (s : Sittings) (k : ℕ) (a : QuizAttempt) : Sittings := { s with db := s.db.setAttempt k fun _ => a }

def setColumns (s : Sittings) (k : ℕ) (c : PauseColumns) : Sittings :=
  { s with columns := Function.update s.columns k c }

/-- `_grade_and_finalize`, which folds an open pause into the total and clears the flag. -/
def gradeAndFinalize (s : Sittings) (k : ℕ) (status : QuizAttemptStatus) : Except Raised Sittings := do
  let db' ← s.db.gradeAndFinalize k status
  .ok { s.setColumns k ((s.columns k).closeOpenPause s.now).1 with db := db' }

/-- `show_quiz`. The page of a paused attempt changes nothing. -/
def showQuiz (s : Sittings) (k studentId : ℕ) (timedOut : Bool) (expired : ℕ) : Except Raised Sittings := do
  let a ← s.db.attemptFor k studentId
  if a.status.isTerminal then .ok s
  else if a.forceFail then s.gradeAndFinalize k .violationFail
  else if s.isPaused k then .ok s
  else if timedOut then s.gradeAndFinalize k .timedOut
  else if a.configSnapshot.perQuestionTiming then
    let a' := (a.advanceExpired expired).1
    if a'.currentQuestion.isNone then (s.setAttempt k a').gradeAndFinalize k .completed else .ok (s.setAttempt k a')
  else .ok s

/-- `answer_question`. -/
def answerQuestion (s : Sittings) (k studentId postedIndex : ℕ) (isRight : Bool) (expired : ℕ) :
    Except Raised Sittings := do
  let a ← s.db.attemptFor k studentId
  if a.status.isTerminal then .ok s
  else if !a.configSnapshot.perQuestionTiming then .ok s
  else if s.isPaused k then .ok s
  else if a.forceFail then s.gradeAndFinalize k .violationFail
  else
    let a' := a.recordAnswer postedIndex isRight expired
    if a'.currentQuestion.isNone then (s.setAttempt k a').gradeAndFinalize k .completed else .ok (s.setAttempt k a')

/-- `submit_quiz`. -/
def submitQuiz (s : Sittings) (k studentId : ℕ) (isRight : ℕ → Bool) (timedOut : Bool) : Except Raised Sittings := do
  let a ← s.db.attemptFor k studentId
  if a.status.isTerminal then .ok s
  else if a.configSnapshot.perQuestionTiming then .ok s
  else if s.isPaused k then .ok s
  else
    let finalStatus : QuizAttemptStatus :=
      if a.forceFail then .violationFail else if timedOut then .timedOut else .completed
    (s.setAttempt k { a with answers := a.questionsSnapshot.map fun q => gradeAnswer q (isRight q.id) }).gradeAndFinalize
      k finalStatus

/-- `report_violation`: anti-cheat is suspended during a pause. -/
def reportViolation (s : Sittings) (k studentId : ℕ) (isFail : Bool) : Except Raised Sittings := do
  let a ← s.db.attemptFor k studentId
  if a.status ≠ .inProgress then .ok s
  else if s.isPaused k then .ok s
  else if isFail then .ok (s.setAttempt k { a with forceFail := true })
  else .ok s

/-- `request_air_raid_pause`: the clock is settled before it is stopped. -/
def requestAirRaidPause (s : Sittings) (k studentId : ℕ) (timedOut : Bool) (expired : ℕ) (granted : Bool) :
    Except Raised Sittings := do
  let a ← s.db.attemptFor k studentId
  if a.status ≠ .inProgress then .ok s
  else if s.isPaused k then .ok s
  else if timedOut then s.gradeAndFinalize k .timedOut
  else
    let a' := if a.configSnapshot.perQuestionTiming then (a.advanceExpired expired).1 else a
    let s₁ := s.setAttempt k a'
    if a.configSnapshot.perQuestionTiming && a'.currentQuestion.isNone then s₁.gradeAndFinalize k .completed
    else if granted then .ok (s₁.setColumns k ((s₁.columns k).pause s.now))
    else .ok s₁

/-- `resume_after_air_raid`. -/
def resumeAfterAirRaid (s : Sittings) (k studentId : ℕ) : Except Raised Sittings := do
  let _ ← s.db.attemptFor k studentId
  .ok (s.setColumns k ((s.columns k).resume s.now))

/-- The attempt routes check for a pause, every other request and task is the system's own. -/
def handle (s : Sittings) : SittingOp → Except Raised Sittings
  | .request (.showQuiz k t timedOut expired) => s.showQuiz k t timedOut expired
  | .request (.answerQuestion k t index isRight expired) => s.answerQuestion k t index isRight expired
  | .request (.submitQuiz k t isRight timedOut) => s.submitQuiz k t isRight timedOut
  | .request (.reportViolation k t isFail) => s.reportViolation k t isFail
  | .request op => .ok { s with db := s.db.step op }
  | .pause k t timedOut expired granted => s.requestAirRaidPause k t timedOut expired granted
  | .resume k t => s.resumeAfterAirRaid k t
  | .tick micros => .ok { s with now := s.now + micros }

/-- One operation; one that raises changes nothing. -/
def step (s : Sittings) (op : SittingOp) : Sittings :=
  match s.handle op with
  | .ok s' => s'
  | .error _ => s

end Sittings

end SubmissionsChecker
