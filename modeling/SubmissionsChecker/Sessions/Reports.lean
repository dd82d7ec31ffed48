import SubmissionsChecker.Db.Models
import SubmissionsChecker.Library.Assoc
import SubmissionsChecker.Library.ReadCommitted

/-! `report_violation`: one anti-cheat event of an attempt, the first rule it meets, and the
statements of the request. The owner check is left out: it reads nothing that changes. -/

namespace SubmissionsChecker

open ReadCommitted

inductive RuleAction
  | fail | reduceTime | warn | flag | other
  deriving DecidableEq, Repr

/-- One entry of `anti_cheat.rules`. -/
structure Rule where
  event : String
  threshold : ℕ
  action : RuleAction
  penaltySeconds : Option ℕ := none
  deriving DecidableEq, Repr

/-- `quiz_attempts.violations`: the counters by event name, and the keys the rules write. -/
structure Violations where
  counts : List (String × ℕ) := []
  forceFail : Bool := false
  timePenaltySeconds : Option ℕ := none
  flaggedEvents : Option (List String) := none
  deriving DecidableEq, Repr

/-- The columns of an attempt that a report reads or writes. -/
structure WatchedAttempt where
  status : QuizAttemptStatus := .inProgress
  pausedAt : Option ℕ := none
  perQuestionTiming : Bool := false
  rules : List Rule := []
  questionStartedAt : Option ℤ := none
  violations : Violations := {}
  deriving DecidableEq, Repr

/-- How a report ended. -/
inductive QuizEventOutcome
  | applied | ignoredNotInProgress | informational | ignoredPaused | ignoredTypeCap
  deriving DecidableEq, Repr

/-- `INFORMATIONAL_EVENT_TYPES`. -/
def informationalEventTypes : List String := ["tab_return", "focus_return"]

/-- `_MAX_DISTINCT_EVENT_TYPES`. -/
def maxDistinctEventTypes : ℕ := 32

namespace Violations

def count (v : Violations) (event : String) : ℕ := (v.counts.lookup event).getD 0

/-- `len(violations)`. -/
def size (v : Violations) : ℕ :=
  v.counts.length + v.forceFail.toNat + v.timePenaltySeconds.isSome.toNat + v.flaggedEvents.isSome.toNat

/-- `violations[event_type] = violations.get(event_type, 0) + 1`. -/
def bump (v : Violations) (event : String) : Violations :=
  { v with counts := Assoc.set event (v.count event + 1) v.counts }

end Violations

namespace WatchedAttempt

/-- The checks before the counters are touched. -/
def outcome (a : WatchedAttempt) (event : String) : QuizEventOutcome :=
  if a.status ≠ .inProgress then .ignoredNotInProgress
  else if event ∈ informationalEventTypes then .informational
  else if a.pausedAt.isSome then .ignoredPaused
  else if (a.violations.counts.lookup event).isNone && maxDistinctEventTypes ≤ a.violations.size then
    .ignoredTypeCap
  else .applied

/-- The first rule of the event that its count meets; the loop breaks there. -/
def firstRule (rules : List Rule) (event : String) (count : ℕ) : Option Rule :=
  rules.find? fun r => r.event == event && decide (r.threshold ≤ count)

/-- What the rule does to the attempt. -/
def apply (a : WatchedAttempt) (event : String) (rule : Rule) : WatchedAttempt :=
  let penalty := rule.penaltySeconds.getD 60
  let v := a.violations
  match rule.action with
  | .fail => { a with violations := { v with forceFail := true } }
  | .reduceTime =>
    if a.perQuestionTiming then { a with questionStartedAt := a.questionStartedAt.map (· - penalty) }
    else { a with violations := { v with timePenaltySeconds := some (v.timePenaltySeconds.getD 0 + penalty) } }
  | .flag => { a with violations := { v with flaggedEvents := some (v.flaggedEvents.getD [] ++ [event]) } }
  | .warn | .other => a

/-- The attempt as an applied report leaves it. -/
def reported (a : WatchedAttempt) (event : String) : WatchedAttempt :=
  let bumped := { a with violations := a.violations.bump event }
  match firstRule a.rules event (bumped.violations.count event) with
  | none => bumped
  | some rule => bumped.apply event rule

/-- The `UPDATE`: the whole `violations` value, and the question's clock when it moved. -/
def write (row a a' : WatchedAttempt) : WatchedAttempt :=
  { row with
    violations := a'.violations
    questionStartedAt := if a'.questionStartedAt = a.questionStartedAt then row.questionStartedAt
      else a'.questionStartedAt }

end WatchedAttempt

/-- Where a `report_violation` request stands. -/
inductive Report
  | received (event : String)
  /-- The attempt is in the session. -/
  | loaded (event : String) (a : WatchedAttempt)
  /-- The commit has the attempt's row. -/
  | flushing (event : String) (a : WatchedAttempt)
  | ended (event : String) (outcome : QuizEventOutcome)
  deriving DecidableEq, Repr

/-- The statements of `report_violation`. A report that is ignored writes only its timeline row. -/
def Report.next : Report → Stmt WatchedAttempt Report Unit
  | received event => .read fun row => .loaded event row
  | loaded event a =>
    match a.outcome event with
    | .applied => .lock () fun _ => .flushing event a
    | outcome => .commit id (.ended event outcome)
  | flushing event a => .commit (fun row => row.write a (a.reported event)) (.ended event .applied)
  | ended _ _ => .done

end SubmissionsChecker
