import SubmissionsChecker.Routes.QuizClock
import SubmissionsChecker.Sessions.Reports

/-! One anti-cheat report after the other (`report_violation` of `api/routes/student_quiz.py`), with the messages and
the clocks. `str.format` is a parameter: `none` where it raises. -/

namespace SubmissionsChecker

/-- `_EVENT_TYPE_RE`. -/
def eventTypeRe (name : String) : Bool :=
  match name.toList with
  | [] => false
  | c :: cs => (c.isLower || c.isDigit) && decide (cs.length ≤ 63) && cs.all fun c => c.isLower || c.isDigit || c == '_'

/-- A well-formed name. -/
def EventType : Type := { name : String // eventTypeRe name = true }

instance : DecidableEq EventType := inferInstanceAs (DecidableEq { name : String // eventTypeRe name = true })

/-- One entry of `anti_cheat.rules`, with its message. -/
structure AntiCheatRule where
  event : String
  threshold : ℤ
  action : RuleAction
  penaltySeconds : Option ℤ := none
  message : Option String := none
  deriving DecidableEq, Repr

/-- `action.get("penalty_seconds", 60)`. -/
def AntiCheatRule.penalty (r : AntiCheatRule) : ℤ := r.penaltySeconds.getD 60

/-- `action.get("message", "")`. -/
def AntiCheatRule.rawMsg (r : AntiCheatRule) : String := r.message.getD ""

/-- What a message may name; `fail_threshold` is `?` without a `fail` rule. -/
structure MessageFields where
  count : ℕ
  threshold : ℤ
  penaltySeconds : ℤ
  failThreshold : Option ℤ
  deriving DecidableEq, Repr

/-- `quiz_attempts.violations`: the counters, and the keys the rules write. -/
structure ViolationsBlob where
  counts : List (String × ℕ) := []
  forceFail : Bool := false
  timePenaltySeconds : Option ℤ := none
  flaggedEvents : Option (List String) := none
  deriving DecidableEq, Repr

namespace ViolationsBlob

def count (v : ViolationsBlob) (event : String) : ℕ := (v.counts.lookup event).getD 0

/-- `len(violations)`. -/
def size (v : ViolationsBlob) : ℕ :=
  v.counts.length + v.forceFail.toNat + v.timePenaltySeconds.isSome.toNat + v.flaggedEvents.isSome.toNat

/-- `violations[event_type] = violations.get(event_type, 0) + 1`. -/
def bump (v : ViolationsBlob) (event : String) : ViolationsBlob :=
  { v with counts := Assoc.set event (v.count event + 1) v.counts }

end ViolationsBlob

/-- An attempt with its rules and its `violations`, which the clocks and the grading read as `_time_penalty` and
`_force_fail`. -/
structure ProctoredAttempt where
  timed : TimedAttempt
  rules : List AntiCheatRule := []
  violations : ViolationsBlob := {}
  penalty_eq : timed.timePenaltySeconds = violations.timePenaltySeconds.getD 0
  forced_eq : timed.attempt.forceFail = violations.forceFail

/-- The answer to the page. -/
structure EventResponse where
  action : Option RuleAction := none
  secondsRemaining : Option ℤ := none
  message : String := ""
  violationCount : ℕ := 0
  paused : Bool := false
  deriving DecidableEq, Repr

/-- What goes on the attempt's timeline. -/
structure EventRecord where
  outcome : QuizEventOutcome
  action : Option RuleAction := none
  countAfter : Option ℕ := none
  ruleThreshold : Option ℤ := none
  deriving DecidableEq, Repr

namespace TimedAttempt

/-- `_is_stepped`. -/
def isStepped (t : TimedAttempt) : Bool := t.attempt.configSnapshot.perQuestionTiming

theorem reduceTime_attempt (t : TimedAttempt) (penalty : ℤ) : (t.reduceTime penalty).attempt = t.attempt := by
  unfold reduceTime
  split <;> rfl

theorem reduceTime_stepped {t : TimedAttempt} (h : t.isStepped = true) (penalty : ℤ) : t.reduceTime penalty =
    { t with questionStartedAt := t.questionStartedAt.map fun start : ℚ => start - penalty } := if_pos h

theorem reduceTime_single {t : TimedAttempt} (h : ¬ t.isStepped = true) (penalty : ℤ) : t.reduceTime penalty =
    { t with timePenaltySeconds := t.timePenaltySeconds + penalty } := if_neg h

end TimedAttempt

namespace ProctoredAttempt

/-- The checks before the counters are touched. -/
def outcome (a : ProctoredAttempt) (event : String) : QuizEventOutcome :=
  if a.timed.attempt.status ≠ .inProgress then .ignoredNotInProgress
  else if event ∈ informationalEventTypes then .informational
  else if a.timed.pausedAt.isSome then .ignoredPaused
  else if (a.violations.counts.lookup event).isNone && maxDistinctEventTypes ≤ a.violations.size then .ignoredTypeCap
  else .applied

/-- `fail_threshold`. -/
def failThreshold (a : ProctoredAttempt) (event : String) : Option ℤ :=
  (a.rules.find? fun r => r.event == event && r.action == .fail).map (·.threshold)

/-- The rule the loop stops at. -/
def matchedRule (a : ProctoredAttempt) (event : String) (count : ℕ) : Option AntiCheatRule :=
  a.rules.find? fun r => r.event == event && decide (r.threshold ≤ count)

def bump (a : ProctoredAttempt) (event : String) : ProctoredAttempt :=
  { a with violations := a.violations.bump event, penalty_eq := a.penalty_eq, forced_eq := a.forced_eq }

/-- What the rule does to the attempt. -/
def applyRule (a : ProctoredAttempt) (event : String) (rule : AntiCheatRule) : ProctoredAttempt :=
  match rule.action with
  | .fail =>
    { a with
      timed := { a.timed with attempt := { a.timed.attempt with forceFail := true } }
      violations := { a.violations with forceFail := true }
      penalty_eq := a.penalty_eq
      forced_eq := rfl }
  | .reduceTime =>
    if h : a.timed.isStepped = true then
      { a with
        timed := a.timed.reduceTime rule.penalty
        penalty_eq := by rw [TimedAttempt.reduceTime_stepped h, ← a.penalty_eq]
        forced_eq := by rw [TimedAttempt.reduceTime_attempt, a.forced_eq] }
    else
      { a with
        timed := a.timed.reduceTime rule.penalty
        violations := { a.violations with timePenaltySeconds := some (a.violations.timePenaltySeconds.getD 0 + rule.penalty) }
        penalty_eq := by rw [TimedAttempt.reduceTime_single h, ← a.penalty_eq, Option.getD_some]
        forced_eq := by rw [TimedAttempt.reduceTime_attempt, a.forced_eq] }
  | .flag =>
    { a with
      violations := { a.violations with flaggedEvents := some (a.violations.flaggedEvents.getD [] ++ [event]) }
      penalty_eq := a.penalty_eq
      forced_eq := a.forced_eq }
  | .warn | .other => a

/-- `seconds_remaining` after the rule. -/
def secondsAfter (a : ProctoredAttempt) (rule : AntiCheatRule) (now : ℚ) : Option ℤ :=
  match rule.action with
  | .reduceTime => if a.timed.isStepped then a.timed.questionSecondsRemaining now else a.timed.secondsRemaining now
  | _ => none

/-- `response_action`; an action type of its own name does nothing. -/
def responseAction (rule : AntiCheatRule) : Option RuleAction :=
  match rule.action with
  | .other => none
  | action => some action

/-- `report_violation`, or `none` where the message raises and nothing is stored. -/
def reportViolation (format : String → MessageFields → Option String) (a : ProctoredAttempt) (event : EventType) (now : ℚ) :
    Option (ProctoredAttempt × EventResponse × EventRecord) :=
  match a.outcome event.1 with
  | .applied =>
    let count := a.violations.count event.1 + 1
    match a.matchedRule event.1 count with
    | none => some (a.bump event.1, { violationCount := count }, { outcome := .applied, countAfter := some count })
    | some rule =>
      match format rule.rawMsg ⟨count, rule.threshold, rule.penalty, a.failThreshold event.1⟩ with
      | none => none
      | some message =>
        let a' := (a.bump event.1).applyRule event.1 rule
        some (a', { action := responseAction rule
                    secondsRemaining := a'.secondsAfter rule now
                    message := if rule.action = .flag then "" else message
                    violationCount := count },
          { outcome := .applied, action := responseAction rule, countAfter := some count, ruleThreshold := some rule.threshold })
  | .ignoredPaused => some (a, { paused := true }, { outcome := .ignoredPaused })
  | outcome => some (a, {}, { outcome })

/-- The attempt after the request; one that raises is rolled back. -/
def reported (format : String → MessageFields → Option String) (a : ProctoredAttempt) (event : EventType) (now : ℚ) :
    ProctoredAttempt := ((a.reportViolation format event now).map (·.1)).getD a

end ProctoredAttempt

end SubmissionsChecker
