import SubmissionsChecker.Library.Runs
import SubmissionsChecker.Routes.QuizRequests

/-! What a report does to an attempt: an accepted one counts its event once and applies the rule the count meets, any
other leaves the attempt alone. -/

namespace SubmissionsChecker

namespace ProctoredAttempt

/-- What the message of the rule is formatted with. -/
def fieldsOf (a : ProctoredAttempt) (event : String) (rule : AntiCheatRule) : MessageFields :=
  ⟨a.violations.count event + 1, rule.threshold, rule.penalty, a.failThreshold event⟩

/-- The rule that the next report of the event meets. -/
def metNext (a : ProctoredAttempt) (event : String) : Option AntiCheatRule := a.matchedRule event (a.violations.count event + 1)

/-- The report is counted, and the message of the rule it meets can be formatted. -/
structure Accepts (format : String → MessageFields → Option String) (a : ProctoredAttempt) (event : EventType) : Prop where
  counted : a.outcome event.1 = .applied
  formats : ∀ rule, a.metNext event.1 = some rule → (format rule.rawMsg (a.fieldsOf event.1 rule)).isSome = true

/-- What happens to the attempt: a report, or another question on the page. -/
inductive QuizAct
  | report (event : EventType) (now : ℚ)
  | serve (index : ℕ) (start : ℚ)

def serve (a : ProctoredAttempt) (index : ℕ) (start : ℚ) : ProctoredAttempt :=
  { a with
    timed := { a.timed with attempt := { a.timed.attempt with currentIndex := index }, questionStartedAt := some start }
    penalty_eq := a.penalty_eq
    forced_eq := a.forced_eq }

def act (format : String → MessageFields → Option String) (a : ProctoredAttempt) : QuizAct → ProctoredAttempt
  | .report event now => a.reported format event now
  | .serve index start => a.serve index start

/-- How many reports of the event were sent. -/
def reportsOf (event : String) (acts : List QuizAct) : ℕ :=
  acts.countP fun
    | .report e _ => e.1 == event
    | .serve _ _ => false

end ProctoredAttempt

open ProctoredAttempt

section

variable {format : String → MessageFields → Option String} {a : ProctoredAttempt} {event : EventType} {now : ℚ}
  {rule : AntiCheatRule} {e : String}

theorem matchedRule_spec {count : ℕ} (h : a.matchedRule e count = some rule) :
    rule ∈ a.rules ∧ rule.event = e ∧ rule.threshold ≤ count := by
  have hrule := List.find?_some h
  rw [Bool.and_eq_true, beq_iff_eq, decide_eq_true_eq] at hrule
  exact ⟨List.mem_of_find?_eq_some h, hrule.1, hrule.2⟩

/-! Reports -/

theorem reported_of_accepts (h : a.Accepts format event) :
    a.reported format event now = (a.metNext event.1).elim (a.bump event.1) ((a.bump event.1).applyRule event.1) := by
  unfold reported reportViolation
  rw [h.counted]
  dsimp only
  rcases hmet : a.matchedRule event.1 (a.violations.count event.1 + 1) with _ | rule
  · have hnext : a.metNext event.1 = none := hmet
    rw [hnext]
    rfl
  · have hnext : a.metNext event.1 = some rule := hmet
    obtain ⟨message, hmessage⟩ := Option.isSome_iff_exists.mp (h.formats rule hnext)
    unfold fieldsOf at hmessage
    simp only [hmessage, hnext]
    rfl

theorem reported_of_not_accepts (h : ¬ a.Accepts format event) : a.reported format event now = a := by
  unfold reported reportViolation
  split
  · rename_i hcounted
    dsimp only
    split
    · rename_i hmet
      exact absurd ⟨hcounted, fun rule hrule => by rw [metNext, hmet] at hrule; cases hrule⟩ h
    · rename_i rule hmet
      split
      · rfl
      · rename_i message hmessage
        refine absurd ⟨hcounted, fun rule' hrule => ?_⟩ h
        rw [metNext, hmet] at hrule
        cases hrule
        exact Option.isSome_iff_exists.mpr ⟨message, hmessage⟩
  · rfl
  · rfl

/-! What stays, and what moves -/

theorem count_bump_blob (v : ViolationsBlob) (event e : String) :
    (v.bump event).count e = v.count e + if e = event then 1 else 0 := by
  unfold ViolationsBlob.bump ViolationsBlob.count
  rw [Assoc.lookup_set]
  split_ifs with h
  · rw [h]
    rfl
  · rfl

theorem applyRule_rules (a : ProctoredAttempt) (e : String) (rule : AntiCheatRule) : (a.applyRule e rule).rules = a.rules := by
  unfold applyRule
  split
  · rfl
  · split <;> rfl
  · rfl
  · rfl
  · rfl

theorem applyRule_count (a : ProctoredAttempt) (e e' : String) (rule : AntiCheatRule) :
    (a.applyRule e rule).violations.count e' = a.violations.count e' := by
  unfold applyRule
  split
  · rfl
  · split <;> rfl
  · rfl
  · rfl
  · rfl

theorem applyRule_forceFail (a : ProctoredAttempt) (e : String) (rule : AntiCheatRule) :
    (a.applyRule e rule).violations.forceFail = true ↔ a.violations.forceFail = true ∨ rule.action = .fail := by
  unfold applyRule
  split
  · rename_i h
    simp [h]
  · rename_i h
    split <;> simp [h]
  · rename_i h
    simp [h]
  · rename_i h
    simp [h]
  · rename_i h
    simp [h]

/-- A penalty moves the clock it is for, and no other rule moves one. -/
theorem applyRule_reduces (a : ProctoredAttempt) (e : String) (h : rule.action = .reduceTime) :
    (a.applyRule e rule).timed = a.timed.reduceTime rule.penalty := by
  unfold applyRule
  rw [h]
  dsimp only
  split <;> rfl

theorem applyRule_spares (a : ProctoredAttempt) (e : String) (h : rule.action ≠ .reduceTime) :
    (a.applyRule e rule).timed.questionStartedAt = a.timed.questionStartedAt ∧
      (a.applyRule e rule).timed.timePenaltySeconds = a.timed.timePenaltySeconds := by
  unfold applyRule
  split
  · exact ⟨rfl, rfl⟩
  · contradiction
  · exact ⟨rfl, rfl⟩
  · exact ⟨rfl, rfl⟩
  · exact ⟨rfl, rfl⟩

theorem reported_rules : (a.reported format event now).rules = a.rules := by
  by_cases h : a.Accepts format event
  · rw [reported_of_accepts h]
    cases a.metNext event.1 with
    | none => rfl
    | some rule => exact applyRule_rules _ _ _
  · rw [reported_of_not_accepts h]

/-- An accepted report counts its event, once. -/
theorem reported_count (h : a.Accepts format event) (e : String) :
    (a.reported format event now).violations.count e = a.violations.count e + if e = event.1 then 1 else 0 := by
  rw [reported_of_accepts h, ← count_bump_blob]
  cases a.metNext event.1 with
  | none => rfl
  | some rule => exact applyRule_count _ _ _ _

theorem reported_forceFail (h : a.Accepts format event) : (a.reported format event now).violations.forceFail = true ↔
    a.violations.forceFail = true ∨ ∃ rule, a.metNext event.1 = some rule ∧ rule.action = .fail := by
  rw [reported_of_accepts h]
  rcases hmet : a.metNext event.1 with _ | rule
  · constructor
    · exact .inl
    · rintro (hforced | ⟨rule, hrule, -⟩)
      · exact hforced
      · cases hrule
  · refine (applyRule_forceFail _ _ _).trans (or_congr_right ⟨fun hfail => ⟨rule, rfl, hfail⟩, ?_⟩)
    rintro ⟨rule', hrule', hfail⟩
    cases hrule'
    exact hfail

theorem handleViolation_nothing (t : TimedAttempt) : t.handleViolation .nothing = t := by
  unfold TimedAttempt.handleViolation
  split_ifs
  · rfl
  · rfl
  · rfl

theorem handleViolation_running {t : TimedAttempt} (hprogress : t.attempt.status = .inProgress) (hrun : t.pausedAt = none) :
    t.handleViolation .forceFail = { t with attempt := { t.attempt with forceFail := true } } ∧
      ∀ seconds, t.handleViolation (.penalty seconds) = t.reduceTime seconds := by
  have hpaused : ¬ t.pausedAt.isSome = true := by
    rw [hrun]
    exact Bool.false_ne_true
  unfold TimedAttempt.handleViolation
  rw [if_neg (not_not.mpr hprogress), if_neg hpaused]
  refine ⟨rfl, fun seconds => ?_⟩
  rw [if_neg (not_not.mpr hprogress), if_neg hpaused]

theorem running_of_applied (h : a.outcome e = .applied) : a.timed.attempt.status = .inProgress ∧ a.timed.pausedAt = none := by
  unfold outcome at h
  split_ifs at h with hstatus hinformational hpaused
  exact ⟨not_not.mp hstatus, Option.not_isSome_iff_eq_none.mp hpaused⟩

/-- To the clocks and the outcome of the attempt a report is one of the effects. -/
theorem reported_timed : ∃ effect, (a.reported format event now).timed = a.timed.handleViolation effect := by
  by_cases h : a.Accepts format event
  · obtain ⟨hprogress, hrun⟩ := running_of_applied h.counted
    obtain ⟨hforce, hpenalty⟩ := handleViolation_running hprogress hrun
    rw [reported_of_accepts h]
    rcases a.metNext event.1 with _ | rule
    · exact ⟨.nothing, (handleViolation_nothing a.timed).symm⟩
    · by_cases hreduces : rule.action = .reduceTime
      · refine ⟨.penalty rule.penalty, ?_⟩
        rw [hpenalty]
        exact applyRule_reduces (a.bump event.1) event.1 hreduces
      · by_cases hfails : rule.action = .fail
        · refine ⟨.forceFail, ?_⟩
          rw [hforce]
          dsimp only [Option.elim]
          unfold applyRule
          rw [hfails]
          rfl
        · refine ⟨.nothing, ?_⟩
          rw [handleViolation_nothing]
          dsimp only [Option.elim]
          unfold applyRule
          split
          · contradiction
          · contradiction
          · rfl
          · rfl
          · rfl
  · rw [reported_of_not_accepts h]
    exact ⟨.nothing, (handleViolation_nothing a.timed).symm⟩

/-- Nothing lifts a force-fail. -/
theorem act_forceFail (q : QuizAct) (h : a.violations.forceFail = true) : (a.act format q).violations.forceFail = true := by
  cases q with
  | serve index start => exact h
  | report event now =>
    by_cases haccepts : a.Accepts format event
    · exact (reported_forceFail haccepts).mpr (.inl h)
    · exact (congrArg (fun a => a.violations.forceFail) (reported_of_not_accepts haccepts)).trans h

theorem act_rules (q : QuizAct) : (a.act format q).rules = a.rules := by
  cases q with
  | serve index start => rfl
  | report event now => exact reported_rules

theorem reportsOf_snoc_report (acts : List QuizAct) (event : EventType) (now : ℚ) (e : String) :
    reportsOf e (acts ++ [.report event now]) = reportsOf e acts + if e = event.1 then 1 else 0 := by
  unfold reportsOf
  rw [List.countP_append, List.countP_singleton]
  by_cases h : e = event.1
  · rw [if_pos h, if_pos (beq_iff_eq.mpr h.symm)]
  · rw [if_neg h, if_neg fun heq => h (beq_iff_eq.mp heq).symm]

theorem reportsOf_snoc_serve (acts : List QuizAct) (index : ℕ) (start : ℚ) (e : String) :
    reportsOf e (acts ++ [.serve index start]) = reportsOf e acts := by
  unfold reportsOf
  rw [List.countP_append]
  rfl

end

/-! A plain attempt -/

/-- Messages without braces, which `str.format` leaves as they are. -/
def plainMessage (message : String) (_ : MessageFields) : Option String := some message

def tabSwitch : EventType := ⟨"tab_switch", by decide +kernel⟩

/-- An attempt in progress, with rules. -/
def proctored (rules : List AntiCheatRule) : ProctoredAttempt where
  timed := { attempt := { submissionId := 0 } }
  rules := rules
  penalty_eq := rfl
  forced_eq := rfl

end SubmissionsChecker
