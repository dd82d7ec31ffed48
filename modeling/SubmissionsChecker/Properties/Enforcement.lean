import SubmissionsChecker.Invariants.AntiCheat

/-! A `fail` rule fails the attempt when its event was reported often enough, unless the report is dropped, its message
raises, or a rule in front of it takes the event. -/

namespace SubmissionsChecker

open Runs

namespace ProctoredAttempt

/-- In progress and not paused. -/
structure Open (a : ProctoredAttempt) : Prop where
  inProgress : a.timed.attempt.status = .inProgress
  running : a.timed.pausedAt = none

/-- The attempt is force-failed when, of what happened, the reports of a `fail` rule's event reach its threshold. -/
def ForceFailed (a : ProctoredAttempt) (acts : List QuizAct) : Prop := ∀ r ∈ a.rules, r.action = .fail →
  0 < reportsOf r.event acts → r.threshold ≤ reportsOf r.event acts → a.violations.forceFail = true

/-- A report that no way around the rules takes. -/
structure Caught (format : String → MessageFields → Option String) (a : ProctoredAttempt) (event : EventType) : Prop where
  violation : event.1 ∉ informationalEventTypes
  room : (a.violations.counts.lookup event.1).isSome = true ∨ a.violations.size < maxDistinctEventTypes
  formats : ∀ rule, a.metNext event.1 = some rule → (format rule.rawMsg (a.fieldsOf event.1 rule)).isSome = true
  fails : ∀ r ∈ a.rules, r.event = event.1 → r.action = .fail → r.threshold ≤ (a.violations.count event.1 + 1 : ℕ) →
    a.violations.forceFail = true ∨ ∃ rule, a.metNext event.1 = some rule ∧ rule.action = .fail

/-- Every report of an event that a `fail` rule names is caught. -/
def Watched (format : String → MessageFields → Option String) (a : ProctoredAttempt) : QuizAct → Prop
  | .report event _ => ∀ r ∈ a.rules, r.event = event.1 → r.action = .fail → a.Caught format event
  | .serve _ _ => True

end ProctoredAttempt

open ProctoredAttempt

section

variable {format : String → MessageFields → Option String} {a t : ProctoredAttempt} {event : EventType} {now : ℚ}
  {acts : List QuizAct}

theorem applyRule_open (e : String) (rule : AntiCheatRule) (h : a.Open) : (a.applyRule e rule).Open := by
  have hpaused : (a.timed.reduceTime rule.penalty).pausedAt = a.timed.pausedAt := by
    unfold TimedAttempt.reduceTime
    split <;> rfl
  unfold applyRule
  split
  · exact ⟨h.inProgress, h.running⟩
  · split
    · exact ⟨by rw [TimedAttempt.reduceTime_attempt, h.inProgress], hpaused.trans h.running⟩
    · exact ⟨by rw [TimedAttempt.reduceTime_attempt, h.inProgress], hpaused.trans h.running⟩
  · exact ⟨h.inProgress, h.running⟩
  · exact h
  · exact h

/-- Neither a report nor another question ends or pauses the attempt. -/
theorem act_open (q : QuizAct) (h : a.Open) : (a.act format q).Open := by
  have hbump : ∀ e, (a.bump e).Open := fun _ => ⟨h.inProgress, h.running⟩
  cases q with
  | serve index start => exact ⟨h.inProgress, h.running⟩
  | report event now =>
    by_cases haccepts : a.Accepts format event
    · change (a.reported format event now).Open
      rw [reported_of_accepts haccepts]
      cases a.metNext event.1 with
      | none => exact hbump event.1
      | some rule => exact applyRule_open event.1 rule (hbump event.1)
    · change (a.reported format event now).Open
      rw [reported_of_not_accepts haccepts]
      exact h

theorem accepts_of_caught (hopen : a.Open) (h : a.Caught format event) : a.Accepts format event := by
  refine ⟨?_, h.formats⟩
  unfold outcome
  rw [if_neg (not_not.mpr hopen.inProgress), if_neg h.violation, if_neg (by rw [hopen.running]; exact Bool.false_ne_true)]
  refine if_neg fun hcap => ?_
  rw [Bool.and_eq_true, decide_eq_true_eq, Option.isNone_iff_eq_none] at hcap
  rcases h.room with hknown | hroom
  · rw [hcap.1] at hknown
    cases hknown
  · omega

/-- The reports of the `fail` rules' events are all counted, and have failed the attempt when they had to. -/
structure Enforcing (a : ProctoredAttempt) (acts : List QuizAct) : Prop where
  isOpen : a.Open
  counted : ∀ r ∈ a.rules, r.action = .fail → a.violations.count r.event = reportsOf r.event acts
  forced : a.ForceFailed acts

theorem enforcing_start (hopen : a.Open) (hfresh : a.violations = {}) : Enforcing a [] where
  isOpen := hopen
  counted r _ _ := by
    rw [hfresh]
    rfl
  forced r _ _ hpos _ := absurd hpos (by simp [reportsOf])

theorem Enforcing.step {q : QuizAct} (h : Enforcing a acts) (hq : a.Watched format q) :
    Enforcing (a.act format q) (acts ++ [q]) where
  isOpen := act_open q h.isOpen
  counted r hr hfail := by
    rw [act_rules] at hr
    have hcounted := h.counted r hr hfail
    cases q with
    | serve index start =>
      rw [reportsOf_snoc_serve]
      exact hcounted
    | report event now =>
      rw [reportsOf_snoc_report, ← hcounted]
      by_cases haccepts : a.Accepts format event
      · exact reported_count haccepts r.event
      · have hother : r.event ≠ event.1 := fun hevent => haccepts (accepts_of_caught h.isOpen (hq r hr hevent hfail))
        rw [if_neg hother]
        exact congrArg (fun a => a.violations.count r.event) (reported_of_not_accepts haccepts)
  forced r hr hfail hpos hreached := by
    rw [act_rules] at hr
    cases q with
    | serve index start =>
      rw [reportsOf_snoc_serve] at hpos hreached
      exact h.forced r hr hfail hpos hreached
    | report event now =>
      rw [reportsOf_snoc_report] at hpos hreached
      by_cases hevent : r.event = event.1
      · have hcaught : a.Caught format event := hq r hr hevent hfail
        have hthreshold : r.threshold ≤ (a.violations.count event.1 + 1 : ℕ) := by
          rw [if_pos hevent, ← h.counted r hr hfail, hevent] at hreached
          exact hreached
        exact (reported_forceFail (accepts_of_caught h.isOpen hcaught)).mpr (hcaught.fails r hr hevent hfail hthreshold)
      · rw [if_neg hevent] at hpos hreached
        exact act_forceFail _ (h.forced r hr hfail hpos hreached)

/-- A run in which every report of a `fail` rule's event is caught leaves no such rule unenforced. -/
theorem enforced_of_watched (hopen : a.Open) (hfresh : a.violations = {}) (h : Run (act format) (Watched format) a acts t) :
    t.ForceFailed acts := by
  have henforcing : Enforcing t acts := by
    induction h with
    | nil => exact enforcing_start hopen hfresh
    | snoc _ hq ih => exact ih.step hq
  exact henforcing.forced

def failAtTwo : AntiCheatRule := ⟨"tab_switch", 2, .fail, none, none⟩

theorem failAtTwo_fails : (((proctored [failAtTwo]).reported plainMessage tabSwitch 0).reported plainMessage tabSwitch 1).ForceFailed
    [.report tabSwitch 0, .report tabSwitch 1] := by
  refine enforced_of_watched (a := proctored [failAtTwo]) ⟨rfl, rfl⟩ rfl (.snoc (.snoc .nil fun _ _ _ _ => ?_) fun _ _ _ _ => ?_)
  · refine ⟨by decide +kernel, .inr (by decide), fun _ _ => rfl, fun r hr _ _ hthreshold => ?_⟩
    rw [List.mem_singleton.mp hr] at hthreshold
    exact absurd hthreshold (by decide)
  · exact ⟨by decide +kernel, .inl (by decide +kernel), fun _ _ => rfl,
      fun _ _ _ _ _ => .inr ⟨failAtTwo, by decide +kernel, rfl⟩⟩

/-- A warning in front of the `fail` rule takes every report. -/
theorem warned_never_fails : ¬ ∀ (a t : ProctoredAttempt) (acts : List QuizAct), a.Open → a.violations = {} →
    Run (act plainMessage) Any a acts t → t.ForceFailed acts := by
  intro h
  have hrun : Run (act plainMessage) Any (proctored [⟨"tab_switch", 1, .warn, none, none⟩, failAtTwo])
      [.report tabSwitch 0, .report tabSwitch 1] _ := run_foldl _
  have hforced := h _ _ _ ⟨rfl, rfl⟩ rfl hrun failAtTwo
  exact absurd (hforced (by decide) rfl (by decide) (by decide)) (by decide +kernel)

end

end SubmissionsChecker
