import Mathlib.Algebra.BigOperators.Group.List.Basic
import SubmissionsChecker.Invariants.AntiCheat

/-! Which rules fire, and for how many seconds. A rule is met again by every report after the one that reaches its
threshold, and hides the rules behind it. -/

namespace SubmissionsChecker

namespace ProctoredAttempt

/-- The attempt after everything that happened. -/
def after (format : String → MessageFields → Option String) (a : ProctoredAttempt) (acts : List QuizAct) : ProctoredAttempt :=
  acts.foldl (act format) a

/-- The rule takes effect at a report of the event. -/
def Fires (format : String → MessageFields → Option String) (a : ProctoredAttempt) (event : EventType) (rule : AntiCheatRule) : Prop :=
  a.Accepts format event ∧ a.metNext event.1 = some rule

/-- The seconds taken off the clock between two moments of one question: the question's on a stepped attempt, else the
attempt's. -/
def taken (a a' : ProctoredAttempt) : ℚ :=
  if a.timed.isStepped then
    match a.timed.questionStartedAt, a'.timed.questionStartedAt with
    | some start, some start' => start - start'
    | _, _ => 0
  else a'.timed.timePenaltySeconds - a.timed.timePenaltySeconds

/-- What the reports take off in all. -/
def penaltyTaken (format : String → MessageFields → Option String) : ProctoredAttempt → List QuizAct → ℚ
  | _, [] => 0
  | a, .report event now :: acts => a.taken (a.reported format event now) + penaltyTaken format (a.reported format event now) acts
  | a, .serve index start :: acts => penaltyTaken format (a.serve index start) acts

/-- The event was reported, and as often as the rule says. -/
def isReached (a : ProctoredAttempt) (r : AntiCheatRule) : Bool :=
  r.action == .reduceTime && decide (0 < a.violations.count r.event ∧ r.threshold ≤ a.violations.count r.event)

/-- The `penalty_seconds` of the `reduce_time` rules whose threshold has been reached. -/
def reachedPenalty (a : ProctoredAttempt) : ℤ := ((a.rules.filter a.isReached).map (·.penalty)).sum

/-- The next report of the event reaches the rule. -/
def reachesNext (a : ProctoredAttempt) (event : String) (r : AntiCheatRule) : Bool :=
  r.action == .reduceTime && (r.event == event && decide (r.threshold ≤ (a.violations.count event + 1 : ℕ))) && !a.isReached r

/-- The seconds that the rule it meets takes. -/
def penaltyNext (a : ProctoredAttempt) (event : String) : ℤ :=
  match a.metNext event with
  | none => 0
  | some rule =>
    if rule.action = .reduceTime ∧ (a.timed.isStepped = true → a.timed.questionStartedAt.isSome = true) then rule.penalty else 0

/-- The rule that a report meets is one whose threshold it reaches, and no other penalty is due. -/
structure CrossesOnce (a : ProctoredAttempt) (event : String) : Prop where
  atThreshold : ∀ rule, a.metNext event = some rule → rule.threshold = (a.violations.count event + 1 : ℕ)
  whole : a.penaltyNext event = ((a.rules.filter (a.reachesNext event)).map (·.penalty)).sum

/-- Each rule takes effect at most once, at the report that brings the count to its threshold, and the penalties are
those of the rules reached. -/
structure FiresOnce (format : String → MessageFields → Option String) (a : ProctoredAttempt) (acts : List QuizAct) : Prop where
  atThreshold : ∀ done event now rule, done ++ [.report event now] <+: acts → (a.after format done).Fires format event rule →
    rule.threshold = ((a.after format done).violations.count event.1 + 1 : ℕ)
  once : ∀ done done' event event' now now' rule, done ++ [.report event now] <+: acts → done' ++ [.report event' now'] <+: acts →
    (a.after format done).Fires format event rule → (a.after format done').Fires format event' rule → done = done'
  penalty : ∀ done, done <+: acts → penaltyTaken format a done = (a.after format done).reachedPenalty

end ProctoredAttempt

open ProctoredAttempt

section

variable {format : String → MessageFields → Option String} {a : ProctoredAttempt} {event : EventType} {now : ℚ}
  {acts done : List QuizAct} {rule : AntiCheatRule} {e : String}

theorem after_snoc (done : List QuizAct) (q : QuizAct) : a.after format (done ++ [q]) = (a.after format done).act format q := by
  unfold after
  rw [List.foldl_append]
  rfl

/-! Penalties -/

theorem taken_self (a : ProctoredAttempt) : a.taken a = 0 := by
  unfold taken
  split_ifs with hstepped
  · split
    · rename_i start start' hstart hstart'
      rw [hstart] at hstart'
      cases hstart'
      exact sub_self start
    · rfl
  · exact sub_self _

theorem taken_congr {b c : ProctoredAttempt} (hstart : b.timed.questionStartedAt = c.timed.questionStartedAt)
    (hpenalty : b.timed.timePenaltySeconds = c.timed.timePenaltySeconds) : a.taken b = a.taken c := by
  unfold taken
  rw [hstart, hpenalty]

/-- A penalty takes its seconds off the clock the attempt has. -/
theorem taken_reduceTime {b : ProctoredAttempt} {penalty : ℤ} (h : b.timed = a.timed.reduceTime penalty) : a.taken b =
    if a.timed.isStepped = true → a.timed.questionStartedAt.isSome = true then (penalty : ℚ) else 0 := by
  unfold taken
  rw [h]
  by_cases hstepped : a.timed.isStepped = true
  · rw [if_pos hstepped, TimedAttempt.reduceTime_stepped hstepped]
    rcases hstart : a.timed.questionStartedAt with _ | start
    · rw [if_neg (by simp [hstepped])]
    · rw [if_pos (by simp)]
      exact sub_sub_cancel _ _
  · rw [if_neg hstepped, if_pos fun h => absurd h hstepped, TimedAttempt.reduceTime_single hstepped]
    push_cast
    ring

theorem taken_reported (h : a.Accepts format event) : a.taken (a.reported format event now) = a.penaltyNext event.1 := by
  rw [reported_of_accepts h]
  unfold penaltyNext
  cases a.metNext event.1 with
  | none =>
    dsimp only
    rw [Int.cast_zero]
    exact taken_self a
  | some rule =>
    by_cases hact : rule.action = .reduceTime
    · have hreduced : ((a.bump event.1).applyRule event.1 rule).timed = a.timed.reduceTime rule.penalty :=
        applyRule_reduces _ _ hact
      refine (taken_reduceTime hreduced).trans ?_
      simp only [hact, true_and]
      split <;> simp
    · obtain ⟨hstart, hpenalty⟩ := applyRule_spares (a.bump event.1) event.1 hact
      refine (taken_congr hstart hpenalty).trans ?_
      simp only [hact, false_and, if_false, Int.cast_zero]
      exact taken_self a

theorem penaltyTaken_snoc_report (done : List QuizAct) : penaltyTaken format a (done ++ [.report event now]) =
    penaltyTaken format a done + (a.after format done).taken ((a.after format done).reported format event now) := by
  induction done generalizing a with
  | nil =>
    change _ + 0 = 0 + _
    rw [add_zero, zero_add]
    rfl
  | cons q done ih =>
    cases q with
    | report event' now' =>
      simp only [List.cons_append, penaltyTaken]
      rw [ih, add_assoc]
      rfl
    | serve index start =>
      simp only [List.cons_append, penaltyTaken]
      rw [ih]
      rfl

theorem penaltyTaken_snoc_serve (done : List QuizAct) (index : ℕ) (start : ℚ) :
    penaltyTaken format a (done ++ [.serve index start]) = penaltyTaken format a done := by
  induction done generalizing a with
  | nil => rfl
  | cons q done ih =>
    cases q with
    | report event' now' =>
      simp only [List.cons_append, penaltyTaken]
      rw [ih]
    | serve index start =>
      simp only [List.cons_append, penaltyTaken]
      rw [ih]

/-! Thresholds -/

/-- The sum over what a wider test adds. -/
theorem sum_filter_add {α : Type} (f : α → ℤ) (p p' : α → Bool) (l : List α) (h : ∀ x ∈ l, p x = true → p' x = true) :
    ((l.filter p').map f).sum = ((l.filter p).map f).sum + ((l.filter fun x => p' x && !p x).map f).sum := by
  induction l with
  | nil => rfl
  | cons x l ih =>
    have hrest := ih fun y hy => h y (List.mem_cons_of_mem _ hy)
    have hx := h x List.mem_cons_self
    rcases hp : p x with _ | _
    · rcases hp' : p' x with _ | _
      · simp only [List.filter_cons, hp, hp']
        exact hrest
      · simp only [List.filter_cons, hp, hp']
        simp only [Bool.not_false, Bool.and_self, if_true, Bool.false_eq_true, if_false, List.map_cons, List.sum_cons]
        rw [hrest]
        ring
    · have hp' := hx hp
      simp only [List.filter_cons, hp, hp']
      simp only [Bool.not_true, Bool.and_false, if_true, Bool.false_eq_true, if_false, List.map_cons, List.sum_cons]
      rw [hrest]
      ring

theorem isReached_iff (r : AntiCheatRule) : a.isReached r = true ↔
    r.action = .reduceTime ∧ 0 < a.violations.count r.event ∧ r.threshold ≤ a.violations.count r.event := by
  unfold isReached
  rw [Bool.and_eq_true, beq_iff_eq, decide_eq_true_eq]

/-- What an accepted report reaches is what was reached, and what it newly reaches. -/
theorem isReached_reported (h : a.Accepts format event) (r : AntiCheatRule) : (a.reported format event now).isReached r = true ↔
    a.isReached r = true ∨ a.reachesNext event.1 r = true := by
  unfold reachesNext
  rw [Bool.and_eq_true, Bool.and_eq_true, Bool.and_eq_true, Bool.not_eq_true', ← Bool.not_eq_true, beq_iff_eq, beq_iff_eq,
    decide_eq_true_eq, isReached_iff, isReached_iff, reported_count h]
  by_cases hevent : r.event = event.1
  · rw [if_pos hevent, hevent]
    push_cast
    constructor
    · rintro ⟨hact, -, hreached⟩
      by_cases hbefore : r.action = .reduceTime ∧ 0 < a.violations.count event.1 ∧ r.threshold ≤ a.violations.count event.1
      · exact .inl hbefore
      · exact .inr ⟨⟨hact, rfl, hreached⟩, hbefore⟩
    · rintro (⟨hact, -, hreached⟩ | ⟨⟨hact, -, hreached⟩, -⟩)
      · exact ⟨hact, by omega, by omega⟩
      · exact ⟨hact, by omega, hreached⟩
  · rw [if_neg hevent, add_zero]
    constructor
    · exact .inl
    · rintro (hreached | ⟨⟨-, hsame, -⟩, -⟩)
      · exact hreached
      · exact absurd hsame hevent

theorem reachedPenalty_reported (h : a.Accepts format event) : (a.reported format event now).reachedPenalty =
    a.reachedPenalty + ((a.rules.filter (a.reachesNext event.1)).map (·.penalty)).sum := by
  unfold reachedPenalty
  rw [reported_rules, sum_filter_add AntiCheatRule.penalty a.isReached]
  · have hnew : (fun r => (a.reported format event now).isReached r && !a.isReached r) = a.reachesNext event.1 := by
      funext r
      rw [Bool.eq_iff_iff, Bool.and_eq_true, isReached_reported h]
      constructor
      · rintro ⟨hreached | hnext, hbefore⟩
        · rw [hreached] at hbefore
          cases hbefore
        · exact hnext
      · intro hnext
        refine ⟨.inr hnext, ?_⟩
        unfold reachesNext at hnext
        exact (Bool.and_eq_true _ _ ▸ hnext).2
    rw [hnew]
  · intro r _ hreached
    exact (isReached_reported h r).mpr (.inl hreached)

theorem reachedPenalty_fresh (hfresh : a.violations = {}) : a.reachedPenalty = 0 := by
  have hnone : a.rules.filter a.isReached = [] := by
    rw [List.filter_eq_nil_iff]
    intro r _ hreached
    have hpos := ((isReached_iff r).mp hreached).2.1
    rw [hfresh] at hpos
    exact absurd hpos (Nat.lt_irrefl 0)
  unfold reachedPenalty
  rw [hnone]
  rfl

theorem count_le_act (q : QuizAct) (e : String) : a.violations.count e ≤ (a.act format q).violations.count e := by
  cases q with
  | serve index start => exact Nat.le_refl _
  | report event now =>
    by_cases h : a.Accepts format event
    · exact (reported_count h e).symm ▸ Nat.le_add_right _ _
    · exact (congrArg (fun a => a.violations.count e) (reported_of_not_accepts h)).ge

theorem count_le_after (format : String → MessageFields → Option String) (a : ProctoredAttempt) (acts : List QuizAct) (e : String) :
    a.violations.count e ≤ (a.after format acts).violations.count e := by
  induction acts generalizing a with
  | nil => exact Nat.le_refl _
  | cons q acts ih => exact (count_le_act q e).trans (ih _)

/-- After an accepted report the count is higher for good. -/
theorem count_lt_after {done' : List QuizAct} (h : (a.after format done).Accepts format event)
    (hdone : done ++ [.report event now] <+: done') :
    (a.after format done).violations.count event.1 < (a.after format done').violations.count event.1 := by
  obtain ⟨rest, rfl⟩ := hdone
  have hcounted : ((a.after format done).reported format event now).violations.count event.1 =
      (a.after format done).violations.count event.1 + 1 := by
    rw [reported_count h, if_pos rfl]
  have hlater := count_le_after format ((a.after format done).reported format event now) rest event.1
  have hall : a.after format (done ++ [.report event now] ++ rest) =
      ((a.after format done).reported format event now).after format rest := by
    unfold after
    rw [List.foldl_append, List.foldl_append]
    rfl
  rw [hall]
  omega

/-- Two prefixes of one sequence are the same, or one ends before the step after the other. -/
theorem prefix_cases {α : Type} {l₁ l₂ l : List α} {x y : α} (h₁ : l₁ ++ [x] <+: l) (h₂ : l₂ ++ [y] <+: l) :
    l₁ = l₂ ∨ l₁ ++ [x] <+: l₂ ∨ l₂ ++ [y] <+: l₁ := by
  have hshort₁ : l₁ <+: l := (List.prefix_append _ _).trans h₁
  have hshort₂ : l₂ <+: l := (List.prefix_append _ _).trans h₂
  rcases Nat.lt_trichotomy l₁.length l₂.length with hlt | heq | hgt
  · exact .inr (.inl (List.prefix_of_prefix_length_le h₁ hshort₂ (by rw [List.length_append]; exact hlt)))
  · exact .inl ((List.prefix_of_prefix_length_le hshort₁ hshort₂ heq.le).eq_of_length heq)
  · exact .inr (.inr (List.prefix_of_prefix_length_le h₂ hshort₁ (by rw [List.length_append]; exact hgt)))

/-- A rule is met at its threshold by no two reports. -/
theorem fires_once (hat : ∀ done event now rule, done ++ [.report event now] <+: acts → (a.after format done).Fires format event rule →
      rule.threshold = ((a.after format done).violations.count event.1 + 1 : ℕ))
    {done' : List QuizAct} {event' : EventType} {now' : ℚ} (h : done ++ [.report event now] <+: acts)
    (h' : done' ++ [.report event' now'] <+: acts) (hfires : (a.after format done).Fires format event rule)
    (hfires' : (a.after format done').Fires format event' rule) : done = done' := by
  have hsame : event.1 = event'.1 := (matchedRule_spec hfires.2).2.1.symm.trans (matchedRule_spec hfires'.2).2.1
  have hthreshold := hat _ _ _ _ h hfires
  have hthreshold' := hat _ _ _ _ h' hfires'
  rw [hthreshold, ← hsame] at hthreshold'
  have hcounts : (a.after format done).violations.count event.1 = (a.after format done').violations.count event.1 := by omega
  rcases prefix_cases h h' with heq | hbefore | hafter
  · exact heq
  · exact absurd hcounts (count_lt_after hfires.1 hbefore).ne
  · have hless := count_lt_after hfires'.1 hafter
    rw [← hsame] at hless
    exact absurd hcounts hless.ne'

/-- The law of one firing for each crossing holds of exactly the runs whose accepted reports all cross one threshold. -/
theorem fires_once_iff (hfresh : a.violations = {}) : a.FiresOnce format acts ↔ ∀ done event now,
    done ++ [.report event now] <+: acts → (a.after format done).Accepts format event → (a.after format done).CrossesOnce event.1 := by
  constructor
  · intro h done event now hprefix haccepts
    refine ⟨fun rule hmet => h.atThreshold done event now rule hprefix ⟨haccepts, hmet⟩, ?_⟩
    have hbefore := h.penalty done ((List.prefix_append _ _).trans hprefix)
    have hafter := h.penalty _ hprefix
    rw [penaltyTaken_snoc_report, taken_reported haccepts, hbefore, after_snoc] at hafter
    change _ = (((a.after format done).reported format event now).reachedPenalty : ℚ) at hafter
    rw [reachedPenalty_reported haccepts, Int.cast_add] at hafter
    exact Int.cast_injective (add_left_cancel hafter)
  · intro h
    have hat : ∀ done event now rule, done ++ [.report event now] <+: acts → (a.after format done).Fires format event rule →
        rule.threshold = ((a.after format done).violations.count event.1 + 1 : ℕ) :=
      fun done event now rule hprefix hfires => (h done event now hprefix hfires.1).atThreshold rule hfires.2
    refine ⟨hat, fun done done' event event' now now' rule h h' => fires_once hat h h', fun done hdone => ?_⟩
    induction done using List.reverseRecOn with
    | nil => exact (Int.cast_eq_zero.mpr (reachedPenalty_fresh hfresh)).symm
    | append_singleton done q ih =>
      have hbefore := ih ((List.prefix_append _ _).trans hdone)
      cases q with
      | serve index start =>
        rw [penaltyTaken_snoc_serve, hbefore, after_snoc]
        rfl
      | report event now =>
        rw [penaltyTaken_snoc_report, hbefore, after_snoc]
        change _ = (((a.after format done).reported format event now).reachedPenalty : ℚ)
        by_cases haccepts : (a.after format done).Accepts format event
        · rw [taken_reported haccepts, reachedPenalty_reported haccepts, (h done event now hdone haccepts).whole, Int.cast_add]
        · rw [reported_of_not_accepts haccepts, taken_self, add_zero]

def minuteOff : AntiCheatRule := ⟨"tab_switch", 1, .reduceTime, some 60, none⟩

theorem minuteOff_once : (proctored [minuteOff]).FiresOnce plainMessage [.report tabSwitch 0] := by
  refine (fires_once_iff rfl).mpr fun done event now hprefix _ => ?_
  obtain ⟨rfl, hreport⟩ : done = [] ∧ QuizAct.report event now = .report tabSwitch 0 := by
    obtain ⟨rest, hrest⟩ := hprefix
    have hlength := congrArg List.length hrest
    simp only [List.length_append, List.length_singleton] at hlength
    obtain rfl := List.eq_nil_of_length_eq_zero (l := done) (by omega)
    exact ⟨rfl, (List.cons.inj hrest).1⟩
  obtain ⟨rfl, -⟩ := QuizAct.report.inj hreport
  refine ⟨fun rule hmet => ?_, by decide +kernel⟩
  have hrule : (proctored [minuteOff]).metNext tabSwitch.1 = some minuteOff := by decide +kernel
  rw [show (proctored [minuteOff]).after plainMessage [] = proctored [minuteOff] from rfl, hrule] at hmet
  cases hmet
  rfl

/-- A second report meets the rule again, and takes its minute again. -/
theorem minuteOff_repeats : ¬ ∀ (a : ProctoredAttempt) (acts : List QuizAct), a.violations = {} → a.FiresOnce plainMessage acts := by
  intro h
  have hpenalty := (h (proctored [minuteOff]) [.report tabSwitch 0, .report tabSwitch 1] rfl).penalty _ (List.prefix_refl _)
  exact absurd hpenalty (by decide +kernel)

end

end SubmissionsChecker
