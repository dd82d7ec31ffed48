import SubmissionsChecker.Sessions.Reports

/-! Anti-cheat reports side by side. A report writes back the counters it loaded with its own
event added, so one that writes over another's loses it; and the loop over the rules stops at
the first that matches, so a milder rule in front shields a `fail` rule. -/

namespace SubmissionsChecker

open ReadCommitted Runs

variable {a row : WatchedAttempt} {event : String} {P : Type*} [DecidableEq P]

/-- A report that writes finds the counters it loaded. -/
def Report.WritesFresh (row : WatchedAttempt) : Report → Prop
  | flushing _ a => row.violations = a.violations
  | _ => True

instance Report.decidableWritesFresh (row : WatchedAttempt) (l : Report) : Decidable (l.WritesFresh row) := by
  cases l <;> unfold Report.WritesFresh <;> infer_instance

/-- No rule in front of a `fail` rule takes the event from it when the threshold is reached. -/
def FailsFirst (rules : List Rule) : Prop := ∀ r ∈ rules, r.action = .fail →
  0 < r.threshold ∧ (WatchedAttempt.firstRule rules r.event r.threshold).any (·.action == .fail) = true

/-- The attempt is force-failed when a `fail` rule has been reached. -/
def WatchedAttempt.Enforced (row : WatchedAttempt) : Prop := ∀ r ∈ row.rules, r.action = .fail →
  r.threshold ≤ row.violations.count r.event → row.violations.forceFail = true

namespace Violations

theorem count_bump (v : Violations) (event e : String) :
    (v.bump event).count e = v.count e + if e = event then 1 else 0 := by
  unfold bump count
  rw [Assoc.lookup_set]
  by_cases h : e = event
  · simp [h]
  · simp [h]

end Violations

namespace WatchedAttempt

@[simp] theorem count_apply (rule : Rule) (e : String) :
    (a.apply event rule).violations.count e = a.violations.count e := by
  unfold apply Violations.count
  split
  · rfl
  · split <;> rfl
  · rfl
  · rfl
  · rfl

theorem forceFail_apply (rule : Rule) :
    (a.apply event rule).violations.forceFail = (a.violations.forceFail || rule.action == .fail) := by
  unfold apply
  split
  · rename_i h
    simp [h]
  · rename_i h
    split <;> simp [h]
  all_goals
    rename_i h
    simp [h]

theorem reported_eq : a.reported event =
    ((firstRule a.rules event (a.violations.count event + 1)).elim { a with violations := a.violations.bump event }
      fun rule => { a with violations := a.violations.bump event }.apply event rule) := by
  have hcount : (a.violations.bump event).count event = a.violations.count event + 1 := by
    rw [Violations.count_bump, if_pos rfl]
  simp only [reported, hcount]
  cases firstRule a.rules event (a.violations.count event + 1) <;> rfl

theorem count_reported (e : String) :
    (a.reported event).violations.count e = a.violations.count e + if e = event then 1 else 0 := by
  rw [reported_eq, ← Violations.count_bump]
  cases firstRule a.rules event (a.violations.count event + 1) with
  | none => rfl
  | some rule => exact count_apply _ _

/-- The report that reaches a threshold meets the first rule for it. -/
theorem forceFail_reported : (a.reported event).violations.forceFail = (a.violations.forceFail ||
    (firstRule a.rules event (a.violations.count event + 1)).any (·.action == .fail)) := by
  rw [reported_eq]
  cases firstRule a.rules event (a.violations.count event + 1) with
  | none => exact (Bool.or_false _).symm
  | some rule => exact forceFail_apply _

/-- An applied report keeps the rule: the count reaches a threshold one by one. -/
theorem Enforced.reported (h : a.Enforced) (hrules : FailsFirst a.rules) (hsame : row.rules = a.rules) : (row.write a (a.reported event)).Enforced := by
  intro r hr hfail hreach
  have hr' : r ∈ a.rules := hsame ▸ hr
  obtain ⟨hpos, hfirst⟩ := hrules r hr' hfail
  change r.threshold ≤ (a.reported event).violations.count r.event at hreach
  change (a.reported event).violations.forceFail = true
  rw [count_reported] at hreach
  rw [forceFail_reported]
  by_cases hbefore : r.threshold ≤ a.violations.count r.event
  · rw [h r hr' hfail hbefore, Bool.true_or]
  · have hevent : r.event = event := by
      by_contra hne
      rw [if_neg hne] at hreach
      omega
    rw [if_pos hevent] at hreach
    have hthreshold : r.threshold = a.violations.count event + 1 := by
      rw [hevent] at hbefore hreach
      omega
    rw [hthreshold, hevent] at hfirst
    rw [hfirst, Bool.or_true]

end WatchedAttempt

/-- What a report knows: it has the attempt's rules, and the counters when it writes. -/
def Report.Knows (rules : List Rule) : Report → Prop
  | loaded _ a | flushing _ a => a.rules = rules
  | _ => True

theorem report_rules (rules : List Rule) (hrules : FailsFirst rules) :
    Rules Report.next (fun row l => l.WritesFresh row)
      (fun row => row.rules = rules ∧ row.Enforced) (fun _ _ l => l.Knows rules) where
  read := by
    intro row H l f hA hB _ h
    cases l with
    | received event => cases h; exact hA.1
    | loaded event a => simp only [Report.next] at h; split at h <;> cases h
    | flushing event a => cases h
    | ended event outcome => cases h
  lock := by
    intro row H l k f hA hB _ h
    cases l with
    | received event => cases h
    | loaded event a => simp only [Report.next] at h; split at h <;> cases h; exact hB
    | flushing event a => cases h
    | ended event outcome => cases h
  commit := by
    intro row H l f l' hA hB hok h
    cases l with
    | received event => cases h
    | loaded event a => simp only [Report.next] at h; split at h <;> cases h; exact ⟨hA, trivial⟩
    | flushing event a =>
      cases h
      obtain ⟨hsame, henforced⟩ := hA
      have hfresh : row.violations = a.violations := hok
      have ha : a.Enforced := fun r hr hfail hreach => by
        rw [← hfresh] at hreach ⊢
        exact henforced r (by rw [hsame, ← hB]; exact hr) hfail hreach
      exact ⟨⟨hsame, ha.reported (by rw [show a.rules = rules from hB]; exact hrules)
        (hsame.trans hB.symm)⟩, trivial⟩
    | ended event outcome => cases h
  rollback := by
    intro row H l l' hA hB _ h
    cases l with
    | loaded event a => simp only [Report.next] at h; split at h <;> cases h
    | _ => cases h
  others := by
    intro row H l f l' H' m hA hB _ h hm _
    exact hm

/-- A report counts once it is accepted. -/
def Report.accepts (e : String) (l : Report) : ℕ := if l = .ended e .applied then 1 else 0

theorem report_counts (rules : List Rule) (e : String) :
    Counts Report.next (fun row l => l.WritesFresh row) (fun row => row.rules = rules ∧ row.Enforced)
      (fun _ (_ : Set Unit) l => l.Knows rules) (fun row => row.violations.count e) (Report.accepts e) where
  read := by
    intro row H l f _ _ _ h
    cases l with
    | received event => cases h; simp [Report.accepts]
    | loaded event a => simp only [Report.next] at h; split at h <;> cases h
    | flushing event a => cases h
    | ended event outcome => cases h
  lock := by
    intro row H l k f _ _ _ h
    cases l with
    | received event => cases h
    | loaded event a => simp only [Report.next] at h; split at h <;> cases h; simp [Report.accepts]
    | flushing event a => cases h
    | ended event outcome => cases h
  commit := by
    intro row H l f l' _ _ hok h
    cases l with
    | received event => cases h
    | loaded event a =>
      simp only [Report.next] at h
      split at h
      · cases h
      · rename_i hne
        cases h
        simp only [Report.accepts, reduceCtorEq, if_false, Report.ended.injEq]
        rw [if_neg fun hend => hne hend.2]
        rfl
    | flushing event a =>
      cases h
      have hfresh : row.violations = a.violations := hok
      change (a.reported event).violations.count e + 0 = _
      rw [WatchedAttempt.count_reported, hfresh]
      by_cases he : e = event <;> simp [Report.accepts, he, eq_comm]
    | ended event outcome => cases h
  rollback := by
    intro row H l l' _ _ _ h
    cases l with
    | loaded event a => simp only [Report.next] at h; split at h <;> cases h
    | _ => cases h

/-- How many reports of an event have been accepted. -/
def accepted [Fintype P] (st : State WatchedAttempt P Report Unit) (e : String) : ℕ := total (Report.accepts e) st

/-- When every report writes over the counters it loaded, none is lost. -/
theorem no_violation_lost [Fintype P] {session : P → Report} {st : State WatchedAttempt P Report Unit} {ps : List P}
    (hnew : row.violations = {}) (hrequests : ∀ p, ∃ event, session p = .received event)
    (hrules : FailsFirst row.rules) (h : Run (step Report.next) (Ok fun row l => l.WritesFresh row) (start row session) ps st) :
    (∀ e, st.store.violations.count e = accepted st e) ∧
      ∀ r ∈ row.rules, r.action = .fail → r.threshold ≤ accepted st r.event → st.store.violations.forceFail = true := by
  have hstart : Holds (fun r => r.rules = row.rules ∧ r.Enforced) (fun _ _ l => l.Knows row.rules)
      (start row session : State WatchedAttempt P Report Unit) := by
    refine ⟨⟨rfl, fun r hr hfail hreach => ?_⟩, fun p => ?_⟩
    · change r.threshold ≤ row.violations.count r.event at hreach
      rw [hnew] at hreach
      have hpos := (hrules r hr hfail).1
      simp only [Violations.count, List.lookup_nil, Option.getD_none] at hreach
      omega
    · obtain ⟨event, hp⟩ := hrequests p
      change (session p).Knows row.rules
      rw [hp]
      trivial
  have hrun := hstart.run (report_rules row.rules hrules) h
  have hcount : ∀ e, st.store.violations.count e = accepted st e := by
    intro e
    have hmoves := (report_counts row.rules e).run (report_rules row.rules hrules) hstart h
    have hnone : total (Report.accepts e) (start row session : State WatchedAttempt P Report Unit) = 0 :=
      Finset.sum_eq_zero fun p _ => by
        obtain ⟨event, hp⟩ := hrequests p
        change Report.accepts e (session p) = 0
        rw [hp]
        rfl
    have hzero : (start row session : State WatchedAttempt P Report Unit).store.violations.count e = 0 := by
      change row.violations.count e = 0
      rw [hnew]
      rfl
    rw [hnone, hzero, Nat.add_zero, Nat.zero_add] at hmoves
    exact hmoves
  refine ⟨hcount, fun r hr hfail hreach => ?_⟩
  obtain ⟨hsame, henforced⟩ := hrun.1
  exact henforced r (hsame.symm ▸ hr) hfail (by rw [hcount]; exact hreach)

/-- The second switch of the tab fails the attempt. -/
def watched : WatchedAttempt := { rules := [{ event := "tab_switch", threshold := 2, action := .fail }] }

def tabSwitches (_ : Fin 2) : Report := .received "tab_switch"

/-- Both reports load the counters before either writes them: one of the two is lost. -/
theorem violation_lost : ¬ ∀ (n : ℕ) (row : WatchedAttempt) (session : Fin n → Report)
    (st : State WatchedAttempt (Fin n) Report Unit) (ps : List (Fin n)), row.violations = {} →
    (∀ p, ∃ event, session p = .received event) → Run (step Report.next) Any (start row session) ps st →
    (∀ e, st.store.violations.count e = accepted st e) ∧
      ∀ r ∈ row.rules, r.action = .fail → r.threshold ≤ accepted st r.event →
        st.store.violations.forceFail = true := by
  intro hall
  have h := hall 2 watched tabSwitches _ [0, 1, 0, 0, 1, 1] rfl (fun _ => ⟨_, rfl⟩) (run_foldl _)
  exact absurd (h.1 "tab_switch") (by decide +kernel)

/-- One after the other they fail the attempt. -/
theorem tabSwitches_counted :
    let st := [0, 0, 0, 1, 1, 1].foldl (step Report.next) (start watched tabSwitches)
    st.store.violations.count "tab_switch" = 2 ∧ st.store.violations.forceFail = true := by
  have hfirst : FailsFirst watched.rules := by
    intro r hr hfail
    rw [List.mem_singleton.mp hr]
    decide
  have hchecks : Checks (step Report.next) (Ok fun row l => l.WritesFresh row) (start watched tabSwitches)
      [0, 0, 0, 1, 1, 1] := by decide +kernel
  have hposted : ∀ p, ∃ event, tabSwitches p = .received event := fun _ => ⟨_, rfl⟩
  have h := no_violation_lost rfl hposted hfirst (run_of_checks hchecks)
  have htwo : accepted ([0, 0, 0, 1, 1, 1].foldl (step Report.next) (start watched tabSwitches)) "tab_switch" = 2 := by
    decide +kernel
  exact ⟨(h.1 _).trans htwo, h.2 _ (List.mem_singleton_self _) rfl (by rw [htwo])⟩

end SubmissionsChecker
