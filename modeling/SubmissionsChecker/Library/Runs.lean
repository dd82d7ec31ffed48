import Mathlib.Logic.Relation
import Mathlib.Data.List.Induction

/-! Runs of a deterministic system under a step condition. A run records the operations
in order; `ok` is what every step must meet in the state before it (`fun _ _ => True`
for all runs). Invariants are proved once here, by induction on the last step. -/

namespace Runs

variable {State Op : Type*}

inductive Run (step : State → Op → State) (ok : State → Op → Prop) (s : State) :
    List Op → State → Prop
  | nil : Run step ok s [] s
  | snoc {ops t o} : Run step ok s ops t → ok t o → Run step ok s (ops ++ [o]) (step t o)

/-- No condition on the steps. -/
def Any (_ : State) (_ : Op) : Prop := True

variable {step : State → Op → State} {ok : State → Op → Prop} {s t : State}

/-- What holds at the start and is kept by every step holds after every run. -/
theorem Run.invariant {I : State → Prop} {ops : List Op} (h : Run step ok s ops t) (hs : I s)
    (hstep : ∀ t o, I t → ok t o → I (step t o)) : I t := by
  induction h with
  | nil => exact hs
  | snoc _ ho ih => exact hstep _ _ ih ho

/-- A relation kept by every step and closed under composition links both ends of a run. -/
theorem Run.relation {R : State → State → Prop} {ops : List Op} (h : Run step ok s ops t)
    (hrefl : ∀ a, R a a) (htrans : ∀ a b c, R a b → R b c → R a c)
    (hstep : ∀ a o, R a (step a o)) : R s t := by
  induction h with
  | nil => exact hrefl _
  | snoc _ _ ih => exact htrans _ _ _ ih (hstep _ _)

theorem Run.append {ops ops' : List Op} {u : State} (h : Run step ok s ops t)
    (h' : Run step ok t ops' u) : Run step ok s (ops ++ ops') u := by
  induction h' with
  | nil => simpa using h
  | snoc _ ho ih => rw [← List.append_assoc]; exact .snoc ih ho

/-- A run is determined by its operations. -/
theorem Run.eq_foldl {ops : List Op} (h : Run step ok s ops t) : t = ops.foldl step s := by
  induction h with
  | nil => rfl
  | snoc _ _ ih => rw [List.foldl_append, ← ih]; rfl

theorem run_foldl (ops : List Op) : Run step Any s ops (ops.foldl step s) := by
  induction ops using List.reverseRecOn with
  | nil => exact .nil
  | append_singleton ops o ih =>
    rw [List.foldl_append]
    exact .snoc ih trivial

/-- Operations that meet the condition in every state run under it. -/
theorem run_of_forall (ops : List Op) (h : ∀ o ∈ ops, ∀ a, ok a o) : Run step ok s ops (ops.foldl step s) := by
  induction ops using List.reverseRecOn with
  | nil => exact .nil
  | append_singleton ops o ih =>
    rw [List.foldl_append]
    exact .snoc (ih fun o' ho' => h o' (List.mem_append_left _ ho')) (h o (by simp) _)

/-- The condition, checked along the way. -/
def Checks (step : State → Op → State) (ok : State → Op → Prop) (s : State) : List Op → Prop
  | [] => True
  | o :: ops => ok s o ∧ Checks step ok (step s o) ops

def decidableChecks (step : State → Op → State) (ok : State → Op → Prop) [∀ a o, Decidable (ok a o)] :
    ∀ (s : State) (ops : List Op), Decidable (Checks step ok s ops)
  | _, [] => isTrue trivial
  | s, o :: ops =>
    have := decidableChecks step ok (step s o) ops
    inferInstanceAs (Decidable (ok s o ∧ Checks step ok (step s o) ops))

instance [∀ a o, Decidable (ok a o)] (ops : List Op) : Decidable (Checks step ok s ops) :=
  decidableChecks step ok s ops

theorem run_cons {o : Op} {ops : List Op} (ho : ok s o) (h : Run step ok (step s o) ops t) :
    Run step ok s (o :: ops) t :=
  Run.append (show Run step ok s ([] ++ [o]) (step s o) from .snoc .nil ho) h

theorem run_of_checks {ops : List Op} (h : Checks step ok s ops) : Run step ok s ops (ops.foldl step s) := by
  induction ops generalizing s with
  | nil => exact .nil
  | cons o ops ih => exact run_cons h.1 (ih h.2)

end Runs
