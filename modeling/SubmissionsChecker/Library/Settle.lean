import Mathlib.Data.List.Pairwise
import Mathlib.Order.Basic

/-! Turns that come due as time passes. What is due stays due, and only so many turns are left, so settling now and
again later leaves what settling later alone does: it does not matter when one looks. -/

namespace Settle

section

variable {T S : Type*} [Preorder T]

/-- What is due stays due, and every turn brings the end nearer. -/
structure Turns (turn : T → S → Option S) (left : S → ℕ) : Prop where
  later : ∀ t t' s s', t ≤ t' → turn t s = some s' → turn t' s = some s'
  nearer : ∀ t s s', turn t s = some s' → left s' < left s

/-- At most `k` of the turns that are due. -/
def upTo (turn : T → S → Option S) (t : T) : ℕ → S → S
  | 0, s => s
  | k + 1, s =>
    match turn t s with
    | none => s
    | some s' => upTo turn t k s'

/-- All of them. -/
def settle (turn : T → S → Option S) (left : S → ℕ) (t : T) (s : S) : S := upTo turn t (left s) s

variable {turn : T → S → Option S} {left : S → ℕ} {t t' : T} {s s' : S}

omit [Preorder T] in
theorem settle_of_none (h : turn t s = none) : settle turn left t s = s := by
  unfold settle
  cases left s with
  | zero => rfl
  | succ k => simp only [upTo, h]

theorem upTo_enough (hturns : Turns turn left) (k k' : ℕ) (s : S) (hk : left s ≤ k) (hk' : left s ≤ k') :
    upTo turn t k s = upTo turn t k' s := by
  induction k generalizing k' s with
  | zero =>
    have hnone : turn t s = none := by
      rcases hs : turn t s with _ | s'
      · rfl
      · have hlt := hturns.nearer t s s' hs
        omega
    cases k' with
    | zero => rfl
    | succ k' => simp only [upTo, hnone]
  | succ k ih =>
    rcases hs : turn t s with _ | s'
    · cases k' with
      | zero => simp only [upTo, hs]
      | succ k' => simp only [upTo, hs]
    · have hlt := hturns.nearer t s s' hs
      obtain ⟨k', rfl⟩ : ∃ j, k' = j + 1 := ⟨k' - 1, by omega⟩
      simp only [upTo, hs]
      exact ih k' s' (by omega) (by omega)

theorem settle_of_some (hturns : Turns turn left) (h : turn t s = some s') : settle turn left t s = settle turn left t s' := by
  have hlt := hturns.nearer t s s' h
  have hone : settle turn left t s = upTo turn t (left s + 1) s := upTo_enough hturns _ _ s (Nat.le_refl _) (Nat.le_succ _)
  rw [hone, upTo, h]
  exact upTo_enough hturns _ _ s' (by omega) (Nat.le_refl _)

/-- Afterwards nothing is due. -/
theorem turn_settle (hturns : Turns turn left) (t : T) (s : S) : turn t (settle turn left t s) = none := by
  induction hk : left s using Nat.strongRecOn generalizing s with
  | ind k ih =>
    rcases hs : turn t s with _ | s'
    · rw [settle_of_none hs, hs]
    · rw [settle_of_some hturns hs]
      exact ih (left s') (hk ▸ hturns.nearer t s s' hs) s' rfl

/-- Looking earlier makes no difference later. -/
theorem settle_later (hturns : Turns turn left) (ht : t ≤ t') (s : S) :
    settle turn left t' (settle turn left t s) = settle turn left t' s := by
  induction hk : left s using Nat.strongRecOn generalizing s with
  | ind k ih =>
    rcases hs : turn t s with _ | s'
    · rw [settle_of_none hs]
    · rw [settle_of_some hturns hs, settle_of_some hturns (hturns.later t t' s s' ht hs)]
      exact ih (left s') (hk ▸ hturns.nearer t s s' hs) s' rfl

/-- However often one looks before. -/
theorem foldl_settle (hturns : Turns turn left) (ts : List T) (t : T) (s : S) (h : ∀ u ∈ ts, u ≤ t) :
    settle turn left t (ts.foldl (fun s u => settle turn left u s) s) = settle turn left t s := by
  induction ts generalizing s with
  | nil => rfl
  | cons u ts ih =>
    rw [List.foldl_cons, ih _ fun u' hu' => h u' (List.mem_cons_of_mem _ hu'), settle_later hturns (h u List.mem_cons_self)]

end

end Settle
