import Mathlib.Algebra.Order.Group.Defs
import Mathlib.Algebra.Order.Ring.Rat
import Mathlib.Data.List.Sort

/-! The one that leads a list: its score reaches a threshold and is ahead of every other's by a margin. There is one at
most, the order of the list does not matter, and it is found at the head of the sorted list. -/

namespace Leader

variable {α K : Type*} [LinearOrder K]

/-- The list by score, the highest first; equals keep their order. -/
def ranked (score : α → K) (xs : List α) : List α := xs.insertionSort fun x y => score y ≤ score x

section

variable {score : α → K} {xs xs' : List α} {x : α}

theorem ranked_perm (score : α → K) (xs : List α) : (ranked score xs).Perm xs := List.perm_insertionSort _ xs

theorem ranked_singleton (score : α → K) (x : α) : ranked score [x] = [x] := rfl

theorem ranked_head (h : ranked score xs = x :: xs') : ∀ y ∈ xs, score y ≤ score x := by
  have hsorted : (x :: xs').Pairwise fun x y => score y ≤ score x := by
    rw [← h]
    exact List.pairwise_insertionSort _ xs
  intro y hy
  have hmem : y ∈ x :: xs' := by
    rw [← h]
    exact (ranked_perm score xs).mem_iff.mpr hy
  rcases List.mem_cons.mp hmem with rfl | hmem
  · exact le_rfl
  · exact (List.pairwise_cons.mp hsorted).1 y hmem

end

variable [AddCommGroup K]

structure Leads (threshold margin : K) (score : α → K) (xs : List α) (x : α) : Prop where
  enough : threshold ≤ score x
  ahead : ∃ rest, xs.Perm (x :: rest) ∧ ∀ y ∈ rest, margin ≤ score x - score y

section

variable {threshold margin : K} {score : α → K} {xs xs' : List α} {x y : α}

theorem Leads.mem (h : Leads threshold margin score xs x) : x ∈ xs := by
  obtain ⟨rest, hperm, -⟩ := h.ahead
  exact hperm.mem_iff.mpr List.mem_cons_self

theorem Leads.perm (h : Leads threshold margin score xs x) (hp : xs'.Perm xs) : Leads threshold margin score xs' x := by
  obtain ⟨rest, hperm, hahead⟩ := h.ahead
  exact ⟨h.enough, rest, hp.trans hperm, hahead⟩

/-- It is ahead of every other. -/
theorem Leads.ahead_of (h : Leads threshold margin score xs x) (hy : y ∈ xs) (hne : y ≠ x) :
    margin ≤ score x - score y := by
  obtain ⟨rest, hperm, hahead⟩ := h.ahead
  rcases List.mem_cons.mp (hperm.mem_iff.mp hy) with heq | hy
  · exact absurd heq hne
  · exact hahead y hy

/-- Without another of the list it leads no less. -/
theorem Leads.without (h : Leads threshold margin score xs' x) (hp : xs'.Perm (y :: xs)) (hx : x ∈ xs) :
    Leads threshold margin score xs x := by
  obtain ⟨rest, hperm, hahead⟩ := h.ahead
  obtain ⟨pre, post, rfl⟩ := List.append_of_mem hx
  refine ⟨h.enough, pre ++ post, List.perm_middle, fun z hz => hahead z ?_⟩
  have hrest : (y :: (pre ++ post)).Perm rest := by
    refine (List.perm_cons x).mp ?_
    calc (x :: y :: (pre ++ post)).Perm (y :: x :: (pre ++ post)) := .swap _ _ _
      _ |>.Perm (y :: (pre ++ x :: post)) := (List.perm_middle.symm).cons y
      _ |>.Perm xs' := hp.symm
      _ |>.Perm (x :: rest) := hperm
  exact hrest.mem_iff.mp (List.mem_cons_of_mem y hz)

variable [IsOrderedAddMonoid K]

/-- The head of the ranking leads exactly when it reaches the threshold and is ahead of the second. -/
theorem leads_ranked_head (hle : margin ≤ threshold) (h : ranked score xs = x :: xs') :
    Leads threshold margin score xs x ↔
      threshold ≤ score x ∧ margin ≤ score x - ((xs'.head?).map score).getD 0 := by
  have hperm : xs.Perm (x :: xs') := h ▸ (ranked_perm score xs).symm
  have hsorted : (x :: xs').Pairwise fun x y => score y ≤ score x := by
    rw [← h]
    exact List.pairwise_insertionSort _ xs
  constructor
  · rintro ⟨henough, rest, hrest, hahead⟩
    have hsame : xs'.Perm rest := (List.perm_cons x).mp (hperm.symm.trans hrest)
    refine ⟨henough, ?_⟩
    cases xs' with
    | nil =>
      rw [List.head?_nil, Option.map_none, Option.getD_none, sub_zero]
      exact hle.trans henough
    | cons y xs' =>
      rw [List.head?_cons, Option.map_some, Option.getD_some]
      exact hahead y (hsame.mem_iff.mp List.mem_cons_self)
  · rintro ⟨henough, hahead⟩
    refine ⟨henough, xs', hperm, fun y hy => ?_⟩
    cases xs' with
    | nil => exact absurd hy List.not_mem_nil
    | cons z xs' =>
      rw [List.head?_cons, Option.map_some, Option.getD_some] at hahead
      have hyz : score y ≤ score z := by
        rcases List.mem_cons.mp hy with rfl | hy
        · exact le_rfl
        · exact (List.pairwise_cons.mp (List.pairwise_cons.mp hsorted).2).1 y hy
      exact hahead.trans (sub_le_sub_left hyz _)

/-- Who leads is at the head. -/
theorem Leads.eq_head (hmargin : 0 < margin) (hl : Leads threshold margin score xs y) (h : ranked score xs = x :: xs') :
    y = x := by
  by_contra hne
  have hx : x ∈ xs := (ranked_perm score xs).mem_iff.mp (by rw [h]; exact List.mem_cons_self)
  have hahead := hl.ahead_of hx (Ne.symm hne)
  exact absurd (sub_pos.mp (hmargin.trans_le hahead)) (ranked_head h y hl.mem).not_gt

end

end Leader
