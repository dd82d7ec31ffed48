import Mathlib.Data.List.Perm.Subperm
import Mathlib.Data.List.Sort

/-! A list in another order, given by the positions its elements come from. -/

namespace Reorder

variable {α : Type*} {l : List α} {indices : List ℕ} {n i j : ℕ}

theorem idxOf_inj (h : indices.Perm (List.range n)) (hi : i < n) : indices.idxOf i = indices.idxOf j ↔ i = j :=
  List.idxOf_inj (h.symm.subset (List.mem_range.mpr hi))

end Reorder
