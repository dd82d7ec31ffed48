import SubmissionsChecker.Library.Assoc
import Mathlib.Algebra.BigOperators.Group.List.Basic
import Mathlib.Data.List.Induction
import Mathlib.Data.List.Sort
import Mathlib.Data.List.MinMax

/-! The best value offered for each key, kept in an association list. What is kept does not depend on the order of the
offers, and an offer no better than an earlier one changes nothing. -/

namespace BestOf

variable {K V : Type*} [DecidableEq K] [LinearOrder V]

/-- An offer is kept when it beats what is held, or the floor. -/
def offer (floor : V) (held : List (K × V)) (e : K × V) : List (K × V) :=
  if (held.lookup e.1).getD floor < e.2 then Assoc.put e.1 e.2 held else held

def best (floor : V) (offers : List (K × V)) : List (K × V) := offers.foldl (offer floor) []

/-- The values offered for a key. -/
def valuesOf (k : K) (offers : List (K × V)) : List V := (offers.filter (·.1 = k)).map (·.2)

section

variable {k j : K} {v floor : V} {held : List (K × V)} {offers offers' : List (K × V)} {e : K × V}

theorem nodup_best (floor : V) (offers : List (K × V)) : ((best floor offers).map (·.1)).Nodup := by
  unfold best
  induction offers using List.reverseRecOn with
  | nil => exact List.nodup_nil
  | append_singleton offers e ih =>
    rw [List.foldl_append, List.foldl_cons, List.foldl_nil]
    unfold offer
    split_ifs
    · exact Assoc.nodup_put ih
    · exact ih

omit [LinearOrder V] in
theorem mem_valuesOf : v ∈ valuesOf k offers ↔ (k, v) ∈ offers := by
  unfold valuesOf
  constructor
  · intro h
    obtain ⟨⟨a, w⟩, hmem, rfl⟩ := List.mem_map.mp h
    obtain ⟨hmem, hk⟩ := List.mem_filter.mp hmem
    have ha : a = k := by simpa using hk
    rw [← ha]
    exact hmem
  · intro h
    exact List.mem_map.mpr ⟨(k, v), List.mem_filter.mpr ⟨h, by simp⟩, rfl⟩

/-- What is held for a key is the greatest value offered for it. -/
theorem lookup_best (h : ∀ e ∈ offers, floor < e.2) (k : K) :
    (best floor offers).lookup k = (valuesOf k offers).max? := by
  induction offers using List.reverseRecOn with
  | nil => rfl
  | append_singleton offers e ih =>
    have ih := ih fun e he => h e (List.mem_append_left _ he)
    have hfold : best floor (offers ++ [e]) = offer floor (best floor offers) e := by
      unfold best
      rw [List.foldl_append, List.foldl_cons, List.foldl_nil]
    have hvalues : valuesOf k (offers ++ [e]) = valuesOf k offers ++ if e.1 = k then [e.2] else [] := by
      unfold valuesOf
      rw [List.filter_append, List.map_append, List.filter_singleton]
      by_cases he : e.1 = k <;> simp [he]
    rw [hfold, hvalues]
    unfold offer
    by_cases he : e.1 = k
    · subst he
      rw [if_pos rfl, ih]
      cases hm : (valuesOf e.1 offers).max? with
      | none =>
        rw [List.max?_eq_none_iff] at hm
        rw [Option.getD_none, if_pos (h e (by simp)), Assoc.lookup_put, if_pos rfl, hm]
        rfl
      | some m =>
        obtain ⟨hmem, hle⟩ := List.max?_eq_some_iff.mp hm
        rw [Option.getD_some]
        symm
        split_ifs with hlt
        · rw [Assoc.lookup_put, if_pos rfl, List.max?_eq_some_iff]
          refine ⟨List.mem_append_right _ (List.mem_singleton_self _), fun w hw => ?_⟩
          rcases List.mem_append.mp hw with hw | hw
          · exact (hle w hw).trans hlt.le
          · rw [List.mem_singleton.mp hw]
        · rw [ih, hm, List.max?_eq_some_iff]
          refine ⟨List.mem_append_left _ hmem, fun w hw => ?_⟩
          rcases List.mem_append.mp hw with hw | hw
          · exact hle w hw
          · rw [List.mem_singleton.mp hw]
            exact not_lt.mp hlt
    · rw [if_neg he, List.append_nil, ← ih]
      split_ifs
      · rw [Assoc.lookup_put, if_neg fun h => he h.symm]
      · rfl

/-- The same greatest values, the same table, but for the order of the keys. -/
theorem best_perm_of_max (h : ∀ e ∈ offers, floor < e.2) (h' : ∀ e ∈ offers', floor < e.2)
    (hmax : ∀ k, (valuesOf k offers).max? = (valuesOf k offers').max?) :
    (best floor offers).Perm (best floor offers') := by
  have hmem : ∀ (offers : List (K × V)) (e : K × V), e ∈ best floor offers ↔
      (best floor offers).lookup e.1 = some e.2 := fun offers e =>
    ⟨Assoc.lookup_of_mem (nodup_best floor offers), Assoc.mem_of_lookup⟩
  rw [List.perm_ext_iff_of_nodup (nodup_best floor offers).of_map (nodup_best floor offers').of_map]
  intro e
  rw [hmem, hmem, lookup_best h, lookup_best h', hmax]

/-- The order of the offers does not matter. -/
theorem best_perm (h : ∀ e ∈ offers, floor < e.2) (hp : offers.Perm offers') :
    (best floor offers).Perm (best floor offers') := by
  refine best_perm_of_max h (fun e he => h e (hp.mem_iff.mpr he)) fun k => ?_
  have hvalues : (valuesOf k offers).Perm (valuesOf k offers') := (hp.filter _).map _
  cases hm : (valuesOf k offers).max? with
  | none =>
    rw [List.max?_eq_none_iff] at hm
    rw [hm] at hvalues
    rw [hvalues.symm.eq_nil]
    rfl
  | some m =>
    obtain ⟨hmem, hle⟩ := List.max?_eq_some_iff.mp hm
    exact (List.max?_eq_some_iff.mpr ⟨hvalues.mem_iff.mp hmem, fun w hw => hle w (hvalues.mem_iff.mpr hw)⟩).symm

/-- An offer no better than one made. -/
theorem best_cons_of_le (h : ∀ e ∈ offers, floor < e.2) (hv : floor < v) {w : V} (hw : (k, w) ∈ offers) (hle : v ≤ w) :
    (best floor ((k, v) :: offers)).Perm (best floor offers) := by
  have hnew : ∀ e ∈ (k, v) :: offers, floor < e.2 := by
    intro e he
    rcases List.mem_cons.mp he with rfl | he
    · exact hv
    · exact h e he
  refine best_perm_of_max hnew h fun j => ?_
  unfold valuesOf
  by_cases hj : k = j
  · subst hj
    rw [List.filter_cons_of_pos (by simp), List.map_cons]
    obtain ⟨m, hm⟩ : ∃ m, (valuesOf k offers).max? = some m := by
      cases hm : (valuesOf k offers).max? with
      | none =>
        rw [List.max?_eq_none_iff] at hm
        exact absurd (mem_valuesOf.mpr hw) (by rw [hm]; exact List.not_mem_nil)
      | some m => exact ⟨m, rfl⟩
    obtain ⟨hmem, hmax⟩ := List.max?_eq_some_iff.mp hm
    unfold valuesOf at hm hmem hmax
    rw [hm, List.max?_eq_some_iff]
    refine ⟨List.mem_cons_of_mem _ hmem, fun u hu => ?_⟩
    rcases List.mem_cons.mp hu with rfl | hu
    · exact hle.trans (hmax w (mem_valuesOf.mpr hw))
    · exact hmax u hu
  · rw [List.filter_cons_of_neg (by simpa using hj)]

end

end BestOf
