import Mathlib.Data.List.Infix
import Mathlib.Data.List.Basic

/-! Searching a sequence for another from a position on: `find`, and a search that passes over the
occurrences that are not accepted. -/

namespace Search

variable {α : Type*} [DecidableEq α]

/-- How far the first occurrence is; of a needle that is not empty. -/
def scan (needle : List α) : List α → Option ℕ
  | [] => none
  | c :: rest => if needle.isPrefixOf (c :: rest) then some 0 else (scan needle rest).map (· + 1)

/-- `text.find(needle, start)`, none where it answers -1. -/
def find (text needle : List α) (start : ℕ) : Option ℕ := (scan needle (text.drop start)).map (start + ·)

/-- The needle is at a position. -/
def OccursAt (text needle : List α) (pos : ℕ) : Prop := needle <+: text.drop pos

/-- `text[pos : pos + n]` -/
def slice (text : List α) (pos n : ℕ) : List α := (text.drop pos).take n

variable {text needle : List α} {start pos n : ℕ}

theorem scan_some (h : scan needle text = some n) :
    n < text.length ∧ needle <+: text.drop n ∧ ∀ k < n, ¬ needle <+: text.drop k := by
  induction text generalizing n with
  | nil => cases h
  | cons c rest ih =>
    rw [scan] at h
    split_ifs at h with hhere
    · cases h
      exact ⟨by simp, List.isPrefixOf_iff_prefix.mp hhere, by simp⟩
    · obtain ⟨m, hm, rfl⟩ := Option.map_eq_some_iff.mp h
      obtain ⟨hlt, hocc, hfirst⟩ := ih hm
      refine ⟨by simpa using hlt, hocc, ?_⟩
      intro k hk
      cases k with
      | zero => simpa using fun hpre => hhere (List.isPrefixOf_iff_prefix.mpr hpre)
      | succ k => exact hfirst k (by omega)

theorem scan_none (hne : needle ≠ []) (h : scan needle text = none) (k : ℕ) : ¬ needle <+: text.drop k := by
  induction text generalizing k with
  | nil =>
    rw [List.drop_nil, List.prefix_nil]
    exact hne
  | cons c rest ih =>
    rw [scan] at h
    split_ifs at h with hhere
    cases k with
    | zero => simpa using fun hpre => hhere (List.isPrefixOf_iff_prefix.mpr hpre)
    | succ k => exact ih (Option.map_eq_none_iff.mp h) k

/-- The position found is the first one from the start on. -/
theorem find_some (h : find text needle start = some pos) :
    start ≤ pos ∧ pos < text.length ∧ OccursAt text needle pos ∧ ∀ q, start ≤ q → q < pos → ¬ OccursAt text needle q := by
  obtain ⟨n, hn, rfl⟩ := Option.map_eq_some_iff.mp h
  obtain ⟨hlt, hocc, hfirst⟩ := scan_some hn
  rw [List.length_drop] at hlt
  refine ⟨by omega, by omega, ?_, ?_⟩
  · rwa [List.drop_drop] at hocc
  · intro q hstart hq hocc
    refine hfirst (q - start) (by omega) ?_
    rwa [List.drop_drop, Nat.add_sub_cancel' hstart]

theorem find_none (hne : needle ≠ []) (h : find text needle start = none) {q : ℕ} (hq : start ≤ q) :
    ¬ OccursAt text needle q := by
  intro hocc
  refine scan_none hne (Option.map_eq_none_iff.mp h) (q - start) ?_
  rwa [List.drop_drop, Nat.add_sub_cancel' hq]

/-- The first occurrence is found. -/
theorem find_eq (hne : needle ≠ []) (hstart : start ≤ pos) (hocc : OccursAt text needle pos)
    (hfirst : ∀ q, start ≤ q → q < pos → ¬ OccursAt text needle q) : find text needle start = some pos := by
  cases h : find text needle start with
  | none => exact absurd hocc (find_none hne h hstart)
  | some q =>
    obtain ⟨hq, -, hoccq, hfirstq⟩ := find_some h
    rcases lt_trichotomy q pos with hlt | rfl | hlt
    · exact absurd hoccq (hfirst q hq hlt)
    · rfl
    · exact absurd hocc (hfirstq pos hstart hlt)

/-- The first occurrence that is accepted. -/
def findWith (accept : ℕ → Bool) (text needle : List α) (start : ℕ) : Option ℕ :=
  match h : find text needle start with
  | none => none
  | some pos => if accept pos then some pos else findWith accept text needle (pos + 1)
termination_by text.length - start
decreasing_by
  have := find_some h
  omega

variable {accept : ℕ → Bool}

theorem findWith_of_none (h : find text needle start = none) : findWith accept text needle start = none := by
  rw [findWith]
  split
  · rfl
  · rename_i pos hpos
    rw [h] at hpos
    cases hpos

theorem findWith_of_find (h : find text needle start = some pos) :
    findWith accept text needle start = if accept pos then some pos else findWith accept text needle (pos + 1) := by
  rw [findWith]
  split
  · rename_i hnone
    rw [h] at hnone
    cases hnone
  · rename_i q hq
    rw [h] at hq
    cases hq
    rfl

theorem findWith_some (h : findWith accept text needle start = some pos) :
    start ≤ pos ∧ pos < text.length ∧ OccursAt text needle pos ∧ accept pos = true := by
  induction start using findWith.induct accept text needle with
  | case1 start hnone =>
    rw [findWith_of_none hnone] at h
    cases h
  | case2 start q hq haccept =>
    rw [findWith_of_find hq, if_pos haccept] at h
    cases h
    obtain ⟨hstart, hlt, hocc, -⟩ := find_some hq
    exact ⟨hstart, hlt, hocc, haccept⟩
  | case3 start q hq haccept ih =>
    rw [findWith_of_find hq, if_neg haccept] at h
    obtain ⟨hstart, hrest⟩ := ih h
    have := (find_some hq).1
    exact ⟨by omega, hrest⟩

/-- The first one accepted is found. -/
theorem findWith_eq (hne : needle ≠ []) (hstart : start ≤ pos) (hocc : OccursAt text needle pos)
    (haccept : accept pos = true) (hfirst : ∀ q, start ≤ q → q < pos → OccursAt text needle q → accept q = false) :
    findWith accept text needle start = some pos := by
  induction start using findWith.induct accept text needle with
  | case1 start hnone => exact absurd hocc (find_none hne hnone hstart)
  | case2 start q hq hqaccept =>
    obtain ⟨hq₁, -, hocc₁, hfirst₁⟩ := find_some hq
    rw [findWith_of_find hq, if_pos hqaccept]
    rcases lt_trichotomy q pos with hlt | rfl | hlt
    · rw [hfirst q hq₁ hlt hocc₁] at hqaccept
      cases hqaccept
    · rfl
    · exact absurd hocc (hfirst₁ pos hstart hlt)
  | case3 start q hq hqaccept ih =>
    obtain ⟨hq₁, -, -, hfirst₁⟩ := find_some hq
    rw [findWith_of_find hq, if_neg hqaccept]
    rcases lt_trichotomy q pos with hlt | rfl | hlt
    · exact ih hlt fun q' hq' => hfirst q' (by omega)
    · exact absurd haccept hqaccept
    · exact absurd hocc (hfirst₁ pos hstart hlt)

end Search
