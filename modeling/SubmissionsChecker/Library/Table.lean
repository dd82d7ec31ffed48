import Mathlib.Algebra.Ring.Nat
import Mathlib.Data.List.Basic
import Mathlib.Data.List.Nodup
import Mathlib.Data.List.Perm.Subperm
import Mathlib.Data.List.Range

/-! Append-only tables. A table is the list of its rows and a row's id is its position, so
ids are never reused and an update in place keeps every other row. -/

namespace Table

/-- Pairs of ids. -/
instance lawfulBEqIds : LawfulBEq (ℕ × ℕ) := inferInstance

variable {Row : Type*}

/-- The ids of the rows that meet `p`, in id order. -/
def idsWhere (p : Row → Bool) (rows : List Row) : List ℕ :=
  (List.range rows.length).filter fun i => (rows[i]?).any p

/-- `SELECT id … LIMIT 1`: the first such id. -/
def findId (p : Row → Bool) (rows : List Row) : Option ℕ :=
  (idsWhere p rows).head?

/-- The matches of an outer join; `none` stands for no match. -/
def outer {Match : Type*} : List Match → List (Option Match)
  | [] => [none]
  | ms => ms.map some

theorem exists_mem_outer {Match : Type*} (ms : List Match) : ∃ o, o ∈ outer ms := by
  rcases ms with _ | ⟨m, ms⟩
  · exact ⟨none, List.mem_singleton.mpr rfl⟩
  · exact ⟨some m, List.mem_cons_self⟩

theorem some_mem_outer {Match : Type*} {ms : List Match} {m : Match} (h : some m ∈ outer ms) : m ∈ ms := by
  rcases ms with _ | ⟨m', ms⟩
  · simp [outer] at h
  · simpa [outer, eq_comm] using h

theorem mem_idsWhere {p : Row → Bool} {rows : List Row} {i : ℕ} :
    i ∈ idsWhere p rows ↔ ∃ r, rows[i]? = some r ∧ p r = true := by
  unfold idsWhere
  rw [List.mem_filter, List.mem_range]
  constructor
  · rintro ⟨hi, hp⟩
    refine ⟨rows[i], List.getElem?_eq_getElem hi, ?_⟩
    simpa [List.getElem?_eq_getElem hi] using hp
  · rintro ⟨r, hr, hp⟩
    exact ⟨(List.getElem?_eq_some_iff.mp hr).1, by simp [hr, hp]⟩

theorem idsWhere_increasing (p : Row → Bool) (rows : List Row) : (idsWhere p rows).Pairwise (· < ·) :=
  List.pairwise_lt_range.sublist List.filter_sublist

theorem nodup_idsWhere (p : Row → Bool) (rows : List Row) : (idsWhere p rows).Nodup :=
  List.nodup_range.filter _

/-- A row that no other matches. -/
theorem idsWhere_eq_singleton {p : Row → Bool} {rows : List Row} {k : ℕ} {r : Row} (hk : rows[k]? = some r)
    (h : ∀ (j : ℕ) r, rows[j]? = some r → (p r = true ↔ j = k)) : idsWhere p rows = [k] := by
  refine List.perm_singleton.mp ((List.perm_ext_iff_of_nodup (nodup_idsWhere p rows) (List.nodup_singleton k)).mpr fun j => ?_)
  rw [mem_idsWhere, List.mem_singleton]
  constructor
  · rintro ⟨r', hr', hp⟩
    exact (h j r' hr').mp hp
  · rintro rfl
    exact ⟨r, hk, (h j r hk).mpr rfl⟩

theorem findId_some {p : Row → Bool} {rows : List Row} {i : ℕ} (h : findId p rows = some i) :
    ∃ r, rows[i]? = some r ∧ p r = true :=
  mem_idsWhere.mp (List.mem_of_head? h)

theorem findId_none {p : Row → Bool} {rows : List Row} (h : findId p rows = none) :
    ∀ r ∈ rows, p r = false := by
  intro r hr
  obtain ⟨i, hi⟩ := List.mem_iff_getElem?.mp hr
  have hnil : idsWhere p rows = [] := List.head?_eq_none_iff.mp h
  by_contra hp
  have : i ∈ idsWhere p rows := mem_idsWhere.mpr ⟨r, hi, by simpa using hp⟩
  simp [hnil] at this

theorem idsWhere_map {Row' : Type*} (f : Row → Row') (p : Row' → Bool) (rows : List Row) :
    idsWhere p (rows.map f) = idsWhere (fun r => p (f r)) rows := by
  unfold idsWhere
  rw [List.length_map]
  refine List.filter_congr fun i _ => ?_
  rw [List.getElem?_map, Option.any_map]

theorem findId_map {Row' : Type*} (f : Row → Row') (p : Row' → Bool) (rows : List Row) :
    findId p (rows.map f) = findId (fun r => p (f r)) rows := by
  rw [findId, idsWhere_map, findId]

/-- The values of a column, in the order in which they first occur. -/
theorem nodup_eraseDups {α : Type*} [DecidableEq α] (values : List α) : values.eraseDups.Nodup := by
  induction h : values.length using Nat.strong_induction_on generalizing values with
  | _ n ih =>
    cases values with
    | nil => exact List.nodup_nil
    | cons a values =>
      rw [List.eraseDups_cons]
      refine List.nodup_cons.mpr ⟨fun hmem => ?_, ih _ ?_ _ rfl⟩
      · have hne := (List.mem_filter.mp (List.mem_eraseDups.mp hmem)).2
        simp at hne
      · rw [← h]
        exact Nat.lt_succ_of_le (List.length_filter_le _ _)

/-- A row added at the end. -/
theorem idsWhere_concat (p : Row → Bool) (rows : List Row) (r : Row) :
    idsWhere p (rows ++ [r]) = idsWhere p rows ++ if p r then [rows.length] else [] := by
  unfold idsWhere
  rw [List.length_append, List.length_singleton, List.range_succ, List.filter_append]
  congr 1
  · refine List.filter_congr fun i hi => ?_
    rw [List.getElem?_append_left (List.mem_range.mp hi)]
  · by_cases h : p r <;> simp [h]

theorem length_idsWhere (p : Row → Bool) (rows : List Row) : (idsWhere p rows).length = (rows.filter p).length := by
  induction rows using List.reverseRecOn with
  | nil => rfl
  | append_singleton rows r ih =>
    rw [idsWhere_concat, List.length_append, List.filter_append, List.length_append, ih, List.filter_singleton]
    cases p r <;> rfl

theorem getElem?_modify_self (rows : List Row) (i : ℕ) (f : Row → Row) :
    (rows.modify i f)[i]? = (rows[i]?).map f := by
  simp

theorem getElem?_modify_ne {rows : List Row} {i j : ℕ} (f : Row → Row) (h : i ≠ j) :
    (rows.modify i f)[j]? = rows[j]? := by
  simp [h]

/-- A row of the updated table is an old row, changed only at the updated id. -/
theorem getElem?_modify_some {rows : List Row} {i j : ℕ} {f : Row → Row} {r : Row}
    (h : (rows.modify i f)[j]? = some r) :
    ∃ r₀, rows[j]? = some r₀ ∧ r = if i = j then f r₀ else r₀ := by
  rw [List.getElem?_modify] at h
  cases hr : rows[j]? with
  | none => simp [hr] at h
  | some r₀ =>
    refine ⟨r₀, rfl, ?_⟩
    rw [hr] at h
    simpa using h.symm

theorem getElem?_append_old {rows new : List Row} {i : ℕ} {r : Row} (h : rows[i]? = some r) :
    (rows ++ new)[i]? = some r := by
  rw [List.getElem?_append_left (List.getElem?_eq_some_iff.mp h).1, h]

theorem getElem?_concat_length (rows : List Row) (r : Row) : (rows ++ [r])[rows.length]? = some r := by
  simp

/-- A column that the update leaves alone. -/
theorem map_modify {α : Type*} {f : Row → Row} {g : Row → α} (h : ∀ r, g (f r) = g r) (rows : List Row) (i : ℕ) :
    (rows.modify i f).map g = rows.map g := by
  refine List.ext_getElem? fun j => ?_
  rw [List.getElem?_map, List.getElem?_map, List.getElem?_modify]
  rcases rows[j]? with _ | r
  · rfl
  · change some (g (if i = j then f r else r)) = some (g r)
    split_ifs
    · rw [h]
    · rfl

/-- Updating the row just added. -/
theorem modify_concat_length (rows : List Row) (r : Row) (f : Row → Row) :
    (rows ++ [r]).modify rows.length f = rows ++ [f r] := by
  induction rows with
  | nil => rfl
  | cons a rows ih => simpa using ih

/-- Updating an old row after others were added. -/
theorem modify_append_old {rows new : List Row} {i : ℕ} (f : Row → Row) (h : i < rows.length) :
    (rows ++ new).modify i f = rows.modify i f ++ new := by
  induction rows generalizing i with
  | nil => simp at h
  | cons r rows ih =>
    rcases i with _ | i
    · simp
    · simp [ih (Nat.lt_of_succ_lt_succ h)]

theorem getElem?_concat_some {rows : List Row} {new r : Row} {i : ℕ}
    (h : (rows ++ [new])[i]? = some r) : rows[i]? = some r ∨ (i = rows.length ∧ r = new) := by
  rcases Nat.lt_trichotomy i rows.length with hi | hi | hi
  · left; rwa [List.getElem?_append_left hi] at h
  · right; subst hi; exact ⟨rfl, by simpa using h.symm⟩
  · rw [List.getElem?_eq_none (by simp; omega)] at h; cases h

/-- An update that keeps `p` keeps the number of rows that meet it. -/
theorem countP_modify_eq {p : Row → Bool} {f : Row → Row} (h : ∀ r, p (f r) = p r) (rows : List Row) (i : ℕ) :
    (rows.modify i f).countP p = rows.countP p := by
  induction rows generalizing i with
  | nil => simp
  | cons r rows ih => cases i <;> simp [List.countP_cons, h, ih]

theorem countP_modify_le {p : Row → Bool} {f : Row → Row} (h : ∀ r, p (f r) = true → p r = true) (rows : List Row)
    (i : ℕ) : (rows.modify i f).countP p ≤ rows.countP p := by
  induction rows generalizing i with
  | nil => simp
  | cons r rows ih =>
    cases i with
    | zero =>
      rw [List.modify_zero_cons, List.countP_cons, List.countP_cons]
      by_cases hr : p (f r) = true
      · rw [if_pos hr, if_pos (h r hr)]
      · rw [if_neg hr]
        omega
    | succ i =>
      rw [List.modify_succ_cons, List.countP_cons, List.countP_cons]
      have := ih i
      omega

/-- Rows that go on meeting `p` are not fewer than before. -/
theorem countP_le_of_keeps {p : Row → Bool} {rows rows' : List Row}
    (h : ∀ (i : ℕ) r, rows[i]? = some r → p r = true → ∃ r', rows'[i]? = some r' ∧ p r' = true) :
    rows.countP p ≤ rows'.countP p := by
  rw [List.countP_eq_length_filter, List.countP_eq_length_filter, ← length_idsWhere, ← length_idsWhere]
  refine ((nodup_idsWhere p rows).subperm fun i hi => ?_).length_le
  obtain ⟨r, hr, hp⟩ := mem_idsWhere.mp hi
  exact mem_idsWhere.mpr (h i r hr hp)

/-- One more row meets `p` now. -/
theorem countP_lt_of_gain {p : Row → Bool} {rows rows' : List Row} {k : ℕ} {r : Row}
    (h : ∀ (i : ℕ) r, rows[i]? = some r → p r = true → ∃ r', rows'[i]? = some r' ∧ p r' = true)
    (hold : ∀ r, rows[k]? = some r → p r = false) (hnew : rows'[k]? = some r) (hp : p r = true) :
    rows.countP p < rows'.countP p := by
  rw [List.countP_eq_length_filter, List.countP_eq_length_filter, ← length_idsWhere, ← length_idsWhere]
  have hfresh : k ∉ idsWhere p rows := by
    intro hk
    obtain ⟨r₀, hr₀, hp₀⟩ := mem_idsWhere.mp hk
    rw [hold r₀ hr₀] at hp₀
    cases hp₀
  have hnodup : (k :: idsWhere p rows).Nodup := List.nodup_cons.mpr ⟨hfresh, nodup_idsWhere p rows⟩
  have hsub : k :: idsWhere p rows ⊆ idsWhere p rows' := by
    intro i hi
    rcases List.mem_cons.mp hi with rfl | hi
    · exact mem_idsWhere.mpr ⟨r, hnew, hp⟩
    · obtain ⟨r₀, hr₀, hp₀⟩ := mem_idsWhere.mp hi
      exact mem_idsWhere.mpr (h i r₀ hr₀ hp₀)
  exact (hnodup.subperm hsub).length_le

/-- A sum over the rows after one of them is updated. -/
theorem sum_modify {rows : List Row} {i : ℕ} {r : Row} (f : Row → Row) (g : Row → ℕ) (h : rows[i]? = some r) :
    ((rows.modify i f).map g).sum + g r = (rows.map g).sum + g (f r) := by
  induction rows generalizing i with
  | nil => simp at h
  | cons a rows ih =>
    rcases i with _ | i
    · rw [List.getElem?_cons_zero, Option.some_inj] at h
      subst h
      simp only [List.modify_zero_cons, List.map_cons, List.sum_cons]
      omega
    · have := ih h
      simp only [List.modify_succ_cons, List.map_cons, List.sum_cons]
      omega

/-- `UPDATE … SET f WHERE p`, by id and row. -/
def updateWhere (p : ℕ → Row → Bool) (f : Row → Row) (rows : List Row) : List Row :=
  rows.mapIdx fun i r => if p i r then f r else r

@[simp] theorem length_updateWhere (p : ℕ → Row → Bool) (f : Row → Row) (rows : List Row) :
    (updateWhere p f rows).length = rows.length := by
  simp [updateWhere]

theorem getElem?_updateWhere (p : ℕ → Row → Bool) (f : Row → Row) (rows : List Row) (i : ℕ) :
    (updateWhere p f rows)[i]? = (rows[i]?).map fun r => if p i r then f r else r := by
  simp [updateWhere]

/-- A row after the update is an old row, changed where it was met. -/
theorem getElem?_updateWhere_some {p : ℕ → Row → Bool} {f : Row → Row} {rows : List Row} {i : ℕ} {r : Row}
    (h : (updateWhere p f rows)[i]? = some r) : ∃ r₀, rows[i]? = some r₀ ∧ r = if p i r₀ then f r₀ else r₀ := by
  rw [getElem?_updateWhere, Option.map_eq_some_iff] at h
  obtain ⟨r₀, hr₀, rfl⟩ := h
  exact ⟨r₀, hr₀, rfl⟩

end Table

/-! ## A unit of work

A unit of work that does not flush by itself. A query tests the rows as they are stored, what it returns are the
rows as they stand in memory, and a flush stores them. So a row changed in memory is found by what it was. -/

namespace UnitOfWork

/-- The rows of a table, as stored and as they stand. -/
structure Session (R : Type*) where
  stored : List R
  current : List R

namespace Session

variable {R : Type*}

/-- The session that has just loaded the table. -/
def load (rows : List R) : Session R := ⟨rows, rows⟩

/-- The ids of the rows that a query finds. -/
def select (p : R → Bool) (s : Session R) : List ℕ := Table.idsWhere p s.stored

/-- The rows with these ids are changed in memory. -/
def update (ids : List ℕ) (f : R → R) (s : Session R) : Session R :=
  { s with current := s.current.mapIdx fun i r => if i ∈ ids then f r else r }

def flush (s : Session R) : Session R := { s with stored := s.current }

section

variable {s : Session R} {p : R → Bool} {f : R → R} {ids : List ℕ} {i : ℕ}

@[simp] theorem current_flush (s : Session R) : s.flush.current = s.current := rfl

@[simp] theorem stored_flush (s : Session R) : s.flush.stored = s.current := rfl

@[simp] theorem stored_update (ids : List ℕ) (f : R → R) (s : Session R) : (s.update ids f).stored = s.stored := rfl

/-- A change in memory, row by row. -/
theorem current_update (ids : List ℕ) (f : R → R) (s : Session R) (i : ℕ) : (s.update ids f).current[i]? =
    (s.current[i]?).map fun r => if i ∈ ids then f r else r := List.getElem?_mapIdx

/-- A query finds a row by what is stored of it. -/
theorem mem_select : i ∈ s.select p ↔ ∃ r, s.stored[i]? = some r ∧ p r = true := Table.mem_idsWhere

end

end Session

end UnitOfWork
