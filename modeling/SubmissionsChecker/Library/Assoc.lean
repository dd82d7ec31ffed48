import Mathlib.Data.List.Basic
import Mathlib.Logic.Function.Basic

/-! Dictionaries as association lists with one entry a key. -/

namespace Assoc

variable {K V : Type*} [DecidableEq K]

/-- `d[k] = v`. -/
def set (k : K) (v : V) (d : List (K × V)) : List (K × V) := (k, v) :: d.filter fun e => e.1 != k

/-- `d[k] = v` where the order of the entries matters: in the place of the key, or at the end. -/
def put (k : K) (v : V) : List (K × V) → List (K × V)
  | [] => [(k, v)]
  | e :: rest => if e.1 = k then (k, v) :: rest else e :: put k v rest

theorem lookup_filter_ne {k j : K} (h : j ≠ k) (d : List (K × V)) :
    (d.filter fun e => e.1 != k).lookup j = d.lookup j := by
  induction d with
  | nil => rfl
  | cons e d ih =>
    obtain ⟨a, v⟩ := e
    by_cases ha : a = k
    · have hj : (j == a) = false := by simpa [ha] using h
      simp [ha, List.lookup_cons, ih, ha ▸ hj]
    · simp [ha, List.lookup_cons, ih]

theorem lookup_set (k j : K) (v : V) (d : List (K × V)) :
    (set k v d).lookup j = if j = k then some v else d.lookup j := by
  unfold set
  rw [List.lookup_cons]
  by_cases h : j = k
  · simp [h]
  · rw [lookup_filter_ne h, if_neg h, beq_false_of_ne h]

theorem mem_of_lookup {k : K} {v : V} {d : List (K × V)} (h : d.lookup k = some v) : (k, v) ∈ d := by
  obtain ⟨l₁, l₂, rfl, -⟩ := List.lookup_eq_some_iff.mp h
  simp

/-- With one entry a key the entry found is the only one. -/
theorem lookup_of_mem {k : K} {v : V} {d : List (K × V)} (hd : (d.map (·.1)).Nodup) (h : (k, v) ∈ d) :
    d.lookup k = some v := by
  induction d with
  | nil => cases h
  | cons e d ih =>
    obtain ⟨a, w⟩ := e
    rw [List.map_cons, List.nodup_cons] at hd
    rcases List.mem_cons.mp h with he | h
    · obtain ⟨rfl, rfl⟩ := Prod.mk.inj he
      simp
    · have hne : k ≠ a := by
        intro ha
        apply hd.1
        exact List.mem_map.mpr ⟨(k, v), h, ha⟩
      rw [List.lookup_cons, beq_false_of_ne hne]
      exact ih hd.2 h

theorem lookup_none_iff {k : K} {d : List (K × V)} : d.lookup k = none ↔ k ∉ d.map (·.1) := by
  rw [List.lookup_eq_none_iff]
  simp only [List.mem_map, not_exists, not_and, bne_iff_ne, ne_eq]
  constructor
  · intro h e he heq
    exact h e he heq.symm
  · intro h e he heq
    exact h e he heq.symm

section

variable {k j : K} {v : V} {d : List (K × V)}

theorem lookup_put (k j : K) (v : V) (d : List (K × V)) :
    (put k v d).lookup j = if j = k then some v else d.lookup j := by
  induction d with
  | nil =>
    by_cases h : j = k
    · simp [put, h]
    · simp [put, h, List.lookup_cons, beq_false_of_ne h]
  | cons e d ih =>
    obtain ⟨a, w⟩ := e
    unfold put
    by_cases ha : a = k
    · subst ha
      by_cases h : j = a
      · simp [h]
      · simp [h, List.lookup_cons, beq_false_of_ne h]
    · rw [if_neg ha, List.lookup_cons, List.lookup_cons]
      by_cases hja : j = a
      · subst hja
        simp [ha]
      · simp [beq_false_of_ne hja, ih]

theorem mem_keys_put : j ∈ (put k v d).map (·.1) ↔ j = k ∨ j ∈ d.map (·.1) := by
  rw [← not_iff_not, ← Assoc.lookup_none_iff, lookup_put]
  by_cases h : j = k
  · simp [h]
  · rw [if_neg h, Assoc.lookup_none_iff]
    simp [h]

theorem mem_put {e : K × V} (h : e ∈ put k v d) : e = (k, v) ∨ e ∈ d := by
  induction d with
  | nil => exact .inl (List.mem_singleton.mp h)
  | cons a d ih =>
    unfold put at h
    split_ifs at h with ha
    · rcases List.mem_cons.mp h with rfl | h
      · exact .inl rfl
      · exact .inr (List.mem_cons_of_mem _ h)
    · rcases List.mem_cons.mp h with rfl | h
      · exact .inr List.mem_cons_self
      · rcases ih h with heq | h
        · exact .inl heq
        · exact .inr (List.mem_cons_of_mem _ h)

theorem put_of_not_mem (h : k ∉ d.map (·.1)) : put k v d = d ++ [(k, v)] := by
  induction d with
  | nil => rfl
  | cons e d ih =>
    rw [List.map_cons, List.mem_cons, not_or] at h
    unfold put
    rw [if_neg (Ne.symm h.1), ih h.2, List.cons_append]

/-- Writes of new keys, one a key, are the entries in their order. -/
theorem foldl_put_of_nodup {entries : List (K × V)} (h : (entries.map (·.1)).Nodup) :
    entries.foldl (fun d e => put e.1 e.2 d) [] = entries := by
  have hloop : ∀ (entries d : List (K × V)), ((d ++ entries).map (·.1)).Nodup →
      entries.foldl (fun d e => put e.1 e.2 d) d = d ++ entries := by
    intro entries
    induction entries with
    | nil => exact fun d _ => (List.append_nil d).symm
    | cons e entries ih =>
      intro d hd
      have hnew : e.1 ∉ d.map (·.1) := by
        rw [List.map_append, List.map_cons, List.nodup_append] at hd
        exact fun hmem => hd.2.2 _ hmem _ List.mem_cons_self rfl
      rw [List.foldl_cons, put_of_not_mem hnew, ih, List.append_assoc, List.singleton_append]
      rwa [List.append_assoc, List.singleton_append]
  exact hloop entries [] h

theorem nodup_put (h : (d.map (·.1)).Nodup) : ((put k v d).map (·.1)).Nodup := by
  induction d with
  | nil => simp [put]
  | cons e d ih =>
    rw [List.map_cons, List.nodup_cons] at h
    unfold put
    split_ifs with he
    · rw [List.map_cons, List.nodup_cons]
      exact ⟨he ▸ h.1, h.2⟩
    · rw [List.map_cons, List.nodup_cons]
      refine ⟨fun hmem => ?_, ih h.2⟩
      rcases mem_keys_put.mp hmem with hk | hold
      · exact he hk
      · exact h.1 hold

end

/-- A fold of writes, read at a key that none of them has. -/
theorem lookup_foldl_set_of_not_mem {k : K} {entries : List (K × V)} (h : ∀ e ∈ entries, e.1 ≠ k) (d : List (K × V)) :
    (entries.foldl (fun d e => set e.1 e.2 d) d).lookup k = d.lookup k := by
  induction entries generalizing d with
  | nil => rfl
  | cons e entries ih =>
    rw [List.forall_mem_cons] at h
    rw [List.foldl_cons, ih h.2, lookup_set, if_neg (Ne.symm h.1)]

/-- Read at a key that all its writes give the same value. -/
theorem lookup_foldl_set_of_mem {k : K} {v : V} {entries : List (K × V)} (h : ∃ e ∈ entries, e.1 = k)
    (hv : ∀ e ∈ entries, e.1 = k → e.2 = v) (d : List (K × V)) :
    (entries.foldl (fun d e => set e.1 e.2 d) d).lookup k = some v := by
  induction entries generalizing d with
  | nil =>
    obtain ⟨e, he, -⟩ := h
    cases he
  | cons e entries ih =>
    rw [List.forall_mem_cons] at hv
    rw [List.foldl_cons]
    by_cases hrest : ∃ e' ∈ entries, e'.1 = k
    · exact ih hrest hv.2 _
    · have hhead : e.1 = k := by
        obtain ⟨e', he', hk⟩ := h
        rcases List.mem_cons.mp he' with rfl | he'
        · exact hk
        · exact absurd ⟨e', he', hk⟩ hrest
      rw [lookup_foldl_set_of_not_mem fun e' he' hk => hrest ⟨e', he', hk⟩, lookup_set, if_pos hhead.symm, hv.1 hhead]

section

variable {Change : Type*} (change : V → Change → V)

/-- Changes to other keys leave an entry. -/
theorem foldl_change_of_not_mem {k : K} {changes : List (K × Change)} (h : k ∉ changes.map (·.1)) (v : V) :
    changes.foldl (fun v c => if c.1 = k then change v c.2 else v) v = v := by
  induction changes generalizing v with
  | nil => rfl
  | cons c changes ih =>
    rw [List.map_cons, List.mem_cons, not_or] at h
    rw [List.foldl_cons, if_neg (Ne.symm h.1)]
    exact ih h.2 v

/-- With one change a key, an entry gets its own. -/
theorem foldl_change_of_mem {k : K} {c : Change} {changes : List (K × Change)} (hd : (changes.map (·.1)).Nodup)
    (h : (k, c) ∈ changes) (v : V) :
    changes.foldl (fun v c => if c.1 = k then change v c.2 else v) v = change v c := by
  induction changes generalizing v with
  | nil => cases h
  | cons e changes ih =>
    rw [List.map_cons, List.nodup_cons] at hd
    rw [List.foldl_cons]
    rcases List.mem_cons.mp h with rfl | h
    · rw [if_pos rfl]
      exact foldl_change_of_not_mem change hd.1 _
    · have hne : e.1 ≠ k := by
        intro he
        rw [he] at hd
        exact hd.1 (List.mem_map_of_mem h)
      rw [if_neg hne]
      exact ih hd.2 h v

end

/-! Functions updated entry by entry -/

section

variable {α : Type*} {key : α → K} {value : α → V}

theorem foldl_update_of_not_mem {k : K} {entries : List α} (h : k ∉ entries.map key) (g : K → V) :
    entries.foldl (fun g e => Function.update g (key e) (value e)) g k = g k := by
  induction entries generalizing g with
  | nil => rfl
  | cons e entries ih =>
    rw [List.map_cons, List.mem_cons, not_or] at h
    rw [List.foldl_cons, ih h.2, Function.update_of_ne h.1]

theorem foldl_update_of_mem {e : α} {entries : List α} (hd : (entries.map key).Nodup) (h : e ∈ entries) (g : K → V) :
    entries.foldl (fun g e => Function.update g (key e) (value e)) g (key e) = value e := by
  induction entries generalizing g with
  | nil => cases h
  | cons e' entries ih =>
    rw [List.map_cons, List.nodup_cons] at hd
    rw [List.foldl_cons]
    rcases List.mem_cons.mp h with rfl | h
    · rw [foldl_update_of_not_mem hd.1, Function.update_self]
    · exact ih hd.2 h _

end

/-- A fold of writes, each to one field, read at one of them. -/
theorem foldl_write {Row Field Value : Type*} [DecidableEq Field] {write : Row → Field → Row} (read : Row → Value)
    (x : Field) (v : Value) (h : ∀ row y, read (write row y) = if y = x then v else read row) (fields : List Field)
    (row : Row) : read (fields.foldl write row) = if x ∈ fields then v else read row := by
  induction fields generalizing row with
  | nil => simp
  | cons y fields ih =>
    rw [List.foldl_cons, ih, h]
    by_cases hx : x ∈ fields
    · simp [hx]
    · by_cases hy : y = x
      · simp [hy]
      · simp [hx, hy, Ne.symm hy]

end Assoc
