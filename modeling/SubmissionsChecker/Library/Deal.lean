import Mathlib.Algebra.Order.BigOperators.Group.List
import Mathlib.Data.Int.CardIntervalMod
import Mathlib.Data.List.Perm.Subperm
import Mathlib.Data.List.Sort

/-! Dealing a list round-robin into `n` hands. The hands share the list out; a hand can be dealt any of the
elements, so the least it can be worth is what as many of the cheapest elements are worth together. -/

namespace Deal

section

variable {α β : Type*}

/-- What hand `m` of `n` gets when `l` is dealt from position `s` on. -/
def hand (n m s : ℕ) (l : List α) : List α := ((l.zipIdx s).filter fun p => p.2 % n == m).map (·.1)

/-- How many of `k` positions from `s` on are hand `m`'s. -/
def dealt (n m s k : ℕ) : ℕ := (List.range' s k).countP (· % n == m)

variable {n m s k : ℕ} {l : List α}

@[simp] theorem hand_nil : hand n m s ([] : List α) = [] := rfl

theorem hand_cons (a : α) (l : List α) :
    hand n m s (a :: l) = if s % n = m then a :: hand n m (s + 1) l else hand n m (s + 1) l := by
  unfold hand
  rw [List.zipIdx_cons, List.filter_cons]
  split_ifs with h₁ h₂ h₂
  · rfl
  · exact absurd (by simpa using h₁) h₂
  · exact absurd (by simpa using h₂) h₁
  · rfl

theorem dealt_succ : dealt n m s (k + 1) = (if s % n = m then 1 else 0) + dealt n m (s + 1) k := by
  unfold dealt
  rw [List.range'_succ, List.countP_cons, Nat.add_comm]
  simp only [beq_iff_eq]

theorem dealt_le : dealt n m s k ≤ k := by
  have h := List.countP_le_length (p := fun i => i % n == m) (l := List.range' s k)
  rwa [List.length_range'] at h

theorem dealt_zero_succ : dealt n m 0 (k + 1) = dealt n m 0 k + if k % n = m then 1 else 0 := by
  unfold dealt
  rw [List.range'_concat, List.countP_append, List.countP_singleton, Nat.zero_add, Nat.one_mul]
  simp only [beq_iff_eq]

theorem dealt_eq_count (hm : m < n) (k : ℕ) : dealt n m 0 k = k.count (· ≡ m [MOD n]) := by
  induction k with
  | zero => rfl
  | succ k ih =>
    rw [dealt_zero_succ, Nat.count_succ, ih]
    have hmod : k ≡ m [MOD n] ↔ k % n = m := by rw [Nat.ModEq, Nat.mod_eq_of_lt hm]
    simp only [hmod]

/-- Every hand gets its share of the full rounds, and the first hands one more. -/
theorem dealt_zero (hm : m < n) (k : ℕ) : dealt n m 0 k = k / n + if m < k % n then 1 else 0 := by
  have hn : 0 < n := Nat.zero_lt_of_lt hm
  rw [dealt_eq_count hm, Nat.count_modEq_card k hn, Nat.mod_eq_of_lt hm]

/-- No hand is more than one ahead of another. -/
theorem dealt_balanced {m' : ℕ} (hm : m < n) (hm' : m' < n) (k : ℕ) : dealt n m 0 k ≤ dealt n m' 0 k + 1 := by
  rw [dealt_zero hm, dealt_zero hm']
  split_ifs <;> omega

theorem length_hand (s : ℕ) (l : List α) : (hand n m s l).length = dealt n m s l.length := by
  induction l generalizing s with
  | nil => rfl
  | cons a l ih =>
    rw [hand_cons, List.length_cons, dealt_succ]
    split_ifs
    · rw [List.length_cons, ih, Nat.add_comm]
    · rw [ih, Nat.zero_add]

theorem hand_append (l l' : List α) : hand n m s (l ++ l') = hand n m s l ++ hand n m (s + l.length) l' := by
  unfold hand
  rw [List.zipIdx_append, List.filter_append, List.map_append]

theorem hand_map (f : α → β) (s : ℕ) (l : List α) : hand n m s (l.map f) = (hand n m s l).map f := by
  induction l generalizing s with
  | nil => rfl
  | cons a l ih =>
    rw [List.map_cons, hand_cons, hand_cons, ih]
    split_ifs <;> rfl

theorem hand_sublist (s : ℕ) (l : List α) : (hand n m s l).Sublist l := by
  induction l generalizing s with
  | nil => exact .slnil
  | cons a l ih =>
    rw [hand_cons]
    split_ifs
    · exact (ih (s + 1)).cons_cons a
    · exact (ih (s + 1)).cons a

theorem hands_disjoint {m' : ℕ} (hne : m ≠ m') (s : ℕ) (hl : l.Nodup) : (hand n m s l).Disjoint (hand n m' s l) := by
  induction l generalizing s with
  | nil => exact List.disjoint_nil_left _
  | cons a l ih =>
    rw [List.nodup_cons] at hl
    have hrest := ih (s + 1) hl.2
    have hnot : ∀ m, a ∉ hand n m (s + 1) l := fun m hmem => hl.1 ((hand_sublist (s + 1) l).subset hmem)
    rw [hand_cons, hand_cons]
    split_ifs with hm hm' hm'
    · exact absurd (hm.symm.trans hm') hne
    · exact List.disjoint_cons_left.mpr ⟨hnot m', hrest⟩
    · exact List.disjoint_cons_right.mpr ⟨hnot m, hrest⟩
    · exact hrest

/-- Nothing is kept back and nothing dealt twice. -/
theorem flatMap_hands_perm (hn : 0 < n) (s : ℕ) (l : List α) : ((List.range n).flatMap fun m => hand n m s l).Perm l := by
  induction l generalizing s with
  | nil => simp
  | cons a l ih =>
    have hnext : ∀ (r : List ℕ) (f : ℕ → List α), r.Nodup → s % n ∈ r →
        (r.flatMap fun m => if s % n = m then a :: f m else f m).Perm (a :: r.flatMap f) := by
      intro r f hr hmem
      induction r with
      | nil => cases hmem
      | cons x r ihr =>
        rw [List.nodup_cons] at hr
        rw [List.flatMap_cons, List.flatMap_cons]
        by_cases hx : s % n = x
        · have hrest : (r.flatMap fun m => if s % n = m then a :: f m else f m) = r.flatMap f := by
            refine List.flatMap_congr fun m hm => if_neg fun heq => hr.1 ?_
            rwa [← hx, heq]
          rw [if_pos hx, hrest]
          rfl
        · rw [if_neg hx]
          have hrest := ihr hr.2 ((List.mem_cons.mp hmem).resolve_left hx)
          exact (hrest.append_left (f x)).trans List.perm_middle
    have hcards : (fun m => hand n m s (a :: l)) = fun m => if s % n = m then a :: hand n m (s + 1) l else hand n m (s + 1) l :=
      funext fun m => hand_cons a l
    rw [hcards]
    exact (hnext _ _ List.nodup_range (List.mem_range.mpr (Nat.mod_lt s hn))).trans ((ih (s + 1)).cons a)

/-- Any elements of the right number can be dealt to a hand. -/
theorem exists_dealt (A B : List α) (hA : A.length = dealt n m s k) (hk : A.length + B.length = k) :
    ∃ l : List α, l.Perm (A ++ B) ∧ hand n m s l = A := by
  induction k generalizing s A B with
  | zero =>
    obtain rfl : A = [] := List.length_eq_zero_iff.mp (by omega)
    obtain rfl : B = [] := List.length_eq_zero_iff.mp (by omega)
    exact ⟨[], .refl _, rfl⟩
  | succ k ih =>
    rw [dealt_succ] at hA
    by_cases hs : s % n = m
    · rw [if_pos hs] at hA
      obtain ⟨a, A, rfl⟩ := List.exists_cons_of_length_pos (l := A) (by omega)
      rw [List.length_cons] at hA hk
      obtain ⟨l, hl, hhand⟩ := ih (s := s + 1) A B (by omega) (by omega)
      exact ⟨a :: l, hl.cons a, by rw [hand_cons, if_pos hs, hhand]⟩
    · rw [if_neg hs] at hA
      have hle := dealt_le (n := n) (m := m) (s := s + 1) (k := k)
      obtain ⟨b, B, rfl⟩ := List.exists_cons_of_length_pos (l := B) (by omega)
      rw [List.length_cons] at hk
      obtain ⟨l, hl, hhand⟩ := ih (s := s + 1) A B (by omega) (by omega)
      exact ⟨b :: l, (hl.cons b).trans List.perm_middle.symm, by rw [hand_cons, if_neg hs, hhand]⟩

/-- So a hand can be dealt the first elements of any list. -/
theorem exists_hand (n m s : ℕ) (l : List α) :
    ∃ l' : List α, l'.Perm l ∧ hand n m s l' = l.take (dealt n m s l.length) := by
  have hle : dealt n m s l.length ≤ l.length := dealt_le
  obtain ⟨l', hl', hhand⟩ := exists_dealt (n := n) (m := m) (s := s) (k := l.length)
    (l.take (dealt n m s l.length)) (l.drop (dealt n m s l.length))
    (by rw [List.length_take]; omega) (by rw [List.length_take, List.length_drop]; omega)
  rw [List.take_append_drop] at hl'
  exact ⟨l', hl', hhand⟩

end

/-! The worth of a hand -/

section

variable {M : Type*} [AddCommMonoid M] [LinearOrder M] [IsOrderedAddMonoid M] {α : Type*}

/-- What the `k` cheapest of some elements are worth together. -/
def cheapest (k : ℕ) (worths : List M) : M := ((worths.insertionSort (· ≤ ·)).take k).sum

theorem sum_take_le {l t : List M} (hl : l.Pairwise (· ≤ ·)) (ht : t.Subperm l) : (l.take t.length).sum ≤ t.sum := by
  induction l generalizing t with
  | nil =>
    rw [List.subperm_nil.mp ht]
    exact le_rfl
  | cons a l ih =>
    rw [List.pairwise_cons] at hl
    by_cases ha : a ∈ t
    · -- the cheapest is in the hand
      have hperm : t.Perm (a :: t.erase a) := List.perm_cons_erase ha
      have hrest : (t.erase a).Subperm l := (List.subperm_cons a).mp (hperm.symm.subperm.trans ht)
      rw [hperm.length_eq, hperm.sum_eq, List.length_cons, List.take_succ_cons, List.sum_cons, List.sum_cons]
      exact add_le_add_right (ih hl.2 hrest) a
    · -- it is not, and any other is worth as much
      obtain ⟨t', hperm, hsub⟩ := ht
      have hin : t.Subperm l := by
        cases hsub with
        | cons _ hsub => exact ⟨t', hperm, hsub⟩
        | cons_cons _ hsub => exact absurd (hperm.subset List.mem_cons_self) ha
      rcases t with _ | ⟨b, t⟩
      · simp
      · have hb : a ≤ b := hl.1 b (hin.subset List.mem_cons_self)
        have hrest : t.Subperm l := (List.sublist_cons_self b t).subperm.trans hin
        rw [List.length_cons, List.take_succ_cons, List.sum_cons, List.sum_cons]
        exact add_le_add hb (ih hl.2 hrest)

/-- No hand is worth less. -/
theorem cheapest_le {l t : List M} (ht : t.Subperm l) : cheapest t.length l ≤ t.sum :=
  sum_take_le (List.pairwise_insertionSort (· ≤ ·) l) (ht.trans (List.perm_insertionSort (· ≤ ·) l).symm.subperm)

omit [IsOrderedAddMonoid M] in
/-- The cheapest hand is dealt from some order of the elements, the `k` cheapest of them first. -/
theorem exists_cheapest (n m s k : ℕ) (worth : α → M) (l : List α) (hk : k ≤ l.length) :
    ∃ l' : List α, l'.Perm ((l.insertionSort fun a b => worth a ≤ worth b).take k) ∧
      ((hand n m s l').map worth).sum = cheapest (dealt n m s k) (l.map worth) := by
  have hlen : ((l.insertionSort fun a b => worth a ≤ worth b).take k).length = k := by
    rw [List.length_take, List.length_insertionSort]
    omega
  obtain ⟨l', hl', hhand⟩ := exists_hand n m s ((l.insertionSort fun a b => worth a ≤ worth b).take k)
  refine ⟨l', hl', ?_⟩
  have hle : dealt n m s k ≤ k := dealt_le
  rw [hhand, hlen, List.take_take, Nat.min_eq_left hle, List.map_take, cheapest,
    List.map_insertionSort (fun a b => worth a ≤ worth b) (· ≤ ·) worth l fun _ _ _ _ => Iff.rfl]

end

end Deal
