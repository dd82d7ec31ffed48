import Mathlib.Algebra.Order.Field.Basic
import Mathlib.Algebra.BigOperators.Ring.List
import Mathlib.Algebra.Order.BigOperators.Group.List
import Mathlib.Tactic.Linarith
import Mathlib.Tactic.Positivity

/-! The weighted mean of the components that are present: a missing component drops out with
its weight, and the mean of what is left is monotone in every value. -/

namespace WeightedMean

variable {K : Type*} [Field K] [LinearOrder K]

/-- The components with a value and a positive weight. -/
def present (pairs : List (Option K × K)) : List (K × K) :=
  pairs.filterMap fun p => p.1.bind fun v => if 0 < p.2 then some (v, p.2) else none

def blend (pairs : List (Option K × K)) : Option K :=
  let ps := present pairs
  let total := (ps.map Prod.snd).sum
  if ps = [] ∨ total ≤ 0 then none
  else some ((ps.map fun p => p.1 * p.2).sum / total)

theorem present_cons_none (w : K) (pairs : List (Option K × K)) : present ((none, w) :: pairs) = present pairs := rfl

theorem present_cons_of_pos {w : K} (hw : 0 < w) (v : K) (pairs : List (Option K × K)) :
    present ((some v, w) :: pairs) = (v, w) :: present pairs := by
  unfold present
  rw [List.filterMap_cons, Option.bind_some, if_pos hw]

theorem present_cons_of_not_pos {w : K} (hw : ¬ 0 < w) (v : Option K) (pairs : List (Option K × K)) :
    present ((v, w) :: pairs) = present pairs := by
  cases v with
  | none => rfl
  | some v =>
    unfold present
    rw [List.filterMap_cons, Option.bind_some, if_neg hw]

theorem present_cons_congr (p : Option K × K) {ps qs : List (Option K × K)} (h : present ps = present qs) :
    present (p :: ps) = present (p :: qs) := by
  unfold present at h ⊢
  rw [List.filterMap_cons, List.filterMap_cons, h]

theorem pos_of_present {pairs : List (Option K × K)} {p : K × K} (h : p ∈ present pairs) : 0 < p.2 := by
  obtain ⟨⟨v, w⟩, -, hp⟩ := List.mem_filterMap.mp h
  cases v with
  | none => cases hp
  | some v =>
    rw [Option.bind_some] at hp
    split_ifs at hp with hw
    cases hp
    exact hw

/-- Same components present, same weights, no value lower. -/
def Below (p q : Option K × K) : Prop :=
  p.2 = q.2 ∧ p.1.isSome = q.1.isSome ∧ ∀ v ∈ p.1, ∀ w ∈ q.1, v ≤ w

theorem present_weights {ps qs : List (Option K × K)} (h : List.Forall₂ Below ps qs) :
    (present ps).map Prod.snd = (present qs).map Prod.snd := by
  induction h with
  | nil => rfl
  | @cons p q ps qs hpq _ ih =>
    obtain ⟨pv, pw⟩ := p
    obtain ⟨qv, qw⟩ := q
    obtain ⟨rfl, hsome, -⟩ := hpq
    unfold present at ih
    cases pv with
    | none =>
      cases qv with
      | none => simpa [present] using ih
      | some w => simp at hsome
    | some v =>
      cases qv with
      | none => simp at hsome
      | some w => by_cases hw : 0 < pw <;> simpa [present, hw] using ih

theorem blend_isSome_congr {ps qs : List (Option K × K)} (h : List.Forall₂ Below ps qs) :
    (blend ps).isSome = (blend qs).isSome := by
  have hw := present_weights h
  have hnil : present ps = [] ↔ present qs = [] := by
    rw [← List.map_eq_nil_iff (f := Prod.snd), hw, List.map_eq_nil_iff]
  unfold blend
  simp only [hnil, hw]
  split_ifs <;> rfl

variable [IsStrictOrderedRing K]

theorem sum_le_of_below {ps qs : List (Option K × K)} (h : List.Forall₂ Below ps qs) :
    ((present ps).map fun p => p.1 * p.2).sum ≤ ((present qs).map fun p => p.1 * p.2).sum := by
  induction h with
  | nil => rfl
  | @cons p q ps qs hpq _ ih =>
    obtain ⟨pv, pw⟩ := p
    obtain ⟨qv, qw⟩ := q
    obtain ⟨rfl, hsome, hle⟩ := hpq
    cases pv with
    | none =>
      cases qv with
      | none => simpa [present] using ih
      | some w => simp at hsome
    | some v =>
      cases qv with
      | none => simp at hsome
      | some w =>
        have hvw : v ≤ w := hle v rfl w rfl
        by_cases hw : 0 < pw
        · have hmul := mul_le_mul_of_nonneg_right hvw hw.le
          simpa [present, hw] using add_le_add hmul ih
        · simpa [present, hw] using ih

theorem total_pos {ps : List (K × K)} (h : ∀ p ∈ ps, 0 < p.2) (hne : ps ≠ []) : 0 < (ps.map Prod.snd).sum := by
  refine List.sum_pos _ (fun w hw => ?_) (fun hnil => hne (List.map_eq_nil_iff.mp hnil))
  obtain ⟨p, hp, rfl⟩ := List.mem_map.mp hw
  exact h p hp

theorem blend_of_present {pairs : List (Option K × K)} (h : present pairs ≠ []) : blend pairs =
    some (((present pairs).map fun p => p.1 * p.2).sum / ((present pairs).map Prod.snd).sum) := by
  have htotal : 0 < ((present pairs).map Prod.snd).sum := total_pos (fun p => pos_of_present) h
  unfold blend
  rw [if_neg]
  push Not
  exact ⟨h, htotal⟩

omit [IsStrictOrderedRing K] in
theorem blend_of_absent {pairs : List (Option K × K)} (h : present pairs = []) : blend pairs = none := by
  unfold blend
  rw [if_pos (.inl h)]

omit [IsStrictOrderedRing K] in
/-- Only the components that are present count. -/
theorem blend_congr {ps qs : List (Option K × K)} (h : present ps = present qs) : blend ps = blend qs := by
  unfold blend
  rw [h]

/-- A common factor of the weights cancels. -/
theorem blend_scale {c : K} (hc : 0 < c) (pairs : List (Option K × K)) :
    blend (pairs.map fun p => (p.1, c * p.2)) = blend pairs := by
  have hpresent : present (pairs.map fun p => (p.1, c * p.2)) = (present pairs).map fun p => (p.1, c * p.2) := by
    induction pairs with
    | nil => rfl
    | cons p pairs ih =>
      obtain ⟨v, w⟩ := p
      rw [List.map_cons]
      by_cases hw : 0 < w
      · cases v with
        | none => exact ih
        | some v => rw [present_cons_of_pos hw, present_cons_of_pos (mul_pos hc hw), List.map_cons, ih]
      · have hcw : ¬ 0 < c * w := fun h => hw (pos_of_mul_pos_right h hc.le)
        rw [present_cons_of_not_pos hw, present_cons_of_not_pos hcw, ih]
  by_cases hnil : present pairs = []
  · rw [blend_of_absent hnil, blend_of_absent (by rw [hpresent, hnil, List.map_nil])]
  · have hne : present (pairs.map fun p => (p.1, c * p.2)) ≠ [] := by
      rw [hpresent]
      exact fun h => hnil (List.map_eq_nil_iff.mp h)
    have hsum : ((present pairs).map fun p => p.1 * (c * p.2)).sum = c * ((present pairs).map fun p => p.1 * p.2).sum := by
      rw [← List.sum_map_mul_left]
      exact congrArg List.sum (List.map_congr_left fun p _ => mul_left_comm _ _ _)
    have htotal : ((present pairs).map fun p => c * p.2).sum = c * ((present pairs).map Prod.snd).sum :=
      List.sum_map_mul_left _ _ _
    rw [blend_of_present hne, blend_of_present hnil, hpresent, List.map_map, List.map_map]
    change some (((present pairs).map fun p => p.1 * (c * p.2)).sum / ((present pairs).map fun p => c * p.2).sum) = _
    rw [hsum, htotal, mul_div_mul_left _ _ hc.ne']

/-- The mean of equal values is that value. -/
theorem blend_const {v : K} {pairs : List (Option K × K)} (hne : present pairs ≠ [])
    (h : ∀ p ∈ present pairs, p.1 = v) : blend pairs = some v := by
  have htotal : 0 < ((present pairs).map Prod.snd).sum := total_pos (fun p => pos_of_present) hne
  have hsum : ((present pairs).map fun p => p.1 * p.2).sum = v * ((present pairs).map Prod.snd).sum := by
    rw [← List.sum_map_mul_left]
    exact congrArg List.sum (List.map_congr_left fun p hp => by rw [h p hp])
  rw [blend_of_present hne, hsum, mul_div_cancel_right₀ _ htotal.ne']

/-- The blend is monotone. -/
theorem blend_mono {ps qs : List (Option K × K)} (h : List.Forall₂ Below ps qs) {v w : K}
    (hv : blend ps = some v) (hw : blend qs = some w) : v ≤ w := by
  unfold blend at hv hw
  simp only at hv hw
  split_ifs at hv with h1
  split_ifs at hw with h2
  cases hv
  cases hw
  push Not at h1
  rw [← present_weights h]
  exact div_le_div_of_nonneg_right (sum_le_of_below h) h1.2.le

omit [IsStrictOrderedRing K] [Field K] in
theorem below_of_rel {v v' : Option K} (h : Option.Rel (· ≤ ·) v v') (w : K) : Below (v, w) (v', w) := by
  cases h with
  | some hle => exact ⟨rfl, rfl, fun _ hv _ hw => by cases hv; cases hw; exact hle⟩
  | none => exact ⟨rfl, rfl, fun _ hv => by cases hv⟩

/-- Both means are missing, or the first is no higher. -/
theorem blend_rel {ps qs : List (Option K × K)} (h : List.Forall₂ Below ps qs) :
    Option.Rel (· ≤ ·) (blend ps) (blend qs) := by
  have hsome := blend_isSome_congr h
  rcases hp : blend ps with _ | v
  · rcases hq : blend qs with _ | w
    · exact .none
    · rw [hp, hq] at hsome
      cases hsome
  · rcases hq : blend qs with _ | w
    · rw [hp, hq] at hsome
      cases hsome
    · exact .some (blend_mono h hp hq)

end WeightedMean
