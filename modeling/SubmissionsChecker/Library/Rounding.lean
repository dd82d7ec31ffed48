import Mathlib.Algebra.Order.Floor.Ring
import Mathlib.Data.Rat.Floor
import Mathlib.Tactic.Linarith
import Mathlib.Tactic.Positivity
import Mathlib.Tactic.FieldSimp

/-! Rounding to integers and to a fixed number of digits: half to even, half away from zero
and up. Every rule is monotone and fixes the integers. -/

namespace Rounding

variable {K : Type*} [Field K] [LinearOrder K] [IsStrictOrderedRing K] [FloorRing K]

/-- Half to even. -/
def halfEven (x : K) : ℤ :=
  if x - ⌊x⌋ < 1 / 2 then ⌊x⌋
  else if 1 / 2 < x - ⌊x⌋ then ⌊x⌋ + 1
  else if ⌊x⌋ % 2 = 0 then ⌊x⌋ else ⌊x⌋ + 1

/-- Half away from zero. -/
def halfUp (x : K) : ℤ :=
  if 0 ≤ x then ⌊x + 1 / 2⌋ else -⌊-x + 1 / 2⌋

/-- `round(x, n)` with the factor `10 ^ n` given. -/
def halfEvenTo (scale : ℤ) (x : K) : K := halfEven (x * scale) / scale

omit [IsStrictOrderedRing K] in
theorem floor_le_halfEven (x : K) : ⌊x⌋ ≤ halfEven x := by
  unfold halfEven; split_ifs <;> omega

omit [IsStrictOrderedRing K] in
theorem halfEven_le_floor_add_one (x : K) : halfEven x ≤ ⌊x⌋ + 1 := by
  unfold halfEven; split_ifs <;> omega

theorem halfEven_eq_floor_or (x : K) : halfEven x = ⌊x⌋ ∨ halfEven x = ⌊x⌋ + 1 ∧ ⌊x⌋ + 1 / 2 ≤ x := by
  unfold halfEven
  split_ifs with hlow hhigh heven
  · exact .inl rfl
  · refine .inr ⟨rfl, ?_⟩
    rw [add_comm, ← le_sub_iff_add_le]
    exact hhigh.le
  · exact .inl rfl
  · refine .inr ⟨rfl, ?_⟩
    rw [add_comm, ← le_sub_iff_add_le]
    exact not_lt.mp hlow

theorem halfEven_le_ceil (x : K) : halfEven x ≤ ⌈x⌉ := by
  rcases halfEven_eq_floor_or x with hn | ⟨hn, hx⟩
  · rw [hn]
    exact Int.floor_le_ceil x
  · rw [hn]
    refine Int.add_one_le_iff.mpr (Int.lt_ceil.mpr ?_)
    exact lt_of_lt_of_le (lt_add_of_pos_right _ one_half_pos) hx

theorem halfEven_mono {x y : K} (h : x ≤ y) : halfEven x ≤ halfEven y := by
  rcases (Int.floor_mono h).lt_or_eq with hlt | heq
  · have h1 := halfEven_le_floor_add_one x
    have h2 := floor_le_halfEven y
    omega
  · unfold halfEven
    rw [← heq]
    split_ifs <;> first | omega | (exfalso; linarith)

theorem halfEven_intCast (n : ℤ) : halfEven (n : K) = n := by
  simp [halfEven]

theorem halfEvenTo_intCast {scale : ℤ} (hs : 0 < scale) (n : ℤ) : halfEvenTo scale (n : K) = n := by
  have hs' : (scale : K) ≠ 0 := by exact_mod_cast hs.ne'
  unfold halfEvenTo
  rw [← Int.cast_mul, halfEven_intCast, Int.cast_mul, mul_div_cancel_right₀ _ hs']

theorem halfEvenTo_mono {scale : ℤ} (hs : 0 < scale) {x y : K} (h : x ≤ y) :
    halfEvenTo scale x ≤ halfEvenTo scale y := by
  have hs' : (0 : K) < scale := by exact_mod_cast hs
  unfold halfEvenTo
  rw [div_le_div_iff_of_pos_right hs']
  exact_mod_cast halfEven_mono (mul_le_mul_of_nonneg_right h hs'.le)

/-- Rounding to digits first does not take a value that is rounded up below its nearest integer. -/
theorem halfEven_le_ceil_halfEvenTo {h : ℤ} (hh : 0 < h) (x : K) : halfEven x ≤ ⌈halfEvenTo (2 * h) x⌉ := by
  have hscale : 0 < 2 * h := by omega
  rcases halfEven_eq_floor_or x with hn | ⟨hn, hx⟩
  · have hle := halfEvenTo_mono hscale (Int.floor_le x)
    rw [halfEvenTo_intCast hscale] at hle
    rw [hn]
    exact Int.cast_le.mp (hle.trans (Int.le_ceil _))
  · -- a half is a multiple of the last digit, so it stays
    have hhalf : halfEvenTo (2 * h) ((⌊x⌋ : K) + 1 / 2) = ⌊x⌋ + 1 / 2 := by
      have hint : ((⌊x⌋ : K) + 1 / 2) * ((2 * h : ℤ) : K) = ((2 * ⌊x⌋ * h + h : ℤ) : K) := by
        push_cast
        ring
      have hne : ((2 * h : ℤ) : K) ≠ 0 := Int.cast_ne_zero.mpr hscale.ne'
      unfold halfEvenTo
      rw [hint, halfEven_intCast, ← hint, mul_div_cancel_right₀ _ hne]
    have hle := halfEvenTo_mono hscale hx
    rw [hhalf] at hle
    rw [hn]
    refine Int.add_one_le_iff.mpr (Int.lt_ceil.mpr ?_)
    exact lt_of_lt_of_le (lt_add_of_pos_right _ one_half_pos) hle

theorem halfUp_natCast (n : ℕ) : halfUp (n : K) = n := by
  unfold halfUp
  rw [if_pos (Nat.cast_nonneg n), Int.floor_eq_iff, Int.cast_natCast]
  have hpos : (0 : K) < 1 / 2 := one_half_pos
  have hlt : (1 / 2 : K) < 1 := one_half_lt_one
  constructor
  · linarith
  · linarith

theorem halfUp_mono {x y : K} (h : x ≤ y) : halfUp x ≤ halfUp y := by
  unfold halfUp
  split_ifs with hx hy hy
  · exact Int.floor_mono (by linarith)
  · exact absurd (hx.trans h) hy
  · have h1 : (0 : ℤ) ≤ ⌊-x + 1 / 2⌋ := Int.floor_nonneg.mpr (by push Not at hx; linarith)
    have h2 : (0 : ℤ) ≤ ⌊y + 1 / 2⌋ := Int.floor_nonneg.mpr (by linarith)
    omega
  · have : ⌊-y + 1 / 2⌋ ≤ ⌊-x + 1 / 2⌋ := Int.floor_mono (by linarith)
    omega

end Rounding
