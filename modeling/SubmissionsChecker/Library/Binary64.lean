import SubmissionsChecker.Library.Rounding
import Mathlib.Data.Int.Log

/-! The numbers of IEEE 754 binary64, over the rationals: a result is rounded to the nearest of them, ties to even, and
overflows to an infinity. -/

/-- A value; a finite one is its rational, and zero has a sign. -/
inductive Binary64
  | nan
  | inf (negative : Bool)
  | negZero
  | finite (q : ℚ)
  deriving DecidableEq, Repr

namespace Binary64

/-- The exponent of the last place of a magnitude. -/
def ulpExponent (a : ℚ) : ℤ := max (Int.log 2 a - 52) (-1074)

/-- The nearest magnitude, before overflow. -/
def nearest (a : ℚ) : ℚ := Rounding.halfEven (a / 2 ^ ulpExponent a) * 2 ^ ulpExponent a

/-- Magnitudes from here on overflow. -/
def overflow : ℚ := 2 ^ 1024

def ofRat (q : ℚ) : Binary64 :=
  let r := nearest |q|
  if overflow ≤ r then .inf (decide (q < 0))
  else if q < 0 then if r = 0 then .negZero else .finite (-r)
  else .finite r

/-- `float(n)`; none where it raises `OverflowError`. -/
def ofInt (n : ℤ) : Option Binary64 := if overflow ≤ nearest |(n : ℚ)| then none else some (ofRat n)

/-- The rational of a finite value. -/
def toRat? : Binary64 → Option ℚ
  | .nan => none
  | .inf _ => none
  | .negZero => some 0
  | .finite q => some q

/-- `math.isfinite`. -/
def isFinite (x : Binary64) : Bool := x.toRat?.isSome

section

variable {a q : ℚ} {n : ℕ}

theorem abs_halfEven_sub_le (x : ℚ) : |(Rounding.halfEven x : ℚ) - x| ≤ 1 / 2 := by
  have hfloor := Int.floor_le x
  have hlt := Int.lt_floor_add_one x
  unfold Rounding.halfEven
  rw [abs_le]
  split_ifs with hlow hhigh heven
  · constructor <;> linarith
  · push_cast
    constructor <;> linarith
  · constructor <;> linarith
  · push_cast
    constructor <;> linarith

theorem ulp_pos (a : ℚ) : (0 : ℚ) < 2 ^ ulpExponent a := zpow_pos (by norm_num) _

theorem halfEven_of_near {x : ℚ} {m : ℤ} (h : |x - m| < 1 / 2) : Rounding.halfEven x = m := by
  have hround := abs_le.mp (abs_halfEven_sub_le x)
  have hnear := abs_lt.mp h
  have hlo : ((m - 1 : ℤ) : ℚ) < Rounding.halfEven x := by
    push_cast
    linarith
  have hhi : (Rounding.halfEven x : ℚ) < ((m + 1 : ℤ) : ℚ) := by
    push_cast
    linarith
  have h₁ := Int.cast_lt.mp hlo
  have h₂ := Int.cast_lt.mp hhi
  omega

/-- The error is at most half of the last place. -/
theorem abs_nearest_sub_le (a : ℚ) : |nearest a - a| ≤ 2 ^ ulpExponent a / 2 := by
  have hpos := ulp_pos a
  have hround := abs_halfEven_sub_le (a / 2 ^ ulpExponent a)
  have hdiff : nearest a - a = ((Rounding.halfEven (a / 2 ^ ulpExponent a) : ℚ) - a / 2 ^ ulpExponent a) * 2 ^ ulpExponent a := by
    unfold nearest
    rw [sub_mul, div_mul_cancel₀ _ hpos.ne']
  rw [hdiff, abs_mul, abs_of_pos hpos]
  calc |(Rounding.halfEven (a / 2 ^ ulpExponent a) : ℚ) - a / 2 ^ ulpExponent a| * 2 ^ ulpExponent a
      ≤ 1 / 2 * 2 ^ ulpExponent a := mul_le_mul_of_nonneg_right hround hpos.le
    _ = 2 ^ ulpExponent a / 2 := by ring

theorem nearest_nonneg (h : 0 ≤ a) : 0 ≤ nearest a := by
  have hpos := ulp_pos a
  have hround : 0 ≤ Rounding.halfEven (a / 2 ^ ulpExponent a) := by
    have hmono := Rounding.halfEven_mono (show ((0 : ℤ) : ℚ) ≤ a / 2 ^ ulpExponent a by push_cast; positivity)
    rwa [Rounding.halfEven_intCast] at hmono
  unfold nearest
  have hcast : (0 : ℚ) ≤ Rounding.halfEven (a / 2 ^ ulpExponent a) := by exact_mod_cast hround
  positivity

/-- A multiple of the last place is kept. -/
theorem nearest_of_multiple {m : ℤ} (h : a = m * 2 ^ ulpExponent a) : nearest a = a := by
  have hne := (ulp_pos a).ne'
  have hdiv : a / 2 ^ ulpExponent a = m := by rw [div_eq_iff hne, ← h]
  unfold nearest
  rw [hdiv, Rounding.halfEven_intCast, ← h]

/-- Whole numbers of 53 bits are exact. -/
theorem nearest_natCast (h : n < 2 ^ 53) : nearest n = n := by
  have hlog : Int.log 2 (n : ℚ) - 52 ≤ 0 := by
    rw [Int.log_natCast]
    have hlt : Nat.log 2 n < 53 := Nat.log_lt_of_lt_pow' (by decide) h
    omega
  have hexp : ulpExponent n ≤ 0 := max_le hlog (by decide)
  refine nearest_of_multiple (m := n * 2 ^ (-ulpExponent n).toNat) ?_
  have hpow : (2 : ℚ) ^ (-ulpExponent n).toNat = 2 ^ (-ulpExponent n) := by
    rw [← zpow_natCast, Int.toNat_of_nonneg (by omega)]
  push_cast
  rw [mul_assoc, hpow, ← zpow_add₀ (by norm_num), neg_add_cancel, zpow_zero, mul_one]

theorem nearest_zero : nearest 0 = 0 := by
  have h := nearest_natCast (show 0 < 2 ^ 53 by decide)
  exact_mod_cast h

theorem ulpExponent_mono {b : ℚ} (ha : 0 < a) (h : a ≤ b) : ulpExponent a ≤ ulpExponent b :=
  max_le_max_right _ (sub_le_sub_right (Int.log_mono_right ha h) 52)

/-- Rounding keeps a bound that is itself a multiple of the last place. -/
theorem nearest_le_of_multiple {p : ℚ} {m : ℤ} (h : a ≤ p) (hp : p = m * 2 ^ ulpExponent a) : nearest a ≤ p := by
  have hpos := ulp_pos a
  have hround := Rounding.halfEven_mono (show a / 2 ^ ulpExponent a ≤ m by rwa [div_le_iff₀ hpos, ← hp])
  rw [Rounding.halfEven_intCast] at hround
  unfold nearest
  rw [hp]
  exact mul_le_mul_of_nonneg_right (Int.cast_le.mpr hround) hpos.le

theorem le_nearest_of_multiple {p : ℚ} {m : ℤ} (h : p ≤ a) (hp : p = m * 2 ^ ulpExponent a) : p ≤ nearest a := by
  have hpos := ulp_pos a
  have hround := Rounding.halfEven_mono (show (m : ℚ) ≤ a / 2 ^ ulpExponent a by rwa [le_div_iff₀ hpos, ← hp])
  rw [Rounding.halfEven_intCast] at hround
  unfold nearest
  rw [hp]
  exact mul_le_mul_of_nonneg_right (Int.cast_le.mpr hround) hpos.le

theorem zpow_eq_multiple {k e : ℤ} (h : e ≤ k) : (2 : ℚ) ^ k = ((2 ^ (k - e).toNat : ℤ) : ℚ) * 2 ^ e := by
  have hnat : ((2 ^ (k - e).toNat : ℤ) : ℚ) = 2 ^ (k - e) := by
    push_cast
    rw [← zpow_natCast, Int.toNat_of_nonneg (by omega)]
  rw [hnat, ← zpow_add₀ (by norm_num), sub_add_cancel]

/-- Rounding is monotone, also where the last place changes: a power of two lies between. -/
theorem nearest_mono {b : ℚ} (h₀ : 0 ≤ a) (h : a ≤ b) : nearest a ≤ nearest b := by
  rcases h₀.eq_or_lt with rfl | ha
  · rw [nearest_zero]
    exact nearest_nonneg h
  have hb : 0 < b := ha.trans_le h
  rcases (ulpExponent_mono ha h).eq_or_lt with heq | hlt
  · unfold nearest
    rw [heq]
    have hround := Rounding.halfEven_mono (div_le_div_of_nonneg_right h (ulp_pos b).le)
    exact mul_le_mul_of_nonneg_right (Int.cast_le.mpr hround) (ulp_pos b).le
  · have hmin : -1074 ≤ ulpExponent a := le_max_right _ _
    have hexp : ulpExponent b = Int.log 2 b - 52 := by
      unfold ulpExponent at hlt hmin ⊢
      omega
    have hloga : Int.log 2 a - 52 ≤ ulpExponent a := le_max_left _ _
    have hbelow : a ≤ 2 ^ Int.log 2 b := by
      have hlog : Int.log 2 a < Int.log 2 b := by omega
      exact_mod_cast ((Int.lt_zpow_iff_log_lt (by decide) ha).mpr hlog).le
    have habove : (2 : ℚ) ^ Int.log 2 b ≤ b := by exact_mod_cast Int.zpow_log_le_self (by decide : 1 < 2) hb
    calc nearest a ≤ 2 ^ Int.log 2 b := nearest_le_of_multiple hbelow (zpow_eq_multiple (by omega))
      _ ≤ nearest b := le_nearest_of_multiple habove (zpow_eq_multiple (by omega))

/-- A magnitude below a power of two is off by less than its share of 53 bits. -/
theorem ulp_le {k : ℤ} (hk : -1074 ≤ k - 53) (ha : 0 < a) (h : a < 2 ^ k) : (2 : ℚ) ^ ulpExponent a ≤ 2 ^ (k - 53) := by
  have hlt : Int.log 2 a < k := (Int.lt_zpow_iff_log_lt (by decide) ha).mp (by exact_mod_cast h)
  exact zpow_le_zpow_right₀ (by norm_num) (max_le (by omega) hk)

theorem ofRat_natCast (h : n < 2 ^ 53) : ofRat n = .finite n := by
  have hsmall : (n : ℚ) < overflow := by
    unfold overflow
    calc (n : ℚ) < 2 ^ 53 := by exact_mod_cast h
      _ ≤ 2 ^ 1024 := pow_le_pow_right₀ (by norm_num) (by norm_num)
  have hn : (0 : ℚ) ≤ n := n.cast_nonneg
  unfold ofRat
  dsimp only
  rw [abs_of_nonneg hn, nearest_natCast h, if_neg (not_le.mpr hsmall), if_neg (not_lt.mpr hn)]

theorem ulpExponent_eq {k : ℤ} (hk : -1074 ≤ k - 52) (hlo : (2 : ℚ) ^ k ≤ a) (hhi : a < 2 ^ (k + 1)) :
    ulpExponent a = k - 52 := by
  have hpos : 0 < a := (zpow_pos (by norm_num) k).trans_le hlo
  have hlog : Int.log 2 a = k := by
    have h₁ : k ≤ Int.log 2 a := (Int.zpow_le_iff_le_log (by decide) hpos).mp (by exact_mod_cast hlo)
    have h₂ : Int.log 2 a < k + 1 := (Int.lt_zpow_iff_log_lt (by decide) hpos).mp (by exact_mod_cast hhi)
    omega
  unfold ulpExponent
  rw [hlog]
  exact max_eq_left hk

/-- Halfway between the last finite magnitude and the first that overflows. -/
def tooLarge : ℚ := 2 ^ 1024 - 2 ^ 970

theorem tooLarge_eq : tooLarge = (2 ^ 53 - 1 / 2) * 2 ^ (971 : ℤ) := by
  have h₁ : (2 : ℚ) ^ 1024 = 2 ^ 53 * 2 ^ 971 := by rw [← pow_add]
  have h₂ : (2 : ℚ) ^ 971 = 2 ^ 970 * 2 := pow_succ 2 970
  have h₃ : (2 : ℚ) ^ (971 : ℤ) = 2 ^ 971 := zpow_natCast 2 971
  unfold tooLarge
  rw [h₃, h₁, h₂]
  generalize (2 : ℚ) ^ 970 = u
  ring

theorem overflow_eq : overflow = 2 ^ 53 * 2 ^ (971 : ℤ) := by
  unfold overflow
  rw [show (2 : ℚ) ^ (971 : ℤ) = 2 ^ 971 from zpow_natCast 2 971, ← pow_add]

/-- What rounds to an overflow. -/
theorem overflow_le_nearest (a : ℚ) : overflow ≤ nearest a ↔ tooLarge ≤ a := by
  have h971 : (0 : ℚ) < 2 ^ (971 : ℤ) := zpow_pos (by norm_num) _
  have hexp : (2 : ℚ) ^ (1023 : ℤ) = 2 ^ 52 * 2 ^ (971 : ℤ) := by
    rw [← zpow_natCast (2 : ℚ) 52, ← zpow_add₀ (by norm_num)]
    rfl
  have hexp' : (2 : ℚ) ^ (1024 : ℤ) = 2 ^ 53 * 2 ^ (971 : ℤ) := by
    rw [← zpow_natCast (2 : ℚ) 53, ← zpow_add₀ (by norm_num)]
    rfl
  rw [overflow_eq, tooLarge_eq]
  by_cases hsmall : a < 2 ^ (1023 : ℤ)
  · -- far below
    have hulp : (2 : ℚ) ^ ulpExponent a ≤ 2 ^ (971 : ℤ) := by
      refine zpow_le_zpow_right₀ (by norm_num) (max_le ?_ (by decide))
      by_cases ha : 0 < a
      · have hlt : Int.log 2 a < 1023 := (Int.lt_zpow_iff_log_lt (by decide) ha).mp (by exact_mod_cast hsmall)
        omega
      · rw [Int.log_of_right_le_zero 2 (not_lt.mp ha)]
        decide
    have herr := (abs_le.mp (abs_nearest_sub_le a)).2
    rw [hexp] at hsmall
    clear hexp hexp'
    generalize (2 : ℚ) ^ (971 : ℤ) = u at *
    generalize (2 : ℚ) ^ ulpExponent a = v at *
    constructor
    · intro hle
      linarith
    · intro hle
      linarith
  · rw [not_lt] at hsmall
    by_cases hbig : a < 2 ^ (1024 : ℤ)
    · have hulp : ulpExponent a = 971 := ulpExponent_eq (by decide) hsmall hbig
      have hnearest : nearest a = Rounding.halfEven (a / 2 ^ (971 : ℤ)) * 2 ^ (971 : ℤ) := by
        unfold nearest
        rw [hulp]
      rw [hnearest, mul_le_mul_iff_left₀ h971, ← le_div_iff₀ h971]
      generalize a / 2 ^ (971 : ℤ) = x
      have hcast : (2 : ℚ) ^ 53 ≤ Rounding.halfEven x ↔ (2 : ℤ) ^ 53 ≤ Rounding.halfEven x := by
        rw [← Int.cast_le (R := ℚ)]
        push_cast
        rfl
      rw [hcast]
      constructor
      · intro hle
        rcases Rounding.halfEven_eq_floor_or x with hn | ⟨hn, hx⟩
        · have hfloor : (((2 : ℤ) ^ 53 : ℤ) : ℚ) ≤ x := (Int.cast_le.mpr (hn ▸ hle)).trans (Int.floor_le x)
          push_cast at hfloor
          linarith
        · rw [hn] at hle
          have hfloor : (((2 : ℤ) ^ 53 - 1 : ℤ) : ℚ) ≤ ⌊x⌋ := Int.cast_le.mpr (by omega)
          push_cast at hfloor
          linarith
      · intro hle
        have hround : Rounding.halfEven ((2 : ℚ) ^ 53 - 1 / 2) = 2 ^ 53 := by
          have hfloor : ⌊(2 : ℚ) ^ 53 - 1 / 2⌋ = 2 ^ 53 - 1 := by
            rw [Int.floor_eq_iff]
            push_cast
            norm_num
          unfold Rounding.halfEven
          rw [hfloor]
          norm_num
        rw [← hround]
        exact Rounding.halfEven_mono hle
    · rw [not_lt] at hbig
      have ha : 0 < a := (zpow_pos (by norm_num) _).trans_le hbig
      have hlog : (1024 : ℤ) ≤ Int.log 2 a := (Int.zpow_le_iff_le_log (by decide) ha).mp (by exact_mod_cast hbig)
      have hulp : ulpExponent a = Int.log 2 a - 52 := max_eq_left (by omega)
      -- the leading power of two is a multiple of the last place
      have hle : (2 : ℚ) ^ Int.log 2 a ≤ nearest a := by
        have hsplit : (2 : ℚ) ^ Int.log 2 a = ((2 ^ 52 : ℤ) : ℚ) * 2 ^ ulpExponent a := by
          have hcast : ((2 ^ 52 : ℤ) : ℚ) = 2 ^ (52 : ℤ) := by
            rw [Int.cast_pow]
            rfl
          rw [hulp, hcast, ← zpow_add₀ (by norm_num), add_sub_cancel]
        have hdiv : ((2 ^ 52 : ℤ) : ℚ) ≤ a / 2 ^ ulpExponent a := by
          rw [le_div_iff₀ (ulp_pos a), ← hsplit]
          exact_mod_cast Int.zpow_log_le_self (by decide : 1 < 2) ha
        have hround := Rounding.halfEven_mono hdiv
        rw [Rounding.halfEven_intCast] at hround
        unfold nearest
        rw [hsplit]
        exact mul_le_mul_of_nonneg_right (Int.cast_le.mpr hround) (ulp_pos a).le
      have hpow : (2 : ℚ) ^ (1024 : ℤ) ≤ 2 ^ Int.log 2 a := zpow_le_zpow_right₀ (by norm_num) hlog
      constructor
      · intro _
        refine le_trans ?_ hbig
        rw [hexp']
        exact mul_le_mul_of_nonneg_right (by norm_num) h971.le
      · intro _
        rw [← hexp']
        exact hpow.trans hle

theorem ofInt_none {n : ℤ} : ofInt n = none ↔ tooLarge ≤ |(n : ℚ)| := by
  unfold ofInt
  rw [← overflow_le_nearest]
  split_ifs with h
  · exact ⟨fun _ => h, fun _ => rfl⟩
  · constructor
    · intro hn
      cases hn
    · exact fun hn => absurd hn h

end

end Binary64
