import SubmissionsChecker.Library.Binary64
import Mathlib.Tactic.NormNum

/-! Sums of binary64 numbers the way Python's `sum` takes them (3.12 and later): a running sum, and beside it what the
additions rounded away. The numbers are rationals, far from overflow. Where they are multiples of one power of two that
is not too small for their sum, the corrections are kept in full, and the sum is the exact one, rounded once. -/

namespace Binary64

/-- The nearest number; the sign of a zero is dropped. -/
def round (q : ℚ) : ℚ := if q < 0 then -nearest (-q) else nearest q

/-- One addition to the running sum, and its error to the corrections. -/
def addTo (s : ℚ × ℚ) (x : ℚ) : ℚ × ℚ :=
  let t := round (s.1 + x)
  let error := if |x| ≤ |s.1| then round (round (s.1 - t) + x) else round (round (x - t) + s.1)
  (t, round (s.2 + error))

/-- `sum(xs)`. -/
def sum : List ℚ → ℚ
  | [] => 0
  | x :: xs =>
    let s := xs.foldl addTo (x, 0)
    if s.2 = 0 then s.1 else round (s.1 + s.2)

/-- A multiple of the power of two. -/
def OnGrid (k : ℤ) (q : ℚ) : Prop := ∃ m : ℤ, q = m * 2 ^ k

section

variable {a b c f x total : ℚ} {g j k : ℤ} {n : ℕ} {xs ys : List ℚ} {s : ℚ × ℚ}

theorem OnGrid.add (ha : OnGrid k a) (hb : OnGrid k b) : OnGrid k (a + b) := by
  obtain ⟨m, rfl⟩ := ha
  obtain ⟨n, rfl⟩ := hb
  exact ⟨m + n, by push_cast; ring⟩

theorem OnGrid.neg (ha : OnGrid k a) : OnGrid k (-a) := by
  obtain ⟨m, rfl⟩ := ha
  exact ⟨-m, by push_cast; ring⟩

theorem OnGrid.sub (ha : OnGrid k a) (hb : OnGrid k b) : OnGrid k (a - b) := by
  rw [sub_eq_add_neg]
  exact ha.add hb.neg

theorem OnGrid.mono (h : OnGrid j a) (hk : k ≤ j) : OnGrid k a := by
  obtain ⟨m, rfl⟩ := h
  refine ⟨m * 2 ^ (j - k).toNat, ?_⟩
  rw [zpow_eq_multiple hk]
  push_cast
  ring

theorem onGrid_zero : OnGrid k 0 := ⟨0, by norm_num⟩

/-! Rounding -/

theorem onGrid_nearest (a : ℚ) : OnGrid (ulpExponent a) (nearest a) := ⟨_, rfl⟩

theorem ulpExponent_ge (a : ℚ) : -1074 ≤ ulpExponent a := le_max_right _ _

/-- 53 places hold a magnitude. -/
theorem lt_zpow_ulpExponent (ha : 0 < a) : a < 2 ^ (ulpExponent a + 53) := by
  have hlog : Int.log 2 a - 52 ≤ ulpExponent a := le_max_left _ _
  exact_mod_cast (Int.lt_zpow_iff_log_lt (by decide) ha).mpr (show Int.log 2 a < ulpExponent a + 53 by omega)

/-- What 53 places hold is kept. -/
theorem nearest_of_onGrid (hk : -1074 ≤ k) (ha : 0 ≤ a) (h : OnGrid k a) (hlt : a < 2 ^ (k + 53)) : nearest a = a := by
  rcases ha.eq_or_lt with rfl | ha
  · exact nearest_zero
  have hlog : Int.log 2 a < k + 53 := (Int.lt_zpow_iff_log_lt (by decide) ha).mp (by exact_mod_cast hlt)
  obtain ⟨m, hm⟩ := h.mono (show ulpExponent a ≤ k from max_le (by omega) hk)
  exact nearest_of_multiple hm

/-- A rounded magnitude is a number. -/
theorem nearest_nearest (ha : 0 ≤ a) : nearest (nearest a) = nearest a := by
  have hge := ulpExponent_ge a
  rcases ha.eq_or_lt with rfl | ha
  · rw [nearest_zero, nearest_zero]
  have hle : nearest a ≤ 2 ^ (ulpExponent a + 53) :=
    nearest_le_of_multiple (lt_zpow_ulpExponent ha).le (zpow_eq_multiple (by omega))
  rcases hle.eq_or_lt with heq | hlt
  · -- rounded up to a power of two
    rw [heq]
    refine nearest_of_onGrid (k := ulpExponent a + 53) (by omega) (zpow_pos (by norm_num) _).le ⟨1, by norm_num⟩ ?_
    exact zpow_lt_zpow_right₀ (by norm_num) (by omega)
  · exact nearest_of_onGrid hge (nearest_nonneg ha.le) (onGrid_nearest a) hlt

theorem round_of_nonneg (ha : 0 ≤ a) : round a = nearest a := if_neg (not_lt.mpr ha)

theorem round_neg (a : ℚ) : round (-a) = -round a := by
  rcases lt_trichotomy a 0 with ha | rfl | ha
  · rw [round_of_nonneg (by linarith), round, if_pos ha, neg_neg]
  · rw [neg_zero, round_of_nonneg le_rfl, nearest_zero, neg_zero]
  · rw [round_of_nonneg ha.le, round, if_pos (by linarith), neg_neg]

theorem round_zero : round 0 = 0 := by rw [round_of_nonneg le_rfl, nearest_zero]

/-- A fact about the magnitudes is one about the numbers. -/
theorem round_cases {p : ℚ → ℚ → Prop} (hneg : ∀ a r, p a r → p (-a) (-r)) (hpos : ∀ a, 0 ≤ a → p a (nearest a)) (a : ℚ) :
    p a (round a) := by
  rcases le_total 0 a with ha | ha
  · rw [round_of_nonneg ha]
    exact hpos a ha
  · have h := hneg _ _ (hpos (-a) (by linarith))
    rw [← round_of_nonneg (show 0 ≤ -a by linarith), round_neg, neg_neg, neg_neg] at h
    exact h

theorem round_nonneg (ha : 0 ≤ a) : 0 ≤ round a := by
  rw [round_of_nonneg ha]
  exact nearest_nonneg ha

theorem round_mono (ha : 0 ≤ a) (h : a ≤ b) : round a ≤ round b := by
  rw [round_of_nonneg ha, round_of_nonneg (ha.trans h)]
  exact nearest_mono ha h

theorem round_natCast (h : n < 2 ^ 53) : round n = n := by
  rw [round_of_nonneg n.cast_nonneg, nearest_natCast h]

theorem round_round (a : ℚ) : round (round a) = round a :=
  round_cases (p := fun _ r => round r = r) (fun a r h => by rw [round_neg, h])
    (fun a ha => by rw [round_of_nonneg (nearest_nonneg ha), nearest_nearest ha]) a

theorem round_of_onGrid (hk : -1074 ≤ k) (h : OnGrid k a) (hlt : |a| < 2 ^ (k + 53)) : round a = a := by
  rcases le_total 0 a with ha | ha
  · rw [abs_of_nonneg ha] at hlt
    rw [round_of_nonneg ha, nearest_of_onGrid hk ha h hlt]
  · rw [abs_of_nonpos ha] at hlt
    have hneg := nearest_of_onGrid hk (by linarith) h.neg hlt
    rw [← round_of_nonneg (by linarith), round_neg] at hneg
    exact neg_injective hneg

/-- Rounding does not leave a grid. -/
theorem OnGrid.round (h : OnGrid k a) : OnGrid k (Binary64.round a) := by
  refine round_cases (p := fun a r => OnGrid k a → OnGrid k r) (fun a r h ha => ?_) (fun a _ ha => ?_) a h
  · exact (h (by rw [← neg_neg a]; exact ha.neg)).neg
  · rcases le_total k (ulpExponent a) with hk | hk
    · exact (onGrid_nearest a).mono hk
    · obtain ⟨m, hm⟩ := ha.mono hk
      rw [nearest_of_multiple hm]
      exact ha

/-- The last place of what is not too small. -/
theorem onGrid_round_of_le (hle : 2 ^ (k + 52) ≤ a) : OnGrid k (Binary64.round a) := by
  have ha : 0 < a := (zpow_pos (by norm_num) (k + 52)).trans_le hle
  have hlog : k + 52 ≤ Int.log 2 a := (Int.zpow_le_iff_le_log (by decide) ha).mp (by exact_mod_cast hle)
  have hexp : k ≤ ulpExponent a := (show k ≤ Int.log 2 a - 52 by omega).trans (le_max_left _ _)
  rw [round_of_nonneg ha.le]
  exact (onGrid_nearest a).mono hexp

theorem abs_round_sub_le (hk : -1074 ≤ k - 53) (hlt : |a| < 2 ^ k) : |Binary64.round a - a| ≤ 2 ^ (k - 54) := by
  refine round_cases (p := fun a r => |a| < 2 ^ k → |r - a| ≤ 2 ^ (k - 54)) (fun a r h ha => ?_) (fun a ha hlt => ?_) a hlt
  · rw [abs_neg] at ha
    rw [← neg_sub', abs_neg]
    exact h ha
  · rw [abs_of_nonneg ha] at hlt
    rcases ha.eq_or_lt with rfl | ha
    · rw [nearest_zero, sub_zero, abs_zero]
      exact (zpow_pos (by norm_num) _).le
    · have hsplit : (2 : ℚ) ^ (k - 53) / 2 = 2 ^ (k - 54) := by
        rw [show k - 53 = k - 54 + 1 by ring, zpow_add_one₀ (by norm_num), mul_div_cancel_right₀ _ (by norm_num)]
      refine (abs_nearest_sub_le a).trans ?_
      rw [← hsplit]
      exact div_le_div_of_nonneg_right (ulp_le hk ha hlt) (by norm_num)

/-! One addition -/

/-- What the larger summand lacks to the sum is a number. -/
theorem round_sub_round_add (hb : 0 ≤ b) (hab : b ≤ a) (ha : round a = a) :
    round (a - round (a + b)) = a - round (a + b) := by
  rcases (hb.trans hab).eq_or_lt with rfl | hpos
  · obtain rfl : b = 0 := le_antisymm hab hb
    rw [add_zero, round_zero, sub_zero, round_zero]
  have hnear : nearest a = a := by rw [← round_of_nonneg hpos.le, ha]
  have hge := ulpExponent_ge a
  have hgrid : OnGrid (ulpExponent a) a := by
    have h := onGrid_nearest a
    rwa [hnear] at h
  have hlt := lt_zpow_ulpExponent hpos
  -- the double is a number too, and the sum lies between
  have hdouble : nearest (2 * a) = 2 * a := by
    obtain ⟨m, hm⟩ := hgrid
    refine nearest_of_onGrid (k := ulpExponent a + 1) (by omega) (by linarith) ⟨m, ?_⟩ ?_
    · rw [zpow_add_one₀ (by norm_num), ← mul_assoc, ← hm, mul_comm]
    · rw [show ulpExponent a + 1 + 53 = ulpExponent a + 53 + 1 by ring, zpow_add_one₀ (by norm_num)]
      linarith
  have hsum : round (a + b) = nearest (a + b) := round_of_nonneg (by linarith)
  have hlow : a ≤ round (a + b) := by
    rw [hsum]
    exact hnear.ge.trans (nearest_mono hpos.le (by linarith))
  have hhigh : round (a + b) ≤ 2 * a := by
    rw [hsum]
    exact (nearest_mono (by linarith) (by linarith)).trans hdouble.le
  have hsumGrid : OnGrid (ulpExponent a) (round (a + b)) := by
    rw [hsum]
    exact (onGrid_nearest (a + b)).mono (ulpExponent_mono hpos (by linarith))
  refine round_of_onGrid hge (hgrid.sub hsumGrid) ?_
  rw [abs_of_nonpos (by linarith)]
  linarith

/-- One addition keeps what it rounds away, as long as the grid is fine enough for the corrections. -/
theorem addTo_eq (hg : -1074 ≤ g) (hk : -1074 ≤ k - 53) (hgk : k - 54 < g + 53) (hf : 0 ≤ f) (hx : 0 ≤ x)
    (hfloat : round f = f) (hxfloat : round x = x) (hfgrid : OnGrid g f) (hxgrid : OnGrid g x) (hlt : f + x < 2 ^ k)
    (hc : OnGrid g c) (hsmall : |c + (f + x - round (f + x))| < 2 ^ (g + 53)) :
    addTo (f, c) x = (round (f + x), c + (f + x - round (f + x))) := by
  have hgrid : OnGrid g (f + x - round (f + x)) := (hfgrid.add hxgrid).sub (hfgrid.add hxgrid).round
  have herror : round (f + x - round (f + x)) = f + x - round (f + x) := by
    refine round_of_onGrid hg hgrid ?_
    rw [abs_sub_comm]
    refine (abs_round_sub_le hk ?_).trans_lt (zpow_lt_zpow_right₀ (by norm_num) hgk)
    rwa [abs_of_nonneg (by linarith)]
  have herr : (if |x| ≤ |f| then round (round (f - round (f + x)) + x) else round (round (x - round (f + x)) + f)) =
      f + x - round (f + x) := by
    rw [abs_of_nonneg hx, abs_of_nonneg hf]
    split_ifs with hle
    · rw [round_sub_round_add hx hle hfloat, show f - round (f + x) + x = f + x - round (f + x) by ring, herror]
    · have hswap := round_sub_round_add hf (not_le.mp hle).le hxfloat
      rw [add_comm x f] at hswap
      rw [hswap, show x - round (f + x) + f = f + x - round (f + x) by ring, herror]
  unfold addTo
  dsimp only
  rw [herr, round_of_onGrid hg (hc.add hgrid) hsmall]

/-! Many additions -/

/-- The running sum and its corrections make up the exact sum. -/
structure Compensated (g k : ℤ) (n : ℕ) (total : ℚ) (s : ℚ × ℚ) : Prop where
  float : round s.1 = s.1
  nonneg : 0 ≤ s.1
  grid : OnGrid g s.1
  corrections : OnGrid g s.2
  exact : s.1 + s.2 = total
  small : |s.2| ≤ n * 2 ^ (k - 54)

theorem Compensated.addTo (hg : -1074 ≤ g) (hk : -1074 ≤ k - 53) (h : Compensated g k n total s) (hx : 0 ≤ x)
    (hfloat : Binary64.round x = x) (hgrid : OnGrid g x) (hlt : total + x + n * 2 ^ (k - 54) < 2 ^ k)
    (hkept : (n + 1) * 2 ^ (k - 54) < (2 : ℚ) ^ (g + 53)) : Compensated g k (n + 1) (total + x) (addTo s x) := by
  obtain ⟨f, c⟩ := s
  obtain ⟨hffloat, hf, hfgrid, hc, hexact, hsmall⟩ := h
  dsimp only at hffloat hf hfgrid hc hexact hsmall
  have hulp : (0 : ℚ) < 2 ^ (k - 54) := zpow_pos (by norm_num) _
  have hlost := (abs_le.mp hsmall).1
  have hsum : f + x < 2 ^ k := by linarith
  have hgk : k - 54 < g + 53 := by
    refine (zpow_lt_zpow_iff_right₀ (show (1 : ℚ) < 2 by norm_num)).mp (lt_of_le_of_lt ?_ hkept)
    have hn : (0 : ℚ) ≤ n := n.cast_nonneg
    nlinarith
  have herror : |f + x - Binary64.round (f + x)| ≤ 2 ^ (k - 54) := by
    rw [abs_sub_comm]
    refine abs_round_sub_le hk ?_
    rwa [abs_of_nonneg (by linarith)]
  have hnew : |c + (f + x - Binary64.round (f + x))| ≤ (n + 1 : ℕ) * 2 ^ (k - 54) := by
    refine (abs_add_le _ _).trans ?_
    push_cast
    linarith
  rw [addTo_eq hg hk hgk hf hx hffloat hfloat hfgrid hgrid hsum hc (hnew.trans_lt (by exact_mod_cast hkept))]
  refine ⟨round_round _, round_nonneg (by linarith), (hfgrid.add hgrid).round, ?_, ?_, hnew⟩
  · exact hc.add ((hfgrid.add hgrid).sub (hfgrid.add hgrid).round)
  · dsimp only
    linarith

/-- Over all additions. -/
theorem Compensated.foldl (hg : -1074 ≤ g) (hk : -1074 ≤ k - 53) (h : Compensated g k n total s)
    (hxs : ∀ x ∈ xs, 0 ≤ x ∧ Binary64.round x = x ∧ OnGrid g x)
    (hlt : total + xs.sum + (n + xs.length) * 2 ^ (k - 54) < 2 ^ k)
    (hkept : (n + xs.length) * 2 ^ (k - 54) < (2 : ℚ) ^ (g + 53)) :
    Compensated g k (n + xs.length) (total + xs.sum) (xs.foldl Binary64.addTo s) := by
  induction xs generalizing n total s with
  | nil => simpa using h
  | cons x xs ih =>
    obtain ⟨hx, hrest⟩ := List.forall_mem_cons.mp hxs
    have hulp : (0 : ℚ) < 2 ^ (k - 54) := zpow_pos (by norm_num) _
    have hsum : 0 ≤ xs.sum := List.sum_nonneg fun y hy => (hrest y hy).1
    have hlen : (0 : ℚ) ≤ xs.length := xs.length.cast_nonneg
    rw [List.sum_cons, List.length_cons] at hlt
    rw [List.length_cons] at hkept
    push_cast at hlt hkept
    have hstep := h.addTo hg hk hx.1 hx.2.1 hx.2.2 (by nlinarith) (by nlinarith)
    have hfold := ih hstep hrest (by push_cast; linarith) (by push_cast; linarith)
    rw [List.foldl_cons, List.sum_cons, List.length_cons]
    rw [show n + (xs.length + 1) = n + 1 + xs.length by ring, ← add_assoc total]
    exact hfold

/-- The sum is the exact one, rounded once. -/
theorem sum_eq_round (hg : -1074 ≤ g) (hk : -1074 ≤ k - 53) (hxs : ∀ x ∈ xs, 0 ≤ x ∧ round x = x ∧ OnGrid g x)
    (hlt : xs.sum + xs.length * 2 ^ (k - 54) < 2 ^ k) (hkept : xs.length * 2 ^ (k - 54) < (2 : ℚ) ^ (g + 53)) :
    sum xs = round xs.sum := by
  cases xs with
  | nil => exact round_zero.symm
  | cons x xs =>
    obtain ⟨hx, hrest⟩ := List.forall_mem_cons.mp hxs
    have hulp : (0 : ℚ) < 2 ^ (k - 54) := zpow_pos (by norm_num) _
    have hstart : Compensated g k 0 x (x, 0) := by
      refine ⟨hx.2.1, hx.1, hx.2.2, onGrid_zero, add_zero x, ?_⟩
      rw [abs_zero]
      positivity
    rw [List.sum_cons, List.length_cons] at hlt
    rw [List.length_cons] at hkept
    push_cast at hlt hkept
    have hend := hstart.foldl hg hk hrest (by push_cast; linarith) (by push_cast; linarith)
    unfold sum
    dsimp only
    rw [List.sum_cons]
    split_ifs with hc
    · rw [← hend.exact, hc, add_zero, hend.float]
    · rw [hend.exact]

end

end Binary64
