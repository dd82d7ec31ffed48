import SubmissionsChecker.Services.QuizEvents

/-! The context of an event. What is kept is of its kind and in its range, and is kept again as it is; the one context
that stops an event has an integer too large for a float where a number is expected. -/

namespace SubmissionsChecker

namespace QuizEvents

open PyText

section

variable {key : Text} {value : Json} {v : CtxValue} {x y : Binary64} {n k : ℤ} {q : ℚ}

/-! Numbers -/

theorem truncate_intCast (n : ℤ) : truncate (n : ℚ) = n := by
  unfold truncate
  split_ifs
  · exact Int.floor_intCast n
  · exact Int.ceil_intCast n

theorem number_of_range (h₀ : 0 ≤ n) (h : n ≤ intMax) : number (.int n) = .ok (some (.finite n)) := by
  obtain ⟨m, rfl⟩ := Int.eq_ofNat_of_zero_le h₀
  have hsmall : m < 2 ^ 53 := by
    unfold intMax at h
    have hm : m ≤ 10 ^ 9 := by exact_mod_cast h
    exact hm.trans_lt (by norm_num)
  have hofInt : Binary64.ofInt (m : ℤ) = some (.finite (m : ℚ)) := by
    have hofRat := Binary64.ofRat_natCast hsmall
    have hno : ¬ Binary64.overflow ≤ Binary64.nearest |((m : ℤ) : ℚ)| := by
      intro hle
      unfold Binary64.ofRat at hofRat
      dsimp only at hofRat
      push_cast at hle
      rw [if_pos hle] at hofRat
      cases hofRat
    unfold Binary64.ofInt
    rw [if_neg hno]
    push_cast
    rw [hofRat]
  simp only [number, hofInt]
  rfl

theorem cleanInt_range (x : Binary64) : 0 ≤ cleanInt x ∧ cleanInt x ≤ intMax := by
  unfold cleanInt
  constructor
  · exact le_min (le_max_right _ _) (by decide)
  · exact min_le_right _ _

theorem cleanInt_intCast (h₀ : 0 ≤ n) (h : n ≤ intMax) : cleanInt (.finite n) = n := by
  unfold cleanInt
  change min (max (truncate (n : ℚ)) 0) intMax = n
  rw [truncate_intCast, max_eq_left h₀, min_eq_left h]

/-! Angles -/

/-- The float of a whole number of tenths, up to 180 degrees. -/
theorem ofRat_tenth (h : |k| ≤ 1800) : ∃ q, Binary64.ofRat ((k : ℚ) / 10) = .finite q ∧ |q * 10 - k| < 1 / 2 ∧
    -180 ≤ q ∧ q ≤ 180 ∧ (k = 0 → q = 0) := by
  set a : ℚ := |(k : ℚ) / 10| with ha
  have hk : |(k : ℚ)| ≤ 1800 := by exact_mod_cast h
  have ha10 : a = |(k : ℚ)| / 10 := by rw [ha, abs_div, abs_of_pos (by norm_num : (0 : ℚ) < 10)]
  have hnear : |Binary64.nearest a - a| ≤ 1 / 1000 := by
    rcases (abs_nonneg ((k : ℚ) / 10)).eq_or_lt with hzero | hpos
    · rw [ha, ← hzero, Binary64.nearest_zero]
      norm_num
    · have hlt : a < 2 ^ (8 : ℤ) := by
        norm_num
        linarith
      refine (Binary64.abs_nearest_sub_le a).trans ?_
      have hulp := Binary64.ulp_le (by norm_num) hpos hlt
      have hpow : (2 : ℚ) ^ ((8 : ℤ) - 53) ≤ 1 / 1000 := by norm_num
      linarith
  have hnonneg : 0 ≤ Binary64.nearest a := Binary64.nearest_nonneg (abs_nonneg _)
  have hle : Binary64.nearest a ≤ 180 := by
    by_cases hend : |k| = 1800
    · have h180 : a = (180 : ℕ) := by
        rw [ha10, ← Int.cast_abs, hend]
        norm_num
      rw [h180, Binary64.nearest_natCast (by norm_num)]
      norm_num
    · have hlt : |(k : ℚ)| ≤ 1799 := by
        have hint : |k| ≤ 1799 := by omega
        exact_mod_cast hint
      have hdiff := (abs_le.mp hnear).2
      linarith
  have hsmall : ¬ Binary64.overflow ≤ Binary64.nearest a := by
    have hover : (180 : ℚ) < Binary64.overflow := by
      unfold Binary64.overflow
      calc (180 : ℚ) < 2 ^ 8 := by norm_num
        _ ≤ 2 ^ 1024 := pow_le_pow_right₀ (by norm_num) (by norm_num)
    exact not_le.mpr (hle.trans_lt hover)
  have hdiff := abs_le.mp hnear
  unfold Binary64.ofRat
  dsimp only
  rw [← ha, if_neg hsmall]
  by_cases hneg : (k : ℚ) / 10 < 0
  · have hkneg : (k : ℚ) < 0 := by linarith
    have hk1 : (k : ℚ) ≤ -1 := by
      have hint : k < 0 := by exact_mod_cast hkneg
      exact_mod_cast (by omega : k ≤ -1)
    have haneg : a = -(k : ℚ) / 10 := by rw [ha10, abs_of_neg hkneg]
    have hne : Binary64.nearest a ≠ 0 := by
      intro hzero
      rw [hzero] at hdiff
      linarith [hdiff.1, hdiff.2]
    rw [if_pos hneg, if_neg hne]
    refine ⟨-Binary64.nearest a, rfl, ?_, by linarith, by linarith, ?_⟩
    · rw [abs_lt]
      constructor <;> linarith [hdiff.1, hdiff.2]
    · rintro rfl
      norm_num at hkneg
  · have hkpos : (0 : ℚ) ≤ k := by linarith [not_lt.mp hneg]
    have hapos : a = (k : ℚ) / 10 := by rw [ha10, abs_of_nonneg hkpos]
    rw [if_neg hneg]
    refine ⟨Binary64.nearest a, rfl, ?_, by linarith, hle, ?_⟩
    · rw [abs_lt]
      constructor <;> linarith [hdiff.1, hdiff.2]
    · rintro rfl
      rw [hapos]
      norm_num [Binary64.nearest_zero]

/-- An angle that was cleaned is in its range and stays. -/
theorem cleanAngle_cleaned (hx : x.isFinite = true) :
    (∃ q, (cleanAngle x).toRat? = some q ∧ -180 ≤ q ∧ q ≤ 180) ∧ cleanAngle (cleanAngle x) = cleanAngle x := by
  cases x with
  | nan => cases hx
  | inf negative => cases hx
  | negZero => exact ⟨⟨0, rfl, by norm_num, by norm_num⟩, rfl⟩
  | finite p =>
    set c : ℚ := min (max p (-180)) 180 with hc
    have hlo : -180 ≤ c := le_min (le_max_right _ _) (by norm_num)
    have hhi : c ≤ 180 := min_le_right _ _
    set k : ℤ := Rounding.halfEven (c * (10 : ℤ)) with hk
    have hscaled : Rounding.halfEvenTo 10 c = (k : ℚ) / 10 := rfl
    have hk1800 : |k| ≤ 1800 := by
      have h₁ := Rounding.halfEven_mono (show ((-1800 : ℤ) : ℚ) ≤ c * (10 : ℤ) by push_cast; linarith)
      have h₂ := Rounding.halfEven_mono (show c * (10 : ℤ) ≤ ((1800 : ℤ) : ℚ) by push_cast; linarith)
      rw [Rounding.halfEven_intCast] at h₁ h₂
      exact abs_le.mpr ⟨h₁, h₂⟩
    have hclean : cleanAngle (.finite p) = if (k : ℚ) / 10 = 0 ∧ c < 0 then .negZero else Binary64.ofRat ((k : ℚ) / 10) := by
      unfold cleanAngle clampAngle roundTenth
      dsimp only
      rw [← hc, hscaled]
    rw [hclean]
    split_ifs with hzero
    · exact ⟨⟨0, rfl, by norm_num, by norm_num⟩, rfl⟩
    · obtain ⟨q, hq, hnear, hqlo, hqhi, hq0⟩ := ofRat_tenth hk1800
      rw [hq]
      refine ⟨⟨q, rfl, hqlo, hqhi⟩, ?_⟩
      have hround : Rounding.halfEvenTo 10 q = (k : ℚ) / 10 := by
        unfold Rounding.halfEvenTo
        rw [Binary64.halfEven_of_near (m := k) (by push_cast; exact hnear)]
        norm_num
      have hsign : ¬ ((k : ℚ) / 10 = 0 ∧ q < 0) := by
        rintro ⟨hk0, hneg⟩
        have hk0 : k = 0 := by
          have : (k : ℚ) = 0 := by linarith
          exact_mod_cast this
        rw [hq0 hk0] at hneg
        norm_num at hneg
      unfold cleanAngle clampAngle roundTenth
      dsimp only
      rw [max_eq_left hqlo, min_eq_left hqhi, hround, if_neg hsign, hq]

/-! Entries -/

/-- A value of the kind of its key, in its range. -/
def Whitelisted (key : Text) : CtxValue → Prop
  | .int n => isKey intKeys key = true ∧ 0 ≤ n ∧ n ≤ intMax
  | .angle x => isKey angleKeys key = true ∧ ∃ q, x.toRat? = some q ∧ -180 ≤ q ∧ q ≤ 180
  | .flag _ => key = codes "has_focus"
  | .word text => key = codes "visibility" ∧ isKey visibility text = true ∨
      key = codes "combo" ∧ comboRe.matchesAll text = true

/-- An integer that no float can hold. -/
def TooLarge (value : Json) : Prop := ∃ n, value = .int n ∧ Binary64.tooLarge ≤ |(n : ℚ)|

theorem number_isOk (value : Json) : (∃ o, number value = .ok o) ↔ ¬ TooLarge value := by
  unfold TooLarge
  cases value with
  | int n =>
    have hnone := Binary64.ofInt_none (n := n)
    cases ho : Binary64.ofInt n with
    | none =>
      rw [ho] at hnone
      simp [number, ho, hnone.mp rfl]
    | some x =>
      have hlt : ¬ Binary64.tooLarge ≤ |(n : ℚ)| := by
        rw [← hnone, ho]
        exact Option.some_ne_none x
      simpa [number, ho] using hlt
  | null => simp [number]
  | bool b => simp [number]
  | float x => simp [number]
  | str text => simp [number]
  | arr items => simp [number]
  | obj fields => simp [number]

theorem sanitizeEntry_isOk (key : Text) (value : Json) : (∃ o, sanitizeEntry key value = .ok o) ↔
    ¬ ((isKey intKeys key = true ∨ isKey angleKeys key = true) ∧ TooLarge value) := by
  have hmap : ∀ f : Option Binary64 → Option CtxValue,
      (∃ o, (number value).map f = .ok o) ↔ ¬ TooLarge value := by
    intro f
    rw [← number_isOk]
    cases number value with
    | error e => simp [Except.map]
    | ok o => simp [Except.map]
  unfold sanitizeEntry
  by_cases hint : isKey intKeys key = true
  · rw [if_pos hint, hmap]
    simp [hint]
  by_cases hangle : isKey angleKeys key = true
  · rw [if_neg hint, if_pos hangle, hmap]
    simp [hangle]
  · rw [if_neg hint, if_neg hangle]
    have hkey : ¬ ((isKey intKeys key = true ∨ isKey angleKeys key = true) ∧ TooLarge value) := by
      rintro ⟨hkey | hkey, -⟩
      · exact hint hkey
      · exact hangle hkey
    refine ⟨fun _ => hkey, fun _ => ?_⟩
    cases value with
    | null => exact ⟨_, rfl⟩
    | bool b => exact ⟨_, rfl⟩
    | int n => exact ⟨_, rfl⟩
    | float x => exact ⟨_, rfl⟩
    | str text => exact ⟨_, rfl⟩
    | arr items => exact ⟨_, rfl⟩
    | obj fields => exact ⟨_, rfl⟩

theorem number_finite (h : number value = .ok (some x)) : x.isFinite = true := by
  cases value with
  | int n =>
    unfold number at h
    dsimp only at h
    cases ho : Binary64.ofInt n with
    | none =>
      rw [ho] at h
      cases h
    | some y =>
      rw [ho] at h
      cases h
      unfold Binary64.ofInt at ho
      split_ifs at ho with hover
      cases ho
      unfold Binary64.ofRat
      dsimp only
      rw [if_neg hover]
      split_ifs <;> rfl
  | float y =>
    unfold number at h
    dsimp only at h
    split_ifs at h with hfin
    · cases h
      exact hfin
    · cases h
  | null => cases h
  | bool b => cases h
  | str text => cases h
  | arr items => cases h
  | obj fields => cases h

/-- What is kept is whitelisted, and is kept again. -/
theorem sanitizeEntry_some (h : sanitizeEntry key value = .ok (some v)) :
    Whitelisted key v ∧ sanitizeEntry key v.toJson = .ok (some v) := by
  unfold sanitizeEntry at h
  by_cases hint : isKey intKeys key = true
  · rw [if_pos hint] at h
    cases hn : number value with
    | error e =>
      rw [hn] at h
      cases h
    | ok o =>
      rw [hn] at h
      cases o with
      | none => cases h
      | some x =>
        cases h
        obtain ⟨h₀, hmax⟩ := cleanInt_range x
        refine ⟨⟨hint, h₀, hmax⟩, ?_⟩
        unfold sanitizeEntry
        rw [if_pos hint]
        simp only [CtxValue.toJson, number_of_range h₀ hmax, Except.map, Option.map_some, cleanInt_intCast h₀ hmax]
  by_cases hangle : isKey angleKeys key = true
  · rw [if_neg hint, if_pos hangle] at h
    cases hn : number value with
    | error e =>
      rw [hn] at h
      cases h
    | ok o =>
      rw [hn] at h
      cases o with
      | none => cases h
      | some x =>
        cases h
        obtain ⟨⟨q, hq, hlo, hhi⟩, hagain⟩ := cleanAngle_cleaned (number_finite hn)
        refine ⟨⟨hangle, q, hq, hlo, hhi⟩, ?_⟩
        have hfin : (cleanAngle x).isFinite = true := by
          unfold Binary64.isFinite
          rw [hq]
          rfl
        unfold sanitizeEntry
        rw [if_neg hint, if_pos hangle]
        simp only [CtxValue.toJson, number, hfin, if_true, Except.map, Option.map_some, hagain]
  · rw [if_neg hint, if_neg hangle] at h
    cases value with
    | bool b =>
      dsimp only at h
      split_ifs at h with hkey
      · cases h
        refine ⟨hkey, ?_⟩
        unfold sanitizeEntry
        rw [if_neg hint, if_neg hangle]
        simp only [CtxValue.toJson, if_pos hkey]
      · cases h
    | str text =>
      dsimp only at h
      split_ifs at h with hvis hcombo
      · cases h
        refine ⟨.inl hvis, ?_⟩
        unfold sanitizeEntry
        rw [if_neg hint, if_neg hangle]
        simp only [CtxValue.toJson, if_pos hvis]
      · cases h
        refine ⟨.inr hcombo, ?_⟩
        unfold sanitizeEntry
        rw [if_neg hint, if_neg hangle]
        simp only [CtxValue.toJson, if_neg hvis, if_pos hcombo]
      · cases h
    | null => cases h
    | int n => cases h
    | float x => cases h
    | arr items => cases h
    | obj fields => cases h

/-! Contexts -/

theorem addEntry_isOk (clean : Ctx) (entry : Text × Json) : (∃ clean', addEntry clean entry = .ok clean') ↔
    ¬ ((isKey intKeys entry.1 = true ∨ isKey angleKeys entry.1 = true) ∧ TooLarge entry.2) := by
  rw [← sanitizeEntry_isOk]
  unfold addEntry
  cases sanitizeEntry entry.1 entry.2 with
  | error e => simp [Except.map]
  | ok o => simp [Except.map]

/-- A context with one entry a key, each whitelisted and kept again as it is. -/
structure Clean (clean : Ctx) : Prop where
  keys : (clean.map (·.1)).Nodup
  listed : ∀ e ∈ clean, Whitelisted e.1 e.2
  again : ∀ e ∈ clean, sanitizeEntry e.1 e.2.toJson = .ok (some e.2)

theorem Clean.nil : Clean [] where
  keys := List.nodup_nil
  listed := fun _ h => absurd h List.not_mem_nil
  again := fun _ h => absurd h List.not_mem_nil

theorem addEntry_clean {clean clean' : Ctx} {entry : Text × Json} (h : addEntry clean entry = .ok clean')
    (hc : Clean clean) : Clean clean' := by
  unfold addEntry at h
  cases hs : sanitizeEntry entry.1 entry.2 with
  | error e =>
    rw [hs] at h
    cases h
  | ok o =>
    rw [hs] at h
    cases o with
    | none =>
      cases h
      exact hc
    | some v =>
      cases h
      obtain ⟨hlisted, hagain⟩ := sanitizeEntry_some hs
      refine ⟨Assoc.nodup_put hc.keys, fun e he => ?_, fun e he => ?_⟩
      · rcases Assoc.mem_put he with rfl | he
        · exact hlisted
        · exact hc.listed e he
      · rcases Assoc.mem_put he with rfl | he
        · exact hagain
        · exact hc.again e he

/-- A clean context goes through unchanged. -/
theorem Clean.foldlM {clean : Ctx} (hc : Clean clean) :
    (clean.map fun e => (e.1, e.2.toJson)).foldlM addEntry [] = .ok clean := by
  have hloop : ∀ (rest done : Ctx), (∀ e ∈ rest, sanitizeEntry e.1 e.2.toJson = .ok (some e.2)) →
      (rest.map fun e => (e.1, e.2.toJson)).foldlM addEntry done =
        .ok (rest.foldl (fun d e => Assoc.put e.1 e.2 d) done) := by
    intro rest
    induction rest with
    | nil => exact fun _ _ => rfl
    | cons e rest ih =>
      intro done hagain
      rw [List.forall_mem_cons] at hagain
      rw [List.map_cons]
      refine Loops.foldlM_cons_ok.mpr ⟨Assoc.put e.1 e.2 done, ?_, ?_⟩
      · unfold addEntry
        rw [hagain.1]
        rfl
      · rw [List.foldl_cons]
        exact ih _ hagain.2
  rw [hloop clean [] hc.again, Assoc.foldl_put_of_nodup hc.keys]

/-- No number key has an integer that no float can hold. -/
def InRange (raw : Json) : Prop :=
  ∀ fields, raw = .obj fields → ∀ e ∈ fields, (isKey intKeys e.1 = true ∨ isKey angleKeys e.1 = true) → ¬ TooLarge e.2

theorem sanitizeCtx_isOk (floatRepr : Binary64 → String) (raw : Json) :
    (∃ clean, sanitizeCtx floatRepr raw = .ok clean) ↔ InRange raw := by
  unfold InRange
  cases raw with
  | obj fields =>
    have hloop : (∃ clean, fields.foldlM addEntry [] = .ok clean) ↔ ∀ e ∈ fields,
        ¬ ((isKey intKeys e.1 = true ∨ isKey angleKeys e.1 = true) ∧ TooLarge e.2) :=
      Loops.foldlM_isOk addEntry_isOk
    have hmap : (∃ clean, sanitizeCtx floatRepr (.obj fields) = .ok clean) ↔
        ∃ clean, fields.foldlM addEntry [] = .ok clean := by
      unfold sanitizeCtx
      dsimp only
      cases fields.foldlM addEntry [] with
      | error e => simp [Except.map]
      | ok clean => simp [Except.map]
    rw [hmap, hloop]
    constructor
    · intro h fields' heq e he hkey hlarge
      cases heq
      exact h e he ⟨hkey, hlarge⟩
    · intro h e he hboth
      exact h fields rfl e he hboth.1 hboth.2
  | null => simp [sanitizeCtx]
  | bool b => simp [sanitizeCtx]
  | int n => simp [sanitizeCtx]
  | float x => simp [sanitizeCtx]
  | str text => simp [sanitizeCtx]
  | arr items => simp [sanitizeCtx]

theorem sanitizeCtx_clean {floatRepr : Binary64 → String} {raw : Json} {clean : Ctx}
    (h : sanitizeCtx floatRepr raw = .ok clean) :
    Clean clean ∧ (Ctx.dumps floatRepr clean).length ≤ maxCtxBytes ∧ sanitizeCtx floatRepr clean.toJson = .ok clean := by
  have hnil : (Ctx.dumps floatRepr []).length ≤ maxCtxBytes := by
    change 2 ≤ 1024
    norm_num
  have hagain : ∀ clean : Ctx, Clean clean → (Ctx.dumps floatRepr clean).length ≤ maxCtxBytes →
      sanitizeCtx floatRepr clean.toJson = .ok clean := by
    intro clean hc hlen
    unfold sanitizeCtx Ctx.toJson
    dsimp only
    rw [hc.foldlM]
    change Except.ok (if maxCtxBytes < _ then [] else clean) = .ok clean
    rw [if_neg (not_lt.mpr hlen)]
  have hdone : Clean clean ∧ (Ctx.dumps floatRepr clean).length ≤ maxCtxBytes := by
    cases raw with
    | obj fields =>
      unfold sanitizeCtx at h
      dsimp only at h
      cases hloop : fields.foldlM addEntry [] with
      | error e =>
        rw [hloop] at h
        cases h
      | ok found =>
        rw [hloop] at h
        have hc : Clean found :=
          Loops.foldlM_keeps (fun e _ clean clean' hturn hc => addEntry_clean hturn hc) hloop Clean.nil
        change Except.ok (if maxCtxBytes < (Ctx.dumps floatRepr found).length then [] else found) = .ok clean at h
        split_ifs at h with hlen
        · cases h
          exact ⟨Clean.nil, hnil⟩
        · cases h
          exact ⟨hc, not_lt.mp hlen⟩
    | null =>
      cases h
      exact ⟨Clean.nil, hnil⟩
    | bool b =>
      cases h
      exact ⟨Clean.nil, hnil⟩
    | int n =>
      cases h
      exact ⟨Clean.nil, hnil⟩
    | float x =>
      cases h
      exact ⟨Clean.nil, hnil⟩
    | str text =>
      cases h
      exact ⟨Clean.nil, hnil⟩
    | arr items =>
      cases h
      exact ⟨Clean.nil, hnil⟩
  exact ⟨hdone.1, hdone.2, hagain clean hdone.1 hdone.2⟩

/-! Events -/

/-- A declared length within the limit, where there is one. -/
def DeclaredWithin (declared : Option (List Char)) : Prop :=
  ∀ text, declared = some text → isdigit text = true → ∃ n, PyText.int text = some n ∧ n ≤ maxEventBodyBytes

theorem readEventBody_isOk {floatRepr : Binary64 → String} {declared : Option (List Char)} {size : ℕ}
    {fields : List (Text × Json)} {text : Text} {type : EventType} (hdeclared : DeclaredWithin declared)
    (hsize : size ≤ maxEventBodyBytes) (htype : Json.field fields "type" = some (.str text))
    (hname : eventName text = some type) :
    (∃ ctx, readEventBody floatRepr declared size (some (.obj fields)) = .ok (type, ctx)) ↔
      InRange ((Json.field fields "ctx").getD .null) := by
  have hlength : readEventBody floatRepr declared size (some (.obj fields)) =
      readEventBody floatRepr none size (some (.obj fields)) := by
    cases declared with
    | none => rfl
    | some header =>
      unfold readEventBody
      dsimp only
      by_cases hdigits : isdigit header = true
      · obtain ⟨n, hn, hle⟩ := hdeclared header rfl hdigits
        rw [if_pos hdigits, hn]
        dsimp only
        rw [if_neg (not_lt.mpr hle)]
      · rw [if_neg hdigits]
  rw [hlength, ← sanitizeCtx_isOk floatRepr]
  unfold readEventBody
  simp only [if_neg (not_lt.mpr hsize), htype, hname]
  cases sanitizeCtx floatRepr ((Json.field fields "ctx").getD .null) with
  | error e => simp
  | ok ctx => simp [pure, Except.pure]

/-- A context that is cleaned, and loses no event. -/
structure Kept (floatRepr : Binary64 → String) (raw : Json) : Prop where
  cleaned : ∃ clean, sanitizeCtx floatRepr raw = .ok clean ∧ (∀ e ∈ clean, Whitelisted e.1 e.2) ∧
    (Ctx.dumps floatRepr clean).length ≤ maxCtxBytes ∧ sanitizeCtx floatRepr clean.toJson = .ok clean
  accepted : ∀ declared size fields text type, DeclaredWithin declared → size ≤ maxEventBodyBytes →
    Json.field fields "type" = some (.str text) → eventName text = some type →
    (Json.field fields "ctx").getD .null = raw →
    ∃ ctx, readEventBody floatRepr declared size (some (.obj fields)) = .ok (type, ctx)

/-- A context keeps its event exactly where its numbers are no integers too large for a float. -/
theorem context_kept_iff (floatRepr : Binary64 → String) (raw : Json) : Kept floatRepr raw ↔ InRange raw := by
  constructor
  · intro h
    obtain ⟨clean, hclean, -⟩ := h.cleaned
    exact (sanitizeCtx_isOk floatRepr raw).mp ⟨clean, hclean⟩
  · intro h
    refine ⟨?_, ?_⟩
    · obtain ⟨clean, hclean⟩ := (sanitizeCtx_isOk floatRepr raw).mpr h
      obtain ⟨hc, hlen, hagain⟩ := sanitizeCtx_clean hclean
      exact ⟨clean, hclean, hc.listed, hlen, hagain⟩
    · intro declared size fields text type hdeclared hsize htype hname hctx
      rw [readEventBody_isOk hdeclared hsize htype hname, hctx]
      exact h

/-- A window too wide for a float. -/
def hugeWindow : Json := .obj [(codes "vw", .int (10 ^ 400))]

def hugeEvent : List (Text × Json) := [(codes "type", .str (codes "copy")), (codes "ctx", hugeWindow)]

theorem hugeWindow_outOfRange : ¬ InRange hugeWindow := by
  intro h
  have hpow : (2 : ℚ) ^ 1024 ≤ 10 ^ 400 := by
    have h₁ : (2 : ℚ) ^ 1024 = (2 ^ 128) ^ 8 := by rw [← pow_mul]
    have h₂ : (10 : ℚ) ^ 400 = (10 ^ 50) ^ 8 := by rw [← pow_mul]
    rw [h₁, h₂]
    exact pow_le_pow_left₀ (by norm_num) (by norm_num) 8
  refine h _ rfl (codes "vw", .int (10 ^ 400)) List.mem_cons_self (.inl (by decide)) ⟨10 ^ 400, rfl, ?_⟩
  have habs : |((10 ^ 400 : ℤ) : ℚ)| = 10 ^ 400 := by
    rw [Int.cast_pow, abs_pow]
    norm_num
  rw [habs]
  have hpos : (0 : ℚ) ≤ 2 ^ 970 := pow_nonneg (by norm_num) 970
  unfold Binary64.tooLarge
  exact (sub_le_self _ hpos).trans hpow

/-- The window stops its event, and no answer says so. -/
theorem huge_window_stops_event : ¬ Kept (fun _ => "0.0") hugeWindow ∧
    readEventBody (fun _ => "0.0") none 500 (some (.obj hugeEvent)) = .error .overflow := by
  have hfails : ∀ clean, sanitizeCtx (fun _ => "0.0") hugeWindow ≠ .ok clean := fun clean hclean =>
    hugeWindow_outOfRange ((sanitizeCtx_isOk _ _).mp ⟨clean, hclean⟩)
  constructor
  · intro h
    obtain ⟨clean, hclean, -⟩ := h.cleaned
    exact hfails clean hclean
  · have hname : (eventName (codes "copy")).isSome = true := by decide +kernel
    obtain ⟨type, htype⟩ := Option.isSome_iff_exists.mp hname
    have hfield : Json.field hugeEvent "type" = some (.str (codes "copy")) := rfl
    have hctx : Json.field hugeEvent "ctx" = some hugeWindow := rfl
    unfold readEventBody
    simp only [if_neg (show ¬ maxEventBodyBytes < 500 by decide), hfield, htype, hctx, Option.getD_some]
    cases hs : sanitizeCtx (fun _ => "0.0") hugeWindow with
    | error e => rfl
    | ok clean => exact absurd hs (hfails clean)

end

end QuizEvents

end SubmissionsChecker
