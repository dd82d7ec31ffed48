import Mathlib.Data.List.Basic
import Mathlib.Tactic.Ring

/-! Python's text: which characters are digits and blanks in Unicode 15.0, `strip`, `isdigit` and `int()`. The digit
test accepts more characters than the conversion, and more of them. A text is a list of characters, or of code points
where lone surrogates are among them. -/

namespace PyText

/-- The zeros of the decimal digits (category `Nd`); the other nine follow each in order. -/
def decimalZeros : List ℕ :=
  [0x30, 0x660, 0x6f0, 0x7c0, 0x966, 0x9e6, 0xa66, 0xae6, 0xb66, 0xbe6, 0xc66, 0xce6, 0xd66, 0xde6, 0xe50, 0xed0,
   0xf20, 0x1040, 0x1090, 0x17e0, 0x1810, 0x1946, 0x19d0, 0x1a80, 0x1a90, 0x1b50, 0x1bb0, 0x1c40, 0x1c50, 0xa620,
   0xa8d0, 0xa900, 0xa9d0, 0xa9f0, 0xaa50, 0xabf0, 0xff10, 0x104a0, 0x10d30, 0x11066, 0x110f0, 0x11136, 0x111d0,
   0x112f0, 0x11450, 0x114d0, 0x11650, 0x116c0, 0x11730, 0x118e0, 0x11950, 0x11c50, 0x11d50, 0x11da0, 0x11f50,
   0x16a60, 0x16ac0, 0x16b50, 0x1d7ce, 0x1d7d8, 0x1d7e2, 0x1d7ec, 0x1d7f6, 0x1e140, 0x1e2f0, 0x1e4f0, 0x1e950,
   0x1fbf0]

/-- The digits that are not decimal: superscripts, circled digits and the like. -/
def specialDigits : List (ℕ × ℕ) :=
  [(0xb2, 0xb3), (0xb9, 0xb9), (0x1369, 0x1371), (0x19da, 0x19da), (0x2070, 0x2070), (0x2074, 0x2079),
   (0x2080, 0x2089), (0x2460, 0x2468), (0x2474, 0x247c), (0x2488, 0x2490), (0x24ea, 0x24ea), (0x24f5, 0x24fd),
   (0x24ff, 0x24ff), (0x2776, 0x277e), (0x2780, 0x2788), (0x278a, 0x2792), (0x10a40, 0x10a43), (0x10e60, 0x10e68),
   (0x11052, 0x1105a), (0x1f100, 0x1f10a)]

def blanks : List (ℕ × ℕ) :=
  [(0x9, 0xd), (0x1c, 0x20), (0x85, 0x85), (0xa0, 0xa0), (0x1680, 0x1680), (0x2000, 0x200a), (0x2028, 0x2029),
   (0x202f, 0x202f), (0x205f, 0x205f), (0x3000, 0x3000)]

def inRanges (ranges : List (ℕ × ℕ)) (code : ℕ) : Bool := ranges.any fun r => r.1 ≤ code && code ≤ r.2

/-- Code points. -/
abbrev Text := List ℕ

/-- The code points of a literal. -/
def codes (text : String) : Text := text.toList.map Char.toNat

/-- The number a decimal digit stands for. -/
def decimalValue (c : Char) : Option ℕ :=
  (decimalZeros.find? fun d => d ≤ c.toNat && c.toNat < d + 10).map (c.toNat - ·)

def isDecimal (c : Char) : Bool := (decimalValue c).isSome

def isDigit (c : Char) : Bool := isDecimal c || inRanges specialDigits c.toNat

def isBlank (code : ℕ) : Bool := inRanges blanks code

def isSpace (c : Char) : Bool := isBlank c.toNat

/-- What is left without the ends of the kind. -/
def stripped {α : Type} (p : α → Bool) (text : List α) : List α :=
  ((text.dropWhile p).reverse.dropWhile p).reverse

/-- `text.strip()`. -/
def strip (text : List Char) : List Char := stripped isSpace text

/-- `text.isdigit()`. -/
def isdigit (text : List Char) : Bool := !text.isEmpty && text.all isDigit

/-- `sys.int_info.default_max_str_digits`: longer texts are not converted, in either direction. -/
def maxStrDigits : ℕ := 4300

/-- `int(text)` of a text of digits; none where it raises `ValueError`. -/
def int (text : List Char) : Option ℕ :=
  if text.isEmpty ∨ maxStrDigits < text.length then none
  else (text.mapM decimalValue).map fun digits => digits.foldl (fun n d => 10 * n + d) 0

/-- `str(number)`; none where it raises `ValueError`. -/
def str (number : ℤ) : Option String :=
  if 10 ^ maxStrDigits ≤ number.natAbs then none else some (toString number)

/-! Regular expressions, as the rests of a text that a match leaves, in the order in which they are tried -/

abbrev Regex (α : Type) := List α → List (List α)

namespace Regex

variable {α : Type}

def one (p : α → Bool) : Regex α
  | [] => []
  | c :: text => if p c then [text] else []

def andThen (m n : Regex α) : Regex α := fun text => (m text).flatMap n

/-- `m?`. -/
def optional (m : Regex α) : Regex α := fun text => m text ++ [text]

/-- `p*`. -/
def many (p : α → Bool) : Regex α
  | [] => [[]]
  | c :: text => if p c then many p text ++ [c :: text] else [c :: text]

/-- `m{0,n}`. -/
def upTo (m : Regex α) : ℕ → Regex α
  | 0 => fun text => [text]
  | n + 1 => optional (m.andThen (upTo m n))

/-- A literal. -/
def word [DecidableEq α] (w : List α) : Regex α := fun text =>
  if w.isPrefixOf text then [text.drop w.length] else []

/-- `m|n`. -/
def or (m n : Regex α) : Regex α := fun text => m text ++ n text

/-- `fullmatch`. -/
def matchesAll [DecidableEq α] (m : Regex α) (text : List α) : Bool := decide ([] ∈ m text)

end Regex

section

variable {c : Char} {text : List Char}

theorem isDigit_of_isDecimal (h : isDecimal c = true) : isDigit c = true := by
  unfold isDigit
  rw [h, Bool.true_or]

theorem mapM_decimalValue : (text.mapM decimalValue).isSome = true ↔ ∀ c ∈ text, isDecimal c = true := by
  induction text with
  | nil => simp
  | cons c text ih =>
    rw [List.mapM_cons, List.forall_mem_cons, ← ih]
    unfold isDecimal
    rcases decimalValue c with _ | d
    · simp
    · rcases text.mapM decimalValue with _ | ds <;> simp

/-- The conversion takes decimal digits, up to the limit. -/
theorem int_isSome : (int text).isSome = true ↔
    text ≠ [] ∧ text.length ≤ maxStrDigits ∧ ∀ c ∈ text, isDecimal c = true := by
  unfold int
  rw [← mapM_decimalValue]
  split_ifs with h
  · simp only [Option.isSome_none, Bool.false_eq_true, false_iff, not_and]
    intro hne hlen
    rcases h with h | h
    · exact absurd (List.isEmpty_iff.mp h) hne
    · omega
  · rw [not_or, not_lt, List.isEmpty_iff] at h
    rw [Option.isSome_map]
    exact ⟨fun hs => ⟨h.1, h.2, hs⟩, fun hs => hs.2.2⟩

theorem isdigit_iff : isdigit text = true ↔ text ≠ [] ∧ ∀ c ∈ text, isDigit c = true := by
  unfold isdigit
  rw [Bool.and_eq_true, Bool.not_eq_true', List.isEmpty_eq_false_iff, List.all_eq_true]

theorem isdigit_of_int (h : (int text).isSome = true) : isdigit text = true := by
  obtain ⟨hne, -, hdec⟩ := int_isSome.mp h
  exact isdigit_iff.mpr ⟨hne, fun c hc => isDigit_of_isDecimal (hdec c hc)⟩

theorem decimalValue_lt {d : ℕ} (h : decimalValue c = some d) : d < 10 := by
  unfold decimalValue at h
  obtain ⟨start, hstart, rfl⟩ := Option.map_eq_some_iff.mp h
  have hmem := List.find?_some hstart
  simp only [Bool.and_eq_true, decide_eq_true_eq] at hmem
  omega

/-- A number read is below the limit of what can be written. -/
theorem int_lt {n : ℕ} (h : int text = some n) : n < 10 ^ maxStrDigits := by
  have hfold : ∀ (text : List Char) (digits : List ℕ) (m : ℕ), text.mapM decimalValue = some digits →
      digits.foldl (fun n d => 10 * n + d) m < (m + 1) * 10 ^ text.length := by
    intro text
    induction text with
    | nil =>
      intro digits m hm
      cases hm
      simp
    | cons c text ih =>
      intro digits m hm
      rw [List.mapM_cons] at hm
      obtain ⟨d, hd, hm⟩ := Option.bind_eq_some_iff.mp hm
      obtain ⟨rest, hrest, hm⟩ := Option.bind_eq_some_iff.mp hm
      cases hm
      have hlt := decimalValue_lt hd
      calc (d :: rest).foldl (fun n d => 10 * n + d) m
          = rest.foldl (fun n d => 10 * n + d) (10 * m + d) := rfl
        _ < (10 * m + d + 1) * 10 ^ text.length := ih rest _ hrest
        _ ≤ (10 * (m + 1)) * 10 ^ text.length := Nat.mul_le_mul_right _ (by omega)
        _ = (m + 1) * 10 ^ (c :: text).length := by rw [List.length_cons, pow_succ]; ring
  unfold int at h
  split_ifs at h with hlen
  obtain ⟨digits, hdigits, rfl⟩ := Option.map_eq_some_iff.mp h
  rw [not_or, not_lt] at hlen
  calc digits.foldl (fun n d => 10 * n + d) 0
      < (0 + 1) * 10 ^ text.length := hfold text digits 0 hdigits
    _ = 10 ^ text.length := by rw [zero_add, one_mul]
    _ ≤ 10 ^ maxStrDigits := Nat.pow_le_pow_right (by decide) hlen.2

end

end PyText
