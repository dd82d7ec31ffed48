import SubmissionsChecker.Library.Json

/-! Python's `int()`, `float()` and `==` on the values of JSON: which texts are numbers, and what the conversions raise. -/

/-- The exceptions that a conversion or a look-up raises. -/
inductive PyError
  | attribute
  | type
  | value
  | overflow
  deriving DecidableEq, Repr

namespace Binary64

/-- The sign bit. -/
def isNegative : Binary64 → Bool
  | .nan => false
  | .inf negative => negative
  | .negZero => true
  | .finite q => decide (q < 0)

/-- A magnitude rounded, under a sign. -/
def withSign (negative : Bool) (a : ℚ) : Binary64 :=
  let r := nearest a
  if overflow ≤ r then .inf negative
  else if negative then if r = 0 then .negZero else .finite (-r)
  else .finite r

def neg : Binary64 → Binary64
  | .nan => .nan
  | .inf negative => .inf !negative
  | .negZero => .finite 0
  | .finite q => if q = 0 then .negZero else .finite (-q)

def isZero (x : Binary64) : Bool := x.toRat? == some 0

def mul (x y : Binary64) : Binary64 :=
  let negative := x.isNegative != y.isNegative
  match x.toRat?, y.toRat? with
  | some p, some q => withSign negative |p * q|
  | _, _ => if x = .nan ∨ y = .nan ∨ x.isZero ∨ y.isZero then .nan else .inf negative

/-- `x <= y`. -/
def le : Binary64 → Binary64 → Bool
  | .nan, _ => false
  | _, .nan => false
  | .inf true, _ => true
  | _, .inf false => true
  | .inf false, _ => false
  | _, .inf true => false
  | x, y => decide (x.toRat?.getD 0 ≤ y.toRat?.getD 0)

/-- `x < y`. -/
def lt (x y : Binary64) : Bool := x.le y && !y.le x

/-- `int(x)`. -/
def toInt : Binary64 → Except PyError ℤ
  | .nan => .error .value
  | .inf _ => .error .overflow
  | .negZero => .ok 0
  | .finite q => .ok (if 0 ≤ q then ⌊q⌋ else ⌈q⌉)

/-- Finite numbers compare as their rationals. -/
theorem le_of_toRat? {x y : Binary64} {p q : ℚ} (hx : x.toRat? = some p) (hy : y.toRat? = some q) :
    x.le y = decide (p ≤ q) := by
  cases x with
  | nan => cases hx
  | inf negative => cases hx
  | negZero =>
    cases hx
    cases y with
    | nan => cases hy
    | inf negative => cases hy
    | negZero => cases hy; rfl
    | finite q => cases hy; rfl
  | finite p =>
    cases hx
    cases y with
    | nan => cases hy
    | inf negative => cases hy
    | negZero => cases hy; rfl
    | finite q => cases hy; rfl

theorem lt_of_toRat? {x y : Binary64} {p q : ℚ} (hx : x.toRat? = some p) (hy : y.toRat? = some q) :
    x.lt y = decide (p < q) := by
  rw [lt, le_of_toRat? hx hy, le_of_toRat? hy hx, Bool.eq_iff_iff, Bool.and_eq_true, Bool.not_eq_true',
    decide_eq_true_eq, decide_eq_false_iff_not, decide_eq_true_eq, not_le]
  exact ⟨fun h => h.2, fun h => ⟨h.le, h⟩⟩

end Binary64

namespace PyText

/-- The number a code point stands for as a decimal digit. -/
def digit (code : ℕ) : Option ℕ := (decimalZeros.find? fun d => d ≤ code && code < d + 10).map (code - ·)

/-- Decimal digits and blanks in ASCII; a question mark for what is neither. -/
def toAscii (text : Text) : Text := text.map fun code =>
  if code < 127 then code
  else if isBlank code then 32
  else match digit code with
    | some d => 48 + d
    | none => 63

def isAsciiBlank (code : ℕ) : Bool := code == 32 || 9 ≤ code && code ≤ 13

def isAsciiDigit (code : ℕ) : Bool := 48 ≤ code && code ≤ 57

/-- The number that ASCII digits write. -/
def numeral (digits : Text) : ℕ := digits.foldl (fun n d => 10 * n + (d - 48)) 0

/-- A minus, and what follows the sign. -/
def signed : Text → Bool × Text
  | [] => (false, [])
  | c :: rest => if c = 45 then (true, rest) else if c = 43 then (false, rest) else (false, c :: rest)

/-- Underscores stand between digits. -/
def underscoresBetween (text : Text) : Bool :=
  text.head? != some 95 && text.getLast? != some 95 &&
    (text.zip text.tail).all fun (a, b) => (a != 95 || isAsciiDigit b) && (b != 95 || isAsciiDigit a)

def withoutUnderscores (text : Text) : Text := text.filter (· != 95)

/-- `int(text)` without the limit on its length. -/
def readLongInt (text : Text) : Option ℤ :=
  let (negative, body) := signed (stripped isAsciiBlank (toAscii text))
  let digits := withoutUnderscores body
  if underscoresBetween body && !digits.isEmpty && digits.all isAsciiDigit then
    some (if negative then -(numeral digits : ℤ) else numeral digits)
  else none

/-- `int(text)`; none where it raises `ValueError`. -/
def readInt (text : Text) : Option ℤ :=
  if (withoutUnderscores (signed (stripped isAsciiBlank (toAscii text))).2).length ≤ maxStrDigits then readLongInt text
  else none

section

variable {digits : Text}

end

/-- An exponent, with its letter. -/
def exponent : Text → Option ℤ
  | [] => some 0
  | c :: rest =>
    let (negative, digits) := signed rest
    if (c = 101 ∨ c = 69) ∧ digits ≠ [] ∧ digits.all isAsciiDigit then
      some (if negative then -(numeral digits : ℤ) else numeral digits)
    else none

/-- The float nearest to digits before a power of ten. -/
def decimalFloat (digits : ℕ) (exponent : ℤ) : Binary64 := Binary64.ofRat (digits * 10 ^ exponent)

def unsignedFloat (text : Text) : Option Binary64 :=
  let lower := text.map fun c => if 65 ≤ c ∧ c ≤ 90 then c + 32 else c
  if lower = codes "inf" ∨ lower = codes "infinity" then some (.inf false)
  else if lower = codes "nan" then some .nan
  else
    let whole := text.takeWhile isAsciiDigit
    let rest := text.dropWhile isAsciiDigit
    let (fraction, rest) := match rest with
      | 46 :: rest => (rest.takeWhile isAsciiDigit, rest.dropWhile isAsciiDigit)
      | rest => ([], rest)
    if whole = [] ∧ fraction = [] then none
    else (exponent rest).map fun e => decimalFloat (numeral (whole ++ fraction)) (e - fraction.length)

/-- `float(text)`; none where it raises `ValueError`. -/
def readFloat (text : Text) : Option Binary64 :=
  let body := stripped isAsciiBlank (toAscii text)
  if underscoresBetween body then
    let (negative, body) := signed (withoutUnderscores body)
    (unsignedFloat body).map fun x => if negative then x.neg else x
  else none

end PyText

namespace Json

/-- `int(value)`. -/
def toInt : Json → Except PyError ℤ
  | .bool b => .ok (if b then 1 else 0)
  | .int n => .ok n
  | .float x => x.toInt
  | .str text => match PyText.readInt text with
    | some n => .ok n
    | none => .error .value
  | _ => .error .type

/-- `float(value)`. -/
def toFloat : Json → Except PyError Binary64
  | .bool b => .ok (.finite (if b then 1 else 0))
  | .int n => match Binary64.ofInt n with
    | some x => .ok x
    | none => .error .overflow
  | .float x => .ok x
  | .str text => match PyText.readFloat text with
    | some x => .ok x
    | none => .error .value
  | _ => .error .type

/-- The number a value is to `==`: its rational, or the sign of an infinity. -/
def number? : Json → Option (ℚ ⊕ Bool)
  | .bool b => some (.inl (if b then 1 else 0))
  | .int n => some (.inl n)
  | .float (.inf negative) => some (.inr negative)
  | .float x => x.toRat?.map .inl
  | _ => none

/-- `a == b` of two values that are no containers. -/
def eqScalar : Json → Json → Bool
  | .null, .null => true
  | .str s, .str t => s == t
  | a, b => match a.number?, b.number? with
    | some x, some y => decide (x = y)
    | _, _ => false

mutual

/-- `a == b`; objects regardless of the order of their keys. -/
def eq : Json → Json → Bool
  | .arr xs, .arr ys => eqItems xs ys
  | .obj fs, .obj gs => fs.length == gs.length && eqFields fs gs
  | a, b => eqScalar a b

def eqItems : List Json → List Json → Bool
  | [], [] => true
  | x :: xs, y :: ys => eq x y && eqItems xs ys
  | _, _ => false

def eqFields : List (PyText.Text × Json) → List (PyText.Text × Json) → Bool
  | [], _ => true
  | (k, v) :: fs, gs => (match gs.lookup k with
    | some w => eq v w
    | none => false) && eqFields fs gs

end

/-- `value.get(key, default)`, of a key that is a text. -/
def getText (value : Json) (key : PyText.Text) (default : Json) : Except PyError Json :=
  match value with
  | .obj fields => .ok ((fields.lookup key).getD default)
  | _ => .error .attribute

/-- `value.get(key, default)`. -/
def get (value : Json) (key : String) (default : Json) : Except PyError Json := getText value (PyText.codes key) default

def isMapping : Json → Bool
  | .obj _ => true
  | _ => false

section

variable {a b v : Json} {x y : Binary64} {key : String} {default : Json}

/-- A number that equals another is zero with it. -/
theorem truthy_of_number? {n : ℚ ⊕ Bool} (ha : a.number? = some n) : a.truthy = true ↔ n ≠ .inl 0 := by
  cases a with
  | bool b =>
    cases ha
    cases b <;> simp [truthy]
  | int m =>
    cases ha
    simp [truthy]
  | float x =>
    cases x with
    | nan => cases ha
    | inf negative =>
      cases ha
      simp [truthy]
    | negZero =>
      cases ha
      simp [truthy]
    | finite q =>
      cases ha
      simp [truthy]
  | null => cases ha
  | str text => cases ha
  | arr items => cases ha
  | obj fields => cases ha

theorem truthy_of_eqScalar (h : eqScalar a b = true) : a.truthy = b.truthy := by
  unfold eqScalar at h
  split at h
  · rfl
  · rw [beq_iff_eq] at h
    rw [h]
  · split at h
    · rename_i x y hx hy
      rw [decide_eq_true_eq] at h
      rw [Bool.eq_iff_iff, truthy_of_number? hx, truthy_of_number? hy, h]
    · cases h

theorem truthy_of_eq (h : eq a b = true) : a.truthy = b.truthy := by
  unfold eq at h
  split at h
  · rename_i xs ys
    cases xs with
    | nil =>
      cases ys with
      | nil => rfl
      | cons y ys => cases h
    | cons x xs =>
      cases ys with
      | nil => cases h
      | cons y ys => rfl
  · rename_i fs gs
    rw [Bool.and_eq_true, beq_iff_eq] at h
    unfold truthy
    dsimp only
    rw [Bool.eq_iff_iff, Bool.not_eq_true', Bool.not_eq_true', List.isEmpty_eq_false_iff, List.isEmpty_eq_false_iff,
      ← List.length_pos_iff, ← List.length_pos_iff, h.1]
  · exact truthy_of_eqScalar h

theorem get_isOk : (∃ found, v.get key default = .ok found) ↔ v.isMapping = true := by
  cases v <;> simp [get, getText, isMapping]

end

end Json
