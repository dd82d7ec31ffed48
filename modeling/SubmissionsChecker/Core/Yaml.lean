import Mathlib.Data.Rat.Defs
import Mathlib.Data.Rat.Floor
import SubmissionsChecker.Library.PyNumber

/-! The values of a `config.yml`, up to Python's `==`: a boolean is the number it equals, and a
mapping lists its keys in one fixed order. -/

namespace SubmissionsChecker

inductive Yaml
  | null
  | num (value : ℚ)
  | str (text : String)
  | seq (items : List Yaml)
  | map (entries : List (String × Yaml))

namespace Yaml

mutual

def decEq : (a b : Yaml) → Decidable (a = b)
  | .null, .null => isTrue rfl
  | .num x, .num y => if h : x = y then isTrue (by rw [h]) else isFalse fun e => h (Yaml.num.inj e)
  | .str x, .str y => if h : x = y then isTrue (by rw [h]) else isFalse fun e => h (Yaml.str.inj e)
  | .seq x, .seq y =>
    match decEqItems x y with
    | isTrue h => isTrue (by rw [h])
    | isFalse h => isFalse fun e => h (Yaml.seq.inj e)
  | .map x, .map y =>
    match decEqEntries x y with
    | isTrue h => isTrue (by rw [h])
    | isFalse h => isFalse fun e => h (Yaml.map.inj e)
  | .null, .num _ | .null, .str _ | .null, .seq _ | .null, .map _ => isFalse nofun
  | .num _, .null | .num _, .str _ | .num _, .seq _ | .num _, .map _ => isFalse nofun
  | .str _, .null | .str _, .num _ | .str _, .seq _ | .str _, .map _ => isFalse nofun
  | .seq _, .null | .seq _, .num _ | .seq _, .str _ | .seq _, .map _ => isFalse nofun
  | .map _, .null | .map _, .num _ | .map _, .str _ | .map _, .seq _ => isFalse nofun

def decEqItems : (a b : List Yaml) → Decidable (a = b)
  | [], [] => isTrue rfl
  | [], _ :: _ | _ :: _, [] => isFalse nofun
  | a :: as, b :: bs =>
    match decEq a b, decEqItems as bs with
    | isTrue h, isTrue h' => isTrue (by rw [h, h'])
    | isFalse h, _ => isFalse fun e => h (List.cons.inj e).1
    | _, isFalse h => isFalse fun e => h (List.cons.inj e).2

def decEqEntries : (a b : List (String × Yaml)) → Decidable (a = b)
  | [], [] => isTrue rfl
  | [], _ :: _ | _ :: _, [] => isFalse nofun
  | (k, a) :: as, (l, b) :: bs =>
    match decEq a b, decEqEntries as bs with
    | isTrue h, isTrue h' =>
      if hk : k = l then isTrue (by rw [h, h', hk]) else isFalse fun e => hk (Prod.mk.inj (List.cons.inj e).1).1
    | isFalse h, _ => isFalse fun e => h (Prod.mk.inj (List.cons.inj e).1).2
    | _, isFalse h => isFalse fun e => h (List.cons.inj e).2

end

instance : DecidableEq Yaml := decEq

/-- Python's truth of a value. -/
def isTruthy : Yaml → Bool
  | .null => false
  | .num value => value != 0
  | .str text => text != ""
  | .seq items => !items.isEmpty
  | .map entries => !entries.isEmpty

/-- `value or None`. -/
def orNull (v : Yaml) : Yaml := if v.isTruthy then v else .null

end Yaml

/-- The keys of a mapping with their values. -/
abbrev Mapping := List (String × Yaml)

/-- `mapping.get(key)`. -/
def Mapping.get (m : Mapping) (key : String) : Yaml := (m.lookup key).getD .null

/-- `mapping.get(key, default)`. -/
def Mapping.getOr (m : Mapping) (key : String) (default : Yaml) : Yaml := (m.lookup key).getD default

/-- The entries of the mapping with these keys. -/
def Mapping.only (m : Mapping) (keys : List String) : Mapping :=
  keys.filterMap fun key => (m.lookup key).map (key, ·)

/-! ## Conversions

Python's `int()` and `list()` on the values of a config and the fields of a form. A number is read
back from its decimal digits. The limit on how long a text `int()` takes is left out. -/

/-- `int(text)`; none where it raises. -/
def intOfChars (chars : List Char) : Option ℤ := PyText.readLongInt (chars.map Char.toNat)

def intOfText (text : String) : Option ℤ := intOfChars text.toList

/-- `int(number)`, which cuts off. -/
def truncate (number : ℚ) : ℤ := if 0 ≤ number then ⌊number⌋ else ⌈number⌉

namespace Yaml

/-- `int(value)`. -/
def toInt : Yaml → Option ℤ
  | .num value => some (truncate value)
  | .str text => intOfText text
  | _ => none

/-- `list(value)`, as a `for` loop goes through it. -/
def items : Yaml → Option (List Yaml)
  | .seq items => some items
  | .map entries => some (entries.map fun entry => .str entry.1)
  | .str text => some (text.toList.map fun c => .str (String.singleton c))
  | _ => none

end Yaml

end SubmissionsChecker
