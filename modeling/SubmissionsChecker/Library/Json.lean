import SubmissionsChecker.Library.Binary64
import SubmissionsChecker.Library.PyText

/-! JSON values as Python holds them: integers of any size beside floats, texts of code points, and objects in the order
of their keys. -/

inductive Json
  | null
  | bool (b : Bool)
  | int (n : ℤ)
  | float (x : Binary64)
  | str (text : PyText.Text)
  | arr (items : List Json)
  | obj (fields : List (PyText.Text × Json))

namespace Json

/-- A field of an object. -/
def field (fields : List (PyText.Text × Json)) (key : String) : Option Json := fields.lookup (PyText.codes key)

/-- Python's truth. -/
def truthy : Json → Bool
  | .null => false
  | .bool b => b
  | .int n => n != 0
  | .float x => x != .negZero && x != .finite 0
  | .str text => !text.isEmpty
  | .arr items => !items.isEmpty
  | .obj fields => !fields.isEmpty

end Json
