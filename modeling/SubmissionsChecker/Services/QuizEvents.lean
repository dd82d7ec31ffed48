import SubmissionsChecker.Library.Json
import SubmissionsChecker.Library.Loops
import SubmissionsChecker.Core.Yaml
import SubmissionsChecker.Routes.AntiCheat

/-! `services/quiz_events.py` and `_read_event` of `api/routes/student_quiz.py`: what a client says about an event, before
it is stored. -/

namespace SubmissionsChecker

namespace QuizEvents

open PyText

def maxCtxBytes : ℕ := 1024

def intMax : ℤ := 10 ^ 9

/-- `_INT_KEYS`. -/
def intKeys : List String :=
  ["vw", "vh", "ms_since_load", "from_w", "from_h", "to_w", "to_h", "away_ms", "faces", "held_ms"]

/-- `_ANGLE_KEYS`. -/
def angleKeys : List String := ["yaw", "pitch"]

/-- `_VISIBILITY`. -/
def visibility : List String := ["visible", "hidden"]

def isKey (keys : List String) (key : Text) : Bool := keys.any fun k => codes k == key

/-- `[a-z0-9]`. -/
def isLowerOrDigit (code : ℕ) : Bool := 97 ≤ code && code ≤ 122 || 48 ≤ code && code ≤ 57

/-- `_COMBO_RE`. -/
def comboRe : Regex ℕ :=
  let modifier := ((Regex.word (codes "ctrl")).or <| (Regex.word (codes "alt")).or <|
    (Regex.word (codes "meta")).or (Regex.word (codes "shift"))).andThen (Regex.word (codes "+"))
  (modifier.upTo 4).andThen <| (Regex.one isLowerOrDigit).andThen ((Regex.one isLowerOrDigit).upTo 11)

/-- `math.isfinite` of an integer that no float can hold. -/
inductive OverflowError
  | intTooLarge
  deriving DecidableEq, Repr

/-- `_number`. -/
def number : Json → Except OverflowError (Option Binary64)
  | .int n => match Binary64.ofInt n with
    | none => .error .intTooLarge
    | some x => .ok (some x)
  | .float x => .ok (if x.isFinite then some x else none)
  | _ => .ok none

/-- A value that is kept. -/
inductive CtxValue
  | int (n : ℤ)
  | angle (x : Binary64)
  | flag (b : Bool)
  | word (text : Text)
  deriving DecidableEq, Repr

def CtxValue.toJson : CtxValue → Json
  | .int n => .int n
  | .angle x => .float x
  | .flag b => .bool b
  | .word text => .str text

/-- `min(max(int(number), 0), _INT_MAX)`. -/
def cleanInt (x : Binary64) : ℤ := min (max (truncate (x.toRat?.getD 0)) 0) intMax

/-- `min(max(number, -180.0), 180.0)`. -/
def clampAngle : Binary64 → Binary64
  | .finite q => .finite (min (max q (-180)) 180)
  | x => x

/-- `round(number, 1)`. -/
def roundTenth : Binary64 → Binary64
  | .finite q =>
    let r := Rounding.halfEvenTo 10 q
    if r = 0 ∧ q < 0 then .negZero else Binary64.ofRat r
  | x => x

def cleanAngle (x : Binary64) : Binary64 := roundTenth (clampAngle x)

/-- A turn of the loop: what is kept of a value under its key. -/
def sanitizeEntry (key : Text) (value : Json) : Except OverflowError (Option CtxValue) :=
  if isKey intKeys key then (number value).map fun x => x.map fun x => .int (cleanInt x)
  else if isKey angleKeys key then (number value).map fun x => x.map fun x => .angle (cleanAngle x)
  else match value with
    | .bool b => .ok (if key = codes "has_focus" then some (.flag b) else none)
    | .str text =>
      .ok (if key = codes "visibility" ∧ isKey visibility text then some (.word text)
        else if key = codes "combo" ∧ comboRe.matchesAll text then some (.word text) else none)
    | _ => .ok none

abbrev Ctx := List (Text × CtxValue)

def addEntry (clean : Ctx) (entry : Text × Json) : Except OverflowError Ctx :=
  (sanitizeEntry entry.1 entry.2).map fun
    | none => clean
    | some value => Assoc.put entry.1 value clean

def Ctx.toJson (clean : Ctx) : Json := .obj (clean.map fun e => (e.1, e.2.toJson))

section

variable (floatRepr : Binary64 → String)

/-- `json.dumps` of a value that is kept; its texts have nothing to escape. -/
def CtxValue.dumps : CtxValue → Text
  | .int n => codes (toString n)
  | .angle x => codes (floatRepr x)
  | .flag b => codes (if b then "true" else "false")
  | .word text => codes "\"" ++ text ++ codes "\""

/-- `json.dumps`; `floatRepr` is `float.__repr__`. -/
def Ctx.dumps (clean : Ctx) : Text :=
  codes "\x7b" ++
    ((clean.map fun e => codes "\"" ++ e.1 ++ codes "\": " ++ e.2.dumps floatRepr).intersperse (codes ", ")).flatten ++
    codes "\x7d"

/-- `sanitize_ctx`. -/
def sanitizeCtx (raw : Json) : Except OverflowError Ctx :=
  match raw with
  | .obj fields =>
    (fields.foldlM addEntry []).map fun clean => if maxCtxBytes < (Ctx.dumps floatRepr clean).length then [] else clean
  | _ => .ok []

end

def maxEventBodyBytes : ℕ := 4096

/-- What `_read_event` can raise: an answer to the client, or an error that is none. -/
inductive EventError
  | http (status : ℕ) (detail : String)
  | value
  | overflow
  deriving DecidableEq, Repr

/-- The event type of a text; a lone surrogate is in no name. -/
def eventName (type : Text) : Option EventType :=
  let name := String.ofList (type.map Char.ofNat)
  if h : eventTypeRe name = true then some ⟨name, h⟩ else none

/-- `_read_event`, of the declared length, the length and what `json.loads` makes of the body. -/
def readEventBody (floatRepr : Binary64 → String) (declared : Option (List Char)) (size : ℕ) (loaded : Option Json) :
    Except EventError (EventType × Ctx) := do
  match declared with
  | none => pure ()
  | some text =>
    if isdigit text then
      match PyText.int text with
      | none => throw .value
      | some n => if maxEventBodyBytes < n then throw (.http 413 "Event body too large")
  if maxEventBodyBytes < size then throw (.http 413 "Event body too large")
  match loaded with
  | none => throw (.http 400 "Body must be JSON")
  | some (.obj fields) =>
    let name := match Json.field fields "type" with
      | some (.str type) => eventName type
      | _ => none
    match name with
    | none => throw (.http 400 "type must be a short snake_case name")
    | some type =>
      match sanitizeCtx floatRepr ((Json.field fields "ctx").getD .null) with
      | .error _ => throw .overflow
      | .ok ctx => return (type, ctx)
  | some _ => throw (.http 400 "Body must be a JSON object")

end QuizEvents

end SubmissionsChecker
