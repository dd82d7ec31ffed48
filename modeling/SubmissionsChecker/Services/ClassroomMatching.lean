import Mathlib.Data.List.Sort
import Mathlib.Data.Prod.Lex
import Mathlib.Data.Rat.Defs
import Mathlib.Data.Rat.Floor
import Mathlib.Data.String.Basic
import SubmissionsChecker.Library.Assoc
import SubmissionsChecker.Library.Leader
import SubmissionsChecker.Library.Loops
import SubmissionsChecker.Library.PyText
import SubmissionsChecker.Library.Rounding

/-! `services/google/coursework_match.py`: which Classroom coursework belongs to which assignment. The similarity of two
titles is a parameter. -/

namespace SubmissionsChecker

namespace CourseworkMatch

/-- An id and a title. -/
abbrev Assignment := ℕ × String

abbrev Coursework := String × String

def margin : ℚ := 1 / 10

/-- `_NUMBER.search`: the first run of digits. -/
def firstDigits (title : String) : List Char :=
  (title.toList.dropWhile fun c => !PyText.isDecimal c).takeWhile PyText.isDecimal

/-- What `int()` raises on more digits than it converts. -/
inductive ValueError
  | tooManyDigits
  deriving DecidableEq, Repr

/-- `_number`. -/
def number (title : String) : Except ValueError (Option ℕ) :=
  match firstDigits title with
  | [] => .ok none
  | digits => match PyText.int digits with
    | none => .error .tooManyDigits
    | some n => .ok (some n)

/-- The courseworks still free, and what was suggested. -/
structure Draft where
  free : List Coursework
  out : List (ℕ × String) := []
  deriving DecidableEq, Repr

/-- `out[a_id] = cw_id` and `del free[cw_id]`. -/
def Draft.link (d : Draft) (a : Assignment) (id : String) : Draft where
  free := d.free.filter fun cw => cw.1 ≠ id
  out := Assoc.set a.1 id d.out

variable (similarity : String → String → ℚ)

/-- The free courseworks by similarity, the most similar first. -/
def scored (title : String) (free : List Coursework) : List (ℚ × String) :=
  (free.map fun cw => (similarity title cw.2, cw.1)).mergeSort fun x y => decide (toLex y ≤ toLex x)

end CourseworkMatch

/-! ## The roster

`services/google/matching.py`: which student a Classroom roster entry is. The similarity of two tokens, the letters
and the lower case of Unicode are parameters. -/

namespace Matching

def nameThreshold : ℚ := 85 / 100

def margin : ℚ := 10 / 100

structure Candidate where
  studentId : ℕ
  fullName : String
  email : String
  group : Option String := none
  deriving DecidableEq, Repr

structure RosterEntry where
  userId : String
  fullName : String
  email : Option String
  deriving DecidableEq, Repr

inductive LinkMethod
  | email | name | none
  deriving DecidableEq, Repr

/-- A candidate shown with a result. -/
structure Suggestion where
  studentId : ℕ
  fullName : String
  score : ℚ
  deriving DecidableEq, Repr

structure MatchResult where
  method : LinkMethod
  studentId : Option ℕ
  score : Option ℚ
  candidates : List Suggestion
  certain : Bool := false
  deriving DecidableEq, Repr

/-- `str.isalnum` of a character, and `str.lower`. -/
structure Tables where
  isAlnum : Char → Bool
  lower : List Char → List Char

/-- `_KMU`. -/
def kmu : List (Char × String) :=
  [('а', "a"), ('б', "b"), ('в', "v"), ('г', "h"), ('ґ', "g"), ('д', "d"), ('е', "e"), ('є', "ie"), ('ж', "zh"),
   ('з', "z"), ('и', "y"), ('і', "i"), ('ї', "i"), ('й', "i"), ('к', "k"), ('л', "l"), ('м', "m"), ('н', "n"),
   ('о', "o"), ('п', "p"), ('р', "r"), ('с', "s"), ('т', "t"), ('у', "u"), ('ф', "f"), ('х', "kh"), ('ц', "ts"),
   ('ч', "ch"), ('ш', "sh"), ('щ', "shch"), ('ь', ""), ('ю', "iu"), ('я', "ia"), ('ъ', ""), ('ы', "y"), ('э', "e"),
   ('ё', "e")]

/-- `_KMU_START`. -/
def kmuStart : List (Char × String) := [('є', "ye"), ('ї', "yi"), ('й', "y"), ('ю', "yu"), ('я', "ya")]

def translitLetter (c : Char) : List Char := ((kmu.lookup c).map String.toList).getD [c]

/-- `_translit`. -/
def translit : List Char → List Char
  | [] => []
  | c :: rest => ((kmuStart.lookup c).map String.toList).getD (translitLetter c) ++ rest.flatMap translitLetter

/-- Token without a digit. -/
def noDigit (token : List Char) : Bool := !token.isEmpty && !token.any PyText.isDigit

section

variable (T : Tables)

/-- `\w`. -/
def isWord (c : Char) : Bool := T.isAlnum c || c == '_'

/-- `[^\W\d_]`. -/
def isLetter (c : Char) : Bool := isWord T c && !PyText.isDecimal c && c != '_'

/-- `_GROUP_RE`. -/
def groupRegex : PyText.Regex Char :=
  let letter := PyText.Regex.one (isLetter T)
  let digit := PyText.Regex.one PyText.isDecimal
  (PyText.Regex.many PyText.isSpace).andThen <| letter.andThen <| (letter.upTo 2).andThen <|
    (PyText.Regex.one (· == '-')).optional.andThen <|
    (PyText.Regex.one fun c => c ∈ ['з', 'z', 'З', 'Z']).optional.andThen <|
    digit.andThen <| digit.andThen <| letter.optional.andThen <|
    (PyText.Regex.one PyText.isSpace).andThen (PyText.Regex.many PyText.isSpace)

/-- `name_tokens`. -/
def nameTokens (name : String) : List (List Char) :=
  let name := T.lower (((groupRegex T name.toList).head?).getD name.toList)
  -- the apostrophes of ASCII, U+02BC, U+2019 and the grave accent
  let name := name.filter fun c => c.toNat ∉ [0x27, 0x2bc, 0x2019, 0x60]
  ((name.splitOnP fun c => !isWord T c).filter noDigit).map translit

/-- `email_tokens`. -/
def emailTokens (email : Option String) : List (List Char) :=
  let localPart := T.lower ((email.getD "").toList.takeWhile (· != '@'))
  (localPart.splitOnP fun c => c ∈ ['.', '_', '-']).filter noDigit

/-- An address without surrounding blanks, in lower case. -/
def address (email : String) : List Char := T.lower (PyText.strip email.toList)

end

/-- `permutations(.., 2)`, as the elements. -/
def orderedPairs {α : Type} (xs : List α) : List (α × α) :=
  (List.range xs.length).flatMap fun i => (List.range xs.length).filterMap fun j =>
    if i = j then none else do return (← xs[i]?, ← xs[j]?)

section

variable (sim : List Char → List Char → ℚ)

def pairScores (a b : List (List Char)) : List ℚ :=
  (orderedPairs a).flatMap fun x => (orderedPairs b).map fun y => (sim x.1 y.1 + sim x.2 y.2) / 2

/-- `name_sim`: the best pair of tokens on each side. -/
def nameSim (a b : List (List Char)) : ℚ :=
  let a := a.take 3
  let b := b.take 3
  if a.isEmpty ∨ b.isEmpty then 0
  else if a.length = 1 ∨ b.length = 1 then
    (((a.flatMap fun x => b.map fun y => sim x y).max?).getD 0) * (1 / 2)
  else (pairScores sim a b).foldl max 0

variable (T : Tables)

/-- The combined score of a candidate. -/
def score (entry : RosterEntry) (c : Candidate) : ℚ :=
  let nt := nameTokens T entry.fullName
  let et := emailTokens T entry.email
  let ct := nameTokens T c.fullName
  max (nameSim sim nt ct) (if 2 ≤ et.length then nameSim sim et ct else 0)

/-- The first candidate of the entry's address, when it has one. -/
def byEmail (entry : RosterEntry) (candidates : List Candidate) : Option Candidate :=
  let email := address T (entry.email.getD "")
  candidates.find? fun c => email ≠ [] ∧ address T c.email = email

/-- `round(.., 2)`. -/
def roundScore (s : ℚ) : ℚ := Rounding.halfEvenTo 100 s

/-- `match`. -/
def matchEntry (entry : RosterEntry) (candidates : List Candidate) : MatchResult :=
  match byEmail T entry candidates with
  | some c => { method := .email, studentId := some c.studentId, score := some 1, candidates := [], certain := true }
  | none =>
    match Leader.ranked (score sim T entry) candidates with
    | [] => { method := .none, studentId := none, score := none, candidates := [] }
    | c :: rest =>
      let top := ((c :: rest).take 3).map fun c =>
        { studentId := c.studentId, fullName := c.fullName, score := roundScore (score sim T entry c) : Suggestion }
      let best := score sim T entry c
      let second := ((rest.head?).map (score sim T entry)).getD 0
      if nameThreshold ≤ best ∧ margin ≤ best - second then
        { method := .name, studentId := some c.studentId, score := some (roundScore best), candidates := top
          certain := decide (best = 1) }
      else { method := .none, studentId := none, score := some (roundScore best), candidates := top }

end

end Matching

end SubmissionsChecker
