import SubmissionsChecker.Library.Search
import SubmissionsChecker.Library.Assoc

/-! `split_multipart` of `docker/llm-judge/judgelib.py`: the body of a grading request taken apart
by searching for its delimiter. -/

namespace SubmissionsChecker.JudgeMultipart

open Search (slice)

abbrev Bytes := List UInt8

def crlf : Bytes := [13, 10]

def dashes : Bytes := [45, 45]

/-- `text.encode()` -/
def utf8 (text : String) : Bytes := text.toUTF8.data.toList

/-- What the `email` library reads off the headers of a part: `get_param("name")` as `str` writes
it, `get_filename()` and `get_content_type()`. -/
structure PartHeaders where
  name : Option String
  filename : Option String
  contentType : String
  deriving DecidableEq

inductive SplitError
  /-- `ValueError` -/
  | value (message : String)
  /-- Any other exception. -/
  | other
  deriving DecidableEq, Repr

/-- Where the `idx`th file is written. The caller puts the index into the name. -/
structure Destinations where
  destFor : ℕ → String → String
  distinct : ∀ i j f g, destFor i f = destFor j g → i = j

/-- What the splitting is given besides the body. -/
structure Splitter (Message : Type) where
  /-- `BytesParser(policy=HTTP).parsebytes` -/
  parsebytes : Bytes → Except SplitError Message
  /-- The look-ups in the message. -/
  headers : Message → Except SplitError PartHeaders
  /-- `decode("utf-8", errors="replace")` of bytes that are not UTF-8. -/
  replaced : Bytes → String
  dest : Destinations
  maxField : ℕ

variable {Message : Type}

/-- `decode("utf-8", errors="replace")` -/
def Splitter.decode (env : Splitter Message) (bytes : Bytes) : String :=
  if h : (ByteArray.mk bytes.toArray).IsValidUTF8 then String.fromUTF8 _ h else env.replaced bytes

/-- The two results, and the files written. -/
structure Split where
  fields : List (String × String)
  files : List (String × String × String)
  written : String → Option Bytes

def maxHeaderBytes : ℕ := 16 * 1024

def copyChunk : ℕ := 1024 * 1024

/-- The chunks of a file part, one after the other. -/
def copied (body : Bytes) (off nxt : ℕ) : Bytes :=
  if off < nxt then slice body off (min (off + copyChunk) nxt - off) ++ copied body (off + copyChunk) nxt else []
termination_by nxt - off
decreasing_by
  have : 0 < copyChunk := by decide
  omega

/-- What follows the needle makes it a delimiter: "--Bx" is content. -/
def delimits (body needle : Bytes) (pos : ℕ) : Bool :=
  slice body (pos + needle.length) 2 == crlf || slice body (pos + needle.length) 2 == dashes

/-- `find_delim` -/
def findDelim (body needle : Bytes) (start : ℕ) : Option ℕ := Search.findWith (delimits body needle) body needle start

def addFile (env : Splitter Message) (body : Bytes) (start nxt : ℕ) (filename contentType : String) (s : Split) : Split :=
  let dest := env.dest.destFor (s.files.length + 1) filename
  { s with
    files := s.files ++ [(filename, contentType, dest)]
    written := fun path => if path = dest then some (copied body start nxt) else s.written path }

/-- What is made of a part. -/
def addPart (env : Splitter Message) (body : Bytes) (start nxt : ℕ) (headers : PartHeaders) (s : Split) :
    Except SplitError Split :=
  match headers.filename, headers.name with
  | some filename, name =>
    if name = some "files" then .ok (addFile env body start nxt filename headers.contentType s) else .ok s
  | none, some name =>
    if name = "" then .ok s
    else if nxt - start > env.maxField then .error (.value "form field too large")
    else .ok { s with fields := Assoc.put name (env.decode (slice body start (nxt - start))) s.fields }
  | none, none => .ok s

/-- The loop, at a delimiter. -/
def splitFrom (env : Splitter Message) (body delim : Bytes) (pos : ℕ) (s : Split) : Except SplitError Split :=
  if slice body (pos + delim.length) 2 = dashes then .ok s
  else
    -- past the CRLF after the delimiter line
    match _hhend : Search.find body (crlf ++ crlf) (pos + delim.length + 2) with
    | none => .error (.value "bad part headers")
    | some hend =>
      if hend - (pos + delim.length + 2) > maxHeaderBytes then .error (.value "bad part headers")
      else
        match env.parsebytes (slice body (pos + delim.length + 2) (hend - (pos + delim.length + 2)) ++ (crlf ++ crlf)) with
        | .error e => .error e
        | .ok part =>
          match _hnxt : findDelim body (crlf ++ delim) (hend + 4) with
          | none => .error (.value "multipart body not terminated")
          | some nxt =>
            match env.headers part >>= fun headers => addPart env body (hend + 4) nxt headers s with
            | .error e => .error e
            -- past the CRLF that precedes the delimiter
            | .ok s => splitFrom env body delim (nxt + 2) s
termination_by body.length - pos
decreasing_by
  have := Search.find_some _hhend
  have := Search.findWith_some _hnxt
  omega

/-- `boundary` is what `get_boundary()` reads off the content type. -/
def splitMultipart (env : Splitter Message) (boundary : Option String) (body : Bytes) : Except SplitError Split :=
  match boundary with
  | none => .error (.value "no multipart boundary")
  | some boundary =>
    if boundary = "" then .error (.value "no multipart boundary")
    else
      let delim := dashes ++ utf8 boundary
      if body = [] then .error (.value "empty body")
      else
        match findDelim body delim 0 with
        | none => .error (.value "multipart body not terminated")
        | some pos => splitFrom env body delim pos ⟨[], [], fun _ => none⟩

end SubmissionsChecker.JudgeMultipart
