import SubmissionsChecker.Services.JudgeMultipart
import SubmissionsChecker.Library.Loops

/-! Splitting a multipart body undoes its encoding: every part is found where it was put, whatever
its bytes, unless they hold a delimiter line. -/

namespace SubmissionsChecker.JudgeMultipart

open Search (slice OccursAt)

variable {Message : Type} {env : Splitter Message} {body delim content : Bytes} {lines : List Bytes} {off nxt pos : ℕ}
  {s s' : Split}

/-! ## The copy in chunks -/

theorem slice_append {α : Type*} (text : List α) (off m n : ℕ) :
    slice text off m ++ slice text (off + m) n = slice text off (m + n) := by
  rw [slice, slice, slice, List.take_add, List.drop_drop]

theorem copied_eq (body : Bytes) (off nxt : ℕ) : copied body off nxt = slice body off (nxt - off) := by
  induction off using copied.induct nxt with
  | case1 off hlt ih =>
    rw [copied, if_pos hlt, ih]
    rcases Nat.le_total (off + copyChunk) nxt with hle | hle
    · have hmin : min (off + copyChunk) nxt - off = copyChunk := by omega
      have hsum : copyChunk + (nxt - (off + copyChunk)) = nxt - off := by omega
      rw [hmin, slice_append, hsum]
    · have hmin : min (off + copyChunk) nxt - off = nxt - off := by omega
      have hzero : nxt - (off + copyChunk) = 0 := by omega
      rw [hmin, hzero, slice, slice, List.take_zero, List.append_nil]
  | case2 off hnot =>
    have hzero : nxt - off = 0 := by omega
    rw [copied, if_neg hnot, hzero, slice, List.take_zero]

/-- What is made of a part with these bytes. -/
def addContent (env : Splitter Message) (content : Bytes) (headers : PartHeaders) (s : Split) : Except SplitError Split :=
  match headers.filename, headers.name with
  | some filename, name =>
    if name = some "files" then
      .ok { s with
        files := s.files ++ [(filename, headers.contentType, env.dest.destFor (s.files.length + 1) filename)]
        written := fun path =>
          if path = env.dest.destFor (s.files.length + 1) filename then some content else s.written path }
    else .ok s
  | none, some name =>
    if name = "" then .ok s
    else if content.length > env.maxField then .error (.value "form field too large")
    else .ok { s with fields := Assoc.put name (env.decode content) s.fields }
  | none, none => .ok s

theorem addPart_eq {headers : PartHeaders} (hcontent : slice body off (nxt - off) = content)
    (hlength : nxt - off = content.length) : addPart env body off nxt headers s = addContent env content headers s := by
  obtain ⟨name, filename, contentType⟩ := headers
  cases filename with
  | some filename => simp only [addPart, addContent, addFile, copied_eq, hcontent]
  | none =>
    cases name with
    | some name =>
      rw [hlength] at hcontent
      simp only [addPart, addContent, hcontent, hlength]
    | none => rfl

/-! ## The encoding -/

/-- The lines of a header block. -/
def headerBytes : List Bytes → Bytes
  | [] => []
  | [line] => line
  | line :: next :: lines => line ++ crlf ++ headerBytes (next :: lines)

structure RawPart where
  lines : List Bytes
  content : Bytes

def encodePart (delim : Bytes) (p : RawPart) : Bytes :=
  delim ++ crlf ++ headerBytes p.lines ++ (crlf ++ crlf) ++ p.content ++ crlf

/-- A body as it is written. -/
def encode (delim : Bytes) (parts : List RawPart) : Bytes := parts.flatMap (encodePart delim) ++ (delim ++ dashes ++ crlf)

/-- No delimiter line in a content: CRLF, the delimiter, and a CRLF or dashes after it, in the content with the CRLF that closes
it. -/
def NoDelimiter (delim content : Bytes) : Prop :=
  ∀ follow, follow = crlf ∨ follow = dashes → ¬ crlf ++ delim ++ follow <:+: content ++ crlf

/-- A header block is of lines without a carriage return, and not too long. -/
structure LinesFit (lines : List Bytes) : Prop where
  some : lines ≠ []
  filled : ∀ line ∈ lines, line ≠ []
  noReturn : ∀ line ∈ lines, 13 ∉ line
  short : (headerBytes lines).length ≤ maxHeaderBytes

/-- A block begins with something else than a carriage return. -/
theorem headerBytes_head (hfilled : ∀ line ∈ lines, line ≠ []) (hreturn : ∀ line ∈ lines, 13 ∉ line) (hsome : lines ≠ []) :
    ∃ b, (headerBytes lines)[0]? = some b ∧ b ≠ 13 := by
  cases lines with
  | nil => exact absurd rfl hsome
  | cons line lines =>
    obtain ⟨b, rest, rfl⟩ := List.exists_cons_of_ne_nil (hfilled line List.mem_cons_self)
    have hb : b ≠ 13 := by
      rintro rfl
      exact hreturn _ List.mem_cons_self List.mem_cons_self
    refine ⟨b, ?_, hb⟩
    cases lines with
    | nil => rfl
    | cons next lines => rfl

/-- After a carriage return of a block comes another line. -/
theorem headerBytes_return (hfilled : ∀ line ∈ lines, line ≠ []) (hreturn : ∀ line ∈ lines, 13 ∉ line) {k : ℕ}
    (hk : (headerBytes lines)[k]? = some 13) : ∃ b, (headerBytes lines)[k + 2]? = some b ∧ b ≠ 13 := by
  induction lines generalizing k with
  | nil => simp [headerBytes] at hk
  | cons line lines ih =>
    have hline : 13 ∉ line := hreturn _ List.mem_cons_self
    cases lines with
    | nil => exact absurd (List.mem_of_getElem? hk) hline
    | cons next lines =>
      have hfilled' : ∀ l ∈ next :: lines, l ≠ [] := fun l hl => hfilled l (List.mem_cons_of_mem _ hl)
      have hreturn' : ∀ l ∈ next :: lines, 13 ∉ l := fun l hl => hreturn l (List.mem_cons_of_mem _ hl)
      rw [headerBytes, List.append_assoc] at hk ⊢
      by_cases hlt : k < line.length
      · rw [List.getElem?_append_left hlt] at hk
        exact absurd (List.mem_of_getElem? hk) hline
      · rw [List.getElem?_append_right (by omega)] at hk ⊢
        obtain ⟨j, hj⟩ : ∃ j, k = line.length + j := ⟨k - line.length, by omega⟩
        subst hj
        rw [Nat.add_sub_cancel_left] at hk
        rw [Nat.add_assoc, Nat.add_sub_cancel_left]
        match j, hk with
        | 0, _ => exact headerBytes_head hfilled' hreturn' (by simp)
        | 1, hk => simp [crlf] at hk
        | j + 2, hk => exact ih hfilled' hreturn' hk

/-! ## What the searches find -/

theorem drop_append_add {α : Type*} (front back : List α) (k : ℕ) : (front ++ back).drop (front.length + k) = back.drop k := by
  rw [← List.drop_drop, List.drop_left]

/-- The block ends where it was written to. -/
theorem find_headers (hlines : LinesFit lines) (front rest : Bytes) :
    Search.find (front ++ (headerBytes lines ++ (crlf ++ crlf ++ rest))) (crlf ++ crlf) front.length
      = some (front.length + (headerBytes lines).length) := by
  apply Search.find_eq (by simp [crlf]) (by omega)
  · rw [OccursAt, drop_append_add, List.drop_left]
    exact List.prefix_append _ _
  · intro q hq hlt hocc
    obtain ⟨k, rfl⟩ : ∃ k, q = front.length + k := ⟨q - front.length, by omega⟩
    rw [OccursAt, drop_append_add] at hocc
    obtain ⟨tail, htail⟩ := hocc
    have hk : k < (headerBytes lines).length := by omega
    -- a carriage return of the block, and another one two bytes on
    have hfirst : (headerBytes lines)[k]? = some 13 := by
      have := congrArg (·[0]?) htail
      simp only [crlf, List.getElem?_drop, Nat.add_zero] at this
      rw [List.getElem?_append_left hk] at this
      exact this.symm
    obtain ⟨b, hb, hne⟩ := headerBytes_return hlines.filled hlines.noReturn hfirst
    have hthird := congrArg (·[2]?) htail
    simp only [crlf, List.getElem?_drop] at hthird
    rw [List.getElem?_append_left (List.getElem?_eq_some_iff.mp hb).1, hb] at hthird
    exact hne (Option.some.inj hthird.symm)

/-- A content ends where it was written to. -/
theorem find_content {follow : Bytes} (hdelim : 13 ∉ delim) (hcontent : NoDelimiter delim content)
    (hfollow : follow = crlf ∨ follow = dashes) (front rest : Bytes) :
    findDelim (front ++ (content ++ (crlf ++ delim ++ follow ++ rest))) (crlf ++ delim) front.length
      = some (front.length + content.length) := by
  have hlength : follow.length = 2 := by rcases hfollow with rfl | rfl <;> rfl
  have haccept : ∀ k, delimits (front ++ (content ++ (crlf ++ delim ++ follow ++ rest))) (crlf ++ delim) (front.length + k) = true ↔
      ∃ f, (f = crlf ∨ f = dashes) ∧
        ((content ++ (crlf ++ delim ++ follow ++ rest)).drop (k + (crlf ++ delim).length)).take 2 = f := by
    intro k
    rw [delimits, slice, Nat.add_assoc, drop_append_add, Bool.or_eq_true, beq_iff_eq, beq_iff_eq]
    simp
  apply Search.findWith_eq (by simp [crlf]) (by omega)
  · rw [OccursAt, drop_append_add, List.drop_left, List.append_assoc]
    exact List.prefix_append _ _
  · rw [haccept]
    refine ⟨follow, hfollow, ?_⟩
    rw [drop_append_add, List.append_assoc, List.drop_left, ← hlength, List.take_left]
  · intro q hq hlt hocc
    obtain ⟨k, rfl⟩ : ∃ k, q = front.length + k := ⟨q - front.length, by omega⟩
    rw [OccursAt, drop_append_add] at hocc
    rw [← Bool.not_eq_true, haccept]
    rintro ⟨f, hf, htake⟩
    have hk : k < content.length := by omega
    obtain ⟨tail, htail⟩ := hocc
    rcases Nat.lt_or_ge content.length (k + (crlf ++ delim).length) with hover | hinside
    · -- an occurrence that reaches into the delimiter would have a carriage return within
      have hreturn := congrArg (·[content.length - k]?) htail
      simp only [List.getElem?_drop] at hreturn
      rw [Nat.add_sub_cancel' hk.le, List.getElem?_append_left (by omega), List.getElem?_append_right le_rfl,
        Nat.sub_self] at hreturn
      obtain ⟨d, hd⟩ : ∃ d, content.length - k = d + 1 := ⟨content.length - k - 1, by omega⟩
      rw [hd] at hreturn
      cases d with
      | zero => simp [crlf] at hreturn
      | succ d => exact hdelim (List.mem_of_getElem? hreturn)
    · -- one within the content is a delimiter line of it
      apply hcontent f hf
      have hpre : crlf ++ delim ++ f <+: (content ++ (crlf ++ delim ++ follow ++ rest)).drop k := by
        have htail' := congrArg (·.drop (crlf ++ delim).length) htail
        simp only [List.drop_left, List.drop_drop] at htail'
        rw [← htail, ← htake, ← htail']
        exact (List.prefix_append_right_inj _).mpr (List.take_prefix _ _)
      have hclosed : (content ++ crlf).drop k <+: (content ++ (crlf ++ delim ++ follow ++ rest)).drop k := by
        refine ⟨delim ++ follow ++ rest, ?_⟩
        rw [← List.drop_append_of_le_length (by simp; omega)]
        simp
      have hlengthf : f.length = 2 := by rcases hf with rfl | rfl <;> rfl
      have hle : (crlf ++ delim ++ f).length ≤ ((content ++ crlf).drop k).length := by
        have hclosedLength : (content ++ crlf).length = content.length + 2 := by
          rw [List.length_append]
          rfl
        rw [List.length_append, hlengthf, List.length_drop, hclosedLength]
        omega
      exact (List.prefix_of_prefix_length_le hpre hclosed hle).isInfix.trans (List.drop_suffix _ _).isInfix

/-! ## The loop -/

/-- One part read. -/
def readPart (env : Splitter Message) (s : Split) (p : RawPart) : Except SplitError Split := do
  let part ← env.parsebytes (headerBytes p.lines ++ (crlf ++ crlf))
  let headers ← env.headers part
  addContent env p.content headers s

/-- A part that can be written and found again. -/
structure PartFits (delim : Bytes) (p : RawPart) : Prop where
  lines : LinesFit p.lines
  content : NoDelimiter delim p.content

theorem encode_follow (delim : Bytes) (parts : List RawPart) :
    ∃ follow rest, (follow = crlf ∨ follow = dashes) ∧ encode delim parts = delim ++ follow ++ rest := by
  cases parts with
  | nil => exact ⟨dashes, crlf, .inr rfl, rfl⟩
  | cons p parts =>
    refine ⟨crlf, headerBytes p.lines ++ (crlf ++ crlf) ++ p.content ++ crlf ++ encode delim parts, .inl rfl, ?_⟩
    simp [encode, encodePart]

theorem slice_front (front middle back : Bytes) : slice (front ++ (middle ++ back)) front.length middle.length = middle := by
  rw [slice, List.drop_left, List.take_left]

/-- A turn of the loop where the delimiter is followed by a part. -/
theorem splitFrom_turn {hend : ℕ} (hpart : slice body (pos + delim.length) 2 ≠ dashes)
    (hhend : Search.find body (crlf ++ crlf) (pos + delim.length + 2) = some hend)
    (hshort : hend - (pos + delim.length + 2) ≤ maxHeaderBytes)
    (hnxt : findDelim body (crlf ++ delim) (hend + 4) = some nxt) :
    splitFrom env body delim pos s =
      env.parsebytes (slice body (pos + delim.length + 2) (hend - (pos + delim.length + 2)) ++ (crlf ++ crlf)) >>=
        fun part => env.headers part >>= fun headers => addPart env body (hend + 4) nxt headers s >>=
          fun s' => splitFrom env body delim (nxt + 2) s' := by
  rw [splitFrom, if_neg hpart]
  split
  · rename_i hnone
    rw [hhend] at hnone
    cases hnone
  · rename_i hend' hsome
    rw [hhend] at hsome
    cases hsome
    rw [if_neg (not_lt.mpr hshort)]
    cases env.parsebytes _ with
    | error e => rfl
    | ok part =>
      dsimp only
      split
      · rename_i hnone
        rw [hnxt] at hnone
        cases hnone
      · rename_i nxt' hsome
        rw [hnxt] at hsome
        cases hsome
        rw [Loops.ok_bind]
        cases env.headers part with
        | error e => rfl
        | ok headers =>
          rw [Loops.ok_bind, Loops.ok_bind]
          cases addPart env body (hend + 4) nxt headers s with
          | error e => rfl
          | ok s' => rfl

/-- At a part that was written the loop reads it, and goes on at the next delimiter. -/
theorem splitFrom_part {p : RawPart} {parts : List RawPart} (hdelim : 13 ∉ delim) (hp : PartFits delim p) (front : Bytes) :
    splitFrom env (front ++ encode delim (p :: parts)) delim front.length s =
      readPart env s p >>= fun s' => splitFrom env (front ++ encodePart delim p ++ encode delim parts) delim
        (front ++ encodePart delim p).length s' := by
  obtain ⟨follow, rest, hfollow, hparts⟩ := encode_follow delim parts
  set body := front ++ encode delim (p :: parts) with hbody
  have hsame : front ++ encodePart delim p ++ encode delim parts = body := by simp [hbody, encode]
  -- the body from the header block on, and from the content on
  have hblock : body = (front ++ delim ++ crlf) ++
      (headerBytes p.lines ++ (crlf ++ crlf ++ (p.content ++ (crlf ++ delim ++ follow ++ rest)))) := by
    rw [← hsame, hparts]
    simp [encodePart]
  have hcontent : body = (front ++ delim ++ crlf ++ headerBytes p.lines ++ (crlf ++ crlf)) ++
      (p.content ++ (crlf ++ delim ++ follow ++ rest)) := by
    rw [hblock]
    simp
  have hstart : front.length + delim.length + 2 = (front ++ delim ++ crlf).length := by simp [crlf]; omega
  have hend : (front ++ delim ++ crlf).length + (headerBytes p.lines).length + 4
      = (front ++ delim ++ crlf ++ headerBytes p.lines ++ (crlf ++ crlf)).length := by simp [crlf]; omega
  have hnext : (front ++ delim ++ crlf ++ headerBytes p.lines ++ (crlf ++ crlf)).length + p.content.length + 2
      = (front ++ encodePart delim p).length := by simp [crlf, encodePart]; omega
  have hpart : slice body (front.length + delim.length) 2 ≠ dashes := by
    have hcrlf : slice body (front.length + delim.length) 2 = crlf := by
      rw [hblock, ← List.length_append, List.append_assoc (front ++ delim)]
      exact slice_front _ crlf _
    rw [hcrlf]
    decide
  have hhend : Search.find body (crlf ++ crlf) (front.length + delim.length + 2)
      = some ((front ++ delim ++ crlf).length + (headerBytes p.lines).length) := by
    rw [hstart, hblock]
    exact find_headers hp.lines _ _
  have hnxt : findDelim body (crlf ++ delim) ((front ++ delim ++ crlf).length + (headerBytes p.lines).length + 4)
      = some ((front ++ delim ++ crlf ++ headerBytes p.lines ++ (crlf ++ crlf)).length + p.content.length) := by
    rw [hend, hcontent]
    exact find_content hdelim hp.content hfollow _ _
  have hshort := hp.lines.short
  rw [splitFrom_turn hpart hhend (by omega) hnxt, readPart]
  have hheader : slice body (front.length + delim.length + 2) ((front ++ delim ++ crlf).length + (headerBytes p.lines).length -
      (front.length + delim.length + 2)) = headerBytes p.lines := by
    rw [hstart, Nat.add_sub_cancel_left, hblock]
    exact slice_front _ _ _
  have hcut : slice body ((front ++ delim ++ crlf).length + (headerBytes p.lines).length + 4)
      ((front ++ delim ++ crlf ++ headerBytes p.lines ++ (crlf ++ crlf)).length + p.content.length -
        ((front ++ delim ++ crlf).length + (headerBytes p.lines).length + 4)) = p.content := by
    rw [hend, Nat.add_sub_cancel_left, hcontent]
    exact slice_front _ _ _
  have hadd : ∀ headers, addPart env body ((front ++ delim ++ crlf).length + (headerBytes p.lines).length + 4)
      ((front ++ delim ++ crlf ++ headerBytes p.lines ++ (crlf ++ crlf)).length + p.content.length) headers s
      = addContent env p.content headers s :=
    fun _ => addPart_eq hcut (by rw [hend, Nat.add_sub_cancel_left])
  rw [hheader, hsame, ← hnext]
  cases env.parsebytes (headerBytes p.lines ++ (crlf ++ crlf)) with
  | error e => rfl
  | ok part =>
    rw [Loops.ok_bind, Loops.ok_bind]
    cases env.headers part with
    | error e => rfl
    | ok headers =>
      rw [Loops.ok_bind, Loops.ok_bind, hadd]

theorem splitFrom_encode {parts : List RawPart} (hdelim : 13 ∉ delim) (hparts : ∀ p ∈ parts, PartFits delim p)
    (front : Bytes) : splitFrom env (front ++ encode delim parts) delim front.length s = parts.foldlM (readPart env) s := by
  induction parts generalizing front s with
  | nil =>
    have hend : front ++ encode delim [] = front ++ (delim ++ (dashes ++ crlf)) := by simp [encode]
    have hdashes : slice (front ++ encode delim []) (front.length + delim.length) 2 = dashes := by
      rw [hend, slice, drop_append_add, List.drop_left]
      rfl
    rw [splitFrom, if_pos hdashes]
    rfl
  | cons p parts ih =>
    rw [List.forall_mem_cons] at hparts
    rw [splitFrom_part hdelim hparts.1, List.foldlM_cons]
    congr 1
    funext s'
    exact ih hparts.2 _

/-- A boundary is a line's text. -/
structure IsBoundary (boundary : String) : Prop where
  filled : boundary ≠ ""
  noReturn : 13 ∉ utf8 boundary

theorem splitMultipart_encode {boundary : String} {parts : List RawPart} (hboundary : IsBoundary boundary)
    (hparts : ∀ p ∈ parts, PartFits (dashes ++ utf8 boundary) p) :
    splitMultipart env (some boundary) (encode (dashes ++ utf8 boundary) parts)
      = parts.foldlM (readPart env) ⟨[], [], fun _ => none⟩ := by
  have hdelim : 13 ∉ dashes ++ utf8 boundary := by
    rw [List.mem_append, not_or]
    exact ⟨by decide, hboundary.noReturn⟩
  obtain ⟨follow, rest, hfollow, hencode⟩ := encode_follow (dashes ++ utf8 boundary) parts
  have hfirst : findDelim (encode (dashes ++ utf8 boundary) parts) (dashes ++ utf8 boundary) 0 = some 0 := by
    apply Search.findWith_eq (by simp [dashes]) le_rfl
    · rw [OccursAt, List.drop_zero, hencode, List.append_assoc]
      exact List.prefix_append _ _
    · have hlength : follow.length = 2 := by rcases hfollow with rfl | rfl <;> rfl
      have hslice : slice (encode (dashes ++ utf8 boundary) parts) (0 + (dashes ++ utf8 boundary).length) 2 = follow := by
        rw [hencode, Nat.zero_add, List.append_assoc, ← hlength]
        exact slice_front _ _ _
      rw [delimits, hslice]
      rcases hfollow with rfl | rfl <;> rfl
    · intro q _ hlt
      omega
  have hbody : encode (dashes ++ utf8 boundary) parts ≠ [] := by simp [encode, dashes]
  rw [splitMultipart]
  dsimp only
  rw [if_neg hboundary.filled, if_neg hbody, hfirst]
  exact splitFrom_encode hdelim hparts []

/-! ## Fields and files -/

/-- A text field, or a file of the field `files`. -/
inductive Part
  | field (name value : String)
  | file (filename contentType : String) (content : Bytes)

/-- A quoted string: quotes and backslashes are escaped. -/
def quoted (text : String) : Bytes := (utf8 text).flatMap fun b => if b = 34 ∨ b = 92 then [92, b] else [b]

def Part.headerLines : Part → List Bytes
  | field name _ => [utf8 "Content-Disposition: form-data; name=\"" ++ quoted name ++ [34]]
  | file filename contentType _ =>
    [utf8 "Content-Disposition: form-data; name=\"files\"; filename=\"" ++ quoted filename ++ [34],
      utf8 "Content-Type: " ++ utf8 contentType]

def Part.bytes : Part → Bytes
  | field _ value => utf8 value
  | file _ _ content => content

def Part.raw (p : Part) : RawPart := ⟨p.headerLines, p.bytes⟩

/-- What the headers say. -/
def Part.headers : Part → PartHeaders
  | field name _ => ⟨some name, none, "text/plain"⟩
  | file filename contentType _ => ⟨some "files", some filename, contentType⟩

def fieldsOf (parts : List Part) : List (String × String) :=
  parts.filterMap fun p => match p with
    | .field name value => some (name, value)
    | .file _ _ _ => none

def filesOf (parts : List Part) : List (String × String × Bytes) :=
  parts.filterMap fun p => match p with
    | .field _ _ => none
    | .file filename contentType content => some (filename, contentType, content)

/-- A part that the standard encoding can hold. -/
structure Encodable (env : Splitter Message) (delim : Bytes) (p : Part) : Prop where
  noReturn : ∀ line ∈ p.headerLines, 13 ∉ line
  short : (headerBytes p.headerLines).length ≤ maxHeaderBytes
  content : NoDelimiter delim p.bytes
  field : ∀ name value, p = .field name value → name ≠ "" ∧ (utf8 value).length ≤ env.maxField
  /-- The `email` library reads the headers back. -/
  readBack : ∃ part, env.parsebytes (headerBytes p.headerLines ++ (crlf ++ crlf)) = .ok part ∧ env.headers part = .ok p.headers

theorem decode_utf8 (env : Splitter Message) (text : String) : env.decode (utf8 text) = text := by
  have hbytes : ByteArray.mk (utf8 text).toArray = text.toByteArray := by simp [utf8, String.toUTF8]
  rw [Splitter.decode]
  simp only [hbytes]
  rw [dif_pos text.isValidUTF8]
  rfl

/-- What has been split off after some of the parts. -/
structure Holds (env : Splitter Message) (parts : List Part) (s : Split) : Prop where
  fields : s.fields = fieldsOf parts
  length : s.files.length = (filesOf parts).length
  files : ∀ i f, (filesOf parts)[i]? = some f → s.files[i]? = some (f.1, f.2.1, env.dest.destFor (i + 1) f.1)
  written : ∀ i f, (filesOf parts)[i]? = some f → s.written (env.dest.destFor (i + 1) f.1) = some f.2.2

theorem Encodable.fits {p : Part} (h : Encodable env delim p) : PartFits delim p.raw where
  lines := by
    refine ⟨?_, ?_, h.noReturn, h.short⟩
    · cases p <;> simp [Part.raw, Part.headerLines]
    · cases p with
      | field name value => simp [Part.raw, Part.headerLines]
      | file filename contentType content =>
        have htype : utf8 "Content-Type: " ≠ [] := by decide +kernel
        simp [Part.raw, Part.headerLines, htype]
  content := h.content

/-- One part more. -/
theorem Holds.step {parts : List Part} {p : Part} (h : Holds env parts s) (hp : Encodable env delim p)
    (hnew : ∀ name value, p = .field name value → name ∉ (fieldsOf parts).map (·.1)) :
    ∃ s', readPart env s p.raw = .ok s' ∧ Holds env (parts ++ [p]) s' := by
  obtain ⟨part, hparse, hheaders⟩ := hp.readBack
  have hread : readPart env s p.raw = addContent env p.bytes p.headers s := by
    rw [readPart]
    change env.parsebytes (headerBytes p.headerLines ++ (crlf ++ crlf)) >>= _ = _
    rw [hparse, Loops.ok_bind, hheaders, Loops.ok_bind]
    rfl
  rw [hread]
  cases p with
  | field name value =>
    obtain ⟨hname, hsize⟩ := hp.field name value rfl
    have hadd : addContent env (utf8 value) ⟨some name, none, "text/plain"⟩ s =
        .ok { s with fields := Assoc.put name value s.fields } := by
      simp only [addContent]
      rw [if_neg hname, if_neg (not_lt.mpr hsize), decode_utf8]
    have hfields : fieldsOf (parts ++ [.field name value]) = fieldsOf parts ++ [(name, value)] := by simp [fieldsOf]
    have hfiles : filesOf (parts ++ [.field name value]) = filesOf parts := by simp [filesOf]
    refine ⟨_, hadd, ?_, ?_, ?_, ?_⟩
    · rw [hfields, h.fields, Assoc.put_of_not_mem (hnew name value rfl)]
    · rw [hfiles]
      exact h.length
    · rw [hfiles]
      exact h.files
    · rw [hfiles]
      exact h.written
  | file filename contentType content =>
    have hfields : fieldsOf (parts ++ [.file filename contentType content]) = fieldsOf parts := by simp [fieldsOf]
    have hfiles : filesOf (parts ++ [.file filename contentType content]) =
        filesOf parts ++ [(filename, contentType, content)] := by simp [filesOf]
    have hadd : addContent env content ⟨some "files", some filename, contentType⟩ s =
        .ok { s with
          files := s.files ++ [(filename, contentType, env.dest.destFor (s.files.length + 1) filename)]
          written := fun path =>
            if path = env.dest.destFor (s.files.length + 1) filename then some content else s.written path } := by
      simp [addContent]
    refine ⟨_, hadd, ?_, ?_, ?_, ?_⟩
    · rw [hfields]
      exact h.fields
    · rw [hfiles, List.length_append, List.length_append, h.length]
      rfl
    · rw [hfiles]
      intro i f hf
      rcases Loops.getElem?_concat hf with hf | ⟨rfl, rfl⟩
      · dsimp only
        rw [List.getElem?_append_left (List.getElem?_eq_some_iff.mp (h.files i f hf)).1]
        exact h.files i f hf
      · rw [← h.length, List.getElem?_concat_length]
    · rw [hfiles]
      intro i f hf
      dsimp only
      rcases Loops.getElem?_concat hf with hf | ⟨rfl, rfl⟩
      · -- another index, another place
        have hi := (List.getElem?_eq_some_iff.mp hf).1
        rw [if_neg, h.written i f hf]
        intro hsame
        have := env.dest.distinct _ _ _ _ hsame
        rw [h.length] at this
        omega
      · rw [← h.length, if_pos rfl]

theorem readParts_holds {parts done : List Part} (h : Holds env done s) (hparts : ∀ p ∈ parts, Encodable env delim p)
    (hnames : ((fieldsOf (done ++ parts)).map (·.1)).Nodup) :
    ∃ s', (parts.map Part.raw).foldlM (readPart env) s = .ok s' ∧ Holds env (done ++ parts) s' := by
  induction parts generalizing done s with
  | nil => exact ⟨s, rfl, by simpa using h⟩
  | cons p parts ih =>
    rw [List.forall_mem_cons] at hparts
    rw [List.append_cons] at hnames ⊢
    have hnew : ∀ name value, p = .field name value → name ∉ (fieldsOf done).map (·.1) := by
      rintro name value rfl hmem
      have hsplit : fieldsOf (done ++ [.field name value] ++ parts) = fieldsOf done ++ (name, value) :: fieldsOf parts := by
        simp [fieldsOf]
      rw [hsplit, List.map_append, List.map_cons, List.nodup_append] at hnames
      exact hnames.2.2 _ hmem _ List.mem_cons_self rfl
    obtain ⟨s₁, hstep, hholds⟩ := h.step hparts.1 hnew
    obtain ⟨s₂, hrest, hend⟩ := ih hholds hparts.2 hnames
    exact ⟨s₂, Loops.foldlM_cons_ok.mpr ⟨s₁, hstep, hrest⟩, hend⟩

/-! ## Any body -/

/-- The `email` library raises something else than a `ValueError` on a header block. -/
def RaisesOther (env : Splitter Message) (block : Bytes) : Prop :=
  env.parsebytes (block ++ (crlf ++ crlf)) = .error .other ∨
    ∃ part, env.parsebytes (block ++ (crlf ++ crlf)) = .ok part ∧ env.headers part = .error .other

/-- An answer, or a `ValueError`. -/
def Settled (r : Except SplitError Split) : Prop := (∃ s, r = .ok s) ∨ ∃ message, r = .error (.value message)

theorem addPart_settled (headers : PartHeaders) : Settled (addPart env body off nxt headers s) := by
  unfold addPart
  split
  · split_ifs
    · exact .inl ⟨_, rfl⟩
    · exact .inl ⟨_, rfl⟩
  · split_ifs
    · exact .inl ⟨_, rfl⟩
    · exact .inr ⟨_, rfl⟩
    · exact .inl ⟨_, rfl⟩
  · exact .inl ⟨_, rfl⟩

theorem slice_isInfix (body : Bytes) (pos n : ℕ) : slice body pos n <:+: body :=
  (List.take_prefix _ _).isInfix.trans (List.drop_suffix _ _).isInfix

theorem splitFrom_settled (hquiet : ∀ block, block <:+: body → ¬ RaisesOther env block) :
    Settled (splitFrom env body delim pos s) := by
  -- on the bytes that are left
  induction hleft : body.length - pos using Nat.strong_induction_on generalizing pos s with
  | _ left ih =>
    rw [splitFrom]
    split_ifs with hdashes
    · exact .inl ⟨_, rfl⟩
    · split
      · exact .inr ⟨_, rfl⟩
      · rename_i hend hhend
        have hblock := hquiet _ (slice_isInfix body (pos + delim.length + 2) (hend - (pos + delim.length + 2)))
        rw [RaisesOther, not_or] at hblock
        split_ifs
        · exact .inr ⟨_, rfl⟩
        · split
          · rename_i e he
            cases e with
            | value message => exact .inr ⟨_, rfl⟩
            | other => exact absurd he hblock.1
          · rename_i part hparse
            split
            · exact .inr ⟨_, rfl⟩
            · rename_i nxt hnxt
              have hfound := Search.find_some hhend
              have hfound' := Search.findWith_some hnxt
              cases hheaders : env.headers part with
              | error e =>
                cases e with
                | value message => exact .inr ⟨_, rfl⟩
                | other => exact absurd ⟨part, hparse, hheaders⟩ hblock.2
              | ok headers =>
                rw [Loops.ok_bind]
                rcases addPart_settled (headers) with ⟨s', hadd⟩ | ⟨message, hadd⟩
                · rw [hadd]
                  exact ih _ (by omega) rfl
                · rw [hadd]
                  exact .inr ⟨_, rfl⟩

theorem splitMultipart_settled {boundary : Option String} (hquiet : ∀ block, block <:+: body → ¬ RaisesOther env block) :
    Settled (splitMultipart env boundary body) := by
  unfold splitMultipart
  split
  · exact .inr ⟨_, rfl⟩
  · dsimp only
    split_ifs
    · exact .inr ⟨_, rfl⟩
    · exact .inr ⟨_, rfl⟩
    · split
      · exact .inr ⟨_, rfl⟩
      · exact splitFrom_settled hquiet

/-- The splitting of an encoding gives the fields and the files back, byte by byte and in their order; and on every body
whose header blocks the `email` library reads, or refuses with a `ValueError`, it answers or raises a
`ValueError`. -/
theorem splitting_undoes_encoding (env : Splitter Message) :
    (∀ boundary parts, IsBoundary boundary → ((fieldsOf parts).map (·.1)).Nodup →
      (∀ p ∈ parts, Encodable env (dashes ++ utf8 boundary) p) →
      ∃ s, splitMultipart env (some boundary) (encode (dashes ++ utf8 boundary) (parts.map Part.raw)) = .ok s ∧
        s.fields = fieldsOf parts ∧
        s.files.map (fun f => (f.1, f.2.1, s.written f.2.2)) = (filesOf parts).map fun f => (f.1, f.2.1, some f.2.2)) ∧
    ∀ boundary body, (∀ block, block <:+: body → ¬ RaisesOther env block) →
      Settled (splitMultipart env boundary body) := by
  refine ⟨fun boundary parts hboundary hnames hparts => ?_, fun _ _ => splitMultipart_settled⟩
  have hempty : Holds env [] ⟨[], [], fun _ => none⟩ := ⟨rfl, rfl, nofun, nofun⟩
  obtain ⟨s, hloop, hholds⟩ := readParts_holds hempty hparts hnames
  have hfits : ∀ p ∈ parts.map Part.raw, PartFits (dashes ++ utf8 boundary) p := by
    intro p hp
    obtain ⟨part, hpart, rfl⟩ := List.mem_map.mp hp
    exact (hparts part hpart).fits
  refine ⟨s, ?_, hholds.fields, ?_⟩
  · rw [splitMultipart_encode hboundary hfits]
    exact hloop
  · apply List.ext_getElem?
    intro i
    rw [List.getElem?_map, List.getElem?_map]
    cases hf : (filesOf parts)[i]? with
    | none =>
      have hlength : s.files.length = (filesOf parts).length := hholds.length
      rw [List.getElem?_eq_none_iff, ← hlength] at hf
      rw [List.getElem?_eq_none hf]
      rfl
    | some f =>
      rw [hholds.files i f hf]
      dsimp only [Option.map_some]
      rw [hholds.written i f hf]

/-- As the `email` library reads these header blocks. -/
def sampleHeaders (block : Bytes) : Except SplitError PartHeaders :=
  if block = utf8 "Content-Disposition: form-data; name=\"\"\r\n\r\n" then .ok ⟨some "", none, "text/plain"⟩
  else if block = utf8 "Content-Disposition: form-data; name=\"prompt\"\r\n\r\n" then .ok ⟨some "prompt", none, "text/plain"⟩
  else if block = utf8
      "Content-Disposition: form-data; name=\"files\"; filename=\"a.bin\"\r\nContent-Type: application/octet-stream\r\n\r\n" then
    .ok ⟨some "files", some "a.bin", "application/octet-stream"⟩
  else if block = utf8 "Content-Disposition: form-data; x*\r\n\r\n" then .error .other
  else .ok ⟨none, none, "text/plain"⟩

def sampleSplitter : Splitter Bytes where
  parsebytes := .ok
  headers := sampleHeaders
  replaced := fun _ => ""
  dest := {
    destFor := fun i _ => String.ofList (List.replicate i 'x')
    distinct := by
      intro i j _ _ h
      simpa using congrArg String.length h }
  maxField := 2 * 1024 * 1024

instance (delim content : Bytes) : Decidable (NoDelimiter delim content) :=
  decidable_of_iff (¬ crlf ++ delim ++ crlf <:+: content ++ crlf ∧ ¬ crlf ++ delim ++ dashes <:+: content ++ crlf)
    ⟨fun h _ hfollow => hfollow.elim (fun heq => heq ▸ h.1) fun heq => heq ▸ h.2,
      fun h => ⟨h _ (.inl rfl), h _ (.inr rfl)⟩⟩

/-- A field, and a file that ends with a look-alike of the delimiter. -/
def sampleParts : List Part :=
  [.field "prompt" "hello", .file "a.bin" "application/octet-stream" (crlf ++ utf8 "--Bx")]

theorem look_alike_kept : ∃ s, splitMultipart sampleSplitter (some "B") (encode (dashes ++ utf8 "B") (sampleParts.map Part.raw)) = .ok s ∧
    s.fields = [("prompt", "hello")] ∧
    s.files.map (fun f => (f.1, f.2.1, s.written f.2.2)) = [("a.bin", "application/octet-stream", some (crlf ++ utf8 "--Bx"))] := by
  refine (splitting_undoes_encoding sampleSplitter).1 "B" sampleParts ⟨by decide, by decide +kernel⟩ (by decide) ?_
  intro p hp
  rcases List.mem_pair.mp hp with rfl | rfl
  · refine ⟨by decide +kernel, by decide +kernel, by decide +kernel, ?_, _, rfl, by decide +kernel⟩
    rintro name value ⟨⟩
    exact ⟨by decide, by decide +kernel⟩
  · exact ⟨by decide +kernel, by decide +kernel, by decide +kernel, nofun, _, rfl, by decide +kernel⟩

/-- A field without a name. -/
def namelessField : Part := .field "" "x"

/-- A header block on which the `email` library raises an `IndexError`. -/
def starredBlock : RawPart := ⟨[utf8 "Content-Disposition: form-data; x*"], []⟩

/-- A field with an empty name is passed over, and a header block can end the splitting with another exception. -/
theorem nameless_and_starred :
    (∃ s, splitMultipart sampleSplitter (some "B") (encode (dashes ++ utf8 "B") [namelessField.raw]) = .ok s ∧
      s.fields = [] ∧ fieldsOf [namelessField] = [("", "x")]) ∧
    splitMultipart sampleSplitter (some "B") (utf8 "--B\r\nContent-Disposition: form-data; x*\r\n\r\n\r\n--B--\r\n")
      = .error .other := by
  have hboundary : IsBoundary "B" := ⟨by decide, by decide +kernel⟩
  constructor
  · have hfits : ∀ p ∈ [namelessField.raw], PartFits (dashes ++ utf8 "B") p := by
      rw [List.forall_mem_singleton]
      exact ⟨⟨by decide +kernel, by decide +kernel, by decide +kernel, by decide +kernel⟩, by decide +kernel⟩
    have hheaders : sampleHeaders (headerBytes namelessField.headerLines ++ (crlf ++ crlf))
        = .ok ⟨some "", none, "text/plain"⟩ := by decide +kernel
    have hread : readPart sampleSplitter ⟨[], [], fun _ => none⟩ namelessField.raw = .ok ⟨[], [], fun _ => none⟩ := by
      exact Loops.bind_ok.mpr ⟨_, rfl, Loops.bind_ok.mpr ⟨_, hheaders, rfl⟩⟩
    refine ⟨⟨[], [], fun _ => none⟩, ?_, rfl, rfl⟩
    rw [splitMultipart_encode hboundary hfits]
    exact Loops.foldlM_cons_ok.mpr ⟨_, hread, rfl⟩
  · have hbody : utf8 "--B\r\nContent-Disposition: form-data; x*\r\n\r\n\r\n--B--\r\n"
        = encode (dashes ++ utf8 "B") [starredBlock] := by decide +kernel
    have hfits : ∀ p ∈ [starredBlock], PartFits (dashes ++ utf8 "B") p := by
      rw [List.forall_mem_singleton]
      exact ⟨⟨by decide +kernel, by decide +kernel, by decide +kernel, by decide +kernel⟩, by decide +kernel⟩
    have hheaders : sampleHeaders (headerBytes starredBlock.lines ++ (crlf ++ crlf)) = .error .other := by decide +kernel
    have hread : ∀ s, readPart sampleSplitter s starredBlock = .error .other := by
      intro s
      simp only [readPart, sampleSplitter, Loops.ok_bind, hheaders]
      rfl
    rw [hbody, splitMultipart_encode hboundary hfits, List.foldlM_cons, hread]
    rfl

end SubmissionsChecker.JudgeMultipart
