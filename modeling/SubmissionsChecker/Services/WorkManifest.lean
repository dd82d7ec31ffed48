import SubmissionsChecker.Library.PyNumber

/-! The manifest of a turned-in work (`services/google/ingest.py`): its files one by one, each kept
under a key of its own hash or recorded as skipped. -/

namespace SubmissionsChecker.WorkManifest

open PyText (Text codes)

abbrev Bytes := List UInt8

def maxFilesPerWork : ℕ := 10

def maxWorkBytes : ℕ := 40 * 1024 * 1024

structure DriveFileRef where
  id : Text
  title : Text

/-- What `client.file_meta` reads, the fields of a JSON object. -/
abbrev Metadata := List (Text × Json)

structure DownloadedFile where
  name : Text
  mime : Text
  content : Option Bytes
  skipped : Option Text

/-- The 32 bytes of a SHA-256 digest. -/
abbrev Digest := Fin 32 → Fin 256

def hexDigit (n : ℕ) : ℕ := if n < 10 then '0'.toNat + n else 'a'.toNat + (n - 10)

def hexByte (b : Fin 256) : Text := [hexDigit (b.val / 16), hexDigit (b.val % 16)]

def Digest.hexdigest (digest : Digest) : Text := (List.ofFn digest).flatMap hexByte

structure ManifestEntry where
  driveId : Text
  name : Text
  mime : Text
  size : ℤ
  modified : Text
  sha256 : Option Text
  storageKey : Option Text
  skipped : Option Text

structure StoredObject where
  bytes : Bytes
  contentType : Text

abbrev ObjectStore := Text → Option StoredObject

/-- What the loop is given besides the files. The `i`th file's download answers, or raises
(none); its upload goes through, or raises. -/
structure Ingest where
  subjectId : ℕ
  assignmentId : ℕ
  submissionId : Text
  sha256 : Bytes → Digest
  /-- What `\w` matches. -/
  isWord : ℕ → Bool
  /-- Python's `str` on a value of the metadata. -/
  str : Json → Text
  download : ℕ → Option DownloadedFile
  uploads : ℕ → Bool

/-! ## `storage_key` -/

/-- `re.sub(r"[^\w.\-]+", "_", name)`: one underscore for each run of other characters. `replaced`
tells that the last character was one of them. -/
def underscored (isWord : ℕ → Bool) : (replaced : Bool) → Text → Text
  | _, [] => []
  | replaced, c :: rest =>
    if isWord c || c == '.'.toNat || c == '-'.toNat then c :: underscored isWord false rest
    else if replaced then underscored isWord true rest
    else '_'.toNat :: underscored isWord true rest

/-- "Leading dots stripped too: MinIO rejects a ".." segment and it reads as traversal." -/
def safeName (isWord : ℕ → Bool) (name : Text) : Text :=
  let safe := ((underscored isWord false name).dropWhile (· == '.'.toNat)).take 120
  if safe = [] then codes "file" else safe

def Ingest.folder (env : Ingest) : Text :=
  codes s!"classroom/{env.subjectId}/{env.assignmentId}/" ++ env.submissionId ++ codes "/files/"

def storageKey (env : Ingest) (sha256 name : Text) : Text :=
  env.folder ++ (sha256.take 16 ++ (codes "_" ++ safeName env.isWord name))

/-! ## The loop of `_ingest_submission` -/

/-- `meta.get(key, default)` -/
def Metadata.get (metadata : Metadata) (key : String) (default : Json) : Json :=
  (metadata.lookup (codes key)).getD default

/-- `int(meta.get("size", 0) or 0)` -/
def metaSize (metadata : Metadata) : Except PyError ℤ :=
  let size := metadata.get "size" (.int 0)
  if size.truthy then size.toInt else .ok 0

/-- `str(meta.get("name") or ref.title or ref.id)` -/
def entryName (env : Ingest) (ref : DriveFileRef) (metadata : Metadata) : Text :=
  let name := metadata.get "name" .null
  if name.truthy then env.str name else if ref.title ≠ [] then ref.title else ref.id

def newEntry (env : Ingest) (ref : DriveFileRef) (metadata : Metadata) (size : ℤ) : ManifestEntry where
  driveId := ref.id
  name := entryName env ref metadata
  mime := env.str (metadata.get "mimeType" (.str []))
  size := size
  modified := env.str (metadata.get "modifiedTime" (.str []))
  sha256 := none
  storageKey := none
  skipped := none

/-- `EXPORTS.get(mime, mime)` -/
def exportedMime (mime : Text) : Text :=
  if mime = codes "application/vnd.google-apps.document" ∨ mime = codes "application/vnd.google-apps.presentation" then
    codes "application/pdf"
  else mime

inductive IngestError
  | size (error : PyError)
  | download
  | upload
  deriving DecidableEq, Repr

/-- The loop's variables, the objects stored, and the ids of the files fetched. -/
structure Ledger where
  manifest : List ManifestEntry
  keptBytes : ℕ
  objects : ObjectStore
  fetched : List Text

namespace Ledger

def skip (s : Ledger) (entry : ManifestEntry) (reason : Text) : Ledger :=
  { s with manifest := s.manifest ++ [{ entry with skipped := some reason }] }

def fetch (s : Ledger) (id : Text) : Ledger := { s with fetched := s.fetched ++ [id] }

end Ledger

/-- `entry["mime"] or "application/octet-stream"` -/
def contentType (mime : Text) : Text := if mime = [] then codes "application/octet-stream" else mime

def keptEntry (env : Ingest) (entry : ManifestEntry) (content : Bytes) : ManifestEntry :=
  let sha256 := (env.sha256 content).hexdigest
  { entry with
    size := content.length
    sha256 := some sha256
    storageKey := some (storageKey env sha256 entry.name) }

def keep (env : Ingest) (s : Ledger) (entry : ManifestEntry) (content : Bytes) : Ledger :=
  let key := storageKey env (env.sha256 content).hexdigest entry.name
  { s with
    manifest := s.manifest ++ [keptEntry env entry content]
    keptBytes := s.keptBytes + content.length
    objects := fun k => if k = key then some ⟨content, contentType entry.mime⟩ else s.objects k }

/-- What becomes of a file that was fetched. -/
def takeDownload (env : Ingest) (i : ℕ) (s : Ledger) (entry : ManifestEntry) (downloaded : DownloadedFile) :
    Except IngestError Ledger :=
  let entry := { entry with name := downloaded.name, mime := exportedMime downloaded.mime }
  match downloaded.content with
  | none =>
    match downloaded.skipped with
    | some (c :: reason) => .ok (s.skip entry (c :: reason))
    | _ => .ok (s.skip entry (codes "unavailable"))
  | some content =>
    -- exports carry no size until downloaded
    if s.keptBytes + content.length > maxWorkBytes then .ok (s.skip entry (codes "too_large"))
    else if env.uploads i then .ok (keep env s entry content)
    else .error .upload

def ingestFile (env : Ingest) (s : Ledger) (item : (DriveFileRef × Metadata) × ℕ) : Except IngestError Ledger :=
  match metaSize item.1.2 with
  | .error e => .error (.size e)
  | .ok size =>
    let entry := newEntry env item.1.1 item.1.2 size
    if item.2 ≥ maxFilesPerWork then .ok (s.skip entry (codes "too_many"))
    -- known from metadata: never fetched
    else if s.keptBytes + size > maxWorkBytes then .ok (s.skip entry (codes "too_large"))
    else
      match env.download item.2 with
      | none => .error .download
      | some downloaded => takeDownload env item.2 (s.fetch item.1.1.id) entry downloaded

def ingestFiles (env : Ingest) (files : List (DriveFileRef × Metadata)) (objects : ObjectStore) :
    Except IngestError Ledger :=
  files.zipIdx.foldlM (ingestFile env) ⟨[], 0, objects, []⟩

end SubmissionsChecker.WorkManifest
