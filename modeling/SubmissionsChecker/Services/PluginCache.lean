import SubmissionsChecker.Library.FileTree
import Mathlib.Algebra.Ring.Nat

/-! The trees the check sandbox mounts: a subject's archive extracted below a directory
(`safe_extract`), and the test whether a directory still holds the archive (`_is_complete`). -/

namespace SubmissionsChecker.PluginCache

open Paths (Path)
open FileTree (FileSystem OsError)

/-! ## The archive -/

/-- An entry as `zipfile` reads it. `content` is none where opening or reading it raises: a bad
checksum, an unknown compression, a password. -/
structure ZipInfo where
  filename : String
  fileSize : ℕ
  externalAttr : ℕ
  content : Option (List UInt8)
  deriving DecidableEq

/-- `infolist()` -/
abbrev ZipArchive := List ZipInfo

def ZipInfo.isDir (info : ZipInfo) : Bool := info.filename.toList.getLast? == some '/'

/-- `NameToInfo`: of several entries with one name, the last. -/
def ZipArchive.getinfo (archive : ZipArchive) (name : String) : Option ZipInfo :=
  archive.reverse.find? (·.filename == name)

inductive ExtractError
  | unsafeArchive (message : String)
  | os (error : OsError)
  /-- What `zipfile` raises on an entry it cannot read. -/
  | unreadable
  /-- `getinfo` of a name the archive does not have. -/
  | keyError (name : String)
  deriving DecidableEq, Repr

def liftOs (r : Except OsError FileSystem) : Except ExtractError FileSystem := r.mapError .os

/-! ## `zipfile.extractall` -/

/-- The name without empty, `.` and `..` components. -/
def arcname (filename : String) : String :=
  "/".intercalate ((Paths.segments filename).filter (· != ".."))

/-- Where an entry goes: `os.path.normpath(os.path.join(dest, arcname))`. -/
def targetpath (dest : Path) (filename : String) : Path := Paths.resolve (Paths.join dest (arcname filename))

/-- "Create all upper directories if necessary." -/
def makeUpperdirs (target : Path) (fs : FileSystem) : Except ExtractError FileSystem :=
  if fs.exist target.dropLast then pure fs else liftOs (fs.makedirs target.dropLast)

def extractMember (dest : Path) (info : ZipInfo) (fs : FileSystem) : Except ExtractError FileSystem := do
  let target := targetpath dest info.filename
  let fs ← makeUpperdirs target fs
  if info.isDir then
    if fs.isDir target then pure fs else liftOs (fs.mkdir target)
  else
    match info.content with
    | none => throw .unreadable
    | some bytes => liftOs (fs.writeFile target bytes)

/-- The names one by one, each with the entry that `getinfo` has for it. -/
def extractall (archive : ZipArchive) (dest : Path) (fs : FileSystem) : Except ExtractError FileSystem :=
  (archive.map (·.filename)).foldlM (fun fs name =>
    match archive.getinfo name with
    | none => throw (.keyError name)
    | some info => extractMember dest info fs) fs

/-! ## `utils/safe_zip.py` -/

def maxTotalUncompressedBytes : ℕ := 500 * 1024 * 1024

def maxEntryCount : ℕ := 10000

/-- The mode's high bits: `S_IFMT`, and `S_IFLNK` in it. -/
def ZipInfo.isSymlink (info : ZipInfo) : Bool := (info.externalAttr >>> 16) &&& 0o170000 == 0o120000

/-- `name.startswith("/") or name.startswith("\\") or (len(name) > 1 and name[1] == ":")` -/
def absoluteName (name : String) : Bool :=
  name.toList.head? == some '/' || name.toList.head? == some '\\' || name.toList[1]? == some ':'

/-- `repr` is Python's, in the texts of the errors. -/
def checkEntry (repr : String → String) (dest : Path) (info : ZipInfo) : Except ExtractError Unit := do
  if absoluteName info.filename then
    throw (.unsafeArchive ("absolute path in archive: " ++ repr info.filename))
  if info.isSymlink then
    throw (.unsafeArchive ("symlink in archive: " ++ repr info.filename))
  -- `target != dest and dest not in target.parents`
  if !dest.isPrefixOf (Paths.resolve (Paths.join dest info.filename)) then
    throw (.unsafeArchive ("path traversal in archive: " ++ repr info.filename))

def safeExtract (repr : String → String) (archive : ZipArchive) (destDir : Path) (fs : FileSystem) :
    Except ExtractError FileSystem := do
  let dest := Paths.resolve destDir
  if archive.length > maxEntryCount then
    throw (.unsafeArchive s!"archive has too many entries ({archive.length} > {maxEntryCount})")
  let total := (archive.map (·.fileSize)).sum
  if total > maxTotalUncompressedBytes then
    throw (.unsafeArchive s!"archive too large uncompressed ({total} > {maxTotalUncompressedBytes} bytes)")
  archive.forM (checkEntry repr dest)
  extractall archive dest fs

/-! ## `services/plugin_cache.py` -/

/-- Where the extraction writes an entry, from the root of the tree; none where it writes nothing. -/
def extractedRelpath (filename : String) : Option String :=
  let parts := ((filename.toList.splitOn '/').map String.ofList).filter fun p => !(["", ".", ".."].contains p)
  if parts = [] then none else some ("/".intercalate parts)

def isComplete (fs : FileSystem) (target : Path) (archive : ZipArchive) : Bool :=
  archive.all fun info =>
    info.isDir ||
      match extractedRelpath info.filename with
      | none => true
      | some relpath => fs.isFile (Paths.join target relpath)

end SubmissionsChecker.PluginCache
