import SubmissionsChecker.Services.ConfigPlan
import Mathlib.Logic.Function.Basic
import Mathlib.Data.List.Basic

/-! `services/config_apply.py`: an apply as the steps it takes one after the other. The uploads
come first, then the row changes and their commit, then the cleanup. -/

namespace SubmissionsChecker

open Paths

/-- What an apply finds configured. -/
structure Site where
  storageConfigured : Bool := true
  /-- `_build_url`. -/
  buildUrl : String → String
  /-- `datetime.fromisoformat`; `none` where it raises. -/
  fromIsoformat : Yaml → Option ℕ

/-- The uploaded ZIP. `zipData` is its bytes, which `content_hash` stands for. -/
structure Archive where
  cfg : ConfigYml
  files : List (Path × Bytes)
  zipData : Bytes := []
  deriving DecidableEq

structure PublishedFile where
  url : String
  displayName : String
  filename : String
  deriving DecidableEq, Repr

/-- The columns of `subjects_assignments` that come from `config.yml` alone. -/
structure AssignmentColumns where
  title : Yaml
  description : Yaml
  deadline : Option ℕ
  minGrade : Yaml
  maxGrade : Yaml
  config : Mapping
  deriving DecidableEq

structure AssignmentRow extends AssignmentColumns where
  contentFiles : List PublishedFile
  deriving DecidableEq

/-- The rows of one subject: its own, its assignments by code and its config versions, oldest first. -/
structure Rows where
  subject : Option SubjectRow := none
  assignments : List (String × AssignmentRow) := []
  versions : List Archive := []
  deriving DecidableEq

abbrev Objects := String → Option Bytes

/-- `POST /subjects/apply-config`: who uploads what, the server's own files, the directory of the
extraction, and which objects the storage deletes when asked to. -/
structure ApplyRequest where
  userId : ℕ
  archive : Archive
  server : Disk := fun _ => none
  tmp : Path := ["tmp"]
  clean : Clean tmp := by decide
  deletes : String → Bool := fun _ => true

/-- What stands at a path of the archive. -/
def Archive.entry (a : Archive) (path : Path) : Option DiskEntry :=
  match a.files.lookup path with
  | some content => some (.file content)
  | none => if a.files.any (fun f => decide (path <+: f.1)) then some .dir else none

/-- The archive's files below `tmp`, the server's elsewhere. -/
def ApplyRequest.disk (req : ApplyRequest) : Disk := fun path =>
  if req.tmp <+: path then req.archive.entry (path.drop req.tmp.length) else req.server path

/-- `_parse_deadline`. -/
def Site.parseDeadline (site : Site) (value : Yaml) : Option ℕ :=
  if value.isTruthy then site.fromIsoformat value else none

namespace Rows

/-- The version stored last. -/
def latest (rows : Rows) : Option Archive := rows.subject.bind fun _ => rows.versions.getLast?

/-- `prev_cfg`. -/
def prevConfig (rows : Rows) : ConfigYml := (rows.latest.map (·.cfg)).getD {}

end Rows

/-- `_build_content_files`. -/
def buildContentFiles (urls : String → Option String) (subjectCode assignmentCode : String) (a : AssignmentYml) :
    List PublishedFile :=
  (a.contentFiles.getD []).filterMap fun e => e.named.map fun filename =>
    { url := (urls (contentKey subjectCode assignmentCode filename)).getD ""
      displayName := e.displayName.getD filename
      filename }

/-- The columns `_create_assignment` gives the row. A grade set to nothing falls to the column's default. -/
def freshColumns (site : Site) (code : String) (a : AssignmentYml) : AssignmentColumns :=
  let orDefault (v default : Yaml) : Yaml := if v = .null then default else v
  { title := a.keys.getOr "title" (.str code)
    description := (a.keys.get "description").orNull
    deadline := site.parseDeadline (a.keys.get "deadline")
    minGrade := orDefault (a.keys.getOr "min_grade" (.num 0)) (.num 0)
    maxGrade := orDefault (a.keys.getOr "max_grade" (.num 100)) (.num 100)
    config := a.keys.only builtKeys }

/-- `NOT NULL`. -/
def AssignmentRow.accepted (row : AssignmentRow) : Bool :=
  decide (row.title ≠ .null ∧ row.minGrade ≠ .null ∧ row.maxGrade ≠ .null)

section

variable (site : Site) (urls : String → Option String) (cfg : ConfigYml)

/-- `_apply_assignment_fields`, one field. -/
def applyAssignmentField (code : String) (a : AssignmentYml) (row : AssignmentRow) : AssignmentField → AssignmentRow
  | .title => { row with title := a.keys.getOr "title" (.str code) }
  | .description => { row with description := (a.keys.get "description").orNull }
  | .deadline => { row with deadline := site.parseDeadline (a.keys.get "deadline") }
  | .minGrade => { row with minGrade := a.keys.getOr "min_grade" (.num 0) }
  | .maxGrade => { row with maxGrade := a.keys.getOr "max_grade" (.num 100) }
  | .config => { row with config := a.keys.only builtKeys }
  | .contentFiles => { row with contentFiles := buildContentFiles urls cfg.subjectCode code a }

/-- `_apply_subject_fields`, one field. A picture that was not uploaded keeps its old url. -/
def applySubjectField (row : SubjectRow) : SubjectField → SubjectRow
  | .name => { row with name := cfg.name.getD cfg.subjectCode }
  | .description => { row with description := cfg.description.filter (· != "") }
  | .squadMaxSize => { row with squadMaxSize := cfg.squadMaxSize }
  | .pictureUrl slot =>
    match (cfg.picture slot).bind fun filename => urls (imageKey cfg.subjectCode filename), slot with
    | none, _ => row
    | some url, .grid => { row with gridPictureUrl := some url }
    | some url, .main => { row with mainPictureUrl := some url }

/-- The row of a new subject. -/
def newSubject (userId : ℕ) : SubjectRow :=
  { code := cfg.subjectCode
    name := cfg.name.getD cfg.subjectCode
    description := cfg.description.filter (· != "")
    ownerId := some userId
    squadMaxSize := cfg.squadMaxSize
    gridPictureUrl := (cfg.picture .grid).bind fun filename => urls (imageKey cfg.subjectCode filename)
    mainPictureUrl := (cfg.picture .main).bind fun filename => urls (imageKey cfg.subjectCode filename) }

namespace Rows

/-- `db.add(subject)`, or the changed fields of the row that exists; a row without an owner is claimed. -/
def writeSubject (userId : ℕ) (fields : List SubjectField) (rows : Rows) : Rows :=
  match rows.subject with
  | none => { rows with subject := some (newSubject urls cfg userId) }
  | some row =>
    let claimed := { row with ownerId := row.ownerId.or (some userId) }
    { rows with subject := some (fields.foldl (applySubjectField urls cfg) claimed) }

/-- `_create_assignment`, flushed: the code is unique in the subject. -/
def createAssignment (code : String) (a : AssignmentYml) (rows : Rows) : Option Rows :=
  let row : AssignmentRow :=
    { freshColumns site code a with contentFiles := buildContentFiles urls cfg.subjectCode code a }
  if code ∉ rows.assignments.map (·.1) ∧ row.accepted = true then
    some { rows with assignments := rows.assignments ++ [(code, row)] }
  else none

/-- The changed fields of the row with this code, if there is one. -/
def updateAssignment (code : String) (a : AssignmentYml) (fields : List AssignmentField) (rows : Rows) : Rows :=
  { rows with assignments := rows.assignments.map fun p =>
      if p.1 = code then (p.1, fields.foldl (applyAssignmentField site urls cfg code a) p.2) else p }

/-- `db.delete(doomed)`. -/
def deleteAssignment (code : String) (rows : Rows) : Rows :=
  { rows with assignments := rows.assignments.filter (·.1 != code) }

def addVersion (archive : Archive) (rows : Rows) : Rows := { rows with versions := rows.versions ++ [archive] }

end Rows

end

inductive ApplyStep
  /-- Everything before the plan is carried out. -/
  | check (passes : Bool)
  | upload (localPath : Path) (key : String)
  /-- Row changes in memory. -/
  | write (f : Rows → Rows)
  /-- A query or a flush, with the changes around it. -/
  | statement (f : Rows → Option Rows)
  | commit
  /-- `delete_file`, its exception caught. -/
  | cleanup (key : String)

/-- The request's session: the committed rows, the rows with its own changes, and the objects. -/
structure ApplySession where
  committed : Rows
  rows : Rows
  objects : Objects

namespace ApplyStep

/-- A step that goes through; `none` when it raises by itself. -/
def exec (req : ApplyRequest) (s : ApplySession) : ApplyStep → Option ApplySession
  | check passes => if passes = true then some s else none
  | upload localPath key =>
    match req.disk (resolve localPath) with
    | some (.file content) => some { s with objects := Function.update s.objects key (some content) }
    | _ => none
  | write f => some { s with rows := f s.rows }
  | statement f => (f s.rows).map fun rows => { s with rows }
  | commit => if s.rows.assignments.all (·.2.accepted) then some { s with committed := s.rows } else none
  | cleanup key => some (if req.deletes key then { s with objects := Function.update s.objects key none } else s)

/-- The steps an exception can come out of. -/
def canRaise : ApplyStep → Bool
  | check _ | upload _ _ | statement _ | commit => true
  | write _ | cleanup _ => false

/-- What is left in the session when the step raises: a failed statement loses the transaction. -/
def raised (s : ApplySession) : ApplyStep → ApplySession
  | statement _ | commit => { s with rows := s.committed }
  | _ => s

end ApplyStep

section

variable (site : Site) (rows : Rows) (req : ApplyRequest)

/-- The subject code is a path component; it is the code of the subject, which has no other owner. -/
def applyAllowed : Bool :=
  validateSubjectCode req.archive.cfg.subjectCode
    && rows.subject.all fun row => row.code == req.archive.cfg.subjectCode && row.ownerId.all (· == req.userId)

def ApplyRequest.plan : ApplyPlan := computePlan req.archive.cfg rows.prevConfig rows.subject req.disk req.tmp

/-- `url_map` after the uploads. -/
def uploadedUrls (key : String) : Option String :=
  if site.storageConfigured = true ∧ key ∈ (req.plan rows).newFiles.map (·.2) then some (site.buildUrl key) else none

/-- Step 1 of `_execute_plan`. -/
def uploadSteps : List ApplyStep :=
  if site.storageConfigured then (req.plan rows).newFiles.map fun f => .upload f.1 f.2 else []

/-- Steps 2 to 6, each with the query it makes. -/
def rowSteps : List (Rows → Option Rows) :=
  let urls := uploadedUrls site rows req
  let cfg := req.archive.cfg
  (req.plan rows).assignmentsToCreate.map (fun a => Rows.createAssignment site urls cfg a.1 a.2)
    ++ (req.plan rows).assignmentsToUpdate.map (fun a r => some (r.updateAssignment site urls cfg a.1 a.2.1 a.2.2))
    ++ (req.plan rows).assignmentsToDelete.map (fun code r => some (r.deleteAssignment code))
    ++ [fun r => some (r.addVersion req.archive)]

/-- Step 7. -/
def cleanupSteps : List ApplyStep :=
  if site.storageConfigured then (req.plan rows).removedKeys.map .cleanup else []

/-- The subject's row: a new one is flushed at once. -/
def subjectStep : ApplyStep :=
  let f := Rows.writeSubject (uploadedUrls site rows req) req.archive.cfg req.userId (req.plan rows).subjectFieldsChanged
  if rows.subject.isNone then .statement fun r => some (f r) else .write f

/-- `apply`. The archive that is live already changes nothing. -/
def applySteps : List ApplyStep :=
  if rows.latest = some req.archive then [.check (applyAllowed rows req)]
  else [.check (applyAllowed rows req)] ++ uploadSteps site rows req ++ [subjectStep site rows req]
    ++ (rowSteps site rows req).map .statement ++ [.commit] ++ cleanupSteps site rows req

end

/-- What an apply works on. -/
structure Catalog where
  rows : Rows
  objects : Objects

namespace Catalog

variable (site : Site) (c : Catalog) (req : ApplyRequest)

def session : ApplySession := { committed := c.rows, rows := c.rows, objects := c.objects }

/-- The first `n` steps. -/
def stepsDone (n : ℕ) : Option ApplySession :=
  ((applySteps site c.rows req).take n).foldlM (fun s step => step.exec req s) c.session

/-- `get_db`: the request's session is committed when the route returns, as it does after an exception too. -/
def closed (s : ApplySession) : Catalog :=
  { rows := if s.rows.assignments.all (·.2.accepted) then s.rows else s.committed, objects := s.objects }

/-- An apply that goes through. -/
def apply : Option Catalog := (c.stepsDone site req (applySteps site c.rows req).length).map closed

/-- The request whose apply raises after `n` steps. -/
def failedAt (n : ℕ) : Option Catalog :=
  ((applySteps site c.rows req)[n]?.filter (·.canRaise)).bind fun step =>
    (c.stepsDone site req n).map fun s => closed (step.raised s)

/-- One successful apply after the other. -/
def step (c : Catalog) (req : ApplyRequest) : Catalog := (c.apply site req).getD c

end Catalog

end SubmissionsChecker
