import SubmissionsChecker.Core.Yaml
import SubmissionsChecker.Library.Paths

/-! `services/config_apply.py`: the plan of an apply, computed from the new `config.yml`, the one
applied last, the subject's row and the files the archive was extracted to. -/

namespace SubmissionsChecker

open Paths

abbrev Bytes := List UInt8

inductive DiskEntry
  | dir
  | file (content : Bytes)
  deriving DecidableEq, Repr

/-- What stands at a path without `..`; `..` is taken segment by segment. -/
abbrev Disk := Path → Option DiskEntry

/-- `gridPicture` and `mainPicture`. -/
inductive PictureSlot
  | grid
  | main
  deriving DecidableEq, Repr

/-- An entry of `contentFiles`. -/
structure ContentEntry where
  filename : Option String := none
  displayName : Option String := none
  deriving DecidableEq, Repr

/-- `assignments.<code>`. -/
structure AssignmentYml where
  /-- Every key but `contentFiles`. -/
  keys : Mapping := []
  contentFiles : Option (List ContentEntry) := none
  deriving DecidableEq

structure ConfigYml where
  subjectCode : String := ""
  name : Option String := none
  description : Option String := none
  /-- What `_parse_squad_max_size` returns. -/
  squadMaxSize : Option ℕ := none
  gridPicture : Option String := none
  mainPicture : Option String := none
  assignments : List (String × AssignmentYml) := []
  codes : (assignments.map (·.1)).Nodup := by decide
  deriving DecidableEq

/-- The columns of `subjects` that an apply reads and writes. -/
structure SubjectRow where
  code : String
  name : String
  description : Option String
  ownerId : Option ℕ
  squadMaxSize : Option ℕ
  gridPictureUrl : Option String := none
  mainPictureUrl : Option String := none
  deriving DecidableEq, Repr

/-- `validate_subject_code`. -/
def validateSubjectCode (code : String) : Bool :=
  match code.toList with
  | [] => false
  | c :: rest =>
    c.isAlphanum && decide (rest.length ≤ 63)
      && rest.all (fun c => c.isAlphanum || c == '_' || c == '.' || c == '-')
      && !decide (['.', '.'] <:+: c :: rest)

/-- The name, unless it is missing or empty. -/
def ContentEntry.named (e : ContentEntry) : Option String := e.filename.filter (· != "")

/-- The names of the listed content files. -/
def AssignmentYml.contentNames (a : AssignmentYml) : List String := (a.contentFiles.getD []).filterMap (·.named)

namespace ConfigYml

def picture (cfg : ConfigYml) : PictureSlot → Option String
  | .grid => cfg.gridPicture.filter (· != "")
  | .main => cfg.mainPicture.filter (· != "")

/-- Every listed content file with the code of its assignment. -/
def contentFiles (cfg : ConfigYml) : List (String × String) :=
  cfg.assignments.flatMap fun a => a.2.contentNames.map (a.1, ·)

end ConfigYml

def SubjectRow.pictureUrl (row : SubjectRow) : PictureSlot → Option String
  | .grid => row.gridPictureUrl
  | .main => row.mainPictureUrl

def imageKey (subjectCode filename : String) : String := "subjects/" ++ subjectCode ++ "/images/" ++ filename

def contentKey (subjectCode assignmentCode filename : String) : String :=
  "subjects/" ++ subjectCode ++ "/assignments/" ++ assignmentCode ++ "/" ++ filename

/-- `local_path` of a picture. -/
def picturePath (tmp : Path) (filename : String) : Path := [filename].foldl join tmp

/-- `local_path` of a content file. -/
def contentPath (tmp : Path) (assignmentCode filename : String) : Path :=
  ["assignments", assignmentCode, filename].foldl join tmp

/-- `local_path.exists()`. -/
def Disk.exists (disk : Disk) (path : Path) : Bool := (disk (resolve path)).isSome

inductive SubjectField
  | name
  | description
  | squadMaxSize
  | pictureUrl (slot : PictureSlot)
  deriving DecidableEq, Repr

inductive AssignmentField
  | title
  | description
  | deadline
  | minGrade
  | maxGrade
  | config
  | contentFiles
  deriving DecidableEq, Repr

/-- `config_keys` of `_diff_assignment`. -/
def diffKeys : List String :=
  ["review_mode", "late_policy", "max_submissions", "download_links", "variants_required", "sandbox", "variants",
    "ai_review", "grading"]

/-- The keys `_build_assignment_config` copies. -/
def builtKeys : List String :=
  ["review_mode", "late_policy", "max_submissions", "download_links", "variants_required", "sandbox", "variants",
    "ai_review", "grading", "llm_grading"]

/-- `_diff_assignment`. -/
def diffAssignment (new prev : AssignmentYml) : List AssignmentField :=
  (if new.keys.get "title" = prev.keys.get "title" then [] else [.title])
    ++ (if new.keys.get "description" = prev.keys.get "description" then [] else [.description])
    ++ (if new.keys.get "deadline" = prev.keys.get "deadline" then [] else [.deadline])
    ++ (if new.keys.get "min_grade" = prev.keys.get "min_grade" then [] else [.minGrade])
    ++ (if new.keys.get "max_grade" = prev.keys.get "max_grade" then [] else [.maxGrade])
    ++ (if new.keys.only diffKeys = prev.keys.only diffKeys then [] else [.config])
    ++ (if new.contentFiles = prev.contentFiles then [] else [.contentFiles])

structure ApplyPlan where
  subjectFieldsChanged : List SubjectField
  newFiles : List (Path × String)
  removedKeys : List String
  assignmentsToCreate : List (String × AssignmentYml)
  assignmentsToUpdate : List (String × AssignmentYml × List AssignmentField)
  assignmentsToDelete : List String

section

variable (cfg prev : ConfigYml) (subject : Option SubjectRow) (disk : Disk) (tmp : Path)

/-- `meta_map`: the columns that differ from the row; a subject without a row has none set. -/
def metaChanged : List SubjectField :=
  (if some (cfg.name.getD cfg.subjectCode) = subject.map (·.name) then [] else [.name])
    ++ (if cfg.description.filter (· != "") = subject.bind (·.description) then [] else [.description])
    ++ (if cfg.squadMaxSize = subject.bind (·.squadMaxSize) then [] else [.squadMaxSize])

/-- A picture is uploaded when its name is new in the slot and the file exists. -/
def pictureUploads : List (PictureSlot × String) :=
  [PictureSlot.grid, .main].filterMap fun slot => (cfg.picture slot).bind fun filename =>
    if prev.picture slot ≠ some filename ∧ disk.exists (picturePath tmp filename) = true then some (slot, filename)
    else none

/-- The old pictures whose slot has another name now. -/
def removedPictures : List String :=
  [PictureSlot.grid, .main].filterMap fun slot => (prev.picture slot).bind fun filename =>
    if cfg.picture slot ≠ some filename ∧ ((subject.bind (·.pictureUrl slot)).any (· != "")) = true then some filename
    else none

/-- `_collect_content_file_uploads`: every listed file that exists. -/
def contentUploads : List (String × String) :=
  cfg.contentFiles.filter fun f => disk.exists (contentPath tmp f.1 f.2)

/-- Old content files their assignment no longer lists. -/
def removedContent : List (String × String) :=
  cfg.assignments.flatMap fun a =>
    match prev.assignments.lookup a.1 with
    | none => []
    | some old => (old.contentNames.filter fun f => decide (f ∉ a.2.contentNames)).map (a.1, ·)

/-- `_compute_plan`. -/
def computePlan : ApplyPlan :=
  { subjectFieldsChanged := metaChanged cfg subject
      ++ (pictureUploads cfg prev disk tmp).map fun p => .pictureUrl p.1
    newFiles := (pictureUploads cfg prev disk tmp).map (fun p => (picturePath tmp p.2, imageKey cfg.subjectCode p.2))
      ++ (contentUploads cfg disk tmp).map fun f => (contentPath tmp f.1 f.2, contentKey cfg.subjectCode f.1 f.2)
    removedKeys := (removedPictures cfg prev subject).map (imageKey cfg.subjectCode)
      ++ (removedContent cfg prev).map fun f => contentKey cfg.subjectCode f.1 f.2
    assignmentsToCreate := cfg.assignments.filter fun a => (prev.assignments.lookup a.1).isNone
    assignmentsToUpdate := cfg.assignments.filterMap fun a => (prev.assignments.lookup a.1).bind fun old =>
      if diffAssignment a.2 old = [] then none else some (a.1, a.2, diffAssignment a.2 old)
    assignmentsToDelete := (prev.assignments.map (·.1)).filter fun code => (cfg.assignments.lookup code).isNone }

end

end SubmissionsChecker
