import Mathlib.Data.List.MinMax
import Mathlib.Data.Prod.Lex
import SubmissionsChecker.Library.Table
import SubmissionsChecker.Services.ClassroomMatching
import SubmissionsChecker.Services.WorkManifest

/-! The tables of `db/models/classroom.py`: the links of a roster, the fetched versions of the works
and their gradings. A row's id is its position in its table. Times are in microseconds. -/

namespace SubmissionsChecker.Classroom

open PyText (Text)
open WorkManifest (ManifestEntry)

inductive ClassroomLinkMethod
  | email | name | manual | ignored | none
  deriving DecidableEq, Repr

inductive LLMGradingStatus
  | waitingLink | pending | running | done | failed
  /-- "A newer version of the same Classroom submission arrived before this one was graded." -/
  | superseded
  deriving DecidableEq, Repr

structure ClassroomStudentLink where
  subjectId : ℕ
  classroomUserId : String
  classroomEmail : Option String
  classroomName : String
  studentId : Option ℕ
  method : ClassroomLinkMethod
  score : Option ℚ
  candidates : List Matching.Suggestion
  confirmed : Bool

structure ClassroomWork where
  subjectsAssignmentId : ℕ
  linkId : ℕ
  classroomSubmissionId : Text
  state : Text
  late : Bool
  contentHash : Text
  manifest : List ManifestEntry
  seenAt : ℕ

structure CriterionVerdict where
  points : ℤ
  justification : Text
  evidence : Text

/-- The column `draft` of a grading. -/
structure Draft where
  criteria : List (Text × CriterionVerdict)
  comment : Text
  usage : Json

structure LLMGrading where
  classroomWorkId : ℕ
  status : LLMGradingStatus
  attempts : ℕ
  draft : Option Draft
  provider : Option Text
  model : Option Text
  error : Option Text
  gradedAt : Option ℕ
  updatedAt : ℕ

/-- What the grading reads of an assignment and of its subject. -/
structure LinkedAssignment where
  subjectId : ℕ
  classroomCourseworkId : Option String
  classroomCourseworkTitle : Option String
  /-- `is_llm_graded` of the config -/
  isLlmGraded : Bool
  /-- The subject's status is `ACTIVE`. -/
  isActive : Bool

structure ClassroomDb where
  assignments : List LinkedAssignment
  links : List ClassroomStudentLink
  works : List ClassroomWork
  gradings : List LLMGrading

namespace ClassroomDb

variable (db : ClassroomDb)

def linkOf (subjectId : ℕ) (userId : String) : Option ℕ :=
  Table.findId (fun link => link.subjectId == subjectId && link.classroomUserId == userId) db.links

/-- The versions of a submission. -/
def versionsOf (submissionId : Text) : List ℕ :=
  Table.idsWhere (·.classroomSubmissionId == submissionId) db.works

/-- What `seen_at desc, id desc` orders by. -/
def seenKey (i : ℕ) : ℕ ×ₗ ℕ := toLex (((db.works[i]?).map (·.seenAt)).getD 0, i)

/-- `ORDER BY seen_at DESC, id DESC LIMIT 1` -/
def latestVersion (submissionId : Text) : Option ℕ := (db.versionsOf submissionId).argmax db.seenKey

/-- A grading is of a version of the submission. -/
def gradesVersionOf (submissionId : Text) (grading : LLMGrading) : Bool :=
  (db.works[grading.classroomWorkId]?).any (·.classroomSubmissionId == submissionId)

/-- A grading is of a work of the link. -/
def gradesWorkOf (linkId : ℕ) (grading : LLMGrading) : Bool :=
  (db.works[grading.classroomWorkId]?).any (·.linkId == linkId)

def updateGradings (p : ℕ → LLMGrading → Bool) (f : LLMGrading → LLMGrading) : ClassroomDb :=
  { db with gradings := Table.updateWhere p f db.gradings }

def setGrading (g : ℕ) (f : LLMGrading → LLMGrading) : ClassroomDb :=
  { db with gradings := db.gradings.modify g f }

def setLink (l : ℕ) (f : ClassroomStudentLink → ClassroomStudentLink) : ClassroomDb :=
  { db with links := db.links.modify l f }

def setWork (i : ℕ) (f : ClassroomWork → ClassroomWork) : ClassroomDb :=
  { db with works := db.works.modify i f }

end ClassroomDb

end SubmissionsChecker.Classroom
