import SubmissionsChecker.Services.SquadFormation
import Mathlib.Data.Finset.SDiff

/-! `services/squads.py`: who may form a squad, asked of one student and of a whole subject. The tables are as the
database holds them, rows with their own ids, and their constraints are fields. -/

namespace SubmissionsChecker

inductive EntityType
  | real | test
  deriving DecidableEq, Repr

structure StudentRow where
  id : ℕ
  fullName : String
  type : EntityType
  deriving DecidableEq, Repr

structure SquadSubjectRow where
  id : ℕ
  squadMaxSize : Option ℤ

structure SquadRow where
  id : ℕ
  subjectId : ℕ

/-- `squad_members`; the subject is denormalised from the squad. -/
structure SquadMemberRow where
  squadId : ℕ
  studentId : ℕ
  subjectId : ℕ

structure SubjectsAssignmentRow where
  id : ℕ
  subjectId : ℕ

structure StudentAssignmentRow where
  id : ℕ
  studentId : ℕ
  subjectsAssignmentId : ℕ

structure SubmissionRow where
  id : ℕ
  studentsAssignmentId : ℕ

structure EnrolmentTables where
  students : List StudentRow
  subjects : List SquadSubjectRow
  /-- (subject, student). -/
  subjectsStudents : List (ℕ × ℕ)
  squads : List SquadRow
  squadMembers : List SquadMemberRow
  subjectsAssignments : List SubjectsAssignmentRow
  studentsAssignments : List StudentAssignmentRow
  submissions : List SubmissionRow
  studentIds : (students.map (·.id)).Nodup
  squadIds : (squads.map (·.id)).Nodup
  enrolledStudent : ∀ e ∈ subjectsStudents, e.2 ∈ students.map (·.id)
  memberSquad : ∀ m ∈ squadMembers, m.squadId ∈ squads.map (·.id)
  /-- `uq_squad_members_subject_student`. -/
  oneSquad : (squadMembers.map fun m => (m.subjectId, m.studentId)).Nodup

/-- `MultipleResultsFound`. -/
inductive MultipleResults
  | found
  deriving DecidableEq, Repr

/-- `scalar_one_or_none`. -/
def scalarOneOrNone {α : Type} : List α → Except MultipleResults (Option α)
  | [] => .ok none
  | [row] => .ok (some row)
  | _ => .error .found

namespace EnrolmentTables

variable (t : EnrolmentTables)

/-- `max_size`. -/
def maxSize (subjectId : ℕ) : Option ℤ := ((t.subjects.filter (·.id == subjectId)).head?).bind (·.squadMaxSize)

/-- The rows of `squad_of`. -/
def squadRows (subjectId studentId : ℕ) : List SquadRow :=
  t.squads.flatMap fun q =>
    (t.squadMembers.filter fun m => m.squadId == q.id && m.subjectId == subjectId && m.studentId == studentId).map fun _ => q

def squadOf (subjectId studentId : ℕ) : Except MultipleResults (Option SquadRow) :=
  scalarOneOrNone (t.squadRows subjectId studentId)

/-- Submissions joined with their assignment rows and assignments. -/
def submissionRows : List (SubmissionRow × StudentAssignmentRow × SubjectsAssignmentRow) :=
  t.submissions.flatMap fun sub =>
    (t.studentsAssignments.filter fun sa => sa.id == sub.studentsAssignmentId).flatMap fun sa =>
      (t.subjectsAssignments.filter fun asg => asg.id == sa.subjectsAssignmentId).map fun asg => (sub, sa, asg)

/-- `_has_submissions`. -/
def hasSubmissions (subjectId studentId : ℕ) : Bool :=
  (t.submissionRows.countP fun r => r.2.1.studentId == studentId && r.2.2.subjectId == subjectId) != 0

/-- `select(Student.type)`. -/
def studentType (studentId : ℕ) : Option EntityType := ((t.students.filter (·.id == studentId)).head?).map (·.type)

/-- `eligibility`. -/
def eligibility (subjectId studentId : ℕ) : Except MultipleResults (Option SquadError) := do
  if t.maxSize subjectId = none then return some .disabled
  if (subjectId, studentId) ∉ t.subjectsStudents then return some .notEnrolled
  if t.studentType studentId = some .test then return some .testStudent
  if (← t.squadOf subjectId studentId).isSome then return some .alreadyInSquad
  if t.hasSubmissions subjectId studentId then return some .hasSubmissions
  return none

/-- `enrolled` of `eligible_student_ids`. -/
def enrolledReal (subjectId : ℕ) : Finset ℕ :=
  (t.subjectsStudents.flatMap fun e =>
    (t.students.filter fun s => s.id == e.2 && e.1 == subjectId && s.type == .real).map fun _ => e.2).toFinset

def inSquad (subjectId : ℕ) : Finset ℕ :=
  ((t.squadMembers.filter fun m => m.subjectId == subjectId).map (·.studentId)).toFinset

def withSubmission (subjectId : ℕ) : Finset ℕ :=
  ((t.submissionRows.filter fun r => r.2.2.subjectId == subjectId).map fun r => r.2.1.studentId).toFinset

/-- `eligible_student_ids`. -/
def eligibleStudentIds (subjectId : ℕ) : Finset ℕ :=
  if t.maxSize subjectId = none then ∅
  else if t.enrolledReal subjectId = ∅ then ∅
  else t.enrolledReal subjectId \ t.inSquad subjectId \ t.withSubmission subjectId

/-- `eligible_classmates`, under the collation of the database. -/
def eligibleClassmates (collates : String → String → Bool) (subjectId studentId : ℕ) : List StudentRow :=
  let ids := t.eligibleStudentIds subjectId \ {studentId}
  if ids = ∅ then []
  else (t.students.filter fun s => s.id ∈ ids).mergeSort fun a b => collates a.fullName b.fullName

end EnrolmentTables

end SubmissionsChecker
