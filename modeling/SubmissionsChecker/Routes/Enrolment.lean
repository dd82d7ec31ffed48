import SubmissionsChecker.Library.Table
import Mathlib.Data.List.Sort
import Mathlib.Data.String.Basic

/-! Who has a row for which assignment: the enrolment routes of `api/routes/teacher_portal.py`, and the rows that
`_execute_plan` of `services/config_apply.py` adds. The access check comes before each of them; what `csv` reads of a
line, cleaned, is an input. A deleted assignment is `none`. -/

namespace SubmissionsChecker

/-- What an assignment's config says of variants. -/
structure VariantBlock where
  variants : List String := []
  variantsRequired : Bool := false
  deriving DecidableEq, Repr

/-- A row of `subjects_assignments`. -/
structure CourseAssignment where
  subjectId : ℕ
  code : String
  block : VariantBlock
  deriving DecidableEq, Repr

/-- A row of `students_assignments`. -/
structure CourseRow where
  studentId : ℕ
  subjectsAssignmentId : ℕ
  grade : Option ℤ := none
  variant : Option String := none
  deriving DecidableEq, Repr

/-- The tables; a subject is the `assignments` of the config it was given last, a student the e-mail. -/
structure Roster where
  subjects : List (List (String × VariantBlock)) := []
  subjectsAssignments : List (Option CourseAssignment) := []
  students : List String := []
  subjectsStudents : List (ℕ × ℕ) := []
  subjectTestStudents : List (ℕ × ℕ) := []
  studentsAssignments : List CourseRow := []
  deriving DecidableEq, Repr

inductive RosterError
  | http (status : ℕ) (detail : String)
  | integrityError
  deriving DecidableEq, Repr

namespace CourseRow

/-- The student and the assignment, which the table holds once. -/
def key (row : CourseRow) : ℕ × ℕ := (row.studentId, row.subjectsAssignmentId)

/-- An empty variant leaves the stored one alone. -/
def withVariant (variant : Option String) (row : CourseRow) : CourseRow :=
  match variant.filter (· ≠ "") with
  | none => row
  | some v => { row with variant := some v }

end CourseRow

namespace Roster

/-- The assignments of a subject. -/
def assignmentIds (r : Roster) (subjectId : ℕ) : List ℕ :=
  Table.idsWhere (fun a => a.any (·.subjectId == subjectId)) r.subjectsAssignments

/-- The assignment of the subject with this code. -/
def assignmentWithCode (r : Roster) (subjectId : ℕ) (code : String) : Option ℕ :=
  Table.findId (fun a => a.any fun a => a.subjectId == subjectId && a.code == code) r.subjectsAssignments

def assignment (r : Roster) (asgId : ℕ) : Option CourseAssignment := (r.subjectsAssignments[asgId]?).join

/-- The students enrolled in a subject. -/
def enrolledIn (r : Roster) (subjectId : ℕ) : List ℕ := (r.subjectsStudents.filter (·.1 == subjectId)).map (·.2)

def enrol (r : Roster) (subjectId studentId : ℕ) : Roster :=
  { r with subjectsStudents := r.subjectsStudents ++ [(subjectId, studentId)] }

/-- One turn of `_ensure_assignment_rows`. -/
def ensureRow (studentId : ℕ) (variant : Option String) (r : Roster) (asgId : ℕ) : Roster :=
  match Table.findId (fun row => row.key == (studentId, asgId)) r.studentsAssignments with
  | none =>
    { r with studentsAssignments := r.studentsAssignments ++
        [CourseRow.withVariant variant { studentId, subjectsAssignmentId := asgId }] }
  | some k => { r with studentsAssignments := r.studentsAssignments.modify k (·.withVariant variant) }

/-- `_ensure_assignment_rows`. -/
def ensureAssignmentRows (r : Roster) (studentId : ℕ) (asgIds : List ℕ) (variant : Option String) : Roster :=
  asgIds.foldl (ensureRow studentId variant) r

/-- `enroll_student`. -/
def enrollStudent (r : Roster) (subjectId studentId : ℕ) : Except RosterError Roster :=
  if r.subjects.length ≤ subjectId then .error (.http 404 "Subject not found")
  else if (subjectId, studentId) ∈ r.subjectsStudents then .ok r
  else if r.students.length ≤ studentId then .error .integrityError
  else .ok ((r.enrol subjectId studentId).ensureAssignmentRows studentId (r.assignmentIds subjectId) none)

/-- `enroll_student_by_search`; the variant comes stripped. -/
def enrollStudentBySearch (r : Roster) (subjectId studentId : ℕ) (variant : String) : Except RosterError Roster :=
  if r.subjects.length ≤ subjectId then .error (.http 404 "Subject not found")
  else
    let needsVariant := (r.assignmentIds subjectId).any fun a => (r.assignment a).any (·.block.variantsRequired)
    if needsVariant ∧ variant = "" then .error (.http 422 "This subject requires a variant")
    else if (subjectId, studentId) ∈ r.subjectsStudents then .ok r
    else if r.students.length ≤ studentId then .error .integrityError
    else .ok ((r.enrol subjectId studentId).ensureAssignmentRows studentId (r.assignmentIds subjectId) (some variant))

/-- Why a line was rejected. -/
inductive Rejection
  | empty | unknown
  deriving DecidableEq, Repr

/-- What the import tells the teacher. -/
structure ImportReport where
  enrolled : ℕ := 0
  already : ℕ := 0
  rejections : List (ℕ × Rejection) := []
  deriving DecidableEq, Repr

/-- One line of the CSV: its e-mail and its variant, stripped, and its number. -/
def importLine (subjectId : ℕ) (asgIds : List ℕ) (s : Roster × ImportReport) (line : (String × String) × ℕ) :
    Roster × ImportReport :=
  let reject (reason : Rejection) := (s.1, { s.2 with rejections := s.2.rejections ++ [(line.2, reason)] })
  if line.1.1 = "" then reject .empty
  else
    match Table.findId (· == line.1.1) s.1.students with
    | none => reject .unknown
    | some t =>
      if (subjectId, t) ∈ s.1.subjectsStudents then
        (s.1.ensureAssignmentRows t asgIds (some line.1.2), { s.2 with already := s.2.already + 1 })
      else
        ((s.1.enrol subjectId t).ensureAssignmentRows t asgIds (some line.1.2),
          { s.2 with enrolled := s.2.enrolled + 1 })

/-- `import_subject_students`; the header is line 1. -/
def importSubjectStudents (r : Roster) (subjectId : ℕ) (lines : List (String × String)) :
    Except RosterError (Roster × ImportReport) :=
  if r.subjects.length ≤ subjectId then .error (.http 404 "Subject not found")
  else .ok ((lines.zipIdx 2).foldl (importLine subjectId (r.assignmentIds subjectId)) (r, {}))

/-- The variant of the test student: the one picked, else the first where one is required. -/
def testVariant (form : String → Option String) (a : CourseAssignment) : Option String :=
  ((form a.code).filter (· ∈ a.block.variants)).or
    (if a.block.variantsRequired then (a.block.variants.insertionSort (· ≤ ·)).head? else none)

/-- `provision_test_student`. -/
def provisionTestStudent (r : Roster) (subjectId : ℕ) (form : String → Option String) : Except RosterError Roster :=
  if r.subjects.length ≤ subjectId then .error (.http 404 "Subject not found")
  else if r.subjectTestStudents.any (·.1 == subjectId) then .ok r
  else
    let email := "test+" ++ toString subjectId ++ "@test.internal"
    if email ∈ r.students then .error .integrityError
    else
      let studentId := r.students.length
      .ok { r with
        students := r.students ++ [email]
        subjectsStudents := r.subjectsStudents ++ [(subjectId, studentId)]
        subjectTestStudents := r.subjectTestStudents ++ [(subjectId, studentId)]
        studentsAssignments := r.studentsAssignments ++ (r.assignmentIds subjectId).map fun a =>
          { studentId, subjectsAssignmentId := a, variant := (r.assignment a).bind (testVariant form) } }

/-- `unenroll_student`: the rows stay. -/
def unenrollStudent (r : Roster) (subjectId studentId : ℕ) : Except RosterError Roster :=
  if r.subjects.length ≤ subjectId then .error (.http 404 "Subject not found")
  else .ok { r with subjectsStudents := r.subjectsStudents.erase (subjectId, studentId) }

/-! ### `_execute_plan` -/

/-- `assignments_to_create`, `assignments_to_update` and `assignments_to_delete`. -/
def toCreate (cfg prev : List (String × VariantBlock)) : List (String × VariantBlock) :=
  cfg.filter fun a => (prev.lookup a.1).isNone

def toUpdate (cfg prev : List (String × VariantBlock)) : List (String × VariantBlock) :=
  cfg.filter fun a => (prev.lookup a.1).any (· ≠ a.2)

def toDelete (cfg prev : List (String × VariantBlock)) : List String :=
  (prev.map (·.1)).filter fun code => (cfg.lookup code).isNone

/-- A new assignment, and a row of it for every student enrolled; a subject has each code once. -/
def createAssignment (subjectId : ℕ) (r : Roster) (a : String × VariantBlock) : Except RosterError Roster :=
  if (r.assignmentWithCode subjectId a.1).isSome then .error .integrityError
  else
    .ok { r with
      subjectsAssignments := r.subjectsAssignments ++ [some { subjectId, code := a.1, block := a.2 }]
      studentsAssignments := r.studentsAssignments ++ (r.enrolledIn subjectId).map fun studentId =>
        { studentId, subjectsAssignmentId := r.subjectsAssignments.length } }

def updateAssignment (subjectId : ℕ) (r : Roster) (a : String × VariantBlock) : Roster :=
  match r.assignmentWithCode subjectId a.1 with
  | none => r
  | some i =>
    { r with subjectsAssignments := r.subjectsAssignments.modify i (Option.map ({ · with block := a.2 })) }

/-- `db.delete(doomed)`: a row that refers to the assignment forbids it. -/
def deleteAssignment (subjectId : ℕ) (r : Roster) (code : String) : Except RosterError Roster :=
  match r.assignmentWithCode subjectId code with
  | none => .ok r
  | some i =>
    if r.studentsAssignments.any (·.subjectsAssignmentId == i) then .error .integrityError
    else .ok { r with subjectsAssignments := r.subjectsAssignments.set i none }

/-- `_execute_plan` on a subject, against the config it was given last. -/
def executePlan (r : Roster) (subjectId : ℕ) (cfg : List (String × VariantBlock)) : Except RosterError Roster := do
  let prev := (r.subjects[subjectId]?).getD []
  let r₁ ← (toCreate cfg prev).foldlM (createAssignment subjectId) r
  let r₂ := (toUpdate cfg prev).foldl (updateAssignment subjectId) r₁
  let r₃ ← (toDelete cfg prev).foldlM (deleteAssignment subjectId) r₂
  .ok { r₃ with subjects := r₃.subjects.modify subjectId fun _ => cfg }

/-- `apply`, on a subject or on a new one. -/
def applyConfig (r : Roster) (subjectId : Option ℕ) (cfg : List (String × VariantBlock)) : Except RosterError Roster :=
  match subjectId with
  | none => { r with subjects := r.subjects ++ [[]] }.executePlan r.subjects.length cfg
  | some subjectId =>
    if r.subjects.length ≤ subjectId then .error (.http 404 "Subject not found") else r.executePlan subjectId cfg

end Roster

/-- What happens to a roster; a student registers, and a grade is stored, elsewhere. -/
inductive RosterOp
  | register (email : String)
  | storeGrade (saId : ℕ) (grade : Option ℤ)
  | enroll (subjectId studentId : ℕ)
  | enrollBySearch (subjectId studentId : ℕ) (variant : String)
  | importCsv (subjectId : ℕ) (lines : List (String × String))
  | provisionTest (subjectId : ℕ) (form : String → Option String)
  | unenroll (subjectId studentId : ℕ)
  | apply (subjectId : Option ℕ) (cfg : List (String × VariantBlock))

namespace Roster

/-- One operation; what raises is rolled back. -/
def serve (r : Roster) : RosterOp → Except RosterError Roster
  | .register email => if email ∈ r.students then .error .integrityError else .ok { r with students := r.students ++ [email] }
  | .storeGrade k grade => .ok { r with studentsAssignments := r.studentsAssignments.modify k ({ · with grade }) }
  | .enroll s t => r.enrollStudent s t
  | .enrollBySearch s t variant => r.enrollStudentBySearch s t variant
  | .importCsv s lines => (r.importSubjectStudents s lines).map (·.1)
  | .provisionTest s form => r.provisionTestStudent s form
  | .unenroll s t => r.unenrollStudent s t
  | .apply s cfg => r.applyConfig s cfg

def step (r : Roster) (op : RosterOp) : Roster :=
  match r.serve op with
  | .ok r' => r'
  | .error _ => r

end Roster

end SubmissionsChecker
