import SubmissionsChecker.Db.Models
import SubmissionsChecker.Library.Assoc
import SubmissionsChecker.Services.LlmRunner

/-! `api/routes/teacher_classroom.py`: who a roster entry is, which coursework feeds which assignment,
and a failed grading queued again. That the teacher has access to the subject is checked before; the
audit log is left out. -/

namespace SubmissionsChecker.Classroom

open PyText (Text)

/-- `BULK_CONFIRM` -/
def bulkConfirm : ℚ := 95 / 100

/-- The form field `action`. -/
inductive LinkAction
  | link | ignore | confirm
  | other (action : String)
  deriving DecidableEq, Repr

/-- The request of a link page: one link resolved, or all good name matches confirmed. -/
inductive LinkRequest
  | resolve (linkId : ℕ) (action : LinkAction) (studentId : Option ℕ)
  | confirmAll

def linkedTo (studentId : ℕ) (link : ClassroomStudentLink) : ClassroomStudentLink :=
  { link with method := .manual, confirmed := true, studentId := some studentId }

def confirmedByHand (link : ClassroomStudentLink) : ClassroomStudentLink :=
  { link with method := .manual, confirmed := true }

def ignoredLink (link : ClassroomStudentLink) : ClassroomStudentLink :=
  { link with method := .ignored, confirmed := true, studentId := none }

def queueAgain (now : ℕ) (grading : LLMGrading) : LLMGrading :=
  { grading with status := .pending, attempts := 0, error := none, updatedAt := now }

namespace ClassroomDb

variable (db : ClassroomDb)

/-- `_student_taken` -/
def studentTaken (subjectId studentId exceptLinkId : ℕ) : Bool :=
  (Table.idsWhere (fun link => link.subjectId == subjectId && link.studentId == some studentId && link.confirmed)
    db.links).any (· != exceptLinkId)

/-- `enrolled` are the rows of `subjects_students`. -/
def linkStudent (enrolled : List (ℕ × ℕ)) (subjectId linkId studentId now : ℕ) : Except Raised ClassroomDb :=
  if (subjectId, studentId) ∉ enrolled then .error (.http 422 "Student is not enrolled in this subject")
  else if db.studentTaken subjectId studentId linkId then .error (.http 409 "Student is already linked")
  else .ok ((db.setLink linkId (linkedTo studentId)).releaseWaiting linkId now)

def ignoreLink (linkId : ℕ) : ClassroomDb := db.setLink linkId ignoredLink

/-- What is not an unconfirmed name match comes back to the page. -/
def confirmLink (subjectId linkId : ℕ) (link : ClassroomStudentLink) (now : ℕ) : Except Raised ClassroomDb :=
  match link.method, link.studentId with
  | .name, some studentId =>
    if db.studentTaken subjectId studentId linkId then .error (.http 409 "Student is already linked")
    else .ok ((db.setLink linkId confirmedByHand).releaseWaiting linkId now)
  | _, _ => .ok db

/-- `resolve_link` -/
def resolveLink (enrolled : List (ℕ × ℕ)) (subjectId linkId : ℕ) (action : LinkAction) (studentId : Option ℕ)
    (now : ℕ) : Except Raised ClassroomDb :=
  match (db.links[linkId]?).filter fun link => link.subjectId == subjectId with
  | none => .error (.http 404 "Link not found")
  | some link =>
    match action with
    | .link =>
      match studentId with
      | none => .ok db
      | some studentId => db.linkStudent enrolled subjectId linkId studentId now
    | .ignore => .ok (db.ignoreLink linkId)
    | .confirm => db.confirmLink subjectId linkId link now
    | .other _ => .ok db

/-- `_bulk_confirmable` -/
def bulkConfirmable (subjectId : ℕ) : List ℕ :=
  Table.idsWhere (fun link => link.subjectId == subjectId && link.method == .name && !link.confirmed &&
    link.score.any fun score => decide (bulkConfirm ≤ score)) db.links

/-- The students with a confirmed link. -/
def takenStudents (subjectId : ℕ) : List (Option ℕ) :=
  (db.links.filter fun link => link.subjectId == subjectId && link.confirmed && link.studentId.isSome).map (·.studentId)

/-- One turn of the loop of `confirm_all_links`, with the set `taken`. -/
def confirmTurn (s : ClassroomDb × List (Option ℕ)) (linkId : ℕ) : ClassroomDb × List (Option ℕ) :=
  match s.1.links[linkId]? with
  | none => s
  | some link =>
    if link.studentId ∈ s.2 then s
    else (s.1.setLink linkId confirmedByHand, link.studentId :: s.2)

/-- `confirm_all_links` -/
def confirmAllLinks (subjectId : ℕ) : ClassroomDb :=
  ((db.bulkConfirmable subjectId).foldl confirmTurn (db, db.takenStudents subjectId)).1

/-- A request that raises is rolled back. -/
def linkRequest (enrolled : List (ℕ × ℕ)) (subjectId now : ℕ) : LinkRequest → ClassroomDb
  | .resolve linkId action studentId =>
    match db.resolveLink enrolled subjectId linkId action studentId now with
    | .ok db' => db'
    | .error _ => db
  | .confirmAll => db.confirmAllLinks subjectId

/-- `retry_grading`; the grading is one of the subject's assignments. -/
def retryGrading (subjectId g now : ℕ) : Except Raised ClassroomDb :=
  match (db.gradings[g]?).filter fun grading =>
      ((db.works[grading.classroomWorkId]?).bind fun work => db.assignments[work.subjectsAssignmentId]?).any
        fun assignment => assignment.subjectId == subjectId with
  | none => .error (.http 404 "Grading not found")
  | some grading =>
    if grading.status = .failed then
      .ok (db.setGrading g (queueAgain now))
    else .ok db

end ClassroomDb

/-! ## Coursework -/

/-- The fields `coursework_<assignment id>` of the form; whether the teacher's Google account is usable,
and the courseworks of the course with their titles, none where the call fails. -/
structure CourseworkForm where
  field : ℕ → Option String
  courseLinked : Bool
  connected : Bool
  listing : Option (List (String × String))

/-- Where the batch ends. -/
inductive BatchOutcome
  | courseworkTaken | google | linked
  deriving DecidableEq, Repr

namespace ClassroomDb

variable (db : ClassroomDb)

/-- `wanted`: the stripped fields of the LLM-graded assignments of the subject. -/
def wanted (subjectId : ℕ) (form : CourseworkForm) (a : ℕ) : Option String := do
  let assignment ← db.assignments[a]?
  guard (assignment.subjectId = subjectId)
  guard assignment.isLlmGraded
  return String.ofList (PyText.strip (← form.field a).toList)

def assignmentsOf (subjectId : ℕ) : List ℕ := Table.idsWhere (·.subjectId == subjectId) db.assignments

/-- `a.classroom_coursework_id or ""` -/
def courseworkOf (a : ℕ) : String := ((db.assignments[a]?).bind (·.classroomCourseworkId)).getD ""

/-- `final`: what each assignment is to be fed by. -/
def finalCoursework (subjectId : ℕ) (form : CourseworkForm) (a : ℕ) : String :=
  (db.wanted subjectId form a).getD (db.courseworkOf a)

/-- `picked` -/
def pickedCoursework (subjectId : ℕ) (form : CourseworkForm) : List String :=
  ((db.assignmentsOf subjectId).map (db.finalCoursework subjectId form)).filter (· ≠ "")

/-- One turn of the last loop: a row whose field says something else. -/
def linkTurn (wanted : ℕ → Option String) (titles : List (String × String)) (db : ClassroomDb) (a : ℕ) : ClassroomDb :=
  match wanted a with
  | none => db
  | some cw =>
    if cw = db.courseworkOf a then db
    else
      { db with
        assignments := db.assignments.modify a fun assignment =>
          { assignment with
            classroomCourseworkId := if cw = "" then none else some cw
            classroomCourseworkTitle := if cw = "" then none else (titles.lookup cw).map (cut 255) } }

def linkAll (subjectId : ℕ) (form : CourseworkForm) (titles : List (String × String)) : ClassroomDb :=
  (db.assignmentsOf subjectId).foldl (linkTurn (db.wanted subjectId form) titles) db

/-- The dictionary of the titles: a later one of the same id replaces the earlier one. -/
def titlesOf (courseworks : List (String × String)) : List (String × String) :=
  courseworks.foldl (fun titles cw => Assoc.set cw.1 cw.2 titles) []

/-- `link_coursework_batch`: "all or nothing". -/
def linkCourseworkBatch (subjectId : ℕ) (form : CourseworkForm) : Except Raised (ClassroomDb × BatchOutcome) :=
  let asked := (db.assignmentsOf subjectId).filterMap (db.wanted subjectId form)
  if ¬ (db.pickedCoursework subjectId form).Nodup then .ok (db, .courseworkTaken)
  else if asked.all (· = "") then .ok (db.linkAll subjectId form [], .linked)
  else if !form.courseLinked then .error (.http 422 "Link a Classroom course first")
  else if !form.connected then .error (.http 409 "Google account is not connected")
  else
    match form.listing with
    | none => .ok (db, .google)
    | some courseworks =>
      if asked.any fun cw => cw ≠ "" ∧ cw ∉ (titlesOf courseworks).map (·.1) then
        .error (.http 422 "Unknown Classroom coursework")
      else .ok (db.linkAll subjectId form (titlesOf courseworks), .linked)

end ClassroomDb

end SubmissionsChecker.Classroom
