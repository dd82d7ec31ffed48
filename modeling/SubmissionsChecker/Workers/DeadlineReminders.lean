import SubmissionsChecker.Library.Table

/-! `workers/scheduled/deadline_reminders.py`: reminders of unsubmitted work, put into the outbox. Any
reminder of the student and the assignment there means that it was queued: no row of the outbox is
deleted. Times are in microseconds. -/

namespace SubmissionsChecker.Reminders

structure DueAssignment where
  subjectId : ℕ
  deadline : Option ℕ

/-- The payload of a `DEADLINE_REMINDER`; `deadline_str` is kept as the deadline. -/
structure Reminder where
  studentId : ℕ
  assignmentId : ℕ
  deadline : ℕ
  deriving DecidableEq, Repr

/-- What the job reads. `preferences` has the rows of its case and of the method email. -/
structure ReminderTables where
  /-- The status of each subject is `ACTIVE`. -/
  subjects : List Bool
  assignments : List DueAssignment
  /-- The type of each student is `REAL`. -/
  students : List Bool
  /-- `subjects_students`: a subject and a student -/
  enrolled : List (ℕ × ℕ)
  /-- `students_assignments`: a student and an assignment -/
  studentAssignments : List (ℕ × ℕ)
  /-- The `students_assignment_id` of each submission. -/
  submissions : List ℕ
  preferences : List (ℕ × Bool)

structure ReminderDb where
  tables : ReminderTables
  outbox : List Reminder

namespace ReminderTables

variable (tables : ReminderTables)

/-- `now < deadline <= horizon`, and the subject is active. -/
def isDue (now daysBefore : ℕ) (assignment : DueAssignment) : Bool :=
  (tables.subjects[assignment.subjectId]?).any id &&
    assignment.deadline.any fun deadline => decide (now < deadline ∧ deadline ≤ now + daysBefore * (86400 * 10 ^ 6))

/-- `has_submission` of a row of the outer join. -/
def hasSubmission (row : Option ℕ) : Bool := row.any fun sa => tables.submissions.contains sa

def optedOut (studentId : ℕ) : Bool := tables.preferences.any fun p => p.1 == studentId && !p.2

/-- The outer join of an enrolment with `students_assignments`. -/
def joined (assignmentId studentId : ℕ) : List (Option ℕ) :=
  Table.outer (Table.idsWhere (fun sa => sa.1 == studentId && sa.2 == assignmentId) tables.studentAssignments)

end ReminderTables

namespace ReminderDb

variable (db : ReminderDb)

def alreadyQueued (assignmentId studentId : ℕ) : Bool :=
  db.outbox.any fun r => r.studentId == studentId && r.assignmentId == assignmentId

/-- The rows that the query keeps of an enrolled student. -/
def rowsToRemind (assignmentId studentId : ℕ) : List (Option ℕ) :=
  (db.tables.joined assignmentId studentId).filter fun row =>
    (db.tables.students[studentId]?).any id && !db.tables.hasSubmission row &&
      !db.alreadyQueued assignmentId studentId && !db.tables.optedOut studentId

/-- The students of the query, once for each row of the join. -/
def studentsToRemind (assignmentId : ℕ) (assignment : DueAssignment) : List ℕ :=
  ((db.tables.enrolled.filter fun e => e.1 == assignment.subjectId).map (·.2)).flatMap fun studentId =>
    (db.rowsToRemind assignmentId studentId).map fun _ => studentId

/-- One turn of the loop over the due assignments. -/
def remindTurn (db : ReminderDb) (assignmentId : ℕ) : ReminderDb :=
  match db.tables.assignments[assignmentId]? with
  | none => db
  | some assignment =>
    { db with outbox := db.outbox ++ (db.studentsToRemind assignmentId assignment).map fun studentId =>
        ⟨studentId, assignmentId, assignment.deadline.getD 0⟩ }

/-- `enqueue_due_deadline_reminders` -/
def enqueueDueReminders (now daysBefore : ℕ) : ReminderDb :=
  (Table.idsWhere (db.tables.isDue now daysBefore) db.tables.assignments).foldl remindTurn db

end ReminderDb

/-- The job, and what everybody else writes of the tables it reads. -/
inductive ReminderOp
  | remind (now daysBefore : ℕ)
  | others (tables : ReminderTables)

def ReminderDb.step (db : ReminderDb) : ReminderOp → ReminderDb
  | .remind now daysBefore => db.enqueueDueReminders now daysBefore
  | .others tables => { db with tables := tables }

end SubmissionsChecker.Reminders
