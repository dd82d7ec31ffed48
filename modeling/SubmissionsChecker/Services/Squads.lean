import Mathlib.Algebra.Ring.Rat
import Mathlib.Data.Finset.Sort
import SubmissionsChecker.Db.Models
import SubmissionsChecker.Library.Assoc

/-! `services/squads.py`: which squad a student is in, which submission stands for a student
and an assignment, and when a shared quiz is complete. -/

namespace SubmissionsChecker

namespace Db

/-- `squad_of`. -/
def squadOf (db : Db) (subjectId studentId : ℕ) : Option ℕ :=
  Table.findId (fun s => s.subjectId == subjectId && s.members.contains studentId) db.squads

/-- `active_squad`: locked squads only. -/
def activeSquad (db : Db) (subjectId studentId : ℕ) : Option ℕ :=
  Table.findId (fun s => s.subjectId == subjectId && s.members.contains studentId && s.lockedAt.isSome)
    db.squads

/-- `has_pending_invites`. -/
def hasPendingInvites (db : Db) (subjectId studentId : ℕ) : Bool :=
  db.squadInvites.any fun inv => inv.isPending &&
    ((db.squads[inv.squadId]?).any fun s => s.subjectId == subjectId) &&
    (inv.invitedStudentId == studentId || inv.invitedByStudentId == some studentId)

/-- `squad_has_pending_invites`. -/
def squadHasPendingInvites (db : Db) (subjectId studentId : ℕ) : Bool :=
  match db.squadOf subjectId studentId with
  | none => false
  | some q => db.squadInvites.any fun inv => inv.squadId == q && inv.isPending

/-- `lock_on_submit`. -/
def lockOnSubmit (db : Db) (squadId : ℕ) : Db :=
  { db with squads := db.squads.modify squadId fun s =>
      if s.lockedAt.isNone then { s with lockedAt := some db.now } else s }

/-- A student's row for an assignment. -/
def saOf (db : Db) (studentId asgId : ℕ) : Option ℕ :=
  Table.findId (fun sa => sa.studentId == studentId && sa.subjectsAssignmentId == asgId)
    db.studentsAssignments

/-- One turn of `member_sa_ids`: the member's row, created when missing. -/
def ensureSa (db : Db) (studentId asgId : ℕ) : Db × ℕ :=
  match db.saOf studentId asgId with
  | some i => (db, i)
  | none =>
    ({ db with studentsAssignments := db.studentsAssignments ++ [{ studentId, subjectsAssignmentId := asgId }] },
      db.studentsAssignments.length)

/-- `member_sa_ids`. -/
def memberSaIds (db : Db) : List ℕ → ℕ → Db × List ℕ
  | [], _ => (db, [])
  | m :: ms, asgId =>
    let (db₁, i) := db.ensureSa m asgId
    let (db₂, is) := memberSaIds db₁ ms asgId
    (db₂, i :: is)

/-- `scope_sa_ids`. -/
def scopeSaIds (db : Db) (studentId subjectId asgId : ℕ) : Db × List ℕ :=
  match (db.activeSquad subjectId studentId).bind (db.squads[·]?) with
  | none => (db, (db.saOf studentId asgId).toList)
  | some squad => db.memberSaIds squad.members asgId

/-- `ORDER BY created_at DESC, id DESC LIMIT 1` over ids in ascending order. -/
def newestOf (db : Db) (ids : List ℕ) : Option ℕ :=
  ids.foldl (fun best i =>
    match best with
    | none => some i
    | some j =>
      if ((db.submissions[j]?).map (·.createdAt)).getD 0 ≤ ((db.submissions[i]?).map (·.createdAt)).getD 0
      then some i else some j) none

def submissionsIn (db : Db) (scope : List ℕ) : List ℕ :=
  Table.idsWhere (fun sub => scope.contains sub.studentsAssignmentId) db.submissions

/-- `latest_submission_for`. -/
def latestSubmissionFor (db : Db) (studentId subjectId asgId : ℕ) : Db × Option ℕ :=
  let (db₁, scope) := db.scopeSaIds studentId subjectId asgId
  (db₁, db₁.newestOf (db₁.submissionsIn scope))

/-- `latest_submission`. -/
def latestSubmission (db : Db) (saId : ℕ) : Db × Option ℕ :=
  match db.studentsAssignments[saId]? with
  | none => (db, none)
  | some sa =>
    match db.subjectsAssignments[sa.subjectsAssignmentId]? with
    | none => (db, none)
    | some asg => db.latestSubmissionFor sa.studentId asg.subjectId sa.subjectsAssignmentId

/-- `squad_for_submission`. -/
def squadForSubmission (db : Db) (i : ℕ) : Option Squad :=
  ((db.submissions[i]?).bind (·.squadId)).bind (db.squads[·]?)

/-- `_passed_student_ids`. -/
def passedStudentIds (db : Db) (i : ℕ) : List ℕ :=
  (db.quizAttempts.filter fun a => a.submissionId == i && a.passed).filterMap (·.studentId)

/-- `_enrolled_member_ids`. -/
def enrolledMemberIds (db : Db) (squad : Squad) : List ℕ :=
  squad.members.filter fun t => decide ((squad.subjectId, t) ∈ db.subjectsStudents)

/-- `quiz_complete`. -/
def quizComplete (db : Db) (i : ℕ) : Bool :=
  match db.squadForSubmission i with
  | none => db.quizAttempts.any fun a => a.submissionId == i && a.passed
  | some squad =>
    let needed := db.enrolledMemberIds squad
    !needed.isEmpty && needed.all (db.passedStudentIds i).contains

end Db

/-! ## Views

What a teacher sees of shared work: `shared_submissions`, the rows of the students grid
(`services/gradebook.py`) and those of the assignment board (`teacher_portal.py`). Names and titles are
left out; a row has the squad itself for the squad's name. -/

structure SquadShare where
  submissionId : ℕ
  squadId : ℕ
  passedStudentIds : List ℕ
  deriving DecidableEq, Repr

structure GridSourceRow where
  studentId : ℕ
  assignmentId : ℕ
  minGrade : ℤ
  grade : Option ℤ
  submissionStatus : Option SubmissionStatus
  quizScore : Option ℚ
  reviewScore : Option ℚ
  squadId : Option ℕ := none
  waitingPartner : Bool := false
  deriving DecidableEq

/-- A row of `teacher_assignment`. -/
structure BoardRow where
  studentId : ℕ
  studentAssignmentId : Option ℕ
  grade : Option ℤ
  teacherScores : Option TeacherScores
  submissionId : Option ℕ
  submissionStatus : Option SubmissionStatus
  submittedAt : Option ℕ
  aiReview : Option AiReview
  squadId : Option ℕ
  deriving DecidableEq

/-- `breakdown.get("quiz_score")`, or the member's own part of it. -/
def GradeBreakdown.quizScoreOf (b : GradeBreakdown) (studentId : ℕ) : Option ℚ :=
  let own := ((b.squad.map (·.members)).getD []).filter (·.1 == studentId)
  match own.getLast? with
  | some m => some m.2
  | none =>
    match b.parts with
    | .inl blended => blended.quizScore
    | .inr scored => some scored.quizPct

/-- `quality_score`, or the teacher's points. -/
def GradeBreakdown.reviewScore (b : GradeBreakdown) : Option ℚ :=
  match b.parts with
  | .inl blended => blended.qualityScore
  | .inr scored => some (scored.criteria.map (·.points)).sum

namespace Db

/-- `SELECT max(created_at)`. -/
def maxCreatedAt (db : Db) (p : Submission → Bool) : Option ℕ := ((db.submissions.filter p).map (·.createdAt)).max?

/-- The submissions joined to their `max(created_at)`. -/
def newestWhere (db : Db) (p : Submission → Bool) : List ℕ :=
  Table.idsWhere (fun sub => p sub && some sub.createdAt == db.maxCreatedAt p) db.submissions

/-- `StudentAssignment.subjects_assignment_id` of a submission. -/
def asgIdOn (db : Db) (sub : Submission) : Option ℕ :=
  (db.studentsAssignments[sub.studentsAssignmentId]?).map (·.subjectsAssignmentId)

/-- The work of squad `q` for an assignment. -/
def isSquadWork (db : Db) (q asgId : ℕ) (sub : Submission) : Bool :=
  sub.squadId == some q && db.asgIdOn sub == some asgId

/-- One submission of `shared_submissions`, fanned out to the members. -/
def sharesOf (db : Db) (subjectId : ℕ) (asgId : Option ℕ) (i : ℕ) : List ((ℕ × ℕ) × SquadShare) :=
  match (db.submissions[i]?).bind fun sub => (sub.squadId).bind fun q => (db.asgIdOn sub).map (q, ·) with
  | none => []
  | some (q, a) =>
    match db.squads[q]? with
    | none => []
    | some squad =>
      if squad.subjectId = subjectId ∧ asgId.all (· == a) ∧ i ∈ db.newestWhere (db.isSquadWork q a) then
        squad.members.map fun m => ((m, a), { submissionId := i, squadId := q, passedStudentIds := db.passedStudentIds i })
      else []

/-- `shared_submissions`: a later row of the query replaces an earlier one of the same key. -/
def sharedSubmissions (db : Db) (subjectId : ℕ) (asgId : Option ℕ) : List ((ℕ × ℕ) × SquadShare) :=
  ((List.range db.submissions.length).flatMap (db.sharesOf subjectId asgId)).foldl (fun out e => Assoc.set e.1 e.2 out) []

/-- `SubjectsStudents` joined to the real students. -/
def realStudents (isTest : ℕ → Bool) (db : Db) (subjectId : ℕ) : List ℕ :=
  (((db.subjectsStudents.filter (·.1 = subjectId)).image (·.2)).sort (· ≤ ·)).filter (!isTest ·)

/-- The outer joins of both queries: the student's row for the assignment and its newest submissions. -/
def latestRows (db : Db) (studentId asgId : ℕ) : List (Option ℕ × Option ℕ) :=
  (Table.outer (Table.idsWhere (fun sa => sa.studentId == studentId && sa.subjectsAssignmentId == asgId)
    db.studentsAssignments)).flatMap fun
    | none => [(none, none)]
    | some saId => (Table.outer (db.newestWhere (·.studentsAssignmentId == saId))).map fun i => (some saId, i)

/-- One row of the grid. -/
def gridRow (db : Db) (shares : List ((ℕ × ℕ) × SquadShare)) (studentId asgId : ℕ) (minGrade : ℤ)
    (r : Option ℕ × Option ℕ) : GridSourceRow :=
  let own := r.2.bind (db.submissions[·]?)
  let share := shares.lookup (studentId, asgId)
  -- the share stands in only where the student's own row has no submission
  let shown := if own.isNone then share.bind fun s => db.submissions[s.submissionId]? else own
  let status := shown.map (·.status)
  let breakdown := shown.bind (·.gradeBreakdown)
  { studentId
    assignmentId := asgId
    minGrade
    grade := (r.1.bind (db.studentsAssignments[·]?)).bind (·.grade)
    submissionStatus := status
    quizScore := breakdown.bind (·.quizScoreOf studentId)
    reviewScore := breakdown.bind (·.reviewScore)
    squadId := share.map (·.squadId)
    waitingPartner := share.any fun s => status == some .quizSent && s.passedStudentIds.contains studentId }

/-- `fetch_grid_rows`. -/
def fetchGridRows (isTest : ℕ → Bool) (db : Db) (subjectId : ℕ) : List GridSourceRow :=
  let shares := db.sharedSubmissions subjectId none
  (db.realStudents isTest subjectId).flatMap fun studentId =>
    (Table.idsWhere (·.subjectId == subjectId) db.subjectsAssignments).flatMap fun asgId =>
      (db.latestRows studentId asgId).map
        (db.gridRow shares studentId asgId (((db.subjectsAssignments[asgId]?).map (·.minGrade)).getD 0))

/-- One row of the board. -/
def boardRow (db : Db) (shares : List ((ℕ × ℕ) × SquadShare)) (studentId asgId : ℕ) (r : Option ℕ × Option ℕ) : BoardRow :=
  let sa := r.1.bind (db.studentsAssignments[·]?)
  let share := shares.lookup (studentId, asgId)
  let shown := if r.2.isNone then share.map (·.submissionId) else r.2
  let sub := shown.bind (db.submissions[·]?)
  { studentId
    studentAssignmentId := r.1
    grade := sa.bind (·.grade)
    teacherScores := sa.bind (·.teacherScores)
    submissionId := shown
    submissionStatus := sub.map (·.status)
    submittedAt := sub.map (·.createdAt)
    aiReview := sub.bind (·.aiReview)
    squadId := share.map (·.squadId) }

/-- The rows of `teacher_assignment`. -/
def boardRows (isTest : ℕ → Bool) (db : Db) (subjectId asgId : ℕ) : List BoardRow :=
  let shares := db.sharedSubmissions subjectId (some asgId)
  (db.realStudents isTest subjectId).flatMap fun studentId =>
    (db.latestRows studentId asgId).map (db.boardRow shares studentId asgId)

end Db

end SubmissionsChecker
