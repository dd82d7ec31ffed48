import SubmissionsChecker.Effects.Evolves
import SubmissionsChecker.Library.ReadCommitted
import SubmissionsChecker.Services.QuizGrants

/-! The row locks of the requests, and the objects a session keeps: a row it has loaded is not
read again, so a later query that finds the row gets the values of the first load. What a
request has seen of rows and squads stays so, whatever the others commit. -/

namespace SubmissionsChecker

/-- The rows a request locks. -/
inductive Row
  | studentAssignment (i : ℕ)
  | submission (i : ℕ)
  | attempt (k : ℕ)
  | squad (q : ℕ)
  | override (configId version questionId : ℕ)
  deriving DecidableEq, Repr

/-- The submissions a session has loaded, by id. -/
abbrev Loaded := List (ℕ × Submission)

namespace Db

/-- `StudentAssignment.submissions`, loaded with the row. -/
def ownSubmissions (db : Db) (saId : ℕ) : Loaded :=
  (Table.idsWhere (fun sub => sub.studentsAssignmentId == saId) db.submissions).filterMap fun i =>
    (db.submissions[i]?).map (i, ·)

/-- The object of submission `i` in the session: the loaded one, or the row as it is now. -/
def load (db : Db) (loaded : Loaded) (i : ℕ) : Option Submission := (loaded.lookup i).or db.submissions[i]?

/-- The database as a session sees it that has submission `i` loaded. -/
def hold (db : Db) (i : ℕ) (sub : Submission) : Db := db.setSubmission i fun _ => sub

def HasRow (db : Db) (saId : ℕ) : Prop := (db.studentsAssignments[saId]?).isSome = true

/-- Every submission is on a student's row. -/
def Owned (db : Db) : Prop := ∀ sub ∈ db.submissions, db.HasRow sub.studentsAssignmentId

end Db

/-- Rows and squads stay, and keep their owner and their subject. -/
structure Db.Remains (db db' : Db) : Prop where
  assignments : db'.subjectsAssignments = db.subjectsAssignments
  rows : ∀ (r : ℕ) row, db.studentsAssignments[r]? = some row → ∃ row', db'.studentsAssignments[r]? = some row' ∧
    row'.studentId = row.studentId ∧ row'.subjectsAssignmentId = row.subjectsAssignmentId
  squads : ∀ (q : ℕ) s, db.squads[q]? = some s → ∃ s', db'.squads[q]? = some s' ∧ s'.subjectId = s.subjectId

section

variable {db db' : Db} {saId : ℕ}

theorem Evolves.remains (h : Evolves db db') : db.Remains db' where
  assignments := h.subjectsAssignments
  rows := h.rows
  squads q s hs := by
    have hroster := h.squad q
    rw [hs, Option.map_some] at hroster
    obtain ⟨s', hs', hr⟩ := Option.map_eq_some_iff.mp hroster
    exact ⟨s', hs', congrArg Prod.fst hr⟩

theorem Db.Remains.hasRow (h : db.Remains db') (hrow : db.HasRow saId) : db'.HasRow saId := by
  obtain ⟨row, hr⟩ := Option.isSome_iff_exists.mp hrow
  obtain ⟨row', hr', -⟩ := h.rows saId row hr
  exact Option.isSome_of_eq_some hr'

end

/-! ## Grants

`teacher_grant_quiz_attempt` as a request among others: the submission is loaded without a
lock, and the commit writes the whole `source_metadata` made from it. -/

open ReadCommitted

/-- The `UPDATE` of a grant: `source_metadata`, and the status when it changed. -/
def Submission.writeGrant (sub : Submission) (studentId : ℕ) (row : Submission) : Submission :=
  { row with
    quizExtraAttempts := setExtra studentId (sub.extraAttempts (some studentId) + 1) sub.quizExtraAttempts
    squadQuizDraw := sub.squadQuizDraw
    status := if sub.status = .quizSent then row.status else .quizSent }

/-- Where a grant stands. -/
inductive Grant
  | asked (i : ℕ) (studentId : Option ℕ)
  /-- The submission is in the session. -/
  | loaded (i studentId : ℕ) (sub : Submission)
  | granting (i studentId : ℕ) (sub : Submission)
  /-- The commit has the submission's row. -/
  | flushing (i studentId : ℕ) (sub : Submission)
  | granted (i studentId : ℕ)
  | refused
  deriving DecidableEq, Repr

namespace Grant

/-- `_load_submission_for_teacher`, and whom the grant is for. -/
def load (db : Db) (i : ℕ) (studentId : Option ℕ) : Grant :=
  match db.submissions[i]? with
  | none => .refused
  | some sub =>
    match db.studentsAssignments[sub.studentsAssignmentId]? with
    | none => .refused
    | some sa => .loaded i (studentId.getD sa.studentId) sub

/-- `grant_extra_attempt`, on the loaded submission. -/
def check (db : Db) (i studentId : ℕ) (sub : Submission) : Grant :=
  match (db.hold i sub).grantExtraAttempt i studentId with
  | .ok _ => .granting i studentId sub
  | .error _ => .refused

def next : Grant → Stmt Db Grant Row
  | asked i studentId => .read fun db => load db i studentId
  | loaded i studentId sub => .read fun db => check db i studentId sub
  | granting i studentId sub => .lock (.submission i) fun _ => .flushing i studentId sub
  | flushing i studentId sub => .commit (fun db => db.setSubmission i (sub.writeGrant studentId)) (.granted i studentId)
  | granted _ _ => .done
  | refused => .done

end Grant

end SubmissionsChecker
