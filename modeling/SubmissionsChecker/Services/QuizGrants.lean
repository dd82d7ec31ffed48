import SubmissionsChecker.Services.Squads
import Mathlib.Data.List.Sort

/-! `services/quiz_grants.py`: who is stuck on an exhausted quiz, and one attempt more. -/

namespace SubmissionsChecker

/-- `extra_attempts`. -/
def Submission.extraAttempts (sub : Submission) (studentId : Option ℕ) : ℕ :=
  (studentId.bind fun t => sub.quizExtraAttempts.lookup t).getD 0

/-- `effective_max_attempts`. -/
def effectiveMaxAttempts (base : Option ℤ) (sub : Submission) (studentId : Option ℕ) : Option ℤ :=
  base.map fun b => b + sub.extraAttempts studentId

/-- `is_exhausted`. -/
def isExhausted (attempts : List QuizAttempt) (effectiveMax : Option ℤ) : Bool :=
  match effectiveMax with
  | none => false
  | some cap =>
    !attempts.isEmpty && attempts.all (·.status.isTerminal) && !attempts.any (·.passed) &&
      decide (cap ≤ attempts.length)

/-- `extras[str(student_id)] = total`. -/
def setExtra (studentId total : ℕ) (extras : List (ℕ × ℕ)) : List (ℕ × ℕ) :=
  (studentId, total) :: extras.filter fun e => e.1 != studentId

namespace Db

/-- The plugin block the pinned config holds for the submission's assignment. -/
def pinnedBlock (db : Db) (i : ℕ) : Option PluginAssignment :=
  match db.submissions[i]? with
  | none => none
  | some sub =>
    match sub.pluginConfigId.bind (db.pluginConfigs[·]?), db.assignmentOf sub.studentsAssignmentId with
    | some cfg, some asg => asg.code.map fun _ => cfg.assignment asg.code
    | _, _ => none

/-- `base_max_attempts`. -/
def baseMaxAttempts (db : Db) (i : ℕ) : Option ℤ := (db.pinnedBlock i).bind (·.quiz.maxQuizAttempts)

/-- `_students_on`. -/
def studentsOn (db : Db) (i : ℕ) : List ℕ :=
  match db.squadForSubmission i with
  | none =>
    ((db.submissions[i]?).bind fun sub =>
      (db.studentsAssignments[sub.studentsAssignmentId]?).map (·.studentId)).toList
  | some squad => (db.enrolledMemberIds squad).insertionSort (· ≤ ·)

/-- `_attempts_of`: the student's attempts and the legacy rows with no student. -/
def attemptsOf (db : Db) (i studentId : ℕ) : List QuizAttempt :=
  db.quizAttempts.filter fun a =>
    a.submissionId == i && (a.studentId == some studentId || a.studentId == none)

/-- `_is_grantable`. -/
def isGrantable (db : Db) (i studentId : ℕ) (base : Option ℤ) : Bool :=
  match db.submissions[i]? with
  | none => false
  | some sub =>
    (sub.status == .failed || sub.status == .quizSent) && base.isSome &&
      isExhausted (db.attemptsOf i studentId) (effectiveMaxAttempts base sub (some studentId))

/-- `grant_extra_attempt`. -/
def grantExtraAttempt (db : Db) (i studentId : ℕ) : Except Raised Db :=
  if studentId ∈ db.studentsOn i ∧ db.isGrantable i studentId (db.baseMaxAttempts i) then
    (db.setSubmission i fun sub =>
      { sub with quizExtraAttempts :=
          setExtra studentId (sub.extraAttempts (some studentId) + 1) sub.quizExtraAttempts }).transition
      i .quizAttemptGranted
  else .error (.grantError "student is not stuck on an exhausted quiz for this submission")

end Db

end SubmissionsChecker
