import SubmissionsChecker.Library.Runs
import SubmissionsChecker.Routes.StudentPortal
import SubmissionsChecker.Routes.StudentQuiz
import SubmissionsChecker.Routes.TeacherPortal
import SubmissionsChecker.Workers.CheckTasks

/-! The system as a whole: every request and task as one operation on the database, executed
one at a time. A request that raises is rolled back. -/

namespace SubmissionsChecker

inductive Op
  | upload (saId studentId : ℕ) (isZip : Bool) (size : ℕ) (check : CheckResult)
  | processMessage (message : ℕ) (check : CheckResult) (ai : AiResult)
  | retryAiReview (submission : ℕ)
  | skipAiReview (submission : ℕ)
  | review (submission : ℕ) (action : ReviewAction) (reason : String)
  | rerunChecks (submission : ℕ)
  | startQuiz (saId studentId : ℕ) (rnd : Shuffles)
  | showQuiz (attempt studentId : ℕ) (timedOut : Bool) (expired : ℕ)
  | answerQuestion (attempt studentId index : ℕ) (isRight : Bool) (expired : ℕ)
  | submitQuiz (attempt studentId : ℕ) (isRight : ℕ → Bool) (timedOut : Bool)
  | reportViolation (attempt studentId : ℕ) (isFail : Bool)
  | reportQuestion (attempt studentId question : ℕ)
  | resolve (dispute : ℕ) (accept : Bool) (note : String)
  | grantQuizAttempt (submission : ℕ) (studentId : Option ℕ)
  | saveScores (subject assignment studentId : ℕ) (form : String → Option ℕ)
  | unenroll (subject studentId : ℕ)
  | tick (seconds : ℕ)

namespace Db

/-- The request or task of an operation; the outbox tasks never raise out of the processor. -/
def request (db : Db) : Op → Except Raised Db
  | .upload saId studentId isZip size check => db.submitAssignment saId studentId isZip size check
  | .processMessage message check ai => .ok (db.processMessage message check ai)
  | .retryAiReview i => db.retryAiReview i
  | .skipAiReview i => db.skipAiReview i
  | .review i action reason => db.reviewSubmission i action reason
  | .rerunChecks i => db.requeueChecks i
  | .startQuiz saId studentId rnd => db.startOrResumeQuiz saId studentId rnd
  | .showQuiz k studentId timedOut expired => db.showQuiz k studentId timedOut expired
  | .answerQuestion k studentId index isRight expired => db.answerQuestion k studentId index isRight expired
  | .submitQuiz k studentId isRight timedOut => db.submitQuiz k studentId isRight timedOut
  | .reportViolation k studentId isFail => db.reportViolation k studentId isFail
  | .reportQuestion k studentId question => db.reportQuestion k studentId question
  | .resolve d accept note => db.resolve d accept note
  | .grantQuizAttempt i studentId => db.grantQuizAttempt i studentId
  | .saveScores subject asg studentId form => db.saveScores subject asg studentId form
  | .unenroll subject studentId => .ok (db.unenrollStudent subject studentId)
  | .tick seconds => .ok { db with now := db.now + seconds }

/-- One operation: a request that raises leaves the database as it was. -/
def step (db : Db) (op : Op) : Db :=
  match db.request op with
  | .ok db' => db'
  | .error _ => db

end Db

end SubmissionsChecker
