import Mathlib.Tactic.Common

/-! The submission life cycle: the statuses, the events and the transition table of
`core/state_machine.py`. The database statuses are the enumeration of `db/models/enums.py`. -/

namespace SubmissionsChecker

inductive SubmissionStatus
  | pending | validating | validationFailed | testing | testFailed | awaitingAiReview
  | aiReviewing | aiReviewFailed | awaitingTeacherReview | quizSent | completed | failed
  deriving DecidableEq, Repr

inductive Event
  | startValidation | quizOpened
  | validationPassed | validationFailed
  | testFailed | testPassedTestsOnly | testPassedAi | testPassedTeacher | testPassedQuiz
  | startAiReview
  | aiReviewDoneTeacher | aiReviewDoneCompleted | aiReviewPassedQuiz | aiReviewFailed
  | retryAiReview | aiReviewSkipToTeacher
  | quizPassed | quizPassedTeacher | quizFailed | quizAttemptGranted
  | teacherApprove | teacherReject | teacherSendQuiz
  | disputeRegradePassed | disputeRegradePassedTeacher
  | requeueChecks
  deriving DecidableEq, Repr

namespace SubmissionStatus

/-- The loop under the table: the statuses with a `requeue_checks` exit. -/
def requeueable : SubmissionStatus → Bool
  | validating | testing | awaitingAiReview | aiReviewing | aiReviewFailed
  | validationFailed | testFailed | failed | awaitingTeacherReview => true
  | pending | quizSent | completed => false

/-- `_TRANSITIONS`. -/
def transitions : SubmissionStatus → Event → Option SubmissionStatus
  | pending, .startValidation => some validating
  | pending, .quizOpened => some quizSent
  | validating, .validationPassed => some testing
  | validating, .validationFailed => some validationFailed
  | testing, .testFailed => some testFailed
  | testing, .testPassedTestsOnly => some completed
  | testing, .testPassedAi => some awaitingAiReview
  | testing, .testPassedTeacher => some awaitingTeacherReview
  | testing, .testPassedQuiz => some quizSent
  | awaitingAiReview, .startAiReview => some aiReviewing
  | aiReviewing, .aiReviewDoneTeacher => some awaitingTeacherReview
  | aiReviewing, .aiReviewDoneCompleted => some completed
  | aiReviewing, .aiReviewPassedQuiz => some quizSent
  | aiReviewing, .aiReviewFailed => some aiReviewFailed
  | aiReviewFailed, .retryAiReview => some aiReviewing
  | aiReviewFailed, .aiReviewSkipToTeacher => some awaitingTeacherReview
  | quizSent, .quizPassed => some completed
  | quizSent, .quizPassedTeacher => some awaitingTeacherReview
  | quizSent, .quizFailed => some failed
  | quizSent, .quizAttemptGranted => some quizSent
  | awaitingTeacherReview, .teacherApprove => some completed
  | awaitingTeacherReview, .teacherReject => some failed
  | awaitingTeacherReview, .teacherSendQuiz => some quizSent
  | failed, .disputeRegradePassed => some completed
  | failed, .disputeRegradePassedTeacher => some awaitingTeacherReview
  | failed, .quizAttemptGranted => some quizSent
  | s, .requeueChecks => if s.requeueable then some pending else none
  | _, _ => none

/-- Nothing leaves `COMPLETED`. -/
theorem transitions_completed (e : Event) : transitions completed e = none := by
  cases e <;> rfl

end SubmissionStatus

end SubmissionsChecker
