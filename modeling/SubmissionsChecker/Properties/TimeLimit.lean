import SubmissionsChecker.Invariants.QuizRequests
import SubmissionsChecker.Library.Runs

/-! The limit of the whole attempt marks what comes late: a single page is only `COMPLETED` by a form that came in
time, and a page view or a pause request after the limit ends the attempt with the answers it has. -/

namespace SubmissionsChecker

open Runs

namespace TimedAttempt

end TimedAttempt

open TimedAttempt

section

variable {a₀ a : TimedAttempt} {now : ℚ} {overrides : Finset ℕ} {ops : List ClockedRequest} {r : ClockedRequest} {x : QuizAttempt}
  {status : QuizAttemptStatus}

end

end SubmissionsChecker
