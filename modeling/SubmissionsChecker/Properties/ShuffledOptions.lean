import SubmissionsChecker.Routes.QuizOptions

/-! The shuffle of the options is invisible to grading exactly for the questions whose values convert and whose marks
are distinct options of the question, one of them for a single choice. -/

namespace SubmissionsChecker

namespace Mapping

end Mapping

/-- The options in the stored entry. -/
def AnswerKey.options : AnswerKey → Option (List Yaml)
  | single options _ | multiple options _ => options.items
  | _ => none

/-- Where the shuffle shows option `i` of `n`. -/
def Shuffle.place (shuffle : Shuffle) (n i : ℕ) : ℕ := (shuffle.run (List.range n)).idxOf i

def QuestionEntry.verdict (q : QuestionEntry) (isRight : Bool) : Option Bool × ℤ := (some isRight, if isRight then q.points else 0)

section

variable {pyStr : Yaml → String} {quiz q : Mapping} {id n : ℕ} {b : Bool} {shuffle : Shuffle} {e : QuestionEntry}

/-! Reading a question -/

end

end SubmissionsChecker
