import SubmissionsChecker.Core.Yaml
import SubmissionsChecker.Library.Reorder
import SubmissionsChecker.Routes.StudentQuiz

/-! A question as the config writes it, as an attempt's snapshot stores it and as its answer is graded
(`_build_question_config`, `_snapshot_questions` and `_grade_answer` of `api/routes/student_quiz.py`). A value of
the wrong kind raises, which is `none` here. -/

namespace SubmissionsChecker

/-- The `config` of a snapshot entry. -/
inductive AnswerKey
  | single (options : Yaml) (correct : ℤ)
  | multiple (options : Yaml) (correct : List ℤ)
  | ordering (items : Yaml) (correctOrder : List ℤ)
  | trueFalse (correct : Bool)
  | blank

/-- A snapshot entry, with what it is graded by. -/
structure QuestionEntry where
  id : ℕ
  type : QuestionType
  points : ℤ
  isRequired : Bool
  timeLimitSeconds : Option ℤ
  config : AnswerKey

/-- What a form posts for a question: one field, or the fields of a multiple choice. -/
inductive RawAnswer
  | text (value : String)
  | list (values : List String)

/-- The stored `answer`. -/
inductive AnswerRecord
  | selected (index : Option ℤ)
  | selectedAll (indices : List ℤ)
  | order (indices : List ℤ)
  | value (value : Bool)
  | raw (answer : RawAnswer)

namespace Mapping

/-- A choice is marked as correct. -/
def isCorrect (choice : Mapping) : Bool := (choice.get "is_correct").isTruthy

end Mapping

/-- `int(v)` of every posted value, sorted; none of them when one is no number. -/
def selectedValues (values : List String) : List ℤ := ((values.mapM intOfText).getD []).insertionSort (· ≤ ·)

/-- The numbers between the commas. -/
def postedOrder (text : String) : List ℤ :=
  ((((text.toList.splitOn ',').map PyText.strip).filter (!·.isEmpty)).mapM intOfChars).getD []

/-- `_grade_answer`. Python prints a list with its brackets, which is neither a number nor `true`. -/
def gradeRawAnswer (q : QuestionEntry) (answer : RawAnswer) : AnswerRecord × Option Bool × ℤ :=
  let graded (record : AnswerRecord) (isCorrect : Bool) := (record, some isCorrect, if isCorrect then q.points else 0)
  match q.config with
  | .single _ correct =>
    match answer with
    | .text value =>
      match intOfText value with
      | some selected => graded (.selected selected) (selected == correct)
      | none => (.selected none, some false, 0)
    | .list _ => (.selected none, some false, 0)
  | .multiple _ correct =>
    let values := match answer with
      | .list values => values
      | .text value => if value = "" then [] else [value]
    graded (.selectedAll (selectedValues values)) (selectedValues values == correct.insertionSort (· ≤ ·))
  | .ordering _ correctOrder =>
    let order := match answer with
      | .text value => postedOrder value
      | .list _ => []
    graded (.order order) (order == correctOrder)
  | .trueFalse correct =>
    let value := match answer with
      | .text value => value.toLower == "true"
      | .list _ => false
    graded (.value value) (value == correct)
  | .blank => (.raw answer, some false, 0)

/-- The points of a typed answer: some verdict of `gradeAnswer` stands for every posted answer. -/
theorem gradeRawAnswer_gradeAnswer {q : QuestionEntry} {s : QuestionSnapshot} (hpoints : s.points = q.points)
    (htype : s.type ≠ .unsupported) (answer : RawAnswer) : ∃ isRight,
      (gradeAnswer s isRight).isCorrect = (gradeRawAnswer q answer).2.1 ∧
        (gradeAnswer s isRight).pointsEarned = some (gradeRawAnswer q answer).2.2 := by
  have hverdict : ∀ isRight : Bool, (gradeAnswer s isRight).isCorrect = some isRight ∧
      (gradeAnswer s isRight).pointsEarned = some (if isRight then q.points else 0) := by
    intro isRight
    have hgradable : (s.type != .unsupported) = true := bne_iff_ne.mpr htype
    unfold gradeAnswer
    rw [hgradable, Bool.and_true, hpoints]
    exact ⟨rfl, rfl⟩
  unfold gradeRawAnswer
  dsimp only
  split
  · split
    · split
      · exact ⟨_, hverdict _⟩
      · exact ⟨false, hverdict false⟩
    · exact ⟨false, hverdict false⟩
  · exact ⟨_, hverdict _⟩
  · exact ⟨_, hverdict _⟩
  · exact ⟨_, hverdict _⟩
  · exact ⟨false, hverdict false⟩

end SubmissionsChecker
