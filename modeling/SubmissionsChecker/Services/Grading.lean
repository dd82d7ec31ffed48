import Mathlib.Data.List.Sort
import SubmissionsChecker.Db.Models
import SubmissionsChecker.Library.FloatSum
import SubmissionsChecker.Library.Rounding
import SubmissionsChecker.Library.WeightedMean
import SubmissionsChecker.Services.Squads
import SubmissionsChecker.Services.TeacherScores

/-! `services/grading.py`, the pure part: the blended grade and a squad's quiz percentage. The percentages are those
of an arithmetic: grades are computed from exact ones, and `squad_quiz_pct` is also there as Python's floats have it. -/

namespace SubmissionsChecker

/-- `compute_grade`. -/
def computeGrade (grading : GradingConfig) (minGrade maxGrade : ℤ) (worksPct aiMark quizPct : Option ℚ)
    (roundUp : Bool) : GradeBreakdown :=
  let codeWeight := grading.codeWeight.getD 1
  let quizWeight := grading.quizWeight.getD 0
  let worksWeight := grading.worksWeight.getD 1
  let qualityWeight := grading.qualityWeight.getD 0
  let codeScore := WeightedMean.blend [(worksPct, worksWeight), (aiMark, qualityWeight)]
  let blended := WeightedMean.blend [(codeScore, codeWeight), (quizPct, quizWeight)]
  let normalized := blended.getD 0
  let scaled : ℚ := minGrade + (maxGrade - minGrade) * (normalized / 100)
  let rounded := if roundUp then ⌈Rounding.halfEvenTo 1000000 scaled⌉ else Rounding.halfEven scaled
  { grade := clampGrade minGrade maxGrade rounded
    parts := .inl { worksScore := worksPct, qualityScore := aiMark, quizScore := quizPct,
                    codeWeight, quizWeight, worksWeight, qualityWeight } }

/-- The numbers that a percentage is computed in. -/
structure Arithmetic where
  div : ℚ → ℚ → ℚ
  mul : ℚ → ℚ → ℚ
  sum : List ℚ → ℚ
  /-- `round(x, n)`, with the factor `10 ^ n`. -/
  roundTo : ℤ → ℚ → ℚ

namespace Arithmetic

def exact : Arithmetic where
  div x y := x / y
  mul x y := x * y
  sum := List.sum
  roundTo := Rounding.halfEvenTo

/-- Binary64: every result is rounded, and `sum` keeps the errors of its additions. -/
def floats : Arithmetic where
  div x y := Binary64.round (x / y)
  mul x y := Binary64.round (x * y)
  sum := Binary64.sum
  roundTo scale x := Binary64.round (Rounding.halfEvenTo scale x)

end Arithmetic

/-- `_pct`. -/
def pct (A : Arithmetic) (score maxScore : Option ℚ) : Option ℚ :=
  match score, maxScore with
  | some s, some m => if m ≤ 0 then none else some (A.mul (A.div s m) 100)
  | _, _ => none

def QuizAttempt.pct (A : Arithmetic) (a : QuizAttempt) : Option ℚ :=
  SubmissionsChecker.pct A (a.score.map fun s => (s : ℚ)) (a.maxScore.map fun m => (m : ℚ))

/-- `best[sid] = pct`. -/
def setBest (sid : ℕ) (p : ℚ) : List (ℕ × ℚ) → List (ℕ × ℚ)
  | [] => [(sid, p)]
  | (t, q) :: rest => if t = sid then (sid, p) :: rest else (t, q) :: setBest sid p rest

/-- One turn of the loop of `squad_quiz_pct`. -/
def bestStep (A : Arithmetic) (best : List (ℕ × ℚ)) (a : QuizAttempt) : List (ℕ × ℚ) :=
  match a.passed, a.studentId, a.pct A with
  | true, some sid, some p => if (best.lookup sid).getD (-1) < p then setBest sid p best else best
  | _, _, _ => best

def squadBest (A : Arithmetic) (attempts : List QuizAttempt) : List (ℕ × ℚ) := attempts.foldl (bestStep A) []

/-- `squad_quiz_pct`: the mean over the members of their best passed attempt. -/
def squadQuizPct (A : Arithmetic) (attempts : List QuizAttempt) : Option ℚ × List (ℕ × ℚ) :=
  let best := squadBest A attempts
  if best = [] then (none, [])
  else (some (A.div (A.sum (best.map Prod.snd)) best.length),
    (best.insertionSort fun a b => a.1 ≤ b.1).map fun m => (m.1, A.roundTo 100 m.2))

/-- `Submission.quiz_attempts`, ordered by `started_at`. -/
def Db.quizAttemptsOf (db : Db) (submissionId : ℕ) : List QuizAttempt :=
  (db.quizAttempts.filter (·.submissionId == submissionId)).insertionSort fun a b =>
    a.startedAt ≤ b.startedAt

/-- `next((a for a in sub.quiz_attempts if a.is_passed), None)` and its percentage. -/
def firstPassedPct (attempts : List QuizAttempt) : Option ℚ :=
  (attempts.find? (·.passed)).bind (QuizAttempt.pct .exact)

/-! ## The grade of a submission

`finalize_grade`: the grade of a completed submission, written to the rows it covers. -/

namespace Db

/-- The breakdown `finalize_grade` computes, in exact rationals: `none` when a half of a scored grade is missing. -/
def gradeOf (asg : SubjectsAssignment) (sa : StudentAssignment) (sub : Submission)
    (attempts : List QuizAttempt) (isSquad : Bool) : Option GradeBreakdown :=
  let worksPct := pct .exact (sub.testResults.bind TestResults.score) (sub.testResults.bind TestResults.maxScore)
  let aiMark := sub.aiReview.bind (·.codeMark)
  let quizPct := if isSquad then (squadQuizPct .exact attempts).1 else firstPassedPct attempts
  if asg.config.isScoredMode then
    match quizPct with
    | none => none
    | some p =>
      if isComplete asg.config.grading.teacherCriteria sa.teacherScores then
        some (computeScored asg.config.grading asg.minGrade asg.maxGrade p (sa.teacherScores.getD []) isSquad)
      else none
  else some (computeGrade asg.config.grading asg.minGrade asg.maxGrade worksPct aiMark quizPct isSquad)

/-- `row.grade = grade` for every target row. -/
def writeGrades (db : Db) (grade : ℤ) (saIds : List ℕ) : Db :=
  saIds.foldl (fun db saId => db.setStudentAssignment saId ({ · with grade := some grade })) db

/-- `target_sa_ids`: the submission's own row, or every member's. -/
def gradeTargets (db : Db) (i saId asgId : ℕ) : Db × List ℕ :=
  match db.squadForSubmission i with
  | none => (db, [saId])
  | some squad => db.memberSaIds squad.members asgId

/-- `finalize_grade`. -/
def finalizeGrade (db : Db) (i : ℕ) : Db :=
  match db.submissions[i]? with
  | none => db
  | some sub =>
    match db.studentsAssignments[sub.studentsAssignmentId]? with
    | none => db
    | some sa =>
      match db.subjectsAssignments[sa.subjectsAssignmentId]? with
      | none => db
      | some asg =>
        let attempts := db.quizAttemptsOf i
        match gradeOf asg sa sub attempts (db.squadForSubmission i).isSome with
        | none => db
        | some breakdown =>
          let targets := db.gradeTargets i sub.studentsAssignmentId sa.subjectsAssignmentId
          let squadParts := (db.squadForSubmission i).map fun _ =>
            { squadId := sub.squadId.getD 0, members := (squadQuizPct .exact attempts).2 : SquadParts }
          (targets.1.writeGrades breakdown.grade targets.2).setSubmission i
            ({ · with gradeBreakdown := some { breakdown with squad := squadParts } })

end Db

end SubmissionsChecker
