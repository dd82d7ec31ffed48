import SubmissionsChecker.Db.Models
import SubmissionsChecker.Library.Rounding

/-! `services/teacher_scores.py`: the grade rules of `quiz_and_teacher_scores`. -/

namespace SubmissionsChecker

/-- `is_scored_mode`. -/
def AssignmentConfig.isScoredMode (config : AssignmentConfig) : Bool :=
  config.reviewMode == some .quizAndTeacherScores

/-- `is_complete`: every required criterion has a value. -/
def isComplete (crits : List Criterion) (scores : Option TeacherScores) : Bool :=
  crits.all fun c => c.isOptional || ((scores.getD []).lookup c.key).isSome

/-- `parse_form` after `int()`: an empty field is left out, a value above the maximum refused. -/
def parseForm (crits : List Criterion) (form : String → Option ℕ) : Except Raised TeacherScores :=
  crits.foldlM (fun out c =>
    match form c.key with
    | none => .ok out
    | some value =>
      if (value : ℤ) > c.max then
        .error (.http 422 s!"{c.title}: {value} is above the maximum {c.max}")
      else .ok (out ++ [(c.key, (value : ℤ))])) []

/-- `quiz_points_for`: half up, squads round up. -/
def quizPointsFor (grading : GradingConfig) (quizPct : ℚ) (roundUp : Bool) : ℤ :=
  let raw := Rounding.halfEvenTo 1000000 (quizPct / 100 * (grading.quizPoints.getD 0 : ℤ))
  if roundUp then ⌈raw⌉ else Rounding.halfUp raw

def clampGrade (minGrade maxGrade grade : ℤ) : ℤ := max minGrade (min maxGrade grade)

/-- `compute`. -/
def computeScored (grading : GradingConfig) (minGrade maxGrade : ℤ) (quizPct : ℚ)
    (scores : TeacherScores) (roundUp : Bool) : GradeBreakdown :=
  let quizAwarded := quizPointsFor grading quizPct roundUp
  let rows := grading.teacherCriteria.map fun c =>
    { key := c.key, title := c.title, points := (scores.lookup c.key).getD 0, max := c.max : CriterionRow }
  let total := minGrade + quizAwarded + (rows.map (·.points)).sum
  { grade := clampGrade minGrade maxGrade total
    parts := .inr { quizPct, quizPoints := quizAwarded, quizMax := grading.quizPoints.getD 0, criteria := rows } }

theorem clampGrade_mono {lo hi a b : ℤ} (h : a ≤ b) : clampGrade lo hi a ≤ clampGrade lo hi b :=
  max_le_max le_rfl (min_le_min le_rfl h)

/-- More of the quiz is never fewer points. -/
theorem quizPointsFor_mono {grading : GradingConfig} (h0 : 0 ≤ grading.quizPoints.getD 0)
    {p q : ℚ} (h : p ≤ q) (roundUp : Bool) :
    quizPointsFor grading p roundUp ≤ quizPointsFor grading q roundUp := by
  have hraw : p / 100 * (grading.quizPoints.getD 0 : ℤ) ≤ q / 100 * (grading.quizPoints.getD 0 : ℤ) :=
    mul_le_mul_of_nonneg_right (by linarith) (by exact_mod_cast h0)
  have hround := Rounding.halfEvenTo_mono (show (0 : ℤ) < 1000000 by norm_num) hraw
  cases roundUp with
  | true => exact Int.ceil_mono hround
  | false => exact Rounding.halfUp_mono hround

/-- The whole quiz gives all its points. -/
theorem quizPointsFor_full {grading : GradingConfig} (h0 : 0 ≤ grading.quizPoints.getD 0) (roundUp : Bool) :
    quizPointsFor grading 100 roundUp = grading.quizPoints.getD 0 := by
  obtain ⟨n, hn⟩ := Int.eq_ofNat_of_zero_le h0
  unfold quizPointsFor
  rw [hn, div_self (by norm_num), one_mul, Rounding.halfEvenTo_intCast (by norm_num)]
  cases roundUp with
  | true => exact Int.ceil_intCast _
  | false => exact Rounding.halfUp_natCast n

theorem quizPointsFor_zero (grading : GradingConfig) (roundUp : Bool) : quizPointsFor grading 0 roundUp = 0 := by
  have hzero : Rounding.halfEvenTo 1000000 (0 : ℚ) = 0 := by
    simpa using Rounding.halfEvenTo_intCast (K := ℚ) (show (0 : ℤ) < 1000000 by norm_num) 0
  unfold quizPointsFor
  rw [zero_div, zero_mul, hzero]
  cases roundUp with
  | true => exact Int.ceil_zero
  | false => simpa using Rounding.halfUp_natCast (K := ℚ) 0

/-- A percentage gives some of the points, at most all. -/
theorem quizPointsFor_mem {grading : GradingConfig} (h0 : 0 ≤ grading.quizPoints.getD 0) {p : ℚ} (hp : 0 ≤ p)
    (hp' : p ≤ 100) (roundUp : Bool) :
    0 ≤ quizPointsFor grading p roundUp ∧ quizPointsFor grading p roundUp ≤ grading.quizPoints.getD 0 := by
  constructor
  · rw [← quizPointsFor_zero grading roundUp]
    exact quizPointsFor_mono h0 hp roundUp
  · rw [← quizPointsFor_full h0 roundUp]
    exact quizPointsFor_mono h0 hp' roundUp

end SubmissionsChecker
