import SubmissionsChecker.Services.Grading
import Mathlib.Data.Int.ConditionallyCompleteOrder

/-! The blended grade, for either way of rounding up: the code's, to six digits first, and the plain ceiling. -/

namespace SubmissionsChecker

namespace GradingConfig

/-- The code and the quiz weight, times `c`. -/
def scaleHalves (grading : GradingConfig) (c : ℚ) : GradingConfig :=
  { grading with codeWeight := some (c * grading.codeWeight.getD 1), quizWeight := some (c * grading.quizWeight.getD 0) }

/-- The works and the quality weight, times `c`. -/
def scaleCode (grading : GradingConfig) (c : ℚ) : GradingConfig :=
  { grading with worksWeight := some (c * grading.worksWeight.getD 1), qualityWeight := some (c * grading.qualityWeight.getD 0) }

/-- The parts of the code score. -/
def codeParts (grading : GradingConfig) (worksPct aiMark : Option ℚ) : List (Option ℚ × ℚ) :=
  [(worksPct, grading.worksWeight.getD 1), (aiMark, grading.qualityWeight.getD 0)]

def halves (grading : GradingConfig) (worksPct aiMark quizPct : Option ℚ) : List (Option ℚ × ℚ) :=
  [(WeightedMean.blend (grading.codeParts worksPct aiMark), grading.codeWeight.getD 1), (quizPct, grading.quizWeight.getD 0)]

/-- The mean of everything, 0 without any component. -/
def blended (grading : GradingConfig) (worksPct aiMark quizPct : Option ℚ) : ℚ :=
  (WeightedMean.blend (grading.halves worksPct aiMark quizPct)).getD 0

/-- The components that are present with a positive weight. -/
def counted (grading : GradingConfig) (worksPct aiMark quizPct : Option ℚ) : List ℚ :=
  (if 0 < grading.codeWeight.getD 1 then (WeightedMean.present (grading.codeParts worksPct aiMark)).map Prod.fst else []) ++
    (WeightedMean.present [(quizPct, grading.quizWeight.getD 0)]).map Prod.fst

end GradingConfig

/-- A percentage in the grade band, rounded. -/
def bandGrade (rounding : ℚ → ℤ) (minGrade maxGrade : ℤ) (pct : ℚ) : ℤ :=
  clampGrade minGrade maxGrade (rounding (minGrade + (maxGrade - minGrade) * (pct / 100)))

/-- The grade with the ceiling of the exact value. -/
def ceilGrade (grading : GradingConfig) (minGrade maxGrade : ℤ) (worksPct aiMark quizPct : Option ℚ) (roundUp : Bool) : ℤ :=
  bandGrade (if roundUp then Int.ceil else Rounding.halfEven) minGrade maxGrade (grading.blended worksPct aiMark quizPct)

structure SaneGrade (grade : GradingConfig → ℤ → ℤ → Option ℚ → Option ℚ → Option ℚ → Bool → ℤ) : Prop where
  inBand : ∀ g lo hi works ai quiz up, lo ≤ hi → lo ≤ grade g lo hi works ai quiz up ∧ grade g lo hi works ai quiz up ≤ hi
  mono : ∀ g lo hi works works' ai ai' quiz quiz' up, lo ≤ hi → Option.Rel (· ≤ ·) works works' →
    Option.Rel (· ≤ ·) ai ai' → Option.Rel (· ≤ ·) quiz quiz' →
      grade g lo hi works ai quiz up ≤ grade g lo hi works' ai' quiz' up
  halvesScale : ∀ g lo hi works ai quiz up c, 0 < c →
    grade (g.scaleHalves c) lo hi works ai quiz up = grade g lo hi works ai quiz up
  codeScale : ∀ g lo hi works ai quiz up c, 0 < c →
    grade (g.scaleCode c) lo hi works ai quiz up = grade g lo hi works ai quiz up
  noCode : ∀ g lo hi works ai quiz up, g.codeWeight.getD 1 = 0 →
    grade g lo hi works ai quiz up = grade g lo hi none none quiz up
  noQuiz : ∀ g lo hi works ai quiz up, g.quizWeight.getD 0 = 0 →
    grade g lo hi works ai quiz up = grade g lo hi works ai none up
  noWorks : ∀ g lo hi works ai quiz up, g.worksWeight.getD 1 = 0 →
    grade g lo hi works ai quiz up = grade g lo hi none ai quiz up
  noQuality : ∀ g lo hi works ai quiz up, g.qualityWeight.getD 0 = 0 →
    grade g lo hi works ai quiz up = grade g lo hi works none quiz up
  alone : ∀ g lo hi works ai quiz up p, g.counted works ai quiz ≠ [] → (∀ v ∈ g.counted works ai quiz, v = p) →
    grade g lo hi works ai quiz up = grade {} lo hi (some p) none none up
  roundedUp : ∀ g lo hi works ai quiz, grade g lo hi works ai quiz false ≤ grade g lo hi works ai quiz true

section

open WeightedMean

variable {grading : GradingConfig} {works works' ai ai' quiz quiz' : Option ℚ} {lo hi : ℤ} {c p : ℚ}

/-! The mean -/

theorem blended_mono (hworks : Option.Rel (· ≤ ·) works works') (hai : Option.Rel (· ≤ ·) ai ai')
    (hquiz : Option.Rel (· ≤ ·) quiz quiz') : grading.blended works ai quiz ≤ grading.blended works' ai' quiz' := by
  have hcode : Option.Rel (· ≤ ·) (blend (grading.codeParts works ai)) (blend (grading.codeParts works' ai')) :=
    blend_rel (.cons (below_of_rel hworks _) (.cons (below_of_rel hai _) .nil))
  have hall : Option.Rel (· ≤ ·) (blend (grading.halves works ai quiz)) (blend (grading.halves works' ai' quiz')) :=
    blend_rel (.cons (below_of_rel hcode _) (.cons (below_of_rel hquiz _) .nil))
  unfold GradingConfig.blended
  generalize blend (grading.halves works ai quiz) = v at hall
  generalize blend (grading.halves works' ai' quiz') = v' at hall
  cases hall with
  | some hle => exact hle
  | none => exact le_rfl

theorem blended_scaleHalves (hc : 0 < c) : (grading.scaleHalves c).blended works ai quiz = grading.blended works ai quiz :=
  congrArg (·.getD 0) (blend_scale hc (grading.halves works ai quiz))

theorem blended_scaleCode (hc : 0 < c) : (grading.scaleCode c).blended works ai quiz = grading.blended works ai quiz := by
  have hcode : blend ((grading.scaleCode c).codeParts works ai) = blend (grading.codeParts works ai) :=
    blend_scale hc (grading.codeParts works ai)
  unfold GradingConfig.blended GradingConfig.halves
  rw [hcode]
  rfl

/-- A weight of zero drops the component. -/
theorem present_weightless {w : ℚ} (hw : w = 0) (v : Option ℚ) (pairs : List (Option ℚ × ℚ)) :
    present ((v, w) :: pairs) = present ((none, w) :: pairs) := by
  rw [present_cons_of_not_pos hw.not_gt, present_cons_none]

theorem blended_noCode (h : grading.codeWeight.getD 1 = 0) : grading.blended works ai quiz = grading.blended none none quiz := by
  have hsame : blend (grading.halves works ai quiz) = blend (grading.halves none none quiz) := by
    refine blend_congr ?_
    unfold GradingConfig.halves
    rw [present_cons_of_not_pos h.not_gt, present_cons_of_not_pos h.not_gt]
  exact congrArg (·.getD 0) hsame

theorem blended_noQuiz (h : grading.quizWeight.getD 0 = 0) : grading.blended works ai quiz = grading.blended works ai none := by
  have hsame : blend (grading.halves works ai quiz) = blend (grading.halves works ai none) :=
    blend_congr (present_cons_congr _ (present_weightless h quiz []))
  exact congrArg (·.getD 0) hsame

/-- Only the blend of the code parts counts. -/
theorem blended_of_code (h : present (grading.codeParts works ai) = present (grading.codeParts works' ai')) :
    grading.blended works ai quiz = grading.blended works' ai' quiz := by
  unfold GradingConfig.blended GradingConfig.halves
  rw [blend_congr h]

theorem blended_of_present (hne : present (grading.halves works ai quiz) ≠ [])
    (h : ∀ r ∈ present (grading.halves works ai quiz), r.1 = p) : grading.blended works ai quiz = p := by
  unfold GradingConfig.blended
  rw [blend_const hne h, Option.getD_some]

/-- Components that all agree make their own mean. -/
theorem blended_alone (hsome : grading.counted works ai quiz ≠ []) (h : ∀ v ∈ grading.counted works ai quiz, v = p) :
    grading.blended works ai quiz = p := by
  have hparts : ∀ r ∈ present (grading.codeParts works ai), 0 < grading.codeWeight.getD 1 → r.1 = p := by
    intro r hr hpos
    refine h _ (List.mem_append_left _ ?_)
    rw [if_pos hpos]
    exact List.mem_map_of_mem hr
  have hquiz : ∀ r ∈ present [(quiz, grading.quizWeight.getD 0)], r.1 = p :=
    fun r hr => h _ (List.mem_append_right _ (List.mem_map_of_mem hr))
  by_cases hcode : 0 < grading.codeWeight.getD 1 ∧ present (grading.codeParts works ai) ≠ []
  · have hscore : blend (grading.codeParts works ai) = some p := blend_const hcode.2 fun r hr => hparts r hr hcode.1
    have hall : present (grading.halves works ai quiz) =
        (p, grading.codeWeight.getD 1) :: present [(quiz, grading.quizWeight.getD 0)] := by
      unfold GradingConfig.halves
      rw [hscore, present_cons_of_pos hcode.1]
    refine blended_of_present (by rw [hall]; exact List.cons_ne_nil _ _) fun r hr => ?_
    rw [hall] at hr
    rcases List.mem_cons.mp hr with rfl | hr
    · rfl
    · exact hquiz r hr
  · -- the code drops out, so the quiz is there
    have hall : present (grading.halves works ai quiz) = present [(quiz, grading.quizWeight.getD 0)] := by
      unfold GradingConfig.halves
      by_cases hpos : 0 < grading.codeWeight.getD 1
      · rw [blend_of_absent (not_not.mp fun hne => hcode ⟨hpos, hne⟩), present_cons_none]
      · rw [present_cons_of_not_pos hpos]
    have hnone : (if 0 < grading.codeWeight.getD 1 then (present (grading.codeParts works ai)).map Prod.fst else []) = [] := by
      split_ifs with hpos
      · rw [not_not.mp fun hne => hcode ⟨hpos, hne⟩, List.map_nil]
      · rfl
    have hthere : present [(quiz, grading.quizWeight.getD 0)] ≠ [] := by
      intro hnil
      refine hsome ?_
      unfold GradingConfig.counted
      rw [hnone, hnil]
      rfl
    refine blended_of_present (by rw [hall]; exact hthere) fun r hr => ?_
    rw [hall] at hr
    exact hquiz r hr

theorem blended_single : ({} : GradingConfig).blended (some p) none none = p := by
  refine blended_alone ?_ ?_
  · simp [GradingConfig.counted, GradingConfig.codeParts, present]
  · simp [GradingConfig.counted, GradingConfig.codeParts, present]

/-! The grade -/

theorem scaled_mono (h : lo ≤ hi) {x y : ℚ} (hxy : x ≤ y) :
    (lo : ℚ) + (hi - lo) * (x / 100) ≤ lo + (hi - lo) * (y / 100) := by
  have hband : (0 : ℚ) ≤ hi - lo := sub_nonneg.mpr (Int.cast_le.mpr h)
  gcongr

theorem clampGrade_mem (h : lo ≤ hi) (g : ℤ) : lo ≤ clampGrade lo hi g ∧ clampGrade lo hi g ≤ hi :=
  ⟨le_max_left _ _, max_le h (min_le_left _ _)⟩

theorem sane_of_rounding {near up : ℚ → ℤ} (hnear : Monotone near) (hup : Monotone up) (hle : ∀ x, near x ≤ up x) :
    SaneGrade fun g lo hi works ai quiz roundUp =>
      bandGrade (if roundUp then up else near) lo hi (g.blended works ai quiz) where
  inBand g lo hi works ai quiz roundUp h := clampGrade_mem h _
  mono g lo hi works works' ai ai' quiz quiz' roundUp h hworks hai hquiz := by
    have hblended : g.blended works ai quiz ≤ g.blended works' ai' quiz' := blended_mono hworks hai hquiz
    have hscaled := scaled_mono h hblended
    refine clampGrade_mono ?_
    cases roundUp with
    | true => exact hup hscaled
    | false => exact hnear hscaled
  halvesScale g lo hi works ai quiz roundUp c hc := by rw [blended_scaleHalves hc]
  codeScale g lo hi works ai quiz roundUp c hc := by rw [blended_scaleCode hc]
  noCode g lo hi works ai quiz roundUp h := by rw [blended_noCode h]
  noQuiz g lo hi works ai quiz roundUp h := by rw [blended_noQuiz h]
  noWorks g lo hi works ai quiz roundUp h := by
    rw [blended_of_code (present_weightless h works _)]
  noQuality g lo hi works ai quiz roundUp h := by
    rw [blended_of_code (present_cons_congr _ (present_weightless h ai []))]
  alone g lo hi works ai quiz roundUp p hsome h := by rw [blended_alone hsome h, blended_single]
  roundedUp g lo hi works ai quiz := clampGrade_mono (hle _)

theorem computeGrade_grade (grading : GradingConfig) (lo hi : ℤ) (works ai quiz : Option ℚ) (roundUp : Bool) :
    (computeGrade grading lo hi works ai quiz roundUp).grade =
      bandGrade (if roundUp then fun x => ⌈Rounding.halfEvenTo 1000000 x⌉ else Rounding.halfEven) lo hi
        (grading.blended works ai quiz) := by
  cases roundUp <;> rfl

theorem computeGrade_sane : SaneGrade (fun g lo hi works ai quiz up => (computeGrade g lo hi works ai quiz up).grade) ∧
    SaneGrade ceilGrade := by
  have hnear : Monotone (Rounding.halfEven : ℚ → ℤ) := fun _ _ => Rounding.halfEven_mono
  constructor
  · simp only [computeGrade_grade]
    refine sane_of_rounding hnear (fun x y hxy => ?_) fun x => ?_
    · exact Int.ceil_mono (Rounding.halfEvenTo_mono (by norm_num) hxy)
    · exact Rounding.halfEven_le_ceil_halfEvenTo (h := 500000) (by norm_num) x
  · exact sane_of_rounding hnear Int.ceil_mono Rounding.halfEven_le_ceil

end

end SubmissionsChecker
