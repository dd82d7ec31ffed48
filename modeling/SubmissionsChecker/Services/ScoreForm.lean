import SubmissionsChecker.Services.TeacherScores
import SubmissionsChecker.Library.Assoc
import SubmissionsChecker.Library.PyText

/-! `services/teacher_scores.py`: `parse_form` on the fields as they were typed. A field can be refused in two ways:
by a `ScoreError`, which the route answers, and by a conversion that raises past it. -/

namespace SubmissionsChecker

/-- What `parse_form` can raise: a `ScoreError`, or a `ValueError` that is none. -/
inductive FormError
  | score (message : String)
  | value
  deriving DecidableEq, Repr

/-- The field of a criterion, stripped; a missing one is empty. -/
def scoreField (form : String → Option String) (c : Criterion) : List Char :=
  PyText.strip ((form s!"score_{c.key}").getD "").toList

/-- A turn of the loop: the points of one criterion, if they were entered. -/
def readScore (form : String → Option String) (c : Criterion) : Except FormError (Option ℕ) :=
  let raw := scoreField form c
  if raw = [] then .ok none
  else if PyText.isdigit raw then
    match PyText.int raw with
    | none => .error .value
    | some value =>
      if (value : ℤ) > c.max then
        match PyText.str c.max with
        | none => .error .value
        | some maximum => .error (.score s!"{c.title}: {value} is above the maximum {maximum}")
      else .ok (some value)
  else
    let text := String.ofList raw
    .error (.score s!"{c.title}: '{text}' is not a whole number")

def enterScore (form : String → Option String) (out : TeacherScores) (c : Criterion) : Except FormError TeacherScores :=
  (readScore form c).map fun
    | none => out
    | some value => Assoc.put c.key (value : ℤ) out

/-- `parse_form`. -/
def readForm (crits : List Criterion) (form : String → Option String) : Except FormError TeacherScores :=
  crits.foldlM (enterScore form) []

section

variable {form : String → Option String} {c : Criterion} {crits : List Criterion} {out out' : TeacherScores} {value : ℕ}

/-- The field is empty, or a number up to the criterion's maximum. -/
def Accepted (form : String → Option String) (c : Criterion) : Prop :=
  scoreField form c = [] ∨ ∃ value : ℕ, PyText.int (scoreField form c) = some value ∧ (value : ℤ) ≤ c.max

/-- The digit test lets the field pass and a conversion refuses it: `int()` a digit that is not decimal or too many
digits, or `str()` the maximum that the number is above. -/
def Refused (form : String → Option String) (c : Criterion) : Prop :=
  PyText.isdigit (scoreField form c) = true ∧
    ((∃ d ∈ scoreField form c, PyText.isDecimal d = false) ∨ PyText.maxStrDigits < (scoreField form c).length ∨
      c.max ≤ -10 ^ PyText.maxStrDigits)

theorem readScore_none : readScore form c = .ok none ↔ scoreField form c = [] := by
  unfold readScore
  dsimp only
  split_ifs with hblank hdigit
  · simp [hblank]
  · rcases PyText.int (scoreField form c) with _ | value
    · simp [hblank]
    · dsimp only
      split_ifs with hmax
      · rcases PyText.str c.max with _ | m <;> simp [hblank]
      · simp [hblank]
  · simp [hblank]

theorem readScore_some : readScore form c = .ok (some value) ↔
    PyText.int (scoreField form c) = some value ∧ (value : ℤ) ≤ c.max := by
  unfold readScore
  dsimp only
  split_ifs with hblank hdigit
  · simp [hblank, PyText.int]
  · rcases PyText.int (scoreField form c) with _ | v
    · simp
    · dsimp only
      split_ifs with hmax
      · have hnot : ∀ m : ℕ, (m : ℤ) = v → ¬ (m : ℤ) ≤ c.max := by omega
        rcases PyText.str c.max with _ | m
        · simp only [reduceCtorEq, Option.some.injEq, false_iff, not_and]
          rintro rfl
          exact hnot v rfl
        · simp only [reduceCtorEq, Option.some.injEq, false_iff, not_and]
          rintro rfl
          exact hnot v rfl
      · simp only [Except.ok.injEq, Option.some.injEq]
        constructor
        · rintro rfl
          exact ⟨rfl, not_lt.mp hmax⟩
        · exact fun h => h.1
  · simp only [false_iff, not_and]
    intro hint
    exact absurd (PyText.isdigit_of_int (by rw [hint]; rfl)) hdigit

theorem accepted_iff : Accepted form c ↔ ∃ o, readScore form c = .ok o := by
  constructor
  · rintro (hblank | ⟨value, hvalue⟩)
    · exact ⟨none, readScore_none.mpr hblank⟩
    · exact ⟨some value, readScore_some.mpr hvalue⟩
  · rintro ⟨_ | value, h⟩
    · exact .inl (readScore_none.mp h)
    · exact .inr ⟨value, readScore_some.mp h⟩

theorem readScore_value : readScore form c = .error .value ↔ Refused form c := by
  unfold readScore Refused
  dsimp only
  split_ifs with hblank hdigit
  · simp [hblank, PyText.isdigit]
  · obtain ⟨hne, -⟩ := PyText.isdigit_iff.mp hdigit
    cases hint : PyText.int (scoreField form c) with
    | none =>
      have hno : ¬ (PyText.int (scoreField form c)).isSome = true := by rw [hint]; exact Bool.false_ne_true
      rw [PyText.int_isSome, not_and, not_and_or] at hno
      refine ⟨fun _ => ⟨hdigit, ?_⟩, fun _ => rfl⟩
      rcases hno hne with hlen | hdec
      · exact .inr (.inl (not_le.mp hlen))
      · push Not at hdec
        obtain ⟨d, hd, hnot⟩ := hdec
        exact .inl ⟨d, hd, Bool.eq_false_of_not_eq_true hnot⟩
    | some value =>
      obtain ⟨-, hlen, hdec⟩ := PyText.int_isSome.mp (by rw [hint]; rfl)
      have hlt := PyText.int_lt hint
      have hmax : (∃ d ∈ scoreField form c, PyText.isDecimal d = false) ∨
          PyText.maxStrDigits < (scoreField form c).length ∨ c.max ≤ -10 ^ PyText.maxStrDigits ↔
          c.max ≤ -10 ^ PyText.maxStrDigits := by
        constructor
        · rintro (⟨d, hd, hno⟩ | hlong | hmax)
          · rw [hdec d hd] at hno
            cases hno
          · omega
          · exact hmax
        · exact fun h => .inr (.inr h)
      rw [hmax]
      have hcast : ((10 ^ PyText.maxStrDigits : ℕ) : ℤ) = 10 ^ PyText.maxStrDigits := by
        rw [Nat.cast_pow]
        rfl
      generalize (10 : ℤ) ^ PyText.maxStrDigits = limit at hcast ⊢
      unfold PyText.str
      generalize 10 ^ PyText.maxStrDigits = bound at hlt hcast ⊢
      dsimp only
      split_ifs with habove hbound
      · refine ⟨fun _ => ⟨hdigit, ?_⟩, fun _ => rfl⟩
        omega
      · simp only [Except.error.injEq, reduceCtorEq, false_iff, not_and]
        omega
      · simp only [false_iff, not_and]
        omega
  · simp [hdigit]

end

end SubmissionsChecker
