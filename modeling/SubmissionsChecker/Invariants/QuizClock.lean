import Mathlib.Logic.Relation
import SubmissionsChecker.Library.Settle
import SubmissionsChecker.Routes.QuizClock

/-! The steps of the clocks. `_advance_expired` takes the turns that are due, and whatever a route does to the clocks
is a sequence of single steps: a question burned, an answer, a penalty, a pause or its end. -/

namespace SubmissionsChecker

namespace TimedAttempt

/-- The turn of the loop that is due, if one is. -/
def expiryTurn (now : ℚ) (a : TimedAttempt) : Option TimedAttempt :=
  match a.attempt.currentQuestion with
  | none => none
  | some q =>
    match limitOf q, a.questionStartedAt with
    | some limit, some start => if now - start ≤ limit + questionGraceSeconds then none else some (a.expire q start limit)
    | _, _ => none

/-- The questions that are left. -/
def questionsLeft (a : TimedAttempt) : ℕ := a.attempt.questionsSnapshot.length - a.attempt.currentIndex

/-- The answer to the question `q`, with the next window opened. -/
def answered (a : TimedAttempt) (q : QuestionSnapshot) (isRight : Bool) (now : ℚ) : TimedAttempt :=
  { a with
    attempt := { a.attempt with
      answers := a.attempt.answers ++ [gradeAnswer q isRight], currentIndex := a.attempt.currentIndex + 1 }
    questionStartedAt := some now }

/-- What page views and answers do to the clocks, one step at a time. -/
inductive Visit (now : ℚ) (a : TimedAttempt) : TimedAttempt → Prop
  | expire {a' : TimedAttempt} (h : expiryTurn now a = some a') : Visit now a a'
  | anchor (h : a.questionStartedAt = none) : Visit now a { a with questionStartedAt := some now }
  | answer {q : QuestionSnapshot} (isRight : Bool) (h : a.attempt.currentQuestion = some q) : Visit now a (a.answered q isRight now)

end TimedAttempt

open TimedAttempt

section

variable {a a' : TimedAttempt} {q : QuestionSnapshot} {now t : ℚ} {k limit : ℕ} {start : ℚ}

/-! Turns -/

theorem expiryTurn_eq_some : expiryTurn now a = some a' ↔ ∃ q limit start, a.attempt.currentQuestion = some q ∧
    limitOf q = some limit ∧ a.questionStartedAt = some start ∧ limit + questionGraceSeconds < now - start ∧
      a' = a.expire q start limit := by
  unfold expiryTurn
  constructor
  · intro h
    split at h
    · cases h
    · rename_i q hq
      split at h
      · rename_i limit start hlimit hstart
        split_ifs at h with hlate
        exact ⟨q, limit, start, hq, hlimit, hstart, not_le.mp hlate, (Option.some.inj h).symm⟩
      · cases h
  · rintro ⟨q, limit, start, hq, hlimit, hstart, hlate, rfl⟩
    simp only [hq, hlimit, hstart]
    rw [if_neg (not_le.mpr hlate)]

theorem index_lt_of_currentQuestion (h : a.attempt.currentQuestion = some q) :
    a.attempt.currentIndex < a.attempt.questionsSnapshot.length := (List.getElem?_eq_some_iff.mp h).1

theorem expiry_turns : Settle.Turns expiryTurn questionsLeft where
  later t t' a a' ht h := by
    obtain ⟨q, limit, start, hq, hlimit, hstart, hlate, rfl⟩ := expiryTurn_eq_some.mp h
    exact expiryTurn_eq_some.mpr ⟨q, limit, start, hq, hlimit, hstart, by linarith, rfl⟩
  nearer t a a' h := by
    obtain ⟨q, limit, start, hq, -, -, -, rfl⟩ := expiryTurn_eq_some.mp h
    have hlt := index_lt_of_currentQuestion hq
    change a.attempt.questionsSnapshot.length - (a.attempt.currentIndex + 1) < a.attempt.questionsSnapshot.length - a.attempt.currentIndex
    omega

/-- The loop takes the turn that is due and goes on. -/
theorem burnExpired_of_turn (h : expiryTurn now a = some a') :
    burnExpired now (k + 1) a = ((burnExpired now k a').1, (burnExpired now k a').2 + 1) := by
  obtain ⟨q, limit, start, hq, hlimit, hstart, hlate, rfl⟩ := expiryTurn_eq_some.mp h
  simp only [burnExpired, hq, hlimit, hstart]
  rw [if_neg (not_le.mpr hlate)]

/-- With nothing due it stops, and opens the window of a limited question that has none. -/
theorem burnExpired_of_none (h : expiryTurn now a = none) :
    (burnExpired now k a).2 = 0 ∧ ((burnExpired now k a).1 = a ∨
      a.questionStartedAt = none ∧ (burnExpired now k a).1 = { a with questionStartedAt := some now }) := by
  cases k with
  | zero => exact ⟨rfl, .inl rfl⟩
  | succ k =>
    unfold expiryTurn at h
    unfold burnExpired
    split
    · exact ⟨rfl, .inl rfl⟩
    · rename_i q hq
      simp only [hq] at h
      split
      · exact ⟨rfl, .inl rfl⟩
      · rename_i limit hlimit
        split
        · rename_i hstart
          exact ⟨rfl, .inr ⟨hstart, rfl⟩⟩
        · rename_i start hstart
          simp only [hlimit, hstart] at h
          split_ifs at h with hlate
          rw [if_pos hlate]
          exact ⟨rfl, .inl rfl⟩

theorem burnExpired_anchored (hstart : a.questionStartedAt.isSome = true) :
    (burnExpired now k a).1 = Settle.upTo expiryTurn now k a := by
  induction k generalizing a with
  | zero => rfl
  | succ k ih =>
    rcases hturn : expiryTurn now a with _ | a'
    · rcases burnExpired_of_none (k := k + 1) hturn with ⟨-, hsame | ⟨hnone, -⟩⟩
      · simp only [Settle.upTo, hturn]
        exact hsame
      · rw [hnone] at hstart
        cases hstart
    · rw [burnExpired_of_turn hturn]
      simp only [Settle.upTo, hturn]
      obtain ⟨q, limit, start, -, -, -, -, rfl⟩ := expiryTurn_eq_some.mp hturn
      exact ih rfl

theorem effectiveNow_running (h : a.pausedAt = none) : a.effectiveNow now = now := by
  unfold effectiveNow openPauseSeconds
  rw [h]
  exact sub_zero now

theorem advanceExpired_paused (h : a.pausedAt.isSome = true) : a.advanceExpired now = (a, 0) := by
  unfold advanceExpired
  rw [if_pos h]

theorem advanceExpired_running (h : a.pausedAt = none) :
    a.advanceExpired now = burnExpired now (a.attempt.questionsSnapshot.length + 1) a := by
  unfold advanceExpired
  rw [if_neg (by rw [h]; exact Bool.false_ne_true), effectiveNow_running h]

/-- A running attempt settles what is due. -/
theorem advanceExpired_eq_settle (hrun : a.pausedAt = none) (hstart : a.questionStartedAt.isSome = true) :
    (a.advanceExpired now).1 = Settle.settle expiryTurn questionsLeft now a := by
  rw [advanceExpired_running hrun, burnExpired_anchored hstart]
  have hleft : a.questionsLeft ≤ a.attempt.questionsSnapshot.length := Nat.sub_le _ _
  exact Settle.upTo_enough expiry_turns _ _ a (by omega) (Nat.le_refl _)

/-- The loop ends: more turns than questions change nothing. -/
theorem burnExpired_enough (hk : a.questionsLeft < k) : burnExpired now k a = burnExpired now (a.questionsLeft + 1) a := by
  induction hleft : a.questionsLeft using Nat.strongRecOn generalizing a k with
  | ind n ih =>
    obtain ⟨k, rfl⟩ : ∃ j, k = j + 1 := ⟨k - 1, by omega⟩
    rcases hturn : expiryTurn now a with _ | a'
    · unfold expiryTurn at hturn
      unfold burnExpired
      split
      · rfl
      · rename_i q hq
        simp only [hq] at hturn
        split
        · rfl
        · rename_i limit hlimit
          split
          · rfl
          · rename_i start hstart
            simp only [hlimit, hstart] at hturn
            split_ifs at hturn with hlate
            rw [if_pos hlate, if_pos hlate]
    · have hnearer := expiry_turns.nearer now a a' hturn
      rw [burnExpired_of_turn hturn, burnExpired_of_turn hturn]
      rw [ih a'.questionsLeft (by omega) (a := a') (k := k) (by omega) rfl,
        ih a'.questionsLeft (by omega) (a := a') (k := n) (by omega) rfl]

/-! The routes, step by step -/

theorem burnExpired_visits (now : ℚ) (k : ℕ) (a : TimedAttempt) : Relation.ReflTransGen (Visit now) a (burnExpired now k a).1 := by
  induction k generalizing a with
  | zero => exact .refl
  | succ k ih =>
    rcases hturn : expiryTurn now a with _ | a'
    · rcases burnExpired_of_none (k := k + 1) hturn with ⟨-, hsame | ⟨hnone, hopened⟩⟩
      · rw [hsame]
      · rw [hopened]
        exact .single (.anchor hnone)
    · rw [burnExpired_of_turn hturn]
      exact .head (.expire hturn) (ih a')

theorem advanceExpired_visits (a : TimedAttempt) (now : ℚ) : Relation.ReflTransGen (Visit now) a (a.advanceExpired now).1 := by
  rcases hp : a.pausedAt with _ | pausedAt
  · rw [advanceExpired_running hp]
    exact burnExpired_visits now _ a
  · rw [advanceExpired_paused (by rw [hp]; rfl)]

theorem showQuiz_visits (a : TimedAttempt) (now : ℚ) : Relation.ReflTransGen (Visit now) a (a.showQuiz now) := by
  have hadvance := advanceExpired_visits a now
  unfold showQuiz
  dsimp only
  split_ifs with hpaused hnone
  · exact .refl
  · exact hadvance.tail (.anchor (Option.isNone_iff_eq_none.mp hnone.2))
  · exact hadvance

theorem answer_visits (a : TimedAttempt) (postedIndex : ℕ) (isRight : Bool) (now : ℚ) :
    Relation.ReflTransGen (Visit now) a (a.answer postedIndex isRight now) := by
  have hadvance := advanceExpired_visits a now
  unfold answer
  dsimp only
  split
  · exact .refl
  · split
    · exact hadvance
    · rename_i q hq
      split_ifs
      · exact hadvance.tail (.answer isRight hq)
      · exact hadvance

end

end SubmissionsChecker
