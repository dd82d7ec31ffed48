import SubmissionsChecker.Invariants.QuizClock
import SubmissionsChecker.Invariants.QuizRequests

/-! Expiry does not depend on when it is looked at. -/

namespace SubmissionsChecker

namespace TimedAttempt

/-- `_advance_expired` at each of the times. -/
def lookedAt (a : TimedAttempt) (times : List ℚ) : TimedAttempt := times.foldl (fun a u => (a.advanceExpired u).1) a

/-- The current question has no limit, or has not outlived it and the grace period. -/
def Current (a : TimedAttempt) (now : ℚ) : Prop :=
  ∀ q limit start, a.attempt.currentQuestion = some q → limitOf q = some limit → a.questionStartedAt = some start →
    a.effectiveNow now - start ≤ limit + questionGraceSeconds

/-- Looking at the attempt at the times before `t` leaves what looking at `t` alone does, and then there is nothing
left to burn; the loop ends by itself. A pause leaves the current question as it is. -/
structure ExpiresOnce (a : TimedAttempt) (times : List ℚ) (t : ℚ) : Prop where
  same : a.lookedAt (times ++ [t]) = (a.advanceExpired t).1
  again : ((a.advanceExpired t).1.advanceExpired t).2 = 0
  current : a.pausedAt = none → (a.advanceExpired t).1.Current t
  ends : ∀ k, a.questionsLeft < k → burnExpired (a.effectiveNow t) k a = burnExpired (a.effectiveNow t) (a.questionsLeft + 1) a

end TimedAttempt

open TimedAttempt

section

variable {a : TimedAttempt} {times : List ℚ} {t : ℚ}

theorem lookedAt_paused (h : a.pausedAt.isSome = true) (times : List ℚ) : a.lookedAt times = a := by
  induction times with
  | nil => rfl
  | cons u times ih =>
    unfold lookedAt at ih ⊢
    rw [List.foldl_cons, advanceExpired_paused h]
    exact ih

/-- Burning keeps the attempt running, with a window open. -/
theorem settle_keeps (hrun : a.pausedAt = none) (hstart : a.questionStartedAt.isSome = true) (t : ℚ) :
    (Settle.settle expiryTurn questionsLeft t a).pausedAt = none ∧
      (Settle.settle expiryTurn questionsLeft t a).questionStartedAt.isSome = true := by
  induction hk : a.questionsLeft using Nat.strongRecOn generalizing a with
  | ind k ih =>
    rcases hturn : expiryTurn t a with _ | a'
    · rw [Settle.settle_of_none hturn]
      exact ⟨hrun, hstart⟩
    · rw [Settle.settle_of_some expiry_turns hturn]
      have hnearer := expiry_turns.nearer t a a' hturn
      obtain ⟨q, limit, start, -, -, -, -, rfl⟩ := expiryTurn_eq_some.mp hturn
      exact ih _ (hk ▸ hnearer) (a := a.expire q start limit) hrun rfl rfl

theorem lookedAt_eq_settles (hrun : a.pausedAt = none) (hstart : a.questionStartedAt.isSome = true) (times : List ℚ) :
    a.lookedAt times = times.foldl (fun a u => Settle.settle expiryTurn questionsLeft u a) a := by
  induction times generalizing a with
  | nil => rfl
  | cons u times ih =>
    obtain ⟨hrun', hstart'⟩ := settle_keeps hrun hstart u
    unfold lookedAt at ih ⊢
    rw [List.foldl_cons, List.foldl_cons, advanceExpired_eq_settle hrun hstart]
    exact ih hrun' hstart'

theorem lookedAt_last (hstart : a.questionStartedAt.isSome = true) (h : ∀ u ∈ times, u ≤ t) :
    a.lookedAt (times ++ [t]) = (a.advanceExpired t).1 := by
  rcases hp : a.pausedAt with _ | pausedAt
  · rw [lookedAt_eq_settles hp hstart, List.foldl_append, List.foldl_cons, List.foldl_nil,
      Settle.foldl_settle expiry_turns times t a h, advanceExpired_eq_settle hp hstart]
  · have hpaused : a.pausedAt.isSome = true := by rw [hp]; rfl
    rw [lookedAt_paused hpaused, advanceExpired_paused hpaused]

/-- Nothing is due any more. -/
theorem expiryTurn_advanced (hrun : a.pausedAt = none) (hstart : a.questionStartedAt.isSome = true) (t : ℚ) :
    expiryTurn t (a.advanceExpired t).1 = none := by
  rw [advanceExpired_eq_settle hrun hstart]
  exact Settle.turn_settle expiry_turns t a

theorem advanced_keeps (hrun : a.pausedAt = none) (hstart : a.questionStartedAt.isSome = true) (t : ℚ) :
    (a.advanceExpired t).1.pausedAt = none := by
  rw [advanceExpired_eq_settle hrun hstart]
  exact (settle_keeps hrun hstart t).1

theorem expires_once (hstart : a.questionStartedAt.isSome = true) (htimes : (times ++ [t]).Pairwise (· ≤ ·)) :
    a.ExpiresOnce times t where
  same := lookedAt_last hstart fun u hu => (List.pairwise_append.mp htimes).2.2 u hu t List.mem_cons_self
  again := by
    rcases hp : a.pausedAt with _ | pausedAt
    · rw [advanceExpired_running (advanced_keeps hp hstart t)]
      exact (burnExpired_of_none (expiryTurn_advanced hp hstart t)).1
    · have hpaused : a.pausedAt.isSome = true := by rw [hp]; rfl
      rw [advanceExpired_paused hpaused, advanceExpired_paused hpaused]
  current hrun := by
    intro q limit start hq hlimit hopened
    have hnone := expiryTurn_advanced hrun hstart t
    unfold expiryTurn at hnone
    simp only [hq, hlimit, hopened] at hnone
    rw [effectiveNow_running (advanced_keeps hrun hstart t)]
    by_contra hlate
    rw [if_neg hlate] at hnone
    cases hnone
  ends k hk := burnExpired_enough hk

/-- Three windows of thirty seconds, looked at after a minute and after ten. -/
def threeWindows : TimedAttempt where
  attempt :=
    { submissionId := 0, configSnapshot := { perQuestionTiming := true }
      questionsSnapshot := [{ id := 0, points := 1, timeLimitSeconds := some 30 },
        { id := 1, points := 1, timeLimitSeconds := some 30 }, { id := 2, points := 1, timeLimitSeconds := some 30 }] }
  questionStartedAt := some 0

theorem threeWindows_expire_once : threeWindows.ExpiresOnce [60] 600 := expires_once rfl (by decide)

/-- A window of thirty seconds that was within its grace when the pause was asked for, but not when it began. -/
def pausedLate : TimedAttempt := (threeWindows.advanceExpired 35).1.pause 36

/-- A paused attempt keeps its current question, also one that has outlived its window. -/
theorem paused_outlives : ¬ ∀ (a : TimedAttempt) (times : List ℚ) (t : ℚ), a.questionStartedAt.isSome = true →
    (times ++ [t]).Pairwise (· ≤ ·) → a.lookedAt (times ++ [t]) = (a.advanceExpired t).1 ∧
      ((a.advanceExpired t).1.advanceExpired t).2 = 0 ∧ (a.advanceExpired t).1.Current t := by
  intro h
  have hcurrent := (h pausedLate [] 40 (by decide +kernel) (by decide)).2.2 { id := 0, points := 1, timeLimitSeconds := some 30 } 30 0
    (by decide +kernel) (by decide +kernel) (by decide +kernel)
  exact absurd hcurrent (by decide +kernel)

end

end SubmissionsChecker

/-! ## Books

The books of a stepped attempt: while it runs, its answers are those of the questions behind the cursor, and an
answer that comes too late, or for another question, is not written down. -/

namespace SubmissionsChecker

open Runs

/-- The recorded answers are those of the first `current_index` questions, each once and in order. -/
structure QuizAttempt.Booked (a : QuizAttempt) (questions : List QuestionSnapshot) : Prop where
  answers : a.answers.map (·.questionId) = (questions.take a.currentIndex).map (·.id)
  index : a.currentIndex ≤ questions.length

namespace TimedAttempt

/-- A stepped attempt as it was created. -/
structure Starts (a : TimedAttempt) : Prop where
  stepped : a.isStepped = true
  unanswered : a.attempt.answers = []
  first : a.attempt.currentIndex = 0

/-- Nothing recorded changes, and what is added are questions that ran out, for no points; at the end the credited
questions are credited. -/
def EarnsNothing (a : TimedAttempt) (overrides : Finset ℕ) (a' : TimedAttempt) : Prop := ∃ burned : List QuizAnswer,
  (∀ row ∈ burned, row.timedOut = true ∧ row.isCorrect = some false ∧ row.pointsEarned = some 0) ∧
    (a'.attempt.answers = a.attempt.answers ++ burned ∨ a'.attempt.status.isTerminal = true ∧
      a'.attempt.answers = applyQuestionOverrides a.attempt.questionsSnapshot overrides (a.attempt.answers ++ burned))

/-- The current question's time is over, by more than the grace. -/
def WindowClosed (a : TimedAttempt) (grace now : ℚ) : Prop := ∃ limit start, a.attempt.currentQuestion.bind limitOf = some limit ∧
  a.questionStartedAt = some start ∧ limit + grace < now - start

end TimedAttempt

open TimedAttempt

section

variable {a₀ a a' b : TimedAttempt} {now : ℚ} {overrides : Finset ℕ} {questions : List QuestionSnapshot} {k : ℕ}
  {status : QuizAttemptStatus} {x : QuizAttempt}

/-! Books -/

/-- What every request keeps. -/
structure KeepsBooks (questions : List QuestionSnapshot) (x : QuizAttempt) : Prop where
  stepped : x.configSnapshot.perQuestionTiming = true
  snapshot : x.questionsSnapshot = questions
  booked : x.status = .inProgress → x.Booked questions

/-- The row of a question that ran out. -/
def burnedRow (q : QuestionSnapshot) : QuizAnswer :=
  { questionId := q.id, isCorrect := some false, pointsEarned := some 0, timedOut := true }

/-- One more answer, for the current question. -/
theorem KeepsBooks.next (h : KeepsBooks questions x) {q : QuestionSnapshot} (hq : x.currentQuestion = some q) {row : QuizAnswer}
    (hrow : row.questionId = q.id) :
    KeepsBooks questions { x with answers := x.answers ++ [row], currentIndex := x.currentIndex + 1 } where
  stepped := h.stepped
  snapshot := h.snapshot
  booked hrun := by
    unfold QuizAttempt.currentQuestion at hq
    rw [h.snapshot] at hq
    obtain ⟨hlt, -⟩ := List.getElem?_eq_some_iff.mp hq
    refine ⟨?_, hlt⟩
    rw [List.map_append, (h.booked hrun).answers, List.take_add_one, hq, List.map_append, List.map_singleton, hrow]
    rfl

theorem KeepsBooks.visits (h : KeepsBooks questions a.attempt) (hvs : Relation.ReflTransGen (Visit now) a b) :
    KeepsBooks questions b.attempt := by
  induction hvs with
  | refl => exact h
  | tail _ hv ih =>
    rcases hv with hturn | hnone | ⟨isRight, hq⟩
    · obtain ⟨q, limit, start, hq, -, -, -, rfl⟩ := expiryTurn_eq_some.mp hturn
      exact ih.next hq (rfl : (burnedRow q).questionId = q.id)
    · exact ih
    · exact ih.next hq rfl

theorem KeepsBooks.finished (h : KeepsBooks questions x) (hstatus : status.isTerminal = true) :
    KeepsBooks questions (x.finished overrides status) where
  stepped := h.stepped
  snapshot := h.snapshot
  booked hrun := by
    have hterminal : (x.finished overrides status).status.isTerminal = true := finished_terminal x hstatus
    rw [hrun] at hterminal
    cases hterminal

theorem KeepsBooks.handled {r : ClockedRequest} (h : KeepsBooks questions a.attempt) (hx : Handled a r x) : KeepsBooks questions x := by
  cases hx with
  | kept => exact h
  | moved _ hvisits => exact h.visits hvisits
  | forced _ => exact ⟨h.stepped, h.snapshot, fun hrun => ⟨(h.booked hrun).answers, (h.booked hrun).index⟩⟩
  | ended _ hends =>
    cases hends with
    | forced _ => exact h.finished rfl
    | timedOut _ _ => exact h.finished rfl
    | done _ hvisits => exact (h.visits hvisits).finished rfl
  | submitted _ _ _ hsingle => exact absurd h.stepped hsingle

/-! Late and stray answers -/

/-- What the loop adds are the rows of the questions it burned. -/
theorem burnExpired_rows (now : ℚ) (k : ℕ) (a : TimedAttempt) : ∃ burned : List QuestionSnapshot,
    (burnExpired now k a).1.attempt.answers = a.attempt.answers ++ burned.map burnedRow ∧
      (burnExpired now k a).1.attempt.currentIndex = a.attempt.currentIndex + (burnExpired now k a).2 ∧
      (burnExpired now k a).1.attempt.questionsSnapshot = a.attempt.questionsSnapshot := by
  induction k generalizing a with
  | zero => exact ⟨[], (List.append_nil _).symm, rfl, rfl⟩
  | succ k ih =>
    rcases hturn : expiryTurn now a with _ | a'
    · obtain ⟨hzero, hsame | ⟨-, hopened⟩⟩ := burnExpired_of_none (k := k + 1) hturn
      · rw [hzero, hsame]
        exact ⟨[], (List.append_nil _).symm, rfl, rfl⟩
      · rw [hzero, hopened]
        exact ⟨[], (List.append_nil _).symm, rfl, rfl⟩
    · rw [burnExpired_of_turn hturn]
      obtain ⟨burned, hanswers, hindex, hquestions⟩ := ih a'
      obtain ⟨q, limit, start, -, -, -, -, rfl⟩ := expiryTurn_eq_some.mp hturn
      refine ⟨q :: burned, ?_, ?_, hquestions⟩
      · rw [hanswers]
        exact List.append_assoc _ _ _
      · dsimp only
        rw [hindex]
        change a.attempt.currentIndex + 1 + _ = _
        omega

theorem advanceExpired_rows (now : ℚ) (a : TimedAttempt) : ∃ burned : List QuestionSnapshot,
    (a.advanceExpired now).1.attempt.answers = a.attempt.answers ++ burned.map burnedRow ∧
      (a.advanceExpired now).1.attempt.currentIndex = a.attempt.currentIndex + (a.advanceExpired now).2 ∧
      (a.advanceExpired now).1.attempt.questionsSnapshot = a.attempt.questionsSnapshot := by
  rcases hp : a.pausedAt with _ | pausedAt
  · rw [advanceExpired_running hp]
    exact burnExpired_rows now _ a
  · rw [advanceExpired_paused (by rw [hp]; rfl)]
    exact ⟨[], (List.append_nil _).symm, rfl, rfl⟩

/-- A window closed for longer than the grace is burned. -/
theorem burned_of_closed (hrun : a.pausedAt = none) (h : a.WindowClosed questionGraceSeconds now) : (a.advanceExpired now).2 ≠ 0 := by
  obtain ⟨limit, start, hlimit, hstart, hlate⟩ := h
  obtain ⟨q, hq, hlimit⟩ := Option.bind_eq_some_iff.mp hlimit
  have hturn : expiryTurn now a = some (a.expire q start limit) := expiryTurn_eq_some.mpr ⟨q, limit, start, hq, hlimit, hstart, hlate, rfl⟩
  rw [advanceExpired_running hrun, burnExpired_of_turn hturn]
  exact Nat.succ_ne_zero _

theorem recordAnswer_stray {postedIndex : ℤ} {isRight : ℕ → Bool}
    (h : (a.advanceExpired now).2 ≠ 0 ∨ postedIndex ≠ a.attempt.currentIndex) :
    a.recordAnswer postedIndex isRight now = (a.advanceExpired now).1 := by
  obtain ⟨-, -, hindex, -⟩ := advanceExpired_rows now a
  unfold TimedAttempt.recordAnswer
  dsimp only
  split
  · rfl
  · rw [if_neg]
    rintro ⟨hzero, hposted⟩
    rcases h with hburned | hother
    · exact hburned hzero
    · rw [hindex, hzero, Nat.add_zero] at hposted
      exact hother hposted

theorem earnsNothing_refl (a : TimedAttempt) (overrides : Finset ℕ) : a.EarnsNothing overrides a :=
  ⟨[], fun _ hrow => absurd hrow List.not_mem_nil, .inl (List.append_nil _).symm⟩

theorem burnedRow_worthless (burned : List QuestionSnapshot) : ∀ row ∈ burned.map burnedRow,
    row.timedOut = true ∧ row.isCorrect = some false ∧ row.pointsEarned = some 0 := by
  intro row hrow
  obtain ⟨q, -, rfl⟩ := List.mem_map.mp hrow
  exact ⟨rfl, rfl, rfl⟩

theorem earnsNothing_finished {burned : List QuestionSnapshot} (hrows : b.attempt.answers = a.attempt.answers ++ burned.map burnedRow)
    (hquestions : b.attempt.questionsSnapshot = a.attempt.questionsSnapshot) (hstatus : status.isTerminal = true) :
    a.EarnsNothing overrides (b.gradeAndFinalize overrides status now) := by
  refine ⟨_, burnedRow_worthless burned, .inr ⟨finished_terminal b.attempt hstatus, ?_⟩⟩
  rw [← hrows, ← hquestions]
  rfl

/-- An answer to another question, or after its window and the grace, is not written down. -/
theorem handleAnswer_stray {postedIndex : ℤ} (isRight : ℕ → Bool)
    (h : postedIndex ≠ a.attempt.currentIndex ∨ a.WindowClosed questionGraceSeconds now) :
    a.EarnsNothing overrides (a.handleAnswer overrides postedIndex isRight now) := by
  unfold handleAnswer
  split_ifs with hterminal hstepped hpaused hforced
  · exact earnsNothing_refl a overrides
  · exact earnsNothing_refl a overrides
  · exact earnsNothing_refl a overrides
  · have hrows : a.attempt.answers = a.attempt.answers ++ ([] : List QuestionSnapshot).map burnedRow := (List.append_nil _).symm
    exact earnsNothing_finished hrows rfl rfl
  · have hrun : a.pausedAt = none := Option.not_isSome_iff_eq_none.mp hpaused
    obtain ⟨burned, hrows, -, hquestions⟩ := advanceExpired_rows now a
    rw [recordAnswer_stray (h.symm.imp (burned_of_closed hrun) id)]
    unfold TimedAttempt.finishIfDone
    split_ifs
    · exact earnsNothing_finished hrows hquestions rfl
    · exact ⟨_, burnedRow_worthless burned, .inl hrows⟩

/-- While a stepped attempt runs its books are kept, and no late or stray answer gets into them. -/
theorem books_kept {ops : List ClockedRequest} (hstart : a₀.Starts) (h : Run handle Any a₀ ops a) :
    (a.attempt.status = .inProgress → a.attempt.Booked a₀.attempt.questionsSnapshot) ∧
      ∀ now overrides postedIndex isRight, postedIndex ≠ (a.attempt.currentIndex : ℤ) ∨ a.WindowClosed questionGraceSeconds now →
        a.EarnsNothing overrides (a.handle ⟨now, overrides, .answer postedIndex isRight⟩) := by
  have hbooks : KeepsBooks a₀.attempt.questionsSnapshot a.attempt := by
    induction h with
    | nil =>
      refine ⟨hstart.stepped, rfl, fun _ => ⟨?_, ?_⟩⟩
      · rw [hstart.unanswered, hstart.first]
        rfl
      · rw [hstart.first]
        exact Nat.zero_le _
    | @snoc ops t r _ _ ih => exact ih.handled (handled t r)
  exact ⟨hbooks.booked, fun now overrides postedIndex isRight hstray => handleAnswer_stray isRight hstray⟩

/-- A right answer to the first question of three. -/
def firstAnswered : TimedAttempt := threeWindows.handle ⟨10, ∅, .answer 0 fun _ => true⟩

theorem firstAnswered_booked : firstAnswered.attempt.Booked threeWindows.attempt.questionsSnapshot := by
  have hrun : Run handle Any threeWindows [⟨10, ∅, .answer 0 fun _ => true⟩] firstAnswered := .snoc .nil trivial
  exact (books_kept ⟨rfl, rfl, rfl⟩ hrun).1 (by decide +kernel)

/-- An answer three seconds after its thirty still counts. -/
theorem grace_counts : ¬ ∀ (a₀ a : TimedAttempt) (ops : List ClockedRequest), a₀.Starts → Run handle Any a₀ ops a →
    (a.attempt.status = .inProgress → a.attempt.Booked a₀.attempt.questionsSnapshot) ∧
      ∀ now overrides postedIndex isRight, postedIndex ≠ (a.attempt.currentIndex : ℤ) ∨ a.WindowClosed 0 now →
        a.EarnsNothing overrides (a.handle ⟨now, overrides, .answer postedIndex isRight⟩) := by
  intro h
  have hclosed : threeWindows.WindowClosed 0 33 := ⟨30, 0, by decide +kernel, rfl, by norm_num⟩
  obtain ⟨burned, hburned, hrows | ⟨hended, -⟩⟩ :=
    (h threeWindows threeWindows [] ⟨rfl, rfl, rfl⟩ .nil).2 33 ∅ 0 (fun _ => true) (.inr hclosed)
  · have hanswers : (threeWindows.handle ⟨33, ∅, .answer 0 fun _ => true⟩).attempt.answers =
        [{ questionId := 0, isCorrect := some true, pointsEarned := some 1 }] := by decide +kernel
    have hall : (threeWindows.handle ⟨33, ∅, .answer 0 fun _ => true⟩).attempt.answers = burned := hrows
    rw [hanswers] at hall
    subst hall
    exact absurd (hburned _ (List.mem_singleton_self _)).2.1 (by decide)
  · exact absurd hended (by decide +kernel)

end

end SubmissionsChecker
