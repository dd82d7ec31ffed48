import SubmissionsChecker.Invariants.QuizClock

/-! A `reduce_time` penalty of a stepped attempt stays with the question it was reported on exactly when it takes no
more than that question had left. -/

namespace SubmissionsChecker

namespace TimedAttempt

/-- The attempt `a` at time `r` can stand as `a'` at time `t`, after page views and answers. -/
inductive Visited (a : TimedAttempt) (r : ℚ) : TimedAttempt → ℚ → Prop
  | start : Visited a r a r
  | wait {a' : TimedAttempt} {t t' : ℚ} (h : Visited a r a' t) (ht : t ≤ t') : Visited a r a' t'
  | visit {a' a'' : TimedAttempt} {t : ℚ} (h : Visited a r a' t) (hv : Visit t a' a'') : Visited a r a'' t

/-- The limit of the current question. -/
def currentLimit (a : TimedAttempt) : Option ℕ := a.attempt.currentQuestion.bind limitOf

/-- The limit of the question after it. -/
def nextLimit (a : TimedAttempt) : Option ℕ := (a.attempt.questionsSnapshot[a.attempt.currentIndex + 1]?).bind limitOf

/-- When the next window may open at the earliest: at the report, or at the end of the current window before it. -/
def nextOpens (a : TimedAttempt) (r : ℚ) : ℚ :=
  match a.currentLimit, a.questionStartedAt with
  | some limit, some start => min r (start + limit)
  | _, _ => r

/-- A penalty reported at time `r` spares the later questions: none of their windows opens before the current one can
have ended, so none is timed out before it has had its whole limit and grace. -/
structure SparesNext (a : TimedAttempt) (r : ℚ) (penalty : ℤ) : Prop where
  whole : ∀ b t limit, Visited (a.reduceTime penalty) r b t → a.attempt.currentIndex < b.attempt.currentIndex →
    b.currentLimit = some limit → ∃ start, b.questionStartedAt = some start ∧ a.nextOpens r ≤ start
  timedOut : ∀ b b' t limit, Visited (a.reduceTime penalty) r b t → a.attempt.currentIndex < b.attempt.currentIndex →
    b.currentLimit = some limit → expiryTurn t b = some b' → a.nextOpens r + limit + questionGraceSeconds < t

/-- The penalty fits in what is left of the current window, or no window follows it. -/
def PenaltyFits (a : TimedAttempt) (r : ℚ) (penalty : ℤ) : Prop :=
  ∀ limit start next, a.currentLimit = some limit → a.questionStartedAt = some start → a.nextLimit = some next →
    (penalty : ℚ) ≤ max 0 (start + limit - r)

end TimedAttempt

open TimedAttempt

section

variable {a b b' : TimedAttempt} {r t : ℚ} {penalty : ℤ}

/-- What the visits after the penalty keep. -/
structure Spared (a : TimedAttempt) (r : ℚ) (penalty : ℤ) (b : TimedAttempt) (t : ℚ) : Prop where
  later : r ≤ t
  questions : b.attempt.questionsSnapshot = a.attempt.questionsSnapshot
  forward : a.attempt.currentIndex ≤ b.attempt.currentIndex
  here : b.attempt.currentIndex = a.attempt.currentIndex →
    b.questionStartedAt = a.questionStartedAt.map (fun start : ℚ => start - penalty) ∨
      a.questionStartedAt = none ∧ ∃ start, b.questionStartedAt = some start ∧ r ≤ start
  beyond : a.attempt.currentIndex < b.attempt.currentIndex → ∀ limit, b.currentLimit = some limit →
    ∃ start, b.questionStartedAt = some start ∧ a.nextOpens r ≤ start

theorem nextOpens_le (a : TimedAttempt) (r : ℚ) : a.nextOpens r ≤ r := by
  unfold nextOpens
  split
  · exact min_le_left _ _
  · exact le_rfl

theorem currentLimit_eq {q : QuestionSnapshot} (h : a.attempt.currentQuestion = some q) : a.currentLimit = limitOf q := by
  unfold currentLimit
  rw [h, Option.bind_some]

/-- The question that is current once the present one is done. -/
theorem currentLimit_next (hquestions : b.attempt.questionsSnapshot = a.attempt.questionsSnapshot)
    (hindex : b.attempt.currentIndex = a.attempt.currentIndex + 1) : b.currentLimit = a.nextLimit := by
  unfold currentLimit nextLimit QuizAttempt.currentQuestion
  rw [hquestions, hindex]

theorem Spared.of_reduceTime (hstepped : a.attempt.configSnapshot.perQuestionTiming = true) :
    Spared a r penalty (a.reduceTime penalty) r := by
  unfold reduceTime
  rw [if_pos hstepped]
  exact ⟨le_rfl, rfl, le_rfl, fun _ => .inl rfl, fun h => absurd h (lt_irrefl _)⟩

theorem Spared.wait {t' : ℚ} (h : Spared a r penalty b t) (ht : t ≤ t') : Spared a r penalty b t' :=
  ⟨h.later.trans ht, h.questions, h.forward, h.here, h.beyond⟩

/-- A window opened anew opens after the report. -/
theorem Spared.fresh {start : ℚ} (hquestions : b.attempt.questionsSnapshot = a.attempt.questionsSnapshot)
    (hindex : a.attempt.currentIndex < b.attempt.currentIndex) (ht : r ≤ t) (hstart : b.questionStartedAt = some start)
    (hopens : a.nextOpens r ≤ start) : Spared a r penalty b t where
  later := ht
  questions := hquestions
  forward := hindex.le
  here h := absurd h hindex.ne'
  beyond _ _ _ := ⟨start, hstart, hopens⟩

theorem Spared.expire (hfits : a.PenaltyFits r penalty) (h : Spared a r penalty b t) (hturn : expiryTurn t b = some b') :
    Spared a r penalty b' t := by
  obtain ⟨q, limit, start, hq, hlimit, hstart, -, rfl⟩ := expiryTurn_eq_some.mp hturn
  have hcurrent : b.currentLimit = some limit := by rw [currentLimit_eq hq, hlimit]
  have hnonneg : (0 : ℚ) ≤ limit := Nat.cast_nonneg limit
  rcases h.forward.eq_or_lt with hsame | hbeyond
  · -- the question of the report: what follows it opens where the shortened window ended
    have hahead : a.attempt.currentIndex < (b.expire q start limit).attempt.currentIndex := by
      change a.attempt.currentIndex < b.attempt.currentIndex + 1
      omega
    refine ⟨h.later, h.questions, hahead.le, fun hidx => absurd hidx hahead.ne', fun _ next hnext => ⟨start + limit, rfl, ?_⟩⟩
    have hlimit' : a.currentLimit = some limit := by
      rw [← hcurrent]
      unfold currentLimit QuizAttempt.currentQuestion
      rw [h.questions, hsame]
    have hnext' : a.nextLimit = some next := by
      rw [← hnext]
      have hindex : (b.expire q start limit).attempt.currentIndex = a.attempt.currentIndex + 1 := by
        change b.attempt.currentIndex + 1 = _
        rw [hsame]
      exact (currentLimit_next (b := b.expire q start limit) h.questions hindex).symm
    rcases h.here hsame.symm with hmoved | ⟨-, start', hstart', hafter⟩
    · rw [hmoved] at hstart
      obtain ⟨start₀, hstart₀, rfl⟩ := Option.map_eq_some_iff.mp hstart
      have hle := hfits limit start₀ next hlimit' hstart₀ hnext'
      unfold nextOpens
      rw [hlimit', hstart₀]
      dsimp only
      rcases le_max_iff.mp hle with hneg | hleft
      · exact (min_le_right _ _).trans (by linarith)
      · exact (min_le_left _ _).trans (by linarith)
    · rw [hstart] at hstart'
      cases hstart'
      have hopens := nextOpens_le a r
      linarith
  · obtain ⟨start', hstart', hopens⟩ := h.beyond hbeyond limit hcurrent
    rw [hstart] at hstart'
    cases hstart'
    have hahead : a.attempt.currentIndex < (b.expire q start limit).attempt.currentIndex := by
      change a.attempt.currentIndex < b.attempt.currentIndex + 1
      omega
    exact .fresh h.questions hahead h.later rfl (by linarith)

theorem Spared.visit (hfits : a.PenaltyFits r penalty) (h : Spared a r penalty b t) (hv : Visit t b b') : Spared a r penalty b' t := by
  cases hv with
  | expire hturn => exact h.expire hfits hturn
  | anchor hnone =>
    refine ⟨h.later, h.questions, h.forward, fun hsame => ?_, fun hbeyond limit hlimit => ⟨t, rfl, (nextOpens_le a r).trans h.later⟩⟩
    rcases h.here hsame with hmoved | ⟨-, start, hstart, -⟩
    · rw [hnone] at hmoved
      exact .inr ⟨Option.map_eq_none_iff.mp hmoved.symm, t, rfl, h.later⟩
    · rw [hnone] at hstart
      cases hstart
  | @answer q isRight hq =>
    have hahead : a.attempt.currentIndex < (b.answered q isRight t).attempt.currentIndex := by
      have hforward := h.forward
      change a.attempt.currentIndex < b.attempt.currentIndex + 1
      omega
    exact .fresh h.questions hahead h.later rfl ((nextOpens_le a r).trans h.later)

theorem Spared.of_visited (hfits : a.PenaltyFits r penalty) (hstepped : a.attempt.configSnapshot.perQuestionTiming = true)
    (h : Visited (a.reduceTime penalty) r b t) : Spared a r penalty b t := by
  induction h with
  | start => exact .of_reduceTime hstepped
  | wait _ ht ih => exact ih.wait ht
  | visit _ hv ih => exact ih.visit hfits hv

theorem sparesNext_of_fits (hfits : a.PenaltyFits r penalty) (hstepped : a.attempt.configSnapshot.perQuestionTiming = true) :
    a.SparesNext r penalty where
  whole b t limit hb hbeyond hlimit := (Spared.of_visited hfits hstepped hb).beyond hbeyond limit hlimit
  timedOut b b' t limit hb hbeyond hlimit hturn := by
    obtain ⟨start, hstart, hopens⟩ := (Spared.of_visited hfits hstepped hb).beyond hbeyond limit hlimit
    obtain ⟨q, limit', start', hq, hlimit', hstart', hlate, -⟩ := expiryTurn_eq_some.mp hturn
    rw [currentLimit_eq hq, hlimit', Option.some_inj] at hlimit
    rw [hstart, Option.some_inj] at hstart'
    subst hlimit hstart'
    linarith

/-- A larger penalty takes the excess from the next window. -/
theorem fits_of_sparesNext (hstepped : a.attempt.configSnapshot.perQuestionTiming = true) (h : a.SparesNext r penalty) :
    a.PenaltyFits r penalty := by
  intro limit start next hlimit hstart hnext
  by_contra hover
  obtain ⟨hpos, hleft⟩ := max_lt_iff.mp (not_le.mp hover)
  -- nobody looks until the shortened window and the grace are over
  have hnonneg : (0 : ℚ) ≤ limit := Nat.cast_nonneg limit
  have hgrace : (0 : ℚ) ≤ questionGraceSeconds := Nat.cast_nonneg _
  obtain ⟨q, hq, hqlimit⟩ := Option.bind_eq_some_iff.mp hlimit
  have hpenalised : (a.reduceTime penalty).questionStartedAt = some (start - penalty) := by
    unfold reduceTime
    rw [if_pos hstepped, hstart]
    rfl
  have hattempt : (a.reduceTime penalty).attempt = a.attempt := by
    unfold reduceTime
    rw [if_pos hstepped]
  have hturn : expiryTurn (r + questionGraceSeconds + 1) (a.reduceTime penalty) =
      some ((a.reduceTime penalty).expire q (start - penalty) limit) :=
    expiryTurn_eq_some.mpr ⟨q, limit, start - penalty, by rw [hattempt]; exact hq, hqlimit, hpenalised, by linarith, rfl⟩
  have hreached : Visited (a.reduceTime penalty) r ((a.reduceTime penalty).expire q (start - penalty) limit)
      (r + questionGraceSeconds + 1) := .visit (.wait .start (by linarith)) (.expire hturn)
  have hindex : ((a.reduceTime penalty).expire q (start - penalty) limit).attempt.currentIndex = a.attempt.currentIndex + 1 := by
    change (a.reduceTime penalty).attempt.currentIndex + 1 = _
    rw [hattempt]
  have hnextLimit : ((a.reduceTime penalty).expire q (start - penalty) limit).currentLimit = some next := by
    rw [← hnext]
    refine currentLimit_next ?_ hindex
    change (a.reduceTime penalty).attempt.questionsSnapshot = _
    rw [hattempt]
  obtain ⟨opened, hopened, hle⟩ := h.whole _ _ next hreached (by rw [hindex]; exact Nat.lt_succ_self _) hnextLimit
  have hsame : opened = start - penalty + limit := (Option.some.inj hopened).symm
  unfold nextOpens at hle
  rw [hlimit, hstart] at hle
  dsimp only at hle
  rcases min_le_iff.mp hle with hearly | hearly
  · linarith
  · linarith

/-- The penalty bites one question only exactly when it fits in what is left of that question's window. -/
theorem penalty_spares_iff (hstepped : a.attempt.configSnapshot.perQuestionTiming = true) :
    a.SparesNext r penalty ↔ a.PenaltyFits r penalty :=
  ⟨fits_of_sparesNext hstepped, fun hfits => sparesNext_of_fits hfits hstepped⟩

/-- Two windows of thirty seconds, the first just opened. -/
def twoWindows : TimedAttempt where
  attempt :=
    { submissionId := 0, configSnapshot := { perQuestionTiming := true }
      questionsSnapshot := [{ id := 0, points := 1, timeLimitSeconds := some 30 }, { id := 1, points := 1, timeLimitSeconds := some 30 }] }
  questionStartedAt := some 0

theorem twoWindows_small_penalty : twoWindows.SparesNext 10 20 := by
  refine (penalty_spares_iff rfl).mpr fun limit start next hlimit hstart _ => ?_
  have hlimit : some 30 = some limit := hlimit
  cases hlimit
  cases hstart
  norm_num

/-- Sixty seconds reported at the tenth, as the default penalty is: the second window opens forty seconds too early. -/
theorem penalty_carries_over : ¬ ∀ (a : TimedAttempt) (r : ℚ) (penalty : ℤ),
    a.attempt.configSnapshot.perQuestionTiming = true → a.SparesNext r penalty := by
  intro h
  have hsound := h twoWindows 10 60 rfl
  have hturn : expiryTurn 11 (twoWindows.reduceTime 60) = some ((twoWindows.reduceTime 60).expire
      { id := 0, points := 1, timeLimitSeconds := some 30 } (-60) 30) := by decide +kernel
  have hreached : Visited (twoWindows.reduceTime 60) 10 ((twoWindows.reduceTime 60).expire
      { id := 0, points := 1, timeLimitSeconds := some 30 } (-60) 30) 11 := .visit (.wait .start (by norm_num)) (.expire hturn)
  obtain ⟨start, hstart, hle⟩ := hsound.whole _ _ 30 hreached (by decide +kernel) (by decide +kernel)
  have hopened : some (-30 : ℚ) = some start := by
    rw [← hstart]
    decide +kernel
  cases hopened
  exact absurd hle (by decide +kernel)

end

end SubmissionsChecker
