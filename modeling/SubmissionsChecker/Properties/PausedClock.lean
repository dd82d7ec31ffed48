import SubmissionsChecker.Properties.StepperBooks

/-! Pauses cost no quiz time: an open pause stops every clock, and the closed ones leave less than a second each. -/

namespace SubmissionsChecker

/-- What really happened: the pauses that are over, how long they took to the instant, and the quiz time at which the
current window opened, moved by the penalties. A window that ran out ended between being charged its limit and having
lasted it. -/
structure PauseLedger where
  pauses : ℕ := 0
  paused : ℚ := 0
  opened : Option ℚ := none

namespace TimedAttempt

/-- The time spent outside pauses since the start, at a moment outside a pause. -/
def quizTime (a : TimedAttempt) (l : PauseLedger) (t : ℚ) : ℚ := t - a.startedAt - l.paused

/-- The attempt starts unpaused, with the window of its first question open or not. -/
structure Fresh (a : TimedAttempt) : Prop where
  running : a.pausedAt = none
  unpaused : a.pausedSeconds = 0

/-- The attempt `a₀`, after whatever happens to its clocks, with the ledger of it. -/
inductive Charged (a₀ : TimedAttempt) : TimedAttempt → PauseLedger → ℚ → Prop
  | start (t : ℚ) : Charged a₀ a₀ { opened := a₀.questionStartedAt.map fun start : ℚ => start - a₀.startedAt } t
  | wait {a : TimedAttempt} {l : PauseLedger} {t t' : ℚ} (h : Charged a₀ a l t) (ht : t ≤ t') : Charged a₀ a l t'
  | expire {a : TimedAttempt} {l : PauseLedger} {t start opened : ℚ} {q : QuestionSnapshot} {limit : ℕ} (ended : ℚ)
      (h : Charged a₀ a l t) (hrun : a.pausedAt = none) (hturn : expiryTurn t a = some (a.expire q start limit))
      (hstart : a.questionStartedAt = some start) (hopened : l.opened = some opened)
      (hcharged : a.quizTime l (start + limit) ≤ ended) (hspent : ended ≤ opened + limit) :
      Charged a₀ (a.expire q start limit) { l with opened := some ended } t
  | anchor {a : TimedAttempt} {l : PauseLedger} {t : ℚ} (h : Charged a₀ a l t) (hrun : a.pausedAt = none)
      (hnone : a.questionStartedAt = none) :
      Charged a₀ { a with questionStartedAt := some t } { l with opened := some (a.quizTime l t) } t
  | answer {a : TimedAttempt} {l : PauseLedger} {t : ℚ} {q : QuestionSnapshot} (isRight : Bool) (h : Charged a₀ a l t)
      (hrun : a.pausedAt = none) (hq : a.attempt.currentQuestion = some q) :
      Charged a₀ (a.answered q isRight t) { l with opened := some (a.quizTime l t) } t
  | reduceTime {a : TimedAttempt} {l : PauseLedger} {t : ℚ} (penalty : ℤ) (h : Charged a₀ a l t) (hrun : a.pausedAt = none) :
      Charged a₀ (a.reduceTime penalty) { l with
        opened := if a.attempt.configSnapshot.perQuestionTiming then l.opened.map fun opened : ℚ => opened - penalty else l.opened } t
  | pause {a : TimedAttempt} {l : PauseLedger} {t : ℚ} (h : Charged a₀ a l t) (hrun : a.pausedAt = none) : Charged a₀ (a.pause t) l t
  | resume {a : TimedAttempt} {l : PauseLedger} {t pausedAt : ℚ} (h : Charged a₀ a l t) (hpaused : a.pausedAt = some pausedAt) :
      Charged a₀ (a.resume t) { l with pauses := l.pauses + 1, paused := l.paused + (t - pausedAt) } t

/-- What is charged beyond what was spent: nothing without a pause, else less than a second for each. -/
def Exceeds (n : ℕ) (charged spent : ℚ) : Prop := 0 ≤ charged - spent ∧ (0 < n → charged - spent < n) ∧ (n = 0 → charged = spent)

/-- An open pause stops the clocks; outside a pause no clock is behind, or ahead by a second for each pause. -/
structure PausesFree (a : TimedAttempt) (l : PauseLedger) (t : ℚ) : Prop where
  stopped : a.pausedAt.isSome = true → ∀ u, a.elapsedSeconds u = a.elapsedSeconds t ∧ a.isTimedOut u = a.isTimedOut t ∧
    a.secondsRemaining u = a.secondsRemaining t ∧ a.questionSecondsRemaining u = a.questionSecondsRemaining t
  attempt : a.pausedAt = none → Exceeds l.pauses (a.elapsedSeconds t) (a.quizTime l t)
  question : a.pausedAt = none → ∀ start, a.questionStartedAt = some start →
    ∃ opened, l.opened = some opened ∧ Exceeds l.pauses (a.effectiveNow t - start) (a.quizTime l t - opened)

end TimedAttempt

open TimedAttempt

section

variable {a₀ a a' : TimedAttempt} {l : PauseLedger} {t : ℚ}

/-- A drift the pauses account for. -/
def Drift (n : ℕ) (d : ℚ) : Prop := 0 ≤ d ∧ (d < n ∨ d = 0)

theorem Drift.add {n : ℕ} {d x : ℚ} (h : Drift n d) (h0 : 0 ≤ x) (h1 : x < 1) : Drift (n + 1) (d + x) := by
  have hn : (0 : ℚ) ≤ n := Nat.cast_nonneg n
  refine ⟨add_nonneg h.1 h0, .inl ?_⟩
  push_cast
  rcases h.2 with hlt | hzero
  · linarith
  · linarith

theorem Drift.of_le {n : ℕ} {d x : ℚ} (h : Drift n d) (h0 : 0 ≤ x) (hle : x ≤ d) : Drift n x := by
  refine ⟨h0, ?_⟩
  rcases h.2 with hlt | hzero
  · exact .inl (lt_of_le_of_lt hle hlt)
  · exact .inr (le_antisymm (hzero ▸ hle) h0)

theorem Drift.exceeds {n : ℕ} {charged spent : ℚ} (h : Drift n (charged - spent)) : Exceeds n charged spent := by
  refine ⟨h.1, fun hn => ?_, fun hn => ?_⟩
  · rcases h.2 with hlt | hzero
    · exact hlt
    · rw [hzero]
      exact Nat.cast_pos.mpr hn
  · subst hn
    rcases h.2 with hlt | hzero
    · have hnonneg := h.1
      rw [Nat.cast_zero] at hlt
      exact absurd hlt (not_lt.mpr hnonneg)
    · exact sub_eq_zero.mp hzero

/-- What every step keeps. -/
structure Ledgered (a : TimedAttempt) (l : PauseLedger) (t : ℚ) : Prop where
  opensBefore : ∀ pausedAt, a.pausedAt = some pausedAt → pausedAt ≤ t
  seconds : Drift l.pauses (l.paused - a.pausedSeconds)
  opened : (a.questionStartedAt = none → l.opened = none) ∧ ∀ start, a.questionStartedAt = some start →
    ∃ opened, l.opened = some opened ∧ Drift l.pauses (a.startedAt + l.paused + opened - start)

theorem drift_zero (n : ℕ) : Drift n 0 := ⟨le_rfl, .inr rfl⟩

/-- A window opened now has nothing charged yet. -/
theorem Ledgered.open_now {q : TimedAttempt} (h : Ledgered a l t) (hpaused : q.pausedAt = a.pausedAt)
    (hseconds : q.pausedSeconds = a.pausedSeconds) (hstarted : q.startedAt = a.startedAt) (hopen : q.questionStartedAt = some t) :
    Ledgered q { l with opened := some (a.quizTime l t) } t where
  opensBefore pausedAt hp := h.opensBefore pausedAt (hpaused ▸ hp)
  seconds := by
    rw [hseconds]
    exact h.seconds
  opened := by
    rw [hopen]
    refine ⟨fun hnone => (Option.some_ne_none _ hnone).elim, fun start hstart => ⟨_, rfl, ?_⟩⟩
    cases hstart
    have hzero : q.startedAt + l.paused + a.quizTime l t - t = 0 := by
      unfold quizTime
      rw [hstarted]
      ring
    dsimp only
    rw [hzero]
    exact drift_zero _

/-- A window that ran out leaves the next one no more to account for. -/
theorem Ledgered.expire {q : QuestionSnapshot} {limit : ℕ} {start opened ended : ℚ} (h : Ledgered a l t)
    (hstart : a.questionStartedAt = some start) (hopened : l.opened = some opened)
    (hcharged : a.quizTime l (start + limit) ≤ ended) (hspent : ended ≤ opened + limit) :
    Ledgered (a.expire q start limit) { l with opened := some ended } t where
  opensBefore := h.opensBefore
  seconds := h.seconds
  opened := by
    refine ⟨fun hnone => (Option.some_ne_none _ hnone).elim, fun next hnext => ⟨_, rfl, ?_⟩⟩
    obtain rfl : start + limit = next := Option.some.inj hnext
    obtain ⟨opened', hopened', hdrift⟩ := h.opened.2 start hstart
    obtain rfl : opened' = opened := Option.some.inj (hopened'.symm.trans hopened)
    unfold quizTime at hcharged
    refine hdrift.of_le ?_ ?_
    · change 0 ≤ a.startedAt + l.paused + ended - (start + limit)
      linarith
    · change a.startedAt + l.paused + ended - (start + limit) ≤ a.startedAt + l.paused + opened' - start
      linarith

/-- A penalty moves the window and its ledger entry alike. -/
theorem Ledgered.penalty {q : TimedAttempt} (h : Ledgered a l t) (penalty : ℚ) (hpaused : q.pausedAt = a.pausedAt)
    (hseconds : q.pausedSeconds = a.pausedSeconds) (hstarted : q.startedAt = a.startedAt)
    (hopen : q.questionStartedAt = a.questionStartedAt.map fun start : ℚ => start - penalty) :
    Ledgered q { l with opened := l.opened.map fun opened : ℚ => opened - penalty } t where
  opensBefore pausedAt hp := h.opensBefore pausedAt (hpaused ▸ hp)
  seconds := by
    rw [hseconds]
    exact h.seconds
  opened := by
    refine ⟨fun hnone => ?_, fun start hstart => ?_⟩
    · rw [hopen] at hnone
      rw [h.opened.1 (Option.map_eq_none_iff.mp hnone)]
      rfl
    · rw [hopen] at hstart
      obtain ⟨start₀, hstart₀, rfl⟩ := Option.map_eq_some_iff.mp hstart
      obtain ⟨opened, hopened, hdrift⟩ := h.opened.2 start₀ hstart₀
      refine ⟨opened - penalty, by rw [hopened]; rfl, ?_⟩
      have hsame : q.startedAt + l.paused + (opened - penalty) - (start₀ - penalty) = a.startedAt + l.paused + opened - start₀ := by
        rw [hstarted]
        ring
      dsimp only
      rw [hsame]
      exact hdrift

theorem truncate_of_nonneg {x : ℚ} (h : 0 ≤ x) : truncate x = ⌊x⌋ := by
  unfold truncate
  rw [if_pos h]

/-- The part of a second that a closed pause leaves. -/
theorem Ledgered.resume {pausedAt : ℚ} (h : Ledgered a l t) (hpaused : a.pausedAt = some pausedAt) :
    Ledgered (a.resume t) { l with pauses := l.pauses + 1, paused := l.paused + (t - pausedAt) } t := by
  have hnonneg : 0 ≤ t - pausedAt := sub_nonneg.mpr (h.opensBefore pausedAt hpaused)
  have hresumed : a.resume t = { a with
      pausedSeconds := a.pausedSeconds + ⌊t - pausedAt⌋
      questionStartedAt := a.questionStartedAt.map fun start => start + (⌊t - pausedAt⌋ : ℤ)
      pausedAt := none } := by
    unfold TimedAttempt.resume closeOpenPause openPauseSeconds
    rw [hpaused, if_neg (by simp)]
    dsimp only
    rw [truncate_of_nonneg hnonneg]
  have hlow : 0 ≤ t - pausedAt - (⌊t - pausedAt⌋ : ℤ) := Int.fract_nonneg (t - pausedAt)
  have hhigh : t - pausedAt - (⌊t - pausedAt⌋ : ℤ) < 1 := Int.fract_lt_one (t - pausedAt)
  rw [hresumed]
  refine ⟨fun _ hp => (Option.some_ne_none _ hp.symm).elim, ?_,
    fun hnone => h.opened.1 (Option.map_eq_none_iff.mp hnone), fun start hstart => ?_⟩
  · have hsum : l.paused + (t - pausedAt) - ((a.pausedSeconds + ⌊t - pausedAt⌋ : ℤ) : ℚ) =
        l.paused - a.pausedSeconds + (t - pausedAt - (⌊t - pausedAt⌋ : ℤ)) := by
      push_cast
      ring
    dsimp only
    rw [hsum]
    exact h.seconds.add hlow hhigh
  · obtain ⟨start₀, hstart₀, rfl⟩ := Option.map_eq_some_iff.mp hstart
    obtain ⟨opened, hopened, hdrift⟩ := h.opened.2 start₀ hstart₀
    refine ⟨opened, hopened, ?_⟩
    have hsum : a.startedAt + (l.paused + (t - pausedAt)) + opened - (start₀ + (⌊t - pausedAt⌋ : ℤ)) =
        a.startedAt + l.paused + opened - start₀ + (t - pausedAt - (⌊t - pausedAt⌋ : ℤ)) := by ring
    dsimp only
    rw [hsum]
    exact hdrift.add hlow hhigh

theorem ledgered_of_charged (hfresh : a₀.Fresh) (h : Charged a₀ a l t) : Ledgered a l t := by
  induction h with
  | start t =>
    refine ⟨fun pausedAt hp => ?_, ?_, fun hnone => ?_, fun start hstart => ?_⟩
    · rw [hfresh.running] at hp
      cases hp
    · rw [hfresh.unpaused, Int.cast_zero, sub_zero]
      exact drift_zero 0
    · rw [hnone]
      rfl
    · refine ⟨start - a₀.startedAt, by rw [hstart]; rfl, ?_⟩
      have hzero : a₀.startedAt + 0 + (start - a₀.startedAt) - start = 0 := by ring
      dsimp only
      rw [hzero]
      exact drift_zero 0
  | wait _ ht ih => exact ⟨fun pausedAt hp => (ih.opensBefore pausedAt hp).trans ht, ih.seconds, ih.opened⟩
  | expire ended _ _ _ hstart hopened hcharged hspent ih => exact ih.expire hstart hopened hcharged hspent
  | anchor _ _ _ ih => exact ih.open_now rfl rfl rfl rfl
  | answer _ _ _ _ ih => exact ih.open_now rfl rfl rfl rfl
  | @reduceTime a l t penalty _ _ ih =>
    unfold TimedAttempt.reduceTime
    split_ifs with hstepped
    · exact ih.penalty penalty rfl rfl rfl rfl
    · exact ⟨ih.opensBefore, ih.seconds, ih.opened⟩
  | @pause a l t _ hrun ih =>
    unfold TimedAttempt.pause
    rw [if_neg (by rw [hrun]; decide)]
    exact ⟨fun pausedAt hp => (Option.some.inj hp).ge, ih.seconds, ih.opened⟩
  | resume _ hpaused ih => exact ih.resume hpaused

/-- The clock of a paused attempt stands at the start of the pause. -/
theorem effectiveNow_paused {pausedAt : ℚ} (h : a.pausedAt = some pausedAt) (u : ℚ) : a.effectiveNow u = pausedAt := by
  unfold effectiveNow openPauseSeconds
  rw [h]
  exact sub_sub_cancel u pausedAt

theorem pauses_free (hfresh : a₀.Fresh) (h : Charged a₀ a l t) : a.PausesFree l t where
  stopped hpaused u := by
    obtain ⟨pausedAt, hp⟩ := Option.isSome_iff_exists.mp hpaused
    have helapsed : a.elapsedSeconds u = a.elapsedSeconds t := by
      unfold elapsedSeconds
      rw [effectiveNow_paused hp, effectiveNow_paused hp]
    refine ⟨helapsed, ?_, ?_, ?_⟩
    · unfold isTimedOut
      rw [helapsed]
    · unfold secondsRemaining
      rw [helapsed]
    · unfold questionSecondsRemaining
      rw [effectiveNow_paused hp, effectiveNow_paused hp]
  attempt hrun := by
    have hsame : a.elapsedSeconds t - a.quizTime l t = l.paused - a.pausedSeconds := by
      unfold elapsedSeconds quizTime
      rw [effectiveNow_running hrun]
      ring
    refine Drift.exceeds ?_
    rw [hsame]
    exact (ledgered_of_charged hfresh h).seconds
  question hrun start hstart := by
    obtain ⟨opened, hopened, hdrift⟩ := (ledgered_of_charged hfresh h).opened.2 start hstart
    have hsame : a.effectiveNow t - start - (a.quizTime l t - opened) = a.startedAt + l.paused + opened - start := by
      unfold quizTime
      rw [effectiveNow_running hrun]
      ring
    refine ⟨opened, hopened, Drift.exceeds ?_⟩
    rw [hsame]
    exact hdrift

/-- A pause from the tenth second to the middle of the twentieth, and then ten seconds on the question. -/
theorem threeWindows_paused : ((threeWindows.pause 10).resume (41 / 2)).PausesFree
    { pauses := 1, paused := 21 / 2, opened := some 0 } (61 / 2) := by
  have hstart : Charged threeWindows threeWindows { opened := some (0 - 0) } 10 := .start 10
  have hpaused : Charged threeWindows (threeWindows.pause 10) { opened := some (0 - 0) } (41 / 2) :=
    (hstart.pause rfl).wait (by norm_num)
  have hresumed := (hpaused.resume (rfl : (threeWindows.pause 10).pausedAt = some 10)).wait (by norm_num : (41 / 2 : ℚ) ≤ 61 / 2)
  have hledger : ({ pauses := 0 + 1, paused := 0 + (41 / 2 - 10), opened := some (0 - 0) } : PauseLedger) =
      { pauses := 1, paused := 21 / 2, opened := some 0 } := by norm_num
  exact pauses_free ⟨rfl, rfl⟩ (hledger ▸ hresumed)

/-- Without a pause nothing is charged beyond what was spent, and a penalty is charged whatever the pauses. -/
theorem unpaused_exceeds_nothing :
    (¬ ∀ (a₀ a : TimedAttempt) (l : PauseLedger) (t : ℚ), a₀.Fresh → Charged a₀ a l t → a.pausedAt = none →
      0 ≤ a.elapsedSeconds t - a.quizTime l t ∧ a.elapsedSeconds t - a.quizTime l t < l.pauses) ∧
    (threeWindows.questionSecondsRemaining 10 = some 20 ∧ (threeWindows.reduceTime 15).questionSecondsRemaining 10 = some 5) := by
  refine ⟨fun h => ?_, by decide +kernel, by decide +kernel⟩
  have hless := (h threeWindows threeWindows _ 10 ⟨rfl, rfl⟩ (.start 10) rfl).2
  exact absurd hless (by decide +kernel)

/-! The routes -/

/-- A page view or an answer keeps the account. -/
theorem TimedAttempt.Charged.visit (hfresh : a₀.Fresh) (h : Charged a₀ a l t) (hrun : a.pausedAt = none) (hv : Visit t a a') :
    ∃ l', Charged a₀ a' l' t ∧ l'.pauses = l.pauses ∧ l'.paused = l.paused ∧ a'.pausedAt = none := by
  rcases hv with hturn | hnone | ⟨isRight, hq⟩
  · obtain ⟨q, limit, start, -, -, hstart, -, rfl⟩ := expiryTurn_eq_some.mp hturn
    have hledger := ledgered_of_charged hfresh h
    obtain ⟨opened, hopened, hdrift⟩ := hledger.opened.2 start hstart
    have hcharged : a.quizTime l (start + limit) ≤ opened + limit := by
      have hnonneg := hdrift.1
      unfold quizTime
      linarith
    exact ⟨_, h.expire (opened + limit) hrun hturn hstart hopened hcharged le_rfl, rfl, rfl, hrun⟩
  · exact ⟨_, h.anchor hrun hnone, rfl, rfl, hrun⟩
  · exact ⟨_, h.answer isRight hrun hq, rfl, rfl, hrun⟩

theorem TimedAttempt.Charged.visits (hfresh : a₀.Fresh) (h : Charged a₀ a l t) (hrun : a.pausedAt = none)
    (hvs : Relation.ReflTransGen (Visit t) a a') :
    ∃ l', Charged a₀ a' l' t ∧ l'.pauses = l.pauses ∧ l'.paused = l.paused := by
  have hboth : ∃ l', Charged a₀ a' l' t ∧ l'.pauses = l.pauses ∧ l'.paused = l.paused ∧ a'.pausedAt = none := by
    induction hvs with
    | refl => exact ⟨l, h, rfl, rfl, hrun⟩
    | tail _ hv ih =>
      obtain ⟨l₁, h₁, hpauses, hpaused, hrun₁⟩ := ih
      obtain ⟨l₂, h₂, hpauses₂, hpaused₂, hrun₂⟩ := h₁.visit hfresh hrun₁ hv
      exact ⟨l₂, h₂, hpauses₂.trans hpauses, hpaused₂.trans hpaused, hrun₂⟩
  obtain ⟨l', h', hpauses, hpaused, -⟩ := hboth
  exact ⟨l', h', hpauses, hpaused⟩

theorem TimedAttempt.Charged.showQuiz (hfresh : a₀.Fresh) (h : Charged a₀ a l t) :
    ∃ l', Charged a₀ (a.showQuiz t) l' t ∧ l'.pauses = l.pauses ∧ l'.paused = l.paused := by
  rcases hp : a.pausedAt with _ | pausedAt
  · exact h.visits hfresh hp (showQuiz_visits a t)
  · unfold TimedAttempt.showQuiz
    rw [if_pos (by rw [hp]; rfl)]
    exact ⟨l, h, rfl, rfl⟩

theorem TimedAttempt.Charged.answerQuestion (hfresh : a₀.Fresh) (h : Charged a₀ a l t) (postedIndex : ℕ) (isRight : Bool) :
    ∃ l', Charged a₀ (a.answer postedIndex isRight t) l' t ∧ l'.pauses = l.pauses ∧ l'.paused = l.paused := by
  rcases hp : a.pausedAt with _ | pausedAt
  · exact h.visits hfresh hp (answer_visits a postedIndex isRight t)
  · unfold TimedAttempt.answer
    rw [if_pos (by rw [hp]; rfl)]
    exact ⟨l, h, rfl, rfl⟩

end

end SubmissionsChecker
