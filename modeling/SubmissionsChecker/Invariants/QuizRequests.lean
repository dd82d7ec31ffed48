import SubmissionsChecker.Invariants.QuizClock
import SubmissionsChecker.Routes.QuizRequests

/-! What a request does to an attempt, in four shapes: it moves it along its questions, force-fails it, ends it, or
grades the form of a single page. -/

namespace SubmissionsChecker

namespace TimedAttempt

/-- Why a request other than the form ends the attempt `a`, as it stands then. -/
inductive Ends (now : ℚ) (a : TimedAttempt) : TimedAttempt → QuizAttemptStatus → Prop
  | forced (h : a.attempt.forceFail = true) : Ends now a a .violationFail
  | timedOut (hrun : a.pausedAt = none) (h : a.isTimedOut now = true) : Ends now a a .timedOut
  | done {b : TimedAttempt} (hstepped : a.isStepped = true) (h : Relation.ReflTransGen (Visit now) a b) : Ends now a b .completed

/-- What the request leaves of the attempt; one that has ended is left alone. -/
inductive Handled (a : TimedAttempt) (r : ClockedRequest) : QuizAttempt → Prop
  | kept : Handled a r a.attempt
  | moved {b : TimedAttempt} (hrun : a.attempt.status.isTerminal = false) (h : Relation.ReflTransGen (Visit r.now) a b) :
      Handled a r b.attempt
  | forced (hrun : a.attempt.status.isTerminal = false) : Handled a r { a.attempt with forceFail := true }
  | ended {b : TimedAttempt} {status : QuizAttemptStatus} (hrun : a.attempt.status.isTerminal = false) (h : Ends r.now a b status) :
      Handled a r (b.attempt.finished r.overrides status)
  | submitted (isRight : ℕ → Bool) (hrun : a.attempt.status.isTerminal = false) (hr : r.request = .submit isRight)
      (hsingle : ¬ a.isStepped = true) : Handled a r ((a.withForm isRight).attempt.finished r.overrides (a.finalStatus r.now))

end TimedAttempt

open TimedAttempt

section

variable {a a' b : TimedAttempt} {now : ℚ} {overrides : Finset ℕ} {status : QuizAttemptStatus}

theorem finished_terminal (a : QuizAttempt) (hstatus : status.isTerminal = true) :
    (a.finished overrides status).status.isTerminal = true := by
  unfold QuizAttempt.finished
  dsimp only
  split_ifs
  · rfl
  · exact hstatus

theorem recordAnswer_visits (a : TimedAttempt) (postedIndex : ℤ) (isRight : ℕ → Bool) (now : ℚ) :
    Relation.ReflTransGen (Visit now) a (a.recordAnswer postedIndex isRight now) := by
  have hadvance := advanceExpired_visits a now
  unfold TimedAttempt.recordAnswer
  dsimp only
  split
  · exact hadvance
  · rename_i q hq
    split_ifs
    · exact hadvance.tail (.answer (isRight q.id) hq)
    · exact hadvance

theorem pause_attempt (a : TimedAttempt) (t : ℚ) : (a.pause t).attempt = a.attempt := by
  unfold TimedAttempt.pause
  split_ifs
  · rfl
  · rfl

theorem resume_attempt (a : TimedAttempt) (t : ℚ) : (a.resume t).attempt = a.attempt := by
  unfold TimedAttempt.resume closeOpenPause
  split_ifs
  · rfl
  · rfl

theorem isTerminal_of_inProgress (h : ¬ a.attempt.status ≠ .inProgress) : a.attempt.status.isTerminal = false := by
  rw [not_not.mp h]
  rfl

/-- A stepped attempt that was moved along goes on, or ends. -/
theorem handled_finishIfDone {r : ClockedRequest} (hrun : ¬ a.attempt.status.isTerminal = true) (hstepped : a.isStepped = true)
    (h : Relation.ReflTransGen (Visit r.now) a b) : Handled a r (b.finishIfDone r.overrides r.now).attempt := by
  unfold finishIfDone
  split_ifs
  · exact .ended (Bool.eq_false_of_not_eq_true hrun) (.done hstepped h)
  · exact .moved (Bool.eq_false_of_not_eq_true hrun) h

theorem handled_pause (a : TimedAttempt) (now : ℚ) (overrides : Finset ℕ) (granted : Option ℚ) :
    Handled a ⟨now, overrides, .pause granted⟩ (a.handlePause overrides now granted).attempt := by
  have hsettled := advanceExpired_visits a now
  unfold handlePause
  dsimp only
  by_cases hprogress : a.attempt.status ≠ .inProgress
  · rw [if_pos hprogress]
    exact .kept
  · have hrun := isTerminal_of_inProgress hprogress
    rw [if_neg hprogress]
    by_cases hpaused : a.pausedAt.isSome = true
    · rw [if_pos hpaused]
      exact .kept
    · rw [if_neg hpaused]
      by_cases hlate : a.isTimedOut now = true
      · rw [if_pos hlate]
        exact .ended hrun (.timedOut (Option.not_isSome_iff_eq_none.mp hpaused) hlate)
      · rw [if_neg hlate]
        by_cases hstepped : a.isStepped = true
        · rw [if_pos hstepped]
          split
          · exact .ended hrun (.done hstepped hsettled)
          · rcases granted with _ | pausedAt
            · dsimp only
              split_ifs
              · exact .kept
              · exact .moved hrun hsettled
            · dsimp only
              rw [pause_attempt]
              exact .moved hrun hsettled
        · rw [if_neg hstepped, if_neg fun h => hstepped h.1]
          rcases granted with _ | pausedAt
          · exact .kept
          · dsimp only
            rw [pause_attempt]
            exact .kept

/-- Every request does one of these. -/
theorem handled (a : TimedAttempt) (r : ClockedRequest) : Handled a r (a.handle r).attempt := by
  obtain ⟨now, overrides, request⟩ := r
  cases request with
  | «show» =>
    change Handled a _ (a.handleShow overrides now).attempt
    unfold handleShow
    split_ifs with hterminal hforced hpaused hlate hstepped
    · exact .kept
    · exact .ended (Bool.eq_false_of_not_eq_true hterminal) (.forced hforced)
    · exact .kept
    · exact .ended (Bool.eq_false_of_not_eq_true hterminal) (.timedOut (Option.not_isSome_iff_eq_none.mp hpaused) hlate)
    · exact handled_finishIfDone hterminal hstepped (showQuiz_visits a now)
    · exact .kept
  | answer postedIndex isRight =>
    change Handled a _ (a.handleAnswer overrides postedIndex isRight now).attempt
    unfold handleAnswer
    split_ifs with hterminal hsingle hpaused hforced
    · exact .kept
    · exact .kept
    · exact .kept
    · exact .ended (Bool.eq_false_of_not_eq_true hterminal) (.forced hforced)
    · exact handled_finishIfDone hterminal (by simpa using hsingle) (recordAnswer_visits a postedIndex isRight now)
  | submit isRight =>
    change Handled a _ (a.handleSubmit overrides isRight now).attempt
    unfold handleSubmit
    split_ifs with hterminal hstepped
    · exact .kept
    · exact .kept
    · exact .kept
    · exact .submitted isRight (Bool.eq_false_of_not_eq_true hterminal) rfl hstepped
  | violation effect =>
    change Handled a _ (a.handleViolation effect).attempt
    unfold handleViolation
    split_ifs with hprogress
    · exact .kept
    · exact .kept
    · cases effect with
      | nothing => exact .kept
      | penalty seconds =>
        dsimp only
        rw [reduceTime_attempt]
        exact .kept
      | forceFail => exact .forced (isTerminal_of_inProgress hprogress)
  | pause granted => exact handled_pause a now overrides granted
  | resume =>
    change Handled a _ (a.resume now).attempt
    rw [resume_attempt]
    exact .kept

/-! The draw -/

/-- The attempt keeps the questions it drew and the configuration it was started with. -/
structure SameDraw (a b : QuizAttempt) : Prop where
  questions : b.questionsSnapshot = a.questionsSnapshot
  config : b.configSnapshot = a.configSnapshot

theorem SameDraw.visits (h : Relation.ReflTransGen (Visit now) a b) : SameDraw a.attempt b.attempt := by
  induction h with
  | refl => exact ⟨rfl, rfl⟩
  | tail _ hv ih =>
    rcases hv with hturn | hnone | ⟨isRight, hq⟩
    · obtain ⟨q, limit, start, -, -, -, -, rfl⟩ := expiryTurn_eq_some.mp hturn
      exact ⟨ih.questions, ih.config⟩
    · exact ⟨ih.questions, ih.config⟩
    · exact ⟨ih.questions, ih.config⟩

theorem SameDraw.handled {r : ClockedRequest} {x : QuizAttempt} (h : Handled a r x) : SameDraw a.attempt x := by
  cases h with
  | kept => exact ⟨rfl, rfl⟩
  | moved _ hvisits => exact .visits hvisits
  | forced _ => exact ⟨rfl, rfl⟩
  | @ended b status _ hends =>
    have hsame : SameDraw a.attempt b.attempt := by
      cases hends with
      | forced _ => exact ⟨rfl, rfl⟩
      | timedOut _ _ => exact ⟨rfl, rfl⟩
      | done _ hvisits => exact .visits hvisits
    exact ⟨hsame.questions, hsame.config⟩
  | submitted _ _ _ _ => exact ⟨rfl, rfl⟩

end

end SubmissionsChecker
