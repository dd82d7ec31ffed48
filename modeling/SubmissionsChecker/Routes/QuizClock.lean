import SubmissionsChecker.Core.Yaml
import SubmissionsChecker.Routes.StudentQuiz

/-! The clocks of an attempt (`api/routes/student_quiz.py`): the elapsed time, the windows of a stepped attempt and
what stops them. Times are exact, in seconds; `now` is what `_utcnow()` gives. -/

namespace SubmissionsChecker

/-- `QUESTION_GRACE_SECONDS`. -/
def questionGraceSeconds : ℕ := 5

/-- An attempt with the columns its clocks are read from. -/
structure TimedAttempt where
  attempt : QuizAttempt
  startedAt : ℚ := 0
  questionStartedAt : Option ℚ := none
  pausedAt : Option ℚ := none
  pausedSeconds : ℤ := 0
  timeLimitMinutes : Option ℤ := none
  timePenaltySeconds : ℤ := 0
  deriving DecidableEq

namespace TimedAttempt

/-- `_open_pause_seconds`. -/
def openPauseSeconds (a : TimedAttempt) (now : ℚ) : ℚ :=
  match a.pausedAt with
  | none => 0
  | some pausedAt => now - pausedAt

/-- `_effective_now`. -/
def effectiveNow (a : TimedAttempt) (now : ℚ) : ℚ := now - a.openPauseSeconds now

/-- `_close_open_pause`. -/
def closeOpenPause (a : TimedAttempt) (now : ℚ) : TimedAttempt × ℤ :=
  if a.pausedAt.isNone then (a, 0)
  else
    let elapsed := truncate (a.openPauseSeconds now)
    ({ a with
        pausedSeconds := a.pausedSeconds + elapsed
        questionStartedAt := a.questionStartedAt.map fun start => start + elapsed
        pausedAt := none }, elapsed)

/-- `_elapsed_seconds`. -/
def elapsedSeconds (a : TimedAttempt) (now : ℚ) : ℚ := a.effectiveNow now - a.startedAt - a.pausedSeconds

/-- `time_limit_minutes`, without a zero. -/
def limitMinutes (a : TimedAttempt) : Option ℤ := a.timeLimitMinutes.filter (· != 0)

/-- `_is_timed_out`. -/
def isTimedOut (a : TimedAttempt) (now : ℚ) : Bool :=
  match a.limitMinutes with
  | none => false
  | some limit => decide (((limit * 60 - a.timePenaltySeconds : ℤ) : ℚ) < a.elapsedSeconds now)

/-- `_seconds_remaining`. -/
def secondsRemaining (a : TimedAttempt) (now : ℚ) : Option ℤ :=
  a.limitMinutes.map fun limit => max 0 (truncate ((limit * 60 - a.timePenaltySeconds : ℤ) - a.elapsedSeconds now))

/-- The limit of a question, without a zero. -/
def limitOf (q : QuestionSnapshot) : Option ℕ := q.timeLimitSeconds.filter (· != 0)

/-- `_question_seconds_remaining`. -/
def questionSecondsRemaining (a : TimedAttempt) (now : ℚ) : Option ℤ :=
  match a.attempt.currentQuestion.bind limitOf, a.questionStartedAt with
  | some limit, some start => some (max 0 ⌈(limit : ℚ) - (a.effectiveNow now - start)⌉)
  | _, _ => none

/-- A turn of the loop that burns a question; the next window starts when this one ended. -/
def expire (a : TimedAttempt) (q : QuestionSnapshot) (start : ℚ) (limit : ℕ) : TimedAttempt :=
  { a with attempt := a.attempt.burn q, questionStartedAt := some (start + limit) }

/-- The loop of `_advance_expired`, for at most `turns` turns. -/
def burnExpired (now : ℚ) : ℕ → TimedAttempt → TimedAttempt × ℕ
  | 0, a => (a, 0)
  | turns + 1, a =>
    match a.attempt.currentQuestion with
    | none => (a, 0)
    | some q =>
      match limitOf q with
      | none => (a, 0)
      | some limit =>
        match a.questionStartedAt with
        | none => ({ a with questionStartedAt := some now }, 0)
        | some start =>
          if now - start ≤ limit + questionGraceSeconds then (a, 0)
          else
            let (a', burned) := burnExpired now turns (a.expire q start limit)
            (a', burned + 1)

/-- `_advance_expired`: the loop takes at most a turn for each question there is. -/
def advanceExpired (a : TimedAttempt) (now : ℚ) : TimedAttempt × ℕ :=
  if a.pausedAt.isSome then (a, 0)
  else burnExpired (a.effectiveNow now) (a.attempt.questionsSnapshot.length + 1) a

/-- What `show_quiz` does to the clocks of a stepped attempt. -/
def showQuiz (a : TimedAttempt) (now : ℚ) : TimedAttempt :=
  if a.pausedAt.isSome then a
  else
    let a' := (a.advanceExpired now).1
    if a'.attempt.currentQuestion.isSome ∧ a'.questionStartedAt.isNone then { a' with questionStartedAt := some now } else a'

/-- What `answer_question` does to a stepped attempt. -/
def answer (a : TimedAttempt) (postedIndex : ℕ) (isRight : Bool) (now : ℚ) : TimedAttempt :=
  if a.pausedAt.isSome then a
  else
    let (a', burned) := a.advanceExpired now
    match a'.attempt.currentQuestion with
    | none => a'
    | some q =>
      if burned = 0 ∧ postedIndex = a'.attempt.currentIndex then
        { a' with
          attempt := { a'.attempt with
            answers := a'.attempt.answers ++ [gradeAnswer q isRight], currentIndex := a'.attempt.currentIndex + 1 }
          questionStartedAt := some now }
      else a'

/-- The `reduce_time` action: off the current question of a stepped attempt, else off the whole attempt. -/
def reduceTime (a : TimedAttempt) (penalty : ℤ) : TimedAttempt :=
  if a.attempt.configSnapshot.perQuestionTiming then
    { a with questionStartedAt := a.questionStartedAt.map fun start => start - penalty }
  else { a with timePenaltySeconds := a.timePenaltySeconds + penalty }

/-- What a granted pause request writes. -/
def pause (a : TimedAttempt) (now : ℚ) : TimedAttempt := if a.pausedAt.isSome then a else { a with pausedAt := some now }

/-- What `resume_after_air_raid` writes. -/
def resume (a : TimedAttempt) (now : ℚ) : TimedAttempt := (a.closeOpenPause now).1

end TimedAttempt

end SubmissionsChecker
