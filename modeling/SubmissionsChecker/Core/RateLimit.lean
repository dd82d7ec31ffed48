import SubmissionsChecker.Library.Assoc
import Mathlib.Order.Lattice

/-! `core/rate_limit.py`: the throttle of the login, with the calls it takes one by one under its lock. -/

namespace SubmissionsChecker

/-- `cutoff now` is `now - self._window`, exact or rounded. -/
structure SlidingWindowLimiter (Time : Type*) [LinearOrder Time] where
  maxAttempts : ℤ
  cutoff : Time → Time
  cutoff_mono : Monotone cutoff

/-- `_events`: a deque a key, its left end first. -/
abbrev LimiterEvents (Time : Type*) := List (String × List Time)

/-- A call, with what the clock says where it is asked. -/
inductive LimiterCall (Time : Type*)
  | isBlocked (key : String) (now : Time)
  | recordFailure (key : String) (now : Time)
  | reset (key : String)

namespace LimiterEvents

variable {Time : Type*}

def queue (events : LimiterEvents Time) (key : String) : List Time := (events.lookup key).getD []

/-- `_events.pop(key, None)`. -/
def pop (events : LimiterEvents Time) (key : String) : LimiterEvents Time := events.filter fun e => e.1 != key

end LimiterEvents

namespace SlidingWindowLimiter

variable {Time : Type*} [LinearOrder Time] (limiter : SlidingWindowLimiter Time)

/-- The deque that `_prune` returns. -/
def pruned (events : LimiterEvents Time) (key : String) (now : Time) : List Time :=
  (events.queue key).dropWhile fun time => time ≤ limiter.cutoff now

/-- `_prune`. -/
def prune (events : LimiterEvents Time) (key : String) (now : Time) : LimiterEvents Time :=
  Assoc.set key (limiter.pruned events key now) events

/-- `is_blocked`, with what it leaves of the deques. -/
def isBlocked (events : LimiterEvents Time) (key : String) (now : Time) : Bool × LimiterEvents Time :=
  (decide (limiter.maxAttempts ≤ (limiter.pruned events key now).length), limiter.prune events key now)

/-- `record_failure`. -/
def recordFailure (events : LimiterEvents Time) (key : String) (now : Time) : LimiterEvents Time :=
  Assoc.set key (limiter.pruned events key now ++ [now]) events

def step (events : LimiterEvents Time) : LimiterCall Time → LimiterEvents Time
  | .isBlocked key now => (limiter.isBlocked events key now).2
  | .recordFailure key now => limiter.recordFailure events key now
  | .reset key => events.pop key

/-- The deques after calls on a new limiter. -/
def after (calls : List (LimiterCall Time)) : LimiterEvents Time := calls.foldl limiter.step []

/-- What `is_blocked` answers after calls. -/
def answer (calls : List (LimiterCall Time)) (key : String) (now : Time) : Bool :=
  (limiter.isBlocked (limiter.after calls) key now).1

end SlidingWindowLimiter

end SubmissionsChecker
