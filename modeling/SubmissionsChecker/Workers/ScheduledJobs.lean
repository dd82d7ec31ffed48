import SubmissionsChecker.Library.PooledSession

/-! `workers/scheduled`: what the jobs that run under an advisory lock ask of their session. The
lock is tried first and released last, both by plain statements of the session. -/

namespace SubmissionsChecker

open Pooled

/-- One teacher of a digest run: not due or not reached, or mailed and marked. -/
inductive DigestStep
  | skipped
  | mailed (update commit : Bool)
  deriving DecidableEq, Repr

/-- A run of a job that has the lock; each `Bool` says whether that statement or commit goes through.
An exception of another kind ends a run early, with fewer statements and no commit. -/
inductive JobRun
  /-- `process_outbox_messages`: the batch, the statements and flushes of each handler, the commit. -/
  | outbox (select : Bool) (handlers : List (List Bool)) (commit : Bool)
  /-- `flush_teacher_digests`. -/
  | digest (channels : Bool) (select : Bool) (teachers : List DigestStep)
  /-- `run_deadline_reminders`. -/
  | reminders (queries : List Bool) (commit : Option Bool)
  deriving DecidableEq, Repr

def DigestStep.ops : DigestStep → List Pooled.Op
  | skipped => []
  | mailed update commit => [.statement update, .commit commit]

/-- What the run asks of the session between the lock and the unlock. Once the session refuses, the
exceptions the outbox loop swallows and those that end a job come to the same. -/
def JobRun.ops : JobRun → List Pooled.Op
  | outbox select handlers commit => .statement select :: handlers.flatten.map .statement ++ [.commit commit]
  | digest channels select teachers => if channels then .statement select :: teachers.flatMap (·.ops) else []
  | reminders queries commit => queries.map .statement ++ commit.toList.map .commit

variable {Conn : Type*}

/-- The session when the run comes to its `finally`. -/
def JobRun.session (run : JobRun) (pool : ℕ → Conn) : Session Conn :=
  run.ops.foldl (Session.exec pool) { conn := some (pool 0), checkouts := 1 }

/-- The lock after a run with these connections: `pg_try_advisory_lock`, the job, and in its `finally`
`pg_advisory_unlock`, which a session that refuses work does not execute. -/
def JobRun.lockAfter [DecidableEq Conn] (run : JobRun) (pool : ℕ → Conn) (lock : Lock Conn) : Lock Conn :=
  match lock.tryTake (pool 0) with
  | none => lock
  | some taken => if (run.session pool).refused then taken else taken.release ((run.session pool).next pool)

end SubmissionsChecker
