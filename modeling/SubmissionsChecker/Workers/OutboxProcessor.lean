import SubmissionsChecker.Db.Models
import Mathlib.Data.List.Sort

/-! `workers/scheduled/outbox_processor.py`: a run of the outbox processor. The handlers of a batch
share one session and its only commit; once a flush has failed the session refuses everything until
it is rolled back, `mark_error` of the message included. What the handlers write is a parameter. -/

namespace SubmissionsChecker

/-- The columns of `outbox_messages` that the processor reads and writes. -/
structure QueuedMessage where
  createdAt : ℕ
  state : OutboxMessageState := .pending
  retryCount : ℕ := 0
  errorMessage : Option String := none
  deriving DecidableEq, Repr

/-- `mark_finished`. -/
def QueuedMessage.markFinished (m : QueuedMessage) : QueuedMessage := { m with state := .finished }

/-- `mark_error`. -/
def QueuedMessage.markError (error : String) (m : QueuedMessage) : QueuedMessage :=
  { m with state := .error, retryCount := m.retryCount + 1, errorMessage := some error }

structure OutboxSettings where
  maxRetries : ℕ := 5
  batchSize : ℕ := 20
  deriving DecidableEq, Repr

/-- How a handler ends. -/
inductive HandlerEnd
  | returns
  | raises (error : String)
  | flushFails
  deriving DecidableEq, Repr

/-- What a handler does with the session: its writes until it ends, and the messages among them, by
their `created_at`. -/
structure HandlerRun (W : Type*) where
  writes : W → W := id
  enqueued : List ℕ := []
  ending : HandlerEnd := .returns

/-- One run: what the handler of each message does, and whether the commit, with its flush, goes through. -/
structure BatchRun (W : Type*) where
  handler : ℕ → HandlerRun W
  commits : Bool := true

/-- The messages, the other tables, and the record of the dispatches: which message, and whether its
handler returned. -/
structure OutboxState (W : Type*) where
  db : W
  messages : List QueuedMessage
  dispatched : List (ℕ × Bool) := []
  deriving DecidableEq

variable {W : Type*}

def QueuedMessage.due (settings : OutboxSettings) (m : QueuedMessage) : Bool :=
  (m.state == .pending || m.state == .error) && decide (m.retryCount < settings.maxRetries)

namespace OutboxState

def createdAt (s : OutboxState W) (i : ℕ) : ℕ := ((s.messages[i]?).map (·.createdAt)).getD 0

/-- The query of the batch: the messages that are due, the oldest first. -/
def batch (settings : OutboxSettings) (s : OutboxState W) : List ℕ :=
  (((List.range s.messages.length).filter fun i => (s.messages[i]?).any (·.due settings)).insertionSort
    fun i j => s.createdAt i ≤ s.createdAt j).take settings.batchSize

/-- The session after a handler ended and its message was marked. -/
def handled (run : BatchRun W) (i : ℕ) (mark : QueuedMessage → QueuedMessage) (s : OutboxState W) : OutboxState W :=
  { s with
    db := (run.handler i).writes s.db
    messages := (s.messages ++ (run.handler i).enqueued.map fun createdAt => ({ createdAt } : QueuedMessage)).modify i mark }

/-- The loop over the batch; `none` once a flush has failed. -/
def dispatchAll (run : BatchRun W) : List ℕ → OutboxState W → Option (OutboxState W)
  | [], s => some s
  | i :: rest, s =>
    match (run.handler i).ending with
    | .returns => dispatchAll run rest (s.handled run i (·.markFinished))
    | .raises error => dispatchAll run rest (s.handled run i (·.markError error))
    | .flushFails => none

/-- The dispatches the loop makes. -/
def dispatches (run : BatchRun W) : List ℕ → List (ℕ × Bool)
  | [] => []
  | i :: rest =>
    match (run.handler i).ending with
    | .returns => (i, true) :: dispatches run rest
    | .raises _ => (i, false) :: dispatches run rest
    | .flushFails => [(i, false)]

/-- `process_outbox_messages`: a run whose commit does not go through is rolled back. -/
def process (settings : OutboxSettings) (s : OutboxState W) (run : BatchRun W) : OutboxState W :=
  let s' := match dispatchAll run (s.batch settings) s with
    | some t => if run.commits then t else s
    | none => s
  { s' with dispatched := s.dispatched ++ dispatches run (s.batch settings) }

end OutboxState

end SubmissionsChecker
