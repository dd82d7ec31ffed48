import SubmissionsChecker.Library.Binary64
import SubmissionsChecker.Library.ReadCommitted
import SubmissionsChecker.Library.Table

/-! `services/google/sync_runs.py`: the row of a manual sync, from the request that starts it to the
background task that keeps it alive and closes it. A task killed with its process only stops writing. -/

namespace SubmissionsChecker

open ReadCommitted

inductive ClassroomSyncStatus
  | running | done | failed
  deriving DecidableEq, Repr

/-- `SyncProgress`. -/
structure SyncProgress where
  assignmentsTotal : ℕ := 0
  assignmentsDone : ℕ := 0
  submissionsTotal : ℕ := 0
  submissionsDone : ℕ := 0
  newVersions : ℕ := 0
  errors : ℕ := 0
  deriving DecidableEq, Repr

structure ClassroomSyncRun where
  subjectId : ℕ
  startedBy : ℕ
  status : ClassroomSyncStatus := .running
  error : Option String := none
  progress : SyncProgress := {}
  heartbeatAt : ℕ
  finishedAt : Option ℕ := none
  deriving DecidableEq, Repr

/-- `STALE_AFTER`, in seconds. -/
def syncStaleAfter : ℕ := 5 * 60

/-- `is_stale`. -/
def ClassroomSyncRun.isStale (run : ClassroomSyncRun) (now : ℕ) : Bool :=
  run.status == .running && decide (syncStaleAfter < now - run.heartbeatAt)

/-- What the panel calls a run. -/
inductive ShownStatus
  | interrupted | running | done | failed
  deriving DecidableEq, Repr

/-- `payload`, its `status` and `error`. -/
def ClassroomSyncRun.shown (run : ClassroomSyncRun) (now : ℕ) : ShownStatus × Option String :=
  if run.isStale now then (.interrupted, none)
  else match run.status with
    | .running => (.running, run.error)
    | .done => (.done, run.error)
    | .failed => (.failed, run.error)

/-- `classroom_sync_runs`, and the clock. -/
structure SyncRuns where
  runs : List ClassroomSyncRun := []
  now : ℕ := 0
  deriving DecidableEq, Repr

namespace SyncRuns

/-- The rows `start` selects. -/
def runningIds (s : SyncRuns) (subjectId : ℕ) : List ℕ :=
  Table.idsWhere (fun run => run.subjectId == subjectId && run.status == .running) s.runs

/-- The commit of `start`: the stale rows it holds are closed and its own is added. -/
def insertRun (subjectId userId now : ℕ) (stale : List ℕ) (s : SyncRuns) : SyncRuns :=
  let closed := Table.updateWhere (fun i _ => decide (i ∈ stale))
    ({ · with status := .failed, error := some "interrupted", finishedAt := some now }) s.runs
  { s with runs := closed ++ [{ subjectId, startedBy := userId, heartbeatAt := now }] }

end SyncRuns

/-- What `_update` is called with: a progress tick, or how the task ended. -/
inductive SyncFields
  | progress (p : SyncProgress)
  | finished (error : Option String) (finishedAt : ℕ)
  deriving DecidableEq, Repr

/-- `setattr` on the loaded row, then the heartbeat. -/
def SyncFields.set (fields : SyncFields) (now : ℕ) (run : ClassroomSyncRun) : ClassroomSyncRun :=
  match fields with
  | progress p => { run with progress := p, heartbeatAt := now }
  | finished error finishedAt =>
    { run with status := if error.isSome then .failed else .done, error, finishedAt := some finishedAt
               heartbeatAt := now }

/-- A column is written when the session changed it. -/
def changedOr {α : Type*} [DecidableEq α] (loaded new row : α) : α := if new = loaded then row else new

/-- The `UPDATE` of a row loaded as `loaded` and left as `new`. -/
def ClassroomSyncRun.write (loaded new row : ClassroomSyncRun) : ClassroomSyncRun :=
  { row with
    status := changedOr loaded.status new.status row.status
    error := changedOr loaded.error new.error row.error
    heartbeatAt := changedOr loaded.heartbeatAt new.heartbeatAt row.heartbeatAt
    finishedAt := changedOr loaded.finishedAt new.finishedAt row.finishedAt
    progress :=
      { assignmentsTotal := changedOr loaded.progress.assignmentsTotal new.progress.assignmentsTotal
          row.progress.assignmentsTotal
        assignmentsDone := changedOr loaded.progress.assignmentsDone new.progress.assignmentsDone
          row.progress.assignmentsDone
        submissionsTotal := changedOr loaded.progress.submissionsTotal new.progress.submissionsTotal
          row.progress.submissionsTotal
        submissionsDone := changedOr loaded.progress.submissionsDone new.progress.submissionsDone
          row.progress.submissionsDone
        newVersions := changedOr loaded.progress.newVersions new.progress.newVersions row.progress.newVersions
        errors := changedOr loaded.progress.errors new.progress.errors row.progress.errors } }

/-- Where a `start` or an `_update` stands. -/
inductive SyncSession
  | asked (subjectId userId : ℕ)
  /-- `now` is taken before the rows are selected. -/
  | clocked (subjectId userId now : ℕ)
  /-- Selected rows still to lock, and those held that were still running. -/
  | locking (subjectId userId now : ℕ) (todo : List ℕ) (held : List (ℕ × ClassroomSyncRun))
  | started (subjectId : ℕ)
  | refused
  | updating (run : ℕ) (fields : SyncFields)
  | loaded (run : ℕ) (fields : SyncFields) (row : ClassroomSyncRun)
  | stamped (run : ℕ) (loaded new : ClassroomSyncRun)
  /-- The commit has the run's row. -/
  | flushing (run : ℕ) (loaded new : ClassroomSyncRun)
  | ended
  deriving DecidableEq, Repr

namespace SyncSession

/-- `FOR UPDATE` reads the row again once it has it, and drops it when it is no longer running. -/
def hold (i : ℕ) (held : List (ℕ × ClassroomSyncRun)) (s : SyncRuns) : List (ℕ × ClassroomSyncRun) :=
  match s.runs[i]? with
  | none => held
  | some run => if run.status = .running then held ++ [(i, run)] else held

def next : SyncSession → Stmt SyncRuns SyncSession ℕ
  | asked subjectId userId => .read fun s => .clocked subjectId userId s.now
  | clocked subjectId userId now => .read fun s => .locking subjectId userId now (s.runningIds subjectId) []
  | locking subjectId userId now (i :: todo) held =>
    .lock i fun s => .locking subjectId userId now todo (hold i held s)
  | locking subjectId userId now [] held =>
    if held.all (·.2.isStale now) then
      .commit (SyncRuns.insertRun subjectId userId now (held.map (·.1))) (.started subjectId)
    else .rollback .refused
  | started _ => .done
  | refused => .done
  | updating i fields => .read fun s =>
    match s.runs[i]? with
    | none => .ended
    | some row => .loaded i fields row
  | loaded i fields row => .read fun s => .stamped i row (fields.set s.now row)
  | stamped i row new => .lock i fun _ => .flushing i row new
  | flushing i row new => .commit (fun s => { s with runs := s.runs.modify i (row.write new) }) .ended
  | ended => .done

end SyncSession

/-- Time passes. -/
def SyncRuns.tick (seconds : ℕ) (s : SyncRuns) : SyncRuns := { s with now := s.now + seconds }

end SubmissionsChecker

/-! ## Progress

The progress of a Classroom sync: `ingest_subject` of `services/google/ingest.py` reports it, `payload` of
`services/google/sync_runs.py` makes a percentage of it. What Google and `_ingest_submission` answer is an input. -/

namespace SubmissionsChecker

namespace ClassroomSync

/-- How `_ingest_submission` ends; `revoked` is an `invalid_grant`. -/
inductive Ingested
  | newVersion | unchanged | failed | revoked
  deriving DecidableEq, Repr

structure SubmissionRef where
  state : String
  files : List String
  ingested : Ingested
  deriving DecidableEq, Repr

/-- How `list_submissions` ends. -/
inductive Listing
  | listed (submissions : List SubmissionRef)
  | failed
  | revoked
  deriving DecidableEq, Repr

/-- `KEPT_STATES`. -/
def keptStates : List String := ["TURNED_IN", "RETURNED"]

/-- `kept`. -/
def kept (submissions : List SubmissionRef) : List SubmissionRef :=
  submissions.filter fun sub => keptStates.contains sub.state && !sub.files.isEmpty

/-- What of `IngestReport` is reported on the way. -/
structure IngestReport where
  newVersions : ℕ := 0
  errors : ℕ := 0

def IngestReport.count (report : IngestReport) : Ingested → IngestReport
  | .newVersion => { report with newVersions := report.newVersions + 1 }
  | .failed => { report with errors := report.errors + 1 }
  | _ => report

/-- `progress`. -/
def IngestReport.progress (report : IngestReport) (total done subsTotal subsDone : ℕ) : SyncProgress :=
  ⟨total, done, subsTotal, subsDone, report.newVersions, report.errors⟩

/-- An update; `pending` says that an assignment or a submission is still to be processed after it. -/
structure Tick where
  progress : SyncProgress
  pending : Bool
  deriving DecidableEq, Repr

/-- The loop over the kept submissions of an assignment; none where it raises. -/
def submissionTicks (later : Bool) (total index subsTotal : ℕ) :
    ℕ → IngestReport → List SubmissionRef → List Tick × Option IngestReport
  | _, report, [] => ([], some report)
  | done, report, sub :: rest =>
    if sub.ingested = .revoked then ([], none)
    else
      let report := report.count sub.ingested
      let (ticks, final) := submissionTicks later total index subsTotal (done + 1) report rest
      (⟨report.progress total index subsTotal (done + 1), later || !rest.isEmpty⟩ :: ticks, final)

/-- The loop over the assignments. -/
def assignmentTicks (total : ℕ) : ℕ → IngestReport → List Listing → List Tick
  | _, _, [] => []
  | _, _, .revoked :: _ => []
  | index, report, .failed :: rest =>
    let report := { report with errors := report.errors + 1 }
    ⟨report.progress total (index + 1) 0 0, !rest.isEmpty⟩ :: assignmentTicks total (index + 1) report rest
  | index, report, .listed submissions :: rest =>
    let subs := kept submissions
    let (ticks, final) := submissionTicks (!rest.isEmpty) total index subs.length 0 report subs
    ⟨report.progress total index subs.length 0, !rest.isEmpty || !subs.isEmpty⟩ :: ticks ++
      match final with
      | none => []
      | some report =>
        ⟨report.progress total (index + 1) subs.length subs.length, !rest.isEmpty⟩ ::
          assignmentTicks total (index + 1) report rest

/-- The updates of `ingest_subject`. -/
def ingestTicks (assignments : List Listing) : List Tick :=
  ⟨IngestReport.progress {} assignments.length 0 0 0, !assignments.isEmpty⟩ ::
    assignmentTicks assignments.length 0 {} assignments

/-- `100 * (done + part) / total` in floats; the counts themselves are exact in them, being below `2^53`. -/
def percentFloat (total done : ℕ) (part : ℚ) : ℚ :=
  Binary64.nearest (Binary64.nearest (100 * Binary64.nearest (done + part)) / total)

/-- The percentage of progress, as `payload` computes it. -/
def percentOf (p : SyncProgress) : ℤ :=
  let part := if p.submissionsTotal = 0 then 0 else Binary64.nearest ((p.submissionsDone : ℚ) / p.submissionsTotal)
  if p.assignmentsTotal = 0 then 0 else Rounding.halfEven (percentFloat p.assignmentsTotal p.assignmentsDone part)

/-- `payload`, its `percent`. -/
def payloadPercent (run : ClassroomSyncRun) (now : ℕ) : ℤ :=
  min (if (run.shown now).1 = .done then 100 else percentOf run.progress) 100

/-- The row of a running sync after an update. -/
def updated (run : ClassroomSyncRun) (p : SyncProgress) : ClassroomSyncRun :=
  { run with status := .running, progress := p }

end ClassroomSync

end SubmissionsChecker
