import SubmissionsChecker.Library.Table

/-! The queue of the teachers' review digests: `enqueue_teacher_review_notification` of
`workers/tasks/notification_tasks.py` fills it, `workers/scheduled/teacher_digest_processor.py` mails
it. A flush reads the queue once and then mails one teacher after the other, each in a transaction of
its own; other transactions come in between. Times are in microseconds. -/

namespace SubmissionsChecker.Digests

structure DigestUser where
  email : Option String
  isAdmin : Bool
  isActive : Bool

/-- A row of `teacher_notification_queue`. -/
structure TeacherNotification where
  teacherId : ℕ
  submissionId : ℕ
  createdAt : ℕ
  sentAt : Option ℕ

/-- `owners` has the owner of the subject of each submission. -/
structure DigestDb where
  users : List DigestUser
  owners : List (Option ℕ)
  queue : List TeacherNotification

structure DigestSettings where
  enabled : Bool
  windowSeconds : ℕ
  maxBatch : ℕ
  hasChannel : Bool

namespace DigestDb

variable (db : DigestDb)

/-- `_resolve_review_recipients` -/
def reviewRecipients (submissionId : ℕ) : List ℕ :=
  match ((db.owners[submissionId]?).join).filter fun owner => (db.users[owner]?).any (·.isActive) with
  | some owner => [owner]
  | none => Table.idsWhere (fun user => user.isAdmin && user.isActive) db.users

def queued (teacherId submissionId : ℕ) : Bool :=
  db.queue.any fun row => row.teacherId == teacherId && row.submissionId == submissionId

/-- `INSERT … ON CONFLICT DO NOTHING` -/
def insertNotification (submissionId now : ℕ) (db : DigestDb) (teacherId : ℕ) : DigestDb :=
  if db.queued teacherId submissionId then db
  else { db with queue := db.queue ++ [⟨teacherId, submissionId, now, none⟩] }

/-- `enqueue_teacher_review_notification` -/
def enqueueReview (submissionId now : ℕ) : DigestDb :=
  (db.reviewRecipients submissionId).foldl (insertNotification submissionId now) db

/-- What `teacher_id, created_at` orders by. -/
def orderKey (i : ℕ) : ℕ × ℕ := ((db.queue[i]?).elim (0, 0) fun row => (row.teacherId, row.createdAt))

def teacherOf (i : ℕ) : ℕ := (db.orderKey i).1

/-- The unsent entries, as the query orders them. -/
def unsent : List ℕ :=
  (Table.idsWhere (fun row => row.sentAt.isNone) db.queue).mergeSort fun i j =>
    decide ((db.orderKey i).1 < (db.orderKey j).1 ∨ (db.orderKey i).1 = (db.orderKey j).1 ∧
      (db.orderKey i).2 ≤ (db.orderKey j).2)

def emailOf (teacherId : ℕ) : Option String := ((db.users[teacherId]?).bind (·.email)).filter (· ≠ "")

end DigestDb

/-- What a flush has read of a teacher: the entries in their order, the oldest one's time and the email. -/
structure TeacherEntries where
  teacherId : ℕ
  entries : List ℕ
  oldest : ℕ
  email : Option String

def DigestDb.entriesOf (db : DigestDb) (teacherId : ℕ) : TeacherEntries :=
  let entries := db.unsent.filter fun i => db.teacherOf i == teacherId
  { teacherId := teacherId
    entries := entries
    oldest := (entries.head?.elim 0 fun i => (db.orderKey i).2)
    email := db.emailOf teacherId }

/-- `by_teacher` -/
def DigestDb.byTeacher (db : DigestDb) : List TeacherEntries :=
  ((db.unsent.map db.teacherOf).eraseDups).map db.entriesOf

/-- `len(entries) >= max_batch or age >= window_seconds` -/
def TeacherEntries.ready (settings : DigestSettings) (now : ℕ) (batch : TeacherEntries) : Bool :=
  decide (settings.maxBatch ≤ batch.entries.length) || decide (batch.oldest + settings.windowSeconds * 10 ^ 6 ≤ now)

/-- How a mail ends: sent, raised, or sent and then not recorded, which ends the flush. -/
inductive Mailing
  | sent | failed | lost
  deriving DecidableEq, Repr

structure Digest where
  teacherId : ℕ
  email : String
  entries : List ℕ

/-- A running flush, and how its mails will go. -/
structure Flush where
  now : ℕ
  todo : List TeacherEntries
  mailing : ℕ → Mailing

/-- `recorded` has the digests whose rows are stamped, `unrecorded` those that went out all the same. -/
structure DigestState where
  db : DigestDb
  flush : Option Flush
  recorded : List Digest
  unrecorded : List Digest

def stamp (entries : List ℕ) (now : ℕ) (queue : List TeacherNotification) : List TeacherNotification :=
  Table.updateWhere (fun i _ => entries.contains i) (fun row => { row with sentAt := some now }) queue

/-- One turn of the loop of `flush_teacher_digests`. -/
def DigestState.turn (settings : DigestSettings) (s : DigestState) : DigestState :=
  match s.flush with
  | none => s
  | some ⟨_, [], _⟩ => { s with flush := none }
  | some ⟨now, batch :: todo, mailing⟩ =>
    let rest := { s with flush := some ⟨now, todo, mailing⟩ }
    if !batch.ready settings now then rest
    else
      match batch.email with
      | none => rest
      | some email =>
        let digest := ⟨batch.teacherId, email, batch.entries⟩
        match mailing batch.teacherId with
        | .failed => rest
        | .lost => { s with flush := none, unrecorded := s.unrecorded ++ [digest] }
        | .sent =>
          { s with
            db := { s.db with queue := stamp batch.entries now s.db.queue }
            flush := some ⟨now, todo, mailing⟩
            recorded := s.recorded ++ [digest] }

/-- `others` is what other services write of users and submissions; `crash` ends the process. -/
inductive DigestOp
  | enqueue (submissionId now : ℕ)
  | others (users : List DigestUser) (owners : List (Option ℕ))
  | start (now : ℕ) (mailing : ℕ → Mailing)
  | turn
  | crash

/-- The advisory lock lets one flush run at a time. -/
def DigestState.step (settings : DigestSettings) (s : DigestState) : DigestOp → DigestState
  | .enqueue submissionId now => { s with db := s.db.enqueueReview submissionId now }
  | .others users owners => { s with db := { s.db with users := users, owners := owners } }
  | .start now mailing =>
    if s.flush.isSome || !settings.enabled || !settings.hasChannel then s
    else { s with flush := some ⟨now, s.db.byTeacher, mailing⟩ }
  | .turn => s.turn settings
  | .crash => { s with flush := none }

end SubmissionsChecker.Digests
