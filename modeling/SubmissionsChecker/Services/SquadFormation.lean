import SubmissionsChecker.Library.Table
import SubmissionsChecker.Services.QuizOpen

/-! `services/squads.py` and `api/routes/student_squads.py`: forming a squad. A deleted squad
keeps its place in the table with no members and no open invitation, which no look-up finds. The
creator of a squad is the inviter of each of its invitations. -/

namespace SubmissionsChecker

/-- The reason of a `SquadError`. -/
inductive SquadError
  | disabled | notEnrolled | testStudent | alreadyInSquad | hasSubmissions | squadLocked | squadFull
  | notPending | notYours | duplicate | selfInvite | tooFew | tooMany
  deriving DecidableEq, Repr

def SquadInvite.close (inv : SquadInvite) : SquadInvite := { inv with isPending := false }

namespace Db

/-- `max_size`. -/
def maxSize (db : Db) (subjectId : ℕ) : Option ℕ := (db.subjects[subjectId]?).bind (·.squadMaxSize)

/-- `_has_submissions`. -/
def hasSubmissions (db : Db) (subjectId studentId : ℕ) : Bool :=
  db.submissions.any fun sub => (db.studentsAssignments[sub.studentsAssignmentId]?).any fun sa =>
    sa.studentId == studentId && (db.subjectsAssignments[sa.subjectsAssignmentId]?).any (·.subjectId == subjectId)

section

variable (isTest : ℕ → Bool)

/-- `eligibility`. `isTest` says which students are of type `TEST`. -/
def eligibility (db : Db) (subjectId studentId : ℕ) : Option SquadError :=
  if (db.maxSize subjectId).isNone then some .disabled
  else if (subjectId, studentId) ∉ db.subjectsStudents then some .notEnrolled
  else if isTest studentId then some .testStudent
  else if (db.squadOf subjectId studentId).isSome then some .alreadyInSquad
  else if db.hasSubmissions subjectId studentId then some .hasSubmissions
  else none

/-- The first student of a list that `_require_eligible` refuses. -/
def requireEligible (db : Db) (subjectId : ℕ) (studentIds : List ℕ) : Option SquadError :=
  studentIds.findSome? (db.eligibility isTest subjectId)

end

/-- A PENDING invitation of squad `q` is left. -/
def hasPending (db : Db) (q : ℕ) : Bool := db.squadInvites.any fun inv => inv.squadId == q && inv.isPending

/-- A PENDING invitation to or from the student in the subject. -/
def isPendingOf (db : Db) (subjectId studentId : ℕ) (inv : SquadInvite) : Bool :=
  inv.isPending && ((db.squads[inv.squadId]?).any fun s => s.subjectId == subjectId) &&
    (inv.invitedStudentId == studentId || inv.invitedByStudentId == some studentId)

/-- The invitations with these ids leave the PENDING state. -/
def closeInvites (db : Db) (ids : List ℕ) : Db :=
  { db with squadInvites := db.squadInvites.mapIdx fun i inv => if i ∈ ids then inv.close else inv }

/-- `_delete_if_empty`: one member at most, nobody invited and not locked. -/
def deleteIfEmpty (db : Db) (q : ℕ) : Db :=
  { db with squads := db.squads.modify q fun s =>
      if s.members.length ≤ 1 ∧ db.hasPending q = false ∧ s.lockedAt = none then { s with members := [] } else s }

/-- `_cancel_pending_of`. The squad of the excluded invitation is not judged. -/
def cancelPendingOf (db : Db) (subjectId studentId : ℕ) (exclude : Option ℕ) : Db :=
  let cancelled := (Table.idsWhere (db.isPendingOf subjectId studentId) db.squadInvites).filter (some · ≠ exclude)
  let squadOfInvite := fun i : ℕ => (db.squadInvites[i]?).map (·.squadId)
  let affected := (cancelled.filterMap squadOfInvite).filter (some · ≠ exclude.bind squadOfInvite)
  affected.foldl deleteIfEmpty (db.closeInvites cancelled)

/-- The rows `create_with_invites` adds. -/
def addCreated (db : Db) (subjectId creatorId : ℕ) (inviteeIds : List ℕ) : Db :=
  { db with
    squads := db.squads ++ [{ subjectId, members := [creatorId] }]
    squadInvites := db.squadInvites ++ inviteeIds.map fun invitedStudentId =>
      { squadId := db.squads.length, invitedStudentId, invitedByStudentId := some creatorId, isPending := true } }

/-- `squad.members.append`. -/
def addMember (db : Db) (q studentId : ℕ) : Db :=
  { db with squads := db.squads.modify q fun s => { s with members := s.members ++ [studentId] } }

/-- What `accept_invite` writes before it judges the squad full. -/
def joined (db : Db) (q subjectId studentId inviteId : ℕ) : Db :=
  ((db.addMember q studentId).cancelPendingOf subjectId studentId (some inviteId)).closeInvites [inviteId]

/-- The squad is full: it locks, and what is still PENDING is cancelled. -/
def lockFull (db : Db) (q : ℕ) : Db :=
  (db.lockOnSubmit q).closeInvites (Table.idsWhere (fun inv => inv.squadId == q && inv.isPending) db.squadInvites)

/-- What `teacher_assign` writes. -/
def addAssigned (db : Db) (subjectId : ℕ) (studentIds : List ℕ) : Db :=
  studentIds.foldl (fun db t => db.cancelPendingOf subjectId t none)
    { db with squads := db.squads ++ [{ subjectId, members := studentIds, lockedAt := some db.now }] }

/-- `_load_invite`: an invitation still PENDING, with its squad. -/
def loadInvite (db : Db) (inviteId : ℕ) : Except SquadError (SquadInvite × Squad) :=
  match (db.squadInvites[inviteId]?).bind fun inv => (db.squads[inv.squadId]?).map (inv, ·) with
  | none => .error .notPending
  | some found => if found.1.isPending then .ok found else .error .notPending

section

variable (isTest : ℕ → Bool)

/-- `create_with_invites`. -/
def createWithInvites (db : Db) (subjectId creatorId : ℕ) (inviteeIds : List ℕ) : Except SquadError Db :=
  match db.maxSize subjectId with
  | none => .error .disabled
  | some size =>
    if ¬ inviteeIds.Nodup then .error .duplicate
    else if creatorId ∈ inviteeIds then .error .selfInvite
    else if inviteeIds = [] then .error .tooFew
    else if size - 1 < inviteeIds.length then .error .tooMany
    else
      match db.requireEligible isTest subjectId (creatorId :: inviteeIds) with
      | some reason => .error reason
      | none =>
        .ok (db.addCreated subjectId creatorId inviteeIds)

/-- Why `accept_invite` refuses a student: the eligibility, then the state of the squad. -/
def acceptRefusal (db : Db) (squad : Squad) (studentId : ℕ) : Option SquadError :=
  (db.eligibility isTest squad.subjectId studentId).or
    (if squad.lockedAt.isSome then some .squadLocked
     else if (db.maxSize squad.subjectId).getD 0 ≤ squad.members.length then some .squadFull
     else none)

/-- `accept_invite`: what it leaves in the session, and why it refused. -/
def acceptInvite (db : Db) (inviteId studentId : ℕ) : Db × Option SquadError :=
  match db.loadInvite inviteId with
  | .error reason => (db, some reason)
  | .ok (inv, squad) =>
    if inv.invitedStudentId ≠ studentId then (db, some .notYours)
    else
      match db.acceptRefusal isTest squad studentId with
      | some reason => (db.closeInvites [inviteId], some reason)
      | none =>
        let db₁ := db.joined inv.squadId squad.subjectId studentId inviteId
        (if (db.maxSize squad.subjectId).getD 0 ≤ squad.members.length + 1 then db₁.lockFull inv.squadId else db₁, none)

/-- `teacher_assign`. -/
def teacherAssign (db : Db) (subjectId : ℕ) (studentIds : List ℕ) : Except SquadError Db :=
  match db.maxSize subjectId with
  | none => .error .disabled
  | some size =>
    if ¬ studentIds.Nodup then .error .duplicate
    else if studentIds.length < 2 then .error .tooFew
    else if size < studentIds.length then .error .tooMany
    else
      match db.requireEligible isTest subjectId studentIds with
      | some reason => .error reason
      | none =>
        .ok (db.addAssigned subjectId studentIds)

end

/-- `decline_invite`. -/
def declineInvite (db : Db) (inviteId studentId : ℕ) : Except SquadError Db :=
  match db.loadInvite inviteId with
  | .error reason => .error reason
  | .ok (inv, _) =>
    if inv.invitedStudentId ≠ studentId then .error .notYours
    else .ok ((db.closeInvites [inviteId]).deleteIfEmpty inv.squadId)

/-- `cancel_invite`, by the creator of the squad. -/
def cancelInvite (db : Db) (inviteId studentId : ℕ) : Except SquadError Db :=
  match db.loadInvite inviteId with
  | .error reason => .error reason
  | .ok (inv, _) =>
    if inv.invitedByStudentId ≠ some studentId then .error .notYours
    else .ok ((db.closeInvites [inviteId]).deleteIfEmpty inv.squadId)

/-- `_answer` up to the service call: the student is enrolled and the invitation is of the subject. -/
def answersInvite (db : Db) (subjectId studentId inviteId : ℕ) : Bool :=
  decide ((subjectId, studentId) ∈ db.subjectsStudents) &&
    ((db.squadInvites[inviteId]?).bind fun inv => db.squads[inv.squadId]?).any (·.subjectId == subjectId)

end Db

/-- The requests that form squads. -/
inductive SquadOp
  | create (subject creator : ℕ) (invitees : List ℕ)
  | accept (subject student invite : ℕ)
  | decline (subject student invite : ℕ)
  | cancel (subject student invite : ℕ)
  | assign (subject : ℕ) (students : List ℕ)
  deriving DecidableEq, Repr

/-- What a request leaves committed: a refused accept keeps what it wrote, any other is rolled back. -/
def Db.squadStep (isTest : ℕ → Bool) (db : Db) : SquadOp → Db
  | .create subject creator invitees =>
    if (subject, creator) ∈ db.subjectsStudents then
      (db.createWithInvites isTest subject creator invitees).toOption.getD db
    else db
  | .accept subject student invite =>
    if db.answersInvite subject student invite then (db.acceptInvite isTest invite student).1 else db
  | .decline subject student invite =>
    if db.answersInvite subject student invite then (db.declineInvite invite student).toOption.getD db else db
  | .cancel subject student invite =>
    if db.answersInvite subject student invite then (db.cancelInvite invite student).toOption.getD db else db
  | .assign subject students => (db.teacherAssign isTest subject students).toOption.getD db

/-! ## Accepting an invite

`accept_invite` of `services/squads.py`, with the status of each invitation and the session it runs in, which does
not flush by itself (`core/database.py`). A deleted row is `none`. Who is eligible is an input. -/

open UnitOfWork

inductive SquadInviteStatus
  | pending | accepted | declined | cancelled
  deriving DecidableEq, Repr

/-- A row of `squad_invites`. -/
structure InviteRow where
  squadId : ℕ
  invitedStudentId : ℕ
  invitedByStudentId : Option ℕ
  status : SquadInviteStatus
  deriving DecidableEq, Repr

/-- The tables, as committed. -/
structure SquadTables where
  squads : List (Option Squad)
  invites : List (Option InviteRow)
  deriving DecidableEq, Repr

/-- They as a session sees them; a squad is only changed where a flush follows. -/
structure SquadSession where
  squads : List (Option Squad)
  invites : Session (Option InviteRow)

/-- `inv.status = ...`. -/
def setStatus (status : SquadInviteStatus) : Option InviteRow → Option InviteRow := Option.map ({ · with status })

def InviteRow.isPendingIn (q : ℕ) (inv : InviteRow) : Bool := inv.squadId == q && inv.status == .pending

namespace SquadSession

def squad (s : SquadSession) (q : ℕ) : Option Squad := (s.squads[q]?).join

/-- The invitation `i`, as it stands in memory. -/
def invite (s : SquadSession) (i : ℕ) : Option InviteRow := (s.invites.current[i]?).join

/-- A PENDING invitation to or from the student in the subject. -/
def isPendingOf (s : SquadSession) (subjectId studentId : ℕ) (inv : InviteRow) : Bool :=
  inv.status == .pending && (s.squad inv.squadId).any (·.subjectId == subjectId) &&
    (inv.invitedStudentId == studentId || inv.invitedByStudentId == some studentId)

/-- The PENDING invitations of the squad, as stored. -/
def pendingIn (s : SquadSession) (q : ℕ) : List ℕ := s.invites.select fun row => row.any (InviteRow.isPendingIn q)

/-- `_delete_if_empty` deletes. -/
def isEmptied (s : SquadSession) (q : ℕ) : Bool :=
  (s.squad q).any fun squad => decide (squad.members.length ≤ 1) && (s.pendingIn q).isEmpty && squad.lockedAt.isNone

/-- `_delete_if_empty`: the squad goes with its invitations. -/
def deleteIfEmpty (s : SquadSession) (q : ℕ) : SquadSession :=
  if s.isEmptied q then
    { squads := s.squads.set q none
      invites := (s.invites.update (s.invites.select fun row => row.any fun inv => inv.squadId == q) fun _ => none).flush }
  else s

/-- The squads of the invitations `ids`, each once. -/
def squadsOf (s : SquadSession) (ids : List ℕ) : List ℕ := (ids.filterMap fun i => (s.invite i).map (·.squadId)).dedup

/-- `_cancel_pending_of`, for the student who joins the squad of the invitation `exclude`. -/
def cancelPendingOf (s : SquadSession) (subjectId studentId exclude : ℕ) : SquadSession :=
  let found := (s.invites.select fun row => row.any (s.isPendingOf subjectId studentId)).filter (· ≠ exclude)
  let cancelled := { s with invites := (s.invites.update found (setStatus .cancelled)).flush }
  ((s.squadsOf found).filter fun q => some q ≠ (s.invite exclude).map (·.squadId)).foldl deleteIfEmpty cancelled

/-- `squad.members.append`, and the flush. -/
def addMember (s : SquadSession) (q studentId : ℕ) : SquadSession :=
  { squads := s.squads.modify q (Option.map fun squad => { squad with members := squad.members ++ [studentId] })
    invites := s.invites.flush }

/-- The squad is full: it is locked, and the invitations a query still finds PENDING are cancelled. -/
def lockFull (s : SquadSession) (q now : ℕ) : SquadSession :=
  { squads := s.squads.modify q (Option.map fun squad => { squad with lockedAt := some now })
    invites := s.invites.update (s.pendingIn q) (setStatus .cancelled) }

end SquadSession

namespace SquadTables

/-- The session that begins with these tables. -/
def session (t : SquadTables) : SquadSession := ⟨t.squads, Session.load t.invites⟩

def squad (t : SquadTables) (q : ℕ) : Option Squad := t.session.squad q

def invite (t : SquadTables) (i : ℕ) : Option InviteRow := t.session.invite i

end SquadTables

open SquadSession

/-- `_load_invite`: an invitation still PENDING, with its squad. -/
def SquadTables.loadInvite (t : SquadTables) (inviteId : ℕ) : Except SquadError (InviteRow × Squad) :=
  match (t.invite inviteId).bind fun inv => (t.squad inv.squadId).map (inv, ·) with
  | none => .error .notPending
  | some found => if found.1.status = .pending then .ok found else .error .notPending

/-- Why a student who is eligible cannot join. -/
def Squad.refusal (squad : Squad) (size : ℕ) : Option SquadError :=
  if squad.lockedAt.isSome then some .squadLocked
  else if size ≤ squad.members.length then some .squadFull
  else none

/-- What `accept_invite` writes, once nothing refuses it. -/
def SquadTables.join (t : SquadTables) (size now inviteId studentId : ℕ) (inv : InviteRow) (squad : Squad) : SquadTables :=
  let joined := t.session.addMember inv.squadId studentId
  let swept := joined.cancelPendingOf squad.subjectId studentId inviteId
  let marked := { swept with invites := swept.invites.update [inviteId] (setStatus .accepted) }
  let settled := if size ≤ squad.members.length + 1 then marked.lockFull inv.squadId now else marked
  ⟨settled.squads, settled.invites.flush.stored⟩

/-- `accept_invite`. A refusal cancels the invitation; `ineligible` is what `eligibility` says of a student. -/
def SquadTables.acceptInvite (t : SquadTables) (ineligible : ℕ → ℕ → Option SquadError) (maxSize : ℕ → Option ℕ)
    (now inviteId studentId : ℕ) : SquadTables × Option SquadError :=
  match t.loadInvite inviteId with
  | .error reason => (t, some reason)
  | .ok (inv, squad) =>
    if inv.invitedStudentId ≠ studentId then (t, some .notYours)
    else
      let size := (maxSize squad.subjectId).getD 0
      match (ineligible squad.subjectId studentId).or (squad.refusal size) with
      | some reason => ({ t with invites := t.invites.modify inviteId (setStatus .cancelled) }, some reason)
      | none => (t.join size now inviteId studentId inv squad, none)

end SubmissionsChecker
