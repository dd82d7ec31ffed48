import SubmissionsChecker.Db.Classroom

/-! `services/google/ingest.py`: the links of a roster, and the versions of the turned-in works. The
advisory lock lets one sync run at a time; each submission is a transaction of its own. -/

namespace SubmissionsChecker.Classroom

open PyText (Text codes)
open WorkManifest (ManifestEntry DriveFileRef Metadata Bytes)

/-! ## Links -/

def methodOf : Matching.LinkMethod → ClassroomLinkMethod
  | .email => .email
  | .name => .name
  | .none => .none

namespace ClassroomDb

variable (db : ClassroomDb)

/-- `release_waiting`: the works of the link can be graded now. `now` stamps `updated_at`. -/
def releaseWaiting (linkId now : ℕ) : ClassroomDb :=
  db.updateGradings (fun _ g => g.status == .waitingLink && db.gradesWorkOf linkId g)
    fun g => { g with status := .pending, updatedAt := now }

end ClassroomDb

/-- `match` on the candidates of the subject. -/
abbrev Matcher := Matching.RosterEntry → Matching.MatchResult

/-- `s[:n]` -/
def cut (n : ℕ) (s : String) : String := String.ofList (s.toList.take n)

/-- `(entry.full_name or entry.email or entry.user_id)[:255]` -/
def rosterName (entry : Matching.RosterEntry) : String :=
  cut 255 (if entry.fullName ≠ "" then entry.fullName else
    match entry.email with
    | some email => if email ≠ "" then email else entry.userId
    | none => entry.userId)

/-- `entry.email[:255] if entry.email else None` -/
def rosterEmail (entry : Matching.RosterEntry) : Option String :=
  (entry.email.filter (· ≠ "")).map (cut 255)

def newLink (subjectId : ℕ) (entry : Matching.RosterEntry) (result : Matching.MatchResult) : ClassroomStudentLink where
  subjectId := subjectId
  classroomUserId := entry.userId
  classroomEmail := rosterEmail entry
  classroomName := rosterName entry
  studentId := result.studentId
  method := methodOf result.method
  score := result.score
  candidates := result.candidates
  confirmed := result.certain

def refreshed (entry : Matching.RosterEntry) (link : ClassroomStudentLink) : ClassroomStudentLink :=
  { link with classroomEmail := rosterEmail entry, classroomName := rosterName entry }

/-- An unconfirmed name match is confirmed once the match is exact and names the same student. -/
def confirmExact (result : Matching.MatchResult) (link : ClassroomStudentLink) : ClassroomStudentLink :=
  if result.certain && result.studentId == link.studentId then { link with confirmed := true } else link

def rematch (result : Matching.MatchResult) (link : ClassroomStudentLink) : ClassroomStudentLink :=
  let link := { link with score := result.score, candidates := result.candidates }
  if result.method = .none then link
  else { link with method := methodOf result.method, studentId := result.studentId, confirmed := result.certain }

/-- One turn of the loop of `upsert_links`. -/
def upsertLink (subjectId now : ℕ) (matcher : Matcher) (db : ClassroomDb) (entry : Matching.RosterEntry) : ClassroomDb :=
  if entry.userId = "" then db
  else
    match db.linkOf subjectId entry.userId with
    | none => { db with links := db.links ++ [newLink subjectId entry (matcher entry)] }
    | some l =>
      let db := db.setLink l (refreshed entry)
      match db.links[l]? with
      | none => db
      | some link =>
        if link.method = .name ∧ link.confirmed = false then db.setLink l (confirmExact (matcher entry))
        else if link.method ≠ .none ∨ link.studentId.isSome then db
        else
          let db := db.setLink l (rematch (matcher entry))
          if (matcher entry).method = .none then db else db.releaseWaiting l now

def upsertLinks (subjectId now : ℕ) (matcher : Matcher) (roster : List Matching.RosterEntry) (db : ClassroomDb) :
    ClassroomDb :=
  roster.foldl (upsertLink subjectId now matcher) db

/-! ## Versions -/

/-- A turned-in submission: its files with what Drive says of each, none where the call raises. -/
structure HandIn where
  userId : String
  state : Text
  late : Bool
  files : List (DriveFileRef × Option Metadata)
  now : ℕ
  /-- The clock when the version is stored. -/
  storedAt : ℕ

/-- `work.state, work.late, work.seen_at = sub.state, sub.late, now` -/
def HandIn.seen (sub : HandIn) (work : ClassroomWork) : ClassroomWork :=
  { work with state := sub.state, late := sub.late, seenAt := sub.now }

def ClassroomWork.withManifest (manifest : List ManifestEntry) (work : ClassroomWork) : ClassroomWork :=
  { work with manifest := manifest }

inductive HandInError
  | fileMeta
  | manifest (error : WorkManifest.IngestError)
  deriving DecidableEq, Repr

inductive HandInOutcome
  | noLink | ignored | unchanged | newVersion
  deriving DecidableEq, Repr

/-- `metas = [await client.file_meta(f.id) for f in sub.files]` -/
def fileMetas (files : List (DriveFileRef × Option Metadata)) : Except HandInError (List (DriveFileRef × Metadata)) :=
  files.mapM fun file =>
    match file.2 with
    | some metadata => .ok (file.1, metadata)
    | none => .error .fileMeta

/-- The pairs of `current`: what is attached, and when it was modified. -/
def modified (env : WorkManifest.Ingest) (files : List (DriveFileRef × Metadata)) : List (Text × Text) :=
  files.map fun file => (file.1.id, env.str (file.2.get "modifiedTime" (.str [])))

/-- `_modified_set` -/
def modifiedSet (manifest : List ManifestEntry) : List (Text × Text) := manifest.map fun e => (e.driveId, e.modified)

/-- `==` of two sets. -/
def sameSet (xs ys : List (Text × Text)) : Bool := xs.all (ys.contains ·) && ys.all (xs.contains ·)

/-- The hash over the sorted hashes of the kept files; `encode` of hexadecimal digits is ASCII. -/
def contentHash (env : WorkManifest.Ingest) (manifest : List ManifestEntry) : Text :=
  let hashes := (manifest.filterMap (·.sha256)).filter (· ≠ [])
  (env.sha256 (((hashes.mergeSort fun a b => decide (a ≤ b)).flatten).map UInt8.ofNat)).hexdigest

/-- `_fresh_status` -/
def freshStatus (link : ClassroomStudentLink) : LLMGradingStatus :=
  if link.studentId.isSome then .pending else .waitingLink

/-- `SUPERSEDABLE`: "RUNNING/DONE are left to finish/keep their draft." -/
def LLMGradingStatus.supersedable : LLMGradingStatus → Bool
  | .pending | .waitingLink | .failed => true
  | _ => false

def newGrading (workId : ℕ) (status : LLMGradingStatus) (now : ℕ) : LLMGrading where
  classroomWorkId := workId
  status := status
  attempts := 0
  draft := none
  provider := none
  model := none
  error := none
  gradedAt := none
  updatedAt := now

namespace ClassroomDb

variable (db : ClassroomDb)

/-- `_supersede_others` -/
def supersedeOthers (submissionId : Text) (keepWorkId now : ℕ) : ClassroomDb :=
  db.updateGradings
    (fun _ g => g.status.supersedable && db.gradesVersionOf submissionId g && g.classroomWorkId != keepWorkId)
    fun g => { g with status := .superseded, updatedAt := now }

/-- The version that has the contents already. -/
def sameVersion (submissionId hash : Text) : Option ℕ :=
  Table.findId (fun work => work.classroomSubmissionId == submissionId && work.contentHash == hash) db.works

/-- "Reverted to an older version: it is the latest again, so it must be graded." -/
def revive (workId now : ℕ) (status : LLMGradingStatus) : ClassroomDb :=
  db.updateGradings (fun _ g => g.classroomWorkId == workId && g.status == .superseded)
    fun g => { g with status := status, updatedAt := now }

/-- Version `i` is seen again. -/
def seeAgain (i : ℕ) (sub : HandIn) : ClassroomDb := db.setWork i sub.seen

end ClassroomDb

def newWork (env : WorkManifest.Ingest) (sub : HandIn) (linkId : ℕ) (manifest : List ManifestEntry) : ClassroomWork where
  subjectsAssignmentId := env.assignmentId
  linkId := linkId
  classroomSubmissionId := env.submissionId
  state := sub.state
  late := sub.late
  contentHash := contentHash env manifest
  manifest := manifest
  seenAt := sub.now

/-- Identical contents under a new manifest: the version is refreshed, and graded if it was superseded. -/
def refreshVersion (db : ClassroomDb) (env : WorkManifest.Ingest) (sub : HandIn) (link : ClassroomStudentLink) (i : ℕ)
    (manifest : List ManifestEntry) : ClassroomDb :=
  (((db.setWork i (.withManifest manifest)).seeAgain i sub).revive i sub.storedAt (freshStatus link)).supersedeOthers
    env.submissionId i sub.storedAt

def addVersion (db : ClassroomDb) (env : WorkManifest.Ingest) (sub : HandIn) (l : ℕ) (link : ClassroomStudentLink)
    (manifest : List ManifestEntry) : ClassroomDb :=
  { db with
    works := db.works ++ [newWork env sub l manifest]
    gradings := db.gradings ++ [newGrading db.works.length (freshStatus link) sub.storedAt]
    : ClassroomDb }.supersedeOthers env.submissionId db.works.length sub.storedAt

/-- What is stored for a manifest. -/
def storeVersion (db : ClassroomDb) (env : WorkManifest.Ingest) (sub : HandIn) (l : ℕ) (link : ClassroomStudentLink)
    (manifest : List ManifestEntry) : ClassroomDb × HandInOutcome :=
  match db.sameVersion env.submissionId (contentHash env manifest) with
  | some i => (refreshVersion db env sub link i manifest, .unchanged)
  | none => (addVersion db env sub l link manifest, .newVersion)

/-- The latest version has the files of the hand-in, each as it was last modified. -/
def isUnchanged (db : ClassroomDb) (env : WorkManifest.Ingest) (files : List (DriveFileRef × Metadata)) (i : ℕ) : Bool :=
  (db.works[i]?).any fun work => sameSet (modifiedSet work.manifest) (modified env files)

/-- The part of `_ingest_submission` behind the link. -/
def ingestFor (db : ClassroomDb) (env : WorkManifest.Ingest) (sub : HandIn) (l : ℕ) (link : ClassroomStudentLink) :
    Except HandInError (ClassroomDb × HandInOutcome) := do
  let files ← fileMetas sub.files
  match (db.latestVersion env.submissionId).filter (isUnchanged db env files) with
  | some i => return (db.seeAgain i sub, .unchanged)
  | none =>
    let ledger ← (WorkManifest.ingestFiles env files fun _ => none).mapError .manifest
    return storeVersion db env sub l link ledger.manifest

/-- `_ingest_submission`; the objects it stores are in `WorkManifest.ingestFiles`. -/
def ingestSubmission (db : ClassroomDb) (env : WorkManifest.Ingest) (sub : HandIn) :
    Except HandInError (ClassroomDb × HandInOutcome) :=
  match db.linkOf env.subjectId sub.userId with
  | none => .ok (db, .noLink)
  | some l =>
    match db.links[l]? with
    | none => .ok (db, .noLink)
    | some link => if link.method = .ignored then .ok (db, .ignored) else ingestFor db env sub l link

/-- A submission that raises is rolled back. -/
def ingested (db : ClassroomDb) (env : WorkManifest.Ingest) (sub : HandIn) : ClassroomDb :=
  match ingestSubmission db env sub with
  | .ok (db', _) => db'
  | .error _ => db

end SubmissionsChecker.Classroom
