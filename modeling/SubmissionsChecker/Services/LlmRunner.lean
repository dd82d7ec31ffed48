import SubmissionsChecker.Services.ClassroomIngest

/-! `services/llm_grading/runner.py`: one grading, the gradings a crash left behind, and the loop of a
night. Times are in microseconds. -/

namespace SubmissionsChecker.Classroom

open PyText (Text codes)
open WorkManifest (ManifestEntry)

def maxAttempts : ℕ := 3

/-- `timedelta(hours=1)` -/
def staleAfter : ℕ := 60 * 60 * 1000000

def noGradableFiles : Text := codes "no_gradable_files"

def maxErrorChars : ℕ := 2000

/-- "Consecutive JudgeErrors after which the judge is presumed down." -/
def judgeErrorStreak : ℕ := 3

structure GradingResult where
  criteria : List (Text × CriterionVerdict)
  comment : Text
  provider : Text
  model : Text
  usage : Json

/-- How the request and the judge end: with a result, with an exception, or with the job cut off
before its end is committed. -/
inductive JudgeCall
  | result (result : GradingResult)
  | judgeError (message : Text)
  | error (message : Text)
  | lost

inductive Outcome
  | done | failed | judgeError | noFiles
  deriving DecidableEq, Repr

/-- `_gradable` -/
def gradable (manifest : List ManifestEntry) : List ManifestEntry :=
  manifest.filter fun e => (e.skipped.getD []).isEmpty && !(e.storageKey.getD []).isEmpty

def startRunning (now : ℕ) (grading : LLMGrading) : LLMGrading := { grading with status := .running, updatedAt := now }

def failNoFiles (now : ℕ) (grading : LLMGrading) : LLMGrading :=
  { grading with status := .failed, error := some noGradableFiles, attempts := maxAttempts, updatedAt := now }

def fail (message : Text) (now : ℕ) (grading : LLMGrading) : LLMGrading :=
  { grading with
    status := .failed
    error := some (message.take maxErrorChars)
    attempts := grading.attempts + 1
    updatedAt := now }

def finish (result : GradingResult) (now : ℕ) (grading : LLMGrading) : LLMGrading :=
  { grading with
    status := .done
    draft := some ⟨result.criteria, result.comment, result.usage⟩
    provider := some result.provider
    model := some result.model
    gradedAt := some now
    updatedAt := now
    error := none }

def reap (now : ℕ) (grading : LLMGrading) : LLMGrading :=
  { grading with status := .failed, error := some (codes "stale"), attempts := grading.attempts + 1, updatedAt := now }

/-- What the job commits at its end, with its outcome. -/
def JudgeCall.commit (call : JudgeCall) (now : ℕ) : Option ((LLMGrading → LLMGrading) × Outcome) :=
  match call with
  | .result answer => some (finish answer now, .done)
  | .judgeError message => some (fail message now, .judgeError)
  | .error message => some (fail message now, .failed)
  | .lost => none

namespace ClassroomDb

variable (db : ClassroomDb)

def manifestOf (grading : LLMGrading) : List ManifestEntry :=
  ((db.works[grading.classroomWorkId]?).map (·.manifest)).getD []

/-- `grade_one`; no outcome where it raises. -/
def gradeOne (g : ℕ) (call : JudgeCall) (started ended : ℕ) : ClassroomDb × Option Outcome :=
  let running := db.setGrading g (startRunning started)
  match db.gradings[g]? with
  | none => (db, none)
  | some grading =>
    if gradable (db.manifestOf grading) = [] then (running.setGrading g (failNoFiles ended), some .noFiles)
    else
      match call.commit ended with
      | some (write, outcome) => (running.setGrading g write, some outcome)
      | none => (running, none)

/-- `reap_stale`: "RUNNING rows untouched for an hour were left by a crash." -/
def reapStale (now : ℕ) : ClassroomDb :=
  db.updateGradings (fun _ g => g.status == .running && decide (g.updatedAt + staleAfter < now)) (reap now)

end ClassroomDb

/-! ## What is graded -/

/-- `_eligible` -/
def LLMGrading.eligible (g : LLMGrading) : Bool :=
  g.status == .pending || g.status == .failed && decide (g.attempts < maxAttempts)

/-- `_candidate`: "no same-night retry" -/
def LLMGrading.candidate (nightStart : ℕ) (g : LLMGrading) : Bool :=
  g.eligible && (g.status != .failed || decide (g.updatedAt < nightStart))

/-- A finished job of this night. -/
def LLMGrading.usedTonight (nightStart : ℕ) (g : LLMGrading) : Bool :=
  g.status == .done && g.gradedAt.any (fun t => decide (nightStart ≤ t)) ||
    g.status == .failed && decide (nightStart ≤ g.updatedAt)

namespace ClassroomDb

variable (db : ClassroomDb)

/-- `_used_tonight` -/
def usedTonight (nightStart : ℕ) : ℕ := db.gradings.countP (·.usedTonight nightStart)

/-- A newer version of the same submission than `work`, the `i`th. -/
def superseder (i : ℕ) (work : ClassroomWork) (j : ℕ) : Bool :=
  (db.works[j]?).any fun newer => newer.classroomSubmissionId == work.classroomSubmissionId &&
    (decide (work.seenAt < newer.seenAt) || newer.seenAt == work.seenAt && decide (i < j))

/-- The assignment of a grading in the scope of `_in_scope`, that `is_llm_graded`: "work a teacher will
actually see". -/
def inScope (grading : LLMGrading) : Option LinkedAssignment := do
  let work ← db.works[grading.classroomWorkId]?
  let link ← db.links[work.linkId]?
  let assignment ← db.assignments[work.subjectsAssignmentId]?
  guard (link.method ≠ .ignored)
  guard assignment.isActive
  guard assignment.classroomCourseworkId.isSome
  guard !(List.range db.works.length).any (db.superseder grading.classroomWorkId work)
  guard assignment.isLlmGraded
  return assignment

/-- The assignment a grading is for. -/
def assignmentIdOf (g : ℕ) : ℕ :=
  (((db.gradings[g]?).bind fun grading => db.works[grading.classroomWorkId]?).map (·.subjectsAssignmentId)).getD 0

/-- The work list, by assignment and id. -/
def candidates (nightStart : ℕ) : List ℕ :=
  (Table.idsWhere (fun g => g.candidate nightStart && (db.inScope g).isSome) db.gradings).mergeSort
    fun g h => decide (db.assignmentIdOf g ≤ db.assignmentIdOf h)

/-- The row that a turn of the loop reads again. -/
def ready (g : ℕ) : Bool := (db.gradings[g]?).any fun grading => grading.eligible && (db.inScope grading).isSome

end ClassroomDb

end SubmissionsChecker.Classroom
