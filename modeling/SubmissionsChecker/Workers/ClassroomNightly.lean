import SubmissionsChecker.Routes.TeacherClassroom

/-! The grading loop of a night (`grading_loop` of `services/llm_grading/runner.py`, run by
`workers/scheduled/classroom_nightly.py`). The advisory lock keeps syncs and other loops out while it
runs; teachers' link requests come in between the turns, and their retries and coursework forms between
the loops. Every turn gets its job to `RUNNING`: a turn whose select or first commit fails is not
modelled, and neither is a last commit that is lost where the work has no files. -/

namespace SubmissionsChecker.Classroom

/-- One turn: the clock at its head, the requests answered since the turn before, and how the job goes.
A process that dies has no more turns. -/
structure Turn where
  checked : ℕ
  requests : List (ℕ × LinkRequest)
  call : JudgeCall
  started : ℕ
  ended : ℕ

/-- The variables of the loop. `jobs` lists the gradings that were run. -/
structure Night where
  db : ClassroomDb
  done : ℕ
  judgeErrors : ℕ
  jobs : List ℕ

/-- The requests between two turns, each for a subject. -/
def ClassroomDb.linkRequests (db : ClassroomDb) (enrolled : List (ℕ × ℕ)) (now : ℕ)
    (requests : List (ℕ × LinkRequest)) : ClassroomDb :=
  requests.foldl (fun db r => db.linkRequest enrolled r.1 now r.2) db

/-- The job of a turn. -/
def Night.job (s : Night) (g : ℕ) (turn : Turn) : Night :=
  match s.db.gradeOne g turn.call turn.started turn.ended with
  | (db, some outcome) =>
    { db := db
      done := s.done + 1
      judgeErrors := if outcome = .judgeError then s.judgeErrors + 1 else 0
      jobs := s.jobs ++ [g] }
  -- "a DB hiccup on one job must not end the night"
  | (db, none) => { s with db := db, jobs := s.jobs ++ [g] }

/-- "Approved, retried, reaped, superseded or unlinked since the list was taken": skipped. -/
def Night.turn (enrolled : List (ℕ × ℕ)) (s : Night) (g : ℕ) (turn : Turn) : Night :=
  let s := { s with db := s.db.linkRequests enrolled turn.checked turn.requests }
  if s.db.ready g then s.job g turn else s

def Night.run (enrolled : List (ℕ × ℕ)) (deadline : ℕ) : List (ℕ × Turn) → Night → Night
  | [], s => s
  | (g, turn) :: rest, s =>
    if deadline ≤ turn.checked ∨ judgeErrorStreak ≤ s.judgeErrors then s
    else Night.run enrolled deadline rest (s.turn enrolled g turn)

/-- `budget` -/
def ClassroomDb.budget (db : ClassroomDb) (cap : ℤ) (nightStart : ℕ) : ℤ := cap - db.usedTonight nightStart

/-- `grading_loop` -/
def gradingLoop (enrolled : List (ℕ × ℕ)) (deadline nightStart : ℕ) (cap : ℤ) (turns : List Turn) (db : ClassroomDb) :
    Night :=
  if db.budget cap nightStart ≤ 0 then ⟨db, 0, 0, []⟩
  else
    Night.run enrolled deadline
      (((db.candidates nightStart).take (db.budget cap nightStart).toNat).zip turns) ⟨db, 0, 0, []⟩

/-! ## All that writes the tables -/

/-- The parts of a sync, the requests of the teachers, and the jobs. `assignments` is what other services
write of the assignments and their subjects. -/
inductive ClassroomOp
  | roster (subjectId now : ℕ) (matcher : Matcher) (roster : List Matching.RosterEntry)
  | handIn (env : WorkManifest.Ingest) (sub : HandIn)
  | request (enrolled : List (ℕ × ℕ)) (subjectId now : ℕ) (request : LinkRequest)
  | retry (subjectId g now : ℕ)
  | coursework (subjectId : ℕ) (form : CourseworkForm)
  | assignments (rows : List LinkedAssignment)
  | reap (now : ℕ)
  | grade (enrolled : List (ℕ × ℕ)) (deadline nightStart : ℕ) (cap : ℤ) (turns : List Turn)

/-- A request that raises is rolled back. -/
def ClassroomDb.step (db : ClassroomDb) : ClassroomOp → ClassroomDb
  | .roster subjectId now matcher roster => upsertLinks subjectId now matcher roster db
  | .handIn env sub => ingested db env sub
  | .request enrolled subjectId now request => db.linkRequest enrolled subjectId now request
  | .retry subjectId g now => (db.retryGrading subjectId g now).toOption.getD db
  | .coursework subjectId form => ((db.linkCourseworkBatch subjectId form).toOption.map (·.1)).getD db
  | .assignments rows => { db with assignments := rows }
  | .reap now => db.reapStale now
  | .grade enrolled deadline nightStart cap turns => (gradingLoop enrolled deadline nightStart cap turns db).db

end SubmissionsChecker.Classroom
