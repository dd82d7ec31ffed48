import SubmissionsChecker.Services.ConfigApply
import SubmissionsChecker.Services.SquadFormation
import SubmissionsChecker.System

/-! The whole portal: the requests and tasks of the system with squads formed and configs applied
between them, one at a time. -/

namespace SubmissionsChecker

/-- `stored` is the config each subject was given last. `sizeAtJoin` is no column: it keeps, for
each squad, the maximum size in force when its last member joined. -/
structure Portal where
  db : Db
  stored : ℕ → SubjectConfig := fun _ => {}
  sizeAtJoin : ℕ → ℕ := fun _ => 0

inductive PortalOp
  | request (op : Op)
  | squad (op : SquadOp)
  | apply (subject : ℕ) (cfg : SubjectConfig)

namespace Portal

/-- How many members squad `q` has. -/
def sizeOf (db : Db) (q : ℕ) : ℕ := ((db.squads[q]?).map (·.members.length)).getD 0

/-- The maximum size of the subject of squad `q`. -/
def maxSizeOf (db : Db) (q : ℕ) : ℕ := ((db.squads[q]?).bind fun s => db.maxSize s.subjectId).getD 0

/-- One operation; `isTest` says which students are of type `TEST`. -/
def step (isTest : ℕ → Bool) (p : Portal) : PortalOp → Portal
  | .request op => { p with db := p.db.step op }
  | .squad op =>
    let db' := p.db.squadStep isTest op
    { p with
      db := db'
      sizeAtJoin := fun q => if sizeOf p.db q < sizeOf db' q then maxSizeOf db' q else p.sizeAtJoin q }
  | .apply subject cfg =>
    match p.db.applyConfig subject cfg (p.stored subject) with
    | .ok db' => { p with db := db', stored := Function.update p.stored subject cfg }
    | .error _ => p

end Portal

/-! ## Checks

The portal with the checks on scores: an apply is validated first, and a step that stores a score
outside its range is rolled back by the database. -/

/-- `ck_quiz_attempts_score`. -/
def QuizAttempt.scoreCheck (a : QuizAttempt) : Bool :=
  match a.score, a.maxScore with
  | none, _ => true
  | some _, none => false
  | some s, some m => decide (0 ≤ s ∧ s ≤ m)

/-- One operation under both checks. -/
def Portal.checkedStep (isTest : ℕ → Bool) (p : Portal) (op : PortalOp) : Portal :=
  let accepted : Bool := match op with
    | .apply _ cfg => cfg.validateTeacherScores.isOk
    | _ => true
  let p' := p.step isTest op
  if accepted && p'.db.quizAttempts.all (·.scoreCheck) then p' else p

end SubmissionsChecker
