import SubmissionsChecker.Invariants.Scopes
import SubmissionsChecker.Sessions.Rows

/-! `submit_assignment` as a request among others. It reads the scope, the completed submissions
and the count, stores the file, and inserts; no row is locked before the commit. Every member of
a squad is taken to have a row for the assignment. -/

namespace SubmissionsChecker

open ReadCommitted

/-- A posted file. -/
structure UploadFile where
  isZip : Bool := true
  size : ℕ := 1
  /-- What the checks of a quiz-first assignment, which run in the request, give. -/
  check : CheckResult := .tested true 1 1
  deriving DecidableEq, Repr

/-- What an upload keeps of its look-ups: the assignment, and the squad it is made for. -/
structure UploadPlan where
  saId : ℕ
  asg : SubjectsAssignment
  squad : Option ℕ
  /-- The squad when it was unlocked; its row is written. -/
  locks : Option ℕ
  deriving DecidableEq, Repr

/-- Where an upload stands. -/
inductive Upload
  | asked (saId studentId : ℕ) (file : UploadFile)
  | admitted (saId studentId asgId : ℕ) (asg : SubjectsAssignment) (file : UploadFile)
  | resolved (asgId : ℕ) (plan : UploadPlan) (file : UploadFile)
  | inScope (plan : UploadPlan) (scope : List ℕ) (file : UploadFile)
  | unpassed (plan : UploadPlan) (scope : List ℕ) (file : UploadFile)
  /-- Every check is passed; `count` is the number of submissions read, where there is a limit. -/
  | storing (plan : UploadPlan) (scope : List ℕ) (count : Option ℕ) (file : UploadFile)
  | flushing (plan : UploadPlan) (scope : List ℕ) (count : Option ℕ) (file : UploadFile)
  | stored (saId : ℕ)
  | refused
  deriving DecidableEq, Repr

namespace Db

/-- The tail of `submit_assignment`, from the insert on. -/
def insertUpload (db : Db) (saId : ℕ) (asg : SubjectsAssignment) (squad : Option ℕ) (check : CheckResult) :
    Except Raised Db :=
  let i := db.submissions.length
  let db₁ := db.addSubmission { studentsAssignmentId := saId, squadId := squad, createdAt := db.now }
  if db₁.isQuizFirstAssignment asg.subjectId asg.code then
    match db₁.executeCheck i check with
    | (db₂, none) => .ok db₂
    | (_, some e) => .error e
  else .ok (db₁.addMessage (.runChecks i))

/-- The squad of an upload that is still unlocked. -/
def unlockedSquad (db : Db) (squad : Option ℕ) : Option ℕ :=
  squad.filter fun q => (db.squads[q]?).any (·.lockedAt.isNone)

end Db

namespace Upload

/-- The row, its owner, the mode and the deadline. -/
def checkRow (db : Db) (saId studentId : ℕ) (file : UploadFile) : Upload :=
  match db.studentsAssignments[saId]? with
  | none => .refused
  | some sa =>
    if sa.studentId ≠ studentId then .refused
    else
      match db.subjectsAssignments[sa.subjectsAssignmentId]? with
      | none => .refused
      | some asg =>
        if asg.config.isScoredMode || db.refusesLate asg then .refused
        else .admitted saId studentId sa.subjectsAssignmentId asg file

/-- The squad the upload is for. -/
def resolve (db : Db) (saId studentId asgId : ℕ) (asg : SubjectsAssignment) (file : UploadFile) : Upload :=
  match db.squadForUpload asg.subjectId studentId
      (.http 409 "Squad invitation pending; answer or cancel it before submitting.") with
  | .error _ => .refused
  | .ok squad => .resolved asgId ⟨saId, asg, squad, db.unlockedSquad squad⟩ file

def noCompleted (db : Db) (scope : List ℕ) : Bool :=
  (db.submissionsIn scope).all fun i => db.status i != some .completed

/-- The limit, then the file. -/
def count (db : Db) (plan : UploadPlan) (scope : List ℕ) (file : UploadFile) : Upload :=
  let earlier := (db.submissionsIn scope).length
  if plan.asg.config.maxSubmissions.any (· ≤ earlier) then .refused
  else if !file.isZip then .refused
  else if 50 * 1024 * 1024 < file.size then .refused
  else .storing plan scope (plan.asg.config.maxSubmissions.map fun _ => earlier) file

def insert (db : Db) (plan : UploadPlan) (scope : List ℕ) (count : Option ℕ) (file : UploadFile) : Upload :=
  match db.insertUpload plan.saId plan.asg plan.squad file.check with
  | .ok _ => .flushing plan scope count file
  | .error _ => .refused

/-- What is committed. -/
def inserted (db : Db) (plan : UploadPlan) (file : UploadFile) : Db :=
  (db.insertUpload plan.saId plan.asg plan.squad file.check).toOption.getD db

def next : Upload → Stmt Db Upload Row
  | asked saId studentId file => .read fun db => checkRow db saId studentId file
  | admitted saId studentId asgId asg file => .read fun db => resolve db saId studentId asgId asg file
  | resolved asgId plan file => .read fun db => .inScope plan (db.uploadScope plan.saId asgId plan.squad).2 file
  | inScope plan scope file => .read fun db => if noCompleted db scope then .unpassed plan scope file else .refused
  | unpassed plan scope file => .read fun db => count db plan scope file
  | storing plan scope n file =>
    match plan.locks with
    | none => .read fun db => insert db plan scope n file
    | some q => .lock (.squad q) fun db => insert db plan scope n file
  | flushing plan _ _ file => .commit (fun db => inserted db plan file) (.stored plan.saId)
  | stored _ => .done
  | refused => .rollback .refused

end Upload

section

variable {db db' : Db} {saId t : ℕ} {asg : SubjectsAssignment} {squad : Option ℕ} {check : CheckResult}

/-- The sequential route ends in the same insert. -/
theorem submitAssignment_tail {isZip : Bool} {size : ℕ} (h : db.submitAssignment saId t isZip size check = .ok db') :
    ∃ (db₁ : Db) (asg : SubjectsAssignment) (squad : Option ℕ), db₁.insertUpload saId asg squad check = .ok db' := by
  unfold Db.submitAssignment at h
  cases hsa : db.studentsAssignments[saId]? with
  | none => simp only [hsa] at h; cases h
  | some sa =>
    simp only [hsa] at h
    by_cases hst : sa.studentId ≠ t
    · rw [if_pos hst] at h; cases h
    rw [if_neg hst] at h
    cases hasg : db.subjectsAssignments[sa.subjectsAssignmentId]? with
    | none => simp only [hasg] at h; cases h
    | some asg =>
      simp only [hasg] at h
      by_cases hscored : asg.config.isScoredMode = true
      · rw [if_pos hscored] at h; cases h
      rw [if_neg hscored] at h
      by_cases hlate : db.refusesLate asg = true
      · rw [if_pos hlate] at h; cases h
      rw [if_neg hlate] at h
      obtain ⟨squad, -, h⟩ := bind_ok h
      refine ⟨(db.uploadScope saId sa.subjectsAssignmentId squad).1, asg, squad, ?_⟩
      split_ifs at h with hdone hmax hzip hsize hfirst
      · rw [← h, Db.insertUpload]
        exact if_pos hfirst
      · rw [← h, Db.insertUpload]
        exact if_neg hfirst

/-- What an upload commits: its row at the end, and no other row, status or student's row changed. -/
structure Stores (db : Db) (saId : ℕ) (squad : Option ℕ) (db' : Db) : Prop where
  evolves : Evolves db db'
  rows : db'.studentsAssignments = db.studentsAssignments
  length : db'.submissions.length = db.submissions.length + 1
  status : ∀ i < db.submissions.length, db'.status i = db.status i
  new : ∃ sub, db'.submissions[db.submissions.length]? = some sub ∧ sub.studentsAssignmentId = saId ∧
    sub.squadId = squad ∧ sub.createdAt = db.now

theorem addSubmission_stores (db : Db) (sub : Submission) (hcreated : sub.createdAt = db.now) :
    Stores db sub.studentsAssignmentId sub.squadId (db.addSubmission sub) where
  evolves := evolves_addSubmission db sub
  rows := addSubmission_studentsAssignments db sub
  length := by unfold Db.addSubmission; dsimp only; split <;> simp [Db.lockOnSubmit]
  status i hi := by
    have hs := List.getElem?_eq_getElem hi
    obtain ⟨sub', hs', hst, -⟩ := subsKeep_addSubmission db sub i _ hs
    rw [Db.status, Db.status, hs, hs', Option.map_some, Option.map_some, hst]
  new := ⟨sub, addSubmission_get db sub, rfl, rfl, hcreated⟩

/-- What is about the new submission alone, and adds no row. -/
theorem Stores.task {db₁ db₂ : Db} (h : Stores db saId squad db₁) (hw : Within (.task db.submissions.length) db₁ db₂)
    (hrows : db₂.studentsAssignments = db₁.studentsAssignments) : Stores db saId squad db₂ where
  evolves := h.evolves.trans hw.evolves
  rows := hrows.trans h.rows
  length := hw.submissions_length.trans h.length
  status i hi := (hw.status_ne (by omega)).trans (h.status i hi)
  new := by
    obtain ⟨sub, hs, hsaid, hsquad, hcreated⟩ := h.new
    obtain ⟨sub', hs', hsaid', -, hsquad', hcreated'⟩ := hw.evolves.submission hs
    exact ⟨sub', hs', hsaid'.trans hsaid, hsquad'.trans hsquad, hcreated'.trans hcreated⟩

theorem insertUpload_stores (hasg : db.assignmentOf saId = some asg) (h : db.insertUpload saId asg squad check = .ok db') :
    Stores db saId squad db' := by
  unfold Db.insertUpload at h
  dsimp only at h
  have hadd := addSubmission_stores db { studentsAssignmentId := saId, squadId := squad, createdAt := db.now } rfl
  split_ifs at h with hfirst
  · have hget := addSubmission_get db { studentsAssignmentId := saId, squadId := squad, createdAt := db.now }
    have hrows : (Db.executeCheck _ _ check).1.studentsAssignments = _ :=
      executeCheck_rows hget ((addSubmission_assignmentOf db _ saId).trans hasg) rfl hfirst
    have hc := executeCheck_spec (db.addSubmission { studentsAssignmentId := saId, squadId := squad, createdAt := db.now })
      db.submissions.length check
    split at h
    · rename_i db₂ hrun
      cases h
      rw [hrun] at hrows hc
      exact hadd.task hc.finalizes.within hrows
    · cases h
  · cases h
    exact hadd.task (within_addMessage _ _ _) rfl

end

end SubmissionsChecker
