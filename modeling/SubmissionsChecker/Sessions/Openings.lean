import SubmissionsChecker.Sessions.StartCommits
import SubmissionsChecker.Sessions.Uploads

/-! `open_quiz_submission` query by query. A start that finds nothing to reuse reads the squad and
the config, makes the submission and its first attempt, and commits both together. -/

namespace SubmissionsChecker

open ReadCommitted

namespace Db

/-- The insert of `open_quiz_submission`. -/
def addQuizOnly (db : Db) (saId : ℕ) (squad : Option ℕ) (configId : ℕ) : Except Raised (Db × ℕ) := do
  let i := db.submissions.length
  let db₁ := db.addSubmission
    { studentsAssignmentId := saId, sourceType := .quizOnly, pluginConfigId := some configId,
      squadId := squad, testResults := some (.skipped .quizAndTeacherScores), createdAt := db.now }
  let db₂ ← db₁.transition i .quizOpened
  .ok (db₂, i)

/-- `openAndStart` with the squad and the config already read. -/
def addStarted (db : Db) (saId : ℕ) (squad : Option ℕ) (configId : ℕ) (rnd : Shuffles) : Except Raised Db :=
  match db.studentsAssignments[saId]? with
  | none => .error (.http 404 "")
  | some sa =>
    match db.subjectsAssignments[sa.subjectsAssignmentId]? with
    | none => .error (.http 404 "")
    | some asg => do
      let (db₁, i) ← db.addQuizOnly saId squad configId
      match db₁.submissions[i]? with
      | none => .error (.http 403 "Quiz not available for this submission")
      | some sub => db₁.startAttempt sa asg i sub [] rnd

/-- A submission and its first attempt. -/
def addRows (db : Db) (sub : Submission) (attempt : QuizAttempt) : Db :=
  { db.addSubmission sub with
    quizAttempts := db.quizAttempts ++ [{ attempt with submissionId := db.submissions.length }] }

end Db

/-- Where a quiz opening stands. -/
inductive Opening
  /-- The look-ups, or a start on a submission that is there. -/
  | start (l : Start)
  | resolved (saId studentId : ℕ) (rnd : Shuffles) (squad : Option ℕ)
  | configured (saId : ℕ) (rnd : Shuffles) (squad : Option ℕ) (configId : ℕ)
  /-- The rows are made; an unlocked squad `q` gets its lock with them. -/
  | locking (q : ℕ) (sub : Submission) (attempt : QuizAttempt)
  | storing (sub : Submission) (attempt : QuizAttempt)
  | opened
  | refused

namespace Opening

/-- The squad the quiz is opened for. -/
def resolve (db : Db) (saId studentId : ℕ) (rnd : Shuffles) : Opening :=
  match db.assignmentOf saId with
  | none => .refused
  | some asg =>
    if !asg.config.isScoredMode then .refused
    else
      match db.squadForUpload asg.subjectId studentId
          (.quizOpenError "Squad invitation pending; answer or cancel it first.") with
      | .error _ => .refused
      | .ok squad => .resolved saId studentId rnd squad

/-- The latest config of the subject. -/
def configure (db : Db) (saId : ℕ) (rnd : Shuffles) (squad : Option ℕ) : Opening :=
  match (db.assignmentOf saId).bind fun asg => db.latestConfig asg.subjectId with
  | none => .refused
  | some configId => .configured saId rnd squad configId

/-- The submission and the attempt, as the session makes them. -/
def build (db : Db) (saId : ℕ) (rnd : Shuffles) (squad : Option ℕ) (configId : ℕ) : Opening :=
  match db.addStarted saId squad configId rnd with
  | .error _ => .refused
  | .ok db₁ =>
    match db₁.submissions[db.submissions.length]?, db₁.quizAttempts[db.quizAttempts.length]? with
    | some sub, some attempt =>
      match db.unlockedSquad squad with
      | none => .storing sub attempt
      | some q => .locking q sub attempt
    | _, _ => .refused

def next : Opening → Stmt Db Opening Row
  | start (.creating saId studentId rnd) => .read fun db => resolve db saId studentId rnd
  | start l => l.next.map .start
  | resolved saId _ rnd squad => .read fun db => configure db saId rnd squad
  | configured saId rnd squad configId => .read fun db => build db saId rnd squad configId
  | locking q sub attempt => .lock (.squad q) fun _ => .storing sub attempt
  | storing sub attempt => .commit (fun db => db.addRows sub attempt) .opened
  | opened => .done
  | refused => .rollback .refused

end Opening

section

variable {db db' : Db} {saId t configId i : ℕ} {squad : Option ℕ} {rnd : Shuffles}

/-- The sequential opening is the same one with what it reads. -/
theorem openAndStart_resolved (h : db.openAndStart saId t rnd = .ok db') :
    ∃ asg squad c, db.assignmentOf saId = some asg ∧ asg.config.isScoredMode = true ∧
      db.squadForUpload asg.subjectId t (.quizOpenError "Squad invitation pending; answer or cancel it first.") =
        .ok squad ∧ db.latestConfig asg.subjectId = some c ∧ db.addStarted saId squad c rnd = .ok db' := by
  unfold Db.openAndStart at h
  cases hsa : db.studentsAssignments[saId]? with
  | none => simp only [hsa] at h; cases h
  | some sa =>
    simp only [hsa] at h
    cases hasg : db.subjectsAssignments[sa.subjectsAssignmentId]? with
    | none => simp only [hasg] at h; cases h
    | some asg =>
      simp only [hasg] at h
      obtain ⟨⟨db₁, i⟩, hcreate, hstart⟩ := bind_ok h
      have hof : db.assignmentOf saId = some asg := by rw [Db.assignmentOf, hsa, Option.bind_some, hasg]
      simp only [Db.createQuizSubmission, hof] at hcreate
      split_ifs at hcreate with hscored
      obtain ⟨squad, hsquad, hcreate⟩ := bind_ok hcreate
      split at hcreate
      · cases hcreate
      · rename_i c hc
        refine ⟨asg, squad, c, hof, by simpa using hscored, hsquad, hc, ?_⟩
        have hadd : db.addQuizOnly saId squad c = .ok (db₁, i) := hcreate
        simp only [Db.addStarted, hsa, hasg, hadd]
        exact hstart

theorem addQuizOnly_spec {db₁ : Db} (h : db.addQuizOnly saId squad configId = .ok (db₁, i)) :
    i = db.submissions.length ∧ ∃ sub : Submission, sub.studentsAssignmentId = saId ∧ sub.squadId = squad ∧
      db₁ = db.addOpened sub := by
  unfold Db.addQuizOnly at h
  obtain ⟨db₂, hopen, h⟩ := bind_ok h
  cases h
  rw [transition_of_status (s := .pending) (by rw [Db.status, addSubmission_get]; rfl) rfl] at hopen
  cases hopen
  exact ⟨rfl, _, rfl, rfl, rfl⟩

/-- A change of the row just added is one of the row that is added. -/
theorem addSubmission_set (db : Db) {sub : Submission} {f : Submission → Submission} (hf : (f sub).squadId = sub.squadId) :
    (db.addSubmission sub).setSubmission db.submissions.length f = db.addSubmission (f sub) := by
  unfold Db.addSubmission
  rw [hf]
  cases sub.squadId with
  | none => simp only [Db.setSubmission, Table.modify_concat_length]
  | some q => simp only [Db.setSubmission, Db.lockOnSubmit, Table.modify_concat_length]

theorem drawn_addSubmission {sub : Submission} {db₁ : Db} (h : Draws db.submissions.length (db.addOpened sub) db₁) :
    ∃ sub' : Submission, sub'.studentsAssignmentId = sub.studentsAssignmentId ∧ sub'.squadId = sub.squadId ∧
      db₁ = db.addSubmission sub' := by
  have hopened : db.addOpened sub = db.addSubmission { sub with status := .quizSent } := addSubmission_set db rfl
  obtain rfl | ⟨draw, rfl⟩ := h
  · exact ⟨{ sub with status := .quizSent }, rfl, rfl, hopened⟩
  · rw [hopened]
    exact ⟨{ sub with status := .quizSent, squadQuizDraw := some draw }, rfl, rfl, addSubmission_set db rfl⟩

/-- What is made is one submission on the row, for the squad, and one attempt on it. -/
theorem addStarted_spec (h : db.addStarted saId squad configId rnd = .ok db') :
    ∃ sub attempt, sub.studentsAssignmentId = saId ∧ sub.squadId = squad ∧
      attempt.submissionId = db.submissions.length ∧ db' = db.addRows sub attempt := by
  unfold Db.addStarted at h
  split at h
  · cases h
  · rename_i sa hsa
    split at h
    · cases h
    · obtain ⟨⟨db₁, i⟩, hadd, h⟩ := bind_ok h
      obtain ⟨rfl, sub, hrow, hsquad, rfl⟩ := addQuizOnly_spec hadd
      simp only [addOpened_submissions, Table.getElem?_concat_length] at h
      obtain ⟨plan, db₂, questions, -, -, hdraws, rfl⟩ := startAttempt_first h
      obtain ⟨sub', hrow', hsquad', rfl⟩ := drawn_addSubmission hdraws
      refine ⟨sub', (db.addSubmission sub').newAttempt db.submissions.length sa.studentId plan.configId plan.version
        plan.block questions, hrow'.trans hrow, hsquad'.trans hsquad, rfl, ?_⟩
      rw [Db.addRows, addSubmission_quizAttempts]
      rfl

/-- The commit of rows that are made and stored at once is the sequential one. -/
theorem addRows_of_addStarted {sub : Submission} {attempt : QuizAttempt} (h : db.addStarted saId squad configId rnd = .ok db')
    (hsub : db'.submissions[db.submissions.length]? = some sub)
    (hattempt : db'.quizAttempts[db.quizAttempts.length]? = some attempt) : db.addRows sub attempt = db' := by
  obtain ⟨sub', attempt', -, -, hof, rfl⟩ := addStarted_spec h
  have hsame : (db.addSubmission sub').submissions[db.submissions.length]? = some sub := hsub
  rw [addSubmission_get, Option.some_inj] at hsame
  rw [Db.addRows, Table.getElem?_concat_length, Option.some_inj] at hattempt
  rw [← hsame, ← hattempt, Db.addRows, Db.addRows]

end

end SubmissionsChecker
