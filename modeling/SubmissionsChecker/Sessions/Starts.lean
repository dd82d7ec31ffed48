import SubmissionsChecker.Effects.NewWork
import SubmissionsChecker.Sessions.Rows

/-! `start_or_resume_quiz` as a request among others: its look-ups, the lock of
`open_quiz_submission`, the locked refresh of `_draw_for_member`, the insert and the commit.
Every member of a squad is taken to have a row for the assignment. -/

namespace SubmissionsChecker

open ReadCommitted

/-- The pinned config and its block for the assignment. -/
structure StartPlan where
  configId : ℕ
  version : ℕ
  block : PluginAssignment
  deriving DecidableEq, Repr

namespace Db

/-- The reads of the pinned config. -/
def startPlan (db : Db) (sub : Submission) (asg : SubjectsAssignment) : Except Raised StartPlan :=
  match sub.pluginConfigId with
  | none => .error (.http 503 "No plugin config pinned to this submission")
  | some configId =>
    match db.pluginConfigs[configId]? with
    | none => .error (.http 503 "Plugin config not found")
    | some cfg =>
      if asg.code.isNone then .error (.http 404 "Assignment has no config code")
      else
        let block := cfg.assignment asg.code
        if block.quiz.questions = [] then .error (.http 404 "No quiz configured for this assignment")
        else .ok ⟨configId, cfg.version, block⟩

/-- The attempts of the student use up the cap. -/
def capReached (block : PluginAssignment) (sub : Submission) (studentId : ℕ) (existing : List QuizAttempt) : Bool :=
  (effectiveMaxAttempts block.quiz.maxQuizAttempts sub (some studentId)).any fun cap =>
    decide (cap ≤ ((existing.filter (·.status.isTerminal)).length : ℤ))

/-- The tail of `open_quiz_submission`, for a student with nothing to reuse. -/
def createQuizSubmission (db : Db) (saId studentId : ℕ) : Except Raised (Db × ℕ) :=
  match db.assignmentOf saId with
  | none => .error (.quizOpenError "Quiz not available for this submission")
  | some asg =>
    if !asg.config.isScoredMode then .error (.quizOpenError "Quiz not available for this submission")
    else do
      let squad ← db.squadForUpload asg.subjectId studentId
        (.quizOpenError "Squad invitation pending; answer or cancel it first.")
      match db.latestConfig asg.subjectId with
      | none => .error (.quizOpenError "No plugin config for this subject")
      | some configId =>
        let i := db.submissions.length
        let db₁ := db.addSubmission
          { studentsAssignmentId := saId, sourceType := .quizOnly, pluginConfigId := some configId,
            squadId := squad, testResults := some (.skipped .quizAndTeacherScores), createdAt := db.now }
        let db₂ ← db₁.transition i .quizOpened
        .ok (db₂, i)

/-- A new submission and its first attempt, which are committed together. -/
def openAndStart (db : Db) (saId studentId : ℕ) (rnd : Shuffles) : Except Raised Db :=
  match db.studentsAssignments[saId]? with
  | none => .error (.http 404 "")
  | some sa =>
    match db.subjectsAssignments[sa.subjectsAssignmentId]? with
    | none => .error (.http 404 "")
    | some asg => do
      let (db₁, i) ← db.createQuizSubmission saId studentId
      match db₁.submissions[i]? with
      | none => .error (.http 403 "Quiz not available for this submission")
      | some sub => db₁.startAttempt sa asg i sub [] rnd

/-- The look-up of a start: the submission it finds, as the session has it. -/
def lookUp (db : Db) (loaded : Loaded) (saId : ℕ) : Option (ℕ × Submission) :=
  (db.latestSubmission saId).2.bind fun i => (db.load loaded i).map (i, ·)

end Db

/-- What `source_metadata` holds: the extra attempts and the shared draw. -/
def Submission.metadata (sub : Submission) : List (ℕ × ℕ) × Option SquadDraw :=
  (sub.quizExtraAttempts, sub.squadQuizDraw)

def Db.metadata (db : Db) (i : ℕ) : Option (List (ℕ × ℕ) × Option SquadDraw) :=
  (db.submissions[i]?).map Submission.metadata

/-- The row belongs to the student. -/
def Db.Owns (db : Db) (saId studentId : ℕ) : Prop :=
  ∃ sa, db.studentsAssignments[saId]? = some sa ∧ sa.studentId = studentId

/-- Where a start request stands. -/
inductive Start
  | asked (saId studentId : ℕ) (rnd : Shuffles)
  /-- The student's row is loaded with its submissions. -/
  | owned (saId studentId : ℕ) (rnd : Shuffles) (loaded : Loaded)
  /-- `open_quiz_submission` waits for the student's row. -/
  | opening (saId studentId : ℕ) (rnd : Shuffles) (loaded : Loaded)
  | opened (saId studentId : ℕ) (rnd : Shuffles) (loaded : Loaded)
  | creating (saId studentId : ℕ) (rnd : Shuffles)
  | inserting (saId studentId : ℕ) (rnd : Shuffles)
  /-- A submission at the quiz. -/
  | found (i : ℕ) (sub : Submission) (studentId : ℕ) (asg : SubjectsAssignment) (rnd : Shuffles)
  | counted (i : ℕ) (sub : Submission) (studentId : ℕ) (asg : SubjectsAssignment) (rnd : Shuffles)
      (existing : List QuizAttempt)
  /-- A squad's attempt waits for the submission's row. -/
  | drawing (i : ℕ) (squad : Squad) (studentId : ℕ) (plan : StartPlan) (rnd : Shuffles)
      (existing : List QuizAttempt)
  /-- The attempt, with `source_metadata` as refreshed and the draw to store in it. -/
  | drawn (i studentId : ℕ) (attempt : QuizAttempt) (existing : List QuizAttempt) (refreshed : Submission)
      (draw : SquadDraw)
  | adding (i studentId : ℕ) (attempt : QuizAttempt) (existing : List QuizAttempt)
  | started (i studentId : ℕ)
  | ended

namespace Start

/-- After the look-up: open the quiz, or go on with a submission at `QUIZ_SENT`. -/
def afterLookUp (db : Db) (saId studentId : ℕ) (rnd : Shuffles) (loaded : Loaded) : Start :=
  match db.studentsAssignments[saId]? with
  | none => .ended
  | some sa =>
    if sa.studentId ≠ studentId then .ended
    else
      match db.subjectsAssignments[sa.subjectsAssignmentId]? with
      | none => .ended
      | some asg =>
        match db.lookUp loaded saId with
        | none => if asg.config.isScoredMode then .opening saId studentId rnd loaded else .ended
        | some (i, sub) =>
          if sub.status.isReopenable && asg.config.isScoredMode then
            .opening saId studentId rnd ((i, sub) :: loaded)
          else if sub.status = .quizSent then .found i sub studentId asg rnd
          else .ended

/-- `open_quiz_submission` under the lock: the second look-up. -/
def underLock (db : Db) (saId studentId : ℕ) (rnd : Shuffles) (loaded : Loaded) : Start :=
  match db.assignmentOf saId, db.lookUp loaded saId with
  | none, _ => .ended
  | some _, none => .creating saId studentId rnd
  | some asg, some (i, sub) =>
    if sub.status.isReopenable then .creating saId studentId rnd
    else if sub.status = .quizSent then .found i sub studentId asg rnd
    else .ended

/-- The checks on the attempts of the student; a squad draws its questions first. -/
def afterCount (db : Db) (i : ℕ) (sub : Submission) (studentId : ℕ) (asg : SubjectsAssignment) (rnd : Shuffles)
    (existing : List QuizAttempt) : Start :=
  if existing.any (·.status == .inProgress) || existing.any (·.passed) then .ended
  else
    match db.startPlan sub asg with
    | .error _ => .ended
    | .ok plan =>
      if Db.capReached plan.block sub studentId existing then .ended
      else
        match sub.squadId.bind (db.squads[·]?) with
        | none =>
          .adding i studentId (db.newAttempt i studentId plan.configId plan.version plan.block
            (snapshotQuestions plan.block.quiz (selectQuestionIds plan.block.quiz rnd))) existing
        | some squad => .drawing i squad studentId plan rnd existing

/-- `_draw_for_member`, with `source_metadata` refreshed under the lock. -/
def draw (db : Db) (i : ℕ) (squad : Squad) (studentId : ℕ) (plan : StartPlan) (rnd : Shuffles)
    (existing : List QuizAttempt) : Start :=
  match db.submissions[i]?, db.drawForMember i squad plan.block.quiz studentId
      (0 < (existing.filter (·.status.isTerminal)).length) rnd with
  | some refreshed, .ok (db₁, questions) =>
    match (db₁.submissions[i]?).bind (·.squadQuizDraw) with
    | none => .ended
    | some draw => .drawn i studentId (db.newAttempt i studentId plan.configId plan.version plan.block questions)
        existing refreshed draw
  | _, _ => .ended

/-- The whole `source_metadata` is written when the draw is new. -/
def storeDraw (refreshed : Submission) (draw : SquadDraw) (row : Submission) : Submission :=
  if refreshed.squadQuizDraw.isSome then row
  else { row with quizExtraAttempts := refreshed.quizExtraAttempts, squadQuizDraw := some draw }

def next : Start → Stmt Db Start Row
  | asked saId studentId rnd => .read fun db => .owned saId studentId rnd (db.ownSubmissions saId)
  | owned saId studentId rnd loaded => .read fun db => afterLookUp db saId studentId rnd loaded
  | opening saId studentId rnd loaded => .lock (.studentAssignment saId) fun _ => .opened saId studentId rnd loaded
  | opened saId studentId rnd loaded => .read fun db => underLock db saId studentId rnd loaded
  | creating saId studentId rnd => .read fun db =>
      match db.openAndStart saId studentId rnd with
      | .ok _ => .inserting saId studentId rnd
      | .error _ => .ended
  | inserting saId studentId rnd =>
      .commit (fun db => ((db.openAndStart saId studentId rnd).toOption).getD db) .ended
  | found i sub studentId asg rnd => .read fun db => .counted i sub studentId asg rnd (db.attemptsOf i studentId)
  | counted i sub studentId asg rnd existing => .read fun db => afterCount db i sub studentId asg rnd existing
  | drawing i squad studentId plan rnd existing =>
      .lock (.submission i) fun db => draw db i squad studentId plan rnd existing
  | drawn i studentId attempt _ refreshed draw =>
      .commit (fun db => { db.setSubmission i (storeDraw refreshed draw) with
        quizAttempts := db.quizAttempts ++ [attempt] }) (.started i studentId)
  | adding i studentId attempt _ =>
      .commit (fun db => { db with quizAttempts := db.quizAttempts ++ [attempt] }) (.started i studentId)
  | started _ _ => .done
  | ended => .rollback .ended

end Start

section

variable {db db' : Db} {saId t i : ℕ} {sub : Submission} {sa : StudentAssignment} {asg : SubjectsAssignment}
  {existing : List QuizAttempt} {rnd : Shuffles}

/-- A start request decides as the sequential route does. -/
theorem startAttempt_eq : db.startAttempt sa asg i sub existing rnd = (db.startPlan sub asg).bind fun plan =>
    if Db.capReached plan.block sub sa.studentId existing then
      if existing = [] then .error (.http 403 "No quiz attempts remaining") else .ok db
    else (do
      let (db₁, questions) ←
        match db.squadForSubmission i with
        | none => .ok (db, snapshotQuestions plan.block.quiz (selectQuestionIds plan.block.quiz rnd))
        | some squad =>
          db.drawForMember i squad plan.block.quiz sa.studentId (0 < (existing.filter (·.status.isTerminal)).length) rnd
      .ok { db₁ with quizAttempts := db₁.quizAttempts ++
        [db₁.newAttempt i sa.studentId plan.configId plan.version plan.block questions] }) := by
  unfold Db.startAttempt Db.startPlan
  cases sub.pluginConfigId with
  | none => rfl
  | some c =>
    dsimp only
    cases db.pluginConfigs[c]? with
    | none => rfl
    | some cfg =>
      dsimp only
      by_cases hcode : asg.code.isNone = true
      · rw [if_pos hcode, if_pos hcode]
        rfl
      by_cases hquiz : (cfg.assignment asg.code).quiz.questions = []
      · rw [if_neg hcode, if_neg hcode, if_pos hquiz, if_pos hquiz]
        rfl
      · rw [if_neg hcode, if_neg hcode, if_neg hquiz, if_neg hquiz]
        rfl

/-- A start that goes through with no earlier attempt adds one, within the cap. -/
theorem startAttempt_first (h : db.startAttempt sa asg i sub [] rnd = .ok db') :
    ∃ plan db₁ questions, db.startPlan sub asg = .ok plan ∧
      Db.capReached plan.block sub sa.studentId [] = false ∧ Draws i db db₁ ∧
      db' = { db₁ with quizAttempts := db₁.quizAttempts ++
        [db₁.newAttempt i sa.studentId plan.configId plan.version plan.block questions] } := by
  rw [startAttempt_eq] at h
  cases hplan : db.startPlan sub asg with
  | error e => rw [hplan] at h; cases h
  | ok plan =>
    rw [hplan] at h
    change ite _ _ _ = _ at h
    by_cases hcap : Db.capReached plan.block sub sa.studentId [] = true
    · rw [if_pos hcap, if_pos rfl] at h
      cases h
    rw [if_neg hcap] at h
    rw [Bool.not_eq_true] at hcap
    split at h
    · cases h
      exact ⟨plan, db, _, rfl, hcap, .inl rfl, rfl⟩
    · obtain ⟨⟨db₁, questions⟩, hdraw, h⟩ := bind_ok h
      cases h
      exact ⟨plan, db₁, questions, rfl, hcap, drawForMember_draws hdraw, rfl⟩

/-- The row `open_quiz_submission` adds, before its quiz is opened. -/
structure QuizOnly (db : Db) (saId t : ℕ) (sub : Submission) : Prop where
  row : sub.studentsAssignmentId = saId
  pending : sub.status = .pending
  source : sub.sourceType = .quizOnly
  created : sub.createdAt = db.now
  ungraded : sub.gradeBreakdown = none
  metadata : sub.quizExtraAttempts = [] ∧ sub.squadQuizDraw = none
  scored : ∃ asg squad refuse c, db.assignmentOf saId = some asg ∧ asg.config.isScoredMode = true ∧
    db.squadForUpload asg.subjectId t refuse = .ok squad ∧ sub.squadId = squad ∧
    db.latestConfig asg.subjectId = some c ∧ sub.pluginConfigId = some c

/-- A fresh row whose quiz is opened at once. -/
def Db.addOpened (db : Db) (sub : Submission) : Db :=
  (db.addSubmission sub).setSubmission db.submissions.length ({ · with status := .quizSent })

theorem addOpened_submissions (db : Db) (sub : Submission) :
    (db.addOpened sub).submissions = db.submissions ++ [{ sub with status := .quizSent }] := by
  rw [Db.addOpened, Db.setSubmission_submissions, addSubmission_submissions]
  exact Table.modify_concat_length _ _ _

theorem createQuizSubmission_spec {db₁ : Db} (h : db.createQuizSubmission saId t = .ok (db₁, i)) :
    i = db.submissions.length ∧ ∃ sub, QuizOnly db saId t sub ∧ db₁ = db.addOpened sub := by
  unfold Db.createQuizSubmission at h
  cases hasg : db.assignmentOf saId with
  | none => rw [hasg] at h; cases h
  | some asg =>
    simp only [hasg] at h
    split_ifs at h with hscored
    obtain ⟨squad, hsquad, h⟩ := bind_ok h
    cases hc : db.latestConfig asg.subjectId with
    | none => simp only [hc] at h; cases h
    | some c =>
      simp only [hc] at h
      obtain ⟨db₂, hopen, h⟩ := bind_ok h
      cases h
      have hscored' : asg.config.isScoredMode = true := by simpa using hscored
      rw [transition_of_status (s := .pending) (by rw [Db.status, addSubmission_get]; rfl) rfl] at hopen
      cases hopen
      exact ⟨rfl, _, ⟨rfl, rfl, rfl, rfl, rfl, ⟨rfl, rfl⟩, asg, squad, _, c, hasg, hscored', hsquad, rfl, hc, rfl⟩, rfl⟩

/-- On the student's own row it is what the sequential route adds. -/
theorem QuizOnly.adds (h : QuizOnly db saId t sub) (hsa : db.studentsAssignments[saId]? = some sa)
    (hst : sa.studentId = t) : Adds db saId sub db := by
  obtain ⟨asg, squad, refuse, c, hasg, hscored, hsquad, hsub, hc, hpin⟩ := h.scored
  rw [Db.assignmentOf, hsa, Option.bind_some] at hasg
  rw [← hst] at hsquad
  exact ⟨.refl _ db, .refl db, rfl, h.metadata.2, sa, asg, squad, refuse, hsa, hasg, hsquad, h.row, hsub, h.created, h.ungraded,
    .inr ⟨h.pending, h.source, hscored, c, hpin, hc⟩⟩

/-- A new submission with its first attempt, within the cap. -/
theorem openAndStart_spec (h : db.openAndStart saId t rnd = .ok db') :
    ∃ sub sa asg plan db₁ questions, db.studentsAssignments[saId]? = some sa ∧
      db.subjectsAssignments[sa.subjectsAssignmentId]? = some asg ∧ QuizOnly db saId t sub ∧
      (db.addOpened sub).startPlan { sub with status := .quizSent } asg = .ok plan ∧
      Db.capReached plan.block { sub with status := .quizSent } sa.studentId [] = false ∧
      Draws db.submissions.length (db.addOpened sub) db₁ ∧
      db' = { db₁ with quizAttempts := db₁.quizAttempts ++
        [db₁.newAttempt db.submissions.length sa.studentId plan.configId plan.version plan.block questions] } := by
  unfold Db.openAndStart at h
  cases hsa : db.studentsAssignments[saId]? with
  | none => simp only [hsa] at h; cases h
  | some sa =>
    simp only [hsa] at h
    cases hasg : db.subjectsAssignments[sa.subjectsAssignmentId]? with
    | none => simp only [hasg] at h; cases h
    | some asg =>
      simp only [hasg] at h
      obtain ⟨⟨db₁, i⟩, hcreate, h⟩ := bind_ok h
      obtain ⟨rfl, sub, hsub, rfl⟩ := createQuizSubmission_spec hcreate
      simp only [addOpened_submissions, Table.getElem?_concat_length] at h
      obtain ⟨plan, db₂, questions, hplan, hcap, hdraws, rfl⟩ := startAttempt_first h
      exact ⟨sub, sa, asg, plan, db₂, questions, rfl, hasg, hsub, hplan, hcap, hdraws, rfl⟩

end

end SubmissionsChecker
