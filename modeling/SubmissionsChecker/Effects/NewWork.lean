import SubmissionsChecker.Effects.Attempts
import SubmissionsChecker.Effects.Tasks
import SubmissionsChecker.Routes.StudentPortal

/-! What an upload and the start of a quiz add: one submission for the student's row or their
squad, and one attempt at the newest submission in reach. -/

namespace SubmissionsChecker

section

variable {db db' : Db}

/-- The newest of some submissions is one of them. -/
theorem newestOf_mem {ids : List ℕ} {i : ℕ} (h : db.newestOf ids = some i) : i ∈ ids := by
  unfold Db.newestOf at h
  induction ids using List.reverseRecOn generalizing i with
  | nil => cases h
  | append_singleton ids j ih =>
    rw [List.foldl_append, List.foldl_cons, List.foldl_nil] at h
    split at h
    · rw [Option.some_inj] at h; simp [h]
    · rename_i best hbest
      split_ifs at h
      · rw [Option.some_inj] at h; simp [h]
      · rw [Option.some_inj] at h
        subst h
        exact List.mem_append_left _ (ih hbest)

/-- Looking for the latest submission only creates rows. -/
theorem latestSubmission_submissions (db : Db) (saId : ℕ) :
    (db.latestSubmission saId).1.submissions = db.submissions := by
  unfold Db.latestSubmission Db.latestSubmissionFor Db.scopeSaIds
  split
  · rfl
  · split
    · rfl
    · dsimp only
      split
      · rfl
      · exact memberSaIds_submissions _ _ db

/-- Submission `i` is on a row of student `t` for the assignment, or of a squad mate. -/
def Db.Reaches (db : Db) (t asgId i : ℕ) : Prop :=
  ∃ sub row asg, db.submissions[i]? = some sub ∧ db.studentsAssignments[sub.studentsAssignmentId]? = some row ∧
    row.subjectsAssignmentId = asgId ∧ db.subjectsAssignments[asgId]? = some asg ∧
    (row.studentId = t ∨ ∃ (q : ℕ) (s : Squad), db.squads[q]? = some s ∧ s.subjectId = asg.subjectId ∧
      t ∈ s.members ∧ row.studentId ∈ s.members)

theorem Within.reaches {scope : Scope} (h : Within scope db db') {t asgId i : ℕ} (hr : db.Reaches t asgId i) :
    db'.Reaches t asgId i := by
  obtain ⟨sub, row, asg, hsub, hrow, hasg, hasgs, hst⟩ := hr
  obtain ⟨sub', hsub', -⟩ := h.sub hsub
  have hown := h.map_sub (·.studentsAssignmentId) i (by simp)
  rw [hsub', hsub, Option.map_some, Option.map_some, Option.some_inj] at hown
  obtain ⟨row', hrow', hst', hasg'⟩ := h.rows _ row hrow
  refine ⟨sub', row', asg, hsub', by rw [hown]; exact hrow', hasg'.trans hasg, by
    rw [h.subjectsAssignments]; exact hasgs, ?_⟩
  rw [hst', h.squads]
  exact hst

theorem activeSquad_some {subjectId t q : ℕ} (h : db.activeSquad subjectId t = some q) :
    ∃ s, db.squads[q]? = some s ∧ s.subjectId = subjectId ∧ t ∈ s.members ∧ s.lockedAt.isSome = true := by
  obtain ⟨s, hs, hp⟩ := Table.findId_some h
  simp only [Bool.and_eq_true, beq_iff_eq, List.contains_iff_mem] at hp
  exact ⟨s, hs, hp.1.1, hp.1.2, hp.2⟩

/-- The latest submission is one the student reaches. -/
theorem latestSubmission_reaches {saId i : ℕ} {sa : StudentAssignment} {asg : SubjectsAssignment}
    (hsa : db.studentsAssignments[saId]? = some sa)
    (hasg : db.subjectsAssignments[sa.subjectsAssignmentId]? = some asg)
    (h : (db.latestSubmission saId).2 = some i) :
    (db.latestSubmission saId).1.Reaches sa.studentId sa.subjectsAssignmentId i := by
  have hw := within_latestSubmission .grades db saId
  have hdb : (db.latestSubmission saId).1 =
      (db.scopeSaIds sa.studentId asg.subjectId sa.subjectsAssignmentId).1 := by
    unfold Db.latestSubmission Db.latestSubmissionFor
    simp only [hsa, hasg]
  unfold Db.latestSubmission Db.latestSubmissionFor at h
  simp only [hsa, hasg] at h
  have hmem := newestOf_mem h
  unfold Db.submissionsIn at hmem
  obtain ⟨sub, hsub, hin⟩ := Table.mem_idsWhere.mp hmem
  rw [← hdb] at hsub
  obtain ⟨row, hrow, hrowasg, hst⟩ := scopeSaIds_row (by simpa using hin)
  rw [← hdb] at hrow
  refine ⟨sub, row, asg, hsub, hrow, hrowasg, by rw [hw.subjectsAssignments]; exact hasg, ?_⟩
  rcases hst with hst | ⟨q, s, hq, hs, hst⟩
  · exact .inl hst
  · obtain ⟨s', hs', hsubject, ht, -⟩ := activeSquad_some hq
    rw [hs] at hs'
    cases hs'
    exact .inr ⟨q, s, by rw [hw.squads]; exact hs, hsubject, ht, hst⟩

/-- The submission a student adds to the row `saId`, as the routes create it. -/
structure Adds (db : Db) (saId : ℕ) (sub : Submission) (db₁ : Db) : Prop where
  within : Within .grades db db₁
  ungraded : Ungraded db db₁
  same : db₁.submissions = db.submissions
  undrawn : sub.squadQuizDraw = none
  row : ∃ sa asg squad refuse, db.studentsAssignments[saId]? = some sa ∧
    db.subjectsAssignments[sa.subjectsAssignmentId]? = some asg ∧
    db.squadForUpload asg.subjectId sa.studentId refuse = .ok squad ∧
    sub.studentsAssignmentId = saId ∧ sub.squadId = squad ∧ sub.createdAt = db.now ∧
    sub.gradeBreakdown = none ∧
    (sub.status = .pending ∧ sub.pluginConfigId = none ∧ asg.config.isScoredMode = false ∨
      sub.status = .pending ∧ sub.sourceType = .quizOnly ∧ asg.config.isScoredMode = true ∧
        ∃ c, sub.pluginConfigId = some c ∧ db.latestConfig asg.subjectId = some c)

/-- An upload: the submission is added, and checked at once in the quiz-first modes. -/
inductive Uploaded (db : Db) (saId : ℕ) (check : CheckResult) : Db → Prop
  | queued {sub db₁} (ha : Adds db saId sub db₁) (hpin : sub.pluginConfigId = none) :
      Uploaded db saId check ((db₁.addSubmission sub).addMessage (.runChecks db.submissions.length))
  | checked {sub db₁ db' m} (ha : Adds db saId sub db₁) (hpin : sub.pluginConfigId = none)
      (hm : (db₁.addSubmission sub).checkMode db.submissions.length = some m) (hfirst : m.isQuizFirst = true)
      (hc : Checked db.submissions.length check (db₁.addSubmission sub) db') :
      Uploaded db saId check db'

theorem squadForUpload_within {subjectId t : ℕ} {refuse : Raised} {scope : Scope} (h : Within scope db db') :
    db'.squadForUpload subjectId t refuse = db.squadForUpload subjectId t refuse := by
  unfold Db.squadForUpload Db.hasPendingInvites Db.squadHasPendingInvites Db.squadOf
  rw [h.subjects, h.squadInvites, h.squads]

theorem uploadScope_spec (db : Db) (saId asgId : ℕ) (squad : Option ℕ) :
    Within .grades db (db.uploadScope saId asgId squad).1 ∧ Ungraded db (db.uploadScope saId asgId squad).1 ∧
      (db.uploadScope saId asgId squad).1.submissions = db.submissions := by
  unfold Db.uploadScope
  split
  · exact ⟨.refl _ db, .refl db, rfl⟩
  · exact ⟨within_memberSaIds _ _ _ db, ungraded_memberSaIds _ _ db, memberSaIds_submissions _ _ db⟩

theorem isQuizFirstAssignment_mode {asg : SubjectsAssignment} {sub : Submission} {i : ℕ}
    (hsub : db.submissions[i]? = some sub) (hasg : db.assignmentOf sub.studentsAssignmentId = some asg)
    (hpin : sub.pluginConfigId = none) (h : db.isQuizFirstAssignment asg.subjectId asg.code = true) :
    ∃ m, db.checkMode i = some m ∧ m.isQuizFirst = true := by
  unfold Db.isQuizFirstAssignment at h
  split at h
  · rename_i code cfg hcode hcfg
    obtain ⟨c, hc, hcfg⟩ := Option.bind_eq_some_iff.mp hcfg
    refine ⟨_, ?_, h⟩
    rw [checkMode_eq hsub hasg (c := c) (by rw [hpin]; exact hc) hcfg, hcode]
    rfl
  · cases h

theorem addSubmission_get (db : Db) (sub : Submission) :
    (db.addSubmission sub).submissions[db.submissions.length]? = some sub := by
  rw [addSubmission_submissions]
  exact Table.getElem?_concat_length _ _

theorem addSubmission_assignmentOf (db : Db) (sub : Submission) (saId : ℕ) :
    (db.addSubmission sub).assignmentOf saId = db.assignmentOf saId := by
  simp only [Db.assignmentOf, addSubmission_studentsAssignments, addSubmission_subjectsAssignments]

theorem Within.assignmentOf {scope : Scope} (h : Within scope db db') {saId : ℕ} {asg : SubjectsAssignment}
    (ha : db.assignmentOf saId = some asg) : db'.assignmentOf saId = some asg := by
  unfold Db.assignmentOf at ha ⊢
  obtain ⟨row, hrow, hasg⟩ := Option.bind_eq_some_iff.mp ha
  obtain ⟨row', hrow', -, hasg'⟩ := h.rows saId row hrow
  rw [hrow', Option.bind_some, hasg', h.subjectsAssignments]
  exact hasg

theorem submitAssignment_spec {saId t : ℕ} {isZip : Bool} {size : ℕ} {check : CheckResult}
    (h : db.submitAssignment saId t isZip size check = .ok db') : Uploaded db saId check db' := by
  unfold Db.submitAssignment at h
  cases hsa : db.studentsAssignments[saId]? with
  | none => simp only [hsa] at h; cases h
  | some sa =>
    simp only [hsa] at h
    by_cases hst : sa.studentId ≠ t
    · rw [if_pos hst] at h; cases h
    rw [if_neg hst] at h
    cases hasg : db.subjectsAssignments[sa.subjectsAssignmentId]? with
    | none => simp only [hasg] at h; cases h
    | some asg =>
      simp only [hasg] at h
      by_cases hscored : asg.config.isScoredMode = true
      · rw [if_pos hscored] at h; cases h
      rw [if_neg hscored] at h
      by_cases hlate : db.refusesLate asg = true
      · rw [if_pos hlate] at h; cases h
      rw [if_neg hlate] at h
      obtain ⟨squad, hsquad, h⟩ := bind_ok h
      obtain ⟨hw, hu, hsame⟩ := uploadScope_spec db saId sa.subjectsAssignmentId squad
      set db₁ := (db.uploadScope saId sa.subjectsAssignmentId squad).1 with hdb₁
      rw [not_ne_iff] at hst
      have hadds : Adds db saId { studentsAssignmentId := saId, squadId := squad, createdAt := db₁.now } db₁ :=
        ⟨hw, hu, hsame, rfl, sa, asg, squad, _, hsa, hasg, by rw [hst]; exact hsquad, rfl, rfl, hw.now, rfl,
          .inl ⟨rfl, rfl, by simpa using hscored⟩⟩
      split_ifs at h with hdone hmax hzip hsize hfirst
      · obtain ⟨m, hm, hquiz⟩ := isQuizFirstAssignment_mode (addSubmission_get db₁ _)
          ((addSubmission_assignmentOf db₁ _ _).trans (hw.assignmentOf (by simp [Db.assignmentOf, hsa, hasg])))
          rfl hfirst
        have hc := executeCheck_spec (db₁.addSubmission
          { studentsAssignmentId := saId, squadId := squad, createdAt := db₁.now }) db₁.submissions.length check
        split at h
        · rename_i db₃ hrun
          cases h
          rw [hrun] at hc
          rw [hsame] at hc hm
          exact .checked hadds rfl hm hquiz hc
        · cases h
      · cases h
        have hqueued : Uploaded db saId check _ := .queued hadds rfl
        rw [← hsame] at hqueued
        exact hqueued

/-- Opening the quiz of a scored assignment: the submission in reach, or a new one at the quiz. -/
inductive Opened (db : Db) (saId : ℕ) : Db → ℕ → Prop
  | reused {i} (hi : (db.latestSubmission saId).2 = some i) : Opened db saId (db.latestSubmission saId).1 i
  | opened {sub db₁} (ha : Adds db saId sub db₁) (hpin : sub.pluginConfigId ≠ none) :
      Opened db saId ((db₁.addSubmission sub).setSubmission db.submissions.length ({ · with status := .quizSent }))
        db.submissions.length

theorem openQuizSubmission_spec {saId t i : ℕ} {sa : StudentAssignment}
    (hsa : db.studentsAssignments[saId]? = some sa) (hst : sa.studentId = t)
    (h : db.openQuizSubmission saId t = .ok (db', i)) : Opened db saId db' i := by
  have hw := within_latestSubmission .grades db saId
  have hu := ungraded_latestSubmission db saId
  have hsame := latestSubmission_submissions db saId
  unfold Db.openQuizSubmission at h
  dsimp only at h
  split at h
  · rename_i j hj
    cases h
    exact .reused (Option.mem_filter_iff.mp hj).1
  · set db₁ := (db.latestSubmission saId).1 with hdb₁
    cases hasg₁ : db₁.assignmentOf saId with
    | none => simp only [hasg₁] at h; cases h
    | some asg =>
      simp only [hasg₁] at h
      by_cases hscored : asg.config.isScoredMode = true
      · rw [if_neg (by simp [hscored])] at h
        obtain ⟨squad, hsquad, h⟩ := bind_ok h
        cases hlatest : db₁.latestConfig asg.subjectId with
        | none => simp only [hlatest] at h; cases h
        | some c =>
          simp only [hlatest] at h
          obtain ⟨db₃, hopen, h⟩ := bind_ok h
          cases h
          have hasg : db.subjectsAssignments[sa.subjectsAssignmentId]? = some asg := by
            obtain ⟨row, hrow, hstu, ha⟩ := hw.rows saId sa hsa
            rw [Db.assignmentOf, hrow, Option.bind_some, ha, hw.subjectsAssignments] at hasg₁
            exact hasg₁
          have hsquad' := (squadForUpload_within hw).symm.trans hsquad
          rw [← hst] at hsquad'
          have hlatest' : db.latestConfig asg.subjectId = some c := by
            rw [← hlatest, Db.latestConfig, Db.latestConfig, hw.pluginConfigs]
          have hadds : Adds db saId
              { studentsAssignmentId := saId, sourceType := .quizOnly, pluginConfigId := some c, squadId := squad,
                testResults := some (.skipped .quizAndTeacherScores), createdAt := db₁.now } db₁ :=
            ⟨hw, hu, hsame, rfl, sa, asg, squad, _, hsa, hasg, hsquad', rfl, rfl, hw.now, rfl,
              .inr ⟨rfl, rfl, hscored, c, rfl, hlatest'⟩⟩
          have hpending : (db₁.addSubmission
              { studentsAssignmentId := saId, sourceType := .quizOnly, pluginConfigId := some c, squadId := squad,
                testResults := some (.skipped .quizAndTeacherScores), createdAt := db₁.now }).status
              db₁.submissions.length = some .pending := by
            rw [Db.status, addSubmission_get]
            rfl
          rw [transition_of_status hpending
            (show SubmissionStatus.pending.transitions .quizOpened = some .quizSent from rfl)] at hopen
          cases hopen
          have hopened := Opened.opened hadds (by simp)
          rw [← hsame] at hopened
          exact hopened
      · rw [if_pos (by simpa using hscored)] at h; cases h

/-! The start of an attempt -/

/-- A new attempt of student `t` at submission `i`, which is at the quiz. -/
structure StartsAttempt (db : Db) (i t : ℕ) (a : QuizAttempt) : Prop where
  sent : db.status i = some .quizSent
  reach : ∃ asgId, db.Reaches t asgId i
  submission : a.submissionId = i
  student : a.studentId = some t
  running : a.status = .inProgress
  unpassed : a.isPassed = none
  config : ∃ block, db.pinnedBlock i = some block ∧
    a.configSnapshot.maxQuizAttempts = block.quiz.maxQuizAttempts ∧
    a.configSnapshot.reviewMode = some (block.reviewMode.getD .testsOnly)
  alone : ∀ b ∈ db.attemptsOf i t, b.status ≠ .inProgress ∧ b.passed = false

/-- At most the shared draw of submission `i` was written. -/
def Draws (i : ℕ) (db db' : Db) : Prop :=
  db' = db ∨ ∃ draw, db' = db.setSubmission i ({ · with squadQuizDraw := some draw })

theorem squadDraw_draws {i : ℕ} {squad : Squad} {quiz : QuizConfig} {rnd : Shuffles} {draw : SquadDraw}
    (h : db.squadDraw i squad quiz rnd = .ok (db', draw)) : Draws i db db' := by
  unfold Db.squadDraw at h
  split at h
  · cases h; exact .inl rfl
  · dsimp only at h
    split_ifs at h
    cases h
    exact .inr ⟨_, rfl⟩

theorem drawForMember_draws {i t : ℕ} {squad : Squad} {quiz : QuizConfig} {retry : Bool} {rnd : Shuffles}
    {questions : List QuestionSnapshot} (h : db.drawForMember i squad quiz t retry rnd = .ok (db', questions)) :
    Draws i db db' := by
  obtain ⟨⟨db₁, draw⟩, hdraw, h⟩ := bind_ok h
  dsimp only at h
  split_ifs at h
  cases h
  exact squadDraw_draws hdraw

/-- `start_or_resume_quiz` from the point where the submission is known. -/
inductive Starts (db : Db) (i t : ℕ) : Db → Prop
  | same : Starts db i t db
  | attempt {db₁ a} (hd : Draws i db db₁) (ha : StartsAttempt db i t a) :
      Starts db i t { db₁ with quizAttempts := db₁.quizAttempts ++ [a] }

theorem startAttempt_spec {sa : StudentAssignment} {asg : SubjectsAssignment} {i : ℕ} {sub : Submission}
    {rnd : Shuffles} (hsub : db.submissions[i]? = some sub) (hsent : sub.status = .quizSent)
    (hasg : db.subjectsAssignments[sa.subjectsAssignmentId]? = some asg)
    (hreach : db.Reaches sa.studentId sa.subjectsAssignmentId i)
    (halone : ∀ b ∈ db.attemptsOf i sa.studentId, b.status ≠ .inProgress ∧ b.passed = false)
    (h : db.startAttempt sa asg i sub (db.attemptsOf i sa.studentId) rnd = .ok db') :
    Starts db i sa.studentId db' := by
  unfold Db.startAttempt at h
  cases hpin : sub.pluginConfigId with
  | none => simp only [hpin] at h; cases h
  | some c =>
    simp only [hpin] at h
    cases hcfg : db.pluginConfigs[c]? with
    | none => simp only [hcfg] at h; cases h
    | some cfg =>
      simp only [hcfg] at h
      by_cases hcode : asg.code.isNone = true
      · rw [if_pos hcode] at h; cases h
      rw [if_neg hcode] at h
      by_cases hquiz : (cfg.assignment asg.code).quiz.questions = []
      · rw [if_pos hquiz] at h; cases h
      rw [if_neg hquiz] at h
      have hblock : db.pinnedBlock i = some (cfg.assignment asg.code) := by
        obtain ⟨sub', row, asg', hsub', hrow, hrowasg, hasg', -⟩ := hreach
        rw [hsub] at hsub'
        cases hsub'
        rw [hasg] at hasg'
        cases hasg'
        obtain ⟨code, hcode⟩ := Option.ne_none_iff_exists'.mp (Option.isNone_iff_eq_none.not.mp hcode)
        have hassigned : db.assignmentOf sub.studentsAssignmentId = some asg := by
          rw [Db.assignmentOf, hrow, Option.bind_some, hrowasg, hasg]
        simp only [Db.pinnedBlock, hsub, hpin, Option.bind_some, hcfg, hassigned, hcode, Option.map_some]
      split_ifs at h with hused
      · cases h; exact .same
      · have hstart : ∀ db₁ questions, Draws i db db₁ → Starts db i sa.studentId
            { db₁ with quizAttempts := db₁.quizAttempts ++
                [db₁.newAttempt i sa.studentId c cfg.version (cfg.assignment asg.code) questions] } :=
          fun db₁ questions hdraws => .attempt hdraws ⟨by rw [Db.status, hsub, Option.map_some, hsent],
            ⟨_, hreach⟩, rfl, rfl, rfl, rfl, ⟨_, hblock, rfl, rfl⟩, halone⟩
        split at h
        · cases h; exact hstart _ _ (.inl rfl)
        · obtain ⟨⟨db₁, questions⟩, hdraw, h⟩ := bind_ok h
          cases h
          exact hstart _ _ (drawForMember_draws hdraw)

/-- The start of a quiz: a look at the latest submission, perhaps a new one in a scored
assignment, and perhaps a new attempt. -/
inductive Started (db : Db) (saId t : ℕ) : Db → Prop
  | looked : Started db saId t (db.latestSubmission saId).1
  | latest {i db'} (hs : Starts (db.latestSubmission saId).1 i t db') : Started db saId t db'
  | opened {i db₂ db'} (ho : Opened (db.latestSubmission saId).1 saId db₂ i) (hs : Starts db₂ i t db') :
      Started db saId t db'

/-- A submission just opened on the student's own row is in reach. -/
theorem opened_reaches {saId i : ℕ} {db₂ : Db} {sa : StudentAssignment} {asg : SubjectsAssignment}
    (hsa : db.studentsAssignments[saId]? = some sa)
    (hasg : db.subjectsAssignments[sa.subjectsAssignmentId]? = some asg) (h : Opened db saId db₂ i) :
    db₂.Reaches sa.studentId sa.subjectsAssignmentId i := by
  cases h with
  | reused hi => exact latestSubmission_reaches hsa hasg hi
  | @opened sub db₁ ha =>
    obtain ⟨sa', asg', squad, refuse, hsa', -, -, hrow, -⟩ := ha.row
    rw [hsa] at hsa'
    cases hsa'
    obtain ⟨row, hrow', hst, hrowasg⟩ := ha.within.rows saId sa hsa
    have hget := addSubmission_get db₁ sub
    rw [ha.same] at hget
    refine ⟨{ sub with status := .quizSent }, row, asg, ?_, ?_, hrowasg, ?_, .inl hst⟩
    · rw [Db.setSubmission_submissions, Table.getElem?_modify_self, hget]; rfl
    · rw [Db.setSubmission_studentsAssignments, addSubmission_studentsAssignments, hrow]
      exact hrow'
    · rw [Db.setSubmission_subjectsAssignments, addSubmission_subjectsAssignments, ha.within.subjectsAssignments]
      exact hasg

/-- The submission a start request ends up with: the latest, or one it opens. -/
inductive Db.Finds (db : Db) (saId t : ℕ) : Db → ℕ → Prop
  | latest {i} (hi : (db.latestSubmission saId).2 = some i) : db.Finds saId t (db.latestSubmission saId).1 i
  | opened {db₂ i} (ho : (db.latestSubmission saId).1.openQuizSubmission saId t = .ok (db₂, i)) : db.Finds saId t db₂ i

/-- A start that is not refused resumes an attempt, or starts one at the submission it finds. -/
theorem startOrResumeQuiz_ok {saId t : ℕ} {rnd : Shuffles} (h : db.startOrResumeQuiz saId t rnd = .ok db') :
    ∃ sa asg db₂ i sub, db.studentsAssignments[saId]? = some sa ∧ sa.studentId = t ∧
      db.subjectsAssignments[sa.subjectsAssignmentId]? = some asg ∧ db.Finds saId t db₂ i ∧
      db₂.submissions[i]? = some sub ∧ sub.status = .quizSent ∧
      (db' = db₂ ∨ (∀ b ∈ db₂.attemptsOf i t, b.status ≠ .inProgress ∧ b.passed = false) ∧
        db₂.startAttempt sa asg i sub (db₂.attemptsOf i t) rnd = .ok db') := by
  unfold Db.startOrResumeQuiz at h
  cases hsa : db.studentsAssignments[saId]? with
  | none => simp only [hsa] at h; cases h
  | some sa =>
    simp only [hsa] at h
    by_cases hst : sa.studentId ≠ t
    · rw [if_pos hst] at h; cases h
    rw [if_neg hst] at h
    rw [not_ne_iff] at hst
    cases hasg : db.subjectsAssignments[sa.subjectsAssignmentId]? with
    | none => simp only [hasg] at h; cases h
    | some asg =>
      simp only [hasg] at h
      -- the common tail, for the submission the route ends up with
      have htail : ∀ db₂ i sub, db.Finds saId t db₂ i → db₂.submissions[i]? = some sub →
          (if sub.status ≠ .quizSent then Except.error (Raised.http 403 "Quiz not available for this submission")
            else if (db₂.attemptsOf i t).any (·.status == .inProgress) || (db₂.attemptsOf i t).any (·.passed) then
              Except.ok db₂
            else db₂.startAttempt sa asg i sub (db₂.attemptsOf i t) rnd) = .ok db' →
          ∃ sa' asg' db₂ i sub, some sa = some sa' ∧ sa'.studentId = t ∧
            db.subjectsAssignments[sa'.subjectsAssignmentId]? = some asg' ∧ db.Finds saId t db₂ i ∧
            db₂.submissions[i]? = some sub ∧ sub.status = .quizSent ∧
            (db' = db₂ ∨ (∀ b ∈ db₂.attemptsOf i t, b.status ≠ .inProgress ∧ b.passed = false) ∧
              db₂.startAttempt sa' asg' i sub (db₂.attemptsOf i t) rnd = .ok db') := by
        intro db₂ i sub hfinds hsub htail
        split_ifs at htail with hsent hresume
        · cases htail
          exact ⟨sa, asg, db', i, sub, rfl, hst, hasg, hfinds, hsub, not_not.mp hsent, .inl rfl⟩
        · refine ⟨sa, asg, db₂, i, sub, rfl, hst, hasg, hfinds, hsub, not_not.mp hsent, .inr ⟨fun b hb => ?_, htail⟩⟩
          simp only [Bool.or_eq_true, List.any_eq_true, not_or, not_exists, not_and, beq_iff_eq] at hresume
          exact ⟨hresume.1 b hb, by simpa using hresume.2 b hb⟩
      by_cases hopens : (((db.latestSubmission saId).2.all fun i => ((db.latestSubmission saId).1.status i).any (·.isReopenable)) &&
          asg.config.isScoredMode) = true
      · rw [if_pos hopens] at h
        cases hquiz : (db.latestSubmission saId).1.openQuizSubmission saId t with
        | error e =>
          rw [hquiz] at h
          cases e <;> cases h
        | ok r =>
          obtain ⟨db₂, i⟩ := r
          rw [hquiz] at h
          obtain ⟨_, hfound, h⟩ := bind_ok h
          cases hfound
          cases hsub : db₂.submissions[i]? with
          | none =>
            simp only [hsub, Option.bind_some, Option.map_none] at h
            cases h
          | some sub =>
            simp only [hsub, Option.bind_some, Option.map_some] at h
            exact htail db₂ i sub (.opened hquiz) hsub h
      · rw [if_neg hopens] at h
        obtain ⟨_, hfound, h⟩ := bind_ok h
        cases hfound
        cases hlatest : (db.latestSubmission saId).2 with
        | none => simp only [hlatest, Option.bind_none] at h; cases h
        | some i =>
          cases hsub : (db.latestSubmission saId).1.submissions[i]? with
          | none => simp only [hlatest, hsub, Option.bind_some, Option.map_none] at h; cases h
          | some sub =>
            simp only [hlatest, hsub, Option.bind_some, Option.map_some] at h
            exact htail _ i sub (.latest hlatest) hsub h

/-- The submission found is in the student's reach. -/
theorem Db.Finds.reaches {saId t i : ℕ} {sa : StudentAssignment} {asg : SubjectsAssignment} (h : db.Finds saId t db' i)
    (hsa : db.studentsAssignments[saId]? = some sa) (hst : sa.studentId = t)
    (hasg : db.subjectsAssignments[sa.subjectsAssignmentId]? = some asg) :
    db'.Reaches sa.studentId sa.subjectsAssignmentId i ∧ db'.subjectsAssignments = db.subjectsAssignments := by
  have hw := within_latestSubmission .grades db saId
  cases h with
  | latest hi => exact ⟨latestSubmission_reaches hsa hasg hi, hw.subjectsAssignments⟩
  | opened ho =>
    obtain ⟨sa₁, hsa₁, hst₁, hasg₁⟩ := hw.rows saId sa hsa
    have hasgs₁ : (db.latestSubmission saId).1.subjectsAssignments[sa₁.subjectsAssignmentId]? = some asg := by
      rw [hasg₁, hw.subjectsAssignments, hasg]
    have hopened := openQuizSubmission_spec hsa₁ (hst₁.trans hst) ho
    have hreach := opened_reaches hsa₁ hasgs₁ hopened
    rw [hst₁, hasg₁] at hreach
    refine ⟨hreach, ?_⟩
    rw [← hw.subjectsAssignments]
    cases hopened with
    | reused => exact (within_latestSubmission .grades _ saId).subjectsAssignments
    | @opened sub db₃ ha =>
      rw [Db.setSubmission_subjectsAssignments, addSubmission_subjectsAssignments, ha.within.subjectsAssignments]

theorem startOrResumeQuiz_spec {saId t : ℕ} {rnd : Shuffles}
    (h : db.startOrResumeQuiz saId t rnd = .ok db') : Started db saId t db' := by
  obtain ⟨sa, asg, db₂, i, sub, hsa, rfl, hasg, hfinds, hsub, hsent, h⟩ := startOrResumeQuiz_ok h
  obtain ⟨hreach, hasgs⟩ := hfinds.reaches hsa rfl hasg
  have hstarts : Starts db₂ i sa.studentId db' := by
    rcases h with rfl | ⟨halone, h⟩
    · exact .same
    · exact startAttempt_spec hsub hsent (by rw [hasgs, hasg]) hreach halone h
  cases hfinds with
  | latest hi => exact .latest hstarts
  | opened ho =>
    obtain ⟨sa₁, hsa₁, hst₁, -⟩ := (within_latestSubmission .grades db saId).rows saId sa hsa
    exact .opened (openQuizSubmission_spec hsa₁ hst₁ ho) hstarts

end

end SubmissionsChecker
