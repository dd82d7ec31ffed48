import SubmissionsChecker.Effects.GradeNow

/-! Every step of the system as a preparation followed by finalizations, and what a task or a save of
points leaves of the two halves of a scored grade. -/

namespace SubmissionsChecker

/-- No breakdown changes and nothing is completed. -/
def Prepares (db db' : Db) : Prop :=
  ∀ i, db'.breakdown i = db.breakdown i ∧ (db'.status i = some .completed → db.status i = some .completed)

/-- A preparation, then finalizations, then at most outbox messages. -/
def StepGrades (db db' : Db) : Prop :=
  ∃ db₁ db₂ outbox, Prepares db db₁ ∧ db₁.SubsOwned ∧ Grades db₁ db₂ ∧ db' = { db₂ with outbox := outbox }

/-- What a task does about submission `i` before it grades it, if it does. -/
structure TaskPrepares (i : ℕ) (db db' : Db) : Prop where
  within : Within (.task i) db db'
  ungraded : Ungraded db db'
  rows : db'.studentsAssignments = db.studentsAssignments
  status : db'.status i = some .completed → db.status i = some .completed

/-- A task that completes submission `i` grades it. -/
def TaskGrades (i : ℕ) (db db' : Db) : Prop :=
  ∃ db₁, TaskPrepares i db db₁ ∧
    (db' = db₁ ∨ db' = (db₁.setSubmission i ({ · with status := .completed })).finalizeGrade i)

section

variable {db db₁ db₂ db' : Db} {i : ℕ}

theorem Prepares.refl (db : Db) : Prepares db db := fun _ => ⟨rfl, id⟩

theorem Prepares.same (h : db'.submissions = db.submissions) : Prepares db db' := by
  intro i
  simp [Db.breakdown, Db.status, h]

theorem Prepares.trans (h₁ : Prepares db db₁) (h₂ : Prepares db₁ db₂) : Prepares db db₂ :=
  fun i => ⟨(h₂ i).1.trans (h₁ i).1, (h₁ i).2 ∘ (h₂ i).2⟩

theorem Ungraded.breakdown {scope : Scope} (hu : Ungraded db db') (hw : Within scope db db') (i : ℕ) :
    db'.breakdown i = db.breakdown i := by
  unfold Db.breakdown
  rcases hsub : db.submissions[i]? with _ | sub
  · have hlen := hw.submissions_length
    rw [List.getElem?_eq_none_iff] at hsub
    rw [List.getElem?_eq_none (by omega)]
  · obtain ⟨sub', hsub', hb⟩ := hu.subs i sub hsub
    rw [hsub']
    exact hb

theorem prepares_of_ungraded {scope : Scope} (hw : Within scope db db') (hu : Ungraded db db')
    (hst : ∀ j, db'.status j = some .completed → db.status j = some .completed) : Prepares db db' :=
  fun i => ⟨hu.breakdown hw i, hst i⟩

theorem StepGrades.of_grades (hown : db.SubsOwned) (h : Grades db db') : StepGrades db db' :=
  ⟨db, db', db'.outbox, .refl db, hown, h, rfl⟩

theorem StepGrades.of_prepares (hown : db'.SubsOwned) (h : Prepares db db') : StepGrades db db' :=
  ⟨db', db', db'.outbox, h, hown, .refl db', rfl⟩

theorem StepGrades.after (h : Prepares db db₁) (h' : StepGrades db₁ db') : StepGrades db db' := by
  obtain ⟨e₁, e₂, outbox, hp, hown, hg, hdb⟩ := h'
  exact ⟨e₁, e₂, outbox, h.trans hp, hown, hg, hdb⟩

theorem StepGrades.setMessage (h : StepGrades db db') (m : ℕ) (f : OutboxMessage → OutboxMessage) :
    StepGrades db (db'.setMessage m f) := by
  obtain ⟨e₁, e₂, outbox, hp, hown, hg, rfl⟩ := h
  exact ⟨e₁, e₂, _, hp, hown, hg, rfl⟩

/-! Tasks -/

theorem TaskPrepares.refl (i : ℕ) (db : Db) : TaskPrepares i db db := ⟨.refl _ db, .refl db, rfl, id⟩

theorem TaskPrepares.trans (h₁ : TaskPrepares i db db₁) (h₂ : TaskPrepares i db₁ db₂) : TaskPrepares i db db₂ :=
  ⟨h₁.within.trans h₂.within, h₁.ungraded.trans h₂.ungraded, h₂.rows.trans h₁.rows, h₁.status ∘ h₂.status⟩

theorem TaskPrepares.of_keeps (h : TaskKeeps i db db') (hst : db'.status i = some .completed → db.status i = some .completed) :
    TaskPrepares i db db' :=
  ⟨h.within, h.ungraded, h.rows, hst⟩

theorem TaskPrepares.prepares (h : TaskPrepares i db db') : Prepares db db' := by
  refine prepares_of_ungraded h.within h.ungraded fun j hj => ?_
  by_cases hji : j = i
  · subst hji
    exact h.status hj
  · rw [← h.within.status_ne hji]
    exact hj

theorem TaskGrades.of_prepares (h : TaskPrepares i db db') : TaskGrades i db db' := ⟨db', h, .inl rfl⟩

theorem TaskGrades.after (h : TaskPrepares i db db₁) (h' : TaskGrades i db₁ db') : TaskGrades i db db' := by
  obtain ⟨e, he, hdb⟩ := h'
  exact ⟨e, h.trans he, hdb⟩

theorem TaskGrades.step (h : TaskGrades i db db') (hown : db.SubsOwned) : StepGrades db db' := by
  obtain ⟨e, he, rfl | rfl⟩ := h
  · exact .of_prepares (he.within.subsOwned hown) he.prepares
  · exact .after he.prepares (.of_grades (he.within.subsOwned hown) (grades_complete (he.within.subsOwned hown) i))

theorem attemptTransition_eq {s next : SubmissionStatus} {event : Event} (hs : db.status i = some s)
    (hn : s.transitions event = some next) :
    db.attemptTransition i event = (db.setSubmission i ({ · with status := next }), none) := by
  rw [attemptTransition_of_status hs, hn]

theorem taskPrepares_transition {s next : SubmissionStatus} {event : Event} (hs : db.status i = some s)
    (hn : s.transitions event = some next) (hne : next ≠ .completed) :
    TaskPrepares i db (db.attemptTransition i event).1 := by
  refine .of_keeps (taskKeeps_attemptTransition event) fun hdone => ?_
  rw [(status_of_transitions hs hn).2, Option.some_inj] at hdone
  exact absurd hdone hne

theorem taskPrepares_failValidation (reason : String) : TaskPrepares i db (db.failValidation i reason).1 := by
  refine .of_keeps (taskKeeps_failValidation reason) fun hdone => ?_
  rw [status_failValidation] at hdone
  split_ifs at hdone
  · cases hdone
  · exact hdone

theorem taskPrepares_setSubmission (db : Db) (i : ℕ) {f : Submission → Submission}
    (hf : ∀ s, (f s).unchecked = s.unchecked) (hst : ∀ s, (f s).status = s.status) :
    TaskPrepares i db (db.setSubmission i f) :=
  .of_keeps (taskKeeps_setSubmission db i hf) fun hdone => by rwa [status_setSubmission_same hst] at hdone

theorem sendToAi_prepares {ns : Option NextStep} (hs : db.status i = some .testing) :
    TaskPrepares i db (db.sendToAi i ns).1 := by
  have hmove := taskPrepares_transition hs
    (show SubmissionStatus.testing.transitions .testPassedAi = some .awaitingAiReview from rfl) (by decide)
  have hok := (status_of_transitions hs
    (show SubmissionStatus.testing.transitions .testPassedAi = some .awaitingAiReview from rfl)).1
  unfold Db.sendToAi
  rw [andThen_ok hok]
  exact hmove.trans ⟨within_addMessage _ i _, .same rfl rfl, rfl, id⟩

theorem advanceAfterTests_grades (m : ReviewMode) (hs : db.status i = some .testing) :
    TaskGrades i db (db.advanceAfterTests i m).1 := by
  have hcompleted : TaskGrades i db ((db.attemptTransition i .testPassedTestsOnly).andThen fun db =>
      (db.finalizeGrade i, none)).1 := by
    rw [attemptTransition_eq hs (show SubmissionStatus.testing.transitions .testPassedTestsOnly = some .completed from rfl)]
    exact ⟨db, .refl i db, .inr rfl⟩
  cases m with
  | testsOnly => exact hcompleted
  | testsThenAi => exact .of_prepares (sendToAi_prepares hs)
  | testsThenTeacher => exact .of_prepares (taskPrepares_transition hs rfl (by decide))
  | testsThenAiThenTeacher => exact .of_prepares (sendToAi_prepares hs)
  | testsThenAiTeacher => exact .of_prepares (sendToAi_prepares hs)
  | testsThenAiThenQuiz => exact .of_prepares (sendToAi_prepares hs)
  | testsThenQuiz => exact .of_prepares (taskPrepares_transition hs rfl (by decide))
  | quizOnly => exact hcompleted
  | quizThenTeacher => exact hcompleted
  | quizAndTeacherScores => exact hcompleted

theorem runSandbox_grades (m : ReviewMode) (version : ℕ) (check : CheckResult) :
    TaskGrades i db (db.runSandbox i m version check).1 := by
  unfold Db.runSandbox
  by_cases hp : db.status i = some .pending
  · obtain ⟨hok, hval⟩ := status_of_transitions hp
      (show SubmissionStatus.pending.transitions .startValidation = some .validating from rfl)
    have hstart : TaskPrepares i db (db.attemptTransition i .startValidation).1 :=
      taskPrepares_transition hp rfl (by decide)
    rw [andThen_ok hok]
    set db₁ := (db.attemptTransition i .startValidation).1 with hdb₁
    refine .after hstart ?_
    cases check with
    | raises => exact .of_prepares (.refl i db₁)
    | unusable => exact .of_prepares (.refl i db₁)
    | raisesInSandbox => exact .of_prepares (.refl i db₁)
    | executionError reason => exact .of_prepares (taskPrepares_failValidation reason)
    | validationFailed reason =>
      have hset : TaskPrepares i db₁ (db₁.setSubmission i ({ · with testResults := some (.checkReason reason) })) :=
        taskPrepares_setSubmission db₁ i (fun _ => rfl) fun _ => rfl
      exact .of_prepares (hset.trans (taskPrepares_transition ((status_testResults _ _).trans hval) rfl (by decide)))
    | tested passed score maxScore =>
      obtain ⟨hok', htest⟩ := status_of_transitions hval
        (show SubmissionStatus.validating.transitions .validationPassed = some .testing from rfl)
      have hpassed : TaskPrepares i db₁ (db₁.attemptTransition i .validationPassed).1 :=
        taskPrepares_transition hval rfl (by decide)
      dsimp only
      rw [andThen_ok hok']
      set db₂ := (db₁.attemptTransition i .validationPassed).1 with hdb₂
      have hset : TaskPrepares i db₂ (db₂.setSubmission i
          ({ · with testResults := some (.tested passed score maxScore version) })) :=
        taskPrepares_setSubmission db₂ i (fun _ => rfl) fun _ => rfl
      have htest' := (status_testResults db₂ (some (.tested passed score maxScore version))).trans htest
      refine .after (hpassed.trans hset) ?_
      cases passed with
      | true => exact advanceAfterTests_grades m htest'
      | false => exact .of_prepares (taskPrepares_transition htest' rfl (by decide))
  · rw [(andThen_startValidation hp _).1]
    exact .of_prepares (.refl i db)

theorem acceptWithoutChecks_prepares {m : ReviewMode} (hm : m.isQuizFirst = true) (check : CheckResult) :
    TaskPrepares i db (db.acceptWithoutChecks i m check).1 := by
  refine .of_keeps (taskKeeps_acceptWithoutChecks m check) fun hdone => ?_
  have hmove : CheckMove check (some m) (db.status i) ((db.acceptWithoutChecks i m check).1.status i) :=
    acceptWithoutChecks_move hm check
  rw [hdone] at hmove
  generalize db.status i = s at hmove
  generalize hs' : some SubmissionStatus.completed = s' at hmove
  cases hmove with
  | stays => rfl
  | refused => cases hs'
  | started => cases hs'
  | testsFailed => cases hs'
  | passed hmode =>
    cases hmode
    have hafter : m.afterCheck = .quizSent := by cases m <;> first | rfl | cases hm
    rw [hafter] at hs'
    cases hs'

theorem taskPrepares_pin (sub : Submission) (subjectId : ℕ) {cfg : Option SubjectPluginConfig}
    (h : db.pinConfig i sub subjectId = some (db₁, cfg)) : TaskPrepares i db db₁ := by
  unfold Db.pinConfig at h
  split at h
  · cases h
    exact .refl i db
  · split at h
    · cases h
    · cases h
      rename_i c _
      have hst : (db.setSubmission i ({ · with pluginConfigId := some c })).status i = db.status i :=
        status_setSubmission_same fun _ => rfl
      exact ⟨within_setSubmission db i fun s => by simp [Scope.keep], ungraded_setSubmission db i fun _ => rfl, rfl,
        fun hdone => hst.symm.trans hdone⟩

theorem executeCheck_grades (db : Db) (i : ℕ) (check : CheckResult) : TaskGrades i db (db.executeCheck i check).1 := by
  unfold Db.executeCheck
  split
  · exact .of_prepares (.refl i db)
  · rename_i sub asg _
    split
    · exact .of_prepares (taskPrepares_failValidation _)
    · rename_i db₁ hpin
      exact .of_prepares (taskPrepares_pin sub asg.subjectId hpin)
    · rename_i db₁ cfg hpin
      refine .after (taskPrepares_pin sub asg.subjectId hpin) ?_
      dsimp only
      split_ifs with hfirst
      · exact .of_prepares (acceptWithoutChecks_prepares hfirst check)
      · exact .of_prepares (taskPrepares_failValidation _)
      · cases check with
        | raises => exact .of_prepares (.refl i db₁)
        | unusable => exact .of_prepares (taskPrepares_failValidation _)
        | raisesInSandbox => exact runSandbox_grades _ _ _
        | executionError => exact runSandbox_grades _ _ _
        | validationFailed => exact runSandbox_grades _ _ _
        | tested => exact runSandbox_grades _ _ _

theorem executeAiReview_grades (db : Db) (i : ℕ) (ns : Option NextStep) (ai : AiResult) :
    TaskGrades i db (db.executeAiReview i ns ai).1 := by
  unfold Db.executeAiReview
  by_cases hai : ∃ s, db.status i = some s ∧ s.isAi = true
  · obtain ⟨s, hs, hai⟩ := hai
    obtain ⟨hkeep, hok, hst⟩ := enterReviewing_spec hs hai
    have henter : TaskPrepares i db (db.enterReviewing i).1 :=
      .of_keeps hkeep fun hdone => by rw [hst] at hdone; cases hdone
    rw [andThen_ok hok]
    set db₁ := (db.enterReviewing i).1 with hdb₁
    refine .after henter ?_
    cases ai with
    | providerError =>
      have hfailed := taskPrepares_transition hst
        (show SubmissionStatus.aiReviewing.transitions .aiReviewFailed = some .aiReviewFailed from rfl) (by decide)
      have hok' := (status_of_transitions hst
        (show SubmissionStatus.aiReviewing.transitions .aiReviewFailed = some .aiReviewFailed from rfl)).1
      dsimp only
      rw [andThen_ok hok']
      exact .of_prepares hfailed
    | verdict codeMark isFlagged =>
      dsimp only
      have hset : TaskPrepares i db₁ (db₁.setSubmission i ({ · with aiReview := some { codeMark } })) :=
        taskPrepares_setSubmission db₁ i (fun _ => rfl) fun _ => rfl
      have hst' : (db₁.setSubmission i ({ · with aiReview := some { codeMark } })).status i = some .aiReviewing := by
        rw [status_setSubmission_same, hst]
        exact fun _ => rfl
      refine .after hset ?_
      set db₂ := db₁.setSubmission i ({ · with aiReview := some { codeMark } }) with hdb₂
      cases ns.getD .completed with
      | quiz =>
        cases isFlagged with
        | true => exact .of_prepares (taskPrepares_transition hst' rfl (by decide))
        | false => exact .of_prepares (taskPrepares_transition hst' rfl (by decide))
      | teacher => exact .of_prepares (taskPrepares_transition hst' rfl (by decide))
      | completed =>
        dsimp only
        rw [attemptTransition_eq hst'
          (show SubmissionStatus.aiReviewing.transitions .aiReviewDoneCompleted = some .completed from rfl)]
        exact ⟨db₂, .refl i db₂, .inr rfl⟩
  · have hno : ∀ s, db.status i = some s → s.isAi = false := by
      intro s hs
      by_contra h
      exact hai ⟨s, hs, by simpa using h⟩
    obtain ⟨hdb, hraised⟩ := enterReviewing_refused hno
    rw [andThen_raised hraised, hdb]
    exact .of_prepares (.refl i db)

end

/-! The steps -/

section

variable {db db₁ db' : Db} {op : Op} {i : ℕ}

theorem Db.SubsOwned.same (h : db.SubsOwned) (hs : db'.submissions = db.submissions)
    (hr : db'.studentsAssignments = db.studentsAssignments) : db'.SubsOwned := by
  unfold Db.SubsOwned
  rw [hs, hr]
  exact h

theorem Db.SubsOwned.setSubmission (h : db.SubsOwned) (i : ℕ) {f : Submission → Submission}
    (hf : ∀ s, (f s).studentsAssignmentId = s.studentsAssignmentId) : (db.setSubmission i f).SubsOwned := by
  intro j sub' hsub'
  obtain ⟨sub, hsub, rfl⟩ := Table.getElem?_modify_some hsub'
  obtain ⟨row, hrow⟩ := h j sub hsub
  refine ⟨row, ?_⟩
  split_ifs
  · rw [hf]
    exact hrow
  · exact hrow

theorem prepares_setSubmission (db : Db) (i : ℕ) {f : Submission → Submission}
    (hf : ∀ s, (f s).gradeBreakdown = s.gradeBreakdown ∧ ((f s).status = .completed → s.status = .completed)) :
    Prepares db (db.setSubmission i f) := by
  intro j
  unfold Db.breakdown Db.status
  rw [Db.setSubmission_submissions, List.getElem?_modify]
  rcases db.submissions[j]? with _ | sub
  · simp
  · by_cases hj : i = j
    · simpa [hj] using hf sub
    · simp [hj]

theorem prepares_setStatus {s : SubmissionStatus} (hs : s ≠ .completed) (db : Db) (i : ℕ) :
    Prepares db (db.setSubmission i ({ · with status := s })) :=
  prepares_setSubmission db i fun _ => ⟨rfl, fun h => absurd h hs⟩

theorem Adds.fresh {saId : ℕ} {sub : Submission} (h : Adds db saId sub db₁) :
    sub.gradeBreakdown = none ∧ sub.status = .pending := by
  obtain ⟨_, _, _, _, -, -, -, -, -, -, hb, hkind⟩ := h.row
  refine ⟨hb, ?_⟩
  rcases hkind with hkind | hkind
  · exact hkind.1
  · exact hkind.1

theorem Adds.prepares {saId : ℕ} {sub : Submission} (h : Adds db saId sub db₁) : Prepares db (db₁.addSubmission sub) := by
  obtain ⟨hb, hpending⟩ := h.fresh
  intro j
  unfold Db.breakdown Db.status
  rw [addSubmission_submissions, h.same]
  rcases Nat.lt_or_ge j db.submissions.length with hj | hj
  · rw [List.getElem?_append_left hj]
    exact ⟨rfl, id⟩
  · rw [List.getElem?_eq_none hj]
    rcases Nat.eq_or_lt_of_le hj with rfl | hj
    · simp [hb, hpending]
    · rw [List.getElem?_eq_none (by simp; omega)]
      exact ⟨rfl, id⟩

theorem Adds.subsOwned {saId : ℕ} {sub : Submission} (h : Adds db saId sub db₁) (hown : db.SubsOwned) :
    (db₁.addSubmission sub).SubsOwned := by
  intro j sub' hsub'
  rw [addSubmission_studentsAssignments]
  rw [addSubmission_submissions] at hsub'
  rcases Table.getElem?_concat_some hsub' with hsub' | ⟨-, rfl⟩
  · exact h.within.subsOwned hown j sub' hsub'
  · obtain ⟨sa, _, _, _, hsa, -, -, hrow, -⟩ := h.row
    obtain ⟨row, hrow', -⟩ := h.within.rows saId sa hsa
    exact ⟨row, by rw [hrow]; exact hrow'⟩

/-- The check of an upload to a quiz-first assignment completes nothing. -/
theorem Checked.prepares {check : CheckResult} {m : ReviewMode} (h : Checked i check db db')
    (hm : db.checkMode i = some m) (hfirst : m.isQuizFirst = true) (hs : db.status i ≠ some .completed) :
    Prepares db db' := by
  have hafter : m.afterCheck = .quizSent := by cases m <;> first | rfl | cases hfirst
  have hopen : db'.status i ≠ some .completed := by
    intro hdone
    have hmove := h.move
    rw [hm, hdone] at hmove
    generalize db.status i = s at hmove hs
    generalize hs' : some SubmissionStatus.completed = s' at hmove hs
    cases hmove with
    | stays => exact hs rfl
    | refused => cases hs'
    | started => cases hs'
    | testsFailed => cases hs'
    | passed hmode =>
      cases hmode
      rw [hafter] at hs'
      cases hs'
  cases h.finalizes with
  | ungraded w u =>
    refine prepares_of_ungraded w u fun j hj => ?_
    by_cases hji : j = i
    · subst hji
      exact absurd hj hopen
    · rw [← w.status_ne hji]
      exact hj
  | graded w u hdone => exact absurd (((within_finalizeGrade _ i).status_grades i).trans hdone) hopen

theorem Starts.prepares {t : ℕ} (h : Starts db i t db') (hown : db.SubsOwned) : Prepares db db' ∧ db'.SubsOwned := by
  cases h with
  | same => exact ⟨.refl db, hown⟩
  | attempt hd =>
    rcases hd with rfl | ⟨draw, rfl⟩
    · exact ⟨.same rfl, hown.same rfl rfl⟩
    · have hdraw : Prepares db (db.setSubmission i ({ · with squadQuizDraw := some draw })) :=
        prepares_setSubmission db i fun s => ⟨rfl, id⟩
      have hown' : (db.setSubmission i ({ · with squadQuizDraw := some draw })).SubsOwned :=
        hown.setSubmission i fun _ => rfl
      exact ⟨hdraw.trans (.same rfl), hown'.same rfl rfl⟩

theorem prepares_latestSubmission (db : Db) (saId : ℕ) : Prepares db (db.latestSubmission saId).1 :=
  .same (latestSubmission_submissions db saId)

theorem Opened.prepares {saId : ℕ} (h : Opened db saId db' i) (hown : db.SubsOwned) : Prepares db db' ∧ db'.SubsOwned := by
  cases h with
  | reused => exact ⟨prepares_latestSubmission db saId, (within_latestSubmission .grades db saId).subsOwned hown⟩
  | opened ha =>
    exact ⟨ha.prepares.trans (prepares_setSubmission _ _ fun s => ⟨rfl, nofun⟩),
      (ha.subsOwned hown).setSubmission _ fun _ => rfl⟩

theorem Started.prepares {saId t : ℕ} (h : Started db saId t db') (hown : db.SubsOwned) :
    Prepares db db' ∧ db'.SubsOwned := by
  have hl := prepares_latestSubmission db saId
  have hown₁ := (within_latestSubmission .grades db saId).subsOwned hown
  cases h with
  | looked => exact ⟨hl, hown₁⟩
  | latest hs =>
    obtain ⟨hp, hown'⟩ := hs.prepares hown₁
    exact ⟨hl.trans hp, hown'⟩
  | opened ho hs =>
    obtain ⟨hp, hown₂⟩ := ho.prepares hown₁
    obtain ⟨hp', hown'⟩ := hs.prepares hown₂
    exact ⟨hl.trans (hp.trans hp'), hown'⟩

theorem Uploaded.prepares {saId : ℕ} {check : CheckResult} (h : Uploaded db saId check db') (hown : db.SubsOwned) :
    Prepares db db' ∧ db'.SubsOwned := by
  cases h with
  | queued ha => exact ⟨ha.prepares.trans (.same rfl), (ha.subsOwned hown).same rfl rfl⟩
  | @checked sub db₁ _ m ha _ hm hfirst hc =>
    have hget := addSubmission_get db₁ sub
    rw [ha.same] at hget
    have hopen : (db₁.addSubmission sub).status db.submissions.length ≠ some .completed := by
      rw [status_of_row hget, ha.fresh.2]
      decide
    exact ⟨ha.prepares.trans (hc.prepares hm hfirst hopen), hc.finalizes.within.subsOwned (ha.subsOwned hown)⟩

theorem Decided.grades {action : ReviewAction} (h : Decided db i action db') (hown : db.SubsOwned) :
    StepGrades db db' := by
  cases h with
  | approved => exact .of_grades hown (grades_complete hown i)
  | sentQuiz => exact .of_grades hown (grades_setStatus (s := .quizSent) (by decide) i)
  | @rejected results hs hm =>
    have hnote : Prepares db (db.setSubmission i ({ · with testResults := results })) :=
      prepares_setSubmission db i fun s => ⟨rfl, id⟩
    have hown' : (db.setSubmission i ({ · with testResults := results })).SubsOwned :=
      hown.setSubmission i fun _ => rfl
    exact .after hnote (.of_grades hown' (grades_setStatus (s := .failed) (by decide) i))

theorem Requeued.prepares (h : Requeued db i db') (hown : db.SubsOwned) : Prepares db db' ∧ db'.SubsOwned := by
  obtain ⟨hsub, hs, hr, ht⟩ := h
  have hpending := prepares_setStatus (s := .pending) (by decide) db i
  have hcleared : Prepares (db.setSubmission i ({ · with status := .pending }))
      ((db.setSubmission i ({ · with status := .pending })).setSubmission i
        ({ · with pluginConfigId := none, testResults := none, aiReview := none })) :=
    prepares_setSubmission _ i fun s => ⟨rfl, id⟩
  have hown₁ : (db.setSubmission i ({ · with status := .pending })).SubsOwned := hown.setSubmission i fun _ => rfl
  have hown' : ((db.setSubmission i ({ · with status := .pending })).setSubmission i
      ({ · with pluginConfigId := none, testResults := none, aiReview := none })).SubsOwned :=
    hown₁.setSubmission i fun _ => rfl
  exact ⟨(hpending.trans hcleared).trans (.same rfl), hown'.same rfl rfl⟩

theorem Finished.grades {a : QuizAttempt} {k : ℕ} (h : Finished db a k db') (hown : db.SubsOwned) : Grades db db' := by
  cases h with
  | left => exact .refl db
  | completed => exact grades_complete hown _
  | toTeacher => exact grades_setStatus (s := .awaitingTeacherReview) (by decide) _
  | failed => exact grades_setStatus (s := .failed) (by decide) _

theorem QuizStep.grades {k : ℕ} {ends : Option (QuizAttempt × QuizAttemptStatus)} (h : QuizStep db k ends db')
    (hown : db.SubsOwned) : StepGrades db db' := by
  cases h with
  | same => exact .of_grades hown (.refl db)
  | edited => exact .of_prepares (hown.same rfl rfl) (.same rfl)
  | @finished a a₁ st _ ha hrun he hst hends hfin =>
    have hown₁ : (db.setAttempt k fun _ => db.finishedAttempt a₁ st).SubsOwned := hown.same rfl rfl
    have hset : Prepares db (db.setAttempt k fun _ => db.finishedAttempt a₁ st) := .same rfl
    exact .after hset (.of_grades hown₁ (hfin.grades hown₁))

theorem ruled_grades (d c v question : ℕ) (note : String) (lifted : List ℕ) (hown : db.SubsOwned) :
    StepGrades db (lifted.foldl Db.advanced (db.ruledDb d c v question note)) := by
  have hsubs := ruledDb_submissions db d c v question note
  have hrows : (db.ruledDb d c v question note).studentsAssignments = db.studentsAssignments := by
    simp only [Db.ruledDb, Db.regradeQuestion, Db.closeSiblings, Db.addOverride]
    split_ifs <;> rfl
  have hown₁ := hown.same hsubs hrows
  exact .after (.same hsubs) (.of_grades hown₁ (grades_advancedAll lifted hown₁))

theorem Granted.prepares {t : ℕ} (h : Granted db i t db') (hown : db.SubsOwned) : Prepares db db' ∧ db'.SubsOwned := by
  obtain @⟨s, extras, hs, hfs, ht, hg⟩ := h
  have hextra : Prepares db (db.setSubmission i fun sub => { sub with quizExtraAttempts := extras sub }) :=
    prepares_setSubmission db i fun s => ⟨rfl, id⟩
  have hown₁ : (db.setSubmission i fun sub => { sub with quizExtraAttempts := extras sub }).SubsOwned :=
    hown.setSubmission i fun _ => rfl
  exact ⟨hextra.trans (prepares_setStatus (s := .quizSent) (by decide) _ i), hown₁.setSubmission i fun _ => rfl⟩

theorem Saved.grades {asgId t : ℕ} (h : Saved db asgId t db') (hown : db.SubsOwned) : StepGrades db db' := by
  have hwritten : ∀ {e : Db}, Within .grades db e → Ungraded db e → Prepares db e := fun w u =>
    prepares_of_ungraded w u fun j hj => by rwa [← w.status_grades]
  cases h with
  | written w u => exact .of_prepares (w.subsOwned hown) (hwritten w u)
  | completed w u =>
    exact .after (hwritten w u) (.of_grades (w.subsOwned hown) (grades_complete (w.subsOwned hown) _))
  | regraded w u =>
    exact .after (hwritten w u) (.of_grades (w.subsOwned hown) (grades_finalizeGrade (w.subsOwned hown) _))

theorem StepSpec.grades (h : StepSpec db op db') (hop : ∀ m check ai, op ≠ .processMessage m check ai)
    (hown : db.SubsOwned) : StepGrades db db' := by
  cases h with
  | same => exact .of_grades hown (.refl db)
  | upload h =>
    obtain ⟨hp, hown'⟩ := h.prepares hown
    exact .of_prepares hown' hp
  | check => exact absurd rfl (hop _ _ _)
  | aiReview => exact absurd rfl (hop _ _ _)
  | retry => exact ⟨db, db, _, .refl db, hown, .refl db, rfl⟩
  | skip => exact .of_grades hown (grades_setStatus (s := .awaitingTeacherReview) (by decide) _)
  | review h => exact h.grades hown
  | rerun h =>
    obtain ⟨hp, hown'⟩ := h.prepares hown
    exact .of_prepares hown' hp
  | start h =>
    obtain ⟨hp, hown'⟩ := h.prepares hown
    exact .of_prepares hown' hp
  | quiz _ h => exact h.grades hown
  | report => exact .of_prepares (hown.same rfl rfl) (.same rfl)
  | ruled => exact ruled_grades _ _ _ _ _ _ hown
  | closed => exact .of_prepares (hown.same rfl rfl) (.same rfl)
  | grant h =>
    obtain ⟨hp, hown'⟩ := h.prepares hown
    exact .of_prepares hown' hp
  | scores h => exact h.grades hown
  | unenroll => exact .of_prepares (hown.same rfl rfl) (.same rfl)
  | tick => exact .of_prepares (hown.same rfl rfl) (.same rfl)

theorem processMessage_grades (db : Db) (m : ℕ) (check : CheckResult) (ai : AiResult) (hown : db.SubsOwned) :
    StepGrades db (db.processMessage m check ai) := by
  unfold Db.processMessage
  split
  · exact .of_grades hown (.refl db)
  · rename_i message _
    split_ifs
    · exact .of_grades hown (.refl db)
    · dsimp only
      cases message.payload with
      | runChecks i => exact ((executeCheck_grades db i check).step hown).setMessage _ _
      | runAiReview i ns => exact ((executeAiReview_grades db i ns ai).step hown).setMessage _ _

theorem step_grades (hown : db.SubsOwned) (op : Op) : StepGrades db (db.step op) := by
  by_cases hop : ∃ m check ai, op = .processMessage m check ai
  · obtain ⟨m, check, ai, rfl⟩ := hop
    exact processMessage_grades db m check ai hown
  · push Not at hop
    exact (step_spec db op).grades hop hown

end

end SubmissionsChecker
