import SubmissionsChecker.Workers.CheckFaults

/-! What a check does with the status and the findings of its submission, raised or not, and that
it touches no other. -/

namespace SubmissionsChecker

/-- What a retry starts from. -/
abbrev Standing := SubmissionStatus × Option TestResults

/-- The status and the findings of submission `i`. -/
def Db.checkStanding (db : Db) (i : ℕ) : Option Standing := (db.submissions[i]?).map fun s => (s.status, s.testResults)

/-- `VALIDATING` and `TESTING`. -/
def SubmissionStatus.midCheck : SubmissionStatus → Bool
  | validating | testing => true
  | _ => false

/-! The handler as a move of the standing -/

/-- A handler's end, as far as the standing of its submission goes. -/
abbrev CheckEnd := Standing × Bool

/-- `_fail_validation`. -/
def Standing.failValidation (reason : String) : Standing → CheckEnd
  | (.pending, _) | (.validating, _) => ((.validationFailed, some (.checkReason reason)), false)
  | (status, _) => ((status, some (.checkReason reason)), true)

/-- `_accept_without_checks`, of an archive that can be opened. -/
def Standing.accept (mode : ReviewMode) : Standing → CheckEnd
  | (.pending, _) => ((.quizSent, some (.skipped mode)), false)
  | (status, _) => ((status, some (.skipped mode)), true)

/-- The fault hits a call that the mode makes after passed tests. -/
def LateFault.hits (late : LateFault) (mode : ReviewMode) : Bool :=
  match mode with
  | .testsThenTeacher => late == .notification
  | .testsOnly => late != .none
  | _ => false

/-- The sandbox run. -/
def Standing.runSandbox (late : LateFault) (mode : ReviewMode) (version : ℕ) (result : CheckResult) : Standing → CheckEnd
  | (.pending, results) =>
    match result with
    | .tested true score maxScore =>
      ((mode.afterCheck, some (.tested true score maxScore version)), late.hits mode)
    | .tested false score maxScore =>
      ((.testFailed, some (.tested false score maxScore version)), late == .notification)
    | .validationFailed reason | .executionError reason => ((.validationFailed, some (.checkReason reason)), false)
    | .raisesInSandbox => ((.validating, results), true)
    | .raises | .unusable _ => ((.validating, results), false)
  | standing => (standing, true)

/-- What the handler is going to do with its submission. -/
inductive CheckPath
  /-- It ends before it has changed anything. -/
  | stops (raised : Bool)
  | fails (reason : String)
  | accepts (mode : ReviewMode)
  | sandbox (mode : ReviewMode) (version : ℕ)
  deriving DecidableEq, Repr

/-- The path under a pinned config. -/
def pinnedPath (mode : ReviewMode) (code : Option String) (version : ℕ) (result : CheckResult) : CheckPath :=
  if mode.isQuizFirst then
    match result with
    | .raises => .stops true
    | .unusable reason => .fails reason
    | _ => .accepts mode
  else if code.isNone then .fails "This assignment has no plugin code set, so no check can be selected."
  else
    match result with
    | .raises => .stops true
    | .unusable reason => .fails reason
    | _ => .sandbox mode version

/-- The path a check takes, from the config, the assignment and what opening the archive gave. -/
def Db.checkPath (db : Db) (i : ℕ) (result : CheckResult) : CheckPath :=
  match (db.submissions[i]?).bind fun sub => (db.assignmentOf sub.studentsAssignmentId).map (sub, ·) with
  | none => .stops false
  | some (sub, asg) =>
    match sub.pluginConfigId.or (db.latestConfig asg.subjectId) with
    | none => .fails "No plugin configuration found for this subject. Contact your teacher."
    | some c =>
      match db.pluginConfigs[c]? with
      | none => .stops true
      | some cfg =>
        pinnedPath (((cfg.assignment asg.code).reviewMode).getD .testsOnly) asg.code cfg.version result

def CheckPath.ends (path : CheckPath) (late : LateFault) (result : CheckResult) (standing : Standing) : CheckEnd :=
  match path with
  | stops raised => (standing, raised)
  | fails reason => standing.failValidation reason
  | accepts mode => standing.accept mode
  | sandbox mode version => standing.runSandbox late mode version result

/-- The handler ends so: this standing, raised or not. -/
def Shows (h : Handled) (i : ℕ) (e : CheckEnd) : Prop := h.1.checkStanding i = some e.1 ∧ (h.2 ≠ none ↔ e.2 = true)

section

variable {db : Db} {i : ℕ} {standing : Standing} {status next : SubmissionStatus} {results : Option TestResults}
  {h : Handled} {f : Db → Handled} {e : CheckEnd} {late : LateFault} {mode : ReviewMode}

theorem Shows.andThen_ok (hh : Shows h i (standing, false)) (hf : ∀ db : Db, db.checkStanding i = some standing → Shows (f db) i e) :
    Shows (h.andThen f) i e := by
  have hok : h.2 = none := by
    by_contra hraised
    cases hh.2.mp hraised
  rw [SubmissionsChecker.andThen_ok hok]
  exact hf _ hh.1

theorem Shows.andThen_raised (hh : Shows h i (standing, true)) : Shows (h.andThen f) i (standing, true) := by
  rw [SubmissionsChecker.andThen_raised (hh.2.mpr rfl)]
  exact hh

theorem Shows.notify (hh : Shows h i (standing, false)) : Shows (h.notify late) i (standing, late == .notification) := by
  refine hh.andThen_ok fun db hdb => ?_
  rcases late <;> exact ⟨hdb, by simp⟩

theorem standing_setResults (hs : db.checkStanding i = some (status, results)) (results' : Option TestResults) :
    (db.setSubmission i ({ · with testResults := results' })).checkStanding i = some (status, results') := by
  unfold Db.checkStanding at hs ⊢
  obtain ⟨sub, hsub, heq⟩ := Option.map_eq_some_iff.mp hs
  rw [Db.setSubmission_submissions, Table.getElem?_modify_self, hsub]
  simp [(Prod.mk.inj heq).1]

theorem status_of_standing (hs : db.checkStanding i = some (status, results)) : db.status i = some status := by
  unfold Db.checkStanding at hs
  obtain ⟨sub, hsub, heq⟩ := Option.map_eq_some_iff.mp hs
  rw [Db.status, hsub, Option.map_some, (Prod.mk.inj heq).1]

theorem shows_transition {event : Event} (hs : db.checkStanding i = some (status, results))
    (hnext : status.transitions event = some next) : Shows (db.attemptTransition i event) i ((next, results), false) := by
  rw [attemptTransition_of_status (status_of_standing hs), hnext]
  refine ⟨?_, by simp⟩
  unfold Db.checkStanding at hs ⊢
  obtain ⟨sub, hsub, heq⟩ := Option.map_eq_some_iff.mp hs
  rw [Db.setSubmission_submissions, Table.getElem?_modify_self, hsub]
  simp [(Prod.mk.inj heq).2]

theorem shows_refused {event : Event} (hs : db.checkStanding i = some (status, results))
    (hnext : status.transitions event = none) : Shows (db.attemptTransition i event) i ((status, results), true) := by
  rw [attemptTransition_of_status (status_of_standing hs), hnext]
  exact ⟨hs, by simp⟩

theorem shows_start (hs : db.checkStanding i = some (.pending, results)) :
    Shows (db.attemptTransition i .startValidation) i ((.validating, results), false) :=
  shows_transition hs rfl

/-- Only a pending submission starts. -/
theorem shows_start_refused (hs : db.checkStanding i = some (status, results)) (h : status ≠ .pending) :
    Shows (db.attemptTransition i .startValidation) i ((status, results), true) :=
  shows_refused hs (transitions_startValidation h)

theorem shows_passed (hs : db.checkStanding i = some (.validating, results)) :
    Shows (db.attemptTransition i .validationPassed) i ((.testing, results), false) :=
  shows_transition hs rfl

theorem standing_finalizeGrade (hs : db.checkStanding i = some standing) : (db.finalizeGrade i).checkStanding i = some standing :=
  ((within_finalizeGrade db i).map_sub (fun s => (s.status, s.testResults)) i fun _ => rfl).trans hs

theorem shows_failValidation (hs : db.checkStanding i = some standing) (reason : String) :
    Shows (db.failValidation i reason) i (standing.failValidation reason) := by
  obtain ⟨status, results⟩ := standing
  have hset := standing_setResults hs (some (.checkReason reason))
  have hstatus := status_of_standing hset
  unfold Db.failValidation
  dsimp only
  rw [hstatus]
  rcases status
  case pending =>
    rw [if_pos rfl]
    exact (shows_transition hset rfl).andThen_ok fun db hdb => shows_transition hdb rfl
  all_goals
    rw [if_neg (by simp), andThen_ok rfl]
    first
      | exact shows_transition hset rfl
      | exact shows_refused hset rfl

theorem shows_accept (hs : db.checkStanding i = some standing) {result : CheckResult} (hraises : result ≠ .raises)
    (hunusable : ∀ reason, result ≠ .unusable reason) :
    Shows (db.acceptWithoutChecks i mode result) i (standing.accept mode) := by
  obtain ⟨status, results⟩ := standing
  have hset := standing_setResults hs (some (.skipped mode))
  have hrun : db.acceptWithoutChecks i mode result =
      ((((db.setSubmission i ({ · with testResults := some (.skipped mode) })).attemptTransition i
        .startValidation).andThen fun db => db.attemptTransition i .validationPassed).andThen fun db =>
          db.attemptTransition i .testPassedQuiz) := by
    unfold Db.acceptWithoutChecks
    rcases result with _ | reason | _ | _ | _ | _
    · exact absurd rfl hraises
    · exact absurd rfl (hunusable reason)
    all_goals rfl
  rw [hrun]
  by_cases hpending : status = .pending
  · subst hpending
    have htesting := (shows_start hset).andThen_ok fun db hdb => shows_passed hdb
    exact htesting.andThen_ok fun db hdb => shows_transition hdb rfl
  · have hstays : Standing.accept mode (status, results) = ((status, some (.skipped mode)), true) := by
      rcases status <;> first | rfl | exact absurd rfl hpending
    rw [hstays]
    exact (shows_start_refused hset hpending).andThen_raised.andThen_raised

theorem shows_sendToAi (hs : db.checkStanding i = some (.testing, results)) (nextStep : Option NextStep) :
    Shows (db.sendToAi i nextStep) i ((.awaitingAiReview, results), false) := by
  have hsent : Shows (db.attemptTransition i .testPassedAi) i ((.awaitingAiReview, results), false) :=
    shows_transition hs rfl
  exact hsent.andThen_ok fun db hdb => ⟨hdb, by simp⟩

theorem shows_advance (hs : db.checkStanding i = some (.testing, results)) (late : LateFault) (hmode : mode.isQuizFirst = false) :
    Shows (db.advanceWith late i mode) i ((mode.afterCheck, results), late.hits mode) := by
  rcases mode
  case testsOnly =>
    have hcompleted : Shows (db.attemptTransition i .testPassedTestsOnly) i ((.completed, results), false) :=
      shows_transition hs rfl
    rcases late
    case finalisation =>
      have hraised : Shows ((db.attemptTransition i .testPassedTestsOnly).andThen fun db =>
          db.finalizeGradeUnless .finalisation i) i ((.completed, results), true) :=
        hcompleted.andThen_ok fun db hdb => ⟨hdb, by simp [Db.finalizeGradeUnless]⟩
      exact hraised.andThen_raised
    all_goals
      refine Shows.notify (hcompleted.andThen_ok fun db hdb => ?_)
      exact ⟨standing_finalizeGrade hdb, by simp [Db.finalizeGradeUnless]⟩
  case testsThenTeacher => exact Shows.notify (shows_transition hs rfl)
  case testsThenQuiz => exact shows_transition hs rfl
  case quizOnly => cases hmode
  case quizThenTeacher => cases hmode
  case quizAndTeacherScores => cases hmode
  all_goals exact shows_sendToAi hs _

theorem shows_runSandbox (hs : db.checkStanding i = some standing) (late : LateFault) (hmode : mode.isQuizFirst = false)
    (version : ℕ) (result : CheckResult) :
    Shows (db.runSandboxWith late i mode version result) i (standing.runSandbox late mode version result) := by
  obtain ⟨status, results⟩ := standing
  by_cases hpending : status = .pending
  · subst hpending
    rcases result
    case validationFailed reason =>
      exact (shows_start hs).andThen_ok fun db hdb => shows_transition (standing_setResults hdb _) rfl
    case executionError reason =>
      exact (shows_start hs).andThen_ok fun db hdb => shows_failValidation hdb reason
    case raisesInSandbox => exact (shows_start hs).andThen_ok fun db hdb => ⟨hdb, by simp [Standing.runSandbox]⟩
    case raises => exact (shows_start hs).andThen_ok fun db hdb => ⟨hdb, by simp [Standing.runSandbox]⟩
    case unusable => exact (shows_start hs).andThen_ok fun db hdb => ⟨hdb, by simp [Standing.runSandbox]⟩
    case tested passed score maxScore =>
      have htesting := (shows_start hs).andThen_ok fun db hdb => shows_passed hdb
      refine htesting.andThen_ok fun db hdb => ?_
      have hset := standing_setResults hdb (some (.tested passed score maxScore version))
      rcases passed
      · exact Shows.notify (shows_transition hset rfl)
      · exact shows_advance hset late hmode
  · have hstays : Standing.runSandbox late mode version result (status, results) = ((status, results), true) := by
      rcases status <;> first | rfl | exact absurd rfl hpending
    rw [hstays]
    have hrefused := shows_start_refused hs hpending
    rcases result
    case tested passed score maxScore => exact hrefused.andThen_raised.andThen_raised
    all_goals exact hrefused.andThen_raised

/-! The handler as a whole -/

theorem standing_pin (hs : db.checkStanding i = some standing) (c : ℕ) :
    (db.setSubmission i ({ · with pluginConfigId := some c })).checkStanding i = some standing := by
  unfold Db.checkStanding at hs ⊢
  rw [Db.setSubmission_submissions, Table.getElem?_modify_self, Option.map_map]
  exact hs

/-- What runs under the pinned config, on the way `checkPath` gives. -/
theorem shows_pinned (hs : db.checkStanding i = some standing) {code : Option String} (result : CheckResult) (version : ℕ) :
    Shows
      (if mode.isQuizFirst then db.acceptWithoutChecks i mode result
      else if code.isNone then
        db.failValidation i "This assignment has no plugin code set, so no check can be selected."
      else
        match result with
        | .raises => (db, some (.runtime "Submission has no saved_as in source_metadata"))
        | .unusable reason => db.failValidation i reason
        | _ => db.runSandboxWith late i mode version result) i
      ((pinnedPath mode code version result).ends late result standing) := by
  unfold pinnedPath
  by_cases hquiz : mode.isQuizFirst = true
  · rw [if_pos hquiz, if_pos hquiz]
    rcases result
    case raises => exact ⟨hs, by simp [CheckPath.ends, Db.acceptWithoutChecks]⟩
    case unusable reason => exact shows_failValidation hs reason
    all_goals exact shows_accept hs (by simp) (by simp)
  · rw [if_neg hquiz, if_neg hquiz]
    by_cases hcode : code.isNone = true
    · rw [if_pos hcode, if_pos hcode]
      exact shows_failValidation hs _
    · rw [if_neg hcode, if_neg hcode]
      rcases result
      case raises => exact ⟨hs, by simp [CheckPath.ends]⟩
      case unusable reason => exact shows_failValidation hs reason
      all_goals exact shows_runSandbox hs late (by simpa using hquiz) version _

/-- The handler does with the standing of its submission what its path says. -/
theorem executeCheckWith_shows (hs : db.checkStanding i = some standing) (late : LateFault) (result : CheckResult) :
    Shows (db.executeCheckWith late i result) i ((db.checkPath i result).ends late result standing) := by
  unfold Db.executeCheckWith Db.checkPath
  rcases (db.submissions[i]?).bind fun sub => (db.assignmentOf sub.studentsAssignmentId).map (sub, ·) with _ | ⟨sub, asg⟩
  · exact ⟨hs, by simp [CheckPath.ends]⟩
  · dsimp only
    unfold Db.pinConfig
    rcases sub.pluginConfigId with _ | c
    · rcases db.latestConfig asg.subjectId with _ | c
      · exact shows_failValidation hs _
      · have hpin := standing_pin hs c
        simp only [Option.none_or]
        rcases db.pluginConfigs[c]? with _ | cfg
        · exact ⟨hpin, by simp [CheckPath.ends]⟩
        · exact shows_pinned hpin result cfg.version
    · simp only [Option.some_or]
      rcases db.pluginConfigs[c]? with _ | cfg
      · exact ⟨hs, by simp [CheckPath.ends]⟩
      · exact shows_pinned hs result cfg.version

end

/-! The other submissions -/

section

variable {db : Db} {i : ℕ} {late : LateFault} {mode : ReviewMode}

theorem within_andThen {scope : Scope} {h : Handled} {f : Db → Handled} (hh : Within scope db h.1)
    (hf : ∀ db', Within scope db' (f db').1) : Within scope db (h.andThen f).1 := by
  by_cases hok : h.2 = none
  · rw [andThen_ok hok]
    exact hh.trans (hf _)
  · rw [andThen_raised hok]
    exact hh

theorem within_notify {scope : Scope} {h : Handled} (hh : Within scope db h.1) : Within scope db (h.notify late).1 := by
  refine within_andThen hh fun db' => ?_
  split_ifs <;> exact .refl _ _

theorem within_attempt (db : Db) (i : ℕ) (event : Event) : Within (.task i) db (db.attemptTransition i event).1 :=
  (taskKeeps_attemptTransition event).within

theorem within_sendToAi (db : Db) (i : ℕ) (nextStep : Option NextStep) : Within (.task i) db (db.sendToAi i nextStep).1 :=
  within_andThen (within_attempt db i _) fun db' => within_addMessage db' i _

theorem within_finalizeGradeUnless (db : Db) (i : ℕ) : Within (.task i) db (db.finalizeGradeUnless late i).1 := by
  unfold Db.finalizeGradeUnless
  split_ifs
  · exact .refl _ _
  · exact (within_finalizeGrade db i).mono (.grades _)

theorem within_advanceWith (db : Db) (i : ℕ) : Within (.task i) db (db.advanceWith late i mode).1 := by
  have hcompleted : Within (.task i) db (((db.attemptTransition i .testPassedTestsOnly).andThen fun db' =>
      db'.finalizeGradeUnless late i).notify late).1 :=
    within_notify (within_andThen (within_attempt db i .testPassedTestsOnly) fun db' => within_finalizeGradeUnless db' i)
  rcases mode
  case testsThenTeacher => exact within_notify (within_attempt db i _)
  case testsThenQuiz => exact within_attempt db i _
  case testsOnly => exact hcompleted
  case quizOnly => exact hcompleted
  case quizThenTeacher => exact hcompleted
  case quizAndTeacherScores => exact hcompleted
  all_goals exact within_sendToAi db i _

theorem within_runSandboxWith (db : Db) (i version : ℕ) (result : CheckResult) :
    Within (.task i) db (db.runSandboxWith late i mode version result).1 := by
  have hset : ∀ (db : Db) (results : Option TestResults),
      Within (.task i) db (db.setSubmission i ({ · with testResults := results })) := fun db results =>
    within_setSubmission db i fun s => by simp [Scope.keep]
  have hstart := within_attempt db i .startValidation
  rcases result
  case validationFailed reason => exact within_andThen hstart fun db' => (hset db' _).trans (within_attempt _ i _)
  case executionError reason => exact within_andThen hstart fun db' => (taskKeeps_failValidation reason).within
  case tested passed score maxScore =>
    refine within_andThen (within_andThen hstart fun db' => within_attempt db' i _) fun db' => ?_
    refine (hset db' (some (.tested passed score maxScore version))).trans ?_
    rcases passed
    · exact within_notify (within_attempt _ i _)
    · exact within_advanceWith _ i
  all_goals exact within_andThen hstart fun db' => .refl _ _

theorem within_pinConfig {sub : Submission} {subjectId : ℕ} {db₁ : Db} {cfg : Option SubjectPluginConfig}
    (h : db.pinConfig i sub subjectId = some (db₁, cfg)) : Within (.task i) db db₁ := by
  unfold Db.pinConfig at h
  split at h
  · cases h
    exact .refl _ _
  · split at h
    · cases h
    · cases h
      exact within_setSubmission db i fun s => by simp [Scope.keep]

/-- The handler keeps to its submission. -/
theorem within_executeCheckWith (db : Db) (i : ℕ) (result : CheckResult) :
    Within (.task i) db (db.executeCheckWith late i result).1 := by
  unfold Db.executeCheckWith
  rcases (db.submissions[i]?).bind fun sub => (db.assignmentOf sub.studentsAssignmentId).map (sub, ·) with _ | ⟨sub, asg⟩
  · exact .refl _ _
  · dsimp only
    rcases hpin : db.pinConfig i sub asg.subjectId with _ | ⟨db₁, _ | cfg⟩
    · exact (taskKeeps_failValidation _).within
    · exact within_pinConfig hpin
    · refine (within_pinConfig hpin).trans ?_
      dsimp only
      split_ifs
      · exact (taskKeeps_acceptWithoutChecks _ _).within
      · exact (taskKeeps_failValidation _).within
      · rcases result
        case raises => exact .refl _ _
        case unusable reason => exact (taskKeeps_failValidation reason).within
        all_goals exact within_runSandboxWith db₁ i _ _

end

end SubmissionsChecker
