import SubmissionsChecker.Effects.Evolves
import SubmissionsChecker.Workers.CheckTasks
import SubmissionsChecker.Routes.TeacherPortal

/-! What the two background tasks do to the submission they are about. A check or a review
writes its findings, moves the status along the table and may end in a grade; everything else
it leaves alone. -/

namespace SubmissionsChecker

/-- Where a submission goes once its checks pass. -/
def ReviewMode.afterCheck : ReviewMode → SubmissionStatus
  | testsOnly => .completed
  | testsThenAi | testsThenAiThenTeacher | testsThenAiTeacher | testsThenAiThenQuiz => .awaitingAiReview
  | testsThenTeacher => .awaitingTeacherReview
  | testsThenQuiz | quizOnly | quizThenTeacher | quizAndTeacherScores => .quizSent

/-- The result lets the submission through: a quiz-first mode only asks for a usable archive. -/
def CheckResult.accepts : CheckResult → ReviewMode → Bool
  | .tested passed _ _, mode => passed || mode.isQuizFirst
  | .raisesInSandbox, mode | .executionError _, mode | .validationFailed _, mode => mode.isQuizFirst
  | .raises, _ | .unusable _, _ => false

/-- Where a review lands that asks for the next step. -/
def NextStep.afterReview (isFlagged : Bool) : NextStep → SubmissionStatus
  | .completed => .completed
  | .quiz => if isFlagged then .awaitingTeacherReview else .quizSent
  | .teacher => .awaitingTeacherReview

def SubmissionStatus.isAi : SubmissionStatus → Bool
  | awaitingAiReview | aiReviewing | aiReviewFailed => true
  | _ => false

namespace Db

/-- The config a check of submission `i` runs with: the pinned one, else the latest. -/
def checkConfig (db : Db) (i : ℕ) : Option ℕ :=
  (db.submissions[i]?).bind fun sub => (db.assignmentOf sub.studentsAssignmentId).bind fun asg =>
    sub.pluginConfigId.or (db.latestConfig asg.subjectId)

/-- The block a config holds for the assignment of submission `i`. -/
def blockIn (db : Db) (c i : ℕ) : Option PluginAssignment :=
  (db.submissions[i]?).bind fun sub => (db.assignmentOf sub.studentsAssignmentId).bind fun asg =>
    (db.pluginConfigs[c]?).bind fun cfg => asg.code.map fun _ => cfg.assignment asg.code

/-- Its review mode. -/
def modeIn (db : Db) (c i : ℕ) : Option ReviewMode :=
  (db.blockIn c i).map fun block => block.reviewMode.getD .testsOnly

end Db

theorem pinnedBlock_eq (db : Db) (i : ℕ) : db.pinnedBlock i =
    ((db.submissions[i]?).bind (·.pluginConfigId)).bind (db.blockIn · i) := by
  unfold Db.pinnedBlock Db.blockIn
  cases hsub : db.submissions[i]? with
  | none => rfl
  | some sub =>
    cases hc : sub.pluginConfigId with
    | none => simp [hc]
    | some c =>
      simp only [Option.bind_some, hc]
      cases db.pluginConfigs[c]? <;> cases db.assignmentOf sub.studentsAssignmentId <;> rfl

/-- The part of its submission a task keeps. -/
def Submission.unchecked (s : Submission) : Submission :=
  { s with status := .pending, testResults := none, aiReview := none }

/-- A task leaves everything but the findings and the status of submission `i` alone. -/
structure TaskKeeps (i : ℕ) (db db' : Db) : Prop where
  within : Within (.task i) db db'
  ungraded : Ungraded db db'
  pin : (db'.submissions[i]?).map (·.pluginConfigId) = (db.submissions[i]?).map (·.pluginConfigId)
  outbox : db'.outbox = db.outbox
  rows : db'.studentsAssignments = db.studentsAssignments

namespace TaskKeeps

variable {i : ℕ} {db db₁ db₂ : Db}

theorem refl (i : ℕ) (db : Db) : TaskKeeps i db db := ⟨.refl _ _, .refl _, rfl, rfl, rfl⟩

theorem trans (h₁ : TaskKeeps i db db₁) (h₂ : TaskKeeps i db₁ db₂) : TaskKeeps i db db₂ :=
  ⟨h₁.within.trans h₂.within, h₁.ungraded.trans h₂.ungraded, h₂.pin.trans h₁.pin,
    h₂.outbox.trans h₁.outbox, h₂.rows.trans h₁.rows⟩

end TaskKeeps

section

variable {db : Db} {i : ℕ}

theorem taskKeeps_setSubmission (db : Db) (i : ℕ) {f : Submission → Submission}
    (hf : ∀ s, (f s).unchecked = s.unchecked) : TaskKeeps i db (db.setSubmission i f) := by
  have hpin : ∀ s, (f s).pluginConfigId = s.pluginConfigId := fun s => by
    have := congrArg Submission.pluginConfigId (hf s)
    exact this
  have hgrade : ∀ s, (f s).gradeBreakdown = s.gradeBreakdown := fun s => by
    have := congrArg Submission.gradeBreakdown (hf s)
    exact this
  refine ⟨within_setSubmission db i fun s => ?_, ungraded_setSubmission db i hgrade, ?_, rfl, rfl⟩
  · have := congrArg (fun t : Submission => { t with gradeBreakdown := none, pluginConfigId := none }) (hf s)
    simpa [Scope.keep, Submission.unchecked] using this
  · rw [Db.setSubmission_submissions, Table.getElem?_modify_self]
    cases db.submissions[i]? <;> simp [hpin]

theorem status_setSubmission_same {f : Submission → Submission} (hf : ∀ s, (f s).status = s.status) :
    (db.setSubmission i f).status i = db.status i := by
  unfold Db.status
  rw [Db.setSubmission_submissions, Table.getElem?_modify_self]
  cases db.submissions[i]? <;> simp [hf]

theorem attemptTransition_of_status {s : SubmissionStatus} {event : Event} (hs : db.status i = some s) :
    db.attemptTransition i event = match s.transitions event with
      | some next => (db.setSubmission i ({ · with status := next }), none)
      | none => (db, some (.invalidTransition event s)) := by
  unfold Db.attemptTransition
  cases hn : s.transitions event with
  | some next => rw [transition_of_status hs hn]
  | none =>
    unfold Db.status at hs
    obtain ⟨sub, hsub, rfl⟩ := Option.map_eq_some_iff.mp hs
    simp [Db.transition, hsub, hn]

theorem attemptTransition_none {event : Event} (hs : db.status i = none) :
    db.attemptTransition i event = (db, some (.http 404 "")) := by
  have hsub : db.submissions[i]? = none := by simpa [Db.status] using hs
  simp [Db.attemptTransition, Db.transition, hsub]

theorem taskKeeps_attemptTransition (event : Event) : TaskKeeps i db (db.attemptTransition i event).1 := by
  cases hs : db.status i with
  | none => rw [attemptTransition_none hs]; exact .refl i db
  | some s =>
    rw [attemptTransition_of_status hs]
    split
    · exact taskKeeps_setSubmission db i fun _ => rfl
    · exact .refl i db

theorem andThen_ok {h : Handled} (hok : h.2 = none) (f : Db → Handled) : h.andThen f = f h.1 := by
  unfold Handled.andThen
  rw [hok]

theorem andThen_raised {h : Handled} (hr : h.2 ≠ none) (f : Db → Handled) : h.andThen f = h := by
  obtain ⟨db, _ | e⟩ := h
  · exact absurd rfl hr
  · rfl

theorem TaskKeeps.andThen {h : Handled} {f : Db → Handled} (hh : TaskKeeps i db h.1)
    (hf : ∀ db', TaskKeeps i db' (f db').1) : TaskKeeps i db (h.andThen f).1 := by
  by_cases hok : h.2 = none
  · rw [andThen_ok hok]; exact hh.trans (hf _)
  · rw [andThen_raised hok]; exact hh

theorem taskKeeps_failValidation (reason : String) : TaskKeeps i db (db.failValidation i reason).1 := by
  unfold Db.failValidation
  have hset : TaskKeeps i db (db.setSubmission i ({ · with testResults := some (.checkReason reason) })) :=
    taskKeeps_setSubmission db i fun _ => rfl
  refine hset.trans (TaskKeeps.andThen ?_ fun db' => taskKeeps_attemptTransition _)
  split_ifs
  · exact taskKeeps_attemptTransition _
  · exact .refl i _

end

/-! The check -/

/-- How a check moves the status of its submission, given the mode it runs under. -/
inductive CheckMove (check : CheckResult) (mode : Option ReviewMode) :
    Option SubmissionStatus → Option SubmissionStatus → Prop
  | stays (s) : CheckMove check mode s s
  | refused {s} (h : s = some .pending ∨ s = some .validating) : CheckMove check mode s (some .validationFailed)
  | started (hm : mode.isSome = true) : CheckMove check mode (some .pending) (some .validating)
  | testsFailed (hm : mode.isSome = true) : CheckMove check mode (some .pending) (some .testFailed)
  | passed {m} (hm : mode = some m) (ha : check.accepts m = true) :
      CheckMove check mode (some .pending) (some m.afterCheck)

section

variable {db : Db} {i : ℕ}

theorem status_testResults (db : Db) (results : Option TestResults) :
    (db.setSubmission i ({ · with testResults := results })).status i = db.status i :=
  status_setSubmission_same fun _ => rfl

theorem status_of_transitions {s next : SubmissionStatus} {event : Event} (hs : db.status i = some s)
    (hn : s.transitions event = some next) :
    (db.attemptTransition i event).2 = none ∧ (db.attemptTransition i event).1.status i = some next := by
  rw [attemptTransition_of_status hs, hn]
  exact ⟨rfl, status_setSubmission_status hs⟩

theorem attemptTransition_refused {event : Event}
    (h : ∀ s, db.status i = some s → s.transitions event = none) :
    (db.attemptTransition i event).1 = db ∧ (db.attemptTransition i event).2 ≠ none := by
  cases hs : db.status i with
  | none => rw [attemptTransition_none hs]; exact ⟨rfl, by simp⟩
  | some s => rw [attemptTransition_of_status hs, h s hs]; exact ⟨rfl, by simp⟩

theorem transitions_startValidation {s : SubmissionStatus} (h : s ≠ .pending) :
    s.transitions .startValidation = none := by
  cases s <;> first | rfl | exact absurd rfl h

theorem transitions_validationFailed {s : SubmissionStatus} (h : s ≠ .validating) :
    s.transitions .validationFailed = none := by
  cases s <;> first | rfl | exact absurd rfl h

theorem status_failValidation (reason : String) :
    (db.failValidation i reason).1.status i =
      if db.status i = some .pending ∨ db.status i = some .validating then some .validationFailed
      else db.status i := by
  unfold Db.failValidation
  dsimp only
  set db₁ := db.setSubmission i ({ · with testResults := some (.checkReason reason) }) with hdb₁
  have hst : db₁.status i = db.status i := status_setSubmission_same fun _ => rfl
  rw [hst]
  by_cases hp : db.status i = some .pending
  · rw [if_pos hp, if_pos (Or.inl hp)]
    obtain ⟨hok, hval⟩ := status_of_transitions (hst.trans hp)
      (show SubmissionStatus.pending.transitions .startValidation = some .validating from rfl)
    rw [andThen_ok hok]
    exact (status_of_transitions hval rfl).2
  · rw [if_neg hp, andThen_ok rfl]
    by_cases hv : db.status i = some .validating
    · rw [if_pos (Or.inr hv)]
      exact (status_of_transitions (hst.trans hv) rfl).2
    · rw [if_neg (by tauto), (attemptTransition_refused fun s hs => ?_).1, hst]
      refine transitions_validationFailed ?_
      rintro rfl
      exact hv (hst.symm.trans hs)

theorem failValidation_move (check : CheckResult) (mode : Option ReviewMode) (reason : String) :
    CheckMove check mode (db.status i) ((db.failValidation i reason).1.status i) := by
  rw [status_failValidation]
  split_ifs with h
  · exact .refused h
  · exact .stays _

/-- Checks only start on a pending submission. -/
theorem andThen_startValidation (h : db.status i ≠ some .pending) (f : Db → Handled) :
    ((db.attemptTransition i .startValidation).andThen f).1 = db ∧
      ((db.attemptTransition i .startValidation).andThen f).2 ≠ none := by
  have hrefused : ∀ s, db.status i = some s → s.transitions .startValidation = none :=
    fun s hs => transitions_startValidation (by rintro rfl; exact h hs)
  obtain ⟨hdb, hraised⟩ := attemptTransition_refused hrefused
  rw [andThen_raised hraised]
  exact ⟨hdb, hraised⟩

/-- A quiz-first submission goes straight to the quiz. -/
theorem status_acceptWithoutChecks {m : ReviewMode} {check : CheckResult} (hc : check.accepts m = true) :
    (db.acceptWithoutChecks i m check).1.status i =
      if db.status i = some .pending then some .quizSent else db.status i := by
  have hrun : ((((db.setSubmission i ({ · with testResults := some (.skipped m) })).attemptTransition i
      .startValidation).andThen fun db => db.attemptTransition i .validationPassed).andThen fun db =>
        db.attemptTransition i .testPassedQuiz).1.status i =
      if db.status i = some .pending then some .quizSent else db.status i := by
    set db₁ := db.setSubmission i ({ · with testResults := some (.skipped m) }) with hdb₁
    have hst : db₁.status i = db.status i := status_setSubmission_same fun _ => rfl
    split_ifs with hp
    · obtain ⟨hok, hval⟩ := status_of_transitions (hst.trans hp)
        (show SubmissionStatus.pending.transitions .startValidation = some .validating from rfl)
      obtain ⟨hok', htest⟩ := status_of_transitions hval
        (show SubmissionStatus.validating.transitions .validationPassed = some .testing from rfl)
      obtain ⟨-, hsent⟩ := status_of_transitions htest
        (show SubmissionStatus.testing.transitions .testPassedQuiz = some .quizSent from rfl)
      simp only [Handled.andThen, hok, hok', hsent]
    · obtain ⟨hdb, hraised⟩ := andThen_startValidation (fun h => hp (hst.symm.trans h))
        fun db => db.attemptTransition i .validationPassed
      rw [andThen_raised hraised, hdb, hst]
  unfold Db.acceptWithoutChecks
  cases check with
  | raises => cases hc
  | unusable => cases hc
  | raisesInSandbox => exact hrun
  | executionError => exact hrun
  | validationFailed => exact hrun
  | tested => exact hrun

theorem acceptWithoutChecks_move {m : ReviewMode} (hm : m.isQuizFirst = true) (check : CheckResult) :
    CheckMove check (some m) (db.status i) ((db.acceptWithoutChecks i m check).1.status i) := by
  have hafter : m.afterCheck = .quizSent := by cases m <;> first | rfl | cases hm
  have haccepted : check.accepts m = true →
      CheckMove check (some m) (db.status i) ((db.acceptWithoutChecks i m check).1.status i) := by
    intro hc
    rw [status_acceptWithoutChecks hc]
    split_ifs with hp
    · rw [hp, ← hafter]; exact .passed rfl hc
    · exact .stays _
  cases check with
  | raises => exact .stays _
  | unusable reason => exact failValidation_move _ _ reason
  | raisesInSandbox => exact haccepted hm
  | executionError => exact haccepted hm
  | validationFailed => exact haccepted hm
  | tested => exact haccepted (by simp [CheckResult.accepts, hm])

theorem taskKeeps_acceptWithoutChecks (m : ReviewMode) (check : CheckResult) :
    TaskKeeps i db (db.acceptWithoutChecks i m check).1 := by
  have hset : TaskKeeps i db (db.setSubmission i ({ · with testResults := some (.skipped m) })) :=
    taskKeeps_setSubmission db i fun _ => rfl
  have hrun := hset.trans (TaskKeeps.andThen (TaskKeeps.andThen (taskKeeps_attemptTransition .startValidation)
    fun _ => taskKeeps_attemptTransition .validationPassed) fun _ => taskKeeps_attemptTransition .testPassedQuiz)
  unfold Db.acceptWithoutChecks
  cases check with
  | raises => exact .refl i db
  | unusable reason => exact taskKeeps_failValidation reason
  | raisesInSandbox => exact hrun
  | executionError => exact hrun
  | validationFailed => exact hrun
  | tested => exact hrun

end

/-- The message a task leaves for an AI review under the given mode. -/
def AiMessage (mode : Option ReviewMode) (i : ℕ) (message : OutboxMessage) : Prop :=
  ∃ m ns, mode = some m ∧ m.afterCheck = .awaitingAiReview ∧ ns.getD .completed = nextStepFor m ∧
    message = { payload := .runAiReview i ns }

/-- A task that may also send the submission to an AI review or grade it. -/
structure TaskDone (i : ℕ) (mode : Option ReviewMode) (db db' : Db) : Prop where
  finalizes : Finalizes (.task i) i db db'
  pin : (db'.submissions[i]?).map (·.pluginConfigId) = (db.submissions[i]?).map (·.pluginConfigId)
  outbox : db'.outbox = db.outbox ∨ ∃ message, AiMessage mode i message ∧ db'.outbox = db.outbox ++ [message]

theorem TaskKeeps.done {i : ℕ} {db db' : Db} (h : TaskKeeps i db db') (mode : Option ReviewMode) :
    TaskDone i mode db db' :=
  ⟨.ungraded h.within h.ungraded, h.pin, .inl h.outbox⟩

theorem TaskDone.after {i : ℕ} {mode : Option ReviewMode} {db db₁ db₂ : Db} (h : TaskKeeps i db db₁)
    (h' : TaskDone i mode db₁ db₂) : TaskDone i mode db db₂ :=
  ⟨h'.finalizes.after h.within h.ungraded, h'.pin.trans h.pin, by rw [← h.outbox]; exact h'.outbox⟩

section

variable {db : Db} {i : ℕ}

theorem finalizeGrade_pin (db : Db) (i j : ℕ) :
    ((db.finalizeGrade i).submissions[j]?).map (·.pluginConfigId) =
      (db.submissions[j]?).map (·.pluginConfigId) :=
  (within_finalizeGrade db i).map_sub (·.pluginConfigId) j fun _ => rfl

theorem sendToAi_spec {m : ReviewMode} {ns : Option NextStep} (hs : db.status i = some .testing)
    (hm : m.afterCheck = .awaitingAiReview) (hns : ns.getD .completed = nextStepFor m) :
    TaskDone i (some m) db (db.sendToAi i ns).1 ∧
      (db.sendToAi i ns).1.status i = some .awaitingAiReview := by
  obtain ⟨hok, hst⟩ := status_of_transitions hs
    (show SubmissionStatus.testing.transitions .testPassedAi = some .awaitingAiReview from rfl)
  unfold Db.sendToAi
  rw [andThen_ok hok]
  have hkeep : TaskKeeps i db (db.attemptTransition i .testPassedAi).1 := taskKeeps_attemptTransition _
  refine ⟨TaskDone.after hkeep ⟨.ungraded (within_addMessage _ i _) (.same rfl rfl), rfl, .inr ?_⟩, hst⟩
  exact ⟨_, ⟨m, ns, rfl, hm, hns, rfl⟩, rfl⟩

/-- After the tests passed the mode decides. -/
theorem advanceAfterTests_spec {m : ReviewMode} (hs : db.status i = some .testing)
    (hm : m.isQuizFirst = false) : TaskDone i (some m) db (db.advanceAfterTests i m).1 ∧
      (db.advanceAfterTests i m).1.status i = some m.afterCheck := by
  have hcompleted : TaskDone i (some m) db ((db.attemptTransition i .testPassedTestsOnly).andThen fun db =>
      (db.finalizeGrade i, none)).1 ∧ ((db.attemptTransition i .testPassedTestsOnly).andThen fun db =>
      (db.finalizeGrade i, none)).1.status i = some .completed := by
    obtain ⟨hok, hst⟩ := status_of_transitions hs
      (show SubmissionStatus.testing.transitions .testPassedTestsOnly = some .completed from rfl)
    have hkeep : TaskKeeps i db (db.attemptTransition i .testPassedTestsOnly).1 := taskKeeps_attemptTransition _
    rw [andThen_ok hok]
    refine ⟨⟨.graded hkeep.within hkeep.ungraded hst, ?_, .inl ?_⟩, ?_⟩
    · exact (finalizeGrade_pin _ i i).trans hkeep.pin
    · exact ((within_finalizeGrade _ i).messages rfl).trans hkeep.outbox
    · exact ((within_finalizeGrade _ i).status_grades i).trans hst
  cases m with
  | testsOnly => exact hcompleted
  | testsThenAi => exact sendToAi_spec hs rfl rfl
  | testsThenTeacher => exact ⟨(taskKeeps_attemptTransition _).done _, (status_of_transitions hs rfl).2⟩
  | testsThenAiThenTeacher => exact sendToAi_spec hs rfl rfl
  | testsThenAiTeacher => exact sendToAi_spec hs rfl rfl
  | testsThenAiThenQuiz => exact sendToAi_spec hs rfl rfl
  | testsThenQuiz => exact ⟨(taskKeeps_attemptTransition _).done _, (status_of_transitions hs rfl).2⟩
  | quizOnly => cases hm
  | quizThenTeacher => cases hm
  | quizAndTeacherScores => cases hm

/-- The sandbox run of a check. -/
theorem runSandbox_spec {m : ReviewMode} (hm : m.isQuizFirst = false) (version : ℕ) (check : CheckResult) :
    TaskDone i (some m) db (db.runSandbox i m version check).1 ∧
      CheckMove check (some m) (db.status i) ((db.runSandbox i m version check).1.status i) := by
  unfold Db.runSandbox
  by_cases hp : db.status i = some .pending
  · obtain ⟨hok, hval⟩ := status_of_transitions hp
      (show SubmissionStatus.pending.transitions .startValidation = some .validating from rfl)
    have hkeep : TaskKeeps i db (db.attemptTransition i .startValidation).1 := taskKeeps_attemptTransition _
    rw [andThen_ok hok, hp]
    set db₁ := (db.attemptTransition i .startValidation).1 with hdb₁
    cases check with
    | raises => exact ⟨hkeep.done _, by rw [hval]; exact .started rfl⟩
    | unusable => exact ⟨hkeep.done _, by rw [hval]; exact .started rfl⟩
    | raisesInSandbox => exact ⟨hkeep.done _, by rw [hval]; exact .started rfl⟩
    | executionError reason =>
      refine ⟨(hkeep.trans (taskKeeps_failValidation reason)).done _, ?_⟩
      dsimp only
      rw [status_failValidation, if_pos (.inr hval)]
      exact .refused (.inl rfl)
    | validationFailed reason =>
      have hset : TaskKeeps i db₁ (db₁.setSubmission i ({ · with testResults := some (.checkReason reason) })) :=
        taskKeeps_setSubmission db₁ i fun _ => rfl
      refine ⟨((hkeep.trans hset).trans (taskKeeps_attemptTransition _)).done _, ?_⟩
      dsimp only
      rw [(status_of_transitions ((status_testResults _ _).trans hval) rfl).2]
      exact .refused (.inl rfl)
    | tested passed score maxScore =>
      obtain ⟨hok', htest⟩ := status_of_transitions hval
        (show SubmissionStatus.validating.transitions .validationPassed = some .testing from rfl)
      dsimp only
      rw [andThen_ok hok']
      have hkeep' : TaskKeeps i db₁ (db₁.attemptTransition i .validationPassed).1 := taskKeeps_attemptTransition _
      set db₂ := (db₁.attemptTransition i .validationPassed).1 with hdb₂
      have hset : TaskKeeps i db₂ (db₂.setSubmission i
          ({ · with testResults := some (.tested passed score maxScore version) })) :=
        taskKeeps_setSubmission db₂ i fun _ => rfl
      have hbefore := (hkeep.trans hkeep').trans hset
      have htest' := (status_testResults db₂ (some (.tested passed score maxScore version))).trans htest
      cases passed with
      | true =>
        obtain ⟨hdone, hst⟩ := advanceAfterTests_spec htest' hm
        refine ⟨TaskDone.after hbefore hdone, ?_⟩
        simp only [if_true, hst]
        exact .passed rfl rfl
      | false =>
        refine ⟨(hbefore.trans (taskKeeps_attemptTransition _)).done _, ?_⟩
        simp only [Bool.false_eq_true, if_false]
        rw [(status_of_transitions htest' rfl).2]
        exact .testsFailed rfl
  · rw [(andThen_startValidation hp _).1]
    exact ⟨(TaskKeeps.refl i db).done _, .stays _⟩

end

/-- The mode a check of submission `i` runs under. -/
def Db.checkMode (db : Db) (i : ℕ) : Option ReviewMode := (db.checkConfig i).bind (db.modeIn · i)

/-- Everything a check does. -/
structure Checked (i : ℕ) (check : CheckResult) (db db' : Db) : Prop where
  finalizes : Finalizes (.task i) i db db'
  pin : ∀ sub sub' asg, db.submissions[i]? = some sub → db.assignmentOf sub.studentsAssignmentId = some asg →
    db'.submissions[i]? = some sub' → sub'.pluginConfigId = sub.pluginConfigId.or (db.latestConfig asg.subjectId)
  outbox : db'.outbox = db.outbox ∨
    ∃ message, AiMessage (db.checkMode i) i message ∧ db'.outbox = db.outbox ++ [message]
  move : CheckMove check (db.checkMode i) (db.status i) (db'.status i)

section

variable {db : Db} {i : ℕ} {check : CheckResult} {sub : Submission} {asg : SubjectsAssignment}

theorem checkMode_eq (hsub : db.submissions[i]? = some sub)
    (hasg : db.assignmentOf sub.studentsAssignmentId = some asg) {c : ℕ} {cfg : SubjectPluginConfig}
    (hc : sub.pluginConfigId.or (db.latestConfig asg.subjectId) = some c)
    (hcfg : db.pluginConfigs[c]? = some cfg) :
    db.checkMode i = asg.code.map fun _ => (cfg.assignment asg.code).reviewMode.getD .testsOnly := by
  simp only [Db.checkMode, Db.checkConfig, Db.modeIn, Db.blockIn, hsub, hasg, Option.bind_some, hc, hcfg,
    Option.map_map, Function.comp_def]

/-- `db₁` is `db` with the config of submission `i` pinned, if there is one. -/
structure Pins (i : ℕ) (pin : Option ℕ) (db db₁ : Db) : Prop where
  within : Within (.task i) db db₁
  ungraded : Ungraded db db₁
  status : db₁.status i = db.status i
  outbox : db₁.outbox = db.outbox
  pin : (db₁.submissions[i]?).map (·.pluginConfigId) = some pin

theorem pins_setSubmission (hsub : db.submissions[i]? = some sub) (pin : Option ℕ) :
    Pins i pin db (db.setSubmission i ({ · with pluginConfigId := pin })) where
  within := within_setSubmission db i fun s => by simp [Scope.keep]
  ungraded := ungraded_setSubmission db i fun _ => rfl
  status := status_setSubmission_same fun _ => rfl
  outbox := rfl
  pin := by rw [Db.setSubmission_submissions, Table.getElem?_modify_self, hsub]; rfl

theorem pinConfig_spec (hsub : db.submissions[i]? = some sub) (subjectId : ℕ) :
    match db.pinConfig i sub subjectId with
    | none => sub.pluginConfigId = none ∧ db.latestConfig subjectId = none
    | some (db₁, cfg) => Pins i (sub.pluginConfigId.or (db.latestConfig subjectId)) db db₁ ∧
        ∃ c, sub.pluginConfigId.or (db.latestConfig subjectId) = some c ∧ cfg = db.pluginConfigs[c]? := by
  unfold Db.pinConfig
  cases hpin : sub.pluginConfigId with
  | some c => exact ⟨⟨.refl _ db, .refl db, rfl, rfl, by rw [hsub, Option.map_some, hpin]; rfl⟩, c, rfl, rfl⟩
  | none =>
    cases hlatest : db.latestConfig subjectId with
    | none => exact ⟨rfl, rfl⟩
    | some c => exact ⟨pins_setSubmission hsub (some c), c, rfl, rfl⟩

/-- What is left to do once the config is pinned. -/
theorem checked_of_done {db₁ db' : Db} (hsub : db.submissions[i]? = some sub)
    (hasg : db.assignmentOf sub.studentsAssignmentId = some asg)
    (hpins : Pins i (sub.pluginConfigId.or (db.latestConfig asg.subjectId)) db db₁)
    {mode : Option ReviewMode} (hmode : mode = db.checkMode i) (hdone : TaskDone i mode db₁ db')
    (hmove : CheckMove check mode (db₁.status i) (db'.status i)) : Checked i check db db' := by
  subst hmode
  refine ⟨hdone.finalizes.after hpins.within hpins.ungraded, fun s s' a hs ha hs' => ?_, ?_, ?_⟩
  · rw [hsub, Option.some_inj] at hs
    subst hs
    rw [hasg, Option.some_inj] at ha
    subst ha
    have hpin := hdone.pin
    rw [hs', hpins.pin, Option.map_some, Option.some_inj] at hpin
    exact hpin
  · rw [← hpins.outbox]; exact hdone.outbox
  · rw [← hpins.status]; exact hmove

theorem executeCheck_spec (db : Db) (i : ℕ) (check : CheckResult) :
    Checked i check db (db.executeCheck i check).1 := by
  unfold Db.executeCheck
  split
  · rename_i hnone
    refine ⟨.refl _ _ db, fun sub sub' asg hs ha _ => ?_, .inl rfl, .stays _⟩
    simp [hs, ha] at hnone
  · rename_i sub asg hboth
    obtain ⟨sub', hsub, hpair⟩ := Option.bind_eq_some_iff.mp hboth
    obtain ⟨asg', hasg, heq⟩ := Option.map_eq_some_iff.mp hpair
    cases heq
    have hspec := pinConfig_spec hsub asg.subjectId
    split
    · -- no config at all: the check is refused and nothing is pinned
      rename_i hnone
      rw [hnone] at hspec
      have hpins : Pins i (sub.pluginConfigId.or (db.latestConfig asg.subjectId)) db db := by
        rw [hspec.1, hspec.2]
        exact ⟨.refl _ db, .refl db, rfl, rfl, by rw [hsub, Option.map_some, hspec.1]; rfl⟩
      exact checked_of_done hsub hasg hpins rfl ((taskKeeps_failValidation _).done _) (failValidation_move _ _ _)
    · rename_i db₁ hpin
      rw [hpin] at hspec
      exact checked_of_done hsub hasg hspec.1 rfl ((TaskKeeps.refl i db₁).done _) (.stays _)
    · rename_i db₁ cfg hpin
      rw [hpin] at hspec
      obtain ⟨hpins, c, hc, hcfg⟩ := hspec
      have hmode := checkMode_eq hsub hasg hc hcfg.symm
      dsimp only
      split_ifs with hfirst hcode
      · have hcode : asg.code.isSome = true := by
          cases hcode : asg.code with
          | some _ => rfl
          | none => rw [hcode] at hfirst; cases hfirst
        obtain ⟨code, hcode⟩ := Option.isSome_iff_exists.mp hcode
        rw [hcode, Option.map_some, ← hcode] at hmode
        exact checked_of_done hsub hasg hpins hmode.symm ((taskKeeps_acceptWithoutChecks _ _).done _)
          (acceptWithoutChecks_move hfirst check)
      · exact checked_of_done hsub hasg hpins rfl ((taskKeeps_failValidation _).done _)
          (failValidation_move _ _ _)
      · obtain ⟨code, hcode⟩ := Option.ne_none_iff_exists'.mp (Option.isNone_iff_eq_none.not.mp hcode)
        rw [hcode, Option.map_some, ← hcode] at hmode
        rw [Bool.not_eq_true] at hfirst
        obtain ⟨hdone, hmove⟩ := runSandbox_spec hfirst cfg.version check
        have hrun := checked_of_done hsub hasg hpins hmode.symm hdone hmove
        cases check with
        | raises => exact checked_of_done hsub hasg hpins rfl ((TaskKeeps.refl i db₁).done _) (.stays _)
        | unusable reason =>
          exact checked_of_done hsub hasg hpins rfl ((taskKeeps_failValidation _).done _)
            (failValidation_move _ _ _)
        | raisesInSandbox => exact hrun
        | executionError => exact hrun
        | validationFailed => exact hrun
        | tested => exact hrun

/-- Accepting an upload to a quiz-first assignment adds no row. -/
theorem executeCheck_rows (hsub : db.submissions[i]? = some sub) (hasg : db.assignmentOf sub.studentsAssignmentId = some asg)
    (hpin : sub.pluginConfigId = none) (hfirst : db.isQuizFirstAssignment asg.subjectId asg.code = true) :
    (db.executeCheck i check).1.studentsAssignments = db.studentsAssignments := by
  unfold Db.isQuizFirstAssignment at hfirst
  split at hfirst
  · rename_i code cfg hcode hcfg
    obtain ⟨c, hc, hcfg⟩ := Option.bind_eq_some_iff.mp hcfg
    rw [hcode] at hfirst
    simp only [Db.executeCheck, hsub, Option.bind_some, hasg, Option.map_some, Db.pinConfig, hpin, hc, hcfg, hcode]
    rw [if_pos hfirst]
    exact (taskKeeps_acceptWithoutChecks _ _).rows
  · cases hfirst

end

/-! The AI review -/

/-- How an AI review moves the status of its submission. -/
inductive ReviewMove (ai : AiResult) (ns : Option NextStep) :
    Option SubmissionStatus → Option SubmissionStatus → Prop
  | stays (s) : ReviewMove ai ns s s
  | failed {s} (h : SubmissionStatus.isAi s = true) : ReviewMove ai ns (some s) (some .aiReviewFailed)
  | reviewed {s codeMark isFlagged} (h : SubmissionStatus.isAi s = true) (ha : ai = .verdict codeMark isFlagged) :
      ReviewMove ai ns (some s) (some ((ns.getD .completed).afterReview isFlagged))

/-- Everything an AI review does. -/
structure Reviewed (i : ℕ) (ns : Option NextStep) (ai : AiResult) (db db' : Db) : Prop where
  finalizes : Finalizes (.task i) i db db'
  pin : (db'.submissions[i]?).map (·.pluginConfigId) = (db.submissions[i]?).map (·.pluginConfigId)
  outbox : db'.outbox = db.outbox
  move : ReviewMove ai ns (db.status i) (db'.status i)

section

variable {db : Db} {i : ℕ}

theorem enterReviewing_spec {s : SubmissionStatus} (hs : db.status i = some s) (hai : s.isAi = true) :
    TaskKeeps i db (db.enterReviewing i).1 ∧ (db.enterReviewing i).2 = none ∧
      (db.enterReviewing i).1.status i = some .aiReviewing := by
  unfold Db.enterReviewing
  rw [hs]
  cases s with
  | awaitingAiReview => exact ⟨taskKeeps_attemptTransition _, status_of_transitions hs rfl⟩
  | aiReviewFailed => exact ⟨taskKeeps_attemptTransition _, status_of_transitions hs rfl⟩
  | aiReviewing => exact ⟨.refl i db, rfl, hs⟩
  | _ => cases hai

theorem enterReviewing_refused (h : ∀ s, db.status i = some s → s.isAi = false) :
    (db.enterReviewing i).1 = db ∧ (db.enterReviewing i).2 ≠ none := by
  have hstart : (db.attemptTransition i .startAiReview).1 = db ∧
      (db.attemptTransition i .startAiReview).2 ≠ none := by
    refine attemptTransition_refused fun s hs => ?_
    have := h s hs
    cases s <;> first | rfl | cases this
  unfold Db.enterReviewing
  split
  · rename_i hs; exact absurd (h _ hs) (by decide)
  · rename_i hs; exact absurd (h _ hs) (by decide)
  · rename_i hs; exact absurd (h _ hs) (by decide)
  · exact hstart

theorem executeAiReview_spec (db : Db) (i : ℕ) (ns : Option NextStep) (ai : AiResult) :
    Reviewed i ns ai db (db.executeAiReview i ns ai).1 := by
  unfold Db.executeAiReview
  by_cases hai : ∃ s, db.status i = some s ∧ s.isAi = true
  · obtain ⟨s, hs, hai⟩ := hai
    obtain ⟨hkeep, hok, hst⟩ := enterReviewing_spec hs hai
    rw [andThen_ok hok]
    set db₁ := (db.enterReviewing i).1 with hdb₁
    cases ai with
    | providerError =>
      obtain ⟨hok', hst'⟩ := status_of_transitions hst
        (show SubmissionStatus.aiReviewing.transitions .aiReviewFailed = some .aiReviewFailed from rfl)
      dsimp only
      rw [andThen_ok hok']
      have hkeep' : TaskKeeps i db (db₁.attemptTransition i .aiReviewFailed).1 :=
        hkeep.trans (taskKeeps_attemptTransition .aiReviewFailed)
      exact ⟨.ungraded hkeep'.within hkeep'.ungraded, hkeep'.pin, hkeep'.outbox, by
        rw [hs, hst']; exact .failed hai⟩
    | verdict codeMark isFlagged =>
      dsimp only
      have hset : TaskKeeps i db₁ (db₁.setSubmission i ({ · with aiReview := some { codeMark } })) :=
        taskKeeps_setSubmission db₁ i fun _ => rfl
      have hst' : (db₁.setSubmission i ({ · with aiReview := some { codeMark } })).status i = some .aiReviewing := by
        rw [status_setSubmission_same, hst]
        exact fun _ => rfl
      have hmove : ReviewMove (.verdict codeMark isFlagged) ns (some s) (some ((ns.getD .completed).afterReview isFlagged)) :=
        .reviewed hai rfl
      set db₂ := db₁.setSubmission i ({ · with aiReview := some { codeMark } }) with hdb₂
      have hone : ∀ {event next}, SubmissionStatus.aiReviewing.transitions event = some next →
          (ns.getD .completed).afterReview isFlagged = next →
          Reviewed i ns (.verdict codeMark isFlagged) db (db₂.attemptTransition i event).1 := by
        intro event next hn hnext
        have hkeep' : TaskKeeps i db (db₂.attemptTransition i event).1 :=
          (hkeep.trans hset).trans (taskKeeps_attemptTransition event)
        exact ⟨.ungraded hkeep'.within hkeep'.ungraded, hkeep'.pin, hkeep'.outbox, by
          rw [hs, (status_of_transitions hst' hn).2, ← hnext]; exact hmove⟩
      have hteacher : SubmissionStatus.aiReviewing.transitions .aiReviewDoneTeacher = some .awaitingTeacherReview := rfl
      have hquiz : SubmissionStatus.aiReviewing.transitions .aiReviewPassedQuiz = some .quizSent := rfl
      cases hstep : ns.getD .completed with
      | quiz =>
        cases isFlagged with
        | true => exact hone hteacher (by rw [hstep]; rfl)
        | false => exact hone hquiz (by rw [hstep]; rfl)
      | teacher => exact hone hteacher (by rw [hstep]; rfl)
      | completed =>
        obtain ⟨hok'', hst''⟩ := status_of_transitions hst'
          (show SubmissionStatus.aiReviewing.transitions .aiReviewDoneCompleted = some .completed from rfl)
        have hkeep' : TaskKeeps i db (db₂.attemptTransition i .aiReviewDoneCompleted).1 :=
          (hkeep.trans hset).trans (taskKeeps_attemptTransition .aiReviewDoneCompleted)
        rw [andThen_ok hok'']
        refine ⟨.graded hkeep'.within hkeep'.ungraded hst'', (finalizeGrade_pin _ i i).trans hkeep'.pin,
          ((within_finalizeGrade _ i).messages rfl).trans hkeep'.outbox, ?_⟩
        dsimp only
        rw [hs, (within_finalizeGrade _ i).status_grades i, hst'']
        rw [hstep] at hmove
        exact hmove
  · have hno : ∀ s, db.status i = some s → s.isAi = false := by
      intro s hs
      by_contra h
      exact hai ⟨s, hs, by simpa using h⟩
    obtain ⟨hdb, hraised⟩ := enterReviewing_refused hno
    rw [andThen_raised hraised, hdb]
    exact ⟨.refl _ _ db, rfl, rfl, .stays _⟩

end

end SubmissionsChecker
