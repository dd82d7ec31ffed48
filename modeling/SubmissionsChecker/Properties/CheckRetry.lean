import SubmissionsChecker.Effects.Standings
import SubmissionsChecker.Invariants.Reachable
import SubmissionsChecker.Library.Runs

/-! Retries of a check. The processor commits what a handler changed before it raised, so the message
starts again from there. -/

namespace SubmissionsChecker

open Runs

/-- The check is behind the submission. -/
def SubmissionStatus.movedOn : SubmissionStatus → Bool
  | pending | validating | testing => false
  | _ => true

/-- What the handling of a `RUN_CHECKS` message must commit: a handler that raised changed nothing, a
submission that has moved on stays, and no check is begun and not ended. -/
def Db.HandlesSafely (db : Db) (late : LateFault) (i : ℕ) (result : CheckResult) : Prop :=
  ∀ before, db.checkStanding i = some before →
    ((db.executeCheckWith late i result).2 ≠ none →
      (db.executeCheckWith late i result).1.checkStanding i = some before) ∧
    (before.1.movedOn = true → (db.executeCheckWith late i result).1.checkStanding i = some before) ∧
    (before.1.midCheck = false → ∀ after, (db.executeCheckWith late i result).1.checkStanding i = some after →
      after.1.midCheck = false)

/-- A path that leaves nothing half done. A run in the sandbox must not raise there, nor in a call
after the tests; the other paths write their findings before the transition that may raise, so the
transition must be open or the findings those that stand already. -/
def CheckPath.Retriable (path : CheckPath) (late : LateFault) (result : CheckResult) (before : Standing) : Prop :=
  match path with
  | stops _ => True
  | fails reason => before.1 = .pending ∨ before.1 = .validating ∨ before.2 = some (.checkReason reason)
  | accepts mode => before.1 = .pending ∨ before.2 = some (.skipped mode)
  | sandbox mode _ => before.1 = .pending → result ≠ .raisesInSandbox ∧
      ∀ passed score maxScore, result = .tested passed score maxScore →
        if passed then late.hits mode = false else late ≠ .notification

def Db.Retriable (db : Db) (late : LateFault) (i : ℕ) (result : CheckResult) : Prop :=
  ∀ before, db.checkStanding i = some before → (db.checkPath i result).Retriable late result before

/-- Every check that the operation runs is retriable. -/
def Db.RetriableOp (db : Db) (o : LateFault × Op) : Prop :=
  ∀ i check, db.RunsCheck o.2 i check → db.Retriable o.1 i check

/-- No submission is left in the middle of a check. -/
def Db.NoneMidCheck (db : Db) : Prop := ∀ (i : ℕ) status, db.status i = some status → status.midCheck = false

/-! One handling -/

/-- The same of a handler's end. -/
def CheckEnd.Safe (before : Standing) (e : CheckEnd) : Prop :=
  (e.2 = true → e.1 = before) ∧ (before.1.movedOn = true → e.1 = before) ∧
    (before.1.midCheck = false → e.1.1.midCheck = false)

section

variable {db : Db} {i : ℕ} {late : LateFault} {result : CheckResult} {before : Standing} {mode : ReviewMode}
  {reason : String} {version : ℕ}

theorem failValidation_safe_iff : CheckEnd.Safe before (before.failValidation reason) ↔
    before.1 = .pending ∨ before.1 = .validating ∨ before.2 = some (.checkReason reason) := by
  obtain ⟨status, results⟩ := before
  rcases status <;> simp [CheckEnd.Safe, Standing.failValidation, SubmissionStatus.movedOn,
    SubmissionStatus.midCheck, eq_comm]

theorem accept_safe_iff : CheckEnd.Safe before (before.accept mode) ↔
    before.1 = .pending ∨ before.2 = some (.skipped mode) := by
  obtain ⟨status, results⟩ := before
  rcases status <;> simp [CheckEnd.Safe, Standing.accept, SubmissionStatus.movedOn, SubmissionStatus.midCheck, eq_comm]

theorem afterCheck_ne_pending (mode : ReviewMode) : mode.afterCheck ≠ .pending := by
  rcases mode <;> simp [ReviewMode.afterCheck]

theorem afterCheck_midCheck (mode : ReviewMode) : mode.afterCheck.midCheck = false := by
  rcases mode <;> rfl

theorem runSandbox_safe_iff (hraises : result ≠ .raises) (hunusable : ∀ reason, result ≠ .unusable reason) :
    CheckEnd.Safe before (before.runSandbox late mode version result) ↔
      (CheckPath.sandbox mode version).Retriable late result before := by
  obtain ⟨status, results⟩ := before
  by_cases hpending : status = .pending
  · subst hpending
    rcases result with _ | reason | _ | reason | reason | ⟨passed, score, maxScore⟩
    · exact absurd rfl hraises
    · exact absurd rfl (hunusable reason)
    · simp [CheckEnd.Safe, Standing.runSandbox, CheckPath.Retriable, SubmissionStatus.midCheck]
    · simp [CheckEnd.Safe, Standing.runSandbox, CheckPath.Retriable, SubmissionStatus.midCheck,
        SubmissionStatus.movedOn]
    · simp [CheckEnd.Safe, Standing.runSandbox, CheckPath.Retriable, SubmissionStatus.midCheck,
        SubmissionStatus.movedOn]
    · rcases passed
      · simp [CheckEnd.Safe, Standing.runSandbox, CheckPath.Retriable, SubmissionStatus.midCheck,
          SubmissionStatus.movedOn]
      · simp [CheckEnd.Safe, Standing.runSandbox, CheckPath.Retriable, SubmissionStatus.movedOn,
          afterCheck_ne_pending, afterCheck_midCheck]
  · have hstays : Standing.runSandbox late mode version result (status, results) = ((status, results), true) := by
      rcases status <;> first | rfl | exact absurd rfl hpending
    rw [hstays]
    simp [CheckEnd.Safe, CheckPath.Retriable, hpending]

/-- Only what opened the archive gets to the sandbox. -/
theorem checkPath_sandbox (h : db.checkPath i result = .sandbox mode version) :
    result ≠ .raises ∧ ∀ reason, result ≠ .unusable reason := by
  unfold Db.checkPath at h
  split at h
  · cases h
  · split at h
    · cases h
    · split at h
      · cases h
      · unfold pinnedPath at h
        split_ifs at h
        · rcases result <;> cases h
        · rcases result
          case raises => cases h
          case unusable => cases h
          all_goals exact ⟨by simp, by simp⟩

theorem handlesSafely_iff_ends : db.HandlesSafely late i result ↔ ∀ before, db.checkStanding i = some before →
    CheckEnd.Safe before ((db.checkPath i result).ends late result before) := by
  apply forall₂_congr
  intro before hbefore
  obtain ⟨hstanding, hraised⟩ := executeCheckWith_shows hbefore late result
  rw [hstanding, hraised]
  simp [CheckEnd.Safe]

/-- A handling is safe exactly when the submission and the faults allow it. -/
theorem handlesSafely_iff : db.HandlesSafely late i result ↔ db.Retriable late i result := by
  rw [handlesSafely_iff_ends]
  apply forall₂_congr
  intro before _
  rcases hpath : db.checkPath i result with raised | reason | mode | ⟨mode, version⟩
  · simp [CheckPath.ends, CheckPath.Retriable, CheckEnd.Safe]
  · exact failValidation_safe_iff
  · exact accept_safe_iff
  · exact runSandbox_safe_iff (checkPath_sandbox hpath).1 (checkPath_sandbox hpath).2

end

/-! Every run -/

/-- Every submission is on an assignment. -/
def Db.OnAssignments (db : Db) : Prop := ∀ (i : ℕ) sub, db.submissions[i]? = some sub →
  ∃ asg, db.assignmentOf sub.studentsAssignmentId = some asg

section

variable {db db' : Db} {op : Op} {i : ℕ} {late : LateFault} {check : CheckResult} {sub sub' : Submission}

theorem Db.NoneMidCheck.row (h : db.NoneMidCheck) (hs : db.submissions[i]? = some sub) : sub.status.midCheck = false :=
  h i _ (status_of_row hs)

theorem noneMidCheck_of_rows (h : ∀ (i : ℕ) sub, db.submissions[i]? = some sub → sub.status.midCheck = false) :
    db.NoneMidCheck := by
  intro i status hstatus
  obtain ⟨sub, hs, rfl⟩ := Option.map_eq_some_iff.mp hstatus
  exact h i sub hs

theorem Db.NoneMidCheck.handled (h : db.NoneMidCheck) (hsafe : db.HandlesSafely late i check) :
    (db.executeCheckWith late i check).1.NoneMidCheck := by
  have hw : Within (.task i) db (db.executeCheckWith late i check).1 := within_executeCheckWith db i check
  apply noneMidCheck_of_rows
  intro j sub' hs'
  obtain ⟨sub, hs⟩ : ∃ sub, db.submissions[j]? = some sub := by
    have hlt : j < db.submissions.length := by
      rw [← hw.submissions_length]
      exact (List.getElem?_eq_some_iff.mp hs').1
    exact ⟨_, List.getElem?_eq_getElem hlt⟩
  by_cases hij : j = i
  · subst hij
    have hbefore : db.checkStanding j = some (sub.status, sub.testResults) := by
      rw [Db.checkStanding, hs, Option.map_some]
    have hafter : (db.executeCheckWith late j check).1.checkStanding j = some (sub'.status, sub'.testResults) := by
      rw [Db.checkStanding, hs', Option.map_some]
    exact (hsafe _ hbefore).2.2 (h.row hs) _ hafter
  · rw [(hw.row_ne hij hs hs').1]
    exact h.row hs

/-- No move of another operation ends in the middle of a check. -/
theorem Move.ends {s s' : SubmissionStatus} (h : Move db op db' i s s') : s'.midCheck = false := by
  rcases h with _ | @⟨s, ns, codeMark, isFlagged, -, -⟩ | _ | _ | _ | _ | _ | ⟨-, -, -, rfl⟩ | _ | ⟨-, -, -, hs', -⟩
  case aiReviewed =>
    rcases ns.getD .completed <;> rcases isFlagged <;> rfl
  case passed =>
    split_ifs <;> rfl
  case ruled =>
    rcases hs' with rfl | rfl <;> rfl
  all_goals rfl

theorem RowStep.endsCheck (h : RowStep db op db' i sub sub') (hbefore : sub.status.midCheck = false)
    (hno : ∀ check, ¬ db.RunsCheck op i check) : sub'.status.midCheck = false := by
  rcases h with ⟨hs⟩ | ⟨hr⟩ | ⟨-, -, -, hs⟩ | ⟨-, -, -, hs⟩ | ⟨hm⟩
  · rw [hs]
    exact hbefore
  · exact absurd hr (hno _)
  · rw [hs]
    rfl
  · rw [hs]
    rfl
  · exact hm.ends

/-! An upload that is checked at once -/

theorem retriable_of_quizFirst {asg : SubjectsAssignment} (hs : db.submissions[i]? = some sub)
    (hasg : db.assignmentOf sub.studentsAssignmentId = some asg) (hpin : sub.pluginConfigId = none)
    (hpending : sub.status = .pending) (hfirst : db.isQuizFirstAssignment asg.subjectId asg.code = true) :
    db.Retriable late i check := by
  intro before hbefore
  have hbefore₁ : before.1 = .pending := by
    rw [Db.checkStanding, hs, Option.map_some, Option.some_inj] at hbefore
    rw [← hbefore, hpending]
  unfold Db.isQuizFirstAssignment at hfirst
  split at hfirst
  · rename_i code cfg hcode hcfg
    obtain ⟨c, hc, hcfg⟩ := Option.bind_eq_some_iff.mp hcfg
    rw [hcode] at hfirst
    simp only [Db.checkPath, hs, Option.bind_some, hasg, Option.map_some, hpin, Option.none_or, hc, hcfg, hcode]
    unfold pinnedPath
    rw [if_pos hfirst]
    rcases check
    case raises => trivial
    all_goals exact .inl hbefore₁
  · cases hfirst

theorem noneMidCheck_addSubmission (h : db.NoneMidCheck) (hsub : sub.status.midCheck = false) :
    (db.addSubmission sub).NoneMidCheck := by
  apply noneMidCheck_of_rows
  intro j sub' hs'
  rw [addSubmission_submissions] at hs'
  rcases Table.getElem?_concat_some hs' with hs | ⟨rfl, rfl⟩
  · exact h.row hs
  · exact hsub

theorem noneMidCheck_upload {saId t : ℕ} {isZip : Bool} {size : ℕ} (h : db.NoneMidCheck)
    (hup : db.submitAssignment saId t isZip size check = .ok db') : db'.NoneMidCheck := by
  unfold Db.submitAssignment at hup
  rcases hsa : db.studentsAssignments[saId]? with _ | sa
  · simp only [hsa] at hup
    cases hup
  simp only [hsa] at hup
  by_cases hst : sa.studentId ≠ t
  · rw [if_pos hst] at hup
    cases hup
  rw [if_neg hst] at hup
  rcases hasg : db.subjectsAssignments[sa.subjectsAssignmentId]? with _ | asg
  · simp only [hasg] at hup
    cases hup
  simp only [hasg] at hup
  by_cases hscored : asg.config.isScoredMode = true
  · rw [if_pos hscored] at hup
    cases hup
  rw [if_neg hscored] at hup
  by_cases hlate : db.refusesLate asg = true
  · rw [if_pos hlate] at hup
    cases hup
  rw [if_neg hlate] at hup
  obtain ⟨squad, hsquad, hup⟩ := bind_ok hup
  obtain ⟨hw, -, -⟩ := uploadScope_spec db saId sa.subjectsAssignmentId squad
  set db₁ := (db.uploadScope saId sa.subjectsAssignmentId squad).1 with hdb₁
  have hnone : db₁.NoneMidCheck := fun i status hstatus => h i status (by rwa [hw.status_grades i] at hstatus)
  have hadded : (db₁.addSubmission { studentsAssignmentId := saId, squadId := squad, createdAt := db₁.now }).NoneMidCheck :=
    noneMidCheck_addSubmission hnone rfl
  split_ifs at hup with hdone hmax hzip hsize hfirst
  · have hretriable : Db.Retriable _ .none db₁.submissions.length check :=
      retriable_of_quizFirst (addSubmission_get db₁ _)
        ((addSubmission_assignmentOf db₁ _ _).trans (hw.assignmentOf (by simp [Db.assignmentOf, hsa, hasg])))
        rfl rfl hfirst
    have hchecked := hadded.handled (handlesSafely_iff.mpr hretriable)
    rw [executeCheckWith_none] at hchecked
    split at hup
    · rename_i db₃ hrun
      cases hup
      rw [hrun] at hchecked
      exact hchecked
    · cases hup
  · cases hup
    exact hadded

/-! The operations -/

theorem Db.OnAssignments.evolves (h : db.OnAssignments) (hev : Evolves db db')
    (hnew : ∀ (i : ℕ) sub', db.submissions[i]? = none → db'.submissions[i]? = some sub' →
      ∃ asg, db'.assignmentOf sub'.studentsAssignmentId = some asg) : db'.OnAssignments := by
  intro i sub' hs'
  rcases hs : db.submissions[i]? with _ | sub
  · exact hnew i sub' hs hs'
  · obtain ⟨sub₁, hs₁, ho⟩ := hev.subs i sub hs
    rw [hs', Option.some_inj] at hs₁
    subst hs₁
    obtain ⟨asg, hasg⟩ := h i sub hs
    refine ⟨asg, ?_⟩
    rw [show sub'.studentsAssignmentId = sub.studentsAssignmentId from congrArg Prod.fst ho]
    exact hev.assignmentOf hasg

theorem noneMidCheck_step (h : db.NoneMidCheck) (hlinked : db.OnAssignments) (hno : ∀ i check, ¬ db.RunsCheck op i check) :
    (db.step op).NoneMidCheck := by
  have hspec := step_spec db op
  apply noneMidCheck_of_rows
  intro i sub' hs'
  rcases hs : db.submissions[i]? with _ | sub
  · have hnew : db.submissions.length ≤ i := List.getElem?_eq_none_iff.mp hs
    have hold : i < (db.step op).submissions.length := (List.getElem?_eq_some_iff.mp hs').1
    rcases hspec.adds with hlen | ⟨saId, t, isZip, size, check, rfl, -⟩ | ⟨saId, t, rnd, rfl, hstarted⟩
    · omega
    · have hstep : (db.step (.upload saId t isZip size check)).NoneMidCheck := by
        rcases hup : db.submitAssignment saId t isZip size check with e | db'
        · simp only [Db.step, Db.request, hup]
          exact h
        · simp only [Db.step, Db.request, hup]
          exact noneMidCheck_upload h hup
      exact hstep.row hs'
    · rw [hstarted.quizSent hs hs']
      rfl
  · obtain ⟨asg, hasg⟩ := hlinked i sub hs
    exact (row_step hspec hs hs' hasg).endsCheck (h.row hs) fun check => hno i check

/-- What the runs keep. -/
structure Db.Settled (db : Db) : Prop where
  setup : db.Setup
  linked : db.OnAssignments
  none : db.NoneMidCheck

theorem Db.Settled.step (h : db.Settled) (hno : ∀ i check, ¬ db.RunsCheck op i check) : (db.step op).Settled := by
  have hspec := step_spec db op
  refine ⟨hspec.evolves.setup h.setup, h.linked.evolves hspec.evolves fun i sub' hs hs' => ?_,
    noneMidCheck_step h.none h.linked hno⟩
  exact (new_submission hspec h.setup hs hs').ok.assignment

theorem Db.Settled.handled (h : db.Settled) (hretriable : db.Retriable late i check) :
    (db.executeCheckWith late i check).1.Settled := by
  have hw : Within (.task i) db (db.executeCheckWith late i check).1 := within_executeCheckWith db i check
  refine ⟨hw.evolves.setup h.setup, h.linked.evolves hw.evolves fun j sub' hs hs' => ?_,
    h.none.handled (handlesSafely_iff.mpr hretriable)⟩
  have hnew : db.submissions.length ≤ j := List.getElem?_eq_none_iff.mp hs
  have hold : j < (db.executeCheckWith late i check).1.submissions.length := (List.getElem?_eq_some_iff.mp hs').1
  rw [hw.submissions_length] at hold
  omega

theorem Db.Settled.setMessage (h : db.Settled) (m : ℕ) (f : OutboxMessage → OutboxMessage) : (db.setMessage m f).Settled := by
  have hev : Evolves db (db.setMessage m f) := { Evolves.refl _ with }
  exact ⟨hev.setup h.setup, h.linked, h.none⟩

theorem Db.Settled.stepWith {o : LateFault × Op} (h : db.Settled) (ho : db.RetriableOp o) : (db.stepWith o).Settled := by
  obtain ⟨late, op⟩ := o
  rcases op
  case processMessage m check ai =>
    by_cases hcheck : ∃ i, db.MessageAbout m (.runChecks i)
    · obtain ⟨i, message, hm, hstate, hpayload⟩ := hcheck
      have hretriable : db.Retriable late i check := ho i check ⟨m, ai, rfl, message, hm, hstate, hpayload⟩
      simp only [Db.stepWith, Db.processMessageWith, hm, if_neg hstate, hpayload]
      exact (h.handled hretriable).setMessage m _
    · have hsame : db.stepWith (late, .processMessage m check ai) = db.step (.processMessage m check ai) := by
        simp only [Db.stepWith, Db.processMessageWith, Db.step, Db.request, Db.processMessage]
        rcases hm : db.outbox[m]? with _ | message
        · rfl
        · dsimp only
          by_cases hstate : message.state = .finished
          · rw [if_pos hstate, if_pos hstate]
          · rw [if_neg hstate, if_neg hstate]
            rcases hpayload : message.payload with i | ⟨i, nextStep⟩
            · exact absurd ⟨i, message, hm, hstate, hpayload⟩ hcheck
            · rfl
      rw [hsame]
      refine h.step fun i check' hr => ?_
      obtain ⟨m', ai', heq, habout⟩ := hr
      cases heq
      exact hcheck ⟨i, habout⟩
  all_goals
    rw [stepWith_other db late (by simp)]
    refine h.step ?_
    rintro i check ⟨m, ai, heq, -⟩
    cases heq

theorem Db.Start.settled (h : db.Start) : db.Settled := by
  refine ⟨h.setup, fun i sub hs => ?_, noneMidCheck_of_rows fun i sub hs => ?_⟩
  · rw [h.submissions] at hs
    cases hs
  · rw [h.submissions] at hs
    cases hs

end

/-- A handling is safe exactly when the submission and the faults allow it, and where every check is,
no submission is left in the middle of one. -/
theorem check_retry_safe {db₀ db : Db} {ops : List (LateFault × Op)} (hstart : db₀.Start)
    (hrun : Run Db.stepWith Db.RetriableOp db₀ ops db) :
    (∀ (db : Db) (late : LateFault) (i : ℕ) (result : CheckResult),
      db.HandlesSafely late i result ↔ db.Retriable late i result) ∧ db.NoneMidCheck := by
  refine ⟨fun db late i result => handlesSafely_iff, ?_⟩
  have hsettled := hrun.invariant (I := Db.Settled) hstart.settled fun _ _ h ho => h.stepWith ho
  exact hsettled.none

/-- A student of a subject whose assignment is examined by tests. -/
def testedStudent : Db := oneSubject { reviewMode := some .testsOnly } {} [] [0]

/-- The storage does not answer, and the retry passes. -/
def storageFailsOnce : List (LateFault × Op) :=
  [(.none, .upload 0 0 true 1 .raises), (.none, .processMessage 0 .raises .providerError),
    (.none, .processMessage 0 (.tested true 1 1) .providerError)]

theorem storageFailsOnce_retries :
    (storageFailsOnce.foldl Db.stepWith testedStudent).status 0 = some .completed ∧
      (storageFailsOnce.foldl Db.stepWith testedStudent).NoneMidCheck := by
  have hchecks : Checks Db.stepWith Db.RetriableOp testedStudent storageFailsOnce := ⟨?_, ?_, ?_, trivial⟩
  · exact ⟨by decide +kernel, (check_retry_safe (oneSubject_start (by decide) (by simp)) (run_of_checks hchecks)).2⟩
  · rintro i check ⟨m, ai, heq, -⟩
    cases heq
  · rintro i check ⟨m, ai, heq, message, hm, -, hpayload⟩ before -
    cases heq
    cases hm
    cases hpayload
    exact trivial
  · rintro i check ⟨m, ai, heq, message, hm, -, hpayload⟩ before -
    cases heq
    cases hm
    cases hpayload
    exact fun _ => ⟨by simp, by rintro passed score maxScore ⟨⟩; rfl⟩

/-- Docker is missing once: the submission stays in `VALIDATING`, and the retry is refused. -/
theorem docker_failure_sticks : ¬ ∀ (db₀ db : Db) (ops : List (LateFault × Op)), db₀.Start →
    Run Db.stepWith Any db₀ ops db →
    (∀ late i result, db.HandlesSafely late i result) ∧ db.NoneMidCheck := by
  intro hall
  have h := hall testedStudent _ [(.none, .upload 0 0 true 1 .raises), (.none, .processMessage 0 .raisesInSandbox .providerError),
    (.none, .processMessage 0 (.tested true 1 1) .providerError)] (oneSubject_start (by decide) (by simp)) (run_foldl _)
  have hstuck := h.2 0 .validating (by decide +kernel)
  cases hstuck

end SubmissionsChecker
