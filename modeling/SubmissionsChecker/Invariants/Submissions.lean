import SubmissionsChecker.Effects.Breakdowns
import SubmissionsChecker.Invariants.Setup

/-! What every submission and every outbox message satisfies in a reachable state, and that each
step keeps it. -/

namespace SubmissionsChecker

/-- The statuses of a submission whose quiz was opened without an upload. -/
def SubmissionStatus.isScoredStatus : SubmissionStatus → Bool
  | quizSent | awaitingTeacherReview | completed | failed => true
  | _ => false

theorem isScoredStatus_of_isAi {s : SubmissionStatus} (h : s.isAi = true) : s.isScoredStatus = false := by
  cases s <;> first | rfl | cases h

structure SubmissionOk (db : Db) (i : ℕ) (sub : Submission) : Prop where
  owned : ∃ row asg, db.studentsAssignments[sub.studentsAssignmentId]? = some row ∧
    db.subjectsAssignments[row.subjectsAssignmentId]? = some asg ∧
    sub.squadId = db.squadOf asg.subjectId row.studentId
  locked : ∀ q, sub.squadId = some q → ∃ s, db.squads[q]? = some s ∧ s.lockedAt.isSome = true
  pinned : ∀ c asg, sub.pluginConfigId = some c → db.assignmentOf sub.studentsAssignmentId = some asg →
    db.latestConfig asg.subjectId = some c
  unpinned : sub.pluginConfigId = none → sub.status = .pending ∨ sub.status = .validationFailed
  scored : db.isScoredSubmission i = true → sub.sourceType = .quizOnly ∧ sub.status.isScoredStatus = true
  graded : sub.gradeBreakdown ≠ none → sub.status = .completed
  aiMode : sub.status.isAi = true → ∃ m, db.latestMode i = some m ∧ m.afterCheck = .awaitingAiReview
  handedOver : db.isScoredSubmission i = true → sub.status = .awaitingTeacherReview → db.MembersPassed i
  created : sub.createdAt ≤ db.now

/-- An AI review that waits in the outbox has the next step of its submission's mode. -/
def MessageOk (db : Db) (message : OutboxMessage) : Prop :=
  ∀ i ns, message.payload = .runAiReview i ns → ∃ sub asg m, db.submissions[i]? = some sub ∧
    db.assignmentOf sub.studentsAssignmentId = some asg ∧ db.latestMode i = some m ∧
    m.afterCheck = .awaitingAiReview ∧ ns.getD .completed = nextStepFor m

section

variable {db db' : Db} {op : Op} {i : ℕ} {sub sub' : Submission}

theorem SubmissionOk.assignment (h : SubmissionOk db i sub) :
    ∃ asg, db.assignmentOf sub.studentsAssignmentId = some asg := by
  obtain ⟨row, asg, hrow, hasg, -⟩ := h.owned
  exact ⟨asg, by rw [Db.assignmentOf, hrow, Option.bind_some, hasg]⟩

theorem SubmissionOk.latestPin (h : SubmissionOk db i sub) {asg : SubjectsAssignment}
    (hasg : db.assignmentOf sub.studentsAssignmentId = some asg) :
    ∀ c, sub.pluginConfigId = some c → db.latestConfig asg.subjectId = some c :=
  fun c hc => h.pinned c asg hc hasg

theorem SubmissionOk.checkMode (h : SubmissionOk db i sub) (hs : db.submissions[i]? = some sub) :
    db.checkMode i = db.latestMode i := by
  obtain ⟨asg, hasg⟩ := h.assignment
  exact checkMode_latest hs hasg (h.latestPin hasg)

/-- Past the checks the pinned block is the latest one. -/
theorem SubmissionOk.pinnedBlock (h : SubmissionOk db i sub) (hs : db.submissions[i]? = some sub)
    (hp : sub.status ≠ .pending) (hv : sub.status ≠ .validationFailed) : db.pinnedBlock i = db.latestBlock i := by
  obtain ⟨asg, hasg⟩ := h.assignment
  cases hc : sub.pluginConfigId with
  | none => rcases h.unpinned hc with h | h <;> contradiction
  | some c => exact pinnedBlock_latest hs hasg hc (h.latestPin hasg c hc)

theorem isAi_afterCheck {m : ReviewMode} (h : m.afterCheck.isAi = true) : m.afterCheck = .awaitingAiReview := by
  cases m <;> first | rfl | cases h

/-- A granted attempt is for a submission that failed or waits for its quiz. -/
theorem grantable_status {t : ℕ} {base : Option ℤ} (hs : db.submissions[i]? = some sub)
    (hg : db.isGrantable i t base = true) : sub.status = .failed ∨ sub.status = .quizSent := by
  obtain ⟨s, hst, hfs⟩ := isGrantable_status hg
  rw [status_of_row hs, Option.some_inj] at hst
  rwa [hst]

/-! What a row step keeps, field by field -/

theorem RowStep.pinned (h : RowStep db op db' i sub sub')
    (ok : SubmissionOk db i sub) {asg : SubjectsAssignment}
    (hasg : db.assignmentOf sub.studentsAssignmentId = some asg) {c : ℕ} (hc : sub'.pluginConfigId = some c) :
    db.latestConfig asg.subjectId = some c := by
  cases h with
  | kept _ hp => exact ok.pinned c asg (hp ▸ hc) hasg
  | checked _ hp =>
    rw [hp asg hasg] at hc
    cases hold : sub.pluginConfigId with
    | none => rw [hold] at hc; exact hc
    | some c' => rw [hold] at hc; exact ok.pinned c asg (hold.trans hc) hasg
  | requeued _ _ _ _ hp => rw [hp] at hc; cases hc
  | granted _ _ _ _ hp => exact ok.pinned c asg (hp ▸ hc) hasg
  | moved _ hp => exact ok.pinned c asg (hp ▸ hc) hasg

/-- Nothing but the checks moves a submission that is pending or was refused. -/
theorem Move.checkedBefore {s s' : SubmissionStatus} (h : Move db op db' i s s') :
    s ≠ .pending ∧ s ≠ .validationFailed := by
  cases h with
  | aiFailed h => constructor <;> rintro rfl <;> cases h
  | aiReviewed h => constructor <;> rintro rfl <;> cases h
  | ruled h => rcases h with rfl | rfl <;> exact ⟨by decide, by decide⟩
  | _ => exact ⟨by decide, by decide⟩

theorem RowStep.unpinned (h : RowStep db op db' i sub sub') (hs : db.submissions[i]? = some sub)
    (ok : SubmissionOk db i sub) (hc : sub'.pluginConfigId = none) :
    sub'.status = .pending ∨ sub'.status = .validationFailed := by
  cases h with
  | kept hst hp => rw [hst]; exact ok.unpinned (hp ▸ hc)
  | checked _ hp hm =>
    obtain ⟨asg, hasg⟩ := ok.assignment
    rw [hp asg hasg] at hc
    obtain ⟨hold, hlatest⟩ : sub.pluginConfigId = none ∧ db.latestConfig asg.subjectId = none := by
      cases h₁ : sub.pluginConfigId <;> rw [h₁] at hc
      · exact ⟨rfl, hc⟩
      · cases hc
    have hmode : db.checkMode i = none := by
      rw [ok.checkMode hs, Db.latestMode, latestBlock_eq hs hasg, hlatest]
      rfl
    rw [hmode] at hm
    generalize hst : some sub.status = s, hst' : some sub'.status = s' at hm
    cases hm with
    | stays => rw [Option.some_inj.mp (hst'.trans hst.symm)]; exact ok.unpinned hold
    | refused => exact .inr (Option.some_inj.mp hst')
    | started hmode => cases hmode
    | testsFailed hmode => cases hmode
    | passed hmode => cases hmode
  | requeued _ _ _ hst => exact .inl hst
  | granted _ _ hg _ hp =>
    rcases ok.unpinned (hp ▸ hc) with h | h <;> rcases grantable_status hs hg with h' | h' <;>
      rw [h] at h' <;> cases h'
  | moved hm hp =>
    rcases ok.unpinned (hp ▸ hc) with h | h
    · exact absurd h hm.checkedBefore.1
    · exact absurd h hm.checkedBefore.2

theorem Move.scoredStatus {s s' : SubmissionStatus} (h : Move db op db' i s s') (hs : s.isScoredStatus = true) :
    s'.isScoredStatus = true := by
  cases h with
  | aiFailed h => rw [isScoredStatus_of_isAi h] at hs; cases hs
  | aiReviewed h => rw [isScoredStatus_of_isAi h] at hs; cases hs
  | skipped => cases hs
  | passed _ _ _ hs' => rw [hs']; split_ifs <;> rfl
  | ruled _ _ _ hs' => rcases hs' with rfl | rfl <;> rfl
  | _ => rfl

theorem CheckMove.scored {check : CheckResult} {mode : Option ReviewMode} {s s' : SubmissionStatus}
    (h : CheckMove check mode (some s) (some s')) (hs : s.isScoredStatus = true) : s' = s := by
  cases h with
  | stays => rfl
  | refused h => rcases h with h | h <;> cases h <;> cases hs
  | started => cases hs
  | testsFailed => cases hs
  | passed => cases hs

theorem RowStep.scoredStatus (h : RowStep db op db' i sub sub') (hq : sub.sourceType = .quizOnly)
    (hs : sub.status.isScoredStatus = true) : sub'.status.isScoredStatus = true := by
  cases h with
  | kept hst => rw [hst]; exact hs
  | checked _ _ hm => rw [hm.scored hs]; exact hs
  | requeued _ _ ht => exact absurd hq ht
  | granted _ _ _ hst => rw [hst]; rfl
  | moved hm => exact hm.scoredStatus hs

theorem Move.ai {s s' : SubmissionStatus} (h : Move db op db' i s s') (hs' : s'.isAi = true) :
    s.isAi = true := by
  cases h with
  | aiFailed h => exact h
  | aiReviewed h => exact h
  | skipped => rfl
  | passed _ _ _ h => rw [h] at hs'; split_ifs at hs' <;> cases hs'
  | ruled _ _ _ h => rcases h with rfl | rfl <;> cases hs'
  | _ => cases hs'

/-- Only a check under such a mode sends a submission to an AI review. -/
theorem RowStep.ai (h : RowStep db op db' i sub sub') (hs : db.submissions[i]? = some sub)
    (ok : SubmissionOk db i sub) (hai : sub'.status.isAi = true) :
    ∃ m, db.latestMode i = some m ∧ m.afterCheck = .awaitingAiReview := by
  cases h with
  | kept hst => exact ok.aiMode (hst ▸ hai)
  | checked _ _ hm =>
    rw [ok.checkMode hs] at hm
    generalize hst : some sub.status = s, hst' : some sub'.status = s' at hm
    cases hm with
    | stays => exact ok.aiMode (by rw [← Option.some_inj.mp (hst'.trans hst.symm)]; exact hai)
    | refused => rw [Option.some_inj.mp hst'] at hai; cases hai
    | started => rw [Option.some_inj.mp hst'] at hai; cases hai
    | testsFailed => rw [Option.some_inj.mp hst'] at hai; cases hai
    | passed hmode =>
      rw [Option.some_inj.mp hst'] at hai
      exact ⟨_, hmode, isAi_afterCheck hai⟩
  | requeued _ _ _ hst => rw [hst] at hai; cases hai
  | granted _ _ _ hst => rw [hst] at hai; cases hai
  | moved hm => exact ok.aiMode (hm.ai hai)

/-- A scored submission is handed to the teacher by a complete quiz. -/
theorem RowStep.handedOver (h : RowStep db op db' i sub sub') (hev : Evolves db db') (hclosed : db.PassedClosed)
    (hs : db.submissions[i]? = some sub) (ok : SubmissionOk db i sub) (hscored : db.isScoredSubmission i = true)
    (hst' : sub'.status = .awaitingTeacherReview) : db'.MembersPassed i := by
  have hkeep : sub'.status = sub.status → db'.MembersPassed i := fun hst =>
    hev.membersPassed hclosed hs (ok.handedOver hscored (hst ▸ hst'))
  obtain ⟨hquiz, hstatus⟩ := ok.scored hscored
  cases h with
  | kept hst => exact hkeep hst
  | checked _ _ hm => exact hkeep (hm.scored hstatus)
  | requeued _ _ ht => exact absurd hquiz ht
  | granted _ _ _ hst => rw [hst] at hst'; cases hst'
  | moved hm =>
    generalize hold : sub.status = s, hnew : sub'.status = s' at hm
    rw [hold] at hstatus
    rw [hnew] at hst'
    cases hm with
    | aiFailed => cases hst'
    | aiReviewed h => rw [isScoredStatus_of_isAi h] at hstatus; cases hstatus
    | skipped => cases hstatus
    | passed _ _ hc => exact membersPassed_of_complete hc
    | ruled _ _ hc => exact membersPassed_of_complete hc
    | _ => cases hst'

/-- Every step keeps what a submission satisfies. -/
theorem SubmissionOk.step (ok : SubmissionOk db i sub) (h : StepSpec db op db') (hclosed : db.PassedClosed)
    (hs : db.submissions[i]? = some sub) (hs' : db'.submissions[i]? = some sub') : SubmissionOk db' i sub' := by
  have hev := h.evolves
  obtain ⟨asg, hasg⟩ := ok.assignment
  have hrow := row_step h hs hs' hasg
  obtain ⟨s, hs₁, hsa, hsource, hsquad, hcreated⟩ := hev.submission hs
  rw [hs'] at hs₁
  cases hs₁
  obtain ⟨s, hs₁, hdone, hgrade⟩ := h.gradesDone i sub hs
  rw [hs'] at hs₁
  cases hs₁
  have hscored := hev.isScored hs hasg
  have hmode := hev.latestMode hs hasg
  have hasg' := hev.assignmentOf hasg
  refine ⟨?_, ?_, ?_, hrow.unpinned hs ok, ?_, ?_, ?_, ?_, ?_⟩
  · obtain ⟨row, asg₁, hrow₁, hasg₁, hq⟩ := ok.owned
    obtain ⟨row', hrow', hst', hrowasg⟩ := hev.rows _ row hrow₁
    exact ⟨row', asg₁, by rw [hsa, hrow'], by rw [hrowasg, hev.subjectsAssignments, hasg₁],
      by rw [hsquad, hq, hst', hev.squadOf]⟩
  · intro q hq
    obtain ⟨s, hqs, hlock⟩ := ok.locked q (hsquad ▸ hq)
    exact hev.locked q s hqs hlock
  · intro c asg₁ hc hasg₁
    rw [hsa, hasg', Option.some_inj] at hasg₁
    rw [← hasg₁, hev.latestConfig]
    exact hrow.pinned ok hasg hc
  · intro hsc
    rw [hscored] at hsc
    obtain ⟨hq, hst⟩ := ok.scored hsc
    exact ⟨hsource.trans hq, hrow.scoredStatus hq hst⟩
  · intro hb
    rcases hgrade with hsame | hcompleted
    · exact hdone (ok.graded (hsame ▸ hb))
    · exact hcompleted
  · intro hai
    rw [hmode]
    exact hrow.ai hs ok hai
  · intro hsc
    rw [hscored] at hsc
    exact hrow.handedOver hev hclosed hs ok hsc
  · rw [hcreated]
    exact ok.created.trans hev.now

end

end SubmissionsChecker
