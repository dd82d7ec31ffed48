import SubmissionsChecker.Invariants.Reachable

/-! When a squad submission with a quiz becomes completed. Quiz outcomes and saved scores ask
every enrolled member for a pass; the review page asks for one pass of anybody. -/

namespace SubmissionsChecker

open Runs

/-- `_QUIZ_REACHABLE_MODES`. -/
def ReviewMode.reachesQuiz : ReviewMode → Bool
  | testsOnly | testsThenAi => false
  | testsThenTeacher | testsThenAiThenTeacher | testsThenAiTeacher | testsThenAiThenQuiz | testsThenQuiz
  | quizOnly | quizThenTeacher | quizAndTeacherScores => true

/-- The modes that send the quiz themselves; the others wait for an approval. -/
def ReviewMode.sendsQuiz : ReviewMode → Bool
  | testsThenAiThenQuiz | testsThenQuiz | quizOnly | quizThenTeacher | quizAndTeacherScores => true
  | testsOnly | testsThenAi | testsThenTeacher | testsThenAiThenTeacher | testsThenAiTeacher => false

/-- The review under this block includes a quiz. -/
def PluginAssignment.includesQuiz (block : PluginAssignment) : Bool :=
  let mode := block.reviewMode.getD .testsOnly
  mode.reachesQuiz && (mode.sendsQuiz || block.quiz.questions != [])

namespace Db

/-- The review of submission `i` includes a quiz. -/
def IncludesQuiz (db : Db) (i : ℕ) : Prop := ∃ block, db.pinnedBlock i = some block ∧ block.includesQuiz = true

/-- A squad submission with a quiz only becomes completed when every enrolled member has passed. -/
def GateHolds (db db' : Db) : Prop := ∀ i, db.status i ≠ some .completed → db'.status i = some .completed →
  db'.IncludesQuiz i → db'.MembersPassed i

/-- An approval that completes submission `i`: it waits for the teacher and its points are in, and
the config has no question for it or somebody has passed. -/
def ApprovalCompletes (db : Db) (op : Op) (i : ℕ) : Prop :=
  (∃ reason, op = .review i .approve reason) ∧ db.status i = some .awaitingTeacherReview ∧
    (db.isScoredSubmission i = true → db.scoresCompleteFor i = true) ∧
    (db.hasQuiz i = true → db.quizPassed i = true)

/-- No approval completes a squad submission with a quiz that an enrolled member has yet to pass. -/
def ApprovesPassed (db : Db) (op : Op) : Prop :=
  ∀ i, db.ApprovalCompletes op i → db.IncludesQuiz i → db.MembersPassed i

end Db

section

variable {db db' : Db} {op : Op} {i : ℕ} {sub sub' : Submission}

/-- A check completes a submission only when the mode has no quiz. -/
theorem not_includesQuiz_of_afterCheck {block : PluginAssignment}
    (h : (block.reviewMode.getD .testsOnly).afterCheck = .completed) : block.includesQuiz = false := by
  unfold PluginAssignment.includesQuiz
  generalize block.reviewMode.getD .testsOnly = m at h
  cases m <;> first | rfl | cases h

/-- An AI review completes a submission only when the mode has no quiz. -/
theorem not_includesQuiz_of_nextStep {block : PluginAssignment}
    (h : (block.reviewMode.getD .testsOnly).afterCheck = .awaitingAiReview)
    (hns : nextStepFor (block.reviewMode.getD .testsOnly) = .completed) : block.includesQuiz = false := by
  unfold PluginAssignment.includesQuiz
  generalize block.reviewMode.getD .testsOnly = m at h hns
  cases m <;> first | rfl | (cases h; done) | cases hns

theorem latestMode_of_block {block : PluginAssignment} (h : db.latestBlock i = some block) :
    db.latestMode i = some (block.reviewMode.getD .testsOnly) := by
  rw [Db.latestMode, h, Option.map_some]

theorem afterReview_completed {ns : NextStep} {isFlagged : Bool} (h : ns.afterReview isFlagged = .completed) :
    ns = .completed := by
  cases ns <;> cases isFlagged <;> first | rfl | cases h

/-- Every way to `COMPLETED` but an approval asks for the whole squad. -/
theorem membersPassed_of_completed (ok : db.Ok) (hgate : db.ApprovesPassed op)
    (hs : db.submissions[i]? = some sub) (hs' : (db.step op).submissions[i]? = some sub')
    (hne : sub.status ≠ .completed) (hdone : sub'.status = .completed)
    (hquiz : (db.step op).IncludesQuiz i) : (db.step op).MembersPassed i := by
  have h := step_spec db op
  have hev := h.evolves
  have hsub := ok.subs i sub hs
  obtain ⟨asg, hasg⟩ := hsub.assignment
  obtain ⟨block, hblock, hincludes⟩ := hquiz
  have hlatest : db.latestBlock i = some block := by
    rw [← hev.latestBlock hs hasg, ← (hsub.step h ok.closed hs hs').pinnedBlock hs' (by simp [hdone])
      (by simp [hdone]), hblock]
  have hmode := latestMode_of_block hlatest
  have hkeep : db.MembersPassed i → (db.step op).MembersPassed i := hev.membersPassed ok.closed hs
  cases row_step h hs hs' hasg with
  | kept hst => rw [hst] at hdone; exact absurd hdone hne
  | checked _ _ hm =>
    rw [hsub.checkMode hs, hmode, hdone] at hm
    generalize hst : some sub.status = s at hm
    generalize hst' : some SubmissionStatus.completed = s' at hm
    cases hm with
    | stays => rw [← hst'] at hst; exact absurd (Option.some_inj.mp hst) hne
    | refused => cases hst'
    | started => cases hst'
    | testsFailed => cases hst'
    | passed hm =>
      cases hm
      rw [not_includesQuiz_of_afterCheck (Option.some_inj.mp hst').symm] at hincludes
      cases hincludes
  | requeued _ _ _ hst => rw [hst] at hdone; cases hdone
  | granted _ _ _ hst => rw [hst] at hdone; cases hdone
  | moved hm =>
    generalize hst : sub.status = s, hst' : sub'.status = s' at hm
    rw [hst'] at hdone
    have hbefore : db.status i = some s := by rw [status_of_row hs, hst]
    cases hm with
    | aiFailed => cases hdone
    | aiReviewed _ hr =>
      obtain ⟨m, check, rfl, message, hmessage, -, hpayload⟩ := hr
      obtain ⟨_, _, m', -, -, hm', hafter, hns⟩ :=
        ok.messages message (List.mem_of_getElem? hmessage) i _ hpayload
      rw [hmode, Option.some_inj] at hm'
      subst hm'
      rw [afterReview_completed hdone] at hns
      rw [not_includesQuiz_of_nextStep hafter hns.symm] at hincludes
      cases hincludes
    | skipped => cases hdone
    | approved hop hq hc =>
      refine hkeep (hgate i ⟨⟨_, hop⟩, hbefore, hc, hq⟩ ⟨block, ?_, hincludes⟩)
      rw [hsub.pinnedBlock hs (by simp [hst]) (by simp [hst]), hlatest]
    | sentQuiz => cases hdone
    | rejected => cases hdone
    | saved hm => exact hkeep (hsub.handedOver hm hst)
    | passed _ _ hc => exact membersPassed_of_complete hc
    | failed => cases hdone
    | ruled _ _ hc => exact membersPassed_of_complete hc

/-- After any run whose approvals pass the gate, the next such step keeps it. -/
theorem squad_completion_gate {ops : List Op} (hstart : db.Start) (h : Run Db.step Db.ApprovesPassed db ops db')
    (hop : db'.ApprovesPassed op) : db'.GateHolds (db'.step op) := by
  have ok := ok_of_run hstart h
  intro i hne hdone hquiz
  obtain ⟨sub', hs', hst'⟩ := Option.map_eq_some_iff.mp hdone
  cases hs : db'.submissions[i]? with
  | none =>
    have hfresh := (new_submission (step_spec db' op) ok.setup hs hs').fresh
    rw [hst'] at hfresh
    cases hfresh
  | some sub =>
    refine membersPassed_of_completed ok hop hs hs' ?_ hst' hquiz
    rintro hst
    exact hne (by rw [status_of_row hs, hst])

end

/-- A flagged review goes to the teacher, who sends the quiz; every member has one attempt. -/
def flaggedReview : PluginAssignment where
  reviewMode := some .testsThenAiThenQuiz
  quiz := { questions := [{ type := .trueFalse }, { type := .trueFalse }], maxQuizAttempts := some 1 }

def flaggedSquad : Db := oneSubject flaggedReview {} [[0, 1]] [0, 1]

/-- One member passes the quiz and the other fails it for good; the checks are run again. -/
def halfPassed : List Op :=
  [.upload 0 0 true 1 .raises, .processMessage 0 (.tested true 1 1) .providerError,
    .processMessage 1 .raises (.verdict none true), .review 0 .approve "",
    .startQuiz 0 0 {}, .submitQuiz 0 0 (fun _ => true) false,
    .startQuiz 1 1 {}, .submitQuiz 1 1 (fun _ => false) false,
    .rerunChecks 0, .processMessage 2 (.tested true 1 1) .providerError,
    .processMessage 3 .raises (.verdict none true)]

/-- The second approval completes the submission although one member failed the quiz. -/
theorem gate_broken : ¬ ∀ (db db' : Db) (ops : List Op) (op : Op), db.Start →
    Run Db.step Any db ops db' → db'.GateHolds (db'.step op) := by
  intro hall
  have h := hall flaggedSquad _ halfPassed (.review 0 .approve "")
    (oneSubject_start (by decide) (by simp)) (run_foldl halfPassed) 0 (by decide +kernel) (by decide +kernel)
    ⟨flaggedReview, by decide +kernel, by decide⟩
  exact absurd (h { subjectId := 0, members := [0, 1], lockedAt := some 0 } (by decide +kernel) 1
    (by decide +kernel)) (by decide +kernel)

/-- Both members pass a quiz that needs no approval. -/
def bothPass : List Op :=
  [.upload 0 0 true 1 (.tested true 1 1), .startQuiz 0 0 {}, .submitQuiz 0 0 (fun _ => true) false,
    .startQuiz 1 1 {}]

def quizSquad : Db :=
  oneSubject { reviewMode := some .quizOnly, quiz := { questions := [{ type := .trueFalse }, { type := .trueFalse }] } }
    {} [[0, 1]] [0, 1]

theorem bothPass_gate : ((bothPass ++ [Op.submitQuiz 1 1 (fun _ => true) false]).foldl Db.step quizSquad).status 0 =
      some .completed ∧ (bothPass.foldl Db.step quizSquad).GateHolds
        ((bothPass.foldl Db.step quizSquad).step (.submitQuiz 1 1 (fun _ => true) false)) := by
  refine ⟨by decide +kernel, squad_completion_gate (oneSubject_start (by decide) (by simp))
    (run_of_forall bothPass fun op hop db => ?_) ?_⟩
  · rintro i ⟨⟨reason, rfl⟩, -⟩
    simp [bothPass] at hop
  · rintro i ⟨⟨reason, h⟩, -⟩
    cases h

end SubmissionsChecker
