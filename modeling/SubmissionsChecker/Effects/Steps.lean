import SubmissionsChecker.Effects.Decisions
import SubmissionsChecker.Effects.Confined
import SubmissionsChecker.System

/-! One step of the system, said once: what each operation leaves, in the terms of the effects.
A refused request leaves everything. -/

namespace SubmissionsChecker

/-- The requests on attempt `k` that may end it. -/
def Op.IsQuizRequest (op : Op) (k : ℕ) : Prop :=
  (∃ t timedOut expired, op = .showQuiz k t timedOut expired) ∨
  (∃ t index isRight expired, op = .answerQuestion k t index isRight expired) ∨
  (∃ t isRight timedOut, op = .submitQuiz k t isRight timedOut) ∨ (∃ t isFail, op = .reportViolation k t isFail)

/-- The attempt a request ends, with its last answers and the status it ends in. -/
def Db.endedBy (db : Db) : Op → Option (QuizAttempt × QuizAttemptStatus)
  | .showQuiz k t timedOut expired => (db.running k t).bind (·.endedByShow timedOut expired)
  | .answerQuestion k t index isRight expired => (db.running k t).bind (·.endedByAnswer index isRight expired)
  | .submitQuiz k t isRight timedOut => (db.running k t).bind (·.endedBySubmit isRight timedOut)
  | _ => none

/-- Message `m` waits in the outbox with this payload. -/
def Db.MessageAbout (db : Db) (m : ℕ) (payload : OutboxPayload) : Prop :=
  ∃ message, db.outbox[m]? = some message ∧ message.state ≠ .finished ∧ message.payload = payload

/-- What a step of the system leaves. -/
inductive StepSpec (db : Db) : Op → Db → Prop
  | same (op) : StepSpec db op db
  | upload {saId t isZip size check db'} (h : Uploaded db saId check db') :
      StepSpec db (.upload saId t isZip size check) db'
  | check {m i check ai db₁ state} (hm : db.MessageAbout m (.runChecks i)) (h : Checked i check db db₁) :
      StepSpec db (.processMessage m check ai) (db₁.setMessage m ({ · with state := state }))
  | aiReview {m i ns check ai db₁ state} (hm : db.MessageAbout m (.runAiReview i ns))
      (h : Reviewed i ns ai db db₁) :
      StepSpec db (.processMessage m check ai) (db₁.setMessage m ({ · with state := state }))
  | retry {i} (hs : db.status i = some .aiReviewFailed) :
      StepSpec db (.retryAiReview i) (db.addMessage (.runAiReview i (some (nextStepFor
        (((db.submissions[i]?).bind fun sub =>
          (db.assignmentOf sub.studentsAssignmentId).bind (·.config.reviewMode)).getD .testsOnly)))))
  | skip {i} (hs : db.status i = some .aiReviewFailed) :
      StepSpec db (.skipAiReview i) (db.setSubmission i ({ · with status := .awaitingTeacherReview }))
  | review {i action reason db'} (h : Decided db i action db') : StepSpec db (.review i action reason) db'
  | rerun {i db'} (h : Requeued db i db') : StepSpec db (.rerunChecks i) db'
  | start {saId t rnd db'} (h : Started db saId t db') : StepSpec db (.startQuiz saId t rnd) db'
  | quiz {op k db'} (hop : op.IsQuizRequest k) (h : QuizStep db k (db.endedBy op) db') : StepSpec db op db'
  | report {k t q dispute} : StepSpec db (.reportQuestion k t q) { db with disputes := db.disputes ++ [dispute] }
  | ruled {d note dispute c v} (hd : db.disputes[d]? = some dispute) (hopen : dispute.status = .opened)
      (hnote : note ≠ "") (hc : dispute.pluginConfigId = some c) (hv : dispute.pluginConfigVersion = some v) :
      StepSpec db (.resolve d true note) ((db.liftedBy c v dispute.questionId).foldl Db.advanced
        (db.ruledDb d c v dispute.questionId note))
  | closed {d accept note status} :
      StepSpec db (.resolve d accept note) (db.setDispute d ({ · with status := status, teacherNote := some note }))
  | grant {i t studentId db'} (h : Granted db i t db') : StepSpec db (.grantQuizAttempt i studentId) db'
  | scores {subject asgId t form db'} (h : Saved db asgId t db') : StepSpec db (.saveScores subject asgId t form) db'
  | unenroll {subject t} : StepSpec db (.unenroll subject t) (db.unenrollStudent subject t)
  | tick {seconds} : StepSpec db (.tick seconds) { db with now := db.now + seconds }

section

variable {db db' : Db}

theorem processMessage_spec (db : Db) (m : ℕ) (check : CheckResult) (ai : AiResult) :
    StepSpec db (.processMessage m check ai) (db.processMessage m check ai) := by
  unfold Db.processMessage
  split
  · exact .same _
  · rename_i message hmessage
    split_ifs with hfinished
    · exact .same _
    · dsimp only
      cases hpayload : message.payload with
      | runChecks i => exact .check ⟨message, hmessage, hfinished, hpayload⟩ (executeCheck_spec db i check)
      | runAiReview i ns =>
        exact .aiReview ⟨message, hmessage, hfinished, hpayload⟩ (executeAiReview_spec db i ns ai)

theorem resolve_spec {d : ℕ} {accept : Bool} {note : String} (h : db.resolve d accept note = .ok db') :
    StepSpec db (.resolve d accept note) db' := by
  unfold Db.resolve at h
  split at h
  · cases h
  · rename_i dispute hd
    split_ifs at h with hnote hopen
    by_cases hpin : accept = false ∨ dispute.pluginConfigId = none ∨ dispute.pluginConfigVersion = none
    · rw [resolveDispute_other hd hpin] at h
      cases h
      exact .closed
    · simp only [not_or, Bool.not_eq_false] at hpin
      obtain ⟨rfl, hc, hv⟩ := hpin
      obtain ⟨c, hc⟩ := Option.ne_none_iff_exists'.mp hc
      obtain ⟨v, hv⟩ := Option.ne_none_iff_exists'.mp hv
      rw [resolveDispute_accept hd hc hv] at h
      cases h
      exact .ruled hd (not_not.mp hopen) hnote hc hv

theorem reportQuestion_spec {k t q : ℕ} (h : db.reportQuestion k t q = .ok db') :
    StepSpec db (.reportQuestion k t q) db' := by
  obtain ⟨a, -, h⟩ := bind_ok h
  split_ifs at h
  cases h
  exact .report

/-- Every step does what `StepSpec` says. -/
theorem step_spec (db : Db) (op : Op) : StepSpec db op (db.step op) := by
  unfold Db.step
  cases hreq : db.request op with
  | error e => exact .same op
  | ok db' =>
    dsimp only
    cases op with
    | upload => exact .upload (submitAssignment_spec hreq)
    | processMessage m check ai =>
      cases hreq
      exact processMessage_spec db m check ai
    | retryAiReview i =>
      obtain ⟨hs, rfl⟩ := retryAiReview_spec hreq
      exact .retry hs
    | skipAiReview i =>
      obtain ⟨hs, rfl⟩ := skipAiReview_spec hreq
      exact .skip hs
    | review => exact .review (reviewSubmission_spec hreq)
    | rerunChecks => exact .rerun (requeueChecks_spec hreq)
    | startQuiz => exact .start (startOrResumeQuiz_spec hreq)
    | showQuiz => exact .quiz (.inl ⟨_, _, _, rfl⟩) (showQuiz_step hreq)
    | answerQuestion => exact .quiz (.inr (.inl ⟨_, _, _, _, rfl⟩)) (answerQuestion_step hreq)
    | submitQuiz => exact .quiz (.inr (.inr (.inl ⟨_, _, _, rfl⟩))) (submitQuiz_step hreq)
    | reportViolation => exact .quiz (.inr (.inr (.inr ⟨_, _, rfl⟩))) (reportViolation_step hreq)
    | reportQuestion => exact reportQuestion_spec hreq
    | resolve => exact resolve_spec hreq
    | grantQuizAttempt =>
      obtain ⟨t, hg⟩ := grantQuizAttempt_spec hreq
      exact .grant hg
    | saveScores => exact .scores (saveScores_spec hreq)
    | unenroll => cases hreq; exact .unenroll
    | tick => cases hreq; exact .tick

end

/-! Every step keeps what `Evolves` names -/

section

variable {db db' : Db}

theorem attemptKeeps_edited {a a₁ : QuizAttempt} (hrun : a.status = .inProgress) (he : Edited a a₁) :
    AttemptKeeps a a₁ := by
  have hst : a₁.status = a.status := by rw [he]
  have hp : a₁.passed = a.passed := by rw [he]; rfl
  have hopen : a.status.isTerminal = false := by rw [hrun]; rfl
  refine ⟨by rw [he]; rfl, fun _ => hst, fun ht => ?_, fun hc h => ?_⟩
  · rw [hopen] at ht; cases ht
  · rw [hst]; exact hc (hp ▸ h)

theorem attemptKeeps_finished {a a₁ : QuizAttempt} {st : QuizAttemptStatus} (db : Db)
    (hrun : a.status = .inProgress) (he : Edited a a₁) (hst : st.isTerminal = true) :
    AttemptKeeps a (db.finishedAttempt a₁ st) := by
  have hopen : a.status.isTerminal = false := by rw [hrun]; rfl
  have hterm : (db.finishedAttempt a₁ st).status.isTerminal = true := by
    unfold Db.finishedAttempt
    dsimp only
    split_ifs
    · rfl
    · exact hst
  refine ⟨?_, fun ht => ?_, fun ht => ?_, fun _ _ => hterm⟩
  · have : (db.finishedAttempt a₁ st).origin = a₁.origin := rfl
    rw [this, he]
    rfl
  · rw [hopen] at ht; cases ht
  · rw [hopen] at ht; cases ht

theorem attemptKeeps_regrade {a : QuizAttempt} {c v q : ℕ} (h : a.isCandidate c v q = true) :
    AttemptKeeps a (a.regrade q) := by
  have hterm : a.status.isTerminal = true := by
    unfold QuizAttempt.isCandidate at h
    simp only [Bool.and_eq_true, Bool.or_eq_true, beq_iff_eq] at h
    rcases h.1.1.2 with hs | hs <;> rw [hs] <;> rfl
  refine ⟨rfl, fun _ => rfl, fun _ hp => ?_, fun _ _ => hterm⟩
  rw [isCandidate_not_passed h] at hp
  cases hp

theorem QuizStep.evolves {k : ℕ} {ends : Option (QuizAttempt × QuizAttemptStatus)}
    (h : QuizStep db k ends db') : Evolves db db' := by
  cases h with
  | same => exact .refl db
  | @edited a a₁ ha hrun he =>
    refine evolves_setAttempt fun b hb => ?_
    rw [ha] at hb
    cases hb
    exact attemptKeeps_edited hrun he
  | @finished a a₁ st _ ha hrun he hst _ hfin =>
    refine (evolves_setAttempt fun b hb => ?_).trans hfin.within.evolves
    rw [ha] at hb
    cases hb
    exact attemptKeeps_finished db hrun he hst

theorem Starts.evolves {i t : ℕ} (h : Starts db i t db') : Evolves db db' := by
  cases h with
  | same => exact .refl db
  | attempt hd =>
    refine Evolves.trans ?_ (evolves_addAttempt _ _)
    rcases hd with rfl | ⟨draw, rfl⟩
    · exact .refl _
    · exact evolves_setSubmission db i fun _ => rfl

theorem Adds.evolves {saId : ℕ} {sub : Submission} (h : Adds db saId sub db') :
    Evolves db (db'.addSubmission sub) := h.within.evolves.trans (evolves_addSubmission _ _)

theorem Opened.evolves {saId i : ℕ} (h : Opened db saId db' i) : Evolves db db' := by
  cases h with
  | reused => exact (within_latestSubmission .grades db saId).evolves
  | opened ha => exact ha.evolves.trans (evolves_setSubmission _ _ fun _ => rfl)

theorem Started.evolves {saId t : ℕ} (h : Started db saId t db') : Evolves db db' := by
  have hl := (within_latestSubmission .grades db saId).evolves
  cases h with
  | looked => exact hl
  | latest hs => exact hl.trans hs.evolves
  | opened ho hs => exact (hl.trans ho.evolves).trans hs.evolves

theorem Uploaded.evolves {saId : ℕ} {check : CheckResult} (h : Uploaded db saId check db') : Evolves db db' := by
  cases h with
  | queued ha => exact ha.evolves.trans (within_addMessage _ db.submissions.length _).evolves
  | checked ha _ _ _ hc => exact ha.evolves.trans hc.finalizes.within.evolves

theorem Decided.evolves {i : ℕ} {action : ReviewAction} (h : Decided db i action db') : Evolves db db' := by
  cases h with
  | approved => exact Evolves.before_set (within_finalizeGrade _ i).evolves fun _ => rfl
  | sentQuiz => exact evolves_setSubmission db i fun _ => rfl
  | rejected => exact Evolves.before_set (evolves_setSubmission _ i fun _ => rfl) fun _ => rfl

theorem Requeued.evolves {i : ℕ} (h : Requeued db i db') : Evolves db db' := by
  cases h with
  | mk =>
    exact Evolves.before_set (Evolves.before_set (within_addMessage _ i _).evolves fun _ => rfl) fun _ => rfl

theorem Granted.evolves {i t : ℕ} (h : Granted db i t db') : Evolves db db' := by
  cases h with
  | mk => exact Evolves.before_set (evolves_setSubmission _ i fun _ => rfl) fun _ => rfl

theorem Saved.evolves {asgId t : ℕ} (h : Saved db asgId t db') : Evolves db db' := by
  cases h with
  | written w => exact w.evolves
  | completed w =>
    exact w.evolves.trans (Evolves.before_set (within_finalizeGrade _ _).evolves fun _ => rfl)
  | regraded w => exact w.evolves.trans (within_finalizeGrade _ _).evolves

theorem evolves_ruledDb (db : Db) (d c v q : ℕ) (note : String) : Evolves db (db.ruledDb d c v q note) := by
  have hover : ∀ e : Db, Evolves e (e.addOverride c v q) := by
    intro e
    unfold Db.addOverride
    split_ifs
    · exact .refl e
    · exact { Evolves.refl e with }
  have hdisputes : Evolves db (db.setDispute d ({ · with status := .accepted, teacherNote := some note })) :=
    { Evolves.refl db with }
  have hsiblings : ∀ e : Db, Evolves e (e.closeSiblings c v q note) := fun e => { Evolves.refl e with }
  have hregrade : ∀ e : Db, Evolves e (e.regradeQuestion c v q).1 := fun e =>
    { Evolves.refl e with
      attempts := fun k a ha => by
        refine ⟨if a.isCandidate c v q then a.regrade q else a, ?_, ?_⟩
        · simp only [Db.regradeQuestion, List.getElem?_map, ha, Option.map_some]
        · split_ifs with hcand
          · exact attemptKeeps_regrade hcand
          · exact .refl a }
  exact ((hdisputes.trans (hover _)).trans (hsiblings _)).trans (hregrade _)

theorem StepSpec.evolves {op : Op} (h : StepSpec db op db') : Evolves db db' := by
  cases h with
  | same => exact .refl db
  | upload h => exact h.evolves
  | check _ h => exact h.finalizes.within.evolves.trans { Evolves.refl _ with }
  | aiReview _ h => exact h.finalizes.within.evolves.trans { Evolves.refl _ with }
  | @retry i => exact (within_addMessage db i _).evolves
  | skip => exact evolves_setSubmission db _ fun _ => rfl
  | review h => exact h.evolves
  | rerun h => exact h.evolves
  | start h => exact h.evolves
  | quiz _ h => exact h.evolves
  | report => exact { Evolves.refl db with }
  | ruled => exact (evolves_ruledDb db _ _ _ _ _).trans (within_advancedAll _ _).evolves
  | closed => exact { Evolves.refl db with }
  | grant h => exact h.evolves
  | scores h => exact h.evolves
  | unenroll => exact { Evolves.refl db with enrolled := Finset.erase_subset _ _ }
  | tick => exact { Evolves.refl db with now := Nat.le_add_right _ _ }

theorem evolves_step (db : Db) (op : Op) : Evolves db (db.step op) := (step_spec db op).evolves

end

end SubmissionsChecker
