import SubmissionsChecker.Effects.Steps

/-! How a step moves the status of a submission, and whose passes it adds. -/

namespace SubmissionsChecker

section

variable {db db' : Db} {i j k : ℕ}

theorem status_finalizeGrade (db : Db) (i j : ℕ) : (db.finalizeGrade i).status j = db.status j :=
  (within_finalizeGrade db i).status_grades j

theorem status_setStatus {s next : SubmissionStatus} (h : db.status i = some s) :
    (db.setSubmission i ({ · with status := next })).status j = if i = j then some next else db.status j := by
  split_ifs with hij
  · rw [← hij]; exact status_setSubmission_status h
  · exact status_setSubmission_ne _ hij

/-! Rulings -/

/-- What advancing one attempt does to the statuses: a complete quiz leaves `QUIZ_SENT` and
`FAILED`, everything else stays. -/
theorem status_advanced (db : Db) (k i : ℕ) : (db.advanced k).status i =
    match db.quizAttempts[k]? with
    | none => db.status i
    | some a =>
      if a.submissionId = i ∧ (db.status i = some .quizSent ∨ db.status i = some .failed) ∧
          db.quizComplete i = true then
        if db.goesToTeacher i a.configSnapshot.reviewMode then some .awaitingTeacherReview else some .completed
      else db.status i := by
  unfold Db.advanced
  cases db.quizAttempts[k]? with
  | none => rfl
  | some a =>
    dsimp only
    by_cases hopen : db.status a.submissionId = some .quizSent ∨ db.status a.submissionId = some .failed
    · obtain ⟨s, hs⟩ : ∃ s, db.status a.submissionId = some s := by
        rcases hopen with h | h <;> exact ⟨_, h⟩
      rw [if_pos hopen]
      by_cases hc : db.quizComplete a.submissionId = true
      · rw [if_pos hc]
        by_cases hi : a.submissionId = i
        · subst hi
          simp only [hopen, hc, and_self, if_true]
          split_ifs
          · rw [status_setStatus hs, if_pos rfl]
          · rw [status_finalizeGrade, status_setStatus hs, if_pos rfl]
        · simp only [hi, false_and, if_false]
          split_ifs
          · rw [status_setStatus hs, if_neg hi]
          · rw [status_finalizeGrade, status_setStatus hs, if_neg hi]
      · rw [if_neg hc, if_neg]
        rintro ⟨rfl, -, h⟩
        exact hc h
    · have hno : ¬ (a.submissionId = i ∧ (db.status i = some .quizSent ∨ db.status i = some .failed) ∧
          db.quizComplete i = true) := by
        rintro ⟨rfl, h, -⟩
        exact hopen h
      rw [if_neg hopen]
      simp only [hno, if_false]
      by_cases hdone : db.status a.submissionId = some .completed
      · rw [if_pos hdone, status_finalizeGrade]
      · rw [if_neg hdone]

/-- Statuses other than these two are not moved by a ruling. -/
theorem status_advanced_kept (h : db.status i ≠ some .quizSent) (h' : db.status i ≠ some .failed) :
    (db.advanced k).status i = db.status i := by
  rw [status_advanced]
  split
  · rfl
  · rw [if_neg]
    rintro ⟨-, hs | hs, -⟩
    · exact h hs
    · exact h' hs

theorem status_advanced_quizSent (h : (db.advanced k).status i = some .quizSent) :
    db.status i = some .quizSent := by
  rw [status_advanced] at h
  split at h
  · exact h
  · split_ifs at h with hc ht
    · cases h
    · cases h
    · exact h

theorem status_advancedAll_kept (ks : List ℕ) : ∀ db : Db, db.status i ≠ some .quizSent →
    db.status i ≠ some .failed → (ks.foldl Db.advanced db).status i = db.status i := by
  induction ks with
  | nil => exact fun _ _ _ => rfl
  | cons k ks ih =>
    intro db h h'
    have hk := status_advanced_kept (k := k) h h'
    rw [List.foldl_cons, ih _ (by rwa [hk]) (by rwa [hk]), hk]

theorem status_advancedAll_quizSent (ks : List ℕ) : ∀ db : Db,
    (ks.foldl Db.advanced db).status i = some .quizSent → db.status i = some .quizSent := by
  induction ks with
  | nil => exact fun _ h => h
  | cons k ks ih => exact fun db h => status_advanced_quizSent (ih _ h)

/-- A submission whose attempt was lifted is not left at a complete quiz. -/
theorem settled_advancedAll {a : QuizAttempt} (ks : List ℕ) : ∀ db : Db, k ∈ ks →
    db.quizAttempts[k]? = some a → a.submissionId = i →
    (ks.foldl Db.advanced db).status i = some .quizSent → db.quizComplete i = false := by
  induction ks with
  | nil => intro db hk; cases hk
  | cons k' ks ih =>
    intro db hk ha hi hst
    have hw := within_advanced db k'
    rcases List.mem_cons.mp hk with rfl | hk
    · have hsent := status_advancedAll_quizSent ks _ hst
      have hbefore := status_advanced_quizSent hsent
      rw [status_advanced, ha] at hsent
      dsimp only at hsent
      by_contra hc
      rw [if_pos ⟨hi, .inl hbefore, by simpa using hc⟩] at hsent
      split_ifs at hsent <;> cases hsent
    · rw [← hw.quizComplete]
      exact ih _ hk (by rw [hw.quizAttempts]; exact ha) hi hst

/-- A status that a ruling moves: a lifted attempt made the quiz complete. -/
theorem moved_advancedAll {s s' : SubmissionStatus} (ks : List ℕ) : ∀ db : Db, db.status i = some s →
    (ks.foldl Db.advanced db).status i = some s' → s ≠ s' →
    (s = .quizSent ∨ s = .failed) ∧ db.quizComplete i = true ∧
      ∃ k ∈ ks, ∃ a, db.quizAttempts[k]? = some a ∧ a.submissionId = i ∧
        ∃ dbm, Within .statuses db dbm ∧
          s' = if dbm.goesToTeacher i a.configSnapshot.reviewMode then .awaitingTeacherReview else .completed := by
  induction ks with
  | nil =>
    intro db hs hs' hne
    rw [List.foldl_nil, hs] at hs'
    exact absurd (Option.some_inj.mp hs') hne
  | cons k ks ih =>
    intro db hs hs' hne
    rw [List.foldl_cons] at hs'
    have hw := within_advanced db k
    by_cases hstay : (db.advanced k).status i = some s
    · obtain ⟨hfs, hc, k', hk', a, ha, hi, dbm, hdbm, heq⟩ := ih _ hstay hs' hne
      refine ⟨hfs, by rw [← hw.quizComplete]; exact hc, k', List.mem_cons_of_mem _ hk', a, ?_, hi, dbm,
        hw.trans hdbm, heq⟩
      rw [← hw.quizAttempts]; exact ha
    · have hmoved := status_advanced db k i
      cases ha : db.quizAttempts[k]? with
      | none => rw [ha] at hmoved; exact absurd (hmoved.trans hs) hstay
      | some a =>
        rw [ha] at hmoved
        dsimp only at hmoved
        by_cases hcond : a.submissionId = i ∧ (db.status i = some .quizSent ∨ db.status i = some .failed) ∧
            db.quizComplete i = true
        · rw [if_pos hcond] at hmoved
          have hrest : (ks.foldl Db.advanced (db.advanced k)).status i = (db.advanced k).status i := by
            refine status_advancedAll_kept ks _ ?_ ?_ <;> rw [hmoved] <;> split_ifs <;> simp
          rw [hrest, hmoved] at hs'
          obtain ⟨hi, hopen, hc⟩ := hcond
          rw [hs, Option.some_inj, Option.some_inj] at hopen
          refine ⟨hopen, hc, k, List.mem_cons_self, a, ha, hi, db, .refl _ db, ?_⟩
          split_ifs at hs' ⊢ <;> exact (Option.some_inj.mp hs').symm
        · rw [if_neg hcond] at hmoved
          exact absurd (hmoved.trans hs) hstay

end

/-! What a step does to a submission that exists -/

/-- The request accepts an open report on question `q` of config version (`c`, `v`). -/
def Db.Accepts (db : Db) (op : Op) (c v q : ℕ) : Prop :=
  ∃ d note dispute, op = .resolve d true note ∧ note ≠ "" ∧ db.disputes[d]? = some dispute ∧
    dispute.status = .opened ∧ dispute.pluginConfigId = some c ∧ dispute.pluginConfigVersion = some v ∧
    dispute.questionId = q

/-- The ruling lifts attempt `a`, on submission `i`, to a pass. -/
def Db.Lifts (db : Db) (op : Op) (i : ℕ) (a : QuizAttempt) : Prop :=
  ∃ c v q k, db.Accepts op c v q ∧ k ∈ db.liftedBy c v q ∧ db.quizAttempts[k]? = some a ∧ a.submissionId = i

/-- The outbox message runs a check of submission `i`. -/
def Db.RunsCheck (db : Db) (op : Op) (i : ℕ) (check : CheckResult) : Prop :=
  ∃ m ai, op = .processMessage m check ai ∧ db.MessageAbout m (.runChecks i)

/-- The outbox message runs an AI review of submission `i`. -/
def Db.RunsAiReview (db : Db) (op : Op) (i : ℕ) (ns : Option NextStep) (ai : AiResult) : Prop :=
  ∃ m check, op = .processMessage m check ai ∧ db.MessageAbout m (.runAiReview i ns)

/-- The request ends attempt `k`, on submission `i`, as `a`. -/
def Db.Ends (db : Db) (op : Op) (i k : ℕ) (a : QuizAttempt) (st : QuizAttemptStatus) : Prop :=
  db.endedBy op = some (a, st) ∧ a.submissionId = i ∧
    ∃ a₀, db.quizAttempts[k]? = some a₀ ∧ a₀.status = .inProgress ∧ Edited a₀ a ∧ st.isTerminal = true

/-- The ways a step moves submission `i` from status `s` to `s'` without touching its pin. -/
inductive Move (db : Db) (op : Op) (db' : Db) (i : ℕ) : SubmissionStatus → SubmissionStatus → Prop
  | aiFailed {s} (hs : s.isAi = true) : Move db op db' i s .aiReviewFailed
  | aiReviewed {s ns codeMark isFlagged} (hs : s.isAi = true)
      (hr : db.RunsAiReview op i ns (.verdict codeMark isFlagged)) :
      Move db op db' i s ((ns.getD .completed).afterReview isFlagged)
  | skipped : Move db op db' i .aiReviewFailed .awaitingTeacherReview
  | approved {reason} (hop : op = .review i .approve reason) (hq : db.hasQuiz i = true → db.quizPassed i = true)
      (hc : db.isScoredSubmission i = true → db.scoresCompleteFor i = true) :
      Move db op db' i .awaitingTeacherReview .completed
  | sentQuiz {reason} (hop : op = .review i .approve reason) (hp : db.quizPassed i = false) :
      Move db op db' i .awaitingTeacherReview .quizSent
  | rejected {reason} (hop : op = .review i .reject reason) (hm : db.isScoredSubmission i = false) :
      Move db op db' i .awaitingTeacherReview .failed
  | saved (hm : db.isScoredSubmission i = true) : Move db op db' i .awaitingTeacherReview .completed
  | passed {k a st s'} (he : db.Ends op i k a st) (hp : (db.finishedAttempt a st).passed = true)
      (hc : db'.quizComplete i = true) (hs' : s' = if db.goesToTeacher i a.configSnapshot.reviewMode then
        .awaitingTeacherReview else .completed) : Move db op db' i .quizSent s'
  | failed {k a st} (he : db.Ends op i k a st) (hp : (db.finishedAttempt a st).passed = false)
      (hu : (db.setAttempt k fun _ => db.finishedAttempt a st).UsesUp (db.finishedAttempt a st) k i) :
      Move db op db' i .quizSent .failed
  | ruled {s s' a} (hs : s = .quizSent ∨ s = .failed) (hl : db.Lifts op i a) (hc : db'.quizComplete i = true)
      (hs' : s' = .awaitingTeacherReview ∨ s' = .completed)
      (hm : db.isScoredSubmission i = false → s' = if a.configSnapshot.reviewMode == some .quizThenTeacher then
        .awaitingTeacherReview else .completed) : Move db op db' i s s'

/-- How a step changes the row of submission `i` from `sub` to `sub'`. -/
inductive RowStep (db : Db) (op : Op) (db' : Db) (i : ℕ) (sub sub' : Submission) : Prop
  | kept (hs : sub'.status = sub.status) (hp : sub'.pluginConfigId = sub.pluginConfigId)
      (hx : sub'.quizExtraAttempts = sub.quizExtraAttempts)
  | checked {check} (hr : db.RunsCheck op i check)
      (hp : ∀ asg, db.assignmentOf sub.studentsAssignmentId = some asg →
        sub'.pluginConfigId = sub.pluginConfigId.or (db.latestConfig asg.subjectId))
      (hm : CheckMove check (db.checkMode i) (some sub.status) (some sub'.status))
      (hx : sub'.quizExtraAttempts = sub.quizExtraAttempts)
  | requeued (hop : op = .rerunChecks i) (hr : sub.status.requeueable = true) (ht : sub.sourceType ≠ .quizOnly)
      (hs : sub'.status = .pending) (hp : sub'.pluginConfigId = none)
      (hx : sub'.quizExtraAttempts = sub.quizExtraAttempts)
  | granted {t studentId} (hop : op = .grantQuizAttempt i studentId) (ht : t ∈ db.studentsOn i)
      (hg : db.isGrantable i t (db.baseMaxAttempts i) = true) (hs : sub'.status = .quizSent)
      (hp : sub'.pluginConfigId = sub.pluginConfigId)
  | moved (hm : Move db op db' i sub.status sub'.status) (hp : sub'.pluginConfigId = sub.pluginConfigId)
      (hx : sub'.quizExtraAttempts = sub.quizExtraAttempts)

/-- Every submission keeps its status, its pin and the extra attempts. -/
def SubsKeep (db db' : Db) : Prop := ∀ (i : ℕ) sub, db.submissions[i]? = some sub →
  ∃ sub', db'.submissions[i]? = some sub' ∧ sub'.status = sub.status ∧
    sub'.pluginConfigId = sub.pluginConfigId ∧ sub'.quizExtraAttempts = sub.quizExtraAttempts

namespace SubsKeep

variable {db db₁ db₂ : Db}

theorem same (h : db₁.submissions = db.submissions) : SubsKeep db db₁ :=
  fun _ sub hs => ⟨sub, by rw [h, hs], rfl, rfl, rfl⟩

theorem trans (h₁ : SubsKeep db db₁) (h₂ : SubsKeep db₁ db₂) : SubsKeep db db₂ := by
  intro i sub hs
  obtain ⟨sub₁, hs₁, hst₁, hp₁, hx₁⟩ := h₁ i sub hs
  obtain ⟨sub₂, hs₂, hst₂, hp₂, hx₂⟩ := h₂ i sub₁ hs₁
  exact ⟨sub₂, hs₂, hst₂.trans hst₁, hp₂.trans hp₁, hx₂.trans hx₁⟩

theorem rowStep {op : Op} {i : ℕ} {sub sub' : Submission} (h : SubsKeep db db₁)
    (hs : db.submissions[i]? = some sub) (hs' : db₁.submissions[i]? = some sub') :
    RowStep db op db₁ i sub sub' := by
  obtain ⟨sub₁, hs₁, hst, hp, hx⟩ := h i sub hs
  rw [hs'] at hs₁
  cases hs₁
  exact .kept hst hp hx

end SubsKeep

/-- A step that leaves the submissions alone. -/
theorem rowStep_same {db db' : Db} {op : Op} {i : ℕ} {sub sub' : Submission}
    (h : db'.submissions = db.submissions) (hs : db.submissions[i]? = some sub)
    (hs' : db'.submissions[i]? = some sub') : RowStep db op db' i sub sub' :=
  (SubsKeep.same h).rowStep hs hs'

section

variable {db db' : Db} {op : Op} {i j : ℕ} {sub sub' : Submission}

/-- Under any scope a submission keeps its extra attempts, and beyond a task its pin. -/
theorem Within.row {scope : Scope} (h : Within scope db db') (hs : db.submissions[i]? = some sub)
    (hs' : db'.submissions[i]? = some sub') : sub'.quizExtraAttempts = sub.quizExtraAttempts ∧
      (scope.isTask = false → sub'.pluginConfigId = sub.pluginConfigId) := by
  have hx := h.map_sub (·.quizExtraAttempts) i (by simp)
  refine ⟨by simpa [hs, hs'] using hx, fun ht => ?_⟩
  have hp := h.map_sub (·.pluginConfigId) i (by
    intro s
    cases scope with
    | task => cases ht
    | status => simp only [Scope.keep]; split_ifs <;> rfl
    | _ => rfl)
  simpa [hs, hs'] using hp

theorem Within.subsKeep (h : Within .grades db db') : SubsKeep db db' := by
  intro i sub hs
  obtain ⟨sub', hs', -⟩ := h.sub hs
  obtain ⟨hx, hp⟩ := h.row hs hs'
  have hst := h.status_grades i
  rw [Db.status, Db.status, hs, hs', Option.map_some, Option.map_some, Option.some_inj] at hst
  exact ⟨sub', hs', hst, hp rfl, hx⟩

theorem subsKeep_addSubmission (db : Db) (sub : Submission) : SubsKeep db (db.addSubmission sub) := by
  intro i s hs
  refine ⟨s, ?_, rfl, rfl, rfl⟩
  rw [addSubmission_submissions]
  exact Table.getElem?_append_old hs

theorem subsKeep_setSubmission (db : Db) {f : Submission → Submission}
    (hf : ∀ s, db.submissions[j]? = some s → (f s).status = s.status ∧ (f s).pluginConfigId = s.pluginConfigId ∧
      (f s).quizExtraAttempts = s.quizExtraAttempts) : SubsKeep db (db.setSubmission j f) := by
  intro i s hs
  refine ⟨if j = i then f s else s, ?_, ?_⟩
  · rw [Db.setSubmission_submissions, List.getElem?_modify, hs]
    split_ifs <;> rfl
  · split_ifs with hj
    · exact hf s (hj ▸ hs)
    · exact ⟨rfl, rfl, rfl⟩

/-- What is about submission `j` alone keeps the others. -/
theorem Within.row_ne (h : Within (.task j) db db') (hij : i ≠ j) (hs : db.submissions[i]? = some sub)
    (hs' : db'.submissions[i]? = some sub') : sub'.status = sub.status ∧
      sub'.pluginConfigId = sub.pluginConfigId ∧ sub'.quizExtraAttempts = sub.quizExtraAttempts := by
  have hst := h.status_ne hij
  rw [Db.status, Db.status, hs, hs', Option.map_some, Option.map_some, Option.some_inj] at hst
  have hp := h.map_sub (·.pluginConfigId) i fun s => by simp [Scope.keep, hij]
  exact ⟨hst, by simpa [hs, hs'] using hp, (h.row hs hs').1⟩

theorem status_of_row (hs : db.submissions[i]? = some sub) : db.status i = some sub.status := by
  rw [Db.status, hs, Option.map_some]

/-- The quiz of a ruled database, in the terms of the database before. -/
theorem Evolves.isScored {asg : SubjectsAssignment} (h : Evolves db db') (hs : db.submissions[i]? = some sub)
    (hasg : db.assignmentOf sub.studentsAssignmentId = some asg) :
    db'.isScoredSubmission i = db.isScoredSubmission i := by
  obtain ⟨sub', hs', ho⟩ := h.subs i sub hs
  have hsa : sub'.studentsAssignmentId = sub.studentsAssignmentId := congrArg Prod.fst ho
  rw [isScoredSubmission_eq hs hasg]
  unfold Db.assignmentOf at hasg
  obtain ⟨row, hrow, hasg⟩ := Option.bind_eq_some_iff.mp hasg
  obtain ⟨row', hrow', -, hrowasg⟩ := h.rows _ row hrow
  refine isScoredSubmission_eq hs' ?_
  rw [Db.assignmentOf, hsa, hrow', Option.bind_some, hrowasg, h.subjectsAssignments]
  exact hasg

theorem QuizStep.rowStep {k : ℕ} (h : QuizStep db k (db.endedBy op) db') (hs : db.submissions[i]? = some sub)
    (hs' : db'.submissions[i]? = some sub') : RowStep db op db' i sub sub' := by
  cases h with
  | same => exact rowStep_same rfl hs hs'
  | edited => exact rowStep_same rfl hs hs'
  | @finished a₀ a st _ ha hrun he hst hends hfin =>
    have hw := hfin.within
    rw [finishedAttempt_submissionId] at hw
    by_cases hi : i = a.submissionId
    · subst hi
      have hold : (db.setAttempt k fun _ => db.finishedAttempt a st).submissions[a.submissionId]? = some sub := hs
      obtain ⟨hx, hp⟩ := hw.row hold hs'
      have hEnds : db.Ends op a.submissionId k a st := ⟨hends, rfl, a₀, ha, hrun, he, hst⟩
      replace hold : (db.setAttempt k fun _ => db.finishedAttempt a st).status a.submissionId = some sub.status :=
        status_of_row hold
      have hnew := status_of_row hs'
      cases hfin with
      | left => rw [hold, Option.some_inj] at hnew; exact .kept hnew.symm (hp rfl) hx
      | completed hsent hpass hc ht =>
        rw [finishedAttempt_submissionId] at hsent hc ht hnew
        rw [status_finalizeGrade, status_setStatus hsent, if_pos rfl, Option.some_inj] at hnew
        rw [hold, Option.some_inj] at hsent
        refine .moved ?_ (hp rfl) hx
        rw [hsent, ← hnew]
        exact .passed hEnds hpass (by rw [hw.quizComplete]; exact hc) (by rw [if_neg]; rw [Bool.not_eq_true]; exact ht)
      | toTeacher hsent hpass hc ht =>
        rw [finishedAttempt_submissionId] at hsent hc ht hnew
        rw [status_setStatus hsent, if_pos rfl, Option.some_inj] at hnew
        rw [hold, Option.some_inj] at hsent
        refine .moved ?_ (hp rfl) hx
        rw [hsent, ← hnew]
        exact .passed hEnds hpass (by rw [hw.quizComplete]; exact hc) (by rw [if_pos]; exact ht)
      | failed hsent hpass hu =>
        rw [finishedAttempt_submissionId] at hsent hu hnew
        rw [status_setStatus hsent, if_pos rfl, Option.some_inj] at hnew
        rw [hold, Option.some_inj] at hsent
        refine .moved ?_ (hp rfl) hx
        rw [hsent, ← hnew]
        exact .failed hEnds hpass hu
    · have hold : (db.setAttempt k fun _ => db.finishedAttempt a st).submissions[i]? = some sub := hs
      obtain ⟨hst, hp, hx⟩ := (hw.mono (.statusTask _)).row_ne hi hold hs'
      exact .kept hst hp hx

theorem Starts.subsKeep {t : ℕ} (h : Starts db j t db') : SubsKeep db db' := by
  cases h with
  | same => exact .same rfl
  | @attempt db₁ a hd ha =>
    have hadd : SubsKeep db₁ { db₁ with quizAttempts := db₁.quizAttempts ++ [a] } := .same rfl
    rcases hd with rfl | ⟨draw, rfl⟩
    · exact hadd
    · have hset : SubsKeep db (db.setSubmission j ({ · with squadQuizDraw := some draw })) :=
        subsKeep_setSubmission db fun _ _ => ⟨rfl, rfl, rfl⟩
      exact hset.trans hadd

/-- A new submission leaves the others alone, also when its own row is changed after. -/
theorem Adds.subsKeep {saId : ℕ} {new : Submission} {db₁ : Db} (h : Adds db saId new db₁) :
    SubsKeep db (db₁.addSubmission new) :=
  h.within.subsKeep.trans (subsKeep_addSubmission _ _)

theorem Opened.subsKeep {saId : ℕ} (h : Opened db saId db' j) : SubsKeep db db' := by
  cases h with
  | reused => exact (within_latestSubmission .grades db saId).subsKeep
  | @opened new db₁ ha =>
    intro i sub hs
    obtain ⟨sub', hs', hkeep⟩ := ha.subsKeep i sub hs
    refine ⟨sub', ?_, hkeep⟩
    have hi : i < db.submissions.length := (List.getElem?_eq_some_iff.mp hs).1
    rw [Db.setSubmission_submissions, Table.getElem?_modify_ne _ (by omega), hs']

theorem Started.subsKeep {saId t : ℕ} (h : Started db saId t db') : SubsKeep db db' := by
  have hl := (within_latestSubmission .grades db saId).subsKeep
  cases h with
  | looked => exact hl
  | latest hs => exact hl.trans hs.subsKeep
  | opened ho hs => exact (hl.trans ho.subsKeep).trans hs.subsKeep

theorem Uploaded.subsKeep {saId : ℕ} {check : CheckResult} (h : Uploaded db saId check db') :
    SubsKeep db db' := by
  cases h with
  | queued ha => exact ha.subsKeep.trans (.same rfl)
  | checked ha _ _ _ hc =>
    intro i sub hs
    obtain ⟨sub₁, hs₁, hst, hp, hx⟩ := ha.subsKeep i sub hs
    obtain ⟨sub', hs', -⟩ := hc.finalizes.within.sub hs₁
    have hi : i < db.submissions.length := (List.getElem?_eq_some_iff.mp hs).1
    obtain ⟨hst', hp', hx'⟩ := hc.finalizes.within.row_ne (by omega) hs₁ hs'
    exact ⟨sub', hs', hst'.trans hst, hp'.trans hp, hx'.trans hx⟩

theorem Checked.rowStep {m : ℕ} {check : CheckResult} {ai : AiResult} {db₁ : Db}
    (hm : db.MessageAbout m (.runChecks j)) (h : Checked j check db db₁) (hsame : db'.submissions = db₁.submissions)
    (hs : db.submissions[i]? = some sub) (hs' : db'.submissions[i]? = some sub') :
    RowStep db (.processMessage m check ai) db' i sub sub' := by
  rw [hsame] at hs'
  by_cases hi : i = j
  · subst hi
    have hmove := h.move
    rw [status_of_row hs, status_of_row hs'] at hmove
    exact .checked ⟨m, ai, rfl, hm⟩ (fun asg hasg => h.pin sub sub' asg hs hasg hs') hmove
      (h.finalizes.within.row hs hs').1
  · obtain ⟨hst, hp, hx⟩ := h.finalizes.within.row_ne hi hs hs'
    exact .kept hst hp hx

theorem Reviewed.rowStep {m : ℕ} {check : CheckResult} {ns : Option NextStep} {ai : AiResult} {db₁ : Db}
    (hm : db.MessageAbout m (.runAiReview j ns)) (h : Reviewed j ns ai db db₁)
    (hsame : db'.submissions = db₁.submissions) (hs : db.submissions[i]? = some sub)
    (hs' : db'.submissions[i]? = some sub') : RowStep db (.processMessage m check ai) db' i sub sub' := by
  rw [hsame] at hs'
  by_cases hi : i = j
  · subst hi
    have hx := (h.finalizes.within.row hs hs').1
    have hp := h.pin
    rw [hs, hs', Option.map_some, Option.map_some, Option.some_inj] at hp
    have hmove := h.move
    rw [status_of_row hs, status_of_row hs'] at hmove
    generalize hst : some sub.status = s, hst' : some sub'.status = s' at hmove
    cases hmove with
    | stays => exact .kept (Option.some_inj.mp (hst'.trans hst.symm)) hp hx
    | failed hai =>
      rw [Option.some_inj] at hst hst'
      exact .moved (by rw [hst, hst']; exact .aiFailed hai) hp hx
    | reviewed hai ha =>
      rw [Option.some_inj] at hst hst'
      exact .moved (by rw [hst, hst']; exact .aiReviewed hai ⟨m, check, by rw [ha], hm⟩) hp hx
  · obtain ⟨hst, hp, hx⟩ := h.finalizes.within.row_ne hi hs hs'
    exact .kept hst hp hx

/-- The row of submission `i` after its status was written. -/
theorem row_setStatus {next : SubmissionStatus}
    (hs' : (db.setSubmission j ({ · with status := next })).submissions[i]? = some sub') :
    ∃ sub, db.submissions[i]? = some sub ∧ sub' = if j = i then { sub with status := next } else sub :=
  Table.getElem?_modify_some hs'

theorem Decided.rowStep {action : ReviewAction} {reason : String} (h : Decided db j action db')
    (hs : db.submissions[i]? = some sub) (hs' : db'.submissions[i]? = some sub') :
    RowStep db (.review j action reason) db' i sub sub' := by
  by_cases hi : i = j
  · subst hi
    have hold := status_of_row hs
    cases h with
    | approved hawait hq hc =>
      rw [hold, Option.some_inj] at hawait
      obtain ⟨sub₁, hs₁, hst, hp, hx⟩ := (within_finalizeGrade (db.setSubmission i
        ({ · with status := .completed })) i).subsKeep i { sub with status := .completed } (by simp [hs])
      rw [hs'] at hs₁
      cases hs₁
      exact .moved (by rw [hst, hawait]; exact .approved rfl hq hc) hp hx
    | sentQuiz hawait _ hnone =>
      rw [hold, Option.some_inj] at hawait
      obtain ⟨sub₀, hs₀, rfl⟩ := row_setStatus hs'
      rw [hs] at hs₀
      cases hs₀
      rw [if_pos rfl]
      exact .moved (by rw [hawait]; exact .sentQuiz rfl hnone) rfl rfl
    | rejected hawait hm =>
      rw [hold, Option.some_inj] at hawait
      obtain ⟨sub₁, hs₁, rfl⟩ := row_setStatus hs'
      obtain ⟨sub₀, hs₀, rfl⟩ := Table.getElem?_modify_some hs₁
      rw [hs] at hs₀
      cases hs₀
      rw [if_pos rfl, if_pos rfl]
      exact .moved (by rw [hawait]; exact .rejected rfl hm) rfl rfl
  · have hw : Within (.task j) db db' := by
      have hset : ∀ (e : Db) (s : SubmissionStatus), Within (.task j) e (e.setSubmission j ({ · with status := s })) :=
        fun e s => within_setSubmission e j fun _ => by simp [Scope.keep]
      cases h with
      | approved => exact (hset db _).trans ((within_finalizeGrade _ j).mono (.grades _))
      | sentQuiz => exact hset db _
      | rejected => exact (within_setSubmission db j fun _ => by simp [Scope.keep]).trans (hset _ _)
    obtain ⟨hst, hp, hx⟩ := hw.row_ne hi hs hs'
    exact .kept hst hp hx

theorem Requeued.rowStep (h : Requeued db j db') (hs : db.submissions[i]? = some sub)
    (hs' : db'.submissions[i]? = some sub') : RowStep db (.rerunChecks j) db' i sub sub' := by
  cases h with
  | mk hsub hst hr ht =>
    obtain ⟨sub₁, hs₁, rfl⟩ := Table.getElem?_modify_some hs'
    obtain ⟨sub₀, hs₀, rfl⟩ := row_setStatus hs₁
    rw [hs] at hs₀
    cases hs₀
    by_cases hi : j = i
    · subst hi
      rw [hs] at hsub
      cases hsub
      simp only [if_true]
      exact .requeued rfl (by rw [hst]; exact hr) ht rfl rfl rfl
    · rw [if_neg hi, if_neg hi]
      exact .kept rfl rfl rfl

theorem Granted.rowStep {t : ℕ} {studentId : Option ℕ} (h : Granted db j t db')
    (hs : db.submissions[i]? = some sub) (hs' : db'.submissions[i]? = some sub') :
    RowStep db (.grantQuizAttempt j studentId) db' i sub sub' := by
  cases h with
  | mk hst hfs ht hg =>
    obtain ⟨sub₁, hs₁, rfl⟩ := row_setStatus hs'
    obtain ⟨sub₀, hs₀, rfl⟩ := Table.getElem?_modify_some hs₁
    rw [hs] at hs₀
    cases hs₀
    by_cases hi : j = i
    · subst hi
      simp only [if_true]
      exact .granted rfl ht hg rfl rfl
    · rw [if_neg hi, if_neg hi]
      exact .kept rfl rfl rfl

theorem Saved.rowStep {asgId t : ℕ} {asg : SubjectsAssignment} (h : Saved db asgId t db')
    (hs : db.submissions[i]? = some sub) (hs' : db'.submissions[i]? = some sub')
    (hasg : db.assignmentOf sub.studentsAssignmentId = some asg) : RowStep db op db' i sub sub' := by
  cases h with
  | written w => exact w.subsKeep.rowStep hs hs'
  | regraded w => exact (w.subsKeep.trans (within_finalizeGrade _ _).subsKeep).rowStep hs hs'
  | @completed db₁ j w _ _ hm hst =>
    obtain ⟨sub₁, hs₁, hst₁, hp₁, hx₁⟩ := w.subsKeep i sub hs
    have hset : (db₁.setSubmission j ({ · with status := .completed })).submissions[i]? =
        some (if j = i then { sub₁ with status := .completed } else sub₁) := by
      rw [Db.setSubmission_submissions, List.getElem?_modify, hs₁]
      split_ifs <;> rfl
    obtain ⟨sub₂, hs₂, hst₂, hp₂, hx₂⟩ := (within_finalizeGrade (db₁.setSubmission j
      ({ · with status := .completed })) j).subsKeep i _ hset
    rw [hs'] at hs₂
    cases hs₂
    by_cases hi : j = i
    · subst hi
      rw [if_pos rfl] at hst₂ hp₂ hx₂
      rw [status_of_row hs, Option.some_inj] at hst
      refine .moved ?_ (hp₂.trans hp₁) (hx₂.trans hx₁)
      rw [hst, hst₂]
      exact .saved (by rw [← w.evolves.isScored hs hasg]; exact hm)
    · rw [if_neg hi] at hst₂ hp₂ hx₂
      exact .kept (hst₂.trans hst₁) (hp₂.trans hp₁) (hx₂.trans hx₁)

theorem ruledDb_submissions (db : Db) (d c v q : ℕ) (note : String) :
    (db.ruledDb d c v q note).submissions = db.submissions := by
  simp only [Db.ruledDb, Db.regradeQuestion, Db.closeSiblings, Db.addOverride]
  split_ifs <;> rfl

/-- An attempt after a ruling is the old one, re-scored when it is a candidate. -/
theorem ruledDb_attempt {d c v q k : ℕ} {note : String} {a' : QuizAttempt}
    (h : (db.ruledDb d c v q note).quizAttempts[k]? = some a') : ∃ a, db.quizAttempts[k]? = some a ∧
      a' = if a.isCandidate c v q then a.regrade q else a := by
  rw [ruledDb_quizAttempts, List.getElem?_map] at h
  obtain ⟨a, ha, rfl⟩ := Option.map_eq_some_iff.mp h
  exact ⟨a, ha, rfl⟩

theorem ruled_rowStep {d : ℕ} {note : String} {dispute : QuizQuestionDispute} {c v : ℕ} {asg : SubjectsAssignment}
    (hd : db.disputes[d]? = some dispute) (hopen : dispute.status = .opened) (hnote : note ≠ "")
    (hc : dispute.pluginConfigId = some c) (hv : dispute.pluginConfigVersion = some v)
    (hdb' : db' = (db.liftedBy c v dispute.questionId).foldl Db.advanced
      (db.ruledDb d c v dispute.questionId note))
    (hs : db.submissions[i]? = some sub) (hs' : db'.submissions[i]? = some sub')
    (hasg : db.assignmentOf sub.studentsAssignmentId = some asg) :
    RowStep db (.resolve d true note) db' i sub sub' := by
  set ruled := db.ruledDb d c v dispute.questionId note with hruled
  have hw : Within .statuses ruled db' := hdb' ▸ within_advancedAll _ ruled
  have hsub : ruled.submissions[i]? = some sub := by rw [hruled, ruledDb_submissions, hs]
  obtain ⟨hx, hp⟩ := hw.row hsub hs'
  by_cases hstay : sub.status = sub'.status
  · exact .kept hstay.symm (hp rfl) hx
  · have hold := status_of_row hsub
    have hnew := status_of_row hs'
    rw [hdb'] at hnew
    obtain ⟨hfs, hcomplete, k, hk, a', ha', hi, dbm, hdbm, hteach⟩ := moved_advancedAll _ ruled hold hnew hstay
    obtain ⟨a, ha, hregrade⟩ := ruledDb_attempt ha'
    have hsame : a'.submissionId = a.submissionId ∧ a'.configSnapshot = a.configSnapshot := by
      rw [hregrade]
      split_ifs <;> exact ⟨rfl, rfl⟩
    have hlifts : db.Lifts (.resolve d true note) i a :=
      ⟨c, v, dispute.questionId, k, ⟨d, note, dispute, rfl, hnote, hd, hopen, hc, hv, rfl⟩, hk, ha,
        hsame.1.symm.trans hi⟩
    refine .moved (.ruled hfs hlifts (by rw [hw.quizComplete]; exact hcomplete) ?_ fun hm => ?_) (hp rfl) hx
    · rw [hteach]
      split_ifs
      · exact .inl rfl
      · exact .inr rfl
    · have hscored := ((evolves_ruledDb db d c v dispute.questionId note).trans hdbm.evolves).isScored hs hasg
      have hplain : dbm.goesToTeacher i a.configSnapshot.reviewMode =
          (a.configSnapshot.reviewMode == some .quizThenTeacher) := by
        rw [Db.goesToTeacher, hscored, hm]
        rfl
      rw [hteach, hsame.2, hplain]

/-- What a step does to a submission that exists. -/
theorem row_step {asg : SubjectsAssignment} (h : StepSpec db op db') (hs : db.submissions[i]? = some sub)
    (hs' : db'.submissions[i]? = some sub') (hasg : db.assignmentOf sub.studentsAssignmentId = some asg) :
    RowStep db op db' i sub sub' := by
  cases h with
  | same => exact rowStep_same rfl hs hs'
  | upload h => exact h.subsKeep.rowStep hs hs'
  | check hm h => exact h.rowStep hm rfl hs hs'
  | aiReview hm h => exact h.rowStep hm rfl hs hs'
  | retry => exact rowStep_same rfl hs hs'
  | @skip j hst =>
    obtain ⟨sub₀, hs₀, rfl⟩ := row_setStatus hs'
    rw [hs] at hs₀
    cases hs₀
    by_cases hi : j = i
    · subst hi
      rw [status_of_row hs, Option.some_inj] at hst
      rw [if_pos rfl]
      exact .moved (by rw [hst]; exact .skipped) rfl rfl
    · rw [if_neg hi]
      exact .kept rfl rfl rfl
  | review h => exact h.rowStep hs hs'
  | rerun h => exact h.rowStep hs hs'
  | start h => exact h.subsKeep.rowStep hs hs'
  | quiz _ h => exact h.rowStep hs hs'
  | report => exact rowStep_same rfl hs hs'
  | ruled hd hopen hnote hc hv => exact ruled_rowStep hd hopen hnote hc hv rfl hs hs' hasg
  | closed => exact rowStep_same rfl hs hs'
  | grant h => exact h.rowStep hs hs'
  | scores h => exact h.rowStep hs hs' hasg
  | unenroll => exact rowStep_same rfl hs hs'
  | tick => exact rowStep_same rfl hs hs'

end

end SubmissionsChecker
