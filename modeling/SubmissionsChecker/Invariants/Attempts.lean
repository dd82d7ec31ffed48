import SubmissionsChecker.Effects.AttemptRows
import SubmissionsChecker.Invariants.NewSubmissions

/-! What every attempt satisfies in a reachable state: it is by someone its submission belongs
to, under the latest config, and a student runs one attempt at a time. -/

namespace SubmissionsChecker

structure AttemptOk (db : Db) (a : QuizAttempt) : Prop where
  submission : ∃ sub asg, db.submissions[a.submissionId]? = some sub ∧
    db.assignmentOf sub.studentsAssignmentId = some asg
  student : ∃ t ∈ db.belongsTo a.submissionId, a.studentId = some t
  config : ∃ block, db.latestBlock a.submissionId = some block ∧
    a.configSnapshot.maxQuizAttempts = block.quiz.maxQuizAttempts ∧
    a.configSnapshot.reviewMode = some (block.reviewMode.getD .testsOnly)

/-- A student has one running attempt on a submission. -/
def Db.OneRunning (db : Db) : Prop := ∀ (k k' : ℕ) a a', db.quizAttempts[k]? = some a →
  db.quizAttempts[k']? = some a' → a.submissionId = a'.submissionId → a.studentId = a'.studentId →
  a.status = .inProgress → a'.status = .inProgress → k = k'

/-- The attempt a step adds: at the end of the table, on a database that has its other rows. -/
structure NewAttempt (db db' : Db) (k : ℕ) (a : QuizAttempt) : Prop where
  index : k = db.quizAttempts.length
  others : db'.quizAttempts = db.quizAttempts ++ [a]
  started : ∃ db₁ i t, StartsAttempt db₁ i t a ∧ Evolves db₁ db' ∧ db₁.quizAttempts = db.quizAttempts ∧
    db'.pinnedBlock i = db₁.pinnedBlock i ∧ db'.status i = db₁.status i

section

variable {db db' db₁ : Db} {op : Op} {i k t saId : ℕ} {a a' : QuizAttempt}

theorem Starts.attempts (h : Starts db₁ i t db') (hsame : db₁.quizAttempts = db.quizAttempts) :
    db'.quizAttempts = db.quizAttempts ∨ ∃ a, NewAttempt db db' db.quizAttempts.length a := by
  have hev := h.evolves
  cases h with
  | same => exact .inl hsame
  | @attempt db₂ a hd ha =>
    refine .inr ⟨a, rfl, ?_, db₁, i, t, ha, hev, hsame, ?_, ?_⟩
    · rcases hd with rfl | ⟨draw, rfl⟩
      · simp only [hsame]
      · simp only [Db.setSubmission_quizAttempts, hsame]
    · rcases hd with rfl | ⟨draw, rfl⟩
      · rfl
      · simp only [Db.pinnedBlock, Db.setSubmission_submissions, Table.getElem?_modify_self]
        cases db₁.submissions[i]? <;> rfl
    · rcases hd with rfl | ⟨draw, rfl⟩
      · rfl
      · exact status_setSubmission_same fun _ => rfl

theorem Started.attempts (h : Started db saId t db') :
    db'.quizAttempts = db.quizAttempts ∨ ∃ a, NewAttempt db db' db.quizAttempts.length a := by
  have hl := (within_latestSubmission .grades db saId).quizAttempts
  cases h with
  | looked => exact .inl hl
  | latest hs => exact hs.attempts hl
  | opened ho hs => exact hs.attempts (ho.quizAttempts.trans hl)

theorem Uploaded.attempts {check : CheckResult} (h : Uploaded db saId check db') :
    db'.quizAttempts = db.quizAttempts := by
  cases h with
  | queued ha => rw [Db.addMessage_quizAttempts, addSubmission_quizAttempts, ha.within.quizAttempts]
  | checked ha _ _ _ hc =>
    rw [hc.finalizes.within.quizAttempts, addSubmission_quizAttempts, ha.within.quizAttempts]

/-- A step adds at most one attempt, and only the start of a quiz does. -/
theorem StepSpec.attempts (h : StepSpec db op db') : db'.quizAttempts.length = db.quizAttempts.length ∨
    (∃ saId t rnd, op = .startQuiz saId t rnd) ∧ ∃ a, NewAttempt db db' db.quizAttempts.length a := by
  cases h with
  | same => exact .inl rfl
  | upload h => exact .inl (by rw [h.attempts])
  | check _ h => exact .inl (by rw [Db.setMessage_quizAttempts, h.finalizes.within.quizAttempts])
  | aiReview _ h => exact .inl (by rw [Db.setMessage_quizAttempts, h.finalizes.within.quizAttempts])
  | retry => exact .inl rfl
  | skip => exact .inl rfl
  | @review j _ _ _ h =>
    left
    cases h with
    | approved => rw [(within_finalizeGrade _ j).quizAttempts]; rfl
    | sentQuiz => rfl
    | rejected => rfl
  | rerun h => cases h; exact .inl rfl
  | @start saId t rnd _ h => exact h.attempts.imp (fun h => by rw [h]) fun hnew => ⟨⟨saId, t, rnd, rfl⟩, hnew⟩
  | quiz _ h =>
    left
    cases h with
    | same => rfl
    | edited => simp
    | finished _ _ _ _ _ hfin => rw [hfin.within.quizAttempts]; simp
  | report => exact .inl rfl
  | ruled => exact .inl (by rw [(within_advancedAll _ _).quizAttempts, ruledDb_quizAttempts, List.length_map])
  | closed => exact .inl rfl
  | grant h => cases h; exact .inl rfl
  | scores h =>
    left
    cases h with
    | written w => rw [w.quizAttempts]
    | @completed db₁ j w => rw [(within_finalizeGrade _ j).quizAttempts, ← w.quizAttempts]; rfl
    | @regraded db₁ j w => rw [(within_finalizeGrade _ j).quizAttempts, w.quizAttempts]
  | unenroll => exact .inl rfl
  | tick => exact .inl rfl

/-- An attempt after a step is an old one that changed as attempts do, or the new one. -/
theorem attempt_step (h : StepSpec db op db') (ha' : db'.quizAttempts[k]? = some a') :
    (∃ a, db.quizAttempts[k]? = some a ∧ AttemptKeeps a a') ∨ NewAttempt db db' k a' := by
  cases ha : db.quizAttempts[k]? with
  | some a =>
    obtain ⟨a₁, ha₁, hkeep⟩ := h.evolves.attempts k a ha
    rw [ha'] at ha₁
    cases ha₁
    exact .inl ⟨a, rfl, hkeep⟩
  | none =>
    have hk := List.getElem?_eq_none_iff.mp ha
    have hk' := (List.getElem?_eq_some_iff.mp ha').1
    rcases h.attempts with hlen | ⟨-, a, hnew⟩
    · omega
    · obtain rfl : k = db.quizAttempts.length := by
        rw [hnew.others, List.length_append, List.length_singleton] at hk'
        omega
      rw [hnew.others, Table.getElem?_concat_length, Option.some_inj] at ha'
      subst ha'
      exact .inr hnew

/-! Who a submission belongs to -/

theorem belongsTo_squad {squad : Squad} (h : db.squadForSubmission i = some squad) : db.belongsTo i = squad.members := by
  simp only [Db.belongsTo, h]

theorem belongsTo_owner {sub : Submission} {row : StudentAssignment} (h : db.squadForSubmission i = none)
    (hs : db.submissions[i]? = some sub) (hrow : db.studentsAssignments[sub.studentsAssignmentId]? = some row) :
    db.belongsTo i = [row.studentId] := by
  simp only [Db.belongsTo, h, hs, Option.bind_some, hrow, Option.map_some, Option.toList_some]

theorem Evolves.belongsTo {sub : Submission} {asg : SubjectsAssignment} (h : Evolves db db')
    (hs : db.submissions[i]? = some sub) (hasg : db.assignmentOf sub.studentsAssignmentId = some asg) :
    db'.belongsTo i = db.belongsTo i := by
  cases hq : db'.squadForSubmission i with
  | some squad' =>
    obtain ⟨squad, hsquad, -, hm⟩ := h.squad_some hs hq
    rw [belongsTo_squad hq, belongsTo_squad hsquad, hm]
  | none =>
    obtain ⟨row, hrow, -⟩ := Option.bind_eq_some_iff.mp hasg
    obtain ⟨row', hrow', hst, -⟩ := h.rows _ row hrow
    obtain ⟨sub', hs', hsa, -⟩ := h.submission hs
    rw [belongsTo_owner hq hs' (by rw [hsa]; exact hrow'), belongsTo_owner (h.squad_none hs hq) hs hrow, hst]

/-- Whoever reaches a submission is one of those it belongs to. -/
theorem reaches_belongsTo {asgId : ℕ} {sub : Submission} (hsetup : db.Setup) (hs : db.submissions[i]? = some sub)
    (ok : SubmissionOk db i sub) (h : db.Reaches t asgId i) : t ∈ db.belongsTo i := by
  obtain ⟨row, asg, hrow, hasg, hsquad⟩ := ok.owned
  obtain ⟨sub₁, row₁, asg₁, hs₁, hrow₁, hrowasg, hasg₁, ht⟩ := h
  rw [hs] at hs₁
  cases hs₁
  rw [hrow] at hrow₁
  cases hrow₁
  rw [← hrowasg, hasg] at hasg₁
  cases hasg₁
  cases hq : db.squadOf asg.subjectId row.studentId with
  | none =>
    have hnone : db.squadForSubmission i = none := by
      simp only [Db.squadForSubmission, hs, Option.bind_some, hsquad, hq, Option.bind_none]
    rw [belongsTo_owner hnone hs hrow]
    rcases ht with rfl | ⟨q, s, hqs, hsubject, -, howner⟩
    · exact List.mem_singleton.mpr rfl
    · have := Table.findId_none hq s (List.mem_of_getElem? hqs)
      simp [hsubject, howner] at this
  | some q =>
    obtain ⟨s, hqs, hp⟩ := Table.findId_some hq
    simp only [Bool.and_eq_true, beq_iff_eq, List.contains_iff_mem] at hp
    have hsome : db.squadForSubmission i = some s := by
      simp only [Db.squadForSubmission, hs, Option.bind_some, hsquad, hq, hqs]
    rw [belongsTo_squad hsome]
    rcases ht with rfl | ⟨q', s', hqs', hsubject, hmember, howner⟩
    · exact hp.2
    · obtain rfl := hsetup.oneSquad q q' s s' row.studentId hqs hqs' (hp.1.trans hsubject.symm) hp.2 howner
      rw [hqs] at hqs'
      cases hqs'
      exact hmember

theorem Evolves.reaches {asgId : ℕ} (h : Evolves db db') (hr : db.Reaches t asgId i) : db'.Reaches t asgId i := by
  obtain ⟨sub, row, asg, hsub, hrow, hrowasg, hasg, ht⟩ := hr
  obtain ⟨sub', hsub', hsa, -⟩ := h.submission hsub
  obtain ⟨row', hrow', hst, hrowasg'⟩ := h.rows _ row hrow
  refine ⟨sub', row', asg, hsub', by rw [hsa, hrow'], hrowasg'.trans hrowasg, by rw [h.subjectsAssignments, hasg], ?_⟩
  rw [hst]
  refine ht.imp_right ?_
  rintro ⟨q, s, hqs, hsubject, hm, ho⟩
  have hget := h.squad q
  rw [hqs, Option.map_some] at hget
  obtain ⟨s', hqs', heq⟩ := Option.map_eq_some_iff.mp hget
  have hmembers : s'.members = s.members := congrArg Prod.snd heq
  exact ⟨q, s', hqs', (congrArg Prod.fst heq).trans hsubject, hmembers ▸ hm, hmembers ▸ ho⟩

/-! Every step keeps what attempts satisfy -/

theorem AttemptKeeps.submissionId (h : AttemptKeeps a a') : a'.submissionId = a.submissionId :=
  congrArg Prod.fst h.origin

theorem AttemptKeeps.studentId (h : AttemptKeeps a a') : a'.studentId = a.studentId :=
  congrArg (fun o => o.2.1) h.origin

theorem AttemptKeeps.configSnapshot (h : AttemptKeeps a a') : a'.configSnapshot = a.configSnapshot :=
  congrArg (fun o => o.2.2.2.2.2.1) h.origin

theorem AttemptOk.keeps (ok : AttemptOk db a) (h : Evolves db db') (hkeep : AttemptKeeps a a') : AttemptOk db' a' := by
  obtain ⟨sub, asg, hs, hasg⟩ := ok.submission
  obtain ⟨sub', hs', hsa, -⟩ := h.submission hs
  refine ⟨⟨sub', asg, ?_, ?_⟩, ?_, ?_⟩
  · rw [hkeep.submissionId]; exact hs'
  · rw [hsa]; exact h.assignmentOf hasg
  · rw [hkeep.submissionId, hkeep.studentId, h.belongsTo hs hasg]; exact ok.student
  · rw [hkeep.submissionId, hkeep.configSnapshot, h.latestBlock hs hasg]; exact ok.config

/-- The start of a quiz: `db'` satisfies the rest of the invariant already. -/
theorem NewAttempt.ok (h : NewAttempt db db' k a) (hsetup : db'.Setup)
    (hsubs : ∀ (i : ℕ) sub, db'.submissions[i]? = some sub → SubmissionOk db' i sub) : AttemptOk db' a := by
  obtain ⟨db₁, i, t, hst, hev, -, hpin, hstatus⟩ := h.started
  obtain ⟨asgId, hreach⟩ := hst.reach
  have hreach' := hev.reaches hreach
  obtain ⟨sub, row, asg, hs, hrow, hrowasg, hasg, -⟩ := hreach'
  have ok := hsubs i sub hs
  rw [hst.sent, status_of_row hs, Option.some_inj] at hstatus
  refine ⟨⟨sub, asg, by rw [hst.submission]; exact hs, ?_⟩, ⟨t, ?_, hst.student⟩, ?_⟩
  · rw [Db.assignmentOf, hrow, Option.bind_some, hrowasg, hasg]
  · rw [hst.submission]
    exact reaches_belongsTo hsetup hs ok (hev.reaches hreach)
  · obtain ⟨block, hblock, hmax, hmode⟩ := hst.config
    rw [hst.submission, ← ok.pinnedBlock hs (by rw [hstatus]; decide) (by rw [hstatus]; decide), hpin]
    exact ⟨block, hblock, hmax, hmode⟩

theorem mem_attemptsOf {b : QuizAttempt} : b ∈ db.attemptsOf i t ↔
    b ∈ db.quizAttempts ∧ b.submissionId = i ∧ (b.studentId = some t ∨ b.studentId = none) := by
  simp [Db.attemptsOf, List.mem_filter]

theorem OneRunning.step (hone : db.OneRunning) (h : StepSpec db op db') : db'.OneRunning := by
  have hback : ∀ {k : ℕ} {a a' : QuizAttempt}, db.quizAttempts[k]? = some a → AttemptKeeps a a' →
      a'.status = .inProgress → a.status = .inProgress := by
    intro k a a' _ hkeep hrun
    by_contra hno
    have hterm : a.status.isTerminal = true := by
      by_contra h
      exact hno (inProgress_of_not_terminal h)
    rw [hkeep.terminal hterm] at hrun
    exact hno hrun
  have hfresh : ∀ {k : ℕ} {a b b' : QuizAttempt}, NewAttempt db db' db.quizAttempts.length a →
      db.quizAttempts[k]? = some b → AttemptKeeps b b' → b'.submissionId = a.submissionId →
      b'.studentId = a.studentId → b'.status = .inProgress → False := by
    intro k a b b' hnew hb hkeep hsub hst hrun
    obtain ⟨db₁, i, t, hstarts, -, hsame, -⟩ := hnew.started
    refine (hstarts.alone b (mem_attemptsOf.mpr ⟨?_, ?_, .inl ?_⟩)).1 (hback hb hkeep hrun)
    · rw [hsame]; exact List.mem_of_getElem? hb
    · rw [← hkeep.submissionId, hsub, hstarts.submission]
    · rw [← hkeep.studentId, hst, hstarts.student]
  intro k k' a a' ha ha' hsub hst hrun hrun'
  rcases attempt_step h ha with ⟨b, hb, hkeep⟩ | hnew <;> rcases attempt_step h ha' with ⟨b', hb', hkeep'⟩ | hnew'
  · refine hone k k' b b' hb hb' ?_ ?_ (hback hb hkeep hrun) (hback hb' hkeep' hrun')
    · rw [← hkeep.submissionId, hsub, hkeep'.submissionId]
    · rw [← hkeep.studentId, hst, hkeep'.studentId]
  · obtain rfl := hnew'.index
    exact (hfresh hnew' hb hkeep hsub hst hrun).elim
  · obtain rfl := hnew.index
    exact (hfresh hnew hb' hkeep' hsub.symm hst.symm hrun').elim
  · rw [hnew.index, hnew'.index]

theorem PassedClosed.step (hclosed : db.PassedClosed) (h : StepSpec db op db') : db'.PassedClosed := by
  intro a' ha' hp
  obtain ⟨k, hk⟩ := List.mem_iff_getElem?.mp ha'
  rcases attempt_step h hk with ⟨a, ha, hkeep⟩ | hnew
  · exact hkeep.closed (hclosed a (List.mem_of_getElem? ha)) hp
  · obtain ⟨db₁, i, t, hst, -⟩ := hnew.started
    rw [QuizAttempt.passed, hst.unpassed] at hp
    cases hp

end

end SubmissionsChecker
