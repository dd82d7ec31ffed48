import SubmissionsChecker.Invariants.Attempts

/-! The invariant of the system. It holds before any work is handed in and every step keeps it,
so every run from such a start ends in it. -/

namespace SubmissionsChecker

/-- A database in which nothing was handed in yet. -/
structure Db.Start (db : Db) : Prop where
  setup : db.Setup
  unique : db.UniqueRows
  submissions : db.submissions = []
  quizAttempts : db.quizAttempts = []
  outbox : db.outbox = []

structure Db.Ok (db : Db) : Prop where
  setup : db.Setup
  unique : db.UniqueRows
  subs : ∀ (i : ℕ) sub, db.submissions[i]? = some sub → SubmissionOk db i sub
  attempts : ∀ (k : ℕ) a, db.quizAttempts[k]? = some a → AttemptOk db a
  oneRunning : db.OneRunning
  closed : db.PassedClosed
  messages : ∀ message ∈ db.outbox, MessageOk db message

theorem Db.Start.ok {db : Db} (h : db.Start) : db.Ok where
  setup := h.setup
  unique := h.unique
  subs i sub hs := by rw [h.submissions] at hs; cases hs
  attempts k a ha := by rw [h.quizAttempts] at ha; cases ha
  oneRunning k k' a a' ha := by rw [h.quizAttempts] at ha; cases ha
  closed a ha := by rw [h.quizAttempts] at ha; cases ha
  messages message hm := by rw [h.outbox] at hm; cases hm

section

variable {db db' : Db} {op : Op}

/-! Messages -/

theorem afterCheck_of_quizFirst {m : ReviewMode} (h : m.isQuizFirst = true) : m.afterCheck = .quizSent := by
  cases m <;> first | rfl | cases h

theorem MessageOk.evolves {message message' : OutboxMessage} (ok : MessageOk db message) (h : Evolves db db')
    (hp : message'.payload = message.payload) : MessageOk db' message' := by
  intro i ns hpayload
  obtain ⟨sub, asg, m, hs, hasg, hm, hafter, hns⟩ := ok i ns (hp ▸ hpayload)
  obtain ⟨sub', hs', hsa, -⟩ := h.submission hs
  exact ⟨sub', asg, m, hs', by rw [hsa]; exact h.assignmentOf hasg, by rw [h.latestMode hs hasg]; exact hm,
    hafter, hns⟩

theorem messageOk_runChecks (db : Db) (i : ℕ) (state : OutboxMessageState) :
    MessageOk db { payload := .runChecks i, state } := by
  intro j ns h
  cases h

/-- The mode under which a submission is reviewed is the one its assignment row mirrors. -/
theorem mirrored_nextStep {i : ℕ} {sub : Submission} {asg : SubjectsAssignment} {m : ReviewMode}
    (hsetup : db.Setup) (hs : db.submissions[i]? = some sub) (ok : SubmissionOk db i sub)
    (hasg : db.assignmentOf sub.studentsAssignmentId = some asg) (hm : db.latestMode i = some m)
    (hafter : m.afterCheck = .awaitingAiReview) : asg.config.reviewMode.getD .testsOnly = m := by
  obtain ⟨row, asg₁, hrow, hasg₁, -⟩ := ok.owned
  rw [Db.assignmentOf, hrow, Option.bind_some, hasg₁, Option.some_inj] at hasg
  subst hasg
  rw [Db.latestMode, latestBlock_eq hs (by rw [Db.assignmentOf, hrow, Option.bind_some, hasg₁])] at hm
  obtain ⟨block, hblock, hmode⟩ := Option.map_eq_some_iff.mp hm
  obtain ⟨c, hc, hblock⟩ := Option.bind_eq_some_iff.mp hblock
  obtain ⟨cfg, hcfg, hblock⟩ := Option.bind_eq_some_iff.mp hblock
  obtain ⟨code, hcode, hblock⟩ := Option.map_eq_some_iff.mp hblock
  rw [hcode] at hblock
  unfold SubjectPluginConfig.assignment at hblock
  dsimp only at hblock
  cases hlookup : cfg.assignments.lookup code with
  | none =>
    rw [hlookup] at hblock
    rw [← hmode, ← hblock] at hafter
    cases hafter
  | some block' =>
    rw [hlookup, Option.getD_some] at hblock
    rw [hsetup.mirrored _ asg₁ c cfg code block' hasg₁ hc hcfg hcode hlookup, hblock, hmode]

/-- The messages after a step: the old ones, and reviews with the right next step. -/
theorem messages_step (ok : db.Ok) (h : StepSpec db op db') :
    ∀ message ∈ db'.outbox, MessageOk db' message := by
  have hev := h.evolves
  have hold : ∀ message ∈ db.outbox, MessageOk db' message := fun message hm => (ok.messages message hm).evolves hev rfl
  have hsame : db'.outbox = db.outbox → ∀ message ∈ db'.outbox, MessageOk db' message := fun h => h ▸ hold
  have hset : ∀ {e : Db} {m : ℕ} {state : OutboxMessageState}, (∀ message ∈ e.outbox, MessageOk db' message) →
      ∀ message ∈ (e.setMessage m ({ · with state := state })).outbox, MessageOk db' message := by
    intro e m state he message hm
    rw [Db.setMessage_outbox] at hm
    obtain ⟨j, hj⟩ := List.mem_iff_getElem?.mp hm
    obtain ⟨m₀, hm₀, rfl⟩ := Table.getElem?_modify_some hj
    have hmem := he m₀ (List.mem_of_getElem? hm₀)
    split_ifs
    · exact hmem.evolves (.refl db') rfl
    · exact hmem
  cases h with
  | same => exact hsame rfl
  | upload h =>
    cases h with
    | queued ha =>
      intro message hm
      rw [Db.addMessage_outbox, List.mem_append, List.mem_singleton] at hm
      rcases hm with hm | rfl
      · refine hold message ?_
        rw [← ha.within.messages rfl]
        rwa [addSubmission_outbox] at hm
      · exact messageOk_runChecks _ _ _
    | @checked sub db₁ _ m ha hpin hm hfirst hc =>
      have hadd : (db₁.addSubmission sub).outbox = db.outbox := by
        rw [addSubmission_outbox, ha.within.messages rfl]
      rcases hc.outbox with hsm | ⟨message, ⟨m', ns, hm', hafter, -⟩, -⟩
      · exact hsame (hsm.trans hadd)
      · rw [hm, Option.some_inj] at hm'
        subst hm'
        rw [afterCheck_of_quizFirst hfirst] at hafter
        cases hafter
  | @check _ i _ _ db₁ _ _ h =>
    refine hset ?_
    rcases h.outbox with hsm | ⟨message, ⟨m, ns, hm, hafter, hns, rfl⟩, hnew⟩
    · rw [hsm]; exact hold
    · rw [hnew]
      intro message hmem
      rw [List.mem_append, List.mem_singleton] at hmem
      rcases hmem with hmem | rfl
      · exact hold message hmem
      · -- the check ran under a mode, so its submission exists
        cases hs : db.submissions[i]? with
        | none => simp [Db.checkMode, Db.checkConfig, hs] at hm
        | some sub =>
          have hsub := ok.subs i sub hs
          obtain ⟨asg, hasg⟩ := hsub.assignment
          rw [hsub.checkMode hs] at hm
          have hreview : MessageOk db { payload := .runAiReview i ns } := by
            intro j ns' hp
            cases hp
            exact ⟨sub, asg, m, hs, hasg, hm, hafter, hns⟩
          exact hreview.evolves hev rfl
  | aiReview _ h => exact hset (by rw [h.outbox]; exact hold)
  | @retry i hst =>
    intro message hm
    rw [Db.addMessage_outbox, List.mem_append, List.mem_singleton] at hm
    rcases hm with hm | rfl
    · exact hold message hm
    · obtain ⟨sub, hs, hstatus⟩ := Option.map_eq_some_iff.mp hst
      have hsub := ok.subs i sub hs
      obtain ⟨asg, hasg⟩ := hsub.assignment
      obtain ⟨m, hm, hafter⟩ := hsub.aiMode (by rw [hstatus]; rfl)
      have hmode := mirrored_nextStep ok.setup hs hsub hasg hm hafter
      have hreview : MessageOk db { payload := .runAiReview i (some (nextStepFor
          (((db.submissions[i]?).bind fun sub => (db.assignmentOf sub.studentsAssignmentId).bind
            (·.config.reviewMode)).getD .testsOnly))) } := by
        intro j ns' hp
        cases hp
        refine ⟨sub, asg, m, hs, hasg, hm, hafter, ?_⟩
        rw [hs, Option.bind_some, hasg, Option.bind_some, hmode, Option.getD_some]
      exact hreview.evolves hev rfl
  | skip => exact hsame rfl
  | @review j _ _ _ h =>
    cases h with
    | approved => exact hsame ((within_finalizeGrade _ j).messages rfl)
    | sentQuiz => exact hsame rfl
    | rejected => exact hsame rfl
  | rerun h =>
    cases h
    intro message hm
    rw [Db.addMessage_outbox, List.mem_append, List.mem_singleton] at hm
    rcases hm with hm | rfl
    · exact hold message hm
    · exact messageOk_runChecks _ _ _
  | @start saId _ _ _ h =>
    have hl := (within_latestSubmission .grades db saId).messages rfl
    have hstarts : ∀ {e e' : Db} {i t : ℕ}, Starts e i t e' → e'.outbox = e.outbox := by
      intro e e' i t hs
      cases hs with
      | same => rfl
      | attempt hd => rcases hd with rfl | ⟨draw, rfl⟩ <;> rfl
    have hopened : ∀ {e e' : Db} {i : ℕ}, Opened e saId e' i → e'.outbox = e.outbox := by
      intro e e' i ho
      cases ho with
      | reused => exact (within_latestSubmission .grades e saId).messages rfl
      | @opened sub db₁ ha =>
        rw [Db.setSubmission_outbox, addSubmission_outbox, ha.within.messages rfl]
    cases h with
    | looked => exact hsame hl
    | latest hs => exact hsame ((hstarts hs).trans hl)
    | opened ho hs => exact hsame ((hstarts hs).trans ((hopened ho).trans hl))
  | quiz _ h =>
    cases h with
    | same => exact hsame rfl
    | edited => exact hsame rfl
    | finished _ _ _ _ _ hfin => exact hsame (hfin.within.messages rfl)
  | report => exact hsame rfl
  | ruled =>
    refine hsame (((within_advancedAll _ _).messages rfl).trans ?_)
    simp only [Db.ruledDb, Db.regradeQuestion, Db.closeSiblings, Db.addOverride]
    split_ifs <;> rfl
  | closed => exact hsame rfl
  | grant h => cases h; exact hsame rfl
  | scores h =>
    cases h with
    | written w => exact hsame (w.messages rfl)
    | @completed db₁ j w => exact hsame (((within_finalizeGrade _ j).messages rfl).trans (w.messages rfl))
    | @regraded db₁ j w => exact hsame (((within_finalizeGrade _ j).messages rfl).trans (w.messages rfl))
  | unenroll => exact hsame rfl
  | tick => exact hsame rfl

/-- Every step keeps the invariant. -/
theorem Db.Ok.step (ok : db.Ok) (op : Op) : (db.step op).Ok := by
  have h := step_spec db op
  have hev := h.evolves
  have hsetup := hev.setup ok.setup
  have hsubs : ∀ (i : ℕ) sub, (db.step op).submissions[i]? = some sub → SubmissionOk (db.step op) i sub := by
    intro i sub' hs'
    cases hs : db.submissions[i]? with
    | none => exact (new_submission h ok.setup hs hs').ok
    | some sub => exact (ok.subs i sub hs).step h ok.closed hs hs'
  refine ⟨hsetup, hev.unique ok.unique, hsubs, ?_, OneRunning.step ok.oneRunning h, PassedClosed.step ok.closed h, messages_step ok h⟩
  intro k a' ha'
  rcases attempt_step h ha' with ⟨a, ha, hkeep⟩ | hnew
  · exact (ok.attempts k a ha).keeps hev hkeep
  · exact hnew.ok hsetup hsubs

end

/-- A subject with one assignment, its students, and squads of them, before any work. -/
def oneSubject (block : PluginAssignment) (grading : GradingConfig) (squads : List (List ℕ)) (students : List ℕ) :
    Db where
  subjects := [{ squadMaxSize := some 6 }]
  subjectsAssignments :=
    [{ subjectId := 0, code := some "A", config := { reviewMode := block.reviewMode, grading } }]
  pluginConfigs := [{ subjectId := 0, version := 1, assignments := [("A", block)] }]
  squads := squads.map fun members => { subjectId := 0, members }
  subjectsStudents := (students.map fun t => (0, t)).toFinset
  studentsAssignments := students.map fun t => { studentId := t, subjectsAssignmentId := 0 }

theorem oneSubject_start {block : PluginAssignment} {grading : GradingConfig} {squads : List (List ℕ)}
    {students : List ℕ} (hstudents : students.Nodup) (hsquads : squads.Pairwise List.Disjoint) :
    (oneSubject block grading squads students).Start where
  setup :=
    { mirrored := by
        intro asgId asg c cfg code b hasg _ hcfg hcode hlookup
        have hasg := List.mem_singleton.mp (List.mem_of_getElem? hasg)
        have hcfg := List.mem_singleton.mp (List.mem_of_getElem? hcfg)
        subst hasg hcfg
        cases hcode
        cases hlookup
        rfl
      squadsEnabled := by
        intro q s hs
        obtain ⟨members, -, rfl⟩ := List.mem_map.mp (List.mem_of_getElem? hs)
        exact ⟨_, rfl, rfl⟩
      oneSquad := by
        intro q q' s s' t hs hs' _ ht ht'
        simp only [oneSubject, List.getElem?_map] at hs hs'
        obtain ⟨m, hm, rfl⟩ := Option.map_eq_some_iff.mp hs
        obtain ⟨m', hm', rfl⟩ := Option.map_eq_some_iff.mp hs'
        by_contra hne
        obtain ⟨hq, rfl⟩ := List.getElem?_eq_some_iff.mp hm
        obtain ⟨hq', rfl⟩ := List.getElem?_eq_some_iff.mp hm'
        rcases Nat.lt_or_gt_of_ne hne with hlt | hlt
        · exact List.pairwise_iff_getElem.mp hsquads q q' hq hq' hlt ht ht'
        · exact List.pairwise_iff_getElem.mp hsquads q' q hq' hq hlt ht' ht }
  unique := by
    intro r r' row row' hr hr' hst _
    simp only [oneSubject, List.getElem?_map] at hr hr'
    obtain ⟨t, ht, rfl⟩ := Option.map_eq_some_iff.mp hr
    obtain ⟨t', ht', rfl⟩ := Option.map_eq_some_iff.mp hr'
    obtain ⟨hlt, rfl⟩ := List.getElem?_eq_some_iff.mp ht
    obtain ⟨hlt', rfl⟩ := List.getElem?_eq_some_iff.mp ht'
    exact (List.Nodup.getElem_inj_iff hstudents).mp hst
  submissions := rfl
  quizAttempts := rfl
  outbox := rfl

/-- A squad may be locked before any work is handed in here, by work on another assignment. -/
theorem Db.Start.lock {db : Db} (h : db.Start) (q : ℕ) : (db.lockOnSubmit q).Start where
  setup := (evolves_lockOnSubmit db q).setup h.setup
  unique := (evolves_lockOnSubmit db q).unique h.unique
  submissions := h.submissions
  quizAttempts := h.quizAttempts
  outbox := h.outbox

open Runs in
/-- The invariant holds in every state a run reaches. -/
theorem ok_of_run {db db' : Db} {ok : Db → Op → Prop} {ops : List Op} (hstart : db.Start)
    (h : Run Db.step ok db ops db') : db'.Ok :=
  h.invariant hstart.ok fun _ op hok _ => hok.step op

end SubmissionsChecker
