import SubmissionsChecker.Effects.AppliedConfigs
import SubmissionsChecker.Effects.AttemptRows
import SubmissionsChecker.Effects.GradeSteps
import SubmissionsChecker.Effects.RowPoints
import SubmissionsChecker.Portal
import SubmissionsChecker.Properties.SquadWork

/-! The work in every reachable state of the portal, whatever configs are applied: each submission is
on a row, a squad's on a member's, and each attempt that was passed has points. -/

namespace SubmissionsChecker

open Runs

structure WorkOk (db : Db) (sub : Submission) : Prop where
  owned : ∃ row asg, db.studentsAssignments[sub.studentsAssignmentId]? = some row ∧
    db.subjectsAssignments[row.subjectsAssignmentId]? = some asg
  member : ∀ q, sub.squadId = some q → ∃ s row, db.squads[q]? = some s ∧ s.lockedAt.isSome = true ∧
    db.studentsAssignments[sub.studentsAssignmentId]? = some row ∧ row.studentId ∈ s.members
  graded : sub.gradeBreakdown ≠ none → sub.status = .completed

/-- A passed attempt is a student's and has points. -/
structure QuizAttempt.Scored (a : QuizAttempt) : Prop where
  student : a.studentId.isSome = true
  points : a.passed = true → ∃ s m, a.score = some s ∧ a.maxScore = some m ∧ 0 < m

structure Portal.WorkOk (p : Portal) : Prop where
  consistent : p.db.Consistent
  subs : ∀ (i : ℕ) sub, p.db.submissions[i]? = some sub → SubmissionsChecker.WorkOk p.db sub
  attempts : ∀ a ∈ p.db.quizAttempts, a.Scored
  checked : ∀ a ∈ p.db.quizAttempts, a.scoreCheck = true

section

variable {db db₁ db' : Db} {op : Op} {saId i : ℕ} {sub sub' : Submission}

theorem WorkOk.evolves (ok : WorkOk db sub) (h : Evolves db db') (hg : GradesDone db db')
    (hs : db.submissions[i]? = some sub) (hs' : db'.submissions[i]? = some sub') : WorkOk db' sub' := by
  obtain ⟨s₁, hs₁, hsa, -, hsquad, -⟩ := h.submission hs
  obtain ⟨s₂, hs₂, hdone, hgrade⟩ := hg i sub hs
  rw [hs', Option.some_inj] at hs₁ hs₂
  subst hs₁ hs₂
  refine ⟨?_, fun q hq => ?_, fun hb => ?_⟩
  · obtain ⟨row, asg, hrow, hasg⟩ := ok.owned
    obtain ⟨row', hrow', -, hrowasg⟩ := h.rows _ row hrow
    exact ⟨row', asg, by rw [hsa, hrow'], by rw [hrowasg, h.subjectsAssignments, hasg]⟩
  · obtain ⟨s, row, hs, hl, hrow, hm⟩ := ok.member q (hsquad ▸ hq)
    obtain ⟨row', hrow', hst, -⟩ := h.rows _ row hrow
    obtain ⟨s', hs', hl'⟩ := h.locked q s hs hl
    obtain ⟨s₀, hs₀, -, hmembers⟩ := roster_get h.rosters hs'
    rw [hs, Option.some_inj] at hs₀
    subst hs₀
    exact ⟨s', row', hs', hl', by rw [hsa, hrow'], by rw [hst, ← hmembers]; exact hm⟩
  · rcases hgrade with hsame | hcompleted
    · exact hdone (ok.graded (hsame ▸ hb))
    · exact hcompleted

/-! A submission a step adds -/

theorem squadForUpload_member {x t q : ℕ} {refuse : Raised} (h : db.squadForUpload x t refuse = .ok (some q)) :
    ∃ s, db.squads[q]? = some s ∧ t ∈ s.members := by
  unfold Db.squadForUpload at h
  split at h
  · cases h
  · split_ifs at h
    · cases h
    · rw [Except.ok.injEq] at h
      obtain ⟨s, hs, hp⟩ := Table.findId_some h
      simp only [Bool.and_eq_true, List.contains_iff_mem] at hp
      exact ⟨s, hs, hp.2⟩

theorem Adds.workOk (ha : Adds db saId sub db₁) (hev : Evolves (db₁.addSubmission sub) db')
    (hg : GradesDone (db₁.addSubmission sub) db') (hs' : db'.submissions[db.submissions.length]? = some sub') :
    WorkOk db' sub' := by
  have hold := addSubmission_get db₁ sub
  rw [ha.same] at hold
  refine WorkOk.evolves ⟨?_, fun q hq => ?_, fun hb => absurd ha.fresh.1 hb⟩ hev hg hold hs'
  · obtain ⟨sa, asg, -, -, hsa, hasg, -, hrow, -⟩ := ha.row
    obtain ⟨row, hrow', -, hrowasg⟩ := ha.within.rows saId sa hsa
    refine ⟨row, asg, by rw [addSubmission_studentsAssignments, hrow, hrow'], ?_⟩
    rw [(evolves_addSubmission db₁ sub).subjectsAssignments, hrowasg, ha.within.subjectsAssignments, hasg]
  · obtain ⟨sa, asg, squad, refuse, hsa, -, hsquad, hrow, hsq, -⟩ := ha.row
    rw [← hsq, hq] at hsquad
    obtain ⟨s, hs, hmem⟩ := squadForUpload_member hsquad
    rw [← ha.within.squads] at hs
    obtain ⟨row, hrow', hst, -⟩ := ha.within.rows saId sa hsa
    obtain ⟨s', hs', hl'⟩ := addSubmission_locked hq hs
    obtain ⟨s₀, hs₀, -, hmembers⟩ := roster_get (evolves_addSubmission db₁ sub).rosters hs'
    rw [hs, Option.some_inj] at hs₀
    subst hs₀
    exact ⟨s', row, hs', hl', by rw [addSubmission_studentsAssignments, hrow, hrow'], by rw [hst, ← hmembers]; exact hmem⟩

theorem Uploaded.workOk {check : CheckResult} (h : Uploaded db saId check db')
    (hs' : db'.submissions[db.submissions.length]? = some sub') : WorkOk db' sub' := by
  cases h with
  | queued ha => exact ha.workOk (within_addMessage _ 0 _).evolves (.same rfl) hs'
  | checked ha _ _ _ hc => exact ha.workOk hc.finalizes.within.evolves hc.gradesDone hs'

theorem Started.workOk {t : ℕ} (h : Started db saId t db') (hnew : db'.submissions.length ≠ db.submissions.length)
    (hs' : db'.submissions[db.submissions.length]? = some sub') : WorkOk db' sub' := by
  have hl := within_latestSubmission .grades db saId
  cases h with
  | looked => exact absurd hl.submissions_length hnew
  | latest hs => exact absurd (hs.submissions_length.trans hl.submissions_length) hnew
  | opened ho hs =>
    cases ho with
    | reused =>
      exact absurd ((hs.submissions_length.trans (within_latestSubmission .grades _ saId).submissions_length).trans
        hl.submissions_length) hnew
    | @opened sub db₁ ha =>
      rw [← hl.submissions_length] at hs'
      have hsent : GradesDone (db₁.addSubmission sub) ((db₁.addSubmission sub).setSubmission
          (db.latestSubmission saId).1.submissions.length ({ · with status := .quizSent })) := by
        refine gradesDone_setSubmission _ _ fun s hget => ⟨rfl, fun hdone => ?_⟩
        have hold := addSubmission_get db₁ sub
        rw [ha.same, hget, Option.some_inj] at hold
        rw [hold, ha.fresh.2] at hdone
        cases hdone
      exact ha.workOk (Evolves.before_set hs.evolves fun _ => rfl) (hsent.trans hs.gradesDone) hs'

theorem StepSpec.workOk (h : StepSpec db op db') (hs : db.submissions[i]? = none) (hs' : db'.submissions[i]? = some sub') :
    WorkOk db' sub' := by
  have hnew : db.submissions.length ≤ i := List.getElem?_eq_none_iff.mp hs
  have hold : i < db'.submissions.length := (List.getElem?_eq_some_iff.mp hs').1
  rcases h.adds with hlen | ⟨saId, t, isZip, size, check, rfl, hadded⟩ | ⟨saId, t, rnd, rfl, hadded⟩
  · omega
  · have hlen := hadded.submissions_length
    obtain rfl : i = db.submissions.length := by omega
    exact hadded.workOk hs'
  · have hlen : db'.submissions.length = db.submissions.length + 1 := (hadded.madeOn (by omega)).1
    obtain rfl : i = db.submissions.length := by omega
    exact hadded.workOk (by omega) hs'

/-! The attempts -/

theorem scoreAttempt_passed {a : QuizAttempt} (h : a.scoreAttempt.isPassed = true) : 0 < a.scoreAttempt.maxScore := by
  unfold QuizAttempt.scoreAttempt at h ⊢
  split_ifs at h ⊢ with hfail
  have hboth := Bool.and_eq_true_iff.mp h
  exact of_decide_eq_true hboth.1

theorem scored_of_result {a b : QuizAttempt} (hst : a.studentId.isSome = true) (h : a.result = b.scoreAttempt.result) :
    a.Scored := by
  have hscore : a.score = some b.scoreAttempt.score := congrArg Prod.fst h
  have hmax : a.maxScore = some b.scoreAttempt.maxScore := congrArg (·.2.1) h
  have hpassed : a.isPassed = some b.scoreAttempt.isPassed := congrArg (·.2.2) h
  refine ⟨hst, fun hp => ⟨_, _, hscore, hmax, scoreAttempt_passed ?_⟩⟩
  rw [← passed_of_isPassed hpassed, hp]

theorem scored_regrade {a : QuizAttempt} (q : ℕ) (h : a.Scored) : (a.regrade q).Scored :=
  scored_of_result h.student (regrade_result a q)

theorem scored_setAttempt {k : ℕ} {a₁ : QuizAttempt} (h : ∀ a ∈ db.quizAttempts, a.Scored) (h₁ : a₁.Scored) :
    ∀ a ∈ (db.setAttempt k fun _ => a₁).quizAttempts, a.Scored := by
  intro a ha
  obtain ⟨j, hj⟩ := List.mem_iff_getElem?.mp ha
  obtain ⟨b, hb, rfl⟩ := Table.getElem?_modify_some hj
  split_ifs
  · exact h₁
  · exact h b (List.mem_of_getElem? hb)

theorem scored_step (h : ∀ a ∈ db.quizAttempts, a.Scored) (op : Op) : ∀ a ∈ (db.step op).quizAttempts, a.Scored := by
  intro a ha
  rcases attemptRows_step db op with hsame | ⟨hnew, hrows⟩ | ⟨hop, hquiz⟩ | hruled
  · rw [hsame] at ha
    exact h a ha
  · rw [hrows] at ha
    rcases List.mem_append.mp ha with ha | ha
    · exact h a ha
    · rw [List.mem_singleton] at ha
      subst ha
      exact ⟨by rw [hnew.student]; rfl, fun hp => by simp [QuizAttempt.passed, hnew.unpassed] at hp⟩
  · generalize db.step op = db' at ha hquiz
    cases hquiz with
    | same => exact h a ha
    | @edited a₀ a₁ ha₀ hrun he =>
      have hold := h a₀ (List.mem_of_getElem? ha₀)
      refine scored_setAttempt h ?_ a ha
      rw [he]
      exact ⟨hold.student, hold.points⟩
    | @finished a₀ a₁ st _ ha₀ hrun he hst hends hfin =>
      have hold := h a₀ (List.mem_of_getElem? ha₀)
      rw [hfin.within.quizAttempts] at ha
      refine scored_setAttempt h (scored_of_result ?_ (finishedAttempt_result db a₁ st)) a ha
      rw [finishedAttempt_studentId, he]
      exact hold.student
  · rw [hruled] at ha
    obtain ⟨b, hb, rfl⟩ := List.mem_map.mp ha
    split_ifs
    · exact scored_regrade _ (h b hb)
    · exact h b hb

end

/-! The portal -/

section

variable {isTest : ℕ → Bool} {p p' p₀ : Portal} {op : PortalOp} {ops : List PortalOp}

/-- A step that passes the checks is a step; one that does not is undone. -/
theorem checkedStep_cases (isTest : ℕ → Bool) (p : Portal) (op : PortalOp) : p.checkedStep isTest op = p ∨
    p.checkedStep isTest op = p.step isTest op ∧ (∀ a ∈ (p.step isTest op).db.quizAttempts, a.scoreCheck = true) ∧
      ∀ x cfg, op = .apply x cfg → cfg.validateTeacherScores = .ok () := by
  unfold Portal.checkedStep
  dsimp only
  split_ifs with hpass
  · rw [Bool.and_eq_true, List.all_eq_true] at hpass
    refine .inr ⟨rfl, hpass.2, ?_⟩
    rintro x cfg rfl
    have hok : cfg.validateTeacherScores.isOk = true := hpass.1
    rcases hvalid : cfg.validateTeacherScores with e | u
    · rw [hvalid] at hok
      cases hok
    · rfl
  · exact .inl rfl

theorem workOk_request (ok : p.WorkOk) (op : Op) (i : ℕ) (sub' : Submission)
    (hs' : (p.db.step op).submissions[i]? = some sub') : WorkOk (p.db.step op) sub' := by
  rcases hs : p.db.submissions[i]? with _ | sub
  · exact (step_spec p.db op).workOk hs hs'
  · exact (ok.subs i sub hs).evolves (evolves_step p.db op) (step_spec p.db op).gradesDone hs hs'

theorem WorkOk.squads {db db' : Db} {sub : Submission} (ok : WorkOk db sub) (h : db.Regroups db') : WorkOk db' sub := by
  have hrows : db'.studentsAssignments = db.studentsAssignments := by rw [h.rest]
  refine ⟨?_, fun q hq => ?_, ok.graded⟩
  · rw [h.rest]
    exact ok.owned
  · obtain ⟨s, row, hs, hl, hrow, hm⟩ := ok.member q hq
    exact ⟨s, row, h.kept q s hs hl, hl, by rw [hrows, hrow], hm⟩

theorem WorkOk.applies {db db' : Db} {x : ℕ} {cfg old : SubjectConfig} {sub : Submission} (ok : WorkOk db sub)
    (h : db.applyConfig x cfg old = .ok db') : WorkOk db' sub := by
  have hconf := configures_applyConfig h
  refine ⟨?_, fun q hq => ?_, ok.graded⟩
  · obtain ⟨row, asg, hrow, hasg⟩ := ok.owned
    obtain ⟨row', hrow', -, hrowasg⟩ := hconf.rows _ row hrow
    obtain ⟨asg', hasg', -⟩ := (applyConfig_keeps h).1 _ asg hasg
    exact ⟨row', asg', hrow', by rw [hrowasg, hasg']⟩
  · obtain ⟨s, row, hs, hl, hrow, hm⟩ := ok.member q hq
    obtain ⟨row', hrow', hst, -⟩ := hconf.rows _ row hrow
    exact ⟨s, row', by rw [hconf.squads, hs], hl, hrow', hst ▸ hm⟩

theorem Portal.WorkOk.step (ok : p.WorkOk) (op : PortalOp) : (p.checkedStep isTest op).WorkOk := by
  rcases checkedStep_cases isTest p op with hundone | ⟨hstep, hchecks, -⟩
  · rw [hundone]
    exact ok
  · rw [hstep]
    refine ⟨ok.consistent.step op, ?_, ?_, hchecks⟩
    · cases op with
      | request op => exact workOk_request ok op
      | squad op =>
        intro i sub hs
        have hregroups := (squadStep_spec isTest p.db op).regroups
        change (p.db.squadStep isTest op).submissions[i]? = some sub at hs
        rw [hregroups.rest] at hs
        exact (ok.subs i sub hs).squads hregroups
      | apply x cfg =>
        unfold Portal.step
        dsimp only
        split
        · rename_i db' h
          intro i sub hs
          change db'.submissions[i]? = some sub at hs
          rw [(configures_applyConfig h).submissions] at hs
          exact (ok.subs i sub hs).applies h
        · exact ok.subs
    · cases op with
      | request op => exact scored_step ok.attempts op
      | squad op =>
        have hrest := (squadStep_spec isTest p.db op).regroups.rest
        change ∀ a ∈ (p.db.squadStep isTest op).quizAttempts, a.Scored
        rw [hrest]
        exact ok.attempts
      | apply x cfg =>
        unfold Portal.step
        dsimp only
        split
        · rename_i db' h
          change ∀ a ∈ db'.quizAttempts, a.Scored
          rw [(configures_applyConfig h).rest]
          exact ok.attempts
        · exact ok.attempts

/-- A portal without work and without squads. -/
structure Portal.Fresh (p : Portal) : Prop where
  squads : p.db.squads = []
  invites : p.db.squadInvites = []
  unique : p.db.UniqueRows
  submissions : p.db.submissions = []
  quizAttempts : p.db.quizAttempts = []

theorem Portal.Fresh.workOk (h : p.Fresh) : p.WorkOk where
  consistent := by
    refine ⟨⟨fun q q' s s' t hs => ?_, fun q s hs => ?_, fun inv hinv => ?_⟩, h.unique, fun i sub hs => ?_⟩
    · rw [h.squads] at hs
      cases hs
    · rw [h.squads] at hs
      cases hs
    · rw [h.invites] at hinv
      cases hinv
    · rw [h.submissions] at hs
      cases hs
  subs i sub hs := by
    rw [h.submissions] at hs
    cases hs
  attempts a ha := by
    rw [h.quizAttempts] at ha
    cases ha
  checked a ha := by
    rw [h.quizAttempts] at ha
    cases ha

theorem Portal.WorkOk.run (h : p₀.Fresh) (hrun : Run (Portal.checkedStep isTest) Any p₀ ops p) : p.WorkOk :=
  hrun.invariant h.workOk fun _ op ok _ => ok.step op

theorem Portal.WorkOk.owned (ok : p.WorkOk) : p.db.SubsOwned := by
  intro i sub hs
  obtain ⟨row, -, hrow, -⟩ := (ok.subs i sub hs).owned
  exact ⟨row, hrow⟩

end

end SubmissionsChecker

/-! ## Points

The points and the rules in every reachable state of the portal: the assignments are those of the
configs applied last, each scored one adds up to its grade range, and no points are negative. -/

namespace SubmissionsChecker

open Runs

structure Portal.PointsOk (p : Portal) : Prop where
  listed : p.db.Lists (entriesOf p.stored)
  nonneg : p.db.PointsNonneg

section

variable {isTest : ℕ → Bool} {p p₀ : Portal} {op : PortalOp} {ops : List PortalOp}

/-- The points of what an apply accepts add up. -/
theorem pointsFit_of_valid {cfg : SubjectConfig} (h : cfg.validateTeacherScores = .ok ()) :
    ∀ a ∈ cfg.assignments, a.2.PointsFit := by
  intro a ha hscored
  exact AssignmentBlock.pointsAddUp (validateTeacherScores_mem h ha hscored)

theorem Portal.PointsOk.step (ok : p.PointsOk) (op : PortalOp) : (p.checkedStep isTest op).PointsOk := by
  rcases checkedStep_cases isTest p op with hundone | ⟨hstep, -, hvalid⟩
  · rw [hundone]
    exact ok
  · rw [hstep]
    cases op with
    | request op =>
      have hev := evolves_step p.db op
      refine ⟨ok.listed.same hev.subjectsAssignments ?_, nonneg_step ok.nonneg op⟩
      change (p.db.step op).subjects.length = _
      rw [hev.subjects]
    | squad op =>
      have hrest := (squadStep_spec isTest p.db op).regroups.rest
      have hrows : (p.db.squadStep isTest op).studentsAssignments = p.db.studentsAssignments := by rw [hrest]
      refine ⟨ok.listed.same ?_ ?_, (KeepsPoints.same hrows).nonneg ok.nonneg⟩
      · change (p.db.squadStep isTest op).subjectsAssignments = _
        rw [hrest]
      · change (p.db.squadStep isTest op).subjects.length = _
        rw [hrest]
    | apply x cfg =>
      unfold Portal.step
      dsimp only
      split
      · rename_i db' h
        obtain ⟨hx, size, rfl⟩ := applyConfig_ok h
        exact ⟨(lists_executePlan size ok.listed hx (pointsFit_of_valid (hvalid x cfg rfl))).1,
          (keepsPoints_executePlan p.db x cfg (p.stored x) size).nonneg ok.nonneg⟩
      · exact ok

/-- A portal without work, as applies left it: rows for the configs stored, and no points. -/
structure Portal.Configured (p : Portal) : Prop where
  fresh : p.Fresh
  listed : p.db.Lists (entriesOf p.stored)
  points : ∀ r, p.db.pointsOn r = none

theorem Portal.PointsOk.run (h : p₀.Configured) (hrun : Run (Portal.checkedStep isTest) Any p₀ ops p) : p.PointsOk := by
  refine hrun.invariant ⟨h.listed, fun r scores hscores => ?_⟩ fun _ op ok _ => ok.step op
  rw [h.points r] at hscores
  cases hscores

end

end SubmissionsChecker
