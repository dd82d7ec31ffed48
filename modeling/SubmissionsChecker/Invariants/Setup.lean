import SubmissionsChecker.Effects.Moves

/-! The setup of a subject, which no operation changes: what the assignment rows mirror of the
config, and who shares a squad. What a submission is about is read from it. -/

namespace SubmissionsChecker

/-- The subjects as a config was applied and the squads were formed. -/
structure Db.Setup (db : Db) : Prop where
  /-- `_build_assignment_config` copies the review mode to the assignment row. -/
  mirrored : ∀ (asgId : ℕ) asg (c : ℕ) cfg code block, db.subjectsAssignments[asgId]? = some asg →
    db.latestConfig asg.subjectId = some c → db.pluginConfigs[c]? = some cfg → asg.code = some code →
    cfg.assignments.lookup code = some block → asg.config.reviewMode = block.reviewMode
  squadsEnabled : ∀ (q : ℕ) s, db.squads[q]? = some s →
    ∃ subject, db.subjects[s.subjectId]? = some subject ∧ subject.squadMaxSize.isSome = true
  oneSquad : ∀ (q q' : ℕ) s s' t, db.squads[q]? = some s → db.squads[q']? = some s' →
    s.subjectId = s'.subjectId → t ∈ s.members → t ∈ s'.members → q = q'

namespace Db

/-- The block the latest config holds for the assignment of submission `i`. -/
def latestBlock (db : Db) (i : ℕ) : Option PluginAssignment :=
  (db.submissions[i]?).bind fun sub => (db.assignmentOf sub.studentsAssignmentId).bind fun asg =>
    (db.latestConfig asg.subjectId).bind (db.blockIn · i)

def latestMode (db : Db) (i : ℕ) : Option ReviewMode :=
  (db.latestBlock i).map fun block => block.reviewMode.getD .testsOnly

/-- The students a submission belongs to: its owner, or the members of its squad. -/
def belongsTo (db : Db) (i : ℕ) : List ℕ :=
  match db.squadForSubmission i with
  | none => ((db.submissions[i]?).bind fun sub =>
      (db.studentsAssignments[sub.studentsAssignmentId]?).map (·.studentId)).toList
  | some squad => squad.members

/-- Every enrolled member of its squad has passed submission `i`. -/
def MembersPassed (db : Db) (i : ℕ) : Prop :=
  ∀ squad, db.squadForSubmission i = some squad → ∀ t ∈ db.enrolledMemberIds squad, t ∈ db.passedStudentIds i

end Db

section

variable {db db' : Db} {i : ℕ} {sub : Submission} {asg : SubjectsAssignment}

theorem roster_get {s : Squad} {q : ℕ} (h : db'.squads.map Squad.roster = db.squads.map Squad.roster)
    (hs : db'.squads[q]? = some s) : ∃ s₀, db.squads[q]? = some s₀ ∧ s₀.subjectId = s.subjectId ∧
      s₀.members = s.members := by
  have hget := congrArg (fun l : List (ℕ × List ℕ) => l[q]?) h
  simp only [List.getElem?_map, hs, Option.map_some] at hget
  obtain ⟨s₀, hs₀, hr⟩ := Option.map_eq_some_iff.mp hget.symm
  exact ⟨s₀, hs₀, congrArg Prod.fst hr, congrArg Prod.snd hr⟩

theorem Evolves.setup (h : Evolves db db') (hs : db.Setup) : db'.Setup where
  mirrored asgId asg c cfg code block hasg hc hcfg := by
    rw [h.subjectsAssignments] at hasg
    rw [h.latestConfig] at hc
    rw [h.pluginConfigs] at hcfg
    exact hs.mirrored asgId asg c cfg code block hasg hc hcfg
  squadsEnabled q s hq := by
    obtain ⟨s₀, hs₀, hsubject, -⟩ := roster_get h.rosters hq
    rw [h.subjects, ← hsubject]
    exact hs.squadsEnabled q s₀ hs₀
  oneSquad q q' s s' t hq hq' hsubject ht ht' := by
    obtain ⟨s₀, hs₀, hsub₀, hm₀⟩ := roster_get h.rosters hq
    obtain ⟨s₁, hs₁, hsub₁, hm₁⟩ := roster_get h.rosters hq'
    exact hs.oneSquad q q' s₀ s₁ t hs₀ hs₁ (by rw [hsub₀, hsub₁, hsubject]) (by rwa [hm₀]) (by rwa [hm₁])

/-- The squad of an upload is the squad of the student, when there is one. -/
theorem squadForUpload_eq {subjectId t : ℕ} {refuse : Raised} {squad : Option ℕ} (hs : db.Setup)
    (h : db.squadForUpload subjectId t refuse = .ok squad) : squad = db.squadOf subjectId t := by
  have hnone : (∀ subject, db.subjects[subjectId]? = some subject → subject.squadMaxSize.isNone = true) →
      db.squadOf subjectId t = none := by
    intro hoff
    cases hq : db.squadOf subjectId t with
    | none => rfl
    | some q =>
      obtain ⟨s, hsq, hp⟩ := Table.findId_some hq
      simp only [Bool.and_eq_true, beq_iff_eq] at hp
      obtain ⟨subject, hsubject, hsome⟩ := hs.squadsEnabled q s hsq
      rw [hp.1] at hsubject
      have := hoff subject hsubject
      rw [Option.isNone_iff_eq_none] at this
      rw [this] at hsome
      cases hsome
  unfold Db.squadForUpload at h
  split at h
  · rename_i hsubject
    cases h
    exact (hnone fun subject hs => by rw [hsubject] at hs; cases hs).symm
  · rename_i subject hsubject
    split_ifs at h with hoff hwait
    · cases h
      refine (hnone fun subject' hs => ?_).symm
      rw [hsubject] at hs
      cases hs
      exact hoff
    · cases h
      rfl

/-! What a submission is about stays the same -/

theorem Evolves.submission (h : Evolves db db') (hs : db.submissions[i]? = some sub) :
    ∃ sub', db'.submissions[i]? = some sub' ∧ sub'.studentsAssignmentId = sub.studentsAssignmentId ∧
      sub'.sourceType = sub.sourceType ∧ sub'.squadId = sub.squadId ∧ sub'.createdAt = sub.createdAt := by
  obtain ⟨sub', hs', ho⟩ := h.subs i sub hs
  simp only [Submission.origin, Prod.mk.injEq] at ho
  exact ⟨sub', hs', ho⟩

theorem Evolves.assignmentOf {saId : ℕ} (h : Evolves db db') (hasg : db.assignmentOf saId = some asg) :
    db'.assignmentOf saId = some asg := by
  unfold Db.assignmentOf at hasg ⊢
  obtain ⟨row, hrow, hasg⟩ := Option.bind_eq_some_iff.mp hasg
  obtain ⟨row', hrow', -, hrowasg⟩ := h.rows _ row hrow
  rw [hrow', Option.bind_some, hrowasg, h.subjectsAssignments]
  exact hasg

theorem latestBlock_eq (hs : db.submissions[i]? = some sub)
    (hasg : db.assignmentOf sub.studentsAssignmentId = some asg) : db.latestBlock i =
      (db.latestConfig asg.subjectId).bind fun c => (db.pluginConfigs[c]?).bind fun cfg =>
        asg.code.map fun _ => cfg.assignment asg.code := by
  simp only [Db.latestBlock, Db.blockIn, hs, hasg, Option.bind_some]

theorem Evolves.latestBlock (h : Evolves db db') (hs : db.submissions[i]? = some sub)
    (hasg : db.assignmentOf sub.studentsAssignmentId = some asg) : db'.latestBlock i = db.latestBlock i := by
  obtain ⟨sub', hs', hsa, -⟩ := h.submission hs
  rw [latestBlock_eq hs hasg, latestBlock_eq hs' (by rw [hsa]; exact h.assignmentOf hasg), h.latestConfig,
    h.pluginConfigs]

theorem Evolves.latestMode (h : Evolves db db') (hs : db.submissions[i]? = some sub)
    (hasg : db.assignmentOf sub.studentsAssignmentId = some asg) : db'.latestMode i = db.latestMode i := by
  rw [Db.latestMode, Db.latestMode, h.latestBlock hs hasg]

/-- A squad submission stays with its squad. -/
theorem Evolves.squadForSubmission (h : Evolves db db') (hs : db.submissions[i]? = some sub) :
    (db'.squadForSubmission i).map Squad.roster = (db.squadForSubmission i).map Squad.roster := by
  obtain ⟨sub', hs', -, -, hq, -⟩ := h.submission hs
  simp only [Db.squadForSubmission, hs, hs', Option.bind_some, hq]
  cases sub.squadId with
  | none => rfl
  | some q => exact h.squad q

theorem Evolves.squad_some (h : Evolves db db') (hs : db.submissions[i]? = some sub) {squad' : Squad}
    (hq : db'.squadForSubmission i = some squad') : ∃ squad, db.squadForSubmission i = some squad ∧
      squad.subjectId = squad'.subjectId ∧ squad.members = squad'.members := by
  have hr := h.squadForSubmission hs
  rw [hq, Option.map_some] at hr
  obtain ⟨squad, hsquad, heq⟩ := Option.map_eq_some_iff.mp hr.symm
  exact ⟨squad, hsquad, congrArg Prod.fst heq, congrArg Prod.snd heq⟩

theorem Evolves.squad_none (h : Evolves db db') (hs : db.submissions[i]? = some sub)
    (hq : db'.squadForSubmission i = none) : db.squadForSubmission i = none := by
  have hr := h.squadForSubmission hs
  rw [hq, Option.map_none] at hr
  exact Option.map_eq_none_iff.mp hr.symm

theorem Evolves.membersPassed (h : Evolves db db') (hc : db.PassedClosed) (hs : db.submissions[i]? = some sub)
    (hp : db.MembersPassed i) : db'.MembersPassed i := by
  intro squad' hq' t ht
  obtain ⟨squad, hq, hsubject, hmembers⟩ := h.squad_some hs hq'
  refine h.passedStudentIds hc (hp squad hq t ?_)
  simp only [Db.enrolledMemberIds, List.mem_filter, decide_eq_true_eq] at ht ⊢
  rw [hmembers, hsubject]
  exact ⟨ht.1, h.enrolled ht.2⟩

theorem membersPassed_of_complete (h : db.quizComplete i = true) : db.MembersPassed i := by
  intro squad hq t ht
  unfold Db.quizComplete at h
  rw [hq] at h
  simp only [Bool.and_eq_true, List.all_eq_true] at h
  simpa using h.2 t ht

theorem checkMode_latest (hs : db.submissions[i]? = some sub)
    (hasg : db.assignmentOf sub.studentsAssignmentId = some asg)
    (hpin : ∀ c, sub.pluginConfigId = some c → db.latestConfig asg.subjectId = some c) :
    db.checkMode i = db.latestMode i := by
  have hconfig : db.checkConfig i = db.latestConfig asg.subjectId := by
    simp only [Db.checkConfig, hs, hasg, Option.bind_some]
    cases hp : sub.pluginConfigId with
    | none => rfl
    | some c => exact (hpin c hp).symm
  rw [Db.checkMode, hconfig, Db.latestMode, Db.latestBlock, hs, Option.bind_some, hasg, Option.bind_some]
  cases db.latestConfig asg.subjectId <;> rfl

theorem pinnedBlock_latest {c : ℕ} (hs : db.submissions[i]? = some sub)
    (hasg : db.assignmentOf sub.studentsAssignmentId = some asg) (hp : sub.pluginConfigId = some c)
    (hc : db.latestConfig asg.subjectId = some c) : db.pinnedBlock i = db.latestBlock i := by
  rw [pinnedBlock_eq, Db.latestBlock, hs, Option.bind_some, Option.bind_some, hasg, Option.bind_some, hp, hc]

end

end SubmissionsChecker
