import SubmissionsChecker.Invariants.Reachable

/-! What the look-ups of shared work find: a locked squad's submission is in the scope of each of
its members. -/

namespace SubmissionsChecker

/-- A student is in one squad of a subject. -/
def Db.OneSquad (db : Db) : Prop :=
  ∀ (q q' : ℕ) s s' t, db.squads[q]? = some s → db.squads[q']? = some s' → s.subjectId = s'.subjectId →
    t ∈ s.members → t ∈ s'.members → q = q'

/-- Submission `j` is squad `q`'s work for the assignment: made for the squad, on a member's row. -/
structure Db.SquadWork (db : Db) (q asgId j : ℕ) (sub : Submission) (row : StudentAssignment) : Prop where
  submission : db.submissions[j]? = some sub
  squad : sub.squadId = some q
  owned : db.studentsAssignments[sub.studentsAssignmentId]? = some row
  assignment : row.subjectsAssignmentId = asgId

/-- What a submission of a shared assignment satisfies whatever requests run side by side. -/
structure SharedOk (db : Db) (sub : Submission) : Prop where
  owned : ∃ row asg, db.studentsAssignments[sub.studentsAssignmentId]? = some row ∧
    db.subjectsAssignments[row.subjectsAssignmentId]? = some asg ∧
    sub.squadId = db.squadOf asg.subjectId row.studentId
  locked : ∀ q, sub.squadId = some q → ∃ s, db.squads[q]? = some s ∧ s.lockedAt.isSome = true
  scored : ∀ asg, db.assignmentOf sub.studentsAssignmentId = some asg → asg.config.isScoredMode = true →
    sub.status.isReopenable = false

structure Db.Shared (db : Db) : Prop where
  setup : db.Setup
  unique : db.UniqueRows
  subs : ∀ (i : ℕ) sub, db.submissions[i]? = some sub → SharedOk db sub

section

variable {db db' : Db} {saId subjectId t q r i j asgId : ℕ} {sa row : StudentAssignment} {asg : SubjectsAssignment}
  {s : Squad} {sub : Submission}

theorem newestOf_isSome {ids : List ℕ} (h : ids ≠ []) : ∃ i, db.newestOf ids = some i := by
  obtain ⟨i, hi⟩ := List.exists_mem_of_ne_nil _ h
  unfold Db.newestOf
  induction ids using List.reverseRecOn with
  | nil => cases hi
  | append_singleton ids j ih =>
    rw [List.foldl_append, List.foldl_cons, List.foldl_nil]
    split
    · exact ⟨j, rfl⟩
    · split_ifs
      · exact ⟨j, rfl⟩
      · exact ⟨_, rfl⟩

/-- A student's row is the one `ensureSa` finds. -/
theorem ensureSa_of_row (hunique : db.UniqueRows) (hrow : db.studentsAssignments[r]? = some row) :
    db.ensureSa row.studentId row.subjectsAssignmentId = (db, r) := by
  unfold Db.ensureSa
  split
  · rename_i r' hr'
    obtain ⟨row', hrow', hp⟩ := Table.findId_some hr'
    simp only [Bool.and_eq_true, beq_iff_eq] at hp
    rw [hunique r' r row' row hrow' hrow hp.1 hp.2]
  · rename_i hnone
    have hno := Table.findId_none hnone row (List.mem_of_getElem? hrow)
    simp at hno

/-- The members' rows are all there. -/
theorem mem_memberSaIds (members : List ℕ) (asgId : ℕ) : ∀ (db : Db) (row : StudentAssignment), db.UniqueRows →
    db.studentsAssignments[r]? = some row → row.studentId ∈ members → row.subjectsAssignmentId = asgId →
    r ∈ (db.memberSaIds members asgId).2 := by
  induction members with
  | nil => intro db row _ _ h; cases h
  | cons m ms ih =>
    intro db row hunique hrow hmem hasg
    rcases List.mem_cons.mp hmem with hm | hm
    · rw [Db.memberSaIds, ← hm, ← hasg, ensureSa_of_row hunique hrow]
      exact List.mem_cons_self
    · have hw := within_ensureSa .grades db m asgId
      obtain ⟨row', hrow', hst', hasg'⟩ := hw.rows r row hrow
      exact List.mem_cons_of_mem _ (ih (db.ensureSa m asgId).1 row' (hw.unique hunique) hrow' (hst' ▸ hm) (hasg'.trans hasg))

theorem activeSquad_of_member (hone : db.OneSquad) (hs : db.squads[q]? = some s) (hsubject : s.subjectId = subjectId)
    (ht : t ∈ s.members) (hlocked : s.lockedAt.isSome = true) : db.activeSquad subjectId t = some q := by
  cases hfind : db.activeSquad subjectId t with
  | none =>
    have hno := Table.findId_none hfind s (List.mem_of_getElem? hs)
    simp [hsubject, ht, hlocked] at hno
  | some q' =>
    obtain ⟨s', hs', hsubject', ht', -⟩ := activeSquad_some hfind
    rw [hone q' q s' s t hs' hs (by rw [hsubject', hsubject]) ht' ht]

theorem squadOf_of_member (hsetup : db.Setup) (hs : db.squads[q]? = some s) (ht : t ∈ s.members) :
    db.squadOf s.subjectId t = some q := by
  cases hfind : db.squadOf s.subjectId t with
  | none =>
    have hno := Table.findId_none hfind s (List.mem_of_getElem? hs)
    simp [ht] at hno
  | some q' =>
    obtain ⟨s', hs', hp⟩ := Table.findId_some hfind
    simp only [Bool.and_eq_true, beq_iff_eq, List.contains_iff_mem] at hp
    rw [hsetup.oneSquad q' q s' s t hs' hs hp.1 hp.2 ht]

/-- A member of a locked squad finds its squad's work. -/
theorem latestSubmission_covers (hunique : db.UniqueRows) (hsetup : db.Setup)
    (hsa : db.studentsAssignments[saId]? = some sa) (hasg : db.subjectsAssignments[sa.subjectsAssignmentId]? = some asg)
    (hs : db.squads[q]? = some s) (hsubject : s.subjectId = asg.subjectId) (hlocked : s.lockedAt.isSome = true)
    (ht : sa.studentId ∈ s.members) (hwork : db.SquadWork q sa.subjectsAssignmentId j sub row)
    (hrow : row.studentId ∈ s.members) : ∃ i, (db.latestSubmission saId).2 = some i := by
  have hactive := activeSquad_of_member hsetup.oneSquad hs hsubject ht hlocked
  unfold Db.latestSubmission Db.latestSubmissionFor Db.scopeSaIds
  simp only [hsa, hasg, hactive, Option.bind_some, hs]
  refine newestOf_isSome (List.ne_nil_of_mem (a := j) (Table.mem_idsWhere.mpr ⟨sub, ?_, ?_⟩))
  · rw [memberSaIds_submissions]
    exact hwork.submission
  · simpa using mem_memberSaIds s.members sa.subjectsAssignmentId db row hunique hwork.owned hrow hwork.assignment

theorem SubmissionOk.shared (h : SubmissionOk db i sub) (hs : db.submissions[i]? = some sub) : SharedOk db sub where
  owned := h.owned
  locked := h.locked
  scored asg hasg hscored := by
    have hstatus := (h.scored (by rw [Db.isScoredSubmission, hs, Option.bind_some, hasg]; exact hscored)).2
    cases hst : sub.status <;> first | rfl | (rw [hst] at hstatus; cases hstatus)

theorem Db.Ok.shared (h : db.Ok) : db.Shared :=
  ⟨h.setup, h.unique, fun i sub hs => (h.subs i sub hs).shared hs⟩

theorem SharedOk.assignment (h : SharedOk db sub) : ∃ row asg, db.studentsAssignments[sub.studentsAssignmentId]? = some row ∧
    db.subjectsAssignments[row.subjectsAssignmentId]? = some asg ∧ db.assignmentOf sub.studentsAssignmentId = some asg := by
  obtain ⟨row, asg, hrow, hasg, -⟩ := h.owned
  exact ⟨row, asg, hrow, hasg, by rw [Db.assignmentOf, hrow, Option.bind_some, hasg]⟩

/-- A squad's work is on a member's row. -/
theorem SharedOk.member (h : SharedOk db sub) (hq : sub.squadId = some q) :
    ∃ row asg s, db.studentsAssignments[sub.studentsAssignmentId]? = some row ∧
      db.subjectsAssignments[row.subjectsAssignmentId]? = some asg ∧ db.squads[q]? = some s ∧
      s.subjectId = asg.subjectId ∧ row.studentId ∈ s.members := by
  obtain ⟨row, asg, hrow, hasg, hsquad⟩ := h.owned
  rw [hq] at hsquad
  obtain ⟨s, hs, hp⟩ := Table.findId_some hsquad.symm
  simp only [Bool.and_eq_true, beq_iff_eq, List.contains_iff_mem] at hp
  exact ⟨row, asg, s, hrow, hasg, hs, hp.1, hp.2⟩

theorem SharedOk.evolves {sub' : Submission} (ok : SharedOk db sub) (h : Evolves db db')
    (hs : db.submissions[i]? = some sub) (hs' : db'.submissions[i]? = some sub')
    (hst : sub'.status.isReopenable = true → sub.status.isReopenable = true) : SharedOk db' sub' := by
  obtain ⟨s, hs₁, hsaid, -, hsquadId, -⟩ := h.submission hs
  rw [hs'] at hs₁
  cases hs₁
  obtain ⟨row, asg, hrow, hasg, hq⟩ := ok.owned
  have hassigned : db.assignmentOf sub.studentsAssignmentId = some asg := by
    rw [Db.assignmentOf, hrow, Option.bind_some, hasg]
  refine ⟨?_, fun q hq => ?_, fun asg' hasg' hscored => ?_⟩
  · obtain ⟨row', hrow', hst', hrowasg⟩ := h.rows _ row hrow
    exact ⟨row', asg, by rw [hsaid, hrow'], by rw [hrowasg, h.subjectsAssignments, hasg],
      by rw [hsquadId, hq, hst', h.squadOf]⟩
  · obtain ⟨s, hqs, hlock⟩ := ok.locked q (hsquadId ▸ hq)
    exact h.locked q s hqs hlock
  · rw [hsaid, h.assignmentOf hassigned, Option.some_inj] at hasg'
    subst hasg'
    have hno := ok.scored asg hassigned hscored
    cases hre : sub'.status.isReopenable with
    | false => rfl
    | true => rw [hst hre] at hno; cases hno

/-- A commit that keeps the submissions and adds proper ones. -/
theorem Db.Shared.evolves (ok : db.Shared) (h : Evolves db db')
    (hst : ∀ (i : ℕ) sub sub', db.submissions[i]? = some sub → db'.submissions[i]? = some sub' →
      sub'.status.isReopenable = true → sub.status.isReopenable = true)
    (hnew : ∀ (i : ℕ) sub', db.submissions[i]? = none → db'.submissions[i]? = some sub' → SharedOk db' sub') :
    db'.Shared := by
  refine ⟨h.setup ok.setup, h.unique ok.unique, fun i sub' hs' => ?_⟩
  cases hs : db.submissions[i]? with
  | none => exact hnew i sub' hs hs'
  | some sub => exact (ok.subs i sub hs).evolves h hs hs' (hst i sub sub' hs hs')

theorem SubsKeep.status (h : SubsKeep db db') {sub' : Submission} (hs : db.submissions[i]? = some sub)
    (hs' : db'.submissions[i]? = some sub') : sub'.status = sub.status := by
  obtain ⟨s, hs₁, hst, -⟩ := h i sub hs
  rw [hs'] at hs₁
  cases hs₁
  exact hst

end

end SubmissionsChecker
