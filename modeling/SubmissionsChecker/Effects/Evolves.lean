import SubmissionsChecker.Effects.Within

/-! Which steps write grades. Everything but `finalize_grade` leaves the grades and the stored
breakdowns alone, and a service that grades a submission does so last, once it is completed. -/

namespace SubmissionsChecker

/-- Every row keeps its grade and every submission its breakdown. -/
structure Ungraded (db db' : Db) : Prop where
  rows : ∀ (r : ℕ) row, db.studentsAssignments[r]? = some row →
    ∃ row', db'.studentsAssignments[r]? = some row' ∧ row'.grade = row.grade
  subs : ∀ (j : ℕ) sub, db.submissions[j]? = some sub →
    ∃ sub', db'.submissions[j]? = some sub' ∧ sub'.gradeBreakdown = sub.gradeBreakdown

namespace Ungraded

variable {db db₁ db₂ : Db}

theorem same (hr : db₁.studentsAssignments = db.studentsAssignments)
    (hs : db₁.submissions = db.submissions) : Ungraded db db₁ :=
  ⟨fun _ row h => ⟨row, by rw [hr, h], rfl⟩, fun _ sub h => ⟨sub, by rw [hs, h], rfl⟩⟩

theorem refl (db : Db) : Ungraded db db := .same rfl rfl

theorem trans (h₁ : Ungraded db db₁) (h₂ : Ungraded db₁ db₂) : Ungraded db db₂ where
  rows r row hr := by
    obtain ⟨row₁, hr₁, hg₁⟩ := h₁.rows r row hr
    obtain ⟨row₂, hr₂, hg₂⟩ := h₂.rows r row₁ hr₁
    exact ⟨row₂, hr₂, hg₂.trans hg₁⟩
  subs j sub hs := by
    obtain ⟨sub₁, hs₁, hb₁⟩ := h₁.subs j sub hs
    obtain ⟨sub₂, hs₂, hb₂⟩ := h₂.subs j sub₁ hs₁
    exact ⟨sub₂, hs₂, hb₂.trans hb₁⟩

end Ungraded

theorem ungraded_setSubmission (db : Db) (i : ℕ) {f : Submission → Submission}
    (hf : ∀ s, (f s).gradeBreakdown = s.gradeBreakdown) : Ungraded db (db.setSubmission i f) where
  rows _ row h := ⟨row, h, rfl⟩
  subs j sub h := by
    refine ⟨if i = j then f sub else sub, ?_, by split_ifs <;> simp [hf]⟩
    rw [Db.setSubmission_submissions, List.getElem?_modify, h]
    split_ifs <;> rfl

theorem ungraded_setStudentAssignment (db : Db) (r : ℕ) {f : StudentAssignment → StudentAssignment}
    (hf : ∀ row, (f row).grade = row.grade) : Ungraded db (db.setStudentAssignment r f) where
  rows j row h := by
    refine ⟨if r = j then f row else row, ?_, by split_ifs <;> simp [hf]⟩
    rw [Db.setStudentAssignment_studentsAssignments, List.getElem?_modify, h]
    split_ifs <;> rfl
  subs _ sub h := ⟨sub, h, rfl⟩

theorem ungraded_ensureSa (db : Db) (t asg : ℕ) : Ungraded db (db.ensureSa t asg).1 := by
  unfold Db.ensureSa
  split
  · exact .refl db
  · exact ⟨fun _ row h => ⟨row, Table.getElem?_append_old h, rfl⟩, fun _ sub h => ⟨sub, h, rfl⟩⟩

theorem ungraded_memberSaIds (members : List ℕ) (asg : ℕ) :
    ∀ db : Db, Ungraded db (db.memberSaIds members asg).1 := by
  induction members with
  | nil => exact .refl
  | cons m ms ih => exact fun db => (ungraded_ensureSa db m asg).trans (ih _)

theorem ungraded_latestSubmission (db : Db) (saId : ℕ) : Ungraded db (db.latestSubmission saId).1 := by
  unfold Db.latestSubmission Db.latestSubmissionFor Db.scopeSaIds
  split
  · exact .refl db
  · split
    · exact .refl db
    · dsimp only
      split
      · exact .refl db
      · exact ungraded_memberSaIds _ _ db

/-- `db'` is `db` with changes of the scope that grade nothing, and then at most the grade of
submission `i`, which is completed. -/
inductive Finalizes (scope : Scope) (i : ℕ) (db : Db) : Db → Prop
  | ungraded {db'} (w : Within scope db db') (u : Ungraded db db') : Finalizes scope i db db'
  | graded {db₁} (w : Within scope db db₁) (u : Ungraded db db₁) (hs : db₁.status i = some .completed) :
      Finalizes scope i db (db₁.finalizeGrade i)

namespace Finalizes

variable {scope : Scope} {i : ℕ} {db db₁ db₂ : Db}

theorem refl (scope : Scope) (i : ℕ) (db : Db) : Finalizes scope i db db := .ungraded (.refl _ _) (.refl _)

theorem within (h : Finalizes scope i db db₁) : Within scope db db₁ := by
  cases h with
  | ungraded w => exact w
  | graded w => exact w.trans ((within_finalizeGrade _ _).mono (.grades _))

theorem after (w : Within scope db db₁) (u : Ungraded db db₁) (h : Finalizes scope i db₁ db₂) :
    Finalizes scope i db db₂ := by
  cases h with
  | ungraded w' u' => exact .ungraded (w.trans w') (u.trans u')
  | graded w' u' hs => exact .graded (w.trans w') (u.trans u') hs

end Finalizes

@[simp] theorem ensureSa_submissions (db : Db) (t asg : ℕ) :
    (db.ensureSa t asg).1.submissions = db.submissions := by
  unfold Db.ensureSa
  split <;> rfl

@[simp] theorem memberSaIds_submissions (members : List ℕ) (asg : ℕ) :
    ∀ db : Db, (db.memberSaIds members asg).1.submissions = db.submissions := by
  induction members with
  | nil => exact fun _ => rfl
  | cons m ms ih => exact fun db => (ih _).trans (ensureSa_submissions db m asg)

@[simp] theorem writeGrades_submissions (grade : ℤ) (saIds : List ℕ) :
    ∀ db : Db, (db.writeGrades grade saIds).submissions = db.submissions := by
  induction saIds with
  | nil => exact fun _ => rfl
  | cons r rs ih => exact fun db => ih _

@[simp] theorem gradeTargets_submissions (db : Db) (i saId asgId : ℕ) :
    (db.gradeTargets i saId asgId).1.submissions = db.submissions := by
  unfold Db.gradeTargets
  split
  · rfl
  · exact memberSaIds_submissions _ _ db

theorem finalizeGrade_submissions_ne {db : Db} {i j : ℕ} (hij : j ≠ i) :
    (db.finalizeGrade i).submissions[j]? = db.submissions[j]? := by
  unfold Db.finalizeGrade
  split
  · rfl
  · split
    · rfl
    · split
      · rfl
      · dsimp only
        split
        · rfl
        · rw [Db.setSubmission_submissions, Table.getElem?_modify_ne _ (Ne.symm hij),
            writeGrades_submissions, gradeTargets_submissions]

/-- A breakdown appears only on the submission that is graded, and that one is completed. -/
theorem Finalizes.breakdown {scope : Scope} {i j : ℕ} {db db' : Db} {sub sub' : Submission}
    (h : Finalizes scope i db db') (hs : db.submissions[j]? = some sub)
    (hs' : db'.submissions[j]? = some sub') :
    sub'.gradeBreakdown = sub.gradeBreakdown ∨ (j = i ∧ sub'.status = .completed) := by
  cases h with
  | ungraded _ u =>
    obtain ⟨sub₁, h₁, hb⟩ := u.subs j sub hs
    rw [hs'] at h₁
    cases h₁
    exact .inl hb
  | @graded db₁ _ u hst =>
    by_cases hij : j = i
    · subst hij
      right
      have hsame := (within_finalizeGrade db₁ j).status_grades j
      rw [hst, Db.status, hs', Option.map_some, Option.some_inj] at hsame
      exact ⟨rfl, hsame⟩
    · left
      obtain ⟨sub₁, h₁, hb⟩ := u.subs j sub hs
      rw [finalizeGrade_submissions_ne hij, h₁] at hs'
      cases hs'
      exact hb

/-! ## How a step evolves

What no operation undoes. Rows, submissions and attempts are only added and keep what they
were created with, a passed attempt stays as it is, a finished one stays finished, a locked
squad stays locked, and enrolments only go. -/

/-- What a submission is created with. -/
def Submission.origin (s : Submission) : ℕ × SubmissionSourceType × Option ℕ × ℕ :=
  (s.studentsAssignmentId, s.sourceType, s.squadId, s.createdAt)

/-- What an attempt is created with. -/
def QuizAttempt.origin (a : QuizAttempt) :
    ℕ × Option ℕ × Option ℕ × Option ℕ × List QuestionSnapshot × ConfigSnapshot × ℕ :=
  (a.submissionId, a.studentId, a.pluginConfigId, a.pluginConfigVersion, a.questionsSnapshot,
    a.configSnapshot, a.startedAt)

/-- The subject and the members of a squad. -/
def Squad.roster (s : Squad) : ℕ × List ℕ := (s.subjectId, s.members)

/-- How an attempt changes. -/
structure AttemptKeeps (a a' : QuizAttempt) : Prop where
  origin : a'.origin = a.origin
  terminal : a.status.isTerminal = true → a'.status = a.status
  passed : a.status.isTerminal = true → a.passed = true → a' = a
  closed : (a.passed = true → a.status.isTerminal = true) → a'.passed = true → a'.status.isTerminal = true

structure Evolves (db db' : Db) : Prop where
  subjects : db'.subjects = db.subjects
  subjectsAssignments : db'.subjectsAssignments = db.subjectsAssignments
  pluginConfigs : db'.pluginConfigs = db.pluginConfigs
  rosters : db'.squads.map Squad.roster = db.squads.map Squad.roster
  locked : ∀ (q : ℕ) s, db.squads[q]? = some s → s.lockedAt.isSome = true →
    ∃ s', db'.squads[q]? = some s' ∧ s'.lockedAt.isSome = true
  enrolled : db'.subjectsStudents ⊆ db.subjectsStudents
  rows : ∀ (r : ℕ) row, db.studentsAssignments[r]? = some row → ∃ row', db'.studentsAssignments[r]? = some row' ∧
    row'.studentId = row.studentId ∧ row'.subjectsAssignmentId = row.subjectsAssignmentId
  unique : db.UniqueRows → db'.UniqueRows
  subs : ∀ (i : ℕ) sub, db.submissions[i]? = some sub →
    ∃ sub', db'.submissions[i]? = some sub' ∧ sub'.origin = sub.origin
  attempts : ∀ (k : ℕ) a, db.quizAttempts[k]? = some a →
    ∃ a', db'.quizAttempts[k]? = some a' ∧ AttemptKeeps a a'
  now : db.now ≤ db'.now

theorem AttemptKeeps.refl (a : QuizAttempt) : AttemptKeeps a a := ⟨rfl, fun _ => rfl, fun _ _ => rfl, id⟩

theorem AttemptKeeps.trans {a b c : QuizAttempt} (h₁ : AttemptKeeps a b) (h₂ : AttemptKeeps b c) :
    AttemptKeeps a c where
  origin := h₂.origin.trans h₁.origin
  terminal ht := by
    have hb := h₁.terminal ht
    exact (h₂.terminal (by rw [hb]; exact ht)).trans hb
  passed ht hp := by
    have := h₁.passed ht hp
    subst this
    exact h₂.passed ht hp
  closed hc := h₂.closed (h₁.closed hc)

/-- A passed attempt is finished. -/
def Db.PassedClosed (db : Db) : Prop :=
  ∀ a ∈ db.quizAttempts, a.passed = true → a.status.isTerminal = true

namespace Evolves

variable {db db₁ db₂ : Db}

theorem refl (db : Db) : Evolves db db :=
  ⟨rfl, rfl, rfl, rfl, fun _ s hs hl => ⟨s, hs, hl⟩, subset_rfl, fun _ r h => ⟨r, h, rfl, rfl⟩, id,
    fun _ s h => ⟨s, h, rfl⟩, fun _ a h => ⟨a, h, .refl a⟩, le_rfl⟩

theorem trans (h₁ : Evolves db db₁) (h₂ : Evolves db₁ db₂) : Evolves db db₂ where
  subjects := h₂.subjects.trans h₁.subjects
  subjectsAssignments := h₂.subjectsAssignments.trans h₁.subjectsAssignments
  pluginConfigs := h₂.pluginConfigs.trans h₁.pluginConfigs
  rosters := h₂.rosters.trans h₁.rosters
  locked q s hs hl := by
    obtain ⟨s₁, hs₁, hl₁⟩ := h₁.locked q s hs hl
    exact h₂.locked q s₁ hs₁ hl₁
  enrolled := h₂.enrolled.trans h₁.enrolled
  rows r row hr := by
    obtain ⟨row₁, hr₁, hs₁, ha₁⟩ := h₁.rows r row hr
    obtain ⟨row₂, hr₂, hs₂, ha₂⟩ := h₂.rows r row₁ hr₁
    exact ⟨row₂, hr₂, hs₂.trans hs₁, ha₂.trans ha₁⟩
  unique := h₂.unique ∘ h₁.unique
  subs i sub hs := by
    obtain ⟨sub₁, hs₁, ho₁⟩ := h₁.subs i sub hs
    obtain ⟨sub₂, hs₂, ho₂⟩ := h₂.subs i sub₁ hs₁
    exact ⟨sub₂, hs₂, ho₂.trans ho₁⟩
  attempts k a ha := by
    obtain ⟨a₁, ha₁, hk₁⟩ := h₁.attempts k a ha
    obtain ⟨a₂, ha₂, hk₂⟩ := h₂.attempts k a₁ ha₁
    exact ⟨a₂, ha₂, hk₁.trans hk₂⟩
  now := h₁.now.trans h₂.now

end Evolves

variable {db db' : Db}

theorem Within.evolves {scope : Scope} (h : Within scope db db') : Evolves db db' where
  subjects := h.subjects
  subjectsAssignments := h.subjectsAssignments
  pluginConfigs := h.pluginConfigs
  rosters := by rw [h.squads]
  locked q s hs hl := ⟨s, by rw [h.squads, hs], hl⟩
  enrolled := by rw [h.subjectsStudents]
  rows := h.rows
  unique := h.unique
  subs i sub hs := by
    obtain ⟨sub', hs', -⟩ := h.sub hs
    refine ⟨sub', hs', ?_⟩
    have := h.map_sub Submission.origin i fun s => by simp [Submission.origin]
    simpa [hs, hs'] using this
  attempts k a ha := ⟨a, by rw [h.quizAttempts, ha], .refl a⟩
  now := h.now.ge

/-- Tables other than these do not matter. -/
theorem evolves_setAttempt {k : ℕ} {f : QuizAttempt → QuizAttempt}
    (hf : ∀ a, db.quizAttempts[k]? = some a → AttemptKeeps a (f a)) : Evolves db (db.setAttempt k f) :=
  { Evolves.refl db with
    attempts := fun j a ha => by
      refine ⟨if k = j then f a else a, ?_, ?_⟩
      · rw [Db.setAttempt_quizAttempts, List.getElem?_modify, ha]
        split_ifs <;> rfl
      · split_ifs with hj
        · exact hf a (hj ▸ ha)
        · exact .refl a }

theorem evolves_setSubmission (db : Db) (i : ℕ) {f : Submission → Submission}
    (hf : ∀ s, (f s).origin = s.origin) : Evolves db (db.setSubmission i f) :=
  { Evolves.refl db with
    subs := fun j sub hs => by
      refine ⟨if i = j then f sub else sub, ?_, by split_ifs <;> simp [hf]⟩
      rw [Db.setSubmission_submissions, List.getElem?_modify, hs]
      split_ifs <;> rfl }

/-- What starts with an update of a submission. -/
theorem Evolves.before_set {i : ℕ} {f : Submission → Submission} (h : Evolves (db.setSubmission i f) db')
    (hf : ∀ s, (f s).origin = s.origin) : Evolves db db' :=
  (evolves_setSubmission db i hf).trans h

theorem evolves_addAttempt (db : Db) (a : QuizAttempt) :
    Evolves db { db with quizAttempts := db.quizAttempts ++ [a] } :=
  { Evolves.refl db with
    attempts := fun _ b hb => ⟨b, Table.getElem?_append_old hb, .refl b⟩ }

theorem evolves_lockOnSubmit (db : Db) (q : ℕ) : Evolves db (db.lockOnSubmit q) :=
  { Evolves.refl db with
    rosters := by
      apply List.ext_getElem?
      intro j
      unfold Db.lockOnSubmit
      rw [List.getElem?_map, List.getElem?_map, List.getElem?_modify]
      cases db.squads[j]? with
      | none => rfl
      | some s =>
        simp only [Option.map_eq_map, Option.map_some]
        split_ifs <;> rfl
    locked := fun j s hs hl => by
      refine ⟨s, ?_, hl⟩
      have hopen : s.lockedAt.isNone = false := by
        cases hlock : s.lockedAt with
        | none => rw [hlock] at hl; cases hl
        | some _ => rfl
      unfold Db.lockOnSubmit
      rw [List.getElem?_modify, hs]
      simp only [Option.map_eq_map, Option.map_some, hopen, Bool.false_eq_true, if_false, ite_self] }

theorem evolves_addSubmission (db : Db) (sub : Submission) : Evolves db (db.addSubmission sub) := by
  have hadd : Evolves db { db with submissions := db.submissions ++ [sub] } :=
    { Evolves.refl db with
      subs := fun _ s hs => ⟨s, Table.getElem?_append_old hs, rfl⟩ }
  unfold Db.addSubmission
  dsimp only
  split
  · exact hadd
  · exact hadd.trans (evolves_lockOnSubmit _ _)

/-! What is then the same for every operation -/

namespace Evolves

theorem latestConfig (h : Evolves db db') (subjectId : ℕ) : db'.latestConfig subjectId = db.latestConfig subjectId := by
  simp only [Db.latestConfig, h.pluginConfigs]

theorem squad (h : Evolves db db') (q : ℕ) :
    (db'.squads[q]?).map Squad.roster = (db.squads[q]?).map Squad.roster := by
  rw [← List.getElem?_map, h.rosters, List.getElem?_map]

theorem squadOf (h : Evolves db db') (subjectId studentId : ℕ) :
    db'.squadOf subjectId studentId = db.squadOf subjectId studentId := by
  have hids : ∀ squads : List Squad,
      Table.findId (fun s => s.subjectId == subjectId && s.members.contains studentId) squads =
        Table.findId (fun r => r.1 == subjectId && r.2.contains studentId) (squads.map Squad.roster) :=
    fun squads => (Table.findId_map Squad.roster
      (fun r : ℕ × List ℕ => r.1 == subjectId && r.2.contains studentId) squads).symm
  unfold Db.squadOf
  rw [hids, hids, h.rosters]

/-- The students that passed the quiz stay passed. -/
theorem passedStudentIds (h : Evolves db db') (hc : db.PassedClosed) {i t : ℕ} (ht : t ∈ db.passedStudentIds i) :
    t ∈ db'.passedStudentIds i := by
  simp only [Db.passedStudentIds, List.mem_filterMap, List.mem_filter] at ht ⊢
  obtain ⟨a, ⟨ha, hp⟩, hst⟩ := ht
  obtain ⟨k, hk⟩ := List.mem_iff_getElem?.mp ha
  rw [Bool.and_eq_true] at hp
  obtain ⟨a', hk', hkeep⟩ := h.attempts k a hk
  rw [hkeep.passed (hc a ha hp.2) hp.2] at hk'
  exact ⟨a, ⟨List.mem_of_getElem? hk', by rw [Bool.and_eq_true]; exact hp⟩, hst⟩

end Evolves

end SubmissionsChecker
