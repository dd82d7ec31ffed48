import SubmissionsChecker.Services.QuizOpen
import SubmissionsChecker.Services.QuizGrants

/-! What a service may change. `Within scope db db'` says that `db'` differs from `db` at most
in students' rows (their ids kept) and in the fields of submissions that `scope` names; the
facts a quiz outcome reads are then the same in both. -/

namespace SubmissionsChecker

/-- `grades`: stored breakdowns only. `status i`: the status of submission `i` as well;
`statuses`: of every submission. `task i`: also what a check, a review or a re-run writes to
`i`, and outbox messages. -/
inductive Scope
  | grades
  | status (i : ℕ)
  | statuses
  | task (i : ℕ)

namespace Scope

/-- The part of submission `j` that the scope keeps. -/
def keep : Scope → ℕ → Submission → Submission
  | grades, _, s => { s with gradeBreakdown := none }
  | status i, j, s =>
    if j = i then { s with gradeBreakdown := none, status := .pending }
    else { s with gradeBreakdown := none }
  | statuses, _, s => { s with gradeBreakdown := none, status := .pending }
  | task i, j, s =>
    if j = i then
      { s with gradeBreakdown := none, status := .pending, testResults := none, aiReview := none,
               pluginConfigId := none }
    else { s with gradeBreakdown := none }

def isTask : Scope → Bool
  | task _ => true
  | _ => false

/-- `le`: what the smaller scope may change, the larger may. -/
inductive Le : Scope → Scope → Prop
  | refl (s : Scope) : Le s s
  | grades (s : Scope) : Le grades s
  | statusTask (i : ℕ) : Le (status i) (task i)
  | statusAll (i : ℕ) : Le (status i) statuses

theorem Le.keep_keep {s t : Scope} (h : Le s t) (j : ℕ) (sub : Submission) :
    t.keep j (s.keep j sub) = t.keep j sub := by
  cases h with
  | refl => cases s <;> simp only [Scope.keep] <;> split_ifs <;> rfl
  | grades => cases t <;> simp only [Scope.keep]
  | statusTask i => simp only [Scope.keep]; split_ifs <;> rfl
  | statusAll i => simp only [Scope.keep]; split_ifs <;> rfl

@[simp] theorem keep_squadId (s : Scope) (j : ℕ) (sub : Submission) :
    (s.keep j sub).squadId = sub.squadId := by
  cases s <;> simp only [keep] <;> split_ifs <;> rfl

@[simp] theorem keep_studentsAssignmentId (s : Scope) (j : ℕ) (sub : Submission) :
    (s.keep j sub).studentsAssignmentId = sub.studentsAssignmentId := by
  cases s <;> simp only [keep] <;> split_ifs <;> rfl

@[simp] theorem keep_sourceType (s : Scope) (j : ℕ) (sub : Submission) :
    (s.keep j sub).sourceType = sub.sourceType := by
  cases s <;> simp only [keep] <;> split_ifs <;> rfl

@[simp] theorem keep_createdAt (s : Scope) (j : ℕ) (sub : Submission) :
    (s.keep j sub).createdAt = sub.createdAt := by
  cases s <;> simp only [keep] <;> split_ifs <;> rfl

@[simp] theorem keep_quizExtraAttempts (s : Scope) (j : ℕ) (sub : Submission) :
    (s.keep j sub).quizExtraAttempts = sub.quizExtraAttempts := by
  cases s <;> simp only [keep] <;> split_ifs <;> rfl

end Scope

/-- A student has one row for an assignment. -/
def Db.UniqueRows (db : Db) : Prop :=
  ∀ (r r' : ℕ) row row', db.studentsAssignments[r]? = some row → db.studentsAssignments[r']? = some row' →
    row.studentId = row'.studentId → row.subjectsAssignmentId = row'.subjectsAssignmentId → r = r'

structure Within (scope : Scope) (db db' : Db) : Prop where
  rest : db' = { db with studentsAssignments := db'.studentsAssignments, submissions := db'.submissions,
                         outbox := db'.outbox }
  rows : ∀ (j : ℕ) r, db.studentsAssignments[j]? = some r → ∃ r', db'.studentsAssignments[j]? = some r' ∧
    r'.studentId = r.studentId ∧ r'.subjectsAssignmentId = r.subjectsAssignmentId
  subs : ∀ j : ℕ, (db'.submissions[j]?).map (scope.keep j) = (db.submissions[j]?).map (scope.keep j)
  messages : scope.isTask = false → db'.outbox = db.outbox
  unique : db.UniqueRows → db'.UniqueRows

namespace Within

variable {scope scope' : Scope} {db db₁ db₂ : Db}

theorem refl (scope : Scope) (db : Db) : Within scope db db :=
  ⟨rfl, fun _ r h => ⟨r, h, rfl, rfl⟩, fun _ => rfl, fun _ => rfl, id⟩

theorem trans (h₁ : Within scope db db₁) (h₂ : Within scope db₁ db₂) : Within scope db db₂ where
  rest := by rw [h₂.rest, h₁.rest]
  rows j r hr := by
    obtain ⟨r₁, hr₁, hs₁, ha₁⟩ := h₁.rows j r hr
    obtain ⟨r₂, hr₂, hs₂, ha₂⟩ := h₂.rows j r₁ hr₁
    exact ⟨r₂, hr₂, hs₂.trans hs₁, ha₂.trans ha₁⟩
  subs j := (h₂.subs j).trans (h₁.subs j)
  messages ht := (h₂.messages ht).trans (h₁.messages ht)
  unique := h₂.unique ∘ h₁.unique

/-- What a scope keeps can be read off through any function that ignores the rest. -/
theorem map_sub (h : Within scope db db₁) {β : Type*} (f : Submission → β) (j : ℕ)
    (hf : ∀ s, f (scope.keep j s) = f s) : (db₁.submissions[j]?).map f = (db.submissions[j]?).map f := by
  have := congrArg (Option.map f) (h.subs j)
  simpa [Option.map_map, Function.comp_def, hf] using this

theorem mono (h : Within scope db db₁) (hle : scope.Le scope') : Within scope' db db₁ where
  rest := h.rest
  rows := h.rows
  subs j := h.map_sub _ j (hle.keep_keep j)
  messages ht := h.messages (by cases hle <;> first | rfl | exact ht)
  unique := h.unique

theorem subjects (h : Within scope db db₁) : db₁.subjects = db.subjects := by rw [h.rest]
theorem subjectsAssignments (h : Within scope db db₁) :
    db₁.subjectsAssignments = db.subjectsAssignments := by rw [h.rest]
theorem pluginConfigs (h : Within scope db db₁) : db₁.pluginConfigs = db.pluginConfigs := by rw [h.rest]
theorem squads (h : Within scope db db₁) : db₁.squads = db.squads := by rw [h.rest]
theorem squadInvites (h : Within scope db db₁) : db₁.squadInvites = db.squadInvites := by rw [h.rest]
theorem subjectsStudents (h : Within scope db db₁) : db₁.subjectsStudents = db.subjectsStudents := by
  rw [h.rest]
theorem quizAttempts (h : Within scope db db₁) : db₁.quizAttempts = db.quizAttempts := by rw [h.rest]
theorem disputes (h : Within scope db db₁) : db₁.disputes = db.disputes := by rw [h.rest]
theorem overrides (h : Within scope db db₁) : db₁.overrides = db.overrides := by rw [h.rest]
theorem now (h : Within scope db db₁) : db₁.now = db.now := by rw [h.rest]

theorem sub (h : Within scope db db₁) {j : ℕ} {s : Submission} (hs : db.submissions[j]? = some s) :
    ∃ s₁, db₁.submissions[j]? = some s₁ ∧ scope.keep j s₁ = scope.keep j s := by
  have := h.subs j
  rw [hs, Option.map_some] at this
  obtain ⟨s₁, hs₁, he⟩ := Option.map_eq_some_iff.mp this
  exact ⟨s₁, hs₁, he⟩

theorem submissions_length (h : Within scope db db₁) : db₁.submissions.length = db.submissions.length := by
  have hnone : ∀ j : ℕ, db₁.submissions[j]? = none ↔ db.submissions[j]? = none := by
    intro j
    have := h.subs j
    cases h₁ : db₁.submissions[j]? <;> cases h₀ : db.submissions[j]? <;> simp_all
  have h1 := (hnone db.submissions.length).mpr (by simp)
  have h2 := (hnone db₁.submissions.length).mp (by simp)
  rw [List.getElem?_eq_none_iff] at h1 h2
  omega

/-- Every status but the scope's own is the same. -/
theorem status_of_keep (h : Within scope db db₁) {j : ℕ}
    (hk : ∀ s, (scope.keep j s).status = s.status) : db₁.status j = db.status j :=
  h.map_sub (·.status) j hk

theorem status_grades (h : Within .grades db db₁) (j : ℕ) : db₁.status j = db.status j :=
  h.status_of_keep fun _ => rfl

theorem status_ne {i j : ℕ} (h : Within (.task i) db db₁) (hij : j ≠ i) : db₁.status j = db.status j :=
  h.status_of_keep fun s => by simp [Scope.keep, hij]

theorem squadForSubmission (h : Within scope db db₁) (j : ℕ) :
    db₁.squadForSubmission j = db.squadForSubmission j := by
  have hq := h.map_sub (·.squadId) j (by simp)
  have hbind : ∀ o : Option Submission, o.bind (·.squadId) = (o.map (·.squadId)).join := by
    intro o; cases o <;> rfl
  simp only [Db.squadForSubmission, h.squads, hbind, hq]

theorem passedStudentIds (h : Within scope db db₁) (j : ℕ) :
    db₁.passedStudentIds j = db.passedStudentIds j := by
  simp only [Db.passedStudentIds, h.quizAttempts]

theorem quizComplete (h : Within scope db db₁) (j : ℕ) : db₁.quizComplete j = db.quizComplete j := by
  simp only [Db.quizComplete, h.squadForSubmission, h.quizAttempts, Db.enrolledMemberIds,
    h.subjectsStudents, h.passedStudentIds]

end Within

theorem within_setStudentAssignment (scope : Scope) (db : Db) (i : ℕ)
    {f : StudentAssignment → StudentAssignment}
    (hf : ∀ r, (f r).studentId = r.studentId ∧ (f r).subjectsAssignmentId = r.subjectsAssignmentId) :
    Within scope db (db.setStudentAssignment i f) where
  rest := rfl
  rows j r hr := by
    refine ⟨if i = j then f r else r, ?_, ?_⟩
    · simp only [Db.setStudentAssignment_studentsAssignments, List.getElem?_modify, hr]
      split_ifs <;> rfl
    · split_ifs
      · exact hf r
      · exact ⟨rfl, rfl⟩
  subs _ := rfl
  messages _ := rfl
  unique hu j j' row row' hj hj' hst hasg := by
    obtain ⟨r₀, hr₀, rfl⟩ := Table.getElem?_modify_some hj
    obtain ⟨r₀', hr₀', rfl⟩ := Table.getElem?_modify_some hj'
    refine hu j j' r₀ r₀' hr₀ hr₀' ?_ ?_
    · split_ifs at hst <;> simpa [hf] using hst
    · split_ifs at hasg <;> simpa [hf] using hasg

theorem within_setSubmission {scope : Scope} (db : Db) (i : ℕ) {f : Submission → Submission}
    (hf : ∀ s, scope.keep i (f s) = scope.keep i s) : Within scope db (db.setSubmission i f) where
  rest := rfl
  rows _ r hr := ⟨r, hr, rfl, rfl⟩
  subs j := by
    simp only [Db.setSubmission_submissions, List.getElem?_modify]
    split_ifs with hij
    · subst hij; cases db.submissions[i]? <;> simp [hf]
    · simp
  messages _ := rfl
  unique := id

theorem within_transition {db db' : Db} {i : ℕ} {event : Event} (h : db.transition i event = .ok db') :
    Within (.status i) db db' := by
  obtain ⟨s, next, -, -, rfl⟩ := transition_ok h
  exact within_setSubmission db i fun s => by simp [Scope.keep]

theorem within_addMessage (db : Db) (i : ℕ) (payload : OutboxPayload) :
    Within (.task i) db (db.addMessage payload) :=
  ⟨rfl, fun _ r h => ⟨r, h, rfl, rfl⟩, fun _ => rfl, fun h => (nomatch h), id⟩

section

variable (scope : Scope)

theorem within_ensureSa (db : Db) (t asg : ℕ) : Within scope db (db.ensureSa t asg).1 := by
  unfold Db.ensureSa
  split
  · exact .refl scope db
  · rename_i hnone
    refine ⟨rfl, fun j r hr => ⟨r, Table.getElem?_append_old hr, rfl, rfl⟩, fun _ => rfl, fun _ => rfl, ?_⟩
    have hnew : ∀ (j : ℕ) r, db.studentsAssignments[j]? = some r →
        ¬ (r.studentId = t ∧ r.subjectsAssignmentId = asg) := by
      intro j r hr
      simpa using Table.findId_none hnone r (List.mem_of_getElem? hr)
    intro hu j j' row row' hj hj' hst hasg
    rcases Table.getElem?_concat_some hj with hj | ⟨rfl, rfl⟩ <;>
      rcases Table.getElem?_concat_some hj' with hj' | ⟨rfl, rfl⟩
    · exact hu j j' row row' hj hj' hst hasg
    · exact absurd ⟨hst, hasg⟩ (hnew j row hj)
    · exact absurd ⟨hst.symm, hasg.symm⟩ (hnew j' row' hj')
    · rfl

theorem within_memberSaIds (members : List ℕ) (asg : ℕ) :
    ∀ db : Db, Within scope db (db.memberSaIds members asg).1 := by
  induction members with
  | nil => exact .refl scope
  | cons m ms ih => exact fun db => (within_ensureSa scope db m asg).trans (ih _)

/-- The row `ensureSa` returns is the student's row for the assignment. -/
theorem ensureSa_row (db : Db) (t asg : ℕ) : ∃ row,
    (db.ensureSa t asg).1.studentsAssignments[(db.ensureSa t asg).2]? = some row ∧
      row.studentId = t ∧ row.subjectsAssignmentId = asg := by
  unfold Db.ensureSa
  split
  · rename_i r hr
    obtain ⟨row, hrow, hp⟩ := Table.findId_some hr
    simp only [Bool.and_eq_true, beq_iff_eq] at hp
    exact ⟨row, hrow, hp.1, hp.2⟩
  · exact ⟨{ studentId := t, subjectsAssignmentId := asg }, Table.getElem?_concat_length _ _, rfl, rfl⟩

theorem memberSaIds_row (members : List ℕ) (asg : ℕ) : ∀ db : Db, ∀ r ∈ (db.memberSaIds members asg).2,
    ∃ row, (db.memberSaIds members asg).1.studentsAssignments[r]? = some row ∧
      row.studentId ∈ members ∧ row.subjectsAssignmentId = asg := by
  induction members with
  | nil => intro db r hr; cases hr
  | cons m ms ih =>
    intro db r hr
    rcases List.mem_cons.mp hr with rfl | hr
    · obtain ⟨row, hrow, hst, hasg⟩ := ensureSa_row db m asg
      obtain ⟨row', hrow', hst', hasg'⟩ :=
        (within_memberSaIds .grades ms asg (db.ensureSa m asg).1).rows _ row hrow
      exact ⟨row', hrow', List.mem_cons.mpr (.inl (hst'.trans hst)), hasg'.trans hasg⟩
    · obtain ⟨row, hrow, hst, hasg⟩ := ih _ r hr
      exact ⟨row, hrow, List.mem_cons.mpr (.inr hst), hasg⟩

theorem within_scopeSaIds (db : Db) (t subject asg : ℕ) :
    Within scope db (db.scopeSaIds t subject asg).1 := by
  unfold Db.scopeSaIds
  split
  · exact .refl scope db
  · exact within_memberSaIds scope _ _ db

/-- The rows in a student's scope: their own, and in a locked squad their squad's. -/
theorem scopeSaIds_row {db : Db} {t subject asg r : ℕ} (h : r ∈ (db.scopeSaIds t subject asg).2) :
    ∃ row, (db.scopeSaIds t subject asg).1.studentsAssignments[r]? = some row ∧
      row.subjectsAssignmentId = asg ∧ (row.studentId = t ∨ ∃ q s, db.activeSquad subject t = some q ∧
        db.squads[q]? = some s ∧ row.studentId ∈ s.members) := by
  unfold Db.scopeSaIds at h ⊢
  split at h
  · obtain ⟨row, hrow, hp⟩ := Table.findId_some (Option.mem_toList.mp h)
    simp only [Bool.and_eq_true, beq_iff_eq] at hp
    exact ⟨row, hrow, hp.2, .inl hp.1⟩
  · rename_i squad hsquad
    obtain ⟨q, hq, hs⟩ := Option.bind_eq_some_iff.mp hsquad
    obtain ⟨row, hrow, hst, hasg⟩ := memberSaIds_row _ _ db r h
    exact ⟨row, hrow, hasg, .inr ⟨q, squad, hq, hs, hst⟩⟩

theorem within_latestSubmission (db : Db) (saId : ℕ) : Within scope db (db.latestSubmission saId).1 := by
  unfold Db.latestSubmission
  split
  · exact .refl scope db
  · split
    · exact .refl scope db
    · exact within_scopeSaIds scope _ _ _ _

theorem within_writeGrades (grade : ℤ) (saIds : List ℕ) :
    ∀ db : Db, Within scope db (db.writeGrades grade saIds) := by
  induction saIds with
  | nil => exact .refl scope
  | cons i is ih =>
    exact fun db => (within_setStudentAssignment scope db i (f := fun r => { r with grade := some grade })
      fun _ => ⟨rfl, rfl⟩).trans (ih _)

theorem within_gradeTargets (db : Db) (i saId asgId : ℕ) :
    Within scope db (db.gradeTargets i saId asgId).1 := by
  unfold Db.gradeTargets
  split
  · exact .refl scope db
  · exact within_memberSaIds scope _ _ db

end

theorem within_finalizeGrade (db : Db) (i : ℕ) : Within .grades db (db.finalizeGrade i) := by
  unfold Db.finalizeGrade
  split
  · exact .refl _ db
  · split
    · exact .refl _ db
    · split
      · exact .refl _ db
      · dsimp only
        split
        · exact .refl _ db
        · exact ((within_gradeTargets _ db i _ _).trans (within_writeGrades _ _ _ _)).trans
            (within_setSubmission _ i fun _ => rfl)

end SubmissionsChecker
