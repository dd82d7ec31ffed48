import SubmissionsChecker.Effects.NewWork
import SubmissionsChecker.Services.ConfigApply

/-! What applying a config leaves alone: squads, enrolments and all work. Rows are only added. -/

namespace SubmissionsChecker

structure Db.Configures (db db' : Db) : Prop where
  rest : db' = { db with subjects := db'.subjects, subjectsAssignments := db'.subjectsAssignments
                         pluginConfigs := db'.pluginConfigs, studentsAssignments := db'.studentsAssignments }
  rows : ∀ (r : ℕ) row, db.studentsAssignments[r]? = some row → ∃ row', db'.studentsAssignments[r]? = some row' ∧
    row'.studentId = row.studentId ∧ row'.subjectsAssignmentId = row.subjectsAssignmentId
  unique : db.UniqueRows → db'.UniqueRows

section

variable {db db₁ db' : Db}

namespace Db.Configures

theorem trans (h₁ : db.Configures db₁) (h₂ : db₁.Configures db') : db.Configures db' where
  rest := by rw [h₂.rest, h₁.rest]
  rows r row hr := by
    obtain ⟨row₁, hr₁, hs₁, ha₁⟩ := h₁.rows r row hr
    obtain ⟨row₂, hr₂, hs₂, ha₂⟩ := h₂.rows r row₁ hr₁
    exact ⟨row₂, hr₂, hs₂.trans hs₁, ha₂.trans ha₁⟩
  unique := h₂.unique ∘ h₁.unique

theorem squads (h : db.Configures db') : db'.squads = db.squads := by rw [h.rest]

theorem squadInvites (h : db.Configures db') : db'.squadInvites = db.squadInvites := by rw [h.rest]

theorem submissions (h : db.Configures db') : db'.submissions = db.submissions := by rw [h.rest]

theorem now (h : db.Configures db') : db'.now = db.now := by rw [h.rest]

end Db.Configures

theorem configures_of_rows (hrest : db' = { db with
    subjects := db'.subjects, subjectsAssignments := db'.subjectsAssignments, pluginConfigs := db'.pluginConfigs }) :
    db.Configures db' := by
  have hrows : db'.studentsAssignments = db.studentsAssignments := by rw [hrest]
  refine ⟨by rw [hrest], fun r row hr => ⟨row, by rw [hrows, hr], rfl, rfl⟩, fun hu => ?_⟩
  unfold Db.UniqueRows
  rw [hrows]
  exact hu

theorem configures_foldl {α : Type*} {f : Db → α → Db} (hf : ∀ (db : Db) (a : α), db.Configures (f db a)) (db : Db)
    (l : List α) : db.Configures (l.foldl f db) := by
  induction l generalizing db with
  | nil => exact configures_of_rows rfl
  | cons a l ih => exact (hf db a).trans (ih (f db a))

theorem configures_ensureSa (db : Db) (t asgId : ℕ) : db.Configures (db.ensureSa t asgId).1 := by
  have h := within_ensureSa .grades db t asgId
  refine ⟨?_, h.rows, h.unique⟩
  unfold Db.ensureSa
  split <;> rfl

theorem configures_setAssignment (db : Db) (asgId : Option ℕ) (f : SubjectsAssignment → SubjectsAssignment) :
    db.Configures (db.setAssignment asgId f) := by
  cases asgId with
  | none => exact configures_of_rows rfl
  | some i => exact configures_of_rows rfl

theorem configures_createAssignment (db : Db) (x : ℕ) (code : String) (block : AssignmentBlock) :
    db.Configures (db.createAssignment x code block) := by
  unfold Db.createAssignment
  refine Db.Configures.trans ?_ (configures_foldl (fun db t => configures_ensureSa db t _) _ _)
  exact configures_of_rows rfl

theorem configures_deleteAssignment (db : Db) (x : ℕ) (code : String) : db.Configures (db.deleteAssignment x code) :=
  configures_setAssignment db _ _

theorem configures_executePlan (db : Db) (x : ℕ) (cfg prev : SubjectConfig) (squadMaxSize : Option ℕ) :
    db.Configures (db.executePlan x cfg prev squadMaxSize) := by
  unfold Db.executePlan
  have hsubject : db.Configures { db with subjects := db.subjects.modify x ({ · with squadMaxSize }) } :=
    configures_of_rows rfl
  have hcreate := hsubject.trans
    (configures_foldl (fun db a => configures_createAssignment db x a.1 a.2) _ (cfg.toCreate prev))
  have hupdate := hcreate.trans (configures_foldl
    (fun db a => configures_setAssignment db (db.assignmentWithCode x a.1) (·.applyFields a.2.1 a.2.2)) _
    (cfg.toUpdate prev))
  have hdelete := hupdate.trans
    (configures_foldl (fun db code => configures_deleteAssignment db x code) _ (cfg.toDelete prev))
  exact hdelete.trans (configures_of_rows rfl)

theorem configures_applyConfig {x : ℕ} {cfg prev : SubjectConfig} (h : db.applyConfig x cfg prev = .ok db') :
    db.Configures db' := by
  unfold Db.applyConfig at h
  split_ifs at h
  cases hquiz : cfg.validateQuizQuestions with
  | error e => rw [hquiz] at h; cases h
  | ok u =>
    cases hsize : cfg.parseSquadMaxSize with
    | error e => rw [hquiz, hsize] at h; cases h
    | ok size =>
      rw [hquiz, hsize] at h
      cases h
      exact configures_executePlan db x cfg prev size

end

end SubmissionsChecker
