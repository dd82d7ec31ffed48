import SubmissionsChecker.Effects.Applies
import SubmissionsChecker.Library.Assoc
import SubmissionsChecker.Library.Runs

/-! The assignment rows against the config applied last. The rows are written change by change, and
`_diff_assignment` compares one key less than `_build_assignment_config` copies. -/

namespace SubmissionsChecker

open Paths

variable {site : Site} {c c' : Catalog} {req : ApplyRequest} {rows rows' : Rows} {urls : String → Option String}
  {cfg : ConfigYml}

/-! One row -/

theorem Mapping.getOr_orDefault (m : Mapping) (key : String) (v : Yaml) :
    (if m.getOr key v = .null then v else m.getOr key v) = if m.get key = .null then v else m.get key := by
  unfold Mapping.getOr Mapping.get
  cases m.lookup key with
  | none => simp
  | some w => rfl

/-- The change of a block that its row takes over: the keys that are not compared stay, unless a
compared one changes with them; a title is not turned from missing to empty or back. -/
structure Tracked (new prev : AssignmentYml) : Prop where
  config : new.keys.only diffKeys = prev.keys.only diffKeys →
    new.keys.only ["llm_grading"] = prev.keys.only ["llm_grading"]
  title : new.keys.get "title" = prev.keys.get "title" → new.keys.lookup "title" = prev.keys.lookup "title"

instance (new prev : AssignmentYml) : Decidable (Tracked new prev) :=
  decidable_of_iff (_ ∧ _) ⟨fun h => ⟨h.1, h.2⟩, fun h => ⟨h.1, h.2⟩⟩

/-- The copied keys are the compared ones and `llm_grading`. -/
theorem Mapping.only_builtKeys (m : Mapping) : m.only builtKeys = m.only diffKeys ++ m.only ["llm_grading"] := by
  have hkeys : builtKeys = diffKeys ++ ["llm_grading"] := rfl
  unfold Mapping.only
  rw [hkeys, List.filterMap_append]

section

variable {code : String} {new prev : AssignmentYml} {row : AssignmentRow}

/-- A column after the planned update: the field that writes it is among the changed ones or not. -/
theorem read_updatedRow {Value : Type*} (read : AssignmentRow → Value) (x : AssignmentField) (v : Value)
    (h : ∀ row y, read (applyAssignmentField site urls cfg code new row y) = if y = x then v else read row) :
    read (updatedRow site urls cfg code row (new, diffAssignment new prev)) =
      if x ∈ diffAssignment new prev then v else read row :=
  Assoc.foldl_write read x v h _ _

theorem mem_diffAssignment {x : AssignmentField} : x ∈ diffAssignment new prev ↔
    match x with
    | .title => new.keys.get "title" ≠ prev.keys.get "title"
    | .description => new.keys.get "description" ≠ prev.keys.get "description"
    | .deadline => new.keys.get "deadline" ≠ prev.keys.get "deadline"
    | .minGrade => new.keys.get "min_grade" ≠ prev.keys.get "min_grade"
    | .maxGrade => new.keys.get "max_grade" ≠ prev.keys.get "max_grade"
    | .config => new.keys.only diffKeys ≠ prev.keys.only diffKeys
    | .contentFiles => new.contentFiles ≠ prev.contentFiles := by
  rcases x <;> simp [diffAssignment]

theorem freshColumns_minGrade (site : Site) (code : String) (a : AssignmentYml) :
    (freshColumns site code a).minGrade =
      if a.keys.get "min_grade" = .null then .num 0 else a.keys.get "min_grade" :=
  a.keys.getOr_orDefault "min_grade" (.num 0)

theorem freshColumns_maxGrade (site : Site) (code : String) (a : AssignmentYml) :
    (freshColumns site code a).maxGrade =
      if a.keys.get "max_grade" = .null then .num 100 else a.keys.get "max_grade" :=
  a.keys.getOr_orDefault "max_grade" (.num 100)

/-- A row that was as created from the old block and is updated to the new one is as created from it. -/
theorem updatedRow_fresh (htracked : Tracked new prev) (hrow : row.toAssignmentColumns = freshColumns site code prev)
    (haccepted : (updatedRow site urls cfg code row (new, diffAssignment new prev)).accepted = true) :
    (updatedRow site urls cfg code row (new, diffAssignment new prev)).toAssignmentColumns = freshColumns site code new := by
  set row' := updatedRow site urls cfg code row (new, diffAssignment new prev) with hrow'
  rw [AssignmentRow.accepted, decide_eq_true_eq] at haccepted
  have htitle : row'.title = (freshColumns site code new).title := by
    rw [hrow', read_updatedRow (·.title) .title (new.keys.getOr "title" (.str code)) (by rintro row (_ | _) <;> rfl)]
    split_ifs with h
    · rfl
    · rw [mem_diffAssignment, not_not] at h
      rw [hrow]
      change prev.keys.getOr "title" _ = new.keys.getOr "title" _
      rw [Mapping.getOr, Mapping.getOr, htracked.title h]
  have hdescription : row'.description = (freshColumns site code new).description := by
    rw [hrow', read_updatedRow (·.description) .description (new.keys.get "description").orNull
      (by rintro row (_ | _) <;> rfl)]
    split_ifs with h
    · rfl
    · rw [mem_diffAssignment, not_not] at h
      change row.toAssignmentColumns.description = (new.keys.get "description").orNull
      rw [hrow, h]
      rfl
  have hdeadline : row'.deadline = (freshColumns site code new).deadline := by
    rw [hrow', read_updatedRow (·.deadline) .deadline (site.parseDeadline (new.keys.get "deadline"))
      (by rintro row (_ | _) <;> rfl)]
    split_ifs with h
    · rfl
    · rw [mem_diffAssignment, not_not] at h
      change row.toAssignmentColumns.deadline = site.parseDeadline (new.keys.get "deadline")
      rw [hrow, h]
      rfl
  have hmin : row'.minGrade = (freshColumns site code new).minGrade := by
    have hread : row'.minGrade = _ := read_updatedRow (·.minGrade) .minGrade (new.keys.getOr "min_grade" (.num 0))
      (by rintro row (_ | _) <;> rfl)
    rw [freshColumns_minGrade]
    split_ifs at hread with h
    · rw [← Mapping.getOr_orDefault, if_neg (hread ▸ haccepted.2.1)]
      exact hread
    · rw [mem_diffAssignment, not_not] at h
      rw [hread, h, ← freshColumns_minGrade site code]
      exact congrArg AssignmentColumns.minGrade hrow
  have hmax : row'.maxGrade = (freshColumns site code new).maxGrade := by
    have hread : row'.maxGrade = _ := read_updatedRow (·.maxGrade) .maxGrade (new.keys.getOr "max_grade" (.num 100))
      (by rintro row (_ | _) <;> rfl)
    rw [freshColumns_maxGrade]
    split_ifs at hread with h
    · rw [← Mapping.getOr_orDefault, if_neg (hread ▸ haccepted.2.2)]
      exact hread
    · rw [mem_diffAssignment, not_not] at h
      rw [hread, h, ← freshColumns_maxGrade site code]
      exact congrArg AssignmentColumns.maxGrade hrow
  have hconfig : row'.config = (freshColumns site code new).config := by
    rw [hrow', read_updatedRow (·.config) .config (new.keys.only builtKeys) (by rintro row (_ | _) <;> rfl)]
    split_ifs with h
    · rfl
    · rw [mem_diffAssignment, not_not] at h
      change row.toAssignmentColumns.config = new.keys.only builtKeys
      rw [hrow, Mapping.only_builtKeys, h, htracked.config h, ← Mapping.only_builtKeys]
      rfl
  calc row'.toAssignmentColumns
      = ⟨row'.title, row'.description, row'.deadline, row'.minGrade, row'.maxGrade, row'.config⟩ := rfl
    _ = freshColumns site code new := by rw [htitle, hdescription, hdeadline, hmin, hmax, hconfig]

end

/-! The rows -/

/-- The assignment rows are those of the last config, each as a fresh creation from it would make it. -/
structure Rows.Mirrors (site : Site) (rows : Rows) : Prop where
  row : ∀ code a, (code, a) ∈ rows.prevConfig.assignments → ∃ row, (code, row) ∈ rows.assignments
  fresh : ∀ code row, (code, row) ∈ rows.assignments →
    ∃ a, (code, a) ∈ rows.prevConfig.assignments ∧ row.toAssignmentColumns = freshColumns site code a

/-- Every assignment that stays changes in a way its row takes over. -/
def TracksChanges (c : Catalog) (req : ApplyRequest) : Prop :=
  ∀ a ∈ req.archive.cfg.assignments, ∀ old ∈ c.rows.prevConfig.assignments, old.1 = a.1 → Tracked a.2 old.2

instance (c : Catalog) (req : ApplyRequest) : Decidable (TracksChanges c req) := by
  unfold TracksChanges
  infer_instance

theorem nodup_toUpdate (cfg prev : ConfigYml) :
    ((cfg.assignments.filterMap fun a => (prev.assignments.lookup a.1).bind fun old =>
      if diffAssignment a.2 old = [] then none else some (a.1, a.2, diffAssignment a.2 old)).map (·.1)).Nodup := by
  refine List.Nodup.sublist ?_ cfg.codes
  generalize cfg.assignments = as
  induction as with
  | nil => simp
  | cons a as ih =>
    rw [List.filterMap_cons]
    split
    · exact ih.cons _
    · rename_i u hu
      rw [Option.bind_eq_some_iff] at hu
      obtain ⟨old, -, hu⟩ := hu
      split_ifs at hu
      obtain rfl := Option.some.inj hu
      exact ih.cons_cons _

theorem ConfigYml.lookup_iff {cfg : ConfigYml} {code : String} {a : AssignmentYml} :
    cfg.assignments.lookup code = some a ↔ (code, a) ∈ cfg.assignments :=
  ⟨Assoc.mem_of_lookup, Assoc.lookup_of_mem cfg.codes⟩

theorem mem_toUpdate {code : String} {u : AssignmentYml × List AssignmentField} :
    (code, u) ∈ (req.plan rows).assignmentsToUpdate ↔ ∃ old, (code, u.1) ∈ req.archive.cfg.assignments ∧
      rows.prevConfig.assignments.lookup code = some old ∧ diffAssignment u.1 old ≠ [] ∧ u.2 = diffAssignment u.1 old := by
  change (code, u) ∈ List.filterMap _ _ ↔ _
  rw [List.mem_filterMap]
  constructor
  · rintro ⟨⟨code', a⟩, ha, hu⟩
    rw [Option.bind_eq_some_iff] at hu
    obtain ⟨old, hold, hu⟩ := hu
    split_ifs at hu with hdiff
    obtain ⟨rfl, rfl⟩ := Prod.mk.inj (Option.some.inj hu)
    exact ⟨old, ha, hold, hdiff, rfl⟩
  · rintro ⟨old, ha, hold, hdiff, hu⟩
    refine ⟨(code, u.1), ha, ?_⟩
    rw [hold, Option.bind_some, if_neg hdiff, ← hu]

/-- What the update loop leaves of a row whose block is kept. -/
theorem foldl_update_kept {code : String} {a old : AssignmentYml} (ha : (code, a) ∈ req.archive.cfg.assignments)
    (hold : rows.prevConfig.assignments.lookup code = some old) (row : AssignmentRow) :
    (req.plan rows).assignmentsToUpdate.foldl (fun row u => if u.1 = code then updatedRow site urls cfg code row u.2 else row)
      row = updatedRow site urls cfg code row (a, diffAssignment a old) := by
  by_cases hdiff : diffAssignment a old = []
  · rw [Assoc.foldl_change_of_not_mem, hdiff]
    · rfl
    · intro hmem
      obtain ⟨⟨_, u⟩, hu, rfl⟩ := List.mem_map.mp hmem
      obtain ⟨old', ha', hold', hdiff', -⟩ := mem_toUpdate.mp hu
      obtain rfl := Option.some.inj (hold.symm.trans hold')
      obtain rfl := Option.some.inj ((ConfigYml.lookup_iff.mpr ha).symm.trans (ConfigYml.lookup_iff.mpr ha'))
      exact hdiff' hdiff
  · have hmem : (code, a, diffAssignment a old) ∈ (req.plan rows).assignmentsToUpdate :=
      mem_toUpdate.mpr ⟨old, ha, hold, hdiff, rfl⟩
    exact Assoc.foldl_change_of_mem (updatedRow site urls cfg code) (nodup_toUpdate _ _) hmem row

/-- A row just created is not updated. -/
theorem foldl_update_created {code : String} (hnew : rows.prevConfig.assignments.lookup code = none) (row : AssignmentRow) :
    (req.plan rows).assignmentsToUpdate.foldl (fun row u => if u.1 = code then updatedRow site urls cfg code row u.2 else row)
      row = row := by
  apply Assoc.foldl_change_of_not_mem
  intro hmem
  obtain ⟨⟨_, u⟩, hu, rfl⟩ := List.mem_map.mp hmem
  obtain ⟨old, -, hold, -⟩ := mem_toUpdate.mp hu
  rw [hnew] at hold
  cases hold

theorem mem_toDelete {code : String} : code ∈ (req.plan rows).assignmentsToDelete ↔
    code ∈ rows.prevConfig.assignments.map (·.1) ∧ req.archive.cfg.assignments.lookup code = none := by
  change code ∈ List.filter _ _ ↔ _
  rw [List.mem_filter, Option.isNone_iff_eq_none]

/-- What an assignment row of the new state is: a row that stays, updated, or a new one. -/
theorem Applied.mem_assignments (h : Applied site c req c') {code : String} {row : AssignmentRow} :
    (code, row) ∈ c'.rows.assignments ↔ code ∉ (req.plan c.rows).assignmentsToDelete ∧
      ∃ row₀, ((code, row₀) ∈ c.rows.assignments ∨
          ∃ a, (code, a) ∈ (req.plan c.rows).assignmentsToCreate ∧
            row₀ = freshRow site (uploadedUrls site c.rows req) req.archive.cfg code a) ∧
        row = (req.plan c.rows).assignmentsToUpdate.foldl (fun row u =>
          if u.1 = code then updatedRow site (uploadedUrls site c.rows req) req.archive.cfg code row u.2 else row) row₀ := by
  have hrows := h.rows_eq
  dsimp only at hrows
  rw [hrows]
  simp only [List.mem_filter, List.mem_map, List.mem_append, decide_eq_true_eq, Prod.mk.injEq]
  constructor
  · rintro ⟨⟨⟨code', row₀⟩, hmem, rfl, rfl⟩, hdelete⟩
    refine ⟨hdelete, row₀, ?_, rfl⟩
    rcases hmem with hmem | ⟨⟨code', a⟩, ha, rfl, rfl⟩
    · exact .inl hmem
    · exact .inr ⟨a, ha, rfl⟩
  · rintro ⟨hdelete, row₀, hmem, rfl⟩
    refine ⟨⟨(code, row₀), ?_, rfl, rfl⟩, hdelete⟩
    rcases hmem with hmem | ⟨a, ha, rfl⟩
    · exact .inl hmem
    · exact .inr ⟨(code, a), ha, rfl⟩

theorem mem_toCreate {code : String} {a : AssignmentYml} : (code, a) ∈ (req.plan rows).assignmentsToCreate ↔
    (code, a) ∈ req.archive.cfg.assignments ∧ rows.prevConfig.assignments.lookup code = none := by
  change (code, a) ∈ List.filter _ _ ↔ _
  rw [List.mem_filter, Option.isNone_iff_eq_none]

theorem Applied.mirrors (h : Applied site c req c') (hmirrors : c.rows.Mirrors site) (htracks : TracksChanges c req) :
    c'.rows.Mirrors site := by
  constructor
  · intro code a ha
    rw [h.prevConfig] at ha
    have hdelete : code ∉ (req.plan c.rows).assignmentsToDelete := by
      rw [mem_toDelete, ConfigYml.lookup_iff.mpr ha]
      simp
    rcases hold : c.rows.prevConfig.assignments.lookup code with _ | old
    · exact ⟨_, h.mem_assignments.mpr ⟨hdelete, _, .inr ⟨a, mem_toCreate.mpr ⟨ha, hold⟩, rfl⟩, rfl⟩⟩
    · obtain ⟨row, hrow⟩ := hmirrors.row code old (ConfigYml.lookup_iff.mp hold)
      exact ⟨_, h.mem_assignments.mpr ⟨hdelete, row, .inl hrow, rfl⟩⟩
  · intro code row hmem
    rw [h.prevConfig]
    have haccepted : row.accepted = true := List.all_eq_true.mp h.accepted _ hmem
    obtain ⟨hdelete, row₀, hrow₀, rfl⟩ := h.mem_assignments.mp hmem
    rcases hrow₀ with hrow₀ | ⟨a, ha, rfl⟩
    · obtain ⟨old, hold, hcolumns⟩ := hmirrors.fresh code row₀ hrow₀
      obtain ⟨a, ha⟩ : ∃ a, req.archive.cfg.assignments.lookup code = some a := by
        rw [mem_toDelete, not_and] at hdelete
        exact Option.ne_none_iff_exists'.mp (hdelete (List.mem_map_of_mem hold))
      rw [ConfigYml.lookup_iff] at ha
      refine ⟨a, ha, ?_⟩
      rw [foldl_update_kept ha (ConfigYml.lookup_iff.mpr hold)] at haccepted ⊢
      exact updatedRow_fresh (htracks _ ha _ hold rfl) hcolumns haccepted
    · obtain ⟨ha, hnew⟩ := mem_toCreate.mp ha
      refine ⟨a, ha, ?_⟩
      rw [foldl_update_created hnew]
      rfl

/-- Nothing has been applied to the subject yet. -/
def Rows.Unapplied (rows : Rows) : Prop := rows.assignments = [] ∧ rows.versions = []

instance (rows : Rows) : Decidable rows.Unapplied := by
  unfold Rows.Unapplied
  infer_instance

theorem Rows.Unapplied.mirrors (h : rows.Unapplied) : rows.Mirrors site := by
  obtain ⟨hassignments, hversions⟩ := h
  have hprev : rows.prevConfig = {} := by
    rw [Rows.prevConfig, Rows.latest, hversions]
    cases rows.subject <;> rfl
  constructor
  · intro code a ha
    rw [hprev] at ha
    cases ha
  · intro code row hrow
    rw [hassignments] at hrow
    cases hrow

/-- After every sequence of applies in which each kept assignment changes in a way its row takes
over, the assignment rows are those the last config alone would give. -/
theorem rows_mirror_last_config (site : Site) {c c' : Catalog} {reqs : List ApplyRequest} (hstart : c.rows.Unapplied)
    (h : Runs.Run (Catalog.step site) TracksChanges c reqs c') : c'.rows.Mirrors site := by
  refine h.invariant (I := fun c => c.rows.Mirrors site) hstart.mirrors ?_
  intro t req ht htracks
  rw [Catalog.step]
  rcases happly : t.apply site req with _ | t'
  · exact ht
  · rcases apply_cases happly with ⟨-, rfl⟩ | happlied
    · exact ht
    · exact happlied.mirrors ht htracks

/-- A course with one assignment. -/
def oneLab (keys : Mapping) : ApplyRequest :=
  { userId := 1
    archive :=
      { cfg := { subjectCode := "course", assignments := [("lab1", { keys })], codes := by simp }
        files := [] } }

def plainSite : Site := { buildUrl := id, fromIsoformat := fun _ => none }

def emptyCatalog : Catalog := { rows := {}, objects := fun _ => none }

theorem teacher_edits_grading :
    let reqs := [oneLab [("review_mode", .str "tests_only"), ("llm_grading", .map [("task", .str "old")])],
      oneLab [("review_mode", .str "tests_then_ai"), ("llm_grading", .map [("task", .str "new")])]]
    (reqs.foldl (Catalog.step plainSite) emptyCatalog).rows.Mirrors plainSite :=
  rows_mirror_last_config plainSite (by decide) (Runs.run_of_checks (by decide))

/-- Only `llm_grading` changes: the row keeps the old one. -/
theorem edited_task_is_lost :
    ¬ ∀ (site : Site) (c c' : Catalog) (reqs : List ApplyRequest), c.rows.Unapplied →
      Runs.Run (Catalog.step site) Runs.Any c reqs c' → c'.rows.Mirrors site := by
  intro h
  let reqs := [oneLab [("llm_grading", .map [("task", .str "old")])], oneLab [("llm_grading", .map [("task", .str "new")])]]
  have hmirrors := h plainSite emptyCatalog _ reqs (by decide) (Runs.run_foldl reqs)
  have hfresh : ∀ p ∈ (reqs.foldl (Catalog.step plainSite) emptyCatalog).rows.assignments,
      ∃ b ∈ (reqs.foldl (Catalog.step plainSite) emptyCatalog).rows.prevConfig.assignments,
        p.2.toAssignmentColumns = freshColumns plainSite p.1 b.2 := by
    intro p hp
    obtain ⟨a, ha, hcolumns⟩ := hmirrors.fresh p.1 p.2 hp
    exact ⟨_, ha, hcolumns⟩
  revert hfresh
  decide

end SubmissionsChecker
