import SubmissionsChecker.Services.ConfigExecute

/-! What the steps of an apply do to the rows and to the objects: the uploads write the planned
keys only, the rows change between the uploads and the commit, the cleanup deletes only. -/

namespace SubmissionsChecker

open Paths

variable {site : Site} {c c' : Catalog} {req : ApplyRequest} {s t : ApplySession} {rows rows' : Rows}
  {urls : String → Option String} {cfg : ConfigYml}

/-- The steps one after the other, while none raises. -/
def execSteps (req : ApplyRequest) (steps : List ApplyStep) (s : ApplySession) : Option ApplySession :=
  steps.foldlM (fun s step => step.exec req s) s

/-- The objects after one upload. -/
def put (req : ApplyRequest) (objects : Objects) (f : Path × String) : Objects :=
  match req.disk (resolve f.1) with
  | some (.file content) => Function.update objects f.2 (some content)
  | _ => objects

/-- The objects after one deletion. -/
def dropKey (req : ApplyRequest) (objects : Objects) (key : String) : Objects :=
  if req.deletes key then Function.update objects key none else objects

theorem execSteps_cons {step : ApplyStep} {steps : List ApplyStep} :
    execSteps req (step :: steps) s = some t ↔ ∃ u, step.exec req s = some u ∧ execSteps req steps u = some t := by
  simp [execSteps, Option.bind_eq_some_iff]

theorem execSteps_append {steps steps' : List ApplyStep} :
    execSteps req (steps ++ steps') s = some t ↔
      ∃ u, execSteps req steps s = some u ∧ execSteps req steps' u = some t := by
  simp [execSteps, List.foldlM_append, Option.bind_eq_some_iff]

theorem execSteps_check {passes : Bool} (h : execSteps req [.check passes] s = some t) : passes = true ∧ t = s := by
  rw [execSteps_cons] at h
  obtain ⟨u, hu, ht⟩ := h
  simp only [ApplyStep.exec, Option.ite_none_right_eq_some, Option.some.injEq] at hu
  exact ⟨hu.1, by rw [hu.2]; exact (Option.some.inj ht).symm⟩

/-- The uploads store each file under its key, in order, and touch no row. -/
theorem execSteps_uploads {files : List (Path × String)} (h : execSteps req (files.map fun f => .upload f.1 f.2) s = some t) :
    t = { s with objects := files.foldl (put req) s.objects } ∧
      ∀ f ∈ files, ∃ content, req.disk (resolve f.1) = some (.file content) := by
  induction files generalizing s with
  | nil => exact ⟨(Option.some.inj h).symm, nofun⟩
  | cons f files ih =>
    rw [List.map_cons, execSteps_cons] at h
    obtain ⟨u, hu, ht⟩ := h
    obtain ⟨hrest, hfiles⟩ := ih ht
    rw [ApplyStep.exec] at hu
    split at hu
    · rename_i content hdisk
      obtain rfl := Option.some.inj hu
      refine ⟨?_, ?_⟩
      · rw [hrest, List.foldl_cons, put, hdisk]
      · intro g hg
        rcases List.mem_cons.mp hg with rfl | hg
        · exact ⟨content, hdisk⟩
        · exact hfiles g hg
    · cases hu

/-- The statements change the rows the session sees and nothing else. -/
theorem execSteps_statements {fs : List (Rows → Option Rows)} (h : execSteps req (fs.map .statement) s = some t) :
    t.committed = s.committed ∧ t.objects = s.objects ∧ fs.foldlM (fun r f => f r) s.rows = some t.rows := by
  induction fs generalizing s with
  | nil =>
    obtain rfl := Option.some.inj h
    exact ⟨rfl, rfl, rfl⟩
  | cons f fs ih =>
    rw [List.map_cons, execSteps_cons] at h
    obtain ⟨u, hu, ht⟩ := h
    rw [ApplyStep.exec, Option.map_eq_some_iff] at hu
    obtain ⟨rows, hrows, rfl⟩ := hu
    obtain ⟨hcommitted, hobjects, hfold⟩ := ih ht
    refine ⟨hcommitted, hobjects, ?_⟩
    rw [List.foldlM_cons, hrows]
    exact hfold

theorem execSteps_cleanup {keys : List String} (h : execSteps req (keys.map .cleanup) s = some t) :
    t = { s with objects := keys.foldl (dropKey req) s.objects } := by
  induction keys generalizing s with
  | nil => exact (Option.some.inj h).symm
  | cons key keys ih =>
    rw [List.map_cons, execSteps_cons] at h
    obtain ⟨u, hu, ht⟩ := h
    obtain rfl := Option.some.inj hu
    rw [ih ht, List.foldl_cons, dropKey]
    split_ifs <;> rfl

/-- The subject's row is written and the other rows stay. -/
def Rows.withSubject (site : Site) (rows : Rows) (req : ApplyRequest) : Rows :=
  rows.writeSubject (uploadedUrls site rows req) req.archive.cfg req.userId (req.plan rows).subjectFieldsChanged

@[simp] theorem Rows.withSubject_assignments : (rows.withSubject site req).assignments = rows.assignments := by
  unfold Rows.withSubject Rows.writeSubject
  split <;> rfl

@[simp] theorem Rows.withSubject_versions : (rows.withSubject site req).versions = rows.versions := by
  unfold Rows.withSubject Rows.writeSubject
  split <;> rfl

theorem execSteps_subject (hs : s.rows = rows) (h : execSteps req [subjectStep site rows req] s = some t) :
    t = { s with rows := rows.withSubject site req } := by
  rw [execSteps_cons] at h
  obtain ⟨u, hu, ht⟩ := h
  obtain rfl := Option.some.inj ht
  rw [subjectStep] at hu
  split_ifs at hu
  · obtain rfl := Option.some.inj hu
    rw [hs]
    rfl
  · obtain rfl := Option.some.inj hu
    rw [hs]
    rfl

/-- The objects after the uploads. -/
def uploaded (site : Site) (rows : Rows) (req : ApplyRequest) (objects : Objects) : Objects :=
  if site.storageConfigured then (req.plan rows).newFiles.foldl (put req) objects else objects

/-- The objects after the cleanup. -/
def cleaned (site : Site) (rows : Rows) (req : ApplyRequest) (objects : Objects) : Objects :=
  if site.storageConfigured then (req.plan rows).removedKeys.foldl (dropKey req) objects else objects

theorem execSteps_uploadSteps (h : execSteps req (uploadSteps site rows req) s = some t) :
    t = { s with objects := uploaded site rows req s.objects } ∧
      (site.storageConfigured = true → ∀ f ∈ (req.plan rows).newFiles,
        ∃ content, req.disk (resolve f.1) = some (.file content)) := by
  rw [uploadSteps] at h
  rw [uploaded]
  split_ifs at h ⊢ with hstorage
  · obtain ⟨ht, hfiles⟩ := execSteps_uploads h
    exact ⟨ht, fun _ => hfiles⟩
  · exact ⟨(Option.some.inj h).symm, fun hs => absurd hs hstorage⟩

theorem execSteps_cleanupSteps (h : execSteps req (cleanupSteps site rows req) s = some t) :
    t = { s with objects := cleaned site rows req s.objects } := by
  rw [cleanupSteps] at h
  rw [cleaned]
  split_ifs at h ⊢ with hstorage
  · exact execSteps_cleanup h
  · exact (Option.some.inj h).symm

/-- An apply of another archive than the live one that went through. -/
structure Applied (site : Site) (c : Catalog) (req : ApplyRequest) (c' : Catalog) : Prop where
  other : c.rows.latest ≠ some req.archive
  allowed : applyAllowed c.rows req = true
  files : site.storageConfigured = true → ∀ f ∈ (req.plan c.rows).newFiles,
    ∃ content, req.disk (resolve f.1) = some (.file content)
  rows : (rowSteps site c.rows req).foldlM (fun r f => f r) (c.rows.withSubject site req) = some c'.rows
  accepted : c'.rows.assignments.all (·.2.accepted) = true
  objects : c'.objects = cleaned site c.rows req (uploaded site c.rows req c.objects)

theorem apply_cases (h : c.apply site req = some c') :
    (c.rows.latest = some req.archive ∧ c' = c) ∨ Applied site c req c' := by
  rw [Catalog.apply, Option.map_eq_some_iff] at h
  obtain ⟨t, ht, rfl⟩ := h
  rw [Catalog.stepsDone, List.take_length] at ht
  change execSteps req (applySteps site c.rows req) c.session = some t at ht
  rw [applySteps] at ht
  split_ifs at ht with hlatest
  · obtain ⟨-, rfl⟩ := execSteps_check ht
    refine .inl ⟨hlatest, ?_⟩
    rw [Catalog.closed]
    split_ifs <;> rfl
  · right
    rw [execSteps_append] at ht
    obtain ⟨s₅, h₅, hcleanup⟩ := ht
    rw [execSteps_append] at h₅
    obtain ⟨s₄, h₄, hcommit⟩ := h₅
    rw [execSteps_append] at h₄
    obtain ⟨s₃, h₃, hrows⟩ := h₄
    rw [execSteps_append] at h₃
    obtain ⟨s₂, h₂, hsubject⟩ := h₃
    rw [execSteps_append] at h₂
    obtain ⟨s₁, hcheck, huploads⟩ := h₂
    obtain ⟨hallowed, rfl⟩ := execSteps_check hcheck
    obtain ⟨rfl, hfiles⟩ := execSteps_uploadSteps huploads
    obtain rfl := execSteps_subject rfl hsubject
    obtain ⟨hcommitted, hobjects, hfold⟩ := execSteps_statements hrows
    obtain rfl := execSteps_cleanupSteps hcleanup
    rw [execSteps_cons] at hcommit
    obtain ⟨u, hu, hs₅⟩ := hcommit
    obtain rfl := Option.some.inj hs₅
    simp only [ApplyStep.exec, Option.ite_none_right_eq_some, Option.some.injEq] at hu
    obtain ⟨haccepted, rfl⟩ := hu
    refine ⟨hlatest, hallowed, hfiles, ?_, ?_, ?_⟩
    · rw [Catalog.closed, if_pos haccepted]
      exact hfold
    · rw [Catalog.closed, if_pos haccepted]
      exact haccepted
    · change cleaned site c.rows req s₄.objects = _
      rw [hobjects]
      rfl

/-- The row `_create_assignment` adds. -/
def freshRow (site : Site) (urls : String → Option String) (cfg : ConfigYml) (code : String) (a : AssignmentYml) :
    AssignmentRow :=
  { freshColumns site code a with contentFiles := buildContentFiles urls cfg.subjectCode code a }

/-- What the planned update of the code makes of its row. -/
def updatedRow (site : Site) (urls : String → Option String) (cfg : ConfigYml) (code : String) (row : AssignmentRow)
    (u : AssignmentYml × List AssignmentField) : AssignmentRow :=
  u.2.foldl (applyAssignmentField site urls cfg code u.1) row

/-! The three loops over the assignments -/

theorem foldlM_create {as : List (String × AssignmentYml)}
    (h : (as.map fun a => Rows.createAssignment site urls cfg a.1 a.2).foldlM (fun r f => f r) rows = some rows') :
    rows' = { rows with assignments := rows.assignments ++ as.map fun a => (a.1, freshRow site urls cfg a.1 a.2) } := by
  induction as generalizing rows with
  | nil =>
    obtain rfl := Option.some.inj h
    simp
  | cons a as ih =>
    rw [List.map_cons, List.foldlM_cons, Option.bind_eq_bind, Option.bind_eq_some_iff] at h
    obtain ⟨r, hr, h⟩ := h
    rw [Rows.createAssignment, Option.ite_none_right_eq_some] at hr
    obtain rfl := Option.some.inj hr.2
    rw [ih h]
    simp [freshRow]

theorem foldlM_update {us : List (String × AssignmentYml × List AssignmentField)}
    (h : (us.map fun u r => some (Rows.updateAssignment site urls cfg u.1 u.2.1 u.2.2 r)).foldlM (fun r f => f r) rows =
      some rows') :
    rows' = { rows with assignments := rows.assignments.map fun p =>
      (p.1, us.foldl (fun row u => if u.1 = p.1 then updatedRow site urls cfg p.1 row u.2 else row) p.2) } := by
  induction us generalizing rows with
  | nil =>
    obtain rfl := Option.some.inj h
    simp
  | cons u us ih =>
    rw [List.map_cons, List.foldlM_cons, Option.bind_eq_bind, Option.bind_some] at h
    rw [ih h, Rows.updateAssignment]
    simp only [List.map_map]
    congr 1
    refine List.map_congr_left fun p _ => ?_
    rw [Function.comp_apply, List.foldl_cons]
    split_ifs with hcode hcode' hcode'
    · rw [← hcode]
      rfl
    · exact absurd hcode.symm hcode'
    · exact absurd hcode'.symm hcode
    · rfl

theorem foldlM_delete {codes : List String}
    (h : (codes.map fun code r => some (Rows.deleteAssignment code r)).foldlM (fun r f => f r) rows = some rows') :
    rows' = { rows with assignments := rows.assignments.filter fun p => decide (p.1 ∉ codes) } := by
  induction codes generalizing rows with
  | nil =>
    obtain rfl := Option.some.inj h
    simp
  | cons code codes ih =>
    rw [List.map_cons, List.foldlM_cons, Option.bind_eq_bind, Option.bind_some] at h
    rw [ih h, Rows.deleteAssignment]
    simp only [List.filter_filter]
    congr 1
    refine List.filter_congr fun p _ => ?_
    by_cases hcode : p.1 = code <;> simp [hcode]

/-- The assignment rows after an apply: the old ones and the new ones, with their updates, but for
those whose code is gone. -/
theorem Applied.rows_eq (h : Applied site c req c') :
    let urls := uploadedUrls site c.rows req
    let plan := req.plan c.rows
    c'.rows = { subject := (c.rows.withSubject site req).subject
                assignments := (((c.rows.assignments ++ plan.assignmentsToCreate.map fun a =>
                    (a.1, freshRow site urls req.archive.cfg a.1 a.2)).map fun p =>
                  (p.1, plan.assignmentsToUpdate.foldl
                    (fun row u => if u.1 = p.1 then updatedRow site urls req.archive.cfg p.1 row u.2 else row) p.2)).filter
                  fun p => decide (p.1 ∉ plan.assignmentsToDelete))
                versions := c.rows.versions ++ [req.archive] } := by
  have hrows := h.rows
  rw [rowSteps, List.foldlM_append, Option.bind_eq_bind, Option.bind_eq_some_iff] at hrows
  obtain ⟨r₃, h₃, hversion⟩ := hrows
  rw [List.foldlM_append, Option.bind_eq_bind, Option.bind_eq_some_iff] at h₃
  obtain ⟨r₂, h₂, hdelete⟩ := h₃
  rw [List.foldlM_append, Option.bind_eq_bind, Option.bind_eq_some_iff] at h₂
  obtain ⟨r₁, hcreate, hupdate⟩ := h₂
  have hr₃ := foldlM_delete hdelete
  have hr₂ := foldlM_update hupdate
  have hr₁ := foldlM_create hcreate
  have hfinal : c'.rows = r₃.addVersion req.archive := (Option.some.inj hversion).symm
  rw [hfinal, hr₃, hr₂, hr₁, Rows.addVersion]
  simp

theorem foldl_applySubjectField_code (fields : List SubjectField) (row : SubjectRow) :
    (fields.foldl (applySubjectField urls cfg) row).code = row.code := by
  induction fields generalizing row with
  | nil => rfl
  | cons field fields ih =>
    rw [List.foldl_cons, ih]
    rcases field with _ | _ | _ | slot
    · rfl
    · rfl
    · rfl
    · unfold applySubjectField
      dsimp only
      split <;> rfl

/-- The subject has its row, under the code of the config. -/
theorem withSubject_code (h : applyAllowed rows req = true) :
    ∃ row, (rows.withSubject site req).subject = some row ∧ row.code = req.archive.cfg.subjectCode := by
  rw [applyAllowed, Bool.and_eq_true] at h
  unfold Rows.withSubject Rows.writeSubject
  rcases hsubject : rows.subject with _ | row
  · exact ⟨_, rfl, rfl⟩
  · rw [hsubject, Option.all_some, Bool.and_eq_true, beq_iff_eq] at h
    refine ⟨_, rfl, ?_⟩
    rw [foldl_applySubjectField_code]
    exact h.2.1

theorem Applied.latest (h : Applied site c req c') :
    c'.rows.latest = some req.archive ∧ ∃ row, c'.rows.subject = some row ∧ row.code = req.archive.cfg.subjectCode := by
  obtain ⟨row, hrow, hcode⟩ : ∃ row, (c.rows.withSubject site req).subject = some row ∧ _ := withSubject_code h.allowed
  have hsubject : c'.rows.subject = some row := by
    rw [h.rows_eq]
    exact hrow
  refine ⟨?_, row, hsubject, hcode⟩
  rw [Rows.latest, hsubject, h.rows_eq]
  simp

theorem Applied.prevConfig (h : Applied site c req c') : c'.rows.prevConfig = req.archive.cfg := by
  rw [Rows.prevConfig, h.latest.1]
  rfl

end SubmissionsChecker
