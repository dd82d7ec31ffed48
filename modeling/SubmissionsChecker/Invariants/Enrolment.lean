import SubmissionsChecker.Routes.Enrolment

/-! What every request keeps of a roster: no row twice, none for an unknown student or assignment, and one for every
enrolled student in every assignment. -/

namespace SubmissionsChecker

namespace Roster

/-- The student and the assignment of each row. -/
def keys (r : Roster) : List (ℕ × ℕ) := r.studentsAssignments.map (·.key)

structure Sound (r : Roster) : Prop where
  once : r.subjectsStudents.Nodup
  known : ∀ p ∈ r.subjectsStudents, p.2 < r.students.length
  keyed : r.keys.Nodup
  held : ∀ p ∈ r.keys, p.1 < r.students.length ∧ p.2 < r.subjectsAssignments.length
  covered : ∀ s t, (s, t) ∈ r.subjectsStudents → ∀ a ∈ r.assignmentIds s, (t, a) ∈ r.keys

/-- Each row stays where it is, with its student, its assignment and its grade. -/
def Kept (r r' : Roster) : Prop := ∀ (k : ℕ) row, r.studentsAssignments[k]? = some row →
  ∃ row', r'.studentsAssignments[k]? = some row' ∧ row'.key = row.key ∧ row'.grade = row.grade

section

variable {r r' : Roster} {s t a : ℕ} {variant : Option String} {asgIds : List ℕ}

theorem Kept.refl (r : Roster) : r.Kept r := fun _ row hrow => ⟨row, hrow, rfl, rfl⟩

theorem Kept.trans {r₁ r₂ r₃ : Roster} (h : r₁.Kept r₂) (h' : r₂.Kept r₃) : r₁.Kept r₃ := by
  intro k row hrow
  obtain ⟨row₂, hrow₂, hkey, hgrade⟩ := h k row hrow
  obtain ⟨row₃, hrow₃, hkey', hgrade'⟩ := h' k row₂ hrow₂
  exact ⟨row₃, hrow₃, hkey'.trans hkey, hgrade'.trans hgrade⟩

theorem Kept.of_append {rows : List CourseRow} (h : r'.studentsAssignments = r.studentsAssignments ++ rows) : r.Kept r' := by
  intro k row hrow
  exact ⟨row, by rw [h, Table.getElem?_append_old hrow], rfl, rfl⟩

theorem Kept.of_same (h : r'.studentsAssignments = r.studentsAssignments) : r.Kept r' :=
  .of_append (by rw [h, List.append_nil] : r'.studentsAssignments = r.studentsAssignments ++ [])

theorem Kept.foldl {α : Type} {f : Roster → α → Roster} (hf : ∀ (r : Roster) x, r.Kept (f r x)) (xs : List α) (r : Roster) :
    r.Kept (xs.foldl f r) := by
  induction xs generalizing r with
  | nil => exact .refl r
  | cons x xs ih => exact (hf r x).trans (ih (f r x))

@[simp] theorem key_withVariant (variant : Option String) (row : CourseRow) :
    (row.withVariant variant).key = row.key := by
  unfold CourseRow.withVariant
  cases variant.filter (· ≠ "") <;> rfl

@[simp] theorem grade_withVariant (variant : Option String) (row : CourseRow) :
    (row.withVariant variant).grade = row.grade := by
  unfold CourseRow.withVariant
  cases variant.filter (· ≠ "") <;> rfl

/-! ### `_ensure_assignment_rows` -/

theorem keys_ensureRow (t : ℕ) (variant : Option String) (r : Roster) (a : ℕ) :
    (r.ensureRow t variant a).keys = if (t, a) ∈ r.keys then r.keys else r.keys ++ [(t, a)] := by
  unfold ensureRow keys
  cases hk : Table.findId (fun row => row.key == (t, a)) r.studentsAssignments with
  | none =>
    have hnew : (t, a) ∉ r.studentsAssignments.map (·.key) := by
      intro hmem
      obtain ⟨row, hrow, hkey⟩ := List.mem_map.mp hmem
      simpa [hkey] using Table.findId_none hk row hrow
    rw [if_neg hnew]
    dsimp only
    rw [List.map_append, List.map_singleton, key_withVariant]
    rfl
  | some k =>
    obtain ⟨row, hrow, hkey⟩ := Table.findId_some hk
    have hold : (t, a) ∈ r.studentsAssignments.map (·.key) :=
      List.mem_map.mpr ⟨row, List.mem_of_getElem? hrow, by simpa using hkey⟩
    rw [if_pos hold]
    exact Table.map_modify (key_withVariant variant) _ _

theorem kept_ensureRow (t : ℕ) (variant : Option String) (r : Roster) (a : ℕ) : r.Kept (r.ensureRow t variant a) := by
  unfold ensureRow
  cases Table.findId (fun row => row.key == (t, a)) r.studentsAssignments with
  | none => exact .of_append rfl
  | some k =>
    intro i row hrow
    dsimp only
    rw [List.getElem?_modify, hrow]
    by_cases hi : k = i
    · exact ⟨_, rfl, by simp [hi], by simp [hi]⟩
    · exact ⟨_, rfl, by simp [hi], by simp [hi]⟩

/-- Only rows are written. -/
theorem ensureAssignmentRows_eq (t : ℕ) (variant : Option String) (asgIds : List ℕ) (r : Roster) :
    r.ensureAssignmentRows t asgIds variant =
      { r with studentsAssignments := (r.ensureAssignmentRows t asgIds variant).studentsAssignments } := by
  unfold ensureAssignmentRows
  induction asgIds generalizing r with
  | nil => rfl
  | cons a asgIds ih =>
    have hrow : r.ensureRow t variant a = { r with studentsAssignments := (r.ensureRow t variant a).studentsAssignments } := by
      unfold ensureRow
      split <;> rfl
    rw [List.foldl_cons, ih, hrow]

theorem mem_keys_ensureAssignmentRows (t : ℕ) (variant : Option String) (asgIds : List ℕ) (r : Roster) (p : ℕ × ℕ) :
    p ∈ (r.ensureAssignmentRows t asgIds variant).keys ↔ p ∈ r.keys ∨ p.1 = t ∧ p.2 ∈ asgIds := by
  unfold ensureAssignmentRows
  induction asgIds generalizing r with
  | nil => simp
  | cons a asgIds ih =>
    rw [List.foldl_cons, ih, keys_ensureRow]
    obtain ⟨p₁, p₂⟩ := p
    split_ifs with hold
    · constructor
      · rintro (h | ⟨h₁, h₂⟩)
        · exact .inl h
        · exact .inr ⟨h₁, List.mem_cons_of_mem _ h₂⟩
      · rintro (h | ⟨h₁, h₂⟩)
        · exact .inl h
        · rcases List.mem_cons.mp h₂ with h | h
          · left
            dsimp only at h h₁
            rw [h, h₁]
            exact hold
          · exact .inr ⟨h₁, h⟩
    · simp only [List.mem_append, List.mem_cons, List.not_mem_nil, or_false, Prod.mk.injEq]
      tauto

theorem nodup_ensureAssignmentRows (t : ℕ) (variant : Option String) (asgIds : List ℕ) (h : r.keys.Nodup) :
    (r.ensureAssignmentRows t asgIds variant).keys.Nodup := by
  unfold ensureAssignmentRows
  induction asgIds generalizing r with
  | nil => exact h
  | cons a asgIds ih =>
    rw [List.foldl_cons]
    refine ih ?_
    rw [keys_ensureRow]
    split_ifs with hold
    · exact h
    · exact List.Nodup.append h (List.nodup_singleton _) (by simpa using hold)

theorem kept_ensureAssignmentRows (t : ℕ) (variant : Option String) (asgIds : List ℕ) (r : Roster) :
    r.Kept (r.ensureAssignmentRows t asgIds variant) :=
  .foldl (kept_ensureRow t variant) asgIds r

@[simp] theorem subjectsStudents_ensureAssignmentRows (r : Roster) (t : ℕ) (asgIds : List ℕ) (variant : Option String) :
    (r.ensureAssignmentRows t asgIds variant).subjectsStudents = r.subjectsStudents :=
  congrArg (·.subjectsStudents) (ensureAssignmentRows_eq t variant asgIds r)

@[simp] theorem students_ensureAssignmentRows (r : Roster) (t : ℕ) (asgIds : List ℕ) (variant : Option String) :
    (r.ensureAssignmentRows t asgIds variant).students = r.students :=
  congrArg (·.students) (ensureAssignmentRows_eq t variant asgIds r)

@[simp] theorem subjectsAssignments_ensureAssignmentRows (r : Roster) (t : ℕ) (asgIds : List ℕ)
    (variant : Option String) : (r.ensureAssignmentRows t asgIds variant).subjectsAssignments = r.subjectsAssignments :=
  congrArg (·.subjectsAssignments) (ensureAssignmentRows_eq t variant asgIds r)

theorem lt_of_mem_assignmentIds (h : a ∈ r.assignmentIds s) : a < r.subjectsAssignments.length := by
  obtain ⟨_, hrow, -⟩ := Table.mem_idsWhere.mp h
  exact (List.getElem?_eq_some_iff.mp hrow).1

/-- The rows of a student complete a roster that lacked no others. -/
theorem sound_ensureAssignmentRows (once : r.subjectsStudents.Nodup) (known : ∀ p ∈ r.subjectsStudents, p.2 < r.students.length)
    (keyed : r.keys.Nodup) (held : ∀ p ∈ r.keys, p.1 < r.students.length ∧ p.2 < r.subjectsAssignments.length)
    (ht : t < r.students.length) (hids : ∀ a ∈ asgIds, a < r.subjectsAssignments.length)
    (hrows : ∀ s t', (s, t') ∈ r.subjectsStudents → ∀ a ∈ r.assignmentIds s, (t', a) ∈ r.keys ∨ t' = t ∧ a ∈ asgIds)
    (variant : Option String) : (r.ensureAssignmentRows t asgIds variant).Sound where
  once := by simpa using once
  known := by simpa using known
  keyed := nodup_ensureAssignmentRows t variant asgIds keyed
  held := by
    intro p hp
    rw [students_ensureAssignmentRows, subjectsAssignments_ensureAssignmentRows]
    rcases (mem_keys_ensureAssignmentRows t variant asgIds r p).mp hp with hp | ⟨hpt, hpa⟩
    · exact held p hp
    · exact ⟨hpt ▸ ht, hids p.2 hpa⟩
  covered := by
    intro s t' hmem a ha
    rw [subjectsStudents_ensureAssignmentRows] at hmem
    unfold assignmentIds at ha
    rw [subjectsAssignments_ensureAssignmentRows] at ha
    exact (mem_keys_ensureAssignmentRows t variant asgIds r (t', a)).mpr (hrows s t' hmem a ha)

theorem Sound.ensured (h : r.Sound) (ht : t < r.students.length) (hids : ∀ a ∈ asgIds, a < r.subjectsAssignments.length)
    (variant : Option String) : (r.ensureAssignmentRows t asgIds variant).Sound :=
  sound_ensureAssignmentRows h.once h.known h.keyed h.held ht hids
    (fun s t' hmem a ha => .inl (h.covered s t' hmem a ha)) variant

/-- A student who is enrolled, with a row for each assignment. -/
theorem Sound.enrolled (h : r.Sound) (hnew : (s, t) ∉ r.subjectsStudents) (ht : t < r.students.length)
    (variant : Option String) : ((r.enrol s t).ensureAssignmentRows t (r.assignmentIds s) variant).Sound := by
  refine sound_ensureAssignmentRows (r := r.enrol s t) ?_ ?_ h.keyed h.held ht (fun a => lt_of_mem_assignmentIds) ?_ variant
  · exact List.Nodup.append h.once (List.nodup_singleton _) (by simpa using hnew)
  · intro p hp
    rcases List.mem_append.mp hp with hp | hp
    · exact h.known p hp
    · rw [List.mem_singleton.mp hp]
      exact ht
  · intro s' t' hmem a ha
    rcases List.mem_append.mp hmem with hmem | hmem
    · exact .inl (h.covered s' t' hmem a ha)
    · obtain ⟨rfl, rfl⟩ := Prod.mk.inj (List.mem_singleton.mp hmem)
      exact .inr ⟨rfl, ha⟩

/-! ### The requests -/

theorem enrollStudent_ok (hok : r.enrollStudent s t = .ok r') : r' = r ∨ (s, t) ∉ r.subjectsStudents ∧
    t < r.students.length ∧ r' = (r.enrol s t).ensureAssignmentRows t (r.assignmentIds s) none := by
  unfold enrollStudent at hok
  split_ifs at hok with hs henrolled ht
  · cases hok
    exact .inl rfl
  · cases hok
    exact .inr ⟨henrolled, not_le.mp ht, rfl⟩

theorem enrollStudentBySearch_ok {variant : String} (hok : r.enrollStudentBySearch s t variant = .ok r') : r' = r ∨
    (s, t) ∉ r.subjectsStudents ∧ t < r.students.length ∧
      r' = (r.enrol s t).ensureAssignmentRows t (r.assignmentIds s) (some variant) := by
  unfold enrollStudentBySearch at hok
  dsimp only at hok
  split_ifs at hok with hs hneeds henrolled ht
  · cases hok
    exact .inl rfl
  · cases hok
    exact .inr ⟨henrolled, not_le.mp ht, rfl⟩

/-- What one line of a CSV does to the rows. -/
theorem importLine_cases (s : ℕ) (asgIds : List ℕ) (acc : Roster × ImportReport) (line : (String × String) × ℕ) :
    (importLine s asgIds acc line).1 = acc.1 ∨ ∃ t < acc.1.students.length,
      ((s, t) ∈ acc.1.subjectsStudents ∧
          (importLine s asgIds acc line).1 = acc.1.ensureAssignmentRows t asgIds (some line.1.2)) ∨
        (s, t) ∉ acc.1.subjectsStudents ∧
          (importLine s asgIds acc line).1 = (acc.1.enrol s t).ensureAssignmentRows t asgIds (some line.1.2) := by
  unfold importLine
  dsimp only
  split_ifs with hemail
  · exact .inl rfl
  · cases hfound : Table.findId (· == line.1.1) acc.1.students with
    | none => exact .inl rfl
    | some t =>
      obtain ⟨_, hrow, -⟩ := Table.findId_some hfound
      right
      refine ⟨t, (List.getElem?_eq_some_iff.mp hrow).1, ?_⟩
      dsimp only
      split_ifs with henrolled
      · exact .inl ⟨henrolled, rfl⟩
      · exact .inr ⟨henrolled, rfl⟩

/-- The lines of a CSV, one after another. -/
theorem import_keeps (s : ℕ) (lines : List ((String × String) × ℕ)) (acc : Roster × ImportReport) (h : acc.1.Sound)
    (hids : acc.1.assignmentIds s = asgIds) :
    (lines.foldl (importLine s asgIds) acc).1.Sound ∧ acc.1.Kept (lines.foldl (importLine s asgIds) acc).1 := by
  induction lines generalizing acc with
  | nil => exact ⟨h, .refl _⟩
  | cons line lines ih =>
    rw [List.foldl_cons]
    have hlt : ∀ a ∈ asgIds, a < acc.1.subjectsAssignments.length := fun a ha => lt_of_mem_assignmentIds (hids ▸ ha)
    -- the line first: it is sound, keeps the rows, and leaves the subject its assignments
    have hline : (importLine s asgIds acc line).1.Sound ∧ acc.1.Kept (importLine s asgIds acc line).1 ∧
        (importLine s asgIds acc line).1.assignmentIds s = asgIds := by
      rcases importLine_cases s asgIds acc line with hsame | ⟨t, ht, ⟨-, hrows⟩ | ⟨hnew, hrows⟩⟩
      · rw [hsame]
        exact ⟨h, .refl _, hids⟩
      · rw [hrows]
        refine ⟨h.ensured ht hlt _, kept_ensureAssignmentRows t _ asgIds acc.1, ?_⟩
        rw [← hids]
        unfold assignmentIds
        rw [subjectsAssignments_ensureAssignmentRows]
      · rw [hrows]
        refine ⟨hids ▸ h.enrolled hnew ht _, kept_ensureAssignmentRows t _ asgIds (acc.1.enrol s t), ?_⟩
        rw [← hids]
        unfold assignmentIds
        rw [subjectsAssignments_ensureAssignmentRows]
        rfl
    obtain ⟨hsound, hkept, hids'⟩ := hline
    obtain ⟨hsound', hkept'⟩ := ih _ hsound hids'
    exact ⟨hsound', hkept.trans hkept'⟩

/-- The test student: a new student, enrolled with a row for each assignment. -/
theorem provisionTestStudent_keeps {form : String → Option String} (h : r.Sound)
    (hok : r.provisionTestStudent s form = .ok r') : r'.Sound ∧ r.Kept r' := by
  unfold provisionTestStudent at hok
  dsimp only at hok
  split_ifs at hok with hs htest hemail
  · cases hok
    exact ⟨h, .refl r⟩
  · cases hok
    have hkeys : (r.studentsAssignments ++ (r.assignmentIds s).map fun a =>
        ({ studentId := r.students.length, subjectsAssignmentId := a
           variant := (r.assignment a).bind (testVariant form) } : CourseRow)).map (·.key) =
        r.keys ++ (r.assignmentIds s).map fun a => (r.students.length, a) := by
      rw [List.map_append, List.map_map]
      rfl
    refine ⟨⟨?_, ?_, ?_, ?_, ?_⟩, .of_append rfl⟩
    · refine List.Nodup.append h.once (List.nodup_singleton _) ?_
      intro p hp hnew
      rw [List.mem_singleton] at hnew
      subst hnew
      exact absurd (h.known _ hp) (lt_irrefl _)
    · intro p hp
      dsimp only at hp ⊢
      rw [List.length_append, List.length_singleton]
      rcases List.mem_append.mp hp with hp | hp
      · exact Nat.lt_succ_of_lt (h.known p hp)
      · rw [List.mem_singleton.mp hp]
        exact Nat.lt_succ_self _
    · unfold keys
      rw [hkeys]
      refine List.Nodup.append h.keyed ((Table.nodup_idsWhere _ _).map fun a b hab => (Prod.mk.inj hab).2) ?_
      intro p hp hnew
      obtain ⟨a, -, rfl⟩ := List.mem_map.mp hnew
      exact absurd (h.held _ hp).1 (lt_irrefl _)
    · intro p hp
      unfold keys at hp
      rw [hkeys] at hp
      dsimp only
      rw [List.length_append, List.length_singleton]
      rcases List.mem_append.mp hp with hp | hp
      · exact ⟨Nat.lt_succ_of_lt (h.held p hp).1, (h.held p hp).2⟩
      · obtain ⟨a, ha, rfl⟩ := List.mem_map.mp hp
        exact ⟨Nat.lt_succ_self _, lt_of_mem_assignmentIds ha⟩
    · intro s' t hmem a ha
      unfold keys
      rw [hkeys]
      rcases List.mem_append.mp hmem with hmem | hmem
      · exact List.mem_append_left _ (h.covered s' t hmem a ha)
      · obtain ⟨rfl, rfl⟩ := Prod.mk.inj (List.mem_singleton.mp hmem)
        exact List.mem_append_right _ (List.mem_map.mpr ⟨a, ha, rfl⟩)

theorem unenrollStudent_keeps (h : r.Sound) (hok : r.unenrollStudent s t = .ok r') : r'.Sound ∧ r.Kept r' := by
  unfold unenrollStudent at hok
  split_ifs at hok with hs
  cases hok
  refine ⟨⟨h.once.erase _, ?_, h.keyed, h.held, ?_⟩, .of_same rfl⟩
  · exact fun p hp => h.known p (List.mem_of_mem_erase hp)
  · exact fun s' t' hmem => h.covered s' t' (List.mem_of_mem_erase hmem)

/-! ### The plan -/

theorem nodup_enrolledIn (h : r.Sound) (s : ℕ) : (r.enrolledIn s).Nodup := by
  unfold enrolledIn
  refine (h.once.filter _).map_on ?_
  intro p hp q hq hpq
  have hp₁ : p.1 = s := by simpa using (List.mem_filter.mp hp).2
  have hq₁ : q.1 = s := by simpa using (List.mem_filter.mp hq).2
  exact Prod.ext (hp₁.trans hq₁.symm) hpq

theorem mem_enrolledIn : t ∈ r.enrolledIn s ↔ (s, t) ∈ r.subjectsStudents := by
  unfold enrolledIn
  constructor
  · intro h
    obtain ⟨p, hp, rfl⟩ := List.mem_map.mp h
    obtain ⟨hmem, hs⟩ := List.mem_filter.mp hp
    rw [← show p.1 = s by simpa using hs]
    exact hmem
  · intro h
    exact List.mem_map.mpr ⟨(s, t), List.mem_filter.mpr ⟨h, by simp⟩, rfl⟩

/-- A new assignment: nobody had a row, everyone enrolled is given one. -/
theorem createAssignment_keeps {block : String × VariantBlock} (h : r.Sound)
    (hok : createAssignment s r block = .ok r') : r'.Sound ∧ r.Kept r' := by
  unfold createAssignment at hok
  split_ifs at hok with hcode
  cases hok
  have hkeys : (r.studentsAssignments ++ (r.enrolledIn s).map fun studentId =>
      ({ studentId, subjectsAssignmentId := r.subjectsAssignments.length } : CourseRow)).map (·.key) =
      r.keys ++ (r.enrolledIn s).map fun t => (t, r.subjectsAssignments.length) := by
    rw [List.map_append, List.map_map]
    rfl
  refine ⟨⟨h.once, h.known, ?_, ?_, ?_⟩, .of_append rfl⟩
  · unfold keys
    rw [hkeys]
    refine List.Nodup.append h.keyed ((nodup_enrolledIn h s).map fun a b hab => (Prod.mk.inj hab).1) ?_
    intro p hp hnew
    obtain ⟨t, -, rfl⟩ := List.mem_map.mp hnew
    exact absurd (h.held _ hp).2 (lt_irrefl _)
  · intro p hp
    unfold keys at hp
    rw [hkeys] at hp
    dsimp only
    rw [List.length_append, List.length_singleton]
    rcases List.mem_append.mp hp with hp | hp
    · exact ⟨(h.held p hp).1, Nat.lt_succ_of_lt (h.held p hp).2⟩
    · obtain ⟨t, ht, rfl⟩ := List.mem_map.mp hp
      exact ⟨h.known _ (mem_enrolledIn.mp ht), Nat.lt_succ_self _⟩
  · intro s' t hmem a ha
    unfold keys
    rw [hkeys]
    unfold assignmentIds at ha
    dsimp only at ha
    rw [Table.idsWhere_concat] at ha
    rcases List.mem_append.mp ha with ha | ha
    · exact List.mem_append_left _ (h.covered s' t hmem a ha)
    · split_ifs at ha with hs
      · rw [List.mem_singleton.mp ha]
        have hs' : s = s' := by simpa using hs
        exact List.mem_append_right _ (List.mem_map.mpr ⟨t, mem_enrolledIn.mpr (hs' ▸ hmem), rfl⟩)
      · cases ha

/-- No assignment changes its subject. -/
theorem updateAssignment_keeps (h : r.Sound) (block : String × VariantBlock) :
    (updateAssignment s r block).Sound ∧ r.Kept (updateAssignment s r block) := by
  unfold updateAssignment
  cases r.assignmentWithCode s block.1 with
  | none => exact ⟨h, .refl r⟩
  | some i =>
    refine ⟨⟨h.once, h.known, h.keyed, ?_, ?_⟩, .of_same rfl⟩
    · intro p hp
      dsimp only
      rw [List.length_modify]
      exact h.held p hp
    · intro s' t hmem a ha
      refine h.covered s' t hmem a ?_
      obtain ⟨row, hrow, hs⟩ := Table.mem_idsWhere.mp ha
      obtain ⟨row₀, hrow₀, rfl⟩ := Table.getElem?_modify_some hrow
      refine Table.mem_idsWhere.mpr ⟨row₀, hrow₀, ?_⟩
      rw [← hs]
      split_ifs
      · rw [Option.any_map]
      · rfl

/-- An assignment that is deleted had no row. -/
theorem deleteAssignment_keeps {code : String} (h : r.Sound) (hok : deleteAssignment s r code = .ok r') :
    r'.Sound ∧ r.Kept r' := by
  unfold deleteAssignment at hok
  cases hi : r.assignmentWithCode s code with
  | none =>
    rw [hi] at hok
    cases hok
    exact ⟨h, .refl r⟩
  | some i =>
    rw [hi] at hok
    dsimp only at hok
    split_ifs at hok with hrows
    cases hok
    refine ⟨⟨h.once, h.known, h.keyed, ?_, ?_⟩, .of_same rfl⟩
    · intro p hp
      dsimp only
      rw [List.length_set]
      exact h.held p hp
    · intro s' t hmem a ha
      refine h.covered s' t hmem a ?_
      obtain ⟨row, hrow, hs⟩ := Table.mem_idsWhere.mp ha
      dsimp only at hrow
      rw [List.getElem?_set] at hrow
      split_ifs at hrow with hia hlt
      · cases hrow
        cases hs
      · exact Table.mem_idsWhere.mpr ⟨row, hrow, hs⟩

/-- A loop that may raise keeps what each of its passes keeps. -/
theorem foldlM_keeps {α : Type} {f : Roster → α → Except RosterError Roster}
    (hf : ∀ r x r', Sound r → f r x = .ok r' → r'.Sound ∧ r.Kept r') (xs : List α) (h : r.Sound)
    (hok : xs.foldlM f r = .ok r') : r'.Sound ∧ r.Kept r' := by
  induction xs generalizing r with
  | nil =>
    cases hok
    exact ⟨h, .refl _⟩
  | cons x xs ih =>
    rw [List.foldlM_cons] at hok
    cases hx : f r x with
    | error e =>
      rw [hx] at hok
      cases hok
    | ok r₁ =>
      rw [hx] at hok
      obtain ⟨hsound, hkept⟩ := hf r x r₁ h hx
      obtain ⟨hsound', hkept'⟩ := ih hsound hok
      exact ⟨hsound', hkept.trans hkept'⟩

theorem executePlan_keeps {cfg : List (String × VariantBlock)} (h : r.Sound) (hok : r.executePlan s cfg = .ok r') :
    r'.Sound ∧ r.Kept r' := by
  unfold executePlan at hok
  dsimp only at hok
  cases hcreate : (toCreate cfg ((r.subjects[s]?).getD [])).foldlM (createAssignment s) r with
  | error e =>
    rw [hcreate] at hok
    cases hok
  | ok r₁ =>
    rw [hcreate] at hok
    obtain ⟨hsound₁, hkept₁⟩ := foldlM_keeps (fun _ _ _ => createAssignment_keeps) _ h hcreate
    have hupdate : ∀ (us : List (String × VariantBlock)) (r : Roster), r.Sound →
        (us.foldl (updateAssignment s) r).Sound ∧ r.Kept (us.foldl (updateAssignment s) r) := by
      intro us
      induction us with
      | nil => exact fun r h => ⟨h, .refl r⟩
      | cons u us ih =>
        intro r h
        obtain ⟨hsound, hkept⟩ := updateAssignment_keeps (s := s) h u
        obtain ⟨hsound', hkept'⟩ := ih _ hsound
        exact ⟨hsound', hkept.trans hkept'⟩
    obtain ⟨hsound₂, hkept₂⟩ := hupdate (toUpdate cfg ((r.subjects[s]?).getD [])) r₁ hsound₁
    change ((toDelete cfg ((r.subjects[s]?).getD [])).foldlM (deleteAssignment s)
      ((toUpdate cfg ((r.subjects[s]?).getD [])).foldl (updateAssignment s) r₁) >>= _) = _ at hok
    cases hdelete : (toDelete cfg ((r.subjects[s]?).getD [])).foldlM (deleteAssignment s)
        ((toUpdate cfg ((r.subjects[s]?).getD [])).foldl (updateAssignment s) r₁) with
    | error e =>
      rw [hdelete] at hok
      cases hok
    | ok r₃ =>
      rw [hdelete] at hok
      cases hok
      obtain ⟨hsound₃, hkept₃⟩ := foldlM_keeps (fun _ _ _ => deleteAssignment_keeps) _ hsound₂ hdelete
      exact ⟨⟨hsound₃.once, hsound₃.known, hsound₃.keyed, hsound₃.held, hsound₃.covered⟩,
        (hkept₁.trans hkept₂).trans (hkept₃.trans (.of_same rfl))⟩

theorem applyConfig_keeps {subject : Option ℕ} {cfg : List (String × VariantBlock)} (h : r.Sound)
    (hok : r.applyConfig subject cfg = .ok r') : r'.Sound ∧ r.Kept r' := by
  unfold applyConfig at hok
  cases subject with
  | none =>
    have hnew : ({ r with subjects := r.subjects ++ [[]] } : Roster).Sound :=
      ⟨h.once, h.known, h.keyed, h.held, h.covered⟩
    obtain ⟨hsound, hkept⟩ := executePlan_keeps hnew hok
    exact ⟨hsound, hkept⟩
  | some s =>
    dsimp only at hok
    split_ifs at hok with hs
    exact executePlan_keeps h hok

end

end Roster

end SubmissionsChecker
