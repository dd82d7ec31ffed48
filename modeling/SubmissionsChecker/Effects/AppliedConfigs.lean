import SubmissionsChecker.Effects.Configures
import SubmissionsChecker.Library.Assoc
import SubmissionsChecker.Services.ConfigApply

/-! The assignment rows and the configs they come from. Each row of a subject is one code's, with the
grade range and the rules of the block its config lists under that code; creating, updating and deleting
rows follows the entries of the config one by one. -/

namespace SubmissionsChecker

/-- The row says what the block of the config says. -/
structure SubjectsAssignment.Mirrors (asg : SubjectsAssignment) (block : AssignmentBlock) : Prop where
  minGrade : asg.minGrade = block.minGrade.getD 0
  maxGrade : asg.maxGrade = block.maxGrade.getD 100
  config : asg.config = block.config

/-- The points of a scored row add up to its grade range. -/
def SubjectsAssignment.PointsFit (asg : SubjectsAssignment) : Prop :=
  asg.config.isScoredMode = true → PointsAddUp asg.config.grading asg.minGrade asg.maxGrade

/-- So do those of a block. -/
def AssignmentBlock.PointsFit (block : AssignmentBlock) : Prop :=
  block.config.isScoredMode = true → PointsAddUp block.config.grading (block.minGrade.getD 0) (block.maxGrade.getD 100)

/-- The rows of the subjects are those that `entries` lists, by subject and code, one each. A row
deleted from its subject is as it was last listed. -/
structure Db.Lists (db : Db) (entries : ℕ × String → Option AssignmentBlock) : Prop where
  listed : ∀ (a : ℕ) asg, db.subjectsAssignments[a]? = some asg → asg.subjectId < db.subjects.length →
    ∃ code block, asg.code = some code ∧ entries (asg.subjectId, code) = some block ∧ asg.Mirrors block
  once : ∀ (a a' : ℕ) asg asg', db.subjectsAssignments[a]? = some asg → db.subjectsAssignments[a']? = some asg' →
    asg.subjectId < db.subjects.length → asg.subjectId = asg'.subjectId → asg.code = asg'.code → a = a'
  fit : ∀ (a : ℕ) asg, db.subjectsAssignments[a]? = some asg → asg.PointsFit

section

variable {db db' : Db} {entries : ℕ × String → Option AssignmentBlock} {x : ℕ} {code : String}
  {block prev : AssignmentBlock}

theorem Db.Lists.same (h : db.Lists entries) (hasgs : db'.subjectsAssignments = db.subjectsAssignments)
    (hlen : db'.subjects.length = db.subjects.length) : db'.Lists entries := by
  refine ⟨?_, ?_, ?_⟩
  · rw [hasgs, hlen]
    exact h.listed
  · rw [hasgs, hlen]
    exact h.once
  · rw [hasgs]
    exact h.fit

theorem SubjectsAssignment.Mirrors.fit {asg : SubjectsAssignment} (h : asg.Mirrors block) (hb : block.PointsFit) :
    asg.PointsFit := by
  unfold SubjectsAssignment.PointsFit
  rw [h.config, h.minGrade, h.maxGrade]
  exact hb

/-- The row found for a code is that code's. -/
theorem assignmentWithCode_some {a : ℕ} (h : db.assignmentWithCode x code = some a) :
    ∃ asg, db.subjectsAssignments[a]? = some asg ∧ asg.subjectId = x ∧ asg.code = some code := by
  obtain ⟨asg, hasg, hp⟩ := Table.findId_some h
  simp only [Bool.and_eq_true, beq_iff_eq] at hp
  exact ⟨asg, hasg, hp⟩

theorem assignmentWithCode_none {a : ℕ} {asg : SubjectsAssignment} (h : db.assignmentWithCode x code = none)
    (hasg : db.subjectsAssignments[a]? = some asg) (hx : asg.subjectId = x) : asg.code ≠ some code := by
  intro hcode
  have hno := Table.findId_none h asg (List.mem_of_getElem? hasg)
  simp [hx, hcode] at hno

/-! One entry -/

theorem ensureSas_subjectsAssignments (asgId : ℕ) (ts : List ℕ) : ∀ db : Db,
    (ts.foldl (fun db t => (db.ensureSa t asgId).1) db).subjectsAssignments = db.subjectsAssignments ∧
      (ts.foldl (fun db t => (db.ensureSa t asgId).1) db).subjects = db.subjects := by
  induction ts with
  | nil => exact fun _ => ⟨rfl, rfl⟩
  | cons t ts ih =>
    intro db
    have hw := within_ensureSa .grades db t asgId
    have hstep : (db.ensureSa t asgId).1.subjects = db.subjects := hw.evolves.subjects
    obtain ⟨hasgs, hsubjects⟩ := ih (db.ensureSa t asgId).1
    exact ⟨hasgs.trans hw.subjectsAssignments, hsubjects.trans hstep⟩

theorem createAssignment_subjectsAssignments (db : Db) (x : ℕ) (code : String) (block : AssignmentBlock) :
    (db.createAssignment x code block).subjectsAssignments = db.subjectsAssignments ++
        [{ subjectId := x, code := some code, deadline := block.deadline, minGrade := block.minGrade.getD 0,
           maxGrade := block.maxGrade.getD 100, config := block.config }] ∧
      (db.createAssignment x code block).subjects = db.subjects :=
  ensureSas_subjectsAssignments _ _ _

theorem lists_create (h : db.Lists entries) (hnew : entries (x, code) = none) (hfit : block.PointsFit) :
    (db.createAssignment x code block).Lists (Function.update entries (x, code) (some block)) := by
  obtain ⟨hasgs, hsubjects⟩ := createAssignment_subjectsAssignments db x code block
  have hold : ∀ {a : ℕ} {asg : SubjectsAssignment}, db.subjectsAssignments[a]? = some asg →
      asg.subjectId < db.subjects.length → asg.subjectId = x → asg.code ≠ some code := by
    intro a asg hasg hlt hx hcode
    obtain ⟨code', block', hcode', hentry, -⟩ := h.listed a asg hasg hlt
    rw [hcode, Option.some_inj] at hcode'
    rw [hx, ← hcode', hnew] at hentry
    cases hentry
  refine ⟨fun a asg hasg hlt => ?_, fun a a' asg asg' hasg hasg' hlt hsubject hcode => ?_, fun a asg hasg => ?_⟩
  · rw [hsubjects] at hlt
    rw [hasgs] at hasg
    rcases Table.getElem?_concat_some hasg with hasg | ⟨-, rfl⟩
    · obtain ⟨code', block', hcode', hentry, hm⟩ := h.listed a asg hasg hlt
      refine ⟨code', block', hcode', ?_, hm⟩
      rw [Function.update_of_ne, hentry]
      intro heq
      rw [Prod.mk.injEq] at heq
      exact hold hasg hlt heq.1 (heq.2 ▸ hcode')
    · exact ⟨code, block, rfl, Function.update_self _ _ _, rfl, rfl, rfl⟩
  · rw [hsubjects] at hlt
    rw [hasgs] at hasg hasg'
    rcases Table.getElem?_concat_some hasg with hasg | ⟨ha, rfl⟩
    · rcases Table.getElem?_concat_some hasg' with hasg' | ⟨-, rfl⟩
      · exact h.once a a' asg asg' hasg hasg' hlt hsubject hcode
      · exact absurd hcode (hold hasg hlt hsubject)
    · rcases Table.getElem?_concat_some hasg' with hasg' | ⟨ha', -⟩
      · exact absurd hcode.symm (hold hasg' (hsubject ▸ hlt) hsubject.symm)
      · exact ha.trans ha'.symm
  · rw [hasgs] at hasg
    rcases Table.getElem?_concat_some hasg with hasg | ⟨-, rfl⟩
    · exact h.fit a asg hasg
    · exact hfit

/-- A row that mirrors the old block mirrors the new one after its changed fields are written. -/
theorem SubjectsAssignment.Mirrors.applyFields {asg : SubjectsAssignment} (h : asg.Mirrors prev) (new : AssignmentBlock) :
    (asg.applyFields new prev).Mirrors new := by
  refine ⟨?_, ?_, ?_⟩
  · change (if new.minGrade = prev.minGrade then asg.minGrade else new.minGrade.getD 0) = _
    split_ifs with hsame
    · rw [hsame]
      exact h.minGrade
    · rfl
  · change (if new.maxGrade = prev.maxGrade then asg.maxGrade else new.maxGrade.getD 100) = _
    split_ifs with hsame
    · rw [hsame]
      exact h.maxGrade
    · rfl
  · change (if new.config = prev.config then asg.config else new.config) = _
    split_ifs with hsame
    · rw [hsame]
      exact h.config
    · rfl

theorem lists_update (h : db.Lists entries) (hx : x < db.subjects.length) (hold : entries (x, code) = some prev)
    (hfit : block.PointsFit) :
    (db.setAssignment (db.assignmentWithCode x code) (·.applyFields block prev)).Lists
      (Function.update entries (x, code) (some block)) := by
  have hother : ∀ {asg : SubjectsAssignment} {code' : String}, ¬ (asg.subjectId = x ∧ asg.code = some code) →
      asg.code = some code' → (asg.subjectId, code') ≠ (x, code) := by
    intro asg code' hno hcode' heq
    rw [Prod.mk.injEq] at heq
    exact hno ⟨heq.1, heq.2 ▸ hcode'⟩
  cases hfind : db.assignmentWithCode x code with
  | none =>
    refine ⟨fun a asg hasg hlt => ?_, h.once, h.fit⟩
    obtain ⟨code', block', hcode', hentry, hm⟩ := h.listed a asg hasg hlt
    refine ⟨code', block', hcode', ?_, hm⟩
    rw [Function.update_of_ne (hother (fun hboth => assignmentWithCode_none hfind hasg hboth.1 hboth.2) hcode'), hentry]
  | some b =>
    obtain ⟨asg₀, hasg₀, hx₀, hcode₀⟩ := assignmentWithCode_some hfind
    have hmirrors₀ : asg₀.Mirrors prev := by
      obtain ⟨code', block', hcode', hentry, hm⟩ := h.listed b asg₀ hasg₀ (hx₀ ▸ hx)
      rw [hcode₀, Option.some_inj] at hcode'
      rw [hx₀, ← hcode', hold, Option.some_inj] at hentry
      rw [hentry]
      exact hm
    have hrow : ∀ {a : ℕ} {asg' : SubjectsAssignment},
        (db.subjectsAssignments.modify b (·.applyFields block prev))[a]? = some asg' →
        ∃ asg, db.subjectsAssignments[a]? = some asg ∧ asg.subjectId = asg'.subjectId ∧ asg.code = asg'.code ∧
          (a = b ∧ asg'.Mirrors block ∨ a ≠ b ∧ asg' = asg) := by
      intro a asg' hasg'
      obtain ⟨asg, hasg, rfl⟩ := Table.getElem?_modify_some hasg'
      by_cases hab : b = a
      · subst hab
        rw [hasg₀, Option.some_inj] at hasg
        subst hasg
        rw [if_pos rfl]
        exact ⟨asg₀, hasg₀, rfl, rfl, .inl ⟨rfl, hmirrors₀.applyFields block⟩⟩
      · rw [if_neg hab]
        exact ⟨asg, hasg, rfl, rfl, .inr ⟨fun h => hab h.symm, rfl⟩⟩
    refine ⟨fun a asg' hasg' hlt => ?_, fun a a' asg asg' hasg hasg' hlt hsubject hcode => ?_, fun a asg' hasg' => ?_⟩
    · obtain ⟨asg, hasg, hsubject, hcode, ⟨rfl, hm⟩ | ⟨hab, rfl⟩⟩ := hrow hasg'
      · rw [hasg₀, Option.some_inj] at hasg
        subst hasg
        exact ⟨code, block, hcode.symm.trans hcode₀, by rw [← hsubject, hx₀, Function.update_self], hm⟩
      · obtain ⟨code', block', hcode', hentry, hm⟩ := h.listed a asg' hasg hlt
        refine ⟨code', block', hcode', ?_, hm⟩
        rw [Function.update_of_ne (hother (fun hboth => ?_) hcode'), hentry]
        exact hab (h.once a b asg' asg₀ hasg hasg₀ hlt (hboth.1.trans hx₀.symm) (hboth.2.trans hcode₀.symm))
    · obtain ⟨asg₁, hasg₁, hsubject₁, hcode₁, -⟩ := hrow hasg
      obtain ⟨asg₂, hasg₂, hsubject₂, hcode₂, -⟩ := hrow hasg'
      exact h.once a a' asg₁ asg₂ hasg₁ hasg₂ (hsubject₁ ▸ hlt) (by rw [hsubject₁, hsubject₂, hsubject])
        (by rw [hcode₁, hcode₂, hcode])
    · obtain ⟨asg, hasg, -, -, ⟨-, hm⟩ | ⟨-, rfl⟩⟩ := hrow hasg'
      · exact hm.fit hfit
      · exact h.fit a asg' hasg

theorem lists_delete (h : db.Lists entries) :
    (db.deleteAssignment x code).Lists (Function.update entries (x, code) none) := by
  unfold Db.deleteAssignment
  cases hfind : db.assignmentWithCode x code with
  | none =>
    refine ⟨fun a asg hasg hlt => ?_, h.once, h.fit⟩
    obtain ⟨code', block', hcode', hentry, hm⟩ := h.listed a asg hasg hlt
    refine ⟨code', block', hcode', ?_, hm⟩
    rw [Function.update_of_ne, hentry]
    intro heq
    rw [Prod.mk.injEq] at heq
    exact assignmentWithCode_none hfind hasg heq.1 (heq.2 ▸ hcode')
  | some b =>
    obtain ⟨asg₀, hasg₀, hx₀, hcode₀⟩ := assignmentWithCode_some hfind
    have hrow : ∀ {a : ℕ} {asg' : SubjectsAssignment},
        (db.subjectsAssignments.modify b ({ · with subjectId := db.subjects.length }))[a]? = some asg' →
        ∃ asg, db.subjectsAssignments[a]? = some asg ∧ asg'.PointsFit = asg.PointsFit ∧
          (asg'.subjectId < db.subjects.length → a ≠ b ∧ asg' = asg) := by
      intro a asg' hasg'
      obtain ⟨asg, hasg, rfl⟩ := Table.getElem?_modify_some hasg'
      by_cases hab : b = a
      · rw [if_pos hab]
        exact ⟨asg, hasg, rfl, fun hlt => absurd hlt (lt_irrefl _)⟩
      · rw [if_neg hab]
        exact ⟨asg, hasg, rfl, fun _ => ⟨fun h => hab h.symm, rfl⟩⟩
    refine ⟨fun a asg' hasg' hlt => ?_, fun a a' asg asg' hasg hasg' hlt hsubject hcode => ?_, fun a asg' hasg' => ?_⟩
    · obtain ⟨asg, hasg, -, hsame⟩ := hrow hasg'
      obtain ⟨hab, rfl⟩ := hsame hlt
      obtain ⟨code', block', hcode', hentry, hm⟩ := h.listed a asg' hasg hlt
      refine ⟨code', block', hcode', ?_, hm⟩
      rw [Function.update_of_ne, hentry]
      intro heq
      rw [Prod.mk.injEq] at heq
      exact hab (h.once a b asg' asg₀ hasg hasg₀ hlt (heq.1.trans hx₀.symm) (by rw [hcode', heq.2, hcode₀]))
    · obtain ⟨asg₁, hasg₁, -, hsame₁⟩ := hrow hasg
      obtain ⟨asg₂, hasg₂, -, hsame₂⟩ := hrow hasg'
      obtain ⟨-, rfl⟩ := hsame₁ hlt
      obtain ⟨-, rfl⟩ := hsame₂ (hsubject ▸ hlt)
      exact h.once a a' asg asg' hasg₁ hasg₂ hlt hsubject hcode
    · obtain ⟨asg, hasg, hfit, -⟩ := hrow hasg'
      rw [hfit]
      exact h.fit a asg hasg

/-! A whole config -/

/-- What the configs stored last list. -/
def entriesOf (stored : ℕ → SubjectConfig) : ℕ × String → Option AssignmentBlock :=
  fun entry => (stored entry.1).assignments.lookup entry.2

theorem lists_foldl {α : Type*} (f : Db → α → Db) (key : α → ℕ × String) (value old : α → Option AssignmentBlock) {n : ℕ}
    {l : List α} (hd : (l.map key).Nodup)
    (hstep : ∀ (db : Db) entries, ∀ a ∈ l, db.Lists entries → db.subjects.length = n → entries (key a) = old a →
      (f db a).Lists (Function.update entries (key a) (value a)) ∧ (f db a).subjects.length = n)
    (h : db.Lists entries) (hn : db.subjects.length = n) (hold : ∀ a ∈ l, entries (key a) = old a) :
    (l.foldl f db).Lists (l.foldl (fun entries a => Function.update entries (key a) (value a)) entries) ∧
      (l.foldl f db).subjects.length = n := by
  induction l generalizing db entries with
  | nil => exact ⟨h, hn⟩
  | cons a l ih =>
    rw [List.map_cons, List.nodup_cons] at hd
    obtain ⟨hnext, hlen⟩ := hstep db entries a List.mem_cons_self h hn (hold a List.mem_cons_self)
    refine ih hd.2 (fun db entries b hb => hstep db entries b (List.mem_cons_of_mem _ hb)) hnext hlen fun b hb => ?_
    have hne : key b ≠ key a := fun heq => hd.1 (heq ▸ List.mem_map_of_mem hb)
    exact (Function.update_of_ne hne _ _).trans (hold b (List.mem_cons_of_mem _ hb))

theorem setAssignment_subjects (db : Db) (asgId : Option ℕ) (f : SubjectsAssignment → SubjectsAssignment) :
    (db.setAssignment asgId f).subjects = db.subjects := by
  cases asgId <;> rfl

theorem nodup_keys {α : Type*} {l : List α} {f : α → String} (x : ℕ) (h : (l.map f).Nodup) :
    (l.map fun a => (x, f a)).Nodup := by
  have hmap : (l.map fun a => (x, f a)) = (l.map f).map (x, ·) := by simp
  rw [hmap]
  exact h.map fun a b heq => (Prod.mk.inj heq).2

theorem not_mem_keys {α : Type*} {l : List α} {f : α → String} {x y : ℕ} {c : String}
    (h : y ≠ x ∨ c ∉ l.map f) : (y, c) ∉ l.map fun a => (x, f a) := by
  intro hmem
  obtain ⟨a, ha, heq⟩ := List.mem_map.mp hmem
  rw [Prod.mk.injEq] at heq
  rcases h with hne | hnot
  · exact hne heq.1.symm
  · exact hnot (heq.2 ▸ List.mem_map_of_mem ha)

section

variable {cfg old : SubjectConfig} {a : String × AssignmentBlock} {c : String}

theorem SubjectConfig.mem_toCreate : a ∈ cfg.toCreate old ↔ a ∈ cfg.assignments ∧ old.assignments.lookup a.1 = none := by
  simp [SubjectConfig.toCreate]

theorem toUpdate_codes : (cfg.toUpdate old).map (·.1) =
    (cfg.assignments.filter fun a => (old.assignments.lookup a.1).isSome).map (·.1) := by
  unfold SubjectConfig.toUpdate
  induction cfg.assignments with
  | nil => rfl
  | cons a l ih =>
    rcases hold : old.assignments.lookup a.1 with _ | b
    · simpa [hold] using ih
    · simpa [hold] using ih

theorem SubjectConfig.mem_toUpdate {u : String × AssignmentBlock × AssignmentBlock} :
    u ∈ cfg.toUpdate old ↔ (u.1, u.2.1) ∈ cfg.assignments ∧ old.assignments.lookup u.1 = some u.2.2 := by
  unfold SubjectConfig.toUpdate
  rw [List.mem_filterMap]
  constructor
  · rintro ⟨a, ha, hu⟩
    obtain ⟨b, hb, rfl⟩ := Option.map_eq_some_iff.mp hu
    exact ⟨ha, hb⟩
  · rintro ⟨ha, hold⟩
    exact ⟨(u.1, u.2.1), ha, by rw [hold]; rfl⟩

theorem SubjectConfig.mem_toDelete : c ∈ cfg.toDelete old ↔ c ∈ old.assignments.map (·.1) ∧ cfg.assignments.lookup c = none := by
  simp [SubjectConfig.toDelete]

end

/-- What the plan lists after each of its three parts. -/
def createdEntries (stored : ℕ → SubjectConfig) (x : ℕ) (cfg : SubjectConfig) : ℕ × String → Option AssignmentBlock :=
  (cfg.toCreate (stored x)).foldl (fun entries a => Function.update entries (x, a.1) (some a.2)) (entriesOf stored)

def updatedEntries (stored : ℕ → SubjectConfig) (x : ℕ) (cfg : SubjectConfig) : ℕ × String → Option AssignmentBlock :=
  (cfg.toUpdate (stored x)).foldl (fun entries u => Function.update entries (x, u.1) (some u.2.1))
    (createdEntries stored x cfg)

def plannedEntries (stored : ℕ → SubjectConfig) (x : ℕ) (cfg : SubjectConfig) : ℕ × String → Option AssignmentBlock :=
  (cfg.toDelete (stored x)).foldl (fun entries code => Function.update entries (x, code) none)
    (updatedEntries stored x cfg)

section

variable (stored : ℕ → SubjectConfig) (x : ℕ) (cfg : SubjectConfig)

theorem nodup_createKeys : ((cfg.toCreate (stored x)).map fun a => (x, a.1)).Nodup :=
  nodup_keys x (cfg.codes.sublist (List.Sublist.map _ List.filter_sublist))

theorem nodup_updateKeys : ((cfg.toUpdate (stored x)).map fun u => (x, u.1)).Nodup := by
  refine nodup_keys x ?_
  rw [toUpdate_codes]
  exact cfg.codes.sublist (List.Sublist.map _ List.filter_sublist)

theorem nodup_deleteKeys : ((cfg.toDelete (stored x)).map fun code => (x, code)).Nodup := by
  refine nodup_keys x (f := id) ?_
  rw [List.map_id]
  exact (stored x).codes.filter _

variable {stored x cfg} {y : ℕ} {c : String}

theorem createdEntries_of_not_mem (h : y ≠ x ∨ c ∉ (cfg.toCreate (stored x)).map (·.1)) :
    createdEntries stored x cfg (y, c) = (stored y).assignments.lookup c :=
  Assoc.foldl_update_of_not_mem (not_mem_keys h) _

theorem createdEntries_of_mem {a : String × AssignmentBlock} (h : a ∈ cfg.toCreate (stored x)) :
    createdEntries stored x cfg (x, a.1) = some a.2 :=
  Assoc.foldl_update_of_mem (nodup_createKeys stored x cfg) h _

theorem updatedEntries_of_not_mem (h : y ≠ x ∨ c ∉ (cfg.toUpdate (stored x)).map (·.1)) :
    updatedEntries stored x cfg (y, c) = createdEntries stored x cfg (y, c) :=
  Assoc.foldl_update_of_not_mem (not_mem_keys h) _

theorem updatedEntries_of_mem {u : String × AssignmentBlock × AssignmentBlock} (h : u ∈ cfg.toUpdate (stored x)) :
    updatedEntries stored x cfg (x, u.1) = some u.2.1 :=
  Assoc.foldl_update_of_mem (nodup_updateKeys stored x cfg) h _

theorem plannedEntries_of_not_mem (h : y ≠ x ∨ c ∉ cfg.toDelete (stored x)) :
    plannedEntries stored x cfg (y, c) = updatedEntries stored x cfg (y, c) := by
  refine Assoc.foldl_update_of_not_mem (not_mem_keys (f := id) ?_) _
  rwa [List.map_id]

theorem plannedEntries_of_mem (h : c ∈ cfg.toDelete (stored x)) : plannedEntries stored x cfg (x, c) = none :=
  Assoc.foldl_update_of_mem (nodup_deleteKeys stored x cfg) h _

theorem not_created {b : AssignmentBlock} (h : (stored x).assignments.lookup c = some b) :
    c ∉ (cfg.toCreate (stored x)).map (·.1) := by
  intro hmem
  obtain ⟨a, ha, rfl⟩ := List.mem_map.mp hmem
  rw [(SubjectConfig.mem_toCreate.mp ha).2] at h
  cases h

theorem not_updated (h : (stored x).assignments.lookup c = none ∨ cfg.assignments.lookup c = none) :
    c ∉ (cfg.toUpdate (stored x)).map (·.1) := by
  intro hmem
  obtain ⟨u, hu, rfl⟩ := List.mem_map.mp hmem
  obtain ⟨hin, hold⟩ := SubjectConfig.mem_toUpdate.mp hu
  rcases h with h | h
  · rw [hold] at h
    cases h
  · rw [Assoc.lookup_of_mem cfg.codes hin] at h
    cases h

/-- The three parts together list what the new config lists. -/
theorem plannedEntries_eq (stored : ℕ → SubjectConfig) (x : ℕ) (cfg : SubjectConfig) :
    plannedEntries stored x cfg = entriesOf (Function.update stored x cfg) := by
  funext ⟨y, c⟩
  by_cases hy : y = x
  · subst hy
    have hnew : entriesOf (Function.update stored y cfg) (y, c) = cfg.assignments.lookup c := by simp [entriesOf]
    rw [hnew]
    rcases hcfg : cfg.assignments.lookup c with _ | b
    · rcases hold : (stored y).assignments.lookup c with _ | b
      · have hnotListed := Assoc.lookup_none_iff.mp hold
        have hnotCreated : c ∉ (cfg.toCreate (stored y)).map (·.1) := by
          intro hmem
          obtain ⟨a, ha, rfl⟩ := List.mem_map.mp hmem
          rw [Assoc.lookup_of_mem cfg.codes (SubjectConfig.mem_toCreate.mp ha).1] at hcfg
          cases hcfg
        rw [plannedEntries_of_not_mem (.inr fun hmem => hnotListed (SubjectConfig.mem_toDelete.mp hmem).1),
          updatedEntries_of_not_mem (.inr (not_updated (.inl hold))), createdEntries_of_not_mem (.inr hnotCreated), hold]
      · have hlisted : c ∈ (stored y).assignments.map (·.1) := List.mem_map_of_mem (Assoc.mem_of_lookup hold)
        exact plannedEntries_of_mem (SubjectConfig.mem_toDelete.mpr ⟨hlisted, hcfg⟩)
    · have hnotDeleted : c ∉ cfg.toDelete (stored y) := by
        intro hmem
        rw [(SubjectConfig.mem_toDelete.mp hmem).2] at hcfg
        cases hcfg
      rw [plannedEntries_of_not_mem (.inr hnotDeleted)]
      have hin := Assoc.mem_of_lookup hcfg
      rcases hold : (stored y).assignments.lookup c with _ | b₀
      · rw [updatedEntries_of_not_mem (.inr (not_updated (.inl hold)))]
        exact createdEntries_of_mem (SubjectConfig.mem_toCreate.mpr ⟨hin, hold⟩)
      · exact updatedEntries_of_mem (u := (c, b, b₀)) (SubjectConfig.mem_toUpdate.mpr ⟨hin, hold⟩)
  · rw [plannedEntries_of_not_mem (.inl hy), updatedEntries_of_not_mem (.inl hy), createdEntries_of_not_mem (.inl hy)]
    simp [entriesOf, hy]

end

theorem lists_executePlan {stored : ℕ → SubjectConfig} {cfg : SubjectConfig} (size : Option ℕ)
    (h : db.Lists (entriesOf stored)) (hx : x < db.subjects.length) (hfit : ∀ a ∈ cfg.assignments, a.2.PointsFit) :
    (db.executePlan x cfg (stored x) size).Lists (entriesOf (Function.update stored x cfg)) ∧
      (db.executePlan x cfg (stored x) size).subjects.length = db.subjects.length := by
  unfold Db.executePlan
  have h₁ : Db.Lists { db with subjects := db.subjects.modify x ({ · with squadMaxSize := size }) } (entriesOf stored) :=
    h.same rfl (List.length_modify _ _ _)
  have hn₁ : (db.subjects.modify x ({ · with squadMaxSize := size })).length = db.subjects.length :=
    List.length_modify _ _ _
  have hnew : ∀ a ∈ cfg.toCreate (stored x), entriesOf stored (x, a.1) = none := fun a ha => (SubjectConfig.mem_toCreate.mp ha).2
  obtain ⟨h₂, hn₂⟩ := lists_foldl (l := cfg.toCreate (stored x)) (fun db a => db.createAssignment x a.1 a.2)
    (fun a => (x, a.1)) (fun a => some a.2) (fun _ => none) (nodup_createKeys stored x cfg)
    (fun db entries a ha hl hlen hnew =>
      ⟨lists_create hl hnew (hfit a (SubjectConfig.mem_toCreate.mp ha).1),
        by rw [(createAssignment_subjectsAssignments db x a.1 a.2).2, hlen]⟩)
    h₁ hn₁ hnew
  obtain ⟨h₃, hn₃⟩ := lists_foldl
    (fun db u => db.setAssignment (db.assignmentWithCode x u.1) (·.applyFields u.2.1 u.2.2)) (fun u => (x, u.1))
    (fun u => some u.2.1) (fun u => some u.2.2) (nodup_updateKeys stored x cfg)
    (fun db entries u hu hl hlen hentry =>
      ⟨lists_update hl (hlen ▸ hx) hentry (hfit _ (SubjectConfig.mem_toUpdate.mp hu).1), by rw [setAssignment_subjects, hlen]⟩)
    h₂ hn₂ fun u hu => by
      have hlisted := (SubjectConfig.mem_toUpdate.mp hu).2
      exact (createdEntries_of_not_mem (.inr (not_created hlisted))).trans hlisted
  obtain ⟨h₄, hn₄⟩ := lists_foldl (fun db code => db.deleteAssignment x code) (fun code => (x, code)) (fun _ => none)
    (fun code => updatedEntries stored x cfg (x, code)) (nodup_deleteKeys stored x cfg)
    (fun db entries code _ hl hlen _ => ⟨lists_delete hl, by rw [Db.deleteAssignment, setAssignment_subjects, hlen]⟩)
    h₃ hn₃ fun code _ => rfl
  rw [← plannedEntries_eq]
  exact ⟨h₄.same rfl rfl, hn₄⟩

theorem applyConfig_ok {cfg old : SubjectConfig} (h : db.applyConfig x cfg old = .ok db') :
    x < db.subjects.length ∧ ∃ size, db' = db.executePlan x cfg old size := by
  unfold Db.applyConfig at h
  split_ifs at h with hx
  refine ⟨hx, ?_⟩
  rcases hquiz : cfg.validateQuizQuestions with e | u
  · rw [hquiz] at h
    cases h
  · rcases hsize : cfg.parseSquadMaxSize with e | size
    · rw [hquiz, hsize] at h
      cases h
    · rw [hquiz, hsize] at h
      cases h
      exact ⟨size, rfl⟩

/-- Every assignment row keeps its code, and no config is written. -/
structure Db.KeepsCodes (db db' : Db) : Prop where
  codes : ∀ (a : ℕ) asg, db.subjectsAssignments[a]? = some asg →
    ∃ asg', db'.subjectsAssignments[a]? = some asg' ∧ asg'.code = asg.code
  configs : db'.pluginConfigs = db.pluginConfigs

theorem Db.KeepsCodes.refl (db : Db) : db.KeepsCodes db := ⟨fun _ asg h => ⟨asg, h, rfl⟩, rfl⟩

theorem Db.KeepsCodes.trans {db₁ : Db} (h₁ : db.KeepsCodes db₁) (h₂ : db₁.KeepsCodes db') : db.KeepsCodes db' where
  codes a asg hasg := by
    obtain ⟨asg₁, hasg₁, hcode₁⟩ := h₁.codes a asg hasg
    obtain ⟨asg₂, hasg₂, hcode₂⟩ := h₂.codes a asg₁ hasg₁
    exact ⟨asg₂, hasg₂, hcode₂.trans hcode₁⟩
  configs := h₂.configs.trans h₁.configs

theorem keepsCodes_foldl {α : Type*} {f : Db → α → Db} (hf : ∀ (db : Db) (a : α), db.KeepsCodes (f db a)) (l : List α) (db : Db) :
    db.KeepsCodes (l.foldl f db) := by
  induction l generalizing db with
  | nil => exact .refl db
  | cons a l ih => exact (hf db a).trans (ih (f db a))

theorem keepsCodes_setAssignment (db : Db) (asgId : Option ℕ) {f : SubjectsAssignment → SubjectsAssignment}
    (hf : ∀ asg, (f asg).code = asg.code) : db.KeepsCodes (db.setAssignment asgId f) := by
  cases asgId with
  | none => exact .refl db
  | some i =>
    refine ⟨fun a asg hasg => ⟨if i = a then f asg else asg, ?_, ?_⟩, rfl⟩
    · change (db.subjectsAssignments.modify i f)[a]? = _
      rw [List.getElem?_modify, hasg]
      split_ifs <;> rfl
    · split_ifs
      · exact hf asg
      · rfl

theorem ensureSas_pluginConfigs (asgId : ℕ) (ts : List ℕ) (db : Db) :
    (ts.foldl (fun db t => (db.ensureSa t asgId).1) db).pluginConfigs = db.pluginConfigs := by
  induction ts generalizing db with
  | nil => rfl
  | cons t ts ih => exact (ih _).trans (within_ensureSa .grades db t asgId).pluginConfigs

theorem keepsCodes_createAssignment (db : Db) (x : ℕ) (code : String) (block : AssignmentBlock) :
    db.KeepsCodes (db.createAssignment x code block) := by
  refine ⟨fun a asg hasg => ⟨asg, ?_, rfl⟩, ensureSas_pluginConfigs _ _ _⟩
  rw [(createAssignment_subjectsAssignments db x code block).1]
  exact Table.getElem?_append_old hasg

/-- An apply takes no assignment row away, and stores the config it was given. -/
theorem applyConfig_keeps {cfg old : SubjectConfig} (h : db.applyConfig x cfg old = .ok db') :
    (∀ (a : ℕ) asg, db.subjectsAssignments[a]? = some asg →
      ∃ asg', db'.subjectsAssignments[a]? = some asg' ∧ asg'.code = asg.code) ∧
    ∃ v, db'.pluginConfigs = db.pluginConfigs ++ [{ subjectId := x, version := v, assignments := cfg.stored }] := by
  obtain ⟨-, size, rfl⟩ := applyConfig_ok h
  have hcreate := keepsCodes_foldl (f := fun db a => db.createAssignment x a.1 a.2)
    (fun db a => keepsCodes_createAssignment db x a.1 a.2) (cfg.toCreate old)
    { db with subjects := db.subjects.modify x ({ · with squadMaxSize := size }) }
  have hupdate := keepsCodes_foldl
    (f := fun db u => db.setAssignment (db.assignmentWithCode x u.1) (·.applyFields u.2.1 u.2.2))
    (fun db u => keepsCodes_setAssignment db _ fun _ => rfl) (cfg.toUpdate old)
    ((cfg.toCreate old).foldl (fun db a => db.createAssignment x a.1 a.2)
      { db with subjects := db.subjects.modify x ({ · with squadMaxSize := size }) })
  have hall := (hcreate.trans hupdate).trans
    (keepsCodes_foldl (f := fun db code => db.deleteAssignment x code)
      (fun db code => keepsCodes_setAssignment db _ fun _ => rfl) (cfg.toDelete old) _)
  exact ⟨hall.codes, _, congrArg (· ++ [_]) hall.configs⟩

end

end SubmissionsChecker
