import SubmissionsChecker.Effects.Confined
import SubmissionsChecker.Effects.Decisions
import SubmissionsChecker.Routes.TeacherPortal

/-! A teacher's request keeps to one assignment: its submissions, its rows and the messages about it. -/

namespace SubmissionsChecker

def OutboxPayload.submissionId : OutboxPayload → ℕ
  | runChecks i => i
  | runAiReview i _ => i

/-- `db'` differs from `db` in work of assignment `A` at most, and adds messages about it only. -/
structure KeepsTo (A : ℕ) (db db' : Db) : Prop where
  confined : Confined A db db'
  assignments : db'.subjectsAssignments = db.subjectsAssignments
  outbox : ∃ new, db'.outbox = db.outbox ++ new ∧ ∀ m ∈ new, db.OnlyOn A m.payload.submissionId

/-- The same, with the review messages. -/
structure Desk.KeepsTo (A : ℕ) (s s' : Desk) : Prop where
  db : SubmissionsChecker.KeepsTo A s.db s'.db
  owner : s'.owner = s.owner
  reviewed : ∃ new, s'.reviewed = s.reviewed ++ new ∧ ∀ m ∈ new, s.db.OnlyOn A m.submissionId

section

variable {A i t : ℕ} {db db₁ db₂ db' : Db}

theorem Confined.onlyOn_of (h : Confined A db db₁) (hi : db₁.OnlyOn A i) : db.OnlyOn A i := by
  intro B hB
  by_contra hne
  exact hne (hi B ((h.asgIdOf hne).mpr hB))

theorem KeepsTo.refl (A : ℕ) (db : Db) : KeepsTo A db db := ⟨.refl A db, rfl, [], by simp, by simp⟩

theorem KeepsTo.trans (h₁ : KeepsTo A db db₁) (h₂ : KeepsTo A db₁ db₂) : KeepsTo A db db₂ := by
  obtain ⟨new₁, hout₁, hnew₁⟩ := h₁.outbox
  obtain ⟨new₂, hout₂, hnew₂⟩ := h₂.outbox
  refine ⟨h₁.confined.trans h₂.confined, h₂.assignments.trans h₁.assignments, new₁ ++ new₂, ?_, ?_⟩
  · rw [hout₂, hout₁, List.append_assoc]
  · intro m hm
    rcases List.mem_append.mp hm with hm | hm
    · exact hnew₁ m hm
    · exact h₁.confined.onlyOn_of (hnew₂ m hm)

theorem Desk.KeepsTo.refl (A : ℕ) (s : Desk) : s.KeepsTo A s := ⟨.refl A s.db, rfl, [], by simp, by simp⟩

theorem Desk.KeepsTo.trans {s s₁ s₂ : Desk} (h₁ : s.KeepsTo A s₁) (h₂ : s₁.KeepsTo A s₂) : s.KeepsTo A s₂ := by
  obtain ⟨new₁, hout₁, hnew₁⟩ := h₁.reviewed
  obtain ⟨new₂, hout₂, hnew₂⟩ := h₂.reviewed
  refine ⟨h₁.db.trans h₂.db, h₂.owner.trans h₁.owner, new₁ ++ new₂, ?_, ?_⟩
  · rw [hout₂, hout₁, List.append_assoc]
  · intro m hm
    rcases List.mem_append.mp hm with hm | hm
    · exact hnew₁ m hm
    · exact h₁.db.confined.onlyOn_of (hnew₂ m hm)

/-- What changes no table but the rows and the submissions adds no message. -/
theorem keepsTo_of_within (h : Confined A db db') (hw : Within .grades db db') : KeepsTo A db db' :=
  ⟨h, hw.subjectsAssignments, [], by rw [hw.messages rfl, List.append_nil], by simp⟩

theorem keepsTo_setSubmission {f : Submission → Submission} (hi : db.OnlyOn A i)
    (hf : ∀ s, (f s).studentsAssignmentId = s.studentsAssignmentId) : KeepsTo A db (db.setSubmission i f) :=
  ⟨confined_setSubmission hi hf, rfl, [], by simp, by simp⟩

theorem keepsTo_finalizeGrade (hi : db.OnlyOn A i) : KeepsTo A db (db.finalizeGrade i) :=
  keepsTo_of_within (confined_finalizeGrade hi) (within_finalizeGrade db i)

theorem keepsTo_addMessage {payload : OutboxPayload} (hi : db.OnlyOn A payload.submissionId) :
    KeepsTo A db (db.addMessage payload) := by
  refine ⟨⟨fun _ _ _ => .rfl, fun _ => rfl, fun _ _ _ _ => rfl⟩, rfl, [{ payload }], rfl, ?_⟩
  intro m hm
  rw [List.mem_singleton.mp hm]
  exact hi

/-! The single routes -/

theorem Decided.keepsTo {action : ReviewAction} (h : Decided db i action db') (hi : db.OnlyOn A i) : KeepsTo A db db' := by
  have hset : ∀ {e : Db} {f : Submission → Submission}, e.OnlyOn A i →
      (∀ s, (f s).studentsAssignmentId = s.studentsAssignmentId) → KeepsTo A e (e.setSubmission i f) :=
    keepsTo_setSubmission
  rcases h with _ | _ | _
  · have hone := hset (f := ({ · with status := .completed })) hi fun _ => rfl
    exact hone.trans (keepsTo_finalizeGrade (hone.confined.onlyOn hi))
  · exact hset hi fun _ => rfl
  · rename_i results _ _
    have hone := hset (f := ({ · with testResults := results })) hi fun _ => rfl
    exact hone.trans (hset (hone.confined.onlyOn hi) fun _ => rfl)

theorem Requeued.keepsTo (h : Requeued db i db') (hi : db.OnlyOn A i) : KeepsTo A db db' := by
  obtain ⟨-, -, -, -⟩ := h
  have hone : KeepsTo A db (db.setSubmission i ({ · with status := .pending })) := keepsTo_setSubmission hi fun _ => rfl
  have htwo : KeepsTo A db ((db.setSubmission i ({ · with status := .pending })).setSubmission i
      ({ · with pluginConfigId := none, testResults := none, aiReview := none })) :=
    hone.trans (keepsTo_setSubmission (hone.confined.onlyOn hi) fun _ => rfl)
  exact htwo.trans (keepsTo_addMessage (htwo.confined.onlyOn hi))

theorem Granted.keepsTo (h : Granted db i t db') (hi : db.OnlyOn A i) : KeepsTo A db db' := by
  obtain ⟨-, -, -, -⟩ := h
  rename_i s extras
  have hone : KeepsTo A db (db.setSubmission i fun sub => { sub with quizExtraAttempts := extras sub }) :=
    keepsTo_setSubmission hi fun _ => rfl
  exact hone.trans (keepsTo_setSubmission (hone.confined.onlyOn hi) fun _ => rfl)

/-! The scores -/

theorem Db.Reaches.onlyOn (h : db.Reaches t A i) : db.OnlyOn A i := by
  obtain ⟨sub, row, asg, hsub, hrow, hrowasg, -⟩ := h
  intro B hB
  obtain ⟨r, row', hr, hrow', rfl⟩ := asgIdOf_some.mp hB
  rw [hsub, Option.map_some, Option.some_inj] at hr
  rw [← hr, hrow, Option.some_inj] at hrow'
  rw [← hrow', hrowasg]

theorem confined_latestSubmission {own : ℕ} {sa : StudentAssignment} (hsa : db.studentsAssignments[own]? = some sa)
    (hA : sa.subjectsAssignmentId = A) : Confined A db (db.latestSubmission own).1 := by
  unfold Db.latestSubmission
  rw [hsa]
  dsimp only
  split
  · exact .refl A db
  · unfold Db.latestSubmissionFor Db.scopeSaIds
    dsimp only
    split
    · exact .refl A db
    · rw [hA]
      exact confined_memberSaIds _ db

theorem keepsTo_gradeAfterScores {latest : Option ℕ} (hl : ∀ i, latest = some i → db.OnlyOn A i)
    (h : db.gradeAfterScores latest = .ok db') : KeepsTo A db db' := by
  unfold Db.gradeAfterScores at h
  rcases latest with _ | i
  · cases h
    exact .refl A db
  · have hi := hl i rfl
    dsimp only at h
    split_ifs at h with hwait hdone
    · obtain ⟨db₁, hmove, h⟩ := bind_ok h
      obtain ⟨s, next, -, -, rfl⟩ := transition_ok hmove
      cases h
      have hone : KeepsTo A db (db.setSubmission i ({ · with status := next })) := keepsTo_setSubmission hi fun _ => rfl
      exact hone.trans (keepsTo_finalizeGrade (hone.confined.onlyOn hi))
    · cases h
      exact keepsTo_finalizeGrade hi
    · cases h
      exact .refl A db

theorem confined_lookedUpFor (db : Db) (t : ℕ) : Confined A db (db.lookedUpFor t A).1 := by
  obtain ⟨sa, hsa, -, hsaasg⟩ := ensureSa_row db t A
  exact (confined_ensureSa db t).trans (confined_latestSubmission hsa hsaasg)

/-- The rows written are all for the assignment. -/
theorem confined_withScores {asg : SubjectsAssignment} (subject t : ℕ)
    (hasg : db.subjectsAssignments[A]? = some asg) (scores : TeacherScores) :
    Confined A (db.lookedUpFor t A).1 (db.withScores subject t A scores) := by
  obtain ⟨-, -, ⟨own, hown, -, hownasg⟩, -⟩ := lookedUpFor_spec t hasg
  unfold Db.withScores
  set db₂ := (db.lookedUpFor t A).1 with hdb₂
  set targets := db₂.scoreTargets subject t A (db.ensureSa t A).2 with htargets
  have htarget : Confined A db₂ targets.1 ∧
      ∀ r ∈ targets.2, ∀ row, targets.1.studentsAssignments[r]? = some row → row.subjectsAssignmentId = A := by
    rw [htargets]
    unfold Db.scoreTargets
    split
    · refine ⟨.refl _ _, fun r hr row hrow => ?_⟩
      rw [List.mem_singleton.mp hr, hown] at hrow
      cases hrow
      exact hownasg
    · refine ⟨confined_memberSaIds _ _, fun r hr row hrow => ?_⟩
      obtain ⟨row', hrow', -, hasg'⟩ := memberSaIds_row _ _ _ r hr
      rw [hrow] at hrow'
      cases hrow'
      exact hasg'
  exact htarget.1.trans
    (confined_writeRows (f := ({ · with teacherScores := some scores })) (fun _ => rfl) targets.2 targets.1 htarget.2)

theorem keepsTo_saveScores {subject : ℕ} {form : String → Option ℕ} (h : db.saveScores subject A t form = .ok db') :
    KeepsTo A db db' ∧ ∃ asg, db.subjectsAssignments[A]? = some asg ∧ asg.subjectId = subject := by
  obtain ⟨asg, scores, hasg, hsubject, -, -, h⟩ := saveScores_ok h
  refine ⟨?_, asg, hasg, hsubject⟩
  obtain ⟨hw₁, -, -, hlatest⟩ := lookedUpFor_spec t hasg
  obtain ⟨hw₂, -⟩ := within_withScores db subject t A scores
  have hc₂ := confined_withScores subject t hasg scores
  have hkeeps := keepsTo_of_within ((confined_lookedUpFor db t).trans hc₂) (hw₁.trans hw₂)
  split_ifs at h with hcomplete
  · exact hkeeps.trans (keepsTo_gradeAfterScores (fun i hi => hc₂.onlyOn (hlatest i hi).2.onlyOn) h)
  · rw [h]
    exact hkeeps

end

end SubmissionsChecker
