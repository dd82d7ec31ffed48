import SubmissionsChecker.Effects.Rulings

/-! What is confined to one assignment: grading a submission and advancing it change rows and
submissions of its own assignment only. -/

namespace SubmissionsChecker

/-- The assignment of submission `i`. -/
def Db.asgIdOf (db : Db) (i : ℕ) : Option ℕ :=
  (db.submissions[i]?).bind fun sub =>
    (db.studentsAssignments[sub.studentsAssignmentId]?).map (·.subjectsAssignmentId)

/-- `db'` differs from `db` in rows and submissions of assignment `A` at most. -/
structure Confined (A : ℕ) (db db' : Db) : Prop where
  rows : ∀ (r : ℕ) row, row.subjectsAssignmentId ≠ A →
    (db'.studentsAssignments[r]? = some row ↔ db.studentsAssignments[r]? = some row)
  owners : ∀ i : ℕ, (db'.submissions[i]?).map (·.studentsAssignmentId) =
    (db.submissions[i]?).map (·.studentsAssignmentId)
  subs : ∀ i B, db.asgIdOf i = some B → B ≠ A → db'.submissions[i]? = db.submissions[i]?

theorem asgIdOf_some {db : Db} {i B : ℕ} : db.asgIdOf i = some B ↔
    ∃ r row, (db.submissions[i]?).map (·.studentsAssignmentId) = some r ∧
      db.studentsAssignments[r]? = some row ∧ row.subjectsAssignmentId = B := by
  unfold Db.asgIdOf
  cases db.submissions[i]? with
  | none => simp
  | some sub => cases hr : db.studentsAssignments[sub.studentsAssignmentId]? <;> simp [hr]

/-- Submission `i` is of assignment `A`, if of any. -/
def Db.OnlyOn (db : Db) (A i : ℕ) : Prop := ∀ B, db.asgIdOf i = some B → B = A

namespace Confined

variable {A : ℕ} {db db₁ db₂ : Db}

theorem refl (A : ℕ) (db : Db) : Confined A db db := ⟨fun _ _ _ => .rfl, fun _ => rfl, fun _ _ _ _ => rfl⟩

theorem asgIdOf (h : Confined A db db₁) {i B : ℕ} (hB : B ≠ A) :
    db₁.asgIdOf i = some B ↔ db.asgIdOf i = some B := by
  rw [asgIdOf_some, asgIdOf_some, h.owners]
  constructor
  · rintro ⟨r, row, hr, hrow, rfl⟩
    exact ⟨r, row, hr, (h.rows r row hB).mp hrow, rfl⟩
  · rintro ⟨r, row, hr, hrow, rfl⟩
    exact ⟨r, row, hr, (h.rows r row hB).mpr hrow, rfl⟩

theorem onlyOn (h : Confined A db db₁) {i : ℕ} (hi : db.OnlyOn A i) : db₁.OnlyOn A i := by
  intro B hB
  by_contra hne
  exact hne (hi B ((h.asgIdOf hne).mp hB))

theorem trans (h₁ : Confined A db db₁) (h₂ : Confined A db₁ db₂) : Confined A db db₂ where
  rows r row hne := (h₂.rows r row hne).trans (h₁.rows r row hne)
  owners i := (h₂.owners i).trans (h₁.owners i)
  subs i B hB hne := (h₂.subs i B ((h₁.asgIdOf hne).mpr hB) hne).trans (h₁.subs i B hB hne)

end Confined

variable {A : ℕ}

theorem confined_setSubmission {db : Db} {i : ℕ} {f : Submission → Submission} (hi : db.OnlyOn A i)
    (hf : ∀ s, (f s).studentsAssignmentId = s.studentsAssignmentId) :
    Confined A db (db.setSubmission i f) where
  rows _ _ _ := .rfl
  owners j := by
    simp only [Db.setSubmission_submissions, List.getElem?_modify]
    split_ifs
    · cases db.submissions[j]? <;> simp [hf]
    · simp
  subs j B hB hne := by
    rw [Db.setSubmission_submissions, Table.getElem?_modify_ne]
    rintro rfl
    exact hne (hi B hB)

theorem confined_setStudentAssignment {db : Db} {r : ℕ} {f : StudentAssignment → StudentAssignment}
    (hr : ∀ row, db.studentsAssignments[r]? = some row → row.subjectsAssignmentId = A)
    (hf : ∀ row, (f row).subjectsAssignmentId = row.subjectsAssignmentId) :
    Confined A db (db.setStudentAssignment r f) where
  rows j row hne := by
    by_cases hj : r = j
    · subst hj
      rw [Db.setStudentAssignment_studentsAssignments, Table.getElem?_modify_self]
      refine iff_of_false (fun h => ?_) fun h => hne (hr row h)
      obtain ⟨row₀, h₀, rfl⟩ := Option.map_eq_some_iff.mp h
      exact hne ((hf row₀).trans (hr row₀ h₀))
    · rw [Db.setStudentAssignment_studentsAssignments, Table.getElem?_modify_ne _ hj]
  owners _ := rfl
  subs _ _ _ _ := rfl

theorem confined_ensureSa (db : Db) (t : ℕ) : Confined A db (db.ensureSa t A).1 := by
  unfold Db.ensureSa
  split
  · exact .refl A db
  · refine ⟨fun r row hne => ⟨fun h => ?_, Table.getElem?_append_old⟩, fun _ => rfl, fun _ _ _ _ => rfl⟩
    rcases Table.getElem?_concat_some h with h | ⟨-, rfl⟩
    · exact h
    · exact absurd rfl hne

theorem confined_memberSaIds (members : List ℕ) :
    ∀ db : Db, Confined A db (db.memberSaIds members A).1 := by
  induction members with
  | nil => exact .refl A
  | cons m ms ih => exact fun db => (confined_ensureSa db m).trans (ih _)

theorem confined_writeRows {f : StudentAssignment → StudentAssignment}
    (hf : ∀ row, (f row).subjectsAssignmentId = row.subjectsAssignmentId) (saIds : List ℕ) : ∀ db : Db,
    (∀ r ∈ saIds, ∀ row, db.studentsAssignments[r]? = some row → row.subjectsAssignmentId = A) →
      Confined A db (saIds.foldl (fun db saId => db.setStudentAssignment saId f) db) := by
  induction saIds with
  | nil => exact fun db _ => .refl A db
  | cons r rs ih =>
    intro db h
    have hone : Confined A db (db.setStudentAssignment r f) := confined_setStudentAssignment (h r (by simp)) hf
    refine hone.trans (ih _ fun r' hr' row hrow => ?_)
    obtain ⟨row₀, hrow₀, rfl⟩ := Table.getElem?_modify_some hrow
    have := h r' (by simp [hr']) row₀ hrow₀
    split_ifs
    · rw [hf]
      exact this
    · exact this

theorem confined_writeGrades (grade : ℤ) (saIds : List ℕ) (db : Db)
    (h : ∀ r ∈ saIds, ∀ row, db.studentsAssignments[r]? = some row → row.subjectsAssignmentId = A) :
    Confined A db (db.writeGrades grade saIds) :=
  confined_writeRows (f := ({ · with grade := some grade })) (fun _ => rfl) saIds db h

theorem confined_gradeTargets {db : Db} (i : ℕ) {saId : ℕ} {sa : StudentAssignment}
    (hsa : db.studentsAssignments[saId]? = some sa) (hA : sa.subjectsAssignmentId = A) :
    Confined A db (db.gradeTargets i saId A).1 ∧
      ∀ r ∈ (db.gradeTargets i saId A).2, ∀ row,
        (db.gradeTargets i saId A).1.studentsAssignments[r]? = some row → row.subjectsAssignmentId = A := by
  unfold Db.gradeTargets
  split
  · refine ⟨.refl A db, fun r hr row hrow => ?_⟩
    rw [List.mem_singleton.mp hr, hsa] at hrow
    cases hrow
    exact hA
  · refine ⟨confined_memberSaIds _ db, fun r hr row hrow => ?_⟩
    obtain ⟨row', hrow', -, hasg⟩ := memberSaIds_row _ _ db r hr
    rw [hrow] at hrow'
    cases hrow'
    exact hasg

/-- A grade is written to rows of the submission's own assignment. -/
theorem confined_finalizeGrade {db : Db} {i : ℕ} (hi : db.OnlyOn A i) :
    Confined A db (db.finalizeGrade i) := by
  unfold Db.finalizeGrade
  split
  · exact .refl A db
  · rename_i sub hsub
    split
    · exact .refl A db
    · rename_i sa hsa
      have hA : sa.subjectsAssignmentId = A :=
        hi _ (asgIdOf_some.mpr ⟨_, sa, by rw [hsub, Option.map_some], hsa, rfl⟩)
      split
      · exact .refl A db
      · dsimp only
        split
        · exact .refl A db
        · rename_i breakdown _
          obtain ⟨htargets, hrows⟩ := confined_gradeTargets i hsa hA
          rw [hA]
          have hwritten := htargets.trans (confined_writeGrades breakdown.grade _ _ hrows)
          exact hwritten.trans (confined_setSubmission (hwritten.onlyOn hi) fun _ => rfl)

/-- Advancing the submission of a lifted attempt stays within that submission's assignment. -/
theorem confined_advanced {db : Db} {k : ℕ}
    (hk : ∀ a, db.quizAttempts[k]? = some a → db.OnlyOn A a.submissionId) :
    Confined A db (db.advanced k) := by
  unfold Db.advanced
  split
  · exact .refl A db
  · rename_i a ha
    have hi := hk a ha
    have hset : ∀ s : SubmissionStatus,
        Confined A db (db.setSubmission a.submissionId ({ · with status := s })) :=
      fun s => confined_setSubmission hi fun _ => rfl
    dsimp only
    split_ifs
    · exact hset _
    · exact (hset _).trans (confined_finalizeGrade ((hset _).onlyOn hi))
    · exact .refl A db
    · exact confined_finalizeGrade hi
    · exact .refl A db

theorem confined_advancedAll (ks : List ℕ) : ∀ db : Db,
    (∀ k ∈ ks, ∀ a, db.quizAttempts[k]? = some a → db.OnlyOn A a.submissionId) →
      Confined A db (ks.foldl Db.advanced db) := by
  induction ks with
  | nil => exact fun db _ => .refl A db
  | cons k ks ih =>
    intro db h
    have hone := confined_advanced (h k (by simp))
    refine hone.trans (ih _ fun k' hk' a ha => hone.onlyOn (h k' (by simp [hk']) a ?_))
    rwa [(within_advanced db k).quizAttempts] at ha

end SubmissionsChecker
