import SubmissionsChecker.Library.Runs
import SubmissionsChecker.Invariants.Enrolment

/-! Whoever is enrolled in a subject has one row of each of its assignments, whichever way and in whichever order the
students and the assignments came, and no row loses its grade. -/

namespace SubmissionsChecker

open Runs

/-- The operation is an enrolment, an unenrolment or an apply, or a student registers: it stores no grade. -/
def RosterOp.IsRoster : RosterOp → Prop
  | .storeGrade _ _ => False
  | _ => True

namespace Roster

/-- The rows of the student in the assignment. -/
def IsRowOf (r : Roster) (studentId asgId k : ℕ) : Prop :=
  ∃ row, r.studentsAssignments[k]? = some row ∧ row.studentId = studentId ∧ row.subjectsAssignmentId = asgId

section

variable {r r' : Roster} {s t a : ℕ}

theorem serve_sound (h : r.Sound) {op : RosterOp} (hok : r.serve op = .ok r') : r'.Sound := by
  cases op with
  | register email =>
    unfold serve at hok
    dsimp only at hok
    split_ifs at hok with hemail
    cases hok
    have hlt : ∀ n, n < r.students.length → n < (r.students ++ [email]).length := by
      intro n hn
      rw [List.length_append]
      omega
    exact ⟨h.once, fun p hp => hlt _ (h.known p hp), h.keyed, fun p hp => ⟨hlt _ (h.held p hp).1, (h.held p hp).2⟩,
      h.covered⟩
  | storeGrade k grade =>
    cases hok
    have hkeys : ({ r with studentsAssignments := r.studentsAssignments.modify k ({ · with grade }) } : Roster).keys =
        r.keys :=
      Table.map_modify (f := fun row : CourseRow => { row with grade }) (fun _ => rfl) _ _
    refine ⟨h.once, h.known, ?_, ?_, ?_⟩
    · rw [hkeys]
      exact h.keyed
    · rw [hkeys]
      exact h.held
    · rw [hkeys]
      exact h.covered
  | enroll s t =>
    rcases enrollStudent_ok hok with rfl | ⟨hnew, ht, rfl⟩
    · exact h
    · exact h.enrolled hnew ht none
  | enrollBySearch s t variant =>
    rcases enrollStudentBySearch_ok hok with rfl | ⟨hnew, ht, rfl⟩
    · exact h
    · exact h.enrolled hnew ht (some variant)
  | importCsv s lines =>
    change (r.importSubjectStudents s lines).map (·.1) = .ok r' at hok
    unfold importSubjectStudents at hok
    split_ifs at hok with hs
    · cases hok
    cases hok
    exact (import_keeps s _ (r, {}) h rfl).1
  | provisionTest s form => exact (provisionTestStudent_keeps h hok).1
  | unenroll s t => exact (unenrollStudent_keeps h hok).1
  | apply s cfg => exact (applyConfig_keeps h hok).1

theorem serve_kept (h : r.Sound) {op : RosterOp} (hop : op.IsRoster) (hok : r.serve op = .ok r') : r.Kept r' := by
  cases op with
  | register email =>
    unfold serve at hok
    dsimp only at hok
    split_ifs at hok with hemail
    cases hok
    exact .of_same rfl
  | storeGrade k grade => exact absurd hop id
  | enroll s t =>
    rcases enrollStudent_ok hok with rfl | ⟨-, -, rfl⟩
    · exact .refl _
    · exact kept_ensureAssignmentRows t none (r.assignmentIds s) (r.enrol s t)
  | enrollBySearch s t variant =>
    rcases enrollStudentBySearch_ok hok with rfl | ⟨-, -, rfl⟩
    · exact .refl _
    · exact kept_ensureAssignmentRows t (some variant) (r.assignmentIds s) (r.enrol s t)
  | importCsv s lines =>
    change (r.importSubjectStudents s lines).map (·.1) = .ok r' at hok
    unfold importSubjectStudents at hok
    split_ifs at hok with hs
    · cases hok
    cases hok
    exact (import_keeps s _ (r, {}) h rfl).2
  | provisionTest s form => exact (provisionTestStudent_keeps h hok).2
  | unenroll s t => exact (unenrollStudent_keeps h hok).2
  | apply s cfg => exact (applyConfig_keeps h hok).2

theorem step_sound (h : r.Sound) (op : RosterOp) : (r.step op).Sound := by
  unfold step
  cases hok : r.serve op with
  | error e => exact h
  | ok r' => exact serve_sound h hok

theorem step_kept (h : r.Sound) {op : RosterOp} (hop : op.IsRoster) : r.Kept (r.step op) := by
  unfold step
  cases hok : r.serve op with
  | error e => exact .refl r
  | ok r' => exact serve_kept h hop hok

/-- No row, no student, no subject. -/
theorem sound_empty : Sound {} where
  once := List.nodup_nil
  known := fun _ hp => absurd hp List.not_mem_nil
  keyed := List.nodup_nil
  held := fun _ hp => absurd hp List.not_mem_nil
  covered := fun _ _ hp => absurd hp List.not_mem_nil

theorem Sound.existsUnique_row (h : r.Sound) (hmem : (s, t) ∈ r.subjectsStudents) (ha : a ∈ r.assignmentIds s) :
    ∃! k, r.IsRowOf t a k := by
  obtain ⟨k, hk⟩ := List.mem_iff_getElem?.mp (h.covered s t hmem a ha)
  have hrow : ∀ j, r.IsRowOf t a j → r.keys[j]? = some (t, a) := by
    rintro j ⟨row, hrow, hst, hasg⟩
    unfold keys
    rw [List.getElem?_map, hrow, Option.map_some]
    exact congrArg some (Prod.ext hst hasg)
  refine ⟨k, ?_, fun j hj => ?_⟩
  · unfold keys at hk
    rw [List.getElem?_map, Option.map_eq_some_iff] at hk
    obtain ⟨row, hrow', hkey⟩ := hk
    exact ⟨row, hrow', congrArg Prod.fst hkey, congrArg Prod.snd hkey⟩
  · have hlt : j < r.keys.length := (List.getElem?_eq_some_iff.mp (hrow j hj)).1
    exact (List.getElem?_inj hlt h.keyed).mp ((hrow j hj).trans hk.symm)

/-- In every state that requests reach, each enrolled student has exactly one row for every assignment of the subject;
and whatever is enrolled, unenrolled and applied from there, each row stays with its grade. -/
theorem everyone_has_rows {ops : List RosterOp} (h : Run step Any {} ops r) :
    (∀ s t a, (s, t) ∈ r.subjectsStudents → a ∈ r.assignmentIds s → ∃! k, r.IsRowOf t a k) ∧
      ∀ ops' r', Run step (fun _ op => op.IsRoster) r ops' r' → r.Kept r' := by
  have hsound : r.Sound := h.invariant sound_empty fun _ op hr _ => step_sound hr op
  refine ⟨fun s t a hmem ha => hsound.existsUnique_row hmem ha, fun ops' r' h' => ?_⟩
  exact (h'.invariant (I := fun q => q.Sound ∧ r.Kept q) ⟨hsound, .refl r⟩
    fun q op hq hop => ⟨step_sound hq.1 op, hq.2.trans (step_kept hq.1 hop)⟩).2

end

/-- A student who enrolls and leaves, misses a new lab, and comes back by CSV. -/
def comeback : List RosterOp :=
  [.register "ann@lab", .apply none [("lab1", {})], .enroll 0 0, .storeGrade 0 (some 90), .unenroll 0 0,
    .apply (some 0) [("lab1", {}), ("lab2", {})], .importCsv 0 [("ann@lab", "3")]]

theorem comeback_has_row : ∃! k, (comeback.foldl step {}).IsRowOf 0 1 k :=
  (everyone_has_rows (run_foldl comeback)).1 0 0 1 (by decide +kernel) (by decide +kernel)

example : ((comeback.foldl step {}).studentsAssignments.map (·.grade)) = [some 90, none] := by decide +kernel

end Roster

end SubmissionsChecker
