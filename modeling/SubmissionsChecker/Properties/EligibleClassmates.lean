import SubmissionsChecker.Services.SquadEligibility

/-! The two eligibility tests agree: who is refused nothing is who is in the set, so the classmates offered are those that
can be invited. -/

namespace SubmissionsChecker

namespace EnrolmentTables

section

variable {t : EnrolmentTables} {A s : ℕ} {m : SquadMemberRow} {st : StudentRow}

/-- A key that no two rows share finds one row at most. -/
theorem length_filter_key_le {Row Key : Type*} [DecidableEq Key] {key : Row → Key} {rows : List Row}
    (h : (rows.map key).Nodup) (k : Key) : (rows.filter fun row => key row = k).length ≤ 1 := by
  have hkeys : (rows.filter fun row => key row = k).map key =
      List.replicate (rows.filter fun row => key row = k).length k := by
    rw [List.eq_replicate_iff, List.length_map]
    refine ⟨rfl, fun k' hk' => ?_⟩
    obtain ⟨row, hrow, rfl⟩ := List.mem_map.mp hk'
    simpa using (List.mem_filter.mp hrow).2
  have hnodup : ((rows.filter fun row => key row = k).map key).Nodup := h.sublist (List.filter_sublist.map key)
  rwa [hkeys, List.nodup_replicate] at hnodup

/-- With one row an id the type looked up is that of the row. -/
theorem studentType_of_mem (h : st ∈ t.students) : t.studentType st.id = some st.type := by
  have hmem : st ∈ t.students.filter fun row => row.id = st.id := by simpa using h
  have hone := length_filter_key_le t.studentIds st.id
  obtain ⟨row, hrow⟩ := List.length_eq_one_iff.mp (le_antisymm hone (List.length_pos_of_mem hmem))
  rw [hrow, List.mem_singleton] at hmem
  have hfilter : (t.students.filter (·.id == st.id)) = t.students.filter fun row => row.id = st.id :=
    List.filter_congr fun row _ => rfl
  unfold studentType
  rw [hfilter, hrow, hmem]
  rfl

theorem mem_enrolledReal :
    s ∈ t.enrolledReal A ↔ (A, s) ∈ t.subjectsStudents ∧ t.studentType s ≠ some .test := by
  have hjoin : s ∈ t.enrolledReal A ↔
      (A, s) ∈ t.subjectsStudents ∧ ∃ st ∈ t.students, st.id = s ∧ st.type = .real := by
    unfold enrolledReal
    simp only [List.mem_toFinset, List.mem_flatMap, List.mem_map, List.mem_filter, Bool.and_eq_true, beq_iff_eq]
    constructor
    · rintro ⟨e, he, st, ⟨hst, ⟨hid, rfl⟩, hreal⟩, rfl⟩
      exact ⟨he, st, hst, hid, hreal⟩
    · rintro ⟨he, st, hst, hid, hreal⟩
      exact ⟨(A, s), he, st, ⟨hst, ⟨hid, rfl⟩, hreal⟩, rfl⟩
  rw [hjoin]
  refine and_congr_right fun he => ?_
  obtain ⟨st, hst, hid⟩ := List.mem_map.mp (t.enrolledStudent _ he)
  dsimp only at hid
  subst hid
  rw [studentType_of_mem hst]
  constructor
  · rintro ⟨st', hst', hid', hreal⟩ htest
    have htype := studentType_of_mem hst'
    rw [hid', studentType_of_mem hst, htest, hreal] at htype
    cases htype
  · intro htest
    refine ⟨st, hst, rfl, ?_⟩
    cases htype : st.type with
    | real => rfl
    | test => exact absurd (congrArg some htype) htest

theorem mem_inSquad : s ∈ t.inSquad A ↔ ∃ m ∈ t.squadMembers, m.subjectId = A ∧ m.studentId = s := by
  unfold inSquad
  simp only [List.mem_toFinset, List.mem_map, List.mem_filter, beq_iff_eq, and_assoc]

/-- A student has one squad in a subject at most, so the look-up raises nothing. -/
theorem squadOf_ok : ∃ o, t.squadOf A s = .ok o ∧ (o.isSome = true ↔ s ∈ t.inSquad A) := by
  have hmem : ∀ q, q ∈ t.squadRows A s ↔
      q ∈ t.squads ∧ ∃ m ∈ t.squadMembers, m.squadId = q.id ∧ m.subjectId = A ∧ m.studentId = s := by
    intro q
    unfold squadRows
    simp only [List.mem_flatMap, List.mem_map, List.mem_filter, Bool.and_eq_true, beq_iff_eq]
    constructor
    · rintro ⟨q', hq', m, ⟨hm, ⟨hsquad, hsubject⟩, hstudent⟩, rfl⟩
      exact ⟨hq', m, hm, hsquad, hsubject, hstudent⟩
    · rintro ⟨hq, m, hm, hsquad, hsubject, hstudent⟩
      exact ⟨q, hq, m, ⟨hm, ⟨hsquad, hsubject⟩, hstudent⟩, rfl⟩
  have hsome : t.squadRows A s ≠ [] ↔ s ∈ t.inSquad A := by
    rw [mem_inSquad]
    constructor
    · intro hne
      obtain ⟨q, hq⟩ := List.exists_mem_of_ne_nil _ hne
      obtain ⟨-, m, hm, -, hsubject, hstudent⟩ := (hmem q).mp hq
      exact ⟨m, hm, hsubject, hstudent⟩
    · rintro ⟨m, hm, hsubject, hstudent⟩
      obtain ⟨q, hq, hid⟩ := List.mem_map.mp (t.memberSquad m hm)
      exact List.ne_nil_of_mem ((hmem q).mpr ⟨hq, m, hm, hid.symm, hsubject, hstudent⟩)
  have hlength : (t.squadRows A s).length ≤ 1 := by
    set own := t.squadMembers.filter fun m => (m.subjectId, m.studentId) = (A, s) with hown
    have hrows : t.squadRows A s = t.squads.flatMap fun q => (own.filter fun m => m.squadId == q.id).map fun _ => q := by
      unfold squadRows
      refine List.flatMap_congr fun q _ => ?_
      rw [hown, List.filter_filter]
      refine congrArg _ (List.filter_congr fun m _ => ?_)
      rw [Bool.eq_iff_iff]
      simp [and_assoc]
    have hone : own.length ≤ 1 := length_filter_key_le t.oneSquad (A, s)
    rcases own with _ | ⟨m, _ | ⟨m', rest⟩⟩
    · simp [hrows]
    · have hfilter : t.squadRows A s = t.squads.filter fun q => q.id = m.squadId := by
        rw [hrows]
        induction t.squads with
        | nil => rfl
        | cons q squads ih =>
          rw [List.flatMap_cons, ih]
          by_cases hid : q.id = m.squadId
          · simp [hid]
          · simp [hid, Ne.symm hid]
      rw [hfilter]
      exact length_filter_key_le t.squadIds m.squadId
    · simp at hone
  unfold squadOf
  rw [← hsome]
  rcases h : t.squadRows A s with _ | ⟨q, _ | ⟨q', rest⟩⟩
  · exact ⟨none, rfl, by simp⟩
  · exact ⟨some q, rfl, by simp⟩
  · rw [h] at hlength
    simp at hlength

theorem mem_withSubmission : s ∈ t.withSubmission A ↔ t.hasSubmissions A s = true := by
  unfold withSubmission hasSubmissions
  rw [bne_iff_ne, ← Nat.pos_iff_ne_zero, List.countP_pos_iff]
  simp only [List.mem_toFinset, List.mem_map, List.mem_filter, beq_iff_eq, Bool.and_eq_true]
  constructor
  · rintro ⟨r, ⟨hr, hsubject⟩, hstudent⟩
    exact ⟨r, hr, hstudent, hsubject⟩
  · rintro ⟨r, hr, hstudent, hsubject⟩
    exact ⟨r, ⟨hr, hsubject⟩, hstudent⟩

theorem mem_eligibleStudentIds : s ∈ t.eligibleStudentIds A ↔
    t.maxSize A ≠ none ∧ s ∈ t.enrolledReal A ∧ s ∉ t.inSquad A ∧ s ∉ t.withSubmission A := by
  unfold eligibleStudentIds
  by_cases hsize : t.maxSize A = none
  · simp [hsize]
  · by_cases hempty : t.enrolledReal A = ∅
    · simp [hsize, hempty]
    · simp [hsize, hempty, and_assoc]

theorem eligibility_none : t.eligibility A s = .ok none ↔ s ∈ t.eligibleStudentIds A := by
  obtain ⟨o, ho, hsome⟩ : ∃ o, t.squadOf A s = .ok o ∧ (o.isSome = true ↔ s ∈ t.inSquad A) := squadOf_ok
  rw [mem_eligibleStudentIds, mem_enrolledReal, ← hsome, mem_withSubmission]
  unfold eligibility
  by_cases hsize : t.maxSize A = none
  · rw [if_pos hsize]
    simp [hsize, pure, Except.pure]
  rw [if_neg hsize]
  by_cases henrolled : (A, s) ∈ t.subjectsStudents
  · rw [if_neg (not_not.mpr henrolled)]
    by_cases htest : t.studentType s = some .test
    · rw [if_pos htest]
      simp [htest, pure, Except.pure]
    · rw [if_neg htest, ho]
      cases o with
      | none => simp [hsize, henrolled, htest, pure, Except.pure, bind, Except.bind]
      | some q => simp [pure, Except.pure, bind, Except.bind]
  · rw [if_pos henrolled]
    simp [henrolled, pure, Except.pure]

end

/-- A student is refused nothing where the set has them, and is offered to a classmate exactly then. -/
theorem eligibility_agrees (t : EnrolmentTables) (collates : String → String → Bool) (subjectId studentId : ℕ) :
    (t.eligibility subjectId studentId = .ok none ↔ studentId ∈ t.eligibleStudentIds subjectId) ∧
      ∀ classmate, classmate ∈ t.eligibleClassmates collates subjectId studentId ↔
        classmate ∈ t.students ∧ classmate.id ≠ studentId ∧ t.eligibility subjectId classmate.id = .ok none := by
  refine ⟨eligibility_none, fun classmate => ?_⟩
  rw [eligibility_none]
  unfold eligibleClassmates
  dsimp only
  split_ifs with hempty
  · constructor
    · exact fun h => absurd h List.not_mem_nil
    · rintro ⟨-, hne, helig⟩
      have hmem : classmate.id ∈ t.eligibleStudentIds subjectId \ {studentId} := by simp [helig, hne]
      rw [hempty] at hmem
      exact absurd hmem (Finset.notMem_empty _)
  · rw [List.mem_mergeSort]
    simp only [List.mem_filter, decide_eq_true_eq, Finset.mem_sdiff, Finset.mem_singleton]
    constructor
    · rintro ⟨hrow, helig, hne⟩
      exact ⟨hrow, hne, helig⟩
    · rintro ⟨hrow, hne, helig⟩
      exact ⟨hrow, helig, hne⟩

/-- A member of a squad, a test student, one with a submission and a free one. -/
def fourStudents : EnrolmentTables where
  students := [⟨10, "Anna", .real⟩, ⟨11, "Bot", .test⟩, ⟨12, "Clara", .real⟩, ⟨13, "Dan", .real⟩]
  subjects := [⟨1, some 3⟩]
  subjectsStudents := [(1, 10), (1, 11), (1, 12), (1, 13)]
  squads := [⟨5, 1⟩]
  squadMembers := [⟨5, 10, 1⟩]
  subjectsAssignments := [⟨20, 1⟩]
  studentsAssignments := [⟨30, 12, 20⟩]
  submissions := [⟨40, 30⟩]
  studentIds := by decide
  squadIds := by decide
  enrolledStudent := by decide
  memberSquad := by decide
  oneSquad := by decide

theorem only_free_student_eligible : fourStudents.eligibility 1 13 = .ok none ∧
    ∀ studentId ∈ [10, 11, 12], fourStudents.eligibility 1 studentId ≠ .ok none := by
  have hnone : ∀ studentId ∈ [10, 11, 12], studentId ∉ fourStudents.eligibleStudentIds 1 := by decide
  refine ⟨(eligibility_agrees fourStudents (fun _ _ => true) 1 13).1.mpr (by decide), fun studentId hmem helig => ?_⟩
  exact hnone studentId hmem ((eligibility_agrees fourStudents (fun _ _ => true) 1 studentId).1.mp helig)

end EnrolmentTables

end SubmissionsChecker
