import SubmissionsChecker.Library.Runs
import SubmissionsChecker.Workers.DeadlineReminders

/-! Who is reminded of a deadline: whoever has not submitted when the job runs, and once only. -/

namespace SubmissionsChecker.Reminders

open Runs

variable {db s t u : ReminderDb} {tables : ReminderTables} {assignment : DueAssignment}
  {now daysBefore studentId assignmentId a : ℕ} {ids : List ℕ} {r : Reminder}

/-- The primary key of `subjects_students`, and the unique constraint of `students_assignments`. -/
structure Keyed (tables : ReminderTables) : Prop where
  enrolled : tables.enrolled.Nodup
  studentAssignments : tables.studentAssignments.Nodup

/-- A real student of the subject who has not handed the work in and has not opted out. -/
structure Unsubmitted (tables : ReminderTables) (subjectId studentId assignmentId : ℕ) : Prop where
  enrolled : (subjectId, studentId) ∈ tables.enrolled
  real : tables.students[studentId]? = some true
  submitted : ∀ sa : ℕ, tables.studentAssignments[sa]? = some (studentId, assignmentId) → sa ∉ tables.submissions
  asked : (studentId, false) ∉ tables.preferences

/-- A reminder of the student and the assignment is to be sent, if it has not been. -/
structure Eligible (tables : ReminderTables) (now daysBefore studentId assignmentId deadline : ℕ) : Prop where
  assignment : ∃ assignment, tables.assignments[assignmentId]? = some assignment ∧
    tables.isDue now daysBefore assignment = true ∧ assignment.deadline = some deadline ∧
    Unsubmitted tables assignment.subjectId studentId assignmentId

def Reminder.key (r : Reminder) : ℕ × ℕ := (r.studentId, r.assignmentId)

/-- How many reminders the student has of the assignment. -/
def ReminderDb.remindersOf (db : ReminderDb) (studentId assignmentId : ℕ) : ℕ :=
  (db.outbox.map Reminder.key).count (studentId, assignmentId)

/-! ## One assignment -/

theorem alreadyQueued_iff :
    db.alreadyQueued assignmentId studentId = true ↔ (studentId, assignmentId) ∈ db.outbox.map Reminder.key := by
  rw [ReminderDb.alreadyQueued, List.any_eq_true, List.mem_map]
  refine exists_congr fun r => and_congr_right fun _ => ?_
  rw [Bool.and_eq_true, beq_iff_eq, beq_iff_eq, Reminder.key, Prod.mk.injEq]

theorem optedOut_false : tables.optedOut studentId = false ↔ (studentId, false) ∉ tables.preferences := by
  rw [ReminderTables.optedOut, Bool.eq_false_iff, ne_eq, List.any_eq_true]
  refine not_congr ⟨?_, fun h => ⟨_, h, by simp⟩⟩
  rintro ⟨⟨student, enabled⟩, hmem, hp⟩
  simp only [Bool.and_eq_true, beq_iff_eq, Bool.not_eq_true'] at hp
  rw [← hp.1, ← hp.2]
  exact hmem

/-- Under the constraint the join has one row, and says whether there is a submission. -/
theorem joined_eq (assignmentId studentId : ℕ) (hkeyed : Keyed tables) :
    ∃ row, tables.joined assignmentId studentId = [row] ∧
    (tables.hasSubmission row = false ↔
      ∀ sa : ℕ, tables.studentAssignments[sa]? = some (studentId, assignmentId) → sa ∉ tables.submissions) := by
  have hmem : ∀ sa, sa ∈ Table.idsWhere (fun sa : ℕ × ℕ => sa.1 == studentId && sa.2 == assignmentId)
      tables.studentAssignments ↔ tables.studentAssignments[sa]? = some (studentId, assignmentId) := by
    intro sa
    rw [Table.mem_idsWhere]
    constructor
    · rintro ⟨⟨student, assignment⟩, hrow, hp⟩
      rw [Bool.and_eq_true, beq_iff_eq, beq_iff_eq] at hp
      rw [hrow, ← hp.1, ← hp.2]
    · exact fun hrow => ⟨_, hrow, by simp⟩
  have hnodup := Table.nodup_idsWhere (fun sa : ℕ × ℕ => sa.1 == studentId && sa.2 == assignmentId) tables.studentAssignments
  unfold ReminderTables.joined
  cases hids : Table.idsWhere (fun sa : ℕ × ℕ => sa.1 == studentId && sa.2 == assignmentId) tables.studentAssignments with
  | nil =>
    rw [hids] at hmem
    exact ⟨none, rfl, fun _ sa hsa => absurd ((hmem sa).mpr hsa) List.not_mem_nil, fun _ => rfl⟩
  | cons sa rest =>
    rw [hids] at hmem
    have hsa := (hmem sa).mp List.mem_cons_self
    have hone : ∀ other, tables.studentAssignments[other]? = some (studentId, assignmentId) → other = sa := by
      intro other hother
      have hlt := (List.getElem?_eq_some_iff.mp hother).1
      exact (List.getElem?_inj hlt hkeyed.studentAssignments).mp (hother.trans hsa.symm)
    have hrest : rest = [] := by
      refine List.eq_nil_iff_forall_not_mem.mpr fun other hother => ?_
      have heq := hone other ((hmem other).mp (List.mem_cons_of_mem _ hother))
      rw [heq] at hother
      rw [hids] at hnodup
      exact (List.nodup_cons.mp hnodup).1 hother
    rw [hrest]
    refine ⟨some sa, rfl, ?_⟩
    rw [ReminderTables.hasSubmission, Option.any_some, Bool.eq_false_iff, ne_eq, List.contains_iff_mem]
    exact ⟨fun hnot other hother => hone other hother ▸ hnot, fun h => h sa hsa⟩

/-- The rows of a student in the query: one, if they are to be reminded. -/
theorem mem_rowsToRemind (hkeyed : Keyed db.tables) {x : ℕ} :
    ((db.rowsToRemind assignmentId studentId).map fun _ => studentId).Nodup ∧
    (x ∈ (db.rowsToRemind assignmentId studentId).map (fun _ => studentId) ↔
      x = studentId ∧ db.tables.students[studentId]? = some true ∧
      (∀ sa : ℕ, db.tables.studentAssignments[sa]? = some (studentId, assignmentId) → sa ∉ db.tables.submissions) ∧
      (studentId, false) ∉ db.tables.preferences ∧ (studentId, assignmentId) ∉ db.outbox.map Reminder.key) := by
  obtain ⟨row, hjoined, hsubmission⟩ := joined_eq assignmentId studentId hkeyed
  rw [← hsubmission, ← optedOut_false, ← alreadyQueued_iff, Bool.not_eq_true]
  rw [ReminderDb.rowsToRemind, hjoined]
  have hreal : (db.tables.students[studentId]?).any id = true ↔ db.tables.students[studentId]? = some true := by
    cases db.tables.students[studentId]? with
    | none => simp
    | some real => simp
  rw [← hreal, List.filter_cons, List.filter_nil]
  cases (db.tables.students[studentId]?).any id <;> cases db.tables.hasSubmission row <;>
    cases db.alreadyQueued assignmentId studentId <;> cases db.tables.optedOut studentId <;> simp

theorem studentsToRemind_eq (hkeyed : Keyed db.tables) (assignmentId : ℕ) (assignment : DueAssignment) :
    (db.studentsToRemind assignmentId assignment).Nodup ∧
      ∀ studentId, studentId ∈ db.studentsToRemind assignmentId assignment ↔
        Unsubmitted db.tables assignment.subjectId studentId assignmentId ∧
          (studentId, assignmentId) ∉ db.outbox.map Reminder.key := by
  have hstudents : ((db.tables.enrolled.filter fun e => e.1 == assignment.subjectId).map (·.2)).Nodup := by
    refine List.Nodup.map_on ?_ (hkeyed.enrolled.filter _)
    intro e he e' he' heq
    have hsubject := beq_iff_eq.mp (List.mem_filter.mp he).2
    have hsubject' := beq_iff_eq.mp (List.mem_filter.mp he').2
    exact Prod.ext (hsubject.trans hsubject'.symm) heq
  have hmem : ∀ x, x ∈ (db.tables.enrolled.filter fun e => e.1 == assignment.subjectId).map (·.2) ↔
      (assignment.subjectId, x) ∈ db.tables.enrolled := by
    intro x
    rw [List.mem_map]
    constructor
    · rintro ⟨⟨subject, student⟩, he, rfl⟩
      obtain ⟨hrow, hsubject⟩ := List.mem_filter.mp he
      rw [← beq_iff_eq.mp hsubject]
      exact hrow
    · exact fun h => ⟨_, List.mem_filter.mpr ⟨h, beq_self_eq_true _⟩, rfl⟩
  refine ⟨List.nodup_flatMap.mpr ⟨fun x _ => (mem_rowsToRemind (x := x) hkeyed).1, ?_⟩, fun x => ?_⟩
  · refine List.Pairwise.imp ?_ hstudents
    intro x y hne z hx hy
    exact hne (((mem_rowsToRemind hkeyed).2.mp hx).1.symm.trans ((mem_rowsToRemind hkeyed).2.mp hy).1)
  · rw [ReminderDb.studentsToRemind, List.mem_flatMap]
    constructor
    · rintro ⟨y, hy, hx⟩
      obtain ⟨rfl, hreal, hsubmitted, hasked, hqueued⟩ := (mem_rowsToRemind hkeyed).2.mp hx
      exact ⟨⟨(hmem x).mp hy, hreal, hsubmitted, hasked⟩, hqueued⟩
    · rintro ⟨h, hqueued⟩
      exact ⟨x, (hmem x).mpr h.enrolled, (mem_rowsToRemind hkeyed).2.mpr ⟨rfl, h.real, h.submitted, h.asked, hqueued⟩⟩

/-! ## The job -/

/-- Each reminder once. -/
def Once (db : ReminderDb) : Prop := (db.outbox.map Reminder.key).Nodup

theorem remindTurn_tables (db : ReminderDb) (a : ℕ) : (db.remindTurn a).tables = db.tables := by
  unfold ReminderDb.remindTurn
  cases db.tables.assignments[a]? <;> rfl

theorem remindTurn_cases (db : ReminderDb) (a : ℕ) : db.tables.assignments[a]? = none ∧ db.remindTurn a = db ∨
    ∃ assignment, db.tables.assignments[a]? = some assignment ∧ (db.remindTurn a).outbox =
      db.outbox ++ (db.studentsToRemind a assignment).map fun studentId => ⟨studentId, a, assignment.deadline.getD 0⟩ := by
  unfold ReminderDb.remindTurn
  cases db.tables.assignments[a]? with
  | none => exact .inl ⟨rfl, rfl⟩
  | some assignment => exact .inr ⟨assignment, rfl, rfl⟩

theorem once_remindTurn (hkeyed : Keyed db.tables) (h : Once db) (a : ℕ) : Once (db.remindTurn a) := by
  rcases remindTurn_cases db a with ⟨-, heq⟩ | ⟨assignment, -, heq⟩
  · rw [heq]
    exact h
  obtain ⟨hnodup, hmem⟩ := studentsToRemind_eq hkeyed a assignment
  unfold Once
  rw [heq, List.map_append, List.map_map]
  refine List.nodup_append.mpr ⟨h, ?_, ?_⟩
  · exact hnodup.map fun x y hxy => congrArg Prod.fst hxy
  · intro key hold key' hnew hsame
    obtain ⟨studentId, hstudent, rfl⟩ := List.mem_map.mp hnew
    subst hsame
    exact ((hmem studentId).mp hstudent).2 hold

theorem mem_remindTurn (a : ℕ) {r : Reminder} (h : r ∈ db.outbox) : r ∈ (db.remindTurn a).outbox := by
  rcases remindTurn_cases db a with ⟨-, heq⟩ | ⟨assignment, -, heq⟩
  · rw [heq]
    exact h
  · rw [heq]
    exact List.mem_append_left _ h

theorem foldl_remindTurn : ∀ (ids : List ℕ) (db : ReminderDb), Keyed db.tables → Once db →
    (ids.foldl ReminderDb.remindTurn db).tables = db.tables ∧ Once (ids.foldl ReminderDb.remindTurn db) ∧
      (∀ r ∈ db.outbox, r ∈ (ids.foldl ReminderDb.remindTurn db).outbox) ∧
      ∀ a ∈ ids, ∀ assignment, db.tables.assignments[a]? = some assignment → ∀ studentId,
        Unsubmitted db.tables assignment.subjectId studentId a →
        (studentId, a) ∈ (ids.foldl ReminderDb.remindTurn db).outbox.map Reminder.key := by
  intro ids
  induction ids with
  | nil => exact fun db _ h => ⟨rfl, h, fun _ h => h, fun a ha => absurd ha List.not_mem_nil⟩
  | cons a ids ih =>
    intro db hkeyed honce
    have htables := remindTurn_tables db a
    obtain ⟨hrest, honce', hgrows, hreminded⟩ := ih (db.remindTurn a) (htables ▸ hkeyed) (once_remindTurn hkeyed honce a)
    refine ⟨hrest.trans htables, honce', fun r hr => hgrows r (mem_remindTurn a hr),
      fun b hb assignment hrow studentId h => ?_⟩
    rcases List.mem_cons.mp hb with rfl | hb
    · have hnow : (studentId, b) ∈ (db.remindTurn b).outbox.map Reminder.key := by
        rcases remindTurn_cases db b with ⟨hnone, -⟩ | ⟨assignment', hrow', heq⟩
        · rw [hrow] at hnone
          cases hnone
        · rw [hrow] at hrow'
          cases hrow'
          rw [heq, List.map_append, List.map_map, List.mem_append]
          by_cases hqueued : (studentId, b) ∈ db.outbox.map Reminder.key
          · exact .inl hqueued
          · have hstudent := ((studentsToRemind_eq hkeyed b assignment).2 studentId).mpr ⟨h, hqueued⟩
            exact .inr (List.mem_map.mpr ⟨studentId, hstudent, rfl⟩)
      obtain ⟨r, hr, hkey⟩ := List.mem_map.mp hnow
      exact List.mem_map.mpr ⟨r, hgrows r hr, hkey⟩
    · exact hreminded b hb assignment (htables ▸ hrow) studentId (htables ▸ h)

theorem enqueue_spec (hkeyed : Keyed db.tables) (honce : Once db) (now daysBefore : ℕ) :
    (db.enqueueDueReminders now daysBefore).tables = db.tables ∧ Once (db.enqueueDueReminders now daysBefore) ∧
      (∀ r ∈ db.outbox, r ∈ (db.enqueueDueReminders now daysBefore).outbox) ∧
      ∀ studentId a deadline, Eligible db.tables now daysBefore studentId a deadline →
        (studentId, a) ∈ (db.enqueueDueReminders now daysBefore).outbox.map Reminder.key := by
  obtain ⟨htables, honce', hgrows, hreminded⟩ :=
    foldl_remindTurn (Table.idsWhere (db.tables.isDue now daysBefore) db.tables.assignments) db hkeyed honce
  refine ⟨htables, honce', hgrows, fun studentId a deadline h => ?_⟩
  obtain ⟨assignment, hrow, hdue, -, hunsubmitted⟩ := h.assignment
  exact hreminded a (Table.mem_idsWhere.mpr ⟨assignment, hrow, hdue⟩) assignment hrow studentId hunsubmitted

theorem source_remindTurn (hkeyed : Keyed db.tables) (h : r ∈ (db.remindTurn a).outbox) : r ∈ db.outbox ∨
    ∃ assignment, db.tables.assignments[a]? = some assignment ∧ r.assignmentId = a ∧
      r.deadline = assignment.deadline.getD 0 ∧ Unsubmitted db.tables assignment.subjectId r.studentId a := by
  rcases remindTurn_cases db a with ⟨-, heq⟩ | ⟨assignment, hrow, heq⟩
  · rw [heq] at h
    exact .inl h
  · rw [heq] at h
    rcases List.mem_append.mp h with hold | hnew
    · exact .inl hold
    · obtain ⟨studentId, hstudent, rfl⟩ := List.mem_map.mp hnew
      exact .inr ⟨assignment, hrow, rfl, rfl, (((studentsToRemind_eq hkeyed a assignment).2 studentId).mp hstudent).1⟩

theorem source_foldl : ∀ (ids : List ℕ) (db : ReminderDb), Keyed db.tables →
    r ∈ (ids.foldl ReminderDb.remindTurn db).outbox → r ∈ db.outbox ∨ ∃ a ∈ ids, ∃ assignment,
      db.tables.assignments[a]? = some assignment ∧ r.assignmentId = a ∧ r.deadline = assignment.deadline.getD 0 ∧
      Unsubmitted db.tables assignment.subjectId r.studentId a := by
  intro ids
  induction ids with
  | nil => exact fun db _ h => .inl h
  | cons a ids ih =>
    intro db hkeyed h
    have htables := remindTurn_tables db a
    rcases ih (db.remindTurn a) (htables ▸ hkeyed) h with hturn | ⟨b, hb, assignment, hrest⟩
    · rcases source_remindTurn hkeyed hturn with hold | hnew
      · exact .inl hold
      · exact .inr ⟨a, List.mem_cons_self, hnew⟩
    · rw [htables] at hrest
      exact .inr ⟨b, List.mem_cons_of_mem _ hb, assignment, hrest⟩

theorem enqueue_source (hkeyed : Keyed db.tables) (h : r ∈ (db.enqueueDueReminders now daysBefore).outbox) :
    r ∈ db.outbox ∨ Eligible db.tables now daysBefore r.studentId r.assignmentId r.deadline := by
  rcases source_foldl _ db hkeyed h with hold | ⟨a, ha, assignment, hrow, hassignment, hdeadline, hunsubmitted⟩
  · exact .inl hold
  obtain ⟨assignment', hrow', hdue⟩ := Table.mem_idsWhere.mp ha
  rw [hrow] at hrow'
  cases hrow'
  refine .inr ⟨assignment, hassignment ▸ hrow, hdue, ?_, hassignment ▸ hunsubmitted⟩
  obtain ⟨deadline, hsome, -⟩ := (Option.any_eq_true _ _).mp (Bool.and_eq_true_iff.mp hdue).2
  rw [hdeadline, hsome, Option.getD_some]

/-! ## Runs -/

/-- Others keep the constraints. -/
def KeepsKeys (_ : ReminderDb) : ReminderOp → Prop
  | .remind .. => True
  | .others tables => Keyed tables

structure ReminderOk (db : ReminderDb) : Prop where
  keyed : Keyed db.tables
  once : Once db

theorem reminderOk_step (h : ReminderOk db) {op : ReminderOp} (hop : KeepsKeys db op) : ReminderOk (db.step op) := by
  cases op with
  | remind now daysBefore =>
    obtain ⟨htables, honce, -⟩ := enqueue_spec h.keyed h.once now daysBefore
    exact ⟨htables.symm ▸ h.keyed, honce⟩
  | others tables => exact ⟨hop, h.once⟩

/-- Whoever is to be reminded when the job runs has one reminder of the assignment from then on, however often the job
runs and whatever happens to submissions, enrolments, deadlines and preferences before and after. -/
theorem reminded_exactly_once {ops ops' : List ReminderOp} {deadline : ℕ} (hs : ReminderOk s)
    (hrun : Run ReminderDb.step KeepsKeys s ops t) (heligible : Eligible t.tables now daysBefore studentId assignmentId deadline)
    (hrun' : Run ReminderDb.step KeepsKeys (t.step (.remind now daysBefore)) ops' u) :
    u.remindersOf studentId assignmentId = 1 := by
  have ht : ReminderOk t := hrun.invariant hs fun db op h hop => reminderOk_step h hop
  obtain ⟨-, -, -, hreminded⟩ := enqueue_spec ht.keyed ht.once now daysBefore
  have hu : ReminderOk u ∧ (studentId, assignmentId) ∈ u.outbox.map Reminder.key := by
    refine hrun'.invariant (I := fun db : ReminderDb => ReminderOk db ∧ (studentId, assignmentId) ∈ db.outbox.map Reminder.key)
      ⟨reminderOk_step ht trivial, hreminded studentId assignmentId deadline heligible⟩ fun db op h hop => ?_
    refine ⟨reminderOk_step h.1 hop, ?_⟩
    cases op with
    | remind now daysBefore =>
      obtain ⟨r, hr, hkey⟩ := List.mem_map.mp h.2
      exact List.mem_map.mpr ⟨r, (enqueue_spec h.1.keyed h.1.once now daysBefore).2.2.1 r hr, hkey⟩
    | others tables => exact h.2
  exact List.count_eq_one_of_mem hu.1.once hu.2

/-- Every reminder was put there by a run of the job at which its student was a real one of an active subject, had handed
nothing in, had not opted out, and had that deadline within the days before it. -/
theorem only_the_unsubmitted_are_reminded {ops : List ReminderOp} (hs : ReminderOk s) (hempty : s.outbox = [])
    (hrun : Run ReminderDb.step KeepsKeys s ops t) (hr : r ∈ t.outbox) :
    ∃ ops₁ now daysBefore ops₂, ops = ops₁ ++ .remind now daysBefore :: ops₂ ∧
      Eligible (ops₁.foldl ReminderDb.step s).tables now daysBefore r.studentId r.assignmentId r.deadline := by
  induction hrun with
  | nil =>
    rw [hempty] at hr
    cases hr
  | @snoc ops t op hrun hop ih =>
    have hok : ReminderOk t := hrun.invariant hs fun db op h hop => reminderOk_step h hop
    have hcase : r ∈ t.outbox ∨ ∃ now daysBefore, op = .remind now daysBefore ∧
        Eligible t.tables now daysBefore r.studentId r.assignmentId r.deadline := by
      cases op with
      | remind now daysBefore =>
        exact (enqueue_source hok.keyed hr).imp_right fun h => ⟨now, daysBefore, rfl, h⟩
      | others tables => exact .inl hr
    rcases hcase with hold | ⟨now, daysBefore, rfl, h⟩
    · obtain ⟨ops₁, now, daysBefore, ops₂, rfl, h⟩ := ih hold
      exact ⟨ops₁, now, daysBefore, ops₂ ++ [op], by simp, h⟩
    · exact ⟨ops, now, daysBefore, [], rfl, hrun.eq_foldl ▸ h⟩

/-! ## Two students -/

/-- The first has not submitted; the second one's work is in. -/
def oneSubmitted : ReminderTables where
  subjects := [true]
  assignments := [⟨0, some 50⟩]
  students := [true, true]
  enrolled := [(0, 0), (0, 1)]
  studentAssignments := [(1, 0)]
  submissions := [0]
  preferences := []

def quiet : ReminderDb := ⟨oneSubmitted, []⟩

theorem quiet_ok : ReminderOk quiet := ⟨⟨by decide, by decide⟩, List.nodup_nil⟩

theorem eligible_first : Eligible oneSubmitted 10 1 0 0 50 := by
  refine ⟨⟨0, some 50⟩, rfl, by decide, rfl, by decide, rfl, fun sa hsa => ?_, List.not_mem_nil⟩
  cases sa with
  | zero => cases hsa
  | succ sa => cases hsa

theorem first_reminded_once :
    ((quiet.step (.remind 10 1)).step (.remind 20 1)).remindersOf 0 0 = 1 := by
  have hsecond : Run ReminderDb.step KeepsKeys (quiet.step (.remind 10 1)) [.remind 20 1]
      ((quiet.step (.remind 10 1)).step (.remind 20 1)) := run_of_checks ⟨trivial, trivial⟩
  exact reminded_exactly_once quiet_ok .nil eligible_first hsecond

theorem first_reminder_was_due : ∃ ops₁ now daysBefore ops₂,
    [ReminderOp.remind 10 1] = ops₁ ++ .remind now daysBefore :: ops₂ ∧
      Eligible (ops₁.foldl ReminderDb.step quiet).tables now daysBefore 0 0 50 := by
  have hrun : Run ReminderDb.step KeepsKeys quiet [.remind 10 1] (quiet.step (.remind 10 1)) :=
    run_of_checks ⟨trivial, trivial⟩
  have hmem : (⟨0, 0, 50⟩ : Reminder) ∈ (quiet.step (.remind 10 1)).outbox := by decide
  exact only_the_unsubmitted_are_reminded quiet_ok rfl hrun hmem

end SubmissionsChecker.Reminders
