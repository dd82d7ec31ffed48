import SubmissionsChecker.Effects.Passes
import SubmissionsChecker.Invariants.Reachable

/-! Whether a submission at the quiz has somebody left who can move it. The quiz outcomes, an
approval and a grant see to that; a check, an AI review and an unenrolment do not look. -/

namespace SubmissionsChecker

open Runs

namespace Db

/-- The subject of submission `i`. -/
def subjectOf (db : Db) (i : ℕ) : Option ℕ :=
  (db.submissions[i]?).bind fun sub => (db.assignmentOf sub.studentsAssignmentId).map (·.subjectId)

/-- The students a submission belongs to who are still enrolled. -/
def enrolledOn (db : Db) (i : ℕ) : List ℕ :=
  (db.belongsTo i).filter fun t => (db.subjectOf i).any fun s => decide ((s, t) ∈ db.subjectsStudents)

/-- Some enrolled student of submission `i` has not passed it, or nobody is enrolled. -/
def SomebodyLeft (db : Db) (i : ℕ) : Prop :=
  db.enrolledOn i ≠ [] → ∃ t ∈ db.enrolledOn i, t ∉ db.passedStudentIds i

/-- No submission is stuck at a quiz that all its enrolled students have passed. -/
def NoneStuck (db : Db) : Prop := ∀ i, db.status i = some .quizSent → db.SomebodyLeft i

/-- A check or an AI review sends the quiz of submission `i`. -/
def TaskSends (db : Db) (op : Op) (i : ℕ) : Prop :=
  (∃ check m, db.RunsCheck op i check ∧ db.status i = some .pending ∧ db.checkMode i = some m ∧
    check.accepts m = true ∧ m.afterCheck = .quizSent) ∨
  ∃ ns codeMark isFlagged s, db.RunsAiReview op i ns (.verdict codeMark isFlagged) ∧ db.status i = some s ∧
    s.isAi = true ∧ (ns.getD .completed).afterReview isFlagged = .quizSent

/-- A quiz that a task sends has somebody left to pass it, and so has one that loses a member. -/
structure KeepsSomebody (db : Db) (op : Op) : Prop where
  sent : ∀ i, db.TaskSends op i → db.SomebodyLeft i
  unenrolled : ∀ i subject t, op = .unenroll subject t → db.status i = some .quizSent →
    (∃ t' ∈ db.enrolledOn i, db.subjectOf i ≠ some subject ∨ t' ≠ t) →
    ∃ t' ∈ db.enrolledOn i, (db.subjectOf i ≠ some subject ∨ t' ≠ t) ∧ t' ∉ db.passedStudentIds i

end Db

section

variable {db db' : Db} {op : Op} {i t : ℕ} {sub sub' : Submission}

theorem mem_enrolledOn {asg : SubjectsAssignment} (hs : db.submissions[i]? = some sub)
    (hasg : db.assignmentOf sub.studentsAssignmentId = some asg) :
    t ∈ db.enrolledOn i ↔ t ∈ db.belongsTo i ∧ (asg.subjectId, t) ∈ db.subjectsStudents := by
  simp [Db.enrolledOn, Db.subjectOf, hs, hasg]

theorem squad_subject {asg : SubjectsAssignment} {squad : Squad} (hs : db.submissions[i]? = some sub)
    (ok : SubmissionOk db i sub) (hasg : db.assignmentOf sub.studentsAssignmentId = some asg)
    (hq : db.squadForSubmission i = some squad) : squad.subjectId = asg.subjectId := by
  obtain ⟨row, asg₁, hrow, hasg₁, hsquad⟩ := ok.owned
  rw [Db.assignmentOf, hrow, Option.bind_some, hasg₁, Option.some_inj] at hasg
  subst hasg
  rw [Db.squadForSubmission, hs, Option.bind_some, hsquad] at hq
  obtain ⟨q, hfind, hget⟩ := Option.bind_eq_some_iff.mp hq
  obtain ⟨s, hs', hp⟩ := Table.findId_some hfind
  rw [hget] at hs'
  cases hs'
  simp only [Bool.and_eq_true, beq_iff_eq] at hp
  exact hp.1

/-- The enrolled members of the squad are the enrolled students of its submission. -/
theorem mem_enrolledMemberIds {squad : Squad} (hs : db.submissions[i]? = some sub) (ok : SubmissionOk db i sub)
    (hq : db.squadForSubmission i = some squad) : t ∈ db.enrolledMemberIds squad ↔ t ∈ db.enrolledOn i := by
  obtain ⟨asg, hasg⟩ := ok.assignment
  rw [mem_enrolledOn hs hasg, belongsTo_squad hq, ← squad_subject hs ok hasg hq]
  simp [Db.enrolledMemberIds]

theorem passed_of_mem (h : t ∈ db.passedStudentIds i) : db.quizPassed i = true := by
  simp only [Db.passedStudentIds, List.mem_filterMap, List.mem_filter] at h
  obtain ⟨a, ⟨ha, hp⟩, -⟩ := h
  exact List.any_eq_true.mpr ⟨a, ha, hp⟩

theorem somebodyLeft_of_unpassed (h : db.quizPassed i = false) : db.SomebodyLeft i := by
  intro hne
  obtain ⟨t, ht⟩ := List.exists_mem_of_ne_nil _ hne
  refine ⟨t, ht, fun hp => ?_⟩
  rw [passed_of_mem hp] at h
  cases h

/-- A quiz that is not complete has somebody left. -/
theorem somebodyLeft_of_incomplete (hs : db.submissions[i]? = some sub) (ok : SubmissionOk db i sub)
    (h : db.quizComplete i = false) : db.SomebodyLeft i := by
  unfold Db.quizComplete at h
  cases hq : db.squadForSubmission i with
  | none =>
    rw [hq] at h
    exact somebodyLeft_of_unpassed h
  | some squad =>
    rw [hq] at h
    intro hne
    obtain ⟨t₀, ht₀⟩ := List.exists_mem_of_ne_nil _ hne
    rw [← mem_enrolledMemberIds hs ok hq] at ht₀
    have hneeded : (db.enrolledMemberIds squad).isEmpty = false := by
      rw [List.isEmpty_eq_false_iff]
      exact List.ne_nil_of_mem ht₀
    dsimp only at h
    rw [hneeded, Bool.not_false, Bool.true_and] at h
    obtain ⟨t, ht, hno⟩ := List.all_eq_false.mp h
    refine ⟨t, (mem_enrolledMemberIds hs ok hq).mp ht, fun hp => hno ?_⟩
    simpa using hp

/-- Whoever gets another attempt has not passed. -/
theorem not_passed_of_grantable {base : Option ℤ} (h : db.isGrantable i t base = true) :
    t ∉ db.passedStudentIds i := by
  intro hp
  simp only [Db.passedStudentIds, List.mem_filterMap, List.mem_filter, Bool.and_eq_true, beq_iff_eq] at hp
  obtain ⟨a, ⟨ha, hi, hpass⟩, hst⟩ := hp
  unfold Db.isGrantable at h
  split at h
  · cases h
  · simp only [Bool.and_eq_true] at h
    have hex := h.2
    unfold isExhausted at hex
    split at hex
    · cases hex
    · simp only [Bool.and_eq_true, Bool.not_eq_true', List.any_eq_false] at hex
      exact hex.1.2 a (mem_attemptsOf.mpr ⟨ha, hi, .inl hst⟩) hpass

theorem enrolledOn_of_studentsOn (hs : db.submissions[i]? = some sub) (ok : SubmissionOk db i sub)
    (ht : t ∈ db.studentsOn i) (hne : db.enrolledOn i ≠ []) : t ∈ db.enrolledOn i := by
  unfold Db.studentsOn at ht
  cases hq : db.squadForSubmission i with
  | some squad =>
    rw [hq] at ht
    exact (mem_enrolledMemberIds hs ok hq).mp ((List.mem_insertionSort _).mp ht)
  | none =>
    rw [hq] at ht
    obtain ⟨t', ht'⟩ := List.exists_mem_of_ne_nil _ hne
    have hbelongs := (List.mem_filter.mp ht').1
    have hown : db.belongsTo i = ((db.submissions[i]?).bind fun sub =>
        (db.studentsAssignments[sub.studentsAssignmentId]?).map (·.studentId)).toList := by
      simp only [Db.belongsTo, hq]
    rw [hown] at hbelongs
    have : t = t' := by
      cases ho : (db.submissions[i]?).bind fun sub =>
          (db.studentsAssignments[sub.studentsAssignmentId]?).map (·.studentId) with
      | none => rw [ho] at ht; cases ht
      | some u =>
        rw [ho] at ht hbelongs
        rw [List.mem_singleton.mp ht, List.mem_singleton.mp hbelongs]
    rw [this]
    exact ht'

/-- A step that adds no pass and takes nobody away leaves somebody. -/
theorem SomebodyLeft.keep (h : db.SomebodyLeft i) (hev : Evolves db db') (hs : db.submissions[i]? = some sub)
    (ok : SubmissionOk db i sub) (hpass : NoNewPass db db' i)
    (henrolled : db'.subjectsStudents = db.subjectsStudents) : db'.SomebodyLeft i := by
  obtain ⟨asg, hasg⟩ := ok.assignment
  obtain ⟨sub', hs', hsa, -⟩ := hev.submission hs
  have hsame : ∀ t, t ∈ db'.enrolledOn i ↔ t ∈ db.enrolledOn i := by
    intro t
    rw [mem_enrolledOn hs hasg, mem_enrolledOn hs' (by rw [hsa]; exact hev.assignmentOf hasg),
      hev.belongsTo hs hasg, henrolled]
  intro hne
  obtain ⟨t₀, ht₀⟩ := List.exists_mem_of_ne_nil _ hne
  obtain ⟨t, ht, hno⟩ := h (List.ne_nil_of_mem ((hsame t₀).mp ht₀))
  exact ⟨t, (hsame t).mpr ht, fun hp => hno (hpass.passedStudentIds hp)⟩

/-- Nobody has passed a submission that was just added. -/
theorem unpassed_of_new (ok : db.Ok) (h : StepSpec db op db') (hs : db.submissions[i]? = none) :
    db'.quizPassed i = false := by
  by_contra hp
  simp only [Bool.not_eq_false, Db.quizPassed, List.any_eq_true, Bool.and_eq_true, beq_iff_eq] at hp
  obtain ⟨a', ha', hi, hpass⟩ := hp
  obtain ⟨k, hk⟩ := List.mem_iff_getElem?.mp ha'
  rcases attempt_step h hk with ⟨a, ha, hkeep⟩ | hnew
  · obtain ⟨sub, _, hsub, -⟩ := (ok.attempts k a ha).submission
    rw [← hkeep.submissionId, hi, hs] at hsub
    cases hsub
  · obtain ⟨db₁, j, t, hst, -⟩ := hnew.started
    rw [QuizAttempt.passed, hst.unpassed] at hpass
    cases hpass

/-- Those left on a submission after an unenrolment. -/
theorem mem_enrolledOn_unenroll {subject t' : ℕ} {asg : SubjectsAssignment} (hs : db.submissions[i]? = some sub)
    (hasg : db.assignmentOf sub.studentsAssignmentId = some asg) :
    t' ∈ (db.unenrollStudent subject t).enrolledOn i ↔
      t' ∈ db.enrolledOn i ∧ (db.subjectOf i ≠ some subject ∨ t' ≠ t) := by
  have hsubject : db.subjectOf i = some asg.subjectId := by
    simp only [Db.subjectOf, hs, Option.bind_some, hasg, Option.map_some]
  have hbelongs : (db.unenrollStudent subject t).belongsTo i = db.belongsTo i := rfl
  have hleft : t' ∈ (db.unenrollStudent subject t).enrolledOn i ↔ t' ∈ (db.unenrollStudent subject t).belongsTo i ∧
      (asg.subjectId, t') ∈ (db.unenrollStudent subject t).subjectsStudents := mem_enrolledOn hs hasg
  rw [hleft, mem_enrolledOn hs hasg, hbelongs, hsubject]
  simp only [Db.unenrollStudent, Finset.mem_erase, ne_eq, Prod.mk.injEq, Option.some_inj]
  tauto

/-- What a step that meets the condition leaves at the quiz has somebody left. -/
theorem NoneStuck.step (ok : db.Ok) (hinv : db.NoneStuck) (hop : db.KeepsSomebody op) :
    (db.step op).NoneStuck := by
  intro i hsent
  have h := step_spec db op
  have hev := h.evolves
  obtain ⟨sub', hs', hst'⟩ := Option.map_eq_some_iff.mp hsent
  have ok' := (ok.step op).subs i sub' hs'
  rcases passes_step h i with hpass | hcomplete
  · cases hs : db.submissions[i]? with
    | none => exact somebodyLeft_of_unpassed (unpassed_of_new ok h hs)
    | some sub =>
      have hsub := ok.subs i sub hs
      obtain ⟨asg, hasg⟩ := hsub.assignment
      rcases enrolled_step h with henrolled | ⟨subject, t, rfl, hdb'⟩
      · have hbefore : db.SomebodyLeft i → (db.step op).SomebodyLeft i := fun hleft =>
          SomebodyLeft.keep hleft hev hs hsub hpass henrolled
        cases row_step h hs hs' hasg with
        | kept hst => exact hbefore (hinv i (by rw [status_of_row hs, ← hst, hst']))
        | @checked check hr _ hm =>
          generalize hold : some sub.status = s, hnew : some sub'.status = s' at hm
          rw [hst'] at hnew
          cases hm with
          | stays => exact hbefore (hinv i (by rw [status_of_row hs, hold, hnew]))
          | refused => cases hnew
          | started => cases hnew
          | testsFailed => cases hnew
          | passed hmode ha =>
            exact hbefore (hop.sent i (.inl ⟨check, _, hr, by rw [status_of_row hs, hold], hmode, ha,
              (Option.some_inj.mp hnew).symm⟩))
        | requeued _ _ _ hst => rw [hst] at hst'; cases hst'
        | @granted t _ _ ht hg =>
          refine hbefore fun hne => ⟨t, enrolledOn_of_studentsOn hs hsub ht hne, not_passed_of_grantable hg⟩
        | moved hm =>
          generalize hold : sub.status = s, hnew : sub'.status = s' at hm
          rw [hst'] at hnew
          cases hm with
          | aiFailed => cases hnew
          | aiReviewed hai hr =>
            exact hbefore (hop.sent i (.inr ⟨_, _, _, s, hr, by rw [status_of_row hs, hold], hai, hnew.symm⟩))
          | skipped => cases hnew
          | approved => cases hnew
          | sentQuiz _ hp => exact hbefore (somebodyLeft_of_unpassed hp)
          | rejected => cases hnew
          | saved => cases hnew
          | passed _ _ _ hs' => rw [hs'] at hnew; split_ifs at hnew
          | failed => cases hnew
          | ruled _ _ _ hs' => rcases hs' with h | h <;> rw [h] at hnew <;> cases hnew
      · -- an unenrolment: the condition names who is left
        have hbefore : db.status i = some .quizSent := by rw [hdb'] at hsent; exact hsent
        rw [hdb']
        intro hne
        obtain ⟨t₀, ht₀⟩ := List.exists_mem_of_ne_nil _ hne
        obtain ⟨t', ht', hleft, hno⟩ := hop.unenrolled i subject t rfl hbefore
          ⟨t₀, (mem_enrolledOn_unenroll hs hasg).mp ht₀⟩
        exact ⟨t', (mem_enrolledOn_unenroll hs hasg).mpr ⟨ht', hleft⟩, hno⟩
  · exact somebodyLeft_of_incomplete hs' ok' (hcomplete hsent)

/-- In a run whose tasks and unenrolments keep somebody, nothing gets stuck at its quiz. -/
theorem none_stuck {ops : List Op} (hstart : db.Start) (h : Run Db.step Db.KeepsSomebody db ops db') :
    db'.NoneStuck := by
  have hfirst : db.NoneStuck := by
    intro i hsent
    rw [Db.status, hstart.submissions] at hsent
    cases hsent
  have hboth := h.invariant (I := fun e => e.Ok ∧ e.NoneStuck) ⟨hstart.ok, hfirst⟩ fun t op hinv hop =>
    ⟨hinv.1.step op, NoneStuck.step hinv.1 hinv.2 hop⟩
  exact hboth.2

end

/-- The checks send a quiz of two questions to a squad of two. -/
def sentToSquad : Db :=
  oneSubject { reviewMode := some .testsThenQuiz, quiz := { questions := [{ type := .trueFalse }, { type := .trueFalse }] } }
    {} [[0, 1]] [0, 1]

/-- One member passes. -/
def firstPass : List Op :=
  [.upload 0 0 true 1 .raises, .processMessage 0 (.tested true 1 1) .providerError, .startQuiz 0 0 {},
    .submitQuiz 0 0 (fun _ => true) false]

/-- When the other member leaves the subject then, the submission waits at the quiz for nobody. -/
theorem stuck_after_unenrol : ¬ ∀ (db db' : Db) (ops : List Op), db.Start → Run Db.step Any db ops db' →
    db'.NoneStuck := by
  intro hall
  have h := hall sentToSquad _ (firstPass ++ [Op.unenroll 0 1]) (oneSubject_start (by decide) (by simp))
    (run_foldl _) 0 (by decide +kernel)
  have hone : ((firstPass ++ [Op.unenroll 0 1]).foldl Db.step sentToSquad).enrolledOn 0 = [0] := by decide +kernel
  obtain ⟨t, ht, hno⟩ := h (by rw [hone]; simp)
  rw [hone, List.mem_singleton] at ht
  subst ht
  exact hno (by decide +kernel)

theorem keepsSomebody_of_untaken {db : Db} {op : Op} (htask : ∀ m check ai, op ≠ .processMessage m check ai)
    (hleave : ∀ subject t, op ≠ .unenroll subject t) : db.KeepsSomebody op where
  sent := by
    rintro i (⟨check, m, ⟨j, ai, rfl, -⟩, -⟩ | ⟨ns, mark, flagged, s, ⟨j, check, rfl, -⟩, -⟩)
    · exact absurd rfl (htask j check ai)
    · exact absurd rfl (htask j check _)
  unenrolled := fun i subject t hop => absurd hop (hleave subject t)

/-- Before that the other member was left. -/
theorem firstPass_none_stuck : (firstPass.foldl Db.step sentToSquad).status 0 = some .quizSent ∧
    (firstPass.foldl Db.step sentToSquad).NoneStuck := by
  have hrun : Run Db.step Db.KeepsSomebody sentToSquad firstPass (firstPass.foldl Db.step sentToSquad) := by
    refine run_cons ?_ (run_cons ?_ (run_cons ?_ (run_cons ?_ .nil)))
    · exact keepsSomebody_of_untaken (fun _ _ _ h => Op.noConfusion h) (fun _ _ h => Op.noConfusion h)
    · have hnone : (sentToSquad.step (.upload 0 0 true 1 .raises)).quizAttempts = [] := by decide +kernel
      refine ⟨fun i _ => somebodyLeft_of_unpassed ?_, fun _ _ _ h => Op.noConfusion h⟩
      rw [Db.quizPassed, hnone]
      rfl
    · exact keepsSomebody_of_untaken (fun _ _ _ h => Op.noConfusion h) (fun _ _ h => Op.noConfusion h)
    · exact keepsSomebody_of_untaken (fun _ _ _ h => Op.noConfusion h) (fun _ _ h => Op.noConfusion h)
  exact ⟨by decide +kernel, none_stuck (oneSubject_start (by decide) (by simp)) hrun⟩

end SubmissionsChecker
