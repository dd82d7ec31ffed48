import SubmissionsChecker.Effects.BothHalves
import SubmissionsChecker.Invariants.PortalWork

/-! Completed work and its grade. A config can put work into the scored mode on its way: then a task or
an approval completes it although a half of the grade is missing, and no grade is set. -/

namespace SubmissionsChecker

open Runs

/-- The owner of the submission has a grade, every member of its squad has one, and the submission has
a breakdown. -/
structure Db.Graded (db : Db) (i : ℕ) : Prop where
  breakdown : (db.breakdown i).isSome = true
  rows : ∃ sub row, db.submissions[i]? = some sub ∧ db.studentsAssignments[sub.studentsAssignmentId]? = some row ∧
    row.grade.isSome = true ∧ ∀ squad, db.squadForSubmission i = some squad → ∀ m ∈ squad.members,
      ∃ r : ℕ, ∃ row', db.studentsAssignments[r]? = some row' ∧ row'.studentId = m ∧
        row'.subjectsAssignmentId = row.subjectsAssignmentId ∧ row'.grade.isSome = true

def PortalOp.asksForHalves : PortalOp → Bool
  | .request op => op.asksForHalves
  | _ => false

section

variable {db db' : Db} {i : ℕ} {a : QuizAttempt} {attempts : List QuizAttempt}

/-! When a grade can be computed -/

/-- The share of a passed attempt is a percentage. -/
theorem pct_of_scored (h : a.Scored) (hc : a.scoreCheck = true) (hp : a.passed = true) :
    ∃ p, a.pct .exact = some p ∧ 0 ≤ p ∧ p ≤ 100 := by
  obtain ⟨s, m, hs, hm, hpos⟩ := h.points hp
  unfold QuizAttempt.scoreCheck at hc
  rw [hs, hm] at hc
  obtain ⟨h0, hle⟩ := of_decide_eq_true hc
  have hm0 : (0 : ℚ) < m := by exact_mod_cast hpos
  have hs0 : (0 : ℚ) ≤ s := by exact_mod_cast h0
  have hsm : (s : ℚ) ≤ m := by exact_mod_cast hle
  refine ⟨(s : ℚ) / m * 100, ?_, by positivity, ?_⟩
  · have hshare : a.pct .exact = if (m : ℚ) ≤ 0 then none else some ((s : ℚ) / m * 100) := by
      unfold QuizAttempt.pct pct
      rw [hs, hm]
      rfl
    rw [hshare, if_neg (not_le.mpr hm0)]
  · have hshare : (s : ℚ) / m ≤ 1 := (div_le_one hm0).mpr hsm
    linarith

theorem setBest_ne_nil (t : ℕ) (p : ℚ) (best : List (ℕ × ℚ)) : setBest t p best ≠ [] := by
  cases best with
  | nil => simp [setBest]
  | cons m rest =>
    unfold setBest
    split_ifs <;> simp

theorem bestStep_ne_nil {best : List (ℕ × ℚ)} (h : best ≠ []) (a : QuizAttempt) : bestStep .exact best a ≠ [] := by
  unfold bestStep
  split
  · split_ifs
    · exact setBest_ne_nil _ _ _
    · exact h
  · exact h

theorem bestStep_passed (h : a.Scored) (hc : a.scoreCheck = true) (hp : a.passed = true) (best : List (ℕ × ℚ)) :
    bestStep .exact best a ≠ [] := by
  rcases best with _ | ⟨m, rest⟩
  · obtain ⟨p, hpct, h0, -⟩ := pct_of_scored h hc hp
    obtain ⟨t, ht⟩ := Option.isSome_iff_exists.mp h.student
    have hlt : (-1 : ℚ) < p := by linarith
    simp [bestStep, hp, ht, hpct, hlt, setBest]
  · exact bestStep_ne_nil (List.cons_ne_nil _ _) a

theorem bestStep_not_passed (hp : a.passed = false) (best : List (ℕ × ℚ)) : bestStep .exact best a = best := by
  simp [bestStep, hp]

/-- A squad has a share of the quiz once a member passed. -/
theorem foldl_bestStep_ne_nil (h : ∀ a ∈ attempts, a.Scored ∧ a.scoreCheck = true) : ∀ best : List (ℕ × ℚ),
    attempts.foldl (bestStep .exact) best ≠ [] ↔ best ≠ [] ∨ ∃ a ∈ attempts, a.passed = true := by
  induction attempts with
  | nil => simp
  | cons a attempts ih =>
    intro best
    rw [List.foldl_cons, ih (fun b hb => h b (List.mem_cons_of_mem _ hb))]
    obtain ⟨hscored, hcheck⟩ := h a List.mem_cons_self
    cases hp : a.passed with
    | true => simp [bestStep_passed hscored hcheck hp, hp]
    | false => simp [bestStep_not_passed hp, hp]

theorem squadQuizPct_isSome (h : ∀ a ∈ attempts, a.Scored ∧ a.scoreCheck = true) :
    (squadQuizPct .exact attempts).1.isSome = true ↔ ∃ a ∈ attempts, a.passed = true := by
  have hbest := foldl_bestStep_ne_nil h []
  unfold squadQuizPct squadBest
  dsimp only
  split_ifs with hnone
  · simpa [hnone] using hbest
  · simpa [hnone] using hbest

theorem firstPassedPct_isSome (h : ∀ a ∈ attempts, a.Scored ∧ a.scoreCheck = true) :
    (firstPassedPct attempts).isSome = true ↔ ∃ a ∈ attempts, a.passed = true := by
  unfold firstPassedPct
  rcases hfind : attempts.find? (·.passed) with _ | a
  · rw [hfind]
    rw [List.find?_eq_none] at hfind
    simpa using hfind
  · have hp : a.passed = true := List.find?_some hfind
    have hmem := List.mem_of_find?_eq_some hfind
    obtain ⟨p, hpct, -⟩ := pct_of_scored (h a hmem).1 (h a hmem).2 hp
    rw [hfind, Option.bind_some, hpct]
    exact ⟨fun _ => ⟨a, hmem, hp⟩, fun _ => rfl⟩

theorem mem_quizAttemptsOf : a ∈ db.quizAttemptsOf i ↔ a ∈ db.quizAttempts ∧ a.submissionId = i := by
  unfold Db.quizAttemptsOf
  rw [(List.perm_insertionSort _ _).mem_iff, List.mem_filter, beq_iff_eq]

theorem quizPassed_iff : db.quizPassed i = true ↔ ∃ a ∈ db.quizAttemptsOf i, a.passed = true := by
  unfold Db.quizPassed
  simp only [List.any_eq_true, Bool.and_eq_true, beq_iff_eq, mem_quizAttemptsOf]
  constructor
  · rintro ⟨a, ha, hi, hp⟩
    exact ⟨a, ⟨ha, hi⟩, hp⟩
  · rintro ⟨a, ⟨ha, hi⟩, hp⟩
    exact ⟨a, ha, hi, hp⟩

theorem gradeOf_isSome {asg : SubjectsAssignment} {sa : StudentAssignment} {sub : Submission} (isSquad : Bool)
    (h : ∀ a ∈ attempts, a.Scored ∧ a.scoreCheck = true) :
    (Db.gradeOf asg sa sub attempts isSquad).isSome = true ↔ asg.config.isScoredMode = true →
      isComplete asg.config.grading.teacherCriteria sa.teacherScores = true ∧ ∃ a ∈ attempts, a.passed = true := by
  have hquiz : (if isSquad then (squadQuizPct .exact attempts).1 else firstPassedPct attempts).isSome = true ↔
      ∃ a ∈ attempts, a.passed = true := by
    cases isSquad
    · exact firstPassedPct_isSome h
    · exact squadQuizPct_isSome h
  unfold Db.gradeOf
  dsimp only
  generalize (if isSquad then (squadQuizPct .exact attempts).1 else firstPassedPct attempts) = share at hquiz ⊢
  by_cases hscored : asg.config.isScoredMode = true
  · rw [if_pos hscored, ← hquiz]
    rcases share with _ | p
    · simp [hscored]
    · by_cases hc : isComplete asg.config.grading.teacherCriteria sa.teacherScores = true <;> simp [hscored, hc]
  · rw [if_neg hscored]
    simp [hscored]

end

section

variable {isTest : ℕ → Bool} {p p₀ : Portal} {op : PortalOp} {ops : List PortalOp} {i : ℕ}

/-- `finalize_grade` computes a grade when neither half is missing. -/
theorem gradeNow_isSome (ok : p.WorkOk) {sub : Submission} (hs : p.db.submissions[i]? = some sub) :
    (p.db.gradeNow i).isSome = true ↔ p.db.bothHalves i = true := by
  obtain ⟨row, asg, hrow, hasg⟩ := (ok.subs i sub hs).owned
  have hattempts : ∀ a ∈ p.db.quizAttemptsOf i, a.Scored ∧ a.scoreCheck = true := fun a ha =>
    ⟨ok.attempts a (mem_quizAttemptsOf.mp ha).1, ok.checked a (mem_quizAttemptsOf.mp ha).1⟩
  have hassigned : p.db.assignmentOf sub.studentsAssignmentId = some asg := by
    rw [Db.assignmentOf, hrow, Option.bind_some, hasg]
  unfold Db.gradeNow Db.bothHalves
  simp only [hs, Option.bind_some, hrow, hasg, Option.isSome_map]
  rw [gradeOf_isSome _ hattempts, ← quizPassed_iff, isScoredSubmission_eq hs hassigned,
    scoresCompleteFor_eq hs hrow hassigned]
  cases asg.config.isScoredMode <;> simp

/-- Where the target rows are graded the owner's is. -/
theorem graded_of_targets (ok : p.WorkOk) {b : GradeBreakdown} {sub : Submission} (hs : p.db.submissions[i]? = some sub)
    (hb : p.db.breakdown i = some b) (ht : p.db.TargetsGraded i) : p.db.Graded i := by
  obtain ⟨row, asg, hrow, -⟩ := (ok.subs i sub hs).owned
  have htargets := ht sub row hs hrow
  refine ⟨by rw [hb]; rfl, sub, row, hs, hrow, ?_, fun squad hsquad m hm => ?_⟩
  · rcases hsquad : p.db.squadForSubmission i with _ | squad
    · rw [hsquad] at htargets
      exact htargets
    · rw [hsquad] at htargets
      obtain ⟨q, hq, hget⟩ := Option.bind_eq_some_iff.mp hsquad
      rw [hs, Option.bind_some] at hq
      obtain ⟨s, row₁, hs₁, -, hrow₁, hm⟩ := (ok.subs i sub hs).member q hq
      rw [hget, Option.some_inj] at hs₁
      rw [hrow, Option.some_inj] at hrow₁
      subst hs₁ hrow₁
      obtain ⟨r, row', hrow', hst, hasg', hgrade⟩ := htargets row.studentId hm
      obtain rfl : r = sub.studentsAssignmentId := ok.consistent.unique r _ row' row hrow' hrow hst hasg'
      rw [hrow, Option.some_inj] at hrow'
      rw [hrow']
      exact hgrade
  · rw [hsquad] at htargets
    exact htargets m hm

/-- A request that completes a submission grades it when a grade can be computed after it. -/
theorem graded_iff_gradeNow {op : Op} (ok : p.WorkOk) (ok' : (Portal.mk (p.db.step op) p.stored p.sizeAtJoin).WorkOk)
    (hopen : p.db.status i ≠ some .completed) (hdone : (p.db.step op).status i = some .completed) :
    (p.db.step op).Graded i ↔ ((p.db.step op).gradeNow i).isSome = true := by
  obtain ⟨db₁, db₂, outbox, hprepares, hown, hgrades, hdb⟩ := step_grades ok.owned op
  have hbreakdown : (p.db.step op).breakdown i = db₂.breakdown i := by rw [hdb]; rfl
  have hnow : (p.db.step op).gradeNow i = db₁.gradeNow i := by
    rw [← hgrades.gradeNow hown i, hdb]
    rfl
  have hdone₂ : db₂.status i = some .completed := by
    rw [hdb] at hdone
    exact hdone
  -- it was not completed before, so it had no breakdown
  have hnone : db₁.breakdown i = none := by
    rw [(hprepares i).1, Db.breakdown]
    rcases hs : p.db.submissions[i]? with _ | sub
    · rfl
    · by_contra hb
      exact hopen ((status_of_row hs).trans (congrArg some ((ok.subs i sub hs).graded hb)))
  rcases hgrades.done i with ⟨-, hkept⟩ | ⟨hb, htargets⟩
  · exact absurd ((hprepares i).2 (hkept hdone₂)) hopen
  · rw [hnone, Option.or_none] at hb
    constructor
    · intro hgraded
      rw [hnow, ← hb, ← hbreakdown]
      exact hgraded.breakdown
    · intro hsome
      obtain ⟨b, hcalc⟩ := Option.isSome_iff_exists.mp hsome
      rw [Db.status, Option.map_eq_some_iff] at hdone
      obtain ⟨sub, hs, -⟩ := hdone
      rw [hnow] at hsome hcalc
      refine graded_of_targets ok' hs (hbreakdown.trans (hb.trans hcalc)) ?_
      change (p.db.step op).TargetsGraded i
      rw [hdb]
      exact htargets hsome

/-- Completed work is graded exactly when the request that completes it asks for both halves of a
scored grade, or neither half was missing before. -/
theorem completed_graded_iff (hstart : p₀.Fresh) (h : Run (Portal.checkedStep isTest) Any p₀ ops p)
    (hopen : p.db.status i ≠ some .completed) (hdone : (p.checkedStep isTest op).db.status i = some .completed) :
    (p.checkedStep isTest op).db.Graded i ↔ op.asksForHalves = true ∨ p.db.bothHalves i = true := by
  have ok := Portal.WorkOk.run hstart h
  have ok' : (p.checkedStep isTest op).WorkOk := ok.step op
  rcases checkedStep_cases isTest p op with hundone | ⟨hstep, -⟩
  · rw [hundone] at hdone
    exact absurd hdone hopen
  · rw [hstep] at hdone ok' ⊢
    cases op with
    | squad op =>
      have hrest := (squadStep_spec isTest p.db op).regroups.rest
      change (p.db.squadStep isTest op).status i = some .completed at hdone
      rw [hrest] at hdone
      exact absurd hdone hopen
    | apply x cfg =>
      unfold Portal.step at hdone
      dsimp only at hdone
      split at hdone
      · rename_i db' happly
        have hsubs := (configures_applyConfig happly).submissions
        change db'.status i = some .completed at hdone
        rw [Db.status, hsubs] at hdone
        exact absurd hdone hopen
      · exact absurd hdone hopen
    | request op =>
      change (p.db.step op).status i = some .completed at hdone
      change (p.db.step op).Graded i ↔ op.asksForHalves = true ∨ _
      obtain ⟨sub, hs, -⟩ := Option.map_eq_some_iff.mp hdone
      have hnow : ((p.db.step op).gradeNow i).isSome = true ↔ (p.db.step op).bothHalves i = true :=
        gradeNow_isSome ok' hs
      rw [graded_iff_gradeNow ok ok' hopen hdone, hnow, step_bothHalves ok.owned ok.consistent.unique ok.consistent.formed.oneSquad
        hopen hdone, Bool.or_eq_true]

end

/-! A config between a check and an AI review -/

/-- A student of a subject whose work is tested and then reviewed by the AI. -/
def aiReviewed : Portal where
  db := { oneSubject { reviewMode := some .testsThenAi } {} [] [0] with subjects := [{}] }
  stored := fun _ => { assignments := [("A", { config := { reviewMode := some .testsThenAi } })] }

theorem aiReviewed_fresh : aiReviewed.Fresh := by
  have hstart : (oneSubject { reviewMode := some .testsThenAi } {} [] [0]).Start :=
    oneSubject_start (by decide) List.Pairwise.nil
  exact ⟨rfl, rfl, hstart.unique, rfl, rfl⟩

/-- The next config grades by points and a quiz. -/
def gradedByPoints : SubjectConfig where
  assignments := [("A", { config := { reviewMode := some .quizAndTeacherScores
                                      grading := { quizPoints := some 40, teacherCriteria := [⟨"code", "Code", 60, false⟩] } }
                          quiz := { questions := [{}] } })]

/-- The work is checked before the config is applied, and reviewed after it. -/
def reviewedLate : List PortalOp :=
  [.request (.upload 0 0 true 1 .raises), .request (.processMessage 0 (.tested true 9 10) .providerError),
    .apply 0 gradedByPoints]

/-- The review completes it and there is no grade. -/
theorem completed_ungraded : ¬ ∀ (isTest : ℕ → Bool) (p₀ p : Portal) (ops : List PortalOp) (op : PortalOp) (i : ℕ),
    p₀.Fresh → Run (Portal.checkedStep isTest) Any p₀ ops p → p.db.status i ≠ some .completed →
    (p.checkedStep isTest op).db.status i = some .completed → (p.checkedStep isTest op).db.Graded i := by
  intro hall
  have h := hall (fun _ => false) aiReviewed _ reviewedLate (.request (.processMessage 1 .raises (.verdict (some 80) false)))
    0 aiReviewed_fresh (run_foldl _) (by decide +kernel) (by decide +kernel)
  exact absurd h.breakdown (by decide +kernel)

/-- Without the new config the review grades it. -/
theorem completed_graded :
    let p := [PortalOp.request (.upload 0 0 true 1 .raises),
      .request (.processMessage 0 (.tested true 9 10) .providerError)].foldl
        (Portal.checkedStep fun _ => false) aiReviewed
    (p.checkedStep (fun _ => false) (.request (.processMessage 1 .raises (.verdict (some 80) false)))).db.Graded 0 :=
  (completed_graded_iff aiReviewed_fresh (run_foldl _) (by decide +kernel) (by decide +kernel)).mpr
    (.inr (by decide +kernel))

end SubmissionsChecker
