import SubmissionsChecker.Effects.GradeSteps
import SubmissionsChecker.Services.ConfigApply

/-! What a step does to the teacher's points. Only a save of points writes them; the rows that look-ups
and grades create have none. -/

namespace SubmissionsChecker

/-- The points stored on row `r`. -/
def Db.pointsOn (db : Db) (r : ℕ) : Option TeacherScores := (db.studentsAssignments[r]?).bind (·.teacherScores)

/-- No row's points change, and new rows have none. -/
def KeepsPoints (db db' : Db) : Prop := ∀ r : ℕ, db'.pointsOn r = db.pointsOn r

section

variable {db db₁ db' : Db} {i saId t : ℕ}

theorem KeepsPoints.same (h : db'.studentsAssignments = db.studentsAssignments) : KeepsPoints db db' := by
  intro r
  unfold Db.pointsOn
  rw [h]

theorem KeepsPoints.refl (db : Db) : KeepsPoints db db := fun _ => rfl

theorem KeepsPoints.trans (h₁ : KeepsPoints db db₁) (h₂ : KeepsPoints db₁ db') : KeepsPoints db db' :=
  fun r => (h₂ r).trans (h₁ r)

/-! Look-ups -/

theorem keepsPoints_ensureSa (db : Db) (t asgId : ℕ) : KeepsPoints db (db.ensureSa t asgId).1 := by
  unfold Db.ensureSa
  split
  · exact .refl db
  · intro r
    change ((db.studentsAssignments ++ [_])[r]?).bind _ = (db.studentsAssignments[r]?).bind _
    rcases hrow : db.studentsAssignments[r]? with _ | row
    · rw [Option.bind_none, Option.bind_eq_none_iff]
      intro row' hnew
      rcases Table.getElem?_concat_some hnew with hold | ⟨-, rfl⟩
      · rw [hrow] at hold
        cases hold
      · rfl
    · rw [Table.getElem?_append_old hrow]

theorem keepsPoints_memberSaIds (members : List ℕ) (asgId : ℕ) : ∀ db : Db, KeepsPoints db (db.memberSaIds members asgId).1 := by
  induction members with
  | nil => exact .refl
  | cons m ms ih => exact fun db => (keepsPoints_ensureSa db m asgId).trans (ih _)

theorem keepsPoints_latestSubmission (db : Db) (saId : ℕ) : KeepsPoints db (db.latestSubmission saId).1 := by
  unfold Db.latestSubmission Db.latestSubmissionFor Db.scopeSaIds
  split
  · exact .refl db
  · split
    · exact .refl db
    · dsimp only
      split
      · exact .refl db
      · exact keepsPoints_memberSaIds _ _ db

theorem keepsPoints_uploadScope (db : Db) (saId asgId : ℕ) (squad : Option ℕ) :
    KeepsPoints db (db.uploadScope saId asgId squad).1 := by
  unfold Db.uploadScope
  split
  · exact .refl db
  · exact keepsPoints_memberSaIds _ _ db

/-! Grades and tasks -/

theorem keepsPoints_finalizeGrade (db : Db) (i : ℕ) : KeepsPoints db (db.finalizeGrade i) := by
  rcases hnow : db.gradeNow i with _ | b
  · rw [finalizeGrade_none hnow]
    exact .refl db
  · obtain ⟨sub, hsub, hrest⟩ := Option.bind_eq_some_iff.mp hnow
    obtain ⟨sa, hsa, -⟩ := Option.bind_eq_some_iff.mp hrest
    have heq := finalizeGrade_eq db i
    simp only [hnow, hsub, hsa] at heq
    rw [heq]
    have htargets : KeepsPoints db (db.gradeTargets i sub.studentsAssignmentId sa.subjectsAssignmentId).1 := by
      unfold Db.gradeTargets
      split
      · exact .refl db
      · exact keepsPoints_memberSaIds _ _ db
    refine htargets.trans fun r => ?_
    unfold Db.pointsOn
    rw [Db.setSubmission_studentsAssignments, writeGrades_rows]
    rcases (db.gradeTargets i sub.studentsAssignmentId sa.subjectsAssignmentId).1.studentsAssignments[r]? with _ | row
    · rfl
    · rw [Option.map_some, Option.bind_some, Option.bind_some]
      split_ifs <;> rfl

theorem keepsPoints_complete (db : Db) (i : ℕ) :
    KeepsPoints db ((db.setSubmission i ({ · with status := .completed })).finalizeGrade i) :=
  KeepsPoints.trans (.same rfl) (keepsPoints_finalizeGrade _ i)

theorem TaskGrades.keepsPoints (h : TaskGrades i db db') : KeepsPoints db db' := by
  obtain ⟨e, he, rfl | rfl⟩ := h
  · exact .same he.rows
  · exact KeepsPoints.trans (.same he.rows) (keepsPoints_complete e i)

theorem keepsPoints_processMessage (db : Db) (m : ℕ) (check : CheckResult) (ai : AiResult) :
    KeepsPoints db (db.processMessage m check ai) := by
  unfold Db.processMessage
  split
  · exact .refl db
  · rename_i message _
    split_ifs
    · exact .refl db
    · dsimp only
      cases message.payload with
      | runChecks i => exact (executeCheck_grades db i check).keepsPoints
      | runAiReview i ns => exact (executeAiReview_grades db i ns ai).keepsPoints

theorem keepsPoints_advancedAll (ks : List ℕ) : ∀ db : Db, KeepsPoints db (ks.foldl Db.advanced db) := by
  induction ks with
  | nil => exact .refl
  | cons k ks ih =>
    intro db
    have hone : KeepsPoints db (db.advanced k) := by
      unfold Db.advanced
      split
      · exact .refl db
      · dsimp only
        split_ifs
        · exact .same rfl
        · exact keepsPoints_complete db _
        · exact .refl db
        · exact keepsPoints_finalizeGrade db _
        · exact .refl db
    exact hone.trans (ih _)

/-! Uploads and quizzes -/

theorem submitAssignment_points {isZip : Bool} {size : ℕ} {check : CheckResult}
    (h : db.submitAssignment saId t isZip size check = .ok db') : KeepsPoints db db' := by
  unfold Db.submitAssignment at h
  split at h
  · cases h
  · rename_i sa _
    by_cases hst : sa.studentId ≠ t
    · rw [if_pos hst] at h
      cases h
    rw [if_neg hst] at h
    split at h
    · cases h
    · rename_i asg _
      by_cases hscored : asg.config.isScoredMode = true
      · rw [if_pos hscored] at h
        cases h
      rw [if_neg hscored] at h
      by_cases hlate : db.refusesLate asg = true
      · rw [if_pos hlate] at h
        cases h
      rw [if_neg hlate] at h
      obtain ⟨squad, -, h⟩ := bind_ok h
      have hscope := keepsPoints_uploadScope db saId sa.subjectsAssignmentId squad
      set db₁ := (db.uploadScope saId sa.subjectsAssignmentId squad).1 with hdb₁
      dsimp only at h
      split_ifs at h
      · split at h
        · rename_i db₃ hrun
          cases h
          have hcheck := (executeCheck_grades (db₁.addSubmission
            { studentsAssignmentId := saId, squadId := squad, createdAt := db₁.now }) db₁.submissions.length check).keepsPoints
          rw [hrun] at hcheck
          exact hscope.trans (KeepsPoints.trans (.same (addSubmission_studentsAssignments _ _)) hcheck)
        · cases h
      · cases h
        exact hscope.trans (.same (addSubmission_studentsAssignments _ _))

theorem openQuizSubmission_points {db₂ : Db} (h : db.openQuizSubmission saId t = .ok (db₂, i)) : KeepsPoints db db₂ := by
  have hl := keepsPoints_latestSubmission db saId
  unfold Db.openQuizSubmission at h
  dsimp only at h
  split at h
  · cases h
    exact hl
  · set db₁ := (db.latestSubmission saId).1 with hdb₁
    split at h
    · cases h
    · split_ifs at h
      obtain ⟨squad, -, h⟩ := bind_ok h
      split at h
      · cases h
      · obtain ⟨db₃, hopen, h⟩ := bind_ok h
        cases h
        obtain ⟨s, next, -, -, rfl⟩ := transition_ok hopen
        exact hl.trans (.same (addSubmission_studentsAssignments _ _))

theorem startAttempt_points {sa : StudentAssignment} {asg : SubjectsAssignment} {sub : Submission}
    {existing : List QuizAttempt} {rnd : Shuffles} (h : db.startAttempt sa asg i sub existing rnd = .ok db') :
    KeepsPoints db db' := by
  unfold Db.startAttempt at h
  split at h
  · cases h
  · split at h
    · cases h
    · dsimp only at h
      split_ifs at h
      · cases h
        exact .refl db
      · split at h
        · cases h
          exact .same rfl
        · obtain ⟨⟨db₁, questions⟩, hdraw, h⟩ := bind_ok h
          cases h
          rcases drawForMember_draws hdraw with rfl | ⟨draw, rfl⟩
          · exact .same rfl
          · exact .same rfl

theorem startOrResumeQuiz_points {rnd : Shuffles} (h : db.startOrResumeQuiz saId t rnd = .ok db') : KeepsPoints db db' := by
  obtain ⟨sa, asg, db₂, i, sub, -, -, -, hfinds, -, -, h⟩ := startOrResumeQuiz_ok h
  have hl := keepsPoints_latestSubmission db saId
  have hfound : KeepsPoints db db₂ := by
    cases hfinds with
    | latest => exact hl
    | opened ho => exact hl.trans (openQuizSubmission_points ho)
  rcases h with rfl | ⟨-, h⟩
  · exact hfound
  · exact hfound.trans (startAttempt_points h)

/-- Every step but a save of points. -/
theorem step_keepsPoints (db : Db) {op : Op} (hop : ∀ subject asgId t form, op ≠ .saveScores subject asgId t form) :
    KeepsPoints db (db.step op) := by
  by_cases hmessage : ∃ m check ai, op = .processMessage m check ai
  · obtain ⟨m, check, ai, rfl⟩ := hmessage
    exact keepsPoints_processMessage db m check ai
  push Not at hmessage
  have hspec := step_spec db op
  unfold Db.step at hspec ⊢
  rcases hreq : db.request op with e | db'
  · exact .refl db
  · rw [hreq] at hspec
    change StepSpec db op db' at hspec
    change KeepsPoints db db'
    cases hspec with
    | same => exact .refl _
    | upload => exact submitAssignment_points hreq
    | check => exact absurd rfl (hmessage _ _ _)
    | aiReview => exact absurd rfl (hmessage _ _ _)
    | retry => exact .same rfl
    | skip => exact .same rfl
    | @review j action reason _ h =>
      cases h with
      | approved => exact keepsPoints_complete db j
      | sentQuiz => exact .same rfl
      | rejected => exact .same rfl
    | rerun h => cases h; exact .same rfl
    | start => exact startOrResumeQuiz_points hreq
    | quiz _ h =>
      cases h with
      | same => exact .refl _
      | edited => exact .same rfl
      | finished _ _ _ _ _ hfin =>
        cases hfin with
        | left => exact .same rfl
        | completed => exact KeepsPoints.trans (.same rfl) (keepsPoints_complete _ _)
        | toTeacher => exact .same rfl
        | failed => exact .same rfl
    | report => exact .same rfl
    | @ruled d note dispute c v =>
      have hrows : (db.ruledDb d c v dispute.questionId note).studentsAssignments = db.studentsAssignments := by
        simp only [Db.ruledDb, Db.regradeQuestion, Db.closeSiblings, Db.addOverride]
        split_ifs <;> rfl
      exact KeepsPoints.trans (.same hrows) (keepsPoints_advancedAll _ _)
    | closed => exact .same rfl
    | grant h => cases h; exact .same rfl
    | scores => exact absurd rfl (hop _ _ _ _)
    | unenroll => exact .same rfl
    | tick => exact .same rfl

/-! Points are never negative -/

def Db.PointsNonneg (db : Db) : Prop := ∀ r scores, db.pointsOn r = some scores → ∀ e ∈ scores, 0 ≤ e.2

theorem KeepsPoints.nonneg (h : KeepsPoints db db') (hnonneg : db.PointsNonneg) : db'.PointsNonneg :=
  fun r scores hscores => hnonneg r scores ((h r).symm.trans hscores)

theorem parseForm_nonneg {crits : List Criterion} {form : String → Option ℕ} {scores : TeacherScores}
    (h : parseForm crits form = .ok scores) : ∀ e ∈ scores, 0 ≤ e.2 := by
  refine foldlM_ok (P := fun out : TeacherScores => ∀ e ∈ out, 0 ≤ e.2) ?_ h (fun e he => by cases he)
  intro out c _ out' hnext hout
  split at hnext
  · cases hnext
    exact hout
  · split_ifs at hnext
    cases hnext
    intro e he
    rcases List.mem_append.mp he with he | he
    · exact hout e he
    · rw [List.mem_singleton] at he
      subst he
      exact Int.natCast_nonneg _

theorem writeScores_pointsOn (scores : TeacherScores) (ids : List ℕ) (r : ℕ) (db : Db) :
    (db.writeScores scores ids).pointsOn r =
      if r ∈ ids then (db.studentsAssignments[r]?).map fun _ => scores else db.pointsOn r := by
  unfold Db.pointsOn
  rw [writeScores_rows]
  rcases db.studentsAssignments[r]? with _ | row
  · split_ifs <;> rfl
  · rw [Option.map_some, Option.bind_some]
    split_ifs <;> rfl

theorem writeScores_nonneg {scores : TeacherScores} (hscores : ∀ e ∈ scores, 0 ≤ e.2) (ids : List ℕ)
    (h : db.PointsNonneg) : (db.writeScores scores ids).PointsNonneg := by
  intro r scores' hscores'
  rw [writeScores_pointsOn] at hscores'
  split_ifs at hscores'
  · obtain ⟨_, -, rfl⟩ := Option.map_eq_some_iff.mp hscores'
    exact hscores
  · exact h r scores' hscores'

theorem keepsPoints_lookedUpFor (db : Db) (t asgId : ℕ) : KeepsPoints db (db.lookedUpFor t asgId).1 :=
  (keepsPoints_ensureSa db t asgId).trans (keepsPoints_latestSubmission _ _)

theorem withScores_nonneg {scores : TeacherScores} (hscores : ∀ e ∈ scores, 0 ≤ e.2) (subject t asgId : ℕ)
    (h : db.PointsNonneg) : (db.withScores subject t asgId scores).PointsNonneg := by
  have hlooked := (keepsPoints_lookedUpFor db t asgId).nonneg h
  refine writeScores_nonneg hscores _ ?_
  unfold Db.scoreTargets
  split
  · exact hlooked
  · exact (keepsPoints_memberSaIds _ _ _).nonneg hlooked

theorem keepsPoints_gradeAfterScores {latest : Option ℕ} (h : db.gradeAfterScores latest = .ok db') : KeepsPoints db db' := by
  unfold Db.gradeAfterScores at h
  cases latest with
  | none =>
    cases h
    exact .refl db
  | some j =>
    dsimp only at h
    split_ifs at h
    · obtain ⟨db₁, hmove, h⟩ := bind_ok h
      obtain ⟨s, next, -, -, rfl⟩ := transition_ok hmove
      cases h
      exact KeepsPoints.trans (.same rfl) (keepsPoints_finalizeGrade _ j)
    · cases h
      exact keepsPoints_finalizeGrade db j
    · cases h
      exact .refl db

theorem saveScores_nonneg {subject asgId : ℕ} {form : String → Option ℕ}
    (h : db.saveScores subject asgId t form = .ok db') (hnonneg : db.PointsNonneg) : db'.PointsNonneg := by
  obtain ⟨asg, scores, -, -, -, hparse, h⟩ := saveScores_ok h
  have hwritten := withScores_nonneg (parseForm_nonneg hparse) subject t asgId hnonneg
  split_ifs at h
  · exact (keepsPoints_gradeAfterScores h).nonneg hwritten
  · rw [h]
    exact hwritten

theorem nonneg_step (h : db.PointsNonneg) (op : Op) : (db.step op).PointsNonneg := by
  by_cases hsave : ∃ subject asgId t form, op = .saveScores subject asgId t form
  · obtain ⟨subject, asgId, t, form, rfl⟩ := hsave
    unfold Db.step
    rcases hreq : db.request (.saveScores subject asgId t form) with e | db'
    · exact h
    · exact saveScores_nonneg hreq h
  · push Not at hsave
    exact (step_keepsPoints db hsave).nonneg h

/-! An apply -/

theorem keepsPoints_foldl {α : Type*} {f : Db → α → Db} (hf : ∀ db a, KeepsPoints db (f db a)) (l : List α) :
    ∀ db : Db, KeepsPoints db (l.foldl f db) := by
  induction l with
  | nil => exact .refl
  | cons a l ih => exact fun db => (hf db a).trans (ih _)

theorem keepsPoints_createAssignment (db : Db) (x : ℕ) (code : String) (block : AssignmentBlock) :
    KeepsPoints db (db.createAssignment x code block) :=
  KeepsPoints.trans (.same rfl) (keepsPoints_foldl (fun db t => keepsPoints_ensureSa db t _) _ _)

theorem setAssignment_studentsAssignments (db : Db) (asgId : Option ℕ) (f : SubjectsAssignment → SubjectsAssignment) :
    (db.setAssignment asgId f).studentsAssignments = db.studentsAssignments := by
  cases asgId <;> rfl

theorem keepsPoints_executePlan (db : Db) (x : ℕ) (cfg old : SubjectConfig) (size : Option ℕ) :
    KeepsPoints db (db.executePlan x cfg old size) := by
  have hcreate := keepsPoints_foldl (fun db (a : String × AssignmentBlock) => keepsPoints_createAssignment db x a.1 a.2)
    (cfg.toCreate old) { db with subjects := db.subjects.modify x ({ · with squadMaxSize := size }) }
  have hupdate := hcreate.trans (keepsPoints_foldl (fun db (u : String × AssignmentBlock × AssignmentBlock) =>
    .same (setAssignment_studentsAssignments db (db.assignmentWithCode x u.1) (·.applyFields u.2.1 u.2.2)))
    (cfg.toUpdate old) _)
  have hdelete := hupdate.trans (keepsPoints_foldl (fun db (code : String) =>
    .same (setAssignment_studentsAssignments db (db.assignmentWithCode x code) ({ · with subjectId := db.subjects.length })))
    (cfg.toDelete old) _)
  exact KeepsPoints.trans (.same rfl) hdelete

end

end SubmissionsChecker
