import SubmissionsChecker.Effects.Breakdowns

/-! What a step does to the grades, said once: it changes what grades are computed from, and then it
finalizes submissions. What `finalize_grade` computed can be read off the state the step leaves. -/

namespace SubmissionsChecker

namespace Db

/-- The breakdown `finalize_grade` computes for submission `i`, if it computes one. -/
def gradeNow (db : Db) (i : ℕ) : Option GradeBreakdown :=
  (db.submissions[i]?).bind fun sub =>
    (db.studentsAssignments[sub.studentsAssignmentId]?).bind fun sa =>
      (db.subjectsAssignments[sa.subjectsAssignmentId]?).bind fun asg =>
        (gradeOf asg sa sub (db.quizAttemptsOf i) (db.squadForSubmission i).isSome).map fun b =>
          { b with squad := (db.squadForSubmission i).map fun _ =>
              { squadId := sub.squadId.getD 0, members := (squadQuizPct .exact (db.quizAttemptsOf i)).2 : SquadParts } }

def breakdown (db : Db) (i : ℕ) : Option GradeBreakdown := (db.submissions[i]?).bind (·.gradeBreakdown)

/-- Every submission is on a row. -/
def SubsOwned (db : Db) : Prop :=
  ∀ (i : ℕ) sub, db.submissions[i]? = some sub → ∃ row, db.studentsAssignments[sub.studentsAssignmentId]? = some row

/-- The rows the grade of submission `i` goes to have a grade: the owner's, or every squad member's. -/
def TargetsGraded (db : Db) (i : ℕ) : Prop :=
  ∀ sub row, db.submissions[i]? = some sub → db.studentsAssignments[sub.studentsAssignmentId]? = some row →
    match db.squadForSubmission i with
    | none => row.grade.isSome = true
    | some squad => ∀ m ∈ squad.members, ∃ r : ℕ, ∃ row', db.studentsAssignments[r]? = some row' ∧
        row'.studentId = m ∧ row'.subjectsAssignmentId = row.subjectsAssignmentId ∧ row'.grade.isSome = true

end Db

/-- A row but for its grade. -/
def StudentAssignment.ungraded (row : StudentAssignment) : StudentAssignment := { row with grade := none }

/-- A row is left as it is, or given a grade. -/
def GivesGrade (row row' : StudentAssignment) : Prop :=
  row'.ungraded = row.ungraded ∧ (row.grade.isSome = true → row'.grade.isSome = true)

/-- Grades were finalized: submissions are left as they are, or get what `finalize_grade` computes. A
submission is completed only by being finalized. -/
structure Grades (db db' : Db) : Prop where
  within : Within .statuses db db'
  rows : ∀ (r : ℕ) row, db.studentsAssignments[r]? = some row →
    ∃ row', db'.studentsAssignments[r]? = some row' ∧ GivesGrade row row'
  done : ∀ i : ℕ, db'.breakdown i = db.breakdown i ∧ (db'.status i = some .completed → db.status i = some .completed) ∨
    db'.breakdown i = (db.gradeNow i).or (db.breakdown i) ∧ ((db.gradeNow i).isSome = true → db'.TargetsGraded i)

theorem GivesGrade.refl (row : StudentAssignment) : GivesGrade row row := ⟨rfl, id⟩

theorem GivesGrade.trans {a b c : StudentAssignment} (h₁ : GivesGrade a b) (h₂ : GivesGrade b c) : GivesGrade a c :=
  ⟨h₂.1.trans h₁.1, h₂.2 ∘ h₁.2⟩

theorem GivesGrade.asg {row row' : StudentAssignment} (h : GivesGrade row row') :
    row'.subjectsAssignmentId = row.subjectsAssignmentId := by
  have := congrArg StudentAssignment.subjectsAssignmentId h.1
  exact this

theorem GivesGrade.student {row row' : StudentAssignment} (h : GivesGrade row row') :
    row'.studentId = row.studentId := by
  have := congrArg StudentAssignment.studentId h.1
  exact this

theorem GivesGrade.scores {row row' : StudentAssignment} (h : GivesGrade row row') :
    row'.teacherScores = row.teacherScores := by
  have := congrArg StudentAssignment.teacherScores h.1
  exact this

/-- What a grade reads of a submission. -/
def Submission.findings (sub : Submission) : ℕ × Option ℕ × Option TestResults × Option AiReview :=
  (sub.studentsAssignmentId, sub.squadId, sub.testResults, sub.aiReview)

theorem findings_of_keep {i : ℕ} {sub sub' : Submission} (h : Scope.statuses.keep i sub' = Scope.statuses.keep i sub) :
    sub'.findings = sub.findings := by
  have := congrArg Submission.findings h
  exact this

theorem gradeOf_congr {asg : SubjectsAssignment} {sa sa' : StudentAssignment} {sub sub' : Submission}
    {attempts : List QuizAttempt} {isSquad : Bool} (hsa : GivesGrade sa sa') (hsub : sub'.findings = sub.findings) :
    Db.gradeOf asg sa' sub' attempts isSquad = Db.gradeOf asg sa sub attempts isSquad := by
  have htests : sub'.testResults = sub.testResults := congrArg (·.2.2.1) hsub
  have hai : sub'.aiReview = sub.aiReview := congrArg (·.2.2.2) hsub
  unfold Db.gradeOf
  rw [hsa.scores, htests, hai]

section

variable {db db₁ db₂ db' : Db} {i : ℕ}

theorem finalizeGrade_eq (db : Db) (i : ℕ) : db.finalizeGrade i =
    match db.gradeNow i with
    | none => db
    | some b => match db.submissions[i]? with
      | none => db
      | some sub => match db.studentsAssignments[sub.studentsAssignmentId]? with
        | none => db
        | some sa =>
          let targets := db.gradeTargets i sub.studentsAssignmentId sa.subjectsAssignmentId
          (targets.1.writeGrades b.grade targets.2).setSubmission i ({ · with gradeBreakdown := some b }) := by
  unfold Db.finalizeGrade Db.gradeNow
  rcases hsub : db.submissions[i]? with _ | sub
  · rfl
  · rcases hsa : db.studentsAssignments[sub.studentsAssignmentId]? with _ | sa
    · simp [hsa]
    · rcases hasg : db.subjectsAssignments[sa.subjectsAssignmentId]? with _ | asg
      · simp [hsa, hasg]
      · simp only [hsa, hasg, Option.bind_some]
        rcases Db.gradeOf asg sa sub (db.quizAttemptsOf i) (db.squadForSubmission i).isSome with _ | b
        · rfl
        · rfl

/-- What a grade is computed from is the same where only grades, breakdowns and statuses differ. -/
theorem gradeNow_congr (hown : db.SubsOwned) (hw : Within .statuses db db')
    (hrows : ∀ (r : ℕ) row, db.studentsAssignments[r]? = some row →
      ∃ row', db'.studentsAssignments[r]? = some row' ∧ GivesGrade row row') (i : ℕ) :
    db'.gradeNow i = db.gradeNow i := by
  unfold Db.gradeNow
  rw [hw.squadForSubmission]
  have hattempts : db'.quizAttemptsOf i = db.quizAttemptsOf i := by unfold Db.quizAttemptsOf; rw [hw.quizAttempts]
  rw [hattempts]
  rcases hsub : db.submissions[i]? with _ | sub
  · have hlen := hw.submissions_length
    rw [List.getElem?_eq_none_iff] at hsub
    rw [List.getElem?_eq_none (by omega)]
    rfl
  · obtain ⟨sub', hsub', hkeep⟩ := hw.sub hsub
    obtain ⟨row, hrow⟩ := hown i sub hsub
    obtain ⟨row', hrow', hgives⟩ := hrows _ row hrow
    have hfindings := findings_of_keep hkeep
    have hsaId : sub'.studentsAssignmentId = sub.studentsAssignmentId := congrArg Prod.fst hfindings
    have hsquad : sub'.squadId = sub.squadId := congrArg (·.2.1) hfindings
    simp only [hsub', Option.bind_some, hsaId, hrow, hrow', hgives.asg, hw.subjectsAssignments, hsquad]
    refine Option.bind_congr fun asg _ => ?_
    rw [gradeOf_congr hgives hfindings]

theorem Within.subsOwned {scope : Scope} (hw : Within scope db db') (hown : db.SubsOwned) : db'.SubsOwned := by
  intro i sub' hsub'
  have hback := hw.map_sub (·.studentsAssignmentId) i (by simp)
  rw [hsub', Option.map_some] at hback
  obtain ⟨sub, hsub, hid⟩ := Option.map_eq_some_iff.mp hback.symm
  obtain ⟨row, hrow⟩ := hown i sub hsub
  obtain ⟨row', hrow', -⟩ := hw.rows _ row hrow
  exact ⟨row', by rw [← hid]; exact hrow'⟩

theorem Db.TargetsGraded.mono (h : db.TargetsGraded i) (hown : db.SubsOwned) (hg : Grades db db') :
    db'.TargetsGraded i := by
  intro sub' row' hsub' hrow'
  have hback := hg.within.map_sub (·.studentsAssignmentId) i (by simp)
  rw [hsub', Option.map_some] at hback
  obtain ⟨sub, hsub, hid⟩ := Option.map_eq_some_iff.mp hback.symm
  obtain ⟨row, hrow⟩ := hown i sub hsub
  obtain ⟨row₁, hrow₁, hgives⟩ := hg.rows _ row hrow
  rw [← hid, hrow₁, Option.some_inj] at hrow'
  subst hrow'
  have hold := h sub row hsub hrow
  rw [hg.within.squadForSubmission]
  cases hsquad : db.squadForSubmission i with
  | none =>
    rw [hsquad] at hold
    exact hgives.2 hold
  | some squad =>
    rw [hsquad] at hold
    intro m hm
    obtain ⟨r, rowm, hrowm, hst, hasg, hgrade⟩ := hold m hm
    obtain ⟨rowm', hrowm', hgivesm⟩ := hg.rows r rowm hrowm
    exact ⟨r, rowm', hrowm', hgivesm.student.trans hst, by rw [hgivesm.asg, hasg, hgives.asg], hgivesm.2 hgrade⟩

namespace Grades

theorem refl (db : Db) : Grades db db :=
  ⟨.refl _ db, fun _ row h => ⟨row, h, .refl row⟩, fun _ => .inl ⟨rfl, id⟩⟩

theorem gradeNow (h : Grades db db') (hown : db.SubsOwned) (i : ℕ) : db'.gradeNow i = db.gradeNow i :=
  gradeNow_congr hown h.within h.rows i

theorem trans (h₁ : Grades db db₁) (h₂ : Grades db₁ db₂) (hown : db.SubsOwned) : Grades db db₂ where
  within := h₁.within.trans h₂.within
  rows r row hr := by
    obtain ⟨row₁, hr₁, hg₁⟩ := h₁.rows r row hr
    obtain ⟨row₂, hr₂, hg₂⟩ := h₂.rows r row₁ hr₁
    exact ⟨row₂, hr₂, hg₁.trans hg₂⟩
  done i := by
    have hown₁ := h₁.within.subsOwned hown
    have hnow := h₁.gradeNow hown i
    rcases h₂.done i with ⟨hb₂, hc₂⟩ | ⟨hb₂, ht₂⟩
    · rcases h₁.done i with ⟨hb₁, hc₁⟩ | ⟨hb₁, ht₁⟩
      · exact .inl ⟨hb₂.trans hb₁, hc₁ ∘ hc₂⟩
      · exact .inr ⟨hb₂.trans hb₁, fun hsome => (ht₁ hsome).mono hown₁ h₂⟩
    · rw [hnow] at hb₂ ht₂
      refine .inr ⟨?_, ht₂⟩
      rw [hb₂]
      rcases h₁.done i with ⟨hb₁, -⟩ | ⟨hb₁, -⟩
      · rw [hb₁]
      · rw [hb₁, ← Option.or_assoc, Option.or_self]

end Grades

/-! One call of `finalize_grade` -/

/-- The rows written one after the other, each with the same value. -/
theorem setStudentAssignments_rows {f : StudentAssignment → StudentAssignment} (hf : ∀ row, f (f row) = f row)
    (ids : List ℕ) (r : ℕ) : ∀ db : Db,
    (ids.foldl (fun db j => db.setStudentAssignment j f) db).studentsAssignments[r]? =
      (db.studentsAssignments[r]?).map fun row => if r ∈ ids then f row else row := by
  induction ids with
  | nil => intro db; simp
  | cons j ids ih =>
    intro db
    rw [List.foldl_cons, ih, Db.setStudentAssignment_studentsAssignments, List.getElem?_modify]
    rcases db.studentsAssignments[r]? with _ | row
    · rfl
    · by_cases hj : j = r
      · subst hj
        by_cases hmem : j ∈ ids <;> simp [hmem, hf]
      · have hrj : r ≠ j := fun h => hj h.symm
        by_cases hmem : r ∈ ids <;> simp [hmem, hj, hrj]

theorem writeGrades_rows (grade : ℤ) (ids : List ℕ) (r : ℕ) (db : Db) :
    (db.writeGrades grade ids).studentsAssignments[r]? =
      (db.studentsAssignments[r]?).map fun row => if r ∈ ids then { row with grade := some grade } else row :=
  setStudentAssignments_rows (f := ({ · with grade := some grade })) (fun _ => rfl) ids r db

theorem writeScores_rows (scores : TeacherScores) (ids : List ℕ) (r : ℕ) (db : Db) :
    (db.writeScores scores ids).studentsAssignments[r]? =
      (db.studentsAssignments[r]?).map fun row => if r ∈ ids then { row with teacherScores := some scores } else row :=
  setStudentAssignments_rows (f := ({ · with teacherScores := some scores })) (fun _ => rfl) ids r db

/-- Every member has a row among the targets. -/
theorem memberSaIds_covers (members : List ℕ) (asgId : ℕ) : ∀ db : Db, ∀ m ∈ members,
    ∃ r ∈ (db.memberSaIds members asgId).2, ∃ row, (db.memberSaIds members asgId).1.studentsAssignments[r]? = some row ∧
      row.studentId = m ∧ row.subjectsAssignmentId = asgId := by
  induction members with
  | nil => intro db m hm; cases hm
  | cons t ts ih =>
    intro db m hm
    rcases List.mem_cons.mp hm with rfl | hm
    · obtain ⟨row, hrow, hst, hasg⟩ := ensureSa_row db m asgId
      obtain ⟨row', hrow', hst', hasg'⟩ :=
        (within_memberSaIds .grades ts asgId (db.ensureSa m asgId).1).rows _ row hrow
      exact ⟨_, List.mem_cons_self, row', hrow', hst'.trans hst, hasg'.trans hasg⟩
    · obtain ⟨r, hr, row, hrow, h⟩ := ih (db.ensureSa t asgId).1 m hm
      exact ⟨r, List.mem_cons_of_mem _ hr, row, hrow, h⟩

theorem ensureSa_old (db : Db) (t asgId : ℕ) {r : ℕ} {row : StudentAssignment} (h : db.studentsAssignments[r]? = some row) :
    (db.ensureSa t asgId).1.studentsAssignments[r]? = some row := by
  unfold Db.ensureSa
  split
  · exact h
  · exact Table.getElem?_append_old h

theorem memberSaIds_old (members : List ℕ) (asgId : ℕ) : ∀ (db : Db) {r : ℕ} {row : StudentAssignment},
    db.studentsAssignments[r]? = some row → (db.memberSaIds members asgId).1.studentsAssignments[r]? = some row := by
  induction members with
  | nil => exact fun _ _ _ h => h
  | cons t ts ih => exact fun db _ _ h => ih _ (ensureSa_old db t asgId h)

theorem gradeTargets_old (i saId asgId : ℕ) {r : ℕ} {row : StudentAssignment} (h : db.studentsAssignments[r]? = some row) :
    (db.gradeTargets i saId asgId).1.studentsAssignments[r]? = some row := by
  unfold Db.gradeTargets
  split
  · exact h
  · exact memberSaIds_old _ _ db h

/-- A call that computes a breakdown stores it and grades the target rows. -/
theorem finalizeGrade_some {b : GradeBreakdown} (h : db.gradeNow i = some b) :
    (db.finalizeGrade i).breakdown i = some b ∧ (db.finalizeGrade i).TargetsGraded i := by
  obtain ⟨sub, hsub, hrest⟩ := Option.bind_eq_some_iff.mp h
  obtain ⟨sa, hsa, -⟩ := Option.bind_eq_some_iff.mp hrest
  have heq := finalizeGrade_eq db i
  simp only [h, hsub, hsa] at heq
  set targets := db.gradeTargets i sub.studentsAssignmentId sa.subjectsAssignmentId with htargets
  have hnow : (db.finalizeGrade i).submissions[i]? = some { sub with gradeBreakdown := some b } := by
    rw [heq, Db.setSubmission_submissions, Table.getElem?_modify_self, writeGrades_submissions, htargets,
      gradeTargets_submissions, hsub]
    rfl
  have hrows : ∀ r : ℕ, (db.finalizeGrade i).studentsAssignments[r]? = (targets.1.studentsAssignments[r]?).map fun row =>
      if r ∈ targets.2 then { row with grade := some b.grade } else row := by
    intro r
    rw [heq, Db.setSubmission_studentsAssignments, writeGrades_rows]
  refine ⟨by rw [Db.breakdown, hnow]; rfl, fun sub' row' hsub' hrow' => ?_⟩
  rw [hnow, Option.some_inj] at hsub'
  subst hsub'
  have howner := gradeTargets_old i sub.studentsAssignmentId sa.subjectsAssignmentId hsa
  rw [← htargets] at howner
  rw [hrows, howner, Option.map_some, Option.some_inj] at hrow'
  have hasgId : row'.subjectsAssignmentId = sa.subjectsAssignmentId := by
    rw [← hrow']
    split_ifs <;> rfl
  rw [(within_finalizeGrade db i).squadForSubmission]
  cases hsquad : db.squadForSubmission i with
  | none =>
    have hmem : sub.studentsAssignmentId ∈ targets.2 := by
      rw [htargets]
      unfold Db.gradeTargets
      rw [hsquad]
      exact List.mem_singleton_self _
    rw [if_pos hmem] at hrow'
    rw [← hrow']
    rfl
  | some squad =>
    intro m hm
    have hids : targets = db.memberSaIds squad.members sa.subjectsAssignmentId := by
      rw [htargets]
      unfold Db.gradeTargets
      rw [hsquad]
    obtain ⟨r, hr, row, hrow, hst, hasg⟩ := memberSaIds_covers squad.members sa.subjectsAssignmentId db m hm
    rw [← hids] at hr hrow
    refine ⟨r, { row with grade := some b.grade }, ?_, hst, hasg.trans hasgId.symm, rfl⟩
    rw [hrows, hrow, Option.map_some, if_pos hr]

theorem finalizeGrade_none (h : db.gradeNow i = none) : db.finalizeGrade i = db := by
  have heq := finalizeGrade_eq db i
  simpa only [h] using heq

theorem finalizeGrade_rows {r : ℕ} {row : StudentAssignment} (hr : db.studentsAssignments[r]? = some row) :
    ∃ row', (db.finalizeGrade i).studentsAssignments[r]? = some row' ∧ GivesGrade row row' := by
  rcases hnow : db.gradeNow i with _ | b
  · exact ⟨row, by rw [finalizeGrade_none hnow, hr], .refl row⟩
  · obtain ⟨sub, hsub, hrest⟩ := Option.bind_eq_some_iff.mp hnow
    obtain ⟨sa, hsa, -⟩ := Option.bind_eq_some_iff.mp hrest
    have heq := finalizeGrade_eq db i
    simp only [hnow, hsub, hsa] at heq
    rw [heq, Db.setSubmission_studentsAssignments, writeGrades_rows, gradeTargets_old i _ _ hr]
    refine ⟨_, rfl, ?_⟩
    split_ifs
    · exact ⟨rfl, fun _ => rfl⟩
    · exact .refl row

/-- Finalizing a submission after at most its status was changed. -/
theorem grades_of_status {db₀ : Db} (hown : db.SubsOwned) (hw : Within .statuses db db₀)
    (hr : db₀.studentsAssignments = db.studentsAssignments) (hb : ∀ j, db₀.breakdown j = db.breakdown j)
    (hst : ∀ j, j ≠ i → db₀.status j = db.status j) : Grades db (db₀.finalizeGrade i) where
  within := hw.trans ((within_finalizeGrade _ _).mono (.grades _))
  rows r row hrow := finalizeGrade_rows (by rw [hr]; exact hrow)
  done j := by
    have hnow := gradeNow_congr hown hw fun r row hrow => ⟨row, by rw [hr]; exact hrow, .refl row⟩
    by_cases hj : j = i
    · subst hj
      right
      rcases hcalc : db.gradeNow j with _ | b
      · rw [finalizeGrade_none ((hnow j).trans hcalc)]
        exact ⟨hb j, nofun⟩
      · obtain ⟨hstored, htargets⟩ := finalizeGrade_some ((hnow j).trans hcalc)
        exact ⟨hstored, fun _ => htargets⟩
    · left
      have hsame : (db₀.finalizeGrade i).submissions[j]? = db₀.submissions[j]? := finalizeGrade_submissions_ne hj
      refine ⟨?_, fun hdone => ?_⟩
      · rw [← hb j, Db.breakdown, Db.breakdown, hsame]
      · rw [Db.status, hsame] at hdone
        rw [← hst j hj]
        exact hdone

theorem grades_finalizeGrade (hown : db.SubsOwned) (i : ℕ) : Grades db (db.finalizeGrade i) :=
  grades_of_status hown (.refl _ db) rfl (fun _ => rfl) fun _ _ => rfl

theorem breakdown_setStatus (db : Db) (i : ℕ) (s : SubmissionStatus) (j : ℕ) :
    (db.setSubmission i ({ · with status := s })).breakdown j = db.breakdown j := by
  unfold Db.breakdown
  rw [Db.setSubmission_submissions, List.getElem?_modify]
  split_ifs
  · rcases db.submissions[j]? with _ | sub <;> rfl
  · rcases db.submissions[j]? with _ | sub <;> rfl

theorem status_setStatus_ne (db : Db) {i j : ℕ} (s : SubmissionStatus) (h : j ≠ i) :
    (db.setSubmission i ({ · with status := s })).status j = db.status j := by
  unfold Db.status
  rw [Db.setSubmission_submissions, Table.getElem?_modify_ne _ (Ne.symm h)]

theorem within_setStatus (db : Db) (i : ℕ) (s : SubmissionStatus) :
    Within .statuses db (db.setSubmission i ({ · with status := s })) :=
  within_setSubmission db i fun sub => by simp [Scope.keep]

theorem grades_complete (hown : db.SubsOwned) (i : ℕ) :
    Grades db ((db.setSubmission i ({ · with status := .completed })).finalizeGrade i) :=
  grades_of_status hown (within_setStatus db i _) rfl (breakdown_setStatus db i _)
    fun _ hj => status_setStatus_ne db _ hj

theorem grades_setStatus {s : SubmissionStatus} (hs : s ≠ .completed) (i : ℕ) :
    Grades db (db.setSubmission i ({ · with status := s })) where
  within := within_setStatus db i s
  rows r row h := ⟨row, h, .refl row⟩
  done j := by
    refine .inl ⟨breakdown_setStatus db i s j, fun hdone => ?_⟩
    by_cases hj : j = i
    · subst hj
      rw [Db.status, Db.setSubmission_submissions, Table.getElem?_modify_self] at hdone
      rcases hsub : db.submissions[j]? with _ | sub
      · rw [hsub] at hdone
        cases hdone
      · rw [hsub] at hdone
        exact absurd (Option.some_inj.mp hdone) hs
    · rw [← status_setStatus_ne db s hj]
      exact hdone

theorem grades_advanced (hown : db.SubsOwned) (k : ℕ) : Grades db (db.advanced k) := by
  unfold Db.advanced
  split
  · exact .refl db
  · dsimp only
    split_ifs
    · exact grades_setStatus (by decide) _
    · exact grades_complete hown _
    · exact .refl db
    · exact grades_finalizeGrade hown _
    · exact .refl db

theorem grades_advancedAll (ks : List ℕ) : ∀ {db : Db}, db.SubsOwned → Grades db (ks.foldl Db.advanced db) := by
  induction ks with
  | nil => exact fun _ => .refl _
  | cons k ks ih =>
    intro db hown
    have hg := grades_advanced hown k
    exact hg.trans (ih (hg.within.subsOwned hown)) hown

end

end SubmissionsChecker
