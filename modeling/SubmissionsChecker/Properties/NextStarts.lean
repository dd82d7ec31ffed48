import SubmissionsChecker.Invariants.Draws
import SubmissionsChecker.Properties.AttemptAllowance

/-! When a start request adds an attempt to a submission: it finds that one, at the quiz, with nothing running, nothing
passed, and attempts left under the pinned cap. -/

namespace SubmissionsChecker

namespace Db

/-- `used_count` of a start: the student's finished attempts. -/
def usedCount (db : Db) (i studentId : ℕ) : ℕ := ((db.attemptsOf i studentId).filter (·.status.isTerminal)).length

end Db

section

variable {db db₁ db' : Db} {saId i t : ℕ} {sa : StudentAssignment} {asg : SubjectsAssignment} {sub : Submission}
  {block : PluginAssignment} {rnd : Shuffles}

/-! Looking again finds the same -/

theorem saOf_ensureSa {asgId r : ℕ} (h : db.saOf t asgId = some r) (m asgId' : ℕ) :
    (db.ensureSa m asgId').1.saOf t asgId = some r := by
  unfold Db.ensureSa
  split
  · exact h
  · unfold Db.saOf Table.findId at h ⊢
    rw [Table.idsWhere_concat, List.head?_append, h, Option.some_or]

theorem ensureSa_saOf (db : Db) (m asgId : ℕ) : (db.ensureSa m asgId).1.saOf m asgId = some (db.ensureSa m asgId).2 := by
  unfold Db.ensureSa
  split
  · assumption
  · rename_i hnone
    unfold Db.saOf Table.findId at hnone ⊢
    rw [Table.idsWhere_concat, List.head?_append, hnone, Option.none_or]
    simp

theorem saOf_memberSaIds {asgId r : ℕ} (members : List ℕ) (h : db.saOf t asgId = some r) (asgId' : ℕ) :
    (db.memberSaIds members asgId').1.saOf t asgId = some r := by
  induction members generalizing db with
  | nil => exact h
  | cons m ms ih => exact ih (saOf_ensureSa h m asgId')

theorem memberSaIds_of_found {asgId : ℕ} {members is : List ℕ}
    (h : List.Forall₂ (fun m r => db.saOf m asgId = some r) members is) : db.memberSaIds members asgId = (db, is) := by
  induction h with
  | nil => rfl
  | @cons m r ms rs hm _ ih =>
    have hrow : db.ensureSa m asgId = (db, r) := by
      unfold Db.ensureSa
      rw [hm]
    unfold Db.memberSaIds
    rw [hrow]
    dsimp only
    rw [ih]

theorem memberSaIds_found (members : List ℕ) (asgId : ℕ) : ∀ db : Db,
    List.Forall₂ (fun m r => (db.memberSaIds members asgId).1.saOf m asgId = some r) members
      (db.memberSaIds members asgId).2 := by
  induction members with
  | nil => exact fun _ => .nil
  | cons m ms ih =>
    intro db
    exact .cons (saOf_memberSaIds ms (ensureSa_saOf db m asgId) asgId) (ih (db.ensureSa m asgId).1)

theorem scopeSaIds_again (db : Db) (t x asgId : ℕ) :
    (db.scopeSaIds t x asgId).1.scopeSaIds t x asgId = db.scopeSaIds t x asgId := by
  cases hsquad : (db.activeSquad x t).bind (db.squads[·]?) with
  | none =>
    have hscope : db.scopeSaIds t x asgId = (db, (db.saOf t asgId).toList) := by
      unfold Db.scopeSaIds
      rw [hsquad]
    rw [hscope]
    exact hscope
  | some squad =>
    have hscope : ∀ db₁ : Db, db₁.squads = db.squads → db₁.scopeSaIds t x asgId = db₁.memberSaIds squad.members asgId := by
      intro db₁ hsquads
      unfold Db.scopeSaIds Db.activeSquad
      rw [hsquads]
      unfold Db.activeSquad at hsquad
      rw [hsquad]
    rw [hscope db rfl, hscope _ (within_memberSaIds .grades squad.members asgId db).squads]
    exact memberSaIds_of_found (memberSaIds_found squad.members asgId db)

theorem latestSubmission_eq (hsa : db.studentsAssignments[saId]? = some sa)
    (hasg : db.subjectsAssignments[sa.subjectsAssignmentId]? = some asg) :
    db.latestSubmission saId = db.latestSubmissionFor sa.studentId asg.subjectId sa.subjectsAssignmentId := by
  unfold Db.latestSubmission
  rw [hsa]
  dsimp only
  rw [hasg]

theorem latestSubmission_again (db : Db) (saId : ℕ) :
    (db.latestSubmission saId).1.latestSubmission saId = db.latestSubmission saId := by
  cases hsa : db.studentsAssignments[saId]? with
  | none =>
    have hlatest : db.latestSubmission saId = (db, none) := by
      unfold Db.latestSubmission
      rw [hsa]
    rw [hlatest]
    exact hlatest
  | some sa =>
    cases hasg : db.subjectsAssignments[sa.subjectsAssignmentId]? with
    | none =>
      have hlatest : db.latestSubmission saId = (db, none) := by
        unfold Db.latestSubmission
        rw [hsa]
        dsimp only
        rw [hasg]
      rw [hlatest]
      exact hlatest
    | some asg =>
      have hw := within_latestSubmission .grades db saId
      obtain ⟨row, hrow, hst, hrowasg⟩ := hw.rows saId sa hsa
      have hasg' : (db.latestSubmission saId).1.subjectsAssignments[row.subjectsAssignmentId]? = some asg := by
        rw [hrowasg, hw.subjectsAssignments, hasg]
      rw [latestSubmission_eq hrow hasg', hst, hrowasg, latestSubmission_eq hsa hasg]
      unfold Db.latestSubmissionFor
      dsimp only
      rw [scopeSaIds_again]

/-! The start of an attempt -/

theorem Within.pinnedBlock {scope : Scope} (h : Within scope db db') (hsubs : db'.submissions = db.submissions)
    (hblock : db.pinnedBlock i = some block) : db'.pinnedBlock i = some block := by
  rw [pinnedBlock_eq] at hblock ⊢
  obtain ⟨c, hc, hblock⟩ := Option.bind_eq_some_iff.mp hblock
  rw [hsubs, hc]
  exact h.evolves.blockIn hblock

/-- A submission that is there is found by looking, not by opening one. -/
theorem Db.Finds.found {db₂ : Db} (h : db.Finds saId t db₂ i) (hsa : db.studentsAssignments[saId]? = some sa)
    (hst : sa.studentId = t) (hsub : db.submissions[i]? = some sub) :
    (db.latestSubmission saId).2 = some i ∧ db₂ = (db.latestSubmission saId).1 := by
  cases h with
  | latest hi => exact ⟨hi, rfl⟩
  | opened ho =>
    obtain ⟨row, hrow, hrowst, -⟩ := (within_latestSubmission .grades db saId).rows saId sa hsa
    have hopened := openQuizSubmission_spec hrow (hrowst.trans hst) ho
    generalize hi' : i = i' at hopened
    cases hopened with
    | reused hi =>
      rw [latestSubmission_again] at hi ⊢
      exact ⟨hi' ▸ hi, rfl⟩
    | opened _ =>
      rw [latestSubmission_submissions] at hi'
      rw [hi', List.getElem?_eq_none le_rfl] at hsub
      cases hsub

end

end SubmissionsChecker
