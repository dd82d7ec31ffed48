import SubmissionsChecker.Effects.SquadRequests
import SubmissionsChecker.Sessions.Rows

/-! `create_with_invites`, `accept_invite` and `teacher_assign` as requests among others. The
queries of `eligibility` are made student by student, an accept has the squad's row locked, and
the rows are written by the commit. What no request here changes (the enrolments, the types of
the students, the size of a squad) is read together with the squad. -/

namespace SubmissionsChecker

open ReadCommitted

/-- The requests that put students in squads. -/
inductive JoinOp
  | create (subject creator : ℕ) (invitees : List ℕ)
  | accept (subject student invite : ℕ)
  | assign (subject : ℕ) (students : List ℕ)
  deriving DecidableEq, Repr

/-- The two queries of `eligibility` about a student. -/
inductive EligibilityQuery
  | standing (studentId : ℕ)
  | submissions (studentId : ℕ)
  deriving DecidableEq, Repr

/-- A request whose form is checked. -/
inductive JoinPlan
  | create (subject creator : ℕ) (invitees : List ℕ)
  /-- The squad `q` of the invitation, as refreshed under the lock. -/
  | accept (student invite q : ℕ) (squad : Squad)
  | assign (subject : ℕ) (students : List ℕ)
  deriving DecidableEq, Repr

/-- Where a request stands. -/
inductive Forming
  | asked (op : JoinOp)
  /-- `accept_invite` waits for the squad's row. -/
  | waiting (student invite q : ℕ)
  | checking (plan : JoinPlan) (queries : List EligibilityQuery)
  | writing (plan : JoinPlan)
  /-- A refused accept cancels its invitation. -/
  | refusing (invite : ℕ)
  | formed
  | refused
  deriving DecidableEq, Repr

/-- The queries of `_require_eligible`, one student after the other. -/
def eligibilityQueries (studentIds : List ℕ) : List EligibilityQuery :=
  studentIds.flatMap fun t => [.standing t, .submissions t]

namespace Db

/-- `eligibility` up to the submissions. -/
def standing (isTest : ℕ → Bool) (db : Db) (subjectId studentId : ℕ) : Option SquadError :=
  if (db.maxSize subjectId).isNone then some .disabled
  else if (subjectId, studentId) ∉ db.subjectsStudents then some .notEnrolled
  else if isTest studentId then some .testStudent
  else if (db.squadOf subjectId studentId).isSome then some .alreadyInSquad
  else none

end Db

/-- The answer makes the student ineligible. -/
def EligibilityQuery.refuses (isTest : ℕ → Bool) (db : Db) (subjectId : ℕ) : EligibilityQuery → Bool
  | standing t => (db.standing isTest subjectId t).isSome
  | submissions t => db.hasSubmissions subjectId t

namespace JoinPlan

def subject : JoinPlan → ℕ
  | create subject _ _ => subject
  | accept _ _ _ squad => squad.subjectId
  | assign subject _ => subject

/-- The students who become members. -/
def joining : JoinPlan → List ℕ
  | create _ creator _ => [creator]
  | accept student _ _ _ => [student]
  | assign _ students => students

/-- The rows written. -/
def rows (db : Db) : JoinPlan → Db
  | create subject creator invitees => db.addCreated subject creator invitees
  | accept student invite q squad =>
    let db₁ := db.joined q squad.subjectId student invite
    if (db.maxSize squad.subjectId).getD 0 ≤ squad.members.length + 1 then db₁.lockFull q else db₁
  | assign subject students => db.addAssigned subject students

/-- A student is a member of one squad of the subject at most, or the insert fails. -/
def fits (plan : JoinPlan) (db : Db) : Bool := plan.joining.all fun t => (db.squadOf plan.subject t).isNone

/-- The commit. -/
def write (plan : JoinPlan) (db : Db) : Db := if plan.fits db then plan.rows db else db

end JoinPlan

namespace Forming

/-- The checks that come before the eligibility. -/
def receive (db : Db) : JoinOp → Forming
  | .create subject creator invitees =>
    if (subject, creator) ∉ db.subjectsStudents then .refused
    else
      match db.maxSize subject with
      | none => .refused
      | some size =>
        if ¬ invitees.Nodup ∨ creator ∈ invitees ∨ invitees = [] ∨ size - 1 < invitees.length then .refused
        else .checking (.create subject creator invitees) (eligibilityQueries (creator :: invitees))
  | .accept subject student invite =>
    if !db.answersInvite subject student invite then .refused
    else
      match db.loadInvite invite with
      | .error _ => .refused
      | .ok (inv, _) => if inv.invitedStudentId ≠ student then .refused else .waiting student invite inv.squadId
  | .assign subject students =>
    match db.maxSize subject with
    | none => .refused
    | some size =>
      if ¬ students.Nodup ∨ students.length < 2 ∨ size < students.length then .refused
      else .checking (.assign subject students) (eligibilityQueries students)

/-- `db.refresh(squad, …, with_for_update=True)`. -/
def refresh (db : Db) (student invite q : ℕ) : Forming :=
  match db.squads[q]? with
  | none => .refused
  | some squad => .checking (.accept student invite q squad) (eligibilityQueries [student])

/-- Only a refused accept leaves something to commit. -/
def refuse : JoinPlan → Forming
  | .accept _ invite _ _ => .refusing invite
  | .create .. | .assign .. => .refused

/-- After the eligibility: an accept looks at the lock and the size of the squad. -/
def judge (db : Db) (plan : JoinPlan) : Forming :=
  match plan with
  | .accept _ _ _ squad =>
    if squad.lockedAt.isSome ∨ (db.maxSize squad.subjectId).getD 0 ≤ squad.members.length then refuse plan
    else .writing plan
  | .create .. | .assign .. => .writing plan

def next (isTest : ℕ → Bool) : Forming → Stmt Db Forming Row
  | asked op => .read fun db => receive db op
  | waiting student invite q => .lock (.squad q) fun db => refresh db student invite q
  | checking plan [] => .read fun db => judge db plan
  | checking plan (query :: queries) =>
      .read fun db => if query.refuses isTest db plan.subject then refuse plan else .checking plan queries
  | writing plan => .commit plan.write .formed
  | refusing invite => .commit (fun db => db.closeInvites [invite]) .refused
  | formed => .done
  | refused => .rollback .refused

end Forming

section

variable {isTest : ℕ → Bool} {db db' : Db} {x t : ℕ}

theorem eligibility_eq : db.eligibility isTest x t =
    (db.standing isTest x t).or (if db.hasSubmissions x t then some .hasSubmissions else none) := by
  unfold Db.eligibility Db.standing
  split_ifs <;> rfl

/-- A student is eligible when neither query refuses. -/
theorem eligible_iff : db.eligibility isTest x t = none ↔
    ∀ query ∈ eligibilityQueries [t], query.refuses isTest db x = false := by
  rw [eligibility_eq, Option.or_eq_none_iff]
  simp [eligibilityQueries, EligibilityQuery.refuses]

/-! The sequential requests commit the same rows -/

theorem createWithInvites_write {c : ℕ} {invitees : List ℕ} (h : db.createWithInvites isTest x c invitees = .ok db') :
    db' = (JoinPlan.create x c invitees).write db := by
  unfold Db.createWithInvites at h
  split at h
  · cases h
  · by_cases hdup : invitees.Nodup
    · rw [if_neg (not_not.mpr hdup)] at h
      split_ifs at h
      split at h
      · cases h
      · rename_i hfree
        cases h
        have hcreator := requireEligible_none hfree c List.mem_cons_self
        simp [JoinPlan.write, JoinPlan.fits, JoinPlan.rows, JoinPlan.joining, JoinPlan.subject, hcreator]
    · rw [if_pos hdup] at h
      cases h

theorem teacherAssign_write {students : List ℕ} (h : db.teacherAssign isTest x students = .ok db') :
    db' = (JoinPlan.assign x students).write db := by
  unfold Db.teacherAssign at h
  split at h
  · cases h
  · by_cases hdup : students.Nodup
    · rw [if_neg (not_not.mpr hdup)] at h
      split_ifs at h
      split at h
      · cases h
      · rename_i hfree
        cases h
        have hstudents : ∀ t ∈ students, db.squadOf x t = none := requireEligible_none hfree
        refine (if_pos (List.all_eq_true.mpr fun t ht => ?_)).symm
        rw [Option.isNone_iff_eq_none]
        exact hstudents t ht
    · rw [if_pos hdup] at h
      cases h

theorem acceptInvite_write {i : ℕ} (h : (db.acceptInvite isTest i t).2 = none) :
    ∃ q squad, (db.acceptInvite isTest i t).1 = (JoinPlan.accept t i q squad).write db := by
  unfold Db.acceptInvite at h ⊢
  split at h
  · cases h
  · rename_i inv squad hload
    by_cases ht : inv.invitedStudentId = t
    · rw [if_neg (not_not.mpr ht)] at h ⊢
      split at h
      · cases h
      · rename_i hok
        refine ⟨inv.squadId, squad, ?_⟩
        have hfree := (acceptRefusal_none hok).1
        simp [JoinPlan.write, JoinPlan.fits, JoinPlan.rows, JoinPlan.joining, JoinPlan.subject, hfree]
    · rw [if_pos ht] at h
      cases h

/-! What the rows written change -/

/-- Only students of `joining` become members, of squads of subject `x`. -/
structure Db.Joins (x : ℕ) (joining : List ℕ) (db db' : Db) : Prop where
  rest : db' = { db with squads := db'.squads, squadInvites := db'.squadInvites }
  members : ∀ (q : ℕ) s', db'.squads[q]? = some s' → ∀ t ∈ s'.members,
    (∃ s, db.squads[q]? = some s ∧ s.subjectId = s'.subjectId ∧ t ∈ s.members) ∨ (s'.subjectId = x ∧ t ∈ joining)
  kept : ∀ (q : ℕ) s, db.squads[q]? = some s → ∃ s', db'.squads[q]? = some s' ∧ s'.subjectId = s.subjectId

variable {joining : List ℕ} {db₁ : Db}

theorem Db.Joins.prunes (h : Db.Joins x joining db db₁) (h' : db₁.Prunes db') : Db.Joins x joining db db' where
  rest := by rw [h'.rest, h.rest]
  members q s' hs' t ht := by
    obtain ⟨s₁, hs₁, hx, -, hm | ⟨hm, -⟩⟩ := h'.squads q s' hs'
    · rw [hm] at ht
      rw [hx]
      exact h.members q s₁ hs₁ t ht
    · rw [hm] at ht
      cases ht
  kept q s hs := by
    obtain ⟨s₁, hs₁, hx₁⟩ := h.kept q s hs
    obtain ⟨s', hs'⟩ := h'.kept q s₁ hs₁
    obtain ⟨s₂, hs₂, hx, -⟩ := h'.squads q s' hs'
    rw [hs₁, Option.some_inj] at hs₂
    exact ⟨s', hs', by rw [hx, ← hs₂, hx₁]⟩

theorem Db.Joins.locks (h : Db.Joins x joining db db₁) (q : ℕ) : Db.Joins x joining db (db₁.lockOnSubmit q) where
  rest := by rw [Db.lockOnSubmit, h.rest]
  members j s' hs' t ht := by
    obtain ⟨s₁, hs₁, hx, hm, -⟩ := lockOnSubmit_get hs'
    rw [hm] at ht
    rw [hx]
    exact h.members j s₁ hs₁ t ht
  kept j s hs := by
    obtain ⟨s₁, hs₁, hx₁⟩ := h.kept j s hs
    have hroster := (evolves_lockOnSubmit db₁ q).squad j
    rw [hs₁, Option.map_some] at hroster
    obtain ⟨s', hs', hr⟩ := Option.map_eq_some_iff.mp hroster
    exact ⟨s', hs', (congrArg Prod.fst hr).trans hx₁⟩

theorem joins_addSquad (db : Db) (s : Squad) (invites : List SquadInvite) :
    Db.Joins s.subjectId s.members db { db with squads := db.squads ++ [s], squadInvites := invites } where
  rest := rfl
  members q s' hs' t ht := by
    rcases Table.getElem?_concat_some hs' with hold | ⟨-, rfl⟩
    · exact .inl ⟨s', hold, rfl, ht⟩
    · exact .inr ⟨rfl, ht⟩
  kept q s₀ hs₀ := ⟨s₀, Table.getElem?_append_old hs₀, rfl⟩

theorem joins_addMember {q : ℕ} {s : Squad} (hs : db.squads[q]? = some s) (t : ℕ) :
    Db.Joins s.subjectId [t] db (db.addMember q t) where
  rest := rfl
  members j s' hs' u hu := by
    obtain ⟨s₀, hs₀, rfl⟩ := Table.getElem?_modify_some hs'
    by_cases hj : q = j
    · subst hj
      rw [hs, Option.some_inj] at hs₀
      subst hs₀
      rw [if_pos rfl] at hu ⊢
      rcases List.mem_append.mp hu with hu | hu
      · exact .inl ⟨s, hs, rfl, hu⟩
      · exact .inr ⟨rfl, hu⟩
    · rw [if_neg hj] at hu ⊢
      exact .inl ⟨s₀, hs₀, rfl, hu⟩
  kept j s₀ hs₀ := by
    refine ⟨if q = j then { s₀ with members := s₀.members ++ [t] } else s₀, ?_, ?_⟩
    · rw [Db.addMember, List.getElem?_modify, hs₀]
      split_ifs <;> rfl
    · split_ifs <;> rfl

/-- The squad of an accept is of the subject it was loaded with. -/
def JoinPlan.Located (db : Db) : JoinPlan → Prop
  | accept _ _ q squad => ∃ s, db.squads[q]? = some s ∧ s.subjectId = squad.subjectId
  | create .. | assign .. => True

theorem rows_joins {plan : JoinPlan} (h : plan.Located db) : Db.Joins plan.subject plan.joining db (plan.rows db) := by
  cases plan with
  | create x c invitees => exact joins_addSquad db { subjectId := x, members := [c] } _
  | assign x students =>
    exact (joins_addSquad db { subjectId := x, members := students, lockedAt := some db.now } _).prunes
      (prunes_foldl (fun db t => prunes_cancelPendingOf db _ t none) _ _)
  | accept t i q squad =>
    obtain ⟨s, hs, hx⟩ := h
    have hjoined : Db.Joins squad.subjectId [t] db (db.joined q squad.subjectId t i) := by
      rw [← hx]
      exact (joins_addMember hs t).prunes (joined_prunes db q s.subjectId t i)
    change Db.Joins squad.subjectId [t] db (ite _ _ _)
    split_ifs
    · rw [lockFull_eq]
      exact (hjoined.prunes (prunes_closeInvites _ _)).locks q
    · exact hjoined

end

end SubmissionsChecker
