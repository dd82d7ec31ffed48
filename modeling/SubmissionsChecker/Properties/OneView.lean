import SubmissionsChecker.Services.Squads
import SubmissionsChecker.Properties.SquadWork

/-! One view of a squad's work. The members look their submission up on all their rows; the grid and the
board look at the student's own row first, and stand in the squad's work only where it is empty. -/

namespace SubmissionsChecker

open Runs

/-- Everybody sees `latest` as the squad's submission for the assignment: the members' look-up, and
the grid and the board in the row of each enrolled member. -/
structure Db.SeenAlike (isTest : ℕ → Bool) (db : Db) (s : Squad) (asgId : ℕ) (latest : Option ℕ) : Prop where
  found : ∀ m ∈ s.members, (db.latestSubmissionFor m s.subjectId asgId).2 = latest
  listed : ∀ m ∈ s.members, (s.subjectId, m) ∈ db.subjectsStudents → isTest m = false →
    (∃ row ∈ db.fetchGridRows isTest s.subjectId, row.studentId = m ∧ row.assignmentId = asgId) ∧
      ∃ row ∈ db.boardRows isTest s.subjectId asgId, row.studentId = m
  grid : ∀ row ∈ db.fetchGridRows isTest s.subjectId, row.studentId ∈ s.members → row.assignmentId = asgId →
    row.submissionStatus = latest.bind db.status
  board : ∀ row ∈ db.boardRows isTest s.subjectId asgId, row.studentId ∈ s.members →
    row.submissionStatus = latest.bind db.status

/-- So for every locked squad and every assignment. -/
def Db.OneView (isTest : ℕ → Bool) (db : Db) : Prop :=
  ∀ (q : ℕ) s (asgId : ℕ) asg, db.squads[q]? = some s → s.lockedAt.isSome = true →
    db.subjectsAssignments[asgId]? = some asg → asg.subjectId = s.subjectId → ∃ latest, db.SeenAlike isTest s asgId latest

/-- A request that opens a submission for a squad opens it on the row of the squad's earlier ones for the
assignment, and later than these. -/
def Db.OpensInLine (db : Db) (op : Op) : Prop :=
  ∀ (saId : ℕ) sa asg q, op.opensOn = some saId → db.studentsAssignments[saId]? = some sa →
    db.subjectsAssignments[sa.subjectsAssignmentId]? = some asg → db.squadOf asg.subjectId sa.studentId = some q →
      (db.step op).submissions.length ≠ db.submissions.length →
        ∀ (i : ℕ) sub, db.submissions[i]? = some sub → db.isSquadWork q sa.subjectsAssignmentId sub = true →
          sub.studentsAssignmentId = saId ∧ sub.createdAt < db.now

/-- A squad's work for an assignment is on one row, each submission later than the one before. -/
def Db.InLine (db : Db) : Prop :=
  ∀ (i j q a : ℕ) sub sub', i < j → db.submissions[i]? = some sub → db.submissions[j]? = some sub' →
    db.isSquadWork q a sub = true → db.isSquadWork q a sub' = true →
      sub'.studentsAssignmentId = sub.studentsAssignmentId ∧ sub.createdAt < sub'.createdAt

section

variable {db db' : Db} {i j n q a r m : ℕ} {sub sub' : Submission} {s : Squad} {asg : SubjectsAssignment} {op : Op}
  {isTest : ℕ → Bool}

/-! Newest submissions -/

theorem mem_newestWhere {p : Submission → Bool} : i ∈ db.newestWhere p ↔ ∃ sub, db.submissions[i]? = some sub ∧
    p sub = true ∧ ∀ (j : ℕ) sub', db.submissions[j]? = some sub' → p sub' = true → sub'.createdAt ≤ sub.createdAt := by
  unfold Db.newestWhere
  rw [Table.mem_idsWhere]
  apply exists_congr
  intro sub
  rw [Bool.and_eq_true, beq_iff_eq]
  apply and_congr_right
  intro hsub
  apply and_congr_right
  intro hp
  unfold Db.maxCreatedAt
  rw [eq_comm, List.max?_eq_some_iff]
  constructor
  · rintro ⟨-, hmax⟩ j sub' hsub' hp'
    exact hmax _ (List.mem_map_of_mem (List.mem_filter.mpr ⟨List.mem_of_getElem? hsub', hp'⟩))
  · intro hmax
    refine ⟨List.mem_map_of_mem (List.mem_filter.mpr ⟨List.mem_of_getElem? hsub, hp⟩), fun t ht => ?_⟩
    obtain ⟨sub', hsub', rfl⟩ := List.mem_map.mp ht
    obtain ⟨hmem, hp'⟩ := List.mem_filter.mp hsub'
    obtain ⟨j, hj⟩ := List.mem_iff_getElem?.mp hmem
    exact hmax j sub' hj hp'

/-- The look-up's submission is in its scope, and none there is newer. -/
theorem newestOf_spec {ids : List ℕ} (h : db.newestOf ids = some n) : n ∈ ids ∧ ∀ j ∈ ids,
    ((db.submissions[j]?).map (·.createdAt)).getD 0 ≤ ((db.submissions[n]?).map (·.createdAt)).getD 0 := by
  induction ids using List.reverseRecOn generalizing n with
  | nil => cases h
  | append_singleton ids k ih =>
    unfold Db.newestOf at h ih
    rw [List.foldl_append, List.foldl_cons, List.foldl_nil] at h
    split at h
    · rename_i hnone
      have hnil : ids = [] := by
        by_contra hne
        obtain ⟨j, hj⟩ : ∃ j, db.newestOf ids = some j := newestOf_isSome hne
        unfold Db.newestOf at hj
        rw [hnone] at hj
        cases hj
      subst hnil
      cases h
      simp
    · rename_i best hbest
      obtain ⟨hmem, hmax⟩ := ih hbest
      split_ifs at h with hle
      · cases h
        refine ⟨by simp, fun j hj => ?_⟩
        rcases List.mem_append.mp hj with hj | hj
        · exact (hmax j hj).trans hle
        · rw [List.mem_singleton.mp hj]
      · cases h
        refine ⟨List.mem_append_left _ hmem, fun j hj => ?_⟩
        rcases List.mem_append.mp hj with hj | hj
        · exact hmax j hj
        · rw [List.mem_singleton.mp hj]
          omega

theorem newestOf_congr (h : db'.submissions = db.submissions) (ids : List ℕ) : db'.newestOf ids = db.newestOf ids := by
  unfold Db.newestOf
  rw [h]

/-! The squad's work -/

theorem isSquadWork_iff (ok : db.Ok) (hs : db.squads[q]? = some s) (hasg : db.subjectsAssignments[a]? = some asg)
    (hx : asg.subjectId = s.subjectId) (hsub : db.submissions[i]? = some sub) : db.isSquadWork q a sub = true ↔
      ∃ row, db.studentsAssignments[sub.studentsAssignmentId]? = some row ∧ row.subjectsAssignmentId = a ∧
        row.studentId ∈ s.members := by
  obtain ⟨row, asg', hrow, hrowasg, hsquad⟩ := (ok.subs i sub hsub).owned
  unfold Db.isSquadWork Db.asgIdOn
  rw [Bool.and_eq_true, beq_iff_eq, beq_iff_eq, hrow, Option.map_some, Option.some_inj, hsquad]
  constructor
  · rintro ⟨hq, ha⟩
    obtain ⟨s', hs', hp⟩ := Table.findId_some hq
    rw [hs, Option.some_inj] at hs'
    simp only [Bool.and_eq_true, beq_iff_eq, List.contains_iff_mem] at hp
    exact ⟨row, rfl, ha, by rw [hs']; exact hp.2⟩
  · rintro ⟨row', hrow', ha, hmem⟩
    rw [Option.some_inj] at hrow'
    subst hrow'
    rw [ha, hasg, Option.some_inj] at hrowasg
    rw [← hrowasg, hx]
    exact ⟨squadOf_of_member ok.setup hs hmem, ha⟩

/-- The members' rows hold the squad's work and nothing else. -/
theorem submissionsIn_members (ok : db.Ok) (hs : db.squads[q]? = some s) (hasg : db.subjectsAssignments[a]? = some asg)
    (hx : asg.subjectId = s.subjectId) : (db.memberSaIds s.members a).1.submissionsIn (db.memberSaIds s.members a).2 =
      Table.idsWhere (db.isSquadWork q a) db.submissions := by
  unfold Db.submissionsIn Table.idsWhere
  rw [memberSaIds_submissions]
  refine List.filter_congr fun i _ => ?_
  rcases hsub : db.submissions[i]? with _ | sub
  · rfl
  rw [Option.any_some, Option.any_some, Bool.eq_iff_iff, List.contains_iff_mem, isSquadWork_iff ok hs hasg hx hsub]
  obtain ⟨row, -, hrow, -⟩ := (ok.subs i sub hsub).owned
  constructor
  · intro hin
    obtain ⟨row₁, hrow₁, hst, ha⟩ := memberSaIds_row s.members a db _ hin
    obtain ⟨row₂, hrow₂, hst', ha'⟩ := (within_memberSaIds .grades s.members a db).rows _ row hrow
    rw [hrow₁, Option.some_inj] at hrow₂
    subst hrow₂
    exact ⟨row, hrow, ha' ▸ ha, hst' ▸ hst⟩
  · rintro ⟨row₁, hrow₁, ha, hst⟩
    exact mem_memberSaIds s.members a db row₁ ok.unique hrow₁ hst ha

/-- Every member's look-up is the newest of the squad's work. -/
theorem latestSubmissionFor_work (ok : db.Ok) (hs : db.squads[q]? = some s) (hl : s.lockedAt.isSome = true)
    (hasg : db.subjectsAssignments[a]? = some asg) (hx : asg.subjectId = s.subjectId) (hm : m ∈ s.members) :
    (db.latestSubmissionFor m s.subjectId a).2 = db.newestOf (Table.idsWhere (db.isSquadWork q a) db.submissions) := by
  have hactive := activeSquad_of_member ok.setup.oneSquad hs rfl hm hl
  unfold Db.latestSubmissionFor Db.scopeSaIds
  simp only [hactive, Option.bind_some, hs]
  rw [submissionsIn_members ok hs hasg hx, newestOf_congr (memberSaIds_submissions s.members a db)]

/-- In line, a submission that is newest on its row is the newest of all. -/
theorem Db.InLine.newest (hline : db.InLine) (hsub : db.submissions[i]? = some sub) (hwork : db.isSquadWork q a sub = true)
    (hmax : ∀ (j : ℕ) sub', db.submissions[j]? = some sub' → sub'.studentsAssignmentId = sub.studentsAssignmentId →
      db.isSquadWork q a sub' = true → sub'.createdAt ≤ sub.createdAt) :
    db.newestOf (Table.idsWhere (db.isSquadWork q a) db.submissions) = some i := by
  have hi : i ∈ Table.idsWhere (db.isSquadWork q a) db.submissions := Table.mem_idsWhere.mpr ⟨sub, hsub, hwork⟩
  obtain ⟨n, hn⟩ : ∃ n, db.newestOf (Table.idsWhere (db.isSquadWork q a) db.submissions) = some n :=
    newestOf_isSome (List.ne_nil_of_mem hi)
  obtain ⟨hmem, hnewest⟩ := newestOf_spec hn
  obtain ⟨sub', hsub', hwork'⟩ := Table.mem_idsWhere.mp hmem
  have hle : sub.createdAt ≤ sub'.createdAt := by simpa [hsub, hsub'] using hnewest i hi
  rw [hn]
  rcases Nat.lt_trichotomy i n with hlt | heq | hlt
  · obtain ⟨hrow, hlater⟩ := hline i n q a sub sub' hlt hsub hsub' hwork hwork'
    have := hmax n sub' hsub' hrow hwork'
    omega
  · rw [heq]
  · obtain ⟨-, hlater⟩ := hline n i q a sub' sub hlt hsub' hsub hwork' hwork
    omega

/-! The shares -/

/-- The share of submission `n` of squad `q`. -/
def Db.shareOf (db : Db) (q n : ℕ) : SquadShare :=
  { submissionId := n, squadId := q, passedStudentIds := db.passedStudentIds n }

theorem mem_sharesOf {x : ℕ} {only : Option ℕ} {e : (ℕ × ℕ) × SquadShare} : e ∈ db.sharesOf x only i ↔
    ∃ sub q a s, db.submissions[i]? = some sub ∧ db.isSquadWork q a sub = true ∧ db.squads[q]? = some s ∧
      s.subjectId = x ∧ only.all (· == a) = true ∧ i ∈ db.newestWhere (db.isSquadWork q a) ∧
        ∃ m ∈ s.members, e = ((m, a), db.shareOf q i) := by
  unfold Db.sharesOf
  constructor
  · intro he
    split at he
    · cases he
    · rename_i q a hwork
      obtain ⟨sub, hsub, hwork⟩ := Option.bind_eq_some_iff.mp hwork
      obtain ⟨q', hq, hwork⟩ := Option.bind_eq_some_iff.mp hwork
      obtain ⟨a', ha, heq⟩ := Option.map_eq_some_iff.mp hwork
      cases heq
      split at he
      · cases he
      · rename_i s hs
        split_ifs at he with hcond
        · obtain ⟨m, hm, rfl⟩ := List.mem_map.mp he
          exact ⟨sub, q, a, s, hsub, by simp [Db.isSquadWork, hq, ha], hs, hcond.1, hcond.2.1, hcond.2.2, m, hm, rfl⟩
        · cases he
  · rintro ⟨sub, q, a, s, hsub, hwork, hs, hx, honly, hnewest, m, hm, rfl⟩
    simp only [Db.isSquadWork, Bool.and_eq_true, beq_iff_eq] at hwork
    simp only [hsub, Option.bind_some, hwork.1, hwork.2, Option.map_some, hs]
    rw [if_pos ⟨hx, honly, hnewest⟩]
    exact List.mem_map_of_mem hm

/-- A member's share is the newest of the squad's work. -/
theorem lookup_sharedSubmissions (ok : db.Ok) (hline : db.InLine) (hs : db.squads[q]? = some s) {only : Option ℕ}
    (honly : only.all (· == a) = true) (hm : m ∈ s.members) :
    (db.sharedSubmissions s.subjectId only).lookup (m, a) =
      (db.newestOf (Table.idsWhere (db.isSquadWork q a) db.submissions)).map (db.shareOf q) := by
  have hentry : ∀ e ∈ (List.range db.submissions.length).flatMap (db.sharesOf s.subjectId only), e.1 = (m, a) →
      ∃ i, db.newestOf (Table.idsWhere (db.isSquadWork q a) db.submissions) = some i ∧ e.2 = db.shareOf q i := by
    intro e he hkey
    obtain ⟨i, -, he⟩ := List.mem_flatMap.mp he
    obtain ⟨sub, q', a', s', hsub, hwork, hs', hx, -, hnewest, m', hm', rfl⟩ := mem_sharesOf.mp he
    cases hkey
    have hq : q' = q := ok.setup.oneSquad q' q s' s m hs' hs hx hm' hm
    subst hq
    obtain ⟨sub₁, hsub₁, -, hmax⟩ := mem_newestWhere.mp hnewest
    rw [hsub, Option.some_inj] at hsub₁
    subst hsub₁
    exact ⟨i, hline.newest hsub hwork fun j sub' hsub' _ hwork' => hmax j sub' hsub' hwork', rfl⟩
  have hbeq : (instBEqProd : BEq (ℕ × ℕ)) = instBEqOfDecidableEq := lawful_beq_subsingleton _ _
  unfold Db.sharedSubmissions
  rw [hbeq]
  rcases hn : db.newestOf (Table.idsWhere (db.isSquadWork q a) db.submissions) with _ | n
  · rw [Assoc.lookup_foldl_set_of_not_mem]
    · rfl
    · intro e he hkey
      obtain ⟨i, hi, -⟩ := hentry e he hkey
      rw [hn] at hi
      cases hi
  · refine Assoc.lookup_foldl_set_of_mem ?_ (fun e he hkey => ?_) []
    · obtain ⟨hmem, hmax⟩ := newestOf_spec hn
      obtain ⟨sub, hsub, hwork⟩ := Table.mem_idsWhere.mp hmem
      have hnewest : n ∈ db.newestWhere (db.isSquadWork q a) := by
        refine mem_newestWhere.mpr ⟨sub, hsub, hwork, fun j sub' hsub' hwork' => ?_⟩
        simpa [hsub, hsub'] using hmax j (Table.mem_idsWhere.mpr ⟨sub', hsub', hwork'⟩)
      have hlt : n < db.submissions.length := (List.getElem?_eq_some_iff.mp hsub).1
      exact ⟨((m, a), db.shareOf q n), List.mem_flatMap.mpr ⟨n, List.mem_range.mpr hlt,
        mem_sharesOf.mpr ⟨sub, q, a, s, hsub, hwork, hs, rfl, honly, hnewest, m, hm, rfl⟩⟩, rfl⟩
    · obtain ⟨i, hi, hshare⟩ := hentry e he hkey
      rw [hn, Option.some_inj] at hi
      rw [hshare, hi]

/-! The rows -/

theorem mem_latestRows {o : Option ℕ × Option ℕ} (h : o ∈ db.latestRows m a) : o = (none, none) ∨
    ∃ r row, db.studentsAssignments[r]? = some row ∧ row.studentId = m ∧ row.subjectsAssignmentId = a ∧
      o.1 = some r ∧ ∀ i, o.2 = some i → i ∈ db.newestWhere (·.studentsAssignmentId == r) := by
  obtain ⟨own, hown, ho⟩ := List.mem_flatMap.mp h
  rcases own with _ | r
  · exact .inl (List.mem_singleton.mp ho)
  · obtain ⟨i, hi, rfl⟩ := List.mem_map.mp ho
    obtain ⟨row, hrow, hp⟩ := Table.mem_idsWhere.mp (Table.some_mem_outer hown)
    simp only [Bool.and_eq_true, beq_iff_eq] at hp
    refine .inr ⟨r, row, hrow, hp.1, hp.2, rfl, ?_⟩
    rintro j rfl
    exact Table.some_mem_outer hi

theorem exists_mem_latestRows (db : Db) (m a : ℕ) : ∃ o, o ∈ db.latestRows m a := by
  obtain ⟨own, hown⟩ := Table.exists_mem_outer
    (Table.idsWhere (fun sa => sa.studentId == m && sa.subjectsAssignmentId == a) db.studentsAssignments)
  rcases own with _ | r
  · exact ⟨(none, none), List.mem_flatMap.mpr ⟨none, hown, by simp⟩⟩
  · obtain ⟨i, hi⟩ := Table.exists_mem_outer (db.newestWhere (·.studentsAssignmentId == r))
    exact ⟨(some r, i), List.mem_flatMap.mpr ⟨some r, hown, List.mem_map_of_mem hi⟩⟩

/-- A member's own newest submission is the newest of the squad's work. -/
theorem newest_of_latestRows (ok : db.Ok) (hline : db.InLine) (hs : db.squads[q]? = some s)
    (hasg : db.subjectsAssignments[a]? = some asg) (hx : asg.subjectId = s.subjectId) (hm : m ∈ s.members)
    {o : Option ℕ × Option ℕ} (ho : o ∈ db.latestRows m a) (hi : o.2 = some i) :
    (∃ sub, db.submissions[i]? = some sub) ∧
      db.newestOf (Table.idsWhere (db.isSquadWork q a) db.submissions) = some i := by
  rcases mem_latestRows ho with rfl | ⟨r, row, hrow, hst, ha, -, hnewest⟩
  · cases hi
  · obtain ⟨sub, hsub, hr, hmax⟩ := mem_newestWhere.mp (hnewest i hi)
    rw [beq_iff_eq] at hr
    have hwork : db.isSquadWork q a sub = true :=
      (isSquadWork_iff ok hs hasg hx hsub).mpr ⟨row, by rw [hr]; exact hrow, ha, by rw [hst]; exact hm⟩
    refine ⟨⟨sub, hsub⟩, hline.newest hsub hwork fun j sub' hsub' hsame _ => hmax j sub' hsub' ?_⟩
    rw [beq_iff_eq, hsame, hr]

theorem gridRow_status (ok : db.Ok) (hline : db.InLine) (hs : db.squads[q]? = some s)
    (hasg : db.subjectsAssignments[a]? = some asg) (hx : asg.subjectId = s.subjectId) (hm : m ∈ s.members)
    {o : Option ℕ × Option ℕ} (ho : o ∈ db.latestRows m a) (minGrade : ℤ) :
    (db.gridRow (db.sharedSubmissions s.subjectId none) m a minGrade o).submissionStatus =
      (db.newestOf (Table.idsWhere (db.isSquadWork q a) db.submissions)).bind db.status := by
  unfold Db.gridRow
  dsimp only
  rcases hi : o.2 with _ | i
  · rw [lookup_sharedSubmissions ok hline hs rfl hm]
    rcases db.newestOf (Table.idsWhere (db.isSquadWork q a) db.submissions) with _ | n <;> rfl
  · obtain ⟨⟨sub, hsub⟩, hn⟩ := newest_of_latestRows ok hline hs hasg hx hm ho hi
    rw [hn, Option.bind_some, Option.bind_some, hsub, if_neg (by simp), Db.status, hsub]

theorem boardRow_status (ok : db.Ok) (hline : db.InLine) (hs : db.squads[q]? = some s)
    (hasg : db.subjectsAssignments[a]? = some asg) (hx : asg.subjectId = s.subjectId) (hm : m ∈ s.members)
    {o : Option ℕ × Option ℕ} (ho : o ∈ db.latestRows m a) :
    (db.boardRow (db.sharedSubmissions s.subjectId (some a)) m a o).submissionStatus =
      (db.newestOf (Table.idsWhere (db.isSquadWork q a) db.submissions)).bind db.status := by
  unfold Db.boardRow
  dsimp only
  rcases hi : o.2 with _ | i
  · rw [lookup_sharedSubmissions ok hline hs (by simp) hm]
    rcases db.newestOf (Table.idsWhere (db.isSquadWork q a) db.submissions) with _ | n <;> rfl
  · obtain ⟨-, hn⟩ := newest_of_latestRows ok hline hs hasg hx hm ho hi
    rw [hn, if_neg (by simp)]
    rfl

theorem mem_realStudents {x : ℕ} : m ∈ db.realStudents isTest x ↔ (x, m) ∈ db.subjectsStudents ∧ isTest m = false := by
  unfold Db.realStudents
  rw [List.mem_filter, Finset.mem_sort, Finset.mem_image]
  simp only [Finset.mem_filter, Bool.not_eq_true', and_congr_left_iff]
  intro _
  constructor
  · rintro ⟨⟨x', m'⟩, ⟨hmem, rfl⟩, rfl⟩
    exact hmem
  · exact fun hmem => ⟨(x, m), ⟨hmem, rfl⟩, rfl⟩

theorem mem_fetchGridRows {x : ℕ} {row : GridSourceRow} : row ∈ db.fetchGridRows isTest x ↔
    ∃ m a asg o, ((x, m) ∈ db.subjectsStudents ∧ isTest m = false) ∧ (db.subjectsAssignments[a]? = some asg ∧ asg.subjectId = x) ∧
      o ∈ db.latestRows m a ∧ db.gridRow (db.sharedSubmissions x none) m a asg.minGrade o = row := by
  unfold Db.fetchGridRows
  simp only [List.mem_flatMap, mem_realStudents, List.mem_map, Table.mem_idsWhere, beq_iff_eq]
  constructor
  · rintro ⟨m, hm, a, ⟨asg, hasg, hx⟩, o, ho, rfl⟩
    exact ⟨m, a, asg, o, hm, ⟨hasg, hx⟩, ho, by simp [hasg]⟩
  · rintro ⟨m, a, asg, o, hm, ⟨hasg, hx⟩, ho, rfl⟩
    exact ⟨m, hm, a, ⟨asg, hasg, hx⟩, o, ho, by simp [hasg]⟩

theorem mem_boardRows {x : ℕ} {row : BoardRow} : row ∈ db.boardRows isTest x a ↔
    ∃ m o, ((x, m) ∈ db.subjectsStudents ∧ isTest m = false) ∧ o ∈ db.latestRows m a ∧
      db.boardRow (db.sharedSubmissions x (some a)) m a o = row := by
  unfold Db.boardRows
  simp only [List.mem_flatMap, mem_realStudents, List.mem_map]
  constructor
  · rintro ⟨m, hm, o, ho, hrow⟩
    exact ⟨m, o, hm, ho, hrow⟩
  · rintro ⟨m, o, hm, ho, hrow⟩
    exact ⟨m, hm, o, ho, hrow⟩

/-- In line, everybody sees the same. -/
theorem oneView_of_inLine (ok : db.Ok) (hline : db.InLine) : db.OneView isTest := by
  intro q s a asg hs hl hasg hx
  refine ⟨db.newestOf (Table.idsWhere (db.isSquadWork q a) db.submissions), fun m hm => ?_, fun m hm henrolled hreal => ?_,
    fun row hrow hm ha => ?_, fun row hrow hm => ?_⟩
  · exact latestSubmissionFor_work ok hs hl hasg hx hm
  · obtain ⟨o, ho⟩ := exists_mem_latestRows db m a
    exact ⟨⟨_, mem_fetchGridRows.mpr ⟨m, a, asg, o, ⟨henrolled, hreal⟩, ⟨hasg, hx⟩, ho, rfl⟩, rfl, rfl⟩,
      _, mem_boardRows.mpr ⟨m, o, ⟨henrolled, hreal⟩, ho, rfl⟩, rfl⟩
  · obtain ⟨t, a', asg', o, -, -, ho, rfl⟩ := mem_fetchGridRows.mp hrow
    cases ha
    exact gridRow_status ok hline hs hasg hx hm ho _
  · obtain ⟨t, o, -, ho, rfl⟩ := mem_boardRows.mp hrow
    exact boardRow_status ok hline hs hasg hx hm ho

/-! A step -/

theorem Evolves.isSquadWork (h : Evolves db db') (ok : db.Ok) (hsub : db.submissions[i]? = some sub)
    (hsub' : db'.submissions[i]? = some sub') : db'.isSquadWork q a sub' = db.isSquadWork q a sub := by
  obtain ⟨sub₁, hsub₁, hrow₁, -, hq, -⟩ := h.submission hsub
  rw [hsub', Option.some_inj] at hsub₁
  subst hsub₁
  obtain ⟨row, -, hrow, -⟩ := (ok.subs i sub hsub).owned
  obtain ⟨row', hrow', -, hasg⟩ := h.rows _ row hrow
  simp only [Db.isSquadWork, Db.asgIdOn, hq, hrow₁, hrow, hrow', Option.map_some, hasg]

/-- Steps that open in line keep the squads' work in line. -/
theorem Db.InLine.step (hline : db.InLine) (ok : db.Ok) (hop : db.OpensInLine op) : (db.step op).InLine := by
  intro i j q a sub₁ sub₁' hij hsub₁ hsub₁' hwork₁ hwork₁'
  have hev := evolves_step db op
  -- only the later one can be new
  have hold : i < db.submissions.length := by
    by_contra hout
    obtain ⟨hj, -⟩ := List.getElem?_eq_some_iff.mp hsub₁'
    obtain ⟨hlen, -⟩ := step_adds db op (by omega)
    omega
  have hsub := List.getElem?_eq_getElem hold
  obtain ⟨sub₂, hsub₂, hrow, -, -, hcreated⟩ := hev.submission hsub
  rw [hsub₁, Option.some_inj] at hsub₂
  subst hsub₂
  have hwork := (hev.isSquadWork ok hsub hsub₁).symm.trans hwork₁
  rcases Nat.lt_or_ge j db.submissions.length with hj | hj
  · have hsub' := List.getElem?_eq_getElem hj
    obtain ⟨sub₂', hsub₂', hrow', -, -, hcreated'⟩ := hev.submission hsub'
    rw [hsub₁', Option.some_inj] at hsub₂'
    subst hsub₂'
    have hwork' := (hev.isSquadWork ok hsub' hsub₁').symm.trans hwork₁'
    rw [hrow, hrow', hcreated, hcreated']
    exact hline i j q a _ _ hij hsub hsub' hwork hwork'
  · have hlt := (List.getElem?_eq_some_iff.mp hsub₁').1
    have hnew : (db.step op).submissions.length ≠ db.submissions.length := by omega
    obtain ⟨hlen, saId, sub', hopens, hsub', ⟨sa, asg, refuse, hsa, hasg, hsquad⟩, hrow', hcreated'⟩ := step_adds db op hnew
    obtain rfl : j = db.submissions.length := by omega
    rw [hsub₁', Option.some_inj] at hsub'
    subst hsub'
    -- it is made for the squad of the row's student, on the row's assignment
    simp only [Db.isSquadWork, Db.asgIdOn, Bool.and_eq_true, beq_iff_eq] at hwork₁'
    obtain ⟨hq, ha⟩ := hwork₁'
    obtain ⟨row, hrow₂, -, hrowasg⟩ := hev.rows saId sa hsa
    rw [hrow', hrow₂, Option.map_some, Option.some_inj, hrowasg] at ha
    rw [squadForUpload_eq ok.setup hsquad] at hq
    subst ha
    obtain ⟨hsame, hlater⟩ := hop saId sa asg q hopens hsa hasg hq hnew i _ hsub hwork
    rw [hrow, hrow', hcreated, hcreated']
    exact ⟨hsame.symm, hlater⟩

theorem opensInLine_of_all (h : ∀ saId, op.opensOn = some saId → ∀ sub ∈ db.submissions,
    sub.studentsAssignmentId = saId ∧ sub.createdAt < db.now) : db.OpensInLine op := by
  intro saId sa asg q hop _ _ _ _ i sub hsub _
  exact h saId hop sub (List.mem_of_getElem? hsub)

theorem Db.Start.inLine (h : db.Start) : db.InLine := by
  intro i j q a sub sub' _ hsub
  rw [h.submissions] at hsub
  cases hsub

/-- In a run whose squad submissions are all opened in line, everybody sees the same. -/
theorem squad_seen_alike {db₀ : Db} {ops : List Op} (hstart : db₀.Start) (h : Run Db.step Db.OpensInLine db₀ ops db) :
    db.OneView isTest := by
  have hinv : db.Ok ∧ db.InLine := by
    refine h.invariant (I := fun e => e.Ok ∧ e.InLine) ⟨hstart.ok, hstart.inLine⟩ fun e op hI hop => ?_
    exact ⟨hI.1.step op, hI.2.step hI.1 hop⟩
  exact oneView_of_inLine hinv.1 hinv.2

end

/-- Two students, a squad. -/
def pair : Db := oneSubject {} {} [[0, 1]] [0, 1]

theorem pair_start : pair.Start := oneSubject_start (by decide) (by simp)

/-- One of them uploads, and again a second later. -/
def uploadTwice : List Op := [.upload 0 0 true 1 .raises, .tick 1, .upload 0 0 true 1 .raises]

/-- The other one uploads the second, and its check fails. -/
def uploadEach : List Op :=
  [.upload 0 0 true 1 .raises, .tick 1, .upload 1 1 true 1 .raises, .processMessage 1 (.unusable "") .providerError]

/-- The first keeps seeing their own in the grid. -/
theorem squad_seen_apart : ¬ ∀ (isTest : ℕ → Bool) (db₀ db : Db) (ops : List Op), db₀.Start →
    Run Db.step Any db₀ ops db → db.OneView isTest := by
  intro hall
  have hview := hall (fun _ => false) pair _ uploadEach pair_start (run_foldl uploadEach)
  obtain ⟨latest, hseen⟩ := hview 0 { subjectId := 0, members := [0, 1], lockedAt := some 0 } 0
    { subjectId := 0, code := some "A" } (by decide +kernel) rfl (by decide +kernel) rfl
  have hfound : some 1 = latest := by
    rw [← hseen.found 0 (by decide)]
    decide +kernel
  subst hfound
  have hrow : (uploadEach.foldl Db.step pair).gridRow ((uploadEach.foldl Db.step pair).sharedSubmissions 0 none) 0 0 0
      (some 0, some 0) ∈ (uploadEach.foldl Db.step pair).fetchGridRows (fun _ => false) 0 :=
    mem_fetchGridRows.mpr ⟨0, 0, { subjectId := 0, code := some "A" }, (some 0, some 0), by decide +kernel,
      by decide +kernel, by decide +kernel, rfl⟩
  have hstatus := hseen.grid _ hrow (by decide +kernel) rfl
  exact absurd hstatus (by decide +kernel)

/-- Twice on one row they see the same. -/
theorem uploadTwice_seen : (uploadTwice.foldl Db.step pair).submissions.length = 2 ∧
    (uploadTwice.foldl Db.step pair).OneView fun _ => false := by
  have hchecks : Checks Db.step Db.OpensInLine pair uploadTwice := by
    refine ⟨opensInLine_of_all ?_, opensInLine_of_all ?_, opensInLine_of_all ?_, trivial⟩
    · rintro saId - sub hsub
      cases hsub
    · rintro saId hop
      cases hop
    · rintro saId hop
      cases hop
      decide +kernel
  exact ⟨by decide +kernel, squad_seen_alike pair_start (run_of_checks hchecks)⟩

end SubmissionsChecker
