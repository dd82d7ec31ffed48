import SubmissionsChecker.Sessions.StartCommits

/-! Quiz openings of squad mates side by side. Each locks a row of its own, so two of them can
find nothing to reuse and both open a submission for the squad. -/

namespace SubmissionsChecker

open ReadCommitted Runs

/-- Submission `j` is squad `q`'s work for the assignment, outside the re-openable statuses. -/
def Db.IsLive (db : Db) (q asgId j : ℕ) : Prop :=
  ∃ sub row, db.SquadWork q asgId j sub row ∧ sub.status.isReopenable = false

/-- At most one submission of the squad and the assignment is live. -/
def Db.OneLive (db : Db) (q asgId : ℕ) : Prop := ∀ i j, db.IsLive q asgId i → db.IsLive q asgId j → i = j

/-- A start that commits a new submission would still find nothing to reuse. -/
def Start.OpensAlone (db : Db) : Start → Prop
  | .inserting saId _ _ => (db.lookUp [] saId).all (·.2.status.isReopenable) = true
  | _ => True

instance (db : Db) (l : Start) : Decidable (l.OpensAlone db) := by
  unfold Start.OpensAlone
  split <;> infer_instance

section

variable {db db' : Db} {saId t q asgId i j : ℕ} {sa : StudentAssignment} {asg : SubjectsAssignment} {rnd : Shuffles}
  {H : Set Row}

/-- A live submission was live before, if it was there. -/
theorem IsLive.before (ok : db.Shared) (hev : Evolves db db') (hkeep : SubsKeep db db') (hlive : db'.IsLive q asgId j)
    {sub : Submission} (hs : db.submissions[j]? = some sub) : db.IsLive q asgId j := by
  obtain ⟨sub', row', hwork, hst⟩ := hlive
  obtain ⟨s, hs', hsaid, -, hsquad, -⟩ := hev.submission hs
  rw [hwork.submission] at hs'
  cases hs'
  obtain ⟨row, -, hrow, -⟩ := (ok.subs j sub hs).assignment
  obtain ⟨row₁, hrow₁, -, hrowasg⟩ := hev.rows _ row hrow
  rw [← hsaid, hwork.owned] at hrow₁
  cases hrow₁
  exact ⟨sub, row, ⟨hs, hsquad ▸ hwork.squad, hrow, hrowasg ▸ hwork.assignment⟩, hkeep.status hs hwork.submission ▸ hst⟩

/-- Nothing on a row of a scored assignment is re-openable, so a look-up that finds the squad's
work finds something to reuse. -/
theorem lookUp_live (ok : db.Shared) (hsa : db.studentsAssignments[saId]? = some sa)
    (hasg : db.subjectsAssignments[sa.subjectsAssignmentId]? = some asg) (hscored : asg.config.isScoredMode = true)
    (hq : db.squadOf asg.subjectId sa.studentId = some q) (hlive : db.IsLive q sa.subjectsAssignmentId j) :
    (db.lookUp [] saId).all (·.2.status.isReopenable) = false := by
  obtain ⟨sub, row, hwork, -⟩ := hlive
  obtain ⟨s, hs, hp⟩ := Table.findId_some hq
  simp only [Bool.and_eq_true, beq_iff_eq, List.contains_iff_mem] at hp
  obtain ⟨s', hs', hlocked⟩ := (ok.subs j sub hwork.submission).locked q hwork.squad
  rw [hs] at hs'
  cases hs'
  obtain ⟨row', -, s', hrow', -, hs', -, hmember⟩ := (ok.subs j sub hwork.submission).member hwork.squad
  rw [hs] at hs'
  cases hs'
  rw [hwork.owned] at hrow'
  cases hrow'
  obtain ⟨i, hi⟩ := latestSubmission_covers ok.unique ok.setup hsa hasg hs hp.1 hlocked hp.2 hwork hmember
  obtain ⟨sub₀, row₀, -, hsub₀, hrow₀, hrowasg₀, -⟩ := latestSubmission_reaches hsa hasg hi
  rw [latestSubmission_submissions] at hsub₀
  have ok₀ := ok.subs i sub₀ hsub₀
  -- the row found is on the same assignment
  obtain ⟨row₁, asg₁, hrow₁, hasg₁, hassigned⟩ := ok₀.assignment
  obtain ⟨row₂, hrow₂, -, hrowasg₂⟩ := (within_latestSubmission .grades db saId).rows _ row₁ hrow₁
  rw [hrow₀] at hrow₂
  cases hrow₂
  rw [← hrowasg₂, hrowasg₀, hasg] at hasg₁
  cases hasg₁
  have hno := ok₀.scored asg hassigned hscored
  rw [Db.lookUp, hi, Option.bind_some, Db.load, hsub₀]
  exact hno

/-- A start that opens alone keeps the one live submission. -/
theorem OneLive.inserted (ok : db.Shared) (hone : db.OneLive q asgId) (howns : db.Owns saId t)
    (halone : (db.lookUp [] saId).all (·.2.status.isReopenable) = true)
    (h : db.openAndStart saId t rnd = .ok db') : db'.OneLive q asgId := by
  have hev := openAndStart_evolves h
  have hkeep := openAndStart_subsKeep h
  obtain ⟨new, sa, asg, -, -, -, hsa, hasg, hnew, -⟩ := openAndStart_spec h
  obtain ⟨asg', -, -, -, hassigned, hscored, -⟩ := hnew.scored
  rw [Db.assignmentOf, hsa, Option.bind_some, hasg, Option.some_inj] at hassigned
  subst hassigned
  -- a new live submission next to an old one would have been found
  have hboth : ∀ i j, db.submissions[i]? = none → db'.IsLive q asgId i → db.IsLive q asgId j → False := by
    intro i j hnone hi hj
    obtain ⟨sub', row', hwork, -⟩ := hi
    obtain ⟨hn, hrowid⟩ := openAndStart_new ok.setup howns h hnone hwork.submission
    obtain ⟨row, hrow, hst, hrowasg⟩ := hev.rows saId sa hsa
    have howned := hwork.owned
    rw [hrowid, hrow] at howned
    cases howned
    have hasgId : sa.subjectsAssignmentId = asgId := hrowasg.symm.trans hwork.assignment
    obtain ⟨row₁, asg₁, hrow₁, hasg₁, hsquad⟩ := hn.ok.owned
    rw [hrowid, hrow] at hrow₁
    cases hrow₁
    rw [hrowasg, hev.subjectsAssignments, hasg] at hasg₁
    cases hasg₁
    rw [hwork.squad, hst, hev.squadOf] at hsquad
    subst hasgId
    rw [lookUp_live ok hsa hasg hscored hsquad.symm hj] at halone
    cases halone
  intro i j hi hj
  cases hsi : db.submissions[i]? with
  | some sub =>
    have hi' := IsLive.before ok hev hkeep hi hsi
    cases hsj : db.submissions[j]? with
    | some sub' => exact hone i j hi' (IsLive.before ok hev hkeep hj hsj)
    | none => exact (hboth j i hsj hj hi').elim
  | none =>
    cases hsj : db.submissions[j]? with
    | some sub' => exact (hboth i j hsi hi (IsLive.before ok hev hkeep hj hsj)).elim
    | none =>
      obtain ⟨sub₁, row₁, hwork₁, -⟩ := hi
      obtain ⟨sub₂, row₂, hwork₂, -⟩ := hj
      rw [(openAndStart_new ok.setup howns h hsi hwork₁.submission).1.index,
        (openAndStart_new ok.setup howns h hsj hwork₂.submission).1.index]

/-- A commit that adds no submission keeps the one live submission. -/
theorem OneLive.kept (ok : db.Shared) (hone : db.OneLive q asgId) (hev : Evolves db db') (hkeep : SubsKeep db db')
    (hlen : db'.submissions.length = db.submissions.length) : db'.OneLive q asgId := by
  have hbefore : ∀ i, db'.IsLive q asgId i → db.IsLive q asgId i := by
    intro i hi
    have hlt : i < db.submissions.length := by
      obtain ⟨sub, row, hwork, -⟩ := hi
      rw [← hlen]
      exact (List.getElem?_eq_some_iff.mp hwork.submission).1
    exact IsLive.before ok hev hkeep hi (List.getElem?_eq_getElem hlt)
  exact fun i j hi hj => hone i j (hbefore i hi) (hbefore j hj)

theorem starts_rules (q asgId : ℕ) : Rules Start.next (fun db l => l.OpensAlone db)
    (fun db => db.Shared ∧ db.OneLive q asgId) (fun db H l => l.Knows db H) where
  read _ hB _ h := Start.read_knows hB h
  lock _ hB _ h := Start.lock_knows hB h
  commit := by
    intro db H l f l' hA hB hok h
    obtain ⟨ok, hone⟩ := hA
    obtain ⟨hev, hkeep⟩ := Start.commit_evolves hB h
    refine ⟨⟨Start.commit_shared ok hB h, ?_⟩, Start.commit_knows h⟩
    obtain hlen | ⟨saId, t, rnd, rfl, ho⟩ := Start.commit_cases db h
    · exact OneLive.kept ok hone hev hkeep hlen
    · exact OneLive.inserted ok hone hB hok ho
  rollback _ _ _ h := Start.rollback_knows h
  others hA hB hok h hm hdisjoint := hm.others (Start.writesUnder hB h) hdisjoint

end

section

variable {P : Type*} [DecidableEq P] {db₀ db : Db} {ops : List Op} {session : P → Start} {st : State Db P Start Row}
  {ps : List P} {q asgId : ℕ}

/-- When every start that opens a submission would still find nothing to reuse, at most one is live. -/
theorem one_live_submission (hstart : db₀.Start) (hops : Run Db.step Any db₀ ops db) (hone : db.OneLive q asgId)
    (hasked : ∀ p, ∃ saId t rnd, session p = .asked saId t rnd)
    (h : Run (step Start.next) (Ok fun db l => l.OpensAlone db) (start db session) ps st) : st.store.OneLive q asgId := by
  have hstart : Holds (fun db => db.Shared ∧ db.OneLive q asgId) (fun db H l => l.Knows db H)
      (start db session : State Db P Start Row) := by
    refine ⟨⟨(ok_of_run hstart hops).shared, hone⟩, fun p => ?_⟩
    change (session p).Knows db _
    obtain ⟨saId, t, rnd, hp⟩ := hasked p
    rw [hp]
    trivial
  exact (hstart.run (starts_rules q asgId) h).1.2

end

/-- A scored assignment with a quiz, for a squad of two that is locked. -/
def lockedSquad : Db :=
  (oneSubject { reviewMode := some .quizAndTeacherScores, quiz := { questions := [{ type := .trueFalse }, { type := .trueFalse }] } }
    {} [[0, 1]] [0, 1]).lockOnSubmit 0

theorem lockedSquad_start : lockedSquad.Start :=
  (oneSubject_start (by decide) (by simp)).lock 0

/-- Both members open the quiz. -/
def openBoth (p : Fin 2) : Start := .asked p p {}

theorem lockedSquad_oneLive : lockedSquad.OneLive 0 0 := by
  rintro i j ⟨sub, row, hwork, -⟩
  have := hwork.submission
  simp [lockedSquad_start.submissions] at this

/-- Each locks their own row, finds nothing and opens a submission for the squad. -/
theorem two_live_submissions : ¬ ∀ (n : ℕ) (db₀ db : Db) (ops : List Op) (session : Fin n → Start)
    (st : State Db (Fin n) Start Row) (ps : List (Fin n)) (q asgId : ℕ), db₀.Start → Run Db.step Any db₀ ops db →
    db.OneLive q asgId → (∀ p, ∃ saId t rnd, session p = .asked saId t rnd) →
    Run (step Start.next) Any (start db session) ps st → st.store.OneLive q asgId := by
  intro hall
  have h := hall 2 lockedSquad _ [] openBoth _ [0, 1, 0, 1, 0, 1, 0, 1, 0, 1, 0, 1] 0 0 lockedSquad_start .nil
    lockedSquad_oneLive (fun p => ⟨p, p, {}, rfl⟩) (run_foldl _)
  exact absurd (h 0 1 ⟨_, _, ⟨rfl, rfl, rfl, rfl⟩, rfl⟩ ⟨_, _, ⟨rfl, rfl, rfl, rfl⟩, rfl⟩) (by decide)

/-- When the first has committed, the second starts on its submission. -/
theorem openBoth_one_live :
    let st := [0, 0, 0, 0, 0, 0, 1, 1, 1, 1, 1, 1].foldl (step Start.next) (start lockedSquad openBoth)
    st.store.submissions.length = 1 ∧ st.store.quizAttempts.length = 2 ∧ st.store.OneLive 0 0 :=
  ⟨by decide +kernel, by decide +kernel, one_live_submission lockedSquad_start .nil lockedSquad_oneLive
    (fun p => ⟨p, p, {}, rfl⟩) (run_of_checks (by decide +kernel))⟩

end SubmissionsChecker
