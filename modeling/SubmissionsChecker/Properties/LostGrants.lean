import SubmissionsChecker.Invariants.Reachable
import SubmissionsChecker.Library.Assoc
import SubmissionsChecker.Sessions.Rows
import SubmissionsChecker.Sessions.StartCommits

/-! Grants and squad quiz starts side by side. Both keep what they store in one JSON value; a
start refreshes it under the row lock, a grant writes back the value it loaded before. -/

namespace SubmissionsChecker

open ReadCommitted Runs

namespace Db

/-- The extra attempts of a student on submission `i`. -/
def extra (db : Db) (i studentId : ℕ) : ℕ := ((db.submissions[i]?).map (·.extraAttempts (some studentId))).getD 0

end Db

/-- Grants and starts. -/
abbrev Attempting := Grant ⊕ Start

def attempting : Attempting → Stmt Db Attempting Row := both Grant.next Start.next

/-- A grant that writes finds the `source_metadata` it loaded. -/
def Attempting.WritesFresh (db : Db) : Attempting → Prop
  | .inl (.flushing i _ sub) => db.metadata i = some sub.metadata
  | _ => True

instance Attempting.decidableWritesFresh (db : Db) (l : Attempting) : Decidable (l.WritesFresh db) := by
  unfold Attempting.WritesFresh
  split <;> infer_instance

/-- What the sessions know: a grant has its submission, and its row when it writes. -/
def Attempting.Knows (db : Db) (H : Set Row) : Attempting → Prop
  | .inl (.loaded i _ _) | .inl (.granting i _ _) => (db.submissions[i]?).isSome = true
  | .inl (.flushing i _ _) => (db.submissions[i]?).isSome = true ∧ Row.submission i ∈ H
  | .inl _ => True
  | .inr l => l.Knows db H

section

variable {db db' : Db} {i j t t' saId : ℕ} {sub : Submission} {rnd : Shuffles}

theorem extraAttempts_setExtra (n : ℕ) (extras : List (ℕ × ℕ)) :
    ((setExtra t n extras).lookup t').getD 0 = if t' = t then n else (extras.lookup t').getD 0 := by
  have h := Assoc.lookup_set t t' n extras
  change (setExtra t n extras).lookup t' = _ at h
  rw [h]
  split_ifs <;> rfl

theorem Db.extra_eq : db.extra i t = ((db.metadata i).map fun m => (m.1.lookup t).getD 0).getD 0 := by
  unfold Db.extra Db.metadata
  cases db.submissions[i]? <;> rfl

theorem Db.drawOf_eq : db.drawOf i = (db.metadata i).bind (·.2) := by
  unfold Db.drawOf Db.metadata
  cases db.submissions[i]? <;> rfl

/-- A new submission has no extra attempts. -/
theorem openAndStart_extras (h : db.openAndStart saId t rnd = .ok db') (hnone : db.submissions[j]? = none)
    (hsub : db'.submissions[j]? = some sub) : sub.quizExtraAttempts = [] := by
  obtain ⟨new, sa, asg, plan, db₁, questions, -, -, hnew, -, -, hdraws, rfl⟩ := openAndStart_spec h
  have hrows := addOpened_submissions db new
  by_cases hj : db.submissions.length = j
  · subst hj
    obtain rfl | ⟨draw, rfl⟩ := hdraws
    · rw [hrows, Table.getElem?_concat_length] at hsub
      cases hsub
      exact hnew.metadata.1
    · simp only [Db.setSubmission_submissions, Table.getElem?_modify_self, hrows, Table.getElem?_concat_length,
        Option.map_some, Option.some_inj] at hsub
      subst hsub
      exact hnew.metadata.1
  · rw [show _ = _ from hdraws.submissions_ne hj, hrows] at hsub
    obtain hold | ⟨rfl, -⟩ := Table.getElem?_concat_some hsub
    · rw [hnone] at hold; cases hold
    · exact absurd rfl hj

theorem Attempting.writesUnder {l l' : Attempting} {f : Db → Db} {H : Set Row} (hB : l.Knows db H)
    (h : attempting l = .commit f l') : WritesUnder H db (f db) := by
  cases l with
  | inl l =>
    obtain ⟨k, hk, rfl⟩ := Stmt.map_commit.mp h
    cases l <;> cases hk
    exact writesUnder_setSubmission _ hB.2
  | inr l =>
    obtain ⟨k, hk, rfl⟩ := Stmt.map_commit.mp h
    exact Start.writesUnder hB hk

/-- The draw of submission `j` is the one committed before. -/
def KeepsDraw (j : ℕ) (draw : Option SquadDraw) (db : Db) : Prop := draw.isSome = true → db.drawOf j = draw

theorem attempting_rules (j : ℕ) (draw : Option SquadDraw) :
    Rules attempting (fun db l => l.WritesFresh db) (KeepsDraw j draw) (fun db H l => l.Knows db H) where
  read := by
    intro db H l f hA hB hok h
    cases l with
    | inl l =>
      obtain ⟨g, hg, rfl⟩ := Stmt.map_read.mp h
      cases l <;> cases hg
      case asked.refl i studentId =>
        change Attempting.Knows db H (.inl (Grant.load db i studentId))
        unfold Grant.load
        split
        · trivial
        · rename_i hsub
          split
          · trivial
          · exact Option.isSome_of_eq_some hsub
      case loaded.refl i studentId sub =>
        change Attempting.Knows db H (.inl (Grant.check db i studentId sub))
        unfold Grant.check
        split
        · exact hB
        · trivial
    | inr l =>
      obtain ⟨g, hg, rfl⟩ := Stmt.map_read.mp h
      exact Start.read_knows hB hg
  lock := by
    intro db H l k f hA hB hok h
    cases l with
    | inl l =>
      obtain ⟨g, hg, rfl⟩ := Stmt.map_lock.mp h
      cases l <;> cases hg
      exact ⟨hB, Set.mem_insert _ _⟩
    | inr l =>
      obtain ⟨g, hg, rfl⟩ := Stmt.map_lock.mp h
      exact Start.lock_knows hB hg
  commit := by
    intro db H l f l' hA hB hok h
    refine ⟨fun hsome => ?_, ?_⟩
    · have hdraw := hA hsome
      rw [← hdraw] at hsome
      obtain ⟨d, hd⟩ := Option.isSome_iff_exists.mp hsome
      obtain ⟨sub, hsub, hsubdraw⟩ := Option.bind_eq_some_iff.mp hd
      rw [← hdraw]
      cases l with
      | inl l =>
        obtain ⟨m, hm, rfl⟩ := Stmt.map_commit.mp h
        cases l <;> cases hm
        case flushing.refl i studentId cached =>
          rw [Db.drawOf_eq, Db.drawOf_eq, metadata_setSubmission]
          split_ifs with hi
          · subst hi
            have hfresh : db.metadata i = some cached.metadata := hok
            rw [hfresh, hsub]
            rfl
          · rfl
      | inr l =>
        obtain ⟨m, hm, rfl⟩ := Stmt.map_commit.mp h
        cases l <;> cases hm
        case inserting.refl saId studentId rnd =>
          change (Start.inserted db saId studentId rnd).drawOf j = _
          rw [Db.drawOf, Db.drawOf, hsub, inserted_keeps hsub]
        case drawn.refl i studentId attempt existing refreshed new =>
          change (db.setSubmission i (Start.storeDraw refreshed new)).drawOf j = _
          rw [Db.drawOf_eq, Db.drawOf_eq, metadata_setSubmission]
          split_ifs with hi
          · subst hi
            -- the draw was there when the row was locked, so it is not written again
            have hthis : some sub.metadata = some refreshed.metadata := by
              rw [← hB.1, Db.metadata, hsub, Option.map_some]
            have hold : refreshed.squadQuizDraw.isSome = true := by
              have hsame : sub.squadQuizDraw = refreshed.squadQuizDraw := congrArg Prod.snd (Option.some_inj.mp hthis)
              rw [← hsame]
              exact Option.isSome_of_eq_some hsubdraw
            rw [Db.metadata, hsub, Option.map_some, Option.map_some, Start.storeDraw, if_pos hold]
          · rfl
        case adding.refl => rfl
    · cases l with
      | inl l =>
        obtain ⟨m, hm, rfl⟩ := Stmt.map_commit.mp h
        cases l <;> cases hm
        trivial
      | inr l =>
        obtain ⟨m, hm, rfl⟩ := Stmt.map_commit.mp h
        exact Start.commit_knows hm
  rollback := by
    intro db H l l' _ hB _ h
    cases l with
    | inl l =>
      obtain ⟨m, hm, rfl⟩ := Stmt.map_rollback.mp h
      cases l <;> cases hm
    | inr l =>
      obtain ⟨m, hm, rfl⟩ := Stmt.map_rollback.mp h
      exact Start.rollback_knows hm
  others := by
    intro db H l f l' H' m _ hB _ h hm hdisjoint
    have hwrites := Attempting.writesUnder hB h
    cases m with
    | inl m =>
      cases m with
      | loaded => exact hwrites.stays _ hm
      | granting => exact hwrites.stays _ hm
      | flushing => exact ⟨hwrites.stays _ hm.1, hm.2⟩
      | _ => trivial
    | inr m => exact hm.others hwrites hdisjoint

/-- A session counts once its grant to `t` on submission `j` went through. -/
def Attempting.grants (j t : ℕ) : Attempting → ℕ
  | .inl (.granted i studentId) => if i = j ∧ studentId = t then 1 else 0
  | _ => 0

theorem attempting_counts (j t : ℕ) (draw : Option SquadDraw) :
    Counts attempting (fun db l => l.WritesFresh db) (KeepsDraw j draw) (fun db H l => l.Knows db H)
      (fun db => db.extra j t) (Attempting.grants j t) where
  read := by
    intro db H l f hA hB hok h
    cases l with
    | inl l =>
      obtain ⟨g, hg, rfl⟩ := Stmt.map_read.mp h
      cases l <;> cases hg
      case asked.refl i studentId =>
        change Attempting.grants j t (.inl (Grant.load db i studentId)) = 0
        unfold Grant.load
        repeat' split
        all_goals rfl
      case loaded.refl i studentId sub =>
        change Attempting.grants j t (.inl (Grant.check db i studentId sub)) = 0
        unfold Grant.check
        split <;> rfl
    | inr l =>
      obtain ⟨g, hg, rfl⟩ := Stmt.map_read.mp h
      rfl
  lock := by
    intro db H l k f hA hB hok h
    cases l with
    | inl l =>
      obtain ⟨g, hg, rfl⟩ := Stmt.map_lock.mp h
      cases l <;> cases hg
      rfl
    | inr l =>
      obtain ⟨g, hg, rfl⟩ := Stmt.map_lock.mp h
      rfl
  commit := by
    intro db H l f l' hA hB hok h
    cases l with
    | inl l =>
      obtain ⟨m, hm, rfl⟩ := Stmt.map_commit.mp h
      cases l <;> cases hm
      case flushing.refl i studentId cached =>
        have hfresh : db.metadata i = some cached.metadata := hok
        change (db.setSubmission i (cached.writeGrant studentId)).extra j t + 0 =
          db.extra j t + if i = j ∧ studentId = t then 1 else 0
        rw [Db.extra_eq, Db.extra_eq, metadata_setSubmission]
        by_cases hi : i = j
        · subst hi
          obtain ⟨sub, hsub, -⟩ := Option.map_eq_some_iff.mp hfresh
          rw [if_pos rfl, hsub, hfresh]
          change ((setExtra studentId _ cached.quizExtraAttempts).lookup t).getD 0 + 0 =
            (cached.quizExtraAttempts.lookup t).getD 0 + _
          rw [extraAttempts_setExtra]
          by_cases ht : t = studentId
          · subst ht
            rw [if_pos rfl, if_pos ⟨rfl, rfl⟩]
            rfl
          · rw [if_neg ht, if_neg fun h => ht h.2.symm]
        · rw [if_neg hi, if_neg fun h => hi h.1]
    | inr l =>
      obtain ⟨m, hm, rfl⟩ := Stmt.map_commit.mp h
      change Db.extra _ j t + 0 = db.extra j t + 0
      cases l <;> cases hm
      case inserting.refl saId studentId rnd =>
        change (Start.inserted db saId studentId rnd).extra j t + 0 = db.extra j t + 0
        obtain hsame | ho := inserted_cases db saId studentId rnd
        · rw [hsame]
        cases hsub : db.submissions[j]? with
        | some sub => rw [Db.extra, Db.extra, hsub, inserted_keeps hsub]
        | none =>
          have hbefore : db.extra j t = 0 := by rw [Db.extra, hsub]; rfl
          rw [hbefore]
          cases hnew : (Start.inserted db saId studentId rnd).submissions[j]? with
          | none => rw [Db.extra, hnew]; rfl
          | some sub =>
            rw [Db.extra, hnew, Option.map_some, Submission.extraAttempts, openAndStart_extras ho hsub hnew]
            rfl
      case drawn.refl i studentId attempt existing refreshed new =>
        change (db.setSubmission i (Start.storeDraw refreshed new)).extra j t + 0 = _
        rw [Db.extra_eq, Db.extra_eq, metadata_setSubmission]
        split_ifs with hi
        · subst hi
          obtain ⟨sub, hsub, hsame⟩ := Option.map_eq_some_iff.mp hB.1
          have hextras : sub.quizExtraAttempts = refreshed.quizExtraAttempts := congrArg Prod.fst hsame
          rw [hB.1, hsub, Option.map_some, Option.map_some, Start.storeDraw]
          split
          · rw [hsame]
            rfl
          · rfl
        · rfl
      case adding.refl => rfl
  rollback := by
    intro db H l l' hA hB hok h
    cases l with
    | inl l =>
      obtain ⟨m, hm, rfl⟩ := Stmt.map_rollback.mp h
      cases l <;> cases hm
    | inr l =>
      obtain ⟨m, hm, rfl⟩ := Stmt.map_rollback.mp h
      rfl

end

section

variable {P : Type*} [Fintype P]

/-- How many grants to a student on submission `j` went through. -/
def granted (st : State Db P Attempting Row) (j t : ℕ) : ℕ := total (Attempting.grants j t) st

/-- All sessions are about to begin. -/
def AllAsked (session : P → Attempting) : Prop := ∀ p,
  (∃ i t, session p = .inl (.asked i t)) ∨ ∃ saId t rnd, session p = .inr (.asked saId t rnd)

variable [DecidableEq P] {db : Db} {session : P → Attempting} {st st' : State Db P Attempting Row} {ps ps' : List P}

/-- When every grant writes over the value it loaded, none is lost and a committed draw stays. -/
theorem no_grant_lost (hasked : AllAsked session)
    (h : Run (step attempting) (Ok fun db l => l.WritesFresh db) (start db session) ps st)
    (h' : Run (step attempting) (Ok fun db l => l.WritesFresh db) st ps' st') :
    (∀ j t, st'.store.extra j t = db.extra j t + granted st' j t) ∧
      ∀ j, (st.store.drawOf j).isSome = true → st'.store.drawOf j = st.store.drawOf j := by
  have hstart : ∀ j, Holds (KeepsDraw j none) (fun db H l => l.Knows db H) (start db session : State Db P Attempting Row) := by
    refine fun j => ⟨nofun, fun p => ?_⟩
    change (session p).Knows db _
    obtain ⟨i, t, hp⟩ | ⟨saId, t, rnd, hp⟩ := hasked p <;> rw [hp] <;> trivial
  refine ⟨fun j t => ?_, fun j hsome => ?_⟩
  · have hmoves := (attempting_counts j t none).run (attempting_rules j none) (hstart j) (h.append h')
    have hnone : total (Attempting.grants j t) (start db session : State Db P Attempting Row) = 0 :=
      Finset.sum_eq_zero fun p _ => by
        change Attempting.grants j t (session p) = 0
        obtain ⟨i, s, hp⟩ | ⟨saId, s, rnd, hp⟩ := hasked p <;> rw [hp] <;> rfl
    rw [hnone, Nat.add_zero] at hmoves
    exact hmoves
  · have hmid := (hstart j).run (attempting_rules j none) h
    have hend := Holds.run (attempting_rules j (st.store.drawOf j)) ⟨fun _ => rfl, hmid.2⟩ h'
    exact hend.1 hsome

end

/-- A squad of two that both failed their only attempt. -/
def exhaustedSquad : Db :=
  oneSubject { reviewMode := some .quizOnly, quiz :=
      { questions := [{ type := .trueFalse }, { type := .trueFalse }], maxQuizAttempts := some 1 } } {} [[0, 1]] [0, 1]

def bothFail : List Op :=
  [.upload 0 0 true 1 (.tested true 1 1), .startQuiz 0 0 {}, .startQuiz 1 1 {}, .submitQuiz 0 0 (fun _ => false) false,
    .submitQuiz 1 1 (fun _ => false) false]

/-- The teacher grants each member another attempt. -/
def grantBoth (p : Fin 2) : Attempting := .inl (.asked 0 (some p))

/-- Both grants load the extra attempts before either writes them: one of the two is lost. -/
theorem grant_lost : ¬ ∀ (n : ℕ) (db₀ db : Db) (ops : List Op) (session : Fin n → Attempting)
    (st st' : State Db (Fin n) Attempting Row) (ps ps' : List (Fin n)), db₀.Start → Run Db.step Any db₀ ops db →
    AllAsked session → Run (step attempting) Any (start db session) ps st → Run (step attempting) Any st ps' st' →
    (∀ j t, st'.store.extra j t = db.extra j t + granted st' j t) ∧
      ∀ j, (st.store.drawOf j).isSome = true → st'.store.drawOf j = st.store.drawOf j := by
  intro hall
  have h := hall 2 exhaustedSquad _ bothFail grantBoth _ _ [0, 1, 0, 1, 0, 0, 1, 1] [] (oneSubject_start (by decide) (by simp))
    (run_foldl _) (fun p => .inl ⟨0, some p, rfl⟩) (run_foldl _) .nil
  exact absurd (h.1 0 0) (by decide +kernel)

/-- One after the other, each member gets one. -/
theorem grantBoth_kept :
    let st := [0, 0, 0, 0, 1, 1, 1, 1].foldl (step attempting) (start (bothFail.foldl Db.step exhaustedSquad) grantBoth)
    st.store.extra 0 0 = 1 ∧ st.store.extra 0 1 = 1 := by
  have hasked : AllAsked grantBoth := fun p => .inl ⟨0, some p, rfl⟩
  have hchecks : Checks (step attempting) (Ok fun db l => l.WritesFresh db)
      (start (bothFail.foldl Db.step exhaustedSquad) grantBoth) [0, 0, 0, 0, 1, 1, 1, 1] := by decide +kernel
  have h := no_grant_lost hasked (run_of_checks hchecks) .nil
  exact ⟨(h.1 0 0).trans (by decide +kernel), (h.1 0 1).trans (by decide +kernel)⟩

end SubmissionsChecker
