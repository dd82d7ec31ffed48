import SubmissionsChecker.Invariants.Scopes
import SubmissionsChecker.Sessions.Starts

/-! What a start request knows at each point, and what it leaves to the others when it commits. -/

namespace SubmissionsChecker

open ReadCommitted

/-- What a commit under the rows `H` leaves: submissions stay, and keep their metadata unless the
row was held; rows keep their student. -/
structure WritesUnder (H : Set Row) (db db' : Db) : Prop where
  stays : ∀ i : ℕ, (db.submissions[i]?).isSome = true → (db'.submissions[i]?).isSome = true
  keeps : ∀ i : ℕ, (db.submissions[i]?).isSome = true → Row.submission i ∉ H → db'.metadata i = db.metadata i
  owns : ∀ saId t, db.Owns saId t → db'.Owns saId t

/-- What a start knows: it opens the quiz on the student's own row, and it has the metadata it
writes as they are, under the row lock. -/
def Start.Knows (db : Db) (H : Set Row) : Start → Prop
  | .opening saId t _ _ | .opened saId t _ _ | .creating saId t _ | .inserting saId t _ => db.Owns saId t
  | .drawn i _ _ _ refreshed _ => db.metadata i = some refreshed.metadata ∧ Row.submission i ∈ H
  | _ => True

section

variable {db db' db₁ : Db} {i j k t saId : ℕ} {sub : Submission} {rnd : Shuffles} {H H' : Set Row}

theorem metadata_isSome {m : List (ℕ × ℕ) × Option SquadDraw} (h : db.metadata i = some m) :
    (db.submissions[i]?).isSome = true := by
  obtain ⟨sub, hsub, -⟩ := Option.map_eq_some_iff.mp h
  exact Option.isSome_of_eq_some hsub

theorem metadata_setSubmission (f : Submission → Submission) :
    (db.setSubmission i f).metadata j = if i = j then (db.submissions[j]?).map fun s => (f s).metadata else db.metadata j := by
  unfold Db.metadata
  rw [Db.setSubmission_submissions, List.getElem?_modify]
  split_ifs with h
  · cases db.submissions[j]? <;> rfl
  · cases db.submissions[j]? <;> rfl

theorem setSubmission_congr {f g : Submission → Submission} (h : ∀ s, db.submissions[i]? = some s → f s = g s) :
    db.setSubmission i f = db.setSubmission i g := by
  unfold Db.setSubmission
  congr 1
  apply List.ext_getElem?
  intro j
  rw [List.getElem?_modify, List.getElem?_modify]
  split_ifs with hj
  · subst hj
    cases hs : db.submissions[i]? with
    | none => rfl
    | some s => exact congrArg some (h s hs)
  · rfl

theorem setSubmission_self (db : Db) (i : ℕ) : db.setSubmission i (fun s => s) = db := by
  unfold Db.setSubmission
  congr 1
  apply List.ext_getElem?
  intro j
  rw [List.getElem?_modify]
  split_ifs <;> cases db.submissions[j]? <;> rfl

/-! The shared draw -/

theorem Draws.evolves (h : Draws i db db₁) : Evolves db db₁ := by
  obtain rfl | ⟨draw, rfl⟩ := h
  · exact .refl _
  · exact evolves_setSubmission db i fun _ => rfl

theorem Draws.subsKeep (h : Draws i db db₁) : SubsKeep db db₁ := by
  obtain rfl | ⟨draw, rfl⟩ := h
  · exact .same rfl
  · exact subsKeep_setSubmission db fun _ _ => ⟨rfl, rfl, rfl⟩

theorem Draws.gradesDone (h : Draws i db db₁) : GradesDone db db₁ := by
  obtain rfl | ⟨draw, rfl⟩ := h
  · exact .same rfl
  · exact gradesDone_setSubmission db i fun _ _ => ⟨rfl, id⟩

/-- Only row `i` is written. -/
theorem Draws.submissions_ne (h : Draws i db db₁) (hj : i ≠ j) : db₁.submissions[j]? = db.submissions[j]? := by
  obtain rfl | ⟨draw, rfl⟩ := h
  · rfl
  · rw [Db.setSubmission_submissions, Table.getElem?_modify_ne _ hj]

/-- With the metadata as they are, at most the draw is written. -/
theorem storeDraw_draws {refreshed : Submission} {draw : SquadDraw} (h : db.metadata i = some refreshed.metadata) :
    Draws i db (db.setSubmission i (Start.storeDraw refreshed draw)) := by
  obtain ⟨sub, hsub, hsame⟩ := Option.map_eq_some_iff.mp h
  have hextras : sub.quizExtraAttempts = refreshed.quizExtraAttempts := congrArg Prod.fst hsame
  by_cases hdrawn : refreshed.squadQuizDraw.isSome = true
  · left
    have hstore : db.setSubmission i (Start.storeDraw refreshed draw) = db.setSubmission i fun s => s :=
      setSubmission_congr fun s _ => if_pos hdrawn
    rw [hstore, setSubmission_self]
  · right
    refine ⟨draw, setSubmission_congr fun s hs => ?_⟩
    rw [hsub, Option.some_inj] at hs
    subst hs
    rw [Start.storeDraw, if_neg hdrawn, ← hextras]

/-! A new submission with its first attempt -/

theorem addOpened_evolves (db : Db) (sub : Submission) : Evolves db (db.addOpened sub) :=
  (evolves_addSubmission db sub).trans (evolves_setSubmission _ _ fun _ => rfl)

theorem addOpened_subsKeep (db : Db) (sub : Submission) : SubsKeep db (db.addOpened sub) := fun j s hs =>
  ⟨s, by rw [addOpened_submissions]; exact Table.getElem?_append_old hs, rfl, rfl, rfl⟩

theorem openAndStart_evolves (h : db.openAndStart saId t rnd = .ok db') : Evolves db db' := by
  obtain ⟨new, sa, asg, plan, db₁, questions, -, -, -, -, -, hdraws, rfl⟩ := openAndStart_spec h
  exact ((addOpened_evolves db new).trans hdraws.evolves).trans (evolves_addAttempt _ _)

theorem openAndStart_subsKeep (h : db.openAndStart saId t rnd = .ok db') : SubsKeep db db' := by
  obtain ⟨new, sa, asg, plan, db₁, questions, -, -, -, -, -, hdraws, rfl⟩ := openAndStart_spec h
  exact ((addOpened_subsKeep db new).trans hdraws.subsKeep).trans (.same rfl)

/-- The new submission is a proper one. -/
theorem openAndStart_new (hsetup : db.Setup) (howns : db.Owns saId t) (h : db.openAndStart saId t rnd = .ok db')
    (hnone : db.submissions[j]? = none) (hs' : db'.submissions[j]? = some sub) :
    NewSubmission db db' j sub ∧ sub.studentsAssignmentId = saId := by
  obtain ⟨new, sa, asg, plan, db₁, questions, hsa, -, hnew, -, -, hdraws, rfl⟩ := openAndStart_spec h
  obtain ⟨sa', hsa', hst⟩ := howns
  rw [hsa] at hsa'
  cases hsa'
  obtain ⟨-, -, -, c, -, -, -, -, -, hpin⟩ := hnew.scored
  have hopened : Opened db saId (db.addOpened new) db.submissions.length :=
    .opened (hnew.adds hsa hst) (by rw [hpin]; nofun)
  have hlen : (db.addOpened new).submissions.length = db.submissions.length + 1 := by
    rw [addOpened_submissions, List.length_append, List.length_singleton]
  have hlen₁ : db₁.submissions.length = db.submissions.length + 1 := by
    rw [← hlen]
    obtain rfl | ⟨draw, rfl⟩ := hdraws
    · rfl
    · exact List.length_modify ..
  obtain rfl : j = db.submissions.length := by
    have h₁ := List.getElem?_eq_none_iff.mp hnone
    have h₂ := (List.getElem?_eq_some_iff.mp hs').1
    change j < db₁.submissions.length at h₂
    omega
  have hev : Evolves (db.addOpened new) db₁ := hdraws.evolves
  refine ⟨hopened.new hsetup (hev.trans (evolves_addAttempt _ _)) (hdraws.subsKeep.trans (.same rfl))
    (hdraws.gradesDone.trans (.same rfl)) hs' (by rw [hlen]; omega), ?_⟩
  have hadded : (db.addOpened new).submissions[db.submissions.length]? = some { new with status := .quizSent } := by
    rw [addOpened_submissions]
    exact Table.getElem?_concat_length _ _
  obtain ⟨sub', hsub', horigin, -⟩ := hev.submission hadded
  rw [show _ = _ from hs', Option.some_inj] at hsub'
  subst hsub'
  exact horigin.trans hnew.row

/-- A submission opened and started leaves the others as they were. -/
theorem openAndStart_keeps (h : db.openAndStart saId t rnd = .ok db') (hs : db.submissions[j]? = some sub) :
    db'.submissions[j]? = some sub := by
  obtain ⟨new, sa, asg, plan, db₁, questions, -, -, -, -, -, hdraws, rfl⟩ := openAndStart_spec h
  have hj : db.submissions.length ≠ j := by
    have := (List.getElem?_eq_some_iff.mp hs).1
    omega
  refine (hdraws.submissions_ne hj).trans ?_
  rw [addOpened_submissions]
  exact Table.getElem?_append_old hs

/-- What is committed for a start that opens a submission. -/
def Start.inserted (db : Db) (saId t : ℕ) (rnd : Shuffles) : Db := ((db.openAndStart saId t rnd).toOption).getD db

theorem inserted_cases (db : Db) (saId t : ℕ) (rnd : Shuffles) :
    Start.inserted db saId t rnd = db ∨ db.openAndStart saId t rnd = .ok (Start.inserted db saId t rnd) := by
  unfold Start.inserted
  cases db.openAndStart saId t rnd with
  | error e => exact .inl rfl
  | ok db' => exact .inr rfl

theorem inserted_keeps (hs : db.submissions[j]? = some sub) :
    (Start.inserted db saId t rnd).submissions[j]? = some sub := by
  obtain h | h := inserted_cases db saId t rnd
  · rw [h, hs]
  · exact openAndStart_keeps h hs

/-! The steps of a start -/

theorem Db.Owns.evolves (h : db.Owns saId t) (hev : Evolves db db') : db'.Owns saId t := by
  obtain ⟨sa, hsa, hst⟩ := h
  obtain ⟨sa', hsa', hst', -⟩ := hev.rows saId sa hsa
  exact ⟨sa', hsa', hst'.trans hst⟩

theorem Start.commit_evolves {l l' : Start} {f : Db → Db} (hB : l.Knows db H) (h : l.next = .commit f l') :
    Evolves db (f db) ∧ SubsKeep db (f db) := by
  cases l <;> cases h
  case inserting saId t rnd =>
    change Evolves db (Start.inserted db saId t rnd) ∧ SubsKeep db (Start.inserted db saId t rnd)
    obtain h | h := inserted_cases db saId t rnd
    · rw [h]
      exact ⟨.refl db, .same rfl⟩
    · exact ⟨openAndStart_evolves h, openAndStart_subsKeep h⟩
  case drawn i t attempt existing refreshed draw =>
    have hdraws : Draws i db (db.setSubmission i (Start.storeDraw refreshed draw)) := storeDraw_draws hB.1
    exact ⟨hdraws.evolves.trans (evolves_addAttempt _ _), hdraws.subsKeep.trans (.same rfl)⟩
  case adding i t attempt existing => exact ⟨evolves_addAttempt _ _, .same rfl⟩

/-- A commit either keeps the number of submissions or opens one. -/
theorem Start.commit_cases {l l' : Start} {f : Db → Db} (db : Db) (h : l.next = .commit f l') :
    (f db).submissions.length = db.submissions.length ∨
      ∃ saId t rnd, l = .inserting saId t rnd ∧ db.openAndStart saId t rnd = .ok (f db) := by
  cases l <;> cases h
  case inserting saId t rnd =>
    obtain hsame | ho := inserted_cases db saId t rnd
    · exact .inl (congrArg (·.submissions.length) hsame)
    · exact .inr ⟨saId, t, rnd, rfl, ho⟩
  case drawn => exact .inl (List.length_modify ..)
  case adding => exact .inl rfl

/-- The shared work stays proper. -/
theorem Start.commit_shared {l l' : Start} {f : Db → Db} (ok : db.Shared) (hB : l.Knows db H)
    (h : l.next = .commit f l') : (f db).Shared := by
  obtain ⟨hev, hkeep⟩ := Start.commit_evolves hB h
  refine ok.evolves hev (fun i sub sub' hs hs' hre => hkeep.status hs hs' ▸ hre) fun i sub' hnone hs' => ?_
  obtain hlen | ⟨saId, t, rnd, rfl, ho⟩ := Start.commit_cases db h
  · have h₁ := List.getElem?_eq_none_iff.mp hnone
    have h₂ := (List.getElem?_eq_some_iff.mp hs').1
    omega
  · exact (openAndStart_new ok.setup hB ho hnone hs').1.ok.shared hs'

theorem writesUnder_setSubmission (f : Submission → Submission) (h : Row.submission i ∈ H) :
    WritesUnder H db (db.setSubmission i f) where
  stays j hj := by
    rw [Db.setSubmission_submissions, List.getElem?_modify]
    simpa using hj
  keeps j _ hj := by
    have hne : i ≠ j := fun heq => hj (heq ▸ h)
    rw [metadata_setSubmission, if_neg hne]
  owns saId t h := h

theorem Start.writesUnder {l l' : Start} {f : Db → Db} (hB : l.Knows db H) (h : l.next = .commit f l') :
    WritesUnder H db (f db) := by
  have hev := (Start.commit_evolves hB h).1
  cases l <;> cases h
  case inserting saId t rnd =>
    refine ⟨fun i hi => ?_, fun i hi _ => ?_, fun _ _ h => h.evolves hev⟩ <;>
      obtain ⟨sub, hsub⟩ := Option.isSome_iff_exists.mp hi
    · exact Option.isSome_of_eq_some (inserted_keeps hsub)
    · exact congrArg (Option.map Submission.metadata) ((inserted_keeps hsub).trans hsub.symm)
  case drawn i t attempt existing refreshed draw =>
    have hwrites : WritesUnder H db (db.setSubmission i (Start.storeDraw refreshed draw)) :=
      writesUnder_setSubmission _ hB.2
    exact ⟨hwrites.stays, hwrites.keeps, hwrites.owns⟩
  case adding i t attempt existing => exact ⟨fun _ => id, fun _ _ _ => rfl, fun _ _ => id⟩

theorem Start.read_knows {l : Start} {f : Db → Start} (hB : l.Knows db H) (h : l.next = .read f) : (f db).Knows db H := by
  cases l <;> cases h
  case asked => trivial
  case found => trivial
  case owned saId t rnd loaded =>
    change (Start.afterLookUp db saId t rnd loaded).Knows db H
    unfold Start.afterLookUp
    split
    · trivial
    · rename_i sa hsa
      split_ifs with hst
      · trivial
      · have howns : db.Owns saId t := ⟨sa, hsa, not_not.mp hst⟩
        repeat' split
        all_goals trivial
  case opened saId t rnd loaded =>
    change (Start.underLock db saId t rnd loaded).Knows db H
    unfold Start.underLock
    repeat' split
    all_goals trivial
  case creating saId t rnd =>
    dsimp only
    split
    · exact hB
    · trivial
  case counted i sub t asg rnd existing =>
    change (Start.afterCount db i sub t asg rnd existing).Knows db H
    unfold Start.afterCount
    repeat' split
    all_goals trivial

theorem Start.lock_knows {l : Start} {f : Db → Start} {key : Row} (hB : l.Knows db H) (h : l.next = .lock key f) :
    (f db).Knows db (insert key H) := by
  cases l <;> cases h
  case opening => exact hB
  case drawing i squad t plan rnd existing =>
    change (Start.draw db i squad t plan rnd existing).Knows db _
    unfold Start.draw
    split
    · rename_i hsub hdraw
      split
      · trivial
      · exact ⟨by rw [Db.metadata, hsub, Option.map_some], Set.mem_insert _ _⟩
    · trivial

theorem Start.commit_knows {l l' : Start} {f : Db → Db} (h : l.next = .commit f l') : l'.Knows db' H := by
  cases l <;> cases h <;> trivial

theorem Start.rollback_knows {l l' : Start} (h : l.next = .rollback l') : l'.Knows db' H := by
  cases l <;> cases h
  trivial

/-- What a start knows survives a commit under other locks. -/
theorem Start.Knows.others {l : Start} (hB : l.Knows db H') (h : WritesUnder H db db') (hdisjoint : Disjoint H H') :
    l.Knows db' H' := by
  cases l <;> try trivial
  case opening => exact h.owns _ _ hB
  case opened => exact h.owns _ _ hB
  case creating => exact h.owns _ _ hB
  case inserting => exact h.owns _ _ hB
  case drawn =>
    refine ⟨?_, hB.2⟩
    rw [h.keeps _ (metadata_isSome hB.1) (Set.disjoint_right.mp hdisjoint hB.2)]
    exact hB.1

end

end SubmissionsChecker
