import SubmissionsChecker.Effects.Gradings
import SubmissionsChecker.Library.Runs

/-! Which coursework feeds which assignment. The form is saved as a whole or not at all, and no coursework ever feeds
two assignments of a subject. -/

namespace SubmissionsChecker.Classroom

open Runs

variable {db db' : ClassroomDb} {a b subjectId now : ℕ} {form : CourseworkForm} {outcome : BatchOutcome}
  {wanted : ℕ → Option String} {titles : List (String × String)} {row row' : LinkedAssignment}

/-! ## The loop -/

theorem linkTurn_subject (wanted : ℕ → Option String) (titles : List (String × String)) (db : ClassroomDb) (a b : ℕ) :
    ((ClassroomDb.linkTurn wanted titles db a).assignments[b]?).map LinkedAssignment.subjectId =
      (db.assignments[b]?).map LinkedAssignment.subjectId := by
  unfold ClassroomDb.linkTurn
  cases wanted a with
  | none => rfl
  | some cw =>
    dsimp only
    split_ifs
    · rfl
    all_goals
      rw [List.getElem?_modify]
      cases db.assignments[b]? with
      | none => rfl
      | some row => by_cases hab : a = b <;> simp [hab]

theorem linkTurn_courseworkOf (hwanted : ∀ cw, wanted a = some cw → (db.assignments[a]?).isSome = true) :
    (ClassroomDb.linkTurn wanted titles db a).courseworkOf b =
      if b = a then (wanted a).getD (db.courseworkOf a) else db.courseworkOf b := by
  unfold ClassroomDb.linkTurn
  cases hcw : wanted a with
  | none =>
    by_cases hba : b = a
    · rw [if_pos hba, hba]
      rfl
    · rw [if_neg hba]
  | some cw =>
    dsimp only
    by_cases hsame : cw = db.courseworkOf a
    · rw [if_pos hsame]
      by_cases hba : b = a
      · rw [if_pos hba, hba, Option.getD_some, hsame]
      · rw [if_neg hba]
    · rw [if_neg hsame]
      unfold ClassroomDb.courseworkOf
      dsimp only
      by_cases hba : b = a
      · subst hba
        obtain ⟨row, hrow⟩ := Option.isSome_iff_exists.mp (hwanted cw hcw)
        rw [if_pos rfl, Table.getElem?_modify_self, hrow]
        by_cases hempty : cw = "" <;> simp [hempty]
      · rw [if_neg hba, Table.getElem?_modify_ne _ (Ne.symm hba)]

theorem linkTurn_isSome (wanted : ℕ → Option String) (titles : List (String × String)) (db : ClassroomDb) (a b : ℕ) :
    ((ClassroomDb.linkTurn wanted titles db a).assignments[b]?).isSome = (db.assignments[b]?).isSome := by
  have h := congrArg Option.isSome (linkTurn_subject wanted titles db a b)
  rwa [Option.isSome_map, Option.isSome_map] at h

theorem foldl_linkTurn (wanted : ℕ → Option String) (titles : List (String × String)) {ids : List ℕ} (hids : ids.Nodup) :
    ∀ db : ClassroomDb, (∀ (a : ℕ) cw, wanted a = some cw → (db.assignments[a]?).isSome = true) →
      (∀ b : ℕ, ((ids.foldl (ClassroomDb.linkTurn wanted titles) db).assignments[b]?).map LinkedAssignment.subjectId =
        (db.assignments[b]?).map LinkedAssignment.subjectId) ∧
      ∀ b : ℕ, (ids.foldl (ClassroomDb.linkTurn wanted titles) db).courseworkOf b =
        if b ∈ ids then (wanted b).getD (db.courseworkOf b) else db.courseworkOf b := by
  induction ids with
  | nil => exact fun db _ => ⟨fun b => rfl, fun b => (if_neg List.not_mem_nil).symm⟩
  | cons a ids ih =>
    intro db hwanted
    obtain ⟨hnot, hrest⟩ := List.nodup_cons.mp hids
    obtain ⟨hsubject, hcoursework⟩ := ih hrest (ClassroomDb.linkTurn wanted titles db a)
      fun b cw hcw => (linkTurn_isSome wanted titles db a b).trans (hwanted b cw hcw)
    refine ⟨fun b => (hsubject b).trans (linkTurn_subject wanted titles db a b), fun b => (hcoursework b).trans ?_⟩
    rw [linkTurn_courseworkOf (hwanted a)]
    by_cases hba : b = a
    · subst hba
      rw [if_neg hnot, if_pos rfl, if_pos List.mem_cons_self]
    · rw [if_neg hba]
      simp only [List.mem_cons, hba, false_or]

theorem isSome_of_wanted {cw : String} (h : db.wanted subjectId form a = some cw) : (db.assignments[a]?).isSome = true := by
  unfold ClassroomDb.wanted at h
  cases hrow : db.assignments[a]? with
  | none =>
    rw [hrow] at h
    cases h
  | some row => rfl

/-! ## The batch -/

/-- The form is saved: each assignment of the subject is fed by what the form, or else the row, says. -/
structure Saved (db db' : ClassroomDb) (subjectId : ℕ) (form : CourseworkForm) : Prop where
  subjects : ∀ b : ℕ, (db'.assignments[b]?).map LinkedAssignment.subjectId =
    (db.assignments[b]?).map LinkedAssignment.subjectId
  own : ∀ b ∈ db.assignmentsOf subjectId, db'.courseworkOf b = db.finalCoursework subjectId form b
  others : ∀ b ∉ db.assignmentsOf subjectId, db'.courseworkOf b = db.courseworkOf b
  distinct : (db.pickedCoursework subjectId form).Nodup

theorem saved_linkAll (hdistinct : (db.pickedCoursework subjectId form).Nodup) :
    Saved db (db.linkAll subjectId form titles) subjectId form := by
  obtain ⟨hsubjects, hcoursework⟩ := foldl_linkTurn (db.wanted subjectId form) titles
    (Table.nodup_idsWhere (fun row : LinkedAssignment => row.subjectId == subjectId) db.assignments) db
    fun a cw h => isSome_of_wanted h
  refine ⟨hsubjects, fun b hb => (hcoursework b).trans (if_pos hb), fun b hb => (hcoursework b).trans (if_neg hb), hdistinct⟩

/-- "All or nothing". -/
theorem linkCourseworkBatch_cases (hok : db.linkCourseworkBatch subjectId form = .ok (db', outcome)) :
    outcome = .linked ∧ Saved db db' subjectId form ∨ outcome ≠ .linked ∧ db' = db := by
  unfold ClassroomDb.linkCourseworkBatch at hok
  dsimp only at hok
  by_cases hdistinct : (db.pickedCoursework subjectId form).Nodup
  · rw [if_neg (not_not_intro hdistinct)] at hok
    cases hlisting : form.listing with
    | none =>
      rw [hlisting] at hok
      dsimp only at hok
      split_ifs at hok
      · cases hok
        exact .inl ⟨rfl, saved_linkAll hdistinct⟩
      · cases hok
        exact .inr ⟨fun h => BatchOutcome.noConfusion h, rfl⟩
    | some courseworks =>
      rw [hlisting] at hok
      dsimp only at hok
      split_ifs at hok
      all_goals
        cases hok
        exact .inl ⟨rfl, saved_linkAll hdistinct⟩
  · rw [if_pos hdistinct] at hok
    cases hok
    exact .inr ⟨fun h => BatchOutcome.noConfusion h, rfl⟩

/-- No coursework feeds two assignments of a subject. -/
def FedOnce (db : ClassroomDb) : Prop :=
  ∀ (a b : ℕ) row row', db.assignments[a]? = some row → db.assignments[b]? = some row' →
    row.subjectId = row'.subjectId → db.courseworkOf a ≠ "" → db.courseworkOf a = db.courseworkOf b → a = b

theorem fedOnce_saved (h : FedOnce db) (hsaved : Saved db db' subjectId form) : FedOnce db' := by
  intro a b row row' ha hb hsubject hfed hsame
  have hold : ∀ {i : ℕ} {found}, db'.assignments[i]? = some found →
      ∃ old, db.assignments[i]? = some old ∧ old.subjectId = found.subjectId := by
    intro i found hfound
    have hsubjects := hsaved.subjects i
    rw [hfound, Option.map_some] at hsubjects
    obtain ⟨old, hrow, heq⟩ := Option.map_eq_some_iff.mp hsubjects.symm
    exact ⟨old, hrow, heq⟩
  obtain ⟨old, holdA, hsubjectA⟩ := hold ha
  obtain ⟨old', holdB, hsubjectB⟩ := hold hb
  have hmem : ∀ {i : ℕ} {found}, db.assignments[i]? = some found →
      (i ∈ db.assignmentsOf subjectId ↔ found.subjectId = subjectId) := by
    intro i found hfound
    rw [ClassroomDb.assignmentsOf, Table.mem_idsWhere]
    constructor
    · rintro ⟨row, hrow, heq⟩
      rw [hfound] at hrow
      cases hrow
      exact beq_iff_eq.mp heq
    · exact fun heq => ⟨found, hfound, beq_iff_eq.mpr heq⟩
  by_cases hown : old.subjectId = subjectId
  · have hown' : old'.subjectId = subjectId := by rw [hsubjectB, ← hsubject, ← hsubjectA, hown]
    have hA := (hmem holdA).mpr hown
    have hB := (hmem holdB).mpr hown'
    rw [hsaved.own a hA] at hfed hsame
    rw [hsaved.own b hB] at hsame
    -- Both are picked, and no pick comes twice.
    have hdistinct := hsaved.distinct
    rw [ClassroomDb.pickedCoursework, List.filter_map] at hdistinct
    refine List.inj_on_of_nodup_map hdistinct ?_ ?_ hsame
    · exact List.mem_filter.mpr ⟨hA, decide_eq_true hfed⟩
    · exact List.mem_filter.mpr ⟨hB, decide_eq_true (hsame ▸ hfed)⟩
  · have hown' : old'.subjectId ≠ subjectId := by rwa [hsubjectB, ← hsubject, ← hsubjectA]
    rw [hsaved.others a fun h => hown ((hmem holdA).mp h)] at hfed hsame
    rw [hsaved.others b fun h => hown' ((hmem holdB).mp h)] at hsame
    exact h a b old old' holdA holdB (by rw [hsubjectA, hsubject, hsubjectB]) hfed hsame

/-! ## Runs -/

theorem ingested_assignments (db : ClassroomDb) (env : WorkManifest.Ingest) (sub : HandIn) :
    (ingested db env sub).assignments = db.assignments := by
  cases hsub : ingestSubmission db env sub with
  | error e => rw [ingested_raised hsub]
  | ok stored =>
    rw [ingested_eq hsub]
    rcases ingestSubmission_ok hsub with rfl | rfl | ⟨l, link, files, hhanded⟩
    · rfl
    · rfl
    · rcases hhanded.cases with ⟨i, -, -, rfl⟩ | ⟨ledger, -, rfl⟩
      · rfl
      · unfold storeVersion
        cases db.sameVersion env.submissionId (contentHash env ledger.manifest) <;> rfl

theorem run_assignments (enrolled : List (ℕ × ℕ)) (deadline : ℕ) (pairs : List (ℕ × Turn)) :
    ∀ s : Night, (Night.run enrolled deadline pairs s).db.assignments = s.db.assignments := by
  induction pairs with
  | nil => exact fun s => rfl
  | cons p pairs ih =>
    intro s
    unfold Night.run
    split_ifs
    · rfl
    · refine (ih _).trans ?_
      have hlinks := (links_linkRequests enrolled p.2.checked p.2.requests s.db).assignments
      unfold Night.turn
      dsimp only
      split_ifs
      · rw [Night.job_db]
        exact (gradeOne_frame ..).2.2.trans hlinks
      · exact hlinks

theorem gradingLoop_assignments (enrolled : List (ℕ × ℕ)) (deadline nightStart : ℕ) (cap : ℤ) (turns : List Turn)
    (db : ClassroomDb) : (gradingLoop enrolled deadline nightStart cap turns db).db.assignments = db.assignments := by
  unfold gradingLoop
  split_ifs
  · rfl
  · exact run_assignments enrolled deadline _ ⟨db, 0, 0, []⟩

theorem FedOnce.of_assignments (h : FedOnce db) (heq : db'.assignments = db.assignments) : FedOnce db' := by
  intro a b row row' ha hb
  unfold ClassroomDb.courseworkOf
  rw [heq] at ha hb ⊢
  exact h a b row row' ha hb

/-- Only the form writes a coursework: what other services write of the assignments leaves that of a row as it is, and
a new row has none. -/
def FedRows (db : ClassroomDb) : ClassroomOp → Prop
  | .assignments rows => ∀ (a : ℕ) row, rows[a]? = some row → row.classroomCourseworkId = none ∨
      ∃ old, db.assignments[a]? = some old ∧ old.subjectId = row.subjectId ∧
        old.classroomCourseworkId = row.classroomCourseworkId
  | _ => True

theorem fedOnce_assignments {rows : List LinkedAssignment} (h : FedOnce db) (hrows : FedRows db (.assignments rows)) :
    FedOnce { db with assignments := rows } := by
  intro a b row row' ha hb hsubject hfed hsame
  have hold : ∀ {i : ℕ} {found}, rows[i]? = some found → ClassroomDb.courseworkOf { db with assignments := rows } i ≠ "" →
      ∃ old, db.assignments[i]? = some old ∧ old.subjectId = found.subjectId ∧
        db.courseworkOf i = ClassroomDb.courseworkOf { db with assignments := rows } i := by
    intro i found hfound hne
    unfold ClassroomDb.courseworkOf at hne ⊢
    rw [hfound] at hne ⊢
    rcases hrows i found hfound with hnone | ⟨old, hold, hsubject, hkept⟩
    · rw [Option.bind_some, hnone] at hne
      exact absurd rfl hne
    · refine ⟨old, hold, hsubject, ?_⟩
      rw [hold, Option.bind_some, Option.bind_some, hkept]
  obtain ⟨old, holdA, hsubjectA, hfedA⟩ := hold ha hfed
  obtain ⟨old', holdB, hsubjectB, hfedB⟩ := hold hb (hsame ▸ hfed)
  refine h a b old old' holdA holdB ?_ ?_ ?_
  · rw [hsubjectA, hsubject, hsubjectB]
  · rw [hfedA]
    exact hfed
  · rw [hfedA, hfedB, hsame]

/-- "All or nothing": the form is answered as linked and saved, or it is not and nothing changes. -/
def WholeOrNothing (db : ClassroomDb) (subjectId : ℕ) (form : CourseworkForm) : Prop :=
  (∃ saved, db.linkCourseworkBatch subjectId form = .ok (saved, .linked) ∧ Saved db saved subjectId form ∧
      db.step (.coursework subjectId form) = saved) ∨
    (∀ saved, db.linkCourseworkBatch subjectId form ≠ .ok (saved, .linked)) ∧ db.step (.coursework subjectId form) = db

theorem wholeOrNothing (db : ClassroomDb) (subjectId : ℕ) (form : CourseworkForm) : WholeOrNothing db subjectId form := by
  unfold WholeOrNothing ClassroomDb.step
  dsimp only
  cases hbatch : db.linkCourseworkBatch subjectId form with
  | error e =>
    refine .inr ⟨fun saved h => ?_, rfl⟩
    cases h
  | ok answer =>
    obtain ⟨saved, outcome⟩ := answer
    rcases linkCourseworkBatch_cases hbatch with ⟨rfl, hsaved⟩ | ⟨hne, rfl⟩
    · exact .inl ⟨saved, rfl, hsaved, rfl⟩
    · refine .inr ⟨fun saved h => hne ?_, rfl⟩
      cases h
      rfl

/-- Whatever is asked for and whatever Classroom answers, no coursework ever feeds two assignments of a subject; and the
next form is saved whole, which feeds no two by one, or changes nothing. -/
theorem no_coursework_feeds_two {ops : List ClassroomOp} (h : Run ClassroomDb.step FedRows db ops db') (hdb : FedOnce db) :
    FedOnce db' ∧ ∀ subjectId form, WholeOrNothing db' subjectId form := by
  refine ⟨h.invariant hdb fun db op hfed hok => ?_, wholeOrNothing db'⟩
  cases op with
  | roster subjectId now matcher roster =>
    exact hfed.of_assignments (links_upsertLinks subjectId now matcher roster db).assignments
  | handIn env sub => exact hfed.of_assignments (ingested_assignments db env sub)
  | request enrolled subjectId now request =>
    exact hfed.of_assignments (links_linkRequest db enrolled subjectId now request).assignments
  | retry subjectId g now =>
    change FedOnce ((db.retryGrading subjectId g now).toOption.getD db)
    rcases retry_cases db subjectId g now with heq | ⟨-, -, -, heq⟩
    · rw [heq]
      exact hfed
    · rw [heq]
      exact hfed.of_assignments rfl
  | coursework subjectId form =>
    rcases wholeOrNothing db subjectId form with ⟨saved, -, hsaved, heq⟩ | ⟨-, heq⟩
    · rw [heq]
      exact fedOnce_saved hfed hsaved
    · rw [heq]
      exact hfed
  | assignments rows => exact fedOnce_assignments hfed hok
  | reap now => exact hfed.of_assignments rfl
  | grade enrolled deadline nightStart cap turns =>
    exact hfed.of_assignments (gradingLoop_assignments enrolled deadline nightStart cap turns db)

/-- Two assignments of a subject, fed by nothing. -/
def unfed : ClassroomDb := ⟨List.replicate 2 ⟨0, none, none, true, true⟩, [], [], []⟩

def formOf (first second : String) : CourseworkForm where
  field a := if a = 0 then some first else some second
  courseLinked := true
  connected := true
  listing := some [("one", "One"), ("two", "Two")]

/-- A config adds an assignment. -/
def taught : List LinkedAssignment :=
  [⟨0, some "one", some "One", true, true⟩, ⟨0, some "two", some "Two", true, true⟩, ⟨0, none, none, true, true⟩]

/-- The first form picks a coursework twice, the last one picks what is another's. -/
def threeForms : List ClassroomOp :=
  [.coursework 0 (formOf "one" "one"), .coursework 0 (formOf "one" "two"), .assignments taught,
    .coursework 0 (formOf "two" "two")]

theorem threeForms_feed_once : FedOnce (threeForms.foldl ClassroomDb.step unfed) ∧
    WholeOrNothing (threeForms.foldl ClassroomDb.step unfed) 0 (formOf "one" "two") := by
  have hrows : FedRows ((threeForms.take 2).foldl ClassroomDb.step unfed) (.assignments taught) := by
    intro a row ha
    match a, ha with
    | 0, ha =>
      cases ha
      exact .inr ⟨_, rfl, rfl, rfl⟩
    | 1, ha =>
      cases ha
      exact .inr ⟨_, rfl, rfl, rfl⟩
    | 2, ha =>
      cases ha
      exact .inl rfl
  have hchecks : Checks ClassroomDb.step FedRows unfed threeForms := ⟨trivial, trivial, hrows, trivial, trivial⟩
  have hunfed : FedOnce unfed := by
    intro a b row row' ha _ _ hfed
    refine absurd ?_ hfed
    have hrow : row = ⟨0, none, none, true, true⟩ := List.eq_of_mem_replicate (List.mem_of_getElem? ha)
    unfold ClassroomDb.courseworkOf
    rw [ha, hrow]
    rfl
  obtain ⟨hfed, hwhole⟩ := no_coursework_feeds_two (run_of_checks hchecks) hunfed
  exact ⟨hfed, hwhole 0 (formOf "one" "two")⟩

end SubmissionsChecker.Classroom
