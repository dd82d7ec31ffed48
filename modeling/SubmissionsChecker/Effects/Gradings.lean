import SubmissionsChecker.Library.Rows
import SubmissionsChecker.Workers.ClassroomNightly

/-! What each operation of the classroom does to the gradings. -/

namespace SubmissionsChecker.Classroom

variable {db db' : ClassroomDb} {gs gs' gs'' : List LLMGrading} {g h i j l : ℕ} {grading grading' : LLMGrading}

namespace ClassroomDb

@[simp] theorem updateGradings_works (p : ℕ → LLMGrading → Bool) (f : LLMGrading → LLMGrading) :
    (db.updateGradings p f).works = db.works := rfl

@[simp] theorem updateGradings_links (p : ℕ → LLMGrading → Bool) (f : LLMGrading → LLMGrading) :
    (db.updateGradings p f).links = db.links := rfl

@[simp] theorem updateGradings_assignments (p : ℕ → LLMGrading → Bool) (f : LLMGrading → LLMGrading) :
    (db.updateGradings p f).assignments = db.assignments := rfl

@[simp] theorem setGrading_works (f : LLMGrading → LLMGrading) : (db.setGrading g f).works = db.works := rfl

@[simp] theorem setGrading_links (f : LLMGrading → LLMGrading) : (db.setGrading g f).links = db.links := rfl

@[simp] theorem setGrading_assignments (f : LLMGrading → LLMGrading) :
    (db.setGrading g f).assignments = db.assignments := rfl

@[simp] theorem setLink_works (f : ClassroomStudentLink → ClassroomStudentLink) :
    (db.setLink l f).works = db.works := rfl

@[simp] theorem setLink_gradings (f : ClassroomStudentLink → ClassroomStudentLink) :
    (db.setLink l f).gradings = db.gradings := rfl

@[simp] theorem setLink_assignments (f : ClassroomStudentLink → ClassroomStudentLink) :
    (db.setLink l f).assignments = db.assignments := rfl

@[simp] theorem setWork_gradings (f : ClassroomWork → ClassroomWork) : (db.setWork i f).gradings = db.gradings := rfl

@[simp] theorem setWork_links (f : ClassroomWork → ClassroomWork) : (db.setWork i f).links = db.links := rfl

@[simp] theorem setWork_assignments (f : ClassroomWork → ClassroomWork) :
    (db.setWork i f).assignments = db.assignments := rfl

end ClassroomDb

/-! ## Requests about links -/

/-- Waiting gradings may have become pending, and nothing else happened. -/
structure Released (gs gs' : List LLMGrading) : Prop where
  length : gs'.length = gs.length
  rows : ∀ (g : ℕ) grading, gs[g]? = some grading → ∃ grading', gs'[g]? = some grading' ∧
    (grading' = grading ∨ grading.status = .waitingLink ∧
      ∃ now, grading' = { grading with status := .pending, updatedAt := now })

namespace Released

theorem refl (gs : List LLMGrading) : Released gs gs := ⟨rfl, fun _ grading hg => ⟨grading, hg, .inl rfl⟩⟩

theorem trans (h₁ : Released gs gs') (h₂ : Released gs' gs'') : Released gs gs'' where
  length := h₂.length.trans h₁.length
  rows g grading hg := by
    obtain ⟨grading₁, hg₁, hcase₁⟩ := h₁.rows g grading hg
    obtain ⟨grading₂, hg₂, hcase₂⟩ := h₂.rows g grading₁ hg₁
    refine ⟨grading₂, hg₂, ?_⟩
    rcases hcase₁ with rfl | ⟨hwait, now, rfl⟩
    · exact hcase₂
    · rcases hcase₂ with rfl | ⟨hpending, -⟩
      · exact .inr ⟨hwait, now, rfl⟩
      · cases hpending

end Released

theorem released_releaseWaiting (db : ClassroomDb) (l now : ℕ) :
    Released db.gradings (db.releaseWaiting l now).gradings where
  length := Table.length_updateWhere ..
  rows g grading hg := by
    refine ⟨_, (Table.getElem?_updateWhere ..).trans (by rw [hg, Option.map_some]), ?_⟩
    by_cases hp : (grading.status == .waitingLink && db.gradesWorkOf l grading) = true
    · rw [if_pos hp]
      exact .inr ⟨beq_iff_eq.mp (Bool.and_eq_true_iff.mp hp).1, now, rfl⟩
    · rw [if_neg hp]
      exact .inl rfl

/-- A request about links leaves the works and the assignments, and releases at most. -/
structure Links (db db' : ClassroomDb) : Prop where
  works : db'.works = db.works
  assignments : db'.assignments = db.assignments
  released : Released db.gradings db'.gradings

namespace Links

theorem refl (db : ClassroomDb) : Links db db := ⟨rfl, rfl, .refl _⟩

theorem trans {db'' : ClassroomDb} (h₁ : Links db db') (h₂ : Links db' db'') : Links db db'' :=
  ⟨h₂.works.trans h₁.works, h₂.assignments.trans h₁.assignments, h₁.released.trans h₂.released⟩

theorem setLink (db : ClassroomDb) (l : ℕ) (f : ClassroomStudentLink → ClassroomStudentLink) :
    Links db (db.setLink l f) := ⟨rfl, rfl, .refl _⟩

theorem releaseWaiting (db : ClassroomDb) (l now : ℕ) : Links db (db.releaseWaiting l now) :=
  ⟨rfl, rfl, released_releaseWaiting db l now⟩

end Links

theorem links_resolveLink {enrolled : List (ℕ × ℕ)} {subjectId now : ℕ} {action : LinkAction} {studentId : Option ℕ}
    (hok : db.resolveLink enrolled subjectId l action studentId now = .ok db') : Links db db' := by
  unfold ClassroomDb.resolveLink at hok
  cases hlink : (db.links[l]?).filter fun link => link.subjectId == subjectId with
  | none =>
    rw [hlink] at hok
    cases hok
  | some link =>
    rw [hlink] at hok
    cases action with
    | link =>
      cases studentId with
      | none =>
        cases hok
        exact .refl _
      | some studentId =>
        change db.linkStudent enrolled subjectId l studentId now = .ok db' at hok
        unfold ClassroomDb.linkStudent at hok
        split_ifs at hok
        cases hok
        exact (Links.setLink ..).trans (.releaseWaiting ..)
    | ignore =>
      cases hok
      exact .setLink ..
    | confirm =>
      change db.confirmLink subjectId l link now = .ok db' at hok
      unfold ClassroomDb.confirmLink at hok
      split at hok
      · split_ifs at hok
        cases hok
        exact (Links.setLink ..).trans (.releaseWaiting ..)
      · cases hok
        exact .refl _
    | other =>
      cases hok
      exact .refl _

theorem links_confirmAll (db : ClassroomDb) (subjectId : ℕ) : Links db (db.confirmAllLinks subjectId) := by
  have hloop : ∀ (ids : List ℕ) (s : ClassroomDb × List (Option ℕ)),
      Links s.1 (ids.foldl ClassroomDb.confirmTurn s).1 := by
    intro ids
    induction ids with
    | nil => exact fun s => .refl _
    | cons l ids ih =>
      intro s
      refine Links.trans ?_ (ih _)
      unfold ClassroomDb.confirmTurn
      split
      · exact .refl _
      · split_ifs
        · exact .refl _
        · exact .setLink ..
  exact hloop (db.bulkConfirmable subjectId) (db, db.takenStudents subjectId)

theorem links_linkRequest (db : ClassroomDb) (enrolled : List (ℕ × ℕ)) (subjectId now : ℕ) (request : LinkRequest) :
    Links db (db.linkRequest enrolled subjectId now request) := by
  cases request with
  | resolve linkId action studentId =>
    unfold ClassroomDb.linkRequest
    dsimp only
    cases hok : db.resolveLink enrolled subjectId linkId action studentId now with
    | error e => exact .refl _
    | ok db' => exact links_resolveLink hok
  | confirmAll => exact links_confirmAll db subjectId

theorem links_linkRequests (enrolled : List (ℕ × ℕ)) (now : ℕ) (requests : List (ℕ × LinkRequest)) :
    ∀ db : ClassroomDb, Links db (db.linkRequests enrolled now requests) := by
  induction requests with
  | nil => exact .refl
  | cons r requests ih => exact fun db => (links_linkRequest db enrolled r.1 now r.2).trans (ih _)

/-! ## Jobs -/

/-- What a job leaves of its grading. -/
def JudgeCall.leaves (call : JudgeCall) (db : ClassroomDb) (grading : LLMGrading) (started ended : ℕ) : LLMGrading :=
  if gradable (db.manifestOf grading) = [] then failNoFiles ended (startRunning started grading)
  else
    match call.commit ended with
    | some (write, _) => write (startRunning started grading)
    | none => startRunning started grading

/-- The job comes to its end. -/
def JudgeCall.ends (call : JudgeCall) (db : ClassroomDb) (grading : LLMGrading) (ended : ℕ) : Bool :=
  gradable (db.manifestOf grading) = [] || (call.commit ended).isSome

theorem gradeOne_gradings (hg : db.gradings[g]? = some grading) (call : JudgeCall) (started ended : ℕ) :
    (db.gradeOne g call started ended).1.gradings =
      db.gradings.modify g fun grading => call.leaves db grading started ended := by
  refine List.ext_getElem? fun i => ?_
  by_cases hi : g = i
  · subst hi
    unfold ClassroomDb.gradeOne JudgeCall.leaves
    rw [Table.getElem?_modify_self, hg]
    dsimp only [Option.map_some]
    by_cases hfiles : gradable (db.manifestOf grading) = []
    · simp [hfiles, ClassroomDb.setGrading, hg]
    · simp only [hfiles, ↓reduceIte]
      cases call.commit ended with
      | none => simp [ClassroomDb.setGrading, hg]
      | some commit => simp [ClassroomDb.setGrading, hg]
  · rw [Table.getElem?_modify_ne _ hi]
    unfold ClassroomDb.gradeOne
    rw [hg]
    dsimp only
    by_cases hfiles : gradable (db.manifestOf grading) = []
    · simp [hfiles, ClassroomDb.setGrading, hi]
    · simp only [hfiles, ↓reduceIte]
      cases call.commit ended with
      | none => simp [ClassroomDb.setGrading, hi]
      | some commit => simp [ClassroomDb.setGrading, hi]

theorem gradeOne_outcome (hg : db.gradings[g]? = some grading) (call : JudgeCall) (started ended : ℕ) :
    (db.gradeOne g call started ended).2.isSome = call.ends db grading ended := by
  unfold ClassroomDb.gradeOne JudgeCall.ends
  rw [hg]
  dsimp only
  by_cases hfiles : gradable (db.manifestOf grading) = []
  · simp [hfiles]
  · simp only [hfiles, ↓reduceIte]
    cases call.commit ended with
    | none => simp
    | some commit => simp

/-- A job touches no other table. -/
theorem gradeOne_frame (db : ClassroomDb) (g : ℕ) (call : JudgeCall) (started ended : ℕ) :
    (db.gradeOne g call started ended).1.works = db.works ∧ (db.gradeOne g call started ended).1.links = db.links ∧
      (db.gradeOne g call started ended).1.assignments = db.assignments := by
  unfold ClassroomDb.gradeOne
  cases hg : db.gradings[g]? with
  | none => exact ⟨rfl, rfl, rfl⟩
  | some grading =>
    dsimp only
    by_cases hfiles : gradable (db.manifestOf grading) = []
    · simp [hfiles]
    · simp only [hfiles, ↓reduceIte]
      cases call.commit ended with
      | none => simp
      | some commit => simp

theorem ready_eligible (h : db.ready g = true) : ∃ grading, db.gradings[g]? = some grading ∧ grading.eligible = true := by
  rw [ClassroomDb.ready, Option.any_eq_true] at h
  obtain ⟨grading, hg, hready⟩ := h
  exact ⟨grading, hg, (Bool.and_eq_true_iff.mp hready).1⟩

theorem Night.job_db (s : Night) (g : ℕ) (turn : Turn) :
    (s.job g turn).db = (s.db.gradeOne g turn.call turn.started turn.ended).1 := by
  unfold Night.job
  cases s.db.gradeOne g turn.call turn.started turn.ended with
  | mk db' outcome => cases outcome <;> rfl

/-! ## What a grading goes through

A retry, and a sync that stores a version, are on their own. All else that happens to a grading is a step of
`Worked`. -/

inductive Worked : LLMGrading → LLMGrading → Prop
  | released {grading : LLMGrading} (h : grading.status = .waitingLink) (now : ℕ) :
      Worked grading { grading with status := .pending, updatedAt := now }
  | reaped {grading : LLMGrading} (h : grading.status = .running) (now : ℕ) : Worked grading (reap now grading)
  | judged {grading : LLMGrading} (h : grading.eligible = true) (db : ClassroomDb) (call : JudgeCall)
      (started ended : ℕ) : Worked grading (call.leaves db grading started ended)

theorem leaves_status (call : JudgeCall) (grading : LLMGrading) (started ended : ℕ) :
    (call.leaves db grading started ended).status = .done ∨ (call.leaves db grading started ended).status = .failed ∨
      (call.leaves db grading started ended).status = .running := by
  unfold JudgeCall.leaves
  split_ifs
  · exact .inr (.inl rfl)
  · cases call with
    | result answer => exact .inl rfl
    | judgeError message => exact .inr (.inl rfl)
    | error message => exact .inr (.inl rfl)
    | lost => exact .inr (.inr rfl)

theorem leaves_workId (call : JudgeCall) (grading : LLMGrading) (started ended : ℕ) :
    (call.leaves db grading started ended).classroomWorkId = grading.classroomWorkId := by
  unfold JudgeCall.leaves
  split_ifs
  · rfl
  · cases call <;> rfl

/-- The statuses before and after. -/
theorem worked_status (h : Worked grading grading') :
    grading.status = .waitingLink ∧ grading'.status = .pending ∨ grading.status = .running ∧ grading'.status = .failed ∨
      (grading.status = .pending ∨ grading.status = .failed) ∧
        (grading'.status = .done ∨ grading'.status = .failed ∨ grading'.status = .running) := by
  cases h with
  | released h now => exact .inl ⟨h, rfl⟩
  | reaped h now => exact .inr (.inl ⟨h, rfl⟩)
  | judged h db call started ended =>
    refine .inr (.inr ⟨?_, leaves_status call grading started ended⟩)
    rw [LLMGrading.eligible, Bool.or_eq_true, Bool.and_eq_true, beq_iff_eq, beq_iff_eq] at h
    exact h.imp_right fun h => h.1

theorem worked_workId (h : Worked grading grading') : grading'.classroomWorkId = grading.classroomWorkId := by
  cases h with
  | released h now => rfl
  | reaped h now => rfl
  | judged h db call started ended => exact leaves_workId call grading started ended

/-- What leaves the works as they are. -/
structure Quiet (db db' : ClassroomDb) : Prop where
  works : db'.works = db.works
  gradings : Table.Follows Worked db.gradings db'.gradings

namespace Quiet

theorem refl (db : ClassroomDb) : Quiet db db := ⟨rfl, .refl _⟩

theorem trans {db'' : ClassroomDb} (h₁ : Quiet db db') (h₂ : Quiet db' db'') : Quiet db db'' :=
  ⟨h₂.works.trans h₁.works, h₁.gradings.trans h₂.gradings⟩

end Quiet

theorem Links.quiet (h : Links db db') : Quiet db db' where
  works := h.works
  gradings :=
    { length := h.released.length
      steps := fun g grading hg => by
        obtain ⟨grading', hg', rfl | ⟨hwait, now, rfl⟩⟩ := h.released.rows g grading hg
        · exact ⟨_, hg', .refl⟩
        · exact ⟨_, hg', .single (.released hwait now)⟩ }

theorem links_upsertLink (db : ClassroomDb) (subjectId now : ℕ) (matcher : Matcher) (entry : Matching.RosterEntry) :
    Links db (upsertLink subjectId now matcher db entry) := by
  unfold upsertLink
  by_cases hid : entry.userId = ""
  · rw [if_pos hid]
    exact .refl _
  rw [if_neg hid]
  cases db.linkOf subjectId entry.userId with
  | none => exact ⟨rfl, rfl, .refl _⟩
  | some l =>
    dsimp only
    refine (Links.setLink db l (refreshed entry)).trans ?_
    generalize db.setLink l (refreshed entry) = named
    cases named.links[l]? with
    | none => exact .refl _
    | some link =>
      dsimp only
      split_ifs
      · exact .setLink ..
      · exact .refl _
      · exact .setLink ..
      · exact (Links.setLink ..).trans (.releaseWaiting ..)

theorem links_upsertLinks (subjectId now : ℕ) (matcher : Matcher) (roster : List Matching.RosterEntry) :
    ∀ db : ClassroomDb, Links db (upsertLinks subjectId now matcher roster db) := by
  induction roster with
  | nil => exact .refl
  | cons entry roster ih => exact fun db => (links_upsertLink db subjectId now matcher entry).trans (ih _)

/-- A failed grading is queued again, or nothing happens. -/
theorem retry_cases (db : ClassroomDb) (subjectId g now : ℕ) :
    (db.retryGrading subjectId g now).toOption.getD db = db ∨ ∃ grading, db.gradings[g]? = some grading ∧
      grading.status = .failed ∧ (db.retryGrading subjectId g now).toOption.getD db = db.setGrading g (queueAgain now) := by
  unfold ClassroomDb.retryGrading
  cases hg : (db.gradings[g]?).filter _ with
  | none => exact .inl rfl
  | some grading =>
    dsimp only
    by_cases hfailed : grading.status = .failed
    · rw [if_pos hfailed]
      exact .inr ⟨grading, (Option.filter_eq_some_iff.mp hg).1, hfailed, rfl⟩
    · rw [if_neg hfailed]
      exact .inl rfl

theorem quiet_reapStale (db : ClassroomDb) (now : ℕ) : Quiet db (db.reapStale now) where
  works := rfl
  gradings := .updateWhere fun _ _ _ hp => .reaped (beq_iff_eq.mp (Bool.and_eq_true_iff.mp hp).1) now

theorem quiet_turn (enrolled : List (ℕ × ℕ)) (s : Night) (g : ℕ) (turn : Turn) :
    Quiet s.db (s.turn enrolled g turn).db := by
  have hlinks := (links_linkRequests enrolled turn.checked turn.requests s.db).quiet
  unfold Night.turn
  dsimp only
  by_cases hready : (s.db.linkRequests enrolled turn.checked turn.requests).ready g = true
  · rw [if_pos hready, Night.job_db]
    obtain ⟨grading, hg, heligible⟩ := ready_eligible hready
    refine hlinks.trans ⟨(gradeOne_frame ..).1, ?_⟩
    rw [gradeOne_gradings hg]
    refine .modify fun row hrow => ?_
    rw [hg] at hrow
    cases hrow
    exact .judged heligible _ turn.call turn.started turn.ended
  · rw [if_neg hready]
    exact hlinks

theorem quiet_run (enrolled : List (ℕ × ℕ)) (deadline : ℕ) (pairs : List (ℕ × Turn)) :
    ∀ s : Night, Quiet s.db (Night.run enrolled deadline pairs s).db := by
  induction pairs with
  | nil => exact fun s => .refl _
  | cons p pairs ih =>
    intro s
    unfold Night.run
    split_ifs
    · exact .refl _
    · exact (quiet_turn enrolled s p.1 p.2).trans (ih _)

theorem quiet_gradingLoop (enrolled : List (ℕ × ℕ)) (deadline nightStart : ℕ) (cap : ℤ) (turns : List Turn)
    (db : ClassroomDb) : Quiet db (gradingLoop enrolled deadline nightStart cap turns db).db := by
  unfold gradingLoop
  split_ifs
  · exact .refl _
  · exact quiet_run enrolled deadline _ ⟨db, 0, 0, []⟩

/-- Linking courseworks writes the assignments only. -/
theorem linkAll_frame (subjectId : ℕ) (form : CourseworkForm) (titles : List (String × String)) (db : ClassroomDb) :
    ∃ rows, db.linkAll subjectId form titles = { db with assignments := rows } := by
  have hloop : ∀ (ids : List ℕ) (db₁ : ClassroomDb), ∃ rows,
      ids.foldl (ClassroomDb.linkTurn (db.wanted subjectId form) titles) db₁ = { db₁ with assignments := rows } := by
    intro ids
    induction ids with
    | nil => exact fun db₁ => ⟨db₁.assignments, rfl⟩
    | cons a ids ih =>
      intro db₁
      obtain ⟨rows, hrows⟩ := ih (ClassroomDb.linkTurn (db.wanted subjectId form) titles db₁ a)
      refine ⟨rows, hrows.trans ?_⟩
      unfold ClassroomDb.linkTurn
      cases db.wanted subjectId form a with
      | none => rfl
      | some cw =>
        dsimp only
        split_ifs <;> rfl
  exact hloop _ db

theorem linkCourseworkBatch_frame (db : ClassroomDb) (subjectId : ℕ) (form : CourseworkForm) :
    ∃ rows, ((db.linkCourseworkBatch subjectId form).toOption.map (·.1)).getD db = { db with assignments := rows } := by
  unfold ClassroomDb.linkCourseworkBatch
  cases form.listing with
  | none =>
    dsimp only
    split_ifs
    all_goals first | exact ⟨_, rfl⟩ | exact linkAll_frame ..
  | some courseworks =>
    dsimp only
    split_ifs
    all_goals first | exact ⟨_, rfl⟩ | exact linkAll_frame ..

/-- Everything but a hand-in and a retry. -/
theorem quiet_step (db : ClassroomDb) (op : ClassroomOp) (hhandIn : ∀ env sub, op ≠ .handIn env sub)
    (hretry : ∀ subjectId g now, op ≠ .retry subjectId g now) : Quiet db (db.step op) := by
  cases op with
  | roster subjectId now matcher roster => exact (links_upsertLinks subjectId now matcher roster db).quiet
  | handIn env sub => exact absurd rfl (hhandIn env sub)
  | request enrolled subjectId now request => exact (links_linkRequest db enrolled subjectId now request).quiet
  | retry subjectId g now => exact absurd rfl (hretry subjectId g now)
  | coursework subjectId form =>
    obtain ⟨rows, hrows⟩ := linkCourseworkBatch_frame db subjectId form
    change Quiet db (((db.linkCourseworkBatch subjectId form).toOption.map (·.1)).getD db)
    rw [hrows]
    exact ⟨rfl, .refl _⟩
  | assignments rows => exact ⟨rfl, .refl _⟩
  | reap now => exact quiet_reapStale db now
  | grade enrolled deadline nightStart cap turns => exact quiet_gradingLoop enrolled deadline nightStart cap turns db

/-! ## Hand-ins -/

/-- How a hand-in of a link ends that does not raise: as what it was, or as a version stored. -/
structure Handed (db : ClassroomDb) (env : WorkManifest.Ingest) (sub : HandIn) (stored : ClassroomDb × HandInOutcome)
    (l : ℕ) (link : ClassroomStudentLink) (files : List (WorkManifest.DriveFileRef × WorkManifest.Metadata)) : Prop where
  linkOf : db.linkOf env.subjectId sub.userId = some l
  row : db.links[l]? = some link
  taken : link.method ≠ .ignored
  metas : fileMetas sub.files = .ok files
  cases : (∃ i, db.latestVersion env.submissionId = some i ∧ isUnchanged db env files i = true ∧
      stored = (db.seeAgain i sub, .unchanged)) ∨
    ∃ ledger, WorkManifest.ingestFiles env files (fun _ => none) = .ok ledger ∧
      stored = storeVersion db env sub l link ledger.manifest

theorem ingestSubmission_ok {env : WorkManifest.Ingest} {sub : HandIn} {stored : ClassroomDb × HandInOutcome}
    (hok : ingestSubmission db env sub = .ok stored) :
    stored = (db, .noLink) ∨ stored = (db, .ignored) ∨ ∃ l link files, Handed db env sub stored l link files := by
  unfold ingestSubmission at hok
  cases hl : db.linkOf env.subjectId sub.userId with
  | none =>
    rw [hl] at hok
    cases hok
    exact .inl rfl
  | some l =>
    rw [hl] at hok
    dsimp only at hok
    cases hlink : db.links[l]? with
    | none =>
      rw [hlink] at hok
      cases hok
      exact .inl rfl
    | some link =>
      rw [hlink] at hok
      dsimp only at hok
      by_cases hignored : link.method = .ignored
      · rw [if_pos hignored] at hok
        cases hok
        exact .inr (.inl rfl)
      · rw [if_neg hignored] at hok
        unfold ingestFor at hok
        obtain ⟨files, hfiles, hrest⟩ := Loops.bind_ok.mp hok
        refine .inr (.inr ⟨l, link, files, hl, hlink, hignored, hfiles, ?_⟩)
        cases hlatest : (db.latestVersion env.submissionId).filter (isUnchanged db env files) with
        | some i =>
          rw [hlatest] at hrest
          cases hrest
          obtain ⟨hi, hsame⟩ := Option.filter_eq_some_iff.mp hlatest
          exact .inl ⟨i, hi, hsame, rfl⟩
        | none =>
          rw [hlatest] at hrest
          obtain ⟨ledger, hledger, hstored⟩ := Loops.bind_ok.mp hrest
          cases hstored
          refine .inr ⟨ledger, ?_, rfl⟩
          cases hrun : WorkManifest.ingestFiles env files fun _ => none with
          | error e =>
            rw [hrun] at hledger
            cases hledger
          | ok ledger' =>
            rw [hrun] at hledger
            cases hledger
            rfl

theorem ingested_eq {env : WorkManifest.Ingest} {sub : HandIn} {stored : ClassroomDb × HandInOutcome}
    (hok : ingestSubmission db env sub = .ok stored) : ingested db env sub = stored.1 := by
  unfold ingested
  rw [hok]

theorem ingested_raised {env : WorkManifest.Ingest} {sub : HandIn} {e : HandInError}
    (herror : ingestSubmission db env sub = .error e) : ingested db env sub = db := by
  unfold ingested
  rw [herror]

theorem storeVersion_links (env : WorkManifest.Ingest) (sub : HandIn) (l : ℕ) (link : ClassroomStudentLink)
    (manifest : List WorkManifest.ManifestEntry) : (storeVersion db env sub l link manifest).1.links = db.links := by
  unfold storeVersion
  cases db.sameVersion env.submissionId (contentHash env manifest) <;> rfl

/-- A hand-in touches no link. -/
theorem ingested_links (db : ClassroomDb) (env : WorkManifest.Ingest) (sub : HandIn) :
    (ingested db env sub).links = db.links := by
  cases hsub : ingestSubmission db env sub with
  | error e => rw [ingested_raised hsub]
  | ok stored =>
    rw [ingested_eq hsub]
    rcases ingestSubmission_ok hsub with rfl | rfl | ⟨l, link, files, hhanded⟩
    · rfl
    · rfl
    · rcases hhanded.cases with ⟨i, -, -, rfl⟩ | ⟨ledger, -, rfl⟩
      · rfl
      · exact storeVersion_links ..

end SubmissionsChecker.Classroom
