import SubmissionsChecker.Properties.WorkVersions

/-! What becomes of a grading. A draft stands on a finished grading only and is never written again; and no grading
waits for a link that has its student. -/

namespace SubmissionsChecker.Classroom

open Runs

variable {db db' : ClassroomDb} {grading grading' : LLMGrading} {env : WorkManifest.Ingest} {sub : HandIn} {g l : ℕ}
  {link : ClassroomStudentLink}

/-- All that happens to a grading. -/
inductive LifeStep : LLMGrading → LLMGrading → Prop
  | worked {grading grading' : LLMGrading} (h : Worked grading grading') : LifeStep grading grading'
  | retried {grading : LLMGrading} (h : grading.status = .failed) (now : ℕ) : LifeStep grading (queueAgain now grading)
  | superseded {grading : LLMGrading} (h : grading.status.supersedable = true) (now : ℕ) :
      LifeStep grading { grading with status := .superseded, updatedAt := now }
  | revived {grading : LLMGrading} (h : grading.status = .superseded) (link : ClassroomStudentLink) (now : ℕ) :
      LifeStep grading { grading with status := freshStatus link, updatedAt := now }

/-- Gradings keep their places and live on; new ones come after them. -/
structure Lives (db db' : ClassroomDb) : Prop where
  old : ∀ (g : ℕ) grading, db.gradings[g]? = some grading →
    ∃ grading', db'.gradings[g]? = some grading' ∧ Relation.ReflTransGen LifeStep grading grading'
  new : ∀ (g : ℕ) grading', db'.gradings[g]? = some grading' → db.gradings.length ≤ g →
    ∃ workId link now, Relation.ReflTransGen LifeStep (newGrading workId (freshStatus link) now) grading'

namespace Lives

theorem of_follows (h : Table.Follows LifeStep db.gradings db'.gradings) : Lives db db' where
  old := h.steps
  new g grading' hg hge := by
    have hlt := (List.getElem?_eq_some_iff.mp hg).1
    rw [h.length] at hlt
    exact absurd hlt (not_lt_of_ge hge)

theorem of_quiet (h : Quiet db db') : Lives db db' := of_follows (h.gradings.mono fun _ _ => .worked)

/-- What holds of a new grading and is kept by its steps. -/
theorem invariant {P : LLMGrading → Prop} (h : Lives db db') (hnew : ∀ workId link now, P (newGrading workId (freshStatus link) now))
    (hstep : ∀ a b, LifeStep a b → P a → P b) (hall : ∀ (g : ℕ) grading, db.gradings[g]? = some grading → P grading) :
    ∀ (g : ℕ) grading, db'.gradings[g]? = some grading → P grading := by
  intro g grading hg
  by_cases hlt : g < db.gradings.length
  · obtain ⟨grading', hg', hsteps⟩ := h.old g _ (List.getElem?_eq_getElem hlt)
    rw [hg] at hg'
    cases hg'
    exact Table.keeps_of_steps hsteps hstep (hall g _ (List.getElem?_eq_getElem hlt))
  · obtain ⟨workId, link, now, hsteps⟩ := h.new g grading hg (Nat.not_lt.mp hlt)
    exact Table.keeps_of_steps hsteps hstep (hnew workId link now)

end Lives

theorem follows_supersedeOthers (db : ClassroomDb) (submissionId : PyText.Text) (keep now : ℕ) :
    Table.Follows LifeStep db.gradings (db.supersedeOthers submissionId keep now).gradings :=
  .updateWhere fun _ _ _ hp => .superseded (Bool.and_eq_true_iff.mp (Bool.and_eq_true_iff.mp hp).1).1 now

theorem follows_revive (db : ClassroomDb) (workId now : ℕ) (link : ClassroomStudentLink) :
    Table.Follows LifeStep db.gradings (db.revive workId now (freshStatus link)).gradings :=
  .updateWhere fun _ _ _ hp => .revived (beq_iff_eq.mp (Bool.and_eq_true_iff.mp hp).2) link now

theorem lives_storeVersion (env : WorkManifest.Ingest) (sub : HandIn) (l : ℕ) (link : ClassroomStudentLink)
    (manifest : List WorkManifest.ManifestEntry) (db : ClassroomDb) :
    Lives db (storeVersion db env sub l link manifest).1 := by
  unfold storeVersion
  cases db.sameVersion env.submissionId (contentHash env manifest) with
  | some i =>
    refine .of_follows (Table.Follows.trans ?_ (follows_supersedeOthers ..))
    exact follows_revive _ i sub.storedAt link
  | none =>
    have hsupersede := follows_supersedeOthers
      { db with
        works := db.works ++ [newWork env sub l manifest]
        gradings := db.gradings ++ [newGrading db.works.length (freshStatus link) sub.storedAt] }
      env.submissionId db.works.length sub.storedAt
    refine ⟨fun g grading hg => hsupersede.steps g grading (Table.getElem?_append_old hg), fun g grading hg hge => ?_⟩
    obtain ⟨grading₀, hg₀, hsteps⟩ := hsupersede.source hg
    rcases Loops.getElem?_concat hg₀ with hold | ⟨-, rfl⟩
    · exact absurd (List.getElem?_eq_some_iff.mp hold).1 (not_lt_of_ge hge)
    · exact ⟨_, link, sub.storedAt, hsteps⟩

theorem lives_step (db : ClassroomDb) (op : ClassroomOp) : Lives db (db.step op) := by
  cases op with
  | handIn env sub =>
    change Lives db (ingested db env sub)
    cases hsub : ingestSubmission db env sub with
    | error e =>
      rw [ingested_raised hsub]
      exact .of_follows (.refl _)
    | ok stored =>
      rw [ingested_eq hsub]
      rcases ingestSubmission_ok hsub with rfl | rfl | ⟨l, link, files, hhanded⟩
      · exact .of_follows (.refl _)
      · exact .of_follows (.refl _)
      · rcases hhanded.cases with ⟨i, -, -, rfl⟩ | ⟨ledger, -, rfl⟩
        · exact .of_follows (.refl _)
        · exact lives_storeVersion ..
  | retry subjectId g now =>
    change Lives db ((db.retryGrading subjectId g now).toOption.getD db)
    rcases retry_cases db subjectId g now with hnone | ⟨failed, hfailed, hstatus, hretried⟩
    · rw [hnone]
      exact .of_follows (.refl _)
    · rw [hretried]
      refine .of_follows (.modify fun row hrow => ?_)
      rw [hfailed] at hrow
      cases hrow
      exact .retried hstatus now
  | roster | request | coursework | assignments | reap | grade =>
    refine .of_quiet (quiet_step db _ ?_ ?_)
    · exact fun _ _ heq => ClassroomOp.noConfusion heq
    · exact fun _ _ _ heq => ClassroomOp.noConfusion heq

/-! ## Drafts -/

/-- A draft stands on a finished grading, with all that belongs to it. -/
structure LLMGrading.Consistent (grading : LLMGrading) : Prop where
  draft : grading.draft.isSome = true ↔ grading.status = .done
  graded : grading.status = .done →
    grading.gradedAt.isSome = true ∧ grading.provider.isSome = true ∧ grading.model.isSome = true ∧ grading.error = none

theorem LLMGrading.Consistent.of_not_done (h : grading.Consistent) (hstatus : grading.status ≠ .done)
    (hdraft : grading'.draft = grading.draft) (hstatus' : grading'.status ≠ .done) : grading'.Consistent where
  draft := by
    rw [hdraft, h.draft]
    exact ⟨fun h => absurd h hstatus, fun h => absurd h hstatus'⟩
  graded h := absurd h hstatus'

theorem LLMGrading.Consistent.leaves (h : grading.Consistent) (hstatus : grading.status ≠ .done) (call : JudgeCall)
    (started ended : ℕ) : (call.leaves db grading started ended).Consistent := by
  unfold JudgeCall.leaves
  split_ifs
  · exact h.of_not_done hstatus rfl fun heq => LLMGradingStatus.noConfusion heq
  · cases call with
    | result answer => exact ⟨⟨fun _ => rfl, fun _ => rfl⟩, fun _ => ⟨rfl, rfl, rfl, rfl⟩⟩
    | judgeError message => exact h.of_not_done hstatus rfl fun heq => LLMGradingStatus.noConfusion heq
    | error message => exact h.of_not_done hstatus rfl fun heq => LLMGradingStatus.noConfusion heq
    | lost => exact h.of_not_done hstatus rfl fun heq => LLMGradingStatus.noConfusion heq

/-- A finished grading takes no step. -/
theorem lifeStep_not_done (h : LifeStep grading grading') : grading.status ≠ .done := by
  intro hdone
  cases h with
  | worked h =>
    rcases worked_status h with ⟨h, -⟩ | ⟨h, -⟩ | ⟨h | h, -⟩
    all_goals
      rw [hdone] at h
      cases h
  | retried h =>
    rw [hdone] at h
    cases h
  | superseded h =>
    rw [hdone] at h
    cases h
  | revived h =>
    rw [hdone] at h
    cases h

theorem freshStatus_ne_done (link : ClassroomStudentLink) : freshStatus link ≠ .done := by
  unfold freshStatus
  split_ifs
  · decide
  · decide

theorem consistent_lifeStep (h : LifeStep grading grading') (hc : grading.Consistent) : grading'.Consistent := by
  have hstatus := lifeStep_not_done h
  cases h with
  | worked h =>
    cases h with
    | released h now => exact hc.of_not_done hstatus rfl fun heq => LLMGradingStatus.noConfusion heq
    | reaped h now => exact hc.of_not_done hstatus rfl fun heq => LLMGradingStatus.noConfusion heq
    | judged h db call started ended => exact hc.leaves hstatus call started ended
  | retried h now => exact hc.of_not_done hstatus rfl fun heq => LLMGradingStatus.noConfusion heq
  | superseded h now => exact hc.of_not_done hstatus rfl fun heq => LLMGradingStatus.noConfusion heq
  | revived h link now => exact hc.of_not_done hstatus rfl (freshStatus_ne_done link)

theorem consistent_new (workId : ℕ) (link : ClassroomStudentLink) (now : ℕ) :
    (newGrading workId (freshStatus link) now).Consistent :=
  ⟨⟨fun h => Bool.noConfusion h, fun h => absurd h (freshStatus_ne_done link)⟩, fun h => absurd h (freshStatus_ne_done link)⟩

theorem done_stays (hdone : grading.status = .done) (h : Relation.ReflTransGen LifeStep grading grading') :
    grading' = grading := by
  cases Relation.ReflTransGen.cases_head h with
  | inl heq => exact heq.symm
  | inr hhead =>
    obtain ⟨_, hstep, -⟩ := hhead
    exact absurd hdone (lifeStep_not_done hstep)

/-- Whatever syncs, requests and jobs come, a draft stands on a finished grading with its judge, its model and its
time, and that row is never written again. -/
theorem drafts_are_final {start t : ClassroomDb} {ops : List ClassroomOp} (hempty : start.gradings = [])
    (hrun : Run ClassroomDb.step Any start ops t) (g : ℕ) (grading : LLMGrading) (hg : t.gradings[g]? = some grading) :
    grading.Consistent ∧ (grading.draft.isSome = true → ∀ later : List ClassroomOp,
      (later.foldl ClassroomDb.step t).gradings[g]? = some grading) := by
  have hall : ∀ (g : ℕ) grading, t.gradings[g]? = some grading → grading.Consistent := by
    refine hrun.invariant (I := fun db : ClassroomDb => ∀ (g : ℕ) grading, db.gradings[g]? = some grading → grading.Consistent) ?_ ?_
    · intro g grading hg
      rw [hempty] at hg
      cases hg
    · exact fun db op h _ => (lives_step db op).invariant consistent_new (fun _ _ => consistent_lifeStep) h
  have hconsistent := hall g grading hg
  refine ⟨hconsistent, fun hdraft later => ?_⟩
  have hdone := hconsistent.draft.mp hdraft
  refine (run_foldl later).invariant (I := fun db : ClassroomDb => db.gradings[g]? = some grading) hg fun db op hold _ => ?_
  obtain ⟨grading', hg', hsteps⟩ := (lives_step db op).old g grading hold
  rw [hg', done_stays hdone hsteps]

/-- The work is handed in and graded. -/
def gradedOnce : List ClassroomOp :=
  [.assignments [⟨0, some "essay", none, true, true⟩], .handIn homework (handedIn [(⟨[], []⟩, some [])] 1),
    .grade [] 10 0 5 [⟨2, [], .result ⟨[], [], [], [], .null⟩, 2, 3⟩]]

theorem gradedOnce_is_final : ∃ grading, (gradedOnce.foldl ClassroomDb.step oneLink).gradings[0]? = some grading ∧
    grading.status = .done ∧ ∀ later : List ClassroomOp,
      (later.foldl ClassroomDb.step (gradedOnce.foldl ClassroomDb.step oneLink)).gradings[0]? = some grading := by
  have hdraft : ((gradedOnce.foldl ClassroomDb.step oneLink).gradings[0]?).any (·.draft.isSome) = true := by decide +kernel
  obtain ⟨grading, hg, hsome⟩ := (Option.any_eq_true _ _).mp hdraft
  obtain ⟨hconsistent, hfinal⟩ := drafts_are_final rfl (run_foldl gradedOnce) 0 grading hg
  exact ⟨grading, hg, hconsistent.draft.mp hsome, hfinal hsome⟩

/-! ## Links -/

/-- A grading waits only while the link of its work has no student. -/
structure WaitOk (db : ClassroomDb) : Prop where
  works : ∀ grading ∈ db.gradings, grading.classroomWorkId < db.works.length
  links : ∀ work ∈ db.works, work.linkId < db.links.length
  waiting : ∀ grading ∈ db.gradings, grading.status = .waitingLink →
    ∀ work, db.works[grading.classroomWorkId]? = some work → ∀ link, db.links[work.linkId]? = some link → link.studentId = none

/-- Every grading that waits now waited as it is before. -/
structure NoNewWait (db db' : ClassroomDb) : Prop where
  works : db'.works = db.works
  ids : ∀ grading' ∈ db'.gradings, ∃ grading ∈ db.gradings, grading.classroomWorkId = grading'.classroomWorkId
  waits : ∀ grading' ∈ db'.gradings, grading'.status = .waitingLink → grading' ∈ db.gradings

theorem NoNewWait.of_follows {R : LLMGrading → LLMGrading → Prop} (hworks : db'.works = db.works)
    (h : Table.Follows R db.gradings db'.gradings) (hids : ∀ a b, R a b → b.classroomWorkId = a.classroomWorkId)
    (hwaits : ∀ a b, R a b → b.status ≠ .waitingLink) : NoNewWait db db' where
  works := hworks
  ids grading' hg' := by
    obtain ⟨i, hi⟩ := List.mem_iff_getElem?.mp hg'
    obtain ⟨grading, hg, hsteps⟩ := h.source hi
    exact ⟨grading, List.mem_of_getElem? hg, (Table.same_of_steps hsteps hids).symm⟩
  waits grading' hg' hwait := by
    obtain ⟨i, hi⟩ := List.mem_iff_getElem?.mp hg'
    obtain ⟨grading, hg, hsteps⟩ := h.source hi
    cases hsteps with
    | refl => exact List.mem_of_getElem? hg
    | tail _ hlast => exact absurd hwait (hwaits _ _ hlast)

theorem worked_ne_waiting (h : Worked grading grading') : grading'.status ≠ .waitingLink := by
  rcases worked_status h with ⟨-, h⟩ | ⟨-, h⟩ | ⟨-, h | h | h⟩
  all_goals
    rw [h]
    decide

theorem Quiet.noNewWait (h : Quiet db db') : NoNewWait db db' :=
  .of_follows h.works h.gradings (fun _ _ => worked_workId) fun _ _ => worked_ne_waiting

/-- Links without a student stay without one. -/
theorem waitOk_of_noNewWait (h : WaitOk db) (hn : NoNewWait db db') (hlength : db.links.length ≤ db'.links.length)
    (hlinks : ∀ (l : ℕ) link link', db.links[l]? = some link → db'.links[l]? = some link' → link.studentId = none →
      link'.studentId = none) : WaitOk db' where
  works grading' hg' := by
    obtain ⟨grading, hg, hid⟩ := hn.ids grading' hg'
    rw [← hid, hn.works]
    exact h.works grading hg
  links work hwork := by
    rw [hn.works] at hwork
    exact (h.links work hwork).trans_le hlength
  waiting grading' hg' hwait work hwork link' hlink' := by
    rw [hn.works] at hwork
    have hlt := h.links work (List.mem_of_getElem? hwork)
    refine hlinks work.linkId _ link' (List.getElem?_eq_getElem hlt) hlink' ?_
    exact h.waiting grading' (hn.waits grading' hg' hwait) hwait work hwork _ (List.getElem?_eq_getElem hlt)

theorem waitOk_setLink (h : WaitOk db) {f : ClassroomStudentLink → ClassroomStudentLink}
    (hf : ∀ link, db.links[l]? = some link → link.studentId = none → (f link).studentId = none) :
    WaitOk (db.setLink l f) := by
  refine waitOk_of_noNewWait h (Links.setLink db l f).quiet.noNewWait (List.length_modify ..).ge
    fun k link link' hlink hlink' hnone => ?_
  obtain ⟨old, hold, rfl⟩ := Table.getElem?_modify_some hlink'
  rw [hlink] at hold
  cases hold
  by_cases hk : l = k
  · subst hk
    rw [if_pos rfl]
    exact hf link hlink hnone
  · rw [if_neg hk]
    exact hnone

/-- Whatever is written of a link, after its works are released. -/
theorem waitOk_setLink_release (h : WaitOk db) (f : ClassroomStudentLink → ClassroomStudentLink) (now : ℕ) :
    WaitOk ((db.setLink l f).releaseWaiting l now) := by
  have hn : NoNewWait db ((db.setLink l f).releaseWaiting l now) :=
    ((Links.setLink db l f).trans (Links.releaseWaiting _ l now)).quiet.noNewWait
  refine ⟨fun grading' hg' => ?_, fun work hwork => ?_, fun grading' hg' hwait work hwork link' hlink' => ?_⟩
  · obtain ⟨grading, hg, hid⟩ := hn.ids grading' hg'
    rw [← hid]
    exact h.works grading hg
  · rw [show ((db.setLink l f).releaseWaiting l now).links.length = db.links.length from List.length_modify ..]
    exact h.links work hwork
  · have hold := hn.waits grading' hg' hwait
    have hnot : work.linkId ≠ l := by
      intro heq
      obtain ⟨i, hi⟩ := List.mem_iff_getElem?.mp hg'
      obtain ⟨old, holdrow, hrow⟩ := Table.getElem?_updateWhere_some hi
      have hgrades : (db.setLink l f).gradesWorkOf l old = true → old.status ≠ .waitingLink := by
        intro hworks heq
        rw [if_pos (by rw [heq, hworks]; rfl)] at hrow
        rw [hrow] at hwait
        cases hwait
      by_cases hworks : (db.setLink l f).gradesWorkOf l old = true
      · rw [if_neg (by simp [hgrades hworks])] at hrow
        exact hgrades hworks (hrow ▸ hwait)
      · rw [if_neg (by simp [hworks])] at hrow
        subst hrow
        refine hworks ?_
        rw [ClassroomDb.gradesWorkOf, Option.any_eq_true]
        exact ⟨work, hwork, beq_iff_eq.mpr heq⟩
    refine h.waiting grading' hold hwait work hwork link' ?_
    rw [← hlink']
    exact (Table.getElem?_modify_ne f (Ne.symm hnot)).symm

theorem waitOk_addLink (h : WaitOk db) (new : ClassroomStudentLink) : WaitOk { db with links := db.links ++ [new] } where
  works := h.works
  links work hwork := by
    rw [List.length_append, List.length_singleton]
    exact Nat.lt_succ_of_lt (h.links work hwork)
  waiting grading hg hwait work hwork link hlink := by
    have hlt := h.links work (List.mem_of_getElem? hwork)
    rw [List.getElem?_append_left hlt] at hlink
    exact h.waiting grading hg hwait work hwork link hlink

theorem waitOk_upsertLink (h : WaitOk db) (subjectId now : ℕ) (matcher : Matcher) (entry : Matching.RosterEntry) :
    WaitOk (upsertLink subjectId now matcher db entry) := by
  unfold upsertLink
  by_cases hid : entry.userId = ""
  · rw [if_pos hid]
    exact h
  rw [if_neg hid]
  cases db.linkOf subjectId entry.userId with
  | none => exact waitOk_addLink h _
  | some l =>
    dsimp only
    have hnamed : WaitOk (db.setLink l (refreshed entry)) := waitOk_setLink h fun _ _ hnone => hnone
    generalize db.setLink l (refreshed entry) = named at hnamed ⊢
    cases named.links[l]? with
    | none => exact hnamed
    | some link =>
      dsimp only
      split_ifs with hname hkept hmethod
      · refine waitOk_setLink hnamed fun link _ hnone => ?_
        unfold confirmExact
        split_ifs <;> exact hnone
      · exact hnamed
      · refine waitOk_setLink hnamed fun link _ hnone => ?_
        unfold rematch
        rw [if_pos hmethod]
        exact hnone
      · exact waitOk_setLink_release hnamed _ now

theorem waitOk_upsertLinks (subjectId now : ℕ) (matcher : Matcher) (roster : List Matching.RosterEntry) :
    ∀ db : ClassroomDb, WaitOk db → WaitOk (upsertLinks subjectId now matcher roster db) := by
  induction roster with
  | nil => exact fun _ h => h
  | cons entry roster ih => exact fun db h => ih _ (waitOk_upsertLink h subjectId now matcher entry)

theorem waitOk_resolveLink {enrolled : List (ℕ × ℕ)} {subjectId now : ℕ} {action : LinkAction} {studentId : Option ℕ}
    (h : WaitOk db) (hok : db.resolveLink enrolled subjectId l action studentId now = .ok db') : WaitOk db' := by
  unfold ClassroomDb.resolveLink at hok
  cases hlink : (db.links[l]?).filter fun link => link.subjectId == subjectId with
  | none =>
    rw [hlink] at hok
    cases hok
  | some link =>
    rw [hlink] at hok
    cases action with
    | link =>
      cases studentId with
      | none =>
        cases hok
        exact h
      | some studentId =>
        change db.linkStudent enrolled subjectId l studentId now = .ok db' at hok
        unfold ClassroomDb.linkStudent at hok
        split_ifs at hok
        cases hok
        exact waitOk_setLink_release h _ now
    | ignore =>
      cases hok
      exact waitOk_setLink h fun _ _ _ => rfl
    | confirm =>
      change db.confirmLink subjectId l link now = .ok db' at hok
      unfold ClassroomDb.confirmLink at hok
      split at hok
      · split_ifs at hok
        cases hok
        exact waitOk_setLink_release h _ now
      · cases hok
        exact h
    | other =>
      cases hok
      exact h

theorem waitOk_confirmAll (h : WaitOk db) (subjectId : ℕ) : WaitOk (db.confirmAllLinks subjectId) := by
  have hloop : ∀ (ids : List ℕ) (s : ClassroomDb × List (Option ℕ)), WaitOk s.1 →
      WaitOk (ids.foldl ClassroomDb.confirmTurn s).1 := by
    intro ids
    induction ids with
    | nil => exact fun s hs => hs
    | cons l ids ih =>
      intro s hs
      refine ih _ ?_
      unfold ClassroomDb.confirmTurn
      split
      · exact hs
      · split_ifs
        · exact hs
        · exact waitOk_setLink hs fun _ _ hnone => hnone
  exact hloop (db.bulkConfirmable subjectId) (db, db.takenStudents subjectId) h

theorem waitOk_linkRequest (h : WaitOk db) (enrolled : List (ℕ × ℕ)) (subjectId now : ℕ) (request : LinkRequest) :
    WaitOk (db.linkRequest enrolled subjectId now request) := by
  cases request with
  | resolve linkId action studentId =>
    unfold ClassroomDb.linkRequest
    dsimp only
    cases hok : db.resolveLink enrolled subjectId linkId action studentId now with
    | error e => exact h
    | ok db' => exact waitOk_resolveLink h hok
  | confirmAll => exact waitOk_confirmAll h subjectId

theorem waitOk_linkRequests (enrolled : List (ℕ × ℕ)) (now : ℕ) (requests : List (ℕ × LinkRequest)) :
    ∀ db : ClassroomDb, WaitOk db → WaitOk (db.linkRequests enrolled now requests) := by
  induction requests with
  | nil => exact fun _ h => h
  | cons r requests ih => exact fun db h => ih _ (waitOk_linkRequest h enrolled r.1 now r.2)

/-- What writes no link. -/
theorem waitOk_of_same_links (h : WaitOk db) (hn : NoNewWait db db') (hlinks : db'.links = db.links) : WaitOk db' := by
  refine waitOk_of_noNewWait h hn (by rw [hlinks]) fun l link link' hlink hlink' hnone => ?_
  rw [hlinks, hlink] at hlink'
  cases hlink'
  exact hnone

theorem waitOk_turn (enrolled : List (ℕ × ℕ)) {s : Night} (h : WaitOk s.db) (g : ℕ) (turn : Turn) :
    WaitOk (s.turn enrolled g turn).db := by
  have hlinks := waitOk_linkRequests enrolled turn.checked turn.requests s.db h
  unfold Night.turn
  dsimp only
  by_cases hready : (s.db.linkRequests enrolled turn.checked turn.requests).ready g = true
  · rw [if_pos hready, Night.job_db]
    obtain ⟨grading, hg, heligible⟩ := ready_eligible hready
    obtain ⟨hworks, hsame, -⟩ := gradeOne_frame (s.db.linkRequests enrolled turn.checked turn.requests) g turn.call
      turn.started turn.ended
    refine waitOk_of_same_links hlinks (.of_follows (R := Worked) hworks ?_ (fun _ _ => worked_workId)
      fun _ _ => worked_ne_waiting) hsame
    rw [gradeOne_gradings hg]
    refine .modify fun row hrow => ?_
    rw [hg] at hrow
    cases hrow
    exact .judged heligible _ turn.call turn.started turn.ended
  · rw [if_neg hready]
    exact hlinks

theorem waitOk_run (enrolled : List (ℕ × ℕ)) (deadline : ℕ) (pairs : List (ℕ × Turn)) :
    ∀ s : Night, WaitOk s.db → WaitOk (Night.run enrolled deadline pairs s).db := by
  induction pairs with
  | nil => exact fun s h => h
  | cons p pairs ih =>
    intro s h
    unfold Night.run
    split_ifs
    · exact h
    · exact ih _ (waitOk_turn enrolled h p.1 p.2)

/-- All versions of a Classroom submission are works of its one user. -/
def OfOneUser (db : ClassroomDb) : ClassroomOp → Prop
  | .handIn env sub => ∀ j ∈ db.versionsOf env.submissionId,
      (db.works[j]?).all fun work => decide (db.linkOf env.subjectId sub.userId = some work.linkId)
  | _ => True

instance decidableOfOneUser (db : ClassroomDb) : ∀ op, Decidable (OfOneUser db op)
  | .handIn env sub => inferInstanceAs (Decidable (∀ j ∈ db.versionsOf env.submissionId,
      (db.works[j]?).all fun work => decide (db.linkOf env.subjectId sub.userId = some work.linkId)))
  | .roster .. => isTrue trivial
  | .request .. => isTrue trivial
  | .retry .. => isTrue trivial
  | .coursework .. => isTrue trivial
  | .assignments _ => isTrue trivial
  | .reap _ => isTrue trivial
  | .grade .. => isTrue trivial

theorem freshStatus_waiting (h : freshStatus link = .waitingLink) : link.studentId = none := by
  unfold freshStatus at h
  cases hstudent : link.studentId with
  | none => rfl
  | some studentId =>
    rw [hstudent] at h
    cases h

theorem noNewWait_supersedeOthers (db : ClassroomDb) (submissionId : PyText.Text) (keep now : ℕ) :
    NoNewWait db (db.supersedeOthers submissionId keep now) := by
  refine .of_follows (R := fun a b => b = { a with status := .superseded, updatedAt := now }) rfl
    (.updateWhere fun _ _ _ _ => rfl) (fun a b h => by rw [h]) fun a b h => ?_
  rw [h]
  exact fun heq => LLMGradingStatus.noConfusion heq

/-- What a sync writes of a version leaves its link. -/
theorem waitOk_setWork (h : WaitOk db) (i : ℕ) {f : ClassroomWork → ClassroomWork} (hf : ∀ w, (f w).linkId = w.linkId) :
    WaitOk (db.setWork i f) := by
  have hworks : ∀ (k : ℕ) work', (db.setWork i f).works[k]? = some work' →
      ∃ work, db.works[k]? = some work ∧ work'.linkId = work.linkId := by
    intro k work' hk
    obtain ⟨work, hwork, rfl⟩ := Table.getElem?_modify_some hk
    refine ⟨work, hwork, ?_⟩
    split_ifs
    · exact hf work
    · rfl
  refine ⟨fun grading hg => ?_, fun work' hwork' => ?_, fun grading hg hwait work' hwork' link' hlink' => ?_⟩
  · exact (h.works grading hg).trans_eq (List.length_modify ..).symm
  · obtain ⟨k, hk⟩ := List.mem_iff_getElem?.mp hwork'
    obtain ⟨work, hwork, hid⟩ := hworks k work' hk
    rw [hid]
    exact h.links work (List.mem_of_getElem? hwork)
  · obtain ⟨work, hwork, hid⟩ := hworks _ work' hwork'
    rw [hid] at hlink'
    exact h.waiting grading hg hwait work hwork link' hlink'

/-- A version revived for a link waits only where the link has no student. -/
theorem waitOk_revive (h : WaitOk db) {i : ℕ} (hlink : db.links[l]? = some link)
    (hwork : ∀ work, db.works[i]? = some work → work.linkId = l) (now : ℕ) : WaitOk (db.revive i now (freshStatus link)) := by
  refine ⟨fun grading' hg' => ?_, h.links, fun grading' hg' hwait work hwork' link' hlink' => ?_⟩
  · obtain ⟨k, hk⟩ := List.mem_iff_getElem?.mp hg'
    obtain ⟨grading, hg, rfl⟩ := Table.getElem?_updateWhere_some hk
    have hlt := h.works grading (List.mem_of_getElem? hg)
    split_ifs <;> exact hlt
  · obtain ⟨k, hk⟩ := List.mem_iff_getElem?.mp hg'
    obtain ⟨grading, hg, rfl⟩ := Table.getElem?_updateWhere_some hk
    by_cases hp : (grading.classroomWorkId == i && grading.status == .superseded) = true
    · rw [if_pos hp] at hwait hwork'
      rw [Bool.and_eq_true, beq_iff_eq] at hp
      rw [show db.works[i]? = some work from hp.1 ▸ hwork'] at hwork
      rw [hwork work rfl] at hlink'
      rw [show db.links[l]? = some link' from hlink', Option.some_inj] at hlink
      rw [hlink]
      exact freshStatus_waiting hwait
    · rw [if_neg hp] at hwait hwork'
      exact h.waiting grading (List.mem_of_getElem? hg) hwait work hwork' link' hlink'

/-- An earlier version becomes the latest again. -/
theorem waitOk_refresh (h : WaitOk db) {i : ℕ} (hlink : db.links[l]? = some link) (manifest : List WorkManifest.ManifestEntry)
    (hwork : ∀ work, db.works[i]? = some work → work.linkId = l) :
    WaitOk (refreshVersion db env sub link i manifest) := by
  have hlisted : WaitOk (db.setWork i (.withManifest manifest)) := waitOk_setWork h i fun _ => rfl
  have hseen : WaitOk ((db.setWork i (.withManifest manifest)).seeAgain i sub) := waitOk_setWork hlisted i fun _ => rfl
  refine waitOk_of_same_links (waitOk_revive hseen hlink (fun work' hwork' => ?_) sub.storedAt) (noNewWait_supersedeOthers ..) rfl
  obtain ⟨work₁, hwork₁, rfl⟩ := Table.getElem?_modify_some hwork'
  obtain ⟨work, hwork₀, rfl⟩ := Table.getElem?_modify_some hwork₁
  rw [if_pos rfl, if_pos rfl]
  exact hwork work hwork₀

/-- A new version. -/
theorem waitOk_add (h : WaitOk db) (hlink : db.links[l]? = some link) (manifest : List WorkManifest.ManifestEntry) :
    WaitOk (addVersion db env sub l link manifest) := by
  unfold addVersion
  refine waitOk_of_same_links ?_ (noNewWait_supersedeOthers ..) rfl
  refine ⟨fun grading hg => ?_, fun work hwork => ?_, fun grading hg hwait work hwork link' hlink' => ?_⟩
  · rw [List.length_append, List.length_singleton]
    rcases List.mem_append.mp hg with hg | hg
    · exact Nat.lt_succ_of_lt (h.works grading hg)
    · rw [List.mem_singleton.mp hg]
      exact Nat.lt_succ_self _
  · rcases List.mem_append.mp hwork with hwork | hwork
    · exact h.links work hwork
    · rw [List.mem_singleton.mp hwork]
      exact (List.getElem?_eq_some_iff.mp hlink).1
  · rcases List.mem_append.mp hg with hg | hg
    · have hlt := h.works grading hg
      rw [List.getElem?_append_left hlt] at hwork
      exact h.waiting grading hg hwait work hwork link' hlink'
    · rw [List.mem_singleton.mp hg] at hwait hwork
      have hnew : some (newWork env sub l manifest) = some work := by
        rw [← hwork]
        exact (Table.getElem?_concat_length ..).symm
      cases hnew
      rw [show db.links[l]? = some link' from hlink', Option.some_inj] at hlink
      rw [hlink]
      exact freshStatus_waiting hwait

theorem waitOk_handIn (h : WaitOk db) (hok : OfOneUser db (.handIn env sub)) : WaitOk (ingested db env sub) := by
  cases hsub : ingestSubmission db env sub with
  | error e =>
    rw [ingested_raised hsub]
    exact h
  | ok stored =>
    rw [ingested_eq hsub]
    rcases ingestSubmission_ok hsub with rfl | rfl | ⟨l, link, files, hhanded⟩
    · exact h
    · exact h
    have hversion : ∀ (i : ℕ) work, db.works[i]? = some work → work.classroomSubmissionId = env.submissionId →
        work.linkId = l := by
      intro i work hwork hid
      have := hok i (mem_versionsOf.mpr ⟨work, hwork, hid⟩)
      rw [hwork, Option.all_some, decide_eq_true_eq, hhanded.linkOf, Option.some_inj] at this
      exact this.symm
    rcases hhanded.cases with ⟨i, -, -, rfl⟩ | ⟨ledger, -, rfl⟩
    · exact waitOk_setWork h i fun _ => rfl
    · unfold storeVersion
      cases hsame : db.sameVersion env.submissionId (contentHash env ledger.manifest) with
      | some i =>
        obtain ⟨version, hrow, hid, -⟩ := sameVersion_some hsame
        refine waitOk_refresh h hhanded.row ledger.manifest fun work hwork => ?_
        rw [hrow] at hwork
        cases hwork
        exact hversion i version hrow hid
      | none => exact waitOk_add h hhanded.row ledger.manifest

theorem waitOk_step (h : WaitOk db) {op : ClassroomOp} (hok : OfOneUser db op) : WaitOk (db.step op) := by
  cases op with
  | roster subjectId now matcher roster => exact waitOk_upsertLinks subjectId now matcher roster db h
  | handIn env sub => exact waitOk_handIn h hok
  | request enrolled subjectId now request => exact waitOk_linkRequest h enrolled subjectId now request
  | retry subjectId g now =>
    change WaitOk ((db.retryGrading subjectId g now).toOption.getD db)
    rcases retry_cases db subjectId g now with hnone | ⟨failed, -, -, hretried⟩
    · rw [hnone]
      exact h
    · rw [hretried]
      refine waitOk_of_same_links h (.of_follows (R := fun a b => b = queueAgain now a) rfl (.modify fun _ _ => rfl)
        (fun a b hab => by rw [hab]; rfl) fun a b hab => ?_) rfl
      rw [hab]
      exact fun heq => LLMGradingStatus.noConfusion heq
  | coursework subjectId form =>
    obtain ⟨rows, hrows⟩ := linkCourseworkBatch_frame db subjectId form
    change WaitOk (((db.linkCourseworkBatch subjectId form).toOption.map (·.1)).getD db)
    rw [hrows]
    exact ⟨h.works, h.links, h.waiting⟩
  | assignments rows => exact ⟨h.works, h.links, h.waiting⟩
  | reap now => exact waitOk_of_same_links h (quiet_reapStale db now).noNewWait rfl
  | grade enrolled deadline nightStart cap turns =>
    change WaitOk (gradingLoop enrolled deadline nightStart cap turns db).db
    unfold gradingLoop
    split_ifs
    · exact h
    · exact waitOk_run enrolled deadline _ ⟨db, 0, 0, []⟩ h

/-- What waits for a link waits for one without a student. -/
def WaitsForStudent (t : ClassroomDb) : Prop := ∀ grading ∈ t.gradings, grading.status = .waitingLink →
  ∃ work link, t.works[grading.classroomWorkId]? = some work ∧ t.links[work.linkId]? = some link ∧ link.studentId = none

/-- Whatever comes in between, a grading that waits for a link belongs to a link without a student. -/
theorem waiting_gradings_have_no_student {start t : ClassroomDb} {ops : List ClassroomOp} (hworks : start.works = [])
    (hgradings : start.gradings = []) (hrun : Run ClassroomDb.step OfOneUser start ops t) : WaitsForStudent t := by
  have hok : WaitOk t := by
    refine hrun.invariant ⟨?_, ?_, ?_⟩ fun db op h hok => waitOk_step h hok
    · rw [hgradings]
      exact fun _ h => absurd h List.not_mem_nil
    · rw [hworks]
      exact fun _ h => absurd h List.not_mem_nil
    · rw [hgradings]
      exact fun _ h => absurd h List.not_mem_nil
  intro grading hg hwait
  have hwork := List.getElem?_eq_getElem (hok.works grading hg)
  have hlink := List.getElem?_eq_getElem (hok.links _ (List.mem_of_getElem? hwork))
  exact ⟨_, _, hwork, hlink, hok.waiting grading hg hwait _ hwork _ hlink⟩

/-- A course with one link, to nobody yet. -/
def noStudent : ClassroomDb :=
  { oneLink with links := [⟨0, "ann", none, "Ann", none, .none, none, [], false⟩] }

/-- Handed in, then linked, then handed in again. -/
def linkedBetween : List ClassroomOp :=
  [.handIn homework (handedIn [] 1), .request [(0, 0)] 0 2 (.resolve 0 .link (some 0)),
    .handIn homework (handedIn [(⟨[], []⟩, some [])] 3)]

theorem linkedBetween_waits : WaitsForStudent (linkedBetween.foldl ClassroomDb.step noStudent) :=
  waiting_gradings_have_no_student rfl rfl (run_of_checks (by decide +kernel))

end SubmissionsChecker.Classroom
