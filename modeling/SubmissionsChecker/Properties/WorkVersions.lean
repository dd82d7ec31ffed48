import SubmissionsChecker.Effects.Gradings
import SubmissionsChecker.Library.Runs

/-! The versions of a Classroom submission. Over any run of syncs, requests and jobs the latest version is what
was handed in last, and it is the only one that can still wait to be graded. -/

namespace SubmissionsChecker.Classroom

open PyText (Text)
open WorkManifest (ManifestEntry Metadata DriveFileRef Ledger)
open Runs

variable {db db' : ClassroomDb} {env : WorkManifest.Ingest} {sub : HandIn} {submissionId : Text} {i j l : ℕ}
  {work work' : ClassroomWork} {grading : LLMGrading} {link : ClassroomStudentLink}
  {files : List (DriveFileRef × Metadata)}

/-! ## What the manifest lists -/

theorem takeDownload_modified {s s' : Ledger} {entry : ManifestEntry} {downloaded : WorkManifest.DownloadedFile}
    (hok : WorkManifest.takeDownload env i s entry downloaded = .ok s') :
    modifiedSet s'.manifest = modifiedSet s.manifest ++ [(entry.driveId, entry.modified)] := by
  unfold WorkManifest.takeDownload at hok
  dsimp only at hok
  cases hcontent : downloaded.content with
  | none =>
    rw [hcontent] at hok
    dsimp only at hok
    split at hok
    · cases hok
      simp [Ledger.skip, modifiedSet]
    · cases hok
      simp [Ledger.skip, modifiedSet]
  | some content =>
    rw [hcontent] at hok
    dsimp only at hok
    split_ifs at hok
    · cases hok
      simp [Ledger.skip, modifiedSet]
    · cases hok
      simp [WorkManifest.keep, WorkManifest.keptEntry, modifiedSet]

theorem ingestFile_modified {s s' : Ledger} {item : (DriveFileRef × Metadata) × ℕ}
    (hok : WorkManifest.ingestFile env s item = .ok s') :
    modifiedSet s'.manifest = modifiedSet s.manifest ++ modified env [item.1] := by
  unfold WorkManifest.ingestFile at hok
  cases hsize : WorkManifest.metaSize item.1.2 with
  | error e =>
    rw [hsize] at hok
    cases hok
  | ok size =>
    rw [hsize] at hok
    dsimp only at hok
    split_ifs at hok
    · cases hok
      simp [Ledger.skip, modifiedSet, modified, WorkManifest.newEntry]
    · cases hok
      simp [Ledger.skip, modifiedSet, modified, WorkManifest.newEntry]
    · cases hdownload : env.download item.2 with
      | none =>
        rw [hdownload] at hok
        cases hok
      | some downloaded =>
        rw [hdownload] at hok
        exact takeDownload_modified hok

/-- Each file of the hand-in, as it was modified, in order. -/
theorem ingestFiles_modified {objects : WorkManifest.ObjectStore} {ledger : Ledger}
    (hok : WorkManifest.ingestFiles env files objects = .ok ledger) : modifiedSet ledger.manifest = modified env files := by
  have hloop : ∀ (items : List ((DriveFileRef × Metadata) × ℕ)) (s s' : Ledger),
      items.foldlM (WorkManifest.ingestFile env) s = .ok s' →
      modifiedSet s'.manifest = modifiedSet s.manifest ++ modified env (items.map (·.1)) := by
    intro items
    induction items with
    | nil =>
      intro s s' h
      cases h
      exact (List.append_nil _).symm
    | cons item items ih =>
      intro s s' h
      obtain ⟨s₁, hitem, hrest⟩ := Loops.foldlM_cons_ok.mp h
      rw [ih s₁ s' hrest, ingestFile_modified hitem, List.append_assoc]
      rfl
  have := hloop _ _ _ hok
  rw [List.zipIdx_map_fst] at this
  exact this

theorem sameSet_iff {xs ys : List (Text × Text)} : sameSet xs ys = true ↔ ∀ x, x ∈ xs ↔ x ∈ ys := by
  simp only [sameSet, Bool.and_eq_true, List.all_eq_true, List.contains_iff_mem]
  exact ⟨fun h x => ⟨h.1 x, h.2 x⟩, fun h => ⟨fun x => (h x).mp, fun x => (h x).mpr⟩⟩

/-! ## The latest version -/

theorem mem_versionsOf : i ∈ db.versionsOf submissionId ↔
    ∃ work, db.works[i]? = some work ∧ work.classroomSubmissionId = submissionId := by
  rw [ClassroomDb.versionsOf, Table.mem_idsWhere]
  simp only [beq_iff_eq]

theorem seenKey_le (hne : i ≠ j) (h : db.seenKey i ≤ db.seenKey j) : db.seenKey i < db.seenKey j := by
  refine lt_of_le_of_ne h fun heq => hne ?_
  exact congrArg (fun k => (ofLex k).2) heq

theorem latestVersion_iff : db.latestVersion submissionId = some i ↔
    i ∈ db.versionsOf submissionId ∧ ∀ j ∈ db.versionsOf submissionId, db.seenKey j ≤ db.seenKey i := by
  rw [ClassroomDb.latestVersion, List.argmax_eq_some_iff]
  refine and_congr_right fun hi => and_iff_left_of_imp fun hmax j hj hle => ?_
  by_cases hne : i = j
  · rw [hne]
  · exact absurd (seenKey_le hne hle) (not_lt_of_ge (hmax j hj))

/-- Versions seen alike are ordered alike. -/
theorem latestVersion_congr (hversions : ∀ j, j ∈ db'.versionsOf submissionId ↔ j ∈ db.versionsOf submissionId)
    (hseen : ∀ j ∈ db.versionsOf submissionId, db'.seenKey j = db.seenKey j) :
    db'.latestVersion submissionId = db.latestVersion submissionId := by
  refine Option.ext fun i => ?_
  rw [latestVersion_iff, latestVersion_iff, hversions]
  refine and_congr_right fun hi => forall_congr' fun j => ?_
  rw [hversions]
  refine forall_congr' fun hj => ?_
  rw [hseen j hj, hseen i hi]

/-- The version of the submission that was seen last. -/
theorem latestVersion_of_later (hi : i ∈ db.versionsOf submissionId) (hwork : db.works[i]? = some work)
    (hlater : ∀ j ∈ db.versionsOf submissionId, j ≠ i → ∀ work', db.works[j]? = some work' → work'.seenAt < work.seenAt) :
    db.latestVersion submissionId = some i := by
  refine latestVersion_iff.mpr ⟨hi, fun j hj => ?_⟩
  by_cases hne : j = i
  · rw [hne]
  · obtain ⟨work', hwork', -⟩ := mem_versionsOf.mp hj
    have hlt := hlater j hj hne work' hwork'
    have hkeys : db.seenKey j = toLex (work'.seenAt, j) ∧ db.seenKey i = toLex (work.seenAt, i) := by
      unfold ClassroomDb.seenKey
      rw [hwork, hwork']
      exact ⟨rfl, rfl⟩
    rw [hkeys.1, hkeys.2, Prod.Lex.toLex_le_toLex]
    exact .inl hlt

/-! ## Gradings and their versions -/

/-- Each version has one grading, under its own id, and no two versions of a submission have the same contents. -/
structure Paired (db : ClassroomDb) : Prop where
  graded : db.gradings.map (·.classroomWorkId) = List.range db.works.length
  unique : ∀ (i j : ℕ) work work', db.works[i]? = some work → db.works[j]? = some work' →
    work.classroomSubmissionId = work'.classroomSubmissionId → work.contentHash = work'.contentHash → i = j

namespace Paired

theorem workId (h : Paired db) (hg : db.gradings[i]? = some grading) : grading.classroomWorkId = i := by
  have hmap : (db.gradings.map (·.classroomWorkId))[i]? = some grading.classroomWorkId := by
    rw [List.getElem?_map, hg, Option.map_some]
  rw [h.graded] at hmap
  obtain ⟨hlt, heq⟩ := List.getElem?_eq_some_iff.mp hmap
  rw [List.getElem_range] at heq
  exact heq.symm

theorem length (h : Paired db) : db.gradings.length = db.works.length := by
  have := congrArg List.length h.graded
  rwa [List.length_map, List.length_range] at this

theorem exists_grading (h : Paired db) (hi : i ∈ db.versionsOf submissionId) : ∃ grading, db.gradings[i]? = some grading := by
  obtain ⟨work, hwork, -⟩ := mem_versionsOf.mp hi
  have hlt : i < db.gradings.length := h.length ▸ (List.getElem?_eq_some_iff.mp hwork).1
  exact ⟨_, List.getElem?_eq_getElem hlt⟩

/-- A grading is of a version of the submission exactly when it stands at one. -/
theorem gradesVersionOf (h : Paired db) (hg : db.gradings[i]? = some grading) :
    db.gradesVersionOf submissionId grading = true ↔ i ∈ db.versionsOf submissionId := by
  rw [ClassroomDb.gradesVersionOf, h.workId hg, Option.any_eq_true, mem_versionsOf]
  simp only [beq_iff_eq]

end Paired

/-- A grading that a job or a request touches is neither superseded before nor after. -/
theorem worked_superseded {grading grading' : LLMGrading} (h : Worked grading grading') :
    grading.status ≠ .superseded ∧ grading'.status ≠ .superseded := by
  rcases worked_status h with ⟨h₁, h₂⟩ | ⟨h₁, h₂⟩ | ⟨h₁ | h₁, h₂ | h₂ | h₂⟩
  all_goals
    rw [h₁, h₂]
    decide

/-- Only a waiting grading becomes one that waits for a job. -/
theorem worked_waits {grading grading' : LLMGrading} (h : Worked grading grading')
    (hold : grading.status ≠ .pending ∧ grading.status ≠ .waitingLink) :
    grading'.status ≠ .pending ∧ grading'.status ≠ .waitingLink := by
  rcases worked_status h with ⟨h₁, -⟩ | ⟨-, h₂⟩ | ⟨-, h₂ | h₂ | h₂⟩
  · exact absurd h₁ hold.2
  all_goals
    rw [h₂]
    decide

/-! ## What a hand-in does to the versions -/

theorem supersedeOthers_at (h : Paired db) (hg : db.gradings[j]? = some grading) (keep now : ℕ) :
    (db.supersedeOthers submissionId keep now).gradings[j]? = some
      (if grading.status.supersedable = true ∧ j ∈ db.versionsOf submissionId ∧ j ≠ keep then
        { grading with status := .superseded, updatedAt := now }
      else grading) := by
  rw [ClassroomDb.supersedeOthers, ClassroomDb.updateGradings, Table.getElem?_updateWhere, hg, Option.map_some]
  simp only [Bool.and_eq_true, h.gradesVersionOf hg, bne_iff_ne, h.workId hg, and_assoc]

theorem revive_at (h : Paired db) (hg : db.gradings[j]? = some grading) (i now : ℕ) (status : LLMGradingStatus) :
    (db.revive i now status).gradings[j]? = some
      (if j = i ∧ grading.status = .superseded then { grading with status := status, updatedAt := now } else grading) := by
  rw [ClassroomDb.revive, ClassroomDb.updateGradings, Table.getElem?_updateWhere, hg, Option.map_some]
  simp only [Bool.and_eq_true, beq_iff_eq, h.workId hg]

theorem paired_updateGradings (h : Paired db) (p : ℕ → LLMGrading → Bool) {f : LLMGrading → LLMGrading}
    (hf : ∀ g, (f g).classroomWorkId = g.classroomWorkId) : Paired (db.updateGradings p f) where
  graded := (Table.map_updateWhere p hf db.gradings).trans h.graded
  unique := h.unique

theorem freshStatus_ne_superseded (link : ClassroomStudentLink) : freshStatus link ≠ .superseded := by
  unfold freshStatus
  split_ifs
  · decide
  · decide

theorem superseded_not_waits : LLMGradingStatus.superseded ≠ .pending ∧ LLMGradingStatus.superseded ≠ .waitingLink := by
  decide

theorem not_waits_of_not_supersedable (h : grading.status.supersedable = false) :
    grading.status ≠ .pending ∧ grading.status ≠ .waitingLink := by
  constructor
  · intro heq
    rw [heq] at h
    cases h
  · intro heq
    rw [heq] at h
    cases h

/-- The version lists the files of the hand-in, with what Classroom says of it. -/
structure ClassroomWork.Shows (work : ClassroomWork) (env : WorkManifest.Ingest) (sub : HandIn)
    (files : List (DriveFileRef × Metadata)) : Prop where
  submission : work.classroomSubmissionId = env.submissionId
  state : work.state = sub.state
  late : work.late = sub.late
  seenAt : work.seenAt = sub.now
  manifest : sameSet (modifiedSet work.manifest) (modified env files) = true

/-- Version `i` has become the hand-in. The gradings of the other versions of the submission do not wait, those of
other submissions are as they were. -/
structure StoredAs (db db' : ClassroomDb) (env : WorkManifest.Ingest) (sub : HandIn)
    (files : List (DriveFileRef × Metadata)) (i : ℕ) : Prop where
  paired : Paired db'
  row : ∃ work, db'.works[i]? = some work ∧ work.Shows env sub files
  before : ∀ work, db.works[i]? = some work → work.classroomSubmissionId = env.submissionId
  works : ∀ j, j ≠ i → db'.works[j]? = db.works[j]?
  latest : ∀ grading, db'.gradings[i]? = some grading → grading.status ≠ .superseded
  others : ∀ j grading, j ∈ db.versionsOf env.submissionId → j ≠ i → db'.gradings[j]? = some grading →
    grading.status ≠ .pending ∧ grading.status ≠ .waitingLink
  elsewhere : ∀ j, j ∉ db'.versionsOf env.submissionId → db'.gradings[j]? = db.gradings[j]?

namespace StoredAs

variable (h : StoredAs db db' env sub files i)

include h

theorem mem (hne : j ≠ i) : j ∈ db'.versionsOf submissionId ↔ j ∈ db.versionsOf submissionId := by
  rw [mem_versionsOf, mem_versionsOf, h.works j hne]

theorem mem_elsewhere (hs : submissionId ≠ env.submissionId) :
    j ∈ db'.versionsOf submissionId ↔ j ∈ db.versionsOf submissionId := by
  by_cases hne : j = i
  · subst hne
    rw [mem_versionsOf, mem_versionsOf]
    constructor
    · rintro ⟨work, hwork, hid⟩
      obtain ⟨work', hwork', hshows⟩ := h.row
      rw [hwork] at hwork'
      cases hwork'
      exact absurd (hid.symm.trans hshows.submission) hs
    · rintro ⟨work, hwork, hid⟩
      exact absurd (hid.symm.trans (h.before work hwork)) hs
  · exact h.mem hne

theorem latestVersion_elsewhere (hs : submissionId ≠ env.submissionId) :
    db'.latestVersion submissionId = db.latestVersion submissionId := by
  refine latestVersion_congr (fun j => h.mem_elsewhere hs) fun j hj => ?_
  have hne : j ≠ i := by
    rintro rfl
    obtain ⟨work, hwork, hid⟩ := mem_versionsOf.mp hj
    exact hs (hid.symm.trans (h.before work hwork))
  unfold ClassroomDb.seenKey
  rw [h.works j hne]

/-- Where the clock has gone on since the other versions were seen. -/
theorem latestVersion_self (hlater : ∀ j ∈ db.versionsOf env.submissionId, ∀ work, db.works[j]? = some work →
    work.seenAt < sub.now) : db'.latestVersion env.submissionId = some i := by
  obtain ⟨work, hwork, hshows⟩ := h.row
  refine latestVersion_of_later (mem_versionsOf.mpr ⟨work, hwork, hshows.submission⟩) hwork fun j hj hne work' hwork' => ?_
  rw [hshows.seenAt]
  exact hlater j ((h.mem hne).mp hj) work' (h.works j hne ▸ hwork')

end StoredAs

/-- The latest version of each submission is not given up, and no other one waits. -/
structure VersionsOk (db : ClassroomDb) : Prop where
  paired : Paired db
  latest : ∀ submissionId i grading, db.latestVersion submissionId = some i → db.gradings[i]? = some grading →
    grading.status ≠ .superseded
  others : ∀ submissionId i j grading, db.latestVersion submissionId = some i → j ∈ db.versionsOf submissionId →
    j ≠ i → db.gradings[j]? = some grading → grading.status ≠ .pending ∧ grading.status ≠ .waitingLink

theorem paired_setWork (h : Paired db) {f : ClassroomWork → ClassroomWork}
    (hid : ∀ w, (f w).classroomSubmissionId = w.classroomSubmissionId) (hhash : ∀ w, (f w).contentHash = w.contentHash) :
    Paired (db.setWork i f) where
  graded := by
    rw [show (db.setWork i f).works.length = db.works.length from List.length_modify ..]
    exact h.graded
  unique j k work work' hj hk hs hc := by
    have hold : ∀ (n : ℕ) w, (db.works.modify i f)[n]? = some w → ∃ w₀, db.works[n]? = some w₀ ∧
        w₀.classroomSubmissionId = w.classroomSubmissionId ∧ w₀.contentHash = w.contentHash := by
      intro n w hw
      rw [List.getElem?_modify] at hw
      obtain ⟨w₀, hw₀, rfl⟩ := Option.map_eq_some_iff.mp hw
      refine ⟨w₀, hw₀, ?_⟩
      split_ifs
      · exact ⟨(hid w₀).symm, (hhash w₀).symm⟩
      · exact ⟨rfl, rfl⟩
    obtain ⟨w₀, hw₀, hs₀, hc₀⟩ := hold j work hj
    obtain ⟨w₁, hw₁, hs₁, hc₁⟩ := hold k work' hk
    exact h.unique j k w₀ w₁ hw₀ hw₁ (by rw [hs₀, hs, hs₁]) (by rw [hc₀, hc, hc₁])

theorem mem_versionsOf_setWork {f : ClassroomWork → ClassroomWork}
    (hid : ∀ w, (f w).classroomSubmissionId = w.classroomSubmissionId) :
    j ∈ (db.setWork i f).versionsOf submissionId ↔ j ∈ db.versionsOf submissionId := by
  have hids : (db.works.modify i f).map (·.classroomSubmissionId) = db.works.map (·.classroomSubmissionId) :=
    Table.map_modify hid _ _
  have hget : (db.works.modify i f)[j]?.map (·.classroomSubmissionId) = db.works[j]?.map (·.classroomSubmissionId) := by
    rw [← List.getElem?_map, ← List.getElem?_map, hids]
  rw [mem_versionsOf, mem_versionsOf]
  simp only [← Option.map_eq_some_iff]
  rw [← hget]
  rfl

/-- Seen again as it was. -/
theorem storedAs_seeAgain (h : VersionsOk db) (hi : db.latestVersion env.submissionId = some i)
    (hsame : isUnchanged db env files i = true) : StoredAs db (db.seeAgain i sub) env sub files i where
  paired := paired_setWork h.paired (fun _ => rfl) fun _ => rfl
  row := by
    obtain ⟨hmem, -⟩ := latestVersion_iff.mp hi
    obtain ⟨work, hwork, hid⟩ := mem_versionsOf.mp hmem
    rw [isUnchanged, hwork] at hsame
    refine ⟨sub.seen work, ?_, ⟨hid, rfl, rfl, rfl, hsame⟩⟩
    rw [ClassroomDb.seeAgain, ClassroomDb.setWork, Table.getElem?_modify_self, hwork, Option.map_some]
  before work hwork := by
    obtain ⟨work', hwork', hid⟩ := mem_versionsOf.mp (latestVersion_iff.mp hi).1
    rw [hwork] at hwork'
    cases hwork'
    exact hid
  works j hne := Table.getElem?_modify_ne _ (Ne.symm hne)
  latest grading hg := h.latest _ i grading hi hg
  others j grading hj hne hg := h.others _ i j grading hi hj hne hg
  elsewhere _ _ := rfl

theorem sameVersion_some {hash : Text} (h : db.sameVersion submissionId hash = some i) :
    ∃ work, db.works[i]? = some work ∧ work.classroomSubmissionId = submissionId ∧ work.contentHash = hash := by
  obtain ⟨work, hwork, hp⟩ := Table.findId_some h
  rw [Bool.and_eq_true, beq_iff_eq, beq_iff_eq] at hp
  exact ⟨work, hwork, hp.1, hp.2⟩

/-- The contents of an earlier version. -/
theorem storedAs_refresh (h : VersionsOk db) {manifest : List ManifestEntry}
    (hi : ∃ work, db.works[i]? = some work ∧ work.classroomSubmissionId = env.submissionId)
    (hmanifest : modifiedSet manifest = modified env files) :
    StoredAs db (refreshVersion db env sub link i manifest) env sub files i := by
  obtain ⟨work, hwork, hid⟩ := hi
  set seen := db.setWork i (sub.seen ∘ .withManifest manifest) with hseen
  have hstored : refreshVersion db env sub link i manifest =
      (seen.revive i sub.storedAt (freshStatus link)).supersedeOthers env.submissionId i sub.storedAt := by
    unfold refreshVersion
    congr 2
    simp only [ClassroomDb.seeAgain, ClassroomDb.setWork, List.modify_modify_eq, hseen]
  have hpaired : Paired seen := paired_setWork h.paired (fun _ => rfl) fun _ => rfl
  have hrevived : Paired (seen.revive i sub.storedAt (freshStatus link)) := paired_updateGradings hpaired _ fun _ => rfl
  have hmem : ∀ j, j ∈ seen.versionsOf env.submissionId ↔ j ∈ db.versionsOf env.submissionId := fun j =>
    mem_versionsOf_setWork fun _ => rfl
  have hgrading : ∀ (j : ℕ) grading, db.gradings[j]? = some grading →
      (refreshVersion db env sub link i manifest).gradings[j]? =
        if j = i then some (if grading.status = .superseded then
            { grading with status := freshStatus link, updatedAt := sub.storedAt } else grading)
        else some (if grading.status.supersedable = true ∧ j ∈ db.versionsOf env.submissionId then
            { grading with status := .superseded, updatedAt := sub.storedAt } else grading) := by
    intro j grading hg
    have hrevive := revive_at hpaired hg i sub.storedAt (freshStatus link)
    rw [hstored, supersedeOthers_at hrevived hrevive]
    by_cases hji : j = i
    · simp [hji]
    · have hmem' : j ∈ (seen.revive i sub.storedAt (freshStatus link)).versionsOf env.submissionId ↔
          j ∈ db.versionsOf env.submissionId := hmem j
      simp [hji, hmem']
  have hi : i ∈ db.versionsOf env.submissionId := mem_versionsOf.mpr ⟨work, hwork, hid⟩
  have hworks : (refreshVersion db env sub link i manifest).works = db.works.modify i (sub.seen ∘ .withManifest manifest) := by
    rw [hstored]
    rfl
  refine ⟨?_, ?_, ?_, ?_, ?_, ?_, ?_⟩
  · rw [hstored]
    exact paired_updateGradings hrevived _ fun _ => rfl
  · refine ⟨sub.seen (work.withManifest manifest), ?_, ⟨hid, rfl, rfl, rfl, ?_⟩⟩
    · rw [hworks, Table.getElem?_modify_self, hwork, Option.map_some]
      rfl
    · change sameSet (modifiedSet manifest) (modified env files) = true
      rw [hmanifest]
      exact sameSet_iff.mpr fun _ => Iff.rfl
  · intro work' hwork'
    rw [hwork] at hwork'
    cases hwork'
    exact hid
  · intro j hne
    rw [hworks]
    exact Table.getElem?_modify_ne _ (Ne.symm hne)
  · intro grading hg
    obtain ⟨old, hold⟩ := h.paired.exists_grading hi
    rw [hgrading i old hold, if_pos rfl, Option.some_inj] at hg
    rw [← hg]
    split_ifs with hstatus
    · exact freshStatus_ne_superseded link
    · exact hstatus
  · intro j grading hj hne hg
    obtain ⟨old, hold⟩ := h.paired.exists_grading hj
    rw [hgrading j old hold, if_neg hne, Option.some_inj] at hg
    rw [← hg]
    by_cases hsupersedable : old.status.supersedable = true
    · rw [if_pos ⟨hsupersedable, hj⟩]
      exact superseded_not_waits
    · rw [if_neg fun h => hsupersedable h.1]
      exact not_waits_of_not_supersedable (Bool.eq_false_iff.mpr hsupersedable)
  · intro j hj
    have hj' : j ∉ db.versionsOf env.submissionId := by
      rw [hstored] at hj
      exact fun h => hj ((hmem j).mpr h)
    have hne : j ≠ i := fun heq => hj' (heq ▸ hi)
    cases hg : db.gradings[j]? with
    | none =>
      rw [List.getElem?_eq_none_iff] at hg ⊢
      rw [hstored]
      simpa [ClassroomDb.supersedeOthers, ClassroomDb.revive, ClassroomDb.updateGradings, hseen] using hg
    | some old => rw [hgrading j old hg, if_neg hne, if_neg fun h => hj' h.2]

/-- New contents. -/
theorem storedAs_add (h : VersionsOk db) {manifest : List ManifestEntry}
    (hnew : db.sameVersion env.submissionId (contentHash env manifest) = none)
    (hmanifest : modifiedSet manifest = modified env files) :
    StoredAs db (addVersion db env sub l link manifest) env sub files db.works.length := by
  set added : ClassroomDb :=
    { db with
      works := db.works ++ [newWork env sub l manifest]
      gradings := db.gradings ++ [newGrading db.works.length (freshStatus link) sub.storedAt] } with hadded
  have hstored : addVersion db env sub l link manifest =
      added.supersedeOthers env.submissionId db.works.length sub.storedAt := rfl
  have hpaired : Paired added :=
    { graded := by
        rw [hadded]
        dsimp only
        rw [List.map_append, h.paired.graded, List.length_append, List.length_singleton, List.range_succ]
        rfl
      unique := fun i j work work' hi hj hs hc => by
        have hfresh : ∀ (k : ℕ) w, db.works[k]? = some w → w.classroomSubmissionId = env.submissionId →
            w.contentHash ≠ contentHash env manifest := by
          intro k w hw hid hhash
          have := Table.findId_none hnew w (List.mem_of_getElem? hw)
          rw [Bool.and_eq_false_iff, beq_eq_false_iff_ne, beq_eq_false_iff_ne] at this
          rcases this with this | this
          · exact this hid
          · exact this hhash
        rcases Loops.getElem?_concat hi with hi | ⟨rfl, rfl⟩
        · rcases Loops.getElem?_concat hj with hj | ⟨rfl, rfl⟩
          · exact h.paired.unique i j work work' hi hj hs hc
          · exact absurd hc (hfresh i work hi hs)
        · rcases Loops.getElem?_concat hj with hj | ⟨rfl, rfl⟩
          · exact absurd hc.symm (hfresh j work' hj hs.symm)
          · rfl }
  have hself : db.works.length ∈ added.versionsOf env.submissionId :=
    mem_versionsOf.mpr ⟨_, Table.getElem?_concat_length .., rfl⟩
  have hgrading : ∀ (j : ℕ) grading, added.gradings[j]? = some grading → (addVersion db env sub l link manifest).gradings[j]? =
      some (if grading.status.supersedable = true ∧ j ∈ added.versionsOf env.submissionId ∧ j ≠ db.works.length then
        { grading with status := .superseded, updatedAt := sub.storedAt } else grading) :=
    fun j grading hg => supersedeOthers_at hpaired hg _ _
  have hold : ∀ j, j ≠ db.works.length → db.gradings[j]? = added.gradings[j]? ∧ db.works[j]? = added.works[j]? := by
    intro j hne
    rw [hadded]
    dsimp only
    by_cases hlt : j < db.works.length
    · rw [List.getElem?_append_left hlt, List.getElem?_append_left (h.paired.length ▸ hlt)]
      exact ⟨rfl, rfl⟩
    · have hge : db.works.length + 1 ≤ j := by omega
      have hlength := h.paired.length
      rw [List.getElem?_eq_none (by omega), List.getElem?_eq_none (by simp; omega), List.getElem?_eq_none (by omega),
        List.getElem?_eq_none (by simp; omega)]
      exact ⟨rfl, rfl⟩
  refine ⟨paired_updateGradings hpaired _ fun _ => rfl, ?_, ?_, ?_, ?_, ?_, ?_⟩
  · refine ⟨newWork env sub l manifest, Table.getElem?_concat_length .., ⟨rfl, rfl, rfl, rfl, ?_⟩⟩
    change sameSet (modifiedSet manifest) (modified env files) = true
    rw [hmanifest]
    exact sameSet_iff.mpr fun _ => Iff.rfl
  · intro work hwork
    exact absurd (List.getElem?_eq_some_iff.mp hwork).1 (lt_irrefl _)
  · exact fun j hne => (hold j hne).2.symm
  · intro grading hg
    have hlast : added.gradings[db.works.length]? = some (newGrading db.works.length (freshStatus link) sub.storedAt) := by
      have := Table.getElem?_concat_length db.gradings (newGrading db.works.length (freshStatus link) sub.storedAt)
      rwa [h.paired.length] at this
    rw [hgrading _ _ hlast, if_neg fun h => h.2.2 rfl, Option.some_inj] at hg
    rw [← hg]
    exact freshStatus_ne_superseded link
  · intro j grading hj hne hg
    obtain ⟨old, hold'⟩ := h.paired.exists_grading hj
    rw [(hold j hne).1] at hold'
    have hj' : j ∈ added.versionsOf env.submissionId := by
      rw [mem_versionsOf] at hj ⊢
      rwa [← (hold j hne).2]
    rw [hgrading j old hold', Option.some_inj] at hg
    rw [← hg]
    by_cases hsupersedable : old.status.supersedable = true
    · rw [if_pos ⟨hsupersedable, hj', hne⟩]
      exact superseded_not_waits
    · rw [if_neg fun h => hsupersedable h.1]
      exact not_waits_of_not_supersedable (Bool.eq_false_iff.mpr hsupersedable)
  · intro j hj
    have hj' : j ∉ added.versionsOf env.submissionId := hj
    have hne : j ≠ db.works.length := fun heq => hj' (heq ▸ hself)
    rw [(hold j hne).1]
    cases hg : added.gradings[j]? with
    | none =>
      rw [List.getElem?_eq_none_iff] at hg ⊢
      rw [hstored]
      exact (Table.length_updateWhere ..).le.trans hg
    | some old => rw [hgrading j old hg, if_neg fun h => hj' h.2.1]

theorem storedAs_handIn (h : VersionsOk db) {stored : ClassroomDb × HandInOutcome}
    (hhanded : Handed db env sub stored l link files) : ∃ i, StoredAs db stored.1 env sub files i := by
  rcases hhanded.cases with ⟨i, hi, hsame, rfl⟩ | ⟨ledger, hledger, rfl⟩
  · exact ⟨i, storedAs_seeAgain h hi hsame⟩
  · have hmanifest := ingestFiles_modified hledger
    unfold storeVersion
    cases hsame : db.sameVersion env.submissionId (contentHash env ledger.manifest) with
    | some i =>
      obtain ⟨work, hwork, hid, -⟩ := sameVersion_some hsame
      exact ⟨i, storedAs_refresh h ⟨work, hwork, hid⟩ hmanifest⟩
    | none => exact ⟨db.works.length, storedAs_add h hsame hmanifest⟩

/-! ## Every step keeps the versions in order -/

/-- The clock goes on between two hand-ins of a submission, and a grading queued again is of its latest version. -/
def Orderly (db : ClassroomDb) : ClassroomOp → Prop
  | .handIn env sub => ∀ j ∈ db.versionsOf env.submissionId, (db.works[j]?).all fun work => decide (work.seenAt < sub.now)
  | .retry _ g _ => (db.works[g]?).all fun work => decide (db.latestVersion work.classroomSubmissionId = some g)
  | _ => True

instance decidableOrderly (db : ClassroomDb) : ∀ op, Decidable (Orderly db op)
  | .handIn env sub => inferInstanceAs (Decidable (∀ j ∈ db.versionsOf env.submissionId,
      (db.works[j]?).all fun work => decide (work.seenAt < sub.now)))
  | .retry _ g _ => inferInstanceAs (Decidable ((db.works[g]?).all fun work =>
      decide (db.latestVersion work.classroomSubmissionId = some g)))
  | .roster .. => isTrue trivial
  | .request .. => isTrue trivial
  | .coursework .. => isTrue trivial
  | .assignments _ => isTrue trivial
  | .reap _ => isTrue trivial
  | .grade .. => isTrue trivial

theorem versionsOk_stored (h : VersionsOk db) (hstored : StoredAs db db' env sub files i)
    (hlater : ∀ j ∈ db.versionsOf env.submissionId, ∀ work, db.works[j]? = some work → work.seenAt < sub.now) :
    VersionsOk db' where
  paired := hstored.paired
  latest s k grading hk hg := by
    by_cases hs : s = env.submissionId
    · subst hs
      rw [hstored.latestVersion_self hlater, Option.some_inj] at hk
      subst hk
      exact hstored.latest grading hg
    · have hmem := (latestVersion_iff.mp hk).1
      rw [hstored.latestVersion_elsewhere hs] at hk
      have hnot : k ∉ db'.versionsOf env.submissionId := by
        intro hself
        obtain ⟨w, hw, hid⟩ := mem_versionsOf.mp hself
        obtain ⟨w', hw', hid'⟩ := mem_versionsOf.mp hmem
        rw [hw] at hw'
        cases hw'
        exact hs (hid'.symm.trans hid)
      rw [hstored.elsewhere k hnot] at hg
      exact h.latest s k grading hk hg
  others s k j grading hk hj hne hg := by
    by_cases hs : s = env.submissionId
    · subst hs
      rw [hstored.latestVersion_self hlater, Option.some_inj] at hk
      subst hk
      exact hstored.others j grading ((hstored.mem hne).mp hj) hne hg
    · rw [hstored.latestVersion_elsewhere hs] at hk
      have hnot : j ∉ db'.versionsOf env.submissionId := by
        intro hself
        obtain ⟨w, hw, hid⟩ := mem_versionsOf.mp hself
        obtain ⟨w', hw', hid'⟩ := mem_versionsOf.mp hj
        rw [hw] at hw'
        cases hw'
        exact hs (hid'.symm.trans hid)
      rw [hstored.elsewhere j hnot] at hg
      exact h.others s k j grading hk ((hstored.mem_elsewhere hs).mp hj) hne hg

theorem versionsOf_of_works (hworks : db'.works = db.works) : db'.versionsOf submissionId = db.versionsOf submissionId := by
  rw [ClassroomDb.versionsOf, hworks, ClassroomDb.versionsOf]

theorem latestVersion_of_works (hworks : db'.works = db.works) :
    db'.latestVersion submissionId = db.latestVersion submissionId := by
  refine latestVersion_congr (fun j => by rw [versionsOf_of_works hworks]) fun j _ => ?_
  rw [ClassroomDb.seenKey, hworks, ClassroomDb.seenKey]

theorem versionsOk_quiet (h : VersionsOk db) (hquiet : Quiet db db') : VersionsOk db' where
  paired :=
    { graded := by
        rw [hquiet.gradings.map_eq fun _ _ => worked_workId, hquiet.works]
        exact h.paired.graded
      unique := by
        rw [hquiet.works]
        exact h.paired.unique }
  latest s i grading hi hg := by
    rw [latestVersion_of_works hquiet.works] at hi
    obtain ⟨old, hold, hsteps⟩ := hquiet.gradings.source hg
    exact Table.keeps_of_steps (P := fun g => g.status ≠ .superseded) hsteps
      (fun _ _ hstep _ => (worked_superseded hstep).2) (h.latest s i old hi hold)
  others s i j grading hi hj hne hg := by
    rw [latestVersion_of_works hquiet.works] at hi
    rw [versionsOf_of_works hquiet.works] at hj
    obtain ⟨old, hold, hsteps⟩ := hquiet.gradings.source hg
    exact Table.keeps_of_steps (P := fun g => g.status ≠ .pending ∧ g.status ≠ .waitingLink) hsteps
      (fun _ _ hstep => worked_waits hstep) (h.others s i j old hi hj hne hold)

theorem versionsOk_retry (h : VersionsOk db) {subjectId g now : ℕ} (hok : Orderly db (.retry subjectId g now)) :
    VersionsOk (db.step (.retry subjectId g now)) := by
  change VersionsOk ((db.retryGrading subjectId g now).toOption.getD db)
  rcases retry_cases db subjectId g now with hnone | ⟨failed, hfailed, -, hretried⟩
  · rw [hnone]
    exact h
  rw [hretried]
  refine ⟨⟨?_, h.paired.unique⟩, ?_, ?_⟩
  · have hids : (db.gradings.modify g (queueAgain now)).map (·.classroomWorkId) = db.gradings.map (·.classroomWorkId) :=
      Table.map_modify (f := queueAgain now) (fun _ => rfl) _ _
    exact hids.trans h.paired.graded
  · intro s i grading hi hg
    obtain ⟨old, hold, rfl⟩ := Table.getElem?_modify_some hg
    split_ifs
    · exact fun heq => LLMGradingStatus.noConfusion heq
    · exact h.latest s i old hi hold
  · intro s i j grading hi hj hne hg
    obtain ⟨old, hold, rfl⟩ := Table.getElem?_modify_some hg
    by_cases hgj : g = j
    · subst hgj
      obtain ⟨work, hwork, hid⟩ := mem_versionsOf.mp hj
      have hlatest : (db.works[g]?).all fun work => decide (db.latestVersion work.classroomSubmissionId = some g) := hok
      rw [show db.works[g]? = some work from hwork, Option.all_some, decide_eq_true_eq, hid] at hlatest
      rw [show db.latestVersion s = some i from hi, Option.some_inj] at hlatest
      exact absurd hlatest.symm hne
    · rw [if_neg hgj]
      exact h.others s i j old hi hj hne hold

theorem orderly_handIn (hok : Orderly db (.handIn env sub)) :
    ∀ j ∈ db.versionsOf env.submissionId, ∀ work, db.works[j]? = some work → work.seenAt < sub.now := by
  intro j hj work hwork
  have := hok j hj
  rw [hwork, Option.all_some, decide_eq_true_eq] at this
  exact this

theorem versionsOk_step (h : VersionsOk db) {op : ClassroomOp} (hok : Orderly db op) : VersionsOk (db.step op) := by
  by_cases hhandIn : ∃ env sub, op = .handIn env sub
  · obtain ⟨env, sub, rfl⟩ := hhandIn
    change VersionsOk (ingested db env sub)
    cases hsub : ingestSubmission db env sub with
    | error e =>
      rw [ingested_raised hsub]
      exact h
    | ok stored =>
      rw [ingested_eq hsub]
      rcases ingestSubmission_ok hsub with rfl | rfl | ⟨l, link, files, hhanded⟩
      · exact h
      · exact h
      · obtain ⟨i, hstored⟩ := storedAs_handIn h hhanded
        exact versionsOk_stored h hstored (orderly_handIn hok)
  · by_cases hretry : ∃ subjectId g now, op = .retry subjectId g now
    · obtain ⟨subjectId, g, now, rfl⟩ := hretry
      exact versionsOk_retry h hok
    · exact versionsOk_quiet h (quiet_step db op (fun env sub heq => hhandIn ⟨env, sub, heq⟩)
        fun subjectId g now heq => hretry ⟨subjectId, g, now, heq⟩)

/-! ## What was handed in last -/

/-- A hand-in that was stored: what Classroom said of it, its files, and when. -/
structure Receipt where
  state : Text
  late : Bool
  seenAt : ℕ
  files : List (Text × Text)
  deriving DecidableEq

/-- The outcome is a version, old or new. -/
def HandInOutcome.isStored : HandInOutcome → Bool
  | .unchanged | .newVersion => true
  | .noLink | .ignored => false

def receiptOf (db : ClassroomDb) (env : WorkManifest.Ingest) (sub : HandIn) : Option Receipt := do
  let stored ← (ingestSubmission db env sub).toOption
  guard stored.2.isStored
  let files ← (fileMetas sub.files).toOption
  return ⟨sub.state, sub.late, sub.now, modified env files⟩

/-- The tables with the last receipt of each submission. -/
structure Inbox where
  db : ClassroomDb
  last : Text → Option Receipt

def Inbox.received (s : Inbox) (env : WorkManifest.Ingest) (sub : HandIn) : Text → Option Receipt :=
  match receiptOf s.db env sub with
  | some receipt => Function.update s.last env.submissionId (some receipt)
  | none => s.last

def Inbox.step (s : Inbox) (op : ClassroomOp) : Inbox where
  db := s.db.step op
  last :=
    match op with
    | .handIn env sub => s.received env sub
    | _ => s.last

/-- The version is what the receipt says. -/
structure ClassroomWork.Matches (work : ClassroomWork) (receipt : Receipt) : Prop where
  state : work.state = receipt.state
  late : work.late = receipt.late
  seenAt : work.seenAt = receipt.seenAt
  manifest : sameSet (modifiedSet work.manifest) receipt.files = true

/-- The latest version of each submission is what was handed in last. -/
structure InboxOk (s : Inbox) : Prop where
  versions : VersionsOk s.db
  last : ∀ submissionId receipt, s.last submissionId = some receipt →
    ∃ i work, s.db.latestVersion submissionId = some i ∧ s.db.works[i]? = some work ∧ work.Matches receipt
  none : ∀ submissionId, s.last submissionId = none → s.db.versionsOf submissionId = []

theorem receiptOf_stored {stored : ClassroomDb × HandInOutcome} (hsub : ingestSubmission db env sub = .ok stored)
    (hhanded : Handed db env sub stored l link files) :
    receiptOf db env sub = some ⟨sub.state, sub.late, sub.now, modified env files⟩ := by
  have hstored : stored.2.isStored = true := by
    rcases hhanded.cases with ⟨i, -, -, rfl⟩ | ⟨ledger, -, rfl⟩
    · rfl
    · unfold storeVersion
      cases db.sameVersion env.submissionId (contentHash env ledger.manifest) <;> rfl
  unfold receiptOf
  rw [hsub, hhanded.metas]
  simp [Except.toOption, hstored]

/-- What is not stored leaves the book as it is. -/
theorem step_handIn_of_none {s : Inbox} (hdb : ingested s.db env sub = s.db) (hreceipt : receiptOf s.db env sub = none) :
    s.step (.handIn env sub) = s := by
  have hstep : s.step (.handIn env sub) = ⟨ingested s.db env sub, s.received env sub⟩ := rfl
  rw [hstep, hdb, Inbox.received, hreceipt]

theorem inboxOk_stored {s : Inbox} (h : InboxOk s) (hok : Orderly s.db (.handIn env sub))
    {stored : ClassroomDb × HandInOutcome} (hsub : ingestSubmission s.db env sub = .ok stored)
    (hhanded : Handed s.db env sub stored l link files) : InboxOk (s.step (.handIn env sub)) := by
  have hdb : (s.step (.handIn env sub)).db = stored.1 := ingested_eq hsub
  have hlast : (s.step (.handIn env sub)).last =
      Function.update s.last env.submissionId (some ⟨sub.state, sub.late, sub.now, modified env files⟩) := by
    change s.received env sub = _
    rw [Inbox.received, receiptOf_stored hsub hhanded]
  obtain ⟨i, hstored⟩ := storedAs_handIn h.versions hhanded
  refine ⟨versionsOk_step h.versions hok, fun s' receipt hreceipt => ?_, fun s' hnone => ?_⟩
  · rw [hlast] at hreceipt
    rw [hdb]
    by_cases hs : s' = env.submissionId
    · subst hs
      rw [Function.update_self, Option.some_inj] at hreceipt
      subst hreceipt
      obtain ⟨work, hwork, hshows⟩ := hstored.row
      exact ⟨i, work, hstored.latestVersion_self (orderly_handIn hok), hwork, hshows.state, hshows.late, hshows.seenAt,
        hshows.manifest⟩
    · rw [Function.update_of_ne hs] at hreceipt
      obtain ⟨k, work, hk, hwork, hmatches⟩ := h.last s' receipt hreceipt
      have hne : k ≠ i := by
        rintro rfl
        obtain ⟨w, hw, hid⟩ := mem_versionsOf.mp (latestVersion_iff.mp hk).1
        exact hs (hid.symm.trans (hstored.before w hw))
      exact ⟨k, work, (hstored.latestVersion_elsewhere hs).trans hk, (hstored.works k hne).trans hwork, hmatches⟩
  · rw [hlast] at hnone
    rw [hdb]
    by_cases hs : s' = env.submissionId
    · rw [hs, Function.update_self] at hnone
      cases hnone
    · rw [Function.update_of_ne hs] at hnone
      have hempty := h.none s' hnone
      refine List.eq_nil_iff_forall_not_mem.mpr fun j hj => ?_
      have := (hstored.mem_elsewhere hs).mp hj
      rw [hempty] at this
      exact List.not_mem_nil this

theorem inboxOk_of_works {s s' : Inbox} (h : InboxOk s) (hversions : VersionsOk s'.db) (hworks : s'.db.works = s.db.works)
    (hlast : s'.last = s.last) : InboxOk s' where
  versions := hversions
  last submissionId receipt hreceipt := by
    rw [hlast] at hreceipt
    rw [latestVersion_of_works hworks, hworks]
    exact h.last submissionId receipt hreceipt
  none submissionId hnone := by
    rw [hlast] at hnone
    rw [versionsOf_of_works hworks]
    exact h.none submissionId hnone

theorem works_retry (db : ClassroomDb) (subjectId g now : ℕ) : (db.step (.retry subjectId g now)).works = db.works := by
  change ((db.retryGrading subjectId g now).toOption.getD db).works = db.works
  rcases retry_cases db subjectId g now with hnone | ⟨-, -, -, hretried⟩
  · rw [hnone]
  · rw [hretried]
    rfl

theorem inboxOk_step {s : Inbox} {op : ClassroomOp} (h : InboxOk s) (hok : Orderly s.db op) : InboxOk (s.step op) := by
  have hversions := versionsOk_step h.versions hok
  cases op with
  | handIn env sub =>
    cases hsub : ingestSubmission s.db env sub with
    | error e =>
      rw [step_handIn_of_none (ingested_raised hsub) (by simp [receiptOf, hsub, Except.toOption])]
      exact h
    | ok stored =>
      rcases ingestSubmission_ok hsub with rfl | rfl | ⟨l, link, files, hhanded⟩
      · rw [step_handIn_of_none (ingested_eq hsub) (by simp [receiptOf, hsub, Except.toOption, HandInOutcome.isStored])]
        exact h
      · rw [step_handIn_of_none (ingested_eq hsub) (by simp [receiptOf, hsub, Except.toOption, HandInOutcome.isStored])]
        exact h
      · exact inboxOk_stored h hok hsub hhanded
  | retry subjectId g now => exact inboxOk_of_works h hversions (works_retry s.db subjectId g now) rfl
  | roster | request | coursework | assignments | reap | grade =>
    refine inboxOk_of_works h hversions (quiet_step s.db _ ?_ ?_).works rfl
    · exact fun _ _ heq => ClassroomOp.noConfusion heq
    · exact fun _ _ _ heq => ClassroomOp.noConfusion heq

theorem inboxOk_run {start t : Inbox} {ops : List ClassroomOp} (hworks : start.db.works = [])
    (hgradings : start.db.gradings = []) (hlast : start.last = fun _ => none)
    (hrun : Run Inbox.step (fun s op => Orderly s.db op) start ops t) : InboxOk t := by
  refine hrun.invariant ?_ fun s op h hok => inboxOk_step h hok
  refine ⟨⟨⟨?_, ?_⟩, ?_, ?_⟩, ?_, ?_⟩
  · rw [hworks, hgradings]
    rfl
  · intro i j work work' hi
    rw [hworks] at hi
    cases hi
  · intro submissionId i grading hi hg
    rw [hgradings] at hg
    cases hg
  · intro submissionId i j grading hi hj hne hg
    rw [hgradings] at hg
    cases hg
  · intro submissionId receipt hreceipt
    rw [hlast] at hreceipt
    cases hreceipt
  · intro submissionId _
    rw [ClassroomDb.versionsOf, hworks]
    rfl

/-- The latest version of the submission is what was handed in last and has a grading that is not given up. The other
versions have other contents, and gradings that do not wait. -/
structure Inbox.LatestIsLast (t : Inbox) (submissionId : Text) : Prop where
  nothing : t.last submissionId = none → t.db.versionsOf submissionId = []
  latest : ∀ receipt, t.last submissionId = some receipt → ∃ i work grading,
    t.db.latestVersion submissionId = some i ∧ t.db.works[i]? = some work ∧ work.Matches receipt ∧
      t.db.gradings[i]? = some grading ∧ grading.classroomWorkId = i ∧ grading.status ≠ .superseded ∧
      ∀ j ∈ t.db.versionsOf submissionId, j ≠ i → ∃ work' grading', t.db.works[j]? = some work' ∧
        work'.contentHash ≠ work.contentHash ∧ t.db.gradings[j]? = some grading' ∧ grading'.classroomWorkId = j ∧
        grading'.status ≠ .pending ∧ grading'.status ≠ .waitingLink

theorem latest_version_is_last_handIn {start t : Inbox} {ops : List ClassroomOp} (hworks : start.db.works = [])
    (hgradings : start.db.gradings = []) (hlast : start.last = fun _ => none)
    (hrun : Run Inbox.step (fun s op => Orderly s.db op) start ops t) (submissionId : Text) :
    t.LatestIsLast submissionId := by
  have h := inboxOk_run hworks hgradings hlast hrun
  refine ⟨h.none submissionId, fun receipt hreceipt => ?_⟩
  obtain ⟨i, work, hi, hwork, hmatches⟩ := h.last submissionId receipt hreceipt
  have hmem := (latestVersion_iff.mp hi).1
  obtain ⟨grading, hg⟩ := h.versions.paired.exists_grading hmem
  refine ⟨i, work, grading, hi, hwork, hmatches, hg, h.versions.paired.workId hg, h.versions.latest _ i grading hi hg,
    fun j hj hne => ?_⟩
  obtain ⟨work', hwork', hid'⟩ := mem_versionsOf.mp hj
  obtain ⟨work₀, hwork₀, hid⟩ := mem_versionsOf.mp hmem
  rw [hwork] at hwork₀
  cases hwork₀
  obtain ⟨grading', hg'⟩ := h.versions.paired.exists_grading hj
  refine ⟨work', grading', hwork', fun hhash => hne ?_, hg', h.versions.paired.workId hg',
    h.versions.others _ i j grading' hi hj hne hg'⟩
  exact h.versions.paired.unique j i work' work hwork' hwork (hid'.trans hid.symm) hhash

/-- A course with one link, to a student. -/
def oneLink : ClassroomDb where
  assignments := []
  links := [⟨0, "ann", none, "Ann", some 0, .email, none, [], true⟩]
  works := []
  gradings := []

/-- Every file that can be read is empty. -/
def homework : WorkManifest.Ingest where
  subjectId := 0
  assignmentId := 0
  submissionId := []
  sha256 := fun bytes _ => if bytes = [] then 0 else 1
  isWord := fun _ => false
  str := fun _ => []
  download := fun _ => some ⟨[], [], some [], none⟩
  uploads := fun _ => true

def handedIn (files : List (DriveFileRef × Option Metadata)) (now : ℕ) : HandIn := ⟨"ann", [], false, files, now, now⟩

/-- A file is attached, taken back and attached again. -/
def attachedTwice : List ClassroomOp :=
  [.handIn homework (handedIn [] 1), .handIn homework (handedIn [(⟨[], []⟩, some [])] 2), .handIn homework (handedIn [] 3),
    .handIn homework (handedIn [(⟨[], []⟩, some [])] 4)]

def attachedInbox : Inbox := attachedTwice.foldl Inbox.step ⟨oneLink, fun _ => none⟩

theorem attachedTwice_runs : Run Inbox.step (fun s op => Orderly s.db op) ⟨oneLink, fun _ => none⟩ attachedTwice
    attachedInbox := run_of_checks (by decide +kernel)

theorem attachedTwice_is_latest : attachedInbox.LatestIsLast [] :=
  latest_version_is_last_handIn rfl rfl rfl attachedTwice_runs []

/-- What was handed in last is not fetched again while no file of it changes. -/
theorem second_sync_is_unchanged {start t : Inbox} {ops : List ClassroomOp} (hworks : start.db.works = [])
    (hgradings : start.db.gradings = []) (hlast : start.last = fun _ => none)
    (hrun : Run Inbox.step (fun s op => Orderly s.db op) start ops t) {receipt : Receipt}
    (hreceipt : t.last env.submissionId = some receipt) (hl : t.db.linkOf env.subjectId sub.userId = some l)
    (hlink : t.db.links[l]? = some link) (hmethod : link.method ≠ .ignored) (hmetas : fileMetas sub.files = .ok files)
    (hsame : sameSet receipt.files (modified env files) = true) :
    ∃ i, t.db.latestVersion env.submissionId = some i ∧
      ingestSubmission t.db env sub = .ok (t.db.seeAgain i sub, .unchanged) := by
  obtain ⟨i, work, hi, hwork, hmatches⟩ := (inboxOk_run hworks hgradings hlast hrun).last _ receipt hreceipt
  refine ⟨i, hi, ?_⟩
  have hunchanged : isUnchanged t.db env files i = true := by
    rw [isUnchanged, hwork, Option.any_some]
    exact sameSet_iff.mpr fun x => (sameSet_iff.mp hmatches.manifest x).trans (sameSet_iff.mp hsame x)
  have hlatest : (t.db.latestVersion env.submissionId).filter (isUnchanged t.db env files) = some i := by
    rw [hi, Option.filter_some, if_pos hunchanged]
  have hfor : ingestFor t.db env sub l link = .ok (t.db.seeAgain i sub, .unchanged) := by
    unfold ingestFor
    rw [hmetas, Loops.ok_bind, hlatest]
    rfl
  unfold ingestSubmission
  rw [hl]
  dsimp only
  rw [hlink]
  dsimp only
  rw [if_neg hmethod, hfor]

theorem attachedInbox_last : attachedInbox.last homework.submissionId = some ⟨[], false, 4, [([], [])]⟩ := by decide +kernel

theorem attachedInbox_links : attachedInbox.db.links = oneLink.links :=
  (ingested_links ..).trans ((ingested_links ..).trans ((ingested_links ..).trans (ingested_links ..)))

/-- Drive gives no file any more, and is not asked for one. -/
def offline : WorkManifest.Ingest := { homework with download := fun _ => none }

theorem attachedTwice_unchanged :
    ∃ i, attachedInbox.db.latestVersion offline.submissionId = some i ∧
      ingestSubmission attachedInbox.db offline (handedIn [(⟨[], []⟩, some [])] 5) =
        .ok (attachedInbox.db.seeAgain i (handedIn [(⟨[], []⟩, some [])] 5), .unchanged) := by
  have hl : attachedInbox.db.linkOf offline.subjectId "ann" = some 0 := by decide +kernel
  have hlink : attachedInbox.db.links[0]? = some ⟨0, "ann", none, "Ann", some 0, .email, none, [], true⟩ := by
    rw [attachedInbox_links]
    rfl
  exact second_sync_is_unchanged rfl rfl rfl attachedTwice_runs attachedInbox_last hl hlink (by decide) rfl
    (by decide)

end SubmissionsChecker.Classroom
