import SubmissionsChecker.Effects.Applies
import SubmissionsChecker.Library.Runs

/-! The objects under the keys a config references. A key is made of file names alone, so two
pictures or two content files can share one. -/

namespace SubmissionsChecker

open Paths

variable {site : Site} {c c' : Catalog} {req : ApplyRequest} {cfg prev : ConfigYml} {subject : Option SubjectRow}
  {disk : Disk} {tmp : Path}

/-! Keys -/

@[simp] theorem imageKey_inj {code f g : String} : imageKey code f = imageKey code g ↔ f = g := by
  rw [imageKey, imageKey, String.append_right_inj]

@[simp] theorem contentKey_inj {code a b f g : String} :
    contentKey code a f = contentKey code b g ↔ a ++ "/" ++ f = b ++ "/" ++ g := by
  simp only [contentKey, String.append_assoc, String.append_right_inj]

@[simp] theorem imageKey_ne_contentKey {code a f g : String} : imageKey code f ≠ contentKey code a g := by
  rw [imageKey, contentKey]
  simp only [String.append_assoc, ne_eq, String.append_right_inj]
  intro h
  have hlist := congrArg String.toList h
  simp at hlist

/-! References -/

/-- The files a config references: the names joined below the archive's directory, and the key. -/
def ConfigYml.references (cfg : ConfigYml) : List (List String × String) :=
  ([PictureSlot.grid, .main].filterMap fun slot => (cfg.picture slot).map fun name => ([name], imageKey cfg.subjectCode name))
    ++ cfg.contentFiles.map fun f => (["assignments", f.1, f.2], contentKey cfg.subjectCode f.1 f.2)

theorem mem_slots (slot : PictureSlot) : slot ∈ [PictureSlot.grid, .main] := by
  rcases slot <;> simp

theorem ConfigYml.mem_references {r : List String × String} : r ∈ cfg.references ↔
    (∃ slot name, cfg.picture slot = some name ∧ r = ([name], imageKey cfg.subjectCode name)) ∨
      ∃ f ∈ cfg.contentFiles, r = (["assignments", f.1, f.2], contentKey cfg.subjectCode f.1 f.2) := by
  rw [ConfigYml.references, List.mem_append, List.mem_filterMap, List.mem_map]
  constructor
  · rintro (⟨slot, -, hslot⟩ | ⟨f, hf, rfl⟩)
    · obtain ⟨name, hname, rfl⟩ := Option.map_eq_some_iff.mp hslot
      exact .inl ⟨slot, name, hname, rfl⟩
    · exact .inr ⟨f, hf, rfl⟩
  · rintro (⟨slot, name, hname, rfl⟩ | ⟨f, hf, rfl⟩)
    · exact .inl ⟨slot, mem_slots slot, by rw [hname]; rfl⟩
    · exact .inr ⟨f, hf, rfl⟩

/-! The plan -/

theorem mem_pictureUploads {slot : PictureSlot} {name : String} : (slot, name) ∈ pictureUploads cfg prev disk tmp ↔
    cfg.picture slot = some name ∧ prev.picture slot ≠ some name ∧ disk.exists (picturePath tmp name) = true := by
  rw [pictureUploads, List.mem_filterMap]
  constructor
  · rintro ⟨slot', -, h⟩
    obtain ⟨name', hname', h⟩ := Option.bind_eq_some_iff.mp h
    rw [Option.ite_none_right_eq_some] at h
    obtain ⟨hnew, heq⟩ := h
    obtain ⟨rfl, rfl⟩ := Prod.mk.inj (Option.some.inj heq)
    exact ⟨hname', hnew⟩
  · rintro ⟨hname, hnew⟩
    exact ⟨slot, mem_slots slot, by rw [hname, Option.bind_some, if_pos hnew]⟩

/-- The slot held this picture, holds another name now, and its url is stored. -/
def PictureDropped (cfg prev : ConfigYml) (subject : Option SubjectRow) (slot : PictureSlot) (name : String) : Prop :=
  prev.picture slot = some name ∧ cfg.picture slot ≠ some name ∧ ((subject.bind (·.pictureUrl slot)).any (· != "")) = true

instance (slot : PictureSlot) (name : String) : Decidable (PictureDropped cfg prev subject slot name) := by
  unfold PictureDropped
  infer_instance

/-- The assignment is kept and no longer lists this content file. -/
def ContentDropped (cfg prev : ConfigYml) (f : String × String) : Prop :=
  ∃ a ∈ cfg.assignments, ∃ old ∈ prev.assignments.lookup a.1, f.1 = a.1 ∧ f.2 ∈ old.contentNames ∧ f.2 ∉ a.2.contentNames

theorem mem_removedPictures {name : String} :
    name ∈ removedPictures cfg prev subject ↔ ∃ slot, PictureDropped cfg prev subject slot name := by
  rw [removedPictures, List.mem_filterMap]
  constructor
  · rintro ⟨slot, -, h⟩
    obtain ⟨name', hname', h⟩ := Option.bind_eq_some_iff.mp h
    rw [Option.ite_none_right_eq_some] at h
    obtain ⟨hdropped, heq⟩ := h
    obtain rfl := Option.some.inj heq
    exact ⟨slot, hname', hdropped⟩
  · rintro ⟨slot, hname, hdropped⟩
    exact ⟨slot, mem_slots slot, by rw [hname, Option.bind_some, if_pos hdropped]⟩

theorem mem_removedContent {f : String × String} : f ∈ removedContent cfg prev ↔ ContentDropped cfg prev f := by
  obtain ⟨code, name⟩ := f
  rw [removedContent, List.mem_flatMap]
  constructor
  · rintro ⟨a, ha, hf⟩
    split at hf
    · cases hf
    · rename_i old hold
      obtain ⟨name', hname', heq⟩ := List.mem_map.mp hf
      obtain ⟨rfl, rfl⟩ := Prod.mk.inj heq
      rw [List.mem_filter, decide_eq_true_eq] at hname'
      exact ⟨a, ha, old, hold, rfl, hname'⟩
  · rintro ⟨a, ha, old, hold, rfl, hname⟩
    refine ⟨a, ha, ?_⟩
    rw [Option.mem_def.mp hold]
    apply List.mem_map_of_mem
    rwa [List.mem_filter, decide_eq_true_eq]

theorem mem_removedKeys {key : String} : key ∈ (computePlan cfg prev subject disk tmp).removedKeys ↔
    (∃ slot name, PictureDropped cfg prev subject slot name ∧ key = imageKey cfg.subjectCode name) ∨
      ∃ f, ContentDropped cfg prev f ∧ key = contentKey cfg.subjectCode f.1 f.2 := by
  change key ∈ List.map _ _ ++ List.map _ _ ↔ _
  rw [List.mem_append, List.mem_map, List.mem_map]
  constructor
  · rintro (⟨name, hname, rfl⟩ | ⟨f, hf, rfl⟩)
    · obtain ⟨slot, hdropped⟩ := mem_removedPictures.mp hname
      exact .inl ⟨slot, name, hdropped, rfl⟩
    · exact .inr ⟨f, mem_removedContent.mp hf, rfl⟩
  · rintro (⟨slot, name, hdropped, rfl⟩ | ⟨f, hf, rfl⟩)
    · exact .inl ⟨name, mem_removedPictures.mpr ⟨slot, hdropped⟩, rfl⟩
    · exact .inr ⟨f, mem_removedContent.mpr hf, rfl⟩

/-- What is uploaded: a picture whose name is new in its slot, or a content file. -/
theorem mem_newFiles {file : Path × String} : file ∈ (computePlan cfg prev subject disk tmp).newFiles ↔
    (∃ slot name, cfg.picture slot = some name ∧ prev.picture slot ≠ some name ∧
        disk.exists (picturePath tmp name) = true ∧ file = (picturePath tmp name, imageKey cfg.subjectCode name)) ∨
      ∃ f ∈ cfg.contentFiles, disk.exists (contentPath tmp f.1 f.2) = true ∧
        file = (contentPath tmp f.1 f.2, contentKey cfg.subjectCode f.1 f.2) := by
  change file ∈ List.map _ _ ++ List.map _ _ ↔ _
  rw [List.mem_append, List.mem_map, List.mem_map]
  constructor
  · rintro (⟨⟨slot, name⟩, h, rfl⟩ | ⟨f, hf, rfl⟩)
    · obtain ⟨hname, hnew, hexists⟩ := mem_pictureUploads.mp h
      exact .inl ⟨slot, name, hname, hnew, hexists, rfl⟩
    · rw [contentUploads, List.mem_filter] at hf
      exact .inr ⟨f, hf.1, hf.2, rfl⟩
  · rintro (⟨slot, name, hname, hnew, hexists, rfl⟩ | ⟨f, hf, hexists, rfl⟩)
    · exact .inl ⟨(slot, name), mem_pictureUploads.mpr ⟨hname, hnew, hexists⟩, rfl⟩
    · exact .inr ⟨f, List.mem_filter.mpr ⟨hf, hexists⟩, rfl⟩

/-! The cleanup -/

/-- What is dropped is not listed elsewhere: a dropped picture in neither slot, a dropped content
file under no code and name that make the same key. -/
structure DropsNothingLive (cfg prev : ConfigYml) (subject : Option SubjectRow) : Prop where
  pictures : ∀ slot ∈ [PictureSlot.grid, .main], ∀ name ∈ prev.picture slot, PictureDropped cfg prev subject slot name →
    ∀ slot' ∈ [PictureSlot.grid, .main], cfg.picture slot' ≠ some name
  contents : ∀ a ∈ cfg.assignments, ∀ old ∈ prev.assignments.lookup a.1, ∀ name ∈ old.contentNames,
    name ∉ a.2.contentNames → ∀ f ∈ cfg.contentFiles, a.1 ++ "/" ++ name ≠ f.1 ++ "/" ++ f.2

instance : Decidable (DropsNothingLive cfg prev subject) :=
  decidable_of_iff (_ ∧ _) ⟨fun h => ⟨h.1, h.2⟩, fun h => ⟨h.1, h.2⟩⟩

/-- No key that the cleanup deletes is referenced by the new config, exactly when nothing dropped is
listed elsewhere. -/
theorem cleanup_spares_live_iff (cfg prev : ConfigYml) (subject : Option SubjectRow) (disk : Disk) (tmp : Path) :
    (∀ key ∈ (computePlan cfg prev subject disk tmp).removedKeys, key ∉ cfg.references.map (·.2)) ↔
      DropsNothingLive cfg prev subject := by
  constructor
  · intro h
    constructor
    · intro slot _ name _ hdropped slot' _ hname
      refine h _ (mem_removedKeys.mpr (.inl ⟨slot, name, hdropped, rfl⟩)) ?_
      exact List.mem_map_of_mem (ConfigYml.mem_references.mpr (.inl ⟨slot', name, hname, rfl⟩))
    · intro a ha old hold name hname hdropped f hf hkey
      refine h _ (mem_removedKeys.mpr (.inr ⟨(a.1, name), ⟨a, ha, old, hold, rfl, hname, hdropped⟩, rfl⟩)) ?_
      have hkey : contentKey cfg.subjectCode a.1 name = contentKey cfg.subjectCode f.1 f.2 := contentKey_inj.mpr hkey
      rw [hkey]
      exact List.mem_map_of_mem (ConfigYml.mem_references.mpr (.inr ⟨f, hf, rfl⟩))
  · intro h key hkey hlive
    obtain ⟨r, hr, rfl⟩ := List.mem_map.mp hlive
    rcases mem_removedKeys.mp hkey with ⟨slot, name, hdropped, heq⟩ | ⟨f, hdropped, heq⟩
    · rcases ConfigYml.mem_references.mp hr with ⟨slot', name', hname', rfl⟩ | ⟨g, hg, rfl⟩
      · rw [imageKey_inj] at heq
        rw [heq] at hname'
        exact h.pictures slot (mem_slots slot) name hdropped.1 hdropped slot' (mem_slots slot') hname'
      · exact imageKey_ne_contentKey heq.symm
    · obtain ⟨a, ha, old, hold, hcode, hname, hdropped⟩ := hdropped
      rcases ConfigYml.mem_references.mp hr with ⟨slot', name', hname', rfl⟩ | ⟨g, hg, rfl⟩
      · exact imageKey_ne_contentKey heq
      · rw [contentKey_inj, hcode] at heq
        exact h.contents a ha old hold f.2 hname hdropped g hg heq.symm

/-- A course with these two pictures. -/
def pictures (grid main : String) : ConfigYml :=
  { subjectCode := "course", gridPicture := some grid, mainPicture := some main, assignments := [], codes := List.nodup_nil }

/-- The two pictures change places: both new ones are deleted. -/
theorem swapped_pictures_are_deleted :
    ¬ ∀ (cfg prev : ConfigYml) (subject : Option SubjectRow) (disk : Disk) (tmp : Path),
      ∀ key ∈ (computePlan cfg prev subject disk tmp).removedKeys, key ∉ cfg.references.map (·.2) := by
  intro h
  have hspared := h (pictures "b.png" "a.png") (pictures "a.png" "b.png")
    (some { code := "course", name := "Course", description := none, ownerId := some 1, squadMaxSize := none,
            gridPictureUrl := some "https://files/a.png", mainPictureUrl := some "https://files/b.png" })
    (fun _ => some (.file [])) ["tmp"]
  revert hspared
  decide

/-! The bytes under the keys -/

/-- The bytes of a referenced file, when the archive has it. -/
def Archive.find (a : Archive) (names : List String) : Option Bytes :=
  if Stays names then
    match a.entry (resolve (names.flatMap segments)) with
    | some (.file content) => some content
    | _ => none
  else none

theorem Archive.find_eq_some {a : Archive} {names : List String} {content : Bytes} (h : a.find names = some content) :
    Stays names ∧ a.entry (resolve (names.flatMap segments)) = some (.file content) := by
  rw [Archive.find, Option.ite_none_right_eq_some] at h
  obtain ⟨hstays, h⟩ := h
  refine ⟨hstays, ?_⟩
  split at h
  · rename_i content' hentry
    rw [hentry, Option.some.inj h]
  · cases h

/-- What stands where the names lead from the extraction directory. -/
theorem disk_join {names : List String} (h : Stays names) :
    req.disk (resolve (names.foldl join req.tmp)) = req.archive.entry (resolve (names.flatMap segments)) := by
  rw [resolve_join_stays h req.clean, ApplyRequest.disk, if_pos (List.prefix_append _ _), List.drop_left]

/-- The last upload under a key decides, when all under it hold the same bytes. -/
theorem foldl_put {files : List (Path × String)} {key : String} {content : Bytes}
    (h : ∀ f ∈ files, f.2 = key → req.disk (resolve f.1) = some (.file content)) (objects : Objects) :
    files.foldl (put req) objects key = if key ∈ files.map (·.2) then some content else objects key := by
  induction files generalizing objects with
  | nil => simp
  | cons f files ih =>
    have hrest := ih (fun g hg => h g (List.mem_cons_of_mem _ hg))
    have hf : put req objects f key = if f.2 = key then some content else objects key := by
      rw [put]
      by_cases hkey : f.2 = key
      · rw [h f (by simp) hkey, if_pos hkey, hkey]
        simp
      · rw [if_neg hkey]
        rcases req.disk (resolve f.1) with _ | _ | other
        · rfl
        · rfl
        · exact Function.update_of_ne (Ne.symm hkey) _ _
    rw [List.foldl_cons, hrest, hf]
    by_cases hmem : key ∈ files.map (·.2)
    · simp [hmem]
    · by_cases hkey : f.2 = key
      · simp [hkey]
      · simp [hmem, hkey, Ne.symm hkey]

theorem foldl_dropKey {keys : List String} {key : String} (h : key ∉ keys) (objects : Objects) :
    keys.foldl (dropKey req) objects key = objects key := by
  induction keys generalizing objects with
  | nil => rfl
  | cons k keys ih =>
    rw [List.mem_cons, not_or] at h
    rw [List.foldl_cons, ih h.2, dropKey]
    split_ifs
    · exact Function.update_of_ne h.1 _ _
    · rfl

/-- Neither code nor name is absolute, so that the file is looked for below the archive's directory. -/
def Relative (f : String × String) : Prop := isAbsolute f.1 = false ∧ isAbsolute f.2 = false

instance (f : String × String) : Decidable (Relative f) := by
  unfold Relative
  infer_instance

/-- The apply leaves the right bytes under every referenced key: it deletes none of them, a picture
that keeps its name in every slot keeps its bytes, and no absolute name shares its key with another file. -/
structure KeepsFiles (c : Catalog) (req : ApplyRequest) : Prop where
  drops : DropsNothingLive req.archive.cfg c.rows.prevConfig c.rows.subject
  pictures : ∀ slot ∈ [PictureSlot.grid, .main], ∀ name ∈ req.archive.cfg.picture slot,
    (∀ slot' ∈ [PictureSlot.grid, .main], req.archive.cfg.picture slot' = some name →
      c.rows.prevConfig.picture slot' = some name) →
    ∀ content ∈ req.archive.find [name], ∀ archive ∈ c.rows.latest, archive.find [name] = some content
  contents : ∀ f ∈ req.archive.cfg.contentFiles, ∀ g ∈ req.archive.cfg.contentFiles,
    f.1 ++ "/" ++ f.2 = g.1 ++ "/" ++ g.2 → Relative f → Relative g

instance (c : Catalog) (req : ApplyRequest) : Decidable (KeepsFiles c req) :=
  decidable_of_iff (_ ∧ _ ∧ _) ⟨fun h => ⟨h.1, h.2.1, h.2.2⟩, fun h => ⟨h.1, h.2, h.3⟩⟩

/-- Every file that the last config references and the last archive holds is stored under its key
with the archive's bytes. -/
def Catalog.Published (c : Catalog) : Prop :=
  ∀ archive ∈ c.rows.latest, ∀ r ∈ archive.cfg.references, ∀ content ∈ archive.find r.1, c.objects r.2 = some content

instance (c : Catalog) : Decidable c.Published := by
  unfold Catalog.Published
  infer_instance

theorem contentPath_same {f g : String × String} (hkey : f.1 ++ "/" ++ f.2 = g.1 ++ "/" ++ g.2) (hf : Relative f)
    (hg : Relative g) : contentPath tmp f.1 f.2 = contentPath tmp g.1 g.2 := by
  have hrelative : ∀ f : String × String, Relative f →
      contentPath tmp f.1 f.2 = tmp ++ segments "assignments" ++ segments (f.1 ++ "/" ++ f.2) := by
    intro f hf
    have hnames : ∀ name ∈ ["assignments", f.1, f.2], isAbsolute name = false := by
      simp only [List.mem_cons, List.not_mem_nil, or_false, forall_eq_or_imp, forall_eq]
      exact ⟨by decide, hf⟩
    rw [contentPath, foldl_join_relative hnames, segments_slash]
    simp
  rw [hrelative f hf, hrelative g hg, hkey]

/-- The files uploaded under the key of a referenced file hold its bytes. -/
theorem newFiles_content (hkeeps : KeepsFiles c req) {r : List String × String} (hr : r ∈ req.archive.cfg.references)
    {content : Bytes} (hcontent : req.archive.find r.1 = some content) :
    ∀ f ∈ (req.plan c.rows).newFiles, f.2 = r.2 → req.disk (resolve f.1) = some (.file content) := by
  intro f hf hkey
  obtain ⟨hstays, hentry⟩ := Archive.find_eq_some hcontent
  have hdisk : req.disk (resolve (r.1.foldl join req.tmp)) = some (.file content) := (disk_join hstays).trans hentry
  rcases mem_newFiles.mp hf with ⟨slot, name, hname, -, -, rfl⟩ | ⟨g, hg, -, rfl⟩
  · rcases ConfigYml.mem_references.mp hr with ⟨slot', name', hname', rfl⟩ | ⟨g, hg, rfl⟩
    · rw [imageKey_inj] at hkey
      rw [hkey]
      exact hdisk
    · exact absurd hkey imageKey_ne_contentKey
  · rcases ConfigYml.mem_references.mp hr with ⟨slot', name', hname', rfl⟩ | ⟨g', hg', rfl⟩
    · exact absurd hkey.symm imageKey_ne_contentKey
    · rw [contentKey_inj] at hkey
      have hrelative' : Relative g' := ⟨hstays.1 g'.1 (by simp), hstays.1 g'.2 (by simp)⟩
      have hrelative : Relative g := hkeeps.contents g' hg' g hg hkey.symm hrelative'
      change req.disk (resolve (contentPath req.tmp g.1 g.2)) = _
      rw [contentPath_same hkey hrelative hrelative']
      exact hdisk

/-- A referenced file that the archive holds is uploaded, unless it is a picture that keeps its name. -/
theorem newFiles_or_kept {r : List String × String} (hr : r ∈ req.archive.cfg.references) {content : Bytes}
    (hcontent : req.archive.find r.1 = some content) (rows : Rows) :
    r.2 ∈ (req.plan rows).newFiles.map (·.2) ∨ ∃ slot name, req.archive.cfg.picture slot = some name ∧
      r = ([name], imageKey req.archive.cfg.subjectCode name) ∧
      ∀ slot', req.archive.cfg.picture slot' = some name → rows.prevConfig.picture slot' = some name := by
  obtain ⟨hstays, hentry⟩ := Archive.find_eq_some hcontent
  have hexists : req.disk.exists (r.1.foldl join req.tmp) = true := by
    rw [Disk.exists, disk_join hstays, hentry]
    rfl
  rcases ConfigYml.mem_references.mp hr with ⟨slot, name, hname, rfl⟩ | ⟨f, hf, rfl⟩
  · by_cases hkept : ∀ slot', req.archive.cfg.picture slot' = some name → rows.prevConfig.picture slot' = some name
    · exact .inr ⟨slot, name, hname, rfl, hkept⟩
    · push Not at hkept
      obtain ⟨slot', hname', hnew⟩ := hkept
      have hfile : (picturePath req.tmp name, imageKey req.archive.cfg.subjectCode name) ∈ (req.plan rows).newFiles :=
        mem_newFiles.mpr (.inl ⟨slot', name, hname', hnew, hexists, rfl⟩)
      exact .inl (List.mem_map.mpr ⟨_, hfile, rfl⟩)
  · have hfile : (contentPath req.tmp f.1 f.2, contentKey req.archive.cfg.subjectCode f.1 f.2) ∈ (req.plan rows).newFiles :=
      mem_newFiles.mpr (.inr ⟨f, hf, hexists, rfl⟩)
    exact .inl (List.mem_map.mpr ⟨_, hfile, rfl⟩)

/-! Every apply -/

/-- The stored config is of the subject's own code. -/
def Rows.CodesAgree (rows : Rows) : Prop :=
  ∀ row ∈ rows.subject, ∀ archive ∈ rows.latest, archive.cfg.subjectCode = row.code

theorem Applied.codesAgree (h : Applied site c req c') : c'.rows.CodesAgree := by
  obtain ⟨hlatest, row, hrow, hcode⟩ := h.latest
  intro row' hrow' archive harchive
  rw [hrow, Option.mem_some_iff] at hrow'
  rw [hlatest, Option.mem_some_iff] at harchive
  rw [← harchive, ← hrow', hcode]

/-- The config applied last is of the same subject. -/
theorem Applied.same_code (h : Applied site c req c') (hcodes : c.rows.CodesAgree) {archive : Archive}
    (hlatest : c.rows.latest = some archive) : archive.cfg.subjectCode = req.archive.cfg.subjectCode := by
  obtain ⟨row, hrow, -⟩ := Option.bind_eq_some_iff.mp hlatest
  have hallowed := h.allowed
  rw [applyAllowed, hrow, Option.all_some] at hallowed
  simp only [Bool.and_eq_true, beq_iff_eq] at hallowed
  rw [hcodes row hrow archive hlatest]
  exact hallowed.2.1

theorem Applied.published (h : Applied site c req c') (hstorage : site.storageConfigured = true)
    (hkeeps : KeepsFiles c req) (hcodes : c.rows.CodesAgree) (hpublished : c.Published) : c'.Published := by
  intro archive harchive r hr content hcontent
  rw [h.latest.1, Option.mem_some_iff] at harchive
  subst harchive
  have hput := foldl_put (newFiles_content hkeeps hr hcontent) c.objects
  have hspared : r.2 ∉ (req.plan c.rows).removedKeys := by
    intro hmem
    exact (cleanup_spares_live_iff _ _ _ _ _).mpr hkeeps.drops r.2 hmem (List.mem_map_of_mem hr)
  rw [h.objects, cleaned, if_pos hstorage, foldl_dropKey hspared, uploaded, if_pos hstorage, hput]
  split_ifs with huploaded
  · rfl
  · -- a picture under its old name: the object is still that of the previous archive
    obtain ⟨slot, name, hname, rfl, hkept⟩ := (newFiles_or_kept hr hcontent c.rows).resolve_left huploaded
    have hprev := hkept slot hname
    obtain ⟨archive, hlatest⟩ : ∃ archive, c.rows.latest = some archive := by
      rw [Rows.prevConfig] at hprev
      rcases hlatest : c.rows.latest with _ | archive
      · rw [hlatest] at hprev
        rcases slot <;> cases hprev
      · exact ⟨archive, rfl⟩
    have hold : archive.find [name] = some content :=
      hkeeps.pictures slot (mem_slots slot) name hname (fun slot' _ => hkept slot') content hcontent archive hlatest
    have hpicture : archive.cfg.picture slot = some name := by
      rwa [Rows.prevConfig, hlatest] at hprev
    rw [← h.same_code hcodes hlatest]
    exact hpublished archive hlatest _ (ConfigYml.mem_references.mpr (.inl ⟨slot, name, hpicture, rfl⟩)) content hold

/-- After every sequence of successful applies that each leave the right bytes under the referenced
keys, the objects are the last archive's files. -/
theorem objects_are_last_archive (site : Site) (hstorage : site.storageConfigured = true) {c c' : Catalog}
    {reqs : List ApplyRequest} (hstart : c.rows.versions = [])
    (h : Runs.Run (Catalog.step site) (fun c req => (c.apply site req).isSome = true ∧ KeepsFiles c req) c reqs c') :
    c'.Published := by
  have hnone : c.rows.latest = none := by
    rw [Rows.latest, hstart]
    cases c.rows.subject <;> rfl
  have hinvariant : c'.rows.CodesAgree ∧ c'.Published := by
    refine h.invariant (I := fun c => c.rows.CodesAgree ∧ c.Published) ⟨?_, ?_⟩ ?_
    · intro row _ archive harchive
      rw [hnone] at harchive
      cases harchive
    · intro archive harchive
      rw [hnone] at harchive
      cases harchive
    · rintro t req ⟨hcodes, hpublished⟩ ⟨hsuccess, hkeeps⟩
      obtain ⟨t', happly⟩ := Option.isSome_iff_exists.mp hsuccess
      rw [Catalog.step, happly, Option.getD_some]
      rcases apply_cases happly with ⟨-, rfl⟩ | happlied
      · exact ⟨hcodes, hpublished⟩
      · exact ⟨happlied.codesAgree, happlied.published hstorage hkeeps hcodes hpublished⟩
  exact hinvariant.2

theorem clean_tmp : Clean ["tmp"] := by decide

/-- A course with one picture, in these bytes. -/
def pictured (name : String) (content : Bytes) : ApplyRequest :=
  { userId := 1
    archive :=
      { cfg := { subjectCode := "course", gridPicture := some name, assignments := [], codes := List.nodup_nil }
        files := [([name], content)] }
    clean := clean_tmp }

def bucketSite : Site := { buildUrl := fun key => "https://files/" ++ key, fromIsoformat := fun _ => none }

def emptyBucket : Catalog := { rows := {}, objects := fun _ => none }

theorem renamed_picture_is_published :
    ([pictured "logo.png" [1], pictured "logo2.png" [2]].foldl (Catalog.step bucketSite) emptyBucket).Published :=
  objects_are_last_archive bucketSite rfl rfl (Runs.run_of_checks (by decide))

/-- The picture is edited under its old name: the object keeps the old bytes. -/
theorem edited_picture_is_lost :
    ¬ ∀ (site : Site), site.storageConfigured = true → ∀ (c c' : Catalog) (reqs : List ApplyRequest), c.rows.versions = [] →
      Runs.Run (Catalog.step site) (fun c req => (c.apply site req).isSome = true) c reqs c' → c'.Published := by
  intro h
  have hpublished := h bucketSite rfl emptyBucket _ [pictured "logo.png" [1], pictured "logo.png" [2]] rfl
    (Runs.run_of_checks (by decide))
  revert hpublished
  decide

end SubmissionsChecker

/-! ## Names

Where the names of a config lead. They are joined to the extraction directory as they are, and
only the subject code is checked. -/

namespace SubmissionsChecker

open Paths

variable {req : ApplyRequest} {rows : Rows} {cfg : ConfigYml}

/-- The names an apply looks up stay below the directory they are joined to: those of the pictures
that are new in their slot and, with the code of the assignment, those of the content files. -/
structure NamesStay (cfg prev : ConfigYml) : Prop where
  pictures : ∀ slot ∈ [PictureSlot.grid, .main], ∀ name ∈ cfg.picture slot, prev.picture slot ≠ some name → Stays [name]
  contents : ∀ f ∈ cfg.contentFiles, Stays ["assignments", f.1, f.2]

instance (cfg prev : ConfigYml) : Decidable (NamesStay cfg prev) :=
  decidable_of_iff (_ ∧ _) ⟨fun h => ⟨h.1, h.2⟩, fun h => ⟨h.1, h.2⟩⟩

/-- The files of the apply are files of the archive, and its keys those of the subject. -/
structure ApplyRequest.Contained (req : ApplyRequest) (rows : Rows) : Prop where
  files : ∀ file ∈ (req.plan rows).newFiles, req.tmp <+: resolve file.1
  uploads : ∀ file ∈ (req.plan rows).newFiles, ∃ rest, file.2 = "subjects/" ++ req.archive.cfg.subjectCode ++ "/" ++ rest
  deletions : ∀ key ∈ (req.plan rows).removedKeys, ∃ rest, key = "subjects/" ++ req.archive.cfg.subjectCode ++ "/" ++ rest

theorem imageKey_under (code name : String) : ∃ rest, imageKey code name = "subjects/" ++ code ++ "/" ++ rest := by
  refine ⟨"images/" ++ name, ?_⟩
  have hslash : "/images/" = "/" ++ "images/" := by decide
  simp only [imageKey, hslash, String.append_assoc]

theorem contentKey_under (code a name : String) : ∃ rest, contentKey code a name = "subjects/" ++ code ++ "/" ++ rest := by
  refine ⟨"assignments/" ++ a ++ "/" ++ name, ?_⟩
  have hslash : "/assignments/" = "/" ++ "assignments/" := by decide
  simp only [contentKey, hslash, String.append_assoc]

/-- A path that does not stay below the directory is found when the server has every file. -/
theorem exists_of_not_below {names : List String} (hserver : ∀ path, (req.server path).isSome = true)
    (h : ¬ req.tmp <+: resolve (names.foldl join req.tmp)) : req.disk.exists (names.foldl join req.tmp) = true := by
  rw [Disk.exists, ApplyRequest.disk, if_neg h]
  exact hserver _

/-- A request with this config whose archive is unpacked at `tmp`, on a server that has every file. -/
def probe (cfg : ConfigYml) (tmp : Path) (clean : Clean tmp) : ApplyRequest :=
  { userId := 0, archive := { cfg, files := [] }, server := fun _ => some .dir, tmp, clean }

/-- Whatever the archive, the server and the directory, an apply of the config stays within the
archive and its keys within the subject's, exactly when the names it looks up stay below. -/
theorem config_names_contained_iff (cfg : ConfigYml) (rows : Rows) :
    (∀ req : ApplyRequest, req.archive.cfg = cfg → req.Contained rows) ↔ NamesStay cfg rows.prevConfig := by
  constructor
  · intro h
    constructor
    · intro slot _ name hname hnew
      rw [stays_iff]
      intro base hclean
      by_contra hout
      refine hout ((h (probe cfg base hclean) rfl).files (picturePath base name, imageKey cfg.subjectCode name) ?_)
      exact mem_newFiles.mpr (.inl ⟨slot, name, hname, hnew, exists_of_not_below (fun _ => rfl) hout, rfl⟩)
    · intro f hf
      rw [stays_iff]
      intro base hclean
      by_contra hout
      refine hout ((h (probe cfg base hclean) rfl).files (contentPath base f.1 f.2, contentKey cfg.subjectCode f.1 f.2) ?_)
      exact mem_newFiles.mpr (.inr ⟨f, hf, exists_of_not_below (fun _ => rfl) hout, rfl⟩)
  · rintro h req rfl
    constructor
    · intro file hfile
      rcases mem_newFiles.mp hfile with ⟨slot, name, hname, hnew, -, rfl⟩ | ⟨f, hf, -, rfl⟩
      · exact (stays_iff _).mp (h.pictures slot (mem_slots slot) name hname hnew) req.tmp req.clean
      · exact (stays_iff _).mp (h.contents f hf) req.tmp req.clean
    · intro file hfile
      rcases mem_newFiles.mp hfile with ⟨slot, name, -, -, -, rfl⟩ | ⟨f, -, -, rfl⟩
      · exact imageKey_under _ _
      · exact contentKey_under _ _ _
    · intro key hkey
      rcases mem_removedKeys.mp hkey with ⟨slot, name, -, rfl⟩ | ⟨f, -, rfl⟩
      · exact imageKey_under _ _
      · exact contentKey_under _ _ _

/-- An absolute picture name: the apply goes through and publishes a file of the server. -/
theorem server_file_is_published :
    ¬ ∀ (site : Site) (c : Catalog) (req : ApplyRequest), (c.apply site req).isSome = true → req.Contained c.rows := by
  intro h
  let req : ApplyRequest :=
    { userId := 1
      archive := { cfg := { subjectCode := "course", gridPicture := some "/etc/hostname" }, files := [] }
      server := fun path => if path = ["etc", "hostname"] then some (.file [1]) else none }
  have hfiles := (h bucketSite emptyBucket req (by decide)).files
  revert hfiles
  decide

end SubmissionsChecker
