import SubmissionsChecker.Services.WorkManifest
import SubmissionsChecker.Library.Loops
import Mathlib.Data.Fintype.BigOperators
import Mathlib.Data.Fintype.Pigeonhole

/-! The manifest of a work: an entry for each file, within the byte budget, and what the keys of
the kept ones hold. -/

namespace SubmissionsChecker.WorkManifest

open PyText (Text codes)

variable {env : Ingest} {files : List (DriveFileRef × Metadata)} {ref : DriveFileRef × Metadata} {s s' : Ledger}
  {entry : ManifestEntry} {content : Bytes} {i : ℕ}

/-! Digests and keys -/

theorem take_hex (bytes : List (Fin 256)) (n : ℕ) : (bytes.flatMap hexByte).take (2 * n) = (bytes.take n).flatMap hexByte := by
  induction bytes generalizing n with
  | nil => simp
  | cons b bytes ih =>
    cases n with
    | zero => rfl
    | succ n =>
      rw [List.flatMap_cons, List.take_succ_cons, List.flatMap_cons, ← ih, hexByte, Nat.mul_succ]
      rfl

theorem length_hex (bytes : List (Fin 256)) : (bytes.flatMap hexByte).length = 2 * bytes.length := by
  induction bytes with
  | nil => rfl
  | cons b bytes ih =>
    rw [List.flatMap_cons, List.length_append, ih, List.length_cons, hexByte]
    simp only [List.length_cons, List.length_nil]
    omega

theorem length_take_hexdigest (digest : Digest) : (digest.hexdigest.take 16).length = 16 := by
  rw [List.length_take, Digest.hexdigest, length_hex, List.length_ofFn]
  rfl

/-- A key tells the hash's first sixteen digits and the safe name. -/
theorem storageKey_inj {d d' : Digest} {name name' : Text}
    (h : storageKey env d.hexdigest name = storageKey env d'.hexdigest name') :
    d.hexdigest.take 16 = d'.hexdigest.take 16 ∧ safeName env.isWord name = safeName env.isWord name' := by
  have hrest := List.append_cancel_left h
  have hlength : (d.hexdigest.take 16).length = (d'.hexdigest.take 16).length := by
    rw [length_take_hexdigest, length_take_hexdigest]
  obtain ⟨hdigits, hname⟩ := List.append_inj hrest hlength
  exact ⟨hdigits, List.append_cancel_left hname⟩

/-! What an entry is -/

/-- Kept: the bytes downloaded, their hash, the key made of it. -/
structure IsKept (env : Ingest) (i : ℕ) (e : ManifestEntry) (content : Bytes) : Prop where
  downloaded : ∃ d, env.download i = some d ∧ d.content = some content
  sha256 : e.sha256 = some (env.sha256 content).hexdigest
  storageKey : e.storageKey = some (storageKey env (env.sha256 content).hexdigest e.name)
  size : e.size = content.length
  skipped : e.skipped = none

structure IsSkipped (e : ManifestEntry) : Prop where
  sha256 : e.sha256 = none
  storageKey : e.storageKey = none
  reason : ∃ c rest, e.skipped = some (c :: rest)

/-- The bytes an entry keeps. -/
def keptSize (e : ManifestEntry) : ℤ := if e.sha256.isSome then e.size else 0

/-- The key of a kept file was written again with other bytes, by a later file of the work whose
hash begins with the same sixteen digits. -/
def Overwritten (env : Ingest) (manifest : List ManifestEntry) (i : ℕ) (e : ManifestEntry) (content : Bytes) : Prop :=
  ∃ j e' content', i < j ∧ manifest[j]? = some e' ∧ IsKept env j e' content' ∧ content' ≠ content ∧
    (env.sha256 content').hexdigest.take 16 = (env.sha256 content).hexdigest.take 16 ∧
    safeName env.isWord e'.name = safeName env.isWord e.name

/-- What the loop has made of the files so far. -/
structure Built (env : Ingest) (files : List (DriveFileRef × Metadata)) (s : Ledger) : Prop where
  ids : s.manifest.map (·.driveId) = files.map (·.1.id)
  entries : ∀ i e, s.manifest[i]? = some e → (∃ content, IsKept env i e content) ∨ IsSkipped e
  total : (s.manifest.map keptSize).sum = s.keptBytes
  limit : s.keptBytes ≤ maxWorkBytes
  fetched : s.fetched.Sublist ((files.take maxFilesPerWork).map (·.1.id))
  held : ∀ i e content, s.manifest[i]? = some e → IsKept env i e content →
    (∃ o, s.objects (storageKey env (env.sha256 content).hexdigest e.name) = some o ∧ o.bytes = content) ∨
    Overwritten env s.manifest i e content

theorem Overwritten.concat {manifest : List ManifestEntry} (h : Overwritten env manifest i entry content)
    (e : ManifestEntry) : Overwritten env (manifest ++ [e]) i entry content := by
  obtain ⟨j, e', content', hj, he', hrest⟩ := h
  refine ⟨j, e', content', hj, ?_, hrest⟩
  rw [List.getElem?_append_left (List.getElem?_eq_some_iff.mp he').1]
  exact he'

namespace Built

theorem length (h : Built env files s) : s.manifest.length = files.length := by
  simpa using congrArg List.length h.ids

theorem fetched_concat (h : s.fetched.Sublist ((files.take maxFilesPerWork).map (·.1.id))) :
    s.fetched.Sublist (((files ++ [ref]).take maxFilesPerWork).map (·.1.id)) := by
  apply h.trans
  apply List.Sublist.map
  rw [List.take_append]
  exact List.sublist_append_left _ _

/-- A file skipped. -/
theorem skip (h : Built env files s) {fetched : List Text} {c : ℕ} {rest : Text} (hid : entry.driveId = ref.1.id)
    (hsha : entry.sha256 = none) (hkey : entry.storageKey = none)
    (hfetched : fetched.Sublist (((files ++ [ref]).take maxFilesPerWork).map (·.1.id))) :
    Built env (files ++ [ref]) ({ s with fetched := fetched }.skip entry (c :: rest)) where
  ids := by simp [Ledger.skip, h.ids, hid]
  entries := by
    intro i e he
    rcases Loops.getElem?_concat he with he | ⟨-, rfl⟩
    · exact h.entries i e he
    · exact .inr ⟨hsha, hkey, c, rest, rfl⟩
  total := by simp [Ledger.skip, h.total, keptSize, hsha]
  limit := h.limit
  fetched := hfetched
  held := by
    intro i e content he hkept
    rcases Loops.getElem?_concat he with he | ⟨-, rfl⟩
    · rcases h.held i e content he hkept with hheld | hover
      · exact .inl hheld
      · exact .inr (hover.concat _)
    · have := hkept.sha256
      simp [hsha] at this

/-- A file kept. -/
theorem keep (h : Built env files s) {fetched : List Text} {d : DownloadedFile} (hid : entry.driveId = ref.1.id)
    (hskipped : entry.skipped = none) (hdownload : env.download files.length = some d)
    (hcontent : d.content = some content) (hlimit : s.keptBytes + content.length ≤ maxWorkBytes)
    (hfetched : fetched.Sublist (((files ++ [ref]).take maxFilesPerWork).map (·.1.id))) :
    Built env (files ++ [ref]) (WorkManifest.keep env { s with fetched := fetched } entry content) where
  ids := by simp [WorkManifest.keep, keptEntry, h.ids, hid]
  entries := by
    intro i e he
    rcases Loops.getElem?_concat he with he | ⟨rfl, rfl⟩
    · exact h.entries i e he
    · left
      refine ⟨content, ?_, rfl, rfl, rfl, hskipped⟩
      rw [h.length]
      exact ⟨d, hdownload, hcontent⟩
  total := by simp [WorkManifest.keep, h.total, keptSize, keptEntry]
  limit := hlimit
  fetched := hfetched
  held := by
    intro i e c he hkept
    have hnew : IsKept env s.manifest.length (keptEntry env entry content) content := by
      refine ⟨?_, rfl, rfl, rfl, hskipped⟩
      rw [h.length]
      exact ⟨d, hdownload, hcontent⟩
    dsimp only [WorkManifest.keep]
    rcases Loops.getElem?_concat he with he | ⟨rfl, rfl⟩
    · split_ifs with hkey
      · -- the key is the new file's: its bytes are the same, or they replaced these
        by_cases hsame : content = c
        · exact .inl ⟨_, rfl, hsame⟩
        · right
          obtain ⟨hdigits, hname⟩ := storageKey_inj hkey
          have hi : i < s.manifest.length := (List.getElem?_eq_some_iff.mp he).1
          exact ⟨s.manifest.length, _, content, hi, List.getElem?_concat_length, hnew, hsame, hdigits.symm,
            hname.symm⟩
      · rcases h.held i e c he hkept with hheld | hover
        · exact .inl hheld
        · exact .inr (hover.concat _)
    · left
      have hc : some c = some content := by
        obtain ⟨d₁, hd₁, hc₁⟩ := hkept.downloaded
        obtain ⟨d₂, hd₂, hc₂⟩ := hnew.downloaded
        rw [hd₁] at hd₂
        cases hd₂
        rw [← hc₁, ← hc₂]
      cases hc
      exact ⟨_, if_pos rfl, rfl⟩

end Built

/-! The loop -/

/-- One file. -/
theorem ingestFile_built (h : Built env files s) (hok : ingestFile env s (ref, files.length) = .ok s') :
    Built env (files ++ [ref]) s' := by
  rw [ingestFile] at hok
  split at hok
  · cases hok
  · rename_i size _
    have hid : (newEntry env ref.1 ref.2 size).driveId = ref.1.id := rfl
    dsimp only at hok
    split_ifs at hok with hmany hlarge
    · cases hok
      exact h.skip hid rfl rfl (Built.fetched_concat h.fetched)
    · cases hok
      exact h.skip hid rfl rfl (Built.fetched_concat h.fetched)
    · split at hok
      · cases hok
      · rename_i d hd
        have hfetched : (s.fetch ref.1.id).fetched.Sublist
            (((files ++ [ref]).take maxFilesPerWork).map (·.1.id)) := by
          have hlt : files.length < maxFilesPerWork := by omega
          rw [List.take_of_length_le (by simp; omega), List.map_append]
          have hfiles := h.fetched
          rw [List.take_of_length_le hlt.le] at hfiles
          exact hfiles.append (List.Sublist.refl _)
        rw [takeDownload] at hok
        split at hok
        · -- nothing downloaded: the reason given, or none was
          split at hok
          · cases hok
            exact h.skip hid rfl rfl hfetched
          · cases hok
            exact h.skip hid rfl rfl hfetched
        · rename_i content hcontent
          split_ifs at hok with hbudget hupload
          · cases hok
            exact h.skip hid rfl rfl hfetched
          · cases hok
            have hlimit : s.keptBytes + content.length ≤ maxWorkBytes := not_lt.mp hbudget
            exact h.keep hid rfl hd hcontent hlimit hfetched

theorem built_nil (env : Ingest) (objects : ObjectStore) : Built env [] ⟨[], 0, objects, []⟩ where
  ids := rfl
  entries := nofun
  total := rfl
  limit := Nat.zero_le _
  fetched := List.Sublist.refl _
  held := nofun

/-- The files met so far, one after the other. -/
theorem ingestFiles_built {objects : ObjectStore} (h : ingestFiles env files objects = .ok s) : Built env files s := by
  induction files using List.reverseRecOn generalizing s with
  | nil =>
    cases h
    exact built_nil env objects
  | append_singleton files ref ih =>
    rw [ingestFiles, List.zipIdx_append, List.foldlM_append] at h
    obtain ⟨s₁, hfirst, hlast⟩ := Loops.bind_ok.mp h
    obtain ⟨s₂, hstep, hnil⟩ := Loops.foldlM_cons_ok.mp hlast
    cases hnil
    rw [Nat.zero_add] at hstep
    exact ingestFile_built (ih hfirst) hstep

/-- Why the `i`th file ends the loop: `int` raises on its size, its download raises, or its upload does. -/
def Raises (env : Ingest) (i : ℕ) (metadata : Metadata) : IngestError → Prop
  | .size e => metaSize metadata = .error e
  | .download => env.download i = none
  | .upload => env.uploads i = false

theorem ingestFile_error {e : IngestError} (h : ingestFile env s (ref, i) = .error e) : Raises env i ref.2 e := by
  rw [ingestFile] at h
  split at h
  · rename_i e' he
    cases h
    exact he
  · dsimp only at h
    split_ifs at h
    split at h
    · rename_i hd
      cases h
      exact hd
    · rw [takeDownload] at h
      split at h
      · split at h
        · cases h
        · cases h
      · split_ifs at h with hbudget hupload
        cases h
        exact (Bool.not_eq_true _).mp hupload

theorem ingestFiles_error {objects : ObjectStore} {e : IngestError} (h : ingestFiles env files objects = .error e) :
    ∃ i ref, files[i]? = some ref ∧ Raises env i ref.2 e := by
  obtain ⟨pre, ⟨ref, i⟩, post, s₁, hzip, -, hraises⟩ := Loops.foldlM_error.mp h
  have hmem : (ref, i) ∈ files.zipIdx := by
    rw [hzip]
    simp
  exact ⟨i, ref, by simpa using List.mem_zipIdx_iff_getElem?.mp hmem, ingestFile_error hraises⟩

/-- The loop raises only where a size is not readable, a download or an upload raises. Otherwise the manifest has
an entry for each file in order, kept or skipped; what is kept stays within the budget, no more than
`maxFilesPerWork` files are fetched, and the key of a kept entry holds the bytes hashed, unless a later
file with other bytes has the same key. -/
theorem manifest_built (env : Ingest) (files : List (DriveFileRef × Metadata)) (objects : ObjectStore) :
    (∀ e, ingestFiles env files objects = .error e → ∃ i ref, files[i]? = some ref ∧ Raises env i ref.2 e) ∧
    ∀ s, ingestFiles env files objects = .ok s →
      s.manifest.map (·.driveId) = files.map (·.1.id) ∧
      (∀ i e, s.manifest[i]? = some e → (∃ content, IsKept env i e content) ∨ IsSkipped e) ∧
      (s.manifest.map keptSize).sum ≤ maxWorkBytes ∧
      s.fetched.length ≤ maxFilesPerWork ∧
      ∀ i e content, s.manifest[i]? = some e → IsKept env i e content →
        (∃ o, s.objects (storageKey env (env.sha256 content).hexdigest e.name) = some o ∧ o.bytes = content) ∨
        Overwritten env s.manifest i e content := by
  refine ⟨fun e => ingestFiles_error, fun s hok => ?_⟩
  have h := ingestFiles_built hok
  refine ⟨h.ids, h.entries, ?_, ?_, h.held⟩
  · rw [h.total]
    exact_mod_cast h.limit
  · have hlength := h.fetched.length_le
    rw [List.length_map, List.length_take] at hlength
    omega

/-- A file within the budget, by its metadata and by its bytes, is kept. -/
theorem ingestFile_keeps {size : ℤ} {d : DownloadedFile} (hi : i < maxFilesPerWork)
    (hsize : metaSize ref.2 = .ok size) (hknown : s.keptBytes + size ≤ maxWorkBytes)
    (hdownload : env.download i = some d) (hcontent : d.content = some content)
    (hlimit : s.keptBytes + content.length ≤ maxWorkBytes) (hupload : env.uploads i = true) :
    ingestFile env s (ref, i) = .ok (keep env (s.fetch ref.1.id)
      { newEntry env ref.1 ref.2 size with name := d.name, mime := exportedMime d.mime } content) := by
  rw [ingestFile]
  dsimp only
  rw [hsize]
  dsimp only
  rw [if_neg (not_le.mpr hi), if_neg (not_lt.mpr hknown), hdownload]
  dsimp only
  rw [takeDownload, hcontent]
  exact (if_neg (not_lt.mpr hlimit)).trans (if_pos hupload)

/-! Two files of one key -/

/-- Nine bytes. -/
def nineBytes (v : Fin 9 → Fin 256) : Bytes := (List.ofFn v).map fun b => UInt8.ofNat b.val

theorem nineBytes_injective : Function.Injective nineBytes := by
  intro v w h
  apply List.ofFn_injective
  refine List.map_injective_iff.mpr ?_ h
  intro a b hab
  have hnat := congrArg UInt8.toNat hab
  rw [UInt8.toNat_ofNat', UInt8.toNat_ofNat', Nat.mod_eq_of_lt (by simp), Nat.mod_eq_of_lt (by simp)] at hnat
  exact Fin.ext hnat

/-- Sixteen digits do not tell all contents apart, whatever the hash. -/
theorem exists_same_digits (sha256 : Bytes → Digest) :
    ∃ v w, v ≠ w ∧ (sha256 (nineBytes v)).hexdigest.take 16 = (sha256 (nineBytes w)).hexdigest.take 16 := by
  have hcard : Fintype.card (Fin 8 → Fin 256) < Fintype.card (Fin 9 → Fin 256) := by simp
  obtain ⟨v, w, hne, heq⟩ := Fintype.exists_ne_map_eq_of_card_lt
    (fun v (k : Fin 8) => sha256 (nineBytes v) (k.castLE (by omega))) hcard
  refine ⟨v, w, hne, ?_⟩
  have htake : ∀ d : Digest, d.hexdigest.take 16 = (List.ofFn fun k : Fin 8 => d (k.castLE (by omega))).flatMap hexByte := by
    intro d
    rw [Digest.hexdigest, show 16 = 2 * 8 from rfl, take_hex]
    congr 1
  rw [htake, htake]
  exact congrArg (fun l => (List.ofFn l).flatMap hexByte) heq

def plainRef : DriveFileRef := ⟨codes "1f", codes "work.pdf"⟩

/-- Two files that download as the contents given, under one name. -/
def twoFiles (sha256 : Bytes → Digest) (a b : Bytes) : Ingest where
  subjectId := 1
  assignmentId := 2
  submissionId := codes "s3"
  sha256 := sha256
  isWord := PyText.isAsciiDigit
  str := fun _ => []
  download := fun i => some ⟨codes "1.pdf", [], some (if i = 0 then a else b), none⟩
  uploads := fun _ => true

/-- The entry both have before it is kept. -/
def plainEntry (env : Ingest) : ManifestEntry :=
  { newEntry env plainRef [] 0 with name := codes "1.pdf", mime := exportedMime [] }

/-- Both are fetched and kept. -/
theorem twoFiles_kept {sha256 : Bytes → Digest} {a b : Bytes} (h : a.length + b.length ≤ maxWorkBytes) :
    ingestFiles (twoFiles sha256 a b) [(plainRef, []), (plainRef, [])] (fun _ => none) =
      .ok (keep (twoFiles sha256 a b) ((keep (twoFiles sha256 a b) (Ledger.fetch ⟨[], 0, fun _ => none, []⟩ plainRef.id)
        (plainEntry (twoFiles sha256 a b)) a).fetch plainRef.id) (plainEntry (twoFiles sha256 a b)) b) := by
  have hsize : metaSize [] = .ok 0 := rfl
  rw [ingestFiles, List.zipIdx_cons, List.zipIdx_singleton]
  apply Loops.foldlM_cons_ok.mpr
  refine ⟨_, ingestFile_keeps (by decide) hsize (by decide) rfl rfl ?_ rfl, ?_⟩
  · dsimp only [if_pos]
    rw [if_pos rfl]
    omega
  · apply Loops.foldlM_cons_ok.mpr
    have hkept : (0 : ℕ) + a.length ≤ maxWorkBytes := by omega
    refine ⟨_, ingestFile_keeps (by decide) hsize ?_ rfl rfl ?_ rfl, rfl⟩
    · change ((0 + a.length : ℕ) : ℤ) + 0 ≤ (maxWorkBytes : ℤ)
      rw [add_zero]
      exact_mod_cast hkept
    · change 0 + a.length + b.length ≤ maxWorkBytes
      omega

theorem keep_objects (env : Ingest) (s : Ledger) (entry : ManifestEntry) (content : Bytes) :
    (keep env s entry content).objects (storageKey env (env.sha256 content).hexdigest entry.name)
      = some ⟨content, contentType entry.mime⟩ :=
  if_pos rfl

/-- A size that is not a number ends the loop without a manifest; and two files whose hashes begin alike share a key,
which then holds the second one's bytes. -/
theorem unreadable_size_and_shared_key :
    ingestFiles (twoFiles (fun _ _ => 0) [] []) [(plainRef, [(codes "size", .str (codes "abc"))])] (fun _ => none)
      = .error (.size .value) ∧
    ∀ sha256, ∃ a b s e, ingestFiles (twoFiles sha256 a b) [(plainRef, []), (plainRef, [])] (fun _ => none) = .ok s ∧
      s.manifest[0]? = some e ∧ IsKept (twoFiles sha256 a b) 0 e a ∧
      ∃ key o, e.storageKey = some key ∧ s.objects key = some o ∧ o.bytes ≠ a := by
  constructor
  · have hsize : metaSize [(codes "size", .str (codes "abc"))] = .error .value := by decide +kernel
    rw [ingestFiles, List.zipIdx_singleton, List.foldlM_cons, ingestFile]
    dsimp only
    rw [hsize]
    rfl
  · intro sha256
    obtain ⟨v, w, hne, hdigits⟩ := exists_same_digits sha256
    have hlength : (nineBytes v).length + (nineBytes w).length ≤ maxWorkBytes := by
      simp [nineBytes, maxWorkBytes]
    let env := twoFiles sha256 (nineBytes v) (nineBytes w)
    have hkey : storageKey env (sha256 (nineBytes v)).hexdigest (plainEntry env).name
        = storageKey env (sha256 (nineBytes w)).hexdigest (plainEntry env).name := by
      rw [storageKey, storageKey, hdigits]
    refine ⟨nineBytes v, nineBytes w, _, keptEntry env (plainEntry env) (nineBytes v), twoFiles_kept hlength, rfl,
      ⟨⟨_, rfl, rfl⟩, rfl, rfl, rfl, rfl⟩, _, _, congrArg some hkey, keep_objects env _ _ _, ?_⟩
    exact fun h => hne (nineBytes_injective h.symm)

end SubmissionsChecker.WorkManifest
