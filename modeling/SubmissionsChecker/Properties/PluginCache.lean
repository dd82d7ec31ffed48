import SubmissionsChecker.Services.PluginCache
import SubmissionsChecker.Library.Loops

/-! The plugin cache recognises the trees it extracts: the three notions of an entry's path agree,
an extraction changes nothing outside its directory, and what it leaves is complete. -/

namespace SubmissionsChecker.PluginCache

open Paths (Path)
open FileTree (FileSystem Node Extends)

variable {fs fs' : FileSystem} {dest : Path} {archive : ZipArchive} {info : ZipInfo} {name filename : String}

/-! The paths of an entry -/

/-- The components of a name that the extraction keeps. -/
def kept (filename : String) : List String := (Paths.segments filename).filter (· != "..")

theorem isSegment_kept {s : String} (h : s ∈ kept filename) : Paths.IsSegment s :=
  Paths.isSegment_of_mem (List.mem_filter.mp h).1

theorem kept_clean (filename : String) : Paths.Clean (kept filename) := by
  intro h
  simpa using (List.mem_filter.mp h).2

theorem join_kept (dest : Path) (filename : String) :
    Paths.join dest ("/".intercalate (kept filename)) = dest ++ kept filename := by
  rw [Paths.join, Paths.isAbsolute_intercalate fun s => isSegment_kept]
  simp only [Bool.false_eq_true, ↓reduceIte]
  rw [Paths.segments_intercalate fun s => isSegment_kept]

theorem targetpath_eq (hdest : Paths.Clean dest) (filename : String) :
    targetpath dest filename = dest ++ kept filename := by
  rw [targetpath, arcname, ← kept, join_kept]
  apply Paths.resolve_clean
  rw [Paths.Clean, List.mem_append, not_or]
  exact ⟨hdest, kept_clean filename⟩

/-- The cache's mirror of the extraction keeps the same components. -/
theorem extractedRelpath_eq (filename : String) :
    extractedRelpath filename = if kept filename = [] then none else some ("/".intercalate (kept filename)) := by
  have hparts : ((filename.toList.splitOn '/').map String.ofList).filter (fun p => !(["", ".", ".."].contains p))
      = kept filename := by
    rw [kept, Paths.segments, List.filter_filter]
    apply List.filter_congr
    intro p _
    by_cases h1 : p = "" <;> by_cases h2 : p = "." <;> by_cases h3 : p = ".." <;> simp [h1, h2, h3]
  rw [extractedRelpath, hparts]

/-! The extraction -/

theorem liftOs_ok {r : Except FileTree.OsError FileSystem} (h : liftOs r = .ok fs') : r = .ok fs' := by
  cases r with
  | error e => cases h
  | ok fs₁ =>
    cases h
    rfl

/-- One entry: nothing outside the directory changes, and a file entry is a file. -/
theorem extractMember_ok (hclean : Paths.Clean dest) (hdest : fs.nodes dest = some .dir)
    (h : extractMember dest info fs = .ok fs') :
    Extends dest fs fs' ∧ (info.isDir = false → fs'.isFile (targetpath dest info.filename) = true) := by
  have htarget := targetpath_eq hclean info.filename
  have hbelow : dest <+: targetpath dest info.filename := by
    rw [htarget]
    apply List.prefix_append
  dsimp only [extractMember] at h
  obtain ⟨fs₁, hup, h⟩ := Loops.bind_ok.mp h
  have hfirst : Extends dest fs fs₁ := by
    rw [makeUpperdirs] at hup
    split_ifs at hup with hexist
    · cases hup
      exact Extends.refl _ _
    · refine Extends.makedirs ?_ hdest (liftOs_ok hup)
      -- the directory itself has its parent, so the target is further down
      rcases eq_or_ne (kept info.filename) [] with hnil | hne
      · exfalso
        apply hexist
        rw [FileSystem.exist, bne_iff_ne]
        apply Extends.exist_above (List.dropLast_prefix _)
        rw [htarget, hnil, List.append_nil, hdest]
        simp
      · rw [htarget, List.dropLast_append_of_ne_nil hne]
        apply List.prefix_append
  split_ifs at h with hdir hthere
  · cases h
    exact ⟨hfirst, fun hfile => absurd hdir (by simp [hfile])⟩
  · exact ⟨hfirst.trans (Extends.mkdir hbelow (liftOs_ok h)), fun hfile => absurd hdir (by simp [hfile])⟩
  · split at h
    · cases h
    · obtain ⟨hwritten, hfile⟩ := Extends.writeFile hbelow (liftOs_ok h)
      exact ⟨hfirst.trans hwritten, fun _ => hfile⟩

theorem getinfo_filename (h : archive.getinfo name = some info) : info.filename = name := by
  simpa using List.find?_some h

/-- The run over the names: each file entry met so far is a file. -/
theorem extractNames_ok {names : List String} (hclean : Paths.Clean dest) (hdest : fs.nodes dest = some .dir)
    (h : names.foldlM (fun fs name =>
      match archive.getinfo name with
      | none => throw (.keyError name)
      | some info => extractMember dest info fs) fs = Except.ok fs') :
    Extends dest fs fs' ∧ ∀ name ∈ names, name.toList.getLast? ≠ some '/' →
      fs'.isFile (targetpath dest name) = true := by
  induction names generalizing fs with
  | nil =>
    cases h
    exact ⟨Extends.refl _ _, nofun⟩
  | cons name names ih =>
    obtain ⟨fs₁, hfirst, hrest⟩ := Loops.foldlM_cons_ok.mp h
    split at hfirst
    · cases hfirst
    · rename_i info hinfo
      have hname := getinfo_filename hinfo
      obtain ⟨hstep, hfile⟩ := extractMember_ok hclean hdest hfirst
      obtain ⟨hrun, hfiles⟩ := ih (hstep.dirs _ hdest) hrest
      refine ⟨hstep.trans hrun, ?_⟩
      rw [List.forall_mem_cons]
      refine ⟨fun hnot => ?_, hfiles⟩
      apply hrun.files
      rw [← hname]
      apply hfile
      rw [ZipInfo.isDir, hname, beq_eq_false_iff_ne]
      exact hnot

theorem safeExtract_ok {repr : String → String} {destDir : Path}
    (hdest : fs.nodes (Paths.resolve destDir) = some .dir) (h : safeExtract repr archive destDir fs = .ok fs') :
    Extends (Paths.resolve destDir) fs fs' ∧ ∀ info ∈ archive, info.isDir = false →
      fs'.isFile (targetpath (Paths.resolve destDir) info.filename) = true := by
  have hrun : extractall archive (Paths.resolve destDir) fs = .ok fs' := by
    dsimp only [safeExtract] at h
    split_ifs at h with hcount htotal
    · cases h
    · cases h
    · cases h
    · obtain ⟨_, -, h⟩ := Loops.bind_ok.mp h
      exact h
  obtain ⟨hext, hfiles⟩ := extractNames_ok (Paths.resolve_isClean _) hdest hrun
  refine ⟨hext, fun info hinfo hfile => hfiles _ (List.mem_map_of_mem hinfo) ?_⟩
  rw [ZipInfo.isDir, beq_eq_false_iff_ne] at hfile
  exact hfile

/-! The completeness test -/

theorem isComplete_iff : isComplete fs dest archive = true ↔
    ∀ info ∈ archive, info.isDir = false → kept info.filename ≠ [] →
      fs.isFile (dest ++ kept info.filename) = true := by
  rw [isComplete, List.all_eq_true]
  refine forall₂_congr fun info _ => ?_
  rw [extractedRelpath_eq]
  cases hdir : info.isDir with
  | true => simp
  | false =>
    by_cases hkept : kept info.filename = []
    · simp [hkept]
    · rw [if_neg hkept]
      simp [hkept, join_kept]

theorem arcname_eq_empty : arcname filename = "" ↔ kept filename = [] := by
  constructor
  · intro h
    rw [← Paths.segments_intercalate fun s => isSegment_kept, kept, ← arcname, h]
    rfl
  · intro h
    rw [arcname, ← kept, h]
    rfl

/-- Extraction below an empty directory changes nothing elsewhere and is recognised; and a recognised
directory has the file of each file entry whose name keeps a component. -/
theorem extraction_recognised (repr : String → String) (fs : FileSystem) (destDir : Path) (archive : ZipArchive) :
    (∀ fs', fs.IsEmptyDir (Paths.resolve destDir) → safeExtract repr archive destDir fs = .ok fs' →
      (∀ p, ¬ Paths.resolve destDir <+: p → fs'.nodes p = fs.nodes p) ∧
      isComplete fs' (Paths.resolve destDir) archive = true) ∧
    (isComplete fs (Paths.resolve destDir) archive = true →
      ∀ info ∈ archive, info.isDir = false → arcname info.filename ≠ "" →
        fs.isFile (targetpath (Paths.resolve destDir) info.filename) = true) := by
  have hclean := Paths.resolve_isClean destDir
  constructor
  · intro fs' hempty h
    obtain ⟨hext, hfiles⟩ := safeExtract_ok hempty.1 h
    refine ⟨hext.outside, ?_⟩
    rw [isComplete_iff]
    intro info hinfo hfile _
    rw [← targetpath_eq hclean]
    exact hfiles info hinfo hfile
  · intro hcomplete info hinfo hfile hname
    rw [targetpath_eq hclean]
    exact isComplete_iff.mp hcomplete info hinfo hfile fun h => hname (arcname_eq_empty.mpr h)

def dottedArchive : ZipArchive := [⟨"a/../b.txt", 1, 0, some [120]⟩]

theorem dotted_extracts : ∃ fs', safeExtract id dottedArchive ["tree"] (.skeleton "tree") = .ok fs' ∧
    isComplete fs' ["tree"] dottedArchive = true ∧
    fs'.isFile (targetpath ["tree"] "a/../b.txt") = true := by
  have hresolve : Paths.resolve ["tree"] = ["tree"] := by decide
  have hok : (safeExtract id dottedArchive ["tree"] (.skeleton "tree")).isOk = true := by decide +kernel
  cases h : safeExtract id dottedArchive ["tree"] (.skeleton "tree") with
  | error e =>
    rw [h] at hok
    cases hok
  | ok fs' =>
    have hcomplete := ((extraction_recognised id (.skeleton "tree") ["tree"] dottedArchive).1 fs'
      (by rw [hresolve]; exact FileSystem.skeleton_isEmptyDir "tree") h).2
    have hfile := (extraction_recognised id fs' ["tree"] dottedArchive).2 hcomplete _ List.mem_cons_self
      (by decide +kernel) (by decide +kernel)
    exact ⟨fs', rfl, hcomplete, hfile⟩

def dotEntry : ZipInfo := ⟨".", 0, 0, some []⟩

/-- A file entry named `.` stands for nothing to write; a directory without any file counts as complete. -/
theorem dot_entry_is_complete : dotEntry.isDir = false ∧ isComplete (.skeleton "tree") ["tree"] [dotEntry] = true ∧
    ∀ p, (FileSystem.skeleton "tree").isFile p = false :=
  ⟨by decide +kernel, by decide +kernel, FileSystem.skeleton_isFile "tree"⟩

end SubmissionsChecker.PluginCache
