import SubmissionsChecker.Library.Paths

/-! A tree of files and directories, without links: what is stored where, the calls that make
directories and files, and what a call below a directory leaves as it is. -/

namespace FileTree

open Paths (Path)

inductive Node
  | file (bytes : List UInt8)
  | dir
  deriving DecidableEq, Repr

/-- Why a call fails. -/
inductive OsError
  | fileExists
  | isADirectory
  /-- The directory to write into is missing, or is a file. -/
  | noDirectory
  deriving DecidableEq, Repr

structure FileSystem where
  nodes : Path → Option Node
  root : nodes [] = some .dir
  /-- Whatever there is, is in a directory. -/
  rooted : ∀ p s, nodes (p ++ [s]) ≠ none → nodes p = some .dir

/-- The tree of nothing but the directories named. -/
def FileSystem.skeleton (s : String) : FileSystem where
  nodes := fun p => if p = [] ∨ p = [s] then some .dir else none
  root := by simp
  rooted := by
    intro p t h
    have hs : p ++ [t] = [s] := by simpa using h
    have hp := congrArg List.length hs
    simp at hp
    simp [hp]

namespace FileSystem

variable (fs : FileSystem) (p : Path)

def exist : Bool := fs.nodes p != none

def isDir : Bool := fs.nodes p == some .dir

def isFile : Bool := match fs.nodes p with | some (.file _) => true | _ => false

/-- A directory with nothing in it. -/
def IsEmptyDir : Prop := fs.nodes p = some .dir ∧ ∀ s rest, fs.nodes (p ++ s :: rest) = none

/-- A file or a new directory in a directory there is. -/
def put (node : Node) (hnot : fs.nodes p ≠ some .dir) (hup : fs.nodes p.dropLast = some .dir) : FileSystem where
  nodes := fun q => if q = p then some node else fs.nodes q
  root := by
    have hp : p ≠ [] := by
      rintro rfl
      exact hnot fs.root
    rw [if_neg hp.symm, fs.root]
  rooted := by
    intro q s h
    split_ifs at h with hq
    · subst hq
      rw [List.dropLast_concat] at hup
      rw [if_neg (by simp), hup]
    · have hdir := fs.rooted q s h
      rw [if_neg, hdir]
      rintro rfl
      exact hnot hdir

/-- `os.mkdir` -/
def mkdir : Except OsError FileSystem :=
  if hnew : fs.nodes p = none then
    if hup : fs.nodes p.dropLast = some .dir then .ok (fs.put p .dir (by simp [hnew]) hup) else .error .noDirectory
  else .error .fileExists

/-- The levels that are missing, from the top. -/
def makedirsFrom (fs : FileSystem) (at_ : Path) : List String → Except OsError FileSystem
  | [] => .ok fs
  | s :: rest => do
    let fs ← if fs.exist (at_ ++ [s]) then pure fs else fs.mkdir (at_ ++ [s])
    fs.makedirsFrom (at_ ++ [s]) rest

/-- `os.makedirs` -/
def makedirs : Except OsError FileSystem := fs.makedirsFrom [] p

/-- `open(path, "wb")`, and the bytes written -/
def writeFile (bytes : List UInt8) : Except OsError FileSystem :=
  if hdir : fs.nodes p = some .dir then .error .isADirectory
  else if hup : fs.nodes p.dropLast = some .dir then .ok (fs.put p (.file bytes) hdir hup) else .error .noDirectory

end FileSystem

/-- What calls below a directory leave: all that is outside it, and files and directories as such. -/
structure Extends (dest : Path) (fs fs' : FileSystem) : Prop where
  outside : ∀ p, ¬ dest <+: p → fs'.nodes p = fs.nodes p
  dirs : ∀ p, fs.nodes p = some .dir → fs'.nodes p = some .dir
  files : ∀ p, fs.isFile p = true → fs'.isFile p = true

theorem FileSystem.skeleton_isEmptyDir (s : String) : (skeleton s).IsEmptyDir [s] :=
  ⟨by simp [skeleton], fun t rest => by simp [skeleton]⟩

theorem FileSystem.skeleton_isFile (s : String) (p : Path) : (skeleton s).isFile p = false := by
  simp only [isFile, skeleton]
  split_ifs <;> rfl

namespace Extends

variable {dest p : Path} {fs fs' fs'' : FileSystem} {node : Node} {bytes : List UInt8}

theorem refl (dest : Path) (fs : FileSystem) : Extends dest fs fs := ⟨fun _ _ => rfl, fun _ h => h, fun _ h => h⟩

theorem trans (h : Extends dest fs fs') (h' : Extends dest fs' fs'') : Extends dest fs fs'' where
  outside := fun p hp => (h'.outside p hp).trans (h.outside p hp)
  dirs := fun p hp => h'.dirs p (h.dirs p hp)
  files := fun p hp => h'.files p (h.files p hp)

/-- A node put below the directory, a file where there was one. -/
theorem put {hnot : fs.nodes p ≠ some .dir} {hup : fs.nodes p.dropLast = some .dir} (hbelow : dest <+: p)
    (hfile : fs.isFile p = true → ∃ bytes, node = .file bytes) : Extends dest fs (fs.put p node hnot hup) where
  outside := by
    intro q hq
    have hne : q ≠ p := by
      rintro rfl
      exact hq hbelow
    exact if_neg hne
  dirs := by
    intro q hq
    have hne : q ≠ p := by
      rintro rfl
      exact hnot hq
    exact (if_neg hne).trans hq
  files := by
    intro q hq
    by_cases hne : q = p
    · subst hne
      obtain ⟨bytes, rfl⟩ := hfile hq
      simp [FileSystem.isFile, FileSystem.put]
    · simpa [FileSystem.isFile, FileSystem.put, hne] using hq

theorem mkdir (hbelow : dest <+: p) (h : fs.mkdir p = .ok fs') : Extends dest fs fs' := by
  rw [FileSystem.mkdir] at h
  split_ifs at h with hnew hup
  · cases h
    refine put hbelow ?_
    intro hfile
    simp [FileSystem.isFile, hnew] at hfile

theorem writeFile (hbelow : dest <+: p) (h : fs.writeFile p bytes = .ok fs') :
    Extends dest fs fs' ∧ fs'.isFile p = true := by
  rw [FileSystem.writeFile] at h
  split_ifs at h with hdir hup
  · cases h
    refine ⟨put hbelow fun _ => ⟨bytes, rfl⟩, ?_⟩
    simp [FileSystem.isFile, FileSystem.put]

/-- Whatever is above something there is, is there. -/
theorem exist_above {q : Path} (hq : q <+: p) (h : fs.nodes p ≠ none) : fs.nodes q ≠ none := by
  obtain ⟨rest, rfl⟩ := hq
  induction rest using List.reverseRecOn with
  | nil => simpa using h
  | append_singleton rest s ih =>
    apply ih
    rw [← List.append_assoc] at h
    rw [fs.rooted _ s h]
    simp

/-- Directories made on the way to a place below a directory are below it. -/
theorem makedirsFrom {at_ : Path} {rest : List String} (hbelow : dest <+: at_ ++ rest)
    (hdest : fs.nodes dest = some .dir) (h : fs.makedirsFrom at_ rest = .ok fs') : Extends dest fs fs' := by
  induction rest generalizing fs at_ with
  | nil =>
    cases h
    exact refl _ _
  | cons s rest ih =>
    have hhere : at_ ++ s :: rest = (at_ ++ [s]) ++ rest := by simp
    rw [hhere] at hbelow
    rw [FileSystem.makedirsFrom] at h
    by_cases hexist : fs.exist (at_ ++ [s]) = true
    · rw [if_pos hexist] at h
      exact ih hbelow hdest h
    · rw [if_neg hexist] at h
      cases hmade : fs.mkdir (at_ ++ [s]) with
      | error e =>
        rw [hmade] at h
        cases h
      | ok fs₁ =>
        rw [hmade] at h
        -- a level above the directory would be there
        have hlevel : dest <+: at_ ++ [s] := by
          rcases List.prefix_or_prefix_of_prefix hbelow (List.prefix_append (at_ ++ [s]) rest) with hd | hd
          · exact hd
          · exfalso
            apply hexist
            rw [FileSystem.exist, bne_iff_ne]
            apply exist_above hd
            simp [hdest]
        have hstep := mkdir hlevel hmade
        exact hstep.trans (ih hbelow (hstep.dirs _ hdest) h)

theorem makedirs (hbelow : dest <+: p) (hdest : fs.nodes dest = some .dir) (h : fs.makedirs p = .ok fs') :
    Extends dest fs fs' :=
  makedirsFrom (show dest <+: [] ++ p from hbelow) hdest h

end Extends

end FileTree
