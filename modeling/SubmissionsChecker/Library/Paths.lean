import Mathlib.Data.List.Infix
import Mathlib.Data.List.Basic

/-! POSIX paths as lists of segments: joining a name to a directory, resolving `..`, and when a
name stays below the directory it is joined to. -/

namespace Paths

/-- An absolute path, segment by segment. -/
abbrev Path := List String

/-- The segments of a name; empty ones and `.` stand for nothing. -/
def segments (name : String) : Path :=
  ((name.toList.splitOn '/').map String.ofList).filter fun s => s != "" && s != "."

def isAbsolute (name : String) : Bool := name.toList.head? == some '/'

/-- `base / name`: an absolute name replaces the base. -/
def join (base : Path) (name : String) : Path := if isAbsolute name then segments name else base ++ segments name

/-- One segment more; the parent of the root is the root. -/
def enter (at_ : Path) (s : String) : Path := if s = ".." then at_.dropLast else at_ ++ [s]

/-- The path without `..`. -/
def resolve (p : Path) : Path := p.foldl enter []

/-- Followed from a directory `depth` levels down, the segments leave it through its top. -/
def climbs : ℕ → List String → Bool
  | _, [] => false
  | depth, s :: rest => if s = ".." then depth == 0 || climbs (depth - 1) rest else climbs (depth + 1) rest

/-- The names, joined one after the other, stay below any directory they are joined to. -/
def Stays (names : List String) : Prop :=
  (∀ name ∈ names, isAbsolute name = false) ∧ climbs 0 (names.flatMap segments) = false

instance (names : List String) : Decidable (Stays names) := by
  unfold Stays
  infer_instance

/-- A path without `..`. -/
def Clean (p : Path) : Prop := ".." ∉ p

instance (p : Path) : Decidable (Clean p) := by
  unfold Clean
  infer_instance

theorem segments_slash (a b : String) : segments (a ++ "/" ++ b) = segments a ++ segments b := by
  have hslash : "/".toList = ['/'] := rfl
  rw [segments, segments, segments, String.toList_append, String.toList_append, hslash, List.append_assoc,
    List.singleton_append, List.splitOn_append_cons_self, List.map_append, List.filter_append]

section

variable {p base : Path} {s : String} {segs : List String}

theorem foldl_enter_clean (h : Clean p) (at_ : Path) : p.foldl enter at_ = at_ ++ p := by
  induction p generalizing at_ with
  | nil => simp
  | cons s rest ih =>
    rw [Clean, List.mem_cons, not_or] at h
    rw [List.foldl_cons, ih h.2, enter, if_neg (Ne.symm h.1)]
    simp

theorem resolve_clean (h : Clean p) : resolve p = p := by
  rw [resolve, foldl_enter_clean h]
  rfl

theorem resolve_append (h : Clean base) (segs : List String) : resolve (base ++ segs) = segs.foldl enter base := by
  rw [resolve, List.foldl_append, foldl_enter_clean h]
  rfl

/-- Segments that do not climb out are followed below the directory as below any other. -/
theorem foldl_enter_below {depth : ℕ} {below : List String} (hdepth : below.length = depth)
    (h : climbs depth segs = false) : segs.foldl enter (base ++ below) = base ++ segs.foldl enter below := by
  induction segs generalizing depth below with
  | nil => rfl
  | cons s rest ih =>
    rw [climbs] at h
    rw [List.foldl_cons, List.foldl_cons, enter, enter]
    split_ifs at h ⊢ with hs
    · rw [Bool.or_eq_false_iff, beq_eq_false_iff_ne] at h
      have hne : below ≠ [] := by
        intro hnil
        rw [hnil] at hdepth
        exact h.1 hdepth.symm
      rw [List.dropLast_append_of_ne_nil hne]
      apply ih _ h.2
      rw [List.length_dropLast, hdepth]
    · rw [List.append_assoc]
      apply ih _ h
      rw [List.length_append, hdepth, List.length_singleton]

/-- Entering segments adds no others. -/
theorem mem_foldl_enter {x : String} (segs : List String) (at_ : Path) (h : x ∈ segs.foldl enter at_) :
    x ∈ at_ ∨ x ∈ segs := by
  induction segs generalizing at_ with
  | nil => exact .inl h
  | cons s rest ih =>
    rcases ih _ h with hx | hx
    · rw [enter] at hx
      split_ifs at hx with hs
      · exact .inl (List.dropLast_subset _ hx)
      · rcases List.mem_append.mp hx with hx | hx
        · exact .inl hx
        · right
          rw [List.mem_singleton.mp hx]
          simp
    · exact .inr (List.mem_cons_of_mem _ hx)

/-- Segments that climb out leave a directory they do not name. -/
theorem not_mem_of_climbs {x : String} (hx : x ∉ segs) {depth : ℕ} {below : List String} (hdepth : below.length = depth)
    (hbelow : x ∉ below) (h : climbs depth segs = true) : x ∉ segs.foldl enter (x :: below) := by
  induction segs generalizing depth below with
  | nil => cases h
  | cons s rest ih =>
    rw [List.mem_cons, not_or] at hx
    rw [climbs] at h
    rw [List.foldl_cons, enter]
    split_ifs at h ⊢ with hs
    · rcases List.eq_nil_or_concat below with rfl | ⟨below', b, rfl⟩
      · intro hmem
        rcases mem_foldl_enter rest _ hmem with hmem | hmem
        · simp at hmem
        · exact hx.2 hmem
      · rw [List.concat_eq_append] at hdepth hbelow ⊢
        rw [List.length_append, List.length_singleton] at hdepth
        rw [← List.cons_append, List.dropLast_concat]
        rw [Bool.or_eq_true, beq_iff_eq] at h
        refine ih hx.2 ?_ (fun hmem => hbelow (List.mem_append_left _ hmem)) (h.resolve_left (by omega))
        omega
    · rw [List.cons_append]
      refine ih hx.2 ?_ ?_ h
      · rw [List.length_append, hdepth, List.length_singleton]
      · rw [List.mem_append, List.mem_singleton, not_or]
        exact ⟨hbelow, hx.1⟩

/-! Names joined one after the other -/

theorem foldl_join_relative {names : List String} (h : ∀ name ∈ names, isAbsolute name = false) (base : Path) :
    names.foldl join base = base ++ names.flatMap segments := by
  induction names generalizing base with
  | nil => simp
  | cons name names ih =>
    rw [List.forall_mem_cons] at h
    rw [List.foldl_cons, ih h.2, join, h.1]
    simp

/-- Where names that stay below their directory lead: to the same place below any. -/
theorem resolve_join_stays {names : List String} (h : Stays names) (hbase : Clean base) :
    resolve (names.foldl join base) = base ++ resolve (names.flatMap segments) := by
  rw [foldl_join_relative h.1, resolve_append hbase, resolve, ← foldl_enter_below List.length_nil h.2, List.append_nil]

/-- After an absolute name the directory does not matter. -/
theorem foldl_join_absolute {names : List String} {name : String} (hmem : name ∈ names) (h : isAbsolute name = true)
    (base base' : Path) : names.foldl join base = names.foldl join base' := by
  induction names generalizing base base' with
  | nil => cases hmem
  | cons n names ih =>
    rw [List.foldl_cons, List.foldl_cons]
    rcases List.mem_cons.mp hmem with rfl | hmem
    · rw [join, join, if_pos h, if_pos h]
    · exact ih hmem _ _

theorem exists_not_mem (l : List String) : ∃ x, x ≠ ".." ∧ x ∉ l := by
  have hlong : ∃ n : ℕ, ∀ x ∈ l, x.length < n := by
    induction l with
    | nil => exact ⟨0, nofun⟩
    | cons a l ih =>
      obtain ⟨n, hn⟩ := ih
      refine ⟨max n (a.length + 1), fun x hx => ?_⟩
      rcases List.mem_cons.mp hx with rfl | hx
      · omega
      · have := hn x hx
        omega
  obtain ⟨n, hn⟩ := hlong
  have hlength : (String.ofList (List.replicate (n + 3) 'a')).length = n + 3 := by simp
  refine ⟨String.ofList (List.replicate (n + 3) 'a'), fun h => ?_, fun h => ?_⟩
  · rw [h] at hlength
    have : "..".length = 2 := by decide
    omega
  · have := hn _ h
    omega

/-- Names stay below every directory exactly when none is absolute and they never climb out. -/
theorem stays_iff (names : List String) :
    Stays names ↔ ∀ base, Clean base → base <+: resolve (names.foldl join base) := by
  constructor
  · rintro ⟨hrelative, hclimbs⟩ base hclean
    rw [resolve_join_stays ⟨hrelative, hclimbs⟩ hclean]
    exact List.prefix_append _ _
  · intro h
    have hrelative : ∀ name ∈ names, isAbsolute name = false := by
      intro name hmem
      rw [← Bool.not_eq_true]
      intro habs
      -- the same path is below two different directories
      obtain ⟨x, hx, hxmem⟩ := exists_not_mem (resolve (names.foldl join []))
      have hinside := h [x] (by rw [Clean, List.mem_singleton]; exact Ne.symm hx)
      rw [foldl_join_absolute hmem habs [x] []] at hinside
      exact hxmem (hinside.subset (List.mem_singleton_self x))
    refine ⟨hrelative, ?_⟩
    rw [← Bool.not_eq_true]
    intro hclimbs
    obtain ⟨x, hx, hxmem⟩ := exists_not_mem (names.flatMap segments)
    have hclean : Clean [x] := by rw [Clean, List.mem_singleton]; exact Ne.symm hx
    have hinside := h [x] hclean
    rw [foldl_join_relative hrelative, resolve_append hclean] at hinside
    exact not_mem_of_climbs hxmem List.length_nil List.not_mem_nil hclimbs (hinside.subset (List.mem_singleton_self x))

end

/-! Names put together from segments -/

/-- What a segment of a name can be: it holds no slash and stands for something. -/
def IsSegment (s : String) : Prop := s ≠ "" ∧ s ≠ "." ∧ '/' ∉ s.toList

/-- The pieces a list is split into do not hold the separator. -/
theorem not_mem_of_mem_splitOn {c : Char} {chars piece : List Char} (h : piece ∈ chars.splitOn c) : c ∉ piece := by
  induction chars generalizing piece with
  | nil =>
    rw [List.splitOn_nil, List.mem_singleton] at h
    simp [h]
  | cons x chars ih =>
    rw [List.splitOn_cons_eq_if_modifyHead] at h
    split_ifs at h with hx
    · rcases List.mem_cons.mp h with rfl | h
      · simp
      · exact ih h
    · obtain ⟨first, others, heq⟩ := List.exists_cons_of_ne_nil (List.splitOn_ne_nil c chars)
      rw [heq] at h
      rcases List.mem_cons.mp h with rfl | h
      · have hfirst : c ∉ first := ih (by rw [heq]; apply List.mem_cons_self)
        rw [List.mem_cons, not_or]
        refine ⟨?_, hfirst⟩
        rintro rfl
        simp at hx
      · apply ih
        rw [heq]
        exact List.mem_cons_of_mem _ h

theorem isSegment_of_mem {s name : String} (h : s ∈ segments name) : IsSegment s := by
  rw [segments, List.mem_filter, Bool.and_eq_true, bne_iff_ne, bne_iff_ne] at h
  obtain ⟨hmem, hempty, hdot⟩ := h
  refine ⟨hempty, hdot, ?_⟩
  obtain ⟨piece, hpiece, rfl⟩ := List.mem_map.mp hmem
  rw [String.toList_ofList]
  exact not_mem_of_mem_splitOn hpiece

/-- Segments joined with slashes are read back. -/
theorem segments_intercalate {parts : List String} (h : ∀ s ∈ parts, IsSegment s) :
    segments ("/".intercalate parts) = parts := by
  rcases eq_or_ne parts [] with rfl | hne
  · rfl
  · have hslash : "/".toList = ['/'] := rfl
    have hpieces : ∀ piece ∈ parts.map String.toList, '/' ∉ piece := by
      intro piece hpiece
      obtain ⟨s, hs, rfl⟩ := List.mem_map.mp hpiece
      exact (h s hs).2.2
    rw [segments, String.toList_intercalate, hslash, List.splitOn_intercalate _ hpieces (by simpa using hne),
      List.map_map, List.filter_eq_self.mpr]
    · simp [Function.comp_def]
    · intro s hs
      obtain ⟨part, hpart, rfl⟩ := List.mem_map.mp hs
      have := h part hpart
      simp [this.1, this.2.1]

theorem isAbsolute_intercalate {parts : List String} (h : ∀ s ∈ parts, IsSegment s) :
    isAbsolute ("/".intercalate parts) = false := by
  rw [isAbsolute, beq_eq_false_iff_ne]
  cases parts with
  | nil => simp
  | cons s rest =>
    have hs := h s List.mem_cons_self
    have hchars : s.toList ≠ [] := fun hnil => hs.1 (String.toList_eq_nil_iff.mp hnil)
    obtain ⟨c, chars, heq⟩ := List.exists_cons_of_ne_nil hchars
    have hc : c ≠ '/' := by
      rintro rfl
      apply hs.2.2
      rw [heq]
      apply List.mem_cons_self
    rw [String.toList_intercalate]
    cases rest with
    | nil => simp [heq, hc]
    | cons t rest => simp [heq, hc]

/-- A resolved path has no `..` left. -/
theorem resolve_isClean (p : Path) : Clean (resolve p) := by
  suffices ∀ at_, Clean at_ → Clean (p.foldl enter at_) from this [] List.not_mem_nil
  induction p with
  | nil => exact fun _ h => h
  | cons s rest ih =>
    intro at_ hat
    rw [List.foldl_cons]
    apply ih
    rw [enter]
    split_ifs with hs
    · exact fun hmem => hat (List.dropLast_subset _ hmem)
    · rw [Clean, List.mem_append, List.mem_singleton, not_or]
      exact ⟨hat, Ne.symm hs⟩

end Paths
