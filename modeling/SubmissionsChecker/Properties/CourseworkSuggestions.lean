import SubmissionsChecker.Services.ClassroomMatching
import Mathlib.Data.List.Nodup

/-! What is suggested. Every coursework goes to one assignment at most and none that is taken to any. Numbers decide only
in the first loop: an assignment it leaves over can be paired by title with a coursework of another number. -/

namespace SubmissionsChecker

namespace CourseworkMatch

section

variable {similarity : String → String → ℚ} {assignments : List Assignment} {courseworks free pool : List Coursework}
  {taken : List String} {d d' : Draft} {a : Assignment} {cw : Coursework} {n : ℕ} {title id : String}

/-- Pairs of the offered, each once. -/
structure Sound (assignments : List Assignment) (pool : List Coursework) (d : Draft) : Prop where
  free : ∀ cw ∈ d.free, cw ∈ pool
  pairs : ∀ e ∈ d.out, (∃ a ∈ assignments, a.1 = e.1) ∧ ∃ cw ∈ pool, cw.1 = e.2
  used : ∀ e ∈ d.out, ∀ cw ∈ d.free, cw.1 ≠ e.2
  keys : (d.out.map (·.1)).Nodup
  once : (d.out.map (·.2)).Nodup

theorem Sound.start (assignments : List Assignment) (pool : List Coursework) : Sound assignments pool { free := pool } where
  free := fun _ h => h
  pairs := fun _ h => absurd h List.not_mem_nil
  used := fun _ h => absurd h List.not_mem_nil
  keys := List.nodup_nil
  once := List.nodup_nil

theorem mem_link {e : ℕ × String} : e ∈ (d.link a id).out ↔ e = (a.1, id) ∨ e ∈ d.out ∧ e.1 ≠ a.1 := by
  unfold Draft.link Assoc.set
  rw [List.mem_cons, List.mem_filter, bne_iff_ne]

theorem mem_link_free : cw ∈ (d.link a id).free ↔ cw ∈ d.free ∧ cw.1 ≠ id := by
  unfold Draft.link
  rw [List.mem_filter, decide_eq_true_eq]

theorem Sound.link (h : Sound assignments pool d) (ha : a ∈ assignments) (hcw : cw ∈ d.free) :
    Sound assignments pool (d.link a cw.1) where
  free := fun cw' hcw' => h.free cw' (mem_link_free.mp hcw').1
  pairs := by
    intro e he
    rcases mem_link.mp he with rfl | ⟨he, -⟩
    · exact ⟨⟨a, ha, rfl⟩, cw, h.free cw hcw, rfl⟩
    · exact h.pairs e he
  used := by
    intro e he cw' hcw'
    obtain ⟨hfree, hne⟩ := mem_link_free.mp hcw'
    rcases mem_link.mp he with rfl | ⟨he, -⟩
    · exact hne
    · exact h.used e he cw' hfree
  keys := by
    unfold Draft.link Assoc.set
    rw [List.map_cons, List.nodup_cons]
    refine ⟨fun hmem => ?_, h.keys.sublist (List.filter_sublist.map _)⟩
    obtain ⟨e, he, heq⟩ := List.mem_map.mp hmem
    exact absurd heq (bne_iff_ne.mp (List.mem_filter.mp he).2)
  once := by
    unfold Draft.link Assoc.set
    rw [List.map_cons, List.nodup_cons]
    refine ⟨fun hmem => ?_, h.once.sublist (List.filter_sublist.map _)⟩
    obtain ⟨e, he, heq⟩ := List.mem_map.mp hmem
    exact h.used e (List.mem_filter.mp he).1 cw hcw heq.symm

/-- Both titles have a number, and the numbers differ. -/
def Differ (a : Assignment) (cw : Coursework) : Prop :=
  ∃ n m, number a.2 = .ok (some n) ∧ number cw.2 = .ok (some m) ∧ n ≠ m

/-- The assignment has a number that no coursework left has. -/
def LeftOver (d : Draft) (a : Assignment) : Prop :=
  a.1 ∉ d.out.map (·.1) → ∀ n, number a.2 = .ok (some n) → ∀ cw ∈ d.free, number cw.2 ≠ .ok (some n)

/-- Draft `d'` is `d` with more pairs. -/
structure Grows (d d' : Draft) : Prop where
  keys : d.out.map (·.1) ⊆ d'.out.map (·.1)
  free : d'.free ⊆ d.free

theorem Grows.refl (d : Draft) : Grows d d := ⟨fun _ h => h, fun _ h => h⟩

theorem Grows.trans {d₁ d₂ d₃ : Draft} (h : Grows d₁ d₂) (h' : Grows d₂ d₃) : Grows d₁ d₃ :=
  ⟨fun _ hk => h'.keys (h.keys hk), fun _ hf => h.free (h'.free hf)⟩

theorem LeftOver.grows (h : LeftOver d a) (hg : Grows d d') : LeftOver d' a :=
  fun hnew n hn cw hcw => h (fun hmem => hnew (hg.keys hmem)) n hn cw (hg.free hcw)

theorem key_mem_link (d : Draft) (a : Assignment) (id : String) : a.1 ∈ (d.link a id).out.map (·.1) :=
  List.mem_map.mpr ⟨(a.1, id), mem_link.mpr (.inl rfl), rfl⟩

theorem Grows.link (d : Draft) (a : Assignment) (id : String) : Grows d (d.link a id) where
  keys := by
    intro k hk
    obtain ⟨e, he, rfl⟩ := List.mem_map.mp hk
    by_cases heq : e.1 = a.1
    · rw [heq]
      exact key_mem_link d a id
    · exact List.mem_map.mpr ⟨e, mem_link.mpr (.inr ⟨he, heq⟩), rfl⟩
  free := fun _ h => (mem_link_free.mp h).1

/-- No pair differs in its numbers. -/
def Agrees (assignments : List Assignment) (pool : List Coursework) (out : List (ℕ × String)) : Prop :=
  ∀ e ∈ out, ∀ a ∈ assignments, ∀ cw ∈ pool, a.1 = e.1 → cw.1 = e.2 → ¬ Differ a cw

theorem Agrees.link (hids : (assignments.map (·.1)).Nodup) (hpool : (pool.map (·.1)).Nodup)
    (h : Agrees assignments pool d.out) (ha : a ∈ assignments) (hcw : cw ∈ pool) (hno : ¬ Differ a cw) :
    Agrees assignments pool (d.link a cw.1).out := by
  intro e he a' ha' cw' hcw' hkey hval
  rcases mem_link.mp he with rfl | ⟨he, -⟩
  · rw [List.inj_on_of_nodup_map hids ha' ha hkey, List.inj_on_of_nodup_map hpool hcw' hcw hval]
    exact hno
  · exact h e he a' ha' cw' hcw' hkey hval

end

end CourseworkMatch

end SubmissionsChecker
