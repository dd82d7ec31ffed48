import Mathlib.Data.List.Basic

/-! Loops that can raise: `foldlM` in `Except`. -/

namespace Loops

universe u v w

variable {α : Type u} {S : Type v} {ε : Type w} {f : S → α → Except ε S} {x : α} {xs : List α} {s t : S} {e : ε}

theorem ok_bind {A B : Type u} (a : A) (g : A → Except ε B) : ((.ok a : Except ε A) >>= g) = g a := rfl

theorem bind_ok {A B : Type u} {r : Except ε A} {g : A → Except ε B} {b : B} :
    (r >>= g) = .ok b ↔ ∃ a, r = .ok a ∧ g a = .ok b := by
  cases r with
  | error e =>
    constructor
    · intro h
      cases h
    · rintro ⟨a, h, -⟩
      cases h
  | ok a =>
    constructor
    · exact fun h => ⟨a, rfl, h⟩
    · rintro ⟨a', h, hb⟩
      cases h
      exact hb

theorem bind_isOk {A B : Type u} {r : Except ε A} {g : A → Except ε B} :
    (∃ b, (r >>= g) = .ok b) ↔ ∃ a, r = .ok a ∧ ∃ b, g a = .ok b := by
  constructor
  · rintro ⟨b, h⟩
    obtain ⟨a, ha, hb⟩ := bind_ok.mp h
    exact ⟨a, ha, b, hb⟩
  · rintro ⟨a, ha, b, hb⟩
    exact ⟨b, bind_ok.mpr ⟨a, ha, hb⟩⟩

theorem foldlM_cons_ok : (x :: xs).foldlM f s = .ok t ↔ ∃ s₁, f s x = .ok s₁ ∧ xs.foldlM f s₁ = .ok t := by
  rw [List.foldlM_cons]
  cases f s x with
  | error e =>
    constructor
    · intro h
      cases h
    · rintro ⟨s₁, h, -⟩
      cases h
  | ok s₁ =>
    constructor
    · exact fun h => ⟨s₁, rfl, h⟩
    · rintro ⟨s₂, h, ht⟩
      cases h
      exact ht

/-- What a list with one element put at its end holds. -/
theorem getElem?_concat {y : α} {i : ℕ} (h : (xs ++ [x])[i]? = some y) : xs[i]? = some y ∨ i = xs.length ∧ y = x := by
  rw [List.getElem?_append] at h
  split_ifs at h with hi
  · exact .inl h
  · rw [List.getElem?_singleton] at h
    split_ifs at h with hz
    cases h
    exact .inr ⟨by omega, rfl⟩

/-- What every turn keeps, the loop keeps. -/
theorem foldlM_keeps {I : S → Prop} (hf : ∀ x ∈ xs, ∀ s s', f s x = .ok s' → I s → I s')
    (h : xs.foldlM f s = .ok t) (hs : I s) : I t := by
  induction xs generalizing s with
  | nil =>
    cases h
    exact hs
  | cons x xs ih =>
    obtain ⟨s₁, hfirst, hrest⟩ := foldlM_cons_ok.mp h
    exact ih (fun x' hx' => hf x' (List.mem_cons_of_mem _ hx')) hrest (hf x List.mem_cons_self s s₁ hfirst hs)

/-- Where a turn's success is a matter of its element alone, all have to succeed. -/
theorem foldlM_isOk {P : α → Prop} (hf : ∀ s x, (∃ s', f s x = .ok s') ↔ P x) :
    (∃ t, xs.foldlM f s = .ok t) ↔ ∀ x ∈ xs, P x := by
  induction xs generalizing s with
  | nil => exact ⟨fun _ x hx => absurd hx List.not_mem_nil, fun _ => ⟨s, rfl⟩⟩
  | cons x xs ih =>
    rw [List.forall_mem_cons, ← hf s x]
    constructor
    · rintro ⟨t, h⟩
      obtain ⟨s₁, hfirst, hrest⟩ := foldlM_cons_ok.mp h
      exact ⟨⟨s₁, hfirst⟩, ih.mp ⟨t, hrest⟩⟩
    · rintro ⟨⟨s₁, hfirst⟩, hrest⟩
      obtain ⟨t, h⟩ := ih.mpr hrest
      exact ⟨t, foldlM_cons_ok.mpr ⟨s₁, hfirst, h⟩⟩

/-- A loop raises what its first failing turn raises. -/
theorem foldlM_error : xs.foldlM f s = .error e ↔
    ∃ pre x post s₁, xs = pre ++ x :: post ∧ pre.foldlM f s = .ok s₁ ∧ f s₁ x = .error e := by
  induction xs generalizing s with
  | nil =>
    constructor
    · intro h
      cases h
    · rintro ⟨pre, x, post, s₁, h, -⟩
      simp at h
  | cons y xs ih =>
    constructor
    · intro h
      cases hy : f s y with
      | error e' =>
        rw [List.foldlM_cons, hy] at h
        cases h
        exact ⟨[], y, xs, s, rfl, rfl, hy⟩
      | ok s' =>
        rw [List.foldlM_cons, hy] at h
        obtain ⟨pre, x, post, s₁, rfl, hpre, hx⟩ := ih.mp h
        exact ⟨y :: pre, x, post, s₁, rfl, foldlM_cons_ok.mpr ⟨s', hy, hpre⟩, hx⟩
    · rintro ⟨pre, x, post, s₁, heq, hpre, hx⟩
      cases pre with
      | nil =>
        obtain ⟨rfl, rfl⟩ := List.cons.inj heq
        cases hpre
        rw [List.foldlM_cons, hx]
        rfl
      | cons z pre =>
        obtain ⟨rfl, rfl⟩ := List.cons.inj heq
        obtain ⟨s', hy, hrest⟩ := foldlM_cons_ok.mp hpre
        rw [List.foldlM_cons, hy]
        exact ih.mpr ⟨pre, x, post, s₁, rfl, hrest, hx⟩

/-- What a loop over a list collects comes from an element of it. -/
theorem mem_of_mapM {A : Type u} {B : Type w} {g : A → Except ε B} {as : List A} {bs : List B} {b : B}
    (h : as.mapM g = .ok bs) (hb : b ∈ bs) : ∃ a ∈ as, g a = .ok b := by
  induction as generalizing bs with
  | nil =>
    cases h
    cases hb
  | cons a as ih =>
    rw [List.mapM_cons] at h
    obtain ⟨b₁, hb₁, hrest⟩ := bind_ok.mp h
    obtain ⟨bs₁, hbs₁, hcons⟩ := bind_ok.mp hrest
    cases hcons
    rcases List.mem_cons.mp hb with rfl | hb
    · exact ⟨a, List.mem_cons_self, hb₁⟩
    · obtain ⟨a', ha', hg⟩ := ih hbs₁ hb
      exact ⟨a', List.mem_cons_of_mem _ ha', hg⟩

end Loops
