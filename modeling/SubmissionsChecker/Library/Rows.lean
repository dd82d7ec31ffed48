import Mathlib.Logic.Relation
import SubmissionsChecker.Library.Table

/-! Tables whose rows go through steps. Each row keeps its place; what a step keeps, every row keeps over
any number of changes of the table. -/

namespace Table

open Relation

variable {Row : Type*} {R R' : Row → Row → Prop} {rows rows' rows'' : List Row} {r : Row} {i : ℕ}

/-- Each row stands where it stood and has gone through steps of `R`. -/
structure Follows (R : Row → Row → Prop) (rows rows' : List Row) : Prop where
  length : rows'.length = rows.length
  steps : ∀ (i : ℕ) r, rows[i]? = some r → ∃ r', rows'[i]? = some r' ∧ ReflTransGen R r r'

namespace Follows

theorem refl (rows : List Row) : Follows R rows rows := ⟨rfl, fun _ r hr => ⟨r, hr, .refl⟩⟩

theorem trans (h₁ : Follows R rows rows') (h₂ : Follows R rows' rows'') : Follows R rows rows'' where
  length := h₂.length.trans h₁.length
  steps i r hr := by
    obtain ⟨r', hr', hsteps⟩ := h₁.steps i r hr
    obtain ⟨r'', hr'', hsteps'⟩ := h₂.steps i r' hr'
    exact ⟨r'', hr'', hsteps.trans hsteps'⟩

theorem mono (h : Follows R rows rows') (hsub : ∀ a b, R a b → R' a b) : Follows R' rows rows' where
  length := h.length
  steps i r hr := by
    obtain ⟨r', hr', hsteps⟩ := h.steps i r hr
    exact ⟨r', hr', ReflTransGen.mono hsub _ _ hsteps⟩

/-- A row after the change comes from the row that stood there. -/
theorem source (h : Follows R rows rows') (hr : rows'[i]? = some r) :
    ∃ r₀, rows[i]? = some r₀ ∧ ReflTransGen R r₀ r := by
  have hlt : i < rows.length := h.length ▸ (List.getElem?_eq_some_iff.mp hr).1
  obtain ⟨r', hr', hsteps⟩ := h.steps i rows[i] (List.getElem?_eq_getElem hlt)
  rw [hr] at hr'
  cases hr'
  exact ⟨rows[i], List.getElem?_eq_getElem hlt, hsteps⟩

theorem modify {f : Row → Row} (h : ∀ r, rows[i]? = some r → R r (f r)) : Follows R rows (rows.modify i f) where
  length := List.length_modify ..
  steps j r hr := by
    by_cases hij : i = j
    · subst hij
      refine ⟨f r, ?_, .single (h r hr)⟩
      rw [getElem?_modify_self, hr, Option.map_some]
    · exact ⟨r, (getElem?_modify_ne f hij).trans hr, .refl⟩

theorem updateWhere {p : ℕ → Row → Bool} {f : Row → Row} (h : ∀ i r, rows[i]? = some r → p i r = true → R r (f r)) :
    Follows R rows (Table.updateWhere p f rows) where
  length := length_updateWhere ..
  steps i r hr := by
    refine ⟨_, (getElem?_updateWhere ..).trans (by rw [hr, Option.map_some]), ?_⟩
    cases hp : p i r with
    | true => exact .single (h i r hr hp)
    | false => exact .refl

end Follows

theorem map_updateWhere {α : Type*} {g : Row → α} {f : Row → Row} (p : ℕ → Row → Bool) (h : ∀ r, g (f r) = g r)
    (rows : List Row) : (Table.updateWhere p f rows).map g = rows.map g := by
  refine List.ext_getElem? fun i => ?_
  rw [List.getElem?_map, List.getElem?_map, getElem?_updateWhere, Option.map_map]
  refine congrArg (Option.map · rows[i]?) (funext fun r => ?_)
  by_cases hp : p i r = true
  · simp [hp, h]
  · simp [hp]

/-- What every step keeps is kept. -/
theorem keeps_of_steps {P : Row → Prop} {a b : Row} (h : ReflTransGen R a b) (hstep : ∀ a b, R a b → P a → P b)
    (ha : P a) : P b := by
  induction h with
  | refl => exact ha
  | tail _ hab ih => exact hstep _ _ hab ih

/-- What no step changes is the same at both ends. -/
theorem same_of_steps {α : Type*} {f : Row → α} {a b : Row} (h : ReflTransGen R a b)
    (hstep : ∀ a b, R a b → f b = f a) : f b = f a := by
  induction h with
  | refl => rfl
  | tail _ hab ih => exact (hstep _ _ hab).trans ih

/-- So is a column of the table. -/
theorem Follows.map_eq {α : Type*} {f : Row → α} (h : Follows R rows rows') (hstep : ∀ a b, R a b → f b = f a) :
    rows'.map f = rows.map f := by
  refine List.ext_getElem? fun i => ?_
  rw [List.getElem?_map, List.getElem?_map]
  cases hr : rows[i]? with
  | none =>
    rw [List.getElem?_eq_none_iff, ← h.length, ← List.getElem?_eq_none_iff] at hr
    rw [hr]
  | some r =>
    obtain ⟨r', hr', hsteps⟩ := h.steps i r hr
    rw [hr', Option.map_some, Option.map_some, same_of_steps hsteps hstep]

end Table
