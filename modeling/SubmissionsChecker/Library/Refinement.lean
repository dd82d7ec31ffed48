import Mathlib.Data.Nat.Find
import Mathlib.Tactic.Ring
import Mathlib.Tactic.Linarith

/-! Cutting a range of indices until no gap is to be cut. A gap is a pair of marked indices with no marked one in
between; the gaps still to be looked at are on a stack. -/

namespace Refinement

/-- Where a gap is cut, if it is. -/
structure Cutter where
  cut : ℕ × ℕ → Option ℕ
  inside : ∀ gap i, cut gap = some i → gap.1 < i ∧ i < gap.2

/-- Falls with every turn, since a cut makes two smaller gaps. -/
def weight (stack : List (ℕ × ℕ)) : ℕ := (stack.map fun gap => (gap.2 - gap.1) ^ 2 + 1).sum

variable {c : Cutter} {stack rest : List (ℕ × ℕ)} {keep : List Bool} {gap gap' : ℕ × ℕ} {i j lo hi : ℕ}

theorem weight_cut (hlo : lo < i) (hhi : i < hi) : weight ((i, hi) :: (lo, i) :: rest) < weight ((lo, hi) :: rest) := by
  obtain ⟨a, rfl⟩ := Nat.exists_eq_add_of_lt hlo
  obtain ⟨b, rfl⟩ := Nat.exists_eq_add_of_lt hhi
  have ha : lo + a + 1 - lo = a + 1 := by omega
  have hb : lo + a + 1 + b + 1 - (lo + a + 1) = b + 1 := by omega
  have hab : lo + a + 1 + b + 1 - lo = a + 1 + (b + 1) := by omega
  simp only [weight, List.map_cons, List.sum_cons, ha, hb, hab]
  nlinarith [Nat.zero_le (a * b)]

theorem weight_pop : weight rest < weight (gap :: rest) := by
  simp [weight]

/-- The loop. -/
def run (c : Cutter) (stack : List (ℕ × ℕ)) (keep : List Bool) : List Bool :=
  match stack with
  | [] => keep
  | gap :: rest =>
    match _hcut : c.cut gap with
    | none => run c rest keep
    | some i => run c ((i, gap.2) :: (gap.1, i) :: rest) (keep.set i true)
termination_by weight stack
decreasing_by
  · exact weight_pop
  · exact weight_cut (c.inside gap i _hcut).1 (c.inside gap i _hcut).2

theorem run_nil (c : Cutter) (keep : List Bool) : run c [] keep = keep := by
  rw [run]

theorem run_none (h : c.cut gap = none) : run c (gap :: rest) keep = run c rest keep := by
  rw [run]
  split
  · rfl
  · next i hi =>
    rw [h] at hi
    cases hi

theorem run_some (h : c.cut gap = some i) :
    run c (gap :: rest) keep = run c ((i, gap.2) :: (gap.1, i) :: rest) (keep.set i true) := by
  rw [run]
  split
  · next hnone =>
    rw [h] at hnone
    cases hnone
  · next j hj =>
    rw [h] at hj
    cases hj
    rfl

def Kept (keep : List Bool) (i : ℕ) : Prop := keep[i]? = some true

instance (keep : List Bool) : DecidablePred (Kept keep) := fun i => inferInstanceAs (Decidable (keep[i]? = some true))

theorem Kept.lt (h : Kept keep i) : i < keep.length := (List.getElem?_eq_some_iff.mp h).1

theorem kept_set (hi : i < keep.length) : Kept (keep.set i true) j ↔ j = i ∨ Kept keep j := by
  unfold Kept
  by_cases hij : i = j
  · subst hij
    simp [hi]
  · rw [List.getElem?_set_ne hij]
    exact ⟨.inr, fun h => h.resolve_left fun heq => hij heq.symm⟩

structure IsGap (keep : List Bool) (gap : ℕ × ℕ) : Prop where
  lt : gap.1 < gap.2
  left : Kept keep gap.1
  right : Kept keep gap.2
  between : ∀ i, gap.1 < i → i < gap.2 → ¬ Kept keep i

/-- An index that is not kept lies in a gap. -/
theorem exists_gap (hlo : Kept keep lo) (hhi : Kept keep hi) (hi₁ : lo < i) (hi₂ : i < hi) (hi : ¬ Kept keep i) :
    ∃ gap, IsGap keep gap ∧ gap.1 < i ∧ i < gap.2 := by
  have hleft : Kept keep (Nat.findGreatest (Kept keep) i) := Nat.findGreatest_spec hi₁.le hlo
  have hle : Nat.findGreatest (Kept keep) i ≤ i := Nat.findGreatest_le i
  have hne : Nat.findGreatest (Kept keep) i ≠ i := fun heq => hi (heq ▸ hleft)
  have hex : ∃ j, i < j ∧ Kept keep j := ⟨_, hi₂, hhi⟩
  have hlt : Nat.findGreatest (Kept keep) i < i := lt_of_le_of_ne hle hne
  refine ⟨(Nat.findGreatest (Kept keep) i, Nat.find hex), ⟨hlt.trans (Nat.find_spec hex).1, hleft,
    (Nat.find_spec hex).2, fun j hj₁ hj₂ hj => ?_⟩, hlt, (Nat.find_spec hex).1⟩
  rcases Nat.lt_or_ge i j with hij | hji
  · exact Nat.find_min hex hj₂ ⟨hij, hj⟩
  · exact Nat.findGreatest_is_greatest hj₁ hji hj

/-- Two gaps around one index are the same. -/
theorem IsGap.eq_of_inside (h : IsGap keep gap) (h' : IsGap keep gap') (hi₁ : gap.1 < i) (hi₂ : i < gap.2)
    (hi₁' : gap'.1 < i) (hi₂' : i < gap'.2) : gap = gap' := by
  have hfst : gap.1 = gap'.1 := by
    rcases Nat.lt_trichotomy gap.1 gap'.1 with hlt | heq | hgt
    · exact absurd h'.left (h.between _ hlt (hi₁'.trans hi₂))
    · exact heq
    · exact absurd h.left (h'.between _ hgt (hi₁.trans hi₂'))
  have hsnd : gap.2 = gap'.2 := by
    rcases Nat.lt_trichotomy gap.2 gap'.2 with hlt | heq | hgt
    · exact absurd h.right (h'.between _ (hi₁'.trans hi₂) hlt)
    · exact heq
    · exact absurd h'.right (h.between _ (hi₁.trans hi₂') hgt)
  exact Prod.ext hfst hsnd

theorem IsGap.eq_of_left (h : IsGap keep gap) (h' : IsGap keep gap') (heq : gap.1 = gap'.1) : gap = gap' := by
  refine Prod.ext heq ?_
  rcases Nat.lt_trichotomy gap.2 gap'.2 with hlt | hsame | hgt
  · exact absurd h.right (h'.between _ (heq ▸ h.lt) hlt)
  · exact hsame
  · exact absurd h'.right (h.between _ (heq ▸ h'.lt) hgt)

theorem IsGap.eq_of_right (h : IsGap keep gap) (h' : IsGap keep gap') (heq : gap.2 = gap'.2) : gap = gap' := by
  refine Prod.ext ?_ heq
  rcases Nat.lt_trichotomy gap.1 gap'.1 with hlt | hsame | hgt
  · exact absurd h'.left (h.between _ hlt (heq ▸ h'.lt))
  · exact hsame
  · exact absurd h.left (h'.between _ hgt (heq ▸ h.lt))

/-- What is on the stack is a gap, and a gap that is not is not to be cut. -/
structure Pending (c : Cutter) (stack : List (ℕ × ℕ)) (keep : List Bool) : Prop where
  gaps : ∀ gap ∈ stack, IsGap keep gap
  nodup : stack.Nodup
  done : ∀ gap, IsGap keep gap → gap ∈ stack ∨ c.cut gap = none

theorem Pending.pop (h : Pending c (gap :: rest) keep) (hcut : c.cut gap = none) : Pending c rest keep where
  gaps g hg := h.gaps g (List.mem_cons_of_mem _ hg)
  nodup := (List.nodup_cons.mp h.nodup).2
  done g hg := by
    rcases h.done g hg with hmem | hnone
    · rcases List.mem_cons.mp hmem with rfl | hrest
      · exact .inr hcut
      · exact .inl hrest
    · exact .inr hnone

theorem Pending.cut (h : Pending c (gap :: rest) keep) (hcut : c.cut gap = some i) :
    Pending c ((i, gap.2) :: (gap.1, i) :: rest) (keep.set i true) := by
  obtain ⟨hlo, hhi⟩ := c.inside gap i hcut
  have hgap := h.gaps gap List.mem_cons_self
  have hkept : ∀ j, Kept (keep.set i true) j ↔ j = i ∨ Kept keep j := fun j =>
    kept_set (hhi.trans hgap.right.lt)
  have hnot : ¬ Kept keep i := hgap.between i hlo hhi
  have hright : IsGap (keep.set i true) (i, gap.2) := by
    refine ⟨hhi, (hkept i).mpr (.inl rfl), (hkept _).mpr (.inr hgap.right), fun j hj₁ hj₂ hj => ?_⟩
    rcases (hkept j).mp hj with rfl | hj
    · exact absurd hj₁ (lt_irrefl _)
    · exact hgap.between j (hlo.trans hj₁) hj₂ hj
  have hleft : IsGap (keep.set i true) (gap.1, i) := by
    refine ⟨hlo, (hkept _).mpr (.inr hgap.left), (hkept i).mpr (.inl rfl), fun j hj₁ hj₂ hj => ?_⟩
    rcases (hkept j).mp hj with rfl | hj
    · exact absurd hj₂ (lt_irrefl _)
    · exact hgap.between j hj₁ (hj₂.trans hhi) hj
  refine ⟨fun g hg => ?_, ?_, fun g hg => ?_⟩
  · rcases List.mem_cons.mp hg with rfl | hg
    · exact hright
    rcases List.mem_cons.mp hg with rfl | hrest
    · exact hleft
    have hold := h.gaps g (List.mem_cons_of_mem _ hrest)
    refine ⟨hold.lt, (hkept _).mpr (.inr hold.left), (hkept _).mpr (.inr hold.right), fun j hj₁ hj₂ hj => ?_⟩
    rcases (hkept j).mp hj with rfl | hj
    · rw [hold.eq_of_inside hgap hj₁ hj₂ hlo hhi] at hrest
      exact (List.nodup_cons.mp h.nodup).1 hrest
    · exact hold.between j hj₁ hj₂ hj
  · have hrest : ∀ g ∈ rest, Kept keep g.1 ∧ Kept keep g.2 := fun g hg =>
      have hold := h.gaps g (List.mem_cons_of_mem _ hg)
      ⟨hold.left, hold.right⟩
    refine List.nodup_cons.mpr ⟨fun hmem => ?_, List.nodup_cons.mpr ⟨fun hmem => hnot (hrest _ hmem).2,
      (List.nodup_cons.mp h.nodup).2⟩⟩
    rcases List.mem_cons.mp hmem with heq | hmem
    · exact absurd (congrArg Prod.fst heq) (Nat.ne_of_gt hlo)
    · exact hnot (hrest _ hmem).1
  · by_cases hfst : g.1 = i
    · rw [hg.eq_of_left hright hfst]
      exact .inl List.mem_cons_self
    by_cases hsnd : g.2 = i
    · rw [hg.eq_of_right hleft hsnd]
      exact .inl (List.mem_cons_of_mem _ List.mem_cons_self)
    have hold : IsGap keep g := by
      refine ⟨hg.lt, ((hkept _).mp hg.left).resolve_left hfst, ((hkept _).mp hg.right).resolve_left hsnd, ?_⟩
      exact fun j hj₁ hj₂ hj => hg.between j hj₁ hj₂ ((hkept j).mpr (.inr hj))
    rcases h.done g hold with hmem | hnone
    · rcases List.mem_cons.mp hmem with rfl | hmem
      · exact absurd ((hkept i).mpr (.inl rfl)) (hg.between i hlo hhi)
      · exact .inl (List.mem_cons_of_mem _ (List.mem_cons_of_mem _ hmem))
    · exact .inr hnone

/-- What the loop leaves: no gap is to be cut, and what it kept besides was a cut between kept indices. -/
structure Refined (c : Cutter) (keep keep' : List Bool) : Prop where
  length : keep'.length = keep.length
  grows : ∀ i, Kept keep i → Kept keep' i
  gaps : ∀ gap, IsGap keep' gap → c.cut gap = none
  cuts : ∀ i, Kept keep' i → Kept keep i ∨ ∃ gap, Kept keep' gap.1 ∧ Kept keep' gap.2 ∧ c.cut gap = some i

theorem refined_run (c : Cutter) (stack : List (ℕ × ℕ)) (keep : List Bool) (h : Pending c stack keep) :
    Refined c keep (run c stack keep) := by
  induction stack, keep using run.induct c with
  | case1 keep =>
    rw [run_nil]
    exact ⟨rfl, fun _ h => h, fun gap hgap => (h.done gap hgap).resolve_left List.not_mem_nil, fun _ h => .inl h⟩
  | case2 keep gap rest hcut ih =>
    rw [run_none hcut]
    exact ih (h.pop hcut)
  | case3 keep gap rest i hcut ih =>
    rw [run_some hcut]
    have hgap := h.gaps gap List.mem_cons_self
    have hrefined := ih (h.cut hcut)
    have hkept : ∀ j, Kept (keep.set i true) j ↔ j = i ∨ Kept keep j := fun j =>
      kept_set ((c.inside gap i hcut).2.trans hgap.right.lt)
    have hgrows : ∀ j, Kept keep j → Kept (run c ((i, gap.2) :: (gap.1, i) :: rest) (keep.set i true)) j :=
      fun j hj => hrefined.grows j ((hkept j).mpr (.inr hj))
    refine ⟨hrefined.length.trans (List.length_set ..), hgrows, hrefined.gaps, fun j hj => ?_⟩
    rcases hrefined.cuts j hj with hset | hcause
    · rcases (hkept j).mp hset with rfl | hold
      · exact .inr ⟨gap, hgrows _ hgap.left, hgrows _ hgap.right, hcut⟩
      · exact .inl hold
    · exact .inr hcause

end Refinement
