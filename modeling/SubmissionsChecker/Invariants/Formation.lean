import SubmissionsChecker.Services.SquadFormation
import SubmissionsChecker.Effects.Steps

/-! What forming squads keeps: one squad a student, no invitation to a locked squad, and nobody
left alone in a squad. Closing invitations and deleting the squads they leave empty is one kind
of change, which all the requests are put together from. -/

namespace SubmissionsChecker

/-- What holds of the squads whatever is accepted or refused. -/
structure Db.Formed (db : Db) : Prop where
  oneSquad : ∀ (q q' : ℕ) s s' t, db.squads[q]? = some s → db.squads[q']? = some s' →
    s.subjectId = s'.subjectId → t ∈ s.members → t ∈ s'.members → q = q'
  settled : ∀ (q : ℕ) s, db.squads[q]? = some s → s.lockedAt.isSome = true → db.hasPending q = false
  invited : ∀ inv ∈ db.squadInvites, inv.isPending = true → ∃ s, db.squads[inv.squadId]? = some s ∧ s.members ≠ []

/-- Outside `Q` a member of an unlocked squad is not alone in it, or has somebody invited. -/
def Db.NobodyAloneBut (db : Db) (Q : List ℕ) : Prop :=
  ∀ (q : ℕ) s, db.squads[q]? = some s → s.lockedAt = none → s.members.length = 1 → q ∉ Q → db.hasPending q = true

/-- Invitations are closed and squads left empty are deleted. -/
structure Db.Prunes (db db' : Db) : Prop where
  rest : db' = { db with squads := db'.squads, squadInvites := db'.squadInvites }
  squads : ∀ (q : ℕ) s', db'.squads[q]? = some s' → ∃ s, db.squads[q]? = some s ∧ s'.subjectId = s.subjectId ∧
    s'.lockedAt = s.lockedAt ∧ (s'.members = s.members ∨
      s'.members = [] ∧ s.members.length ≤ 1 ∧ s.lockedAt = none ∧ db'.hasPending q = false)
  kept : ∀ (q : ℕ) s, db.squads[q]? = some s → ∃ s', db'.squads[q]? = some s'
  invites : ∀ (i : ℕ) inv', db'.squadInvites[i]? = some inv' →
    ∃ inv, db.squadInvites[i]? = some inv ∧ (inv' = inv ∨ inv' = inv.close)

section

variable {db db₁ db' : Db} {q subjectId t : ℕ} {Q ids : List ℕ}

theorem hasPending_iff : db.hasPending q = true ↔
    ∃ (i : ℕ) (inv : SquadInvite), db.squadInvites[i]? = some inv ∧ inv.squadId = q ∧ inv.isPending = true := by
  simp only [Db.hasPending, List.any_eq_true, Bool.and_eq_true, beq_iff_eq]
  constructor
  · rintro ⟨inv, hinv, hq, hp⟩
    obtain ⟨i, hi⟩ := List.mem_iff_getElem?.mp hinv
    exact ⟨i, inv, hi, hq, hp⟩
  · rintro ⟨i, inv, hi, hq, hp⟩
    exact ⟨inv, List.mem_of_getElem? hi, hq, hp⟩

theorem closeInvites_get {i : ℕ} : (db.closeInvites ids).squadInvites[i]? =
    (db.squadInvites[i]?).map fun inv => if i ∈ ids then inv.close else inv := by
  simp [Db.closeInvites, List.getElem?_mapIdx]

theorem hasPending_closeInvites : (db.closeInvites ids).hasPending q = true ↔
    ∃ (i : ℕ) (inv : SquadInvite), db.squadInvites[i]? = some inv ∧ i ∉ ids ∧ inv.squadId = q ∧ inv.isPending = true := by
  rw [hasPending_iff]
  constructor
  · rintro ⟨i, inv', hi, hq, hp⟩
    rw [closeInvites_get] at hi
    obtain ⟨inv, hinv, rfl⟩ := Option.map_eq_some_iff.mp hi
    by_cases hmem : i ∈ ids
    · rw [if_pos hmem] at hp
      cases hp
    · rw [if_neg hmem] at hq hp
      exact ⟨i, inv, hinv, hmem, hq, hp⟩
  · rintro ⟨i, inv, hi, hmem, hq, hp⟩
    exact ⟨i, inv, by rw [closeInvites_get, hi, Option.map_some, if_neg hmem], hq, hp⟩

/-! Pruning -/

namespace Db.Prunes

theorem refl (db : Db) : db.Prunes db :=
  ⟨rfl, fun _ s h => ⟨s, h, rfl, rfl, .inl rfl⟩, fun _ s h => ⟨s, h⟩, fun _ inv h => ⟨inv, h, .inl rfl⟩⟩

theorem pending (h : db.Prunes db') (hp : db'.hasPending q = true) : db.hasPending q = true := by
  obtain ⟨i, inv', hi, hq, hp⟩ := hasPending_iff.mp hp
  obtain ⟨inv, hinv, rfl | rfl⟩ := h.invites i inv' hi
  · exact hasPending_iff.mpr ⟨i, inv', hinv, hq, hp⟩
  · cases hp

theorem noPending (h : db.Prunes db') (hp : db.hasPending q = false) : db'.hasPending q = false := by
  rw [← Bool.not_eq_true] at hp ⊢
  exact fun hp' => hp (h.pending hp')

theorem trans (h₁ : db.Prunes db₁) (h₂ : db₁.Prunes db') : db.Prunes db' where
  rest := by rw [h₂.rest, h₁.rest]
  squads q s' hs' := by
    obtain ⟨s₁, hs₁, hsubject₁, hlock₁, hm₁⟩ := h₂.squads q s' hs'
    obtain ⟨s, hs, hsubject, hlock, hm⟩ := h₁.squads q s₁ hs₁
    refine ⟨s, hs, hsubject₁.trans hsubject, hlock₁.trans hlock, ?_⟩
    rcases hm with hm | ⟨hm, hone, hopen, hnone⟩
    · rw [hm, hlock] at hm₁
      exact hm₁
    · right
      refine ⟨?_, hone, hopen, h₂.noPending hnone⟩
      rcases hm₁ with hm₁ | ⟨hm₁, -⟩
      · exact hm₁.trans hm
      · exact hm₁
  kept q s hs := by
    obtain ⟨s₁, hs₁⟩ := h₁.kept q s hs
    exact h₂.kept q s₁ hs₁
  invites i inv' hi := by
    obtain ⟨inv₁, hinv₁, h₂⟩ := h₂.invites i inv' hi
    obtain ⟨inv, hinv, h₁⟩ := h₁.invites i inv₁ hinv₁
    refine ⟨inv, hinv, ?_⟩
    rcases h₂ with rfl | rfl
    · exact h₁
    · rcases h₁ with rfl | rfl <;> exact .inr rfl

theorem formed (h : db.Prunes db') (ok : db.Formed) : db'.Formed where
  oneSquad q q' s₁ s₁' t hs₁ hs₁' hsubject ht ht' := by
    obtain ⟨s, hs, hx, -, hm⟩ := h.squads q s₁ hs₁
    obtain ⟨s', hs', hx', -, hm'⟩ := h.squads q' s₁' hs₁'
    have hmem : ∀ {l l' : List ℕ} {P : Prop}, t ∈ l' → (l' = l ∨ l' = [] ∧ P) → t ∈ l := by
      rintro l l' P ht (rfl | ⟨rfl, -⟩)
      · exact ht
      · cases ht
    exact ok.oneSquad q q' s s' t hs hs' (by rw [← hx, ← hx', hsubject]) (hmem ht hm) (hmem ht' hm')
  settled q s' hs' hl := by
    obtain ⟨s, hs, -, hlock, -⟩ := h.squads q s' hs'
    exact h.noPending (ok.settled q s hs (hlock ▸ hl))
  invited inv' hinv' hp := by
    obtain ⟨i, hi⟩ := List.mem_iff_getElem?.mp hinv'
    obtain ⟨inv, hinv, rfl | rfl⟩ := h.invites i inv' hi
    · obtain ⟨s, hs, hm⟩ := ok.invited inv' (List.mem_of_getElem? hinv) hp
      obtain ⟨s', hs'⟩ := h.kept _ s hs
      refine ⟨s', hs', ?_⟩
      obtain ⟨s₀, hs₀, -, -, hm' | ⟨-, -, -, hnone⟩⟩ := h.squads _ s' hs'
      · rw [hs, Option.some_inj] at hs₀
        rw [hm', ← hs₀]
        exact hm
      · rw [hasPending_iff.mpr ⟨i, inv', hi, rfl, hp⟩] at hnone
        cases hnone
    · cases hp

/-- A squad with more than one member is not touched, nor is a locked one. -/
theorem members (h : db.Prunes db') {s : Squad} (hs : db.squads[q]? = some s)
    (hmany : 1 < s.members.length ∨ s.lockedAt.isSome = true) : db'.squads[q]? = some s := by
  obtain ⟨s', hs'⟩ := h.kept q s hs
  obtain ⟨s₀, hs₀, hsubject, hlock, hm⟩ := h.squads q s' hs'
  rw [hs, Option.some_inj] at hs₀
  subst hs₀
  rw [hs']
  rcases hm with hm | ⟨-, hone, hopen, -⟩
  · obtain ⟨x, m, l⟩ := s
    obtain ⟨x', m', l'⟩ := s'
    simp only at hsubject hlock hm
    rw [hsubject, hlock, hm]
  · rcases hmany with hmany | hmany
    · omega
    · rw [hopen] at hmany
      cases hmany

end Db.Prunes

theorem prunes_closeInvites (db : Db) (ids : List ℕ) : db.Prunes (db.closeInvites ids) where
  rest := rfl
  squads q s hs := ⟨s, hs, rfl, rfl, .inl rfl⟩
  kept q s hs := ⟨s, hs⟩
  invites i inv' hi := by
    rw [closeInvites_get] at hi
    obtain ⟨inv, hinv, rfl⟩ := Option.map_eq_some_iff.mp hi
    refine ⟨inv, hinv, ?_⟩
    split_ifs
    · exact .inr rfl
    · exact .inl rfl

theorem prunes_deleteIfEmpty (db : Db) (q : ℕ) : db.Prunes (db.deleteIfEmpty q) where
  rest := rfl
  squads q' s' hs' := by
    obtain ⟨s, hs, rfl⟩ := Table.getElem?_modify_some hs'
    by_cases hq : q = q'
    · subst hq
      rw [if_pos rfl]
      split_ifs with hcond
      · exact ⟨s, hs, rfl, rfl, .inr ⟨rfl, hcond.1, hcond.2.2, hcond.2.1⟩⟩
      · exact ⟨s, hs, rfl, rfl, .inl rfl⟩
    · rw [if_neg hq]
      exact ⟨s, hs, rfl, rfl, .inl rfl⟩
  kept q' s hs := by simp [Db.deleteIfEmpty, List.getElem?_modify, hs]
  invites i inv hi := ⟨inv, hi, .inl rfl⟩

theorem prunes_foldl {α : Type*} {f : Db → α → Db} (hf : ∀ (db : Db) (a : α), db.Prunes (f db a)) (db : Db) (l : List α) :
    db.Prunes (l.foldl f db) := by
  induction l generalizing db with
  | nil => exact .refl db
  | cons a l ih => exact (hf db a).trans (ih (f db a))

theorem prunes_cancelPendingOf (db : Db) (subjectId t : ℕ) (exclude : Option ℕ) :
    db.Prunes (db.cancelPendingOf subjectId t exclude) :=
  (prunes_closeInvites db _).trans (prunes_foldl prunes_deleteIfEmpty _ _)

/-! Who is left alone -/

theorem nobodyAlone_closeInvites (h : db.NobodyAloneBut Q) (hids : ∀ i ∈ ids, ∀ inv, db.squadInvites[i]? = some inv →
    inv.squadId ∈ Q) : (db.closeInvites ids).NobodyAloneBut Q := by
  intro q s hs hopen hone hq
  obtain ⟨i, inv, hi, rfl, hp⟩ := hasPending_iff.mp (h q s hs hopen hone hq)
  exact hasPending_closeInvites.mpr ⟨i, inv, hi, fun hmem => hq (hids i hmem inv hi), rfl, hp⟩

theorem Db.NobodyAloneBut.mono {Q' : List ℕ} (h : db.NobodyAloneBut Q) (hsub : Q ⊆ Q') : db.NobodyAloneBut Q' :=
  fun q s hs hopen hone hq => h q s hs hopen hone fun hmem => hq (hsub hmem)

/-- The squad that was excepted is judged. -/
theorem nobodyAlone_deleteIfEmpty (h : db.NobodyAloneBut (q :: Q)) : (db.deleteIfEmpty q).NobodyAloneBut Q := by
  intro q' s' hs' hopen hone hq'
  change db.hasPending q' = true
  obtain ⟨s, hs, rfl⟩ := Table.getElem?_modify_some hs'
  by_cases hqq : q = q'
  · subst hqq
    rw [if_pos rfl] at hopen hone
    by_cases hcond : s.members.length ≤ 1 ∧ db.hasPending q = false ∧ s.lockedAt = none
    · rw [if_pos hcond] at hone
      cases hone
    · rw [if_neg hcond] at hone hopen
      by_contra hno
      rw [Bool.not_eq_true] at hno
      exact hcond ⟨hone.le, hno, hopen⟩
  · rw [if_neg hqq] at hopen hone
    apply h q' s hs hopen hone
    simp [hq', Ne.symm hqq]

theorem nobodyAlone_foldl (h : db.NobodyAloneBut (ids ++ Q)) : (ids.foldl Db.deleteIfEmpty db).NobodyAloneBut Q := by
  induction ids generalizing db with
  | nil => exact h
  | cons q ids ih => exact ih (nobodyAlone_deleteIfEmpty h)

/-- Only the squad of the excluded invitation is left to its caller. -/
theorem nobodyAlone_cancelPendingOf {exclude : Option ℕ} (h : db.NobodyAloneBut Q)
    (hexclude : ∀ i inv, exclude = some i → db.squadInvites[i]? = some inv → inv.squadId ∈ Q) :
    (db.cancelPendingOf subjectId t exclude).NobodyAloneBut Q := by
  unfold Db.cancelPendingOf
  apply nobodyAlone_foldl
  refine nobodyAlone_closeInvites (h.mono (List.subset_append_right _ _)) fun i hi inv hinv => ?_
  rw [List.mem_append, List.mem_filter, List.mem_filterMap]
  by_cases hex : exclude.bind (fun i : ℕ => (db.squadInvites[i]?).map (·.squadId)) = some inv.squadId
  · right
    obtain ⟨j, hj, hinvj⟩ := Option.bind_eq_some_iff.mp hex
    obtain ⟨invj, hj', heq⟩ := Option.map_eq_some_iff.mp hinvj
    rw [← heq]
    exact hexclude j invj hj hj'
  · left
    refine ⟨⟨i, hi, by rw [hinv, Option.map_some]⟩, ?_⟩
    simpa using Ne.symm hex

/-! Joining and locking -/

theorem not_mem_of_squadOf_none {s : Squad} (h : db.squadOf s.subjectId t = none) (hs : db.squads[q]? = some s) :
    t ∉ s.members := by
  intro ht
  have hno := Table.findId_none h s (List.mem_of_getElem? hs)
  simp [ht] at hno

/-- A change of the squads that keeps the invitations and lets only students of no squad join. -/
theorem Db.Formed.joins (ok : db.Formed) (hinvites : db'.squadInvites = db.squadInvites)
    (hsquads : ∀ (q : ℕ) s', db'.squads[q]? = some s' →
      (s'.lockedAt.isSome = true → db.hasPending q = false) ∧
      ∀ t ∈ s'.members, db.squadOf s'.subjectId t = none ∨
        ∃ s, db.squads[q]? = some s ∧ s.subjectId = s'.subjectId ∧ t ∈ s.members)
    (hone : ∀ (q q' : ℕ) s s' t, db'.squads[q]? = some s → db'.squads[q']? = some s' → s.subjectId = s'.subjectId →
      t ∈ s.members → t ∈ s'.members → db.squadOf s.subjectId t = none → q = q')
    (hkept : ∀ (q : ℕ) s, db.squads[q]? = some s → s.members ≠ [] → ∃ s', db'.squads[q]? = some s' ∧ s'.members ≠ []) :
    db'.Formed where
  oneSquad q q' s₁ s₁' t hs₁ hs₁' hsubject ht ht' := by
    rcases (hsquads q s₁ hs₁).2 t ht with hnone | ⟨s, hs, hx, hm⟩
    · exact hone q q' s₁ s₁' t hs₁ hs₁' hsubject ht ht' hnone
    rcases (hsquads q' s₁' hs₁').2 t ht' with hnone | ⟨s', hs', hx', hm'⟩
    · exact (hone q' q s₁' s₁ t hs₁' hs₁ hsubject.symm ht' ht hnone).symm
    · exact ok.oneSquad q q' s s' t hs hs' (by rw [hx, hx', hsubject]) hm hm'
  settled q s' hs' hl := by
    unfold Db.hasPending
    rw [hinvites]
    exact (hsquads q s' hs').1 hl
  invited inv hinv hp := by
    rw [hinvites] at hinv
    obtain ⟨s, hs, hm⟩ := ok.invited inv hinv hp
    exact hkept _ s hs hm

theorem formed_addMember (ok : db.Formed) {s : Squad} (hs : db.squads[q]? = some s)
    (hfree : db.squadOf s.subjectId t = none) : (db.addMember q t).Formed := by
  have hget : ∀ {j : ℕ} {s₁ : Squad}, (db.addMember q t).squads[j]? = some s₁ → ∃ s₀, db.squads[j]? = some s₀ ∧
      s₁ = if q = j then { s₀ with members := s₀.members ++ [t] } else s₀ := fun h => Table.getElem?_modify_some h
  have hjoined : ∀ {j : ℕ} {s₁ : Squad} {u : ℕ}, (db.addMember q t).squads[j]? = some s₁ → u ∈ s₁.members →
      (∃ s₀, db.squads[j]? = some s₀ ∧ s₀.subjectId = s₁.subjectId ∧ u ∈ s₀.members) ∨
        j = q ∧ u = t ∧ s₁.subjectId = s.subjectId := by
    intro j s₁ u hs₁ hu
    obtain ⟨s₀, hs₀, rfl⟩ := hget hs₁
    split_ifs at hu ⊢ with hj
    · subst hj
      rw [hs, Option.some_inj] at hs₀
      subst hs₀
      rw [List.mem_append, List.mem_singleton] at hu
      rcases hu with hu | hu
      · exact .inl ⟨s, hs, rfl, hu⟩
      · exact .inr ⟨rfl, hu, rfl⟩
    · exact .inl ⟨s₀, hs₀, rfl, hu⟩
  have hinvites : (db.addMember q t).squadInvites = db.squadInvites := rfl
  apply ok.joins hinvites
  · intro j s₁ hs₁
    constructor
    · intro hl
      obtain ⟨s₀, hs₀, rfl⟩ := hget hs₁
      refine ok.settled j s₀ hs₀ ?_
      split_ifs at hl <;> exact hl
    · intro u hu
      rcases hjoined hs₁ hu with hold | ⟨-, rfl, hx⟩
      · exact .inr hold
      · left
        rw [hx]
        exact hfree
  · intro j j' s₁ s₁' u hs₁ hs₁' hsubject hu hu' hnone
    have hq : ∀ {k : ℕ} {s₂ : Squad}, (db.addMember q t).squads[k]? = some s₂ → s₂.subjectId = s₁.subjectId →
        u ∈ s₂.members → k = q := by
      intro k s₂ hs₂ hx hu₂
      rcases hjoined hs₂ hu₂ with ⟨s₀, hs₀, hx₀, hm⟩ | ⟨hk, -⟩
      · rw [← hx, ← hx₀] at hnone
        exact absurd hm (not_mem_of_squadOf_none hnone hs₀)
      · exact hk
    rw [hq hs₁ rfl hu, hq hs₁' hsubject.symm hu']
  · intro j s₀ hs₀ hm
    refine ⟨if q = j then { s₀ with members := s₀.members ++ [t] } else s₀, ?_, ?_⟩
    · rw [Db.addMember, List.getElem?_modify, hs₀]
      split_ifs <;> rfl
    · split_ifs
      · simp
      · exact hm

theorem formed_addSquad (ok : db.Formed) {s : Squad} (hfree : ∀ t ∈ s.members, db.squadOf s.subjectId t = none) :
    ({ db with squads := db.squads ++ [s] } : Db).Formed := by
  have hinvites : ({ db with squads := db.squads ++ [s] } : Db).squadInvites = db.squadInvites := rfl
  apply ok.joins hinvites
  · intro j s₁ hs₁
    rcases Table.getElem?_concat_some hs₁ with hold | ⟨rfl, rfl⟩
    · exact ⟨ok.settled j s₁ hold, fun u hu => .inr ⟨s₁, hold, rfl, hu⟩⟩
    · refine ⟨fun _ => ?_, fun u hu => .inl (hfree u hu)⟩
      by_contra hp
      rw [Bool.not_eq_false] at hp
      obtain ⟨i, inv, hi, hq, hp⟩ := hasPending_iff.mp hp
      obtain ⟨s₀, hs₀, -⟩ := ok.invited inv (List.mem_of_getElem? hi) hp
      rw [hq, List.getElem?_eq_none le_rfl] at hs₀
      cases hs₀
  · intro j j' s₁ s₁' u hs₁ hs₁' hsubject hu hu' hnone
    have hnew : ∀ {k : ℕ} {s₂ : Squad}, (db.squads ++ [s])[k]? = some s₂ → s₂.subjectId = s₁.subjectId →
        u ∈ s₂.members → k = db.squads.length := by
      intro k s₂ hs₂ hx hu₂
      rcases Table.getElem?_concat_some hs₂ with hold | ⟨hk, -⟩
      · rw [← hx] at hnone
        exact absurd hu₂ (not_mem_of_squadOf_none hnone hold)
      · exact hk
    rw [hnew hs₁ rfl hu, hnew hs₁' hsubject.symm hu']
  · intro j s₀ hs₀ hm
    exact ⟨s₀, Table.getElem?_append_old hs₀, hm⟩

theorem lockOnSubmit_get {j : ℕ} {s₁ : Squad} (hs₁ : (db.lockOnSubmit q).squads[j]? = some s₁) :
    ∃ s₀, db.squads[j]? = some s₀ ∧ s₁.subjectId = s₀.subjectId ∧
      s₁.members = s₀.members ∧ (s₁.lockedAt.isSome = true → s₀.lockedAt.isSome = true ∨ j = q) ∧
      (s₁.lockedAt = none → s₀.lockedAt = none ∧ j ≠ q) := by
  obtain ⟨s₀, hs₀, rfl⟩ := Table.getElem?_modify_some hs₁
  refine ⟨s₀, hs₀, ?_⟩
  by_cases hj : q = j
  · subst hj
    cases hlock : s₀.lockedAt <;> simp [hlock]
  · simp [hj, Ne.symm hj]

theorem formed_lockOnSubmit (ok : db.Formed) (hnone : db.hasPending q = false) :
    (db.lockOnSubmit q).Formed where
  oneSquad j j' s₁ s₁' u hs₁ hs₁' hsubject hu hu' := by
    obtain ⟨s₀, hs₀, hx, hm, -⟩ := lockOnSubmit_get hs₁
    obtain ⟨s₀', hs₀', hx', hm', -⟩ := lockOnSubmit_get hs₁'
    exact ok.oneSquad j j' s₀ s₀' u hs₀ hs₀' (by rw [← hx, ← hx', hsubject]) (hm ▸ hu) (hm' ▸ hu')
  settled j s₁ hs₁ hl := by
    change db.hasPending j = false
    obtain ⟨s₀, hs₀, -, -, hlock, -⟩ := lockOnSubmit_get hs₁
    rcases hlock hl with hl | rfl
    · exact ok.settled j s₀ hs₀ hl
    · exact hnone
  invited inv hinv hp := by
    obtain ⟨s₀, hs₀, hm⟩ := ok.invited inv hinv hp
    have hr := (evolves_lockOnSubmit db q).squad inv.squadId
    rw [hs₀, Option.map_some] at hr
    obtain ⟨s₁, hs₁, heq⟩ := Option.map_eq_some_iff.mp hr
    exact ⟨s₁, hs₁, by rw [show s₁.members = s₀.members from congrArg Prod.snd heq]; exact hm⟩

end

end SubmissionsChecker
