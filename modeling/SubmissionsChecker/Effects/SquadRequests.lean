import SubmissionsChecker.Invariants.Formation
import SubmissionsChecker.Portal

/-! One squad request, said once: what it commits, and that it keeps the invariant of formation. -/

namespace SubmissionsChecker

/-- The squad of `s` with a further member. -/
def Squad.join (s : Squad) (t : ℕ) : Squad := { s with members := s.members ++ [t] }

/-- What a squad request commits. -/
inductive SquadDone (isTest : ℕ → Bool) (db : Db) : SquadOp → Db → Prop
  | same (op) : SquadDone isTest db op db
  | created {x c invitees size} (hsize : db.maxSize x = some size) (hlen : invitees.length + 1 ≤ size)
      (hsome : invitees ≠ []) (hfree : db.squadOf x c = none) :
      SquadDone isTest db (.create x c invitees)
        (db.addCreated x c invitees)
  | refused {x t i inv s reason} (hanswers : db.answersInvite x t i = true) (hload : db.loadInvite i = .ok (inv, s))
      (ht : inv.invitedStudentId = t) (hrefuse : db.acceptRefusal isTest s t = some reason) :
      SquadDone isTest db (.accept x t i) (db.closeInvites [i])
  | joined {x t i inv s} (hload : db.loadInvite i = .ok (inv, s)) (hok : db.acceptRefusal isTest s t = none)
      (hroom : s.members.length + 1 < (db.maxSize s.subjectId).getD 0) :
      SquadDone isTest db (.accept x t i) (db.joined inv.squadId s.subjectId t i)
  | filled {x t i inv s} (hload : db.loadInvite i = .ok (inv, s)) (hok : db.acceptRefusal isTest s t = none)
      (hfull : (db.maxSize s.subjectId).getD 0 ≤ s.members.length + 1) :
      SquadDone isTest db (.accept x t i) ((db.joined inv.squadId s.subjectId t i).lockFull inv.squadId)
  | closed {op i inv s} (hload : db.loadInvite i = .ok (inv, s)) :
      SquadDone isTest db op ((db.closeInvites [i]).deleteIfEmpty inv.squadId)
  | assigned {x students size} (hsize : db.maxSize x = some size) (hlen : students.length ≤ size)
      (hfree : ∀ t ∈ students, db.squadOf x t = none) (hnodup : students.Nodup) :
      SquadDone isTest db (.assign x students) (db.addAssigned x students)

section

variable {isTest : ℕ → Bool} {db db' : Db} {op : SquadOp}

theorem eligible_free {x t : ℕ} (h : db.eligibility isTest x t = none) : db.squadOf x t = none := by
  unfold Db.eligibility at h
  split_ifs at h with _ _ _ hsquad
  simpa using hsquad

theorem requireEligible_none {x : ℕ} {ids : List ℕ} (h : db.requireEligible isTest x ids = none) :
    ∀ t ∈ ids, db.squadOf x t = none := by
  intro t ht
  exact eligible_free (List.findSome?_eq_none_iff.mp h t ht)

theorem loadInvite_ok {i : ℕ} {inv : SquadInvite} {s : Squad} (h : db.loadInvite i = .ok (inv, s)) :
    db.squadInvites[i]? = some inv ∧ db.squads[inv.squadId]? = some s ∧ inv.isPending = true := by
  unfold Db.loadInvite at h
  split at h
  · cases h
  · rename_i found hfound
    split_ifs at h with hp
    cases h
    obtain ⟨inv', hinv, hs⟩ := Option.bind_eq_some_iff.mp hfound
    obtain ⟨s', hs', heq⟩ := Option.map_eq_some_iff.mp hs
    cases heq
    exact ⟨hinv, hs', hp⟩

/-- A join is allowed to a student of no squad, while the squad is open and has room. -/
theorem acceptRefusal_none {s : Squad} {t : ℕ} (h : db.acceptRefusal isTest s t = none) :
    db.squadOf s.subjectId t = none ∧ s.lockedAt = none ∧ s.members.length < (db.maxSize s.subjectId).getD 0 := by
  unfold Db.acceptRefusal at h
  rw [Option.or_eq_none_iff] at h
  obtain ⟨heligible, h⟩ := h
  split_ifs at h with hlocked hfull
  exact ⟨eligible_free heligible, by simpa using hlocked, by omega⟩

theorem squadStep_spec (isTest : ℕ → Bool) (db : Db) (op : SquadOp) :
    SquadDone isTest db op (db.squadStep isTest op) := by
  cases op with
  | create x c invitees =>
    unfold Db.squadStep
    dsimp only
    split_ifs
    · unfold Db.createWithInvites
      split
      · exact .same _
      · rename_i size hsize
        by_cases hdup : invitees.Nodup
        · rw [if_neg (not_not.mpr hdup)]
          split_ifs with hself hnone hmany
          · exact .same _
          · exact .same _
          · exact .same _
          · split
            · exact .same _
            · rename_i hfree
              have hpos : 0 < invitees.length := List.length_pos_iff.mpr hnone
              exact .created hsize (by omega) hnone (requireEligible_none hfree c List.mem_cons_self)
        · rw [if_pos hdup]
          exact .same _
    · exact .same _
  | accept x t i =>
    unfold Db.squadStep
    dsimp only
    split_ifs with hanswers
    · unfold Db.acceptInvite
      split
      · exact .same _
      · rename_i inv s hload
        split_ifs with ht hfull
        · exact .same _
        · split
          · rename_i reason hrefuse
            exact .refused hanswers hload (not_not.mp ht) hrefuse
          · rename_i hok
            exact .filled hload hok hfull
        · split
          · rename_i reason hrefuse
            exact .refused hanswers hload (not_not.mp ht) hrefuse
          · rename_i hok
            exact .joined hload hok (by omega)
    · exact .same _
  | decline x t i =>
    unfold Db.squadStep
    dsimp only
    split_ifs
    · unfold Db.declineInvite
      split
      · exact .same _
      · rename_i inv s hload
        split_ifs
        · exact .same _
        · exact .closed hload
    · exact .same _
  | cancel x t i =>
    unfold Db.squadStep
    dsimp only
    split_ifs
    · unfold Db.cancelInvite
      split
      · exact .same _
      · rename_i inv s hload
        split_ifs
        · exact .same _
        · exact .closed hload
    · exact .same _
  | assign x students =>
    unfold Db.squadStep
    dsimp only
    unfold Db.teacherAssign
    split
    · exact .same _
    · rename_i size hsize
      by_cases hdup : students.Nodup
      · rw [if_neg (not_not.mpr hdup)]
        split_ifs with hfew hmany
        · exact .same _
        · exact .same _
        · split
          · exact .same _
          · rename_i hfree
            exact .assigned hsize (by omega) (requireEligible_none hfree) hdup
      · rw [if_pos hdup]
        exact .same _

/-! An accepted invitation -/

theorem joined_prunes (db : Db) (q x t i : ℕ) : (db.addMember q t).Prunes (db.joined q x t i) :=
  (prunes_cancelPendingOf _ x t _).trans (prunes_closeInvites _ _)

section

variable {i t : ℕ} {inv : SquadInvite} {s : Squad}

@[simp] theorem join_length (s : Squad) (t : ℕ) : (s.join t).members.length = s.members.length + 1 := by
  simp [Squad.join]

theorem addMember_squad (hs : db.squads[inv.squadId]? = some s) :
    (db.addMember inv.squadId t).squads[inv.squadId]? = some (s.join t) := by
  rw [Db.addMember, Table.getElem?_modify_self, hs]
  rfl

theorem addMember_squad_ne {q j : ℕ} (h : q ≠ j) : (db.addMember q t).squads[j]? = db.squads[j]? :=
  Table.getElem?_modify_ne _ h

/-- The squad that is joined has somebody already. -/
theorem loadInvite_members (ok : db.Formed) (hload : db.loadInvite i = .ok (inv, s)) : 0 < s.members.length := by
  obtain ⟨hinv, hs, hp⟩ := loadInvite_ok hload
  obtain ⟨s', hs', hm⟩ := ok.invited inv (List.mem_of_getElem? hinv) hp
  rw [hs, Option.some_inj] at hs'
  rw [hs']
  exact List.length_pos_iff.mpr hm

theorem joined_squad (ok : db.Formed) (hload : db.loadInvite i = .ok (inv, s)) :
    (db.joined inv.squadId s.subjectId t i).squads[inv.squadId]? = some (s.join t) := by
  obtain ⟨-, hs, -⟩ := loadInvite_ok hload
  have hpos := loadInvite_members ok hload
  refine (joined_prunes db _ _ t i).members (addMember_squad hs) (.inl ?_)
  rw [join_length]
  omega

theorem joined_formed (ok : db.Formed) (hload : db.loadInvite i = .ok (inv, s))
    (hok : db.acceptRefusal isTest s t = none) : (db.joined inv.squadId s.subjectId t i).Formed := by
  obtain ⟨-, hs, -⟩ := loadInvite_ok hload
  exact (joined_prunes db _ _ t i).formed (formed_addMember ok hs (acceptRefusal_none hok).1)

/-- The sweep spares the squad that is joined, which has two members by then. -/
theorem joined_nobodyAlone (ok : db.Formed) (h : db.NobodyAloneBut []) (hload : db.loadInvite i = .ok (inv, s)) :
    (db.joined inv.squadId s.subjectId t i).NobodyAloneBut [] := by
  obtain ⟨hinv, hs, -⟩ := loadInvite_ok hload
  have hadd : (db.addMember inv.squadId t).NobodyAloneBut [inv.squadId] := by
    intro q s' hs' hopen hone hq
    rw [List.mem_singleton] at hq
    rw [addMember_squad_ne (Ne.symm hq)] at hs'
    exact h q s' hs' hopen hone List.not_mem_nil
  have hswept : ((db.addMember inv.squadId t).cancelPendingOf s.subjectId t (some i)).NobodyAloneBut [inv.squadId] := by
    apply nobodyAlone_cancelPendingOf hadd
    intro j invj hj hinvj
    cases hj
    change db.squadInvites[i]? = some invj at hinvj
    rw [hinv, Option.some_inj] at hinvj
    rw [← hinvj]
    exact List.mem_singleton_self _
  have hclosed : (db.joined inv.squadId s.subjectId t i).NobodyAloneBut [inv.squadId] := by
    refine nobodyAlone_closeInvites hswept fun j hj invj hinvj => ?_
    rw [List.mem_singleton.mp hj] at hinvj
    obtain ⟨inv₀, hinv₀, heq⟩ := (prunes_cancelPendingOf (db.addMember inv.squadId t) s.subjectId t (some i)).invites i
      invj hinvj
    change db.squadInvites[i]? = some inv₀ at hinv₀
    rw [hinv, Option.some_inj] at hinv₀
    subst hinv₀
    rcases heq with rfl | rfl <;> exact List.mem_singleton_self _
  intro q s' hs' hopen hone _
  by_cases hq : q = inv.squadId
  · subst hq
    rw [joined_squad ok hload, Option.some_inj] at hs'
    have hpos := loadInvite_members ok hload
    rw [← hs', join_length] at hone
    omega
  · exact hclosed q s' hs' hopen hone (by simpa using hq)

end

theorem nobodyAlone_cancelAll (x : ℕ) (students : List ℕ) (h : db.NobodyAloneBut []) :
    (students.foldl (fun db t => db.cancelPendingOf x t none) db).NobodyAloneBut [] := by
  induction students generalizing db with
  | nil => exact h
  | cons t students ih => exact ih (nobodyAlone_cancelPendingOf h fun i inv hi => by cases hi)

theorem lockFull_eq (db : Db) (q : ℕ) : db.lockFull q = (db.closeInvites
    (Table.idsWhere (fun inv => inv.squadId == q && inv.isPending) db.squadInvites)).lockOnSubmit q := rfl

theorem closeInvites_noPending (db : Db) (q : ℕ) :
    (db.closeInvites (Table.idsWhere (fun inv => inv.squadId == q && inv.isPending) db.squadInvites)).hasPending q = false := by
  rw [← Bool.not_eq_true]
  intro hp
  obtain ⟨j, inv, hj, hno, hq, hp⟩ := hasPending_closeInvites.mp hp
  exact hno (Table.mem_idsWhere.mpr ⟨inv, hj, by simp [hq, hp]⟩)

theorem formed_lockFull (ok : db.Formed) (q : ℕ) : (db.lockFull q).Formed := by
  rw [lockFull_eq]
  exact formed_lockOnSubmit ((prunes_closeInvites db _).formed ok) (closeInvites_noPending db q)

theorem nobodyAlone_lockOnSubmit {q : ℕ} {Q : List ℕ} (h : db.NobodyAloneBut (q :: Q)) :
    (db.lockOnSubmit q).NobodyAloneBut Q := by
  intro j s' hs' hopen hone hj
  change db.hasPending j = true
  obtain ⟨s, hs, -, hm, -, hlock⟩ := lockOnSubmit_get hs'
  obtain ⟨hopen, hne⟩ := hlock hopen
  apply h j s hs hopen (hm ▸ hone)
  simp [hne, hj]

theorem nobodyAlone_lockFull {q : ℕ} (h : db.NobodyAloneBut []) : (db.lockFull q).NobodyAloneBut [] := by
  rw [lockFull_eq]
  apply nobodyAlone_lockOnSubmit
  refine nobodyAlone_closeInvites (h.mono (List.nil_subset _)) fun j hj inv hinv => ?_
  obtain ⟨inv', hinv', hp⟩ := Table.mem_idsWhere.mp hj
  rw [hinv, Option.some_inj] at hinv'
  subst hinv'
  simp only [Bool.and_eq_true, beq_iff_eq] at hp
  rw [hp.1]
  exact List.mem_singleton_self _

/-! Every request -/

theorem SquadDone.formed (h : SquadDone isTest db op db') (ok : db.Formed) : db'.Formed := by
  cases h with
  | same => exact ok
  | @created x c invitees size hsize hlen hsome hfree =>
    have hnew : ({ db with squads := db.squads ++ [{ subjectId := x, members := [c] }] } : Db).Formed :=
      formed_addSquad ok fun t ht => by rw [List.mem_singleton.mp ht]; exact hfree
    refine ⟨hnew.oneSquad, fun q s hs hl => ?_, fun inv hinv hp => ?_⟩
    · have hno := hnew.settled q s hs hl
      rw [← Bool.not_eq_true, Db.hasPending, List.any_eq_true] at hno ⊢
      rintro ⟨inv, hinv, hp⟩
      rcases List.mem_append.mp hinv with hinv | hinv
      · exact hno ⟨inv, hinv, hp⟩
      · obtain ⟨t, -, rfl⟩ := List.mem_map.mp hinv
        simp only [Bool.and_true, beq_iff_eq] at hp
        have hlast : (db.addCreated x c invitees).squads[db.squads.length]? = some { subjectId := x, members := [c] } :=
          Table.getElem?_concat_length _ _
        rw [← hp, hlast, Option.some_inj] at hs
        rw [← hs] at hl
        cases hl
    · rcases List.mem_append.mp hinv with hinv | hinv
      · exact hnew.invited inv hinv hp
      · obtain ⟨t, -, rfl⟩ := List.mem_map.mp hinv
        exact ⟨_, Table.getElem?_concat_length _ _, List.cons_ne_nil _ _⟩
  | refused => exact (prunes_closeInvites db _).formed ok
  | joined hload hok => exact joined_formed ok hload hok
  | filled hload hok => exact formed_lockFull (joined_formed ok hload hok) _
  | closed => exact ((prunes_closeInvites db _).trans (prunes_deleteIfEmpty _ _)).formed ok
  | assigned hsize hlen hfree =>
    exact (prunes_foldl (fun db t => prunes_cancelPendingOf db _ t none) _ _).formed (formed_addSquad ok hfree)

/-- Only a refused accept can leave somebody alone. -/
theorem SquadDone.nobodyAlone (h : SquadDone isTest db op db') (ok : db.Formed) (halone : db.NobodyAloneBut [])
    (hrefused : ∀ x t i inv s reason, op = .accept x t i → db.answersInvite x t i = true →
      db.loadInvite i = .ok (inv, s) → inv.invitedStudentId = t → db.acceptRefusal isTest s t = some reason →
      s.lockedAt = none → s.members.length = 1 → (db.closeInvites [i]).hasPending inv.squadId = true) :
    db'.NobodyAloneBut [] := by
  have hclose : ∀ {i : ℕ} {inv : SquadInvite} {s : Squad}, db.loadInvite i = .ok (inv, s) →
      (db.closeInvites [i]).NobodyAloneBut [inv.squadId] := by
    intro i inv s hload
    refine nobodyAlone_closeInvites (halone.mono (List.nil_subset _)) fun j hj invj hinvj => ?_
    rw [List.mem_singleton.mp hj, (loadInvite_ok hload).1, Option.some_inj] at hinvj
    rw [← hinvj]
    exact List.mem_singleton_self _
  cases h with
  | same => exact halone
  | @created x c invitees size hsize hlen hsome hfree =>
    intro q s hs hopen hone _
    unfold Db.addCreated
    rw [Db.hasPending, List.any_append, Bool.or_eq_true]
    rcases Table.getElem?_concat_some hs with hold | ⟨rfl, -⟩
    · exact .inl (halone q s hold hopen hone List.not_mem_nil)
    · obtain ⟨t, ht⟩ := List.exists_mem_of_ne_nil _ hsome
      right
      rw [List.any_eq_true]
      exact ⟨_, List.mem_map.mpr ⟨t, ht, rfl⟩, by simp⟩
  | @refused x t i inv s reason hanswers hload ht hrefuse =>
    intro q s' hs' hopen hone _
    by_cases hq : q = inv.squadId
    · subst hq
      change db.squads[inv.squadId]? = some s' at hs'
      rw [(loadInvite_ok hload).2.1, Option.some_inj] at hs'
      subst hs'
      exact hrefused x t i inv s reason rfl hanswers hload ht hrefuse hopen hone
    · exact hclose hload q s' hs' hopen hone (by simpa using hq)
  | joined hload => exact joined_nobodyAlone ok halone hload
  | filled hload => exact nobodyAlone_lockFull (joined_nobodyAlone ok halone hload)
  | closed hload => exact nobodyAlone_deleteIfEmpty (hclose hload)
  | @assigned x students size =>
    have hadd : ({ db with squads := db.squads ++ [{ subjectId := x, members := students, lockedAt := some db.now }] } :
        Db).NobodyAloneBut [] := by
      intro q s hs hopen hone hq
      rcases Table.getElem?_concat_some hs with hold | ⟨-, rfl⟩
      · exact halone q s hold hopen hone hq
      · cases hopen
    exact nobodyAlone_cancelAll x students hadd

/-! Sizes and locks -/

/-- What a squad request may do to the squads: a locked one stays as it is, and one that grows
is within the maximum size. -/
structure Db.Regroups (db db' : Db) : Prop where
  rest : db' = { db with squads := db'.squads, squadInvites := db'.squadInvites }
  kept : ∀ (q : ℕ) s, db.squads[q]? = some s → s.lockedAt.isSome = true → db'.squads[q]? = some s
  grows : ∀ (q : ℕ) s', db'.squads[q]? = some s' → s'.members.length ≤ Portal.sizeOf db q ∨
    ∃ size, db.maxSize s'.subjectId = some size ∧ s'.members.length ≤ size

theorem sizeOf_some {q : ℕ} {s : Squad} (hs : db.squads[q]? = some s) : Portal.sizeOf db q = s.members.length := by
  rw [Portal.sizeOf, hs]
  rfl

theorem Db.Prunes.size {q : ℕ} {s' : Squad} (h : db.Prunes db') (hs' : db'.squads[q]? = some s') :
    ∃ s, db.squads[q]? = some s ∧ s'.subjectId = s.subjectId ∧ s'.members.length ≤ s.members.length := by
  obtain ⟨s, hs, hx, -, hm | ⟨hm, -⟩⟩ := h.squads q s' hs'
  · exact ⟨s, hs, hx, hm ▸ le_rfl⟩
  · exact ⟨s, hs, hx, by simp [hm]⟩

theorem Db.Prunes.regroups (h : db.Prunes db') : db.Regroups db' where
  rest := h.rest
  kept q s hs hl := h.members hs (.inr hl)
  grows q s' hs' := by
    obtain ⟨s, hs, -, hle⟩ := h.size hs'
    exact .inl (by rw [sizeOf_some hs]; exact hle)

/-- Pruning after a request only makes squads smaller. -/
theorem Db.Regroups.prunes {db₁ : Db} (h : db.Regroups db₁) (h' : db₁.Prunes db') : db.Regroups db' where
  rest := by rw [h'.rest, h.rest]
  kept q s hs hl := h'.members (h.kept q s hs hl) (.inr hl)
  grows q s' hs' := by
    obtain ⟨s, hs, hx, hle⟩ := h'.size hs'
    rw [hx]
    rcases h.grows q s hs with h | ⟨size, hsize, h⟩
    · exact .inl (hle.trans h)
    · exact .inr ⟨size, hsize, hle.trans h⟩

theorem Db.Regroups.locks {db₁ : Db} (h : db.Regroups db₁) (q : ℕ) : db.Regroups (db₁.lockOnSubmit q) where
  rest := by rw [Db.lockOnSubmit, h.rest]
  kept j s hs hl := by
    have hopen : s.lockedAt.isNone = false := by
      cases hlock : s.lockedAt with
      | none => rw [hlock] at hl; cases hl
      | some _ => rfl
    rw [Db.lockOnSubmit, List.getElem?_modify, h.kept j s hs hl]
    simp only [Option.map_eq_map, Option.map_some, hopen, Bool.false_eq_true, if_false, ite_self]
  grows j s' hs' := by
    obtain ⟨s, hs, hx, hm, -⟩ := lockOnSubmit_get hs'
    rw [hx, hm]
    exact h.grows j s hs

theorem regroups_addSquad {s : Squad} {size : ℕ} (hsize : db.maxSize s.subjectId = some size)
    (hlen : s.members.length ≤ size) (invites : List SquadInvite) :
    db.Regroups { db with squads := db.squads ++ [s], squadInvites := invites } where
  rest := rfl
  kept q s₀ hs₀ _ := Table.getElem?_append_old hs₀
  grows q s' hs' := by
    rcases Table.getElem?_concat_some hs' with hold | ⟨-, rfl⟩
    · exact .inl (sizeOf_some hold).ge
    · exact .inr ⟨size, hsize, hlen⟩

theorem regroups_joined {i t : ℕ} {inv : SquadInvite} {s : Squad} (hload : db.loadInvite i = .ok (inv, s))
    (hok : db.acceptRefusal isTest s t = none) : db.Regroups (db.joined inv.squadId s.subjectId t i) := by
  obtain ⟨-, hs, -⟩ := loadInvite_ok hload
  obtain ⟨-, hopen, hroom⟩ := acceptRefusal_none hok
  have hadd : db.Regroups (db.addMember inv.squadId t) := by
    refine ⟨rfl, fun q s₀ hs₀ hl => ?_, fun q s' hs' => ?_⟩ <;> by_cases hq : inv.squadId = q
    · subst hq
      rw [hs, Option.some_inj] at hs₀
      rw [← hs₀, hopen] at hl
      cases hl
    · rw [addMember_squad_ne hq, hs₀]
    · subst hq
      rw [addMember_squad hs, Option.some_inj] at hs'
      subst hs'
      cases hsize : db.maxSize s.subjectId with
      | none => simp [hsize] at hroom
      | some size =>
        rw [hsize, Option.getD_some] at hroom
        exact .inr ⟨size, hsize, by rw [join_length]; omega⟩
    · rw [addMember_squad_ne hq] at hs'
      exact .inl (sizeOf_some hs').ge
  exact hadd.prunes (joined_prunes db _ _ t i)

/-- Squads are only added, and nobody is in one twice. -/
structure Db.KeepsMembers (db db' : Db) : Prop where
  squads : db.squads.length ≤ db'.squads.length
  nodup : (∀ s ∈ db.squads, s.members.Nodup) → ∀ s ∈ db'.squads, s.members.Nodup

theorem Db.KeepsMembers.trans {db₁ : Db} (h₁ : db.KeepsMembers db₁) (h₂ : db₁.KeepsMembers db') : db.KeepsMembers db' where
  squads := h₁.squads.trans h₂.squads
  nodup := h₂.nodup ∘ h₁.nodup

theorem Db.Prunes.keepsMembers (h : db.Prunes db') : db.KeepsMembers db' where
  squads := by
    by_contra hlt
    obtain ⟨s', hs'⟩ := h.kept _ _ (List.getElem?_eq_getElem (Nat.lt_of_not_le hlt))
    exact absurd (List.getElem?_eq_some_iff.mp hs').1 (Nat.lt_irrefl _)
  nodup hall s' hs' := by
    obtain ⟨q, hq⟩ := List.mem_iff_getElem?.mp hs'
    obtain ⟨s, hs, -, -, hm | ⟨hm, -⟩⟩ := h.squads q s' hq
    · rw [hm]
      exact hall s (List.mem_of_getElem? hs)
    · rw [hm]
      exact List.nodup_nil

theorem keepsMembers_addSquad (db : Db) {s : Squad} (hs : s.members.Nodup) (invites : List SquadInvite) :
    db.KeepsMembers { db with squads := db.squads ++ [s], squadInvites := invites } where
  squads := by
    rw [List.length_append]
    exact Nat.le_add_right _ _
  nodup hall s' hs' := by
    rcases List.mem_append.mp hs' with hs' | hs'
    · exact hall s' hs'
    · rw [List.mem_singleton.mp hs']
      exact hs

theorem keepsMembers_joined {i t : ℕ} {inv : SquadInvite} {s : Squad} (hload : db.loadInvite i = .ok (inv, s))
    (hok : db.acceptRefusal isTest s t = none) : db.KeepsMembers (db.joined inv.squadId s.subjectId t i) := by
  obtain ⟨-, hs, -⟩ := loadInvite_ok hload
  have hadd : db.KeepsMembers (db.addMember inv.squadId t) := by
    refine ⟨(List.length_modify _ _ _).ge, fun hall s' hs' => ?_⟩
    obtain ⟨q, hq⟩ := List.mem_iff_getElem?.mp hs'
    obtain ⟨s₀, hs₀, rfl⟩ := Table.getElem?_modify_some hq
    have hnodup := hall s₀ (List.mem_of_getElem? hs₀)
    split_ifs with hinv
    · rw [← hinv, hs, Option.some_inj] at hs₀
      subst hs₀
      have hfree := not_mem_of_squadOf_none (acceptRefusal_none hok).1 hs
      exact hnodup.append (List.nodup_singleton t) (List.disjoint_singleton.mpr hfree)
    · exact hnodup
  exact hadd.trans (joined_prunes db _ _ t i).keepsMembers

theorem keepsMembers_lockFull (db : Db) (q : ℕ) : db.KeepsMembers (db.lockFull q) := by
  rw [lockFull_eq]
  refine (prunes_closeInvites db _).keepsMembers.trans ⟨(List.length_modify _ _ _).ge, fun hall s' hs' => ?_⟩
  obtain ⟨j, hj⟩ := List.mem_iff_getElem?.mp hs'
  obtain ⟨s, hs, -, hm, -⟩ := lockOnSubmit_get hj
  rw [hm]
  exact hall s (List.mem_of_getElem? hs)

theorem SquadDone.keepsMembers (h : SquadDone isTest db op db') : db.KeepsMembers db' := by
  cases h with
  | same => exact (Db.Prunes.refl db).keepsMembers
  | created => exact keepsMembers_addSquad db (List.nodup_singleton _) _
  | refused => exact (prunes_closeInvites db _).keepsMembers
  | joined hload hok => exact keepsMembers_joined hload hok
  | filled hload hok => exact (keepsMembers_joined hload hok).trans (keepsMembers_lockFull _ _)
  | closed => exact ((prunes_closeInvites db _).trans (prunes_deleteIfEmpty _ _)).keepsMembers
  | @assigned x students size hsize hlen hfree hnodup =>
    have hadd := keepsMembers_addSquad db (s := { subjectId := x, members := students, lockedAt := some db.now })
      hnodup db.squadInvites
    exact hadd.trans (prunes_foldl (fun db t => prunes_cancelPendingOf db x t none) _ students).keepsMembers

theorem SquadDone.regroups (h : SquadDone isTest db op db') : db.Regroups db' := by
  cases h with
  | same => exact (Db.Prunes.refl db).regroups
  | created hsize hlen hsome hfree =>
    have hpos := List.length_pos_iff.mpr hsome
    exact regroups_addSquad hsize (by simp; omega) _
  | refused => exact (prunes_closeInvites db _).regroups
  | joined hload hok => exact regroups_joined hload hok
  | filled hload hok =>
    rw [lockFull_eq]
    exact ((regroups_joined hload hok).prunes (prunes_closeInvites _ _)).locks _
  | closed => exact ((prunes_closeInvites db _).trans (prunes_deleteIfEmpty _ _)).regroups
  | assigned hsize hlen hfree =>
    exact (regroups_addSquad hsize hlen _).prunes (prunes_foldl (fun db t => prunes_cancelPendingOf db _ t none) _ _)

end

end SubmissionsChecker
