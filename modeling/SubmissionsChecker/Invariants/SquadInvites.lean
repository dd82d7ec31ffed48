import SubmissionsChecker.Services.SquadFormation

/-! What `accept_invite` leaves of each invitation and of each squad: the sweep judges a squad by the invitations as
they were flushed, and a deletion takes nothing that another squad is judged by. -/

namespace SubmissionsChecker

open UnitOfWork

namespace SquadSession

/-- Nothing is left to flush. -/
def Flushed (s : SquadSession) : Prop := s.invites.stored = s.invites.current

/-- An invitation, as it is stored. -/
def storedInvite (s : SquadSession) (i : ℕ) : Option InviteRow := (s.invites.stored[i]?).join

section

variable {s : SquadSession} {p q i : ℕ} {inv : InviteRow} {squad : Squad} {found : InviteRow → Bool} {qs : List ℕ}

theorem Flushed.storedInvite (h : s.Flushed) (i : ℕ) : s.storedInvite i = s.invite i := by
  unfold SquadSession.storedInvite invite
  rw [h]

/-- The invitations a query finds. -/
theorem mem_select_iff : i ∈ s.invites.select (fun row => row.any found) ↔
    ∃ inv, s.storedInvite i = some inv ∧ found inv = true := by
  rw [Session.mem_select]
  unfold SquadSession.storedInvite
  constructor
  · rintro ⟨row, hrow, hfound⟩
    obtain ⟨inv, rfl, hinv⟩ := (Option.any_eq_true _ _).mp hfound
    exact ⟨inv, by rw [hrow]; rfl, hinv⟩
  · rintro ⟨inv, hinv, hfound⟩
    exact ⟨some inv, Option.join_eq_some_iff.mp hinv, hfound⟩

theorem mem_pendingIn : i ∈ s.pendingIn q ↔ ∃ inv, s.storedInvite i = some inv ∧ inv.isPendingIn q = true :=
  mem_select_iff

theorem isPendingIn_iff : inv.isPendingIn q = true ↔ inv.squadId = q ∧ inv.status = .pending := by
  simp [InviteRow.isPendingIn]

/-- An emptied squad: nobody but one member, no lock, and nobody who could still accept. -/
theorem isEmptied_iff (hs : s.Flushed) : s.isEmptied q = true ↔ ∃ squad, s.squad q = some squad ∧
    squad.members.length ≤ 1 ∧ squad.lockedAt = none ∧ ∀ i inv, s.invite i = some inv → inv.isPendingIn q = false := by
  have hnone : (s.pendingIn q).isEmpty = true ↔ ∀ i inv, s.invite i = some inv → inv.isPendingIn q = false := by
    rw [List.isEmpty_iff, List.eq_nil_iff_forall_not_mem]
    constructor
    · intro h i inv hinv
      refine Bool.eq_false_of_not_eq_true fun hp => h i (mem_pendingIn.mpr ⟨inv, ?_, hp⟩)
      rw [hs.storedInvite, hinv]
    · intro h i hi
      obtain ⟨inv, hinv, hp⟩ := mem_pendingIn.mp hi
      rw [hs.storedInvite] at hinv
      simp [h i inv hinv] at hp
  unfold isEmptied
  rw [Option.any_eq_true]
  refine exists_congr fun squad => and_congr_right fun _ => ?_
  rw [Bool.and_eq_true, Bool.and_eq_true, decide_eq_true_iff, hnone, Option.isNone_iff_eq_none]
  tauto

theorem deleteIfEmpty_flushed (hs : s.Flushed) (q : ℕ) : (s.deleteIfEmpty q).Flushed := by
  unfold deleteIfEmpty
  split_ifs
  · rfl
  · exact hs

theorem deleteIfEmpty_squad : (s.deleteIfEmpty q).squad p = some squad ↔
    s.squad p = some squad ∧ ¬ (p = q ∧ s.isEmptied q = true) := by
  unfold deleteIfEmpty
  split_ifs with h
  · unfold SquadSession.squad
    rw [List.getElem?_set]
    by_cases hp : q = p
    · subst hp
      simp only [if_true, h, and_self, not_true_eq_false, and_false, iff_false]
      split_ifs <;> simp
    · simp [hp, Ne.symm hp]
  · simp [h]

theorem deleteIfEmpty_invite (hs : s.Flushed) : (s.deleteIfEmpty q).invite i = some inv ↔
    s.invite i = some inv ∧ ¬ (inv.squadId = q ∧ s.isEmptied q = true) := by
  unfold deleteIfEmpty
  split_ifs with h
  · unfold SquadSession.invite
    dsimp only [Session.current_flush]
    rw [Session.current_update, Option.join_eq_some_iff, Option.join_eq_some_iff, Option.map_eq_some_iff]
    constructor
    · rintro ⟨row, hrow, hinv⟩
      split_ifs at hinv with hi
      subst hinv
      refine ⟨hrow, fun hq => hi (mem_select_iff.mpr ⟨inv, ?_, by simp [hq.1]⟩)⟩
      rw [hs.storedInvite, SquadSession.invite, hrow]
      rfl
    · rintro ⟨hrow, hq⟩
      refine ⟨some inv, hrow, if_neg fun hi => hq ?_⟩
      obtain ⟨inv', hinv', hq'⟩ := mem_select_iff.mp hi
      rw [hs.storedInvite, SquadSession.invite, hrow] at hinv'
      cases hinv'
      exact ⟨by simpa using hq', h⟩
  · simp [h]

/-- What another squad is judged by stays. -/
theorem isEmptied_deleteIfEmpty (hs : s.Flushed) : (s.deleteIfEmpty q).isEmptied p = true ↔
    s.isEmptied p = true ∧ ¬ (p = q ∧ s.isEmptied q = true) := by
  rw [isEmptied_iff (deleteIfEmpty_flushed hs q), isEmptied_iff hs]
  constructor
  · rintro ⟨squad, hsquad, hlen, hlock, hpend⟩
    obtain ⟨hsquad', hq⟩ := deleteIfEmpty_squad.mp hsquad
    refine ⟨⟨squad, hsquad', hlen, hlock, fun i inv hinv => ?_⟩, hq⟩
    by_contra hp
    have hp' : inv.isPendingIn p = true := by simpa using hp
    have hkept := (deleteIfEmpty_invite hs).mpr ⟨hinv, fun h => hq ⟨(isPendingIn_iff.mp hp').1.symm.trans h.1, h.2⟩⟩
    rw [hpend i inv hkept] at hp'
    simp at hp'
  · rintro ⟨⟨squad, hsquad, hlen, hlock, hpend⟩, hq⟩
    exact ⟨squad, deleteIfEmpty_squad.mpr ⟨hsquad, hq⟩, hlen, hlock,
      fun i inv hinv => hpend i inv ((deleteIfEmpty_invite hs).mp hinv).1⟩

/-- The sweep over the squads `qs`. -/
theorem sweep (hs : s.Flushed) : (qs.foldl deleteIfEmpty s).Flushed ∧
    (∀ p squad, (qs.foldl deleteIfEmpty s).squad p = some squad ↔
      s.squad p = some squad ∧ ¬ (p ∈ qs ∧ s.isEmptied p = true)) ∧
    ∀ i inv, (qs.foldl deleteIfEmpty s).invite i = some inv ↔
      s.invite i = some inv ∧ ¬ (inv.squadId ∈ qs ∧ s.isEmptied inv.squadId = true) := by
  induction qs generalizing s with
  | nil => exact ⟨hs, fun p squad => by simp, fun i inv => by simp⟩
  | cons q qs ih =>
    obtain ⟨hflushed, hsquads, hinvites⟩ := ih (deleteIfEmpty_flushed hs q)
    refine ⟨hflushed, fun p squad => (hsquads p squad).trans ?_, fun i inv => (hinvites i inv).trans ?_⟩
    · rw [deleteIfEmpty_squad, isEmptied_deleteIfEmpty hs, List.mem_cons]
      by_cases hp : p = q
      · subst hp
        tauto
      · tauto
    · rw [deleteIfEmpty_invite hs, isEmptied_deleteIfEmpty hs, List.mem_cons]
      by_cases hp : inv.squadId = q
      · rw [hp]
        tauto
      · tauto

end

/-- A squad that the sweep deletes: cancelling the student's invitations leaves it to one member, with nobody invited. -/
structure LeftEmpty (s : SquadSession) (subjectId studentId exclude p : ℕ) : Prop where
  other : some p ≠ (s.invite exclude).map (·.squadId)
  affected : ∃ i inv, i ≠ exclude ∧ s.invite i = some inv ∧ inv.squadId = p ∧ s.isPendingOf subjectId studentId inv = true
  alone : ∃ squad, s.squad p = some squad ∧ squad.members.length ≤ 1 ∧ squad.lockedAt = none
  uninvited : ∀ i inv, s.invite i = some inv → inv.isPendingIn p = true → s.isPendingOf subjectId studentId inv = true

section

variable {s : SquadSession} {subjectId studentId exclude p i : ℕ} {row other : InviteRow} {squad : Squad}

/-- The invitations that the sweep cancels. -/
theorem mem_found (hs : s.Flushed) :
    i ∈ (s.invites.select fun r => r.any (s.isPendingOf subjectId studentId)).filter (· ≠ exclude) ↔
      i ≠ exclude ∧ ∃ inv, s.invite i = some inv ∧ s.isPendingOf subjectId studentId inv = true := by
  rw [List.mem_filter, mem_select_iff, hs.storedInvite, decide_eq_true_iff, and_comm]

theorem setStatus_eq_some {status : SquadInviteStatus} {found : Option InviteRow} : setStatus status found = some row ↔
    ∃ other, found = some other ∧ row = { other with status } := by
  rw [setStatus, Option.map_eq_some_iff]
  exact exists_congr fun _ => and_congr_right fun _ => eq_comm

/-- An invitation after a change in memory. -/
theorem invite_update (ids : List ℕ) (status : SquadInviteStatus) (s : SquadSession) (i : ℕ) :
    ({ s with invites := s.invites.update ids (setStatus status) } : SquadSession).invite i =
      if i ∈ ids then setStatus status (s.invite i) else s.invite i := by
  unfold invite
  rw [Session.current_update]
  rcases s.invites.current[i]? with _ | r
  · split_ifs <;> rfl
  · dsimp only [Option.map_some, Option.join_some]

/-- What the sweep has cancelled before it judges any squad. -/
def cancelled (s : SquadSession) (subjectId studentId exclude : ℕ) : SquadSession :=
  { s with invites := (s.invites.update ((s.invites.select fun r => r.any (s.isPendingOf subjectId studentId)).filter
      (· ≠ exclude)) (setStatus .cancelled)).flush }

theorem invite_cancelled (hs : s.Flushed) : (s.cancelled subjectId studentId exclude).invite i = some row ↔
    ∃ other, s.invite i = some other ∧ row =
      if i ≠ exclude ∧ s.isPendingOf subjectId studentId other = true then { other with status := .cancelled } else other := by
  change ({ s with invites := s.invites.update _ _ } : SquadSession).invite i = some row ↔ _
  rw [invite_update]
  by_cases hi : i ∈ (s.invites.select fun r => r.any (s.isPendingOf subjectId studentId)).filter (· ≠ exclude)
  · obtain ⟨hne, inv, hinv, hp⟩ := (mem_found hs).mp hi
    rw [if_pos hi, setStatus_eq_some]
    refine exists_congr fun other => and_congr_right fun hother => ?_
    cases hinv.symm.trans hother
    rw [if_pos ⟨hne, hp⟩]
  · rw [if_neg hi]
    constructor
    · intro hrow
      refine ⟨row, hrow, (if_neg fun h => hi ((mem_found hs).mpr ⟨h.1, row, hrow, h.2⟩)).symm⟩
    · rintro ⟨other, hother, rfl⟩
      rw [hother, if_neg fun h => hi ((mem_found hs).mpr ⟨h.1, other, hother, h.2⟩)]

/-- The squads that the sweep judges. -/
theorem mem_affected (hs : s.Flushed) : p ∈ (s.squadsOf ((s.invites.select fun r =>
      r.any (s.isPendingOf subjectId studentId)).filter (· ≠ exclude))).filter
        (fun q => some q ≠ (s.invite exclude).map (·.squadId)) ↔
    some p ≠ (s.invite exclude).map (·.squadId) ∧
      ∃ i inv, i ≠ exclude ∧ s.invite i = some inv ∧ inv.squadId = p ∧ s.isPendingOf subjectId studentId inv = true := by
  rw [List.mem_filter, decide_eq_true_iff, and_comm]
  refine and_congr_right fun _ => ?_
  unfold squadsOf
  rw [List.mem_dedup, List.mem_filterMap]
  refine exists_congr fun i => ?_
  rw [mem_found hs, Option.map_eq_some_iff]
  constructor
  · rintro ⟨⟨hne, inv, hinv, hp⟩, inv', hinv', hq⟩
    cases hinv.symm.trans hinv'
    exact ⟨inv, hne, hinv, hq, hp⟩
  · rintro ⟨inv, hne, hinv, hq, hp⟩
    exact ⟨⟨hne, inv, hinv, hp⟩, inv, hinv, hq⟩

/-- A squad is judged empty by what the sweep has cancelled. -/
theorem isEmptied_cancelled (hs : s.Flushed) (hp : some p ≠ (s.invite exclude).map (·.squadId)) :
    (s.cancelled subjectId studentId exclude).isEmptied p = true ↔
      (∃ squad, s.squad p = some squad ∧ squad.members.length ≤ 1 ∧ squad.lockedAt = none) ∧
        ∀ i inv, s.invite i = some inv → inv.isPendingIn p = true → s.isPendingOf subjectId studentId inv = true := by
  have hpend : (∀ i inv, (s.cancelled subjectId studentId exclude).invite i = some inv → inv.isPendingIn p = false) ↔
      ∀ i inv, s.invite i = some inv → inv.isPendingIn p = true → s.isPendingOf subjectId studentId inv = true := by
    constructor
    · intro h i inv hinv hin
      by_contra hof
      have := h i inv ((invite_cancelled hs).mpr ⟨inv, hinv, (if_neg fun hc => hof hc.2).symm⟩)
      rw [hin] at this
      cases this
    · intro h i inv hinv
      obtain ⟨other, hother, rfl⟩ := (invite_cancelled hs).mp hinv
      refine Bool.eq_false_of_not_eq_true fun hin => ?_
      split_ifs at hin with hc
      · simp [InviteRow.isPendingIn] at hin
      · -- the excluded invitation is in another squad
        refine hc ⟨?_, h i other hother hin⟩
        rintro rfl
        exact hp (by rw [hother, Option.map_some, (isPendingIn_iff.mp hin).1])
  rw [isEmptied_iff (s := s.cancelled subjectId studentId exclude) rfl, hpend]
  constructor
  · rintro ⟨squad, hsquad, hlen, hlock, h⟩
    exact ⟨⟨squad, hsquad, hlen, hlock⟩, h⟩
  · rintro ⟨⟨squad, hsquad, hlen, hlock⟩, h⟩
    exact ⟨squad, hsquad, hlen, hlock, h⟩

/-- What `_cancel_pending_of` leaves. -/
theorem cancelPendingOf_spec (hs : s.Flushed) (subjectId studentId exclude : ℕ) :
    (s.cancelPendingOf subjectId studentId exclude).Flushed ∧
    (∀ p squad, (s.cancelPendingOf subjectId studentId exclude).squad p = some squad ↔
      s.squad p = some squad ∧ ¬ s.LeftEmpty subjectId studentId exclude p) ∧
    ∀ i row, (s.cancelPendingOf subjectId studentId exclude).invite i = some row ↔
      (s.cancelled subjectId studentId exclude).invite i = some row ∧
        ¬ s.LeftEmpty subjectId studentId exclude row.squadId := by
  have hjudged : ∀ p, p ∈ (s.squadsOf ((s.invites.select fun r =>
        r.any (s.isPendingOf subjectId studentId)).filter (· ≠ exclude))).filter
          (fun q => some q ≠ (s.invite exclude).map (·.squadId)) ∧
        (s.cancelled subjectId studentId exclude).isEmptied p = true ↔ s.LeftEmpty subjectId studentId exclude p := by
    intro p
    constructor
    · rintro ⟨hp, he⟩
      obtain ⟨hne, haffected⟩ := (mem_affected hs).mp hp
      obtain ⟨halone, huninvited⟩ := (isEmptied_cancelled hs hne).mp he
      exact ⟨hne, haffected, halone, huninvited⟩
    · intro h
      exact ⟨(mem_affected hs).mpr ⟨h.other, h.affected⟩, (isEmptied_cancelled hs h.other).mpr ⟨h.alone, h.uninvited⟩⟩
  obtain ⟨hflushed, hsquads, hinvites⟩ := sweep (s := s.cancelled subjectId studentId exclude) rfl
  refine ⟨hflushed, fun p squad => (hsquads p squad).trans ?_, fun i row => (hinvites i row).trans ?_⟩
  · rw [hjudged]
    rfl
  · rw [hjudged]

end

section

variable {s : SquadSession} {subjectId studentId exclude p q i now : ℕ} {row : InviteRow}

/-- A squad after a change to the squad `q`. -/
theorem squad_modify (f : Squad → Squad) (invites : Session (Option InviteRow)) (s : SquadSession) (q p : ℕ) :
    (⟨s.squads.modify q (Option.map f), invites⟩ : SquadSession).squad p =
      (s.squad p).map fun squad => if q = p then f squad else squad := by
  unfold SquadSession.squad
  rw [List.getElem?_modify]
  rcases s.squads[p]? with _ | squad
  · rfl
  · rcases squad with _ | squad
    · by_cases hq : q = p <;> simp [hq]
    · by_cases hq : q = p <;> simp [hq]

/-- The subject of a squad stays. -/
theorem isPendingOf_addMember (s : SquadSession) (q subjectId studentId newcomer : ℕ) :
    (s.addMember q newcomer).isPendingOf subjectId studentId = s.isPendingOf subjectId studentId := by
  funext inv
  unfold isPendingOf addMember
  rw [squad_modify, Option.any_map]
  congr 3
  funext squad
  split_ifs <;> rfl

/-- The sweep does not judge the squad that is joined. -/
theorem leftEmpty_addMember (s : SquadSession) (newcomer : ℕ) (hq : (s.invite exclude).map (·.squadId) = some q) :
    (s.addMember q newcomer).LeftEmpty subjectId studentId exclude p ↔
      s.LeftEmpty subjectId studentId exclude p := by
  have hother : p ≠ q → (s.addMember q newcomer).squad p = s.squad p := by
    intro hp
    unfold addMember
    rw [squad_modify]
    rcases s.squad p with _ | squad
    · rfl
    · rw [Option.map_some, if_neg hp.symm]
  have hne : some p ≠ (s.invite exclude).map (·.squadId) → p ≠ q := by
    intro h hp
    exact h (by rw [hq, hp])
  constructor
  · rintro ⟨h, haffected, halone, huninvited⟩
    rw [isPendingOf_addMember] at haffected huninvited
    rw [hother (hne h)] at halone
    exact ⟨h, haffected, halone, huninvited⟩
  · rintro ⟨h, haffected, halone, huninvited⟩
    refine ⟨h, ?_, ?_, ?_⟩
    · rw [isPendingOf_addMember]
      exact haffected
    · rw [hother (hne h)]
      exact halone
    · rw [isPendingOf_addMember]
      exact huninvited

/-- The sweep, for a student who has just joined. -/
theorem invite_swept (s : SquadSession) (subjectId studentId newcomer i : ℕ) (row : InviteRow)
    (hq : (s.invite exclude).map (·.squadId) = some q) :
    ((s.addMember q newcomer).cancelPendingOf subjectId studentId exclude).invite i = some row ↔
      ∃ other, s.invite i = some other ∧ ¬ s.LeftEmpty subjectId studentId exclude other.squadId ∧ row =
        if i ≠ exclude ∧ s.isPendingOf subjectId studentId other = true then { other with status := .cancelled } else other := by
  obtain ⟨-, -, hinvites⟩ := cancelPendingOf_spec (s := s.addMember q newcomer) rfl subjectId studentId exclude
  rw [hinvites, invite_cancelled (s := s.addMember q newcomer) rfl, leftEmpty_addMember s newcomer hq, isPendingOf_addMember]
  constructor
  · rintro ⟨⟨other, hother, rfl⟩, hleft⟩
    refine ⟨other, hother, ?_, rfl⟩
    split_ifs at hleft <;> exact hleft
  · rintro ⟨other, hother, hleft, rfl⟩
    refine ⟨⟨other, hother, rfl⟩, ?_⟩
    split_ifs <;> exact hleft

/-- `inv.status = ACCEPTED`, in memory. -/
def accepting (s : SquadSession) (inviteId : ℕ) : SquadSession :=
  { s with invites := s.invites.update [inviteId] (setStatus .accepted) }

theorem invite_accepting : (s.accepting exclude).invite i = some row ↔ ∃ other, s.invite i = some other ∧
    row = { other with status := if i = exclude then .accepted else other.status } := by
  unfold accepting
  rw [invite_update]
  by_cases hi : i = exclude
  · simp only [if_pos (List.mem_singleton.mpr hi), if_pos hi]
    exact setStatus_eq_some
  · simp only [if_neg (fun h => hi (List.mem_singleton.mp h)), if_neg hi]
    constructor
    · intro h
      exact ⟨row, h, rfl⟩
    · rintro ⟨other, hother, rfl⟩
      exact hother

/-- The status that the lock leaves an invitation. -/
def lockedStatus (exclude q i : ℕ) (other : InviteRow) : SquadInviteStatus :=
  if other.isPendingIn q = true then .cancelled else if i = exclude then .accepted else other.status

/-- The lock finds an invitation PENDING that was so at the last flush, whatever was made of it since. -/
theorem invite_lockFull (hs : s.Flushed) : ((s.accepting exclude).lockFull q now).invite i = some row ↔
    ∃ other, s.invite i = some other ∧ row = { other with status := lockedStatus exclude q i other } := by
  unfold lockedStatus
  have hlock : ((s.accepting exclude).lockFull q now).invite i =
      if i ∈ s.pendingIn q then setStatus .cancelled ((s.accepting exclude).invite i) else (s.accepting exclude).invite i :=
    invite_update _ _ _ i
  rw [hlock]
  by_cases hi : i ∈ s.pendingIn q
  · obtain ⟨inv, hinv, hp⟩ := mem_pendingIn.mp hi
    rw [hs.storedInvite] at hinv
    rw [if_pos hi, setStatus_eq_some]
    constructor
    · rintro ⟨marked, hmarked, rfl⟩
      obtain ⟨other, hother, rfl⟩ := invite_accepting.mp hmarked
      cases hinv.symm.trans hother
      exact ⟨inv, hinv, by rw [if_pos hp]⟩
    · rintro ⟨other, hother, rfl⟩
      cases hinv.symm.trans hother
      exact ⟨_, invite_accepting.mpr ⟨inv, hinv, rfl⟩, by rw [if_pos hp]⟩
  · rw [if_neg hi, invite_accepting]
    refine exists_congr fun other => and_congr_right fun hother => ?_
    rw [if_neg fun hp => hi (mem_pendingIn.mpr ⟨other, by rw [hs.storedInvite, hother], hp⟩)]

end

end SquadSession

namespace SquadTables

open SquadSession

section

variable {t : SquadTables} {size now inviteId studentId p i : ℕ} {inv row : InviteRow} {squad : Squad}

theorem loadInvite_ok (h : t.loadInvite inviteId = .ok (inv, squad)) :
    t.invite inviteId = some inv ∧ inv.status = .pending ∧ t.squad inv.squadId = some squad := by
  unfold loadInvite at h
  rcases hinv : t.invite inviteId with _ | inv'
  · simp [hinv] at h
  · rcases hsquad : t.squad inv'.squadId with _ | squad'
    · simp [hinv, hsquad] at h
    · simp only [hinv, hsquad, Option.bind_some, Option.map_some] at h
      split_ifs at h with hp
      cases h
      exact ⟨rfl, hp, hsquad⟩

/-- A success is a join of a squad with room. -/
theorem acceptInvite_ok {ineligible : ℕ → ℕ → Option SquadError} {maxSize : ℕ → Option ℕ}
    (hload : t.loadInvite inviteId = .ok (inv, squad))
    (h : (t.acceptInvite ineligible maxSize now inviteId studentId).2 = none) :
    (t.acceptInvite ineligible maxSize now inviteId studentId).1 =
      t.join ((maxSize squad.subjectId).getD 0) now inviteId studentId inv squad := by
  unfold acceptInvite at h ⊢
  rw [hload] at h ⊢
  dsimp only at h ⊢
  split_ifs at h ⊢
  rcases hr : (ineligible squad.subjectId studentId).or (squad.refusal ((maxSize squad.subjectId).getD 0)) with _ | reason
  · rfl
  · rw [hr] at h
    cases h

/-- The squads that the sweep deletes when the student joins. -/
abbrev LeftEmpty (t : SquadTables) (subjectId studentId inviteId p : ℕ) : Prop :=
  t.session.LeftEmpty subjectId studentId inviteId p

/-- The status that a join leaves an invitation. -/
def joinedStatus (t : SquadTables) (size inviteId studentId : ℕ) (inv : InviteRow) (squad : Squad) (i : ℕ)
    (other : InviteRow) : SquadInviteStatus :=
  if size ≤ squad.members.length + 1 ∧ other.isPendingIn inv.squadId = true then .cancelled
  else if i = inviteId then .accepted
  else if t.session.isPendingOf squad.subjectId studentId other = true then .cancelled
  else other.status

theorem invite_join (hinv : t.invite inviteId = some inv) :
    (t.join size now inviteId studentId inv squad).invite i = some row ↔ ∃ other, t.invite i = some other ∧
      ¬ t.LeftEmpty squad.subjectId studentId inviteId other.squadId ∧
        row = { other with status := t.joinedStatus size inviteId studentId inv squad i other } := by
  have hq : (t.session.invite inviteId).map (·.squadId) = some inv.squadId := by
    rw [show t.session.invite inviteId = some inv from hinv]
    rfl
  have hswept := fun mid => invite_swept t.session squad.subjectId studentId studentId i mid hq
  obtain ⟨hflushed, -, -⟩ := cancelPendingOf_spec (s := t.session.addMember inv.squadId studentId) rfl squad.subjectId
    studentId inviteId
  -- the row that the sweep leaves, with the status that comes after
  have hrows : ∀ left : InviteRow → SquadInviteStatus,
      (∀ other, left (if i ≠ inviteId ∧ t.session.isPendingOf squad.subjectId studentId other = true then
        { other with status := .cancelled } else other) = t.joinedStatus size inviteId studentId inv squad i other) →
      ((∃ mid, ((t.session.addMember inv.squadId studentId).cancelPendingOf squad.subjectId studentId inviteId).invite i =
        some mid ∧ row = { mid with status := left mid }) ↔ ∃ other, t.invite i = some other ∧
          ¬ t.LeftEmpty squad.subjectId studentId inviteId other.squadId ∧
            row = { other with status := t.joinedStatus size inviteId studentId inv squad i other }) := by
    intro left hleft
    constructor
    · rintro ⟨mid, hmid, rfl⟩
      obtain ⟨other, hother, hempty, rfl⟩ := (hswept mid).mp hmid
      refine ⟨other, hother, hempty, ?_⟩
      rw [hleft other]
      split_ifs <;> rfl
    · rintro ⟨other, hother, hempty, rfl⟩
      refine ⟨_, (hswept _).mpr ⟨other, hother, hempty, rfl⟩, ?_⟩
      rw [hleft other]
      split_ifs <;> rfl
  by_cases hfull : size ≤ squad.members.length + 1
  · have hjoin : (t.join size now inviteId studentId inv squad).invite i =
        ((((t.session.addMember inv.squadId studentId).cancelPendingOf squad.subjectId studentId inviteId).accepting
          inviteId).lockFull inv.squadId now).invite i := by
      simp only [join, if_pos hfull]
      rfl
    rw [hjoin, invite_lockFull hflushed]
    refine hrows (lockedStatus inviteId inv.squadId i) fun other => ?_
    unfold joinedStatus lockedStatus
    by_cases hi : i = inviteId
    · simp [hi, hfull]
    · by_cases hof : t.session.isPendingOf squad.subjectId studentId other = true
      · simp [hi, hof, InviteRow.isPendingIn]
      · simp [hi, hof, hfull]
  · have hjoin : (t.join size now inviteId studentId inv squad).invite i =
        (((t.session.addMember inv.squadId studentId).cancelPendingOf squad.subjectId studentId inviteId).accepting
          inviteId).invite i := by
      simp only [join, if_neg hfull]
      rfl
    rw [hjoin, invite_accepting]
    refine hrows (fun mid => if i = inviteId then .accepted else mid.status) fun other => ?_
    unfold joinedStatus
    by_cases hi : i = inviteId
    · simp [hi, hfull]
    · by_cases hof : t.session.isPendingOf squad.subjectId studentId other = true
      · simp [hi, hof, hfull]
      · simp [hi, hof, hfull]

/-- What a join makes of a squad. -/
def joinedSquad (size now studentId q : ℕ) (squad : Squad) (p : ℕ) (other : Squad) : Squad :=
  let members := if q = p then other.members ++ [studentId] else other.members
  { other with members, lockedAt := if size ≤ squad.members.length + 1 ∧ q = p then some now else other.lockedAt }

theorem squad_join {squad' : Squad} (hinv : t.invite inviteId = some inv) :
    (t.join size now inviteId studentId inv squad).squad p = some squad' ↔ ∃ other, t.squad p = some other ∧
      ¬ t.LeftEmpty squad.subjectId studentId inviteId p ∧
        squad' = joinedSquad size now studentId inv.squadId squad p other := by
  have hq : (t.session.invite inviteId).map (·.squadId) = some inv.squadId := by
    rw [show t.session.invite inviteId = some inv from hinv]
    rfl
  obtain ⟨-, hsquads, -⟩ := cancelPendingOf_spec (s := t.session.addMember inv.squadId studentId) rfl squad.subjectId
    studentId inviteId
  have hswept : ∀ mid, ((t.session.addMember inv.squadId studentId).cancelPendingOf squad.subjectId studentId
      inviteId).squad p = some mid ↔ ∃ other, t.squad p = some other ∧ ¬ t.LeftEmpty squad.subjectId studentId inviteId p ∧
        mid = if inv.squadId = p then { other with members := other.members ++ [studentId] } else other := by
    intro mid
    rw [hsquads, leftEmpty_addMember t.session studentId hq, addMember, squad_modify, Option.map_eq_some_iff]
    constructor
    · rintro ⟨⟨other, hother, rfl⟩, hleft⟩
      exact ⟨other, hother, hleft, rfl⟩
    · rintro ⟨other, hother, hleft, rfl⟩
      exact ⟨⟨other, hother, rfl⟩, hleft⟩
  unfold joinedSquad
  by_cases hfull : size ≤ squad.members.length + 1
  · have hjoin : (t.join size now inviteId studentId inv squad).squad p =
        (((t.session.addMember inv.squadId studentId).cancelPendingOf squad.subjectId studentId inviteId).squad p).map
          fun mid => if inv.squadId = p then { mid with lockedAt := some now } else mid := by
      simp only [join, if_pos hfull]
      exact squad_modify _ _ _ _ _
    rw [hjoin, Option.map_eq_some_iff]
    constructor
    · rintro ⟨mid, hmid, rfl⟩
      obtain ⟨other, hother, hleft, rfl⟩ := (hswept mid).mp hmid
      refine ⟨other, hother, hleft, ?_⟩
      by_cases hp : inv.squadId = p <;> simp [hp, hfull]
    · rintro ⟨other, hother, hleft, rfl⟩
      refine ⟨_, (hswept _).mpr ⟨other, hother, hleft, rfl⟩, ?_⟩
      by_cases hp : inv.squadId = p <;> simp [hp, hfull]
  · have hjoin : (t.join size now inviteId studentId inv squad).squad p =
        ((t.session.addMember inv.squadId studentId).cancelPendingOf squad.subjectId studentId inviteId).squad p := by
      simp only [join, if_neg hfull]
      rfl
    rw [hjoin, hswept]
    refine exists_congr fun other => and_congr_right fun _ => and_congr_right fun _ => ?_
    by_cases hp : inv.squadId = p <;> simp [hp, hfull]

end

end SquadTables

end SubmissionsChecker
