import SubmissionsChecker.Invariants.SquadInvites

/-! What an accepted invitation settles. The sweep and the lock treat every other invitation as they should, but the
lock still finds the accepted one as it was flushed, and cancels it. -/

namespace SubmissionsChecker

namespace SquadTables

/-- A squad that was deleted. -/
def Deleted (t t' : SquadTables) (p : ℕ) : Prop := (t.squad p).isSome ∧ t'.squad p = none

/-- What `accept_invite` owes the other invitations and the squad: `t` are the tables before the call, `t'` after its
flush. A deleted squad takes its invitations along. -/
structure OthersSettled (t t' : SquadTables) (size inviteId studentId : ℕ) (inv : InviteRow) (squad : Squad) : Prop where
  cancelled : ∀ i other, i ≠ inviteId → t.invite i = some other →
    t.session.isPendingOf squad.subjectId studentId other = true →
      t'.invite i = some { other with status := .cancelled } ∨ t.Deleted t' other.squadId
  locked : ∃ joined, t'.squad inv.squadId = some joined ∧ (size ≤ joined.members.length →
    joined.lockedAt.isSome ∧ ∀ i row, t'.invite i = some row → row.isPendingIn inv.squadId = false)
  kept : ∀ i other, i ≠ inviteId → t.invite i = some other →
    t.session.isPendingOf squad.subjectId studentId other = false →
      (other.squadId = inv.squadId → ∀ joined, t'.squad inv.squadId = some joined → joined.members.length < size) →
        t'.invite i = some other ∨ t.Deleted t' other.squadId
  deleted : ∀ p, t.Deleted t' p → ∃ lone, t.squad p = some lone ∧ lone.members.length ≤ 1 ∧ lone.lockedAt = none ∧
    ∀ i other, t.invite i = some other → other.isPendingIn p = true →
      t.session.isPendingOf squad.subjectId studentId other = true

/-- Accepting settles everything. -/
structure Settled (t t' : SquadTables) (size inviteId studentId : ℕ) (inv : InviteRow) (squad : Squad) : Prop
    extends OthersSettled t t' size inviteId studentId inv squad where
  accepted : t'.invite inviteId = some { inv with status := .accepted }

section

variable {t : SquadTables} {size now inviteId studentId i p : ℕ} {inv other : InviteRow} {squad : Squad}

/-- The squads that are gone are those left empty. -/
theorem deleted_join (hinv : t.invite inviteId = some inv) :
    t.Deleted (t.join size now inviteId studentId inv squad) p ↔ t.LeftEmpty squad.subjectId studentId inviteId p := by
  unfold Deleted
  rw [Option.eq_none_iff_forall_not_mem]
  constructor
  · rintro ⟨hsome, hnone⟩
    obtain ⟨other, hother⟩ := Option.isSome_iff_exists.mp hsome
    by_contra hleft
    exact hnone _ (Option.mem_def.mpr ((squad_join hinv).mpr ⟨other, hother, hleft, rfl⟩))
  · intro hleft
    obtain ⟨lone, hlone, -, -⟩ := hleft.alone
    refine ⟨Option.isSome_iff_exists.mpr ⟨lone, hlone⟩, fun squad' hsquad' => ?_⟩
    obtain ⟨-, -, hkept, -⟩ := (squad_join hinv).mp (Option.mem_def.mp hsquad')
    exact hkept hleft

/-- An invitation that is not gone with its squad. -/
theorem invite_join_or (size now studentId : ℕ) (squad : Squad) (hinv : t.invite inviteId = some inv)
    (hother : t.invite i = some other) :
    (t.join size now inviteId studentId inv squad).invite i =
        some { other with status := t.joinedStatus size inviteId studentId inv squad i other } ∨
      t.Deleted (t.join size now inviteId studentId inv squad) other.squadId := by
  by_cases hleft : t.LeftEmpty squad.subjectId studentId inviteId other.squadId
  · exact Or.inr ((deleted_join hinv).mpr hleft)
  · exact Or.inl ((invite_join hinv).mpr ⟨other, hother, hleft, rfl⟩)

/-- The squad that is joined stays. -/
theorem not_leftEmpty_joined (hinv : t.invite inviteId = some inv) (subjectId : ℕ) :
    ¬ t.LeftEmpty subjectId studentId inviteId inv.squadId := by
  intro h
  refine h.other ?_
  rw [show t.session.invite inviteId = some inv from hinv]
  rfl

/-- The invitation itself: the lock takes it for one still open. -/
theorem invite_joined (hinv : t.invite inviteId = some inv) (hp : inv.status = .pending) :
    (t.join size now inviteId studentId inv squad).invite inviteId =
      some { inv with status := if size ≤ squad.members.length + 1 then .cancelled else .accepted } := by
  refine (invite_join hinv).mpr ⟨inv, hinv, not_leftEmpty_joined hinv squad.subjectId, ?_⟩
  simp [joinedStatus, InviteRow.isPendingIn, hp]

theorem squad_joined (hinv : t.invite inviteId = some inv) (hsquad : t.squad inv.squadId = some squad) :
    (t.join size now inviteId studentId inv squad).squad inv.squadId =
      some (joinedSquad size now studentId inv.squadId squad inv.squadId squad) :=
  (squad_join hinv).mpr ⟨squad, hsquad, not_leftEmpty_joined hinv squad.subjectId, rfl⟩

theorem members_joinedSquad (q : ℕ) : (joinedSquad size now studentId q squad q squad).members.length =
    squad.members.length + 1 := by
  simp [joinedSquad]

/-- In a squad that is full nothing is left open. -/
theorem none_pending (hinv : t.invite inviteId = some inv) (hfull : size ≤ squad.members.length + 1) {row : InviteRow}
    (hrow : (t.join size now inviteId studentId inv squad).invite i = some row) : row.isPendingIn inv.squadId = false := by
  obtain ⟨other, -, -, rfl⟩ := (invite_join hinv).mp hrow
  refine Bool.eq_false_of_not_eq_true fun hin => ?_
  obtain ⟨hq, hp⟩ := SquadSession.isPendingIn_iff.mp hin
  dsimp only at hq hp
  unfold joinedStatus at hp
  split_ifs at hp with h hi hof
  exact h ⟨hfull, SquadSession.isPendingIn_iff.mpr ⟨hq, hp⟩⟩

/-- The sweep and the lock, with or without room left. -/
theorem othersSettled_join (size now studentId : ℕ) (hinv : t.invite inviteId = some inv)
    (hsquad : t.squad inv.squadId = some squad) :
    t.OthersSettled (t.join size now inviteId studentId inv squad) size inviteId studentId inv squad where
  cancelled := by
    intro i other hi hother hof
    rcases invite_join_or size now studentId squad hinv hother with h | h
    · left
      rw [h]
      simp [joinedStatus, hi, hof]
    · exact Or.inr h
  locked := by
    refine ⟨_, squad_joined hinv hsquad, fun hfull => ?_⟩
    rw [members_joinedSquad] at hfull
    exact ⟨by simp [joinedSquad, hfull], fun i row hrow => none_pending hinv hfull hrow⟩
  kept := by
    intro i other hi hother hof hq
    rcases invite_join_or size now studentId squad hinv hother with h | h
    · have hopen : ¬ (size ≤ squad.members.length + 1 ∧ other.isPendingIn inv.squadId = true) := by
        rintro ⟨hfull, hin⟩
        have := hq (SquadSession.isPendingIn_iff.mp hin).1 _ (squad_joined hinv hsquad)
        rw [members_joinedSquad] at this
        omega
      left
      rw [h]
      unfold joinedStatus
      rw [if_neg hopen, if_neg hi, if_neg (by simp [hof])]
    · exact Or.inr h
  deleted := by
    intro p hdeleted
    have hleft := (deleted_join hinv).mp hdeleted
    obtain ⟨lone, hlone, hlen, hlock⟩ := hleft.alone
    exact ⟨lone, hlone, hlen, hlock, hleft.uninvited⟩

/-- A successful `accept_invite` settles everything if and only if it leaves room in the squad. -/
theorem accept_settles_iff (t : SquadTables) (ineligible : ℕ → ℕ → Option SquadError) (maxSize : ℕ → Option ℕ)
    (now inviteId studentId : ℕ) (inv : InviteRow) (squad : Squad) (hload : t.loadInvite inviteId = .ok (inv, squad))
    (h : (t.acceptInvite ineligible maxSize now inviteId studentId).2 = none) :
    t.OthersSettled (t.acceptInvite ineligible maxSize now inviteId studentId).1 ((maxSize squad.subjectId).getD 0)
        inviteId studentId inv squad ∧
      (t.Settled (t.acceptInvite ineligible maxSize now inviteId studentId).1 ((maxSize squad.subjectId).getD 0)
        inviteId studentId inv squad ↔ squad.members.length + 1 < (maxSize squad.subjectId).getD 0) := by
  obtain ⟨hinv, hp, hsquad⟩ := loadInvite_ok hload
  rw [acceptInvite_ok hload h]
  have hothers := othersSettled_join ((maxSize squad.subjectId).getD 0) now studentId hinv hsquad
  refine ⟨hothers, fun hsettled => ?_, fun hroom => ⟨hothers, ?_⟩⟩
  · have haccepted := hsettled.accepted
    rw [invite_joined hinv hp] at haccepted
    by_contra hfull
    rw [if_pos (by omega)] at haccepted
    cases haccepted
  · rw [invite_joined hinv hp, if_neg (by omega)]

/-- A squad of one, with an invitation out to student 1. -/
def oneInvited : SquadTables where
  squads := [some { subjectId := 0, members := [0] }]
  invites := [some { squadId := 0, invitedStudentId := 1, invitedByStudentId := some 0, status := .pending }]

/-- In a squad of three there is room left. -/
theorem threeSeats_settled : oneInvited.Settled (oneInvited.acceptInvite (fun _ _ => none) (fun _ => some 3) 0 0 1).1 3 0 1
    { squadId := 0, invitedStudentId := 1, invitedByStudentId := some 0, status := .pending }
    { subjectId := 0, members := [0] } :=
  (accept_settles_iff oneInvited (fun _ _ => none) (fun _ => some 3) 0 0 1 _ _ (by decide +kernel)
    (by decide +kernel)).2.mpr (by decide)

/-- In a squad of two the accepted invitation ends CANCELLED. -/
theorem lastSeat_cancelled : (oneInvited.acceptInvite (fun _ _ => none) (fun _ => some 2) 0 0 1).2 = none ∧
    ¬ oneInvited.Settled (oneInvited.acceptInvite (fun _ _ => none) (fun _ => some 2) 0 0 1).1 2 0 1
      { squadId := 0, invitedStudentId := 1, invitedByStudentId := some 0, status := .pending }
      { subjectId := 0, members := [0] } := by
  refine ⟨by decide +kernel, fun h => ?_⟩
  have hcancelled : (oneInvited.acceptInvite (fun _ _ => none) (fun _ => some 2) 0 0 1).1.invite 0 =
      some { squadId := 0, invitedStudentId := 1, invitedByStudentId := some 0, status := .cancelled } := by
    decide +kernel
  rw [h.accepted] at hcancelled
  cases hcancelled

end

end SquadTables

end SubmissionsChecker
