import SubmissionsChecker.Effects.SquadRequests
import SubmissionsChecker.Invariants.Setup

/-! What the other requests do to the squads: at most they lock one with no open invitation. -/

namespace SubmissionsChecker

structure Db.Settles (db db' : Db) : Prop where
  invites : db'.squadInvites = db.squadInvites
  rosters : db'.squads.map Squad.roster = db.squads.map Squad.roster
  locks : ∀ (q : ℕ) s', db'.squads[q]? = some s' → ∃ s, db.squads[q]? = some s ∧
    (s.lockedAt.isSome = true → s'.lockedAt.isSome = true) ∧
    (s'.lockedAt.isSome = true → s.lockedAt.isSome = true ∨ db.hasPending q = false)

section

variable {db db₁ db' : Db}

theorem settles_of_same (hsquads : db'.squads = db.squads) (hinvites : db'.squadInvites = db.squadInvites) :
    db.Settles db' :=
  ⟨hinvites, by rw [hsquads], fun q s hs => ⟨s, by rwa [← hsquads], id, .inl⟩⟩

namespace Db.Settles

theorem refl (db : Db) : db.Settles db := settles_of_same rfl rfl

theorem trans (h₁ : db.Settles db₁) (h₂ : db₁.Settles db') : db.Settles db' where
  invites := h₂.invites.trans h₁.invites
  rosters := h₂.rosters.trans h₁.rosters
  locks q s' hs' := by
    obtain ⟨s₁, hs₁, hkeep₁, hlock₁⟩ := h₂.locks q s' hs'
    obtain ⟨s, hs, hkeep, hlock⟩ := h₁.locks q s₁ hs₁
    refine ⟨s, hs, hkeep₁ ∘ hkeep, fun hl => ?_⟩
    rcases hlock₁ hl with hl | hnone
    · exact hlock hl
    · right
      unfold Db.hasPending at hnone ⊢
      rwa [h₁.invites] at hnone

theorem pending (h : db.Settles db') (q : ℕ) : db'.hasPending q = db.hasPending q := by
  rw [Db.hasPending, Db.hasPending, h.invites]

theorem squad (h : db.Settles db') {q : ℕ} {s' : Squad} (hs' : db'.squads[q]? = some s') :
    ∃ s, db.squads[q]? = some s ∧ s'.subjectId = s.subjectId ∧ s'.members = s.members ∧
      (s.lockedAt.isSome = true → s'.lockedAt.isSome = true) ∧
      (s'.lockedAt.isSome = true → s.lockedAt.isSome = true ∨ db.hasPending q = false) := by
  obtain ⟨s, hs, hkeep, hlock⟩ := h.locks q s' hs'
  obtain ⟨s₀, hs₀, hx, hm⟩ := roster_get h.rosters hs'
  rw [hs, Option.some_inj] at hs₀
  subst hs₀
  exact ⟨s, hs, hx.symm, hm.symm, hkeep, hlock⟩

theorem formed (h : db.Settles db') (ok : db.Formed) : db'.Formed where
  oneSquad q q' s₁ s₁' t hs₁ hs₁' hsubject ht ht' := by
    obtain ⟨s, hs, hx, hm, -⟩ := h.squad hs₁
    obtain ⟨s', hs', hx', hm', -⟩ := h.squad hs₁'
    exact ok.oneSquad q q' s s' t hs hs' (by rw [← hx, ← hx', hsubject]) (hm ▸ ht) (hm' ▸ ht')
  settled q s' hs' hl := by
    rw [h.pending]
    obtain ⟨s, hs, -, -, -, hlock⟩ := h.squad hs'
    rcases hlock hl with hl | hnone
    · exact ok.settled q s hs hl
    · exact hnone
  invited inv hinv hp := by
    rw [h.invites] at hinv
    obtain ⟨s, hs, hm⟩ := ok.invited inv hinv hp
    have hr := congrArg (fun l : List (ℕ × List ℕ) => l[inv.squadId]?) h.rosters
    simp only [List.getElem?_map, hs, Option.map_some] at hr
    obtain ⟨s', hs', heq⟩ := Option.map_eq_some_iff.mp hr
    exact ⟨s', hs', by rw [show s'.members = s.members from congrArg Prod.snd heq]; exact hm⟩

theorem nobodyAlone (h : db.Settles db') (halone : db.NobodyAloneBut []) : db'.NobodyAloneBut [] := by
  intro q s' hs' hopen hone hq
  rw [h.pending]
  obtain ⟨s, hs, -, hm, hkeep, -⟩ := h.squad hs'
  apply halone q s hs _ (hm ▸ hone) hq
  cases hlock : s.lockedAt with
  | none => rfl
  | some _ =>
    rw [hlock, hopen] at hkeep
    cases hkeep rfl

theorem size (h : db.Settles db') (q : ℕ) : Portal.sizeOf db' q = Portal.sizeOf db q := by
  have hr := congrArg (fun l : List (ℕ × List ℕ) => (l[q]?).map (·.2.length)) h.rosters
  simp only [List.getElem?_map, Option.map_map] at hr
  exact congrArg (Option.getD · 0) hr

end Db.Settles

theorem Within.settles {scope : Scope} (h : Within scope db db') : db.Settles db' :=
  settles_of_same h.squads h.squadInvites

/-! Every request -/

theorem squadForUpload_settled {x t q : ℕ} {refuse : Raised} (h : db.squadForUpload x t refuse = .ok (some q)) :
    db.squadOf x t = some q ∧ db.hasPending q = false := by
  unfold Db.squadForUpload at h
  split at h
  · cases h
  · split_ifs at h with hoff hwait
    · cases h
    · rw [Except.ok.injEq] at h
      rw [Bool.or_eq_true, not_or, Bool.not_eq_true, Bool.not_eq_true] at hwait
      refine ⟨h, ?_⟩
      have hnone := hwait.2
      rw [Db.squadHasPendingInvites, h] at hnone
      exact hnone

theorem Adds.settles {saId : ℕ} {sub : Submission} (h : Adds db saId sub db₁) :
    db.Settles (db₁.addSubmission sub) := by
  obtain ⟨sa, asg, squad, refuse, -, -, hsquad, -, hq, -⟩ := h.row
  refine h.within.settles.trans ?_
  unfold Db.addSubmission
  dsimp only
  rw [hq]
  cases squad with
  | none => exact settles_of_same rfl rfl
  | some q =>
    have hnone := (squadForUpload_settled hsquad).2
    refine ⟨rfl, (evolves_lockOnSubmit _ q).rosters, fun j s' hs' => ?_⟩
    obtain ⟨s, hs, -, -, hlock, hkeep⟩ := lockOnSubmit_get hs'
    refine ⟨s, hs, fun hl => ?_, fun hl => ?_⟩
    · cases hl' : s'.lockedAt with
      | some _ => rfl
      | none => rw [(hkeep hl').1] at hl; cases hl
    · rcases hlock hl with hl | rfl
      · exact .inl hl
      · right
        rw [h.within.settles.pending]
        exact hnone

theorem QuizStep.settles {k : ℕ} {ends : Option (QuizAttempt × QuizAttemptStatus)} (h : QuizStep db k ends db') :
    db.Settles db' := by
  cases h with
  | same => exact .refl db
  | edited => exact settles_of_same rfl rfl
  | finished _ _ _ _ _ hfin =>
    have hset : ∀ f : QuizAttempt → QuizAttempt, db.Settles (db.setAttempt k f) := fun f => settles_of_same rfl rfl
    exact (hset _).trans hfin.within.settles

theorem Starts.settles {i t : ℕ} (h : Starts db i t db') : db.Settles db' := by
  cases h with
  | same => exact .refl db
  | attempt hd => rcases hd with rfl | ⟨draw, rfl⟩ <;> exact settles_of_same rfl rfl

theorem Opened.settles {saId i : ℕ} (h : Opened db saId db' i) : db.Settles db' := by
  cases h with
  | reused => exact (within_latestSubmission .grades db saId).settles
  | opened ha => exact ha.settles.trans (settles_of_same rfl rfl)

theorem Started.settles {saId t : ℕ} (h : Started db saId t db') : db.Settles db' := by
  have hl := (within_latestSubmission .grades db saId).settles
  cases h with
  | looked => exact hl
  | latest hs => exact hl.trans hs.settles
  | opened ho hs => exact (hl.trans ho.settles).trans hs.settles

theorem Uploaded.settles {saId : ℕ} {check : CheckResult} (h : Uploaded db saId check db') : db.Settles db' := by
  cases h with
  | queued ha => exact ha.settles.trans (settles_of_same rfl rfl)
  | checked ha _ _ _ hc => exact ha.settles.trans hc.finalizes.within.settles

theorem Decided.settles {i : ℕ} {action : ReviewAction} (h : Decided db i action db') : db.Settles db' := by
  cases h with
  | approved =>
    have hset : db.Settles (db.setSubmission i ({ · with status := .completed })) := settles_of_same rfl rfl
    exact hset.trans (within_finalizeGrade _ i).settles
  | sentQuiz => exact settles_of_same rfl rfl
  | rejected => exact settles_of_same rfl rfl

theorem Requeued.settles {i : ℕ} (h : Requeued db i db') : db.Settles db' := by
  cases h with
  | mk => exact settles_of_same rfl rfl

theorem Granted.settles {i t : ℕ} (h : Granted db i t db') : db.Settles db' := by
  cases h with
  | mk => exact settles_of_same rfl rfl

theorem Saved.settles {asgId t : ℕ} (h : Saved db asgId t db') : db.Settles db' := by
  have hset : ∀ (e : Db) (i : ℕ) (f : Submission → Submission), e.Settles (e.setSubmission i f) :=
    fun _ _ _ => settles_of_same rfl rfl
  cases h with
  | written w => exact w.settles
  | completed w => exact (w.settles.trans (hset _ _ _)).trans (within_finalizeGrade _ _).settles
  | regraded w => exact w.settles.trans (within_finalizeGrade _ _).settles

theorem settles_ruledDb (db : Db) (d c v q : ℕ) (note : String) : db.Settles (db.ruledDb d c v q note) := by
  unfold Db.ruledDb Db.addOverride
  split_ifs <;> exact settles_of_same rfl rfl

theorem StepSpec.settles {op : Op} (h : StepSpec db op db') : db.Settles db' := by
  cases h with
  | same => exact .refl db
  | upload h => exact h.settles
  | check _ h => exact h.finalizes.within.settles.trans (settles_of_same rfl rfl)
  | aiReview _ h => exact h.finalizes.within.settles.trans (settles_of_same rfl rfl)
  | retry => exact settles_of_same rfl rfl
  | skip => exact settles_of_same rfl rfl
  | review h => exact h.settles
  | rerun h => exact h.settles
  | start h => exact h.settles
  | quiz _ h => exact h.settles
  | report => exact settles_of_same rfl rfl
  | ruled => exact (settles_ruledDb db _ _ _ _ _).trans (within_advancedAll _ _).settles
  | closed => exact settles_of_same rfl rfl
  | grant h => exact h.settles
  | scores h => exact h.settles
  | unenroll => exact settles_of_same rfl rfl
  | tick => exact settles_of_same rfl rfl

theorem settles_step (db : Db) (op : Op) : db.Settles (db.step op) := (step_spec db op).settles

end

end SubmissionsChecker
