import SubmissionsChecker.Effects.Configures
import SubmissionsChecker.Effects.Settles

/-! The squads of every reachable state. Nobody is left alone in a squad, except by an accept that
is refused: it cancels its invitation and does not look at the squad that sent it. -/

namespace SubmissionsChecker

open Runs

/-- The invitation is the last open one of a squad with one member, and its student is refused. -/
def Db.strandsInviter (isTest : ℕ → Bool) (db : Db) (t i : ℕ) : Bool :=
  match db.loadInvite i with
  | .error _ => false
  | .ok (inv, s) =>
    inv.invitedStudentId == t && (db.acceptRefusal isTest s t).isSome && s.lockedAt.isNone && s.members.length == 1 &&
      !(db.closeInvites [i]).hasPending inv.squadId

/-- An accept of such an invitation. -/
def Portal.LeavesAlone (isTest : ℕ → Bool) (p : Portal) : PortalOp → Prop
  | .squad (.accept x t i) => p.db.answersInvite x t i = true ∧ p.db.strandsInviter isTest t i = true
  | _ => False

instance Portal.decidableLeavesAlone (isTest : ℕ → Bool) (p : Portal) :
    (op : PortalOp) → Decidable (p.LeavesAlone isTest op)
  | .squad (.accept x t i) =>
    inferInstanceAs (Decidable (p.db.answersInvite x t i = true ∧ p.db.strandsInviter isTest t i = true))
  | .squad (.create _ _ _) | .squad (.decline _ _ _) | .squad (.cancel _ _ _) | .squad (.assign _ _) | .request _
  | .apply _ _ => inferInstanceAs (Decidable False)

structure Portal.WellFormed (p : Portal) : Prop where
  oneSquad : ∀ (q q' : ℕ) s s' t, p.db.squads[q]? = some s → p.db.squads[q']? = some s' →
    s.subjectId = s'.subjectId → t ∈ s.members → t ∈ s'.members → q = q'
  withinSize : ∀ (q : ℕ) s, p.db.squads[q]? = some s → s.members.length ≤ p.sizeAtJoin q
  settled : ∀ (q : ℕ) s, p.db.squads[q]? = some s → s.lockedAt.isSome = true →
    ∀ inv ∈ p.db.squadInvites, inv.squadId = q → inv.isPending = false
  nobodyAlone : ∀ (q : ℕ) s, p.db.squads[q]? = some s → s.lockedAt = none → s.members.length = 1 →
    ∃ inv ∈ p.db.squadInvites, inv.squadId = q ∧ inv.isPending = true

/-- What every step keeps. -/
structure Portal.Ok (p : Portal) : Prop where
  formed : p.db.Formed
  withinSize : ∀ q, Portal.sizeOf p.db q ≤ p.sizeAtJoin q

section

variable {isTest : ℕ → Bool} {p₀ p p' : Portal} {ops ops' : List PortalOp} {op : PortalOp}

theorem Portal.Ok.wellFormed (ok : p.Ok) (h : p.db.NobodyAloneBut []) : p.WellFormed where
  oneSquad := ok.formed.oneSquad
  withinSize q s hs := by
    rw [← sizeOf_some hs]
    exact ok.withinSize q
  settled q s hs hl inv hinv hq := by
    have hno := ok.formed.settled q s hs hl
    rw [Db.hasPending, List.any_eq_false] at hno
    simpa [hq] using hno inv hinv
  nobodyAlone q s hs hopen hone := by
    obtain ⟨i, inv, hi, hq, hp⟩ := hasPending_iff.mp (h q s hs hopen hone List.not_mem_nil)
    exact ⟨inv, List.mem_of_getElem? hi, hq, hp⟩

theorem Db.Configures.settles {db db' : Db} (h : db.Configures db') : db.Settles db' :=
  settles_of_same h.squads h.squadInvites

/-- Between squad requests the squads only settle. -/
theorem Portal.step_settles (isTest : ℕ → Bool) (p : Portal) (hop : ∀ o, op ≠ .squad o) :
    p.db.Settles (p.step isTest op).db ∧ (p.step isTest op).sizeAtJoin = p.sizeAtJoin := by
  cases op with
  | request op => exact ⟨settles_step p.db op, rfl⟩
  | squad op => exact absurd rfl (hop op)
  | apply x cfg =>
    unfold Portal.step
    dsimp only
    split
    · rename_i db' h
      exact ⟨(configures_applyConfig h).settles, rfl⟩
    · exact ⟨.refl p.db, rfl⟩

theorem Portal.Ok.step (ok : p.Ok) : (p.step isTest op).Ok := by
  by_cases hop : ∃ o, op = .squad o
  · obtain ⟨o, rfl⟩ := hop
    have hdone := squadStep_spec isTest p.db o
    refine ⟨hdone.formed ok.formed, fun q => ?_⟩
    have hrest := hdone.regroups.rest
    have hgrows := hdone.regroups.grows q
    change Portal.sizeOf (p.db.squadStep isTest o) q ≤ if Portal.sizeOf p.db q < Portal.sizeOf (p.db.squadStep isTest o) q
      then Portal.maxSizeOf (p.db.squadStep isTest o) q else p.sizeAtJoin q
    split_ifs with hgrew
    · cases hs : (p.db.squadStep isTest o).squads[q]? with
      | none => simp [Portal.sizeOf, hs]
      | some s =>
        rw [sizeOf_some hs] at hgrew ⊢
        rcases hgrows s hs with hle | ⟨size, hsize, hle⟩
        · omega
        · have hsame : (p.db.squadStep isTest o).maxSize s.subjectId = some size := by
            rw [hrest]
            exact hsize
          rw [Portal.maxSizeOf, hs, Option.bind_some, hsame, Option.getD_some]
          exact hle
    · exact (not_lt.mp hgrew).trans (ok.withinSize q)
  · obtain ⟨hsettles, hsame⟩ := Portal.step_settles isTest p (not_exists.mp hop)
    refine ⟨hsettles.formed ok.formed, fun q => ?_⟩
    rw [hsettles.size, hsame]
    exact ok.withinSize q

theorem nobodyAlone_step (ok : p.Ok) (h : p.db.NobodyAloneBut []) (hop : ¬ p.LeavesAlone isTest op) :
    (p.step isTest op).db.NobodyAloneBut [] := by
  by_cases hsquad : ∃ o, op = .squad o
  · obtain ⟨o, rfl⟩ := hsquad
    apply (squadStep_spec isTest p.db o).nobodyAlone ok.formed h
    rintro x t i inv s reason rfl hanswers hload ht hrefuse hopen hone
    by_contra hno
    rw [Bool.not_eq_true] at hno
    apply hop
    refine ⟨hanswers, ?_⟩
    simp [Db.strandsInviter, hload, ht, hrefuse, hopen, hone, hno]
  · exact (Portal.step_settles isTest p (not_exists.mp hsquad)).1.nobodyAlone h

/-- A locked squad stays locked, with the same members. -/
theorem locked_step {q : ℕ} {s : Squad} (hs : p.db.squads[q]? = some s) (hl : s.lockedAt.isSome = true) :
    ∃ s', (p.step isTest op).db.squads[q]? = some s' ∧ s'.lockedAt.isSome = true ∧ s'.subjectId = s.subjectId ∧
      s'.members = s.members := by
  by_cases hop : ∃ o, op = .squad o
  · obtain ⟨o, rfl⟩ := hop
    exact ⟨s, (squadStep_spec isTest p.db o).regroups.kept q s hs hl, hl, rfl, rfl⟩
  · obtain ⟨hsettles, -⟩ := Portal.step_settles isTest p (not_exists.mp hop)
    have hr := congrArg (fun l : List (ℕ × List ℕ) => l[q]?) hsettles.rosters
    simp only [List.getElem?_map, hs, Option.map_some] at hr
    obtain ⟨s', hs', -⟩ := Option.map_eq_some_iff.mp hr
    obtain ⟨s₀, hs₀, hx, hm, hkeep, -⟩ := hsettles.squad hs'
    rw [hs, Option.some_inj] at hs₀
    subst hs₀
    exact ⟨s', hs', hkeep hl, hx, hm⟩

theorem Portal.ok_of_run (hnone : p₀.db.squads = []) (hinvites : p₀.db.squadInvites = [])
    (h : Run (Portal.step isTest) Any p₀ ops p) : p.Ok := by
  refine h.invariant ⟨⟨?_, ?_, ?_⟩, fun q => ?_⟩ fun p op ok _ => ok.step
  · intro q q' s s' t hs
    rw [hnone] at hs
    cases hs
  · intro q s hs
    rw [hnone] at hs
    cases hs
  · intro inv hinv
    rw [hinvites] at hinv
    cases hinv
  · simp [Portal.sizeOf, hnone]

/-- Where no refused accept leaves anybody alone, every reachable state has its squads well
formed, and a squad once locked keeps its members. -/
theorem squads_well_formed (hnone : p₀.db.squads = []) (hinvites : p₀.db.squadInvites = [])
    (h : Run (Portal.step isTest) (fun p op => ¬ p.LeavesAlone isTest op) p₀ ops p)
    (h' : Run (Portal.step isTest) (fun p op => ¬ p.LeavesAlone isTest op) p ops' p') :
    p'.WellFormed ∧ ∀ (q : ℕ) s, p.db.squads[q]? = some s → s.lockedAt.isSome = true →
      ∃ s', p'.db.squads[q]? = some s' ∧ s'.lockedAt.isSome = true ∧ s'.members = s.members := by
  constructor
  · have hend := (h.append h').invariant (I := fun p => p.Ok ∧ p.db.NobodyAloneBut [])
      ⟨Portal.ok_of_run hnone hinvites (show Run (Portal.step isTest) Any p₀ [] p₀ from .nil), fun q s hs => by rw [hnone] at hs; cases hs⟩
      fun p op ok hop => ⟨ok.1.step, nobodyAlone_step ok.1 ok.2 hop⟩
    exact hend.1.wellFormed hend.2
  · intro q s hs hl
    refine h'.invariant (I := fun p => ∃ s', p.db.squads[q]? = some s' ∧ s'.lockedAt.isSome = true ∧
      s'.members = s.members) ⟨s, hs, hl, rfl⟩ ?_
    rintro p op ⟨s₁, hs₁, hl₁, hm₁⟩ -
    obtain ⟨s', hs', hl', -, hm'⟩ := locked_step hs₁ hl₁
    exact ⟨s', hs', hl', hm'.trans hm₁⟩

end

/-! An invitation that comes too late -/

/-- Three students of a subject with squads of up to three. -/
def threeStudents : Portal where
  db := { subjects := [{ squadMaxSize := some 3 }], subjectsStudents := {(0, 0), (0, 1), (0, 2)} }

/-- The second student forms a squad of their own before they answer the first. -/
def lateAnswer : List PortalOp :=
  [.squad (.create 0 0 [1]), .squad (.create 0 1 [2]), .squad (.accept 0 1 0)]

/-- The accept is refused and cancels the invitation: the first student is left alone. -/
theorem left_alone : ¬ ∀ (isTest : ℕ → Bool) (p₀ p : Portal) (ops : List PortalOp), p₀.db.squads = [] →
    p₀.db.squadInvites = [] → Run (Portal.step isTest) Any p₀ ops p → p.WellFormed := by
  intro hall
  have h := hall (fun _ => false) threeStudents _ lateAnswer rfl rfl (run_foldl _)
  have hsquad : (lateAnswer.foldl (Portal.step fun _ => false) threeStudents).db.squads[0]? =
      some { subjectId := 0, members := [0] } := by decide +kernel
  obtain ⟨inv, hinv, hq, hp⟩ := h.nobodyAlone 0 _ hsquad rfl rfl
  have hnone : ∀ inv ∈ (lateAnswer.foldl (Portal.step fun _ => false) threeStudents).db.squadInvites,
      inv.squadId = 0 → inv.isPending = false := by decide +kernel
  rw [hnone inv hinv hq] at hp
  cases hp

/-- Answered at once, the invitation makes a squad of two. -/
theorem accepted_in_time :
    let p := [PortalOp.squad (.create 0 0 [1]), .squad (.accept 0 1 0)].foldl (Portal.step fun _ => false) threeStudents
    p.WellFormed ∧ (p.db.squads.map (·.members)) = [[0, 1]] := by
  have hchecks : Checks (Portal.step fun _ => false) (fun p op => ¬ p.LeavesAlone (fun _ => false) op) threeStudents
      [PortalOp.squad (.create 0 0 [1]), .squad (.accept 0 1 0)] := by decide +kernel
  exact ⟨(squads_well_formed rfl rfl (run_of_checks hchecks) .nil).1, by decide +kernel⟩

end SubmissionsChecker
