import SubmissionsChecker.Sessions.SyncRuns
import Mathlib.Data.List.Chain
import Mathlib.Tactic.Positivity
import Mathlib.Tactic.FieldSimp

/-! The percentages of a sync. The last update of an assignment counts it among the done ones and its submissions as a
part of the next: the panel is one assignment ahead, and falls back when the next one is listed. -/

namespace SubmissionsChecker

namespace ClassroomSync

/-! Updates -/

/-- What of an update the panel and the claim about it read. -/
structure View where
  done : ℕ
  subsTotal : ℕ
  subsDone : ℕ
  pending : Bool

def Tick.view (t : Tick) : View :=
  ⟨t.progress.assignmentsDone, t.progress.submissionsTotal, t.progress.submissionsDone, t.pending⟩

/-- No kept submission meets a revoked grant. -/
def Listing.finishes : Listing → Bool
  | .listed submissions => (kept submissions).all (·.ingested != .revoked)
  | .failed => true
  | .revoked => false

/-- The submissions processed before a revoked grant. -/
def processed (subs : List SubmissionRef) : ℕ := (subs.takeWhile (·.ingested != .revoked)).length

/-- The updates of the assignments from an index on. -/
def views : ℕ → List Listing → List View
  | _, [] => []
  | _, .revoked :: _ => []
  | index, .failed :: rest => ⟨index + 1, 0, 0, !rest.isEmpty⟩ :: views (index + 1) rest
  | index, .listed submissions :: rest =>
    let subs := kept submissions
    (List.range (processed subs + 1)).map (fun j => ⟨index, subs.length, j, !rest.isEmpty || decide (j < subs.length)⟩) ++
      if subs.all (·.ingested != .revoked) then
        ⟨index + 1, subs.length, subs.length, !rest.isEmpty⟩ :: views (index + 1) rest
      else []

section

variable {later : Bool} {total index subsTotal done : ℕ} {report : IngestReport} {subs : List SubmissionRef}
  {assignments : List Listing}

theorem processed_cons {sub : SubmissionRef} (h : sub.ingested ≠ .revoked) :
    processed (sub :: subs) = processed subs + 1 := by
  have hnot : (sub.ingested != .revoked) = true := by simpa using h
  unfold processed
  rw [List.takeWhile_cons, if_pos hnot, List.length_cons]

theorem submissionTicks_view : (submissionTicks later total index subsTotal done report subs).1.map Tick.view =
      (List.range' (done + 1) (processed subs)).map fun j =>
        ⟨index, subsTotal, j, later || decide (j < done + subs.length)⟩ := by
  induction subs generalizing done report with
  | nil => rfl
  | cons sub rest ih =>
    by_cases h : sub.ingested = .revoked
    · simp [submissionTicks, processed, h]
    · have hlast : decide (done + 1 < done + (sub :: rest).length) = !rest.isEmpty := by
        cases rest <;> simp
      have hstep : (submissionTicks later total index subsTotal done report (sub :: rest)).1 =
          ⟨(report.count sub.ingested).progress total index subsTotal (done + 1), later || !rest.isEmpty⟩ ::
            (submissionTicks later total index subsTotal (done + 1) (report.count sub.ingested) rest).1 := by
        rw [submissionTicks, if_neg h]
      rw [hstep, List.map_cons, ih, processed_cons h, List.range'_succ, List.map_cons, hlast]
      refine congrArg₂ List.cons rfl (List.map_congr_left fun j _ => ?_)
      rw [List.length_cons, Nat.add_assoc, Nat.add_comm 1]

theorem submissionTicks_final : (submissionTicks later total index subsTotal done report subs).2.isSome =
    subs.all (·.ingested != .revoked) := by
  induction subs generalizing done report with
  | nil => rfl
  | cons sub rest ih =>
    unfold submissionTicks
    by_cases h : sub.ingested = .revoked
    · simp [h]
    · rw [if_neg h, List.all_cons]
      dsimp only
      rw [ih]
      simp [h]

theorem submissionTicks_total {t : Tick} (ht : t ∈ (submissionTicks later total index subsTotal done report subs).1) :
    t.progress.assignmentsTotal = total := by
  induction subs generalizing done report with
  | nil => cases ht
  | cons sub rest ih =>
    unfold submissionTicks at ht
    split_ifs at ht with h
    · cases ht
    · rcases List.mem_cons.mp ht with rfl | ht
      · rfl
      · exact ih ht

theorem views_failed {rest : List Listing} :
    views index (.failed :: rest) = ⟨index + 1, 0, 0, !rest.isEmpty⟩ :: views (index + 1) rest := rfl

theorem views_listed {submissions : List SubmissionRef} {rest : List Listing} :
    views index (.listed submissions :: rest) =
      (List.range (processed (kept submissions) + 1)).map (fun j =>
        ⟨index, (kept submissions).length, j, !rest.isEmpty || decide (j < (kept submissions).length)⟩) ++
      if (Listing.listed submissions).finishes then
        ⟨index + 1, (kept submissions).length, (kept submissions).length, !rest.isEmpty⟩ :: views (index + 1) rest
      else [] := rfl

theorem assignmentTicks_view : (assignmentTicks total index report assignments).map Tick.view = views index assignments := by
  induction assignments generalizing index report with
  | nil => rfl
  | cons l rest ih =>
    cases l with
    | revoked => rfl
    | failed =>
      unfold assignmentTicks views
      rw [List.map_cons, ih]
      rfl
    | listed submissions =>
      have hview : ((submissionTicks (!rest.isEmpty) total index (kept submissions).length 0 report (kept submissions)).1).map
          Tick.view = _ := submissionTicks_view
      have hfinal : (submissionTicks (!rest.isEmpty) total index (kept submissions).length 0 report (kept submissions)).2.isSome
          = _ := submissionTicks_final
      have hzero : (!rest.isEmpty || decide (0 < (kept submissions).length)) = (!rest.isEmpty || !(kept submissions).isEmpty) := by
        cases kept submissions <;> simp
      unfold assignmentTicks views
      dsimp only
      rw [List.map_append, List.map_cons, hview, List.range_eq_range', List.range'_succ, List.map_cons, hzero, ← hfinal]
      refine congrArg₂ List.append (congrArg₂ List.cons rfl ?_) ?_
      · simp
      · rcases submissionTicks (!rest.isEmpty) total index (kept submissions).length 0 report (kept submissions) with ⟨ticks, final⟩
        cases final with
        | none => rfl
        | some report' =>
          dsimp only
          rw [List.map_cons, ih]
          rfl

theorem assignmentTicks_total {t : Tick} (ht : t ∈ assignmentTicks total index report assignments) :
    t.progress.assignmentsTotal = total := by
  induction assignments generalizing index report with
  | nil => cases ht
  | cons l rest ih =>
    cases l with
    | revoked => cases ht
    | failed =>
      unfold assignmentTicks at ht
      rcases List.mem_cons.mp ht with rfl | ht
      · rfl
      · exact ih ht
    | listed submissions =>
      unfold assignmentTicks at ht
      dsimp only at ht
      rcases List.mem_append.mp ht with ht | ht
      · rcases List.mem_cons.mp ht with rfl | ht
        · rfl
        · exact submissionTicks_total ht
      · split at ht
        · cases ht
        · rcases List.mem_cons.mp ht with rfl | ht
          · rfl
          · exact ih ht

end

/-! Percentages -/

/-- The part of the current assignment that an update claims. -/
def View.part (v : View) : ℚ := Binary64.nearest ((v.subsDone : ℚ) / v.subsTotal)

/-- The percentage of an update. -/
def View.percent (total : ℕ) (v : View) : ℤ := min (Rounding.halfEven (percentFloat total v.done v.part)) 100

/-- A whole number of assignments, in per cent. -/
def whole (total done : ℕ) : ℤ := min (Rounding.halfEven (percentFloat total done 0)) 100

section

variable {run : ClassroomSyncRun} {now total index n j k m : ℕ} {b : Bool} {v w : View} {x part part' : ℚ}
  {assignments rest : List Listing}

theorem nearest_one : Binary64.nearest 1 = 1 := by
  have h := Binary64.nearest_natCast (show 1 < 2 ^ 53 by norm_num)
  exact_mod_cast h

theorem percentFloat_mono (hpart : 0 ≤ part) (h : (k : ℚ) + part ≤ m + part') :
    percentFloat total k part ≤ percentFloat total m part' := by
  have hsum : 0 ≤ (k : ℚ) + part := by positivity
  have hnear := Binary64.nearest_mono hsum h
  have hhundred : 100 * Binary64.nearest (k + part) ≤ 100 * Binary64.nearest (m + part') := by linarith
  have hnonneg : 0 ≤ 100 * Binary64.nearest ((k : ℚ) + part) := by
    have := Binary64.nearest_nonneg hsum
    positivity
  have hscaled := Binary64.nearest_mono hnonneg hhundred
  have hscaled₀ := Binary64.nearest_nonneg hnonneg
  exact Binary64.nearest_mono (by positivity) (div_le_div_of_nonneg_right hscaled (by positivity))

theorem percentFloat_nonneg (hpart : 0 ≤ part) : 0 ≤ percentFloat total k part := by
  have hsum := Binary64.nearest_nonneg (show 0 ≤ (k : ℚ) + part by positivity)
  have hscaled := Binary64.nearest_nonneg (show 0 ≤ 100 * Binary64.nearest ((k : ℚ) + part) by positivity)
  exact Binary64.nearest_nonneg (by positivity)

theorem payloadPercent_updated (t : Tick) :
    payloadPercent (updated run t.progress) now = t.view.percent t.progress.assignmentsTotal := by
  have hshown : ((updated run t.progress).shown now).1 ≠ .done := by
    unfold ClassroomSyncRun.shown updated
    split_ifs <;> simp
  unfold payloadPercent View.percent View.part
  rw [if_neg hshown]
  unfold percentOf updated Tick.view
  dsimp only
  by_cases htotal : t.progress.assignmentsTotal = 0
  · simp [htotal, percentFloat, Binary64.nearest_zero, Rounding.halfEven]
  · rw [if_neg htotal]
    by_cases hsubs : t.progress.submissionsTotal = 0
    · simp [hsubs, Binary64.nearest_zero]
    · rw [if_neg hsubs]

theorem halfEven_lt_hundred : Rounding.halfEven x < 100 ↔ x < 199 / 2 := by
  constructor
  · intro h
    by_contra hx
    have hround : Rounding.halfEven (199 / 2 : ℚ) = 100 := by
      have hfloor : ⌊(199 / 2 : ℚ)⌋ = 99 := by
        rw [Int.floor_eq_iff]
        norm_num
      unfold Rounding.halfEven
      rw [hfloor]
      norm_num
    have hmono := Rounding.halfEven_mono (not_lt.mp hx)
    omega
  · intro h
    rcases Rounding.halfEven_eq_floor_or x with hn | ⟨hn, hhalf⟩
    · rw [hn, Int.floor_lt]
      push_cast
      linarith
    · rw [hn]
      have hfloor : (⌊x⌋ : ℚ) < 99 := by linarith
      have hint : ⌊x⌋ < 99 := by exact_mod_cast hfloor
      omega

theorem percent_lt_hundred : v.percent total < 100 ↔ percentFloat total v.done v.part < 199 / 2 := by
  unfold View.percent
  rw [min_lt_iff, halfEven_lt_hundred]
  exact or_iff_left (lt_irrefl 100)

theorem part_nonneg : 0 ≤ v.part := Binary64.nearest_nonneg (by positivity)

theorem part_le_one (h : v.subsDone ≤ v.subsTotal) : v.part ≤ 1 := by
  have hle : (v.subsDone : ℚ) / v.subsTotal ≤ 1 := div_le_one_of_le₀ (by exact_mod_cast h) (by positivity)
  have hmono := Binary64.nearest_mono (by positivity) hle
  rwa [nearest_one] at hmono

theorem percent_mono (h : (v.done : ℚ) + v.part ≤ w.done + w.part) : v.percent total ≤ w.percent total :=
  min_le_min_right _ (Rounding.halfEven_mono (percentFloat_mono part_nonneg h))

theorem part_start : (View.mk index n 0 b).part = 0 := by
  unfold View.part
  simp [Binary64.nearest_zero]

/-- An assignment after all of its submissions: one more, and as much again where it has any. -/
theorem percentFloat_end : percentFloat total (index + 1) (View.mk (index + 1) n n b).part =
    percentFloat total (index + 1 + if n = 0 then 0 else 1) 0 := by
  unfold View.part percentFloat
  dsimp only
  split_ifs with hn
  · simp [hn, Binary64.nearest_zero]
  · have hne : (n : ℚ) ≠ 0 := by exact_mod_cast hn
    rw [div_self hne, nearest_one]
    push_cast
    rw [add_zero]

theorem percent_start : (View.mk index n 0 b).percent total = whole total index := by
  unfold View.percent whole
  rw [part_start]

theorem percent_end : (View.mk (index + 1) n n b).percent total = whole total (index + 1 + if n = 0 then 0 else 1) := by
  unfold View.percent whole
  dsimp only
  rw [percentFloat_end]

theorem whole_zero : whole total 0 = 0 := by
  unfold whole percentFloat
  simp [Binary64.nearest_zero, Rounding.halfEven]

theorem whole_mono (h : k ≤ m) : whole total k ≤ whole total m := by
  have hcast : (k : ℚ) + 0 ≤ m + 0 := by simpa using h
  exact min_le_min_right _ (Rounding.halfEven_mono (percentFloat_mono le_rfl hcast))

end

/-! The condition -/

/-- The assignment that the last update of this one is ahead by. -/
def Listing.ahead : Listing → ℕ
  | .listed submissions => if kept submissions = [] then 0 else 1
  | _ => 0

/-- Nothing is shown as done while something is left, and the next assignment does not fall back. -/
structure SteadyAt (total index : ℕ) (l : Listing) (rest : List Listing) : Prop where
  submissions : ∀ subs, l = .listed subs → ∀ j ≤ processed (kept subs), rest ≠ [] ∨ j < (kept subs).length →
    percentFloat total index (Binary64.nearest ((j : ℚ) / (kept subs).length)) < 199 / 2
  ending : l.finishes = true → rest ≠ [] → percentFloat total (index + 1 + l.ahead) 0 < 199 / 2
  next : l.finishes = true → ∀ subs, rest.head? = some (.listed subs) →
    whole total (index + 1) = whole total (index + 1 + l.ahead)

/-- The assignments from an index on that are reached. -/
def SteadyFrom (total : ℕ) : ℕ → List Listing → Prop
  | _, [] => True
  | index, l :: rest => SteadyAt total index l rest ∧ (l.finishes = true → SteadyFrom total (index + 1) rest)

/-- The updates of a sync, as the panel shows them. -/
structure MovesForward (run : ClassroomSyncRun) (now : ℕ) (assignments : List Listing) : Prop where
  sorted : ((ingestTicks assignments).map fun t => payloadPercent (updated run t.progress) now).Pairwise (· ≤ ·)
  below : ∀ t ∈ ingestTicks assignments, t.pending = true → payloadPercent (updated run t.progress) now < 100
  bounded : ∀ t ∈ ingestTicks assignments, t.progress.assignmentsDone ≤ t.progress.assignmentsTotal ∧
    t.progress.submissionsDone ≤ t.progress.submissionsTotal

section

variable {run : ClassroomSyncRun} {now total index n j : ℕ} {b : Bool} {v w : View} {x : ℚ} {assignments rest : List Listing}
  {subs : List SubmissionRef}

theorem processed_le (subs : List SubmissionRef) : processed subs ≤ subs.length :=
  (List.takeWhile_sublist _).length_le

/-- The last update of an assignment against the first of the next. -/
theorem ending_le_iff :
    (∀ y ∈ ((views (index + 1) rest).map (View.percent total)).head?, (View.mk (index + 1) n n b).percent total ≤ y) ↔
      ∀ subs, rest.head? = some (.listed subs) →
        whole total (index + 1) = whole total (index + 1 + if n = 0 then 0 else 1) := by
  cases rest with
  | nil => simp [views]
  | cons r rest =>
    cases r with
    | revoked => simp [views]
    | failed =>
      have hnext : (View.mk (index + 1) n n b).percent total ≤
          (View.mk (index + 1 + 1) 0 0 (!rest.isEmpty)).percent total := by
        rw [percent_end, percent_start]
        refine whole_mono ?_
        split_ifs <;> omega
      simp [views, hnext]
    | listed subs =>
      have hhead : ((views (index + 1) (.listed subs :: rest)).map (View.percent total)).head? =
          some (whole total (index + 1)) := by
        unfold views
        dsimp only
        rw [List.range_succ_eq_map, List.map_cons, List.cons_append, List.map_cons, List.head?_cons, percent_start]
      rw [hhead, percent_end]
      simp only [Option.mem_def, Option.some_inj, forall_eq', List.head?_cons, Listing.listed.injEq]
      have hmono : whole total (index + 1) ≤ whole total (index + 1 + if n = 0 then 0 else 1) := whole_mono (by omega)
      constructor
      · exact fun hle => le_antisymm hmono hle
      · exact fun heq => heq.ge

/-- The updates after an assignment's submissions. -/
theorem ending_iff (total index n : ℕ) (rest : List Listing) :
    (List.IsChain (· ≤ ·) (((View.mk (index + 1) n n (!rest.isEmpty)) :: views (index + 1) rest).map (View.percent total)) ∧
      ∀ v ∈ (View.mk (index + 1) n n (!rest.isEmpty)) :: views (index + 1) rest,
        v.pending = true → v.percent total < 100) ↔
      (rest ≠ [] → percentFloat total (index + 1 + if n = 0 then 0 else 1) 0 < 199 / 2) ∧
      (∀ subs, rest.head? = some (.listed subs) →
        whole total (index + 1) = whole total (index + 1 + if n = 0 then 0 else 1)) ∧
      (List.IsChain (· ≤ ·) ((views (index + 1) rest).map (View.percent total)) ∧
        ∀ v ∈ views (index + 1) rest, v.pending = true → v.percent total < 100) := by
  rw [List.map_cons, List.isChain_cons, List.forall_mem_cons]
  have hpending : ((!rest.isEmpty) = true → (View.mk (index + 1) n n (!rest.isEmpty)).percent total < 100) ↔
      (rest ≠ [] → percentFloat total (index + 1 + if n = 0 then 0 else 1) 0 < 199 / 2) := by
    rw [percent_lt_hundred, percentFloat_end]
    simp
  constructor
  · rintro ⟨⟨hhead, hchain⟩, hlast, hbelow⟩
    exact ⟨hpending.mp hlast, ending_le_iff.mp hhead, hchain, hbelow⟩
  · rintro ⟨hlast, hnext, hchain, hbelow⟩
    exact ⟨⟨ending_le_iff.mpr hnext, hchain⟩, hpending.mpr hlast, hbelow⟩

/-- The updates of one assignment rise. -/
theorem rising (index n m : ℕ) (pending : ℕ → Bool) :
    List.IsChain (· ≤ ·) (((List.range m).map fun j => View.mk index n j (pending j)).map (View.percent total)) := by
  rw [List.isChain_iff_pairwise, List.pairwise_map, List.pairwise_map]
  refine List.pairwise_lt_range.imp fun {i j} hij => percent_mono ?_
  have hcast : (i : ℚ) ≤ j := by exact_mod_cast hij.le
  have hpart := Binary64.nearest_mono (show (0 : ℚ) ≤ (i : ℚ) / n by positivity)
    (div_le_div_of_nonneg_right hcast (by positivity))
  unfold View.part
  exact add_le_add_right hpart _

theorem views_steady :
    (List.IsChain (· ≤ ·) ((views index assignments).map (View.percent total)) ∧
      ∀ v ∈ views index assignments, v.pending = true → v.percent total < 100) ↔ SteadyFrom total index assignments := by
  induction assignments generalizing index with
  | nil => simp [views, SteadyFrom]
  | cons l rest ih =>
    unfold SteadyFrom
    rw [← ih]
    cases l with
    | revoked =>
      refine ⟨fun _ => ⟨⟨nofun, nofun, nofun⟩, nofun⟩, fun _ => ?_⟩
      simp [views]
    | failed =>
      have hend := ending_iff total index 0 rest
      rw [views_failed, hend]
      constructor
      · rintro ⟨hlast, hnext, hviews⟩
        exact ⟨⟨nofun, fun _ => hlast, fun _ => hnext⟩, fun _ => hviews⟩
      · rintro ⟨hat, hviews⟩
        exact ⟨hat.ending rfl, hat.next rfl, hviews rfl⟩
    | listed submissions =>
      set n := (kept submissions).length with hn
      have hahead : (if n = 0 then 0 else 1) = (Listing.listed submissions).ahead := by
        unfold Listing.ahead
        rw [hn]
        simp [List.length_eq_zero_iff]
      have hfront : (∀ v ∈ (List.range (processed (kept submissions) + 1)).map (fun j =>
          View.mk index n j (!rest.isEmpty || decide (j < n))), v.pending = true → v.percent total < 100) ↔
          ∀ j ≤ processed (kept submissions), rest ≠ [] ∨ j < n →
            percentFloat total index (Binary64.nearest ((j : ℚ) / n)) < 199 / 2 := by
        simp only [List.forall_mem_map, List.mem_range, Nat.lt_succ_iff, percent_lt_hundred, View.part]
        simp
      rw [views_listed, ← hn, List.map_append, List.isChain_append]
      by_cases hfinishes : (Listing.listed submissions).finishes = true
      · have hend := ending_iff total index n rest
        have hbridge : ∀ x ∈ (((List.range (processed (kept submissions) + 1)).map fun j =>
            View.mk index n j (!rest.isEmpty || decide (j < n))).map (View.percent total)).getLast?,
            x ≤ (View.mk (index + 1) n n (!rest.isEmpty)).percent total := by
          intro x hx
          obtain ⟨v, hv, rfl⟩ := List.mem_map.mp (List.mem_of_mem_getLast? hx)
          obtain ⟨j, hj, rfl⟩ := List.mem_map.mp hv
          have hjn : j ≤ n := (Nat.lt_succ_iff.mp (List.mem_range.mp hj)).trans (processed_le _)
          refine percent_mono ?_
          have hone : (View.mk index n j (!rest.isEmpty || decide (j < n))).part ≤ 1 := part_le_one hjn
          have hnonneg : 0 ≤ (View.mk (index + 1) n n (!rest.isEmpty)).part := part_nonneg
          dsimp only
          push_cast
          linarith
        rw [hahead] at hend
        rw [if_pos hfinishes]
        constructor
        · rintro ⟨⟨-, hchain, -⟩, hbelow⟩
          obtain ⟨hlast, hnext, hviews⟩ := hend.mp ⟨hchain, fun v hv => hbelow v (List.mem_append_right _ hv)⟩
          refine ⟨⟨?_, fun _ => hlast, fun _ => hnext⟩, fun _ => hviews⟩
          rintro subs hsubs
          cases hsubs
          exact hfront.mp fun v hv => hbelow v (List.mem_append_left _ hv)
        · rintro ⟨hat, hviews⟩
          obtain ⟨hchain, hbelow⟩ := hend.mpr ⟨hat.ending hfinishes, hat.next hfinishes, hviews hfinishes⟩
          refine ⟨⟨rising index n _ _, hchain, fun x hx y hy => ?_⟩, fun v hv => ?_⟩
          · rw [List.map_cons, List.head?_cons, Option.mem_some_iff] at hy
            rw [← hy]
            exact hbridge x hx
          · rcases List.mem_append.mp hv with hv | hv
            · exact hfront.mpr (hat.submissions submissions rfl) v hv
            · exact hbelow v hv
      · rw [if_neg hfinishes]
        constructor
        · rintro ⟨-, hbelow⟩
          refine ⟨⟨?_, fun h => absurd h hfinishes, fun h => absurd h hfinishes⟩, fun h => absurd h hfinishes⟩
          rintro subs hsubs
          cases hsubs
          exact hfront.mp fun v hv => hbelow v (List.mem_append_left _ hv)
        · rintro ⟨hat, -⟩
          refine ⟨⟨rising index n _ _, List.isChain_nil, fun _ _ _ h => absurd h (by simp)⟩, ?_⟩
          rw [List.append_nil]
          exact hfront.mpr (hat.submissions submissions rfl)

end

theorem views_bounded {total index : ℕ} {assignments : List Listing} (htotal : index + assignments.length ≤ total) :
    ∀ v ∈ views index assignments, v.done ≤ total ∧ v.subsDone ≤ v.subsTotal := by
  induction assignments generalizing index with
  | nil => exact fun v hv => absurd hv List.not_mem_nil
  | cons l rest ih =>
    rw [List.length_cons] at htotal
    have hrest := ih (show index + 1 + rest.length ≤ total by omega)
    intro v hv
    cases l with
    | revoked => cases hv
    | failed =>
      rcases List.mem_cons.mp hv with rfl | hv
      · exact ⟨by dsimp only; omega, le_refl 0⟩
      · exact hrest v hv
    | listed submissions =>
      rw [views_listed] at hv
      rcases List.mem_append.mp hv with hv | hv
      · obtain ⟨j, hj, rfl⟩ := List.mem_map.mp hv
        refine ⟨by dsimp only; omega, ?_⟩
        exact (Nat.lt_succ_iff.mp (List.mem_range.mp hj)).trans (processed_le _)
      · split_ifs at hv with hfinishes
        · rcases List.mem_cons.mp hv with rfl | hv
          · exact ⟨by dsimp only; omega, le_refl _⟩
          · exact hrest v hv
        · cases hv

/-- The percentages of a sync rise, and reach the end with it, exactly where no assignment with submissions to process
stands before a listed one that its last update already counts. -/
theorem movesForward_iff (run : ClassroomSyncRun) (now : ℕ) (assignments : List Listing) :
    MovesForward run now assignments ↔ SteadyFrom assignments.length 0 assignments := by
  have htotal : 0 + assignments.length ≤ assignments.length := by omega
  have hticks : (ingestTicks assignments).map Tick.view =
      ⟨0, 0, 0, !assignments.isEmpty⟩ :: views 0 assignments := by
    unfold ingestTicks
    rw [List.map_cons, assignmentTicks_view]
    rfl
  have htotals : ∀ t ∈ ingestTicks assignments, t.progress.assignmentsTotal = assignments.length := by
    intro t ht
    rcases List.mem_cons.mp ht with rfl | ht
    · rfl
    · exact assignmentTicks_total ht
  have hpercent : ∀ t ∈ ingestTicks assignments,
      payloadPercent (updated run t.progress) now = t.view.percent assignments.length := by
    intro t ht
    rw [payloadPercent_updated, htotals t ht]
  have hpercents : (ingestTicks assignments).map (fun t => payloadPercent (updated run t.progress) now) =
      0 :: (views 0 assignments).map (View.percent assignments.length) := by
    rw [List.map_congr_left hpercent]
    have hzero : (View.mk 0 0 0 (!assignments.isEmpty)).percent assignments.length = 0 := by
      rw [percent_start]
      exact whole_zero
    calc (ingestTicks assignments).map (fun t => t.view.percent assignments.length)
        = ((ingestTicks assignments).map Tick.view).map (View.percent assignments.length) := by rw [List.map_map]; rfl
      _ = _ := by rw [hticks, List.map_cons, hzero]
  have hnonneg : ∀ y ∈ ((views 0 assignments).map (View.percent assignments.length)).head?, 0 ≤ y := by
    intro y hy
    obtain ⟨v, -, rfl⟩ := List.mem_map.mp (List.mem_of_mem_head? hy)
    have hmono := Rounding.halfEven_mono (show ((0 : ℤ) : ℚ) ≤ percentFloat assignments.length v.done v.part by
      push_cast
      exact percentFloat_nonneg part_nonneg)
    rw [Rounding.halfEven_intCast] at hmono
    exact le_min hmono (by decide)
  have hsorted : ((ingestTicks assignments).map fun t => payloadPercent (updated run t.progress) now).Pairwise (· ≤ ·) ↔
      List.IsChain (· ≤ ·) ((views 0 assignments).map (View.percent assignments.length)) := by
    rw [hpercents, ← List.isChain_iff_pairwise, List.isChain_cons]
    exact and_iff_right hnonneg
  have hbelow : (∀ t ∈ ingestTicks assignments, t.pending = true → payloadPercent (updated run t.progress) now < 100) ↔
      ∀ v ∈ views 0 assignments, v.pending = true → v.percent assignments.length < 100 := by
    have hmem : ∀ v, v ∈ views 0 assignments ↔ ∃ t ∈ assignmentTicks assignments.length 0 {} assignments, t.view = v := by
      intro v
      rw [← List.mem_map, assignmentTicks_view]
    have htail : ∀ t ∈ assignmentTicks assignments.length 0 {} assignments, t ∈ ingestTicks assignments := fun t ht =>
      List.mem_cons_of_mem _ ht
    constructor
    · intro h v hv hpending
      obtain ⟨t, ht, rfl⟩ := (hmem v).mp hv
      rw [← hpercent t (htail t ht)]
      exact h t (htail t ht) hpending
    · intro h t ht hpending
      rcases List.mem_cons.mp ht with rfl | ht
      · rw [hpercent _ ht]
        change (View.mk 0 0 0 (!assignments.isEmpty)).percent assignments.length < 100
        rw [percent_start, whole_zero]
        decide
      · rw [hpercent t (htail t ht)]
        exact h t.view ((hmem _).mpr ⟨t, ht, rfl⟩) hpending
  have hbounded : ∀ t ∈ ingestTicks assignments, t.progress.assignmentsDone ≤ t.progress.assignmentsTotal ∧
      t.progress.submissionsDone ≤ t.progress.submissionsTotal := by
    intro t ht
    have hview : t.view ∈ (ingestTicks assignments).map Tick.view := List.mem_map_of_mem ht
    rw [htotals t ht]
    rw [hticks] at hview
    rcases List.mem_cons.mp hview with hview | hview
    · have hdone : t.progress.assignmentsDone = 0 := congrArg View.done hview
      have hsubs : t.progress.submissionsDone = 0 := congrArg View.subsDone hview
      rw [hdone, hsubs]
      exact ⟨Nat.zero_le _, Nat.zero_le _⟩
    · exact views_bounded htotal _ hview
  rw [← views_steady, ← hsorted, ← hbelow]
  exact ⟨fun h => ⟨h.sorted, h.below⟩, fun h => ⟨h.1, h.2, hbounded⟩⟩

def oneWork : Listing := .listed [⟨"TURNED_IN", ["report.pdf"], .newVersion⟩]

def freshRun : ClassroomSyncRun := { subjectId := 1, startedBy := 1, heartbeatAt := 0 }

/-- Two assignments with a submission each: 100 is shown while the second is still to be listed, then 50 again. -/
theorem second_assignment_falls_back :
    ((ingestTicks [oneWork, oneWork]).map fun t => payloadPercent (updated freshRun t.progress) 0) =
        [0, 0, 50, 100, 50, 100, 100] ∧
      ¬ MovesForward freshRun 0 [oneWork, oneWork] := by
  have hpercents : ((ingestTicks [oneWork, oneWork]).map fun t => payloadPercent (updated freshRun t.progress) 0) =
      [0, 0, 50, 100, 50, 100, 100] := by decide +kernel
  refine ⟨hpercents, fun h => ?_⟩
  have hsorted := h.sorted
  rw [hpercents] at hsorted
  exact absurd hsorted (by decide)

end ClassroomSync

end SubmissionsChecker
