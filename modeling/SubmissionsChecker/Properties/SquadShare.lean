import SubmissionsChecker.Library.BestOf
import SubmissionsChecker.Invariants.Scopes
import SubmissionsChecker.Portal
import SubmissionsChecker.Effects.GradeNow
import Mathlib.Algebra.BigOperators.Field

/-! The squad's share of the quiz: the mean over the members of their best passing attempt, in floats. The order of the
attempts does not matter, nor do attempts that cannot be a best, although sums of floats depend on their order: the
percentages are coarse enough for `sum` to lose nothing before its last rounding. The grade goes to every member alike. -/

namespace SubmissionsChecker

/-- What a row of `quiz_attempts` holds: a score from 0 to the maximum, in integer columns. -/
def QuizAttempt.stored (a : QuizAttempt) : Bool := a.scoreCheck && a.maxScore.all (· < 2 ^ 31)

/-- The percentage that a passing attempt counts for its student. -/
def QuizAttempt.counted (a : QuizAttempt) : Option (ℕ × ℚ) :=
  match a.passed, a.studentId, a.pct .floats with
  | true, some sid, some p => some (sid, p)
  | _, _, _ => none

/-- The percentages of the student's passing attempts. -/
def passingPcts (attempts : List QuizAttempt) (t : ℕ) : List ℚ :=
  attempts.filterMap fun a => if a.passed = true ∧ a.studentId = some t then a.pct .floats else none

/-- The students with such a percentage. -/
def passers (attempts : List QuizAttempt) : Finset ℕ :=
  (attempts.filterMap fun a => if a.passed = true ∧ (a.pct .floats).isSome then a.studentId else none).toFinset

/-- The best of them. -/
def bestPct (attempts : List QuizAttempt) (t : ℕ) : ℚ := ((passingPcts attempts t).max?).getD 0

/-- A percentage of whole numbers below `2 ^ 31`. -/
structure IsPercentage (p : ℚ) : Prop where
  nonneg : 0 ≤ p
  le : p ≤ 100
  float : Binary64.round p = p
  grid : Binary64.OnGrid (-77) p

section

variable {a b : QuizAttempt} {attempts attempts' : List QuizAttempt} {t : ℕ} {p : ℚ} {l l' : List ℚ}

/-! Percentages -/

theorem round_one : Binary64.round 1 = 1 := by
  exact_mod_cast Binary64.round_natCast (show 1 < 2 ^ 53 by decide)

theorem round_hundred : Binary64.round 100 = 100 := by
  exact_mod_cast Binary64.round_natCast (show 100 < 2 ^ 53 by decide)

/-- A share is rounded neither above one nor below the smallest one there is, which is more than a power of two. -/
theorem round_share {s m : ℤ} (hs : 0 < s) (hle : s ≤ m) (hm : m < 2 ^ 31) :
    (2 : ℚ) ^ (-31 : ℤ) ≤ Binary64.round ((s : ℚ) / m) ∧ Binary64.round ((s : ℚ) / m) ≤ 1 := by
  have hm0 : (0 : ℚ) < m := by exact_mod_cast hs.trans_le hle
  have hpow : (0 : ℚ) < 2 ^ (-31 : ℤ) := zpow_pos (by norm_num) _
  have hsmall : (2 : ℚ) ^ (-31 : ℤ) ≤ (s : ℚ) / m := by
    have hs1 : (1 : ℚ) ≤ s := by exact_mod_cast hs
    have hm31 : (m : ℚ) ≤ 2 ^ 31 := by exact_mod_cast hm.le
    rw [le_div_iff₀ hm0, zpow_neg, inv_mul_le_iff₀ (zpow_pos (by norm_num) _),
      show (2 : ℚ) ^ (31 : ℤ) = 2 ^ 31 from zpow_natCast 2 31]
    linarith
  have hkept : Binary64.round ((2 : ℚ) ^ (-31 : ℤ)) = 2 ^ (-31 : ℤ) := by
    refine Binary64.round_of_onGrid (k := -31) (by decide) ⟨1, by norm_num⟩ ?_
    rw [abs_of_pos hpow]
    exact zpow_lt_zpow_right₀ (by norm_num) (by decide)
  have hone : (s : ℚ) / m ≤ 1 := (div_le_one hm0).mpr (by exact_mod_cast hle)
  exact ⟨hkept.ge.trans (Binary64.round_mono hpow.le hsmall),
    (Binary64.round_mono (hpow.le.trans hsmall) hone).trans round_one.le⟩

theorem isPercentage_pct {s m : ℤ} (hs : 0 ≤ s) (hle : s ≤ m) (hm : m < 2 ^ 31) :
    IsPercentage (Arithmetic.floats.mul (Arithmetic.floats.div s m) 100) := by
  change IsPercentage (Binary64.round (Binary64.round ((s : ℚ) / m) * 100))
  rcases hs.eq_or_lt with rfl | hs
  · rw [Int.cast_zero, zero_div, Binary64.round_zero, zero_mul, Binary64.round_zero]
    exact ⟨le_rfl, by norm_num, Binary64.round_zero, Binary64.onGrid_zero⟩
  · obtain ⟨hlow, hhigh⟩ := round_share hs hle hm
    have hscaled : (2 : ℚ) ^ (-77 + 52 : ℤ) ≤ Binary64.round ((s : ℚ) / m) * 100 := by
      refine le_trans ?_ (mul_le_mul_of_nonneg_right hlow (by norm_num))
      norm_num
    have hnonneg := (zpow_pos (show (0 : ℚ) < 2 by norm_num) _).le.trans hscaled
    refine ⟨Binary64.round_nonneg hnonneg, ?_, Binary64.round_round _, Binary64.onGrid_round_of_le hscaled⟩
    exact (Binary64.round_mono hnonneg (by linarith)).trans round_hundred.le

/-- A stored score is a percentage of its maximum. -/
theorem isPercentage_of_stored (hc : a.stored = true) (hp : a.pct .floats = some p) : IsPercentage p := by
  unfold QuizAttempt.stored QuizAttempt.scoreCheck at hc
  unfold QuizAttempt.pct pct at hp
  rcases hs : a.score with _ | s
  · simp [hs] at hp
  · rcases hm : a.maxScore with _ | m
    · simp [hs, hm] at hp
    · rw [hs, hm, Bool.and_eq_true] at hc
      rw [hs, hm] at hp
      obtain ⟨h0, hle⟩ := of_decide_eq_true hc.1
      change (if (m : ℚ) ≤ 0 then none else some (Arithmetic.floats.mul (Arithmetic.floats.div s m) 100)) = some p at hp
      split_ifs at hp
      obtain rfl := Option.some.inj hp
      exact isPercentage_pct h0 hle (of_decide_eq_true hc.2)

/-- The floats' sum of up to 2500 percentages is the exact one, rounded. -/
theorem sum_percentages (h : ∀ q ∈ l, IsPercentage q) (hfew : l.length ≤ 2500) :
    Arithmetic.floats.sum l = Binary64.round l.sum := by
  have hsum := List.sum_le_card_nsmul l 100 fun q hq => (h q hq).le
  have hlen : (l.length : ℚ) ≤ 2500 := by exact_mod_cast hfew
  rw [nsmul_eq_mul] at hsum
  refine Binary64.sum_eq_round (g := -77) (k := 18) (by decide) (by decide)
    (fun q hq => ⟨(h q hq).nonneg, (h q hq).float, (h q hq).grid⟩) ?_ ?_
  · norm_num
    linarith
  · norm_num
    linarith

theorem setBest_eq (sid : ℕ) (p : ℚ) (best : List (ℕ × ℚ)) : setBest sid p best = Assoc.put sid p best := by
  induction best with
  | nil => rfl
  | cons m rest ih =>
    unfold setBest Assoc.put
    rw [ih]

theorem bestStep_eq (best : List (ℕ × ℚ)) (a : QuizAttempt) :
    bestStep .floats best a = a.counted.elim best (BestOf.offer (-1) best) := by
  unfold bestStep QuizAttempt.counted
  rcases a.passed with _ | _
  · rfl
  · rcases a.studentId with _ | sid
    · rfl
    · rcases a.pct .floats with _ | p
      · rfl
      · dsimp only [Option.elim_some]
        unfold BestOf.offer
        rw [setBest_eq]

theorem squadBest_eq (attempts : List QuizAttempt) :
    squadBest .floats attempts = BestOf.best (-1) (attempts.filterMap (·.counted)) := by
  have hfold : ∀ best, attempts.foldl (bestStep .floats) best = (attempts.filterMap (·.counted)).foldl (BestOf.offer (-1)) best := by
    induction attempts with
    | nil => exact fun _ => rfl
    | cons a attempts ih =>
      intro best
      rw [List.foldl_cons, ih, bestStep_eq, List.filterMap_cons]
      cases a.counted <;> rfl
  exact hfold []

theorem counted_eq_some : a.counted = some (t, p) ↔ a.passed = true ∧ a.studentId = some t ∧ a.pct .floats = some p := by
  unfold QuizAttempt.counted
  rcases a.passed with _ | _
  · simp
  · rcases a.studentId with _ | sid
    · simp
    · rcases a.pct .floats with _ | q <;> simp

theorem counted_above_floor (h : ∀ a ∈ attempts, a.stored = true) :
    ∀ e ∈ attempts.filterMap (·.counted), (-1 : ℚ) < e.2 := by
  intro e he
  obtain ⟨a, ha, hcounted⟩ := List.mem_filterMap.mp he
  have hp := (isPercentage_of_stored (h a ha) (counted_eq_some.mp hcounted).2.2).nonneg
  linarith

theorem valuesOf_counted (attempts : List QuizAttempt) (t : ℕ) :
    BestOf.valuesOf t (attempts.filterMap (·.counted)) = passingPcts attempts t := by
  unfold BestOf.valuesOf passingPcts
  induction attempts with
  | nil => rfl
  | cons a attempts ih =>
    rw [List.filterMap_cons, List.filterMap_cons, ← ih]
    unfold QuizAttempt.counted
    rcases a.passed with _ | _
    · simp
    · rcases a.studentId with _ | sid
      · simp
      · rcases a.pct .floats with _ | q
        · simp
        · by_cases hs : sid = t <;> simp [hs]

theorem mem_passers : t ∈ passers attempts ↔ passingPcts attempts t ≠ [] := by
  unfold passers passingPcts
  rw [List.mem_toFinset, List.mem_filterMap]
  constructor
  · rintro ⟨a, ha, hpass⟩
    split_ifs at hpass with hc
    obtain ⟨q, hq⟩ := Option.isSome_iff_exists.mp hc.2
    exact List.ne_nil_of_mem (List.mem_filterMap.mpr ⟨a, ha, by rw [if_pos ⟨hc.1, hpass⟩, hq]⟩)
  · intro hne
    obtain ⟨q, hq⟩ := List.exists_mem_of_ne_nil _ hne
    obtain ⟨a, ha, hpass⟩ := List.mem_filterMap.mp hq
    split_ifs at hpass with hc
    exact ⟨a, ha, by rw [if_pos ⟨hc.1, by rw [hpass]; rfl⟩, hc.2]⟩

/-- The table holds the best of each student with a percentage. -/
theorem mem_squadBest (h : ∀ a ∈ attempts, a.stored = true) :
    (t, p) ∈ squadBest .floats attempts ↔ t ∈ passers attempts ∧ p = bestPct attempts t := by
  have hkeys := BestOf.nodup_best (-1 : ℚ) (attempts.filterMap (·.counted))
  have hlook := BestOf.lookup_best (counted_above_floor h) t
  rw [valuesOf_counted, ← squadBest_eq] at hlook
  rw [← squadBest_eq] at hkeys
  have hmem : (t, p) ∈ squadBest .floats attempts ↔ (squadBest .floats attempts).lookup t = some p :=
    ⟨Assoc.lookup_of_mem hkeys, Assoc.mem_of_lookup⟩
  rw [hmem, hlook, mem_passers, bestPct]
  cases hm : (passingPcts attempts t).max? with
  | none =>
    rw [List.max?_eq_none_iff] at hm
    simp [hm]
  | some m =>
    have hne : passingPcts attempts t ≠ [] := List.ne_nil_of_mem (List.max?_mem hm)
    simp [hne, eq_comm]

theorem squadBest_perm (h : ∀ a ∈ attempts, a.stored = true) :
    (squadBest .floats attempts).Perm ((passers attempts).toList.map fun t => (t, bestPct attempts t)) := by
  have hkeys := BestOf.nodup_best (-1 : ℚ) (attempts.filterMap (·.counted))
  rw [← squadBest_eq] at hkeys
  have hinj : Function.Injective fun t => (t, bestPct attempts t) := fun _ _ hab => (Prod.mk.inj hab).1
  rw [List.perm_ext_iff_of_nodup hkeys.of_map ((Finset.nodup_toList _).map hinj)]
  rintro ⟨t, p⟩
  rw [mem_squadBest h, List.mem_map]
  constructor
  · rintro ⟨ht, rfl⟩
    exact ⟨t, Finset.mem_toList.mpr ht, rfl⟩
  · rintro ⟨t', ht', heq⟩
    obtain ⟨rfl, rfl⟩ := Prod.mk.inj heq
    exact ⟨Finset.mem_toList.mp ht', rfl⟩

theorem bestPct_mem (ht : t ∈ passers attempts) : bestPct attempts t ∈ passingPcts attempts t := by
  unfold bestPct
  cases hm : (passingPcts attempts t).max? with
  | none =>
    rw [List.max?_eq_none_iff] at hm
    exact absurd hm (mem_passers.mp ht)
  | some m => exact List.max?_mem hm

theorem isPercentage_bestPct (h : ∀ a ∈ attempts, a.stored = true) (ht : t ∈ passers attempts) :
    IsPercentage (bestPct attempts t) := by
  obtain ⟨a, ha, hbest⟩ := List.mem_filterMap.mp (bestPct_mem ht)
  split_ifs at hbest
  exact isPercentage_of_stored (h a ha) hbest

theorem length_squadBest (h : ∀ a ∈ attempts, a.stored = true) :
    (squadBest .floats attempts).length = (passers attempts).card := by
  rw [(squadBest_perm h).length_eq, List.length_map, Finset.length_toList]

theorem isPercentage_of_squadBest (h : ∀ a ∈ attempts, a.stored = true) :
    ∀ q ∈ (squadBest .floats attempts).map Prod.snd, IsPercentage q := by
  intro q hq
  obtain ⟨e, he, rfl⟩ := List.mem_map.mp hq
  obtain ⟨ht, heq⟩ := (mem_squadBest h).mp he
  rw [heq]
  exact isPercentage_bestPct h ht

/-- The mean over the students with a percentage of their best: the sum and the quotient are each rounded once. -/
theorem squadQuizPct_mean (h : ∀ a ∈ attempts, a.stored = true) (hfew : (passers attempts).card ≤ 2500) :
    (squadQuizPct .floats attempts).1 = if passers attempts = ∅ then none
      else some (Binary64.round (Binary64.round (∑ t ∈ passers attempts, bestPct attempts t) / (passers attempts).card)) := by
  have hlen := length_squadBest h
  have hnil : squadBest .floats attempts = [] ↔ passers attempts = ∅ := by
    rw [← List.length_eq_zero_iff, hlen, Finset.card_eq_zero]
  have hexact : ((squadBest .floats attempts).map Prod.snd).sum = ∑ t ∈ passers attempts, bestPct attempts t := by
    rw [((squadBest_perm h).map Prod.snd).sum_eq, List.map_map, Finset.sum_eq_multiset_sum, ← Finset.coe_toList]
    rfl
  have hsum := sum_percentages (isPercentage_of_squadBest h) (by rw [List.length_map, hlen]; exact hfew)
  rw [hexact] at hsum
  unfold squadQuizPct
  dsimp only
  by_cases hn : squadBest .floats attempts = []
  · rw [if_pos hn, if_pos (hnil.mp hn)]
  · rw [if_neg hn, if_neg (mt hnil.mpr hn), hsum, hlen]
    rfl

/-- The same table, but for the order of its keys, gives the same answer. -/
theorem squadQuizPct_congr (h : ∀ a ∈ attempts, a.stored = true) (hfew : (passers attempts).card ≤ 2500)
    (hp : (squadBest .floats attempts').Perm (squadBest .floats attempts)) :
    squadQuizPct .floats attempts' = squadQuizPct .floats attempts := by
  have hnil : squadBest .floats attempts' = [] ↔ squadBest .floats attempts = [] :=
    ⟨fun hn => (hn ▸ hp).nil_eq.symm, fun hn => (hn ▸ hp).eq_nil⟩
  unfold squadQuizPct
  dsimp only
  by_cases hn : squadBest .floats attempts = []
  · rw [if_pos hn, if_pos (hnil.mpr hn)]
  · have hvalues := hp.map Prod.snd
    have hpct := isPercentage_of_squadBest h
    have hlen : ((squadBest .floats attempts).map Prod.snd).length ≤ 2500 := by
      rw [List.length_map, length_squadBest h]
      exact hfew
    have hsum : Arithmetic.floats.sum ((squadBest .floats attempts').map Prod.snd) =
        Arithmetic.floats.sum ((squadBest .floats attempts).map Prod.snd) := by
      rw [sum_percentages hpct hlen, sum_percentages (fun q hq => hpct q (hvalues.mem_iff.mp hq)) (hvalues.length_eq.trans_le hlen),
        hvalues.sum_eq]
    have hsorted : (squadBest .floats attempts').insertionSort (fun a b => a.1 ≤ b.1) =
        (squadBest .floats attempts).insertionSort fun a b => a.1 ≤ b.1 := by
      have hsort := ((List.perm_insertionSort (fun a b : ℕ × ℚ => a.1 ≤ b.1) _).trans hp).trans
        (List.perm_insertionSort (fun a b : ℕ × ℚ => a.1 ≤ b.1) _).symm
      refine hsort.eq_of_pairwise ?_ (List.pairwise_insertionSort _ _) (List.pairwise_insertionSort _ _)
      intro e e' he he' hle hle'
      -- one entry a student
      have hmem : e ∈ squadBest .floats attempts := hp.mem_iff.mp ((List.perm_insertionSort _ _).mem_iff.mp he)
      have hmem' : e' ∈ squadBest .floats attempts := (List.perm_insertionSort _ _).mem_iff.mp he'
      rw [squadBest_eq] at hmem hmem'
      have hkeys := BestOf.nodup_best (-1 : ℚ) (attempts.filterMap (·.counted))
      have hlook := Assoc.lookup_of_mem hkeys hmem
      rw [le_antisymm hle hle', Assoc.lookup_of_mem hkeys hmem', Option.some_inj] at hlook
      exact Prod.ext (le_antisymm hle hle') hlook.symm
    rw [if_neg hn, if_neg (mt hnil.mp hn), hsum, hp.length_eq, hsorted]

/-- The order of the attempts does not matter, nor does one that counts for nobody. -/
theorem squadQuizPct_perm (h : ∀ a ∈ attempts, a.stored = true) (hfew : (passers attempts).card ≤ 2500)
    (hp : (attempts'.filterMap (·.counted)).Perm (attempts.filterMap (·.counted))) :
    squadQuizPct .floats attempts' = squadQuizPct .floats attempts := by
  refine squadQuizPct_congr h hfew ?_
  rw [squadBest_eq, squadBest_eq]
  exact BestOf.best_perm (fun e he => counted_above_floor h e (hp.mem_iff.mp he)) hp

/-- Nor does one no better than another of the student. -/
theorem squadQuizPct_of_le (h : ∀ a ∈ attempts, a.stored = true) (hfew : (passers attempts).card ≤ 2500) {q : ℚ}
    (hmem : (t, q) ∈ attempts.filterMap (·.counted)) (hp : 0 ≤ p) (hle : p ≤ q)
    (hperm : (attempts'.filterMap (·.counted)).Perm ((t, p) :: attempts.filterMap (·.counted))) :
    squadQuizPct .floats attempts' = squadQuizPct .floats attempts := by
  have hfloor := counted_above_floor h
  have hnew : ∀ e ∈ (t, p) :: attempts.filterMap (·.counted), (-1 : ℚ) < e.2 :=
    List.forall_mem_cons.mpr ⟨by linarith, hfloor⟩
  refine squadQuizPct_congr h hfew ?_
  rw [squadBest_eq, squadBest_eq]
  exact (BestOf.best_perm (fun e he => hnew e (hperm.mem_iff.mp he)) hperm).trans
    (BestOf.best_cons_of_le hfloor (by linarith) hmem hle)

/-! The rows it is written to -/

/-- Every row of a member is a target: it was there, or was made on the way. -/
theorem mem_targets {db : Db} (hunique : db.UniqueRows) (members : List ℕ) (asgId : ℕ) {r : ℕ} {row : StudentAssignment}
    (hrow : (db.memberSaIds members asgId).1.studentsAssignments[r]? = some row) (hmember : row.studentId ∈ members)
    (hasg : row.subjectsAssignmentId = asgId) : r ∈ (db.memberSaIds members asgId).2 := by
  obtain ⟨r', hr', row', hrow', hst', hasg'⟩ := memberSaIds_covers members asgId db row.studentId hmember
  have hunique' := (within_memberSaIds .grades members asgId db).unique hunique
  rw [hunique' r r' row row' hrow hrow' hst'.symm (hasg.trans hasg'.symm)]
  exact hr'

/-- A call that computes a grade gives it to every member. -/
theorem finalizeGrade_members {db : Db} {i : ℕ} {sub : Submission} {sa : StudentAssignment} {squad : Squad}
    {breakdown : GradeBreakdown} (hunique : db.UniqueRows) (hsub : db.submissions[i]? = some sub)
    (hsa : db.studentsAssignments[sub.studentsAssignmentId]? = some sa) (hsquad : db.squadForSubmission i = some squad)
    (hgrade : db.gradeNow i = some breakdown) :
    (∀ m ∈ squad.members, ∃ r : ℕ, ∃ row, (db.finalizeGrade i).studentsAssignments[r]? = some row ∧ row.studentId = m ∧
      row.subjectsAssignmentId = sa.subjectsAssignmentId) ∧
    ∀ (r : ℕ) row, (db.finalizeGrade i).studentsAssignments[r]? = some row → row.studentId ∈ squad.members →
      row.subjectsAssignmentId = sa.subjectsAssignmentId → row.grade = some breakdown.grade := by
  have htargets : db.gradeTargets i sub.studentsAssignmentId sa.subjectsAssignmentId =
      db.memberSaIds squad.members sa.subjectsAssignmentId := by
    unfold Db.gradeTargets
    rw [hsquad]
  have hrows : ∀ r : ℕ, (db.finalizeGrade i).studentsAssignments[r]? =
      ((db.memberSaIds squad.members sa.subjectsAssignmentId).1.studentsAssignments[r]?).map fun row =>
        if r ∈ (db.memberSaIds squad.members sa.subjectsAssignmentId).2 then { row with grade := some breakdown.grade }
        else row := by
    intro r
    have heq := finalizeGrade_eq db i
    simp only [hgrade, hsub, hsa] at heq
    rw [heq, Db.setSubmission_studentsAssignments, writeGrades_rows, htargets]
  constructor
  · intro m hm
    obtain ⟨r, hr, row, hrow, hst, hasg⟩ := memberSaIds_covers squad.members sa.subjectsAssignmentId db m hm
    refine ⟨r, _, by rw [hrows, hrow, Option.map_some], ?_, ?_⟩
    · rw [if_pos hr]
      exact hst
    · rw [if_pos hr]
      exact hasg
  · intro r row hrow hmember hasg
    rw [hrows, Option.map_eq_some_iff] at hrow
    obtain ⟨row₁, hrow₁, rfl⟩ := hrow
    have hr : r ∈ (db.memberSaIds squad.members sa.subjectsAssignmentId).2 := by
      refine mem_targets hunique squad.members sa.subjectsAssignmentId hrow₁ ?_ ?_
      · split_ifs at hmember <;> exact hmember
      · split_ifs at hasg <;> exact hasg
    rw [if_pos hr]

/-- The squad's share is the mean of the bests, whatever the order of the attempts and whatever cannot be a best; and
`finalize_grade` either computes no grade and changes nothing, or gives every member the same. -/
theorem squad_grade_shared {attempts : List QuizAttempt} (hstored : ∀ a ∈ attempts, a.stored = true)
    (hfew : (passers attempts).card ≤ 2500) {db : Db} {i : ℕ}
    {sub : Submission} {sa : StudentAssignment} {squad : Squad} (hunique : db.UniqueRows)
    (hsub : db.submissions[i]? = some sub) (hsa : db.studentsAssignments[sub.studentsAssignmentId]? = some sa)
    (hsquad : db.squadForSubmission i = some squad) :
    ((squadQuizPct .floats attempts).1 = if passers attempts = ∅ then none
      else some (Binary64.round (Binary64.round (∑ t ∈ passers attempts, bestPct attempts t) / (passers attempts).card))) ∧
    (∀ attempts', attempts'.Perm attempts → squadQuizPct .floats attempts' = squadQuizPct .floats attempts) ∧
    (∀ a attempts', a.passed = false → attempts'.Perm (a :: attempts) →
      squadQuizPct .floats attempts' = squadQuizPct .floats attempts) ∧
    (∀ a attempts' t p q, a.stored = true → a.passed = true → a.studentId = some t → a.pct .floats = some p →
      q ∈ passingPcts attempts t → p ≤ q → attempts'.Perm (a :: attempts) →
        squadQuizPct .floats attempts' = squadQuizPct .floats attempts) ∧
    (db.gradeNow i = none → db.finalizeGrade i = db) ∧
    ∀ breakdown, db.gradeNow i = some breakdown →
      (∀ m ∈ squad.members, ∃ r : ℕ, ∃ row, (db.finalizeGrade i).studentsAssignments[r]? = some row ∧
        row.studentId = m ∧ row.subjectsAssignmentId = sa.subjectsAssignmentId) ∧
      ∀ (r : ℕ) row, (db.finalizeGrade i).studentsAssignments[r]? = some row → row.studentId ∈ squad.members →
        row.subjectsAssignmentId = sa.subjectsAssignmentId → row.grade = some breakdown.grade := by
  refine ⟨squadQuizPct_mean hstored hfew, fun attempts' hp => squadQuizPct_perm hstored hfew (hp.filterMap _), ?_, ?_,
    finalizeGrade_none, fun breakdown hgrade => finalizeGrade_members hunique hsub hsa hsquad hgrade⟩
  · intro a attempts' hfailed hp
    have hn : a.counted = none := by
      unfold QuizAttempt.counted
      rw [hfailed]
    refine squadQuizPct_perm hstored hfew ?_
    have hcounted := hp.filterMap (·.counted)
    rwa [List.filterMap_cons_none hn] at hcounted
  · intro a attempts' t p q ha hpassed hst hpct hq hle hp
    obtain ⟨b, hb, hbest⟩ := List.mem_filterMap.mp hq
    split_ifs at hbest with hc
    refine squadQuizPct_of_le hstored hfew (List.mem_filterMap.mpr ⟨b, hb, counted_eq_some.mpr ⟨hc.1, hc.2, hbest⟩⟩)
      (isPercentage_of_stored ha hpct).nonneg hle ?_
    have hcounted := hp.filterMap (·.counted)
    rwa [List.filterMap_cons_some (counted_eq_some.mpr ⟨hpassed, hst, hpct⟩)] at hcounted

end

def passedWith (studentId : ℕ) (score maxScore : ℤ) : QuizAttempt :=
  { submissionId := 0, studentId := some studentId, score := some score, maxScore := some maxScore, isPassed := some true,
    status := .completed }

def fortyAndSixty : GradingConfig :=
  { quizPoints := some 40, teacherCriteria := [⟨"defence", "Defence", 60, false⟩] }

/-- A squad whose two members passed; one of them had a grade for work of their own. -/
def bothPassed (reviewMode : Option ReviewMode) : Db :=
  { subjectsAssignments := [{ subjectId := 0, code := some "A", config := { reviewMode, grading := fortyAndSixty } }]
    squads := [{ subjectId := 0, members := [0, 1], lockedAt := some 0 }]
    studentsAssignments := [{ studentId := 0, subjectsAssignmentId := 0, grade := some 61 },
      { studentId := 1, subjectsAssignmentId := 0 }]
    submissions := [{ studentsAssignmentId := 0, squadId := some 0 }]
    quizAttempts := [passedWith 0 1 3, passedWith 1 3 3] }

theorem bothPassed_unique (reviewMode : Option ReviewMode) : (bothPassed reviewMode).UniqueRows := by
  intro r r' row row' hrow hrow' hst _
  have hbound : ∀ {k : ℕ} {row : StudentAssignment}, (bothPassed reviewMode).studentsAssignments[k]? = some row →
      row.studentId = k := by
    intro k row hk
    match k, hk with
    | 0, hk =>
      cases hk
      rfl
    | 1, hk =>
      cases hk
      rfl
  rw [← hbound hrow, ← hbound hrow', hst]

/-- The mean of a third and a whole is rounded; and while the teacher's half is missing, `finalize_grade` leaves the rows
of the members as they are. -/
theorem mean_rounded_and_half_missing :
    (¬ ∀ attempts : List QuizAttempt, (∀ a ∈ attempts, a.stored = true) → (squadQuizPct .floats attempts).1 =
      if passers attempts = ∅ then none
      else some ((∑ t ∈ passers attempts, bestPct attempts t) / (passers attempts).card)) ∧
    ¬ ∀ (db : Db) (i : ℕ) (sub : Submission) (sa : StudentAssignment) (squad : Squad),
      db.UniqueRows → db.submissions[i]? = some sub → db.studentsAssignments[sub.studentsAssignmentId]? = some sa →
      db.squadForSubmission i = some squad →
      ∃ grade, ∀ (r : ℕ) row, (db.finalizeGrade i).studentsAssignments[r]? = some row → row.studentId ∈ squad.members →
        row.subjectsAssignmentId = sa.subjectsAssignmentId → row.grade = grade := by
  refine ⟨fun hall => ?_, fun hall => ?_⟩
  · exact absurd (hall [passedWith 0 1 3, passedWith 1 3 3] (by decide +kernel)) (by decide +kernel)
  · obtain ⟨grade, hgrade⟩ := hall (bothPassed (some .quizAndTeacherScores)) 0 { studentsAssignmentId := 0, squadId := some 0 }
      { studentId := 0, subjectsAssignmentId := 0, grade := some 61 }
      { subjectId := 0, members := [0, 1], lockedAt := some 0 } (bothPassed_unique _) rfl rfl rfl
    have hrows : ((bothPassed (some .quizAndTeacherScores)).finalizeGrade 0).studentsAssignments =
        (bothPassed (some .quizAndTeacherScores)).studentsAssignments := by decide +kernel
    rw [hrows] at hgrade
    have h₀ := hgrade 0 _ rfl (by decide) rfl
    have h₁ := hgrade 1 _ rfl (by decide) rfl
    rw [← h₁] at h₀
    cases h₀

/-- A third and a whole have the same mean in either order, and both members get the grade. -/
theorem bothPassed_shared :
    squadQuizPct .floats [passedWith 1 3 3, passedWith 0 1 3] = squadQuizPct .floats [passedWith 0 1 3, passedWith 1 3 3] ∧
    ∃ grade, ∀ (r : ℕ) row, ((bothPassed (some .testsThenQuiz)).finalizeGrade 0).studentsAssignments[r]? = some row →
      row.studentId ∈ [0, 1] → row.subjectsAssignmentId = 0 → row.grade = some grade := by
  have hstored : ∀ a ∈ [passedWith 0 1 3, passedWith 1 3 3], a.stored = true := by decide +kernel
  have hfew : (passers [passedWith 0 1 3, passedWith 1 3 3]).card ≤ 2500 := by decide +kernel
  have hsquad : (bothPassed (some .testsThenQuiz)).squadForSubmission 0 =
      some { subjectId := 0, members := [0, 1], lockedAt := some 0 } := rfl
  have hshared := squad_grade_shared hstored hfew (bothPassed_unique _) rfl rfl hsquad
  obtain ⟨breakdown, hgrade⟩ := Option.isSome_iff_exists.mp
    (by decide +kernel : ((bothPassed (some .testsThenQuiz)).gradeNow 0).isSome = true)
  exact ⟨hshared.2.1 _ (List.Perm.swap _ _ _), breakdown.grade, (hshared.2.2.2.2.2 breakdown hgrade).2⟩

end SubmissionsChecker
