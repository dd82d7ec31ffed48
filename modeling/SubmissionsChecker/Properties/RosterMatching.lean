import Mathlib.Data.List.Perm.Basic
import SubmissionsChecker.Services.ClassroomMatching

/-! Matching a roster entry. The match is the candidate of the entry's address, or else the one whose score leads; neither
depends on the order of the candidates when their addresses differ. -/

namespace SubmissionsChecker

namespace Matching

/-- The candidate whose score reaches the threshold and is ahead of every other's. -/
abbrev LeadsByName (sim : List Char → List Char → ℚ) (T : Tables) (entry : RosterEntry) (candidates : List Candidate)
    (c : Candidate) : Prop := Leader.Leads nameThreshold margin (score sim T entry) candidates c

/-- The addresses that are not blank differ, up to case and surrounding blanks. -/
def DistinctAddresses (T : Tables) (candidates : List Candidate) : Prop :=
  ((candidates.filter fun c => address T c.email ≠ []).map fun c => address T c.email).Nodup

/-- What is decided about an entry: all of the result but the candidates shown. -/
def MatchResult.decision (r : MatchResult) : LinkMethod × Option ℕ × Option ℚ × Bool :=
  (r.method, r.studentId, r.score, r.certain)

theorem margin_pos : 0 < margin := by norm_num [margin]

theorem margin_le : margin ≤ nameThreshold := by norm_num [margin, nameThreshold]

section

variable {sim : List Char → List Char → ℚ} {T : Tables} {entry : RosterEntry} {candidates candidates' : List Candidate}
  {c c' new : Candidate}

/-- The candidate has the entry's address, and the entry has one. -/
def SameAddress (T : Tables) (entry : RosterEntry) (c : Candidate) : Prop :=
  address T c.email = address T (entry.email.getD "") ∧ address T c.email ≠ []

theorem byEmail_some (h : byEmail T entry candidates = some c) : c ∈ candidates ∧ SameAddress T entry c := by
  unfold byEmail at h
  have hc := List.find?_some h
  rw [decide_eq_true_eq] at hc
  exact ⟨List.mem_of_find?_eq_some h, hc.2, fun hn => hc.1 (hc.2 ▸ hn)⟩

theorem byEmail_none : byEmail T entry candidates = none ↔ ∀ c ∈ candidates, ¬ SameAddress T entry c := by
  unfold byEmail SameAddress
  rw [List.find?_eq_none]
  constructor
  · rintro h c hc ⟨heq, hne⟩
    exact h c hc (decide_eq_true ⟨heq ▸ hne, heq⟩)
  · intro h c hc hd
    rw [decide_eq_true_eq] at hd
    exact h c hc ⟨hd.2, fun hn => hd.1 (hd.2 ▸ hn)⟩

/-- With distinct addresses the candidate of the entry's is the only one. -/
theorem byEmail_iff (hd : DistinctAddresses T candidates) :
    byEmail T entry candidates = some c ↔ c ∈ candidates ∧ SameAddress T entry c := by
  refine ⟨byEmail_some, fun ⟨hc, hsame⟩ => ?_⟩
  cases hfound : byEmail T entry candidates with
  | none => exact absurd hsame (byEmail_none.mp hfound c hc)
  | some c' =>
    obtain ⟨hc', hsame'⟩ := byEmail_some hfound
    have haddress : address T c'.email = address T c.email := hsame'.1.trans hsame.1.symm
    have hmem : ∀ {c}, c ∈ candidates → SameAddress T entry c → c ∈ candidates.filter fun c => address T c.email ≠ [] := by
      intro c hc hsame
      exact List.mem_filter.mpr ⟨hc, decide_eq_true hsame.2⟩
    rw [List.inj_on_of_nodup_map hd (hmem hc' hsame') (hmem hc hsame) haddress]

theorem DistinctAddresses.perm (h : DistinctAddresses T candidates) (hp : candidates'.Perm candidates) :
    DistinctAddresses T candidates' :=
  (((hp.filter _).map _).nodup_iff).mpr h

theorem byEmail_perm (hd : DistinctAddresses T candidates) (hp : candidates'.Perm candidates) :
    byEmail T entry candidates' = byEmail T entry candidates := by
  apply Option.ext
  intro c
  rw [byEmail_iff hd, byEmail_iff (hd.perm hp), hp.mem_iff]

theorem matchEntry_email (h : byEmail T entry candidates = some c) :
    (matchEntry sim T entry candidates).decision = (.email, some c.studentId, some 1, true) := by
  unfold matchEntry
  rw [h]
  rfl

theorem matchEntry_name (hn : byEmail T entry candidates = none) (hl : LeadsByName sim T entry candidates c) :
    (matchEntry sim T entry candidates).decision =
      (.name, some c.studentId, some (roundScore (score sim T entry c)), decide (score sim T entry c = 1)) := by
  unfold matchEntry
  rw [hn]
  cases hr : Leader.ranked (score sim T entry) candidates with
  | nil =>
    have hmem := (Leader.ranked_perm (score sim T entry) candidates).mem_iff.mpr hl.mem
    rw [hr] at hmem
    exact absurd hmem List.not_mem_nil
  | cons c' rest =>
    obtain rfl := hl.eq_head margin_pos hr
    dsimp only
    rw [if_pos ((Leader.leads_ranked_head margin_le hr).mp hl)]
    rfl

/-- The highest score, if there is a candidate. -/
def topScore (sim : List Char → List Char → ℚ) (T : Tables) (entry : RosterEntry) (candidates : List Candidate) :
    Option ℚ := (candidates.map (score sim T entry)).max?

theorem matchEntry_none (hn : byEmail T entry candidates = none) (hl : ∀ c, ¬ LeadsByName sim T entry candidates c) :
    (matchEntry sim T entry candidates).decision =
      (.none, none, (topScore sim T entry candidates).map roundScore, false) := by
  unfold matchEntry topScore
  rw [hn]
  have hperm := Leader.ranked_perm (score sim T entry) candidates
  cases hr : Leader.ranked (score sim T entry) candidates with
  | nil =>
    rw [hr] at hperm
    rw [hperm.symm.eq_nil]
    rfl
  | cons c rest =>
    have hbest : (candidates.map (score sim T entry)).max? = some (score sim T entry c) := by
      rw [List.max?_eq_some_iff]
      constructor
      · refine List.mem_map_of_mem (hperm.mem_iff.mp ?_)
        rw [hr]
        exact List.mem_cons_self
      · intro s hs
        obtain ⟨c', hc', rfl⟩ := List.mem_map.mp hs
        exact Leader.ranked_head hr c' hc'
    dsimp only
    rw [if_neg fun h => hl c ((Leader.leads_ranked_head margin_le hr).mpr h), hbest]
    rfl

/-- The three ways a match ends. -/
theorem matchEntry_cases (sim : List Char → List Char → ℚ) (T : Tables) (entry : RosterEntry)
    (candidates : List Candidate) :
    (∃ c, byEmail T entry candidates = some c) ∨
    byEmail T entry candidates = none ∧ (∃ c, LeadsByName sim T entry candidates c) ∨
    byEmail T entry candidates = none ∧ ∀ c, ¬ LeadsByName sim T entry candidates c := by
  cases byEmail T entry candidates with
  | some c => exact .inl ⟨c, rfl⟩
  | none =>
    by_cases h : ∃ c, LeadsByName sim T entry candidates c
    · exact .inr (.inl ⟨rfl, h⟩)
    · exact .inr (.inr ⟨rfl, not_exists.mp h⟩)

/-- The decision does not depend on the order. -/
theorem matchEntry_perm (hd : DistinctAddresses T candidates) (hp : candidates'.Perm candidates) :
    (matchEntry sim T entry candidates').decision = (matchEntry sim T entry candidates).decision := by
  have hemail : byEmail T entry candidates' = byEmail T entry candidates := byEmail_perm hd hp
  rcases matchEntry_cases sim T entry candidates with ⟨c, hc⟩ | ⟨hn, c, hl⟩ | ⟨hn, hl⟩
  · rw [matchEntry_email hc, matchEntry_email (hemail.trans hc)]
  · rw [matchEntry_name hn hl, matchEntry_name (hemail.trans hn) (hl.perm hp)]
  · rw [matchEntry_none hn hl, matchEntry_none (hemail.trans hn) fun c h => hl c (h.perm hp.symm)]
    have htop : topScore sim T entry candidates' = topScore sim T entry candidates := by
      apply Option.ext
      intro s
      unfold topScore
      simp only [List.max?_eq_some_iff, (hp.map (score sim T entry)).mem_iff]
    rw [htop]

theorem matchEntry_of_name (h : (matchEntry sim T entry candidates).method = .name) :
    byEmail T entry candidates = none ∧ ∃ c, LeadsByName sim T entry candidates c ∧
      (matchEntry sim T entry candidates).studentId = some c.studentId := by
  rcases matchEntry_cases sim T entry candidates with ⟨c, hc⟩ | ⟨hn, c, hl⟩ | ⟨hn, hl⟩
  · have hmethod : (matchEntry sim T entry candidates).method = .email := congrArg (·.1) (matchEntry_email hc)
    cases h.symm.trans hmethod
  · exact ⟨hn, c, hl, congrArg (·.2.1) (matchEntry_name hn hl)⟩
  · have hmethod := congrArg (·.1) (matchEntry_none hn hl)
    cases h.symm.trans hmethod

theorem matchEntry_of_email (h : (matchEntry sim T entry candidates).method = .email) :
    ∃ c, byEmail T entry candidates = some c ∧ (matchEntry sim T entry candidates).studentId = some c.studentId := by
  rcases matchEntry_cases sim T entry candidates with ⟨c, hc⟩ | ⟨hn, c, hl⟩ | ⟨hn, hl⟩
  · exact ⟨c, hc, congrArg (·.2.1) (matchEntry_email hc)⟩
  · have hmethod := congrArg (·.1) (matchEntry_name hn hl)
    cases h.symm.trans hmethod
  · have hmethod := congrArg (·.1) (matchEntry_none hn hl)
    cases h.symm.trans hmethod

/-- An old candidate that is picked was picked before, in the same way. -/
theorem matchEntry_without (hids : (candidates'.map (·.studentId)).Nodup) (hd : DistinctAddresses T candidates')
    (hp : candidates'.Perm (new :: candidates)) (hc : c ∈ candidates)
    (hpick : (matchEntry sim T entry candidates').studentId = some c.studentId) :
    (matchEntry sim T entry candidates).decision = (matchEntry sim T entry candidates').decision := by
  have hsub : ∀ x ∈ candidates, x ∈ candidates' := fun x hx => hp.mem_iff.mpr (List.mem_cons_of_mem _ hx)
  have hsame : ∀ x ∈ candidates', (matchEntry sim T entry candidates').studentId = some x.studentId → x = c := by
    intro x hx heq
    rw [hpick, Option.some_inj] at heq
    exact List.inj_on_of_nodup_map hids hx (hsub c hc) heq.symm
  have hd' : DistinctAddresses T candidates := by
    have hcons := hd.perm hp.symm
    unfold DistinctAddresses at hcons ⊢
    exact hcons.sublist (((List.sublist_cons_self _ _).filter _).map _)
  rcases matchEntry_cases sim T entry candidates' with ⟨x, hx⟩ | ⟨hn, x, hl⟩ | ⟨hn, hl⟩
  · obtain ⟨hmem, haddress⟩ := (byEmail_iff hd).mp hx
    have hid : (matchEntry sim T entry candidates').studentId = some x.studentId :=
      congrArg (·.2.1) (matchEntry_email hx)
    obtain rfl := hsame x hmem hid
    rw [matchEntry_email hx, matchEntry_email ((byEmail_iff hd').mpr ⟨hc, haddress⟩)]
  · obtain rfl := hsame x hl.mem (congrArg (·.2.1) (matchEntry_name hn hl))
    have hn' : byEmail T entry candidates = none :=
      byEmail_none.mpr fun y hy => byEmail_none.mp hn y (hsub y hy)
    rw [matchEntry_name hn hl, matchEntry_name hn' (hl.without hp hc)]
  · have hnone := congrArg (·.2.1) (matchEntry_none hn hl)
    rw [show (matchEntry sim T entry candidates').studentId = none from hnone] at hpick
    cases hpick

end

/-- Matching is order-free and decisive for candidates whose addresses differ up to case and surrounding blanks. -/
theorem match_decisive (sim : List Char → List Char → ℚ) (T : Tables) (entry : RosterEntry) (candidates : List Candidate)
    (hd : DistinctAddresses T candidates) :
    (∀ candidates', candidates'.Perm candidates →
      (matchEntry sim T entry candidates').decision = (matchEntry sim T entry candidates).decision) ∧
    ((matchEntry sim T entry candidates).method = .name → ∃ c ∈ candidates,
      (matchEntry sim T entry candidates).studentId = some c.studentId ∧ nameThreshold ≤ score sim T entry c ∧
      ∀ c' ∈ candidates, c' ≠ c → score sim T entry c' + margin ≤ score sim T entry c) ∧
    ((matchEntry sim T entry candidates).method = .email → ∃ c ∈ candidates,
      (matchEntry sim T entry candidates).studentId = some c.studentId ∧ SameAddress T entry c) ∧
    ∀ new candidates', candidates'.Perm (new :: candidates) → (candidates'.map (·.studentId)).Nodup →
      DistinctAddresses T candidates' → ∀ c ∈ candidates,
        (matchEntry sim T entry candidates').studentId = some c.studentId →
        (matchEntry sim T entry candidates).decision = (matchEntry sim T entry candidates').decision := by
  refine ⟨fun candidates' hp => matchEntry_perm hd hp, fun h => ?_, fun h => ?_, ?_⟩
  · obtain ⟨-, c, hl, hid⟩ := matchEntry_of_name h
    refine ⟨c, hl.mem, hid, hl.enough, fun c' hc' hne => ?_⟩
    have hahead := hl.ahead_of hc' hne
    linarith
  · obtain ⟨c, hc, hid⟩ := matchEntry_of_email h
    obtain ⟨hmem, hsame⟩ := byEmail_some hc
    exact ⟨c, hmem, hid, hsame⟩
  · intro new candidates' hp hids' hd' c hc hpick
    exact matchEntry_without hids' hd' hp hc hpick

/-- Letters and lower case of ASCII. -/
def asciiTables : Tables where
  isAlnum := Char.isAlphanum
  lower := List.map Char.toLower

/-- The similarity of tokens that are equal or have no letter in common. -/
def sameToken (x y : List Char) : ℚ := if x = y then 1 else 0

def ivan (email : String) : Candidate := { studentId := 1, fullName := "Ivan Petr", email }

def hugo (email : String) : Candidate := { studentId := 2, fullName := "Hugo Fudy", email }

/-- Addresses that differ in case alone: the first is taken. -/
theorem order_matters_for_case : ¬ ∀ (sim : List Char → List Char → ℚ) (T : Tables) (entry : RosterEntry)
    (candidates candidates' : List Candidate), (∀ x y, 0 ≤ sim x y ∧ sim x y ≤ 1) →
    (candidates.map (·.studentId)).Nodup → (candidates.map (·.email)).Nodup → (∀ c ∈ candidates, c.email ≠ "") →
    candidates'.Perm candidates →
    (matchEntry sim T entry candidates').decision = (matchEntry sim T entry candidates).decision := by
  intro hall
  have hsim : ∀ x y, 0 ≤ sameToken x y ∧ sameToken x y ≤ 1 := by
    intro x y
    unfold sameToken
    split_ifs <;> norm_num
  have hsame := hall sameToken asciiTables ⟨"u", "Ivan Petr", some "a@x"⟩ [ivan "A@x", hugo "a@x"]
    [hugo "a@x", ivan "A@x"] hsim (by decide) (by decide) (by decide) (.swap _ _ _)
  exact absurd hsame (by decide +kernel)

/-- Ivan is found by name, wherever he stands. -/
theorem ivan_decisive : (matchEntry sameToken asciiTables ⟨"u", "Petr Ivan", none⟩ [hugo "h@x", ivan "i@x"]).decision =
    (.name, some 1, some 1, true) := by
  have hdecisive := match_decisive sameToken asciiTables ⟨"u", "Petr Ivan", none⟩ [ivan "i@x", hugo "h@x"]
    (by unfold DistinctAddresses; decide +kernel)
  rw [hdecisive.1 [hugo "h@x", ivan "i@x"] (.swap _ _ _)]
  decide +kernel

end Matching

/-! ## Certain matches

Certain matches by name. A score of one says that two of the compared tokens are equal, not that all are, and the two
can come from the address: the match is certain all the same. -/

namespace Matching

/-- Two of the compared tokens of each side are equal. -/
def SharesTwo (a b : List (List Char)) : Prop :=
  ∃ i j k m : ℕ, i ≠ j ∧ k ≠ m ∧ ∃ x y, (a.take 3)[i]? = some x ∧ (a.take 3)[j]? = some y ∧
    (b.take 3)[k]? = some x ∧ (b.take 3)[m]? = some y

/-- Every compared token of the side with fewer is a token of its own of the other side. -/
def FullMatch (a b : List (List Char)) : Prop :=
  ((a.take 3).length ≤ (b.take 3).length → (a.take 3).Subperm (b.take 3)) ∧
    ((b.take 3).length ≤ (a.take 3).length → (b.take 3).Subperm (a.take 3))

/-- Two tokens of the candidate's name are tokens of the entry's name, or of its address. -/
def AgreesInTwo (T : Tables) (entry : RosterEntry) (c : Candidate) : Prop :=
  SharesTwo (nameTokens T entry.fullName) (nameTokens T c.fullName) ∨
    SharesTwo (emailTokens T entry.email) (nameTokens T c.fullName)

section

variable {α : Type} {xs : List α} {x y : α} {s m : ℚ} {scores : List ℚ}

theorem mem_orderedPairs : (x, y) ∈ orderedPairs xs ↔ ∃ i j : ℕ, i ≠ j ∧ xs[i]? = some x ∧ xs[j]? = some y := by
  unfold orderedPairs
  simp only [List.mem_flatMap, List.mem_range, List.mem_filterMap]
  constructor
  · rintro ⟨i, hi, j, hj, h⟩
    split_ifs at h with hij
    simp only [List.getElem?_eq_getElem hi, List.getElem?_eq_getElem hj] at h
    cases h
    exact ⟨i, j, hij, List.getElem?_eq_getElem hi, List.getElem?_eq_getElem hj⟩
  · rintro ⟨i, j, hij, hx, hy⟩
    obtain ⟨hi, -⟩ := List.getElem?_eq_some_iff.mp hx
    obtain ⟨hj, -⟩ := List.getElem?_eq_some_iff.mp hy
    refine ⟨i, hi, j, hj, ?_⟩
    rw [if_neg hij, hx, hy]
    rfl

theorem foldl_max_le : scores.foldl max m ≤ s ↔ m ≤ s ∧ ∀ t ∈ scores, t ≤ s := by
  induction scores generalizing m with
  | nil => simp
  | cons t scores ih => rw [List.foldl_cons, ih, max_le_iff, List.forall_mem_cons, and_assoc]

theorem le_foldl_max : s ≤ scores.foldl max m ↔ s ≤ m ∨ ∃ t ∈ scores, s ≤ t := by
  induction scores generalizing m with
  | nil => simp
  | cons t scores ih => rw [List.foldl_cons, ih, le_max_iff, List.exists_mem_cons_iff, or_assoc]

end

section

variable {sim : List Char → List Char → ℚ} {T : Tables} {entry : RosterEntry} {candidates : List Candidate} {c : Candidate}
  {a b : List (List Char)} (hrange : ∀ x y, 0 ≤ sim x y ∧ sim x y ≤ 1) (hone : ∀ x y, sim x y = 1 ↔ x = y)

include hrange

theorem pairScores_le_one : ∀ s ∈ pairScores sim a b, s ≤ 1 := by
  intro s hs
  obtain ⟨p, -, hs⟩ := List.mem_flatMap.mp hs
  obtain ⟨q, -, rfl⟩ := List.mem_map.mp hs
  have h₁ := (hrange p.1 q.1).2
  have h₂ := (hrange p.2 q.2).2
  linarith

theorem oneToken_le : (((a.flatMap fun x => b.map fun y => sim x y).max?).getD 0) * (1 / 2) ≤ 1 / 2 := by
  have hle : ((a.flatMap fun x => b.map fun y => sim x y).max?).getD 0 ≤ 1 := by
    cases hm : (a.flatMap fun x => b.map fun y => sim x y).max? with
    | none => exact zero_le_one
    | some s =>
      obtain ⟨x, -, hx⟩ := List.mem_flatMap.mp (List.max?_mem hm)
      obtain ⟨y, -, rfl⟩ := List.mem_map.mp hx
      exact (hrange x y).2
  linarith

theorem nameSim_le_one : nameSim sim a b ≤ 1 := by
  unfold nameSim
  dsimp only
  split_ifs
  · exact zero_le_one
  · exact (oneToken_le hrange).trans (by norm_num)
  · exact foldl_max_le.mpr ⟨zero_le_one, pairScores_le_one hrange⟩

include hone

theorem one_mem_pairScores : (∃ s ∈ pairScores sim a b, 1 ≤ s) ↔ ∃ p ∈ orderedPairs a, p ∈ orderedPairs b := by
  constructor
  · rintro ⟨s, hs, hle⟩
    obtain ⟨p, hp, hs⟩ := List.mem_flatMap.mp hs
    obtain ⟨q, hq, rfl⟩ := List.mem_map.mp hs
    have h₁ := (hrange p.1 q.1).2
    have h₂ := (hrange p.2 q.2).2
    have heq : p = q := Prod.ext ((hone _ _).mp (by linarith)) ((hone _ _).mp (by linarith))
    exact ⟨p, hp, heq ▸ hq⟩
  · rintro ⟨p, hp, hq⟩
    refine ⟨(sim p.1 p.1 + sim p.2 p.2) / 2, List.mem_flatMap.mpr ⟨p, hp, List.mem_map_of_mem hq⟩, ?_⟩
    rw [(hone _ _).mpr rfl, (hone _ _).mpr rfl]
    norm_num

/-- The similarity of two names is one exactly when two tokens are equal. -/
theorem nameSim_eq_one_iff : nameSim sim a b = 1 ↔ SharesTwo a b := by
  have hshares : (∃ p ∈ orderedPairs (a.take 3), p ∈ orderedPairs (b.take 3)) ↔ SharesTwo a b := by
    constructor
    · rintro ⟨⟨x, y⟩, hp, hq⟩
      obtain ⟨i, j, hij, hi, hj⟩ := mem_orderedPairs.mp hp
      obtain ⟨k, m, hkm, hk, hm⟩ := mem_orderedPairs.mp hq
      exact ⟨i, j, k, m, hij, hkm, x, y, hi, hj, hk, hm⟩
    · rintro ⟨i, j, k, m, hij, hkm, x, y, hi, hj, hk, hm⟩
      exact ⟨(x, y), mem_orderedPairs.mpr ⟨i, j, hij, hi, hj⟩, mem_orderedPairs.mpr ⟨k, m, hkm, hk, hm⟩⟩
  -- two places in a list of one token or none are the same
  have hlong : SharesTwo a b → 2 ≤ (a.take 3).length ∧ 2 ≤ (b.take 3).length := by
    rintro ⟨i, j, k, m, hij, hkm, x, y, hi, hj, hk, hm⟩
    obtain ⟨hi, -⟩ := List.getElem?_eq_some_iff.mp hi
    obtain ⟨hj, -⟩ := List.getElem?_eq_some_iff.mp hj
    obtain ⟨hk, -⟩ := List.getElem?_eq_some_iff.mp hk
    obtain ⟨hm, -⟩ := List.getElem?_eq_some_iff.mp hm
    omega
  unfold nameSim
  dsimp only
  split_ifs with hempty hsingle
  · refine ⟨fun h => absurd h (by norm_num), fun h => ?_⟩
    obtain ⟨ha, hb⟩ := hlong h
    simp only [List.isEmpty_iff_length_eq_zero] at hempty
    omega
  · constructor
    · intro h
      have hle := oneToken_le hrange (a := a.take 3) (b := b.take 3)
      rw [h] at hle
      norm_num at hle
    · intro h
      obtain ⟨ha, hb⟩ := hlong h
      omega
  · have hle : (pairScores sim (a.take 3) (b.take 3)).foldl max 0 ≤ 1 :=
      foldl_max_le.mpr ⟨zero_le_one, pairScores_le_one hrange⟩
    rw [← hshares, ← one_mem_pairScores hrange hone]
    constructor
    · intro h
      rcases le_foldl_max.mp h.ge with h | h
      · norm_num at h
      · exact h
    · exact fun h => le_antisymm hle (le_foldl_max.mpr (.inr h))

/-- A score is one exactly when two tokens agree. -/
theorem score_eq_one_iff : score sim T entry c = 1 ↔ AgreesInTwo T entry c := by
  unfold score AgreesInTwo
  dsimp only
  have hname : nameSim sim (nameTokens T entry.fullName) (nameTokens T c.fullName) ≤ 1 := nameSim_le_one hrange
  have hmail : nameSim sim (emailTokens T entry.email) (nameTokens T c.fullName) ≤ 1 := nameSim_le_one hrange
  rw [← nameSim_eq_one_iff hrange hone, ← nameSim_eq_one_iff hrange hone]
  by_cases htwo : 2 ≤ (emailTokens T entry.email).length
  · rw [if_pos htwo]
    constructor
    · intro h
      rcases max_choice (nameSim sim (nameTokens T entry.fullName) (nameTokens T c.fullName))
        (nameSim sim (emailTokens T entry.email) (nameTokens T c.fullName)) with hmax | hmax
      · exact .inl (hmax.symm.trans h)
      · exact .inr (hmax.symm.trans h)
    · rintro (h | h)
      · rw [h]
        exact max_eq_left hmail
      · rw [h]
        exact max_eq_right hname
  · rw [if_neg htwo]
    constructor
    · intro h
      rcases max_choice (nameSim sim (nameTokens T entry.fullName) (nameTokens T c.fullName)) 0 with hmax | hmax
      · exact .inl (hmax.symm.trans h)
      · rw [hmax] at h
        norm_num at h
    · rintro (h | h)
      · rw [h]
        exact max_eq_left zero_le_one
      · obtain ⟨i, j, k, m, hij, -, x, y, hi, hj, -⟩ := (nameSim_eq_one_iff hrange hone).mp h
        obtain ⟨hi, -⟩ := List.getElem?_eq_some_iff.mp hi
        obtain ⟨hj, -⟩ := List.getElem?_eq_some_iff.mp hj
        rw [List.length_take] at hi hj
        omega

/-- A certain match by name is a full match exactly when no candidate that agrees with the entry in two tokens, and is
ahead of all others, fails to match in full. -/
theorem certain_full_iff (T : Tables) (entry : RosterEntry) (candidates : List Candidate) :
    ((matchEntry sim T entry candidates).method = .name → (matchEntry sim T entry candidates).certain = true →
      ∀ c rest, Leader.ranked (score sim T entry) candidates = c :: rest →
        FullMatch (nameTokens T entry.fullName) (nameTokens T c.fullName)) ↔
    ((∀ c ∈ candidates, ¬ SameAddress T entry c) → ∀ c rest, candidates.Perm (c :: rest) → AgreesInTwo T entry c →
      (∀ c' ∈ rest, score sim T entry c' ≤ 9 / 10) →
        FullMatch (nameTokens T entry.fullName) (nameTokens T c.fullName)) := by
  constructor
  · intro h hnone c rest hperm hagree hahead
    have hscore := (score_eq_one_iff hrange hone).mpr hagree
    have hl : LeadsByName sim T entry candidates c := by
      refine ⟨by rw [hscore]; norm_num [nameThreshold], rest, hperm, fun c' hc' => ?_⟩
      have hc := hahead c' hc'
      rw [hscore]
      unfold margin
      linarith
    have hdecision := matchEntry_name (byEmail_none.mpr hnone) hl
    cases hr : Leader.ranked (score sim T entry) candidates with
    | nil =>
      have hmem := (Leader.ranked_perm (score sim T entry) candidates).mem_iff.mpr hl.mem
      rw [hr] at hmem
      exact absurd hmem List.not_mem_nil
    | cons c' rest' =>
      obtain rfl := hl.eq_head margin_pos hr
      exact h (congrArg (·.1) hdecision) ((congrArg (·.2.2.2) hdecision).trans (decide_eq_true hscore)) c rest' hr
  · intro h hmethod hcertain c rest hr
    obtain ⟨hnone, c', hl, -⟩ := matchEntry_of_name hmethod
    have hdecision := matchEntry_name hnone hl
    obtain rfl := hl.eq_head margin_pos hr
    have hscore : score sim T entry c' = 1 :=
      of_decide_eq_true ((congrArg (·.2.2.2) hdecision).symm.trans hcertain)
    obtain ⟨others, hperm, hahead⟩ := hl.ahead
    refine h (byEmail_none.mp hnone) c' others hperm ((score_eq_one_iff hrange hone).mp hscore) fun c hc => ?_
    have hc := hahead c hc
    rw [hscore] at hc
    unfold margin at hc
    linarith

end

theorem sameToken_range (x y : List Char) : 0 ≤ sameToken x y ∧ sameToken x y ≤ 1 := by
  unfold sameToken
  split_ifs <;> norm_num

theorem sameToken_eq_one (x y : List Char) : sameToken x y = 1 ↔ x = y := by
  unfold sameToken
  split_ifs with h <;> simp [h]

def ivanHugo : RosterEntry := { userId := "u", fullName := "Ivan Petr Hugo", email := none }

def ivanKlym : Candidate := { studentId := 1, fullName := "Ivan Petr Klym", email := "k@x" }

/-- Two people of one surname and first name. -/
theorem other_patronymic_certain : ¬ ∀ (sim : List Char → List Char → ℚ) (T : Tables) (entry : RosterEntry)
    (candidates : List Candidate), (∀ x y, 0 ≤ sim x y ∧ sim x y ≤ 1) → (∀ x y, sim x y = 1 ↔ x = y) →
    (matchEntry sim T entry candidates).method = .name → (matchEntry sim T entry candidates).certain = true →
    ∀ c rest, Leader.ranked (score sim T entry) candidates = c :: rest →
      FullMatch (nameTokens T entry.fullName) (nameTokens T c.fullName) := by
  have hmethod : (matchEntry sameToken asciiTables ivanHugo [ivanKlym]).method = .name := by decide +kernel
  have hcertain : (matchEntry sameToken asciiTables ivanHugo [ivanKlym]).certain = true := by decide +kernel
  have hpart : ¬ FullMatch (nameTokens asciiTables ivanHugo.fullName) (nameTokens asciiTables ivanKlym.fullName) := by
    unfold FullMatch
    decide +kernel
  intro hall
  exact hpart (hall sameToken asciiTables ivanHugo [ivanKlym] sameToken_range sameToken_eq_one hmethod hcertain ivanKlym []
    (Leader.ranked_singleton _ _))

def petrIvan : RosterEntry := { userId := "u", fullName := "Petr Ivan", email := none }

theorem petr_ivan_full : FullMatch (nameTokens asciiTables petrIvan.fullName)
    (nameTokens asciiTables (ivan "i@x").fullName) := by
  have hmethod : (matchEntry sameToken asciiTables petrIvan [ivan "i@x"]).method = .name := by decide +kernel
  have hcertain : (matchEntry sameToken asciiTables petrIvan [ivan "i@x"]).certain = true := by decide +kernel
  have hfull : FullMatch (nameTokens asciiTables petrIvan.fullName) (nameTokens asciiTables (ivan "i@x").fullName) := by
    unfold FullMatch
    decide +kernel
  refine (certain_full_iff sameToken_range sameToken_eq_one asciiTables petrIvan [ivan "i@x"]).mpr ?_ hmethod hcertain
    (ivan "i@x") [] (Leader.ranked_singleton _ _)
  intro _ c rest hperm _ _
  obtain ⟨rfl, rfl⟩ := List.cons.inj (List.singleton_perm.mp hperm)
  exact hfull

end Matching

end SubmissionsChecker
