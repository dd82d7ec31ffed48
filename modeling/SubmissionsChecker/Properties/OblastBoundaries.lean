import SubmissionsChecker.Library.Loops
import SubmissionsChecker.Properties.RayCasting
import SubmissionsChecker.Services.OblastBoundaries

/-! The simplified boundaries. What a ring loses lies close to what it keeps, and the box of a region never hides a
point of it. -/

namespace SubmissionsChecker

open Refinement

variable {points : List GeoPoint} {eps lng lat : ℚ} {ring : GeoRing} {a b : GeoPoint} {i n ndigits : ℕ}

/-! ## Ramer-Douglas-Peucker -/

/-- A simplification of `points` within `eps`. -/
structure Simplifies (eps : ℚ) (points : List GeoPoint) (keep : List Bool) : Prop where
  length : keep.length = points.length
  first : Kept keep 0
  last : Kept keep (points.length - 1)
  near : ∀ i < points.length, ¬ Kept keep i →
    ∃ gap, IsGap keep gap ∧ gap.1 < i ∧ i < gap.2 ∧ deviation points gap i ≤ eps * eps
  needed : ∀ i, Kept keep i → i = 0 ∨ i = points.length - 1 ∨
    ∃ gap, Kept keep gap.1 ∧ Kept keep gap.2 ∧ gap.1 < i ∧ i < gap.2 ∧ eps * eps < deviation points gap i ∧
      ∀ j, gap.1 < j → j < gap.2 → deviation points gap j ≤ deviation points gap i

theorem kept_endsKept (hn : 2 ≤ n) : Kept (endsKept n) i ↔ i = 0 ∨ i = n - 1 := by
  have hfalse : ¬ Kept (List.replicate n false) i := by
    unfold Kept
    rw [List.getElem?_replicate]
    split_ifs <;> simp
  rw [endsKept, kept_set (by simp; omega), kept_set (by simp; omega)]
  constructor
  · rintro (h | h | h)
    · exact .inr h
    · exact .inl h
    · exact absurd h hfalse
  · rintro (h | h)
    · exact .inr (.inl h)
    · exact .inl h

theorem pending_endsKept (c : Cutter) (hn : 2 ≤ n) : Pending c [(0, n - 1)] (endsKept n) where
  gaps gap hgap := by
    rw [List.mem_singleton.mp hgap]
    refine ⟨by dsimp only; omega, (kept_endsKept hn).mpr (.inl rfl), (kept_endsKept hn).mpr (.inr rfl), fun i hi₁ hi₂ hi => ?_⟩
    rcases (kept_endsKept hn).mp hi with h | h <;> dsimp only at hi₁ hi₂ <;> omega
  nodup := List.nodup_singleton _
  done gap hgap := by
    refine .inl (List.mem_singleton.mpr (Prod.ext ?_ ?_))
    · have hlt := hgap.lt
      have hright := (kept_endsKept hn).mp hgap.right
      rcases (kept_endsKept hn).mp hgap.left with h | h
      · exact h
      · omega
    · have hlt := hgap.lt
      rcases (kept_endsKept hn).mp hgap.right with h | h
      · omega
      · exact h

theorem deviation_le_of_uncut {gap : ℕ × ℕ} (h : (rdpCutter eps points).cut gap = none)
    (hi₁ : gap.1 < i) (hi₂ : i < gap.2) : deviation points gap i ≤ eps * eps := by
  have hspec := worstOf_spec points gap
  refine (hspec.most i (mem_between.mpr ⟨hi₁, hi₂⟩)).trans ?_
  cases hindex : (worstOf points gap).2 with
  | none =>
    rw [hspec.none hindex]
    exact mul_self_nonneg eps
  | some j =>
    have hsmall := Option.filter_eq_none_iff.mp h j hindex
    rw [exceeds, Bool.or_eq_true, not_or, decide_eq_true_iff, decide_eq_true_iff] at hsmall
    exact not_lt.mp hsmall.2

theorem deviation_of_cut {gap : ℕ × ℕ} (heps : 0 ≤ eps) (h : (rdpCutter eps points).cut gap = some i) :
    gap.1 < i ∧ i < gap.2 ∧ eps * eps < deviation points gap i ∧
      ∀ j, gap.1 < j → j < gap.2 → deviation points gap j ≤ deviation points gap i := by
  have hspec := worstOf_spec points gap
  obtain ⟨hi₁, hi₂⟩ := (rdpCutter eps points).inside gap i h
  obtain ⟨hindex, hexceeds⟩ := Option.filter_eq_some_iff.mp h
  have hworst := (hspec.index i hindex).2
  refine ⟨hi₁, hi₂, ?_, fun j hj₁ hj₂ => ?_⟩
  · rw [hworst]
    rcases Bool.or_eq_true_iff.mp hexceeds with hneg | hlt
    · exact absurd (of_decide_eq_true hneg) (not_lt.mpr heps)
    · exact of_decide_eq_true hlt
  · rw [hworst]
    exact hspec.most j (mem_between.mpr ⟨hj₁, hj₂⟩)

/-- Every point that is dropped is within `eps` of the line of the kept points around it, and no point between the
ends is kept that is not the furthest of a line by more than `eps`. -/
theorem rdp_stays_within_eps (heps : 0 ≤ eps) (hlong : 3 ≤ points.length) :
    ∃ keep, rdp points eps = keptPoints points keep ∧ Simplifies eps points keep := by
  have hn : 2 ≤ points.length := by omega
  have hrefined := refined_run _ _ _ (pending_endsKept (rdpCutter eps points) hn)
  have hrdp : rdp points eps = keptPoints points _ := if_neg (not_lt.mpr hlong)
  rw [hrdp]
  generalize run (rdpCutter eps points) [(0, points.length - 1)] (endsKept points.length) = keep at hrefined
  refine ⟨keep, rfl, ?_⟩
  have hfirst := hrefined.grows 0 ((kept_endsKept hn).mpr (.inl rfl))
  have hlast := hrefined.grows (points.length - 1) ((kept_endsKept hn).mpr (.inr rfl))
  refine ⟨hrefined.length.trans (by simp [endsKept]), hfirst, hlast, fun i hi hnot => ?_, fun i hi => ?_⟩
  · have hi₁ : 0 < i := Nat.pos_of_ne_zero fun h => hnot (h ▸ hfirst)
    have hi₂ : i < points.length - 1 := by
      rcases Nat.lt_or_ge i (points.length - 1) with h | h
      · exact h
      · rw [show points.length - 1 = i by omega] at hlast
        exact absurd hlast hnot
    obtain ⟨gap, hgap, hlo, hhi⟩ := exists_gap hfirst hlast hi₁ hi₂ hnot
    exact ⟨gap, hgap, hlo, hhi, deviation_le_of_uncut (hrefined.gaps gap hgap) hlo hhi⟩
  · rcases hrefined.cuts i hi with hend | ⟨gap, hleft, hright, hcut⟩
    · exact ((kept_endsKept hn).mp hend).imp_right .inl
    · exact .inr (.inr ⟨gap, hleft, hright, deviation_of_cut heps hcut⟩)

/-- A dent of a square. -/
def dented : List GeoPoint := [(0, 0), (0, 4), (1, 2), (4, 4), (4, 0), (0, 0)]

theorem dented_stays_within_one : ∃ keep, rdp dented 1 = keptPoints dented keep ∧ Simplifies 1 dented keep :=
  rdp_stays_within_eps (by decide) (by decide)

/-! ## Boxes -/

theorem crossing_between (h : (decide (lat < a.2) != decide (lat < b.2)) = true) :
    ∃ t, 0 ≤ t ∧ t ≤ 1 ∧ (b.1 - a.1) * (lat - a.2) / (b.2 - a.2) + a.1 = t * b.1 + (1 - t) * a.1 := by
  refine ⟨(lat - a.2) / (b.2 - a.2), ?_, ?_, by ring⟩
  · by_cases ha : lat < a.2
    · have hb : ¬ lat < b.2 := fun hb => by simp [ha, hb] at h
      exact div_nonneg_of_nonpos (by linarith) (by linarith)
    · have hb : lat < b.2 := by_contra fun hb => by simp [ha, hb] at h
      exact div_nonneg (by linarith) (by linarith)
  · by_cases ha : lat < a.2
    · have hb : ¬ lat < b.2 := fun hb => by simp [ha, hb] at h
      exact (div_le_one_of_neg (by linarith)).mpr (by linarith)
    · have hb : lat < b.2 := by_contra fun hb => by simp [ha, hb] at h
      exact (div_le_one (by linarith)).mpr (by linarith)

/-- A point that ray casting finds inside has vertices on all four sides of it. -/
theorem bounds_of_pointInRing (h : pointInRing lng lat ring = true) :
    (∃ p ∈ ring, p.1 ≤ lng) ∧ (∃ p ∈ ring, lng < p.1) ∧ (∃ p ∈ ring, p.2 ≤ lat) ∧ ∃ p ∈ ring, lat < p.2 := by
  rw [pointInRing_eq] at h
  have hnever : (∀ a ∈ ring, ∀ b ∈ ring, crossesEdge lng lat a b = false) → False := by
    intro hnone
    have hfalse : CyclicParity.closed (crossesEdge lng lat) ring = CyclicParity.closed (fun _ _ => true != true) ring :=
      CyclicParity.closed_congr hnone
    rw [hfalse, CyclicParity.closed_bne fun _ => true] at h
    cases h
  refine ⟨?_, ?_, ?_, ?_⟩
  · by_contra hnone
    push Not at hnone
    have hstraddles : ∀ a ∈ ring, ∀ b ∈ ring,
        crossesEdge lng lat a b = (decide (lat < a.2) != decide (lat < b.2)) := by
      intro a ha b hb
      unfold crossesEdge
      cases hstraddle : decide (lat < b.2) != decide (lat < a.2) with
      | false => rw [Bool.false_and, bne_comm, hstraddle]
      | true =>
        obtain ⟨t, ht₀, ht₁, heq⟩ := crossing_between hstraddle
        rw [Bool.true_and, bne_comm, hstraddle, heq]
        refine decide_eq_true ?_
        have hleft := mul_le_mul_of_nonneg_left (hnone a ha).le ht₀
        have hright := mul_le_mul_of_nonneg_left (hnone b hb).le (sub_nonneg.mpr ht₁)
        rcases ht₀.eq_or_lt with hzero | hpos
        · rw [← hzero]
          linarith [hnone b hb]
        · have hstrict := mul_lt_mul_of_pos_left (hnone a ha) hpos
          linarith
    rw [CyclicParity.closed_congr hstraddles, CyclicParity.closed_bne fun p : GeoPoint => decide (lat < p.2)] at h
    cases h
  · by_contra hnone
    push Not at hnone
    refine hnever fun a ha b hb => ?_
    unfold crossesEdge
    cases hstraddle : decide (lat < b.2) != decide (lat < a.2) with
    | false => rfl
    | true =>
      obtain ⟨t, ht₀, ht₁, heq⟩ := crossing_between hstraddle
      rw [Bool.true_and, heq]
      refine decide_eq_false (not_lt.mpr ?_)
      have hleft := mul_le_mul_of_nonneg_left (hnone a ha) ht₀
      have hright := mul_le_mul_of_nonneg_left (hnone b hb) (sub_nonneg.mpr ht₁)
      linarith
  · by_contra hnone
    push Not at hnone
    refine hnever fun a ha b hb => ?_
    simp [crossesEdge, hnone a ha, hnone b hb]
  · by_contra hnone
    push Not at hnone
    refine hnever fun a ha b hb => ?_
    simp [crossesEdge, not_lt.mpr (hnone a ha), not_lt.mpr (hnone b hb)]

theorem roundTo_roundTo (ndigits : ℕ) (x : ℚ) : roundTo ndigits (roundTo ndigits x) = roundTo ndigits x := by
  have hscale : ((10 ^ ndigits : ℤ) : ℚ) ≠ 0 := by positivity
  unfold roundTo Rounding.halfEvenTo
  rw [div_mul_cancel₀ _ hscale, Rounding.halfEven_intCast]

theorem roundTo_mono (ndigits : ℕ) {x y : ℚ} (h : x ≤ y) : roundTo ndigits x ≤ roundTo ndigits y :=
  Rounding.halfEvenTo_mono (by positivity) h

theorem mem_rdp {p : GeoPoint} (h : p ∈ rdp points eps) : p ∈ points := by
  unfold rdp at h
  split_ifs at h
  · exact h
  · obtain ⟨q, hq, rfl⟩ := List.mem_map.mp h
    exact (List.of_mem_zip (List.mem_filter.mp hq).1).1

/-- The coordinates of the file are rounded. -/
theorem rounded_of_mem_simpleRing {p : GeoPoint} (h : p ∈ simpleRing eps ndigits ring) :
    roundTo ndigits p.1 = p.1 ∧ roundTo ndigits p.2 = p.2 := by
  obtain ⟨q, -, rfl⟩ := List.mem_map.mp (mem_rdp h)
  exact ⟨roundTo_roundTo .., roundTo_roundTo ..⟩

theorem le_roundTo_max {xs : List ℚ} {x : ℚ} (hx : x ∈ xs) (hround : roundTo ndigits x = x) :
    roundTo ndigits (xs.min?.getD 0) ≤ x ∧ x ≤ roundTo ndigits (xs.max?.getD 0) := by
  obtain ⟨m, hm⟩ := Option.isSome_iff_exists.mp (List.isSome_min?_of_mem hx)
  obtain ⟨M, hM⟩ := Option.isSome_iff_exists.mp (List.isSome_max?_of_mem hx)
  rw [hm, hM]
  refine ⟨?_, ?_⟩
  · calc roundTo ndigits m ≤ roundTo ndigits x := roundTo_mono ndigits ((List.min?_eq_some_iff.mp hm).2 x hx)
      _ = x := hround
  · calc x = roundTo ndigits x := hround.symm
      _ ≤ roundTo ndigits M := roundTo_mono ndigits ((List.max?_eq_some_iff.mp hM).2 x hx)

/-- The box of a region is around every point of its polygons. -/
theorem bbox_contains {polygons : List GeoPolygon} {region : Region} (hpolygons : region.polygons = polygons)
    (hround : ∀ polygon ∈ polygons, ∀ p ∈ polygon.outer, roundTo ndigits p.1 = p.1 ∧ roundTo ndigits p.2 = p.2)
    (h : region.contains lng lat = true) : (bboxOf ndigits polygons).contains lng lat = true := by
  rw [Region.contains, hpolygons, List.any_eq_true] at h
  obtain ⟨polygon, hpolygon, hinside⟩ := h
  obtain ⟨⟨p, hp, hlng₁⟩, ⟨q, hq, hlng₂⟩, ⟨r, hr, hlat₁⟩, ⟨s, hs, hlat₂⟩⟩ :=
    bounds_of_pointInRing (Bool.and_eq_true_iff.mp hinside).1
  have hmem : ∀ p ∈ polygon.outer, p ∈ polygons.flatMap (·.outer) := fun p hp =>
    List.mem_flatMap.mpr ⟨polygon, hpolygon, hp⟩
  have hx : ∀ p ∈ polygon.outer, p.1 ∈ (polygons.flatMap (·.outer)).map (·.1) := fun p hp =>
    List.mem_map_of_mem (hmem p hp)
  have hy : ∀ p ∈ polygon.outer, p.2 ∈ (polygons.flatMap (·.outer)).map (·.2) := fun p hp =>
    List.mem_map_of_mem (hmem p hp)
  refine decide_eq_true ⟨?_, ?_, ?_, ?_⟩
  · exact (le_roundTo_max (hx p hp) (hround polygon hpolygon p hp).1).1.trans hlng₁
  · exact hlng₂.le.trans (le_roundTo_max (hx q hq) (hround polygon hpolygon q hq).1).2
  · exact (le_roundTo_max (hy r hr) (hround polygon hpolygon r hr).2).1.trans hlat₁
  · exact hlat₂.le.trans (le_roundTo_max (hy s hs) (hround polygon hpolygon s hs).2).2

theorem outer_of_simplePolygon {polygon polygon' : GeoPolygon} (h : simplePolygon eps ndigits polygon = some polygon') :
    polygon'.outer = simpleRing eps ndigits polygon.outer := by
  unfold simplePolygon at h
  split_ifs at h
  cases h
  rfl

theorem bbox_of_buildRegion {feature : Feature} {region : BoundedRegion}
    (hok : buildRegion eps ndigits feature = .ok region) (h : region.contains lng lat = true) :
    region.bbox.contains lng lat = true := by
  unfold buildRegion at hok
  cases hentry : feature.shapeISO.bind fun iso => isoToUid.lookup iso with
  | none =>
    rw [hentry] at hok
    cases hok
  | some entry => ?_
  rw [hentry] at hok
  obtain ⟨polygons, -, hok⟩ := Loops.bind_ok.mp hok
  dsimp only at hok
  split_ifs at hok
  cases hok
  refine bbox_contains rfl (fun polygon hpolygon p hp => ?_) h
  obtain ⟨whole, -, hsimple⟩ := List.mem_filterMap.mp hpolygon
  rw [outer_of_simplePolygon hsimple] at hp
  exact rounded_of_mem_simpleRing hp

theorem mem_build {features : List Feature} {regions : List BoundedRegion} {region : BoundedRegion}
    (hok : build eps ndigits features = .ok regions) (hregion : region ∈ regions) :
    ∃ feature ∈ features, buildRegion eps ndigits feature = .ok region := by
  obtain ⟨built, hbuilt, hsorted⟩ := Loops.bind_ok.mp hok
  cases hsorted
  rw [List.mem_mergeSort] at hregion
  exact Loops.mem_of_mapM hbuilt hregion

/-- In a file that the script wrote, the boxes hide no point: a point is resolved as soon as it lies in a region and in
the envelope, and to a region of the smallest box among all that it lies in. -/
theorem resolves_to_smallest_region {features : List Feature} {regions : List BoundedRegion}
    (hok : build eps ndigits features = .ok regions) (lat lng : ℚ) :
    (∀ region, resolveRegion regions lat lng = some region →
      region ∈ regions ∧ region.contains lng lat = true ∧
        ∀ other ∈ regions, other.contains lng lat = true → region.bboxArea ≤ other.bboxArea) ∧
    (resolveRegion regions lat lng = none ↔
      inEnvelope lat lng = false ∨ ∀ region ∈ regions, region.contains lng lat = false) := by
  have hfilter : (regions.filter fun region => region.bbox.contains lng lat && region.contains lng lat) =
      regions.filter fun region => region.contains lng lat := by
    refine List.filter_congr fun region hregion => ?_
    obtain ⟨feature, -, hbuilt⟩ := mem_build hok hregion
    cases hinside : region.contains lng lat with
    | false => rw [Bool.and_false]
    | true => rw [bbox_of_buildRegion hbuilt hinside, Bool.true_and]
  unfold resolveRegion
  rw [hfilter]
  cases henvelope : inEnvelope lat lng with
  | false => simp
  | true =>
    rw [if_pos rfl]
    refine ⟨fun region hregion => ?_, ?_⟩
    · have hmem := List.argmin_mem hregion
      have hleast : ∀ other ∈ regions, other.contains lng lat = true → region.bboxArea ≤ other.bboxArea :=
        fun other hother hinside => List.le_of_mem_argmin (List.mem_filter.mpr ⟨hother, hinside⟩) hregion
      exact ⟨(List.mem_filter.mp hmem).1, (List.mem_filter.mp hmem).2, hleast⟩
    · rw [List.argmin_eq_none, List.filter_eq_nil_iff]
      simp

/-- The city lies in the oblast, which is given without its hole. -/
def kyivFeatures : List Feature :=
  [⟨some "UA-32", .polygon [[(29, 49), (32, 49), (32, 52), (29, 52), (29, 49)]]⟩,
    ⟨some "UA-30", .polygon [[(30, 50), (31, 50), (31, 51), (30, 51), (30, 50)]]⟩]

def kyivRegions : List BoundedRegion := (build (1 / 100) 4 kyivFeatures).toOption.getD []

theorem build_kyivFeatures : build (1 / 100) 4 kyivFeatures = .ok kyivRegions := by
  have hok : (build (1 / 100) 4 kyivFeatures).toOption.isSome = true := by decide +kernel
  unfold kyivRegions
  cases hbuild : build (1 / 100) 4 kyivFeatures with
  | error e =>
    rw [hbuild] at hok
    cases hok
  | ok regions => rfl

theorem kyivRegions_resolve :
    (∀ region, resolveRegion kyivRegions (101 / 2) (61 / 2) = some region →
      region ∈ kyivRegions ∧ region.contains (61 / 2) (101 / 2) = true ∧
        ∀ other ∈ kyivRegions, other.contains (61 / 2) (101 / 2) = true → region.bboxArea ≤ other.bboxArea) ∧
    (resolveRegion kyivRegions (101 / 2) (61 / 2) = none ↔
      inEnvelope (101 / 2) (61 / 2) = false ∨ ∀ region ∈ kyivRegions, region.contains (61 / 2) (101 / 2) = false) :=
  resolves_to_smallest_region build_kyivFeatures (101 / 2) (61 / 2)

end SubmissionsChecker
