import Mathlib.Data.List.MinMax
import SubmissionsChecker.Library.Refinement
import SubmissionsChecker.Library.Rounding
import SubmissionsChecker.Services.AirRaidGeo

/-! `scripts/build_oblast_boundaries.py`, which writes the simplified boundaries of the oblasts, and
`resolve_region` of `services/air_raid/geo.py`, which reads them. Coordinates are rationals, and
distances are compared by their squares. -/

namespace SubmissionsChecker

/-! ## Ramer-Douglas-Peucker -/

/-- The square of `perp_dist`. -/
def perpDistSq (p a b : GeoPoint) : ℚ :=
  let dx := b.1 - a.1
  let dy := b.2 - a.2
  if dx = 0 ∧ dy = 0 then (p.1 - a.1) ^ 2 + (p.2 - a.2) ^ 2
  else (dy * p.1 - dx * p.2 + b.1 * a.2 - b.2 * a.1) ^ 2 / (dx * dx + dy * dy)

def pointAt (points : List GeoPoint) (i : ℕ) : GeoPoint := points.getD i (0, 0)

/-- `d` of the loop, for index `i` between `gap.1` and `gap.2`. -/
def deviation (points : List GeoPoint) (gap : ℕ × ℕ) (i : ℕ) : ℚ :=
  perpDistSq (pointAt points i) (pointAt points gap.1) (pointAt points gap.2)

/-- One turn of the inner loop: `worst` and `worst_i`. -/
def worstTurn (d : ℕ → ℚ) (worst : ℚ × Option ℕ) (i : ℕ) : ℚ × Option ℕ :=
  if worst.1 < d i then (d i, some i) else worst

def worstOf (points : List GeoPoint) (gap : ℕ × ℕ) : ℚ × Option ℕ :=
  (List.range' (gap.1 + 1) (gap.2 - (gap.1 + 1))).foldl (worstTurn (deviation points gap)) (0, none)

/-- `worst > eps` of a worst distance that is given by its square. -/
def exceeds (eps worst : ℚ) : Bool := decide (eps < 0) || decide (eps * eps < worst)

def worstIndex (eps : ℚ) (points : List GeoPoint) (gap : ℕ × ℕ) : Option ℕ :=
  (worstOf points gap).2.filter fun _ => exceeds eps (worstOf points gap).1

/-- What the inner loop knows of the indices it has seen. -/
structure WorstOf (d : ℕ → ℚ) (seen : List ℕ) (worst : ℚ × Option ℕ) : Prop where
  nonneg : 0 ≤ worst.1
  most : ∀ i ∈ seen, d i ≤ worst.1
  index : ∀ i, worst.2 = some i → i ∈ seen ∧ d i = worst.1
  none : worst.2 = none → worst.1 = 0

theorem worstOf_turn {d : ℕ → ℚ} {seen : List ℕ} {worst : ℚ × Option ℕ} (h : WorstOf d seen worst) (i : ℕ) :
    WorstOf d (seen ++ [i]) (worstTurn d worst i) := by
  unfold worstTurn
  split_ifs with hlt
  · refine ⟨h.nonneg.trans hlt.le, fun j hj => ?_, fun j hj => ?_, fun hnone => ?_⟩
    · rcases List.mem_append.mp hj with hj | hj
      · exact (h.most j hj).trans hlt.le
      · rw [List.mem_singleton.mp hj]
    · cases hj
      exact ⟨by simp, rfl⟩
    · cases hnone
  · refine ⟨h.nonneg, fun j hj => ?_, fun j hj => ?_, h.none⟩
    · rcases List.mem_append.mp hj with hj | hj
      · exact h.most j hj
      · rw [List.mem_singleton.mp hj]
        exact not_lt.mp hlt
    · exact ⟨List.mem_append_left _ (h.index j hj).1, (h.index j hj).2⟩

theorem worstOf_spec (points : List GeoPoint) (gap : ℕ × ℕ) :
    WorstOf (deviation points gap) (List.range' (gap.1 + 1) (gap.2 - (gap.1 + 1))) (worstOf points gap) := by
  have hloop : ∀ (todo seen : List ℕ) (worst : ℚ × Option ℕ), WorstOf (deviation points gap) seen worst →
      WorstOf (deviation points gap) (seen ++ todo) (todo.foldl (worstTurn (deviation points gap)) worst) := by
    intro todo
    induction todo with
    | nil =>
      intro seen worst h
      rw [List.append_nil]
      exact h
    | cons i todo ih =>
      intro seen worst h
      have hnext := ih (seen ++ [i]) _ (worstOf_turn h i)
      rw [List.append_assoc] at hnext
      exact hnext
  refine hloop _ [] (0, none) ⟨le_refl _, fun i hi => ?_, fun i hi => ?_, fun _ => rfl⟩
  · cases hi
  · cases hi

theorem mem_between {gap : ℕ × ℕ} {i : ℕ} :
    i ∈ List.range' (gap.1 + 1) (gap.2 - (gap.1 + 1)) ↔ gap.1 < i ∧ i < gap.2 := by
  rw [List.mem_range'_1]
  omega

theorem worstIndex_inside (eps : ℚ) (points : List GeoPoint) (gap : ℕ × ℕ) (i : ℕ)
    (h : worstIndex eps points gap = some i) : gap.1 < i ∧ i < gap.2 :=
  mem_between.mp ((worstOf_spec points gap).index i (Option.filter_eq_some_iff.mp h).1).1

def rdpCutter (eps : ℚ) (points : List GeoPoint) : Refinement.Cutter := ⟨worstIndex eps points, worstIndex_inside eps points⟩

/-- `[p for p, k in zip(points, keep) if k]` -/
def keptPoints (points : List GeoPoint) (keep : List Bool) : List GeoPoint :=
  ((points.zip keep).filter (·.2)).map (·.1)

def endsKept (n : ℕ) : List Bool := ((List.replicate n false).set 0 true).set (n - 1) true

/-- `rdp` -/
def rdp (points : List GeoPoint) (eps : ℚ) : List GeoPoint :=
  if points.length < 3 then points
  else keptPoints points (Refinement.run (rdpCutter eps points) [(0, points.length - 1)] (endsKept points.length))

/-! ## The file -/

/-- `ISO_TO_UID` -/
def isoToUid : List (String × ℕ × String) :=
  [("UA-68", 3, "Хмельницька область"), ("UA-05", 4, "Вінницька область"), ("UA-56", 5, "Рівненська область"),
    ("UA-07", 8, "Волинська область"), ("UA-12", 9, "Дніпропетровська область"), ("UA-18", 10, "Житомирська область"),
    ("UA-21", 11, "Закарпатська область"), ("UA-23", 12, "Запорізька область"),
    ("UA-26", 13, "Івано-Франківська область"), ("UA-32", 14, "Київська область"),
    ("UA-35", 15, "Кіровоградська область"), ("UA-09", 16, "Луганська область"), ("UA-48", 17, "Миколаївська область"),
    ("UA-51", 18, "Одеська область"), ("UA-53", 19, "Полтавська область"), ("UA-59", 20, "Сумська область"),
    ("UA-61", 21, "Тернопільська область"), ("UA-63", 22, "Харківська область"), ("UA-65", 23, "Херсонська область"),
    ("UA-71", 24, "Черкаська область"), ("UA-74", 25, "Чернігівська область"), ("UA-77", 26, "Чернівецька область"),
    ("UA-46", 27, "Львівська область"), ("UA-14", 28, "Донецька область"), ("UA-43", 29, "Автономна Республіка Крим"),
    ("UA-40", 30, "м. Севастополь"), ("UA-30", 31, "м. Київ")]

inductive Geometry
  | polygon (rings : List GeoRing)
  | multiPolygon (polygons : List (List GeoRing))

structure Feature where
  shapeISO : Option String
  geometry : Geometry

inductive BoundaryError
  | unmapped (shapeISO : Option String)
  | indexError
  | simplifiedAway (title : String)
  deriving DecidableEq, Repr

/-- `lng_min, lat_min, lng_max, lat_max` -/
structure Bbox where
  lngMin : ℚ
  latMin : ℚ
  lngMax : ℚ
  latMax : ℚ

/-- A region of the file. -/
structure BoundedRegion extends Region where
  title : String
  bbox : Bbox

/-- `polys_of` -/
def polysOf (geom : Geometry) : Except BoundaryError (List GeoPolygon) :=
  let raw := match geom with
    | .polygon rings => [rings]
    | .multiPolygon polygons => polygons
  raw.mapM fun rings =>
    match rings with
    | [] => .error .indexError
    | outer :: holes => .ok ⟨outer, holes⟩

/-- `round(x, ndigits)` -/
def roundTo (ndigits : ℕ) (x : ℚ) : ℚ := Rounding.halfEvenTo (10 ^ ndigits) x

def simpleRing (eps : ℚ) (ndigits : ℕ) (ring : GeoRing) : GeoRing :=
  rdp (ring.map fun p => (roundTo ndigits p.1, roundTo ndigits p.2)) eps

/-- A polygon whose outer ring is simplified away is dropped, and so is a hole. -/
def simplePolygon (eps : ℚ) (ndigits : ℕ) (polygon : GeoPolygon) : Option GeoPolygon :=
  if (simpleRing eps ndigits polygon.outer).length < 4 then none
  else some ⟨simpleRing eps ndigits polygon.outer,
    (polygon.holes.map (simpleRing eps ndigits)).filter fun hole => 4 ≤ hole.length⟩

/-- `min` and `max` of the coordinates of the outer rings. -/
def bboxOf (ndigits : ℕ) (polygons : List GeoPolygon) : Bbox :=
  let xs := (polygons.flatMap (·.outer)).map (·.1)
  let ys := (polygons.flatMap (·.outer)).map (·.2)
  { lngMin := roundTo ndigits (xs.min?.getD 0)
    latMin := roundTo ndigits (ys.min?.getD 0)
    lngMax := roundTo ndigits (xs.max?.getD 0)
    latMax := roundTo ndigits (ys.max?.getD 0) }

/-- What is left of the polygons of a feature. -/
def simplePolygons (eps : ℚ) (ndigits : ℕ) (polygons : List GeoPolygon) : List GeoPolygon :=
  polygons.filterMap (simplePolygon eps ndigits)

/-- One turn of the loop of `build`. -/
def buildRegion (eps : ℚ) (ndigits : ℕ) (feature : Feature) : Except BoundaryError BoundedRegion :=
  match feature.shapeISO.bind fun iso => isoToUid.lookup iso with
  | none => .error (.unmapped feature.shapeISO)
  | some (uid, title) => do
    let polys := simplePolygons eps ndigits (← polysOf feature.geometry)
    if polys = [] then .error (.simplifiedAway title)
    else return { uid := uid, polygons := polys, title := title, bbox := bboxOf ndigits polys }

/-- `build`: the regions of the file. -/
def build (eps : ℚ) (ndigits : ℕ) (features : List Feature) : Except BoundaryError (List BoundedRegion) := do
  let regions ← features.mapM (buildRegion eps ndigits)
  return regions.mergeSort fun a b => decide (a.uid ≤ b.uid)

/-! ## Resolving -/

/-- Ukraine's overall envelope. -/
def inEnvelope (lat lng : ℚ) : Bool := decide (43 ≤ lat ∧ lat ≤ 53 ∧ 43 / 2 ≤ lng ∧ lng ≤ 41)

def Bbox.contains (bbox : Bbox) (lng lat : ℚ) : Bool :=
  decide (bbox.lngMin ≤ lng ∧ lng ≤ bbox.lngMax ∧ bbox.latMin ≤ lat ∧ lat ≤ bbox.latMax)

/-- `bbox_area` -/
def BoundedRegion.bboxArea (region : BoundedRegion) : ℚ :=
  (region.bbox.lngMax - region.bbox.lngMin) * (region.bbox.latMax - region.bbox.latMin)

/-- `resolve_region`; `regions` is what `load_regions` reads. -/
def resolveRegion (regions : List BoundedRegion) (lat lng : ℚ) : Option BoundedRegion :=
  if inEnvelope lat lng then
    (regions.filter fun region => region.bbox.contains lng lat && region.contains lng lat).argmin BoundedRegion.bboxArea
  else none

end SubmissionsChecker
