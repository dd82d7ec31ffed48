import Mathlib.Data.Rat.Defs
import Mathlib.Algebra.Order.Field.Rat

/-! `services/air_raid/geo.py`: which region a point is in, by ray casting. Coordinates are rationals. -/

namespace SubmissionsChecker

/-- A longitude and a latitude. -/
abbrev GeoPoint := ℚ × ℚ

abbrev GeoRing := List GeoPoint

/-- An outer ring and its holes. -/
structure GeoPolygon where
  outer : GeoRing
  holes : List GeoRing

structure Region where
  uid : ℕ
  polygons : List GeoPolygon

/-- The turn of the loop crosses the edge from `ring[j]` to `ring[i]`. -/
def crossesEdge (lng lat : ℚ) (j i : GeoPoint) : Bool :=
  decide (lat < i.2) != decide (lat < j.2) && decide (lng < (j.1 - i.1) * (lat - i.2) / (j.2 - i.2) + i.1)

/-- A turn of the loop: `inside`, and the vertex before. -/
def ringTurn (lng lat : ℚ) (state : Bool × GeoPoint) (vertex : GeoPoint) : Bool × GeoPoint :=
  (if crossesEdge lng lat state.2 vertex then !state.1 else state.1, vertex)

/-- `_point_in_ring`. -/
def pointInRing (lng lat : ℚ) (ring : GeoRing) : Bool :=
  match ring.getLast? with
  | none => false
  | some last => (ring.foldl (ringTurn lng lat) (false, last)).1

/-- `_contains`. -/
def Region.contains (region : Region) (lng lat : ℚ) : Bool :=
  region.polygons.any fun polygon =>
    pointInRing lng lat polygon.outer && !polygon.holes.any (pointInRing lng lat)

end SubmissionsChecker
