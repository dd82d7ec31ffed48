import SubmissionsChecker.Library.CyclicParity
import SubmissionsChecker.Services.AirRaidGeo
import Mathlib.Tactic.FieldSimp
import Mathlib.Tactic.Ring
import Mathlib.Tactic.Linarith

/-! Ray casting is the parity of the edges crossed around the ring: a chord splits it cleanly, and neither the first
vertex nor the direction matters. -/

namespace SubmissionsChecker

section

variable {lng lat : ℚ} {a b : GeoPoint}

/-- An edge is crossed alike from both of its ends. -/
theorem crossesEdge_comm (a b : GeoPoint) : crossesEdge lng lat a b = crossesEdge lng lat b a := by
  unfold crossesEdge
  by_cases h : a.2 = b.2
  · simp [h]
  · have hab : a.2 - b.2 ≠ 0 := sub_ne_zero.mpr h
    have hba : b.2 - a.2 ≠ 0 := sub_ne_zero.mpr (Ne.symm h)
    have hcrossing : (a.1 - b.1) * (lat - b.2) / (a.2 - b.2) + b.1 = (b.1 - a.1) * (lat - a.2) / (b.2 - a.2) + a.1 := by
      rw [div_add' _ _ _ hab, div_add' _ _ _ hba, div_eq_div_iff hab hba]
      ring
    rw [hcrossing, bne_comm]

theorem crossesEdge_self (a : GeoPoint) : crossesEdge lng lat a a = false := by
  simp [crossesEdge]

theorem foldl_ringTurn (ring : GeoRing) (inside : Bool) (previous : GeoPoint) :
    (ring.foldl (ringTurn lng lat) (inside, previous)).1 =
      (inside ^^ CyclicParity.path (crossesEdge lng lat) (previous :: ring)) := by
  induction ring generalizing inside previous with
  | nil => simp [CyclicParity.path]
  | cons vertex ring ih =>
    have hturn : ringTurn lng lat (inside, previous) vertex =
        (if crossesEdge lng lat previous vertex then !inside else inside, vertex) := rfl
    rw [List.foldl_cons, CyclicParity.path_cons_cons, hturn, ih]
    cases crossesEdge lng lat previous vertex <;> simp

theorem pointInRing_eq (ring : GeoRing) : pointInRing lng lat ring = CyclicParity.closed (crossesEdge lng lat) ring := by
  rcases ring.eq_nil_or_concat' with rfl | ⟨front, last, rfl⟩
  · rfl
  · unfold pointInRing
    rw [List.getLast?_concat]
    dsimp only
    rw [foldl_ringTurn, Bool.false_xor, CyclicParity.closed_rotate_one]
    rfl

end

/-- The two rings that the chord between the vertices at `i` and `j` cuts a ring into. -/
def cutRing (ring : GeoRing) (i j : ℕ) : GeoRing × GeoRing :=
  ((ring.take (j + 1)).drop i, ring.take (i + 1) ++ ring.drop j)

theorem pointInRing_cut {lng lat : ℚ} {ring : GeoRing} {i j : ℕ} (hij : i ≤ j) (hj : j < ring.length) :
    pointInRing lng lat ring =
      (pointInRing lng lat (cutRing ring i j).1 ^^ pointInRing lng lat (cutRing ring i j).2) := by
  have hi : i < ring.length := hij.trans_lt hj
  have hring : ring = ring.take i ++ ring[i] :: ring.drop (i + 1) := by simp
  unfold cutRing
  rw [pointInRing_eq, pointInRing_eq, pointInRing_eq, List.take_succ_eq_append_getElem hi]
  rcases hij.eq_or_lt with rfl | hlt
  · have hone : (ring.take (i + 1)).drop i = [ring[i]] := by
      rw [List.take_succ_eq_append_getElem hi, List.drop_append_of_le_length (by simp [hi.le])]
      simp
    have hzero : CyclicParity.closed (crossesEdge lng lat) [ring[i]] = false := by
      simp [CyclicParity.closed, CyclicParity.path, crossesEdge_self]
    rw [hone, hzero, Bool.false_xor, List.drop_eq_getElem_cons hi, List.append_assoc, List.singleton_append,
      CyclicParity.closed_repeat crossesEdge_self, ← hring]
  · set middle := (ring.take j).drop (i + 1) with hmiddle
    have hpart : (ring.take (j + 1)).drop i = ring[i] :: middle ++ [ring[j]] := by
      rw [List.take_succ_eq_append_getElem hj, List.drop_append_of_le_length (by simp; omega),
        List.drop_eq_getElem_cons (by simp; omega)]
      simp [hmiddle]
    have hcut : ring = ring.take i ++ ring[i] :: middle ++ ring[j] :: ring.drop (j + 1) := by
      have htail : ring.drop (i + 1) = middle ++ ring[j] :: ring.drop (j + 1) := by
        have hback : ring.drop j = (ring.drop (i + 1)).drop (j - (i + 1)) := by
          rw [List.drop_drop, Nat.add_sub_cancel' hlt]
        rw [← List.drop_eq_getElem_cons hj, hmiddle, List.drop_take, hback, List.take_append_drop]
      rw [List.append_assoc, List.cons_append, ← htail, ← hring]
    rw [hpart, List.drop_eq_getElem_cons hj, List.append_assoc, List.singleton_append]
    conv_lhs => rw [hcut]
    exact CyclicParity.closed_chord crossesEdge_comm

/-- A chord splits a ring, and a ring is the same from every vertex, in both directions and when it is closed. -/
theorem rayCasting_splits (lng lat : ℚ) (ring : GeoRing) :
    (∀ i j : Fin ring.length, pointInRing lng lat ring =
      (pointInRing lng lat (cutRing ring (min i.val j.val) (max i.val j.val)).1 ^^
        pointInRing lng lat (cutRing ring (min i.val j.val) (max i.val j.val)).2)) ∧
      pointInRing lng lat ring.reverse = pointInRing lng lat ring ∧
      (∀ n, pointInRing lng lat (ring.rotate n) = pointInRing lng lat ring) ∧
      pointInRing lng lat (ring ++ ring.head?.toList) = pointInRing lng lat ring := by
  refine ⟨fun i j => ?_, ?_, fun n => ?_, ?_⟩
  · exact pointInRing_cut min_le_max (max_lt i.isLt j.isLt)
  · rw [pointInRing_eq, pointInRing_eq, CyclicParity.closed_reverse crossesEdge_comm]
  · rw [pointInRing_eq, pointInRing_eq, CyclicParity.closed_rotate]
  · rw [pointInRing_eq, pointInRing_eq]
    cases ring with
    | nil => rfl
    | cons a ring =>
      calc CyclicParity.closed (crossesEdge lng lat) (a :: ring ++ [a])
          = CyclicParity.closed (crossesEdge lng lat) (a :: a :: ring) := CyclicParity.closed_rotate_one
        _ = CyclicParity.closed (crossesEdge lng lat) (a :: ring) := by
            rw [← List.nil_append (a :: a :: ring), CyclicParity.closed_repeat crossesEdge_self, List.nil_append]

/-- The region of one ring without holes. -/
def Region.ofRing (uid : ℕ) (ring : GeoRing) : Region := { uid, polygons := [{ outer := ring, holes := [] }] }

/-- A point of an area that a chord cuts in two is claimed by one of the two. -/
theorem contains_cut {ring : GeoRing} {i j : ℕ} (hij : i ≤ j) (hj : j < ring.length) (uid uid' lng lat) :
    (Region.ofRing uid ring).contains lng lat =
      ((Region.ofRing uid (cutRing ring i j).1).contains lng lat ^^
        (Region.ofRing uid' (cutRing ring i j).2).contains lng lat) := by
  have hcontains : ∀ uid ring, (Region.ofRing uid ring).contains lng lat = pointInRing lng lat ring := by
    intro uid ring
    simp [Region.ofRing, Region.contains]
  rw [hcontains, hcontains, hcontains, pointInRing_cut hij hj]

end SubmissionsChecker
