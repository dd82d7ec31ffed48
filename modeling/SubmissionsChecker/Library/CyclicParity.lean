import Mathlib.Data.List.Rotate

/-! The parity of a symmetric relation along paths and around rings. A ring is read from any vertex and in either
direction, and is the sum of the two rings that a chord cuts it into. -/

namespace CyclicParity

variable {α : Type*} (c : α → α → Bool)

/-- Along a path. -/
def path : List α → Bool
  | [] => false
  | [_] => false
  | a :: b :: rest => c a b ^^ path (b :: rest)

/-- Around a ring, back to its first vertex. -/
def closed : List α → Bool
  | [] => false
  | a :: rest => path c (a :: rest ++ [a])

section

variable {c} {a b m : α} {xs ys zs : List α}

theorem path_cons_cons : path c (a :: b :: xs) = (c a b ^^ path c (b :: xs)) := rfl

/-- A path is split at a vertex. -/
theorem path_split : path c (xs ++ m :: ys) = (path c (xs ++ [m]) ^^ path c (m :: ys)) := by
  induction xs with
  | nil => simp [path]
  | cons x xs ih =>
    cases xs with
    | nil => simp [path]
    | cons x' xs =>
      simp only [List.cons_append, path_cons_cons]
      rw [← List.cons_append, ih, Bool.xor_assoc, List.cons_append]

theorem path_reverse (hc : ∀ a b, c a b = c b a) : path c xs.reverse = path c xs := by
  induction xs with
  | nil => rfl
  | cons a xs ih =>
    cases xs with
    | nil => rfl
    | cons b xs =>
      have hfirst : path c (a :: b :: xs) = (c a b ^^ path c (b :: xs)) := path_cons_cons
      rw [hfirst, List.reverse_cons, List.reverse_cons, List.append_assoc, List.singleton_append, path_split,
        ← List.reverse_cons, ih, Bool.xor_comm]
      simp [path, hc b a]

theorem closed_cons_cons : closed c (a :: b :: xs) = (c a b ^^ path c (b :: xs ++ [a])) := rfl

/-- The ring may start at its second vertex. -/
theorem closed_rotate_one : closed c (xs ++ [a]) = closed c (a :: xs) := by
  cases xs with
  | nil => rfl
  | cons b xs =>
    have hend : closed c (b :: xs ++ [a]) = path c (b :: xs ++ a :: [b]) := by
      change path c (b :: xs ++ [a] ++ [b]) = _
      rw [List.append_assoc, List.singleton_append]
    rw [hend, path_split, closed_cons_cons, Bool.xor_comm]
    simp [path]

theorem closed_append_comm : closed c (xs ++ ys) = closed c (ys ++ xs) := by
  induction xs generalizing ys with
  | nil => rw [List.append_nil, List.nil_append]
  | cons a xs ih =>
    calc closed c (a :: xs ++ ys) = closed c (xs ++ ys ++ [a]) := closed_rotate_one.symm
      _ = closed c (xs ++ (ys ++ [a])) := by rw [List.append_assoc]
      _ = closed c (ys ++ [a] ++ xs) := ih
      _ = closed c (ys ++ a :: xs) := by rw [List.append_assoc, List.singleton_append]

theorem closed_rotate (n : ℕ) : closed c (xs.rotate n) = closed c xs := by
  have hmod : xs.rotate (n % xs.length) = xs.rotate n := List.rotate_mod xs n
  rcases xs.eq_nil_or_concat with rfl | hne
  · rw [List.rotate_nil]
  · have hpos : 0 < xs.length := by
      obtain ⟨ys, y, rfl⟩ := hne
      simp
    rw [← hmod, List.rotate_eq_drop_append_take (Nat.mod_lt n hpos).le, closed_append_comm, List.take_append_drop]

theorem closed_reverse (hc : ∀ a b, c a b = c b a) : closed c xs.reverse = closed c xs := by
  cases xs with
  | nil => rfl
  | cons a xs =>
    calc closed c (a :: xs).reverse = closed c (xs.reverse ++ [a]) := by rw [List.reverse_cons]
      _ = closed c (a :: xs.reverse) := closed_rotate_one
      _ = path c (a :: xs ++ [a]).reverse := by
          rw [List.reverse_append, List.reverse_singleton, List.reverse_cons]
          rfl
      _ = path c (a :: xs ++ [a]) := path_reverse hc
      _ = closed c (a :: xs) := rfl

/-- A vertex may stand twice. -/
theorem closed_repeat (hc : ∀ a, c a a = false) : closed c (xs ++ a :: a :: ys) = closed c (xs ++ a :: ys) := by
  calc closed c (xs ++ a :: a :: ys) = closed c (a :: a :: (ys ++ xs)) := closed_append_comm
    _ = (c a a ^^ path c (a :: (ys ++ xs) ++ [a])) := closed_cons_cons
    _ = closed c (a :: (ys ++ xs)) := by
        rw [hc, Bool.false_xor]
        rfl
    _ = closed c (xs ++ a :: ys) := (show closed c (xs ++ a :: ys) = closed c (a :: ys ++ xs) from closed_append_comm).symm

/-- The chord is walked in both directions and cancels out. -/
theorem closed_chord (hc : ∀ a b, c a b = c b a) :
    closed c (xs ++ a :: ys ++ b :: zs) = (closed c (a :: ys ++ [b]) ^^ closed c (xs ++ a :: b :: zs)) := by
  have hring : closed c (xs ++ a :: ys ++ b :: zs) = (path c (a :: ys ++ [b]) ^^ path c (b :: (zs ++ xs) ++ [a])) := by
    calc closed c (xs ++ a :: ys ++ b :: zs) = closed c (xs ++ (a :: ys ++ b :: zs)) := by rw [List.append_assoc]
      _ = closed c (a :: ys ++ b :: zs ++ xs) := closed_append_comm
      _ = path c (a :: ys ++ b :: (zs ++ xs ++ [a])) := by
          change path c (a :: (ys ++ b :: zs ++ xs) ++ [a]) = _
          simp
      _ = _ := path_split
  have hone : closed c (a :: ys ++ [b]) = (path c (a :: ys ++ [b]) ^^ c a b) := by
    change path c (a :: (ys ++ [b]) ++ [a]) = _
    rw [show a :: (ys ++ [b]) ++ [a] = (a :: ys) ++ b :: [a] by simp, path_split]
    simp [path, hc b a]
  have htwo : closed c (xs ++ a :: b :: zs) = (c a b ^^ path c (b :: (zs ++ xs) ++ [a])) := by
    rw [closed_append_comm]
    change closed c (a :: b :: (zs ++ xs)) = _
    exact closed_cons_cons
  rw [hring, hone, htwo]
  cases c a b <;> simp

theorem path_congr {c' : α → α → Bool} (h : ∀ a ∈ xs, ∀ b ∈ xs, c a b = c' a b) : path c xs = path c' xs := by
  induction xs with
  | nil => rfl
  | cons a xs ih =>
    cases xs with
    | nil => rfl
    | cons b xs =>
      rw [path_cons_cons, path_cons_cons, h a (by simp) b (by simp),
        ih fun a' ha b' hb => h a' (List.mem_cons_of_mem _ ha) b' (List.mem_cons_of_mem _ hb)]

theorem closed_congr {c' : α → α → Bool} (h : ∀ a ∈ xs, ∀ b ∈ xs, c a b = c' a b) : closed c xs = closed c' xs := by
  cases xs with
  | nil => rfl
  | cons a xs =>
    have hmem : ∀ b ∈ a :: xs ++ [a], b ∈ a :: xs := by
      intro b hb
      rcases List.mem_append.mp hb with hb | hb
      · exact hb
      · rw [List.mem_singleton.mp hb]
        exact List.mem_cons_self
    exact path_congr fun a' ha b' hb => h a' (hmem a' ha) b' (hmem b' hb)

theorem path_bne (g : α → Bool) : path (fun a b => g a != g b) (a :: xs ++ [b]) = (g a != g b) := by
  induction xs generalizing a with
  | nil => simp [path]
  | cons a' xs ih =>
    rw [List.cons_append, List.cons_append, path_cons_cons, ← List.cons_append, ih]
    cases g a <;> cases g a' <;> cases g b <;> rfl

/-- What two sides of a ring are told apart by changes an even number of times. -/
theorem closed_bne (g : α → Bool) : closed (fun a b => g a != g b) xs = false := by
  cases xs with
  | nil => rfl
  | cons a xs =>
    refine (path_bne g).trans ?_
    rw [bne_self_eq_false]

end

end CyclicParity
