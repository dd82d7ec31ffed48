import SubmissionsChecker.Core.RateLimit
import Mathlib.Data.List.Induction
import Mathlib.Data.Rat.Defs
import Mathlib.Algebra.Order.Ring.Rat

/-! The login throttle is a sliding window: what it answers is read off the history of its calls. -/

namespace SubmissionsChecker

namespace LimiterCall

variable {Time : Type*}

/-- What the clock said. -/
def reading : LimiterCall Time → Option Time
  | .isBlocked _ now => some now
  | .recordFailure _ now => some now
  | .reset _ => none

/-- The failure of the key that a call records. -/
def failureOf (key : String) : LimiterCall Time → Option Time
  | .recordFailure k now => if k = key then some now else none
  | _ => none

def isResetOf (key : String) : LimiterCall Time → Bool
  | .reset k => k == key
  | _ => false

/-- A failure or a reset of the key. -/
def concerns (key : String) (call : LimiterCall Time) : Bool := (call.failureOf key).isSome || call.isResetOf key

/-- The calls after the last reset of the key. -/
def sinceReset (key : String) (calls : List (LimiterCall Time)) : List (LimiterCall Time) :=
  (calls.reverse.takeWhile fun call => !call.isResetOf key).reverse

/-- The failures of the key after its last reset. -/
def failures (key : String) (calls : List (LimiterCall Time)) : List Time :=
  (sinceReset key calls).filterMap (failureOf key)

/-- The clock never goes back, up to now. -/
def Clocked [LinearOrder Time] (calls : List (LimiterCall Time)) (now : Time) : Prop :=
  (calls.filterMap reading ++ [now]).Pairwise (· ≤ ·)

section

variable {key : String} {calls : List (LimiterCall Time)} {call : LimiterCall Time} {now : Time}

theorem failures_append_reset (h : call.isResetOf key = true) : failures key (calls ++ [call]) = [] := by
  unfold failures sinceReset
  simp [h]

theorem failures_append (h : call.isResetOf key = false) :
    failures key (calls ++ [call]) = failures key calls ++ (call.failureOf key).toList := by
  unfold failures sinceReset
  rw [List.reverse_append, List.reverse_singleton, List.singleton_append, List.takeWhile_cons]
  simp only [h, Bool.not_false, if_true, List.reverse_cons, List.filterMap_append]
  cases hf : call.failureOf key <;> simp [hf]

/-- Calls that concern other keys leave the failures of the key. -/
theorem failures_filter : failures key (calls.filter (concerns key)) = failures key calls := by
  induction calls using List.reverseRecOn with
  | nil => rfl
  | append_singleton calls call ih =>
    rw [List.filter_append]
    cases hr : call.isResetOf key with
    | true =>
      have hkept : [call].filter (concerns key) = [call] := by simp [concerns, hr]
      rw [hkept, failures_append_reset hr, failures_append_reset hr]
    | false =>
      cases hf : call.failureOf key with
      | none =>
        have hdropped : [call].filter (concerns key) = [] := by simp [concerns, hr, hf]
        rw [hdropped, List.append_nil, ih, failures_append hr, hf]
        simp
      | some time =>
        have hkept : [call].filter (concerns key) = [call] := by simp [concerns, hr, hf]
        rw [hkept, failures_append hr, failures_append hr, ih]

end

end LimiterCall

theorem LimiterEvents.queue_pop {Time : Type*} {events : LimiterEvents Time} {key k : String} :
    (events.pop k).queue key = if key = k then [] else events.queue key := by
  unfold pop queue
  by_cases h : key = k
  · have hnone : (events.filter fun e => e.1 != k).lookup key = none := by
      rw [Assoc.lookup_none_iff]
      intro hmem
      obtain ⟨e, he, hkey⟩ := List.mem_map.mp hmem
      have hne := (List.mem_filter.mp he).2
      rw [hkey, h] at hne
      simp at hne
    rw [hnone, if_pos h]
    rfl
  · rw [Assoc.lookup_filter_ne h, if_neg h]

namespace SlidingWindowLimiter

open LimiterCall

variable {Time : Type*} [LinearOrder Time] {limiter : SlidingWindowLimiter Time} {events : LimiterEvents Time}
  {calls : List (LimiterCall Time)} {call : LimiterCall Time} {key k : String} {now t : Time} {q : List Time}

/-! Deques -/

theorem queue_prune : (limiter.prune events k now).queue key =
    if key = k then limiter.pruned events k now else events.queue key := by
  unfold prune LimiterEvents.queue
  rw [Assoc.lookup_set]
  split_ifs <;> rfl

theorem queue_recordFailure : (limiter.recordFailure events k now).queue key =
    if key = k then limiter.pruned events k now ++ [now] else events.queue key := by
  unfold recordFailure LimiterEvents.queue
  rw [Assoc.lookup_set]
  split_ifs <;> rfl

/-- In a sorted deque what the front loses is all that is too old. -/
theorem dropWhile_eq_filter {cutoff : Time} (h : q.Pairwise (· ≤ ·)) :
    (q.dropWhile fun time => time ≤ cutoff) = q.filter fun time => cutoff < time := by
  induction q with
  | nil => rfl
  | cons x q ih =>
    rw [List.pairwise_cons] at h
    by_cases hx : x ≤ cutoff
    · rw [List.dropWhile_cons_of_pos (by simpa using hx), List.filter_cons_of_neg (by simpa using hx), ih h.2]
    · have hall : ∀ y ∈ x :: q, decide (cutoff < y) = true := by
        intro y hy
        rcases List.mem_cons.mp hy with rfl | hy
        · simpa using hx
        · simpa using (not_le.mp hx).trans_le (h.1 y hy)
      rw [List.dropWhile_cons_of_neg (by simpa using hx), List.filter_eq_self.mpr hall]

/-- What is pruned is too old for every later window. -/
theorem filter_dropWhile {cutoff later : Time} (h : cutoff ≤ later) :
    ((q.dropWhile fun time => time ≤ cutoff).filter fun time => later < time) = q.filter fun time => later < time := by
  induction q with
  | nil => rfl
  | cons x q ih =>
    by_cases hx : x ≤ cutoff
    · rw [List.dropWhile_cons_of_pos (by simpa using hx), List.filter_cons_of_neg (by simpa using hx.trans h), ih]
    · rw [List.dropWhile_cons_of_neg (by simpa using hx)]

/-! Runs -/

/-- The deques after calls: sorted, of the past, and right about every window from now on. -/
structure Tracks (limiter : SlidingWindowLimiter Time) (calls : List (LimiterCall Time)) (events : LimiterEvents Time) :
    Prop where
  sorted : ∀ key, (events.queue key).Pairwise (· ≤ ·)
  past : ∀ key, ∀ x ∈ events.queue key, x ∈ calls.filterMap reading
  window : ∀ key t, (∀ x ∈ calls.filterMap reading, x ≤ t) →
    (events.queue key).filter (fun time => limiter.cutoff t < time) =
      (failures key calls).filter fun time => limiter.cutoff t < time

theorem Tracks.nil : Tracks limiter [] [] where
  sorted := fun _ => List.Pairwise.nil
  past := fun _ _ h => absurd h List.not_mem_nil
  window := fun _ _ _ => rfl

theorem Tracks.step (h : Tracks limiter calls events)
    (hclock : ∀ x ∈ calls.filterMap reading, ∀ now, call.reading = some now → x ≤ now) :
    Tracks limiter (calls ++ [call]) (limiter.step events call) := by
  have hmem : ∀ x ∈ calls.filterMap reading, x ∈ (calls ++ [call]).filterMap reading := fun x hx => by
    rw [List.filterMap_append]
    exact List.mem_append_left _ hx
  have hpruned : ∀ k now, (limiter.pruned events k now).Sublist (events.queue k) := fun k now =>
    List.dropWhile_sublist _
  cases call with
  | isBlocked k now =>
    have hqueue : ∀ key, (limiter.step events (.isBlocked k now)).queue key =
        if key = k then limiter.pruned events k now else events.queue key := fun key => queue_prune
    have hsub : ∀ key, ((limiter.step events (.isBlocked k now)).queue key).Sublist (events.queue key) := by
      intro key
      rw [hqueue]
      split_ifs with hkey
      · rw [hkey]
        exact hpruned k now
      · exact List.Sublist.refl _
    refine ⟨fun key => (h.sorted key).sublist (hsub key), fun key x hx => hmem x (h.past key x ((hsub key).subset hx)), ?_⟩
    intro key t ht
    have hnow : now ≤ t := ht now (by simp [reading])
    rw [failures_append (by rfl)]
    have hlast : (failureOf key (LimiterCall.isBlocked k now)).toList = [] := rfl
    rw [hlast, List.append_nil, ← h.window key t fun x hx => ht x (hmem x hx), hqueue]
    split_ifs with hkey
    · rw [hkey]
      exact filter_dropWhile (limiter.cutoff_mono hnow)
    · rfl
  | recordFailure k now =>
    have hqueue : ∀ key, (limiter.step events (.recordFailure k now)).queue key =
        if key = k then limiter.pruned events k now ++ [now] else events.queue key := fun key => queue_recordFailure
    have hnowmem : now ∈ (calls ++ [LimiterCall.recordFailure k now]).filterMap reading := by simp [reading]
    refine ⟨fun key => ?_, fun key x hx => ?_, fun key t ht => ?_⟩
    · rw [hqueue]
      split_ifs with hkey
      · rw [List.pairwise_append]
        refine ⟨(h.sorted k).sublist (hpruned k now), List.pairwise_singleton _ _, fun x hx y hy => ?_⟩
        rw [List.mem_singleton] at hy
        rw [hy]
        exact hclock x (h.past k x ((hpruned k now).subset hx)) now rfl
      · exact h.sorted key
    · rw [hqueue] at hx
      split_ifs at hx with hkey
      · rcases List.mem_append.mp hx with hx | hx
        · exact hmem x (h.past k x ((hpruned k now).subset hx))
        · rw [List.mem_singleton] at hx
          rw [hx]
          exact hnowmem
      · exact hmem x (h.past key x hx)
    · have hnow : now ≤ t := ht now hnowmem
      have hold := h.window key t fun x hx => ht x (hmem x hx)
      rw [failures_append (by rfl), List.filter_append, ← hold, hqueue]
      split_ifs with hkey
      · have hlast : (failureOf key (LimiterCall.recordFailure k now)).toList = [now] := by
          unfold failureOf
          dsimp only
          rw [if_pos hkey.symm]
          rfl
        rw [hlast, List.filter_append, hkey]
        congr 1
        exact filter_dropWhile (limiter.cutoff_mono hnow)
      · have hlast : (failureOf key (LimiterCall.recordFailure k now)).toList = [] := by
          unfold failureOf
          dsimp only
          rw [if_neg fun heq => hkey heq.symm]
          rfl
        rw [hlast, List.filter_nil, List.append_nil]
  | reset k =>
    have hqueue : ∀ key, (limiter.step events (.reset k)).queue key = if key = k then [] else events.queue key :=
      fun key => LimiterEvents.queue_pop
    refine ⟨fun key => ?_, fun key x hx => ?_, fun key t ht => ?_⟩
    · rw [hqueue]
      split_ifs
      · exact List.Pairwise.nil
      · exact h.sorted key
    · rw [hqueue] at hx
      split_ifs at hx
      · cases hx
      · exact hmem x (h.past key x hx)
    · rw [hqueue]
      split_ifs with hkey
      · rw [failures_append_reset (by simp [isResetOf, hkey])]
      · rw [failures_append (by simpa [isResetOf] using fun heq : k = key => hkey heq.symm)]
        have hlast : (failureOf key (LimiterCall.reset k : LimiterCall Time)).toList = [] := rfl
        rw [hlast, List.append_nil]
        exact h.window key t fun x hx => ht x (hmem x hx)

theorem tracks_after (h : Clocked calls now) : Tracks limiter calls (limiter.after calls) := by
  induction calls using List.reverseRecOn generalizing now with
  | nil => exact Tracks.nil
  | append_singleton calls call ih =>
    unfold Clocked at h
    rw [List.filterMap_append, List.append_assoc] at h
    have hcalls : Clocked calls now := by
      refine h.sublist ?_
      exact (List.Sublist.refl _).append (List.sublist_append_right _ _)
    unfold after
    rw [List.foldl_append]
    refine (ih hcalls).step fun x hx now' hnow' => ?_
    refine (List.pairwise_append.mp h).2.2 x hx now' ?_
    simp [hnow']

/-- `is_blocked` counts the failures after the last reset inside the window, and nothing else matters to it. -/
theorem answer_eq (limiter : SlidingWindowLimiter Time) (calls : List (LimiterCall Time)) (key : String) (now : Time)
    (h : Clocked calls now) :
    (limiter.answer calls key now = true ↔
      limiter.maxAttempts ≤ ((failures key calls).countP fun time => limiter.cutoff now < time)) ∧
      limiter.answer (calls.filter (concerns key)) key now = limiter.answer calls key now := by
  have hanswer : ∀ calls : List (LimiterCall Time), Clocked calls now → (limiter.answer calls key now = true ↔
      limiter.maxAttempts ≤ ((failures key calls).countP fun time => limiter.cutoff now < time)) := by
    intro calls hclocked
    have htracks : Tracks limiter calls (limiter.after calls) := tracks_after hclocked
    have hpast : ∀ x ∈ calls.filterMap reading, x ≤ now := fun x hx =>
      (List.pairwise_append.mp hclocked).2.2 x hx now (List.mem_singleton_self now)
    unfold answer isBlocked pruned
    dsimp only
    rw [dropWhile_eq_filter (htracks.sorted key), htracks.window key now hpast, List.countP_eq_length_filter,
      decide_eq_true_eq]
  refine ⟨hanswer calls h, ?_⟩
  have hfewer : Clocked (calls.filter (concerns key)) now := by
    refine h.sublist ?_
    exact (List.filter_sublist.filterMap _).append (List.Sublist.refl _)
  rw [Bool.eq_iff_iff, hanswer _ hfewer, hanswer _ h, failures_filter]

/-- Two attempts in a window of ten seconds. -/
def twoInTen : SlidingWindowLimiter ℚ where
  maxAttempts := 2
  cutoff := fun now => now - 10
  cutoff_mono := fun _ _ h => sub_le_sub_right h 10

/-- A failure as old as the window does not count; one just inside does. -/
theorem twoInTen_boundary :
    Clocked [.recordFailure "a" 0, .recordFailure "b" 1, .isBlocked "a" 5, .recordFailure "a" 6] (10 : ℚ) ∧
      twoInTen.answer [.recordFailure "a" 0, .recordFailure "b" 1, .isBlocked "a" 5, .recordFailure "a" 6] "a" 10 = false := by
  have hclock : Clocked [.recordFailure "a" 0, .recordFailure "b" 1, .isBlocked "a" 5, .recordFailure "a" 6] (10 : ℚ) := by
    unfold Clocked
    decide +kernel
  refine ⟨hclock, ?_⟩
  have hcount := (answer_eq twoInTen _ "a" 10 hclock).1
  rw [Bool.eq_false_iff, ne_eq, hcount]
  decide +kernel

end SlidingWindowLimiter

end SubmissionsChecker
