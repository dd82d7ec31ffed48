import SubmissionsChecker.Library.Runs
import Mathlib.Algebra.BigOperators.Group.Finset.Basic
import Mathlib.Data.Fintype.Basic
import Mathlib.Data.Set.Insert
import Mathlib.Data.Set.Lattice
import Mathlib.Order.CompletePartialOrder

/-! Requests that run side by side against one database under READ COMMITTED. A query sees
what is committed when it runs, a row lock is held to the end of the transaction, and a
session's unflushed values are part of where the request stands. Assertions about a session
are kept by its own statements and by what the others commit under other locks. -/

namespace ReadCommitted

open Runs

/-- What a request does next. `lock` waits for the row and then reads. -/
inductive Stmt (S L K : Type*)
  | read (f : S → L)
  | lock (k : K) (f : S → L)
  | commit (f : S → S) (l : L)
  | rollback (l : L)
  | done

namespace Stmt

variable {S L L' K : Type*}

def map (g : L → L') : Stmt S L K → Stmt S L' K
  | read f => .read fun s => g (f s)
  | lock k f => .lock k fun s => g (f s)
  | commit f l => .commit f (g l)
  | rollback l => .rollback (g l)
  | done => .done

variable {g : L → L'} {stmt : Stmt S L K}

theorem map_read {f : S → L'} : stmt.map g = .read f ↔ ∃ f', stmt = .read f' ∧ f = fun s => g (f' s) := by
  cases stmt <;> simp [map, eq_comm]

theorem map_lock {k : K} {f : S → L'} :
    stmt.map g = .lock k f ↔ ∃ f', stmt = .lock k f' ∧ f = fun s => g (f' s) := by
  cases stmt <;> simp [map, eq_comm]

theorem map_commit {f : S → S} {l' : L'} : stmt.map g = .commit f l' ↔ ∃ l, stmt = .commit f l ∧ g l = l' := by
  cases stmt <;> simp [map]

theorem map_rollback {l' : L'} : stmt.map g = .rollback l' ↔ ∃ l, stmt = .rollback l ∧ g l = l' := by
  cases stmt <;> simp [map]

end Stmt

/-- Two kinds of requests side by side. -/
def both {S L L' K : Type*} (prog : L → Stmt S L K) (prog' : L' → Stmt S L' K) : L ⊕ L' → Stmt S (L ⊕ L') K
  | .inl l => (prog l).map .inl
  | .inr l => (prog' l).map .inr

/-- The committed store, who holds which row, and where each request stands. -/
structure State (S P L K : Type*) where
  store : S
  holder : K → Option P
  session : P → L

section

variable {S P L K : Type*}

/-- Nobody holds a row yet. -/
def start (store : S) (session : P → L) : State S P L K := ⟨store, fun _ => none, session⟩

/-- The rows a session holds. -/
def State.held (st : State S P L K) (p : P) : Set K := {k | st.holder k = some p}

/-- Two sessions never hold one row. -/
theorem held_disjoint {st : State S P L K} {p q : P} (h : p ≠ q) : Disjoint (st.held p) (st.held q) := by
  rw [Set.disjoint_left]
  intro k hp hq
  rw [State.held, Set.mem_ofPred_eq] at hp hq
  rw [hp] at hq
  exact h (Option.some_inj.mp hq)

variable [DecidableEq P]

/-- The rows that stay held when `p` ends its transaction. -/
def State.release (st : State S P L K) (p : P) (k : K) : Option P :=
  if st.holder k = some p then none else st.holder k

/-- Ending a transaction releases its rows and no others. -/
theorem held_release (st : State S P L K) (p q : P) : {k | st.release p k = some q} = if q = p then ∅ else st.held q := by
  ext k
  by_cases hq : q = p
  · subst hq
    simp only [State.release, if_pos, Set.mem_ofPred_eq, Set.mem_empty_iff_false, iff_false]
    split_ifs with h
    · simp
    · exact h
  · rw [if_neg hq]
    simp only [State.release, State.held, Set.mem_ofPred_eq]
    split_ifs with h
    · rw [h, Option.some_inj]
      simp [Ne.symm hq]
    · rfl

variable [DecidableEq K]

/-- The next statement of session `p`; one that has to wait changes nothing. -/
def step (prog : L → Stmt S L K) (st : State S P L K) (p : P) : State S P L K :=
  match prog (st.session p) with
  | .read f => { st with session := Function.update st.session p (f st.store) }
  | .lock k f =>
    if st.holder k = none ∨ st.holder k = some p then
      { st with holder := Function.update st.holder k (some p)
                session := Function.update st.session p (f st.store) }
    else st
  | .commit f l =>
    { store := f st.store, holder := st.release p, session := Function.update st.session p l }
  | .rollback l => { st with holder := st.release p, session := Function.update st.session p l }
  | .done => st

/-- All that one statement can do. -/
inductive Step (prog : L → Stmt S L K) (st : State S P L K) (p : P) : State S P L K → Prop
  | waits : Step prog st p st
  | read {f} (h : prog (st.session p) = .read f) :
      Step prog st p { st with session := Function.update st.session p (f st.store) }
  | lock {k f} (h : prog (st.session p) = .lock k f) (hk : st.holder k = none ∨ st.holder k = some p) :
      Step prog st p { st with holder := Function.update st.holder k (some p)
                               session := Function.update st.session p (f st.store) }
  | commit {f l} (h : prog (st.session p) = .commit f l) :
      Step prog st p ⟨f st.store, st.release p, Function.update st.session p l⟩
  | rollback {l} (h : prog (st.session p) = .rollback l) :
      Step prog st p { st with holder := st.release p, session := Function.update st.session p l }

variable {prog : L → Stmt S L K} {st st' : State S P L K} {p q : P}

theorem step_spec (prog : L → Stmt S L K) (st : State S P L K) (p : P) : Step prog st p (step prog st p) := by
  unfold step
  split
  · exact .read ‹_›
  · split
    · exact .lock ‹_› ‹_›
    · exact .waits
  · exact .commit ‹_›
  · exact .rollback ‹_›
  · exact .waits

/-- Taking a row leaves what the others hold. -/
theorem held_lock {k : K} (hk : st.holder k = none ∨ st.holder k = some p) (q : P) :
    {j | Function.update st.holder k (some p) j = some q} = if q = p then insert k (st.held q) else st.held q := by
  ext j
  by_cases hj : j = k
  · subst hj
    by_cases hq : q = p
    · simp [hq]
    · rw [if_neg hq]
      simp only [Set.mem_ofPred_eq, Function.update_self, State.held, Option.some_inj]
      constructor
      · exact fun h => absurd h.symm hq
      · intro h
        rcases hk with hk | hk <;> rw [hk] at h
        · cases h
        · exact absurd (Option.some_inj.mp h).symm hq
  · split_ifs <;> simp [State.held, hj]

/-- Rules for an invariant `A` of the committed store and an assertion `B` of each session,
which may mention the rows it holds. `ok` is what each statement meets when it runs. -/
structure Rules (prog : L → Stmt S L K) (ok : S → L → Prop) (A : S → Prop) (B : S → Set K → L → Prop) : Prop where
  read : ∀ {s H l f}, A s → B s H l → ok s l → prog l = .read f → B s H (f s)
  lock : ∀ {s H l k f}, A s → B s H l → ok s l → prog l = .lock k f → B s (insert k H) (f s)
  commit : ∀ {s H l f l'}, A s → B s H l → ok s l → prog l = .commit f l' → A (f s) ∧ B (f s) ∅ l'
  rollback : ∀ {s H l l'}, A s → B s H l → ok s l → prog l = .rollback l' → B s ∅ l'
  /-- What one session commits, under its locks, keeps the assertions of the others. -/
  others : ∀ {s H l f l' H' m}, A s → B s H l → ok s l → prog l = .commit f l' → B s H' m → Disjoint H H' →
    B (f s) H' m

variable {ok : S → L → Prop}

/-- The condition on a statement, as one on the steps of a run. -/
def Ok (ok : S → L → Prop) (st : State S P L K) (p : P) : Prop := ok st.store (st.session p)

instance [h : ∀ s l, Decidable (ok s l)] (st : State S P L K) (p : P) : Decidable (Ok ok st p) :=
  h st.store (st.session p)

/-- The invariant holds and so does every session's assertion. -/
def Holds (A : S → Prop) (B : S → Set K → L → Prop) (st : State S P L K) : Prop :=
  A st.store ∧ ∀ p, B st.store (st.held p) (st.session p)

variable {A : S → Prop} {B : S → Set K → L → Prop}

theorem Holds.of_step (rules : Rules prog ok A B) (h : Holds A B st) (hok : Ok ok st p) (hstep : Step prog st p st') :
    Holds A B st' := by
  obtain ⟨hA, hB⟩ := h
  cases hstep with
  | waits => exact ⟨hA, hB⟩
  | read hprog =>
    refine ⟨hA, fun q => ?_⟩
    by_cases hq : q = p
    · subst hq
      simpa [State.held] using rules.read hA (hB q) hok hprog
    · simpa [State.held, Function.update_of_ne hq] using hB q
  | lock hprog hk =>
    refine ⟨hA, fun q => ?_⟩
    rw [State.held, held_lock hk]
    by_cases hq : q = p
    · subst hq
      simpa using rules.lock hA (hB q) hok hprog
    · simpa [hq, Function.update_of_ne hq] using hB q
  | commit hprog =>
    obtain ⟨hA', hB'⟩ := rules.commit hA (hB p) hok hprog
    refine ⟨hA', fun q => ?_⟩
    rw [State.held, held_release]
    by_cases hq : q = p
    · subst hq
      simpa using hB'
    · simpa [hq, Function.update_of_ne hq] using
        rules.others hA (hB p) hok hprog (hB q) (held_disjoint (Ne.symm hq))
  | rollback hprog =>
    refine ⟨hA, fun q => ?_⟩
    rw [State.held, held_release]
    by_cases hq : q = p
    · subst hq
      simpa using rules.rollback hA (hB q) hok hprog
    · simpa [hq, Function.update_of_ne hq] using hB q

/-- Every interleaving whose statements meet the condition keeps the assertions. -/
theorem Holds.run (rules : Rules prog ok A B) (h : Holds A B st) {ps : List P}
    (hrun : Run (ReadCommitted.step prog) (Ok ok) st ps st') : Holds A B st' :=
  hrun.invariant h fun _ _ hinv hok => hinv.of_step rules hok (step_spec _ _ _)

end

/-- What happens around the sessions too: one goes on, one dies with its transaction, or what lies
outside them changes the store. -/
inductive Event (P E : Type*)
  | next (p : P)
  | dies (p : P)
  | outside (e : E)
  deriving DecidableEq, Repr

section

variable {S P L K E : Type*} [DecidableEq P] [DecidableEq K]

/-- A session that dies ends at `dead`, and its rows are released. -/
def happen (prog : L → Stmt S L K) (dead : L) (world : E → S → S) (st : State S P L K) : Event P E → State S P L K
  | .next p => step prog st p
  | .dies p => { st with holder := st.release p, session := Function.update st.session p dead }
  | .outside e => { st with store := world e st.store }

/-- The condition on the statements, whatever else happens. -/
def OkEvent (ok : S → L → Prop) (st : State S P L K) : Event P E → Prop
  | .next p => Ok ok st p
  | _ => True

instance OkEvent.decidable {ok : S → L → Prop} [∀ s l, Decidable (ok s l)] (st : State S P L K) (e : Event P E) :
    Decidable (OkEvent ok st e) := by
  cases e <;> unfold OkEvent <;> infer_instance

variable {prog : L → Stmt S L K} {dead : L} {world : E → S → S} {ok : S → L → Prop} {A : S → Prop}
  {B : S → Set K → L → Prop} {st st' : State S P L K}

/-- Deaths and the world outside keep the assertions too. -/
theorem Holds.of_event (rules : Rules prog ok A B) (hdead : ∀ s, B s ∅ dead)
    (hworld : ∀ e s, A s → A (world e s)) (hkeep : ∀ e s H l, B s H l → B (world e s) H l) (h : Holds A B st)
    {e : Event P E} (hok : OkEvent ok st e) : Holds A B (happen prog dead world st e) := by
  cases e with
  | next p => exact h.of_step rules hok (step_spec prog st p)
  | dies p =>
    refine ⟨h.1, fun q => ?_⟩
    change B st.store {k | st.release p k = some q} (Function.update st.session p dead q)
    rw [held_release]
    by_cases hq : q = p
    · subst hq
      simpa using hdead st.store
    · simpa [hq, Function.update_of_ne hq] using h.2 q
  | outside e => exact ⟨hworld e _ h.1, fun q => hkeep e _ _ _ (h.2 q)⟩

theorem Holds.events (rules : Rules prog ok A B) (hdead : ∀ s, B s ∅ dead) (hworld : ∀ e s, A s → A (world e s))
    (hkeep : ∀ e s H l, B s H l → B (world e s) H l) (h : Holds A B st) {es : List (Event P E)}
    (hrun : Run (happen prog dead world) (OkEvent ok) st es st') : Holds A B st' :=
  hrun.invariant h fun _ _ hinv hok => hinv.of_event rules hdead hworld hkeep hok

end

section

variable {S L L' K : Type*} {prog : L → Stmt S L K} {prog' : L' → Stmt S L' K} {ok : S → L → Prop} {ok' : S → L' → Prop}
  {A : S → Prop} {B : S → Set K → L → Prop} {B' : S → Set K → L' → Prop}

/-- Two kinds of requests that keep one invariant, and the assertions of each other. -/
theorem Rules.both (rules : Rules prog ok A B) (rules' : Rules prog' ok' A B')
    (hright : ∀ {s H l f l' H' m}, A s → B s H l → ok s l → prog l = .commit f l' → B' s H' m → Disjoint H H' → B' (f s) H' m)
    (hleft : ∀ {s H l f l' H' m}, A s → B' s H l → ok' s l → prog' l = .commit f l' → B s H' m → Disjoint H H' →
      B (f s) H' m) :
    Rules (both prog prog') (fun s => Sum.elim (ok s) (ok' s)) A (fun s H => Sum.elim (B s H) (B' s H)) where
  read := by
    intro s H l f hA hB hok h
    cases l with
    | inl l =>
      obtain ⟨g, hg, rfl⟩ := Stmt.map_read.mp h
      exact rules.read hA hB hok hg
    | inr l =>
      obtain ⟨g, hg, rfl⟩ := Stmt.map_read.mp h
      exact rules'.read hA hB hok hg
  lock := by
    intro s H l k f hA hB hok h
    cases l with
    | inl l =>
      obtain ⟨g, hg, rfl⟩ := Stmt.map_lock.mp h
      exact rules.lock hA hB hok hg
    | inr l =>
      obtain ⟨g, hg, rfl⟩ := Stmt.map_lock.mp h
      exact rules'.lock hA hB hok hg
  commit := by
    intro s H l f l' hA hB hok h
    cases l with
    | inl l =>
      obtain ⟨m, hm, rfl⟩ := Stmt.map_commit.mp h
      exact rules.commit hA hB hok hm
    | inr l =>
      obtain ⟨m, hm, rfl⟩ := Stmt.map_commit.mp h
      exact rules'.commit hA hB hok hm
  rollback := by
    intro s H l l' hA hB hok h
    cases l with
    | inl l =>
      obtain ⟨m, hm, rfl⟩ := Stmt.map_rollback.mp h
      exact rules.rollback hA hB hok hm
    | inr l =>
      obtain ⟨m, hm, rfl⟩ := Stmt.map_rollback.mp h
      exact rules'.rollback hA hB hok hm
  others := by
    intro s H l f l' H' m hA hB hok h hm hdisjoint
    cases l with
    | inl l =>
      obtain ⟨n, hn, rfl⟩ := Stmt.map_commit.mp h
      cases m with
      | inl m => exact rules.others hA hB hok hn hm hdisjoint
      | inr m => exact hright hA hB hok hn hm hdisjoint
    | inr l =>
      obtain ⟨n, hn, rfl⟩ := Stmt.map_commit.mp h
      cases m with
      | inl m => exact hleft hA hB hok hn hm hdisjoint
      | inr m => exact rules'.others hA hB hok hn hm hdisjoint

end

section

variable {S P L K : Type*} [Fintype P]

/-- A weight of the sessions, summed up. -/
def total (w : L → ℕ) (st : State S P L K) : ℕ := ∑ p, w (st.session p)

variable [DecidableEq P] [DecidableEq K]

theorem sum_update (w : L → ℕ) (session : P → L) (p : P) (l : L) :
    (∑ q, w (Function.update session p l q)) + w (session p) = (∑ q, w (session q)) + w l := by
  rw [← Finset.add_sum_erase _ _ (Finset.mem_univ p),
    ← Finset.add_sum_erase _ (fun q => w (session q)) (Finset.mem_univ p)]
  have hrest : ∑ q ∈ Finset.univ.erase p, w (Function.update session p l q) =
      ∑ q ∈ Finset.univ.erase p, w (session q) :=
    Finset.sum_congr rfl fun q hq => by rw [Function.update_of_ne (Finset.ne_of_mem_erase hq)]
  rw [hrest, Function.update_self]
  omega

variable {prog : L → Stmt S L K} {st st' : State S P L K} {ok : S → L → Prop} {A : S → Prop}
  {B : S → Set K → L → Prop} {m : S → ℕ} {w : L → ℕ}

/-- A quantity of the store that moves with a weight of the sessions, statement by statement. -/
structure Counts (prog : L → Stmt S L K) (ok : S → L → Prop) (A : S → Prop) (B : S → Set K → L → Prop)
    (m : S → ℕ) (w : L → ℕ) : Prop where
  read : ∀ {s H l f}, A s → B s H l → ok s l → prog l = .read f → w (f s) = w l
  lock : ∀ {s H l k f}, A s → B s H l → ok s l → prog l = .lock k f → w (f s) = w l
  commit : ∀ {s H l f l'}, A s → B s H l → ok s l → prog l = .commit f l' → m (f s) + w l = m s + w l'
  rollback : ∀ {s H l l'}, A s → B s H l → ok s l → prog l = .rollback l' → w l' = w l

theorem Counts.of_step (counts : Counts prog ok A B m w) (h : Holds A B st) {p : P} (hok : Ok ok st p)
    (hstep : Step prog st p st') : m st'.store + total w st = m st.store + total w st' := by
  obtain ⟨hA, hB⟩ := h
  unfold total
  cases hstep with
  | waits => rfl
  | @read f hprog =>
    have hsum := sum_update w st.session p (f st.store)
    rw [counts.read hA (hB p) hok hprog] at hsum
    exact congrArg _ (Nat.add_right_cancel hsum).symm
  | @lock k f hprog hk =>
    have hsum := sum_update w st.session p (f st.store)
    rw [counts.lock hA (hB p) hok hprog] at hsum
    exact congrArg _ (Nat.add_right_cancel hsum).symm
  | @commit f l hprog =>
    have hsum := sum_update w st.session p l
    have hcommit := counts.commit hA (hB p) hok hprog
    simp only at hsum ⊢
    omega
  | @rollback l hprog =>
    have hsum := sum_update w st.session p l
    rw [counts.rollback hA (hB p) hok hprog] at hsum
    exact congrArg _ (Nat.add_right_cancel hsum).symm

/-- Over a run the quantity grows by what the weight gains. -/
theorem Counts.run (rules : Rules prog ok A B) (counts : Counts prog ok A B m w) (h : Holds A B st) {ps : List P}
    (hrun : Run (ReadCommitted.step prog) (Ok ok) st ps st') :
    m st'.store + total w st = m st.store + total w st' := by
  have hboth := hrun.invariant (I := fun t => Holds A B t ∧ m t.store + total w st = m st.store + total w t)
    ⟨h, rfl⟩ fun t p hinv hok => by
      have hstep := counts.of_step hinv.1 hok (step_spec prog t p)
      exact ⟨hinv.1.of_step rules hok (step_spec prog t p), by have := hinv.2; omega⟩
  exact hboth.2

end

end ReadCommitted
