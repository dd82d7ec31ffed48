import Mathlib.Data.List.Basic

/-! A database session over a connection pool. A commit gives the connection back, the next
statement takes whichever the pool hands out. A session-level lock belongs to the connection that
took it, whoever uses it later; after a failure the session refuses further work. -/

namespace Pooled

variable {Conn : Type*}

/-- An exclusive lock: its holder, and how often it took the lock again. -/
abbrev Lock (Conn : Type*) := Option (Conn × ℕ)

section

variable [DecidableEq Conn]

/-- Taking the lock without waiting; `none` when another connection holds it. -/
def Lock.tryTake (c : Conn) : Lock Conn → Option (Lock Conn)
  | none => some (some (c, 0))
  | some (holder, again) => if holder = c then some (some (holder, again + 1)) else none

/-- Releasing the lock; a connection that does not hold it changes nothing. -/
def Lock.release (c : Conn) : Lock Conn → Lock Conn
  | none => none
  | some (holder, again) =>
    if holder = c then
      match again with
      | 0 => none
      | again + 1 => some (holder, again)
    else some (holder, again)

/-- Taking the lock is seen. -/
theorem Lock.tryTake_ne {c : Conn} {lock : Lock Conn} : lock.tryTake c ≠ some lock := by
  rcases lock with _ | ⟨holder, again⟩
  · nofun
  · rw [Lock.tryTake]
    split_ifs
    · simp
    · nofun

/-- A release undoes the taking exactly when it is made on the same connection. -/
theorem Lock.release_tryTake_iff {c d : Conn} {lock taken : Lock Conn} (h : lock.tryTake c = some taken) :
    taken.release d = lock ↔ d = c := by
  rcases lock with _ | ⟨holder, again⟩
  · obtain rfl := Option.some.inj h
    by_cases hd : c = d
    · simp [Lock.release, hd]
    · simp [Lock.release, hd, Ne.symm hd]
  · rw [Lock.tryTake, Option.ite_none_right_eq_some] at h
    obtain ⟨rfl, h⟩ := h
    obtain rfl := Option.some.inj h
    by_cases hd : holder = d
    · simp [Lock.release, hd]
    · simp [Lock.release, hd, Ne.symm hd]

end

structure Session (Conn : Type*) where
  /-- The connection of the open transaction. -/
  conn : Option Conn := none
  /-- How many connections the pool has handed out. -/
  checkouts : ℕ := 0
  /-- A statement, flush or commit has failed. -/
  refused : Bool := false

/-- What a session is asked to do, and whether it goes through. -/
inductive Op
  | statement (ok : Bool)
  | commit (ok : Bool)
  deriving DecidableEq, Repr

def Op.ok : Op → Bool
  | statement ok | commit ok => ok

namespace Session

variable (pool : ℕ → Conn)

/-- The connection the next statement runs on. -/
def next (s : Session Conn) : Conn := s.conn.getD (pool s.checkouts)

def connect (s : Session Conn) : Session Conn :=
  match s.conn with
  | some _ => s
  | none => { s with conn := some (pool s.checkouts), checkouts := s.checkouts + 1 }

/-- A refused session does nothing more: what it is asked raises. -/
def exec (s : Session Conn) (op : Op) : Session Conn :=
  if s.refused then s
  else match op with
    | .statement ok => { s.connect pool with refused := !ok }
    | .commit ok => if ok then { s with conn := none } else { s with refused := true }

/-- The session is at its `k`-th connection: it has it, or the pool is about to hand it out. -/
def At (k : ℕ) (s : Session Conn) : Prop :=
  (s.conn = some (pool k) ∧ s.checkouts = k + 1) ∨ (s.conn = none ∧ s.checkouts = k)

/-- The session has its `k`-th connection. -/
def Holds (k : ℕ) (s : Session Conn) : Prop := s.conn = some (pool k) ∧ s.checkouts = k + 1

variable {pool} {s : Session Conn} {k : ℕ} {op : Op} {ops : List Op}

theorem Holds.at (h : s.Holds pool k) : s.At pool k := .inl h

theorem At.next (h : s.At pool k) : s.next pool = pool k := by
  rcases h with ⟨hconn, -⟩ | ⟨hconn, hcheckouts⟩
  · rw [Session.next, hconn, Option.getD_some]
  · rw [Session.next, hconn, Option.getD_none, hcheckouts]

theorem connect_holds (h : s.At pool k) : (s.connect pool).Holds pool k := by
  rcases h with h | ⟨hconn, hcheckouts⟩
  · rw [connect, h.1]
    exact h
  · rw [connect, hconn]
    exact ⟨congrArg (some ∘ pool) hcheckouts, congrArg (· + 1) hcheckouts⟩

theorem exec_statement (hs : s.refused = false) (h : s.At pool k) : (s.exec pool (.statement true)).Holds pool k := by
  have hexec : s.exec pool (.statement true) = { s.connect pool with refused := false } := by simp [exec, hs]
  rw [hexec]
  exact connect_holds h

theorem exec_commit (hs : s.refused = false) (h : s.Holds pool k) : (s.exec pool (.commit true)).At pool (k + 1) := by
  have hexec : s.exec pool (.commit true) = { s with conn := none } := by simp [exec, hs]
  rw [hexec]
  exact .inr ⟨rfl, h.2⟩

theorem exec_refused (hs : s.refused = false) : (s.exec pool op).refused = !op.ok := by
  rcases op with ok | ok
  · simp [exec, hs, Op.ok]
  · rcases ok <;> simp [exec, hs, Op.ok]

/-- A session ends up refused exactly when something it was asked failed. -/
theorem foldl_exec_refused (hs : s.refused = false) :
    (ops.foldl (exec pool) s).refused = false ↔ ∀ op ∈ ops, op.ok = true := by
  induction ops generalizing s with
  | nil => simp [hs]
  | cons op ops ih =>
    rw [List.foldl_cons, List.forall_mem_cons]
    rcases hok : op.ok
    · have hrefused : (s.exec pool op).refused = true := by rw [exec_refused hs, hok]; rfl
      have hstays : ∀ ops : List Op, ops.foldl (exec pool) (s.exec pool op) = s.exec pool op := by
        intro ops
        induction ops with
        | nil => rfl
        | cons op' ops ih =>
          have hskip : (s.exec pool op).exec pool op' = s.exec pool op := if_pos hrefused
          rw [List.foldl_cons, hskip, ih]
      rw [hstays, hrefused]
      simp
    · have hgoes : (s.exec pool op).refused = false := by rw [exec_refused hs, hok]; rfl
      rw [ih hgoes]
      simp

/-- Statements keep the connection. -/
theorem foldl_statements {oks : List Bool} (hs : s.refused = false) (hoks : ∀ ok ∈ oks, ok = true) (h : s.Holds pool k) :
    ((oks.map Op.statement).foldl (exec pool) s).Holds pool k ∧
      ((oks.map Op.statement).foldl (exec pool) s).refused = false := by
  induction oks generalizing s with
  | nil => exact ⟨h, hs⟩
  | cons ok oks ih =>
    rw [List.forall_mem_cons] at hoks
    obtain ⟨rfl, hoks⟩ := hoks
    exact ih (exec_refused hs) hoks (exec_statement hs h.at)

end Session

end Pooled
