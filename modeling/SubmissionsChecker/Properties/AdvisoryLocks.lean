import SubmissionsChecker.Workers.ScheduledJobs

/-! Whether the lock of a job is released: the unlock is a statement like any other, on whichever
connection the session has by then. -/

namespace SubmissionsChecker

open Pooled

variable {Conn : Type*} {pool : ℕ → Conn} {run : JobRun}

/-- The number of teachers a digest run mails. -/
def mailedCount (teachers : List DigestStep) : ℕ := teachers.countP (· != .skipped)

/-- The commits of the run. -/
def JobRun.commits : JobRun → ℕ
  | outbox _ _ _ => 1
  | digest channels _ teachers => if channels then mailedCount teachers else 0
  | reminders _ commit => commit.toList.length

/-- Nothing of the run fails, and after its commits the pool hands out the first connection again. -/
def JobRun.KeepsLock (run : JobRun) (pool : ℕ → Conn) : Prop :=
  (∀ op ∈ run.ops, op.ok = true) ∧ pool run.commits = pool 0

theorem digest_at {teachers : List DigestStep} {s : Session Conn} {k : ℕ} (hs : s.refused = false)
    (hok : ∀ op ∈ teachers.flatMap (·.ops), op.ok = true) (h : s.At pool k) :
    ((teachers.flatMap (·.ops)).foldl (Session.exec pool) s).At pool (k + mailedCount teachers) := by
  induction teachers generalizing s k with
  | nil => exact h
  | cons teacher teachers ih =>
    rw [List.flatMap_cons, List.forall_mem_append] at hok
    rw [List.flatMap_cons, List.foldl_append]
    rcases teacher with _ | ⟨update, commit⟩
    · exact ih hs hok.2 h
    · simp only [DigestStep.ops, List.forall_mem_cons, Pooled.Op.ok] at hok
      obtain ⟨⟨rfl, rfl, -⟩, hrest⟩ := hok
      have hstatement := Session.exec_statement hs h
      have hcommit := Session.exec_commit (Session.exec_refused hs) hstatement
      have hgoes : ((s.exec pool (.statement true)).exec pool (.commit true)).refused = false :=
        Session.exec_refused (Session.exec_refused hs)
      have hcount : k + mailedCount (DigestStep.mailed true true :: teachers) = k + 1 + mailedCount teachers := by
        rw [mailedCount, mailedCount, List.countP_cons_of_pos (by decide)]
        omega
      rw [hcount]
      exact ih hgoes hrest hcommit

/-- After a run in which nothing fails, the next connection is the one the pool hands out after its commits. -/
theorem JobRun.session_at (hok : ∀ op ∈ run.ops, op.ok = true) : (run.session pool).At pool run.commits := by
  have hstart : ({ conn := some (pool 0), checkouts := 1 } : Session Conn).Holds pool 0 := ⟨rfl, rfl⟩
  rw [JobRun.session]
  rcases run with ⟨select, handlers, commit⟩ | ⟨channels, select, teachers⟩ | ⟨queries, commit⟩
  · rw [JobRun.ops, List.cons_append, List.forall_mem_cons, List.forall_mem_append, List.forall_mem_map] at hok
    obtain ⟨hselect, hhandlers, hcommit⟩ := hok
    obtain rfl : select = true := hselect
    obtain rfl : commit = true := hcommit _ (List.mem_singleton_self _)
    rw [JobRun.ops, List.cons_append, List.foldl_cons, List.foldl_append]
    obtain ⟨hholds, hgoes⟩ := Session.foldl_statements (Session.exec_refused rfl) hhandlers
      (Session.exec_statement rfl hstart.at)
    exact Session.exec_commit hgoes hholds
  · rcases channels
    · exact hstart.at
    · rw [JobRun.ops, if_pos rfl, List.forall_mem_cons] at hok
      obtain ⟨hselect, hteachers⟩ := hok
      obtain rfl : select = true := hselect
      rw [JobRun.ops, if_pos rfl, List.foldl_cons, JobRun.commits, if_pos rfl, ← Nat.zero_add (mailedCount teachers)]
      exact digest_at (Session.exec_refused rfl) hteachers (Session.exec_statement rfl hstart.at).at
  · rw [JobRun.ops, List.forall_mem_append, List.forall_mem_map] at hok
    obtain ⟨hqueries, hcommit⟩ := hok
    obtain ⟨hholds, hgoes⟩ := Session.foldl_statements rfl hqueries hstart
    rw [JobRun.ops, List.foldl_append]
    rcases commit with _ | commit
    · exact hholds.at
    · obtain rfl : commit = true := hcommit _ (List.mem_singleton_self _)
      exact Session.exec_commit hgoes hholds

/-- The lock a run takes is released, whatever connections the pool hands out, exactly when nothing of
the run fails and the unlock gets the connection that took the lock. -/
theorem lock_released_iff [DecidableEq Conn] (run : JobRun) (pool : ℕ → Conn) (lock : Lock Conn) :
    run.lockAfter pool lock = lock ↔ lock.tryTake (pool 0) = none ∨ run.KeepsLock pool := by
  rw [JobRun.lockAfter]
  rcases htake : lock.tryTake (pool 0) with _ | taken
  · simp
  · have hrefused : (run.session pool).refused = false ↔ ∀ op ∈ run.ops, op.ok = true := Session.foldl_exec_refused rfl
    dsimp only
    by_cases hok : ∀ op ∈ run.ops, op.ok = true
    · rw [hrefused.mpr hok, (JobRun.session_at hok).next]
      simp only [Bool.false_eq_true, if_false, reduceCtorEq, false_or]
      rw [Lock.release_tryTake_iff htake, JobRun.KeepsLock]
      exact ⟨fun h => ⟨hok, h⟩, fun h => h.2⟩
    · have hfailed : (run.session pool).refused = true := by
        rw [← Bool.not_eq_false, hrefused]
        exact hok
      rw [hfailed, if_pos rfl]
      have htaken : taken ≠ lock := by
        intro h
        rw [h] at htake
        exact Lock.tryTake_ne htake
      simp [htaken, JobRun.KeepsLock, hok]

/-- The commit gives the connection back and the unlock runs on another: the lock stays taken. -/
theorem lock_stays_with_first_connection :
    ¬ ∀ (run : JobRun) (pool : ℕ → ℕ) (lock : Lock ℕ), run.lockAfter pool lock = lock := by
  intro h
  have hreleased := h (.outbox true [[true]] true) id none
  revert hreleased
  decide

end SubmissionsChecker
