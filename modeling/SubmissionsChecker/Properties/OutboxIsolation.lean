import SubmissionsChecker.Workers.OutboxProcessor
import SubmissionsChecker.Library.Runs
import SubmissionsChecker.Library.Table

/-! One message against the others of its batch. A handler that raises by itself harms nobody; a
flush that fails takes the whole batch with it. -/

namespace SubmissionsChecker

variable {W : Type*} {settings : OutboxSettings} {run : BatchRun W} {s t : OutboxState W} {ids : List ℕ} {i j : ℕ}

/-- The mark the loop leaves on a message. -/
def BatchRun.mark (run : BatchRun W) (i : ℕ) : QueuedMessage → QueuedMessage :=
  match (run.handler i).ending with
  | .returns => (·.markFinished)
  | .raises error => (·.markError error)
  | .flushFails => id

/-- No flush of the run fails, where there is anything to do: neither in a handler nor in the commit. -/
def FlushesGoThrough (settings : OutboxSettings) (s : OutboxState W) (run : BatchRun W) : Prop :=
  ∀ i ∈ s.batch settings, (run.handler i).ending ≠ .flushFails ∧ run.commits = true

instance : Decidable (FlushesGoThrough settings s run) := by
  unfold FlushesGoThrough
  infer_instance

/-! The batch -/

theorem mem_batch (h : i ∈ s.batch settings) : ∃ m, s.messages[i]? = some m ∧ m.due settings = true := by
  rw [OutboxState.batch] at h
  have h := (List.mem_insertionSort _).mp (List.mem_of_mem_take h)
  rw [List.mem_filter, Option.any_eq_true] at h
  exact h.2

theorem nodup_batch : (s.batch settings).Nodup := by
  rw [OutboxState.batch]
  refine List.Nodup.sublist (List.take_sublist _ _) ?_
  rw [List.Perm.nodup_iff (List.perm_insertionSort _ _)]
  exact List.nodup_range.filter _

theorem due_iff {m : QueuedMessage} : m.due settings = true ↔ m.state ≠ .finished ∧ m.retryCount < settings.maxRetries := by
  rw [QueuedMessage.due, Bool.and_eq_true, decide_eq_true_eq]
  rcases m.state <;> simp

/-! The loop -/

theorem foldl_mark (ids : List ℕ) (hnodup : ids.Nodup) (l : List QueuedMessage) (j : ℕ) :
    (ids.foldl (fun l i => l.modify i (run.mark i)) l)[j]? = (l[j]?).map (if j ∈ ids then run.mark j else id) := by
  induction ids generalizing l with
  | nil => simp
  | cons i ids ih =>
    rw [List.nodup_cons] at hnodup
    rw [List.foldl_cons, ih hnodup.2, List.getElem?_modify]
    by_cases hi : i = j
    · subst hi
      simp [hnodup.1]
    · simp [hi, Ne.symm hi]

theorem length_foldl_mark (ids : List ℕ) (l : List QueuedMessage) :
    (ids.foldl (fun l i => l.modify i (run.mark i)) l).length = l.length := by
  induction ids generalizing l with
  | nil => rfl
  | cons i ids ih => rw [List.foldl_cons, ih, List.length_modify]

theorem foldl_mark_append {l new : List QueuedMessage} (h : ∀ i ∈ ids, i < l.length) :
    ids.foldl (fun l i => l.modify i (run.mark i)) (l ++ new) = ids.foldl (fun l i => l.modify i (run.mark i)) l ++ new := by
  induction ids generalizing l with
  | nil => rfl
  | cons i ids ih =>
    rw [List.forall_mem_cons] at h
    rw [List.foldl_cons, List.foldl_cons, Table.modify_append_old _ h.1, ih]
    simpa using h.2

/-- A handler that ends without a failed flush, and the mark of its message. -/
theorem dispatchAll_cons (h : (run.handler i).ending ≠ .flushFails) :
    OutboxState.dispatchAll run (i :: ids) s = OutboxState.dispatchAll run ids (s.handled run i (run.mark i)) := by
  rw [OutboxState.dispatchAll, BatchRun.mark]
  rcases hend : (run.handler i).ending with _ | error | _
  · rfl
  · rfl
  · exact absurd hend h

/-- Without a failed flush every handler's writes are in the session, the new messages follow the old
ones, and each message of the batch has its mark. -/
theorem dispatchAll_eq (hflush : ∀ i ∈ ids, (run.handler i).ending ≠ .flushFails)
    (hids : ∀ i ∈ ids, i < s.messages.length) : OutboxState.dispatchAll run ids s = some
      { s with
        db := ids.foldl (fun db i => (run.handler i).writes db) s.db
        messages := ids.foldl (fun l i => l.modify i (run.mark i)) s.messages ++
          ids.flatMap fun i => (run.handler i).enqueued.map fun createdAt => { createdAt } } := by
  induction ids generalizing s with
  | nil => simp [OutboxState.dispatchAll]
  | cons i ids ih =>
    rw [List.forall_mem_cons] at hflush hids
    have hrest : ∀ j ∈ ids, j < (s.messages.modify i (run.mark i)).length := by simpa using hids.2
    rw [dispatchAll_cons hflush.1, ih hflush.2]
    · simp only [OutboxState.handled, List.foldl_cons, List.flatMap_cons]
      rw [Table.modify_append_old _ hids.1, foldl_mark_append hrest, List.append_assoc]
    · intro j hj
      have := hids.2 j hj
      simp only [OutboxState.handled, List.length_modify, List.length_append]
      omega

theorem dispatches_eq (hflush : ∀ i ∈ ids, (run.handler i).ending ≠ .flushFails) :
    OutboxState.dispatches run ids = ids.map fun i => (i, decide ((run.handler i).ending = .returns)) := by
  induction ids with
  | nil => rfl
  | cons i ids ih =>
    rw [List.forall_mem_cons] at hflush
    rw [OutboxState.dispatches, List.map_cons, ih hflush.2]
    rcases h : (run.handler i).ending with _ | error | _
    · simp
    · simp
    · exact absurd h hflush.1

theorem dispatchAll_none (h : ∃ i ∈ ids, (run.handler i).ending = .flushFails) : OutboxState.dispatchAll run ids s = none := by
  induction ids generalizing s with
  | nil => simp at h
  | cons i ids ih =>
    rw [OutboxState.dispatchAll]
    rcases hend : (run.handler i).ending with _ | error | _
    · exact ih (by simpa [hend] using h)
    · exact ih (by simpa [hend] using h)
    · rfl

/-! A run -/

theorem lt_of_mem_batch (h : i ∈ s.batch settings) : i < s.messages.length := by
  obtain ⟨m, hm, -⟩ := mem_batch h
  exact (List.getElem?_eq_some_iff.mp hm).1

/-- A run in which the flushes go through. -/
theorem process_of_flushes (h : FlushesGoThrough settings s run) : s.process settings run =
    { db := (s.batch settings).foldl (fun db i => (run.handler i).writes db) s.db
      messages := (s.batch settings).foldl (fun l i => l.modify i (run.mark i)) s.messages ++
        (s.batch settings).flatMap fun i => (run.handler i).enqueued.map fun createdAt => { createdAt }
      dispatched := s.dispatched ++ (s.batch settings).map fun i => (i, decide ((run.handler i).ending = .returns)) } := by
  have hflush : ∀ i ∈ s.batch settings, (run.handler i).ending ≠ .flushFails := fun i hi => (h i hi).1
  rw [OutboxState.process, dispatchAll_eq hflush fun i hi => lt_of_mem_batch hi, dispatches_eq hflush]
  by_cases hcommits : run.commits = true
  · simp only [if_pos hcommits]
  · -- a commit can only fail when there is nothing to commit
    have hempty : s.batch settings = [] := by
      rw [List.eq_nil_iff_forall_not_mem]
      exact fun i hi => hcommits (h i hi).2
    simp [hempty, hcommits]

/-- A run in which one does not: everything is rolled back. -/
theorem process_of_failure (h : ¬ FlushesGoThrough settings s run) :
    (s.process settings run).messages = s.messages := by
  rw [FlushesGoThrough] at h
  push Not at h
  obtain ⟨i, hi, h⟩ := h
  rw [OutboxState.process]
  by_cases hflush : ∃ i ∈ s.batch settings, (run.handler i).ending = .flushFails
  · rw [dispatchAll_none hflush]
  · push Not at hflush
    rw [dispatchAll_eq hflush fun i hi => lt_of_mem_batch hi]
    simp only [if_neg (h (hflush i hi))]

/-- Every message of the batch ends as its own handler does: finished, or in error with one retry
more; and what the handlers wrote is committed. -/
structure Isolated (settings : OutboxSettings) (s : OutboxState W) (run : BatchRun W) : Prop where
  finished : ∀ i ∈ s.batch settings, (run.handler i).ending = .returns → ∀ m, s.messages[i]? = some m →
    (s.process settings run).messages[i]? = some m.markFinished
  failed : ∀ i ∈ s.batch settings, (run.handler i).ending ≠ .returns → ∀ m, s.messages[i]? = some m →
    ∃ error, (s.process settings run).messages[i]? = some (m.markError error)
  written : (s.process settings run).db = (s.batch settings).foldl (fun db i => (run.handler i).writes db) s.db

/-- What a run makes of a message it found. -/
theorem process_message (h : FlushesGoThrough settings s run) {m : QueuedMessage} (hm : s.messages[i]? = some m) :
    (s.process settings run).messages[i]? = some (if i ∈ s.batch settings then run.mark i m else m) := by
  have hlt : i < ((s.batch settings).foldl (fun l i => l.modify i (run.mark i)) s.messages).length := by
    rw [length_foldl_mark]
    exact (List.getElem?_eq_some_iff.mp hm).1
  rw [process_of_flushes h, List.getElem?_append_left hlt, foldl_mark _ nodup_batch, hm]
  split_ifs <;> rfl

theorem isolated_iff : Isolated settings s run ↔ FlushesGoThrough settings s run := by
  constructor
  · intro h
    by_contra hfailure
    have hsame := process_of_failure hfailure
    rw [FlushesGoThrough] at hfailure
    push Not at hfailure
    obtain ⟨i, hi, -⟩ := hfailure
    obtain ⟨m, hm, hdue⟩ := mem_batch hi
    by_cases hreturns : (run.handler i).ending = .returns
    · have hfinished := h.finished i hi hreturns m hm
      rw [hsame, hm, Option.some.injEq] at hfinished
      rw [due_iff, hfinished] at hdue
      exact hdue.1 rfl
    · obtain ⟨error, herror⟩ := h.failed i hi hreturns m hm
      rw [hsame, hm, Option.some.injEq] at herror
      have hretry := congrArg QueuedMessage.retryCount herror
      simp [QueuedMessage.markError] at hretry
  · intro h
    constructor
    · intro i hi hreturns m hm
      rw [process_message h hm, if_pos hi, BatchRun.mark, hreturns]
    · intro i hi hreturns m hm
      rw [process_message h hm, if_pos hi, BatchRun.mark]
      rcases hend : (run.handler i).ending with _ | error | _
      · exact absurd hend hreturns
      · exact ⟨error, rfl⟩
      · exact absurd hend (h i hi).1
    · rw [process_of_flushes h]

/-! Every run -/

/-- The record of the dispatches against the messages: a message whose handler returned is finished,
and one that is not finished has counted every dispatch. -/
structure Counted (settings : OutboxSettings) (s : OutboxState W) : Prop where
  known : ∀ e ∈ s.dispatched, e.1 < s.messages.length
  finished : ∀ e ∈ s.dispatched, e.2 = true → ∀ m, s.messages[e.1]? = some m → m.state = .finished
  retries : ∀ i m, s.messages[i]? = some m → m.state ≠ .finished → s.dispatched.countP (·.1 == i) ≤ m.retryCount
  bounded : ∀ i, s.dispatched.countP (·.1 == i) ≤ settings.maxRetries
  once : s.dispatched.Pairwise fun a b => a.2 = true → a.1 ≠ b.1

theorem countP_dispatches (f : ℕ → Bool) (hnodup : ids.Nodup) :
    (ids.map fun j => (j, f j)).countP (·.1 == i) = if i ∈ ids then 1 else 0 := by
  have hcount : (ids.map fun j => (j, f j)).countP (·.1 == i) = ids.count i := by
    rw [List.countP_map]
    rfl
  rw [hcount]
  split_ifs with hi
  · exact List.count_eq_one_of_mem hnodup hi
  · exact List.count_eq_zero_of_not_mem hi

/-- A message after a run is one that was there, with its mark if it was in the batch, or a new one. -/
theorem process_message_cases (h : FlushesGoThrough settings s run) {m : QueuedMessage}
    (hm : (s.process settings run).messages[i]? = some m) :
    (∃ m₀, s.messages[i]? = some m₀ ∧ m = if i ∈ s.batch settings then run.mark i m₀ else m₀) ∨ s.messages.length ≤ i := by
  by_cases hi : i < s.messages.length
  · left
    refine ⟨s.messages[i], List.getElem?_eq_getElem hi, ?_⟩
    rw [process_message h (List.getElem?_eq_getElem hi)] at hm
    exact (Option.some.inj hm).symm
  · exact .inr (Nat.le_of_not_lt hi)

theorem Counted.process (h : Counted settings s) (hflush : FlushesGoThrough settings s run) :
    Counted settings (s.process settings run) := by
  have hcount : ∀ i, (s.process settings run).dispatched.countP (·.1 == i) =
      s.dispatched.countP (·.1 == i) + if i ∈ s.batch settings then 1 else 0 := by
    intro i
    rw [process_of_flushes hflush, List.countP_append, countP_dispatches _ nodup_batch]
  have hdispatched : (s.process settings run).dispatched = s.dispatched ++
      (s.batch settings).map fun i => (i, decide ((run.handler i).ending = .returns)) := by
    rw [process_of_flushes hflush]
  -- a message in the batch is not finished, and has a retry left
  have hdue : ∀ i ∈ s.batch settings, ∃ m, s.messages[i]? = some m ∧ m.state ≠ .finished ∧
      m.retryCount < settings.maxRetries := by
    intro i hi
    obtain ⟨m, hm, hdue⟩ := mem_batch hi
    exact ⟨m, hm, due_iff.mp hdue⟩
  have hbatch : ∀ e ∈ (s.batch settings).map fun i => (i, decide ((run.handler i).ending = .returns)),
      e.1 ∈ s.batch settings ∧ (e.2 = true → (run.handler e.1).ending = .returns) := by
    intro e he
    obtain ⟨i, hi, rfl⟩ := List.mem_map.mp he
    exact ⟨hi, of_decide_eq_true⟩
  -- a message whose handler has returned is in no later batch
  have hdone : ∀ e ∈ s.dispatched, e.2 = true → e.1 ∉ s.batch settings := by
    intro e he hreturned hi
    obtain ⟨m, hm, hstate, -⟩ := hdue e.1 hi
    exact hstate (h.finished e he hreturned m hm)
  constructor
  · intro e he
    have hlength : s.messages.length ≤ (s.process settings run).messages.length := by
      rw [process_of_flushes hflush, List.length_append, length_foldl_mark]
      omega
    rw [hdispatched] at he
    rcases List.mem_append.mp he with he | he
    · exact (h.known e he).trans_le hlength
    · exact (lt_of_mem_batch (hbatch e he).1).trans_le hlength
  · intro e he hreturned m hm
    rw [hdispatched] at he
    rcases List.mem_append.mp he with he | he
    · obtain ⟨m₀, hm₀, rfl⟩ := (process_message_cases hflush hm).resolve_right (Nat.not_le.mpr (h.known e he))
      rw [if_neg (hdone e he hreturned)]
      exact h.finished e he hreturned m₀ hm₀
    · obtain ⟨hi, hreturns⟩ := hbatch e he
      obtain ⟨m₀, hm₀, rfl⟩ := (process_message_cases hflush hm).resolve_right (Nat.not_le.mpr (lt_of_mem_batch hi))
      rw [if_pos hi, BatchRun.mark, hreturns hreturned]
      rfl
  · intro i m hm hstate
    rw [hcount]
    rcases process_message_cases hflush hm with ⟨m₀, hm₀, rfl⟩ | hnew
    · split_ifs at hstate ⊢ with hi
      · obtain ⟨m, hm, hnotFinished, -⟩ := hdue i hi
        obtain rfl := Option.some.inj (hm₀.symm.trans hm)
        have hretries := h.retries i m₀ hm₀ hnotFinished
        rw [BatchRun.mark] at hstate ⊢
        rcases hend : (run.handler i).ending with _ | error | _
        · rw [hend] at hstate
          exact absurd rfl hstate
        · exact Nat.succ_le_succ hretries
        · exact absurd hend (hflush i hi).1
      · exact h.retries i m₀ hm₀ hstate
    · have hnone : s.dispatched.countP (·.1 == i) = 0 := by
        rw [List.countP_eq_zero]
        intro e he hei
        have := h.known e he
        rw [beq_iff_eq] at hei
        omega
      have hi : i ∉ s.batch settings := fun hi => absurd (lt_of_mem_batch hi) (Nat.not_lt.mpr hnew)
      rw [hnone, if_neg hi]
      omega
  · intro i
    rw [hcount]
    split_ifs with hi
    · obtain ⟨m, hm, hstate, hretry⟩ := hdue i hi
      have := h.retries i m hm hstate
      omega
    · exact h.bounded i
  · rw [hdispatched, List.pairwise_append, List.pairwise_map]
    refine ⟨h.once, ?_, ?_⟩
    · apply List.Pairwise.imp _ nodup_batch
      intro a b hne _
      exact hne
    intro a ha b hb hreturned heq
    apply hdone a ha hreturned
    rw [heq]
    exact (hbatch b hb).1

/-- A batch is isolated exactly when no flush in it fails; and over any number of such runs no message
is dispatched more often than it may be retried, nor again after its handler returned. -/
theorem outbox_isolates_messages (settings : OutboxSettings) :
    (∀ (s : OutboxState W) (run : BatchRun W), Isolated settings s run ↔ FlushesGoThrough settings s run) ∧
      ∀ (s t : OutboxState W) (runs : List (BatchRun W)), s.dispatched = [] →
        Runs.Run (OutboxState.process settings) (FlushesGoThrough settings) s runs t →
        (∀ i, t.dispatched.countP (·.1 == i) ≤ settings.maxRetries) ∧
          t.dispatched.Pairwise fun a b => a.2 = true → a.1 ≠ b.1 := by
  refine ⟨fun s run => isolated_iff, ?_⟩
  intro s t runs hstart hrun
  have hcounted : Counted settings t := by
    refine hrun.invariant (I := Counted settings) ?_ fun t run h hflush => h.process hflush
    constructor <;> simp [hstart]
  exact ⟨hcounted.bounded, hcounted.once⟩

/-- Two messages wait. -/
def twoMessages : OutboxState ℕ := { db := 0, messages := [{ createdAt := 1 }, { createdAt := 2 }] }

/-- The handler of message 1 raises by itself, the other one writes and returns. -/
def secondRaises : BatchRun ℕ :=
  { handler := fun i => if i = 1 then { ending := .raises "no recipient" } else { writes := (· + 1) } }

theorem second_is_retried :
    let t := [secondRaises, secondRaises].foldl (OutboxState.process {}) twoMessages
    (∀ i, t.dispatched.countP (·.1 == i) ≤ 5) ∧ t.dispatched.Pairwise fun a b => a.2 = true → a.1 ≠ b.1 :=
  (outbox_isolates_messages {}).2 twoMessages _ [secondRaises, secondRaises] rfl (Runs.run_of_checks (by decide))

/-- The second handler's flush fails: the first message is not finished and its write is lost. -/
theorem failed_flush_undoes_first :
    ¬ ∀ (settings : OutboxSettings) (s : OutboxState ℕ) (run : BatchRun ℕ), Isolated settings s run := by
  intro h
  have hflushes := isolated_iff.mp (h {} twoMessages
    { handler := fun i => if i = 1 then { ending := .flushFails } else { writes := (· + 1) } })
  revert hflushes
  decide

end SubmissionsChecker
