import SubmissionsChecker.Sessions.SyncRuns

/-! Manual syncs started side by side. A start locks the runs it has selected, but nothing locks the
subject: two starts that select before either commits both go on. -/

namespace SubmissionsChecker

open ReadCommitted Runs

variable {s : SyncRuns} {P : Type*} [DecidableEq P]

/-- At most one run of a subject is `RUNNING`. -/
def SyncRuns.OneRunning (s : SyncRuns) : Prop := ∀ (i j : ℕ) (r r' : ClassroomSyncRun), s.runs[i]? = some r →
  s.runs[j]? = some r' → r.subjectId = r'.subjectId → r.status = .running → r'.status = .running → i = j

/-- At most one run of a subject is running with a live heartbeat. -/
def SyncRuns.OneLive (s : SyncRuns) : Prop := ∀ (i j : ℕ) (r r' : ClassroomSyncRun), s.runs[i]? = some r →
  s.runs[j]? = some r' → r.subjectId = r'.subjectId → (r.shown s.now).1 = .running → (r'.shown s.now).1 = .running →
  i = j

namespace SyncSession

/-- A request or a task that has done nothing yet. -/
def IsNew : SyncSession → Prop
  | asked _ _ | updating _ _ => True
  | _ => False

/-- A start that adds its run holds every run of the subject that is `RUNNING` by then. -/
def StartsFresh (s : SyncRuns) : SyncSession → Prop
  | locking subjectId _ now [] held =>
    held.all (·.2.isStale now) = true → ∀ i ∈ s.runningIds subjectId, i ∈ held.map (·.1)
  | _ => True

instance decidableStartsFresh (s : SyncRuns) (l : SyncSession) : Decidable (l.StartsFresh s) := by
  unfold StartsFresh
  split <;> infer_instance

/-- An `_update` never sets a run to `RUNNING`. -/
def Closes : SyncSession → Prop
  | stamped _ old new | flushing _ old new => new.status = .running → old.status = .running
  | _ => True

end SyncSession

namespace SyncRuns

theorem mem_runningIds {subjectId i : ℕ} :
    i ∈ s.runningIds subjectId ↔ ∃ r, s.runs[i]? = some r ∧ r.subjectId = subjectId ∧ r.status = .running := by
  simp [runningIds, Table.mem_idsWhere]

theorem OneRunning.live (h : s.OneRunning) : s.OneLive := by
  have hrunning : ∀ r : ClassroomSyncRun, (r.shown s.now).1 = .running → r.status = .running := by
    intro r hr
    unfold ClassroomSyncRun.shown at hr
    split_ifs at hr
    cases hst : r.status <;> simp [hst] at hr ⊢
  intro i j r r' hi hj hsubj hr hr'
  exact h i j r r' hi hj hsubj (hrunning r hr) (hrunning r' hr')

/-- Closing runs, or writing their other columns, leaves at most one. -/
theorem OneRunning.of_rows {s' : SyncRuns} (h : s.OneRunning)
    (hrows : ∀ (i : ℕ) r', s'.runs[i]? = some r' → r'.status = .running →
      ∃ r, s.runs[i]? = some r ∧ r.subjectId = r'.subjectId ∧ r.status = .running) : s'.OneRunning := by
  intro i j r r' hi hj hsubj hr hr'
  obtain ⟨r₀, hi₀, hs₀, hr₀⟩ := hrows i r hi hr
  obtain ⟨r₀', hj₀, hs₀', hr₀'⟩ := hrows j r' hj hr'
  exact h i j r₀ r₀' hi₀ hj₀ (by rw [hs₀, hs₀', hsubj]) hr₀ hr₀'

/-- The runs that are `RUNNING` after a start: its own, and those it neither closed nor belongs with. -/
theorem running_insertRun {subjectId userId now : ℕ} {stale : List ℕ} {i : ℕ} {r : ClassroomSyncRun}
    (hr : (s.insertRun subjectId userId now stale).runs[i]? = some r) (hst : r.status = .running) :
    (i = s.runs.length ∧ r.subjectId = subjectId) ∨ (i ∉ stale ∧ s.runs[i]? = some r) := by
  unfold insertRun at hr
  dsimp only at hr
  rcases Table.getElem?_concat_some hr with hold | ⟨hi, rfl⟩
  · obtain ⟨r₀, hr₀, rfl⟩ := Table.getElem?_updateWhere_some hold
    by_cases hmem : i ∈ stale
    · simp [hmem] at hst
    · rw [if_neg (by simpa using hmem)]
      exact .inr ⟨hmem, hr₀⟩
  · rw [Table.length_updateWhere] at hi
    exact .inl ⟨hi, rfl⟩

theorem OneRunning.insertRun {subjectId userId now : ℕ} {stale : List ℕ} (h : s.OneRunning)
    (hfresh : ∀ i ∈ s.runningIds subjectId, i ∈ stale) : (s.insertRun subjectId userId now stale).OneRunning := by
  -- an old run that is still running is of another subject
  have hother : ∀ (i : ℕ) r, i ∉ stale → s.runs[i]? = some r → r.status = .running → r.subjectId ≠ subjectId := by
    intro i r hi hr hst hsubj
    exact hi (hfresh i (mem_runningIds.mpr ⟨r, hr, hsubj, hst⟩))
  intro i j r r' hi hj hsubj hr hr'
  rcases running_insertRun hi hr with ⟨hi, hs⟩ | ⟨hi, hrow⟩
  · rcases running_insertRun hj hr' with ⟨hj, -⟩ | ⟨hj, hrow'⟩
    · rw [hi, hj]
    · exact absurd (hsubj.symm.trans hs) (hother j r' hj hrow' hr')
  · rcases running_insertRun hj hr' with ⟨-, hs'⟩ | ⟨-, hrow'⟩
    · exact absurd (hsubj.trans hs') (hother i r hi hrow hr)
    · exact h i j r r' hrow hrow' hsubj hr hr'

end SyncRuns

theorem closes_set {fields : SyncFields} {now : ℕ} {row : ClassroomSyncRun} (h : (fields.set now row).status = .running) :
    row.status = .running := by
  cases fields with
  | progress p => exact h
  | finished error finishedAt =>
    simp only [SyncFields.set] at h
    split_ifs at h

theorem write_running {loaded new row : ClassroomSyncRun} (hcloses : new.status = .running → loaded.status = .running)
    (h : (loaded.write new row).status = .running) : row.status = .running := by
  simp only [ClassroomSyncRun.write, changedOr] at h
  split_ifs at h with hsame
  · exact h
  · exact absurd (h.trans (hcloses h).symm) hsame

theorem sync_rules : Rules SyncSession.next (fun s l => l.StartsFresh s) SyncRuns.OneRunning
    (fun _ _ l => l.Closes) where
  read := by
    intro s H l f _ hB _ h
    cases l with
    | asked subjectId userId => cases h; trivial
    | clocked subjectId userId now => cases h; trivial
    | locking subjectId userId now todo held =>
      rcases todo with _ | ⟨i, todo⟩
      · simp only [SyncSession.next] at h
        split at h <;> cases h
      · cases h
    | updating i fields =>
      cases h
      dsimp only
      split <;> trivial
    | loaded i fields row =>
      cases h
      exact closes_set
    | _ => cases h
  lock := by
    intro s H l k f _ hB _ h
    cases l with
    | locking subjectId userId now todo held =>
      rcases todo with _ | ⟨i, todo⟩
      · simp only [SyncSession.next] at h
        split at h <;> cases h
      · cases h
        trivial
    | stamped i row new => cases h; exact hB
    | _ => cases h
  commit := by
    intro s H l f l' hA hB hok h
    cases l with
    | locking subjectId userId now todo held =>
      rcases todo with _ | ⟨i, todo⟩
      · simp only [SyncSession.next] at h
        split at h
        · rename_i hstale
          cases h
          exact ⟨hA.insertRun (hok hstale), trivial⟩
        · cases h
      · cases h
    | flushing i row new =>
      cases h
      refine ⟨hA.of_rows fun j r hr hst => ?_, trivial⟩
      obtain ⟨r₀, hr₀, rfl⟩ := Table.getElem?_modify_some hr
      refine ⟨r₀, hr₀, ?_, ?_⟩
      · split_ifs <;> rfl
      · split_ifs at hst
        · exact write_running hB hst
        · exact hst
    | _ => cases h
  rollback := by
    intro s H l l' _ _ _ h
    cases l with
    | locking subjectId userId now todo held =>
      rcases todo with _ | ⟨i, todo⟩
      · simp only [SyncSession.next] at h
        split at h
        · cases h
        · cases h
          trivial
      · cases h
    | _ => cases h
  others := fun _ _ _ _ hm _ => hm

/-- When every start that adds a run holds all that are running, at most one sync of a subject is live,
whatever the order of starts, heartbeats, finishes and crashes. -/
theorem one_sync_at_a_time {session : P → SyncSession} (hnew : ∀ p, (session p).IsNew)
    {es : List (ReadCommitted.Event P ℕ)} {st : State SyncRuns P SyncSession ℕ}
    (h : Run (happen SyncSession.next .ended SyncRuns.tick) (OkEvent fun s l => l.StartsFresh s) (start {} session) es st) :
    st.store.OneLive := by
  have hstart : Holds SyncRuns.OneRunning (fun _ _ l => l.Closes) (start {} session : State SyncRuns P SyncSession ℕ) := by
    refine ⟨fun i j r r' hi => by simp [start] at hi, fun p => ?_⟩
    have hp := hnew p
    change (session p).Closes
    cases hl : session p <;> rw [hl] at hp <;> trivial
  have hended : SyncSession.ended.Closes := trivial
  have htick : ∀ (seconds : ℕ) (s : SyncRuns), s.OneRunning → (s.tick seconds).OneRunning := fun _ _ hA => hA
  have hend := hstart.events sync_rules (fun _ => hended) htick (fun _ _ _ _ hB => hB) h
  exact hend.1.live

/-- Two teachers press the button, and the tasks report. -/
def twoStarts : Fin 3 → SyncSession
  | 0 => .asked 7 1
  | 1 => .asked 7 2
  | 2 => .updating 0 (.finished none 400)

theorem twoStarts_new : ∀ p, (twoStarts p).IsNew
  | 0 => trivial
  | 1 => trivial
  | 2 => trivial

/-- Both starts select before either commits. -/
theorem two_syncs_live : ¬ ∀ (n : ℕ) (session : Fin n → SyncSession) (es : List (ReadCommitted.Event (Fin n) ℕ))
    (st : State SyncRuns (Fin n) SyncSession ℕ), (∀ p, (session p).IsNew) →
    Run (happen SyncSession.next .ended SyncRuns.tick) Any (start {} session) es st → st.store.OneLive := by
  intro hall
  have h := hall 3 twoStarts [.next 0, .next 0, .next 1, .next 1, .next 0, .next 1] _ twoStarts_new (run_foldl _)
  have := h 0 1 _ _ rfl rfl rfl (by decide) (by decide)
  cases this

/-- A start that finds a run six minutes silent closes it and goes on; the task's late end changes nothing. -/
theorem second_start_takes_over :
    let st := ([.next 0, .next 0, .next 0, .outside 360, .next 1, .next 1, .next 1, .next 1, .next 2, .next 2, .next 2,
      .next 2] : List (ReadCommitted.Event (Fin 3) ℕ)).foldl (happen SyncSession.next .ended SyncRuns.tick) (start {} twoStarts)
    st.store.runs.map (·.status) = [.done, .running] ∧ st.store.OneLive := by
  refine ⟨by decide, one_sync_at_a_time twoStarts_new (run_of_checks ?_)⟩
  decide

end SubmissionsChecker
