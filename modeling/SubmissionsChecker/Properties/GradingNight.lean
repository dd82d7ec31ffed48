import SubmissionsChecker.Properties.WorkVersions

/-! The budget of a night. Whatever runs of the loop, reapings, teachers' requests about links and
hand-ins a night has, no grading is sent to the judge twice in it, and the jobs that come to their end
fit what is left of the cap. A teacher's retry and a new version give a grading that failed in the night
up again: these are left out. -/

namespace SubmissionsChecker.Classroom

open Runs

variable {db db' : ClassroomDb} {nightStart g i : ℕ} {cap : ℤ} {grading grading' : LLMGrading}
  {gs gs' gs'' : List LLMGrading} {enrolled : List (ℕ × ℕ)}

/-- Done with for this night: finished in it, or being graded. -/
def LLMGrading.closed (nightStart : ℕ) (g : LLMGrading) : Bool := g.usedTonight nightStart || g.status == .running

theorem not_closed_of_status
    (h : grading.status = .waitingLink ∨ grading.status = .pending ∨ grading.status = .superseded) :
    grading.closed nightStart = false := by
  unfold LLMGrading.closed LLMGrading.usedTonight
  rcases h with h | h | h
  all_goals
    rw [h]
    rfl

theorem not_closed_of_candidate (h : grading.candidate nightStart = true) : grading.closed nightStart = false := by
  simp only [LLMGrading.candidate, LLMGrading.eligible, Bool.and_eq_true, Bool.or_eq_true, beq_iff_eq, bne_iff_ne, ne_eq,
    decide_eq_true_eq] at h
  obtain ⟨hpending | ⟨hfailed, -⟩, hnight⟩ := h
  · exact not_closed_of_status (.inr (.inl hpending))
  · have hold : ¬ nightStart ≤ grading.updatedAt := by
      rcases hnight with hnot | hlt
      · exact absurd hfailed hnot
      · omega
    simp [LLMGrading.closed, LLMGrading.usedTonight, hfailed, hold]

/-- What a job that ends leaves is used tonight, what it leaves otherwise is running. -/
theorem leaves_usedTonight {call : JudgeCall} {started ended : ℕ} (ht : nightStart ≤ ended)
    (hends : call.ends db grading ended = true) : (call.leaves db grading started ended).usedTonight nightStart = true := by
  unfold JudgeCall.leaves
  unfold JudgeCall.ends at hends
  by_cases hfiles : gradable (db.manifestOf grading) = []
  · rw [if_pos hfiles]
    simp [failNoFiles, LLMGrading.usedTonight, ht]
  · rw [if_neg hfiles]
    cases call with
    | result answer => simp [JudgeCall.commit, finish, LLMGrading.usedTonight, ht]
    | judgeError message => simp [JudgeCall.commit, fail, LLMGrading.usedTonight, ht]
    | error message => simp [JudgeCall.commit, fail, LLMGrading.usedTonight, ht]
    | lost => simp [hfiles, JudgeCall.commit] at hends

theorem leaves_running {call : JudgeCall} {started ended : ℕ} (hends : call.ends db grading ended = false) :
    (call.leaves db grading started ended).status = .running := by
  unfold JudgeCall.ends at hends
  rw [Bool.or_eq_false_iff, decide_eq_false_iff_not, Option.isSome_eq_false_iff, Option.isNone_iff_eq_none] at hends
  unfold JudgeCall.leaves
  rw [if_neg hends.1, hends.2]
  rfl

theorem leaves_closed (call : JudgeCall) {started ended : ℕ} (ht : nightStart ≤ ended) :
    (call.leaves db grading started ended).closed nightStart = true := by
  unfold LLMGrading.closed
  rw [Bool.or_eq_true]
  cases hends : call.ends db grading ended with
  | true => exact .inl (leaves_usedTonight ht hends)
  | false => exact .inr (by rw [leaves_running hends]; rfl)

/-! ## What stays closed -/

/-- Closed gradings stay closed, and what is used tonight stays used. -/
def Stays (nightStart : ℕ) (gs gs' : List LLMGrading) : Prop :=
  ∀ (g : ℕ) grading, gs[g]? = some grading → grading.closed nightStart = true → ∃ grading', gs'[g]? = some grading' ∧
    grading'.closed nightStart = true ∧ (grading.usedTonight nightStart = true → grading'.usedTonight nightStart = true)

namespace Stays

theorem of_same (h : ∀ (g : ℕ) grading, gs[g]? = some grading → grading.closed nightStart = true → gs'[g]? = some grading) :
    Stays nightStart gs gs' := fun g grading hg hc => ⟨grading, h g grading hg hc, hc, id⟩

theorem refl (gs : List LLMGrading) : Stays nightStart gs gs := of_same fun _ _ hg _ => hg

theorem trans (h₁ : Stays nightStart gs gs') (h₂ : Stays nightStart gs' gs'') : Stays nightStart gs gs'' := by
  intro g grading hg hc
  obtain ⟨grading₁, hg₁, hc₁, hu₁⟩ := h₁ g grading hg hc
  obtain ⟨grading₂, hg₂, hc₂, hu₂⟩ := h₂ g grading₁ hg₁ hc₁
  exact ⟨grading₂, hg₂, hc₂, hu₂ ∘ hu₁⟩

/-- A used grading is found used again. -/
theorem used (h : Stays nightStart gs gs') (i : ℕ) (grading : LLMGrading) (hg : gs[i]? = some grading)
    (hu : grading.usedTonight nightStart = true) :
    ∃ grading', gs'[i]? = some grading' ∧ grading'.usedTonight nightStart = true := by
  obtain ⟨grading', hg', -, hu'⟩ := h i grading hg (by rw [LLMGrading.closed, hu, Bool.true_or])
  exact ⟨grading', hg', hu' hu⟩

theorem usedTonight_le (h : Stays nightStart db.gradings db'.gradings) :
    db.usedTonight nightStart ≤ db'.usedTonight nightStart := Table.countP_le_of_keeps h.used

end Stays

theorem Released.stays (h : Released gs gs') : Stays nightStart gs gs' := by
  refine .of_same fun g grading hg hc => ?_
  obtain ⟨grading', hg', rfl | ⟨hwait, -⟩⟩ := h.rows g grading hg
  · exact hg'
  · rw [not_closed_of_status (.inl hwait)] at hc
    cases hc

/-- A request about links closes nothing. -/
theorem Released.opens (h : Released gs gs') (hopen : ∀ grading, gs[g]? = some grading → grading.closed nightStart = false)
    (hg : gs'[g]? = some grading') : grading'.closed nightStart = false := by
  have hlt : g < gs.length := h.length ▸ (List.getElem?_eq_some_iff.mp hg).1
  obtain ⟨grading₁, hg₁, hcase⟩ := h.rows g gs[g] (List.getElem?_eq_getElem hlt)
  rw [hg] at hg₁
  cases hg₁
  rcases hcase with hsame | ⟨-, now, hsame⟩
  · rw [hsame]
    exact hopen _ (List.getElem?_eq_getElem hlt)
  · rw [hsame]
    exact not_closed_of_status (.inr (.inl rfl))

theorem stays_modify {f : LLMGrading → LLMGrading} (hopen : ∀ grading, gs[g]? = some grading → grading.closed nightStart = false) :
    Stays nightStart gs (gs.modify g f) := by
  refine .of_same fun i grading hi hc => ?_
  by_cases hgi : g = i
  · subst hgi
    rw [hopen grading hi] at hc
    cases hc
  · rw [Table.getElem?_modify_ne _ hgi, hi]

/-! ## The loop -/

/-- What some turns of the loop come to: the jobs run in them, each closed now, and those that came to
their end counted. -/
structure Progress (nightStart : ℕ) (s s' : Night) (new : List ℕ) : Prop where
  stays : Stays nightStart s.db.gradings s'.db.gradings
  jobs : s'.jobs = s.jobs ++ new
  closed : ∀ g ∈ new, ∃ grading, s'.db.gradings[g]? = some grading ∧ grading.closed nightStart = true
  done : s.done ≤ s'.done
  ended : s'.done ≤ s.done + new.length
  used : s.db.usedTonight nightStart + s'.done ≤ s'.db.usedTonight nightStart + s.done

namespace Progress

variable {s s' s'' : Night} {new new' : List ℕ}

theorem refl (s : Night) : Progress nightStart s s [] :=
  ⟨.refl _, (List.append_nil _).symm, fun _ h => absurd h List.not_mem_nil, le_rfl, by simp, le_rfl⟩

theorem trans (h₁ : Progress nightStart s s' new) (h₂ : Progress nightStart s' s'' new') :
    Progress nightStart s s'' (new ++ new') where
  stays := h₁.stays.trans h₂.stays
  jobs := by rw [h₂.jobs, h₁.jobs, List.append_assoc]
  closed g hg := by
    rcases List.mem_append.mp hg with hg | hg
    · obtain ⟨grading, hrow, hc⟩ := h₁.closed g hg
      obtain ⟨grading', hrow', hc', -⟩ := h₂.stays g grading hrow hc
      exact ⟨grading', hrow', hc'⟩
    · exact h₂.closed g hg
  done := h₁.done.trans h₂.done
  ended := by
    have := h₁.ended
    have := h₂.ended
    rw [List.length_append]
    omega
  used := by
    have := h₁.used
    have := h₂.used
    omega

end Progress

/-- A job of an open grading. -/
theorem progress_job {s : Night} {turn : Turn} (ht : nightStart ≤ turn.ended) (hg : s.db.gradings[g]? = some grading)
    (hopen : grading.closed nightStart = false) : Progress nightStart s (s.job g turn) [g] := by
  have hrows := gradeOne_gradings hg turn.call turn.started turn.ended
  have hends := gradeOne_outcome hg turn.call turn.started turn.ended
  have hopen' : ∀ grading, s.db.gradings[g]? = some grading → grading.closed nightStart = false := by
    intro grading' hg'
    rw [hg] at hg'
    cases hg'
    exact hopen
  have hstays : Stays nightStart s.db.gradings (s.db.gradeOne g turn.call turn.started turn.ended).1.gradings := by
    rw [hrows]
    exact stays_modify hopen'
  have hnew : (s.db.gradeOne g turn.call turn.started turn.ended).1.gradings[g]? =
      some (turn.call.leaves s.db grading turn.started turn.ended) := by
    rw [hrows, Table.getElem?_modify_self, hg, Option.map_some]
  have hclosed : (turn.call.leaves s.db grading turn.started turn.ended).closed nightStart = true :=
    leaves_closed turn.call ht
  unfold Night.job
  cases hgrade : s.db.gradeOne g turn.call turn.started turn.ended with
  | mk db' outcome =>
    rw [hgrade] at hends hstays hnew
    have hnewClosed : ∀ h ∈ [g], ∃ grading, db'.gradings[h]? = some grading ∧ grading.closed nightStart = true := by
      intro h hh
      rw [List.mem_singleton.mp hh]
      exact ⟨_, hnew, hclosed⟩
    cases outcome with
    | none =>
      exact ⟨hstays, rfl, hnewClosed, le_rfl, by simp, Nat.add_le_add_right hstays.usedTonight_le _⟩
    | some outcome =>
      have hused : (turn.call.leaves s.db grading turn.started turn.ended).usedTonight nightStart = true :=
        leaves_usedTonight ht hends.symm
      have hlt : s.db.usedTonight nightStart < db'.usedTonight nightStart := by
        refine Table.countP_lt_of_gain hstays.used (fun grading' hg' => ?_) hnew hused
        have := hopen' grading' hg'
        rw [LLMGrading.closed, Bool.or_eq_false_iff] at this
        exact this.1
      exact ⟨hstays, rfl, hnewClosed, Nat.le_succ _, by simp, by dsimp only; omega⟩

/-- One turn runs the job of its grading, or none. -/
theorem progress_turn {s : Night} {turn : Turn} (ht : nightStart ≤ turn.ended)
    (hopen : ∀ grading, s.db.gradings[g]? = some grading → grading.closed nightStart = false) :
    ∃ new, new.Sublist [g] ∧ Progress nightStart s (s.turn enrolled g turn) new := by
  have hlinks := links_linkRequests enrolled turn.checked turn.requests s.db
  have hstart : Progress nightStart s { s with db := s.db.linkRequests enrolled turn.checked turn.requests } [] :=
    ⟨hlinks.released.stays, (List.append_nil _).symm, fun _ h => absurd h List.not_mem_nil, le_rfl, by simp,
      Nat.add_le_add_right hlinks.released.stays.usedTonight_le _⟩
  unfold Night.turn
  dsimp only
  by_cases hready : (s.db.linkRequests enrolled turn.checked turn.requests).ready g = true
  · rw [if_pos hready]
    cases hg : (s.db.linkRequests enrolled turn.checked turn.requests).gradings[g]? with
    | none =>
      rw [ClassroomDb.ready, hg] at hready
      cases hready
    | some grading =>
      exact ⟨[g], List.Sublist.refl _, hstart.trans (progress_job ht hg (hlinks.released.opens hopen hg))⟩
  · rw [if_neg hready]
    exact ⟨[], List.nil_sublist _, hstart⟩

/-- Gradings other than the turn's stay open. -/
theorem turn_opens {s : Night} {turn : Turn} (hne : g ≠ i)
    (hopen : ∀ grading, s.db.gradings[i]? = some grading → grading.closed nightStart = false)
    (hi : (s.turn enrolled g turn).db.gradings[i]? = some grading) : grading.closed nightStart = false := by
  have hlinks := links_linkRequests enrolled turn.checked turn.requests s.db
  refine hlinks.released.opens hopen (g := i) ?_
  unfold Night.turn at hi
  dsimp only at hi
  by_cases hready : (s.db.linkRequests enrolled turn.checked turn.requests).ready g = true
  · rw [if_pos hready] at hi
    cases hg : (s.db.linkRequests enrolled turn.checked turn.requests).gradings[g]? with
    | none =>
      rw [ClassroomDb.ready, hg] at hready
      cases hready
    | some row =>
      have hrows := gradeOne_gradings hg turn.call turn.started turn.ended
      have hjob : (Night.job { s with db := s.db.linkRequests enrolled turn.checked turn.requests } g turn).db.gradings =
          ((s.db.linkRequests enrolled turn.checked turn.requests).gradeOne g turn.call turn.started turn.ended).1.gradings := by
        unfold Night.job
        cases (s.db.linkRequests enrolled turn.checked turn.requests).gradeOne g turn.call turn.started turn.ended with
        | mk db' outcome => cases outcome <;> rfl
      rw [hjob, hrows, Table.getElem?_modify_ne _ hne] at hi
      exact hi
  · rw [if_neg hready] at hi
    exact hi

/-- The loop over gradings that are open at its start. -/
theorem progress_run (deadline : ℕ) (pairs : List (ℕ × Turn)) : ∀ s : Night, (pairs.map (·.1)).Nodup →
    (∀ p ∈ pairs, nightStart ≤ p.2.ended) →
    (∀ p ∈ pairs, ∀ grading, s.db.gradings[p.1]? = some grading → grading.closed nightStart = false) →
    ∃ new, new.Sublist (pairs.map (·.1)) ∧ Progress nightStart s (Night.run enrolled deadline pairs s) new := by
  induction pairs with
  | nil => exact fun s _ _ _ => ⟨[], List.nil_sublist _, .refl s⟩
  | cons p pairs ih =>
    intro s hnodup htimes hopen
    obtain ⟨g, turn⟩ := p
    unfold Night.run
    by_cases hstop : deadline ≤ turn.checked ∨ judgeErrorStreak ≤ s.judgeErrors
    · rw [if_pos hstop]
      exact ⟨[], List.nil_sublist _, .refl s⟩
    · rw [if_neg hstop]
      rw [List.map_cons, List.nodup_cons] at hnodup
      rw [List.forall_mem_cons] at htimes hopen
      obtain ⟨new, hsub, hturn⟩ : ∃ new, new.Sublist [g] ∧ Progress nightStart s (s.turn enrolled g turn) new :=
        progress_turn htimes.1 hopen.1
      have hrest : ∀ p ∈ pairs, ∀ grading, (s.turn enrolled g turn).db.gradings[p.1]? = some grading →
          grading.closed nightStart = false := by
        intro p hp grading hrow
        refine turn_opens (fun heq => hnodup.1 ?_) (hopen.2 p hp) hrow
        exact List.mem_map.mpr ⟨p, hp, heq.symm⟩
      obtain ⟨new', hsub', hrun⟩ := ih (s.turn enrolled g turn) hnodup.2 htimes.2 hrest
      exact ⟨new ++ new', hsub.append hsub', hturn.trans hrun⟩

theorem map_fst_zip_sublist {α β : Type*} (xs : List α) (ys : List β) : ((xs.zip ys).map (·.1)).Sublist xs := by
  induction xs generalizing ys with
  | nil => exact List.nil_sublist _
  | cons x xs ih =>
    cases ys with
    | nil => exact List.nil_sublist _
    | cons y ys => exact (ih ys).cons_cons x

theorem nodup_candidates (db : ClassroomDb) (nightStart : ℕ) : (db.candidates nightStart).Nodup :=
  (List.mergeSort_perm _ _).nodup_iff.mpr (Table.nodup_idsWhere _ _)

theorem open_of_mem_candidates (hg : g ∈ db.candidates nightStart) (hrow : db.gradings[g]? = some grading) :
    grading.closed nightStart = false := by
  rw [ClassroomDb.candidates, List.mem_mergeSort, Table.mem_idsWhere] at hg
  obtain ⟨grading', hrow', hp⟩ := hg
  rw [hrow] at hrow'
  cases hrow'
  exact not_closed_of_candidate (Bool.and_eq_true_iff.mp hp).1

/-- A run of the loop: distinct open gradings, no more than the budget. -/
theorem progress_gradingLoop (deadline : ℕ) {turns : List Turn} (htimes : ∀ turn ∈ turns, nightStart ≤ turn.ended)
    (db : ClassroomDb) :
    ∃ new, Progress nightStart ⟨db, 0, 0, []⟩ (gradingLoop enrolled deadline nightStart cap turns db) new ∧ new.Nodup ∧
      new.length ≤ (db.budget cap nightStart).toNat ∧
      ∀ g ∈ new, ∀ grading, db.gradings[g]? = some grading → grading.closed nightStart = false := by
  unfold gradingLoop
  by_cases hbudget : db.budget cap nightStart ≤ 0
  · rw [if_pos hbudget]
    exact ⟨[], .refl _, List.nodup_nil, Nat.zero_le _, fun _ h => absurd h List.not_mem_nil⟩
  · rw [if_neg hbudget]
    set ids := (db.candidates nightStart).take (db.budget cap nightStart).toNat
    have hids : ((ids.zip turns).map (·.1)).Sublist ids := map_fst_zip_sublist ids turns
    have hnodup : ids.Nodup := (List.take_sublist _ _).nodup (nodup_candidates db nightStart)
    have hopen : ∀ g ∈ ids, ∀ grading, db.gradings[g]? = some grading → grading.closed nightStart = false :=
      fun g hg grading hrow => open_of_mem_candidates (List.mem_of_mem_take hg) hrow
    obtain ⟨new, hsub, hrun⟩ : ∃ new, new.Sublist ((ids.zip turns).map (·.1)) ∧ Progress nightStart ⟨db, 0, 0, []⟩
        (Night.run enrolled deadline (ids.zip turns) ⟨db, 0, 0, []⟩) new :=
      progress_run deadline (ids.zip turns) ⟨db, 0, 0, []⟩ (hids.nodup hnodup) (fun p hp => htimes _ (List.of_mem_zip hp).2)
      fun p hp => hopen p.1 (List.of_mem_zip hp).1
    have hall := hsub.trans hids
    refine ⟨new, hrun, hall.nodup hnodup, hall.length_le.trans ?_, fun g hg => hopen g (hall.subset hg)⟩
    rw [List.length_take]
    exact Nat.min_le_left _ _

/-! ## A night -/

/-- Failed in this night. -/
def LLMGrading.failedTonight (nightStart : ℕ) (g : LLMGrading) : Bool :=
  g.status == .failed && decide (nightStart ≤ g.updatedAt)

/-- The tables, the jobs run since the start of the night, and how many came to their end. -/
structure NightBook where
  db : ClassroomDb
  done : ℕ
  jobs : List ℕ

def NightBook.step (s : NightBook) (op : ClassroomOp) : NightBook :=
  match op with
  | .grade enrolled deadline nightStart cap turns =>
    let night := gradingLoop enrolled deadline nightStart cap turns s.db
    ⟨night.db, s.done + night.done, s.jobs ++ night.jobs⟩
  | op => { s with db := s.db.step op }

/-- No grading that failed in this night is superseded. -/
def Spares (nightStart : ℕ) (gs gs' : List LLMGrading) : Prop :=
  ∀ g < gs.length, (gs[g]?).any (·.failedTonight nightStart) = true → (gs'[g]?).all (·.status != .superseded) = true

instance decidableSpares (nightStart : ℕ) (gs gs' : List LLMGrading) : Decidable (Spares nightStart gs gs') :=
  inferInstanceAs (Decidable (∀ g < gs.length, (gs[g]?).any (·.failedTonight nightStart) = true →
    (gs'[g]?).all (·.status != .superseded) = true))

/-- What comes in one night: runs of its loop, reapings, and what neither supersedes a grading that failed in it nor
queues it again. -/
def OneNight (nightStart : ℕ) (cap : ℤ) (db : ClassroomDb) : ClassroomOp → Prop
  | .grade _ _ start cap' turns => start = nightStart ∧ cap' = cap ∧ ∀ turn ∈ turns, nightStart ≤ turn.ended
  | .reap now => nightStart ≤ now
  | .handIn env sub => Spares nightStart db.gradings (ingested db env sub).gradings
  | .retry _ g _ => (db.gradings[g]?).all (!·.failedTonight nightStart) = true
  | _ => True

instance decidableOneNight (nightStart : ℕ) (cap : ℤ) (db : ClassroomDb) : ∀ op, Decidable (OneNight nightStart cap db op)
  | .grade _ _ start cap' turns => inferInstanceAs (Decidable (start = nightStart ∧ cap' = cap ∧
      ∀ turn ∈ turns, nightStart ≤ turn.ended))
  | .reap now => inferInstanceAs (Decidable (nightStart ≤ now))
  | .handIn env sub => decidableSpares nightStart db.gradings (ingested db env sub).gradings
  | .retry _ g _ => inferInstanceAs (Decidable ((db.gradings[g]?).all (!·.failedTonight nightStart) = true))
  | .roster .. => isTrue trivial
  | .request .. => isTrue trivial
  | .coursework .. => isTrue trivial
  | .assignments _ => isTrue trivial

theorem not_closed_of_supersedable (h : grading.status.supersedable = true) (hnight : grading.failedTonight nightStart = false) :
    grading.closed nightStart = false := by
  unfold LLMGrading.failedTonight at hnight
  unfold LLMGrading.closed LLMGrading.usedTonight
  rw [hnight, Bool.or_false]
  cases hstatus : grading.status with
  | waitingLink => rfl
  | pending => rfl
  | failed => rfl
  | running =>
    rw [hstatus] at h
    cases h
  | done =>
    rw [hstatus] at h
    cases h
  | superseded => rfl

theorem stays_updateWhere {p : ℕ → LLMGrading → Bool} {f : LLMGrading → LLMGrading}
    (h : ∀ i grading, gs[i]? = some grading → p i grading = true → grading.closed nightStart = false) :
    Stays nightStart gs (Table.updateWhere p f gs) := by
  refine .of_same fun g grading hg hc => ?_
  rw [Table.getElem?_updateWhere, hg, Option.map_some]
  by_cases hp : p g grading = true
  · rw [h g grading hg hp] at hc
    cases hc
  · rw [if_neg hp]

theorem stays_reapStale (db : ClassroomDb) {now : ℕ} (hnow : nightStart ≤ now) :
    Stays nightStart db.gradings (db.reapStale now).gradings := by
  intro g grading hg hc
  refine ⟨_, (Table.getElem?_updateWhere ..).trans (by rw [hg, Option.map_some]), ?_⟩
  by_cases hp : (grading.status == .running && decide (grading.updatedAt + staleAfter < now)) = true
  · rw [if_pos hp]
    have hused : (reap now grading).usedTonight nightStart = true := by
      simp [reap, LLMGrading.usedTonight, hnow]
    exact ⟨by rw [LLMGrading.closed, hused, Bool.true_or], fun _ => hused⟩
  · rw [if_neg hp]
    exact ⟨hc, id⟩

theorem stays_retry (db : ClassroomDb) {subjectId g now : ℕ}
    (hok : (db.gradings[g]?).all (!·.failedTonight nightStart) = true) :
    Stays nightStart db.gradings (db.step (.retry subjectId g now)).gradings := by
  change Stays nightStart db.gradings ((db.retryGrading subjectId g now).toOption.getD db).gradings
  rcases retry_cases db subjectId g now with hnone | ⟨failed, hfailed, hstatus, hretried⟩
  · rw [hnone]
    exact .refl _
  · rw [hretried]
    refine stays_modify fun row hrow => ?_
    rw [hrow, Option.all_some, Bool.not_eq_true'] at hok
    rw [hfailed] at hrow
    cases hrow
    exact not_closed_of_supersedable (by rw [hstatus]; rfl) hok

theorem Spares.of_row (h : Spares nightStart gs gs') (hg : gs[g]? = some grading)
    (hfailed : grading.failedTonight nightStart = true) (hg' : gs'[g]? = some grading') : grading'.status ≠ .superseded := by
  have hrow := h g (List.getElem?_eq_some_iff.mp hg).1 (by rw [hg, Option.any_some, hfailed])
  rw [hg', Option.all_some] at hrow
  exact bne_iff_ne.mp hrow

theorem stays_supersedeOthers (db : ClassroomDb) {submissionId : PyText.Text} {keep now : ℕ}
    (h : Spares nightStart db.gradings (db.supersedeOthers submissionId keep now).gradings) :
    Stays nightStart db.gradings (db.supersedeOthers submissionId keep now).gradings := by
  refine stays_updateWhere fun i grading hg hp => ?_
  obtain ⟨hrest, -⟩ := Bool.and_eq_true_iff.mp hp
  refine not_closed_of_supersedable (Bool.and_eq_true_iff.mp hrest).1 (Bool.eq_false_iff.mpr fun hfailed => ?_)
  have hrow : (db.supersedeOthers submissionId keep now).gradings[i]? =
      some { grading with status := .superseded, updatedAt := now } :=
    (Table.getElem?_updateWhere ..).trans (by rw [hg, Option.map_some, if_pos hp])
  exact h.of_row hg hfailed hrow rfl

theorem stays_revive (db : ClassroomDb) (workId now : ℕ) (status : LLMGradingStatus) :
    Stays nightStart db.gradings (db.revive workId now status).gradings := by
  refine stays_updateWhere fun i grading _ hp => ?_
  exact not_closed_of_status (.inr (.inr (beq_iff_eq.mp (Bool.and_eq_true_iff.mp hp).2)))

variable {env : WorkManifest.Ingest} {sub : HandIn} {link : ClassroomStudentLink} {l : ℕ}
  {manifest : List WorkManifest.ManifestEntry}

theorem not_failed_freshStatus (link : ClassroomStudentLink) : freshStatus link ≠ .failed := by
  unfold freshStatus
  split_ifs
  · exact fun h => LLMGradingStatus.noConfusion h
  · exact fun h => LLMGradingStatus.noConfusion h

theorem stays_refresh (hok : Spares nightStart db.gradings (refreshVersion db env sub link i manifest).gradings) :
    Stays nightStart db.gradings (refreshVersion db env sub link i manifest).gradings := by
  unfold refreshVersion at hok ⊢
  refine Stays.trans (stays_revive ((db.setWork i (.withManifest manifest)).seeAgain i sub) i sub.storedAt
    (freshStatus link)) (stays_supersedeOthers _ fun g hlt hfailed => ?_)
  obtain ⟨grading, hg, hfailed⟩ := (Option.any_eq_true _ _).mp hfailed
  obtain ⟨old, hold, rfl⟩ := Table.getElem?_updateWhere_some hg
  have hrow : db.gradings[g]? = some old := hold
  -- what is revived has not failed
  by_cases hp : (old.classroomWorkId == i && old.status == .superseded) = true
  · rw [if_pos hp, LLMGrading.failedTonight, Bool.and_eq_true, beq_iff_eq] at hfailed
    exact absurd hfailed.1 (not_failed_freshStatus link)
  · rw [if_neg hp] at hfailed
    exact hok g (List.getElem?_eq_some_iff.mp hrow).1 (by rw [hrow, Option.any_some, hfailed])

theorem stays_add (hok : Spares nightStart db.gradings (addVersion db env sub l link manifest).gradings) :
    Stays nightStart db.gradings (addVersion db env sub l link manifest).gradings := by
  unfold addVersion at hok ⊢
  have happend : Stays nightStart db.gradings
      (db.gradings ++ [newGrading db.works.length (freshStatus link) sub.storedAt]) :=
    .of_same fun g grading hg _ => Table.getElem?_append_old hg
  refine happend.trans (stays_supersedeOthers { db with
    works := db.works ++ [newWork env sub l manifest]
    gradings := db.gradings ++ [newGrading db.works.length (freshStatus link) sub.storedAt] } fun g hlt hfailed => ?_)
  obtain ⟨grading, hg, hfailed⟩ := (Option.any_eq_true _ _).mp hfailed
  rcases Table.getElem?_concat_some hg with hold | ⟨-, rfl⟩
  · exact hok g (List.getElem?_eq_some_iff.mp hold).1 (by rw [hold, Option.any_some, hfailed])
  · rw [LLMGrading.failedTonight, Bool.and_eq_true, beq_iff_eq] at hfailed
    exact absurd hfailed.1 (not_failed_freshStatus link)

theorem stays_handIn (db : ClassroomDb) {env : WorkManifest.Ingest} {sub : HandIn}
    (hok : Spares nightStart db.gradings (ingested db env sub).gradings) :
    Stays nightStart db.gradings (ingested db env sub).gradings := by
  cases hsub : ingestSubmission db env sub with
  | error e =>
    rw [ingested_raised hsub]
    exact .refl _
  | ok stored =>
    rw [ingested_eq hsub] at hok ⊢
    rcases ingestSubmission_ok hsub with rfl | rfl | ⟨l, link, files, hhanded⟩
    · exact .refl _
    · exact .refl _
    rcases hhanded.cases with ⟨i, -, -, rfl⟩ | ⟨ledger, -, rfl⟩
    · exact .refl _
    unfold storeVersion at hok ⊢
    cases hsame : db.sameVersion env.submissionId (contentHash env ledger.manifest) with
    | some i =>
      rw [hsame] at hok
      exact stays_refresh hok
    | none =>
      rw [hsame] at hok
      exact stays_add hok

/-- What a step of the night other than the loop leaves. -/
theorem stays_step {op : ClassroomOp} (hok : OneNight nightStart cap db op) :
    Stays nightStart db.gradings (db.step op).gradings := by
  cases op with
  | roster subjectId now matcher roster => exact (links_upsertLinks subjectId now matcher roster db).released.stays
  | handIn env sub => exact stays_handIn db hok
  | request enrolled subjectId now request => exact (links_linkRequest db enrolled subjectId now request).released.stays
  | retry subjectId g now => exact stays_retry db hok
  | coursework subjectId form =>
    obtain ⟨rows, hrows⟩ := linkCourseworkBatch_frame db subjectId form
    change Stays nightStart db.gradings (((db.linkCourseworkBatch subjectId form).toOption.map (·.1)).getD db).gradings
    rw [hrows]
    exact .refl _
  | assignments rows => exact .refl _
  | reap now => exact stays_reapStale db hok
  | grade enrolled deadline start cap' turns =>
    obtain ⟨rfl, -, htimes⟩ := hok
    obtain ⟨new, hprogress, -⟩ := progress_gradingLoop deadline htimes db
    exact hprogress.stays

/-- The invariant of the book of a night. -/
structure BookOk (nightStart : ℕ) (cap : ℤ) (used : ℕ) (s : NightBook) : Prop where
  nodup : s.jobs.Nodup
  closed : ∀ g ∈ s.jobs, ∃ grading, s.db.gradings[g]? = some grading ∧ grading.closed nightStart = true
  done : s.done ≤ s.jobs.length
  counted : used + s.done ≤ s.db.usedTonight nightStart
  budget : (s.done : ℤ) ≤ max 0 (cap - used)

theorem bookOk_step {used : ℕ} {s : NightBook} {op : ClassroomOp} (h : BookOk nightStart cap used s)
    (hok : OneNight nightStart cap s.db op) : BookOk nightStart cap used (s.step op) := by
  have hquiet : ∀ db' : ClassroomDb, Stays nightStart s.db.gradings db'.gradings →
      BookOk nightStart cap used { s with db := db' } := by
    intro db' hstays
    refine ⟨h.nodup, fun g hg => ?_, h.done, h.counted.trans hstays.usedTonight_le, h.budget⟩
    obtain ⟨grading, hrow, hclosed⟩ := h.closed g hg
    obtain ⟨grading', hrow', hclosed', -⟩ := hstays g grading hrow hclosed
    exact ⟨grading', hrow', hclosed'⟩
  cases op with
  | roster | handIn | request | retry | coursework | assignments | reap => exact hquiet _ (stays_step hok)
  | grade enrolled deadline start cap' turns =>
    obtain ⟨rfl, rfl, htimes⟩ := hok
    obtain ⟨new, hprogress, hnodup, hlength, hopen⟩ :=
      progress_gradingLoop deadline htimes s.db
    have hstep : s.step (.grade enrolled deadline start cap' turns) =
        ⟨(gradingLoop enrolled deadline start cap' turns s.db).db,
          s.done + (gradingLoop enrolled deadline start cap' turns s.db).done,
          s.jobs ++ (gradingLoop enrolled deadline start cap' turns s.db).jobs⟩ := rfl
    have hjobs : (gradingLoop enrolled deadline start cap' turns s.db).jobs = new := hprogress.jobs
    have hended : (gradingLoop enrolled deadline start cap' turns s.db).done ≤ new.length :=
      hprogress.ended.trans_eq (Nat.zero_add _)
    have hused : s.db.usedTonight start + (gradingLoop enrolled deadline start cap' turns s.db).done ≤
        (gradingLoop enrolled deadline start cap' turns s.db).db.usedTonight start := hprogress.used
    rw [hstep, hjobs]
    refine ⟨?_, fun g hg => ?_, ?_, ?_, ?_⟩
    · refine List.nodup_append.mpr ⟨h.nodup, hnodup, fun g hg g' hg' heq => ?_⟩
      subst heq
      obtain ⟨grading, hrow, hclosed⟩ := h.closed g hg
      rw [hopen g hg' grading hrow] at hclosed
      cases hclosed
    · rcases List.mem_append.mp hg with hg | hg
      · obtain ⟨grading, hrow, hclosed⟩ := h.closed g hg
        obtain ⟨grading', hrow', hclosed', -⟩ := hprogress.stays g grading hrow hclosed
        exact ⟨grading', hrow', hclosed'⟩
      · exact hprogress.closed g hg
    · rw [List.length_append]
      exact Nat.add_le_add h.done hended
    · have := h.counted
      dsimp only
      omega
    · have hbudget := h.budget
      have hbefore := h.counted
      have hcap : ((gradingLoop enrolled deadline start cap' turns s.db).done : ℤ) ≤ (s.db.budget cap' start).toNat := by
        exact_mod_cast hended.trans hlength
      unfold ClassroomDb.budget at hcap
      push_cast
      omega

/-- In one night no grading is run twice, and the jobs that come to their end fit what was left of the cap. -/
theorem night_stays_in_budget {start t : NightBook} {ops : List ClassroomOp} (hdone : start.done = 0) (hjobs : start.jobs = [])
    (hrun : Run NightBook.step (fun s op => OneNight nightStart cap s.db op) start ops t) :
    t.jobs.Nodup ∧ t.done ≤ t.jobs.length ∧ (t.done : ℤ) ≤ max 0 (cap - start.db.usedTonight nightStart) ∧
      start.db.usedTonight nightStart + t.done ≤ t.db.usedTonight nightStart := by
  have hok : BookOk nightStart cap (start.db.usedTonight nightStart) t := by
    refine hrun.invariant ⟨?_, ?_, ?_, ?_, ?_⟩ fun s op h hok => bookOk_step h hok
    · rw [hjobs]
      exact List.nodup_nil
    · rw [hjobs]
      exact fun g hg => absurd hg List.not_mem_nil
    · rw [hdone]
      exact Nat.zero_le _
    · rw [hdone, Nat.add_zero]
    · rw [hdone]
      exact le_max_left _ _
  exact ⟨hok.nodup, hok.done, hok.budget, hok.counted⟩

/-- The judge fails once, and the loop is fired twice, each time after a sync. -/
def failingNight : List ClassroomOp :=
  [.assignments [⟨0, some "essay", none, true, true⟩], .handIn homework (handedIn [(⟨[], []⟩, some [])] 1),
    .grade [] 10 0 5 [⟨2, [], .judgeError [], 2, 3⟩], .reap 4, .handIn homework (handedIn [(⟨[], []⟩, some [])] 5),
    .grade [] 10 0 5 [⟨6, [], .judgeError [], 6, 7⟩]]

theorem failingNight_in_budget :
    (failingNight.foldl NightBook.step ⟨oneLink, 0, []⟩).jobs.Nodup ∧
      (failingNight.foldl NightBook.step ⟨oneLink, 0, []⟩).done ≤
        (failingNight.foldl NightBook.step ⟨oneLink, 0, []⟩).jobs.length ∧
      ((failingNight.foldl NightBook.step ⟨oneLink, 0, []⟩).done : ℤ) ≤ max 0 (5 - oneLink.usedTonight 0) ∧
      oneLink.usedTonight 0 + (failingNight.foldl NightBook.step ⟨oneLink, 0, []⟩).done ≤
        (failingNight.foldl NightBook.step ⟨oneLink, 0, []⟩).db.usedTonight 0 := by
  have hrun : Run NightBook.step (fun s op => OneNight 0 5 s.db op) ⟨oneLink, 0, []⟩ failingNight
      (failingNight.foldl NightBook.step ⟨oneLink, 0, []⟩) := run_of_checks (by decide +kernel)
  exact night_stays_in_budget rfl rfl hrun

/-! ## An undisturbed loop -/

/-- The rows that a job of `g` reads are the same. -/
structure SameFor (g : ℕ) (db db' : ClassroomDb) : Prop where
  grading : db'.gradings[g]? = db.gradings[g]?
  works : db'.works = db.works
  links : db'.links = db.links
  assignments : db'.assignments = db.assignments

namespace SameFor

theorem refl (db : ClassroomDb) : SameFor g db db := ⟨rfl, rfl, rfl, rfl⟩

theorem trans {db'' : ClassroomDb} (h₁ : SameFor g db db') (h₂ : SameFor g db' db'') : SameFor g db db'' :=
  ⟨h₂.grading.trans h₁.grading, h₂.works.trans h₁.works, h₂.links.trans h₁.links, h₂.assignments.trans h₁.assignments⟩

theorem ready (h : SameFor g db db') : db'.ready g = db.ready g := by
  unfold ClassroomDb.ready ClassroomDb.inScope ClassroomDb.superseder
  rw [h.grading, h.works, h.links, h.assignments]

theorem outcome (h : SameFor g db db') (call : JudgeCall) (started ended : ℕ) :
    (db'.gradeOne g call started ended).2 = (db.gradeOne g call started ended).2 := by
  unfold ClassroomDb.gradeOne
  rw [h.grading]
  cases db.gradings[g]? with
  | none => rfl
  | some grading =>
    have hmanifest : db'.manifestOf grading = db.manifestOf grading := by
      rw [ClassroomDb.manifestOf, h.works, ClassroomDb.manifestOf]
    dsimp only
    by_cases hfiles : gradable (db.manifestOf grading) = []
    · rw [if_pos (hmanifest ▸ hfiles), if_pos hfiles]
    · rw [if_neg (hmanifest ▸ hfiles), if_neg hfiles]
      cases call <;> rfl

end SameFor

/-- A job leaves what the jobs of other gradings read. -/
theorem sameFor_job (s : Night) {turn : Turn} (hne : g ≠ i) : SameFor i s.db (s.job g turn).db := by
  rw [Night.job_db]
  obtain ⟨hworks, hlinks, hassignments⟩ := gradeOne_frame s.db g turn.call turn.started turn.ended
  refine ⟨?_, hworks, hlinks, hassignments⟩
  cases hg : s.db.gradings[g]? with
  | none =>
    unfold ClassroomDb.gradeOne
    rw [hg]
  | some grading => rw [gradeOne_gradings hg, Table.getElem?_modify_ne _ hne]

/-- How the jobs of some turns end, those that do. -/
def ClassroomDb.outcomes (db : ClassroomDb) (pairs : List (ℕ × Turn)) : List Outcome :=
  pairs.filterMap fun p => (db.gradeOne p.1 p.2.call p.2.started p.2.ended).2

/-- The judge errors at the end. -/
def streak (outcomes : List Outcome) : ℕ := (outcomes.reverse.takeWhile (· = .judgeError)).length

theorem streak_concat (outcomes : List Outcome) (outcome : Outcome) :
    streak (outcomes ++ [outcome]) = if outcome = .judgeError then streak outcomes + 1 else 0 := by
  unfold streak
  rw [List.reverse_append, List.reverse_singleton, List.singleton_append, List.takeWhile_cons]
  by_cases h : outcome = .judgeError
  · simp [h]
  · simp [h]

/-- What the loop has come to after the turns `past`. -/
structure After (db : ClassroomDb) (past : List (ℕ × Turn)) (s : Night) : Prop where
  jobs : s.jobs = past.map (·.1)
  done : s.done = (db.outcomes past).length
  judgeErrors : s.judgeErrors = streak (db.outcomes past)
  same : ∀ g, g ∉ past.map (·.1) → SameFor g db s.db

theorem after_job {past : List (ℕ × Turn)} {s : Night} (h : After db past s) (hnew : g ∉ past.map (·.1)) (turn : Turn) :
    After db (past ++ [(g, turn)]) (s.job g turn) := by
  have houtcome := (h.same g hnew).outcome turn.call turn.started turn.ended
  have hsame : ∀ k, k ∉ (past ++ [(g, turn)]).map (·.1) → SameFor k db (s.job g turn).db := by
    intro k hk
    rw [List.map_append, List.mem_append, not_or] at hk
    refine (h.same k hk.1).trans (sameFor_job s fun heq => hk.2 ?_)
    rw [heq]
    exact List.mem_singleton_self _
  have houtcomes : db.outcomes (past ++ [(g, turn)]) = db.outcomes past ++
      ((db.gradeOne g turn.call turn.started turn.ended).2).toList := by
    unfold ClassroomDb.outcomes
    rw [List.filterMap_append, List.filterMap_cons]
    cases (db.gradeOne g turn.call turn.started turn.ended).2 <;> rfl
  cases hgrade : s.db.gradeOne g turn.call turn.started turn.ended with
  | mk db' outcome =>
    rw [hgrade] at houtcome
    rw [← houtcome] at houtcomes
    cases outcome with
    | none =>
      have hjob : s.job g turn = ⟨db', s.done, s.judgeErrors, s.jobs ++ [g]⟩ := by
        unfold Night.job
        rw [hgrade]
      rw [Option.toList_none, List.append_nil] at houtcomes
      refine ⟨?_, ?_, ?_, hsame⟩
      · rw [hjob, List.map_append, ← h.jobs]
        rfl
      · rw [hjob, houtcomes]
        exact h.done
      · rw [hjob, houtcomes]
        exact h.judgeErrors
    | some outcome =>
      have hjob : s.job g turn =
          ⟨db', s.done + 1, if outcome = .judgeError then s.judgeErrors + 1 else 0, s.jobs ++ [g]⟩ := by
        unfold Night.job
        rw [hgrade]
      rw [Option.toList_some] at houtcomes
      refine ⟨?_, ?_, ?_, hsame⟩
      · rw [hjob, List.map_append, ← h.jobs]
        rfl
      · rw [hjob, houtcomes, List.length_append, ← h.done]
        rfl
      · rw [hjob, houtcomes, streak_concat, ← h.judgeErrors]

/-- Where the loop stops: at the end of the list, at the deadline, or after three judge errors in a row. -/
def Stops (deadline : ℕ) (db : ClassroomDb) (pairs : List (ℕ × Turn)) (k : ℕ) : Prop :=
  k = pairs.length ∨ (∃ p, pairs[k]? = some p ∧ deadline ≤ p.2.checked) ∨ judgeErrorStreak ≤ streak (db.outcomes (pairs.take k))

theorem run_prefix (deadline : ℕ) {rest : List (ℕ × Turn)} : ∀ {past : List (ℕ × Turn)} {s : Night}, After db past s →
    ((past ++ rest).map (·.1)).Nodup → (∀ p ∈ rest, p.2.requests = []) → (∀ p ∈ rest, db.ready p.1 = true) →
    ∃ k ≤ rest.length, After db (past ++ rest.take k) (Night.run enrolled deadline rest s) ∧
      (k = rest.length ∨ (∃ p, rest[k]? = some p ∧ deadline ≤ p.2.checked) ∨
        judgeErrorStreak ≤ streak (db.outcomes (past ++ rest.take k))) ∧
      ∀ j < k, (∀ p, rest[j]? = some p → p.2.checked < deadline) ∧
        streak (db.outcomes (past ++ rest.take j)) < judgeErrorStreak := by
  induction rest with
  | nil =>
    intro past s h _ _ _
    refine ⟨0, le_rfl, ?_, .inl rfl, fun j hj => absurd hj (Nat.not_lt_zero j)⟩
    rw [List.take_nil, List.append_nil]
    exact h
  | cons p rest ih =>
    intro past s h hnodup hrequests hready
    obtain ⟨g, turn⟩ := p
    unfold Night.run
    by_cases hstop : deadline ≤ turn.checked ∨ judgeErrorStreak ≤ s.judgeErrors
    · rw [if_pos hstop]
      refine ⟨0, Nat.zero_le _, ?_, ?_, fun j hj => absurd hj (Nat.not_lt_zero j)⟩
      · rw [List.take_zero, List.append_nil]
        exact h
      · rcases hstop with hstop | hstop
        · exact .inr (.inl ⟨(g, turn), rfl, hstop⟩)
        · rw [h.judgeErrors] at hstop
          refine .inr (.inr ?_)
          rw [List.take_zero, List.append_nil]
          exact hstop
    · rw [if_neg hstop]
      rw [not_or, Nat.not_le, Nat.not_le] at hstop
      have hnew : g ∉ past.map (·.1) := by
        rw [List.map_append, List.nodup_append] at hnodup
        exact fun hg => hnodup.2.2 g hg g (List.mem_cons_self ..) rfl
      have hturn : s.turn enrolled g turn = s.job g turn := by
        have hnone : turn.requests = [] := hrequests _ (List.mem_cons_self ..)
        have hdb : s.db.linkRequests enrolled turn.checked turn.requests = s.db := by
          rw [hnone]
          rfl
        have hg : s.db.ready g = true := ((h.same g hnew).ready).trans (hready _ (List.mem_cons_self ..))
        unfold Night.turn
        rw [hdb]
        exact if_pos hg
      rw [hturn]
      have hlist : ∀ xs, past ++ [(g, turn)] ++ xs = past ++ (g, turn) :: xs := fun xs => by
        rw [List.append_assoc, List.singleton_append]
      obtain ⟨k, hk, hafter, hends, hbefore⟩ := ih (after_job h hnew turn) (by rwa [hlist])
        (fun p hp => hrequests p (List.mem_cons_of_mem _ hp)) fun p hp => hready p (List.mem_cons_of_mem _ hp)
      refine ⟨k + 1, Nat.succ_le_succ hk, ?_, ?_, fun j hj => ?_⟩
      · rw [List.take_succ_cons, ← hlist]
        exact hafter
      · rw [List.take_succ_cons, ← hlist]
        rcases hends with rfl | hends | hends
        · exact .inl rfl
        · exact .inr (.inl hends)
        · exact .inr (.inr hends)
      · cases j with
        | zero =>
          refine ⟨fun p hp => ?_, ?_⟩
          · cases hp
            exact hstop.1
          · rw [List.take_zero, List.append_nil, ← h.judgeErrors]
            exact hstop.2
        | succ j =>
          rw [List.take_succ_cons, ← hlist]
          exact hbefore j (Nat.lt_of_succ_lt_succ hj)

theorem ready_of_mem_candidates (hg : g ∈ db.candidates nightStart) : db.ready g = true := by
  rw [ClassroomDb.candidates, List.mem_mergeSort, Table.mem_idsWhere] at hg
  obtain ⟨grading, hrow, hp⟩ := hg
  obtain ⟨hcandidate, hscope⟩ := Bool.and_eq_true_iff.mp hp
  rw [ClassroomDb.ready, hrow, Option.any_some, Bool.and_eq_true]
  exact ⟨(Bool.and_eq_true_iff.mp hcandidate).1, hscope⟩

/-- The work list of a run of the loop with its turns. -/
def ClassroomDb.nightPairs (db : ClassroomDb) (nightStart : ℕ) (cap : ℤ) (turns : List Turn) : List (ℕ × Turn) :=
  ((db.candidates nightStart).take (db.budget cap nightStart).toNat).zip turns

/-- With no request in between, the loop runs the first candidates of the budget, and goes on until a reason to stop:
the first one that comes up. -/
theorem undisturbed_loop_runs_a_prefix (enrolled : List (ℕ × ℕ)) (deadline nightStart : ℕ) (cap : ℤ) {turns : List Turn}
    (hrequests : ∀ turn ∈ turns, turn.requests = []) (db : ClassroomDb) :
    ∃ k ≤ (db.nightPairs nightStart cap turns).length,
      (gradingLoop enrolled deadline nightStart cap turns db).jobs = ((db.nightPairs nightStart cap turns).take k).map (·.1) ∧
      (gradingLoop enrolled deadline nightStart cap turns db).done =
        (db.outcomes ((db.nightPairs nightStart cap turns).take k)).length ∧
      Stops deadline db (db.nightPairs nightStart cap turns) k ∧
      ∀ j < k, ¬ Stops deadline db (db.nightPairs nightStart cap turns) j := by
  have hids : ((db.candidates nightStart).take (db.budget cap nightStart).toNat).Nodup :=
    (List.take_sublist _ _).nodup (nodup_candidates db nightStart)
  have hready : ∀ g ∈ (db.candidates nightStart).take (db.budget cap nightStart).toNat, db.ready g = true :=
    fun g hg => ready_of_mem_candidates (List.mem_of_mem_take hg)
  have hstart : After db [] ⟨db, 0, 0, []⟩ := ⟨rfl, rfl, rfl, fun g _ => .refl db⟩
  have hloop : gradingLoop enrolled deadline nightStart cap turns db =
      Night.run enrolled deadline (db.nightPairs nightStart cap turns) ⟨db, 0, 0, []⟩ := by
    unfold gradingLoop ClassroomDb.nightPairs
    by_cases hbudget : db.budget cap nightStart ≤ 0
    · rw [if_pos hbudget, Int.toNat_of_nonpos hbudget, List.take_zero]
      rfl
    · rw [if_neg hbudget]
  rw [hloop]
  obtain ⟨k, hk, hafter, hstops, hbefore⟩ := run_prefix deadline hstart
    ((map_fst_zip_sublist _ turns).nodup hids) (fun p hp => hrequests _ (List.of_mem_zip hp).2)
    fun p hp => hready _ (List.of_mem_zip hp).1
  refine ⟨k, hk, hafter.jobs, hafter.done, hstops, fun j hj => ?_⟩
  obtain ⟨hdeadline, hstreak⟩ := hbefore j hj
  rintro (hend | ⟨p, hp, hlate⟩ | hthree)
  · exact absurd (hend ▸ hj) (Nat.not_lt.mpr hk)
  · exact absurd (hdeadline p hp) (Nat.not_lt.mpr hlate)
  · exact absurd hstreak (Nat.not_lt.mpr hthree)

/-- One work waits for its job, and there is time for it. -/
def oneWaiting : ClassroomDb := (failingNight.take 2).foldl ClassroomDb.step oneLink

theorem oneWaiting_runs_a_prefix : ∃ k ≤ (oneWaiting.nightPairs 0 5 [⟨2, [], .lost, 2, 3⟩]).length,
    (gradingLoop [] 10 0 5 [⟨2, [], .lost, 2, 3⟩] oneWaiting).jobs =
      ((oneWaiting.nightPairs 0 5 [⟨2, [], .lost, 2, 3⟩]).take k).map (·.1) ∧
    (gradingLoop [] 10 0 5 [⟨2, [], .lost, 2, 3⟩] oneWaiting).done =
      (oneWaiting.outcomes ((oneWaiting.nightPairs 0 5 [⟨2, [], .lost, 2, 3⟩]).take k)).length ∧
    Stops 10 oneWaiting (oneWaiting.nightPairs 0 5 [⟨2, [], .lost, 2, 3⟩]) k ∧
    ∀ j < k, ¬ Stops 10 oneWaiting (oneWaiting.nightPairs 0 5 [⟨2, [], .lost, 2, 3⟩]) j :=
  undisturbed_loop_runs_a_prefix [] 10 0 5 (by simp) oneWaiting

end SubmissionsChecker.Classroom
