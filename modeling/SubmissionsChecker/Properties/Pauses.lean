import SubmissionsChecker.Effects.AttemptRows
import SubmissionsChecker.Routes.AirRaid

/-! An air-raid pause is stored twice, as a flag with a total on the attempt and as rows. The page of a
force-failed attempt finishes it before it looks at the flag, and finishing closes no row. -/

namespace SubmissionsChecker

open Runs

/-- The length a row records; an open row records none. -/
def QuizAttemptPause.length (p : QuizAttemptPause) : ℕ := p.endedAt.elim 0 (· - p.startedAt)

namespace PauseColumns

/-- The flag is set exactly when one row is open, with the same start, and the total is that of the rows. -/
structure Kept (c : PauseColumns) : Prop where
  total : c.pausedSeconds * microsPerSecond = (c.pauses.map (·.length)).sum
  unflagged : c.pausedAt = none → c.openIds = []
  flagged : ∀ t, c.pausedAt = some t → ∃ i row, c.openIds = [i] ∧ c.pauses[i]? = some row ∧ row.startedAt = t

variable {c : PauseColumns}

theorem kept_new : ({} : PauseColumns).Kept := ⟨rfl, fun _ => rfl, nofun⟩

theorem closeOpenPause_unpaused (h : c.pausedAt = none) (now : ℕ) : (c.closeOpenPause now).1 = c := by
  simp [closeOpenPause, h]

theorem Kept.pause (h : c.Kept) (hp : c.pausedAt = none) (now : ℕ) : (c.pause now).Kept where
  total := by
    have hlength : ({ startedAt := now } : QuizAttemptPause).length = 0 := rfl
    simp only [PauseColumns.pause, List.map_append, List.sum_append, List.map_cons, List.map_nil, hlength, h.total]
    simp
  unflagged := nofun
  flagged := by
    intro t ht
    obtain rfl : now = t := Option.some_inj.mp ht
    refine ⟨c.pauses.length, { startedAt := now }, ?_, Table.getElem?_concat_length _ _, rfl⟩
    have hnone := h.unflagged hp
    unfold openIds at hnone ⊢
    rw [PauseColumns.pause, Table.idsWhere_concat, hnone]
    rfl

/-- Ending the one open row leaves none open. -/
theorem openIds_end {i : ℕ} {rows : List QuizAttemptPause} {endedAt : ℕ}
    (h : Table.idsWhere (·.endedAt.isNone) rows = [i]) :
    Table.idsWhere (·.endedAt.isNone) (rows.modify i ({ · with endedAt := some endedAt })) = [] := by
  refine List.eq_nil_iff_forall_not_mem.mpr fun j hj => ?_
  obtain ⟨r, hr, hopen⟩ := Table.mem_idsWhere.mp hj
  obtain ⟨r₀, hr₀, rfl⟩ := Table.getElem?_modify_some hr
  by_cases hij : i = j
  · rw [if_pos hij] at hopen
    simp at hopen
  · rw [if_neg hij] at hopen
    have hmem : j ∈ Table.idsWhere (·.endedAt.isNone) rows := Table.mem_idsWhere.mpr ⟨r₀, hr₀, hopen⟩
    rw [h, List.mem_singleton] at hmem
    exact hij hmem.symm

theorem Kept.resume (h : c.Kept) (now : ℕ) : (c.resume now).Kept := by
  unfold PauseColumns.resume
  split
  · exact h
  · rename_i t ht
    obtain ⟨i, row, hids, hrow, hstart⟩ := h.flagged t ht
    have hopen : row.endedAt = none := by
      obtain ⟨r, hr, hnone⟩ := Table.mem_idsWhere.mp (show i ∈ c.openIds by rw [hids]; exact List.mem_singleton_self i)
      rw [hrow] at hr
      cases hr
      exact Option.isNone_iff_eq_none.mp hnone
    have hpause : c.openPause = some i := by rw [openPause, hids, List.argmax_singleton]
    simp only [closeOpenPause, ht, hpause]
    refine ⟨?_, fun _ => openIds_end hids, nofun⟩
    -- the row's length is what the total grew by
    have hsum := Table.sum_modify
      ({ · with endedAt := some (t + (now - t) / microsPerSecond * microsPerSecond) }) QuizAttemptPause.length hrow
    have hbefore : row.length = 0 := by rw [QuizAttemptPause.length, hopen]; rfl
    have hafter : ({ row with endedAt := some (t + (now - t) / microsPerSecond * microsPerSecond) } :
        QuizAttemptPause).length = (now - t) / microsPerSecond * microsPerSecond := by
      rw [QuizAttemptPause.length, hstart]
      exact Nat.add_sub_cancel_left _ _
    rw [hbefore, hafter] at hsum
    have htotal := h.total
    rw [Nat.add_mul, htotal]
    exact hsum.symm

end PauseColumns

/-- Both records of the pauses of attempt `k` agree. -/
def Sittings.PausesAgree (s : Sittings) (k : ℕ) : Prop :=
  let c := s.columns k
  (c.pausedAt.isSome = true ↔ c.openIds.length = 1) ∧
  (c.pausedAt.isSome = true → ∃ a, s.db.quizAttempts[k]? = some a ∧ a.status = .inProgress) ∧
  (c.pausedAt = none → c.openIds = []) ∧
  c.pausedSeconds * microsPerSecond = (c.pauses.map (·.length)).sum

/-- No page view finds a paused attempt that was force-failed. -/
def Sittings.ShowsLive (s : Sittings) : SittingOp → Prop
  | .request (.showQuiz k studentId _ _) =>
    match s.db.attemptFor k studentId with
    | .ok a => a.status = .inProgress → a.forceFail = true → s.isPaused k = false
    | .error _ => True
  | _ => True

instance Sittings.decidableShowsLive (s : Sittings) (op : SittingOp) : Decidable (s.ShowsLive op) := by
  unfold Sittings.ShowsLive
  split
  · split <;> infer_instance
  · infer_instance

/-- What every reachable state keeps. -/
def Sittings.Kept (s : Sittings) : Prop := ∀ k, (s.columns k).Kept ∧
  (s.isPaused k = true → ∃ a, s.db.quizAttempts[k]? = some a ∧ a.status = .inProgress)

section

variable {s s' : Sittings} {k : ℕ} {a : QuizAttempt}

theorem Sittings.Kept.agree (h : s.Kept) (k : ℕ) : s.PausesAgree k := by
  obtain ⟨hc, hrun⟩ := h k
  refine ⟨⟨fun hp => ?_, fun hone => ?_⟩, hrun, hc.unflagged, hc.total⟩
  · obtain ⟨t, ht⟩ := Option.isSome_iff_exists.mp hp
    obtain ⟨i, row, hids, -⟩ := hc.flagged t ht
    rw [hids]
    rfl
  · by_contra hp
    rw [hc.unflagged (by simpa using hp)] at hone
    cases hone

theorem pausedAt_of_unpaused (h : s.isPaused k = false) : (s.columns k).pausedAt = none := by
  simpa [Sittings.isPaused] using h

/-- A request that touches only attempt `k`, not paused, keeps everything. -/
theorem Sittings.Kept.touch (h : s.Kept) (hcolumns : s'.columns = s.columns)
    (hothers : ∀ j, j ≠ k → s'.db.quizAttempts[j]? = s.db.quizAttempts[j]?) (hk : s.isPaused k = false) : s'.Kept := by
  intro j
  obtain ⟨hc, hrun⟩ := h j
  unfold Sittings.isPaused at hrun ⊢
  rw [hcolumns]
  refine ⟨hc, fun hp => ?_⟩
  have hj : j ≠ k := by
    rintro rfl
    unfold Sittings.isPaused at hk
    rw [hk] at hp
    cases hp
  rw [hothers j hj]
  exact hrun hp

theorem Sittings.Kept.setAttempt (h : s.Kept) (hk : s.isPaused k = false) (a : QuizAttempt) :
    (s.setAttempt k a).Kept :=
  h.touch rfl (fun _ hj => by simp [Sittings.setAttempt, Table.getElem?_modify_ne _ hj.symm]) hk

/-- Finishing an attempt that is not paused closes nothing. -/
theorem Sittings.Kept.finish {status : QuizAttemptStatus} (h : s.Kept) (hk : s.isPaused k = false)
    (hfin : s.gradeAndFinalize k status = .ok s') : s'.Kept := by
  obtain ⟨db', hdb, hs'⟩ := bind_ok hfin
  cases hs'
  refine h.touch (k := k) ?_ (fun j hj => ?_) hk
  · simp only [Sittings.setColumns, PauseColumns.closeOpenPause_unpaused (pausedAt_of_unpaused hk)]
    exact Function.update_eq_self k s.columns
  · cases ha : s.db.quizAttempts[k]? with
    | none => simp [Db.gradeAndFinalize, ha] at hdb
    | some a =>
      obtain ⟨db'', hrun, hfinished⟩ := gradeAndFinalize_spec status ha
      rw [hdb] at hrun
      cases hrun
      change db'.quizAttempts[j]? = _
      rw [hfinished.within.quizAttempts, Db.setAttempt_quizAttempts, Table.getElem?_modify_ne _ hj.symm]

theorem Sittings.Kept.setColumns {c : PauseColumns} (h : s.Kept) (hc : c.Kept)
    (hrun : c.pausedAt.isSome = true → ∃ a, s.db.quizAttempts[k]? = some a ∧ a.status = .inProgress) :
    (s.setColumns k c).Kept := by
  intro j
  simp only [Sittings.isPaused, Sittings.setColumns]
  by_cases hj : j = k
  · subst hj
    simp only [Function.update_self]
    exact ⟨hc, hrun⟩
  · simp only [Function.update_of_ne hj]
    exact h j

/-- A request that ends attempt `k` with its last answers. -/
theorem Sittings.Kept.finishEdited {a₁ : QuizAttempt} {status : QuizAttemptStatus} (h : s.Kept)
    (hk : s.isPaused k = false) (hfin : (s.setAttempt k a₁).gradeAndFinalize k status = .ok s') : s'.Kept :=
  (h.setAttempt hk a₁).finish hk hfin

theorem Sittings.Kept.showQuiz {t : ℕ} {timedOut : Bool} {expired : ℕ} (hs : s.Kept)
    (hlive : s.ShowsLive (.request (.showQuiz k t timedOut expired))) (h : s.showQuiz k t timedOut expired = .ok s') :
    s'.Kept := by
  obtain ⟨a, hfor, h⟩ := bind_ok h
  dsimp only at h
  split_ifs at h with hterm hforce hpaused hout htiming hlast
  · cases h; exact hs
  · simp only [Sittings.ShowsLive, hfor] at hlive
    exact hs.finish (hlive (inProgress_of_not_terminal hterm) hforce) h
  · cases h; exact hs
  · exact hs.finish (by simpa using hpaused) h
  · exact hs.finishEdited (by simpa using hpaused) h
  · cases h; exact hs.setAttempt (by simpa using hpaused) _
  · cases h; exact hs

theorem Sittings.Kept.answerQuestion {t index expired : ℕ} {isRight : Bool} (hs : s.Kept)
    (h : s.answerQuestion k t index isRight expired = .ok s') : s'.Kept := by
  obtain ⟨a, hfor, h⟩ := bind_ok h
  dsimp only at h
  split_ifs at h with hterm htiming hpaused hforce hlast
  · cases h; exact hs
  · cases h; exact hs
  · cases h; exact hs
  · exact hs.finish (by simpa using hpaused) h
  · exact hs.finishEdited (by simpa using hpaused) h
  · cases h; exact hs.setAttempt (by simpa using hpaused) _

theorem Sittings.Kept.submitQuiz {t : ℕ} {isRight : ℕ → Bool} {timedOut : Bool} (hs : s.Kept)
    (h : s.submitQuiz k t isRight timedOut = .ok s') : s'.Kept := by
  obtain ⟨a, hfor, h⟩ := bind_ok h
  split_ifs at h with hterm htiming hpaused
  · cases h; exact hs
  · cases h; exact hs
  · cases h; exact hs
  all_goals exact hs.finishEdited (by simpa using hpaused) h

theorem Sittings.Kept.reportViolation {t : ℕ} {isFail : Bool} (hs : s.Kept) (h : s.reportViolation k t isFail = .ok s') :
    s'.Kept := by
  obtain ⟨a, hfor, h⟩ := bind_ok h
  split_ifs at h with hrun hpaused hfail
  · cases h; exact hs
  · cases h; exact hs
  · cases h; exact hs.setAttempt (by simpa using hpaused) _
  · cases h; exact hs

theorem Sittings.Kept.requestAirRaidPause {t expired : ℕ} {timedOut granted : Bool} (hs : s.Kept)
    (h : s.requestAirRaidPause k t timedOut expired granted = .ok s') : s'.Kept := by
  obtain ⟨a, hfor, h⟩ := bind_ok h
  have ha := attemptFor_ok hfor
  by_cases hrun : a.status ≠ .inProgress
  · rw [if_pos hrun] at h; cases h; exact hs
  rw [if_neg hrun] at h
  by_cases hpaused : s.isPaused k = true
  · rw [if_pos hpaused] at h; cases h; exact hs
  rw [if_neg hpaused] at h
  have hk : s.isPaused k = false := by simpa using hpaused
  by_cases hout : timedOut = true
  · rw [if_pos hout] at h; exact hs.finish hk h
  rw [if_neg hout] at h
  -- what is burned on the way leaves the attempt running
  have hedited : Edited a (if a.configSnapshot.perQuestionTiming = true then (a.advanceExpired expired).1 else a) := by
    split_ifs
    · exact edited_advanceExpired expired a
    · exact .refl a
  generalize (if a.configSnapshot.perQuestionTiming = true then (a.advanceExpired expired).1 else a) = a' at h hedited
  dsimp only at h
  split_ifs at h with hlast hgranted
  · exact hs.finishEdited hk h
  · cases h
    refine (hs.setAttempt hk a').setColumns ((hs k).1.pause (pausedAt_of_unpaused hk) s.now) fun _ => ⟨a', ?_, ?_⟩
    · simp [Sittings.setAttempt, ha]
    · rw [hedited]
      exact not_not.mp hrun
  · cases h; exact hs.setAttempt hk a'

theorem Sittings.Kept.resume {t : ℕ} (hs : s.Kept) (h : s.resumeAfterAirRaid k t = .ok s') : s'.Kept := by
  obtain ⟨a, hfor, h⟩ := bind_ok h
  cases h
  refine hs.setColumns ((hs k).1.resume s.now) fun hp => (hs k).2 ?_
  -- a resumed attempt is not paused any more
  unfold PauseColumns.resume at hp
  split at hp
  · exact hp
  · rename_i pausedAt hpaused
    simp only [PauseColumns.closeOpenPause, hpaused] at hp
    split at hp <;> cases hp

/-- Every step that views no force-failed attempt in its pause keeps both records. -/
theorem Sittings.Kept.step (hs : s.Kept) {op : SittingOp} (hlive : s.ShowsLive op) : (s.step op).Kept := by
  unfold Sittings.step
  cases hreq : s.handle op with
  | error e => exact hs
  | ok s' =>
    dsimp only
    cases op with
    | pause => exact hs.requestAirRaidPause hreq
    | resume => exact hs.resume hreq
    | tick => cases hreq; exact hs
    | request op =>
      have hother : (∀ k, ¬ op.IsQuizRequest k) → s' = { s with db := s.db.step op } → s'.Kept := by
        rintro hop rfl
        intro j
        refine ⟨(hs j).1, fun hp => ?_⟩
        obtain ⟨a, ha, hrun⟩ := (hs j).2 hp
        exact running_stays hop ha hrun
      cases op with
      | showQuiz => exact hs.showQuiz hlive hreq
      | answerQuestion => exact hs.answerQuestion hreq
      | submitQuiz => exact hs.submitQuiz hreq
      | reportViolation => exact hs.reportViolation hreq
      | _ => cases hreq; exact hother (by simp [Op.IsQuizRequest]) rfl

end

/-- When no page view finds a force-failed attempt in its pause, both records of its pauses agree after
every sequence of operations. -/
theorem pauses_agree {db : Db} {s : Sittings} {ops : List SittingOp}
    (h : Run Sittings.step Sittings.ShowsLive { db } ops s) (k : ℕ) : s.PausesAgree k := by
  have hstart : ({ db } : Sittings).Kept := fun k => ⟨PauseColumns.kept_new, nofun⟩
  exact (h.invariant hstart fun s op hs hlive => hs.step hlive).agree k

/-! Without a pause the routes are the system's own -/

section

variable {s : Sittings} {k : ℕ}

theorem gradeAndFinalize_unpaused (hk : s.isPaused k = false) (status : QuizAttemptStatus) :
    s.gradeAndFinalize k status = (s.db.gradeAndFinalize k status).map ({ s with db := · }) := by
  unfold Sittings.gradeAndFinalize
  rw [PauseColumns.closeOpenPause_unpaused (pausedAt_of_unpaused hk), Sittings.setColumns, Function.update_eq_self]
  cases s.db.gradeAndFinalize k status <;> rfl

theorem gradeEdited_unpaused (hk : s.isPaused k = false) (a : QuizAttempt) (status : QuizAttemptStatus) :
    (s.setAttempt k a).gradeAndFinalize k status =
      ((s.db.setAttempt k fun _ => a).gradeAndFinalize k status).map ({ s with db := · }) :=
  gradeAndFinalize_unpaused (s := s.setAttempt k a) hk status

theorem showQuiz_unpaused {t expired : ℕ} {timedOut : Bool} (hk : s.isPaused k = false) :
    s.showQuiz k t timedOut expired = (s.db.showQuiz k t timedOut expired).map ({ s with db := · }) := by
  unfold Sittings.showQuiz Db.showQuiz
  cases s.db.attemptFor k t with
  | error e => rfl
  | ok a =>
    simp only [hk, Bool.false_eq_true, if_false, gradeAndFinalize_unpaused hk, gradeEdited_unpaused hk, bind, Except.bind]
    split_ifs <;> rfl

theorem answerQuestion_unpaused {t index expired : ℕ} {isRight : Bool} (hk : s.isPaused k = false) :
    s.answerQuestion k t index isRight expired =
      (s.db.answerQuestion k t index isRight expired).map ({ s with db := · }) := by
  unfold Sittings.answerQuestion Db.answerQuestion
  cases s.db.attemptFor k t with
  | error e => rfl
  | ok a =>
    simp only [hk, Bool.false_eq_true, if_false, gradeAndFinalize_unpaused hk, gradeEdited_unpaused hk, bind, Except.bind]
    split_ifs <;> rfl

theorem submitQuiz_unpaused {t : ℕ} {isRight : ℕ → Bool} {timedOut : Bool} (hk : s.isPaused k = false) :
    s.submitQuiz k t isRight timedOut = (s.db.submitQuiz k t isRight timedOut).map ({ s with db := · }) := by
  unfold Sittings.submitQuiz Db.submitQuiz
  cases hfor : s.db.attemptFor k t with
  | error e => rfl
  | ok a =>
    have hsame := setAttempt_congr (f := ({ · with answers := a.questionsSnapshot.map fun q => gradeAnswer q (isRight q.id) }))
      (g := fun _ => { a with answers := a.questionsSnapshot.map fun q => gradeAnswer q (isRight q.id) })
      (attemptFor_ok hfor) rfl
    simp only [hk, Bool.false_eq_true, if_false, gradeEdited_unpaused hk, hsame, bind, Except.bind]
    split_ifs <;> rfl

theorem reportViolation_unpaused {t : ℕ} {isFail : Bool} (hk : s.isPaused k = false) :
    s.reportViolation k t isFail = (s.db.reportViolation k t isFail).map ({ s with db := · }) := by
  unfold Sittings.reportViolation Db.reportViolation
  cases hfor : s.db.attemptFor k t with
  | error e => rfl
  | ok a =>
    have hsame := setAttempt_congr (f := ({ · with forceFail := true })) (g := fun _ => { a with forceFail := true })
      (attemptFor_ok hfor) rfl
    simp only [hk, Bool.false_eq_true, if_false, hsame, bind, Except.bind]
    by_cases hrun : a.status = .inProgress
    · cases isFail <;> simp [hrun] <;> rfl
    · simp [hrun]
      rfl

/-- While no attempt is paused, a request does what the system without pauses does. -/
theorem step_unpaused (hs : ∀ k, s.isPaused k = false) (op : Op) :
    s.step (.request op) = { s with db := s.db.step op } := by
  have hmap : ∀ {op : Op}, s.handle (.request op) = (s.db.request op).map ({ s with db := · }) →
      s.step (.request op) = { s with db := s.db.step op } := by
    intro op h
    unfold Sittings.step Db.step
    rw [h]
    cases s.db.request op <;> rfl
  cases op with
  | showQuiz k => exact hmap (showQuiz_unpaused (hs k))
  | answerQuestion k => exact hmap (answerQuestion_unpaused (hs k))
  | submitQuiz k => exact hmap (submitQuiz_unpaused (hs k))
  | reportViolation k => exact hmap (reportViolation_unpaused (hs k))
  | _ => rfl

end

/-- Student 5 sits a quiz. -/
def sitting : Db :=
  { studentsAssignments := [{ studentId := 5, subjectsAssignmentId := 0 }]
    submissions := [{ studentsAssignmentId := 0, status := .quizSent }]
    quizAttempts := [{ submissionId := 0, studentId := some 5 }] }

/-- The student is force-failed, goes to a shelter, and opens the page from there. -/
theorem pause_row_left_open : ¬ ∀ (db : Db) (s : Sittings) (ops : List SittingOp) (k : ℕ),
    Run Sittings.step Any { db } ops s → s.PausesAgree k := by
  intro hall
  have h := hall sitting _ [.request (.reportViolation 0 5 true), .pause 0 5 false 0 true, .tick 5000000,
    .request (.showQuiz 0 5 false 0)] 0 (run_foldl _)
  exact absurd (h.2.2.1 (by decide +kernel)) (by decide +kernel)

/-- One pause of ninety seconds, resumed before the quiz is handed in. -/
theorem sitting_agrees :
    let s := ([.pause 0 5 false 0 true, .tick 90500000, .request (.showQuiz 0 5 false 0), .resume 0 5,
      .request (.submitQuiz 0 5 (fun _ => true) false)] : List SittingOp).foldl Sittings.step { db := sitting }
    (s.columns 0).pausedSeconds = 90 ∧ s.PausesAgree 0 :=
  ⟨by decide +kernel, pauses_agree (run_of_checks (by decide +kernel)) 0⟩

end SubmissionsChecker
