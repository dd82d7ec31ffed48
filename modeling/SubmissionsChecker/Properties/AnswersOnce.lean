import SubmissionsChecker.Invariants.Answers

/-! Requests of one attempt side by side. Each reads the attempt without a lock and its commit does not
look again whether it was answered or finished in between. -/

namespace SubmissionsChecker

open ReadCommitted Runs

/-- `ck_quiz_attempts_score`. -/
def QuizAttempt.ScoreFits (a : QuizAttempt) : Prop :=
  ∀ s m, a.score = some s → a.maxScore = some m → 0 ≤ s ∧ s ≤ m

/-- A request commits over an unfinished attempt as it read it. -/
def Finish.CommitsFresh (db : Db) : Finish → Prop
  | .savingRow w => db.quizAttempts[w.k]? = some w.loaded
  | .storing w _ [] => w.scoreFits = true → db.quizAttempts[w.k]? = some w.loaded ∧ w.loaded.status = .inProgress
  | _ => True

instance Finish.decidableCommitsFresh (db : Db) (l : Finish) : Decidable (l.CommitsFresh db) := by
  unfold Finish.CommitsFresh
  split <;> infer_instance

/-- What a request is about to grade, if the attempt was running when it read it. -/
structure QuizWork.Ready (w : QuizWork) : Prop where
  stored : w.loaded.answers.drop w.deleted = w.answers
  longer : w.answers.length ≤ w.attempt.answers.length
  snapshot : w.attempt.questionsSnapshot = w.loaded.questionsSnapshot
  drawn : (w.loaded.questionsSnapshot.map (·.id)).Nodup
  answered : (w.attempt.answers.map (·.questionId)).Nodup

/-- What a request knows of its commit; `db₀` has the attempts as they were created. -/
def Finish.Prepared (db₀ : Db) : Finish → Prop
  | .saving w | .savingRow w =>
    (w.write w.loaded).Tidy ∧ (w.write w.loaded).ScoreFits ∧ (w.write w.loaded).status = w.loaded.status
  | .flushing w status | .grading w status => status.isTerminal = true ∧ (w.loaded.status = .inProgress → w.Ready)
  | .rereading w status => status.isTerminal = true ∧ (w.attempt.answers.map (·.questionId)).Nodup ∧
    ∃ a₀, db₀.quizAttempts[w.k]? = some a₀ ∧ a₀.configSnapshot.perQuestionTiming = false
  | .counting w _ | .passing w | .locking w | .deciding w | .storing w _ _ =>
    w.attempt.status.isTerminal = true ∧ (w.loaded.status = .inProgress → (w.write w.loaded).Tidy)
  | .asked .. | .finished .. | .ended => True

/-- The attempts of `db₀`, with tidy answers and scores. -/
def Db.KeepsTidy (db₀ db : Db) : Prop :=
  ∀ (k : ℕ) a, db.quizAttempts[k]? = some a → a.Tidy ∧ a.ScoreFits ∧ ∃ a₀, db₀.quizAttempts[k]? = some a₀ ∧
    a.configSnapshot.perQuestionTiming = a₀.configSnapshot.perQuestionTiming

/-- Whether attempt `k` is finished, as a number. -/
def Db.finishedAs (db : Db) (k : ℕ) : ℕ := if (db.quizAttempts[k]?).any (·.status.isTerminal) then 1 else 0

/-- Whether a request has finished attempt `k`. -/
def Finish.hasFinished (k : ℕ) : Finish → ℕ
  | .finished w _ => if w.k = k then 1 else 0
  | _ => 0

section

variable {db₀ db : Db} {w : QuizWork} {a : QuizAttempt} {l l' : Finish} {k : ℕ} {H : Set Row}

/-! What a commit writes -/

@[simp] theorem changed_self {α : Type*} [DecidableEq α] (loaded new : α) : changed loaded new loaded = new := by
  unfold changed
  split_ifs with h
  · exact h.symm
  · rfl

/-- Over the rows as loaded a flush leaves the session's. -/
theorem mergeAnswers_self {loaded new : List QuizAnswer} (h : loaded.length ≤ new.length) :
    mergeAnswers loaded new loaded = new := by
  refine List.ext_getElem? fun j => ?_
  unfold mergeAnswers
  rcases Nat.lt_or_ge j loaded.length with hj | hj
  · rw [List.getElem?_append_left (by simpa using hj), List.getElem?_mapIdx, List.getElem?_eq_getElem hj,
      List.getElem?_eq_getElem (hj.trans_le h)]
    simp
  · rw [List.getElem?_append_right (by simpa using hj), List.getElem?_drop, List.length_mapIdx]
    congr 1
    omega

/-- Over the row as loaded the commit leaves the session's columns. -/
theorem QuizWork.write_loaded (hstored : w.loaded.answers.drop w.deleted = w.answers)
    (hlonger : w.answers.length ≤ w.attempt.answers.length) : w.write w.loaded =
      { w.loaded with
        answers := w.attempt.answers, currentIndex := w.attempt.currentIndex, score := w.attempt.score
        maxScore := w.attempt.maxScore, isPassed := w.attempt.isPassed, status := w.attempt.status } := by
  unfold QuizWork.write
  rw [hstored, mergeAnswers_self hlonger]
  simp only [changed_self]

/-- A graded attempt is written tidy. -/
theorem QuizWork.Ready.graded (h : w.Ready) {status : QuizAttemptStatus} (hst : status.isTerminal = true) :
    QuizAttempt.Tidy (QuizWork.write { w with attempt := db.finishedAttempt w.attempt status } w.loaded) := by
  have hlonger : w.answers.length ≤ (db.finishedAttempt w.attempt status).answers.length :=
    h.longer.trans (length_applyOverrides w.attempt _)
  have hwrite := QuizWork.write_loaded (w := { w with attempt := db.finishedAttempt w.attempt status }) h.stored hlonger
  dsimp only at hwrite
  rw [hwrite]
  have hterm : (db.finishedAttempt w.attempt status).status.isTerminal = true := finishedAttempt_terminal hst
  refine ⟨h.drawn, ?_, fun hrun => ?_⟩
  · have hdrawn : (w.attempt.questionsSnapshot.map (·.id)).Nodup := by
      rw [h.snapshot]
      exact h.drawn
    exact nodup_applyOverrides hdrawn h.answered _
  · dsimp only at hrun
    rw [hrun] at hterm
    cases hterm

theorem length_advanceExpired (expired : ℕ) : ∀ a : QuizAttempt,
    a.answers.length ≤ (a.advanceExpired expired).1.answers.length := by
  induction expired with
  | zero => exact fun a => le_rfl
  | succ expired ih =>
    intro a
    unfold QuizAttempt.advanceExpired
    split
    · exact le_rfl
    · rename_i q hq
      split_ifs
      · exact le_rfl
      · refine le_trans ?_ (ih (a.burn q))
        simp [QuizAttempt.burn]

theorem length_recordAnswer (a : QuizAttempt) (index expired : ℕ) (isRight : Bool) :
    a.answers.length ≤ (a.recordAnswer index isRight expired).answers.length := by
  have hburned := length_advanceExpired expired a
  unfold QuizAttempt.recordAnswer
  dsimp only
  split
  · exact hburned
  · split_ifs
    · simp only [List.length_append, List.length_singleton]
      omega
    · exact hburned

theorem QuizAttempt.Tidy.length_edit (h : a.Tidy) (hrun : a.status = .inProgress) (post : QuizPost) :
    a.answers.length ≤ (post.edit a).1.answers.length := by
  unfold QuizPost.edit
  rcases post with ⟨timedOut, expired⟩ | ⟨index, isRight, expired⟩ | ⟨isRight, timedOut⟩
  · dsimp only
    split_ifs <;> first | exact le_rfl | exact length_advanceExpired expired a
  · dsimp only
    split_ifs <;> first | exact le_rfl | exact length_recordAnswer a index expired isRight
  · dsimp only
    split
    · exact le_rfl
    · -- a single page has no answers yet
      rename_i htiming
      have hstep := h.running hrun
      unfold QuizAttempt.InStep at hstep
      rw [if_neg htiming, List.map_eq_nil_iff] at hstep
      rw [hstep]
      exact Nat.zero_le _

/-! The statements -/

theorem Finish.load_prepared (hA : db₀.KeepsTidy db) (t : ℕ) (post : QuizPost) : (Finish.load db k t post).Prepared db₀ := by
  unfold Finish.load
  split
  · trivial
  rename_i a ha
  split
  · trivial
  rename_i sub hsub
  split
  · trivial
  rename_i sa hsa
  split
  · trivial
  rename_i hchecks
  have hrun : a.status = .inProgress := by
    simp only [Bool.or_eq_true, not_or] at hchecks
    exact inProgress_of_not_terminal hchecks.2
  obtain ⟨htidy, hfits, a₀, ha₀, htiming⟩ := hA k a ha
  obtain ⟨hedited, hanswered, hstep⟩ := htidy.edit hrun post
  have hlonger := htidy.length_edit hrun post
  have hsingle : ∀ isRight timedOut status, post = .submit isRight timedOut → (post.edit a).2 = some status →
      a.configSnapshot.perQuestionTiming = false := by
    rintro isRight timedOut status rfl hstatus
    unfold QuizPost.edit at hstatus
    dsimp only at hstatus
    split_ifs at hstatus with hstepped <;> simpa using hstepped
  have hterm : ∀ status, (post.edit a).2 = some status → status.isTerminal = true := fun _ => edit_terminal
  generalize post.edit a = e at hedited hanswered hstep hlonger hsingle hterm ⊢
  obtain ⟨a', ending⟩ := e
  dsimp only at hedited hanswered hstep hlonger hsingle hterm ⊢
  have hsame : a'.questionsSnapshot = a.questionsSnapshot ∧ a'.configSnapshot = a.configSnapshot ∧ a'.score = a.score ∧
      a'.maxScore = a.maxScore ∧ a'.status = a.status := by
    rw [hedited]
    exact ⟨rfl, rfl, rfl, rfl, rfl⟩
  have hready : QuizWork.Ready { k, loaded := a, attempt := a', answers := a.answers, sub, sa } :=
    ⟨rfl, hlonger, hsame.1, htidy.drawn, hanswered⟩
  split
  · rename_i isRight timedOut status
    exact ⟨hterm status rfl, hanswered, a₀, ha₀, htiming.symm.trans (hsingle isRight timedOut status rfl rfl)⟩
  · rename_i status
    split <;> exact ⟨hterm status rfl, fun _ => hready⟩
  · rename_i status
    exact ⟨hterm status rfl, fun _ => hready⟩
  · split
    · trivial
    · have hwrite := QuizWork.write_loaded (w := { k, loaded := a, attempt := a', answers := a.answers, sub, sa }) rfl hlonger
      dsimp only at hwrite
      have hin := hstep rfl
      refine ⟨?_, ?_, ?_⟩
      · rw [hwrite]
        refine tidy_of_inStep htidy.drawn ?_
        unfold QuizAttempt.InStep at hin ⊢
        dsimp only
        rw [hin, hsame.1, hsame.2.1]
      · rw [hwrite]
        unfold QuizAttempt.ScoreFits
        dsimp only
        rw [hsame.2.2.1, hsame.2.2.2.1]
        exact hfits
      · rw [hwrite]
        exact hsame.2.2.2.2

theorem Finish.read_prepared {f : Db → Finish} (hA : db₀.KeepsTidy db) (hl : l.Prepared db₀) (h : l.next = .read f) :
    (f db).Prepared db₀ := by
  rcases l
  case asked k t post =>
    cases h
    exact Finish.load_prepared hA t post
  case rereading w status =>
    cases h
    obtain ⟨hst, hanswered, a₀, ha₀, hsingle⟩ := hl
    change (Finish.reread db w status).Prepared db₀
    unfold Finish.reread
    split
    · trivial
    · rename_i row hrow
      refine ⟨hst, fun hrun => ?_⟩
      obtain ⟨htidy, -, a₁, ha₁, htiming⟩ := hA w.k row hrow
      rw [ha₀, Option.some_inj] at ha₁
      subst ha₁
      -- still running, it has no answers: the new ones are all there is
      have hnone : row.answers = [] := by
        have hstep := htidy.running hrun
        unfold QuizAttempt.InStep at hstep
        rw [htiming, hsingle] at hstep
        simpa using hstep
      refine ⟨rfl, ?_, rfl, htidy.drawn, ?_⟩
      · dsimp only
        rw [List.length_append]
        omega
      · dsimp only
        rw [hnone, List.drop_nil, List.nil_append]
        exact hanswered
  case grading w status =>
    cases h
    obtain ⟨hst, hready⟩ := hl
    change (Finish.grade db w status).Prepared db₀
    unfold Finish.grade
    dsimp only
    have hdone : (db.finishedAttempt w.attempt status).status.isTerminal = true ∧ (w.loaded.status = .inProgress →
        QuizAttempt.Tidy (QuizWork.write { w with attempt := db.finishedAttempt w.attempt status } w.loaded)) :=
      ⟨finishedAttempt_terminal hst, fun hrun => (hready hrun).graded hst⟩
    split
    · exact hdone
    split
    · exact hdone
    split <;> exact hdone
  case counting w cap =>
    cases h
    change (Finish.count db w cap).Prepared db₀
    unfold Finish.count
    split <;> exact hl
  case deciding w =>
    cases h
    exact hl
  case storing w outcome rows =>
    rcases rows with _ | ⟨row, rows⟩
    · simp only [Finish.next] at h
      split at h <;> cases h
    · cases h
  all_goals cases h

theorem Finish.lock_prepared {f : Db → Finish} {key : Row} (hl : l.Prepared db₀) (h : l.next = .lock key f) :
    (f db).Prepared db₀ := by
  rcases l
  case storing w outcome rows =>
    rcases rows with _ | ⟨row, rows⟩
    · simp only [Finish.next] at h
      split at h <;> cases h
    · cases h
      exact hl
  all_goals cases h
  all_goals exact hl

/-! The commits -/

section

variable {db' : Db}

theorem Db.KeepsTidy.written (hA : db₀.KeepsTidy db) (hloaded : db.quizAttempts[w.k]? = some w.loaded)
    (htidy : (w.write w.loaded).Tidy) (hfits : (w.write w.loaded).ScoreFits)
    (h : db'.quizAttempts = (db.setAttempt w.k w.write).quizAttempts) : db₀.KeepsTidy db' := by
  intro k b hb
  rw [h, Db.setAttempt_quizAttempts] at hb
  obtain ⟨a, ha, rfl⟩ := Table.getElem?_modify_some hb
  split_ifs with hk
  · subst hk
    rw [hloaded, Option.some_inj] at ha
    subst ha
    exact ⟨htidy, hfits, (hA w.k _ hloaded).2.2⟩
  · exact hA k a ha

theorem finishedAs_written (hloaded : db.quizAttempts[w.k]? = some w.loaded)
    (h : db'.quizAttempts = (db.setAttempt w.k w.write).quizAttempts) (k : ℕ) : db'.finishedAs k =
      if w.k = k then if (w.write w.loaded).status.isTerminal then 1 else 0 else db.finishedAs k := by
  unfold Db.finishedAs
  rw [h, Db.setAttempt_quizAttempts]
  by_cases hk : w.k = k
  · subst hk
    rw [if_pos rfl, Table.getElem?_modify_self, hloaded]
    rfl
  · rw [if_neg hk, Table.getElem?_modify_ne _ hk]

theorem finishedAs_loaded (hloaded : db.quizAttempts[w.k]? = some w.loaded) :
    db.finishedAs w.k = if w.loaded.status.isTerminal then 1 else 0 := by
  unfold Db.finishedAs
  rw [hloaded]
  rfl

end

/-- A fresh commit keeps the attempts tidy, and finishes an attempt that was running. -/
theorem Finish.commit_fresh {f : Db → Db} (hA : db₀.KeepsTidy db) (hl : l.Prepared db₀) (hok : l.CommitsFresh db)
    (h : l.next = .commit f l') : db₀.KeepsTidy (f db) ∧ l'.Prepared db₀ ∧
      ∀ k, (f db).finishedAs k + l.hasFinished k = db.finishedAs k + l'.hasFinished k := by
  obtain ⟨w, rfl | ⟨outcome, rfl, rfl, rfl⟩, hwithin⟩ := Finish.commit_within db h
  · cases h
    obtain ⟨htidy, hfits, hstatus⟩ := hl
    refine ⟨hA.written hok htidy hfits hwithin.quizAttempts, trivial, fun k => ?_⟩
    rw [finishedAs_written hok hwithin.quizAttempts, hstatus]
    by_cases hk : w.k = k
    · subst hk
      rw [if_pos rfl, finishedAs_loaded hok]
      rfl
    · rw [if_neg hk]
      rfl
  · have hscore : w.scoreFits = true := by
      simp only [Finish.next] at h
      split at h
      · assumption
      · cases h
    obtain ⟨hloaded, hrun⟩ := hok hscore
    obtain ⟨hterm, htidy⟩ := hl
    refine ⟨hA.written hloaded (htidy hrun) ?_ hwithin.quizAttempts, trivial, fun k => ?_⟩
    · intro s m hs hm
      have hwrite : (w.write w.loaded).score = w.attempt.score ∧ (w.write w.loaded).maxScore = w.attempt.maxScore :=
        ⟨changed_self _ _, changed_self _ _⟩
      rw [hwrite.1] at hs
      rw [hwrite.2] at hm
      unfold QuizWork.scoreFits at hscore
      rw [hs, hm] at hscore
      simpa using hscore
    · have hdone : (w.write w.loaded).status.isTerminal = true := by
        change (changed w.loaded.status w.attempt.status w.loaded.status).isTerminal = true
        rw [changed_self]
        exact hterm
      rw [finishedAs_written hloaded hwithin.quizAttempts, hdone]
      dsimp only [Finish.hasFinished]
      by_cases hk : w.k = k
      · subst hk
        rw [if_pos rfl, if_pos rfl, if_pos rfl, finishedAs_loaded hloaded, hrun]
        rfl
      · rw [if_neg hk, if_neg hk]

theorem Finish.rollback_ended (h : l.next = .rollback l') : l' = .ended ∧ ∀ k, l.hasFinished k = 0 := by
  rcases l
  case storing w outcome rows =>
    rcases rows with _ | ⟨row, rows⟩
    · simp only [Finish.next] at h
      split at h <;> cases h
      exact ⟨rfl, fun _ => rfl⟩
    · cases h
  all_goals cases h
  all_goals exact ⟨rfl, fun _ => rfl⟩

theorem answering_rules (db₀ : Db) : Rules Finish.next (fun db l => l.CommitsFresh db) db₀.KeepsTidy
    (fun _ _ l => l.Prepared db₀) where
  read hA hB _ h := Finish.read_prepared hA hB h
  lock _ hB _ h := Finish.lock_prepared hB h
  commit hA hB hok h := ⟨(Finish.commit_fresh hA hB hok h).1, (Finish.commit_fresh hA hB hok h).2.1⟩
  rollback _ _ _ h := by
    rw [(Finish.rollback_ended h).1]
    trivial
  others _ _ _ _ hm _ := hm

/-- Only a commit finishes a request. -/
theorem Finish.read_unfinished {f : Db → Finish} (h : l.next = .read f) (k : ℕ) :
    (f db).hasFinished k = 0 ∧ l.hasFinished k = 0 := by
  rcases l
  case asked k t post =>
    cases h
    change (Finish.load db k t post).hasFinished _ = 0 ∧ _
    unfold Finish.load
    refine ⟨?_, rfl⟩
    split
    · rfl
    split
    · rfl
    split
    · rfl
    split
    · rfl
    dsimp only
    split
    · rfl
    · split <;> rfl
    · rfl
    · split <;> rfl
  case rereading w status =>
    cases h
    change (Finish.reread db w status).hasFinished _ = 0 ∧ _
    unfold Finish.reread
    refine ⟨?_, rfl⟩
    split <;> rfl
  case grading w status =>
    cases h
    change (Finish.grade db w status).hasFinished _ = 0 ∧ _
    unfold Finish.grade
    refine ⟨?_, rfl⟩
    dsimp only
    split
    · rfl
    split
    · rfl
    split <;> rfl
  case counting w cap =>
    cases h
    change (Finish.count db w cap).hasFinished _ = 0 ∧ _
    unfold Finish.count
    refine ⟨?_, rfl⟩
    split <;> rfl
  case deciding w =>
    cases h
    exact ⟨rfl, rfl⟩
  case storing w outcome rows =>
    rcases rows with _ | ⟨row, rows⟩
    · simp only [Finish.next] at h
      split at h <;> cases h
    · cases h
  all_goals cases h

theorem Finish.lock_unfinished {f : Db → Finish} {key : Row} (h : l.next = .lock key f) (k : ℕ) :
    (f db).hasFinished k = 0 ∧ l.hasFinished k = 0 := by
  rcases l
  case storing w outcome rows =>
    rcases rows with _ | ⟨row, rows⟩
    · simp only [Finish.next] at h
      split at h <;> cases h
    · cases h
      exact ⟨rfl, rfl⟩
  all_goals cases h
  all_goals exact ⟨rfl, rfl⟩

theorem finishing_counts (db₀ : Db) (k : ℕ) : Counts Finish.next (fun db l => l.CommitsFresh db) db₀.KeepsTidy
    (fun _ _ l => l.Prepared db₀) (·.finishedAs k) (·.hasFinished k) where
  read _ _ _ h := by
    obtain ⟨hf, hl⟩ := Finish.read_unfinished h k
    exact hf.trans hl.symm
  lock _ _ _ h := by
    obtain ⟨hf, hl⟩ := Finish.lock_unfinished h k
    exact hf.trans hl.symm
  commit hA hB hok h := (Finish.commit_fresh hA hB hok h).2.2 k
  rollback _ _ _ h := by
    obtain ⟨rfl, hl⟩ := Finish.rollback_ended h
    exact (hl k).symm

end

section

variable {P : Type*} [DecidableEq P] [Fintype P] {db₀ db : Db} {ops : List Op} {session : P → Finish} {st : State Db P Finish Row}
  {ps : List P}

/-- Every question of an attempt has one answer at most, one request has finished it at most, and its
score is within the points. -/
def AnsweredOnce (st : State Db P Finish Row) (k : ℕ) : Prop :=
  (∀ a, st.store.quizAttempts[k]? = some a →
    (∀ q ∈ a.questionsSnapshot, (a.answers.filter (·.questionId == q.id)).length ≤ 1) ∧ a.ScoreFits) ∧
  ∀ p p' w w' outcome outcome', st.session p = .finished w outcome → st.session p' = .finished w' outcome' →
    w.k = k → w'.k = k → p = p'

/-- Answers of one stepped attempt, or submits of one single page. -/
def PostsOn (db : Db) (session : P → Finish) (k : ℕ) : Prop :=
  ∃ a, db.quizAttempts[k]? = some a ∧
    if a.configSnapshot.perQuestionTiming then ∀ p, ∃ t index isRight expired, session p = .asked k t (.answer index isRight expired)
    else ∀ p, ∃ t isRight timedOut, session p = .asked k t (.submit isRight timedOut)

/-- When every request commits over an unfinished attempt as it read it, the attempt is answered and
finished once. -/
theorem answers_once (hstart : db₀.Start) (hops : Run Db.step Any db₀ ops db)
    (hchecked : ∀ a ∈ db.quizAttempts, a.ScoreFits) (hasked : ∀ p, ∃ k t post, session p = .asked k t post)
    (h : Run (step Finish.next) (Ok fun db l => l.CommitsFresh db) (start db session) ps st) (k : ℕ) :
    AnsweredOnce st k := by
  have hfirst : Holds db.KeepsTidy (fun _ _ l => l.Prepared db) (start db session : State Db P Finish Row) := by
    refine ⟨fun k a ha => ?_, fun p => ?_⟩
    · exact ⟨(tidy_of_run hstart hops).attempts k a ha, hchecked a (List.mem_of_getElem? ha), a, ha, rfl⟩
    · obtain ⟨k, t, post, hp⟩ := hasked p
      change (session p).Prepared db
      rw [hp]
      trivial
  have hend := hfirst.run (answering_rules db) h
  refine ⟨fun a ha => ?_, fun p p' w w' outcome outcome' hp hp' hk hk' => ?_⟩
  · obtain ⟨htidy, hfits, -⟩ := hend.1 k a ha
    refine ⟨fun q _ => ?_, hfits⟩
    have hcount := List.nodup_iff_count_le_one.mp htidy.answered q.id
    rwa [List.count_eq_countP, List.countP_map, List.countP_eq_length_filter] at hcount
  · have hcount := (finishing_counts db k).run (answering_rules db) hfirst h
    by_contra hne
    have hzero : total (·.hasFinished k) (start db session : State Db P Finish Row) = 0 := by
      refine Finset.sum_eq_zero fun q _ => ?_
      obtain ⟨k', t, post, hq⟩ := hasked q
      change (session q).hasFinished k = 0
      rw [hq]
      rfl
    have htwo : 2 ≤ total (·.hasFinished k) st := by
      have hpair : ∑ q ∈ {p, p'}, (st.session q).hasFinished k = 2 := by
        rw [Finset.sum_pair hne, hp, hp']
        simp [Finish.hasFinished, hk, hk']
      rw [← hpair]
      exact Finset.sum_le_sum_of_subset (Finset.subset_univ _)
    have hone : st.store.finishedAs k ≤ 1 := by
      unfold Db.finishedAs
      split_ifs <;> omega
    omega

end

/-- A student with a running attempt on one page. -/
def atQuizPage : Db :=
  [Op.upload 0 0 true 1 (.tested true 1 1), .startQuiz 0 0 {}].foldl Db.step
    (oneSubject { reviewMode := some .quizOnly, quiz := { questions := [{ type := .trueFalse }] } } {} [] [0])

theorem atQuizPage_start : ∃ db₀ ops, db₀.Start ∧ Run Db.step Any db₀ ops atQuizPage :=
  ⟨_, _, oneSubject_start (by decide) (by simp), run_foldl _⟩

theorem atQuizPage_checked : ∀ a ∈ atQuizPage.quizAttempts, a.ScoreFits := by
  have hnone : ∀ a ∈ atQuizPage.quizAttempts, a.score = none := by decide +kernel
  intro a ha s m hs
  rw [hnone a ha] at hs
  cases hs

/-- The page is submitted twice. -/
def submitTwice (_ : Fin 2) : Finish := .asked 0 0 (.submit (fun _ => true) false)

/-- Both read the attempt before either commits: both store an answer, and both finish it. -/
theorem answered_twice : ¬ ∀ (n : ℕ) (db₀ db : Db) (ops : List Op) (session : Fin n → Finish)
    (st : State Db (Fin n) Finish Row) (ps : List (Fin n)) (k : ℕ), db₀.Start → Run Db.step Any db₀ ops db →
    (∀ a ∈ db.quizAttempts, a.ScoreFits) → PostsOn db session k → Run (step Finish.next) Any (start db session) ps st →
    AnsweredOnce st k := by
  intro hall
  obtain ⟨db₀, ops, hstart, hops⟩ := atQuizPage_start
  have hposts : PostsOn atQuizPage submitTwice 0 := by
    obtain ⟨a, ha, hsingle⟩ : ∃ a, atQuizPage.quizAttempts[0]? = some a ∧ a.configSnapshot.perQuestionTiming = false :=
      ⟨_, rfl, by decide +kernel⟩
    refine ⟨a, ha, ?_⟩
    rw [hsingle]
    exact fun _ => ⟨0, _, _, rfl⟩
  have h := hall 2 db₀ atQuizPage ops submitTwice _ [0, 1, 0, 1, 0, 1, 0, 0, 0, 0, 0, 0, 0, 1, 1, 1, 1, 1] 0 hstart hops
    atQuizPage_checked hposts (run_foldl _)
  have hanswers : ∀ a ∈ ([0, 1, 0, 1, 0, 1, 0, 0, 0, 0, 0, 0, 0, 1, 1, 1, 1, 1].foldl (step Finish.next)
      (start atQuizPage submitTwice)).store.quizAttempts[0]?, ∀ q ∈ a.questionsSnapshot,
      (a.answers.filter (·.questionId == q.id)).length ≤ 1 := fun a ha => (h.1 a ha).1
  exact absurd hanswers (by decide +kernel)

/-- When the first has committed, the second finds the attempt finished. -/
theorem submitTwice_once :
    let st := [0, 0, 0, 0, 0, 0, 0, 0, 0, 0, 1, 1, 1, 1].foldl (step Finish.next) (start atQuizPage submitTwice)
    st.store.status 0 = some .completed ∧ AnsweredOnce st 0 := by
  obtain ⟨db₀, ops, hstart, hops⟩ := atQuizPage_start
  have hchecks : Checks (step Finish.next) (Ok fun db l => l.CommitsFresh db) (start atQuizPage submitTwice)
      [0, 0, 0, 0, 0, 0, 0, 0, 0, 0, 1, 1, 1, 1] := by decide +kernel
  exact ⟨by decide +kernel,
    answers_once hstart hops atQuizPage_checked (fun _ => ⟨0, 0, _, rfl⟩) (run_of_checks hchecks) 0⟩

end SubmissionsChecker
