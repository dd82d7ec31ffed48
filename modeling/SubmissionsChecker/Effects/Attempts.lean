import SubmissionsChecker.Effects.Evolves
import SubmissionsChecker.Effects.Within
import SubmissionsChecker.Routes.StudentQuiz

/-! What finishing an attempt does: the attempt gets its result, and a submission still at
`QUIZ_SENT` is completed, handed to the teacher, failed or left. Finishing never raises. -/

namespace SubmissionsChecker

/-- Where a passed quiz lands: the teacher still has to act. -/
def Db.goesToTeacher (db : Db) (i : ℕ) (mode : Option ReviewMode) : Bool :=
  if db.isScoredSubmission i then !db.scoresCompleteFor i else mode == some .quizThenTeacher

/-- A failing finish of `a` uses up the attempts its student is allowed on submission `i`. -/
def Db.UsesUp (db : Db) (a : QuizAttempt) (k i : ℕ) : Prop :=
  ∃ sub cap, db.submissions[i]? = some sub ∧
    effectiveMaxAttempts a.configSnapshot.maxQuizAttempts sub a.studentId = some cap ∧
    cap ≤ db.countUsedAttempts i k a.studentId + 1

/-- `db` is the database with the finished attempt `a` written at `k`. -/
inductive Finished (db : Db) (a : QuizAttempt) (k : ℕ) : Db → Prop
  | left
      (hpass : db.status a.submissionId = some .quizSent → a.passed = true →
        db.quizComplete a.submissionId = false)
      (hfail : db.status a.submissionId = some .quizSent → a.passed = false →
        ¬ db.UsesUp a k a.submissionId) :
      Finished db a k db
  | completed (hs : db.status a.submissionId = some .quizSent) (hp : a.passed = true)
      (hc : db.quizComplete a.submissionId = true)
      (ht : db.goesToTeacher a.submissionId a.configSnapshot.reviewMode = false) :
      Finished db a k
        ((db.setSubmission a.submissionId ({ · with status := .completed })).finalizeGrade a.submissionId)
  | toTeacher (hs : db.status a.submissionId = some .quizSent) (hp : a.passed = true)
      (hc : db.quizComplete a.submissionId = true)
      (ht : db.goesToTeacher a.submissionId a.configSnapshot.reviewMode = true) :
      Finished db a k (db.setSubmission a.submissionId ({ · with status := .awaitingTeacherReview }))
  | failed (hs : db.status a.submissionId = some .quizSent) (hp : a.passed = false)
      (hu : db.UsesUp a k a.submissionId) :
      Finished db a k (db.setSubmission a.submissionId ({ · with status := .failed }))

@[simp] theorem finishedAttempt_submissionId (db : Db) (a : QuizAttempt) (st : QuizAttemptStatus) :
    (db.finishedAttempt a st).submissionId = a.submissionId := rfl

@[simp] theorem finishedAttempt_studentId (db : Db) (a : QuizAttempt) (st : QuizAttemptStatus) :
    (db.finishedAttempt a st).studentId = a.studentId := rfl

@[simp] theorem finishedAttempt_configSnapshot (db : Db) (a : QuizAttempt) (st : QuizAttemptStatus) :
    (db.finishedAttempt a st).configSnapshot = a.configSnapshot := rfl

/-- The stored result. -/
def QuizAttempt.result (a : QuizAttempt) : Option ℤ × Option ℤ × Option Bool :=
  (a.score, a.maxScore, a.isPassed)

def AttemptScore.result (s : AttemptScore) : Option ℤ × Option ℤ × Option Bool :=
  (some s.score, some s.maxScore, some s.isPassed)

theorem passed_of_isPassed {a : QuizAttempt} {b : Bool} (h : a.isPassed = some b) : a.passed = b := by
  cases b <;> simp [QuizAttempt.passed, h]

/-- The overrides a finish of the attempt reads. -/
def Db.creditedIds (db : Db) (a : QuizAttempt) : Finset ℕ :=
  db.loadQuestionOverrides a.pluginConfigId a.pluginConfigVersion

theorem finishedAttempt_result (db : Db) (a : QuizAttempt) (st : QuizAttemptStatus) :
    (db.finishedAttempt a st).result =
      (a.applyOverrides (db.creditedIds a)).scoreAttempt.result := rfl

section

variable {db : Db} {a : QuizAttempt} {k : ℕ} {sub : Submission}

theorem finishPassed_spec (hsub : db.submissions[a.submissionId]? = some sub)
    (hs : sub.status = .quizSent) (hp : a.passed = true) :
    ∃ db', db.finishPassed a a.submissionId = .ok db' ∧ Finished db a k db' := by
  have hst : db.status a.submissionId = some .quizSent := by simp [Db.status, hsub, hs]
  unfold Db.finishPassed
  by_cases hc : db.quizComplete a.submissionId = true
  · rw [if_pos hc]
    have hcompleted := transition_of_status hst (show SubmissionStatus.quizSent.transitions .quizPassed = _ from rfl)
    have hteacher := transition_of_status hst (show SubmissionStatus.quizSent.transitions .quizPassedTeacher = _ from rfl)
    by_cases hsc : db.isScoredSubmission a.submissionId = true
    · rw [if_pos hsc]
      by_cases hcomp : db.scoresCompleteFor a.submissionId = true
      · rw [if_pos hcomp, hcompleted]
        exact ⟨_, rfl, .completed hst hp hc (by simp [Db.goesToTeacher, hsc, hcomp])⟩
      · rw [if_neg hcomp, hteacher]
        exact ⟨_, rfl, .toTeacher hst hp hc (by simp [Db.goesToTeacher, hsc, hcomp])⟩
    · rw [if_neg hsc]
      by_cases hm : (a.configSnapshot.reviewMode == some .quizThenTeacher) = true
      · rw [if_pos hm, hteacher]
        exact ⟨_, rfl, .toTeacher hst hp hc (by simp [Db.goesToTeacher, hsc, hm])⟩
      · rw [if_neg hm, hcompleted]
        exact ⟨_, rfl, .completed hst hp hc (by simp [Db.goesToTeacher, hsc, hm])⟩
  · rw [if_neg hc]
    exact ⟨db, rfl, .left (fun _ _ => by simpa using hc) fun _ h => by simp [h] at hp⟩

theorem finishFailed_spec (hsub : db.submissions[a.submissionId]? = some sub)
    (hs : sub.status = .quizSent) (hp : a.passed = false) :
    ∃ db', db.finishFailed a k a.submissionId sub = .ok db' ∧ Finished db a k db' := by
  have hst : db.status a.submissionId = some .quizSent := by simp [Db.status, hsub, hs]
  have huse : ∀ cap, effectiveMaxAttempts a.configSnapshot.maxQuizAttempts sub a.studentId = some cap →
      (db.UsesUp a k a.submissionId ↔ cap ≤ db.countUsedAttempts a.submissionId k a.studentId + 1) := by
    intro cap hcap
    constructor
    · rintro ⟨sub', cap', hsub', hcap', hle⟩
      rw [hsub] at hsub'
      cases hsub'
      rw [hcap] at hcap'
      cases hcap'
      exact hle
    · exact fun hle => ⟨sub, cap, hsub, hcap, hle⟩
  unfold Db.finishFailed
  split
  · rename_i hcap
    refine ⟨db, rfl, .left (fun _ h => by simp [h] at hp) ?_⟩
    rintro - - ⟨sub', cap', hsub', hcap', -⟩
    rw [hsub] at hsub'
    cases hsub'
    rw [hcap] at hcap'
    cases hcap'
  · rename_i cap hcap
    split_ifs with hle
    · rw [transition_of_status hst (show SubmissionStatus.quizSent.transitions .quizFailed = _ from rfl)]
      exact ⟨_, rfl, .failed hst hp ((huse cap hcap).mpr hle)⟩
    · exact ⟨db, rfl, .left (fun _ h => by simp [h] at hp) fun _ _ h => hle ((huse cap hcap).mp h)⟩

end

/-- Finishing an attempt never raises, and does what `Finished` says. -/
theorem gradeAndFinalize_spec {db : Db} {k : ℕ} {a : QuizAttempt} (st : QuizAttemptStatus)
    (ha : db.quizAttempts[k]? = some a) :
    ∃ db', db.gradeAndFinalize k st = .ok db' ∧
      Finished (db.setAttempt k fun _ => db.finishedAttempt a st) (db.finishedAttempt a st) k db' := by
  unfold Db.gradeAndFinalize
  simp only [ha]
  set a' := db.finishedAttempt a st with ha'
  set db₁ := db.setAttempt k fun _ => a' with hdb₁
  have hid : a.submissionId = a'.submissionId := rfl
  rw [hid]
  split
  · rename_i hsub
    have hst : db₁.status a'.submissionId = none := by simp [Db.status, hsub]
    exact ⟨db₁, rfl, .left (fun h => by simp [hst] at h) fun h => by simp [hst] at h⟩
  · rename_i sub hsub
    by_cases hs : sub.status = .quizSent
    · rw [if_pos hs]
      cases hp : a'.passed with
      | true => simpa only [if_true] using finishPassed_spec hsub hs hp
      | false => simpa using finishFailed_spec hsub hs hp
    · rw [if_neg hs]
      have hst : db₁.status a'.submissionId ≠ some .quizSent := by simpa [Db.status, hsub] using hs
      exact ⟨db₁, rfl, .left (fun h => absurd h hst) fun h => absurd h hst⟩

/-- Beyond the attempt, a finish touches its submission's status and the grades. -/
theorem Finished.within {db db' : Db} {a : QuizAttempt} {k : ℕ} (h : Finished db a k db') :
    Within (.status a.submissionId) db db' := by
  have hset : ∀ s : SubmissionStatus,
      Within (.status a.submissionId) db (db.setSubmission a.submissionId ({ · with status := s })) :=
    fun s => within_setSubmission db _ fun sub => by simp [Scope.keep]
  cases h with
  | left => exact .refl _ db
  | completed => exact (hset _).trans ((within_finalizeGrade _ _).mono (.grades _))
  | toTeacher => exact hset _
  | failed => exact hset _

/-! ## The attempt routes

What the attempt routes do: edit the answers of a running attempt, finish it, or nothing. -/

/-- `a₁` is the running attempt `a` with other answers, cursor or violation mark. -/
def Edited (a a₁ : QuizAttempt) : Prop :=
  a₁ = { a with answers := a₁.answers, currentIndex := a₁.currentIndex, forceFail := a₁.forceFail }

theorem Edited.refl (a : QuizAttempt) : Edited a a := rfl

theorem Edited.trans {a b c : QuizAttempt} (h₁ : Edited a b) (h₂ : Edited b c) : Edited a c := by
  unfold Edited at *
  rw [h₂, h₁]

theorem edited_advanceExpired (n : ℕ) : ∀ a : QuizAttempt, Edited a (a.advanceExpired n).1 := by
  induction n with
  | zero => exact Edited.refl
  | succ n ih =>
    intro a
    unfold QuizAttempt.advanceExpired
    split
    · exact .refl a
    · rename_i q _
      split_ifs
      · exact .refl a
      · exact Edited.trans (b := a.burn q) rfl (ih _)

namespace QuizAttempt

/-! How a request ends a running attempt: the row with its last answers, and the final status. -/

def endedByShow (a : QuizAttempt) (timedOut : Bool) (expired : ℕ) : Option (QuizAttempt × QuizAttemptStatus) :=
  if a.forceFail then some (a, .violationFail)
  else if timedOut then some (a, .timedOut)
  else if a.configSnapshot.perQuestionTiming then
    let a' := (a.advanceExpired expired).1
    if a'.currentQuestion.isNone then some (a', .completed) else none
  else none

def endedByAnswer (a : QuizAttempt) (postedIndex : ℕ) (isRight : Bool) (expired : ℕ) :
    Option (QuizAttempt × QuizAttemptStatus) :=
  if !a.configSnapshot.perQuestionTiming then none
  else if a.forceFail then some (a, .violationFail)
  else
    let a' := a.recordAnswer postedIndex isRight expired
    if a'.currentQuestion.isNone then some (a', .completed) else none

def endedBySubmit (a : QuizAttempt) (isRight : ℕ → Bool) (timedOut : Bool) :
    Option (QuizAttempt × QuizAttemptStatus) :=
  if a.configSnapshot.perQuestionTiming then none
  else some ({ a with answers := a.questionsSnapshot.map fun q => gradeAnswer q (isRight q.id) },
    if a.forceFail then .violationFail else if timedOut then .timedOut else .completed)

end QuizAttempt

/-- The student's own attempt `k`, while it runs. -/
def Db.running (db : Db) (k studentId : ℕ) : Option QuizAttempt :=
  match db.attemptFor k studentId with
  | .ok a => if a.status.isTerminal then none else some a
  | .error _ => none

/-- A request on attempt `k`; `ends` is how it ends the attempt, if it does. -/
inductive QuizStep (db : Db) (k : ℕ) (ends : Option (QuizAttempt × QuizAttemptStatus)) : Db → Prop
  | same : QuizStep db k ends db
  | edited {a a₁} (ha : db.quizAttempts[k]? = some a) (hrun : a.status = .inProgress) (he : Edited a a₁) :
      QuizStep db k ends (db.setAttempt k fun _ => a₁)
  | finished {a a₁ st db'} (ha : db.quizAttempts[k]? = some a) (hrun : a.status = .inProgress)
      (he : Edited a a₁) (hst : st.isTerminal = true) (hends : ends = some (a₁, st))
      (hfin : Finished (db.setAttempt k fun _ => db.finishedAttempt a₁ st) (db.finishedAttempt a₁ st) k db') :
      QuizStep db k ends db'

section

variable {db db' : Db} {k studentId : ℕ} {a a₁ : QuizAttempt} {ends : Option (QuizAttempt × QuizAttemptStatus)}

theorem attemptFor_ok (h : db.attemptFor k studentId = .ok a) : db.quizAttempts[k]? = some a := by
  unfold Db.attemptFor at h
  split at h
  · cases h
  · rename_i b hb
    split_ifs at h
    cases h
    exact hb

theorem bind_ok {α β : Type} {x : Except Raised α} {f : α → Except Raised β} {b : β}
    (h : x >>= f = .ok b) : ∃ a, x = .ok a ∧ f a = .ok b := by
  cases x with
  | error e => cases h
  | ok a => exact ⟨a, rfl, h⟩

/-- What every pass of a loop keeps holds after it. -/
theorem foldlM_ok {α β : Type} {f : β → α → Except Raised β} {P : β → Prop} {l : List α} {b b' : β}
    (hf : ∀ b, ∀ a ∈ l, ∀ b', f b a = .ok b' → P b → P b') (h : l.foldlM f b = .ok b') (hb : P b) : P b' := by
  induction l generalizing b with
  | nil =>
    cases h
    exact hb
  | cons a l ih =>
    rw [List.foldlM_cons] at h
    obtain ⟨b₁, hfirst, h⟩ := bind_ok h
    exact ih (fun b a' ha' => hf b a' (List.mem_cons_of_mem _ ha')) h (hf b a List.mem_cons_self b₁ hfirst hb)

theorem inProgress_of_not_terminal {st : QuizAttemptStatus} (h : ¬ st.isTerminal = true) : st = .inProgress := by
  cases st <;> first | rfl | exact absurd rfl h

theorem running_of_attemptFor (h : db.attemptFor k studentId = .ok a) (ht : ¬ a.status.isTerminal = true) :
    db.running k studentId = some a := by
  unfold Db.running
  rw [h]
  exact if_neg ht

/-- Finishing an attempt whose answers were edited in the same request. -/
theorem quizStep_finish {st : QuizAttemptStatus} (ha : db.quizAttempts[k]? = some a)
    (hrun : a.status = .inProgress) (he : Edited a a₁) (hst : st.isTerminal = true)
    (hends : ends = some (a₁, st))
    (h : (db.setAttempt k fun _ => a₁).gradeAndFinalize k st = .ok db') : QuizStep db k ends db' := by
  have ha₁ : (db.setAttempt k fun _ => a₁).quizAttempts[k]? = some a₁ := by simp [ha]
  obtain ⟨db'', hrun', hfin⟩ := gradeAndFinalize_spec st ha₁
  rw [h] at hrun'
  cases hrun'
  have htwice : ((db.setAttempt k fun _ => a₁).setAttempt k fun _ =>
      (db.setAttempt k fun _ => a₁).finishedAttempt a₁ st) = db.setAttempt k fun _ => db.finishedAttempt a₁ st := by
    simp only [Db.setAttempt, List.modify_modify_eq]
    rfl
  rw [htwice] at hfin
  exact .finished ha hrun he hst hends hfin

theorem quizStep_finish_same {st : QuizAttemptStatus} (ha : db.quizAttempts[k]? = some a)
    (hrun : a.status = .inProgress) (hst : st.isTerminal = true) (hends : ends = some (a, st))
    (h : db.gradeAndFinalize k st = .ok db') : QuizStep db k ends db' := by
  obtain ⟨db'', hrun', hfin⟩ := gradeAndFinalize_spec st ha
  rw [h] at hrun'
  cases hrun'
  exact .finished ha hrun (.refl a) hst hends hfin

theorem showQuiz_step {timedOut : Bool} {expired : ℕ} (h : db.showQuiz k studentId timedOut expired = .ok db') :
    QuizStep db k ((db.running k studentId).bind (·.endedByShow timedOut expired)) db' := by
  obtain ⟨a, hfor, h⟩ := bind_ok h
  have ha := attemptFor_ok hfor
  by_cases hterm : a.status.isTerminal = true
  · rw [if_pos hterm] at h; cases h; exact .same
  have hrun := inProgress_of_not_terminal hterm
  rw [running_of_attemptFor hfor hterm, Option.bind_some, QuizAttempt.endedByShow]
  rw [if_neg hterm] at h
  split_ifs at h ⊢ with hforce hout htiming
  · exact quizStep_finish_same ha hrun rfl rfl h
  · exact quizStep_finish_same ha hrun rfl rfl h
  · dsimp only at h ⊢
    split_ifs at h ⊢
    · exact quizStep_finish ha hrun (edited_advanceExpired expired a) rfl rfl h
    · cases h; exact .edited ha hrun (edited_advanceExpired expired a)
  · cases h; exact .same

theorem edited_recordAnswer (a : QuizAttempt) (postedIndex : ℕ) (isRight : Bool) (expired : ℕ) :
    Edited a (a.recordAnswer postedIndex isRight expired) := by
  refine Edited.trans (edited_advanceExpired expired a) ?_
  unfold QuizAttempt.recordAnswer
  dsimp only
  split
  · exact .refl _
  · split_ifs
    · rfl
    · exact .refl _

theorem answerQuestion_step {postedIndex : ℕ} {isRight : Bool} {expired : ℕ}
    (h : db.answerQuestion k studentId postedIndex isRight expired = .ok db') :
    QuizStep db k ((db.running k studentId).bind (·.endedByAnswer postedIndex isRight expired)) db' := by
  obtain ⟨a, hfor, h⟩ := bind_ok h
  have ha := attemptFor_ok hfor
  by_cases hterm : a.status.isTerminal = true
  · rw [if_pos hterm] at h; cases h; exact .same
  have hrun := inProgress_of_not_terminal hterm
  rw [running_of_attemptFor hfor hterm, Option.bind_some, QuizAttempt.endedByAnswer]
  rw [if_neg hterm] at h
  split_ifs at h ⊢ with htiming hforce
  · cases h; exact .same
  · exact quizStep_finish_same ha hrun rfl rfl h
  · have hedit := edited_recordAnswer a postedIndex isRight expired
    dsimp only at h ⊢
    split_ifs at h ⊢
    · exact quizStep_finish ha hrun hedit rfl rfl h
    · cases h; exact .edited ha hrun hedit

theorem submitQuiz_step {isRight : ℕ → Bool} {timedOut : Bool}
    (h : db.submitQuiz k studentId isRight timedOut = .ok db') :
    QuizStep db k ((db.running k studentId).bind (·.endedBySubmit isRight timedOut)) db' := by
  obtain ⟨a, hfor, h⟩ := bind_ok h
  have ha := attemptFor_ok hfor
  by_cases hterm : a.status.isTerminal = true
  · rw [if_pos hterm] at h; cases h; exact .same
  have hrun := inProgress_of_not_terminal hterm
  rw [running_of_attemptFor hfor hterm, Option.bind_some, QuizAttempt.endedBySubmit]
  rw [if_neg hterm] at h
  split_ifs at h ⊢ with htiming
  · cases h; exact .same
  all_goals
    dsimp only at h
    rw [setAttempt_congr (g := fun _ =>
      { a with answers := a.questionsSnapshot.map fun q => gradeAnswer q (isRight q.id) }) ha rfl] at h
    have hedit : Edited a
        { a with answers := a.questionsSnapshot.map fun q => gradeAnswer q (isRight q.id) } := rfl
    exact quizStep_finish ha hrun hedit rfl rfl h

theorem reportViolation_step {isFail : Bool} (h : db.reportViolation k studentId isFail = .ok db') :
    QuizStep db k none db' := by
  obtain ⟨a, hfor, h⟩ := bind_ok h
  have ha := attemptFor_ok hfor
  split_ifs at h with hrun
  · cases h
    rw [setAttempt_congr (g := fun _ => { a with forceFail := true }) ha rfl]
    have hedit : Edited a { a with forceFail := true } := rfl
    exact .edited ha hrun.1 hedit
  · cases h; exact .same

end

end SubmissionsChecker
