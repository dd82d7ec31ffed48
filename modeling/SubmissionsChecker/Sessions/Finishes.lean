import SubmissionsChecker.Effects.Attempts
import SubmissionsChecker.Sessions.Rows

/-! The requests of a running attempt (`show_quiz`, `answer_question`, `submit_quiz`) with
`_grade_and_finalize`, as requests among others. The attempt, its answers, its submission and the
owner's row are loaded once and kept; only `submit_quiz` reads the attempt again, and only the
pass branch reads the status of the submission again, under its lock. Questions that ran out on
the page that finishes the attempt are committed with it. -/

namespace SubmissionsChecker

open ReadCommitted

/-- The three requests, with what the clock and the form say. -/
inductive QuizPost
  | page (timedOut : Bool) (expired : ℕ)
  | answer (postedIndex : ℕ) (isRight : Bool) (expired : ℕ)
  | submit (isRight : ℕ → Bool) (timedOut : Bool)

/-- A column of an `UPDATE`: written when the session changed it. -/
def changed {α : Type*} [DecidableEq α] (loaded new row : α) : α := if new = loaded then row else new

/-- The answers a flush leaves: loaded rows where they changed, and the new ones at the end. -/
def mergeAnswers (loaded new rows : List QuizAnswer) : List QuizAnswer :=
  (rows.mapIdx fun j row =>
    match loaded[j]?, new[j]? with
    | some l, some n => changed l n row
    | _, _ => row) ++ new.drop loaded.length

/-- What a request keeps of its attempt. -/
structure QuizWork where
  k : ℕ
  /-- The attempt as it was read. -/
  loaded : QuizAttempt
  /-- The attempt as the session has it by now. -/
  attempt : QuizAttempt
  /-- The number of stored answers that are deleted first. -/
  deleted : ℕ := 0
  /-- The stored answers the session has, the deleted ones left out. -/
  answers : List QuizAnswer
  sub : Submission
  sa : StudentAssignment

/-- Where the quiz outcome takes the submission. -/
inductive QuizOutcome
  | kept | toTeacher | completed | failed
  deriving DecidableEq, Repr

/-- What a request does with the attempt: the session's copy, and the status it is finished with. -/
def QuizPost.edit (a : QuizAttempt) : QuizPost → QuizAttempt × Option QuizAttemptStatus
  | page timedOut expired =>
    if a.forceFail then (a, some .violationFail)
    else if timedOut then (a, some .timedOut)
    else if a.configSnapshot.perQuestionTiming then
      let a' := (a.advanceExpired expired).1
      (a', if a'.currentQuestion.isNone then some .completed else none)
    else (a, none)
  | answer postedIndex isRight expired =>
    if !a.configSnapshot.perQuestionTiming then (a, none)
    else if a.forceFail then (a, some .violationFail)
    else
      let a' := a.recordAnswer postedIndex isRight expired
      (a', if a'.currentQuestion.isNone then some .completed else none)
  | submit isRight timedOut =>
    if a.configSnapshot.perQuestionTiming then (a, none)
    else
      ({ a with answers := a.questionsSnapshot.map fun q => gradeAnswer q (isRight q.id) },
        some (if a.forceFail then .violationFail else if timedOut then .timedOut else .completed))

/-- Where a request stands. -/
inductive Finish
  | asked (k studentId : ℕ) (post : QuizPost)
  /-- An edit that does not finish the attempt. -/
  | saving (w : QuizWork)
  | savingRow (w : QuizWork)
  /-- The flush before the grading of a last answer. -/
  | flushing (w : QuizWork) (status : QuizAttemptStatus)
  /-- `submit_quiz` reads its attempt and the answers again. -/
  | rereading (w : QuizWork) (status : QuizAttemptStatus)
  | grading (w : QuizWork) (status : QuizAttemptStatus)
  /-- The fail branch counts the other attempts. -/
  | counting (w : QuizWork) (cap : ℤ)
  /-- The pass branch: the flush, then the lock and the refresh of the submission. -/
  | passing (w : QuizWork)
  | locking (w : QuizWork)
  | deciding (w : QuizWork)
  /-- The rows of the final flush, then the commit. -/
  | storing (w : QuizWork) (outcome : QuizOutcome) (rows : List Row)
  | finished (w : QuizWork) (outcome : QuizOutcome)
  | ended

namespace QuizWork

/-- The submission of the attempt. -/
def i (w : QuizWork) : ℕ := w.loaded.submissionId

/-- The `UPDATE` of the attempt and its answers. -/
def write (w : QuizWork) (row : QuizAttempt) : QuizAttempt :=
  { row with
    answers := mergeAnswers w.answers w.attempt.answers (row.answers.drop w.deleted)
    currentIndex := changed w.loaded.currentIndex w.attempt.currentIndex row.currentIndex
    score := changed w.loaded.score w.attempt.score row.score
    maxScore := changed w.loaded.maxScore w.attempt.maxScore row.maxScore
    isPassed := changed w.loaded.isPassed w.attempt.isPassed row.isPassed
    status := changed w.loaded.status w.attempt.status row.status }

/-- `ck_quiz_attempts_score`. -/
def scoreFits (w : QuizWork) : Bool :=
  match w.attempt.score, w.attempt.maxScore with
  | none, _ => true
  | some s, some m => decide (0 ≤ s ∧ s ≤ m)
  | some _, none => false

end QuizWork

/-- `finalize_grade` with the owner's row as the session has it. -/
def Db.finalizeGradeWith (db : Db) (i : ℕ) (sa : StudentAssignment) : Db :=
  match db.submissions[i]? with
  | none => db
  | some sub =>
    match db.subjectsAssignments[sa.subjectsAssignmentId]? with
    | none => db
    | some asg =>
      let attempts := db.quizAttemptsOf i
      match Db.gradeOf asg sa sub attempts (db.squadForSubmission i).isSome with
      | none => db
      | some breakdown =>
        let targets := db.gradeTargets i sub.studentsAssignmentId sa.subjectsAssignmentId
        let squadParts := (db.squadForSubmission i).map fun _ =>
          { squadId := sub.squadId.getD 0, members := (squadQuizPct .exact attempts).2 : SquadParts }
        (targets.1.writeGrades breakdown.grade targets.2).setSubmission i
          ({ · with gradeBreakdown := some { breakdown with squad := squadParts } })

namespace Finish

/-- The request loads its attempt, checks the owner, and edits it. -/
def load (db : Db) (k studentId : ℕ) (post : QuizPost) : Finish :=
  match db.quizAttempts[k]? with
  | none => .ended
  | some a =>
    match db.submissions[a.submissionId]? with
    | none => .ended
    | some sub =>
      match db.studentsAssignments[sub.studentsAssignmentId]? with
      | none => .ended
      | some sa =>
        if !db.isAttemptOwner a studentId || a.status.isTerminal then .ended
        else
          let w : QuizWork := { k, loaded := a, attempt := (post.edit a).1, answers := a.answers, sub, sa }
          match post, (post.edit a).2 with
          | .submit .., some status => .rereading { w with deleted := a.answers.length, answers := [] } status
          | .answer .., some status => if a.forceFail then .grading w status else .flushing w status
          | .page .., some status => .grading w status
          | _, none => if w.attempt = a then .ended else .saving w

/-- `db.refresh(attempt)` after the answers were replaced. -/
def reread (db : Db) (w : QuizWork) (status : QuizAttemptStatus) : Finish :=
  match db.quizAttempts[w.k]? with
  | none => .ended
  | some row =>
    let stored := row.answers.drop w.deleted
    .grading { w with loaded := row, attempt := { row with answers := stored ++ w.attempt.answers }, answers := stored } status

/-- The overrides, the score, and which branch is taken. -/
def grade (db : Db) (w : QuizWork) (status : QuizAttemptStatus) : Finish :=
  let w' : QuizWork := { w with attempt := db.finishedAttempt w.attempt status }
  if w.sub.status ≠ .quizSent then .storing w' .kept [.attempt w.k]
  else if w'.attempt.passed then .passing w'
  else
    match effectiveMaxAttempts w'.attempt.configSnapshot.maxQuizAttempts w.sub w'.attempt.studentId with
    | none => .storing w' .kept [.attempt w.k]
    | some cap => .counting w' cap

/-- The fail branch. -/
def count (db : Db) (w : QuizWork) (cap : ℤ) : Finish :=
  if cap ≤ db.countUsedAttempts w.i w.k w.attempt.studentId + 1 then .storing w .failed [.submission w.i, .attempt w.k]
  else .storing w .kept [.attempt w.k]

/-- The status is read again under the lock; the rest of the submission is not. -/
def refresh (db : Db) (w : QuizWork) : Finish :=
  .deciding { w with sub := { w.sub with status := (db.status w.i).getD w.sub.status } }

/-- The points of the owner's row are complete, as the session has them. -/
def scoresComplete (db : Db) (w : QuizWork) : Bool :=
  (db.subjectsAssignments[w.sa.subjectsAssignmentId]?).any fun asg =>
    isComplete asg.config.grading.teacherCriteria w.sa.teacherScores

/-- The pass branch under the lock, with the flushed attempt in sight. -/
def outcome (db : Db) (w : QuizWork) : QuizOutcome :=
  if w.sub.status = .quizSent ∧ (db.setAttempt w.k w.write).quizComplete w.i then
    if (db.subjectsAssignments[w.sa.subjectsAssignmentId]?).any (·.config.isScoredMode) then
      if scoresComplete db w then .completed else .toTeacher
    else if w.attempt.configSnapshot.reviewMode == some .quizThenTeacher then .toTeacher
    else .completed
  else .kept

/-- The rows the final flush writes. -/
def rowsOf (w : QuizWork) : QuizOutcome → List Row
  | .kept => [.attempt w.k]
  | .toTeacher | .failed => [.submission w.i, .attempt w.k]
  | .completed => [.studentAssignment w.sub.studentsAssignmentId, .submission w.i, .attempt w.k]

/-- The commit. -/
def store (w : QuizWork) (outcome : QuizOutcome) (db : Db) : Db :=
  let db₁ := db.setAttempt w.k w.write
  match outcome with
  | .kept => db₁
  | .toTeacher => db₁.setSubmission w.i ({ · with status := .awaitingTeacherReview })
  | .failed => db₁.setSubmission w.i ({ · with status := .failed })
  | .completed => (db₁.setSubmission w.i ({ · with status := .completed })).finalizeGradeWith w.i w.sa

def next : Finish → Stmt Db Finish Row
  | asked k studentId post => .read fun db => load db k studentId post
  | saving w => .lock (.attempt w.k) fun _ => .savingRow w
  | savingRow w => .commit (fun db => db.setAttempt w.k w.write) .ended
  | flushing w status => .lock (.attempt w.k) fun _ => .grading w status
  | rereading w status => .read fun db => reread db w status
  | grading w status => .read fun db => grade db w status
  | counting w cap => .read fun db => count db w cap
  | passing w => .lock (.attempt w.k) fun _ => .locking w
  | locking w => .lock (.submission w.i) fun db => refresh db w
  | deciding w => .read fun db => .storing w (outcome db w) (rowsOf w (outcome db w))
  | storing w outcome (row :: rows) => .lock row fun _ => .storing w outcome rows
  | storing w outcome [] => if w.scoreFits then .commit (store w outcome) (.finished w outcome) else .rollback .ended
  | finished _ _ => .done
  | ended => .rollback .ended

end Finish

end SubmissionsChecker

/-! ## Commits

What a request of a running attempt commits: columns of its attempt, at most the status of
its submission, and with a completion the grade. -/

namespace SubmissionsChecker

open ReadCommitted

/-- What the request will write to the status of its attempt. -/
def Finish.Sound : Finish → Prop
  | .saving w | .savingRow w => w.attempt.status = w.loaded.status
  | .flushing _ status | .rereading _ status | .grading _ status => status.isTerminal = true
  | .counting w _ | .passing w | .locking w | .deciding w | .storing w _ _ | .finished w _ =>
    w.attempt.status.isTerminal = true
  | .asked .. | .ended => True

section

variable {db db' : Db} {w : QuizWork} {a row : QuizAttempt} {l l' : Finish} {key : Row}

/-! The edits of a request -/

theorem burn_status (a : QuizAttempt) (expired : ℕ) : (a.advanceExpired expired).1.status = a.status := by
  induction expired generalizing a with
  | zero => rfl
  | succ expired ih =>
    unfold QuizAttempt.advanceExpired
    split
    · rfl
    · split_ifs
      · rfl
      · exact ih _

theorem recordAnswer_status (a : QuizAttempt) (index expired : ℕ) (isRight : Bool) :
    (a.recordAnswer index isRight expired).status = a.status := by
  unfold QuizAttempt.recordAnswer
  dsimp only
  split
  · exact burn_status a expired
  · split_ifs <;> exact burn_status a expired

theorem edit_status (a : QuizAttempt) (post : QuizPost) : (post.edit a).1.status = a.status := by
  unfold QuizPost.edit
  cases post <;> dsimp only <;> split_ifs
  all_goals first
    | rfl
    | exact burn_status ..
    | exact recordAnswer_status ..

theorem edit_terminal {post : QuizPost} {status : QuizAttemptStatus} (h : (post.edit a).2 = some status) :
    status.isTerminal = true := by
  unfold QuizPost.edit at h
  cases post <;> dsimp only at h <;> split_ifs at h <;> cases h
  all_goals rfl

theorem finishedAttempt_terminal {status : QuizAttemptStatus} (h : status.isTerminal = true) :
    (db.finishedAttempt a status).status.isTerminal = true := by
  unfold Db.finishedAttempt
  dsimp only
  split_ifs
  · rfl
  · exact h

/-! The statements of a request -/

theorem Finish.read_sound {f : Db → Finish} (hl : l.Sound) (h : l.next = .read f) : (f db).Sound := by
  cases l with
  | asked k t post =>
    cases h
    change (Finish.load db k t post).Sound
    unfold Finish.load
    split
    · trivial
    · rename_i a ha
      split
      · trivial
      · split
        · trivial
        · split
          · trivial
          · dsimp only
            split
            · rename_i hstatus
              exact edit_terminal hstatus
            · rename_i hstatus
              split <;> exact edit_terminal hstatus
            · rename_i hstatus
              exact edit_terminal hstatus
            · split
              · trivial
              · exact edit_status a _
  | rereading w status =>
    cases h
    change (Finish.reread db w status).Sound
    unfold Finish.reread
    split
    · trivial
    · exact hl
  | grading w status =>
    cases h
    change (Finish.grade db w status).Sound
    unfold Finish.grade
    dsimp only
    have hdone : (db.finishedAttempt w.attempt status).status.isTerminal = true := finishedAttempt_terminal hl
    split_ifs
    · exact hdone
    · exact hdone
    · split <;> exact hdone
  | counting w cap =>
    cases h
    change (Finish.count db w cap).Sound
    unfold Finish.count
    split_ifs <;> exact hl
  | deciding w => cases h; exact hl
  | storing w outcome rows =>
    cases rows with
    | nil => simp only [Finish.next] at h; split at h <;> cases h
    | cons row rows => cases h
  | _ => cases h

theorem Finish.lock_sound {f : Db → Finish} (hl : l.Sound) (h : l.next = .lock key f) : (f db).Sound := by
  cases l with
  | storing w outcome rows =>
    cases rows with
    | nil => simp only [Finish.next] at h; split at h <;> cases h
    | cons row rows => cases h; exact hl
  | _ => cases h <;> exact hl

theorem Finish.commit_sound {f : Db → Db} (hl : l.Sound) (h : l.next = .commit f l') : l'.Sound := by
  cases l with
  | storing w outcome rows =>
    cases rows with
    | nil => simp only [Finish.next] at h; split at h <;> cases h; exact hl
    | cons row rows => cases h
  | _ => cases h <;> trivial

theorem Finish.rollback_sound (h : l.next = .rollback l') : l'.Sound := by
  cases l with
  | storing w outcome rows =>
    cases rows with
    | nil => simp only [Finish.next] at h; split at h <;> cases h; trivial
    | cons row rows => cases h
  | _ => cases h <;> trivial

/-! The commits -/

theorem within_finalizeGradeWith (db : Db) (i : ℕ) (sa : StudentAssignment) :
    Within .grades db (db.finalizeGradeWith i sa) := by
  unfold Db.finalizeGradeWith
  split
  · exact .refl _ db
  · split
    · exact .refl _ db
    · dsimp only
      split
      · exact .refl _ db
      · exact ((within_gradeTargets _ db i _ _).trans (within_writeGrades _ _ _ _)).trans
          (within_setSubmission _ i fun _ => rfl)

/-- With the row as stored it is `finalize_grade`. -/
theorem finalizeGradeWith_stored {i : ℕ} {sub : Submission} {sa : StudentAssignment}
    (hsub : db.submissions[i]? = some sub) (hsa : db.studentsAssignments[sub.studentsAssignmentId]? = some sa) :
    db.finalizeGradeWith i sa = db.finalizeGrade i := by
  rcases hasg : db.subjectsAssignments[sa.subjectsAssignmentId]? with _ | asg
  · simp only [Db.finalizeGradeWith, Db.finalizeGrade, hsub, hsa, hasg]
  · rcases hgrade : Db.gradeOf asg sa sub (db.quizAttemptsOf i) (db.squadForSubmission i).isSome with _ | breakdown
    · simp only [Db.finalizeGradeWith, Db.finalizeGrade, hsub, hsa, hasg, hgrade]
    · simp only [Db.finalizeGradeWith, Db.finalizeGrade, hsub, hsa, hasg, hgrade]

theorem store_within (w : QuizWork) (outcome : QuizOutcome) (db : Db) :
    Within (.status w.i) (db.setAttempt w.k w.write) (Finish.store w outcome db) := by
  have hstatus : ∀ s, Within (.status w.i) (db.setAttempt w.k w.write)
      ((db.setAttempt w.k w.write).setSubmission w.i ({ · with status := s })) := fun s =>
    within_setSubmission _ w.i fun sub => by simp [Scope.keep]
  cases outcome with
  | kept => exact .refl _ _
  | toTeacher => exact hstatus _
  | failed => exact hstatus _
  | completed => exact (hstatus _).trans ((within_finalizeGradeWith _ _ _).mono (.grades _))

/-- A commit writes the attempt and, within its scope, the submission. -/
theorem Finish.commit_within {f : Db → Db} (db : Db) (h : l.next = .commit f l') :
    ∃ w : QuizWork, (l = .savingRow w ∨ ∃ outcome, l = .storing w outcome [] ∧ l' = .finished w outcome ∧ f = Finish.store w outcome) ∧
      Within (.status w.i) (db.setAttempt w.k w.write) (f db) := by
  cases l with
  | savingRow w => cases h; exact ⟨w, .inl rfl, .refl _ _⟩
  | storing w outcome rows =>
    cases rows with
    | nil =>
      simp only [Finish.next] at h
      split at h
      · cases h
        exact ⟨w, .inr ⟨outcome, rfl, rfl, rfl⟩, store_within w outcome db⟩
      · cases h
    | cons row rows => cases h
  | _ => cases h

/-- A finished attempt stays finished. -/
theorem write_terminal (hw : w.attempt.status.isTerminal = true ∨ w.attempt.status = w.loaded.status)
    (hrow : row.status.isTerminal = true) : (w.write row).status.isTerminal = true := by
  change (changed w.loaded.status w.attempt.status row.status).isTerminal = true
  unfold changed
  split_ifs with hsame
  · exact hrow
  · rcases hw with hw | hw
    · exact hw
    · exact absurd hw hsame

theorem Finish.commit_terminal {f : Db → Db} (hl : l.Sound) (h : l.next = .commit f l') :
    ∃ w : QuizWork, Within (.status w.i) (db.setAttempt w.k w.write) (f db) ∧
      ∀ row : QuizAttempt, row.status.isTerminal = true → (w.write row).status.isTerminal = true := by
  obtain ⟨w, rfl | ⟨outcome, rfl, -, -⟩, hwithin⟩ := Finish.commit_within db h
  · exact ⟨w, hwithin, fun row => write_terminal (.inr hl)⟩
  · exact ⟨w, hwithin, fun row => write_terminal (.inl hl)⟩

end

end SubmissionsChecker
