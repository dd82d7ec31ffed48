import SubmissionsChecker.Db.Models
import SubmissionsChecker.Services.QuizGrants
import SubmissionsChecker.Services.QuizOpen
import SubmissionsChecker.Services.QuizScoring

/-! Which questions an attempt gets: the draw of `api/routes/student_quiz.py`, a squad's split
of one draw (`services/quiz_split.py`) and the snapshot of the drawn questions. -/

namespace SubmissionsChecker

/-- One outcome of `random.shuffle`. -/
structure Shuffle where
  run : List ℕ → List ℕ
  perm : ∀ l, (run l).Perm l

def Shuffle.none : Shuffle := ⟨id, fun _ => .rfl⟩

/-- The shuffles of one start request. -/
structure Shuffles where
  optional : Shuffle := .none
  selected : Shuffle := .none
  slice : Shuffle := .none

/-- `_snapshot_questions`; option order is not modelled. -/
def snapshotQuestions (quiz : QuizConfig) (ids : List ℕ) : List QuestionSnapshot :=
  ids.filterMap fun i => (quiz.questions[i]?).map fun q =>
    { id := i, type := q.type, points := q.points.getD 1, isRequired := q.required
      timeLimitSeconds :=
        (q.timeLimitSeconds.or quiz.questionTimeDefaultSeconds).filter (· != 0) }

/-- `_select_question_ids`. -/
def selectQuestionIds (quiz : QuizConfig) (rnd : Shuffles) : List ℕ :=
  let total := quiz.questionsToSend.getD quiz.questions.length
  let shuffleQ := quiz.shuffleQuestions.getD true
  let required := Table.idsWhere (fun q => q.type != .unsupported && q.required) quiz.questions
  let optional := Table.idsWhere (fun q => q.type != .unsupported && !q.required) quiz.questions
  let optional' := if shuffleQ then rnd.optional.run optional else optional
  let selected := required ++ optional'.take (max 0 (total - required.length)).toNat
  if shuffleQ then rnd.selected.run selected else selected

/-- `split_draw`: required questions first, dealt round-robin. -/
def splitDraw (questions : List QuestionSnapshot) (memberCount : ℕ) : List (List ℕ) :=
  let ordered := questions.filter (·.isRequired) ++ questions.filter (!·.isRequired)
  (List.range memberCount).map fun m =>
    (ordered.zipIdx.filter fun p => p.2 % memberCount == m).map (·.1.id)

/-- The retry draw of `_draw_for_member`: only the required questions of the member's own slice
stay required, and the draw has the slice's size. -/
def retryConfig (quiz : QuizConfig) (mine : List ℕ) : QuizConfig :=
  { quiz with
    questionsToSend := some mine.dedup.length
    questions := quiz.questions.zipIdx.map fun p =>
      { p.1 with required := p.1.required && mine.contains p.2 } }

namespace SquadDraw

/-- A member's slice. -/
def sliceOf (draw : SquadDraw) (studentId : ℕ) : List ℕ := (draw.slices[draw.memberOrder.idxOf studentId]?).getD []

/-- `draw_cfg` and `my_ids`: the member's slice at the first attempt, a new draw at a retry. -/
def drawIds (draw : SquadDraw) (quiz : QuizConfig) (studentId : ℕ) (retry : Bool) (rnd : Shuffles) : QuizConfig × List ℕ :=
  let mine := draw.sliceOf studentId
  if retry then (retryConfig quiz mine, selectQuestionIds (retryConfig quiz mine) rnd)
  else (quiz, if quiz.shuffleQuestions.getD true then rnd.slice.run mine else mine)

end SquadDraw

namespace Db

/-- The shared draw of submission `i`. -/
def drawOf (db : Db) (i : ℕ) : Option SquadDraw := (db.submissions[i]?).bind (·.squadQuizDraw)

/-- The shared draw of a squad submission, written by whoever opens the quiz first. -/
def squadDraw (db : Db) (i : ℕ) (squad : Squad) (quiz : QuizConfig) (rnd : Shuffles) :
    Except Raised (Db × SquadDraw) :=
  match db.drawOf i with
  | some draw => .ok (db, draw)
  | none =>
    let memberOrder := squad.members.insertionSort (· ≤ ·)
    if memberOrder.length < 1 then .error (.runtime "member_count must be >= 1")
    else
      let ids := selectQuestionIds quiz rnd
      let draw : SquadDraw :=
        { questionIds := ids, slices := splitDraw (snapshotQuestions quiz ids) memberOrder.length, memberOrder }
      .ok (db.setSubmission i ({ · with squadQuizDraw := some draw }), draw)

/-- `_draw_for_member`; an id the config has no question for raises in `_snapshot_questions`. -/
def drawForMember (db : Db) (i : ℕ) (squad : Squad) (quiz : QuizConfig) (studentId : ℕ) (retry : Bool)
    (rnd : Shuffles) : Except Raised (Db × List QuestionSnapshot) := do
  let (db₁, draw) ← db.squadDraw i squad quiz rnd
  if studentId ∉ draw.memberOrder then
    .error (.http 409 "Squad changed after the quiz draw; ask your teacher to reset the draw.")
  else
    let (drawCfg, ids) := draw.drawIds quiz studentId retry rnd
    if ids.all (· < drawCfg.questions.length) then .ok (db₁, snapshotQuestions drawCfg ids)
    else .error (.runtime "list index out of range")

end Db

/-! ## Attempts

`api/routes/student_quiz.py`: starting an attempt, answering it and finishing it. What the
clock says (which questions ran out, whether the quiz timed out) and whether a posted answer
is right are inputs of each request. -/

namespace Db

/-- `_count_used_attempts`. -/
def countUsedAttempts (db : Db) (i excludeId : ℕ) (studentId : Option ℕ) : ℕ :=
  ((Table.idsWhere (fun a => a.submissionId == i && a.status.isTerminal &&
    (a.studentId == studentId || a.studentId == none)) db.quizAttempts).filter (· != excludeId)).length

/-- The attempt as `_grade_and_finalize` leaves it. -/
def finishedAttempt (db : Db) (a : QuizAttempt) (status : QuizAttemptStatus) : QuizAttempt :=
  let credited := a.applyOverrides (db.loadQuestionOverrides a.pluginConfigId a.pluginConfigVersion)
  let s := credited.scoreAttempt
  { credited with
    score := some s.score, maxScore := some s.maxScore, isPassed := some s.isPassed
    status := if s.forceFailed then .violationFail else status }

/-- The pass branch of `_grade_and_finalize`, for a submission at `QUIZ_SENT`. -/
def finishPassed (db : Db) (a : QuizAttempt) (i : ℕ) : Except Raised Db :=
  if db.quizComplete i then
    if db.isScoredSubmission i then
      if db.scoresCompleteFor i then do
        let db₁ ← db.transition i .quizPassed
        .ok (db₁.finalizeGrade i)
      else db.transition i .quizPassedTeacher
    else if a.configSnapshot.reviewMode == some .quizThenTeacher then
      db.transition i .quizPassedTeacher
    else do
      let db₁ ← db.transition i .quizPassed
      .ok (db₁.finalizeGrade i)
  else .ok db

/-- The fail branch. -/
def finishFailed (db : Db) (a : QuizAttempt) (k i : ℕ) (sub : Submission) : Except Raised Db :=
  match effectiveMaxAttempts a.configSnapshot.maxQuizAttempts sub a.studentId with
  | none => .ok db
  | some maxAttempts =>
    if maxAttempts ≤ db.countUsedAttempts i k a.studentId + 1 then db.transition i .quizFailed
    else .ok db

/-- `_grade_and_finalize`. Only a submission still at `QUIZ_SENT` is moved. -/
def gradeAndFinalize (db : Db) (k : ℕ) (status : QuizAttemptStatus) : Except Raised Db :=
  match db.quizAttempts[k]? with
  | none => .error (.http 404 "")
  | some a =>
    let a' := db.finishedAttempt a status
    let db₁ := db.setAttempt k fun _ => a'
    match db₁.submissions[a.submissionId]? with
    | none => .ok db₁
    | some sub =>
      if sub.status = .quizSent then
        if a'.passed then db₁.finishPassed a' a.submissionId
        else db₁.finishFailed a' k a.submissionId sub
      else .ok db₁

/-- `_assert_attempt_owner`. -/
def isAttemptOwner (db : Db) (a : QuizAttempt) (studentId : ℕ) : Bool :=
  match db.submissions[a.submissionId]? with
  | none => false
  | some sub =>
    (a.studentId.or ((db.studentsAssignments[sub.studentsAssignmentId]?).map (·.studentId))) ==
      some studentId

end Db

/-- `_grade_answer`: a right answer earns the question's points, any other none. -/
def gradeAnswer (q : QuestionSnapshot) (isRight : Bool) : QuizAnswer :=
  let isCorrect := isRight && q.type != .unsupported
  { questionId := q.id, isCorrect := some isCorrect, pointsEarned := some (if isCorrect then q.points else 0) }

namespace QuizAttempt

/-- `_current_question`. -/
def currentQuestion (a : QuizAttempt) : Option QuestionSnapshot := a.questionsSnapshot[a.currentIndex]?

/-- `_record_timed_out`, then the cursor moves. -/
def burn (a : QuizAttempt) (q : QuestionSnapshot) : QuizAttempt :=
  { a with
    answers := a.answers ++
      [{ questionId := q.id, isCorrect := some false, pointsEarned := some 0, timedOut := true }]
    currentIndex := a.currentIndex + 1 }

/-- `_advance_expired`: up to `expired` questions whose window has closed; a question without a
limit never expires. Returns how many were burned. -/
def advanceExpired (a : QuizAttempt) : ℕ → QuizAttempt × ℕ
  | 0 => (a, 0)
  | expired + 1 =>
    match a.currentQuestion with
    | none => (a, 0)
    | some q =>
      if q.timeLimitSeconds.isNone then (a, 0)
      else
        let (a', burned) := (a.burn q).advanceExpired expired
        (a', burned + 1)

/-- The posted answer, unless a question was burned on the way or the form shows another one. -/
def recordAnswer (a : QuizAttempt) (postedIndex : ℕ) (isRight : Bool) (expired : ℕ) : QuizAttempt :=
  let (a₁, burned) := a.advanceExpired expired
  match a₁.currentQuestion with
  | none => a₁
  | some q =>
    if burned = 0 ∧ postedIndex = a₁.currentIndex then
      { a₁ with answers := a₁.answers ++ [gradeAnswer q isRight], currentIndex := a₁.currentIndex + 1 }
    else a₁

end QuizAttempt

namespace Db

/-- The attempt row a start request adds. -/
def newAttempt (db : Db) (i studentId configId version : ℕ) (block : PluginAssignment)
    (questions : List QuestionSnapshot) : QuizAttempt :=
  { submissionId := i, studentId := some studentId, pluginConfigId := some configId,
    pluginConfigVersion := some version, questionsSnapshot := questions, startedAt := db.now
    configSnapshot :=
      { passThresholdPct := some (block.quiz.passThresholdPct.getD defaultPassThresholdPct)
        reviewMode := some (block.reviewMode.getD .testsOnly)
        maxQuizAttempts := block.quiz.maxQuizAttempts
        perQuestionTiming := questions.any (·.timeLimitSeconds.isSome) } }

/-- The part of `start_or_resume_quiz` that starts a new attempt on submission `i`. -/
def startAttempt (db : Db) (sa : StudentAssignment) (asg : SubjectsAssignment) (i : ℕ) (sub : Submission)
    (existing : List QuizAttempt) (rnd : Shuffles) : Except Raised Db :=
  match sub.pluginConfigId with
  | none => .error (.http 503 "No plugin config pinned to this submission")
  | some configId =>
    match db.pluginConfigs[configId]? with
    | none => .error (.http 503 "Plugin config not found")
    | some cfg =>
      if asg.code.isNone then .error (.http 404 "Assignment has no config code")
      else
        let block := cfg.assignment asg.code
        if block.quiz.questions = [] then .error (.http 404 "No quiz configured for this assignment")
        else
          let allowed := effectiveMaxAttempts block.quiz.maxQuizAttempts sub (some sa.studentId)
          let usedCount := (existing.filter (·.status.isTerminal)).length
          if allowed.any (fun cap => decide (cap ≤ (usedCount : ℤ))) then
            if existing = [] then .error (.http 403 "No quiz attempts remaining") else .ok db
          else do
            let (db₁, questions) ←
              match db.squadForSubmission i with
              | none => .ok (db, snapshotQuestions block.quiz (selectQuestionIds block.quiz rnd))
              | some squad => db.drawForMember i squad block.quiz sa.studentId (0 < usedCount) rnd
            .ok { db₁ with quizAttempts := db₁.quizAttempts ++
              [db₁.newAttempt i sa.studentId configId cfg.version block questions] }

/-- `start_or_resume_quiz`. -/
def startOrResumeQuiz (db : Db) (saId studentId : ℕ) (rnd : Shuffles) : Except Raised Db :=
  match db.studentsAssignments[saId]? with
  | none => .error (.http 404 "")
  | some sa =>
    if sa.studentId ≠ studentId then .error (.http 404 "")
    else
      match db.subjectsAssignments[sa.subjectsAssignmentId]? with
      | none => .error (.http 404 "")
      | some asg => do
        let (db₁, latest) := db.latestSubmission saId
        let opens := latest.all (fun i => (db₁.status i).any (·.isReopenable)) && asg.config.isScoredMode
        let (db₂, latest) ←
          if opens then
            match db₁.openQuizSubmission saId studentId with
            | .ok (db₂, i) => .ok (db₂, some i)
            | .error (.quizOpenError message) => .error (.http 409 message)
            | .error e => .error e
          else .ok (db₁, latest)
        match latest.bind fun i => (db₂.submissions[i]?).map (i, ·) with
        | none => .error (.http 403 "Quiz not available for this submission")
        | some (i, sub) =>
          if sub.status ≠ .quizSent then .error (.http 403 "Quiz not available for this submission")
          else
            let existing := db₂.attemptsOf i studentId
            if existing.any (·.status == .inProgress) || existing.any (·.passed) then .ok db₂
            else db₂.startAttempt sa asg i sub existing rnd

/-- The owner and status checks the attempt routes share. -/
def attemptFor (db : Db) (k studentId : ℕ) : Except Raised QuizAttempt :=
  match db.quizAttempts[k]? with
  | none => .error (.http 404 "")
  | some a => if db.isAttemptOwner a studentId then .ok a else .error (.http 403 "")

/-- `show_quiz`. -/
def showQuiz (db : Db) (k studentId : ℕ) (timedOut : Bool) (expired : ℕ) : Except Raised Db := do
  let a ← db.attemptFor k studentId
  if a.status.isTerminal then .ok db
  else if a.forceFail then db.gradeAndFinalize k .violationFail
  else if timedOut then db.gradeAndFinalize k .timedOut
  else if a.configSnapshot.perQuestionTiming then
    let a' := (a.advanceExpired expired).1
    let db₁ := db.setAttempt k fun _ => a'
    if a'.currentQuestion.isNone then db₁.gradeAndFinalize k .completed else .ok db₁
  else .ok db

/-- `answer_question`. -/
def answerQuestion (db : Db) (k studentId postedIndex : ℕ) (isRight : Bool) (expired : ℕ) :
    Except Raised Db := do
  let a ← db.attemptFor k studentId
  if a.status.isTerminal then .ok db
  else if !a.configSnapshot.perQuestionTiming then .ok db
  else if a.forceFail then db.gradeAndFinalize k .violationFail
  else
    let a' := a.recordAnswer postedIndex isRight expired
    let db₁ := db.setAttempt k fun _ => a'
    if a'.currentQuestion.isNone then db₁.gradeAndFinalize k .completed else .ok db₁

/-- `submit_quiz`: the old answers are wiped and every question of the form is graded. -/
def submitQuiz (db : Db) (k studentId : ℕ) (isRight : ℕ → Bool) (timedOut : Bool) :
    Except Raised Db := do
  let a ← db.attemptFor k studentId
  if a.status.isTerminal then .ok db
  else if a.configSnapshot.perQuestionTiming then .ok db
  else
    let finalStatus : QuizAttemptStatus :=
      if a.forceFail then .violationFail else if timedOut then .timedOut else .completed
    let db₁ := db.setAttempt k
      ({ · with answers := a.questionsSnapshot.map fun q => gradeAnswer q (isRight q.id) })
    db₁.gradeAndFinalize k finalStatus

/-- `report_violation`: `isFail` says that a configured rule with action `fail` fired. -/
def reportViolation (db : Db) (k studentId : ℕ) (isFail : Bool) : Except Raised Db := do
  let a ← db.attemptFor k studentId
  if a.status = .inProgress ∧ isFail then .ok (db.setAttempt k ({ · with forceFail := true })) else .ok db

/-- `report_question`. -/
def reportQuestion (db : Db) (k studentId questionId : ℕ) : Except Raised Db := do
  let a ← db.attemptFor k studentId
  if a.questionsSnapshot.any (·.id == questionId) then
    .ok { db with disputes := db.disputes ++
      [{ attemptId := k, questionId, studentId, pluginConfigId := a.pluginConfigId,
         pluginConfigVersion := a.pluginConfigVersion }] }
  else .error (.http 400 "Question is not part of this attempt")

end Db

end SubmissionsChecker
