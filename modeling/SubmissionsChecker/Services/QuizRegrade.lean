import SubmissionsChecker.Services.QuizOpen
import SubmissionsChecker.Services.QuizScoring

/-! `services/quiz_regrade.py`: a teacher's ruling on a disputed question, and the attempts
and submissions it moves. -/

namespace SubmissionsChecker

namespace QuizAttempt

/-- The question is in the attempt's snapshot. -/
def drew (a : QuizAttempt) (questionId : ℕ) : Bool := a.questionsSnapshot.any (·.id == questionId)

/-- The attempts the query and the draw check of `regrade_question` keep: of this version,
finished but not for cheating, not passing, with the question drawn. -/
def isCandidate (a : QuizAttempt) (configId version questionId : ℕ) : Bool :=
  a.pluginConfigId == some configId && a.pluginConfigVersion == some version &&
    (a.status == .completed || a.status == .timedOut) && !a.passed && a.drew questionId

/-- One turn of the loop of `regrade_question`. -/
def regrade (a : QuizAttempt) (questionId : ℕ) : QuizAttempt :=
  let credited := a.applyOverrides {questionId}
  let s := credited.scoreAttempt
  { credited with score := some s.score, maxScore := some s.maxScore, isPassed := some s.isPassed }

end QuizAttempt

structure AttemptRescore where
  attemptId : ℕ
  submissionId : ℕ
  score : ℤ
  maxScore : ℤ
  wasPassed : Bool
  isPassed : Bool
  deriving DecidableEq, Repr

def AttemptRescore.flipped (e : AttemptRescore) : Bool := e.isPassed && !e.wasPassed

/-- The entry for an attempt that is re-scored. -/
def rescoreEntry (questionId k : ℕ) (a : QuizAttempt) : AttemptRescore :=
  let s := (a.applyOverrides {questionId}).scoreAttempt
  { attemptId := k, submissionId := a.submissionId, score := s.score, maxScore := s.maxScore,
    wasPassed := a.passed, isPassed := s.isPassed }

namespace Db

/-- `regrade_question`. -/
def regradeQuestion (db : Db) (configId version questionId : ℕ) : Db × List AttemptRescore :=
  let candidates := Table.idsWhere (·.isCandidate configId version questionId) db.quizAttempts
  ({ db with quizAttempts := db.quizAttempts.map fun a =>
      if a.isCandidate configId version questionId then a.regrade questionId else a },
    candidates.filterMap fun k => (db.quizAttempts[k]?).map (rescoreEntry questionId k))

/-- `_advance_submission`. -/
def advanceSubmission (db : Db) (k : ℕ) : Except Raised Db :=
  match db.quizAttempts[k]? with
  | none => .ok db
  | some attempt =>
    let i := attempt.submissionId
    let toTeacher :=
      if db.isScoredSubmission i then !db.scoresCompleteFor i
      else attempt.configSnapshot.reviewMode == some .quizThenTeacher
    let move (event : Event) : Except Raised Db := do
      let db₁ ← db.transition i event
      if toTeacher then .ok db₁ else .ok (db₁.finalizeGrade i)
    match db.status i with
    | some .quizSent =>
      if db.quizComplete i then move (if toTeacher then .quizPassedTeacher else .quizPassed) else .ok db
    | some .failed =>
      if db.quizComplete i then
        move (if toTeacher then .disputeRegradePassedTeacher else .disputeRegradePassed)
      else .ok db
    | some .completed => .ok (db.finalizeGrade i)
    | _ => .ok db

/-- `INSERT … ON CONFLICT DO NOTHING` of the override. -/
def addOverride (db : Db) (configId version questionId : ℕ) : Db :=
  if db.overrides.any fun o =>
      o.pluginConfigId == configId && o.pluginConfigVersion == version && o.questionId == questionId then db
  else { db with overrides := db.overrides ++
    [{ pluginConfigId := configId, pluginConfigVersion := version, questionId }] }

/-- An open report on the same question of the same config version. -/
def isOpenSibling (configId version questionId : ℕ) (s : QuizQuestionDispute) : Bool :=
  s.pluginConfigId == some configId && s.pluginConfigVersion == some version &&
    s.questionId == questionId && s.status == .opened

/-- Every open report on the question is answered by the one ruling. -/
def closeSiblings (db : Db) (configId version questionId : ℕ) (note : String) : Db :=
  { db with disputes := db.disputes.map fun s =>
      if isOpenSibling configId version questionId s then
        { s with status := .accepted, teacherNote := some note } else s }

/-- `resolve_dispute`. -/
def resolveDispute (db : Db) (d : ℕ) (accept : Bool) (note : String) : Except Raised Db :=
  match db.disputes[d]? with
  | none => .error (.http 404 "")
  | some dispute =>
    let db₁ := db.setDispute d
      ({ · with status := if accept then .accepted else .rejected, teacherNote := some note })
    match accept, dispute.pluginConfigId, dispute.pluginConfigVersion with
    | true, some configId, some version =>
      let db₂ := (db₁.addOverride configId version dispute.questionId).closeSiblings configId version
        dispute.questionId note
      let (db₃, rescored) := db₂.regradeQuestion configId version dispute.questionId
      (rescored.filter (·.flipped)).foldlM (fun db e => db.advanceSubmission e.attemptId) db₃
    | _, _, _ => .ok db₁

end Db

/-! ## News

Who hears of a ruling: the bell rows and outbox payloads of `_notify_students`, and the e-mail
the outbox task sends from a payload later. -/

/-- A row of `users`, with the student behind the login. -/
structure User where
  studentId : Option ℕ
  deriving DecidableEq, Repr

/-- A row of the bell; its link leads to the result of the attempt. -/
structure Notification where
  userId : ℕ
  title : String
  body : String
  attemptId : ℕ
  deriving DecidableEq, Repr

inductive DisputeDecision
  | accept | reject | regraded
  deriving DecidableEq, Repr

/-- The payload of `QUIZ_DISPUTE_RESOLVED`. -/
structure DisputeResolved where
  disputeId : Option ℕ
  attemptId : ℕ
  questionId : ℕ
  decision : DisputeDecision
  note : String
  score : Option ℤ
  maxScore : Option ℤ
  isPassed : Option Bool
  deriving DecidableEq, Repr

/-- What one ruling sends: bell rows at once, payloads for the e-mails. -/
structure News where
  inApp : List Notification := []
  outbox : List DisputeResolved := []
  deriving DecidableEq, Repr

/-- An e-mail to a student about their attempt. -/
structure DisputeMail where
  studentId : ℕ
  attemptId : ℕ
  decision : DisputeDecision
  note : String
  score : Option ℤ
  maxScore : Option ℤ
  isPassed : Option Bool
  deriving DecidableEq, Repr

namespace Db

/-- `submission.students_assignment.student_id`. -/
def ownerOf (db : Db) (i : ℕ) : Option ℕ :=
  (db.submissions[i]?).bind fun sub => (db.studentsAssignments[sub.studentsAssignmentId]?).map (·.studentId)

/-- The `student_id` of a re-scored attempt's entry: its submission's owner. -/
def rescoredStudent (db : Db) (e : AttemptRescore) : ℕ := (db.ownerOf e.submissionId).getD 0

end Db

/-- `_push_in_app`. -/
def pushInApp (users : List User) (studentId attemptId : ℕ) (title body : String) : List Notification :=
  match Table.findId (·.studentId == some studentId) users with
  | none => []
  | some userId => [{ userId, title, body, attemptId }]

namespace Db

/-- The turn of the loop of `_notify_students` for a classmate whose result flipped. -/
def classmateNews (db : Db) (users : List User) (questionId : ℕ) (note : String) (e : AttemptRescore) : News where
  inApp := pushInApp users (db.rescoredStudent e) e.attemptId "Your quiz result was recalculated"
    ("A question on your quiz was found to be incorrect and has been credited to everyone who received it. " ++
      "Teacher's note: " ++ note)
  outbox := [{ disputeId := none, attemptId := e.attemptId, questionId, decision := .regraded, note,
               score := some e.score, maxScore := some e.maxScore, isPassed := some e.isPassed }]

/-- `_notify_students`. -/
def notifyStudents (db : Db) (users : List User) (d : ℕ) (dispute : QuizQuestionDispute) (accept : Bool)
    (note : String) (rescored : List AttemptRescore) : News :=
  let reporter := rescored.reverse.find? (·.attemptId == dispute.attemptId)
  let classmates := rescored.filter fun e => !(e.attemptId == dispute.attemptId || !e.flipped)
  let others := classmates.map (db.classmateNews users dispute.questionId note)
  { inApp :=
      (if accept then
        pushInApp users dispute.studentId dispute.attemptId "Your reported question was accepted"
          ("The question was credited to you. Teacher's note: " ++ note)
      else
        pushInApp users dispute.studentId dispute.attemptId "Your reported question was reviewed"
          ("The question stands as written. Teacher's note: " ++ note)) ++ others.flatMap (·.inApp)
    outbox :=
      { disputeId := some d, attemptId := dispute.attemptId, questionId := dispute.questionId,
        decision := if accept then .accept else .reject, note, score := reporter.map (·.score),
        maxScore := reporter.map (·.maxScore), isPassed := reporter.map (·.isPassed) } ::
      others.flatMap (·.outbox) }

/-- The entries `resolve_dispute` hands to `_notify_students`. -/
def rulingRescores (db : Db) (d : ℕ) (dispute : QuizQuestionDispute) (accept : Bool) (note : String) :
    List AttemptRescore :=
  match accept, dispute.pluginConfigId, dispute.pluginConfigVersion with
  | true, some configId, some version =>
    let db₁ := db.setDispute d ({ · with status := .accepted, teacherNote := some note })
    let db₂ := (db₁.addOverride configId version dispute.questionId).closeSiblings configId version
      dispute.questionId note
    (db₂.regradeQuestion configId version dispute.questionId).2
  | _, _, _ => []

/-- `resolve_dispute` up to what it sends. -/
def resolutionNews (db : Db) (users : List User) (d : ℕ) (accept : Bool) (note : String) : News :=
  match db.disputes[d]? with
  | none => {}
  | some dispute => db.notifyStudents users d dispute accept note (db.rulingRescores d dispute accept note)

/-- `execute_quiz_dispute_resolved_task`: `enabled` are the students' preferences, `channels` says that
a dispatcher is configured. -/
def executeQuizDisputeResolved (db : Db) (enabled : ℕ → Bool) (channels : Bool) (p : DisputeResolved) :
    Option DisputeMail :=
  match db.quizAttempts[p.attemptId]? with
  | none => none
  | some attempt =>
    match db.ownerOf attempt.submissionId with
    | none => none
    | some student =>
      if enabled student && channels then
        some { studentId := student, attemptId := p.attemptId, decision := p.decision, note := p.note,
               score := p.score, maxScore := p.maxScore, isPassed := p.isPassed }
      else none

end Db

end SubmissionsChecker
