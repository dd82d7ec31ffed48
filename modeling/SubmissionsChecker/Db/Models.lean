import Mathlib.Data.Finset.Basic
import Mathlib.Data.Rat.Defs
import Mathlib.Tactic.Simps.Basic
import SubmissionsChecker.Core.StateMachine
import SubmissionsChecker.Library.Table

/-! The tables the submission pipeline reads and writes. A row's id is its position in its
table. JSONB columns are records of the keys the modelled code reads; a key that may be
absent is an `Option` and its default stands where the code applies it. -/

namespace SubmissionsChecker

inductive ReviewMode
  | testsOnly | testsThenAi | testsThenTeacher | testsThenAiThenTeacher | testsThenAiTeacher
  | testsThenAiThenQuiz | testsThenQuiz | quizOnly | quizThenTeacher | quizAndTeacherScores
  deriving DecidableEq, Repr

inductive QuestionType
  | singleChoice | multipleChoice | ordering | trueFalse | unsupported
  deriving DecidableEq, Repr

/-- One entry of a config's `quiz.questions`. -/
structure QuestionConfig where
  type : QuestionType := .singleChoice
  points : Option ℤ := none
  required : Bool := false
  timeLimitSeconds : Option ℕ := none
  deriving DecidableEq, Repr

/-- `assignments.<code>.quiz`. -/
structure QuizConfig where
  questions : List QuestionConfig := []
  questionsToSend : Option ℤ := none
  shuffleQuestions : Option Bool := none
  questionTimeDefaultSeconds : Option ℕ := none
  passThresholdPct : Option ℚ := none
  maxQuizAttempts : Option ℤ := none
  deriving DecidableEq, Repr

/-- `assignments.<code>` of a plugin config. -/
structure PluginAssignment where
  reviewMode : Option ReviewMode := none
  quiz : QuizConfig := {}
  deriving DecidableEq, Repr

structure SubjectPluginConfig where
  subjectId : ℕ
  version : ℕ
  assignments : List (String × PluginAssignment)
  deriving DecidableEq, Repr

/-- `config.get("assignments", {}).get(code, {})`. -/
def SubjectPluginConfig.assignment (cfg : SubjectPluginConfig) (code : Option String) :
    PluginAssignment :=
  match code with
  | none => {}
  | some c => (cfg.assignments.lookup c).getD {}

structure Criterion where
  key : String
  title : String
  max : ℤ
  isOptional : Bool
  deriving DecidableEq, Repr

/-- `grading`: the weights of the blended grade and the points of the scored one. -/
structure GradingConfig where
  codeWeight : Option ℚ := none
  quizWeight : Option ℚ := none
  worksWeight : Option ℚ := none
  qualityWeight : Option ℚ := none
  quizPoints : Option ℤ := none
  teacherCriteria : List Criterion := []
  deriving DecidableEq, Repr

inductive LatePolicy
  | block | allow
  deriving DecidableEq, Repr

/-- `subjects_assignments.config`. -/
structure AssignmentConfig where
  reviewMode : Option ReviewMode := none
  latePolicy : Option LatePolicy := none
  maxSubmissions : Option ℕ := none
  grading : GradingConfig := {}
  deriving DecidableEq, Repr

structure Subject where
  squadMaxSize : Option ℕ := none
  deriving DecidableEq, Repr

structure SubjectsAssignment where
  subjectId : ℕ
  code : Option String
  deadline : Option ℕ := none
  minGrade : ℤ := 0
  maxGrade : ℤ := 100
  config : AssignmentConfig := {}
  deriving DecidableEq, Repr

/-- The per-criterion points a teacher typed, by criterion key. -/
abbrev TeacherScores := List (String × ℤ)

structure StudentAssignment where
  studentId : ℕ
  subjectsAssignmentId : ℕ
  grade : Option ℤ := none
  teacherScores : Option TeacherScores := none
  deriving DecidableEq, Repr

/-- A squad with the student ids of its members. -/
structure Squad where
  subjectId : ℕ
  members : List ℕ
  lockedAt : Option ℕ := none
  deriving DecidableEq, Repr

structure SquadInvite where
  squadId : ℕ
  invitedStudentId : ℕ
  invitedByStudentId : Option ℕ
  isPending : Bool
  deriving DecidableEq, Repr

inductive SubmissionSourceType
  | zipUpload | quizOnly
  deriving DecidableEq, Repr

/-- What the checks left in `test_results`: a reason, a score, or the skip of a quiz-first mode. -/
inductive TestResults
  | checkReason (reason : String)
  | tested (passed : Bool) (score maxScore : ℚ) (pluginConfigVersion : ℕ)
  | skipped (reason : ReviewMode)
  deriving DecidableEq, Repr

def TestResults.score : TestResults → Option ℚ
  | .tested _ score _ _ => some score
  | _ => none

def TestResults.maxScore : TestResults → Option ℚ
  | .tested _ _ maxScore _ => some maxScore
  | _ => none

/-- The AI verdict: its code mark when that is a number. -/
structure AiReview where
  codeMark : Option ℚ
  deriving DecidableEq, Repr

/-- The effective inputs of a blended grade. -/
structure BlendedParts where
  worksScore : Option ℚ
  qualityScore : Option ℚ
  quizScore : Option ℚ
  codeWeight : ℚ
  quizWeight : ℚ
  worksWeight : ℚ
  qualityWeight : ℚ
  deriving DecidableEq, Repr

structure CriterionRow where
  key : String
  title : String
  points : ℤ
  max : ℤ
  deriving DecidableEq, Repr

/-- The rows of a `quiz_and_teacher_scores` grade. -/
structure ScoredParts where
  quizPct : ℚ
  quizPoints : ℤ
  quizMax : ℤ
  criteria : List CriterionRow
  deriving DecidableEq, Repr

structure SquadParts where
  squadId : ℕ
  members : List (ℕ × ℚ)
  deriving DecidableEq, Repr

/-- `submissions.grade_breakdown`. -/
structure GradeBreakdown where
  grade : ℤ
  parts : BlendedParts ⊕ ScoredParts
  squad : Option SquadParts := none
  deriving DecidableEq, Repr

/-- `source_metadata["squad_quiz_draw"]`. -/
structure SquadDraw where
  questionIds : List ℕ
  slices : List (List ℕ)
  memberOrder : List ℕ
  deriving DecidableEq, Repr

structure Submission where
  studentsAssignmentId : ℕ
  sourceType : SubmissionSourceType := .zipUpload
  status : SubmissionStatus := .pending
  testResults : Option TestResults := none
  aiReview : Option AiReview := none
  gradeBreakdown : Option GradeBreakdown := none
  pluginConfigId : Option ℕ := none
  squadId : Option ℕ := none
  quizExtraAttempts : List (ℕ × ℕ) := []
  squadQuizDraw : Option SquadDraw := none
  createdAt : ℕ := 0
  deriving DecidableEq, Repr

/-- A question frozen into an attempt; its `id` is its index in the config's list. -/
structure QuestionSnapshot where
  id : ℕ
  type : QuestionType := .singleChoice
  points : ℤ
  isRequired : Bool := false
  timeLimitSeconds : Option ℕ := none
  deriving DecidableEq, Repr

structure ConfigSnapshot where
  passThresholdPct : Option ℚ := none
  reviewMode : Option ReviewMode := none
  maxQuizAttempts : Option ℤ := none
  perQuestionTiming : Bool := false
  deriving DecidableEq, Repr

inductive QuizAttemptStatus
  | inProgress | completed | timedOut | violationFail
  deriving DecidableEq, Repr

/-- `_TERMINAL_STATUSES`. -/
def QuizAttemptStatus.isTerminal : QuizAttemptStatus → Bool
  | .inProgress => false
  | .completed | .timedOut | .violationFail => true

structure QuizAnswer where
  questionId : ℕ
  isCorrect : Option Bool := none
  pointsEarned : Option ℤ := none
  timedOut : Bool := false
  deriving DecidableEq, Repr

structure QuizAttempt where
  submissionId : ℕ
  pluginConfigId : Option ℕ := none
  pluginConfigVersion : Option ℕ := none
  studentId : Option ℕ := none
  questionsSnapshot : List QuestionSnapshot := []
  configSnapshot : ConfigSnapshot := {}
  startedAt : ℕ := 0
  currentIndex : ℕ := 0
  score : Option ℤ := none
  maxScore : Option ℤ := none
  isPassed : Option Bool := none
  forceFail : Bool := false
  status : QuizAttemptStatus := .inProgress
  answers : List QuizAnswer := []
  deriving DecidableEq, Repr

/-- `is_passed IS TRUE`. -/
def QuizAttempt.passed (a : QuizAttempt) : Bool := a.isPassed == some true

inductive QuizDisputeStatus
  | opened | accepted | rejected
  deriving DecidableEq, Repr

structure QuizQuestionDispute where
  attemptId : ℕ
  questionId : ℕ
  studentId : ℕ
  pluginConfigId : Option ℕ
  pluginConfigVersion : Option ℕ
  status : QuizDisputeStatus := .opened
  teacherNote : Option String := none
  deriving DecidableEq, Repr

/-- A credited question of a config version; `credit_all` is true in every row the code writes. -/
structure QuizQuestionOverride where
  pluginConfigId : ℕ
  pluginConfigVersion : ℕ
  questionId : ℕ
  creditAll : Bool := true
  isCredit : creditAll = true := by rfl
  deriving DecidableEq

inductive NextStep
  | completed | quiz | teacher
  deriving DecidableEq, Repr

/-- The outbox events that move a submission. -/
inductive OutboxPayload
  | runChecks (submissionId : ℕ)
  | runAiReview (submissionId : ℕ) (nextStep : Option NextStep)
  deriving DecidableEq, Repr

inductive OutboxMessageState
  | pending | finished | error
  deriving DecidableEq, Repr

structure OutboxMessage where
  payload : OutboxPayload
  state : OutboxMessageState := .pending
  deriving DecidableEq, Repr

structure Db where
  subjects : List Subject := []
  subjectsAssignments : List SubjectsAssignment := []
  pluginConfigs : List SubjectPluginConfig := []
  squads : List Squad := []
  squadInvites : List SquadInvite := []
  /-- `subjects_students`: the enrolments, as (subject, student). -/
  subjectsStudents : Finset (ℕ × ℕ) := ∅
  studentsAssignments : List StudentAssignment := []
  submissions : List Submission := []
  quizAttempts : List QuizAttempt := []
  disputes : List QuizQuestionDispute := []
  overrides : List QuizQuestionOverride := []
  outbox : List OutboxMessage := []
  now : ℕ := 0

/-- What a request or a task can raise. -/
inductive Raised
  | http (status : ℕ) (detail : String)
  | invalidTransition (event : Event) (status : SubmissionStatus)
  | runtime (message : String)
  | quizOpenError (message : String)
  | grantError (message : String)
  | reviewNotAllowed (message : String)
  | aiProvider
  deriving DecidableEq, Repr

/-! ## Updates

Writes to single rows, and the guarded status change of `core/state_machine.py`. -/

namespace Db

@[simps] def setSubmission (db : Db) (i : ℕ) (f : Submission → Submission) : Db :=
  { db with submissions := db.submissions.modify i f }

@[simps] def setAttempt (db : Db) (k : ℕ) (f : QuizAttempt → QuizAttempt) : Db :=
  { db with quizAttempts := db.quizAttempts.modify k f }

@[simps] def setStudentAssignment (db : Db) (i : ℕ) (f : StudentAssignment → StudentAssignment) : Db :=
  { db with studentsAssignments := db.studentsAssignments.modify i f }

@[simps] def setDispute (db : Db) (i : ℕ) (f : QuizQuestionDispute → QuizQuestionDispute) : Db :=
  { db with disputes := db.disputes.modify i f }

@[simps] def setMessage (db : Db) (i : ℕ) (f : OutboxMessage → OutboxMessage) : Db :=
  { db with outbox := db.outbox.modify i f }

@[simps] def addMessage (db : Db) (payload : OutboxPayload) : Db :=
  { db with outbox := db.outbox ++ [{ payload }] }

/-- The status of submission `i`. -/
def status (db : Db) (i : ℕ) : Option SubmissionStatus := (db.submissions[i]?).map (·.status)

/-- `transition(submission, event)`. -/
def transition (db : Db) (i : ℕ) (event : Event) : Except Raised Db :=
  match db.submissions[i]? with
  | none => .error (.http 404 "")
  | some sub =>
    match sub.status.transitions event with
    | none => .error (.invalidTransition event sub.status)
    | some next => .ok (db.setSubmission i ({ · with status := next }))

/-- The assignment a student's row belongs to. -/
def assignmentOf (db : Db) (saId : ℕ) : Option SubjectsAssignment :=
  (db.studentsAssignments[saId]?).bind fun sa => db.subjectsAssignments[sa.subjectsAssignmentId]?

end Db

/-- Only what the update does to the row matters. -/
theorem setAttempt_congr {db : Db} {k : ℕ} {a : QuizAttempt} {f g : QuizAttempt → QuizAttempt}
    (ha : db.quizAttempts[k]? = some a) (h : f a = g a) : db.setAttempt k f = db.setAttempt k g := by
  have hrows : db.quizAttempts.modify k f = db.quizAttempts.modify k g := by
    apply List.ext_getElem?
    intro j
    rw [List.getElem?_modify, List.getElem?_modify]
    split_ifs with hj
    · rw [← hj, ha]; exact congrArg some h
    · rfl
  simp only [Db.setAttempt, hrows]

theorem transition_ok {db db' : Db} {i : ℕ} {event : Event} (h : db.transition i event = .ok db') :
    ∃ s next, db.status i = some s ∧ s.transitions event = some next ∧
      db' = db.setSubmission i ({ · with status := next }) := by
  unfold Db.transition at h
  split at h
  · cases h
  · rename_i sub hsub
    split at h
    · cases h
    · rename_i next hnext
      cases h
      exact ⟨sub.status, next, by simp [Db.status, hsub], hnext, rfl⟩

theorem transition_of_status {db : Db} {i : ℕ} {event : Event} {s next : SubmissionStatus}
    (hs : db.status i = some s) (hn : s.transitions event = some next) :
    db.transition i event = .ok (db.setSubmission i ({ · with status := next })) := by
  unfold Db.status at hs
  cases hsub : db.submissions[i]? with
  | none => simp [hsub] at hs
  | some sub =>
    rw [hsub, Option.map_some, Option.some_inj] at hs
    simp [Db.transition, hsub, hs, hn]

theorem status_setSubmission_status {db : Db} {i : ℕ} {next : SubmissionStatus} {s : SubmissionStatus}
    (h : db.status i = some s) : (db.setSubmission i ({ · with status := next })).status i = some next := by
  unfold Db.status at h ⊢
  cases hsub : db.submissions[i]? with
  | none => simp [hsub] at h
  | some sub => simp [hsub]

theorem status_setSubmission_ne {db : Db} {i j : ℕ} (f : Submission → Submission) (h : i ≠ j) :
    (db.setSubmission i f).status j = db.status j := by
  simp [Db.status, Table.getElem?_modify_ne f h]

end SubmissionsChecker
