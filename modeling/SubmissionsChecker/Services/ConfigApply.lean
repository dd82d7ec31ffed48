import Mathlib.Data.Finset.Sort
import SubmissionsChecker.Services.QuizOpen
import SubmissionsChecker.Services.TeacherScores

/-! `services/config_apply.py`: applying a new `config.yml` to a subject. The plan is computed
against the stored config, as the service does, and only what it lists is written. -/

namespace SubmissionsChecker

/-- `assignments.<code>` of a `config.yml`, the deadline parsed. -/
structure AssignmentBlock where
  deadline : Option ℕ := none
  minGrade : Option ℤ := none
  maxGrade : Option ℤ := none
  /-- The keys `_build_assignment_config` copies. -/
  config : AssignmentConfig := {}
  quiz : QuizConfig := {}
  deriving DecidableEq, Repr

/-- `squads`; the size is `none` when it is not an integer. -/
structure SquadsBlock where
  maxAllowedSize : Option ℤ
  deriving DecidableEq, Repr

structure SubjectConfig where
  squads : Option SquadsBlock := none
  assignments : List (String × AssignmentBlock) := []
  codes : (assignments.map (·.1)).Nodup := by decide
  deriving DecidableEq

namespace SubjectConfig

/-- `_parse_squad_max_size`. -/
def parseSquadMaxSize (cfg : SubjectConfig) : Except String (Option ℕ) :=
  match cfg.squads with
  | none => .ok none
  | some block =>
    match block.maxAllowedSize.filter fun size => decide (2 ≤ size ∧ size ≤ 6) with
    | some size => .ok (some size.toNat)
    | none => .error "squads.maxAllowedSize must be an integer between 2 and 6"

/-- `_validate_quiz_questions`. -/
def validateQuizQuestions (cfg : SubjectConfig) : Except String Unit :=
  if cfg.assignments.any fun a => a.2.quiz.questions.any (·.type == .unsupported) then
    .error "question type is not supported"
  else .ok ()

/-- What `subject_plugin_configs.config` keeps for the checks and the quizzes. -/
def stored (cfg : SubjectConfig) : List (String × PluginAssignment) :=
  cfg.assignments.map fun a => (a.1, { reviewMode := a.2.config.reviewMode, quiz := a.2.quiz })

/-- `assignments_to_create`. -/
def toCreate (cfg prev : SubjectConfig) : List (String × AssignmentBlock) :=
  cfg.assignments.filter fun a => (prev.assignments.lookup a.1).isNone

/-- `assignments_to_update`, with the block each is compared to. -/
def toUpdate (cfg prev : SubjectConfig) : List (String × AssignmentBlock × AssignmentBlock) :=
  cfg.assignments.filterMap fun a => (prev.assignments.lookup a.1).map (a.1, a.2, ·)

/-- `assignments_to_delete`. -/
def toDelete (cfg prev : SubjectConfig) : List String :=
  (prev.assignments.map (·.1)).filter fun code => (cfg.assignments.lookup code).isNone

end SubjectConfig

/-- `_apply_assignment_fields` for the fields `_diff_assignment` found changed. -/
def SubjectsAssignment.applyFields (asg : SubjectsAssignment) (new prev : AssignmentBlock) : SubjectsAssignment :=
  { asg with
    deadline := if new.deadline = prev.deadline then asg.deadline else new.deadline
    minGrade := if new.minGrade = prev.minGrade then asg.minGrade else new.minGrade.getD 0
    maxGrade := if new.maxGrade = prev.maxGrade then asg.maxGrade else new.maxGrade.getD 100
    config := if new.config = prev.config then asg.config else new.config }

namespace Db

/-- The assignment of the subject with this code. -/
def assignmentWithCode (db : Db) (subjectId : ℕ) (code : String) : Option ℕ :=
  Table.findId (fun a => a.subjectId == subjectId && a.code == some code) db.subjectsAssignments

/-- The students enrolled in the subject. -/
def enrolledIn (db : Db) (subjectId : ℕ) : List ℕ :=
  ((db.subjectsStudents.filter (·.1 = subjectId)).image (·.2)).sort (· ≤ ·)

/-- `_create_assignment`, with a row for every enrolled student; the id is new, so none has one. -/
def createAssignment (db : Db) (subjectId : ℕ) (code : String) (block : AssignmentBlock) : Db :=
  let asgId := db.subjectsAssignments.length
  (db.enrolledIn subjectId).foldl (fun db t => (db.ensureSa t asgId).1)
    { db with subjectsAssignments := db.subjectsAssignments ++
        [{ subjectId, code := some code, deadline := block.deadline, minGrade := block.minGrade.getD 0,
           maxGrade := block.maxGrade.getD 100, config := block.config }] }

def setAssignment (db : Db) (asgId : Option ℕ) (f : SubjectsAssignment → SubjectsAssignment) : Db :=
  match asgId with
  | none => db
  | some i => { db with subjectsAssignments := db.subjectsAssignments.modify i f }

/-- `db.delete(doomed)`. Its rows go with it: it is left to no subject, where nothing finds them. In the database the
foreign key of `students_assignments` refuses to delete an assignment that has rows, and that apply fails as a whole;
the failure is not modelled. -/
def deleteAssignment (db : Db) (subjectId : ℕ) (code : String) : Db :=
  db.setAssignment (db.assignmentWithCode subjectId code) ({ · with subjectId := db.subjects.length })

/-- `_next_version`. -/
def nextVersion (db : Db) (subjectId : ℕ) : ℕ :=
  ((db.pluginConfigs.filter (·.subjectId == subjectId)).map (·.version)).foldl max 0 + 1

/-- `_execute_plan` on an existing subject, from the config it was given last. -/
def executePlan (db : Db) (subjectId : ℕ) (cfg prev : SubjectConfig) (squadMaxSize : Option ℕ) : Db :=
  let db₁ := { db with subjects := db.subjects.modify subjectId ({ · with squadMaxSize }) }
  let db₂ := (cfg.toCreate prev).foldl (fun db a => db.createAssignment subjectId a.1 a.2) db₁
  let db₃ := (cfg.toUpdate prev).foldl
    (fun db a => db.setAssignment (db.assignmentWithCode subjectId a.1) (·.applyFields a.2.1 a.2.2)) db₂
  let db₄ := (cfg.toDelete prev).foldl (fun db code => db.deleteAssignment subjectId code) db₃
  { db₄ with pluginConfigs := db₄.pluginConfigs ++
      [{ subjectId, version := db₄.nextVersion subjectId, assignments := cfg.stored }] }

/-- `apply`. -/
def applyConfig (db : Db) (subjectId : ℕ) (cfg prev : SubjectConfig) : Except String Db :=
  if subjectId < db.subjects.length then do
    cfg.validateQuizQuestions
    let squadMaxSize ← cfg.parseSquadMaxSize
    .ok (db.executePlan subjectId cfg prev squadMaxSize)
  else .error "Subject not found"

end Db

/-! ## Validation

`validate_assignment` of `services/teacher_scores.py`: a scored assignment is accepted only when its
points add up to its grade range. -/

/-- `_KEY_RE`; the `$` of the pattern lets one line break at the end pass. -/
def isCriterionKey (key : String) : Bool :=
  let chars := key.toList
  let word := if chars.getLast? = some '\n' then chars.dropLast else chars
  !word.isEmpty && word.all fun c => c.isLower || c.isDigit || c == '_'

/-- One turn of the loop over the criteria, with the keys seen and the sum of the maxima. -/
def validateCriterion (place : String) (acc : List String × ℤ) (c : Criterion) : Except String (List String × ℤ) :=
  if !isCriterionKey c.key then .error s!"{place}: criterion key '{c.key}' must match [a-z0-9_]+"
  else if acc.1.contains c.key then .error s!"{place}: duplicate criterion key '{c.key}'"
  else if c.max ≤ 0 then .error s!"{place}: criterion '{c.key}' max must be a positive integer"
  else .ok (c.key :: acc.1, acc.2 + c.max)

/-- `validate_assignment`. -/
def AssignmentBlock.validate (code : String) (block : AssignmentBlock) : Except String Unit :=
  let place := s!"assignment '{code}' (quiz_and_teacher_scores)"
  if block.quiz.questions = [] then .error s!"{place} needs a quiz with questions"
  else
    match block.config.grading.quizPoints.filter fun points => decide (0 ≤ points) with
    | none => .error s!"{place}: grading.quiz_points must be a non-negative integer"
    | some quizPoints =>
      if block.config.grading.teacherCriteria = [] then
        .error s!"{place}: grading.teacher_criteria must list at least one criterion"
      else do
        let (_, total) ← block.config.grading.teacherCriteria.foldlM (validateCriterion place) ([], 0)
        let span := block.maxGrade.getD 100 - block.minGrade.getD 0
        if quizPoints + total ≠ span then
          .error (s!"{place}: quiz_points + criteria max ({quizPoints} + {total}) must equal " ++
            s!"max_grade - min_grade ({span})")
        else .ok ()

/-- `_validate_teacher_scores`. -/
def SubjectConfig.validateTeacherScores (cfg : SubjectConfig) : Except String Unit :=
  forM cfg.assignments fun a => if a.2.config.isScoredMode then a.2.validate a.1 else .ok ()

/-- The points of a scored assignment add up to its grade range. -/
structure PointsAddUp (grading : GradingConfig) (minGrade maxGrade : ℤ) : Prop where
  quiz : 0 ≤ grading.quizPoints.getD 0
  maxima : ∀ c ∈ grading.teacherCriteria, 0 < c.max
  keys : (grading.teacherCriteria.map (·.key)).Nodup
  sum : grading.quizPoints.getD 0 + (grading.teacherCriteria.map (·.max)).sum = maxGrade - minGrade

section

variable {place code : String} {crits : List Criterion} {block : AssignmentBlock}

/-- The loop from any point: the new keys are distinct and unseen, and the maxima positive. -/
theorem foldlM_validateCriterion {seen seen' : List String} {total total' : ℤ}
    (h : crits.foldlM (validateCriterion place) (seen, total) = .ok (seen', total')) :
    (∀ c ∈ crits, 0 < c.max ∧ c.key ∉ seen) ∧ (crits.map (·.key)).Nodup ∧
      total' = total + (crits.map (·.max)).sum := by
  induction crits generalizing seen total with
  | nil =>
    cases h
    simp
  | cons c crits ih =>
    rw [List.foldlM_cons] at h
    rcases hc : validateCriterion place (seen, total) c with e | acc
    · rw [hc] at h
      cases h
    · rw [hc] at h
      unfold validateCriterion at hc
      split_ifs at hc with hkey hseen hmax
      cases hc
      obtain ⟨hrest, hnodup, htotal⟩ := ih h
      rw [List.contains_iff_mem] at hseen
      refine ⟨?_, ?_, ?_⟩
      · intro c' hc'
        rcases List.mem_cons.mp hc' with rfl | hc'
        · exact ⟨not_le.mp hmax, hseen⟩
        · exact ⟨(hrest c' hc').1, fun hin => (hrest c' hc').2 (List.mem_cons_of_mem _ hin)⟩
      · rw [List.map_cons, List.nodup_cons]
        refine ⟨fun hin => ?_, hnodup⟩
        obtain ⟨c', hc', hk⟩ := List.mem_map.mp hin
        exact (hrest c' hc').2 (hk ▸ List.mem_cons_self)
      · rw [htotal, List.map_cons, List.sum_cons]
        omega

/-- What is accepted adds up. -/
theorem AssignmentBlock.pointsAddUp (h : block.validate code = .ok ()) :
    PointsAddUp block.config.grading (block.minGrade.getD 0) (block.maxGrade.getD 100) := by
  unfold AssignmentBlock.validate at h
  dsimp only at h
  rw [ite_eq_iff] at h
  rcases h with ⟨-, h⟩ | ⟨-, h⟩
  · cases h
  split at h
  · cases h
  · rename_i points hpoints
    rw [ite_eq_iff] at h
    rcases h with ⟨-, h⟩ | ⟨-, h⟩
    · cases h
    rcases hloop : block.config.grading.teacherCriteria.foldlM
        (validateCriterion s!"assignment '{code}' (quiz_and_teacher_scores)") ([], 0) with e | ⟨seen, total⟩
    · rw [hloop] at h
      cases h
    · rw [hloop] at h
      change (if points + total ≠ _ then _ else _) = _ at h
      split_ifs at h with hspan
      obtain ⟨hcrits, hnodup, rfl⟩ := foldlM_validateCriterion hloop
      obtain ⟨hsome, hpos⟩ := Option.filter_eq_some_iff.mp hpoints
      rw [decide_eq_true_eq] at hpos
      refine ⟨by rw [hsome]; exact hpos, fun c hc => (hcrits c hc).1, hnodup, ?_⟩
      rw [hsome, Option.getD_some]
      omega

theorem validateTeacherScores_mem {cfg : SubjectConfig} (h : cfg.validateTeacherScores = .ok ()) {a : String × AssignmentBlock}
    (ha : a ∈ cfg.assignments) (hscored : a.2.config.isScoredMode = true) : a.2.validate a.1 = .ok () := by
  unfold SubjectConfig.validateTeacherScores at h
  revert h ha
  induction cfg.assignments with
  | nil => simp
  | cons b rest ih =>
    intro h ha
    rw [List.forM_cons] at h
    rcases hb : (if b.2.config.isScoredMode then b.2.validate b.1 else .ok ()) with e | u
    · rw [hb] at h
      cases h
    · rw [hb] at h
      rcases List.mem_cons.mp ha with rfl | ha
      · rw [if_pos hscored] at hb
        exact hb
      · exact ih h ha

end

end SubmissionsChecker
