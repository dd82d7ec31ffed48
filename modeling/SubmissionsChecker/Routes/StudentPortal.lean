import SubmissionsChecker.Workers.CheckTasks

/-! `api/routes/student_portal.py`: uploading a submission. -/

namespace SubmissionsChecker

namespace Db

/-- The late-submission rule of `submit_assignment`. -/
def refusesLate (db : Db) (asg : SubjectsAssignment) : Bool :=
  asg.deadline.any (· < db.now) && asg.config.latePolicy.getD .block == .block

/-- The rows whose earlier submissions count against an upload: the student's own, or the squad's. -/
def uploadScope (db : Db) (saId asgId : ℕ) (squad : Option ℕ) : Db × List ℕ :=
  match squad.bind (db.squads[·]?) with
  | none => (db, [saId])
  | some s => db.memberSaIds s.members asgId

/-- `submit_assignment`. `isZip` and `size` describe the uploaded file. -/
def submitAssignment (db : Db) (saId studentId : ℕ) (isZip : Bool) (size : ℕ) (check : CheckResult) :
    Except Raised Db :=
  match db.studentsAssignments[saId]? with
  | none => .error (.http 404 "")
  | some sa =>
    if sa.studentId ≠ studentId then .error (.http 404 "")
    else
      match db.subjectsAssignments[sa.subjectsAssignmentId]? with
      | none => .error (.http 404 "")
      | some asg =>
        if asg.config.isScoredMode then
          .error (.http 409 "This assignment takes no upload; open the quiz instead.")
        else if db.refusesLate asg then
          .error (.http 403 "The submission deadline has passed. Late submissions are not accepted.")
        else do
          let squad ← db.squadForUpload asg.subjectId studentId
            (.http 409 "Squad invitation pending; answer or cancel it before submitting.")
          let (db₁, scope) := db.uploadScope saId sa.subjectsAssignmentId squad
          let earlier := db₁.submissionsIn scope
          if earlier.any (fun i => db₁.status i == some .completed) then
            .error (.http 403 "Assignment already passed. No further submissions accepted.")
          else if asg.config.maxSubmissions.any (· ≤ earlier.length) then
            .error (.http 403 s!"Maximum number of submissions ({asg.config.maxSubmissions.getD 0}) reached.")
          else if !isZip then .error (.http 400 "Only ZIP files are accepted")
          else if 50 * 1024 * 1024 < size then .error (.http 413 "ZIP file too large (max 50 MB)")
          else
            let i := db₁.submissions.length
            let db₂ := db₁.addSubmission
              { studentsAssignmentId := saId, squadId := squad, createdAt := db₁.now }
            if db₂.isQuizFirstAssignment asg.subjectId asg.code then
              match db₂.executeCheck i check with
              | (db₃, none) => .ok db₃
              | (_, some e) => .error e
            else .ok (db₂.addMessage (.runChecks i))

end Db

end SubmissionsChecker
