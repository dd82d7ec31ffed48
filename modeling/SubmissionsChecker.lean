import SubmissionsChecker.Library.Runs
import SubmissionsChecker.Library.Table
import SubmissionsChecker.Library.Assoc
import SubmissionsChecker.Library.ReadCommitted
import SubmissionsChecker.Library.Rounding
import SubmissionsChecker.Library.WeightedMean
import SubmissionsChecker.Core.StateMachine
import SubmissionsChecker.Db.Models
import SubmissionsChecker.Services.QuizScoring
import SubmissionsChecker.Services.TeacherScores
import SubmissionsChecker.Services.Grading
import SubmissionsChecker.Services.Squads
import SubmissionsChecker.Services.QuizOpen
import SubmissionsChecker.Services.QuizGrants
import SubmissionsChecker.Services.QuizRegrade
import SubmissionsChecker.Routes.StudentQuiz
import SubmissionsChecker.Workers.CheckTasks
import SubmissionsChecker.Routes.StudentPortal
import SubmissionsChecker.Routes.TeacherPortal
import SubmissionsChecker.System
import SubmissionsChecker.Effects.Within
import SubmissionsChecker.Effects.Attempts
import SubmissionsChecker.Effects.Rulings
import SubmissionsChecker.Effects.Confined
import SubmissionsChecker.Properties.FinishAndRuling
import SubmissionsChecker.Properties.RulingScope
import SubmissionsChecker.Effects.Evolves
import SubmissionsChecker.Effects.Tasks
import SubmissionsChecker.Effects.NewWork
import SubmissionsChecker.Effects.Decisions
import SubmissionsChecker.Effects.Steps
import SubmissionsChecker.Effects.Moves
import SubmissionsChecker.Effects.Breakdowns
import SubmissionsChecker.Effects.Passes
import SubmissionsChecker.Invariants.Setup
import SubmissionsChecker.Invariants.Submissions
import SubmissionsChecker.Invariants.NewSubmissions
import SubmissionsChecker.Invariants.Attempts
import SubmissionsChecker.Invariants.Reachable
import SubmissionsChecker.Properties.SquadGate
import SubmissionsChecker.Properties.StuckQuiz
import SubmissionsChecker.Properties.RegradeNews
import SubmissionsChecker.Properties.Rejection
import SubmissionsChecker.Invariants.Scopes
import SubmissionsChecker.Sessions.Rows
import SubmissionsChecker.Sessions.Reports
import SubmissionsChecker.Sessions.Starts
import SubmissionsChecker.Sessions.StartCommits
import SubmissionsChecker.Sessions.Uploads
import SubmissionsChecker.Properties.LostViolations
import SubmissionsChecker.Properties.LostGrants
import SubmissionsChecker.Properties.LiveSubmissions
import SubmissionsChecker.Properties.UploadLimit
import SubmissionsChecker.Services.SquadFormation
import SubmissionsChecker.Services.ConfigApply
import SubmissionsChecker.Portal
import SubmissionsChecker.Invariants.Formation
import SubmissionsChecker.Effects.SquadRequests
import SubmissionsChecker.Effects.Settles
import SubmissionsChecker.Effects.Configures
import SubmissionsChecker.Properties.SquadFormation
import SubmissionsChecker.Properties.SquadWork
import SubmissionsChecker.Sessions.Formation
import SubmissionsChecker.Sessions.Openings
import SubmissionsChecker.Properties.SoloWork
import SubmissionsChecker.Sessions.Finishes
import SubmissionsChecker.Properties.AttemptAllowance
import SubmissionsChecker.Core.Yaml
import SubmissionsChecker.Library.Paths
import SubmissionsChecker.Services.ConfigPlan
import SubmissionsChecker.Services.ConfigExecute
import SubmissionsChecker.Effects.Applies
import SubmissionsChecker.Properties.ConfigMirror
import SubmissionsChecker.Properties.PublishedFiles
import SubmissionsChecker.Properties.FailedApply
import SubmissionsChecker.Library.PooledSession
import SubmissionsChecker.Workers.ScheduledJobs
import SubmissionsChecker.Properties.AdvisoryLocks
import SubmissionsChecker.Workers.OutboxProcessor
import SubmissionsChecker.Properties.OutboxIsolation
import SubmissionsChecker.Workers.CheckFaults
import SubmissionsChecker.Effects.Standings
import SubmissionsChecker.Properties.CheckRetry
import SubmissionsChecker.Effects.DeskRequests
import SubmissionsChecker.Properties.TeacherIsolation
import SubmissionsChecker.Properties.OneView
import SubmissionsChecker.Invariants.Answers
import SubmissionsChecker.Properties.AnswersOnce
import SubmissionsChecker.Sessions.SyncRuns
import SubmissionsChecker.Properties.OneSync
import SubmissionsChecker.Effects.AttemptRows
import SubmissionsChecker.Routes.AirRaid
import SubmissionsChecker.Properties.Pauses
import SubmissionsChecker.Effects.GradeNow
import SubmissionsChecker.Effects.GradeSteps
import SubmissionsChecker.Effects.BothHalves
import SubmissionsChecker.Effects.AppliedConfigs
import SubmissionsChecker.Effects.RowPoints
import SubmissionsChecker.Invariants.PortalWork
import SubmissionsChecker.Properties.GradedWork
import SubmissionsChecker.Properties.ScoredGrades
import SubmissionsChecker.Routes.Auth
import SubmissionsChecker.Properties.PasswordChanges
import SubmissionsChecker.Library.Deal
import SubmissionsChecker.Effects.SquadDraws
import SubmissionsChecker.Invariants.Draws
import SubmissionsChecker.Properties.SquadDraws
import SubmissionsChecker.Properties.PassableDraws
import SubmissionsChecker.Properties.NextStarts
import SubmissionsChecker.Properties.GrantedAttempts
import SubmissionsChecker.Properties.FairDraws
import SubmissionsChecker.Properties.BlendedGrade
import SubmissionsChecker.Invariants.EarnedPoints
import SubmissionsChecker.Properties.ScoreRange
import SubmissionsChecker.Library.Reorder
import SubmissionsChecker.Routes.QuizOptions
import SubmissionsChecker.Properties.ShuffledOptions
import SubmissionsChecker.Library.Settle
import SubmissionsChecker.Routes.QuizClock
import SubmissionsChecker.Invariants.QuizClock
import SubmissionsChecker.Properties.StepperBooks
import SubmissionsChecker.Properties.QuestionPenalties
import SubmissionsChecker.Properties.PausedClock
import SubmissionsChecker.Properties.Enforcement
import SubmissionsChecker.Properties.RuleCrossings
import SubmissionsChecker.Properties.TimeLimit
import SubmissionsChecker.Invariants.SquadInvites
import SubmissionsChecker.Properties.InviteSettlement
import SubmissionsChecker.Routes.Enrolment
import SubmissionsChecker.Invariants.Enrolment
import SubmissionsChecker.Properties.AssignmentRows
import SubmissionsChecker.Library.BestOf
import SubmissionsChecker.Properties.SquadShare
import SubmissionsChecker.Library.Loops
import SubmissionsChecker.Library.PyText
import SubmissionsChecker.Services.ScoreForm
import SubmissionsChecker.Properties.ScoreForm
import SubmissionsChecker.Services.ClassroomMatching
import SubmissionsChecker.Properties.CourseworkSuggestions
import SubmissionsChecker.Library.Leader
import SubmissionsChecker.Properties.RosterMatching
import SubmissionsChecker.Library.Binary64
import SubmissionsChecker.Library.FloatSum
import SubmissionsChecker.Library.Json
import SubmissionsChecker.Services.QuizEvents
import SubmissionsChecker.Properties.EventContext
import SubmissionsChecker.Library.PyNumber
import SubmissionsChecker.Services.CheckPlan
import SubmissionsChecker.Core.RateLimit
import SubmissionsChecker.Properties.LoginThrottle
import SubmissionsChecker.Library.CyclicParity
import SubmissionsChecker.Services.AirRaidGeo
import SubmissionsChecker.Properties.RayCasting
import SubmissionsChecker.Services.SquadEligibility
import SubmissionsChecker.Properties.EligibleClassmates
import SubmissionsChecker.Properties.SyncProgress
import SubmissionsChecker.Properties.PluginCache
import SubmissionsChecker.Properties.WorkManifest
import SubmissionsChecker.Properties.SandboxBounds
import SubmissionsChecker.Properties.PlanResolution
import SubmissionsChecker.Properties.Multipart
import SubmissionsChecker.Db.Classroom
import SubmissionsChecker.Services.ClassroomIngest
import SubmissionsChecker.Services.LlmRunner
import SubmissionsChecker.Routes.TeacherClassroom
import SubmissionsChecker.Workers.ClassroomNightly
import SubmissionsChecker.Effects.Gradings
import SubmissionsChecker.Properties.GradingNight
import SubmissionsChecker.Properties.GradingLife
import SubmissionsChecker.Properties.ClassroomLinks
import SubmissionsChecker.Properties.OblastBoundaries
import SubmissionsChecker.Workers.TeacherDigests
import SubmissionsChecker.Properties.TeacherDigests
import SubmissionsChecker.Properties.CourseworkLinks
import SubmissionsChecker.Workers.DeadlineReminders
import SubmissionsChecker.Properties.DeadlineReminders
