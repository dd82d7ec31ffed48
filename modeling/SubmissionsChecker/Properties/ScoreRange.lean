import SubmissionsChecker.Invariants.EarnedPoints
import SubmissionsChecker.Properties.AnswersOnce
import SubmissionsChecker.Properties.SquadDraws

/-! The score of an attempt stays between nothing and what its questions are worth, whatever is posted and whatever
is credited, exactly when no drawn question is worth less than nothing. -/

namespace SubmissionsChecker

/-- The questions an attempt can be given: a draw of its own, the slice of a squad's draw, or a retry of the slice. -/
inductive QuizConfig.Drawn (quiz : QuizConfig) : List QuestionSnapshot → Prop
  | alone (rnd : Shuffles) : Drawn quiz (snapshotQuestions quiz (selectQuestionIds quiz rnd))
  | member (draw : SquadDraw) (t : ℕ) (retry : Bool) (rnd : Shuffles)
      (hdraw : ∃ quiz' rnd' n, draw.slices = splitDraw (snapshotQuestions quiz' (selectQuestionIds quiz' rnd')) n) :
      Drawn quiz (snapshotQuestions (draw.drawIds quiz t retry rnd).1 (draw.drawIds quiz t retry rnd).2)

/-- The running attempt `a`, after any requests that did not end it and any violations. -/
inductive QuizAttempt.Sitting (a₀ : QuizAttempt) : QuizAttempt → Prop
  | start : Sitting a₀ a₀
  | posted {a : QuizAttempt} (post : QuizPost) (h : Sitting a₀ a) (hrun : (post.edit a).2 = none) : Sitting a₀ (post.edit a).1
  | violated {a : QuizAttempt} (h : Sitting a₀ a) : Sitting a₀ { a with forceFail := true }

/-- The attempt as the request that ended it left the answers, with any questions credited since. -/
inductive QuizAttempt.Ended (a₀ : QuizAttempt) : QuizAttempt → Prop
  | posted {a : QuizAttempt} (post : QuizPost) (h : a₀.Sitting a) (hend : (post.edit a).2.isSome = true) :
      Ended a₀ (post.edit a).1
  | credited {a : QuizAttempt} (overrides : Finset ℕ) (h : Ended a₀ a) : Ended a₀ (a.applyOverrides overrides)

/-- The score is in range, also as the finished row stores it; credit only raises it, and once; a forced failure
does not pass. -/
structure QuizAttempt.ScoreSound (a : QuizAttempt) : Prop where
  nonneg : 0 ≤ a.scoreAttempt.score
  leMax : a.scoreAttempt.score ≤ a.scoreAttempt.maxScore
  stored : ∀ (db : Db) status, (db.finishedAttempt a status).ScoreFits
  raised : ∀ overrides, a.scoreAttempt.score ≤ (a.applyOverrides overrides).scoreAttempt.score
  again : ∀ overrides, (a.applyOverrides overrides).applyOverrides overrides = a.applyOverrides overrides
  failed : a.forceFail = true → a.scoreAttempt.isPassed = false

def QuizAttempt.ScoresSound (a₀ : QuizAttempt) : Prop := ∀ a, a₀.Ended a → a.ScoreSound

section

variable {quiz : QuizConfig} {questions : List QuestionSnapshot} {a₀ a : QuizAttempt}

theorem QuizConfig.Drawn.nodup (h : quiz.Drawn questions) : (questions.map (·.id)).Nodup := by
  cases h with
  | alone rnd => exact nodup_snapshotQuestions (nodup_selectQuestionIds quiz rnd)
  | member draw t retry rnd hdraw =>
    obtain ⟨quiz', rnd', n, hslices⟩ := hdraw
    refine nodup_snapshotQuestions (SquadDraw.nodup_drawIds (fun slice hslice => ?_) quiz t retry rnd)
    rw [hslices] at hslice
    exact nodup_splitDraw (nodup_snapshotQuestions (nodup_selectQuestionIds quiz' rnd')) n slice hslice

/-- A running attempt keeps its questions, answers each once and earns what they are worth. -/
theorem QuizAttempt.Sitting.keeps (hstart : a₀.Tidy) (hrun : a₀.status = .inProgress) (hearned : a₀.Earned)
    (h : a₀.Sitting a) : a.Tidy ∧ a.Earned ∧ a.status = .inProgress ∧ a.questionsSnapshot = a₀.questionsSnapshot := by
  induction h with
  | start => exact ⟨hstart, hearned, hrun, rfl⟩
  | @posted a post _ hnone ih =>
    obtain ⟨htidy, hearned, hrun, hsnap⟩ := ih
    obtain ⟨hedited, -, hstep⟩ := htidy.edit hrun post
    have hquestions : (post.edit a).1.questionsSnapshot = a.questionsSnapshot := by rw [hedited]
    refine ⟨tidy_of_inStep (by rw [hquestions]; exact htidy.drawn) (hstep hnone), hearned.edit post, ?_, hquestions.trans hsnap⟩
    rw [hedited]
    exact hrun
  | violated _ ih =>
    obtain ⟨htidy, hearned, hrun, hsnap⟩ := ih
    exact ⟨⟨htidy.drawn, htidy.answered, htidy.running⟩, hearned, hrun, hsnap⟩

theorem QuizAttempt.Ended.keeps (hstart : a₀.Tidy) (hrun : a₀.status = .inProgress) (hearned : a₀.Earned) (h : a₀.Ended a) :
    (a.answers.map (·.questionId)).Nodup ∧ a.Earned ∧ a.questionsSnapshot = a₀.questionsSnapshot := by
  induction h with
  | @posted a post h _ =>
    obtain ⟨htidy, hearned, hrun, hsnap⟩ := h.keeps hstart hrun hearned
    obtain ⟨hedited, hanswered, -⟩ := htidy.edit hrun post
    refine ⟨hanswered, hearned.edit post, ?_⟩
    rw [hedited]
    exact hsnap
  | credited overrides _ ih =>
    obtain ⟨hanswered, hearned, hsnap⟩ := ih
    refine ⟨nodup_applyOverrides ?_ hanswered overrides, hearned.applyOverrides overrides, hsnap⟩
    rw [hsnap]
    exact hstart.drawn

/-- With no question below nothing the score is sound. -/
theorem scoreSound_of_points (hdrawn : (a.questionsSnapshot.map (·.id)).Nodup) (hanswered : (a.answers.map (·.questionId)).Nodup)
    (hearned : a.Earned) (hpoints : ∀ q ∈ a.questionsSnapshot, 0 ≤ q.points) : a.ScoreSound where
  nonneg := by
    rw [scoreAttempt_score]
    exact pointsTotal_nonneg hpoints hearned
  leMax := by
    rw [scoreAttempt_score, scoreAttempt_maxScore]
    exact pointsTotal_le_sum hdrawn hanswered hpoints hearned
  stored db status := by
    intro s m hs hm
    have hscore := Option.some.inj hs
    have hmax := Option.some.inj hm
    rw [scoreAttempt_score] at hscore
    rw [scoreAttempt_maxScore] at hmax
    subst hscore hmax
    have hcredited := hearned.applyOverrides (db.loadQuestionOverrides a.pluginConfigId a.pluginConfigVersion)
    exact ⟨pointsTotal_nonneg hpoints hcredited,
      pointsTotal_le_sum hdrawn (nodup_applyOverrides hdrawn hanswered _) hpoints hcredited⟩
  raised overrides := by
    rw [scoreAttempt_score, scoreAttempt_score]
    exact pointsTotal_le_applyOverrides hdrawn hpoints hearned overrides
  again overrides := applyOverrides_again hdrawn overrides
  failed := scoreAttempt_of_forceFail

/-- The questions that are worth something or nothing, all of them credited. -/
def worthy (questions : List QuestionSnapshot) : Finset ℕ := ((questions.filter fun q => 0 ≤ q.points).map (·.id)).toFinset

theorem filter_worthy (hdrawn : (questions.map (·.id)).Nodup) :
    questions.filter (·.id ∈ worthy questions) = questions.filter fun q => 0 ≤ q.points := by
  refine List.filter_congr fun q hq => ?_
  have hiff : q.id ∈ worthy questions ↔ 0 ≤ q.points := by
    rw [worthy, List.mem_toFinset, List.mem_map]
    constructor
    · rintro ⟨q', hq', hid⟩
      obtain ⟨hmem, hworth⟩ := List.mem_filter.mp hq'
      rw [← List.inj_on_of_nodup_map hdrawn hmem hq hid]
      exact of_decide_eq_true hworth
    · exact fun hworth => ⟨q, List.mem_filter.mpr ⟨hq, decide_eq_true hworth⟩, rfl⟩
  exact decide_eq_decide.mpr hiff

/-- Credit on an attempt without answers creates the rows. -/
theorem foldl_created (questions : List QuestionSnapshot) : ∀ answers : List QuizAnswer,
    questions.foldl (creditQuestion []) answers = answers ++ questions.map QuizAnswer.created := by
  induction questions with
  | nil => exact fun answers => (List.append_nil answers).symm
  | cons q questions ih =>
    intro answers
    have hnew : creditQuestion [] answers q = answers ++ [QuizAnswer.created q] := if_neg List.not_mem_nil
    rw [List.foldl_cons, hnew, ih, List.append_assoc, List.map_cons, List.singleton_append]

theorem pointsTotal_created (questions : List QuestionSnapshot) :
    pointsTotal (questions.map QuizAnswer.created) = (questions.map (·.points)).sum := by
  rw [pointsTotal, List.map_map]
  rfl

/-- Nothing for the questions below nothing and all of the others is more than the maximum. -/
theorem sum_lt_sum_worthy {q : QuestionSnapshot} (hq : q ∈ questions) (hbelow : q.points < 0) :
    (questions.map (·.points)).sum < ((questions.filter fun q => 0 ≤ q.points).map (·.points)).sum := by
  have hle : ∀ qs : List QuestionSnapshot,
      (qs.map (·.points)).sum ≤ ((qs.filter fun q => 0 ≤ q.points).map (·.points)).sum := by
    intro qs
    induction qs with
    | nil => exact le_rfl
    | cons q' qs ih =>
      rw [List.filter_cons]
      by_cases hworth : 0 ≤ q'.points
      · rw [if_pos (decide_eq_true hworth), List.map_cons, List.map_cons, List.sum_cons, List.sum_cons]
        omega
      · rw [if_neg (by simpa using hworth), List.map_cons, List.sum_cons]
        omega
  induction questions with
  | nil => cases hq
  | cons q' questions ih =>
    rw [List.filter_cons]
    rcases List.mem_cons.mp hq with rfl | hq
    · rw [if_neg (by simpa using hbelow), List.map_cons, List.sum_cons]
      have := hle questions
      omega
    · have hlt := ih hq
      by_cases hworth : 0 ≤ q'.points
      · rw [if_pos (decide_eq_true hworth), List.map_cons, List.map_cons, List.sum_cons, List.sum_cons]
        omega
      · rw [if_neg (by simpa using hworth), List.map_cons, List.sum_cons]
        omega

/-- An attempt without answers, credited for all that is worth something, scores above its maximum. -/
theorem score_above_max {q : QuestionSnapshot} (hdrawn : (a.questionsSnapshot.map (·.id)).Nodup) (hnone : a.answers = [])
    (hq : q ∈ a.questionsSnapshot) (hbelow : q.points < 0) :
    (a.applyOverrides (worthy a.questionsSnapshot)).scoreAttempt.maxScore <
      (a.applyOverrides (worthy a.questionsSnapshot)).scoreAttempt.score := by
  have hcredited : (a.applyOverrides (worthy a.questionsSnapshot)).answers =
      (a.questionsSnapshot.filter fun q => 0 ≤ q.points).map QuizAnswer.created := by
    change applyQuestionOverrides a.questionsSnapshot (worthy a.questionsSnapshot) a.answers = _
    rw [hnone, applyQuestionOverrides, filter_worthy hdrawn, List.map_nil, foldl_created, List.nil_append]
  rw [scoreAttempt_score, scoreAttempt_maxScore, hcredited, pointsTotal_created]
  exact sum_lt_sum_worthy hq hbelow

/-- Exactly the draws without a question below nothing keep the score sound. -/
theorem scores_sound_iff (db : Db) (i t c v : ℕ) (block : PluginAssignment) (hdrawn : block.quiz.Drawn questions) :
    (db.newAttempt i t c v block questions).ScoresSound ↔ ∀ q ∈ questions, 0 ≤ q.points := by
  have hnew : (db.newAttempt i t c v block questions).Tidy := tidy_newAttempt db i t c v block hdrawn.nodup
  constructor
  · intro hsound q hq
    -- the page is opened after the time is up, and the questions above nothing are credited since
    have hended : (db.newAttempt i t c v block questions).Ended (db.newAttempt i t c v block questions) :=
      .posted (.page true 0) .start rfl
    by_contra hbelow
    have habove := score_above_max (a := db.newAttempt i t c v block questions) hdrawn.nodup rfl hq (not_le.mp hbelow)
    exact absurd (hsound _ (hended.credited (worthy questions))).leMax (not_le.mpr habove)
  · intro hpoints a ha
    obtain ⟨hanswered, hearned, hsnap⟩ := ha.keeps hnew rfl fun _ hx => by cases hx
    refine scoreSound_of_points ?_ hanswered hearned ?_
    · rw [hsnap]
      exact hdrawn.nodup
    · rw [hsnap]
      exact hpoints

/-- One question of these points. -/
def quizWorth (points : ℤ) : PluginAssignment := { quiz := { questions := [{ type := .singleChoice, points := some points }] } }

theorem quizWorth_drawn (points : ℤ) : (quizWorth points).quiz.Drawn [{ id := 0, points := points }] := .alone {}

theorem quizWorth_one_sound : (Db.newAttempt {} 0 0 0 1 (quizWorth 1) [{ id := 0, points := 1 }]).ScoresSound :=
  (scores_sound_iff {} 0 0 0 1 (quizWorth 1) (quizWorth_drawn 1)).mpr (by decide)

/-- A config with a question worth -1 is accepted, and a wrong answer to it scores more than the maximum. -/
theorem scores_out_of_range : ¬ ∀ (db : Db) (i t c v : ℕ) (block : PluginAssignment) (questions : List QuestionSnapshot),
    block.quiz.Supported → block.quiz.Drawn questions → (db.newAttempt i t c v block questions).ScoresSound := by
  intro h
  have hsupported : (quizWorth (-1)).quiz.Supported := by
    intro q hq
    rw [List.mem_singleton.mp hq]
    decide
  have hsound := h {} 0 0 0 1 (quizWorth (-1)) _ hsupported (quizWorth_drawn (-1))
  have hended : (Db.newAttempt {} 0 0 0 1 (quizWorth (-1)) [{ id := 0, points := -1 }]).Ended _ :=
    .posted (.submit (fun _ => false) false) .start rfl
  exact absurd (hsound _ hended).leMax (by decide)

end

end SubmissionsChecker
