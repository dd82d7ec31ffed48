import SubmissionsChecker.Effects.Confined
import SubmissionsChecker.System

/-! How far an accepted ruling reaches. Credit is keyed by the config version and the index of
the question, so it lands on every assignment of the subject; what it can change beyond the
assignment of the report is said exactly. -/

namespace SubmissionsChecker

/-- The row credited for question `q` already earns its points, or it has no points to earn. -/
def QuizAttempt.HasEarned (a : QuizAttempt) (q : ℕ) : Prop :=
  match lastRow q a.answers with
  | some row => ∀ s, lastEntry q a.questionsSnapshot = some s → row.pointsEarned.getD 0 = s.points
  | none => ((a.questionsSnapshot.filter fun s => decide (s.id = q)).map (·.points)).sum = 0

/-- The row of question `q` carries the credit a ruling gives. -/
def QuizAttempt.IsCredited (a : QuizAttempt) (q : ℕ) : Prop :=
  ∃ row s, lastRow q a.answers = some row ∧ lastEntry q a.questionsSnapshot = some s ∧
    row.isCorrect = some true ∧ row.pointsEarned = some s.points

/-- An attempt finished after the ruling: its assignment, the row with the answers it is
finished with, and the questions other rulings credited in between. -/
structure LaterFinish where
  assignment : ℕ
  attempt : QuizAttempt
  credited : Finset ℕ

namespace Db

/-- Submission `i` is of another assignment than `A`. -/
def OnOther (db : Db) (A i : ℕ) : Prop := ∃ B, db.asgIdOf i = some B ∧ B ≠ A

/-- Report `s` is about an attempt of another assignment than `A`. -/
def ReportsOther (db : Db) (A : ℕ) (s : QuizQuestionDispute) : Prop :=
  ∃ a, db.quizAttempts[s.attemptId]? = some a ∧ db.OnOther A a.submissionId

/-- Report `d` is about a question of an attempt of assignment `A`. -/
structure ReportOn (db : Db) (d A : ℕ) (dispute : QuizQuestionDispute) : Prop where
  report : db.disputes[d]? = some dispute
  assignment : ∃ a, db.quizAttempts[dispute.attemptId]? = some a ∧ db.asgIdOf a.submissionId = some A

/-- The score of an attempt finished on `db`. -/
def scoreAtFinish (db : Db) (later : LaterFinish) : AttemptScore :=
  (later.attempt.applyOverrides (db.creditedIds later.attempt ∪ later.credited)).scoreAttempt

end Db

/-- Beyond assignment `A` nothing changed from `db` to `db'`: attempts, submissions, grades, open
reports and the score of a later finish. -/
structure Untouched (A : ℕ) (later : LaterFinish) (db db' : Db) : Prop where
  attempts : ∀ (k : ℕ) a, db.quizAttempts[k]? = some a → db.OnOther A a.submissionId →
    ∃ a', db'.quizAttempts[k]? = some a' ∧ a'.answers = a.answers ∧ a'.result = a.result
  submissions : ∀ (i : ℕ) sub, db.submissions[i]? = some sub → db.OnOther A i →
    ∃ sub', db'.submissions[i]? = some sub' ∧ sub'.status = sub.status ∧
      sub'.gradeBreakdown = sub.gradeBreakdown
  grades : ∀ (r : ℕ) row, db.studentsAssignments[r]? = some row → row.subjectsAssignmentId ≠ A →
    ∃ row', db'.studentsAssignments[r]? = some row' ∧ row'.grade = row.grade
  reports : ∀ (j : ℕ) s, db.disputes[j]? = some s → db.ReportsOther A s → s.status = .opened →
    ∃ s', db'.disputes[j]? = some s' ∧ s'.status = .opened
  laterScore : later.assignment ≠ A → db'.scoreAtFinish later = db.scoreAtFinish later

namespace Db

/-- Accepting report `d` stays within assignment `A`. -/
def StaysWithin (db : Db) (d A : ℕ) (note : String) (later : LaterFinish) : Prop :=
  ∃ db', db.resolveDispute d true note = .ok db' ∧ Untouched A later db db'

/-- No attempt or open report of another assignment meets the key of the ruling, but where the
credit is already there. -/
structure CreditStaysHome (db : Db) (A c v q : ℕ) (later : LaterFinish) : Prop where
  candidates : ∀ (k : ℕ) a, db.quizAttempts[k]? = some a → db.OnOther A a.submissionId →
    a.isCandidate c v q = true → a.IsCredited q ∧ a.result = a.scoreAttempt.result
  reports : ∀ (j : ℕ) s, db.disputes[j]? = some s → db.ReportsOther A s →
    isOpenSibling c v q s = false
  laterFinish : later.assignment ≠ A → later.attempt.pluginConfigId = some c →
    later.attempt.pluginConfigVersion = some v →
    q ∈ db.creditedIds later.attempt ∪ later.credited ∨ later.attempt.HasEarned q

end Db

/-- The credit is worth nothing exactly where its points are already earned. -/
theorem pointsTotal_credit_eq_iff {a : QuizAttempt} {q : ℕ} :
    pointsTotal (a.applyOverrides {q}).answers = pointsTotal a.answers ↔ a.HasEarned q := by
  have happly : (a.applyOverrides {q}).answers = applyQuestionOverrides a.questionsSnapshot {q} a.answers := rfl
  rw [happly, applyQuestionOverrides_singleton, QuizAttempt.HasEarned]
  cases hrow : lastRow q a.answers with
  | none =>
    rw [if_neg (lastRow_eq_none.mp hrow), pointsTotal_append_created]
    dsimp only
    omega
  | some row =>
    have hans : q ∈ a.answers.map (·.questionId) := by
      by_contra hno
      rw [lastRow_eq_none.mpr hno] at hrow
      cases hrow
    rw [if_pos hans]
    dsimp only
    cases lastEntry q a.questionsSnapshot with
    | none => simp
    | some s =>
      simp only [Option.elim_some, Option.some_inj, forall_eq']
      rw [pointsTotal_creditLast hrow]
      omega

/-- Re-scoring leaves exactly the attempts that carry the credit and whose result is current. -/
theorem regrade_unchanged_iff {a : QuizAttempt} {q : ℕ} (hdrew : a.drew q = true) :
    (a.regrade q).answers = a.answers ∧ (a.regrade q).result = a.result ↔
      a.IsCredited q ∧ a.result = a.scoreAttempt.result := by
  have hanswers : (a.regrade q).answers = applyQuestionOverrides a.questionsSnapshot {q} a.answers := rfl
  have hsame : (a.regrade q).answers = a.answers ↔ a.IsCredited q := by
    obtain ⟨s₀, hs₀, hid₀⟩ := List.any_eq_true.mp hdrew
    have hdrawn : s₀ ∈ a.questionsSnapshot.filter fun s => decide (s.id = q) :=
      List.mem_filter.mpr ⟨hs₀, by simpa using hid₀⟩
    rw [hanswers, applyQuestionOverrides_singleton]
    split_ifs with hans
    · obtain ⟨row, hrow⟩ := Option.ne_none_iff_exists'.mp fun hnone => lastRow_eq_none.mp hnone hans
      obtain ⟨s, hs⟩ : ∃ s, lastEntry q a.questionsSnapshot = some s :=
        Option.ne_none_iff_exists'.mp fun hnone =>
          List.ne_nil_of_mem hdrawn (List.getLast?_eq_none_iff.mp hnone)
      simp [hs, creditLast_eq_self, QuizAttempt.IsCredited, hrow]
    · constructor
      · intro happ
        have hnil := List.append_right_eq_self.mp happ
        rw [List.map_eq_nil_iff] at hnil
        exact absurd hnil (List.ne_nil_of_mem hdrawn)
      · rintro ⟨row, s, hrow, -⟩
        rw [lastRow_eq_none.mpr hans] at hrow
        cases hrow
  rw [hsame]
  refine and_congr_right fun hcredited => ?_
  have happly : a.applyOverrides {q} = a := by
    have := hsame.mpr hcredited
    rw [hanswers] at this
    simp [QuizAttempt.applyOverrides, this]
  rw [regrade_result, happly, eq_comm]

theorem candidate_drew {a : QuizAttempt} {c v q : ℕ} (h : a.isCandidate c v q = true) : a.drew q = true := by
  unfold QuizAttempt.isCandidate at h
  exact (Bool.and_eq_true_iff.mp h).2

/-- What an attempt has earned on a question is not changed by crediting others. -/
theorem hasEarned_applyOverrides {a : QuizAttempt} {q : ℕ} {ids : Finset ℕ} (hq : q ∉ ids) :
    (a.applyOverrides ids).HasEarned q ↔ a.HasEarned q := by
  have hrows : lastRow q (a.applyOverrides ids).answers = lastRow q a.answers := by
    unfold lastRow QuizAttempt.applyOverrides
    rw [rowsOf_applyQuestionOverrides, if_neg hq]
  unfold QuizAttempt.HasEarned
  rw [hrows]
  rfl

/-- A finish scores the same with question `q` credited as without. -/
theorem scoreAttempt_insert_eq_iff {a : QuizAttempt} {q : ℕ} {ids : Finset ℕ} :
    (a.applyOverrides (insert q ids)).scoreAttempt = (a.applyOverrides ids).scoreAttempt ↔
      q ∈ ids ∨ a.HasEarned q := by
  by_cases hq : q ∈ ids
  · simp [Finset.insert_eq_self.mpr hq, hq]
  · rw [or_iff_right hq, ← hasEarned_applyOverrides hq, ← pointsTotal_credit_eq_iff]
    have hins := pointsTotal_apply_insert a.questionsSnapshot ids q a.answers
    constructor
    · intro h
      have hscore := congrArg AttemptScore.score h
      rw [scoreAttempt_score, scoreAttempt_score] at hscore
      exact hins.trans hscore
    · exact fun h => scoreAttempt_congr rfl rfl rfl (hins.symm.trans h)

section

variable {db : Db} {d A c v q : ℕ} {note : String} {later : LaterFinish} {dispute : QuizQuestionDispute}

theorem Db.ReportOn.not_other (h : db.ReportOn d A dispute) : ¬ db.ReportsOther A dispute := by
  rintro ⟨a, ha, B, hB, hne⟩
  obtain ⟨a', ha', hA⟩ := h.assignment
  rw [ha] at ha'
  cases ha'
  rw [hB] at hA
  exact hne (Option.some_inj.mp hA)

theorem confined_ruledDb (A : ℕ) (db : Db) (d c v q : ℕ) (note : String) :
    Confined A db (db.ruledDb d c v q note) := by
  have hsubs : (db.ruledDb d c v q note).submissions = db.submissions := by
    simp only [Db.ruledDb, Db.regradeQuestion, Db.closeSiblings, Db.addOverride]
    split_ifs <;> rfl
  have hrows : (db.ruledDb d c v q note).studentsAssignments = db.studentsAssignments := by
    simp only [Db.ruledDb, Db.regradeQuestion, Db.closeSiblings, Db.addOverride]
    split_ifs <;> rfl
  exact ⟨fun r row _ => by rw [hrows], fun i => by rw [hsubs], fun i B _ _ => by rw [hsubs]⟩

theorem ruledDb_disputes (j : ℕ) : (db.ruledDb d c v q note).disputes[j]? =
    ((db.setDispute d ({ · with status := .accepted, teacherNote := some note })).disputes[j]?).map fun s =>
      if Db.isOpenSibling c v q s then { s with status := .accepted, teacherNote := some note } else s := by
  simp only [Db.ruledDb, Db.regradeQuestion, Db.closeSiblings, Db.addOverride]
  split_ifs <;> simp

/-- The overrides a later finish reads: the ruling adds its question to the attempts of its key. -/
theorem creditedIds_ruledDb (a : QuizAttempt) : (db.ruledDb d c v q note).creditedIds a =
    if a.pluginConfigId = some c ∧ a.pluginConfigVersion = some v then insert q (db.creditedIds a)
    else db.creditedIds a := by
  unfold Db.creditedIds
  split_ifs with hkey
  · rw [hkey.1, hkey.2, loadQuestionOverrides_ruledDb]
  · exact loadQuestionOverrides_ruledDb_ne hkey

/-- Where credit stays home, a ruling lifts no attempt of another assignment. -/
theorem Db.CreditStaysHome.lifted (h : db.CreditStaysHome A c v q later) {k : ℕ}
    (hk : k ∈ db.liftedBy c v q) {a : QuizAttempt} (ha : db.quizAttempts[k]? = some a) :
    db.OnlyOn A a.submissionId := by
  intro B hB
  by_contra hne
  obtain ⟨a', ha', hp⟩ := Table.mem_idsWhere.mp hk
  rw [ha] at ha'
  cases ha'
  rw [Bool.and_eq_true] at hp
  obtain ⟨hcand, hpassed⟩ := hp
  obtain ⟨-, hresult⟩ :=
    (regrade_unchanged_iff (candidate_drew hcand)).mpr (h.candidates k a ha ⟨B, hB, hne⟩ hcand)
  have hisPassed : (a.regrade q).isPassed = a.isPassed := congrArg (·.2.2) hresult
  rw [QuizAttempt.passed, hisPassed, ← QuizAttempt.passed, isCandidate_not_passed hcand] at hpassed
  cases hpassed

/-- The ruled database, and what is left of it after the lifted attempts were advanced. -/
theorem untouched_of_creditStaysHome (hon : db.ReportOn d A dispute)
    (h : db.CreditStaysHome A c v q later) :
    Untouched A later db ((db.liftedBy c v q).foldl Db.advanced (db.ruledDb d c v q note)) := by
  have hconf : Confined A db ((db.liftedBy c v q).foldl Db.advanced (db.ruledDb d c v q note)) := by
    have hruled := confined_ruledDb A db d c v q note
    refine hruled.trans (confined_advancedAll _ _ fun k hk a ha => ?_)
    rw [ruledDb_quizAttempts, List.getElem?_map] at ha
    obtain ⟨a₀, ha₀, rfl⟩ := Option.map_eq_some_iff.mp ha
    have := hruled.onlyOn (h.lifted hk ha₀)
    split_ifs <;> exact this
  have hadv := within_advancedAll (db.liftedBy c v q) (db.ruledDb d c v q note)
  refine ⟨fun k a ha hother => ?_, fun i sub hsub hother => ?_, fun r row hrow hne => ?_,
    fun j s hs hother hopen => ?_, fun hne => ?_⟩
  · refine ⟨if a.isCandidate c v q then a.regrade q else a, ?_, ?_⟩
    · rw [hadv.quizAttempts, ruledDb_quizAttempts, List.getElem?_map, ha]
      rfl
    · split_ifs with hcand
      · exact (regrade_unchanged_iff (candidate_drew hcand)).mpr (h.candidates k a ha hother hcand)
      · exact ⟨rfl, rfl⟩
  · obtain ⟨B, hB, hne⟩ := hother
    exact ⟨sub, by rw [hconf.subs i B hB hne, hsub], rfl, rfl⟩
  · exact ⟨row, (hconf.rows r row hne).mpr hrow, rfl⟩
  · have hj : d ≠ j := by
      rintro rfl
      rw [hon.report] at hs
      cases hs
      exact hon.not_other hother
    refine ⟨s, ?_, hopen⟩
    rw [hadv.disputes, ruledDb_disputes, Db.setDispute_disputes, Table.getElem?_modify_ne _ hj, hs,
      Option.map_some, if_neg (by simp [h.reports j s hs hother])]
  · unfold Db.scoreAtFinish Db.creditedIds
    rw [loadQuestionOverrides_congr hadv.overrides]
    change (later.attempt.applyOverrides ((db.ruledDb d c v q note).creditedIds later.attempt ∪ _)).scoreAttempt = _
    rw [creditedIds_ruledDb]
    split_ifs with hkey
    · rw [Finset.insert_union]
      exact scoreAttempt_insert_eq_iff.mpr (h.laterFinish hne hkey.1 hkey.2)
    · rfl

/-- A ruling that stays within its assignment met no attempt or report of another one. -/
theorem creditStaysHome_of_untouched (hon : db.ReportOn d A dispute)
    (h : Untouched A later db ((db.liftedBy c v q).foldl Db.advanced (db.ruledDb d c v q note))) :
    db.CreditStaysHome A c v q later := by
  have hadv := within_advancedAll (db.liftedBy c v q) (db.ruledDb d c v q note)
  refine ⟨fun k a ha hother hcand => ?_, fun j s hs hother => ?_, fun hne hc hv => ?_⟩
  · obtain ⟨a', ha', hanswers, hresult⟩ := h.attempts k a ha hother
    rw [hadv.quizAttempts, ruledDb_quizAttempts, List.getElem?_map, ha, Option.map_some, if_pos hcand,
      Option.some_inj] at ha'
    subst ha'
    exact (regrade_unchanged_iff (candidate_drew hcand)).mp ⟨hanswers, hresult⟩
  · by_contra hsib
    rw [Bool.not_eq_false] at hsib
    have hopen : s.status = .opened := by
      unfold Db.isOpenSibling at hsib
      simpa using (Bool.and_eq_true_iff.mp hsib).2
    have hj : d ≠ j := by
      rintro rfl
      rw [hon.report] at hs
      cases hs
      exact hon.not_other hother
    obtain ⟨s', hs', hopen'⟩ := h.reports j s hs hother hopen
    rw [hadv.disputes, ruledDb_disputes, Db.setDispute_disputes, Table.getElem?_modify_ne _ hj, hs,
      Option.map_some, if_pos hsib, Option.some_inj] at hs'
    subst hs'
    cases hopen'
  · have hscore := h.laterScore hne
    unfold Db.scoreAtFinish at hscore
    have hids : ((db.liftedBy c v q).foldl Db.advanced (db.ruledDb d c v q note)).creditedIds later.attempt =
        insert q (db.creditedIds later.attempt) := by
      unfold Db.creditedIds
      rw [loadQuestionOverrides_congr hadv.overrides, hc, hv, loadQuestionOverrides_ruledDb]
    rw [hids, Finset.insert_union] at hscore
    exact scoreAttempt_insert_eq_iff.mp hscore

/-- A ruling stays within its assignment exactly when the report is unpinned or its credit meets
nothing of another assignment that it would change. -/
theorem ruling_stays_within_iff (hon : db.ReportOn d A dispute) (note : String) (later : LaterFinish) :
    db.StaysWithin d A note later ↔
      ∀ c v, dispute.pluginConfigId = some c → dispute.pluginConfigVersion = some v →
        db.CreditStaysHome A c v dispute.questionId later := by
  by_cases hpin : dispute.pluginConfigId = none ∨ dispute.pluginConfigVersion = none
  · refine iff_of_true ⟨_, resolveDispute_other hon.report (.inr hpin), ?_⟩ fun c v hc hv => by
      simp [hc, hv] at hpin
    refine ⟨fun k a ha _ => ⟨a, ha, rfl, rfl⟩, fun i sub hsub _ => ⟨sub, hsub, rfl, rfl⟩,
      fun r row hrow _ => ⟨row, hrow, rfl⟩, fun j s hs hother hopen => ⟨s, ?_, hopen⟩, fun _ => rfl⟩
    rw [Db.setDispute_disputes, Table.getElem?_modify_ne, hs]
    rintro rfl
    rw [hon.report] at hs
    cases hs
    exact hon.not_other hother
  · rw [not_or, ← ne_eq, ← ne_eq, Option.ne_none_iff_exists', Option.ne_none_iff_exists'] at hpin
    obtain ⟨⟨c, hc⟩, ⟨v, hv⟩⟩ := hpin
    have hrun : db.resolveDispute d true note = _ := resolveDispute_accept hon.report hc hv
    constructor
    · rintro ⟨db', hdb', huntouched⟩ c' v' hc' hv'
      rw [hrun] at hdb'
      cases hdb'
      rw [hc, Option.some_inj] at hc'
      rw [hv, Option.some_inj] at hv'
      subst hc' hv'
      exact creditStaysHome_of_untouched hon huntouched
    · exact fun h => ⟨_, hrun, untouched_of_creditStaysHome hon (h c v hc hv)⟩

end

/-- One subject with two quiz assignments in one config; the first has two questions, the second one. -/
def twoQuizzes : Db where
  subjects := [{}]
  subjectsAssignments := [{ subjectId := 0, code := some "A" }, { subjectId := 0, code := some "B" }]
  pluginConfigs :=
    [{ subjectId := 0, version := 1
       assignments :=
        [("A", { reviewMode := some .quizOnly,
                 quiz := { questions := [{ type := .trueFalse }, { type := .trueFalse }] } }),
         ("B", { reviewMode := some .quizOnly, quiz := { questions := [{ type := .trueFalse }] } })] }]
  subjectsStudents := {(0, 0)}
  studentsAssignments := [{ studentId := 0, subjectsAssignmentId := 0 },
                          { studentId := 0, subjectsAssignmentId := 1 }]

/-- The student fails both quizzes and reports question `q` of the first. -/
def twoFailures (q : ℕ) : Db :=
  [Op.upload 0 0 true 1 (.tested true 1 1), .upload 1 0 true 1 (.tested true 1 1), .startQuiz 0 0 {},
    .startQuiz 1 0 {}, .submitQuiz 0 0 (fun _ => false) false, .submitQuiz 1 0 (fun _ => false) false,
    .reportQuestion 0 0 q].foldl Db.step twoQuizzes

/-- A second try at the other quiz, left unanswered. -/
def secondTry : LaterFinish where
  assignment := 1
  attempt := { submissionId := 1, pluginConfigId := some 0, pluginConfigVersion := some 1,
               studentId := some 0, questionsSnapshot := [{ id := 0, type := .trueFalse, points := 1 }] }
  credited := ∅

/-- The report on question `q` of the first quiz. -/
def reportOf (q : ℕ) : QuizQuestionDispute :=
  { attemptId := 0, questionId := q, studentId := 0, pluginConfigId := some 0, pluginConfigVersion := some 1 }

/-- Accepting the report on the first question passes the other quiz too. -/
theorem ruling_leaks : ¬ ∀ (db : Db) (d A : ℕ) (dispute : QuizQuestionDispute) (note : String)
    (later : LaterFinish), db.ReportOn d A dispute → db.StaysWithin d A note later := by
  intro hall
  have hon : (twoFailures 0).ReportOn 0 0 (reportOf 0) :=
    ⟨by decide +kernel, Option.bind_eq_some_iff.mp (show _ = some 0 by decide +kernel)⟩
  obtain ⟨db', hdb', h⟩ := hall _ _ _ _ "The key is wrong" secondTry hon
  have hbefore : ((twoFailures 0).quizAttempts[1]?).map (fun a => (a.submissionId, a.result)) =
      some (1, some 0, some 1, some false) := by decide +kernel
  have hafter : (((twoFailures 0).resolveDispute 0 true "The key is wrong").toOption.bind fun db =>
      (db.quizAttempts[1]?).map (·.result)) = some (some 1, some 1, some true) := by decide +kernel
  obtain ⟨a, ha, hpair⟩ := Option.map_eq_some_iff.mp hbefore
  obtain ⟨hsub, hresult⟩ := Prod.mk.inj hpair
  have hother : (twoFailures 0).OnOther 0 a.submissionId := ⟨1, by rw [hsub]; decide +kernel, by decide⟩
  obtain ⟨a', ha', -, hkept⟩ := h.attempts 1 a ha hother
  rw [hdb', Except.toOption, Option.bind_some, ha', Option.map_some, hkept, hresult] at hafter
  cases hafter

/-- The report on the second question meets nothing of the other quiz. -/
theorem second_question_stays : (twoFailures 1).StaysWithin 0 0 "The key is wrong" secondTry := by
  have hon : (twoFailures 1).ReportOn 0 0 (reportOf 1) :=
    ⟨by decide +kernel, Option.bind_eq_some_iff.mp (show _ = some 0 by decide +kernel)⟩
  have hfirst : ¬ (twoFailures 1).OnOther 0 0 := by
    rintro ⟨B, hB, hne⟩
    rw [show (twoFailures 1).asgIdOf 0 = some 0 by decide +kernel] at hB
    exact hne (Option.some_inj.mp hB).symm
  refine (ruling_stays_within_iff hon _ _).mpr fun c v hc hv => ?_
  cases hc
  cases hv
  have hattempts : ∀ a ∈ (twoFailures 1).quizAttempts, a.submissionId = 0 ∨ a.isCandidate 0 1 1 = false := by
    decide +kernel
  refine ⟨fun k a ha hother hcand => ?_, fun j s hs hother => ?_, fun _ _ _ => ?_⟩
  · rcases hattempts a (List.mem_of_getElem? ha) with hsub | hno
    · exact absurd (hsub ▸ hother) hfirst
    · exact absurd hcand (by simp [show (reportOf 1).questionId = 1 from rfl, hno])
  · obtain ⟨a, ha, hother⟩ := hother
    have hreports : ∀ s ∈ (twoFailures 1).disputes, s.attemptId = 0 := by decide +kernel
    rw [hreports s (List.mem_of_getElem? hs)] at ha
    have hsub : ((twoFailures 1).quizAttempts[0]?).map (·.submissionId) = some 0 := by decide +kernel
    rw [ha, Option.map_some, Option.some_inj] at hsub
    exact absurd (hsub ▸ hother) hfirst
  · exact .inr (rfl : (0 : ℤ) = 0)

end SubmissionsChecker
