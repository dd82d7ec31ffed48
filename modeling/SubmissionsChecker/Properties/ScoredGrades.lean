import SubmissionsChecker.Invariants.PortalWork
import SubmissionsChecker.Properties.GradedWork

/-! Scored grades that add up. An apply checks that the points of a config add up, but not the points
already saved: a criterion whose maximum was lowered keeps more points than it gives. -/

namespace SubmissionsChecker

open Runs

/-- The breakdown of a scored grade under the assignment's rules: points within their maxima, the quiz
rounded half up or, for a squad, up, and the grade their sum. -/
structure GradeBreakdown.AddsUp (b : GradeBreakdown) (asg : SubjectsAssignment) (parts : ScoredParts) : Prop where
  scored : b.parts = .inr parts
  quiz : 0 ≤ parts.quizPoints ∧ parts.quizPoints ≤ asg.config.grading.quizPoints.getD 0
  rounded : parts.quizPoints =
    let share := Rounding.halfEvenTo 1000000 (parts.quizPct / 100 * (asg.config.grading.quizPoints.getD 0 : ℤ))
    if b.squad.isSome then ⌈share⌉ else ⌊share + 1 / 2⌋
  criteria : parts.criteria.map (fun row => (row.key, row.max)) =
    asg.config.grading.teacherCriteria.map fun c => (c.key, c.max)
  points : ∀ row ∈ parts.criteria, 0 ≤ row.points ∧ row.points ≤ row.max
  sum : b.grade = asg.minGrade + parts.quizPoints + (parts.criteria.map (·.points)).sum

namespace Db

/-- The breakdown adds up under the current rules of the submission's assignment. -/
def AddsUp (db : Db) (i : ℕ) (b : GradeBreakdown) : Prop :=
  ∃ sub asg parts, db.submissions[i]? = some sub ∧ db.assignmentOf sub.studentsAssignmentId = some asg ∧ b.AddsUp asg parts

/-- The points saved for the submission's owner are within the current maxima of their criteria. -/
def PointsWithin (db : Db) (i : ℕ) : Prop :=
  ∀ sub asg scores, db.submissions[i]? = some sub → db.assignmentOf sub.studentsAssignmentId = some asg →
    db.pointsOn sub.studentsAssignmentId = some scores →
    ∀ c ∈ asg.config.grading.teacherCriteria, ∀ v, scores.lookup c.key = some v → v ≤ c.max

end Db

def PortalOp.savesPoints : PortalOp → Bool
  | .request (.saveScores ..) => true
  | _ => false

section

variable {db db' : Db} {i : ℕ} {attempts : List QuizAttempt} {p : ℚ}

/-! The share of the quiz -/

theorem firstPassedPct_mem (h : ∀ a ∈ attempts, a.Scored ∧ a.scoreCheck = true) (hp : firstPassedPct attempts = some p) :
    0 ≤ p ∧ p ≤ 100 := by
  obtain ⟨a, hfind, hpct⟩ := Option.bind_eq_some_iff.mp hp
  have hmem := h a (List.mem_of_find?_eq_some hfind)
  obtain ⟨q, hq, h0, h100⟩ := pct_of_scored hmem.1 hmem.2 (List.find?_some hfind)
  rw [hpct, Option.some_inj] at hq
  exact hq ▸ ⟨h0, h100⟩

theorem mem_setBest {t : ℕ} {q : ℚ} {e : ℕ × ℚ} : ∀ {best : List (ℕ × ℚ)}, e ∈ setBest t q best → e ∈ best ∨ e = (t, q) := by
  intro best
  induction best with
  | nil => simp [setBest]
  | cons m rest ih =>
    unfold setBest
    split_ifs
    · intro he
      rcases List.mem_cons.mp he with rfl | he
      · exact .inr rfl
      · exact .inl (List.mem_cons_of_mem _ he)
    · intro he
      rcases List.mem_cons.mp he with rfl | he
      · exact .inl List.mem_cons_self
      · exact (ih he).imp (List.mem_cons_of_mem _) id

theorem bestStep_mem {a : QuizAttempt} (h : a.Scored ∧ a.scoreCheck = true) {best : List (ℕ × ℚ)}
    (hbest : ∀ e ∈ best, 0 ≤ e.2 ∧ e.2 ≤ 100) : ∀ e ∈ bestStep .exact best a, 0 ≤ e.2 ∧ e.2 ≤ 100 := by
  cases hp : a.passed with
  | false =>
    rw [bestStep_not_passed hp]
    exact hbest
  | true =>
    obtain ⟨q, hq, hmem⟩ := pct_of_scored h.1 h.2 hp
    obtain ⟨t, ht⟩ := Option.isSome_iff_exists.mp h.1.student
    intro e he
    simp only [bestStep, hp, ht, hq] at he
    split_ifs at he
    · rcases mem_setBest he with he | rfl
      · exact hbest e he
      · exact hmem
    · exact hbest e he

theorem foldl_bestStep_mem (h : ∀ a ∈ attempts, a.Scored ∧ a.scoreCheck = true) : ∀ best : List (ℕ × ℚ),
    (∀ e ∈ best, 0 ≤ e.2 ∧ e.2 ≤ 100) → ∀ e ∈ attempts.foldl (bestStep .exact) best, 0 ≤ e.2 ∧ e.2 ≤ 100 := by
  induction attempts with
  | nil => exact fun _ hbest => hbest
  | cons a attempts ih =>
    intro best hbest
    rw [List.foldl_cons]
    exact ih (fun b hb => h b (List.mem_cons_of_mem _ hb)) _ (bestStep_mem (h a List.mem_cons_self) hbest)

/-- A mean of percentages is one. -/
theorem mean_mem {l : List ℚ} (hl : l ≠ []) (h : ∀ q ∈ l, 0 ≤ q ∧ q ≤ 100) :
    0 ≤ l.sum / l.length ∧ l.sum / l.length ≤ 100 := by
  have hpos : (0 : ℚ) < l.length := by exact_mod_cast List.length_pos_iff.mpr hl
  refine ⟨div_nonneg (List.sum_nonneg fun q hq => (h q hq).1) hpos.le, ?_⟩
  rw [div_le_iff₀ hpos]
  have hsum := List.sum_le_card_nsmul l 100 fun q hq => (h q hq).2
  rw [nsmul_eq_mul, mul_comm] at hsum
  exact hsum

theorem squadQuizPct_mem (h : ∀ a ∈ attempts, a.Scored ∧ a.scoreCheck = true) (hp : (squadQuizPct .exact attempts).1 = some p) :
    0 ≤ p ∧ p ≤ 100 := by
  have hbest := foldl_bestStep_mem h [] (fun e he => by cases he)
  unfold squadQuizPct squadBest at hp
  dsimp only at hp
  split_ifs at hp with hnone
  obtain rfl := Option.some.inj hp
  rw [← List.length_map (f := Prod.snd)]
  refine mean_mem (by simpa using hnone) fun q hq => ?_
  obtain ⟨e, he, rfl⟩ := List.mem_map.mp hq
  exact hbest e he

/-! The sum -/

/-- Points within their maxima are never cut by the clamp. -/
theorem clampGrade_of_within {grading : GradingConfig} {lo hi quiz : ℤ} {f : Criterion → ℤ} (hfit : PointsAddUp grading lo hi)
    (hquiz : 0 ≤ quiz ∧ quiz ≤ grading.quizPoints.getD 0)
    (hpoints : ∀ c ∈ grading.teacherCriteria, 0 ≤ f c ∧ f c ≤ c.max) :
    clampGrade lo hi (lo + quiz + (grading.teacherCriteria.map f).sum) =
      lo + quiz + (grading.teacherCriteria.map f).sum := by
  have hhigh : (grading.teacherCriteria.map f).sum ≤ (grading.teacherCriteria.map (·.max)).sum :=
    List.sum_le_sum fun c hc => (hpoints c hc).2
  have hlow : 0 ≤ (grading.teacherCriteria.map f).sum := by
    refine List.sum_nonneg fun v hv => ?_
    obtain ⟨c, hc, rfl⟩ := List.mem_map.mp hv
    exact (hpoints c hc).1
  have hsum := hfit.sum
  unfold clampGrade
  omega

/-! What is computed -/

/-- The share of the quiz is not negative, so half up is half away from zero. -/
theorem quizPointsFor_eq {grading : GradingConfig} (h0 : 0 ≤ grading.quizPoints.getD 0) (hp : 0 ≤ p) (roundUp : Bool) :
    quizPointsFor grading p roundUp =
      let share := Rounding.halfEvenTo 1000000 (p / 100 * (grading.quizPoints.getD 0 : ℤ))
      if roundUp then ⌈share⌉ else ⌊share + 1 / 2⌋ := by
  have hzero : Rounding.halfEvenTo 1000000 (0 : ℚ) = 0 := by
    simpa using Rounding.halfEvenTo_intCast (K := ℚ) (show (0 : ℤ) < 1000000 by norm_num) 0
  have hraw : (0 : ℚ) ≤ p / 100 * (grading.quizPoints.getD 0 : ℤ) :=
    mul_nonneg (div_nonneg hp (by norm_num)) (by exact_mod_cast h0)
  have hshare := Rounding.halfEvenTo_mono (show (0 : ℤ) < 1000000 by norm_num) hraw
  rw [hzero] at hshare
  unfold quizPointsFor Rounding.halfUp
  dsimp only
  rw [if_pos hshare]

/-- Exactly the points within their maxima add up. -/
theorem computeScored_addsUp {asg : SubjectsAssignment} {scores : TeacherScores} (squad : Option SquadParts)
    (hfit : PointsAddUp asg.config.grading asg.minGrade asg.maxGrade) (hp : 0 ≤ p ∧ p ≤ 100)
    (hnonneg : ∀ e ∈ scores, 0 ≤ e.2) {b : GradeBreakdown}
    (hb : b = { computeScored asg.config.grading asg.minGrade asg.maxGrade p scores squad.isSome with squad := squad }) :
    (∃ parts, b.AddsUp asg parts) ↔
      ∀ c ∈ asg.config.grading.teacherCriteria, ∀ v, scores.lookup c.key = some v → v ≤ c.max := by
  have hquiz := quizPointsFor_mem hfit.quiz hp.1 hp.2 squad.isSome
  have hpos : ∀ c : Criterion, 0 ≤ (scores.lookup c.key).getD 0 := by
    intro c
    rcases hv : scores.lookup c.key with _ | v
    · exact le_rfl
    · exact hnonneg _ (Assoc.mem_of_lookup hv)
  have hwithin : (∀ c ∈ asg.config.grading.teacherCriteria, (scores.lookup c.key).getD 0 ≤ c.max) ↔
      ∀ c ∈ asg.config.grading.teacherCriteria, ∀ v, scores.lookup c.key = some v → v ≤ c.max := by
    refine forall₂_congr fun c hc => ?_
    rcases scores.lookup c.key with _ | v
    · simpa using (hfit.maxima c hc).le
    · simp
  rw [← hwithin, hb]
  constructor
  · rintro ⟨parts, h⟩ c hc
    obtain rfl := Sum.inr.inj h.scored
    exact (h.points _ (List.mem_map_of_mem hc)).2
  · intro h
    refine ⟨_, rfl, hquiz, quizPointsFor_eq hfit.quiz hp.1 squad.isSome, ?_, fun row hrow => ?_, ?_⟩
    · rw [List.map_map]
      rfl
    · obtain ⟨c, hc, rfl⟩ := List.mem_map.mp hrow
      exact ⟨hpos c, h c hc⟩
    · dsimp only
      rw [List.map_map]
      unfold computeScored
      dsimp only
      rw [List.map_map]
      exact clampGrade_of_within hfit hquiz fun c hc => ⟨hpos c, h c hc⟩

end

section

variable {isTest : ℕ → Bool} {p p₀ : Portal} {op : PortalOp} {ops : List PortalOp} {i : ℕ} {b : GradeBreakdown}

/-- A scored grade as `gradeOf` computes it. -/
theorem gradeOf_scored {asg : SubjectsAssignment} {sa : StudentAssignment} {sub : Submission} {attempts : List QuizAttempt}
    {isSquad : Bool} (hmode : asg.config.isScoredMode = true) (hattempts : ∀ a ∈ attempts, a.Scored ∧ a.scoreCheck = true)
    (h : Db.gradeOf asg sa sub attempts isSquad = some b) : ∃ share, 0 ≤ share ∧ share ≤ 100 ∧
      b = computeScored asg.config.grading asg.minGrade asg.maxGrade share (sa.teacherScores.getD []) isSquad := by
  unfold Db.gradeOf at h
  dsimp only at h
  rw [if_pos hmode] at h
  rcases hshare : (if isSquad then (squadQuizPct .exact attempts).1 else firstPassedPct attempts) with _ | share
  · rw [hshare] at h
    cases h
  · rw [hshare] at h
    dsimp only at h
    split_ifs at h
    have hmem : 0 ≤ share ∧ share ≤ 100 := by
      cases isSquad with
      | true => exact squadQuizPct_mem hattempts hshare
      | false => exact firstPassedPct_mem hattempts hshare
    exact ⟨share, hmem.1, hmem.2, (Option.some.inj h).symm⟩

/-- A grade computed in a reachable state adds up exactly when the saved points are within the maxima. -/
theorem gradeNow_addsUp_iff (ok : p.WorkOk) (pts : p.PointsOk) (hmode : p.db.isScoredSubmission i = true)
    (h : p.db.gradeNow i = some b) : p.db.AddsUp i b ↔ p.db.PointsWithin i := by
  obtain ⟨sub, hsub, h⟩ := Option.bind_eq_some_iff.mp h
  obtain ⟨sa, hsa, h⟩ := Option.bind_eq_some_iff.mp h
  obtain ⟨asg, hasg, h⟩ := Option.bind_eq_some_iff.mp h
  obtain ⟨b₀, hgrade, hb⟩ := Option.map_eq_some_iff.mp h
  have hassigned : p.db.assignmentOf sub.studentsAssignmentId = some asg := by
    rw [Db.assignmentOf, hsa, Option.bind_some, hasg]
  have hscored : asg.config.isScoredMode = true := (isScoredSubmission_eq hsub hassigned).symm.trans hmode
  have hattempts : ∀ a ∈ p.db.quizAttemptsOf i, a.Scored ∧ a.scoreCheck = true := fun a ha =>
    ⟨ok.attempts a (mem_quizAttemptsOf.mp ha).1, ok.checked a (mem_quizAttemptsOf.mp ha).1⟩
  obtain ⟨share, h0, h100, rfl⟩ := gradeOf_scored hscored hattempts hgrade
  have hpoints : p.db.pointsOn sub.studentsAssignmentId = sa.teacherScores := by
    rw [Db.pointsOn, hsa, Option.bind_some]
  have hnonneg : ∀ e ∈ sa.teacherScores.getD [], 0 ≤ e.2 := by
    rcases hscores : sa.teacherScores with _ | scores
    · exact fun e he => by cases he
    · exact pts.nonneg _ scores (hpoints.trans hscores)
  set squad : Option SquadParts := (p.db.squadForSubmission i).map fun _ => _ with hsquad
  have hsame : (p.db.squadForSubmission i).isSome = squad.isSome := by rw [hsquad, Option.isSome_map]
  rw [hsame] at hb
  have hiff := computeScored_addsUp squad (pts.listed.fit _ asg hasg hscored) ⟨h0, h100⟩ hnonneg hb.symm
  constructor
  · rintro ⟨sub', asg', parts, hsub', hasg', hadds⟩ sub'' asg'' scores hsub'' hasg'' hscores
    rw [hsub, Option.some_inj] at hsub' hsub''
    subst hsub' hsub''
    rw [hassigned, Option.some_inj] at hasg' hasg''
    subst hasg' hasg''
    have hall := hiff.mp ⟨parts, hadds⟩
    rw [hpoints] at hscores
    rw [hscores] at hall
    exact hall
  · intro hwithin
    obtain ⟨parts, hadds⟩ := hiff.mpr fun c hc v hv => by
      rcases hscores : sa.teacherScores with _ | scores
      · rw [hscores] at hv
        cases hv
      · rw [hscores] at hv
        exact hwithin sub asg scores hsub hassigned (hpoints.trans hscores) c hc v hv
    exact ⟨sub, asg, parts, hsub, hassigned, hadds⟩

/-! What a step leaves of the points -/

/-- A submission keeps its assignment. -/
theorem Evolves.assigned {db db' : Db} {sub : Submission} (hev : Evolves db db') (hown : db.SubsOwned)
    (hs : db.submissions[i]? = some sub) : ∃ sub', db'.submissions[i]? = some sub' ∧
      sub'.studentsAssignmentId = sub.studentsAssignmentId ∧
      db'.assignmentOf sub'.studentsAssignmentId = db.assignmentOf sub.studentsAssignmentId := by
  obtain ⟨sub', hs', hid, -⟩ := hev.submission hs
  obtain ⟨row, hrow⟩ := hown i sub hs
  obtain ⟨row', hrow', -, hasg⟩ := hev.rows _ row hrow
  refine ⟨sub', hs', hid, ?_⟩
  unfold Db.assignmentOf
  rw [hid, hrow, hrow', Option.bind_some, Option.bind_some, hasg, hev.subjectsAssignments]

theorem pointsWithin_iff {db : Db} {sub : Submission} (hs : db.submissions[i]? = some sub) : db.PointsWithin i ↔
    ∀ asg scores, db.assignmentOf sub.studentsAssignmentId = some asg →
      db.pointsOn sub.studentsAssignmentId = some scores →
      ∀ c ∈ asg.config.grading.teacherCriteria, ∀ v, scores.lookup c.key = some v → v ≤ c.max := by
  constructor
  · exact fun h asg scores => h sub asg scores hs
  · intro h sub' asg scores hs'
    rw [hs, Option.some_inj] at hs'
    subst hs'
    exact h asg scores

theorem pointsWithin_congr {db db' : Db} {sub : Submission} (hev : Evolves db db') (hkeeps : KeepsPoints db db')
    (hown : db.SubsOwned) (hs : db.submissions[i]? = some sub) : db'.PointsWithin i ↔ db.PointsWithin i := by
  obtain ⟨sub', hs', hid, hassigned⟩ := hev.assigned hown hs
  rw [pointsWithin_iff hs, pointsWithin_iff hs', hassigned, hid, hkeeps]

/-- A breakdown is only computed for a submission that was there before. -/
theorem submission_of_breakdown {db : Db} {op : Op} (hown : db.SubsOwned) (hold : db.breakdown i ≠ some b)
    (hnew : (db.step op).breakdown i = some b) : ∃ sub, db.submissions[i]? = some sub := by
  have hsame : Prepares db (db.step op) → ∃ sub, db.submissions[i]? = some sub := fun h =>
    absurd ((h i).1.symm.trans hnew) hold
  rcases hs : db.submissions[i]? with _ | sub
  · rw [hs] at hsame
    obtain ⟨sub', hs', -⟩ := Option.bind_eq_some_iff.mp hnew
    have hlt : i < (db.step op).submissions.length := (List.getElem?_eq_some_iff.mp hs').1
    have hge : db.submissions.length ≤ i := List.getElem?_eq_none_iff.mp hs
    rcases (step_spec db op).adds with hlen | ⟨saId, t, isZip, size, check, -, hadded⟩ | ⟨saId, t, rnd, -, hadded⟩
    · omega
    · exact hsame (hadded.prepares hown).1
    · exact hsame (hadded.prepares hown).1
  · exact ⟨sub, rfl⟩

/-- What a step stores is what `finalize_grade` computes in the state it leaves. -/
theorem gradeNow_of_changed {db : Db} {op : Op} (hown : db.SubsOwned) (hold : db.breakdown i ≠ some b)
    (hnew : (db.step op).breakdown i = some b) : (db.step op).gradeNow i = some b := by
  obtain ⟨db₁, db₂, outbox, hprepares, hown₁, hgrades, hdb⟩ := step_grades hown op
  have hcalc : (db.step op).gradeNow i = db₁.gradeNow i := by
    rw [← hgrades.gradeNow hown₁ i, hdb]
    rfl
  have hbreakdown : (db.step op).breakdown i = db₂.breakdown i := by
    rw [hdb]
    rfl
  rw [hbreakdown] at hnew
  rw [hcalc]
  rcases hgrades.done i with ⟨hkept, -⟩ | ⟨hb, -⟩
  · rw [hkept, (hprepares i).1] at hnew
    exact absurd hnew hold
  · rw [hb, (hprepares i).1] at hnew
    rcases hg : db₁.gradeNow i with _ | b'
    · rw [hg] at hnew
      exact absurd hnew hold
    · rw [hg] at hnew
      exact hnew

/-- What `parse_form` takes for a criterion is at most its maximum. -/
theorem parseForm_le {crits : List Criterion} {form : String → Option ℕ} {scores : TeacherScores}
    (hkeys : (crits.map (·.key)).Nodup) (h : parseForm crits form = .ok scores) :
    ∀ c ∈ crits, ∀ v, scores.lookup c.key = some v → v ≤ c.max := by
  intro c hc v hv
  refine foldlM_ok (P := fun out : TeacherScores => ∀ e ∈ out, ∀ c ∈ crits, c.key = e.1 → e.2 ≤ c.max) ?_ h
    (fun e he => by cases he) _ (Assoc.mem_of_lookup hv) c hc rfl
  intro out c' hc' out' hnext hout
  split at hnext
  · cases hnext
    exact hout
  · split_ifs at hnext with hmax
    cases hnext
    intro e he c hc hkey
    rcases List.mem_append.mp he with he | he
    · exact hout e he c hc hkey
    · rw [List.mem_singleton] at he
      subst he
      -- the keys are distinct, so the value was compared with this maximum
      rw [List.inj_on_of_nodup_map hkeys hc hc' hkey]
      exact not_lt.mp hmax

/-- The grade after a save is the grade of the submission found. -/
theorem gradeAfterScores_ok {db db' : Db} {latest : Option ℕ} (h : db.gradeAfterScores latest = .ok db') :
    Within .statuses db db' ∧ (latest ≠ some i → db'.breakdown i = db.breakdown i) := by
  have hgrade : ∀ (e : Db) (j : ℕ), latest = some j → latest ≠ some i →
      (e.finalizeGrade j).breakdown i = e.breakdown i := by
    intro e j hj hne
    have hij : i ≠ j := fun hij => hne (hij ▸ hj)
    unfold Db.breakdown
    rw [finalizeGrade_submissions_ne hij]
  unfold Db.gradeAfterScores at h
  cases latest with
  | none =>
    cases h
    exact ⟨.refl _ db, fun _ => rfl⟩
  | some j =>
    dsimp only at h
    split_ifs at h
    · obtain ⟨db₁, hmove, h⟩ := bind_ok h
      obtain ⟨s, next, -, -, rfl⟩ := transition_ok hmove
      cases h
      refine ⟨(within_setStatus db j next).trans ((within_finalizeGrade _ j).mono (.grades _)), fun hne => ?_⟩
      rw [hgrade _ j rfl hne, breakdown_setStatus]
    · cases h
      exact ⟨(within_finalizeGrade db j).mono (.grades _), hgrade db j rfl⟩
    · cases h
      exact ⟨.refl _ db, fun _ => rfl⟩

/-- A save that changes a grade leaves points within the maxima. -/
theorem saveScores_within {db db' : Db} {subject asgId t : ℕ} {form : String → Option ℕ}
    (hfit : ∀ (a : ℕ) asg, db.subjectsAssignments[a]? = some asg → asg.PointsFit) (hunique : db.UniqueRows)
    (hone : db.OneSquad) (hown : db.SubsOwned) (h : db.saveScores subject asgId t form = .ok db') (hold : db.breakdown i ≠ some b)
    (hnew : db'.breakdown i = some b) : db'.PointsWithin i := by
  obtain ⟨asg, scores, hasg, hsubject, hscored, hparse, h⟩ := saveScores_ok h
  obtain ⟨hw₁, hu₁, -⟩ := lookedUpFor_spec t hasg
  obtain ⟨hw₂, hu₂⟩ := within_withScores db subject t asgId scores
  have hw := hw₁.trans hw₂
  have hwritten : Prepares db (db.withScores subject t asgId scores) :=
    prepares_of_ungraded hw (hu₁.trans hu₂) fun j hj => by rwa [← hw.status_grades]
  have hstays : (db.withScores subject t asgId scores).breakdown i ≠ some b := by
    rw [(hwritten i).1]
    exact hold
  split_ifs at h with hcomplete
  · obtain ⟨hgraded, hothers⟩ := gradeAfterScores_ok (i := i) h
    have hi : (db.lookedUpFor t asgId).2 = some i := by
      by_contra hne
      exact hstays ((hothers hne).symm.trans hnew)
    obtain ⟨sub, row, hsub, hrow, hscores, hrowasg⟩ := withScores_owner hunique hone hasg hsubject scores hi
    rw [pointsWithin_congr hgraded.evolves (keepsPoints_gradeAfterScores h) (hw.subsOwned hown) hsub, pointsWithin_iff hsub]
    intro asg' scores' hasg' hscores'
    rw [Db.assignmentOf, hrow, Option.bind_some, hrowasg, Option.some_inj] at hasg'
    rw [Db.pointsOn, hrow, Option.bind_some, hscores, Option.some_inj] at hscores'
    subst hasg' hscores'
    exact parseForm_le (hfit asgId asg hasg hscored).keys hparse
  · rw [h] at hnew
    exact absurd hnew hstays

end

section

variable {isTest : ℕ → Bool} {p p₀ : Portal} {op : PortalOp} {ops : List PortalOp} {i : ℕ} {b : GradeBreakdown}

/-- A scored grade adds up exactly when it is computed in the request that saves the points, or the
points saved before are within the maxima the criteria have now. -/
theorem scored_grade_adds_up_iff (hstart : p₀.Configured) (h : Run (Portal.checkedStep isTest) Any p₀ ops p)
    (hold : p.db.breakdown i ≠ some b) (hnew : (p.checkedStep isTest op).db.breakdown i = some b)
    (hmode : (p.checkedStep isTest op).db.isScoredSubmission i = true) :
    (p.checkedStep isTest op).db.AddsUp i b ↔ op.savesPoints = true ∨ p.db.PointsWithin i := by
  have ok := Portal.WorkOk.run hstart.fresh h
  have pts := Portal.PointsOk.run hstart h
  have ok' : (p.checkedStep isTest op).WorkOk := ok.step op
  have pts' : (p.checkedStep isTest op).PointsOk := pts.step op
  rcases checkedStep_cases isTest p op with hundone | ⟨hstep, -⟩
  · rw [hundone] at hnew
    exact absurd hnew hold
  · rw [hstep] at hnew hmode ok' pts' ⊢
    cases op with
    | squad op =>
      have hrest := (squadStep_spec isTest p.db op).regroups.rest
      change (p.db.squadStep isTest op).breakdown i = some b at hnew
      rw [hrest] at hnew
      exact absurd hnew hold
    | apply x cfg =>
      unfold Portal.step at hnew
      dsimp only at hnew
      split at hnew
      · rename_i db' happly
        have hsubs := (configures_applyConfig happly).submissions
        change db'.breakdown i = some b at hnew
        rw [Db.breakdown, hsubs] at hnew
        exact absurd hnew hold
      · exact absurd hnew hold
    | request op =>
      change (p.db.step op).breakdown i = some b at hnew
      obtain ⟨sub, hs⟩ := submission_of_breakdown ok.owned hold hnew
      rw [gradeNow_addsUp_iff ok' pts' hmode (gradeNow_of_changed ok.owned hold hnew)]
      by_cases hsave : ∃ subject asgId t form, op = .saveScores subject asgId t form
      · obtain ⟨subject, asgId, t, form, rfl⟩ := hsave
        refine iff_of_true ?_ (.inl rfl)
        change (p.db.step (.saveScores subject asgId t form)).PointsWithin i
        unfold Db.step at hnew ⊢
        rcases hreq : p.db.request (.saveScores subject asgId t form) with e | db'
        · rw [hreq] at hnew
          exact absurd hnew hold
        · rw [hreq] at hnew
          exact saveScores_within pts.listed.fit ok.consistent.unique ok.consistent.formed.oneSquad ok.owned hreq hold hnew
      · push Not at hsave
        have hno : (PortalOp.request op).savesPoints = false := by
          cases op with
          | saveScores subject asgId t form => exact absurd rfl (hsave _ _ _ _)
          | _ => rfl
        rw [hno]
        simp only [Bool.false_eq_true, false_or]
        exact pointsWithin_congr (evolves_step p.db op) (step_keepsPoints p.db hsave) ok.owned hs

end

/-! A maximum lowered after the points were saved -/

/-- A config that grades work by a quiz and one criterion. -/
def pointsConfig (quiz code : ℤ) : SubjectConfig where
  assignments := [("A", { config := { reviewMode := some .quizAndTeacherScores
                                      grading := { quizPoints := some quiz, teacherCriteria := [⟨"code", "Code", code, false⟩] } }
                          quiz := { questions := [{ type := .trueFalse }] } })]
  codes := List.nodup_singleton _

/-- A student under it, before any work. -/
def gradedInTwoHalves : Portal where
  db := { oneSubject { reviewMode := some .quizAndTeacherScores, quiz := { questions := [{ type := .trueFalse }] } }
            { quizPoints := some 40, teacherCriteria := [⟨"code", "Code", 60, false⟩] } [] [0] with subjects := [{}] }
  stored := fun _ => pointsConfig 40 60

theorem gradedInTwoHalves_configured : gradedInTwoHalves.Configured := by
  have hrow : ∀ (a : ℕ) asg, gradedInTwoHalves.db.subjectsAssignments[a]? = some asg → a = 0 ∧
      asg = { subjectId := 0, code := some "A"
              config := { reviewMode := some .quizAndTeacherScores
                          grading := { quizPoints := some 40, teacherCriteria := [⟨"code", "Code", 60, false⟩] } } } := by
    intro a asg hasg
    obtain ⟨hlt, rfl⟩ := List.getElem?_eq_some_iff.mp hasg
    have ha : a < 1 := hlt
    obtain rfl : a = 0 := by omega
    exact ⟨rfl, rfl⟩
  refine ⟨⟨rfl, rfl, ?_, rfl, rfl⟩, ⟨fun a asg hasg _ => ?_, fun a a' asg asg' hasg hasg' _ _ _ => ?_, fun a asg hasg => ?_⟩,
    fun r => ?_⟩
  · have hstart : (oneSubject {} {} [] [0]).Start := oneSubject_start (by decide) List.Pairwise.nil
    exact hstart.unique
  · obtain ⟨-, rfl⟩ := hrow a asg hasg
    exact ⟨"A", _, rfl, rfl, rfl, rfl, rfl⟩
  · rw [(hrow a asg hasg).1, (hrow a' asg' hasg').1]
  · obtain ⟨-, rfl⟩ := hrow a asg hasg
    exact fun _ => ⟨by decide, by decide, by decide, by decide⟩
  · match r with
    | 0 => rfl
    | _ + 1 => rfl

/-- 60 points are saved, the maximum becomes 50, and the quiz is begun. -/
def cutShort : List PortalOp :=
  [.request (.saveScores 0 0 0 fun _ => some 60), .apply 0 (pointsConfig 50 50), .request (.startQuiz 0 0 {})]

/-- The quiz passes, and the grade has 60 points of 50. -/
theorem scored_grade_cut : ¬ ∀ (isTest : ℕ → Bool) (p₀ p : Portal) (ops : List PortalOp) (op : PortalOp) (i : ℕ)
    (b : GradeBreakdown), p₀.Configured → Run (Portal.checkedStep isTest) Any p₀ ops p → p.db.breakdown i ≠ some b →
    (p.checkedStep isTest op).db.breakdown i = some b → (p.checkedStep isTest op).db.isScoredSubmission i = true →
    (p.checkedStep isTest op).db.AddsUp i b := by
  intro hall
  have h := hall (fun _ => false) gradedInTwoHalves _ cutShort (.request (.submitQuiz 0 0 (fun _ => true) false)) 0
    { grade := 100, parts := .inr { quizPct := 100, quizPoints := 50, quizMax := 50, criteria := [⟨"code", "Code", 60, 50⟩] } }
    gradedInTwoHalves_configured (run_foldl _) (by decide +kernel) (by decide +kernel) (by decide +kernel)
  obtain ⟨sub, asg, parts, -, -, hadds⟩ := h
  obtain rfl := Sum.inr.inj hadds.scored
  exact absurd (hadds.points _ List.mem_cons_self).2 (by decide)

/-- The 60 points saved under the first config, and the quiz begun. -/
def pointsSaved : Portal :=
  [PortalOp.request (.saveScores 0 0 0 fun _ => some 60), .request (.startQuiz 0 0 {})].foldl
    (Portal.checkedStep fun _ => false) gradedInTwoHalves

theorem pointsSaved_within : pointsSaved.db.PointsWithin 0 := by
  intro sub asg scores hsub hasg hscores c hc v hv
  have hid : (pointsSaved.db.submissions[0]?).map (·.studentsAssignmentId) = some 0 := by decide +kernel
  rw [hsub, Option.map_some, Option.some_inj] at hid
  rw [hid] at hasg hscores
  have hcrits : (pointsSaved.db.assignmentOf 0).map (·.config.grading.teacherCriteria) =
      some [⟨"code", "Code", 60, false⟩] := by decide +kernel
  rw [hasg, Option.map_some, Option.some_inj] at hcrits
  rw [hcrits, List.mem_singleton] at hc
  have hpoints : pointsSaved.db.pointsOn 0 = some [("code", 60)] := by decide +kernel
  rw [hpoints, Option.some_inj] at hscores
  subst hc hscores
  cases hv
  exact le_rfl

/-- Without the new config the same points add up. -/
theorem scored_grade_whole :
    (pointsSaved.checkedStep (fun _ => false) (.request (.submitQuiz 0 0 (fun _ => true) false))).db.AddsUp 0
      { grade := 100, parts := .inr { quizPct := 100, quizPoints := 40, quizMax := 40, criteria := [⟨"code", "Code", 60, 60⟩] } } :=
  (scored_grade_adds_up_iff gradedInTwoHalves_configured (run_foldl _) (by decide +kernel) (by decide +kernel)
    (by decide +kernel)).mpr (.inr pointsSaved_within)

end SubmissionsChecker
