import SubmissionsChecker.Invariants.Reachable
import SubmissionsChecker.Sessions.Finishes
import SubmissionsChecker.Sessions.StartCommits

/-! Quiz starts side by side, with the requests of the attempts they create. A start looks at the
attempts there are and inserts one more without a lock on them, so a double click can insert two. -/

namespace SubmissionsChecker

open ReadCommitted Runs

/-- Starts and the requests of running attempts. -/
abbrev Quizzing := Start ⊕ Finish

def quizzing : Quizzing → Stmt Db Quizzing Row := both Start.next Finish.next

/-- What of a submission decides about attempts. -/
def Submission.terms (sub : Submission) : ℕ × Option ℕ × List (ℕ × ℕ) :=
  (sub.studentsAssignmentId, sub.pluginConfigId, sub.quizExtraAttempts)

namespace Db

/-- The student's attempts on the submission that are still running. -/
def inProgress (db : Db) (i studentId : ℕ) : ℕ := (db.attemptsOf i studentId).countP (·.status == .inProgress)

/-- The pinned cap with what was granted to the student. -/
def allowance (db : Db) (i studentId : ℕ) : Option ℤ :=
  (db.submissions[i]?).bind fun sub => effectiveMaxAttempts (db.baseMaxAttempts i) sub (some studentId)

/-- One running attempt at most, and no more attempts than allowed. -/
def WithinAllowance (db : Db) (i studentId : ℕ) : Prop :=
  db.inProgress i studentId ≤ 1 ∧ ∀ cap ∈ db.allowance i studentId, ((db.attemptsOf i studentId).length : ℤ) ≤ cap

/-- Every attempt is on a submission. -/
def Linked (db : Db) : Prop := ∀ a ∈ db.quizAttempts, a.submissionId < db.submissions.length

/-- The object `sub` of submission `i` still has the terms of the row. -/
def Caches (db : Db) (i : ℕ) (sub : Submission) : Prop := (db.submissions[i]?).map Submission.terms = some sub.terms

instance (db : Db) (i studentId : ℕ) : Decidable (db.WithinAllowance i studentId) := by
  unfold WithinAllowance
  infer_instance

end Db

/-- A start commits an attempt while the student has as many as it read. -/
def Start.StartsFresh (db : Db) : Start → Prop
  | .adding i t _ existing | .drawn i t _ existing _ _ => (db.attemptsOf i t).length = existing.length
  | _ => True

def Quizzing.StartsFresh (db : Db) : Quizzing → Prop := Sum.elim (Start.StartsFresh db) fun _ => True

instance Quizzing.decidableStartsFresh (db : Db) (l : Quizzing) : Decidable (l.StartsFresh db) := by
  cases l with
  | inl l =>
    unfold Quizzing.StartsFresh Start.StartsFresh
    dsimp only [Sum.elim_inl]
    split <;> infer_instance
  | inr l =>
    unfold Quizzing.StartsFresh
    dsimp only [Sum.elim_inr]
    infer_instance

/-- If all the attempts read were finished, those that run have been added since. -/
def Db.Saw (db : Db) (i t : ℕ) (existing : List QuizAttempt) : Prop :=
  (∀ a ∈ existing, a.status.isTerminal = true) →
    db.inProgress i t + existing.length ≤ (db.attemptsOf i t).length

/-- All the attempts read were finished, and they left room for one more. -/
structure Db.Room (db : Db) (i t : ℕ) (existing : List QuizAttempt) : Prop where
  exists' : i < db.submissions.length
  finished : db.inProgress i t + existing.length ≤ (db.attemptsOf i t).length
  allowed : ∀ cap ∈ db.allowance i t, (existing.length : ℤ) < cap

/-- What a start remembers of its submission and of the attempts on it. -/
def Start.Remembers (db : Db) : Start → Prop
  | .owned _ _ _ loaded | .opening _ _ _ loaded | .opened _ _ _ loaded => ∀ e ∈ loaded, db.Caches e.1 e.2
  | .found i sub _ asg _ => db.Caches i sub ∧ db.assignmentOf sub.studentsAssignmentId = some asg
  | .counted i sub t asg _ existing =>
    (db.Caches i sub ∧ db.assignmentOf sub.studentsAssignmentId = some asg) ∧ db.Saw i t existing
  | .drawing i _ t _ _ existing => db.Room i t existing
  | .drawn i t attempt existing _ _ | .adding i t attempt existing =>
    db.Room i t existing ∧ attempt.submissionId = i ∧ attempt.studentId = some t
  | .asked .. | .creating .. | .inserting .. | .started .. | .ended => True

/-! What is steady while quizzes are started and finished -/

/-- Submissions keep their terms, and configs, assignments and rows stay. -/
structure Db.Steady (db db' : Db) : Prop where
  remains : db.Remains db'
  configs : db'.pluginConfigs = db.pluginConfigs
  terms : ∀ i < db.submissions.length, (db'.submissions[i]?).map Submission.terms = (db.submissions[i]?).map Submission.terms

/-- Attempts are only added, and a finished one does not run again. -/
structure Db.MoreAttempts (db db' : Db) (i t : ℕ) : Prop where
  length : (db.attemptsOf i t).length ≤ (db'.attemptsOf i t).length
  running : db'.inProgress i t + (db.attemptsOf i t).length ≤ db.inProgress i t + (db'.attemptsOf i t).length

section

variable {db db' : Db} {i t : ℕ} {sub : Submission} {asg : SubjectsAssignment}

theorem Db.MoreAttempts.refl (db : Db) (i t : ℕ) : db.MoreAttempts db i t := ⟨le_rfl, le_rfl⟩

namespace Db.Steady

theorem refl (db : Db) : db.Steady db := ⟨(Evolves.refl db).remains, rfl, fun _ _ => rfl⟩

theorem length (h : db.Steady db') : db.submissions.length ≤ db'.submissions.length := by
  by_contra hlt
  have hterms := h.terms db'.submissions.length (by omega)
  rw [List.getElem?_eq_none le_rfl, List.getElem?_eq_getElem (show db'.submissions.length < db.submissions.length by omega)]
    at hterms
  cases hterms

theorem submission (h : db.Steady db') (hs : db.submissions[i]? = some sub) :
    ∃ sub', db'.submissions[i]? = some sub' ∧ sub'.terms = sub.terms := by
  have hterms := h.terms i (List.getElem?_eq_some_iff.mp hs).1
  rw [hs, Option.map_some] at hterms
  exact Option.map_eq_some_iff.mp hterms

theorem caches (h : db.Steady db') (hc : db.Caches i sub) : db'.Caches i sub := by
  obtain ⟨s, hs, -⟩ := Option.map_eq_some_iff.mp hc
  rw [Db.Caches, h.terms i (List.getElem?_eq_some_iff.mp hs).1]
  exact hc

theorem assignmentOf {saId : ℕ} (h : db.Steady db') (hasg : db.assignmentOf saId = some asg) :
    db'.assignmentOf saId = some asg := by
  obtain ⟨sa, hsa, hasg⟩ := Option.bind_eq_some_iff.mp hasg
  obtain ⟨sa', hsa', -, hid⟩ := h.remains.rows saId sa hsa
  rw [Db.assignmentOf, hsa', Option.bind_some, hid, h.remains.assignments, hasg]

/-- The allowance is settled with the submission. -/
theorem allowance (h : db.Steady db') (howned : db.Owned) (hs : db.submissions[i]? = some sub) :
    db'.allowance i t = db.allowance i t := by
  obtain ⟨sub', hs', hterms⟩ := h.submission hs
  have hrow : sub'.studentsAssignmentId = sub.studentsAssignmentId := congrArg Prod.fst hterms
  have hpin : sub'.pluginConfigId = sub.pluginConfigId := congrArg (fun x => x.2.1) hterms
  have hextra : sub'.quizExtraAttempts = sub.quizExtraAttempts := congrArg (fun x => x.2.2) hterms
  obtain ⟨sa, hsa⟩ := Option.isSome_iff_exists.mp (howned sub (List.mem_of_getElem? hs))
  obtain ⟨sa', hsa', -, hid⟩ := h.remains.rows _ sa hsa
  have hassigned : db'.assignmentOf sub.studentsAssignmentId = db.assignmentOf sub.studentsAssignmentId := by
    rw [Db.assignmentOf, Db.assignmentOf, hsa, hsa', Option.bind_some, Option.bind_some, hid, h.remains.assignments]
  simp only [Db.allowance, Db.baseMaxAttempts, Db.pinnedBlock, effectiveMaxAttempts, Submission.extraAttempts, hs, hs',
    Option.bind_some, hrow, hpin, hextra, h.configs, hassigned]

theorem owned (h : db.Steady db') (howned : db.Owned) (hnew : ∀ (j : ℕ) (s : Submission), db.submissions[j]? = none →
    db'.submissions[j]? = some s → db.HasRow s.studentsAssignmentId) : db'.Owned := by
  intro sub' hsub'
  obtain ⟨j, hj⟩ := List.mem_iff_getElem?.mp hsub'
  refine h.remains.hasRow ?_
  cases hold : db.submissions[j]? with
  | none => exact hnew j sub' hold hj
  | some s =>
    obtain ⟨s', hs', hterms⟩ := h.submission hold
    rw [hj, Option.some_inj] at hs'
    rw [hs', show s'.studentsAssignmentId = s.studentsAssignmentId from congrArg Prod.fst hterms]
    exact howned s (List.mem_of_getElem? hold)

end Db.Steady

theorem attemptsOf_add {a : QuizAttempt} (h : db'.quizAttempts = db.quizAttempts ++ [a]) (i t : ℕ) :
    db'.attemptsOf i t = db.attemptsOf i t ++
      if a.submissionId = i ∧ (a.studentId = some t ∨ a.studentId = none) then [a] else [] := by
  simp only [Db.attemptsOf, h, List.filter_append, List.append_cancel_left_eq]
  by_cases ha : a.submissionId = i ∧ (a.studentId = some t ∨ a.studentId = none)
  · rw [if_pos ha]
    simp [ha]
  · rw [if_neg ha]
    simpa using ha

theorem moreAttempts_add {a : QuizAttempt} (h : db'.quizAttempts = db.quizAttempts ++ [a]) (i t : ℕ) :
    db.MoreAttempts db' i t := by
  constructor
  · rw [attemptsOf_add h]
    simp
  · rw [Db.inProgress, Db.inProgress, attemptsOf_add h, List.countP_append, List.length_append]
    have hle := List.countP_le_length (p := fun b : QuizAttempt => b.status == .inProgress)
      (l := if a.submissionId = i ∧ (a.studentId = some t ∨ a.studentId = none) then [a] else [])
    omega

theorem attemptsOf_set_length {f : QuizAttempt → QuizAttempt}
    (hof : ∀ a, (f a).submissionId = a.submissionId ∧ (f a).studentId = a.studentId) (k i t : ℕ) :
    ((db.setAttempt k f).attemptsOf i t).length = (db.attemptsOf i t).length := by
  simp only [Db.attemptsOf, Db.setAttempt_quizAttempts, ← List.countP_eq_length_filter]
  exact Table.countP_modify_eq (fun a => by rw [(hof a).1, (hof a).2]) _ _

theorem inProgress_set_le {f : QuizAttempt → QuizAttempt}
    (hof : ∀ a, (f a).submissionId = a.submissionId ∧ (f a).studentId = a.studentId)
    (hdone : ∀ a : QuizAttempt, a.status.isTerminal = true → (f a).status.isTerminal = true) (k i t : ℕ) :
    (db.setAttempt k f).inProgress i t ≤ db.inProgress i t := by
  simp only [Db.inProgress, Db.attemptsOf, Db.setAttempt_quizAttempts, List.countP_filter]
  refine Table.countP_modify_le (fun a ha => ?_) _ _
  rw [(hof a).1, (hof a).2] at ha
  simp only [Bool.and_eq_true, beq_iff_eq] at ha ⊢
  refine ⟨?_, ha.2⟩
  have hno := hdone a
  cases hstatus : a.status with
  | inProgress => rfl
  | _ =>
    rw [hstatus, ha.1] at hno
    exact absurd (hno rfl) (by decide)

/-! What a finish commits -/

/-- A finish keeps the number of attempts, and none of them runs again. -/
structure Db.Finishes (db db' : Db) : Prop where
  steady : db.Steady db'
  length : ∀ i t, (db'.attemptsOf i t).length = (db.attemptsOf i t).length
  inProgress : ∀ i t, db'.inProgress i t ≤ db.inProgress i t
  submissions : db'.submissions.length = db.submissions.length
  linked : db.Linked → db'.Linked

theorem Db.Finishes.moreAttempts (h : db.Finishes db') (i t : ℕ) : db.MoreAttempts db' i t := by
  have hlength := h.length i t
  have hle := h.inProgress i t
  exact ⟨hlength.ge, by omega⟩

theorem Finish.commit_finishes {l l' : Finish} {f : Db → Db} (hl : l.Sound) (h : l.next = .commit f l') :
    db.Finishes (f db) := by
  obtain ⟨w, hwithin, hdone⟩ : ∃ w : QuizWork, Within (.status w.i) (db.setAttempt w.k w.write) (f db) ∧
      ∀ row : QuizAttempt, row.status.isTerminal = true → (w.write row).status.isTerminal = true :=
    Finish.commit_terminal hl h
  have hof : ∀ a, (w.write a).submissionId = a.submissionId ∧ (w.write a).studentId = a.studentId :=
    fun a => ⟨rfl, rfl⟩
  have hattempts : (f db).quizAttempts = (db.setAttempt w.k w.write).quizAttempts := hwithin.quizAttempts
  have hsame : ∀ i t, (f db).attemptsOf i t = (db.setAttempt w.k w.write).attemptsOf i t := fun i t => by
    rw [Db.attemptsOf, Db.attemptsOf, hattempts]
  refine ⟨⟨⟨hwithin.subjectsAssignments, hwithin.rows, fun q s hs => ⟨s, by rw [hwithin.squads]; exact hs, rfl⟩⟩,
    hwithin.pluginConfigs, fun i _ => ?_⟩, fun i t => ?_, fun i t => ?_, hwithin.submissions_length, fun hlinked a ha => ?_⟩
  · refine hwithin.map_sub Submission.terms i fun sub => ?_
    unfold Scope.keep
    dsimp only
    split_ifs <;> rfl
  · rw [hsame]
    exact attemptsOf_set_length hof w.k i t
  · rw [Db.inProgress, hsame]
    exact inProgress_set_le hof hdone w.k i t
  · rw [hwithin.submissions_length]
    rw [hattempts] at ha
    obtain ⟨j, hj⟩ := List.mem_iff_getElem?.mp ha
    obtain ⟨a₀, ha₀, rfl⟩ := Table.getElem?_modify_some hj
    have := hlinked a₀ (List.mem_of_getElem? ha₀)
    split_ifs <;> exact this

/-! What a start commits -/

/-- The cap a start judges by is the one of the submission it found. -/
theorem allowance_of_plan {db₀ : Db} {sub₀ : Submission} {plan : StartPlan} (hs : db.submissions[i]? = some sub)
    (hasg : db.assignmentOf sub.studentsAssignmentId = some asg) (hterms : sub.terms = sub₀.terms)
    (hconfigs : db₀.pluginConfigs = db.pluginConfigs) (hplan : db₀.startPlan sub₀ asg = .ok plan) :
    db.allowance i t = effectiveMaxAttempts plan.block.quiz.maxQuizAttempts sub₀ (some t) := by
  have hpin : sub.pluginConfigId = sub₀.pluginConfigId := congrArg (fun x => x.2.1) hterms
  have hextra : sub.quizExtraAttempts = sub₀.quizExtraAttempts := congrArg (fun x => x.2.2) hterms
  unfold Db.startPlan at hplan
  split at hplan
  · cases hplan
  · rename_i c hc
    rw [hconfigs] at hplan
    split at hplan
    · cases hplan
    · rename_i cfg hcfg
      dsimp only at hplan
      split_ifs at hplan with hcode
      cases hplan
      obtain ⟨code, hcode⟩ := Option.ne_none_iff_exists'.mp (Option.isNone_iff_eq_none.not.mp hcode)
      simp only [Db.allowance, Db.baseMaxAttempts, Db.pinnedBlock, effectiveMaxAttempts, Submission.extraAttempts, hs,
        Option.bind_some, hpin, hc, hcfg, hasg, hcode, Option.map_some, hextra]

theorem Draws.terms {db₁ : Db} (h : Draws i db db₁) (j : ℕ) :
    (db₁.submissions[j]?).map Submission.terms = (db.submissions[j]?).map Submission.terms := by
  obtain rfl | ⟨draw, rfl⟩ := h
  · rfl
  · rw [Db.setSubmission_submissions, List.getElem?_modify]
    split_ifs <;> cases db.submissions[j]? <;> rfl

theorem Draws.quizAttempts {db₁ : Db} (h : Draws i db db₁) : db₁.quizAttempts = db.quizAttempts := by
  obtain rfl | ⟨draw, rfl⟩ := h <;> rfl

/-- A quiz that is opened gets its first attempt, which the cap allows. -/
theorem openAndStart_first {saId : ℕ} {rnd : Shuffles} (h : db.openAndStart saId t rnd = .ok db') :
    (∃ a, db'.quizAttempts = db.quizAttempts ++ [a] ∧ a.submissionId = db.submissions.length) ∧
      db'.submissions.length = db.submissions.length + 1 ∧
      (∀ (s : Submission), db'.submissions[db.submissions.length]? = some s → db.HasRow s.studentsAssignmentId) ∧
      ∀ t', ∀ cap ∈ db'.allowance db.submissions.length t', 0 < cap := by
  have hev := openAndStart_evolves h
  obtain ⟨new, sa, asg, plan, db₁, questions, hsa, hasg, hnew, hplan, hcap, hdraws, rfl⟩ := openAndStart_spec h
  have hattempts : db₁.quizAttempts = db.quizAttempts := by
    rw [hdraws.quizAttempts, Db.addOpened, Db.setSubmission_quizAttempts, addSubmission_quizAttempts]
  have hnewest := hdraws.terms db.submissions.length
  rw [addOpened_submissions, Table.getElem?_concat_length, Option.map_some] at hnewest
  obtain ⟨s₁, hs₁, hterms⟩ := Option.map_eq_some_iff.mp hnewest
  have hrow : s₁.studentsAssignmentId = saId := (congrArg Prod.fst hterms).trans hnew.row
  refine ⟨⟨_, congrArg (· ++ _) hattempts, rfl⟩, ?_, fun s hs => ?_, fun t' cap hmem => ?_⟩
  · have hlength : db₁.submissions.length = (db.addOpened new).submissions.length := by
      obtain rfl | ⟨draw, rfl⟩ := hdraws
      · rfl
      · exact List.length_modify ..
    change db₁.submissions.length = _
    rw [hlength, addOpened_submissions, List.length_append, List.length_singleton]
  · change db₁.submissions[db.submissions.length]? = some s at hs
    rw [hs₁, Option.some_inj] at hs
    rw [← hs, hrow]
    exact Option.isSome_of_eq_some hsa
  · have hassigned : db.assignmentOf saId = some asg := by rw [Db.assignmentOf, hsa, Option.bind_some, hasg]
    have hassigned' : db₁.assignmentOf s₁.studentsAssignmentId = some asg := by
      rw [hrow]
      exact ((addOpened_evolves db new).trans hdraws.evolves).assignmentOf hassigned
    have hallowed : db₁.allowance db.submissions.length t' = effectiveMaxAttempts plan.block.quiz.maxQuizAttempts
        { new with status := .quizSent } (some t') :=
      allowance_of_plan hs₁ hassigned' hterms hdraws.evolves.pluginConfigs.symm hplan
    change cap ∈ db₁.allowance db.submissions.length t' at hmem
    rw [hallowed] at hmem
    unfold Db.capReached effectiveMaxAttempts at hcap
    simp only [effectiveMaxAttempts, Submission.extraAttempts, hnew.metadata.1, Option.mem_map] at hmem hcap
    obtain ⟨base, hbase, rfl⟩ := hmem
    rw [hbase] at hcap
    simpa using hcap

/-- A start adds one attempt, and perhaps its submission. -/
theorem Start.commit_steady {l l' : Start} {f : Db → Db} {H : Set Row} (hB : l.Knows db H) (h : l.next = .commit f l') :
    db.Steady (f db) ∧ ∀ i t, db.MoreAttempts (f db) i t := by
  have hev := (Start.commit_evolves hB h).1
  cases l <;> cases h
  case inserting saId t rnd =>
    change db.Steady (Start.inserted db saId t rnd) ∧ ∀ i t', db.MoreAttempts (Start.inserted db saId t rnd) i t'
    obtain hsame | ho := inserted_cases db saId t rnd
    · rw [hsame]
      exact ⟨.refl db, .refl db⟩
    · refine ⟨⟨hev.remains, hev.pluginConfigs, fun i hi => ?_⟩, fun i t' => ?_⟩
      · rw [openAndStart_keeps ho (List.getElem?_eq_getElem hi), List.getElem?_eq_getElem hi]
      · obtain ⟨a, ha, -⟩ := (openAndStart_first ho).1
        exact moreAttempts_add ha i t'
  case drawn i t attempt existing refreshed draw =>
    have hdraws : Draws i db (db.setSubmission i (Start.storeDraw refreshed draw)) := storeDraw_draws hB.1
    exact ⟨⟨hev.remains, rfl, fun j _ => hdraws.terms j⟩, fun i' t' => moreAttempts_add rfl i' t'⟩
  case adding i t attempt existing =>
    exact ⟨⟨hev.remains, rfl, fun _ _ => rfl⟩, fun i' t' => moreAttempts_add rfl i' t'⟩

theorem linked_add {a : QuizAttempt} (hlinked : db.Linked) (h : db'.quizAttempts = db.quizAttempts ++ [a])
    (hlength : db.submissions.length ≤ db'.submissions.length) (ha : a.submissionId < db'.submissions.length) :
    db'.Linked := by
  intro b hb
  rw [h, List.mem_append, List.mem_singleton] at hb
  rcases hb with hb | rfl
  · exact (hlinked b hb).trans_le hlength
  · exact ha

/-- There are no attempts on a submission that is not there. -/
theorem attemptsOf_missing (hlinked : db.Linked) (hi : db.submissions.length ≤ i) (t : ℕ) : db.attemptsOf i t = [] := by
  rw [Db.attemptsOf, List.filter_eq_nil_iff]
  intro a ha hof
  simp only [Bool.and_eq_true, beq_iff_eq] at hof
  have := hlinked a ha
  omega

/-- The attempts of one student on one submission, when another one starts. -/
theorem WithinAllowance.other {a : QuizAttempt} (hwithin : db.WithinAllowance i t) (hadd : db'.quizAttempts = db.quizAttempts ++ [a])
    (hother : ¬ (a.submissionId = i ∧ (a.studentId = some t ∨ a.studentId = none)))
    (hallowed : db'.allowance i t = db.allowance i t) : db'.WithinAllowance i t := by
  have hsame : db'.attemptsOf i t = db.attemptsOf i t := by
    rw [attemptsOf_add hadd, if_neg hother, List.append_nil]
  unfold Db.WithinAllowance Db.inProgress
  rw [hsame, hallowed]
  exact hwithin

/-- One more attempt, while all are finished and there is room. -/
theorem WithinAllowance.fresh {a : QuizAttempt} {existing : List QuizAttempt} (hroom : db.Room i t existing)
    (hfresh : (db.attemptsOf i t).length = existing.length) (hadd : db'.quizAttempts = db.quizAttempts ++ [a])
    (hallowed : db'.allowance i t = db.allowance i t) : db'.WithinAllowance i t := by
  have hfinished := hroom.finished
  have hmore := moreAttempts_add hadd i t
  have hlength : (db'.attemptsOf i t).length ≤ (db.attemptsOf i t).length + 1 := by
    rw [attemptsOf_add hadd, List.length_append]
    split_ifs <;> simp
  refine ⟨?_, fun cap hcap => ?_⟩
  · have := hmore.running
    omega
  · rw [hallowed] at hcap
    have := hroom.allowed cap hcap
    omega

theorem Start.commit_within {i₀ t₀ : ℕ} {l l' : Start} {f : Db → Db} {H : Set Row} (howned : db.Owned)
    (hlinked : db.Linked) (hwithin : db.WithinAllowance i₀ t₀) (hB : l.Knows db H) (hR : l.Remembers db)
    (hok : l.StartsFresh db) (h : l.next = .commit f l') :
    (f db).Owned ∧ (f db).Linked ∧ (f db).WithinAllowance i₀ t₀ := by
  have hsteady := (Start.commit_steady hB h).1
  have hlength := hsteady.length
  have hallowed : i₀ < db.submissions.length → (f db).allowance i₀ t₀ = db.allowance i₀ t₀ := fun hlt =>
    hsteady.allowance howned (List.getElem?_eq_getElem hlt)
  have hkept : (f db).submissions.length = db.submissions.length → (f db).Owned := by
    intro hlen
    refine hsteady.owned howned fun j s hnone hs => ?_
    have hout := List.getElem?_eq_none_iff.mp hnone
    have hin := (List.getElem?_eq_some_iff.mp hs).1
    omega
  -- a start on a submission that is there
  have hone : ∀ {i t : ℕ} {a : QuizAttempt} {existing : List QuizAttempt}, db.Room i t existing →
      a.submissionId = i ∧ a.studentId = some t → (db.attemptsOf i t).length = existing.length →
      (f db).quizAttempts = db.quizAttempts ++ [a] → (f db).submissions.length = db.submissions.length →
      (f db).Owned ∧ (f db).Linked ∧ (f db).WithinAllowance i₀ t₀ := by
    rintro i t a existing hroom ⟨ha, hst⟩ hfresh hadd hlen
    have hin := hroom.exists'
    refine ⟨hkept hlen, linked_add hlinked hadd hlength (by omega), ?_⟩
    by_cases hsame : i = i₀ ∧ t = t₀
    · obtain ⟨rfl, rfl⟩ := hsame
      exact WithinAllowance.fresh hroom hfresh hadd (hallowed hin)
    · have hother : ¬ (a.submissionId = i₀ ∧ (a.studentId = some t₀ ∨ a.studentId = none)) := by
        rw [ha, hst]
        simpa using hsame
      by_cases hi₀ : i₀ < db.submissions.length
      · exact WithinAllowance.other hwithin hadd hother (hallowed hi₀)
      · refine WithinAllowance.other hwithin hadd hother ?_
        rw [Db.allowance, Db.allowance, List.getElem?_eq_none (by omega), List.getElem?_eq_none (by omega)]
        rfl
  cases l <;> cases h
  case drawn i t attempt existing refreshed draw =>
    exact hone hR.1 hR.2 hok rfl (List.length_modify ..)
  case adding i t attempt existing => exact hone hR.1 hR.2 hok rfl rfl
  case inserting saId t rnd =>
    change (Start.inserted db saId t rnd).Owned ∧ (Start.inserted db saId t rnd).Linked ∧
      (Start.inserted db saId t rnd).WithinAllowance i₀ t₀
    change db.Steady (Start.inserted db saId t rnd) at hsteady
    change i₀ < _ → (Start.inserted db saId t rnd).allowance i₀ t₀ = _ at hallowed
    obtain hsame | ho := inserted_cases db saId t rnd
    · rw [hsame]
      exact ⟨howned, hlinked, hwithin⟩
    · obtain ⟨⟨a, hadd, ha⟩, hlen, hrow, hcap⟩ := openAndStart_first ho
      refine ⟨?_, linked_add hlinked hadd (by omega) (by omega), ?_⟩
      · refine hsteady.owned howned fun j s hnone hs => ?_
        have hout := List.getElem?_eq_none_iff.mp hnone
        have hin := (List.getElem?_eq_some_iff.mp hs).1
        obtain rfl : j = db.submissions.length := by omega
        exact hrow s hs
      · by_cases hi₀ : i₀ < db.submissions.length
        · exact WithinAllowance.other hwithin hadd (fun hof => by omega) (hallowed hi₀)
        · have hnone := attemptsOf_missing hlinked (not_lt.mp hi₀) t₀
          have hle : ((Start.inserted db saId t rnd).attemptsOf i₀ t₀).length ≤ 1 := by
            rw [attemptsOf_add hadd, hnone]
            split_ifs <;> simp
          refine ⟨List.countP_le_length.trans hle, fun cap hmem => ?_⟩
          have hpos : 0 < cap := by
            by_cases hnew : i₀ = db.submissions.length
            · subst hnew
              exact hcap t₀ cap hmem
            · rw [Db.allowance, List.getElem?_eq_none (by omega)] at hmem
              cases hmem
          omega

/-! What a start reads -/

/-- A look-up finds a submission of the assignment, with terms the row has. -/
theorem lookUp_found {saId : ℕ} {loaded : Loaded} (howned : db.Owned) (hasg : db.assignmentOf saId = some asg)
    (hloaded : ∀ e ∈ loaded, db.Caches e.1 e.2) (h : db.lookUp loaded saId = some (i, sub)) :
    db.Caches i sub ∧ db.assignmentOf sub.studentsAssignmentId = some asg := by
  obtain ⟨sa, hsa, hasg⟩ := Option.bind_eq_some_iff.mp hasg
  obtain ⟨j, hj, hload⟩ := Option.bind_eq_some_iff.mp h
  obtain ⟨s, hs, heq⟩ := Option.map_eq_some_iff.mp hload
  cases heq
  have hcaches : db.Caches i sub := by
    rcases Option.or_eq_some_iff.mp hs with hs | ⟨-, hs⟩
    · obtain ⟨before, after, rfl, -⟩ := List.lookup_eq_some_iff.mp hs
      exact hloaded (i, sub) (by simp)
    · rw [Db.Caches, hs, Option.map_some]
  refine ⟨hcaches, ?_⟩
  obtain ⟨sub₀, row₀, -, hsub₀, hrow₀, hrowasg₀, -⟩ := latestSubmission_reaches hsa hasg hj
  rw [latestSubmission_submissions] at hsub₀
  -- the row found is on the same assignment
  obtain ⟨row, hrow⟩ := Option.isSome_iff_exists.mp (howned sub₀ (List.mem_of_getElem? hsub₀))
  obtain ⟨row', hrow', -, hrowasg⟩ := (within_latestSubmission .grades db saId).rows _ row hrow
  rw [hrow₀] at hrow'
  cases hrow'
  have hterms : sub₀.terms = sub.terms := by
    rw [Db.Caches, hsub₀, Option.map_some, Option.some_inj] at hcaches
    exact hcaches
  have hsame : sub₀.studentsAssignmentId = sub.studentsAssignmentId := congrArg Prod.fst hterms
  rw [← hsame, Db.assignmentOf, hrow, Option.bind_some, ← hrowasg, hrowasg₀, hasg]

/-- After the count there is room, unless the start ends there. -/
theorem afterCount_remembers {existing : List QuizAttempt} {rnd : Shuffles} (hc : db.Caches i sub)
    (hasg : db.assignmentOf sub.studentsAssignmentId = some asg) (hsaw : db.Saw i t existing) :
    (Start.afterCount db i sub t asg rnd existing).Remembers db := by
  unfold Start.afterCount
  split_ifs with hopen
  · trivial
  simp only [Bool.or_eq_true, not_or, List.any_eq_true, not_exists, not_and, beq_iff_eq] at hopen
  have hdone : ∀ a ∈ existing, a.status.isTerminal = true := fun a ha => by
    have hnot := hopen.1 a ha
    cases hstatus : a.status with
    | inProgress => exact absurd hstatus hnot
    | _ => rfl
  split
  · trivial
  · rename_i plan hplan
    split_ifs with hcap
    · trivial
    obtain ⟨s, hs, hterms⟩ := Option.map_eq_some_iff.mp hc
    have hrow : s.studentsAssignmentId = sub.studentsAssignmentId := congrArg Prod.fst hterms
    have hroom : db.Room i t existing := by
      refine ⟨(List.getElem?_eq_some_iff.mp hs).1, hsaw hdone, fun cap hmem => ?_⟩
      rw [allowance_of_plan hs (by rw [hrow]; exact hasg) hterms rfl hplan] at hmem
      have hall : existing.filter (·.status.isTerminal) = existing := List.filter_eq_self.mpr hdone
      unfold Db.capReached at hcap
      rw [hall, Option.mem_def.mp hmem, Option.any_some, decide_eq_true_eq] at hcap
      omega
    split
    · exact ⟨hroom, rfl, rfl⟩
    · exact hroom

theorem Start.read_remembers {l : Start} {f : Db → Start} (howned : db.Owned) (hR : l.Remembers db)
    (h : l.next = .read f) : (f db).Remembers db := by
  cases l <;> cases h
  case asked saId t rnd =>
    intro e he
    obtain ⟨j, -, hj⟩ := List.mem_filterMap.mp he
    obtain ⟨s, hs, rfl⟩ := Option.map_eq_some_iff.mp hj
    rw [Db.Caches, hs, Option.map_some]
  case owned saId t rnd loaded =>
    change (Start.afterLookUp db saId t rnd loaded).Remembers db
    unfold Start.afterLookUp
    split
    · trivial
    · rename_i sa hsa
      split_ifs
      · trivial
      split
      · trivial
      · rename_i asg hasg
        have hassigned : db.assignmentOf saId = some asg := by rw [Db.assignmentOf, hsa, Option.bind_some, hasg]
        split
        · split
          · exact hR
          · trivial
        · rename_i i sub hfound
          have hsub := lookUp_found howned hassigned hR hfound
          split_ifs
          · intro e he
            rcases List.mem_cons.mp he with rfl | he
            · exact hsub.1
            · exact hR e he
          · exact hsub
          · trivial
  case opened saId t rnd loaded =>
    change (Start.underLock db saId t rnd loaded).Remembers db
    unfold Start.underLock
    split
    · trivial
    · trivial
    · rename_i asg i sub hasg hfound
      split_ifs
      · trivial
      · exact lookUp_found howned hasg hR hfound
      · trivial
  case creating saId t rnd =>
    dsimp only
    split <;> trivial
  case found i sub t asg rnd =>
    refine ⟨hR, fun hdone => ?_⟩
    have hnone : db.inProgress i t = 0 := by
      rw [Db.inProgress, List.countP_eq_zero]
      intro a ha
      have := hdone a ha
      cases hstatus : a.status <;> simp_all [QuizAttemptStatus.isTerminal]
    omega
  case counted i sub t asg rnd existing => exact afterCount_remembers hR.1.1 hR.1.2 hR.2

theorem Start.lock_remembers {l : Start} {f : Db → Start} {key : Row} (hR : l.Remembers db)
    (h : l.next = .lock key f) : (f db).Remembers db := by
  cases l <;> cases h
  case opening => exact hR
  case drawing i squad t plan rnd existing =>
    change (Start.draw db i squad t plan rnd existing).Remembers db
    unfold Start.draw
    split
    · split
      · trivial
      · exact ⟨hR, rfl, rfl⟩
    · trivial

/-- What a start remembers survives what the others commit. -/
theorem Start.Remembers.later {l : Start} (howned : db.Owned) (h : db.Steady db') (hmore : ∀ i t, db.MoreAttempts db' i t)
    (hR : l.Remembers db) : l.Remembers db' := by
  have hsaw : ∀ {i t : ℕ} {existing : List QuizAttempt}, db.inProgress i t + existing.length ≤ (db.attemptsOf i t).length →
      db'.inProgress i t + existing.length ≤ (db'.attemptsOf i t).length := by
    intro i t existing hle
    have hrunning := (hmore i t).running
    omega
  have hroom : ∀ {i t : ℕ} {existing : List QuizAttempt}, db.Room i t existing → db'.Room i t existing := by
    intro i t existing hroom
    have hlength := h.length
    have hin := hroom.exists'
    refine ⟨by omega, hsaw hroom.finished, fun cap hcap => hroom.allowed cap ?_⟩
    rwa [h.allowance howned (List.getElem?_eq_getElem hin)] at hcap
  cases l <;> try trivial
  case owned => exact fun e he => h.caches (hR e he)
  case opening => exact fun e he => h.caches (hR e he)
  case opened => exact fun e he => h.caches (hR e he)
  case found => exact ⟨h.caches hR.1, h.assignmentOf hR.2⟩
  case counted => exact ⟨⟨h.caches hR.1.1, h.assignmentOf hR.1.2⟩, fun hdone => hsaw (hR.2 hdone)⟩
  case drawing => exact hroom hR
  case drawn => exact ⟨hroom hR.1, hR.2⟩
  case adding => exact ⟨hroom hR.1, hR.2⟩

/-! Starts and finishes side by side -/

/-- A finish leaves the metadata and the owners as they were. -/
theorem Finish.writesUnder {l l' : Finish} {f : Db → Db} {H : Set Row} (h : l.next = .commit f l') :
    WritesUnder H db (f db) := by
  obtain ⟨w, -, hwithin⟩ := Finish.commit_within db h
  have hsubmissions : (db.setAttempt w.k w.write).submissions = db.submissions := rfl
  refine ⟨fun i hi => ?_, fun i _ _ => ?_, fun saId t howns => ?_⟩
  · obtain ⟨s, hs⟩ := Option.isSome_iff_exists.mp hi
    obtain ⟨s', hs', -⟩ := hwithin.sub (by rw [hsubmissions]; exact hs)
    exact Option.isSome_of_eq_some hs'
  · refine hwithin.map_sub Submission.metadata i fun sub => ?_
    unfold Scope.keep
    dsimp only
    split_ifs <;> rfl
  · obtain ⟨sa, hsa, hst⟩ := howns
    obtain ⟨sa', hsa', hst', -⟩ := hwithin.rows saId sa hsa
    exact ⟨sa', hsa', hst'.trans hst⟩

/-- What the attempts of one student on one submission satisfy next to any other. -/
def Db.Allowing (i t : ℕ) (db : Db) : Prop := db.Owned ∧ db.Linked ∧ db.WithinAllowance i t

theorem starting_rules (i t : ℕ) : Rules Start.next (fun db l => l.StartsFresh db) (Db.Allowing i t)
    (fun db H l => l.Knows db H ∧ l.Remembers db) where
  read hA hB _ h := ⟨Start.read_knows hB.1 h, Start.read_remembers hA.1 hB.2 h⟩
  lock _ hB _ h := ⟨Start.lock_knows hB.1 h, Start.lock_remembers hB.2 h⟩
  commit := by
    rintro db H l f l' ⟨howned, hlinked, hwithin⟩ ⟨hB, hR⟩ hok h
    refine ⟨Start.commit_within howned hlinked hwithin hB hR hok h, Start.commit_knows h, ?_⟩
    cases l <;> cases h <;> trivial
  rollback := by
    rintro db H l l' - - - h
    refine ⟨Start.rollback_knows h, ?_⟩
    cases l <;> cases h
    trivial
  others := by
    rintro db H l f l' H' m hA hB - h hm hdisjoint
    obtain ⟨hsteady, hmore⟩ := Start.commit_steady hB.1 h
    exact ⟨hm.1.others (Start.writesUnder hB.1 h) hdisjoint, hm.2.later hA.1 hsteady hmore⟩

theorem Db.Finishes.allowing (h : db.Finishes db') (hA : db.Allowing i t) : db'.Allowing i t := by
  obtain ⟨howned, hlinked, hone, hcap⟩ := hA
  refine ⟨h.steady.owned howned fun j s hnone hs => ?_, h.linked hlinked, (h.inProgress i t).trans hone, fun cap hmem => ?_⟩
  · have hout := List.getElem?_eq_none_iff.mp hnone
    have hin := (List.getElem?_eq_some_iff.mp hs).1
    have := h.submissions
    omega
  · rw [h.length]
    by_cases hi : i < db.submissions.length
    · rw [h.steady.allowance howned (List.getElem?_eq_getElem hi)] at hmem
      exact hcap cap hmem
    · rw [Db.allowance, List.getElem?_eq_none (by have := h.submissions; omega)] at hmem
      cases hmem

theorem finishing_rules (i t : ℕ) : Rules Finish.next (fun _ _ => True) (Db.Allowing i t) (fun _ _ l => l.Sound) where
  read _ hB _ h := Finish.read_sound hB h
  lock _ hB _ h := Finish.lock_sound hB h
  commit hA hB _ h := ⟨(Finish.commit_finishes hB h).allowing hA, Finish.commit_sound hB h⟩
  rollback _ _ _ h := Finish.rollback_sound h
  others _ _ _ _ hm _ := hm

/-- What a session of either kind knows. -/
def Quizzing.Knows (db : Db) (H : Set Row) : Quizzing → Prop :=
  Sum.elim (fun l => l.Knows db H ∧ l.Remembers db) Finish.Sound

theorem quizzing_rules (i t : ℕ) : Rules quizzing (fun db l => l.StartsFresh db) (Db.Allowing i t)
    (fun db H l => l.Knows db H) :=
  (starting_rules i t).both (finishing_rules i t) (fun _ _ _ _ hm _ => hm) (by
    rintro db H l f l' H' m hA hB - h hm hdisjoint
    have hfinishes : db.Finishes (f db) := Finish.commit_finishes hB h
    exact ⟨hm.1.others (Finish.writesUnder h) hdisjoint, hm.2.later hA.1 hfinishes.steady hfinishes.moreAttempts⟩)

end

section

variable {P : Type*} [DecidableEq P] {db₀ db : Db} {ops : List Op} {session : P → Quizzing} {st : State Db P Quizzing Row}
  {ps : List P} {i t : ℕ}

theorem Db.Ok.allowing (ok : db.Ok) (hwithin : db.WithinAllowance i t) : db.Allowing i t := by
  refine ⟨fun sub hsub => ?_, fun a ha => ?_, hwithin⟩
  · obtain ⟨j, hj⟩ := List.mem_iff_getElem?.mp hsub
    obtain ⟨row, asg, hrow, -⟩ := (ok.subs j sub hj).owned
    exact Option.isSome_of_eq_some hrow
  · obtain ⟨k, hk⟩ := List.mem_iff_getElem?.mp ha
    obtain ⟨sub, -, hsub, -⟩ := (ok.attempts k a hk).submission
    exact (List.getElem?_eq_some_iff.mp hsub).1

/-- When every start commits its attempt among as many as it counted, one attempt of a student is
running at most and the allowance is kept. -/
theorem attempt_allowance (hstart : db₀.Start) (hops : Run Db.step Any db₀ ops db) (hwithin : db.WithinAllowance i t)
    (hasked : ∀ p, (∃ saId s rnd, session p = .inl (.asked saId s rnd)) ∨ ∃ k s post, session p = .inr (.asked k s post))
    (h : Run (step quizzing) (Ok fun db l => l.StartsFresh db) (start db session) ps st) :
    st.store.WithinAllowance i t := by
  have hstart : Holds (Db.Allowing i t) (fun db H l => l.Knows db H) (start db session : State Db P Quizzing Row) := by
    refine ⟨(ok_of_run hstart hops).allowing hwithin, fun p => ?_⟩
    change (session p).Knows db _
    obtain ⟨saId, s, rnd, hp⟩ | ⟨k, s, post, hp⟩ := hasked p
    · rw [hp]
      exact ⟨trivial, trivial⟩
    · rw [hp]
      trivial
  exact (hstart.run (quizzing_rules i t) h).1.2.2

end

/-- A student at a quiz of one attempt. -/
def oneAttempt : Db :=
  oneSubject { reviewMode := some .quizOnly, quiz :=
      { questions := [{ type := .trueFalse }, { type := .trueFalse }], maxQuizAttempts := some 1 } } {} [] [0]

/-- The upload that brings them there. -/
def atQuiz : List Op := [.upload 0 0 true 1 (.tested true 1 1)]

/-- The student clicks twice. -/
def clickTwice (_ : Fin 2) : Quizzing := .inl (.asked 0 0 {})

theorem atQuiz_within : (atQuiz.foldl Db.step oneAttempt).WithinAllowance 0 0 := by decide +kernel

/-- Both clicks count no attempts, and each inserts one. -/
theorem double_click : ¬ ∀ (n : ℕ) (db₀ db : Db) (ops : List Op) (session : Fin n → Quizzing)
    (st : State Db (Fin n) Quizzing Row) (ps : List (Fin n)) (i t : ℕ), db₀.Start → Run Db.step Any db₀ ops db →
    db.WithinAllowance i t →
    (∀ p, (∃ saId s rnd, session p = .inl (.asked saId s rnd)) ∨ ∃ k s post, session p = .inr (.asked k s post)) →
    Run (step quizzing) Any (start db session) ps st → st.store.WithinAllowance i t := by
  intro hall
  have h := hall 2 oneAttempt _ atQuiz clickTwice _ [0, 1, 0, 1, 0, 1, 0, 1, 0, 1] 0 0 (oneSubject_start (by decide) (by simp))
    (run_foldl _) atQuiz_within (fun _ => .inl ⟨0, 0, {}, rfl⟩) (run_foldl _)
  exact absurd h (by decide +kernel)

/-- The second click finds the attempt of the first. -/
theorem second_click :
    let st := [0, 0, 0, 0, 0, 1, 1, 1, 1, 1].foldl (step quizzing) (start (atQuiz.foldl Db.step oneAttempt) clickTwice)
    st.store.quizAttempts.length = 1 ∧ st.store.WithinAllowance 0 0 :=
  ⟨by decide +kernel, attempt_allowance (oneSubject_start (by decide) (by simp)) (run_foldl atQuiz) atQuiz_within
    (fun _ => .inl ⟨0, 0, {}, rfl⟩) (run_of_checks (by decide +kernel))⟩

end SubmissionsChecker
