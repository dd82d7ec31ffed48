import SubmissionsChecker.Properties.LostGrants
import SubmissionsChecker.Properties.NextStarts
import SubmissionsChecker.Properties.SquadDraws

/-! What a granted attempt is good for. The grant puts the submission back at the quiz and adds one to the student's
allowance alone. Whether the next start gets an attempt out of it depends on the finished attempts, which may outnumber
the allowance, and on what the start finds by then. -/

namespace SubmissionsChecker

open Runs

/-- The student has `n` attempts on the submission, all of them finished. -/
structure Db.Spent (db : Db) (i studentId n : ℕ) : Prop where
  count : (db.attemptsOf i studentId).length = n
  terminal : ∀ b ∈ db.attemptsOf i studentId, b.status.isTerminal = true

/-- The student sits attempt `k`, created under the cap `base`; the `n` others are finished, and `e` were granted. -/
structure Db.Sits (db : Db) (k i studentId n : ℕ) (base : Option ℤ) (e : ℕ) : Prop where
  running : ∃ a, db.quizAttempts[k]? = some a ∧ a.submissionId = i ∧ a.studentId = some studentId ∧
    a.configSnapshot.maxQuizAttempts = base ∧ a.status = .inProgress
  count : (db.attemptsOf i studentId).length = n + 1
  others : ∀ (j : ℕ) b, j ≠ k → db.quizAttempts[j]? = some b → b ∈ db.attemptsOf i studentId → b.status.isTerminal = true
  granted : ∃ sub asg, db.submissions[i]? = some sub ∧ db.assignmentOf sub.studentsAssignmentId = some asg ∧
    sub.extraAttempts (some studentId) = e

/-- Where failing an attempt leaves a submission at the quiz: `used` attempts are made, `allowed` were. -/
def capVerdict (allowed : Option ℤ) (used : ℕ) : SubmissionStatus :=
  if allowed.any fun cap => decide (cap ≤ (used : ℤ)) then .failed else .quizSent

section

variable {isTest : ℕ → Bool} {db db' : Db} {op : Op} {i j k n s t : ℕ} {a : QuizAttempt}

/-! The grant -/

theorem grantExtraAttempt_ok (h : db.grantExtraAttempt i t = .ok db') : t ∈ db.studentsOn i ∧
    db.isGrantable i t (db.baseMaxAttempts i) = true ∧
      db' = (db.setSubmission i fun sub =>
        { sub with quizExtraAttempts := setExtra t (sub.extraAttempts (some t) + 1) sub.quizExtraAttempts }).setSubmission i
          ({ · with status := .quizSent }) := by
  unfold Db.grantExtraAttempt at h
  split_ifs at h with hg
  obtain ⟨st, hs, hfs⟩ := isGrantable_status hg.2
  obtain ⟨st', next, hs', hn, rfl⟩ := transition_ok h
  rw [status_setSubmission_same, hs, Option.some_inj] at hs'
  · subst hs'
    have hnext : next = .quizSent := by
      rcases hfs with rfl | rfl <;> exact (Option.some_inj.mp hn).symm
    subst hnext
    exact ⟨hg.1, hg.2, rfl⟩
  · exact fun _ => rfl

theorem isGrantable_spent (h : db.isGrantable i t (db.baseMaxAttempts i) = true) :
    db.Spent i t (db.attemptsOf i t).length ∧ db.attemptsOf i t ≠ [] ∧ (∀ b ∈ db.attemptsOf i t, b.passed = false) ∧
      ∃ cap, db.allowance i t = some cap ∧ cap ≤ ((db.attemptsOf i t).length : ℤ) := by
  unfold Db.isGrantable at h
  split at h
  · cases h
  · rename_i sub hsub
    rw [Bool.and_eq_true] at h
    obtain ⟨-, h⟩ := h
    have hallowance : db.allowance i t = effectiveMaxAttempts (db.baseMaxAttempts i) sub (some t) := by
      unfold Db.allowance
      rw [hsub]
      rfl
    unfold isExhausted at h
    split at h
    · cases h
    · rename_i cap hcap
      simp only [Bool.and_eq_true, Bool.not_eq_true', List.isEmpty_eq_false_iff, List.all_eq_true, List.any_eq_false,
        decide_eq_true_eq] at h
      obtain ⟨⟨⟨hsome, hterminal⟩, hpassed⟩, hle⟩ := h
      exact ⟨⟨rfl, hterminal⟩, hsome, fun b hb => Bool.not_eq_true _ ▸ hpassed b hb, cap, hallowance.trans hcap, hle⟩

theorem granted_submissions (h : db.grantExtraAttempt i t = .ok db') (j : ℕ) : db'.submissions[j]? =
    (db.submissions[j]?).map fun sub => if i = j then { sub with
      quizExtraAttempts := setExtra t (sub.extraAttempts (some t) + 1) sub.quizExtraAttempts, status := .quizSent } else sub := by
  obtain ⟨-, -, rfl⟩ := grantExtraAttempt_ok h
  rw [Db.setSubmission_submissions, Db.setSubmission_submissions, List.getElem?_modify, List.getElem?_modify]
  cases db.submissions[j]? with
  | none => rfl
  | some sub =>
    by_cases hj : i = j
    · simp only [if_pos hj]
      rfl
    · simp only [if_neg hj]
      rfl

theorem Db.Spent.congr (h : db.Spent i t n) (hsame : db'.quizAttempts = db.quizAttempts) : db'.Spent i t n := by
  have hattempts : db'.attemptsOf i t = db.attemptsOf i t := by
    unfold Db.attemptsOf
    rw [hsame]
  exact ⟨by rw [hattempts, h.count], by rw [hattempts]; exact h.terminal⟩

theorem Db.Spent.used (h : db.Spent i t n) : db.usedCount i t = n := by
  unfold Db.usedCount
  rw [List.filter_eq_self.mpr h.terminal, h.count]

/-- An attempt a start adds is the student's. -/
theorem Started.added {saId : ℕ} (h : Started db saId s db') : db'.quizAttempts = db.quizAttempts ∨
    ∃ a, db'.quizAttempts = db.quizAttempts ++ [a] ∧ a.studentId = some s := by
  have hl := (within_latestSubmission .grades db saId).quizAttempts
  have hstarts : ∀ {db₁ j}, Starts db₁ j s db' → db₁.quizAttempts = db.quizAttempts →
      db'.quizAttempts = db.quizAttempts ∨ ∃ a, db'.quizAttempts = db.quizAttempts ++ [a] ∧ a.studentId = some s := by
    intro db₁ j hs hsame
    cases hs with
    | same => exact .inl hsame
    | @attempt db₂ a hd ha =>
      refine .inr ⟨a, ?_, ha.student⟩
      rcases hd with rfl | ⟨draw, rfl⟩
      · exact congrArg (· ++ [a]) hsame
      · exact congrArg (· ++ [a]) hsame
  cases h with
  | looked => exact .inl hl
  | latest hs => exact hstarts hs hl
  | opened ho hs => exact hstarts hs (ho.quizAttempts.trans hl)

/-- A request of the system keeps the number of attempts, or adds one of the student who starts. -/
theorem step_added (db : Db) (op : Op) : (db.step op).quizAttempts.length = db.quizAttempts.length ∨
    ∃ saId s rnd a, op = .startQuiz saId s rnd ∧ (db.step op).quizAttempts = db.quizAttempts ++ [a] ∧
      a.studentId = some s := by
  have hspec := step_spec db op
  rcases hspec.attempts with hlen | ⟨⟨saId, s, rnd, rfl⟩, -⟩
  · exact .inl hlen
  · have hstarted : ∀ {db'}, StepSpec db (.startQuiz saId s rnd) db' → db'.quizAttempts = db.quizAttempts ∨
        ∃ a, db'.quizAttempts = db.quizAttempts ++ [a] ∧ a.studentId = some s := by
      intro db' h
      cases h with
      | same => exact .inl rfl
      | start h => exact h.added
      | quiz hop => rcases hop with ⟨_, _, _, h⟩ | ⟨_, _, _, _, h⟩ | ⟨_, _, _, h⟩ | ⟨_, _, h⟩ <;> cases h
    rcases hstarted hspec with hsame | ⟨a, ha, hst⟩
    · exact .inl (congrArg List.length hsame)
    · exact .inr ⟨saId, s, rnd, a, rfl, ha, hst⟩

theorem attemptsOf_length (h : db'.quizAttempts.map QuizAttempt.origin = db.quizAttempts.map QuizAttempt.origin) (i t : ℕ) :
    (db'.attemptsOf i t).length = (db.attemptsOf i t).length := by
  have hcount : ∀ db : Db, (db.attemptsOf i t).length = (db.quizAttempts.map QuizAttempt.origin).countP
      fun o => o.1 == i && (o.2.1 == some t || o.2.1 == none) := by
    intro db
    unfold Db.attemptsOf
    rw [List.countP_map, List.countP_eq_length_filter]
    rfl
  rw [hcount, hcount, h]

theorem attemptsOf_concat (h : db'.quizAttempts = db.quizAttempts ++ [a]) (hs : a.studentId = some s) (hne : s ≠ t) (i : ℕ) :
    db'.attemptsOf i t = db.attemptsOf i t := by
  have hother : (a.studentId == some t || a.studentId == none) = false := by
    rw [hs]
    simpa using hne
  unfold Db.attemptsOf
  rw [h, List.filter_append, List.filter_singleton, hother, Bool.and_false]
  exact List.append_nil _

/-- An attempt of the student was theirs before. -/
theorem Evolves.attemptsOf (h : Evolves db db') (hlen : db'.quizAttempts.length = db.quizAttempts.length) {b : QuizAttempt}
    (hb : b ∈ db'.attemptsOf i t) : ∃ a ∈ db.attemptsOf i t, AttemptKeeps a b := by
  obtain ⟨hmem, hp⟩ := List.mem_filter.mp hb
  obtain ⟨k, hk⟩ := List.mem_iff_getElem?.mp hmem
  obtain ⟨a, ha⟩ : ∃ a, db.quizAttempts[k]? = some a :=
    ⟨_, List.getElem?_eq_getElem (hlen ▸ (List.getElem?_eq_some_iff.mp hk).1)⟩
  obtain ⟨b', hb', hkeep⟩ := h.attempts k a ha
  rw [hk, Option.some_inj] at hb'
  subst hb'
  refine ⟨a, List.mem_filter.mpr ⟨List.mem_of_getElem? ha, ?_⟩, hkeep⟩
  rwa [← hkeep.submissionId, ← hkeep.studentId]

theorem Db.Spent.step (h : db.Spent i t n) (hop : ∀ saId rnd, op ≠ .startQuiz saId t rnd) : (db.step op).Spent i t n := by
  rcases step_added db op with hlen | ⟨saId, s, rnd, a, rfl, ha, hs⟩
  · have hev := evolves_step db op
    refine ⟨(attemptsOf_length (hev.origins hlen) i t).trans h.count, fun b hb => ?_⟩
    obtain ⟨a, ha, hkeep⟩ := hev.attemptsOf hlen hb
    rw [hkeep.terminal (h.terminal a ha)]
    exact h.terminal a ha
  · have hne : s ≠ t := by
      rintro rfl
      exact hop saId rnd rfl
    have hsame := attemptsOf_concat ha hs hne i
    exact ⟨by rw [hsame, h.count], by rw [hsame]; exact h.terminal⟩

/-- Squads and configs leave the attempts alone. -/
theorem portal_attempts (isTest : ℕ → Bool) (p : Portal) (op : PortalOp) (hop : ∀ o, op ≠ .request o) :
    (p.step isTest op).db.quizAttempts = p.db.quizAttempts := by
  cases op with
  | request o => exact absurd rfl (hop o)
  | squad op =>
    change (p.db.squadStep isTest op).quizAttempts = p.db.quizAttempts
    rw [(squadStep_spec isTest p.db op).regroups.rest]
  | apply x cfg =>
    unfold Portal.step
    dsimp only
    split
    · rename_i db' h
      change db'.quizAttempts = p.db.quizAttempts
      rw [(configures_applyConfig h).rest]
    · rfl

variable {base : Option ℤ} {e : ℕ} {sub sub' : Submission} {asg : SubjectsAssignment}

theorem grantQuizAttempt_ok {studentId : Option ℕ} (h : db.grantQuizAttempt i studentId = .ok db') :
    ∃ s, db.grantExtraAttempt i s = .ok db' := by
  unfold Db.grantQuizAttempt at h
  split at h
  · cases h
  · split at h
    · cases h
    · exact ⟨_, h⟩

/-- A step gives a student no attempt more while one of theirs is running. -/
theorem extra_step (hs : db.submissions[i]? = some sub) (hs' : (db.step op).submissions[i]? = some sub')
    (hasg : db.assignmentOf sub.studentsAssignmentId = some asg)
    (hrun : ∃ b ∈ db.attemptsOf i t, b.status = .inProgress) :
    sub'.extraAttempts (some t) = sub.extraAttempts (some t) := by
  have hsame : sub'.quizExtraAttempts = sub.quizExtraAttempts → sub'.extraAttempts (some t) = sub.extraAttempts (some t) := by
    intro hx
    unfold Submission.extraAttempts
    rw [hx]
  cases row_step (step_spec db op) hs hs' hasg with
  | kept _ _ hx => exact hsame hx
  | checked _ _ _ hx => exact hsame hx
  | requeued _ _ _ _ _ hx => exact hsame hx
  | moved _ _ hx => exact hsame hx
  | @granted _ studentId hop =>
    subst hop
    unfold Db.step Db.request at hs'
    dsimp only at hs'
    split at hs'
    · rename_i db' hok
      obtain ⟨s, hgrant⟩ := grantQuizAttempt_ok hok
      have hst : s ≠ t := by
        rintro rfl
        obtain ⟨b, hb, hbrun⟩ := hrun
        have hterminal := (isGrantable_spent (grantExtraAttempt_ok hgrant).2.1).1.terminal b hb
        rw [hbrun] at hterminal
        cases hterminal
      rw [granted_submissions hgrant, hs, Option.map_some, if_pos rfl, Option.some_inj] at hs'
      subst hs'
      have hextra : ((setExtra s (sub.extraAttempts (some s) + 1) sub.quizExtraAttempts).lookup t).getD 0 = _ :=
        extraAttempts_setExtra _ _
      rw [if_neg hst.symm] at hextra
      exact hextra
    · rw [hs, Option.some_inj] at hs'
      rw [hs']

theorem Db.Sits.mem (h : db.Sits k i t n base e) : ∃ a ∈ db.attemptsOf i t, db.quizAttempts[k]? = some a ∧
    a.status = .inProgress := by
  obtain ⟨a, ha, hi, ht, -, hrun⟩ := h.running
  exact ⟨a, List.mem_filter.mpr ⟨List.mem_of_getElem? ha, by simp [hi, ht]⟩, ha, hrun⟩

/-- The attempt is still running, or it has ended. -/
theorem Db.Sits.step (h : db.Sits k i t n base e) (op : Op) {a' : QuizAttempt}
    (ha' : (db.step op).quizAttempts[k]? = some a') (hrun' : a'.status = .inProgress) : (db.step op).Sits k i t n base e := by
  have hev := evolves_step db op
  obtain ⟨a, ha, hi, ht, hbase, hrun⟩ := h.running
  obtain ⟨a₁, ha₁, hkeep⟩ := hev.attempts k a ha
  rw [ha', Option.some_inj] at ha₁
  subst ha₁
  have hmem : ∃ b ∈ db.attemptsOf i t, b.status = .inProgress := by
    obtain ⟨b, hb, -, hbrun⟩ := h.mem
    exact ⟨b, hb, hbrun⟩
  have hrunning : ∃ a, (db.step op).quizAttempts[k]? = some a ∧ a.submissionId = i ∧ a.studentId = some t ∧
      a.configSnapshot.maxQuizAttempts = base ∧ a.status = .inProgress :=
    ⟨a', ha', by rw [hkeep.submissionId, hi], by rw [hkeep.studentId, ht], by rw [hkeep.configSnapshot, hbase], hrun'⟩
  have hgranted : ∃ sub asg, (db.step op).submissions[i]? = some sub ∧
      (db.step op).assignmentOf sub.studentsAssignmentId = some asg ∧ sub.extraAttempts (some t) = e := by
    obtain ⟨sub, asg, hs, hasg, he⟩ := h.granted
    obtain ⟨sub', hs', hsa, -⟩ := hev.submission hs
    exact ⟨sub', asg, hs', by rw [hsa]; exact hev.assignmentOf hasg, (extra_step hs hs' hasg hmem).trans he⟩
  have hothers : ∀ {db' : Db}, Evolves db db' → ∀ (j : ℕ) b c, j ≠ k → db.quizAttempts[j]? = some c →
      db'.quizAttempts[j]? = some b → b ∈ db'.attemptsOf i t → b.status.isTerminal = true := by
    intro db' hev j b c hj hc hb hbmem
    obtain ⟨b', hb', hkeep⟩ := hev.attempts j c hc
    rw [hb, Option.some_inj] at hb'
    subst hb'
    have hcmem : c ∈ db.attemptsOf i t := by
      have hp := (List.mem_filter.mp hbmem).2
      rw [hkeep.submissionId, hkeep.studentId] at hp
      exact List.mem_filter.mpr ⟨List.mem_of_getElem? hc, hp⟩
    have hterminal := h.others j c hj hc hcmem
    rw [hkeep.terminal hterminal]
    exact hterminal
  rcases (step_spec db op).attempts with hlen | ⟨-, b, hnew⟩
  · refine ⟨hrunning, (attemptsOf_length (hev.origins hlen) i t).trans h.count, fun j b hj hb hbmem => ?_, hgranted⟩
    obtain ⟨c, hc⟩ : ∃ c, db.quizAttempts[j]? = some c :=
      ⟨_, List.getElem?_eq_getElem (hlen ▸ (List.getElem?_eq_some_iff.mp hb).1)⟩
    exact hothers hev j b c hj hc hb hbmem
  · -- nobody else's attempt counts, and the student would resume theirs
    have hnot : b ∉ (db.step op).attemptsOf i t := by
      intro hb
      obtain ⟨db₁, i', t', hstart, -, hsame, -⟩ := hnew.started
      have hp := (List.mem_filter.mp hb).2
      simp only [Bool.and_eq_true, Bool.or_eq_true, beq_iff_eq, hstart.submission, hstart.student, Option.some_inj,
        reduceCtorEq, or_false] at hp
      obtain ⟨rfl, rfl⟩ := hp
      obtain ⟨c, hc, hcrun⟩ := hmem
      refine (hstart.alone c ?_).1 hcrun
      unfold Db.attemptsOf
      rw [hsame]
      exact hc
    have hsame : (db.step op).attemptsOf i t = db.attemptsOf i t := by
      unfold Db.attemptsOf at hnot ⊢
      rw [hnew.others] at hnot ⊢
      have hnil : [b].filter (fun a => a.submissionId == i && (a.studentId == some t || a.studentId == none)) = [] := by
        refine List.filter_eq_nil_iff.mpr fun c hc hp => ?_
        rw [List.mem_singleton.mp hc] at hp
        exact hnot (List.mem_filter.mpr ⟨List.mem_append_right _ List.mem_cons_self, hp⟩)
      rw [List.filter_append, hnil, List.append_nil]
    refine ⟨hrunning, by rw [hsame, h.count], fun j c hj hc hcmem => ?_, hgranted⟩
    rw [hnew.others] at hc
    rcases Table.getElem?_concat_some hc with hold | ⟨-, rfl⟩
    · exact h.others j c hj hold (hsame ▸ hcmem)
    · exact absurd hcmem hnot

/-- A finish counts the other attempts, whatever it writes into this one. -/
theorem Db.Sits.countUsed (h : db.Sits k i t n base e) (f : QuizAttempt → QuizAttempt) :
    (db.setAttempt k f).countUsedAttempts i k (some t) = n := by
  have hsame : (Table.idsWhere (fun a => a.submissionId == i && a.status.isTerminal &&
      (a.studentId == some t || a.studentId == none)) (db.setAttempt k f).quizAttempts).filter (· != k) =
      (Table.idsWhere (fun a => a.submissionId == i && (a.studentId == some t || a.studentId == none))
        db.quizAttempts).filter (· != k) := by
    unfold Table.idsWhere
    rw [Db.setAttempt_quizAttempts, List.length_modify, List.filter_filter, List.filter_filter]
    refine List.filter_congr fun j _ => ?_
    by_cases hj : j = k
    · subst hj
      simp
    · rw [Table.getElem?_modify_ne f (Ne.symm hj)]
      congr 1
      cases hb : db.quizAttempts[j]? with
      | none => rfl
      | some b =>
        rw [Option.any_some, Option.any_some]
        by_cases hmine : (b.submissionId == i && (b.studentId == some t || b.studentId == none)) = true
        · have hterminal := h.others j b hj hb (List.mem_filter.mpr ⟨List.mem_of_getElem? hb, hmine⟩)
          rw [hterminal, Bool.and_true]
        · rw [Bool.and_right_comm, Bool.eq_false_of_not_eq_true hmine, Bool.false_and]
  have hk : k ∈ Table.idsWhere (fun a => a.submissionId == i && (a.studentId == some t || a.studentId == none))
      db.quizAttempts := by
    obtain ⟨a, ha, hi, ht, -⟩ := h.running
    exact Table.mem_idsWhere.mpr ⟨a, ha, by simp [hi, ht]⟩
  have hcount : (Table.idsWhere (fun a => a.submissionId == i && (a.studentId == some t || a.studentId == none))
      db.quizAttempts).length = n + 1 := (Table.length_idsWhere _ _).trans h.count
  have hnodup := Table.nodup_idsWhere (fun a : QuizAttempt =>
    a.submissionId == i && (a.studentId == some t || a.studentId == none)) db.quizAttempts
  unfold Db.countUsedAttempts
  rw [hsame, ← hnodup.erase_eq_filter k, List.length_erase_of_mem hk, hcount]
  rfl

theorem capVerdict_failed {allowed : Option ℤ} {used : ℕ} :
    capVerdict allowed used = .failed ↔ ∃ cap, allowed = some cap ∧ cap ≤ (used : ℤ) := by
  unfold capVerdict
  cases allowed with
  | none => simp
  | some cap =>
    rw [Option.any_some]
    by_cases hle : cap ≤ (used : ℤ)
    · rw [if_pos (decide_eq_true hle)]
      exact iff_of_true rfl ⟨cap, rfl, hle⟩
    · rw [if_neg (by simpa using hle)]
      refine iff_of_false nofun ?_
      rintro ⟨cap', heq, hle'⟩
      cases heq
      exact hle hle'

theorem Db.Sits.usesUp_iff (h : db.Sits k i t n base e) {b : QuizAttempt} (ht : b.studentId = some t)
    (hbase : b.configSnapshot.maxQuizAttempts = base) (f : QuizAttempt → QuizAttempt) :
    (db.setAttempt k f).UsesUp b k i ↔ capVerdict (base.map (· + (e : ℤ))) (n + 1) = .failed := by
  obtain ⟨sub, asg, hs, -, he⟩ := h.granted
  have hallowed : effectiveMaxAttempts b.configSnapshot.maxQuizAttempts sub b.studentId = base.map (· + (e : ℤ)) := by
    rw [hbase, ht, effectiveMaxAttempts, he]
  rw [capVerdict_failed]
  unfold Db.UsesUp
  rw [ht, h.countUsed f, ← ht]
  constructor
  · rintro ⟨sub', cap, hs', hcap, hle⟩
    rw [Db.setAttempt_submissions, hs, Option.some_inj] at hs'
    subst hs'
    exact ⟨cap, hallowed.symm.trans hcap, by exact_mod_cast hle⟩
  · rintro ⟨cap, hcap, hle⟩
    exact ⟨sub, cap, hs, hallowed.trans hcap, by exact_mod_cast hle⟩

/-- Failing the attempt while the submission waits for the quiz. -/
theorem Db.Sits.fails (h : db.Sits k i t n base e) (hsent : db.status i = some .quizSent) (op : Op) {a' : QuizAttempt}
    (ha' : (db.step op).quizAttempts[k]? = some a') (hend : a'.status.isTerminal = true) (hfail : a'.passed = false) :
    (db.step op).status i = some (capVerdict (base.map (· + (e : ℤ))) (n + 1)) := by
  obtain ⟨a, ha, hi, ht, hbase, hrun⟩ := h.running
  have hstays : (db.step op).quizAttempts[k]? ≠ some a := by
    intro hsame
    rw [ha', Option.some_inj] at hsame
    rw [hsame, hrun] at hend
    cases hend
  cases attemptRows_step db op with
  | same hrows => exact absurd (by rw [hrows, ha]) hstays
  | started _ hrows => exact absurd (by rw [hrows]; exact Table.getElem?_append_old ha) hstays
  | @ruled c v q hrows =>
    have hnot : a.isCandidate c v q ≠ true := by
      intro hc
      have hterminal := isCandidate_terminal hc
      rw [hrun] at hterminal
      cases hterminal
    exact absurd (by rw [hrows, List.getElem?_map, ha, Option.map_some, if_neg hnot]) hstays
  | @quiz k' hop hq =>
    generalize db.step op = db' at ha' hstays hq ⊢
    cases hq with
    | same => exact absurd ha hstays
    | @edited a₀ a₁ ha₀ _ he =>
      by_cases hk : k' = k
      · subst hk
        rw [ha, Option.some_inj] at ha₀
        subst ha₀
        rw [Db.setAttempt_quizAttempts, Table.getElem?_modify_self, ha, Option.map_some, Option.some_inj] at ha'
        rw [← ha', he] at hend
        change a.status.isTerminal = true at hend
        rw [hrun] at hend
        cases hend
      · rw [Db.setAttempt_quizAttempts, Table.getElem?_modify_ne _ hk] at hstays
        exact absurd ha hstays
    | @finished a₀ a₁ st _ ha₀ _ he _ _ hfin =>
      have hrows := hfin.within.quizAttempts
      by_cases hk : k' = k
      · subst hk
        rw [ha, Option.some_inj] at ha₀
        subst ha₀
        rw [hrows, Db.setAttempt_quizAttempts, Table.getElem?_modify_self, ha, Option.map_some, Option.some_inj] at ha'
        subst ha'
        have hi₁ : (db.finishedAttempt a₁ st).submissionId = i := by
          rw [finishedAttempt_submissionId, he]
          exact hi
        have ht₁ : (db.finishedAttempt a₁ st).studentId = some t := by
          rw [finishedAttempt_studentId, he]
          exact ht
        have hbase₁ : (db.finishedAttempt a₁ st).configSnapshot.maxQuizAttempts = base := by
          rw [finishedAttempt_configSnapshot, he]
          exact hbase
        have hsent₁ : (db.setAttempt k' fun _ => db.finishedAttempt a₁ st).status (db.finishedAttempt a₁ st).submissionId =
            some .quizSent := by
          rw [hi₁]
          exact hsent
        have huses := h.usesUp_iff ht₁ hbase₁ fun _ => db.finishedAttempt a₁ st
        cases hfin with
        | left _ hleft =>
          have hnot := hleft hsent₁ hfail
          rw [hi₁, huses] at hnot
          change db.status i = _
          rw [hsent]
          unfold capVerdict at hnot ⊢
          split_ifs at hnot ⊢
          · exact absurd rfl hnot
          · rfl
        | completed _ hp =>
          rw [hfail] at hp
          cases hp
        | toTeacher _ hp =>
          rw [hfail] at hp
          cases hp
        | failed hs _ hu =>
          rw [hi₁, huses] at hu
          rw [hu, ← hi₁]
          exact status_setSubmission_status hs
      · rw [hrows, Db.setAttempt_quizAttempts, Table.getElem?_modify_ne _ hk] at hstays
        exact absurd ha hstays

theorem Db.Sits.congr (h : db.Sits k i t n base e) (hrows : db'.quizAttempts = db.quizAttempts)
    (hsubs : db'.submissions = db.submissions) (hasg : ∀ saId asg, db.assignmentOf saId = some asg →
      ∃ asg', db'.assignmentOf saId = some asg') : db'.Sits k i t n base e := by
  have hattempts : db'.attemptsOf i t = db.attemptsOf i t := by
    unfold Db.attemptsOf
    rw [hrows]
  obtain ⟨sub, asg, hs, hof, he⟩ := h.granted
  obtain ⟨asg', hof'⟩ := hasg _ asg hof
  refine ⟨by rw [hrows]; exact h.running, by rw [hattempts, h.count], fun j b hj hb hmem => ?_, sub, asg', ?_, hof', he⟩
  · exact h.others j b hj (hrows ▸ hb) (hattempts ▸ hmem)
  · rw [hsubs, hs]

/-- Attempt `k` is there, and the student sits it for as long as it runs. -/
def Db.SitsWhile (db : Db) (k i t n : ℕ) (base : Option ℤ) (e : ℕ) : Prop :=
  (db.quizAttempts[k]?).isSome = true ∧
    ∀ a, db.quizAttempts[k]? = some a → a.status = .inProgress → db.Sits k i t n base e

theorem Db.SitsWhile.step {p : Portal} (h : p.db.SitsWhile k i t n base e) (op : PortalOp) :
    (p.step isTest op).db.SitsWhile k i t n base e := by
  obtain ⟨hsome, hsits⟩ := h
  obtain ⟨a, ha⟩ := Option.isSome_iff_exists.mp hsome
  have hother : (∀ o, op ≠ .request o) → (p.step isTest op).db.submissions = p.db.submissions →
      (∀ saId asg, p.db.assignmentOf saId = some asg → ∃ asg', (p.step isTest op).db.assignmentOf saId = some asg') →
      (p.step isTest op).db.SitsWhile k i t n base e := by
    intro hop hsubs hasg
    have hrows := portal_attempts isTest p op hop
    exact ⟨by rw [hrows]; exact hsome, fun b hb hrun => (hsits b (hrows ▸ hb) hrun).congr hrows hsubs hasg⟩
  cases op with
  | request op =>
    have hev := evolves_step p.db op
    obtain ⟨a', ha', hkeep⟩ := hev.attempts k a ha
    refine ⟨by change ((p.db.step op).quizAttempts[k]?).isSome = true; rw [ha']; rfl, fun b hb hrun => ?_⟩
    change (p.db.step op).quizAttempts[k]? = some b at hb
    have hold : a.status = .inProgress := by
      by_contra hne
      rw [ha', Option.some_inj] at hb
      subst hb
      have hterminal : a.status.isTerminal = true := by
        cases hst : a.status with
        | inProgress => exact absurd hst hne
        | _ => rfl
      exact hne ((hkeep.terminal hterminal).symm.trans hrun)
    exact (hsits a ha hold).step op hb hrun
  | squad op =>
    have hrest := (squadStep_spec isTest p.db op).regroups.rest
    refine hother (fun o ho => by cases ho) ?_ fun saId asg hasg => ⟨asg, ?_⟩
    · change (p.db.squadStep isTest op).submissions = _
      rw [hrest]
    · change (p.db.squadStep isTest op).assignmentOf saId = _
      rw [hrest]
      exact hasg
  | apply x cfg =>
    have hsame : ∀ q, p.step isTest (.apply x cfg) = q → q.db.submissions = p.db.submissions ∧
        ∀ saId asg, p.db.assignmentOf saId = some asg → ∃ asg', q.db.assignmentOf saId = some asg' := by
      intro q hq
      unfold Portal.step at hq
      dsimp only at hq
      split at hq
      · rename_i db' happly
        subst hq
        have hconf := configures_applyConfig happly
        refine ⟨hconf.submissions, fun saId asg hasg => ?_⟩
        obtain ⟨row, hrow, hasg⟩ := Option.bind_eq_some_iff.mp hasg
        obtain ⟨row', hrow', -, hrowasg⟩ := hconf.rows _ row hrow
        obtain ⟨asg', hasg', -⟩ := (applyConfig_keeps happly).1 _ asg hasg
        exact ⟨asg', Option.bind_eq_some_iff.mpr ⟨row', hrow', by rw [hrowasg, hasg']⟩⟩
      · subst hq
        exact ⟨rfl, fun saId asg hasg => ⟨asg, hasg⟩⟩
    obtain ⟨hsubs, hasg⟩ := hsame _ rfl
    exact hother (fun o ho => by cases ho) hsubs hasg

end

/-! A cap lowered in between -/

end SubmissionsChecker
