import SubmissionsChecker.Invariants.Attempts
import SubmissionsChecker.Library.Runs
import SubmissionsChecker.Services.QuizRegrade

/-! Whom a ruling is told to. The reporter is told under the student of the report, every other
flipped attempt and every e-mail under the owner of the submission; both are the student who sat
the attempt exactly where the owner sat it. -/

namespace SubmissionsChecker

open Runs

namespace Db

/-- The student who sat attempt `k`: the one it was started for, and the owner of the submission where
it was started for none. -/
def sitter (db : Db) (k : ℕ) : Option ℕ :=
  (db.quizAttempts[k]?).bind fun a => a.studentId.or (db.ownerOf a.submissionId)

/-- The result of attempt `k` flips to passing. -/
def Flips (db db' : Db) (k : ℕ) : Prop :=
  ∃ a a', db.quizAttempts[k]? = some a ∧ db'.quizAttempts[k]? = some a' ∧ a.passed = false ∧ a'.passed = true

/-- Every attempt belongs to a submission of a student's row. -/
def AttemptsOwned (db : Db) : Prop :=
  ∀ (k : ℕ) a, db.quizAttempts[k]? = some a → ∃ t, db.ownerOf a.submissionId = some t

/-- Every report was filed by the student who sat the attempt. -/
def ReportsBySitter (db : Db) : Prop := ∀ s ∈ db.disputes, db.sitter s.attemptId = some s.studentId

/-- The attempts an accepted ruling on report `d` lifts to passing. -/
def liftedByRuling (db : Db) (d : ℕ) : List ℕ :=
  match db.disputes[d]? with
  | none => []
  | some dispute =>
    match dispute.pluginConfigId, dispute.pluginConfigVersion with
    | some c, some v => db.liftedBy c v dispute.questionId
    | _, _ => []

/-- Attempt `k` was sat by the owner of its submission, or carries no student. -/
def SatByOwner (db : Db) (k : ℕ) : Prop :=
  ∀ a t, db.quizAttempts[k]? = some a → a.studentId = some t → db.ownerOf a.submissionId = some t

end Db

/-- The news about attempt `k` reaches student `s` and nobody else, in the bell and in whatever e-mail
is sent on a later database. -/
structure News.Reaches (news : News) (users : List User) (db : Db) (k s : ℕ) : Prop where
  bell : (∃ u ∈ users, u.studentId = some s) → ∃ n ∈ news.inApp, n.attemptId = k
  bellOnly : ∀ n ∈ news.inApp, n.attemptId = k → ∃ u, users[n.userId]? = some u ∧ u.studentId = some s
  mail : ∀ ops later enabled, Run Db.step Any db ops later → enabled s = true →
    ∃ p ∈ news.outbox, ∃ m, later.executeQuizDisputeResolved enabled true p = some m ∧ m.attemptId = k
  mailOnly : ∀ ops later enabled channels, Run Db.step Any db ops later → ∀ p ∈ news.outbox, ∀ m,
    later.executeQuizDisputeResolved enabled channels p = some m → m.attemptId = k → m.studentId = s
  score : ∀ p ∈ news.outbox, ∀ x, p.score = some x → (db.quizAttempts[p.attemptId]?).bind (·.score) = some x

section

variable {db db' : Db} {op : Op} {i k t : ℕ}

theorem Evolves.ownerOf (h : Evolves db db') (ho : db.ownerOf i = some t) : db'.ownerOf i = some t := by
  unfold Db.ownerOf at ho ⊢
  obtain ⟨sub, hsub, hstudent⟩ := Option.bind_eq_some_iff.mp ho
  obtain ⟨row, hrow, rfl⟩ := Option.map_eq_some_iff.mp hstudent
  obtain ⟨sub', hsub', horigin⟩ := h.subs i sub hsub
  obtain ⟨row', hrow', hst, -⟩ := h.rows _ row hrow
  have hsa : sub'.studentsAssignmentId = sub.studentsAssignmentId := congrArg Prod.fst horigin
  simp [hsub', hsa, hrow', hst]

theorem Evolves.attempt (h : Evolves db db') {a : QuizAttempt} (ha : db.quizAttempts[k]? = some a) :
    ∃ a', db'.quizAttempts[k]? = some a' ∧ a'.submissionId = a.submissionId ∧ a'.studentId = a.studentId := by
  obtain ⟨a', ha', hkeep⟩ := h.attempts k a ha
  exact ⟨a', ha', congrArg Prod.fst hkeep.origin, congrArg (·.2.1) hkeep.origin⟩

theorem Evolves.sitter (h : Evolves db db') (hs : db.sitter k = some t) : db'.sitter k = some t := by
  unfold Db.sitter at hs ⊢
  obtain ⟨a, ha, hor⟩ := Option.bind_eq_some_iff.mp hs
  obtain ⟨a', ha', hsub, hst⟩ := h.attempt ha
  rw [ha', Option.bind_some, hsub, hst]
  rcases hstudent : a.studentId with _ | t'
  · rw [hstudent, Option.none_or] at hor
    rw [Option.none_or]
    exact h.ownerOf hor
  · rw [hstudent, Option.some_or] at hor
    rw [Option.some_or]
    exact hor

/-- The owner-check of the attempt routes lets exactly the sitter in. -/
theorem sitter_of_attemptFor {a : QuizAttempt} (h : db.attemptFor k t = .ok a) : db.sitter k = some t := by
  have ha := attemptFor_ok h
  unfold Db.attemptFor at h
  simp only [ha] at h
  split_ifs at h with howner
  unfold Db.isAttemptOwner at howner
  unfold Db.sitter Db.ownerOf
  rcases hsub : db.submissions[a.submissionId]? with _ | sub
  · simp [hsub] at howner
  · simpa [ha, hsub] using howner

/-! Reports are filed by the sitter and keep their student -/

/-- The reports of `db'` are those of `db`, up to how they were answered. -/
def SameReports (db db' : Db) : Prop :=
  ∀ s' ∈ db'.disputes, ∃ s ∈ db.disputes, s'.attemptId = s.attemptId ∧ s'.studentId = s.studentId

theorem SameReports.of_eq (h : db'.disputes = db.disputes) : SameReports db db' :=
  fun s hs => ⟨s, h ▸ hs, rfl, rfl⟩

theorem Adds.disputes {saId : ℕ} {sub : Submission} {db₁ : Db} (h : Adds db saId sub db₁) :
    (db₁.addSubmission sub).disputes = db.disputes :=
  (addSubmission_disputes _ _).trans h.within.disputes

theorem Starts.disputes (h : Starts db i t db') : db'.disputes = db.disputes := by
  cases h with
  | same => rfl
  | attempt hd => rcases hd with rfl | ⟨draw, rfl⟩ <;> rfl

theorem Opened.disputes {saId : ℕ} (h : Opened db saId db' i) : db'.disputes = db.disputes := by
  cases h with
  | reused => exact (within_latestSubmission .grades db saId).disputes
  | opened ha => exact ha.disputes

theorem sameReports_setDispute (d : ℕ) {f : QuizQuestionDispute → QuizQuestionDispute}
    (hf : ∀ s, (f s).attemptId = s.attemptId ∧ (f s).studentId = s.studentId) : SameReports db (db.setDispute d f) := by
  intro s' hs'
  obtain ⟨j, hj⟩ := List.mem_iff_getElem?.mp hs'
  obtain ⟨s, hs, rfl⟩ := Table.getElem?_modify_some hj
  refine ⟨s, List.mem_of_getElem? hs, ?_⟩
  split_ifs
  · exact hf s
  · exact ⟨rfl, rfl⟩

theorem sameReports_ruledDb (d c v q : ℕ) (note : String) : SameReports db (db.ruledDb d c v q note) := by
  intro s' hs'
  have hdisputes : (db.ruledDb d c v q note).disputes =
      (db.setDispute d ({ · with status := .accepted, teacherNote := some note })).disputes.map fun s =>
        if Db.isOpenSibling c v q s then { s with status := .accepted, teacherNote := some note } else s := by
    simp only [Db.ruledDb, Db.regradeQuestion, Db.closeSiblings, Db.addOverride]
    split_ifs <;> rfl
  rw [hdisputes] at hs'
  obtain ⟨s₁, hs₁, rfl⟩ := List.mem_map.mp hs'
  obtain ⟨s, hs, hsame⟩ := sameReports_setDispute d (by exact fun _ => ⟨rfl, rfl⟩) s₁ hs₁
  refine ⟨s, hs, ?_⟩
  split_ifs <;> exact hsame

/-- Only filing a report adds one. -/
theorem StepSpec.sameReports (h : StepSpec db op db') (hop : ∀ k t q, op ≠ .reportQuestion k t q) :
    SameReports db db' := by
  cases h with
  | same => exact .of_eq rfl
  | upload h =>
    cases h with
    | queued ha => exact .of_eq ha.disputes
    | checked ha _ _ _ hc => exact .of_eq (hc.finalizes.within.disputes.trans ha.disputes)
  | check _ h => exact .of_eq h.finalizes.within.disputes
  | aiReview _ h => exact .of_eq h.finalizes.within.disputes
  | retry => exact .of_eq rfl
  | skip => exact .of_eq rfl
  | @review i _ _ _ h =>
    cases h with
    | approved => exact .of_eq (within_finalizeGrade _ i).disputes
    | sentQuiz => exact .of_eq rfl
    | rejected => exact .of_eq rfl
  | rerun h => cases h; exact .of_eq rfl
  | @start saId _ _ _ h =>
    have hl := (within_latestSubmission .grades db saId).disputes
    cases h with
    | looked => exact .of_eq hl
    | latest hs => exact .of_eq (hs.disputes.trans hl)
    | opened ho hs => exact .of_eq (hs.disputes.trans (ho.disputes.trans hl))
  | quiz _ h =>
    cases h with
    | same => exact .of_eq rfl
    | edited => exact .of_eq rfl
    | finished _ _ _ _ _ hfin => exact .of_eq hfin.within.disputes
  | report => exact absurd rfl (hop _ _ _)
  | @ruled d note dispute c v =>
    intro s' hs'
    rw [(within_advancedAll _ _).disputes] at hs'
    exact sameReports_ruledDb d c v dispute.questionId note s' hs'
  | closed => exact sameReports_setDispute _ fun _ => ⟨rfl, rfl⟩
  | grant h => cases h; exact .of_eq rfl
  | scores h =>
    cases h with
    | written w => exact .of_eq w.disputes
    | @completed db₁ i w => exact .of_eq ((within_finalizeGrade _ i).disputes.trans w.disputes)
    | @regraded db₁ i w => exact .of_eq ((within_finalizeGrade _ i).disputes.trans w.disputes)
  | unenroll => exact .of_eq rfl
  | tick => exact .of_eq rfl

theorem reportsBySitter_step (hs : db.ReportsBySitter) (op : Op) : (db.step op).ReportsBySitter := by
  have hev := evolves_step db op
  have hold : SameReports db (db.step op) → (db.step op).ReportsBySitter := by
    intro hsame s' hs'
    obtain ⟨s, hmem, hattempt, hstudent⟩ := hsame s' hs'
    rw [hattempt, hstudent]
    exact hev.sitter (hs s hmem)
  by_cases hop : ∃ k t q, op = .reportQuestion k t q
  · obtain ⟨k, t, q, rfl⟩ := hop
    rcases hreq : db.reportQuestion k t q with e | db'
    · have hstep : db.step (.reportQuestion k t q) = db := by simp only [Db.step, Db.request, hreq]
      rw [hstep]
      exact hs
    · have hstep : db.step (.reportQuestion k t q) = db' := by simp only [Db.step, Db.request, hreq]
      obtain ⟨a, ha, hfile⟩ := bind_ok hreq
      split_ifs at hfile
      rw [hstep] at hev ⊢
      intro s' hs'
      have hdisputes := congrArg Db.disputes (Except.ok.inj hfile)
      rw [← hdisputes, List.mem_append, List.mem_singleton] at hs'
      rcases hs' with hs' | rfl
      · exact hev.sitter (hs s' hs')
      · exact hev.sitter (sitter_of_attemptFor ha)
  · push Not at hop
    exact hold ((step_spec db op).sameReports hop)

theorem attemptsOwned_step (ho : db.AttemptsOwned) (op : Op) : (db.step op).AttemptsOwned := by
  intro k a' ha'
  rcases attempt_step (step_spec db op) ha' with ⟨a, ha, hkeep⟩ | hnew
  · obtain ⟨t, ht⟩ := ho k a ha
    have hsub : a'.submissionId = a.submissionId := congrArg Prod.fst hkeep.origin
    exact ⟨t, by rw [hsub]; exact (evolves_step db op).ownerOf ht⟩
  · obtain ⟨db₁, i, t, hstart, hev, -⟩ := hnew.started
    obtain ⟨asgId, sub, row, asg, hsub, hrow, -⟩ := hstart.reach
    refine ⟨row.studentId, hev.ownerOf ?_⟩
    rw [hstart.submission, Db.ownerOf, hsub, Option.bind_some, hrow, Option.map_some]

end

/-! Who is told -/

section

variable {users : List User} {s k : ℕ} {title body : String}

theorem mem_pushInApp {n : Notification} (h : n ∈ pushInApp users s k title body) :
    n.attemptId = k ∧ ∃ u, users[n.userId]? = some u ∧ u.studentId = some s := by
  unfold pushInApp at h
  split at h
  · simp at h
  · rename_i userId huser
    obtain ⟨u, hu, hp⟩ := Table.findId_some huser
    rw [List.mem_singleton] at h
    subst h
    exact ⟨rfl, u, hu, by simpa using hp⟩

/-- A student with a login gets the bell row. -/
theorem pushInApp_told (h : ∃ u ∈ users, u.studentId = some s) : ∃ n ∈ pushInApp users s k title body, n.attemptId = k := by
  obtain ⟨u, hu, hst⟩ := h
  unfold pushInApp
  split
  · rename_i hnone
    have := Table.findId_none hnone u hu
    simp [hst] at this
  · exact ⟨_, List.mem_singleton_self _, rfl⟩

end

section

variable {db : Db} {users : List User} {d : ℕ} {dispute : QuizQuestionDispute} {accept : Bool} {note : String}
  {rescored : List AttemptRescore}

/-- A bell row is the reporter's, about the reported attempt, or goes to the owner behind an entry. -/
theorem inApp_notifyStudents {n : Notification}
    (h : n ∈ (db.notifyStudents users d dispute accept note rescored).inApp) :
    ∃ u t, users[n.userId]? = some u ∧ u.studentId = some t ∧
      (n.attemptId = dispute.attemptId ∧ t = dispute.studentId ∨
        n.attemptId ≠ dispute.attemptId ∧ ∃ e ∈ rescored, n.attemptId = e.attemptId ∧ t = db.rescoredStudent e) := by
  unfold Db.notifyStudents at h
  rcases List.mem_append.mp h with h | h
  · have hpush : n.attemptId = dispute.attemptId ∧ ∃ u, users[n.userId]? = some u ∧ u.studentId = some dispute.studentId := by
      split_ifs at h <;> exact mem_pushInApp h
    obtain ⟨hk, u, hu, hst⟩ := hpush
    exact ⟨u, _, hu, hst, .inl ⟨hk, rfl⟩⟩
  · obtain ⟨news, hnews, hn⟩ := List.mem_flatMap.mp h
    obtain ⟨e, he, rfl⟩ := List.mem_map.mp hnews
    obtain ⟨hmem, hother⟩ := List.mem_filter.mp he
    simp only [Bool.not_eq_true', Bool.or_eq_false_iff, beq_eq_false_iff_ne] at hother
    obtain ⟨hk, u, hu, hst⟩ := mem_pushInApp hn
    exact ⟨u, _, hu, hst, .inr ⟨by rw [hk]; exact hother.1, e, hmem, hk, rfl⟩⟩

/-- A payload is about the reported attempt or about an entry's, with that attempt's new score. -/
theorem outbox_notifyStudents {p : DisputeResolved}
    (h : p ∈ (db.notifyStudents users d dispute accept note rescored).outbox) {x : ℤ} (hx : p.score = some x) :
    ∃ e ∈ rescored, p.attemptId = e.attemptId ∧ e.score = x := by
  unfold Db.notifyStudents at h
  rcases List.mem_cons.mp h with rfl | h
  · obtain ⟨e, he, rfl⟩ := Option.map_eq_some_iff.mp hx
    have hk := List.find?_some he
    simp only [beq_iff_eq] at hk
    exact ⟨e, List.mem_reverse.mp (List.mem_of_find?_eq_some he), hk.symm, rfl⟩
  · obtain ⟨news, hnews, hp⟩ := List.mem_flatMap.mp h
    obtain ⟨e, he, rfl⟩ := List.mem_map.mp hnews
    cases List.mem_singleton.mp hp
    exact ⟨e, (List.mem_filter.mp he).1, rfl, Option.some_inj.mp hx⟩

/-- Every flipped entry is told, and is queued for an e-mail. -/
theorem flipped_notifyStudents (users : List User) {e : AttemptRescore} (he : e ∈ rescored) (hflipped : e.flipped = true)
    (hother : e.attemptId ≠ dispute.attemptId) :
    ((∃ u ∈ users, u.studentId = some (db.rescoredStudent e)) →
      ∃ n ∈ (db.notifyStudents users d dispute accept note rescored).inApp, n.attemptId = e.attemptId) ∧
    ∃ p ∈ (db.notifyStudents users d dispute accept note rescored).outbox, p.attemptId = e.attemptId := by
  have hmem : db.classmateNews users dispute.questionId note e ∈
      (rescored.filter fun e => !(e.attemptId == dispute.attemptId || !e.flipped)).map
        (db.classmateNews users dispute.questionId note) :=
    List.mem_map.mpr ⟨e, List.mem_filter.mpr ⟨he, by simp [hother, hflipped]⟩, rfl⟩
  constructor
  · intro hu
    obtain ⟨n, hn, hk⟩ := pushInApp_told hu
    exact ⟨n, List.mem_append_right _ (List.mem_flatMap.mpr ⟨_, hmem, hn⟩), hk⟩
  · exact ⟨_, List.mem_cons_of_mem _ (List.mem_flatMap.mpr ⟨_, hmem, List.mem_singleton_self _⟩), rfl⟩

theorem reporter_notifyStudents :
    ((∃ u ∈ users, u.studentId = some dispute.studentId) →
      ∃ n ∈ (db.notifyStudents users d dispute accept note rescored).inApp, n.attemptId = dispute.attemptId) ∧
    ∃ p ∈ (db.notifyStudents users d dispute accept note rescored).outbox, p.attemptId = dispute.attemptId := by
  refine ⟨fun hu => ?_, _, List.mem_cons_self, rfl⟩
  unfold Db.notifyStudents
  split_ifs
  · obtain ⟨n, hn, hk⟩ := pushInApp_told hu
    exact ⟨n, List.mem_append_left _ hn, hk⟩
  · obtain ⟨n, hn, hk⟩ := pushInApp_told hu
    exact ⟨n, List.mem_append_left _ hn, hk⟩

/-- The e-mail goes to the owner of the submission of the attempt it is about. -/
theorem executeQuizDisputeResolved_some {enabled : ℕ → Bool} {channels : Bool} {p : DisputeResolved} {m : DisputeMail}
    (h : db.executeQuizDisputeResolved enabled channels p = some m) : m.attemptId = p.attemptId ∧
      ∃ a, db.quizAttempts[p.attemptId]? = some a ∧ db.ownerOf a.submissionId = some m.studentId := by
  unfold Db.executeQuizDisputeResolved at h
  split at h
  · cases h
  · rename_i a ha
    split at h
    · cases h
    · rename_i t ht
      split_ifs at h
      cases h
      exact ⟨rfl, a, ha, ht⟩

theorem executeQuizDisputeResolved_sent {enabled : ℕ → Bool} {p : DisputeResolved} {a : QuizAttempt} {t : ℕ}
    (ha : db.quizAttempts[p.attemptId]? = some a) (ht : db.ownerOf a.submissionId = some t) (hon : enabled t = true) :
    ∃ m, db.executeQuizDisputeResolved enabled true p = some m ∧ m.attemptId = p.attemptId := by
  unfold Db.executeQuizDisputeResolved
  simp [ha, ht, hon]

end

/-! The two directions for one lifted attempt -/

section

variable {db db' : Db} {users : List User} {d c v q k : ℕ} {dispute : QuizQuestionDispute} {note : String}

theorem mem_regradeQuestion {e : AttemptRescore} : e ∈ (db.regradeQuestion c v q).2 ↔
    ∃ (k : ℕ) (a : QuizAttempt), db.quizAttempts[k]? = some a ∧ a.isCandidate c v q = true ∧ e = rescoreEntry q k a := by
  unfold Db.regradeQuestion
  dsimp only
  rw [List.mem_filterMap]
  constructor
  · rintro ⟨k, hk, he⟩
    obtain ⟨a, ha, hcand⟩ := Table.mem_idsWhere.mp hk
    rw [ha] at he
    exact ⟨k, a, ha, hcand, (Option.some_inj.mp he).symm⟩
  · rintro ⟨k, a, ha, hcand, rfl⟩
    exact ⟨k, Table.mem_idsWhere.mpr ⟨a, ha, hcand⟩, by rw [ha]; rfl⟩

/-- What an accepted ruling does to the attempts and whom it tells. -/
theorem resolve_accepted (h : db.resolve d true note = .ok db') (users : List User) :
    ∃ dispute, db.disputes[d]? = some dispute ∧
      ((∃ c v, dispute.pluginConfigId = some c ∧ dispute.pluginConfigVersion = some v ∧
        db'.quizAttempts = (db.quizAttempts.map fun a =>
          if a.isCandidate c v dispute.questionId then a.regrade dispute.questionId else a) ∧
        db.resolutionNews users d true note =
          db.notifyStudents users d dispute true note (db.regradeQuestion c v dispute.questionId).2 ∧
        db.liftedByRuling d = db.liftedBy c v dispute.questionId) ∨
      db'.quizAttempts = db.quizAttempts ∧ db.liftedByRuling d = []) := by
  unfold Db.resolve at h
  rcases hd : db.disputes[d]? with _ | dispute
  · simp [hd] at h
  · simp only [hd] at h
    split_ifs at h with hnote hopen
    refine ⟨dispute, rfl, ?_⟩
    unfold Db.liftedByRuling Db.resolutionNews Db.rulingRescores
    simp only [hd]
    rcases hc : dispute.pluginConfigId with _ | c
    · rw [resolveDispute_other hd (.inr (.inl hc))] at h
      exact .inr ⟨by rw [← Except.ok.inj h]; rfl, rfl⟩
    rcases hv : dispute.pluginConfigVersion with _ | v
    · rw [resolveDispute_other hd (.inr (.inr hv))] at h
      exact .inr ⟨by rw [← Except.ok.inj h]; rfl, rfl⟩
    rw [resolveDispute_accept hd hc hv] at h
    have hdb := congrArg Db.quizAttempts (Except.ok.inj h)
    rw [(within_advancedAll _ _).quizAttempts, ruledDb_quizAttempts] at hdb
    refine .inl ⟨c, v, rfl, rfl, hdb.symm, ?_, rfl⟩
    simp [Db.regradeQuestion, Db.closeSiblings]

theorem flips_iff (hdb : db'.quizAttempts = db.quizAttempts.map fun a => if a.isCandidate c v q then a.regrade q else a) :
    db.Flips db' k ↔ k ∈ db.liftedBy c v q := by
  unfold Db.Flips Db.liftedBy
  rw [Table.mem_idsWhere, hdb]
  simp only [List.getElem?_map, Bool.and_eq_true]
  constructor
  · rintro ⟨a, a', ha, ha', hno, hyes⟩
    rw [ha, Option.map_some, Option.some_inj] at ha'
    subst ha'
    refine ⟨a, ha, ?_⟩
    split_ifs at hyes with hcand
    · exact ⟨hcand, hyes⟩
    · rw [hno] at hyes
      cases hyes
  · rintro ⟨a, ha, hcand, hyes⟩
    refine ⟨a, a.regrade q, ha, ?_, isCandidate_not_passed hcand, hyes⟩
    rw [ha, Option.map_some, if_pos hcand]

/-- The new score of an entry is the one its attempt has afterwards. -/
theorem rescored_score (hdb : db'.quizAttempts = db.quizAttempts.map fun a => if a.isCandidate c v q then a.regrade q else a)
    {e : AttemptRescore} (he : e ∈ (db.regradeQuestion c v q).2) :
    (db'.quizAttempts[e.attemptId]?).bind (·.score) = some e.score := by
  obtain ⟨k, a, ha, hcand, rfl⟩ := mem_regradeQuestion.mp he
  rw [hdb, List.getElem?_map, rescoreEntry_attemptId, ha, Option.map_some, if_pos hcand]
  rfl

/-- An attempt sat by the owner: every address the news can take is the owner's. -/
theorem reaches_of_satByOwner (hev : Evolves db db') (hreports : db.ReportsBySitter) (howned : db.AttemptsOwned)
    (hd : db.disputes[d]? = some dispute)
    (hdb : db'.quizAttempts = db.quizAttempts.map fun a => if a.isCandidate c v dispute.questionId then
      a.regrade dispute.questionId else a) (hk : k ∈ db.liftedBy c v dispute.questionId) (hsat : db.SatByOwner k) :
    ∃ s, db.sitter k = some s ∧ (db.notifyStudents users d dispute true note
      (db.regradeQuestion c v dispute.questionId).2).Reaches users db' k s := by
  obtain ⟨a, ha, hlift⟩ := Table.mem_idsWhere.mp hk
  rw [Bool.and_eq_true] at hlift
  obtain ⟨hcand, hpass⟩ := hlift
  obtain ⟨s, hs⟩ := howned k a ha
  have hsitter : db.sitter k = some s := by
    rw [Db.sitter, ha, Option.bind_some]
    rcases hst : a.studentId with _ | t
    · rw [Option.none_or, hs]
    · rw [Option.some_or, ← hsat a t ha hst, hs]
  have hreporter : k = dispute.attemptId → dispute.studentId = s := by
    rintro rfl
    have hfiled := hreports dispute (List.mem_of_getElem? hd)
    rw [hsitter] at hfiled
    exact (Option.some_inj.mp hfiled).symm
  have hentry : ∀ e ∈ (db.regradeQuestion c v dispute.questionId).2, e.attemptId = k → db.rescoredStudent e = s := by
    intro e he hek
    obtain ⟨k', a', ha', -, rfl⟩ := mem_regradeQuestion.mp he
    rw [rescoreEntry_attemptId] at hek
    subst hek
    rw [ha] at ha'
    cases ha'
    change (db.ownerOf a.submissionId).getD 0 = s
    rw [hs, Option.getD_some]
  have hnews : rescoreEntry dispute.questionId k a ∈ (db.regradeQuestion c v dispute.questionId).2 :=
    mem_regradeQuestion.mpr ⟨k, a, ha, hcand, rfl⟩
  have hflipped := (flipped_rescoreEntry (q := dispute.questionId) k hcand).trans hpass
  have hbell : (∃ u ∈ users, u.studentId = some s) → ∃ n ∈ (db.notifyStudents users d dispute true note
      (db.regradeQuestion c v dispute.questionId).2).inApp, n.attemptId = k := by
    intro hu
    by_cases hkd : k = dispute.attemptId
    · rw [← hreporter hkd] at hu
      exact hkd ▸ reporter_notifyStudents.1 hu
    · rw [← hentry _ hnews rfl] at hu
      exact (flipped_notifyStudents users hnews hflipped hkd).1 hu
  have hqueued : ∃ p ∈ (db.notifyStudents users d dispute true note
      (db.regradeQuestion c v dispute.questionId).2).outbox, p.attemptId = k := by
    by_cases hkd : k = dispute.attemptId
    · exact hkd ▸ reporter_notifyStudents.2
    · exact (flipped_notifyStudents users hnews hflipped hkd).2
  -- the attempt and its owner are the same whenever the e-mail task runs
  have hlater : ∀ {ops later}, Run Db.step Any db' ops later → ∃ a', later.quizAttempts[k]? = some a' ∧
      later.ownerOf a'.submissionId = some s := by
    intro ops later hrun
    have hevl := hev.trans (hrun.relation Evolves.refl (fun _ _ _ => Evolves.trans) evolves_step)
    obtain ⟨a', ha', hsub, -⟩ := hevl.attempt ha
    exact ⟨a', ha', by rw [hsub]; exact hevl.ownerOf hs⟩
  refine ⟨s, hsitter, hbell, fun n hn hnk => ?_, fun ops later enabled hrun hon => ?_,
    fun ops later enabled channels hrun p hp m hm hmk => ?_, fun p hp x hx => ?_⟩
  · obtain ⟨u, t, hu, hst, ⟨hkd, rfl⟩ | ⟨-, e, he, hke, rfl⟩⟩ := inApp_notifyStudents hn
    · exact ⟨u, hu, by rw [hst, hreporter (hnk.symm.trans hkd)]⟩
    · exact ⟨u, hu, by rw [hst, hentry e he (hke.symm.trans hnk)]⟩
  · obtain ⟨p, hp, rfl⟩ := hqueued
    obtain ⟨a', ha', ho⟩ := hlater hrun
    obtain ⟨m, hm, hmk⟩ := executeQuizDisputeResolved_sent ha' ho hon
    exact ⟨p, hp, m, hm, hmk⟩
  · obtain ⟨hmp, a₁, ha₁, ho₁⟩ := executeQuizDisputeResolved_some hm
    obtain ⟨a', ha', ho⟩ := hlater hrun
    rw [hmp] at hmk
    rw [hmk, ha'] at ha₁
    cases ha₁
    rw [ho] at ho₁
    exact (Option.some_inj.mp ho₁).symm
  · obtain ⟨e, he, hpe, rfl⟩ := outbox_notifyStudents hp hx
    rw [hpe]
    exact rescored_score hdb he

/-- Where the news reaches the sitter, the e-mail sent at once shows that the sitter is the owner. -/
theorem satByOwner_of_reaches {s : ℕ} {news : News} (hev : Evolves db db') (howned : db.AttemptsOwned)
    (hs : db.sitter k = some s) (h : news.Reaches users db' k s) : db.SatByOwner k := by
  intro a t ha ht
  obtain ⟨owner, ho⟩ := howned k a ha
  obtain ⟨p, hp, m, hm, hmk⟩ := h.mail [] db' (fun _ => true) .nil rfl
  have hto := h.mailOnly [] db' (fun _ => true) true .nil p hp m hm hmk
  obtain ⟨hmp, a₁, ha₁, ho₁⟩ := executeQuizDisputeResolved_some hm
  obtain ⟨a', ha', hsub, -⟩ := hev.attempt ha
  rw [← hmp, hmk, ha'] at ha₁
  cases ha₁
  rw [hsub, hev.ownerOf ho, hto] at ho₁
  rw [Db.sitter, ha, Option.bind_some, ht, Option.some_or] at hs
  rw [ho, ho₁, hs]

end

/-- The news of an accepted ruling reaches the students who sat the attempts it flips exactly where each
was sat by the owner of its submission. -/
theorem regrade_news_reaches_sitters {db₀ db db' : Db} {ops : List Op} {d : ℕ} {note : String} (howned : db₀.AttemptsOwned)
    (hnone : db₀.disputes = []) (hrun : Run Db.step Any db₀ ops db) (h : db.resolve d true note = .ok db')
    (users : List User) :
    (∀ k, db.Flips db' k → ∃ s, db.sitter k = some s ∧ (db.resolutionNews users d true note).Reaches users db' k s) ↔
      ∀ k ∈ db.liftedByRuling d, db.SatByOwner k := by
  have hstart : db₀.ReportsBySitter := by
    intro s hs
    rw [hnone] at hs
    cases hs
  have hreports := hrun.invariant hstart fun _ op hs _ => reportsBySitter_step hs op
  have howned := hrun.invariant howned fun _ op ho _ => attemptsOwned_step ho op
  have hstep : db.step (.resolve d true note) = db' := by simp only [Db.step, Db.request, h]
  have hev : Evolves db db' := hstep ▸ evolves_step db (.resolve d true note)
  obtain ⟨dispute, hd, ⟨c, v, -, -, hdb, hnews, hlifted⟩ | ⟨hsame, hlifted⟩⟩ := resolve_accepted h users
  · rw [hlifted, hnews]
    constructor
    · intro hall k hk
      obtain ⟨s, hs, hreach⟩ := hall k ((flips_iff hdb).mpr hk)
      exact satByOwner_of_reaches hev howned hs hreach
    · intro hsat k hk
      have hk := (flips_iff hdb).mp hk
      exact reaches_of_satByOwner hev hreports howned hd hdb hk (hsat k hk)
  · rw [hlifted]
    refine ⟨fun _ k hk => absurd hk List.not_mem_nil, fun _ k hflip => ?_⟩
    obtain ⟨a, a', ha, ha', hno, hyes⟩ := hflip
    rw [hsame, ha, Option.some_inj] at ha'
    rw [← ha', hno] at hyes
    cases hyes

section

variable {db db' : Db} {d k : ℕ} {accept : Bool} {note : String}

theorem flips_of_passed (h : (db.quizAttempts[k]?).map (·.passed) = some false)
    (h' : (db'.quizAttempts[k]?).map (·.passed) = some true) : db.Flips db' k := by
  obtain ⟨a, ha, hno⟩ := Option.map_eq_some_iff.mp h
  obtain ⟨a', ha', hyes⟩ := Option.map_eq_some_iff.mp h'
  exact ⟨a, a', ha, ha', hno, hyes⟩

theorem resolve_eq_step (h : (db.resolve d accept note).isOk = true) :
    db.resolve d accept note = .ok (db.step (.resolve d accept note)) := by
  rcases hreq : db.resolve d accept note with e | db'
  · rw [hreq] at h
    cases h
  · simp only [Db.step, Db.request, hreq]

end

def missedQuestion (submissionId : ℕ) (studentId : Option ℕ) : QuizAttempt :=
  { submissionId, pluginConfigId := some 0, pluginConfigVersion := some 1, studentId,
    questionsSnapshot := [{ id := 0, points := 1 }], score := some 0, maxScore := some 1, isPassed := some false,
    status := .completed }

/-- Student 0 owns the submission of a squad whose two members failed on the same question. -/
def reportedByOwner : Db :=
  { squads := [{ subjectId := 0, members := [0, 1], lockedAt := some 0 }]
    studentsAssignments := [{ studentId := 0, subjectsAssignmentId := 0 }, { studentId := 1, subjectsAssignmentId := 0 }]
    submissions := [{ studentsAssignmentId := 0, status := .failed, squadId := some 0 }]
    quizAttempts := [missedQuestion 0 (some 0), missedQuestion 0 (some 1)] }

theorem reportedByOwner_owned : reportedByOwner.AttemptsOwned := by
  intro k a ha
  have hmem := List.mem_of_getElem? ha
  have hsub : a.submissionId = 0 := by
    simp only [reportedByOwner, List.mem_cons, List.not_mem_nil, or_false] at hmem
    rcases hmem with rfl | rfl <;> rfl
  exact ⟨0, by rw [hsub]; rfl⟩

/-- The e-mail about the other member's attempt goes to the owner. -/
theorem news_goes_to_owner : ¬ ∀ (db₀ db db' : Db) (ops : List Op) (d : ℕ) (note : String) (users : List User),
    db₀.AttemptsOwned → db₀.disputes = [] → Run Db.step Any db₀ ops db → db.resolve d true note = .ok db' →
    ∀ k, db.Flips db' k → ∃ s, db.sitter k = some s ∧ (db.resolutionNews users d true note).Reaches users db' k s := by
  intro hall
  set db := reportedByOwner.step (.reportQuestion 0 0 0) with hdb
  obtain ⟨s, hs, hreach⟩ := hall reportedByOwner db (db.step (.resolve 0 true "ok")) [.reportQuestion 0 0 0] 0 "ok" []
    reportedByOwner_owned rfl (run_foldl _) (resolve_eq_step (by decide +kernel)) 1
    (flips_of_passed (by decide +kernel) (by decide +kernel))
  obtain ⟨p, hp, m, hm, hmk⟩ := hreach.mail [] _ (fun _ => true) .nil rfl
  have hto := hreach.mailOnly [] _ (fun _ => true) true .nil p hp m hm hmk
  obtain ⟨hmp, a, ha, ho⟩ := executeQuizDisputeResolved_some hm
  have hsitter : db.sitter 1 = some 1 := by decide +kernel
  have howner : ((db.step (.resolve 0 true "ok")).quizAttempts[1]?).bind
      (fun a => (db.step (.resolve 0 true "ok")).ownerOf a.submissionId) = some 0 := by decide +kernel
  rw [← hmp, hmk] at ha
  rw [ha, Option.bind_some, ho, hto] at howner
  rw [hs, howner] at hsitter
  cases hsitter

/-- The same on work of their own, one of the attempts without a student. -/
def reportedAlone : Db :=
  { studentsAssignments := [{ studentId := 0, subjectsAssignmentId := 0 }, { studentId := 1, subjectsAssignmentId := 0 }]
    submissions := [{ studentsAssignmentId := 0, status := .failed }, { studentsAssignmentId := 1, status := .failed }]
    quizAttempts := [missedQuestion 0 (some 0), missedQuestion 1 none] }

theorem reportedAlone_owned : reportedAlone.AttemptsOwned := by
  intro k a ha
  have hmem := List.mem_of_getElem? ha
  simp only [reportedAlone, List.mem_cons, List.not_mem_nil, or_false] at hmem
  rcases hmem with rfl | rfl
  · exact ⟨0, rfl⟩
  · exact ⟨1, rfl⟩

theorem reportedAlone_told :
    let db := reportedAlone.step (.reportQuestion 0 0 0)
    let db' := db.step (.resolve 0 true "ok")
    db.Flips db' 1 ∧ ∀ k, db.Flips db' k →
      ∃ s, db.sitter k = some s ∧ (db.resolutionNews [⟨some 1⟩] 0 true "ok").Reaches [⟨some 1⟩] db' k s := by
  intro db db'
  have hrun : Run Db.step Any reportedAlone [.reportQuestion 0 0 0] db := run_foldl _
  refine ⟨flips_of_passed (by decide +kernel) (by decide +kernel), ?_⟩
  refine (regrade_news_reaches_sitters reportedAlone_owned rfl hrun (resolve_eq_step (by decide +kernel)) _).mpr ?_
  intro k hk a t ha ht
  have hids : db.liftedByRuling 0 = [0, 1] := by decide +kernel
  rw [hids, List.mem_cons, List.mem_singleton] at hk
  rcases hk with rfl | rfl
  · cases ha
    cases ht
    rfl
  · cases ha
    cases ht

end SubmissionsChecker
