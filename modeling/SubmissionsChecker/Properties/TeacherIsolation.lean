import SubmissionsChecker.Effects.DeskRequests
import SubmissionsChecker.Effects.Moves

/-! Whose submissions a teacher can change. Every route checks the subject of what it changes, but for
the bulk action of the board: it checks the subject of the path and changes the assignment of the path. -/

namespace SubmissionsChecker

namespace Desk

/-- Submission `i` is of a subject that is not the user's. -/
def Foreign (s : Desk) (userId i : ℕ) : Prop := ∃ subjectId, s.subjectOf i = some subjectId ∧ s.owner subjectId ≠ some userId

/-- The submissions of the others, their grades and scores, and the messages about them are the same. -/
structure LeavesOthers (userId : ℕ) (s s' : Desk) : Prop where
  submissions : ∀ i, s.Foreign userId i → s'.db.submissions[i]? = s.db.submissions[i]?
  rows : ∀ (r : ℕ) row asg, s.db.studentsAssignments[r]? = some row →
    s.db.subjectsAssignments[row.subjectsAssignmentId]? = some asg → s.owner asg.subjectId ≠ some userId →
      s'.db.studentsAssignments[r]? = some row
  outbox : ∀ i, s.Foreign userId i → s'.db.outbox.filter (fun m => m.payload.submissionId == i) =
    s.db.outbox.filter fun m => m.payload.submissionId == i
  reviewed : ∀ i, s.Foreign userId i → s'.reviewed.filter (fun m => m.submissionId == i) =
    s.reviewed.filter fun m => m.submissionId == i

end Desk

/-- The bulk action has something to do on submission `i`. -/
def Db.eligible (db : Db) (i : ℕ) : BulkAction → Prop
  | .approve => db.status i = some .awaitingTeacherReview ∧
      (db.isScoredSubmission i = true → db.scoresCompleteFor i = true)
  | .reject => db.status i = some .awaitingTeacherReview ∧ db.isScoredSubmission i = false
  | .rerun => ∃ sub, db.submissions[i]? = some sub ∧ sub.sourceType ≠ .quizOnly ∧ sub.status.requeueable = true
  | .other => False

/-- A bulk action that is let through names an assignment of a subject of the user, or selects nothing
of that assignment that it could change. -/
def Desk.KeepsToOwn (s : Desk) (userId : ℕ) : TeacherRequest → Prop
  | .bulk subjectId asgId action ids reason =>
    s.requireSubjectAccess { userId } subjectId = .ok () → ¬ (action = .reject ∧ reason = "") →
      ∀ asg, s.db.subjectsAssignments[asgId]? = some asg → s.owner asg.subjectId ≠ some userId →
        ∀ i ∈ ids, s.db.asgIdOf i = some asgId → ¬ s.db.eligible i action
  | _ => True

section

variable {s s' : Desk} {A i t userId : ℕ} {asg : SubjectsAssignment} {action : BulkAction} {reason : String}

theorem asgIdOf_of_subject {x : ℕ} (h : s.subjectOf i = some x) :
    ∃ B asg, s.db.asgIdOf i = some B ∧ s.db.subjectsAssignments[B]? = some asg ∧ asg.subjectId = x := by
  unfold Desk.subjectOf Db.assignmentOf at h
  obtain ⟨asg, hasg, rfl⟩ := Option.map_eq_some_iff.mp h
  obtain ⟨sub, hsub, hasg⟩ := Option.bind_eq_some_iff.mp hasg
  obtain ⟨row, hrow, hasg⟩ := Option.bind_eq_some_iff.mp hasg
  refine ⟨row.subjectsAssignmentId, asg, asgIdOf_some.mpr ⟨_, row, ?_, hrow, rfl⟩, hasg, rfl⟩
  rw [hsub, Option.map_some]

theorem filter_append_none {α : Type*} {p : α → Bool} {old new : List α} (h : ∀ m ∈ new, p m ≠ true) :
    (old ++ new).filter p = old.filter p := by
  rw [List.filter_append, List.filter_eq_nil_iff.mpr h, List.append_nil]

/-- What keeps to an assignment of the user leaves the others alone. -/
theorem Desk.KeepsTo.leavesOthers (h : s.KeepsTo A s')
    (hA : ∀ asg, s.db.subjectsAssignments[A]? = some asg → s.owner asg.subjectId = some userId) :
    s.LeavesOthers userId s' := by
  have hforeign : ∀ i, s.Foreign userId i → ¬ s.db.OnlyOn A i := by
    rintro i ⟨x, hx, howner⟩ honly
    obtain ⟨B, asg, hB, hasg, rfl⟩ := asgIdOf_of_subject hx
    rw [honly B hB] at hasg
    exact howner (hA asg hasg)
  refine ⟨?_, ?_, ?_, ?_⟩
  · rintro i ⟨x, hx, howner⟩
    obtain ⟨B, asg, hB, hasg, rfl⟩ := asgIdOf_of_subject hx
    refine h.db.confined.subs i B hB ?_
    rintro rfl
    exact howner (hA asg hasg)
  · intro r row asg hrow hasg howner
    refine (h.db.confined.rows r row ?_).mpr hrow
    rintro rfl
    exact howner (hA asg hasg)
  · intro i hi
    obtain ⟨new, hout, hnew⟩ := h.db.outbox
    rw [hout]
    refine filter_append_none fun m hm hmi => ?_
    rw [beq_iff_eq] at hmi
    exact hforeign i hi (hmi ▸ hnew m hm)
  · intro i hi
    obtain ⟨new, hout, hnew⟩ := h.reviewed
    rw [hout]
    refine filter_append_none fun m hm hmi => ?_
    rw [beq_iff_eq] at hmi
    exact hforeign i hi (hmi ▸ hnew m hm)

theorem leavesOthers_refl (s : Desk) (userId : ℕ) : s.LeavesOthers userId s :=
  ⟨fun _ _ => rfl, fun _ _ _ h _ _ => h, fun _ _ => rfl, fun _ _ => rfl⟩

/-! The checks -/

theorem owner_of_access {x : ℕ} (h : s.requireSubjectAccess { userId } x = .ok ()) : s.owner x = some userId := by
  unfold Desk.requireSubjectAccess Desk.refuses at h
  split at h
  · cases h
  · split_ifs at h with hrefuses
    simpa using hrefuses

/-- A submission that is let through is of an assignment of the user. -/
theorem own_of_subject {x : ℕ} (hx : s.subjectOf i = some x) (howner : s.owner x = some userId) :
    ∃ A, s.db.OnlyOn A i ∧ ∀ asg, s.db.subjectsAssignments[A]? = some asg → s.owner asg.subjectId = some userId := by
  obtain ⟨B, asg, hB, hasg, rfl⟩ := asgIdOf_of_subject hx
  refine ⟨B, fun C hC => ?_, fun asg' hasg' => ?_⟩
  · rw [hB] at hC
    exact (Option.some_inj.mp hC).symm
  · rw [hasg] at hasg'
    rw [← Option.some_inj.mp hasg']
    exact howner

theorem own_of_load (h : s.loadSubmissionForTeacher { userId } i = .ok ()) :
    ∃ A, s.db.OnlyOn A i ∧ ∀ asg, s.db.subjectsAssignments[A]? = some asg → s.owner asg.subjectId = some userId := by
  unfold Desk.loadSubmissionForTeacher Desk.refuses at h
  split at h
  · cases h
  · rename_i x hx
    split_ifs at h with hrefuses
    exact own_of_subject hx (by simpa using hrefuses)

/-! The routes that load a submission -/

theorem keepsTo_applyReviewDecision {action : ReviewAction} (hs : s.db.status i = some .awaitingTeacherReview)
    (hi : s.db.OnlyOn A i) (h : s.applyReviewDecision i action reason = .ok s') : s.KeepsTo A s' := by
  obtain ⟨db, hdb, h⟩ := bind_ok h
  cases h
  refine ⟨(applyReviewDecision_spec hs hdb).keepsTo hi, rfl, [_], rfl, ?_⟩
  intro m hm
  rw [List.mem_singleton.mp hm]
  exact hi

theorem leavesOthers_review {action : ReviewAction} (h : s.reviewSubmission { userId } i action reason = .ok s') :
    s.LeavesOthers userId s' := by
  unfold Desk.reviewSubmission at h
  split_ifs at h with hs
  split at h
  · cases h
  · rename_i x hx
    obtain ⟨_, haccess, h⟩ := bind_ok h
    obtain ⟨A, hi, hA⟩ := own_of_subject hx (owner_of_access haccess)
    split at h
    · cases h
    · exact (keepsTo_applyReviewDecision hs hi h).leavesOthers hA

theorem leavesOthers_rerun (h : s.rerunChecks { userId } i = .ok s') : s.LeavesOthers userId s' := by
  obtain ⟨_, hload, h⟩ := bind_ok h
  obtain ⟨A, hi, hA⟩ := own_of_load hload
  split at h
  · rename_i db hdb
    cases h
    have hkeeps : s.KeepsTo A { s with db } := ⟨(requeueChecks_spec hdb).keepsTo hi, rfl, [], by simp, by simp⟩
    exact hkeeps.leavesOthers hA
  · cases h
  · cases h

theorem leavesOthers_grant {studentId : Option ℕ} (h : s.grantQuizAttempt { userId } i studentId = .ok s') :
    s.LeavesOthers userId s' := by
  obtain ⟨_, hload, h⟩ := bind_ok h
  obtain ⟨A, hi, hA⟩ := own_of_load hload
  obtain ⟨db, hdb, h⟩ := bind_ok h
  cases h
  obtain ⟨t, hgranted⟩ := grantQuizAttempt_spec hdb
  have hkeeps : s.KeepsTo A { s with db } := ⟨hgranted.keepsTo hi, rfl, [], by simp, by simp⟩
  exact hkeeps.leavesOthers hA

theorem leavesOthers_scores {x : ℕ} {studentId : Option ℕ} {form : String → Option ℕ}
    (h : s.saveScores { userId } x A studentId form = .ok s') : s.LeavesOthers userId s' := by
  obtain ⟨_, haccess, h⟩ := bind_ok h
  rcases studentId with _ | t
  · dsimp only at h
    split at h
    · cases h
    · split_ifs at h
  · obtain ⟨db, hdb, h⟩ := bind_ok h
    cases h
    obtain ⟨hkeeps, asg, hasg, hsubject⟩ := keepsTo_saveScores hdb
    have hdesk : s.KeepsTo A { s with
        db
        reviewed := s.reviewed ++ (s.approvedByScores db A t).toList.map fun i =>
          { submissionId := i, action := .approve, reason := "" } } := by
      refine ⟨hkeeps, rfl, _, rfl, ?_⟩
      intro m hm
      obtain ⟨i, hi, rfl⟩ := List.mem_map.mp hm
      have hlatest := (Option.mem_filter_iff.mp (Option.mem_toList.mp hi)).1
      obtain ⟨sa, hsa, hst, hsaasg⟩ := ensureSa_row s.db t A
      have hw := within_ensureSa .grades s.db t A
      have hreach := latestSubmission_reaches hsa (by rw [hsaasg, hw.subjectsAssignments]; exact hasg) hlatest
      rw [hst, hsaasg] at hreach
      have honly : (s.db.ensureSa t A).1.OnlyOn A i :=
        (confined_latestSubmission hsa hsaasg).onlyOn_of hreach.onlyOn
      exact (confined_ensureSa s.db t).onlyOn_of honly
    refine hdesk.leavesOthers fun asg' hasg' => ?_
    rw [hasg] at hasg'
    rw [← Option.some_inj.mp hasg', hsubject]
    exact owner_of_access haccess

/-! The bulk action -/

theorem asgIdOf_map (db : Db) (i : ℕ) : ((db.submissions[i]?).bind fun sub =>
    db.studentsAssignments[sub.studentsAssignmentId]?).map (·.subjectsAssignmentId) = db.asgIdOf i := by
  rw [Option.map_bind]
  rfl

theorem bulkRow_elsewhere (h : s.db.asgIdOf i ≠ some A) : s.bulkRow A action reason i = .ok none := by
  unfold Desk.bulkRow
  rw [asgIdOf_map, if_pos h]

theorem bulkRow_keepsTo (h : s.bulkRow A action reason i = .ok (some s')) : s.KeepsTo A s' := by
  by_cases hasg : s.db.asgIdOf i = some A
  · have hi : s.db.OnlyOn A i := fun B hB => by
      rw [hasg] at hB
      exact (Option.some_inj.mp hB).symm
    unfold Desk.bulkRow at h
    rw [asgIdOf_map, if_neg (not_not.mpr hasg)] at h
    by_cases hrerun : action = .rerun
    · rw [if_pos hrerun] at h
      split at h
      · rename_i db hdb
        cases h
        exact ⟨(requeueChecks_spec hdb).keepsTo hi, rfl, [], by simp, by simp⟩
      · cases h
      · cases h
    · rw [if_neg hrerun] at h
      by_cases hstatus : s.db.status i = some .awaitingTeacherReview
      · rw [if_neg (not_not.mpr hstatus)] at h
        split at h
        · rename_i s₁ hs₁
          cases h
          exact keepsTo_applyReviewDecision hstatus hi hs₁
        · cases h
        · cases h
      · rw [if_pos hstatus] at h
        cases h
  · rw [bulkRow_elsewhere hasg] at h
    cases h

theorem bulkLoop_keepsTo (is : List ℕ) {r : Desk × ℕ × ℕ} : ∀ (s : Desk) (applied skipped : ℕ),
    Desk.bulkLoop A action reason is (s, applied, skipped) = .ok r → s.KeepsTo A r.1 := by
  induction is with
  | nil =>
    intro s applied skipped h
    cases h
    exact .refl A s
  | cons i is ih =>
    intro s applied skipped h
    obtain ⟨o, ho, h⟩ := bind_ok h
    rcases o with _ | s₁
    · exact ih _ _ _ h
    · exact (bulkRow_keepsTo ho).trans (ih _ _ _ h)

/-! What it skips and what it applies -/

theorem transitions_requeue (status : SubmissionStatus) :
    status.transitions .requeueChecks = if status.requeueable then some .pending else none := by
  rcases status <;> rfl

theorem requeueChecks_of_eligible (h : s.db.eligible i .rerun) : ∃ db, s.db.requeueChecks i = .ok db := by
  obtain ⟨sub, hsub, hsource, hstatus⟩ := h
  have hmove := transition_of_status (status_of_row hsub) ((transitions_requeue _).trans (if_pos hstatus))
  unfold Db.requeueChecks
  rw [hsub]
  dsimp only
  rw [if_neg hsource, hmove]
  exact ⟨_, rfl⟩

theorem requeueChecks_refused {sub : Submission} (hsub : s.db.submissions[i]? = some sub) (h : ¬ s.db.eligible i .rerun) :
    ∃ event status, s.db.requeueChecks i = .error (.invalidTransition event status) := by
  unfold Db.requeueChecks
  rw [hsub]
  dsimp only
  by_cases hsource : sub.sourceType = .quizOnly
  · rw [if_pos hsource]
    exact ⟨_, _, rfl⟩
  · have hstatus : ¬ sub.status.requeueable = true := fun hr => h ⟨sub, hsub, hsource, hr⟩
    have hmove : s.db.transition i .requeueChecks = .error (.invalidTransition .requeueChecks sub.status) := by
      unfold Db.transition
      simp only [hsub, transitions_requeue, if_neg hstatus]
    rw [if_neg hsource, hmove]
    exact ⟨_, _, rfl⟩

/-- A review decision goes through on what is eligible and is refused otherwise. -/
theorem applyReviewDecision_of_eligible (reason : String) (hi : s.db.asgIdOf i = some A) (hasg : s.db.subjectsAssignments[A]? = some asg)
    (haction : action = .approve ∨ action = .reject) (hstatus : s.db.status i = some .awaitingTeacherReview) :
    (s.db.eligible i action → ∃ db, s.db.applyReviewDecision i action.decision reason = .ok db) ∧
      (¬ s.db.eligible i action → ∃ message,
        s.db.applyReviewDecision i action.decision reason = .error (.reviewNotAllowed message)) := by
  obtain ⟨r, row, hr, hrow, hA⟩ := asgIdOf_some.mp hi
  obtain ⟨sub, hsub, rfl⟩ := Option.map_eq_some_iff.mp hr
  have hassigned : s.db.assignmentOf sub.studentsAssignmentId = some asg := by
    rw [Db.assignmentOf, hrow, Option.bind_some, hA, hasg]
  have hscored := isScoredSubmission_eq hsub hassigned
  have hcomplete := scoresCompleteFor_eq hsub hrow hassigned
  rcases haction with rfl | rfl
  · simp only [Db.eligible, hstatus, true_and, hscored, hcomplete, BulkAction.decision, Db.applyReviewDecision, hsub,
      hrow, hassigned]
    by_cases hscores : asg.config.isScoredMode = true ∧
        ¬ isComplete asg.config.grading.teacherCriteria row.teacherScores = true
    · rw [if_pos hscores]
      exact ⟨fun h => absurd (h hscores.1) hscores.2, fun _ => ⟨_, rfl⟩⟩
    · rw [if_neg hscores]
      refine ⟨fun _ => ?_, fun h => absurd (fun hm => ?_) h⟩
      · split_ifs
        · exact ⟨_, transition_of_status hstatus rfl⟩
        · rw [transition_of_status hstatus
            (show SubmissionStatus.awaitingTeacherReview.transitions .teacherApprove = some .completed from rfl)]
          exact ⟨_, rfl⟩
      · by_contra hno
        exact hscores ⟨hm, hno⟩
  · simp only [Db.eligible, hstatus, true_and, hscored, BulkAction.decision, Db.applyReviewDecision, hsub, hrow, hassigned]
    by_cases hm : asg.config.isScoredMode = true
    · rw [if_pos hm]
      exact ⟨fun h => absurd (hm.symm.trans h) (by simp), fun _ => ⟨_, rfl⟩⟩
    · rw [if_neg hm]
      refine ⟨fun _ => ⟨_, transition_of_status ?_ (show SubmissionStatus.awaitingTeacherReview.transitions
        .teacherReject = some .failed from rfl)⟩, fun h => absurd (by simpa using hm) h⟩
      rw [status_testResults]
      exact hstatus

/-- The messages about submission `i`. -/
def Desk.about (s : Desk) (i : ℕ) : ℕ :=
  (s.db.outbox.filter fun m => m.payload.submissionId == i).length + (s.reviewed.filter fun m => m.submissionId == i).length

theorem Desk.KeepsTo.about_le (h : s.KeepsTo A s') (i : ℕ) : s.about i ≤ s'.about i := by
  obtain ⟨new, hout, -⟩ := h.db.outbox
  obtain ⟨new', hreviewed, -⟩ := h.reviewed
  unfold Desk.about
  rw [hout, hreviewed, List.filter_append, List.filter_append, List.length_append, List.length_append]
  omega

theorem Desk.LeavesOthers.about_eq (h : s.LeavesOthers userId s') (hi : s.Foreign userId i) : s'.about i = s.about i := by
  rw [Desk.about, h.outbox i hi, h.reviewed i hi, Desk.about]

theorem Requeued.outbox {db db' : Db} (h : Requeued db i db') : db'.outbox = db.outbox ++ [{ payload := .runChecks i }] := by
  obtain ⟨-, -, -, -⟩ := h
  rfl

theorem bulkRow_applied (reason : String) (hi : s.db.asgIdOf i = some A) (hasg : s.db.subjectsAssignments[A]? = some asg)
    (he : s.db.eligible i action) : ∃ s', s.bulkRow A action reason i = .ok (some s') ∧ s.about i < s'.about i := by
  unfold Desk.bulkRow
  rw [asgIdOf_map, if_neg (not_not.mpr hi)]
  by_cases hrerun : action = .rerun
  · subst hrerun
    obtain ⟨db, hdb⟩ := requeueChecks_of_eligible he
    refine ⟨{ s with db }, ?_, ?_⟩
    · rw [if_pos rfl, hdb]
    · have hout : db.outbox = _ := (requeueChecks_spec hdb).outbox
      simp [Desk.about, hout, OutboxPayload.submissionId]
  · rw [if_neg hrerun]
    obtain ⟨haction, hstatus⟩ : (action = .approve ∨ action = .reject) ∧
        s.db.status i = some .awaitingTeacherReview := by
      rcases action
      case approve => exact ⟨.inl rfl, he.1⟩
      case reject => exact ⟨.inr rfl, he.1⟩
      case rerun => exact absurd rfl hrerun
      case other => exact he.elim
    obtain ⟨db, hdb⟩ := (applyReviewDecision_of_eligible reason hi hasg haction hstatus).1 he
    have hs' : s.applyReviewDecision i action.decision reason = .ok { s with
        db, reviewed := s.reviewed ++ [{ submissionId := i, action := action.decision, reason }] } := by
      unfold Desk.applyReviewDecision
      rw [hdb]
      rfl
    refine ⟨_, by rw [if_neg (not_not.mpr hstatus), hs'], ?_⟩
    have hi' : s.db.OnlyOn A i := fun B hB => by
      rw [hi] at hB
      exact (Option.some_inj.mp hB).symm
    obtain ⟨new, hout, -⟩ := (keepsTo_applyReviewDecision hstatus hi' hs').db.outbox
    have hout' : db.outbox = s.db.outbox ++ new := hout
    simp only [Desk.about, hout', List.filter_append, List.length_append, List.filter_cons, beq_self_eq_true, if_true,
      List.filter_nil, List.length_cons, List.length_nil]
    omega

theorem bulkRow_skipped (reason : String) (hasg : s.db.subjectsAssignments[A]? = some asg) (hother : action ≠ .other)
    (h : ¬ (s.db.asgIdOf i = some A ∧ s.db.eligible i action)) : s.bulkRow A action reason i = .ok none := by
  by_cases hi : s.db.asgIdOf i = some A
  · have he : ¬ s.db.eligible i action := fun he => h ⟨hi, he⟩
    unfold Desk.bulkRow
    rw [asgIdOf_map, if_neg (not_not.mpr hi)]
    by_cases hrerun : action = .rerun
    · subst hrerun
      obtain ⟨r, row, hr, -, -⟩ := asgIdOf_some.mp hi
      obtain ⟨sub, hsub, -⟩ := Option.map_eq_some_iff.mp hr
      obtain ⟨event, status, herror⟩ := requeueChecks_refused hsub he
      rw [if_pos rfl, herror]
    · rw [if_neg hrerun]
      by_cases hstatus : s.db.status i = some .awaitingTeacherReview
      · have haction : action = .approve ∨ action = .reject := by
          rcases action
          case approve => exact .inl rfl
          case reject => exact .inr rfl
          case rerun => exact absurd rfl hrerun
          case other => exact absurd rfl hother
        obtain ⟨message, hdb⟩ := (applyReviewDecision_of_eligible reason hi hasg haction hstatus).2 he
        have herror : s.applyReviewDecision i action.decision reason = .error (.reviewNotAllowed message) := by
          unfold Desk.applyReviewDecision
          rw [hdb]
          rfl
        rw [if_neg (not_not.mpr hstatus), herror]
      · rw [if_pos hstatus]
  · exact bulkRow_elsewhere hi

/-- With nothing to do on the selected submissions the loop skips them all. -/
theorem bulkLoop_skipped (reason : String) (hasg : s.db.subjectsAssignments[A]? = some asg) (hother : action ≠ .other) (is : List ℕ)
    (h : ∀ i ∈ is, ¬ (s.db.asgIdOf i = some A ∧ s.db.eligible i action)) : ∀ applied skipped : ℕ,
    Desk.bulkLoop A action reason is (s, applied, skipped) = .ok (s, applied, skipped + is.length) := by
  induction is with
  | nil => exact fun _ _ => rfl
  | cons i is ih =>
    intro applied skipped
    rw [List.forall_mem_cons] at h
    have hrow := bulkRow_skipped reason hasg hother h.1
    rw [Desk.bulkLoop, hrow]
    have hrest := ih h.2 applied (skipped + 1)
    rw [List.length_cons, Nat.add_comm is.length 1, ← Nat.add_assoc]
    exact hrest

/-- The loop never raises. -/
theorem bulkLoop_ok (reason : String) (is : List ℕ) (hother : action ≠ .other) : ∀ (s : Desk) (applied skipped : ℕ),
    s.db.subjectsAssignments[A]? = some asg → ∃ r, Desk.bulkLoop A action reason is (s, applied, skipped) = .ok r := by
  induction is with
  | nil => exact fun _ _ _ _ => ⟨_, rfl⟩
  | cons i is ih =>
    intro s applied skipped hasg
    rw [Desk.bulkLoop]
    by_cases h : s.db.asgIdOf i = some A ∧ s.db.eligible i action
    · obtain ⟨s', hrow, -⟩ := bulkRow_applied reason h.1 hasg h.2
      rw [hrow]
      exact ih s' _ _ (by rw [(bulkRow_keepsTo hrow).db.assignments]; exact hasg)
    · rw [bulkRow_skipped reason hasg hother h]
      exact ih s _ _ hasg

/-- With something to do it adds a message about a submission of the assignment. -/
theorem bulkLoop_applied (reason : String) (hother : action ≠ .other) (hasg : s.db.subjectsAssignments[A]? = some asg) (is : List ℕ)
    (h : ∃ i ∈ is, s.db.asgIdOf i = some A ∧ s.db.eligible i action) : ∀ applied skipped : ℕ, ∃ r,
    Desk.bulkLoop A action reason is (s, applied, skipped) = .ok r ∧
      ∃ i, s.db.asgIdOf i = some A ∧ s.about i < r.1.about i := by
  induction is with
  | nil =>
    obtain ⟨i, hi, -⟩ := h
    cases hi
  | cons i is ih =>
    intro applied skipped
    rw [Desk.bulkLoop]
    by_cases hhead : s.db.asgIdOf i = some A ∧ s.db.eligible i action
    · obtain ⟨s', hrow, hlt⟩ := bulkRow_applied reason hhead.1 hasg hhead.2
      obtain ⟨r, hr⟩ := bulkLoop_ok reason is hother s' (applied + 1) skipped
        (by rw [(bulkRow_keepsTo hrow).db.assignments]; exact hasg)
      have hle := (bulkLoop_keepsTo is s' (applied + 1) skipped hr).about_le i
      rw [hrow]
      exact ⟨r, hr, i, hhead.1, lt_of_lt_of_le hlt hle⟩
    · rw [bulkRow_skipped reason hasg hother hhead]
      obtain ⟨j, hj, hrest⟩ := h
      rcases List.mem_cons.mp hj with rfl | hj
      · exact absurd hrest hhead
      · exact ih ⟨j, hj, hrest⟩ applied (skipped + 1)

theorem foreign_of_asgIdOf (hi : s.db.asgIdOf i = some A) (hasg : s.db.subjectsAssignments[A]? = some asg)
    (howner : s.owner asg.subjectId ≠ some userId) : s.Foreign userId i := by
  obtain ⟨r, row, hr, hrow, hA⟩ := asgIdOf_some.mp hi
  obtain ⟨sub, hsub, rfl⟩ := Option.map_eq_some_iff.mp hr
  refine ⟨asg.subjectId, ?_, howner⟩
  rw [Desk.subjectOf, hsub, Option.bind_some, Db.assignmentOf, hrow, Option.bind_some, hA, hasg, Option.map_some]

theorem mem_selected {ids : List ℕ} (hi : i ∈ ids) (hasg : s.db.asgIdOf i = some A) : i ∈ s.selected ids := by
  obtain ⟨r, row, hr, -, -⟩ := asgIdOf_some.mp hasg
  obtain ⟨sub, hsub, -⟩ := Option.map_eq_some_iff.mp hr
  have hlt : i < s.db.submissions.length := (List.getElem?_eq_some_iff.mp hsub).1
  simpa [Desk.selected, hi] using hlt

theorem leavesOthers_handle {r : TeacherRequest} (h : ∀ s', s.request { userId } r = .ok s' → s.LeavesOthers userId s') :
    s.LeavesOthers userId (s.handle { userId } r) := by
  unfold Desk.handle
  split
  · rename_i s' hs'
    exact h s' hs'
  · exact leavesOthers_refl s userId

theorem leavesOthers_bulk {x : ℕ} {ids : List ℕ} {r : Desk × ℕ × ℕ} (hown : s.KeepsToOwn userId (.bulk x A action ids reason))
    (h : s.bulkBoardAction { userId } x A action ids reason = .ok r) : s.LeavesOthers userId r.1 := by
  obtain ⟨_, haccess, h⟩ := bind_ok h
  split_ifs at h with hother hreason
  by_cases hforeign : ∃ asg, s.db.subjectsAssignments[A]? = some asg ∧ s.owner asg.subjectId ≠ some userId
  · obtain ⟨asg, hasg, howner⟩ := hforeign
    have hskipped := bulkLoop_skipped reason hasg hother (s.selected ids) (by
      rintro i hi ⟨hiA, he⟩
      have hmem : i ∈ ids := by simpa using (List.mem_filter.mp hi).2
      exact hown haccess hreason asg hasg howner i hmem hiA he) 0 0
    rw [hskipped] at h
    cases h
    exact leavesOthers_refl s userId
  · push Not at hforeign
    exact (bulkLoop_keepsTo _ s 0 0 h).leavesOthers hforeign

/-- With something to do on another subject's assignment the bulk action does it. -/
theorem not_leavesOthers_bulk {x : ℕ} {ids : List ℕ} (haccess : s.requireSubjectAccess { userId } x = .ok ())
    (hreason : ¬ (action = .reject ∧ reason = "")) (hasg : s.db.subjectsAssignments[A]? = some asg)
    (howner : s.owner asg.subjectId ≠ some userId) (hi : i ∈ ids) (hiA : s.db.asgIdOf i = some A)
    (he : s.db.eligible i action) : ¬ s.LeavesOthers userId (s.handle { userId } (.bulk x A action ids reason)) := by
  have hother : action ≠ .other := by
    rintro rfl
    exact he
  obtain ⟨r, hr, j, hjA, hlt⟩ := bulkLoop_applied reason hother hasg (s.selected ids)
    ⟨i, mem_selected hi hiA, hiA, he⟩ 0 0
  have hhandle : s.handle { userId } (.bulk x A action ids reason) = r.1 := by
    have hbulk : s.bulkBoardAction { userId } x A action ids reason = .ok r := by
      simp only [Desk.bulkBoardAction, haccess, bind, Except.bind, if_neg hother, if_neg hreason, hr]
    simp only [Desk.handle, Desk.request, hbulk, bind, Except.bind]
  intro hleaves
  rw [hhandle] at hleaves
  have heq := hleaves.about_eq (foreign_of_asgIdOf hjA hasg howner)
  omega

end

/-- A teacher's request leaves the submissions of the others alone exactly when it is no bulk action on
another subject's assignment with something to do there. -/
theorem teacher_leaves_others_iff (s : Desk) (userId : ℕ) (r : TeacherRequest) :
    s.LeavesOthers userId (s.handle { userId } r) ↔ s.KeepsToOwn userId r := by
  constructor
  · intro h
    rcases r
    case bulk x A action ids reason =>
      intro haccess hreason asg hasg howner i hi hiA he
      exact not_leavesOthers_bulk haccess hreason hasg howner hi hiA he h
    all_goals trivial
  · intro h
    refine leavesOthers_handle fun s' hs' => ?_
    rcases r
    case review i action reason => exact leavesOthers_review hs'
    case bulk x A action ids reason =>
      obtain ⟨r, hr, hs'⟩ := bind_ok hs'
      cases hs'
      exact leavesOthers_bulk h hr
    case rerunChecks i => exact leavesOthers_rerun hs'
    case grantQuizAttempt i studentId => exact leavesOthers_grant hs'
    case saveScores x A studentId form => exact leavesOthers_scores hs'

/-- Two subjects with an owner each; in the second a submission waits for its teacher. -/
def twoTeachers : Desk where
  db :=
    { subjects := [{}, {}]
      subjectsAssignments := [{ subjectId := 0, code := some "A" }, { subjectId := 1, code := some "A" }]
      studentsAssignments := [{ studentId := 0, subjectsAssignmentId := 1 }]
      submissions := [{ studentsAssignmentId := 0, status := .awaitingTeacherReview }] }
  owner x := some x

/-- The teacher of the first subject rejects the submission of the second. -/
theorem foreign_submission_is_rejected : ¬ ∀ (s : Desk) (userId : ℕ) (r : TeacherRequest),
    s.LeavesOthers userId (s.handle { userId } r) := by
  intro hall
  have h := hall twoTeachers 0 (.bulk 0 1 .reject [0] "No.")
  have hsame := h.submissions 0 ⟨1, by decide, by decide⟩
  exact absurd hsame (by decide +kernel)

end SubmissionsChecker
