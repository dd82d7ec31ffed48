import SubmissionsChecker.Invariants.Submissions

/-! The submissions a step adds: an upload, or the quiz of a scored assignment. They satisfy the
invariant and carry no history. -/

namespace SubmissionsChecker

/-- The statuses a submission can have right after it was added. -/
def SubmissionStatus.isFresh : SubmissionStatus → Bool
  | pending | validating | validationFailed | testFailed | quizSent => true
  | _ => false

structure NewSubmission (db db' : Db) (i : ℕ) (sub : Submission) : Prop where
  index : i = db.submissions.length
  ok : SubmissionOk db' i sub
  created : sub.createdAt = db.now
  ungraded : sub.gradeBreakdown = none
  fresh : sub.status.isFresh = true

section

variable {db db' db₁ : Db} {op : Op} {i saId : ℕ} {sub sub' : Submission}

theorem not_isAi_of_isFresh {s : SubmissionStatus} (h : s.isFresh = true) : s.isAi = false := by
  cases s <;> first | rfl | cases h

/-- A squad that hands something in is locked. -/
theorem addSubmission_locked {q : ℕ} {s : Squad} (hq : sub.squadId = some q) (hs : db.squads[q]? = some s) :
    ∃ s', (db.addSubmission sub).squads[q]? = some s' ∧ s'.lockedAt.isSome = true := by
  unfold Db.addSubmission
  rw [hq]
  dsimp only [Db.lockOnSubmit]
  rw [Table.getElem?_modify_self, hs]
  refine ⟨_, rfl, ?_⟩
  dsimp only
  split_ifs with hopen
  · rfl
  · cases hl : s.lockedAt with
    | none => simp [hl] at hopen
    | some _ => rfl

/-- The added submission, once its status and pin are known. -/
theorem Adds.newSubmission (ha : Adds db saId sub db₁) (hsetup : db.Setup)
    (hev : Evolves (db₁.addSubmission sub) db') (hs' : db'.submissions[db.submissions.length]? = some sub')
    (hfresh : sub'.status.isFresh = true) (hungraded : sub'.gradeBreakdown = none)
    (hpin : ∀ asg, db₁.assignmentOf sub.studentsAssignmentId = some asg →
      ∀ c, sub'.pluginConfigId = some c → db.latestConfig asg.subjectId = some c)
    (hunpinned : sub'.pluginConfigId = none → sub'.status = .pending ∨ sub'.status = .validationFailed)
    (hsent : sub.pluginConfigId ≠ none → sub'.status = .quizSent) :
    NewSubmission db db' db.submissions.length sub' := by
  obtain ⟨sa, asg, squad, refuse, hsa, hasg, hsquad, hrowid, hsq, hcreated, -, hkind⟩ := ha.row
  have hold := addSubmission_get db₁ sub
  rw [ha.same] at hold
  obtain ⟨s, hs₁, hsaid, hsource, hsquadId, hcreatedAt⟩ := hev.submission hold
  rw [hs'] at hs₁
  cases hs₁
  have hev₀ := ha.within.evolves.trans (evolves_addSubmission db₁ sub)
  have hevAll := hev₀.trans hev
  obtain ⟨row, hrow, hst, hrowasg⟩ := hevAll.rows saId sa hsa
  have hrow' : db'.studentsAssignments[sub'.studentsAssignmentId]? = some row := by rw [hsaid, hrowid, hrow]
  have hasg' : db'.subjectsAssignments[row.subjectsAssignmentId]? = some asg := by
    rw [hrowasg, hevAll.subjectsAssignments, hasg]
  have hassigned : db'.assignmentOf sub'.studentsAssignmentId = some asg := by
    rw [Db.assignmentOf, hrow', Option.bind_some, hasg']
  refine ⟨rfl, ⟨⟨row, asg, hrow', hasg', ?_⟩, ?_, ?_, hunpinned, ?_, ?_, ?_, ?_, ?_⟩, ?_, hungraded, hfresh⟩
  · rw [hsquadId, hsq, squadForUpload_eq hsetup hsquad, hst, hevAll.squadOf]
  · intro q hq
    rw [hsquadId] at hq
    have hfound := squadForUpload_eq hsetup hsquad
    rw [← hsq, hq] at hfound
    obtain ⟨s, hsq', -⟩ := Table.findId_some hfound.symm
    rw [← ha.within.squads] at hsq'
    obtain ⟨s₁, hs₁, hl₁⟩ := addSubmission_locked hq hsq'
    exact hev.locked q s₁ hs₁ hl₁
  · intro c asg₁ hc hasg₁
    rw [hassigned, Option.some_inj] at hasg₁
    rw [← hasg₁, hevAll.latestConfig]
    refine hpin asg ?_ c hc
    obtain ⟨row₁, hrow₁, -, hrowasg₁⟩ := ha.within.rows saId sa hsa
    rw [Db.assignmentOf, hrowid, hrow₁, Option.bind_some, hrowasg₁, ha.within.subjectsAssignments, hasg]
  · intro hscored
    rw [isScoredSubmission_eq hs' hassigned] at hscored
    rcases hkind with ⟨-, -, hplain⟩ | ⟨-, hquiz, -, c, hc, -⟩
    · rw [hplain] at hscored; cases hscored
    · exact ⟨hsource.trans hquiz, by rw [hsent (by simp [hc])]; rfl⟩
  · intro hb
    exact absurd hungraded hb
  · intro hai
    rw [not_isAi_of_isFresh hfresh] at hai
    cases hai
  · intro _ hawait
    rw [hawait] at hfresh
    cases hfresh
  · rw [hcreatedAt, hcreated]
    exact hevAll.now
  · rw [hcreatedAt, hcreated]

theorem CheckMove.fresh {check : CheckResult} {m : ReviewMode} {s' : SubmissionStatus}
    (h : CheckMove check (some m) (some .pending) (some s')) (hm : m.isQuizFirst = true) : s'.isFresh = true := by
  cases h with
  | stays => rfl
  | refused => rfl
  | started => rfl
  | testsFailed => rfl
  | passed hmode =>
    cases hmode
    cases m <;> first | rfl | cases hm

theorem Uploaded.new {check : CheckResult} (h : Uploaded db saId check db') (hsetup : db.Setup)
    (hs' : db'.submissions[db.submissions.length]? = some sub') :
    NewSubmission db db' db.submissions.length sub' := by
  cases h with
  | @queued sub db₁ ha hpin =>
    have hold := addSubmission_get db₁ sub
    rw [ha.same] at hold
    obtain rfl : sub' = sub := by
      rw [Db.addMessage_submissions, hold] at hs'
      exact (Option.some_inj.mp hs').symm
    obtain ⟨_, _, _, _, -, -, -, -, -, -, hb, hkind⟩ := ha.row
    have hpending : sub'.status = .pending := by rcases hkind with h | h <;> exact h.1
    exact ha.newSubmission hsetup (within_addMessage _ 0 _).evolves hs' (by rw [hpending]; rfl) hb
      (fun _ _ c hc => by rw [hpin] at hc; cases hc) (fun _ => .inl hpending) fun hc => absurd hpin hc
  | @checked sub db₁ db' m ha hpin hm hfirst hc =>
    have hold := addSubmission_get db₁ sub
    rw [ha.same] at hold
    obtain ⟨sa, asg, _, _, hsa, hasg, -, hrowid, -, -, hb, hkind⟩ := ha.row
    have hpending : sub.status = .pending := by rcases hkind with h | h <;> exact h.1
    have hfresh : sub'.status.isFresh = true := by
      have hmove := hc.move
      rw [hm, status_of_row hold, status_of_row hs', hpending] at hmove
      exact hmove.fresh hfirst
    have hassigned : (db₁.addSubmission sub).assignmentOf sub.studentsAssignmentId = some asg := by
      rw [addSubmission_assignmentOf]
      exact ha.within.assignmentOf (by rw [Db.assignmentOf, hrowid, hsa, Option.bind_some, hasg])
    have hlatest : ∀ subjectId, (db₁.addSubmission sub).latestConfig subjectId = db.latestConfig subjectId :=
      (ha.within.evolves.trans (evolves_addSubmission db₁ sub)).latestConfig
    have hpinned := hc.pin sub sub' asg hold hassigned hs'
    rw [hpin, Option.none_or, hlatest] at hpinned
    have hungraded : sub'.gradeBreakdown = none := by
      rcases hc.finalizes.breakdown hold hs' with h | ⟨-, h⟩
      · rw [h, hb]
      · rw [h] at hfresh; cases hfresh
    refine ha.newSubmission hsetup hc.finalizes.within.evolves hs' hfresh hungraded ?_ ?_ fun h => absurd hpin h
    · intro asg₁ hasg₁ c hcfg
      rw [addSubmission_assignmentOf, hasg₁, Option.some_inj] at hassigned
      rw [hassigned, ← hpinned, hcfg]
    · intro hnone
      rw [hpinned] at hnone
      have hmode : (db₁.addSubmission sub).checkMode db.submissions.length = none := by
        have hlatestMode := checkMode_latest hold hassigned fun c h => absurd (hpin.symm.trans h) (by simp)
        rw [hlatestMode, Db.latestMode, latestBlock_eq hold hassigned, hlatest, hnone]
        rfl
      rw [hm] at hmode
      cases hmode

theorem Opened.new (h : Opened db saId db₁ i) (hsetup : db.Setup) (hev : Evolves db₁ db')
    (hkeep : SubsKeep db₁ db') (hgrades : GradesDone db₁ db')
    (hs' : db'.submissions[db.submissions.length]? = some sub')
    (hlen : db₁.submissions.length ≠ db.submissions.length) :
    NewSubmission db db' db.submissions.length sub' := by
  cases h with
  | reused => exact absurd (within_latestSubmission .grades db saId).submissions_length hlen
  | @opened sub db₂ ha hpin =>
    have hold := addSubmission_get db₂ sub
    rw [ha.same] at hold
    have hsent : ((db₂.addSubmission sub).setSubmission db.submissions.length
        ({ · with status := .quizSent })).submissions[db.submissions.length]? =
        some { sub with status := .quizSent } := by
      rw [Db.setSubmission_submissions, Table.getElem?_modify_self, hold]
      rfl
    obtain ⟨s, hs₁, hst, hpin', -⟩ := hkeep _ _ hsent
    rw [hs'] at hs₁
    cases hs₁
    obtain ⟨s, hs₁, -, hgrade⟩ := hgrades _ _ hsent
    rw [hs'] at hs₁
    cases hs₁
    obtain ⟨sa, asg, _, _, hsa, hasg, -, hrowid, -, -, hb, hkind⟩ := ha.row
    refine ha.newSubmission hsetup (Evolves.before_set hev fun _ => rfl) hs' (by rw [hst]; rfl) ?_ ?_ ?_ fun _ => hst
    · rcases hgrade with h | h
      · rw [h, hb]
      · rw [hst] at h; cases h
    · intro asg₁ hasg₁ c hcfg
      rw [hpin'] at hcfg
      rcases hkind with ⟨-, hnone, -⟩ | ⟨-, -, -, c', hc', hlatest⟩
      · exact absurd hnone hpin
      · rw [hc', Option.some_inj] at hcfg
        have hassigned : db₂.assignmentOf sub.studentsAssignmentId = some asg :=
          ha.within.assignmentOf (by rw [Db.assignmentOf, hrowid, hsa, Option.bind_some, hasg])
        rw [hassigned, Option.some_inj] at hasg₁
        rw [← hasg₁, hlatest, hcfg]
    · intro hnone
      rw [hpin'] at hnone
      exact absurd hnone hpin

theorem Starts.submissions_length {t : ℕ} (h : Starts db i t db') :
    db'.submissions.length = db.submissions.length := by
  cases h with
  | same => rfl
  | attempt hd =>
    rcases hd with rfl | ⟨draw, rfl⟩
    · rfl
    · simp

theorem Opened.submissions_length (h : Opened db saId db' i) :
    db'.submissions.length = db.submissions.length ∨ db'.submissions.length = db.submissions.length + 1 := by
  cases h with
  | reused => exact .inl (within_latestSubmission .grades db saId).submissions_length
  | @opened sub db₁ ha =>
    right
    rw [Db.setSubmission_submissions, List.length_modify, ← ha.same]
    simp

theorem Uploaded.submissions_length {check : CheckResult} (h : Uploaded db saId check db') :
    db'.submissions.length = db.submissions.length + 1 := by
  cases h with
  | queued ha => simp [ha.same]
  | checked ha _ _ _ hc =>
    rw [hc.finalizes.within.submissions_length]
    simp [ha.same]

theorem Started.new {t : ℕ} (h : Started db saId t db') (hsetup : db.Setup)
    (hs : db.submissions[i]? = none) (hs' : db'.submissions[i]? = some sub') : NewSubmission db db' i sub' := by
  have hl := within_latestSubmission .grades db saId
  have hnew : db.submissions.length ≤ i := List.getElem?_eq_none_iff.mp hs
  have hold : i < db'.submissions.length := (List.getElem?_eq_some_iff.mp hs').1
  cases h with
  | looked => rw [hl.submissions_length] at hold; omega
  | latest hstarts => rw [hstarts.submissions_length, hl.submissions_length] at hold; omega
  | @opened j db₂ _ ho hstarts =>
    rw [hstarts.submissions_length] at hold
    have hlen := ho.submissions_length
    rw [hl.submissions_length] at hlen
    obtain rfl : i = (db.latestSubmission saId).1.submissions.length := by
      rw [hl.submissions_length]; omega
    have hnewSub := ho.new (hl.evolves.setup hsetup) hstarts.evolves hstarts.subsKeep hstarts.gradesDone hs'
      (by rw [hl.submissions_length]; omega)
    exact ⟨hl.submissions_length, hnewSub.ok, by rw [hnewSub.created, hl.now], hnewSub.ungraded, hnewSub.fresh⟩

/-- Only an upload and the opening of a quiz add submissions. -/
theorem StepSpec.adds (h : StepSpec db op db') : db'.submissions.length = db.submissions.length ∨
    (∃ saId t isZip size check, op = .upload saId t isZip size check ∧ Uploaded db saId check db') ∨
    ∃ saId t rnd, op = .startQuiz saId t rnd ∧ Started db saId t db' := by
  cases h with
  | same => exact .inl rfl
  | upload h => exact .inr (.inl ⟨_, _, _, _, _, rfl, h⟩)
  | check _ h => exact .inl (by rw [Db.setMessage_submissions, h.finalizes.within.submissions_length])
  | aiReview _ h => exact .inl (by rw [Db.setMessage_submissions, h.finalizes.within.submissions_length])
  | retry => exact .inl rfl
  | skip => exact .inl (by simp)
  | @review j action _ _ h =>
    left
    cases h with
    | approved => rw [(within_finalizeGrade _ j).submissions_length]; simp
    | sentQuiz => simp
    | rejected => simp
  | rerun h => cases h; exact .inl (by simp)
  | start h => exact .inr (.inr ⟨_, _, _, rfl, h⟩)
  | quiz _ h =>
    left
    cases h with
    | same => rfl
    | edited => rfl
    | finished _ _ _ _ _ hfin => exact hfin.within.submissions_length
  | report => exact .inl rfl
  | ruled => exact .inl (by rw [(within_advancedAll _ _).submissions_length, ruledDb_submissions])
  | closed => exact .inl rfl
  | grant h => cases h; exact .inl (by simp)
  | scores h =>
    left
    cases h with
    | written w => exact w.submissions_length
    | @completed db₁ j w => rw [(within_finalizeGrade _ j).submissions_length]; simp [w.submissions_length]
    | @regraded db₁ j w => rw [(within_finalizeGrade _ j).submissions_length, w.submissions_length]
  | unenroll => exact .inl rfl
  | tick => exact .inl rfl

/-- A submission that a step adds. -/
theorem new_submission (h : StepSpec db op db') (hsetup : db.Setup) (hs : db.submissions[i]? = none)
    (hs' : db'.submissions[i]? = some sub') : NewSubmission db db' i sub' := by
  have hnew : db.submissions.length ≤ i := List.getElem?_eq_none_iff.mp hs
  have hold : i < db'.submissions.length := (List.getElem?_eq_some_iff.mp hs').1
  rcases h.adds with hlen | ⟨saId, t, isZip, size, check, rfl, hadded⟩ | ⟨saId, t, rnd, rfl, hadded⟩
  · omega
  · rw [hadded.submissions_length] at hold
    obtain rfl : i = db.submissions.length := by omega
    exact hadded.new hsetup hs'
  · exact hadded.new hsetup hs hs'

/-- A submission opened for a quiz is at the quiz. -/
theorem Started.quizSent {t : ℕ} (h : Started db saId t db') (hs : db.submissions[i]? = none)
    (hs' : db'.submissions[i]? = some sub') : sub'.status = .quizSent := by
  have hl := within_latestSubmission .grades db saId
  have hnew : db.submissions.length ≤ i := List.getElem?_eq_none_iff.mp hs
  have hold : i < db'.submissions.length := (List.getElem?_eq_some_iff.mp hs').1
  rcases h with _ | hstarts | ⟨ho, hstarts⟩
  · rw [hl.submissions_length] at hold
    omega
  · rw [hstarts.submissions_length, hl.submissions_length] at hold
    omega
  · rcases ho with _ | @⟨sub, db₂, ha, hpin⟩
    · rw [hstarts.submissions_length, (within_latestSubmission .grades _ saId).submissions_length,
        hl.submissions_length] at hold
      omega
    · have hrow := addSubmission_get db₂ sub
      have hadd : (db₂.addSubmission sub).submissions.length = db.submissions.length + 1 := by
        simp [ha.same, hl.submissions_length]
      rw [hstarts.submissions_length, Db.setSubmission_submissions, List.length_modify, hadd] at hold
      have hsent : ((db₂.addSubmission sub).setSubmission (db.latestSubmission saId).1.submissions.length
          ({ · with status := .quizSent })).submissions[i]? = some { sub with status := .quizSent } := by
        have hi : i = (db.latestSubmission saId).1.submissions.length := by
          rw [hl.submissions_length]
          omega
        rw [hi, Db.setSubmission_submissions, Table.getElem?_modify_self, ← ha.same, hrow]
        rfl
      obtain ⟨s, hs₁, hst, -⟩ := hstarts.subsKeep _ _ hsent
      rw [hs'] at hs₁
      cases hs₁
      exact hst

end

end SubmissionsChecker
