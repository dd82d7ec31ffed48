import SubmissionsChecker.Effects.Attempts
import SubmissionsChecker.Services.QuizRegrade

/-! What an accepted ruling does: the candidates of the question are re-scored and the
submissions of those that now pass are moved, one after another. A ruling never raises. -/

namespace SubmissionsChecker

namespace Db

/-- What `_advance_submission` leaves. -/
def advanced (db : Db) (k : ℕ) : Db :=
  match db.quizAttempts[k]? with
  | none => db
  | some a =>
    let i := a.submissionId
    if db.status i = some .quizSent ∨ db.status i = some .failed then
      if db.quizComplete i then
        if db.goesToTeacher i a.configSnapshot.reviewMode then
          db.setSubmission i ({ · with status := .awaitingTeacherReview })
        else (db.setSubmission i ({ · with status := .completed })).finalizeGrade i
      else db
    else if db.status i = some .completed then db.finalizeGrade i
    else db

theorem advanceSubmission_eq (db : Db) (k : ℕ) : db.advanceSubmission k = .ok (db.advanced k) := by
  unfold advanceSubmission advanced
  cases ha : db.quizAttempts[k]? with
  | none => rfl
  | some a =>
    have hteach : (if db.isScoredSubmission a.submissionId = true then !db.scoresCompleteFor a.submissionId
        else a.configSnapshot.reviewMode == some .quizThenTeacher) =
        db.goesToTeacher a.submissionId a.configSnapshot.reviewMode := rfl
    simp only [hteach]
    cases hst : db.status a.submissionId with
    | none => simp
    | some s =>
      cases s <;> simp only [reduceCtorEq, Option.some.injEq, or_self, or_false, or_true, if_true,
        if_false]
      all_goals split_ifs with hc ht
      all_goals first
        | rfl
        | (rw [transition_of_status hst rfl]; simp [Bind.bind, Except.bind])

/-- The attempts a ruling lifts to a pass, in the order they are handled. -/
def liftedBy (db : Db) (configId version questionId : ℕ) : List ℕ :=
  Table.idsWhere (fun a => a.isCandidate configId version questionId && (a.regrade questionId).passed)
    db.quizAttempts

/-- The database after the disputes, the override and the re-scoring of an accepted ruling. -/
def ruledDb (db : Db) (d : ℕ) (configId version questionId : ℕ) (note : String) : Db :=
  ((((db.setDispute d ({ · with status := .accepted, teacherNote := some note })).addOverride configId version
    questionId).closeSiblings configId version questionId note).regradeQuestion configId version questionId).1

end Db

@[simp] theorem addOverride_quizAttempts (db : Db) (c v q : ℕ) :
    (db.addOverride c v q).quizAttempts = db.quizAttempts := by
  unfold Db.addOverride; split_ifs <;> rfl

theorem ruledDb_quizAttempts (db : Db) (d c v q : ℕ) (note : String) :
    (db.ruledDb d c v q note).quizAttempts =
      db.quizAttempts.map fun a => if a.isCandidate c v q then a.regrade q else a := by
  simp [Db.ruledDb, Db.regradeQuestion, Db.closeSiblings]

theorem regrade_result (a : QuizAttempt) (q : ℕ) :
    (a.regrade q).result = (a.applyOverrides {q}).scoreAttempt.result := rfl

theorem isCandidate_not_passed {a : QuizAttempt} {c v q : ℕ} (h : a.isCandidate c v q = true) :
    a.passed = false := by
  unfold QuizAttempt.isCandidate at h
  simp only [Bool.and_eq_true, Bool.not_eq_true'] at h
  exact h.1.2

@[simp] theorem rescoreEntry_attemptId (q k : ℕ) (a : QuizAttempt) :
    (rescoreEntry q k a).attemptId = k := rfl

theorem flipped_rescoreEntry {a : QuizAttempt} {c v q : ℕ} (k : ℕ) (h : a.isCandidate c v q = true) :
    (rescoreEntry q k a).flipped = (a.regrade q).passed := by
  rw [passed_of_isPassed (a := a.regrade q) (b := (a.applyOverrides {q}).scoreAttempt.isPassed) rfl]
  simp [AttemptRescore.flipped, rescoreEntry, isCandidate_not_passed h]

/-- The entries that flipped are those of the lifted attempts. -/
theorem flipped_regradeQuestion (db : Db) (c v q : ℕ) :
    ((db.regradeQuestion c v q).2.filter (·.flipped)).map (·.attemptId) = db.liftedBy c v q := by
  unfold Db.regradeQuestion Db.liftedBy Table.idsWhere
  simp only
  induction List.range db.quizAttempts.length with
  | nil => rfl
  | cons k ks ih =>
    cases hk : db.quizAttempts[k]? with
    | none => simpa [List.filter_cons, hk] using ih
    | some a =>
      by_cases hc : a.isCandidate c v q = true
      · have hf := flipped_rescoreEntry k hc
        cases hp : (a.regrade q).passed with
        | true =>
          rw [hp] at hf
          simpa [List.filter_cons, hk, hc, hp, hf] using ih
        | false =>
          rw [hp] at hf
          simpa [List.filter_cons, hk, hc, hp, hf] using ih
      · simpa [List.filter_cons, hk, hc] using ih

theorem foldlM_advance (es : List AttemptRescore) :
    ∀ db : Db, es.foldlM (fun db e => db.advanceSubmission e.attemptId) db =
      .ok ((es.map (·.attemptId)).foldl Db.advanced db) := by
  induction es with
  | nil => intro db; rfl
  | cons e es ih =>
    intro db
    rw [List.foldlM_cons, Db.advanceSubmission_eq]
    exact ih _

/-- An accepted ruling about a pinned question: re-score, then advance the lifted attempts. -/
theorem resolveDispute_accept {db : Db} {d c v : ℕ} {dispute : QuizQuestionDispute} {note : String}
    (hd : db.disputes[d]? = some dispute) (hc : dispute.pluginConfigId = some c)
    (hv : dispute.pluginConfigVersion = some v) :
    db.resolveDispute d true note = .ok ((db.liftedBy c v dispute.questionId).foldl Db.advanced
      (db.ruledDb d c v dispute.questionId note)) := by
  unfold Db.resolveDispute
  simp only [hd, hc, hv, if_true]
  rw [foldlM_advance, flipped_regradeQuestion]
  congr 2
  simp [Db.liftedBy, Db.closeSiblings]

/-- A ruling on an unpinned question, or a rejection, only closes the report. -/
theorem resolveDispute_other {db : Db} {d : ℕ} {dispute : QuizQuestionDispute} {accept : Bool} {note : String}
    (hd : db.disputes[d]? = some dispute)
    (h : accept = false ∨ dispute.pluginConfigId = none ∨ dispute.pluginConfigVersion = none) :
    db.resolveDispute d accept note = .ok (db.setDispute d
      ({ · with status := if accept then .accepted else .rejected, teacherNote := some note })) := by
  unfold Db.resolveDispute
  simp only [hd]
  split
  · rename_i hc hv
    simp_all
  · rfl

theorem within_advanced (db : Db) (k : ℕ) : Within .statuses db (db.advanced k) := by
  unfold Db.advanced
  split
  · exact .refl _ db
  · rename_i a _
    have hset : ∀ s : SubmissionStatus,
        Within .statuses db (db.setSubmission a.submissionId ({ · with status := s })) :=
      fun s => within_setSubmission db _ fun sub => by simp [Scope.keep]
    dsimp only
    split_ifs
    · exact hset _
    · exact (hset _).trans ((within_finalizeGrade _ _).mono (.grades _))
    · exact .refl _ db
    · exact (within_finalizeGrade _ _).mono (.grades _)
    · exact .refl _ db

theorem within_advancedAll (ks : List ℕ) : ∀ db : Db, Within .statuses db (ks.foldl Db.advanced db) := by
  induction ks with
  | nil => exact .refl _
  | cons k ks ih => exact fun db => (within_advanced db k).trans (ih _)

/-- The ruling's override is read by every later finish on that config version, and no other
override changes. -/
theorem loadQuestionOverrides_addOverride (db : Db) (c v q : ℕ) :
    (db.addOverride c v q).loadQuestionOverrides (some c) (some v) =
      insert q (db.loadQuestionOverrides (some c) (some v)) := by
  have hcredit : ∀ o : QuizQuestionOverride, o.creditAll = true := fun o => o.isCredit
  unfold Db.addOverride
  split_ifs with h
  · obtain ⟨o, ho, hk⟩ := List.any_eq_true.mp h
    simp only [Bool.and_eq_true, beq_iff_eq] at hk
    symm
    rw [Finset.insert_eq_self]
    simp only [Db.loadQuestionOverrides, List.mem_toFinset, List.mem_map, List.mem_filter]
    exact ⟨o, ⟨ho, by simp [hk, hcredit]⟩, hk.2⟩
  · ext x
    simp [Db.loadQuestionOverrides, hcredit]

theorem loadQuestionOverrides_congr {db db' : Db} (h : db'.overrides = db.overrides) (c v : Option ℕ) :
    db'.loadQuestionOverrides c v = db.loadQuestionOverrides c v := by
  simp only [Db.loadQuestionOverrides, h]

theorem ruledDb_overrides (db : Db) (d c v q : ℕ) (note : String) :
    (db.ruledDb d c v q note).overrides = (db.addOverride c v q).overrides := by
  simp only [Db.ruledDb, Db.regradeQuestion, Db.closeSiblings, Db.addOverride, Db.setDispute_overrides]
  split_ifs <;> rfl

theorem loadQuestionOverrides_ruledDb (db : Db) (d c v q : ℕ) (note : String) :
    (db.ruledDb d c v q note).loadQuestionOverrides (some c) (some v) =
      insert q (db.loadQuestionOverrides (some c) (some v)) := by
  rw [loadQuestionOverrides_congr (ruledDb_overrides db d c v q note), loadQuestionOverrides_addOverride]

theorem loadQuestionOverrides_ruledDb_ne {db : Db} {d c v q : ℕ} {note : String} {c' v' : Option ℕ}
    (h : ¬ (c' = some c ∧ v' = some v)) :
    (db.ruledDb d c v q note).loadQuestionOverrides c' v' = db.loadQuestionOverrides c' v' := by
  rw [loadQuestionOverrides_congr (ruledDb_overrides db d c v q note)]
  unfold Db.addOverride
  split_ifs with hany
  · rfl
  · unfold Db.loadQuestionOverrides
    split
    · rename_i c₁ v₁
      have hkey : (c == c₁ && v == v₁) = false := by
        by_contra hk
        simp only [Bool.not_eq_false, Bool.and_eq_true, beq_iff_eq] at hk
        exact h ⟨by rw [hk.1], by rw [hk.2]⟩
      simp [List.filter_append, hkey]
    · rfl

end SubmissionsChecker
