import SubmissionsChecker.Invariants.Answers

/-! Every answer earned nothing or the points of its question, whichever way the row came about. So the points of
an attempt are bounded by those of its questions, and crediting a question does not lower them, as long as no
question is worth less than nothing. -/

namespace SubmissionsChecker

/-- What the rows earned: nothing or the points of the question they answer. -/
def EarnedFrom (questions : List QuestionSnapshot) (answers : List QuizAnswer) : Prop :=
  ∀ x ∈ answers, ∃ q ∈ questions, q.id = x.questionId ∧ (x.pointsEarned = some 0 ∨ x.pointsEarned = some q.points)

def QuizAttempt.Earned (a : QuizAttempt) : Prop := EarnedFrom a.questionsSnapshot a.answers

section

variable {a : QuizAttempt} {questions : List QuestionSnapshot} {answers : List QuizAnswer} {q : QuestionSnapshot}
  {overrides : Finset ℕ}

/-! Answering -/

theorem EarnedFrom.append (h : EarnedFrom questions answers) (hq : q ∈ questions) {x : QuizAnswer} (hid : x.questionId = q.id)
    (hpoints : x.pointsEarned = some 0 ∨ x.pointsEarned = some q.points) : EarnedFrom questions (answers ++ [x]) := by
  intro y hy
  rcases List.mem_append.mp hy with hy | hy
  · exact h y hy
  · obtain rfl := List.mem_singleton.mp hy
    exact ⟨q, hq, hid.symm, hpoints⟩

theorem gradeAnswer_points (q : QuestionSnapshot) (isRight : Bool) :
    (gradeAnswer q isRight).pointsEarned = some 0 ∨ (gradeAnswer q isRight).pointsEarned = some q.points := by
  unfold gradeAnswer
  dsimp only
  split_ifs
  · exact .inr rfl
  · exact .inl rfl

theorem mem_of_currentQuestion (h : a.currentQuestion = some q) : q ∈ a.questionsSnapshot := List.mem_of_getElem? h

theorem QuizAttempt.Earned.advanceExpired (expired : ℕ) : ∀ {a : QuizAttempt}, a.Earned → (a.advanceExpired expired).1.Earned := by
  induction expired with
  | zero => exact fun h => h
  | succ expired ih =>
    intro a h
    unfold QuizAttempt.advanceExpired
    split
    · exact h
    · rename_i q hq
      split_ifs
      · exact h
      · exact ih (a := a.burn q) (EarnedFrom.append h (mem_of_currentQuestion hq) rfl (.inl rfl))

theorem QuizAttempt.Earned.recordAnswer (h : a.Earned) (index : ℕ) (isRight : Bool) (expired : ℕ) :
    (a.recordAnswer index isRight expired).Earned := by
  have hburned : (a.advanceExpired expired).1.Earned := h.advanceExpired expired
  unfold QuizAttempt.recordAnswer
  dsimp only
  split
  · exact hburned
  · rename_i q hq
    split_ifs
    · exact EarnedFrom.append hburned (mem_of_currentQuestion hq) rfl (gradeAnswer_points q isRight)
    · exact hburned

/-- Whatever is posted, the rows earn their question's points or none. -/
theorem QuizAttempt.Earned.edit (h : a.Earned) (post : QuizPost) : (post.edit a).1.Earned := by
  unfold QuizPost.edit
  rcases post with ⟨timedOut, expired⟩ | ⟨index, isRight, expired⟩ | ⟨isRight, timedOut⟩
  · dsimp only
    split
    · exact h
    split
    · exact h
    split
    · exact h.advanceExpired expired
    · exact h
  · dsimp only
    split
    · exact h
    split
    · exact h
    · exact h.recordAnswer index isRight expired
  · dsimp only
    split
    · exact h
    · intro x hx
      obtain ⟨q, hq, rfl⟩ := List.mem_map.mp hx
      exact ⟨q, hq, rfl, gradeAnswer_points q _⟩

/-! Crediting -/

theorem mem_creditLast {id : ℕ} {p : ℤ} {x : QuizAnswer} (h : x ∈ creditLast id p answers) :
    x ∈ answers ∨ ∃ r ∈ answers, r.questionId = id ∧ x = r.credit p := by
  induction answers with
  | nil => cases h
  | cons r rest ih =>
    unfold creditLast at h
    split_ifs at h with hr
    · rcases List.mem_cons.mp h with rfl | h
      · exact .inr ⟨r, List.mem_cons_self, hr.1, rfl⟩
      · exact .inl (List.mem_cons_of_mem _ h)
    · rcases List.mem_cons.mp h with rfl | h
      · exact .inl List.mem_cons_self
      · rcases ih h with h | ⟨r', hr', hid, rfl⟩
        · exact .inl (List.mem_cons_of_mem _ h)
        · exact .inr ⟨r', List.mem_cons_of_mem _ hr', hid, rfl⟩

theorem EarnedFrom.creditQuestion (h : EarnedFrom questions answers) (hq : q ∈ questions) (answered : List ℕ) :
    EarnedFrom questions (creditQuestion answered answers q) := by
  unfold SubmissionsChecker.creditQuestion
  split_ifs
  · intro x hx
    rcases mem_creditLast hx with hx | ⟨r, -, hid, rfl⟩
    · exact h x hx
    · exact ⟨q, hq, hid.symm, .inr rfl⟩
  · exact h.append hq rfl (.inr rfl)

theorem EarnedFrom.foldl_credit (answered : List ℕ) {qs : List QuestionSnapshot} (hqs : ∀ q ∈ qs, q ∈ questions) :
    ∀ {answers : List QuizAnswer}, EarnedFrom questions answers →
      EarnedFrom questions (qs.foldl (SubmissionsChecker.creditQuestion answered) answers) := by
  induction qs with
  | nil => exact fun h => h
  | cons q qs ih =>
    intro answers h
    exact ih (fun q' hq' => hqs q' (List.mem_cons_of_mem _ hq')) (h.creditQuestion (hqs q List.mem_cons_self) answered)

theorem QuizAttempt.Earned.applyOverrides (h : a.Earned) (overrides : Finset ℕ) : (a.applyOverrides overrides).Earned :=
  EarnedFrom.foldl_credit _ (fun _ hq => (List.mem_filter.mp hq).1) h

/-! The points -/

/-- A credit gives a row what its question is worth, which is no less than the row had. -/
theorem pointsTotal_le_creditQuestion (hdrawn : (questions.map (·.id)).Nodup) (hpoints : ∀ q ∈ questions, 0 ≤ q.points)
    (h : EarnedFrom questions answers) (hq : q ∈ questions) (answered : List ℕ) :
    pointsTotal answers ≤ pointsTotal (creditQuestion answered answers q) := by
  have hworth : 0 ≤ q.points := hpoints q hq
  unfold creditQuestion
  split_ifs
  · rcases hlast : lastRow q.id answers with _ | r
    · have hnone : ∀ x ∈ answers, x.questionId ≠ q.id := fun x hx hid =>
        lastRow_eq_none.mp hlast (List.mem_map.mpr ⟨x, hx, hid⟩)
      rw [creditLast_of_absent _ hnone]
    · have hmem : r ∈ rowsOf q.id answers := List.mem_of_getLast? hlast
      obtain ⟨q', hq', hid, hr⟩ := h r (List.mem_filter.mp hmem).1
      obtain rfl : q' = q := List.inj_on_of_nodup_map hdrawn hq' hq (hid.trans (rowsOf_ids r hmem))
      rw [pointsTotal_creditLast hlast]
      rcases hr with hr | hr
      · rw [hr, Option.getD_some]
        omega
      · rw [hr, Option.getD_some]
        omega
  · have hcreated := pointsTotal_append_created answers [q]
    rw [List.map_singleton, List.map_singleton, List.sum_singleton] at hcreated
    omega

theorem pointsTotal_le_applyOverrides (hdrawn : (a.questionsSnapshot.map (·.id)).Nodup)
    (hpoints : ∀ q ∈ a.questionsSnapshot, 0 ≤ q.points) (h : a.Earned) (overrides : Finset ℕ) :
    pointsTotal a.answers ≤ pointsTotal (a.applyOverrides overrides).answers := by
  have hfold : ∀ (qs : List QuestionSnapshot) (answered : List ℕ) (answers : List QuizAnswer),
      (∀ q ∈ qs, q ∈ a.questionsSnapshot) → EarnedFrom a.questionsSnapshot answers →
        pointsTotal answers ≤ pointsTotal (qs.foldl (creditQuestion answered) answers) := by
    intro qs answered
    induction qs with
    | nil => exact fun answers _ _ => le_rfl
    | cons q qs ih =>
      intro answers hqs hearned
      have hq : q ∈ a.questionsSnapshot := hqs q List.mem_cons_self
      exact (pointsTotal_le_creditQuestion hdrawn hpoints hearned hq answered).trans
        (ih _ (fun q' hq' => hqs q' (List.mem_cons_of_mem _ hq')) (hearned.creditQuestion hq answered))
  exact hfold _ _ _ (fun _ hq => (List.mem_filter.mp hq).1) h

theorem pointsTotal_nonneg (hpoints : ∀ q ∈ questions, 0 ≤ q.points) (h : EarnedFrom questions answers) :
    0 ≤ pointsTotal answers := by
  refine List.sum_nonneg fun p hp => ?_
  obtain ⟨x, hx, rfl⟩ := List.mem_map.mp hp
  obtain ⟨q, hq, -, hr⟩ := h x hx
  have hworth : 0 ≤ q.points := hpoints q hq
  rcases hr with hr | hr
  · rw [hr, Option.getD_some]
  · rw [hr, Option.getD_some]
    exact hworth

/-- One row a question: together they earned at most what the questions are worth. -/
theorem pointsTotal_le_sum (hdrawn : (questions.map (·.id)).Nodup) (hanswered : (answers.map (·.questionId)).Nodup)
    (hpoints : ∀ q ∈ questions, 0 ≤ q.points) (h : EarnedFrom questions answers) :
    pointsTotal answers ≤ (questions.map (·.points)).sum := by
  induction answers generalizing questions with
  | nil =>
    refine List.sum_nonneg fun p hp => ?_
    obtain ⟨q, hq, rfl⟩ := List.mem_map.mp hp
    exact hpoints q hq
  | cons x answers ih =>
    obtain ⟨q, hq, hid, hx⟩ := h x List.mem_cons_self
    have hworth : 0 ≤ q.points := hpoints q hq
    have hperm : questions.Perm (q :: questions.erase q) := List.perm_cons_erase hq
    rw [List.map_cons, List.nodup_cons] at hanswered
    have hrest : EarnedFrom (questions.erase q) answers := by
      intro y hy
      obtain ⟨q', hq', hid', hy'⟩ := h y (List.mem_cons_of_mem _ hy)
      have hne : q' ≠ q := by
        intro heq
        exact hanswered.1 (List.mem_map.mpr ⟨y, hy, by rw [← hid', heq, hid]⟩)
      exact ⟨q', (List.mem_erase_of_ne hne).mpr hq', hid', hy'⟩
    have hle := ih (hdrawn.sublist (List.erase_sublist.map _)) hanswered.2
      (fun q' hq' => hpoints q' (List.mem_of_mem_erase hq')) hrest
    rw [pointsTotal_cons, (hperm.map (·.points)).sum_eq, List.map_cons, List.sum_cons]
    rcases hx with hx | hx
    · rw [hx, Option.getD_some]
      omega
    · rw [hx, Option.getD_some]
      omega

/-! Again -/

theorem filter_id (hdrawn : (questions.map (·.id)).Nodup) (hq : q ∈ questions) :
    questions.filter (fun s => decide (s.id = q.id)) = [q] := by
  have hnodup : questions.Nodup := hdrawn.of_map _
  refine List.perm_singleton.mp ((List.perm_ext_iff_of_nodup (hnodup.filter _) (List.nodup_singleton q)).mpr fun s => ?_)
  rw [List.mem_filter, List.mem_singleton, decide_eq_true_eq]
  constructor
  · rintro ⟨hs, hid⟩
    exact List.inj_on_of_nodup_map hdrawn hs hq hid
  · rintro rfl
    exact ⟨hq, rfl⟩

/-- After the overrides the row of an overridden question carries the credit. -/
theorem lastRow_credited (hdrawn : (questions.map (·.id)).Nodup) (hq : q ∈ questions) (ho : q.id ∈ overrides) {r : QuizAnswer}
    (hr : lastRow q.id (applyQuestionOverrides questions overrides answers) = some r) :
    r.isCorrect = some true ∧ r.pointsEarned = some q.points := by
  have hone : questions.filter (fun s => decide (s.id = q.id)) = [q] := filter_id hdrawn hq
  have hrows := rowsOf_applyQuestionOverrides questions overrides answers q.id
  rw [if_pos ho, hone, List.foldl_cons, List.foldl_nil] at hrows
  have hfixed : creditLast q.id q.points (rowsOf q.id (applyQuestionOverrides questions overrides answers)) =
      rowsOf q.id (applyQuestionOverrides questions overrides answers) := by
    rw [hrows]
    unfold creditQuestion
    split_ifs
    · exact creditLast_creditLast _ _ _ _
    · exact creditLast_created q _ _
  refine creditLast_eq_self.mp hfixed r ?_
  unfold lastRow at hr ⊢
  unfold rowsOf at hr ⊢
  rw [List.filter_filter]
  simpa only [Bool.and_self] using hr

/-- Crediting what is credited changes nothing. -/
theorem applyOverrides_again (hdrawn : (a.questionsSnapshot.map (·.id)).Nodup) (overrides : Finset ℕ) :
    (a.applyOverrides overrides).applyOverrides overrides = a.applyOverrides overrides := by
  have hfold : ∀ (qs : List QuestionSnapshot) (answered : List ℕ) (answers : List QuizAnswer),
      (∀ q ∈ qs, creditQuestion answered answers q = answers) → qs.foldl (creditQuestion answered) answers = answers := by
    intro qs answered answers
    induction qs with
    | nil => exact fun _ => rfl
    | cons q qs ih =>
      intro h
      rw [List.foldl_cons, h q List.mem_cons_self]
      exact ih fun q' hq' => h q' (List.mem_cons_of_mem _ hq')
  have hsame : applyQuestionOverrides a.questionsSnapshot overrides (a.applyOverrides overrides).answers =
      (a.applyOverrides overrides).answers := by
    refine hfold _ _ _ fun q hq => ?_
    obtain ⟨hmem, ho⟩ := List.mem_filter.mp hq
    have ho : q.id ∈ overrides := of_decide_eq_true ho
    have hsome : a.questionsSnapshot.filter (fun s => decide (s.id = q.id)) ≠ [] :=
      List.ne_nil_of_mem (List.mem_filter.mpr ⟨hmem, by simp⟩)
    have hanswered : q.id ∈ (a.applyOverrides overrides).answers.map (·.questionId) := answered_of_credited ho hsome
    unfold creditQuestion
    rw [if_pos hanswered]
    exact creditLast_eq_self.mpr fun r hr => lastRow_credited hdrawn hmem ho hr
  exact congrArg (fun answers => { a with answers := answers }) hsame

end

end SubmissionsChecker
