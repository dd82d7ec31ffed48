import SubmissionsChecker.Invariants.Draws

/-! What `_select_question_ids` draws and how `split_draw` shares it out. -/

namespace SubmissionsChecker

/-- A draw from the quiz: gradable questions, the required ones among them, as many as asked for. -/
structure QuizConfig.IsDraw (quiz : QuizConfig) (ids : List ℕ) : Prop where
  nodup : ids.Nodup
  gradable : ∀ id ∈ ids, quiz.IsGradable id
  required : ∀ id, quiz.Requires id → id ∈ ids
  length : (ids.length : ℤ) = max (quiz.requiredIds.length : ℤ)
    (min (quiz.questionsToSend.getD quiz.questions.length) quiz.gradable.length)
  inOrder : quiz.shuffleQuestions = some false → ids.Pairwise fun id id' =>
    (quiz.Requires id' → quiz.Requires id) ∧ ((quiz.Requires id ↔ quiz.Requires id') → id < id')

def requiredAmong (questions : List QuestionSnapshot) (id : ℕ) : Bool := questions.any fun q => q.id == id && q.isRequired

/-- The slices partition the questions, evenly in all and evenly in the required ones. -/
structure FairSplit (questions : List QuestionSnapshot) (memberCount : ℕ) (slices : List (List ℕ)) : Prop where
  length : slices.length = memberCount
  shares : slices.flatten.Perm (questions.map (·.id))
  sizes : ∀ s ∈ slices, ∀ t ∈ slices, s.length ≤ t.length + 1
  requires : ∀ s ∈ slices, ∀ t ∈ slices, s.countP (requiredAmong questions) ≤ t.countP (requiredAmong questions) + 1

section

variable {quiz : QuizConfig} {questions : List QuestionSnapshot} {n m : ℕ}

/-! The draw -/

/-- Without shuffling the draw is the required questions and the first optional ones. -/
theorem selectQuestionIds_unshuffled (h : quiz.shuffleQuestions = some false) (rnd : Shuffles) :
    selectQuestionIds quiz rnd = quiz.requiredIds ++ quiz.optionalIds.take quiz.optionalWanted := by
  unfold selectQuestionIds
  rw [h]
  rfl

theorem unshuffled_inOrder (quiz : QuizConfig) (k : ℕ) : (quiz.requiredIds ++ quiz.optionalIds.take k).Pairwise fun id id' =>
    (quiz.Requires id' → quiz.Requires id) ∧ ((quiz.Requires id ↔ quiz.Requires id') → id < id') := by
  have hoptional : ∀ id ∈ quiz.optionalIds.take k, ¬ quiz.Requires id := by
    intro id hid
    exact (mem_optionalIds.mp (List.mem_of_mem_take hid)).2
  refine List.pairwise_append.mpr ⟨?_, ?_, ?_⟩
  · refine (Table.idsWhere_increasing _ quiz.questions).imp_of_mem fun hid _ hlt => ?_
    exact ⟨fun _ => mem_requiredIds.mp hid, fun _ => hlt⟩
  · have hsorted : (quiz.optionalIds.take k).Pairwise (· < ·) :=
      (Table.idsWhere_increasing _ quiz.questions).sublist (List.take_sublist k _)
    refine hsorted.imp_of_mem fun _ hid' hlt => ?_
    exact ⟨fun hreq => absurd hreq (hoptional _ hid'), fun _ => hlt⟩
  · intro id hid id' hid'
    have hreq : quiz.Requires id := mem_requiredIds.mp hid
    exact ⟨fun _ => hreq, fun hsame => absurd (hsame.mp hreq) (hoptional id' hid')⟩

/-- All required questions and then optional ones up to the number asked for, or all there are. -/
theorem length_selectQuestionIds_eq (quiz : QuizConfig) (rnd : Shuffles) :
    ((selectQuestionIds quiz rnd).length : ℤ) = max (quiz.requiredIds.length : ℤ)
      (min (quiz.questionsToSend.getD quiz.questions.length) quiz.gradable.length) := by
  have hall := length_gradable quiz
  have hwanted : (quiz.optionalWanted : ℤ) =
      max 0 (quiz.questionsToSend.getD quiz.questions.length - quiz.requiredIds.length) := by
    unfold QuizConfig.optionalWanted
    omega
  rw [length_selectQuestionIds]
  omega

theorem selectQuestionIds_isDraw (quiz : QuizConfig) (rnd : Shuffles) : quiz.IsDraw (selectQuestionIds quiz rnd) where
  nodup := nodup_selectQuestionIds quiz rnd
  gradable _ := isGradable_of_selected
  required _ := selected_of_requires
  length := length_selectQuestionIds_eq quiz rnd
  inOrder h := by
    rw [selectQuestionIds_unshuffled h]
    exact unshuffled_inOrder quiz _

/-! The split -/

theorem mem_splitDraw {s : List ℕ} : s ∈ splitDraw questions n ↔
    ∃ m < n, s = Deal.hand n m 0 ((dealtOrder questions).map (·.id)) := by
  rw [splitDraw_eq, List.mem_map]
  constructor
  · rintro ⟨m, hm, rfl⟩
    exact ⟨m, List.mem_range.mp hm, rfl⟩
  · rintro ⟨m, hm, rfl⟩
    exact ⟨m, List.mem_range.mpr hm, rfl⟩

/-- With distinct ids an optional question does not share the id of a required one. -/
theorem requiredAmong_eq (hids : (questions.map (·.id)).Nodup) {q : QuestionSnapshot} (hq : q ∈ questions) :
    requiredAmong questions q.id = q.isRequired := by
  rw [Bool.eq_iff_iff]
  constructor
  · intro h
    obtain ⟨q', hq', hboth⟩ := List.any_eq_true.mp h
    obtain ⟨hid, hreq⟩ := Bool.and_eq_true_iff.mp hboth
    obtain rfl : q' = q := List.inj_on_of_nodup_map hids hq' hq (beq_iff_eq.mp hid)
    exact hreq
  · intro h
    refine List.any_eq_true.mpr ⟨q, hq, ?_⟩
    rw [h, beq_self_eq_true, Bool.and_self]

/-- The required questions of a hand are dealt before any other. -/
theorem countP_required_hand (hids : (questions.map (·.id)).Nodup) :
    (Deal.hand n m 0 ((dealtOrder questions).map (·.id))).countP (requiredAmong questions) =
      Deal.dealt n m 0 (questions.filter (·.isRequired)).length := by
  have hfirst : ∀ id ∈ Deal.hand n m 0 ((questions.filter (·.isRequired)).map (·.id)), requiredAmong questions id = true := by
    intro id hid
    obtain ⟨q, hq, rfl⟩ := List.mem_map.mp ((Deal.hand_sublist 0 _).subset hid)
    obtain ⟨hmem, hreq⟩ := List.mem_filter.mp hq
    rw [requiredAmong_eq hids hmem]
    exact hreq
  have hrest : ∀ s, ∀ id ∈ Deal.hand n m s ((questions.filter (!·.isRequired)).map (·.id)),
      ¬ requiredAmong questions id = true := by
    intro s id hid
    obtain ⟨q, hq, rfl⟩ := List.mem_map.mp ((Deal.hand_sublist s _).subset hid)
    obtain ⟨hmem, hreq⟩ := List.mem_filter.mp hq
    rw [requiredAmong_eq hids hmem]
    simpa using hreq
  unfold dealtOrder
  rw [List.map_append, Deal.hand_append, List.countP_append, List.countP_eq_length.mpr hfirst,
    List.countP_eq_zero.mpr (hrest _), Deal.length_hand, List.length_map, Nat.add_zero]

theorem splitDraw_fair (hids : (questions.map (·.id)).Nodup) (hn : 1 ≤ n) :
    FairSplit questions n (splitDraw questions n) where
  length := by rw [splitDraw_eq, List.length_map, List.length_range]
  shares := by
    rw [splitDraw_eq, ← List.flatMap_def]
    exact (Deal.flatMap_hands_perm hn 0 _).trans ((List.filter_append_perm _ _).map _)
  sizes s hs t ht := by
    obtain ⟨m, hm, rfl⟩ := mem_splitDraw.mp hs
    obtain ⟨m', hm', rfl⟩ := mem_splitDraw.mp ht
    rw [Deal.length_hand, Deal.length_hand]
    exact Deal.dealt_balanced hm hm' _
  requires s hs t ht := by
    obtain ⟨m, hm, rfl⟩ := mem_splitDraw.mp hs
    obtain ⟨m', hm', rfl⟩ := mem_splitDraw.mp ht
    rw [countP_required_hand hids, countP_required_hand hids]
    exact Deal.dealt_balanced hm hm' _

/-- Five questions for two members, two of them required. -/
def fiveQuestions : List QuestionSnapshot :=
  [{ id := 4, points := 1 }, { id := 0, points := 1, isRequired := true }, { id := 1, points := 1, isRequired := true },
    { id := 2, points := 1 }, { id := 3, points := 1 }]

theorem fiveQuestions_fair : FairSplit fiveQuestions 2 (splitDraw fiveQuestions 2) :=
  splitDraw_fair (by decide) (by decide)

end

end SubmissionsChecker
