import SubmissionsChecker.Db.Models
import Mathlib.Tactic.Linarith
import Mathlib.Algebra.BigOperators.Group.List.Basic
import Mathlib.Algebra.Order.Field.Rat
import Mathlib.Data.Finset.Image
import Mathlib.Data.List.Induction

/-! `services/quiz_scoring.py`: the overrides of a config version, crediting a question, and
the score of an attempt. A question's rows are credited apart from every other question's,
and crediting twice is crediting once. -/

namespace SubmissionsChecker

/-- `load_question_overrides`. -/
def Db.loadQuestionOverrides (db : Db) (pluginConfigId pluginConfigVersion : Option ℕ) : Finset ℕ :=
  match pluginConfigId, pluginConfigVersion with
  | some c, some v =>
    ((db.overrides.filter fun o =>
      o.pluginConfigId == c && o.pluginConfigVersion == v && o.creditAll).map (·.questionId)).toFinset
  | _, _ => ∅

/-- Full credit on an existing row; `timed_out` is left alone. -/
def QuizAnswer.credit (points : ℤ) (a : QuizAnswer) : QuizAnswer :=
  { a with isCorrect := some true, pointsEarned := some points }

/-- The row created for a question that was never answered. -/
def QuizAnswer.created (q : QuestionSnapshot) : QuizAnswer :=
  { questionId := q.id, isCorrect := some true, pointsEarned := some q.points }

/-- Credit the last row of question `q`: `by_question` keeps the last row of each question. -/
def creditLast (q : ℕ) (points : ℤ) : List QuizAnswer → List QuizAnswer
  | [] => []
  | a :: rest =>
    if a.questionId = q ∧ ∀ b ∈ rest, b.questionId ≠ q then a.credit points :: rest
    else a :: creditLast q points rest

/-- One turn of the loop; `answered` are the keys of `by_question`, fixed before the loop. -/
def creditQuestion (answered : List ℕ) (answers : List QuizAnswer) (q : QuestionSnapshot) :
    List QuizAnswer :=
  if q.id ∈ answered then creditLast q.id q.points answers
  else answers ++ [QuizAnswer.created q]

/-- `apply_question_overrides`, on the attempt's answer rows. -/
def applyQuestionOverrides (snapshot : List QuestionSnapshot) (overrideIds : Finset ℕ)
    (answers : List QuizAnswer) : List QuizAnswer :=
  (snapshot.filter (·.id ∈ overrideIds)).foldl (creditQuestion (answers.map (·.questionId))) answers

def QuizAttempt.applyOverrides (a : QuizAttempt) (overrideIds : Finset ℕ) : QuizAttempt :=
  { a with answers := applyQuestionOverrides a.questionsSnapshot overrideIds a.answers }

def defaultPassThresholdPct : ℚ := 3 / 5

structure AttemptScore where
  score : ℤ
  maxScore : ℤ
  isPassed : Bool
  forceFailed : Bool
  deriving DecidableEq, Repr

def pointsTotal (answers : List QuizAnswer) : ℤ := (answers.map (·.pointsEarned.getD 0)).sum

/-- `score_attempt`. -/
def QuizAttempt.scoreAttempt (a : QuizAttempt) : AttemptScore :=
  let score := pointsTotal a.answers
  let maxScore := (a.questionsSnapshot.map (·.points)).sum
  if a.forceFail then ⟨score, maxScore, false, true⟩
  else
    let threshold := a.configSnapshot.passThresholdPct.getD defaultPassThresholdPct
    ⟨score, maxScore, decide (0 < maxScore) && decide (threshold ≤ (score : ℚ) / maxScore), false⟩

/-! Crediting, question by question -/

def rowsOf (x : ℕ) (answers : List QuizAnswer) : List QuizAnswer :=
  answers.filter fun a => decide (a.questionId = x)

theorem mem_answered_iff {answers : List QuizAnswer} {x : ℕ} :
    x ∈ answers.map (·.questionId) ↔ rowsOf x answers ≠ [] := by
  simp [rowsOf, List.filter_eq_nil_iff]

theorem rowsOf_ids {answers : List QuizAnswer} {x : ℕ} : ∀ a ∈ rowsOf x answers, a.questionId = x := by
  intro a ha
  simpa using (List.mem_filter.mp ha).2

theorem rowsOf_creditLast_ne {q x : ℕ} (p : ℤ) (h : q ≠ x) (answers : List QuizAnswer) :
    rowsOf x (creditLast q p answers) = rowsOf x answers := by
  induction answers with
  | nil => rfl
  | cons a rest ih =>
    unfold creditLast
    split_ifs with hc
    · have hx : a.questionId ≠ x := by rw [hc.1]; exact h
      simp [rowsOf, QuizAnswer.credit, hx]
    · simp only [rowsOf, List.filter_cons] at ih ⊢
      rw [ih]

theorem creditLast_of_absent {q : ℕ} (p : ℤ) {answers : List QuizAnswer}
    (h : ∀ a ∈ answers, a.questionId ≠ q) : creditLast q p answers = answers := by
  induction answers with
  | nil => rfl
  | cons a rest ih =>
    unfold creditLast
    rw [if_neg (fun hc => h a (by simp) hc.1), ih fun b hb => h b (by simp [hb])]

theorem rowsOf_creditLast_self (q : ℕ) (p : ℤ) (answers : List QuizAnswer) :
    rowsOf q (creditLast q p answers) = creditLast q p (rowsOf q answers) := by
  induction answers with
  | nil => rfl
  | cons a rest ih =>
    by_cases ha : a.questionId = q
    · have hr : rowsOf q (a :: rest) = a :: rowsOf q rest := by simp [rowsOf, ha]
      rw [hr]
      unfold creditLast
      by_cases hrest : ∀ b ∈ rest, b.questionId ≠ q
      · rw [if_pos ⟨ha, hrest⟩, if_pos ⟨ha, fun b hb => hrest b (List.mem_filter.mp hb).1⟩]
        simp [rowsOf, QuizAnswer.credit, ha]
      · rw [if_neg (fun hc => hrest hc.2), if_neg]
        · rw [← ih]; simp [rowsOf, ha]
        · rintro ⟨-, hnone⟩
          push Not at hrest
          obtain ⟨b, hb, hbq⟩ := hrest
          exact hnone b (List.mem_filter.mpr ⟨hb, by simpa using hbq⟩) hbq
    · have hr : rowsOf q (a :: rest) = rowsOf q rest := by simp [rowsOf, ha]
      rw [hr, ← ih, creditLast, if_neg (fun hc => ha hc.1)]
      simp [rowsOf, ha]

/-- One turn of the loop touches the rows of its own question only. -/
theorem rowsOf_creditQuestion (answered : List ℕ) (answers : List QuizAnswer) (q : QuestionSnapshot)
    (x : ℕ) : rowsOf x (creditQuestion answered answers q) =
      if q.id = x then creditQuestion answered (rowsOf x answers) q else rowsOf x answers := by
  unfold creditQuestion
  by_cases hx : q.id = x
  · subst hx
    rw [if_pos rfl]
    split_ifs with ha
    · exact rowsOf_creditLast_self _ _ _
    · simp [rowsOf, QuizAnswer.created]
  · rw [if_neg hx]
    split_ifs with ha
    · exact rowsOf_creditLast_ne _ hx _
    · simp [rowsOf, QuizAnswer.created, hx]

theorem rowsOf_foldl_credit (answered : List ℕ) (x : ℕ) (qs : List QuestionSnapshot) :
    ∀ answers, rowsOf x (qs.foldl (creditQuestion answered) answers) =
      (qs.filter fun q => decide (q.id = x)).foldl (creditQuestion answered) (rowsOf x answers) := by
  induction qs with
  | nil => intro answers; rfl
  | cons q qs ih =>
    intro answers
    rw [List.foldl_cons, ih, rowsOf_creditQuestion]
    by_cases hx : q.id = x <;> simp [hx]

theorem rowsOf_applyQuestionOverrides (snapshot : List QuestionSnapshot) (ids : Finset ℕ)
    (answers : List QuizAnswer) (x : ℕ) :
    rowsOf x (applyQuestionOverrides snapshot ids answers) =
      if x ∈ ids then (snapshot.filter fun q => decide (q.id = x)).foldl
        (creditQuestion (answers.map (·.questionId))) (rowsOf x answers)
      else rowsOf x answers := by
  unfold applyQuestionOverrides
  rw [rowsOf_foldl_credit, List.filter_filter]
  split_ifs with hx
  · congr 1
    apply List.filter_congr
    intro q _
    by_cases hq : q.id = x <;> simp [hq, hx]
  · rw [show (snapshot.filter fun q => decide (q.id = x) && decide (q.id ∈ ids)) = [] from ?_]
    · rfl
    · rw [List.filter_eq_nil_iff]
      rintro q - hq
      simp only [Bool.and_eq_true, decide_eq_true_eq] at hq
      exact hx (hq.1 ▸ hq.2)

/-- The turns on one question only ask whether that question was answered on entry. -/
theorem foldl_credit_congr {x : ℕ} {ans ans' : List ℕ} (h : x ∈ ans ↔ x ∈ ans')
    {qs : List QuestionSnapshot} (hqs : ∀ q ∈ qs, q.id = x) :
    ∀ answers, qs.foldl (creditQuestion ans) answers = qs.foldl (creditQuestion ans') answers := by
  induction qs with
  | nil => intro answers; rfl
  | cons q qs ih =>
    intro answers
    have hq : q.id = x := hqs q (by simp)
    have : creditQuestion ans answers q = creditQuestion ans' answers q := by
      simp only [creditQuestion, hq, h]
    rw [List.foldl_cons, List.foldl_cons, this, ih fun q hq => hqs q (by simp [hq])]

theorem credit_credit (p p' : ℤ) (a : QuizAnswer) : (a.credit p').credit p = a.credit p := rfl

theorem creditLast_ids (q : ℕ) (p : ℤ) (answers : List QuizAnswer) :
    (creditLast q p answers).map (·.questionId) = answers.map (·.questionId) := by
  induction answers with
  | nil => rfl
  | cons a rest ih =>
    unfold creditLast
    split_ifs <;> simp [QuizAnswer.credit, ih]

theorem creditLast_creditLast (q : ℕ) (p p' : ℤ) (answers : List QuizAnswer) :
    creditLast q p (creditLast q p' answers) = creditLast q p answers := by
  induction answers with
  | nil => rfl
  | cons a rest ih =>
    by_cases hc : a.questionId = q ∧ ∀ b ∈ rest, b.questionId ≠ q
    · have hc' : (a.credit p').questionId = q ∧ ∀ b ∈ rest, b.questionId ≠ q := hc
      rw [creditLast, if_pos hc, creditLast, if_pos hc', creditLast, if_pos hc, credit_credit]
    · have hids : (∀ b ∈ creditLast q p' rest, b.questionId ≠ q) ↔ ∀ b ∈ rest, b.questionId ≠ q := by
        have h1 := List.forall_mem_map (P := (· ≠ q)) (f := (·.questionId)) (l := creditLast q p' rest)
        have h2 := List.forall_mem_map (P := (· ≠ q)) (f := (·.questionId)) (l := rest)
        rw [← h1, ← h2, creditLast_ids]
      rw [creditLast, if_neg hc, creditLast, if_neg (by rwa [hids]), creditLast, if_neg hc, ih]

theorem creditLast_foldl_credit {x : ℕ} {ans : List ℕ} (hx : x ∈ ans) (p : ℤ)
    {qs : List QuestionSnapshot} (hqs : ∀ q ∈ qs, q.id = x) :
    ∀ rows, creditLast x p (qs.foldl (creditQuestion ans) rows) = creditLast x p rows := by
  induction qs with
  | nil => intro rows; rfl
  | cons q qs ih =>
    intro rows
    have hq : q.id = x := hqs q (by simp)
    rw [List.foldl_cons, ih fun r hr => hqs r (by simp [hr])]
    simp only [creditQuestion, hq, hx, if_true, creditLast_creditLast]

/-- Crediting an answered question again changes nothing. -/
theorem foldl_credit_again {x : ℕ} {ans : List ℕ} (hx : x ∈ ans) {qs : List QuestionSnapshot}
    (hqs : ∀ q ∈ qs, q.id = x) (answers : List QuizAnswer) :
    qs.foldl (creditQuestion ans) (qs.foldl (creditQuestion ans) answers) =
      qs.foldl (creditQuestion ans) answers := by
  induction qs using List.reverseRecOn with
  | nil => rfl
  | append_singleton qs q ih =>
    have hq : q.id = x := hqs q (by simp)
    have hqs' : ∀ r ∈ qs, r.id = x := fun r hr => hqs r (by simp [hr])
    have hone : ∀ rows, creditQuestion ans rows q = creditLast x q.points rows := by
      intro rows; simp [creditQuestion, hq, hx]
    simp only [List.foldl_append, List.foldl_cons, List.foldl_nil, hone]
    rw [creditLast_foldl_credit hx _ hqs', creditLast_creditLast, creditLast_foldl_credit hx _ hqs']

theorem creditLast_created (q : QuestionSnapshot) (answers : List QuizAnswer) (p : ℤ) :
    creditLast q.id p (answers ++ [QuizAnswer.created q]) =
      answers ++ [(QuizAnswer.created q).credit p] := by
  induction answers with
  | nil => simp [creditLast, QuizAnswer.created]
  | cons a rest ih =>
    rw [List.cons_append, creditLast, if_neg, ih]
    · rfl
    · rintro ⟨-, h⟩
      exact h (QuizAnswer.created q) (by simp) rfl

/-- The rows created for an unanswered question already carry its credit. -/
theorem foldl_credit_after_create {x : ℕ} {ans ans' : List ℕ} (hx : x ∉ ans) (hx' : x ∈ ans')
    {qs : List QuestionSnapshot} (hqs : ∀ q ∈ qs, q.id = x) (answers : List QuizAnswer) :
    qs.foldl (creditQuestion ans') (qs.foldl (creditQuestion ans) answers) =
      qs.foldl (creditQuestion ans) answers := by
  induction qs using List.reverseRecOn with
  | nil => rfl
  | append_singleton qs q ih =>
    have hq : q.id = x := hqs q (by simp)
    have hqs' : ∀ r ∈ qs, r.id = x := fun r hr => hqs r (by simp [hr])
    have hcreate : ∀ rows, creditQuestion ans rows q = rows ++ [QuizAnswer.created q] := by
      intro rows; simp [creditQuestion, hq, hx]
    have hcredit : ∀ rows, creditQuestion ans' rows q = creditLast x q.points rows := by
      intro rows; simp [creditQuestion, hq, hx']
    simp only [List.foldl_append, List.foldl_cons, List.foldl_nil, hcreate, hcredit]
    rw [creditLast_foldl_credit hx' _ hqs', ← hq, creditLast_created]
    rfl

theorem filter_id_ids {snapshot : List QuestionSnapshot} {x : ℕ} :
    ∀ q ∈ snapshot.filter (fun q => decide (q.id = x)), q.id = x := by
  intro q hq
  simpa using (List.mem_filter.mp hq).2

/-- Whether a question has an answer row is only changed by an override of that question. -/
theorem answered_applyQuestionOverrides {snapshot : List QuestionSnapshot} {ids : Finset ℕ}
    {answers : List QuizAnswer} {x : ℕ} (hx : x ∉ ids) :
    x ∈ (applyQuestionOverrides snapshot ids answers).map (·.questionId) ↔
      x ∈ answers.map (·.questionId) := by
  rw [mem_answered_iff, mem_answered_iff, rowsOf_applyQuestionOverrides, if_neg hx]

theorem mem_foldl_credit {x : ℕ} {ans : List ℕ} {qs : List QuestionSnapshot}
    (hqs : ∀ q ∈ qs, q.id = x) (hne : qs ≠ [] ∨ x ∈ ans) {rows : List QuizAnswer}
    (hrows : x ∈ ans → x ∈ rows.map (·.questionId)) :
    x ∈ (qs.foldl (creditQuestion ans) rows).map (·.questionId) := by
  induction qs generalizing rows with
  | nil => exact hrows (by simpa using hne)
  | cons q qs ih =>
    have hq : q.id = x := hqs q (by simp)
    have hstep : x ∈ (creditQuestion ans rows q).map (·.questionId) := by
      unfold creditQuestion
      split_ifs with ha
      · rw [creditLast_ids]; exact hrows (hq ▸ ha)
      · simp [QuizAnswer.created, hq]
    rw [List.foldl_cons]
    by_cases hqs0 : qs = []
    · subst hqs0; exact hstep
    · exact ih (fun r hr => hqs r (by simp [hr])) (.inl hqs0) fun _ => hstep

theorem answered_of_credited {snapshot : List QuestionSnapshot} {ids : Finset ℕ}
    {answers : List QuizAnswer} {x : ℕ} (hx : x ∈ ids)
    (hne : snapshot.filter (fun q => decide (q.id = x)) ≠ []) :
    x ∈ (applyQuestionOverrides snapshot ids answers).map (·.questionId) := by
  have hrows : x ∈ answers.map (·.questionId) →
      x ∈ (rowsOf x answers).map (·.questionId) := by
    intro h
    obtain ⟨a, ha, hax⟩ := List.mem_map.mp h
    exact List.mem_map.mpr ⟨a, List.mem_filter.mpr ⟨ha, by simpa using hax⟩, hax⟩
  have hfold := mem_foldl_credit filter_id_ids (.inl hne) hrows
  rw [mem_answered_iff, rowsOf_applyQuestionOverrides, if_pos hx]
  intro hnil
  rw [hnil] at hfold
  simp at hfold

/-- Crediting one question after the rest gives each question the same rows as crediting
them together. -/
theorem rowsOf_apply_insert (snapshot : List QuestionSnapshot) (ids : Finset ℕ) (q : ℕ)
    (answers : List QuizAnswer) (x : ℕ) :
    rowsOf x (applyQuestionOverrides snapshot {q} (applyQuestionOverrides snapshot ids answers)) =
      rowsOf x (applyQuestionOverrides snapshot (insert q ids) answers) := by
  simp only [rowsOf_applyQuestionOverrides]
  by_cases hxq : x = q
  · subst hxq
    rw [if_pos (Finset.mem_singleton_self x), if_pos (Finset.mem_insert_self x ids)]
    by_cases hx : x ∈ ids
    · rw [if_pos hx]
      rcases eq_or_ne (snapshot.filter fun q => decide (q.id = x)) [] with hnil | hne
      · rw [hnil]; rfl
      · have hx' : x ∈ (applyQuestionOverrides snapshot ids answers).map (·.questionId) := answered_of_credited hx hne
        by_cases hans : x ∈ answers.map (·.questionId)
        · rw [foldl_credit_congr (iff_of_true hx' hans) filter_id_ids]
          exact foldl_credit_again hans filter_id_ids _
        · exact foldl_credit_after_create hans hx' filter_id_ids _
    · rw [if_neg hx]
      exact foldl_credit_congr (answered_applyQuestionOverrides hx) filter_id_ids _
  · rw [if_neg (Finset.notMem_singleton.mpr hxq)]
    simp only [Finset.mem_insert, hxq, false_or]

/-- Lists with the same rows for every question are the same up to order. -/
theorem perm_of_rowsOf {l l' : List QuizAnswer} (h : ∀ x, rowsOf x l = rowsOf x l') : l.Perm l' := by
  rw [List.perm_iff_count]
  intro a
  have hcount : ∀ m : List QuizAnswer, m.count a = (rowsOf a.questionId m).count a := by
    intro m
    rw [rowsOf, List.count_filter (by simp)]
  rw [hcount l, hcount l', h]

theorem pointsTotal_perm {l l' : List QuizAnswer} (h : l.Perm l') : pointsTotal l = pointsTotal l' :=
  (h.map _).sum_eq

/-- The points are the same whether the question is credited with the rest or after them. -/
theorem pointsTotal_apply_insert (snapshot : List QuestionSnapshot) (ids : Finset ℕ) (q : ℕ)
    (answers : List QuizAnswer) :
    pointsTotal (applyQuestionOverrides snapshot {q} (applyQuestionOverrides snapshot ids answers)) =
      pointsTotal (applyQuestionOverrides snapshot (insert q ids) answers) :=
  pointsTotal_perm (perm_of_rowsOf (rowsOf_apply_insert snapshot ids q answers))

/-! Crediting a single question -/

/-- The row of question `q` that a credit lands on. -/
def lastRow (q : ℕ) (answers : List QuizAnswer) : Option QuizAnswer := (rowsOf q answers).getLast?

/-- The snapshot entry whose points the last credit gives. -/
def lastEntry (q : ℕ) (snapshot : List QuestionSnapshot) : Option QuestionSnapshot :=
  (snapshot.filter fun s => decide (s.id = q)).getLast?

theorem lastRow_cons (q : ℕ) (a : QuizAnswer) (rest : List QuizAnswer) :
    lastRow q (a :: rest) =
      if a.questionId = q ∧ ∀ b ∈ rest, b.questionId ≠ q then some a else lastRow q rest := by
  unfold lastRow rowsOf
  by_cases ha : a.questionId = q
  · rw [List.filter_cons_of_pos (by simpa using ha)]
    by_cases hrest : ∀ b ∈ rest, b.questionId ≠ q
    · have hnil : rest.filter (fun b => decide (b.questionId = q)) = [] := by
        rw [List.filter_eq_nil_iff]
        simpa using hrest
      rw [if_pos ⟨ha, hrest⟩, hnil]
      rfl
    · rw [if_neg fun h => hrest h.2]
      push Not at hrest
      obtain ⟨b, hb, hbq⟩ := hrest
      have hne : rest.filter (fun b => decide (b.questionId = q)) ≠ [] :=
        List.ne_nil_of_mem (List.mem_filter.mpr ⟨hb, by simpa using hbq⟩)
      rw [List.getLast?_cons_of_ne_nil hne]
  · rw [List.filter_cons_of_neg (by simpa using ha), if_neg fun h => ha h.1]

theorem lastRow_eq_none {q : ℕ} {answers : List QuizAnswer} :
    lastRow q answers = none ↔ q ∉ answers.map (·.questionId) := by
  rw [mem_answered_iff, not_not]
  exact List.getLast?_eq_none_iff

/-- The credit changes nothing exactly on a row that already carries it. -/
theorem creditLast_eq_self {q : ℕ} {p : ℤ} {answers : List QuizAnswer} :
    creditLast q p answers = answers ↔
      ∀ r, lastRow q answers = some r → r.isCorrect = some true ∧ r.pointsEarned = some p := by
  induction answers with
  | nil => simp [creditLast, lastRow, rowsOf]
  | cons a rest ih =>
    rw [lastRow_cons, creditLast]
    split_ifs with hc
    · obtain ⟨_, isCorrect, pointsEarned, _⟩ := a
      simp [QuizAnswer.credit, eq_comm]
    · simpa using ih

theorem pointsTotal_cons (a : QuizAnswer) (rest : List QuizAnswer) :
    pointsTotal (a :: rest) = a.pointsEarned.getD 0 + pointsTotal rest := by
  simp [pointsTotal]

/-- The credit adds what the row it lands on lacks. -/
theorem pointsTotal_creditLast {q : ℕ} {p : ℤ} {answers : List QuizAnswer} {r : QuizAnswer}
    (h : lastRow q answers = some r) :
    pointsTotal (creditLast q p answers) = pointsTotal answers + (p - r.pointsEarned.getD 0) := by
  induction answers with
  | nil => simp [lastRow, rowsOf] at h
  | cons a rest ih =>
    rw [lastRow_cons] at h
    rw [creditLast]
    split_ifs with hc
    · rw [if_pos hc, Option.some_inj] at h
      subst h
      rw [pointsTotal_cons, pointsTotal_cons]
      simp only [QuizAnswer.credit, Option.getD_some]
      omega
    · rw [if_neg hc] at h
      rw [pointsTotal_cons, pointsTotal_cons, ih h]
      omega

/-- Crediting one question credits its last row, or creates a row for each time it was drawn. -/
theorem applyQuestionOverrides_singleton (snapshot : List QuestionSnapshot) (q : ℕ)
    (answers : List QuizAnswer) :
    applyQuestionOverrides snapshot {q} answers =
      if q ∈ answers.map (·.questionId) then
        (lastEntry q snapshot).elim answers fun s => creditLast q s.points answers
      else answers ++ (snapshot.filter fun s => decide (s.id = q)).map QuizAnswer.created := by
  unfold applyQuestionOverrides lastEntry
  have hfilter : (snapshot.filter fun s => decide (s.id ∈ ({q} : Finset ℕ))) =
      snapshot.filter fun s => decide (s.id = q) := by simp
  rw [hfilter]
  have hqs : ∀ s ∈ snapshot.filter (fun s => decide (s.id = q)), s.id = q := filter_id_ids
  generalize snapshot.filter (fun s => decide (s.id = q)) = qs at hqs
  split_ifs with hans
  · rcases List.eq_nil_or_concat qs with rfl | ⟨qs', s, rfl⟩
    · rfl
    · have hid : s.id = q := hqs s (by simp)
      have hlast : ∀ rows, creditQuestion (answers.map (·.questionId)) rows s = creditLast q s.points rows := by
        intro rows; simp only [creditQuestion, hid, hans, if_true]
      rw [List.concat_eq_append, List.foldl_append, List.foldl_cons, List.foldl_nil, hlast,
        creditLast_foldl_credit hans _ fun r hr => hqs r (by simp [hr]), List.getLast?_concat]
      rfl
  · have happend : ∀ rows : List QuizAnswer,
        qs.foldl (creditQuestion (answers.map (·.questionId))) rows = rows ++ qs.map QuizAnswer.created := by
      induction qs with
      | nil => intro rows; simp
      | cons s qs ih =>
        intro rows
        have hid : s.id = q := hqs s (by simp)
        have hone : creditQuestion (answers.map (·.questionId)) rows s = rows ++ [QuizAnswer.created s] := by
          simp only [creditQuestion, hid, hans, if_false]
        rw [List.foldl_cons, hone, ih fun r hr => hqs r (by simp [hr])]
        simp
    exact happend answers

theorem pointsTotal_append_created (answers : List QuizAnswer) (qs : List QuestionSnapshot) :
    pointsTotal (answers ++ qs.map QuizAnswer.created) = pointsTotal answers + (qs.map (·.points)).sum := by
  simp [pointsTotal, QuizAnswer.created, Function.comp_def]

/-! The score -/

@[simp] theorem scoreAttempt_maxScore (a : QuizAttempt) :
    a.scoreAttempt.maxScore = (a.questionsSnapshot.map (·.points)).sum := by
  unfold QuizAttempt.scoreAttempt; split_ifs <;> rfl

@[simp] theorem scoreAttempt_score (a : QuizAttempt) : a.scoreAttempt.score = pointsTotal a.answers := by
  unfold QuizAttempt.scoreAttempt; split_ifs <;> rfl

/-- A forced failure never passes. -/
theorem scoreAttempt_of_forceFail {a : QuizAttempt} (h : a.forceFail = true) :
    a.scoreAttempt.isPassed = false := by
  simp [QuizAttempt.scoreAttempt, h]

/-- Of two attempts with the same questions, threshold and violations, the score decides. -/
theorem scoreAttempt_congr {a b : QuizAttempt} (hq : a.questionsSnapshot = b.questionsSnapshot)
    (hc : a.configSnapshot = b.configSnapshot) (hf : a.forceFail = b.forceFail)
    (hp : pointsTotal a.answers = pointsTotal b.answers) : a.scoreAttempt = b.scoreAttempt := by
  simp only [QuizAttempt.scoreAttempt, hq, hc, hf, hp]

end SubmissionsChecker
