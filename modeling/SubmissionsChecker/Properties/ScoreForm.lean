import SubmissionsChecker.Services.ScoreForm
import SubmissionsChecker.Library.Loops

/-! The score form. A form that is read gives every criterion its own number; what is not read is answered with a
`ScoreError`, but for digits that `int()` refuses. -/

namespace SubmissionsChecker

section

variable {form : String → Option String} {c d : Criterion} {crits : List Criterion} {out out' : TeacherScores}

theorem scoreField_congr (h : c.key = d.key) : scoreField form c = scoreField form d := by
  unfold scoreField
  rw [h]

theorem enterScore_ok : enterScore form out c = .ok out' ↔
    scoreField form c = [] ∧ out' = out ∨
    ∃ value : ℕ, PyText.int (scoreField form c) = some value ∧ (value : ℤ) ≤ c.max ∧
      out' = Assoc.put c.key (value : ℤ) out := by
  unfold enterScore
  cases h : readScore form c with
  | error e =>
    constructor
    · intro h
      cases h
    · rintro (⟨hblank, -⟩ | ⟨value, hint, hmax, -⟩)
      · rw [readScore_none.mpr hblank] at h
        cases h
      · rw [readScore_some.mpr ⟨hint, hmax⟩] at h
        cases h
  | ok o =>
    cases o with
    | none =>
      have hblank := readScore_none.mp h
      constructor
      · intro h
        cases h
        exact .inl ⟨hblank, rfl⟩
      · rintro (⟨-, rfl⟩ | ⟨value, hint, -⟩)
        · rfl
        · rw [hblank] at hint
          cases hint
    | some value =>
      have hread := readScore_some.mp h
      constructor
      · intro h
        cases h
        exact .inr ⟨value, hread.1, hread.2, rfl⟩
      · rintro (⟨hblank, -⟩ | ⟨value', hint, -, rfl⟩)
        · rw [hblank] at hread
          cases hread.1
        · rw [hread.1] at hint
          cases hint
          rfl

theorem enterScore_isOk : (∃ out', enterScore form out c = .ok out') ↔ Accepted form c := by
  rw [accepted_iff]
  unfold enterScore
  cases readScore form c with
  | error e => simp [Except.map]
  | ok o => simp [Except.map]

theorem enterScore_value : enterScore form out c = .error .value ↔ Refused form c := by
  rw [← readScore_value]
  unfold enterScore
  cases readScore form c with
  | error e => simp [Except.map]
  | ok o => simp [Except.map]

/-- The points read, key by key. -/
theorem lookup_entered (h : crits.foldlM (enterScore form) out = .ok out') :
    (∀ c ∈ crits, scoreField form c ≠ [] →
      ∃ value : ℕ, PyText.int (scoreField form c) = some value ∧ (value : ℤ) ≤ c.max ∧
        out'.lookup c.key = some (value : ℤ)) ∧
    ∀ k, (∀ c ∈ crits, c.key = k → scoreField form c = []) → out'.lookup k = out.lookup k := by
  induction crits generalizing out with
  | nil =>
    cases h
    exact ⟨fun c hc => absurd hc List.not_mem_nil, fun k _ => rfl⟩
  | cons c crits ih =>
    obtain ⟨out₁, hfirst, hrest⟩ := Loops.foldlM_cons_ok.mp h
    obtain ⟨hread, hkept⟩ := ih hrest
    constructor
    · intro d hd hne
      rcases List.mem_cons.mp hd with rfl | hd
      · rcases enterScore_ok.mp hfirst with ⟨hblank, -⟩ | ⟨value, hint, hmax, rfl⟩
        · exact absurd hblank hne
        · refine ⟨value, hint, hmax, ?_⟩
          -- a later criterion of the same key reads the same field
          by_cases hlater : ∃ c ∈ crits, c.key = d.key
          · obtain ⟨c, hc, hkey⟩ := hlater
            obtain ⟨value', hint', -, hlook⟩ := hread c hc (by rw [scoreField_congr hkey]; exact hne)
            rw [scoreField_congr hkey, hint] at hint'
            cases hint'
            rw [← hkey, hlook]
          · rw [hkept d.key fun c hc hkey => absurd ⟨c, hc, hkey⟩ hlater, Assoc.lookup_put, if_pos rfl]
      · exact hread d hd hne
    · intro k hk
      rw [hkept k fun d hd => hk d (List.mem_cons_of_mem _ hd)]
      rcases enterScore_ok.mp hfirst with ⟨-, rfl⟩ | ⟨value, hint, -, rfl⟩
      · rfl
      · have hne : k ≠ c.key := by
          rintro rfl
          rw [hk c List.mem_cons_self rfl] at hint
          cases hint
        rw [Assoc.lookup_put, if_neg hne]

theorem readForm_value : readForm crits form = .error .value ↔
    ∃ pre c post, crits = pre ++ c :: post ∧ (∀ d ∈ pre, Accepted form d) ∧ Refused form c := by
  have hpre : ∀ {pre : List Criterion}, (∃ out', pre.foldlM (enterScore form) [] = .ok out') ↔ ∀ d ∈ pre, Accepted form d :=
    Loops.foldlM_isOk fun _ _ => enterScore_isOk
  unfold readForm
  rw [Loops.foldlM_error]
  constructor
  · rintro ⟨pre, c, post, out, hsplit, hok, hc⟩
    exact ⟨pre, c, post, hsplit, hpre.mp ⟨out, hok⟩, enterScore_value.mp hc⟩
  · rintro ⟨pre, c, post, hsplit, hok, hc⟩
    obtain ⟨out, hout⟩ := hpre.mpr hok
    exact ⟨pre, c, post, out, hsplit, hout, enterScore_value.mpr hc⟩

/-- A form that is read: each criterion has the number of its field. -/
structure ReadInFull (crits : List Criterion) (form : String → Option String) (out : TeacherScores) : Prop where
  keys : ∀ k v, out.lookup k = some v → ∃ c ∈ crits, c.key = k
  range : ∀ c ∈ crits, ∀ v, out.lookup c.key = some v → 0 ≤ v ∧ v ≤ c.max
  filled : ∀ c ∈ crits, (out.lookup c.key).isSome = true ↔ scoreField form c ≠ []
  complete : isComplete crits (some out) = true ↔ ∀ c ∈ crits, c.isOptional = false → scoreField form c ≠ []

theorem readForm_full (h : readForm crits form = .ok out) : ReadInFull crits form out := by
  obtain ⟨hread, hkept⟩ := lookup_entered h
  have hblank : ∀ c ∈ crits, scoreField form c = [] → out.lookup c.key = none := by
    intro c hc hb
    exact hkept c.key fun d _ hkey => (scoreField_congr hkey).trans hb
  have hfilled : ∀ c ∈ crits, (out.lookup c.key).isSome = true ↔ scoreField form c ≠ [] := by
    intro c hc
    constructor
    · intro hs hb
      rw [hblank c hc hb] at hs
      cases hs
    · intro hne
      obtain ⟨value, -, -, hlook⟩ := hread c hc hne
      rw [hlook]
      rfl
  refine ⟨fun k v hlook => ?_, fun c hc v hlook => ?_, hfilled, ?_⟩
  · by_contra hnone
    rw [hkept k fun c hc hkey => absurd ⟨c, hc, hkey⟩ hnone] at hlook
    cases hlook
  · have hne : scoreField form c ≠ [] := (hfilled c hc).mp (by rw [hlook]; rfl)
    obtain ⟨value, -, hmax, hlook'⟩ := hread c hc hne
    rw [hlook, Option.some_inj] at hlook'
    rw [hlook']
    exact ⟨Int.natCast_nonneg value, hmax⟩
  · unfold isComplete
    rw [List.all_eq_true]
    constructor
    · intro hall c hc hopt
      have hc' := hall c hc
      rw [hopt, Bool.false_or] at hc'
      exact (hfilled c hc).mp hc'
    · intro hall c hc
      cases hopt : c.isOptional with
      | true => rfl
      | false =>
        rw [Bool.false_or]
        exact (hfilled c hc).mpr (hall c hc hopt)

/-- The numbers in the fields of a form, by criterion key. -/
def typedScores (form : String → Option String) (key : String) : Option ℕ :=
  PyText.int (PyText.strip ((form s!"score_{key}").getD "").toList)

/-- What is read is what `parseForm` makes of the numbers typed. -/
theorem parseForm_of_readForm (hkeys : (crits.map (·.key)).Nodup) (h : readForm crits form = .ok out) :
    parseForm crits (typedScores form) = .ok out := by
  have hloop : ∀ turn : TeacherScores → Criterion → Except Raised TeacherScores,
      (∀ out c, typedScores form c.key = none → turn out c = .ok out) →
      (∀ out c (value : ℕ), typedScores form c.key = some value → (value : ℤ) ≤ c.max →
        turn out c = .ok (out ++ [(c.key, (value : ℤ))])) →
      ∀ (crits : List Criterion) (start : TeacherScores), (crits.map (·.key)).Nodup →
        (∀ c ∈ crits, c.key ∉ start.map (·.1)) → crits.foldlM (enterScore form) start = .ok out →
        crits.foldlM turn start = .ok out := by
    intro turn hempty hfilled crits
    induction crits with
    | nil =>
      intro start _ _ h
      cases h
      rfl
    | cons c crits ih =>
      intro start hnodup hfresh h
      obtain ⟨out₁, hfirst, hrest⟩ := Loops.foldlM_cons_ok.mp h
      rw [List.map_cons, List.nodup_cons] at hnodup
      rw [List.forall_mem_cons] at hfresh
      refine Loops.foldlM_cons_ok.mpr ⟨out₁, ?_, ?_⟩
      · rcases enterScore_ok.mp hfirst with ⟨hblank, rfl⟩ | ⟨value, hint, hmax, rfl⟩
        · have htyped : typedScores form c.key = none := by
            change PyText.int (scoreField form c) = none
            rw [hblank]
            rfl
          exact hempty _ c htyped
        · have htyped : typedScores form c.key = some value := hint
          rw [hfilled _ c value htyped hmax, Assoc.put_of_not_mem hfresh.1]
      · refine ih out₁ hnodup.2 (fun d hd hmem => ?_) hrest
        rcases enterScore_ok.mp hfirst with ⟨-, rfl⟩ | ⟨value, -, -, rfl⟩
        · exact hfresh.2 d hd hmem
        · rcases Assoc.mem_keys_put.mp hmem with hkey | hold
          · exact hnodup.1 (hkey ▸ List.mem_map_of_mem hd)
          · exact hfresh.2 d hd hold
  unfold parseForm
  refine hloop _ (fun out c htyped => ?_) (fun out c value htyped hmax => ?_) crits [] hkeys (fun _ _ => List.not_mem_nil) h
  · simp only [htyped]
  · simp only [htyped]
    rw [if_neg (not_lt.mpr hmax)]

end

/-- `parse_form` reads the form or raises `ScoreError` exactly when the first criterion whose field is neither empty
nor a number up to its maximum has no digits that a conversion refuses. -/
theorem score_form_total_iff (crits : List Criterion) (form : String → Option String) :
    ((∃ out, readForm crits form = .ok out ∧ ReadInFull crits form out) ∨
      ∃ message, readForm crits form = .error (.score message)) ↔
    ∀ pre c post, crits = pre ++ c :: post → (∀ d ∈ pre, Accepted form d) → ¬ Refused form c := by
  have hvalue : readForm crits form = .error .value ↔
      ∃ pre c post, crits = pre ++ c :: post ∧ (∀ d ∈ pre, Accepted form d) ∧ Refused form c := readForm_value
  constructor
  · intro h pre c post hsplit hpre hc
    have hraised := hvalue.mpr ⟨pre, c, post, hsplit, hpre, hc⟩
    rw [hraised] at h
    rcases h with ⟨out, hok, -⟩ | ⟨message, herr⟩
    · cases hok
    · cases herr
  · intro h
    cases hread : readForm crits form with
    | ok out => exact .inl ⟨out, rfl, readForm_full hread⟩
    | error e =>
      cases e with
      | score message => exact .inr ⟨message, rfl⟩
      | value =>
        obtain ⟨pre, c, post, hsplit, hpre, hc⟩ := hvalue.mp hread
        exact absurd hc (h pre c post hsplit hpre)

/-- A superscript two is a digit, and no number. -/
theorem superscript_escapes : ¬ ∀ (crits : List Criterion) (form : String → Option String),
    (∃ out, readForm crits form = .ok out ∧ ReadInFull crits form out) ∨
      ∃ message, readForm crits form = .error (.score message) := by
  intro hall
  have hraised : readForm [⟨"report", "Report", 5, false⟩] (fun _ => some "²") = .error .value := by decide +kernel
  rcases hall [⟨"report", "Report", 5, false⟩] fun _ => some "²" with ⟨out, hok, -⟩ | ⟨message, herr⟩
  · rw [hraised] at hok
    cases hok
  · rw [hraised] at herr
    cases herr

end SubmissionsChecker
