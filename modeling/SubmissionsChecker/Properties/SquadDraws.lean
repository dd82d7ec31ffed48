import SubmissionsChecker.Invariants.Draws

/-! What the members of a squad are drawn. Whatever was drawn fits the shared draw, in every reachable state and for
every order of starts; but the draw stays when a re-run pins another config, and a first attempt whose slice points
past that config's questions cannot be drawn. -/

namespace SubmissionsChecker

open Runs

/-- `_validate_quiz_questions` lets the quiz pass. -/
def QuizConfig.Supported (quiz : QuizConfig) : Prop := ∀ q ∈ quiz.questions, q.type ≠ .unsupported

def SubjectPluginConfig.Supported (cfg : SubjectPluginConfig) : Prop := ∀ a ∈ cfg.assignments, a.2.quiz.Supported

/-- Every config was accepted. -/
def Db.Validated (db : Db) : Prop := ∀ cfg ∈ db.pluginConfigs, cfg.Supported

section

variable {isTest : ℕ → Bool} {db db' : Db} {p p₀ : Portal} {ops : List PortalOp} {i t : ℕ} {squad : Squad}
  {quiz : QuizConfig} {rnd : Shuffles} {draw : SquadDraw}

/-! Accepted configs -/

theorem QuizConfig.Supported.isGradable_iff (h : quiz.Supported) (id : ℕ) :
    quiz.IsGradable id ↔ id < quiz.questions.length :=
  ⟨QuizConfig.IsGradable.lt, fun hlt => ⟨_, List.getElem?_eq_getElem hlt, h _ (List.getElem_mem hlt)⟩⟩

theorem SubjectPluginConfig.Supported.assignment {cfg : SubjectPluginConfig} (h : cfg.Supported) (code : Option String) :
    (cfg.assignment code).quiz.Supported := by
  unfold SubjectPluginConfig.assignment
  split
  · intro q hq
    cases hq
  · rename_i c
    cases hlookup : cfg.assignments.lookup c with
    | none =>
      intro q hq
      cases hq
    | some block => exact h (c, block) (Assoc.mem_of_lookup hlookup)

theorem supported_of_accepted {cfg : SubjectConfig} {code : String} {block : AssignmentBlock}
    (hcfg : cfg.validateQuizQuestions = .ok ()) (hblock : (code, block) ∈ cfg.assignments) : block.quiz.Supported := by
  intro q hq htype
  unfold SubjectConfig.validateQuizQuestions at hcfg
  split_ifs at hcfg with hbad
  refine hbad (List.any_eq_true.mpr ⟨_, hblock, List.any_eq_true.mpr ⟨q, hq, ?_⟩⟩)
  rw [htype]
  rfl

theorem supported_stored {cfg : SubjectConfig} (h : cfg.validateQuizQuestions = .ok ()) (x v : ℕ) :
    SubjectPluginConfig.Supported { subjectId := x, version := v, assignments := cfg.stored } := by
  rintro a ha
  obtain ⟨b, hb, rfl⟩ := List.mem_map.mp ha
  exact supported_of_accepted h hb

theorem applyConfig_validated {x : ℕ} {cfg old : SubjectConfig} (h : db.applyConfig x cfg old = .ok db')
    (hvalid : db.Validated) : db'.Validated := by
  have hquiz : cfg.validateQuizQuestions = .ok () := by
    unfold Db.applyConfig at h
    split_ifs at h
    cases hq : cfg.validateQuizQuestions with
    | error e =>
      rw [hq] at h
      cases h
    | ok u => rfl
  obtain ⟨-, v, hconfigs⟩ := applyConfig_keeps h
  intro cfg' hcfg'
  rw [hconfigs] at hcfg'
  rcases List.mem_append.mp hcfg' with hold | hnew
  · exact hvalid cfg' hold
  · rw [List.mem_singleton.mp hnew]
    exact supported_stored hquiz x v

/-! The draws in every reachable state of the portal -/

theorem Db.Regroups.keepsDrawn (h : db.Regroups db') (hlen : db.squads.length ≤ db'.squads.length) : db.KeepsDrawn db' := by
  have hrest := h.rest
  have hsubs : db'.submissions = db.submissions := by rw [hrest]
  refine ⟨by rw [hrest], sameDraws_of_submissions hsubs, fun c i block hb => ?_, fun i sub' hs => ?_, hsubs ▸ le_rfl, hlen⟩
  · obtain ⟨sub, asg, cfg, hs, hasg, hcfg, hcode, hblock⟩ := blockIn_some.mp hb
    refine blockIn_some.mpr ⟨sub, asg, cfg, ?_, ?_, ?_, hcode, hblock⟩
    · rw [hsubs, hs]
    · rw [hrest]
      exact hasg
    · rw [hrest]
      exact hcfg
  · rw [hsubs] at hs
    exact .inl ⟨sub', hs, rfl⟩

theorem applyConfig_keepsDrawn {x : ℕ} {cfg old : SubjectConfig} (h : db.applyConfig x cfg old = .ok db') :
    db.KeepsDrawn db' := by
  have hconf := configures_applyConfig h
  obtain ⟨hcodes, v, hconfigs⟩ := applyConfig_keeps h
  refine ⟨by rw [hconf.rest], sameDraws_of_submissions hconf.submissions, fun c i block hb => ?_, fun i sub' hs => ?_,
    hconf.submissions ▸ le_rfl, hconf.squads ▸ le_rfl⟩
  · obtain ⟨sub, asg, cfg', hs, hasg, hcfg, hcode, hblock⟩ := blockIn_some.mp hb
    obtain ⟨row, hrow, hasg⟩ := Option.bind_eq_some_iff.mp hasg
    obtain ⟨row', hrow', -, hrowasg⟩ := hconf.rows _ row hrow
    obtain ⟨asg', hasg', hcode'⟩ := hcodes _ asg hasg
    refine blockIn_some.mpr ⟨sub, asg', cfg', ?_, Option.bind_eq_some_iff.mpr ⟨row', hrow', ?_⟩, ?_, ?_, ?_⟩
    · rw [hconf.submissions, hs]
    · rw [hrowasg, hasg']
    · rw [hconfigs]
      exact Table.getElem?_append_old hcfg
    · rw [hcode', hcode]
    · rw [hcode', hblock]
  · rw [hconf.submissions] at hs
    exact .inl ⟨sub', hs, rfl⟩

/-- In no state of the portal is a member given anything but their part of the draw. -/
structure Portal.DrawsOk (p : Portal) : Prop where
  draws : p.db.DrawsOk
  valid : p.db.Validated

theorem Portal.DrawsOk.step (ok : p.DrawsOk) (op : PortalOp) : (p.step isTest op).DrawsOk := by
  cases op with
  | request op =>
    refine ⟨ok.draws.step op, ?_⟩
    change (p.db.step op).Validated
    unfold Db.Validated
    rw [(step_spec p.db op).evolves.pluginConfigs]
    exact ok.valid
  | squad op =>
    have hdone := squadStep_spec isTest p.db op
    refine ⟨ok.draws.keep (hdone.regroups.keepsDrawn hdone.keepsMembers.squads) (hdone.keepsMembers.nodup ok.draws.members), ?_⟩
    change (p.db.squadStep isTest op).Validated
    unfold Db.Validated
    rw [hdone.regroups.rest]
    exact ok.valid
  | apply x cfg =>
    unfold Portal.step
    dsimp only
    split
    · rename_i db' h
      exact ⟨ok.draws.keep (applyConfig_keepsDrawn h) ((configures_applyConfig h).squads ▸ ok.draws.members),
        applyConfig_validated h ok.valid⟩
    · exact ok

theorem Portal.Fresh.drawsOk (h : p.Fresh) (hvalid : p.db.Validated) : p.DrawsOk := by
  refine ⟨⟨?_, ?_, ?_, fun i draw hdraw => ?_, fun k a t squad ha => ?_⟩, hvalid⟩
  · rw [h.squads]
    exact fun s hs => absurd hs List.not_mem_nil
  · rw [h.submissions]
    exact fun sub hsub => absurd hsub List.not_mem_nil
  · rw [h.quizAttempts]
    exact fun a ha => absurd ha List.not_mem_nil
  · rw [Db.drawOf, h.submissions] at hdraw
    cases hdraw
  · rw [h.quizAttempts] at ha
    cases ha

/-! The questions of one start -/

theorem supported_block {code : Option String} {cfg : SubjectPluginConfig} {block : PluginAssignment}
    (hvalid : db.Validated) (hcfg : cfg ∈ db.pluginConfigs) (hblock : cfg.assignment code = block) (id : ℕ) :
    block.quiz.IsGradable id ↔ id < block.quiz.questions.length := by
  rw [← hblock]
  exact ((hvalid cfg hcfg).assignment code).isGradable_iff id

theorem pinnedBlock_gradable {block : PluginAssignment} (hvalid : db.Validated) (hpinned : db.pinnedBlock i = some block)
    (id : ℕ) : block.quiz.IsGradable id ↔ id < block.quiz.questions.length := by
  unfold Db.pinnedBlock at hpinned
  split at hpinned
  · cases hpinned
  · split at hpinned
    · rename_i cfg asg hcfg hasg
      obtain ⟨c, -, hcfg⟩ := Option.bind_eq_some_iff.mp hcfg
      obtain ⟨code, -, hblock⟩ := Option.map_eq_some_iff.mp hpinned
      exact supported_block hvalid (List.mem_of_getElem? hcfg) hblock id
    · cases hpinned

theorem quizOf_gradable {a : QuizAttempt} {quiz : QuizConfig} (hvalid : db.Validated) (hquiz : db.quizOf a = some quiz)
    (id : ℕ) : quiz.IsGradable id ↔ id < quiz.questions.length := by
  obtain ⟨block, hblock, rfl⟩ := Option.map_eq_some_iff.mp hquiz
  obtain ⟨c, -, hblock⟩ := Option.bind_eq_some_iff.mp hblock
  obtain ⟨-, asg, cfg, -, -, hcfg, -, hblock⟩ := blockIn_some.mp hblock
  exact supported_block hvalid (List.mem_of_getElem? hcfg) hblock id

/-- What a member is drawn lies in the config unless it is the slice of a draw that does not fit it. -/
theorem drawIds_gradable_iff (hquiz : ∀ id, quiz.IsGradable id ↔ id < quiz.questions.length) (hmembers : squad.members.Nodup)
    (h : db.squadDraw i squad quiz rnd = .ok (db', draw)) (ht : t ∈ draw.memberOrder) (retry : Bool) :
    (∀ id ∈ (draw.drawIds quiz t retry rnd).2, quiz.IsGradable id) ↔
      retry = true ∨ ∀ stored, db.drawOf i = some stored → ∀ id ∈ stored.sliceOf t, id < quiz.questions.length := by
  cases retry with
  | true =>
    refine iff_of_true (fun id hid => ?_) (.inl rfl)
    exact retry_isGradable.mp (isGradable_of_selected hid)
  | false =>
    have hslice : (∀ id ∈ (draw.drawIds quiz t false rnd).2, quiz.IsGradable id) ↔
        ∀ id ∈ draw.sliceOf t, id < quiz.questions.length := by
      have hperm := drawIds_perm draw quiz t rnd
      constructor
      · exact fun hall id hid => (hquiz id).mp (hall id (hperm.symm.subset hid))
      · exact fun hall id hid => (hquiz id).mpr (hall id (hperm.subset hid))
    rw [hslice, or_iff_right Bool.false_ne_true]
    rcases squadDraw_ok h with ⟨hstored, -⟩ | ⟨hnone, hsome, -, hdraw⟩
    · rw [hstored]
      exact ⟨fun hall stored heq => Option.some_inj.mp heq ▸ hall, fun hall => hall draw rfl⟩
    · refine iff_of_true (fun id hid => ?_) fun stored heq => ?_
      · have hshared : draw.Shared := squadDraw_shared hmembers (fun stored heq => by rw [hnone] at heq; cases heq) h
        have hin := (hshared.covers id).mpr ⟨t, ht, hid⟩
        rw [hdraw] at hin
        exact (isGradable_of_selected hin).lt
      · rw [hnone] at heq
        cases heq

/-- The start goes through exactly when the questions drawn are there. -/
theorem drawForMember_ok_iff (hquiz : ∀ id, quiz.IsGradable id ↔ id < quiz.questions.length)
    (h : db.squadDraw i squad quiz rnd = .ok (db', draw)) (ht : t ∈ draw.memberOrder) (retry : Bool) :
    (∃ questions, db.drawForMember i squad quiz t retry rnd = .ok (db', questions)) ↔
      ∀ id ∈ (draw.drawIds quiz t retry rnd).2, quiz.IsGradable id := by
  have hlen : (draw.drawIds quiz t retry rnd).1.questions.length = quiz.questions.length := by
    cases retry with
    | false => rfl
    | true =>
      change (retryConfig quiz (draw.sliceOf t)).questions.length = _
      unfold retryConfig
      rw [List.length_map, List.length_zipIdx]
  simp only [hquiz]
  constructor
  · rintro ⟨questions, hok⟩
    obtain ⟨draw', hdraw', -, hrange, -⟩ := drawForMember_ok hok
    rw [h, Except.ok.injEq, Prod.mk.injEq] at hdraw'
    obtain ⟨-, rfl⟩ := hdraw'
    exact fun id hid => hlen ▸ hrange id hid
  · intro hall
    refine ⟨snapshotQuestions (draw.drawIds quiz t retry rnd).1 (draw.drawIds quiz t retry rnd).2, ?_⟩
    unfold Db.drawForMember
    rw [h]
    dsimp only [bind, Except.bind]
    rw [if_neg (not_not.mpr ht), if_pos (List.all_eq_true.mpr fun id hid => decide_eq_true (hlen ▸ hall id hid))]

/-- What the squad of submission `i` has been drawn so far. -/
structure Db.SquadDrawn (db : Db) (i : ℕ) : Prop where
  shared : ∀ draw, db.drawOf i = some draw → draw.Shared
  drawn : ∀ (k : ℕ) a t, db.quizAttempts[k]? = some a → a.submissionId = i → a.studentId = some t →
    ∃ draw quiz, db.drawOf i = some draw ∧ db.quizOf a = some quiz ∧
      draw.Gives quiz t (db.IsFirst k i t) (a.questionsSnapshot.map (·.id)) ∧
      ∀ q ∈ a.questionsSnapshot, quiz.IsGradable q.id

/-- Every attempt of a squad is what the shared draw gives the member. The next one can be drawn from the config pinned
by then exactly when it is a retry, or the member's slice of the stored draw points at questions of that config. -/
theorem squad_draws (hfresh : p₀.Fresh) (hvalid : p₀.db.Validated) (hrun : Run (Portal.step isTest) Any p₀ ops p)
    (hsquad : p.db.squadForSubmission i = some squad) :
    p.db.SquadDrawn i ∧ ∀ block, p.db.pinnedBlock i = some block →
      ∀ rnd db' draw, p.db.squadDraw i squad block.quiz rnd = .ok (db', draw) → ∀ t ∈ draw.memberOrder, ∀ retry,
        ((∀ id ∈ (draw.drawIds block.quiz t retry rnd).2, block.quiz.IsGradable id) ↔
          retry = true ∨
            ∀ stored, p.db.drawOf i = some stored → ∀ id ∈ stored.sliceOf t, id < block.quiz.questions.length) ∧
        ((∃ questions, p.db.drawForMember i squad block.quiz t retry rnd = .ok (db', questions)) ↔
          ∀ id ∈ (draw.drawIds block.quiz t retry rnd).2, block.quiz.IsGradable id) := by
  have ok : p.DrawsOk := hrun.invariant (hfresh.drawsOk hvalid) fun _ op ok _ => ok.step op
  have hmembers : squad.members.Nodup := by
    obtain ⟨q, -, hq⟩ := Option.bind_eq_some_iff.mp hsquad
    exact ok.draws.members squad (List.mem_of_getElem? hq)
  refine ⟨⟨ok.draws.shared i, ?_⟩, fun block hblock rnd db' draw hdraw t ht retry => ?_⟩
  · rintro k a t ha rfl hst
    obtain ⟨draw, quiz, hdraw, hquiz, hgives⟩ := ok.draws.drawn k a t squad ha hst hsquad
    refine ⟨draw, quiz, hdraw, hquiz, hgives, fun q hq => ?_⟩
    exact (quizOf_gradable ok.valid hquiz q.id).mpr (hgives.indexed q.id (List.mem_map_of_mem hq))
  · have hquiz := pinnedBlock_gradable ok.valid hblock
    exact ⟨drawIds_gradable_iff hquiz hmembers hdraw ht retry, drawForMember_ok_iff hquiz hdraw ht retry⟩

end

/-! A shorter config -/

/-- A quiz with `n` questions and one attempt. -/
def quizOnce (n : ℕ) : QuizConfig :=
  { questions := List.replicate n {}, shuffleQuestions := some false, maxQuizAttempts := some 1 }

/-- The quiz after the checks, in a subject with squads of two. -/
def quizAfterChecks (n : ℕ) : SubjectConfig where
  squads := some { maxAllowedSize := some 2 }
  assignments := [("A", { config := { reviewMode := some .testsThenQuiz }, quiz := quizOnce n })]
  codes := List.nodup_singleton _

/-- Two students of the subject. -/
def quizForTwo : Portal where
  db := { oneSubject { reviewMode := some .testsThenQuiz, quiz := quizOnce 4 } {} [] [0, 1] with
    subjects := [{ squadMaxSize := some 2 }] }
  stored := fun _ => quizAfterChecks 4

theorem quizForTwo_fresh : quizForTwo.Fresh := by
  have hstart : (oneSubject { reviewMode := some .testsThenQuiz, quiz := quizOnce 4 } {} [] [0, 1]).Start :=
    oneSubject_start (by decide) List.Pairwise.nil
  exact ⟨rfl, rfl, hstart.unique, rfl, rfl⟩

theorem quizForTwo_validated : quizForTwo.db.Validated := by
  unfold Db.Validated SubjectPluginConfig.Supported QuizConfig.Supported
  decide +kernel

/-- They form a squad and upload, and their work passes the checks. -/
def sentToTwo : List PortalOp :=
  [.squad (.assign 0 [0, 1]), .request (.upload 0 0 true 1 .raises),
    .request (.processMessage 0 (.tested true 9 10) .providerError)]

/-- The first member starts the quiz. -/
def firstStarts : List PortalOp := sentToTwo ++ [.request (.startQuiz 0 0 {})]

/-- That attempt fails the submission. The checks are run again under a config with one question. -/
def rerunShorter : List PortalOp :=
  firstStarts ++ [.request (.submitQuiz 0 0 (fun _ => false) false), .apply 0 (quizAfterChecks 1),
    .request (.rerunChecks 0), .request (.processMessage 1 (.tested true 9 10) .providerError)]

/-- The slice of the other member points past the one question. -/
theorem drawn_past_config : ¬ ∀ (isTest : ℕ → Bool) (p₀ p : Portal) (ops : List PortalOp) (i : ℕ) (squad : Squad)
    (block : PluginAssignment) (rnd : Shuffles) (db' : Db) (draw : SquadDraw) (t : ℕ) (retry : Bool),
    p₀.Fresh → p₀.db.Validated → Run (Portal.step isTest) Any p₀ ops p → p.db.squadForSubmission i = some squad →
    p.db.pinnedBlock i = some block → p.db.squadDraw i squad block.quiz rnd = .ok (db', draw) → t ∈ draw.memberOrder →
    ∀ id ∈ (draw.drawIds block.quiz t retry rnd).2, block.quiz.IsGradable id := by
  intro hall
  have h := hall (fun _ => false) quizForTwo _ rerunShorter 0 { subjectId := 0, members := [0, 1], lockedAt := some 0 }
    { reviewMode := some .testsThenQuiz, quiz := quizOnce 1 } {} _
    { questionIds := [0, 1, 2, 3], slices := [[0, 2], [1, 3]], memberOrder := [0, 1] } 1 false quizForTwo_fresh
    quizForTwo_validated (run_foldl _) (by decide +kernel) (by decide +kernel) (squadDraw_stored (by decide +kernel))
    (by decide)
  exact absurd (h 1 (by decide)) (by decide)

/-- Under the config of the draw the other member gets the second and the last question. -/
theorem drawn_in_config :
    let p := firstStarts.foldl (Portal.step fun _ => false) quizForTwo
    p.db.SquadDrawn 0 ∧ ∃ questions, p.db.drawForMember 0 { subjectId := 0, members := [0, 1], lockedAt := some 0 }
      (quizOnce 4) 1 false {} = .ok (p.db, questions) := by
  have hrun : Run (Portal.step fun _ => false) Any quizForTwo firstStarts
      (firstStarts.foldl (Portal.step fun _ => false) quizForTwo) := run_foldl _
  have hsquad : (firstStarts.foldl (Portal.step fun _ => false) quizForTwo).db.squadForSubmission 0 =
      some { subjectId := 0, members := [0, 1], lockedAt := some 0 } := by decide +kernel
  have h := squad_draws quizForTwo_fresh quizForTwo_validated hrun hsquad
  have hstored : (firstStarts.foldl (Portal.step fun _ => false) quizForTwo).db.drawOf 0 =
      some { questionIds := [0, 1, 2, 3], slices := [[0, 2], [1, 3]], memberOrder := [0, 1] } := by decide +kernel
  obtain ⟨hids, hstart⟩ := h.2 { reviewMode := some .testsThenQuiz, quiz := quizOnce 4 } (by decide +kernel) {} _ _
    (squadDraw_stored hstored) 1 (by decide) false
  refine ⟨h.1, hstart.mpr (hids.mpr (.inr fun stored hs => ?_))⟩
  rw [hstored, Option.some_inj] at hs
  subst hs
  decide

end SubmissionsChecker
