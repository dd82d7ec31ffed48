import SubmissionsChecker.Invariants.Scopes
import SubmissionsChecker.Invariants.NewSubmissions
import SubmissionsChecker.Properties.SquadFormation

/-! The work of a locked squad through config applies. What a member opens or uploads is always
what every member finds, but it is the squad's only while the subject has squads. -/

namespace SubmissionsChecker

open Runs

/-- The row a request opens a submission on. -/
def Op.opensOn : Op → Option ℕ
  | .upload saId _ _ _ _ => some saId
  | .startQuiz saId _ _ => some saId
  | _ => none

/-- What the tables' constraints and the clock guarantee. -/
structure Db.Consistent (db : Db) : Prop where
  formed : db.Formed
  unique : db.UniqueRows
  dates : ∀ (i : ℕ) sub, db.submissions[i]? = some sub → sub.createdAt ≤ db.now

/-- Submission `n` is squad `q`'s, and the one its members find for the assignment. -/
structure Db.SharedWork (db : Db) (q : ℕ) (members : List ℕ) (subjectId asgId n : ℕ) : Prop where
  squad : (db.submissions[n]?).bind (·.squadId) = some q
  found : ∀ m ∈ members, (db.latestSubmissionFor m subjectId asgId).2 = some n

/-- A submission made on the row, for the squad that an upload finds. -/
structure Db.MadeOn (db : Db) (saId : ℕ) (sub : Submission) : Prop where
  made : ∃ sa asg refuse, db.studentsAssignments[saId]? = some sa ∧
    db.subjectsAssignments[sa.subjectsAssignmentId]? = some asg ∧
    db.squadForUpload asg.subjectId sa.studentId refuse = .ok sub.squadId
  row : sub.studentsAssignmentId = saId
  created : sub.createdAt = db.now

section

variable {db db' : Db} {saId : ℕ} {sub : Submission}

/-! The submission a step adds -/

theorem Adds.madeOn {db₁ : Db} (ha : Adds db saId sub db₁) (h : Evolves (db₁.addSubmission sub) db') :
    ∃ sub', db'.submissions[db.submissions.length]? = some sub' ∧ db.MadeOn saId sub' := by
  obtain ⟨sa, asg, squad, refuse, hsa, hasg, hsquad, hrow, hq, hcreated, -⟩ := ha.row
  have hget := addSubmission_get db₁ sub
  rw [ha.same] at hget
  obtain ⟨sub', hsub', hrow', -, hq', hcreated'⟩ := h.submission hget
  exact ⟨sub', hsub', ⟨sa, asg, refuse, hsa, hasg, by rw [hq', hq]; exact hsquad⟩, hrow'.trans hrow,
    hcreated'.trans hcreated⟩

theorem Uploaded.madeOn {check : CheckResult} (h : Uploaded db saId check db') :
    ∃ sub', db'.submissions[db.submissions.length]? = some sub' ∧ db.MadeOn saId sub' := by
  cases h with
  | queued ha => exact ha.madeOn (within_addMessage _ db.submissions.length _).evolves
  | checked ha _ _ _ hc => exact ha.madeOn hc.finalizes.within.evolves

theorem Started.madeOn {t : ℕ} (h : Started db saId t db')
    (hnew : db'.submissions.length ≠ db.submissions.length) :
    db'.submissions.length = db.submissions.length + 1 ∧
      ∃ sub', db'.submissions[db.submissions.length]? = some sub' ∧ db.MadeOn saId sub' := by
  have hl := within_latestSubmission .grades db saId
  cases h with
  | looked => exact absurd hl.submissions_length hnew
  | latest hs => rw [hs.submissions_length] at hnew; exact absurd hl.submissions_length hnew
  | opened ho hs =>
    rw [hs.submissions_length] at hnew ⊢
    cases ho with
    | reused => rw [(within_latestSubmission .grades _ saId).submissions_length] at hnew; exact absurd hl.submissions_length hnew
    | @opened sub db₁ ha =>
      have hlen : (db₁.addSubmission sub).submissions.length = db₁.submissions.length + 1 := by simp
      rw [Db.setSubmission_submissions, List.length_modify, hlen, ha.same, hl.submissions_length]
      obtain ⟨sub', hsub', ⟨sa, asg, refuse, hsa, hasg, hsquad⟩, hrow, hcreated⟩ := ha.madeOn
        (Evolves.before_set hs.evolves fun _ => rfl)
      rw [hl.submissions_length] at hsub'
      refine ⟨rfl, sub', hsub', ?_, hrow, hcreated.trans hl.now⟩
      -- the look-up before it found the student's row, so it created none here
      cases hold : db.studentsAssignments[saId]? with
      | none =>
        have hnothing : (db.latestSubmission saId).1 = db := by simp only [Db.latestSubmission, hold]
        rw [hnothing, hold] at hsa
        cases hsa
      | some sa₀ =>
        obtain ⟨sa₁, hsa₁, hst, hasgId⟩ := hl.rows saId sa₀ hold
        rw [hsa, Option.some_inj] at hsa₁
        subst hsa₁
        refine ⟨sa₀, asg, refuse, rfl, by rw [← hasgId, ← hl.subjectsAssignments]; exact hasg, ?_⟩
        rw [← hst, ← squadForUpload_within hl]
        exact hsquad

/-- A step adds at most one submission, and only an upload or the start of a quiz does. -/
theorem step_adds (db : Db) (op : Op) (hnew : (db.step op).submissions.length ≠ db.submissions.length) :
    (db.step op).submissions.length = db.submissions.length + 1 ∧
      ∃ saId sub, op.opensOn = some saId ∧ (db.step op).submissions[db.submissions.length]? = some sub ∧
        db.MadeOn saId sub := by
  have hspec := step_spec db op
  generalize db.step op = db' at hnew hspec
  cases hspec with
  | same => exact absurd rfl hnew
  | upload h =>
    obtain ⟨sub, hsub, hmade⟩ := h.madeOn
    exact ⟨h.submissions_length, _, sub, rfl, hsub, hmade⟩
  | check _ h => exact absurd (by rw [Db.setMessage_submissions, h.finalizes.within.submissions_length]) hnew
  | aiReview _ h => exact absurd (by rw [Db.setMessage_submissions, h.finalizes.within.submissions_length]) hnew
  | retry => exact absurd rfl hnew
  | skip => exact absurd (by simp) hnew
  | review h =>
    refine absurd ?_ hnew
    cases h with
    | approved => rw [(within_finalizeGrade _ _).submissions_length]; simp
    | sentQuiz => simp
    | rejected => simp
  | rerun h => cases h; exact absurd (by simp) hnew
  | start h =>
    obtain ⟨hlen, sub, hsub, hmade⟩ := h.madeOn hnew
    exact ⟨hlen, _, sub, rfl, hsub, hmade⟩
  | quiz _ h =>
    refine absurd ?_ hnew
    cases h with
    | same => rfl
    | edited => rfl
    | finished _ _ _ _ _ hfin => exact hfin.within.submissions_length
  | report => exact absurd rfl hnew
  | ruled => exact absurd (by rw [(within_advancedAll _ _).submissions_length, ruledDb_submissions]) hnew
  | closed => exact absurd rfl hnew
  | grant h => cases h; exact absurd (by simp) hnew
  | scores h =>
    refine absurd ?_ hnew
    cases h with
    | written w => exact w.submissions_length
    | completed w => rw [(within_finalizeGrade _ _).submissions_length]; simp [w.submissions_length]
    | regraded w => rw [(within_finalizeGrade _ _).submissions_length, w.submissions_length]
  | unenroll => exact absurd rfl hnew
  | tick => exact absurd rfl hnew

/-! What the members find -/

/-- The row added last is the newest. -/
theorem newestOf_added {scope : List ℕ} {n : ℕ} (hlen : db.submissions.length = n + 1)
    (hsub : db.submissions[n]? = some sub) (hin : sub.studentsAssignmentId ∈ scope)
    (hdates : ∀ (i : ℕ) s, db.submissions[i]? = some s → s.createdAt ≤ sub.createdAt) :
    db.newestOf (db.submissionsIn scope) = some n := by
  have hrows : db.submissions = db.submissions.take n ++ [sub] := by
    obtain ⟨hn, hget⟩ := List.getElem?_eq_some_iff.mp hsub
    rw [← hget, List.take_append_getElem hn, List.take_of_length_le hlen.le]
  have hids : db.submissionsIn scope =
      Table.idsWhere (fun s => scope.contains s.studentsAssignmentId) (db.submissions.take n) ++ [n] := by
    unfold Db.submissionsIn
    conv_lhs => rw [hrows]
    rw [Table.idsWhere_concat, if_pos (by simpa using hin), List.length_take, Nat.min_eq_left (by omega)]
  rw [hids, Db.newestOf, List.foldl_append, List.foldl_cons, List.foldl_nil]
  split
  · rfl
  · rename_i j hj
    rw [if_pos]
    rw [hsub]
    cases hs : db.submissions[j]? with
    | none => exact Nat.zero_le _
    | some s => exact hdates j s hs

/-- A member of a locked squad finds what is newest on any member's row. -/
theorem latestSubmissionFor_member {q x asgId n m : ℕ} {s : Squad} {row : StudentAssignment} (hone : db.OneSquad)
    (hunique : db.UniqueRows) (hs : db.squads[q]? = some s) (hx : s.subjectId = x)
    (hl : s.lockedAt.isSome = true) (hm : m ∈ s.members) (hlen : db.submissions.length = n + 1)
    (hsub : db.submissions[n]? = some sub) (hrow : db.studentsAssignments[sub.studentsAssignmentId]? = some row)
    (hmember : row.studentId ∈ s.members) (hasgId : row.subjectsAssignmentId = asgId)
    (hdates : ∀ (i : ℕ) s, db.submissions[i]? = some s → s.createdAt ≤ sub.createdAt) :
    (db.latestSubmissionFor m x asgId).2 = some n := by
  have hactive := activeSquad_of_member hone hs hx hm hl
  unfold Db.latestSubmissionFor Db.scopeSaIds
  simp only [hactive, Option.bind_some, hs]
  have hsame := memberSaIds_submissions s.members asgId db
  have hin := mem_memberSaIds s.members asgId db row hunique hrow hmember hasgId
  refine newestOf_added (by rw [hsame, hlen]) (by rw [hsame, hsub]) hin fun i s₁ hs₁ => ?_
  rw [hsame] at hs₁
  exact hdates i s₁ hs₁

end

section

variable {isTest : ℕ → Bool} {p₀ p : Portal} {ops : List PortalOp}

theorem Db.Consistent.request {db : Db} (ok : db.Consistent) (op : Op) : (db.step op).Consistent := by
  have hev := evolves_step db op
  refine ⟨(settles_step db op).formed ok.formed, hev.unique ok.unique, fun i sub' hs' => ?_⟩
  cases hs : db.submissions[i]? with
  | some sub =>
    obtain ⟨sub₁, hsub₁, -, -, -, hcreated⟩ := hev.submission hs
    rw [hs', Option.some_inj] at hsub₁
    rw [hsub₁, hcreated]
    exact (ok.dates i sub hs).trans hev.now
  | none =>
    have hi : i < (db.step op).submissions.length := (List.getElem?_eq_some_iff.mp hs').1
    have hout := List.getElem?_eq_none_iff.mp hs
    obtain ⟨hlen, saId, sub, -, hsub, hmade⟩ := step_adds db op (by omega)
    obtain rfl : i = db.submissions.length := by omega
    rw [hs', Option.some_inj] at hsub
    rw [hsub, hmade.created]
    exact hev.now

theorem Db.Consistent.step (ok : p.db.Consistent) (op : PortalOp) : (p.step isTest op).db.Consistent := by
  cases op with
  | request op => exact ok.request op
  | squad op =>
    have hdone := squadStep_spec isTest p.db op
    change (p.db.squadStep isTest op).Consistent
    have hrest := hdone.regroups.rest
    refine ⟨hdone.formed ok.formed, ?_, ?_⟩
    · rw [hrest]
      exact ok.unique
    · rw [hrest]
      exact ok.dates
  | apply x cfg =>
    unfold Portal.step
    dsimp only
    split
    · rename_i db' h
      have hconf := configures_applyConfig h
      refine ⟨hconf.settles.formed ok.formed, hconf.unique ok.unique, fun i sub hs => ?_⟩
      change db'.submissions[i]? = some sub at hs
      rw [hconf.submissions] at hs
      change sub.createdAt ≤ db'.now
      rw [hconf.now]
      exact ok.dates i sub hs
    · exact ok

/-- What a member of a locked squad makes is what all members find. It is the squad's exactly
when the config in force still gives the subject squads. -/
theorem squad_work_stays {op : Op} {saId q : ℕ} {sa : StudentAssignment} {asg : SubjectsAssignment} {s : Squad}
    (hstart : p₀.db.Consistent) (h : Run (Portal.step isTest) Any p₀ ops p) (hop : op.opensOn = some saId)
    (hsa : p.db.studentsAssignments[saId]? = some sa)
    (hasg : p.db.subjectsAssignments[sa.subjectsAssignmentId]? = some asg) (hs : p.db.squads[q]? = some s)
    (hsubject : s.subjectId = asg.subjectId) (hmember : sa.studentId ∈ s.members) (hl : s.lockedAt.isSome = true)
    (hnew : (p.db.step op).submissions.length ≠ p.db.submissions.length) :
    (p.db.step op).SharedWork q s.members asg.subjectId sa.subjectsAssignmentId p.db.submissions.length ↔
      (p.db.maxSize asg.subjectId).isSome = true := by
  have ok : p.db.Consistent :=
    h.invariant (I := fun p => p.db.Consistent) hstart fun p op (ok : p.db.Consistent) _ => ok.step op
  have hone : p.db.OneSquad := ok.formed.oneSquad
  obtain ⟨hlen, saId', sub, hop', hsub, ⟨sa', asg', refuse, hsa', hasg', hsquad⟩, hrowId, hcreated⟩ :=
    step_adds p.db op hnew
  rw [hop, Option.some_inj] at hop'
  subst hop'
  rw [hsa, Option.some_inj] at hsa'
  subst hsa'
  rw [hasg, Option.some_inj] at hasg'
  subst hasg'
  have hfound : ∀ m ∈ s.members, ((p.db.step op).latestSubmissionFor m asg.subjectId sa.subjectsAssignmentId).2 =
      some p.db.submissions.length := by
    intro m hm
    have hev := evolves_step p.db op
    have hlocked : ∃ s', (p.step isTest (.request op)).db.squads[q]? = some s' ∧ s'.lockedAt.isSome = true ∧
        s'.subjectId = s.subjectId ∧ s'.members = s.members := locked_step hs hl
    obtain ⟨s', hs', hl', hx', hm'⟩ := hlocked
    obtain ⟨row, hrow, hst, hrowasg⟩ := hev.rows saId sa hsa
    refine latestSubmissionFor_member ((settles_step p.db op).formed ok.formed).oneSquad (hev.unique ok.unique) hs'
      (hx'.trans hsubject) hl' (hm' ▸ hm) hlen hsub (by rw [hrowId]; exact hrow) (by rw [hst, hm']; exact hmember)
      hrowasg fun i s₁ hs₁ => ?_
    rw [hcreated]
    cases hold : p.db.submissions[i]? with
    | some s₀ =>
      obtain ⟨s₂, hs₂, -, -, -, hsame⟩ := hev.submission hold
      rw [hs₁, Option.some_inj] at hs₂
      rw [hs₂, hsame]
      exact ok.dates i s₀ hold
    | none =>
      have hi : i < (p.db.step op).submissions.length := (List.getElem?_eq_some_iff.mp hs₁).1
      have hout := List.getElem?_eq_none_iff.mp hold
      obtain rfl : i = p.db.submissions.length := by omega
      rw [hs₁, Option.some_inj] at hsub
      rw [hsub, hcreated]
  have hown : p.db.squadOf asg.subjectId sa.studentId = some q := by
    cases hfind : p.db.squadOf asg.subjectId sa.studentId with
    | none =>
      rw [← hsubject] at hfind
      exact absurd hmember (not_mem_of_squadOf_none hfind hs)
    | some q' =>
      obtain ⟨s', hs', hp⟩ := Table.findId_some hfind
      simp only [Bool.and_eq_true, beq_iff_eq, List.contains_iff_mem] at hp
      rw [hone q' q s' s sa.studentId hs' hs (by rw [hp.1, hsubject]) hp.2 hmember]
  unfold Db.squadForUpload at hsquad
  constructor
  · rintro ⟨hq, -⟩
    rw [hsub, Option.bind_some] at hq
    rw [hq] at hsquad
    split at hsquad
    · cases hsquad
    · rename_i subject hsubj
      rw [Db.maxSize, hsubj, Option.bind_some]
      split_ifs at hsquad with hoff hwait
      · cases hsquad
      · cases hsize : subject.squadMaxSize with
        | none => rw [hsize] at hoff; exact absurd rfl hoff
        | some size => rfl
  · intro hsize
    refine ⟨?_, hfound⟩
    rw [hsub, Option.bind_some]
    split at hsquad
    · rename_i hnone
      rw [Db.maxSize, hnone] at hsize
      cases hsize
    · rename_i subject hsubj
      rw [Db.maxSize, hsubj, Option.bind_some] at hsize
      split_ifs at hsquad with hoff hwait
      · rw [Option.isNone_iff_eq_none.mp hoff] at hsize
        cases hsize
      · rw [Except.ok.injEq] at hsquad
        rw [← hsquad, hown]

end

/-! A config without squads -/

/-- Two students of a subject with squads and one assignment. -/
def twoStudents : Portal where
  db := oneSubject {} {} [] [0, 1]
  stored := fun _ => { squads := some ⟨some 6⟩, assignments := [("A", {})] }

/-- They form a squad, and its first upload locks it. -/
def squadOfTwo : List PortalOp :=
  [.squad (.create 0 0 [1]), .squad (.accept 0 1 0), .request (.upload 0 0 true 1 .raises)]

/-- The next config has no `squads` block. -/
def withoutSquads : PortalOp := .apply 0 { assignments := [("A", {})] }

theorem twoStudents_consistent : twoStudents.db.Consistent where
  formed :=
    { oneSquad := fun q q' s s' t hs => by simp [twoStudents, oneSubject] at hs
      settled := fun q s hs => by simp [twoStudents, oneSubject] at hs
      invited := fun inv hinv => by simp [twoStudents, oneSubject] at hinv }
  unique := (oneSubject_start (by decide) (by simp)).unique
  dates := fun i sub hs => by simp [twoStudents, oneSubject] at hs

/-- A member's upload after that is nobody's but theirs. -/
theorem squad_work_lost : ¬ ∀ (isTest : ℕ → Bool) (p₀ p : Portal) (ops : List PortalOp) (op : Op) (saId q : ℕ)
    (sa : StudentAssignment) (asg : SubjectsAssignment) (s : Squad), p₀.db.Consistent →
    Run (Portal.step isTest) Any p₀ ops p → op.opensOn = some saId → p.db.studentsAssignments[saId]? = some sa →
    p.db.subjectsAssignments[sa.subjectsAssignmentId]? = some asg → p.db.squads[q]? = some s →
    s.subjectId = asg.subjectId → sa.studentId ∈ s.members → s.lockedAt.isSome = true →
    (p.db.step op).submissions.length ≠ p.db.submissions.length →
    (p.db.step op).SharedWork q s.members asg.subjectId sa.subjectsAssignmentId p.db.submissions.length := by
  intro hall
  have h := hall (fun _ => false) twoStudents _ (squadOfTwo ++ [withoutSquads]) (.upload 0 0 true 1 .raises) 0 0
    { studentId := 0, subjectsAssignmentId := 0 } { subjectId := 0, code := some "A" }
    { subjectId := 0, members := [0, 1], lockedAt := some 0 } twoStudents_consistent (run_foldl _) rfl
    (by decide +kernel) (by decide +kernel) (by decide +kernel) rfl (by decide) rfl (by decide +kernel)
  exact absurd h.squad (by decide +kernel)

/-- Before the config is applied it is the squad's. -/
theorem squad_work_shared :
    let db := (squadOfTwo.foldl (Portal.step fun _ => false) twoStudents).db
    (db.step (.upload 1 1 true 1 .raises)).SharedWork 0 [0, 1] 0 0 1 := by
  have hsa : (squadOfTwo.foldl (Portal.step fun _ => false) twoStudents).db.studentsAssignments[1]? =
      some { studentId := 1, subjectsAssignmentId := 0 } := by decide +kernel
  have hasg : (squadOfTwo.foldl (Portal.step fun _ => false) twoStudents).db.subjectsAssignments[0]? =
      some { subjectId := 0, code := some "A" } := by decide +kernel
  have hsquad : (squadOfTwo.foldl (Portal.step fun _ => false) twoStudents).db.squads[0]? =
      some { subjectId := 0, members := [0, 1], lockedAt := some 0 } := by decide +kernel
  have hop : (Op.upload 1 1 true 1 .raises).opensOn = some 1 := rfl
  exact (squad_work_stays twoStudents_consistent (run_foldl squadOfTwo) hop hsa hasg hsquad rfl (by decide) rfl
    (by decide +kernel)).mpr (by decide +kernel)

end SubmissionsChecker
