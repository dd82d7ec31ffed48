import SubmissionsChecker.Sessions.Formation
import SubmissionsChecker.Sessions.Openings

/-! Uploads and quiz openings next to squad requests. Who joins a squad is asked for submissions
and who submits for a squad, each before the other has committed and under locks of their own. -/

namespace SubmissionsChecker

open ReadCommitted Runs

/-- Uploads, quiz openings and squad requests. -/
abbrev Working := Upload ⊕ Opening ⊕ Forming

def working (isTest : ℕ → Bool) : Working → Stmt Db Working Row :=
  both Upload.next (both Opening.next (Forming.next isTest))

namespace Db

/-- The subject and the student a row belongs to. -/
def workOf (db : Db) (saId : ℕ) : Option (ℕ × ℕ) :=
  (db.studentsAssignments[saId]?).bind fun sa =>
    (db.subjectsAssignments[sa.subjectsAssignmentId]?).map fun asg => (asg.subjectId, sa.studentId)

/-- The student has a submission in the subject that no squad made. -/
def worksAlone (db : Db) (subjectId studentId : ℕ) : Bool :=
  db.submissions.any fun sub => sub.squadId.isNone && db.workOf sub.studentsAssignmentId == some (subjectId, studentId)

/-- No member of a squad works alone in its subject. -/
def NobodyTorn (db : Db) : Prop := ∀ s ∈ db.squads, ∀ t ∈ s.members, db.worksAlone s.subjectId t = false

/-- The student of the row is in no squad of its subject. -/
def OutsideSquads (db : Db) (saId : ℕ) : Prop := ∀ work ∈ db.workOf saId, db.squadOf work.1 work.2 = none

instance (db : Db) : Decidable db.NobodyTorn := by unfold NobodyTorn; infer_instance

instance (db : Db) (saId : ℕ) : Decidable (db.OutsideSquads saId) := by unfold OutsideSquads; infer_instance

end Db

/-! What a request decided on is still so when it commits -/

/-- Who uploads for no squad is in none. -/
def Upload.StaysApart (db : Db) : Upload → Prop
  | .flushing plan _ _ _ => plan.squad = none → db.OutsideSquads plan.saId
  | _ => True

def Opening.StaysApart (db : Db) : Opening → Prop
  | .storing sub _ => sub.squadId = none → db.OutsideSquads sub.studentsAssignmentId
  | _ => True

/-- Who joins a squad has no submission. -/
def Forming.StaysApart (db : Db) : Forming → Prop
  | .writing plan => plan.fits db = true → ∀ t ∈ plan.joining, db.hasSubmissions plan.subject t = false
  | _ => True

def Working.StaysApart (db : Db) : Working → Prop :=
  Sum.elim (Upload.StaysApart db) (Sum.elim (Opening.StaysApart db) (Forming.StaysApart db))

instance Working.decidableStaysApart (db : Db) (l : Working) : Decidable (l.StaysApart db) := by
  rcases l with l | l | l
  · unfold Working.StaysApart Upload.StaysApart
    dsimp only [Sum.elim_inl]
    split <;> infer_instance
  · unfold Working.StaysApart Opening.StaysApart
    dsimp only [Sum.elim_inl, Sum.elim_inr]
    split <;> infer_instance
  · unfold Working.StaysApart Forming.StaysApart
    dsimp only [Sum.elim_inr]
    split <;> infer_instance

/-! What a request has seen of the rows it writes -/

def Upload.Sees (db : Db) : Upload → Prop
  | .admitted saId _ _ _ _ => db.HasRow saId
  | .resolved _ plan _ | .inScope plan _ _ | .unpassed plan _ _ | .storing plan _ _ _ | .flushing plan _ _ _ =>
    db.HasRow plan.saId
  | _ => True

def Opening.Sees (db : Db) : Opening → Prop
  | .start (.opening saId _ _ _) | .start (.opened saId _ _ _) | .start (.creating saId _ _) => db.HasRow saId
  | .start (.inserting _ _ _) => False
  | .start _ => True
  | .resolved saId _ _ _ | .configured saId _ _ _ => db.HasRow saId
  | .locking _ sub _ | .storing sub _ => db.HasRow sub.studentsAssignmentId
  | .opened | .refused => True

def Forming.Sees (db : Db) : Forming → Prop
  | .checking plan _ | .writing plan => plan.Located db
  | _ => True

/-- A request has read nothing yet. -/
def Working.IsAsked : Working → Prop
  | .inl (.asked ..) | .inr (.inl (.start (.asked ..))) | .inr (.inr (.asked _)) => True
  | _ => False

section

variable {db db' : Db} {saId x t : ℕ} {joining : List ℕ} {new : Submission → Prop}

theorem Db.Joins.remains (h : Db.Joins x joining db db') : db.Remains db' where
  assignments := by rw [h.rest]
  rows r row hr := ⟨row, by rw [h.rest]; exact hr, rfl, rfl⟩
  squads := h.kept

namespace Db.Remains

theorem workOf (h : db.Remains db') (hrow : db.HasRow saId) : db'.workOf saId = db.workOf saId := by
  obtain ⟨row, hr⟩ := Option.isSome_iff_exists.mp hrow
  obtain ⟨row', hr', hst, hasg⟩ := h.rows saId row hr
  simp only [Db.workOf, hr, hr', Option.bind_some, hst, hasg, h.assignments]

theorem located (h : db.Remains db') {plan : JoinPlan} (hplan : plan.Located db) : plan.Located db' := by
  cases plan with
  | create => trivial
  | assign => trivial
  | accept t i q squad =>
    obtain ⟨s, hs, hx⟩ := hplan
    obtain ⟨s', hs', hx'⟩ := h.squads q s hs
    exact ⟨s', hs', hx'.trans hx⟩

/-! What a request has seen is still there -/

theorem upload (h : db.Remains db') {l : Upload} (hl : l.Sees db) : l.Sees db' := by
  cases l <;> first | trivial | exact h.hasRow hl

theorem opening (h : db.Remains db') {l : Opening} (hl : l.Sees db) : l.Sees db' := by
  cases l with
  | start l => cases l <;> first | trivial | exact h.hasRow hl
  | resolved => exact h.hasRow hl
  | configured => exact h.hasRow hl
  | locking => exact h.hasRow hl
  | storing => exact h.hasRow hl
  | opened => trivial
  | refused => trivial

theorem forming (h : db.Remains db') {l : Forming} (hl : l.Sees db) : l.Sees db' := by
  cases l <;> first | trivial | exact h.located hl

end Db.Remains

/-! What the commits keep -/

theorem worksAlone_iff : db.worksAlone x t = true ↔
    ∃ sub ∈ db.submissions, sub.squadId = none ∧ db.workOf sub.studentsAssignmentId = some (x, t) := by
  simp [Db.worksAlone]

theorem hasSubmissions_of_worksAlone (h : db.worksAlone x t = true) : db.hasSubmissions x t = true := by
  obtain ⟨sub, hsub, -, hwork⟩ := worksAlone_iff.mp h
  obtain ⟨sa, hsa, hwork⟩ := Option.bind_eq_some_iff.mp hwork
  obtain ⟨asg, hasg, heq⟩ := Option.map_eq_some_iff.mp hwork
  cases heq
  rw [Db.hasSubmissions, List.any_eq_true]
  exact ⟨sub, hsub, by simp [hsa, hasg]⟩

/-- Submissions are added by students outside of squads, or for a squad. -/
theorem NobodyTorn.evolves (h : db.NobodyTorn) (howned : db.Owned) (hev : Evolves db db')
    (hnew : ∀ (i : ℕ) (sub : Submission), db.submissions[i]? = none → db'.submissions[i]? = some sub →
      db.HasRow sub.studentsAssignmentId ∧ (sub.squadId = none → db.OutsideSquads sub.studentsAssignmentId)) :
    db'.NobodyTorn ∧ db'.Owned := by
  -- a submission of the new state is an old one, or one of the new ones
  have hsubs : ∀ sub' ∈ db'.submissions, db.HasRow sub'.studentsAssignmentId ∧
      ((∃ sub ∈ db.submissions, sub'.studentsAssignmentId = sub.studentsAssignmentId ∧ sub'.squadId = sub.squadId) ∨
        (sub'.squadId = none → db.OutsideSquads sub'.studentsAssignmentId)) := by
    intro sub' hsub'
    obtain ⟨i, hi⟩ := List.mem_iff_getElem?.mp hsub'
    cases hold : db.submissions[i]? with
    | none =>
      obtain ⟨hrow, hout⟩ := hnew i sub' hold hi
      exact ⟨hrow, .inr hout⟩
    | some sub =>
      obtain ⟨sub₁, hs₁, hsaid, -, hsquad, -⟩ := hev.submission hold
      rw [hi, Option.some_inj] at hs₁
      subst hs₁
      have hmem := List.mem_of_getElem? hold
      exact ⟨hsaid ▸ howned sub hmem, .inl ⟨sub, hmem, hsaid, hsquad⟩⟩
  refine ⟨fun s' hs' t ht => ?_, fun sub' hsub' => hev.remains.hasRow (hsubs sub' hsub').1⟩
  rw [← Bool.not_eq_true]
  intro halone
  obtain ⟨q, hq⟩ := List.mem_iff_getElem?.mp hs'
  obtain ⟨s, hs, hx, hm⟩ := roster_get hev.rosters hq
  rw [← hm] at ht
  rw [← hx] at halone
  obtain ⟨sub', hsub', hnone, hwork⟩ := worksAlone_iff.mp halone
  obtain ⟨hrow, hold | hout⟩ := hsubs sub' hsub'
  · obtain ⟨sub, hmem, hsaid, hsquad⟩ := hold
    have hbefore : db.worksAlone s.subjectId t = true :=
      worksAlone_iff.mpr ⟨sub, hmem, hsquad ▸ hnone, by rw [← hsaid, ← hev.remains.workOf hrow, hwork]⟩
    rw [h s (List.mem_of_getElem? hs) t ht] at hbefore
    cases hbefore
  · rw [hev.remains.workOf hrow] at hwork
    exact not_mem_of_squadOf_none (hout hnone _ hwork) hs ht

/-- Students join who have no submission. -/
theorem NobodyTorn.joins (h : db.NobodyTorn) (howned : db.Owned) (hj : Db.Joins x joining db db')
    (hnone : ∀ t ∈ joining, db.hasSubmissions x t = false) : db'.NobodyTorn ∧ db'.Owned := by
  have hsubs : db'.submissions = db.submissions := by rw [hj.rest]
  have hsame : ∀ y t, db'.worksAlone y t = db.worksAlone y t := by
    intro y t
    unfold Db.worksAlone Db.workOf
    rw [hj.rest]
  refine ⟨fun s' hs' t ht => ?_, fun sub hsub => hj.remains.hasRow (howned sub (hsubs ▸ hsub))⟩
  rw [hsame]
  obtain ⟨q, hq⟩ := List.mem_iff_getElem?.mp hs'
  obtain ⟨s, hs, hx, hm⟩ | ⟨hx, hm⟩ := hj.members q s' hq t ht
  · rw [← hx]
    exact h s (List.mem_of_getElem? hs) t hm
  · rw [hx, ← Bool.not_eq_true]
    intro halone
    have hsome := hasSubmissions_of_worksAlone halone
    rw [hnone t hm] at hsome
    cases hsome

/-- An upload adds one submission, on the row and for the squad. -/
theorem insertUpload_adds {asg : SubjectsAssignment} {squad : Option ℕ} {check : CheckResult}
    (h : db.insertUpload saId asg squad check = .ok db') : Evolves db db' ∧
      ∀ (i : ℕ) (sub : Submission), db.submissions[i]? = none → db'.submissions[i]? = some sub →
        sub.studentsAssignmentId = saId ∧ sub.squadId = squad := by
  have hadd := addSubmission_stores db { studentsAssignmentId := saId, squadId := squad, createdAt := db.now } rfl
  have htask : Within (.task db.submissions.length)
      (db.addSubmission { studentsAssignmentId := saId, squadId := squad, createdAt := db.now }) db' := by
    unfold Db.insertUpload at h
    dsimp only at h
    have hc := executeCheck_spec (db.addSubmission { studentsAssignmentId := saId, squadId := squad, createdAt := db.now })
      db.submissions.length check
    split_ifs at h
    · split at h
      · rename_i db₂ hrun
        cases h
        rw [hrun] at hc
        exact hc.finalizes.within
      · cases h
    · cases h
      exact within_addMessage _ _ _
  refine ⟨hadd.evolves.trans htask.evolves, fun i sub hnone hs => ?_⟩
  have hi : i = db.submissions.length := by
    have hout := List.getElem?_eq_none_iff.mp hnone
    have hin := (List.getElem?_eq_some_iff.mp hs).1
    rw [htask.submissions_length, hadd.length] at hin
    omega
  obtain ⟨sub₀, hs₀, hsaid, hsquad, -⟩ := hadd.new
  obtain ⟨sub₁, hs₁, hsaid₁, -, hsquad₁, -⟩ := htask.evolves.submission hs₀
  rw [hi, hs₁, Option.some_inj] at hs
  exact ⟨hs ▸ hsaid₁.trans hsaid, hs ▸ hsquad₁.trans hsquad⟩

/-- So does the opening of a quiz. -/
theorem addRows_adds (db : Db) (sub : Submission) (attempt : QuizAttempt) : Evolves db (db.addRows sub attempt) ∧
    ∀ (i : ℕ) (sub' : Submission), db.submissions[i]? = none → (db.addRows sub attempt).submissions[i]? = some sub' →
      sub' = sub := by
  have hattempts := addSubmission_quizAttempts db sub
  refine ⟨?_, fun i sub' hnone hs => ?_⟩
  · rw [Db.addRows, ← hattempts]
    exact (evolves_addSubmission db sub).trans (evolves_addAttempt _ _)
  · change (db.addSubmission sub).submissions[i]? = some sub' at hs
    rw [addSubmission_submissions] at hs
    obtain hold | ⟨-, hnew⟩ := Table.getElem?_concat_some hs
    · rw [hnone] at hold
      cases hold
    · exact hnew

/-! The steps of an upload -/

theorem Upload.read_sees {l : Upload} {f : Db → Upload} (hB : l.Sees db) (h : l.next = .read f) : (f db).Sees db := by
  cases l with
  | asked saId t file =>
    cases h
    change (Upload.checkRow db saId t file).Sees db
    unfold Upload.checkRow
    split
    · trivial
    · rename_i sa hsa
      split_ifs
      · trivial
      · split
        · trivial
        · split_ifs
          · trivial
          · exact Option.isSome_of_eq_some hsa
  | admitted saId t asgId asg file =>
    cases h
    change (Upload.resolve db saId t asgId asg file).Sees db
    unfold Upload.resolve
    split
    · trivial
    · exact hB
  | resolved asgId plan file =>
    cases h
    exact hB
  | inScope plan scope file =>
    cases h
    dsimp only
    split_ifs
    · exact hB
    · trivial
  | unpassed plan scope file =>
    cases h
    change (Upload.count db plan scope file).Sees db
    unfold Upload.count
    dsimp only
    split_ifs <;> trivial
  | storing plan scope count file =>
    simp only [Upload.next] at h
    split at h
    · cases h
      change (Upload.insert db plan scope count file).Sees db
      unfold Upload.insert
      split
      · exact hB
      · trivial
    · cases h
  | flushing => cases h
  | stored => cases h
  | refused => cases h

theorem Upload.lock_sees {l : Upload} {key : Row} {f : Db → Upload} (hB : l.Sees db) (h : l.next = .lock key f) :
    (f db).Sees db := by
  cases l with
  | storing plan scope count file =>
    simp only [Upload.next] at h
    split at h
    · cases h
    · cases h
      change (Upload.insert db plan scope count file).Sees db
      unfold Upload.insert
      split
      · exact hB
      · trivial
  | _ => cases h

/-- The rest of a transaction sees nothing it did not. -/
theorem Upload.ended_sees {l l' : Upload} {f : Db → Db} (h : l.next = .commit f l' ∨ l.next = .rollback l') :
    l'.Sees db := by
  obtain h | h := h
  · cases l with
    | flushing => cases h; trivial
    | storing => simp only [Upload.next] at h; split at h <;> cases h
    | _ => cases h
  · cases l with
    | refused => cases h; trivial
    | storing => simp only [Upload.next] at h; split at h <;> cases h
    | _ => cases h

theorem Upload.commit_apart {l l' : Upload} {f : Db → Db} (hA : db.NobodyTorn ∧ db.Owned) (hB : l.Sees db)
    (hok : l.StaysApart db) (h : l.next = .commit f l') :
    ((f db).NobodyTorn ∧ (f db).Owned) ∧ db.Remains (f db) := by
  cases l with
  | flushing plan scope count file =>
    cases h
    change ((Upload.inserted db plan file).NobodyTorn ∧ (Upload.inserted db plan file).Owned) ∧
      db.Remains (Upload.inserted db plan file)
    unfold Upload.inserted
    cases hinsert : db.insertUpload plan.saId plan.asg plan.squad file.check with
    | error e => exact ⟨hA, (Evolves.refl db).remains⟩
    | ok db' =>
      obtain ⟨hev, hnew⟩ := insertUpload_adds hinsert
      refine ⟨NobodyTorn.evolves hA.1 hA.2 hev fun i sub hnone hs => ?_, hev.remains⟩
      obtain ⟨hrow, hsquad⟩ := hnew i sub hnone hs
      rw [hrow, hsquad]
      exact ⟨hB, hok⟩
  | storing => simp only [Upload.next] at h; split at h <;> cases h
  | _ => cases h

theorem uploads_apart : Rules Upload.next (fun db l => l.StaysApart db) (fun db => db.NobodyTorn ∧ db.Owned)
    (fun db _ l => l.Sees db) where
  read _ hB _ h := Upload.read_sees hB h
  lock _ hB _ h := Upload.lock_sees hB h
  commit hA hB hok h := ⟨(Upload.commit_apart hA hB hok h).1, Upload.ended_sees (.inl h)⟩
  rollback _ _ _ h := Upload.ended_sees (f := id) (.inr h)
  others hA hB hok h hm _ := (Upload.commit_apart hA hB hok h).2.upload hm

/-! The steps of a quiz opening -/

theorem afterLookUp_sees (db : Db) (saId t : ℕ) (rnd : Shuffles) (loaded : Loaded) :
    Opening.Sees db (.start (Start.afterLookUp db saId t rnd loaded)) := by
  unfold Start.afterLookUp
  split
  · trivial
  · rename_i sa hsa
    have hrow : db.HasRow saId := Option.isSome_of_eq_some hsa
    repeat' split
    all_goals trivial

theorem underLock_sees (hrow : db.HasRow saId) (rnd : Shuffles) (loaded : Loaded) :
    Opening.Sees db (.start (Start.underLock db saId t rnd loaded)) := by
  unfold Start.underLock
  repeat' split
  all_goals trivial

theorem afterCount_sees (db : Db) (i : ℕ) (sub : Submission) (asg : SubjectsAssignment) (rnd : Shuffles)
    (existing : List QuizAttempt) : Opening.Sees db (.start (Start.afterCount db i sub t asg rnd existing)) := by
  unfold Start.afterCount
  repeat' split
  all_goals trivial

theorem draw_sees (db : Db) (i : ℕ) (squad : Squad) (plan : StartPlan) (rnd : Shuffles) (existing : List QuizAttempt) :
    Opening.Sees db (.start (Start.draw db i squad t plan rnd existing)) := by
  unfold Start.draw
  repeat' split
  all_goals trivial

/-- What is made is on the row that was read. -/
theorem build_sees {rnd : Shuffles} {squad : Option ℕ} {configId : ℕ} (hrow : db.HasRow saId) :
    (Opening.build db saId rnd squad configId).Sees db := by
  unfold Opening.build
  split
  · trivial
  · rename_i db₁ hadd
    split
    · rename_i sub attempt hsub _
      obtain ⟨sub', attempt', hsaid, -, -, rfl⟩ := addStarted_spec hadd
      have hsame : (db.addSubmission sub').submissions[db.submissions.length]? = some sub := hsub
      rw [addSubmission_get, Option.some_inj] at hsame
      rw [← hsaid, hsame] at hrow
      split <;> exact hrow
    · trivial

theorem Opening.read_sees {l : Opening} {f : Db → Opening} (hB : l.Sees db) (h : l.next = .read f) : (f db).Sees db := by
  cases l with
  | start l =>
    cases l with
    | creating saId t rnd =>
      cases h
      change (Opening.resolve db saId t rnd).Sees db
      unfold Opening.resolve
      repeat' split
      all_goals trivial
    | asked => cases h; trivial
    | owned => cases h; exact afterLookUp_sees ..
    | opened => cases h; exact underLock_sees hB ..
    | found => cases h; trivial
    | counted => cases h; exact afterCount_sees ..
    | _ => cases h
  | resolved saId t rnd squad =>
    cases h
    change (Opening.configure db saId rnd squad).Sees db
    unfold Opening.configure
    split
    · trivial
    · exact hB
  | configured => cases h; exact build_sees hB
  | _ => cases h

theorem Opening.lock_sees {l : Opening} {key : Row} {f : Db → Opening} (hB : l.Sees db) (h : l.next = .lock key f) :
    (f db).Sees db := by
  cases l with
  | start l =>
    cases l with
    | opening => cases h; exact hB
    | drawing => cases h; exact draw_sees ..
    | _ => cases h
  | locking => cases h; exact hB
  | _ => cases h

theorem Opening.ended_sees {l l' : Opening} {f : Db → Db} (hB : l.Sees db)
    (h : l.next = .commit f l' ∨ l.next = .rollback l') : l'.Sees db' := by
  obtain h | h := h
  · cases l with
    | start l => cases l <;> cases h <;> trivial
    | storing => cases h; trivial
    | _ => cases h
  · cases l with
    | start l => cases l <;> cases h; trivial
    | refused => cases h; trivial
    | _ => cases h

theorem Opening.commit_apart {l l' : Opening} {f : Db → Db} (hA : db.NobodyTorn ∧ db.Owned) (hB : l.Sees db)
    (hok : l.StaysApart db) (h : l.next = .commit f l') :
    ((f db).NobodyTorn ∧ (f db).Owned) ∧ db.Remains (f db) := by
  -- a start on a submission that is there adds none
  have hkept : ∀ {db' : Db}, Evolves db db' → db'.submissions.length = db.submissions.length →
      (db'.NobodyTorn ∧ db'.Owned) ∧ db.Remains db' := by
    intro db' hev hlen
    refine ⟨NobodyTorn.evolves hA.1 hA.2 hev fun i sub hnone hs => ?_, hev.remains⟩
    have hout := List.getElem?_eq_none_iff.mp hnone
    have hin := (List.getElem?_eq_some_iff.mp hs).1
    omega
  cases l with
  | start l =>
    cases l with
    | inserting => exact hB.elim
    | drawn i t attempt existing refreshed draw =>
      cases h
      refine hkept ((evolves_setSubmission db i fun sub => ?_).trans (evolves_addAttempt _ _)) (List.length_modify ..)
      unfold Start.storeDraw
      split <;> rfl
    | adding => cases h; exact hkept (evolves_addAttempt _ _) rfl
    | _ => cases h
  | storing sub attempt =>
    cases h
    obtain ⟨hev, hnew⟩ := addRows_adds db sub attempt
    refine ⟨NobodyTorn.evolves hA.1 hA.2 hev fun i sub' hnone hs => ?_, hev.remains⟩
    rw [hnew i sub' hnone hs]
    exact ⟨hB, hok⟩
  | _ => cases h

theorem openings_apart : Rules Opening.next (fun db l => l.StaysApart db) (fun db => db.NobodyTorn ∧ db.Owned)
    (fun db _ l => l.Sees db) where
  read _ hB _ h := Opening.read_sees hB h
  lock _ hB _ h := Opening.lock_sees hB h
  commit hA hB hok h := ⟨(Opening.commit_apart hA hB hok h).1, Opening.ended_sees hB (.inl h)⟩
  rollback _ hB _ h := Opening.ended_sees (f := id) hB (.inr h)
  others hA hB hok h hm _ := (Opening.commit_apart hA hB hok h).2.opening hm

/-! The steps of a squad request -/

theorem Forming.refuse_sees (db : Db) (plan : JoinPlan) : (Forming.refuse plan).Sees db := by
  cases plan <;> trivial

theorem Forming.read_sees {isTest : ℕ → Bool} {l : Forming} {f : Db → Forming} (hB : l.Sees db)
    (h : l.next isTest = .read f) : (f db).Sees db := by
  cases l with
  | asked op =>
    cases h
    change (Forming.receive db op).Sees db
    cases op <;> unfold Forming.receive <;> dsimp only
    all_goals repeat' split
    all_goals trivial
  | checking plan queries =>
    cases queries with
    | nil =>
      cases h
      change (Forming.judge db plan).Sees db
      unfold Forming.judge
      split
      · split
        · exact refuse_sees db _
        · exact hB
      · exact hB
      · exact hB
    | cons query queries =>
      cases h
      dsimp only
      split
      · exact refuse_sees db plan
      · exact hB
  | _ => cases h

theorem Forming.lock_sees {isTest : ℕ → Bool} {l : Forming} {key : Row} {f : Db → Forming}
    (h : l.next isTest = .lock key f) : (f db).Sees db := by
  cases l with
  | waiting t i q =>
    cases h
    change (Forming.refresh db t i q).Sees db
    unfold Forming.refresh
    split
    · trivial
    · rename_i squad hs
      exact ⟨squad, hs, rfl⟩
  | checking plan queries => cases queries <;> cases h
  | _ => cases h

theorem Forming.ended_sees {isTest : ℕ → Bool} {l l' : Forming} {f : Db → Db}
    (h : l.next isTest = .commit f l' ∨ l.next isTest = .rollback l') : l'.Sees db := by
  obtain h | h := h <;> cases l with
  | checking plan queries => cases queries <;> cases h
  | _ => cases h <;> trivial

theorem Forming.commit_apart {isTest : ℕ → Bool} {l l' : Forming} {f : Db → Db} (hA : db.NobodyTorn ∧ db.Owned)
    (hB : l.Sees db) (hok : l.StaysApart db) (h : l.next isTest = .commit f l') :
    ((f db).NobodyTorn ∧ (f db).Owned) ∧ db.Remains (f db) := by
  cases l with
  | checking plan queries => cases queries <;> cases h
  | writing plan =>
    cases h
    unfold JoinPlan.write
    split
    · rename_i hfits
      have hj := rows_joins hB
      exact ⟨NobodyTorn.joins hA.1 hA.2 hj (hok hfits), hj.remains⟩
    · exact ⟨hA, (Evolves.refl db).remains⟩
  | refusing i =>
    cases h
    exact ⟨hA, ⟨rfl, fun _ row hr => ⟨row, hr, rfl, rfl⟩, fun _ s hs => ⟨s, hs, rfl⟩⟩⟩
  | _ => cases h

theorem forming_apart (isTest : ℕ → Bool) : Rules (Forming.next isTest) (fun db l => l.StaysApart db)
    (fun db => db.NobodyTorn ∧ db.Owned) (fun db _ l => l.Sees db) where
  read _ hB _ h := Forming.read_sees hB h
  lock _ _ _ h := Forming.lock_sees h
  commit hA hB hok h := ⟨(Forming.commit_apart hA hB hok h).1, Forming.ended_sees (.inl h)⟩
  rollback _ _ _ h := Forming.ended_sees (f := id) (.inr h)
  others hA hB hok h hm _ := (Forming.commit_apart hA hB hok h).2.forming hm

/-- A quiz opening or a squad request leaves rows and squads where they are. -/
theorem joint_remains {isTest : ℕ → Bool} {l l' : Opening ⊕ Forming} {f : Db → Db} (hA : db.NobodyTorn ∧ db.Owned)
    (hB : Sum.elim (Opening.Sees db) (Forming.Sees db) l)
    (hok : Sum.elim (Opening.StaysApart db) (Forming.StaysApart db) l)
    (h : both Opening.next (Forming.next isTest) l = .commit f l') : db.Remains (f db) := by
  cases l with
  | inl l =>
    obtain ⟨m, hm, -⟩ := Stmt.map_commit.mp h
    exact (Opening.commit_apart hA hB hok hm).2
  | inr l =>
    obtain ⟨m, hm, -⟩ := Stmt.map_commit.mp h
    exact (Forming.commit_apart hA hB hok hm).2

/-- The three of them together keep members from working alone. -/
theorem working_apart (isTest : ℕ → Bool) : Rules (working isTest) Working.StaysApart (fun db => db.NobodyTorn ∧ db.Owned)
    (fun db _ => Sum.elim (Upload.Sees db) (Sum.elim (Opening.Sees db) (Forming.Sees db))) :=
  uploads_apart.both
    (openings_apart.both (forming_apart isTest)
      (fun hA hB hok h hm _ => (Opening.commit_apart hA hB hok h).2.forming hm)
      (fun hA hB hok h hm _ => (Forming.commit_apart hA hB hok h).2.opening hm))
    (fun {_ _ _ _ _ _ m} hA hB hok h hm _ => by
      have hremains := (Upload.commit_apart hA hB hok h).2
      cases m with
      | inl m => exact hremains.opening hm
      | inr m => exact hremains.forming hm)
    (fun hA hB hok h hm _ => (joint_remains hA hB hok h).upload hm)

end

section

variable {P : Type*} [DecidableEq P] {isTest : ℕ → Bool} {db₀ : Db} {session : P → Working} {st : State Db P Working Row}
  {ps : List P}

/-- When every request still finds at its commit what it decided on, no member of a squad works alone. -/
theorem nobody_torn (hstart : db₀.NobodyTorn) (howned : db₀.Owned) (hasked : ∀ p, (session p).IsAsked)
    (h : Run (step (working isTest)) (Ok Working.StaysApart) (start db₀ session) ps st) : st.store.NobodyTorn := by
  have hstart : Holds (fun db => db.NobodyTorn ∧ db.Owned)
      (fun db _ => Sum.elim (Upload.Sees db) (Sum.elim (Opening.Sees db) (Forming.Sees db)))
      (start db₀ session : State Db P Working Row) := by
    refine ⟨⟨hstart, howned⟩, fun p => ?_⟩
    change Sum.elim _ _ (session p)
    have hp := hasked p
    revert hp
    generalize session p = l
    intro hp
    rcases l with l | l | l
    · cases l <;> trivial
    · cases l with
      | start l => cases l <;> trivial
      | _ => exact hp.elim
    · cases l <;> trivial
  exact (hstart.run (working_apart isTest) h).1.1

end

/-- Two students of a subject with squads, on one assignment. -/
def ungrouped : Db := oneSubject { reviewMode := some .testsOnly } {} [] [0, 1]

/-- A student uploads while the teacher puts both in a squad. -/
def uploadAndAssign (p : Fin 2) : Working :=
  if p = 0 then .inl (.asked 0 0 {}) else .inr (.inr (.asked (.assign 0 [0, 1])))

theorem uploadAndAssign_asked (p : Fin 2) : (uploadAndAssign p).IsAsked := by
  unfold uploadAndAssign
  split_ifs <;> trivial

/-- The upload finds no squad, the assignment finds no submission, and both commit. -/
theorem torn_by_assignment : ¬ ∀ (n : ℕ) (isTest : ℕ → Bool) (db₀ : Db) (session : Fin n → Working)
    (st : State Db (Fin n) Working Row) (ps : List (Fin n)), db₀.NobodyTorn → db₀.Owned → (∀ p, (session p).IsAsked) →
    Run (step (working isTest)) Any (start db₀ session) ps st → st.store.NobodyTorn := by
  intro hall
  have h := hall 2 (fun _ => false) ungrouped uploadAndAssign _ [0, 0, 0, 0, 0, 0, 1, 1, 1, 1, 1, 1, 1, 0] (by decide)
    (by simp [Db.Owned, ungrouped, oneSubject]) uploadAndAssign_asked (run_foldl _)
  exact absurd h (by decide +kernel)

/-- When the assignment commits first, the upload is the squad's. -/
theorem assigned_then_uploaded :
    let st := [1, 1, 1, 1, 1, 1, 1, 0, 0, 0, 0, 0, 0, 0].foldl (step (working fun _ => false))
      (start ungrouped uploadAndAssign)
    st.store.submissions.map (·.squadId) = [some 0] ∧ st.store.NobodyTorn :=
  ⟨by decide +kernel, nobody_torn (by decide) (by simp [Db.Owned, ungrouped, oneSubject]) uploadAndAssign_asked
    (run_of_checks (by decide +kernel))⟩

end SubmissionsChecker
