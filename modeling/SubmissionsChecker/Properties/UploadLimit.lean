import SubmissionsChecker.Sessions.Uploads

/-! Uploads side by side, with the other requests moving the submissions on. The checks on the
scope run long before the insert and hold no lock, so two uploads can pass them together. -/

namespace SubmissionsChecker

open ReadCommitted Runs

/-- Any other request, as far as an upload sees it: one legal move of one submission. -/
inductive Moving
  | moves (i : ℕ) (event : Event)
  | moved
  deriving DecidableEq, Repr

def Moving.next : Moving → Stmt Db Moving Row
  | moves i event => .commit (fun db => (db.transition i event).toOption.getD db) .moved
  | moved => .done

/-- Uploads and moves. -/
abbrev Uploading := Upload ⊕ Moving

def uploading : Uploading → Stmt Db Uploading Row := both Upload.next Moving.next

/-- An upload that commits finds the scope as it read it. -/
def Uploading.StoresFresh (db : Db) : Uploading → Prop
  | .inl (.flushing _ scope count _) =>
    (∀ n ∈ count, (db.submissionsIn scope).length = n) ∧ Upload.noCompleted db scope = true
  | _ => True

instance (db : Db) (l : Uploading) : Decidable (l.StoresFresh db) := by
  unfold Uploading.StoresFresh
  split <;> infer_instance

namespace Db

/-- The rows whose submissions count against an upload on the row. -/
def scopeOf (db : Db) (saId : ℕ) : List ℕ :=
  match db.studentsAssignments[saId]? with
  | none => [saId]
  | some sa => (db.uploadScope saId sa.subjectsAssignmentId
      ((db.subjectsAssignments[sa.subjectsAssignmentId]?).bind fun asg => db.squadOf asg.subjectId sa.studentId)).2

/-- The submissions of the scope are within the limit of the assignment. -/
def WithinLimit (db : Db) (saId : ℕ) : Prop := ∀ asg limit, db.assignmentOf saId = some asg →
  asg.config.maxSubmissions = some limit → (db.submissionsIn (db.scopeOf saId)).length ≤ limit

end Db

section

variable {db db' : Db} {saId t q i r asgId : ℕ} {sa row : StudentAssignment} {asg : SubjectsAssignment} {s : Squad}
  {squad : Option ℕ} {scope : List ℕ}

/-! The scope depends on the students' rows and the rosters only -/

theorem memberSaIds_congr (members : List ℕ) (asgId : ℕ) : ∀ db db' : Db,
    db'.studentsAssignments = db.studentsAssignments → (db'.memberSaIds members asgId).2 = (db.memberSaIds members asgId).2 := by
  induction members with
  | nil => intro db db' _; rfl
  | cons m ms ih =>
    intro db db' h
    have hensure : (db'.ensureSa m asgId).2 = (db.ensureSa m asgId).2 ∧
        (db'.ensureSa m asgId).1.studentsAssignments = (db.ensureSa m asgId).1.studentsAssignments := by
      unfold Db.ensureSa Db.saOf
      rw [h]
      split
      · exact ⟨rfl, h⟩
      · exact ⟨rfl, rfl⟩
    rw [Db.memberSaIds, Db.memberSaIds]
    exact congrArg₂ _ hensure.1 (ih _ _ hensure.2)

theorem uploadScope_congr (h : Evolves db db') (hrows : db'.studentsAssignments = db.studentsAssignments) :
    (db'.uploadScope saId asgId squad).2 = (db.uploadScope saId asgId squad).2 := by
  cases squad with
  | none => rfl
  | some q =>
    have hroster := h.squad q
    unfold Db.uploadScope
    rw [Option.bind_some, Option.bind_some]
    cases hs : db.squads[q]? with
    | none =>
      rw [hs, Option.map_none, Option.map_eq_none_iff] at hroster
      rw [hroster]
    | some s =>
      rw [hs, Option.map_some] at hroster
      obtain ⟨s', hs', hr⟩ := Option.map_eq_some_iff.mp hroster
      rw [hs']
      dsimp only
      rw [show s'.members = s.members from congrArg Prod.snd hr]
      exact memberSaIds_congr _ _ _ _ hrows

theorem scopeOf_congr (h : Evolves db db') (hrows : db'.studentsAssignments = db.studentsAssignments) :
    db'.scopeOf saId = db.scopeOf saId := by
  unfold Db.scopeOf
  rw [hrows]
  cases hsa : db.studentsAssignments[saId]? with
  | none => rfl
  | some sa =>
    dsimp only
    rw [h.subjectsAssignments, uploadScope_congr h hrows]
    simp only [h.squadOf]

theorem scopeOf_eq (hsa : db.studentsAssignments[saId]? = some sa)
    (hasg : db.subjectsAssignments[sa.subjectsAssignmentId]? = some asg) :
    db.scopeOf saId = (db.uploadScope saId sa.subjectsAssignmentId (db.squadOf asg.subjectId sa.studentId)).2 := by
  simp only [Db.scopeOf, hsa, hasg, Option.bind_some]

theorem scopeOf_unassigned (h : db.assignmentOf saId = none) : db.scopeOf saId = [saId] := by
  unfold Db.scopeOf
  split
  · rfl
  · rename_i sa hsa
    rw [Db.assignmentOf, hsa, Option.bind_some] at h
    rw [h]
    rfl

/-- Rows in one scope have the same scope, and are of one assignment. -/
theorem scopeOf_shared (hsetup : db.Setup) (hsa : db.studentsAssignments[saId]? = some sa)
    (hrow : db.studentsAssignments[r]? = some row) (hasg : db.subjectsAssignments[sa.subjectsAssignmentId]? = some asg)
    (hr : r ∈ db.scopeOf saId) : db.scopeOf r = db.scopeOf saId ∧ row.subjectsAssignmentId = sa.subjectsAssignmentId := by
  have hscope := scopeOf_eq hsa hasg
  rw [hscope] at hr
  unfold Db.uploadScope at hr
  split at hr
  · rw [List.mem_singleton] at hr
    subst hr
    rw [hsa] at hrow
    cases hrow
    exact ⟨rfl, rfl⟩
  · rename_i s hsquad
    obtain ⟨q, hq, hs⟩ := Option.bind_eq_some_iff.mp hsquad
    obtain ⟨row', hrow', hmember, hrowasg⟩ := memberSaIds_row _ _ _ r hr
    obtain ⟨row₁, hrow₁, hst, hasg₁⟩ := (within_memberSaIds .grades s.members sa.subjectsAssignmentId db).rows r row hrow
    rw [hrow'] at hrow₁
    cases hrow₁
    rw [hst] at hmember
    rw [hasg₁] at hrowasg
    obtain ⟨s', hs', hp⟩ := Table.findId_some hq
    rw [hs] at hs'
    cases hs'
    simp only [Bool.and_eq_true, beq_iff_eq] at hp
    have hq' : db.squadOf asg.subjectId row.studentId = some q := hp.1 ▸ squadOf_of_member hsetup hs hmember
    refine ⟨?_, hrowasg⟩
    rw [scopeOf_eq hrow (by rw [hrowasg, hasg]), hscope, hq', hq, hrowasg]
    unfold Db.uploadScope
    rw [Option.bind_some, hs]

/-! Counting -/

theorem submissionsIn_eq (db : Db) (scope : List ℕ) :
    db.submissionsIn scope = Table.idsWhere scope.contains (db.submissions.map (·.studentsAssignmentId)) :=
  (Table.idsWhere_map (fun sub : Submission => sub.studentsAssignmentId) scope.contains db.submissions).symm

theorem Stores.submissionsIn (h : Stores db saId squad db') : db'.submissionsIn scope =
    db.submissionsIn scope ++ if saId ∈ scope then [db.submissions.length] else [] := by
  have howners : db'.submissions.map (·.studentsAssignmentId) = db.submissions.map (·.studentsAssignmentId) ++ [saId] := by
    apply List.ext_getElem?
    intro j
    rcases Nat.lt_trichotomy j db.submissions.length with hj | hj | hj
    · obtain ⟨sub', hs', hsaid, -⟩ := h.evolves.submission (List.getElem?_eq_getElem hj)
      rw [List.getElem?_append_left (by simpa using hj), List.getElem?_map, List.getElem?_map, hs',
        List.getElem?_eq_getElem hj, Option.map_some, Option.map_some, hsaid]
    · obtain ⟨sub', hs', hsaid, -⟩ := h.new
      rw [hj, List.getElem?_map, hs', Option.map_some, hsaid]
      simp
    · rw [List.getElem?_eq_none (by rw [List.length_map, h.length]; omega), List.getElem?_eq_none (by simp; omega)]
  rw [submissionsIn_eq, submissionsIn_eq, howners, Table.idsWhere_concat, List.length_map]
  simp

theorem submissionsIn_moved {event : Event} (h : db.transition i event = .ok db') :
    db'.submissionsIn scope = db.submissionsIn scope := by
  rw [submissionsIn_eq, submissionsIn_eq]
  congr 1
  apply List.ext_getElem?
  intro j
  rw [List.getElem?_map, List.getElem?_map]
  exact (within_transition h).map_sub (·.studentsAssignmentId) j (by simp)

end

/-- What stays as it was at the start: everything that only evolves, and the students' rows. -/
structure Unchanged (db₀ db : Db) : Prop where
  evolves : Evolves db₀ db
  rows : db.studentsAssignments = db₀.studentsAssignments

/-- An upload's row, its assignment and its scope. -/
def UploadPlan.Scoped (db₀ : Db) (plan : UploadPlan) (scope : List ℕ) : Prop :=
  db₀.assignmentOf plan.saId = some plan.asg ∧ scope = db₀.scopeOf plan.saId

/-- The number an upload read is below the limit. -/
def UploadPlan.Below (plan : UploadPlan) (count : Option ℕ) : Prop :=
  ∀ limit, plan.asg.config.maxSubmissions = some limit → ∃ n, count = some n ∧ n < limit

/-- What an upload knows of the tables that stay. -/
def Upload.Knows (db₀ : Db) : Upload → Prop
  | .admitted saId t asgId asg _ => ∃ sa, db₀.studentsAssignments[saId]? = some sa ∧ sa.studentId = t ∧
      sa.subjectsAssignmentId = asgId ∧ db₀.subjectsAssignments[asgId]? = some asg
  | .resolved asgId plan _ => ∃ sa, db₀.studentsAssignments[plan.saId]? = some sa ∧ sa.subjectsAssignmentId = asgId ∧
      db₀.subjectsAssignments[asgId]? = some plan.asg ∧ plan.squad = db₀.squadOf plan.asg.subjectId sa.studentId
  | .inScope plan scope _ | .unpassed plan scope _ => plan.Scoped db₀ scope
  | .storing plan scope count _ | .flushing plan scope count _ => plan.Scoped db₀ scope ∧ plan.Below count
  | _ => True

def Uploading.Knows (db₀ : Db) : Uploading → Prop
  | .inl l => l.Knows db₀
  | .inr _ => True

section

variable {db₀ db db' : Db} {H : Set Row}

theorem Unchanged.trans (h : Unchanged db₀ db) (h' : Unchanged db db') : Unchanged db₀ db' :=
  ⟨h.evolves.trans h'.evolves, h'.rows.trans h.rows⟩

theorem Unchanged.assignmentOf (h : Unchanged db₀ db) (saId : ℕ) : db.assignmentOf saId = db₀.assignmentOf saId := by
  rw [Db.assignmentOf, Db.assignmentOf, h.rows, h.evolves.subjectsAssignments]

theorem Upload.read_knows (hsetup : db₀.Setup) (hsame : Unchanged db₀ db) {l : Upload} {f : Db → Upload}
    (hB : l.Knows db₀) (h : l.next = .read f) : (f db).Knows db₀ := by
  cases l with
  | asked saId t file =>
    cases h
    change (Upload.checkRow db saId t file).Knows db₀
    unfold Upload.checkRow
    rw [hsame.rows]
    split
    · trivial
    · rename_i sa hsa
      split_ifs with hst
      · trivial
      · split
        · trivial
        · rename_i asg hasg
          split_ifs
          · trivial
          · exact ⟨sa, hsa, not_not.mp hst, rfl, hsame.evolves.subjectsAssignments ▸ hasg⟩
  | admitted saId t asgId asg file =>
    cases h
    obtain ⟨sa, hsa, hst, hasgId, hasg⟩ := hB
    change (Upload.resolve db saId t asgId asg file).Knows db₀
    unfold Upload.resolve
    split
    · trivial
    · rename_i squad hsquad
      refine ⟨sa, hsa, hasgId, hasg, ?_⟩
      rw [hst, ← hsame.evolves.squadOf]
      exact squadForUpload_eq (hsame.evolves.setup hsetup) hsquad
  | resolved asgId plan file =>
    cases h
    obtain ⟨sa, hsa, hasgId, hasg, hsquad⟩ := hB
    subst hasgId
    refine ⟨by rw [Db.assignmentOf, hsa, Option.bind_some, hasg], ?_⟩
    rw [uploadScope_congr hsame.evolves hsame.rows, scopeOf_eq hsa hasg, hsquad]
  | inScope plan scope file =>
    cases h
    dsimp only
    split_ifs
    · exact hB
    · trivial
  | unpassed plan scope file =>
    cases h
    change (Upload.count db plan scope file).Knows db₀
    unfold Upload.count
    dsimp only
    split_ifs with hlimit
    · trivial
    · trivial
    · trivial
    · refine ⟨hB, fun limit hmax => ⟨_, by rw [hmax]; rfl, ?_⟩⟩
      simpa [hmax] using hlimit
  | storing plan scope count file =>
    simp only [Upload.next] at h
    split at h
    · cases h
      change (Upload.insert db plan scope count file).Knows db₀
      unfold Upload.insert
      split
      · exact hB
      · trivial
    · cases h
  | flushing => cases h
  | stored => cases h
  | refused => cases h

theorem Upload.lock_knows {l : Upload} {key : Row} {f : Db → Upload} (hB : l.Knows db₀) (h : l.next = .lock key f) :
    (f db).Knows db₀ := by
  cases l with
  | storing plan scope count file =>
    simp only [Upload.next] at h
    split at h
    · cases h
    · cases h
      change (Upload.insert db plan scope count file).Knows db₀
      unfold Upload.insert
      split
      · exact hB
      · trivial
  | _ => cases h

theorem transition_unchanged {i : ℕ} {event : Event} (h : db.transition i event = .ok db') : Unchanged db db' := by
  refine ⟨(within_transition h).evolves, ?_⟩
  obtain ⟨s, next, -, -, rfl⟩ := transition_ok h
  rfl

/-- The rules for a property of the submissions that fresh uploads and legal moves keep. -/
theorem uploading_rules (hsetup : db₀.Setup) {G : Db → Prop}
    (hstore : ∀ {db db' : Db} {plan : UploadPlan} {scope : List ℕ} {count : Option ℕ}, Unchanged db₀ db → G db → plan.Scoped db₀ scope → plan.Below count →
      (∀ n ∈ count, (db.submissionsIn scope).length = n) → Upload.noCompleted db scope = true →
      Stores db plan.saId plan.squad db' → G db')
    (hmove : ∀ {db db' : Db} {i : ℕ} {event : Event}, Unchanged db₀ db → G db → db.transition i event = .ok db' → G db') :
    Rules uploading (fun db l => l.StoresFresh db) (fun db => Unchanged db₀ db ∧ G db) (fun _ _ l => l.Knows db₀) where
  read := by
    intro db H l f hA hB hok h
    cases l with
    | inl l =>
      obtain ⟨g, hg, rfl⟩ := Stmt.map_read.mp h
      exact Upload.read_knows hsetup hA.1 hB hg
    | inr l =>
      obtain ⟨g, hg, rfl⟩ := Stmt.map_read.mp h
      trivial
  lock := by
    intro db H l k f hA hB hok h
    cases l with
    | inl l =>
      obtain ⟨g, hg, rfl⟩ := Stmt.map_lock.mp h
      exact Upload.lock_knows hB hg
    | inr l =>
      obtain ⟨g, hg, rfl⟩ := Stmt.map_lock.mp h
      trivial
  commit := by
    intro db H l f l' hA hB hok h
    obtain ⟨hsame, hG⟩ := hA
    cases l with
    | inl l =>
      obtain ⟨m, hm, rfl⟩ := Stmt.map_commit.mp h
      cases l with
      | flushing plan scope count file =>
        cases hm
        refine ⟨?_, trivial⟩
        change Unchanged db₀ (Upload.inserted db plan file) ∧ G (Upload.inserted db plan file)
        obtain ⟨hscoped, hbelow⟩ := hB
        unfold Upload.inserted
        cases hinsert : db.insertUpload plan.saId plan.asg plan.squad file.check with
        | error e => exact ⟨hsame, hG⟩
        | ok db' =>
          have hstores := insertUpload_stores ((hsame.assignmentOf _).trans hscoped.1) hinsert
          exact ⟨hsame.trans ⟨hstores.evolves, hstores.rows⟩, hstore hsame hG hscoped hbelow hok.1 hok.2 hstores⟩
      | storing plan scope count file => simp only [Upload.next] at hm; split at hm <;> cases hm
      | _ => cases hm
    | inr l =>
      obtain ⟨m, hm, rfl⟩ := Stmt.map_commit.mp h
      cases l with
      | moves i event =>
        cases hm
        refine ⟨?_, trivial⟩
        change Unchanged db₀ ((db.transition i event).toOption.getD db) ∧ G ((db.transition i event).toOption.getD db)
        cases hmoved : db.transition i event with
        | error e => exact ⟨hsame, hG⟩
        | ok db' => exact ⟨hsame.trans (transition_unchanged hmoved), hmove hsame hG hmoved⟩
      | moved => cases hm
  rollback := by
    intro db H l l' hA hB hok h
    cases l with
    | inl l =>
      obtain ⟨m, hm, rfl⟩ := Stmt.map_rollback.mp h
      cases l with
      | refused => cases hm; trivial
      | storing plan scope count file => simp only [Upload.next] at hm; split at hm <;> cases hm
      | _ => cases hm
    | inr l =>
      obtain ⟨m, hm, rfl⟩ := Stmt.map_rollback.mp h
      trivial
  others := fun _ _ _ _ hm _ => hm

/-- An upload in the scope of a row has that scope, and its assignment. -/
theorem UploadPlan.Scoped.shared {plan : UploadPlan} {scope : List ℕ} {saId : ℕ} {asg : SubjectsAssignment}
    (h : plan.Scoped db₀ scope) (hsetup : db₀.Setup) (hasg : db₀.assignmentOf saId = some asg)
    (hmem : plan.saId ∈ db₀.scopeOf saId) : scope = db₀.scopeOf saId ∧ plan.asg = asg := by
  obtain ⟨hplan, rfl⟩ := h
  obtain ⟨sa, hsa, hasg⟩ := Option.bind_eq_some_iff.mp hasg
  obtain ⟨row, hrow, hplan⟩ := Option.bind_eq_some_iff.mp hplan
  obtain ⟨hscope, hsameAsg⟩ := scopeOf_shared hsetup hsa hrow hasg hmem
  rw [hsameAsg, hasg, Option.some_inj] at hplan
  exact ⟨hscope, hplan.symm⟩

end

section

variable {db₀ db db' : Db} {saId i : ℕ} {scope : List ℕ} {plan : UploadPlan} {count : Option ℕ} {event : Event}

theorem noCompleted_false (db : Db) (scope : List ℕ) :
    Upload.noCompleted db scope = false ↔ ∃ i ∈ db.submissionsIn scope, db.status i = some .completed := by
  unfold Upload.noCompleted
  rw [List.all_eq_false]
  simp

/-- A fresh upload stays within the limit of the scope it is in. -/
theorem limit_stored (hsetup : db₀.Setup) {asg : SubjectsAssignment} {limit : ℕ} (hasg : db₀.assignmentOf saId = some asg)
    (hmax : asg.config.maxSubmissions = some limit) (h : (db.submissionsIn (db₀.scopeOf saId)).length ≤ limit)
    (hplan : plan.Scoped db₀ scope) (hbelow : plan.Below count) (hfresh : ∀ n ∈ count, (db.submissionsIn scope).length = n)
    (hstores : Stores db plan.saId plan.squad db') : (db'.submissionsIn (db₀.scopeOf saId)).length ≤ limit := by
  rw [hstores.submissionsIn]
  split_ifs with hmem
  · obtain ⟨rfl, rfl⟩ := hplan.shared hsetup hasg hmem
    obtain ⟨n, hn, hlt⟩ := hbelow limit hmax
    rw [List.length_append, hfresh n hn]
    exact hlt
  · rw [List.append_nil]
    exact h

/-- A scope with a completed submission takes no fresh upload. -/
theorem completed_stored (hsetup : db₀.Setup) {ids : List ℕ} (hids : db.submissionsIn (db₀.scopeOf saId) = ids)
    (hdone : ∃ i ∈ ids, db.status i = some .completed) (hplan : plan.Scoped db₀ scope) (hfresh : Upload.noCompleted db scope = true)
    (hstores : Stores db plan.saId plan.squad db') :
    db'.submissionsIn (db₀.scopeOf saId) = ids ∧ ∃ i ∈ ids, db'.status i = some .completed := by
  obtain ⟨i, hi, hst⟩ := hdone
  have hlt : i < db.submissions.length := by
    rw [← hids] at hi
    obtain ⟨sub, hs, -⟩ := Table.mem_idsWhere.mp hi
    exact (List.getElem?_eq_some_iff.mp hs).1
  refine ⟨?_, i, hi, (hstores.status i hlt).trans hst⟩
  rw [hstores.submissionsIn, hids]
  split_ifs with hmem
  · have hsame : scope = db₀.scopeOf saId := by
      cases hasg : db₀.assignmentOf saId with
      | none =>
        rw [scopeOf_unassigned hasg] at hmem
        rw [hplan.2, List.mem_singleton.mp hmem]
      | some asg => exact (hplan.shared hsetup hasg hmem).1
    rw [← hsame] at hids
    rw [(noCompleted_false db scope).mpr ⟨i, hids ▸ hi, hst⟩] at hfresh
    cases hfresh
  · exact List.append_nil _

theorem completed_moved {ids : List ℕ} (hids : db.submissionsIn scope = ids) (hdone : ∃ i ∈ ids, db.status i = some .completed)
    (h : db.transition i event = .ok db') : db'.submissionsIn scope = ids ∧ ∃ j ∈ ids, db'.status j = some .completed := by
  obtain ⟨j, hj, hst⟩ := hdone
  refine ⟨(submissionsIn_moved h).trans hids, j, hj, ?_⟩
  obtain ⟨s, next, hs, hn, rfl⟩ := transition_ok h
  have hne : i ≠ j := by
    rintro rfl
    rw [hst, Option.some_inj] at hs
    rw [← hs, SubmissionStatus.transitions_completed] at hn
    cases hn
  rw [← hst, Db.status, Db.status, Db.setSubmission_submissions, Table.getElem?_modify_ne _ hne]

end

section

variable {P : Type*} [DecidableEq P] {db₀ db : Db} {ops : List Op} {session : P → Uploading}
  {st st' : State Db P Uploading Row} {ps ps' : List P}

/-- All sessions are about to begin. -/
def AllPosted (session : P → Uploading) : Prop := ∀ p,
  (∃ saId t file, session p = .inl (.asked saId t file)) ∨ ∃ i event, session p = .inr (.moves i event)

omit [DecidableEq P] in
theorem AllPosted.knows {session : P → Uploading} (h : AllPosted session) (db₀ : Db) (p : P) : (session p).Knows db₀ := by
  obtain ⟨saId, t, file, hp⟩ | ⟨i, event, hp⟩ := h p <;> rw [hp] <;> trivial

/-- When every upload commits over the scope it read, no limit is passed and nothing follows a
completed submission. -/
theorem upload_limit (hstart : db₀.Start) (hops : Run Db.step Any db₀ ops db) (hposted : AllPosted session)
    (h : Run (step uploading) (Ok fun db l => l.StoresFresh db) (start db session) ps st)
    (h' : Run (step uploading) (Ok fun db l => l.StoresFresh db) st ps' st') :
    (∀ saId, db.WithinLimit saId → st'.store.WithinLimit saId) ∧
      ∀ saId, Upload.noCompleted st.store (st.store.scopeOf saId) = false →
        st'.store.submissionsIn (st'.store.scopeOf saId) = st.store.submissionsIn (st.store.scopeOf saId) := by
  have hsetup := (ok_of_run hstart hops).setup
  have hfirst : ∀ G : Db → Prop, G db → Holds (fun e => Unchanged db e ∧ G e) (fun _ _ l => l.Knows db)
      (start db session : State Db P Uploading Row) :=
    fun G hG => ⟨⟨⟨.refl db, rfl⟩, hG⟩, hposted.knows db⟩
  refine ⟨fun saId hwithin => ?_, fun saId hdone => ?_⟩
  · have hend := (hfirst (fun e => ∀ asg limit, db.assignmentOf saId = some asg → asg.config.maxSubmissions = some limit →
        (e.submissionsIn (db.scopeOf saId)).length ≤ limit) hwithin).run
      (uploading_rules hsetup (fun _ hG hplan hbelow hcount _ hstores asg limit hasg hmax =>
          limit_stored hsetup hasg hmax (hG asg limit hasg hmax) hplan hbelow hcount hstores)
        fun _ hG hmoved asg limit hasg hmax => by
          rw [submissionsIn_moved hmoved]
          exact hG asg limit hasg hmax) (h.append h')
    obtain ⟨⟨hsame, hG⟩, -⟩ := hend
    intro asg limit hasg hmax
    rw [scopeOf_congr hsame.evolves hsame.rows]
    exact hG asg limit (hsame.assignmentOf saId ▸ hasg) hmax
  · have hmid := (hfirst (fun _ => True) trivial).run (uploading_rules hsetup (fun _ _ _ _ _ _ _ => trivial)
      fun _ _ _ => trivial) h
    have hscope : st.store.scopeOf saId = db.scopeOf saId := scopeOf_congr hmid.1.1.evolves hmid.1.1.rows
    rw [hscope] at hdone ⊢
    have hend := Holds.run (uploading_rules hsetup
        (G := fun e => e.submissionsIn (db.scopeOf saId) = st.store.submissionsIn (db.scopeOf saId) ∧
          ∃ i ∈ st.store.submissionsIn (db.scopeOf saId), e.status i = some .completed)
        (fun _ hG hplan _ _ hfresh hstores => completed_stored hsetup hG.1 hG.2 hplan hfresh hstores)
        fun _ hG hmoved => completed_moved hG.1 hG.2 hmoved)
      ⟨⟨hmid.1.1, rfl, (noCompleted_false _ _).mp hdone⟩, hmid.2⟩ h'
    rw [scopeOf_congr hend.1.1.evolves hend.1.1.rows]
    exact hend.1.2.1

end

/-- Every assignment takes `n` submissions. -/
def Db.limited (db : Db) (n : ℕ) : Db :=
  { db with subjectsAssignments := db.subjectsAssignments.map fun a =>
      { a with config := { a.config with maxSubmissions := some n } } }

theorem Db.Start.limited {db : Db} (h : db.Start) (n : ℕ) : (db.limited n).Start where
  setup :=
    { mirrored := by
        intro asgId asg c cfg code block hasg hc hcfg hcode hblock
        obtain ⟨a, ha, rfl⟩ := Option.map_eq_some_iff.mp ((List.getElem?_map ..).symm.trans hasg)
        exact h.setup.mirrored asgId a c cfg code block ha hc hcfg hcode hblock
      squadsEnabled := h.setup.squadsEnabled
      oneSquad := h.setup.oneSquad }
  unique := h.unique
  submissions := h.submissions
  quizAttempts := h.quizAttempts
  outbox := h.outbox

/-- One submission for the assignment. -/
def oneUpload : Db := (oneSubject { reviewMode := some .testsOnly } {} [] [0]).limited 1

theorem oneUpload_start : oneUpload.Start := (oneSubject_start (by decide) (by simp)).limited 1

theorem oneUpload_within (saId : ℕ) : oneUpload.WithinLimit saId := fun _ _ _ _ => Nat.zero_le _

/-- The student posts two files. -/
def postTwice (_ : Fin 2) : Uploading := .inl (.asked 0 0 {})

/-- Both count no submission, and both are stored. -/
theorem upload_limit_passed : ¬ ∀ (n : ℕ) (db₀ db : Db) (ops : List Op) (session : Fin n → Uploading)
    (st st' : State Db (Fin n) Uploading Row) (ps ps' : List (Fin n)), db₀.Start → Run Db.step Any db₀ ops db →
    AllPosted session → Run (step uploading) Any (start db session) ps st → Run (step uploading) Any st ps' st' →
    (∀ saId, db.WithinLimit saId → st'.store.WithinLimit saId) ∧
      ∀ saId, Upload.noCompleted st.store (st.store.scopeOf saId) = false →
        st'.store.submissionsIn (st'.store.scopeOf saId) = st.store.submissionsIn (st.store.scopeOf saId) := by
  intro hall
  have h := hall 2 oneUpload _ [] postTwice _ _ [0, 0, 0, 0, 0, 0, 1, 1, 1, 1, 1, 1, 0, 1] [] oneUpload_start .nil
    (fun _ => .inl ⟨0, 0, {}, rfl⟩) (run_foldl _) .nil
  exact absurd (h.1 0 (oneUpload_within 0) _ 1 rfl rfl) (by decide +kernel)

/-- Once the first is stored, the second is refused. -/
theorem postTwice_within :
    let st := [0, 0, 0, 0, 0, 0, 0, 1, 1, 1, 1, 1].foldl (step uploading) (start oneUpload postTwice)
    st.store.submissions.length = 1 ∧ st.store.WithinLimit 0 := by
  have hposted : AllPosted postTwice := fun _ => .inl ⟨0, 0, {}, rfl⟩
  have hchecks : Checks (step uploading) (Ok fun db l => l.StoresFresh db) (start oneUpload postTwice)
      [0, 0, 0, 0, 0, 0, 0, 1, 1, 1, 1, 1] := by decide +kernel
  exact ⟨by decide +kernel,
    (upload_limit oneUpload_start .nil hposted (run_of_checks hchecks) .nil).1 0 (oneUpload_within 0)⟩

end SubmissionsChecker
