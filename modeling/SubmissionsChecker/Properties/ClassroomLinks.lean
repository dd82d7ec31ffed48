import SubmissionsChecker.Effects.Gradings
import SubmissionsChecker.Library.Runs

/-! Who a roster entry is. Whatever teachers do, a student has at most one confirmed link in a subject, and a sync
changes nothing of a link that has been decided. -/

namespace SubmissionsChecker.Classroom

open Runs

variable {db db' : ClassroomDb} {l k subjectId studentId now : ℕ} {link link' : ClassroomStudentLink} {matcher : Matcher}
  {entry : Matching.RosterEntry}

/-- The link makes a student of the subject of its Classroom user. -/
structure ClassroomStudentLink.Holds (link : ClassroomStudentLink) (subjectId studentId : ℕ) : Prop where
  subject : link.subjectId = subjectId
  student : link.studentId = some studentId
  confirmed : link.confirmed = true

/-- One link for each Classroom user of a subject, and one confirmed link at most for each student. -/
structure LinksOk (db : ClassroomDb) : Prop where
  users : ∀ (l k : ℕ) link link', db.links[l]? = some link → db.links[k]? = some link' →
    link.subjectId = link'.subjectId → link.classroomUserId = link'.classroomUserId → l = k
  profiles : ∀ (l k : ℕ) link link' subjectId studentId, db.links[l]? = some link → db.links[k]? = some link' →
    link.Holds subjectId studentId → link'.Holds subjectId studentId → l = k

theorem studentTaken_false (h : db.studentTaken subjectId studentId l = false) (hne : k ≠ l) (hk : db.links[k]? = some link) :
    ¬ link.Holds subjectId studentId := by
  intro hholds
  have htaken : db.studentTaken subjectId studentId l = true := by
    rw [ClassroomDb.studentTaken, List.any_eq_true]
    refine ⟨k, Table.mem_idsWhere.mpr ⟨link, hk, ?_⟩, bne_iff_ne.mpr hne⟩
    rw [hholds.subject, hholds.student, hholds.confirmed]
    simp
  rw [h] at htaken
  cases htaken

/-- One link is written, and holds nobody that another one holds. -/
theorem linksOk_setLink (h : LinksOk db) {f : ClassroomStudentLink → ClassroomStudentLink}
    (hsubject : ∀ link, (f link).subjectId = link.subjectId)
    (huser : ∀ link, (f link).classroomUserId = link.classroomUserId)
    (hfree : ∀ link subjectId studentId, db.links[l]? = some link → (f link).Holds subjectId studentId →
      ∀ k ≠ l, ∀ other, db.links[k]? = some other → ¬ other.Holds subjectId studentId) :
    LinksOk (db.setLink l f) := by
  have hrow : ∀ (k : ℕ) link', (db.setLink l f).links[k]? = some link' → ∃ link, db.links[k]? = some link ∧
      link'.subjectId = link.subjectId ∧ link'.classroomUserId = link.classroomUserId ∧
      (k = l ∧ link' = f link ∨ k ≠ l ∧ link' = link) := by
    intro k link' hk
    obtain ⟨link, hlink, rfl⟩ := Table.getElem?_modify_some hk
    refine ⟨link, hlink, ?_⟩
    by_cases hkl : l = k
    · rw [if_pos hkl]
      exact ⟨hsubject link, huser link, .inl ⟨hkl.symm, rfl⟩⟩
    · rw [if_neg hkl]
      exact ⟨rfl, rfl, .inr ⟨fun heq => hkl heq.symm, rfl⟩⟩
  refine ⟨fun i j link link' hi hj hs hu => ?_, fun i j link link' s t hi hj hholds hholds' => ?_⟩
  · obtain ⟨link₁, hi₁, hs₁, hu₁, -⟩ := hrow i link hi
    obtain ⟨link₂, hj₂, hs₂, hu₂, -⟩ := hrow j link' hj
    exact h.users i j link₁ link₂ hi₁ hj₂ (by rw [← hs₁, hs, hs₂]) (by rw [← hu₁, hu, hu₂])
  · obtain ⟨link₁, hi₁, -, -, ⟨rfl, rfl⟩ | ⟨hil, rfl⟩⟩ := hrow i link hi
    · obtain ⟨link₂, hj₂, -, -, ⟨rfl, rfl⟩ | ⟨hjl, rfl⟩⟩ := hrow j link' hj
      · rfl
      · exact absurd hholds' (hfree link₁ s t hi₁ hholds j hjl _ hj₂)
    · obtain ⟨link₂, hj₂, -, -, ⟨rfl, rfl⟩ | ⟨hjl, rfl⟩⟩ := hrow j link' hj
      · exact absurd hholds (hfree link₂ s t hj₂ hholds' i hil _ hi₁)
      · exact h.profiles i j _ _ s t hi₁ hj₂ hholds hholds'

/-- What is written gives the link no student it did not hold. -/
theorem linksOk_setLink_of_holds (h : LinksOk db) {f : ClassroomStudentLink → ClassroomStudentLink}
    (hsubject : ∀ link, (f link).subjectId = link.subjectId)
    (huser : ∀ link, (f link).classroomUserId = link.classroomUserId)
    (hholds : ∀ link subjectId studentId, db.links[l]? = some link → (f link).Holds subjectId studentId →
      link.Holds subjectId studentId) : LinksOk (db.setLink l f) :=
  linksOk_setLink h hsubject huser fun link s t hlink hf k hne other hk hother =>
    hne (h.profiles k l other link s t hk hlink hother (hholds link s t hlink hf))

theorem linksOk_releaseWaiting (h : LinksOk db) (l now : ℕ) : LinksOk (db.releaseWaiting l now) := ⟨h.users, h.profiles⟩

/-! ## Requests -/

theorem linksOk_resolveLink {enrolled : List (ℕ × ℕ)} {action : LinkAction} {student : Option ℕ} (h : LinksOk db)
    (hok : db.resolveLink enrolled subjectId l action student now = .ok db') : LinksOk db' := by
  unfold ClassroomDb.resolveLink at hok
  cases hlink : (db.links[l]?).filter fun link => link.subjectId == subjectId with
  | none =>
    rw [hlink] at hok
    cases hok
  | some link =>
    rw [hlink] at hok
    obtain ⟨hrow, hsubject⟩ := Option.filter_eq_some_iff.mp hlink
    have hsame : ∀ row, db.links[l]? = some row → row.subjectId = subjectId := by
      intro row hl
      rw [hrow] at hl
      cases hl
      exact beq_iff_eq.mp hsubject
    cases action with
    | link =>
      cases student with
      | none =>
        cases hok
        exact h
      | some student =>
        change db.linkStudent enrolled subjectId l student now = .ok db' at hok
        unfold ClassroomDb.linkStudent at hok
        split_ifs at hok with henrolled htaken
        cases hok
        refine linksOk_releaseWaiting (linksOk_setLink (f := linkedTo student) h (fun _ => rfl) (fun _ => rfl) ?_) l now
        intro row s t hl hholds k hne other hk
        have hs : s = subjectId := hholds.subject.symm.trans (hsame row hl)
        have ht : t = student := Option.some_inj.mp hholds.student.symm
        rw [hs, ht]
        exact studentTaken_false (Bool.eq_false_iff.mpr htaken) hne hk
    | ignore =>
      cases hok
      exact linksOk_setLink_of_holds h (fun _ => rfl) (fun _ => rfl) fun _ _ _ _ hholds => by cases hholds.student
    | confirm =>
      change db.confirmLink subjectId l link now = .ok db' at hok
      unfold ClassroomDb.confirmLink at hok
      cases hmethod : link.method with
      | name =>
        cases hstudent : link.studentId with
        | none =>
          rw [hmethod, hstudent] at hok
          cases hok
          exact h
        | some student =>
          rw [hmethod, hstudent] at hok
          dsimp only at hok
          split_ifs at hok with htaken
          cases hok
          refine linksOk_releaseWaiting (linksOk_setLink (f := confirmedByHand) h (fun _ => rfl) (fun _ => rfl) ?_) l now
          intro row s t hl hholds k hne other hk
          have hs : s = subjectId := hholds.subject.symm.trans (hsame row hl)
          have ht : some t = some student := by
            rw [hrow] at hl
            cases hl
            exact hholds.student.symm.trans hstudent
          cases ht
          rw [hs]
          exact studentTaken_false (Bool.eq_false_iff.mpr htaken) hne hk
      | email | manual | ignored | none =>
        rw [hmethod] at hok
        cases hok
        exact h
    | other =>
      cases hok
      exact h

/-- In the loop of the bulk confirmation the set has everybody who holds a link of the subject. -/
structure Confirming (subjectId : ℕ) (s : ClassroomDb × List (Option ℕ)) : Prop where
  ok : LinksOk s.1
  taken : ∀ (k : ℕ) link studentId, s.1.links[k]? = some link → link.Holds subjectId studentId → some studentId ∈ s.2

theorem confirming_turn {s : ClassroomDb × List (Option ℕ)} (h : Confirming subjectId s)
    (hl : ∀ link, s.1.links[l]? = some link → link.subjectId = subjectId) :
    Confirming subjectId (ClassroomDb.confirmTurn s l) := by
  unfold ClassroomDb.confirmTurn
  cases hlink : s.1.links[l]? with
  | none => exact h
  | some link =>
    dsimp only
    by_cases htaken : link.studentId ∈ s.2
    · rw [if_pos htaken]
      exact h
    · rw [if_neg htaken]
      refine ⟨linksOk_setLink (f := confirmedByHand) h.ok (fun _ => rfl) (fun _ => rfl) ?_, ?_⟩
      · intro row s' t hrow hholds k _ other hk hother
        rw [hlink] at hrow
        cases hrow
        have hs : s' = subjectId := hholds.subject.symm.trans (hl link hlink)
        rw [hs] at hother
        refine htaken ?_
        rw [show link.studentId = some t from hholds.student]
        exact h.taken k other t hk hother
      · intro k row t hk hholds
        obtain ⟨row₀, hk₀, rfl⟩ := Table.getElem?_modify_some hk
        by_cases hlk : l = k
        · subst hlk
          rw [if_pos rfl] at hholds
          rw [hlink] at hk₀
          cases hk₀
          exact List.mem_cons.mpr (.inl hholds.student.symm)
        · rw [if_neg hlk] at hholds
          exact List.mem_cons_of_mem _ (h.taken k row₀ t hk₀ hholds)

theorem confirmTurn_subject {s : ClassroomDb × List (Option ℕ)} (k : ℕ)
    (hk : ∀ link, s.1.links[k]? = some link → link.subjectId = subjectId) :
    ∀ link, (ClassroomDb.confirmTurn s l).1.links[k]? = some link → link.subjectId = subjectId := by
  unfold ClassroomDb.confirmTurn
  cases s.1.links[l]? with
  | none => exact hk
  | some row =>
    dsimp only
    split_ifs
    · exact hk
    · intro link hlink
      obtain ⟨link₀, hlink₀, rfl⟩ := Table.getElem?_modify_some hlink
      have hs := hk link₀ hlink₀
      split_ifs <;> exact hs

theorem linksOk_confirmAllLinks (h : LinksOk db) (subjectId : ℕ) : LinksOk (db.confirmAllLinks subjectId) := by
  have hloop : ∀ (ids : List ℕ) (s : ClassroomDb × List (Option ℕ)), Confirming subjectId s →
      (∀ l ∈ ids, ∀ link, s.1.links[l]? = some link → link.subjectId = subjectId) →
      Confirming subjectId (ids.foldl ClassroomDb.confirmTurn s) := by
    intro ids
    induction ids with
    | nil => exact fun s hs _ => hs
    | cons l ids ih =>
      intro s hs hids
      refine ih _ (confirming_turn hs (hids l List.mem_cons_self)) fun k hk => ?_
      exact confirmTurn_subject k (hids k (List.mem_cons_of_mem _ hk))
  refine (hloop (db.bulkConfirmable subjectId) (db, db.takenStudents subjectId) ⟨h, ?_⟩ ?_).ok
  · intro k link t hk hholds
    refine List.mem_map.mpr ⟨link, List.mem_filter.mpr ⟨List.mem_of_getElem? hk, ?_⟩, hholds.student⟩
    rw [hholds.subject, hholds.confirmed, hholds.student]
    simp
  · intro l hl link hlink
    obtain ⟨row, hrow, hp⟩ := Table.mem_idsWhere.mp hl
    rw [hlink] at hrow
    cases hrow
    simp only [Bool.and_eq_true, beq_iff_eq] at hp
    exact hp.1.1.1

theorem linksOk_linkRequest {enrolled : List (ℕ × ℕ)} {request : LinkRequest} (h : LinksOk db) :
    LinksOk (db.linkRequest enrolled subjectId now request) := by
  cases request with
  | resolve linkId action student =>
    unfold ClassroomDb.linkRequest
    dsimp only
    cases hok : db.resolveLink enrolled subjectId linkId action student now with
    | error e => exact h
    | ok db' => exact linksOk_resolveLink h hok
  | confirmAll => exact linksOk_confirmAllLinks h subjectId

theorem linksOk_linkRequests (enrolled : List (ℕ × ℕ)) (now : ℕ) (requests : List (ℕ × LinkRequest)) :
    ∀ db : ClassroomDb, LinksOk db → LinksOk (db.linkRequests enrolled now requests) := by
  induction requests with
  | nil => exact fun db h => h
  | cons r requests ih => exact fun db h => ih _ (linksOk_linkRequest h)

/-! ## Syncs -/

/-- A student, or a method, is in the link. -/
def ClassroomStudentLink.Decided (link : ClassroomStudentLink) : Prop := link.method ≠ .none ∨ link.studentId.isSome = true

/-- The matcher is sure of the student. -/
structure SureOf (matcher : Matcher) (entry : Matching.RosterEntry) (studentId : ℕ) : Prop where
  certain : (matcher entry).certain = true
  student : (matcher entry).studentId = some studentId

/-- What the sync of an entry makes of its link. -/
structure Synced (matcher : Matcher) (entry : Matching.RosterEntry) (link link' : ClassroomStudentLink) : Prop where
  subject : link'.subjectId = link.subjectId
  user : link'.classroomUserId = link.classroomUserId
  holds : ∀ subjectId studentId, link'.Holds subjectId studentId →
    link.Holds subjectId studentId ∨ SureOf matcher entry studentId
  decided : link.Decided → link'.method = link.method ∧ link'.studentId = link.studentId ∧
    (link.confirmed = true → link'.confirmed = true)

theorem synced_refreshed (matcher : Matcher) (entry : Matching.RosterEntry) (link : ClassroomStudentLink) :
    Synced matcher entry link (refreshed entry link) where
  subject := rfl
  user := rfl
  holds _ _ h := .inl ⟨h.subject, h.student, h.confirmed⟩
  decided _ := ⟨rfl, rfl, fun h => h⟩

theorem synced_confirmExact (matcher : Matcher) (entry : Matching.RosterEntry) (link : ClassroomStudentLink) :
    Synced matcher entry link (confirmExact (matcher entry) (refreshed entry link)) := by
  unfold confirmExact
  by_cases hexact : ((matcher entry).certain && (matcher entry).studentId == (refreshed entry link).studentId) = true
  · rw [if_pos hexact]
    rw [Bool.and_eq_true, beq_iff_eq] at hexact
    exact ⟨rfl, rfl, fun _ _ h => .inr ⟨hexact.1, hexact.2.trans h.student⟩, fun _ => ⟨rfl, rfl, fun _ => rfl⟩⟩
  · rw [if_neg hexact]
    exact synced_refreshed matcher entry link

theorem synced_rematch (matcher : Matcher) (entry : Matching.RosterEntry) (hlink : ¬ link.Decided) :
    Synced matcher entry link (rematch (matcher entry) (refreshed entry link)) := by
  unfold rematch
  dsimp only
  split_ifs
  · exact ⟨rfl, rfl, fun _ _ h => .inl ⟨h.subject, h.student, h.confirmed⟩, fun h => absurd h hlink⟩
  · exact ⟨rfl, rfl, fun _ _ h => .inr ⟨h.confirmed, h.student⟩, fun h => absurd h hlink⟩

/-- The turn of an entry appends its link, or writes it, or does nothing. -/
theorem upsertLink_cases (db : ClassroomDb) (subjectId now : ℕ) (matcher : Matcher) (entry : Matching.RosterEntry) :
    (upsertLink subjectId now matcher db entry).links = db.links ∨
    db.linkOf subjectId entry.userId = none ∧ (upsertLink subjectId now matcher db entry).links =
      db.links ++ [newLink subjectId entry (matcher entry)] ∨
    ∃ l f, db.linkOf subjectId entry.userId = some l ∧
      (upsertLink subjectId now matcher db entry).links = db.links.modify l f ∧
      ∀ link, db.links[l]? = some link → Synced matcher entry link (f link) := by
  unfold upsertLink
  by_cases hid : entry.userId = ""
  · rw [if_pos hid]
    exact .inl rfl
  rw [if_neg hid]
  cases hl : db.linkOf subjectId entry.userId with
  | none => exact .inr (.inl ⟨rfl, rfl⟩)
  | some l =>
    dsimp only
    refine .inr (.inr ⟨l, ?_⟩)
    obtain ⟨link, hlink, -⟩ := Table.findId_some hl
    have hrow : (db.setLink l (refreshed entry)).links[l]? = some (refreshed entry link) := by
      rw [ClassroomDb.setLink, Table.getElem?_modify_self, hlink, Option.map_some]
    rw [hrow]
    dsimp only
    have htwice : ∀ f, ((db.setLink l (refreshed entry)).setLink l f).links = db.links.modify l (f ∘ refreshed entry) :=
      fun f => List.modify_modify_eq ..
    split_ifs with hname hdecided hnone
    · refine ⟨_, rfl, htwice _, fun row _ => synced_confirmExact matcher entry row⟩
    · exact ⟨_, rfl, rfl, fun row _ => synced_refreshed matcher entry row⟩
    · refine ⟨_, rfl, htwice _, fun row hrow => ?_⟩
      rw [hlink] at hrow
      cases hrow
      exact synced_rematch matcher entry hdecided
    · refine ⟨_, rfl, htwice _, fun row hrow => ?_⟩
      rw [hlink] at hrow
      cases hrow
      exact synced_rematch matcher entry hdecided

/-- Nobody is taken for a student of another link, or for the student of another entry. -/
structure Unambiguous (db : ClassroomDb) (subjectId : ℕ) (matcher : Matcher) (roster : List Matching.RosterEntry) :
    Prop where
  links : ∀ entry ∈ roster, ∀ studentId, SureOf matcher entry studentId →
    ∀ (k : ℕ) link, db.links[k]? = some link → link.Holds subjectId studentId → link.classroomUserId = entry.userId
  entries : ∀ entry ∈ roster, ∀ other ∈ roster, ∀ studentId, SureOf matcher entry studentId →
    SureOf matcher other studentId → other.userId = entry.userId

theorem linkOf_none (h : db.linkOf subjectId entry.userId = none) (hk : db.links[k]? = some link)
    (hsubject : link.subjectId = subjectId) : link.classroomUserId ≠ entry.userId := by
  intro huser
  have hp := Table.findId_none h link (List.mem_of_getElem? hk)
  rw [hsubject, huser] at hp
  simp at hp

/-- Where the links of the turn come from. -/
theorem upsertLink_source (h : (upsertLink subjectId now matcher db entry).links[k]? = some link') :
    (∃ link, db.links[k]? = some link ∧ link'.subjectId = link.subjectId ∧
      link'.classroomUserId = link.classroomUserId ∧ ∀ s t, link'.Holds s t → link.Holds s t ∨
        link.subjectId = subjectId ∧ link.classroomUserId = entry.userId ∧ SureOf matcher entry t) ∨
    k = db.links.length ∧ db.linkOf subjectId entry.userId = none ∧ link' = newLink subjectId entry (matcher entry) := by
  rcases upsertLink_cases db subjectId now matcher entry with heq | ⟨hnone, heq⟩ | ⟨l, f, hl, heq, hsynced⟩
  · rw [heq] at h
    exact .inl ⟨link', h, rfl, rfl, fun _ _ hholds => .inl hholds⟩
  · rw [heq] at h
    rcases Table.getElem?_concat_some h with hold | ⟨hk, rfl⟩
    · exact .inl ⟨link', hold, rfl, rfl, fun _ _ hholds => .inl hholds⟩
    · exact .inr ⟨hk, hnone, rfl⟩
  · rw [heq] at h
    obtain ⟨link, hk, rfl⟩ := Table.getElem?_modify_some h
    refine .inl ⟨link, hk, ?_⟩
    by_cases hlk : l = k
    · subst hlk
      rw [if_pos rfl]
      obtain ⟨row, hrow, hp⟩ := Table.findId_some hl
      rw [hk] at hrow
      cases hrow
      rw [Bool.and_eq_true, beq_iff_eq, beq_iff_eq] at hp
      have hlink := hsynced link hk
      exact ⟨hlink.subject, hlink.user, fun s t hholds => (hlink.holds s t hholds).imp_right fun h => ⟨hp.1, hp.2, h⟩⟩
    · rw [if_neg hlk]
      exact ⟨rfl, rfl, fun _ _ hholds => .inl hholds⟩

theorem users_upsertLink (h : LinksOk db) (hk : (upsertLink subjectId now matcher db entry).links[k]? = some link)
    (hl : (upsertLink subjectId now matcher db entry).links[l]? = some link') (hs : link.subjectId = link'.subjectId)
    (hu : link.classroomUserId = link'.classroomUserId) : k = l := by
  rcases upsertLink_source hk with ⟨link₁, hk₁, hs₁, hu₁, -⟩ | ⟨hk₁, hnone, rfl⟩
  · rcases upsertLink_source hl with ⟨link₂, hl₂, hs₂, hu₂, -⟩ | ⟨-, hnone, rfl⟩
    · exact h.users k l link₁ link₂ hk₁ hl₂ (by rw [← hs₁, hs, hs₂]) (by rw [← hu₁, hu, hu₂])
    · exact absurd (hu₁.symm.trans hu) (linkOf_none hnone hk₁ (hs₁.symm.trans hs))
  · rcases upsertLink_source hl with ⟨link₂, hl₂, hs₂, hu₂, -⟩ | ⟨hl₂, -, -⟩
    · exact absurd (hu₂.symm.trans hu.symm) (linkOf_none hnone hl₂ (hs₂.symm.trans hs.symm))
    · exact hk₁.trans hl₂.symm

/-- Who holds a student after the turn held them before, or is the entry. -/
theorem holds_upsertLink {s : ℕ} (hk : (upsertLink subjectId now matcher db entry).links[k]? = some link')
    (hholds : link'.Holds s studentId) :
    (∃ link, db.links[k]? = some link ∧ link.Holds s studentId ∧ link'.classroomUserId = link.classroomUserId) ∨
    s = subjectId ∧ link'.classroomUserId = entry.userId ∧ SureOf matcher entry studentId := by
  rcases upsertLink_source hk with ⟨link, hlink, hs, hu, hfrom⟩ | ⟨-, -, rfl⟩
  · rcases hfrom _ _ hholds with hbefore | ⟨hsubject, huser, hsure⟩
    · exact .inl ⟨link, hlink, hbefore, hu⟩
    · exact .inr ⟨hholds.subject.symm.trans (hs.trans hsubject), hu.trans huser, hsure⟩
  · exact .inr ⟨hholds.subject.symm, rfl, hholds.confirmed, hholds.student⟩

theorem linksOk_upsertLink {roster : List Matching.RosterEntry} (h : LinksOk db)
    (hclear : Unambiguous db subjectId matcher roster) (hentry : entry ∈ roster) :
    LinksOk (upsertLink subjectId now matcher db entry) := by
  refine ⟨fun _ _ _ _ hi hj hs hu => users_upsertLink h hi hj hs hu, fun i j link link' s t hi hj hholds hholds' => ?_⟩
  refine users_upsertLink h hi hj (hholds.subject.trans hholds'.subject.symm) ?_
  rcases holds_upsertLink hi hholds with ⟨link₁, hi₁, hholds₁, hu₁⟩ | ⟨hs, hu₁, hsure⟩
  · rcases holds_upsertLink hj hholds' with ⟨link₂, hj₂, hholds₂, hu₂⟩ | ⟨hs, hu₂, hsure⟩
    · have hij : i = j := h.profiles i j link₁ link₂ s t hi₁ hj₂ hholds₁ hholds₂
      subst hij
      rw [hi] at hj
      cases hj
      rfl
    · rw [hs] at hholds₁
      exact hu₁.trans ((hclear.links entry hentry t hsure i link₁ hi₁ hholds₁).trans hu₂.symm)
  · rcases holds_upsertLink hj hholds' with ⟨link₂, hj₂, hholds₂, hu₂⟩ | ⟨-, hu₂, -⟩
    · rw [hs] at hholds₂
      exact hu₁.trans ((hclear.links entry hentry t hsure j link₂ hj₂ hholds₂).symm.trans hu₂.symm)
    · exact hu₁.trans hu₂.symm

/-- The rest of the roster is as unambiguous as before. -/
theorem unambiguous_upsertLink {roster : List Matching.RosterEntry} (h : Unambiguous db subjectId matcher roster)
    (hentry : entry ∈ roster) : Unambiguous (upsertLink subjectId now matcher db entry) subjectId matcher roster where
  links other hother t hsure k link' hk hholds := by
    rcases holds_upsertLink hk hholds with ⟨link, hlink, hbefore, hu⟩ | ⟨-, hu, hsure'⟩
    · exact hu.trans (h.links other hother t hsure k link hlink hbefore)
    · exact hu.trans (h.entries other hother entry hentry t hsure hsure')
  entries := h.entries

theorem linksOk_upsertLinks {roster : List Matching.RosterEntry} (h : LinksOk db)
    (hclear : Unambiguous db subjectId matcher roster) : LinksOk (upsertLinks subjectId now matcher roster db) := by
  have hloop : ∀ (entries : List Matching.RosterEntry) (db : ClassroomDb), (∀ entry ∈ entries, entry ∈ roster) →
      LinksOk db → Unambiguous db subjectId matcher roster →
      LinksOk (entries.foldl (upsertLink subjectId now matcher) db) := by
    intro entries
    induction entries with
    | nil => exact fun db _ h _ => h
    | cons entry entries ih =>
      intro db hsub h hclear
      have hentry := hsub entry List.mem_cons_self
      exact ih _ (fun other hother => hsub other (List.mem_cons_of_mem _ hother)) (linksOk_upsertLink h hclear hentry)
        (unambiguous_upsertLink hclear hentry)
  exact hloop roster db (fun _ h => h) h hclear

/-! ## Runs -/

theorem LinksOk.of_links (h : LinksOk db) (heq : db'.links = db.links) : LinksOk db' := by
  refine ⟨fun i j => ?_, fun i j => ?_⟩
  · rw [heq]
    exact h.users i j
  · rw [heq]
    exact h.profiles i j

theorem job_links (s : Night) (g : ℕ) (turn : Turn) : (s.job g turn).db.links = s.db.links := by
  rw [Night.job_db]
  exact (gradeOne_frame ..).2.1

/-- The night changes links by the requests of its turns only. -/
theorem run_keeps_links {I : ClassroomDb → Prop} {enrolled : List (ℕ × ℕ)} {deadline : ℕ}
    (hlinks : ∀ db db', db'.links = db.links → I db → I db') :
    ∀ (pairs : List (ℕ × Turn)) (s : Night),
      (∀ p ∈ pairs, ∀ db, I db → I (db.linkRequests enrolled p.2.checked p.2.requests)) → I s.db →
      I (Night.run enrolled deadline pairs s).db := by
  intro pairs
  induction pairs with
  | nil => exact fun s _ h => h
  | cons p pairs ih =>
    intro s hrequests h
    unfold Night.run
    split_ifs
    · exact h
    · refine ih _ (fun q hq => hrequests q (List.mem_cons_of_mem _ hq)) ?_
      have hanswered := hrequests p List.mem_cons_self s.db h
      unfold Night.turn
      dsimp only
      split_ifs
      · exact hlinks _ _ (job_links ..) hanswered
      · exact hanswered

theorem gradingLoop_keeps_links {I : ClassroomDb → Prop} {enrolled : List (ℕ × ℕ)} {deadline nightStart : ℕ} {cap : ℤ}
    {turns : List Turn} (hlinks : ∀ db db', db'.links = db.links → I db → I db')
    (hrequests : ∀ turn ∈ turns, ∀ db, I db → I (db.linkRequests enrolled turn.checked turn.requests)) (h : I db) :
    I (gradingLoop enrolled deadline nightStart cap turns db).db := by
  unfold gradingLoop
  split_ifs
  · exact h
  · refine run_keeps_links hlinks _ ⟨db, 0, 0, []⟩ (fun p hp => ?_) h
    exact hrequests p.2 (List.of_mem_zip hp).2

/-- A sync's matches are unambiguous; nothing is asked of the other steps. -/
def ClearSync (db : ClassroomDb) : ClassroomOp → Prop
  | .roster subjectId _ matcher roster => Unambiguous db subjectId matcher roster
  | _ => True

/-- Links change in a sync and by requests, those of a night among them. -/
theorem step_keeps_links {I : ClassroomDb → Prop} {op : ClassroomOp}
    (hlinks : ∀ db db', db'.links = db.links → I db → I db')
    (hroster : ∀ subjectId now matcher roster, op = .roster subjectId now matcher roster →
      I (upsertLinks subjectId now matcher roster db))
    (hrequest : ∀ enrolled subjectId now request, op = .request enrolled subjectId now request →
      I (db.linkRequest enrolled subjectId now request))
    (hgrade : ∀ enrolled deadline nightStart cap turns, op = .grade enrolled deadline nightStart cap turns →
      ∀ turn ∈ turns, ∀ db, I db → I (db.linkRequests enrolled turn.checked turn.requests)) (h : I db) :
    I (db.step op) := by
  cases op with
  | roster subjectId now matcher roster => exact hroster subjectId now matcher roster rfl
  | handIn env sub => exact hlinks _ _ (ingested_links db env sub) h
  | request enrolled subjectId now request => exact hrequest enrolled subjectId now request rfl
  | retry subjectId g now =>
    change I ((db.retryGrading subjectId g now).toOption.getD db)
    rcases retry_cases db subjectId g now with heq | ⟨-, -, -, heq⟩
    · rw [heq]
      exact h
    · rw [heq]
      exact hlinks db _ rfl h
  | coursework subjectId form =>
    obtain ⟨rows, hrows⟩ := linkCourseworkBatch_frame db subjectId form
    change I (((db.linkCourseworkBatch subjectId form).toOption.map (·.1)).getD db)
    rw [hrows]
    exact hlinks db _ rfl h
  | assignments rows => exact hlinks db _ rfl h
  | reap now => exact hlinks db _ rfl h
  | grade enrolled deadline nightStart cap turns =>
    exact gradingLoop_keeps_links hlinks (hgrade enrolled deadline nightStart cap turns rfl) h

/-- No student has two confirmed links of a subject, whatever teachers ask and however syncs and gradings come in
between, as long as the matcher is not sure of a student whom another Classroom user holds. -/
theorem one_profile_per_student {ops : List ClassroomOp} (h : Run ClassroomDb.step ClearSync db ops db')
    (hdb : LinksOk db) : LinksOk db' := by
  refine h.invariant hdb fun db op hok hclear => ?_
  refine step_keeps_links (fun _ _ heq hok => hok.of_links heq) ?_ ?_ ?_ hok
  · intro subjectId now matcher roster hop
    subst hop
    exact linksOk_upsertLinks hok hclear
  · intro enrolled subjectId now request hop
    exact linksOk_linkRequest hok
  · intro enrolled deadline nightStart cap turns hop turn hturn db hok
    exact linksOk_linkRequests enrolled turn.checked turn.requests db hok

/-- Sure of one Classroom user only. -/
def surelyFirst (entry : Matching.RosterEntry) : Matching.MatchResult :=
  if entry.userId = "first" then ⟨.name, some 1, some 1, [], true⟩ else ⟨.none, none, none, [], false⟩

theorem user_of_surelyFirst (h : SureOf surelyFirst entry studentId) : entry.userId = "first" := by
  have hcertain := h.certain
  unfold surelyFirst at hcertain
  by_contra huser
  rw [if_neg huser] at hcertain
  cases hcertain

/-- The second user is to be the first one's student, which is refused. -/
def twiceLinked : List ClassroomOp :=
  [.roster 0 1 surelyFirst [⟨"first", "Ann", none⟩, ⟨"second", "Bob", none⟩],
    .request [(0, 1)] 0 2 (.resolve 1 .link (some 1)), .request [(0, 1)] 0 3 .confirmAll]

theorem twiceLinked_has_one_profile : LinksOk (twiceLinked.foldl ClassroomDb.step ⟨[], [], [], []⟩) := by
  have hclear : Checks ClassroomDb.step ClearSync ⟨[], [], [], []⟩ twiceLinked := by
    refine ⟨⟨fun entry _ t _ k link hk => ?_, fun entry _ other _ t hsure hsure' => ?_⟩, trivial, trivial, trivial⟩
    · cases hk
    · rw [user_of_surelyFirst hsure, user_of_surelyFirst hsure']
  refine one_profile_per_student (run_of_checks hclear) ⟨fun i j link link' hi => ?_, fun i j link link' s t hi => ?_⟩
  · cases hi
  · cases hi

/-- Each link stands where it stood, of the same user; one that was decided is decided in the same way. -/
structure KeepsLinks (db db' : ClassroomDb) : Prop where
  rows : ∀ (k : ℕ) link, db.links[k]? = some link → ∃ link', db'.links[k]? = some link' ∧
    link'.subjectId = link.subjectId ∧ link'.classroomUserId = link.classroomUserId ∧
    (link.Decided → link'.method = link.method ∧ link'.studentId = link.studentId ∧
      (link.confirmed = true → link'.confirmed = true))

namespace KeepsLinks

theorem refl (db : ClassroomDb) : KeepsLinks db db := ⟨fun _ link hk => ⟨link, hk, rfl, rfl, fun _ => ⟨rfl, rfl, id⟩⟩⟩

theorem trans {db'' : ClassroomDb} (h₁ : KeepsLinks db db') (h₂ : KeepsLinks db' db'') : KeepsLinks db db'' := by
  refine ⟨fun k link hk => ?_⟩
  obtain ⟨link₁, hk₁, hs₁, hu₁, hdecided₁⟩ := h₁.rows k link hk
  obtain ⟨link₂, hk₂, hs₂, hu₂, hdecided₂⟩ := h₂.rows k link₁ hk₁
  refine ⟨link₂, hk₂, hs₂.trans hs₁, hu₂.trans hu₁, fun hdecided => ?_⟩
  obtain ⟨hm₁, ht₁, hc₁⟩ := hdecided₁ hdecided
  have hstill : link₁.Decided := by
    rw [ClassroomStudentLink.Decided, hm₁, ht₁]
    exact hdecided
  obtain ⟨hm₂, ht₂, hc₂⟩ := hdecided₂ hstill
  exact ⟨hm₂.trans hm₁, ht₂.trans ht₁, fun hconfirmed => hc₂ (hc₁ hconfirmed)⟩

theorem of_links (h : KeepsLinks db db') {db'' : ClassroomDb} (heq : db''.links = db'.links) : KeepsLinks db db'' := by
  refine ⟨fun k => ?_⟩
  rw [heq]
  exact h.rows k

end KeepsLinks

theorem keepsLinks_upsertLink (db : ClassroomDb) (subjectId now : ℕ) (matcher : Matcher) (entry : Matching.RosterEntry) :
    KeepsLinks db (upsertLink subjectId now matcher db entry) := by
  refine ⟨fun k link hk => ?_⟩
  rcases upsertLink_cases db subjectId now matcher entry with heq | ⟨-, heq⟩ | ⟨l, f, -, heq, hsynced⟩
  · rw [heq]
    exact (KeepsLinks.refl db).rows k link hk
  · rw [heq]
    exact ⟨link, Table.getElem?_append_old hk, rfl, rfl, fun _ => ⟨rfl, rfl, id⟩⟩
  · rw [heq]
    by_cases hlk : l = k
    · subst hlk
      refine ⟨f link, by rw [Table.getElem?_modify_self, hk, Option.map_some], ?_⟩
      have hlink := hsynced link hk
      exact ⟨hlink.subject, hlink.user, hlink.decided⟩
    · exact ⟨link, (Table.getElem?_modify_ne f hlk).trans hk, rfl, rfl, fun _ => ⟨rfl, rfl, id⟩⟩

theorem keepsLinks_upsertLinks (subjectId now : ℕ) (matcher : Matcher) (roster : List Matching.RosterEntry) :
    ∀ db : ClassroomDb, KeepsLinks db (upsertLinks subjectId now matcher roster db) := by
  induction roster with
  | nil => exact .refl
  | cons entry roster ih => exact fun db => (keepsLinks_upsertLink db subjectId now matcher entry).trans (ih _)

/-- No teacher asks for anything about links. -/
def Unattended (_ : ClassroomDb) : ClassroomOp → Prop
  | .request .. => False
  | .grade _ _ _ _ turns => ∀ turn ∈ turns, turn.requests = []
  | _ => True

/-- What has been decided about a Classroom user, by a teacher or by an earlier match, no sync takes back: the link
keeps its method and its student, and stays confirmed. -/
theorem syncs_keep_decided_links {ops : List ClassroomOp} (h : Run ClassroomDb.step Unattended db ops db')
    (hk : db.links[k]? = some link) (hdecided : link.Decided) :
    ∃ link', db'.links[k]? = some link' ∧ link'.subjectId = link.subjectId ∧
      link'.classroomUserId = link.classroomUserId ∧ link'.method = link.method ∧ link'.studentId = link.studentId ∧
      (link.confirmed = true → link'.confirmed = true) := by
  have hkeeps : KeepsLinks db db' := by
    refine h.invariant (.refl db) fun db₁ op hdb₁ hop => ?_
    refine step_keeps_links (I := KeepsLinks db) (fun _ _ heq hkeeps => hkeeps.of_links heq) ?_ ?_ ?_ hdb₁
    · intro subjectId now matcher roster _
      exact hdb₁.trans (keepsLinks_upsertLinks subjectId now matcher roster db₁)
    · intro enrolled subjectId now request heq
      subst heq
      exact hop.elim
    · intro enrolled deadline nightStart cap turns heq turn hturn db₂ hdb₂
      subst heq
      rw [show turn.requests = [] from hop turn hturn]
      exact hdb₂
  obtain ⟨link', hk', hs, hu, hrest⟩ := hkeeps.rows k link hk
  obtain ⟨hm, ht, hc⟩ := hrest hdecided
  exact ⟨link', hk', hs, hu, hm, ht, hc⟩

/-- A teacher ignores the first user. -/
def firstIgnored : ClassroomStudentLink := ⟨0, "first", none, "Ann", none, .ignored, none, [], true⟩

/-- A sync is sure of them. -/
def syncOfFirst : List ClassroomOp := [.roster 0 1 surelyFirst [⟨"first", "Ann", none⟩]]

theorem firstIgnored_stays :
    ∃ link', (syncOfFirst.foldl ClassroomDb.step ⟨[], [firstIgnored], [], []⟩).links[0]? = some link' ∧
      link'.subjectId = 0 ∧ link'.classroomUserId = "first" ∧ link'.method = .ignored ∧ link'.studentId = none ∧
      (firstIgnored.confirmed = true → link'.confirmed = true) := by
  have hunattended : Checks ClassroomDb.step Unattended ⟨[], [firstIgnored], [], []⟩ syncOfFirst := ⟨trivial, trivial⟩
  have hdecided : firstIgnored.Decided := .inl (by decide)
  exact syncs_keep_decided_links (run_of_checks hunattended) rfl hdecided

end SubmissionsChecker.Classroom
