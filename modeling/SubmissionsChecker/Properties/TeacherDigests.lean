import Mathlib.Data.List.Dedup
import SubmissionsChecker.Library.Runs
import SubmissionsChecker.Workers.TeacherDigests

/-! What the teachers hear of the work that waits for them. Every entry is in one recorded digest at most, and no
teacher's mail keeps another teacher's back. -/

namespace SubmissionsChecker.Digests

open Runs

variable {db db' : DigestDb} {s t : DigestState} {settings : DigestSettings} {i j now teacherId submissionId : ℕ}
  {row row' : TeacherNotification} {batch : TeacherEntries} {mailing : ℕ → Mailing} {entries : List ℕ}

/-! ## What a flush reads -/

theorem mem_unsent : i ∈ db.unsent ↔ ∃ row, db.queue[i]? = some row ∧ row.sentAt = none := by
  rw [DigestDb.unsent, List.mem_mergeSort, Table.mem_idsWhere]
  constructor
  · rintro ⟨row, hrow, hsent⟩
    exact ⟨row, hrow, Option.isNone_iff_eq_none.mp hsent⟩
  · rintro ⟨row, hrow, hsent⟩
    exact ⟨row, hrow, Option.isNone_iff_eq_none.mpr hsent⟩

theorem nodup_unsent (db : DigestDb) : db.unsent.Nodup :=
  (List.mergeSort_perm _ _).nodup_iff.mpr (Table.nodup_idsWhere _ _)

theorem orderKey_eq (h : db.queue[i]? = some row) : db.orderKey i = (row.teacherId, row.createdAt) := by
  rw [DigestDb.orderKey, h, Option.elim_some]

theorem mem_entriesOf : i ∈ (db.entriesOf teacherId).entries ↔
    ∃ row, db.queue[i]? = some row ∧ row.sentAt = none ∧ row.teacherId = teacherId := by
  change i ∈ db.unsent.filter _ ↔ _
  rw [List.mem_filter, mem_unsent, beq_iff_eq]
  constructor
  · rintro ⟨⟨row, hrow, hsent⟩, hteacher⟩
    rw [DigestDb.teacherOf, orderKey_eq hrow] at hteacher
    exact ⟨row, hrow, hsent, hteacher⟩
  · rintro ⟨row, hrow, hsent, hteacher⟩
    refine ⟨⟨row, hrow, hsent⟩, ?_⟩
    rw [DigestDb.teacherOf, orderKey_eq hrow]
    exact hteacher

theorem nodup_entriesOf (db : DigestDb) (teacherId : ℕ) : (db.entriesOf teacherId).entries.Nodup :=
  (nodup_unsent db).filter _

theorem mem_byTeacher : batch ∈ db.byTeacher ↔ ∃ (i : ℕ) (row : TeacherNotification),
    db.queue[i]? = some row ∧ row.sentAt = none ∧ batch = db.entriesOf row.teacherId := by
  rw [DigestDb.byTeacher, List.mem_map]
  constructor
  · rintro ⟨teacherId, hteacher, rfl⟩
    obtain ⟨i, hi, rfl⟩ := List.mem_map.mp (List.mem_eraseDups.mp hteacher)
    obtain ⟨row, hrow, hsent⟩ := mem_unsent.mp hi
    refine ⟨i, row, hrow, hsent, ?_⟩
    rw [DigestDb.teacherOf, orderKey_eq hrow]
  · rintro ⟨i, row, hrow, hsent, rfl⟩
    refine ⟨row.teacherId, List.mem_eraseDups.mpr (List.mem_map.mpr ⟨i, mem_unsent.mpr ⟨row, hrow, hsent⟩, ?_⟩), rfl⟩
    rw [DigestDb.teacherOf, orderKey_eq hrow]

theorem teachers_byTeacher (db : DigestDb) : (db.byTeacher.map (·.teacherId)).Nodup := by
  have hmap : db.byTeacher.map (·.teacherId) = (db.unsent.map db.teacherOf).eraseDups := by
    rw [DigestDb.byTeacher, List.map_map]
    exact List.map_id _
  rw [hmap]
  exact Table.nodup_eraseDups _

/-- A teacher's digest is due: there is an email, and there are enough entries or one is old enough. -/
structure Due (settings : DigestSettings) (db : DigestDb) (now teacherId : ℕ) : Prop where
  email : db.emailOf teacherId ≠ none
  ready : settings.maxBatch ≤ (db.queue.filter fun row => row.teacherId == teacherId && row.sentAt.isNone).length ∨
    ∃ row ∈ db.queue, row.teacherId = teacherId ∧ row.sentAt = none ∧ row.createdAt + settings.windowSeconds * 10 ^ 6 ≤ now

theorem length_entriesOf (db : DigestDb) (teacherId : ℕ) : (db.entriesOf teacherId).entries.length =
    (db.queue.filter fun row => row.teacherId == teacherId && row.sentAt.isNone).length := by
  rw [← Table.length_idsWhere]
  refine List.Perm.length_eq ((List.perm_ext_iff_of_nodup (nodup_entriesOf db teacherId) (Table.nodup_idsWhere _ _)).mpr ?_)
  intro i
  rw [mem_entriesOf, Table.mem_idsWhere]
  simp [and_comm]

/-- The first entry is the oldest. -/
theorem oldest_spec (hi : i ∈ (db.entriesOf teacherId).entries) :
    (∀ j ∈ (db.entriesOf teacherId).entries, (db.entriesOf teacherId).oldest ≤ (db.orderKey j).2) ∧
      ∃ j ∈ (db.entriesOf teacherId).entries, (db.entriesOf teacherId).oldest = (db.orderKey j).2 := by
  have hsorted : (db.entriesOf teacherId).entries.Pairwise fun i j => (db.orderKey i).2 ≤ (db.orderKey j).2 := by
    have hunsent : db.unsent.Pairwise fun i j => decide ((db.orderKey i).1 < (db.orderKey j).1 ∨
        (db.orderKey i).1 = (db.orderKey j).1 ∧ (db.orderKey i).2 ≤ (db.orderKey j).2) = true :=
      List.pairwise_mergeSort (fun a b c => by simp only [decide_eq_true_iff]; omega)
        (fun a b => by simp only [Bool.or_eq_true, decide_eq_true_iff]; omega) _
    refine List.Pairwise.imp_of_mem ?_ (hunsent.filter fun i => db.teacherOf i == teacherId)
    intro a b ha hb hle
    have hteachers : (db.orderKey a).1 = (db.orderKey b).1 :=
      (beq_iff_eq.mp (List.mem_filter.mp ha).2).trans (beq_iff_eq.mp (List.mem_filter.mp hb).2).symm
    rcases of_decide_eq_true hle with hlt | hle
    · exact absurd hteachers hlt.ne
    · exact hle.2
  have holdest : (db.entriesOf teacherId).oldest =
      ((db.entriesOf teacherId).entries.head?.elim 0 fun i => (db.orderKey i).2) := rfl
  cases hentries : (db.entriesOf teacherId).entries with
  | nil =>
    rw [hentries] at hi
    cases hi
  | cons first rest =>
    rw [hentries] at hsorted holdest
    refine ⟨fun j hj => ?_, first, List.mem_cons_self, holdest⟩
    rcases List.mem_cons.mp hj with rfl | hj
    · exact holdest.le
    · exact holdest.trans_le ((List.pairwise_cons.mp hsorted).1 j hj)

theorem ready_entriesOf (hrow : db.queue[i]? = some row) (hsent : row.sentAt = none) :
    ((db.entriesOf row.teacherId).ready settings now = true ∧ (db.entriesOf row.teacherId).email ≠ none) ↔
      Due settings db now row.teacherId := by
  obtain ⟨hle, j, hj, heq⟩ := oldest_spec (mem_entriesOf.mpr ⟨row, hrow, hsent, rfl⟩)
  rw [TeacherEntries.ready, Bool.or_eq_true, decide_eq_true_iff, decide_eq_true_iff, length_entriesOf]
  constructor
  · rintro ⟨hready, hemail⟩
    refine ⟨hemail, hready.imp_right fun hold => ?_⟩
    obtain ⟨first, hfirst, hunsent, hteacher⟩ := mem_entriesOf.mp hj
    rw [orderKey_eq hfirst] at heq
    refine ⟨first, List.mem_of_getElem? hfirst, hteacher, hunsent, ?_⟩
    exact (show (db.entriesOf row.teacherId).oldest = first.createdAt from heq) ▸ hold
  · rintro ⟨hemail, hready⟩
    refine ⟨hready.imp_right fun ⟨old, hmem, hteacher, hunsent, hold⟩ => ?_, hemail⟩
    obtain ⟨k, hk⟩ := List.mem_iff_getElem?.mp hmem
    have hleast := hle k (mem_entriesOf.mpr ⟨old, hk, hunsent, hteacher⟩)
    rw [orderKey_eq hk] at hleast
    exact (Nat.add_le_add_right hleast _).trans hold

/-! ## Each entry is mailed once -/

def IsSent (db : DigestDb) (i : ℕ) : Prop := ∃ row, db.queue[i]? = some row ∧ row.sentAt ≠ none

/-- What a running flush has still to mail: unsent rows of each teacher, none of them twice. -/
structure Outstanding (db : DigestDb) (todo : List TeacherEntries) : Prop where
  nodup : (todo.flatMap (·.entries)).Nodup
  unsent : ∀ batch ∈ todo, ∀ i ∈ batch.entries,
    ∃ row, db.queue[i]? = some row ∧ row.sentAt = none ∧ row.teacherId = batch.teacherId

/-- One row for a teacher and a submission; and the rows that are stamped are those of the recorded digests, each in
one digest of its teacher. -/
structure Booked (s : DigestState) : Prop where
  pairs : ∀ (i j : ℕ) row row', s.db.queue[i]? = some row → s.db.queue[j]? = some row' →
    row.teacherId = row'.teacherId → row.submissionId = row'.submissionId → i = j
  once : (s.recorded.flatMap (·.entries)).Nodup
  sent : ∀ i, i ∈ s.recorded.flatMap (·.entries) ↔ IsSent s.db i
  owned : ∀ digest ∈ s.recorded, ∀ i ∈ digest.entries,
    ∃ row, s.db.queue[i]? = some row ∧ row.teacherId = digest.teacherId
  todo : ∀ flush, s.flush = some flush → Outstanding s.db flush.todo

theorem stamp_getElem? (entries : List ℕ) (now : ℕ) (queue : List TeacherNotification) (i : ℕ) :
    (stamp entries now queue)[i]? =
      (queue[i]?).map fun row => if i ∈ entries then { row with sentAt := some now } else row := by
  rw [stamp, Table.getElem?_updateWhere]
  refine congrArg (Option.map · queue[i]?) (funext fun row => ?_)
  simp only [List.contains_iff_mem]

/-- A row is appended that nobody has, unsent. -/
structure Appends (db db' : DigestDb) (row : TeacherNotification) : Prop where
  queue : db'.queue = db.queue ++ [row]
  unsent : row.sentAt = none
  fresh : ∀ old ∈ db.queue, ¬ (old.teacherId = row.teacherId ∧ old.submissionId = row.submissionId)

theorem insertNotification_cases (submissionId now : ℕ) (db : DigestDb) (teacherId : ℕ) :
    DigestDb.insertNotification submissionId now db teacherId = db ∨
      ∃ row, Appends db (DigestDb.insertNotification submissionId now db teacherId) row := by
  unfold DigestDb.insertNotification
  by_cases hqueued : db.queued teacherId submissionId = true
  · rw [if_pos hqueued]
    exact .inl rfl
  · rw [if_neg hqueued]
    refine .inr ⟨_, rfl, rfl, fun old hold hsame => hqueued ?_⟩
    refine List.any_eq_true.mpr ⟨old, hold, ?_⟩
    rw [Bool.and_eq_true, beq_iff_eq, beq_iff_eq]
    exact hsame

/-- What every appended row keeps, a queued review keeps. -/
theorem enqueueReview_invariant {P : DigestDb → Prop} (happend : ∀ {db db' row}, Appends db db' row → P db → P db')
    (hdb : P db) (submissionId now : ℕ) : P (db.enqueueReview submissionId now) := by
  have hloop : ∀ (teachers : List ℕ) (db : DigestDb), P db →
      P (teachers.foldl (DigestDb.insertNotification submissionId now) db) := by
    intro teachers
    induction teachers with
    | nil => exact fun db h => h
    | cons teacherId teachers ih =>
      intro db h
      refine ih _ ?_
      rcases insertNotification_cases submissionId now db teacherId with heq | ⟨row, hrow⟩
      · rw [heq]
        exact h
      · exact happend hrow h
  exact hloop _ db hdb

theorem isSent_appends (h : Appends db db' row) (i : ℕ) : IsSent db' i ↔ IsSent db i := by
  constructor
  · rintro ⟨found, hfound, hsent⟩
    rw [h.queue] at hfound
    rcases Table.getElem?_concat_some hfound with hold | ⟨-, rfl⟩
    · exact ⟨found, hold, hsent⟩
    · exact absurd h.unsent hsent
  · rintro ⟨found, hfound, hsent⟩
    exact ⟨found, h.queue ▸ Table.getElem?_append_old hfound, hsent⟩

theorem booked_appends (hs : Booked s) (h : Appends s.db db' row) : Booked { s with db := db' } := by
  have hold : ∀ {i : ℕ} {found}, s.db.queue[i]? = some found → db'.queue[i]? = some found := by
    intro i found hfound
    rw [h.queue]
    exact Table.getElem?_append_old hfound
  refine ⟨fun i j row₁ row₂ hi hj hteacher hsubmission => ?_, hs.once, fun i => (hs.sent i).trans (isSent_appends h i).symm,
    fun digest hdigest i hi => ?_, fun flush hflush => ⟨(hs.todo flush hflush).nodup, fun batch hbatch i hi => ?_⟩⟩
  · change db'.queue[i]? = some row₁ at hi
    change db'.queue[j]? = some row₂ at hj
    rw [h.queue] at hi hj
    rcases Table.getElem?_concat_some hi with hold₁ | ⟨hlast₁, rfl⟩
    · rcases Table.getElem?_concat_some hj with hold₂ | ⟨-, rfl⟩
      · exact hs.pairs i j row₁ row₂ hold₁ hold₂ hteacher hsubmission
      · exact absurd ⟨hteacher, hsubmission⟩ (h.fresh row₁ (List.mem_of_getElem? hold₁))
    · rcases Table.getElem?_concat_some hj with hold₂ | ⟨hlast₂, -⟩
      · exact absurd ⟨hteacher.symm, hsubmission.symm⟩ (h.fresh row₂ (List.mem_of_getElem? hold₂))
      · exact hlast₁.trans hlast₂.symm
  · obtain ⟨found, hfound, hteacher⟩ := hs.owned digest hdigest i hi
    exact ⟨found, hold hfound, hteacher⟩
  · obtain ⟨found, hfound, hsent, hteacher⟩ := (hs.todo flush hflush).unsent batch hbatch i hi
    exact ⟨found, hold hfound, hsent, hteacher⟩

theorem booked_enqueueReview (hs : Booked s) (submissionId now : ℕ) :
    Booked { s with db := s.db.enqueueReview submissionId now } :=
  enqueueReview_invariant (P := fun db => Booked { s with db := db }) (fun {db _ _} happends h =>
    booked_appends (s := { s with db := db }) h happends) hs submissionId now

theorem outstanding_byTeacher (db : DigestDb) : Outstanding db db.byTeacher := by
  have hunsent : ∀ batch ∈ db.byTeacher, ∀ i ∈ batch.entries,
      ∃ row, db.queue[i]? = some row ∧ row.sentAt = none ∧ row.teacherId = batch.teacherId := by
    intro batch hbatch i hi
    obtain ⟨-, row, -, -, rfl⟩ := mem_byTeacher.mp hbatch
    exact mem_entriesOf.mp hi
  refine ⟨?_, hunsent⟩
  refine List.nodup_flatMap.mpr ⟨fun batch hbatch => ?_, ?_⟩
  · obtain ⟨-, row, -, -, rfl⟩ := mem_byTeacher.mp hbatch
    exact nodup_entriesOf db row.teacherId
  · refine List.Pairwise.imp_of_mem ?_ (List.pairwise_map.mp (teachers_byTeacher db))
    intro batch other hbatch hother hne i hi hi'
    obtain ⟨row, hrow, -, hteacher⟩ := hunsent batch hbatch i hi
    obtain ⟨row', hrow', -, hteacher'⟩ := hunsent other hother i hi'
    rw [hrow] at hrow'
    cases hrow'
    exact hne (hteacher.symm.trans hteacher')

/-- What a turn does, with the reason. -/
theorem turn_cases (settings : DigestSettings) (s : DigestState) :
    s.flush = none ∧ s.turn settings = s ∨
    (∃ now mailing, s.flush = some ⟨now, [], mailing⟩ ∧ s.turn settings = { s with flush := none }) ∨
    ∃ now batch todo mailing, s.flush = some ⟨now, batch :: todo, mailing⟩ ∧
      (s.turn settings = { s with flush := some ⟨now, todo, mailing⟩ } ∧
          ¬ (batch.ready settings now = true ∧ batch.email ≠ none ∧ mailing batch.teacherId = .sent) ∨
        (∃ digest, s.turn settings = { s with flush := none, unrecorded := s.unrecorded ++ [digest] } ∧
          mailing batch.teacherId = .lost) ∨
        ∃ email, batch.email = some email ∧ batch.ready settings now = true ∧ mailing batch.teacherId = .sent ∧
          s.turn settings = { s with
            db := { s.db with queue := stamp batch.entries now s.db.queue }
            flush := some ⟨now, todo, mailing⟩
            recorded := s.recorded ++ [⟨batch.teacherId, email, batch.entries⟩] }) := by
  unfold DigestState.turn
  cases hflush : s.flush with
  | none => exact .inl ⟨rfl, rfl⟩
  | some flush =>
    obtain ⟨now, todo, mailing⟩ := flush
    cases todo with
    | nil => exact .inr (.inl ⟨now, mailing, rfl, rfl⟩)
    | cons batch todo =>
      refine .inr (.inr ⟨now, batch, todo, mailing, rfl, ?_⟩)
      dsimp only
      cases hready : batch.ready settings now with
      | false => exact .inl ⟨rfl, fun h => Bool.noConfusion h.1⟩
      | true =>
        cases hemail : batch.email with
        | none => exact .inl ⟨rfl, fun h => h.2.1 rfl⟩
        | some email =>
          cases hmailing : mailing batch.teacherId with
          | failed => exact .inl ⟨rfl, fun h => Mailing.noConfusion h.2.2⟩
          | lost => exact .inr (.inl ⟨_, rfl, rfl⟩)
          | sent => exact .inr (.inr ⟨email, rfl, rfl, rfl, rfl⟩)

theorem Outstanding.tail {todo : List TeacherEntries} (h : Outstanding db (batch :: todo)) : Outstanding db todo where
  nodup := by
    have hall := h.nodup
    rw [List.flatMap_cons] at hall
    exact (List.nodup_append.mp hall).2.1
  unsent other hother := h.unsent other (List.mem_cons_of_mem _ hother)

theorem Outstanding.disjoint {todo : List TeacherEntries} (h : Outstanding db (batch :: todo)) :
    ∀ other ∈ todo, ∀ i ∈ other.entries, i ∉ batch.entries := by
  intro other hother i hi hi'
  have hall := h.nodup
  rw [List.flatMap_cons] at hall
  exact (List.nodup_append.mp hall).2.2 i hi' i (List.mem_flatMap.mpr ⟨other, hother, hi⟩) rfl

theorem isSent_stamp (hentries : ∀ i ∈ entries, ∃ row, db.queue[i]? = some row) (i : ℕ) :
    IsSent { db with queue := stamp entries now db.queue } i ↔ IsSent db i ∨ i ∈ entries := by
  unfold IsSent
  dsimp only
  rw [stamp_getElem?]
  by_cases hi : i ∈ entries
  · obtain ⟨row, hrow⟩ := hentries i hi
    rw [hrow, Option.map_some, if_pos hi]
    exact ⟨fun _ => .inr hi, fun _ => ⟨_, rfl, fun h => by cases h⟩⟩
  · cases hrow : db.queue[i]? with
    | none => simp [hi]
    | some row => simp [hi]

theorem booked_turn (hs : Booked s) : Booked (s.turn settings) := by
  rcases turn_cases settings s with ⟨-, heq⟩ | ⟨now, mailing, -, heq⟩ | ⟨now, batch, todo, mailing, hflush, hcase⟩
  · rw [heq]
    exact hs
  · rw [heq]
    exact ⟨hs.pairs, hs.once, hs.sent, hs.owned, fun flush h => by cases h⟩
  have hout : Outstanding s.db (batch :: todo) := hs.todo _ hflush
  rcases hcase with ⟨heq, -⟩ | ⟨digest, heq, -⟩ | ⟨email, -, -, -, heq⟩
  · rw [heq]
    exact ⟨hs.pairs, hs.once, hs.sent, hs.owned, fun flush h => by cases h; exact hout.tail⟩
  · rw [heq]
    exact ⟨hs.pairs, hs.once, hs.sent, hs.owned, fun flush h => by cases h⟩
  rw [heq]
  have hbatch : ∀ i ∈ batch.entries, ∃ row, s.db.queue[i]? = some row ∧ row.sentAt = none ∧
      row.teacherId = batch.teacherId := hout.unsent batch List.mem_cons_self
  have hnodup : batch.entries.Nodup := by
    have hall := hout.nodup
    rw [List.flatMap_cons] at hall
    exact (List.nodup_append.mp hall).1
  -- A row of the queue after the turn, and the row it was.
  have hrow : ∀ {i : ℕ} {row}, (stamp batch.entries now s.db.queue)[i]? = some row → ∃ old, s.db.queue[i]? = some old ∧
      row.teacherId = old.teacherId ∧ row.submissionId = old.submissionId := by
    intro i row hi
    rw [stamp_getElem?] at hi
    obtain ⟨old, hold, rfl⟩ := Option.map_eq_some_iff.mp hi
    refine ⟨old, hold, ?_⟩
    split_ifs <;> exact ⟨rfl, rfl⟩
  refine ⟨fun i j row row' hi hj hteacher hsubmission => ?_, ?_, fun i => ?_, fun digest hdigest i hi => ?_,
    fun flush h => ?_⟩
  · obtain ⟨old, hold, ht, hsub⟩ := hrow hi
    obtain ⟨old', hold', ht', hsub'⟩ := hrow hj
    exact hs.pairs i j old old' hold hold' (by rw [← ht, hteacher, ht']) (by rw [← hsub, hsubmission, hsub'])
  · change ((s.recorded ++ [_]).flatMap fun digest : Digest => digest.entries).Nodup
    rw [List.flatMap_append]
    refine List.nodup_append.mpr ⟨hs.once, by simpa using hnodup, fun i hi j hj hij => ?_⟩
    subst hij
    obtain ⟨row, hfound, hsent⟩ := (hs.sent i).mp hi
    obtain ⟨row', hfound', hunsent, -⟩ := hbatch i (by simpa using hj)
    rw [hfound] at hfound'
    cases hfound'
    exact hsent hunsent
  · change i ∈ ((s.recorded ++ [_]).flatMap fun digest : Digest => digest.entries) ↔ _
    rw [List.flatMap_append, List.mem_append, hs.sent i,
      isSent_stamp fun i hi => (hbatch i hi).imp fun _ h => h.1]
    simp
  · rcases List.mem_append.mp hdigest with hold | hnew
    · obtain ⟨row, hfound, hteacher⟩ := hs.owned digest hold i hi
      refine ⟨_, (stamp_getElem? ..).trans (by rw [hfound, Option.map_some]), ?_⟩
      split_ifs <;> exact hteacher
    · cases List.mem_singleton.mp hnew
      obtain ⟨row, hfound, -, hteacher⟩ := hbatch i hi
      refine ⟨_, (stamp_getElem? ..).trans (by rw [hfound, Option.map_some]), ?_⟩
      split_ifs <;> exact hteacher
  · cases h
    refine ⟨hout.tail.nodup, fun other hother i hi => ?_⟩
    obtain ⟨row, hfound, hunsent, hteacher⟩ := hout.tail.unsent other hother i hi
    refine ⟨row, (stamp_getElem? ..).trans ?_, hunsent, hteacher⟩
    rw [hfound, Option.map_some, if_neg (hout.disjoint other hother i hi)]

theorem booked_step (hs : Booked s) (op : DigestOp) : Booked (s.step settings op) := by
  cases op with
  | enqueue submissionId now => exact booked_enqueueReview hs submissionId now
  | others users owners =>
    exact ⟨hs.pairs, hs.once, hs.sent, hs.owned, fun flush h => ⟨(hs.todo flush h).nodup, (hs.todo flush h).unsent⟩⟩
  | start now mailing =>
    unfold DigestState.step
    dsimp only
    split_ifs
    · exact hs
    · exact ⟨hs.pairs, hs.once, hs.sent, hs.owned, fun flush h => by cases h; exact outstanding_byTeacher s.db⟩
  | turn => exact booked_turn hs
  | crash => exact ⟨hs.pairs, hs.once, hs.sent, hs.owned, fun flush h => by cases h⟩

/-- However reviews are queued while flushes run, fail or die, a teacher has one row for a submission, and the rows that
are stamped are exactly those of the recorded digests, each in one digest, which went to its teacher. -/
theorem each_review_is_recorded_once {ops : List DigestOp} (h : Run (DigestState.step settings) Any s ops t)
    (hqueue : s.db.queue = []) (hflush : s.flush = none) (hrecorded : s.recorded = []) : Booked t := by
  refine h.invariant ⟨fun i j row row' hi => ?_, ?_, fun i => ?_, ?_, ?_⟩ fun s op hs _ => booked_step hs op
  · rw [hqueue] at hi
    cases hi
  · rw [hrecorded]
    exact List.nodup_nil
  · unfold IsSent
    rw [hrecorded, hqueue]
    simp
  · rw [hrecorded]
    exact fun _ h => absurd h List.not_mem_nil
  · rw [hflush]
    exact fun _ h => by cases h

/-! ## A flush reaches every teacher -/

/-- While a flush runs: no new flush, and no crash. -/
def Flushing (_ : DigestState) : DigestOp → Prop
  | .enqueue .. | .others .. | .turn => True
  | .start .. | .crash => False

/-- What a flush that began in `db` has done so far with the rows that were unsent then. -/
structure Reaching (settings : DigestSettings) (db : DigestDb) (now : ℕ) (mailing : ℕ → Mailing) (s : DigestState) :
    Prop where
  running : ∀ flush, s.flush = some flush → flush.now = now ∧ flush.mailing = mailing ∧
    (flush.todo.map (·.teacherId)).Nodup ∧ ∀ batch ∈ flush.todo, ∃ (i : ℕ) (row : TeacherNotification),
      db.queue[i]? = some row ∧ row.sentAt = none ∧ batch = db.entriesOf row.teacherId
  waiting : ∀ flush, s.flush = some flush → ∀ batch ∈ flush.todo, ∀ (i : ℕ) row, db.queue[i]? = some row →
    row.sentAt = none → row.teacherId = batch.teacherId → s.db.queue[i]? = some row
  done : ∀ (i : ℕ) row, db.queue[i]? = some row → row.sentAt = none →
    (∀ flush, s.flush = some flush → ∀ batch ∈ flush.todo, batch.teacherId ≠ row.teacherId) →
    (Due settings db now row.teacherId ∧ mailing row.teacherId = .sent →
      s.db.queue[i]? = some { row with sentAt := some now }) ∧
    (¬ (Due settings db now row.teacherId ∧ mailing row.teacherId = .sent) → s.db.queue[i]? = some row)

theorem keeps_enqueueReview (submissionId now : ℕ) (db : DigestDb) {i : ℕ} {row : TeacherNotification}
    (hrow : db.queue[i]? = some row) : (db.enqueueReview submissionId now).queue[i]? = some row := by
  refine enqueueReview_invariant (P := fun db => db.queue[i]? = some row) (fun happends h => ?_) hrow submissionId now
  rw [happends.queue]
  exact Table.getElem?_append_old h

theorem reaching_start (settings : DigestSettings) (s : DigestState) (now : ℕ) (mailing : ℕ → Mailing) :
    Reaching settings s.db now mailing { s with flush := some ⟨now, s.db.byTeacher, mailing⟩ } := by
  refine ⟨fun flush h => ?_, fun flush h batch hbatch i row hrow _ _ => hrow, fun i row hrow hunsent hnone => ?_⟩
  · cases h
    exact ⟨rfl, rfl, teachers_byTeacher s.db, fun batch hbatch => mem_byTeacher.mp hbatch⟩
  · exact absurd rfl (hnone _ rfl _ (mem_byTeacher.mpr ⟨i, row, hrow, hunsent, rfl⟩))

theorem Reaching.keep {s' : DigestState} (h : Reaching settings db now mailing s) (hflush : s'.flush = s.flush)
    (hkeep : ∀ (i : ℕ) row, s.db.queue[i]? = some row → s'.db.queue[i]? = some row) :
    Reaching settings db now mailing s' := by
  refine ⟨fun flush hf => h.running flush (hflush ▸ hf), fun flush hf batch hbatch i row hrow hunsent hteacher =>
    hkeep i row (h.waiting flush (hflush ▸ hf) batch hbatch i row hrow hunsent hteacher), fun i row hrow hunsent hnone => ?_⟩
  obtain ⟨hdue, hnot⟩ := h.done i row hrow hunsent fun flush hf => hnone flush (hflush.symm ▸ hf)
  exact ⟨fun hd => hkeep i _ (hdue hd), fun hd => hkeep i row (hnot hd)⟩

/-- A batch holds its teacher's unsent rows of the start of the flush, and its digest is mailed if it was due then. -/
theorem Reaching.of_todo {flush : Flush} (h : Reaching settings db now mailing s) (hflush : s.flush = some flush)
    (hbatch : batch ∈ flush.todo) :
    (batch.ready settings now = true ∧ batch.email ≠ none ↔ Due settings db now batch.teacherId) ∧
    ∀ i : ℕ, i ∈ batch.entries ↔ ∃ row, db.queue[i]? = some row ∧ row.sentAt = none ∧ row.teacherId = batch.teacherId := by
  obtain ⟨-, -, -, hbatches⟩ := h.running flush hflush
  obtain ⟨k, first, hfirst, hunsent, rfl⟩ := hbatches batch hbatch
  exact ⟨ready_entriesOf hfirst hunsent, fun i => mem_entriesOf⟩

theorem reaching_turn (hlost : ∀ teacherId, mailing teacherId ≠ .lost) (h : Reaching settings db now mailing s) :
    Reaching settings db now mailing (s.turn settings) := by
  rcases turn_cases settings s with ⟨-, heq⟩ | ⟨now', mailing', hflush, heq⟩ | ⟨now', batch, todo, mailing', hflush, hcase⟩
  · rw [heq]
    exact h
  · rw [heq]
    refine ⟨fun _ hnone => ?_, fun _ hnone => ?_, fun i row hrow hunsent _ => ?_⟩
    · cases hnone
    · cases hnone
    refine h.done i row hrow hunsent fun flush hf batch hbatch => ?_
    rw [hflush] at hf
    cases hf
    cases hbatch
  obtain ⟨hnow, hmailing, hnodup, hbatches⟩ := h.running _ hflush
  dsimp only at hnow hmailing hnodup hbatches
  subst hnow hmailing
  obtain ⟨hhead, htail⟩ := List.nodup_cons.mp hnodup
  obtain ⟨hdue, hmem⟩ := h.of_todo hflush List.mem_cons_self
  have hrunning : ∀ flush : Flush, flush = ⟨now', todo, mailing'⟩ → flush.now = now' ∧ flush.mailing = mailing' ∧
      (flush.todo.map (·.teacherId)).Nodup ∧ ∀ batch ∈ flush.todo, ∃ (i : ℕ) (row : TeacherNotification),
        db.queue[i]? = some row ∧ row.sentAt = none ∧ batch = db.entriesOf row.teacherId := by
    rintro flush rfl
    exact ⟨rfl, rfl, htail, fun other hother => hbatches other (List.mem_cons_of_mem _ hother)⟩
  -- A row of another teacher whose turn is over was done before.
  have hbefore : ∀ (i : ℕ) row, db.queue[i]? = some row → row.sentAt = none → row.teacherId ≠ batch.teacherId →
      (∀ other ∈ todo, other.teacherId ≠ row.teacherId) →
      (Due settings db now' row.teacherId ∧ mailing' row.teacherId = .sent →
        s.db.queue[i]? = some { row with sentAt := some now' }) ∧
      (¬ (Due settings db now' row.teacherId ∧ mailing' row.teacherId = .sent) → s.db.queue[i]? = some row) := by
    intro i row hrow hunsent hne hnone
    refine h.done i row hrow hunsent fun flush hf other hother => ?_
    rw [hflush] at hf
    cases hf
    rcases List.mem_cons.mp hother with rfl | hother
    · exact fun heq => hne heq.symm
    · exact hnone other hother
  rcases hcase with ⟨heq, hskipped⟩ | ⟨digest, -, hlostHere⟩ | ⟨email, hemail, hready, hsent, heq⟩
  · rw [heq]
    refine ⟨fun flush hf => hrunning flush (Option.some_inj.mp hf).symm, fun flush hf other hother i row hrow hunsent ht => ?_,
      fun i row hrow hunsent hnone => ?_⟩
    · cases hf
      exact h.waiting _ hflush other (List.mem_cons_of_mem _ hother) i row hrow hunsent ht
    · by_cases hteacher : row.teacherId = batch.teacherId
      · refine ⟨fun hd => absurd ?_ hskipped, fun _ => h.waiting _ hflush batch List.mem_cons_self i row hrow hunsent hteacher⟩
        rw [hteacher] at hd
        obtain ⟨hready, hemail⟩ := hdue.mpr hd.1
        exact ⟨hready, hemail, hd.2⟩
      · exact hbefore i row hrow hunsent hteacher (hnone _ rfl)
  · exact absurd hlostHere (hlost _)
  · rw [heq]
    have hother : ∀ (i : ℕ) row found, db.queue[i]? = some row → row.teacherId ≠ batch.teacherId →
        s.db.queue[i]? = some found → (stamp batch.entries now' s.db.queue)[i]? = some found := by
      intro i row found hrow hne hfound
      rw [stamp_getElem?, hfound, Option.map_some, if_neg fun hi => ?_]
      obtain ⟨row', hrow', -, hteacher⟩ := (hmem i).mp hi
      rw [hrow] at hrow'
      cases hrow'
      exact hne hteacher
    refine ⟨fun flush hf => hrunning flush (Option.some_inj.mp hf).symm, fun flush hf other hmemOther i row hrow hunsent ht => ?_,
      fun i row hrow hunsent hnone => ?_⟩
    · cases hf
      have hne : row.teacherId ≠ batch.teacherId := fun heq =>
        hhead (List.mem_map.mpr ⟨other, hmemOther, ht.symm.trans heq⟩)
      exact hother i row row hrow hne (h.waiting _ hflush other (List.mem_cons_of_mem _ hmemOther) i row hrow hunsent ht)
    · by_cases hteacher : row.teacherId = batch.teacherId
      · refine ⟨fun _ => ?_, fun hnot => absurd ?_ hnot⟩
        · change (stamp batch.entries now' s.db.queue)[i]? = _
          rw [stamp_getElem?, h.waiting _ hflush batch List.mem_cons_self i row hrow hunsent hteacher, Option.map_some,
            if_pos ((hmem i).mpr ⟨row, hrow, hunsent, hteacher⟩)]
        · rw [hteacher]
          refine ⟨hdue.mp ⟨hready, ?_⟩, hsent⟩
          rw [hemail]
          exact Option.some_ne_none email
      · obtain ⟨hd, hnd⟩ := hbefore i row hrow hunsent hteacher (hnone _ rfl)
        exact ⟨fun h => hother i row _ hrow hteacher (hd h), fun h => hother i row _ hrow hteacher (hnd h)⟩

/-- When a flush ends in which no commit was lost, exactly the rows are stamped that were unsent at its start and whose
teacher's digest was due then and went out: what befalls one teacher's mail, and what is queued meanwhile, changes
nothing for another. -/
theorem flush_reaches_every_teacher {ops : List DigestOp} (hidle : s.flush = none) (henabled : settings.enabled = true)
    (hchannel : settings.hasChannel = true) (hlost : ∀ teacherId, mailing teacherId ≠ .lost)
    (h : Run (DigestState.step settings) Flushing (s.step settings (.start now mailing)) ops t) (hended : t.flush = none)
    (hrow : s.db.queue[i]? = some row) (hunsent : row.sentAt = none) :
    (Due settings s.db now row.teacherId ∧ mailing row.teacherId = .sent →
      t.db.queue[i]? = some { row with sentAt := some now }) ∧
    (¬ (Due settings s.db now row.teacherId ∧ mailing row.teacherId = .sent) → t.db.queue[i]? = some row) := by
  have hstart : s.step settings (.start now mailing) = { s with flush := some ⟨now, s.db.byTeacher, mailing⟩ } := by
    unfold DigestState.step
    dsimp only
    rw [hidle, henabled, hchannel]
    rfl
  rw [hstart] at h
  have hreaching : Reaching settings s.db now mailing t := by
    refine h.invariant (reaching_start settings s now mailing) fun s' op hs' hop => ?_
    cases op with
    | enqueue submissionId now => exact hs'.keep rfl fun i row hrow => keeps_enqueueReview submissionId now s'.db hrow
    | others users owners => exact hs'.keep rfl fun i row hrow => hrow
    | start now mailing => exact hop.elim
    | turn => exact reaching_turn hlost hs'
    | crash => exact hop.elim
  refine hreaching.done i row hrow hunsent fun flush hflush => ?_
  rw [hended] at hflush
  cases hflush

/-! ## A flush of two teachers -/

def twoTeachers (queue : List TeacherNotification) : DigestState where
  db := ⟨[⟨some "first", false, true⟩, ⟨some "second", false, true⟩], [some 0, some 1], queue⟩
  flush := none
  recorded := []
  unrecorded := []

/-- The first teacher's mail fails. -/
def firstFails (teacherId : ℕ) : Mailing := if teacherId = 0 then .failed else .sent

def eager : DigestSettings := ⟨true, 60, 1, true⟩

/-- A review is queued while the flush runs. -/
def wholeFlush : List DigestOp := [.turn, .enqueue 0 5, .turn, .turn]

theorem wholeFlush_is_booked :
    Booked ((.enqueue 0 1 :: .enqueue 1 2 :: .start 100 firstFails :: wholeFlush).foldl (DigestState.step eager)
      (twoTeachers [])) :=
  each_review_is_recorded_once (run_foldl _) rfl rfl rfl

def reviewed : DigestState := twoTeachers [⟨0, 0, 1, none⟩, ⟨1, 1, 2, none⟩]

theorem byTeacher_reviewed : reviewed.db.byTeacher = [⟨0, [0], 1, some "first"⟩, ⟨1, [1], 2, some "second"⟩] := by
  have hids : Table.idsWhere (fun row : TeacherNotification => row.sentAt.isNone) reviewed.db.queue = [0, 1] := by decide
  have hunsent : reviewed.db.unsent = [0, 1] := by
    unfold DigestDb.unsent
    rw [hids]
    exact List.mergeSort_of_pairwise (by decide)
  unfold DigestDb.byTeacher DigestDb.entriesOf
  rw [hunsent]
  rfl

def afterWholeFlush : DigestState := wholeFlush.foldl (DigestState.step eager) (reviewed.step eager (.start 100 firstFails))

theorem afterWholeFlush_idle : afterWholeFlush.flush = none := by
  have hstart : reviewed.step eager (.start 100 firstFails) =
      { reviewed with flush := some ⟨100, reviewed.db.byTeacher, firstFails⟩ } := rfl
  unfold afterWholeFlush
  rw [hstart, byTeacher_reviewed]
  rfl

theorem second_teacher_is_reached :
    (Due eager reviewed.db 100 1 ∧ firstFails 1 = .sent → afterWholeFlush.db.queue[1]? = some ⟨1, 1, 2, some 100⟩) ∧
    (¬ (Due eager reviewed.db 100 1 ∧ firstFails 1 = .sent) → afterWholeFlush.db.queue[1]? = some ⟨1, 1, 2, none⟩) := by
  have hlost : ∀ teacherId, firstFails teacherId ≠ .lost := by
    intro teacherId
    unfold firstFails
    split_ifs <;> decide
  have hrun : Checks (DigestState.step eager) Flushing (reviewed.step eager (.start 100 firstFails)) wholeFlush :=
    ⟨trivial, trivial, trivial, trivial, trivial⟩
  have hrow : reviewed.db.queue[1]? = some ⟨1, 1, 2, none⟩ := rfl
  exact flush_reaches_every_teacher rfl rfl rfl hlost (run_of_checks hrun) afterWholeFlush_idle hrow rfl

end SubmissionsChecker.Digests
