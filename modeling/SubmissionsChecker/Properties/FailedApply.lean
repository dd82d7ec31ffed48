import SubmissionsChecker.Properties.PublishedFiles
import Mathlib.Data.List.Nodup

/-! An apply that raises. Whatever the request has changed in the rows is lost with its transaction;
the files it has uploaded stay uploaded. -/

namespace SubmissionsChecker

open Paths

variable {site : Site} {c c' : Catalog} {req : ApplyRequest} {s t : ApplySession} {rows : Rows}

/-- The checks and then the uploads, cut after `n` of them. -/
theorem execSteps_take_uploads {passes : Bool} {n : ℕ}
    (h : execSteps req ((ApplyStep.check passes :: uploadSteps site rows req).take n) s = some t) :
    t = { s with objects :=
      if site.storageConfigured then ((req.plan rows).newFiles.take (n - 1)).foldl (put req) s.objects else s.objects } := by
  rcases n with _ | n
  · obtain rfl := Option.some.inj h
    split_ifs <;> rfl
  · rw [List.take_succ_cons, execSteps_cons] at h
    obtain ⟨u, hu, ht⟩ := h
    simp only [ApplyStep.exec, Option.ite_none_right_eq_some, Option.some.injEq] at hu
    obtain rfl := hu.2
    rw [uploadSteps] at ht
    split_ifs at ht ⊢
    · rw [← List.map_take] at ht
      exact (execSteps_uploads ht).1
    · rw [List.take_nil] at ht
      exact (Option.some.inj ht).symm

/-- The row changes, cut anywhere, commit nothing and touch no object. -/
theorem execSteps_take_rows {fs : List (Rows → Option Rows)} {n : ℕ}
    (h : execSteps req ((subjectStep site rows req :: fs.map .statement).take n) s = some t) :
    t.committed = s.committed ∧ t.objects = s.objects := by
  rcases n with _ | n
  · obtain rfl := Option.some.inj h
    exact ⟨rfl, rfl⟩
  · rw [List.take_succ_cons, execSteps_cons] at h
    obtain ⟨u, hu, ht⟩ := h
    rw [← List.map_take] at ht
    obtain ⟨hcommitted, hobjects, -⟩ := execSteps_statements ht
    have hsubject : u.committed = s.committed ∧ u.objects = s.objects := by
      rw [subjectStep] at hu
      split_ifs at hu
      · obtain rfl := Option.some.inj hu
        exact ⟨rfl, rfl⟩
      · obtain rfl := Option.some.inj hu
        exact ⟨rfl, rfl⟩
    exact ⟨hcommitted.trans hsubject.1, hobjects.trans hsubject.2⟩

/-- The steps that can raise after the uploads lose the transaction. -/
theorem raised_after_uploads {fs : List (Rows → Option Rows)} {step : ApplyStep}
    (h : step ∈ subjectStep site rows req :: fs.map .statement ++ [.commit]) (hraise : step.canRaise = true) :
    step.raised s = { s with rows := s.committed } := by
  simp only [List.cons_append, List.mem_cons, List.mem_append, List.mem_map, List.not_mem_nil, or_false] at h
  rcases h with rfl | ⟨f, -, rfl⟩ | rfl
  · rw [subjectStep] at hraise ⊢
    split_ifs at hraise ⊢
    · rfl
    · cases hraise
  · rfl
  · rfl

theorem closed_rows (h : s.rows = s.committed) : Catalog.closed s = { rows := s.committed, objects := s.objects } := by
  rw [Catalog.closed, h]
  split_ifs <;> rfl

/-- The files an apply that fails after `n` steps has uploaded. -/
def uploadedBefore (site : Site) (rows : Rows) (req : ApplyRequest) (n : ℕ) : List (Path × String) :=
  if site.storageConfigured ∧ rows.latest ≠ some req.archive then (req.plan rows).newFiles.take (n - 1) else []

theorem raised_of_clean (h : s.rows = s.committed) (step : ApplyStep) : step.raised s = s := by
  obtain ⟨committed, rows, objects⟩ := s
  obtain rfl : rows = committed := h
  rcases step <;> rfl

theorem cleanup_cannot_raise {step : ApplyStep} (h : step ∈ cleanupSteps site rows req) : step.canRaise = false := by
  rw [cleanupSteps] at h
  split_ifs at h
  · obtain ⟨key, -, rfl⟩ := List.mem_map.mp h
    rfl
  · cases h

/-- The session of an apply of another archive than the live one, after it raised. -/
theorem session_after_raise {n : ℕ} {step : ApplyStep} (hother : c.rows.latest ≠ some req.archive)
    (hstep : (applySteps site c.rows req)[n]? = some step) (hraise : step.canRaise = true)
    (hs : c.stepsDone site req n = some s) :
    (step.raised s).rows = (step.raised s).committed ∧ (step.raised s).committed = c.rows ∧
      (step.raised s).objects = (uploadedBefore site c.rows req n).foldl (put req) c.objects := by
  let first := ApplyStep.check (applyAllowed c.rows req) :: uploadSteps site c.rows req
  let changes := subjectStep site c.rows req :: (rowSteps site c.rows req).map .statement
  have hsteps : applySteps site c.rows req = first ++ (changes ++ [.commit] ++ cleanupSteps site c.rows req) := by
    rw [applySteps, if_neg hother]
    simp [first, changes]
  rw [hsteps] at hstep
  have hdone : execSteps req (applySteps site c.rows req |>.take n) c.session = some s := hs
  rw [hsteps, List.take_append, execSteps_append] at hdone
  obtain ⟨s₁, huploads, hrest⟩ := hdone
  have hs₁ := execSteps_take_uploads huploads
  have hobjects : s₁.objects = (uploadedBefore site c.rows req n).foldl (put req) c.objects := by
    rw [hs₁, uploadedBefore]
    by_cases hstorage : site.storageConfigured = true
    · rw [if_pos hstorage, if_pos ⟨hstorage, hother⟩]
      rfl
    · rw [if_neg hstorage, if_neg (fun h => hstorage h.1)]
      rfl
  by_cases hn : n < first.length
  · -- the checks and the uploads
    rw [Nat.sub_eq_zero_of_le hn.le] at hrest
    obtain rfl : s₁ = s := Option.some.inj hrest
    have hclean : s₁.rows = s₁.committed := by rw [hs₁]; rfl
    rw [raised_of_clean hclean]
    exact ⟨hclean, by rw [hs₁]; rfl, hobjects⟩
  · -- the row changes and the commit
    rw [List.getElem?_append_right (Nat.le_of_not_lt hn)] at hstep
    have hshort : n - first.length ≤ changes.length := by
      by_contra hlong
      rw [List.getElem?_append_right (by simp; omega)] at hstep
      rw [cleanup_cannot_raise (List.mem_of_getElem? hstep)] at hraise
      cases hraise
    rw [List.append_assoc, List.take_append_of_le_length hshort] at hrest
    obtain ⟨hcommitted, hsame⟩ := execSteps_take_rows hrest
    rw [List.getElem?_append_left (by simp; omega)] at hstep
    rw [raised_after_uploads (List.mem_of_getElem? hstep) hraise]
    exact ⟨rfl, hcommitted.trans (by rw [hs₁]; rfl), hsame.trans hobjects⟩

theorem foldl_put_of_not_mem {files : List (Path × String)} {key : String} (h : key ∉ files.map (·.2)) (objects : Objects) :
    files.foldl (put req) objects key = objects key := by
  have hnone : ∀ f ∈ files, f.2 = key → req.disk (resolve f.1) = some (.file []) := by
    intro f hf hkey
    exact absurd (List.mem_map.mpr ⟨f, hf, hkey⟩) h
  rw [foldl_put hnone, if_neg h]

/-- A request whose apply raises, wherever it does, leaves the rows as they were; the objects too, but
for those under the keys of the files uploaded before. -/
theorem failed_apply_keeps_rows (site : Site) (c c' : Catalog) (req : ApplyRequest) (n : ℕ)
    (h : c.failedAt site req n = some c') :
    c'.rows = c.rows ∧ c'.objects = (uploadedBefore site c.rows req n).foldl (put req) c.objects ∧
      ∀ key, key ∉ (uploadedBefore site c.rows req n).map (·.2) → c'.objects key = c.objects key := by
  obtain ⟨step, hstep, h⟩ := Option.bind_eq_some_iff.mp h
  obtain ⟨hstep, hraise⟩ := Option.filter_eq_some_iff.mp hstep
  obtain ⟨s, hs, rfl⟩ := Option.map_eq_some_iff.mp h
  have hafter : (step.raised s).rows = (step.raised s).committed ∧ (step.raised s).committed = c.rows ∧
      (step.raised s).objects = (uploadedBefore site c.rows req n).foldl (put req) c.objects := by
    by_cases hother : c.rows.latest = some req.archive
    · -- the live archive again: only the checks can raise
      rw [applySteps, if_pos hother] at hstep
      have hn : n = 0 := by
        by_contra hn
        rw [List.getElem?_eq_none (by simp; omega)] at hstep
        cases hstep
      subst hn
      obtain rfl := Option.some.inj hs
      rw [raised_of_clean rfl, uploadedBefore, if_neg (fun h => h.2 hother)]
      exact ⟨rfl, rfl, rfl⟩
    · exact session_after_raise hother hstep hraise hs
  obtain ⟨hclean, hrows, hobjects⟩ := hafter
  rw [closed_rows hclean]
  refine ⟨hrows, hobjects, fun key hkey => ?_⟩
  change (step.raised s).objects key = _
  rw [hobjects, foldl_put_of_not_mem hkey]

/-- A course with a handout, in these bytes. -/
def withHandout (content : Bytes) : ApplyRequest :=
  { userId := 1
    archive :=
      { cfg := { subjectCode := "course"
                 assignments := [("lab1", { contentFiles := some [{ filename := some "task.pdf" }] })]
                 codes := List.nodup_singleton "lab1" }
        files := [(["assignments", "lab1", "task.pdf"], content)] }
    clean := clean_tmp }

def handoutOnline : Catalog := emptyBucket.step bucketSite (withHandout [1])

/-- The second apply raises in its commit: the rows are as before, the handout is the new one. -/
theorem commit_of_edited_handout_fails :
    ∃ c', handoutOnline.failedAt bucketSite (withHandout [2]) 4 = some c' ∧ c'.rows = handoutOnline.rows := by
  obtain ⟨c', hc'⟩ : ∃ c', handoutOnline.failedAt bucketSite (withHandout [2]) 4 = some c' :=
    Option.isSome_iff_exists.mp (by decide)
  exact ⟨c', hc', (failed_apply_keeps_rows _ _ _ _ _ hc').1⟩

/-- Its students already get the new one. -/
theorem failed_apply_publishes_handout :
    ¬ ∀ (site : Site) (c c' : Catalog) (req : ApplyRequest) (n : ℕ), c.failedAt site req n = some c' →
      c'.rows = c.rows ∧ ∀ r ∈ c.rows.prevConfig.references, c'.objects r.2 = c.objects r.2 := by
  intro h
  have hobjects : ∀ c' ∈ handoutOnline.failedAt bucketSite (withHandout [2]) 4,
      ∀ r ∈ handoutOnline.rows.prevConfig.references, c'.objects r.2 = handoutOnline.objects r.2 :=
    fun c' hc' => (h _ _ _ _ _ hc').2
  revert hobjects
  decide

end SubmissionsChecker
