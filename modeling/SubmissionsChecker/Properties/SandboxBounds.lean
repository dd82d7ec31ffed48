import SubmissionsChecker.Services.CheckPlan
import SubmissionsChecker.Library.Loops

/-! What the sandbox of a check may take: when a plan's memory and its share of a processor are
bounded on both sides, as Docker reads them. -/

namespace SubmissionsChecker.CheckCore

open PyText

/-! Numbers read -/

variable {text : Text} {bytes : ℤ} {amount x : Binary64} {unit : ℕ}

theorem ofRat_not_negative {q : ℚ} (h : 0 ≤ q) : (Binary64.ofRat q).isNegative = false := by
  have hnearest := Binary64.nearest_nonneg (abs_nonneg q)
  rw [Binary64.ofRat]
  rw [if_neg (not_lt.mpr h)]
  split_ifs with hover
  · rw [Binary64.isNegative, decide_eq_false (not_lt.mpr h)]
  · rw [Binary64.isNegative, decide_eq_false (not_lt.mpr hnearest)]

/-- An amount of memory is no negative number. -/
theorem memoryParts_not_negative (h : memoryParts text = some (amount, unit)) : amount.isNegative = false := by
  unfold memoryParts at h
  dsimp only at h
  split_ifs at h
  cases h
  exact ofRat_not_negative (mul_nonneg (Nat.cast_nonneg _) (zpow_nonneg (by norm_num) _))

theorem mul_not_negative (hx : x.isNegative = false) (unit : ℕ) (h : (x.mul (.finite unit)).toInt = .ok bytes) :
    0 ≤ bytes := by
  have hunit : (Binary64.finite unit).isNegative = false := by
    rw [Binary64.isNegative, decide_eq_false (not_lt.mpr (Nat.cast_nonneg unit))]
  rw [Binary64.mul] at h
  rw [hx, hunit, bne_self_eq_false] at h
  split at h
  · rename_i p q _ _
    have hnearest := Binary64.nearest_nonneg (abs_nonneg (p * q))
    rw [Binary64.withSign] at h
    rw [if_neg Bool.false_ne_true] at h
    split_ifs at h with hover
    · cases h
    · rw [Binary64.toInt, if_pos hnearest] at h
      cases h
      exact Int.floor_nonneg.mpr hnearest
  · split at h
    · cases h
    · cases h

theorem parseMemory_nonneg (h : parseMemory text = .ok (some bytes)) : 0 ≤ bytes := by
  rw [parseMemory] at h
  split at h
  · cases h
  · rename_i amount unit hparts
    cases hint : (amount.mul (.finite unit)).toInt with
    | error e =>
      rw [hint] at h
      cases h
    | ok n =>
      rw [hint] at h
      cases h
      exact mul_not_negative (memoryParts_not_negative hparts) unit hint

/-! Memory -/

variable {bounds : SandboxLimits} {requested memory : Text}

/-- Docker holds the sandbox to a positive number of bytes, not above the limit of the host. -/
def MemoryBounded (bounds : SandboxLimits) (memory : Text) : Prop :=
  ∃ bytes limit, parseMemory memory = .ok (some bytes) ∧ bounds.limitBytes = .ok (some limit) ∧ 0 < bytes ∧ bytes ≤ limit

/-- The limit itself is a number of bytes other than zero. -/
def LimitReadable (bounds : SandboxLimits) : Prop := ∃ limit, parseMemory bounds.maxMemory = .ok (some limit) ∧ limit ≠ 0

/-- `DEFAULT_MAX_MEMORY` in bytes. -/
def defaultMaxBytes : ℤ := 536870912

/-- What a request has to be: not zero bytes, and, where the limit is not readable or zero, a number of bytes within the default
limit. -/
def MemoryAsked (bounds : SandboxLimits) (requested : Text) : Prop :=
  parseMemory requested ≠ .ok (some 0) ∧
    (LimitReadable bounds ∨ ∃ bytes, parseMemory requested = .ok (some bytes) ∧ bytes ≤ defaultMaxBytes)

theorem parseMemory_default : parseMemory defaultMaxMemory = .ok (some defaultMaxBytes) := by decide +kernel

/-- The limit in bytes: the host's where it is readable and not zero, else the default. -/
theorem limitBytes_ok {limit : Option ℤ} (h : bounds.limitBytes = .ok limit) :
    (∃ bytes, limit = some bytes ∧ bytes ≠ 0 ∧ parseMemory bounds.maxMemory = .ok (some bytes)) ∨
    limit = some defaultMaxBytes ∧ ¬ LimitReadable bounds := by
  rw [SandboxLimits.limitBytes] at h
  obtain ⟨read, hread, h⟩ := Loops.bind_ok.mp h
  split at h
  · rename_i bytes
    split_ifs at h with hne
    · cases h
      exact .inl ⟨bytes, rfl, hne, hread⟩
    · rw [parseMemory_default] at h
      cases h
      right
      refine ⟨rfl, ?_⟩
      rintro ⟨limit, hlimit, hzero⟩
      rw [hread] at hlimit
      cases hlimit
      exact hne hzero
  · rw [parseMemory_default] at h
    cases h
    right
    refine ⟨rfl, ?_⟩
    rintro ⟨limit, hlimit, -⟩
    rw [hread] at hlimit
    cases hlimit

theorem clampMemory_bounded (h : bounds.clampMemory requested = .ok memory) :
    MemoryBounded bounds memory ↔ MemoryAsked bounds requested := by
  rw [SandboxLimits.clampMemory] at h
  obtain ⟨read, hread, h⟩ := Loops.bind_ok.mp h
  obtain ⟨limit, hlimit, h⟩ := Loops.bind_ok.mp h
  rcases limitBytes_ok hlimit with ⟨bound, rfl, hne, hbound⟩ | ⟨rfl, hunreadable⟩
  · -- a readable limit: only a request of zero bytes is not bounded
    have hpos : 0 < bound := lt_of_le_of_ne (parseMemory_nonneg hbound) hne.symm
    have hasked : MemoryAsked bounds requested ↔ read ≠ some 0 := by
      rw [MemoryAsked, hread]
      simp [LimitReadable, hbound, hne]
    rw [hasked]
    cases read with
    | none =>
      cases h
      exact ⟨fun _ => by simp, fun _ => ⟨bound, bound, hbound, hlimit, hpos, le_rfl⟩⟩
    | some asked =>
      have hasked₀ := parseMemory_nonneg hread
      dsimp only at h
      split_ifs at h with hover
      · cases h
        refine ⟨fun _ => ?_, fun _ => ⟨bound, bound, hbound, hlimit, hpos, le_rfl⟩⟩
        rintro ⟨⟩
        omega
      · cases h
        constructor
        · rintro ⟨bytes, limit, hbytes, -, hlt, -⟩ hzero
          rw [hread, hzero] at hbytes
          cases hbytes
          omega
        · intro hzero
          refine ⟨asked, bound, hread, hlimit, lt_of_le_of_ne hasked₀ ?_, by omega⟩
          rintro rfl
          exact hzero rfl
  · -- no readable limit: what is cut down to it is not bounded
    have hnot : ¬ MemoryBounded bounds bounds.maxMemory := by
      rintro ⟨bytes, limit, hbytes, -, hlt, -⟩
      exact hunreadable ⟨bytes, hbytes, hlt.ne'⟩
    rw [MemoryAsked, or_iff_right hunreadable, hread]
    cases read with
    | none =>
      cases h
      refine iff_of_false hnot ?_
      rintro ⟨-, bytes, hbytes, -⟩
      cases hbytes
    | some asked =>
      have hasked₀ := parseMemory_nonneg hread
      dsimp only at h
      split_ifs at h with hover
      · cases h
        refine iff_of_false hnot ?_
        rintro ⟨-, bytes, hbytes, hle⟩
        cases hbytes
        omega
      · cases h
        constructor
        · rintro ⟨bytes, limit, hbytes, -, hlt, -⟩
          rw [hread] at hbytes
          cases hbytes
          refine ⟨?_, asked, rfl, by omega⟩
          rintro ⟨⟩
          omega
        · rintro ⟨hzero, -⟩
          refine ⟨asked, defaultMaxBytes, hread, hlimit, lt_of_le_of_ne hasked₀ ?_, by omega⟩
          rintro rfl
          exact hzero rfl

/-! Processors -/

/-- Docker holds the sandbox to a positive share, not above the host's. -/
def CpusBounded (bounds : SandboxLimits) (cpus : Binary64) : Prop :=
  ∃ q, cpus.toRat? = some q ∧ 0 < q ∧ cpus.le bounds.maxCpus = true

/-- What a request has to be: positive like the limit (which nan is not), and not infinite beside an infinite limit. -/
def CpusAsked (bounds : SandboxLimits) (requested : Binary64) : Prop :=
  (Binary64.finite 0).lt requested = true ∧ (Binary64.finite 0).lt bounds.maxCpus = true ∧
    (requested.isFinite = true ∨ bounds.maxCpus.isFinite = true)

/-- Above a finite number there are larger ones and the infinity. -/
theorem lt_iff_of_toRat? {limit : Binary64} {m : ℚ} (hm : limit.toRat? = some m) :
    limit.lt x = true ↔ x = .inf false ∨ ∃ q, x.toRat? = some q ∧ m < q := by
  have hnan : limit ≠ .nan := by rintro rfl; cases hm
  cases hx : x.toRat? with
  | some q =>
    rw [Binary64.lt_of_toRat? hm hx, decide_eq_true_eq]
    have hinf : x ≠ .inf false := by rintro rfl; cases hx
    simp [hinf]
  | none =>
    cases x with
    | nan => cases limit <;> simp [Binary64.lt, Binary64.le]
    | inf negative => cases negative <;> cases limit <;> simp_all [Binary64.lt, Binary64.le, Binary64.toRat?]
    | negZero => cases hx
    | finite q => cases hx

theorem zero_lt_iff (x : Binary64) :
    (Binary64.finite 0).lt x = true ↔ x = .inf false ∨ ∃ q, x.toRat? = some q ∧ 0 < q := by
  have hzero : (Binary64.finite 0).toRat? = some 0 := rfl
  exact lt_iff_of_toRat? hzero

theorem le_inf {q : ℚ} (hx : x.toRat? = some q) : x.le (.inf false) = true := by
  cases x with
  | nan => cases hx
  | inf negative => cases hx
  | negZero => rfl
  | finite q => rfl

theorem inf_lt (x : Binary64) : (Binary64.inf false).lt x = false := by
  cases x with
  | inf negative => cases negative <;> rfl
  | nan => rfl
  | negZero => rfl
  | finite q => rfl

/-- Nothing finite is at most nan or minus infinity. -/
theorem not_le_of_not_number {q : ℚ} {limit : Binary64} (hx : x.toRat? = some q)
    (hlimit : limit = .nan ∨ limit = .inf true) : x.le limit = false := by
  rcases hlimit with rfl | rfl
  · cases x <;> rfl
  · cases x with
    | nan => cases hx
    | inf negative => cases hx
    | negZero => rfl
    | finite q => rfl

theorem cpusBounded_iff {q : ℚ} (hx : x.toRat? = some q) :
    CpusBounded bounds x ↔ 0 < q ∧ x.le bounds.maxCpus = true := by
  simp [CpusBounded, hx]

theorem not_cpusBounded (hx : x.toRat? = none) : ¬ CpusBounded bounds x := by
  simp [CpusBounded, hx]

theorem clampCpus_bounded (bounds : SandboxLimits) (requested : Binary64) :
    CpusBounded bounds (bounds.clampCpus requested) ↔ CpusAsked bounds requested := by
  rw [SandboxLimits.clampCpus, CpusAsked, zero_lt_iff, zero_lt_iff, Binary64.isFinite, Binary64.isFinite]
  cases hm : bounds.maxCpus.toRat? with
  | some m =>
    have hinf : bounds.maxCpus ≠ .inf false := by
      intro h
      rw [h] at hm
      cases hm
    by_cases hover : bounds.maxCpus.lt requested = true
    · rw [if_pos hover, cpusBounded_iff hm, Binary64.le_of_toRat? hm hm]
      rcases (lt_iff_of_toRat? hm).mp hover with rfl | ⟨q, hq, hlt⟩
      · simp [hinf]
      · simp only [hq, hinf, decide_eq_true_eq, le_refl, Option.isSome_some, or_true, and_true, false_or,
          Option.some.injEq, exists_eq_left']
        exact ⟨fun h => ⟨.inr (h.trans hlt), h⟩, fun h => h.2⟩
    · rw [if_neg hover]
      rw [lt_iff_of_toRat? hm, not_or] at hover
      cases hq : requested.toRat? with
      | some q =>
        have hle : q ≤ m := by
          by_contra hlt
          exact hover.2 ⟨q, hq, not_le.mp hlt⟩
        rw [cpusBounded_iff hq, Binary64.le_of_toRat? hq hm]
        simp only [hover.1, hinf, decide_eq_true_eq, Option.isSome_some, or_true, and_true, false_or,
          Option.some.injEq, exists_eq_left']
        exact ⟨fun h => ⟨h.1, h.1.trans_le h.2⟩, fun h => ⟨h.1, hle⟩⟩
      | none =>
        refine iff_of_false (not_cpusBounded hq) ?_
        simp [hover.1]
  | none =>
    -- no number is at most a nan or a negative infinity, and none is above a positive one
    have hnone : bounds.maxCpus = .nan ∨ bounds.maxCpus = .inf true ∨ bounds.maxCpus = .inf false := by
      cases hc : bounds.maxCpus with
      | nan => simp
      | inf negative => cases negative <;> simp
      | negZero =>
        rw [hc] at hm
        cases hm
      | finite p =>
        rw [hc] at hm
        cases hm
    by_cases hlimit : bounds.maxCpus = .inf false
    · rw [hlimit, inf_lt, if_neg Bool.false_ne_true]
      cases hq : requested.toRat? with
      | some q =>
        have hinf : requested ≠ .inf false := by
          intro h
          rw [h] at hq
          cases hq
        rw [cpusBounded_iff hq, hlimit, le_inf hq]
        simp [hinf]
      | none =>
        refine iff_of_false (not_cpusBounded hq) ?_
        simp
    · have hbad : bounds.maxCpus = .nan ∨ bounds.maxCpus = .inf true := by
        rcases hnone with h | h | h
        · exact .inl h
        · exact .inr h
        · exact absurd h hlimit
      refine iff_of_false ?_ ?_
      · rintro ⟨q, hq, -, hle⟩
        rw [not_le_of_not_number hq hbad] at hle
        cases hle
      · simp [hlimit]

/-! Plans -/

/-- The entry of an assignment. -/
def entryOf (config : List (Text × Json)) (code : Text) : Json :=
  (item code ((Json.field config "assignments").getD (.obj []))).toOption.getD (.obj [])

/-- `value.get(key, default)`, where the value is a mapping. -/
def at_ (value : Json) (key : String) (default : Json) : Json := (value.get key default).toOption.getD default

/-- The sandbox block that is in force: the common one, where there is a common block. -/
def sandboxOf (entry : Json) : Json :=
  let common := at_ entry "common" (.obj [])
  if common.truthy then at_ common "sandbox" (.obj []) else at_ entry "sandbox" (.obj [])

/-- The memory asked for. -/
def memoryOf (repr : Json → Option Text) (sandbox : Json) : Text :=
  (str repr (at_ sandbox "memory" defaultMemory)).toOption.getD []

/-- The share of a processor asked for. -/
def cpusOf (sandbox : Json) : Binary64 := (at_ sandbox "cpus" defaultCpus).toFloat.toOption.getD .nan

variable {repr : Json → Option Text} {environ : Environ} {config : List (Text × Json)} {code : Text}
  {variant : Option Text} {limits : Option SandboxLimits} {plan : CheckPlan} {c : Commands} {entry : Json}

theorem at_of_get {value found default : Json} {key : String} (h : value.get key default = .ok found) :
    at_ value key default = found := by
  rw [at_, h]
  rfl

theorem buildPlan_ok (h : buildPlan repr bounds c variant = .ok plan) :
    bounds.clampMemory (memoryOf repr c.sandbox) = .ok plan.memory ∧ plan.cpus = bounds.clampCpus (cpusOf c.sandbox) ∧
      plan.commonCheck = c.common ∧ plan.variantCheck = c.variant := by
  rw [buildPlan] at h
  obtain ⟨image, -, h⟩ := Loops.bind_ok.mp h
  obtain ⟨tool, -, h⟩ := Loops.bind_ok.mp h
  obtain ⟨asked, hasked, h⟩ := Loops.bind_ok.mp h
  obtain ⟨text, htext, h⟩ := Loops.bind_ok.mp h
  obtain ⟨memory, hmemory, h⟩ := Loops.bind_ok.mp h
  obtain ⟨share, hshare, h⟩ := Loops.bind_ok.mp h
  obtain ⟨cpus, hcpus, h⟩ := Loops.bind_ok.mp h
  obtain ⟨timeout, -, h⟩ := Loops.bind_ok.mp h
  obtain ⟨seconds, -, h⟩ := Loops.bind_ok.mp h
  obtain ⟨score, -, h⟩ := Loops.bind_ok.mp h
  obtain ⟨minPass, -, h⟩ := Loops.bind_ok.mp h
  cases h
  refine ⟨?_, ?_, rfl, rfl⟩
  · rw [memoryOf, at_of_get hasked, htext]
    exact hmemory
  · rw [cpusOf, at_of_get hshare, hcpus]
    rfl

theorem commands_sandbox (h : commands entry variant = .ok c) : c.sandbox = sandboxOf entry := by
  rw [commands] at h
  obtain ⟨common, hcommon, h⟩ := Loops.bind_ok.mp h
  rw [sandboxOf, at_of_get hcommon]
  split_ifs at h ⊢ with htruthy
  · rw [commonCommands] at h
    obtain ⟨sandbox, hsandbox, h⟩ := Loops.bind_ok.mp h
    rw [at_of_get hsandbox]
    obtain ⟨entry, -, h⟩ := Loops.bind_ok.mp h
    obtain ⟨own, -, h⟩ := Loops.bind_ok.mp h
    obtain ⟨validate, -, h⟩ := Loops.bind_ok.mp h
    obtain ⟨check, -, h⟩ := Loops.bind_ok.mp h
    obtain ⟨variantCheck, -, h⟩ := Loops.bind_ok.mp h
    cases h
    rfl
  · rw [flatCommands] at h
    obtain ⟨sandbox, hsandbox, h⟩ := Loops.bind_ok.mp h
    rw [at_of_get hsandbox]
    obtain ⟨overrides, -, h⟩ := Loops.bind_ok.mp h
    obtain ⟨validate, -, h⟩ := Loops.bind_ok.mp h
    obtain ⟨check, -, h⟩ := Loops.bind_ok.mp h
    cases h
    rfl

theorem distinct_sandbox (c : Commands) : c.distinct.sandbox = c.sandbox := by
  rw [Commands.distinct]
  split_ifs <;> rfl

theorem resolveEntry_plan (h : resolveEntry repr bounds entry variant = .ok (.plan plan)) :
    ∃ c, commands entry variant = .ok c ∧ buildPlan repr bounds c.distinct variant = .ok plan := by
  rw [resolveEntry] at h
  obtain ⟨c, hc, h⟩ := Loops.bind_ok.mp h
  obtain ⟨required, -, h⟩ := Loops.bind_ok.mp h
  split_ifs at h
  · cases h
  · cases h
  · obtain ⟨p, hp, h⟩ := Loops.bind_ok.mp h
    cases h
    exact ⟨c, hc, hp⟩

theorem resolveCheckPlan_plan (h : resolveCheckPlan repr environ config code variant limits = .ok (.plan plan)) :
    ∃ bounds, boundsOf environ limits = .ok bounds ∧
      resolveEntry repr bounds (entryOf config code) variant = .ok (.plan plan) := by
  rw [resolveCheckPlan] at h
  obtain ⟨bounds, hbounds, h⟩ := Loops.bind_ok.mp h
  obtain ⟨subject, -, h⟩ := Loops.bind_ok.mp h
  split_ifs at h with hempty
  · cases h
  · obtain ⟨listed, -, h⟩ := Loops.bind_ok.mp h
    split_ifs at h with hlisted
    · obtain ⟨entry, hentry, h⟩ := Loops.bind_ok.mp h
      refine ⟨bounds, hbounds, ?_⟩
      rw [entryOf, hentry]
      exact h
    · cases h

/-- A plan is bounded on both sides exactly when what its sandbox block asks for is. -/
theorem plan_bounded_iff (repr : Json → Option Text) (environ : Environ) (config : List (Text × Json)) (code : Text)
    (variant : Option Text) (limits : Option SandboxLimits) (plan : CheckPlan)
    (h : resolveCheckPlan repr environ config code variant limits = .ok (.plan plan)) :
    ∃ bounds, boundsOf environ limits = .ok bounds ∧
      (MemoryBounded bounds plan.memory ∧ CpusBounded bounds plan.cpus ↔
        MemoryAsked bounds (memoryOf repr (sandboxOf (entryOf config code))) ∧
          CpusAsked bounds (cpusOf (sandboxOf (entryOf config code)))) := by
  obtain ⟨bounds, hbounds, h⟩ := resolveCheckPlan_plan h
  obtain ⟨c, hc, hplan⟩ := resolveEntry_plan h
  obtain ⟨hmemory, hcpus, -⟩ := buildPlan_ok hplan
  rw [distinct_sandbox, commands_sandbox hc] at hmemory hcpus
  refine ⟨bounds, hbounds, ?_⟩
  rw [clampMemory_bounded hmemory, hcpus, clampCpus_bounded]

/-- One assignment, and what its sandbox block asks for. -/
def sandboxConfig (memory cpus : Json) : List (Text × Json) :=
  [(codes "assignments", .obj [(codes "hw1", .obj [(codes "sandbox", .obj
    [(codes "check_command", .str (codes "checks/hw1.py")), (codes "memory", memory), (codes "cpus", cpus)])])])]

def hostLimits : SandboxLimits := ⟨codes "512m", .finite 1⟩

/-- The memory and the share of a plan. -/
def planSandbox : Except PyError Resolution → Option (Text × Binary64)
  | .ok (.plan plan) => some (plan.memory, plan.cpus)
  | _ => none

theorem planSandbox_some {r : Except PyError Resolution} {memory : Text} {cpus : Binary64}
    (h : planSandbox r = some (memory, cpus)) : ∃ plan, r = .ok (.plan plan) ∧ plan.memory = memory ∧ plan.cpus = cpus := by
  unfold planSandbox at h
  split at h
  · rename_i plan
    cases h
    exact ⟨plan, rfl, rfl, rfl⟩
  · cases h

theorem modest_plan_bounded : ∃ plan, resolveCheckPlan (fun _ => none) ⟨none, none⟩
      (sandboxConfig (.str (codes "256m")) (.float (.finite (1 / 2)))) (codes "hw1") none (some hostLimits) = .ok (.plan plan) ∧
    MemoryBounded hostLimits plan.memory ∧ CpusBounded hostLimits plan.cpus := by
  have hplan : planSandbox (resolveCheckPlan (fun _ => none) ⟨none, none⟩
      (sandboxConfig (.str (codes "256m")) (.float (.finite (1 / 2)))) (codes "hw1") none (some hostLimits))
      = some (codes "256m", .finite (1 / 2)) := by decide +kernel
  have hlimit : parseMemory hostLimits.maxMemory = .ok (some 536870912) := by decide +kernel
  have hmemory : parseMemory (memoryOf (fun _ => none) (sandboxOf (entryOf
      (sandboxConfig (.str (codes "256m")) (.float (.finite (1 / 2)))) (codes "hw1")))) ≠ .ok (some 0) := by decide +kernel
  have hcpus : (Binary64.finite 0).lt (cpusOf (sandboxOf (entryOf
      (sandboxConfig (.str (codes "256m")) (.float (.finite (1 / 2)))) (codes "hw1")))) = true := by decide +kernel
  obtain ⟨plan, hok, -, -⟩ := planSandbox_some hplan
  obtain ⟨bounds, hbounds, hiff⟩ := plan_bounded_iff _ _ _ _ _ _ plan hok
  cases hbounds
  refine ⟨plan, hok, hiff.mpr ⟨⟨hmemory, .inl ⟨_, hlimit, by decide⟩⟩, hcpus, ?_, .inr rfl⟩⟩
  decide +kernel

/-- No memory and no number of processors: the plan asks Docker for an unlimited sandbox. -/
theorem zero_memory_unbounded : ∃ plan, resolveCheckPlan (fun _ => none) ⟨none, none⟩
      (sandboxConfig (.int 0) (.str (codes "nan"))) (codes "hw1") none (some hostLimits) = .ok (.plan plan) ∧
    ¬ MemoryBounded hostLimits plan.memory ∧ ¬ CpusBounded hostLimits plan.cpus := by
  have hplan : planSandbox (resolveCheckPlan (fun _ => none) ⟨none, none⟩
      (sandboxConfig (.int 0) (.str (codes "nan"))) (codes "hw1") none (some hostLimits)) = some (codes "0", .nan) := by
    decide +kernel
  have hzero : parseMemory (codes "0") = .ok (some 0) := by decide +kernel
  obtain ⟨plan, hok, hmemory, hcpus⟩ := planSandbox_some hplan
  refine ⟨plan, hok, ?_, ?_⟩
  · rintro ⟨bytes, limit, hbytes, -, hpos, -⟩
    rw [hmemory, hzero] at hbytes
    cases hbytes
    exact absurd hpos (lt_irrefl _)
  · rw [hcpus]
    exact not_cpusBounded rfl

end SubmissionsChecker.CheckCore
