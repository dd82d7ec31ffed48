import SubmissionsChecker.Properties.SandboxBounds

/-! When the resolution of a check plan answers instead of raising: the shapes that its chained
look-ups need in the stored config, and the values that its conversions read. -/

namespace SubmissionsChecker.CheckCore

open PyText

/-! ## What the conversions read -/

/-- `int(value)` reads it. -/
def ReadsAsInt : Json → Prop
  | .bool _ => True
  | .int _ => True
  | .float x => x.isFinite = true
  | .str text => (readInt text).isSome = true
  | _ => False

/-- `float(value)` reads it. -/
def ReadsAsFloat : Json → Prop
  | .bool _ => True
  | .int n => |(n : ℚ)| < Binary64.tooLarge
  | .float _ => True
  | .str text => (readFloat text).isSome = true
  | _ => False

/-- `str(value)` writes it. -/
def Printable (repr : Json → Option Text) : Json → Prop
  | .int n => (PyText.str n).isSome = true
  | .float x => (repr (.float x)).isSome = true
  | .arr items => (repr (.arr items)).isSome = true
  | .obj fields => (repr (.obj fields)).isSome = true
  | _ => True

/-- An amount of memory, where the text is one, fits a float. -/
def MemoryReadable (text : Text) : Prop :=
  ∀ amount unit, memoryParts text = some (amount, unit) → (amount.mul (.finite unit)).isFinite = true

variable {repr : Json → Option Text} {bounds : SandboxLimits} {c : Commands} {entry value : Json} {variant : Option Text}
  {text : Text} {environ : Environ} {limits : Option SandboxLimits} {config : List (Text × Json)} {code : Text}
  {plan : CheckPlan}

theorem binary64_toInt_isOk (x : Binary64) : (∃ n, x.toInt = .ok n) ↔ x.isFinite = true := by
  cases x <;> simp [Binary64.toInt, Binary64.isFinite, Binary64.toRat?]

theorem toInt_isOk : (∃ n, value.toInt = .ok n) ↔ ReadsAsInt value := by
  cases value with
  | float x => exact binary64_toInt_isOk x
  | str text =>
    rw [Json.toInt, ReadsAsInt]
    cases readInt text <;> simp
  | null => simp [Json.toInt, ReadsAsInt]
  | bool b => simp [Json.toInt, ReadsAsInt]
  | int n => simp [Json.toInt, ReadsAsInt]
  | arr items => simp [Json.toInt, ReadsAsInt]
  | obj fields => simp [Json.toInt, ReadsAsInt]

theorem toFloat_isOk : (∃ x, value.toFloat = .ok x) ↔ ReadsAsFloat value := by
  cases value with
  | int n =>
    rw [Json.toFloat, ReadsAsFloat, ← not_le, ← Binary64.ofInt_none]
    cases Binary64.ofInt n <;> simp
  | str text =>
    rw [Json.toFloat, ReadsAsFloat]
    cases readFloat text <;> simp
  | null => simp [Json.toFloat, ReadsAsFloat]
  | bool b => simp [Json.toFloat, ReadsAsFloat]
  | float x => simp [Json.toFloat, ReadsAsFloat]
  | arr items => simp [Json.toFloat, ReadsAsFloat]
  | obj fields => simp [Json.toFloat, ReadsAsFloat]

theorem str_isOk : (∃ text, str repr value = .ok text) ↔ Printable repr value := by
  unfold str Printable
  cases value with
  | int n =>
    dsimp only
    split
    · rename_i text h
      simp [h]
    · rename_i h
      simp [h]
  | float x =>
    dsimp only
    split <;> simp_all
  | arr items =>
    dsimp only
    split <;> simp_all
  | obj fields =>
    dsimp only
    split <;> simp_all
  | null => simp
  | bool b => simp
  | str text => simp

theorem parseMemory_isOk : (∃ bytes, parseMemory text = .ok bytes) ↔ MemoryReadable text := by
  rw [parseMemory, MemoryReadable]
  cases hparts : memoryParts text with
  | none => simp
  | some parts =>
    obtain ⟨amount, unit⟩ := parts
    have hmap : (∃ bytes, ((amount.mul (.finite unit)).toInt.map some : Except PyError (Option ℤ)) = .ok bytes) ↔
        ∃ n, (amount.mul (.finite unit)).toInt = .ok n := by
      cases (amount.mul (.finite unit)).toInt <;> simp [Except.map]
    rw [hmap, binary64_toInt_isOk]
    constructor
    · intro h amount' unit' heq
      cases heq
      exact h
    · exact fun h => h amount unit rfl

theorem limitBytes_isOk : (∃ limit, bounds.limitBytes = .ok limit) ↔ MemoryReadable bounds.maxMemory := by
  rw [SandboxLimits.limitBytes, Loops.bind_isOk, ← parseMemory_isOk]
  refine exists_congr fun read => and_iff_left ?_
  cases read with
  | none => exact ⟨_, parseMemory_default⟩
  | some bytes =>
    dsimp only
    split_ifs
    · exact ⟨_, rfl⟩
    · exact ⟨_, parseMemory_default⟩

theorem clampMemory_isOk : (∃ memory, bounds.clampMemory text = .ok memory) ↔
    MemoryReadable text ∧ MemoryReadable bounds.maxMemory := by
  rw [SandboxLimits.clampMemory, Loops.bind_isOk, ← parseMemory_isOk, ← limitBytes_isOk]
  constructor
  · rintro ⟨read, hread, h⟩
    obtain ⟨limit, hlimit, -⟩ := Loops.bind_isOk.mp h
    exact ⟨⟨read, hread⟩, limit, hlimit⟩
  · rintro ⟨⟨read, hread⟩, limit, hlimit⟩
    refine ⟨read, hread, Loops.bind_isOk.mpr ⟨limit, hlimit, ?_⟩⟩
    cases read with
    | none => exact ⟨_, rfl⟩
    | some bytes =>
      cases limit with
      | none => exact ⟨_, rfl⟩
      | some limit => exact ⟨_, rfl⟩

theorem boundsOf_isOk : (∃ bounds, boundsOf environ limits = .ok bounds) ↔
    limits = none → MemoryReadable (environ.maxMemory.getD defaultMaxMemory) := by
  cases limits with
  | some limits => simp [boundsOf]
  | none =>
    rw [boundsOf, SandboxLimits.fromEnv, Loops.bind_isOk, ← parseMemory_isOk]
    constructor
    · rintro ⟨read, hread, -⟩ -
      exact ⟨read, hread⟩
    · intro h
      obtain ⟨read, hread⟩ := h rfl
      exact ⟨read, hread, _, rfl⟩

/-! ## The sandbox block -/

/-- What a plan is made of is readable. -/
structure NumbersReadable (repr : Json → Option Text) (bounds : SandboxLimits) (sandbox : Json) : Prop where
  memory : Printable repr (at_ sandbox "memory" defaultMemory)
  bytes : MemoryReadable (memoryOf repr sandbox)
  limit : MemoryReadable bounds.maxMemory
  cpus : ReadsAsFloat (at_ sandbox "cpus" defaultCpus)
  timeout : ReadsAsInt (at_ sandbox "timeout_seconds" defaultTimeout)
  minPass : ReadsAsInt (at_ sandbox "min_pass_score" defaultMinPass)

theorem get_of_mapping {key : String} {default : Json} (h : value.isMapping = true) :
    value.get key default = .ok (at_ value key default) := by
  obtain ⟨found, hfound⟩ := Json.get_isOk.mpr h
  rw [hfound, at_of_get hfound]

theorem mapping_of_get {key : String} {default found : Json} (h : value.get key default = .ok found) :
    value.isMapping = true :=
  Json.get_isOk.mp ⟨found, h⟩

theorem buildPlan_isOk : (∃ plan, buildPlan repr bounds c variant = .ok plan) ↔
    c.sandbox.isMapping = true ∧ NumbersReadable repr bounds c.sandbox := by
  constructor
  · rintro ⟨plan, h⟩
    have hmemory := (buildPlan_ok h).1
    rw [buildPlan] at h
    obtain ⟨image, himage, h⟩ := Loops.bind_ok.mp h
    obtain ⟨tool, -, h⟩ := Loops.bind_ok.mp h
    obtain ⟨asked, hasked, h⟩ := Loops.bind_ok.mp h
    obtain ⟨text, htext, h⟩ := Loops.bind_ok.mp h
    obtain ⟨memory, -, h⟩ := Loops.bind_ok.mp h
    obtain ⟨share, hshare, h⟩ := Loops.bind_ok.mp h
    obtain ⟨cpus, hcpus, h⟩ := Loops.bind_ok.mp h
    obtain ⟨timeout, htimeout, h⟩ := Loops.bind_ok.mp h
    obtain ⟨seconds, hseconds, h⟩ := Loops.bind_ok.mp h
    obtain ⟨score, hscore, h⟩ := Loops.bind_ok.mp h
    obtain ⟨minPass, hminPass, h⟩ := Loops.bind_ok.mp h
    have hclamped := clampMemory_isOk.mp ⟨_, hmemory⟩
    rw [← at_of_get hasked] at htext
    rw [← at_of_get hshare] at hcpus
    rw [← at_of_get htimeout] at hseconds
    rw [← at_of_get hscore] at hminPass
    exact ⟨mapping_of_get himage, str_isOk.mp ⟨_, htext⟩, hclamped.1, hclamped.2, toFloat_isOk.mp ⟨_, hcpus⟩,
      toInt_isOk.mp ⟨_, hseconds⟩, toInt_isOk.mp ⟨_, hminPass⟩⟩
  · rintro ⟨hmapping, hreadable⟩
    obtain ⟨text, htext⟩ := str_isOk.mpr hreadable.memory
    have htext' : memoryOf repr c.sandbox = text := by rw [memoryOf, htext]; rfl
    obtain ⟨memory, hmemory⟩ := clampMemory_isOk.mpr ⟨hreadable.bytes, hreadable.limit⟩
    rw [htext'] at hmemory
    obtain ⟨cpus, hcpus⟩ := toFloat_isOk.mpr hreadable.cpus
    obtain ⟨seconds, hseconds⟩ := toInt_isOk.mpr hreadable.timeout
    obtain ⟨minPass, hminPass⟩ := toInt_isOk.mpr hreadable.minPass
    simp only [buildPlan, get_of_mapping hmapping, Loops.ok_bind, htext, hmemory, hcpus, hseconds, hminPass]
    exact ⟨_, rfl⟩

/-! ## The entry of an assignment -/

/-- What a named variant has of its own. -/
def variantOf (entry : Json) (variant : Option Text) : Json :=
  match named variant with
  | none => .obj []
  | some name => ((at_ entry "variants" (.obj [])).getText name (.obj [])).toOption.getD (.obj [])

/-- The block that is looked up before the sandbox block: of the variant, or its own sandbox block where there is a common one. -/
def ownOf (entry : Json) (variant : Option Text) : Json :=
  if (at_ entry "common" (.obj [])).truthy then at_ (variantOf entry variant) "sandbox" (.obj [])
  else variantOf entry variant

/-- A script is configured. -/
def HasCheck (entry : Json) (variant : Option Text) : Prop :=
  (at_ (sandboxOf entry) "check_command" .null).truthy = true ∨ (at_ (ownOf entry variant) "check_command" .null).truthy = true

/-- What is looked up is a mapping. -/
structure EntryMappings (entry : Json) (variant : Option Text) : Prop where
  mapping : entry.isMapping = true
  common : (at_ entry "common" (.obj [])).truthy = true → (at_ entry "common" (.obj [])).isMapping = true
  variants : named variant ≠ none → (at_ entry "variants" (.obj [])).isMapping = true
  ownVariant : (variantOf entry variant).isMapping = true
  own : (ownOf entry variant).isMapping = true
  sandbox : (sandboxOf entry).isMapping = true

/-- And where a plan is made, what it is made of is readable. -/
structure EntryResolvable (repr : Json → Option Text) (bounds : SandboxLimits) (entry : Json) (variant : Option Text) :
    Prop extends EntryMappings entry variant where
  numbers : ((at_ entry "variants_required" .null).truthy = true → named variant ≠ none) → HasCheck entry variant →
    NumbersReadable repr bounds (sandboxOf entry)

theorem getText_isOk {key : Text} {default : Json} : (∃ found, value.getText key default = .ok found) ↔
    value.isMapping = true := by
  cases value <;> simp [Json.getText, Json.isMapping]

theorem variantEntry_of_mapping (h : named variant ≠ none → (at_ entry "variants" (.obj [])).isMapping = true)
    (hentry : entry.isMapping = true) : variantEntry entry variant = .ok (variantOf entry variant) := by
  unfold variantEntry variantOf
  cases hname : named variant with
  | none => rfl
  | some name =>
    have hvariants := h (by simp [hname])
    obtain ⟨found, hfound⟩ := getText_isOk.mpr hvariants
    dsimp only
    rw [get_of_mapping hentry, Loops.ok_bind, hfound]
    rfl

theorem mapping_of_variantEntry {found : Json} (h : variantEntry entry variant = .ok found) (hentry : entry.isMapping = true) :
    (named variant ≠ none → (at_ entry "variants" (.obj [])).isMapping = true) ∧ variantOf entry variant = found := by
  have hvariants : named variant ≠ none → (at_ entry "variants" (.obj [])).isMapping = true := by
    intro hname
    unfold variantEntry at h
    split at h
    · contradiction
    · rw [get_of_mapping hentry, Loops.ok_bind] at h
      exact getText_isOk.mp ⟨_, h⟩
  refine ⟨hvariants, ?_⟩
  rw [variantEntry_of_mapping hvariants hentry] at h
  cases h
  rfl

/-- The commands that look-ups in mappings find. -/
def commandsOf (entry : Json) (variant : Option Text) : Commands :=
  let sandbox := sandboxOf entry
  let own := ownOf entry variant
  let first (key : String) := if (at_ own key .null).truthy then at_ own key .null else at_ sandbox key .null
  if (at_ entry "common" (.obj [])).truthy then
    ⟨sandbox, first "validate_command", at_ sandbox "check_command" .null, at_ own "check_command" .null⟩
  else ⟨sandbox, first "validate_command", .null, first "check_command"⟩

theorem ownOrShared_of_mapping {own shared : Json} {key : String} (hown : own.isMapping = true)
    (hshared : shared.isMapping = true) : ownOrShared own shared key =
      .ok (if (at_ own key .null).truthy then at_ own key .null else at_ shared key .null) := by
  rw [ownOrShared, get_of_mapping hown, Loops.ok_bind]
  split_ifs
  · rfl
  · exact get_of_mapping hshared

theorem commands_of_mappings (h : EntryMappings entry variant) :
    commands entry variant = .ok (commandsOf entry variant) := by
  have hsandbox := h.sandbox
  have hown := h.own
  rw [commands, get_of_mapping h.mapping, Loops.ok_bind, commandsOf]
  by_cases hcommon : (at_ entry "common" (.obj [])).truthy = true
  · have hsandbox' : sandboxOf entry = at_ (at_ entry "common" (.obj [])) "sandbox" (.obj []) := if_pos hcommon
    have hown' : ownOf entry variant = at_ (variantOf entry variant) "sandbox" (.obj []) := if_pos hcommon
    rw [if_pos hcommon, if_pos hcommon, hsandbox', hown']
    rw [hsandbox'] at hsandbox
    rw [hown'] at hown
    simp only [commonCommands, get_of_mapping (h.common hcommon), variantEntry_of_mapping h.variants h.mapping,
      get_of_mapping h.ownVariant, get_of_mapping hsandbox, get_of_mapping hown, ownOrShared_of_mapping hown hsandbox,
      Loops.ok_bind]
    rfl
  · have hsandbox' : sandboxOf entry = at_ entry "sandbox" (.obj []) := if_neg hcommon
    have hown' : ownOf entry variant = variantOf entry variant := if_neg hcommon
    rw [if_neg hcommon, if_neg hcommon, hsandbox', hown']
    rw [hsandbox'] at hsandbox
    rw [hown'] at hown
    simp only [flatCommands, get_of_mapping h.mapping, variantEntry_of_mapping h.variants h.mapping,
      ownOrShared_of_mapping hown hsandbox, Loops.ok_bind]
    rfl

theorem commandsOf_sandbox : (commandsOf entry variant).sandbox = sandboxOf entry := by
  rw [commandsOf]
  dsimp only
  split_ifs <;> rfl

theorem hasCheck_commandsOf : (commandsOf entry variant).common.truthy = true ∨
    (commandsOf entry variant).variant.truthy = true ↔ HasCheck entry variant := by
  have hnull : Json.null.truthy = false := rfl
  rw [commandsOf, HasCheck]
  by_cases hcommon : (at_ entry "common" (.obj [])).truthy = true
  · rw [if_pos hcommon]
  · rw [if_neg hcommon]
    dsimp only
    by_cases hown : (at_ (ownOf entry variant) "check_command" .null).truthy = true
    · rw [if_pos hown]
      simp [hown]
    · rw [if_neg hown]
      simp [hown, hnull]

/-- Dropping the variant's script that is the common one leaves the common one. -/
theorem distinct_checks (c : Commands) : c.distinct.common.truthy = true ∨ c.distinct.variant.truthy = true ↔
    c.common.truthy = true ∨ c.variant.truthy = true := by
  rw [Commands.distinct]
  split_ifs with h
  · rw [Bool.and_eq_true, Bool.and_eq_true] at h
    simp [h.1.1]
  · rfl

theorem ownOrShared_ok {own shared value : Json} {key : String} (h : ownOrShared own shared key = .ok value) :
    own.isMapping = true ∧
      (shared.isMapping = true ∨ (at_ own key .null).truthy = true ∧ value = at_ own key .null) := by
  rw [ownOrShared] at h
  obtain ⟨found, hfound, h⟩ := Loops.bind_ok.mp h
  refine ⟨mapping_of_get hfound, ?_⟩
  rw [at_of_get hfound]
  split_ifs at h with htruthy
  · cases h
    exact .inr ⟨htruthy, rfl⟩
  · exact .inl (mapping_of_get h)

/-- What the look-ups need; a flat sandbox block is not looked at where the variant has a script of its own. -/
theorem mappings_of_commands (h : commands entry variant = .ok c) :
    entry.isMapping = true ∧
    ((at_ entry "common" (.obj [])).truthy = true → (at_ entry "common" (.obj [])).isMapping = true) ∧
    (named variant ≠ none → (at_ entry "variants" (.obj [])).isMapping = true) ∧
    (variantOf entry variant).isMapping = true ∧ (ownOf entry variant).isMapping = true ∧
    ((sandboxOf entry).isMapping = true ∨ c.variant.truthy = true ∧ named variant ≠ none) := by
  rw [commands] at h
  obtain ⟨common, hcommon, h⟩ := Loops.bind_ok.mp h
  have hentry := mapping_of_get hcommon
  have hat := at_of_get hcommon
  refine ⟨hentry, ?_⟩
  split_ifs at h with htruthy
  · rw [commonCommands] at h
    obtain ⟨sandbox, hsandbox, h⟩ := Loops.bind_ok.mp h
    obtain ⟨own, hown, h⟩ := Loops.bind_ok.mp h
    obtain ⟨ownSandbox, hownSandbox, h⟩ := Loops.bind_ok.mp h
    obtain ⟨validate, hvalidate, h⟩ := Loops.bind_ok.mp h
    obtain ⟨check, hcheck, h⟩ := Loops.bind_ok.mp h
    obtain ⟨hvariants, rfl⟩ := mapping_of_variantEntry hown hentry
    have hsandbox' : sandboxOf entry = sandbox := by
      rw [sandboxOf, hat]
      rw [if_pos htruthy, at_of_get hsandbox]
    have hown' : ownOf entry variant = ownSandbox := by
      rw [ownOf, hat, if_pos htruthy, at_of_get hownSandbox]
    rw [hat, hsandbox', hown']
    exact ⟨fun _ => mapping_of_get hsandbox, hvariants, mapping_of_get hownSandbox, (ownOrShared_ok hvalidate).1,
      .inl (mapping_of_get hcheck)⟩
  · rw [flatCommands] at h
    obtain ⟨sandbox, hsandbox, h⟩ := Loops.bind_ok.mp h
    obtain ⟨own, hown, h⟩ := Loops.bind_ok.mp h
    obtain ⟨validate, hvalidate, h⟩ := Loops.bind_ok.mp h
    obtain ⟨check, hcheck, h⟩ := Loops.bind_ok.mp h
    cases h
    obtain ⟨hvariants, rfl⟩ := mapping_of_variantEntry hown hentry
    have hsandbox' : sandboxOf entry = sandbox := by
      rw [sandboxOf, hat]
      rw [if_neg htruthy, at_of_get hsandbox]
    have hown' : ownOf entry variant = variantOf entry variant := by rw [ownOf, hat, if_neg htruthy]
    rw [hat, hsandbox', hown']
    obtain ⟨hmapping, hshared⟩ := ownOrShared_ok hcheck
    refine ⟨fun h => absurd h htruthy, hvariants, hmapping, hmapping, ?_⟩
    rcases hshared with hshared | ⟨hscript, rfl⟩
    · exact .inl hshared
    · -- without a name there is no script of the variant's own
      refine .inr ⟨hscript, ?_⟩
      intro hnone
      rw [variantOf, hnone] at hscript
      cases hscript

theorem resolveEntry_isOk : (∃ r, resolveEntry repr bounds entry variant = .ok r) ↔
    EntryResolvable repr bounds entry variant := by
  constructor
  · rintro ⟨r, h⟩
    rw [resolveEntry] at h
    obtain ⟨c, hc, h⟩ := Loops.bind_ok.mp h
    obtain ⟨required, hrequired, h⟩ := Loops.bind_ok.mp h
    obtain ⟨hentry, hcommon, hvariants, hvariant, hown, hsandbox⟩ := mappings_of_commands hc
    have hmappings : (sandboxOf entry).isMapping = true → EntryMappings entry variant :=
      fun h => ⟨hentry, hcommon, hvariants, hvariant, hown, h⟩
    split_ifs at h with hmissing hnone
    · -- no variant, and one is required
      rw [Bool.and_eq_true, Option.isNone_iff_eq_none] at hmissing
      refine ⟨hmappings (hsandbox.resolve_right fun h => h.2 hmissing.2), fun h _ => ?_⟩
      rw [at_of_get hrequired] at h
      exact absurd hmissing.2 (h hmissing.1)
    · -- no script at all
      have hchecks : ¬ (c.common.truthy = true ∨ c.variant.truthy = true) := by
        rw [← distinct_checks]
        simpa using hnone
      have hall := hmappings (hsandbox.resolve_right fun h => hchecks (.inr h.1))
      refine ⟨hall, fun _ hcheck => ?_⟩
      rw [commands_of_mappings hall] at hc
      cases hc
      exact absurd (hasCheck_commandsOf.mpr hcheck) hchecks
    · obtain ⟨plan, hplan, -⟩ := Loops.bind_ok.mp h
      have hbuilt := buildPlan_isOk.mp ⟨plan, hplan⟩
      rw [distinct_sandbox, commands_sandbox hc] at hbuilt
      exact ⟨hmappings hbuilt.1, fun _ _ => hbuilt.2⟩
  · intro h
    rw [resolveEntry, commands_of_mappings h.toEntryMappings, Loops.ok_bind, get_of_mapping h.mapping, Loops.ok_bind]
    split_ifs with hmissing hnone
    · exact ⟨_, rfl⟩
    · exact ⟨_, rfl⟩
    · have hrequired : (at_ entry "variants_required" .null).truthy = true → named variant ≠ none := by
        intro htruthy hname
        simp [htruthy, hname] at hmissing
      have hcheck : HasCheck entry variant := by
        rw [← hasCheck_commandsOf, ← distinct_checks]
        by_contra hnot
        rw [not_or, Bool.not_eq_true, Bool.not_eq_true] at hnot
        simp [hnot.1, hnot.2] at hnone
      have hbuilt : ∃ plan, buildPlan repr bounds (commandsOf entry variant).distinct variant = .ok plan := by
        rw [buildPlan_isOk, distinct_sandbox, commandsOf_sandbox]
        exact ⟨h.sandbox, h.numbers hrequired hcheck⟩
      obtain ⟨plan, hplan⟩ := hbuilt
      exact ⟨.plan plan, Loops.bind_ok.mpr ⟨plan, hplan, rfl⟩⟩

/-! ## The config -/

/-- What the stored config holds under `assignments`. -/
def assignmentsOf (config : List (Text × Json)) : Json := (Json.field config "assignments").getD (.obj [])

/-- An assignment looked up is in a mapping, or in a list or a text that does not hold its code. -/
def Searchable (code : Text) : Json → Prop
  | .obj _ => True
  | .arr items => items.any (Json.eq (.str code)) = false
  | .str text => ¬ code <:+: text
  | _ => False

/-- The assignment is listed, in a mapping. -/
def Listed (code : Text) : Json → Prop
  | .obj fields => (fields.lookup code).isSome = true
  | _ => False

/-- When the resolution answers: the bounds can be read from the environment, the subject's code can be written, the
assignments can be searched, and the entry found is resolvable. -/
def Resolvable (repr : Json → Option Text) (environ : Environ) (config : List (Text × Json)) (code : Text)
    (variant : Option Text) (limits : Option SandboxLimits) : Prop :=
  (limits = none → MemoryReadable (environ.maxMemory.getD defaultMaxMemory)) ∧
    Printable repr ((Json.field config "subjectCode").getD (.str (codes "unknown"))) ∧
    (code ≠ [] → Searchable code (assignmentsOf config) ∧
      (Listed code (assignmentsOf config) → ∀ bounds, boundsOf environ limits = .ok bounds →
        EntryResolvable repr bounds (entryOf config code) variant))

theorem contains_isOk {code : Text} {container : Json} (h : Searchable code container) :
    ∃ found, contains code container = .ok found ∧ (found = true ↔ Listed code container) := by
  cases container with
  | obj fields => exact ⟨_, rfl, Iff.rfl⟩
  | arr items => exact ⟨_, rfl, by simp [show items.any (Json.eq (.str code)) = false from h, Listed]⟩
  | str text =>
    refine ⟨_, rfl, ?_⟩
    rw [decide_eq_false h]
    simp [Listed]
  | null => cases h
  | bool b => cases h
  | int n => cases h
  | float x => cases h

theorem searchable_of_ok {code : Text} {container : Json} {found : Bool} (h : contains code container = .ok found)
    (hitem : found = true → ∃ value, item code container = .ok value) : Searchable code container := by
  cases container with
  | obj fields => trivial
  | arr items =>
    cases h
    rw [Searchable, ← Bool.not_eq_true]
    intro hany
    obtain ⟨value, hvalue⟩ := hitem hany
    cases hvalue
  | str text =>
    cases h
    intro hinfix
    obtain ⟨value, hvalue⟩ := hitem (decide_eq_true hinfix)
    cases hvalue
  | null => cases h
  | bool b => cases h
  | int n => cases h
  | float x => cases h

theorem item_of_listed {code : Text} {container : Json} (h : Listed code container) :
    ∃ value, item code container = .ok value := by
  cases container with
  | obj fields =>
    obtain ⟨value, hvalue⟩ := Option.isSome_iff_exists.mp h
    exact ⟨value, by rw [item, hvalue]⟩
  | null => cases h
  | bool b => cases h
  | int n => cases h
  | float x => cases h
  | str text => cases h
  | arr items => cases h

theorem resolveCheckPlan_isOk : (∃ r, resolveCheckPlan repr environ config code variant limits = .ok r) ↔
    Resolvable repr environ config code variant limits := by
  constructor
  · rintro ⟨r, h⟩
    rw [resolveCheckPlan] at h
    obtain ⟨bounds, hbounds, h⟩ := Loops.bind_ok.mp h
    obtain ⟨subject, hsubject, h⟩ := Loops.bind_ok.mp h
    refine ⟨boundsOf_isOk.mp ⟨bounds, hbounds⟩, str_isOk.mp ⟨_, hsubject⟩, fun hcode => ?_⟩
    rw [if_neg (by simpa using hcode)] at h
    obtain ⟨found, hfound, h⟩ := Loops.bind_ok.mp h
    have hitem : found = true → ∃ value, item code (assignmentsOf config) = .ok value := by
      intro htrue
      rw [if_pos htrue] at h
      obtain ⟨value, hvalue, -⟩ := Loops.bind_ok.mp h
      exact ⟨value, hvalue⟩
    have hsearchable := searchable_of_ok hfound hitem
    refine ⟨hsearchable, fun hlisted bounds' hbounds' => ?_⟩
    rw [hbounds] at hbounds'
    cases hbounds'
    obtain ⟨found', hfound', hiff⟩ := contains_isOk hsearchable
    have hsame : found' = found := Except.ok.inj (hfound'.symm.trans hfound)
    rw [if_pos (hsame ▸ hiff.mpr hlisted)] at h
    obtain ⟨value, hvalue, h⟩ := Loops.bind_ok.mp h
    rw [entryOf, hvalue]
    exact resolveEntry_isOk.mp ⟨r, h⟩
  · rintro ⟨henviron, hsubject, hcode⟩
    obtain ⟨bounds, hbounds⟩ := boundsOf_isOk.mpr henviron
    obtain ⟨subject, hsubject⟩ := str_isOk.mpr hsubject
    rw [resolveCheckPlan, hbounds, Loops.ok_bind, hsubject, Loops.ok_bind]
    by_cases hempty : code = []
    · rw [if_pos (by simp [hempty])]
      exact ⟨_, rfl⟩
    · rw [if_neg (by simpa using hempty)]
      obtain ⟨hsearchable, hentry⟩ := hcode hempty
      obtain ⟨found, hfound, hiff⟩ := contains_isOk hsearchable
      rw [assignmentsOf] at hfound
      rw [hfound, Loops.ok_bind]
      by_cases hlisted : Listed code (assignmentsOf config)
      · rw [if_pos (hiff.mpr hlisted)]
        obtain ⟨value, hvalue⟩ := item_of_listed hlisted
        have hentry := hentry hlisted bounds hbounds
        rw [assignmentsOf] at hvalue
        rw [entryOf, hvalue] at hentry
        rw [hvalue, Loops.ok_bind]
        exact resolveEntry_isOk.mpr hentry
      · rw [if_neg fun htrue => hlisted (hiff.mp htrue)]
        exact ⟨_, rfl⟩

/-- The scripts of a plan: one at least, and not the same one twice. -/
theorem plan_checks (h : resolveCheckPlan repr environ config code variant limits = .ok (.plan plan)) :
    (plan.commonCheck.truthy = true ∨ plan.variantCheck.truthy = true) ∧ plan.commonCheck.eq plan.variantCheck = false := by
  obtain ⟨bounds, -, h⟩ := resolveCheckPlan_plan h
  rw [resolveEntry] at h
  obtain ⟨c, -, h⟩ := Loops.bind_ok.mp h
  obtain ⟨required, -, h⟩ := Loops.bind_ok.mp h
  split_ifs at h with hmissing hnone
  · cases h
  · cases h
  · obtain ⟨built, hbuilt, h⟩ := Loops.bind_ok.mp h
    cases h
    obtain ⟨-, -, hcommon, hvariant⟩ := buildPlan_ok hbuilt
    rw [hcommon, hvariant]
    have hsome : c.distinct.common.truthy = true ∨ c.distinct.variant.truthy = true := by
      by_contra hnot
      rw [not_or, Bool.not_eq_true, Bool.not_eq_true] at hnot
      simp [hnot.1, hnot.2] at hnone
    refine ⟨hsome, ?_⟩
    rw [← Bool.not_eq_true]
    intro heq
    have hsame := Json.truthy_of_eq heq
    rw [← hsame, or_self] at hsome
    -- both are scripts, so the variant's was kept for being another
    rw [Commands.distinct] at hsome hsame heq
    split_ifs at hsome hsame heq with hdouble
    · rw [hsome] at hsame
      cases hsame
    · simp [hsome, ← hsame, heq] at hdouble

/-- The resolution answers exactly when the config is resolvable, and its plans have a script and none twice. -/
theorem plan_resolution_iff (repr : Json → Option Text) (environ : Environ) (config : List (Text × Json)) (code : Text)
    (variant : Option Text) (limits : Option SandboxLimits) :
    ((∃ r, resolveCheckPlan repr environ config code variant limits = .ok r) ∧
      ∀ plan, resolveCheckPlan repr environ config code variant limits = .ok (.plan plan) →
        (plan.commonCheck.truthy = true ∨ plan.variantCheck.truthy = true) ∧
          plan.commonCheck.eq plan.variantCheck = false) ↔
      Resolvable repr environ config code variant limits := by
  rw [← resolveCheckPlan_isOk]
  exact and_iff_left fun plan => plan_checks

def nullVariants : List (Text × Json) :=
  [(codes "subjectCode", .str (codes "py")), (codes "assignments", .obj [(codes "hw1", .obj
    [(codes "sandbox", .obj [(codes "check_command", .str (codes "checks/hw1.py"))]), (codes "variants", .null)])])]

/-- A config with an empty `variants:` block passes the validation of the apply, and raises for a student with a variant. -/
theorem null_variants_raise : (validateCheckCommands nullVariants).isOk = true ∧
    ¬ ∃ r, resolveCheckPlan (fun _ => none) ⟨none, none⟩ nullVariants (codes "hw1") (some (codes "1"))
      (some hostLimits) = .ok r := by
  refine ⟨by decide +kernel, ?_⟩
  rintro ⟨r, h⟩
  cases h

end SubmissionsChecker.CheckCore
