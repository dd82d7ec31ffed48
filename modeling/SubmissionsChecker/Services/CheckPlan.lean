import SubmissionsChecker.Library.PyNumber

/-! `services/check_core.py`: how a check is read out of the config of a subject, and the bounds of its sandbox. -/

namespace SubmissionsChecker

namespace CheckCore

open PyText

def defaultImage : Json := .str (codes "python:3.12-slim")

def defaultTool : Json := .str (codes "python3")

def defaultMemory : Json := .str (codes "256m")

def defaultCpus : Json := .float (.finite (1 / 2))

def defaultTimeout : Json := .int 30

def defaultMinPass : Json := .int 100

def defaultMaxMemory : Text := codes "512m"

def defaultMaxCpus : Binary64 := .finite 1

/-- `_MEMORY_UNITS`, in both cases; the Kelvin sign is a `k` in lower case. -/
def memoryUnit (code : ℕ) : Option ℕ :=
  if code = 98 ∨ code = 66 then some 1
  else if code = 107 ∨ code = 75 ∨ code = 0x212a then some 1024
  else if code = 109 ∨ code = 77 then some (1024 ^ 2)
  else if code = 103 ∨ code = 71 then some (1024 ^ 3)
  else none

def isDecimal (code : ℕ) : Bool := (digit code).isSome

/-- `_MEMORY_PATTERN`: the amount and the unit. -/
def memoryParts (text : Text) : Option (Binary64 × ℕ) :=
  let body := text.dropWhile isBlank
  let whole := body.takeWhile isDecimal
  let rest := body.dropWhile isDecimal
  let (fraction, rest) := match rest with
    | 46 :: tail => if (tail.takeWhile isDecimal).isEmpty then ([], rest) else (tail.takeWhile isDecimal, tail.dropWhile isDecimal)
    | _ => ([], rest)
  let rest := rest.dropWhile isBlank
  let (unit, rest) := match rest with
    | [] => (1, [])
    | c :: tail => match memoryUnit c with
      | some unit => (unit, tail)
      | none => (1, rest)
  if !whole.isEmpty && rest.all isBlank then
    some (decimalFloat (numeral (toAscii (whole ++ fraction))) (-fraction.length), unit)
  else none

/-- `parse_memory`, of a text; an amount that no float holds is no integer either. -/
def parseMemory (text : Text) : Except PyError (Option ℤ) :=
  match memoryParts text with
  | none => .ok none
  | some (amount, unit) => (amount.mul (.finite unit)).toInt.map some

structure SandboxLimits where
  maxMemory : Text
  maxCpus : Binary64

/-- `SANDBOX_MAX_MEMORY` and `SANDBOX_MAX_CPUS`. -/
structure Environ where
  maxMemory : Option Text
  maxCpus : Option Text

namespace SandboxLimits

/-- `from_env`. -/
def fromEnv (environ : Environ) : Except PyError SandboxLimits := do
  let maxMemory := environ.maxMemory.getD defaultMaxMemory
  let maxMemory := match ← parseMemory maxMemory with
    | none => defaultMaxMemory
    | some _ => maxMemory
  let maxCpus := match environ.maxCpus with
    | none => defaultMaxCpus
    | some raw => (readFloat raw).getD defaultMaxCpus
  return { maxMemory, maxCpus }

/-- `limit_bytes`. -/
def limitBytes (limits : SandboxLimits) : Except PyError (Option ℤ) := do
  match ← parseMemory limits.maxMemory with
  | some bytes => if bytes ≠ 0 then return some bytes else parseMemory defaultMaxMemory
  | none => parseMemory defaultMaxMemory

def clampMemory (limits : SandboxLimits) (requested : Text) : Except PyError Text := do
  let requestedBytes ← parseMemory requested
  let limit ← limits.limitBytes
  match requestedBytes, limit with
  | none, _ => return limits.maxMemory
  | some bytes, some limit => return if limit < bytes then limits.maxMemory else requested
  | some _, none => return requested

def clampCpus (limits : SandboxLimits) (requested : Binary64) : Binary64 :=
  if limits.maxCpus.lt requested then limits.maxCpus else requested

end SandboxLimits

/-- A script is none where it is null. -/
structure CheckPlan where
  image : Json
  tool : Json
  memory : Text
  cpus : Binary64
  timeout : ℤ
  minPassScore : ℤ
  validateCommand : Json
  commonCheck : Json
  variantCheck : Json
  variant : Option Text

/-- `CheckPlan | ConfigError`. -/
inductive Resolution
  | plan (plan : CheckPlan)
  | configError (reason : String)

def notConfigured : String := "Assignment is not configured in plugin. Contact your teacher."

def variantNotAssigned : String :=
  "Your variant has not been assigned yet. Contact your teacher to have your variant set."

def noCheckCommand : String := "No check_command configured for this assignment. Contact your teacher."

/-- `code in container`. -/
def contains (code : Text) : Json → Except PyError Bool
  | .obj fields => .ok (fields.lookup code).isSome
  | .arr items => .ok (items.any (Json.eq (.str code)))
  | .str text => .ok (decide (code <:+: text))
  | _ => .error .type

/-- `container[code]`. -/
def item (code : Text) : Json → Except PyError Json
  | .obj fields => match fields.lookup code with
    | some value => .ok value
    | none => .error .value
  | _ => .error .type

/-- A variant that is named, as `if variant` has it. -/
def named : Option Text → Option Text
  | none => none
  | some variant => if variant.isEmpty then none else some variant

/-- `plugin_assignment.get("variants", {}).get(str(variant), {}) if variant else {}`. -/
def variantEntry (plugin : Json) (variant : Option Text) : Except PyError Json :=
  match named variant with
  | none => .ok (.obj [])
  | some name => do
    let variants ← plugin.get "variants" (.obj [])
    variants.getText name (.obj [])

/-- The sandbox block and the scripts. -/
structure Commands where
  sandbox : Json
  validate : Json
  common : Json
  variant : Json

/-- `own.get(key) or shared.get(key)`. -/
def ownOrShared (own shared : Json) (key : String) : Except PyError Json := do
  let value ← own.get key .null
  if value.truthy then return value else shared.get key .null

/-- The common/variants structure. -/
def commonCommands (plugin common : Json) (variant : Option Text) : Except PyError Commands := do
  let sandbox ← common.get "sandbox" (.obj [])
  let entry ← variantEntry plugin variant
  let variantSandbox ← entry.get "sandbox" (.obj [])
  let validate ← ownOrShared variantSandbox sandbox "validate_command"
  let common ← sandbox.get "check_command" .null
  let variant ← variantSandbox.get "check_command" .null
  return { sandbox, validate, common, variant }

/-- The flat structure. -/
def flatCommands (plugin : Json) (variant : Option Text) : Except PyError Commands := do
  let sandbox ← plugin.get "sandbox" (.obj [])
  let overrides ← variantEntry plugin variant
  let validate ← ownOrShared overrides sandbox "validate_command"
  let variant ← ownOrShared overrides sandbox "check_command"
  return { sandbox, validate, common := .null, variant }

def commands (plugin : Json) (variant : Option Text) : Except PyError Commands := do
  let common ← plugin.get "common" (.obj [])
  if common.truthy then commonCommands plugin common variant else flatCommands plugin variant

/-- A variant's check that is the common one is dropped. -/
def Commands.distinct (c : Commands) : Commands :=
  if c.common.truthy && c.variant.truthy && c.common.eq c.variant then { c with variant := .null } else c

section

variable (repr : Json → Option Text)

/-- `str(value)`; `repr` is of a float, a list or a dictionary, none where it raises. -/
def str : Json → Except PyError Text
  | .null => .ok (codes "None")
  | .bool b => .ok (codes (if b then "True" else "False"))
  | .str text => .ok text
  | .int n => match PyText.str n with
    | some text => .ok (codes text)
    | none => .error .value
  | value => match repr value with
    | some text => .ok text
    | none => .error .value

/-- The plan itself. -/
def buildPlan (bounds : SandboxLimits) (c : Commands) (variant : Option Text) : Except PyError CheckPlan := do
  let image ← c.sandbox.get "image" defaultImage
  let tool ← c.sandbox.get "tool" defaultTool
  let memory ← str repr (← c.sandbox.get "memory" defaultMemory)
  let memory ← bounds.clampMemory memory
  let cpus ← (← c.sandbox.get "cpus" defaultCpus).toFloat
  let timeout ← (← c.sandbox.get "timeout_seconds" defaultTimeout).toInt
  let minPassScore ← (← c.sandbox.get "min_pass_score" defaultMinPass).toInt
  return {
    image, tool, memory, timeout, minPassScore
    cpus := bounds.clampCpus cpus
    validateCommand := c.validate
    commonCheck := c.common
    variantCheck := c.variant
    variant := named variant }

/-- What is made of the entry of an assignment. -/
def resolveEntry (bounds : SandboxLimits) (plugin : Json) (variant : Option Text) : Except PyError Resolution := do
  let c ← commands plugin variant
  let c := c.distinct
  let required ← plugin.get "variants_required" .null
  if required.truthy && (named variant).isNone then return .configError variantNotAssigned
  if !c.common.truthy && !c.variant.truthy then return .configError noCheckCommand
  let plan ← buildPlan repr bounds c variant
  return .plan plan

def boundsOf (environ : Environ) : Option SandboxLimits → Except PyError SandboxLimits
  | some limits => .ok limits
  | none => SandboxLimits.fromEnv environ

/-- `resolve_check_plan`. -/
def resolveCheckPlan (environ : Environ) (config : List (Text × Json)) (assignmentCode : Text) (variant : Option Text)
    (limits : Option SandboxLimits) : Except PyError Resolution := do
  let bounds ← boundsOf environ limits
  let _ ← str repr ((Json.field config "subjectCode").getD (.str (codes "unknown")))
  let assignments := (Json.field config "assignments").getD (.obj [])
  if assignmentCode.isEmpty then return .configError notConfigured
  if ← contains assignmentCode assignments then
    let plugin ← item assignmentCode assignments
    resolveEntry repr bounds plugin variant
  else return .configError notConfigured

end

/-- What `_validate_check_commands` of `services/config_apply.py` raises. -/
inductive CommandsError
  | attribute
  | sameCommand (code variant : Text)

/-- `x or {}`. -/
def orEmpty (value : Json) : Json := if value.truthy then value else .obj []

/-- `(value or {}).get(key)`. -/
def getOr (value : Json) (key : String) : Except CommandsError Json :=
  match orEmpty value with
  | .obj fields => .ok ((Json.field fields key).getD .null)
  | _ => .error .attribute

/-- `(value or {}).items()`. -/
def itemsOr (value : Json) : Except CommandsError (List (Text × Json)) :=
  match orEmpty value with
  | .obj fields => .ok fields
  | _ => .error .attribute

def validateVariant (code : Text) (command : Json) (entry : Text × Json) : Except CommandsError Unit := do
  let own ← getOr (← getOr entry.2 "sandbox") "check_command"
  if own.truthy && own.eq command then throw (.sameCommand code entry.1)

def validateAssignment (entry : Text × Json) : Except CommandsError Unit := do
  let common ← getOr entry.2 "common"
  let command ← getOr (← getOr common "sandbox") "check_command"
  if command.truthy then
    let variants ← itemsOr (← getOr entry.2 "variants")
    variants.forM (validateVariant entry.1 command)

/-- `_validate_check_commands`. -/
def validateCheckCommands (config : List (Text × Json)) : Except CommandsError Unit := do
  let assignments ← itemsOr ((Json.field config "assignments").getD .null)
  assignments.forM validateAssignment

end CheckCore

end SubmissionsChecker
