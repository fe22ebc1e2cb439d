import Mathlib.Data.List.AList
import Shea.Model.Values

/-!
# Layered configuration

`config/layers.py`, `config/invariants.py`, `config/schema.py` and `config/resolver.py`.

A layer is a finite map; no result depends on the order of its entries. Reading the files of
`build_default_resolver` is left to its caller: a file is what `json.load` made of it, or nothing.
-/

set_option autoImplicit false

namespace Shea.Model

/-! ## Layers -/

inductive ConfigLayer
  | system
  | machine
  | user
  | profile
  | project
  | session
  deriving DecidableEq, Repr

/-- `LAYER_PRECEDENCE`, the most specific layer first. -/
def layerPrecedence : List ConfigLayer := [.session, .project, .profile, .user, .machine, .system]

/-- The values of a layer. -/
abbrev Settings := AList fun _ : String => Value

/-- `DEFAULT_SECURITY_INVARIANT_KEYS`. -/
def defaultSecurityInvariantKeys : List String := [
  "allow_unsigned_plugins", "sandbox_required", "external_content_can_authorize",
  "max_tool_privilege_level"]

/-! ## The resolver -/

structure ConfigResolver where
  layers : AList fun _ : ConfigLayer => Settings := ∅
  securityInvariantKeys : List String := defaultSecurityInvariantKeys

namespace ConfigResolver

/-- `self.layers.get(layer, {})`. -/
def layer (resolver : ConfigResolver) (layer : ConfigLayer) : Settings :=
  (resolver.layers.lookup layer).getD ∅

/-- The first layer of the list that defines the key. -/
def walk (resolver : ConfigResolver) (key : String) (default : Value) : List ConfigLayer → Value
  | [] => default
  | layer :: rest =>
    match (resolver.layer layer).lookup key with
    | some value => value
    | none => walk resolver key default rest

def resolve (resolver : ConfigResolver) (key : String) (default : Value := .none) : Value :=
  if key ∈ resolver.securityInvariantKeys then
    ((resolver.layer .system).lookup key).getD default
  else resolver.walk key default layerPrecedence

/-- `result.update(self.layers.get(layer, {}))`, layer after layer. -/
def updateAll (resolver : ConfigResolver) (result : Settings) : List ConfigLayer → Settings
  | [] => result
  | layer :: rest => updateAll resolver (resolver.layer layer ∪ result) rest

/-- The loop over the invariant keys: a key gets its value in the system layer or is taken out. -/
def forceInvariants (systemValues : Settings) (result : Settings) : List String → Settings
  | [] => result
  | key :: rest =>
    forceInvariants systemValues
      (match systemValues.lookup key with
        | some value => result.insert key value
        | none => result.erase key) rest

def effectiveConfig (resolver : ConfigResolver) : Settings :=
  forceInvariants (resolver.layer .system) (resolver.updateAll ∅ layerPrecedence.reverse)
    resolver.securityInvariantKeys

def setLayerValue (resolver : ConfigResolver) (layer : ConfigLayer) (key : String) (value : Value) :
    ConfigResolver :=
  { resolver with layers := resolver.layers.insert layer ((resolver.layer layer).insert key value) }

/-- `resolver.layers[layer] = settings`. -/
def setLayer (resolver : ConfigResolver) (layer : ConfigLayer) (settings : Settings) :
    ConfigResolver :=
  { resolver with layers := resolver.layers.insert layer settings }

end ConfigResolver

/-! ## Building a resolver -/

/-- The types of `EXPECTED_SCHEMA`. -/
inductive ConfigType
  | int
  | bool
  | str
  deriving DecidableEq, Repr

/-- `EXPECTED_SCHEMA`. -/
def expectedSchema : List (String × ConfigType) := [
  ("_version", .int),
  ("allow_unsigned_plugins", .bool),
  ("sandbox_required", .bool),
  ("external_content_can_authorize", .bool),
  ("max_tool_privilege_level", .str)]

/-- `isinstance(value, expected)`; a `bool` is an `int` as well. -/
def ConfigType.accepts : ConfigType → Value → Bool
  | .int, .int _ => true
  | .int, .bool _ => true
  | .bool, .bool _ => true
  | .str, .str _ => true
  | _, _ => false

/-- The entries that have the expected type, or no expected type at all. -/
def validateConfig (data : Dict) : Settings :=
  ((data.filter fun (key, value) =>
    (expectedSchema.lookup key).all (·.accepts value)).map fun (key, value) => ⟨key, value⟩).toAList

/-- What `build_default_resolver` finds: the loaded files (`none` for a file that is missing or cannot
be read), whether the working directory is a trusted project, and the environment. -/
structure ConfigSources where
  machine : Option Dict := none
  user : Option Dict := none
  project : Option Dict := none
  projectTrusted : Bool := false
  environment : List (String × String) := []

/-- The variables that start with `SHEA_`, as text. -/
def environmentConfig (environment : List (String × String)) : Settings :=
  ((environment.filter fun (name, _) => startsWith name "SHEA_").map
    fun (name, text) => ⟨name, .str text⟩).toAList

/-- A layer that was loaded. -/
def ConfigResolver.load (resolver : ConfigResolver) (layer : ConfigLayer) : Option Dict →
    ConfigResolver
  | some data => resolver.setLayer layer (validateConfig data)
  | none => resolver

def buildDefaultResolver (sources : ConfigSources) : ConfigResolver :=
  let resolver := ((({} : ConfigResolver).load .machine sources.machine).load .user sources.user).load
    .project (if sources.projectTrusted then sources.project else none)
  let settings := environmentConfig sources.environment
  if settings.entries.isEmpty then resolver else resolver.setLayer .session settings

end Shea.Model
