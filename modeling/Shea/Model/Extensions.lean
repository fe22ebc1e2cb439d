import Shea.Model.JsonReader
import Shea.Model.Tools

/-!
# Extensions

`extensions/manifest.py`, `apply.py` and `loader.py`, with the tool registry of `security.py` and what the
parent does in `process_host.py`. The host process of an extension is known by its answers. Code that is
loaded into the process can do anything in Python; here it keeps to the tool registry of its proxy, and is
a tree of its calls there, which goes on as it likes with what they return or raise.
-/

set_option autoImplicit false

namespace Shea.Model

/-- The interpreter the loader runs in. -/
structure ExtensionHost where
  py : Stdlib
  /-- `text.upper()`. -/
  upper : String → String
  /-- The float that a JSON number writes. -/
  floatOf : String → PyFloat
  /-- `str(exc)`. -/
  errText : Err → String := fun _ => ""

/-! ## The manifest -/

/-- `ExtensionTrustLevel`. -/
inductive ExtensionTrustLevel
  | untrusted
  | community
  | trusted
  | core
  deriving DecidableEq, Repr

def ExtensionTrustLevel.ofText (py : Stdlib) : String → Except Err ExtensionTrustLevel
  | "UNTRUSTED" => .ok .untrusted
  | "COMMUNITY" => .ok .community
  | "TRUSTED" => .ok .trusted
  | "CORE" => .ok .core
  | text => .error (.valueError (py.reprOf (.str text) ++ " is not a valid ExtensionTrustLevel"))

/-- `IsolationMode`. -/
inductive IsolationMode
  | process
  | inprocess
  deriving DecidableEq, Repr

def IsolationMode.ofText (py : Stdlib) : String → Except Err IsolationMode
  | "process" => .ok .process
  | "inprocess" => .ok .inprocess
  | text => .error (.valueError (py.reprOf (.str text) ++ " is not a valid IsolationMode"))

/-- `ALLOWED_PERMISSIONS`. -/
def allowedPermissions : List String := ["tools.register", "events.publish", "events.subscribe"]

/-- `ExtensionManifest`. -/
structure ExtensionManifest where
  id : String
  name : String
  version : String
  author : String := ""
  apiVersion : String := "1"
  trustLevel : ExtensionTrustLevel := .untrusted
  isolation : IsolationMode := .process
  permissions : List String := []
  capabilities : List String := []
  dependencies : List String := []
  entrypoint : String := "plugin:Plugin"
  signature : Option String := none
  signatureAlgorithm : String := "sha256-manifest"
  deriving DecidableEq, Repr

/-- `list(value)`. -/
def iterate : Value → Except Err (List Value)
  | .list items => .ok items
  | .str text => .ok (text.toList.map fun c => .str (String.ofList [c]))
  | .dict entries => .ok (entries.map fun entry => .str entry.1)
  | _ => .error (.typeError "object is not iterable")

/-- `str(x) for x in data.get(key) or []`. -/
def textsOf (py : Stdlib) (data : Dict) (key : String) : Except Err (List String) :=
  (iterate ((data.get key).orElse (.list []))).map fun values => values.map (pyStr py)

/-- `str(data.get(key, default))`. -/
def textOr (py : Stdlib) (data : Dict) (key default : String) : String :=
  pyStr py ((data.lookup key).getD (.str default))

/-- `str(data["signature"]) if data.get("signature") else None`. -/
def signatureOf (py : Stdlib) (data : Dict) : Option String :=
  if (data.get "signature").truthy then some (pyStr py (data.get "signature")) else none

namespace ExtensionManifest

def fromDict (host : ExtensionHost) (data : Dict) : Except Err ExtensionManifest := do
  let permissions ← textsOf host.py data "permissions"
  let unknown := permissions.dedup.filter (· ∉ allowedPermissions)
  if !unknown.isEmpty then
    throw (.valueError ("unknown permissions: " ++
      host.py.reprOf (.list ((sortedTexts unknown).map .str))))
  let trustLevel ← ExtensionTrustLevel.ofText host.py
    (host.upper (textOr host.py data "trust_level" "UNTRUSTED"))
  let isolation ← IsolationMode.ofText host.py
    (host.py.lower (textOr host.py data "isolation" "process"))
  if isolation = .inprocess ∧ trustLevel ≠ .trusted ∧ trustLevel ≠ .core then
    throw (.valueError "inprocess isolation requires trust_level TRUSTED or CORE")
  let id ← ToolExecutorAdapter.item data "id"
  let capabilities ← textsOf host.py data "capabilities"
  let dependencies ← textsOf host.py data "dependencies"
  pure { id := pyStr host.py id
         name := pyStr host.py ((data.get "name").orElse id)
         version := textOr host.py data "version" "0.0.0"
         author := textOr host.py data "author" ""
         apiVersion := textOr host.py data "api_version" "1"
         trustLevel := trustLevel
         isolation := isolation
         permissions := permissions.dedup
         capabilities := capabilities.dedup
         dependencies := dependencies
         entrypoint := textOr host.py data "entrypoint" "plugin:Plugin"
         signature := signatureOf host.py data
         signatureAlgorithm := textOr host.py data "signature_algorithm" "sha256-manifest" }

end ExtensionManifest

/-- The entries of a manifest that are signed. -/
def signedBody (data : Dict) : Dict :=
  data.filter fun entry => entry.1 ∉ ["signature", "signature_algorithm"]

/-- `canonical_manifest_bytes`, before they are encoded. -/
def canonicalManifestBytes (py : Stdlib) (data : Dict) : String :=
  dumps py .compact (.dict (signedBody data))

/-- `json.loads(path.read_text())`, which has to be an object. -/
def readManifest (host : ExtensionHost) (text : Except Err String) : Except Err Dict := do
  match jsonLoads host.floatOf (← text) with
  | none => throw (.other "JSONDecodeError" "no JSON value")
  | some (.dict data) => pure data
  | some _ => throw (.valueError "manifest must be a JSON object")

/-- The check of the signature. -/
def checkSignature (host : ExtensionHost) (path : String) (requireSignature : Bool) (data : Dict)
    (manifest : ExtensionManifest) : Except Err Unit :=
  match manifest.signature with
  | none =>
    if requireSignature ∨ manifest.trustLevel ≠ .untrusted then
      .error (.valueError ("manifest " ++ path ++ " missing signature"))
    else .ok ()
  | some signature =>
    if manifest.signatureAlgorithm ≠ "sha256-manifest" then
      .error (.valueError ("unsupported signature_algorithm: " ++ manifest.signatureAlgorithm))
    else if host.py.lower signature ≠ host.py.lower (host.py.sha256 (canonicalManifestBytes host.py data)) then
      .error (.valueError ("manifest signature mismatch for " ++ path))
    else .ok ()

def verifyManifestSignature (host : ExtensionHost) (path : String) (text : Except Err String)
    (requireSignature : Bool) : Except Err ExtensionManifest := do
  let data ← readManifest host text
  let manifest ← ExtensionManifest.fromDict host data
  checkSignature host path requireSignature data manifest
  pure manifest

/-! ## The host process -/

/-- What the host process of an extension answers. -/
structure ChildProcess where
  configure : Except Err Dict
  registerDeclare : Except Err Dict
  invokeTool : (tool action : String) → (arguments : Dict) → ℕ → Except Err Dict

/-- `ProcessExtensionHandle`. -/
structure ProcessExtensionHandle where
  manifest : ExtensionManifest
  child : ChildProcess
  declarations : List Value

/-- `spawn_extension_host`, for a process that was started. -/
def spawnExtensionHost (manifest : ExtensionManifest) (child : ChildProcess) :
    Except Err ProcessExtensionHandle := do
  if manifest.isolation ≠ .process then
    throw (.valueError "spawn_extension_host requires isolation=process")
  let _ ← child.configure
  let result ← child.registerDeclare
  let declarations ← iterate ((result.get "declarations").orElse (.list []))
  pure { manifest := manifest, child := child, declarations := declarations }

/-- `ProcessExtensionHandle.invoke_tool`. -/
def ProcessExtensionHandle.invokeTool (handle : ProcessExtensionHandle) (tool action : String)
    (arguments : Dict) (instant : ℕ) : Except Err Value :=
  (handle.child.invokeTool tool action arguments instant).map (·.get "output")

/-- The handler that `apply_declarations` makes. -/
def makeHandler (host : ExtensionHost) (toolName : String) (handle : ProcessExtensionHandle) :
    ToolHandler := fun request instant =>
  match handle.invokeTool toolName request.action request.arguments instant with
  | .ok out => .ok { success := true, data := out }
  | .error e =>
    if e.isException then .ok { success := false, error := some (host.errText e) } else .error e

/-- The capabilities of a declared tool: those the manifest names, if it names any. -/
def grantedCapabilities (manifest : ExtensionManifest) (declared : List String) : List String :=
  let capabilities :=
    if manifest.capabilities.isEmpty then declared.dedup
    else declared.dedup.filter (· ∈ manifest.capabilities)
  if capabilities.isEmpty then ["extension." ++ manifest.id] else capabilities

/-- The tool that a declaration asks for. -/
def declaredTool (host : ExtensionHost) (handle : ProcessExtensionHandle) (declaration : Dict) :
    Except Err (ToolDeclaration × ToolHandler) := do
  if "tools.register" ∉ handle.manifest.permissions then
    throw (.other "PermissionError" "tools.register not permitted")
  let name ← ToolExecutorAdapter.textItem host.py declaration "name"
  let declared ← textsOf host.py declaration "capabilities"
  pure ({ name := name
          capabilities := grantedCapabilities handle.manifest declared
          description := textOr host.py declaration "description" ("extension:" ++ handle.manifest.id) },
        makeHandler host name handle)

/-- `apply_declarations`; what is registered before an exception stays. -/
def applyDeclarations (host : ExtensionHost) (handle : ProcessExtensionHandle) :
    List Value → ToolRegistry → Except Err Unit × ToolRegistry
  | [], registry => (.ok (), registry)
  | .dict declaration :: rest, registry =>
    if Dict.get declaration "kind" ≠ .str "tool" then applyDeclarations host handle rest registry
    else match declaredTool host handle declaration with
      | .error e => (.error e, registry)
      | .ok (tool, handler) =>
        match registry.register host.py tool handler with
        | .error e => (.error e, registry)
        | .ok registered => applyDeclarations host handle rest registered
  | _ :: _, registry => (.error (.other "AttributeError" "object has no attribute 'get'"), registry)

/-! ## Code in the process -/

/-- The code of an extension, by its calls of `proxy.tool_registry`; `find` is `get_declaration` or
`get_handler`, which raise `ToolNotFoundError` where there is no tool. -/
inductive PluginCode
  | done
  | raise (error : Err)
  | register (declaration : ToolDeclaration) (handler : ToolHandler) (next : Except Err Unit → PluginCode)
  | find (name : String) (next : Option (ToolDeclaration × ToolHandler) → PluginCode)
  | listTools (next : List ToolDeclaration → PluginCode)

/-- `RestrictedToolRegistry`, but for the registry behind it. -/
structure RestrictedToolRegistry where
  pluginName : String
  allowed : Bool

def RestrictedToolRegistry.register (restricted : RestrictedToolRegistry) (py : Stdlib)
    (original : ToolRegistry) (declaration : ToolDeclaration) (handler : ToolHandler) :
    Except Err ToolRegistry :=
  if !restricted.allowed then
    .error (.securityViolation "core" "extensions"
      ("Plugin '" ++ restricted.pluginName ++ "' is not allowed to register tools."))
  else original.register py declaration handler

/-- The registry of `RestrictedRuntimeProxy`. -/
def RestrictedToolRegistry.ofManifest (manifest : ExtensionManifest) : RestrictedToolRegistry :=
  { pluginName := manifest.name, allowed := manifest.permissions.contains "tools.register" }

/-- The code runs, from a registry on. -/
def PluginCode.run (restricted : RestrictedToolRegistry) (py : Stdlib) :
    PluginCode → ToolRegistry → Except Err Unit × ToolRegistry
  | .done, registry => (.ok (), registry)
  | .raise error, registry => (.error error, registry)
  | .register declaration handler next, registry =>
    match restricted.register py registry declaration handler with
    | .error e => (next (.error e)).run restricted py registry
    | .ok registered => (next (.ok ())).run restricted py registered
  | .find name next, registry => (next (registry.find name)).run restricted py registry
  | .listTools next, registry => (next (registry.tools.map Prod.fst)).run restricted py registry

/-! ## The loader -/

/-- An entry of the plugin directory. -/
structure PluginEntry where
  name : String
  /-- The text of its `manifest.json`, if it is a directory with one. -/
  manifest : Option (Except Err String)
  child : ChildProcess
  code : PluginCode

structure PluginLoader where
  requireSignature : Bool := false
  allowInprocess : Bool := false

/-- The registry, `_handles` and the result of `load_plugins`; an in-process extension is known by its
manifest. -/
structure Loading where
  registry : ToolRegistry
  handles : List ProcessExtensionHandle := []
  loaded : List ExtensionManifest := []
  /-- What the loop was left with: no `Exception`. -/
  interrupt : Option Err := none

/-- An `Exception` is logged; anything else leaves the loop. -/
def Loading.logged (state : Loading) (error : Err) : Loading :=
  if error.isException then state else { state with interrupt := some error }

namespace PluginLoader

variable (loader : PluginLoader) (host : ExtensionHost)

/-- The end of a `try`: the extension is loaded, or what it raised is logged. -/
def settle (manifest : ExtensionManifest) (state : Loading) : Except Err Unit → Loading
  | .ok _ => { state with loaded := state.loaded ++ [manifest] }
  | .error e => state.logged e

/-- What is done with a manifest that was not rejected. -/
def load (entry : PluginEntry) (manifest : ExtensionManifest) (state : Loading) : Loading :=
  match manifest.isolation with
  | .process =>
    match spawnExtensionHost manifest entry.child with
    | .error e => state.logged e
    | .ok handle =>
      let applied := applyDeclarations host handle handle.declarations state.registry
      settle manifest { state with registry := applied.2, handles := state.handles ++ [handle] } applied.1
  | .inprocess =>
    if !loader.allowInprocess then state
    else
      let ran := entry.code.run (.ofManifest manifest) host.py state.registry
      settle manifest { state with registry := ran.2 } ran.1

/-- What is done with a manifest, which is verified first. -/
def verifyAndLoad (state : Loading) (entry : PluginEntry) (text : Except Err String) : Loading :=
  match verifyManifestSignature host entry.name text loader.requireSignature with
  | .error e => state.logged e
  | .ok manifest => loader.load host entry manifest state

/-- One round of the loop, unless it was left. -/
def loadEntry (state : Loading) (entry : PluginEntry) : Loading :=
  if state.interrupt.isSome || startsWith entry.name "." then state
  else match entry.manifest with
    | none => state
    | some text => loader.verifyAndLoad host state entry text

/-- `load_plugins`, for a directory that is there. -/
def loadPlugins (entries : List PluginEntry) (registry : ToolRegistry) : Loading :=
  (entries.insertionSort fun a b => a.name ≤ b.name).foldl (loader.loadEntry host) { registry := registry }

end PluginLoader

end Shea.Model
