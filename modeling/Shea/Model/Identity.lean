import Shea.Model.World

/-!
# Target identity and scope

What the supervisor checks about a contract's target before there is a receipt, and once more
before the adapter is invoked: `app/identity/resolver.py`, `app/identity/revalidator.py` and
`app/scope_enforce.py`. All of it looks at the machine only through `Probes`.
-/

set_option autoImplicit false

namespace Shea.Model

/-! ## Resolution -/

namespace IdentityResolver

def resolvePath (probes : Probes) (target : RequestedTarget) : Except Err ResolvedIdentity := do
  let expanded := probes.expanduser target.value
  let canonical ← probes.resolve expanded
  pure { kind := .path
         canonicalValue := canonical
         requestedValue := target.value
         attributes := [("expanded", .str expanded)] }

def resolveHost (py : Stdlib) (target : RequestedTarget) : Except Err ResolvedIdentity :=
  let host := py.lower (String.ofList (strip target.value.toList))
  if host = "" then .error (.contractValidation "empty host target")
  else .ok { kind := .host, canonicalValue := host, requestedValue := target.value }

def resolveUrl (py : Stdlib) (target : RequestedTarget) : Except Err ResolvedIdentity :=
  match py.urlparse target.value with
  | none => .error (.valueError "Invalid IPv6 URL")
  | some (scheme, host) =>
    if scheme = "" ∨ host = "" then
      .error (.contractValidation ("invalid URL target: " ++ py.reprOf (.str target.value)))
    else
      .ok { kind := .url
            canonicalValue := target.value
            requestedValue := target.value
            attributes := [("scheme", .str (py.lower scheme)), ("host", .str (py.lower host))] }

def resolve (py : Stdlib) (probes : Probes) (target : RequestedTarget)
    (requirements : IdentityRequirements) : Except Err ResolvedIdentity :=
  if target.kind ∉ requirements.allowedKinds then
    .error (.contractValidation
      ("target kind " ++ target.kind.value ++ " not allowed by identity requirements"))
  else match target.kind with
    | .path => resolvePath probes target
    | .host => resolveHost py target
    | .url => resolveUrl py target
    | kind =>
      .ok { kind := kind
            canonicalValue := target.value
            requestedValue := target.value
            attributes := target.attributes }

end IdentityResolver

/-! ## Verification and revalidation -/

def IdentityAssurance.value : IdentityAssurance → String
  | basic => "BASIC"
  | strict => "STRICT"
  | integrity => "INTEGRITY"
  | highAssurance => "HIGH_ASSURANCE"

def IdentityAssurance.lowerValue : IdentityAssurance → String
  | basic => "basic"
  | strict => "strict"
  | integrity => "integrity"
  | highAssurance => "high_assurance"

namespace IdentityRevalidator

/-- `path.exists() and path.is_symlink()`. -/
def isLink (probes : Probes) (path : String) : Except Err Bool := do
  if ← probes.pathExists path then probes.isSymlink path else pure false

/-- The symlink check of the two highest assurances. -/
def rejectSymlink (probes : Probes) (path : String) (assurance : IdentityAssurance) :
    Except Err Unit :=
  if assurance = .integrity ∨ assurance = .highAssurance then do
    if ← isLink probes path then
      throw (.contractValidation ("symlink target rejected at " ++ assurance.value ++ ": " ++ path))
  else pure ()

def verifyPath (py : Stdlib) (probes : Probes) (resolved : ResolvedIdentity)
    (assurance : IdentityAssurance) (phase : String) : Except Err VerifiedIdentity := do
  let path := py.pathText resolved.canonicalValue
  if assurance = .basic then
    return { identity := resolved
             assurance := assurance
             verified := true
             method := phase ++ ":path_canonical"
             detail := path }
  -- the target itself may be created later, its parent not
  let parent := probes.parent path
  if !(← probes.pathExists parent) then
    throw (.contractValidation ("path parent does not exist for STRICT+ identity: " ++ parent))
  rejectSymlink probes path assurance
  let detail ← if ← probes.pathExists path then probes.resolve path else pure path
  return { identity := resolved
           assurance := assurance
           verified := true
           method := phase ++ ":path_" ++ assurance.lowerValue
           detail := detail }

def verifyProcess (resolved : ResolvedIdentity) (assurance : IdentityAssurance) (phase : String) :
    Except Err VerifiedIdentity :=
  if assurance ≠ .basic ∧ !resolved.attributes.has "executable" then
    .error (.contractValidation "process identity requires executable attribute at STRICT+")
  else
    .ok { identity := resolved
          assurance := assurance
          verified := true
          method := phase ++ ":process_attrs"
          detail := "process identity attributes present" }

def verify (py : Stdlib) (probes : Probes) (resolved : ResolvedIdentity)
    (requirements : IdentityRequirements) (phase : String) : Except Err VerifiedIdentity :=
  match resolved.kind with
  | .path => verifyPath py probes resolved requirements.assurance phase
  | .process => verifyProcess resolved requirements.assurance phase
  | _ =>
    .ok { identity := resolved
          assurance := requirements.assurance
          verified := true
          method := phase ++ ":literal"
          detail := "literal identity accepted at BASIC+" }

end IdentityRevalidator

/-! ## Scope -/

/-- A control that is enforced when the scope asks for it. -/
def enforcedWhen (requested : Bool) : EnforcementStatus :=
  if requested then .enforced else .notRequested

/-- A control that version 1 cannot enforce. -/
def unsupportedWhen (requested : Bool) : EnforcementStatus :=
  if requested then .unsupported else .notRequested

/-- The report of `evaluate_scope`, control by control. -/
def scopeReport (scope : ExecutionScope) : ScopeEnforcementReport :=
  { scopeId := scope.scopeId
    limits := [
      ("wall_time_ms", enforcedWhen scope.resources.wallTimeMs.isSome),
      ("output_bytes", enforcedWhen scope.resources.outputBytes.isSome),
      ("memory_bytes", unsupportedWhen scope.resources.memoryBytes.isSome)]
    isolation := [
      ("cgroup", unsupportedWhen scope.isolation.requireCgroup),
      ("new_session", enforcedWhen scope.isolation.requireNewSession)]
    filesystem := [
      ("allowed_roots", enforcedWhen !scope.filesystem.allowedRoots.isEmpty),
      ("read_only", enforcedWhen scope.filesystem.readOnly),
      ("write_only", enforcedWhen scope.filesystem.writeOnly)]
    network := [
      ("allowed_hosts", enforcedWhen scope.network.allowedHosts.isSome),
      ("block_private", enforcedWhen scope.network.blockPrivate)]
    application := [
      ("allowed_executables", enforcedWhen !scope.application.allowedExecutables.isEmpty),
      ("allowed_desktop_ids", enforcedWhen !scope.application.allowedDesktopIds.isEmpty),
      ("allowed_mac_ids", enforcedWhen
        (!scope.application.allowedBundleIds.isEmpty || !scope.application.allowedAppNames.isEmpty)),
      ("allow_xdg_open", enforcedWhen scope.application.allowXdgOpen),
      ("allow_terminate", enforcedWhen scope.application.allowTerminate)]
    process := [("allowed_executables", enforcedWhen !scope.process.allowedExecutables.isEmpty)]
    acceptable := true
    detail := "ok" }

/-- The application allowlists name something. -/
def ApplicationScope.hasAny (app : ApplicationScope) : Bool :=
  !app.allowedExecutables.isEmpty || !app.allowedDesktopIds.isEmpty ||
    !app.allowedBundleIds.isEmpty || !app.allowedAppNames.isEmpty || app.allowXdgOpen

/-- The required controls that are unsupported or missing, in the order they are found. -/
def requiredUnsupported (scope : ExecutionScope) (op cap : String) : List String :=
  (if scope.resources.memoryBytes.isSome then ["memory_bytes"] else []) ++
  (if scope.isolation.requireCgroup then ["cgroup"] else []) ++
  (if (startsWith op "filesystem." || cap ∈ ["filesystem.read", "filesystem.write"]) &&
      scope.filesystem.allowedRoots.isEmpty then ["filesystem.allowed_roots"] else []) ++
  (if (startsWith op "network." || startsWith op "browser." ||
      cap ∈ ["network.connect", "network.request", "browser.navigate", "browser.read"]) &&
      (!scope.network.blockPrivate && scope.network.allowedHosts.isNone)
    then ["network.block_private_or_allowed_hosts"] else []) ++
  (if startsWith op "application." || startsWith cap "application." then
    (if (op ∈ ["application.launch", "application.activate"] ||
        cap ∈ ["application.launch", "application.activate"]) && !scope.application.hasAny
      then ["application.allowlist"] else []) ++
    (if (op = "application.terminate" || cap = "application.terminate") &&
        !scope.application.allowTerminate then ["application.allow_terminate"] else [])
  else []) ++
  (if (startsWith op "process." || cap ∈ ["process.execute", "process.spawn"]) &&
      scope.process.allowedExecutables.isEmpty then ["process.allowed_executables"] else [])

/-- `evaluate_scope`: a required control that cannot be honoured fails closed. -/
def evaluateScope (py : Stdlib) (scope : ExecutionScope) (contract : ExecutionContract) :
    Except Err ScopeEnforcementReport :=
  let missing := requiredUnsupported scope contract.operation contract.capability
  if missing.isEmpty then .ok (scopeReport scope)
  else .error (.contractValidation
    ("scope cannot be enforced: unsupported or missing required controls: " ++
      py.reprOf (.list (missing.map .str))))

end Shea.Model
