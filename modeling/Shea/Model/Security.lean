import Shea.Model.Orchestrator

/-!
# The security plane

`security/binding.py`, `network_policy.py`, `filesystem_policy.py`, `gate.py`, `injection.py` and
`service.py`, and the permits of `execution/permit.py`.

A frozen set of texts is a list; nothing here depends on its order, except the order in which the
injection scanner reports the phrases it found.
-/

set_option autoImplicit false

namespace Shea.Model

open Shea.Computation

/-! ## Content hashes and permits -/

/-- `compute_hash` of a dictionary or a list. -/
def computeHash (py : Stdlib) (content : Value) : String := py.sha256 (dumps py .default content)

/-- What a step is hashed as. -/
def stepData (step : PlanStep) : Value :=
  .dict [("id", .str step.id), ("tool", .str step.tool), ("arguments", .dict step.arguments)]

def computePlanHash (py : Stdlib) (plan : Plan) : String :=
  computeHash py (.dict [
    ("id", .str plan.id), ("objective", .str plan.objective),
    ("steps", .list (plan.steps.map stepData))])

def computeStepHash (py : Stdlib) (step : PlanStep) : String := computeHash py (stepData step)

def computeArgumentsHash (py : Stdlib) (arguments : Dict) : String := computeHash py (.dict arguments)

structure ExecutionPermit where
  token : String
  tool : String
  action : String
  argumentsDigest : String
  capabilitiesDigest : String
  deriving DecidableEq, Repr

/-- The authority is its process-lifetime secret. -/
structure ExecutionPermitAuthority where
  secret : String

/-- `sorted(capabilities)`. -/
def sortedTexts (texts : List String) : List String := texts.insertionSort (· ≤ ·)

namespace ExecutionPermitAuthority

def digestArgs (py : Stdlib) (arguments : Dict) : String :=
  py.sha256 (dumps py .default (.dict arguments))

/-- The capabilities are joined by NUL characters. -/
def digestCaps (py : Stdlib) (capabilities : List String) : String :=
  py.sha256 (String.intercalate "\x00" (sortedTexts capabilities))

/-- `f"{tool}\0{action}\0{args_d}\0{caps_d}"`. -/
def message (tool action argsDigest capsDigest : String) : String :=
  tool ++ "\x00" ++ action ++ "\x00" ++ argsDigest ++ "\x00" ++ capsDigest

def mint (authority : ExecutionPermitAuthority) (py : Stdlib) (tool action : String)
    (arguments : Dict) (capabilities : List String) : ExecutionPermit :=
  let argsDigest := digestArgs py arguments
  let capsDigest := digestCaps py capabilities
  { token := py.hmacSha256 authority.secret (message tool action argsDigest capsDigest)
    tool := tool
    action := action
    argumentsDigest := argsDigest
    capabilitiesDigest := capsDigest }

/-- Only the token is compared. -/
def verify (authority : ExecutionPermitAuthority) (py : Stdlib) (permit : ExecutionPermit)
    (tool action : String) (arguments : Dict) (capabilities : List String) : Bool :=
  permit.token = (authority.mint py tool action arguments capabilities).token

end ExecutionPermitAuthority

/-! ## Network and filesystem policies -/

/-- `DEFAULT_BLOCKED_HOSTNAMES`. -/
def defaultBlockedHostnames : List String := ["localhost", "metadata.google.internal"]

structure NetworkPolicy where
  allowedHosts : Option (List String) := none
  blockedHostnames : List String := defaultBlockedHostnames
  blockPrivateNetworks : Bool := true
  deriving DecidableEq, Repr

/-- `_is_blocked_ip_literal`. -/
def isBlockedIpLiteral (py : Stdlib) (host : String) : Bool :=
  match py.ipAddress host with
  | none => false
  | some address =>
    address.isPrivate || address.isLoopback || address.isLinkLocal || address.isReserved ||
      address.isMulticast || address.isUnspecified

/-- `is_url_allowed` for the host of a URL. -/
def isHostAllowed (py : Stdlib) (policy : NetworkPolicy) (host : String) : Bool :=
  match policy.allowedHosts with
  | some hosts => host ∈ hosts
  | none =>
    if py.lower host ∈ policy.blockedHostnames then false
    else !(policy.blockPrivateNetworks && isBlockedIpLiteral py host)

def isUrlAllowed (py : Stdlib) (policy : NetworkPolicy) (url : String) : Except Err Bool :=
  match py.urlparse url with
  | none => .error (.valueError "Invalid IPv6 URL")
  | some (_, host) => .ok (host ≠ "" && isHostAllowed py policy host)

structure FilesystemPolicy where
  allowedRoots : List String
  deriving DecidableEq, Repr

/-- The components of a path that are left once `.` and `..` are resolved, newest first. -/
def normComponents (rooted : Bool) : List String → List String → List String
  | [], kept => kept
  | comp :: rest, kept =>
      if comp = "" ∨ comp = "." then normComponents rooted rest kept
      else if comp ≠ ".." then normComponents rooted rest (comp :: kept)
      else match kept with
        | [] => normComponents rooted rest (if rooted then [] else [comp])
        | last :: above =>
          normComponents rooted rest (if last = ".." then comp :: kept else above)

/-- How many slashes a normalized path starts with: exactly two are kept as they are. -/
def initialSlashes : List Char → ℕ
  | '/' :: '/' :: '/' :: _ => 1
  | '/' :: '/' :: _ => 2
  | '/' :: _ => 1
  | _ => 0

/-- `text.split("/")`, on the characters. -/
def splitSlash : List Char → List Char → List String
  | [], current => [String.ofList current.reverse]
  | c :: rest, current =>
      if c = '/' then String.ofList current.reverse :: splitSlash rest []
      else splitSlash rest (c :: current)

/-- `posixpath.normpath`. -/
def normpath (path : String) : String :=
  let slashes := initialSlashes path.toList
  let comps := (normComponents (0 < slashes) (splitSlash path.toList []) []).reverse
  let joined := String.ofList (List.replicate slashes '/') ++ String.intercalate "/" comps
  if joined = "" then "." else joined

def isPathAllowed (policy : FilesystemPolicy) (path : String) : Bool :=
  let normalized := normpath path
  startsWith normalized "/" && policy.allowedRoots.any fun root =>
    normalized = normpath root || startsWith normalized (normpath root ++ "/")

/-! ## The gate and what it scans -/

structure SecurityGate where
  networkPolicy : NetworkPolicy := {}
  filesystemPolicy : Option FilesystemPolicy := none
  deriving DecidableEq, Repr

namespace SecurityGate

def looksLikeUrl (value : String) : Bool := startsWith value "http://" || startsWith value "https://"

def looksLikeAbsolutePath (value : String) : Bool := startsWith value "/"

/-- The check of one text argument. -/
def checkText (gate : SecurityGate) (py : Stdlib) (tool key value : String) : Except Err Unit := do
  if looksLikeUrl value then
    if !(← isUrlAllowed py gate.networkPolicy value) then
      throw (.securityViolation tool "ssrf" ("argument " ++ py.reprOf (.str key) ++
        " targets a disallowed host: " ++ py.reprOf (.str value)))
  match gate.filesystemPolicy with
  | none => pure ()
  | some policy =>
    if looksLikeAbsolutePath value && !isPathAllowed policy value then
      throw (.securityViolation tool "path_traversal" ("argument " ++ py.reprOf (.str key) ++
        " is outside the allowed filesystem scope: " ++ py.reprOf (.str value)))

/-- Arguments that are not texts are not looked at. -/
def checkArguments (gate : SecurityGate) (py : Stdlib) (tool : String) : Dict → Except Err Unit
  | [] => .ok ()
  | (key, .str value) :: rest => do
      gate.checkText py tool key value
      gate.checkArguments py tool rest
  | _ :: rest => gate.checkArguments py tool rest

def checkRequest (gate : SecurityGate) (py : Stdlib) (request : ToolRequest) : Except Err Unit :=
  gate.checkArguments py request.tool request.arguments

end SecurityGate

/-- `DEFAULT_INJECTION_PHRASES`. -/
def defaultInjectionPhrases : List String := [
  "ignore previous instructions", "ignore your instructions", "ignore the above",
  "disregard previous instructions", "disregard the above", "you are now", "new instructions:",
  "system prompt:", "reveal your instructions"]

structure InjectionScanResult where
  reason : String
  flagged : Bool
  matchedPhrases : List String := []
  deriving DecidableEq, Repr

/-- `PromptInjectionDetector.scan`. -/
def scanText (py : Stdlib) (phrases : List String) (text : String) : InjectionScanResult :=
  let matched := phrases.filter (containsText (py.lower text))
  { flagged := !matched.isEmpty
    matchedPhrases := matched
    reason := if matched.isEmpty then "" else "Matched injection phrase(s)." }

/-! ## The service -/

structure SecurityService where
  gate : SecurityGate := {}
  phrases : List String := defaultInjectionPhrases
  haltOnInjection : Bool := false

namespace SecurityService

/-- The audit entries of the service. -/
def entry (component eventType action result : String) (task : Task) (metadata : Dict) :
    AuditEntry :=
  { actor := "security_service"
    component := component
    eventType := eventType
    action := action
    result := result
    requestId := some task.requestId
    taskId := some task.id
    metadata := metadata }

/-- The violation and the halt, in one transaction. -/
def haltTask (host : Host) (task : Task) (tool category reason : String) : Proc Unit := withUow do
  audit host (entry "security.gate" "security.violation" "enforce" "blocked" task
    [("tool", .str tool), ("category", .str category), ("reason", .str reason),
      ("severity", .str "HIGH")])
  let _ ← Orchestrator.advance host task.id "security_halt"

/-- The `except SecurityViolationError` branch: halt the task, publish, raise again. -/
def reportViolation (host : Host) (task : Task) (request : ToolRequest)
    (tool category reason : String) : Proc Unit := do
  haltTask host task request.tool category reason
  emit host "security_service" "security.violation"
    [("task_id", .str task.id), ("tool", .str request.tool), ("category", .str category),
      ("reason", .str reason)] (some task.requestId)
  throw (.securityViolation tool category reason)

/-- The cleared branch. -/
def reportCleared (host : Host) (task : Task) (request : ToolRequest) : Proc Unit := do
  audit host (entry "security.gate" "security.request_cleared" "enforce" "allowed" task
    [("tool", .str request.tool)])
  emit host "security_service" "security.request_cleared"
    [("task_id", .str task.id), ("tool", .str request.tool)] (some task.requestId)

def enforce (service : SecurityService) (host : Host) (task : Task) (request : ToolRequest) :
    Proc Unit :=
  if task.state ≠ .running then throw (.taskNotRunningForSecurityCheck task.id task.state)
  else match service.gate.checkRequest host.py request with
    | .error (.securityViolation tool category reason) =>
      reportViolation host task request tool category reason
    | .error e => throw e
    | .ok _ => reportCleared host task request

/-- The audit entry and the event of a flagged output. -/
def reportInjection (service : SecurityService) (host : Host) (task : Task) (toolName : String)
    (matched : List String) : Proc Unit := do
  audit host (entry "security.injection_detection" "security.prompt_injection_detected"
    "scan_output" (if service.haltOnInjection then "halted" else "flagged") task
    [("tool", .str toolName), ("matched_phrases", .list (matched.map .str)),
      ("severity", .str (if service.haltOnInjection then "HIGH" else "MEDIUM")),
      ("quarantined", .bool true)])
  emit host "security_service" "security.injection_detected"
    [("task_id", .str task.id), ("tool", .str toolName),
      ("matched_phrases", .list (matched.map .str)),
      ("halted", .bool service.haltOnInjection)] (some task.requestId)

/-- With `halt_on_injection`, a flagged output halts the task and raises. -/
def haltFlagged (service : SecurityService) (host : Host) (task : Task) (toolName : String)
    (matched : List String) : Proc Unit :=
  if service.haltOnInjection then do
    let _ ← withUow (Orchestrator.advance host task.id "security_halt")
    throw (.securityViolation toolName "prompt_injection"
      ("injection patterns in tool output: " ++ host.py.reprOf (.list (matched.map .str))))
  else pure ()

def scanOutput (service : SecurityService) (host : Host) (task : Task) (toolName : String)
    (data : Value) : Proc InjectionScanResult :=
  let result := scanText host.py service.phrases (pyStr host.py data)
  if result.flagged then do
    service.reportInjection host task toolName result.matchedPhrases
    service.haltFlagged host task toolName result.matchedPhrases
    pure result
  else pure result

end SecurityService

end Shea.Model
