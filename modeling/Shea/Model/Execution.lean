import Shea.Model.Tools

/-!
# The execution service

`recovery/idempotency.py` and `execution/service.py`: one authorized tool call, from the gate to its
record.

`execute` looks at the state of the task object it is given, never at the stored row. Everything the
supervisor does happens in transactions of its own; the record, its audit entry, the use of the
authorization and the move of the task share the last one.
-/

set_option autoImplicit false

namespace Shea.Model

open Shea.Computation

/-- `IdempotencyKeyGenerator.generate`. -/
def generateKey (py : Stdlib) (taskId : String) (request : ToolRequest) : String :=
  py.sha256 <| dumps py .compact <| .dict [
    ("task_id", .str taskId),
    ("tool", .str request.tool),
    ("action", .str request.action),
    ("arguments", .dict request.arguments)]

/-- The profile a task is bound to. -/
def activeProfile (task : Task) : Value :=
  match task.profileSnapshot with
  | none => .str "system"
  | some snapshot => (snapshot.lookup "profile_id").getD (.str "system")

/-! ## The binding of an authorization, and the service -/

/-- The authorization belongs to the task's profile or to the system. -/
def checkProfile (task : Task) (auth : Authorization) : Except Err Unit :=
  if .str auth.profileId ≠ activeProfile task ∧ auth.profileId ≠ "system" then
    .error (.authorizationAlreadyUsed task.id "Profile mismatch - Security Violation")
  else .ok ()

/-- It has not been consumed. -/
def checkUnused (task : Task) (auth : Authorization) : Except Err Unit :=
  if auth.usedAt.isSome then .error (.authorizationAlreadyUsed task.id (auth.nonce.getD ""))
  else .ok ()

/-- It has not expired; the clock is read only if it can expire. -/
def checkUnexpired (host : Host) (task : Task) (auth : Authorization) : Proc Unit :=
  match auth.expiresAt with
  | none => pure ()
  | some expiry => do
      let at_ ← now host
      if expiry < at_ then throw (.authorizationExpired task.id expiry) else pure ()

def checkPlanHash (py : Stdlib) (task : Task) (auth : Authorization) (plan : Option Plan) :
    Except Err Unit :=
  match auth.planHash with
  | none => .ok ()
  | some hash =>
    if plan.map (computePlanHash py) = some hash then .ok ()
    else .error (.authorizationBindingMismatch task.id "plan" (some hash)
      (plan.map (computePlanHash py)))

/-- Some step of the plan is for the requested tool and has the authorized hash. -/
def hasStep (py : Stdlib) (request : ToolRequest) (hash : String) (plan : Plan) : Bool :=
  plan.steps.any fun step =>
    (request.toolIsText && step.tool = request.tool) && computeStepHash py step = hash

def checkStepHash (py : Stdlib) (task : Task) (request : ToolRequest) (auth : Authorization)
    (plan : Option Plan) : Except Err Unit :=
  match auth.stepHash with
  | none => .ok ()
  | some hash =>
    if plan.any (hasStep py request hash) then .ok ()
    else .error (.authorizationBindingMismatch task.id "step" (some hash) (plan.bind fun plan =>
      (plan.steps.find? fun step => request.toolIsText && step.tool = request.tool).map
        (computeStepHash py)))

def checkArgumentsHash (py : Stdlib) (task : Task) (request : ToolRequest) (auth : Authorization) :
    Except Err Unit :=
  match auth.argumentsHash with
  | none => .ok ()
  | some hash =>
    if hash = computeArgumentsHash py request.arguments then .ok ()
    else .error (.authorizationBindingMismatch task.id "arguments" (some hash)
      (some (computeArgumentsHash py request.arguments)))

/-- The three hash checks, in the order of the source. -/
def checkHashes (py : Stdlib) (task : Task) (request : ToolRequest) (auth : Authorization)
    (plan : Option Plan) : Except Err Unit := do
  checkPlanHash py task auth plan
  checkStepHash py task request auth plan
  checkArgumentsHash py task request auth

/-- The checks of one authorization. -/
def checkAuthorization (host : Host) (task : Task) (request : ToolRequest) (auth : Authorization) :
    Proc Unit := do
  Program.ofExcept (checkProfile task auth)
  Program.ofExcept (checkUnused task auth)
  checkUnexpired host task auth
  let plan ← PlanRepository.getByTask task.id
  Program.ofExcept (checkHashes host.py task request auth plan)

/-- `_verify_authorization_binding`. -/
def verifyAuthorizationBinding (host : Host) (task : Task) (request : ToolRequest) : Proc Unit := do
  let authorizations ← AuthorizationRepository.listByTask task.id
  match authorizations.getLast? with
  | none => throw (.missingDecision task.id)
  | some auth => checkAuthorization host task request auth

structure ExecutionOutcomeRecord where
  response : ToolResponse
  outcome : ExecutionOutcome
  task : Task
  deriving DecidableEq, Repr

structure ExecutionService where
  security : SecurityService := {}
  executor : ToolExecutor
  /-- The supervisor as it was before the service gave it its own adapter. -/
  supervisor : ExecutionSupervisor
  permits : ExecutionPermitAuthority
  broker : Option CredentialBroker := none

/-- `_map_app_outcome`. -/
def mapAppOutcome : AppOutcome → Except Err ExecutionOutcome
  | .success => .ok .success
  | .failure => .ok .failure
  | .unknown => .ok .unknown
  | .cancelled => .error (.runtimeError "Unsupported app execution outcome: 'CANCELLED'")

/-- `_ADVANCE_EVENT_BY_OUTCOME`. -/
def advanceEventByOutcome : ExecutionOutcome → String
  | .success => "execution_complete"
  | .failure => "execution_failed"
  | .unknown => "execution_unknown"

namespace ExecutionService

/-- The supervisor the service calls, with `ensure_adapter` done. -/
def sup (service : ExecutionService) (host : Host) : ExecutionSupervisor :=
  service.supervisor.ensureAdapter
    (toolExecutorAdapter service.executor service.permits service.broker host)

/-- The audit entries of the service. -/
def entry (eventType result : String) (task : Task) (request : ToolRequest) (metadata : Dict) :
    AuditEntry :=
  { actor := "execution_service"
    component := "execution.tool"
    eventType := eventType
    action := request.action
    result := result
    requestId := some task.requestId
    taskId := some task.id
    metadata := metadata }

/-! ## Before the supervisor -/

/-- A prior SUCCESS or UNKNOWN under the key is not repeated. -/
def refuseDuplicate (host : Host) (task : Task) (request : ToolRequest) (key : String)
    (prior : ExecutionOutcome) : Proc Unit := do
  audit host (entry "execution.duplicate_suppressed" "suppressed" task request
    [("tool", .str request.tool), ("idempotency_key", .str key),
      ("prior_outcome", .str prior.value)])
  throw (.duplicateExecutionSuppressed task.id request.tool request.action key prior)

def suppressDuplicate (host : Host) (task : Task) (request : ToolRequest) (key : String) :
    Proc Unit := do
  match ← ToolExecutionRepository.getByIdempotencyKey key with
  | none => pure ()
  | some prior =>
    if prior.outcome = .failure then pure ()
    else refuseDuplicate host task request key prior.outcome

/-- `frozenset(decision.capabilities)`. -/
def authorizedCapabilities (decision : Decision) : List String := decision.capabilities.dedup

/-- The capabilities of the newest decision. -/
def decidedCapabilities (task : Task) : Proc (List String) := do
  match ← DecisionRepository.getByTask task.id with
  | none => throw (.missingDecision task.id)
  | some decision => pure (authorizedCapabilities decision)

/-- `validate_capabilities`, with the audit entry of a denial. -/
def requireCapabilities (service : ExecutionService) (host : Host) (task : Task)
    (request : ToolRequest) (capabilities : List String) : Proc Unit :=
  match service.executor.validateCapabilities request capabilities with
  | .ok _ => pure ()
  | .error (.capabilityNotAuthorized tool missing) => do
      audit host (entry "execution.capability_denied" "denied" task request
        [("tool", .str request.tool),
          ("missing_capabilities", .list ((sortedTexts missing).map .str))])
      throw (.capabilityNotAuthorized tool missing)
  | .error e => throw e

/-- `list_by_task(task.id)[-1]`. -/
def newestAuthorization (task : Task) : Proc Authorization := do
  match (← AuthorizationRepository.listByTask task.id).getLast? with
  | none => throw (.other "IndexError" "list index out of range")
  | some auth => pure auth

/-! ## The contract -/

def permitDict (permit : ExecutionPermit) : Dict :=
  [("token", .str permit.token), ("tool", .str permit.tool), ("action", .str permit.action),
    ("arguments_digest", .str permit.argumentsDigest),
    ("capabilities_digest", .str permit.capabilitiesDigest)]

/-- The metadata of the contract. -/
def contractMetadata (task : Task) (request : ToolRequest) (capabilities : List String)
    (permit : ExecutionPermit) (key : String) : Dict :=
  [("execution_backend", .str "tool_executor"),
    ("tool", .str request.tool),
    ("action", .str request.action),
    ("request_id", .str request.requestId),
    ("task_id", .str task.id),
    ("tool_context", .dict request.context),
    ("_authorized_capabilities", .list ((sortedTexts capabilities).map .str)),
    ("_execution_permit", .dict (permitDict permit)),
    ("_profile_id", activeProfile task),
    ("idempotency_key", .str key)]

/-- The permit is minted for the request as it is: references to credentials, no secrets. -/
def contractOf (service : ExecutionService) (py : Stdlib) (task : Task) (request : ToolRequest)
    (capabilities : List String) (auth : Authorization) (key contractId : String) :
    ExecutionContract :=
  { contractId := contractId
    authorizationId := auth.id
    capability := (sortedTexts capabilities).headD ("tool." ++ request.tool)
    operation := "tool." ++ request.tool ++ "." ++ request.action
    target := request.tool
    arguments := request.arguments
    expiresAt := auth.expiresAt
    requestedTarget := some { kind := .opaqueKind, value := request.tool }
    identityRequirements :=
      { assurance := .basic
        requireRevalidationBeforeInvoke := false
        allowedKinds := [.opaqueKind, .path, .url, .host, .process] }
    metadata := contractMetadata task request capabilities
      (service.executor.permitAuthority.mint py request.tool request.action request.arguments
        capabilities) key }

/-- Everything up to the contract: the checks of the request, in the order of the source. -/
def prepare (service : ExecutionService) (host : Host) (task : Task) (request : ToolRequest) :
    Proc ExecutionContract := do
  service.security.enforce host task request
  verifyAuthorizationBinding host task request
  suppressDuplicate host task request (generateKey host.py task.id request)
  let capabilities ← decidedCapabilities task
  service.requireCapabilities host task request capabilities
  let auth ← newestAuthorization task
  let contractId ← newId host
  pure (service.contractOf host.py task request capabilities auth
    (generateKey host.py task.id request) contractId)

/-! ## After the supervisor -/

/-- `raw_evidence.get("data", raw_evidence)`. -/
def evidenceData (result : AdapterResult) : Value :=
  (result.evidence.lookup "data").getD (.dict result.evidence)

def responseMetadata (supervision : SupervisionResult) : Dict :=
  [("receipt_id", .str supervision.receipt.id),
    ("attempt_id", .str supervision.attempt.id),
    ("evidence_id", .str supervision.evidenceId),
    ("app_verification_result", .str supervision.verification.result.value),
    ("app_verification_explanation", .str supervision.verification.explanation)]

def responseOf (supervision : SupervisionResult) (outcome : ExecutionOutcome) : ToolResponse :=
  { success := outcome = .success
    data := evidenceData supervision.adapterResult
    error := supervision.adapterResult.error
    metadata := responseMetadata supervision }

/-- The response of a flagged output. -/
def flaggedResponse (response : ToolResponse) (reason : String) : ToolResponse :=
  { success := false
    data := response.data
    error := some ("output scan flagged: " ++ reason)
    metadata := response.metadata }

/-- The audit entry of a flagged output, and the response that goes with it. -/
def screen (host : Host) (task : Task) (request : ToolRequest) (response : ToolResponse)
    (scan : InjectionScanResult) : Proc ToolResponse :=
  if scan.flagged then do
    audit host (entry "execution.output_flagged" "flagged" task request
      [("reason", .str scan.reason)])
    pure (flaggedResponse response scan.reason)
  else pure response

/-- `ToolExecutionRecord(…)`. -/
def recordOf (task : Task) (request : ToolRequest) (outcome : ExecutionOutcome)
    (response : ToolResponse) (key recordId : String) : ToolExecutionRecord :=
  { id := recordId
    taskId := task.id
    tool := request.tool
    action := request.action
    outcome := outcome
    success := response.success
    data := response.data
    error := response.error
    idempotencyKey := some key
    metadata := .dict response.metadata }

/-- The audit entry of a recorded execution. -/
def recordEntry (task : Task) (request : ToolRequest) (outcome : ExecutionOutcome)
    (response : ToolResponse) (supervision : SupervisionResult) : AuditEntry :=
  entry ("execution." ++ outcome.lowerValue) outcome.lowerValue task request
    [("tool", .str request.tool), ("success", .bool response.success),
      ("receipt_id", .str supervision.receipt.id), ("attempt_id", .str supervision.attempt.id),
      ("evidence_id", .str supervision.evidenceId)]

/-- `ExecutionChannel.completed`. -/
def completed (host : Host) (task : Task) (request : ToolRequest) (outcome : ExecutionOutcome)
    (data : Value) : Proc Unit :=
  emit host "execution_service" "execution.completed"
    ([("task_id", .str task.id), ("tool", .str request.tool), ("outcome", .str outcome.value)] ++
      if data = .none then [] else [("data", data)]) (some task.requestId)

/-- The newest authorization is used up, if it is a one-shot one. -/
def markUsed (host : Host) (auth : Authorization) : Proc Unit :=
  if auth.nonce.isSome && auth.usedAt.isNone then do
    let at_ ← now host
    AuthorizationRepository.save { auth with usedAt := some at_ }
  else pure ()

/-- Only a SUCCESS uses the authorization up. -/
def consume (host : Host) (task : Task) (outcome : ExecutionOutcome) : Proc Unit :=
  if outcome = .success then do
    match (← AuthorizationRepository.listByTask task.id).getLast? with
    | none => pure ()
    | some auth => markUsed host auth
  else pure ()

/-- The statements of the transaction that records an execution. -/
def writeRecord (host : Host) (task : Task) (request : ToolRequest) (key : String)
    (supervision : SupervisionResult) (outcome : ExecutionOutcome) (response : ToolResponse) :
    Proc Task := do
  let recordId ← newId host
  ToolExecutionRepository.save host.py (recordOf task request outcome response key recordId)
  audit host (recordEntry task request outcome response supervision)
  completed host task request outcome response.data
  consume host task outcome
  Orchestrator.advance host task.id (advanceEventByOutcome outcome)

/-- From the supervisor's answer to the record. -/
def settle (service : ExecutionService) (host : Host) (task : Task) (request : ToolRequest)
    (supervision : SupervisionResult) : Proc ExecutionOutcomeRecord := do
  let outcome ← Program.ofExcept (mapAppOutcome supervision.adapterResult.outcome)
  let scan ← service.security.scanOutput host task request.tool
    (evidenceData supervision.adapterResult)
  let response ← screen host task request (responseOf supervision outcome) scan
  let advanced ← withUow (writeRecord host task request (generateKey host.py task.id request)
    supervision outcome response)
  pure { response := response, outcome := outcome, task := advanced }

/-- `execute` for a task that is RUNNING as far as the caller knows. -/
def carryOut (service : ExecutionService) (host : Host) (task : Task) (request : ToolRequest) :
    Proc ExecutionOutcomeRecord := do
  let contract ← service.prepare host task request
  let supervision ← (service.sup host).execute host contract
  service.settle host task request supervision

def execute (service : ExecutionService) (host : Host) (task : Task) (request : ToolRequest) :
    Proc ExecutionOutcomeRecord :=
  if task.state = .running then service.carryOut host task request
  else throw (.taskNotRunning task.id task.state)

end ExecutionService

end Shea.Model
