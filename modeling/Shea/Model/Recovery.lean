import Shea.Model.Security
import Shea.Model.Supervisor

/-!
# Recovery

`recovery/classifier.py`, `planner.py`, `retry.py`, `authority.py`, `compensator.py` and `service.py`,
wired as `bootstrap` does it.

A compensator is a parameter. So is the delay before a retry: it is a floating-point computation with
a random factor, and it is only ever stored.
-/

set_option autoImplicit false

namespace Shea.Model

open Shea.Computation

/-! ## Classification -/

inductive FailureCategory
  | transient
  | timeout
  | network
  | rateLimited
  | authentication
  | authorization
  | invalidInput
  | notFound
  | conflict
  | resourceExhausted
  | dependency
  | security
  | unknownOutcome
  | permanent
  | unknown
  deriving DecidableEq, Repr

def FailureCategory.value : FailureCategory → String
  | transient => "TRANSIENT"
  | timeout => "TIMEOUT"
  | network => "NETWORK"
  | rateLimited => "RATE_LIMITED"
  | authentication => "AUTHENTICATION"
  | authorization => "AUTHORIZATION"
  | invalidInput => "INVALID_INPUT"
  | notFound => "NOT_FOUND"
  | conflict => "CONFLICT"
  | resourceExhausted => "RESOURCE_EXHAUSTED"
  | dependency => "DEPENDENCY"
  | security => "SECURITY"
  | unknownOutcome => "UNKNOWN_OUTCOME"
  | permanent => "PERMANENT"
  | unknown => "UNKNOWN"

structure FailureClassification where
  category : FailureCategory
  retryable : Bool
  recoverable : Bool
  reversible : Bool
  requiresVerification : Bool
  securityRelevant : Bool
  explanation : String := ""
  deriving DecidableEq, Repr

/-- The operation may have happened: its outcome has to be verified. -/
def unknownOutcomeFailure : FailureClassification :=
  { category := .unknownOutcome
    retryable := false
    recoverable := true
    reversible := true
    requiresVerification := true
    securityRelevant := false
    explanation := "The execution outcome is unknown. The external side effect " ++
      "must be verified before another attempt." }

/-- A condition of the surroundings that may pass. -/
def passingFailure (category : FailureCategory) (explanation : String) : FailureClassification :=
  { category := category
    retryable := true
    recoverable := true
    reversible := false
    requiresVerification := true
    securityRelevant := false
    explanation := explanation }

/-- A condition that another attempt does not change. -/
def lastingFailure (category : FailureCategory) (recoverable securityRelevant : Bool)
    (explanation : String) : FailureClassification :=
  { category := category
    retryable := false
    recoverable := recoverable
    reversible := false
    requiresVerification := false
    securityRelevant := securityRelevant
    explanation := explanation }

def unclassifiedFailure : FailureClassification :=
  { category := .unknown
    retryable := false
    recoverable := true
    reversible := false
    requiresVerification := true
    securityRelevant := false
    explanation := "The failure could not be safely classified." }

/-- The words looked for in the error text, in the order in which they are looked for. -/
def failureWords : List (List String × FailureClassification) := [
  (["timeout", "timed out"], passingFailure .timeout "The operation timed out."),
  (["connection", "network", "dns", "connection reset"],
    passingFailure .network "The operation failed because of a network condition."),
  (["rate limit", "too many requests", "429"],
    passingFailure .rateLimited "The operation was rate limited."),
  (["permission denied", "forbidden", "not authorized"],
    lastingFailure .authorization false true "The operation was not authorized."),
  (["unauthenticated", "authentication", "invalid token"],
    lastingFailure .authentication true true "Authentication failed."),
  (["invalid argument", "invalid input", "validation error"],
    lastingFailure .invalidInput false false "The operation received invalid input."),
  (["security", "malicious", "integrity violation"],
    lastingFailure .security false true "The failure is security relevant.")]

/-- `FailureClassifier.classify`. -/
def classifyFailure (py : Stdlib) (record : ToolExecutionRecord) : FailureClassification :=
  if record.outcome = .unknown then unknownOutcomeFailure
  else
    let error := py.lower (record.error.getD "")
    match failureWords.find? fun (words, _) => words.any (containsText error) with
    | some (_, classification) => classification
    | none => unclassifiedFailure

/-! ## The planner -/

inductive RecoveryStrategy
  | retry
  | reverify
  | compensate
  | rollback
  | resume
  | abort
  | escalate
  | securityHalt
  deriving DecidableEq, Repr

def RecoveryStrategy.value : RecoveryStrategy → String
  | retry => "RETRY"
  | reverify => "REVERIFY"
  | compensate => "COMPENSATE"
  | rollback => "ROLLBACK"
  | resume => "RESUME"
  | abort => "ABORT"
  | escalate => "ESCALATE"
  | securityHalt => "SECURITY_HALT"

structure RetryPolicy where
  maxAttempts : ℕ := 3
  requireIdempotency : Bool := true
  deriving DecidableEq, Repr

structure RecoveryDecision where
  strategy : RecoveryStrategy
  reason : String
  requiresVerification : Bool := false
  requiresUserAuthorization : Bool := false
  safeToRetry : Bool := false
  deriving DecidableEq, Repr

/-- What is decided about an execution whose outcome is unknown. -/
def decideUnknown : Option VerificationRecord → RecoveryDecision
  | none =>
    { strategy := .reverify
      reason := "Execution outcome is unknown; external state must be verified before retrying."
      requiresVerification := true }
  | some verification =>
    if verification.sideEffectDetected then
      { strategy := .abort
        reason := "The operation may already have produced its side effect; " ++
          "retrying could duplicate it." }
    else if verification.retrySafe then
      { strategy := .retry
        reason := "Verification confirmed that retrying is safe."
        safeToRetry := true }
    else
      { strategy := .escalate
        reason := "The operation's external state could not be established as safe to retry."
        requiresVerification := true }

/-- `RecoveryPlanner.decide`. -/
def RetryPolicy.decide (policy : RetryPolicy) (record : ToolExecutionRecord)
    (classification : FailureClassification) (attemptsMade : ℕ)
    (verification : Option VerificationRecord) : RecoveryDecision :=
  if classification.securityRelevant then
    { strategy := .securityHalt, reason := classification.explanation }
  else if policy.maxAttempts ≤ attemptsMade then
    { strategy := .abort, reason := "Recovery attempt budget has been exhausted." }
  else if record.outcome = .unknown then decideUnknown verification
  else if classification.retryable then
    if policy.requireIdempotency && (record.idempotencyKey.getD "" = "") then
      { strategy := .reverify
        reason := "Retry requires an idempotency key or independent verification."
        requiresVerification := true }
    else
      { strategy := .retry, reason := classification.explanation, safeToRetry := true }
  else if classification.reversible then
    { strategy := .compensate
      reason := classification.explanation
      requiresVerification := true }
  else if classification.category = .permanent then
    { strategy := .abort, reason := classification.explanation }
  else
    { strategy := .escalate
      reason := classification.explanation
      requiresVerification := classification.requiresVerification }

/-- `RetryController`: its policy, and the delay before an attempt at an instant. -/
structure RetryController where
  policy : RetryPolicy := {}
  delayFor : (attemptNumber instant : ℕ) → PyFloat := fun _ _ => .finite 1 0

def RetryController.canRetry (controller : RetryController) (attemptsMade : ℕ) : Bool :=
  attemptsMade < controller.policy.maxAttempts

structure RecoveryAuthority where
  taskId : String
  authorizationId : String
  capabilities : List String
  maxAttempts : ℕ
  expiresAt : Time
  permittedOperations : List String
  planHash : Option String := none
  stepHash : Option String := none
  argumentsHash : Option String := none
  profileId : String := "system"
  deriving DecidableEq, Repr

namespace RecoveryAuthority

/-- `DEFAULT_OPERATIONS`. -/
def defaultOperations : List String := ["retry", "compensate", "reconcile", "resolve_blocked"]

/-- `from_original`: the earlier of the authorization's expiry and one hour from now. -/
def fromOriginal (decision : Decision) (authorization : Authorization) (maxAttempts : ℕ)
    (at_ : Time) : Except Err RecoveryAuthority :=
  if !authorization.granted then
    .error (.recoveryAuthority decision.taskId "original authorization was not granted")
  else .ok
    { taskId := decision.taskId
      authorizationId := authorization.id
      capabilities := decision.capabilities.dedup
      maxAttempts := maxAttempts
      expiresAt := authorization.expiresAt.elim (at_ + oneHour) (min (at_ + oneHour))
      permittedOperations := defaultOperations
      planHash := authorization.planHash
      stepHash := authorization.stepHash
      argumentsHash := authorization.argumentsHash
      profileId := if authorization.profileId = "" then "system" else authorization.profileId }

/-- `assert_can`, as the service calls it: without required capabilities. -/
def assertCan (authority : RecoveryAuthority) (py : Stdlib) (operation : String) (at_ : Time)
    (attemptsMade : ℕ) : Except Err Unit :=
  if authority.expiresAt ≤ at_ then
    .error (.recoveryAuthority authority.taskId "recovery authority expired")
  else if authority.maxAttempts ≤ attemptsMade then
    .error (.recoveryAuthority authority.taskId ("attempt budget exhausted (" ++
      toString attemptsMade ++ "/" ++ toString authority.maxAttempts ++ ")"))
  else if operation ∉ authority.permittedOperations then
    .error (.recoveryAuthority authority.taskId
      ("operation " ++ py.reprOf (.str operation) ++ " not permitted"))
  else .ok ()

def toAuditDict (authority : RecoveryAuthority) (py : Stdlib) : Dict :=
  [("task_id", .str authority.taskId),
    ("authorization_id", .str authority.authorizationId),
    ("capabilities", .list ((sortedTexts authority.capabilities).map .str)),
    ("max_attempts", .int authority.maxAttempts),
    ("expires_at", .str (py.isoformat authority.expiresAt)),
    ("permitted_operations", .list ((sortedTexts authority.permittedOperations).map .str)),
    ("profile_id", .str authority.profileId),
    ("plan_hash", .ofOption authority.planHash)]

end RecoveryAuthority

/-! ## The service -/

structure CompensationOutcome where
  restored : Bool
  method : String
  explanation : String
  deriving DecidableEq, Repr

/-- What a compensator makes of a task at an instant. -/
abbrev Compensator := Task → ℕ → Except Err CompensationOutcome

def defaultCompensator : Compensator := fun _ _ => .ok
  { restored := false
    method := "none"
    explanation := "No compensator configured for this task; nothing was restored." }

structure RecoveryService where
  supervisor : ExecutionSupervisor
  planner : RetryPolicy := {}
  retry : RetryController := {}

namespace RecoveryService

/-- The audit entries of the service. -/
def entry (component eventType action result : String) (task : Task) (metadata : Dict) :
    AuditEntry :=
  { actor := "recovery_service"
    component := component
    eventType := eventType
    action := action
    result := result
    requestId := some task.requestId
    taskId := some task.id
    metadata := metadata }

def lowerOutcome : AppOutcome → String
  | .success => "success"
  | .failure => "failure"
  | .unknown => "unknown"
  | .cancelled => "cancelled"

/-- The audit entry of a reconciled receipt. -/
def reconciledEntry (item : ReconciliationResult) : AuditEntry :=
  { actor := "recovery_service"
    component := "recovery.app_plane"
    eventType := "recovery.app_receipt_reconciled"
    action := "reconcile"
    result := lowerOutcome item.outcome
    metadata := [("receipt_id", .str item.receipt.id), ("detail", .str item.detail),
      ("fence_token", .ofOption (item.incident.bind (·.fenceToken)))] }

/-- Receipts with nothing to reconcile are left out. -/
def auditItem (host : Host) (item : ReconciliationResult) : Proc Unit :=
  if item.detail = "nothing_to_reconcile" then pure () else audit host (reconciledEntry item)

/-- One entry for each receipt that was reconciled. -/
def auditReconciled (host : Host) : List ReconciliationResult → Proc Unit
  | [] => pure ()
  | item :: rest => do
      auditItem host item
      auditReconciled host rest

def reconcileAppPlane (service : RecoveryService) (host : Host) :
    Proc (List ReconciliationResult) := do
  let results ← service.supervisor.reconcileStuck host
  withUow (auditReconciled host results)
  pure results

/-- The strategy for the newest execution of a task, with its audit entry. -/
def planFor (service : RecoveryService) (host : Host) (task : Task)
    (execution : ToolExecutionRecord) : Proc RecoveryDecision := do
  let attempts ← RecoveryAttemptRepository.listByTask task.id
  let verification ← VerificationRepository.getLatestByTask task.id
  let classification := classifyFailure host.py execution
  let decision := service.planner.decide execution classification attempts.length verification
  audit host (entry "recovery.planner" "recovery.decision" "plan_recovery" decision.strategy.value
    task [("strategy", .str decision.strategy.value), ("reason", .str decision.reason),
      ("failure_category", .str classification.category.value),
      ("retryable", .bool classification.retryable),
      ("recoverable", .bool classification.recoverable)])
  pure decision

def planLatest (service : RecoveryService) (host : Host) (task : Task) : Proc RecoveryDecision := do
  match ← ToolExecutionRepository.getLatestByTask task.id with
  | none => throw (.valueError
      ("Task " ++ host.py.reprOf (.str task.id) ++ " has no execution record."))
  | some execution => service.planFor host task execution

def planRecovery (service : RecoveryService) (host : Host) (task : Task) : Proc RecoveryDecision :=
  if task.state = .failed then service.planLatest host task
  else throw (.taskNotFailed task.id task.state)

/-- The newest authorization that goes with a decision. -/
def withAuthorization (task : Task) (decision : Decision) : Proc (Decision × Authorization) := do
  match (← AuthorizationRepository.listByTask task.id).getLast? with
  | none => throw (.recoveryAuthority task.id "no authorization on file")
  | some authorization => pure (decision, authorization)

/-- The newest decision and the newest authorization of a task. -/
def newestGrant (task : Task) : Proc (Decision × Authorization) := do
  match ← DecisionRepository.getByTask task.id with
  | none => throw (.recoveryAuthority task.id "no decision on file")
  | some decision => withAuthorization task decision

/-- `_derive_authority`. -/
def deriveAuthority (service : RecoveryService) (host : Host) (task : Task) :
    Proc RecoveryAuthority := do
  let (decision, authorization) ← newestGrant task
  let at_ ← now host
  Program.ofExcept (RecoveryAuthority.fromOriginal decision authorization
    service.retry.policy.maxAttempts at_)

/-- Derive the authority and ask it, at the clock's next reading. -/
def authorize (service : RecoveryService) (host : Host) (task : Task) (operation : String)
    (attemptsMade : ℕ) : Proc RecoveryAuthority := do
  let authority ← service.deriveAuthority host task
  let at_ ← now host
  Program.ofExcept (authority.assertCan host.py operation at_ attemptsMade)
  pure authority

/-- The attempt and its audit entry. -/
def writeAttempt (host : Host) (task : Task) (attempt : RecoveryAttempt)
    (strategy : RecoveryStrategy) (authority : RecoveryAuthority) : Proc Unit := do
  RecoveryAttemptRepository.save attempt
  audit host (entry "recovery.manager" "recovery.attempt_started" "begin_recovery" "attempting" task
    [("attempt_number", .int attempt.attemptNumber), ("strategy", .str strategy.value),
      ("delay_seconds", .float attempt.delaySeconds),
      ("recovery_authority", .dict (authority.toAuditDict host.py))])

/-- The attempt, the entry in one transaction; the move of the task in another. -/
def startAttempt (service : RecoveryService) (host : Host) (task : Task) (attemptNumber : ℕ)
    (strategy : RecoveryStrategy) (authority : RecoveryAuthority) : Proc Task := do
  let instant ← Program.get World.ticks
  withUow do
    let attemptId ← newId host
    writeAttempt host task
      { id := attemptId
        taskId := task.id
        attemptNumber := attemptNumber
        delaySeconds := service.retry.delayFor attemptNumber instant } strategy authority
  Orchestrator.advance host task.id "retry"

/-- What the strategy leads to. -/
def follow (service : RecoveryService) (host : Host) (task : Task) (attemptsMade : ℕ)
    (authority : RecoveryAuthority) (strategy : RecoveryStrategy) : Proc Task :=
  match strategy with
  | .securityHalt => Orchestrator.advance host task.id "security_halt"
  | .abort => throw (.recoveryExhausted task.id attemptsMade service.retry.policy.maxAttempts)
  | strategy => service.startAttempt host task (attemptsMade + 1) strategy authority

/-- `begin_recovery` for a task that is stored as FAILED. -/
def recoverFailed (service : RecoveryService) (host : Host) (task : Task) : Proc Task := do
  let previous ← RecoveryAttemptRepository.listByTask task.id
  let authority ← service.authorize host task "retry" previous.length
  if service.retry.canRetry previous.length then do
    let decision ← service.planRecovery host task
    service.follow host task previous.length authority decision.strategy
  else throw (.recoveryExhausted task.id previous.length service.retry.policy.maxAttempts)

def beginRecovery (service : RecoveryService) (host : Host) (given : Task) : Proc Task := do
  let _ ← service.reconcileAppPlane host
  let task ← Orchestrator.getTask given.id
  if task.state = .failed then service.recoverFailed host task
  else throw (.taskNotFailed task.id task.state)

/-- The resolved attempt, its audit entry and the move of the task. -/
def writeResolution (host : Host) (task : Task) (attempt : RecoveryAttempt)
    (outcome : CompensationOutcome) : Proc Task := do
  RecoveryAttemptRepository.save
    { attempt with
      resolved := true
      recovered := some outcome.restored
      method := outcome.method
      explanation := outcome.explanation }
  audit host (entry "recovery.manager"
    (if outcome.restored then "recovery.recovered" else "recovery.failed") "resolve_recovery"
    (if outcome.restored then "recovered" else "not_recovered") task
    [("attempt_number", .int attempt.attemptNumber), ("method", .str outcome.method)])
  Orchestrator.advance host task.id (if outcome.restored then "recovered" else "recovery_failed")

/-- Compensate for an attempt. -/
def resolveAttempt (service : RecoveryService) (host : Host) (task : Task) (compensator : Compensator)
    (attempt : RecoveryAttempt) : Proc Task := do
  let _ ← service.authorize host task "compensate" (attempt.attemptNumber - 1)
  let instant ← Program.get World.ticks
  let outcome ← Program.ofExcept (compensator task instant)
  withUow (writeResolution host task attempt outcome)

def resolveLatest (service : RecoveryService) (host : Host) (task : Task)
    (compensator : Compensator) : Proc Task := do
  match ← RecoveryAttemptRepository.getLatestByTask task.id with
  | none => throw (.missingRecoveryAttempt task.id)
  | some attempt => service.resolveAttempt host task compensator attempt

def resolveRecovery (service : RecoveryService) (host : Host) (task : Task)
    (compensator : Compensator := defaultCompensator) : Proc Task :=
  if task.state = .recovering then service.resolveLatest host task compensator
  else throw (.taskNotRecovering task.id task.state)

def stabilize (host : Host) (task : Task) : Proc Task :=
  if task.state = .stabilizing then withUow do
    audit host (entry "recovery.stabilizer" "recovery.stabilized" "stabilize_task" "ready" task [])
    Orchestrator.advance host task.id "stabilized"
  else throw (.valueError ("Task is not stabilizing: " ++ task.state.value))

/-- The audit entry and the move, each in a transaction of its own. -/
def resolveStuck (service : RecoveryService) (host : Host) (task : Task) (resume : Bool) :
    Proc Task := do
  let _ ← service.authorize host task "resolve_blocked" 0
  audit host (entry "recovery.manager" "recovery.blocked_resolved" "resolve_blocked"
    (if resume then "resumed" else "cancelled") task [("resumed", .bool resume)])
  Orchestrator.advance host task.id (if resume then "unblock" else "cancel")

def resolveBlocked (service : RecoveryService) (host : Host) (task : Task) (resume : Bool) :
    Proc Task :=
  if task.state = .blocked then service.resolveStuck host task resume
  else throw (.taskNotBlocked task.id task.state)

/-! ## Tasks left behind by a shutdown -/

/-- The event that settles a task left in a state; STABILIZING is not among them. -/
def strandedEvent : TaskState → Option String
  | .created => some "cancel"
  | .planning => some "cancel"
  | .ready => some "cancel"
  | .running => some "execution_unknown"
  | .verifying => some "verification_failed"
  | .recovering => some "recovery_failed"
  | _ => none

/-- The move of one task, and its audit entry. -/
def settleStranded (host : Host) (task : Task) (event : String) : Proc Task := do
  let moved ← Orchestrator.advance host task.id event
  audit host
    { actor := "system"
      component := "recovery.reconciliation"
      eventType := "recovery.task_reconciled"
      action := "reconcile_stranded_tasks"
      result := "reconciled"
      requestId := some moved.requestId
      taskId := some moved.id
      metadata := [("original_state", .str task.state.value), ("new_state", .str moved.state.value)] }
  pure moved

/-- One task after the other. -/
def settleAll (host : Host) : List Task → Proc (List Task)
  | [] => pure []
  | task :: rest =>
    match strandedEvent task.state with
    | none => settleAll host rest
    | some event => do
        let moved ← settleStranded host task event
        let others ← settleAll host rest
        pure (moved :: others)

def reconcileStrandedTasks (service : RecoveryService) (host : Host) : Proc (List Task) := do
  let _ ← service.reconcileAppPlane host
  let tasks ← Orchestrator.listTransientTasks
  settleAll host tasks

end RecoveryService

end Shea.Model
