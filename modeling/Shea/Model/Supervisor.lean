import Shea.Model.Repositories
import Shea.Model.Reconcile
import Shea.Model.Identity
import Shea.Model.VerifyEngine

/-!
# The execution supervisor

`app/supervisor.py`, wired as `bootstrap` does it: every optional repository is there, and the
idempotency repository is the SQLite one, whose `reserve` is a plain `INSERT`.

`execute` is one straight line with several transactions in it:

    validate → reserve the key → resolve and verify the target, evaluate the scope →
    receipt, attempt and key in one transaction → verify again → mark INVOKED →
    call the adapter → evidence, verification → finalize in one transaction

Each phase is a definition of its own below, in this order.
-/

set_option autoImplicit false

namespace Shea.Model

open Shea.Computation

/-! ## Adapters, and what comes before a receipt -/

/-- What an adapter can do to the shared state: hand out clock readings and identifiers, and call
tool handlers. No adapter holds a repository or the unit of work. -/
structure Outside (w w' : World) : Prop where
  working : w'.working = w.working
  committed : w'.committed = w.committed
  depth : w'.depth = w.depth
  nextId : w.nextId ≤ w'.nextId
  log : ∃ calls : List HandlerCall, w'.log = w.log ++ calls.map .handlerCalled

/-- A platform mechanism, with the fact that it works outside the database. -/
structure Adapter where
  name : String
  supports : ExecutionContract → Bool
  invoke : ExecutionContract → ExecutionReceipt → ExecutionAttempt → Proc AdapterResult
  outside : ∀ contract receipt attempt, (invoke contract receipt attempt).Guarantee Outside

/-- `SupervisionResult`. -/
structure SupervisionResult where
  receipt : ExecutionReceipt
  attempt : ExecutionAttempt
  adapterResult : AdapterResult
  evidenceId : String
  verification : AppVerificationRecord
  deriving DecidableEq, Repr

/-- `ReconciliationResult`. -/
structure ReconciliationResult where
  receipt : ExecutionReceipt
  attempt : Option ExecutionAttempt
  incident : Option RecoveryIncident
  outcome : AppOutcome
  detail : String
  deriving DecidableEq, Repr

/-- The supervisor's own configuration. -/
structure ExecutionSupervisor where
  adapters : List Adapter
  reconcilers : ReconcilerRegistry := defaultReconcilerRegistry

namespace ExecutionSupervisor

/-- `ensure_adapter`: replace the adapter of that name, or add it. -/
def ensureAdapter (sup : ExecutionSupervisor) (adapter : Adapter) : ExecutionSupervisor :=
  { sup with adapters := replace sup.adapters }
where
  replace : List Adapter → List Adapter
    | [] => [adapter]
    | existing :: rest =>
        if existing.name = adapter.name then adapter :: rest else existing :: replace rest

/-- The first of the contract's required fields that is empty. -/
def missingField (contract : ExecutionContract) : Option String :=
  ([("missing contract_id", contract.contractId),
    ("missing authorization_id", contract.authorizationId),
    ("missing capability", contract.capability),
    ("missing operation", contract.operation),
    ("missing target", contract.target)].find? fun field => field.2 = "").map Prod.fst

def validate (host : Host) (contract : ExecutionContract) : Proc Unit :=
  match missingField contract with
  | some reason => throw (.contractValidation reason)
  | none =>
    match contract.expiresAt with
    | none => pure ()
    | some expiry => do
        let at_ ← now host
        if expiry < at_ then throw (.contractValidation "contract expired") else pure ()

/-- The adapter the contract's metadata asks for, if it is there and supports the contract. -/
def preferredAdapter (sup : ExecutionSupervisor) (contract : ExecutionContract) : Option Adapter :=
  match contract.metadata.get "execution_backend" with
  | .str name => sup.adapters.find? fun a => a.name = name ∧ a.supports contract
  | _ => none

def noAdapterText (py : Stdlib) (contract : ExecutionContract) : String :=
  let preferred := contract.metadata.get "execution_backend"
  "no adapter supports operation " ++ py.reprOf (.str contract.operation) ++
    (if preferred.truthy then " (preferred: " ++ py.reprOf preferred ++ ")" else "")

def selectAdapter (sup : ExecutionSupervisor) (py : Stdlib) (contract : ExecutionContract) :
    Except Err Adapter :=
  match sup.preferredAdapter contract <|> sup.adapters.find? (·.supports contract) with
  | some adapter => .ok adapter
  | none => .error (.contractValidation (noAdapterText py contract))

/-- `contract.metadata.get("idempotency_key")`, as the text it is reserved under. -/
def idempotencyKey (py : Stdlib) (contract : ExecutionContract) : Option String :=
  match contract.metadata.get "idempotency_key" with
  | .none => none
  | v => some (pyStr py v)

/-- Why an existing row of the key refuses a reservation outright. -/
def refusalOf (key : String) : IdempotencyState → Option String
  | .completed => some ("idempotency key already completed: " ++ key)
  | .inProgress => some ("idempotency key in progress: " ++ key)
  | .conflict => some ("idempotency key conflict: " ++ key)
  | _ => none

/-- The row a reservation inserts. -/
def reservation (key : String) (at_ : Time) : IdempotencyRecord :=
  { key := key
    receiptId := none
    state := .inProgress
    outcome := none
    createdAt := at_
    updatedAt := at_ }

/-- `_reserve_idempotency`. Whatever `reserve` raises becomes a contract error. -/
def reserveIdempotency (host : Host) (key : String) : Proc Unit := do
  let existing ← IdempotencyRepository.get key
  match existing.bind fun row => refusalOf key row.state with
  | some reason => throw (.contractValidation reason)
  | none =>
    let at_ ← now host
    tryCatch (IdempotencyRepository.reserve (reservation key at_)) fun _ =>
      throw (.contractValidation ("idempotency key already reserved: " ++ key))

/-- `_bind_idempotency_receipt`. -/
def bindIdempotencyReceipt (host : Host) (key receiptId : String) : Proc Unit := do
  let existing ← IdempotencyRepository.get key
  let at_ ← now host
  match existing with
  | none => IdempotencyRepository.save { reservation key at_ with receiptId := some receiptId }
  | some row => IdempotencyRepository.save { row with receiptId := some receiptId, updatedAt := at_ }

/-- The state an outcome leaves the key in. -/
def idempotencyStateOf : AppOutcome → IdempotencyState
  | .success => .completed
  | .unknown => .unknown
  | _ => .failed

/-- `_complete_idempotency`. -/
def completeIdempotency (host : Host) (key receiptId : String) (outcome : AppOutcome) :
    Proc Unit := do
  let at_ ← now host
  let existing ← IdempotencyRepository.get key
  IdempotencyRepository.save
    { key := key
      receiptId := some receiptId
      state := idempotencyStateOf outcome
      outcome := some outcome
      createdAt := existing.elim at_ (·.createdAt)
      updatedAt := at_ }

/-- A step that is only there for contracts with a key. -/
def whenKeyed (key : Option String) (body : String → Proc Unit) : Proc Unit :=
  match key with
  | none => pure ()
  | some key => body key

/-- `probe_environment`: it reads the clock and the working directory. -/
def probeEnvironment (host : Host) : Proc Unit := do
  let _ ← now host
  let probes ← probe host
  let _ ← Program.ofExcept probes.getcwd

/-- Resolve the target, verify it once, evaluate the scope. -/
def admitTarget (host : Host) (contract : ExecutionContract) :
    Proc (ResolvedIdentity × Option ScopeEnforcementReport) := do
  let probes ← probe host
  let resolved ← Program.ofExcept (IdentityResolver.resolve host.py probes
    (effectiveRequestedTarget contract) contract.identityRequirements)
  let _ ← Program.ofExcept (IdentityRevalidator.verify host.py probes resolved
    contract.identityRequirements "pre_receipt")
  match contract.scope with
  | none => pure (resolved, none)
  | some scope =>
    let report ← Program.ofExcept (evaluateScope host.py scope contract)
    pure (resolved, some report)

/-! ## Receipt, attempt and invocation -/

def newReceipt (contract : ExecutionContract) (adapterName receiptId : String) (at_ : Time) :
    ExecutionReceipt :=
  { id := receiptId
    contractId := contract.contractId
    authorizationId := contract.authorizationId
    capability := contract.capability
    operation := contract.operation
    target := contract.target
    state := .created
    createdAt := at_
    adapterName := some adapterName
    metadata := contract.metadata }

def newAttempt (adapterName receiptId attemptId : String) (at_ : Time) : ExecutionAttempt :=
  { id := attemptId
    receiptId := receiptId
    attemptNumber := 1
    state := .created
    createdAt := at_
    adapterName := some adapterName }

/-- The transaction that makes the intent durable. -/
def writeIntent (host : Host) (receipt : ExecutionReceipt) (attempt : ExecutionAttempt)
    (key : Option String) : Proc Unit := do
  ReceiptRepository.save receipt
  ReceiptRepository.save { receipt with state := .attempting }
  AttemptRepository.save attempt
  whenKeyed key fun key => bindIdempotencyReceipt host key receipt.id

/-- Commit the intent, and check that the receipt is there. -/
def commitIntent (host : Host) (receipt : ExecutionReceipt) (attempt : ExecutionAttempt)
    (key : Option String) : Proc (ExecutionReceipt × ExecutionAttempt) := do
  withUow (writeIntent host receipt attempt key)
  match ← ReceiptRepository.get receipt.id with
  | none => throw (.receiptRequired receipt.contractId)
  | some _ => pure ({ receipt with state := .attempting }, attempt)

def openReceipt (host : Host) (contract : ExecutionContract) (adapterName : String)
    (key : Option String) : Proc (ExecutionReceipt × ExecutionAttempt) := do
  let at_ ← now host
  let receiptId ← newId host
  let attemptId ← newId host
  commitIntent host (newReceipt contract adapterName receiptId at_)
    (newAttempt adapterName receiptId attemptId at_) key

/-- The contract the adapter receives. -/
def withContext (host : Host) (contract : ExecutionContract) (verified : VerifiedIdentity) :
    Option ScopeEnforcementReport → ExecutionContract
  | none => contract
  | some report =>
    match contract.scope with
    | none => contract
    | some scope =>
      { contract with
        adapterContext := some ⟨verified, scope, report⟩
        metadata := contract.metadata.set "environment" (.str host.platform) }

/-- Revalidate, then mark the attempt INVOKED in a transaction of its own. -/
def markInvoked (host : Host) (contract : ExecutionContract) (resolved : ResolvedIdentity)
    (attempt : ExecutionAttempt) : Proc (VerifiedIdentity × ExecutionAttempt) := do
  let probes ← probe host
  let verified ← Program.ofExcept (IdentityRevalidator.verify host.py probes resolved
    contract.identityRequirements "pre_invoke")
  let at_ ← now host
  let attempt := { attempt with state := .invoked, invokedAt := some at_ }
  withUow (AttemptRepository.save attempt)
  pure (verified, attempt)

/-- `_definite_no_effect_errors`. -/
def definiteNoEffect : Err → Bool
  | .noSideEffect _ => true
  | .securityViolation .. => true
  | _ => false

/-- `_SIDE_EFFECT_FREE_OPERATIONS`. -/
def sideEffectFreeOperations : List String :=
  ["filesystem.read", "filesystem.inspect", "application.inspect"]

/-- The evidence the supervisor writes for an adapter that raised. -/
def raisedEvidence (adapterName receiptId attemptId : String) (sideEffectPossible : Bool)
    (e : Err) : Dict :=
  [("receipt_id", .str receiptId), ("attempt_id", .str attemptId), ("adapter", .str adapterName),
    ("side_effect_possible", .bool sideEffectPossible), ("exception_type", .str e.typeName)]

/-- The result the supervisor gives an adapter that raised: a definite failure only where nothing
can have happened. -/
def resultOfError (host : Host) (operation adapterName receiptId attemptId : String) (e : Err) :
    AdapterResult :=
  if definiteNoEffect e then
    { outcome := .failure
      error := some ("adapter rejected before any side effect: " ++ host.errText e)
      evidence := raisedEvidence adapterName receiptId attemptId false e }
  else
    let effectFree : Bool := operation ∈ sideEffectFreeOperations
    { outcome := if effectFree then .failure else .unknown
      error := some ("adapter raised: " ++ host.errText e)
      evidence := raisedEvidence adapterName receiptId attemptId (!effectFree) e }

/-- `adapter.invoke` with the two `except` clauses around it. -/
def invokeAdapter (host : Host) (adapter : Adapter) (contract : ExecutionContract)
    (receipt : ExecutionReceipt) (attempt : ExecutionAttempt) (key : Option String) :
    Proc AdapterResult := do
  note (.adapterCalled receipt.id attempt.id key)
  let outcome ← (adapter.invoke contract receipt attempt).attempt
  note (.adapterReturned attempt.id outcome)
  match outcome with
  | .ok result => pure result
  | .error e =>
    if e.isException then
      pure (resultOfError host contract.operation adapter.name receipt.id attempt.id e)
    else throw e

/-! ## Verification and finalization -/

/-- Evidence of the result, and its verification. -/
def judge (host : Host) (operation receiptId attemptId : String) (result : AdapterResult) :
    Proc (EvidenceRecord × AppVerificationRecord) := do
  let observedAt ← now host
  let evidenceId ← newId host
  let evidence ← Program.ofExcept
    (evidenceFromAdapter host.py evidenceId receiptId attemptId operation result observedAt)
  let verificationId ← newId host
  let verification ← Program.ofExcept (evaluateVerification verificationId receiptId attemptId
    (policyForOperation operation) result evidence observedAt)
  pure (evidence, verification)

/-- The adapter's result under the verified outcome. -/
def settledResult (result : AdapterResult) (verification : AppVerificationRecord) : AdapterResult :=
  if verification.result = result.outcome then result
  else
    { outcome := verification.result
      evidence := result.evidence
      error := some (match result.error with
        | some text => if text = "" then verification.explanation else text
        | none => verification.explanation) }

def finalizedAttempt (attempt : ExecutionAttempt) (result : AdapterResult) (at_ : Time) :
    ExecutionAttempt :=
  { attempt with
    state := .finalized
    finalizedAt := some at_
    outcome := some result.outcome
    error := result.error
    evidence := result.evidence }

def finalizedReceipt (receipt : ExecutionReceipt) (outcome : AppOutcome) (at_ : Time) :
    ExecutionReceipt :=
  { receipt with state := .finalized, finalizedAt := some at_, outcome := some outcome }

/-- INTERNAL: finalizing keeps the attempt's identifier. -/
@[simp] theorem finalizedAttempt_id (attempt : ExecutionAttempt) (result : AdapterResult)
    (at_ : Time) : (finalizedAttempt attempt result at_).id = attempt.id := rfl

/-- INTERNAL: and the receipt's. -/
@[simp] theorem finalizedReceipt_id (receipt : ExecutionReceipt) (outcome : AppOutcome)
    (at_ : Time) : (finalizedReceipt receipt outcome at_).id = receipt.id := rfl

/-- The transaction that finalizes an execution. -/
def writeOutcome (host : Host) (attempt : ExecutionAttempt) (receipt : ExecutionReceipt)
    (evidence : EvidenceRecord) (verification : AppVerificationRecord) (key : Option String)
    (outcome : AppOutcome) : Proc Unit := do
  AttemptRepository.save attempt
  ReceiptRepository.save receipt
  EvidenceRepository.save evidence
  AppVerificationRepository.save verification
  whenKeyed key fun key => completeIdempotency host key receipt.id outcome

/-- What follows the adapter call. -/
def finalize (host : Host) (operation : String) (receipt : ExecutionReceipt)
    (attempt : ExecutionAttempt) (key : Option String) (result : AdapterResult) :
    Proc SupervisionResult := do
  let (evidence, verification) ← judge host operation receipt.id attempt.id result
  let result := settledResult result verification
  let at_ ← now host
  let attempt := finalizedAttempt attempt result at_
  let receipt := finalizedReceipt receipt verification.result at_
  withUow (writeOutcome host attempt receipt evidence verification key verification.result)
  pure { receipt := receipt
         attempt := attempt
         adapterResult := result
         evidenceId := evidence.id
         verification := verification }

/-- What follows a committed receipt. -/
def carryOut (host : Host) (adapter : Adapter) (contract : ExecutionContract)
    (resolved : ResolvedIdentity) (report : Option ScopeEnforcementReport)
    (receipt : ExecutionReceipt) (attempt : ExecutionAttempt) (key : Option String) :
    Proc SupervisionResult := do
  let (verified, attempt) ← markInvoked host contract resolved attempt
  let result ←
    invokeAdapter host adapter (withContext host contract verified report) receipt attempt key
  finalize host contract.operation receipt attempt key result

def execute (sup : ExecutionSupervisor) (host : Host) (contract : ExecutionContract) :
    Proc SupervisionResult := do
  validate host contract
  let adapter ← Program.ofExcept (sup.selectAdapter host.py contract)
  let key := idempotencyKey host.py contract
  whenKeyed key (reserveIdempotency host)
  probeEnvironment host
  let (resolved, report) ← admitTarget host contract
  let (receipt, attempt) ← openReceipt host contract adapter.name key
  carryOut host adapter contract resolved report receipt attempt key

/-! ## Reconciliation -/

/-- `attempts[-1] if attempts else None`. -/
def lastAttempt (t : Tables) (receiptId : String) : Option ExecutionAttempt :=
  (AttemptRepository.ofTables t receiptId).getLast?

/-- The evidence of an attempt, with what the reconciler saw. -/
def mergedEvidence (evidence : Dict) (observation : ReconcileObservation) : Dict :=
  if observation.evidence.isEmpty then evidence
  else ((evidence.update observation.evidence).set "reconcile_detail" (.str observation.detail)).set
    "side_effect_detected" (.bool observation.sideEffectDetected)

/-- The attempt after reconciliation; a finalized one stays as it is. -/
def reconciledAttempt (attempt : ExecutionAttempt) (observation : ReconcileObservation)
    (at_ : Time) : ExecutionAttempt :=
  if attempt.state = .finalized then attempt
  else
    { attempt with
      state := .finalized
      finalizedAt := some at_
      outcome := some observation.outcome
      error := some ("reconciled: " ++ observation.detail)
      evidence := mergedEvidence attempt.evidence observation }

/-- INTERNAL: so does reconciling. -/
@[simp] theorem reconciledAttempt_id (attempt : ExecutionAttempt) (observation : ReconcileObservation)
    (at_ : Time) : (reconciledAttempt attempt observation at_).id = attempt.id := by
  unfold reconciledAttempt
  split <;> rfl

def incidentOf (receiptId : String) (attempt : Option ExecutionAttempt) (reason : StuckReason)
    (observation : ReconcileObservation) (at_ : Time) (incidentId fenceToken : String) :
    RecoveryIncident :=
  { id := incidentId
    receiptId := receiptId
    attemptId := attempt.map (·.id)
    status := if observation.outcome = .unknown then .quarantined else .resolved
    reason := reason.value
    createdAt := at_
    updatedAt := at_
    resolution := some
      ("finalized_as_" ++ observation.outcome.value ++ ":" ++ observation.detail)
    fenceToken := some fenceToken }

/-- `if attempt is not None: self._attempts.save(attempt)`. -/
def saveAttempt : Option ExecutionAttempt → Proc Unit
  | none => pure ()
  | some attempt => AttemptRepository.save attempt

/-- The transaction that finalizes a stuck execution. It does not touch `app_idempotency`. -/
def writeReconciliation (attempt : Option ExecutionAttempt) (receipt : ExecutionReceipt)
    (incident : RecoveryIncident) : Proc Unit := do
  saveAttempt attempt
  ReceiptRepository.save receipt
  RecoveryRepository.saveIncident incident

/-- The stuck branch of `reconcile_receipt`. -/
def settleStuck (sup : ExecutionSupervisor) (host : Host) (receipt : ExecutionReceipt)
    (attempt : Option ExecutionAttempt) (reason : StuckReason) : Proc ReconciliationResult := do
  let probes ← probe host
  let observation ←
    Program.ofExcept (sup.reconcilers.observe host.py probes receipt attempt reason)
  let at_ ← now host
  let attempt := attempt.map fun a => reconciledAttempt a observation at_
  let receipt := finalizedReceipt receipt observation.outcome at_
  let incidentId ← newId host
  let fenceToken ← newId host
  let incident := incidentOf receipt.id attempt reason observation at_ incidentId fenceToken
  withUow (writeReconciliation attempt receipt incident)
  pure { receipt := receipt
         attempt := attempt
         incident := some incident
         outcome := observation.outcome
         detail := observation.detail }

def reconcileReceipt (sup : ExecutionSupervisor) (host : Host) (receiptId : String) :
    Proc ReconciliationResult := do
  match ← ReceiptRepository.get receiptId with
  | none =>
    throw (.contractValidation ("unknown receipt " ++ host.py.reprOf (.str receiptId)))
  | some receipt =>
    let attempt ← query (lastAttempt · receiptId)
    match classifyStuckAttempt receipt attempt with
    | none =>
      pure { receipt := receipt
             attempt := attempt
             incident := none
             outcome := receipt.outcome.getD .success
             detail := "nothing_to_reconcile" }
    | some reason => settleStuck sup host receipt attempt reason

/-- `reconcile_receipt` for each receipt of a list. -/
def reconcileAll (sup : ExecutionSupervisor) (host : Host) :
    List ExecutionReceipt → Proc (List ReconciliationResult)
  | [] => pure []
  | receipt :: rest => do
      let result ← reconcileReceipt sup host receipt.id
      let results ← reconcileAll sup host rest
      pure (result :: results)

def reconcileStuck (sup : ExecutionSupervisor) (host : Host) : Proc (List ReconciliationResult) := do
  let receipts ← ReceiptRepository.listUnfinalized
  reconcileAll sup host receipts

end ExecutionSupervisor

end Shea.Model
