import Shea.Model.Contracts

/-!
# The records of the app plane

Contracts, receipts, attempts and the scopes they are run under: `app/contracts.py`,
`app/enums.py`, `app/identities.py`, `app/scopes.py`, `app/evidence.py`, `app/idempotency.py`,
`app/recovery.py` and `app/verification.py`.
-/

set_option autoImplicit false

namespace Shea.Model

inductive AppOutcome
  | success
  | failure
  | unknown
  | cancelled
  deriving DecidableEq, Repr, Inhabited

def AppOutcome.value : AppOutcome → String
  | success => "SUCCESS"
  | failure => "FAILURE"
  | unknown => "UNKNOWN"
  | cancelled => "CANCELLED"

inductive ReceiptState
  | created
  | attempting
  | finalized
  deriving DecidableEq, Repr

inductive AttemptState
  | created
  | invoked
  | finalized
  deriving DecidableEq, Repr

inductive EvidenceStrength
  | direct
  | derived
  | inferred
  deriving DecidableEq, Repr

inductive IdempotencyState
  | inProgress
  | completed
  | failed
  | unknown
  | expired
  | conflict
  deriving DecidableEq, Repr

inductive RecoveryStatus
  | opened
  | reconciling
  | resolved
  | quarantined
  deriving DecidableEq, Repr

/-! ## Identities -/

/-- How strongly a target must be bound before the adapter runs. -/
inductive IdentityAssurance
  | basic
  | strict
  | integrity
  | highAssurance
  deriving DecidableEq, Repr

inductive IdentityKind
  | path
  | process
  | host
  | url
  | application
  | opaqueKind
  deriving DecidableEq, Repr

def IdentityKind.value : IdentityKind → String
  | path => "PATH"
  | process => "PROCESS"
  | host => "HOST"
  | url => "URL"
  | application => "APPLICATION"
  | opaqueKind => "OPAQUE"

/-- What the contract asked for. -/
structure RequestedTarget where
  kind : IdentityKind
  value : String
  attributes : Dict := []
  deriving DecidableEq, Repr

structure IdentityRequirements where
  assurance : IdentityAssurance := .basic
  requireRevalidationBeforeInvoke : Bool := true
  allowedKinds : List IdentityKind := [.path, .process, .host, .url, .application, .opaqueKind]
  deriving DecidableEq, Repr

/-- The target after resolution, before the assurance checks. -/
structure ResolvedIdentity where
  kind : IdentityKind
  canonicalValue : String
  requestedValue : String
  attributes : Dict := []
  deriving DecidableEq, Repr

/-- Resolved, and checked at the required assurance. -/
structure VerifiedIdentity where
  identity : ResolvedIdentity
  assurance : IdentityAssurance
  verified : Bool
  method : String
  detail : String := ""
  deriving DecidableEq, Repr

/-! ## Scopes -/

inductive EnforcementStatus
  | enforced
  | partiallyEnforced
  | unsupported
  | notRequested
  deriving DecidableEq, Repr

structure FilesystemScope where
  allowedRoots : List String := []
  readOnly : Bool := false
  writeOnly : Bool := false
  deriving DecidableEq, Repr

structure NetworkScope where
  allowedHosts : Option (List String) := none
  blockPrivate : Bool := true
  pinnedSpkiSha256 : List String := []
  allowProxy : Bool := false
  proxyUrl : Option String := none
  destinationCredentials : List (String × String) := []
  deriving DecidableEq, Repr

structure ProcessScope where
  allowedExecutables : List String := []
  allowShell : Bool := false
  inheritEnviron : Bool := false
  maxArgvLen : ℕ := 64
  deriving DecidableEq, Repr

structure ResourceLimits where
  wallTimeMs : Option ℕ := some 30000
  memoryBytes : Option ℕ := none
  outputBytes : Option ℕ := some 1000000
  processCount : Option ℕ := some 1
  deriving DecidableEq, Repr

structure IsolationPolicy where
  requireNewSession : Bool := false
  requireCgroup : Bool := false
  deriving DecidableEq, Repr

/-- Empty allowlists fail closed: nothing may be launched or terminated. -/
structure ApplicationScope where
  allowedExecutables : List String := []
  allowedDesktopIds : List String := []
  allowedBundleIds : List String := []
  allowedAppNames : List String := []
  allowXdgOpen : Bool := false
  allowTerminate : Bool := false
  deriving DecidableEq, Repr

structure ExecutionScope where
  scopeId : String
  filesystem : FilesystemScope := {}
  network : NetworkScope := {}
  process : ProcessScope := {}
  application : ApplicationScope := {}
  resources : ResourceLimits := {}
  isolation : IsolationPolicy := {}
  deriving DecidableEq, Repr

/-- What could be enforced of a scope, limit by limit. -/
structure ScopeEnforcementReport where
  scopeId : String
  limits : List (String × EnforcementStatus)
  isolation : List (String × EnforcementStatus)
  filesystem : List (String × EnforcementStatus)
  process : List (String × EnforcementStatus) := []
  network : List (String × EnforcementStatus) := []
  application : List (String × EnforcementStatus) := []
  acceptable : Bool := true
  detail : String := ""
  deriving DecidableEq, Repr

/-- What an adapter is told beside the contract, under the metadata key `_adapter_context`. -/
structure AdapterContext where
  verifiedIdentity : VerifiedIdentity
  scope : ExecutionScope
  enforcement : ScopeEnforcementReport
  deriving DecidableEq, Repr

/-! ## Contracts, receipts, attempts -/

/-- Authorized work delivered to the app plane. The context an adapter receives is a Python object
inside `metadata`; it is never written to the database and has a field of its own here. -/
structure ExecutionContract where
  contractId : String
  authorizationId : String
  capability : String
  operation : String
  target : String
  arguments : Dict := []
  contractHash : Option String := none
  expiresAt : Option Time := none
  metadata : Dict := []
  requestedTarget : Option RequestedTarget := none
  identityRequirements : IdentityRequirements := {}
  scope : Option ExecutionScope := none
  adapterContext : Option AdapterContext := none
  deriving DecidableEq, Repr

/-- The durable intent to execute, which must exist before an adapter is invoked. -/
structure ExecutionReceipt where
  id : String
  contractId : String
  authorizationId : String
  capability : String
  operation : String
  target : String
  state : ReceiptState
  createdAt : Time
  finalizedAt : Option Time := none
  outcome : Option AppOutcome := none
  adapterName : Option String := none
  metadata : Dict := []
  deriving DecidableEq, Repr

/-- One physical invocation under a receipt. -/
structure ExecutionAttempt where
  id : String
  receiptId : String
  attemptNumber : ℕ
  state : AttemptState
  createdAt : Time
  invokedAt : Option Time := none
  finalizedAt : Option Time := none
  outcome : Option AppOutcome := none
  adapterName : Option String := none
  error : Option String := none
  evidence : Dict := []
  deriving DecidableEq, Repr

/-- What an adapter reports. -/
structure AdapterResult where
  outcome : AppOutcome
  evidence : Dict := []
  error : Option String := none
  deriving DecidableEq, Repr

def effectiveRequestedTarget (contract : ExecutionContract) : RequestedTarget :=
  contract.requestedTarget.getD { kind := .opaqueKind, value := contract.target }

structure EvidenceRecord where
  id : String
  receiptId : String
  attemptId : Option String
  kind : String
  source : String
  strength : EvidenceStrength
  observedAt : Time
  contentHash : String
  payload : Dict := []
  sensitivity : String := "normal"
  deriving DecidableEq, Repr

structure VerificationPolicy where
  policyId : String
  postconditions : List String := []
  requiredEvidenceKinds : List String := []
  minimumStrength : EvidenceStrength := .direct
  missingEvidenceOutcome : AppOutcome := .failure
  requiresTransportVerification : Bool := false
  contradictionBehavior : String := "fail"
  deriving DecidableEq, Repr

structure AppVerificationRecord where
  id : String
  receiptId : String
  attemptId : String
  policyId : String
  expectedPostconditions : List String
  evidenceIds : List String
  result : AppOutcome
  explanation : String
  verifiedAt : Time
  deriving DecidableEq, Repr

structure IdempotencyRecord where
  key : String
  receiptId : Option String
  state : IdempotencyState
  outcome : Option AppOutcome
  createdAt : Time
  updatedAt : Time
  deriving DecidableEq, Repr

structure RecoveryIncident where
  id : String
  receiptId : String
  attemptId : Option String
  status : RecoveryStatus
  reason : String
  createdAt : Time
  updatedAt : Time
  resolution : Option String := none
  fenceToken : Option String := none
  deriving DecidableEq, Repr

end Shea.Model
