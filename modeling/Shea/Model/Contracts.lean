import Shea.Model.Values

/-!
# The records of the runtime

The enumerations and the records of `contracts/enums.py` and `contracts/models.py` that the
services read and write. A `datetime` is an instant, in microseconds; the runtime only ever
handles aware UTC datetimes, and `isoformat`/`fromisoformat` give an instant back unchanged.
-/

set_option autoImplicit false

namespace Shea.Model

/-- An instant, in microseconds. -/
abbrev Time := ℤ

/-- `timedelta(hours=1)`. -/
def oneHour : Time := 3600 * 1000000

/-- Task lifecycle states. -/
inductive TaskState
  | created
  | planning
  | ready
  | running
  | verifying
  | completed
  | failed
  | cancelled
  | blocked
  | recovering
  | stabilizing
  | securityHalt
  deriving DecidableEq, Repr, Inhabited

/-- The text stored for a state. -/
def TaskState.value : TaskState → String
  | created => "CREATED"
  | planning => "PLANNING"
  | ready => "READY"
  | running => "RUNNING"
  | verifying => "VERIFYING"
  | completed => "COMPLETED"
  | failed => "FAILED"
  | cancelled => "CANCELLED"
  | blocked => "BLOCKED"
  | recovering => "RECOVERING"
  | stabilizing => "STABILIZING"
  | securityHalt => "SECURITY_HALT"

inductive RiskLevel
  | safe
  | low
  | medium
  | high
  | critical
  | unknown
  deriving DecidableEq, Repr

def RiskLevel.value : RiskLevel → String
  | safe => "SAFE"
  | low => "LOW"
  | medium => "MEDIUM"
  | high => "HIGH"
  | critical => "CRITICAL"
  | unknown => "UNKNOWN"

/-- `UNKNOWN` is not a synonym for `FAILURE`: whether the side effect happened is not known. -/
inductive ExecutionOutcome
  | success
  | failure
  | unknown
  deriving DecidableEq, Repr

def ExecutionOutcome.value : ExecutionOutcome → String
  | success => "SUCCESS"
  | failure => "FAILURE"
  | unknown => "UNKNOWN"

/-- `outcome.value.lower()`. -/
def ExecutionOutcome.lowerValue : ExecutionOutcome → String
  | success => "success"
  | failure => "failure"
  | unknown => "unknown"

inductive PolicyVerdict
  | allowed
  | requiresAuthorization
  | denied
  deriving DecidableEq, Repr

def PolicyVerdict.value : PolicyVerdict → String
  | allowed => "ALLOWED"
  | requiresAuthorization => "REQUIRES_AUTHORIZATION"
  | denied => "DENIED"

/-- The unit of work the orchestrator moves through its lifecycle. -/
structure Task where
  id : String
  sessionId : String
  requestId : String
  state : TaskState
  createdAt : Time
  updatedAt : Time
  planId : Option String := none
  profileSnapshot : Option Dict := none
  deriving DecidableEq, Repr

/-- One operation of a plan. -/
structure PlanStep where
  id : String
  planId : String
  order : ℕ
  description : String
  tool : String
  arguments : Dict := []
  state : String := "PENDING"
  dependsOn : List String := []
  deriving DecidableEq, Repr

structure Plan where
  id : String
  taskId : String
  objective : String
  assumptions : List String := []
  steps : List PlanStep := []
  risk : Option RiskLevel := none
  result : Option String := none
  deriving DecidableEq, Repr

structure RiskAssessment where
  id : String
  taskId : String
  level : RiskLevel
  factors : List String := []
  explanation : String := ""
  deriving DecidableEq, Repr

structure Decision where
  id : String
  taskId : String
  recommendation : String
  risk : RiskLevel
  requiresAuthorization : Bool
  requiresExplicitAcknowledgement : Bool := false
  override : Bool := false
  capabilities : List String := []
  deriving DecidableEq, Repr

structure Authorization where
  id : String
  taskId : String
  granted : Bool
  grantedBy : String
  profileId : String := "system"
  explicit : Bool := true
  planHash : Option String := none
  stepHash : Option String := none
  argumentsHash : Option String := none
  expiresAt : Option Time := none
  usedAt : Option Time := none
  nonce : Option String := none
  deriving DecidableEq, Repr

/-- An audit record, with the chain fields the sink fills in. -/
structure AuditEvent where
  eventId : String
  requestId : Option String
  taskId : Option String
  timestamp : Time
  actor : String
  component : String
  eventType : String
  action : String
  result : String
  metadata : Dict := []
  sequenceNumber : ℕ := 0
  prevHash : String := ""
  eventHash : String := ""
  deriving DecidableEq, Repr

structure ToolRequest where
  requestId : String
  tool : String
  action : String
  arguments : Dict := []
  context : Dict := []
  /-- `tool` is a text. The runner takes the tool of a compensation from a plan as it is; where that is
  another value, `tool` is its `str()`, and no tool is registered under it. -/
  toolIsText : Bool := true
  deriving DecidableEq, Repr

structure ToolResponse where
  success : Bool
  data : Value := .none
  error : Option String := none
  metadata : Dict := []
  deriving DecidableEq, Repr

/-- The persisted fact of one tool invocation. -/
structure ToolExecutionRecord where
  id : String
  taskId : String
  tool : String
  action : String
  outcome : ExecutionOutcome
  success : Bool
  data : Value := .none
  error : Option String := none
  attemptNumber : ℕ := 1
  idempotencyKey : Option String := none
  metadata : Value := .dict []
  deriving DecidableEq, Repr

structure VerificationRecord where
  id : String
  taskId : String
  verified : Bool
  method : String
  explanation : String := ""
  sideEffectDetected : Bool := false
  retrySafe : Bool := false
  deriving DecidableEq, Repr

structure RecoveryAttempt where
  id : String
  taskId : String
  attemptNumber : ℕ
  resolved : Bool := false
  recovered : Option Bool := none
  method : String := ""
  explanation : String := ""
  delaySeconds : PyFloat := .finite 0 0
  deriving DecidableEq, Repr

structure Session where
  id : String
  actor : String
  createdAt : Time
  lastActiveAt : Time
  deriving DecidableEq, Repr

/-- What a user asked, independent of any task. -/
structure Request where
  requestId : String
  sessionId : String
  actor : String
  input : String
  source : String
  createdAt : Time
  profileId : String := "system"
  response : Option String := none
  deriving DecidableEq, Repr

structure Intent where
  id : String
  requestId : String
  type : String
  goal : String
  parameters : Dict := []
  confidence : PyFloat := .finite 0 0
  source : String := ""
  createdAt : Option Time := none
  deriving DecidableEq, Repr

end Shea.Model
