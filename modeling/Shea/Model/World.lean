import Shea.Computation.Program
import Shea.Computation.Table
import Shea.Model.AppContracts

/-!
# The state the services share

All repositories share one SQLite connection and one `SqliteUnitOfWork`. `World` is that shared
state, with the supplies of identifiers and of clock readings, and a log of what left the
process: adapter and handler calls and published events. The log is not part of the program; it
is how properties of whole runs are stated.

* `working` is what the connection reads: the committed rows and the open transaction's writes.
* `committed` is what survives a crash.
* `depth` is the nesting depth of the unit of work. Only the exit that brings it back to zero
  commits (after a clean exit) or rolls back (after an exception).
-/

set_option autoImplicit false

namespace Shea.Model

open Shea.Computation

/-- The exceptions the services raise, catch or let through. `baseException` is one that is not an
`Exception` (`SystemExit`, `KeyboardInterrupt`, …), which no `except Exception` clause catches. -/
inductive Err
  | contractValidation (reason : String)
  | receiptRequired (contractId : String)
  | noSideEffect (message : String)
  | securityViolation (tool category reason : String)
  | taskNotFound (taskId : String)
  | illegalTransition (current : TaskState) (event : String)
  | taskNotRunning (taskId : String) (actual : TaskState)
  | taskNotRunningForSecurityCheck (taskId : String) (actual : TaskState)
  | taskNotVerifying (taskId : String) (actual : TaskState)
  | taskNotFailed (taskId : String) (actual : TaskState)
  | taskNotRecovering (taskId : String) (actual : TaskState)
  | taskNotBlocked (taskId : String) (actual : TaskState)
  | missingDecision (taskId : String)
  | missingExecutionRecord (taskId : String)
  | missingRecoveryAttempt (taskId : String)
  | recoveryExhausted (taskId : String) (attemptsMade maxAttempts : ℕ)
  | recoveryAuthority (taskId reason : String)
  | duplicateExecutionSuppressed (taskId tool action key : String) (prior : ExecutionOutcome)
  | capabilityNotAuthorized (tool : String) (missing : List String)
  | toolNotFound (name : String)
  | toolValidation (message : String)
  | unknownOutcome (message : String)
  | authorizationBindingMismatch (taskId kind : String) (expected actual : Option String)
  | authorizationExpired (taskId : String) (expiredAt : Time)
  | authorizationAlreadyUsed (taskId nonce : String)
  | policyDenied (taskId : String) (denied : List String)
  | authorizationRequired (taskId : String) (decision : Decision) (assessment : RiskAssessment)
  | planValidation (planId reason : String)
  | malformedModelOutput (message : String)
  | ambiguousIntent (confidence : PyFloat) (goal : String)
  | integrityError (message : String)
  | processLookup
  | permission
  | osError (message : String)
  | typeError (message : String)
  | valueError (message : String)
  | overflowError (message : String)
  | runtimeError (message : String)
  | other (typeName message : String)
  | baseException (typeName message : String)
  deriving DecidableEq, Repr

/-- `type(exc).__name__`. -/
def Err.typeName : Err → String
  | contractValidation _ => "ContractValidationError"
  | receiptRequired _ => "ReceiptRequiredError"
  | noSideEffect _ => "NoSideEffectError"
  | securityViolation .. => "SecurityViolationError"
  | taskNotFound _ => "TaskNotFoundError"
  | illegalTransition .. => "IllegalTransitionError"
  | taskNotRunning .. => "TaskNotRunningError"
  | taskNotRunningForSecurityCheck .. => "TaskNotRunningForSecurityCheckError"
  | taskNotVerifying .. => "TaskNotVerifyingError"
  | taskNotFailed .. => "TaskNotFailedError"
  | taskNotRecovering .. => "TaskNotRecoveringError"
  | taskNotBlocked .. => "TaskNotBlockedError"
  | missingDecision _ => "MissingDecisionError"
  | missingExecutionRecord _ => "MissingExecutionRecordError"
  | missingRecoveryAttempt _ => "MissingRecoveryAttemptError"
  | recoveryExhausted .. => "RecoveryExhaustedError"
  | recoveryAuthority .. => "RecoveryAuthorityError"
  | duplicateExecutionSuppressed .. => "DuplicateExecutionSuppressedError"
  | capabilityNotAuthorized .. => "CapabilityNotAuthorizedError"
  | toolNotFound _ => "ToolNotFoundError"
  | toolValidation _ => "ToolSchemaValidationError"
  | unknownOutcome _ => "UnknownOutcomeError"
  | authorizationBindingMismatch .. => "AuthorizationBindingMismatchError"
  | authorizationExpired .. => "AuthorizationExpiredError"
  | authorizationAlreadyUsed .. => "AuthorizationAlreadyUsedError"
  | policyDenied .. => "PolicyDeniedError"
  | authorizationRequired .. => "AuthorizationRequiredError"
  | planValidation .. => "PlanValidationError"
  | malformedModelOutput _ => "MalformedModelOutputError"
  | ambiguousIntent .. => "AmbiguousIntentError"
  | integrityError _ => "IntegrityError"
  | processLookup => "ProcessLookupError"
  | permission => "PermissionError"
  | osError _ => "OSError"
  | typeError _ => "TypeError"
  | valueError _ => "ValueError"
  | overflowError _ => "OverflowError"
  | runtimeError _ => "RuntimeError"
  | other typeName _ => typeName
  | baseException typeName _ => typeName

/-- `isinstance(exc, Exception)`. -/
def Err.isException : Err → Bool
  | baseException .. => false
  | _ => true

/-- The tables of the database, each in rowid order. -/
structure Tables where
  tasks : List Task := []
  plans : List Plan := []
  planSteps : List PlanStep := []
  riskAssessments : List RiskAssessment := []
  decisions : List Decision := []
  authorizations : List Authorization := []
  toolExecutions : List ToolExecutionRecord := []
  verifications : List VerificationRecord := []
  recoveryAttempts : List RecoveryAttempt := []
  sessions : List Session := []
  requests : List Request := []
  intents : List Intent := []
  auditEvents : List AuditEvent := []
  receipts : List ExecutionReceipt := []
  attempts : List ExecutionAttempt := []
  evidence : List EvidenceRecord := []
  appVerifications : List AppVerificationRecord := []
  idempotency : List IdempotencyRecord := []
  incidents : List RecoveryIncident := []
  deriving DecidableEq, Repr

/-- An event handed to the event bus. -/
structure Event where
  eventId : String
  eventType : String
  source : String
  timestamp : Time
  payload : Dict
  correlationId : Option String
  deriving DecidableEq, Repr

/-- The call of a tool handler: the request and the capabilities the executor was given, and the
request it delivered to the handler, with the defaults of the argument schema filled in. -/
structure HandlerCall where
  request : ToolRequest
  capabilities : List String
  delivered : ToolRequest
  deriving DecidableEq, Repr

/-- What left the process. -/
inductive Effect
  /-- `adapter.invoke` was entered for an attempt of a receipt, under an idempotency key. -/
  | adapterCalled (receiptId attemptId : String) (key : Option String)
  /-- It came back, normally or with an exception. -/
  | adapterReturned (attemptId : String) (result : Except Err AdapterResult)
  /-- A tool handler was entered. -/
  | handlerCalled (call : HandlerCall)
  /-- The plan runner took up a step. -/
  | stepStarted (taskId stepId : String)
  | published (event : Event)
  deriving DecidableEq

/-- The shared state. -/
structure World where
  working : Tables := {}
  committed : Tables := {}
  depth : ℕ := 0
  nextId : ℕ := 0
  ticks : ℕ := 0
  log : List Effect := []

/-- A service call: a sequential program over the shared state that may raise. -/
abbrev Proc := Program World Err

/-- What the process asks the operating system when it looks at the world without changing it. -/
structure Probes where
  /-- `Path(raw).resolve()`. -/
  resolve : String → Except Err String
  /-- `path.exists()`. -/
  pathExists : String → Except Err Bool
  /-- `path.is_file()`. -/
  isFile : String → Except Err Bool
  /-- `path.is_symlink()`. -/
  isSymlink : String → Except Err Bool
  /-- `str(path.parent)`. -/
  parent : String → String
  /-- `os.path.expanduser(raw)`. -/
  expanduser : String → String
  /-- `os.kill(pid, 0)`. -/
  kill : ℤ → Except Err Unit
  /-- `os.getcwd()`, which `probe_environment` reads. -/
  getcwd : Except Err String

/-- The surroundings of the process: its interpreter, its clock, its source of identifiers, and the
state of the machine at each clock reading. Identifiers are UUIDs and never repeat. -/
structure Host where
  py : Stdlib
  clock : ℕ → Time
  newId : ℕ → String
  newId_injective : Function.Injective newId
  probes : ℕ → Probes
  /-- `sys.platform`. -/
  platform : String := "linux"
  /-- `str(exc)`. -/
  errText : Err → String := fun _ => ""
  /-- `secrets.token_hex(16)`. -/
  tokenHex : ℕ → String := fun _ => ""

/-! ## Clock, identifiers, log -/

/-- `id_generator.new_id()`. -/
def newId (host : Host) : Proc String :=
  .act (fun w => host.newId w.nextId) (fun w => { w with nextId := w.nextId + 1 })

/-- `clock.now()`. -/
def now (host : Host) : Proc Time :=
  .act (fun w => host.clock w.ticks) (fun w => { w with ticks := w.ticks + 1 })

/-- Looking at the machine. -/
def probe (host : Host) : Proc Probes := .get fun w => host.probes w.ticks

/-- Something leaves the process. -/
def note (effect : Effect) : Proc Unit := .modify fun w => { w with log := w.log ++ [effect] }

/-! ## The unit of work -/

namespace World

/-- `SqliteUnitOfWork.__enter__`. -/
def enter (w : World) : World := { w with depth := w.depth + 1 }

/-- `SqliteUnitOfWork.__exit__`: only the outermost exit commits or rolls back. -/
def exit (clean : Bool) (w : World) : World :=
  if 0 < w.depth - 1 then { w with depth := w.depth - 1 }
  else if clean then { w with depth := w.depth - 1, committed := w.working }
  else { w with depth := w.depth - 1, working := w.committed }

/-- The process dies and is started again: the open transaction is lost. -/
def restart (w : World) : World := { w with working := w.committed, depth := 0 }

/-- No transaction is open, and the connection reads what is committed. -/
structure Idle (w : World) : Prop where
  depth : w.depth = 0
  working : w.working = w.committed

/-- The state after an outermost block has committed. -/
def commit (w : World) : World := { w with depth := 0, committed := w.working }

/-- The state after an outermost block has rolled back. -/
def rollback (w : World) : World := { w with depth := 0, working := w.committed }

/-- INTERNAL: no block is open after a commit. -/
theorem idle_commit (w : World) : w.commit.Idle := ⟨rfl, rfl⟩

/-- INTERNAL: nor after a rollback. -/
theorem idle_rollback (w : World) : w.rollback.Idle := ⟨rfl, rfl⟩

/-- INTERNAL: nor after a restart. -/
theorem idle_restart (w : World) : w.restart.Idle := ⟨rfl, rfl⟩

end World

/-- `with unit_of_work: body`. -/
def withUow {α : Type} (body : Proc α) : Proc α := do
  Program.modify World.enter
  match ← body.attempt with
  | .ok a =>
    Program.modify (World.exit true)
    pure a
  | .error e =>
    Program.modify (World.exit false)
    throw e

/-- A query on the connection. -/
def query {α : Type} (view : Tables → α) : Proc α := .get fun w => view w.working

/-- One SQL statement that writes. -/
def execute (statement : Tables → Tables) : Proc Unit :=
  .modify fun w => { w with working := statement w.working }

/-- One SQL statement under a constraint: it raises `sqlite3.IntegrityError` and writes nothing
when the constraint fails. -/
def executeChecked (holds : Tables → Bool) (message : String) (statement : Tables → Tables) :
    Proc Unit := do
  if ← Program.act (fun w => holds w.working)
      (fun w => if holds w.working then { w with working := statement w.working } else w) then
    pure ()
  else
    throw (.integrityError message)

end Shea.Model
