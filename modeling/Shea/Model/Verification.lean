import Shea.Model.Orchestrator

/-!
# Verification

`verification/verifier.py` and `service.py`. A verifier is a parameter; the registry falls back on
the tool's own report.
-/

set_option autoImplicit false

namespace Shea.Model

open Shea.Computation

structure VerificationOutcome where
  verified : Bool
  method : String
  explanation : String
  deriving DecidableEq, Repr

/-- What a verifier says about a task and a record at an instant. -/
abbrev Verifier := Task → ToolExecutionRecord → ℕ → Except Err VerificationOutcome

def defaultVerifier (py : Stdlib) : Verifier := fun _ record _ =>
  if record.outcome = .success ∧ record.success then
    .ok { verified := true
          method := "execution_report"
          explanation := "Tool reported success; no independent verifier is registered for " ++
            py.reprOf (.str record.tool) ++ ", so the execution report is trusted as-is." }
  else
    .ok { verified := false
          method := "execution_report"
          explanation := "Tool " ++ py.reprOf (.str record.tool) ++ " did not report success." }

/-- The verifiers by tool; a later registration replaces an earlier one. -/
structure VerifierRegistry where
  verifiers : List (String × Verifier) := []

def VerifierRegistry.get (registry : VerifierRegistry) (py : Stdlib) (tool : String) : Verifier :=
  (registry.verifiers.reverse.lookup tool).getD (defaultVerifier py)

structure VerificationResult where
  verification : VerificationRecord
  task : Task
  deriving DecidableEq, Repr

structure VerificationService where
  verifiers : VerifierRegistry := {}

namespace VerificationService

/-- The audit entry of a verification. -/
def entry (task : Task) (tool : String) (outcome : VerificationOutcome) : AuditEntry :=
  { actor := "verification_service"
    component := "verification.engine"
    eventType := if outcome.verified then "verification.verified" else "verification.failed"
    action := "verify"
    result := if outcome.verified then "verified" else "not_verified"
    requestId := some task.requestId
    taskId := some task.id
    metadata := [("method", .str outcome.method), ("tool", .str tool)] }

/-- The event a verification moves the task by. -/
def eventOf (verified moreSteps : Bool) : String :=
  if !verified then "verification_failed" else if moreSteps then "step_verified" else "verified"

def recordOf (task : Task) (outcome : VerificationOutcome) (recordId : String) :
    VerificationRecord :=
  { id := recordId
    taskId := task.id
    verified := outcome.verified
    method := outcome.method
    explanation := outcome.explanation }

/-- The statements of the transaction that records a verification. -/
def writeVerification (host : Host) (task : Task) (tool : String) (outcome : VerificationOutcome)
    (verification : VerificationRecord) (moreSteps : Bool) : Proc Task := do
  VerificationRepository.save verification
  audit host (entry task tool outcome)
  Orchestrator.advance host task.id (eventOf outcome.verified moreSteps)

/-- From the record to the verdict on it. -/
def judge (service : VerificationService) (host : Host) (task : Task) (record : ToolExecutionRecord)
    (moreSteps : Bool) : Proc VerificationResult := do
  let instant ← Program.get World.ticks
  let outcome ← Program.ofExcept (service.verifiers.get host.py record.tool task record instant)
  let recordId ← newId host
  let verification := recordOf task outcome recordId
  let advanced ←
    withUow (writeVerification host task record.tool outcome verification moreSteps)
  pure { verification := verification, task := advanced }

/-- The record to verify is the newest of the task. -/
def verifyLatest (service : VerificationService) (host : Host) (task : Task) (moreSteps : Bool) :
    Proc VerificationResult := do
  match ← ToolExecutionRepository.getLatestByTask task.id with
  | none => throw (.missingExecutionRecord task.id)
  | some record => service.judge host task record moreSteps

def verify (service : VerificationService) (host : Host) (task : Task) (moreSteps : Bool := false) :
    Proc VerificationResult :=
  if task.state = .verifying then service.verifyLatest host task moreSteps
  else throw (.taskNotVerifying task.id task.state)

end VerificationService

end Shea.Model
