import Shea.Model.Orchestrator
import Shea.Model.Supervisor

/-!
# Startup recovery

`recovery/startup.py`: after a crash the unfinished receipts are reconciled one after the other, and
the task a receipt names is moved on if the crash interrupted it.
-/

set_option autoImplicit false

namespace Shea.Model

open Shea.Computation

/-- The service. Without a receipt repository or a supervisor there is nothing to reconcile with. -/
structure StartupRecoveryService where
  supervisor : Option ExecutionSupervisor := none

namespace StartupRecoveryService

/-- The states a task may be left in by a crash. -/
def recoverableStates : List TaskState := [.recovering, .verifying, .running]

def recover : List String → Proc (List String)
  | [] => pure []
  | taskId :: rest => do
      let task ← TaskRepository.get taskId
      let others ← recover rest
      pure (if task.any (·.state ∈ recoverableStates) then taskId :: others else others)

/-- `receipt.metadata.get("task_id")`, if it is a text. -/
def taskIdOf (receipt : ExecutionReceipt) : Option String :=
  match receipt.metadata.get "task_id" with
  | .str taskId => some taskId
  | _ => none

/-- The event for an outcome. -/
def eventOf (outcome : AppOutcome) : String :=
  if outcome = .unknown then "execution_unknown" else "execution_failed"

/-- The task is moved on if it is RUNNING or VERIFYING; whether it was. -/
def advanceInterrupted (host : Host) (taskId : String) (outcome : AppOutcome) : Proc Bool := do
  match ← TaskRepository.get taskId with
  | none => pure false
  | some task =>
    if task.state = .running ∨ task.state = .verifying then do
      let _ ← Orchestrator.advance host taskId (eventOf outcome)
      pure true
    else pure false

/-- The body of the loop: the id of the task, if it was moved. -/
def reconcileOne (sup : ExecutionSupervisor) (host : Host) (receipt : ExecutionReceipt) :
    Proc (Option String) :=
  match taskIdOf receipt with
  | none => pure none
  | some taskId => do
      let result ← sup.reconcileReceipt host receipt.id
      let moved ← advanceInterrupted host taskId result.outcome
      pure (if moved then some taskId else none)

/-- The loop. -/
def reconcileEach (sup : ExecutionSupervisor) (host : Host) :
    List ExecutionReceipt → Proc (List String)
  | [] => pure []
  | receipt :: rest => do
      let moved ← reconcileOne sup host receipt
      let others ← reconcileEach sup host rest
      pure (moved.toList ++ others)

def reconcileAppReceipts (service : StartupRecoveryService) (host : Host) : Proc (List String) :=
  match service.supervisor with
  | none => pure []
  | some sup => do
      let receipts ← ReceiptRepository.listUnfinalized
      reconcileEach sup host receipts

end StartupRecoveryService

end Shea.Model
