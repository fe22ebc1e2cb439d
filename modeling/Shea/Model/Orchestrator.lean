import Shea.Model.Repositories

/-!
# The task lifecycle

`state_machine/transitions.py`, the channels of `events/channels.py` and `core/orchestrator.py`.

`advance` goes through the transition table and audits every attempt. `cancel_task` does neither: it
has its own list of states it leaves alone and assigns CANCELLED to every other one.
-/

set_option autoImplicit false

namespace Shea.Model

open Shea.Computation

/-! ## The state machine -/

/-- `TERMINAL_STATES`. -/
def terminalStates : List TaskState := [.completed, .cancelled, .securityHalt]

/-- `TRANSITIONS`. Terminal states have no entry. -/
def transitions : TaskState → List (String × TaskState)
  | .created => [("start_planning", .planning), ("cancel", .cancelled)]
  | .planning =>
      [("plan_ready", .ready), ("plan_failed", .failed), ("block", .blocked), ("cancel", .cancelled)]
  | .ready => [("authorize_and_run", .running), ("block", .blocked), ("cancel", .cancelled)]
  | .running =>
      [("execution_complete", .verifying), ("execution_failed", .failed),
        ("execution_unknown", .blocked), ("security_halt", .securityHalt), ("cancel", .cancelled)]
  | .verifying =>
      [("verified", .completed), ("step_verified", .ready), ("verification_failed", .failed)]
  | .failed => [("retry", .recovering)]
  | .recovering => [("recovered", .stabilizing), ("recovery_failed", .failed)]
  | .stabilizing => [("stabilized", .ready), ("destabilized", .failed)]
  | .blocked => [("unblock", .ready), ("cancel", .cancelled)]
  | .completed => []
  | .cancelled => []
  | .securityHalt => []

def isTerminal (state : TaskState) : Bool := state ∈ terminalStates

def allowedEvents (state : TaskState) : List String := (transitions state).map Prod.fst

def validateTransition (current : TaskState) (event : String) : Bool :=
  ((transitions current).lookup event).isSome

def nextState (current : TaskState) (event : String) : Except Err TaskState :=
  match (transitions current).lookup event with
  | some state => .ok state
  | none => .error (.illegalTransition current event)

/-! ## Events -/

/-- A channel's `_emit`. Subscribers run inside `publish`; what they raise is caught there. -/
def emit (host : Host) (source eventType : String) (payload : Dict)
    (correlationId : Option String) : Proc Unit := do
  let eventId ← newId host
  let timestamp ← now host
  note (.published
    { eventId := eventId
      eventType := eventType
      source := source
      timestamp := timestamp
      payload := payload
      correlationId := correlationId })

namespace TaskChannel

def created (host : Host) (taskId sessionId requestId : String) : Proc Unit :=
  emit host "orchestrator" "task.created"
    [("task_id", .str taskId), ("session_id", .str sessionId)] (some requestId)

def stateChanged (host : Host) (taskId : String) (fromState toState : TaskState)
    (event requestId : String) : Proc Unit :=
  emit host "orchestrator" "task.state_changed"
    [("task_id", .str taskId), ("from_state", .str fromState.value),
      ("to_state", .str toState.value), ("trigger", .str event)] (some requestId)

def planAttached (host : Host) (taskId planId requestId : String) : Proc Unit :=
  emit host "orchestrator" "task.plan_attached"
    [("task_id", .str taskId), ("plan_id", .str planId)] (some requestId)

end TaskChannel

/-! ## The orchestrator -/

namespace Orchestrator

/-- The audit entries of the orchestrator. -/
def entry (eventType action result : String) (task : Task) (metadata : Dict) : AuditEntry :=
  { actor := "orchestrator"
    component := "core.orchestrator"
    eventType := eventType
    action := action
    result := result
    requestId := some task.requestId
    taskId := some task.id
    metadata := metadata }

/-- The task row and its audit entry, in one transaction. -/
def saveAudited (host : Host) (task : Task) (entry : AuditEntry) : Proc Unit := withUow do
  TaskRepository.save task
  audit host entry

def createTask (host : Host) (sessionId requestId : String) (profileSnapshot : Option Dict) :
    Proc Task := do
  let at_ ← now host
  let taskId ← newId host
  let task : Task :=
    { id := taskId
      sessionId := sessionId
      requestId := requestId
      state := .created
      createdAt := at_
      updatedAt := at_
      profileSnapshot := profileSnapshot }
  saveAudited host task
    (entry "task.created" "create_task" "success" task [("session_id", .str sessionId)])
  TaskChannel.created host task.id sessionId requestId
  pure task

def getTask (taskId : String) : Proc Task := do
  match ← TaskRepository.get taskId with
  | some task => pure task
  | none => throw (.taskNotFound taskId)

/-- The entry of an accepted transition. -/
def transitionEntry (task : Task) (event : String) (fromState toState : TaskState) : AuditEntry :=
  entry "task.transition" event "success" task
    [("from_state", .str fromState.value), ("to_state", .str toState.value)]

/-- The entry of a rejected transition. -/
def rejectionEntry (task : Task) (event : String) : AuditEntry :=
  entry "task.transition.rejected" event "illegal_transition" task
    [("from_state", .str task.state.value)]

/-- The accepted branch of `advance`. -/
def moveTask (host : Host) (task : Task) (event : String) (newState : TaskState) : Proc Task := do
  let at_ ← now host
  let moved := { task with state := newState, updatedAt := at_ }
  saveAudited host moved (transitionEntry moved event task.state newState)
  TaskChannel.stateChanged host task.id task.state newState event task.requestId
  pure moved

def advance (host : Host) (taskId event : String) : Proc Task := do
  let task ← getTask taskId
  match nextState task.state event with
  | .error e => do
    audit host (rejectionEntry task event)
    throw e
  | .ok newState => moveTask host task event newState

def attachPlan (host : Host) (taskId planId : String) : Proc Task := do
  let task ← getTask taskId
  let task := { task with planId := some planId }
  saveAudited host task
    (entry "task.plan_attached" "attach_plan" "success" task [("plan_id", .str planId)])
  TaskChannel.planAttached host task.id planId task.requestId
  pure task

/-- The states `cancel_task` returns from at once. -/
def settledStates : List TaskState := [.completed, .cancelled, .securityHalt, .failed, .blocked]

/-- The row is saved by itself: no transition table, no audit entry. -/
def cancelTask (host : Host) (taskId : String) : Proc Task := do
  let task ← getTask taskId
  if task.state ∈ settledStates then
    pure task
  else do
    let cancelled := { task with state := .cancelled }
    TaskRepository.save cancelled
    TaskChannel.stateChanged host task.id task.state .cancelled "cancelled" task.requestId
    pure cancelled

def listTransientTasks : Proc (List Task) := TaskRepository.listTransientTasks

end Orchestrator

end Shea.Model
