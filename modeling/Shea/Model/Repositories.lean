import Shea.Model.World

/-!
# The SQLite repositories

`persistence/sqlite/*_repository.py` and `audit_sink.py`. Each `save` is one `with self._uow:` block
around its statements, so at depth zero it commits by itself. `ON CONFLICT(id) DO UPDATE SET` lists
the columns a second save replaces; the `merge` functions below list the same columns.

Two things make a save raise: a value that `json.dumps` refuses (`TypeError`, raised before the
statement), and a constraint of the schema (`sqlite3.IntegrityError`): a primary key of a table that
is only inserted into, and the references to `tasks(id)` and `app_receipts(id)`. The reference from
`plan_steps` to `plans` is to a row the same block has just written, and never fails. A row keeps the value
that was saved. The arguments of a plan's steps are read as `json.loads` reads what `json.dumps` wrote of
them; the other columns are read as they were saved. `Shea.Model.Rows` has the texts.
-/

set_option autoImplicit false

namespace Shea.Model

open Shea.Computation

/-- `json.dumps` of a dictionary that goes into a column. -/
def requireSerializable (d : Dict) : Proc Unit :=
  if (Value.dict d).serializable then pure ()
  else throw (.typeError "Object is not JSON serializable")

/-- The task a row refers to is stored. -/
def Tables.hasTask (t : Tables) (taskId : String) : Bool := t.tasks.any (·.id = taskId)

/-- An upsert into a table that references `tasks(id)`. A row that is there keeps its task, so only the task
of a new one is looked up. -/
def executeForTask (known : Tables → Bool) (taskId : String) (statement : Tables → Tables) : Proc Unit :=
  executeChecked (fun t => known t || t.hasTask taskId) "FOREIGN KEY constraint failed" statement

/-- The receipt a row refers to is stored. -/
def Tables.hasReceipt (t : Tables) (receiptId : String) : Bool :=
  Table.has ExecutionReceipt.id t.receipts receiptId

/-- An upsert into a table that references `app_receipts(id)`. -/
def executeForReceipt (known : Tables → Bool) (receiptId : String) (statement : Tables → Tables) : Proc Unit :=
  executeChecked (fun t => known t || t.hasReceipt receiptId) "FOREIGN KEY constraint failed" statement

/-! ## The task plane -/

namespace TaskRepository

def merge (old new : Task) : Task :=
  { old with
    state := new.state
    planId := new.planId
    profileSnapshot := new.profileSnapshot
    updatedAt := new.updatedAt }

/-- A snapshot that is an empty dictionary is stored as `NULL`. -/
def stored (task : Task) : Task :=
  { task with profileSnapshot := task.profileSnapshot.filter (!·.isEmpty) }

def put (task : Task) (t : Tables) : Tables :=
  { t with tasks := Table.upsert Task.id merge (stored task) t.tasks }

def save (task : Task) : Proc Unit := withUow do
  requireSerializable (task.profileSnapshot.getD [])
  execute (put task)

def get (taskId : String) : Proc (Option Task) :=
  query fun t => Table.lookup Task.id t.tasks taskId

/-- `ORDER BY created_at`. -/
def listBySession (sessionId : String) : Proc (List Task) :=
  query fun t => (t.tasks.filter (·.sessionId = sessionId)).insertionSort fun a b => a.createdAt ≤ b.createdAt

/-- The states that need no further step. -/
def stableStates : List TaskState := [.completed, .cancelled, .securityHalt, .failed, .blocked]

def listTransientTasks : Proc (List Task) :=
  query fun t => (t.tasks.filter fun task => task.state ∉ stableStates).insertionSort
    fun a b => a.createdAt ≤ b.createdAt

end TaskRepository

namespace PlanRepository

def merge (old new : Plan) : Plan :=
  { old with
    objective := new.objective
    assumptions := new.assumptions
    risk := new.risk
    result := new.result }

/-- The plan row; its steps live in a table of their own. -/
def row (plan : Plan) : Plan := { plan with steps := [] }

def stepRow (plan : Plan) (step : PlanStep) : PlanStep := { step with planId := plan.id }

def insertStep (plan : Plan) (step : PlanStep) : Proc Unit := do
  requireSerializable step.arguments
  executeChecked (fun t => !t.planSteps.any (·.id = step.id))
    "UNIQUE constraint failed: plan_steps.id"
    fun t => { t with planSteps := t.planSteps ++ [stepRow plan step] }

def insertSteps (plan : Plan) : List PlanStep → Proc Unit
  | [] => pure ()
  | step :: rest => do
      insertStep plan step
      insertSteps plan rest

/-- The steps of a plan are deleted and inserted again. -/
def save (plan : Plan) : Proc Unit := withUow do
  executeForTask (fun t => Table.has Plan.id t.plans plan.id) plan.taskId fun t =>
    { t with plans := Table.upsert Plan.id merge (row plan) t.plans }
  execute fun t => { t with planSteps := t.planSteps.filter (·.planId ≠ plan.id) }
  insertSteps plan plan.steps

/-- A plan as it is read: `arguments=json.loads(row["arguments"])` in each step. -/
def asRead (plan : Plan) : Plan :=
  { plan with steps := plan.steps.map fun step => { step with arguments := step.arguments.reloaded } }

/-- The rows of a plan's steps, `ORDER BY step_order`. -/
def stepRows (t : Tables) (planId : String) : List PlanStep :=
  (t.planSteps.filter (·.planId = planId)).insertionSort fun a b => a.order ≤ b.order

/-- The stored plan of a task. -/
def ofTables (t : Tables) (taskId : String) : Option Plan :=
  (t.plans.find? (·.taskId = taskId)).map fun plan =>
    asRead { plan with steps := stepRows t plan.id }

def getByTask (taskId : String) : Proc (Option Plan) := query (ofTables · taskId)

end PlanRepository

namespace RiskAssessmentRepository

def merge (old new : RiskAssessment) : RiskAssessment :=
  { old with level := new.level, factors := new.factors, explanation := new.explanation }

def save (a : RiskAssessment) : Proc Unit := withUow <|
  executeForTask (fun t => Table.has RiskAssessment.id t.riskAssessments a.id) a.taskId fun t =>
    { t with riskAssessments := Table.upsert RiskAssessment.id merge a t.riskAssessments }

end RiskAssessmentRepository

namespace DecisionRepository

def merge (old new : Decision) : Decision :=
  { old with
    recommendation := new.recommendation
    risk := new.risk
    requiresAuthorization := new.requiresAuthorization
    requiresExplicitAcknowledgement := new.requiresExplicitAcknowledgement
    override := new.override
    capabilities := new.capabilities }

def save (d : Decision) : Proc Unit := withUow <|
  executeForTask (fun t => Table.has Decision.id t.decisions d.id) d.taskId fun t =>
    { t with decisions := Table.upsert Decision.id merge d t.decisions }

/-- The newest decision of a task (`ORDER BY rowid DESC LIMIT 1`). -/
def ofTables (t : Tables) (taskId : String) : Option Decision :=
  (t.decisions.filter (·.taskId = taskId)).getLast?

def getByTask (taskId : String) : Proc (Option Decision) := query (ofTables · taskId)

end DecisionRepository

namespace AuthorizationRepository

def merge (old new : Authorization) : Authorization :=
  { new with id := old.id, taskId := old.taskId, profileId := old.profileId }

/-- `expires_at` is a `NOT NULL` column. -/
def save (a : Authorization) : Proc Unit := withUow <|
  executeChecked (fun t => a.expiresAt.isSome &&
      (Table.has Authorization.id t.authorizations a.id || t.hasTask a.taskId)) "constraint failed" fun t =>
    { t with authorizations := Table.upsert Authorization.id merge a t.authorizations }

/-- The authorizations of a task in rowid order. -/
def ofTables (t : Tables) (taskId : String) : List Authorization :=
  t.authorizations.filter (·.taskId = taskId)

def listByTask (taskId : String) : Proc (List Authorization) := query (ofTables · taskId)

end AuthorizationRepository

namespace ToolExecutionRepository

def merge (old new : ToolExecutionRecord) : ToolExecutionRecord :=
  { new with id := old.id, taskId := old.taskId, tool := old.tool, action := old.action }

/-- `_serialize_data` and `json.loads`: what cannot be written is replaced by its text. -/
def serializeData (py : Stdlib) (data : Value) : Value :=
  if data.serializable then data else .str (py.strOf data)

def stored (py : Stdlib) (r : ToolExecutionRecord) : ToolExecutionRecord :=
  { r with data := serializeData py r.data, metadata := serializeData py r.metadata }

def save (py : Stdlib) (r : ToolExecutionRecord) : Proc Unit := withUow <|
  executeForTask (fun t => Table.has ToolExecutionRecord.id t.toolExecutions r.id) r.taskId fun t =>
    { t with toolExecutions :=
        Table.upsert ToolExecutionRecord.id merge (stored py r) t.toolExecutions }

def listByTask (taskId : String) : Proc (List ToolExecutionRecord) :=
  query fun t => t.toolExecutions.filter (·.taskId = taskId)

def getLatestByTask (taskId : String) : Proc (Option ToolExecutionRecord) :=
  query fun t => (t.toolExecutions.filter (·.taskId = taskId)).getLast?

/-- The newest record under a key. -/
def latestForKey (t : Tables) (key : String) : Option ToolExecutionRecord :=
  (t.toolExecutions.filter (·.idempotencyKey = some key)).getLast?

def getByIdempotencyKey (key : String) : Proc (Option ToolExecutionRecord) :=
  query (latestForKey · key)

end ToolExecutionRepository

namespace VerificationRepository

def save (r : VerificationRecord) : Proc Unit := withUow <|
  executeChecked (fun t => t.hasTask r.taskId && !t.verifications.any (·.id = r.id))
    "constraint failed" fun t => { t with verifications := t.verifications ++ [r] }

def listByTask (taskId : String) : Proc (List VerificationRecord) :=
  query fun t => t.verifications.filter (·.taskId = taskId)

def getLatestByTask (taskId : String) : Proc (Option VerificationRecord) :=
  query fun t => (t.verifications.filter (·.taskId = taskId)).getLast?

end VerificationRepository

namespace RecoveryAttemptRepository

def merge (old new : RecoveryAttempt) : RecoveryAttempt :=
  { new with id := old.id, taskId := old.taskId, attemptNumber := old.attemptNumber }

def save (a : RecoveryAttempt) : Proc Unit := withUow <|
  executeForTask (fun t => Table.has RecoveryAttempt.id t.recoveryAttempts a.id) a.taskId fun t =>
    { t with recoveryAttempts := Table.upsert RecoveryAttempt.id merge a t.recoveryAttempts }

def ofTables (t : Tables) (taskId : String) : List RecoveryAttempt :=
  (t.recoveryAttempts.filter (·.taskId = taskId)).insertionSort
    fun a b => a.attemptNumber ≤ b.attemptNumber

def listByTask (taskId : String) : Proc (List RecoveryAttempt) := query (ofTables · taskId)

/-- The attempt with the greatest number (`ORDER BY attempt_number DESC LIMIT 1`). -/
def getLatestByTask (taskId : String) : Proc (Option RecoveryAttempt) :=
  query fun t => ((t.recoveryAttempts.filter (·.taskId = taskId)).insertionSort
    fun a b => b.attemptNumber ≤ a.attemptNumber).head?

end RecoveryAttemptRepository

/-! ## Sessions, requests, intents -/

namespace SessionRepository

def getOrCreate (host : Host) (sessionId actor : String) : Proc Session := do
  match ← query fun t => Table.lookup Session.id t.sessions sessionId with
  | some session => pure session
  | none =>
    let at_ ← now host
    let session : Session :=
      { id := sessionId, actor := actor, createdAt := at_, lastActiveAt := at_ }
    withUow (execute fun t => { t with sessions := t.sessions ++ [session] })
    pure session

def touch (host : Host) (sessionId : String) : Proc Unit := withUow do
  let at_ ← now host
  execute fun t => { t with sessions := t.sessions.map fun s =>
    if s.id = sessionId then { s with lastActiveAt := at_ } else s }

end SessionRepository

namespace RequestRepository

def save (r : Request) : Proc Unit := withUow <|
  executeChecked (fun t => !t.requests.any (·.requestId = r.requestId))
    "UNIQUE constraint failed: requests.request_id"
    fun t => { t with requests := t.requests ++ [r] }

def recordResponse (requestId response : String) : Proc Unit := withUow <|
  execute fun t => { t with requests := t.requests.map fun r =>
    if r.requestId = requestId then { r with response := some response } else r }

end RequestRepository

namespace IntentRepository

def save (i : Intent) : Proc Unit := withUow do
  requireSerializable i.parameters
  executeChecked (fun t => !t.intents.any (·.id = i.id)) "UNIQUE constraint failed: intents.id"
    fun t => { t with intents := t.intents ++ [i] }

end IntentRepository

/-! ## The app plane -/

namespace ReceiptRepository

def merge (old new : ExecutionReceipt) : ExecutionReceipt :=
  { old with
    state := new.state
    finalizedAt := new.finalizedAt
    outcome := new.outcome
    adapterName := new.adapterName
    metadata := new.metadata }

/-- `INSERT INTO app_receipts … ON CONFLICT(id) DO UPDATE`. -/
def put (r : ExecutionReceipt) (t : Tables) : Tables :=
  { t with receipts := Table.upsert ExecutionReceipt.id merge r t.receipts }

def save (r : ExecutionReceipt) : Proc Unit := withUow do
  requireSerializable r.metadata
  execute (put r)

def get (receiptId : String) : Proc (Option ExecutionReceipt) :=
  query fun t => Table.lookup ExecutionReceipt.id t.receipts receiptId

/-- The newest receipt of a contract (`ORDER BY rowid DESC LIMIT 1`). -/
def getByContract (contractId : String) : Proc (Option ExecutionReceipt) :=
  query fun t => (t.receipts.filter (·.contractId = contractId)).getLast?

def listUnfinalized : Proc (List ExecutionReceipt) :=
  query fun t => t.receipts.filter (·.state ≠ .finalized)

end ReceiptRepository

namespace AttemptRepository

def merge (old new : ExecutionAttempt) : ExecutionAttempt :=
  { old with
    state := new.state
    invokedAt := new.invokedAt
    finalizedAt := new.finalizedAt
    outcome := new.outcome
    adapterName := new.adapterName
    error := new.error
    evidence := new.evidence }

/-- `INSERT INTO app_attempts … ON CONFLICT(id) DO UPDATE`. -/
def put (a : ExecutionAttempt) (t : Tables) : Tables :=
  { t with attempts := Table.upsert ExecutionAttempt.id merge a t.attempts }

def save (a : ExecutionAttempt) : Proc Unit := withUow do
  requireSerializable a.evidence
  executeForReceipt (fun t => Table.has ExecutionAttempt.id t.attempts a.id) a.receiptId (put a)

/-- The attempts of a receipt, `ORDER BY attempt_number ASC, rowid ASC`. -/
def ofTables (t : Tables) (receiptId : String) : List ExecutionAttempt :=
  (t.attempts.filter (·.receiptId = receiptId)).insertionSort
    fun a b => a.attemptNumber ≤ b.attemptNumber

def listByReceipt (receiptId : String) : Proc (List ExecutionAttempt) := query (ofTables · receiptId)

end AttemptRepository

namespace EvidenceRepository

def merge (old new : EvidenceRecord) : EvidenceRecord :=
  { new with id := old.id, receiptId := old.receiptId, attemptId := old.attemptId }

def put (r : EvidenceRecord) (t : Tables) : Tables :=
  { t with evidence := Table.upsert EvidenceRecord.id merge r t.evidence }

def save (r : EvidenceRecord) : Proc Unit := withUow do
  requireSerializable r.payload
  executeForReceipt (fun t => Table.has EvidenceRecord.id t.evidence r.id) r.receiptId (put r)

end EvidenceRepository

namespace AppVerificationRepository

def merge (old new : AppVerificationRecord) : AppVerificationRecord :=
  { new with id := old.id, receiptId := old.receiptId, attemptId := old.attemptId }

def put (r : AppVerificationRecord) (t : Tables) : Tables :=
  { t with appVerifications := Table.upsert AppVerificationRecord.id merge r t.appVerifications }

def save (r : AppVerificationRecord) : Proc Unit := withUow <|
  executeForReceipt (fun t => Table.has AppVerificationRecord.id t.appVerifications r.id) r.receiptId (put r)

end AppVerificationRepository

namespace IdempotencyRepository

def merge (old new : IdempotencyRecord) : IdempotencyRecord :=
  { old with
    receiptId := new.receiptId
    state := new.state
    outcome := new.outcome
    updatedAt := new.updatedAt }

/-- The row of a key. -/
def ofTables (t : Tables) (key : String) : Option IdempotencyRecord :=
  Table.lookup IdempotencyRecord.key t.idempotency key

def get (key : String) : Proc (Option IdempotencyRecord) := query (ofTables · key)

def put (r : IdempotencyRecord) (t : Tables) : Tables :=
  { t with idempotency := Table.upsert IdempotencyRecord.key merge r t.idempotency }

def save (r : IdempotencyRecord) : Proc Unit := withUow (execute (put r))

/-- One more row. -/
def add (r : IdempotencyRecord) (t : Tables) : Tables :=
  { t with idempotency := t.idempotency ++ [r] }

/-- A plain `INSERT`: the primary key arbitrates. -/
def insert (r : IdempotencyRecord) : Proc Unit :=
  executeChecked (fun t => (ofTables t r.key).isNone)
    "UNIQUE constraint failed: app_idempotency.key" (add r)

def reserve (r : IdempotencyRecord) : Proc Unit := withUow (insert r)

end IdempotencyRepository

namespace RecoveryRepository

def merge (old new : RecoveryIncident) : RecoveryIncident :=
  { old with
    status := new.status
    reason := new.reason
    updatedAt := new.updatedAt
    resolution := new.resolution
    fenceToken := new.fenceToken }

def put (i : RecoveryIncident) (t : Tables) : Tables :=
  { t with incidents := Table.upsert RecoveryIncident.id merge i t.incidents }

def saveIncident (i : RecoveryIncident) : Proc Unit := withUow (execute (put i))

end RecoveryRepository

/-! ## The audit log -/

/-- `GENESIS_PREV_HASH`: 64 zeros. -/
def genesisPrevHash : String := String.ofList (List.replicate 64 '0')

/-- `hash_audit_event`: the hash of the event's own content, linked to the previous event. -/
def hashAuditEvent (py : Stdlib) (event : AuditEvent) (prevHash : String) : String :=
  py.sha256 <| dumps py .compact <| .dict [
    ("event_id", .str event.eventId),
    ("request_id", .ofOption event.requestId),
    ("task_id", .ofOption event.taskId),
    ("timestamp", .str (py.isoformat event.timestamp)),
    ("actor", .str event.actor),
    ("component", .str event.component),
    ("event_type", .str event.eventType),
    ("action", .str event.action),
    ("result", .str event.result),
    ("metadata", .dict event.metadata),
    ("prev_hash", .str prevHash)]

namespace AuditSink

/-- The newest event of the chain (`ORDER BY sequence_number DESC LIMIT 1`). -/
def tip (t : Tables) : Option AuditEvent :=
  (t.auditEvents.insertionSort fun a b => b.sequenceNumber ≤ a.sequenceNumber).head?

/-- The event with the chain fields of its place at the end of the table. -/
def chained (py : Stdlib) (t : Tables) (event : AuditEvent) : AuditEvent :=
  let number := (tip t).elim 1 (·.sequenceNumber + 1)
  let prev := (tip t).elim genesisPrevHash (·.eventHash)
  { event with
    sequenceNumber := number
    prevHash := prev
    eventHash := hashAuditEvent py event prev }

/-- The row is added to the end of the chain the connection sees. -/
def record (py : Stdlib) (event : AuditEvent) : Proc Unit := withUow do
  requireSerializable event.metadata
  executeChecked (fun t => !t.auditEvents.any (·.eventId = event.eventId))
    "UNIQUE constraint failed: audit_events.event_id"
    fun t => { t with auditEvents := t.auditEvents ++ [chained py t event] }

end AuditSink

/-- The arguments of `AuditRecorder.record`. -/
structure AuditEntry where
  actor : String
  component : String
  eventType : String
  action : String
  result : String
  requestId : Option String := none
  taskId : Option String := none
  metadata : Dict := []
  deriving DecidableEq, Repr

/-- The event an entry becomes. -/
def AuditEntry.event (entry : AuditEntry) (eventId : String) (timestamp : Time) : AuditEvent :=
  { eventId := eventId
    requestId := entry.requestId
    taskId := entry.taskId
    timestamp := timestamp
    actor := entry.actor
    component := entry.component
    eventType := entry.eventType
    action := entry.action
    result := entry.result
    metadata := entry.metadata }

/-- `AuditRecorder.record`, wired without a redactor as `bootstrap` does. -/
def audit (host : Host) (entry : AuditEntry) : Proc Unit := do
  let eventId ← newId host
  let timestamp ← now host
  AuditSink.record host.py (entry.event eventId timestamp)

end Shea.Model
