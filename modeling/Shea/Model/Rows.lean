import Shea.Computation.Rows
import Shea.Model.JsonReader
import Shea.Model.Repositories

/-!
# The rows of the database

The repositories of `persistence/sqlite` once more, one level down: what stands in the tables is rows of
cells, a record is written as the row of its columns, and read back by `_row_to_…`. An enumeration is stored
as its value, an instant as its `isoformat`, a `bool` as 0 or 1, `None` as `NULL`, and what is a list or a
dictionary as a JSON text. Here are the tables that the services read from; the columns are those that the
records of the model have.

Reading a row raises when a text in it is not one that was written for its column; which exception that is
does not matter, as it never happens.
-/

set_option autoImplicit false

namespace Shea.Model

open Shea.Computation

/-! ## Enumerations and cells -/

def ReceiptState.value : ReceiptState → String
  | created => "CREATED"
  | attempting => "ATTEMPTING"
  | finalized => "FINALIZED"

def AttemptState.value : AttemptState → String
  | created => "CREATED"
  | invoked => "INVOKED"
  | finalized => "FINALIZED"

def IdempotencyState.value : IdempotencyState → String
  | inProgress => "IN_PROGRESS"
  | completed => "COMPLETED"
  | failed => "FAILED"
  | unknown => "UNKNOWN"
  | expired => "EXPIRED"
  | conflict => "CONFLICT"

/-- The members of an `Enum`, which is called with a value. -/
class Enumeration (α : Type) where
  members : List α
  value : α → String

instance : Enumeration TaskState where
  members := [.created, .planning, .ready, .running, .verifying, .completed, .failed, .cancelled, .blocked,
    .recovering, .stabilizing, .securityHalt]
  value := TaskState.value

instance : Enumeration RiskLevel where
  members := [.safe, .low, .medium, .high, .critical, .unknown]
  value := RiskLevel.value

instance : Enumeration ExecutionOutcome where
  members := [.success, .failure, .unknown]
  value := ExecutionOutcome.value

instance : Enumeration AppOutcome where
  members := [.success, .failure, .unknown, .cancelled]
  value := AppOutcome.value

instance : Enumeration ReceiptState where
  members := [.created, .attempting, .finalized]
  value := ReceiptState.value

instance : Enumeration AttemptState where
  members := [.created, .invoked, .finalized]
  value := AttemptState.value

instance : Enumeration IdempotencyState where
  members := [.inProgress, .completed, .failed, .unknown, .expired, .conflict]
  value := IdempotencyState.value

inductive Cell
  | null
  | integer (n : ℤ)
  | real (x : PyFloat)
  | text (s : String)
  deriving DecidableEq, Repr

namespace Cell

def ofOption (text : Option String) : Cell := text.elim .null .text

/-- `int(flag)`. -/
def ofBool (flag : Bool) : Cell := .integer (if flag then 1 else 0)

/-- `flag` or `None`. -/
def ofBoolOption (flag : Option Bool) : Cell := flag.elim .null ofBool

/-- A NaN is stored as `NULL`. -/
def ofFloat (x : PyFloat) : Cell := if x = .nan then .null else .real x

/-- `member.value`. -/
def ofEnum {α : Type} [Enumeration α] (member : α) : Cell := .text (Enumeration.value member)

/-- `member.value if member else None`. -/
def ofEnumOption {α : Type} [Enumeration α] (member : Option α) : Cell := member.elim .null ofEnum

/-- `instant.isoformat()`. -/
def ofTime (py : Stdlib) (instant : Time) : Cell := .text (py.isoformat instant)

/-- `instant.isoformat() if instant else None`. -/
def ofTimeOption (py : Stdlib) (instant : Option Time) : Cell := instant.elim .null (ofTime py)

def asText : Cell → Option String
  | .text s => some s
  | _ => none

def asOption : Cell → Option (Option String)
  | .null => some none
  | cell => cell.asText.map some

def asNat : Cell → Option ℕ
  | .integer n => some n.toNat
  | _ => none

/-- `bool(value)`. -/
def truthy : Cell → Bool
  | .null => false
  | .integer n => n ≠ 0
  | .real x => (Value.float x).truthy
  | .text s => s ≠ ""

/-- `None if value is None else bool(value)`. -/
def asBoolOption : Cell → Option Bool
  | .null => none
  | cell => some cell.truthy

/-- `float(value)`. -/
def asFloat : Cell → Option PyFloat
  | .real x => some x
  | _ => none

/-- `Enum(value)`. -/
def asEnum {α : Type} [Enumeration α] (cell : Cell) : Option α :=
  (Enumeration.members : List α).find? fun member => .text (Enumeration.value member) = cell

/-- `Enum(value) if value else None`. -/
def asEnumOption {α : Type} [Enumeration α] (cell : Cell) : Option (Option α) :=
  if cell.truthy then cell.asEnum.map some else some none

/-- `datetime.fromisoformat(value)`. -/
def asTime (py : Stdlib) (cell : Cell) : Option Time := cell.asText.bind py.fromisoformat

/-- `_parse_dt`, `_parse_optional_datetime`. -/
def asTimeOption (py : Stdlib) : Cell → Option (Option Time)
  | .null => some none
  | cell => (cell.asTime py).map some

/-- `json.loads(value)`. -/
def asJson (floatOf : String → PyFloat) (cell : Cell) : Option Value := cell.asText.bind (jsonLoads floatOf)

/-- A dictionary in a JSON column. -/
def asDict (floatOf : String → PyFloat) (cell : Cell) : Option Dict := do
  match ← cell.asJson floatOf with
  | .dict entries => some entries
  | _ => none

/-- `json.loads(value or "{…}")`, with nothing between the braces. -/
def asDictOrEmpty (floatOf : String → PyFloat) (cell : Cell) : Option Dict :=
  if cell.truthy then cell.asDict floatOf else some []

/-- A list of texts in a JSON column. -/
def asTexts (floatOf : String → PyFloat) (cell : Cell) : Option (List String) := do
  match ← cell.asJson floatOf with
  | .list items => items.mapM fun item => match item with
    | .str s => some s
    | _ => none
  | _ => none

/-- The order of `ORDER BY`, within one storage class. -/
def le : Cell → Cell → Bool
  | .null, _ => true
  | .integer a, .integer b => a ≤ b
  | .text a, .text b => a ≤ b
  | .integer _, .text _ => true
  | _, _ => false

end Cell

/-- `row[column]`, read as a value of some kind. -/
def readCell {α : Type} (row : Row Cell) (column : String) (as : Cell → Option α) : Option α :=
  (row.lookup column).bind as

/-- `WHERE column = ?`. -/
def hasCell (column : String) (cell : Cell) (row : Row Cell) : Bool := row.lookup column = some cell

/-- `ORDER BY column`. -/
def inOrder (column : String) (a b : Row Cell) : Bool :=
  ((a.lookup column).getD .null).le ((b.lookup column).getD .null)

/-! ## The database -/

structure RowDatabase where
  tasks : List (Row Cell) := []
  plans : List (Row Cell) := []
  planSteps : List (Row Cell) := []
  decisions : List (Row Cell) := []
  authorizations : List (Row Cell) := []
  toolExecutions : List (Row Cell) := []
  verifications : List (Row Cell) := []
  recoveryAttempts : List (Row Cell) := []
  receipts : List (Row Cell) := []
  attempts : List (Row Cell) := []
  idempotency : List (Row Cell) := []

/-- The connection: the rows it sees, those that are committed, and how many blocks are open. -/
structure RowWorld where
  working : RowDatabase := {}
  committed : RowDatabase := {}
  depth : ℕ := 0

abbrev RowProc := Program RowWorld Err

namespace RowWorld

/-- `SqliteUnitOfWork.__enter__`. -/
def enter (w : RowWorld) : RowWorld := { w with depth := w.depth + 1 }

/-- `SqliteUnitOfWork.__exit__`. -/
def exit (clean : Bool) (w : RowWorld) : RowWorld :=
  if 0 < w.depth - 1 then { w with depth := w.depth - 1 }
  else if clean then { w with depth := w.depth - 1, committed := w.working }
  else { w with depth := w.depth - 1, working := w.committed }

end RowWorld

namespace Sql

variable {α : Type}

/-- `with unit_of_work: body`. -/
def withUow (body : RowProc α) : RowProc α := do
  Program.modify RowWorld.enter
  match ← body.attempt with
  | .ok a =>
    Program.modify (RowWorld.exit true)
    pure a
  | .error e =>
    Program.modify (RowWorld.exit false)
    throw e

/-- `SELECT …`. -/
def query (view : RowDatabase → α) : RowProc α := .get fun w => view w.working

def execute (statement : RowDatabase → RowDatabase) : RowProc Unit :=
  .modify fun w => { w with working := statement w.working }

/-- A statement under a constraint. -/
def executeChecked (holds : RowDatabase → Bool) (message : String) (statement : RowDatabase → RowDatabase) :
    RowProc Unit := do
  if ← Program.act (fun w => holds w.working)
      (fun w => if holds w.working then { w with working := statement w.working } else w) then
    pure ()
  else
    throw (.integrityError message)

/-- `INSERT … ON CONFLICT(key) DO UPDATE SET` these columns. -/
def upsert (key : String) (columns : List String) (row : Row Cell) (rows : List (Row Cell)) :
    List (Row Cell) := Table.upsert (fun row : Row Cell => row.lookup key) (Row.excluded columns) row rows

/-- The records of the rows that were fetched. -/
def fetchAll (read : Row Cell → Option α) (rows : List (Row Cell)) : RowProc (List α) :=
  match rows.mapM read with
  | some records => pure records
  | none => throw (.valueError "unreadable row")

/-- The record of the row that was fetched, if there was one. -/
def fetchOne (read : Row Cell → Option α) (row : Option (Row Cell)) : RowProc (Option α) := do
  pure (← fetchAll read row.toList).head?

/-- `json.dumps(value)`. -/
def jsonText (py : Stdlib) (value : Value) : Except Err String :=
  match jsonDumps py value with
  | some text => .ok text
  | none =>
    if value.serializable then .error (.valueError "Exceeds the limit for integer string conversion")
    else .error (.typeError "Object is not JSON serializable")

/-- `json.dumps` of a dictionary that goes into a column. -/
def dictCell (py : Stdlib) (entries : Dict) : Except Err Cell := (jsonText py (.dict entries)).map .text

/-- `json.dumps` of a list of texts, which always succeeds. -/
def textsCell (py : Stdlib) (texts : List String) : Cell :=
  .text ((jsonDumps py (.list (texts.map .str))).getD "")

/-- A row with this id is stored. -/
def hasId (rows : List (Row Cell)) (id : String) : Bool := rows.any (hasCell "id" (.text id))

/-- `REFERENCES tasks(id)`, which is looked up for a row that is inserted. -/
def hasTask (db : RowDatabase) (taskId : String) : Bool := hasId db.tasks taskId

/-- `REFERENCES app_receipts(id)`. -/
def hasReceipt (db : RowDatabase) (receiptId : String) : Bool := hasId db.receipts receiptId

section Repositories

variable (py : Stdlib) (floatOf : String → PyFloat)

/-! ## The repositories -/

namespace TaskRepository

def row (task : Task) (profileSnapshot : Cell) : Row Cell := [
  ("id", .text task.id),
  ("session_id", .text task.sessionId),
  ("request_id", .text task.requestId),
  ("state", .ofEnum task.state),
  ("plan_id", .ofOption task.planId),
  ("profile_snapshot", profileSnapshot),
  ("created_at", .ofTime py task.createdAt),
  ("updated_at", .ofTime py task.updatedAt)]

def updated : List String := ["state", "plan_id", "profile_snapshot", "updated_at"]

/-- `json.dumps(task.profile_snapshot) if task.profile_snapshot else None`. -/
def snapshotCell (snapshot : Option Dict) : Except Err Cell :=
  match snapshot with
  | some (entry :: entries) => dictCell py (entry :: entries)
  | _ => .ok .null

def save (task : Task) : RowProc Unit := withUow do
  let snapshot ← Program.ofExcept (snapshotCell py task.profileSnapshot)
  execute fun db => { db with tasks := upsert "id" updated (row py task snapshot) db.tasks }

/-- `json.loads(raw_snapshot) if raw_snapshot else None`. -/
def asSnapshot (cell : Cell) : Option (Option Dict) :=
  if cell.truthy then (cell.asDict floatOf).map some else some none

/-- `_row_to_task`. -/
def rowToTask (row : Row Cell) : Option Task := do
  let snapshot ← readCell row "profile_snapshot" (asSnapshot floatOf)
  let id ← readCell row "id" Cell.asText
  let sessionId ← readCell row "session_id" Cell.asText
  let requestId ← readCell row "request_id" Cell.asText
  let state ← readCell row "state" Cell.asEnum
  let planId ← readCell row "plan_id" Cell.asOption
  let createdAt ← readCell row "created_at" (Cell.asTime py)
  let updatedAt ← readCell row "updated_at" (Cell.asTime py)
  pure { id, sessionId, requestId, state, planId, profileSnapshot := snapshot, createdAt, updatedAt }

def get (taskId : String) : RowProc (Option Task) := do
  fetchOne (rowToTask py floatOf) (← query fun db => db.tasks.find? (hasCell "id" (.text taskId)))

/-- `ORDER BY created_at`. -/
def listBySession (sessionId : String) : RowProc (List Task) := do
  fetchAll (rowToTask py floatOf) (← query fun db =>
    (db.tasks.filter (hasCell "session_id" (.text sessionId))).insertionSort
      fun a b => inOrder "created_at" a b)

def stableStates : List String := ["COMPLETED", "CANCELLED", "SECURITY_HALT", "FAILED", "BLOCKED"]

def listTransientTasks : RowProc (List Task) := do
  fetchAll (rowToTask py floatOf) (← query fun db =>
    (db.tasks.filter fun row => !stableStates.any fun state => hasCell "state" (.text state) row).insertionSort
      fun a b => inOrder "created_at" a b)

end TaskRepository

namespace PlanRepository

def row (plan : Plan) : Row Cell := [
  ("id", .text plan.id),
  ("task_id", .text plan.taskId),
  ("objective", .text plan.objective),
  ("assumptions", textsCell py plan.assumptions),
  ("risk", .ofEnumOption plan.risk),
  ("result", .ofOption plan.result)]

def updated : List String := ["objective", "assumptions", "risk", "result"]

def stepRow (planId : String) (step : PlanStep) (arguments : Cell) : Row Cell := [
  ("id", .text step.id),
  ("plan_id", .text planId),
  ("step_order", .integer step.order),
  ("description", .text step.description),
  ("tool", .text step.tool),
  ("arguments", arguments),
  ("state", .text step.state),
  ("depends_on", textsCell py step.dependsOn)]

def insertStep (plan : Plan) (step : PlanStep) : RowProc Unit := do
  let arguments ← Program.ofExcept (dictCell py step.arguments)
  executeChecked (fun db => !hasId db.planSteps step.id)
    "UNIQUE constraint failed: plan_steps.id"
    fun db => { db with planSteps := db.planSteps ++ [stepRow py plan.id step arguments] }

def insertSteps (plan : Plan) : List PlanStep → RowProc Unit
  | [] => pure ()
  | step :: rest => do
      insertStep py plan step
      insertSteps plan rest

def save (plan : Plan) : RowProc Unit := withUow do
  executeChecked (fun db => hasId db.plans plan.id || hasTask db plan.taskId) "FOREIGN KEY constraint failed"
    fun db => { db with plans := upsert "id" updated (row py plan) db.plans }
  execute fun db =>
    { db with planSteps := db.planSteps.filter fun row => !hasCell "plan_id" (.text plan.id) row }
  insertSteps py plan plan.steps

def rowToStep (row : Row Cell) : Option PlanStep := do
  let id ← readCell row "id" Cell.asText
  let planId ← readCell row "plan_id" Cell.asText
  let order ← readCell row "step_order" Cell.asNat
  let description ← readCell row "description" Cell.asText
  let tool ← readCell row "tool" Cell.asText
  let arguments ← readCell row "arguments" (Cell.asDict floatOf)
  let state ← readCell row "state" Cell.asText
  let dependsOn ← readCell row "depends_on" (Cell.asTexts floatOf)
  pure { id, planId, order, description, tool, arguments, state, dependsOn }

/-- The plan of a row, with these steps. -/
def rowToPlan (row : Row Cell) (steps : List PlanStep) : Option Plan := do
  let id ← readCell row "id" Cell.asText
  let taskId ← readCell row "task_id" Cell.asText
  let objective ← readCell row "objective" Cell.asText
  let assumptions ← readCell row "assumptions" (Cell.asTexts floatOf)
  let risk ← readCell row "risk" Cell.asEnumOption
  let result ← readCell row "result" Cell.asOption
  pure { id, taskId, objective, assumptions, steps, risk, result }

/-- The two queries of `get_by_task`. -/
def selected (db : RowDatabase) (taskId : String) : Option (Row Cell × List (Row Cell)) :=
  (db.plans.find? (hasCell "task_id" (.text taskId))).map fun plan =>
    (plan, (db.planSteps.filter fun row => row.lookup "plan_id" = plan.lookup "id").insertionSort
      fun a b => inOrder "step_order" a b)

def getByTask (taskId : String) : RowProc (Option Plan) := do
  match ← query (selected · taskId) with
  | none => pure none
  | some (plan, stepRows) =>
    let steps ← fetchAll (rowToStep floatOf) stepRows
    fetchOne (rowToPlan floatOf · steps) (some plan)

end PlanRepository

namespace DecisionRepository

def row (d : Decision) : Row Cell := [
  ("id", .text d.id),
  ("task_id", .text d.taskId),
  ("recommendation", .text d.recommendation),
  ("risk", .ofEnum d.risk),
  ("requires_authorization", .ofBool d.requiresAuthorization),
  ("requires_explicit_acknowledgement", .ofBool d.requiresExplicitAcknowledgement),
  ("override", .ofBool d.override),
  ("capabilities", textsCell py d.capabilities)]

def updated : List String := ["recommendation", "risk", "requires_authorization",
  "requires_explicit_acknowledgement", "override", "capabilities"]

def save (d : Decision) : RowProc Unit := withUow <|
  executeChecked (fun db => hasId db.decisions d.id || hasTask db d.taskId) "FOREIGN KEY constraint failed"
    fun db => { db with decisions := upsert "id" updated (row py d) db.decisions }

def rowToDecision (row : Row Cell) : Option Decision := do
  let id ← readCell row "id" Cell.asText
  let taskId ← readCell row "task_id" Cell.asText
  let recommendation ← readCell row "recommendation" Cell.asText
  let risk ← readCell row "risk" Cell.asEnum
  let requiresAuthorization ← readCell row "requires_authorization" (some ·.truthy)
  let requiresExplicitAcknowledgement ← readCell row "requires_explicit_acknowledgement" (some ·.truthy)
  let override ← readCell row "override" (some ·.truthy)
  let capabilities ← readCell row "capabilities" (Cell.asTexts floatOf)
  pure { id, taskId, recommendation, risk, requiresAuthorization, requiresExplicitAcknowledgement, override,
         capabilities }

/-- `ORDER BY rowid DESC LIMIT 1`. -/
def getByTask (taskId : String) : RowProc (Option Decision) := do
  fetchOne (rowToDecision floatOf) (← query fun db =>
    (db.decisions.filter (hasCell "task_id" (.text taskId))).getLast?)

end DecisionRepository

namespace AuthorizationRepository

def row (a : Authorization) : Row Cell := [
  ("id", .text a.id),
  ("task_id", .text a.taskId),
  ("profile_id", .text a.profileId),
  ("granted", .ofBool a.granted),
  ("granted_by", .text a.grantedBy),
  ("explicit", .ofBool a.explicit),
  ("plan_hash", .ofOption a.planHash),
  ("step_hash", .ofOption a.stepHash),
  ("arguments_hash", .ofOption a.argumentsHash),
  ("expires_at", .ofTimeOption py a.expiresAt),
  ("used_at", .ofTimeOption py a.usedAt),
  ("nonce", .ofOption a.nonce)]

def updated : List String := ["granted", "granted_by", "explicit", "plan_hash", "step_hash",
  "arguments_hash", "expires_at", "used_at", "nonce"]

/-- `expires_at TEXT NOT NULL`. -/
def save (a : Authorization) : RowProc Unit := withUow <|
  executeChecked (fun db => !hasCell "expires_at" .null (row py a) &&
      (hasId db.authorizations a.id || hasTask db a.taskId)) "constraint failed"
    fun db => { db with authorizations := upsert "id" updated (row py a) db.authorizations }

def rowToAuthorization (row : Row Cell) : Option Authorization := do
  let id ← readCell row "id" Cell.asText
  let taskId ← readCell row "task_id" Cell.asText
  let profileId ← readCell row "profile_id" Cell.asText
  let granted ← readCell row "granted" (some ·.truthy)
  let grantedBy ← readCell row "granted_by" Cell.asText
  let explicit ← readCell row "explicit" (some ·.truthy)
  let planHash ← readCell row "plan_hash" Cell.asOption
  let stepHash ← readCell row "step_hash" Cell.asOption
  let argumentsHash ← readCell row "arguments_hash" Cell.asOption
  let expiresAt ← readCell row "expires_at" (Cell.asTimeOption py)
  let usedAt ← readCell row "used_at" (Cell.asTimeOption py)
  let nonce ← readCell row "nonce" Cell.asOption
  pure { id, taskId, profileId, granted, grantedBy, explicit, planHash, stepHash, argumentsHash, expiresAt,
         usedAt, nonce }

/-- `ORDER BY rowid ASC`. -/
def listByTask (taskId : String) : RowProc (List Authorization) := do
  fetchAll (rowToAuthorization py) (← query fun db =>
    db.authorizations.filter (hasCell "task_id" (.text taskId)))

end AuthorizationRepository

namespace ToolExecutionRepository

def row (r : ToolExecutionRecord) (data metadata : Cell) : Row Cell := [
  ("id", .text r.id),
  ("task_id", .text r.taskId),
  ("tool", .text r.tool),
  ("action", .text r.action),
  ("outcome", .ofEnum r.outcome),
  ("success", .ofBool r.success),
  ("data", data),
  ("error", .ofOption r.error),
  ("attempt_number", .integer r.attemptNumber),
  ("idempotency_key", .ofOption r.idempotencyKey),
  ("metadata", metadata)]

def updated : List String := ["outcome", "success", "data", "error", "attempt_number", "idempotency_key",
  "metadata"]

/-- `_serialize_data`. -/
def serializeData (data : Value) : Except Err Cell :=
  if data = .none then .ok .null
  else
    match jsonText py data with
    | .ok text => .ok (.text text)
    | .error (.typeError _) => (jsonText py (.str (py.strOf data))).map .text
    | .error e => .error e

def save (r : ToolExecutionRecord) : RowProc Unit := withUow do
  let data ← Program.ofExcept (serializeData py r.data)
  let metadata ← Program.ofExcept (serializeData py r.metadata)
  executeChecked (fun db => hasId db.toolExecutions r.id || hasTask db r.taskId) "FOREIGN KEY constraint failed"
    fun db => { db with toolExecutions := upsert "id" updated (row r data metadata) db.toolExecutions }

/-- `json.loads(row[…]) if row[…] is not None else` the default. -/
def asData (default : Value) : Cell → Option Value
  | .null => some default
  | cell => cell.asJson floatOf

/-- `_row_to_record`. -/
def rowToRecord (row : Row Cell) : Option ToolExecutionRecord := do
  let id ← readCell row "id" Cell.asText
  let taskId ← readCell row "task_id" Cell.asText
  let tool ← readCell row "tool" Cell.asText
  let action ← readCell row "action" Cell.asText
  let outcome ← readCell row "outcome" Cell.asEnum
  let success ← readCell row "success" (some ·.truthy)
  let data ← readCell row "data" (asData floatOf .none)
  let error ← readCell row "error" Cell.asOption
  let attemptNumber ← readCell row "attempt_number" Cell.asNat
  let idempotencyKey ← readCell row "idempotency_key" Cell.asOption
  let metadata ← readCell row "metadata" (asData floatOf (.dict []))
  pure { id, taskId, tool, action, outcome, success, data, error, attemptNumber, idempotencyKey, metadata }

/-- `ORDER BY rowid`. -/
def listByTask (taskId : String) : RowProc (List ToolExecutionRecord) := do
  fetchAll (rowToRecord floatOf) (← query fun db =>
    db.toolExecutions.filter (hasCell "task_id" (.text taskId)))

def getLatestByTask (taskId : String) : RowProc (Option ToolExecutionRecord) := do
  fetchOne (rowToRecord floatOf) (← query fun db =>
    (db.toolExecutions.filter (hasCell "task_id" (.text taskId))).getLast?)

def getByIdempotencyKey (key : String) : RowProc (Option ToolExecutionRecord) := do
  fetchOne (rowToRecord floatOf) (← query fun db =>
    (db.toolExecutions.filter (hasCell "idempotency_key" (.text key))).getLast?)

end ToolExecutionRepository

namespace VerificationRepository

def row (r : VerificationRecord) : Row Cell := [
  ("id", .text r.id),
  ("task_id", .text r.taskId),
  ("verified", .ofBool r.verified),
  ("method", .text r.method),
  ("explanation", .text r.explanation),
  ("side_effect_detected", .ofBool r.sideEffectDetected),
  ("retry_safe", .ofBool r.retrySafe)]

def save (r : VerificationRecord) : RowProc Unit := withUow <|
  executeChecked (fun db => hasTask db r.taskId && !hasId db.verifications r.id) "constraint failed"
    fun db => { db with verifications := db.verifications ++ [row r] }

def rowToRecord (row : Row Cell) : Option VerificationRecord := do
  let id ← readCell row "id" Cell.asText
  let taskId ← readCell row "task_id" Cell.asText
  let verified ← readCell row "verified" (some ·.truthy)
  let method ← readCell row "method" Cell.asText
  let explanation ← readCell row "explanation" Cell.asText
  let sideEffectDetected ← readCell row "side_effect_detected" (some ·.truthy)
  let retrySafe ← readCell row "retry_safe" (some ·.truthy)
  pure { id, taskId, verified, method, explanation, sideEffectDetected, retrySafe }

/-- `ORDER BY rowid`. -/
def listByTask (taskId : String) : RowProc (List VerificationRecord) := do
  fetchAll rowToRecord (← query fun db =>
    db.verifications.filter (hasCell "task_id" (.text taskId)))

def getLatestByTask (taskId : String) : RowProc (Option VerificationRecord) := do
  fetchOne rowToRecord (← query fun db =>
    (db.verifications.filter (hasCell "task_id" (.text taskId))).getLast?)

end VerificationRepository

namespace RecoveryAttemptRepository

def row (a : RecoveryAttempt) : Row Cell := [
  ("id", .text a.id),
  ("task_id", .text a.taskId),
  ("attempt_number", .integer a.attemptNumber),
  ("resolved", .ofBool a.resolved),
  ("recovered", .ofBoolOption a.recovered),
  ("method", .text a.method),
  ("explanation", .text a.explanation),
  ("delay_seconds", .ofFloat a.delaySeconds)]

def updated : List String := ["resolved", "recovered", "method", "explanation", "delay_seconds"]

/-- `delay_seconds REAL NOT NULL`. -/
def save (a : RecoveryAttempt) : RowProc Unit := withUow <|
  executeChecked (fun db => !hasCell "delay_seconds" .null (row a) &&
      (hasId db.recoveryAttempts a.id || hasTask db a.taskId)) "FOREIGN KEY constraint failed"
    fun db => { db with recoveryAttempts := upsert "id" updated (row a) db.recoveryAttempts }

/-- `_row_to_attempt`. -/
def rowToAttempt (row : Row Cell) : Option RecoveryAttempt := do
  let recovered ← readCell row "recovered" fun cell => some cell.asBoolOption
  let id ← readCell row "id" Cell.asText
  let taskId ← readCell row "task_id" Cell.asText
  let attemptNumber ← readCell row "attempt_number" Cell.asNat
  let resolved ← readCell row "resolved" (some ·.truthy)
  let method ← readCell row "method" Cell.asText
  let explanation ← readCell row "explanation" Cell.asText
  let delaySeconds ← readCell row "delay_seconds" Cell.asFloat
  pure { id, taskId, attemptNumber, resolved, recovered, method, explanation, delaySeconds }

/-- `ORDER BY attempt_number`. -/
def listByTask (taskId : String) : RowProc (List RecoveryAttempt) := do
  fetchAll rowToAttempt (← query fun db =>
    (db.recoveryAttempts.filter (hasCell "task_id" (.text taskId))).insertionSort
      fun a b => inOrder "attempt_number" a b)

/-- `ORDER BY attempt_number DESC LIMIT 1`. -/
def getLatestByTask (taskId : String) : RowProc (Option RecoveryAttempt) := do
  fetchOne rowToAttempt (← query fun db =>
    ((db.recoveryAttempts.filter (hasCell "task_id" (.text taskId))).insertionSort
      fun a b => inOrder "attempt_number" b a).head?)

end RecoveryAttemptRepository

namespace ReceiptRepository

def row (r : ExecutionReceipt) (metadata : Cell) : Row Cell := [
  ("id", .text r.id),
  ("contract_id", .text r.contractId),
  ("authorization_id", .text r.authorizationId),
  ("capability", .text r.capability),
  ("operation", .text r.operation),
  ("target", .text r.target),
  ("state", .ofEnum r.state),
  ("created_at", .ofTime py r.createdAt),
  ("finalized_at", .ofTimeOption py r.finalizedAt),
  ("outcome", .ofEnumOption r.outcome),
  ("adapter_name", .ofOption r.adapterName),
  ("metadata", metadata)]

def updated : List String := ["state", "finalized_at", "outcome", "adapter_name", "metadata"]

def save (r : ExecutionReceipt) : RowProc Unit := withUow do
  let metadata ← Program.ofExcept (dictCell py r.metadata)
  execute fun db => { db with receipts := upsert "id" updated (row py r metadata) db.receipts }

/-- `_row_to_receipt`. -/
def rowToReceipt (row : Row Cell) : Option ExecutionReceipt := do
  let id ← readCell row "id" Cell.asText
  let contractId ← readCell row "contract_id" Cell.asText
  let authorizationId ← readCell row "authorization_id" Cell.asText
  let capability ← readCell row "capability" Cell.asText
  let operation ← readCell row "operation" Cell.asText
  let target ← readCell row "target" Cell.asText
  let state ← readCell row "state" Cell.asEnum
  let createdAt ← readCell row "created_at" (Cell.asTime py)
  let finalizedAt ← readCell row "finalized_at" (Cell.asTimeOption py)
  let outcome ← readCell row "outcome" Cell.asEnumOption
  let adapterName ← readCell row "adapter_name" Cell.asOption
  let metadata ← readCell row "metadata" (Cell.asDictOrEmpty floatOf)
  pure { id, contractId, authorizationId, capability, operation, target, state, createdAt, finalizedAt,
         outcome, adapterName, metadata }

def get (receiptId : String) : RowProc (Option ExecutionReceipt) := do
  fetchOne (rowToReceipt py floatOf) (← query fun db =>
    db.receipts.find? (hasCell "id" (.text receiptId)))

/-- `ORDER BY rowid DESC LIMIT 1`. -/
def getByContract (contractId : String) : RowProc (Option ExecutionReceipt) := do
  fetchOne (rowToReceipt py floatOf) (← query fun db =>
    (db.receipts.filter (hasCell "contract_id" (.text contractId))).getLast?)

/-- `WHERE state != 'FINALIZED' ORDER BY rowid ASC`. -/
def listUnfinalized : RowProc (List ExecutionReceipt) := do
  fetchAll (rowToReceipt py floatOf) (← query fun db =>
    db.receipts.filter fun row => !hasCell "state" (.ofEnum ReceiptState.finalized) row)

end ReceiptRepository

namespace AttemptRepository

def row (a : ExecutionAttempt) (evidence : Cell) : Row Cell := [
  ("id", .text a.id),
  ("receipt_id", .text a.receiptId),
  ("attempt_number", .integer a.attemptNumber),
  ("state", .ofEnum a.state),
  ("created_at", .ofTime py a.createdAt),
  ("invoked_at", .ofTimeOption py a.invokedAt),
  ("finalized_at", .ofTimeOption py a.finalizedAt),
  ("outcome", .ofEnumOption a.outcome),
  ("adapter_name", .ofOption a.adapterName),
  ("error", .ofOption a.error),
  ("evidence", evidence)]

def updated : List String := ["state", "invoked_at", "finalized_at", "outcome", "adapter_name", "error",
  "evidence"]

def save (a : ExecutionAttempt) : RowProc Unit := withUow do
  let evidence ← Program.ofExcept (dictCell py a.evidence)
  executeChecked (fun db => hasId db.attempts a.id || hasReceipt db a.receiptId) "FOREIGN KEY constraint failed"
    fun db => { db with attempts := upsert "id" updated (row py a evidence) db.attempts }

/-- `_row_to_attempt`. -/
def rowToAttempt (row : Row Cell) : Option ExecutionAttempt := do
  let evidence ← readCell row "evidence" (Cell.asDictOrEmpty floatOf)
  let id ← readCell row "id" Cell.asText
  let receiptId ← readCell row "receipt_id" Cell.asText
  let attemptNumber ← readCell row "attempt_number" Cell.asNat
  let state ← readCell row "state" Cell.asEnum
  let createdAt ← readCell row "created_at" (Cell.asTime py)
  let invokedAt ← readCell row "invoked_at" (Cell.asTimeOption py)
  let finalizedAt ← readCell row "finalized_at" (Cell.asTimeOption py)
  let outcome ← readCell row "outcome" Cell.asEnumOption
  let adapterName ← readCell row "adapter_name" Cell.asOption
  let error ← readCell row "error" Cell.asOption
  pure { id, receiptId, attemptNumber, state, createdAt, invokedAt, finalizedAt, outcome, adapterName, error,
         evidence }

/-- `ORDER BY attempt_number ASC, rowid ASC`. -/
def listByReceipt (receiptId : String) : RowProc (List ExecutionAttempt) := do
  fetchAll (rowToAttempt py floatOf) (← query fun db =>
    (db.attempts.filter (hasCell "receipt_id" (.text receiptId))).insertionSort
      fun a b => inOrder "attempt_number" a b)

end AttemptRepository

namespace IdempotencyRepository

def row (r : IdempotencyRecord) : Row Cell := [
  ("key", .text r.key),
  ("receipt_id", .ofOption r.receiptId),
  ("state", .ofEnum r.state),
  ("outcome", .ofEnumOption r.outcome),
  ("created_at", .ofTime py r.createdAt),
  ("updated_at", .ofTime py r.updatedAt)]

def updated : List String := ["receipt_id", "state", "outcome", "updated_at"]

/-- `_row_to_idempotency`. -/
def rowToIdempotency (row : Row Cell) : Option IdempotencyRecord := do
  let key ← readCell row "key" Cell.asText
  let receiptId ← readCell row "receipt_id" Cell.asOption
  let state ← readCell row "state" Cell.asEnum
  let outcome ← readCell row "outcome" Cell.asEnumOption
  let createdAt ← readCell row "created_at" (Cell.asTime py)
  let updatedAt ← readCell row "updated_at" (Cell.asTime py)
  pure { key, receiptId, state, outcome, createdAt, updatedAt }

def get (key : String) : RowProc (Option IdempotencyRecord) := do
  fetchOne (rowToIdempotency py) (← query fun db => db.idempotency.find? (hasCell "key" (.text key)))

def save (r : IdempotencyRecord) : RowProc Unit := withUow <|
  execute fun db => { db with idempotency := upsert "key" updated (row py r) db.idempotency }

/-- A plain `INSERT`. -/
def reserve (r : IdempotencyRecord) : RowProc Unit := withUow <|
  executeChecked (fun db => !db.idempotency.any (hasCell "key" (.text r.key)))
    "UNIQUE constraint failed: app_idempotency.key"
    fun db => { db with idempotency := db.idempotency ++ [row py r] }

end IdempotencyRepository

end Repositories

end Sql

/-! ## Clients -/

/-- A call of a repository, with the type of its answer. -/
inductive RepositoryCall : Type → Type
  | saveTask (task : Task) : RepositoryCall Unit
  | getTask (taskId : String) : RepositoryCall (Option Task)
  | listTasks (sessionId : String) : RepositoryCall (List Task)
  | listTransientTasks : RepositoryCall (List Task)
  | savePlan (plan : Plan) : RepositoryCall Unit
  | getPlan (taskId : String) : RepositoryCall (Option Plan)
  | saveDecision (decision : Decision) : RepositoryCall Unit
  | getDecision (taskId : String) : RepositoryCall (Option Decision)
  | saveAuthorization (authorization : Authorization) : RepositoryCall Unit
  | listAuthorizations (taskId : String) : RepositoryCall (List Authorization)
  | saveExecution (record : ToolExecutionRecord) : RepositoryCall Unit
  | listExecutions (taskId : String) : RepositoryCall (List ToolExecutionRecord)
  | latestExecution (taskId : String) : RepositoryCall (Option ToolExecutionRecord)
  | executionByKey (key : String) : RepositoryCall (Option ToolExecutionRecord)
  | saveVerification (record : VerificationRecord) : RepositoryCall Unit
  | listVerifications (taskId : String) : RepositoryCall (List VerificationRecord)
  | latestVerification (taskId : String) : RepositoryCall (Option VerificationRecord)
  | saveRecoveryAttempt (attempt : RecoveryAttempt) : RepositoryCall Unit
  | listRecoveryAttempts (taskId : String) : RepositoryCall (List RecoveryAttempt)
  | latestRecoveryAttempt (taskId : String) : RepositoryCall (Option RecoveryAttempt)
  | saveReceipt (receipt : ExecutionReceipt) : RepositoryCall Unit
  | getReceipt (receiptId : String) : RepositoryCall (Option ExecutionReceipt)
  | getReceiptByContract (contractId : String) : RepositoryCall (Option ExecutionReceipt)
  | listUnfinalized : RepositoryCall (List ExecutionReceipt)
  | saveAttempt (attempt : ExecutionAttempt) : RepositoryCall Unit
  | listAttempts (receiptId : String) : RepositoryCall (List ExecutionAttempt)
  | getKey (key : String) : RepositoryCall (Option IdempotencyRecord)
  | saveKey (record : IdempotencyRecord) : RepositoryCall Unit
  | reserveKey (record : IdempotencyRecord) : RepositoryCall Unit

namespace RepositoryCall

/-- The call on the tables of records. -/
def onTables (py : Stdlib) {α : Type} : RepositoryCall α → Proc α
  | saveTask task => TaskRepository.save task
  | getTask taskId => TaskRepository.get taskId
  | listTasks sessionId => TaskRepository.listBySession sessionId
  | listTransientTasks => TaskRepository.listTransientTasks
  | savePlan plan => PlanRepository.save plan
  | getPlan taskId => PlanRepository.getByTask taskId
  | saveDecision decision => DecisionRepository.save decision
  | getDecision taskId => DecisionRepository.getByTask taskId
  | saveAuthorization authorization => AuthorizationRepository.save authorization
  | listAuthorizations taskId => AuthorizationRepository.listByTask taskId
  | saveExecution record => ToolExecutionRepository.save py record
  | listExecutions taskId => ToolExecutionRepository.listByTask taskId
  | latestExecution taskId => ToolExecutionRepository.getLatestByTask taskId
  | executionByKey key => ToolExecutionRepository.getByIdempotencyKey key
  | saveVerification record => VerificationRepository.save record
  | listVerifications taskId => VerificationRepository.listByTask taskId
  | latestVerification taskId => VerificationRepository.getLatestByTask taskId
  | saveRecoveryAttempt attempt => RecoveryAttemptRepository.save attempt
  | listRecoveryAttempts taskId => RecoveryAttemptRepository.listByTask taskId
  | latestRecoveryAttempt taskId => RecoveryAttemptRepository.getLatestByTask taskId
  | saveReceipt receipt => ReceiptRepository.save receipt
  | getReceipt receiptId => ReceiptRepository.get receiptId
  | getReceiptByContract contractId => ReceiptRepository.getByContract contractId
  | listUnfinalized => ReceiptRepository.listUnfinalized
  | saveAttempt attempt => AttemptRepository.save attempt
  | listAttempts receiptId => AttemptRepository.listByReceipt receiptId
  | getKey key => IdempotencyRepository.get key
  | saveKey record => IdempotencyRepository.save record
  | reserveKey record => IdempotencyRepository.reserve record

/-- The call on the rows. -/
def onRows (py : Stdlib) (floatOf : String → PyFloat) {α : Type} : RepositoryCall α → RowProc α
  | saveTask task => Sql.TaskRepository.save py task
  | getTask taskId => Sql.TaskRepository.get py floatOf taskId
  | listTasks sessionId => Sql.TaskRepository.listBySession py floatOf sessionId
  | listTransientTasks => Sql.TaskRepository.listTransientTasks py floatOf
  | savePlan plan => Sql.PlanRepository.save py plan
  | getPlan taskId => Sql.PlanRepository.getByTask floatOf taskId
  | saveDecision decision => Sql.DecisionRepository.save py decision
  | getDecision taskId => Sql.DecisionRepository.getByTask floatOf taskId
  | saveAuthorization authorization => Sql.AuthorizationRepository.save py authorization
  | listAuthorizations taskId => Sql.AuthorizationRepository.listByTask py taskId
  | saveExecution record => Sql.ToolExecutionRepository.save py record
  | listExecutions taskId => Sql.ToolExecutionRepository.listByTask floatOf taskId
  | latestExecution taskId => Sql.ToolExecutionRepository.getLatestByTask floatOf taskId
  | executionByKey key => Sql.ToolExecutionRepository.getByIdempotencyKey floatOf key
  | saveVerification record => Sql.VerificationRepository.save record
  | listVerifications taskId => Sql.VerificationRepository.listByTask taskId
  | latestVerification taskId => Sql.VerificationRepository.getLatestByTask taskId
  | saveRecoveryAttempt attempt => Sql.RecoveryAttemptRepository.save attempt
  | listRecoveryAttempts taskId => Sql.RecoveryAttemptRepository.listByTask taskId
  | latestRecoveryAttempt taskId => Sql.RecoveryAttemptRepository.getLatestByTask taskId
  | saveReceipt receipt => Sql.ReceiptRepository.save py receipt
  | getReceipt receiptId => Sql.ReceiptRepository.get py floatOf receiptId
  | getReceiptByContract contractId => Sql.ReceiptRepository.getByContract py floatOf contractId
  | listUnfinalized => Sql.ReceiptRepository.listUnfinalized py floatOf
  | saveAttempt attempt => Sql.AttemptRepository.save py attempt
  | listAttempts receiptId => Sql.AttemptRepository.listByReceipt py floatOf receiptId
  | getKey key => Sql.IdempotencyRepository.get py key
  | saveKey record => Sql.IdempotencyRepository.save py record
  | reserveKey record => Sql.IdempotencyRepository.reserve py record

end RepositoryCall

/-- What uses the repositories: it makes calls, one after the other or in `with unit_of_work` blocks, and
goes on with what they answer or raise. -/
inductive RepositoryClient : Type → Type 1
  | done {α : Type} (value : α) : RepositoryClient α
  | raise {α : Type} (e : Err) : RepositoryClient α
  | call {α β : Type} (made : RepositoryCall β) (next : Except Err β → RepositoryClient α) : RepositoryClient α
  | block {α β : Type} (body : RepositoryClient β) (next : Except Err β → RepositoryClient α) : RepositoryClient α

namespace RepositoryClient

def onTables (py : Stdlib) {α : Type} : RepositoryClient α → Proc α
  | done value => pure value
  | raise e => throw e
  | call made next => do (next (← (made.onTables py).attempt)).onTables py
  | block body next => do (next (← (withUow (body.onTables py)).attempt)).onTables py

def onRows (py : Stdlib) (floatOf : String → PyFloat) {α : Type} : RepositoryClient α → RowProc α
  | done value => pure value
  | raise e => throw e
  | call made next => do (next (← (made.onRows py floatOf).attempt)).onRows py floatOf
  | block body next => do (next (← (Sql.withUow (body.onRows py floatOf)).attempt)).onRows py floatOf

end RepositoryClient

end Shea.Model
