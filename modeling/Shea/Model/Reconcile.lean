import Shea.Model.World

/-!
# Reconciliation of stuck executions

`app/recovery.py` and `app/reconcile/`. A receipt that the process left unfinished is classified by
the states of the receipt and of its last attempt; then the first reconciler that claims its
operation (or its capability) looks at the machine and says what came of it. A reconciler only
looks: everything it learns about the machine comes from `Probes`, and each probe may raise.
-/

set_option autoImplicit false

namespace Shea.Model

/-- Why an execution needs reconciliation. -/
inductive StuckReason
  | receiptWithoutAttempt
  | attemptInvokedNotFinalized
  | attemptCreatedNotInvoked
  | receiptAttempting
  deriving DecidableEq, Repr

def StuckReason.value : StuckReason → String
  | receiptWithoutAttempt => "receipt_without_attempt"
  | attemptInvokedNotFinalized => "attempt_invoked_not_finalized"
  | attemptCreatedNotInvoked => "attempt_created_not_invoked"
  | receiptAttempting => "receipt_attempting"

/-- `classify_stuck_attempt`: `none` when there is nothing to reconcile. -/
def classifyStuckAttempt (receipt : ExecutionReceipt) (attempt : Option ExecutionAttempt) :
    Option StuckReason :=
  if receipt.state = .finalized then none
  else match attempt with
    | none => some .receiptWithoutAttempt
    | some a =>
      if a.state = .invoked then some .attemptInvokedNotFinalized
      else if a.state = .created ∧ receipt.state = .attempting then some .attemptCreatedNotInvoked
      else if receipt.state = .attempting then some .receiptAttempting
      else none

/-- What a reconciler learned without invoking the adapter again. -/
structure ReconcileObservation where
  outcome : AppOutcome
  detail : String
  evidence : Dict := []
  sideEffectDetected : Bool := false
  deriving DecidableEq, Repr

/-- A reconciler of one class of operations. -/
structure OperationReconciler where
  name : String
  supports : ExecutionReceipt → Bool
  observe : Stdlib → Probes → ExecutionReceipt → Option ExecutionAttempt → StuckReason →
    Except Err ReconcileObservation

/-- The evidence a reconciler starts from: that of the attempt, when there is one. -/
def attemptEvidence (attempt : Option ExecutionAttempt) : Dict := attempt.elim [] (·.evidence)

/-! ## `filesystem.*` -/

namespace FilesystemReconciler

def supports (receipt : ExecutionReceipt) : Bool :=
  startsWith receipt.operation "filesystem." || startsWith receipt.capability "filesystem."

/-- `isinstance(raw, str) and raw`. -/
def pathArgument : Value → Option String
  | .str raw => if raw = "" then none else some raw
  | _ => none

/-- `source.get("path") or source.get("target_path")`, when it is a non-empty text. -/
def pathIn (source : Dict) : Option String :=
  pathArgument ((source.get "path").orElse (source.get "target_path"))

/-- `Path(raw).resolve()`, or `Path(raw)` after an `OSError`. -/
def resolveOrRaw (py : Stdlib) (probes : Probes) (raw : String) : Except Err String :=
  match probes.resolve raw with
  | .ok path => .ok path
  | .error (.osError _) => .ok (py.pathText raw)
  | .error .permission => .ok (py.pathText raw)
  | .error .processLookup => .ok (py.pathText raw)
  | .error e => .error e

/-- `arguments["path"]` in the metadata, where the tool plane puts it. -/
def pathInArguments (metadata : Dict) : Option String :=
  match metadata.get "arguments" with
  | .dict args => pathArgument (Dict.get args "path")
  | _ => none

/-- `_path_from`: the attempt's evidence, then the receipt's metadata, then the tool arguments. -/
def pathFrom (py : Stdlib) (probes : Probes) (receipt : ExecutionReceipt)
    (attempt : Option ExecutionAttempt) : Except Err (Option String) :=
  match pathIn (attemptEvidence attempt) with
  | some raw => some <$> resolveOrRaw py probes raw
  | none =>
    match pathIn receipt.metadata with
    | some raw => some <$> resolveOrRaw py probes raw
    | none => .ok ((pathInArguments receipt.metadata).map py.pathText)

/-- The operation writes or creates. -/
def writes (op : String) : Bool :=
  containsText op "write" || containsText op "create" || endsWith op ".write"

/-- The operation deletes. -/
def deletes (op : String) : Bool := containsText op "delete" || containsText op "unlink"

/-- `exists and path.is_file()`. -/
def existsAsFile (probes : Probes) (path : String) (present : Bool) : Except Err Bool :=
  if present then probes.isFile path else .ok false

def observeWrite (path : String) (isFile : Bool) (reason : StuckReason) : ReconcileObservation :=
  if isFile then
    { outcome := .success
      detail := "write postcondition: path exists as file"
      evidence := [("path", .str path), ("exists", .bool true)]
      sideEffectDetected := true }
  else if reason = .attemptInvokedNotFinalized then
    { outcome := .unknown
      detail := "write may or may not have completed; path absent"
      evidence := [("path", .str path), ("exists", .bool false)] }
  else
    { outcome := .failure
      detail := "write never reached invoke or left no file"
      evidence := [("path", .str path), ("exists", .bool false)] }

def observeDelete (path : String) (present : Bool) (reason : StuckReason) : ReconcileObservation :=
  if !present then
    { outcome := .success
      detail := "delete postcondition: path absent"
      evidence := [("path", .str path), ("exists", .bool false)]
      sideEffectDetected := true }
  else if reason = .attemptInvokedNotFinalized then
    { outcome := .unknown
      detail := "delete may have failed; path still present"
      evidence := [("path", .str path), ("exists", .bool true)] }
  else
    { outcome := .failure
      detail := "delete did not remove path"
      evidence := [("path", .str path), ("exists", .bool true)] }

def observeRead (path : String) (present : Bool) (reason : StuckReason) : ReconcileObservation :=
  if reason = .attemptInvokedNotFinalized then
    { outcome := .unknown
      detail := "read invoke may have completed without finalize"
      evidence := [("path", .str path), ("exists", .bool present)] }
  else
    { outcome := .failure
      detail := "read never completed"
      evidence := [("path", .str path)] }

/-- The rest of `observe`, once there is a path. -/
def observePath (py : Stdlib) (probes : Probes) (op path : String) (reason : StuckReason) :
    Except Err ReconcileObservation := do
  let present ← probes.pathExists path
  if writes op then
    let isFile ← existsAsFile probes path present
    pure (observeWrite path isFile reason)
  else if deletes op then
    pure (observeDelete path present reason)
  else if containsText op "read" then
    pure (observeRead path present reason)
  else
    pure { outcome := .unknown
           detail := "no filesystem observation rule for " ++ py.reprOf (.str op)
           evidence := [("path", .str path)] }

def observe (py : Stdlib) (probes : Probes) (receipt : ExecutionReceipt)
    (attempt : Option ExecutionAttempt) (reason : StuckReason) : Except Err ReconcileObservation := do
  match ← pathFrom py probes receipt attempt with
  | none =>
    pure { outcome := .unknown
           detail := reason.value ++ "; no path in receipt/attempt evidence" }
  | some path => observePath py probes receipt.operation path reason

end FilesystemReconciler

def filesystemReconciler : OperationReconciler :=
  { name := "filesystem"
    supports := FilesystemReconciler.supports
    observe := FilesystemReconciler.observe }

/-! ## `process.*` -/

namespace ProcessReconciler

def supports (receipt : ExecutionReceipt) : Bool :=
  startsWith receipt.operation "process." || startsWith receipt.capability "process."

/-- `int()` of a finite float truncates toward zero. -/
def truncate (mantissa exponent : ℤ) : ℤ :=
  if 0 ≤ exponent then mantissa * 2 ^ exponent.toNat
  else mantissa.tdiv (2 ^ (-exponent).toNat)

/-- `int(value)`. -/
def toInt : Value → Except Err ℤ
  | .bool b => .ok (if b then 1 else 0)
  | .int n => .ok n
  | .float (.finite m e) => .ok (truncate m e)
  | .float .nan => .error (.valueError "cannot convert float NaN to integer")
  | .float _ => .error (.overflowError "cannot convert float infinity to integer")
  | .str text =>
    match intOfText text with
    | some n => .ok n
    | none => .error (.valueError "invalid literal for int() with base 10")
  | _ => .error (.typeError "int() argument must be a string or a real number")

/-- `os.kill(pid, 0)`: a pid outside a C `int` does not reach the system call. -/
def kill (probes : Probes) (pid : ℤ) : Except Err Unit :=
  if -2 ^ 31 ≤ pid ∧ pid < 2 ^ 31 then probes.kill pid
  else .error (.overflowError "signed integer is greater than maximum")

/-- `_pid_alive`. -/
def pidAlive (probes : Probes) (pid : ℤ) : Except Err Bool :=
  if pid ≤ 0 then .ok false
  else match kill probes pid with
    | .ok _ => .ok true
    | .error .processLookup => .ok false
    | .error .permission => .ok true
    | .error (.osError _) => .ok false
    | .error e => .error e

/-- `evidence.get("pid") or meta.get("pid")`. -/
def pidRaw (receipt : ExecutionReceipt) (attempt : Option ExecutionAttempt) : Value :=
  ((attemptEvidence attempt).get "pid").orElse (receipt.metadata.get "pid")

/-- The operation ends a process. -/
def terminates (op : String) : Bool := containsText op "terminate" || containsText op "kill"

def pidEvidence (pid : ℤ) (alive : Bool) : Dict := [("pid", .int pid), ("alive", .bool alive)]

def observeTerminate (pid : ℤ) (alive : Bool) (reason : StuckReason) : ReconcileObservation :=
  if !alive then
    { outcome := .success
      detail := "terminate postcondition: pid not alive"
      evidence := pidEvidence pid false
      sideEffectDetected := true }
  else
    { outcome := if reason = .attemptInvokedNotFinalized then .unknown else .failure
      detail := "pid still alive after terminate attempt"
      evidence := pidEvidence pid true }

def observeSpawn (pid : ℤ) (alive : Bool) (reason : StuckReason) : ReconcileObservation :=
  if alive then
    { outcome := .success
      detail := "process still alive"
      evidence := pidEvidence pid true
      sideEffectDetected := true }
  else if reason = .attemptInvokedNotFinalized then
    { outcome := .unknown
      detail := "pid gone; exit status unknown"
      evidence := pidEvidence pid false }
  else
    { outcome := .failure
      detail := "process not alive and never finalized"
      evidence := pidEvidence pid false }

def observeWithoutPid (reason : StuckReason) : ReconcileObservation :=
  if reason = .attemptInvokedNotFinalized then
    { outcome := .unknown, detail := "process invoke without recorded pid" }
  else
    { outcome := .failure, detail := "process never recorded a pid" }

/-- The rest of `observe`, once the pid is a number. -/
def observePid (probes : Probes) (op : String) (pid : ℤ) (reason : StuckReason) :
    Except Err ReconcileObservation := do
  let alive ← pidAlive probes pid
  if terminates op then
    pure (observeTerminate pid alive reason)
  else
    pure (observeSpawn pid alive reason)

def observe (py : Stdlib) (probes : Probes) (receipt : ExecutionReceipt)
    (attempt : Option ExecutionAttempt) (reason : StuckReason) : Except Err ReconcileObservation :=
  let raw := pidRaw receipt attempt
  if raw = .none then .ok (observeWithoutPid reason)
  else match toInt raw with
    | .ok pid => observePid probes receipt.operation pid reason
    | .error (.typeError _) => .ok (unparseable raw)
    | .error (.valueError _) => .ok (unparseable raw)
    | .error e => .error e
where
  unparseable (raw : Value) : ReconcileObservation :=
    { outcome := .unknown, detail := "unparseable pid " ++ py.reprOf raw }

end ProcessReconciler

def processReconciler : OperationReconciler :=
  { name := "process"
    supports := ProcessReconciler.supports
    observe := ProcessReconciler.observe }

/-! ## `network.*` and `application.*` -/

/-- The reconcilers that only look at the evidence already on the attempt. -/
def observeRecordedEvidence (recorded : Dict → Bool) (found lost never : String)
    (attempt : Option ExecutionAttempt) (reason : StuckReason) : ReconcileObservation :=
  let evidence := attemptEvidence attempt
  if recorded evidence then
    { outcome := .success, detail := found, evidence := evidence, sideEffectDetected := true }
  else if reason = .attemptInvokedNotFinalized then
    { outcome := .unknown, detail := lost, evidence := evidence }
  else
    { outcome := .failure, detail := never, evidence := evidence }

namespace NetworkReconciler

def supports (receipt : ExecutionReceipt) : Bool :=
  startsWith receipt.operation "network." || startsWith receipt.operation "http." ||
    startsWith receipt.operation "browser." || startsWith receipt.capability "network."

/-- A response was recorded on the attempt. -/
def responseRecorded (evidence : Dict) : Bool :=
  evidence.has "status_code" || evidence.get "postcondition" = .str "response_received"

def observe (_ : Stdlib) (_ : Probes) (_ : ExecutionReceipt) (attempt : Option ExecutionAttempt)
    (reason : StuckReason) : Except Err ReconcileObservation :=
  .ok <| observeRecordedEvidence responseRecorded
    "response evidence already present on attempt"
    ("network/browser invoke without response evidence; " ++
      "side effect may have occurred (UNKNOWN ≠ FAILURE)")
    "network operation never reached durable invoke" attempt reason

end NetworkReconciler

def networkReconciler : OperationReconciler :=
  { name := "network"
    supports := NetworkReconciler.supports
    observe := NetworkReconciler.observe }

namespace ApplicationReconciler

def supports (receipt : ExecutionReceipt) : Bool :=
  startsWith receipt.operation "application." || startsWith receipt.operation "app."

/-- A launch or a termination was recorded on the attempt. -/
def changeRecorded (evidence : Dict) : Bool :=
  evidence.get "launched" = .bool true || evidence.get "terminated" = .bool true

def observe (_ : Stdlib) (_ : Probes) (_ : ExecutionReceipt) (attempt : Option ExecutionAttempt)
    (reason : StuckReason) : Except Err ReconcileObservation :=
  .ok <| observeRecordedEvidence changeRecorded
    "application evidence present on attempt"
    "application side effect may have occurred"
    "application operation never invoked" attempt reason

end ApplicationReconciler

def applicationReconciler : OperationReconciler :=
  { name := "application"
    supports := ApplicationReconciler.supports
    observe := ApplicationReconciler.observe }

/-! ## The registry -/

namespace DefaultReconciler

def observe (_ : Stdlib) (_ : Probes) (_ : ExecutionReceipt) (_ : Option ExecutionAttempt)
    (reason : StuckReason) : Except Err ReconcileObservation :=
  .ok <|
    if reason = .attemptInvokedNotFinalized then
      { outcome := .unknown
        detail := "default: " ++ reason.value ++ "; external state unknowable" }
    else
      { outcome := .failure
        detail := "default: " ++ reason.value ++ "; no side effect claimed" }

end DefaultReconciler

def defaultReconciler : OperationReconciler :=
  { name := "default"
    supports := fun _ => true
    observe := DefaultReconciler.observe }

/-- Reconcilers in registration order; `defaultReconciler` takes what none of them supports. -/
abbrev ReconcilerRegistry := List OperationReconciler

namespace ReconcilerRegistry

def select (registry : ReconcilerRegistry) (receipt : ExecutionReceipt) : OperationReconciler :=
  (registry.find? (·.supports receipt)).getD defaultReconciler

def observe (registry : ReconcilerRegistry) (py : Stdlib) (probes : Probes)
    (receipt : ExecutionReceipt) (attempt : Option ExecutionAttempt) (reason : StuckReason) :
    Except Err ReconcileObservation :=
  (registry.select receipt).observe py probes receipt attempt reason

end ReconcilerRegistry

def defaultReconcilerRegistry : ReconcilerRegistry :=
  [filesystemReconciler, processReconciler, networkReconciler, applicationReconciler]

end Shea.Model
