import Shea.Model.Tools

/-!
# Execution boundaries

`ports/execution_boundary.py`, `security/secrets.py`, `tools/boundary.py` and `security/sandbox.py`. A
boundary runs a tool handler. The unsafe one only calls it; the sandboxed one gives it a limited time,
redacts what it answers and refuses answers that are too large.

The data of an answer may hold any object. What `json` and `str()` make of it, and what they raise, is
left to `Rendering`; whether the handler is done in time, to the surroundings.
-/

set_option autoImplicit false

namespace Shea.Model

/-- `ExecutionScope` of the port, without the limits that only child processes have. -/
structure BoundaryScope where
  maxRuntimeSeconds : Option PyFloat := some (.finite 30 0)
  redactSecrets : Bool := true
  maxOutputBytes : Option ℤ := some 1000000

/-! ## Redaction -/

/-- `REDACTED`. -/
def redactedText : String := "[REDACTED]"

/-- `DEFAULT_SECRET_PATTERNS`. -/
def defaultSecretPatterns : List String := [
  "AKIA[0-9A-Z]\x7b16\x7d",
  "sk-[A-Za-z0-9]\x7b20,\x7d",
  "(?i)bearer\\s+[A-Za-z0-9._-]\x7b10,\x7d",
  "(?i)(api[_-]?key|secret|password)\\s*[:=]\\s*\\S+"]

structure SecretRedactor where
  patterns : List String := defaultSecretPatterns
  exactSecrets : List String := []

def SecretRedactor.redact (py : Stdlib) (redactor : SecretRedactor) (value : String) : String :=
  let withoutSecrets := redactor.exactSecrets.foldl
    (fun text secret => if secret = "" then text else text.replace secret redactedText) value
  redactor.patterns.foldl (fun text pattern => py.reSub pattern redactedText text) withoutSecrets

/-! ## The two boundaries -/

/-- What Python makes of the data of an answer. -/
structure Rendering where
  /-- `json.dumps(data, default=str)`. -/
  dumps : Value → Except Err String
  /-- `json.loads(text)`. -/
  loads : String → Except Err Value
  /-- `str(data)`. -/
  str : Value → Except Err String
  /-- `len(text.encode())`. -/
  encodedLength : String → Except Err ℤ
  /-- `len(data)`, for `bytes` and `bytearray`. -/
  bytesLength : Value → Option ℤ := fun _ => none

/-- The exception is caught by `except (TypeError, ValueError)`. -/
def isTypeOrValueError (e : Err) : Bool :=
  e.typeName ∈ ["TypeError", "ValueError", "JSONDecodeError", "UnicodeError", "UnicodeEncodeError",
    "UnicodeDecodeError", "UnicodeTranslateError"]

/-- How far a handler is when its result is asked for. -/
inductive FutureProgress
  /-- It is done already, and nobody waits. -/
  | doneAtOnce
  /-- It is done before the time is up. -/
  | doneInTime
  | late
  deriving DecidableEq, Repr

/-- What `future.result(timeout)` meets. -/
structure FutureWait where
  /-- How far the handler is, for a time limit, a request and an instant. -/
  progress : PyFloat → ToolRequest → ℕ → FutureProgress
  /-- A lock takes no such time limit: `inf`, or one above `threading.TIMEOUT_MAX`. -/
  tooLong : PyFloat → Bool

/-- `UnsafeExecutionBoundary.run`. -/
def UnsafeExecutionBoundary.run (handler : ToolHandler) : ToolHandler := handler

structure SandboxedExecutionBoundary where
  redactor : SecretRedactor := {}

namespace SandboxedExecutionBoundary

/-- `_redact_response`, of the data. -/
def redactData (boundary : SandboxedExecutionBoundary) (py : Stdlib) (rendering : Rendering)
    (data : Value) : Except Err Value :=
  match data with
  | .none => .ok .none
  | .str text => .ok (.str (boundary.redactor.redact py text))
  | data =>
    match rendering.dumps data >>= fun blob => rendering.loads (boundary.redactor.redact py blob) with
    | .ok redacted => .ok redacted
    | .error e =>
      if isTypeOrValueError e then
        (rendering.str data).map fun text => .str (boundary.redactor.redact py text)
      else .error e

/-- `_redact_response`. -/
def redactResponse (boundary : SandboxedExecutionBoundary) (py : Stdlib) (rendering : Rendering)
    (response : ToolResponse) : Except Err ToolResponse := do
  let data ← boundary.redactData py rendering response.data
  pure { success := response.success
         data := data
         error := response.error.map (boundary.redactor.redact py)
         metadata := response.metadata }

/-- `_estimate_size`. -/
def estimateSize (rendering : Rendering) (data : Value) : Except Err ℤ :=
  match rendering.bytesLength data with
  | some size => .ok size
  | none =>
    match data with
    | .str text => rendering.encodedLength text
    | data =>
      match rendering.dumps data >>= rendering.encodedLength with
      | .ok size => .ok size
      | .error e =>
        if isTypeOrValueError e then rendering.str data >>= rendering.encodedLength else .error e

/-- `f"tool {request.tool!r} exceeded the {timeout}s timeout; outcome unknown"`. -/
def timeoutMessage (py : Stdlib) (request : ToolRequest) (timeout : PyFloat) : String :=
  "tool " ++ py.reprOf (.str request.tool) ++ " exceeded the " ++ pyStr py (.float timeout) ++
    "s timeout; outcome unknown"

/-- `future.result()` of a handler that is done. One that raises `TimeoutError` itself is taken for one
that is late. -/
def resultOf (py : Stdlib) (request : ToolRequest) (timeout : PyFloat) :
    Except Err ToolResponse → Except Err ToolResponse
  | .ok response => .ok response
  | .error e =>
    if e.typeName = "TimeoutError" then .error (.unknownOutcome (timeoutMessage py request timeout))
    else .error e

/-- The call of the handler. Where there is something to wait for, a time limit that is too long is an
`OverflowError`, which leaves the block when the handler is done. -/
def callHandler (py : Stdlib) (waiting : FutureWait) (handler : ToolHandler)
    (scope : BoundaryScope) (request : ToolRequest) (instant : ℕ) : Except Err ToolResponse :=
  match scope.maxRuntimeSeconds with
  | none => handler request instant
  | some timeout =>
    match waiting.progress timeout request instant with
    | .doneAtOnce => resultOf py request timeout (handler request instant)
    | .doneInTime =>
      if waiting.tooLong timeout then
        .error (.overflowError "timestamp out of range for platform time_t")
      else resultOf py request timeout (handler request instant)
    | .late =>
      if waiting.tooLong timeout then
        .error (.overflowError "timestamp out of range for platform time_t")
      else .error (.unknownOutcome (timeoutMessage py request timeout))

/-- The answer to output that is too large. -/
def oversized (response : ToolResponse) (size limit : ℤ) : ToolResponse :=
  { success := false
    data := .none
    error := some ("tool output exceeded max_output_bytes (" ++ toString size ++ " > " ++
      toString limit ++ ")")
    metadata := (response.metadata.set "output_truncated" (.bool true)).set "isolation_layer"
      (.str "resource_boundary") }

/-- The answer with a note of the limits. -/
def labelled (scope : BoundaryScope) (response : ToolResponse) : ToolResponse :=
  { success := response.success
    data := response.data
    error := response.error
    metadata := (response.metadata.set "isolation_layer" (.str "resource_boundary")).set
      "isolation_limits" (.dict [
        ("max_runtime_seconds", scope.maxRuntimeSeconds.elim .none .float),
        ("max_output_bytes", scope.maxOutputBytes.elim .none .int),
        ("redact_secrets", .bool scope.redactSecrets)]) }

/-- The check of the size. -/
def limitOutput (rendering : Rendering) (scope : BoundaryScope) (response : ToolResponse) :
    Except Err ToolResponse :=
  match scope.maxOutputBytes with
  | none => .ok (labelled scope response)
  | some limit =>
    if response.data = .none then .ok (labelled scope response)
    else do
      let size ← estimateSize rendering response.data
      if limit < size then pure (oversized response size limit) else pure (labelled scope response)

/-- What follows the handler. -/
def process (boundary : SandboxedExecutionBoundary) (py : Stdlib) (rendering : Rendering)
    (scope : BoundaryScope) (response : ToolResponse) : Except Err ToolResponse := do
  let response ← if scope.redactSecrets then boundary.redactResponse py rendering response
    else pure response
  limitOutput rendering scope response

/-- `SandboxedExecutionBoundary.run`. -/
def run (boundary : SandboxedExecutionBoundary) (py : Stdlib) (rendering : Rendering)
    (waiting : FutureWait) (scope : BoundaryScope) (handler : ToolHandler) : ToolHandler :=
  fun request instant => do
    let response ← callHandler py waiting handler scope request instant
    boundary.process py rendering scope response

end SandboxedExecutionBoundary

end Shea.Model
