import Shea.Model.Security
import Shea.Model.Supervisor

/-!
# Tools

`tools/schema.py`, `tools/registry.py`, `tools/executor.py`, `credentials/injection.py` and
`app/adapters/tool_executor.py`.

A tool handler, the execution boundary around it and the credential broker are injected. A handler is
what it answers to a request at an instant; the boundary gets the handler and runs it. Entering the
boundary is logged as a handler call, with the request the executor was given and the one it passed
on.

A declaration carries its argument schema already parsed: the executor parses a schema given as a
mapping on first use.
-/

set_option autoImplicit false

namespace Shea.Model

open Shea.Computation

/-- The number a value is, for `int`, `float` and `bool`. -/
def Value.number : Value → Option PyFloat
  | .bool b => some (.finite (if b then 1 else 0) 0)
  | .int n => some (.finite n 0)
  | .float x => some x
  | _ => Option.none

/-- `x < y` of numbers; integers and binary floats compare exactly. -/
def PyFloat.lt : PyFloat → PyFloat → Bool
  | .nan, _ => false
  | _, .nan => false
  | .inf, _ => false
  | .negInf, y => y ≠ .negInf
  | .finite _ _, .inf => true
  | .finite _ _, .negInf => false
  | .finite m e, .finite m' e' => m * 2 ^ (e - min e e').toNat < m' * 2 ^ (e' - min e e').toNat

/-- `x == y` of numbers. -/
def PyFloat.eq (x y : PyFloat) : Bool :=
  x ≠ .nan && y ≠ .nan && !x.lt y && !y.lt x

mutual

/-- `a == b`. Numbers compare by value across their types. -/
def pyEq : Value → Value → Bool
  | .none, .none => true
  | .str a, .str b => a = b
  | .list a, .list b => pyEqList a b
  | .dict a, .dict b => a.length = b.length && pyEqDict a b
  | .other a traits written, .other b traits' written' =>
    a = b && traits = traits' && written = written'
  | a, b =>
    match a.number, b.number with
    | some x, some y => x.eq y
    | _, _ => false

def pyEqList : List Value → List Value → Bool
  | [], [] => true
  | a :: as, b :: bs => pyEq a b && pyEqList as bs
  | _, _ => false

/-- Every entry has an equal one under its key. -/
def pyEqDict : List (String × Value) → Dict → Bool
  | [], _ => true
  | (k, a) :: as, bs =>
      (match bs.lookup k with
        | some b => pyEq a b
        | none => false) && pyEqDict as bs

end

inductive ArgumentType
  | string
  | integer
  | float
  | boolean
  | array
  | object
  | any
  deriving DecidableEq, Repr

def ArgumentType.value : ArgumentType → String
  | string => "string"
  | integer => "integer"
  | float => "float"
  | boolean => "boolean"
  | array => "array"
  | object => "object"
  | any => "any"

structure ArgumentSchema where
  name : String
  type : ArgumentType
  required : Bool := true
  default : Value := .none
  minValue : Value := .none
  maxValue : Value := .none
  minLength : Option ℕ := none
  maxLength : Option ℕ := none
  pattern : Option String := none
  enum : Option (List Value) := none
  customValidator : Option (Value → Bool) := none
  customValidatorMessage : String := "Validation failed"

namespace ArgumentSchema

/-- `_check_type`. -/
def checkType : ArgumentType → Value → Bool
  | .any, _ => true
  | .string, .str _ => true
  | .integer, .int _ => true
  | .float, .int _ => true
  | .float, .float _ => true
  | .boolean, .bool _ => true
  | .array, .list _ => true
  | .object, .dict _ => true
  | _, _ => false

/-- `f"Argument '{self.name}' must be of type {self.type.value}"`. -/
def typeMessage (schema : ArgumentSchema) : String :=
  "Argument '" ++ schema.name ++ "' must be of type " ++ schema.type.value

/-- `value < bound`, with the error Python raises for a bound that is not a number. -/
def less (a b : Value) : Except Err Bool :=
  match a.number, b.number with
  | some x, some y => .ok (x.lt y)
  | _, _ => .error (.typeError "'<' not supported between instances")

/-- The numeric bounds; the result is the error message, if any. -/
def checkBounds (schema : ArgumentSchema) (py : Stdlib) (value : Value) :
    Except Err (Option String) := do
  if schema.minValue ≠ .none then
    if ← less value schema.minValue then
      return some ("Argument '" ++ schema.name ++ "' must be >= " ++ pyStr py schema.minValue)
  if schema.maxValue ≠ .none then
    if ← less schema.maxValue value then
      return some ("Argument '" ++ schema.name ++ "' must be <= " ++ pyStr py schema.maxValue)
  return none

/-- The bounds on a text. -/
def checkText (schema : ArgumentSchema) (py : Stdlib) (text : String) :
    Except Err (Option String) := do
  if schema.minLength.any (text.length < ·) then
    return schema.minLength.map fun n =>
      "Argument '" ++ schema.name ++ "' must have length >= " ++ toString n
  if schema.maxLength.any (· < text.length) then
    return schema.maxLength.map fun n =>
      "Argument '" ++ schema.name ++ "' must have length <= " ++ toString n
  match schema.pattern with
  | none => return none
  | some pattern =>
    match py.reMatch pattern text with
    | none => throw (.other "error" "invalid pattern")
    | some true => return none
    | some false => return some ("Argument '" ++ schema.name ++ "' must match pattern " ++ pattern)

/-- The checks that depend on the type. -/
def checkShape (schema : ArgumentSchema) (py : Stdlib) (value : Value) :
    Except Err (Option String) :=
  match schema.type, value with
  | .integer, _ => schema.checkBounds py value
  | .float, _ => schema.checkBounds py value
  | .string, .str text => schema.checkText py text
  | _, _ => .ok none

/-- The enumeration and the custom validator. -/
def checkChoice (schema : ArgumentSchema) (py : Stdlib) (value : Value) : Option String :=
  if schema.enum.any fun values => !values.any (pyEq value) then
    some ("Argument '" ++ schema.name ++ "' must be one of " ++
      py.reprOf (.list (schema.enum.getD [])))
  else if schema.customValidator.any fun accepts => !accepts value then
    some schema.customValidatorMessage
  else none

/-- `validate`: the error message of an invalid value, or nothing. -/
def validate (schema : ArgumentSchema) (py : Stdlib) (given : Value) :
    Except Err (Option String) := do
  if given = .none ∧ schema.required ∧ schema.default = .none then
    return some ("Argument '" ++ schema.name ++ "' is required")
  let value := if given = .none then schema.default else given
  if !checkType schema.type value then
    return some schema.typeMessage
  match ← schema.checkShape py value with
  | some message => return some message
  | none => return schema.checkChoice py value

end ArgumentSchema

structure ToolSchema where
  name : String
  arguments : List (String × ArgumentSchema) := []

namespace ToolSchema

/-- Required arguments that are missing and have no default. -/
def missingErrors (schema : ToolSchema) (request : ToolRequest) : List String :=
  (schema.arguments.filter fun (name, argument) =>
    argument.required && !request.arguments.has name && argument.default = .none).map
    fun (name, _) => "Missing required argument: " ++ name

/-- The errors of the arguments that were given. -/
def givenErrors (schema : ToolSchema) (py : Stdlib) : Dict → Except Err (List String)
  | [] => .ok []
  | (name, value) :: rest => do
      let error ← match schema.arguments.lookup name with
        | none => pure (some ("Unknown argument: " ++ name))
        | some argument => argument.validate py value
      let errors ← schema.givenErrors py rest
      pure (error.toList ++ errors)

/-- `validate_request`: the errors; none of them means the request is valid. -/
def validateRequest (schema : ToolSchema) (py : Stdlib) (request : ToolRequest) :
    Except Err (List String) := do
  let errors ← schema.givenErrors py request.arguments
  pure (schema.missingErrors request ++ errors)

/-- The arguments with the declared defaults of those that are missing. -/
def withDefaults (arguments : Dict) : List (String × ArgumentSchema) → Dict
  | [] => arguments
  | (name, argument) :: rest =>
      withDefaults
        (if !arguments.has name && argument.default ≠ .none then arguments.set name argument.default
          else arguments) rest

def getValidatedArguments (schema : ToolSchema) (py : Stdlib) (request : ToolRequest) :
    Except Err Dict := do
  let errors ← schema.validateRequest py request
  if errors.isEmpty then
    pure (withDefaults request.arguments schema.arguments)
  else
    throw (.toolValidation ("Tool " ++ py.reprOf (.str schema.name) ++
      " argument validation failed: " ++ String.intercalate ", " errors))

end ToolSchema

/-! ## Argument schemas and the registry -/

/-- What a handler answers to a request at an instant. -/
abbrev ToolHandler := ToolRequest → ℕ → Except Err ToolResponse

structure ToolDeclaration where
  name : String
  capabilities : List String
  baselineRisk : RiskLevel := .unknown
  isolationRequired : Bool := true
  auditRequired : Bool := true
  description : String := ""
  argumentSchema : Option ToolSchema := none

/-- `ELEVATED_CAPABILITIES`. -/
def elevatedCapabilities : List String := [
  "filesystem.write", "filesystem.delete", "process.execute", "shell.execute",
  "credential.access", "network.connect"]

/-- The registered tools, by name. -/
structure ToolRegistry where
  tools : List (ToolDeclaration × ToolHandler) := []

namespace ToolRegistry

def find (registry : ToolRegistry) (name : String) : Option (ToolDeclaration × ToolHandler) :=
  registry.tools.find? (·.1.name = name)

def register (registry : ToolRegistry) (py : Stdlib) (declaration : ToolDeclaration)
    (handler : ToolHandler) : Except Err ToolRegistry :=
  let elevated := declaration.capabilities.filter (· ∈ elevatedCapabilities)
  if (registry.find declaration.name).isSome then
    .error (.other "ToolAlreadyRegisteredError"
      ("A tool named " ++ py.reprOf (.str declaration.name) ++ " is already registered"))
  else if !elevated.isEmpty && declaration.argumentSchema.isNone then
    .error (.other "SchemaRequiredError" ("Tool " ++ py.reprOf (.str declaration.name) ++
      " declares elevated capabilities " ++
      py.reprOf (.list ((sortedTexts elevated).map .str)) ++ " and must provide argument_schema"))
  else .ok { registry with tools := registry.tools ++ [(declaration, handler)] }

/-- `get_declaration` and `get_handler`. -/
def get (registry : ToolRegistry) (name : String) : Except Err (ToolDeclaration × ToolHandler) :=
  match registry.find name with
  | some entry => .ok entry
  | none => .error (.toolNotFound name)

/-- The same of the tool of a request. -/
def getFor (registry : ToolRegistry) (request : ToolRequest) :
    Except Err (ToolDeclaration × ToolHandler) :=
  if request.toolIsText then registry.get request.tool else .error (.toolNotFound request.tool)

end ToolRegistry

/-! ## The executor, and credential injection -/

structure ExecutionResult where
  response : ToolResponse
  outcome : ExecutionOutcome
  deriving DecidableEq, Repr

structure ToolExecutor where
  registry : ToolRegistry
  /-- `boundary.run(request, handler, ExecutionScope())` at an instant. -/
  boundary : ToolHandler → ToolHandler := fun handler => handler
  permitAuthority : ExecutionPermitAuthority
  requirePermit : Bool := true

/-- `permit_data.get(key, "")` as a text. -/
def permitField (py : Stdlib) (data : Dict) (key : String) : String :=
  pyStr py ((data.lookup key).getD (.str ""))

def permitOfDict (py : Stdlib) (data : Dict) : ExecutionPermit :=
  { token := permitField py data "token"
    tool := permitField py data "tool"
    action := permitField py data "action"
    argumentsDigest := permitField py data "arguments_digest"
    capabilitiesDigest := permitField py data "capabilities_digest" }

namespace ToolExecutor

/-- The tool's declared capabilities that are not authorized, in a fixed order. -/
def missingCapabilities (declaration : ToolDeclaration) (authorized : List String) : List String :=
  declaration.capabilities.filter (· ∉ authorized)

def validateCapabilities (executor : ToolExecutor) (request : ToolRequest)
    (authorized : List String) : Except Err Unit := do
  let (declaration, _) ← executor.registry.getFor request
  let missing := missingCapabilities declaration authorized
  if missing.isEmpty then pure () else throw (.capabilityNotAuthorized request.tool missing)

/-- The permit in the request's context: absent, not a mapping, or the permit. -/
def permitOf (py : Stdlib) (request : ToolRequest) : Except Err (Option ExecutionPermit) :=
  match request.context.get "_execution_permit" with
  | .none => .ok none
  | .dict data => .ok (some (permitOfDict py data))
  | _ => .error (.other "AttributeError" "object has no attribute 'get'")

/-- The permit check of `require_permit`. -/
def checkPermit (executor : ToolExecutor) (py : Stdlib) (request : ToolRequest)
    (authorized : List String) (permit : Option ExecutionPermit) : Except Err Unit :=
  if executor.requirePermit && !(permit.any fun permit =>
      executor.permitAuthority.verify py permit request.tool request.action request.arguments
        authorized) then
    .error (.capabilityNotAuthorized request.tool ["<execution_permit_invalid>"])
  else .ok ()

/-- `_validate_arguments`. -/
def validateArguments (py : Stdlib) (request : ToolRequest) (declaration : ToolDeclaration) :
    Except Err ToolRequest :=
  match declaration.argumentSchema with
  | none => .ok request
  | some schema => do
      let arguments ← schema.getValidatedArguments py request
      pure { request with arguments := arguments }

/-- Everything before the boundary: the handler and the request it will get. -/
def prepare (executor : ToolExecutor) (py : Stdlib) (request : ToolRequest)
    (authorized : List String) : Except Err (ToolHandler × ToolRequest) := do
  let (declaration, handler) ← executor.registry.getFor request
  let missing := missingCapabilities declaration authorized
  if !missing.isEmpty then
    throw (.capabilityNotAuthorized request.tool missing)
  let permit ← permitOf py request
  executor.checkPermit py request authorized permit
  let validated ← validateArguments py request declaration
  pure (handler, validated)

/-- What the executor makes of the boundary's answer; what is not an `Exception` is raised on. -/
def resultOf (host : Host) : Except Err ToolResponse → Except Err ExecutionResult
  | .ok response =>
      .ok { response := response, outcome := if response.success then .success else .failure }
  | .error (.unknownOutcome message) =>
      .ok { response := { success := false, error := some message }, outcome := .unknown }
  | .error e =>
    if e.isException then
      .ok { response := { success := false, error := some (host.errText e) }, outcome := .failure }
    else .error e

def execute (executor : ToolExecutor) (host : Host) (request : ToolRequest)
    (authorized : List String) : Proc ExecutionResult := do
  let (handler, validated) ← Program.ofExcept (executor.prepare host.py request authorized)
  note (.handlerCalled
    { request := request, capabilities := authorized, delivered := validated })
  let instant ← Program.get World.ticks
  Program.ofExcept (resultOf host (executor.boundary handler validated instant))

end ToolExecutor

structure CredentialReference where
  id : String
  name : String
  description : Option String
  deriving DecidableEq, Repr

/-- `broker.resolve(reference, tool, profile_id)` at an instant: the secret. -/
abbrev CredentialBroker := CredentialReference → (tool profileId : String) → ℕ → Except Err String

/-- `CREDENTIAL_REF_KEY`. -/
def credentialRefKey : String := "__credential_ref__"

/-- The reference a value stands for, if it is one. -/
def credentialRef (py : Stdlib) : Value → Option CredentialReference
  | .dict entries =>
    (entries.lookup credentialRefKey).map fun ref =>
      { id := pyStr py ref
        name := pyStr py ((entries.lookup "name").getD (.str (pyStr py ref)))
        description := match Dict.get entries "description" with
          | .none => none
          | v => some (pyStr py v) }
  | _ => none

/-- Each credential reference among the arguments is replaced by its secret. -/
def resolveArgumentCredentials (py : Stdlib) (broker : CredentialBroker) (tool profileId : String)
    (instant : ℕ) : Dict → Except Err Dict
  | [] => .ok []
  | (key, value) :: rest => do
      let resolved ← match credentialRef py value with
        | none => pure value
        | some ref => do
            let secret ← broker ref tool profileId instant
            pure (.str secret)
      let others ← resolveArgumentCredentials py broker tool profileId instant rest
      pure ((key, resolved) :: others)

/-! ## The adapter -/

namespace ToolExecutorAdapter

/-- `ToolExecutorAdapter.name`. -/
def name : String := "tool_executor"

def supports (contract : ExecutionContract) : Bool :=
  contract.metadata.get "execution_backend" = .str name

/-- The result of a contract that is refused before the executor is reached. -/
def refused (receipt : ExecutionReceipt) (attempt : ExecutionAttempt) (error : String) :
    AdapterResult :=
  { outcome := .failure
    error := some error
    evidence := [("receipt_id", .str receipt.id), ("attempt_id", .str attempt.id)] }

/-- `data[key]`. -/
def item (data : Dict) (key : String) : Except Err Value :=
  match data.lookup key with
  | some value => .ok value
  | none => .error (.other "KeyError" ("'" ++ key ++ "'"))

/-- `data[key]` as a text. -/
def textItem (py : Stdlib) (data : Dict) (key : String) : Except Err String :=
  (item data key).map (pyStr py)

/-- The permit of the contract, every field of which must be there. -/
def permitOf (py : Stdlib) (data : Dict) : Except Err ExecutionPermit := do
  let token ← textItem py data "token"
  let tool ← textItem py data "tool"
  let action ← textItem py data "action"
  let argumentsDigest ← textItem py data "arguments_digest"
  let capabilitiesDigest ← textItem py data "capabilities_digest"
  pure { token := token
         tool := tool
         action := action
         argumentsDigest := argumentsDigest
         capabilitiesDigest := capabilitiesDigest }

/-- The authorized capabilities of the contract. -/
def capabilitiesOf (py : Stdlib) (contract : ExecutionContract) : Except Err (List String) :=
  match contract.metadata.lookup "_authorized_capabilities" with
  | none => .ok []
  | some (.list values) => .ok (values.map (pyStr py)).dedup
  | some (.str text) => .ok (text.toList.map fun c => String.ofList [c]).dedup
  | some (.dict entries) => .ok (entries.map Prod.fst)
  | some _ => .error (.typeError "object is not iterable")

/-- `{**tool_context, "_execution_permit": permit_data}`. -/
def contextWith (contract : ExecutionContract) (permit : Dict) : Except Err Dict :=
  match contract.metadata.lookup "tool_context" with
  | none => .ok (Dict.set [] "_execution_permit" (.dict permit))
  | some (.dict context) => .ok (Dict.set context "_execution_permit" (.dict permit))
  | some _ => .error (.typeError "object is not a mapping")

/-- The evidence of a call that reached the executor. -/
def evidenceOf (receipt : ExecutionReceipt) (attempt : ExecutionAttempt) (request : ToolRequest)
    (response : ToolResponse) : Dict :=
  [("receipt_id", .str receipt.id), ("attempt_id", .str attempt.id), ("tool", .str request.tool),
    ("action", .str request.action), ("data", response.data), ("success", .bool response.success)]

def appOutcome : ExecutionOutcome → AppOutcome
  | .success => .success
  | .failure => .failure
  | .unknown => .unknown

/-- The arguments with their credentials injected, or the error message; what is not an `Exception` is
raised on. -/
def inject (broker : Option CredentialBroker) (host : Host) (tool profileId : String)
    (instant : ℕ) (arguments : Dict) : Except Err (Except String Dict) :=
  match broker with
  | none => .ok (.ok arguments)
  | some broker =>
    match resolveArgumentCredentials host.py broker tool profileId instant arguments with
    | .ok resolved => .ok (.ok resolved)
    | .error e =>
      if e.isException then .ok (.error ("credential injection failed: " ++ host.errText e))
      else .error e

/-- The request that goes to the executor. -/
def requestOf (py : Stdlib) (contract : ExecutionContract) (permit : Dict) (tool action : String)
    (arguments : Dict) : Except Err ToolRequest := do
  let context ← contextWith contract permit
  pure { requestId := pyStr py ((contract.metadata.lookup "request_id").getD
           (.str contract.contractId))
         tool := tool
         action := action
         arguments := arguments
         context := context }

/-- From the verified permit on. -/
def callExecutor (executor : ToolExecutor) (host : Host) (receipt : ExecutionReceipt)
    (attempt : ExecutionAttempt) (request : ToolRequest) (capabilities : List String) :
    Proc AdapterResult := do
  let result ← executor.execute host request capabilities
  pure { outcome := appOutcome result.outcome
         error := result.response.error
         evidence := evidenceOf receipt attempt request result.response }

/-- What the contract asks for, once its permit is read: tool, action, capabilities. -/
def termsOf (py : Stdlib) (contract : ExecutionContract) (permitData : Dict) :
    Except Err (ExecutionPermit × String × String × List String) := do
  let permit ← permitOf py permitData
  let capabilities ← capabilitiesOf py contract
  let tool ← textItem py contract.metadata "tool"
  let action ← textItem py contract.metadata "action"
  pure (permit, tool, action, capabilities)

/-- Inject the credentials and hand the request over. -/
def deliver (executor : ToolExecutor) (broker : Option CredentialBroker) (host : Host)
    (contract : ExecutionContract) (receipt : ExecutionReceipt) (attempt : ExecutionAttempt)
    (permitData : Dict) (tool action : String) (capabilities : List String) (instant : ℕ) :
    Proc AdapterResult :=
  let profileId := pyStr host.py ((contract.metadata.lookup "_profile_id").getD (.str "system"))
  match inject broker host tool profileId instant contract.arguments with
  | .error e => throw e
  | .ok (.error message) => pure (refused receipt attempt message)
  | .ok (.ok arguments) => do
      let request ← Program.ofExcept (requestOf host.py contract permitData tool action arguments)
      callExecutor executor host receipt attempt request capabilities

/-- The permit is verified against the arguments as the contract has them. -/
def present (executor : ToolExecutor) (permits : ExecutionPermitAuthority)
    (broker : Option CredentialBroker) (host : Host) (contract : ExecutionContract)
    (receipt : ExecutionReceipt) (attempt : ExecutionAttempt) (permitData : Dict) :
    Proc AdapterResult := do
  let (permit, tool, action, capabilities) ← Program.ofExcept (termsOf host.py contract permitData)
  let instant ← Program.get World.ticks
  if permits.verify host.py permit tool action contract.arguments capabilities then
    deliver executor broker host contract receipt attempt permitData tool action capabilities instant
  else
    pure (refused receipt attempt "execution permit invalid or capability/args mismatch")

def invoke (executor : ToolExecutor) (permits : ExecutionPermitAuthority)
    (broker : Option CredentialBroker) (host : Host) (contract : ExecutionContract)
    (receipt : ExecutionReceipt) (attempt : ExecutionAttempt) : Proc AdapterResult :=
  match contract.metadata.get "_execution_permit" with
  | .dict permitData => present executor permits broker host contract receipt attempt permitData
  | _ => pure (refused receipt attempt "tool_executor contract missing _execution_permit")

/-- The executor only reads the instant and calls a handler. -/
theorem outside_execute (executor : ToolExecutor) (host : Host) (request : ToolRequest)
    (authorized : List String) : (executor.execute host request authorized).Guarantee Outside := by
  refine Program.guarantee_bind (Program.guarantee_ofExcept _) fun prepared => ?_
  refine Program.guarantee_bind (Program.guarantee_modify fun w => ?_) fun _ => ?_
  · exact ⟨rfl, rfl, rfl, le_rfl, [_], rfl⟩
  · refine Program.guarantee_bind (Program.guarantee_get (fun w => ?_) _) fun _ =>
      Program.guarantee_ofExcept _
    exact ⟨rfl, rfl, rfl, le_rfl, [], by simp⟩

/-- So does the adapter around it. -/
theorem outside_invoke (executor : ToolExecutor) (permits : ExecutionPermitAuthority)
    (broker : Option CredentialBroker) (host : Host) (contract : ExecutionContract)
    (receipt : ExecutionReceipt) (attempt : ExecutionAttempt) :
    (invoke executor permits broker host contract receipt attempt).Guarantee Outside := by
  unfold invoke
  split
  · refine Program.guarantee_bind (Program.guarantee_ofExcept _) fun terms => ?_
    refine Program.guarantee_bind (Program.guarantee_get (fun w => ?_) _) fun instant => ?_
    · exact ⟨rfl, rfl, rfl, le_rfl, [], by simp⟩
    · split
      · unfold deliver
        dsimp only
        split
        · exact Program.guarantee_ofExcept (.error _)
        · exact Program.guarantee_pure _
        · refine Program.guarantee_bind (Program.guarantee_ofExcept _) fun request => ?_
          exact Program.guarantee_bind (outside_execute _ _ _ _) fun _ => Program.guarantee_pure _
      · exact Program.guarantee_pure _
  · exact Program.guarantee_pure _

end ToolExecutorAdapter

/-- `ToolExecutorAdapter(executor, permit_authority=…, credential_broker=…)`. -/
def toolExecutorAdapter (executor : ToolExecutor) (permits : ExecutionPermitAuthority)
    (broker : Option CredentialBroker) (host : Host) : Adapter :=
  { name := ToolExecutorAdapter.name
    supports := ToolExecutorAdapter.supports
    invoke := ToolExecutorAdapter.invoke executor permits broker host
    outside := ToolExecutorAdapter.outside_invoke executor permits broker host }

end Shea.Model
