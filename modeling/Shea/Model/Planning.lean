import Shea.Model.Tools

/-!
# Understanding and planning

`understanding/deterministic.py` and `parser.py`, `profiles/snapshot.py`, `planning/templates.py`,
`validator.py` and `service.py`.

A model provider is what it answers to each kind of prompt at an instant. The texts of the prompts,
with the recent turns of the session and the recalled memories that go into them, are left out: they
are read and handed to the provider, nothing else depends on them.
-/

set_option autoImplicit false

namespace Shea.Model

open Shea.Computation

/-! ## The model -/

/-- The prompts the services send. -/
inductive ModelPrompt
  /-- Classification and answer in one. -/
  | intent
  /-- Classification only. -/
  | shortIntent
  | plan
  | answer
  deriving DecidableEq, Repr

structure ModelResponse where
  content : String := ""
  structuredData : Value := .none
  metadata : Dict := []
  deriving DecidableEq, Repr

/-- `model.generate(prompt)` at an instant. -/
abbrev ModelProvider := ModelPrompt → ℕ → Except Err ModelResponse

/-- Ask the model. -/
def generate (provider : ModelProvider) (prompt : ModelPrompt) : Proc ModelResponse := do
  let instant ← Program.get World.ticks
  Program.ofExcept (provider prompt instant)

/-! ## Intents and profiles -/

structure IntentDraft where
  type : String
  goal : String
  parameters : Dict := []
  confidence : PyFloat := .finite 1 0
  source : String := "deterministic"
  reply : Option String := none
  thinking : Option String := none
  deriving DecidableEq, Repr

/-- `text.strip().lower()`. -/
def normalizeText (py : Stdlib) (text : String) : String :=
  py.lower (String.ofList (strip text.toList))

/-- The rules: a trigger in lower case, and the draft it stands for. -/
structure DeterministicIntentMatcher where
  rules : List (String × IntentDraft) := []

namespace DeterministicIntentMatcher

def register (matcher : DeterministicIntentMatcher) (py : Stdlib) (trigger : String)
    (draft : IntentDraft) : DeterministicIntentMatcher :=
  { rules := matcher.rules ++ [(py.lower trigger, draft)] }

def matchText (matcher : DeterministicIntentMatcher) (py : Stdlib) (text : String) :
    Option IntentDraft :=
  (matcher.rules.find? fun (trigger, _) => containsText (normalizeText py text) trigger).map Prod.snd

end DeterministicIntentMatcher

/-- `payload[key]` as a text, or the error of a missing field. -/
def requiredText (py : Stdlib) (payload : Dict) (key : String) : Except Err String :=
  match payload.lookup key with
  | some value => .ok (pyStr py value)
  | none => .error (.malformedModelOutput ("model response missing required field '" ++ key ++ "'"))

/-- A number in `[0, 1]`. -/
def unitNumber (value : Value) : Option PyFloat :=
  value.number.filter fun x => x ≠ .nan && !x.lt (.finite 0 0) && !(PyFloat.finite 1 0).lt x

/-- `_draft_from_model_data`, with `source="model"`. -/
def draftFromModelData (py : Stdlib) (response : ModelResponse) : Except Err IntentDraft :=
  match response.structuredData with
  | .dict payload => do
    let type ← requiredText py payload "type"
    let goal ← requiredText py payload "goal"
    let given := (payload.lookup "confidence").getD (.float (.finite 0 0))
    let confidence ← match unitNumber given with
      | some x => pure x
      | none => throw (.malformedModelOutput ("model response confidence " ++ py.reprOf given ++
          " is not a number in [0, 1]"))
    let parameters ← match (payload.lookup "parameters").getD (.dict []) with
      | .dict parameters => pure parameters
      | _ => throw (.malformedModelOutput "model response 'parameters' must be an object")
    let reply ← match Dict.get payload "reply" with
      | .none => pure none
      | .str reply => pure (some reply)
      | other => throw (.malformedModelOutput ("model response 'reply' " ++ py.reprOf other ++
          " is not a string or null"))
    pure { type := type
           goal := goal
           parameters := parameters
           confidence := confidence
           source := "model"
           reply := if type = "query" then reply else none
           thinking := match Dict.get response.metadata "thinking" with
             | .str text => some text
             | _ => none }
  | _ => .error (.malformedModelOutput "model response had no structured_data object")

structure IntentParser where
  matcher : DeterministicIntentMatcher := {}
  model : Option ModelProvider := none
  /-- `DEFAULT_CONFIDENCE_THRESHOLD` is 0.5. -/
  threshold : PyFloat := .finite 1 (-1)

namespace IntentParser

/-- The short prompt is the second try of an unusable answer. -/
def retryShort (host : Host) (provider : ModelProvider) (e : Err) : Proc IntentDraft :=
  match e with
  | .malformedModelOutput _ => do
      let response ← generate provider .shortIntent
      Program.ofExcept (draftFromModelData host.py response)
  | e => throw e

def askModel (host : Host) (provider : ModelProvider) : Proc IntentDraft := do
  let response ← generate provider .intent
  tryCatch (Program.ofExcept (draftFromModelData host.py response)) (retryShort host provider)

/-- `_parse_with_model`. -/
def parseWithModel (parser : IntentParser) (host : Host) : Proc IntentDraft :=
  match parser.model with
  | none => throw (.malformedModelOutput "no deterministic match and no model provider configured")
  | some provider => askModel host provider

/-- The match of a rule, or the model's answer. -/
def propose (parser : IntentParser) (host : Host) (text : String) : Proc IntentDraft :=
  match parser.matcher.matchText host.py text with
  | some draft => pure draft
  | none => parser.parseWithModel host

def parse (parser : IntentParser) (host : Host) (text : String) : Proc IntentDraft := do
  let draft ← parser.propose host text
  if draft.confidence.lt parser.threshold then
    throw (.ambiguousIntent draft.confidence draft.goal)
  else pure draft

end IntentParser

structure ProfileSnapshot where
  profileId : String
  name : String
  preferences : Dict := []
  contextRules : Dict := []
  frozenAt : Option Time := none
  deriving DecidableEq, Repr

/-- `to_parameters()["_profile_snapshot"]`. -/
def ProfileSnapshot.toDict (snapshot : ProfileSnapshot) (py : Stdlib) : Dict :=
  [("profile_id", .str snapshot.profileId), ("name", .str snapshot.name),
    ("preferences", .dict snapshot.preferences), ("context_rules", .dict snapshot.contextRules),
    ("frozen_at", .ofOption (snapshot.frozenAt.map py.isoformat))]

/-! ## Plans -/

structure StepBlueprint where
  tool : String
  action : String
  arguments : Dict := []
  description : String := ""
  deriving DecidableEq, Repr

/-- The builders by intent type; a later registration replaces an earlier one. -/
structure PlanTemplateRegistry where
  templates : List (String × (IntentDraft → Except Err (List StepBlueprint))) := []

def PlanTemplateRegistry.build (registry : PlanTemplateRegistry) (intentType : String)
    (draft : IntentDraft) : Except Err (Option (List StepBlueprint)) :=
  match registry.templates.reverse.lookup intentType with
  | none => .ok none
  | some builder => (builder draft).map some

/-- One step of the model's plan. -/
def blueprintOf (py : Stdlib) (index : ℕ) : Value → Except Err StepBlueprint
  | .dict step =>
    match step.lookup "tool", step.lookup "action" with
    | some tool, some action => .ok
        { tool := pyStr py tool
          action := pyStr py action
          arguments := match step.lookup "arguments" with
            | some (.dict arguments) => arguments
            | _ => []
          description := pyStr py ((step.lookup "description").getD (.str "")) }
    | _, _ => .error (.malformedModelOutput
        ("model plan step " ++ toString index ++ " missing required 'tool'/'action' fields"))
  | _ => .error (.malformedModelOutput
      ("model plan step " ++ toString index ++ " missing required 'tool'/'action' fields"))

def blueprintsOf (py : Stdlib) : ℕ → List Value → Except Err (List StepBlueprint)
  | _, [] => .ok []
  | index, step :: rest => do
      let blueprint ← blueprintOf py index step
      let others ← blueprintsOf py (index + 1) rest
      pure (blueprint :: others)

/-- `_blueprints_from_model_data`. -/
def blueprintsFromModelData (py : Stdlib) (data : Value) : Except Err (List StepBlueprint) :=
  match data with
  | .dict payload =>
    match payload.lookup "steps" with
    | none => .error (.malformedModelOutput "model plan response missing 'steps'")
    | some (.list (step :: rest)) => blueprintsOf py 0 (step :: rest)
    | some _ => .error
        (.malformedModelOutput "model plan response 'steps' must be a non-empty list")
  | _ => .error (.malformedModelOutput "model plan response missing 'steps'")

/-- The check of each step of a plan. -/
def validateSteps (py : Stdlib) (tools : ToolRegistry) (planId : String) :
    List PlanStep → Except Err Unit
  | [] => .ok ()
  | step :: rest =>
    if step.tool = "" then
      .error (.planValidation planId ("step " ++ py.reprOf (.str step.id) ++ " has no tool"))
    else if (tools.find step.tool).isNone then
      .error (.planValidation planId ("step " ++ py.reprOf (.str step.id) ++
        " references unknown tool " ++ py.reprOf (.str step.tool)))
    else validateSteps py tools planId rest

def validatePlan (py : Stdlib) (tools : ToolRegistry) (plan : Plan) : Except Err Unit :=
  if plan.steps.isEmpty then .error (.planValidation plan.id "plan has no steps")
  else validateSteps py tools plan.id plan.steps

/-! ## The service -/

structure Understanding where
  intent : Intent
  draft : IntentDraft
  deriving DecidableEq, Repr

structure PlanningOutcome where
  task : Task
  intent : Intent
  plan : Plan
  deriving DecidableEq, Repr

structure PlanningService where
  parser : IntentParser := {}
  templates : PlanTemplateRegistry := {}
  tools : ToolRegistry := {}

/-- The arguments of `create_and_plan`. -/
structure PlanningRequest where
  sessionId : String
  requestText : String
  actor : String := "user"
  source : String := "text"
  profileId : String := "system"
  profileSnapshot : Option ProfileSnapshot := none
  request : Option Request := none
  understanding : Option Understanding := none
  deriving DecidableEq, Repr

namespace PlanningService

/-- The audit entries of the service. -/
def entry (component eventType action result requestId : String) (taskId : Option String)
    (metadata : Dict) : AuditEntry :=
  { actor := "planning_service"
    component := component
    eventType := eventType
    action := action
    result := result
    requestId := some requestId
    taskId := taskId
    metadata := metadata }

def openRequest (host : Host) (sessionId requestText actor source profileId : String) :
    Proc Request := do
  let _ ← SessionRepository.getOrCreate host sessionId actor
  let requestId ← newId host
  let at_ ← now host
  let request : Request :=
    { requestId := requestId
      sessionId := sessionId
      actor := actor
      input := requestText
      source := source
      createdAt := at_
      profileId := profileId }
  RequestRepository.save request
  SessionRepository.touch host sessionId
  pure request

/-- `_new_intent`. -/
def newIntent (host : Host) (requestId : String) (draft : IntentDraft) : Proc Intent := do
  let intentId ← newId host
  let at_ ← now host
  pure { id := intentId
         requestId := requestId
         type := draft.type
         goal := draft.goal
         parameters := draft.parameters
         confidence := draft.confidence
         source := draft.source
         createdAt := some at_ }

/-- A failed parse outside a task is audited against the request only. -/
def reportMisunderstood (host : Host) (request : Request) (e : Err) : Proc IntentDraft :=
  match e with
  | .ambiguousIntent confidence goal => do
      audit host (entry "understanding.engine" "understanding.ambiguous" "understand" "blocked"
        request.requestId none [("confidence", .float confidence), ("goal", .str goal)])
      throw (.ambiguousIntent confidence goal)
  | .malformedModelOutput message => do
      audit host (entry "understanding.engine" "understanding.malformed_output" "understand" "failed"
        request.requestId none [("error", .str message)])
      throw (.malformedModelOutput message)
  | e => throw e

def understand (service : PlanningService) (host : Host) (request : Request) (source : String) :
    Proc Understanding := do
  let parsed ← tryCatch (service.parser.parse host request.input) (reportMisunderstood host request)
  let draft := { parsed with source := source }
  let intent ← newIntent host request.requestId draft
  IntentRepository.save intent
  pure { intent := intent, draft := draft }

/-- A failed parse inside a task blocks or fails it. -/
def abandonParse (host : Host) (task : Task) (e : Err) : Proc IntentDraft :=
  match e with
  | .ambiguousIntent confidence goal => do
      audit host (entry "understanding.engine" "understanding.ambiguous" "parse_intent" "blocked"
        task.requestId (some task.id) [("confidence", .float confidence), ("goal", .str goal)])
      let _ ← Orchestrator.advance host task.id "block"
      throw (.ambiguousIntent confidence goal)
  | .malformedModelOutput message => do
      audit host (entry "understanding.engine" "understanding.malformed_output" "parse_intent"
        "failed" task.requestId (some task.id) [("error", .str message)])
      let _ ← Orchestrator.advance host task.id "plan_failed"
      throw (.malformedModelOutput message)
  | e => throw e

/-- `_parse_intent`: the reply of the model is dropped. -/
def parseIntent (service : PlanningService) (host : Host) (task : Task) (requestText source : String) :
    Proc IntentDraft := do
  let draft ← tryCatch (service.parser.parse host requestText) (abandonParse host task)
  pure { type := draft.type
         goal := draft.goal
         parameters := draft.parameters
         confidence := draft.confidence
         source := source }

/-- `_plan_from_model`. -/
def planFromModel (service : PlanningService) (host : Host) (intent : Intent) :
    Proc (List StepBlueprint) :=
  match service.parser.model with
  | none => throw (.planValidation intent.requestId
      "no plan template matched and no model provider configured")
  | some provider => do
      let response ← generate provider .plan
      Program.ofExcept (blueprintsFromModelData host.py response.structuredData)

/-- The steps in the order of their blueprints, each with a new id. -/
def newSteps (host : Host) (planId : String) : ℕ → List StepBlueprint → Proc (List PlanStep)
  | _, [] => pure []
  | index, blueprint :: rest => do
      let stepId ← newId host
      let others ← newSteps host planId (index + 1) rest
      pure ({ id := stepId
              planId := planId
              order := index
              description := blueprint.description
              tool := blueprint.tool
              arguments := blueprint.arguments } :: others)

/-- The plan of the blueprints, once it is valid. -/
def assemble (service : PlanningService) (host : Host) (task : Task) (intent : Intent)
    (blueprints : List StepBlueprint) : Proc Plan := do
  let planId ← newId host
  let steps ← newSteps host planId 0 blueprints
  let plan : Plan := { id := planId, taskId := task.id, objective := intent.goal, steps := steps }
  Program.ofExcept (validatePlan host.py service.tools plan)
  pure plan

/-- The template's blueprints, or the model's. -/
def blueprintsFor (service : PlanningService) (host : Host) (intent : Intent) :
    Option (List StepBlueprint) → Proc (List StepBlueprint)
  | some blueprints => pure blueprints
  | none => service.planFromModel host intent

/-- The audit entry of an invalid plan, and the failure of its task. -/
def abandonPlan (host : Host) (task : Task) (e : Err) : Proc Plan := do
  audit host (entry "planning.engine" "planning.invalid_plan" "build_plan" "failed" task.requestId
    (some task.id) [("error", .str (host.errText e))])
  let _ ← Orchestrator.advance host task.id "plan_failed"
  throw e

/-- Only malformed model output and invalid plans are caught. -/
def handleInvalid (host : Host) (task : Task) (e : Err) : Proc Plan :=
  match e with
  | .malformedModelOutput _ => abandonPlan host task e
  | .planValidation _ _ => abandonPlan host task e
  | e => throw e

/-- `_build_and_validate_plan`. -/
def buildAndValidatePlan (service : PlanningService) (host : Host) (task : Task) (intent : Intent)
    (draft : IntentDraft) : Proc Plan := do
  let template ← Program.ofExcept (service.templates.build intent.type draft)
  tryCatch (do
    let blueprints ← service.blueprintsFor host intent template
    service.assemble host task intent blueprints) (handleInvalid host task)

/-- The intent is saved here unless it came from `understand`. -/
def saveIntent (intent : Intent) (already : Bool) : Proc Unit :=
  if already then pure () else IntentRepository.save intent

/-- The statements of the transaction that makes a plan ready. -/
def writePlan (host : Host) (task : Task) (requestId : String) (intent : Intent) (already : Bool)
    (plan : Plan) : Proc Task := do
  saveIntent intent already
  PlanRepository.save plan
  let _ ← Orchestrator.attachPlan host task.id plan.id
  let ready ← Orchestrator.advance host task.id "plan_ready"
  audit host (entry "planning.engine" "planning.plan_ready" "create_and_plan" "success" requestId
    (some task.id) [("plan_id", .str plan.id), ("step_count", .int plan.steps.length)])
  pure ready

/-- The request given, or a new one. -/
def requestFor (host : Host) (given : PlanningRequest) : Proc Request :=
  match given.request with
  | some request => pure request
  | none => openRequest host given.sessionId given.requestText given.actor given.source
      (given.profileSnapshot.elim given.profileId (·.profileId))

/-- The snapshot given, or one of the profile's id. -/
def snapshotFor (host : Host) (given : PlanningRequest) : Proc ProfileSnapshot :=
  match given.profileSnapshot with
  | some snapshot => pure snapshot
  | none => do
      let at_ ← now host
      pure { profileId := given.profileId, name := given.profileId, frozenAt := some at_ }

/-- The understanding given, or a new one; the flag says whether its intent is already saved. -/
def understandingFor (service : PlanningService) (host : Host) (task : Task) (requestId : String)
    (given : PlanningRequest) : Proc (Understanding × Bool) :=
  match given.understanding with
  | some understanding => pure (understanding, true)
  | none => do
      let draft ← service.parseIntent host task given.requestText given.source
      let intent ← newIntent host requestId draft
      pure ({ intent := intent, draft := draft }, false)

def createAndPlan (service : PlanningService) (host : Host) (given : PlanningRequest) :
    Proc PlanningOutcome := do
  let request ← requestFor host given
  let snapshot ← snapshotFor host given
  let created ← Orchestrator.createTask host given.sessionId request.requestId
    (some (snapshot.toDict host.py))
  let task ← Orchestrator.advance host created.id "start_planning"
  let (understanding, already) ← service.understandingFor host task request.requestId given
  let plan ← service.buildAndValidatePlan host task understanding.intent understanding.draft
  let ready ←
    withUow (writePlan host task request.requestId understanding.intent already plan)
  pure { task := ready, intent := understanding.intent, plan := plan }

/-- `_format_reply`: every line of the thinking is quoted. -/
def formatReply (content : String) : Option String → String
  | none => content
  | some "" => content
  | some thinking => "🤔 *Thinking...*\n> " ++
      String.ofList (thinking.toList.flatMap fun c => if c = '\n' then ['\n', '>', ' '] else [c]) ++
      "\n\n" ++ content

/-- A second call of the model, for a draft that came without an answer. -/
def askForReply (provider : ModelProvider) : Proc String := do
  let response ← generate provider .answer
  pure (formatReply response.content (match Dict.get response.metadata "thinking" with
    | .str text => some text
    | _ => none))

def answerConversationally (service : PlanningService) (draft : IntentDraft) : Proc String :=
  match draft.reply.filter (· ≠ ""), service.parser.model with
  | some reply, _ => pure (formatReply reply draft.thinking)
  | none, none => throw (.other "ConversationalReplyUnavailableError"
      "conversational reply requested but no model provider configured")
  | none, some provider => askForReply provider

end PlanningService

end Shea.Model
