import Shea.Model.PlanRunner

/-!
# Interaction

`app/interaction/service.py`: a text is answered at once or planned, and a planned text is run. The
prompts and the observability context are left out.
-/

set_option autoImplicit false

namespace Shea.Model

open Shea.Computation

structure InteractionResult where
  planning : Option PlanningOutcome := none
  run : Option PlanRunResult := none
  task : Option Task := none
  message : Option String := none
  error : Option String := none
  pendingDecision : Option Decision := none
  needsConfirmation : Bool := false
  confirmation : Option Dict := none
  deriving DecidableEq, Repr

/-- The services of an interaction. -/
structure InteractionService where
  planning : PlanningService := {}
  runner : PlanRunner
  policy : PolicyEngine := {}
  risk : RiskEngine := {}

/-- The arguments of `handle_text`. -/
structure TextRequest where
  text : String
  sessionId : String := "cli"
  explicitUserAck : Bool := true
  actor : String := "user"
  run : Bool := true
  profileId : String := "system"
  deriving DecidableEq, Repr

/-- `InteractionChannel.conversation_turn`. -/
def conversationTurn (host : Host) (requestId sessionId : String) : Proc Unit :=
  emit host "interaction" "interaction.conversation_turn"
    [("request_id", .str requestId), ("session_id", .str sessionId)] (some requestId)

namespace InteractionService

/-- Whether the policy lets a turn be remembered. -/
def permits (verdict : PolicyVerdict) (explicitUserAck : Bool) : Bool :=
  verdict = .allowed || (verdict = .requiresAuthorization && explicitUserAck)

/-- `_memory_write_permitted`. -/
def memoryWritePermitted (service : InteractionService) (host : Host) (request : Request)
    (explicitUserAck : Bool) : Proc Bool := do
  let verdict := service.policy.evaluate ["memory.write"]
  let risk := service.risk.assess { capabilities := ["memory.write"] }
  let permitted := permits verdict explicitUserAck
  audit host
    { actor := "interaction_service"
      component := "decision.conversational"
      eventType := "decision.evaluated"
      action := "memory.write"
      result := if permitted then "allowed" else "blocked"
      requestId := some request.requestId
      taskId := none
      metadata := [("policy_verdict", .str verdict.value), ("risk_level", .str risk.level.value),
        ("risk_factors", .list (risk.factors.map .str)),
        ("explicit_user_ack", .bool explicitUserAck)] }
  pure permitted

/-- Only a missing model is caught. -/
def handleUnavailable (e : Err) : Proc (Option String) :=
  match e with
  | .other "ConversationalReplyUnavailableError" _ => pure none
  | e => throw e

/-- The answer is kept with its request, and announced if it may be remembered. -/
def keepReply (service : InteractionService) (host : Host) (given : TextRequest) (request : Request)
    (message : String) : Proc InteractionResult := do
  RequestRepository.recordResponse request.requestId message
  let permitted ← service.memoryWritePermitted host request given.explicitUserAck
  if permitted then conversationTurn host request.requestId given.sessionId
  pure { message := some message }

/-- A pure conversation: no task. -/
def converse (service : InteractionService) (host : Host) (given : TextRequest) (request : Request)
    (draft : IntentDraft) : Proc InteractionResult := do
  match ← tryCatch (some <$> service.planning.answerConversationally draft) handleUnavailable with
  | none =>
    pure { message := some "I don't have a model configured to answer that conversationally." }
  | some message => service.keepReply host given request message

/-- What comes before the run: a result that is final, or a planned task. -/
inductive Prepared
  | final (result : InteractionResult)
  | planned (planning : PlanningOutcome)
  deriving DecidableEq, Repr

/-- The body of the first `try`. -/
def prepare (service : InteractionService) (host : Host) (given : TextRequest) : Proc Prepared := do
  let request ← PlanningService.openRequest host given.sessionId given.text given.actor "text"
    given.profileId
  let understanding ← service.planning.understand host request "text"
  if understanding.draft.type = "query" then
    let result ← service.converse host given request understanding.draft
    pure (.final result)
  else
    let planning ← service.planning.createAndPlan host
      { sessionId := given.sessionId
        requestText := given.text
        actor := given.actor
        profileId := given.profileId
        request := some request
        understanding := some understanding }
    pure (.planned planning)

/-- A task, an intent and a plan that are stored nowhere and carry the error. -/
def synthesize (host : Host) (given : TextRequest) (error : String) : Proc InteractionResult := do
  let taskId ← newId host
  let requestId ← newId host
  let createdAt ← now host
  let updatedAt ← now host
  let task : Task :=
    { id := taskId
      sessionId := given.sessionId
      requestId := requestId
      state := .failed
      createdAt := createdAt
      updatedAt := updatedAt }
  let intentAt ← now host
  let intent : Intent :=
    { id := taskId
      requestId := requestId
      type := "chat"
      goal := given.text
      source := "api"
      createdAt := some intentAt }
  pure { planning := some
           { task := task
             intent := intent
             plan := { id := taskId, taskId := taskId, objective := given.text } }
         task := some task
         error := some error }

/-- What the first `try` catches. -/
def recoverPlanning (host : Host) (given : TextRequest) (e : Err) : Proc Prepared :=
  match e with
  | .ambiguousIntent _ _ => pure (.final
      { message := some "I'm not sure what you mean — could you rephrase that?"
        error := some "ambiguous_intent" })
  | e =>
    if e.isException then do
      let result ← synthesize host given ("Critical failure during planning: " ++ host.errText e)
      pure (.final result)
    else throw e

/-- What the second `try` catches: a missing acknowledgement has a result of its own. -/
def runFailed (host : Host) (planning : PlanningOutcome) (e : Err) : InteractionResult :=
  match e with
  | .authorizationRequired _ decision _ =>
    { planning := some planning
      task := some planning.task
      error := some "authorization_required"
      pendingDecision := some decision }
  | e =>
    { planning := some planning
      task := some planning.task
      error := some ("Critical failure during execution: " ++ host.errText e) }

/-- The run of a planned task. -/
def runReady (service : InteractionService) (host : Host) (given : TextRequest)
    (planning : PlanningOutcome) : Proc InteractionResult := do
  match ← (service.runner.run host planning.task given.actor given.explicitUserAck).attempt with
  | .ok result =>
    pure { planning := some planning
           run := some result
           task := some result.task }
  | .error e => if e.isException then pure (runFailed host planning e) else throw e

/-- What happens to a planned task. -/
def proceed (service : InteractionService) (host : Host) (given : TextRequest)
    (planning : PlanningOutcome) : Proc InteractionResult :=
  if planning.task.state ≠ .ready then
    pure { planning := some planning
           task := some planning.task
           error := some ("planning left task in " ++ planning.task.state.value ++
             ", expected READY") }
  else if !given.run then
    pure { planning := some planning, task := some planning.task }
  else service.runReady host given planning

def handleText (service : InteractionService) (host : Host) (given : TextRequest) :
    Proc InteractionResult := do
  match ← tryCatch (service.prepare host given) (recoverPlanning host given) with
  | .final result => pure result
  | .planned planning => service.proceed host given planning

def confirmAndRun (service : InteractionService) (host : Host) (taskId : String)
    (actor : String := "user") (explicitUserAck : Bool := true) : Proc InteractionResult := do
  let task ← Orchestrator.getTask taskId
  let result ← service.runner.run host task actor explicitUserAck
  pure { run := some result
         task := some result.task
         needsConfirmation := false }

end InteractionService

end Shea.Model
