import Shea.Model.Execution
import Shea.Model.Decision
import Shea.Model.Verification
import Shea.Model.Planning

/-!
# Running a plan

`execution/operation_graph.py` and `execution/plan_runner.py`.

The services a runner calls are what its constructor takes them to be: parameters. `ofServices` is the
runner `bootstrap` builds. Taking up a step is logged; the confirmations that wait for a user are kept
in memory only and are left out.
-/

set_option autoImplicit false

namespace Shea.Model

open Shea.Computation

/-! ## The operation graph -/

/-- A dictionary whose keys need not be texts. -/
abbrev PyDict := List (Value × Value)

structure OperationNode where
  stepId : String
  tool : String
  action : String
  arguments : Dict
  dependsOn : List String := []
  compensationTool : Value := .none
  compensationArguments : PyDict := []
  idempotent : Bool := false
  verification : Value := .none
  failurePolicy : String := "stop"
  deriving DecidableEq, Repr

namespace PyDict

/-- `d[key] = value`: keys that are equal are one key. -/
def set : PyDict → Value → Value → PyDict
  | [], key, value => [(key, value)]
  | (k, v) :: rest, key, value =>
      if pyEq k key then (k, value) :: rest else (k, v) :: set rest key value

/-- The dictionary whose keys are these texts. -/
def ofDict (d : Dict) : PyDict := d.map fun entry => (.str entry.1, entry.2)

/-- The key as `json.dumps` writes it. -/
def keyText (py : Stdlib) : Value → String
  | .none => "null"
  | .bool true => "true"
  | .bool false => "false"
  | .float x => dumps py .default (.float x)
  | key => pyStr py key

/-- The dictionary with its keys as `json.dumps` writes them. -/
def toDict (py : Stdlib) (d : PyDict) : Dict := d.map fun entry => (keyText py entry.1, entry.2)

end PyDict

/-- What iterating over a value gives; an object that `json` writes has the elements of what it writes. -/
def elementsOf : Value → Except Err (List Value)
  | .list items => .ok items
  | .dict entries => .ok (entries.map fun entry => .str entry.1)
  | .str text => .ok (text.toList.map fun c => .str (String.ofList [c]))
  | .other _ _ (some value) => elementsOf value
  | _ => .error (.typeError "cannot convert dictionary update sequence element to a sequence")

/-- Two elements, the first of them hashable. -/
def pairOfElements : List Value → Except Err (Value × Value)
  | [key, value] =>
    if key.hashable then .ok (key, value) else .error (.typeError "unhashable type")
  | _ => .error (.valueError "dictionary update sequence element has the wrong length")

/-- An element of an iterable of pairs. What an object holds that `json` does not write is in no stored
plan, and not modelled. -/
def pairOf : Value → Except Err (Value × Value)
  | .other _ traits .none =>
    if traits.pair then .ok (.none, .none)
    else .error (.typeError "cannot convert dictionary update sequence element to a sequence")
  | item => do
      let elements ← elementsOf item
      pairOfElements elements

/-- The entries of a list of pairs, put into a dictionary one after the other. -/
def dictOfPairs (entries : PyDict) : List Value → Except Err PyDict
  | [] => .ok entries
  | item :: rest => do
      let (key, value) ← pairOf item
      dictOfPairs (entries.set key value) rest

/-- `dict(value)`. -/
def dictOf : Value → Except Err PyDict
  | .dict entries => .ok (.ofDict entries)
  | .other _ _ (some value) => dictOf value
  | .other _ traits .none =>
    if traits.pairs then .ok []
    else .error (.typeError "object is not iterable")
  | value => do
      let items ← elementsOf value
      dictOfPairs [] items

/-- `dict(value or {})`. -/
def dictOr (value : Value) : Except Err PyDict :=
  if !value.truthy then .ok [] else dictOf value

/-- `str(value)`, where an integer may have too many digits for it. -/
def strOf (py : Stdlib) (value : Value) : Except Err String :=
  if value.prints then .ok (pyStr py value)
  else .error (.valueError "Exceeds the limit (4300 digits) for integer string conversion")

namespace OperationGraph

/-- The entries of a mapping, its keys as `json` writes them. -/
def entriesOf : Value → Dict
  | .dict entries => entries
  | .other _ _ (some value) => entriesOf value
  | _ => []

/-- The `_graph` entry of a step's arguments, if it is a mapping. -/
def metaOf (step : PlanStep) : Dict := entriesOf (step.arguments.get "_graph")

/-- The action of a step's node. A step has no `action` of its own. -/
def actionOf (step : PlanStep) : Value := (step.arguments.get "action").orElse (.str "run")

/-- The failure policy of a step's node. -/
def policyOf (step : PlanStep) : Value := ((metaOf step).lookup "failure_policy").getD (.str "stop")

/-- The node of a step. -/
def nodeOf (py : Stdlib) (step : PlanStep) : Except Err OperationNode := do
  let action ← strOf py (actionOf step)
  let compensationArguments ← dictOr ((metaOf step).get "compensation_arguments")
  let failurePolicy ← strOf py (policyOf step)
  pure { stepId := step.id
         tool := step.tool
         action := action
         arguments := step.arguments.filter (·.1 ≠ "_graph")
         dependsOn := step.dependsOn
         compensationTool := (metaOf step).get "compensation_tool"
         compensationArguments := compensationArguments
         idempotent := ((metaOf step).get "idempotent").truthy
         verification := (metaOf step).get "verification"
         failurePolicy := failurePolicy }

/-- The last node under an id. -/
def byId (nodes : List OperationNode) (stepId : String) : Option OperationNode :=
  nodes.reverse.find? (·.stepId = stepId)

/-- What is still to be done, and what it waits for. -/
abbrev Waiting := List (String × List String)

def waiting (nodes : List OperationNode) : Waiting :=
  (nodes.map (·.stepId)).eraseDups.map fun stepId =>
    (stepId, ((byId nodes stepId).map (·.dependsOn)).getD [])

/-- The ids that wait for nothing. -/
def ready (deps : Waiting) : List String := (deps.filter (·.2.isEmpty)).map Prod.fst

/-- The others, once these are done. -/
def release (done : List String) (deps : Waiting) : Waiting :=
  (deps.filter (·.1 ∉ done)).map fun (stepId, d) => (stepId, d.filter (· ∉ done))

/-- The rounds of the loop: each takes what is ready, sorted by id. A round takes at least one id, so
as many rounds as ids are enough. -/
def rounds : ℕ → Waiting → Except Err (List String)
  | _, [] => .ok []
  | 0, _ :: _ => .error (.valueError "OperationGraph contains a cycle")
  | fuel + 1, deps =>
    if (ready deps).isEmpty then .error (.valueError "OperationGraph contains a cycle")
    else (rounds fuel (release (ready deps) deps)).map (sortedTexts (ready deps) ++ ·)

def topologicalOrder (nodes : List OperationNode) : Except Err (List OperationNode) :=
  (rounds nodes.length (waiting nodes)).map fun ids => ids.filterMap (byId nodes)

/-- Every id a node waits for is the id of a node. -/
def checkDependencies (nodes : List OperationNode) : Except Err Unit :=
  match nodes.findSome? fun node =>
      (node.dependsOn.find? fun d => !nodes.any (·.stepId = d)).map fun d => (node.stepId, d) with
  | none => .ok ()
  | some (stepId, d) => .error (.valueError ("node " ++ stepId ++ " depends on missing " ++ d))

def validate (nodes : List OperationNode) : Except Err Unit := do
  checkDependencies nodes
  let _ ← topologicalOrder nodes
  pure ()

def nodesOf (py : Stdlib) : List PlanStep → Except Err (List OperationNode)
  | [] => .ok []
  | step :: rest => do
      let node ← nodeOf py step
      let nodes ← nodesOf py rest
      pure (node :: nodes)

/-- The nodes of a plan's graph, in the order of its steps. -/
def fromPlan (py : Stdlib) (plan : Plan) : Except Err (List OperationNode) := do
  let nodes ← nodesOf py plan.steps
  validate nodes
  pure nodes

/-- The nodes before a failed one that have a compensation, last first. -/
def compensationChain (ordered : List OperationNode) (failed : String) : List OperationNode :=
  ((ordered.takeWhile (·.stepId ≠ failed)).filter (·.compensationTool.truthy)).reverse

end OperationGraph

/-! ## The runner -/

structure PlanRunResult where
  task : Task
  stepResults : List ExecutionOutcomeRecord
  completedSteps : ℕ
  stoppedEarly : Bool
  deriving DecidableEq, Repr

/-- The services of a runner. -/
structure PlanRunner where
  tools : ToolRegistry
  evaluateAndAuthorize : Task → AuthorizationRequest → Proc DecisionOutcome
  execute : Task → ToolRequest → Proc ExecutionOutcomeRecord
  scanOutput : Task → (tool : String) → (data : Value) → Proc InjectionScanResult
  verify : Task → (moreSteps : Bool) → Proc VerificationResult

/-- The runner over the services of the runtime. -/
def PlanRunner.ofServices (host : Host) (decision : DecisionService) (execution : ExecutionService)
    (verification : VerificationService) : PlanRunner :=
  { tools := execution.executor.registry
    evaluateAndAuthorize := decision.evaluateAndAuthorize host
    execute := execution.execute host
    scanOutput := execution.security.scanOutput host
    verify := fun task moreSteps => verification.verify host task moreSteps }

/-- A stored time stamp has to be one. -/
def checkFrozenAt (py : Stdlib) : Value → Except Err Unit
  | .str text =>
    if (py.fromisoformat text).isSome then .ok ()
    else .error (.valueError "Invalid isoformat string")
  | _ => .ok ()

/-- The profile of a task's snapshot: `ProfileSnapshot.from_parameters(…).profile_id`. -/
def snapshotProfileId (py : Stdlib) (task : Task) : Except Err String :=
  match task.profileSnapshot.filter (!·.isEmpty) with
  | none => .ok "system"
  | some snapshot => do
      let _ ← dictOr (snapshot.get "preferences")
      let _ ← dictOr (snapshot.get "context_rules")
      checkFrozenAt py (snapshot.get "frozen_at")
      let profileId := snapshot.get "profile_id"
      pure (if profileId.truthy then pyStr py profileId else "system")

namespace PlanRunner

/-- What the loop carries along. -/
structure Progress where
  plan : Plan
  current : Task
  results : List ExecutionOutcomeRecord := []
  completed : ℕ := 0
  stopped : Bool := false
  deriving DecidableEq, Repr

/-- The plan with the state of one step changed. -/
def markStep (plan : Plan) (stepId state : String) : Plan :=
  { plan with steps := plan.steps.map fun step =>
      if step.id = stepId then { step with state := state } else step }

/-- `_set_step_state`. -/
def setStepState (plan : Plan) (stepId state : String) : Proc Plan := do
  PlanRepository.save (markStep plan stepId state)
  pure (markStep plan stepId state)

/-- The step is FAILED and the loop is left. -/
def failStep (progress : Progress) (step : PlanStep) : Proc Progress := do
  let plan ← setStepState progress.plan step.id "FAILED"
  pure { progress with plan := plan, stopped := true }

/-- A call inside the `try`: an `Exception` it raises fails the step. -/
def guarded {α : Type} (progress : Progress) (step : PlanStep) (call : Proc α)
    (next : α → Proc Progress) : Proc Progress := do
  match ← call.attempt with
  | .ok a => next a
  | .error e => if e.isException then failStep progress step else throw e

/-- `failStep` inside the `try`: if it raises, it is tried again outside. -/
def stopAt (progress : Progress) (step : PlanStep) : Proc Progress :=
  guarded progress step (failStep progress step) pure

/-- The arguments of the authorization of a step. -/
def authorizationFor (plan : Plan) (step : PlanStep) (capabilities : List String)
    (actingUser profileId : String) (explicitUserAck : Bool) : AuthorizationRequest :=
  { capabilities := capabilities
    plan := some plan
    step := some step
    arguments := some step.arguments
    actingUser := actingUser
    explicitUserAck := explicitUserAck
    profileId := profileId }

/-- A confirmation that is missing is noted, with a time stamp, and raised again. -/
def noteConfirmation {α : Type} (host : Host) (e : Err) : Proc α :=
  match e with
  | .authorizationRequired taskId decision assessment => do
      let _ ← now host
      throw (.authorizationRequired taskId decision assessment)
  | e => throw e

/-- From the mark RUNNING to the authorization. -/
def authorizeStep (runner : PlanRunner) (host : Host) (progress : Progress) (step : PlanStep)
    (actingUser : String) (explicitUserAck : Bool) : Proc (Plan × Task) := do
  let plan ← setStepState progress.plan step.id "RUNNING"
  let (declaration, _) ← Program.ofExcept (runner.tools.get step.tool)
  let profileId ← Program.ofExcept (snapshotProfileId host.py progress.current)
  let outcome ← tryCatch (runner.evaluateAndAuthorize progress.current
    (authorizationFor plan step declaration.capabilities actingUser profileId explicitUserAck))
    (noteConfirmation host)
  pure (plan, outcome.task)

/-- The request of a step. -/
def requestFor (current : Task) (step : PlanStep) : ToolRequest :=
  { requestId := current.requestId
    tool := step.tool
    action := if step.description = "" then step.tool else step.description
    arguments := step.arguments }

/-- The step is COMPLETED. -/
def finishStep (progress : Progress) (step : PlanStep) : Proc Progress :=
  guarded progress step (setStepState progress.plan step.id "COMPLETED") fun plan =>
    pure { progress with plan := plan, completed := progress.completed + 1 }

/-- From the verification on. -/
def verifyStep (runner : PlanRunner) (progress : Progress) (step : PlanStep) (moreSteps : Bool) :
    Proc Progress :=
  guarded progress step (runner.verify progress.current moreSteps) fun result =>
    if result.verification.verified then
      finishStep { progress with current := result.task } step
    else stopAt { progress with current := result.task } step

/-- From the scan of the output on. -/
def scanStep (runner : PlanRunner) (progress : Progress) (step : PlanStep) (data : Value)
    (moreSteps : Bool) : Proc Progress :=
  guarded progress step (runner.scanOutput progress.current step.tool data) fun scan =>
    if scan.flagged then stopAt progress step
    else verifyStep runner progress step moreSteps

/-- From the execution on. -/
def executeStep (runner : PlanRunner) (progress : Progress) (step : PlanStep) (moreSteps : Bool) :
    Proc Progress :=
  guarded progress step (runner.execute progress.current (requestFor progress.current step))
    fun result =>
      let progress :=
        { progress with current := result.task, results := progress.results ++ [result] }
      if result.outcome ≠ .success then stopAt progress step
      else if result.task.state ≠ .verifying then stopAt progress step
      else scanStep runner progress step result.response.data moreSteps

/-- The body of the loop. -/
def runStep (runner : PlanRunner) (host : Host) (actingUser : String) (explicitUserAck : Bool)
    (progress : Progress) (step : PlanStep) (moreSteps : Bool) : Proc Progress :=
  guarded progress step (authorizeStep runner host progress step actingUser explicitUserAck)
    fun (plan, current) =>
      executeStep runner { progress with plan := plan, current := current } step moreSteps

/-- The loop over the pending steps; the step it was left at, if it was left early. -/
def runSteps (runner : PlanRunner) (host : Host) (actingUser : String) (explicitUserAck : Bool) :
    Progress → List PlanStep → Proc (Progress × Option PlanStep)
  | progress, [] => pure (progress, none)
  | progress, step :: rest =>
    if progress.current.state ≠ .ready then
      throw (.runtimeError ("PlanRunner expected READY before step " ++
        host.py.reprOf (.str step.id) ++ ", got " ++
        host.py.reprOf (.str progress.current.state.value)))
    else do
      note (.stepStarted progress.plan.taskId step.id)
      let after ← runStep runner host actingUser explicitUserAck progress step (!rest.isEmpty)
      if after.stopped then pure (after, some step)
      else runSteps runner host actingUser explicitUserAck after rest

/-- The value is a text. -/
def isText : Value → Bool
  | .str _ => true
  | _ => false

/-- The request of a compensation. Keys that are not texts are kept as `json.dumps` writes them, which is
how they are hashed. -/
def compensationFor (py : Stdlib) (current : Task) (node : OperationNode) : ToolRequest :=
  { requestId := current.requestId
    tool := pyStr py node.compensationTool
    action := "compensate"
    arguments := node.compensationArguments.toDict py
    toolIsText := isText node.compensationTool }

/-- The progress after a call of `execute`; an `Exception` it raises is dropped. -/
def withResult (progress : Progress) : Except Err ExecutionOutcomeRecord → Except Err Progress
  | .ok result =>
      .ok { progress with current := result.task, results := progress.results ++ [result] }
  | .error e => if e.isException then .ok progress else .error e

/-- The compensations, one after the other. -/
def compensate (runner : PlanRunner) (host : Host) : Progress → List OperationNode → Proc Progress
  | progress, [] => pure progress
  | progress, node :: rest => do
      let result ←
        (runner.execute progress.current (compensationFor host.py progress.current node)).attempt
      let progress ← Program.ofExcept (withResult progress result)
      compensate runner host progress rest

/-- After a step that failed: its policy decides. -/
def unwind (runner : PlanRunner) (host : Host) (ordered : List OperationNode) (progress : Progress) :
    Option PlanStep → Proc Progress
  | none => pure progress
  | some step =>
    if (ordered.find? (·.stepId = step.id)).any (·.failurePolicy = "compensate") then
      compensate runner host progress (OperationGraph.compensationChain ordered step.id)
    else pure progress

/-- The last step of the plan under an id. -/
def stepById (plan : Plan) (stepId : String) : Option PlanStep :=
  plan.steps.reverse.find? (·.id = stepId)

/-- The steps in the order of the graph, those without a tool left out. -/
def executableSteps (plan : Plan) (ordered : List OperationNode) : List PlanStep :=
  (ordered.filterMap fun node => stepById plan node.stepId).filter (·.tool ≠ "")

/-- The run of the steps that are still to be done. -/
def runPending (runner : PlanRunner) (host : Host) (task : Task) (actingUser : String)
    (explicitUserAck : Bool) (plan : Plan) (ordered : List OperationNode) (pending : List PlanStep) :
    Proc PlanRunResult := do
  let (progress, stopped) ← runSteps runner host actingUser explicitUserAck
    { plan := plan, current := task } pending
  let progress ← unwind runner host ordered progress stopped
  pure { task := progress.current
         stepResults := progress.results
         completedSteps := progress.completed
         stoppedEarly := progress.stopped || progress.current.state ≠ .completed }

/-- The run of the steps the graph gives; those that are COMPLETED are left out. -/
def runOrdered (runner : PlanRunner) (host : Host) (task : Task) (actingUser : String)
    (explicitUserAck : Bool) (plan : Plan) (ordered : List OperationNode) : Proc PlanRunResult :=
  let steps := executableSteps plan ordered
  let pending := steps.filter (·.state ≠ "COMPLETED")
  if steps.isEmpty then
    throw (.valueError ("Plan for task " ++ host.py.reprOf (.str task.id) ++
      " has no executable steps"))
  else if pending.isEmpty then
    pure { task := task
           stepResults := []
           completedSteps := steps.length
           stoppedEarly := false }
  else runPending runner host task actingUser explicitUserAck plan ordered pending

def runPlan (runner : PlanRunner) (host : Host) (task : Task) (actingUser : String)
    (explicitUserAck : Bool) (plan : Plan) : Proc PlanRunResult := do
  let nodes ← Program.ofExcept (OperationGraph.fromPlan host.py plan)
  let ordered ← Program.ofExcept (OperationGraph.topologicalOrder nodes)
  runOrdered runner host task actingUser explicitUserAck plan ordered

def run (runner : PlanRunner) (host : Host) (task : Task) (actingUser : String := "user")
    (explicitUserAck : Bool := true) : Proc PlanRunResult := do
  match ← PlanRepository.getByTask task.id with
  | none => throw (.valueError
      ("Task " ++ host.py.reprOf (.str task.id) ++ " has no persisted plan"))
  | some plan => runPlan runner host task actingUser explicitUserAck plan

end PlanRunner

end Shea.Model
