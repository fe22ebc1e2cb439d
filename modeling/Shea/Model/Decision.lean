import Shea.Model.Security

/-!
# Decisions

`decision/policy.py`, `risk.py`, `confirmation.py` and `service.py`: a set of capabilities is judged
by the policy, its risk is assessed, and an authorization is granted or asked for. Everything a grant
writes, the move of the task to RUNNING included, shares one transaction.
-/

set_option autoImplicit false

namespace Shea.Model

open Shea.Computation

/-! ## Policy -/

/-- `DEFAULT_AUTHORIZATION_REQUIRED_CAPABILITIES`. -/
def defaultAuthorizationRequiredCapabilities : List String := [
  "filesystem.write", "process.execute", "network.connect", "network.listen", "system.configure",
  "credential.access", "credential.modify", "data.modify", "data.exfiltrate", "data.delete",
  "data.encrypt", "data.decrypt", "data.sign", "certificate.sign", "certificate.install",
  "certificate.modify"]

structure PolicyEngine where
  denyCapabilities : List String := []
  authorizationRequiredCapabilities : List String := defaultAuthorizationRequiredCapabilities
  deriving DecidableEq, Repr

/-- Some capability is in the set. -/
def meets (capabilities set : List String) : Bool := capabilities.any (· ∈ set)

def PolicyEngine.evaluate (engine : PolicyEngine) (capabilities : List String) : PolicyVerdict :=
  if meets capabilities engine.denyCapabilities then .denied
  else if meets capabilities engine.authorizationRequiredCapabilities then .requiresAuthorization
  else .allowed

/-! ## Risk -/

/-- `DEFAULT_ELEVATED_PRIVILEGE_CAPABILITIES`. -/
def defaultElevatedPrivilegeCapabilities : List String := [
  "process.execute", "filesystem.write", "credential.access", "system.configure", "network.listen"]

/-- `DEFAULT_NETWORK_CAPABILITIES`. -/
def defaultNetworkCapabilities : List String := ["network.connect", "network.outbound"]

structure RiskFactors where
  capabilities : List String := []
  reversible : Bool := true
  externalContentInvolved : Bool := false
  deriving DecidableEq, Repr

structure RiskAssessmentResult where
  level : RiskLevel
  factors : List String
  explanation : String
  deriving DecidableEq, Repr

structure RiskEngine where
  elevatedPrivilegeCapabilities : List String := defaultElevatedPrivilegeCapabilities
  networkCapabilities : List String := defaultNetworkCapabilities
  deriving DecidableEq, Repr

/-- `_LEVEL_BY_FACTOR_COUNT`. -/
def levelByFactorCount : ℕ → RiskLevel
  | 0 => .safe
  | 1 => .low
  | 2 => .medium
  | 3 => .high
  | _ => .critical

/-- The factors that are present, in the order of the source. -/
def RiskEngine.factors (engine : RiskEngine) (inputs : RiskFactors) : List String :=
  (if meets inputs.capabilities engine.elevatedPrivilegeCapabilities then ["Elevated privileges"]
    else []) ++
  (if meets inputs.capabilities engine.networkCapabilities then ["External network interaction"]
    else []) ++
  (if !inputs.reversible then ["Irreversible modification"] else []) ++
  (if inputs.externalContentInvolved then ["Untrusted source"] else [])

def RiskEngine.assess (engine : RiskEngine) (inputs : RiskFactors) : RiskAssessmentResult :=
  let factors := engine.factors inputs
  { level := levelByFactorCount factors.length
    factors := factors
    explanation := if factors.isEmpty then "No risk factors identified."
      else "Risk factors present: " ++ String.intercalate "; " factors ++ "." }

/-! ## Confirmation -/

structure ConfirmationRule where
  requiresAuthorization : Bool
  requiresExplicitAcknowledgement : Bool
  deriving DecidableEq, Repr

def confirmationRuleFor : RiskLevel → ConfirmationRule
  | .safe => ⟨false, false⟩
  | .low => ⟨false, false⟩
  | .medium => ⟨true, false⟩
  | .high => ⟨true, true⟩
  | .critical => ⟨true, true⟩
  | .unknown => ⟨true, true⟩

/-! ## The service -/

structure DecisionOutcome where
  decision : Decision
  riskAssessment : RiskAssessment
  authorization : Authorization
  task : Task
  deriving DecidableEq, Repr

/-- The arguments of `evaluate_and_authorize` after the task. -/
structure AuthorizationRequest where
  capabilities : List String
  reversible : Bool := true
  externalContentInvolved : Bool := false
  explicitUserAck : Bool := false
  actingUser : String := "user"
  plan : Option Plan := none
  step : Option PlanStep := none
  arguments : Option Dict := none
  profileId : String := "system"
  deriving DecidableEq, Repr

/-- What an authorization is bound to. -/
structure Binding where
  planHash : Option String := none
  stepHash : Option String := none
  argumentsHash : Option String := none
  nonce : Option String := none
  deriving DecidableEq, Repr

structure DecisionService where
  policy : PolicyEngine := {}
  risk : RiskEngine := {}

namespace DecisionService

/-- The audit entries of the service. -/
def entry (actor component eventType action result : String) (task : Task) (metadata : Dict) :
    AuditEntry :=
  { actor := actor
    component := component
    eventType := eventType
    action := action
    result := result
    requestId := some task.requestId
    taskId := some task.id
    metadata := metadata }

/-- The denial is audited, then raised. -/
def deny (service : DecisionService) (host : Host) (task : Task) (capabilities : List String) :
    Proc DecisionOutcome := do
  withUow (audit host (entry "decision_service" "decision.policy" "decision.policy_denied" "evaluate"
    "denied" task [("capabilities", .list ((sortedTexts capabilities.dedup).map .str))]))
  throw (.policyDenied task.id (capabilities.filter (· ∈ service.policy.denyCapabilities)))

/-- `resolved_plan`: the plan given, or the stored plan of a task that has one. -/
def resolvedPlan (task : Task) : Option Plan → Proc (Option Plan)
  | some plan => pure (some plan)
  | none => if task.planId.isSome then PlanRepository.getByTask task.id else pure none

/-- The hashes of the plan, of the step given (or the first one) and of the arguments given (or the
step's own). -/
def bindingOf (py : Stdlib) (nonce : String) (step : Option PlanStep) (arguments : Option Dict) :
    Option Plan → Binding
  | none => {}
  | some plan =>
    let resolvedStep := step <|> plan.steps.head?
    { planHash := some (computePlanHash py plan)
      stepHash := resolvedStep.map (computeStepHash py)
      argumentsHash := resolvedStep.map fun s =>
        computeArgumentsHash py (arguments.getD s.arguments)
      nonce := some nonce }

/-- `_auth`. The profile is the default of `_resolve_authorization`: the caller does not pass its own
on. -/
def grant (host : Host) (task : Task) (binding : Binding) (expiresAt : Time) (grantedBy : String)
    (explicit : Bool) : Proc Authorization := do
  let authorizationId ← newId host
  pure { id := authorizationId
         taskId := task.id
         granted := true
         grantedBy := grantedBy
         profileId := "system"
         explicit := explicit
         planHash := binding.planHash
         stepHash := binding.stepHash
         argumentsHash := binding.argumentsHash
         expiresAt := some expiresAt
         usedAt := none
         nonce := binding.nonce }

/-- No grant without an acknowledgement: audited, then raised. -/
def await (host : Host) (task : Task) (decision : Decision) (assessment : RiskAssessment) :
    Proc Authorization := do
  withUow (audit host (entry "decision_service" "decision.authorization"
    "decision.authorization.awaiting" "resolve_authorization" "blocked" task
    [("risk", .str decision.risk.value)]))
  throw (.authorizationRequired task.id decision assessment)

/-- Which of the ways to an authorization is taken. -/
def decide (host : Host) (task : Task) (decision : Decision) (assessment : RiskAssessment)
    (explicitUserAck : Bool) (actingUser : String) (binding : Binding) (expiresAt : Time) :
    Proc Authorization :=
  if !decision.requiresAuthorization then grant host task binding expiresAt "system" false
  else if explicitUserAck then grant host task binding expiresAt actingUser true
  else if !decision.requiresExplicitAcknowledgement then
    grant host task binding expiresAt "system" false
  else await host task decision assessment

/-- `_resolve_authorization`. -/
def resolveAuthorization (host : Host) (task : Task) (decision : Decision)
    (assessment : RiskAssessment) (request : AuthorizationRequest) : Proc Authorization := do
  let plan ← resolvedPlan task request.plan
  let nonce ← Program.get fun w => host.tokenHex w.ticks
  let at_ ← now host
  decide host task decision assessment request.explicitUserAck request.actingUser
    (bindingOf host.py nonce request.step request.arguments plan) (at_ + oneHour)

def assessmentOf (task : Task) (result : RiskAssessmentResult) (assessmentId : String) :
    RiskAssessment :=
  { id := assessmentId
    taskId := task.id
    level := result.level
    factors := result.factors
    explanation := result.explanation }

def decisionOf (task : Task) (level : RiskLevel) (verdict : PolicyVerdict)
    (capabilities : List String) (decisionId : String) : Decision :=
  let rule := confirmationRuleFor level
  let requires := rule.requiresAuthorization || verdict = .requiresAuthorization
  { id := decisionId
    taskId := task.id
    recommendation := if requires then "proceed" else "proceed_automatically"
    risk := level
    requiresAuthorization := requires
    requiresExplicitAcknowledgement := rule.requiresExplicitAcknowledgement
    capabilities := sortedTexts capabilities.dedup }

/-- The statements of the transaction that records a grant. -/
def writeGrant (host : Host) (task : Task) (decision : Decision) (assessment : RiskAssessment)
    (authorization : Authorization) : Proc Task := do
  RiskAssessmentRepository.save assessment
  DecisionRepository.save decision
  AuthorizationRepository.save authorization
  audit host (entry "decision_service" "decision.risk" "decision.risk_assessed" "assess" "success"
    task [("level", .str assessment.level.value), ("factors", .list (assessment.factors.map .str))])
  audit host (entry "decision_service" "decision.engine" "decision.recorded" "decide" "success" task
    [("risk", .str assessment.level.value),
      ("requires_authorization", .bool decision.requiresAuthorization),
      ("requires_explicit_acknowledgement", .bool decision.requiresExplicitAcknowledgement)])
  audit host (entry authorization.grantedBy "decision.authorization"
    (if authorization.explicit then "decision.authorized" else "decision.authorization.auto") "grant"
    "granted" task [("explicit", .bool authorization.explicit)])
  Orchestrator.advance host task.id "authorize_and_run"

/-- The way of a request the policy does not deny. -/
def authorize (service : DecisionService) (host : Host) (task : Task) (request : AuthorizationRequest)
    (verdict : PolicyVerdict) : Proc DecisionOutcome := do
  let result := service.risk.assess
    { capabilities := request.capabilities
      reversible := request.reversible
      externalContentInvolved := request.externalContentInvolved }
  let assessmentId ← newId host
  let decisionId ← newId host
  let assessment := assessmentOf task result assessmentId
  let decision := decisionOf task result.level verdict request.capabilities decisionId
  let authorization ← resolveAuthorization host task decision assessment request
  let updated ← withUow (writeGrant host task decision assessment authorization)
  pure { decision := decision
         riskAssessment := assessment
         authorization := authorization
         task := updated }

def evaluateAndAuthorize (service : DecisionService) (host : Host) (task : Task)
    (request : AuthorizationRequest) : Proc DecisionOutcome :=
  match service.policy.evaluate request.capabilities with
  | .denied => service.deny host task request.capabilities
  | verdict => service.authorize host task request verdict

end DecisionService

end Shea.Model
