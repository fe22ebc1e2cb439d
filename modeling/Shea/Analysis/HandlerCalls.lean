import Shea.Analysis.ToolRejections

/-!
# What a handler is called on

Between a public call of `execute` and the handler of a tool stand five layers: the service with the
security gate, the check of the newest authorization, the supervisor, the adapter and the executor. The
checks read the tables of authorizations, decisions and plans, and nothing is written there before the
supervisor has an answer. So what the checks found is found at every step up to the handler, and the
handler gets what was checked.
-/

set_option autoImplicit false

namespace Shea.Analysis

open Shea.Computation Shea.Model

/-! ## What is to hold, and the checks -/

/-- The handler calls in a log. -/
def handlersOf (log : List Effect) : List HandlerCall :=
  log.filterMap fun
    | .handlerCalled call => some call
    | _ => none

/-- The handler is called between the two states. -/
def Enters (a b : World) (entered : HandlerCall) : Prop :=
  entered ∈ handlersOf (b.log.drop a.log.length)

/-- Each hash the authorization has is that of the stored plan, of a step of it for the requested tool,
or of the requested arguments. -/
structure HashesFit (py : Stdlib) (request : ToolRequest) (auth : Authorization)
    (stored : Option Plan) : Prop where
  plan : ∀ hash, auth.planHash = some hash →
    ∃ current, stored = some current ∧ computePlanHash py current = hash
  step : ∀ hash, auth.stepHash = some hash → ∃ current, stored = some current ∧
    ∃ step ∈ current.steps, step.tool = request.tool ∧ computeStepHash py step = hash
  arguments : ∀ hash, auth.argumentsHash = some hash →
    computeArgumentsHash py request.arguments = hash

/-- The newest authorization of the task is unused, belongs to the task's profile or to the system, and
is for the stored plan and the request. -/
structure Admits (py : Stdlib) (task : Task) (request : ToolRequest) (auth : Authorization)
    (t : Tables) : Prop where
  newest : (AuthorizationRepository.ofTables t task.id).getLast? = some auth
  unused : auth.usedAt = none
  profile : .str auth.profileId = activeProfile task ∨ auth.profileId = "system"
  hashes : HashesFit py request auth (PlanRepository.ofTables t task.id)

/-- The newest decision on the task has every capability that the tool declares. -/
structure Covers (service : ExecutionService) (task : Task) (request : ToolRequest)
    (decision : Decision) (t : Tables) : Prop where
  newest : DecisionRepository.ofTables t task.id = some decision
  declared : ∃ declaration handler,
    service.executor.registry.get request.tool = .ok (declaration, handler) ∧
    ∀ capability ∈ declaration.capabilities, capability ∈ decision.capabilities

/-- The executor is given the tool and the action of the request and the capabilities of the decision.
When it requires a permit, the permit minted for the request is good for what it is given, arguments
included; these are those of the request, and the handler gets them with defaults behind them at most. -/
structure Presents (service : ExecutionService) (py : Stdlib) (request : ToolRequest)
    (decision : Decision) (entered : HandlerCall) : Prop where
  tool : entered.request.tool = request.tool
  action : entered.request.action = request.action
  capabilities : ∀ capability, capability ∈ entered.capabilities ↔ capability ∈ decision.capabilities
  permit : service.executor.requirePermit = true →
    service.executor.permitAuthority.verify py
      (service.executor.permitAuthority.mint py request.tool request.action request.arguments
        (ExecutionService.authorizedCapabilities decision)) entered.request.tool entered.request.action
      entered.request.arguments entered.capabilities = true
  arguments : service.executor.requirePermit = true → CollisionFree py →
    entered.request.arguments = request.arguments
  delivered : entered.request.arguments <+: entered.delivered.arguments

/-- All of this at the `n`-th step of an execution: for the task and the gate, for the newest
authorization, which had not expired when it was checked, and for the newest decision; and no step up
to the `n`-th has changed it. -/
structure Gated (service : ExecutionService) (host : Host) (task : Task) (request : ToolRequest)
    (w : World) (n : ℕ) (entered : HandlerCall) : Prop where
  running : task.state = .running
  cleared : service.security.gate.checkRequest host.py request = .ok ()
  authorized : ∃ auth,
    (∀ k ≤ n, Admits host.py task request auth ((service.execute host task request).cut k w).committed) ∧
    ∃ m ≤ n, ∀ expiry, auth.expiresAt = some expiry →
      host.clock ((service.execute host task request).cut m w).ticks ≤ expiry
  decided : ∃ decision,
    (∀ k ≤ n, Covers service task request decision
      ((service.execute host task request).cut k w).committed) ∧
    Presents service host.py request decision entered

section Checks

variable {service : ExecutionService} {host : Host} {task : Task} {request : ToolRequest}
  {auth : Authorization} {w t : World}

/-- INTERNAL: the gate lets a request through.
SOURCE: security/service.py:62-118 -/
theorem enforce_returned {a : Unit}
    (h : (service.security.enforce host task request).run w = (.ok a, t)) :
    task.state = .running ∧ service.security.gate.checkRequest host.py request = .ok () := by
  unfold SecurityService.enforce at h
  by_cases hrunning : task.state = .running
  case neg =>
    rw [if_pos hrunning] at h
    cases h
  rw [if_neg fun hno => hno hrunning] at h
  cases hchecked : service.security.gate.checkRequest host.py request with
  | ok _ => exact ⟨hrunning, rfl⟩
  | error e =>
    rw [hchecked] at h
    cases e with
    | securityViolation tool category reason =>
      obtain ⟨_, _, -, h⟩ := Program.run_bind_ok h
      obtain ⟨_, _, -, h⟩ := Program.run_bind_ok h
      cases h
    | _ => cases h

/-- INTERNAL: what the three hash checks compare.
SOURCE: execution/service.py:515-555 -/
theorem hashesFit_of_checkHashes {py : Stdlib} {plan : Option Plan}
    (h : checkHashes py task request auth plan = .ok ()) : HashesFit py request auth plan := by
  unfold checkHashes at h
  have hplan : checkPlanHash py task auth plan = .ok () := by
    cases hchecked : checkPlanHash py task auth plan with
    | ok _ => rfl
    | error e =>
      rw [hchecked] at h
      cases h
  rw [hplan] at h
  have hstep : checkStepHash py task request auth plan = .ok () := by
    cases hchecked : checkStepHash py task request auth plan with
    | ok _ => rfl
    | error e =>
      rw [hchecked] at h
      cases h
  rw [hstep] at h
  have harguments : checkArgumentsHash py task request auth = .ok () := h
  refine ⟨fun hash hhash => ?_, fun hash hhash => ?_, fun hash hhash => ?_⟩
  · unfold checkPlanHash at hplan
    rw [hhash] at hplan
    dsimp only at hplan
    split at hplan
    next hsame => exact Option.map_eq_some_iff.mp hsame
    next => cases hplan
  · unfold checkStepHash at hstep
    rw [hhash] at hstep
    dsimp only at hstep
    split at hstep
    next hsome =>
      obtain ⟨current, hcurrent, hfound⟩ := (Option.any_eq_true _ _).mp hsome
      obtain ⟨step, hin, hboth⟩ := List.any_eq_true.mp hfound
      obtain ⟨htool, hhashed⟩ := Bool.and_eq_true_iff.mp hboth
      obtain ⟨-, hsame⟩ := Bool.and_eq_true_iff.mp htool
      exact ⟨current, hcurrent, step, hin, of_decide_eq_true hsame, of_decide_eq_true hhashed⟩
    next => cases hstep
  · unfold checkArgumentsHash at harguments
    rw [hhash] at harguments
    dsimp only at harguments
    split at harguments
    next hsame => exact hsame.symm
    next => cases harguments

/-- INTERNAL: the authorization with which a request is cleared.
SOURCE: execution/service.py:483-555 -/
theorem Cleared.admits {py : Stdlib} {u : Tables} (h : Cleared py task request auth u) :
    Admits py task request auth u := by
  refine ⟨h.newest, h.unused, ?_, hashesFit_of_checkHashes h.hashes⟩
  have hprofile := h.profile
  unfold checkProfile at hprofile
  split at hprofile
  · cases hprofile
  next hno => tauto

/-- INTERNAL: an authorization that has expired does not pass.
SOURCE: execution/service.py:511-513 -/
theorem verifyAuthorizationBinding_unexpired {a : Unit} {expiry : Time}
    (h : (verifyAuthorizationBinding host task request).run w = (.ok a, t))
    (hnewest : (AuthorizationRepository.ofTables w.working task.id).getLast? = some auth)
    (hexpires : auth.expiresAt = some expiry) : host.clock w.ticks ≤ expiry := by
  obtain ⟨auths, w₁, hlist, h⟩ := Program.run_bind_ok h
  obtain ⟨hauths, rfl⟩ := Prod.mk.inj hlist
  obtain rfl := Except.ok.inj hauths
  dsimp only at h
  rw [hnewest] at h
  obtain ⟨_, w₂, hfirst, h⟩ := Program.run_bind_ok h
  rw [Program.run_ofExcept] at hfirst
  obtain ⟨-, rfl⟩ := Prod.mk.inj hfirst
  obtain ⟨_, w₃, hsecond, h⟩ := Program.run_bind_ok h
  rw [Program.run_ofExcept] at hsecond
  obtain ⟨-, rfl⟩ := Prod.mk.inj hsecond
  obtain ⟨_, w₄, hexpiry, -⟩ := Program.run_bind_ok h
  by_contra hlate
  have hraises : (checkUnexpired host task auth).run w =
      (.error (.authorizationExpired task.id expiry), { w with ticks := w.ticks + 1 }) := by
    unfold checkUnexpired
    rw [hexpires]
    simp only [Program.run_bind, run_now, if_pos (not_le.mp hlate), Program.run_throw]
  cases hraises.symm.trans hexpiry

end Checks

/-! ## The adapter -/

section Delivered

variable {service : ExecutionService} {host : Host} {task : Task} {request : ToolRequest}
  {decision : Decision} {contract : ExecutionContract} {receipt : ExecutionReceipt}
  {attempt : ExecutionAttempt} {entered : HandlerCall} {w : World}

/-- INTERNAL: the handler calls of a log in two parts. -/
@[simp] theorem handlersOf_append (a b : List Effect) :
    handlersOf (a ++ b) = handlersOf a ++ handlersOf b := List.filterMap_append

/-- INTERNAL: published events are no handler calls. -/
theorem handlersOf_published (events : List Event) : handlersOf (events.map .published) = [] :=
  List.filterMap_eq_nil_iff.mpr fun effect heffect => by
    obtain ⟨event, -, rfl⟩ := List.mem_map.mp heffect
    rfl

/-- INTERNAL: a world enters no handler beyond its own log. -/
theorem not_enters_self (w : World) (entered : HandlerCall) : ¬ Enters w w entered := by
  unfold Enters
  rw [List.drop_length]
  exact List.not_mem_nil

/-- INTERNAL: a permit that is good for arguments with credentials in them is one for arguments without
references.
SOURCE: app/adapters/tool_executor.py:74-104, tools/executor.py:147-177 -/
theorem injected_arguments {capabilities : List String} {arguments : Dict} {instant : ℕ}
    (hpy : CollisionFree host.py)
    (hinject : ToolExecutorAdapter.inject service.broker host request.tool (profileOf host.py task)
      instant request.arguments = .ok (.ok arguments))
    (hverified : service.executor.permitAuthority.verify host.py
      (service.executor.permitAuthority.mint host.py request.tool request.action request.arguments
        capabilities) request.tool request.action arguments (sortedTexts capabilities) = true) :
    arguments = request.arguments := by
  unfold ToolExecutorAdapter.inject at hinject
  cases hbroker : service.broker with
  | none =>
    rw [hbroker] at hinject
    exact (Except.ok.inj (Except.ok.inj hinject)).symm
  | some broker =>
    rw [hbroker] at hinject
    dsimp only at hinject
    cases hresolved : resolveArgumentCredentials host.py broker request.tool (profileOf host.py task)
        instant request.arguments with
    | error e =>
      rw [hresolved] at hinject
      dsimp only at hinject
      split at hinject <;> cases hinject
    | ok secrets =>
      rw [hresolved] at hinject
      obtain rfl := Except.ok.inj (Except.ok.inj hinject)
      have hinjected := injected_of_resolved hresolved
      have hdigest := digestArgs_of_verify (hpy.hmacSha256 _) hverified
      have hnone := noReference_of_canon hinjected (canon_of_digestArgs hpy hdigest.symm)
      exact secrets_of_noReference hnone hinjected

/-- INTERNAL: what the executor is given when it calls the handler.
SOURCE: tools/executor.py:133-181 -/
theorem presents_of_prepared {arguments : Dict} {instant : ℕ} {handler : ToolHandler}
    {delivered : ToolRequest}
    (h : Authorized service host.py task request (ExecutionService.authorizedCapabilities decision)
      contract)
    (hinject : ToolExecutorAdapter.inject service.broker host request.tool (profileOf host.py task)
      instant request.arguments = .ok (.ok arguments))
    (hprepared : service.executor.prepare host.py
      (handedOver host.py service request (ExecutionService.authorizedCapabilities decision) arguments)
      (sortedTexts (ExecutionService.authorizedCapabilities decision)) = .ok (handler, delivered)) :
    Presents service host.py request decision
      { request := handedOver host.py service request
          (ExecutionService.authorizedCapabilities decision) arguments
        capabilities := sortedTexts (ExecutionService.authorizedCapabilities decision)
        delivered := delivered } := by
  obtain ⟨declaration, handler', -, hsteps⟩ := prepare_handedOver h
  rw [hsteps] at hprepared
  have hpermit : service.executor.requirePermit = true →
      service.executor.permitAuthority.verify host.py
        (service.executor.permitAuthority.mint host.py request.tool request.action request.arguments
          (ExecutionService.authorizedCapabilities decision)) request.tool request.action arguments
        (sortedTexts (ExecutionService.authorizedCapabilities decision)) = true := by
    intro hrequire
    by_contra hno
    have hrefused : service.executor.checkPermit host.py
        (handedOver host.py service request (ExecutionService.authorizedCapabilities decision) arguments)
        (sortedTexts (ExecutionService.authorizedCapabilities decision))
        (some (service.executor.permitAuthority.mint host.py request.tool request.action
          request.arguments (ExecutionService.authorizedCapabilities decision))) =
        .error (.capabilityNotAuthorized request.tool ["<execution_permit_invalid>"]) := by
      unfold ToolExecutor.checkPermit
      rw [hrequire, Option.any_some]
      exact if_pos (by simpa [handedOver] using hno)
    rw [hrefused] at hprepared
    cases hprepared
  refine ⟨rfl, rfl, fun capability => ?_, hpermit, fun hrequire hpy => ?_, ?_⟩
  · rw [mem_sortedTexts]
    exact List.mem_dedup
  · exact injected_arguments hpy hinject (hpermit hrequire)
  · cases hchecked : service.executor.checkPermit host.py
        (handedOver host.py service request (ExecutionService.authorizedCapabilities decision) arguments)
        (sortedTexts (ExecutionService.authorizedCapabilities decision))
        (some (service.executor.permitAuthority.mint host.py request.tool request.action
          request.arguments (ExecutionService.authorizedCapabilities decision))) with
    | error e =>
      rw [hchecked] at hprepared
      cases hprepared
    | ok _ =>
      rw [hchecked] at hprepared
      cases hvalid : ToolExecutor.validateArguments host.py (handedOver host.py service request
          (ExecutionService.authorizedCapabilities decision) arguments) declaration with
      | error e =>
        simp only [bind, Except.bind, hvalid] at hprepared
        cases hprepared
      | ok validated =>
        simp only [bind, Except.bind, hvalid] at hprepared
        obtain ⟨-, rfl⟩ := Prod.mk.inj (Except.ok.inj hprepared)
        exact prefix_validateArguments hvalid

/-- INTERNAL: the adapter calls no handler on anything else.
SOURCE: app/adapters/tool_executor.py:47-117 -/
theorem presents_of_invoke
    (h : Authorized service host.py task request (ExecutionService.authorizedCapabilities decision)
      contract)
    (hentered : Enters w ((ToolExecutorAdapter.invoke service.executor service.permits service.broker
      host contract receipt attempt).run w).2 entered) :
    Presents service host.py request decision entered := by
  have hsilent := not_enters_self w entered
  rw [run_invoke h] at hentered
  split at hentered
  case isFalse => exact absurd hentered hsilent
  split at hentered
  next => exact absurd hentered hsilent
  next => exact absurd hentered hsilent
  next arguments hinject =>
  unfold calledExecutor at hentered
  split at hentered
  next => exact absurd hentered hsilent
  next handler delivered hprepared =>
  unfold Enters at hentered
  dsimp only at hentered
  rw [List.drop_left] at hentered
  obtain rfl := List.mem_singleton.mp hentered
  exact presents_of_prepared h hinject hprepared

end Delivered

/-! ## The steps -/

/-- The step appends to the log. -/
def Logs (a b : World) : Prop := a.log <+: b.log

/-- INTERNAL: a log continues itself. -/
theorem Logs.refl (a : World) : Logs a a := List.prefix_refl _

/-- INTERNAL: continuing is transitive. -/
theorem Logs.trans (a b c : World) (h : Logs a b) (h' : Logs b c) : Logs a c :=
  List.IsPrefix.trans h h'

/-- INTERNAL: a call between two states is one between any two around them. -/
theorem Enters.widen {a b c d : World} {entered : HandlerCall} (h : Enters b c entered)
    (hab : Logs a b) (hcd : Logs c d) : Enters a d entered := by
  obtain ⟨before, hb⟩ := hab
  obtain ⟨after, hd⟩ := hcd
  unfold Enters at h ⊢
  have hdrop : d.log.drop b.log.length = c.log.drop b.log.length ++
      after.drop (b.log.length - c.log.length) := by
    rw [← hd, List.drop_append]
  have hlonger : d.log.drop b.log.length = (d.log.drop a.log.length).drop before.length := by
    rw [List.drop_drop, ← hb, List.length_append]
  have hin : entered ∈ handlersOf (d.log.drop b.log.length) := by
    rw [hdrop, handlersOf_append]
    exact List.mem_append_left _ h
  rw [hlonger] at hin
  obtain ⟨effect, heffect, hcall⟩ := List.mem_filterMap.mp hin
  exact List.mem_filterMap.mpr ⟨effect, List.mem_of_mem_drop heffect, hcall⟩

/-- INTERNAL: events are no calls. -/
theorem not_enters_of_published {a b : World} {events : List Event}
    (h : b.log = a.log ++ events.map .published) (entered : HandlerCall) : ¬ Enters a b entered := by
  unfold Enters
  rw [h, List.drop_left, handlersOf_published]
  exact List.not_mem_nil

/-- INTERNAL: with events before and behind, a call is one of those in between. -/
theorem Enters.narrow {a b c d : World} {entered : HandlerCall} {before after : List Event}
    (h : Enters a d entered) (hab : b.log = a.log ++ before.map .published) (hbc : Logs b c)
    (hcd : d.log = c.log ++ after.map .published) : Enters b c entered := by
  obtain ⟨between, hc⟩ := hbc
  unfold Enters at h ⊢
  rw [hcd, ← hc, hab, List.append_assoc, List.append_assoc, List.drop_left, handlersOf_append,
    handlersOf_append, handlersOf_published, handlersOf_published, List.nil_append, List.append_nil] at h
  rw [← hc, List.drop_left]
  exact h

section Silence

variable {α : Type} {p : Proc α}

/-- INTERNAL: what is silent appends events. -/
theorem Silent.guarantee_published (h : Silent p) :
    p.Guarantee fun a b => ∃ events : List Event, b.log = a.log ++ events.map .published :=
  h.steps.mono fun _ _ hab => hab.log

/-- INTERNAL: a silent program keeps what was logged. -/
theorem Silent.guarantee_logs (h : Silent p) : p.Guarantee Logs :=
  h.guarantee_published.mono fun _ _ ⟨_, hlog⟩ => ⟨_, hlog.symm⟩

/-- INTERNAL: no step of it calls a handler. -/
theorem Silent.not_enters (h : Silent p) {m n : ℕ} (hmn : m ≤ n) (w : World) (entered : HandlerCall) :
    ¬ Enters (p.cut m w) (p.cut n w) entered := by
  obtain ⟨events, hlog⟩ := h.guarantee_published.cut_le (fun a => ⟨[], by simp⟩)
    (fun a b c hab hbc => by
      obtain ⟨events, hb⟩ := hab
      obtain ⟨events', hc⟩ := hbc
      exact ⟨events ++ events', by rw [hc, hb, List.map_append, List.append_assoc]⟩) hmn w
  exact not_enters_of_published hlog entered

end Silence

/-- INTERNAL: the adapter call only appends to the log.
SOURCE: app/supervisor.py:226-258 -/
theorem logs_invokeAdapter (host : Host) (adapter : Adapter) (contract : ExecutionContract)
    (receipt : ExecutionReceipt) (attempt : ExecutionAttempt) (key : Option String) :
    (ExecutionSupervisor.invokeAdapter host adapter contract receipt attempt key).Guarantee Logs := by
  have hnote : ∀ effect : Effect, (note effect).Guarantee Logs := fun effect =>
    Program.guarantee_modify fun w => List.prefix_append _ _
  refine Program.guarantee_bind (hnote _) fun _ => Program.guarantee_bind
    (Program.guarantee_attempt ?_) fun outcome => Program.guarantee_bind (hnote _) fun _ => ?_
  · exact (adapter.outside contract receipt attempt).mono fun _ _ ⟨_, _, _, _, _, hlog⟩ => ⟨_, hlog.symm⟩
  · cases outcome with
    | ok result => exact Program.guarantee_pure _
    | error e =>
      dsimp only
      split
      · exact Program.guarantee_pure _
      · exact Program.guarantee_throw _

/-! ## The execution -/

/-- `execute` up to the answer of the supervisor. -/
def supervising (service : ExecutionService) (host : Host) (task : Task) (request : ToolRequest) :
    Proc SupervisionResult := do
  let contract ← service.prepare host task request
  (service.sup host).execute host contract

/-- What the checks read. -/
def checkedPart (t : Tables) : List Authorization × List Decision × List Plan × List PlanStep :=
  (t.authorizations, t.decisions, t.plans, t.planSteps)

/-- INTERNAL: what the checks read has nothing to do with tasks and the audit log. -/
theorem unrelated_checkedPart : Unrelated checkedPart := ⟨fun _ _ => rfl, fun _ _ => rfl⟩

/-- INTERNAL: nor with receipts and their attempts. -/
theorem apart_checkedPart : Apart checkedPart :=
  ⟨fun _ _ => rfl, fun _ _ => rfl, fun _ _ => rfl, fun _ _ => rfl, fun _ _ => rfl⟩

section Execution

variable {service : ExecutionService} {host : Host} {task : Task} {request : ToolRequest}
  {auth : Authorization} {decision : Decision} {entered : HandlerCall} {w : World}

/-- INTERNAL: the checks find the same wherever these tables are the same. -/
theorem Admits.congr {py : Stdlib} {u t : Tables} (h : Admits py task request auth u)
    (hsame : checkedPart t = checkedPart u) : Admits py task request auth t := by
  obtain ⟨hauthorizations, -, hplans, hsteps⟩ : t.authorizations = u.authorizations ∧ _ ∧
    t.plans = u.plans ∧ t.planSteps = u.planSteps := by simpa [checkedPart] using hsame
  have hplan : PlanRepository.ofTables t task.id = PlanRepository.ofTables u task.id :=
    ofTables_congr hplans hsteps task.id
  refine ⟨?_, h.unused, h.profile, hplan ▸ h.hashes⟩
  have hnewest := h.newest
  unfold AuthorizationRepository.ofTables at hnewest ⊢
  rw [hauthorizations]
  exact hnewest

/-- INTERNAL: cover depends on what the checks read alone. -/
theorem Covers.congr {u t : Tables} (h : Covers service task request decision u)
    (hsame : checkedPart t = checkedPart u) : Covers service task request decision t := by
  have hdecisions : t.decisions = u.decisions := congrArg (fun part => part.2.1) hsame
  refine ⟨?_, h.declared⟩
  have hnewest := h.newest
  unfold DecisionRepository.ofTables at hnewest ⊢
  rw [hdecisions]
  exact hnewest

/-- INTERNAL: up to the supervisor's answer nothing is written to these tables.
SOURCE: execution/service.py:229-340, app/supervisor.py:131-315 -/
theorem leaves_supervising (service : ExecutionService) (host : Host) (task : Task)
    (request : ToolRequest) : Leaves checkedPart (supervising service host task request) :=
  .bind (serves_prepare unrelated_checkedPart service host task request).leaves fun contract =>
    leaves_execute apart_checkedPart _ host contract (.inr fun _ _ => ⟨rfl, rfl⟩)

/-- INTERNAL: the way to the adapter, the adapter, and the finalization.
SOURCE: execution/service.py:229-340, app/supervisor.py:131-315 -/
theorem supervising_eq (service : ExecutionService) (host : Host) (task : Task)
    (request : ToolRequest) : supervising service host task request =
      approach service host task request >>= fun call =>
        ExecutionSupervisor.invokeAdapter host call.adapter call.contract call.receipt call.attempt
          call.key >>= fun result =>
        ExecutionSupervisor.finalize host call.contract.operation call.receipt call.attempt call.key
          result := by
  simp only [supervising, ExecutionSupervisor.execute, reservingPhase, ExecutionSupervisor.carryOut,
    approach, withContext_operation, bind_assoc, pure_bind]

/-- INTERNAL: all of it only appends to the log. -/
theorem logs_supervising (service : ExecutionService) (host : Host) (task : Task)
    (request : ToolRequest) : (supervising service host task request).Guarantee Logs := by
  rw [supervising_eq]
  exact Program.guarantee_bind (silent_approach service host task request).guarantee_logs fun call =>
    Program.guarantee_bind (logs_invokeAdapter host _ _ _ _ _) fun result =>
      (silent_finalize host _ _ _ _ result).guarantee_logs

/-- INTERNAL: the check of the authorization comes right behind the gate.
SOURCE: execution/service.py:229-244 -/
theorem approach_admits {call : Invocation} {v : World} (hw : w.Idle)
    (h : (approach service host task request).run w = (.ok call, v)) :
    ∃ auth u, (service.security.enforce host task request).run w = (.ok (), u) ∧
      Admits host.py task request auth w.committed ∧
      ∀ expiry, auth.expiresAt = some expiry → host.clock u.ticks ≤ expiry := by
  obtain ⟨contract, w₁, hprepared, -⟩ := Program.run_bind_ok h
  obtain ⟨auth, tables, hnewest, hcleared, hsame⟩ := prepare_cleared hw hprepared
  obtain ⟨_, u, hgate, hprepared⟩ := Program.run_bind_ok hprepared
  obtain ⟨_, _, hbinding, -⟩ := Program.run_bind_ok hprepared
  refine ⟨auth, u, hgate, hcleared.admits.congr (hsame unrelated_checkedPart).symm, ?_⟩
  intro expiry hexpires
  refine verifyAuthorizationBinding_unexpired hbinding ?_ hexpires
  have hkept := ((serves_enforce unrelated_checkedPart service.security host task request).leaves.run w
    (congrArg checkedPart hw.working)).1
  rw [hgate, hw.working] at hkept
  have hauthorizations : u.working.authorizations = w.committed.authorizations :=
    congrArg Prod.fst hkept
  unfold AuthorizationRepository.ofTables at hnewest ⊢
  rw [hauthorizations]
  exact hnewest

/-- INTERNAL: the call of an adapter that calls a handler.
SOURCE: app/supervisor.py:226-258 -/
theorem enters_invoke {call : Invocation} {v : World}
    (h : Enters v ((ExecutionSupervisor.invokeAdapter host call.adapter call.contract call.receipt
      call.attempt call.key).run v).2 entered) :
    ∃ called : World, Enters called
      ((call.adapter.invoke call.contract call.receipt call.attempt).run called).2 entered := by
  let called : World :=
    { v with log := v.log ++ [.adapterCalled call.receipt.id call.attempt.id call.key] }
  refine ⟨called, ?_⟩
  cases hinvoked : (call.adapter.invoke call.contract call.receipt call.attempt).run called with
  | mk answer u =>
  obtain ⟨calls, hlog⟩ := ((call.adapter.outside call.contract call.receipt call.attempt).mono
    (fun _ _ hab => hab.log)).sat (fun a => ⟨[], by simp⟩) (fun a b c hab hbc => by
      obtain ⟨calls, hb⟩ := hab
      obtain ⟨calls', hc⟩ := hbc
      exact ⟨calls ++ calls', by rw [hc, hb, List.map_append, List.append_assoc]⟩) called |>.run
  rw [hinvoked] at hlog
  dsimp only at hlog
  rw [run_invokeAdapter host call.adapter call.contract call.receipt call.attempt call.key hinvoked] at h
  unfold Enters at h ⊢
  dsimp only at h ⊢
  rw [hlog, List.append_assoc, List.append_assoc, List.drop_left, handlersOf_append,
    handlersOf_append] at h
  rw [hlog, List.drop_left]
  rcases List.mem_append.mp h with hfirst | hrest
  · exact absurd hfirst List.not_mem_nil
  · rcases List.mem_append.mp hrest with hin | hlast
    · exact hin
    · exact absurd hlast List.not_mem_nil

/-- INTERNAL: a handler that is called before the supervisor has an answer.
SOURCE: execution/service.py:229-340, app/adapters/tool_executor.py:47-117 -/
theorem entered_supervising (hw : w.Idle)
    (h : Enters w ((supervising service host task request).run w).2 entered) :
    (∃ auth u, (service.security.enforce host task request).run w = (.ok (), u) ∧
      Admits host.py task request auth w.committed ∧
      ∀ expiry, auth.expiresAt = some expiry → host.clock u.ticks ≤ expiry) ∧
    ∃ decision, Covers service task request decision w.committed ∧
      Presents service host.py request decision entered := by
  rw [supervising_eq, Program.run_bind] at h
  cases hreached : (approach service host task request).run w with
  | mk r v =>
  obtain ⟨before, hbefore⟩ := (silent_approach service host task request).log hreached
  rw [hreached] at h
  cases r with
  | error e => exact absurd h (not_enters_of_published hbefore entered)
  | ok call =>
  obtain ⟨hadapter, decision, u, hnewest, hsame, hauthorized⟩ := approach_returned hreached
  refine ⟨approach_admits hw hreached, decision, ?_, ?_⟩
  · obtain ⟨declaration, handler, hfor, hmissing⟩ :=
      missingCapabilities_of_sufficient hauthorized.sufficient
    obtain ⟨-, hfound⟩ := getFor_eq_ok.mp hfor
    have hpart : checkedPart u = checkedPart w.committed := by
      rw [hsame unrelated_checkedPart (congrArg checkedPart hw.working), hw.working]
    refine Covers.congr ⟨hnewest, declaration, handler, hfound, fun capability hdeclared => ?_⟩ hpart.symm
    by_contra hnot
    have hin : capability ∈ ToolExecutor.missingCapabilities declaration
        (ExecutionService.authorizedCapabilities decision) := by
      refine List.mem_filter.mpr ⟨hdeclared, decide_eq_true fun hhas => hnot ?_⟩
      exact List.mem_dedup.mp hhas
    rw [hmissing] at hin
    exact List.not_mem_nil hin
  · have hinvoked : Enters v ((ExecutionSupervisor.invokeAdapter host call.adapter call.contract
        call.receipt call.attempt call.key).run v).2 entered := by
      dsimp only at h
      rw [Program.run_bind] at h
      have hlogs := (logs_invokeAdapter host call.adapter call.contract call.receipt call.attempt
        call.key).sat Logs.refl Logs.trans v |>.run
      cases hanswer : (ExecutionSupervisor.invokeAdapter host call.adapter call.contract call.receipt
          call.attempt call.key).run v with
      | mk answer v₁ =>
      rw [hanswer] at h hlogs
      cases answer with
      | error e =>
        have hnothing : v₁.log = v₁.log ++ ([] : List Event).map .published :=
          (List.append_nil _).symm
        exact h.narrow hbefore hlogs hnothing
      | ok result =>
        cases hfinal : (ExecutionSupervisor.finalize host call.contract.operation call.receipt
            call.attempt call.key result).run v₁ with
        | mk final t =>
        dsimp only at h
        rw [hfinal] at h
        obtain ⟨after, hafter⟩ := (silent_finalize host _ _ _ _ result).log hfinal
        exact h.narrow hbefore hlogs hafter
    obtain ⟨called, hcalled⟩ := enters_invoke hinvoked
    rw [hadapter] at hcalled
    exact presents_of_invoke hauthorized hcalled

/-- INTERNAL: it starts with the gate.
SOURCE: execution/service.py:229-243 -/
theorem cut_supervising {u : World} (h : (service.security.enforce host task request).run w = (.ok (), u)) :
    (supervising service host task request).cut ((service.security.enforce host task request).steps w) w =
        u ∧
      ∀ n ≤ (service.security.enforce host task request).steps w,
        (supervising service host task request).cut n w =
          (service.security.enforce host task request).cut n w := by
  have hsame : ∀ n ≤ (service.security.enforce host task request).steps w,
      (supervising service host task request).cut n w =
        (service.security.enforce host task request).cut n w := by
    intro n hn
    unfold supervising ExecutionService.prepare
    rw [bind_assoc]
    exact Program.cut_bind_of_le _ _ hn
  refine ⟨?_, hsame⟩
  rw [hsame _ le_rfl, Program.cut_of_steps_le _ le_rfl, h]

/-- INTERNAL: a step that calls a handler is one before the supervisor has an answer.
SOURCE: execution/service.py:229-472 -/
theorem enters_supervising {n : ℕ} (hrunning : task.state = .running)
    (h : Enters ((service.execute host task request).cut n w)
      ((service.execute host task request).cut (n + 1) w) entered) :
    ∀ k ≤ n + 1, (service.execute host task request).cut k w =
      (supervising service host task request).cut k w := by
  have hexecute : service.execute host task request =
      supervising service host task request >>= service.settle host task request := by
    unfold ExecutionService.execute ExecutionService.carryOut supervising
    rw [if_pos hrunning, bind_assoc]
  rw [hexecute] at h ⊢
  by_cases hbefore : n + 1 ≤ (supervising service host task request).steps w
  · exact fun k hk => Program.cut_bind_of_le _ _ (hk.trans hbefore)
  have hafter : (supervising service host task request).steps w ≤ n := by omega
  cases hanswer : (supervising service host task request).run w with
  | mk r t =>
  cases r with
  | error e =>
    rw [Program.cut_bind_of_error hanswer, Program.cut_bind_of_error hanswer,
      Program.cut_of_steps_le _ hafter, Program.cut_of_steps_le _ (by omega)] at h
    exact absurd h (not_enters_self _ _)
  | ok supervision =>
    rw [Program.cut_bind_of_ok hanswer hafter, Program.cut_bind_of_ok hanswer (by omega)] at h
    exact absurd h ((silent_settle service host task request supervision).not_enters (by omega) t entered)

/-- Over every history of public operations, a handler that is reached through `execute` is called for
a RUNNING task and a request that the gate accepts. The newest authorization, which had not expired when
it was checked, and the newest decision admit the request, and no step up to the call has changed that.
The executor is given what was asked for.
SOURCE: execution/service.py:229-363, 483-555, tools/executor.py:133-198,
app/adapters/tool_executor.py:44-136 -/
theorem handler_gated {n : ℕ} (hw : History (operations host) {} w)
    (hentered : Enters ((service.execute host task request).cut n w)
      ((service.execute host task request).cut (n + 1) w) entered) :
    Gated service host task request w n entered := by
  have hidle := (resting_of_operations hw).idle
  by_cases hrunning : task.state = .running
  swap
  · unfold ExecutionService.execute at hentered
    rw [if_neg hrunning] at hentered
    have hsilent : Silent (throw (.taskNotRunning task.id task.state) : Proc ExecutionOutcomeRecord) :=
      .throw _
    exact absurd hentered (hsilent.not_enters n.le_succ w entered)
  have hcuts := enters_supervising hrunning hentered
  rw [hcuts n n.le_succ, hcuts (n + 1) le_rfl] at hentered
  have hlogs := fun {m n : ℕ} (hmn : m ≤ n) =>
    (logs_supervising service host task request).cut_le Logs.refl Logs.trans hmn w
  have hwhole : Enters w ((supervising service host task request).run w).2 entered := by
    refine hentered.widen (hlogs (Nat.zero_le n)) ?_
    rw [← Program.cut_of_steps_le _ (le_max_right (n + 1) _)]
    exact hlogs (le_max_left _ _)
  obtain ⟨⟨auth, u, hgate, hadmits, hunexpired⟩, decision, hcovers, hpresents⟩ :=
    entered_supervising hidle hwhole
  obtain ⟨hchecked, hgateCuts⟩ := cut_supervising hgate
  have hkept : ∀ k ≤ n, checkedPart ((service.execute host task request).cut k w).committed =
      checkedPart w.committed := by
    intro k hk
    rw [hcuts k (hk.trans n.le_succ)]
    exact ((leaves_supervising service host task request).cut k w
      (congrArg checkedPart hidle.working)).2
  have hlater : (service.security.enforce host task request).steps w ≤ n := by
    by_contra hearlier
    rw [hgateCuts n (by omega), hgateCuts (n + 1) (by omega)] at hentered
    have hsilent : Silent (service.security.enforce host task request) :=
      serves_enforce unrelated_unit service.security host task request
    exact hsilent.not_enters n.le_succ w entered hentered
  refine ⟨hrunning, (enforce_returned hgate).2, ⟨auth, fun k hk => hadmits.congr (hkept k hk), _, hlater, ?_⟩,
    decision, fun k hk => hcovers.congr (hkept k hk), hpresents⟩
  rw [hcuts _ (hlater.trans n.le_succ), hchecked]
  exact hunexpired

end Execution

/-- The execution of the first note. -/
def executeNote : Proc ExecutionOutcomeRecord :=
  (notesExecution answering).execute (.plain [] []) (firstTask authorizedFirst) noteRequest

/-- The handler for notes is called in the 54th step. -/
theorem note_handler_gated :
    ∃ entered, Enters (executeNote.cut 53 authorizedFirst) (executeNote.cut 54 authorizedFirst) entered ∧
      Gated (notesExecution answering) (.plain [] []) (firstTask authorizedFirst) noteRequest
        authorizedFirst 53 entered := by
  have hcalled : (handlersOf ((executeNote.cut 54 authorizedFirst).log.drop
      (executeNote.cut 53 authorizedFirst).log.length)).isEmpty = false := by decide +kernel
  obtain ⟨entered, hentered⟩ := List.exists_mem_of_ne_nil _ (List.isEmpty_eq_false_iff.mp hcalled)
  exact ⟨entered, hentered, handler_gated history_authorizedFirst hentered⟩

end Shea.Analysis
