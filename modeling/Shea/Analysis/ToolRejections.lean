import Shea.Analysis.OneShot
import Shea.Analysis.ToolOutcomes

/-!
# Rejected tool calls

A tool call can be stopped in two places: by the adapter, which answers with a FAILURE, and by the
executor, which raises. The supervisor takes an exception for a FAILURE only when its type says that
nothing can have happened, and none of the executor's errors is of such a type.
-/

set_option autoImplicit false

namespace Shea.Analysis

open Shea.Computation Shea.Model

/-! ## The errors of the executor -/

/-- No error that says, by its type, that nothing can have happened. -/
def Doubtful {α : Type} (x : Except Err α) : Prop :=
  Fails (fun e => ExecutionSupervisor.definiteNoEffect e = false) x

/-- INTERNAL: the schema of one argument raises TypeError, or the error of a malformed pattern.
SOURCE: tools/schema.py -/
theorem doubtful_validate (schema : ArgumentSchema) (py : Stdlib) (given : Value) :
    Doubtful (schema.validate py given) := by
  have hless : ∀ a b : Value, Doubtful (ArgumentSchema.less a b) := by
    intro a b
    unfold ArgumentSchema.less
    split
    · exact .ok _
    · exact .error rfl
  have hupper : ∀ value, Doubtful (do
      if schema.maxValue ≠ .none then
        if ← ArgumentSchema.less schema.maxValue value then
          return some ("Argument '" ++ schema.name ++ "' must be <= " ++ pyStr py schema.maxValue)
      return none : Except Err (Option String)) :=
    fun value => .ite (.bind (hless _ _) fun _ => .ite (.pure _) (.pure _)) (.pure _)
  have hbounds : ∀ value, Doubtful (schema.checkBounds py value) :=
    fun value => .ite (.bind (hless _ _) fun _ => .ite (.pure _) (hupper value)) (hupper value)
  have htext : ∀ text, Doubtful (schema.checkText py text) := by
    intro text
    refine .ite (.pure _) (.ite (.pure _) ?_)
    split
    · exact .pure _
    · split
      · exact .error rfl
      · exact .pure _
      · exact .pure _
  have hshape : ∀ value, Doubtful (schema.checkShape py value) := by
    intro value
    unfold ArgumentSchema.checkShape
    split
    · exact hbounds _
    · exact hbounds _
    · exact htext _
    · exact .ok _
  refine .ite (.pure _) (.ite (.pure _) (.bind (hshape _) fun message => ?_))
  cases message <;> exact .pure _

/-- INTERNAL: a schema raises ToolValidationError, or what one of its arguments raises.
SOURCE: tools/schema.py, tools/executor.py:214-240 -/
theorem doubtful_validateArguments (py : Stdlib) (request : ToolRequest)
    (declaration : ToolDeclaration) :
    Doubtful (ToolExecutor.validateArguments py request declaration) := by
  unfold ToolExecutor.validateArguments
  split
  · exact .ok _
  next schema _ =>
    have hgiven : ∀ arguments, Doubtful (schema.givenErrors py arguments) := by
      intro arguments
      induction arguments with
      | nil => exact .ok _
      | cons entry rest ih =>
        obtain ⟨name, value⟩ := entry
        have hrest : ∀ error : Option String, Doubtful (do
            let errors ← schema.givenErrors py rest
            pure (error.toList ++ errors) : Except Err (List String)) :=
          fun error => .bind ih fun errors => .pure _
        rw [ToolSchema.givenErrors]
        split
        · exact hrest _
        · exact .bind (doubtful_validate _ py value) hrest
    refine .bind (.bind (.bind (hgiven _) fun _ => .pure _) fun errors =>
      .ite (.pure _) (.error rfl)) fun _ => .pure _

/-- Whatever stops the executor before the handler, the error does not say so by its type.
SOURCE: tools/executor.py:133-181, app/supervisor.py:62-74 -/
theorem doubtful_prepare (executor : ToolExecutor) (py : Stdlib) (request : ToolRequest)
    (authorized : List String) : Doubtful (executor.prepare py request authorized) := by
  have hfound : Doubtful (executor.registry.getFor request) := by
    unfold ToolRegistry.getFor ToolRegistry.get
    split
    · split
      · exact .ok _
      · exact .error rfl
    · exact .error rfl
  have hpermit : Doubtful (ToolExecutor.permitOf py request) := by
    unfold ToolExecutor.permitOf
    split
    · exact .ok _
    · exact .ok _
    · exact .error rfl
  have hchecked : ∀ permit, Doubtful (executor.checkPermit py request authorized permit) := by
    intro permit
    unfold ToolExecutor.checkPermit
    split
    · exact .error rfl
    · exact .ok _
  have hrest : ∀ declaration handler, Doubtful (do
      let permit ← ToolExecutor.permitOf py request
      executor.checkPermit py request authorized permit
      let validated ← ToolExecutor.validateArguments py request declaration
      pure (handler, validated) : Except Err (ToolHandler × ToolRequest)) :=
    fun declaration handler => .bind hpermit fun permit => .bind (hchecked permit) fun _ =>
      .bind (doubtful_validateArguments py request declaration) fun _ => .pure _
  unfold ToolExecutor.prepare
  refine .bind hfound fun entry => ?_
  obtain ⟨declaration, handler⟩ := entry
  dsimp only
  split
  · exact .error rfl
  · exact hrest declaration handler

/-! ## The call of the adapter -/

/-- What the supervisor calls an adapter with. -/
structure Invocation where
  adapter : Adapter
  contract : ExecutionContract
  receipt : ExecutionReceipt
  attempt : ExecutionAttempt
  key : Option String

/-- `execute` up to the call of the adapter. -/
def approach (service : ExecutionService) (host : Host) (task : Task) (request : ToolRequest) :
    Proc Invocation := do
  let contract ← service.prepare host task request
  let key := ExecutionSupervisor.idempotencyKey host.py contract
  let adapter ← reservingPhase (service.sup host) host contract
  ExecutionSupervisor.probeEnvironment host
  let (resolved, report) ← ExecutionSupervisor.admitTarget host contract
  let (receipt, attempt) ← ExecutionSupervisor.openReceipt host contract adapter.name key
  let (verified, attempt) ← ExecutionSupervisor.markInvoked host contract resolved attempt
  pure { adapter := adapter
         contract := ExecutionSupervisor.withContext host contract verified report
         receipt := receipt
         attempt := attempt
         key := key }

/-- `execute` from there on. -/
def aftermath (service : ExecutionService) (host : Host) (task : Task) (request : ToolRequest)
    (call : Invocation) : Proc ExecutionOutcomeRecord := do
  let result ← ExecutionSupervisor.invokeAdapter host call.adapter call.contract call.receipt
    call.attempt call.key
  let supervision ← ExecutionSupervisor.finalize host call.contract.operation call.receipt call.attempt
    call.key result
  service.settle host task request supervision

/-- It lets out nothing but events. -/
def Silent {α : Type} (p : Proc α) : Prop := Serves (fun _ : Tables => ()) p

/-- INTERNAL: an undisturbed run appends events to the log. -/
theorem Silent.log {α : Type} {p : Proc α} (h : Silent p) {r : Except Err α} {w t : World}
    (hrun : p.run w = (r, t)) : ∃ events : List Event, t.log = w.log ++ events.map .published := by
  have hsat := (h.steps.mono fun _ _ hab => hab.log).sat (fun a => ⟨[], by simp⟩)
    (fun a b c => by
      rintro ⟨events, hb⟩ ⟨events', hc⟩
      exact ⟨events ++ events', by rw [hc, hb, List.map_append, List.append_assoc]⟩) w
  have hlog := hsat.run
  rw [hrun] at hlog
  exact hlog

/-- INTERNAL: the empty part has nothing to do with any table. -/
theorem unrelated_unit : Unrelated (fun _ : Tables => ()) := ⟨fun _ _ => rfl, fun _ _ => rfl⟩

/-- INTERNAL: saving a row that must be JSON. -/
theorem silent_save (d : Dict) (statement : Tables → Tables) :
    Silent (withUow (do requireSerializable d; execute statement)) :=
  .withUow (.bind (.requireSerializable _) fun _ => .execute fun _ => rfl)

/-- INTERNAL: saving a row that refers to another. -/
theorem silent_saveChecked (d : Dict) (holds : Tables → Bool) (message : String) (statement : Tables → Tables) :
    Silent (withUow (do requireSerializable d; executeChecked holds message statement)) :=
  .withUow (.bind (.requireSerializable _) fun _ => .executeChecked _ _ fun _ => rfl)

/-- INTERNAL: a silent body is silent under a key. -/
theorem silent_whenKeyed (key : Option String) {body : String → Proc Unit}
    (h : ∀ key, Silent (body key)) : Silent (ExecutionSupervisor.whenKeyed key body) := by
  cases key with
  | none => exact .pure _
  | some key => exact h key

/-- INTERNAL: the reservation calls no handler. -/
theorem silent_reservingPhase (sup : ExecutionSupervisor) (host : Host)
    (contract : ExecutionContract) : Silent (reservingPhase sup host contract) := by
  refine .bind ?_ fun _ => .bind (.ofExcept _) fun _ =>
    .bind (silent_whenKeyed _ fun key => ?_) fun _ => .pure _
  · unfold ExecutionSupervisor.validate
    split
    · exact .throw _
    · split
      · exact .pure _
      · refine .bind (.now host) fun _ => ?_
        split
        · exact .throw _
        · exact .pure _
  · refine .bind (.query _) fun existing => ?_
    cases existing.bind _ with
    | some reason => exact .throw _
    | none =>
      exact .bind (.now host) fun _ =>
        .tryCatch (.writeChecked _ _ fun _ => rfl) fun _ => .throw _

/-- INTERNAL: nor does opening a receipt. -/
theorem silent_openReceipt (host : Host) (contract : ExecutionContract) (adapterName : String)
    (key : Option String) :
    Silent (ExecutionSupervisor.openReceipt host contract adapterName key) := by
  refine .bind (.now host) fun _ => .bind (.newId host) fun _ => .bind (.newId host) fun _ =>
    .bind (.withUow (Serves.toWithin (.bind (silent_save _ _) fun _ => .bind (silent_save _ _) fun _ =>
      .bind (silent_saveChecked _ _ _ _) fun _ => silent_whenKeyed _ fun key => ?_))) fun _ =>
    .bind (.query _) fun found => ?_
  · refine .bind (.query _) fun existing => .bind (.now host) fun _ => ?_
    cases existing <;> exact .write fun _ => rfl
  · cases found with
    | none => exact .throw _
    | some _ => exact .pure _

/-- INTERNAL: no handler is called before the adapter is.
SOURCE: execution/service.py:229-340, app/supervisor.py:131-224 -/
theorem silent_approach (service : ExecutionService) (host : Host) (task : Task)
    (request : ToolRequest) : Silent (approach service host task request) := by
  refine .bind (serves_prepare unrelated_unit service host task request) fun contract =>
    .bind (silent_reservingPhase _ host contract) fun adapter =>
    .bind (.bind (.now host) fun _ => .bind (.get _) fun _ => .bind (.ofExcept _) fun _ => .pure _)
      fun _ => .bind ?_ fun admitted => .bind (silent_openReceipt host contract _ _) fun rows =>
    .bind (.bind (.get _) fun _ => .bind (.ofExcept _) fun _ => .bind (.now host) fun _ =>
      .bind (.withUow (Serves.toWithin (silent_saveChecked _ _ _ _))) fun _ => .pure _) fun _ => .pure _
  refine .bind (.get _) fun _ => .bind (.ofExcept _) fun _ => .bind (.ofExcept _) fun _ => ?_
  cases contract.scope with
  | none => exact .pure _
  | some scope => exact .bind (.ofExcept _) fun _ => .pure _

/-- INTERNAL: judging an answer and writing it down calls none.
SOURCE: app/supervisor.py:260-315 -/
theorem silent_finalize (host : Host) (operation : String) (receipt : ExecutionReceipt)
    (attempt : ExecutionAttempt) (key : Option String) (result : AdapterResult) :
    Silent (ExecutionSupervisor.finalize host operation receipt attempt key result) := by
  refine .bind (.bind (.now host) fun _ => .bind (.newId host) fun _ => .bind (.ofExcept _) fun _ =>
    .bind (.newId host) fun _ => .bind (.ofExcept _) fun _ => .pure _) fun judged =>
    .bind (.now host) fun _ => .bind (.withUow (Serves.toWithin ?_)) fun _ => .pure _
  refine .bind (silent_saveChecked _ _ _ _) fun _ => .bind (silent_save _ _) fun _ =>
    .bind (silent_saveChecked _ _ _ _) fun _ => .bind (.writeChecked _ _ fun _ => rfl) fun _ =>
    silent_whenKeyed _ fun key => ?_
  exact .bind (.now host) fun _ => .bind (.query _) fun _ => .write fun _ => rfl

/-- INTERNAL: nor does recording it.
SOURCE: execution/service.py:342-472 -/
theorem silent_settle (service : ExecutionService) (host : Host) (task : Task) (request : ToolRequest)
    (supervision : SupervisionResult) : Silent (service.settle host task request supervision) :=
  serves_settle unrelated_unit service host task request supervision (fun _ _ => rfl) fun _ _ => rfl

/-- INTERNAL: none after the adapter.
SOURCE: app/supervisor.py:260-315, execution/service.py:342-472 -/
theorem silent_finish (service : ExecutionService) (host : Host) (task : Task) (request : ToolRequest)
    (operation : String) (receipt : ExecutionReceipt) (attempt : ExecutionAttempt)
    (key : Option String) (result : AdapterResult) : Silent (do
      let supervision ← ExecutionSupervisor.finalize host operation receipt attempt key result
      service.settle host task request supervision) :=
  .bind (silent_finalize host operation receipt attempt key result) fun supervision =>
    silent_settle service host task request supervision

section Calls

variable {service : ExecutionService} {host : Host} {task : Task} {request : ToolRequest}
  {call : Invocation} {w v t : World}

/-- INTERNAL: the two make up the whole. -/
theorem carryOut_eq (service : ExecutionService) (host : Host) (task : Task) (request : ToolRequest) :
    service.carryOut host task request =
      approach service host task request >>= aftermath service host task request := by
  simp only [ExecutionService.carryOut, execute_eq, remainingPhases, ExecutionSupervisor.carryOut,
    approach, aftermath, withContext_operation, bind_assoc, pure_bind]

/-- INTERNAL: the service's own adapter is the one of its name.
SOURCE: app/supervisor.py:96-129 -/
theorem preferredAdapter_sup (contract : ExecutionContract)
    (hbackend : contract.metadata.get "execution_backend" = .str "tool_executor") :
    (service.sup host).preferredAdapter contract =
      some (toolExecutorAdapter service.executor service.permits service.broker host) := by
  let own := toolExecutorAdapter service.executor service.permits service.broker host
  have hown : own.supports contract = true := decide_eq_true hbackend
  have hreplaced : ∀ adapters : List Adapter,
      (ExecutionSupervisor.ensureAdapter.replace own adapters).find?
        (fun adapter => adapter.name = "tool_executor" ∧ adapter.supports contract) = some own := by
    intro adapters
    induction adapters with
    | nil =>
      unfold ExecutionSupervisor.ensureAdapter.replace
      rw [List.find?_cons_of_pos]
      exact decide_eq_true ⟨rfl, hown⟩
    | cons existing rest ih =>
      unfold ExecutionSupervisor.ensureAdapter.replace
      split
      next hname =>
        rw [List.find?_cons_of_pos]
        exact decide_eq_true ⟨rfl, hown⟩
      next hname =>
        rw [List.find?_cons_of_neg]
        · exact ih
        · exact fun h => hname (of_decide_eq_true h).1
  unfold ExecutionSupervisor.preferredAdapter
  rw [hbackend]
  exact hreplaced _

/-- INTERNAL: the adapter that is called is the service's own, on the contract of the request.
SOURCE: execution/service.py:275-340, app/supervisor.py:131-224 -/
theorem approach_returned (h : (approach service host task request).run w = (.ok call, v)) :
    call.adapter = toolExecutorAdapter service.executor service.permits service.broker host ∧
      ∃ decision u, DecisionRepository.ofTables u task.id = some decision ∧
        (∀ {γ : Type} {part : Tables → γ}, Unrelated part → part w.working = part w.committed →
          part u = part w.working) ∧
        Authorized service host.py task request (ExecutionService.authorizedCapabilities decision)
          call.contract := by
  obtain ⟨contract, w₁, hprepared, h⟩ := Program.run_bind_ok h
  obtain ⟨adapter, w₂, hreserved, h⟩ := Program.run_bind_ok h
  obtain ⟨_, w₃, -, h⟩ := Program.run_bind_ok h
  obtain ⟨⟨resolved, report⟩, w₄, hadmitted, h⟩ := Program.run_bind_ok h
  obtain ⟨⟨receipt, attempt⟩, w₅, -, h⟩ := Program.run_bind_ok h
  obtain ⟨⟨verified, marked⟩, w₆, -, h⟩ := Program.run_bind_ok h
  obtain rfl := Except.ok.inj (congrArg Prod.fst h)
  obtain ⟨decision, u, hdecision, hsame, hauthorized⟩ := prepare_decided hprepared
  obtain ⟨auth, key, contractId, hcontract⟩ := hauthorized.made
  have hbackend : contract.metadata.get "execution_backend" = .str "tool_executor" := by
    rw [hcontract]
    rfl
  have hscope : contract.scope = none := by
    rw [hcontract]
    rfl
  have hselected : adapter =
      toolExecutorAdapter service.executor service.permits service.broker host := by
    obtain ⟨_, _, -, hreserved⟩ := Program.run_bind_ok hreserved
    obtain ⟨selected, _, hselect, hreserved⟩ := Program.run_bind_ok hreserved
    obtain ⟨_, _, -, hreserved⟩ := Program.run_bind_ok hreserved
    obtain rfl := Except.ok.inj (congrArg Prod.fst hreserved)
    unfold ExecutionSupervisor.selectAdapter at hselect
    rw [preferredAdapter_sup contract hbackend] at hselect
    exact (Except.ok.inj (congrArg Prod.fst hselect)).symm
  refine ⟨hselected, decision, u, hdecision, hsame, ?_⟩
  have hreport : report = none := by
    obtain ⟨_, _, -, hadmitted⟩ := Program.run_bind_ok hadmitted
    obtain ⟨_, _, -, hadmitted⟩ := Program.run_bind_ok hadmitted
    obtain ⟨_, _, -, hadmitted⟩ := Program.run_bind_ok hadmitted
    rw [hscope] at hadmitted
    exact (Prod.mk.inj (Except.ok.inj (congrArg Prod.fst hadmitted))).2.symm
  rw [hreport]
  exact hauthorized

/-! ## The outcome of a call without a handler -/

/-- The adapter itself refuses the call: the permit is not good for its own authority, or a credential
cannot be had. -/
def RefusedByAdapter (service : ExecutionService) (host : Host) (task : Task) (request : ToolRequest)
    (capabilities : List String) (instant : ℕ) : Prop :=
  service.permits.verify host.py (service.executor.permitAuthority.mint host.py request.tool
      request.action request.arguments capabilities) request.tool request.action request.arguments
      (sortedTexts capabilities) = false ∨
    ∃ message, ToolExecutorAdapter.inject service.broker host request.tool (profileOf host.py task)
      instant request.arguments = .ok (.error message)

/-- INTERNAL: what the injection does not make a message of is no `Exception`. -/
theorem inject_raised {broker : Option CredentialBroker} {tool profileId : String} {instant : ℕ}
    {arguments : Dict} {e : Err}
    (h : ToolExecutorAdapter.inject broker host tool profileId instant arguments = .error e) :
    e.isException = false := by
  unfold ToolExecutorAdapter.inject at h
  split at h
  · cases h
  · split at h
    · cases h
    · split at h
      · cases h
      · next hbase =>
        obtain rfl := Except.error.inj h
        exact eq_false_of_ne_true hbase

/-- INTERNAL: an executor that raises leaves the supervisor in doubt.
SOURCE: app/supervisor.py:226-258 -/
theorem resultOfError_tool (host : Host) (request : ToolRequest) (adapterName receiptId attemptId : String)
    {e : Err} (he : ExecutionSupervisor.definiteNoEffect e = false) :
    (ExecutionSupervisor.resultOfError host (toolOperation request) adapterName receiptId attemptId
      e).outcome = .unknown := by
  have hfamilies : ∀ operation ∈ ExecutionSupervisor.sideEffectFreeOperations,
      operationFamily operation ≠ "tool" := by decide +kernel
  have hnot : toolOperation request ∉ ExecutionSupervisor.sideEffectFreeOperations :=
    fun hfree => hfamilies _ hfree (operationFamily_toolOperation request)
  unfold ExecutionSupervisor.resultOfError
  rw [he]
  simp [hnot]

/-- INTERNAL: the adapter call, with its two entries in the log.
SOURCE: app/supervisor.py:226-258 -/
theorem run_invokeAdapter (host : Host) (adapter : Adapter) (contract : ExecutionContract)
    (receipt : ExecutionReceipt) (attempt : ExecutionAttempt) (key : Option String)
    {answer : Except Err AdapterResult} {u : World}
    (h : (adapter.invoke contract receipt attempt).run
      { v with log := v.log ++ [.adapterCalled receipt.id attempt.id key] } = (answer, u)) :
    (ExecutionSupervisor.invokeAdapter host adapter contract receipt attempt key).run v =
      (resultOf host adapter.name contract.operation receipt.id attempt.id answer,
        { u with log := u.log ++ [.adapterReturned attempt.id answer] }) := by
  unfold ExecutionSupervisor.invokeAdapter note
  rw [Program.run_bind, Program.run_modify]
  dsimp only
  rw [Program.run_bind, Program.run_attempt, h]
  cases answer with
  | ok result => rfl
  | error e =>
    show (if e.isException then _ else _ : Proc AdapterResult).run _ = _
    by_cases hcaught : e.isException = true
    · rw [if_pos hcaught, resultOf_caught hcaught]
      rfl
    · rw [if_neg hcaught, show resultOf host adapter.name contract.operation receipt.id attempt.id
        (.error e) = .error e from if_neg hcaught]
      rfl

/-- INTERNAL: what the adapter comes to when it calls no handler. -/
theorem uncalled_result {capabilities : List String} {contract : ExecutionContract}
    {receipt : ExecutionReceipt} {attempt : ExecutionAttempt} {key : Option String}
    {result : AdapterResult} (h : Authorized service host.py task request capabilities contract)
    (hran : (ExecutionSupervisor.invokeAdapter host
      (toolExecutorAdapter service.executor service.permits service.broker host) contract receipt
      attempt key).run v = (.ok result, t))
    (huncalled : ∀ entered, Effect.handlerCalled entered ∉ t.log.drop v.log.length) :
    (RefusedByAdapter service host task request capabilities v.ticks → result.outcome = .failure) ∧
      (¬ RefusedByAdapter service host task request capabilities v.ticks →
        result.outcome = .unknown) := by
  let called : World := { v with log := v.log ++ [.adapterCalled receipt.id attempt.id key] }
  let invoked := (ToolExecutorAdapter.invoke service.executor service.permits service.broker host
    contract receipt attempt).run called
  have hoperation : contract.operation = toolOperation request := by
    obtain ⟨auth, key, contractId, rfl⟩ := h.made
    rfl
  have hcame : resultOf host "tool_executor" contract.operation receipt.id attempt.id invoked.1 = .ok result ∧
      t.log = invoked.2.log ++ [.adapterReturned attempt.id invoked.1] := by
    have hwent : ((toolExecutorAdapter service.executor service.permits service.broker host).invoke
        contract receipt attempt).run called = (invoked.1, invoked.2) := rfl
    have hinvoke := run_invokeAdapter host _ contract receipt attempt key hwent
    obtain ⟨hresult, rfl⟩ := Prod.mk.inj (hinvoke.symm.trans hran)
    exact ⟨hresult, rfl⟩
  obtain ⟨hresult, hlog⟩ := hcame
  have hinvoked : invoked = _ := run_invoke h receipt attempt called
  have hrefused : ∀ message, invoked = (.ok (ToolExecutorAdapter.refused receipt attempt message), called) →
      RefusedByAdapter service host task request capabilities v.ticks →
      (RefusedByAdapter service host task request capabilities v.ticks → result.outcome = .failure) ∧
        (¬ RefusedByAdapter service host task request capabilities v.ticks →
          result.outcome = .unknown) := by
    intro message hwent hyes
    rw [hwent] at hresult
    obtain rfl := Except.ok.inj hresult
    exact ⟨fun _ => rfl, fun hno => absurd hyes hno⟩
  by_cases hverified : service.permits.verify host.py (service.executor.permitAuthority.mint host.py
      request.tool request.action request.arguments capabilities) request.tool request.action
      request.arguments (sortedTexts capabilities) = true
  case neg =>
    rw [if_neg hverified] at hinvoked
    exact hrefused _ hinvoked (.inl (eq_false_of_ne_true hverified))
  rw [if_pos hverified] at hinvoked
  cases hinject : ToolExecutorAdapter.inject service.broker host request.tool (profileOf host.py task)
      v.ticks request.arguments with
  | error e =>
    -- what is no `Exception` is raised on, and there is no result
    rw [show called.ticks = v.ticks from rfl, hinject] at hinvoked
    rw [hinvoked] at hresult
    have hcaught := isException_of_resultOf hresult
    rw [inject_raised hinject] at hcaught
    cases hcaught
  | ok injected =>
  cases injected with
  | error message =>
    rw [show called.ticks = v.ticks from rfl, hinject] at hinvoked
    exact hrefused _ hinvoked (.inr ⟨message, hinject⟩)
  | ok arguments =>
    have hnot : ¬ RefusedByAdapter service host task request capabilities v.ticks := by
      rintro (hno | ⟨message, herror⟩)
      · exact absurd (hno.symm.trans hverified) Bool.false_ne_true
      · cases hinject.symm.trans herror
    refine ⟨fun hyes => absurd hyes hnot, fun _ => ?_⟩
    rw [show called.ticks = v.ticks from rfl, hinject] at hinvoked
    change invoked = calledExecutor service host receipt attempt
      (handedOver host.py service request capabilities arguments) (sortedTexts capabilities) called
        at hinvoked
    unfold calledExecutor at hinvoked
    cases hprepared : service.executor.prepare host.py
        (handedOver host.py service request capabilities arguments) (sortedTexts capabilities) with
    | error e =>
      rw [hprepared] at hinvoked
      rw [hinvoked] at hresult
      rw [resultOf_caught (isException_of_resultOf hresult), hoperation] at hresult
      obtain rfl := Except.ok.inj hresult
      exact resultOfError_tool host request _ _ _ (doubtful_prepare _ _ _ _ e hprepared)
    | ok prepared =>
      rw [hprepared] at hinvoked
      rw [hlog, hinvoked] at huncalled
      refine absurd ?_ (huncalled
        { request := handedOver host.py service request capabilities arguments
          capabilities := sortedTexts capabilities
          delivered := prepared.2 })
      rw [List.append_assoc, List.append_assoc, List.drop_left]
      simp

/-- INTERNAL: the outcome of a record is the one the supervisor came to.
SOURCE: execution/service.py:342-372 -/
theorem settle_returned {supervision : SupervisionResult} {record : ExecutionOutcomeRecord}
    (h : (service.settle host task request supervision).run w = (.ok record, t)) :
    mapAppOutcome supervision.adapterResult.outcome = .ok record.outcome := by
  obtain ⟨outcome, _, houtcome, h⟩ := Program.run_bind_ok h
  obtain ⟨scan, _, -, h⟩ := Program.run_bind_ok h
  obtain ⟨response, _, -, h⟩ := Program.run_bind_ok h
  obtain ⟨advanced, _, -, h⟩ := Program.run_bind_ok h
  obtain rfl := Except.ok.inj (congrArg Prod.fst h)
  rw [Program.run_ofExcept] at houtcome
  exact congrArg Prod.fst houtcome

/-- Recorded as a FAILURE, with the task FAILED. -/
structure RecordedFailure (w t : World) (taskId : String) (record : ExecutionOutcomeRecord) : Prop where
  outcome : record.outcome = .failure
  row : ∃ row, t.committed.toolExecutions = w.committed.toolExecutions ++ [row] ∧
    row.taskId = taskId ∧ row.outcome = .failure
  state : stateIn t taskId = some .failed

/-- A call that comes to the adapter, and to a record, without a handler having been called, is recorded
as a FAILURE if and only if it was the adapter that refused it.
SOURCE: execution/service.py:229-472, app/supervisor.py:131-315, app/adapters/tool_executor.py:47-117,
tools/executor.py:133-181 -/
theorem uncalled_failure_iff {decision : Decision} {record : ExecutionOutcomeRecord}
    (hw : History (operations host) {} w)
    (hdecision : DecisionRepository.ofTables w.committed task.id = some decision)
    (hreached : (approach service host task request).run w = (.ok call, v))
    (hreturned : (service.execute host task request).run w = (.ok record, t))
    (huncalled : ∀ entered, Effect.handlerCalled entered ∉ t.log.drop w.log.length) :
    RecordedFailure w t task.id record ↔ RefusedByAdapter service host task request
      (ExecutionService.authorizedCapabilities decision) v.ticks := by
  obtain ⟨hresting, hdrawn⟩ := restingDrawn_of_operations hw
  obtain ⟨hadapter, decision', u, hnewest, hsame, hauthorized⟩ := approach_returned hreached
  have hdecisions : u.decisions = w.committed.decisions :=
    (@hsame _ Tables.decisions ⟨fun _ _ => rfl, fun _ _ => rfl⟩
      (congrArg Tables.decisions hresting.idle.working)).trans
      (congrArg Tables.decisions hresting.idle.working)
  obtain rfl : decision' = decision := by
    unfold DecisionRepository.ofTables at hnewest hdecision
    rw [hdecisions] at hnewest
    exact Option.some.inj (hnewest.symm.trans hdecision)
  have hadded := (kept_execute hresting hdrawn.executions hreturned).2.added
  have hexecutes := (executes_execute service host task request hresting.idle).run
  rw [hreturned] at hexecutes
  obtain ⟨-, hrunning, -, -, -, hstate⟩ := hexecutes
  have hcarried : (aftermath service host task request call).run v = (.ok record, t) := by
    unfold ExecutionService.execute at hreturned
    rw [if_pos hrunning, carryOut_eq, Program.run_bind, hreached] at hreturned
    exact hreturned
  obtain ⟨result, v₁, hran, hfinished⟩ := Program.run_bind_ok hcarried
  obtain ⟨events, hbefore⟩ := (silent_approach service host task request).log hreached
  obtain ⟨events', hafter⟩ := (silent_finish service host task request _ _ _ _ _).log hfinished
  have hsilent : ∀ entered, Effect.handlerCalled entered ∉ v₁.log.drop v.log.length := by
    intro entered hentered
    refine huncalled entered ?_
    rw [hafter, List.drop_append]
    refine List.mem_append_left _ (List.drop_subset_drop_left _ ?_ hentered)
    rw [hbefore, List.length_append]
    exact Nat.le_add_right _ _
  rw [hadapter] at hran
  obtain ⟨hyes, hno⟩ := uncalled_result hauthorized hran hsilent
  have hoperation : call.contract.operation = toolOperation request := by
    obtain ⟨auth, key, contractId, hcontract⟩ := hauthorized.made
    rw [hcontract]
    rfl
  obtain ⟨supervision, v₂, hfinal, hsettled⟩ := Program.run_bind_ok hfinished
  rw [hoperation] at hfinal
  have hmapped := settle_returned hsettled
  rw [(finalize_tool hfinal).1] at hmapped
  constructor
  · intro hfailure
    by_contra hnot
    rw [hno hnot, hfailure.outcome] at hmapped
    cases hmapped
  · intro hrefused
    rw [hyes hrefused] at hmapped
    have houtcome : record.outcome = .failure := (Except.ok.inj hmapped).symm
    obtain ⟨row, hrows, htask, -, -, hrow⟩ := hadded
    rw [houtcome] at hstate hrow
    exact ⟨houtcome, ⟨row, hrows, htask, hrow⟩, hstate⟩

end Calls

/-- No handler call is in the log after the first entries. -/
def noHandlerAfter (n : ℕ) (log : List Effect) : Bool :=
  (log.drop n).all fun
    | .handlerCalled _ => false
    | _ => true

/-- INTERNAL: the check by computation gives the statement. -/
theorem uncalled_of_noHandlerAfter {n : ℕ} {log : List Effect} (h : noHandlerAfter n log = true)
    (entered : HandlerCall) : Effect.handlerCalled entered ∉ log.drop n :=
  fun hentered => Bool.false_ne_true (List.all_eq_true.mp h _ hentered)

/-- A broker that has no secret for anything. -/
def emptyVault : CredentialBroker := fun ref _ _ _ => .error (.other "KeyError" ref.id)

/-- A reference to a credential. -/
def keyReference : Value := .dict [("__credential_ref__", .str "key")]

/-- The notes, with that broker. -/
def lockedExecution : ExecutionService :=
  { notesExecution answering with broker := some emptyVault }

/-- The execution of a note whose credential cannot be had. -/
def lockedRun : Except Err ExecutionOutcomeRecord × World :=
  (lockedExecution.execute (.plain [] []) (firstTask (tokenAuthorized keyReference))
    (tokenRequest keyReference)).run (tokenAuthorized keyReference)

/-- The authorized token is reached by calls of the services. -/
theorem history_tokenAuthorized (token : Value) :
    History (operations (.plain [] [])) {} (tokenAuthorized token) := by
  have hplanned := (History.start : History (operations (.plain [] [])) {} {}).returned_void
    (Operation.createAndPlan (tokenPlanning token) { sessionId := "session", requestText := "note" })
  exact hplanned.returned_void (Operation.evaluateAndAuthorize {} _ { capabilities := ["data.read"] })

/-- That note is a FAILURE. -/
theorem locked_note_failed : ∃ record t, lockedRun = (.ok record, t) ∧
    RecordedFailure (tokenAuthorized keyReference) t (firstTask (tokenAuthorized keyReference)).id
      record := by
  have hruns : lockedRun.1.toOption.isSome = true ∧
      noHandlerAfter (tokenAuthorized keyReference).log.length lockedRun.2.log = true ∧
      ((approach lockedExecution (.plain [] []) (firstTask (tokenAuthorized keyReference))
        (tokenRequest keyReference)).run (tokenAuthorized keyReference)).1.toOption.isSome = true ∧
      (DecisionRepository.ofTables (tokenAuthorized keyReference).committed
        (firstTask (tokenAuthorized keyReference)).id).isSome = true := by decide +kernel
  obtain ⟨hok, hsilent, hcalls, hdecided⟩ := hruns
  obtain ⟨decision, hdecision⟩ := Option.isSome_iff_exists.mp hdecided
  cases hreached : (approach lockedExecution (.plain [] []) (firstTask (tokenAuthorized keyReference))
      (tokenRequest keyReference)).run (tokenAuthorized keyReference) with
  | mk r v =>
  rw [hreached] at hcalls
  cases r with
  | error e => cases hcalls
  | ok call =>
  cases hreturned : lockedRun with
  | mk r t =>
  rw [hreturned] at hok hsilent
  cases r with
  | error e => cases hok
  | ok record =>
  exact ⟨record, t, rfl, (uncalled_failure_iff (history_tokenAuthorized keyReference) hdecision
    hreached hreturned (uncalled_of_noHandlerAfter hsilent)).mpr (.inr ⟨_, rfl⟩)⟩

/-- The notes, with a schema that knows no argument. -/
def strictNotes : ToolRegistry :=
  { tools := [({ notesTool with argumentSchema := some { name := "notes" } }, answering)] }

def strictExecution : ExecutionService :=
  { notesExecution answering with
    executor := { registry := strictNotes, permitAuthority := { secret := "secret" } } }

/-- The state in which a note with an argument is planned for them and authorized. -/
def strictAuthorized : World :=
  authorizedNote (.plain [] []) ((({ tokenPlanning (.str "abc") with tools := strictNotes } :
    PlanningService).createAndPlan (.plain [] [])
      { sessionId := "session", requestText := "note" }).run {}).2

/-- The execution of a note with an argument. -/
def strictRun : Except Err ExecutionOutcomeRecord × World :=
  (strictExecution.execute (.plain [] []) (firstTask strictAuthorized)
    (tokenRequest (.str "abc"))).run strictAuthorized

/-- A note that the schema rejects is UNKNOWN, with its task BLOCKED, and no handler was called. -/
theorem rejected_note_unknown : ∃ record t, strictRun = (.ok record, t) ∧
    (∀ entered, Effect.handlerCalled entered ∉
      t.log.drop strictAuthorized.log.length) ∧
    record.outcome = .unknown ∧ record.task.state = .blocked ∧
    ¬ RecordedFailure strictAuthorized t
      (firstTask strictAuthorized).id record := by
  have hruns : strictRun.1.toOption.map (fun record => (record.outcome, record.task.state)) =
      some (.unknown, .blocked) ∧
      noHandlerAfter strictAuthorized.log.length strictRun.2.log = true := by
    decide +kernel
  obtain ⟨houtcome, hsilent⟩ := hruns
  cases hreturned : strictRun with
  | mk r t =>
  rw [hreturned] at houtcome hsilent
  cases r with
  | error e => cases houtcome
  | ok record =>
  obtain ⟨hunknown, hblocked⟩ := Prod.mk.inj (Option.some.inj houtcome)
  refine ⟨record, t, rfl, uncalled_of_noHandlerAfter hsilent, hunknown, hblocked, fun hfailure => ?_⟩
  cases hunknown.symm.trans hfailure.outcome

end Shea.Analysis
