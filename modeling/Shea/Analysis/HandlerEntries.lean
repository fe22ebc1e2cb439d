import Shea.Analysis.HandlerCalls
import Shea.Analysis.ContentBinding
import Shea.Analysis.RecoveryCalls

/-!
# When a handler is reached

An execution reaches the handler of its tool if and only if the request passes the checks of the five
layers in between, and these read the stored rows, the clock and the machine. So the condition can be
said of the state in which the execution starts: each check is made at an instant that is known in
advance, since every layer reads the clock a fixed number of times.
-/

set_option autoImplicit false

namespace Shea.Analysis

open Shea.Computation Shea.Model

/-! ## The checks -/

/-- How often the clock is read to see whether an authorization has expired. -/
def expiryTicks (auth : Authorization) : ℕ := auth.expiresAt.elim 0 fun _ => 1

/-- The request passes the checks of the execution service, with the newest authorization and the newest
decision. -/
structure Prepares (service : ExecutionService) (host : Host) (task : Task) (request : ToolRequest)
    (auth : Authorization) (decision : Decision) (w : World) : Prop where
  running : task.state = .running
  cleared : service.security.gate.checkRequest host.py request = .ok ()
  isText : request.toolIsText = true
  admits : Admits host.py task request auth w.committed
  unexpired : ∀ expiry, auth.expiresAt = some expiry → host.clock (w.ticks + 2) ≤ expiry
  fresh : ∀ prior, ToolExecutionRepository.latestForKey w.committed (generateKey host.py task.id request) =
    some prior → prior.outcome = .failure
  covers : Covers service task request decision w.committed

/-- The contract that the execution makes of the request. -/
def contractFor (service : ExecutionService) (host : Host) (task : Task) (request : ToolRequest)
    (auth : Authorization) (decision : Decision) (w : World) : ExecutionContract :=
  service.contractOf host.py task request (ExecutionService.authorizedCapabilities decision) auth
    (generateKey host.py task.id request) (host.newId (w.nextId + 2))

section Parts

variable {service : ExecutionService} {host : Host} {task : Task} {request : ToolRequest}
  {decision : Decision}

/-- INTERNAL: a decision whose capabilities are enough has every one that the tool declares. -/
theorem covers_of_sufficient {t : Tables} (hnewest : DecisionRepository.ofTables t task.id = some decision)
    (hsufficient : service.executor.validateCapabilities request
      (ExecutionService.authorizedCapabilities decision) = .ok ()) :
    request.toolIsText = true ∧ Covers service task request decision t := by
  obtain ⟨declaration, handler, hfor, hmissing⟩ := missingCapabilities_of_sufficient hsufficient
  obtain ⟨htext, hfound⟩ := getFor_eq_ok.mp hfor
  refine ⟨htext, hnewest, declaration, handler, hfound, fun capability hdeclared => ?_⟩
  have hnot := List.filter_eq_nil_iff.mp hmissing capability hdeclared
  rw [decide_eq_true_eq, not_not] at hnot
  exact List.mem_dedup.mp hnot

/-- INTERNAL: for a RUNNING task the supervisor's answer is settled.
SOURCE: execution/service.py:229-472 -/
theorem execute_of_running (hrunning : task.state = .running) :
    service.execute host task request =
      supervising service host task request >>= service.settle host task request := by
  unfold ExecutionService.execute ExecutionService.carryOut supervising
  rw [if_pos hrunning, bind_assoc]

end Parts

/-- INTERNAL: neither the clock is read nor an id drawn. -/
def Timeless (a b : World) : Prop := b.ticks = a.ticks ∧ b.nextId = a.nextId

section Time

variable {α : Type} {host : Host} {w t : World}

/-- INTERNAL: entering and leaving a block takes no time. -/
theorem timeless_withUow {body : Proc α} (h : body.Guarantee Timeless) :
    (withUow body).Guarantee Timeless := by
  have hexit : ∀ clean, (Program.modify (World.exit clean) : Proc Unit).Guarantee Timeless := by
    intro clean
    refine Program.guarantee_modify fun v => ?_
    unfold World.exit
    split
    · exact ⟨rfl, rfl⟩
    · split <;> exact ⟨rfl, rfl⟩
  unfold withUow
  refine Program.guarantee_bind (Program.guarantee_modify fun _ => ⟨rfl, rfl⟩) fun _ =>
    Program.guarantee_bind (Program.guarantee_attempt h) fun outcome => ?_
  cases outcome with
  | ok a => exact Program.guarantee_bind (hexit true) fun _ => Program.guarantee_pure _
  | error e => exact Program.guarantee_bind (hexit false) fun _ => Program.guarantee_throw _

/-- INTERNAL: the guarantee, at a run. -/
theorem Timeless.of_run {p : Proc α} (h : p.Guarantee Timeless) {r : Except Err α}
    (hrun : p.run w = (r, t)) : Timeless w t := by
  have hsat := h.sat (fun _ => ⟨rfl, rfl⟩)
    (fun _ _ _ hab hbc => ⟨hbc.1.trans hab.1, hbc.2.trans hab.2⟩) w |>.run
  rw [hrun] at hsat
  exact hsat

/-- INTERNAL: a checked statement reads no clock and draws nothing. -/
theorem timeless_executeChecked (holds : Tables → Bool) (message : String)
    (statement : Tables → Tables) : (executeChecked holds message statement).Guarantee Timeless := by
  refine Program.guarantee_bind (Program.guarantee_act _ fun v => ?_) fun passed => ?_
  · split <;> exact ⟨rfl, rfl⟩
  · split
    · exact Program.guarantee_pure _
    · exact Program.guarantee_throw _

/-- INTERNAL: nor does the check that a dictionary can be written. -/
theorem timeless_requireSerializable (d : Dict) : (requireSerializable d).Guarantee Timeless := by
  unfold requireSerializable
  split
  · exact Program.guarantee_pure _
  · exact Program.guarantee_throw _

/-- INTERNAL: an audit entry takes one id and one reading of the clock. -/
theorem audit_takes {entry : AuditEntry} (h : (audit host entry).run w = (.ok (), t)) :
    t.ticks = w.ticks + 1 ∧ t.nextId = w.nextId + 1 := by
  obtain ⟨_, u, hid, h⟩ := Program.run_bind_ok h
  obtain ⟨-, rfl⟩ := Prod.mk.inj hid
  obtain ⟨_, u, hnow, h⟩ := Program.run_bind_ok h
  obtain ⟨-, rfl⟩ := Prod.mk.inj hnow
  have hrecord := Timeless.of_run (timeless_withUow (Program.guarantee_bind
    (timeless_requireSerializable _) fun _ => timeless_executeChecked _ _ _)) h
  exact hrecord

end Time

section Preparing

variable {service : ExecutionService} {host : Host} {task : Task} {request : ToolRequest}
  {auth : Authorization} {decision : Decision} {contract : ExecutionContract} {w t : World}

/-- INTERNAL: the gate on a request that it lets through.
SOURCE: security/service.py:62-118 -/
theorem run_enforce (hw : Sound host w) (hrunning : task.state = .running)
    (hcleared : service.security.gate.checkRequest host.py request = .ok ()) :
    ∃ t, (service.security.enforce host task request).run w = (.ok (), t) ∧
      t.ticks = w.ticks + 2 ∧ t.nextId = w.nextId + 2 := by
  let cleared := SecurityService.entry "security.gate" "security.request_cleared" "enforce" "allowed" task
    [("tool", .str request.tool)]
  have hserializable : (Value.dict cleared.metadata).serializable = true := rfl
  obtain ⟨_, u, haudit, -, -⟩ := succeeds_audit hw.ordered hserializable
  obtain ⟨hticks, hnext⟩ := audit_takes haudit
  have hrun : (service.security.enforce host task request).run w =
      (emit host "security_service" "security.request_cleared"
        [("task_id", .str task.id), ("tool", .str request.tool)] (some task.requestId)).run u := by
    unfold SecurityService.enforce
    rw [if_neg (not_not.mpr hrunning), hcleared]
    dsimp only
    unfold SecurityService.reportCleared
    rw [Program.run_bind, haudit]
  rw [hrun]
  exact ⟨_, rfl, congrArg (· + 1) hticks, congrArg (· + 1) hnext⟩

/-- INTERNAL: hashes that fit pass the three checks.
SOURCE: execution/service.py:515-555 -/
theorem HashesFit.clears {py : Stdlib} {stored : Option Plan} (htext : request.toolIsText = true)
    (h : HashesFit py request auth stored) :
    checkHashes py task request auth stored = .ok () := by
  have hplan : checkPlanHash py task auth stored = .ok () := by
    unfold checkPlanHash
    cases hhash : auth.planHash with
    | none => rfl
    | some hash =>
      obtain ⟨current, rfl, hsame⟩ := h.plan hash hhash
      exact if_pos (congrArg some hsame)
  have hstep : checkStepHash py task request auth stored = .ok () := by
    unfold checkStepHash
    cases hhash : auth.stepHash with
    | none => rfl
    | some hash =>
      obtain ⟨current, rfl, step, hin, htool, hsame⟩ := h.step hash hhash
      refine if_pos (List.any_eq_true.mpr ⟨step, hin, ?_⟩)
      rw [htext, Bool.true_and, Bool.and_eq_true, decide_eq_true_eq, decide_eq_true_eq]
      exact ⟨htool, hsame⟩
  have harguments : checkArgumentsHash py task request auth = .ok () := by
    unfold checkArgumentsHash
    cases hhash : auth.argumentsHash with
    | none => rfl
    | some hash => exact if_pos (h.arguments hash hhash).symm
  unfold checkHashes
  rw [hplan, hstep, harguments]
  rfl

/-- INTERNAL: the check of an authorization that admits the request.
SOURCE: execution/service.py:483-555 -/
theorem Admits.run (h : Admits host.py task request auth w.working) (htext : request.toolIsText = true)
    (hunexpired : ∀ expiry, auth.expiresAt = some expiry → host.clock w.ticks ≤ expiry) :
    (verifyAuthorizationBinding host task request).run w =
      (.ok (), { w with ticks := w.ticks + expiryTicks auth }) := by
  have hprofile : checkProfile task auth = .ok () := by
    refine if_neg fun hother => ?_
    rcases h.profile with hown | hsystem
    · exact hother.1 hown
    · exact hother.2 hsystem
  have hunused : checkUnused task auth = .ok () := by
    unfold checkUnused
    rw [h.unused]
    rfl
  have hexpiry : (checkUnexpired host task auth).run w =
      (.ok (), { w with ticks := w.ticks + expiryTicks auth }) := by
    unfold checkUnexpired expiryTicks
    cases hexpires : auth.expiresAt with
    | none => rfl
    | some expiry =>
      dsimp only
      rw [Program.run_bind, run_now]
      dsimp only
      rw [if_neg (not_lt.mpr (hunexpired expiry hexpires))]
      rfl
  unfold verifyAuthorizationBinding AuthorizationRepository.listByTask
  rw [Program.run_bind, run_query]
  dsimp only
  rw [h.newest]
  dsimp only
  unfold checkAuthorization PlanRepository.getByTask
  rw [hprofile, hunused]
  simp only [Program.run_bind, Program.run_ofExcept, hexpiry, run_query, h.hashes.clears htext]

/-- INTERNAL: what the gate leaves as it was. -/
theorem enforce_keeps {u : World} {γ : Type} {part : Tables → γ} (hpart : Unrelated part) (hw : w.Idle)
    (h : (service.security.enforce host task request).run w = (.ok (), u)) :
    part u.working = part w.committed := by
  have hkept := ((serves_enforce hpart service.security host task request).leaves.run w
    (congrArg part hw.working)).1
  rw [h, hw.working] at hkept
  exact hkept

/-- INTERNAL: a key without a result that stands is let through.
SOURCE: execution/service.py:246-273 -/
theorem run_suppressDuplicate {key : String}
    (hfresh : ∀ prior, ToolExecutionRepository.latestForKey w.working key = some prior →
      prior.outcome = .failure) :
    (ExecutionService.suppressDuplicate host task request key).run w = (.ok (), w) := by
  unfold ExecutionService.suppressDuplicate ToolExecutionRepository.getByIdempotencyKey
  rw [Program.run_bind, run_query]
  cases hprior : ToolExecutionRepository.latestForKey w.working key with
  | none => rfl
  | some prior =>
    dsimp only
    rw [if_pos (hfresh prior hprior)]
    rfl

/-- INTERNAL: the newest decision is read.
SOURCE: execution/service.py:275-279 -/
theorem run_decidedCapabilities (hnewest : DecisionRepository.ofTables w.working task.id = some decision) :
    (ExecutionService.decidedCapabilities task).run w =
      (.ok (ExecutionService.authorizedCapabilities decision), w) := by
  unfold ExecutionService.decidedCapabilities DecisionRepository.getByTask
  rw [Program.run_bind, run_query]
  dsimp only
  rw [hnewest]
  rfl

/-- INTERNAL: a decision that covers the tool is sufficient.
SOURCE: tools/executor.py:200-212 -/
theorem Covers.sufficient {u : Tables} (h : Covers service task request decision u)
    (htext : request.toolIsText = true) :
    service.executor.validateCapabilities request (ExecutionService.authorizedCapabilities decision) =
      .ok () := by
  obtain ⟨declaration, handler, hfound, hdeclared⟩ := h.declared
  have hmissing : ToolExecutor.missingCapabilities declaration
      (ExecutionService.authorizedCapabilities decision) = [] := by
    refine List.filter_eq_nil_iff.mpr fun capability hin => ?_
    rw [decide_eq_true_eq, not_not]
    exact List.mem_dedup.mpr (hdeclared capability hin)
  unfold ToolExecutor.validateCapabilities
  rw [getFor_eq_ok.mpr ⟨htext, hfound⟩]
  simp only [bind, Except.bind, hmissing]
  rfl

/-- INTERNAL: a request that passes the checks is prepared.
SOURCE: execution/service.py:229-340 -/
theorem Prepares.run (h : Prepares service host task request auth decision w) (hw : Sound host w) :
    ∃ t, (service.prepare host task request).run w =
      (.ok (contractFor service host task request auth decision w), t) ∧
      t.ticks = w.ticks + 2 + expiryTicks auth ∧ t.nextId = w.nextId + 3 := by
  obtain ⟨u, hgate, hticks, hnext⟩ := run_enforce hw h.running h.cleared
  have hpart : checkedPart u.working = checkedPart w.committed :=
    enforce_keeps unrelated_checkedPart hw.idle hgate
  have hadmits : Admits host.py task request auth u.working := h.admits.congr hpart
  have hunexpired : ∀ expiry, auth.expiresAt = some expiry → host.clock u.ticks ≤ expiry := by
    rw [hticks]
    exact h.unexpired
  have hbinding := hadmits.run h.isText hunexpired
  have hrecords : u.working.toolExecutions = w.committed.toolExecutions :=
    congrArg Prod.snd (enforce_keeps unplanned_grantPart.toUnrelated hw.idle hgate)
  let v : World := { u with ticks := u.ticks + expiryTicks auth }
  have hsuppress : (ExecutionService.suppressDuplicate host task request
      (generateKey host.py task.id request)).run v = (.ok (), v) := by
    refine run_suppressDuplicate fun prior hprior => h.fresh prior ?_
    unfold ToolExecutionRepository.latestForKey at hprior ⊢
    rw [← hrecords]
    exact hprior
  have hdecided : (ExecutionService.decidedCapabilities task).run v =
      (.ok (ExecutionService.authorizedCapabilities decision), v) :=
    run_decidedCapabilities (h.covers.congr hpart).newest
  have hrequire : (service.requireCapabilities host task request
      (ExecutionService.authorizedCapabilities decision)).run v = (.ok (), v) := by
    unfold ExecutionService.requireCapabilities
    rw [h.covers.sufficient h.isText]
    rfl
  have hnewest : (ExecutionService.newestAuthorization task).run v = (.ok auth, v) := by
    unfold ExecutionService.newestAuthorization AuthorizationRepository.listByTask
    rw [Program.run_bind, run_query]
    dsimp only
    rw [hadmits.newest]
    rfl
  refine ⟨{ v with nextId := v.nextId + 1 }, ?_, congrArg (· + expiryTicks auth) hticks,
    congrArg (· + 1) hnext⟩
  unfold ExecutionService.prepare contractFor
  rw [Program.run_bind, hgate]
  dsimp only
  rw [Program.run_bind, hbinding]
  dsimp only
  rw [Program.run_bind, hsuppress]
  dsimp only
  rw [Program.run_bind, hdecided]
  dsimp only
  rw [Program.run_bind, hrequire]
  dsimp only
  rw [Program.run_bind, hnewest, ← hnext]
  rfl

/-- INTERNAL: nothing else is prepared.
SOURCE: execution/service.py:229-340 -/
theorem prepares_of_returned (hw : Sound host w)
    (h : (service.prepare host task request).run w = (.ok contract, t)) :
    ∃ auth decision, Prepares service host task request auth decision w := by
  obtain ⟨auth, tables, hnewest, hcleared, hsame⟩ := prepare_cleared hw.idle h
  obtain ⟨decision, tables', hdecision, hkept, hauthorized⟩ := prepare_decided h
  have hcovers := covers_of_sufficient hdecision hauthorized.sufficient
  obtain ⟨_, u, hgate, h⟩ := Program.run_bind_ok h
  obtain ⟨hrunning, hchecked⟩ := enforce_returned hgate
  have hticks : u.ticks = w.ticks + 2 := by
    obtain ⟨u', hgate', hticks, -⟩ := run_enforce hw hrunning hchecked
    obtain ⟨-, rfl⟩ := Prod.mk.inj (hgate.symm.trans hgate')
    exact hticks
  have hpart : checkedPart u.working = checkedPart w.committed :=
    enforce_keeps unrelated_checkedPart hw.idle hgate
  have hadmits : Admits host.py task request auth w.committed :=
    hcleared.admits.congr (hsame unrelated_checkedPart).symm
  have hadmits' : Admits host.py task request auth u.working := hadmits.congr hpart
  obtain ⟨_, v, hbinding, h⟩ := Program.run_bind_ok h
  have hunexpired : ∀ expiry, auth.expiresAt = some expiry → host.clock (w.ticks + 2) ≤ expiry := by
    intro expiry hexpires
    rw [← hticks]
    exact verifyAuthorizationBinding_unexpired hbinding hadmits'.newest hexpires
  have hv : v.working = u.working := by
    rw [← hticks] at hunexpired
    have hrun := hadmits'.run hcovers.1 hunexpired
    obtain ⟨-, rfl⟩ := Prod.mk.inj (hbinding.symm.trans hrun)
    rfl
  obtain ⟨_, x, hsuppress, -⟩ := Program.run_bind_ok h
  have hrecords : v.working.toolExecutions = w.committed.toolExecutions := by
    rw [hv]
    exact congrArg Prod.snd (enforce_keeps unplanned_grantPart.toUnrelated hw.idle hgate)
  refine ⟨auth, decision, hrunning, hchecked, hcovers.1, hadmits, hunexpired, fun prior hprior => ?_, ?_⟩
  · obtain ⟨found, y, hfound, hsuppress⟩ := Program.run_bind_ok hsuppress
    obtain ⟨hread, rfl⟩ := Prod.mk.inj hfound
    obtain rfl := Except.ok.inj hread
    have hprior' : ToolExecutionRepository.latestForKey v.working (generateKey host.py task.id request) =
        some prior := by
      unfold ToolExecutionRepository.latestForKey at hprior ⊢
      rw [hrecords]
      exact hprior
    dsimp only at hsuppress
    rw [hprior'] at hsuppress
    dsimp only at hsuppress
    by_contra hstands
    rw [if_neg hstands] at hsuppress
    obtain ⟨_, _, -, hraise⟩ := Program.run_bind_ok hsuppress
    cases hraise
  · have htables : checkedPart tables' = checkedPart w.committed := by
      rw [hkept unrelated_checkedPart (congrArg checkedPart hw.idle.working), hw.idle.working]
    exact hcovers.2.congr htables.symm

end Preparing

/-! ## Up to the adapter -/

/-- When the working directory is read. -/
def locatedAt (auth : Authorization) (w : World) : ℕ := w.ticks + 2 * expiryTicks auth + 4

/-- The request passes the checks of the execution service and of the supervisor. -/
structure Approaches (service : ExecutionService) (host : Host) (task : Task) (request : ToolRequest)
    (auth : Authorization) (decision : Decision) (w : World) : Prop
    extends Prepares service host task request auth decision w where
  named : ExecutionSupervisor.missingField (contractFor service host task request auth decision w) = none
  valid : ∀ expiry, auth.expiresAt = some expiry → host.clock (w.ticks + 3) ≤ expiry
  unreserved : IdempotencyRepository.ofTables w.committed (generateKey host.py task.id request) = none
  located : (host.probes (locatedAt auth w)).getcwd.isOk = true
  json : (Value.dict (contractFor service host task request auth decision w).metadata).serializable = true

section Approaching

variable {service : ExecutionService} {host : Host} {task : Task} {request : ToolRequest}
  {auth : Authorization} {decision : Decision} {w : World}

/-- INTERNAL: the service's own adapter is selected.
SOURCE: app/supervisor.py:96-129 -/
theorem selectAdapter_contractFor : (service.sup host).selectAdapter host.py
    (contractFor service host task request auth decision w) =
      .ok (toolExecutorAdapter service.executor service.permits service.broker host) := by
  unfold ExecutionSupervisor.selectAdapter
  rw [preferredAdapter_sup _ rfl]
  rfl

/-- INTERNAL: a tool is a target that nothing has to be looked up for.
SOURCE: app/identity.py, execution/service.py:296-318 -/
theorem admission_contractFor (probes : Probes) : admission host.py probes
    (contractFor service host task request auth decision w) =
      probes.getcwd.map fun _ => (⟨.opaqueKind, request.tool, request.tool, []⟩, none) := by
  unfold admission
  cases probes.getcwd <;> rfl

/-- INTERNAL: the newest authorization and decision are the only ones. -/
theorem Prepares.unique {auth' : Authorization} {decision' : Decision}
    (h : Prepares service host task request auth decision w)
    (h' : Prepares service host task request auth' decision' w) :
    auth' = auth ∧ decision' = decision :=
  ⟨Option.some.inj (h'.admits.newest.symm.trans h.admits.newest),
    Option.some.inj (h'.covers.newest.symm.trans h.covers.newest)⟩

/-- INTERNAL: the mark takes one reading of the clock. -/
theorem markInvoked_takes {contract : ExecutionContract} {resolved : ResolvedIdentity}
    {attempt : ExecutionAttempt} {marked : VerifiedIdentity × ExecutionAttempt} {t : World}
    (h : (ExecutionSupervisor.markInvoked host contract resolved attempt).run w = (.ok marked, t)) :
    t.ticks = w.ticks + 1 := by
  obtain ⟨_, u, hprobe, h⟩ := Program.run_bind_ok h
  obtain ⟨-, rfl⟩ := Prod.mk.inj hprobe
  obtain ⟨_, u, hverify, h⟩ := Program.run_bind_ok h
  rw [Program.run_ofExcept] at hverify
  obtain ⟨-, rfl⟩ := Prod.mk.inj hverify
  obtain ⟨_, u, hnow, h⟩ := Program.run_bind_ok h
  obtain ⟨-, rfl⟩ := Prod.mk.inj hnow
  obtain ⟨_, u, hsave, h⟩ := Program.run_bind_ok h
  obtain ⟨-, rfl⟩ := Prod.mk.inj h
  have htime : ∀ saved, (withUow (AttemptRepository.save saved)).Guarantee Timeless := fun saved =>
    timeless_withUow (timeless_withUow (Program.guarantee_bind (timeless_requireSerializable _)
      fun _ => timeless_executeChecked _ _ _))
  exact (Timeless.of_run (htime _) hsave).1

/-- What an execution has come to when it calls the adapter. -/
def Reached (service : ExecutionService) (host : Host) (task : Task) (request : ToolRequest)
    (w : World) : Except Err Invocation → World → Prop
  | .ok call, t => ∃ auth decision, Approaches service host task request auth decision w ∧
      call.contract = contractFor service host task request auth decision w ∧
      call.adapter = toolExecutorAdapter service.executor service.permits service.broker host ∧
      call.key = some (generateKey host.py task.id request) ∧ t.ticks = locatedAt auth w + 3
  | .error _, _ => ∀ auth decision, ¬ Approaches service host task request auth decision w

/-- The adapter is called for the requests that pass these checks, and for no others.
SOURCE: execution/service.py:229-340, app/supervisor.py:131-224 -/
theorem sat_approach (hw : Sound host w) : (approach service host task request).Sat (Moves host)
    (Reached service host task request w) w := by
  have hserves : ∀ {γ : Type} {part : Tables → γ}, Unrelated part →
      Serves part (service.prepare host task request) :=
    fun hpart => serves_prepare hpart service host task request
  unfold approach
  rw [Program.sat_bind]
  refine (((hserves ofAppPlane_ledgerPart.outlying.toUnrelated).rests w hw.toResting).and
    (sat_run _ _)).mono (fun _ _ h => h.1) fun r v hv => ?_
  obtain ⟨hresting, hrun⟩ := hv
  cases r with
  | error e =>
    intro auth decision happroaches
    obtain ⟨t, hok, -⟩ := happroaches.toPrepares.run hw
    cases hrun.symm.trans hok
  | ok contract =>
  obtain ⟨auth, decision, hprepares⟩ := prepares_of_returned hw hrun
  obtain ⟨v', hok, hticks, hnext⟩ := hprepares.run hw
  obtain ⟨hcontract, rfl⟩ := Prod.mk.inj (hrun.symm.trans hok)
  obtain rfl := Except.ok.inj hcontract
  have hledger : v.committed.idempotency = w.committed.idempotency := by
    have hkept := (calls_of_serves (hserves ofAppPlane_ledgerPart.outlying.toUnrelated) hw.idle).2
    rw [hrun] at hkept
    exact congrArg (fun part => part.2.2) hkept
  have hrow : IdempotencyRepository.ofTables v.committed (generateKey host.py task.id request) =
      IdempotencyRepository.ofTables w.committed (generateKey host.py task.id request) :=
    congrArg (Table.lookup IdempotencyRecord.key · _) hledger
  have hvalid : validationTicks (contractFor service host task request auth decision w) =
      expiryTicks auth := rfl
  rw [Program.then_ok, Program.sat_bind]
  refine (sat_reservingPhase (service.sup host) host _ hresting.idle hresting.safe).post
    fun r v₁ h₁ => ?_
  cases r with
  | error e =>
    intro auth' decision' happroaches
    obtain ⟨rfl, rfl⟩ := hprepares.unique happroaches.toPrepares
    refine h₁.1 ⟨⟨happroaches.named, fun expiry hexpires => ?_⟩, ⟨_, selectAdapter_contractFor⟩, ?_⟩
    · have hinstant : v.ticks = w.ticks + 3 := by
        rw [hticks, expiryTicks, show auth'.expiresAt = some expiry from hexpires]
        rfl
      rw [hinstant]
      exact not_lt.mpr (happroaches.valid expiry hexpires)
    · intro k hk
      obtain rfl := Option.some.inj hk
      exact hrow.trans happroaches.unreserved
  | ok adapter =>
  obtain ⟨haccepts, hadapter, -, hidle₁, hsafe₁, hinstant⟩ := h₁
  obtain rfl := Except.ok.inj (hadapter.symm.trans selectAdapter_contractFor)
  have hlocated : v₁.ticks + 1 = locatedAt auth w := by
    rw [hinstant, admissionInstant, hvalid, hticks]
    unfold locatedAt
    show w.ticks + 2 + expiryTicks auth + expiryTicks auth + 1 + 1 = _
    omega
  rw [Program.then_ok]
  refine sat_admission host _ _ ?_
  rw [hlocated, admission_contractFor]
  cases hcwd : (host.probes (locatedAt auth w)).getcwd with
  | error e =>
    intro auth' decision' happroaches
    obtain ⟨rfl, rfl⟩ := hprepares.unique happroaches.toPrepares
    have hok := happroaches.located
    rw [hcwd] at hok
    cases hok
  | ok cwd =>
  have hchecked : Reads v₁ { v₁ with ticks := v₁.ticks + 1 } := ⟨rfl, rfl, rfl, rfl, le_rfl⟩
  dsimp only [Except.map]
  rw [← hlocated]
  simp only [Program.sat_bind]
  refine (sat_openReceipt host _ _ _ (hchecked.idle hidle₁) hsafe₁).post fun r v₂ h₂ => ?_
  cases r with
  | error e =>
    intro auth' decision' happroaches
    obtain ⟨rfl, rfl⟩ := hprepares.unique happroaches.toPrepares
    have hjson := happroaches.json
    rw [h₂.1] at hjson
    cases hjson
  | ok rows =>
  obtain ⟨receipt, attempt⟩ := rows
  obtain ⟨hstarted, v₃, hdrawn, hticks₃, hopened⟩ := h₂
  obtain ⟨at₁, hreceipt⟩ := hstarted.receipt_eq
  obtain ⟨at₂, hattempt⟩ := hstarted.attempt_eq
  have hlookups := hopened.lookups
    (by rw [hdrawn.committed, hreceipt]; exact (hsafe₁.fresh le_rfl).1)
    (by rw [hdrawn.committed, hattempt]; exact (hsafe₁.fresh (Nat.le_succ _)).2)
  rw [Program.then_ok]
  dsimp only
  rw [Program.sat_bind]
  refine ((sat_markInvoked host _ _ hopened.idle hlookups.2.1
    (by rw [hattempt]; rw [hreceipt] at hlookups; exact hlookups.1) (by rfl)
    (by rw [hattempt]; rfl)).and (sat_run _ _)).mono (fun _ _ h => h.1) fun r v₄ h₄ => ?_
  obtain ⟨hmarked, hran⟩ := h₄
  cases r with
  | error e => cases hmarked.1
  | ok marked =>
  obtain ⟨verified, marked⟩ := marked
  have hentered : v₄.ticks = locatedAt auth w + 3 := by
    rw [markInvoked_takes hran, hopened.ticks, hticks₃, ← hlocated]
    rfl
  refine ⟨auth, decision, ⟨hprepares, haccepts.valid.1, fun expiry hexpires => ?_, ?_, ?_, hstarted.json⟩,
    rfl, rfl, rfl, hentered⟩
  · have hinstant : v.ticks = w.ticks + 3 := by
      rw [hticks, expiryTicks, hexpires]
      rfl
    rw [← hinstant]
    exact not_lt.mp (haccepts.valid.2 expiry hexpires)
  · rw [← hrow]
    exact haccepts.key _ rfl
  · rw [hcwd]
    rfl

end Approaching

/-! ## Up to the handler -/

/-- The request passes every check before the handler, and the executor is given these arguments for it. -/
structure Clears (service : ExecutionService) (host : Host) (task : Task) (request : ToolRequest)
    (auth : Authorization) (decision : Decision) (arguments : Dict) (w : World) : Prop
    extends Approaches service host task request auth decision w where
  permitted : service.permits.verify host.py (service.executor.permitAuthority.mint host.py request.tool
    request.action request.arguments (ExecutionService.authorizedCapabilities decision)) request.tool
    request.action request.arguments (sortedTexts (ExecutionService.authorizedCapabilities decision)) = true
  injected : ToolExecutorAdapter.inject service.broker host request.tool (profileOf host.py task)
    (locatedAt auth w + 3) request.arguments = .ok (.ok arguments)
  prepared : (service.executor.prepare host.py (handedOver host.py service request
    (ExecutionService.authorizedCapabilities decision) arguments)
    (sortedTexts (ExecutionService.authorizedCapabilities decision))).isOk = true

/-- The handlers called between the two states. -/
def handlersBetween (a b : World) : List HandlerCall := handlersOf (b.log.drop a.log.length)

section Entering

variable {service : ExecutionService} {host : Host} {task : Task} {request : ToolRequest} {w t : World}

/-- INTERNAL: the handlers entered since, from the effects added. -/
theorem handlersBetween_append {a b : World} {effects : List Effect} (h : b.log = a.log ++ effects) :
    handlersBetween a b = handlersOf effects := by
  unfold handlersBetween
  rw [h, List.drop_left]

/-- What an execution has done by its end: it has called no handler, for a request that does not pass, or
one, with what it was to be given. -/
inductive Entry (service : ExecutionService) (host : Host) (task : Task) (request : ToolRequest)
    (w t : World) : Prop
  | none (hcalls : handlersBetween w t = [])
      (hnot : ∀ auth decision arguments, ¬ Clears service host task request auth decision arguments w) :
      Entry service host task request w t
  | once {auth : Authorization} {decision : Decision} {arguments : Dict} {entered : HandlerCall}
      (hclears : Clears service host task request auth decision arguments w)
      (hcalls : handlersBetween w t = [entered]) (htool : entered.request.tool = request.tool)
      (harguments : entered.request.arguments = arguments)
      (hdelivered : ∃ handler, service.executor.prepare host.py (handedOver host.py service request
        (ExecutionService.authorizedCapabilities decision) arguments)
        (sortedTexts (ExecutionService.authorizedCapabilities decision)) = .ok (handler, entered.delivered))
      (hkey : ∃ call ∈ callsOf t.log, call.key = some (generateKey host.py task.id request)) :
      Entry service host task request w t

/-- INTERNAL: what the log has from the adapter on.
SOURCE: app/supervisor.py:226-315, execution/service.py:342-472 -/
theorem log_aftermath {call : Invocation} {answer : Except Err AdapterResult} {v u : World}
    {effects : List Effect} {r : Except Err ExecutionOutcomeRecord}
    (hinvoked : (call.adapter.invoke call.contract call.receipt call.attempt).run
      { v with log := v.log ++ [.adapterCalled call.receipt.id call.attempt.id call.key] } = (answer, u))
    (hlog : u.log = v.log ++ [.adapterCalled call.receipt.id call.attempt.id call.key] ++ effects)
    (h : (aftermath service host task request call).run v = (r, t)) :
    ∃ after : List Event, t.log = v.log ++
      ([.adapterCalled call.receipt.id call.attempt.id call.key] ++ effects ++
        [.adapterReturned call.attempt.id answer] ++ after.map .published) := by
  have hrun := run_invokeAdapter host call.adapter call.contract call.receipt call.attempt call.key
    hinvoked
  have hafter : ∃ after : List Event, t.log =
      u.log ++ [.adapterReturned call.attempt.id answer] ++ after.map .published := by
    unfold aftermath at h
    rw [Program.run_bind, hrun] at h
    cases hresult : resultOf host call.adapter.name call.contract.operation call.receipt.id
        call.attempt.id answer with
    | error e =>
      rw [hresult] at h
      obtain ⟨-, rfl⟩ := Prod.mk.inj h
      exact ⟨[], (List.append_nil _).symm⟩
    | ok result =>
      rw [hresult] at h
      exact (silent_finish service host task request call.contract.operation call.receipt call.attempt
        call.key result).log h
  obtain ⟨after, hafter⟩ := hafter
  refine ⟨after, ?_⟩
  rw [hafter, hlog]
  simp only [List.append_assoc]

/-- INTERNAL: from the adapter's call on: the adapter refuses, the executor does, or the handler is called.
SOURCE: app/adapters/tool_executor.py:47-117, tools/executor.py:133-198 -/
theorem Approaches.entry {auth : Authorization} {decision : Decision} {call : Invocation} {v : World}
    {events : List Event} {r : Except Err ExecutionOutcomeRecord}
    (happroaches : Approaches service host task request auth decision w)
    (hcontract : call.contract = contractFor service host task request auth decision w)
    (hadapter : call.adapter = toolExecutorAdapter service.executor service.permits service.broker host)
    (hkey : call.key = some (generateKey host.py task.id request))
    (hticks : v.ticks = locatedAt auth w + 3) (hevents : v.log = w.log ++ events.map .published)
    (h : (aftermath service host task request call).run v = (r, t)) :
    Entry service host task request w t := by
  have hauthorized : Authorized service host.py task request
      (ExecutionService.authorizedCapabilities decision) call.contract :=
    ⟨List.nodup_dedup _, happroaches.covers.sufficient happroaches.isText, auth, _, _, hcontract⟩
  let called : World :=
    { v with log := v.log ++ [.adapterCalled call.receipt.id call.attempt.id call.key] }
  have hown : (call.adapter.invoke call.contract call.receipt call.attempt).run called =
      (ToolExecutorAdapter.invoke service.executor service.permits service.broker host call.contract
        call.receipt call.attempt).run called := by
    rw [hadapter]
    rfl
  have hinvoke := hown.trans (run_invoke hauthorized call.receipt call.attempt called)
  have huncalled : ∀ {answer : Except Err AdapterResult},
      (call.adapter.invoke call.contract call.receipt call.attempt).run called = (answer, called) →
      (∀ arguments, ¬ Clears service host task request auth decision arguments w) →
      Entry service host task request w t := by
    intro answer hanswer hnot
    have hnothing : called.log = v.log ++ [.adapterCalled call.receipt.id call.attempt.id call.key] ++ [] :=
      (List.append_nil _).symm
    obtain ⟨after, hlog⟩ := log_aftermath hanswer hnothing h
    rw [hevents, List.append_assoc] at hlog
    refine .none ?_ fun auth' decision' arguments hclears => ?_
    · rw [handlersBetween_append hlog]
      simp only [handlersOf_append, handlersOf_published]
      rfl
    · obtain ⟨rfl, rfl⟩ := happroaches.toPrepares.unique hclears.toPrepares
      exact hnot arguments hclears
  split at hinvoke
  case isFalse hrefused => exact huncalled hinvoke fun _ hclears => hrefused hclears.permitted
  case isTrue hpermitted =>
  have hinstant : called.ticks = locatedAt auth w + 3 := hticks
  rw [hinstant] at hinvoke
  cases hinjected : ToolExecutorAdapter.inject service.broker host request.tool (profileOf host.py task)
    (locatedAt auth w + 3) request.arguments with
  | error e =>
    rw [hinjected] at hinvoke
    refine huncalled hinvoke fun _ hclears => ?_
    cases hinjected.symm.trans hclears.injected
  | ok injected =>
  rw [hinjected] at hinvoke
  cases injected with
  | error message =>
    refine huncalled hinvoke fun _ hclears => ?_
    cases Except.ok.inj (hinjected.symm.trans hclears.injected)
  | ok arguments =>
  dsimp only at hinvoke
  unfold calledExecutor at hinvoke
  cases hprepared : service.executor.prepare host.py (handedOver host.py service request
      (ExecutionService.authorizedCapabilities decision) arguments)
      (sortedTexts (ExecutionService.authorizedCapabilities decision)) with
  | error e =>
    rw [hprepared] at hinvoke
    refine huncalled hinvoke fun arguments' hclears => ?_
    obtain rfl := Except.ok.inj (Except.ok.inj (hinjected.symm.trans hclears.injected))
    have hok := hclears.prepared
    rw [hprepared] at hok
    cases hok
  | ok prepared =>
  obtain ⟨handler, delivered⟩ := prepared
  rw [hprepared] at hinvoke
  obtain ⟨after, hlog⟩ := log_aftermath hinvoke rfl h
  rw [hevents, List.append_assoc] at hlog
  have hcalls : handlersBetween w t = [{
      request := handedOver host.py service request (ExecutionService.authorizedCapabilities decision)
        arguments
      capabilities := sortedTexts (ExecutionService.authorizedCapabilities decision)
      delivered := delivered }] := by
    rw [handlersBetween_append hlog]
    simp only [handlersOf_append, handlersOf_published]
    rfl
  refine .once ⟨happroaches, hpermitted, hinjected, by rw [hprepared]; rfl⟩ hcalls rfl rfl
    ⟨handler, hprepared⟩ ⟨⟨call.receipt.id, call.attempt.id, call.key⟩, ?_, hkey⟩
  rw [hlog]
  simp [callsOf]

/-- An execution calls the handler of its tool once if the request passes every check in the state in which
the execution starts, and calls none otherwise.
SOURCE: execution/service.py:229-472, app/supervisor.py:131-315 -/
theorem entry_execute (hw : Sound host w) {r : Except Err ExecutionOutcomeRecord}
    (h : (service.execute host task request).run w = (r, t)) :
    Entry service host task request w t := by
  by_cases hrunning : task.state = .running
  swap
  · rw [run_execute_of_not_running hrunning] at h
    obtain ⟨-, rfl⟩ := Prod.mk.inj h
    exact .none (handlersBetween_append (List.append_nil _).symm) fun _ _ _ hclears =>
      hrunning hclears.running
  have hreached : Reached service host task request w ((approach service host task request).run w).1
      ((approach service host task request).run w).2 := (sat_approach hw).run
  unfold ExecutionService.execute at h
  rw [if_pos hrunning, carryOut_eq, Program.run_bind] at h
  cases hrun : (approach service host task request).run w with
  | mk answer v =>
  obtain ⟨events, hevents⟩ := (silent_approach service host task request).log hrun
  rw [hrun] at h hreached
  cases answer with
  | error e =>
    obtain ⟨-, rfl⟩ := Prod.mk.inj h
    refine .none ?_ fun auth decision _ hclears => hreached auth decision hclears.toApproaches
    rw [handlersBetween_append hevents, handlersOf_published]
  | ok call =>
    obtain ⟨auth, decision, happroaches, hcontract, hadapter, hkey, hticks⟩ := hreached
    exact happroaches.entry hcontract hadapter hkey hticks hevents h

/-- INTERNAL: it only appends to the log. -/
theorem logs_execute (service : ExecutionService) (host : Host) (task : Task) (request : ToolRequest) :
    (service.execute host task request).Guarantee Logs := by
  by_cases hrunning : task.state = .running
  · rw [execute_of_running hrunning]
    exact Program.guarantee_bind (logs_supervising service host task request) fun supervision =>
      (silent_settle service host task request supervision).guarantee_logs
  · unfold ExecutionService.execute
    rw [if_neg hrunning]
    exact Program.guarantee_throw _

/-- The request passes every check before the handler, and this is what the handler is given: the
arguments with their credentials, and with the defaults of the tool's schema. -/
def ReachesHandler (service : ExecutionService) (host : Host) (task : Task) (request delivered : ToolRequest)
    (w : World) : Prop :=
  ∃ auth decision arguments handler, Clears service host task request auth decision arguments w ∧
    service.executor.prepare host.py (handedOver host.py service request
      (ExecutionService.authorizedCapabilities decision) arguments)
      (sortedTexts (ExecutionService.authorizedCapabilities decision)) = .ok (handler, delivered)

/-- INTERNAL: the handler is given one thing only. -/
theorem ReachesHandler.unique {delivered delivered' : ToolRequest}
    (h : ReachesHandler service host task request delivered w)
    (h' : ReachesHandler service host task request delivered' w) : delivered' = delivered := by
  obtain ⟨auth, decision, arguments, handler, hclears, hprepared⟩ := h
  obtain ⟨auth', decision', arguments', handler', hclears', hprepared'⟩ := h'
  obtain ⟨rfl, rfl⟩ := hclears.toPrepares.unique hclears'.toPrepares
  obtain rfl := Except.ok.inj (Except.ok.inj (hclears.injected.symm.trans hclears'.injected))
  exact (Prod.mk.inj (Except.ok.inj (hprepared'.symm.trans hprepared))).2

/-- INTERNAL: the handler is given a request for the tool that was asked for.
SOURCE: tools/executor.py:133-188 -/
theorem tool_of_prepare {executor : ToolExecutor} {py : Stdlib} {given delivered : ToolRequest}
    {authorized : List String} {handler : ToolHandler}
    (h : executor.prepare py given authorized = .ok (handler, delivered)) : delivered.tool = given.tool := by
  unfold ToolExecutor.prepare at h
  obtain ⟨⟨declaration, found⟩, -, h⟩ := exists_of_bind_ok h
  dsimp only at h
  split at h
  · cases h
  obtain ⟨_, -, h⟩ := exists_of_bind_ok h
  obtain ⟨_, -, h⟩ := exists_of_bind_ok h
  obtain ⟨validated, hvalidated, h⟩ := exists_of_bind_ok h
  obtain ⟨-, rfl⟩ := Prod.mk.inj (Except.ok.inj h)
  unfold ToolExecutor.validateArguments at hvalidated
  split at hvalidated
  · obtain rfl := Except.ok.inj hvalidated
    rfl
  · obtain ⟨filled, -, hfilled⟩ := exists_of_bind_ok hvalidated
    obtain rfl := Except.ok.inj hfilled
    rfl

/-- Over every history of service calls, an execution calls one handler at most. It calls the one of its
tool, on a certain request, if and only if the request of the execution passes the checks of all layers in
the state in which the execution starts, and this is what credentials and defaults make of it.
SOURCE: execution/service.py:229-472, app/supervisor.py:131-315, app/adapters/tool_executor.py:44-136,
tools/executor.py:133-198 -/
theorem handler_called_iff (hw : History (services host) {} w) {r : Except Err ExecutionOutcomeRecord}
    (h : (service.execute host task request).run w = (r, t)) :
    (handlersBetween w t = [] ∨ ∃ entered, handlersBetween w t = [entered] ∧
      entered.delivered.tool = request.tool) ∧
    ∀ delivered, (∃ entered, handlersBetween w t = [entered] ∧ entered.delivered = delivered) ↔
      ReachesHandler service host task request delivered w := by
  cases entry_execute (Sound.of_services hw) h with
  | none hcalls hnot =>
    refine ⟨.inl hcalls, fun delivered => ⟨?_, ?_⟩⟩
    · rintro ⟨entered, hcalled, -⟩
      cases hcalls.symm.trans hcalled
    · rintro ⟨auth, decision, arguments, -, hclears, -⟩
      exact absurd hclears (hnot _ _ _)
  | @once auth decision arguments entered hclears hcalls _ _ hdelivered =>
    obtain ⟨handler, hprepared⟩ := hdelivered
    have htool : entered.delivered.tool = request.tool := by
      rw [tool_of_prepare hprepared]
      rfl
    refine ⟨.inr ⟨entered, hcalls, htool⟩, fun delivered => ⟨?_, ?_⟩⟩
    · rintro ⟨entered', hcalled, rfl⟩
      obtain rfl : entered' = entered := (List.cons.inj (hcalled.symm.trans hcalls)).1
      exact ⟨auth, decision, arguments, handler, hclears, hprepared⟩
    · intro hreaches
      have hgiven : ReachesHandler service host task request entered.delivered w :=
        ⟨auth, decision, arguments, handler, hclears, hprepared⟩
      exact ⟨entered, hcalls, hreaches.unique hgiven⟩

end Entering

/-- The first note passes every check; there are no defaults to fill in. -/
theorem first_note_delivered : ∃ delivered, delivered.tool = noteRequest.tool ∧ delivered.arguments = [] ∧
    ReachesHandler (notesExecution answering) (.plain [] []) (firstTask authorizedFirst) noteRequest delivered
      authorizedFirst := by
  have hcalled : (handlersBetween authorizedFirst (executeNote.run authorizedFirst).2).map (fun entered =>
      (entered.delivered.tool, entered.delivered.arguments)) = [(noteRequest.tool, [])] := by decide +kernel
  have hrun : ((notesExecution answering).execute (.plain [] []) (firstTask authorizedFirst)
      noteRequest).run authorizedFirst =
      ((executeNote.run authorizedFirst).1, (executeNote.run authorizedFirst).2) := Prod.mk.eta.symm
  obtain ⟨-, hiff⟩ := handler_called_iff (history_of_operations history_authorizedFirst) hrun
  obtain ⟨entered, hone, hsame⟩ := List.map_eq_singleton_iff.mp hcalled
  obtain ⟨htool, harguments⟩ := Prod.mk.inj hsame
  exact ⟨_, htool, harguments, (hiff _).mp ⟨entered, hone, rfl⟩⟩

end Shea.Analysis
