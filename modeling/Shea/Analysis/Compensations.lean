import Shea.Analysis.HandlerEntries
import Shea.Analysis.PlanRuns

/-!
# The compensations of a failed step

When a step whose policy is `compensate` stops a run, the runner goes back over the steps before it and
executes the compensations they declare, with the task it has in hand and the authorization of the step
that failed. That authorization is bound to the step's tool and arguments, and the task moves on with the
first execution that returns. So one compensation can reach its handler at most, and only if it asks for
what the failed step asked for.
-/

set_option autoImplicit false

namespace Shea.Analysis

open Shea.Computation Shea.Model
open Shea.Model.PlanRunner

/-! ## Between the calls of a runner -/

/-- Between calls: nothing is open, the registers are in order and the ids of authorizations are drawn. -/
structure Poised (host : Host) (w : World) : Prop extends Sound host w where
  drawn : Drawn host w

/-- The call takes ledger steps and grant steps, and ends between calls. -/
def Draws {α : Type} (host : Host) (p : Proc α) : Prop :=
  ∀ w, RestingDrawn host w →
    p.Sat (fun a b => Moves host a b ∧ GrantStep host a b) (fun _ t => RestingDrawn host t) w

section Order

variable {α : Type} {host : Host} {w t : World}

/-- INTERNAL: a call that rests and takes grant steps. -/
theorem Draws.of_rests {p : Proc α} (hrests : Rests host p)
    (hgrants : ∀ w, RestingDrawn host w → p.Sat (GrantStep host) (fun _ _ => True) w) :
    Draws host p := by
  intro w hw
  have hboth := (hrests w hw.1).and (hgrants w hw)
  refine (hboth.keep (fun _ _ hab ha => hab.2.drawn ha) hw.2).post fun _ _ ht => ?_
  exact ⟨ht.1.1, ht.2⟩

/-- INTERNAL: a call that leaves both tables alone. -/
theorem Draws.of_serves {p : Proc α} (hledger : Serves ledgerPart p) (hgrants : Serves grantPart p) :
    Draws host p :=
  .of_rests hledger.rests fun _ hw => (hledger.sat_grants hgrants hw.1).post fun _ _ _ => trivial

/-- INTERNAL: drawing goes through sequences. -/
theorem sequential_draws (host : Host) : Sequential fun _ p => Draws host p :=
  { pure := fun a => .of_serves (.pure a) (.pure a)
    throw := fun e => .of_serves (.throw e) (.throw e)
    bind := fun hp hf w hw => by
      rw [Program.sat_bind]
      refine (hp w hw).post fun r t ht => ?_
      cases r with
      | ok a => exact hf a t ht
      | error e => exact ht
    attempt := fun hp w hw => (Program.sat_attempt _).mpr (hp w hw)
    tryCatch := fun {_} {p} {h} hp hh w hw => by
      refine (Program.sat_tryCatch p h).mpr ((hp w hw).post fun r t ht => ?_)
      cases r with
      | ok a => exact ht
      | error e => exact hh e t ht }

/-- INTERNAL: taking up a step is logged, and grants nothing. -/
theorem draws_started (taskId stepId : String) : Draws host (note (.stepStarted taskId stepId)) :=
  .of_rests (rests_started taskId stepId) fun _ _ => ⟨⟨le_rfl, .kept rfl⟩, trivial⟩

/-- INTERNAL: saving a plan draws fresh identifiers only. -/
theorem draws_savePlan (plan : Plan) : Draws host (PlanRepository.save plan) :=
  .of_serves (serves_savePlan ofAppPlane_ledgerPart.outlying.toUnplanned plan)
    (serves_savePlan unplanned_grantPart plan)

/-- INTERNAL: so does every part of a walk over a plan. -/
theorem planWalk_draws (decision : DecisionService) (execution : ExecutionService)
    (verification : VerificationService) : PlanWalk (fun _ p => Draws host p) host
      (PlanRunner.ofServices host decision execution verification) := by
  have hledger := ofAppPlane_ledgerPart.outlying
  have hgrant := unplanned_grantPart.toUnrelated
  exact
    { toSequential := sequential_draws host
      authorize := fun task request => .of_rests
        (serves_evaluateAndAuthorize hledger.toBeside decision host task request).rests fun _ hw =>
          (sat_evaluateAndAuthorize decision task request hw.1 hw.2).post fun _ _ _ => trivial
      execute := fun task request => .of_rests (rests_execute execution task request) fun _ hw =>
        sat_grants_execute execution task request hw.1 hw.2
      scan := fun task tool data => .of_serves
        (serves_scanOutput hledger.toUnrelated execution.security host task tool data)
        (serves_scanOutput hgrant execution.security host task tool data)
      verify := fun task moreSteps => .of_serves
        (serves_verify hledger.toUnrelated (fun _ _ => rfl) verification host task moreSteps)
        (serves_verify hgrant (fun _ _ => rfl) verification host task moreSteps)
      getByTask := fun _ => .of_serves (.query _) (.query _)
      save := draws_savePlan
      now := .of_serves (.now host) (.now host)
      started := draws_started }

/-- INTERNAL: what the runner calls keeps the registers in order. -/
theorem planWalk_registered (decision : DecisionService) (execution : ExecutionService)
    (verification : VerificationService) :
    PlanWalk (fun _ p => Upholds (Both (Registered host)) p) host
      (PlanRunner.ofServices host decision execution verification) :=
  planWalk_upholds (lasting_registered host) (fun _ _ _ => trivial) decision execution verification

/-- The calls of the services, and the saves of plans. -/
inductive PlannedCall (host : Host) : Proc Unit → Prop
  | service {p : Proc Unit} (h : ServiceCall host p) : PlannedCall host p
  | save (plan : Plan) : PlannedCall host (PlanRepository.save plan)

/-- Any sequence of such calls, each killed at any point or not at all. -/
def planned (host : Host) : Usage World Err := .free (PlannedCall host) World.restart

/-- INTERNAL: and every call of a planned operation. -/
theorem PlannedCall.draws {p : Proc Unit} (h : PlannedCall host p) : Draws host p := by
  cases h with
  | service h =>
    cases h with
    | operation h => exact fun w hw => h.sat_restingDrawn hw
    | runPlan decision execution verification task actingUser explicitUserAck =>
      exact fun w hw => Program.sat_void
        ((planWalk_draws decision execution verification).run task actingUser explicitUserAck w hw)
  | save plan => exact draws_savePlan plan

/-- INTERNAL: such a call keeps every receipt with its contract. -/
theorem PlannedCall.upholds_registered {p : Proc Unit} (h : PlannedCall host p) :
    Upholds (Both (Registered host)) p := by
  cases h with
  | service h => exact h.upholds_registered
  | save plan => exact upholds_savePlan (lasting_registered host) plan

/-- Between such calls all of it holds. -/
theorem poised_of_planned (h : History (planned host) {} w) : Poised host w := by
  have hdrawn : RestingDrawn host w :=
    History.invariant_of_sat restingDrawn_empty (fun _ s hp hs => hp.draws s hs)
      (fun _ _ hs hc => hs.restart hc) h
  have hempty : Registered host 0 {} := ⟨by simp, by simp, List.nodup_nil, by simp⟩
  have hboth : Both (Registered host) w :=
    History.invariant_of_sat ⟨hempty, hempty⟩ (fun _ s hp hs => hp.upholds_registered s hs)
      (fun _ _ hs hc => (lasting_registered host).toFramed.restart hs hc) h
  exact ⟨⟨hdrawn.1, hboth.2⟩, hdrawn.2⟩

/-- INTERNAL: the state after a call that draws and keeps the registers. -/
theorem Poised.after {p : Proc α} {r : Except Err α} (hw : Poised host w) (hdraws : Draws host p)
    (hupholds : Upholds (Both (Registered host)) p) (hrun : p.run w = (r, t)) : Poised host t := by
  have hdrawn := (hdraws w ⟨hw.toResting, hw.drawn⟩).run
  have hboth := (hupholds w hw.both).run
  rw [hrun] at hdrawn hboth
  exact ⟨⟨hdrawn.1, hboth.2⟩, hdrawn.2⟩

end Order

/-! ## Executions that raise -/

section Raised

variable {service : ExecutionService} {host : Host} {task : Task} {request : ToolRequest} {w t : World}

/-- INTERNAL: a block that raises commits nothing.
SOURCE: persistence/sqlite/unit_of_work.py:32-49 -/
theorem committed_of_raised {α : Type} {body : Proc α} (hb : Inner body) {e : Err}
    (h : (withUow body).run w = (.error e, t)) : t.committed = w.committed := by
  have hinner := hb.run (w := w.enter) (Nat.succ_pos _)
  rw [run_withUow] at h
  cases hrun : body.run w.enter with
  | mk r u =>
  rw [hrun] at h hinner
  cases r with
  | ok a => cases h
  | error e' =>
    obtain ⟨-, rfl⟩ := Prod.mk.inj h
    have hquiet : u.committed = w.committed := hinner.1.committed
    unfold World.exit
    split
    · exact hquiet
    · exact hquiet

/-- INTERNAL: a call that leaves what the checks read alone, from where nothing is pending. -/
theorem Leaves.both {α : Type} {p : Proc α} {r : Except Err α} (hp : Leaves checkedPart p)
    (hw : checkedPart w.working = checkedPart w.committed) (h : p.run w = (r, t)) :
    checkedPart t.working = checkedPart t.committed ∧
      checkedPart t.committed = checkedPart w.committed := by
  have hkept := hp.run w hw
  rw [h] at hkept
  exact ⟨hkept.1.trans (hw.trans hkept.2.symm), hkept.2⟩

/-- INTERNAL: the same after the supervisor's answer, if it raises.
SOURCE: execution/service.py:342-472 -/
theorem checkedPart_of_settle {supervision : SupervisionResult}
    (hw : checkedPart w.working = checkedPart w.committed) {e : Err}
    (h : (service.settle host task request supervision).run w = (.error e, t)) :
    checkedPart t.committed = checkedPart w.committed := by
  have hscan : ∀ data, Leaves checkedPart (service.security.scanOutput host task request.tool data) :=
    fun data => (serves_scanOutput unrelated_checkedPart service.security host task request.tool
      data).leaves
  have hscreen : ∀ response scan,
      Leaves checkedPart (ExecutionService.screen host task request response scan) := by
    intro response scan
    unfold ExecutionService.screen
    split
    · exact .bind (serves_audit unrelated_checkedPart host _).leaves fun _ => .pure _
    · exact .pure _
  unfold ExecutionService.settle at h
  cases houtcome : mapAppOutcome supervision.adapterResult.outcome with
  | error e' =>
    rw [houtcome] at h
    obtain ⟨-, rfl⟩ := Prod.mk.inj h
    rfl
  | ok outcome =>
  rw [houtcome, Program.run_bind, Program.run_ofExcept] at h
  dsimp only at h
  rw [Program.run_bind] at h
  cases hscanned : (service.security.scanOutput host task request.tool
    (ExecutionService.evidenceData supervision.adapterResult)).run w with
  | mk r u =>
  obtain ⟨hu, hkept⟩ := (hscan _).both hw hscanned
  rw [hscanned] at h
  cases r with
  | error e' =>
    obtain ⟨-, rfl⟩ := Prod.mk.inj h
    exact hkept
  | ok scan =>
  dsimp only at h
  rw [Program.run_bind] at h
  cases hscreened : (ExecutionService.screen host task request
    (ExecutionService.responseOf supervision outcome) scan).run u with
  | mk r v =>
  obtain ⟨-, hkept'⟩ := (hscreen _ _).both hu hscreened
  rw [hscreened] at h
  cases r with
  | error e' =>
    obtain ⟨-, rfl⟩ := Prod.mk.inj h
    exact hkept'.trans hkept
  | ok response =>
  dsimp only at h
  rw [Program.run_bind] at h
  cases hwritten : (withUow (ExecutionService.writeRecord host task request
    (generateKey host.py task.id request) supervision outcome response)).run v with
  | mk r x =>
  rw [hwritten] at h
  cases r with
  | ok moved => cases h
  | error e' =>
    obtain ⟨-, rfl⟩ := Prod.mk.inj h
    have hnested := nested_writeRecord host task request (generateKey host.py task.id request) supervision
      outcome response
    rw [committed_of_raised hnested.inner hwritten]
    exact hkept'.trans hkept

/-- INTERNAL: an execution that raises leaves what the checks read as it was.
SOURCE: execution/service.py:229-472 -/
theorem checkedPart_of_raised (hw : w.Idle) {e : Err}
    (h : (service.execute host task request).run w = (.error e, t)) :
    checkedPart t.committed = checkedPart w.committed := by
  by_cases hrunning : task.state = .running
  swap
  · rw [run_execute_of_not_running hrunning] at h
    obtain ⟨-, rfl⟩ := Prod.mk.inj h
    rfl
  rw [execute_of_running hrunning, Program.run_bind] at h
  cases hanswer : (supervising service host task request).run w with
  | mk r u =>
  obtain ⟨hu, hkept⟩ := (leaves_supervising service host task request).both
    (congrArg checkedPart hw.working) hanswer
  rw [hanswer] at h
  cases r with
  | error e' =>
    obtain ⟨-, rfl⟩ := Prod.mk.inj h
    exact hkept
  | ok supervision => exact (checkedPart_of_settle hu h).trans hkept

end Raised

/-! ## The compensations of a run -/

/-- INTERNAL: keys that are texts are written as they are. -/
@[simp] theorem PyDict.toDict_ofDict (py : Stdlib) (d : Dict) : (PyDict.ofDict d).toDict py = d := by
  unfold PyDict.ofDict PyDict.toDict
  rw [List.map_map]
  exact List.map_id _

/-- INTERNAL: and no other dictionary is written so. -/
theorem PyDict.ofDict_toDict {py : Stdlib} {d : PyDict} (h : ∀ entry ∈ d, isText entry.1 = true) :
    PyDict.ofDict (d.toDict py) = d := by
  unfold PyDict.ofDict PyDict.toDict
  rw [List.map_map]
  refine (List.map_congr_left fun entry hin => ?_).trans (List.map_id _)
  obtain ⟨key, value⟩ := entry
  cases key with
  | str text => rfl
  | _ => cases h _ hin

/-- The compensations, each with the handlers that are called while it is executed. What is no
`Exception` ends them. -/
def undone (runner : PlanRunner) (host : Host) :
    Progress → List OperationNode → World → List (OperationNode × HandlerCall)
  | _, [], _ => []
  | progress, node :: rest, w =>
    match (runner.execute progress.current (compensationFor host.py progress.current node)).run w with
    | (r, t) => (handlersBetween w t).map (node, ·) ++
      match withResult progress r with
      | .ok next => undone runner host next rest t
      | .error _ => []

/-- The compensation passes every check when its turn comes, and this is what its handler is given. -/
def ReachesInTurn (service : ExecutionService) (host : Host) (other : OperationNode)
    (delivered : ToolRequest) : Progress → List OperationNode → World → Prop
  | _, [], _ => False
  | progress, node :: rest, w =>
    (node = other ∧ ReachesHandler service host progress.current
      (compensationFor host.py progress.current node) delivered w) ∨
    match (service.execute host progress.current (compensationFor host.py progress.current node)).run w with
    | (r, t) =>
      match withResult progress r with
      | .ok next => ReachesInTurn service host other delivered next rest t
      | .error _ => False

/-- The compensation asks for what the step asked for. -/
structure Repeats (py : Stdlib) (node : OperationNode) (step : PlanStep) : Prop where
  tool : node.compensationTool = .str step.tool
  arguments : (Value.dict (node.compensationArguments.toDict py)).canon =
    (Value.dict step.arguments).canon

/-- The newest authorization of the task is bound to the step and its arguments. -/
def GrantedFor (host : Host) (taskId : String) (step : PlanStep) (t : Tables) : Prop :=
  ∃ auth, (AuthorizationRepository.ofTables t taskId).getLast? = some auth ∧
    auth.stepHash = some (computeStepHash host.py step) ∧
    auth.argumentsHash = some (computeArgumentsHash host.py step.arguments)

/-- The key of a compensation that asks for what the step asked for. -/
def repeatKey (host : Host) (taskId : String) (step : PlanStep) : String :=
  generateKey host.py taskId
    { requestId := "", tool := step.tool, action := "compensate", arguments := step.arguments }

/-- No compensation can pass any more: the task is not RUNNING as far as the runner knows, or the one key
that the authorization lets through was used. -/
def Spent (host : Host) (step : PlanStep) (current : Task) (w : World) : Prop :=
  current.state ≠ .running ∨ GrantedFor host current.id step w.committed ∧
    ∃ call ∈ callsOf w.log, call.key = some (repeatKey host current.id step)

/-- What comes of the compensations of a step: none calls its handler, or one does, the one that passes
in its turn. -/
inductive Compensated (runner : PlanRunner) (service : ExecutionService) (host : Host) (step : PlanStep)
    (progress : Progress) (nodes : List OperationNode) (w : World) : Prop
  | none (hcalls : undone runner host progress nodes w = [])
      (hnot : ∀ other delivered, ¬ ReachesInTurn service host other delivered progress nodes w)
  | one {node : OperationNode} {entered : HandlerCall}
      (hcalls : undone runner host progress nodes w = [(node, entered)])
      (htool : entered.delivered.tool = step.tool) (hrepeats : Repeats host.py node step)
      (hreaches : ∀ other delivered, ReachesInTurn service host other delivered progress nodes w ↔
        other = node ∧ delivered = entered.delivered)

section Unwinding

variable {service : ExecutionService} {host : Host} {step : PlanStep} {node : OperationNode}
  {current : Task} {auth : Authorization} {decision : Decision} {arguments : Dict} {w t : World}

/-- INTERNAL: what the newest authorization lets through asks for what it was granted for.
SOURCE: execution/service.py:515-555 -/
theorem GrantedFor.repeats (hpy : HashesTellApart host.py)
    (h : GrantedFor host current.id step w.committed)
    (hclears : Clears service host current (compensationFor host.py current node) auth decision arguments
      w) : Repeats host.py node step := by
  obtain ⟨auth', hnewest, hstep, harguments⟩ := h
  obtain rfl := Option.some.inj (hclears.admits.newest.symm.trans hnewest)
  obtain ⟨plan, -, other, -, htool, hother⟩ := hclears.admits.hashes.step _ hstep
  have htext : isText node.compensationTool = true := hclears.isText
  refine ⟨?_, (computeHash_eq_iff hpy).mp (hclears.admits.hashes.arguments _ harguments)⟩
  cases htyped : node.compensationTool with
  | str text =>
    have hsame : (compensationFor host.py current node).tool = text := by
      unfold compensationFor
      rw [htyped]
      rfl
    rw [← hsame, htool.symm.trans ((computeStepHash_eq_iff hpy).mp hother).tool]
  | _ =>
    rw [htyped] at htext
    cases htext

/-- INTERNAL: and it does so under one key.
SOURCE: recovery/idempotency.py:11-31 -/
theorem Repeats.key (hpy : HashesTellApart host.py) (h : Repeats host.py node step) :
    generateKey host.py current.id (compensationFor host.py current node) =
      repeatKey host current.id step := by
  unfold repeatKey generateKey compensationFor
  rw [h.tool]
  refine congrArg host.py.sha256 (dumps_of_canon hpy.floats ?_)
  simp only [show pyStr host.py (.str step.tool) = step.tool from rfl]
  simp only [Value.canon_dict, List.map_cons, List.map_nil, h.arguments]

/-- A compensation whose step is spent passes no gate a second time. -/
theorem Spent.not_clears (hpy : HashesTellApart host.py) (hw : Poised host w)
    (h : Spent host step current w) (node : OperationNode) (auth : Authorization) (decision : Decision)
    (arguments : Dict) : ¬ Clears service host current (compensationFor host.py current node) auth decision
      arguments w := by
  intro hclears
  rcases h with hstopped | ⟨hbound, call, hin, hkey⟩
  · exact hstopped hclears.running
  · have hrepeats := hbound.repeats hpy hclears
    have hrow := hw.safe.callKeys call hin _ hkey
    have hnone := hclears.unreserved
    rw [hrepeats.key hpy] at hnone
    have hlookup : Table.lookup IdempotencyRecord.key w.committed.idempotency
        (repeatKey host current.id step) = none := hnone
    rw [show (ledgerOf w).idempotency = w.committed.idempotency from rfl, hlookup] at hrow
    cases hrow

section Execution

variable {progress next : Progress} {r : Except Err ExecutionOutcomeRecord} {request : ToolRequest}

/-- INTERNAL: an execution ends between calls. -/
theorem Poised.executed (hw : Poised host w) (h : (service.execute host current request).run w = (r, t)) :
    Poised host t :=
  hw.after ((planWalk_draws {} service {}).execute current request)
    ((planWalk_registered {} service {}).execute current request) h

/-- INTERNAL: an execution that returns has moved the task on, and one that raises has left it and its
authorization.
SOURCE: execution/plan_runner.py:231-238 -/
theorem executed_cases (hw : w.Idle)
    (h : (service.execute host progress.current request).run w = (r, t))
    (hnext : withResult progress r = .ok next) :
    next.current.state ≠ .running ∨
      (next.current = progress.current ∧ checkedPart t.committed = checkedPart w.committed) := by
  have hexecutes := (executes_execute service host progress.current request hw).run
  rw [h] at hexecutes
  cases r with
  | ok result =>
    obtain rfl := Except.ok.inj hnext
    obtain ⟨-, -, -, hstate, -⟩ := hexecutes
    left
    show result.task.state ≠ .running
    rw [hstate]
    cases result.outcome <;> simp [executedState]
  | error e =>
    obtain rfl := withResult_error hnext
    exact .inr ⟨rfl, checkedPart_of_raised hw h⟩

/-- INTERNAL: the newest authorization is what it was. -/
theorem GrantedFor.congr {taskId : String} {a b : Tables} (h : GrantedFor host taskId step a)
    (hsame : b.authorizations = a.authorizations) : GrantedFor host taskId step b := by
  obtain ⟨auth, hnewest, hhashes⟩ := h
  refine ⟨auth, ?_, hhashes⟩
  unfold AuthorizationRepository.ofTables at hnewest ⊢
  rw [hsame]
  exact hnewest

/-- INTERNAL: calls stay in the log. -/
theorem callsOf_subset {a b : World} (h : Logs a b) : ∀ call ∈ callsOf a.log, call ∈ callsOf b.log := by
  obtain ⟨more, hb⟩ := h
  intro call hin
  rw [← hb]
  unfold callsOf at hin ⊢
  rw [List.filterMap_append]
  exact List.mem_append_left _ hin

/-- INTERNAL: an execution only adds to the log. -/
theorem logs_executed (h : (service.execute host current request).run w = (r, t)) : Logs w t := by
  have hlogs := ((logs_execute service host current request).sat Logs.refl Logs.trans w).run
  rw [h] at hlogs
  exact hlogs

/-- INTERNAL: what is spent stays spent. -/
theorem Spent.after (hw : w.Idle) (hspent : Spent host step progress.current w)
    (h : (service.execute host progress.current request).run w = (r, t))
    (hnext : withResult progress r = .ok next) : Spent host step next.current t := by
  rcases executed_cases hw h hnext with hmoved | ⟨hcurrent, hsame⟩
  · exact .inl hmoved
  · rw [hcurrent]
    rcases hspent with hstopped | ⟨hbound, call, hin, hkey⟩
    · exact .inl hstopped
    · exact .inr ⟨hbound.congr (congrArg Prod.fst hsame), call, callsOf_subset (logs_executed h) _ hin, hkey⟩

/-- INTERNAL: an execution that does not pass calls no handler. -/
theorem handlersBetween_eq_nil (hw : Poised host w)
    (h : (service.execute host current request).run w = (r, t))
    (hnot : ∀ auth decision arguments, ¬ Clears service host current request auth decision arguments w) :
    handlersBetween w t = [] := by
  cases entry_execute hw.toSound h with
  | none hcalls => exact hcalls
  | once hclears => exact absurd hclears (hnot _ _ _)

end Execution

variable {progress : Progress} {runner : PlanRunner}

/-- INTERNAL: a compensation and those after it. What is no `Exception` leaves nothing after it.
SOURCE: execution/plan_runner.py:220-238 -/
theorem undone_cons {node : OperationNode} (rest : List OperationNode)
    (hrunner : runner.execute = service.execute host) {r : Except Err ExecutionOutcomeRecord}
    (hrun : (service.execute host progress.current
      (compensationFor host.py progress.current node)).run w = (r, t)) :
    ∃ next later, (later = [] ∨ later = rest ∧ withResult progress r = .ok next) ∧
      undone runner host progress (node :: rest) w =
        (handlersBetween w t).map (node, ·) ++ undone runner host next later t ∧
      ∀ other delivered, ReachesInTurn service host other delivered progress (node :: rest) w ↔
        (node = other ∧ ReachesHandler service host progress.current
          (compensationFor host.py progress.current node) delivered w) ∨
        ReachesInTurn service host other delivered next later t := by
  cases hresult : withResult progress r with
  | ok next =>
    refine ⟨next, rest, .inr ⟨rfl, rfl⟩, ?_, fun other delivered => ?_⟩
    · rw [undone, hrunner, hrun]
      dsimp only
      rw [hresult]
    · rw [ReachesInTurn, hrun]
      dsimp only
      rw [hresult]
  | error e =>
    refine ⟨progress, [], .inl rfl, ?_, fun other delivered => ?_⟩
    · show _ = _ ++ []
      rw [undone, hrunner, hrun]
      dsimp only
      rw [hresult]
    · show _ ↔ _ ∨ False
      rw [ReachesInTurn, hrun]
      dsimp only
      rw [hresult]

/-- INTERNAL: once it is spent, nothing is compensated. -/
theorem undone_spent (hpy : HashesTellApart host.py) (hrunner : runner.execute = service.execute host)
    {nodes : List OperationNode} (hw : Poised host w) (hspent : Spent host step progress.current w) :
    undone runner host progress nodes w = [] ∧
      ∀ other delivered, ¬ ReachesInTurn service host other delivered progress nodes w := by
  induction nodes generalizing progress w with
  | nil => exact ⟨rfl, fun _ _ => id⟩
  | cons node rest ih =>
    cases hrun : (service.execute host progress.current
      (compensationFor host.py progress.current node)).run w with
    | mk r t =>
    obtain ⟨next, later, hnext, hundone, hturns⟩ := undone_cons rest hrunner hrun
    have hnot := fun auth decision arguments =>
      @Spent.not_clears service host step progress.current w hpy hw hspent node auth decision arguments
    have hlater : undone runner host next later t = [] ∧
        ∀ other delivered, ¬ ReachesInTurn service host other delivered next later t := by
      rcases hnext with rfl | ⟨rfl, hnext⟩
      · exact ⟨rfl, fun _ _ => id⟩
      · exact ih (hw.executed hrun) (hspent.after hw.idle hrun hnext)
    obtain ⟨hnothing, hnone⟩ := hlater
    rw [hundone, handlersBetween_eq_nil hw hrun hnot, hnothing]
    refine ⟨rfl, fun other delivered hturn => ?_⟩
    rcases (hturns _ _).mp hturn with ⟨-, auth, decision, arguments, -, hclears, -⟩ | hturn
    · exact hnot _ _ _ hclears
    · exact hnone _ _ hturn

/-- INTERNAL: what comes later, from where nothing can pass any more. -/
theorem compensated_later (hpy : HashesTellApart host.py) (hrunner : runner.execute = service.execute host)
    {next : Progress} {later rest : List OperationNode} {r : Except Err ExecutionOutcomeRecord}
    (ht : Poised host t) (hnext : later = [] ∨ later = rest ∧ withResult progress r = .ok next)
    (hspent : withResult progress r = .ok next → Spent host step next.current t) :
    undone runner host next later t = [] ∧
      ∀ other delivered, ¬ ReachesInTurn service host other delivered next later t := by
  rcases hnext with rfl | ⟨rfl, hnext⟩
  · exact ⟨rfl, fun _ _ => id⟩
  · exact undone_spent hpy hrunner ht (hspent hnext)

/-- With the authorization of the step that failed, one compensation calls its handler at most: the one
that passes when its turn comes.
SOURCE: execution/plan_runner.py:214-240, execution/service.py:229-273, 483-555 -/
theorem undone_granted (hpy : HashesTellApart host.py) (hrunner : runner.execute = service.execute host)
    {nodes : List OperationNode} (hw : Poised host w)
    (hbound : GrantedFor host progress.current.id step w.committed) :
    Compensated runner service host step progress nodes w := by
  induction nodes generalizing progress w with
  | nil => exact .none rfl fun _ _ => id
  | cons node rest ih =>
    cases hrun : (service.execute host progress.current
      (compensationFor host.py progress.current node)).run w with
    | mk r t =>
    obtain ⟨next, later, hnext, hundone, hturns⟩ := undone_cons rest hrunner hrun
    have ht := hw.executed hrun
    cases entry_execute hw.toSound hrun with
    | none hcalls hnot =>
      have hlater : Compensated runner service host step next later t := by
        rcases hnext with rfl | ⟨rfl, hnext⟩
        · exact .none rfl fun _ _ => id
        · rcases executed_cases hw.idle hrun hnext with hmoved | ⟨hcurrent, hsame⟩
          · have hspent : Spent host step next.current t := .inl hmoved
            obtain ⟨hnothing, hnone⟩ := undone_spent hpy hrunner ht hspent
            exact .none hnothing hnone
          · exact ih ht (by rw [hcurrent]; exact hbound.congr (congrArg Prod.fst hsame))
      have hskip : ∀ other delivered,
          ReachesInTurn service host other delivered progress (node :: rest) w ↔
            ReachesInTurn service host other delivered next later t := by
        intro other delivered
        rw [hturns]
        refine or_iff_right ?_
        rintro ⟨-, auth, decision, arguments, -, hclears, -⟩
        exact hnot _ _ _ hclears
      rw [hcalls, List.map_nil, List.nil_append] at hundone
      cases hlater with
      | none hnothing hnone =>
        exact .none (hundone.trans hnothing) fun other delivered h => hnone _ _ ((hskip _ _).mp h)
      | one hone htool hrepeats hreaches =>
        exact .one (hundone.trans hone) htool hrepeats fun other delivered =>
          (hskip other delivered).trans (hreaches other delivered)
    | @once _ _ _ entered hclears hcalls _ _ hdelivered hkey =>
      obtain ⟨handler, hprepared⟩ := hdelivered
      have hrepeats := hbound.repeats hpy hclears
      have hgiven : ReachesHandler service host progress.current
          (compensationFor host.py progress.current node) entered.delivered w :=
        ⟨_, _, _, handler, hclears, hprepared⟩
      have hspent : withResult progress r = .ok next → Spent host step next.current t := by
        intro hnext
        rcases executed_cases hw.idle hrun hnext with hmoved | ⟨hcurrent, hsame⟩
        · exact .inl hmoved
        · obtain ⟨call, hin, hused⟩ := hkey
          rw [hcurrent]
          rw [hrepeats.key hpy] at hused
          exact .inr ⟨hbound.congr (congrArg Prod.fst hsame), call, hin, hused⟩
      obtain ⟨hnothing, hnone⟩ := compensated_later hpy hrunner ht hnext hspent
      rw [hcalls, hnothing] at hundone
      refine .one hundone ?_ hrepeats fun other delivered => ?_
      · rw [tool_of_prepare hprepared]
        show pyStr host.py node.compensationTool = step.tool
        rw [hrepeats.tool]
        rfl
      · rw [hturns, or_iff_left (hnone other delivered)]
        constructor
        · rintro ⟨rfl, hother⟩
          exact ⟨rfl, hgiven.unique hother⟩
        · rintro ⟨rfl, rfl⟩
          exact ⟨rfl, hgiven⟩

end Unwinding

/-! ## The stop of a run -/

/-- Where a run stops: in this progress and this state, at a step of a plan with these nodes. -/
structure Stop where
  ordered : List OperationNode
  progress : Progress
  step : PlanStep
  world : World

/-- The stop of a run of the task's plan, if it comes to one. -/
def stopOf (runner : PlanRunner) (host : Host) (task : Task) (actingUser : String)
    (explicitUserAck : Bool) (w : World) : Option Stop :=
  match PlanRepository.ofTables w.working task.id with
  | none => none
  | some plan =>
    match OperationGraph.fromPlan host.py plan >>= OperationGraph.topologicalOrder with
    | .error _ => none
    | .ok ordered =>
      match (runSteps runner host actingUser explicitUserAck { plan := plan, current := task }
        ((executableSteps plan ordered).filter (·.state ≠ "COMPLETED"))).run w with
      | (.ok (progress, some step), v) => some ⟨ordered, progress, step, v⟩
      | _ => none

namespace Stop

/-- The step of the node is COMPLETED. -/
def isDone (s : Stop) (node : OperationNode) : Bool :=
  s.progress.plan.steps.any fun step => step.id = node.stepId && step.state = "COMPLETED"

/-- The compensations that are owed, if the policy of the step is `compensate`: those of the COMPLETED
steps before it, last first. -/
def owed (s : Stop) : List OperationNode := (compensations s.ordered s.step).filter s.isDone

/-- INTERNAL: what is owed belongs to a node of the plan. -/
theorem owed_subset (s : Stop) {node : OperationNode} (h : node ∈ s.owed) : node ∈ s.ordered := by
  have hin := List.mem_of_mem_filter h
  unfold compensations at hin
  split at hin
  · have hchain := List.mem_of_mem_filter (List.mem_reverse.mp hin)
    exact (List.takeWhile_sublist _).subset hchain
  · cases hin

/-- The handler calls of the run's compensations. -/
def undone (runner : PlanRunner) (host : Host) (s : Stop) : List (OperationNode × HandlerCall) :=
  Analysis.undone runner host s.progress (compensations s.ordered s.step) s.world

/-- The handlers that are called are those of the compensations that are owed, each called once and in
this order, with the arguments declared. A call for a step that is not COMPLETED is none of them. -/
def Compensates (runner : PlanRunner) (host : Host) (s : Stop) : Prop :=
  (s.undone runner host).map (fun done =>
      (done.1, Value.str done.2.delivered.tool, PyDict.ofDict done.2.delivered.arguments)) =
    s.owed.map fun node => (node, node.compensationTool, node.compensationArguments)

instance (runner : PlanRunner) (host : Host) (s : Stop) : Decidable (s.Compensates runner host) :=
  inferInstanceAs (Decidable (_ = _))

end Stop

section Stopping

variable {host : Host} {runner : PlanRunner} {task : Task} {actingUser : String} {explicitUserAck : Bool}
  {progress after : Progress} {step : PlanStep} {w v t : World}

/-- INTERNAL: the calls of two stretches of a log. -/
theorem handlersBetween_trans {a b c : World} (hab : Logs a b) (hbc : Logs b c) :
    handlersBetween a c = handlersBetween a b ++ handlersBetween b c := by
  obtain ⟨first, hb⟩ := hab
  obtain ⟨second, hc⟩ := hbc
  have hac : c.log = a.log ++ (first ++ second) := by rw [← hc, ← hb, List.append_assoc]
  rw [handlersBetween_append hac, handlersBetween_append hb.symm, handlersBetween_append hc.symm,
    handlersOf_append]

/-- INTERNAL: the handlers that are called while compensations are executed are those listed. -/
theorem handlersBetween_compensate {execution : ExecutionService}
    (hrunner : runner.execute = execution.execute host) {nodes : List OperationNode}
    {r : Except Err Progress} (h : (compensate runner host progress nodes).run w = (r, t)) :
    Logs w t ∧ handlersBetween w t = (undone runner host progress nodes w).map Prod.snd := by
  induction nodes generalizing progress w with
  | nil =>
    obtain ⟨-, rfl⟩ := Prod.mk.inj h
    exact ⟨Logs.refl _, handlersBetween_append (List.append_nil _).symm⟩
  | cons node rest ih =>
    cases hexecute : (runner.execute progress.current
      (compensationFor host.py progress.current node)).run w with
    | mk answer u =>
    have hfirst : Logs w u := by
      rw [hrunner] at hexecute
      exact logs_executed hexecute
    have hcalled : (handlersBetween w u).map (Prod.snd ∘ (node, ·)) = handlersBetween w u :=
      List.map_id _
    rw [compensate_cons node rest hexecute] at h
    rw [undone, hexecute]
    dsimp only
    rw [List.map_append, List.map_map, hcalled]
    cases hresult : withResult progress answer with
    | error e =>
      rw [hresult] at h
      obtain ⟨-, rfl⟩ := Prod.mk.inj h
      exact ⟨hfirst, (List.append_nil _).symm⟩
    | ok next =>
      rw [hresult] at h
      obtain ⟨hlogs, hlater⟩ := ih h
      exact ⟨Logs.trans _ _ _ hfirst hlogs, by rw [handlersBetween_trans hfirst hlogs, hlater]⟩

/-- INTERNAL: how a run comes to its stop. -/
theorem stopOf_eq {s : Stop} (h : stopOf runner host task actingUser explicitUserAck w = some s) :
    ∃ plan nodes, PlanRepository.ofTables w.working task.id = some plan ∧
      OperationGraph.fromPlan host.py plan = .ok nodes ∧
      OperationGraph.topologicalOrder nodes = .ok s.ordered ∧
      (runSteps runner host actingUser explicitUserAck { plan := plan, current := task }
        ((executableSteps plan s.ordered).filter (·.state ≠ "COMPLETED"))).run w =
          (.ok (s.progress, some s.step), s.world) := by
  unfold stopOf at h
  split at h
  · cases h
  · next plan hplan =>
    split at h
    · cases h
    · next ordered hgraph =>
      split at h
      · next progress step v hloop =>
        obtain rfl := Option.some.inj h
        cases hnodes : OperationGraph.fromPlan host.py plan with
        | error e =>
          rw [hnodes] at hgraph
          cases hgraph
        | ok nodes =>
          rw [hnodes] at hgraph
          exact ⟨plan, nodes, hplan, hnodes, hgraph, hloop⟩
      · cases h

/-- INTERNAL: after the stop a run only compensates.
SOURCE: execution/plan_runner.py:214-247 -/
theorem run_unwinds {s : Stop} (hstop : stopOf runner host task actingUser explicitUserAck w = some s)
    {r : Except Err PlanRunResult} (h : (runner.run host task actingUser explicitUserAck).run w = (r, t)) :
    ∃ r', (compensate runner host s.progress (compensations s.ordered s.step)).run s.world = (r', t) := by
  obtain ⟨plan, nodes, hplan, hnodes, hordered, hloop⟩ := stopOf_eq hstop
  unfold PlanRunner.run at h
  rw [Program.run_bind, show (PlanRepository.getByTask task.id).run w =
    (.ok (PlanRepository.ofTables w.working task.id), w) from rfl, hplan] at h
  dsimp only at h
  unfold runPlan at h
  rw [hnodes, Program.run_bind, Program.run_ofExcept] at h
  dsimp only at h
  rw [hordered, Program.run_bind, Program.run_ofExcept] at h
  dsimp only at h
  unfold runOrdered at h
  dsimp only at h
  have hpending : (executableSteps plan s.ordered).filter (·.state ≠ "COMPLETED") ≠ [] := by
    intro hnone
    rw [hnone] at hloop
    have hpair := Except.ok.inj (congrArg Prod.fst hloop)
    exact absurd (congrArg Prod.snd hpair) (Option.some_ne_none _).symm
  have hsteps : executableSteps plan s.ordered ≠ [] := by
    intro hnone
    rw [hnone] at hpending
    exact hpending rfl
  rw [if_neg (by simpa using hsteps), if_neg (by simpa using hpending)] at h
  unfold runPending at h
  rw [Program.run_bind, hloop] at h
  dsimp only at h
  rw [unwind_some, Program.run_bind] at h
  cases hunwind : (compensate runner host s.progress (compensations s.ordered s.step)).run s.world with
  | mk r' u =>
  rw [hunwind] at h
  cases r' with
  | ok last =>
    obtain ⟨-, rfl⟩ := Prod.mk.inj h
    exact ⟨_, rfl⟩
  | error e =>
    obtain ⟨-, rfl⟩ := Prod.mk.inj h
    exact ⟨_, rfl⟩

variable {decision : DecisionService} {execution : ExecutionService} {verification : VerificationService}

/-- INTERNAL: the turn of the loop in which a run stops.
SOURCE: execution/plan_runner.py:121-135, 209-212 -/
theorem last_turn {steps : List PlanStep} (hw : Poised host w)
    (h : (runSteps (.ofServices host decision execution verification) host actingUser explicitUserAck
      progress steps).run w = (.ok (after, some step), v)) :
    ∃ before begun moreSteps, Poised host begun ∧ before.current.state = .ready ∧
      (runStep (.ofServices host decision execution verification) host actingUser explicitUserAck before
        step moreSteps).run begun = (.ok after, v) := by
  have hdraws : PlanWalk _ host _ := planWalk_draws decision execution verification
  have hregistered : PlanWalk _ host _ := planWalk_registered decision execution verification
  induction steps generalizing progress w with
  | nil => cases h
  | cons first rest ih =>
    unfold runSteps at h
    split at h
    · cases h
    · next hready =>
      obtain ⟨_, begun, hstarted, h⟩ := Program.run_bind_ok h
      have hbegun := hw.after (hdraws.started _ _) (hregistered.started _ _) hstarted
      obtain ⟨turned, u, hstep, h⟩ := Program.run_bind_ok h
      split at h
      · obtain ⟨hafter, rfl⟩ := Prod.mk.inj h
        obtain ⟨rfl, hfirst⟩ := Prod.mk.inj (Except.ok.inj hafter)
        obtain rfl := Option.some.inj hfirst
        exact ⟨progress, begun, _, hbegun, not_not.mp hready, hstep⟩
      · have hu := hbegun.after (hdraws.runStep _ _ _ _ _) (hregistered.runStep _ _ _ _ _) hstep
        exact ih hu h

/-- INTERNAL: a step that is authorized has an authorization of its own.
SOURCE: execution/plan_runner.py:136-170 -/
theorem granted_authorizeStep {plan : Plan} {current : Task} (hw : Poised host w)
    (h : (authorizeStep (.ofServices host decision execution verification) host progress step actingUser
      explicitUserAck).run w = (.ok (plan, current), t)) :
    GrantedFor host current.id step t.committed := by
  have hdraws : PlanWalk _ host _ := planWalk_draws decision execution verification
  have hregistered : PlanWalk _ host _ := planWalk_registered decision execution verification
  obtain ⟨marked, w₁, hmark, h⟩ := Program.run_bind_ok h
  have hw₁ := hw.after (hdraws.bind (hdraws.save _) fun _ => hdraws.pure _)
    (hregistered.bind (hregistered.save _) fun _ => hregistered.pure _) hmark
  obtain ⟨found, w₂, hfound, h⟩ := Program.run_bind_ok h
  have hw₂ := hw₁.after (hdraws.ofExcept _) (hregistered.ofExcept _) hfound
  obtain ⟨profileId, w₃, hprofile, h⟩ := Program.run_bind_ok h
  have hw₃ := hw₂.after (hdraws.ofExcept _) (hregistered.ofExcept _) hprofile
  obtain ⟨outcome, w₄, hasked, h⟩ := Program.run_bind_ok h
  obtain ⟨hpair, rfl⟩ := Prod.mk.inj h
  obtain ⟨-, rfl⟩ := Prod.mk.inj (Except.ok.inj hpair)
  rcases Program.run_tryCatch_ok hasked with hgranted | ⟨e, u, -, hnoted⟩
  · obtain ⟨-, hid, -⟩ := (taskCalls_ofServices host decision execution verification).authorize hw₃.idle
      hgranted
    have hasks : AsksFor marked step progress.current
        (authorizationFor marked step found.1.capabilities actingUser profileId explicitUserAck)
        w₃.committed := ⟨.inl rfl, .inl rfl, .inl rfl⟩
    obtain ⟨hbound, -⟩ := granted_bound hw₃.idle hasks hgranted
    obtain ⟨hnewest, -⟩ := newest_granted ⟨hw₃.toResting, hw₃.drawn⟩ hgranted
    rw [hid]
    exact ⟨_, hnewest, hbound.stepHash, hbound.argumentsHash⟩
  · unfold noteConfirmation at hnoted
    split at hnoted
    · obtain ⟨_, u, -, hthrown⟩ := Program.run_bind_ok hnoted
      cases hthrown
    · cases hnoted

/-- INTERNAL: where a turn of the loop leaves a RUNNING task, the step was authorized and its execution
raised.
SOURCE: execution/plan_runner.py:133-212 -/
theorem granted_runStep {moreSteps : Bool} (hw : Poised host w) (hready : progress.current.state = .ready)
    (h : (runStep (.ofServices host decision execution verification) host actingUser explicitUserAck
      progress step moreSteps).run w = (.ok after, t)) (hrunning : after.current.state = .running) :
    GrantedFor host after.current.id step t.committed := by
  have hcalls := taskCalls_ofServices host decision execution verification
  obtain ⟨-, hcourse⟩ := runStep_course hcalls hw.idle h
  cases hcourse with
  | unauthorized _ _ _ hcurrent => rw [hcurrent, hready] at hrunning; cases hrunning
  | outputStopped _ _ _ _ hstate => rw [hstate] at hrunning; cases hrunning
  | settled _ _ _ hnot => exact absurd hrunning hnot
  | executionRaised current w₂ hraises _ _ hcurrent =>
    obtain ⟨plan, w₁, e, hauthorized, hraised⟩ := hraises
    have hw₁ := hw.after ((planWalk_draws decision execution verification).authorizeStep _ _ _ _)
      ((planWalk_registered decision execution verification).authorizeStep _ _ _ _) hauthorized
    have hgranted := granted_authorizeStep hw hauthorized
    have hkept : checkedPart w₂.committed = checkedPart w₁.committed :=
      checkedPart_of_raised hw₁.idle hraised
    have hw₂ := hw₁.executed hraised
    unfold runStep at h
    rcases guarded_returned h with ⟨_, u, hok, h⟩ | ⟨_, u, hfailed, -⟩
    · obtain ⟨hpair, rfl⟩ := Prod.mk.inj (hauthorized.symm.trans hok)
      obtain rfl := Except.ok.inj hpair
      rcases guarded_returned h with ⟨_, u, hreturned, -⟩ | ⟨_, u, hraised', h⟩
      · cases hraised.symm.trans hreturned
      · obtain ⟨-, rfl⟩ := Prod.mk.inj (hraised.symm.trans hraised')
        have hfail : Serves grantPart (failStep { progress with plan := plan, current := current } step) :=
          .bind (.bind (serves_savePlan unplanned_grantPart _) fun _ => .pure _) fun _ => .pure _
        have hsame := (hfail.leaves.run w₂ (congrArg grantPart hw₂.idle.working)).2
        rw [h] at hsame
        rw [hcurrent]
        refine hgranted.congr ((congrArg Prod.fst hsame).trans (congrArg Prod.fst hkept))
    · cases hauthorized.symm.trans hfailed

/-- INTERNAL: what has come of the compensations is what is owed.
SOURCE: execution/plan_runner.py:214-240 -/
theorem Compensated.iff_owed {s : Stop}
    (hkeys : ∀ node ∈ s.ordered, ∀ entry ∈ node.compensationArguments, isText entry.1 = true)
    (h : Compensated runner execution host s.step s.progress (compensations s.ordered s.step) s.world) :
    s.Compensates runner host ↔
      (s.owed = [] ∧ ∀ node delivered, ¬ ReachesInTurn execution host node delivered s.progress
        (compensations s.ordered s.step) s.world) ∨
      ∃ node delivered, s.owed = [node] ∧ Repeats host.py node s.step ∧
        delivered.arguments = node.compensationArguments.toDict host.py ∧
        ReachesInTurn execution host node delivered s.progress (compensations s.ordered s.step)
          s.world := by
  unfold Stop.Compensates Stop.undone
  cases h with
  | none hcalls hnot =>
    rw [hcalls]
    constructor
    · intro heq
      exact .inl ⟨List.map_eq_nil_iff.mp heq.symm, hnot⟩
    · rintro (⟨hnil, -⟩ | ⟨node, delivered, -, -, -, hturn⟩)
      · rw [hnil]
        rfl
      · exact absurd hturn (hnot _ _)
  | @one node entered hcalls htool hrepeats hreaches =>
    rw [hcalls, List.map_cons, List.map_nil]
    constructor
    · intro heq
      obtain ⟨other, hother, hsame⟩ := List.map_eq_singleton_iff.mp heq.symm
      obtain ⟨rfl, hrest⟩ := Prod.mk.inj hsame
      obtain ⟨-, harguments⟩ := Prod.mk.inj hrest
      refine .inr ⟨other, entered.delivered, hother, hrepeats, ?_, (hreaches _ _).mpr ⟨rfl, rfl⟩⟩
      rw [harguments, PyDict.toDict_ofDict]
    · rintro (⟨-, hnone⟩ | ⟨other, delivered, hother, -, harguments, hturn⟩)
      · exact absurd ((hreaches _ _).mpr ⟨rfl, rfl⟩) (hnone _ _)
      · obtain ⟨rfl, rfl⟩ := (hreaches _ _).mp hturn
        have hin : other ∈ s.ordered := s.owed_subset (by rw [hother]; exact List.mem_singleton_self _)
        rw [hother, List.map_cons, List.map_nil, htool, hrepeats.tool, harguments,
          PyDict.ofDict_toDict (hkeys other hin)]

/-- After a stop, the handlers that are called until the run ends are those called for the compensations.
They are the ones that are owed, with the arguments declared, if and only if nothing is owed and no
compensation passes every check when its turn comes, or one is owed, which asks for what the failed step
asked for, passes every check when its turn comes and gets no credentials or defaults in its arguments.
SOURCE: execution/plan_runner.py:209-240, execution/operation_graph.py:81-90,
execution/service.py:229-472, 483-555 -/
theorem compensates_iff (hpy : HashesTellApart host.py) (hw : History (planned host) {} w) {s : Stop}
    (hstop : stopOf (.ofServices host decision execution verification) host task actingUser
      explicitUserAck w = some s)
    (hkeys : ∀ node ∈ s.ordered, ∀ entry ∈ node.compensationArguments, isText entry.1 = true)
    {r : Except Err PlanRunResult}
    (hrun : ((PlanRunner.ofServices host decision execution verification).run host task actingUser
      explicitUserAck).run w = (r, t)) :
    handlersBetween s.world t =
      (s.undone (.ofServices host decision execution verification) host).map Prod.snd ∧
    (s.Compensates (.ofServices host decision execution verification) host ↔
      (s.owed = [] ∧ ∀ node delivered, ¬ ReachesInTurn execution host node delivered s.progress
        (compensations s.ordered s.step) s.world) ∨
      ∃ node delivered, s.owed = [node] ∧ Repeats host.py node s.step ∧
        delivered.arguments = node.compensationArguments.toDict host.py ∧
        ReachesInTurn execution host node delivered s.progress (compensations s.ordered s.step)
          s.world) := by
  have hexecute : (PlanRunner.ofServices host decision execution verification).execute =
      execution.execute host := rfl
  obtain ⟨_, hunwind⟩ := run_unwinds hstop hrun
  refine ⟨(handlersBetween_compensate hexecute hunwind).2, ?_⟩
  obtain ⟨plan, nodes, -, -, -, hloop⟩ := stopOf_eq hstop
  obtain ⟨before, begun, moreSteps, hbegun, hready, hturn⟩ := last_turn (poised_of_planned hw) hloop
  have hv : Poised host s.world := hbegun.after
    ((planWalk_draws decision execution verification).runStep _ _ _ _ _)
    ((planWalk_registered decision execution verification).runStep _ _ _ _ _) hturn
  have hcompensated : Compensated (.ofServices host decision execution verification) execution host s.step
      s.progress (compensations s.ordered s.step) s.world := by
    by_cases hrunning : s.progress.current.state = .running
    · exact undone_granted hpy hexecute hv (granted_runStep hbegun hready hturn hrunning)
    · have hspent : Spent host s.step s.progress.current s.world := .inl hrunning
      obtain ⟨hnothing, hnone⟩ := undone_spent hpy hexecute hv hspent
      exact .none hnothing hnone
  exact hcompensated.iff_owed hkeys

end Stopping

/-- The arguments of a step that another note undoes, one with these arguments. -/
def undoneBy (arguments : Dict) : Dict :=
  [("_graph", .dict [("compensation_tool", .str "notes"), ("compensation_arguments", .dict arguments)])]

/-- The arguments of a step whose policy is `compensate`. -/
def compensateArguments : Dict := [("_graph", .dict [("failure_policy", .str "compensate")])]

/-- A service that plans notes with these arguments, one after the other. -/
def notesOf (steps : List Dict) : PlanningService :=
  { notesPlanning answering with
    templates :=
      { templates := [("note", fun _ => .ok (steps.map fun arguments =>
          { tool := "notes", action := "add", arguments := arguments }))] } }

/-- The state after they were planned. -/
def plannedNotes (steps : List Dict) : World :=
  (((notesOf steps).createAndPlan exactHost { sessionId := "session", requestText := "note" }).run {}).2

/-- The runner over the notes. -/
def exactRunner (handler : ToolHandler) : PlanRunner := .ofServices exactHost {} (notesExecution handler) {}

/-- The stop of a run of their plan. -/
def notesStop (handler : ToolHandler) (steps : List Dict) : Option Stop :=
  stopOf (exactRunner handler) exactHost (firstTask (plannedNotes steps)) "user" true (plannedNotes steps)

/-- INTERNAL: they are planned by a public operation. -/
theorem plannedNotes_planned (steps : List Dict) : History (planned exactHost) {} (plannedNotes steps) :=
  History.start.returned_void (PlannedCall.service (.operation (Operation.createAndPlan (notesOf steps)
    { sessionId := "session", requestText := "note" })))

/-- A handler that fails for the arguments of the second note. -/
def refusingSecond : ToolHandler := fun request _ =>
  .ok { success := decide (request.arguments ≠ compensateArguments) }

/-- INTERNAL: of two notes the second fails, which is to be compensated. -/
theorem two_notes_stop : (notesStop refusingSecond [undoneBy [], compensateArguments]).any (fun s =>
    s.owed.length = 1 ∧
      (∀ node ∈ s.owed, ((exactRunner refusingSecond).tools.get
        (pyStr exactHost.py node.compensationTool)).isOk = true) ∧
      s.undone (exactRunner refusingSecond) exactHost = [] ∧
      ¬ s.Compensates (exactRunner refusingSecond) exactHost) = true := by
  decide +kernel

/-- The first note is not taken back: the task is FAILED when its compensation is executed. -/
theorem first_note_not_compensated :
    History (planned exactHost) {} (plannedNotes [undoneBy [], compensateArguments]) ∧
      ∃ s, notesStop refusingSecond [undoneBy [], compensateArguments] = some s ∧
        s.owed.length = 1 ∧
        (∀ node ∈ s.owed, ((exactRunner refusingSecond).tools.get
          (pyStr exactHost.py node.compensationTool)).isOk = true) ∧
        s.undone (exactRunner refusingSecond) exactHost = [] ∧
        ¬ s.Compensates (exactRunner refusingSecond) exactHost := by
  obtain ⟨s, hstop, hfound⟩ := (Option.any_eq_true _ _).mp two_notes_stop
  exact ⟨plannedNotes_planned _, s, hstop, of_decide_eq_true hfound⟩

/-- INTERNAL: of three notes the third repeats the second, and the first is undone by the same. -/
theorem three_notes_stop : (notesStop answering
      [undoneBy compensateArguments, compensateArguments, compensateArguments]).any (fun s =>
    s.owed.length = 1 ∧ (∀ node ∈ s.ordered, ∀ entry ∈ node.compensationArguments,
      isText entry.1 = true) ∧ s.Compensates (exactRunner answering) exactHost) = true := by
  decide +kernel

/-- The key of the third note is taken, so its execution raises, and the compensation asks for what was
authorized. -/
theorem first_note_compensated :
    ∃ s node delivered, notesStop answering
        [undoneBy compensateArguments, compensateArguments, compensateArguments] = some s ∧
      s.Compensates (exactRunner answering) exactHost ∧ s.owed = [node] ∧
      Repeats exactHost.py node s.step ∧
      ReachesInTurn (notesExecution answering) exactHost node delivered s.progress
        (compensations s.ordered s.step) s.world := by
  obtain ⟨s, hstop, hfound⟩ := (Option.any_eq_true _ _).mp three_notes_stop
  obtain ⟨hlength, hkeys, hcompensates⟩ := of_decide_eq_true hfound
  obtain ⟨-, hiff⟩ := compensates_iff hashesTellApart_exactHost (plannedNotes_planned _) hstop hkeys
    Prod.mk.eta.symm
  rcases hiff.mp hcompensates with ⟨hnil, -⟩ | ⟨node, delivered, howed, hrepeats, -, hturn⟩
  · rw [hnil] at hlength
    cases hlength
  · exact ⟨s, node, delivered, hstop, hcompensates, howed, hrepeats, hturn⟩

end Shea.Analysis
