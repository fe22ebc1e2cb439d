import Shea.Analysis.Invariants

/-!
# Runs of plans, and what is registered

The rest of the walk through the services: planning, and the runner of plans. The runner only
sequences calls of its services, saves of plans and looks, so whatever property of calls goes through
sequences and exception handlers goes through a run of a plan (`PlanWalk`).

`Registered` is the invariant the later results rest on. Audit events and recovery attempts have ids
that were drawn, tasks have distinct ids and snapshots that can be written again. It holds in every
state between calls of the services and runs of plans, whatever was killed on the way.
-/

set_option autoImplicit false

namespace Shea.Analysis

open Shea.Computation Shea.Model

/-! ## Planning -/

section Planning

variable {host : Host} {may : String → String → Prop} {I : World → Prop} (hI : Lasting host may I)

include hI

/-- INTERNAL: an intent is saved. -/
theorem upholds_saveIntent (intent : Intent) : Upholds I (IntentRepository.save intent) :=
  .withUow hI.toFramed (.bind (upholds_requireSerializable _) fun _ =>
    upholds_executeChecked hI _ _ ⟨fun _ => rfl, fun _ => rfl, fun _ => rfl⟩)

omit hI in
/-- INTERNAL: the model is asked. -/
theorem upholds_generate (provider : ModelProvider) (prompt : ModelPrompt) :
    Upholds I (generate provider prompt) := .bind (.get _) fun _ => .ofExcept _

omit hI in
/-- INTERNAL: parsing writes nothing.
SOURCE: understanding/parser.py:118-155 -/
theorem upholds_parse (parser : IntentParser) (text : String) :
    Upholds I (parser.parse host text) := by
  refine .bind ?_ fun draft => ?_
  · unfold IntentParser.propose
    split
    · exact .pure _
    · unfold IntentParser.parseWithModel
      split
      · exact .throw _
      · refine .bind (upholds_generate _ _) fun _ => .tryCatch (.ofExcept _) fun e => ?_
        unfold IntentParser.retryShort
        split
        · exact .bind (upholds_generate _ _) fun _ => .ofExcept _
        · exact .throw _
  · split
    · exact .throw _
    · exact .pure _

/-- INTERNAL: a request is opened in its session. -/
theorem upholds_openRequest (sessionId requestText actor source profileId : String) :
    Upholds I
      (PlanningService.openRequest host sessionId requestText actor source profileId) := by
  refine .bind (.bind (.query _) fun session => ?_) fun _ => .bind (.newId hI.rows host) fun _ =>
    .bind (.now hI.rows host) fun _ => .bind (upholds_writeChecked hI _ _
      ⟨fun _ => rfl, fun _ => rfl, fun _ => rfl⟩) fun _ => .bind (.withUow hI.toFramed
      (.bind (.now hI.rows host) fun _ => upholds_execute hI
        ⟨fun _ => rfl, fun _ => rfl, fun _ => rfl⟩)) fun _ => .pure _
  cases session with
  | some session => exact .pure _
  | none =>
    exact .bind (.now hI.rows host) fun _ => .bind
      (upholds_write hI ⟨fun _ => rfl, fun _ => rfl, fun _ => rfl⟩) fun _ => .pure _

/-- INTERNAL: an intent is made of a draft. -/
theorem upholds_newIntent (requestId : String) (draft : IntentDraft) :
    Upholds I (PlanningService.newIntent host requestId draft) :=
  .bind (.newId hI.rows host) fun _ => .bind (.now hI.rows host) fun _ => .pure _

/-- INTERNAL: a request is understood. -/
theorem upholds_understand (service : PlanningService) (request : Request) (source : String) :
    Upholds I (service.understand host request source) := by
  refine .bind (.tryCatch (upholds_parse _ _) fun e => ?_) fun parsed =>
    .bind (upholds_newIntent hI _ _) fun _ => .bind (upholds_saveIntent hI _) fun _ => .pure _
  unfold PlanningService.reportMisunderstood
  split
  · exact .bind (upholds_audit hI _) fun _ => .throw _
  · exact .bind (upholds_audit hI _) fun _ => .throw _
  · exact .throw _

/-- INTERNAL: a failed parse is audited and moves the task.
SOURCE: planning/service.py:370-412 -/
theorem upholds_parseIntent (hblock : ∀ taskId, may taskId "block") (hfailed : ∀ taskId, may taskId "plan_failed")
    (service : PlanningService) (task : Task) (requestText source : String) :
    Upholds I (service.parseIntent host task requestText source) := by
  have hfail : ∀ entry event e, may task.id event → Upholds I (do
      audit host entry
      let _ ← Orchestrator.advance host task.id event
      throw e : Proc IntentDraft) := fun _ _ _ hmay =>
    .bind (upholds_audit hI _) fun _ => .bind (upholds_advance hI _ hmay) fun _ => .throw _
  refine .bind (.tryCatch (upholds_parse _ _) fun e => ?_) fun _ => .pure _
  unfold PlanningService.abandonParse
  split
  · exact hfail _ _ _ (hblock _)
  · exact hfail _ _ _ (hfailed _)
  · exact .throw _

/-- INTERNAL: the steps of a plan are inserted one after the other. -/
theorem upholds_savePlan (plan : Plan) : Upholds I (PlanRepository.save plan) := by
  have hinsert : ∀ steps, Upholds I (PlanRepository.insertSteps plan steps) := by
    intro steps
    induction steps with
    | nil => exact .pure _
    | cons step rest ih =>
      exact .bind (.bind (upholds_requireSerializable _) fun _ =>
        upholds_executeChecked hI _ _ ⟨fun _ => rfl, fun _ => rfl, fun _ => rfl⟩) fun _ => ih
  exact .withUow hI.toFramed (.bind
    (upholds_executeChecked hI _ _ ⟨fun _ => rfl, fun _ => rfl, fun _ => rfl⟩) fun _ =>
    .bind (upholds_execute hI ⟨fun _ => rfl, fun _ => rfl, fun _ => rfl⟩) fun _ => hinsert _)

/-- INTERNAL: a plan is built without writing; an invalid one fails the task.
SOURCE: planning/service.py:414-452 -/
theorem upholds_buildAndValidatePlan (hfailed : ∀ taskId, may taskId "plan_failed") (service : PlanningService)
    (task : Task) (intent : Intent) (draft : IntentDraft) :
    Upholds I (service.buildAndValidatePlan host task intent draft) := by
  have hsteps : ∀ planId index blueprints,
      Upholds I (PlanningService.newSteps host planId index blueprints) := by
    intro planId index blueprints
    induction blueprints generalizing index with
    | nil => exact .pure _
    | cons blueprint rest ih =>
      exact .bind (.newId hI.rows host) fun _ => .bind (ih _) fun _ => .pure _
  refine .bind (.ofExcept _) fun template => .tryCatch (.bind ?_ fun blueprints => ?_) fun e => ?_
  · unfold PlanningService.blueprintsFor
    split
    · exact .pure _
    · unfold PlanningService.planFromModel
      split
      · exact .throw _
      · exact .bind (upholds_generate _ _) fun _ => .ofExcept _
  · exact .bind (.newId hI.rows host) fun _ => .bind (hsteps _ _ _) fun _ =>
      .bind (.ofExcept _) fun _ => .pure _
  · have habandon : Upholds I (PlanningService.abandonPlan host task e) :=
      .bind (upholds_audit hI _) fun _ =>
        .bind (upholds_advance hI _ (hfailed _)) fun _ => .throw _
    unfold PlanningService.handleInvalid
    split
    · exact habandon
    · exact habandon
    · exact .throw _

/-- Planning.
SOURCE: planning/service.py:285-368 -/
theorem upholds_createAndPlan (hstart : ∀ taskId, may taskId "start_planning")
    (hblock : ∀ taskId, may taskId "block") (hfailed : ∀ taskId, may taskId "plan_failed")
    (hready : ∀ taskId, may taskId "plan_ready") (service : PlanningService)
    (given : PlanningRequest) : Upholds I (service.createAndPlan host given) := by
  refine .bind ?_ fun request => .bind ?_ fun snapshot =>
    .bind (upholds_createTask hI _ _ _) fun created =>
    .bind (upholds_advance hI _ (hstart _)) fun task => .bind ?_ fun understood =>
    .bind (upholds_buildAndValidatePlan hI hfailed service task _ _) fun plan =>
    .bind (.withUow hI.toFramed ?_) fun _ => .pure _
  · unfold PlanningService.requestFor
    split
    · exact .pure _
    · exact upholds_openRequest hI _ _ _ _ _
  · unfold PlanningService.snapshotFor
    split
    · exact .pure _
    · exact .bind (.now hI.rows host) fun _ => .pure _
  · unfold PlanningService.understandingFor
    split
    · exact .pure _
    · exact .bind (upholds_parseIntent hI hblock hfailed service _ _ _) fun _ =>
        .bind (upholds_newIntent hI _ _) fun _ => .pure _
  · have hintent : Upholds I (PlanningService.saveIntent understood.1.intent understood.2) := by
      unfold PlanningService.saveIntent
      split
      · exact .pure _
      · exact upholds_saveIntent hI _
    exact .bind hintent fun _ => .bind (upholds_savePlan hI plan) fun _ =>
      .bind (upholds_attachPlan hI _ _) fun _ => .bind (upholds_advance hI _ (hready _)) fun _ =>
      .bind (upholds_audit hI _) fun _ => .pure _

omit hI in
/-- INTERNAL: a request is answered without a plan. -/
theorem upholds_answerConversationally (service : PlanningService) (draft : IntentDraft) :
    Upholds I (service.answerConversationally draft) := by
  unfold PlanningService.answerConversationally
  split
  · exact .pure _
  · exact .throw _
  · exact .bind (upholds_generate _ _) fun _ => .pure _

end Planning

/-! ## Runs of plans -/

/-- The property goes through sequences and exception handlers. -/
structure Sequential (K : (α : Type) → Proc α → Prop) : Prop where
  pure : ∀ {α : Type} (a : α), K α (Pure.pure a)
  throw : ∀ {α : Type} (e : Err), K α (MonadExcept.throw e)
  bind : ∀ {α β : Type} {p : Proc α} {f : α → Proc β}, K α p → (∀ a, K β (f a)) → K β (p >>= f)
  attempt : ∀ {α : Type} {p : Proc α}, K α p → K (Except Err α) p.attempt
  tryCatch : ∀ {α : Type} {p : Proc α} {h : Err → Proc α}, K α p → (∀ e, K α (h e)) →
    K α (MonadExcept.tryCatch p h)

/-- What a runner calls has the property. -/
structure PlanWalk (K : (α : Type) → Proc α → Prop) (host : Host) (runner : PlanRunner) : Prop
    extends Sequential K where
  authorize : ∀ task request, K _ (runner.evaluateAndAuthorize task request)
  execute : ∀ task request, K _ (runner.execute task request)
  scan : ∀ task tool data, K _ (runner.scanOutput task tool data)
  verify : ∀ task moreSteps, K _ (runner.verify task moreSteps)
  getByTask : ∀ taskId, K _ (PlanRepository.getByTask taskId)
  save : ∀ plan, K _ (PlanRepository.save plan)
  now : K _ (now host)
  started : ∀ taskId stepId, K _ (note (.stepStarted taskId stepId))

namespace PlanWalk

open PlanRunner

variable {K : (α : Type) → Proc α → Prop} {host : Host} {runner : PlanRunner}
  (hK : PlanWalk K host runner)

include hK

/-- INTERNAL: a result that is passed on. -/
theorem ofExcept {α : Type} (x : Except Err α) : K α (Program.ofExcept x) := by
  cases x with
  | ok a => exact hK.pure a
  | error e => exact hK.throw e

/-- INTERNAL: a step is marked as failed. -/
theorem failStep (progress : Progress) (step : PlanStep) :
    K _ (PlanRunner.failStep progress step) :=
  hK.bind (hK.bind (hK.save _) fun _ => hK.pure _) fun _ => hK.pure _

/-- INTERNAL: a call of a service, whose errors fail the step. -/
theorem guarded {α : Type} (progress : Progress) (step : PlanStep) {call : Proc α}
    {next : α → Proc Progress} (hcall : K α call) (hnext : ∀ a, K _ (next a)) :
    K _ (PlanRunner.guarded progress step call next) := by
  refine hK.bind (hK.attempt hcall) fun r => ?_
  cases r with
  | ok a => exact hnext a
  | error e =>
    dsimp only
    split
    · exact hK.failStep progress step
    · exact hK.throw e

/-- INTERNAL: the run stops at a step. -/
theorem stopAt (progress : Progress) (step : PlanStep) : K _ (PlanRunner.stopAt progress step) :=
  hK.guarded _ _ (hK.failStep progress step) hK.pure

/-- INTERNAL: the steps of one turn of the loop, last first.
SOURCE: execution/plan_runner.py:133-209 -/
theorem verifyStep (progress : Progress) (step : PlanStep) (moreSteps : Bool) :
    K _ (PlanRunner.verifyStep runner progress step moreSteps) := by
  refine hK.guarded _ _ (hK.verify _ _) fun result => ?_
  split
  · exact hK.guarded _ _ (hK.bind (hK.save _) fun _ => hK.pure _) fun _ => hK.pure _
  · exact hK.stopAt _ _

/-- INTERNAL: what a step read is scanned. -/
theorem scanStep (progress : Progress) (step : PlanStep) (data : Value) (moreSteps : Bool) :
    K _ (PlanRunner.scanStep runner progress step data moreSteps) := by
  refine hK.guarded _ _ (hK.scan _ _ _) fun scan => ?_
  split
  · exact hK.stopAt _ _
  · exact hK.verifyStep _ _ _

/-- INTERNAL: a step is executed. -/
theorem executeStep (progress : Progress) (step : PlanStep) (moreSteps : Bool) :
    K _ (PlanRunner.executeStep runner progress step moreSteps) := by
  refine hK.guarded _ _ (hK.execute _ _) fun result => ?_
  dsimp only
  split
  · exact hK.stopAt _ _
  · split
    · exact hK.stopAt _ _
    · exact hK.scanStep _ _ _ _

/-- INTERNAL: a step is authorized. -/
theorem authorizeStep (progress : Progress) (step : PlanStep) (actingUser : String)
    (explicitUserAck : Bool) :
    K _ (PlanRunner.authorizeStep runner host progress step actingUser explicitUserAck) := by
  refine hK.bind (hK.bind (hK.save _) fun _ => hK.pure _) fun plan =>
    hK.bind (hK.ofExcept _) fun found => hK.bind (hK.ofExcept _) fun profileId =>
    hK.bind (hK.tryCatch (hK.authorize _ _) fun e => ?_) fun _ => hK.pure _
  unfold PlanRunner.noteConfirmation
  split
  · exact hK.bind hK.now fun _ => hK.throw _
  · exact hK.throw _

/-- INTERNAL: a step from its mark to its end. -/
theorem runStep (actingUser : String) (explicitUserAck : Bool) (progress : Progress)
    (step : PlanStep) (moreSteps : Bool) :
    K _ (PlanRunner.runStep runner host actingUser explicitUserAck progress step moreSteps) :=
  hK.guarded _ _ (hK.authorizeStep ..) fun _ => hK.executeStep _ _ _

/-- INTERNAL: the loop over the steps. -/
theorem runSteps (actingUser : String) (explicitUserAck : Bool) (progress : Progress)
    (steps : List PlanStep) :
    K _ (PlanRunner.runSteps runner host actingUser explicitUserAck progress steps) := by
  induction steps generalizing progress with
  | nil => exact hK.pure _
  | cons step rest ih =>
    unfold PlanRunner.runSteps
    split
    · exact hK.throw _
    · refine hK.bind (hK.started _ _) fun _ => hK.bind (hK.runStep ..) fun after => ?_
      split
      · exact hK.pure _
      · exact ih after

/-- INTERNAL: the compensations of a run. -/
theorem compensate (progress : Progress) (nodes : List OperationNode) :
    K _ (PlanRunner.compensate runner host progress nodes) := by
  induction nodes generalizing progress with
  | nil => exact hK.pure _
  | cons node rest ih =>
    exact hK.bind (hK.attempt (hK.execute _ _)) fun _ => hK.bind (hK.ofExcept _) fun _ => ih _

/-- INTERNAL: what follows the loop. -/
theorem unwind (ordered : List OperationNode) (progress : Progress) (stopped : Option PlanStep) :
    K _ (PlanRunner.unwind runner host ordered progress stopped) := by
  cases stopped with
  | none => exact hK.pure _
  | some step =>
    unfold PlanRunner.unwind
    dsimp only
    split
    · exact hK.compensate _ _
    · exact hK.pure _

/-- INTERNAL: a whole run. -/
theorem run (task : Task) (actingUser : String) (explicitUserAck : Bool) :
    K _ (runner.run host task actingUser explicitUserAck) := by
  refine hK.bind (hK.getByTask _) fun found => ?_
  cases found with
  | none => exact hK.throw _
  | some plan =>
    refine hK.bind (hK.ofExcept _) fun nodes => hK.bind (hK.ofExcept _) fun ordered => ?_
    unfold PlanRunner.runOrdered
    dsimp only
    split
    · exact hK.throw _
    · split
      · exact hK.pure _
      · exact hK.bind (hK.runSteps ..) fun _ => hK.bind (hK.unwind ..) fun _ => hK.pure _

end PlanWalk

/-! ## Calls of the services -/

section Calls

variable {host : Host} {I : World → Prop}

/-- INTERNAL: keeping an invariant goes through sequences. -/
theorem sequential_upholds (I : World → Prop) : Sequential fun _ p => Upholds I p :=
  { pure := fun a => .pure a
    throw := fun e => .throw e
    bind := fun hp hf => .bind hp hf
    attempt := fun hp => .attempt hp
    tryCatch := fun hp hh => .tryCatch hp hh }

/-- INTERNAL: what a runner over the services of the runtime calls keeps a lasting invariant that survives
the events these services fire. -/
theorem planWalk_upholds {may : String → String → Prop} (hI : Lasting host may I)
    (hmay : ∀ taskId event, event ≠ "retry" → may taskId event) (decision : DecisionService)
    (execution : ExecutionService) (verification : VerificationService) :
    PlanWalk (fun _ p => Upholds I p) host
      (PlanRunner.ofServices host decision execution verification) := by
  have hhalt : ∀ taskId, may taskId "security_halt" := fun _ => hmay _ _ (by decide)
  exact
    { toSequential := sequential_upholds I
      authorize := fun task request => upholds_evaluateAndAuthorize hI
        (fun _ => hmay _ _ (by decide)) decision task request
      execute := fun task request => upholds_execute_service hI hhalt
        (fun _ outcome => hmay _ _ (by cases outcome <;> decide)) execution task request
      scan := fun task tool data => upholds_scanOutput hI hhalt _ task tool data
      verify := fun task moreSteps => upholds_verify hI
        (fun _ verified more => hmay _ _ (by cases verified <;> cases more <;> decide))
        verification task moreSteps
      getByTask := fun _ => .query _
      save := upholds_savePlan hI
      now := .now hI.rows host
      started := fun _ _ => .note hI.rows _ }

/-- A run of a plan over the services of the runtime keeps such an invariant.
SOURCE: execution/plan_runner.py:101-257 -/
theorem upholds_runPlan {may : String → String → Prop} (hI : Lasting host may I)
    (hmay : ∀ taskId event, event ≠ "retry" → may taskId event) (decision : DecisionService)
    (execution : ExecutionService) (verification : VerificationService) (task : Task)
    (actingUser : String) (explicitUserAck : Bool) :
    Upholds I ((PlanRunner.ofServices host decision execution verification).run host task actingUser
      explicitUserAck) :=
  (planWalk_upholds hI hmay decision execution verification).run task actingUser explicitUserAck

/-- INTERNAL: every public operation, given its ways to RECOVERING. -/
theorem Operation.upholds {may : String → String → Prop} (hI : Lasting host may I)
    (hmay : ∀ taskId event, may taskId event) (hbegins : ∀ taskId, Begins host I taskId)
    {p : Proc Unit} (h : Operation host p) : Upholds I p := by
  cases h with
  | createTask => exact .void (upholds_createTask hI _ _ _)
  | advance => exact .void (upholds_advance hI _ (hmay _ _))
  | attachPlan => exact .void (upholds_attachPlan hI _ _)
  | cancelTask => exact .void (upholds_cancelTask hI _)
  | openRequest => exact .void (upholds_openRequest hI _ _ _ _ _)
  | understand => exact .void (upholds_understand hI _ _ _)
  | createAndPlan =>
    exact .void (upholds_createAndPlan hI (fun _ => hmay _ _) (fun _ => hmay _ _)
      (fun _ => hmay _ _) (fun _ => hmay _ _) _ _)
  | answerConversationally => exact .void (upholds_answerConversationally _ _)
  | evaluateAndAuthorize =>
    exact .void (upholds_evaluateAndAuthorize hI (fun _ => hmay _ _) _ _ _)
  | enforce => exact .void (upholds_enforce hI (fun _ => hmay _ _) _ _ _)
  | scanOutput => exact .void (upholds_scanOutput hI (fun _ => hmay _ _) _ _ _ _)
  | execute =>
    exact .void (upholds_execute_service hI (fun _ => hmay _ _) (fun _ _ => hmay _ _) _ _ _)
  | verify => exact .void (upholds_verify hI (fun _ _ _ => hmay _ _) _ _ _)
  | planRecovery => exact .void (upholds_planRecovery hI _ _)
  | beginRecovery =>
    exact .void (upholds_beginRecovery hI (hbegins _) (hmay _ _) (hmay _ _) _)
  | resolveRecovery => exact .void (upholds_resolveRecovery hI (fun _ _ => hmay _ _) _ _ _)
  | stabilize => exact .void (upholds_stabilize hI (fun _ => hmay _ _) _)
  | resolveBlocked => exact .void (upholds_resolveBlocked hI (fun _ _ => hmay _ _) _ _ _)
  | reconcileStrandedTasks =>
    exact .void (upholds_reconcileStrandedTasks hI (fun _ _ _ _ => hmay _ _) _)
  | supervise h =>
    cases h with
    | execute => exact .void (upholds_supervise hI _ _)
    | reconcileReceipt => exact .void (upholds_reconcileReceipt hI _ _)
    | reconcileStuck => exact .void (upholds_reconcileStuck hI _)

end Calls

/-- The public operations and the runs of plans. -/
inductive ServiceCall (host : Host) : Proc Unit → Prop
  | operation {p : Proc Unit} (h : Operation host p) : ServiceCall host p
  | runPlan (decision : DecisionService) (execution : ExecutionService)
      (verification : VerificationService) (task : Task) (actingUser : String)
      (explicitUserAck : Bool) :
      ServiceCall host ((PlanRunner.ofServices host decision execution verification).run host task
        actingUser explicitUserAck).void

/-- Any sequence of such calls, each killed at any point or not at all. -/
def services (host : Host) : Usage World Err := .free (ServiceCall host) World.restart

/-- INTERNAL: the public operations are among them. -/
theorem history_of_operations {host : Host} {w : World} (h : History (operations host) {} w) :
    History (services host) {} w := by
  induction h with
  | start => exact .start
  | returned _ hp ih => exact ih.returned (.operation hp)
  | crashed _ hp ih => exact ih.crashed (.operation hp)

section Rests

variable {host : Host}

/-- INTERNAL: resting goes through sequences. -/
theorem sequential_rests (host : Host) : Sequential fun _ p => Rests host p :=
  { pure := fun a => (Serves.pure a).rests
    throw := fun e => (Serves.throw e).rests
    bind := fun hp hf => hp.bind hf
    attempt := fun hp w hw => (Program.sat_attempt _).mpr (hp w hw)
    tryCatch := fun {_} {p} {h} hp hh w hw => by
      refine (Program.sat_tryCatch p h).mpr ((hp w hw).post fun r t ht => ?_)
      cases r with
      | ok a => exact ht
      | error e => exact hh e t ht }

/-- INTERNAL: taking up a step is logged, and is no call of an adapter. -/
theorem rests_started (taskId stepId : String) : Rests host (note (.stepStarted taskId stepId)) := by
  intro w hw
  have hlog : callsOf (w.log ++ [.stepStarted taskId stepId]) = callsOf w.log := by
    simp [callsOf]
  have hmoves : Moves host w { w with log := w.log ++ [.stepStarted taskId stepId] } :=
    moves_of_same host rfl rfl rfl hlog le_rfl
  exact ⟨hmoves, ⟨hw.idle.depth, hw.idle.working⟩, hw.safe.moves hmoves⟩

/-- INTERNAL: a call leaves no transaction open. -/
theorem ServiceCall.rests {p : Proc Unit} (h : ServiceCall host p) : Rests host p := by
  have hcore := ofAppPlane_ledgerPart.outlying
  cases h with
  | operation h => exact h.rests
  | runPlan decision execution verification task actingUser explicitUserAck =>
    have hwalk : PlanWalk (fun _ p => Rests host p) host
        (PlanRunner.ofServices host decision execution verification) :=
      { toSequential := sequential_rests host
        authorize := fun task request =>
          (serves_evaluateAndAuthorize hcore.toBeside decision host task request).rests
        execute := fun task request => rests_execute execution task request
        scan := fun task tool data =>
          (serves_scanOutput hcore.toUnrelated execution.security host task tool data).rests
        verify := fun task moreSteps =>
          (serves_verify hcore.toUnrelated (fun _ _ => rfl) verification host task moreSteps).rests
        getByTask := fun _ => (Serves.query _).rests
        save := fun plan => (serves_savePlan hcore.toUnplanned plan).rests
        now := (Serves.now host).rests
        started := rests_started }
    exact (hwalk.run task actingUser explicitUserAck).void

end Rests

/-! ## What is registered -/

/-- The id is one of the first ones. -/
def DrawnId (host : Host) (n : ℕ) (id : String) : Prop := ∃ k < n, id = host.newId k

/-- INTERNAL: an id stays drawn. -/
theorem DrawnId.mono {host : Host} {m n : ℕ} {id : String} (h : DrawnId host m id) (hle : m ≤ n) :
    DrawnId host n id := by
  obtain ⟨k, hk, hid⟩ := h
  exact ⟨k, hk.trans_le hle, hid⟩

/-- An id that is drawn later is another one. -/
theorem DrawnId.ne {host : Host} {m n : ℕ} {id : String} (h : DrawnId host m id) (hle : m ≤ n) :
    id ≠ host.newId n := by
  obtain ⟨k, hk, rfl⟩ := h
  exact fun heq => absurd (host.newId_injective heq) (by omega)

/-- The registers of the tables, when so many ids have been drawn. -/
structure Registered (host : Host) (n : ℕ) (t : Tables) : Prop where
  auditEvents : ∀ row ∈ t.auditEvents, DrawnId host n row.eventId
  recoveryAttempts : ∀ attempt ∈ t.recoveryAttempts, DrawnId host n attempt.id
  tasks : (t.tasks.map Task.id).Nodup
  snapshots : ∀ task ∈ t.tasks, Rewritable task

/-- The property holds of what the connection reads and of what is committed. -/
def Both (P : ℕ → Tables → Prop) (w : World) : Prop := P w.nextId w.working ∧ P w.nextId w.committed

/-- INTERNAL: a property of tables that later draws keep is framed. -/
theorem framed_both {P : ℕ → Tables → Prop} (hP : ∀ m n t, P m t → m ≤ n → P n t) :
    Framed (Both P) := by
  refine ⟨fun {a b} h hworking hcommitted hnext => ⟨?_, ?_⟩, fun h => ⟨h.1, h.1⟩,
    fun h => ⟨h.2, h.2⟩⟩
  · rw [hworking]
    exact hP _ _ _ h.1 hnext
  · rw [hcommitted]
    exact hP _ _ _ h.2 hnext

section Registers

variable {host : Host} {m n : ℕ} {t : Tables}

/-- INTERNAL: so do all ids of the tables. -/
theorem Registered.mono (h : Registered host m t) (hle : m ≤ n) : Registered host n t :=
  ⟨fun row hrow => (h.auditEvents row hrow).mono hle,
    fun attempt hattempt => (h.recoveryAttempts attempt hattempt).mono hle, h.tasks, h.snapshots⟩

/-- INTERNAL: a snapshot that was stored can be written again. -/
theorem writes_merge (old : Task) {task : Task} (h : Rewritable task) :
    Rewritable (TaskRepository.merge old (TaskRepository.stored task)) := by
  unfold Rewritable at *
  show (Value.dict ((task.profileSnapshot.filter _).getD [])).serializable = true
  cases hsnapshot : task.profileSnapshot with
  | none => rfl
  | some snapshot =>
    rw [hsnapshot] at h
    cases snapshot with
    | nil => rfl
    | cons entry rest => exact h

/-- INTERNAL: a task is saved. -/
theorem Registered.putTask (h : Registered host n t) {task : Task} (hwrites : Rewritable task) :
    Registered host n (TaskRepository.put task t) := by
  refine ⟨h.auditEvents, h.recoveryAttempts, Table.nodup_upsert keepsKey_task h.tasks _, ?_⟩
  intro row hrow
  rcases Table.mem_upsert hrow with rfl | ⟨old, -, -, rfl⟩ | hrow
  · exact writes_merge task hwrites
  · exact writes_merge old hwrites
  · exact h.snapshots row hrow

/-- INTERNAL: an audit entry is recorded under an id that was drawn. -/
theorem Registered.record (h : Registered host n t) {row : AuditEvent}
    (hrow : DrawnId host n row.eventId) : Registered host n (withAudit row t) := by
  refine ⟨fun row' hrow' => ?_, h.recoveryAttempts, h.tasks, h.snapshots⟩
  rcases List.mem_append.mp hrow' with hrow' | hrow'
  · exact h.auditEvents row' hrow'
  · obtain rfl := List.mem_singleton.mp hrow'
    exact hrow

/-- INTERNAL: an attempt is saved under an id that was drawn. -/
theorem Registered.saveAttempt (h : Registered host n t) {attempt : RecoveryAttempt}
    (hattempt : DrawnId host n attempt.id) : Registered host n (withAttempt attempt t) := by
  refine ⟨h.auditEvents, fun row hrow => ?_, h.tasks, h.snapshots⟩
  rcases Table.mem_upsert hrow with rfl | ⟨old, hold, -, rfl⟩ | hrow
  · exact hattempt
  · exact h.recoveryAttempts old hold
  · exact h.recoveryAttempts row hrow

/-- INTERNAL: nothing the services do hurts the registers. -/
theorem lasting_registered (host : Host) :
    Lasting host (fun _ _ => True) (Both (Registered host)) := by
  refine ⟨framed_both fun _ _ _ h hle => h.mono hle, ?_, ?_, ?_, ?_, ?_⟩
  · intro w statement h hfar
    refine ⟨⟨?_, ?_, ?_, ?_⟩, h.2⟩
    · exact hfar.auditEvents w.working ▸ h.1.auditEvents
    · exact hfar.recoveryAttempts w.working ▸ h.1.recoveryAttempts
    · exact hfar.tasks w.working ▸ h.1.tasks
    · exact hfar.tasks w.working ▸ h.1.snapshots
  · exact fun h hn hid => ⟨h.1.record ⟨_, hn, hid⟩, h.2⟩
  · exact fun h _ _ _ hwrites => ⟨h.1.putTask hwrites, h.2⟩
  · exact fun h _ _ hwrites => ⟨h.1.putTask hwrites, h.2⟩
  · intro w attempt old h hold hid _ _
    exact ⟨h.1.saveAttempt (hid ▸ h.1.recoveryAttempts old hold), h.2⟩

/-- INTERNAL: a recovery can begin. -/
theorem begins_registered (host : Host) (taskId : String) :
    Begins host (Both (Registered host)) taskId :=
  fun h hn hid _ => ⟨h.1.saveAttempt ⟨_, hn, hid⟩, h.2⟩

/-- INTERNAL: every call keeps the ids drawn. -/
theorem ServiceCall.upholds_registered {p : Proc Unit} (h : ServiceCall host p) :
    Upholds (Both (Registered host)) p := by
  have hI := lasting_registered host
  cases h with
  | operation h => exact h.upholds hI (fun _ _ => trivial) (begins_registered host)
  | runPlan => exact .void (upholds_runPlan hI (fun _ _ _ => trivial) _ _ _ _ _ _)

/-- INTERNAL: what every step of a call keeps, a crash keeps. -/
theorem Framed.restart {I : World → Prop} (hI : Framed I) {w v : World} (hw : I w)
    (h : Relation.ReflTransGen (fun a b => I b ∧ Commits a b) w v) : I v.restart := by
  have hv : I v := by
    cases h with
    | refl => exact hw
    | tail _ hlast => exact hlast.1
  exact hI.rows (hI.rollback hv) rfl rfl le_rfl

/-- Between calls the registers are in order. -/
theorem registered_of_services {w : World} (h : History (services host) {} w) :
    Registered host w.nextId w.committed := by
  have hempty : Registered host 0 {} :=
    ⟨by simp, by simp, List.nodup_nil, by simp⟩
  have hboth : Both (Registered host) w := by
    refine History.invariant_of_sat (I := Both (Registered host)) ⟨hempty, hempty⟩
      (fun p s hp hs => hp.upholds_registered s hs) (fun s v hs hchain => ?_) h
    exact (lasting_registered host).toFramed.restart hs hchain
  exact hboth.2

/-- Between calls no transaction is open. -/
theorem resting_of_services {w : World} (h : History (services host) {} w) : Resting host w :=
  History.invariant_of_sat (resting_empty host) (fun _ _ hp hw => hp.rests _ hw)
    (fun _ _ hw hc => hw.restart hc) h

end Registers

end Shea.Analysis
