import Shea.Analysis.ServiceCalls
import Shea.Analysis.ReceiptProtocol
import Shea.Model.Sample

/-!
# Histories of public operations

The operations of the planning, decision, security, execution, verification and recovery services, of
the orchestrator and of the supervisor, called one after the other with any arguments, each killed
at any point or not at all. Whatever the order, every step is a ledger step and every call ends at
rest: no transaction is open and the ledger is safe.

The services may be configured anew before each call; the reconcilers are the default ones.
-/

set_option autoImplicit false

namespace Shea.Analysis

open Shea.Computation Shea.Model

/-- Receipts, attempts and keys. -/
def ledgerPart (t : Tables) :
    List ExecutionReceipt × List ExecutionAttempt × List IdempotencyRecord :=
  (t.receipts, t.attempts, t.idempotency)

/-- INTERNAL: they are tables of the app plane. -/
theorem ofAppPlane_ledgerPart : OfAppPlane ledgerPart :=
  fun _ _ hr ha _ _ hi _ => by simp only [ledgerPart, hr, ha, hi]

/-- A call that takes ledger steps and ends at rest when it starts at rest. -/
def Rests {α : Type} (host : Host) (p : Proc α) : Prop :=
  ∀ w, Resting host w → p.Sat (Moves host) (fun _ t => Resting host t) w

section Rests

variable {α β : Type} {host : Host}

/-- INTERNAL: what leaves the ledger alone rests. -/
theorem Serves.rests {p : Proc α} (h : Serves ledgerPart p) : Rests host p := by
  intro w hw
  have hstep : ∀ a b : World, ledgerPart a.working = ledgerPart a.committed →
      Aside ledgerPart a b →
      Moves host a b ∧ ledgerPart b.working = ledgerPart b.committed := by
    intro a b ha hab
    obtain ⟨hworking, hcommitted⟩ := hab.keeps ha
    obtain ⟨events, hlog⟩ := hab.log
    obtain ⟨hr, hrest⟩ := Prod.mk.inj hcommitted
    obtain ⟨hat, hi⟩ := Prod.mk.inj hrest
    refine ⟨moves_of_same host hr hat hi (by rw [hlog, callsOf_published]) hab.nextId, ?_⟩
    rw [hworking, hcommitted, ha]
  have hmoves := h.steps.sat_of_inv hstep (congrArg ledgerPart hw.idle.working)
  have hsafe := hmoves.keep (fun _ _ => Safe.moves) hw.safe
  refine (hsafe.and (Program.sat_of_run (h.idle w hw.idle))).mono
    (fun _ _ hab => hab.1) fun _ t ht => ⟨ht.2, ht.1.2⟩

/-- INTERNAL: one call after the other. -/
theorem Rests.bind {p : Proc α} {f : α → Proc β} (hp : Rests host p) (hf : ∀ a, Rests host (f a)) :
    Rests host (p >>= f) := by
  intro w hw
  rw [Program.sat_bind]
  refine (hp w hw).post fun r t ht => ?_
  cases r with
  | ok a => exact hf a t ht
  | error e => exact ht

/-- INTERNAL: the result of a call does not matter. -/
theorem Rests.void {p : Proc α} (h : Rests host p) : Rests host p.void :=
  fun w hw => Program.sat_void (h w hw)

/-- INTERNAL: a call of the supervisor. -/
theorem rests_supervise (sup : ExecutionSupervisor) (contract : ExecutionContract) :
    Rests host (sup.execute host contract) := by
  intro w hw
  exact ((sat_execute sup host contract hw.idle hw.safe).keep (fun _ _ => Safe.moves) hw.safe).post
    fun _ _ h => ⟨h.1.idle, h.2⟩

/-- INTERNAL: a sweep. -/
theorem rests_reconcileStuck (adapters : List Adapter) :
    Rests host (ExecutionSupervisor.reconcileStuck { adapters := adapters } host) :=
  fun _ hw => (sat_reconcileStuck host adapters hw).mono (fun _ _ h => h.1)
    fun _ _ h => ⟨h.1, h.2.1⟩

/-- A call of the execution service: only the supervisor in its middle touches the ledger.
SOURCE: execution/service.py:229-481 -/
theorem rests_execute (service : ExecutionService) (task : Task) (request : ToolRequest) :
    Rests host (service.execute host task request) := by
  have hledger := ofAppPlane_ledgerPart.outlying.toUnrelated
  unfold ExecutionService.execute
  split
  · exact .bind (serves_prepare hledger service host task request).rests fun contract =>
      .bind (rests_supervise _ contract) fun supervision =>
      (serves_settle hledger service host task request supervision (fun _ _ => rfl)
        fun _ _ => rfl).rests
  · exact (Serves.throw _).rests

/-- INTERNAL: the sweep of the recovery service, with its audit rows. -/
theorem rests_reconcileAppPlane (adapters : List Adapter) (planner : RetryPolicy)
    (retry : RetryController) :
    Rests host (RecoveryService.reconcileAppPlane
      { supervisor := { adapters := adapters }, planner := planner, retry := retry } host) :=
  .bind (rests_reconcileStuck adapters) fun results =>
    .bind (Serves.withUow
      (serves_auditReconciled ofAppPlane_ledgerPart.outlying.toUnrelated host results).toWithin).rests
      fun _ => (Serves.pure _).rests

end Rests

/-- The public operations. -/
inductive Operation (host : Host) : Proc Unit → Prop
  | createTask (sessionId requestId : String) (profileSnapshot : Option Dict) :
      Operation host (Orchestrator.createTask host sessionId requestId profileSnapshot).void
  | advance (taskId event : String) : Operation host (Orchestrator.advance host taskId event).void
  | attachPlan (taskId planId : String) :
      Operation host (Orchestrator.attachPlan host taskId planId).void
  | cancelTask (taskId : String) : Operation host (Orchestrator.cancelTask host taskId).void
  | openRequest (sessionId requestText actor source profileId : String) :
      Operation host
        (PlanningService.openRequest host sessionId requestText actor source profileId).void
  | understand (service : PlanningService) (request : Request) (source : String) :
      Operation host (service.understand host request source).void
  | createAndPlan (service : PlanningService) (given : PlanningRequest) :
      Operation host (service.createAndPlan host given).void
  | answerConversationally (service : PlanningService) (draft : IntentDraft) :
      Operation host (service.answerConversationally draft).void
  | evaluateAndAuthorize (service : DecisionService) (task : Task)
      (request : AuthorizationRequest) :
      Operation host (service.evaluateAndAuthorize host task request).void
  | enforce (service : SecurityService) (task : Task) (request : ToolRequest) :
      Operation host (service.enforce host task request).void
  | scanOutput (service : SecurityService) (task : Task) (toolName : String) (data : Value) :
      Operation host (service.scanOutput host task toolName data).void
  | execute (service : ExecutionService) (task : Task) (request : ToolRequest) :
      Operation host (service.execute host task request).void
  | verify (service : VerificationService) (task : Task) (moreSteps : Bool) :
      Operation host (service.verify host task moreSteps).void
  | planRecovery (service : RecoveryService) (task : Task) :
      Operation host (service.planRecovery host task).void
  | beginRecovery (adapters : List Adapter) (planner : RetryPolicy) (retry : RetryController)
      (task : Task) :
      Operation host (RecoveryService.beginRecovery
        { supervisor := { adapters := adapters }, planner := planner, retry := retry } host
        task).void
  | resolveRecovery (service : RecoveryService) (task : Task) (compensator : Compensator) :
      Operation host (service.resolveRecovery host task compensator).void
  | stabilize (task : Task) : Operation host (RecoveryService.stabilize host task).void
  | resolveBlocked (service : RecoveryService) (task : Task) (resume : Bool) :
      Operation host (service.resolveBlocked host task resume).void
  | reconcileStrandedTasks (adapters : List Adapter) (planner : RetryPolicy)
      (retry : RetryController) :
      Operation host (RecoveryService.reconcileStrandedTasks
        { supervisor := { adapters := adapters }, planner := planner, retry := retry } host).void
  | supervise {p : Proc Unit} (h : SupervisorCall host p) : Operation host p

/-- Any sequence of public operations, each killed at any point or not at all. -/
def operations (host : Host) : Usage World Err := .free (Operation host) World.restart

/-- Every public operation takes ledger steps and ends at rest. -/
theorem Operation.rests {host : Host} {p : Proc Unit} (h : Operation host p) : Rests host p := by
  have hcore := ofAppPlane_ledgerPart.outlying
  have hunrelated := hcore.toUnrelated
  cases h with
  | createTask => exact (serves_createTask hunrelated host ..).rests.void
  | advance => exact (serves_advance hunrelated host ..).rests.void
  | attachPlan => exact (serves_attachPlan hunrelated host ..).rests.void
  | cancelTask => exact (serves_cancelTask hunrelated host ..).rests.void
  | openRequest => exact (serves_openRequest hcore.toUnsought host ..).rests.void
  | understand => exact (serves_understand hcore.toUnsought _ host ..).rests.void
  | createAndPlan => exact (serves_createAndPlan hcore.toUnplanned _ host _).rests.void
  | answerConversationally => exact (serves_answerConversationally _ _).rests.void
  | evaluateAndAuthorize => exact (serves_evaluateAndAuthorize hcore.toBeside _ host ..).rests.void
  | enforce => exact (serves_enforce hunrelated _ host ..).rests.void
  | scanOutput => exact (serves_scanOutput hunrelated _ host ..).rests.void
  | execute => exact (rests_execute _ _ _).void
  | verify => exact (serves_verify hunrelated (fun _ _ => rfl) _ host ..).rests.void
  | planRecovery => exact (serves_planRecovery hunrelated _ host _).rests.void
  | beginRecovery =>
    refine Rests.void (.bind (rests_reconcileAppPlane _ _ _) fun _ =>
      .bind (serves_getTask _).rests fun task => ?_)
    split
    · exact (serves_recoverFailed hunrelated hcore.recoveryAttempts _ host task).rests
    · exact (Serves.throw _).rests
  | resolveRecovery => exact (serves_resolveRecovery hunrelated hcore.recoveryAttempts _ host ..).rests.void
  | stabilize => exact (serves_stabilize hunrelated host _).rests.void
  | resolveBlocked => exact (serves_resolveBlocked hunrelated _ host ..).rests.void
  | reconcileStrandedTasks =>
    have hlist : Serves ledgerPart TaskRepository.listTransientTasks := .query _
    exact Rests.void (.bind (rests_reconcileAppPlane _ _ _) fun _ => .bind hlist.rests fun tasks =>
      (serves_settleAll hunrelated host tasks).rests)
  | supervise h => exact fun w hw => h.sat hw

/-- Every state between public operations is at rest. -/
theorem resting_of_operations {host : Host} {w : World} (h : History (operations host) {} w) :
    Resting host w :=
  History.invariant_of_sat (resting_empty host) (fun _ _ hp hw => hp.rests _ hw)
    (fun _ _ hw hc => hw.restart hc) h

/-- A handler whose backend does not answer in time. -/
def timingOut : ToolHandler :=
  fun _ _ => .ok { success := false, error := some "connection timed out" }

/-- The state in which the first task is authorized to take its note. -/
def authorizedFirst : World :=
  authorizedNote (.plain [] []) (plannedNote (.plain [] []) timingOut)

/-- INTERNAL: planning and authorization are public operations. -/
theorem history_authorizedFirst :
    History (operations (.plain [] [])) {} authorizedFirst := by
  have hplanned := (History.start : History (operations (.plain [] [])) {} {}).returned_void
    (Operation.createAndPlan (notesPlanning timingOut)
      { sessionId := "session", requestText := "note" })
  exact hplanned.returned_void (Operation.evaluateAndAuthorize {}
    (firstTask (plannedNote (.plain [] []) timingOut)) { capabilities := ["data.read"] })

end Shea.Analysis
