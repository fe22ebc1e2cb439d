import Shea.Analysis.UnitOfWork
import Shea.Model.Execution
import Shea.Model.Decision
import Shea.Model.Verification
import Shea.Model.Recovery
import Shea.Model.Planning

/-!
# What the calls of the services leave alone

Apart from the supervisor, every service writes tables of the core only, publishes events and reads
the clock. `Serves part p` says this of a program: its steps leave a part of the database alone and
call no adapter and no handler, and it closes every transaction it opens. It is a property of the
text of the program: each rule below goes with one way to build a program.

`Within` is the same for what stands inside a transaction, where a statement may be left uncommitted.
-/

set_option autoImplicit false

namespace Shea.Analysis

open Shea.Computation Shea.Model

/-- A step that leaves the part alone and lets nothing but events out. -/
structure Aside {γ : Type} (part : Tables → γ) (w w' : World) : Prop where
  keeps : Keeps part w w'
  nextId : w.nextId ≤ w'.nextId
  log : ∃ events : List Event, w'.log = w.log ++ events.map .published

/-- A program that may stand inside a transaction. -/
structure Within {α γ : Type} (part : Tables → γ) (p : Proc α) : Prop where
  inner : Inner p
  steps : p.Guarantee (Aside part)

/-- A program that leaves no transaction open. -/
structure Serves {α γ : Type} (part : Tables → γ) (p : Proc α) : Prop extends Within part p where
  idle : ∀ w : World, w.Idle → (p.run w).2.Idle

section Rules

variable {α β γ : Type} {part : Tables → γ}

/-- INTERNAL: a step that changes no table and logs nothing. -/
theorem aside_of_eq {w w' : World} (hw : w'.working = w.working) (hc : w'.committed = w.committed)
    (hn : w.nextId ≤ w'.nextId) (hl : w'.log = w.log) : Aside part w w' :=
  ⟨Keeps.of_eq hw hc, hn, [], by simp [hl]⟩

namespace Within

/-- INTERNAL: a value that is returned. -/
theorem pure (a : α) : Within part (Pure.pure a : Proc α) := ⟨.pure a, Program.guarantee_pure a⟩

/-- INTERNAL: an error that is raised. -/
theorem throw (e : Err) : Within part (MonadExcept.throw e : Proc α) :=
  ⟨.throw e, Program.guarantee_throw e⟩

/-- INTERNAL: a result that is passed on. -/
theorem ofExcept (x : Except Err α) : Within part (Program.ofExcept x : Proc α) :=
  ⟨.ofExcept x, Program.guarantee_ofExcept x⟩

/-- INTERNAL: one program after the other. -/
theorem bind {p : Proc α} {f : α → Proc β} (hp : Within part p) (hf : ∀ a, Within part (f a)) :
    Within part (p >>= f) :=
  ⟨.bind hp.inner fun a => (hf a).inner, Program.guarantee_bind hp.steps fun a => (hf a).steps⟩

/-- INTERNAL: a handler. -/
theorem tryCatch {p : Proc α} {h : Err → Proc α} (hp : Within part p)
    (hh : ∀ e, Within part (h e)) : Within part (MonadExcept.tryCatch p h) :=
  ⟨.tryCatch hp.inner fun e => (hh e).inner,
    Program.guarantee_tryCatch hp.steps fun e => (hh e).steps⟩

/-- INTERNAL: a look at the state. -/
theorem get (view : World → α) : Within part (Program.get view : Proc α) :=
  ⟨.get view, Program.guarantee_get (fun _ => aside_of_eq rfl rfl le_rfl rfl) _⟩

/-- INTERNAL: a query. -/
theorem query (view : Tables → α) : Within part (Model.query view) := .get _

/-- INTERNAL: the clock. -/
theorem now (host : Host) : Within part (Model.now host) :=
  ⟨.now host, Program.guarantee_act _ fun _ => aside_of_eq rfl rfl le_rfl rfl⟩

/-- INTERNAL: a new id. -/
theorem newId (host : Host) : Within part (Model.newId host) :=
  ⟨.newId host, Program.guarantee_act _ fun _ => aside_of_eq rfl rfl (Nat.le_succ _) rfl⟩

/-- INTERNAL: publishing an event. -/
theorem publish (event : Event) : Within part (Model.note (.published event)) := by
  refine ⟨fun w hw => ⟨⟨⟨rfl, le_rfl, [event], rfl⟩, hw⟩, rfl⟩, ?_⟩
  exact Program.guarantee_modify fun w => ⟨Keeps.of_eq rfl rfl, le_rfl, [event], rfl⟩

/-- INTERNAL: a statement that does not touch the part. -/
theorem execute {statement : Tables → Tables} (h : ∀ t, part (statement t) = part t) :
    Within part (Model.execute statement) := by
  refine ⟨.execute statement, Program.guarantee_modify fun w => ⟨?_, le_rfl, [], by simp⟩⟩
  exact fun _ => ⟨h _, rfl⟩

/-- INTERNAL: the same under a constraint. -/
theorem executeChecked {statement : Tables → Tables} (holds : Tables → Bool) (message : String)
    (h : ∀ t, part (statement t) = part t) :
    Within part (Model.executeChecked holds message statement) := by
  refine ⟨.executeChecked holds message statement, Program.guarantee_bind ?_ fun ok => ?_⟩
  · refine Program.guarantee_act _ fun w => ?_
    split
    · exact ⟨fun _ => ⟨h _, rfl⟩, le_rfl, [], by simp⟩
    · exact aside_of_eq rfl rfl le_rfl rfl
  · split
    · exact Program.guarantee_pure _
    · exact Program.guarantee_throw _

/-- INTERNAL: the JSON check of a column. -/
theorem requireSerializable (d : Dict) : Within part (Model.requireSerializable d) := by
  unfold Model.requireSerializable
  split
  · exact .pure _
  · exact .throw _

/-- INTERNAL: leaving a block commits or rolls back two equal copies of the part. -/
theorem guarantee_withUow {body : Proc α} (h : body.Guarantee (Aside part)) :
    (Model.withUow body).Guarantee (Aside part) := by
  have hexit : ∀ (clean : Bool) (w : World), Aside part w (w.exit clean) := by
    intro clean w
    refine ⟨Keeps.exit clean w, ?_, [], ?_⟩ <;> unfold World.exit <;> split <;> try split
    all_goals simp
  refine Program.guarantee_bind (Program.guarantee_modify fun _ => ?_) fun _ =>
    Program.guarantee_bind (Program.guarantee_attempt h) fun r => ?_
  · exact aside_of_eq rfl rfl le_rfl rfl
  · cases r with
    | ok a =>
      exact Program.guarantee_bind (Program.guarantee_modify (hexit true)) fun _ =>
        Program.guarantee_pure _
    | error e =>
      exact Program.guarantee_bind (Program.guarantee_modify (hexit false)) fun _ =>
        Program.guarantee_throw _

end Within

namespace Serves

/-- INTERNAL: a value that is returned. -/
theorem pure (a : α) : Serves part (Pure.pure a : Proc α) := ⟨.pure a, fun _ h => h⟩

/-- INTERNAL: an error that is raised. -/
theorem throw (e : Err) : Serves part (MonadExcept.throw e : Proc α) := ⟨.throw e, fun _ h => h⟩

/-- INTERNAL: a result that is passed on. -/
theorem ofExcept (x : Except Err α) : Serves part (Program.ofExcept x : Proc α) :=
  ⟨.ofExcept x, fun _ h => by cases x <;> exact h⟩

/-- INTERNAL: one program after the other. -/
theorem bind {p : Proc α} {f : α → Proc β} (hp : Serves part p) (hf : ∀ a, Serves part (f a)) :
    Serves part (p >>= f) := by
  refine ⟨.bind hp.toWithin fun a => (hf a).toWithin, fun w hw => ?_⟩
  have h := hp.idle w hw
  rw [Program.run_bind]
  revert h
  rcases p.run w with ⟨r, t⟩
  cases r with
  | ok a => exact (hf a).idle t
  | error e => exact fun h => h

/-- INTERNAL: a handler. -/
theorem tryCatch {p : Proc α} {h : Err → Proc α} (hp : Serves part p)
    (hh : ∀ e, Serves part (h e)) : Serves part (MonadExcept.tryCatch p h) := by
  refine ⟨.tryCatch hp.toWithin fun e => (hh e).toWithin, fun w hw => ?_⟩
  have hidle := hp.idle w hw
  rw [show (MonadExcept.tryCatch p h : Proc α) = tryCatchThe Err p h from rfl]
  have hrun := Program.run_tryCatch p h w
  revert hidle hrun
  rcases p.run w with ⟨r, t⟩
  cases r with
  | ok a => exact fun hidle hrun => hrun ▸ hidle
  | error e => exact fun hidle hrun => hrun ▸ (hh e).idle t hidle

/-- INTERNAL: a look at the state. -/
theorem get (view : World → α) : Serves part (Program.get view : Proc α) := ⟨.get _, fun _ h => h⟩

/-- INTERNAL: a query. -/
theorem query (view : Tables → α) : Serves part (Model.query view) := .get _

/-- INTERNAL: the clock. -/
theorem now (host : Host) : Serves part (Model.now host) :=
  ⟨.now host, fun _ h => ⟨h.depth, h.working⟩⟩

/-- INTERNAL: a new id. -/
theorem newId (host : Host) : Serves part (Model.newId host) :=
  ⟨.newId host, fun _ h => ⟨h.depth, h.working⟩⟩

/-- INTERNAL: a block is a call of its own.
SOURCE: persistence/sqlite/unit_of_work.py:32-49 -/
theorem withUow {body : Proc α} (h : Within part body) : Serves part (Model.withUow body) := by
  refine ⟨⟨.withUow h.inner, Within.guarantee_withUow h.steps⟩, fun w hw => ?_⟩
  have hsat : (Model.withUow body).Sat (fun _ _ => True) (fun _ t => t.Idle) w :=
    sat_withUow h.inner hw (fun _ _ _ => trivial) (fun _ t _ _ => ⟨trivial, t.idle_commit⟩)
      fun _ t _ _ => t.idle_rollback
  exact hsat.run

/-- INTERNAL: a block of one statement. -/
theorem write {statement : Tables → Tables} (h : ∀ t, part (statement t) = part t) :
    Serves part (Model.withUow (Model.execute statement)) := .withUow (.execute h)

/-- INTERNAL: a block of one statement under a constraint. -/
theorem writeChecked {statement : Tables → Tables} (holds : Tables → Bool) (message : String)
    (h : ∀ t, part (statement t) = part t) :
    Serves part (Model.withUow (Model.executeChecked holds message statement)) :=
  .withUow (.executeChecked holds message h)

/-- INTERNAL: a published event. -/
theorem emit (host : Host) (source eventType : String) (payload : Dict)
    (correlationId : Option String) :
    Serves part (Model.emit host source eventType payload correlationId) :=
  .bind (.newId host) fun _ => .bind (.now host) fun _ =>
    ⟨.publish _, fun _ h => ⟨h.depth, h.working⟩⟩

/-- INTERNAL: such a call leaves the part alone wherever it is killed. -/
theorem leaves {p : Proc α} (h : Serves part p) : Leaves part p := h.steps.mono fun _ _ hab => hab.keeps

end Serves

end Rules

/-! ## Tasks, the audit log and the security service -/

/-- The part has nothing to do with tasks and the audit log. -/
structure Unrelated {γ : Type} (part : Tables → γ) : Prop where
  tasks : ∀ t rows, part { t with tasks := rows } = part t
  auditEvents : ∀ t rows, part { t with auditEvents := rows } = part t

section Orchestration

variable {γ : Type} {part : Tables → γ}

/-- INTERNAL: an audit entry leaves alone what is not in the audit log. -/
theorem serves_entry (haudit : ∀ t rows, part { t with auditEvents := rows } = part t) (host : Host)
    (entry : AuditEntry) : Serves part (audit host entry) :=
  .bind (.newId host) fun _ => .bind (.now host) fun _ =>
    .withUow (.bind (.requireSerializable _) fun _ => .executeChecked _ _ fun t => haudit t _)

variable (hpart : Unrelated part)

include hpart

/-- INTERNAL: an audit entry. -/
theorem serves_audit (host : Host) (entry : AuditEntry) : Serves part (audit host entry) :=
  serves_entry hpart.auditEvents host entry

/-- INTERNAL: a task is saved. -/
theorem serves_saveTask (task : Task) : Serves part (TaskRepository.save task) :=
  .withUow (.bind (.requireSerializable _) fun _ => .execute fun t => hpart.tasks t _)

/-- INTERNAL: with an audit entry. -/
theorem serves_saveAudited (host : Host) (task : Task) (entry : AuditEntry) :
    Serves part (Orchestrator.saveAudited host task entry) :=
  .withUow (.bind (serves_saveTask hpart task).toWithin fun _ =>
    (serves_audit hpart host entry).toWithin)

omit hpart in
/-- INTERNAL: a task is read. -/
theorem serves_getTask (taskId : String) : Serves part (Orchestrator.getTask taskId) := by
  refine .bind (.query _) fun found => ?_
  cases found with
  | none => exact .throw _
  | some task => exact .pure _

/-- INTERNAL: a task is created. -/
theorem serves_createTask (host : Host) (sessionId requestId : String)
    (profileSnapshot : Option Dict) :
    Serves part (Orchestrator.createTask host sessionId requestId profileSnapshot) :=
  .bind (.now host) fun _ => .bind (.newId host) fun _ =>
    .bind (serves_saveAudited hpart host _ _) fun _ => .bind (.emit ..) fun _ => .pure _

/-- INTERNAL: a move, accepted or rejected.
SOURCE: core/orchestrator.py:95-140 -/
theorem serves_advance (host : Host) (taskId event : String) :
    Serves part (Orchestrator.advance host taskId event) := by
  refine .bind (serves_getTask taskId) fun task => ?_
  split
  · exact .bind (serves_audit hpart host _) fun _ => .throw _
  · exact .bind (.now host) fun _ => .bind (serves_saveAudited hpart host _ _) fun _ =>
      .bind (.emit ..) fun _ => .pure _

/-- INTERNAL: a plan is given to a task. -/
theorem serves_attachPlan (host : Host) (taskId planId : String) :
    Serves part (Orchestrator.attachPlan host taskId planId) :=
  .bind (serves_getTask taskId) fun _ => .bind (serves_saveAudited hpart host _ _) fun _ =>
    .bind (.emit ..) fun _ => .pure _

/-- INTERNAL: a task is cancelled. -/
theorem serves_cancelTask (host : Host) (taskId : String) :
    Serves part (Orchestrator.cancelTask host taskId) := by
  refine .bind (serves_getTask taskId) fun task => ?_
  split
  · exact .pure _
  · exact .bind (serves_saveTask hpart _) fun _ => .bind (.emit ..) fun _ => .pure _

/-- INTERNAL: the gate writes audit rows, and the task of a violation.
SOURCE: security/service.py:58-118 -/
theorem serves_enforce (service : SecurityService) (host : Host) (task : Task)
    (request : ToolRequest) : Serves part (service.enforce host task request) := by
  unfold SecurityService.enforce
  split
  · exact .throw _
  · split
    · refine .bind (.withUow ?_) fun _ => .bind (.emit ..) fun _ => .throw _
      exact .bind (serves_audit hpart host _).toWithin fun _ =>
        .bind (serves_advance hpart host _ _).toWithin fun _ => .pure _
    · exact .throw _
    · exact .bind (serves_audit hpart host _) fun _ => .emit ..

/-- INTERNAL: so does the scan of an output.
SOURCE: security/service.py:120-158 -/
theorem serves_scanOutput (service : SecurityService) (host : Host) (task : Task)
    (toolName : String) (data : Value) :
    Serves part (service.scanOutput host task toolName data) := by
  unfold SecurityService.scanOutput
  dsimp only
  split
  · refine .bind (.bind (serves_audit hpart host _) fun _ => .emit ..) fun _ =>
      .bind ?_ fun _ => .pure _
    unfold SecurityService.haltFlagged
    split
    · exact .bind (.withUow (serves_advance hpart host _ _).toWithin) fun _ => .throw _
    · exact .pure _
  · exact .pure _

/-! ## The execution service, around the supervisor -/

omit hpart in
/-- INTERNAL: checking the authorization only reads.
SOURCE: execution/service.py:483-555 -/
theorem serves_verifyAuthorizationBinding (host : Host) (task : Task) (request : ToolRequest) :
    Serves part (verifyAuthorizationBinding host task request) := by
  refine .bind (.query _) fun auths => ?_
  split
  · exact .throw _
  · refine .bind (.ofExcept _) fun _ => .bind (.ofExcept _) fun _ => .bind ?_ fun _ =>
      .bind (.query _) fun _ => .ofExcept _
    unfold checkUnexpired
    split
    · exact .pure _
    · refine .bind (.now host) fun at_ => ?_
      split
      · exact .throw _
      · exact .pure _

omit hpart in
/-- INTERNAL: a duplicate is answered from its record. -/
theorem serves_suppressDuplicate (haudit : ∀ t rows, part { t with auditEvents := rows } = part t)
    (host : Host) (task : Task) (request : ToolRequest) (key : String) :
    Serves part (ExecutionService.suppressDuplicate host task request key) := by
  refine .bind (.query _) fun prior => ?_
  cases prior with
  | none => exact .pure _
  | some prior =>
    dsimp only
    split
    · exact .pure _
    · exact .bind (serves_entry haudit host _) fun _ => .throw _

omit hpart in
/-- INTERNAL: the capabilities of the decision. -/
theorem serves_decidedCapabilities (task : Task) :
    Serves part (ExecutionService.decidedCapabilities task) := by
  refine .bind (.query _) fun decision => ?_
  cases decision with
  | none => exact .throw _
  | some decision => exact .pure _

omit hpart in
/-- INTERNAL: the check of them. -/
theorem serves_requireCapabilities (haudit : ∀ t rows, part { t with auditEvents := rows } = part t)
    (service : ExecutionService) (host : Host) (task : Task) (request : ToolRequest)
    (capabilities : List String) :
    Serves part (service.requireCapabilities host task request capabilities) := by
  unfold ExecutionService.requireCapabilities
  split
  · exact .pure _
  · exact .bind (serves_entry haudit host _) fun _ => .throw _
  · exact .throw _

omit hpart in
/-- INTERNAL: the newest authorization. -/
theorem serves_newestAuthorization (task : Task) :
    Serves part (ExecutionService.newestAuthorization task) := by
  refine .bind (.query _) fun auths => ?_
  split
  · exact .throw _
  · exact .pure _

omit hpart in
/-- INTERNAL: the checks after the security gate write audit rows only.
SOURCE: execution/service.py:240-340 -/
theorem serves_checks (haudit : ∀ t rows, part { t with auditEvents := rows } = part t)
    (service : ExecutionService) (host : Host) (task : Task) (request : ToolRequest) :
    Serves part (do
      verifyAuthorizationBinding host task request
      ExecutionService.suppressDuplicate host task request (generateKey host.py task.id request)
      let capabilities ← ExecutionService.decidedCapabilities task
      service.requireCapabilities host task request capabilities
      let auth ← ExecutionService.newestAuthorization task
      let contractId ← newId host
      pure (service.contractOf host.py task request capabilities auth
        (generateKey host.py task.id request) contractId)) :=
  .bind (serves_verifyAuthorizationBinding host task request) fun _ =>
    .bind (serves_suppressDuplicate haudit host task request _) fun _ =>
    .bind (serves_decidedCapabilities task) fun _ =>
    .bind (serves_requireCapabilities haudit service host task request _) fun _ =>
    .bind (serves_newestAuthorization task) fun _ => .bind (.newId host) fun _ => .pure _

/-- Everything before the supervisor writes audit rows and tasks only.
SOURCE: execution/service.py:229-340 -/
theorem serves_prepare (service : ExecutionService) (host : Host) (task : Task)
    (request : ToolRequest) : Serves part (service.prepare host task request) :=
  .bind (serves_enforce hpart service.security host task request) fun _ =>
    serves_checks hpart.auditEvents service host task request

omit hpart in
/-- INTERNAL: an authorization is used up. -/
theorem serves_consume (host : Host) (task : Task) (outcome : ExecutionOutcome)
    (hauthorizations : ∀ t rows, part { t with authorizations := rows } = part t) :
    Serves part (ExecutionService.consume host task outcome) := by
  unfold ExecutionService.consume
  split
  · refine .bind (.query _) fun auths => ?_
    split
    · exact .pure _
    · unfold ExecutionService.markUsed
      split
      · exact .bind (.now host) fun _ => .writeChecked _ _ fun t => hauthorizations t _
      · exact .pure _
  · exact .pure _

/-- What follows the supervisor's answer leaves the app plane alone.
SOURCE: execution/service.py:342-471 -/
theorem serves_settle (service : ExecutionService) (host : Host) (task : Task)
    (request : ToolRequest) (supervision : SupervisionResult)
    (hauthorizations : ∀ t rows, part { t with authorizations := rows } = part t)
    (hexecutions : ∀ t rows, part { t with toolExecutions := rows } = part t) :
    Serves part (service.settle host task request supervision) := by
  refine .bind (.ofExcept _) fun outcome =>
    .bind (serves_scanOutput hpart service.security host task _ _) fun scan =>
    .bind ?_ fun response => .bind (.withUow ?_) fun _ => .pure _
  · unfold ExecutionService.screen
    split
    · exact .bind (serves_audit hpart host _) fun _ => .pure _
    · exact .pure _
  · exact .bind (.newId host) fun _ =>
      .bind (Serves.writeChecked _ _ fun t => hexecutions t _).toWithin fun _ =>
      .bind (serves_audit hpart host _).toWithin fun _ =>
      .bind (Serves.emit host _ _ _ _).toWithin fun _ =>
      .bind (serves_consume host task outcome hauthorizations).toWithin fun _ =>
      (serves_advance hpart host _ _).toWithin

end Orchestration

/-! ## The other services -/

/-- The part has nothing to do with what authorizing and recovering write. -/
structure Beside {γ : Type} (part : Tables → γ) : Prop extends Unrelated part where
  riskAssessments : ∀ t rows, part { t with riskAssessments := rows } = part t
  decisions : ∀ t rows, part { t with decisions := rows } = part t
  authorizations : ∀ t rows, part { t with authorizations := rows } = part t
  recoveryAttempts : ∀ t rows, part { t with recoveryAttempts := rows } = part t

section Services

variable {γ : Type} {part : Tables → γ} (hpart : Beside part)

include hpart

/-- INTERNAL: the saves of the core's repositories. -/
theorem serves_saveRiskAssessment (row : RiskAssessment) :
    Serves part (RiskAssessmentRepository.save row) :=
  .writeChecked _ _ fun t => hpart.riskAssessments t _

/-- INTERNAL: a decision is saved. -/
theorem serves_saveDecision (row : Decision) : Serves part (DecisionRepository.save row) :=
  .writeChecked _ _ fun t => hpart.decisions t _

/-- INTERNAL: an authorization is saved. -/
theorem serves_saveAuthorization (row : Authorization) :
    Serves part (AuthorizationRepository.save row) :=
  .writeChecked _ _ fun t => hpart.authorizations t _

omit hpart in
/-- INTERNAL: a recovery attempt is saved. -/
theorem serves_saveRecoveryAttempt
    (hattempts : ∀ t rows, part { t with recoveryAttempts := rows } = part t)
    (row : RecoveryAttempt) : Serves part (RecoveryAttemptRepository.save row) :=
  .writeChecked _ _ fun t => hattempts t _

omit hpart in
/-- INTERNAL: every way to an authorization draws an id, or audits and raises.
SOURCE: decision/service.py:247-314 -/
theorem serves_resolveAuthorization
    (haudit : ∀ t rows, part { t with auditEvents := rows } = part t) (host : Host) (task : Task)
    (decision : Decision) (assessment : RiskAssessment) (request : AuthorizationRequest) :
    Serves part (DecisionService.resolveAuthorization host task decision assessment request) := by
  refine .bind ?_ fun plan => .bind (.get _) fun nonce => .bind (.now host) fun at_ => ?_
  · unfold DecisionService.resolvedPlan
    split
    · exact .pure _
    · split
      · exact .query _
      · exact .pure _
  · have hgrant : ∀ binding expiresAt grantedBy explicit, Serves part
        (DecisionService.grant host task binding expiresAt grantedBy explicit) :=
      fun _ _ _ _ => .bind (.newId host) fun _ => .pure _
    unfold DecisionService.decide
    split
    · exact hgrant _ _ _ _
    · split
      · exact hgrant _ _ _ _
      · split
        · exact hgrant _ _ _ _
        · exact .bind (.withUow (serves_entry haudit host _).toWithin) fun _ => .throw _

/-- Authorizing reads the plan and writes core tables.
SOURCE: decision/service.py:118-245 -/
theorem serves_evaluateAndAuthorize (service : DecisionService) (host : Host) (task : Task)
    (request : AuthorizationRequest) :
    Serves part (service.evaluateAndAuthorize host task request) := by
  have haudit := serves_audit hpart.toUnrelated host
  have hauthorize : ∀ verdict, Serves part (service.authorize host task request verdict) := by
    refine fun verdict => .bind (.newId host) fun _ => .bind (.newId host) fun _ =>
      .bind (serves_resolveAuthorization hpart.auditEvents host task _ _ request) fun _ =>
      .bind (.withUow ?_) fun _ => .pure _
    exact .bind (serves_saveRiskAssessment hpart _).toWithin fun _ =>
      .bind (serves_saveDecision hpart _).toWithin fun _ =>
      .bind (serves_saveAuthorization hpart _).toWithin fun _ =>
      .bind (haudit _).toWithin fun _ => .bind (haudit _).toWithin fun _ =>
      .bind (haudit _).toWithin fun _ => (serves_advance hpart.toUnrelated host _ _).toWithin
  unfold DecisionService.evaluateAndAuthorize
  split
  · exact .bind (.withUow (haudit _).toWithin) fun _ => .throw _
  · exact hauthorize _

end Services

section Recovery

variable {γ : Type} {part : Tables → γ}

/-- INTERNAL: the authority of a recovery is read off decision, authorization and clock.
SOURCE: recovery/service.py:183-207 -/
theorem serves_authorizeRecovery (service : RecoveryService) (host : Host) (task : Task)
    (operation : String) (attemptsMade : ℕ) :
    Serves part (service.authorize host task operation attemptsMade) := by
  refine .bind (.bind (.bind (.query _) fun decision => ?_) fun _ => .bind (.now host) fun _ =>
    .ofExcept _) fun _ => .bind (.now host) fun _ => .bind (.ofExcept _) fun _ => .pure _
  cases decision with
  | none => exact .throw _
  | some decision =>
    refine .bind (.query _) fun auths => ?_
    split
    · exact .throw _
    · exact .pure _

variable (hpart : Unrelated part)

include hpart

/-- INTERNAL: a recovery is planned. -/
theorem serves_planRecovery (service : RecoveryService) (host : Host) (task : Task) :
    Serves part (service.planRecovery host task) := by
  unfold RecoveryService.planRecovery
  split
  · refine .bind (.query _) fun execution => ?_
    cases execution with
    | none => exact .throw _
    | some execution =>
      exact .bind (.query _) fun _ => .bind (.query _) fun _ =>
        .bind (serves_audit hpart host _) fun _ => .pure _
  · exact .throw _

/-- INTERNAL: `begin_recovery` after the sweep.
SOURCE: recovery/service.py:209-277 -/
theorem serves_recoverFailed
    (hattempts : ∀ t rows, part { t with recoveryAttempts := rows } = part t)
    (service : RecoveryService) (host : Host) (task : Task) :
    Serves part (service.recoverFailed host task) := by
  refine .bind (.query _) fun previous => .bind (serves_authorizeRecovery service host ..)
    fun authority => ?_
  split
  · refine .bind (serves_planRecovery hpart service host task) fun decision => ?_
    unfold RecoveryService.follow
    split
    · exact serves_advance hpart host _ _
    · exact .throw _
    · exact .bind (.get _) fun _ => .bind (.withUow (.bind (.newId host) fun _ =>
        .bind (serves_saveRecoveryAttempt hattempts _).toWithin fun _ =>
        (serves_audit hpart host _).toWithin)) fun _ =>
        serves_advance hpart host _ _
  · exact .throw _

/-- INTERNAL: a recovery is resolved. -/
theorem serves_resolveRecovery
    (hattempts : ∀ t rows, part { t with recoveryAttempts := rows } = part t)
    (service : RecoveryService) (host : Host) (task : Task) (compensator : Compensator) :
    Serves part (service.resolveRecovery host task compensator) := by
  unfold RecoveryService.resolveRecovery
  split
  · refine .bind (.query _) fun attempt => ?_
    cases attempt with
    | none => exact .throw _
    | some attempt =>
      exact .bind (serves_authorizeRecovery service host ..) fun _ => .bind (.get _) fun _ =>
        .bind (.ofExcept _) fun _ => .withUow (.bind (serves_saveRecoveryAttempt hattempts _).toWithin
          fun _ => .bind (serves_audit hpart host _).toWithin fun _ =>
          (serves_advance hpart host ..).toWithin)
  · exact .throw _

/-- INTERNAL: a task is declared stable. -/
theorem serves_stabilize (host : Host) (task : Task) :
    Serves part (RecoveryService.stabilize host task) := by
  unfold RecoveryService.stabilize
  split
  · exact .withUow (.bind (serves_audit hpart host _).toWithin fun _ =>
      (serves_advance hpart host ..).toWithin)
  · exact .throw _

/-- INTERNAL: a blocked task is resumed or cancelled. -/
theorem serves_resolveBlocked (service : RecoveryService) (host : Host) (task : Task)
    (resume : Bool) : Serves part (service.resolveBlocked host task resume) := by
  unfold RecoveryService.resolveBlocked
  split
  · exact .bind (serves_authorizeRecovery service host ..) fun _ =>
      .bind (serves_audit hpart host _) fun _ => serves_advance hpart host ..
  · exact .throw _

/-- INTERNAL: the audit rows of a sweep. -/
theorem serves_auditReconciled (host : Host) (results : List ReconciliationResult) :
    Serves part (RecoveryService.auditReconciled host results) := by
  induction results with
  | nil => exact .pure _
  | cons item rest ih =>
    refine .bind ?_ fun _ => ih
    unfold RecoveryService.auditItem
    split
    · exact .pure _
    · exact serves_audit hpart host _

/-- INTERNAL: the tasks a shutdown left behind are moved one after the other.
SOURCE: recovery/service.py:411-444 -/
theorem serves_settleAll (host : Host) (tasks : List Task) :
    Serves part (RecoveryService.settleAll host tasks) := by
  induction tasks with
  | nil => exact .pure _
  | cons task rest ih =>
    unfold RecoveryService.settleAll
    split
    · exact ih
    · exact .bind (.bind (serves_advance hpart host ..) fun _ =>
        .bind (serves_audit hpart host _) fun _ => .pure _) fun _ =>
        .bind ih fun _ => .pure _

end Recovery

/-- Verification writes its record, an audit row and the task.
SOURCE: verification/service.py:84-149 -/
theorem serves_verify {γ : Type} {part : Tables → γ} (hpart : Unrelated part)
    (hverifications : ∀ t rows, part { t with verifications := rows } = part t)
    (service : VerificationService) (host : Host) (task : Task) (moreSteps : Bool) :
    Serves part (service.verify host task moreSteps) := by
  unfold VerificationService.verify
  split
  · refine .bind (.query _) fun record => ?_
    cases record with
    | none => exact .throw _
    | some record =>
      exact .bind (.get _) fun _ => .bind (.ofExcept _) fun outcome => .bind (.newId host) fun _ =>
        .bind (.withUow (.bind (Serves.writeChecked _ _ fun t => hverifications t _).toWithin
          fun _ => .bind (serves_audit hpart host _).toWithin fun _ =>
          (serves_advance hpart host _ _).toWithin)) fun _ => .pure _
  · exact .throw _

/-! ## Planning -/

/-- The part has nothing to do with requests and what is made of them. -/
structure Unasked {γ : Type} (part : Tables → γ) : Prop extends Beside part where
  sessions : ∀ t rows, part { t with sessions := rows } = part t
  requests : ∀ t rows, part { t with requests := rows } = part t
  intents : ∀ t rows, part { t with intents := rows } = part t

/-- The part has nothing to do with what planning writes. -/
structure Outlying {γ : Type} (part : Tables → γ) : Prop extends Unasked part where
  plans : ∀ t rows, part { t with plans := rows } = part t
  planSteps : ∀ t rows, part { t with planSteps := rows } = part t

/-- The part has nothing to do with what a request is made into before it is planned. -/
structure Unsought {γ : Type} (part : Tables → γ) : Prop extends Unrelated part where
  sessions : ∀ t rows, part { t with sessions := rows } = part t
  requests : ∀ t rows, part { t with requests := rows } = part t
  intents : ∀ t rows, part { t with intents := rows } = part t

/-- The part has nothing to do with plans either. -/
structure Unplanned {γ : Type} (part : Tables → γ) : Prop extends Unsought part where
  plans : ∀ t rows, part { t with plans := rows } = part t
  planSteps : ∀ t rows, part { t with planSteps := rows } = part t

/-- INTERNAL: what is beside the tasks too is not sought before planning. -/
theorem Unasked.toUnsought {γ : Type} {part : Tables → γ} (h : Unasked part) : Unsought part :=
  ⟨h.toUnrelated, h.sessions, h.requests, h.intents⟩

/-- INTERNAL: nor is it planned. -/
theorem Outlying.toUnplanned {γ : Type} {part : Tables → γ} (h : Outlying part) : Unplanned part :=
  ⟨h.toUnsought, h.plans, h.planSteps⟩

/-- The part is made of tables of the app plane. -/
def OfAppPlane {γ : Type} (part : Tables → γ) : Prop :=
  ∀ t t' : Tables, t.receipts = t'.receipts → t.attempts = t'.attempts → t.evidence = t'.evidence →
    t.appVerifications = t'.appVerifications → t.idempotency = t'.idempotency →
    t.incidents = t'.incidents → part t = part t'

/-- INTERNAL: the tables of the core are not in the app plane. -/
theorem OfAppPlane.outlying {γ : Type} {part : Tables → γ} (hpart : OfAppPlane part) :
    Outlying part := by
  have hunrelated : Unrelated part := by
    constructor <;> exact fun _ _ => hpart _ _ rfl rfl rfl rfl rfl rfl
  have hbeside : Beside part := by
    refine ⟨hunrelated, ?_, ?_, ?_, ?_⟩ <;> exact fun _ _ => hpart _ _ rfl rfl rfl rfl rfl rfl
  have hunasked : Unasked part := by
    refine ⟨hbeside, ?_, ?_, ?_⟩ <;> exact fun _ _ => hpart _ _ rfl rfl rfl rfl rfl rfl
  refine ⟨hunasked, ?_, ?_⟩ <;> exact fun _ _ => hpart _ _ rfl rfl rfl rfl rfl rfl

section Planning

variable {γ : Type} {part : Tables → γ}

section Asked

variable (hpart : Unsought part)

include hpart

/-- INTERNAL: the saves of a request and an intent. -/
theorem serves_saveRequest (row : Request) : Serves part (RequestRepository.save row) :=
  .writeChecked _ _ fun t => hpart.requests t _

/-- INTERNAL: an intent is saved. -/
theorem serves_saveIntent (row : Intent) : Serves part (IntentRepository.save row) :=
  .withUow (.bind (.requireSerializable _) fun _ =>
    .executeChecked _ _ fun t => hpart.intents t _)

omit hpart in
/-- INTERNAL: asking the model reads the clock at most. -/
theorem serves_generate (provider : ModelProvider) (prompt : ModelPrompt) :
    Serves part (generate provider prompt) := .bind (.get _) fun _ => .ofExcept _

omit hpart in
/-- INTERNAL: parsing writes nothing.
SOURCE: understanding/parser.py:118-155 -/
theorem serves_parse (parser : IntentParser) (host : Host) (text : String) :
    Serves part (parser.parse host text) := by
  refine .bind ?_ fun draft => ?_
  · unfold IntentParser.propose
    split
    · exact .pure _
    · unfold IntentParser.parseWithModel
      split
      · exact .throw _
      · refine .bind (serves_generate _ _) fun _ => .tryCatch (.ofExcept _) fun e => ?_
        unfold IntentParser.retryShort
        split
        · exact .bind (serves_generate _ _) fun _ => .ofExcept _
        · exact .throw _
  · split
    · exact .throw _
    · exact .pure _

/-- INTERNAL: a request is opened in its session. -/
theorem serves_openRequest (host : Host) (sessionId requestText actor source profileId : String) :
    Serves part
      (PlanningService.openRequest host sessionId requestText actor source profileId) := by
  refine .bind (.bind (.query _) fun session => ?_) fun _ => .bind (.newId host) fun _ =>
    .bind (.now host) fun _ => .bind (serves_saveRequest hpart _) fun _ =>
    .bind (.withUow (.bind (.now host) fun _ => .execute fun t => hpart.sessions t _)) fun _ =>
    .pure _
  cases session with
  | some session => exact .pure _
  | none => exact .bind (.now host) fun _ => .bind (.write fun t => hpart.sessions t _) fun _ => .pure _

omit hpart in
/-- INTERNAL: an intent is made of a draft. -/
theorem serves_newIntent (host : Host) (requestId : String) (draft : IntentDraft) :
    Serves part (PlanningService.newIntent host requestId draft) :=
  .bind (.newId host) fun _ => .bind (.now host) fun _ => .pure _

/-- Understanding a request writes its intent, or an audit row.
SOURCE: planning/service.py:233-283 -/
theorem serves_understand (service : PlanningService) (host : Host) (request : Request)
    (source : String) : Serves part (service.understand host request source) := by
  refine .bind (.tryCatch (serves_parse _ host _) fun e => ?_) fun parsed =>
    .bind (serves_newIntent host _ _) fun _ => .bind (serves_saveIntent hpart _) fun _ => .pure _
  unfold PlanningService.reportMisunderstood
  split
  · exact .bind (serves_audit hpart.toUnrelated host _) fun _ => .throw _
  · exact .bind (serves_audit hpart.toUnrelated host _) fun _ => .throw _
  · exact .throw _

/-- INTERNAL: a failed parse is audited and moves the task. -/
theorem serves_parseIntent (service : PlanningService) (host : Host) (task : Task)
    (requestText source : String) :
    Serves part (service.parseIntent host task requestText source) := by
  have hfail : ∀ entry event e, Serves part (do
      audit host entry
      let _ ← Orchestrator.advance host task.id event
      throw e : Proc IntentDraft) := fun _ _ _ =>
    .bind (serves_audit hpart.toUnrelated host _) fun _ =>
      .bind (serves_advance hpart.toUnrelated host _ _) fun _ => .throw _
  refine .bind (.tryCatch (serves_parse _ host _) fun e => ?_) fun _ => .pure _
  unfold PlanningService.abandonParse
  split
  · exact hfail _ _ _
  · exact hfail _ _ _
  · exact .throw _

end Asked

variable (hpart : Unplanned part)

include hpart

/-- INTERNAL: the steps of a plan are inserted one after the other. -/
theorem within_insertSteps (plan : Plan) (steps : List PlanStep) :
    Within part (PlanRepository.insertSteps plan steps) := by
  induction steps with
  | nil => exact .pure _
  | cons step rest ih =>
    exact .bind (.bind (.requireSerializable _) fun _ =>
      .executeChecked _ _ fun t => hpart.planSteps t _) fun _ => ih

/-- INTERNAL: a plan is saved. -/
theorem serves_savePlan (plan : Plan) : Serves part (PlanRepository.save plan) := by
  exact .withUow (.bind (.executeChecked _ _ fun t => hpart.plans t _) fun _ =>
    .bind (.execute fun t => hpart.planSteps t _) fun _ => within_insertSteps hpart plan _)

omit hpart in
/-- INTERNAL: the steps of a new plan draw their ids. -/
theorem serves_newSteps (host : Host) (planId : String) (index : ℕ)
    (blueprints : List StepBlueprint) :
    Serves part (PlanningService.newSteps host planId index blueprints) := by
  induction blueprints generalizing index with
  | nil => exact .pure _
  | cons blueprint rest ih => exact .bind (.newId host) fun _ => .bind (ih _) fun _ => .pure _

/-- INTERNAL: a plan is built without writing; an invalid one fails the task.
SOURCE: planning/service.py:414-452 -/
theorem serves_buildAndValidatePlan (service : PlanningService) (host : Host) (task : Task)
    (intent : Intent) (draft : IntentDraft) :
    Serves part (service.buildAndValidatePlan host task intent draft) := by
  refine .bind (.ofExcept _) fun template => .tryCatch (.bind ?_ fun blueprints => ?_) fun e => ?_
  · unfold PlanningService.blueprintsFor
    split
    · exact .pure _
    · unfold PlanningService.planFromModel
      split
      · exact .throw _
      · exact .bind (serves_generate _ _) fun _ => .ofExcept _
  · exact .bind (.newId host) fun _ => .bind (serves_newSteps host _ _ _) fun _ =>
      .bind (.ofExcept _) fun _ => .pure _
  · have habandon : Serves part (PlanningService.abandonPlan host task e) :=
      .bind (serves_audit hpart.toUnrelated host _) fun _ =>
        .bind (serves_advance hpart.toUnrelated host _ _) fun _ => .throw _
    unfold PlanningService.handleInvalid
    split
    · exact habandon
    · exact habandon
    · exact .throw _

/-- Planning writes core tables.
SOURCE: planning/service.py:285-368 -/
theorem serves_createAndPlan (service : PlanningService) (host : Host) (given : PlanningRequest) :
    Serves part (service.createAndPlan host given) := by
  refine .bind ?_ fun request => .bind ?_ fun snapshot =>
    .bind (serves_createTask hpart.toUnrelated host _ _ _) fun created =>
    .bind (serves_advance hpart.toUnrelated host _ _) fun task => .bind ?_ fun understood =>
    .bind (serves_buildAndValidatePlan hpart service host task _ _) fun plan =>
    .bind (.withUow ?_) fun _ => .pure _
  · unfold PlanningService.requestFor
    split
    · exact .pure _
    · exact serves_openRequest hpart.toUnsought host ..
  · unfold PlanningService.snapshotFor
    split
    · exact .pure _
    · exact .bind (.now host) fun _ => .pure _
  · unfold PlanningService.understandingFor
    split
    · exact .pure _
    · exact .bind (serves_parseIntent hpart.toUnsought service host ..) fun _ =>
        .bind (serves_newIntent host ..) fun _ => .pure _
  · have hintent : Within part (PlanningService.saveIntent understood.1.intent understood.2) := by
      unfold PlanningService.saveIntent
      split
      · exact .pure _
      · exact (serves_saveIntent hpart.toUnsought _).toWithin
    exact .bind hintent fun _ => .bind (serves_savePlan hpart plan).toWithin fun _ =>
      .bind (serves_attachPlan hpart.toUnrelated host ..).toWithin fun _ =>
      .bind (serves_advance hpart.toUnrelated host ..).toWithin fun _ =>
      .bind (serves_audit hpart.toUnrelated host _).toWithin fun _ => .pure _

omit hpart in
/-- INTERNAL: a request is answered without a plan. -/
theorem serves_answerConversationally (service : PlanningService) (draft : IntentDraft) :
    Serves part (service.answerConversationally draft) := by
  unfold PlanningService.answerConversationally
  split
  · exact .pure _
  · exact .throw _
  · exact .bind (serves_generate _ _) fun _ => .pure _

end Planning

end Shea.Analysis
