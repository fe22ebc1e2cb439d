import Shea.Analysis.Rejections
import Shea.Model.Execution

/-!
# Where a mismatch is raised

`AuthorizationBindingMismatchError` is raised in one place only, the check of the hashes. What an
adapter or a handler raises does not get past the supervisor, and everything else on the way of a
request raises exceptions of its own.
-/

set_option autoImplicit false

namespace Shea.Analysis

open Shea.Computation Shea.Model

/-- The exception is a mismatch of the binding. -/
def IsMismatch : Err → Prop
  | .authorizationBindingMismatch .. => True
  | _ => False

/-- The exception is no mismatch of the binding. -/
def NoMismatch (e : Err) : Prop := ¬ IsMismatch e

/-- The operating system raises exceptions of its own. -/
structure OwnErrors (probes : Probes) : Prop where
  resolve (path : String) : Fails NoMismatch (probes.resolve path)
  pathExists (path : String) : Fails NoMismatch (probes.pathExists path)
  isSymlink (path : String) : Fails NoMismatch (probes.isSymlink path)
  getcwd : Fails NoMismatch probes.getcwd

/-- The program raises no mismatch. -/
def Matched {α : Type} (p : Proc α) : Prop := p.Throws NoMismatch

namespace Matched

variable {α β : Type}

/-- INTERNAL: a value that is returned. -/
theorem pure (a : α) : Matched (Pure.pure a : Proc α) := trivial

/-- INTERNAL: an error that is no mismatch. -/
theorem throw {e : Err} (h : NoMismatch e) : Matched (MonadExcept.throw e : Proc α) := h

/-- INTERNAL: a result whose error is no mismatch. -/
theorem ofExcept {x : Except Err α} (h : Fails NoMismatch x) :
    Matched (Program.ofExcept x : Proc α) := h.throws

/-- INTERNAL: one program after the other. -/
theorem bind {p : Proc α} {f : α → Proc β} (hp : Matched p) (hf : ∀ a, Matched (f a)) :
    Matched (p >>= f) := Program.throws_bind hp hf

/-- INTERNAL: a handler. -/
theorem tryCatch {p : Proc α} {h : Err → Proc α} (hp : Matched p) (hh : ∀ e, Matched (h e)) :
    Matched (MonadExcept.tryCatch p h) := Program.throws_tryCatch hp fun e _ => hh e

/-- INTERNAL: an outcome that is looked at is not raised. -/
theorem attempt (p : Proc α) : Matched p.attempt := Program.throws_attempt p

/-- INTERNAL: a look at the state. -/
theorem get (view : World → α) : Matched (Program.get view : Proc α) := fun _ => trivial

/-- INTERNAL: a query. -/
theorem query (view : Tables → α) : Matched (Model.query view) := .get _

/-- INTERNAL: what follows a look at the machine, at every instant. -/
theorem probe_bind {host : Host} {f : Probes → Proc β} (h : ∀ instant, Matched (f (host.probes instant))) :
    Matched (Model.probe host >>= f) := fun w => h w.ticks

/-- INTERNAL: the clock. -/
theorem now (host : Host) : Matched (Model.now host) := fun _ => trivial

/-- INTERNAL: a new id. -/
theorem newId (host : Host) : Matched (Model.newId host) := fun _ => trivial

/-- INTERNAL: an entry of the log. -/
theorem note (effect : Effect) : Matched (Model.note effect) := fun _ => trivial

/-- INTERNAL: a statement. -/
theorem execute (statement : Tables → Tables) : Matched (Model.execute statement) := fun _ => trivial

/-- INTERNAL: a statement under a constraint. -/
theorem executeChecked (holds : Tables → Bool) (message : String) (statement : Tables → Tables) :
    Matched (Model.executeChecked holds message statement) := by
  refine .bind (fun _ => trivial) fun ok => ?_
  cases ok
  · exact .throw fun h => h
  · exact .pure _

/-- INTERNAL: the JSON check of a column. -/
theorem requireSerializable (d : Dict) : Matched (Model.requireSerializable d) := by
  unfold Model.requireSerializable
  split
  · exact .pure _
  · exact .throw fun h => h

/-- INTERNAL: a block. -/
theorem withUow {body : Proc α} (h : Matched body) : Matched (Model.withUow body) := throws_withUow h

/-- INTERNAL: a save of a row with a JSON column. -/
theorem save (d : Dict) (statement : Tables → Tables) :
    Matched (Model.withUow (do Model.requireSerializable d; Model.execute statement)) :=
  .withUow (.bind (.requireSerializable d) fun _ => .execute _)

/-- INTERNAL: a row that refers to another. -/
theorem saveChecked (d : Dict) (holds : Tables → Bool) (message : String) (statement : Tables → Tables) :
    Matched (Model.withUow (do Model.requireSerializable d; Model.executeChecked holds message statement)) :=
  .withUow (.bind (.requireSerializable d) fun _ => .executeChecked _ _ _)

/-- INTERNAL: a published event. -/
theorem emit (host : Host) (source eventType : String) (payload : Dict)
    (correlationId : Option String) :
    Matched (Model.emit host source eventType payload correlationId) :=
  .bind (.newId host) fun _ => .bind (.now host) fun _ => .note _

/-- INTERNAL: an audit entry. -/
theorem audit (host : Host) (entry : AuditEntry) : Matched (Model.audit host entry) :=
  .bind (.newId host) fun _ => .bind (.now host) fun _ =>
    .withUow (.bind (.requireSerializable _) fun _ => .executeChecked _ _ _)

/-- INTERNAL: a move, accepted or rejected.
SOURCE: core/orchestrator.py:95-140 -/
theorem advance (host : Host) (taskId event : String) :
    Matched (Orchestrator.advance host taskId event) := by
  refine .bind (.bind (.query _) fun found => ?_) fun task => ?_
  · cases found with
    | none => exact .throw fun h => h
    | some task => exact .pure _
  · unfold nextState
    cases (transitions task.state).lookup event with
    | none => exact .bind (.audit host _) fun _ => .throw fun h => h
    | some state =>
      exact .bind (.now host) fun _ => .bind (.withUow (.bind (.save _ _) fun _ => .audit host _))
        fun _ => .bind (emit host _ _ _ _) fun _ => .pure _

end Matched

/-! ## Before the binding is checked, and after -/

/-- INTERNAL: the gate raises SecurityViolationError, or ValueError for a malformed URL.
SOURCE: security/gate.py, security/service.py:58-118 -/
theorem matched_enforce (service : SecurityService) (host : Host) (task : Task)
    (request : ToolRequest) : Matched (service.enforce host task request) := by
  have hurl : ∀ url, Fails NoMismatch (isUrlAllowed host.py service.gate.networkPolicy url) := by
    intro url
    unfold isUrlAllowed
    split
    · exact .error fun h => h
    · exact .ok _
  have htext : ∀ tool key value,
      Fails NoMismatch (service.gate.checkText host.py tool key value) := by
    intro tool key value
    unfold SecurityGate.checkText
    refine .ite (.bind (hurl value) fun allowed => .ite (.error fun h => h) ?_) ?_
    -- the path is looked at after the URL, or instead of it
    · split
      · exact .pure _
      · exact .ite (.error fun h => h) (.pure _)
    · split
      · exact .pure _
      · exact .ite (.error fun h => h) (.pure _)
  have hgate : ∀ tool arguments,
      Fails NoMismatch (service.gate.checkArguments host.py tool arguments) := by
    intro tool arguments
    induction arguments with
    | nil => exact .ok _
    | cons entry rest ih =>
      obtain ⟨key, value⟩ := entry
      cases value with
      | str value => exact .bind (htext tool key value) fun _ => ih
      | _ => exact ih
  have hgate := hgate request.tool request.arguments
  unfold SecurityService.enforce
  split
  · exact .throw fun h => h
  · split
    · exact .bind (.withUow (.bind (.audit host _) fun _ => .bind (.advance host _ _) fun _ => .pure _))
        fun _ => .bind (.emit host _ _ _ _) fun _ => .throw fun h => h
    next e _ hrejected => exact .throw (hgate e hrejected)
    · exact .bind (.audit host _) fun _ => .emit host _ _ _ _

/-- INTERNAL: the checks that follow the check of the binding.
SOURCE: execution/service.py:246-340 -/
theorem matched_checks (service : ExecutionService) (host : Host) (task : Task)
    (request : ToolRequest) : Matched (do
      ExecutionService.suppressDuplicate host task request (generateKey host.py task.id request)
      let capabilities ← ExecutionService.decidedCapabilities task
      service.requireCapabilities host task request capabilities
      let auth ← ExecutionService.newestAuthorization task
      let contractId ← newId host
      pure (service.contractOf host.py task request capabilities auth
        (generateKey host.py task.id request) contractId)) := by
  refine .bind (.bind (.query _) fun prior => ?_) fun _ => .bind (.bind (.query _) fun decision => ?_)
    fun capabilities => .bind ?_ fun _ => .bind (.bind (.query _) fun auths => ?_) fun auth =>
    .bind (.newId host) fun _ => .pure _
  · cases prior with
    | none => exact .pure _
    | some prior =>
      dsimp only
      split
      · exact .pure _
      · exact .bind (.audit host _) fun _ => .throw fun h => h
  · cases decision with
    | none => exact .throw fun h => h
    | some decision => exact .pure _
  · unfold ExecutionService.requireCapabilities
    split
    · exact .pure _
    · exact .bind (.audit host _) fun _ => .throw fun h => h
    next e _ hinvalid =>
      refine .throw fun h => ?_
      unfold ToolExecutor.validateCapabilities ToolRegistry.getFor ToolRegistry.get at hinvalid
      simp only [bind, Except.bind] at hinvalid
      split at hinvalid
      · next missing hmissing =>
        obtain rfl := Except.error.inj hinvalid
        split at hmissing
        · split at hmissing <;> cases hmissing
          exact h
        · cases hmissing
          exact h
      · split at hinvalid <;> cases hinvalid
        exact h
  · split
    · exact .throw fun h => h
    · exact .pure _

section Supervision

variable {host : Host}

/-- INTERNAL: identities and scope.
SOURCE: app/identity.py, app/scope.py -/
theorem fails_resolve (hos : ∀ instant, OwnErrors (host.probes instant)) (instant : ℕ)
    (target : RequestedTarget) (requirements : IdentityRequirements) :
    Fails NoMismatch (IdentityResolver.resolve host.py (host.probes instant) target requirements) := by
  unfold IdentityResolver.resolve
  refine .ite (.error fun h => h) ?_
  split
  · exact .bind ((hos instant).resolve _) fun _ => .pure _
  · exact .ite (.error fun h => h) (.ok _)
  · unfold IdentityResolver.resolveUrl
    split
    · exact .error fun h => h
    · exact .ite (.error fun h => h) (.ok _)
  · exact .ok _

/-- INTERNAL: the revalidation of the target has errors of its own. -/
theorem fails_verify (hos : ∀ instant, OwnErrors (host.probes instant)) (instant : ℕ)
    (resolved : ResolvedIdentity) (requirements : IdentityRequirements) (phase : String) :
    Fails NoMismatch (IdentityRevalidator.verify host.py (host.probes instant) resolved requirements
      phase) := by
  have hlink : ∀ path, Fails NoMismatch (IdentityRevalidator.isLink (host.probes instant) path) := by
    intro path
    refine .bind ((hos instant).pathExists path) fun found => ?_
    cases found
    · exact .pure _
    · exact (hos instant).isSymlink path
  have hreject : ∀ path assurance, Fails NoMismatch
      (IdentityRevalidator.rejectSymlink (host.probes instant) path assurance) := by
    intro path assurance
    unfold IdentityRevalidator.rejectSymlink
    refine .ite (.bind (hlink path) fun link => ?_) (.pure _)
    cases link
    · exact .pure _
    · exact .error fun h => h
  unfold IdentityRevalidator.verify
  split
  · unfold IdentityRevalidator.verifyPath
    refine .ite (.pure _) (.bind ((hos instant).pathExists _) fun parent => ?_)
    cases parent
    · exact .error fun h => h
    · refine .bind (hreject _ _) fun _ => .bind ((hos instant).pathExists _) fun found => ?_
      cases found
      · exact .pure _
      · exact .bind ((hos instant).resolve _) fun _ => .pure _
  · exact .ite (.error fun h => h) (.ok _)
  · exact .ok _

/-- INTERNAL: the verification of a result.
SOURCE: app/verify_engine.py -/
theorem fails_evaluateVerification (verificationId receiptId attemptId : String)
    (policy : VerificationPolicy) (result : AdapterResult) (evidence : EvidenceRecord) (at_ : Time) :
    Fails NoMismatch (evaluateVerification verificationId receiptId attemptId policy result evidence
      at_) := by
  have hmet : ∀ required, Fails NoMismatch (postconditionMet result evidence.payload required) := by
    intro required
    have hflags : Fails NoMismatch (existsByFlags result evidence.payload) :=
      .ite (.ok _) (.ite (.ok _) (.ite (.ok _) (.ite (.ok _) (.ite (.ok _) (.error fun h => h)))))
    exact .ite (.pure _) (.ite (.bind hflags fun _ => .ite (.pure _) (.pure _)) (.pure _))
  have hall : ∀ required j,
      Fails NoMismatch (checkPostconditions policy result evidence.payload required j) := by
    intro required
    induction required with
    | nil => exact fun j => .ok _
    | cons first rest ih => exact fun j => .bind (hmet first) fun _ => ih _
  exact .bind (hall _ _) fun _ => .pure _

/-- INTERNAL: the evidence of a result.
SOURCE: app/verify_engine.py:18-69 -/
theorem fails_evidenceFromAdapter (py : Stdlib) (evidenceId receiptId attemptId operation : String)
    (result : AdapterResult) (at_ : Time) :
    Fails NoMismatch (evidenceFromAdapter py evidenceId receiptId attemptId operation result at_) :=
  .bind (.ite (.ok _) (.error fun h => h)) fun _ => .pure _

/-- INTERNAL: the supervisor raises no mismatch, whatever its adapters do.
SOURCE: app/supervisor.py:131-315 -/
theorem matched_supervise (hos : ∀ instant, OwnErrors (host.probes instant))
    (sup : ExecutionSupervisor) (contract : ExecutionContract) : Matched (sup.execute host contract) := by
  have hkeyed : ∀ (key : Option String) (body : String → Proc Unit), (∀ key, Matched (body key)) →
      Matched (ExecutionSupervisor.whenKeyed key body) := by
    intro key body hbody
    cases key with
    | none => exact .pure _
    | some key => exact hbody key
  have hreserve : ∀ key, Matched (ExecutionSupervisor.reserveIdempotency host key) := by
    intro key
    refine .bind (.query _) fun existing => ?_
    cases existing.bind _ with
    | some reason => exact .throw fun h => h
    | none =>
      exact .bind (.now host) fun _ =>
        .tryCatch (.withUow (.executeChecked _ _ _)) fun _ => .throw fun h => h
  have hvalidate : Matched (ExecutionSupervisor.validate host contract) := by
    unfold ExecutionSupervisor.validate
    split
    · exact .throw fun h => h
    · split
      · exact .pure _
      · refine .bind (.now host) fun _ => ?_
        split
        · exact .throw fun h => h
        · exact .pure _
  have hselect : Fails NoMismatch (sup.selectAdapter host.py contract) := by
    unfold ExecutionSupervisor.selectAdapter
    split
    · exact .ok _
    · exact .error fun h => h
  have hprobe : Matched (ExecutionSupervisor.probeEnvironment host) :=
    .bind (.now host) fun _ => .probe_bind fun instant =>
      .bind (.ofExcept (hos instant).getcwd) fun _ => .pure _
  have hadmit : Matched (ExecutionSupervisor.admitTarget host contract) := by
    refine .probe_bind fun instant => .bind (.ofExcept (fails_resolve hos instant _ _)) fun resolved =>
      .bind (.ofExcept (fails_verify hos instant _ _ _)) fun _ => ?_
    cases contract.scope with
    | none => exact .pure _
    | some scope => exact .bind (.ofExcept (.ite (.ok _) (.error fun h => h))) fun _ => .pure _
  have hopen : ∀ name key, Matched (ExecutionSupervisor.openReceipt host contract name key) := by
    intro name key
    refine .bind (.now host) fun _ => .bind (.newId host) fun _ => .bind (.newId host) fun _ =>
      .bind (.withUow (.bind (.save _ _) fun _ => .bind (.save _ _) fun _ =>
        .bind (.saveChecked _ _ _ _) fun _ => hkeyed _ _ fun key => ?_)) fun _ => .bind (.query _) fun found => ?_
    · refine .bind (.query _) fun existing => .bind (.now host) fun _ => ?_
      cases existing <;> exact .withUow (.execute _)
    · cases found with
      | none => exact .throw fun h => h
      | some _ => exact .pure _
  have hfinish : ∀ receipt attempt key result, Matched
      (ExecutionSupervisor.finalize host contract.operation receipt attempt key result) := by
    intro receipt attempt key result
    refine .bind (.bind (.now host) fun _ => .bind (.newId host) fun _ =>
      .bind (.ofExcept (fails_evidenceFromAdapter _ _ _ _ _ _ _)) fun _ => .bind (.newId host) fun _ =>
      .bind (.ofExcept (fails_evaluateVerification _ _ _ _ _ _ _)) fun _ => .pure _) fun judged =>
      .bind (.now host) fun _ => .bind (.withUow (.bind (.saveChecked _ _ _ _) fun _ =>
        .bind (.save _ _) fun _ => .bind (.saveChecked _ _ _ _) fun _ =>
        .bind (.withUow (.executeChecked _ _ _)) fun _ => hkeyed _ _ fun key => ?_))
      fun _ => .pure _
    exact .bind (.now host) fun _ => .bind (.query _) fun _ => .withUow (.execute _)
  refine .bind hvalidate fun _ => .bind (.ofExcept hselect) fun adapter =>
    .bind (hkeyed _ _ hreserve) fun _ => .bind hprobe fun _ => .bind hadmit fun admitted =>
    .bind (hopen _ _) fun rows => .bind (.probe_bind fun instant =>
      .bind (.ofExcept (fails_verify hos instant _ _ _)) fun _ => .bind (.now host) fun _ =>
      .bind (.withUow (.saveChecked _ _ _ _)) fun _ => .pure _) fun marked =>
    .bind (.bind (.note _) fun _ => .bind (.attempt _) fun outcome => .bind (.note _) fun _ => ?_)
      fun result => hfinish _ _ _ _
  cases outcome with
  | ok result => exact .pure _
  | error e =>
    -- what is raised on is a `BaseException`
    dsimp only
    split
    · exact .pure _
    · next hbase =>
      refine .throw fun h => ?_
      cases e <;> first | exact absurd rfl hbase | exact h

/-- INTERNAL: nor does what follows the supervisor's answer.
SOURCE: execution/service.py:342-472 -/
theorem matched_settle (service : ExecutionService) (task : Task) (request : ToolRequest)
    (supervision : SupervisionResult) : Matched (service.settle host task request supervision) := by
  have hmap : Fails NoMismatch (mapAppOutcome supervision.adapterResult.outcome) := by
    unfold mapAppOutcome
    split
    · exact .ok _
    · exact .ok _
    · exact .ok _
    · exact .error fun h => h
  have hscan : ∀ data, Matched (service.security.scanOutput host task request.tool data) := by
    intro data
    unfold SecurityService.scanOutput
    dsimp only
    split
    · refine .bind (.bind (.audit host _) fun _ => .emit host _ _ _ _) fun _ =>
        .bind ?_ fun _ => .pure _
      unfold SecurityService.haltFlagged
      split
      · exact .bind (.withUow (.advance host _ _)) fun _ => .throw fun h => h
      · exact .pure _
    · exact .pure _
  have hconsume : ∀ outcome, Matched (ExecutionService.consume host task outcome) := by
    intro outcome
    unfold ExecutionService.consume
    split
    · refine .bind (.query _) fun auths => ?_
      split
      · exact .pure _
      · unfold ExecutionService.markUsed
        split
        · exact .bind (.now host) fun _ => .withUow (.executeChecked _ _ _)
        · exact .pure _
    · exact .pure _
  refine .bind (.ofExcept hmap) fun outcome => .bind (hscan _) fun scan => .bind ?_ fun response =>
    .bind (.withUow (.bind (.newId host) fun _ => .bind (.withUow (.executeChecked _ _ _)) fun _ =>
      .bind (.audit host _) fun _ => .bind (.emit host _ _ _ _) fun _ => .bind (hconsume outcome)
      fun _ => .advance host _ _)) fun _ => .pure _
  unfold ExecutionService.screen
  split
  · exact .bind (.audit host _) fun _ => .pure _
  · exact .pure _

end Supervision

end Shea.Analysis
