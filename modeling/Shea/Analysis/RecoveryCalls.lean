import Shea.Analysis.Successes
import Shea.Analysis.Classification
import Shea.Analysis.Reservation

/-!
# The parts of a recovery

What the recovery service does before it decides: it sweeps the receipts, derives an authority from the
newest grant of the task and asks it, and plans. Each part is described by itself: when it returns, and
what it leaves. The sweep and the authority leave tasks, decisions, executions and recovery attempts
alone.
-/

set_option autoImplicit false

namespace Shea.Analysis

open Shea.Computation Shea.Model

/-! ## Between calls -/

/-- Between calls: nothing is open, the ledger is safe and the registers are in order. -/
structure Sound (host : Host) (w : World) : Prop extends Resting host w where
  registered : Registered host w.nextId w.committed

section Sound

variable {host : Host} {w t : World}

/-- Every history of the services is sound. -/
theorem Sound.of_services (h : History (services host) {} w) : Sound host w :=
  ⟨resting_of_services h, registered_of_services h⟩

/-- INTERNAL: the registered receipts of a sound world. -/
theorem Sound.both (h : Sound host w) : Both (Registered host) w := by
  refine ⟨?_, h.registered⟩
  rw [h.idle.working]
  exact h.registered

/-- INTERNAL: and its order of attempts. -/
theorem Sound.ordered (h : Sound host w) : Ordered host w :=
  ⟨h.both.1, fun _ => h.idle.working.symm⟩

/-- INTERNAL: a sequel of a sound state, at rest again. -/
theorem Sequel.committed (h : Sequel host w t) (hw : w.Idle) : t.committed = t.working :=
  h.settled (h.depth.trans hw.depth)

/-- INTERNAL: a sequel of a world at rest rests. -/
theorem Sequel.idle (h : Sequel host w t) (hw : w.Idle) : t.Idle :=
  ⟨h.depth.trans hw.depth, (h.committed hw).symm⟩

end Sound

/-! ## The sweep -/

/-- The tables that recovery decides by. -/
def domainRows (t : Tables) : Tables :=
  { t with
    auditEvents := []
    receipts := []
    attempts := []
    evidence := []
    appVerifications := []
    idempotency := []
    incidents := [] }

/-- INTERNAL: the tables one by one. -/
structure SameDomain (t t' : Tables) : Prop where
  tasks : t.tasks = t'.tasks
  decisions : t.decisions = t'.decisions
  authorizations : t.authorizations = t'.authorizations
  toolExecutions : t.toolExecutions = t'.toolExecutions
  verifications : t.verifications = t'.verifications
  recoveryAttempts : t.recoveryAttempts = t'.recoveryAttempts

/-- INTERNAL: equal rows of the domain, as a relation. -/
theorem sameDomain {t t' : Tables} (h : domainRows t = domainRows t') : SameDomain t t' := by
  refine ⟨?_, ?_, ?_, ?_, ?_, ?_⟩
  · simpa [domainRows] using congrArg Tables.tasks h
  · simpa [domainRows] using congrArg Tables.decisions h
  · simpa [domainRows] using congrArg Tables.authorizations h
  · simpa [domainRows] using congrArg Tables.toolExecutions h
  · simpa [domainRows] using congrArg Tables.verifications h
  · simpa [domainRows] using congrArg Tables.recoveryAttempts h

/-- Every unfinished receipt can be observed when its turn comes. -/
def Observable (host : Host) (w : World) : Prop :=
  ∀ i receipt, (unfinished w)[i]? = some receipt → observableAt host w (w.ticks + i) receipt = true

section Sweep

variable {host : Host} {w : World} (adapters : List Adapter) (planner : RetryPolicy)
  (retry : RetryController)

/-- The service over a supervisor with these adapters. -/
def recoveryOver : RecoveryService :=
  { supervisor := { adapters := adapters }, planner := planner, retry := retry }

/-- The state after the sweep of the app plane. -/
def swept (host : Host) (w : World) : World :=
  (((recoveryOver adapters planner retry).reconcileAppPlane host).run w).2

/-- INTERNAL: the sweep leaves the tables of the core alone. -/
theorem leaves_reconcileAppPlane :
    Leaves domainRows ((recoveryOver adapters planner retry).reconcileAppPlane host) := by
  have hapart : Apart domainRows :=
    ⟨fun _ _ => rfl, fun _ _ => rfl, fun _ _ => rfl, fun _ _ => rfl, fun _ _ => rfl⟩
  have hrequire : ∀ d, Leaves domainRows (requireSerializable d) := fun d =>
    Serves.leaves ⟨.requireSerializable d, fun _ h => by
      unfold requireSerializable
      split <;> exact h⟩
  have haudit : ∀ entry, Leaves domainRows (audit host entry) := fun _ =>
    .bind (.newId host) fun _ => .bind (.now host) fun _ => .withUow (.bind
      (hrequire _) fun _ => .executeChecked _ _ fun _ => rfl)
  refine .bind (leaves_reconcileStuck hapart _ host) fun results => .bind (.withUow ?_)
    fun _ => .pure _
  induction results with
  | nil => exact .pure _
  | cons item rest ih =>
    refine .bind ?_ fun _ => ih
    unfold RecoveryService.auditItem
    split
    · exact .pure _
    · exact haudit _

/-- A sweep over a resting world leaves the rows of the domain. -/
theorem domainRows_swept (hw : w.Idle) :
    domainRows (swept adapters planner retry host w).committed = domainRows w.committed :=
  ((leaves_reconcileAppPlane adapters planner retry).run w (congrArg domainRows hw.working)).2

/-- INTERNAL: after the sweep everything is in order, whether it returned or not. -/
theorem sound_swept (hw : Sound host w) : Sound host (swept adapters planner retry host w) := by
  have hrests := (rests_reconcileAppPlane adapters planner retry w hw.toResting).run
  have hboth := (upholds_reconcileAppPlane (lasting_registered host)
    (recoveryOver adapters planner retry) w hw.both).run
  exact ⟨hrests, hboth.2⟩

/-- INTERNAL: the audit rows of a sweep are never refused. -/
theorem succeeds_auditReconciled {t : World} (ht : Ordered host t)
    (results : List ReconciliationResult) :
    Succeeds host (RecoveryService.auditReconciled host results) (fun _ _ => True) t := by
  induction results generalizing t with
  | nil => exact .pure ht trivial
  | cons item rest ih =>
    have hitem : Succeeds host (RecoveryService.auditItem host item) (fun _ _ => True) t := by
      unfold RecoveryService.auditItem
      split
      · exact .pure ht trivial
      · refine (succeeds_audit ht ?_).mono fun _ _ _ => trivial
        show (Value.dict [("receipt_id", .str item.receipt.id), ("detail", .str item.detail),
          ("fence_token", .ofOption (item.incident.bind (·.fenceToken)))]).serializable = true
        cases item.incident.bind (·.fenceToken) <;> rfl
    exact hitem.bind fun _ u hu _ => ih hu.toOrdered

/-- A sweep returns exactly when every unfinished receipt can be observed at its turn.
SOURCE: recovery/service.py:387-411, app/supervisor.py:317-397 -/
theorem sweep_returns_iff (hw : Sound host w) :
    (∃ results, (((recoveryOver adapters planner retry).reconcileAppPlane host).run w).1 =
      .ok results) ↔ Observable host w := by
  have hstuck := (sat_reconcileStuck host adapters hw.toResting).run
  have hboth := (upholds_reconcileStuck (lasting_registered host)
    ({ adapters := adapters } : ExecutionSupervisor) w hw.both).run
  have hsup : (recoveryOver adapters planner retry).supervisor = { adapters := adapters } := rfl
  unfold RecoveryService.reconcileAppPlane
  rw [Program.run_bind, hsup]
  revert hstuck hboth
  rcases (ExecutionSupervisor.reconcileStuck { adapters := adapters } host).run w with ⟨r, t⟩
  intro hstuck hboth
  obtain ⟨hidle, -, hseen⟩ := hstuck
  cases r with
  | error e =>
    obtain ⟨⟨i, receipt, hreceipt, hblind⟩, -⟩ := hseen
    refine iff_of_false (by rintro ⟨results, h⟩; cases h) fun hobservable => ?_
    rw [hobservable i receipt hreceipt] at hblind
    cases hblind
  | ok results =>
    have hordered : Ordered host t := ⟨hboth.1, fun _ => hidle.working.symm⟩
    obtain ⟨_, u, hrun, -, -⟩ :=
      Succeeds.withUow (succeeds_auditReconciled hordered.enter results)
    refine iff_of_true ⟨results, ?_⟩ hseen.1
    show ((withUow (RecoveryService.auditReconciled host results) >>= fun _ =>
      pure results).run t).1 = _
    rw [Program.run_bind, hrun]
    rfl

end Sweep

/-! ## The authority -/

/-- The newest grant of the task covers an operation of its recovery: there is a decision and an
authorization, the authorization was granted, it has not expired by the second clock reading from now,
nor is that an hour after the first one, and attempts are left. -/
def Covered (service : RecoveryService) (host : Host) (taskId : String) (attemptsMade : ℕ)
    (w : World) : Prop :=
  ∃ decision authorization, DecisionRepository.ofTables w.working taskId = some decision ∧
    (AuthorizationRepository.ofTables w.working taskId).getLast? = some authorization ∧
    authorization.granted = true ∧
    host.clock (w.ticks + 1) < authorization.expiresAt.elim (host.clock w.ticks + oneHour)
      (min (host.clock w.ticks + oneHour)) ∧
    attemptsMade < service.retry.policy.maxAttempts

section Authority

variable {service : RecoveryService} {host : Host} {task : Task} {attemptsMade : ℕ} {w : World}
  {operation : String}

/-- INTERNAL: the newest grant, as a look at the tables. -/
def grantOn (t : Tables) (task : Task) : Except Err (Decision × Authorization) :=
  match DecisionRepository.ofTables t task.id with
  | none => .error (.recoveryAuthority task.id "no decision on file")
  | some decision =>
    match (AuthorizationRepository.ofTables t task.id).getLast? with
    | none => .error (.recoveryAuthority task.id "no authorization on file")
    | some authorization => .ok (decision, authorization)

/-- The newest grant is read off the store. -/
theorem run_newestGrant : (RecoveryService.newestGrant task).run w = (grantOn w.working task, w) := by
  unfold RecoveryService.newestGrant DecisionRepository.getByTask grantOn
  rw [Program.run_bind, run_query]
  cases DecisionRepository.ofTables w.working task.id with
  | none => rfl
  | some decision =>
    show (RecoveryService.withAuthorization task decision).run w = _
    unfold RecoveryService.withAuthorization AuthorizationRepository.listByTask
    rw [Program.run_bind, run_query]
    dsimp only
    cases (AuthorizationRepository.ofTables w.working task.id).getLast? <;> rfl

/-- INTERNAL: the authority looks at the clock twice, and writes nothing.
SOURCE: recovery/service.py:188-207, recovery/authority.py:24-70 -/
theorem run_authorize_eq (service : RecoveryService) (operation : String) (attemptsMade : ℕ) :
    (service.authorize host task operation attemptsMade).run w =
      match grantOn w.working task with
      | .error e => (.error e, w)
      | .ok (decision, authorization) =>
        match RecoveryAuthority.fromOriginal decision authorization
            service.retry.policy.maxAttempts (host.clock w.ticks) with
        | .error e => (.error e, { w with ticks := w.ticks + 1 })
        | .ok authority =>
          match authority.assertCan host.py operation (host.clock (w.ticks + 1)) attemptsMade with
          | .error e => (.error e, { w with ticks := w.ticks + 2 })
          | .ok _ => (.ok authority, { w with ticks := w.ticks + 2 }) := by
  unfold RecoveryService.authorize RecoveryService.deriveAuthority
  rw [Program.run_bind, Program.run_bind, run_newestGrant]
  cases grantOn w.working task with
  | error e => rfl
  | ok grant =>
    obtain ⟨decision, authorization⟩ := grant
    dsimp only
    rw [Program.run_bind, run_now]
    dsimp only
    rw [Program.run_ofExcept]
    cases RecoveryAuthority.fromOriginal decision authorization service.retry.policy.maxAttempts
        (host.clock w.ticks) with
    | error e => rfl
    | ok authority =>
      dsimp only
      rw [Program.run_bind, run_now]
      dsimp only
      rw [Program.run_bind, Program.run_ofExcept]
      cases authority.assertCan host.py operation (host.clock (w.ticks + 1)) attemptsMade <;> rfl

/-- INTERNAL: what the derived authority says.
SOURCE: recovery/authority.py:24-70 -/
theorem assertCan_fromOriginal (decision : Decision) {authorization : Authorization}
    (hgranted : authorization.granted = true)
    (hoperation : operation ∈ RecoveryAuthority.defaultOperations) (py : Stdlib)
    (maxAttempts attemptsMade : ℕ) (first second : Time) :
    ∃ authority, RecoveryAuthority.fromOriginal decision authorization maxAttempts first =
        .ok authority ∧
      ((∃ u, authority.assertCan py operation second attemptsMade = .ok u) ↔
        second < authorization.expiresAt.elim (first + oneHour) (min (first + oneHour)) ∧
          attemptsMade < maxAttempts) := by
  unfold RecoveryAuthority.fromOriginal
  rw [hgranted]
  refine ⟨_, rfl, ?_⟩
  unfold RecoveryAuthority.assertCan
  dsimp only
  by_cases hexpired : authorization.expiresAt.elim (first + oneHour) (min (first + oneHour)) ≤ second
  · rw [if_pos hexpired]
    refine iff_of_false (by rintro ⟨u, hu⟩; cases hu) fun h => absurd h.1 (not_lt.mpr hexpired)
  · rw [if_neg hexpired]
    by_cases hspent : maxAttempts ≤ attemptsMade
    · rw [if_pos hspent]
      refine iff_of_false (by rintro ⟨u, hu⟩; cases hu) fun h => absurd h.2 (not_lt.mpr hspent)
    · rw [if_neg hspent, if_neg (not_not.mpr hoperation)]
      exact iff_of_true ⟨(), rfl⟩ ⟨not_le.mp hexpired, not_le.mp hspent⟩

/-- The authority is derived and asked without a write: it allows the operation exactly when the
newest grant covers it, and raises otherwise.
SOURCE: recovery/service.py:188-207, recovery/authority.py:24-70 -/
theorem run_authorize (service : RecoveryService) (host : Host) (task : Task) (attemptsMade : ℕ)
    (w : World) (hoperation : operation ∈ RecoveryAuthority.defaultOperations) :
    (Covered service host task.id attemptsMade w ∧ ∃ authority,
      (service.authorize host task operation attemptsMade).run w =
        (.ok authority, { w with ticks := w.ticks + 2 })) ∨
    (¬ Covered service host task.id attemptsMade w ∧ ∃ e n,
      (service.authorize host task operation attemptsMade).run w =
        (.error e, { w with ticks := w.ticks + n })) := by
  rw [run_authorize_eq]
  unfold grantOn
  cases hdecision : DecisionRepository.ofTables w.working task.id with
  | none =>
    refine .inr ⟨?_, _, 0, rfl⟩
    rintro ⟨decision, _, hfound, -⟩
    rw [hdecision] at hfound
    cases hfound
  | some decision =>
    cases hauth : (AuthorizationRepository.ofTables w.working task.id).getLast? with
    | none =>
      refine .inr ⟨?_, _, 0, rfl⟩
      rintro ⟨_, authorization, -, hfound, -⟩
      rw [hauth] at hfound
      cases hfound
    | some authorization =>
      dsimp only
      -- the grant on file is the only one the authority can be derived from
      have hsame : ∀ found, (AuthorizationRepository.ofTables w.working task.id).getLast? =
          some found → found = authorization := fun found hfound =>
        (Option.some.inj (hauth.symm.trans hfound)).symm
      cases hgranted : authorization.granted with
      | false =>
        have hrefused : ∀ at_, RecoveryAuthority.fromOriginal decision authorization
            service.retry.policy.maxAttempts at_ = .error (.recoveryAuthority decision.taskId
              "original authorization was not granted") := by
          intro at_
          unfold RecoveryAuthority.fromOriginal
          rw [hgranted]
          rfl
        rw [hrefused]
        refine .inr ⟨?_, _, 1, rfl⟩
        rintro ⟨_, found, -, hfound, hyes, -⟩
        rw [hsame found hfound, hgranted] at hyes
        cases hyes
      | true =>
        obtain ⟨authority, hauthority, hallowed⟩ := assertCan_fromOriginal decision hgranted
          hoperation host.py service.retry.policy.maxAttempts attemptsMade (host.clock w.ticks)
          (host.clock (w.ticks + 1))
        rw [hauthority]
        dsimp only
        cases hcan : authority.assertCan host.py operation (host.clock (w.ticks + 1)) attemptsMade with
        | ok u =>
          obtain ⟨hearly, hleft⟩ := hallowed.mp ⟨u, hcan⟩
          exact .inl ⟨⟨decision, authorization, hdecision, hauth, hgranted, hearly, hleft⟩, _, rfl⟩
        | error e =>
          refine .inr ⟨?_, _, 2, rfl⟩
          rintro ⟨_, found, -, hfound, -, hearly, hleft⟩
          rw [hsame found hfound] at hearly
          obtain ⟨u, hu⟩ := hallowed.mpr ⟨hearly, hleft⟩
          rw [hcan] at hu
          cases hu

end Authority

end Shea.Analysis
