import Shea.Analysis.Ledger

/-!
# The supervisor takes ledger steps

Every step of `ExecutionSupervisor.execute` and of `reconcile_receipt` is a step of the ledger. The
proof follows the phases of the source: each phase has one lemma that says where it leaves the
committed rows, and the lemma of the whole chains them.

Phases that only read the clock, the machine and the database are `Reads`; nothing has to be said
about them but that.
-/

set_option autoImplicit false

namespace Shea.Analysis

open Shea.Computation Shea.Model

/-- The step relation of the supervisor's programs. -/
def Moves (host : Host) (a b : World) : Prop := Step host (ledgerOf a) (ledgerOf b)

/-! ## Steps that leave the ledger alone -/

/-- INTERNAL: published events are not adapter calls. -/
theorem callsOf_published (log : List Effect) (events : List Event) :
    callsOf (log ++ events.map .published) = callsOf log := by
  simp [callsOf, List.filterMap_append, List.filterMap_map]

/-- INTERNAL: handler calls are not adapter calls. -/
theorem callsOf_handlers (log : List Effect) (calls : List HandlerCall) :
    callsOf (log ++ calls.map .handlerCalled) = callsOf log := by
  simp [callsOf, List.filterMap_append, List.filterMap_map]

/-- INTERNAL: a step that keeps receipts, attempts, keys and calls only draws identifiers. -/
theorem moves_of_same (host : Host) {a b : World}
    (hr : b.committed.receipts = a.committed.receipts)
    (ha : b.committed.attempts = a.committed.attempts)
    (hi : b.committed.idempotency = a.committed.idempotency)
    (hc : callsOf b.log = callsOf a.log) (hn : a.nextId ≤ b.nextId) : Moves host a b := by
  have h : ledgerOf b = { ledgerOf a with nextId := b.nextId } := by
    simp [ledgerOf, hr, ha, hi, hc]
  unfold Moves
  rw [h]
  exact .draw hn

/-- INTERNAL: quiet steps leave the ledger alone. -/
theorem Quiet.moves (host : Host) {a b : World} (h : Quiet a b) : Moves host a b := by
  obtain ⟨events, he⟩ := h.log
  exact moves_of_same host (by rw [h.committed]) (by rw [h.committed]) (by rw [h.committed])
    (by rw [he, callsOf_published]) h.nextId

/-- INTERNAL: so do the adapter's own steps. -/
theorem outside_moves (host : Host) {a b : World} (h : Outside a b) : Moves host a b := by
  obtain ⟨calls, he⟩ := h.log
  exact moves_of_same host (by rw [h.committed]) (by rw [h.committed]) (by rw [h.committed])
    (by rw [he, callsOf_handlers]) h.nextId

/-- INTERNAL: an adapter that does nothing works outside the database. -/
theorem outside_refl (w : World) : Outside w w := ⟨rfl, rfl, rfl, le_rfl, [], by simp⟩

/-- INTERNAL: what an adapter does in several steps, it does. -/
theorem outside_trans {a b c : World} (h : Outside a b) (h' : Outside b c) : Outside a c := by
  obtain ⟨calls, he⟩ := h.log
  obtain ⟨calls', he'⟩ := h'.log
  exact ⟨h'.working.trans h.working, h'.committed.trans h.committed, h'.depth.trans h.depth,
    h.nextId.trans h'.nextId, calls ++ calls', by rw [he', he, List.map_append, List.append_assoc]⟩

/-- The clock, the machine and the database were read, identifiers were drawn, nothing was
written. -/
structure Reads (w w' : World) : Prop where
  working : w'.working = w.working
  committed : w'.committed = w.committed
  depth : w'.depth = w.depth
  log : w'.log = w.log
  nextId : w.nextId ≤ w'.nextId

namespace Reads

/-- INTERNAL: a world reads itself. -/
theorem refl (w : World) : Reads w w := ⟨rfl, rfl, rfl, rfl, le_rfl⟩

/-- INTERNAL: reading is transitive. -/
theorem trans {a b c : World} (h : Reads a b) (h' : Reads b c) : Reads a c :=
  ⟨h'.working.trans h.working, h'.committed.trans h.committed, h'.depth.trans h.depth,
    h'.log.trans h.log, h.nextId.trans h'.nextId⟩

/-- INTERNAL: reading is quiet. -/
theorem quiet {a b : World} (h : Reads a b) : Quiet a b := ⟨h.committed, h.nextId, [], by simp [h.log]⟩

/-- INTERNAL: it opens no block. -/
theorem idle {a b : World} (h : Reads a b) (ha : a.Idle) : b.Idle :=
  ⟨h.depth.trans ha.depth, h.working.trans (ha.working.trans h.committed.symm)⟩

/-- INTERNAL: and is calm in a world at rest. -/
theorem calm {a b : World} (h : Reads a b) (ha : a.Idle) : Calm a b := ⟨h.quiet, h.idle ha⟩

end Reads

/-- INTERNAL: a program that only reads, as a phase of a longer one. -/
theorem sat_reads (host : Host) {α : Type} {p : Proc α} (hp : p.Guarantee Reads) (w : World) :
    p.Sat (Moves host) (fun _ t => Reads w t) w :=
  (hp.sat Reads.refl (fun _ _ _ => Reads.trans) w).mono (fun _ _ h => h.quiet.moves host)
    fun _ _ h => h

/-- INTERNAL: the clock is read. -/
theorem reads_now (host : Host) : (now host).Guarantee Reads :=
  Program.guarantee_act _ fun _ => ⟨rfl, rfl, rfl, rfl, le_rfl⟩

/-- The contract has its required fields and has not expired at the instant. -/
def Valid (host : Host) (contract : ExecutionContract) (instant : ℕ) : Prop :=
  ExecutionSupervisor.missingField contract = none ∧
    ∀ expiry, contract.expiresAt = some expiry → ¬ expiry < host.clock instant

/-- The clock readings that validation takes. -/
def validationTicks (contract : ExecutionContract) : ℕ := contract.expiresAt.elim 0 fun _ => 1

/-- INTERNAL: validation reads at most the clock. -/
theorem reads_validate (host : Host) (contract : ExecutionContract) :
    (ExecutionSupervisor.validate host contract).Guarantee Reads := by
  unfold ExecutionSupervisor.validate
  split
  · exact Program.guarantee_throw _
  · split
    · exact Program.guarantee_pure _
    · refine Program.guarantee_bind (reads_now host) fun at_ => ?_
      split
      · exact Program.guarantee_throw _
      · exact Program.guarantee_pure _

/-- Validation reads at most the clock, and raises exactly when the contract is not valid.
SOURCE: app/supervisor.py:478-497 -/
theorem sat_validate (host : Host) (contract : ExecutionContract) (w : World) :
    (ExecutionSupervisor.validate host contract).Sat (Moves host)
      (fun r t => Reads w t ∧ match r with
        | .ok _ => Valid host contract w.ticks ∧ t.ticks = w.ticks + validationTicks contract
        | .error _ => ¬ Valid host contract w.ticks) w := by
  refine ((sat_reads host (reads_validate host contract) w).and (Program.sat_of_run ?_)).mono
    (fun _ _ h => h.1) fun _ _ h => h
  unfold ExecutionSupervisor.validate Valid validationTicks
  cases hfield : ExecutionSupervisor.missingField contract with
  | some reason => simp
  | none =>
    cases hexpires : contract.expiresAt with
    | none => simp
    | some expiry =>
      by_cases hlt : expiry < host.clock w.ticks
      · simp [hlt]
      · simp [hlt, not_lt.mp hlt]

/-- What is checked between the reservation and the receipt, as a function of the machine's
state. -/
def admission (py : Stdlib) (probes : Probes) (contract : ExecutionContract) :
    Except Err (ResolvedIdentity × Option ScopeEnforcementReport) := do
  let _ ← probes.getcwd
  let resolved ← IdentityResolver.resolve py probes (effectiveRequestedTarget contract)
    contract.identityRequirements
  let _ ← IdentityRevalidator.verify py probes resolved contract.identityRequirements "pre_receipt"
  match contract.scope with
  | none => pure (resolved, none)
  | some scope => do
    let report ← evaluateScope py scope contract
    pure (resolved, some report)

/-- INTERNAL: environment, target and scope are checked at one instant, without writing.
SOURCE: app/supervisor.py:139-153 -/
theorem sat_admission (host : Host) (contract : ExecutionContract) {β : Type}
    (f : ResolvedIdentity × Option ScopeEnforcementReport → Proc β)
    {Q : Except Err β → World → Prop} {w : World}
    (h : match admission host.py (host.probes (w.ticks + 1)) contract with
      | .ok admitted => (f admitted).Sat (Moves host) Q { w with ticks := w.ticks + 1 }
      | .error e => Q (.error e) { w with ticks := w.ticks + 1 }) :
    (do ExecutionSupervisor.probeEnvironment host
        let admitted ← ExecutionSupervisor.admitTarget host contract
        f admitted).Sat (Moves host) Q w := by
  have hquiet : Moves host { w with ticks := w.ticks + 1 } { w with ticks := w.ticks + 1 } :=
    (Quiet.refl _).moves host
  unfold ExecutionSupervisor.probeEnvironment ExecutionSupervisor.admitTarget
  unfold admission at h
  simp only [Program.sat_bind, sat_now, sat_probe, Program.then_ok, Program.sat_ofExcept]
  refine ⟨(quiet_tick w).moves host, hquiet, ?_⟩
  cases hcwd : (host.probes (w.ticks + 1)).getcwd with
  | error e => simpa [hcwd, bind, Except.bind] using h
  | ok cwd =>
  simp only [Program.then_ok, Program.sat_pure, Program.sat_bind, sat_probe, Program.sat_ofExcept]
  refine ⟨hquiet, ?_⟩
  cases hresolve : IdentityResolver.resolve host.py (host.probes (w.ticks + 1))
      (effectiveRequestedTarget contract) contract.identityRequirements with
  | error e => simpa [hcwd, hresolve, bind, Except.bind] using h
  | ok resolved =>
  rw [Program.then_ok, Program.sat_bind, Program.sat_ofExcept]
  cases hverify : IdentityRevalidator.verify host.py (host.probes (w.ticks + 1)) resolved
      contract.identityRequirements "pre_receipt" with
  | error e => simpa [hcwd, hresolve, hverify, bind, Except.bind] using h
  | ok verified =>
  rw [Program.then_ok]
  cases hscope : contract.scope with
  | none => simpa [hcwd, hresolve, hverify, hscope, bind, Except.bind, pure, Except.pure] using h
  | some scope =>
  simp only [Program.sat_bind, Program.sat_ofExcept]
  cases hreport : evaluateScope host.py scope contract with
  | error e => simpa [hcwd, hresolve, hverify, hscope, hreport, bind, Except.bind] using h
  | ok report =>
    simpa [hcwd, hresolve, hverify, hscope, hreport, bind, Except.bind, pure, Except.pure] using h

/-- Verification of the result comes to an answer: its payload can be hashed, and no membership test
meets an unhashable postcondition. -/
def verifiable (operation : String) (result : AdapterResult) : Bool :=
  (Value.dict (evidencePayload result)).dumpable &&
    (policyForOperation operation).postconditions.all fun required =>
      (postconditionMet result (evidencePayload result) required).isOk

/-- INTERNAL: whether the loop over the postconditions raises does not depend on the judgement so
far.
SOURCE: app/verify_engine.py:112-160 -/
theorem checkPostconditions_isOk (policy : VerificationPolicy) (result : AdapterResult)
    (payload : Dict) (required : List String) (j : Judgement) :
    (checkPostconditions policy result payload required j).isOk =
      required.all fun r => (postconditionMet result payload r).isOk := by
  induction required generalizing j with
  | nil => rfl
  | cons r rest ih =>
    rw [checkPostconditions, List.all_cons]
    cases postconditionMet result payload r with
    | error e => rfl
    | ok met =>
      rw [show (Except.ok met : Except Err Bool).isOk = true from rfl, Bool.true_and]
      exact ih _

/-- The evidence of a result, with a hash of its payload. -/
def evidenceWith (contentHash evidenceId receiptId attemptId operation : String) (result : AdapterResult)
    (observedAt : Time) : EvidenceRecord :=
  { id := evidenceId
    receiptId := receiptId
    attemptId := some attemptId
    kind := evidenceKindForOperation operation
    source := "adapter"
    strength := .direct
    observedAt := observedAt
    contentHash := contentHash
    payload := evidencePayload result }

/-- INTERNAL: evidence of a result is built exactly when its payload can be hashed.
SOURCE: app/verify_engine.py:33-69 -/
theorem evidenceFromAdapter_cases (py : Stdlib) (evidenceId receiptId attemptId operation : String)
    (result : AdapterResult) (observedAt : Time) :
    (∀ e, evidenceFromAdapter py evidenceId receiptId attemptId operation result observedAt = .error e →
      (Value.dict (evidencePayload result)).dumpable = false) ∧
    ∀ evidence, evidenceFromAdapter py evidenceId receiptId attemptId operation result observedAt =
        .ok evidence →
      (Value.dict (evidencePayload result)).dumpable = true ∧ ∃ contentHash,
        evidence = evidenceWith contentHash evidenceId receiptId attemptId operation result observedAt := by
  cases hdumpable : (Value.dict (evidencePayload result)).dumpable with
  | false =>
    have hraised : evidenceFromAdapter py evidenceId receiptId attemptId operation result observedAt =
        .error (.typeError "'<' not supported between instances") := by
      simp only [evidenceFromAdapter, hashPayload, hdumpable, Bool.false_eq_true, if_false]
      rfl
    exact ⟨fun _ _ => rfl, fun _ h => by cases hraised.symm.trans h⟩
  | true =>
    refine ⟨fun e h => ?_, fun evidence h => ⟨rfl, ?_⟩⟩
    · simp only [evidenceFromAdapter, hashPayload, hdumpable, if_true] at h
      cases h
    · simp only [evidenceFromAdapter, hashPayload, hdumpable, if_true] at h
      cases h
      exact ⟨_, rfl⟩

/-- INTERNAL: evidence and verification are computed without writing; this raises exactly when the
result is not verifiable.
SOURCE: app/supervisor.py:255-276 -/
theorem sat_judge (host : Host) (operation receiptId attemptId : String) (result : AdapterResult)
    (w : World) :
    (ExecutionSupervisor.judge host operation receiptId attemptId result).Sat (Moves host)
      (fun r t => Reads w t ∧ r.isOk = verifiable operation result ∧
        ∀ evidence verification, r = .ok (evidence, verification) →
          evidence.payload = evidencePayload result ∧ evidence.receiptId = receiptId ∧
            verification.receiptId = receiptId) w := by
  have hreads : Reads w { w with ticks := w.ticks + 1, nextId := w.nextId + 1 + 1 } :=
    ⟨rfl, rfl, rfl, rfl, by simp only; omega⟩
  unfold ExecutionSupervisor.judge
  simp only [Program.sat_bind, sat_now, sat_newId, Program.then_ok, Program.sat_ofExcept]
  refine ⟨(quiet_tick w).moves host, (quiet_newId _).moves host, ?_⟩
  obtain ⟨hraised, hbuilt⟩ := evidenceFromAdapter_cases host.py (host.newId w.nextId) receiptId
    attemptId operation result (host.clock w.ticks)
  cases hevidence : evidenceFromAdapter host.py (host.newId w.nextId) receiptId attemptId operation
      result (host.clock w.ticks) with
  | error e =>
    refine ⟨⟨rfl, rfl, rfl, rfl, by simp only; omega⟩, ?_, by simp⟩
    rw [verifiable, hraised e hevidence]
    rfl
  | ok evidence =>
    obtain ⟨hdumpable, contentHash, rfl⟩ := hbuilt evidence hevidence
    have hok := checkPostconditions_isOk (policyForOperation operation) result
      (evidencePayload result) (policyForOperation operation).postconditions
      (checkEvidence (policyForOperation operation) result (evidenceWith contentHash
        (host.newId w.nextId) receiptId attemptId operation result (host.clock w.ticks)))
    simp only [Program.then_ok, Program.sat_bind, sat_newId, Program.sat_ofExcept]
    refine ⟨(quiet_newId _).moves host, ?_⟩
    rw [verifiable, hdumpable, Bool.true_and, ← hok]
    unfold evaluateVerification
    simp only [evidenceWith] at hok ⊢
    cases checkPostconditions (policyForOperation operation) result (evidencePayload result)
        (policyForOperation operation).postconditions
        (checkEvidence (policyForOperation operation) result _) with
    | error e => exact ⟨hreads, rfl, by simp⟩
    | ok j =>
      refine ⟨hreads, rfl, fun found verification h => ?_⟩
      cases h
      exact ⟨rfl, rfl, rfl⟩

/-! ## The key and the receipt -/

/-- The state after a reservation: one more key, and nothing else. -/
structure Reserved (w t : World) (key : String) : Prop where
  idle : t.Idle
  log : t.log = w.log
  nextId : t.nextId = w.nextId
  ticks : t.ticks = w.ticks + 1
  absent : IdempotencyRepository.ofTables w.committed key = none
  committed : ∃ at_, t.committed =
    IdempotencyRepository.add (ExecutionSupervisor.reservation key at_) w.committed

/-- INTERNAL: the insert, inside its transaction.
SOURCE: persistence/sqlite/app_idempotency_repository.py:50-67 -/
theorem run_insert (r : IdempotencyRecord) (w : World) :
    (IdempotencyRepository.insert r).run w =
      if (IdempotencyRepository.ofTables w.working r.key).isNone then
        (.ok (), { w with working := IdempotencyRepository.add r w.working })
      else (.error (.integrityError "UNIQUE constraint failed: app_idempotency.key"), w) :=
  run_executeChecked _ _ _ w

/-- INTERNAL: the insert is inner. -/
theorem inner_insert (r : IdempotencyRecord) : Inner (IdempotencyRepository.insert r) :=
  .executeChecked _ _ _

/-- A reservation inserts the row of a key that has none. A key with a row, in whatever state, makes
it raise and leave everything alone.
SOURCE: app/supervisor.py:399-429 -/
theorem sat_reserveIdempotency (host : Host) (key : String) {w : World} (hw : w.Idle) :
    (ExecutionSupervisor.reserveIdempotency host key).Sat (Moves host)
      (fun r t => match r with
        | .ok _ => Reserved w t key
        | .error _ => Calm w t ∧ (IdempotencyRepository.ofTables w.committed key).isSome) w := by
  unfold ExecutionSupervisor.reserveIdempotency
  rw [IdempotencyRepository.get, Program.sat_bind, sat_query]
  refine ⟨(Quiet.refl w).moves host, ?_⟩
  rw [Program.then_ok, hw.working]
  cases hrefused : (IdempotencyRepository.ofTables w.committed key).bind fun row =>
      ExecutionSupervisor.refusalOf key row.state with
  | some reason =>
    refine ⟨(Reads.refl w).calm hw, ?_⟩
    cases hrow : IdempotencyRepository.ofTables w.committed key with
    | none => simp [hrow] at hrefused
    | some row => rfl
  | none =>
    simp only [Program.sat_bind, sat_now, Program.then_ok, Program.sat_tryCatch]
    refine ⟨(quiet_tick w).moves host, ?_⟩
    have hmoves : ∀ a b, Quiet a b → Moves host a b := fun _ _ h => h.moves host
    have hidle : ({ w with ticks := w.ticks + 1 } : World).Idle := ⟨hw.depth, hw.working⟩
    cases hrow : IdempotencyRepository.ofTables w.committed key with
    | none =>
      have hrun := run_insert (ExecutionSupervisor.reservation key (host.clock w.ticks))
        ({ w with ticks := w.ticks + 1 } : World).enter
      rw [if_pos (by simp [World.enter, hw.working, ExecutionSupervisor.reservation, hrow])] at hrun
      refine sat_withUow_commits (inner_insert _) hidle hmoves hrun ?_ ?_
      · have h := @Step.reserved host (ledgerOf w)
          (ExecutionSupervisor.reservation key (host.clock w.ticks)) rfl hrow
        simpa [Moves, ledgerOf, World.commit, World.enter, IdempotencyRepository.add, hw.working]
          using h
      · refine ⟨⟨rfl, rfl⟩, rfl, rfl, rfl, hrow, host.clock w.ticks, ?_⟩
        simp only [World.commit, World.enter, hw.working]
    | some row =>
      have hrun := run_insert (ExecutionSupervisor.reservation key (host.clock w.ticks))
        ({ w with ticks := w.ticks + 1 } : World).enter
      rw [if_neg (by simp [World.enter, hw.working, ExecutionSupervisor.reservation, hrow])] at hrun
      refine sat_withUow_rolls_back (inner_insert _) hidle hmoves ⟨_, _, hrun⟩ ?_
      intro e t ht
      exact ⟨⟨(quiet_tick w).trans ht.toQuiet, ht.idle⟩, rfl⟩

/-- The clock readings a keyed step takes. -/
def keyTicks (key : Option String) : ℕ := key.elim 0 fun _ => 1

/-- The row of a key once it is bound to a receipt. -/
def boundRow (t : Tables) (key receiptId : String) (at_ : Time) : IdempotencyRecord :=
  match IdempotencyRepository.ofTables t key with
  | none => { ExecutionSupervisor.reservation key at_ with receiptId := some receiptId }
  | some row => { row with receiptId := some receiptId, updatedAt := at_ }

/-- INTERNAL: the bound row is the key's. -/
theorem boundRow_key (t : Tables) (key receiptId : String) (at_ : Time) :
    (boundRow t key receiptId at_).key = key := by
  unfold boundRow
  split
  · rfl
  · next row hrow => exact (Table.lookup_eq_some_key hrow : row.key = key)

/-- INTERNAL: binding writes one row.
SOURCE: app/supervisor.py:431-450 -/
theorem run_bindIdempotencyReceipt (host : Host) {w : World} (hw : 0 < w.depth)
    (key receiptId : String) :
    (ExecutionSupervisor.bindIdempotencyReceipt host key receiptId).run w =
      (.ok (), { w with
        ticks := w.ticks + 1
        working := IdempotencyRepository.put
          (boundRow w.working key receiptId (host.clock w.ticks)) w.working }) := by
  unfold ExecutionSupervisor.bindIdempotencyReceipt boundRow
  simp only [IdempotencyRepository.get, Program.run_bind, run_query, run_now]
  cases IdempotencyRepository.ofTables w.working key <;>
    simp [IdempotencyRepository.save, hw]

/-- INTERNAL: a keyed step at the end of a transaction, read as an optional row. -/
theorem inner_whenKeyed (key : Option String) {body : String → Proc Unit}
    (hb : ∀ k, Inner (body k)) : Inner (ExecutionSupervisor.whenKeyed key body) := by
  cases key with
  | none => exact .pure _
  | some k => exact hb k

/-- INTERNAL: binding is inner. -/
theorem inner_bindIdempotencyReceipt (host : Host) (key receiptId : String) :
    Inner (ExecutionSupervisor.bindIdempotencyReceipt host key receiptId) := by
  refine .bind (.query _) fun existing => .bind (.now host) fun at_ => ?_
  cases existing <;> exact .withUow (.execute _)

/-- INTERNAL: the intent is written by inner programs.
SOURCE: app/supervisor.py:181-186 -/
theorem inner_writeIntent (host : Host) (receipt : ExecutionReceipt) (attempt : ExecutionAttempt)
    (key : Option String) : Inner (ExecutionSupervisor.writeIntent host receipt attempt key) :=
  .bind (.save _ _) fun _ => .bind (.save _ _) fun _ => .bind (.saveChecked _ _ _ _) fun _ =>
    inner_whenKeyed key fun k => inner_bindIdempotencyReceipt host k receipt.id

/-- INTERNAL: saving a new receipt and saving it again under another state appends one row. -/
theorem upsert_receipt_twice {rows : List ExecutionReceipt} {receipt : ExecutionReceipt}
    (hnew : ∀ r ∈ rows, r.id ≠ receipt.id) (state : ReceiptState) :
    Table.upsert ExecutionReceipt.id ReceiptRepository.merge { receipt with state := state }
      (Table.upsert ExecutionReceipt.id ReceiptRepository.merge receipt rows) =
      rows ++ [{ receipt with state := state }] := by
  have hnew' : ∀ r ∈ rows, r.id ≠ ({ receipt with state := state } : ExecutionReceipt).id := hnew
  rw [Table.upsert_of_new hnew, Table.upsert_append_of_new hnew']
  simp [Table.upsert, ReceiptRepository.merge]

/-- The tables once receipt and attempt are written, before the key is bound. -/
def intentTables (receipt : ExecutionReceipt) (attempt : ExecutionAttempt) (t : Tables) : Tables :=
  AttemptRepository.put attempt
    (ReceiptRepository.put { receipt with state := .attempting } (ReceiptRepository.put receipt t))

/-- INTERNAL: for a receipt and an attempt that are new, these are two more rows. -/
theorem intentTables_eq {t : Tables} {receipt : ExecutionReceipt} {attempt : ExecutionAttempt}
    (hnewReceipt : ∀ r ∈ t.receipts, r.id ≠ receipt.id)
    (hnewAttempt : ∀ a ∈ t.attempts, a.id ≠ attempt.id) :
    intentTables receipt attempt t = { t with
      receipts := t.receipts ++ [{ receipt with state := .attempting }]
      attempts := t.attempts ++ [attempt] } := by
  have hr := upsert_receipt_twice hnewReceipt .attempting
  have ha : Table.upsert ExecutionAttempt.id AttemptRepository.merge attempt t.attempts =
      t.attempts ++ [attempt] := Table.upsert_of_new hnewAttempt
  simp only [intentTables, AttemptRepository.put, ReceiptRepository.put, hr, ha]

/-- INTERNAL: what the intent transaction writes.
SOURCE: app/supervisor.py:181-186 -/
theorem run_writeIntent (host : Host) {w : World} (hw : 0 < w.depth) {receipt : ExecutionReceipt}
    {attempt : ExecutionAttempt} (key : Option String)
    (hreceipt : (Value.dict receipt.metadata).serializable = true)
    (hattempt : (Value.dict attempt.evidence).serializable = true)
    (hlink : attempt.receiptId = receipt.id) :
    (ExecutionSupervisor.writeIntent host receipt attempt key).run w =
      (.ok (), { w with
        ticks := w.ticks + key.elim 0 fun _ => 1
        working := { intentTables receipt attempt w.working with
          idempotency := withRow
            (key.map fun k => boundRow w.working k receipt.id (host.clock w.ticks))
            w.working.idempotency } }) := by
  have hsaved : (ExecutionSupervisor.writeIntent host receipt attempt key).run w =
      (ExecutionSupervisor.whenKeyed key fun k =>
        ExecutionSupervisor.bindIdempotencyReceipt host k receipt.id).run
        { w with working := intentTables receipt attempt w.working } := by
    let opened : Tables :=
      ReceiptRepository.put { receipt with state := .attempting } (ReceiptRepository.put receipt w.working)
    have hopened : opened.hasReceipt attempt.receiptId = true := by
      rw [hlink]
      exact Table.has_upsert_self keepsKey_receipt _ { receipt with state := .attempting }
    have hsaved := run_saveAttempt (w := { w with working := opened }) hw hattempt
      (Bool.or_eq_true_iff.mpr (.inr hopened))
    simp [ExecutionSupervisor.writeIntent, ReceiptRepository.save, hw, hreceipt]
    rw [hsaved]
    rfl
  rw [hsaved]
  cases key with
  | none => rfl
  | some k =>
    exact run_bindIdempotencyReceipt host (by exact hw) k receipt.id

/-- INTERNAL: metadata that is not JSON stops the intent transaction.
SOURCE: app/supervisor.py:181-186 -/
theorem run_writeIntent_raises (host : Host) {w : World} (hw : 0 < w.depth)
    {receipt : ExecutionReceipt} (attempt : ExecutionAttempt) (key : Option String)
    (hreceipt : ¬ (Value.dict receipt.metadata).serializable = true) :
    ∃ e t, (ExecutionSupervisor.writeIntent host receipt attempt key).run w = (.error e, t) := by
  simp [ExecutionSupervisor.writeIntent, ReceiptRepository.save, hw, hreceipt]

/-- The tables after an intent was committed. -/
def openedTables (receipt : ExecutionReceipt) (attempt : ExecutionAttempt)
    (row : Option IdempotencyRecord) (t : Tables) : Tables :=
  { t with
    receipts := t.receipts ++ [receipt]
    attempts := t.attempts ++ [attempt]
    idempotency := withRow row t.idempotency }

/-- The state after an intent was committed. -/
structure Opened (key : Option String) (w t : World) (receipt : ExecutionReceipt)
    (attempt : ExecutionAttempt) : Prop where
  idle : t.Idle
  log : t.log = w.log
  nextId : t.nextId = w.nextId
  ticks : t.ticks = w.ticks + keyTicks key
  committed : ∃ at_, t.committed = openedTables receipt attempt
    (key.map fun k => boundRow w.committed k receipt.id at_) w.committed

/-- INTERNAL: committing an intent under identifiers that are new writes its rows, or raises and
leaves everything alone.
SOURCE: app/supervisor.py:181-190 -/
theorem sat_commitIntent (host : Host) {receipt : ExecutionReceipt} {attempt : ExecutionAttempt}
    (key : Option String) {w : World} (hw : w.Idle) {m n : ℕ}
    (hreceiptId : receipt.id = host.newId m) (hattemptId : attempt.id = host.newId n)
    (hm : m < w.nextId) (hn : n < w.nextId)
    (hnewReceipt : ∀ r ∈ w.committed.receipts, r.id ≠ receipt.id)
    (hnewAttempt : ∀ a ∈ w.committed.attempts, a.id ≠ attempt.id)
    (hcreated : attempt.state = .created) (hlink : attempt.receiptId = receipt.id)
    (hevidence : attempt.evidence = []) :
    (ExecutionSupervisor.commitIntent host receipt attempt key).Sat (Moves host)
      (fun r t => match r with
        | .ok rows => rows = ({ receipt with state := .attempting }, attempt) ∧
            (Value.dict receipt.metadata).serializable = true ∧
            Opened key w t { receipt with state := .attempting } attempt
        | .error _ => (Value.dict receipt.metadata).serializable = false ∧ Calm w t) w := by
  have hjsonA : (Value.dict attempt.evidence).serializable = true := by rw [hevidence]; rfl
  have hpos : 0 < w.enter.depth := Nat.succ_pos _
  have hmoves : ∀ a b, Quiet a b → Moves host a b := fun _ _ h => h.moves host
  unfold ExecutionSupervisor.commitIntent
  rw [Program.sat_bind]
  cases hjson : (Value.dict receipt.metadata).serializable with
  | false =>
    refine sat_withUow_rolls_back (inner_writeIntent _ _ _ _) hw hmoves
      (run_writeIntent_raises host hpos attempt key (by simp [hjson])) ?_
    exact fun e t ht => ⟨rfl, ht⟩
  | true =>
    have hrun := run_writeIntent host hpos key hjson hjsonA hlink
    have htables : ({ intentTables receipt attempt w.enter.working with
        idempotency := withRow
          (key.map fun k => boundRow w.enter.working k receipt.id (host.clock w.enter.ticks))
          w.enter.working.idempotency } : Tables) =
        openedTables { receipt with state := .attempting } attempt
          (key.map fun k => boundRow w.committed k receipt.id (host.clock w.ticks)) w.committed := by
      have henter : w.enter.working = w.committed := hw.working
      rw [henter, intentTables_eq hnewReceipt hnewAttempt]
      rfl
    rw [htables] at hrun
    refine sat_withUow_commits (inner_writeIntent _ _ _ _) hw hmoves hrun ?_ ?_
    · exact @Step.opened host (ledgerOf w) { receipt with state := .attempting } attempt _ m n
        hreceiptId hattemptId hm hn hnewReceipt hnewAttempt rfl hcreated hlink hjson hjsonA
    · -- the row just committed is found again
      rw [Program.then_ok, ReceiptRepository.get, Program.sat_bind, sat_query]
      refine ⟨(Quiet.refl _).moves host, ?_⟩
      have hfound : Table.lookup ExecutionReceipt.id
          (w.committed.receipts ++ [{ receipt with state := .attempting }]) receipt.id =
          some { receipt with state := .attempting } := by
        rw [Table.lookup_append_of_none (Table.lookup_eq_none_iff.mpr hnewReceipt)]
        simp [Table.lookup]
      simp only [Program.then_ok, World.commit, openedTables, hfound]
      exact ⟨rfl, trivial, ⟨⟨rfl, rfl⟩, rfl, rfl, rfl, host.clock w.ticks, rfl⟩⟩

/-- INTERNAL: identifiers not drawn yet are not in the ledger. -/
theorem Safe.fresh {host : Host} {w : World} (hs : Safe host (ledgerOf w)) {n : ℕ}
    (hn : w.nextId ≤ n) :
    (∀ r ∈ w.committed.receipts, r.id ≠ host.newId n) ∧
      ∀ a ∈ w.committed.attempts, a.id ≠ host.newId n := by
  constructor
  · intro r hr he
    obtain ⟨k, hk, hid⟩ := hs.receiptIds r hr
    obtain rfl := host.newId_injective (hid.symm.trans he)
    exact absurd hk (Nat.not_lt.mpr hn)
  · intro a ha he
    obtain ⟨k, hk, hid⟩ := hs.attemptIds a ha
    obtain rfl := host.newId_injective (hid.symm.trans he)
    exact absurd hk (Nat.not_lt.mpr hn)

/-- The rows an execution starts with, under the next two identifiers. -/
structure Started (host : Host) (contract : ExecutionContract) (adapterName : String) (w : World)
    (receipt : ExecutionReceipt) (attempt : ExecutionAttempt) : Prop where
  receipt_eq : ∃ at_, receipt = { ExecutionSupervisor.newReceipt contract adapterName
    (host.newId w.nextId) at_ with state := .attempting }
  attempt_eq : ∃ at_, attempt = ExecutionSupervisor.newAttempt adapterName (host.newId w.nextId)
    (host.newId (w.nextId + 1)) at_
  json : (Value.dict contract.metadata).serializable = true

/-- Opening a receipt commits it with its attempt and binds the key; or it raises and leaves
everything alone, which happens when the metadata are not JSON.
SOURCE: app/supervisor.py:153-190 -/
theorem sat_openReceipt (host : Host) (contract : ExecutionContract) (adapterName : String)
    (key : Option String) {w : World} (hw : w.Idle) (hs : Safe host (ledgerOf w)) :
    (ExecutionSupervisor.openReceipt host contract adapterName key).Sat (Moves host)
      (fun r t => match r with
        | .ok (receipt, attempt) => Started host contract adapterName w receipt attempt ∧
            ∃ w₁, Reads w w₁ ∧ w₁.ticks = w.ticks + 1 ∧ Opened key w₁ t receipt attempt
        | .error _ => (Value.dict contract.metadata).serializable = false ∧ Calm w t) w := by
  unfold ExecutionSupervisor.openReceipt
  simp only [Program.sat_bind, sat_now, sat_newId, Program.then_ok]
  refine ⟨(quiet_tick w).moves host, (quiet_newId _).moves host, (quiet_newId _).moves host, ?_⟩
  have hreads : Reads w { w with ticks := w.ticks + 1, nextId := w.nextId + 1 + 1 } :=
    ⟨rfl, rfl, rfl, rfl, by simp only; omega⟩
  have hlt : w.nextId < w.nextId + 1 + 1 := by omega
  refine (sat_commitIntent host key (hreads.idle hw) rfl rfl hlt (Nat.lt_succ_self _)
    (hs.fresh le_rfl).1 (hs.fresh (Nat.le_succ _)).2 rfl rfl rfl).post fun r t ht => ?_
  cases r with
  | error e => exact ⟨ht.1, hreads.quiet.trans ht.2.toQuiet, ht.2.idle⟩
  | ok rows =>
    obtain ⟨rfl, hjson, hopened⟩ := ht
    exact ⟨⟨⟨_, rfl⟩, ⟨_, rfl⟩, hjson⟩, _, hreads, rfl, hopened⟩

/-! ## Invoking and finalizing -/

/-- The state after the attempt was marked invoked. -/
structure Marked (w t : World) (attempt marked : ExecutionAttempt) : Prop where
  idle : t.Idle
  log : t.log = w.log
  nextId : t.nextId = w.nextId
  marked_eq : ∃ at_, marked = { attempt with state := .invoked, invokedAt := some at_ }
  committed : t.committed = AttemptRepository.put marked w.committed

/-- The second verification of the target passes at the instant. -/
def revalidates (host : Host) (contract : ExecutionContract) (resolved : ResolvedIdentity)
    (instant : ℕ) : Bool :=
  (IdentityRevalidator.verify host.py (host.probes instant) resolved
    contract.identityRequirements "pre_invoke").isOk

/-- Revalidation raises and leaves everything alone, or the attempt is marked.
SOURCE: app/supervisor.py:192-224 -/
theorem sat_markInvoked (host : Host) (contract : ExecutionContract) (resolved : ResolvedIdentity)
    {w : World} (hw : w.Idle) {receipt : ExecutionReceipt} {attempt : ExecutionAttempt}
    (hattempt : Table.lookup ExecutionAttempt.id w.committed.attempts attempt.id = some attempt)
    (hreceipt : Table.lookup ExecutionReceipt.id w.committed.receipts attempt.receiptId =
      some receipt)
    (hattempting : receipt.state = .attempting)
    (hjson : (Value.dict attempt.evidence).serializable = true) :
    (ExecutionSupervisor.markInvoked host contract resolved attempt).Sat (Moves host)
      (fun r t => match r with
        | .ok (_, marked) => revalidates host contract resolved w.ticks = true ∧
            Marked w t attempt marked
        | .error _ => revalidates host contract resolved w.ticks = false ∧ Calm w t) w := by
  unfold ExecutionSupervisor.markInvoked revalidates
  rw [Program.sat_bind, sat_probe]
  refine ⟨(Quiet.refl w).moves host, ?_⟩
  rw [Program.then_ok, Program.sat_bind, Program.sat_ofExcept]
  cases IdentityRevalidator.verify host.py (host.probes w.ticks) resolved
      contract.identityRequirements "pre_invoke" with
  | error e => exact ⟨rfl, (Reads.refl w).calm hw⟩
  | ok verified =>
    simp only [Program.then_ok, Program.sat_bind, sat_now]
    refine ⟨(quiet_tick w).moves host, ?_⟩
    have hknown : Table.has ExecutionAttempt.id w.working.attempts attempt.id = true := by
      rw [hw.working]
      exact Table.has_of_mem (Table.lookup_mem hattempt)
    have hrun := run_saveAttempt (w := ({ w with ticks := w.ticks + 1 } : World).enter)
      (a := { attempt with state := .invoked, invokedAt := some (host.clock w.ticks) })
      (Nat.succ_pos _) hjson (Bool.or_eq_true_iff.mpr (.inl hknown))
    refine sat_withUow_commits (Inner.saveChecked _ _ _ _) (by exact ⟨hw.depth, hw.working⟩)
      (fun _ _ h => h.moves host) hrun ?_ ?_
    · have h := @Step.marked host (ledgerOf w) attempt
        { attempt with state := .invoked, invokedAt := some (host.clock w.ticks) } receipt
        hattempt hreceipt hattempting rfl hjson
      simpa [Moves, ledgerOf, World.commit, World.enter, AttemptRepository.put, hw.working] using h
    · refine ⟨rfl, ⟨rfl, rfl⟩, rfl, rfl, ⟨_, rfl⟩, ?_⟩
      simp only [World.commit, World.enter, hw.working]

/-- The result the supervisor goes on with; what is no `Exception` is not caught. -/
def resultOf (host : Host) (adapterName operation receiptId attemptId : String) :
    Except Err AdapterResult → Except Err AdapterResult
  | .ok result => .ok result
  | .error e =>
    if e.isException then
      .ok (ExecutionSupervisor.resultOfError host operation adapterName receiptId attemptId e)
    else .error e

/-- INTERNAL: an `Exception` is made a result of. -/
theorem resultOf_caught {host : Host} {adapterName operation receiptId attemptId : String} {e : Err}
    (h : e.isException = true) : resultOf host adapterName operation receiptId attemptId (.error e) =
      .ok (ExecutionSupervisor.resultOfError host operation adapterName receiptId attemptId e) :=
  if_pos h

/-- INTERNAL: and nothing else that is raised. -/
theorem isException_of_resultOf {host : Host} {adapterName operation receiptId attemptId : String} {e : Err}
    {result : AdapterResult}
    (h : resultOf host adapterName operation receiptId attemptId (.error e) = .ok result) :
    e.isException = true := by
  by_contra hnot
  cases (if_neg hnot : resultOf host adapterName operation receiptId attemptId (.error e) = _).symm.trans h

/-- The state after the adapter came back: the database is as it was, and the log has the call, what
the adapter logged, and the return. -/
structure Invoked (host : Host) (adapter : Adapter) (contract : ExecutionContract)
    (receipt : ExecutionReceipt) (attempt : ExecutionAttempt) (key : Option String) (w t : World)
    (result : Except Err AdapterResult) : Prop where
  idle : t.Idle
  committed : t.committed = w.committed
  nextId : w.nextId ≤ t.nextId
  log : ∃ (handlers : List HandlerCall) (outcome : Except Err AdapterResult),
    t.log = w.log ++ [.adapterCalled receipt.id attempt.id key] ++ handlers.map .handlerCalled ++
      [.adapterReturned attempt.id outcome] ∧
    result = resultOf host adapter.name contract.operation receipt.id attempt.id outcome
  result_eq : ∃ u, result = resultOf host adapter.name contract.operation receipt.id attempt.id
    ((adapter.invoke contract receipt attempt).run u).1

namespace Invoked

/-- INTERNAL: one more adapter call. -/
theorem calls {host : Host} {adapter : Adapter} {contract : ExecutionContract}
    {receipt : ExecutionReceipt} {attempt : ExecutionAttempt} {key : Option String} {w t : World}
    {result : Except Err AdapterResult}
    (h : Invoked host adapter contract receipt attempt key w t result) :
    callsOf t.log = callsOf w.log ++ [⟨receipt.id, attempt.id, key⟩] := by
  obtain ⟨handlers, outcome, hlog, -⟩ := h.log
  rw [hlog]
  simp [callsOf, List.filterMap_append, List.filterMap_map]

end Invoked

/-- The adapter is called once, and whatever it does, the supervisor goes on with a result.
SOURCE: app/supervisor.py:226-266 -/
theorem sat_invokeAdapter (host : Host) (adapter : Adapter) (contract : ExecutionContract)
    {receipt : ExecutionReceipt} {attempt : ExecutionAttempt} {key : Option String} {w : World}
    (hw : w.Idle)
    (hreceipt : Table.lookup ExecutionReceipt.id w.committed.receipts receipt.id = some receipt)
    (hattempting : receipt.state = .attempting)
    (hattempt : Table.lookup ExecutionAttempt.id w.committed.attempts attempt.id = some attempt)
    (hinvoked : attempt.state = .invoked) (hlink : attempt.receiptId = receipt.id)
    (hkey : ∀ k, key = some k →
      (Table.lookup IdempotencyRecord.key w.committed.idempotency k).isSome ∧
        ∀ c ∈ callsOf w.log, c.key ≠ some k) :
    (ExecutionSupervisor.invokeAdapter host adapter contract receipt attempt key).Sat (Moves host)
      (fun r t => Invoked host adapter contract receipt attempt key w t r) w := by
  unfold ExecutionSupervisor.invokeAdapter
  rw [Program.sat_bind, sat_note]
  constructor
  · have h := @Step.called host (ledgerOf w) ⟨receipt.id, attempt.id, key⟩ receipt attempt hreceipt
      hattempting hattempt hinvoked hlink hkey
    simpa [Moves, ledgerOf, callsOf, List.filterMap_append] using h
  · rw [Program.then_ok, Program.sat_bind, Program.sat_attempt]
    have hadapter := ((adapter.outside contract receipt attempt).sat outside_refl
      (fun _ _ _ => outside_trans)
      { w with log := w.log ++ [.adapterCalled receipt.id attempt.id key] }).and (sat_run _ _)
    refine hadapter.mono (fun _ _ h => outside_moves host h.1) fun outcome t ht => ?_
    obtain ⟨ht, hran⟩ := ht
    obtain ⟨handlers, hlog⟩ := ht.log
    rw [Program.then_ok, Program.sat_bind, sat_note]
    constructor
    · exact moves_of_same host rfl rfl rfl
        (by simp [callsOf, List.filterMap_append]) le_rfl
    · have hidle : t.Idle :=
        ⟨ht.depth.trans hw.depth, ht.working.trans (hw.working.trans ht.committed.symm)⟩
      have hdone : ∀ result,
          result = resultOf host adapter.name contract.operation receipt.id attempt.id outcome →
          Invoked host adapter contract receipt attempt key w
            { t with log := t.log ++ [.adapterReturned attempt.id outcome] } result := by
        intro result hresult
        exact ⟨⟨hidle.depth, hidle.working⟩, ht.committed, ht.nextId,
          ⟨handlers, outcome, by simp [hlog], hresult⟩, _, by rw [hresult, hran]⟩
      cases outcome with
      | ok result => exact hdone _ rfl
      | error e =>
        show Program.Sat _ _ (if e.isException then _ else _) _
        split
        · next hcaught => exact hdone _ (if_pos hcaught).symm
        · next hcaught => exact hdone _ (if_neg hcaught).symm

/-- The row of a key once its execution is finalized. -/
def completedRow (t : Tables) (key receiptId : String) (outcome : AppOutcome) (at_ : Time) :
    IdempotencyRecord :=
  { key := key
    receiptId := some receiptId
    state := ExecutionSupervisor.idempotencyStateOf outcome
    outcome := some outcome
    createdAt := (IdempotencyRepository.ofTables t key).elim at_ (·.createdAt)
    updatedAt := at_ }

/-- INTERNAL: completing the key writes one row.
SOURCE: app/supervisor.py:452-476 -/
theorem run_completeIdempotency (host : Host) {w : World} (hw : 0 < w.depth)
    (key receiptId : String) (outcome : AppOutcome) :
    (ExecutionSupervisor.completeIdempotency host key receiptId outcome).run w =
      (.ok (), { w with
        ticks := w.ticks + 1
        working := IdempotencyRepository.put
          (completedRow w.working key receiptId outcome (host.clock w.ticks)) w.working }) := by
  unfold ExecutionSupervisor.completeIdempotency
  simp [IdempotencyRepository.get, IdempotencyRepository.save, hw, completedRow]

/-- INTERNAL: completing is inner. -/
theorem inner_completeIdempotency (host : Host) (key receiptId : String) (outcome : AppOutcome) :
    Inner (ExecutionSupervisor.completeIdempotency host key receiptId outcome) :=
  .bind (.now host) fun _ => .bind (.query _) fun _ => .withUow (.execute _)

/-- INTERNAL: the outcome is written by inner programs.
SOURCE: app/supervisor.py:295-304 -/
theorem inner_writeOutcome (host : Host) (attempt : ExecutionAttempt) (receipt : ExecutionReceipt)
    (evidence : EvidenceRecord) (verification : AppVerificationRecord) (key : Option String)
    (outcome : AppOutcome) :
    Inner (ExecutionSupervisor.writeOutcome host attempt receipt evidence verification key
      outcome) :=
  .bind (.saveChecked _ _ _ _) fun _ => .bind (.save _ _) fun _ => .bind (.saveChecked _ _ _ _) fun _ =>
    .bind (.withUow (.executeChecked _ _ _)) fun _ =>
    inner_whenKeyed key fun k => inner_completeIdempotency host k receipt.id outcome

/-- The tables once the outcome is written, before the key is completed. -/
def outcomeTables (attempt : ExecutionAttempt) (receipt : ExecutionReceipt)
    (evidence : EvidenceRecord) (verification : AppVerificationRecord) (t : Tables) : Tables :=
  AppVerificationRepository.put verification (EvidenceRepository.put evidence
    (ReceiptRepository.put receipt (AttemptRepository.put attempt t)))

/-- The tables after an outcome was committed. -/
def finalizedTables (attempt : ExecutionAttempt) (receipt : ExecutionReceipt)
    (evidence : EvidenceRecord) (verification : AppVerificationRecord)
    (row : Option IdempotencyRecord) (t : Tables) : Tables :=
  { outcomeTables attempt receipt evidence verification t with
    idempotency := withRow row t.idempotency }

/-- INTERNAL: what the outcome transaction writes.
SOURCE: app/supervisor.py:295-304 -/
theorem run_writeOutcome (host : Host) {w : World} (hw : 0 < w.depth) {attempt : ExecutionAttempt}
    {receipt : ExecutionReceipt} {evidence : EvidenceRecord} {verification : AppVerificationRecord}
    (key : Option String) (outcome : AppOutcome)
    (hattempt : (Value.dict attempt.evidence).serializable = true)
    (hreceipt : (Value.dict receipt.metadata).serializable = true)
    (hevidence : (Value.dict evidence.payload).serializable = true)
    (hknown : Table.has ExecutionAttempt.id w.working.attempts attempt.id = true)
    (hevidenceOf : evidence.receiptId = receipt.id)
    (hverificationOf : verification.receiptId = receipt.id) :
    (ExecutionSupervisor.writeOutcome host attempt receipt evidence verification key outcome).run w =
      (.ok (), { w with
        ticks := w.ticks + key.elim 0 fun _ => 1
        working := finalizedTables attempt receipt evidence verification
          (key.map fun k => completedRow w.working k receipt.id outcome (host.clock w.ticks))
          w.working }) := by
  have hsaved : (ExecutionSupervisor.writeOutcome host attempt receipt evidence verification key
      outcome).run w = (ExecutionSupervisor.whenKeyed key fun k =>
        ExecutionSupervisor.completeIdempotency host k receipt.id outcome).run
        { w with working := outcomeTables attempt receipt evidence verification w.working } := by
    have hput (t : Tables) : (ReceiptRepository.put receipt t).hasReceipt receipt.id = true :=
      Table.has_upsert_self keepsKey_receipt _ receipt
    have hsavedAttempt := run_saveAttempt hw hattempt (Bool.or_eq_true_iff.mpr (.inl hknown))
    have hsavedEvidence := run_saveEvidence (w := { w with
        working := ReceiptRepository.put receipt (AttemptRepository.put attempt w.working) }) hw hevidence
      (hevidenceOf ▸ hput _)
    have hsavedVerification := run_saveAppVerification (w := { w with
        working := EvidenceRepository.put evidence (ReceiptRepository.put receipt
          (AttemptRepository.put attempt w.working)) }) (r := verification) hw
      (hverificationOf ▸ hput (AttemptRepository.put attempt w.working))
    simp [ExecutionSupervisor.writeOutcome, ReceiptRepository.save, hsavedAttempt, hsavedEvidence,
      hsavedVerification, hw, hreceipt, outcomeTables]
  rw [hsaved]
  cases key with
  | none => rfl
  | some k => exact run_completeIdempotency host (by exact hw) k receipt.id outcome

/-- INTERNAL: evidence that is not JSON stops the outcome transaction.
SOURCE: app/supervisor.py:295-304 -/
theorem run_writeOutcome_raises (host : Host) {w : World} (hw : 0 < w.depth)
    {attempt : ExecutionAttempt} (receipt : ExecutionReceipt) (evidence : EvidenceRecord)
    (verification : AppVerificationRecord) (key : Option String) (outcome : AppOutcome)
    (hattempt : (Value.dict attempt.evidence).serializable = false) :
    ∃ e t, (ExecutionSupervisor.writeOutcome host attempt receipt evidence verification key
      outcome).run w = (.error e, t) := by
  simp [ExecutionSupervisor.writeOutcome, run_saveAttempt_raises hw hattempt]

/-- INTERNAL: the payload of the evidence is JSON when the adapter's evidence is.
SOURCE: app/verify_engine.py:33-37 -/
theorem evidencePayload_json {result : AdapterResult}
    (h : (Value.dict result.evidence).serializable = true) :
    (Value.dict (evidencePayload result)).serializable = true := by
  refine Value.serializable_update ?_ h
  cases result.error <;> rfl

/-- INTERNAL: verification keeps the adapter's evidence, under the verified outcome.
SOURCE: app/supervisor.py:278-284 -/
theorem settledResult_eq (result : AdapterResult) (verification : AppVerificationRecord) :
    (ExecutionSupervisor.settledResult result verification).evidence = result.evidence ∧
      (ExecutionSupervisor.settledResult result verification).outcome = verification.result := by
  unfold ExecutionSupervisor.settledResult
  split
  · next h => exact ⟨rfl, h.symm⟩
  · exact ⟨rfl, rfl⟩

/-- The result can be verified and stored. -/
def storable (operation : String) (result : AdapterResult) : Bool :=
  verifiable operation result && (Value.dict result.evidence).serializable

/-- The state after an execution was finalized. -/
structure Finalized (key : Option String) (w t : World) (receipt : ExecutionReceipt)
    (attempt : ExecutionAttempt) (s : SupervisionResult) : Prop where
  idle : t.Idle
  log : t.log = w.log
  nextId : w.nextId ≤ t.nextId
  receiptState : s.receipt.state = .finalized
  receiptOutcome : s.receipt.outcome = some s.adapterResult.outcome
  receiptId : s.receipt.id = receipt.id
  attemptId : s.attempt.id = attempt.id
  committed : ∃ evidence at_, t.committed = finalizedTables s.attempt s.receipt evidence
    s.verification (key.map fun k => completedRow w.committed k receipt.id s.adapterResult.outcome at_)
    w.committed

/-- After the adapter came back, the execution is finalized in one commit when its result is
storable; otherwise it raises and leaves everything alone.
SOURCE: app/supervisor.py:268-315 -/
theorem sat_finalize (host : Host) (operation : String) {receipt : ExecutionReceipt}
    {attempt : ExecutionAttempt} (key : Option String) (result : AdapterResult) {w : World}
    (hw : w.Idle)
    (hreceipt : Table.lookup ExecutionReceipt.id w.committed.receipts receipt.id = some receipt)
    (hattempt : Table.lookup ExecutionAttempt.id w.committed.attempts attempt.id = some attempt)
    (hlink : attempt.receiptId = receipt.id)
    (hjson : (Value.dict receipt.metadata).serializable = true) :
    (ExecutionSupervisor.finalize host operation receipt attempt key result).Sat (Moves host)
      (fun r t => match r with
        | .ok s => storable operation result = true ∧ Finalized key w t receipt attempt s
        | .error _ => storable operation result = false ∧ Calm w t) w := by
  unfold ExecutionSupervisor.finalize
  rw [Program.sat_bind]
  refine (sat_judge host operation receipt.id attempt.id result w).post fun r t ht => ?_
  obtain ⟨hreads, hverifiable, hpayload⟩ := ht
  cases r with
  | error e => exact ⟨by simp [storable, ← hverifiable, Except.isOk, Except.toBool], hreads.calm hw⟩
  | ok judged =>
    obtain ⟨evidence, verification⟩ := judged
    obtain ⟨hpayload, hevidenceOf, hverificationOf⟩ := hpayload evidence verification rfl
    obtain ⟨hsettledE, hsettledO⟩ := settledResult_eq result verification
    simp only [Program.then_ok, Program.sat_bind, sat_now]
    refine ⟨(quiet_tick t).moves host, ?_⟩
    have hidle : ({ t with ticks := t.ticks + 1 } : World).Idle :=
      ⟨(hreads.idle hw).depth, (hreads.idle hw).working⟩
    have hpos : 0 < ({ t with ticks := t.ticks + 1 } : World).enter.depth := Nat.succ_pos _
    have hmoves : ∀ a b, Quiet a b → Moves host a b := fun _ _ h => h.moves host
    cases hev : (Value.dict result.evidence).serializable with
    | false =>
      refine sat_withUow_rolls_back (inner_writeOutcome _ _ _ _ _ _ _) hidle hmoves
        (run_writeOutcome_raises host hpos _ _ _ _ _ ?_) ?_
      · simpa [ExecutionSupervisor.finalizedAttempt, hsettledE] using hev
      · intro e t' ht'
        exact ⟨by simp [storable, hev], (hreads.quiet.trans (quiet_tick t)).trans ht'.toQuiet,
          ht'.idle⟩
    | true =>
      have hattemptJson : (Value.dict (ExecutionSupervisor.finalizedAttempt attempt
          (ExecutionSupervisor.settledResult result verification)
          (host.clock t.ticks)).evidence).serializable = true := by
        simpa [ExecutionSupervisor.finalizedAttempt, hsettledE] using hev
      have hevidenceJson : (Value.dict evidence.payload).serializable = true := by
        rw [hpayload]
        exact evidencePayload_json hev
      have hreceiptJson : (Value.dict (ExecutionSupervisor.finalizedReceipt receipt
          verification.result (host.clock t.ticks)).metadata).serializable = true := hjson
      have hworking : t.working = w.committed := hreads.working.trans hw.working
      have hknown : Table.has ExecutionAttempt.id t.working.attempts attempt.id = true := by
        rw [hworking]
        exact Table.has_of_mem (Table.lookup_mem hattempt)
      have hrun := run_writeOutcome host hpos key verification.result hattemptJson hreceiptJson
        hevidenceJson hknown hevidenceOf hverificationOf
      refine sat_withUow_commits (inner_writeOutcome _ _ _ _ _ _ _) hidle hmoves hrun ?_ ?_
      · have h := @Step.settled host (ledgerOf t)
          (ExecutionSupervisor.finalizedReceipt receipt verification.result (host.clock t.ticks))
          receipt
          (ExecutionSupervisor.finalizedAttempt attempt
            (ExecutionSupervisor.settledResult result verification) (host.clock t.ticks)) attempt
          (key.map fun k => completedRow w.committed k receipt.id verification.result
            (host.clock (t.ticks + 1)))
          verification.result (by simpa [ledgerOf, hreads.committed] using hreceipt)
          (by simpa [ledgerOf, hreads.committed] using hattempt) hlink rfl rfl rfl
          (congrArg some hsettledO) hjson hattemptJson
        simpa [Moves, ledgerOf, World.commit, World.enter, hworking, hreads.committed,
          finalizedTables, outcomeTables, AttemptRepository.put, ReceiptRepository.put,
          EvidenceRepository.put, AppVerificationRepository.put] using h
      · rw [Program.then_ok, Program.sat_pure]
        refine ⟨by simp [storable, hev, ← hverifiable, Except.isOk, Except.toBool],
          World.idle_commit _, ?_, ?_, rfl, congrArg some hsettledO.symm, rfl, rfl, evidence,
          host.clock (t.ticks + 1), ?_⟩
        · simp only [World.commit, World.enter, hreads.log]
        · simp only [World.commit, World.enter, hreads.nextId]
        · simp only [World.commit, World.enter, hworking, hsettledO,
            ExecutionSupervisor.finalizedReceipt_id]

/-! ## One execution -/

/-- What the key phase of an execution did. -/
def Keyed (key : Option String) (w t : World) : Prop :=
  match key with
  | none => t = w
  | some k => Reserved w t k

/-- INTERNAL: the key phase reserves the key of a keyed contract, or raises and leaves everything
alone.
SOURCE: app/supervisor.py:135-137 -/
theorem sat_whenKeyed_reserve (host : Host) (key : Option String) {w : World} (hw : w.Idle) :
    (ExecutionSupervisor.whenKeyed key (ExecutionSupervisor.reserveIdempotency host)).Sat
      (Moves host) (fun r t => match r with
        | .ok _ => Keyed key w t
        | .error _ => Calm w t ∧ ∃ k, key = some k ∧
            (IdempotencyRepository.ofTables w.committed k).isSome) w := by
  cases key with
  | none => exact rfl
  | some k =>
    refine (sat_reserveIdempotency host k hw).post fun r t ht => ?_
    cases r with
    | ok _ => exact ht
    | error e => exact ⟨ht.1, k, rfl, ht.2⟩

namespace Keyed

variable {key : Option String} {w t : World}

/-- INTERNAL: no transaction is open after the key phase. -/
theorem idle (h : Keyed key w t) (hw : w.Idle) : t.Idle := by
  cases key with
  | none => exact h ▸ hw
  | some k => exact h.idle

/-- INTERNAL: the key phase logs nothing. -/
theorem log (h : Keyed key w t) : t.log = w.log := by
  cases key with
  | none => exact congrArg World.log h
  | some k => exact Reserved.log h

/-- INTERNAL: the key phase reads the clock once if there is a key. -/
theorem ticks (h : Keyed key w t) : t.ticks = w.ticks + keyTicks key := by
  cases key with
  | none => exact congrArg World.ticks h
  | some k => exact Reserved.ticks h

/-- INTERNAL: a key that was reserved had no row. -/
theorem absent (h : Keyed key w t) {k : String} (hk : key = some k) :
    IdempotencyRepository.ofTables w.committed k = none := by
  subst hk
  exact Reserved.absent h

/-- INTERNAL: the key phase writes keys only. -/
theorem tables (h : Keyed key w t) :
    t.nextId = w.nextId ∧ t.committed.receipts = w.committed.receipts ∧
      t.committed.attempts = w.committed.attempts := by
  cases key with
  | none => exact h ▸ ⟨rfl, rfl, rfl⟩
  | some k =>
    obtain ⟨at_, hc⟩ := Reserved.committed h
    rw [hc]
    exact ⟨Reserved.nextId h, rfl, rfl⟩

end Keyed

/-- How an execution goes on once its receipt is committed: `w` then, `w₁` when the attempt is
marked, `w₂` when the adapter is back. -/
inductive Carried (host : Host) (adapter : Adapter) (contract : ExecutionContract)
    (resolved : ResolvedIdentity) (report : Option ScopeEnforcementReport) (key : Option String)
    (receipt : ExecutionReceipt) (attempt : ExecutionAttempt) (w : World) :
    Except Err SupervisionResult → World → Prop
  /-- Stopped by the second verification. -/
  | unmarked {e : Err} {t : World} (hreason : revalidates host contract resolved w.ticks = false)
      (hend : Calm w t) :
      Carried host adapter contract resolved report key receipt attempt w (.error e) t
  /-- The adapter was called and raised what is no `Exception`. -/
  | interrupted {e : Err} {w₁ t : World} {verified : VerifiedIdentity} {marked : ExecutionAttempt}
      (hmarked : Marked w w₁ attempt marked)
      (hinvoked : Invoked host adapter
        (ExecutionSupervisor.withContext host contract verified report) receipt marked key w₁ t
        (.error e)) :
      Carried host adapter contract resolved report key receipt attempt w (.error e) t
  /-- The adapter was called and came back, and its result could not be stored. -/
  | unstored {e : Err} {w₁ w₂ t : World} {verified : VerifiedIdentity} {marked : ExecutionAttempt}
      {result : AdapterResult} (hmarked : Marked w w₁ attempt marked)
      (hinvoked : Invoked host adapter
        (ExecutionSupervisor.withContext host contract verified report) receipt marked key w₁ w₂
        (.ok result))
      (hreason : storable contract.operation result = false) (hend : Calm w₂ t) :
      Carried host adapter contract resolved report key receipt attempt w (.error e) t
  /-- Finalized. -/
  | finished {s : SupervisionResult} {w₁ w₂ t : World} {verified : VerifiedIdentity}
      {marked : ExecutionAttempt} {result : AdapterResult} (hmarked : Marked w w₁ attempt marked)
      (hinvoked : Invoked host adapter
        (ExecutionSupervisor.withContext host contract verified report) receipt marked key w₁ w₂
        (.ok result))
      (hstored : storable contract.operation result = true)
      (hfinal : Finalized key w₂ t receipt marked s) :
      Carried host adapter contract resolved report key receipt attempt w (.ok s) t

/-- The call gets past validation, adapter selection and the reservation. -/
structure Accepts (sup : ExecutionSupervisor) (host : Host) (contract : ExecutionContract)
    (w : World) : Prop where
  valid : Valid host contract w.ticks
  adapter : ∃ adapter, sup.selectAdapter host.py contract = .ok adapter
  key : ∀ k, ExecutionSupervisor.idempotencyKey host.py contract = some k →
    IdempotencyRepository.ofTables w.committed k = none

/-- When target and scope are checked. -/
def admissionInstant (host : Host) (contract : ExecutionContract) (w : World) : ℕ :=
  w.ticks + validationTicks contract +
    keyTicks (ExecutionSupervisor.idempotencyKey host.py contract) + 1

/-- When the target is checked again. -/
def revalidationInstant (host : Host) (contract : ExecutionContract) (w : World) : ℕ :=
  admissionInstant host contract w + 1 +
    keyTicks (ExecutionSupervisor.idempotencyKey host.py contract)

/-- Target and scope pass their checks at the instant, and the metadata can be stored. -/
def admissible (host : Host) (contract : ExecutionContract) (instant : ℕ) : Bool :=
  (admission host.py (host.probes instant) contract).isOk &&
    (Value.dict contract.metadata).serializable

/-- How one call of `execute` goes: `w` when it starts, `w₀` when the contract is validated, `w₁`
when the key is reserved, `w₂` when target and scope are checked, `w₃` when the receipt is
committed. -/
inductive Course (sup : ExecutionSupervisor) (host : Host) (contract : ExecutionContract)
    (w : World) : Except Err SupervisionResult → World → Prop
  /-- Refused before anything was written. -/
  | rejected {e : Err} {t : World} (hreason : ¬ Accepts sup host contract w) (hend : Calm w t) :
      Course sup host contract w (.error e) t
  /-- Stopped between the reservation and the receipt. -/
  | unopened {e : Err} {w₀ w₁ t : World} (haccepts : Accepts sup host contract w)
      (hread : Reads w w₀)
      (hkeyed : Keyed (ExecutionSupervisor.idempotencyKey host.py contract) w₀ w₁)
      (hreason : admissible host contract (admissionInstant host contract w) = false)
      (hend : Calm w₁ t) : Course sup host contract w (.error e) t
  /-- The receipt was committed. -/
  | carried {r : Except Err SupervisionResult} {adapter : Adapter} {w₀ w₁ w₂ w₃ t : World}
      {resolved : ResolvedIdentity} {report : Option ScopeEnforcementReport}
      {receipt : ExecutionReceipt} {attempt : ExecutionAttempt}
      (haccepts : Accepts sup host contract w)
      (hadapter : sup.selectAdapter host.py contract = .ok adapter) (hread : Reads w w₀)
      (hkeyed : Keyed (ExecutionSupervisor.idempotencyKey host.py contract) w₀ w₁)
      (hadmitted : admission host.py (host.probes (admissionInstant host contract w)) contract =
        .ok (resolved, report))
      (hchecked : Reads w₁ w₂)
      (hstarted : Started host contract adapter.name w₂ receipt attempt)
      (hopened : ∃ w', Reads w₂ w' ∧
        Opened (ExecutionSupervisor.idempotencyKey host.py contract) w' w₃ receipt attempt)
      (hinstant : w₃.ticks = revalidationInstant host contract w)
      (hcarried : Carried host adapter contract resolved report
        (ExecutionSupervisor.idempotencyKey host.py contract) receipt attempt w₃ r t) :
      Course sup host contract w r t

/-- INTERNAL: whatever its course, a call leaves no transaction open. -/
theorem Course.idle {sup : ExecutionSupervisor} {host : Host} {contract : ExecutionContract}
    {w t : World} {r : Except Err SupervisionResult} (h : Course sup host contract w r t) :
    t.Idle := by
  cases h with
  | rejected _ hend => exact hend.idle
  | unopened _ _ _ _ hend => exact hend.idle
  | carried _ _ _ _ _ _ _ _ _ hcarried =>
    cases hcarried with
    | unmarked _ hend => exact hend.idle
    | interrupted _ hinvoked => exact hinvoked.idle
    | unstored _ _ _ hend => exact hend.idle
    | finished _ _ _ hfinal => exact hfinal.idle

/-- INTERNAL: after the mark, the committed rows are the receipt's and the marked attempt's. -/
theorem Marked.lookups {w t : World} {receipt : ExecutionReceipt}
    {attempt marked : ExecutionAttempt} (h : Marked w t attempt marked)
    (hreceipt : Table.lookup ExecutionReceipt.id w.committed.receipts receipt.id = some receipt)
    (hattempt : Table.lookup ExecutionAttempt.id w.committed.attempts attempt.id = some attempt) :
    Table.lookup ExecutionReceipt.id t.committed.receipts receipt.id = some receipt ∧
      Table.lookup ExecutionAttempt.id t.committed.attempts marked.id = some marked := by
  obtain ⟨at_, rfl⟩ := h.marked_eq
  rw [h.committed]
  refine ⟨hreceipt, ?_⟩
  have hlook := Table.lookup_upsert_self keepsKey_attempt w.committed.attempts
    { attempt with state := .invoked, invokedAt := some at_ }
  rw [hattempt] at hlook
  exact hlook

/-- Once the receipt is committed, the execution takes ledger steps along one of three courses.
SOURCE: app/supervisor.py:192-315 -/
theorem sat_carryOut (host : Host) (adapter : Adapter) (contract : ExecutionContract)
    (resolved : ResolvedIdentity) (report : Option ScopeEnforcementReport)
    {receipt : ExecutionReceipt} {attempt : ExecutionAttempt} {key : Option String} {w : World}
    (hw : w.Idle)
    (hreceipt : Table.lookup ExecutionReceipt.id w.committed.receipts receipt.id = some receipt)
    (hattempting : receipt.state = .attempting)
    (hattempt : Table.lookup ExecutionAttempt.id w.committed.attempts attempt.id = some attempt)
    (hlink : attempt.receiptId = receipt.id) (hevidence : attempt.evidence = [])
    (hjson : (Value.dict receipt.metadata).serializable = true)
    (hkey : ∀ k, key = some k →
      (Table.lookup IdempotencyRecord.key w.committed.idempotency k).isSome ∧
        ∀ c ∈ callsOf w.log, c.key ≠ some k) :
    (ExecutionSupervisor.carryOut host adapter contract resolved report receipt attempt key).Sat
      (Moves host) (Carried host adapter contract resolved report key receipt attempt w) w := by
  have hattemptJson : (Value.dict attempt.evidence).serializable = true := by rw [hevidence]; rfl
  unfold ExecutionSupervisor.carryOut
  rw [Program.sat_bind]
  refine (sat_markInvoked host contract resolved hw hattempt (hlink ▸ hreceipt) hattempting
    hattemptJson).post fun r w₁ h₁ => ?_
  cases r with
  | error e => exact .unmarked h₁.1 h₁.2
  | ok verified =>
    obtain ⟨verified, marked⟩ := verified
    replace h₁ := h₁.2
    obtain ⟨hreceipt₁, hmarked₁⟩ := Marked.lookups h₁ hreceipt hattempt
    have hkey₁ : ∀ k, key = some k →
        (Table.lookup IdempotencyRecord.key w₁.committed.idempotency k).isSome ∧
          ∀ c ∈ callsOf w₁.log, c.key ≠ some k := by
      rw [h₁.committed, h₁.log]
      exact hkey
    rw [Program.then_ok, Program.sat_bind]
    obtain ⟨at_, hmarked_eq⟩ := h₁.marked_eq
    refine (sat_invokeAdapter host adapter _ h₁.idle hreceipt₁ hattempting hmarked₁
      (by rw [hmarked_eq]) (by rw [hmarked_eq]; exact hlink) hkey₁).post fun r w₂ h₂ => ?_
    cases r with
    | error e => exact .interrupted h₁ h₂
    | ok result =>
    rw [Program.then_ok]
    refine (sat_finalize host contract.operation key result h₂.idle (h₂.committed ▸ hreceipt₁)
      (h₂.committed ▸ hmarked₁) (by rw [hmarked_eq]; exact hlink) hjson).post fun r t ht => ?_
    cases r with
    | error e => exact .unstored h₁ h₂ ht.1 ht.2
    | ok s => exact .finished h₁ h₂ ht.1 ht.2

/-- INTERNAL: in the state after opening, the new rows are found under their ids, and the key has a
row. -/
theorem Opened.lookups {key : Option String} {w t : World} {receipt : ExecutionReceipt}
    {attempt : ExecutionAttempt} (h : Opened key w t receipt attempt)
    (hnewReceipt : ∀ r ∈ w.committed.receipts, r.id ≠ receipt.id)
    (hnewAttempt : ∀ a ∈ w.committed.attempts, a.id ≠ attempt.id) :
    Table.lookup ExecutionReceipt.id t.committed.receipts receipt.id = some receipt ∧
      Table.lookup ExecutionAttempt.id t.committed.attempts attempt.id = some attempt ∧
      ∀ k, key = some k → (Table.lookup IdempotencyRecord.key t.committed.idempotency k).isSome := by
  obtain ⟨at_, hc⟩ := h.committed
  rw [hc]
  refine ⟨?_, ?_, ?_⟩
  · simp only [openedTables]
    rw [Table.lookup_append_of_none (Table.lookup_eq_none_iff.mpr hnewReceipt)]
    simp [Table.lookup]
  · simp only [openedTables]
    rw [Table.lookup_append_of_none (Table.lookup_eq_none_iff.mpr hnewAttempt)]
    simp [Table.lookup]
  · rintro k rfl
    have hlook := Table.lookup_upsert_self keepsKey_idempotency w.committed.idempotency
      (boundRow w.committed k receipt.id at_)
    rw [boundRow_key] at hlook
    simp only [openedTables, withRow, Option.map, Option.elim, hlook, Option.isSome_some]

/-- INTERNAL: the safe ledgers are closed under moves. -/
theorem Safe.moves {host : Host} {a b : World} (h : Moves host a b)
    (hs : Safe host (ledgerOf a)) : Safe host (ledgerOf b) := hs.step h

/-- INTERNAL: a key without a row was never used for a call. -/
theorem Safe.unused {host : Host} {w : World} (hs : Safe host (ledgerOf w)) {k : String}
    (habsent : IdempotencyRepository.ofTables w.committed k = none) :
    ∀ c ∈ callsOf w.log, c.key ≠ some k := by
  intro c hc hk
  have h := hs.callKeys c hc k hk
  simp only [ledgerOf] at h
  rw [show Table.lookup IdempotencyRecord.key w.committed.idempotency k = none from habsent] at h
  cases h

/-- `execute` up to the reservation. -/
def reservingPhase (sup : ExecutionSupervisor) (host : Host) (contract : ExecutionContract) :
    Proc Adapter := do
  ExecutionSupervisor.validate host contract
  let adapter ← Program.ofExcept (sup.selectAdapter host.py contract)
  ExecutionSupervisor.whenKeyed (ExecutionSupervisor.idempotencyKey host.py contract)
    (ExecutionSupervisor.reserveIdempotency host)
  pure adapter

/-- `execute` from there on. -/
def remainingPhases (host : Host) (contract : ExecutionContract) (adapter : Adapter) :
    Proc SupervisionResult := do
  let key := ExecutionSupervisor.idempotencyKey host.py contract
  ExecutionSupervisor.probeEnvironment host
  let (resolved, report) ← ExecutionSupervisor.admitTarget host contract
  let (receipt, attempt) ← ExecutionSupervisor.openReceipt host contract adapter.name key
  ExecutionSupervisor.carryOut host adapter contract resolved report receipt attempt key

/-- INTERNAL: the two phases make up the whole. -/
theorem execute_eq (sup : ExecutionSupervisor) (host : Host) (contract : ExecutionContract) :
    ExecutionSupervisor.execute sup host contract =
      reservingPhase sup host contract >>= remainingPhases host contract := by
  simp only [ExecutionSupervisor.execute, reservingPhase, remainingPhases, bind_assoc, pure_bind]

/-- The reserving phase takes ledger steps. It gets through exactly when the call is accepted, and
leaves everything alone otherwise.
SOURCE: app/supervisor.py:131-137 -/
theorem sat_reservingPhase (sup : ExecutionSupervisor) (host : Host) (contract : ExecutionContract)
    {w : World} (hw : w.Idle) (hs : Safe host (ledgerOf w)) :
    (reservingPhase sup host contract).Sat (Moves host)
      (fun r t => match r with
        | .ok adapter => Accepts sup host contract w ∧
            sup.selectAdapter host.py contract = .ok adapter ∧
            (∃ w₀, Reads w w₀ ∧
              Keyed (ExecutionSupervisor.idempotencyKey host.py contract) w₀ t) ∧
            t.Idle ∧ Safe host (ledgerOf t) ∧ t.ticks + 1 = admissionInstant host contract w
        | .error _ => ¬ Accepts sup host contract w ∧ Calm w t) w := by
  unfold reservingPhase
  rw [Program.sat_bind]
  refine ((sat_validate host contract w).keep (fun _ _ => Safe.moves) hs).post fun r w₀ h₀ => ?_
  obtain ⟨⟨hread, hvalid⟩, hs₀⟩ := h₀
  cases r with
  | error e => exact ⟨fun h => hvalid h.valid, hread.calm hw⟩
  | ok _ =>
  obtain ⟨hvalid, hticks₀⟩ := hvalid
  rw [Program.then_ok, Program.sat_bind, Program.sat_ofExcept]
  cases hadapter : sup.selectAdapter host.py contract with
  | error e =>
    refine ⟨fun h => ?_, hread.calm hw⟩
    obtain ⟨adapter, ha⟩ := h.adapter
    cases hadapter.symm.trans ha
  | ok adapter =>
  rw [Program.then_ok, Program.sat_bind]
  refine ((sat_whenKeyed_reserve host _ (hread.idle hw)).keep (fun _ _ => Safe.moves) hs₀).post
    fun r w₁ h₁ => ?_
  obtain ⟨hkeyed, hs₁⟩ := h₁
  cases r with
  | error e =>
    obtain ⟨hcalm, k, hk, hsome⟩ := hkeyed
    refine ⟨fun h => ?_, hread.quiet.trans hcalm.toQuiet, hcalm.idle⟩
    rw [hread.committed, h.key k hk] at hsome
    cases hsome
  | ok _ =>
  rw [Program.then_ok, Program.sat_pure]
  refine ⟨⟨hvalid, ⟨adapter, hadapter⟩, fun k hk => hread.committed ▸ Keyed.absent hkeyed hk⟩, rfl,
    ⟨w₀, hread, hkeyed⟩, Keyed.idle hkeyed (hread.idle hw), hs₁, ?_⟩
  rw [Keyed.ticks hkeyed, hticks₀, admissionInstant]

/-- Every step of a call of `execute` is a ledger step, along one of the courses.
SOURCE: app/supervisor.py:131-315 -/
theorem sat_execute (sup : ExecutionSupervisor) (host : Host) (contract : ExecutionContract)
    {w : World} (hw : w.Idle) (hs : Safe host (ledgerOf w)) :
    (ExecutionSupervisor.execute sup host contract).Sat (Moves host)
      (Course sup host contract w) w := by
  rw [execute_eq, Program.sat_bind]
  refine (sat_reservingPhase sup host contract hw hs).post fun r w₁ h₁ => ?_
  cases r with
  | error e => exact .rejected h₁.1 h₁.2
  | ok adapter =>
  obtain ⟨haccepts, hadapter, ⟨w₀, hread, hkeyed⟩, hidle₁, hs₁, hinstant⟩ := h₁
  have hchecked : Reads w₁ { w₁ with ticks := w₁.ticks + 1 } := ⟨rfl, rfl, rfl, rfl, le_rfl⟩
  rw [Program.then_ok]
  refine sat_admission host contract _ ?_
  rw [hinstant]
  cases hadmitted : admission host.py (host.probes (admissionInstant host contract w)) contract with
  | error e =>
    refine .unopened haccepts hread hkeyed ?_ (hinstant ▸ hchecked.calm hidle₁)
    simp [admissible, hadmitted, Except.isOk, Except.toBool]
  | ok admitted =>
  obtain ⟨resolved, report⟩ := admitted
  rw [← hinstant]
  have hidle₂ := hchecked.idle hidle₁
  have hs₂ : Safe host (ledgerOf { w₁ with ticks := w₁.ticks + 1 }) := hs₁
  simp only [Program.sat_bind]
  refine (sat_openReceipt host contract adapter.name _ hidle₂ hs₂).post fun r w₃ h₃ => ?_
  cases r with
  | error e =>
    refine .unopened haccepts hread hkeyed ?_
      ⟨hchecked.quiet.trans h₃.2.toQuiet, h₃.2.idle⟩
    simp [admissible, h₃.1]
  | ok rows =>
  obtain ⟨receipt, attempt⟩ := rows
  obtain ⟨hstarted, w', hdrawn, hticks', hopened⟩ := h₃
  obtain ⟨at₁, hreceipt_eq⟩ := hstarted.receipt_eq
  obtain ⟨at₂, hattempt_eq⟩ := hstarted.attempt_eq
  have hlookups := hopened.lookups
    (by rw [hdrawn.committed, hreceipt_eq]; exact (hs₂.fresh le_rfl).1)
    (by rw [hdrawn.committed, hattempt_eq]; exact (hs₂.fresh (Nat.le_succ _)).2)
  rw [Program.then_ok]
  have hlog₃ : w₃.log = w.log := by
    rw [hopened.log, hdrawn.log, hchecked.log, Keyed.log hkeyed, hread.log]
  have hinstant₃ : w₃.ticks = revalidationInstant host contract w := by
    rw [hopened.ticks, hticks', revalidationInstant, ← hinstant]
  refine (sat_carryOut host adapter contract resolved report hopened.idle hlookups.1
    (by rw [hreceipt_eq]) hlookups.2.1 (by rw [hreceipt_eq, hattempt_eq]; rfl)
    (by rw [hattempt_eq]; rfl) (by rw [hreceipt_eq]; exact hstarted.json) ?_).post
    fun r t ht => ?_
  · intro k hk
    refine ⟨hlookups.2.2 k hk, ?_⟩
    rw [hlog₃]
    exact hs.unused (haccepts.key k hk)
  · exact .carried haccepts hadapter hread hkeyed hadmitted hchecked hstarted
      ⟨w', hdrawn, hopened⟩ hinstant₃ ht

end Shea.Analysis
