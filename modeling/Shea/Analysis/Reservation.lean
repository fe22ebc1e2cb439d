import Shea.Analysis.ReceiptProtocol

/-!
# What becomes of a reserved key

`execute` reserves its key in a transaction of its own, before target and scope are checked and
before there is a receipt; only the transaction that finalizes the execution takes the row out of
IN_PROGRESS. `reconcile_stuck` finalizes receipts and attempts and never writes a key.

So a key stays IN_PROGRESS for good when anything stops the execution in between: a check that
raises, a result that cannot be stored, a crash. `Unhindered` lists the checks. In histories whose
reserving executions are unhindered and not killed in between, no key is ever left in progress.
-/

set_option autoImplicit false

namespace Shea.Analysis

open Shea.Computation Shea.Model

/-! ## Parts of the database the supervisor leaves alone -/

/-- The part has nothing to do with receipts, attempts, their evidence and verification, and
incidents. -/
structure Apart {γ : Type} (part : Tables → γ) : Prop where
  receipt : ∀ r t, part (ReceiptRepository.put r t) = part t
  attempt : ∀ a t, part (AttemptRepository.put a t) = part t
  evidence : ∀ e t, part (EvidenceRepository.put e t) = part t
  verification : ∀ v t, part (AppVerificationRepository.put v t) = part t
  incident : ∀ i t, part (RecoveryRepository.put i t) = part t

section Parts

variable {γ : Type} {part : Tables → γ} (hpart : Apart part)

include hpart

/-- INTERNAL: reconciling a receipt leaves other parts alone, the keys included.
SOURCE: app/supervisor.py:317-390 -/
theorem leaves_reconcileReceipt (sup : ExecutionSupervisor) (host : Host) (receiptId : String) :
    Leaves part (ExecutionSupervisor.reconcileReceipt sup host receiptId) := by
  refine .bind (.query _) fun found => ?_
  cases found with
  | none => exact .throw _
  | some receipt =>
    refine .bind (.query _) fun attempt => ?_
    cases classifyStuckAttempt receipt attempt with
    | none => exact .pure _
    | some reason =>
      refine .bind (.probe host) fun _ => .bind (.ofExcept _) fun _ => .bind (.now host) fun _ =>
        .bind (.newId host) fun _ => .bind (.newId host) fun _ =>
        .bind (.withUow (.bind ?_ fun _ => .bind (.save _ (hpart.receipt _)) fun _ =>
          .withUow (.execute (hpart.incident _)))) fun _ => .pure _
      cases Option.map _ attempt with
      | none => exact .pure _
      | some a => exact .saveChecked _ _ _ (hpart.attempt _)

/-- INTERNAL: so does the sweep.
SOURCE: app/supervisor.py:392-397 -/
theorem leaves_reconcileStuck (sup : ExecutionSupervisor) (host : Host) :
    Leaves part (ExecutionSupervisor.reconcileStuck sup host) := by
  refine .bind (.query _) fun receipts => ?_
  induction receipts with
  | nil => exact .pure _
  | cons receipt rest ih =>
    exact .bind (leaves_reconcileReceipt hpart sup host receipt.id) fun _ => .bind ih fun _ =>
      .pure _

/-- INTERNAL: what follows a committed receipt leaves a part alone if completing the key does.
SOURCE: app/supervisor.py:192-315 -/
theorem leaves_carryOut (host : Host) (adapter : Adapter) (contract : ExecutionContract)
    (resolved : ResolvedIdentity) (report : Option ScopeEnforcementReport)
    (receipt : ExecutionReceipt) (attempt : ExecutionAttempt) {key : Option String}
    (hkey : key = none ∨ ∀ r t, part (IdempotencyRepository.put r t) = part t) :
    Leaves part (ExecutionSupervisor.carryOut host adapter contract resolved report receipt attempt
      key) := by
  refine .bind (.bind (.probe host) fun _ => .bind (.ofExcept _) fun _ => .bind (.now host) fun _ =>
    .bind (.withUow (.saveChecked _ _ _ (hpart.attempt _))) fun _ => .pure _) fun marked => ?_
  refine .bind (.bind (.note _) fun _ => .bind (.attempt ?_) fun outcome =>
    .bind (.note _) fun _ => ?_) fun result => ?_
  · exact (adapter.outside _ _ _).mono fun _ _ h => Keeps.of_eq h.working h.committed
  · cases outcome with
    | ok result => exact .pure _
    | error e =>
      dsimp only
      split
      · exact .pure _
      · exact .throw _
  · refine .bind (.bind (.now host) fun _ => .bind (.newId host) fun _ => .bind (.ofExcept _) fun _ =>
      .bind (.newId host) fun _ => .bind (.ofExcept _) fun _ => .pure _) fun judged =>
      .bind (.now host) fun _ => .bind (.withUow (.bind (.saveChecked _ _ _ (hpart.attempt _)) fun _ =>
        .bind (.save _ (hpart.receipt _)) fun _ => .bind (.saveChecked _ _ _ (hpart.evidence _)) fun _ =>
        .bind (.withUow (.executeChecked _ _ (hpart.verification _))) fun _ => ?_)) fun _ => .pure _
    rcases hkey with rfl | hput
    · exact .pure _
    · cases key with
      | none => exact .pure _
      | some k =>
        exact .bind (.now host) fun _ => .bind (.query _) fun _ => .withUow (.execute (hput _))

/-- INTERNAL: an execution leaves a part alone if reserving, binding and completing its key do; an
execution without a key does none of these.
SOURCE: app/supervisor.py:131-315 -/
theorem leaves_execute (sup : ExecutionSupervisor) (host : Host) (contract : ExecutionContract)
    (hkey : ExecutionSupervisor.idempotencyKey host.py contract = none ∨
      ∀ r t, part (IdempotencyRepository.put r t) = part t ∧
        part (IdempotencyRepository.add r t) = part t) :
    Leaves part (ExecutionSupervisor.execute sup host contract) := by
  have hput : ExecutionSupervisor.idempotencyKey host.py contract = none ∨
      ∀ r t, part (IdempotencyRepository.put r t) = part t := hkey.imp_right fun h r t => (h r t).1
  refine .bind ?_ fun _ => .bind (.ofExcept _) fun adapter => .bind ?_ fun _ =>
    .bind (.bind (.now host) fun _ => .bind (.probe host) fun _ => .bind (.ofExcept _) fun _ =>
      .pure _) fun _ =>
    .bind ?_ fun admitted => .bind ?_ fun rows => leaves_carryOut hpart host adapter contract _ _ _ _ hput
  · unfold ExecutionSupervisor.validate
    split
    · exact .throw _
    · split
      · exact .pure _
      · refine .bind (.now host) fun _ => ?_
        split
        · exact .throw _
        · exact .pure _
  · rcases hkey with hnone | hkey
    · rw [hnone]
      exact .pure _
    · cases ExecutionSupervisor.idempotencyKey host.py contract with
      | none => exact .pure _
      | some k =>
        refine .bind (.query _) fun existing => ?_
        cases existing.bind _ with
        | some reason => exact .throw _
        | none =>
          exact .bind (.now host) fun _ => .tryCatch
            (.withUow (.executeChecked _ _ fun t => (hkey _ t).2)) fun _ => .throw _
  · refine .bind (.probe host) fun _ => .bind (.ofExcept _) fun _ => .bind (.ofExcept _) fun _ => ?_
    cases contract.scope with
    | none => exact .pure _
    | some scope => exact .bind (.ofExcept _) fun _ => .pure _
  · refine .bind (.now host) fun _ => .bind (.newId host) fun _ => .bind (.newId host) fun _ =>
      .bind (.withUow (.bind (.save _ (hpart.receipt _)) fun _ =>
        .bind (.save _ (hpart.receipt _)) fun _ => .bind (.saveChecked _ _ _ (hpart.attempt _)) fun _ => ?_))
        fun _ => .bind (.query _) fun found => ?_
    · rcases hput with hnone | hput
      · rw [hnone]
        exact .pure _
      · cases ExecutionSupervisor.idempotencyKey host.py contract with
        | none => exact .pure _
        | some k =>
          refine .bind (.query _) fun existing => .bind (.now host) fun _ => ?_
          cases existing <;> exact .withUow (.execute (hput _))
    · cases found with
      | none => exact .throw _
      | some _ => exact .pure _

end Parts

/-- INTERNAL: the keys are such a part. -/
theorem apart_idempotency : Apart Tables.idempotency :=
  ⟨fun _ _ => rfl, fun _ _ => rfl, fun _ _ => rfl, fun _ _ => rfl, fun _ _ => rfl⟩

/-- The call has a key and gets to reserve it. -/
def Reserves (sup : ExecutionSupervisor) (host : Host) (contract : ExecutionContract) (w : World) :
    Prop :=
  (ExecutionSupervisor.idempotencyKey host.py contract).isSome ∧ Accepts sup host contract w

/-- Nothing that follows the reservation stops the call: target and scope pass when they are checked,
the metadata are JSON, the target passes again before the invocation, the adapter raises nothing but
an `Exception`, and whatever it returns can be verified and stored. -/
structure Unhindered (sup : ExecutionSupervisor) (host : Host) (contract : ExecutionContract)
    (w : World) : Prop where
  admissible : admissible host contract (admissionInstant host contract w) = true
  revalidates : ∀ resolved report,
    admission host.py (host.probes (admissionInstant host contract w)) contract =
      .ok (resolved, report) →
    revalidates host contract resolved (revalidationInstant host contract w) = true
  caught : ∀ adapter, sup.selectAdapter host.py contract = .ok adapter →
    ∀ verified report receipt attempt u e,
      ((adapter.invoke (ExecutionSupervisor.withContext host contract verified report) receipt
        attempt).run u).1 = .error e → e.isException = true
  storable : ∀ adapter, sup.selectAdapter host.py contract = .ok adapter →
    ∀ verified report receipt attempt u result,
      ((adapter.invoke (ExecutionSupervisor.withContext host contract verified report) receipt
        attempt).run u).1 = .ok result → storable contract.operation result = true

/-- INTERNAL: the adapter's context does not change the operation. -/
theorem withContext_operation (host : Host) (contract : ExecutionContract)
    (verified : VerifiedIdentity) (report : Option ScopeEnforcementReport) :
    (ExecutionSupervisor.withContext host contract verified report).operation =
      contract.operation := by
  unfold ExecutionSupervisor.withContext
  split
  · rfl
  · split <;> rfl

/-- INTERNAL: only a successful result has its postcondition looked up in a set.
SOURCE: app/verify_engine.py:112-160 -/
theorem verifiable_of_not_success (operation : String) {result : AdapterResult}
    (hdumpable : (Value.dict (evidencePayload result)).dumpable = true)
    (h : result.outcome ≠ .success) : verifiable operation result = true := by
  have hflags : existsByFlags result (evidencePayload result) = .ok false := by
    simp [existsByFlags, h]
  rw [verifiable, hdumpable, Bool.true_and]
  refine List.all_eq_true.mpr fun required _ => ?_
  unfold postconditionMet
  split
  · rfl
  · split
    · rw [hflags]
      rfl
    · rfl

/-- INTERNAL: the result the supervisor writes for an adapter that raised can be stored.
SOURCE: app/supervisor.py:226-266 -/
theorem storable_resultOfError (host : Host) (operation adapterName receiptId attemptId : String)
    (e : Err) (operation' : String) :
    storable operation' (ExecutionSupervisor.resultOfError host operation adapterName receiptId
      attemptId e) = true := by
  have hevidence : ∀ possible, (Value.dict (ExecutionSupervisor.raisedEvidence adapterName receiptId
      attemptId possible e)).serializable = true := fun _ => rfl
  unfold storable
  rw [verifiable_of_not_success operation', Bool.true_and]
  · unfold ExecutionSupervisor.resultOfError
    split <;> exact hevidence _
  · unfold ExecutionSupervisor.resultOfError
    split <;> rfl
  · unfold ExecutionSupervisor.resultOfError
    split
    · simp
    · dsimp only
      split <;> simp

/-- INTERNAL: nothing that follows the invocation stops an unhindered call. -/
theorem Unhindered.storable_result {sup : ExecutionSupervisor} {host : Host}
    {contract : ExecutionContract} {w w₁ w₂ : World} {adapter : Adapter}
    {verified : VerifiedIdentity} {report : Option ScopeEnforcementReport}
    {receipt : ExecutionReceipt} {marked : ExecutionAttempt} {key : Option String}
    {result : AdapterResult} (h : Unhindered sup host contract w)
    (hadapter : sup.selectAdapter host.py contract = .ok adapter)
    (hinvoked : Invoked host adapter (ExecutionSupervisor.withContext host contract verified report)
      receipt marked key w₁ w₂ (.ok result)) : Analysis.storable contract.operation result = true := by
  obtain ⟨u, hresult⟩ := hinvoked.result_eq
  cases hran : ((adapter.invoke (ExecutionSupervisor.withContext host contract verified report)
      receipt marked).run u).1 with
  | ok r =>
    rw [hran] at hresult
    cases hresult
    exact h.storable adapter hadapter verified report receipt marked u _ hran
  | error e =>
    rw [hran, resultOf_caught (h.caught adapter hadapter verified report receipt marked u e hran)]
      at hresult
    cases hresult
    exact storable_resultOfError host _ _ _ _ e _

/-- INTERNAL: and nothing that the adapter raises does. -/
theorem Unhindered.not_interrupted {sup : ExecutionSupervisor} {host : Host}
    {contract : ExecutionContract} {w w₁ w₂ : World} {adapter : Adapter}
    {verified : VerifiedIdentity} {report : Option ScopeEnforcementReport}
    {receipt : ExecutionReceipt} {marked : ExecutionAttempt} {key : Option String} {e : Err}
    (h : Unhindered sup host contract w)
    (hadapter : sup.selectAdapter host.py contract = .ok adapter) :
    ¬ Invoked host adapter (ExecutionSupervisor.withContext host contract verified report)
      receipt marked key w₁ w₂ (.error e) := by
  intro hinvoked
  obtain ⟨u, hresult⟩ := hinvoked.result_eq
  cases hran : ((adapter.invoke (ExecutionSupervisor.withContext host contract verified report)
      receipt marked).run u).1 with
  | ok r =>
    rw [hran] at hresult
    cases hresult
  | error e' =>
    rw [hran, resultOf_caught (h.caught adapter hadapter verified report receipt marked u e' hran)]
      at hresult
    cases hresult

/-- An accepted and unhindered call is finalized.
SOURCE: app/supervisor.py:131-315 -/
theorem Course.finished_of_unhindered {sup : ExecutionSupervisor} {host : Host}
    {contract : ExecutionContract} {w t : World} {r : Except Err SupervisionResult}
    (h : Course sup host contract w r t) (haccepts : Accepts sup host contract w)
    (hfree : Unhindered sup host contract w) : ∃ s, r = .ok s := by
  cases h with
  | rejected hreason _ => exact absurd haccepts hreason
  | unopened _ _ _ hreason _ =>
    rw [hfree.admissible] at hreason
    cases hreason
  | carried _ hadapter _ _ hadmitted _ _ _ hinstant hcarried =>
    cases hcarried with
    | unmarked hreason _ =>
      rw [hinstant, hfree.revalidates _ _ hadmitted] at hreason
      cases hreason
    | interrupted _ hinvoked => exact absurd hinvoked (hfree.not_interrupted hadapter)
    | unstored _ hinvoked hreason _ =>
      rw [hfree.storable_result hadapter hinvoked] at hreason
      cases hreason
    | finished _ _ _ _ => exact ⟨_, rfl⟩

/-! ## The rows of a finished execution -/

/-- INTERNAL: the key phase adds the row of the reservation. -/
theorem Keyed.rows {k : String} {w t : World} (h : Keyed (some k) w t) :
    ∃ at_, t.committed.idempotency =
      w.committed.idempotency ++ [ExecutionSupervisor.reservation k at_] := by
  obtain ⟨at_, hc⟩ := Reserved.committed h
  exact ⟨at_, by rw [hc]; rfl⟩

/-- INTERNAL: saving the row of a key that is last in the table. -/
theorem withRow_last {rows : List IdempotencyRecord} {k : String} {last new : IdempotencyRecord}
    (habsent : Table.lookup IdempotencyRecord.key rows k = none) (hlast : last.key = k)
    (hnew : new.key = k) :
    withRow (some new) (rows ++ [last]) = rows ++ [IdempotencyRepository.merge last new] := by
  have hne : ∀ r ∈ rows, r.key ≠ new.key := hnew ▸ Table.lookup_eq_none_iff.mp habsent
  rw [withRow, Option.elim, Table.upsert_append_of_new hne]
  simp [Table.upsert, hlast, hnew]

/-- INTERNAL: opening the receipt saves the last row again. -/
theorem Opened.rows {w t : World} {receipt : ExecutionReceipt} {attempt : ExecutionAttempt}
    {k : String} {rows : List IdempotencyRecord} {last : IdempotencyRecord}
    (h : Opened (some k) w t receipt attempt)
    (habsent : Table.lookup IdempotencyRecord.key rows k = none)
    (hrows : w.committed.idempotency = rows ++ [last]) (hlast : last.key = k) :
    ∃ bound : IdempotencyRecord, bound.key = k ∧ t.committed.idempotency = rows ++ [bound] := by
  obtain ⟨at_, hc⟩ := h.committed
  have hsave := withRow_last habsent hlast (boundRow_key w.committed k receipt.id at_)
  refine ⟨_, ?_, (by rw [hc, openedTables, Option.map, hrows, hsave])⟩
  exact hlast

/-- INTERNAL: and so does finalizing, in the state the outcome calls for. -/
theorem Finalized.rows {w t : World} {receipt : ExecutionReceipt} {attempt : ExecutionAttempt}
    {s : SupervisionResult} {k : String} {rows : List IdempotencyRecord} {last : IdempotencyRecord}
    (h : Finalized (some k) w t receipt attempt s)
    (habsent : Table.lookup IdempotencyRecord.key rows k = none)
    (hrows : w.committed.idempotency = rows ++ [last]) (hlast : last.key = k) :
    ∃ row : IdempotencyRecord, row.key = k ∧
      row.state = ExecutionSupervisor.idempotencyStateOf s.adapterResult.outcome ∧
      t.committed.idempotency = rows ++ [row] := by
  obtain ⟨evidence, at_, hc⟩ := h.committed
  have hsave := withRow_last habsent hlast
    (rfl : (completedRow w.committed k receipt.id s.adapterResult.outcome at_).key = k)
  refine ⟨_, ?_, ?_, (by rw [hc, finalizedTables, Option.map, hrows, hsave])⟩
  · exact hlast
  · rfl

/-- A finished execution adds one row to the keys, in the state its outcome calls for.
SOURCE: app/supervisor.py:399-476 -/
theorem Course.rows {sup : ExecutionSupervisor} {host : Host} {contract : ExecutionContract}
    {w t : World} {s : SupervisionResult} {k : String} (h : Course sup host contract w (.ok s) t)
    (hk : ExecutionSupervisor.idempotencyKey host.py contract = some k) :
    ∃ row : IdempotencyRecord, row.key = k ∧
      row.state = ExecutionSupervisor.idempotencyStateOf s.adapterResult.outcome ∧
      t.committed.idempotency = w.committed.idempotency ++ [row] := by
  cases h with
  | carried haccepts _ hread hkeyed _ hchecked _ hopened _ hcarried =>
    have habsent := haccepts.key k hk
    cases hcarried with
    | finished hmarked hinvoked _ hfinal =>
      rw [hk] at hkeyed hopened hfinal
      -- reserved, bound, completed: three saves of the last row
      obtain ⟨at_, hreserved⟩ := Keyed.rows hkeyed
      obtain ⟨w', hdrawn, hopened⟩ := hopened
      rw [hread.committed, ← hchecked.committed, ← hdrawn.committed] at hreserved
      obtain ⟨bound, hboundKey, hbound⟩ := hopened.rows habsent hreserved rfl
      exact hfinal.rows habsent (by rw [hinvoked.committed, hmarked.committed]; exact hbound)
        hboundKey

/-! ## Careful histories -/

/-- No key is in progress. -/
def Released (t : Tables) : Prop := ∀ row ∈ t.idempotency, row.state ≠ .inProgress

section Released

variable {sup : ExecutionSupervisor} {host : Host} {contract : ExecutionContract} {w : World}

/-- INTERNAL: a call that does not get to reserve its key writes no key.
SOURCE: app/supervisor.py:131-137 -/
theorem Course.calm_of_not_accepts {r : Except Err SupervisionResult} {t : World}
    (h : Course sup host contract w r t) (hno : ¬ Accepts sup host contract w) : Calm w t := by
  cases h with
  | rejected _ hend => exact hend
  | unopened haccepts _ _ _ _ => exact absurd haccepts hno
  | carried haccepts _ _ _ _ _ _ _ _ _ => exact absurd haccepts hno

/-- INTERNAL: keys that nothing writes stay released. -/
theorem Released.of_keeps {t : World} (h : Released w.committed) (hw : w.Idle)
    (hkeeps : Keeps Tables.idempotency w t) : Released t.committed := by
  have hsame := (hkeeps (by rw [hw.working])).2
  intro row hrow
  exact h row (hsame ▸ hrow)

/-- INTERNAL: an outcome releases the key. -/
theorem idempotencyStateOf_ne_inProgress (outcome : AppOutcome) :
    ExecutionSupervisor.idempotencyStateOf outcome ≠ .inProgress := by
  cases outcome <;> simp [ExecutionSupervisor.idempotencyStateOf]

/-- An execution that nothing stops after its reservation leaves no key in progress.
SOURCE: app/supervisor.py:131-315 -/
theorem Released.execute (h : Released w.committed) (hw : Resting host w)
    (hfree : Reserves sup host contract w → Unhindered sup host contract w) :
    Released ((ExecutionSupervisor.execute sup host contract).run w).2.committed := by
  have hcourse := (sat_execute sup host contract hw.idle hw.safe).run
  cases hk : ExecutionSupervisor.idempotencyKey host.py contract with
  | none =>
    exact h.of_keeps hw.idle ((leaves_execute apart_idempotency sup host contract (.inl hk)).run w)
  | some k =>
    by_cases haccepts : Accepts sup host contract w
    · obtain ⟨s, hs⟩ := hcourse.finished_of_unhindered haccepts
        (hfree ⟨by rw [hk]; rfl, haccepts⟩)
      rw [hs] at hcourse
      obtain ⟨row, -, hstate, hrows⟩ := hcourse.rows hk
      intro r hr
      rw [hrows] at hr
      rcases List.mem_append.mp hr with hr | hr
      · exact h r hr
      · rw [List.mem_singleton.mp hr, hstate]
        exact idempotencyStateOf_ne_inProgress _
    · rw [Released, (hcourse.calm_of_not_accepts haccepts).committed]
      exact h

end Released

end Shea.Analysis
