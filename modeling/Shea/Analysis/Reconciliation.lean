import Shea.Analysis.UnitOfWork
import Shea.Model.Sample

/-!
# What reconciliation may conclude

A reconciler sees the present state of a path or of a pid, not who produced it. `effectVisible` says
when that state looks like the effect of the operation, from the receipt, the attempt's evidence and
the probes alone, without reference to why the execution is stuck. Every reconciler of the default
registry answers SUCCESS exactly then (`observe_judged`), and never FAILURE for an attempt that had
reached INVOKED.

The rest of the file carries this through `reconcile_receipt` to the committed rows.
-/

set_option autoImplicit false

namespace Shea.Analysis

open Shea.Computation Shea.Model

/-! ## What the reconcilers answer -/

/-- The path looks as the operation would have left it. -/
def fileEffectVisible (probes : Probes) (op path : String) : Bool :=
  match probes.pathExists path with
  | .error _ => false
  | .ok present =>
    if FilesystemReconciler.writes op then
      match FilesystemReconciler.existsAsFile probes path present with
      | .ok isFile => isFile
      | .error _ => false
    else if FilesystemReconciler.deletes op then !present
    else false

/-- The pid looks as the operation would have left it. -/
def pidEffectVisible (probes : Probes) (op : String) (pid : ℤ) : Bool :=
  match ProcessReconciler.pidAlive probes pid with
  | .error _ => false
  | .ok alive => if ProcessReconciler.terminates op then !alive else alive

/-- The machine, or the evidence on the attempt, looks as the operation would have left it. The
branches follow the registration order of the reconcilers. -/
def effectVisible (py : Stdlib) (probes : Probes) (receipt : ExecutionReceipt)
    (attempt : Option ExecutionAttempt) : Bool :=
  if FilesystemReconciler.supports receipt then
    match FilesystemReconciler.pathFrom py probes receipt attempt with
    | .ok (some path) => fileEffectVisible probes receipt.operation path
    | _ => false
  else if ProcessReconciler.supports receipt then
    match ProcessReconciler.toInt (ProcessReconciler.pidRaw receipt attempt) with
    | .ok pid => pidEffectVisible probes receipt.operation pid
    | .error _ => false
  else if NetworkReconciler.supports receipt then
    NetworkReconciler.responseRecorded (attemptEvidence attempt)
  else if ApplicationReconciler.supports receipt then
    ApplicationReconciler.changeRecorded (attemptEvidence attempt)
  else false

/-- An answer that claims success and a side effect exactly when `visible`, raises only otherwise,
leaves an invoked attempt unknown rather than failed, and adds nothing but JSON to the evidence it
was given. -/
structure Judged (given : Dict) (visible : Bool) (reason : StuckReason)
    (answer : Except Err ReconcileObservation) : Prop where
  raised : ∀ e, answer = .error e → visible = false
  success : ∀ obs, answer = .ok obs → (obs.outcome = .success ↔ visible = true)
  detected : ∀ obs, answer = .ok obs → obs.sideEffectDetected = visible
  invoked : ∀ obs, answer = .ok obs → reason = .attemptInvokedNotFinalized →
    obs.outcome ≠ .failure
  json : ∀ obs, answer = .ok obs → (Value.dict given).serializable = true →
    (Value.dict obs.evidence).serializable = true

section Answers

attribute [local simp] Value.serializable Value.serializableDict ProcessReconciler.pidEvidence

/-- INTERNAL: an answer that was not raised is judged by its fields. -/
theorem judged_ok {given : Dict} {visible : Bool} {reason : StuckReason}
    {obs : ReconcileObservation} (hs : obs.outcome = .success ↔ visible = true)
    (hd : obs.sideEffectDetected = visible)
    (hi : reason = .attemptInvokedNotFinalized → obs.outcome ≠ .failure)
    (hj : (Value.dict given).serializable = true →
      (Value.dict obs.evidence).serializable = true) : Judged given visible reason (.ok obs) where
  raised := by simp
  success := by rintro _ ⟨⟩; exact hs
  detected := by rintro _ ⟨⟩; exact hd
  invoked := by rintro _ ⟨⟩; exact hi
  json := by rintro _ ⟨⟩; exact hj

/-- INTERNAL: a raised answer claims nothing. -/
theorem judged_error {given : Dict} {reason : StuckReason} (e : Err) :
    Judged given false reason (.error e) where
  raised := fun _ _ => rfl
  success := by simp
  detected := by simp
  invoked := by simp
  json := by simp

/-- INTERNAL: the write, delete, read and fallback rules, once there is a path.
SOURCE: app/reconcile/filesystem.py:43-99 -/
theorem observePath_judged (given : Dict) (py : Stdlib) (probes : Probes) (op path : String)
    (reason : StuckReason) :
    Judged given (fileEffectVisible probes op path) reason
      (FilesystemReconciler.observePath py probes op path reason) := by
  unfold fileEffectVisible FilesystemReconciler.observePath
  cases hpresent : probes.pathExists path with
  | error e => exact judged_error e
  | ok present =>
    simp only [bind, Except.bind, pure, Except.pure]
    by_cases hw : FilesystemReconciler.writes op = true
    · simp only [hw, if_true]
      cases hfile : FilesystemReconciler.existsAsFile probes path present with
      | error e => exact judged_error e
      | ok isFile =>
        refine judged_ok ?_ ?_ ?_ ?_ <;> unfold FilesystemReconciler.observeWrite <;>
          cases isFile <;> simp <;> split <;> simp_all
    · by_cases hd : FilesystemReconciler.deletes op = true
      · simp only [hw, hd]
        refine judged_ok ?_ ?_ ?_ ?_ <;> unfold FilesystemReconciler.observeDelete <;>
          cases present <;> simp <;> split <;> simp_all
      · simp only [hw, hd]
        by_cases hr : containsText op "read" = true
        · simp only [hr]
          refine judged_ok ?_ ?_ ?_ ?_ <;> unfold FilesystemReconciler.observeRead <;> simp <;>
            split <;> simp_all
        · simp only [hr]
          exact judged_ok (by simp) rfl (by simp) (by simp)

/-- INTERNAL: the filesystem reconciler.
SOURCE: app/reconcile/filesystem.py:30-121 -/
theorem filesystem_judged (py : Stdlib) (probes : Probes) (receipt : ExecutionReceipt)
    (attempt : Option ExecutionAttempt) (reason : StuckReason) :
    Judged (attemptEvidence attempt)
      (match FilesystemReconciler.pathFrom py probes receipt attempt with
        | .ok (some path) => fileEffectVisible probes receipt.operation path
        | _ => false) reason
      (FilesystemReconciler.observe py probes receipt attempt reason) := by
  unfold FilesystemReconciler.observe
  cases FilesystemReconciler.pathFrom py probes receipt attempt with
  | error e => exact judged_error e
  | ok found =>
    cases found with
    | none => exact judged_ok (by simp) rfl (by simp) (by simp)
    | some path => exact observePath_judged _ py probes receipt.operation path reason

/-- INTERNAL: the process reconciler, once the pid is a number.
SOURCE: app/reconcile/process.py:54-87 -/
theorem observePid_judged (given : Dict) (probes : Probes) (op : String) (pid : ℤ) (reason : StuckReason) :
    Judged given (pidEffectVisible probes op pid) reason
      (ProcessReconciler.observePid probes op pid reason) := by
  unfold pidEffectVisible ProcessReconciler.observePid
  cases ProcessReconciler.pidAlive probes pid with
  | error e => exact judged_error e
  | ok alive =>
    simp only [bind, Except.bind, pure, Except.pure]
    by_cases ht : ProcessReconciler.terminates op = true
    · simp only [ht, if_true]
      refine judged_ok ?_ ?_ ?_ ?_ <;> unfold ProcessReconciler.observeTerminate <;>
        cases alive <;> simp
      all_goals (split <;> simp_all)
    · simp only [ht]
      refine judged_ok ?_ ?_ ?_ ?_ <;> unfold ProcessReconciler.observeSpawn <;>
        cases alive <;> simp <;> split <;> simp_all

/-- INTERNAL: the process reconciler.
SOURCE: app/reconcile/process.py:21-87 -/
theorem process_judged (py : Stdlib) (probes : Probes) (receipt : ExecutionReceipt)
    (attempt : Option ExecutionAttempt) (reason : StuckReason) :
    Judged (attemptEvidence attempt)
      (match ProcessReconciler.toInt (ProcessReconciler.pidRaw receipt attempt) with
        | .ok pid => pidEffectVisible probes receipt.operation pid
        | .error _ => false) reason
      (ProcessReconciler.observe py probes receipt attempt reason) := by
  unfold ProcessReconciler.observe
  by_cases hnone : ProcessReconciler.pidRaw receipt attempt = .none
  · -- `int(None)` is never reached; it would be a `TypeError`
    simp only [hnone, if_true, ProcessReconciler.toInt]
    refine judged_ok ?_ ?_ ?_ ?_ <;> unfold ProcessReconciler.observeWithoutPid <;> split <;> simp_all
  · simp only [hnone, if_false]
    cases ProcessReconciler.toInt (ProcessReconciler.pidRaw receipt attempt) with
    | ok pid => exact observePid_judged _ probes receipt.operation pid reason
    | error e =>
      cases e <;>
        first
        | exact judged_error _
        | exact judged_ok (by simp [ProcessReconciler.observe.unparseable]) rfl
            (by simp [ProcessReconciler.observe.unparseable])
            (by simp [ProcessReconciler.observe.unparseable])

/-- INTERNAL: the reconcilers that read the recorded evidence only.
SOURCE: app/reconcile/network.py:27-55, app/reconcile/application.py:20-45 -/
theorem observeRecordedEvidence_judged (recorded : Dict → Bool) (found lost never : String)
    (attempt : Option ExecutionAttempt) (reason : StuckReason) :
    Judged (attemptEvidence attempt) (recorded (attemptEvidence attempt)) reason
      (.ok (observeRecordedEvidence recorded found lost never attempt reason)) := by
  by_cases hr : recorded (attemptEvidence attempt) = true
  · simp only [observeRecordedEvidence, hr, if_true]
    exact judged_ok (by simp) rfl (by simp) (by simp)
  · rw [Bool.not_eq_true] at hr
    by_cases hi : reason = .attemptInvokedNotFinalized <;>
      exact judged_ok (by simp [observeRecordedEvidence, hr, hi])
        (by simp [observeRecordedEvidence, hr, hi]) (by simp [observeRecordedEvidence, hr, hi])
        (by simp [observeRecordedEvidence, hr, hi])

/-- INTERNAL: the fallback claims no side effect.
SOURCE: app/reconcile/default.py:16-32 -/
theorem default_judged (py : Stdlib) (probes : Probes) (receipt : ExecutionReceipt)
    (attempt : Option ExecutionAttempt) (reason : StuckReason) :
    Judged (attemptEvidence attempt) false reason
      (DefaultReconciler.observe py probes receipt attempt reason) := by
  refine judged_ok ?_ ?_ ?_ ?_ <;> split <;> simp_all

/-- The default registry answers SUCCESS, and reports a side effect, exactly when an effect is
visible; and it never answers FAILURE for an attempt that had reached INVOKED.
SOURCE: app/reconcile/registry.py:20-38 -/
theorem observe_judged (py : Stdlib) (probes : Probes) (receipt : ExecutionReceipt)
    (attempt : Option ExecutionAttempt) (reason : StuckReason) :
    Judged (attemptEvidence attempt) (effectVisible py probes receipt attempt) reason
      (defaultReconcilerRegistry.observe py probes receipt attempt reason) := by
  unfold effectVisible ReconcilerRegistry.observe ReconcilerRegistry.select
    defaultReconcilerRegistry
  by_cases hf : FilesystemReconciler.supports receipt = true
  · simpa [filesystemReconciler, hf] using filesystem_judged py probes receipt attempt reason
  by_cases hp : ProcessReconciler.supports receipt = true
  · simpa [filesystemReconciler, processReconciler, hf, hp] using
      process_judged py probes receipt attempt reason
  by_cases hn : NetworkReconciler.supports receipt = true
  · simpa [filesystemReconciler, processReconciler, networkReconciler, NetworkReconciler.observe, hf,
      hp, hn] using observeRecordedEvidence_judged _ _ _ _ attempt reason
  by_cases ha : ApplicationReconciler.supports receipt = true
  · simpa [filesystemReconciler, processReconciler, networkReconciler, applicationReconciler,
      ApplicationReconciler.observe, hf, hp, hn, ha] using
      observeRecordedEvidence_judged _ _ _ _ attempt reason
  · simpa [filesystemReconciler, processReconciler, networkReconciler, applicationReconciler,
      defaultReconciler, hf, hp, hn, ha] using default_judged py probes receipt attempt reason

end Answers

/-! ## One stuck receipt -/

/-- INTERNAL: the last attempt of a receipt is one of the stored attempts. -/
theorem lastAttempt_mem {t : Tables} {receiptId : String} {attempt : ExecutionAttempt}
    (h : ExecutionSupervisor.lastAttempt t receiptId = some attempt) :
    attempt ∈ t.attempts ∧ attempt.receiptId = receiptId := by
  have hmem := List.mem_of_getLast? h
  rw [AttemptRepository.ofTables, List.mem_insertionSort, List.mem_filter] at hmem
  exact ⟨hmem.1, by simpa using hmem.2⟩

/-- What the schema guarantees about stored receipts and attempts: primary keys do not repeat, and
JSON columns hold JSON. -/
structure WellStored (t : Tables) : Prop where
  receiptKeys : (t.receipts.map ExecutionReceipt.id).Nodup
  attemptKeys : (t.attempts.map ExecutionAttempt.id).Nodup
  receiptJson : ∀ r ∈ t.receipts, (Value.dict r.metadata).serializable = true
  attemptJson : ∀ a ∈ t.attempts, (Value.dict a.evidence).serializable = true

/-- The committed receipt is finalized with the outcome. -/
def FinalizedAs (outcome : AppOutcome) (t : Tables) (receiptId : String) : Prop :=
  ∃ row, Table.lookup ExecutionReceipt.id t.receipts receiptId = some row ∧
    row.state = .finalized ∧ row.outcome = some outcome

/-- INTERNAL: read off the stored row. -/
theorem finalizedAs_iff {outcome : AppOutcome} {t : Tables} {receiptId : String} :
    FinalizedAs outcome t receiptId ↔
      (Table.lookup ExecutionReceipt.id t.receipts receiptId).map (fun r => (r.state, r.outcome)) =
        some (.finalized, some outcome) := by
  unfold FinalizedAs
  cases Table.lookup ExecutionReceipt.id t.receipts receiptId <;> simp

instance {outcome : AppOutcome} {t : Tables} {receiptId : String} :
    Decidable (FinalizedAs outcome t receiptId) :=
  decidable_of_iff _ finalizedAs_iff.symm

/-- The rows a reconciliation writes can be written: their JSON columns hold JSON. -/
def StoresJson (receipt : ExecutionReceipt) (attempt : Option ExecutionAttempt) : Prop :=
  (Value.dict receipt.metadata).serializable = true ∧
    (Value.dict (attemptEvidence attempt)).serializable = true

/-- The tables after the reconciling transaction. -/
def reconciledTables (receipt : ExecutionReceipt) (attempt : Option ExecutionAttempt)
    (incident : RecoveryIncident) (t : Tables) : Tables :=
  RecoveryRepository.put incident
    (ReceiptRepository.put receipt (attempt.elim t fun a => AttemptRepository.put a t))

/-- INTERNAL: the reconciling transaction is inner.
SOURCE: app/supervisor.py:377-382 -/
theorem inner_writeReconciliation (attempt : Option ExecutionAttempt) (receipt : ExecutionReceipt)
    (incident : RecoveryIncident) :
    Inner (ExecutionSupervisor.writeReconciliation attempt receipt incident) := by
  refine .bind ?_ fun _ => .bind (.save _ _) fun _ => .withUow (.execute _)
  cases attempt with
  | none => exact .pure _
  | some a => exact .saveChecked _ _ _ _

/-- INTERNAL: what the reconciling transaction writes.
SOURCE: app/supervisor.py:377-382 -/
theorem run_writeReconciliation {w : World} (hw : 0 < w.depth) {attempt : Option ExecutionAttempt}
    {receipt : ExecutionReceipt} (hjson : StoresJson receipt attempt)
    (hknown : ∀ a ∈ attempt, Table.has ExecutionAttempt.id w.working.attempts a.id = true)
    (incident : RecoveryIncident) :
    (ExecutionSupervisor.writeReconciliation attempt receipt incident).run w =
      (.ok (), { w with working := reconciledTables receipt attempt incident w.working }) := by
  obtain ⟨hr, ha⟩ := hjson
  cases attempt with
  | none =>
    simp [ExecutionSupervisor.writeReconciliation, ExecutionSupervisor.saveAttempt,
      ReceiptRepository.save, RecoveryRepository.saveIncident, reconciledTables, hw, hr]
  | some a =>
    simp only [attemptEvidence, Option.elim] at ha
    have hsaved := run_saveAttempt hw ha (Bool.or_eq_true_iff.mpr (.inl (hknown a rfl)))
    simp [ExecutionSupervisor.writeReconciliation, ExecutionSupervisor.saveAttempt, hsaved,
      ReceiptRepository.save, RecoveryRepository.saveIncident, reconciledTables, hw, hr]

/-- INTERNAL: it writes nothing if a JSON column cannot be written.
SOURCE: app/supervisor.py:377-382 -/
theorem run_writeReconciliation_raises {w : World} (hw : 0 < w.depth)
    {attempt : Option ExecutionAttempt} {receipt : ExecutionReceipt}
    (hjson : ¬ StoresJson receipt attempt)
    (hknown : ∀ a ∈ attempt, Table.has ExecutionAttempt.id w.working.attempts a.id = true)
    (incident : RecoveryIncident) :
    ∃ e t, (ExecutionSupervisor.writeReconciliation attempt receipt incident).run w =
      (.error e, t) := by
  unfold StoresJson at hjson
  cases attempt with
  | none =>
    have hr : (Value.dict receipt.metadata).serializable = false := by
      simpa [attemptEvidence, Value.serializable, Value.serializableDict] using hjson
    simp [ExecutionSupervisor.writeReconciliation, ExecutionSupervisor.saveAttempt,
      ReceiptRepository.save, hw, hr]
  | some a =>
    by_cases ha : (Value.dict a.evidence).serializable = true
    · have hr : (Value.dict receipt.metadata).serializable = false := by
        simpa [attemptEvidence, ha] using hjson
      have hsaved := run_saveAttempt hw ha (Bool.or_eq_true_iff.mpr (.inl (hknown a rfl)))
      simp [ExecutionSupervisor.writeReconciliation, ExecutionSupervisor.saveAttempt, hsaved,
        ReceiptRepository.save, hw, hr]
    · have hrefused := run_saveAttempt_raises hw (Bool.eq_false_iff.mpr ha)
      simp [ExecutionSupervisor.writeReconciliation, ExecutionSupervisor.saveAttempt, hrefused]

section Settle

variable (sup : ExecutionSupervisor) (host : Host) (receipt : ExecutionReceipt)
  (attempt : Option ExecutionAttempt) (reason : StuckReason)

/-- What the reconciler answers in a state. -/
def answerAt (w : World) : Except Err ReconcileObservation :=
  sup.reconcilers.observe host.py (host.probes w.ticks) receipt attempt reason

/-- The attempt as the reconciliation leaves it. -/
def attemptAfter (w : World) (obs : ReconcileObservation) : Option ExecutionAttempt :=
  attempt.map fun a => ExecutionSupervisor.reconciledAttempt a obs (host.clock w.ticks)

/-- The receipt as the reconciliation leaves it. -/
def receiptAfter (w : World) (obs : ReconcileObservation) : ExecutionReceipt :=
  ExecutionSupervisor.finalizedReceipt receipt obs.outcome (host.clock w.ticks)

variable {sup host receipt attempt reason}

/-- INTERNAL: the attempt keeps its id, so its row is still there.
SOURCE: app/supervisor.py:350-362 -/
theorem attemptAfter_known {w : World} {obs : ReconcileObservation} (hw : w.Idle)
    (hstored : ∀ a ∈ attempt, a ∈ w.committed.attempts) :
    ∀ a ∈ attemptAfter host attempt w obs, Table.has ExecutionAttempt.id w.working.attempts a.id = true := by
  intro a ha
  obtain ⟨a, hold, rfl⟩ := Option.mem_map.mp ha
  rw [ExecutionSupervisor.reconciledAttempt_id, hw.working]
  exact Table.has_of_mem (hstored a hold)

/-- The stuck branch of `reconcile_receipt`: the reconciler raises and nothing happens, or a JSON
column refuses and everything is rolled back, or one commit writes both rows.
SOURCE: app/supervisor.py:336-390 -/
theorem sat_settleStuck {w : World} (hw : w.Idle) {R : World → World → Prop}
    (hstored : ∀ a ∈ attempt, a ∈ w.committed.attempts)
    {Q : Except Err ReconciliationResult → World → Prop} (hquiet : ∀ a b, Quiet a b → R a b)
    (hraise : ∀ e, answerAt sup host receipt attempt reason w = .error e → Q (.error e) w)
    (hrefuse : ∀ obs e t, answerAt sup host receipt attempt reason w = .ok obs →
      ¬ StoresJson (receiptAfter host receipt w obs) (attemptAfter host attempt w obs) →
      Quiet w t → t.Idle → Q (.error e) t)
    (hcommit : ∀ obs incident t, answerAt sup host receipt attempt reason w = .ok obs →
      StoresJson (receiptAfter host receipt w obs) (attemptAfter host attempt w obs) →
      Quiet w t → t.log = w.log → t.ticks = w.ticks + 1 →
      t.working = reconciledTables (receiptAfter host receipt w obs)
        (attemptAfter host attempt w obs) incident w.committed →
      R t t.commit ∧ ∀ result, Q (.ok result) t.commit) :
    (ExecutionSupervisor.settleStuck sup host receipt attempt reason).Sat R Q w := by
  unfold ExecutionSupervisor.settleStuck
  rw [Program.sat_bind, sat_probe]
  refine ⟨hquiet _ _ (.refl w), ?_⟩
  rw [Program.then_ok, Program.sat_bind, Program.sat_ofExcept]
  cases hobs : sup.reconcilers.observe host.py (host.probes w.ticks) receipt attempt reason with
  | error e => exact hraise e hobs
  | ok obs =>
    simp only [Program.then_ok, Program.sat_bind, sat_now, sat_newId]
    refine ⟨hquiet _ _ (quiet_tick w), hquiet _ _ (quiet_newId _), hquiet _ _ (quiet_newId _), ?_⟩
    -- all three readings so far are quiet, and the connection still reads the committed rows
    have hq₀ : Quiet w { w with ticks := w.ticks + 1, nextId := w.nextId + 1 + 1 } :=
      ⟨rfl, by simp only; omega, [], by simp⟩
    have hidle : ({ w with ticks := w.ticks + 1, nextId := w.nextId + 1 + 1 } : World).Idle :=
      ⟨hw.depth, hw.working⟩
    have hpos : 0 < ({ w with ticks := w.ticks + 1, nextId := w.nextId + 1 + 1 } : World).enter.depth :=
      Nat.succ_pos _
    have hknown : ∀ a ∈ attemptAfter host attempt w obs,
        Table.has ExecutionAttempt.id w.working.attempts a.id = true := attemptAfter_known hw hstored
    generalize ExecutionSupervisor.incidentOf _ _ _ _ _ _ _ = incident
    by_cases hjson : StoresJson (receiptAfter host receipt w obs) (attemptAfter host attempt w obs)
    · have hrun := run_writeReconciliation hpos hjson hknown incident
      have hqt : Quiet w { w with
          ticks := w.ticks + 1
          nextId := w.nextId + 1 + 1
          depth := w.depth + 1
          working := reconciledTables (receiptAfter host receipt w obs)
            (attemptAfter host attempt w obs) incident w.working } :=
        ⟨rfl, hq₀.nextId, [], by simp⟩
      have hdone := hcommit obs incident _ hobs hjson hqt rfl rfl (by simp only [hw.working])
      exact sat_withUow_commits (inner_writeReconciliation _ _ incident) hidle hquiet hrun
        hdone.1 (hdone.2 _)
    · refine sat_withUow_rolls_back (inner_writeReconciliation _ _ incident) hidle hquiet
        (run_writeReconciliation_raises hpos hjson hknown incident) ?_
      intro e t ht
      exact hrefuse obs e t hobs hjson (hq₀.trans ht.toQuiet) ht.idle

end Settle

/-! ## The committed receipt -/

/-- INTERNAL: saving a receipt again keeps its id. -/
theorem keepsKey_receipt : Table.KeepsKey ExecutionReceipt.id ReceiptRepository.merge :=
  fun _ _ => rfl

/-- INTERNAL: saving an attempt again keeps its id. -/
theorem keepsKey_attempt : Table.KeepsKey ExecutionAttempt.id AttemptRepository.merge :=
  fun _ _ => rfl

/-- INTERNAL: the reconciling transaction writes one receipt row. -/
theorem receipts_reconciledTables (receipt : ExecutionReceipt) (attempt : Option ExecutionAttempt)
    (incident : RecoveryIncident) (t : Tables) :
    (reconciledTables receipt attempt incident t).receipts =
      Table.upsert ExecutionReceipt.id ReceiptRepository.merge receipt t.receipts := by
  cases attempt <;> rfl

/-- INTERNAL: after the reconciling transaction, the stored receipt is finalized with the outcome
the reconciler gave, whatever the row was before.
SOURCE: app/supervisor.py:357-359 -/
theorem finalizedAs_reconciledTables (host : Host) (w : World) (receipt : ExecutionReceipt)
    (attempt : Option ExecutionAttempt) (obs : ReconcileObservation) (incident : RecoveryIncident)
    (t : Tables) (outcome : AppOutcome) :
    FinalizedAs outcome (reconciledTables (receiptAfter host receipt w obs) attempt incident t)
      receipt.id ↔ outcome = obs.outcome := by
  have hlook := Table.lookup_upsert_self keepsKey_receipt t.receipts (receiptAfter host receipt w obs)
  rw [← receipts_reconciledTables _ attempt incident] at hlook
  have hid : (receiptAfter host receipt w obs).id = receipt.id := rfl
  rw [hid] at hlook
  unfold FinalizedAs
  rw [hlook]
  cases Table.lookup ExecutionReceipt.id t.receipts receipt.id <;>
    simp [receiptAfter, ExecutionSupervisor.finalizedReceipt, ReceiptRepository.merge, eq_comm]

/-- INTERNAL: an unfinished receipt whose attempt was invoked is classified as such.
SOURCE: app/recovery.py:34-49 -/
theorem classify_invoked {receipt : ExecutionReceipt} {attempt : ExecutionAttempt}
    (hopen : receipt.state ≠ .finalized) (hinvoked : attempt.state = .invoked) :
    classifyStuckAttempt receipt (some attempt) = some .attemptInvokedNotFinalized := by
  simp [classifyStuckAttempt, hopen, hinvoked]

/-- INTERNAL: along the steps of reconciling an invoked attempt, no step finalizes the receipt as
FAILURE. -/
theorem reconcileReceipt_invoked_sat (host : Host) (adapters : List Adapter) {w : World}
    (hw : w.Idle) {receiptId : String} {receipt : ExecutionReceipt} {attempt : ExecutionAttempt}
    (hreceipt : Table.lookup ExecutionReceipt.id w.committed.receipts receiptId = some receipt)
    (hattempt : ExecutionSupervisor.lastAttempt w.committed receiptId = some attempt)
    (hinvoked : attempt.state = .invoked) :
    (ExecutionSupervisor.reconcileReceipt { adapters := adapters } host receiptId).Sat
      (fun a b => FinalizedAs .failure b.committed receiptId →
        FinalizedAs .failure a.committed receiptId) (fun _ _ => True) w := by
  have hid : receipt.id = receiptId := Table.lookup_eq_some_key hreceipt
  rw [ExecutionSupervisor.reconcileReceipt, ReceiptRepository.get, Program.sat_bind, sat_query,
    hw.working, hreceipt]
  refine ⟨fun h => h, ?_⟩
  rw [Program.then_ok, Program.sat_bind, sat_query, hw.working, hattempt]
  refine ⟨fun h => h, ?_⟩
  rw [Program.then_ok]
  by_cases hopen : receipt.state = .finalized
  · have hnone : classifyStuckAttempt receipt (some attempt) = none := by
      simp [classifyStuckAttempt, hopen]
    rw [hnone]
    trivial
  · rw [classify_invoked hopen hinvoked]
    have hstored : ∀ a ∈ some attempt, a ∈ w.committed.attempts :=
      fun a ha => Option.some.inj ha ▸ (lastAttempt_mem hattempt).1
    refine sat_settleStuck hw hstored ?_ (fun _ _ => trivial) (fun _ _ _ _ _ _ _ => trivial) ?_
    · intro a b hq h
      rwa [hq.committed] at h
    · intro obs incident t hobs _ _ _ _ hwork
      refine ⟨fun h => ?_, fun _ => trivial⟩
      have hjudged := observe_judged host.py (host.probes w.ticks) receipt (some attempt)
        .attemptInvokedNotFinalized
      have hne := hjudged.invoked obs hobs rfl
      rw [show t.commit.committed = t.working from rfl, hwork, ← hid,
        finalizedAs_reconciledTables] at h
      exact absurd h.symm hne

open Relation in
/-- An attempt that had reached INVOKED is never finalized as FAILURE by reconciliation, at no step
of the call and not at its end, whatever the reconciler sees.
SOURCE: app/supervisor.py:317-390, app/reconcile/filesystem.py:22-121 -/
theorem reconcileReceipt_invoked_not_failure (host : Host) (adapters : List Adapter) {w : World}
    (hw : w.Idle) {receiptId : String} {receipt : ExecutionReceipt} {attempt : ExecutionAttempt}
    (hreceipt : Table.lookup ExecutionReceipt.id w.committed.receipts receiptId = some receipt)
    (hattempt : ExecutionSupervisor.lastAttempt w.committed receiptId = some attempt)
    (hinvoked : attempt.state = .invoked) :
    (∀ n, FinalizedAs .failure ((ExecutionSupervisor.reconcileReceipt { adapters := adapters } host
        receiptId).cut n w).committed receiptId → FinalizedAs .failure w.committed receiptId) ∧
    (FinalizedAs .failure ((ExecutionSupervisor.reconcileReceipt { adapters := adapters } host
        receiptId).run w).2.committed receiptId → FinalizedAs .failure w.committed receiptId) := by
  have hsat := reconcileReceipt_invoked_sat host adapters hw hreceipt hattempt hinvoked
  have hchain : ∀ t, ReflTransGen (fun a b : World => FinalizedAs .failure b.committed receiptId →
      FinalizedAs .failure a.committed receiptId) w t →
      FinalizedAs .failure t.committed receiptId → FinalizedAs .failure w.committed receiptId := by
    intro t ht
    induction ht with
    | refl => exact id
    | tail _ hs ih => exact fun h => ih (hs h)
  exact ⟨fun n => hchain _ (hsat.cut n), hchain _ hsat.reach⟩

/-- A machine on which the file to be written is already there. -/
def occupiedHost : Host := .plain ["/tmp/report"] []

/-- A supervisor with one adapter. -/
def plainSupervisor : ExecutionSupervisor :=
  { adapters := [.fixed "filesystem" { outcome := .success }] }

/-- What is left when the process is killed after `n` steps of writing the file. -/
def strandedWrite (n : ℕ) : World :=
  ((ExecutionSupervisor.execute plainSupervisor occupiedHost (writeContract "/tmp/report")).cut n
    {}).restart

/-- The attempt of that write, as it was committed. -/
def strandedAttempt : ExecutionAttempt :=
  ExecutionSupervisor.newAttempt "filesystem" "id" "idi" 1000000

/-- The receipt of that write, as it was committed. -/
def strandedReceipt : ExecutionReceipt :=
  { ExecutionSupervisor.newReceipt (writeContract "/tmp/report") "filesystem" "id" 1000000 with
    state := .attempting }

/-- INTERNAL: killed right after the adapter was called, the write is finalized, and not as
FAILURE. -/
theorem reconcileReceipt_invoked_write :
    FinalizedAs .success ((ExecutionSupervisor.reconcileReceipt plainSupervisor occupiedHost
      "id").run (strandedWrite 26)).2.committed "id" ∧
    ¬ FinalizedAs .failure ((ExecutionSupervisor.reconcileReceipt plainSupervisor occupiedHost
      "id").run (strandedWrite 26)).2.committed "id" := by
  have hreceipt : Table.lookup ExecutionReceipt.id (strandedWrite 26).committed.receipts "id" =
      some strandedReceipt := by decide +kernel
  have hattempt : ExecutionSupervisor.lastAttempt (strandedWrite 26).committed "id" =
      some { strandedAttempt with state := .invoked, invokedAt := some 2000000 } := by
    decide +kernel
  have h := reconcileReceipt_invoked_not_failure occupiedHost plainSupervisor.adapters
    (World.idle_restart _) hreceipt hattempt rfl
  exact ⟨by decide +kernel, fun hf => absurd (h.2 hf) (by decide +kernel)⟩

/-! ## Attempts that were never invoked -/

/-- The stored rows claim no effect of the attempt: the receipt is not finalized as SUCCESS, and the
attempt's evidence does not report a side effect that it did not report before. -/
def ClaimsNoEffect (receiptId : String) (attempt : ExecutionAttempt) (t : Tables) : Prop :=
  ¬ FinalizedAs .success t receiptId ∧
    ∀ row, Table.lookup ExecutionAttempt.id t.attempts attempt.id = some row →
      row.evidence.get "side_effect_detected" = .bool true →
      attempt.evidence.get "side_effect_detected" = .bool true

/-- INTERNAL: an attempt that was only created is classified as not invoked.
SOURCE: app/recovery.py:34-49 -/
theorem classify_created {receipt : ExecutionReceipt} {attempt : ExecutionAttempt}
    (hattempting : receipt.state = .attempting) (hcreated : attempt.state = .created) :
    classifyStuckAttempt receipt (some attempt) = some .attemptCreatedNotInvoked := by
  simp [classifyStuckAttempt, hattempting, hcreated]

/-- INTERNAL: what the reconciler saw goes into an attempt's evidence as JSON.
SOURCE: app/supervisor.py:349-354 -/
theorem mergedEvidence_json {evidence : Dict} {obs : ReconcileObservation}
    (he : (Value.dict evidence).serializable = true)
    (ho : (Value.dict obs.evidence).serializable = true) :
    (Value.dict (ExecutionSupervisor.mergedEvidence evidence obs)).serializable = true := by
  unfold ExecutionSupervisor.mergedEvidence
  split
  · exact he
  · exact Value.serializable_set (Value.serializable_set (Value.serializable_update he ho) _ rfl) _ rfl

/-- INTERNAL: the merged evidence reports a side effect only if the reconciler detected one, or the
evidence reported one already.
SOURCE: app/supervisor.py:349-354 -/
theorem mergedEvidence_detected {evidence : Dict} {obs : ReconcileObservation}
    (h : (ExecutionSupervisor.mergedEvidence evidence obs).get "side_effect_detected" = .bool true) :
    obs.sideEffectDetected = true ∨ evidence.get "side_effect_detected" = .bool true := by
  unfold ExecutionSupervisor.mergedEvidence at h
  split at h
  · exact .inr h
  · rw [Dict.get_set_self] at h
    exact .inl (Value.bool.inj h)

/-- INTERNAL: the rows a reconciliation writes are JSON when the stored rows are. -/
theorem storesJson_after {t : Tables} (ht : WellStored t) {receipt : ExecutionReceipt}
    {attempt : ExecutionAttempt} (hr : receipt ∈ t.receipts) (ha : attempt ∈ t.attempts)
    (host : Host) (w : World) {obs : ReconcileObservation}
    (ho : (Value.dict obs.evidence).serializable = true) :
    StoresJson (receiptAfter host receipt w obs) (attemptAfter host (some attempt) w obs) := by
  refine ⟨ht.receiptJson receipt hr, ?_⟩
  simp only [attemptAfter, Option.map, attemptEvidence, Option.elim,
    ExecutionSupervisor.reconciledAttempt]
  split
  · exact ht.attemptJson _ ha
  · exact mergedEvidence_json (ht.attemptJson _ ha) ho

/-- INTERNAL: the stored attempt after the reconciling transaction.
SOURCE: app/supervisor.py:341-354 -/
theorem lookup_attempt_reconciledTables (host : Host) (w : World) (receipt : ExecutionReceipt)
    {attempt row : ExecutionAttempt} (hcreated : attempt.state = .created)
    (obs : ReconcileObservation) (incident : RecoveryIncident) (t : Tables)
    (h : Table.lookup ExecutionAttempt.id (reconciledTables receipt
      (attemptAfter host (some attempt) w obs) incident t).attempts attempt.id = some row) :
    row.evidence = ExecutionSupervisor.mergedEvidence attempt.evidence obs := by
  have hlook := Table.lookup_upsert_self keepsKey_attempt t.attempts
    (ExecutionSupervisor.reconciledAttempt attempt obs (host.clock w.ticks))
  have hid : (ExecutionSupervisor.reconciledAttempt attempt obs (host.clock w.ticks)).id
      = attempt.id := by
    simp [ExecutionSupervisor.reconciledAttempt, hcreated]
  rw [hid] at hlook
  have hrow := Option.some.inj (h.symm.trans hlook)
  rw [hrow]
  cases Table.lookup ExecutionAttempt.id t.attempts attempt.id <;>
    simp [ExecutionSupervisor.reconciledAttempt, hcreated, AttemptRepository.merge]

/-- Reconciling an attempt that was committed as CREATED and never invoked claims no effect of it if
and only if nothing on the machine, or on the attempt, looks like one.
SOURCE: app/supervisor.py:317-357, app/reconcile/filesystem.py:22-99, app/reconcile/process.py:42-87 -/
theorem reconcileReceipt_created_claimsNoEffect_iff (host : Host) (adapters : List Adapter)
    {w : World} (hw : w.Idle) (hstored : WellStored w.committed) {receiptId : String}
    {receipt : ExecutionReceipt} {attempt : ExecutionAttempt}
    (hreceipt : Table.lookup ExecutionReceipt.id w.committed.receipts receiptId = some receipt)
    (hattempting : receipt.state = .attempting)
    (hattempt : ExecutionSupervisor.lastAttempt w.committed receiptId = some attempt)
    (hcreated : attempt.state = .created) :
    ClaimsNoEffect receiptId attempt ((ExecutionSupervisor.reconcileReceipt { adapters := adapters }
        host receiptId).run w).2.committed ↔
      effectVisible host.py (host.probes w.ticks) receipt (some attempt) = false := by
  have hid : receipt.id = receiptId := Table.lookup_eq_some_key hreceipt
  have hmem := lastAttempt_mem hattempt
  have hlook := Table.lookup_of_mem hstored.attemptKeys hmem.1
  have hjudged := observe_judged host.py (host.probes w.ticks) receipt (some attempt)
    .attemptCreatedNotInvoked
  -- nothing is claimed as long as the committed rows stay as they are
  have hbefore : ClaimsNoEffect receiptId attempt w.committed := by
    refine ⟨?_, fun row hrow h => ?_⟩
    · rintro ⟨row, hrow, hfin, -⟩
      rw [hreceipt, Option.some.injEq] at hrow
      rw [← hrow, hattempting] at hfin
      cases hfin
    · rw [hlook, Option.some.injEq] at hrow
      rwa [hrow]
  refine (?_ : (ExecutionSupervisor.reconcileReceipt { adapters := adapters } host receiptId).Sat
    (fun _ _ => True) (fun _ t => ClaimsNoEffect receiptId attempt t.committed ↔
      effectVisible host.py (host.probes w.ticks) receipt (some attempt) = false) w).run
  rw [ExecutionSupervisor.reconcileReceipt, ReceiptRepository.get, Program.sat_bind, sat_query,
    hw.working, hreceipt]
  refine ⟨trivial, ?_⟩
  rw [Program.then_ok, Program.sat_bind, sat_query, hw.working, hattempt]
  refine ⟨trivial, ?_⟩
  rw [Program.then_ok, classify_created hattempting hcreated]
  have hjson : ∀ obs, answerAt { adapters := adapters } host receipt (some attempt)
      .attemptCreatedNotInvoked w = .ok obs →
      StoresJson (receiptAfter host receipt w obs) (attemptAfter host (some attempt) w obs) := by
    intro obs hobs
    exact storesJson_after hstored (Table.lookup_mem hreceipt) hmem.1 host w
      (hjudged.json obs hobs (hstored.attemptJson _ hmem.1))
  have hlast : ∀ a ∈ some attempt, a ∈ w.committed.attempts := fun a ha => Option.some.inj ha ▸ hmem.1
  refine sat_settleStuck hw hlast (fun _ _ _ => trivial) ?_ ?_ ?_
  · intro e he
    exact iff_of_true hbefore (hjudged.raised e he)
  · intro obs _ _ hobs hno _ _
    exact absurd (hjson obs hobs) hno
  · intro obs incident t hobs _ _ _ _ hwork
    refine ⟨trivial, fun _ => ?_⟩
    rw [show t.commit.committed = t.working from rfl, hwork]
    cases hvisible : effectVisible host.py (host.probes w.ticks) receipt (some attempt) with
    | true =>
      refine iff_of_false (fun h => h.1 ?_) (by simp)
      rw [← hid, finalizedAs_reconciledTables]
      exact ((hjudged.success obs hobs).mpr hvisible).symm
    | false =>
      refine iff_of_true ⟨fun h => ?_, fun row hrow h => ?_⟩ rfl
      · rw [← hid, finalizedAs_reconciledTables] at h
        have := (hjudged.success obs hobs).mp h.symm
        simp [hvisible] at this
      · rw [lookup_attempt_reconciledTables host w _ hcreated obs incident _ hrow] at h
        rcases mergedEvidence_detected h with hd | hd
        · rw [hjudged.detected obs hobs, hvisible] at hd
          cases hd
        · exact hd

/-- INTERNAL: the same write, on a machine without the file.
SOURCE: app/reconcile/filesystem.py:59-63 -/
theorem reconcileReceipt_created_absent_file :
    ClaimsNoEffect "id" strandedAttempt ((ExecutionSupervisor.reconcileReceipt plainSupervisor
      (.plain [] []) "id").run (strandedWrite 18)).2.committed := by
  have hstored : WellStored (strandedWrite 18).committed := by
    constructor <;> decide +kernel
  have hreceipt : Table.lookup ExecutionReceipt.id (strandedWrite 18).committed.receipts "id" =
      some strandedReceipt := by decide +kernel
  have hattempt : ExecutionSupervisor.lastAttempt (strandedWrite 18).committed "id" =
      some strandedAttempt := by decide +kernel
  have h := reconcileReceipt_created_claimsNoEffect_iff (.plain [] []) plainSupervisor.adapters
    (World.idle_restart _) hstored hreceipt rfl hattempt rfl
  exact h.mpr (by decide +kernel)

/-- A write onto a file that was already there: the process is killed after the receipt is
committed and before the attempt is marked INVOKED, and reconciliation finalizes the receipt as
SUCCESS and reports a side effect.
SOURCE: app/reconcile/filesystem.py:45-52 -/
theorem reconcileReceipt_created_write_over_file :
    ExecutionSupervisor.lastAttempt (strandedWrite 18).committed "id" = some strandedAttempt ∧
    strandedAttempt.state = .created ∧
    ¬ ClaimsNoEffect "id" strandedAttempt ((ExecutionSupervisor.reconcileReceipt plainSupervisor
      occupiedHost "id").run (strandedWrite 18)).2.committed := by
  refine ⟨by decide +kernel, rfl, fun h => h.1 ?_⟩
  decide +kernel

end Shea.Analysis
