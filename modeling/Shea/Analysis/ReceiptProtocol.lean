import Shea.Analysis.SupervisorSteps

/-!
# The receipt protocol over whole histories

A history is any sequence of `execute`, `reconcile_receipt` and `reconcile_stuck` calls, each of
which may be killed after any of its steps. In every history an adapter is entered only under a
committed receipt in ATTEMPTING whose attempt is committed as INVOKED.

The sweep that follows a history finalizes every receipt if and only if each receipt it comes to can
be observed: the probes its reconciler makes, at the instant it makes them, do not raise. One
receipt whose probe raises ends the sweep and leaves the receipts behind it unfinished.
-/

set_option autoImplicit false

namespace Shea.Analysis

open Shea.Computation Shea.Model

/-- The probes of the path do not raise. -/
def pathObservable (probes : Probes) (op path : String) : Bool :=
  match probes.pathExists path with
  | .error _ => false
  | .ok present =>
    !FilesystemReconciler.writes op || (FilesystemReconciler.existsAsFile probes path present).isOk

/-- What the receipt and the attempt say about the target can be looked up: a path resolves and can
be inspected, a pid is a finite number that fits `os.kill`. -/
def observable (py : Stdlib) (probes : Probes) (receipt : ExecutionReceipt)
    (attempt : Option ExecutionAttempt) : Bool :=
  if FilesystemReconciler.supports receipt then
    match FilesystemReconciler.pathFrom py probes receipt attempt with
    | .error _ => false
    | .ok none => true
    | .ok (some path) => pathObservable probes receipt.operation path
  else if ProcessReconciler.supports receipt then
    match ProcessReconciler.toInt (ProcessReconciler.pidRaw receipt attempt) with
    | .ok pid => (ProcessReconciler.pidAlive probes pid).isOk
    | .error (.overflowError _) => false
    | .error _ => true
  else true

/-- INTERNAL: the filesystem reconciler raises exactly when a probe does. -/
theorem observePath_isOk (py : Stdlib) (probes : Probes) (op path : String)
    (reason : StuckReason) :
    (FilesystemReconciler.observePath py probes op path reason).isOk =
      pathObservable probes op path := by
  unfold FilesystemReconciler.observePath pathObservable
  cases probes.pathExists path with
  | error e => rfl
  | ok present =>
    simp only [bind, Except.bind, pure, Except.pure]
    cases hw : FilesystemReconciler.writes op with
    | true =>
      cases FilesystemReconciler.existsAsFile probes path present <;> rfl
    | false =>
      cases hd : FilesystemReconciler.deletes op with
      | true => rfl
      | false => cases hr : containsText op "read" <;> rfl

/-- INTERNAL: `int()` raises `TypeError`, `ValueError` or `OverflowError`. -/
theorem toInt_error {v : Value} {e : Err} (h : ProcessReconciler.toInt v = .error e) :
    (∃ m, e = .typeError m) ∨ (∃ m, e = .valueError m) ∨ ∃ m, e = .overflowError m := by
  cases v with
  | float x => cases x <;> simp [ProcessReconciler.toInt] at h <;> simp [← h]
  | str s =>
    simp only [ProcessReconciler.toInt] at h
    split at h <;> simp at h
    simp [← h]
  | _ => simp [ProcessReconciler.toInt] at h <;> simp [← h]

/-- INTERNAL: the process reconciler raises exactly when the pid is infinite or cannot be asked
about.
SOURCE: app/reconcile/process.py:47-56, 89-101 -/
theorem processObserve_isOk (py : Stdlib) (probes : Probes) (receipt : ExecutionReceipt)
    (attempt : Option ExecutionAttempt) (reason : StuckReason) :
    (ProcessReconciler.observe py probes receipt attempt reason).isOk =
      (match ProcessReconciler.toInt (ProcessReconciler.pidRaw receipt attempt) with
        | .ok pid => (ProcessReconciler.pidAlive probes pid).isOk
        | .error (.overflowError _) => false
        | .error _ => true) := by
  unfold ProcessReconciler.observe
  by_cases hnone : ProcessReconciler.pidRaw receipt attempt = .none
  · simp [hnone, ProcessReconciler.toInt, Except.isOk, Except.toBool]
  · simp only [hnone, if_false]
    cases hint : ProcessReconciler.toInt (ProcessReconciler.pidRaw receipt attempt) with
    | ok pid =>
      simp only [ProcessReconciler.observePid, bind, Except.bind, pure, Except.pure]
      cases ProcessReconciler.pidAlive probes pid with
      | error e => rfl
      | ok alive => cases ProcessReconciler.terminates receipt.operation <;> rfl
    | error e =>
      rcases toInt_error hint with ⟨m, rfl⟩ | ⟨m, rfl⟩ | ⟨m, rfl⟩ <;> rfl

/-- The default registry raises exactly on the receipts that cannot be observed, for whatever reason
they are stuck.
SOURCE: app/reconcile/registry.py:20-38 -/
theorem observe_isOk (py : Stdlib) (probes : Probes) (receipt : ExecutionReceipt)
    (attempt : Option ExecutionAttempt) (reason : StuckReason) :
    (defaultReconcilerRegistry.observe py probes receipt attempt reason).isOk =
      observable py probes receipt attempt := by
  unfold observable ReconcilerRegistry.observe ReconcilerRegistry.select defaultReconcilerRegistry
  by_cases hf : FilesystemReconciler.supports receipt = true
  · simp only [filesystemReconciler, List.find?_cons, hf, if_true, Option.getD]
    unfold FilesystemReconciler.observe
    cases FilesystemReconciler.pathFrom py probes receipt attempt with
    | error e => rfl
    | ok found =>
      cases found with
      | none => rfl
      | some path => exact observePath_isOk py probes receipt.operation path reason
  by_cases hp : ProcessReconciler.supports receipt = true
  · simpa [filesystemReconciler, processReconciler, hf, hp] using
      processObserve_isOk py probes receipt attempt reason
  -- the other reconcilers look at nothing
  · by_cases hn : NetworkReconciler.supports receipt = true
    · simp [filesystemReconciler, processReconciler, networkReconciler, hf, hp, hn]
      rfl
    by_cases ha : ApplicationReconciler.supports receipt = true
    · simp [filesystemReconciler, processReconciler, networkReconciler, applicationReconciler, hf,
        hp, hn, ha]
      rfl
    · simp [filesystemReconciler, processReconciler, networkReconciler, applicationReconciler,
        defaultReconciler, hf, hp, hn, ha]
      rfl

/-! ## Reconciling one receipt -/

/-- The steps of a reconciliation: ledger steps, none of which enters an adapter. -/
def Sweeps (host : Host) (a b : World) : Prop :=
  Moves host a b ∧ callsOf b.log = callsOf a.log

/-- INTERNAL: quiet steps enter no adapter. -/
theorem Quiet.sweeps (host : Host) {a b : World} (h : Quiet a b) : Sweeps host a b := by
  obtain ⟨events, he⟩ := h.log
  exact ⟨h.moves host, by rw [he, callsOf_published]⟩

/-- The receipts that are not finalized. -/
def unfinished (w : World) : List ExecutionReceipt :=
  w.committed.receipts.filter (·.state ≠ .finalized)

/-- The receipt can be observed at the instant. -/
def observableAt (host : Host) (w : World) (instant : ℕ) (receipt : ExecutionReceipt) : Bool :=
  observable host.py (host.probes instant) receipt
    (ExecutionSupervisor.lastAttempt w.committed receipt.id)

section Attempts

variable {host : Host} {w : World}

/-- INTERNAL: the last attempt of a receipt is its only one. -/
theorem Safe.lastAttempt (hs : Safe host (ledgerOf w)) {a : ExecutionAttempt}
    (ha : a ∈ w.committed.attempts) :
    ExecutionSupervisor.lastAttempt w.committed a.receiptId = some a := by
  have hd : (w.committed.attempts.map ExecutionAttempt.receiptId).Nodup := by
    rw [show w.committed.attempts.map ExecutionAttempt.receiptId = _ from hs.linked]
    exact hs.receiptKeys
  have hfilter : w.committed.attempts.filter (·.receiptId = a.receiptId) = [a] := by
    have hnodup := hd.of_map.filter (·.receiptId = a.receiptId)
    have hmem : ∀ b, b ∈ w.committed.attempts.filter (·.receiptId = a.receiptId) ↔ b = a := by
      intro b
      rw [List.mem_filter]
      constructor
      · rintro ⟨hb, he⟩
        exact hs.attempt_unique hb ha (by simpa using he)
      · rintro rfl
        exact ⟨ha, by simp⟩
    refine List.perm_singleton.mp ((List.perm_ext_iff_of_nodup hnodup (List.nodup_singleton a)).mpr ?_)
    simpa using hmem
  simp [ExecutionSupervisor.lastAttempt, AttemptRepository.ofTables, hfilter]

/-- INTERNAL: an open receipt has an attempt that is not finalized. -/
theorem Safe.open_attempt (hs : Safe host (ledgerOf w)) {r : ExecutionReceipt}
    (hr : r ∈ w.committed.receipts) (hopen : r.state ≠ .finalized) :
    r.state = .attempting ∧ ∃ a ∈ w.committed.attempts, a.receiptId = r.id ∧
      (a.state = .created ∨ a.state = .invoked) := by
  obtain ⟨a, ha, hra⟩ := hs.receipt_has_attempt hr
  rcases hs.paired r hr a ha hra with ⟨hstate, hattempt⟩ | ⟨hstate, -⟩
  · exact ⟨hstate, a, ha, hra, hattempt⟩
  · exact absurd hstate hopen

end Attempts

section One

variable (host : Host) (adapters : List Adapter) {w : World}

/-- INTERNAL: a finalized receipt is left alone. -/
theorem sat_reconcileReceipt_finalized (hw : w.Idle) (hs : Safe host (ledgerOf w))
    {r : ExecutionReceipt} (hr : r ∈ w.committed.receipts) (hfin : r.state = .finalized) :
    (ExecutionSupervisor.reconcileReceipt { adapters := adapters } host r.id).Sat (Sweeps host)
      (fun res t => (∃ result, res = .ok result) ∧ t = w) w := by
  have hlook := Table.lookup_of_mem hs.receiptKeys hr
  rw [ExecutionSupervisor.reconcileReceipt, ReceiptRepository.get, Program.sat_bind, sat_query,
    hw.working]
  refine ⟨(Quiet.refl w).sweeps host, ?_⟩
  rw [show Table.lookup ExecutionReceipt.id w.committed.receipts r.id = some r from hlook,
    Program.then_ok, Program.sat_bind, sat_query]
  refine ⟨(Quiet.refl w).sweeps host, ?_⟩
  have hnone : ∀ attempt, classifyStuckAttempt r attempt = none := by
    simp [classifyStuckAttempt, hfin]
  simp [hnone]

/-- The state after an open receipt was settled. -/
structure Settled (host : Host) (w t : World) (r : ExecutionReceipt) (a : ExecutionAttempt) :
    Prop where
  idle : t.Idle
  safe : Safe host (ledgerOf t)
  ticks : t.ticks = w.ticks + 1
  receipts : ∃ r' : ExecutionReceipt, r'.id = r.id ∧ r'.state = .finalized ∧
    t.committed.receipts =
      Table.upsert ExecutionReceipt.id ReceiptRepository.merge r' w.committed.receipts
  attempts : ∃ a' : ExecutionAttempt, a'.id = a.id ∧ t.committed.attempts =
    Table.upsert ExecutionAttempt.id AttemptRepository.merge a' w.committed.attempts

/-- An open receipt is settled when it can be observed; otherwise the call raises and leaves
everything alone.
SOURCE: app/supervisor.py:317-390 -/
theorem sat_reconcileReceipt_open (hw : w.Idle) (hs : Safe host (ledgerOf w))
    {r : ExecutionReceipt} {a : ExecutionAttempt} (hr : r ∈ w.committed.receipts)
    (hattempting : r.state = .attempting) (ha : a ∈ w.committed.attempts)
    (hlink : a.receiptId = r.id) (hopen : a.state = .created ∨ a.state = .invoked) :
    (ExecutionSupervisor.reconcileReceipt { adapters := adapters } host r.id).Sat (Sweeps host)
      (fun res t => match res with
        | .ok _ => observableAt host w w.ticks r = true ∧ Settled host w t r a
        | .error _ => observableAt host w w.ticks r = false ∧ t = w) w := by
  have hlookR := Table.lookup_of_mem hs.receiptKeys hr
  have hlookA := Table.lookup_of_mem hs.attemptKeys ha
  have hlast : ExecutionSupervisor.lastAttempt w.committed r.id = some a :=
    hlink ▸ hs.lastAttempt ha
  have hne : a.state ≠ .finalized := by
    rcases hopen with h | h <;> simp [h]
  obtain ⟨reason, hreason⟩ : ∃ reason, classifyStuckAttempt r (some a) = some reason := by
    rcases hopen with h | h
    · exact ⟨_, classify_created hattempting h⟩
    · exact ⟨_, classify_invoked (by simp [hattempting]) h⟩
  rw [ExecutionSupervisor.reconcileReceipt, ReceiptRepository.get, Program.sat_bind, sat_query,
    hw.working]
  refine ⟨(Quiet.refl w).sweeps host, ?_⟩
  rw [show Table.lookup ExecutionReceipt.id w.committed.receipts r.id = some r from hlookR,
    Program.then_ok, Program.sat_bind, sat_query, hw.working, hlast]
  refine ⟨(Quiet.refl w).sweeps host, ?_⟩
  rw [Program.then_ok]
  simp only [hreason]
  have hok := observe_isOk host.py (host.probes w.ticks) r (some a) reason
  have hobservable : observableAt host w w.ticks r =
      observable host.py (host.probes w.ticks) r (some a) := by rw [observableAt, hlast]
  have hjudged := observe_judged host.py (host.probes w.ticks) r (some a) reason
  have hstored : WellStored w.committed :=
    ⟨hs.receiptKeys, hs.attemptKeys, hs.receiptJson, hs.attemptJson⟩
  have hrow : ∀ last ∈ some a, last ∈ w.committed.attempts := fun last h => Option.some.inj h ▸ ha
  refine sat_settleStuck hw hrow (fun _ _ h => h.sweeps host) ?_ ?_ ?_
  · intro e he
    rw [hobservable, ← hok]
    exact ⟨by rw [show defaultReconcilerRegistry.observe _ _ _ _ _ = .error e from he]; rfl, rfl⟩
  · intro obs e t hobs hno _ _
    exact absurd (storesJson_after hstored hr ha host w
      (hjudged.json obs hobs (hstored.attemptJson a ha))) hno
  · intro obs incident t hobs hjson hq hlog hticks hwork
    have hcommitted : t.committed = w.committed := hq.committed
    have hstep : Step host (ledgerOf t) (ledgerOf t.commit) := by
      have h := @Step.settled host (ledgerOf t) (receiptAfter host r w obs) r
        (ExecutionSupervisor.reconciledAttempt a obs (host.clock w.ticks)) a none obs.outcome
        (by simpa [ledgerOf, hcommitted, receiptAfter] using hlookR)
        (by simpa [ledgerOf, hcommitted, ExecutionSupervisor.reconciledAttempt, hne] using hlookA)
        hlink rfl (by simp [ExecutionSupervisor.reconciledAttempt, hne]) rfl
        (by simp [ExecutionSupervisor.reconciledAttempt, hne]) hjson.1 hjson.2
      simpa [ledgerOf, World.commit, hwork, hcommitted, reconciledTables, attemptAfter, withRow,
        RecoveryRepository.put, ReceiptRepository.put, AttemptRepository.put] using h
    refine ⟨⟨hstep, rfl⟩, fun _ => ⟨?_, ?_⟩⟩
    · rw [hobservable, ← hok]
      rw [show defaultReconcilerRegistry.observe _ _ _ _ _ = .ok obs from hobs]
      rfl
    · refine ⟨t.idle_commit, (hs.step (hq.moves host)).step hstep, hticks,
        ⟨receiptAfter host r w obs, rfl, rfl, ?_⟩,
        ⟨ExecutionSupervisor.reconciledAttempt a obs (host.clock w.ticks), ?_, ?_⟩⟩
      · simp only [World.commit, hwork]
        exact receipts_reconciledTables _ _ _ _
      · simp [ExecutionSupervisor.reconciledAttempt, hne]
      · simp only [World.commit, hwork]
        rfl

end One

/-! ## The sweep -/

section Sweep

variable (host : Host) (adapters : List Adapter) {w : World}

/-- INTERNAL: once the first unfinished row is finalized, the rest of the rows is left. -/
theorem filter_upsert_finalized {rows rest : List ExecutionReceipt} {r r' : ExecutionReceipt}
    (hd : (rows.map ExecutionReceipt.id).Nodup)
    (hrows : rows.filter (·.state ≠ .finalized) = r :: rest) (hid : r'.id = r.id)
    (hfin : r'.state = .finalized) :
    (Table.upsert ExecutionReceipt.id ReceiptRepository.merge r' rows).filter
      (·.state ≠ .finalized) = rest := by
  induction rows with
  | nil => simp at hrows
  | cons x rows ih =>
    rw [List.map_cons, List.nodup_cons] at hd
    by_cases hx : x.state = .finalized
    · -- a finalized row is not the one, and stays
      have hrows' : rows.filter (·.state ≠ .finalized) = r :: rest := by
        simpa [List.filter_cons, hx] using hrows
      have hmem : r ∈ rows := by
        have : r ∈ rows.filter (·.state ≠ .finalized) := by rw [hrows']; exact List.mem_cons_self ..
        exact (List.mem_filter.mp this).1
      have hne : x.id ≠ r'.id := by
        intro he
        exact hd.1 (by rw [he, hid]; exact List.mem_map_of_mem hmem)
      simp only [Table.upsert, if_neg hne]
      simpa [List.filter_cons, hx] using ih hd.2 hrows'
    · have hcons : x :: rows.filter (·.state ≠ .finalized) = r :: rest := by
        simpa [List.filter_cons, hx] using hrows
      obtain ⟨rfl, hrest⟩ := List.cons.inj hcons
      simpa [Table.upsert, hid, List.filter_cons, ReceiptRepository.merge, hfin] using hrest

/-- INTERNAL: settling one receipt leaves the other attempts where they are. -/
theorem Settled.lastAttempt_of_ne {t : World} {r r₂ : ExecutionReceipt} {a : ExecutionAttempt}
    (hs : Safe host (ledgerOf w)) (h : Settled host w t r a) (ha : a ∈ w.committed.attempts)
    (hlink : a.receiptId = r.id) (hr₂ : r₂ ∈ w.committed.receipts) (hne : r₂.id ≠ r.id) :
    ExecutionSupervisor.lastAttempt t.committed r₂.id =
      ExecutionSupervisor.lastAttempt w.committed r₂.id := by
  obtain ⟨a₂, ha₂, hlink₂⟩ := hs.receipt_has_attempt hr₂
  obtain ⟨a', hid, hattempts⟩ := h.attempts
  have hak : a₂.id ≠ a'.id := by
    intro he
    have := List.inj_on_of_nodup_map hs.attemptKeys ha₂ ha (he.trans hid)
    exact hne (hlink₂.symm.trans ((congrArg _ this).trans hlink))
  have hlook : Table.lookup ExecutionAttempt.id t.committed.attempts a₂.id = some a₂ := by
    rw [hattempts, Table.lookup_upsert_of_ne keepsKey_attempt _ (Ne.symm hak)]
    exact Table.lookup_of_mem hs.attemptKeys ha₂
  rw [← hlink₂, hs.lastAttempt ha₂, h.safe.lastAttempt (Table.lookup_mem hlook)]

/-- INTERNAL: settling the first unfinished receipt leaves the rest of them. -/
theorem Settled.unfinished {t : World} {r : ExecutionReceipt} {a : ExecutionAttempt}
    {rest : List ExecutionReceipt} (hs : Safe host (ledgerOf w)) (h : Settled host w t r a)
    (hrows : unfinished w = r :: rest) : unfinished t = rest := by
  obtain ⟨r', hid, hfin, hreceipts⟩ := h.receipts
  rw [Analysis.unfinished, hreceipts]
  exact filter_upsert_finalized hs.receiptKeys hrows hid hfin

/-- The sweep over the unfinished receipts, one clock reading each: it comes to its end exactly when
each of them can be observed at its turn, and then none is left; otherwise some are.
SOURCE: app/supervisor.py:392-397 -/
theorem sat_reconcileAll (hw : w.Idle) (hs : Safe host (ledgerOf w))
    {rows : List ExecutionReceipt} (hrows : unfinished w = rows) :
    (ExecutionSupervisor.reconcileAll { adapters := adapters } host rows).Sat (Sweeps host)
      (fun res t => t.Idle ∧ Safe host (ledgerOf t) ∧ match res with
        | .ok _ => (∀ i r, rows[i]? = some r → observableAt host w (w.ticks + i) r = true) ∧
            unfinished t = []
        | .error _ => (∃ i r, rows[i]? = some r ∧ observableAt host w (w.ticks + i) r = false) ∧
            unfinished t ≠ []) w := by
  induction rows generalizing w with
  | nil => exact ⟨hw, hs, by simp, hrows⟩
  | cons r rest ih =>
    have hmem : r ∈ w.committed.receipts.filter (·.state ≠ .finalized) := by
      rw [show w.committed.receipts.filter (·.state ≠ .finalized) = _ from hrows]
      exact List.mem_cons_self ..
    obtain ⟨hr, hopen⟩ := List.mem_filter.mp hmem
    obtain ⟨hattempting, a, ha, hlink, hstate⟩ := hs.open_attempt hr (by simpa using hopen)
    unfold ExecutionSupervisor.reconcileAll
    rw [Program.sat_bind]
    refine (sat_reconcileReceipt_open host adapters hw hs hr hattempting ha hlink hstate).post
      fun res t ht => ?_
    cases res with
    | error e =>
      obtain ⟨hobs, rfl⟩ := ht
      exact ⟨hw, hs, ⟨0, r, rfl, hobs⟩, by rw [hrows]; simp⟩
    | ok result =>
      obtain ⟨hobs, hsettled⟩ := ht
      have hrest := hsettled.unfinished host hs hrows
      -- the other receipts are observed as they would have been from the start
      have hlater : ∀ (i : ℕ) (r₂ : ExecutionReceipt), rest[i]? = some r₂ →
          observableAt host t (t.ticks + i) r₂ = observableAt host w (w.ticks + (i + 1)) r₂ := by
        intro i r₂ hi
        have hr₂ : r₂ ∈ w.committed.receipts.filter (·.state ≠ .finalized) := by
          rw [show w.committed.receipts.filter (·.state ≠ .finalized) = _ from hrows]
          exact List.mem_cons_of_mem _ (List.mem_of_getElem? hi)
        have hnodup : ((r :: rest).map ExecutionReceipt.id).Nodup := by
          rw [← hrows]
          exact (hs.receiptKeys.sublist (List.filter_sublist.map _))
        have hne : r₂.id ≠ r.id := by
          intro he
          rw [List.map_cons, List.nodup_cons] at hnodup
          exact hnodup.1 (he ▸ List.mem_map_of_mem (List.mem_of_getElem? hi))
        unfold observableAt
        rw [hsettled.lastAttempt_of_ne host hs ha hlink (List.mem_filter.mp hr₂).1 hne,
          hsettled.ticks, Nat.add_assoc, Nat.add_comm 1 i]
      rw [Program.then_ok, Program.sat_bind]
      refine (ih hsettled.idle hsettled.safe hrest).post fun res t' ht' => ?_
      obtain ⟨hidle', hsafe', ht'⟩ := ht'
      cases res with
      | error e =>
        obtain ⟨⟨i, r₂, hi, hno⟩, hleft⟩ := ht'
        exact ⟨hidle', hsafe', ⟨i + 1, r₂, hi, (hlater i r₂ hi) ▸ hno⟩, hleft⟩
      | ok results =>
        refine ⟨hidle', hsafe', ?_, ht'.2⟩
        intro i r₂ hi
        cases i with
        | zero =>
          obtain rfl : r = r₂ := by simpa using hi
          exact hobs
        | succ i => exact (hlater i r₂ hi) ▸ ht'.1 i r₂ hi

end Sweep

/-! ## Histories of the supervisor -/

/-- The calls made to the supervisor. The adapters may differ from one process to the next; the
reconcilers are the default ones. -/
inductive SupervisorCall (host : Host) : Proc Unit → Prop
  | execute (adapters : List Adapter) (contract : ExecutionContract) :
      SupervisorCall host (ExecutionSupervisor.execute { adapters := adapters } host contract).void
  | reconcileReceipt (adapters : List Adapter) (receiptId : String) :
      SupervisorCall host
        (ExecutionSupervisor.reconcileReceipt { adapters := adapters } host receiptId).void
  | reconcileStuck (adapters : List Adapter) :
      SupervisorCall host (ExecutionSupervisor.reconcileStuck { adapters := adapters } host).void

/-- Any sequence of such calls, each killed at any point or not at all. -/
def supervised (host : Host) : Usage World Err := .free (SupervisorCall host) World.restart

/-- Between calls no transaction is open and the ledger is safe. -/
structure Resting (host : Host) (w : World) : Prop where
  idle : w.Idle
  safe : Safe host (ledgerOf w)

/-- INTERNAL: a restart leaves the ledger as it is. -/
theorem ledgerOf_restart (w : World) : ledgerOf w.restart = ledgerOf w := rfl

/-- INTERNAL: an empty database is at rest. -/
theorem resting_empty (host : Host) : Resting host {} := ⟨⟨rfl, rfl⟩, safe_empty host 0⟩

/-- INTERNAL: killed anywhere along ledger steps, the process restarts at rest. -/
theorem Resting.restart {host : Host} {w t : World} (hw : Resting host w)
    (h : Relation.ReflTransGen (Moves host) w t) : Resting host t.restart := by
  refine ⟨t.idle_restart, ?_⟩
  rw [ledgerOf_restart]
  induction h with
  | refl => exact hw.safe
  | tail _ hs ih => exact ih.step hs

/-- INTERNAL: the sweep starts from the unfinished receipts. -/
theorem sat_reconcileStuck (host : Host) (adapters : List Adapter) {w : World}
    (hw : Resting host w) :
    (ExecutionSupervisor.reconcileStuck { adapters := adapters } host).Sat (Sweeps host)
      (fun res t => t.Idle ∧ Safe host (ledgerOf t) ∧ match res with
        | .ok _ => (∀ i r, (unfinished w)[i]? = some r →
            observableAt host w (w.ticks + i) r = true) ∧ unfinished t = []
        | .error _ => (∃ i r, (unfinished w)[i]? = some r ∧
            observableAt host w (w.ticks + i) r = false) ∧ unfinished t ≠ []) w := by
  rw [ExecutionSupervisor.reconcileStuck, ReceiptRepository.listUnfinalized, Program.sat_bind,
    sat_query]
  refine ⟨(Quiet.refl w).sweeps host, ?_⟩
  rw [Program.then_ok, hw.idle.working]
  exact sat_reconcileAll host adapters hw.idle hw.safe rfl

/-- INTERNAL: reconciling any one receipt ends at rest. -/
theorem sat_reconcileReceipt (host : Host) (adapters : List Adapter) (receiptId : String)
    {w : World} (hw : Resting host w) :
    (ExecutionSupervisor.reconcileReceipt { adapters := adapters } host receiptId).Sat
      (Sweeps host) (fun _ t => Resting host t) w := by
  cases hlook : Table.lookup ExecutionReceipt.id w.committed.receipts receiptId with
  | none =>
    rw [ExecutionSupervisor.reconcileReceipt, ReceiptRepository.get, Program.sat_bind, sat_query,
      hw.idle.working, hlook]
    exact ⟨(Quiet.refl w).sweeps host, hw⟩
  | some r =>
    obtain rfl : r.id = receiptId := Table.lookup_eq_some_key hlook
    have hr := Table.lookup_mem hlook
    by_cases hfin : r.state = .finalized
    · refine (sat_reconcileReceipt_finalized host adapters hw.idle hw.safe hr hfin).post ?_
      rintro res t ⟨-, rfl⟩
      exact hw
    · obtain ⟨hattempting, a, ha, hlink, hstate⟩ := hw.safe.open_attempt hr hfin
      refine (sat_reconcileReceipt_open host adapters hw.idle hw.safe hr hattempting ha hlink
        hstate).post fun res t ht => ?_
      cases res with
      | error e => exact ht.2 ▸ hw
      | ok result => exact ⟨ht.2.idle, ht.2.safe⟩

/-- Every call of the supervisor takes ledger steps from rest to rest. -/
theorem SupervisorCall.sat {host : Host} {p : Proc Unit} {w : World} (h : SupervisorCall host p)
    (hw : Resting host w) : p.Sat (Moves host) (fun _ t => Resting host t) w := by
  cases h with
  | execute adapters contract =>
    refine Program.sat_void ?_
    refine ((sat_execute _ host contract hw.idle hw.safe).keep (fun _ _ => Safe.moves)
      hw.safe).post fun r t ht => ?_
    exact ⟨ht.1.idle, ht.2⟩
  | reconcileReceipt adapters receiptId =>
    refine Program.sat_void ?_
    exact (sat_reconcileReceipt host adapters receiptId hw).mono (fun _ _ h => h.1) fun _ _ h => h
  | reconcileStuck adapters =>
    refine Program.sat_void ?_
    exact (sat_reconcileStuck host adapters hw).mono (fun _ _ h => h.1)
      fun _ _ h => ⟨h.1, h.2.1⟩

/-- INTERNAL: every state between calls is at rest. -/
theorem resting_of_history {host : Host} {w : World} (h : History (supervised host) {} w) :
    Resting host w :=
  History.invariant_of_sat (resting_empty host) (fun _ _ hp hw => hp.sat hw)
    (fun _ _ hw hc => hw.restart hc) h

/-! ## The protocol -/

/-- What a sweep is to achieve, from the state it starts in. -/
structure SweepComplete (adapters : List Adapter) (host : Host) (w t : World) : Prop where
  finalized : ∀ r ∈ t.committed.receipts, r.state = .finalized ∧
    ∃ a outcome, ExecutionSupervisor.lastAttempt t.committed r.id = some a ∧
      r.outcome = some outcome ∧ a.outcome = some outcome
  noCalls : callsOf t.log = callsOf w.log
  second : ((ExecutionSupervisor.reconcileStuck { adapters := adapters } host).run t).2 = t

/-- INTERNAL: with nothing unfinished, a sweep changes nothing. -/
theorem run_reconcileStuck_nothing (host : Host) (adapters : List Adapter) {t : World}
    (ht : t.Idle) (hdone : unfinished t = []) :
    ((ExecutionSupervisor.reconcileStuck { adapters := adapters } host).run t).2 = t := by
  have hlist : t.working.receipts.filter (·.state ≠ .finalized) = [] := by
    rw [ht.working]
    exact hdone
  simp only [ExecutionSupervisor.reconcileStuck, ReceiptRepository.listUnfinalized,
    Program.run_bind, run_query, hlist, ExecutionSupervisor.reconcileAll, Program.run_pure]

/-- INTERNAL: with nothing unfinished, every receipt has the outcome of its attempt. -/
theorem finalized_of_nothing_unfinished {host : Host} {t : World} (hs : Safe host (ledgerOf t))
    (hdone : unfinished t = []) {r : ExecutionReceipt} (hr : r ∈ t.committed.receipts) :
    r.state = .finalized ∧ ∃ a outcome, ExecutionSupervisor.lastAttempt t.committed r.id = some a ∧
      r.outcome = some outcome ∧ a.outcome = some outcome := by
  have hfin : r.state = .finalized := by
    by_contra hne
    have hmem : r ∈ unfinished t := List.mem_filter.mpr ⟨hr, by simpa using hne⟩
    rw [hdone] at hmem
    cases hmem
  obtain ⟨a, ha, hlink⟩ := hs.receipt_has_attempt hr
  rcases hs.paired r hr a ha hlink with ⟨hstate, -⟩ | ⟨-, -, outcome, hro, hao⟩
  · rw [hfin] at hstate
    cases hstate
  · exact ⟨hfin, a, outcome, hlink ▸ hs.lastAttempt ha, hro, hao⟩

/-- INTERNAL: a chain of sweeping steps enters no adapter. -/
theorem calls_of_sweeps {host : Host} {a b : World}
    (h : Relation.ReflTransGen (Sweeps host) a b) : callsOf b.log = callsOf a.log := by
  induction h with
  | refl => rfl
  | tail _ hs ih => exact hs.2.trans ih

/-- In every history, an adapter is entered only under a committed receipt in ATTEMPTING with its
attempt committed as INVOKED; and a sweep that follows is complete if and only if each unfinished
receipt can be observed at its turn.
SOURCE: app/supervisor.py:153-397, app/recovery.py:34-49 -/
theorem receipt_protocol (host : Host) :
    (∀ a b call, Moment (supervised host) {} a b → callsOf b.log = callsOf a.log ++ [call] →
      UnderReceipt (ledgerOf a) call) ∧
    ∀ adapters w, History (supervised host) {} w →
      (SweepComplete adapters host w
          ((ExecutionSupervisor.reconcileStuck { adapters := adapters } host).run w).2 ↔
        ∀ i r, (unfinished w)[i]? = some r → observableAt host w (w.ticks + i) r = true) := by
  constructor
  · intro a b call hmoment hcall
    have hstep := (History.moment_of_sat (resting_empty host) (fun _ _ hp hw => hp.sat hw)
      (fun _ _ hw hc => hw.restart hc) hmoment).2
    rcases hstep with rfl | hstep
    · simp at hcall
    · exact hstep.underReceipt hcall
  · intro adapters w hw
    have hsat := sat_reconcileStuck host adapters (resting_of_history hw)
    obtain ⟨hidle, hsafe, hrun⟩ := hsat.run
    have hcalls := calls_of_sweeps hsat.reach
    revert hrun
    cases (ExecutionSupervisor.reconcileStuck { adapters := adapters } host |>.run w).1 with
    | error e =>
      rintro ⟨⟨i, r, hi, hno⟩, hleft⟩
      refine iff_of_false (fun h => ?_) fun h => ?_
      · obtain ⟨r', hr'⟩ := List.exists_mem_of_ne_nil _ hleft
        obtain ⟨hmem, hopen⟩ := List.mem_filter.mp hr'
        exact absurd (h.finalized r' hmem).1 (by simpa using hopen)
      · rw [h i r hi] at hno
        cases hno
    | ok results =>
      rintro ⟨hobs, hdone⟩
      exact iff_of_true ⟨fun r hr => finalized_of_nothing_unfinished hsafe hdone hr, hcalls,
        run_reconcileStuck_nothing host adapters hidle hdone⟩ hobs

/-- INTERNAL: the write that was stranded after its adapter was called is swept up. -/
theorem receipt_protocol_write :
    History (supervised occupiedHost) {} (strandedWrite 26) ∧
      SweepComplete plainSupervisor.adapters occupiedHost (strandedWrite 26)
        ((ExecutionSupervisor.reconcileStuck plainSupervisor occupiedHost).run
          (strandedWrite 26)).2 := by
  have hhistory : History (supervised occupiedHost) {} (strandedWrite 26) := by
    rw [strandedWrite, ← Program.cut_void]
    exact .crashed .start (SupervisorCall.execute plainSupervisor.adapters _)
  have hone : unfinished (strandedWrite 26) = [strandedReceipt] := by decide +kernel
  refine ⟨hhistory, ((receipt_protocol occupiedHost).2 plainSupervisor.adapters _ hhistory).mpr ?_⟩
  intro i r hi
  rw [hone] at hi
  obtain ⟨rfl, rfl⟩ : i = 0 ∧ r = strandedReceipt := by
    cases i with
    | zero => exact ⟨rfl, by simpa using hi.symm⟩
    | succ i => simp at hi
  decide +kernel

/-- A contract to terminate a process, by the pid in its metadata. -/
def terminateContract (pid : ℤ) : ExecutionContract :=
  { contractId := "contract"
    authorizationId := "authorization"
    capability := "process.terminate"
    operation := "process.terminate"
    target := toString pid
    metadata := [("pid", .int pid)] }

/-- What is left when the process is killed after `n` steps of terminating a pid beyond `pid_t`. -/
def strandedTermination (n : ℕ) : World :=
  ((ExecutionSupervisor.execute plainSupervisor occupiedHost (terminateContract 99999999999)).cut n
    {}).restart

/-- A termination by a pid beyond `pid_t`, stranded after its adapter was called: the sweep raises
`OverflowError` and its receipt stays in ATTEMPTING.
SOURCE: app/reconcile/process.py:89-101 -/
theorem reconcileStuck_pid_overflow :
    History (supervised occupiedHost) {} (strandedTermination 26) ∧
      ¬ SweepComplete plainSupervisor.adapters occupiedHost (strandedTermination 26)
        ((ExecutionSupervisor.reconcileStuck plainSupervisor occupiedHost).run
          (strandedTermination 26)).2 := by
  constructor
  · rw [strandedTermination, ← Program.cut_void]
    exact .crashed .start (SupervisorCall.execute plainSupervisor.adapters _)
  · intro h
    have hleft : ∃ r ∈ ((ExecutionSupervisor.reconcileStuck plainSupervisor occupiedHost).run
        (strandedTermination 26)).2.committed.receipts, r.state = .attempting := by
      decide +kernel
    obtain ⟨r, hr, hstate⟩ := hleft
    have hfin := (h.finalized r hr).1
    rw [hstate] at hfin
    cases hfin

end Shea.Analysis
