import Shea.Model.Startup
import Shea.Analysis.OneShot
import Shea.Analysis.PlanRuns
import Shea.Analysis.StrandedTasks

/-!
# The receipts at startup

`StartupRecoveryService.reconcile_app_receipts` takes the unfinished receipts one after the other: it
reconciles the receipt, then fires one of two events at the task the receipt names, if that is RUNNING
or VERIFYING. Neither event is an edge out of VERIFYING, and from RUNNING both leave the task FAILED or
BLOCKED, whatever was observed. So a turn goes well when the receipt can be observed, its task is not
VERIFYING, and an effect that shows is not the effect of a task that is, or was just, failed.
-/

set_option autoImplicit false

namespace Shea.Analysis

open Shea.Computation Shea.Model

/-- The machine shows the effect of the receipt's operation at the instant. -/
def visibleAt (host : Host) (w : World) (instant : ℕ) (receipt : ExecutionReceipt) : Bool :=
  effectVisible host.py (host.probes instant) receipt
    (ExecutionSupervisor.lastAttempt w.committed receipt.id)

/-! ## One receipt -/

section Receipt

variable {host : Host} {adapters : List Adapter} {t : World} {receipt : ExecutionReceipt}

/-- INTERNAL: the transaction of a stuck receipt, once there is an observation.
SOURCE: app/supervisor.py:336-390 -/
theorem run_settleStuck (sup : ExecutionSupervisor) {attempt : Option ExecutionAttempt}
    {reason : StuckReason} {obs : ReconcileObservation} (ht : t.Idle)
    (hstored : ∀ a ∈ attempt, a ∈ t.committed.attempts)
    (hobs : answerAt sup host receipt attempt reason t = .ok obs)
    (hjson : StoresJson (receiptAfter host receipt t obs) (attemptAfter host attempt t obs)) :
    ∃ result u incident,
      (ExecutionSupervisor.settleStuck sup host receipt attempt reason).run t = (.ok result, u) ∧
      result.outcome = obs.outcome ∧ u.committed = reconciledTables (receiptAfter host receipt t obs)
        (attemptAfter host attempt t obs) incident t.committed := by
  let drawn : World := { t with ticks := t.ticks + 1, nextId := t.nextId + 1 + 1 }
  have hdrawn : drawn.Idle := ⟨ht.depth, ht.working⟩
  let incident := ExecutionSupervisor.incidentOf receipt.id (attemptAfter host attempt t obs) reason
    obs (host.clock t.ticks) (host.newId t.nextId) (host.newId (t.nextId + 1))
  have hknown : ∀ a ∈ attemptAfter host attempt t obs,
      Table.has ExecutionAttempt.id drawn.enter.working.attempts a.id = true :=
    attemptAfter_known ht hstored
  have hbody := run_writeReconciliation (w := drawn.enter) (Nat.succ_pos _) hjson hknown incident
  have hblock := run_withUow_commit (inner_writeReconciliation _ _ _) hdrawn hbody
  let result : ReconciliationResult :=
    { receipt := receiptAfter host receipt t obs
      attempt := attemptAfter host attempt t obs
      incident := some incident
      outcome := obs.outcome
      detail := obs.detail }
  have hrun : (ExecutionSupervisor.settleStuck sup host receipt attempt reason).run t =
      (withUow (ExecutionSupervisor.writeReconciliation (attemptAfter host attempt t obs)
        (receiptAfter host receipt t obs) incident) >>= fun _ => pure result).run drawn := by
    unfold ExecutionSupervisor.settleStuck probe
    rw [Program.run_bind, Program.run_get]
    dsimp only
    unfold answerAt at hobs
    rw [hobs]
    rfl
  rw [Program.run_bind, hblock] at hrun
  refine ⟨result, _, incident, hrun, rfl, ?_⟩
  show reconciledTables _ _ _ t.working = _
  rw [ht.working]

/-- INTERNAL: an open receipt is finalized as what is observed, or the call raises.
SOURCE: app/supervisor.py:317-390 -/
theorem run_reconcileReceipt_open (adapters : List Adapter) (ht : Sound host t)
    (hr : receipt ∈ t.committed.receipts)
    (hopen : receipt.state ≠ .finalized) :
    (observableAt host t t.ticks receipt = false ∧ ∃ e u,
      (ExecutionSupervisor.reconcileReceipt { adapters := adapters } host receipt.id).run t =
        (.error e, u)) ∨
    (observableAt host t t.ticks receipt = true ∧ ∃ result u obs attempt incident,
      (ExecutionSupervisor.reconcileReceipt { adapters := adapters } host receipt.id).run t =
        (.ok result, u) ∧ result.outcome = obs.outcome ∧
      (obs.outcome = .success ↔ visibleAt host t t.ticks receipt = true) ∧
      u.committed = reconciledTables (receiptAfter host receipt t obs) attempt incident
        t.committed) := by
  have hs := ht.safe
  obtain ⟨hattempting, a, ha, hlink, hstate⟩ := hs.open_attempt hr hopen
  have hlook := Table.lookup_of_mem hs.receiptKeys hr
  have hlast : ExecutionSupervisor.lastAttempt t.committed receipt.id = some a :=
    hlink ▸ hs.lastAttempt ha
  obtain ⟨reason, hreason⟩ : ∃ reason, classifyStuckAttempt receipt (some a) = some reason := by
    rcases hstate with h | h
    · exact ⟨_, classify_created hattempting h⟩
    · exact ⟨_, classify_invoked hopen h⟩
  have hrun : (ExecutionSupervisor.reconcileReceipt { adapters := adapters } host receipt.id).run t =
      (ExecutionSupervisor.settleStuck { adapters := adapters } host receipt (some a) reason).run
        t := by
    unfold ExecutionSupervisor.reconcileReceipt ReceiptRepository.get
    rw [Program.run_bind, run_query, ht.idle.working,
      show Table.lookup ExecutionReceipt.id t.committed.receipts receipt.id = some receipt from hlook]
    dsimp only
    rw [Program.run_bind, run_query, ht.idle.working, hlast]
    dsimp only
    rw [hreason]
  rw [hrun]
  have hok := observe_isOk host.py (host.probes t.ticks) receipt (some a) reason
  have hjudged := observe_judged host.py (host.probes t.ticks) receipt (some a) reason
  unfold observableAt visibleAt
  rw [hlast]
  cases hobs : defaultReconcilerRegistry.observe host.py (host.probes t.ticks) receipt (some a)
      reason with
  | error e =>
    rw [hobs] at hok
    refine .inl ⟨hok.symm, e, t, ?_⟩
    unfold ExecutionSupervisor.settleStuck probe
    rw [Program.run_bind, Program.run_get]
    dsimp only
    rw [hobs]
    rfl
  | ok obs =>
    rw [hobs] at hok
    have hstored : WellStored t.committed :=
      ⟨hs.receiptKeys, hs.attemptKeys, hs.receiptJson, hs.attemptJson⟩
    have hjson := storesJson_after hstored hr ha host t
      (hjudged.json obs hobs (hstored.attemptJson a ha))
    obtain ⟨result, u, incident, hsettle, houtcome, hcommitted⟩ :=
      run_settleStuck { adapters := adapters } ht.idle (fun last h => Option.some.inj h ▸ ha) hobs hjson
    exact .inr ⟨hok.symm, result, u, obs, _, incident, hsettle, houtcome,
      hjudged.success obs hobs, hcommitted⟩

end Receipt

/-! ## Its task -/

/-- Where the event for an outcome takes a RUNNING task. -/
def movedTo (outcome : AppOutcome) : TaskState := if outcome = .unknown then .blocked else .failed

/-- What is left of the other tables and tasks when an interrupted task was moved on. -/
structure MovedOn (host : Host) (u v : World) (taskId : String) (outcome : AppOutcome) : Prop where
  sound : Sound host v
  receipts : v.committed.receipts = u.committed.receipts
  stays : ∀ id, storedState u.committed id ≠ some .running →
    storedState v.committed id = storedState u.committed id
  moved : storedState u.committed taskId = some .running →
    storedState v.committed taskId = some (movedTo outcome)

section Turn

variable {host : Host} {adapters : List Adapter} {start t u v : World} {receipt : ExecutionReceipt}
  {taskId : String}

/-- INTERNAL: a sound state after a call that rests and keeps the registers. -/
theorem Sound.after {α : Type} {p : Proc α} {r : Except Err α} (hu : Sound host u)
    (hrests : Rests host p) (hupholds : Upholds (Both (Registered host)) p)
    (hrun : p.run u = (r, v)) : Sound host v := by
  have hresting := (hrests u hu.toResting).run
  have hboth := (hupholds u hu.both).run
  rw [hrun] at hresting hboth
  exact ⟨hresting, hboth.2⟩

/-- INTERNAL: neither event is an edge out of VERIFYING.
SOURCE: state_machine/transitions.py:39-59 -/
theorem nextState_verifying (outcome : AppOutcome) : ∃ e,
    nextState .verifying (StartupRecoveryService.eventOf outcome) = .error e := by
  cases outcome <;> exact ⟨_, rfl⟩

/-- INTERNAL: both are edges out of RUNNING. -/
theorem nextState_running (outcome : AppOutcome) :
    nextState .running (StartupRecoveryService.eventOf outcome) = .ok (movedTo outcome) := by
  cases outcome <;> rfl

/-- INTERNAL: the task of a reconciled receipt.
SOURCE: recovery/startup.py:58-69 -/
theorem run_advanceInterrupted (hu : Sound host u) (taskId : String) (outcome : AppOutcome) :
    (storedState u.committed taskId = some .verifying ∧ ∃ e v,
      (StartupRecoveryService.advanceInterrupted host taskId outcome).run u = (.error e, v)) ∨
    (storedState u.committed taskId ≠ some .verifying ∧ ∃ moved v,
      (StartupRecoveryService.advanceInterrupted host taskId outcome).run u = (.ok moved, v) ∧
      MovedOn host u v taskId outcome) := by
  unfold StartupRecoveryService.advanceInterrupted TaskRepository.get
  rw [Program.run_bind, run_query, hu.idle.working]
  have hstored : storedState u.committed taskId =
      (Table.lookup Task.id u.committed.tasks taskId).map Task.state := rfl
  cases hrow : Table.lookup Task.id u.committed.tasks taskId with
  | none =>
    rw [hrow] at hstored
    refine .inr ⟨by rw [hstored]; simp, false, u, rfl, hu, rfl, fun _ _ => rfl, fun h => ?_⟩
    rw [hstored] at h
    cases h
  | some task =>
    rw [hrow] at hstored
    dsimp only
    have hrow' : Table.lookup Task.id u.working.tasks taskId = some task := by
      rw [hu.idle.working]
      exact hrow
    by_cases hverifying : task.state = .verifying
    · obtain ⟨e, he⟩ := nextState_verifying outcome
      have hnext := he
      rw [← hverifying] at hnext
      obtain ⟨v, hadvance, -, -⟩ := raises_advance hu.ordered hrow' hnext
      refine .inl ⟨hstored.trans (congrArg some hverifying), e, v, ?_⟩
      rw [if_pos (.inr hverifying), Program.run_bind, hadvance]
    refine .inr ⟨fun h => hverifying (Option.some.inj (hstored.symm.trans h)), ?_⟩
    by_cases hrunning : task.state = .running
    · have hnext := nextState_running outcome
      rw [← hrunning] at hnext
      obtain ⟨moved, v, hadvance, hsequel, -, -, -, hmoves⟩ := succeeds_advance hu.ordered hrow' hnext
      have hcommitted := hsequel.committed hu.idle
      rw [hu.idle.working] at hmoves
      have hid : task.id = taskId := Table.lookup_eq_some_key hrow
      refine ⟨true, v, ?_, ?_, ?_, fun id hid' => ?_, fun _ => ?_⟩
      · rw [if_pos (.inl hrunning), Program.run_bind, hadvance]
        rfl
      · exact hu.after (serves_advance ofAppPlane_ledgerPart.outlying.toUnrelated host _ _).rests
          (upholds_advance (lasting_registered host) _ trivial) hadvance
      · obtain ⟨_, _, -, -, -, hrows⟩ := hmoves
        rw [hcommitted, hrows]
        rfl
      · obtain ⟨changed, _, hchanged, -, -, hrows⟩ := hmoves
        have hne : changed.id ≠ id := by
          rintro rfl
          refine hid' ?_
          rw [hchanged, hid]
          exact hstored.trans (congrArg some hrunning)
        unfold storedState
        rw [hcommitted, hrows]
        exact congrArg (Option.map Task.state) (Table.lookup_upsert_of_ne keepsKey_task _ hne)
      · rw [hcommitted, ← hid]
        exact hmoves.storedState (hid ▸ hrow)
    · refine ⟨false, u, ?_, hu, rfl, fun _ _ => rfl, fun h => ?_⟩
      · rw [if_neg (not_or.mpr ⟨hrunning, hverifying⟩)]
        rfl
      · exact absurd (Option.some.inj (hstored.symm.trans h)) hrunning

/-- What a turn leaves. -/
structure Turned (host : Host) (t u : World) (receipt : ExecutionReceipt) (taskId : String) :
    Prop where
  sound : Sound host u
  closed : ∃ row, Table.lookup ExecutionReceipt.id u.committed.receipts receipt.id = some row ∧
    row.state = .finalized ∧
    (row.outcome = some .success ↔ visibleAt host t t.ticks receipt = true)
  others : ∀ id, receipt.id ≠ id → Table.lookup ExecutionReceipt.id u.committed.receipts id =
    Table.lookup ExecutionReceipt.id t.committed.receipts id
  stays : ∀ id, storedState t.committed id ≠ some .running →
    storedState u.committed id = storedState t.committed id
  failed : visibleAt host t t.ticks receipt = true → storedState t.committed taskId = some .running →
    storedState u.committed taskId = some .failed

/-- INTERNAL: the reconciliation of a receipt rests and keeps the registers. -/
theorem sound_reconcileReceipt {r : Except Err ReconciliationResult} (ht : Sound host t)
    {receiptId : String}
    (hrun : (ExecutionSupervisor.reconcileReceipt { adapters := adapters } host receiptId).run t =
      (r, u)) : Sound host u :=
  ht.after (fun _ hw => (sat_reconcileReceipt host adapters receiptId hw).mono (fun _ _ h => h.1)
    fun _ _ h => h) (upholds_reconcileReceipt (lasting_registered host) _ _) hrun

/-- The turn of a receipt that names a task: it returns exactly when the receipt can be observed and the
task is not VERIFYING.
SOURCE: recovery/startup.py:53-69 -/
theorem run_reconcileOne (adapters : List Adapter) (ht : Sound host t)
    (hr : receipt ∈ t.committed.receipts) (hopen : receipt.state ≠ .finalized)
    (htask : StartupRecoveryService.taskIdOf receipt = some taskId) :
    (¬ (observableAt host t t.ticks receipt = true ∧
        storedState t.committed taskId ≠ some .verifying) ∧ ∃ e u,
      (StartupRecoveryService.reconcileOne { adapters := adapters } host receipt).run t =
        (.error e, u)) ∨
    (observableAt host t t.ticks receipt = true ∧
      storedState t.committed taskId ≠ some .verifying ∧ ∃ moved u,
      (StartupRecoveryService.reconcileOne { adapters := adapters } host receipt).run t =
        (.ok moved, u) ∧ Turned host t u receipt taskId) := by
  unfold StartupRecoveryService.reconcileOne
  rw [htask]
  dsimp only
  rw [Program.run_bind]
  rcases run_reconcileReceipt_open adapters ht hr hopen with
    ⟨hblind, e, u, hrun⟩ | ⟨hseen, result, u, obs, attempt, incident, hrun, houtcome, hsuccess, hrows⟩
  · refine .inl ⟨fun h => ?_, e, u, by rw [hrun]⟩
    rw [hblind] at h
    exact absurd h.1 (by decide)
  have hu := sound_reconcileReceipt ht hrun
  have hstates : ∀ id, storedState u.committed id = storedState t.committed id := by
    intro id
    rw [hrows]
    cases attempt <;> rfl
  have hreceipts : u.committed.receipts = Table.upsert ExecutionReceipt.id ReceiptRepository.merge
      (receiptAfter host receipt t obs) t.committed.receipts := by
    rw [hrows]
    exact receipts_reconciledTables _ _ _ _
  rw [hrun]
  dsimp only
  rw [Program.run_bind]
  rcases run_advanceInterrupted hu taskId result.outcome with
    ⟨hverifying, e, v, hmove⟩ | ⟨hcalm, moved, v, hmove, hmoved⟩
  · rw [hstates] at hverifying
    exact .inl ⟨fun h => h.2 hverifying, e, v, by rw [hmove]⟩
  rw [hstates] at hcalm
  refine .inr ⟨hseen, hcalm, _, v, by rw [hmove]; rfl, hmoved.sound, ?_, fun id hne => ?_,
    fun id hid => ?_, fun hvisible hrunning => ?_⟩
  · have hlook := Table.lookup_upsert_self keepsKey_receipt t.committed.receipts
      (receiptAfter host receipt t obs)
    have hfound : Table.lookup ExecutionReceipt.id t.committed.receipts receipt.id = some receipt :=
      Table.lookup_of_mem ht.safe.receiptKeys hr
    have hid : (receiptAfter host receipt t obs).id = receipt.id := rfl
    rw [hid, hfound, ← hreceipts, ← hmoved.receipts] at hlook
    refine ⟨_, hlook, rfl, ?_⟩
    rw [← hsuccess]
    exact ⟨fun h => Option.some.inj h, fun h => congrArg some h⟩
  · rw [hmoved.receipts, hreceipts]
    exact Table.lookup_upsert_of_ne keepsKey_receipt _ hne
  · exact (hmoved.stays id (hstates id ▸ hid)).trans (hstates id)
  · have hfailed := hmoved.moved (hstates taskId ▸ hrunning)
    rw [houtcome, hsuccess.mpr hvisible] at hfailed
    exact hfailed

end Turn

/-! ## The loop, and a crash -/

/-- The receipts are stored and unfinished, none twice. -/
structure AwaitTurn (t : World) (rows : List ExecutionReceipt) : Prop where
  nodup : (rows.map ExecutionReceipt.id).Nodup
  stored : ∀ row ∈ rows, row ∈ t.committed.receipts
  unfinished : ∀ row ∈ rows, row.state ≠ .finalized

/-- What the loop leaves when it returns. -/
structure Processed (host : Host) (t v : World) (rows : List ExecutionReceipt) : Prop where
  sound : Sound host v
  others : ∀ id, (∀ row ∈ rows, (StartupRecoveryService.taskIdOf row).isSome → row.id ≠ id) →
    Table.lookup ExecutionReceipt.id v.committed.receipts id =
      Table.lookup ExecutionReceipt.id t.committed.receipts id
  stays : ∀ id, storedState t.committed id ≠ some .running →
    storedState v.committed id = storedState t.committed id
  closed : ∀ row ∈ rows, (StartupRecoveryService.taskIdOf row).isSome → ∃ found,
    Table.lookup ExecutionReceipt.id v.committed.receipts row.id = some found ∧
      found.state = .finalized

/-- The turn of a receipt that names the task goes well: the receipt can be observed, the task is not
VERIFYING, and if the effect of the operation shows, the task is not RUNNING, and not FAILED unless it
was when the call started. -/
structure GoesWell (host : Host) (start t : World) (receipt : ExecutionReceipt) (taskId : String) :
    Prop where
  observable : observableAt host t t.ticks receipt = true
  notVerifying : storedState t.committed taskId ≠ some .verifying
  notRunning : visibleAt host t t.ticks receipt = true →
    storedState t.committed taskId ≠ some .running
  notFailed : visibleAt host t t.ticks receipt = true →
    storedState t.committed taskId = some .failed → storedState start.committed taskId = some .failed

/-- Every turn goes well, each in the state the turns before it have left. -/
def TurnsWell (adapters : List Adapter) (host : Host) (start : World) :
    World → List ExecutionReceipt → Prop
  | _, [] => True
  | t, receipt :: rest =>
    (∀ taskId, StartupRecoveryService.taskIdOf receipt = some taskId →
      GoesWell host start t receipt taskId) ∧
    TurnsWell adapters host start
      ((StartupRecoveryService.reconcileOne { adapters := adapters } host receipt).run t).2 rest

/-- A task that a receipt reconciled to SUCCESS names is FAILED only if it was FAILED before. -/
def KeepsSuccess (start v : World) (rows : List ExecutionReceipt) : Prop :=
  ∀ receipt ∈ rows, ∀ taskId, StartupRecoveryService.taskIdOf receipt = some taskId →
    FinalizedAs .success v.committed receipt.id → storedState v.committed taskId = some .failed →
      storedState start.committed taskId = some .failed

section Loop

variable {host : Host} {adapters : List Adapter} {start t u v : World} {receipt : ExecutionReceipt}
  {rows : List ExecutionReceipt} {taskId : String} {ids : List String}

/-- INTERNAL: after the turn of the first, the rest is still pending. -/
theorem AwaitTurn.tail (h : AwaitTurn t (receipt :: rows)) (hu : Turned host t u receipt taskId)
    (ht : Sound host t) : AwaitTurn u rows := by
  obtain ⟨hnew, hnodup⟩ := List.nodup_cons.mp h.nodup
  refine ⟨hnodup, fun row hrow => ?_, fun row hrow => h.unfinished row (List.mem_cons_of_mem _ hrow)⟩
  have hne : receipt.id ≠ row.id := fun heq => hnew (heq ▸ List.mem_map_of_mem hrow)
  have hlook := Table.lookup_of_mem ht.safe.receiptKeys (h.stored row (List.mem_cons_of_mem _ hrow))
  exact Table.lookup_mem ((hu.others row.id hne).trans hlook)

/-- INTERNAL: and so it is when the first is passed over. -/
theorem AwaitTurn.rest (h : AwaitTurn t (receipt :: rows)) : AwaitTurn t rows :=
  ⟨(List.nodup_cons.mp h.nodup).2, fun row hrow => h.stored row (List.mem_cons_of_mem _ hrow),
    fun row hrow => h.unfinished row (List.mem_cons_of_mem _ hrow)⟩

/-- INTERNAL: a receipt that names no task is passed over. -/
theorem run_reconcileEach_unnamed (host : Host) (adapters : List Adapter) (t : World)
    (rows : List ExecutionReceipt) (hnone : StartupRecoveryService.taskIdOf receipt = none) :
    (StartupRecoveryService.reconcileOne { adapters := adapters } host receipt).run t =
        (.ok none, t) ∧
    (StartupRecoveryService.reconcileEach { adapters := adapters } host (receipt :: rows)).run t =
      (StartupRecoveryService.reconcileEach { adapters := adapters } host rows).run t := by
  have hone : (StartupRecoveryService.reconcileOne { adapters := adapters } host receipt).run t =
      (.ok none, t) := by
    unfold StartupRecoveryService.reconcileOne
    rw [hnone]
    rfl
  refine ⟨hone, ?_⟩
  rw [StartupRecoveryService.reconcileEach, Program.run_bind, hone]
  dsimp only
  rw [Program.run_bind]
  rcases (StartupRecoveryService.reconcileEach { adapters := adapters } host rows).run t with ⟨r, v⟩
  cases r <;> rfl

/-- INTERNAL: the loop goes on from where the first turn has ended. -/
theorem run_reconcileEach_cons {moved : Option String}
    (hone : (StartupRecoveryService.reconcileOne { adapters := adapters } host receipt).run t =
      (.ok moved, u)) :
    (∃ ids, (StartupRecoveryService.reconcileEach { adapters := adapters } host
        (receipt :: rows)).run t = (.ok ids, v)) ↔
      ∃ ids, (StartupRecoveryService.reconcileEach { adapters := adapters } host rows).run u =
        (.ok ids, v) := by
  rw [StartupRecoveryService.reconcileEach, Program.run_bind, hone]
  dsimp only
  rw [Program.run_bind]
  rcases (StartupRecoveryService.reconcileEach { adapters := adapters } host rows).run u with ⟨r, x⟩
  cases r with
  | error e => exact iff_of_false (by rintro ⟨ids, h⟩; cases h) (by rintro ⟨ids, h⟩; cases h)
  | ok others =>
    constructor
    · rintro ⟨ids, h⟩
      obtain ⟨-, rfl⟩ := Prod.mk.inj h
      exact ⟨others, rfl⟩
    · rintro ⟨ids, h⟩
      obtain ⟨-, rfl⟩ := Prod.mk.inj h
      exact ⟨_, rfl⟩

/-- INTERNAL: the loop, when it returns.
SOURCE: recovery/startup.py:52-71 -/
theorem processed_of_returned (ht : Sound host t) (hrows : AwaitTurn t rows)
    (hrun : ∃ ids, (StartupRecoveryService.reconcileEach { adapters := adapters } host rows).run t =
      (.ok ids, v)) : Processed host t v rows := by
  induction rows generalizing t with
  | nil =>
    obtain ⟨ids, hrun⟩ := hrun
    obtain ⟨-, rfl⟩ := Prod.mk.inj hrun
    exact ⟨ht, fun _ _ => rfl, fun _ _ => rfl, by simp⟩
  | cons receipt rest ih =>
    have hmem : receipt ∈ receipt :: rest := List.mem_cons_self ..
    cases htask : StartupRecoveryService.taskIdOf receipt with
    | none =>
      rw [(run_reconcileEach_unnamed host adapters t rest htask).2] at hrun
      have h := ih ht hrows.rest hrun
      refine ⟨h.sound, fun id hid => h.others id fun row hrow =>
        hid row (List.mem_cons_of_mem _ hrow), h.stays, fun row hrow hnamed => ?_⟩
      rcases List.mem_cons.mp hrow with rfl | hrow
      · rw [htask] at hnamed
        cases hnamed
      · exact h.closed row hrow hnamed
    | some taskId =>
      rcases run_reconcileOne adapters ht (hrows.stored receipt hmem)
        (hrows.unfinished receipt hmem) htask with
        ⟨-, e, u, hone⟩ | ⟨-, -, moved, u, hone, hturned⟩
      · obtain ⟨ids, hrun⟩ := hrun
        rw [StartupRecoveryService.reconcileEach, Program.run_bind, hone] at hrun
        cases hrun
      · have h := ih hturned.sound (hrows.tail hturned ht) ((run_reconcileEach_cons hone).mp hrun)
        have hlast : ∀ row ∈ rest, (StartupRecoveryService.taskIdOf row).isSome →
            row.id ≠ receipt.id := fun row hrow _ heq =>
          (List.nodup_cons.mp hrows.nodup).1 (heq ▸ List.mem_map_of_mem hrow)
        refine ⟨h.sound, fun id hid => ?_, fun id hid => ?_, fun row hrow hnamed => ?_⟩
        · exact (h.others id fun row hrow => hid row (List.mem_cons_of_mem _ hrow)).trans
            (hturned.others id (hid receipt hmem (htask ▸ rfl)))
        · have hsame := hturned.stays id hid
          exact (h.stays id (hsame ▸ hid)).trans hsame
        · rcases List.mem_cons.mp hrow with rfl | hrow
          · obtain ⟨found, hfound, hstate, -⟩ := hturned.closed
            exact ⟨found, (h.others _ hlast).trans hfound, hstate⟩
          · exact h.closed row hrow hnamed

/-- INTERNAL: the loop returns and keeps every success exactly when every turn goes well.
SOURCE: recovery/startup.py:52-71 -/
theorem reconcileEach_iff (ht : Sound host t) (hrows : AwaitTurn t rows)
    (hstart : ∀ id, storedState start.committed id ≠ some .running →
      storedState t.committed id = storedState start.committed id) :
    (∃ v, (∃ ids, (StartupRecoveryService.reconcileEach { adapters := adapters } host rows).run t =
      (.ok ids, v)) ∧ KeepsSuccess start v rows) ↔ TurnsWell adapters host start t rows := by
  induction rows generalizing t with
  | nil => exact iff_of_true ⟨t, ⟨[], rfl⟩, by simp [KeepsSuccess]⟩ trivial
  | cons receipt rest ih =>
    have hmem : receipt ∈ receipt :: rest := List.mem_cons_self ..
    unfold TurnsWell
    cases htask : StartupRecoveryService.taskIdOf receipt with
    | none =>
      obtain ⟨hone, heach⟩ := run_reconcileEach_unnamed host adapters t rest htask
      have hkeeps : ∀ v, KeepsSuccess start v (receipt :: rest) ↔ KeepsSuccess start v rest := by
        intro v
        unfold KeepsSuccess
        rw [List.forall_mem_cons]
        exact and_iff_right fun taskId h => nomatch htask.symm.trans h
      rw [heach, hone, ← ih ht hrows.rest hstart]
      simp only [hkeeps]
      exact ⟨fun h => ⟨fun taskId h' => (nomatch h'), h⟩, fun h => h.2⟩
    | some taskId =>
      rcases run_reconcileOne adapters ht (hrows.stored receipt hmem)
        (hrows.unfinished receipt hmem) htask with
        ⟨hbad, e, u, hone⟩ | ⟨hseen, hcalm, moved, u, hone, hturned⟩
      · refine iff_of_false ?_ fun h =>
          hbad ⟨(h.1 taskId rfl).observable, (h.1 taskId rfl).notVerifying⟩
        rintro ⟨v, ⟨ids, hrun⟩, -⟩
        rw [StartupRecoveryService.reconcileEach, Program.run_bind, hone] at hrun
        cases hrun
      have hawait := hrows.tail hturned ht
      have hlater : ∀ id, storedState start.committed id ≠ some .running →
          storedState u.committed id = storedState start.committed id := fun id hid => by
        have hsame := hstart id hid
        exact (hturned.stays id (hsame ▸ hid)).trans hsame
      have hlast : ∀ row ∈ rest, (StartupRecoveryService.taskIdOf row).isSome →
            row.id ≠ receipt.id := fun row hrow _ heq =>
        (List.nodup_cons.mp hrows.nodup).1 (heq ▸ List.mem_map_of_mem hrow)
      have hih := ih hturned.sound hawait hlater
      -- the receipt is finalized as SUCCESS, then and later, exactly if its effect showed
      have hfinal : ∀ v, Processed host u v rest →
          (FinalizedAs .success v.committed receipt.id ↔
            visibleAt host t t.ticks receipt = true) := by
        intro v hv
        obtain ⟨found, hfound, hstate, hsuccess⟩ := hturned.closed
        unfold FinalizedAs
        rw [hv.others _ hlast, hfound, ← hsuccess]
        exact ⟨fun ⟨row, hrow, _, hrow'⟩ => Option.some.inj hrow ▸ hrow',
          fun h => ⟨found, rfl, hstate, h⟩⟩
      rw [hone]
      dsimp only
      constructor
      · rintro ⟨v, hrun, hkeeps⟩
        have hrest := (run_reconcileEach_cons hone).mp hrun
        have hprocessed := processed_of_returned hturned.sound hawait hrest
        have hone' := hkeeps receipt hmem taskId htask
        refine ⟨fun id hid => ?_, hih.mp ⟨v, hrest, fun row hrow =>
          hkeeps row (List.mem_cons_of_mem _ hrow)⟩⟩
        obtain rfl := Option.some.inj hid
        refine ⟨hseen, hcalm, fun hvisible hrunning => ?_, fun hvisible hfailed => ?_⟩
        · have hfailed := hturned.failed hvisible hrunning
          have hend := hprocessed.stays taskId (by rw [hfailed]; decide)
          have hbefore := hone' ((hfinal v hprocessed).mpr hvisible) (hend.trans hfailed)
          have hsame := hstart taskId (by rw [hbefore]; decide)
          rw [hrunning, hbefore] at hsame
          cases hsame
        · have hsame := hturned.stays taskId (by rw [hfailed]; decide)
          have hend := hprocessed.stays taskId (by rw [hsame, hfailed]; decide)
          exact hone' ((hfinal v hprocessed).mpr hvisible) (hend.trans (hsame.trans hfailed))
      · rintro ⟨hwell, hturns⟩
        obtain ⟨v, hrest, hkeeps⟩ := hih.mpr hturns
        have hprocessed := processed_of_returned hturned.sound hawait hrest
        refine ⟨v, (run_reconcileEach_cons hone).mpr hrest, fun row hrow id hid hsuccess hend => ?_⟩
        rcases List.mem_cons.mp hrow with rfl | hrow
        · obtain rfl := Option.some.inj (htask.symm.trans hid)
          have hvisible := (hfinal v hprocessed).mp hsuccess
          have hrunning := (hwell taskId rfl).notRunning hvisible
          have hsame := hturned.stays taskId hrunning
          have hlater' := hprocessed.stays taskId (hsame ▸ hrunning)
          exact (hwell taskId rfl).notFailed hvisible ((hlater'.trans hsame).symm.trans hend)
        · exact hkeeps row hrow id hid hsuccess hend

end Loop

/-- What the reconciliation of the receipts is for: it returns; no receipt that names a task is left
unfinished; and no task that a receipt reconciled to SUCCESS names was moved to FAILED. -/
def ReconcilesReceipts (adapters : List Adapter) (host : Host) (w : World) : Prop :=
  ∃ v, (∃ ids, (StartupRecoveryService.reconcileAppReceipts
      { supervisor := some { adapters := adapters } } host).run w = (.ok ids, v)) ∧
    (∀ row ∈ v.committed.receipts, (StartupRecoveryService.taskIdOf row).isSome →
      row.state = .finalized) ∧
    KeepsSuccess w v (unfinished w)

/-- The startup reconciles the receipts exactly when every turn goes well.
SOURCE: recovery/startup.py:47-71, state_machine/transitions.py:39-59 -/
theorem receipts_reconciled_iff {host : Host} {w : World} (adapters : List Adapter)
    (h : History (services host) {} w) :
    ReconcilesReceipts adapters host w ↔ TurnsWell adapters host w w (unfinished w) := by
  have hsound := Sound.of_services h
  have hrows : AwaitTurn w (unfinished w) := by
    refine ⟨hsound.safe.receiptKeys.sublist (List.filter_sublist.map _), fun row hrow => ?_,
      fun row hrow => ?_⟩
    · exact (List.mem_filter.mp hrow).1
    · exact of_decide_eq_true (List.mem_filter.mp hrow).2
  have hrun : (StartupRecoveryService.reconcileAppReceipts
      { supervisor := some { adapters := adapters } } host).run w =
      (StartupRecoveryService.reconcileEach { adapters := adapters } host (unfinished w)).run w := by
    unfold StartupRecoveryService.reconcileAppReceipts ReceiptRepository.listUnfinalized unfinished
    rw [Program.run_bind, run_query, hsound.idle.working]
  unfold ReconcilesReceipts
  rw [hrun, ← reconcileEach_iff hsound hrows fun _ _ => rfl]
  constructor
  · rintro ⟨v, hreturned, -, hkeeps⟩
    exact ⟨v, hreturned, hkeeps⟩
  · rintro ⟨v, hreturned, hkeeps⟩
    refine ⟨v, hreturned, fun row hrow hnamed => ?_, hkeeps⟩
    have hprocessed := processed_of_returned hsound hrows hreturned
    have hlook := Table.lookup_of_mem hprocessed.sound.safe.receiptKeys hrow
    by_contra hopen
    have hnever : ∀ listed ∈ unfinished w, (StartupRecoveryService.taskIdOf listed).isSome →
        listed.id ≠ row.id := by
      rintro listed hmem hlisted heq
      obtain ⟨found, hfound, hstate⟩ := hprocessed.closed listed hmem hlisted
      rw [heq] at hfound
      obtain rfl := Option.some.inj (hfound.symm.trans hlook)
      exact hopen hstate
    have hbefore := Table.lookup_mem ((hprocessed.others row.id hnever).symm.trans hlook)
    exact hnever row (List.mem_filter.mpr ⟨hbefore, decide_eq_true hopen⟩) hnamed rfl

/-- The first task of a plan, RUNNING. -/
def runningOn (host : Host) : World := authorizedNote host (plannedNote host answering)

/-- A contract to write a file for that task. -/
def writeForTask (host : Host) : ExecutionContract :=
  { writeContract "/tmp/report" with
    metadata := [("path", .str "/tmp/report"), ("task_id", .str (firstTask (runningOn host)).id)] }

/-- The write, by a supervisor with one adapter. -/
def writeReport (host : Host) : Proc Unit :=
  (ExecutionSupervisor.execute { adapters := plainSupervisor.adapters } host (writeForTask host)).void

/-- The process dies right after the adapter was called. -/
def interruptedWrite (host : Host) : World := ((writeReport host).cut 26 (runningOn host)).restart

/-- INTERNAL: planning, authorizing and dying are things that happen. -/
theorem history_interruptedWrite (host : Host) :
    History (services host) {} (interruptedWrite host) := by
  have hplanned := (History.start : History (operations host) {} {}).returned_void
    (Operation.createAndPlan (notesPlanning answering)
      { sessionId := "session", requestText := "note" })
  have hrunning : History (operations host) {} (runningOn host) := hplanned.returned_void
    (Operation.evaluateAndAuthorize {} (firstTask (plannedNote host answering))
      { capabilities := ["data.read"] })
  have hcall : Operation host (writeReport host) := .supervise (.execute _ _)
  exact history_of_operations (hrunning.crashed hcall)

/-- The startup after the interrupted write. -/
def receiptsAfter (host : Host) : Except Err (List String) × World :=
  (StartupRecoveryService.reconcileAppReceipts
    { supervisor := some { adapters := plainSupervisor.adapters } } host).run (interruptedWrite host)

/-- The file is there: the receipt is reconciled to SUCCESS, and its task, which was RUNNING, is moved to
FAILED.
SOURCE: recovery/startup.py:63-69 -/
theorem successful_task_failed :
    History (services occupiedHost) {} (interruptedWrite occupiedHost) ∧
    (∃ receipt ∈ unfinished (interruptedWrite occupiedHost),
      StartupRecoveryService.taskIdOf receipt = some (firstTask (runningOn occupiedHost)).id ∧
        FinalizedAs .success (receiptsAfter occupiedHost).2.committed receipt.id) ∧
    storedState (interruptedWrite occupiedHost).committed (firstTask (runningOn occupiedHost)).id =
      some .running ∧
    storedState (receiptsAfter occupiedHost).2.committed (firstTask (runningOn occupiedHost)).id =
      some .failed ∧
    ¬ ReconcilesReceipts plainSupervisor.adapters occupiedHost (interruptedWrite occupiedHost) := by
  have hrun : (∃ receipt ∈ unfinished (interruptedWrite occupiedHost),
      StartupRecoveryService.taskIdOf receipt = some (firstTask (runningOn occupiedHost)).id ∧
        FinalizedAs .success (receiptsAfter occupiedHost).2.committed receipt.id) ∧
      storedState (interruptedWrite occupiedHost).committed (firstTask (runningOn occupiedHost)).id =
        some .running ∧
      storedState (receiptsAfter occupiedHost).2.committed (firstTask (runningOn occupiedHost)).id =
        some .failed := by decide +kernel
  obtain ⟨⟨receipt, hmem, htask, hsuccess⟩, hrunning, hfailed⟩ := hrun
  refine ⟨history_interruptedWrite _, ⟨receipt, hmem, htask, hsuccess⟩, hrunning, hfailed, ?_⟩
  rintro ⟨v, ⟨ids, hv⟩, -, hkeeps⟩
  have hend : receiptsAfter occupiedHost = (.ok ids, v) := hv
  rw [hend] at hsuccess hfailed
  have hbefore := hkeeps receipt hmem _ htask hsuccess hfailed
  rw [hrunning] at hbefore
  cases hbefore

/-- Without the file the outcome is UNKNOWN, the task is BLOCKED, and the turn has gone well. -/
theorem unknown_task_blocked :
    History (services (.plain [] [])) {} (interruptedWrite (.plain [] [])) ∧
      TurnsWell plainSupervisor.adapters (.plain [] []) (interruptedWrite (.plain [] []))
        (interruptedWrite (.plain [] [])) (unfinished (interruptedWrite (.plain [] []))) := by
  have hrun : (receiptsAfter (.plain [] [])).1.isOk = true ∧
      (∀ row ∈ (receiptsAfter (.plain [] [])).2.committed.receipts,
        (StartupRecoveryService.taskIdOf row).isSome → row.state = .finalized) ∧
      ∀ receipt ∈ unfinished (interruptedWrite (.plain [] [])),
        ¬ FinalizedAs .success (receiptsAfter (.plain [] [])).2.committed receipt.id := by
    decide +kernel
  have hhistory := history_interruptedWrite (.plain [] [])
  refine ⟨hhistory, ?_⟩
  rw [← receipts_reconciled_iff plainSupervisor.adapters hhistory]
  revert hrun
  unfold receiptsAfter ReconcilesReceipts
  generalize (StartupRecoveryService.reconcileAppReceipts
    { supervisor := some { adapters := plainSupervisor.adapters } } (.plain [] [])).run
      (interruptedWrite (.plain [] [])) = outcome
  obtain ⟨r, v⟩ := outcome
  rintro ⟨hreturns, hfinished, hnone⟩
  cases r with
  | error e => cases hreturns
  | ok ids =>
    refine ⟨v, ⟨ids, rfl⟩, hfinished, ?_⟩
    intro receipt hmem _ _ hsuccess
    exact absurd hsuccess (hnone receipt hmem)

end Shea.Analysis
