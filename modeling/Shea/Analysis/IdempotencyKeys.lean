import Shea.Analysis.Operations

/-!
# One adapter call for each idempotency key

The key of a call is reserved by a plain `INSERT` before anything else happens, and no operation ever
deletes the row. So no key is used for two adapter calls, in whatever order the public operations are
called and wherever the process is killed.

The other side of this is that a key cannot be used again after a definite FAILURE either: the row the
failure left makes the reservation raise. The execution service lets such a request through, the
supervisor refuses it.
-/

set_option autoImplicit false

namespace Shea.Analysis

open Shea.Computation Shea.Model

/-! ## No second call -/

/-- The attempt of a call is committed as finalized with outcome FAILURE. -/
def FinalizedFailure (w : World) (call : AdapterCall) : Prop :=
  ∃ attempt, Table.lookup ExecutionAttempt.id w.committed.attempts call.attemptId = some attempt ∧
    attempt.state = .finalized ∧ attempt.outcome = some .failure

/-- INTERNAL: the ledger is safe at every single step of a history. -/
theorem safe_of_moment {host : Host} {a b : World} (h : Moment (operations host) {} a b) :
    Safe host (ledgerOf b) := by
  obtain ⟨⟨s, hs, hchain⟩, hstep⟩ := History.moment_of_sat (resting_empty host)
    (fun _ _ hp hw => hp.rests _ hw) (fun _ _ hw hc => hw.restart hc) h
  have ha : Safe host (ledgerOf a) := by
    clear hstep h
    induction hchain with
    | refl => exact hs.safe
    | tail _ hmove ih => exact Safe.moves hmove ih
  rcases hstep with rfl | hstep
  · exact ha
  · exact Safe.moves hstep ha

/-- Whenever an adapter is called under a key, every earlier call under that key was finalized with
outcome FAILURE; in fact there is no earlier call.
SOURCE: app/supervisor.py:131-315, 399-429, persistence/sqlite/app_idempotency_repository.py:50-67 -/
theorem adapter_called_once {host : Host} {a b : World} {call : AdapterCall} {key : String}
    (hmoment : Moment (operations host) {} a b) (hcall : callsOf b.log = callsOf a.log ++ [call])
    (hkey : call.key = some key) :
    (∀ earlier ∈ callsOf a.log, earlier.key = some key → FinalizedFailure a earlier) ∧
      ∀ earlier ∈ callsOf a.log, earlier.key ≠ some key := by
  have hnone : ∀ earlier ∈ callsOf a.log, earlier.key ≠ some key := by
    intro earlier hmem hsame
    have honce := (safe_of_moment hmoment).callsOnce
    rw [show (ledgerOf b).calls = callsOf a.log ++ [call] from hcall, List.filterMap_append] at honce
    have hold : key ∈ (callsOf a.log).filterMap AdapterCall.key :=
      List.mem_filterMap.mpr ⟨earlier, hmem, hsame⟩
    have hnew : key ∈ [call].filterMap AdapterCall.key := by simp [hkey]
    exact (List.disjoint_of_nodup_append honce) hold hnew
  exact ⟨fun earlier hmem hsame => absurd hsame (hnone earlier hmem), hnone⟩

/-- The call that takes the note. -/
def takeNote (w : World) : Proc Unit :=
  ((notesExecution timingOut).execute (.plain [] []) (firstTask w) noteRequest).void

/-- The adapter call of the first note. -/
theorem adapter_called_once_note :
    ∃ a b call, Moment (operations (.plain [] [])) {} a b ∧
      callsOf b.log = callsOf a.log ++ [call] ∧ call.key = some "751543666" ∧
      ∀ earlier ∈ callsOf a.log, earlier.key ≠ some "751543666" := by
  have hmoment : Moment (operations (.plain [] [])) {}
      ((takeNote authorizedFirst).cut 51 authorizedFirst)
      ((takeNote authorizedFirst).cut 52 authorizedFirst) :=
    Moment.step history_authorizedFirst (.execute _ _ _) 51
  have hcall : callsOf ((takeNote authorizedFirst).cut 52 authorizedFirst).log =
      callsOf ((takeNote authorizedFirst).cut 51 authorizedFirst).log ++
        [⟨plainId 25, plainId 26, some "751543666"⟩] := by
    decide +kernel
  exact ⟨_, _, _, hmoment, hcall, rfl, (adapter_called_once hmoment hcall rfl).2⟩

/-! ## A failed key stays used -/

/-- INTERNAL: the contract of a call is made for its task and its request.
SOURCE: execution/service.py:275-340 -/
theorem prepare_yields (service : ExecutionService) (host : Host) (task : Task)
    (request : ToolRequest) :
    (service.prepare host task request).Yields fun contract =>
      ∃ capabilities auth contractId, contract = service.contractOf host.py task request
        capabilities auth (generateKey host.py task.id request) contractId :=
  Program.yields_bind fun _ => Program.yields_bind fun _ => Program.yields_bind fun _ =>
    Program.yields_bind fun capabilities => Program.yields_bind fun _ =>
    Program.yields_bind fun auth => Program.yields_bind fun contractId =>
    ⟨capabilities, auth, contractId, rfl⟩

/-- INTERNAL: the contract carries the key of the request. -/
theorem idempotencyKey_contractOf (service : ExecutionService) (py : Stdlib) (task : Task)
    (request : ToolRequest) (capabilities : List String) (auth : Authorization)
    (key contractId : String) :
    ExecutionSupervisor.idempotencyKey py
      (service.contractOf py task request capabilities auth key contractId) = some key := rfl

/-- INTERNAL: a call that leaves the ledger alone calls no adapter. -/
theorem calls_of_serves {α : Type} {p : Proc α} (h : Serves ledgerPart p) {w : World}
    (hw : w.Idle) :
    callsOf (p.run w).2.log = callsOf w.log ∧
      ledgerPart (p.run w).2.committed = ledgerPart w.committed := by
  have hsat : p.Sat (fun _ _ => True) (fun _ t => callsOf t.log = callsOf w.log ∧
      ledgerPart t.working = ledgerPart w.committed ∧
      ledgerPart t.committed = ledgerPart w.committed) w := by
    refine h.steps.sat_of_inv (fun a b ha hab => ?_) ⟨rfl, congrArg ledgerPart hw.working, rfl⟩
    obtain ⟨hcalls, hworking, hcommitted⟩ := ha
    obtain ⟨hworking', hcommitted'⟩ := hab.keeps (hworking.trans hcommitted.symm)
    obtain ⟨events, hlog⟩ := hab.log
    refine ⟨trivial, ?_, hworking'.trans hworking, hcommitted'.trans hcommitted⟩
    rw [hlog, callsOf_published, hcalls]
  exact ⟨hsat.run.1, hsat.run.2.2⟩

/-- A key that has a row cannot be reserved again.
SOURCE: app/supervisor.py:399-429 -/
theorem supervisor_refuses_used_key (sup : ExecutionSupervisor) (host : Host)
    (contract : ExecutionContract) {w : World} (hw : Resting host w) {key : String}
    {row : IdempotencyRecord}
    (hkey : ExecutionSupervisor.idempotencyKey host.py contract = some key)
    (hrow : IdempotencyRepository.ofTables w.committed key = some row) :
    (∃ e, ((sup.execute host contract).run w).1 = .error e) ∧
      callsOf ((sup.execute host contract).run w).2.log = callsOf w.log := by
  have hnot : ¬ Accepts sup host contract w := by
    intro haccepts
    rw [haccepts.key key hkey] at hrow
    cases hrow
  have hcourse := (sat_execute sup host contract hw.idle hw.safe).run
  revert hcourse
  generalize (sup.execute host contract).run w = outcome
  obtain ⟨r, t⟩ := outcome
  rintro (⟨-, hend⟩ | ⟨haccepts, -⟩ | ⟨haccepts, -⟩)
  · obtain ⟨events, hlog⟩ := hend.log
    exact ⟨⟨_, rfl⟩, by rw [hlog, callsOf_published]⟩
  · exact absurd haccepts hnot
  · exact absurd haccepts hnot

/-- After an execution that both ledgers record as a definite FAILURE, the same request never
reaches an adapter again: whatever the gate, the authorization and the capabilities say, the call
raises, because the key cannot be reserved a second time.
SOURCE: execution/service.py:246-273, app/supervisor.py:399-429 -/
theorem failed_key_never_retried {host : Host} {w : World} (hw : History (operations host) {} w)
    (service : ExecutionService) (task : Task) (request : ToolRequest) {row : IdempotencyRecord}
    {record : ToolExecutionRecord}
    (hrow : IdempotencyRepository.ofTables w.committed (generateKey host.py task.id request) =
      some row) (_hfailed : row.state = .failed)
    (_hrecord : ToolExecutionRepository.latestForKey w.committed
      (generateKey host.py task.id request) = some record) (_hfailure : record.outcome = .failure) :
    (∃ e, ((service.execute host task request).run w).1 = .error e) ∧
      callsOf ((service.execute host task request).run w).2.log = callsOf w.log := by
  have hresting := resting_of_operations hw
  unfold ExecutionService.execute
  split
  · next hrunning =>
    have hserves := serves_prepare ofAppPlane_ledgerPart.outlying.toUnrelated service host task request
    obtain ⟨hcalls, hledger⟩ := calls_of_serves hserves hresting.idle
    have hprepared := (hserves.rests w hresting).run
    have hyields := prepare_yields service host task request
    unfold ExecutionService.carryOut
    rw [Program.run_bind]
    revert hcalls hledger hprepared
    cases hrun : (service.prepare host task request).run w with
    | mk r t =>
    cases r with
    | error e => exact fun hcalls _ _ => ⟨⟨e, rfl⟩, hcalls⟩
    | ok contract =>
      intro hcalls hledger hprepared
      obtain ⟨capabilities, auth, contractId, rfl⟩ :=
        hyields.of_run (s := w) (congrArg Prod.fst hrun)
      have hrow' : IdempotencyRepository.ofTables t.committed
          (generateKey host.py task.id request) = some row := by
        rw [← hrow]
        exact congrArg (fun part => Table.lookup IdempotencyRecord.key part.2.2 _) hledger
      obtain ⟨⟨e, herror⟩, hnone⟩ := supervisor_refuses_used_key (service.sup host) host _ hprepared
        (idempotencyKey_contractOf service host.py task request capabilities auth _ contractId) hrow'
      simp only [Program.run_bind]
      revert herror hnone
      generalize ((service.sup host).execute host _).run t = outcome
      obtain ⟨r', t'⟩ := outcome
      intro hnone herror
      obtain rfl : r' = .error e := herror
      exact ⟨⟨e, rfl⟩, hnone.trans hcalls⟩
  · exact ⟨⟨_, rfl⟩, rfl⟩

/-- The recovery service of the notes. -/
def notesRecovery : RecoveryService := { supervisor := { adapters := [] } }

/-- A compensator that has restored everything. -/
def restoring : Compensator :=
  fun _ _ => .ok { restored := true, method := "undo", explanation := "restored" }

/-- The state after the note could not be taken. -/
def failedFirst : World := ((takeNote authorizedFirst).run authorizedFirst).2

/-- Recovery of its task has begun. -/
def recoveringFirst : World :=
  ((notesRecovery.beginRecovery (.plain [] []) (firstTask failedFirst)).run failedFirst).2

/-- Everything is restored. -/
def stabilizingFirst : World :=
  ((notesRecovery.resolveRecovery (.plain [] []) (firstTask recoveringFirst) restoring).run
    recoveringFirst).2

/-- The task is ready once more. -/
def stabilizedFirst : World :=
  ((RecoveryService.stabilize (.plain [] []) (firstTask stabilizingFirst)).run stabilizingFirst).2

/-- It is authorized once more. -/
def reauthorizedFirst : World := authorizedNote (.plain [] []) stabilizedFirst

/-- INTERNAL: all of these are public operations. -/
theorem history_reauthorizedFirst : History (operations (.plain [] [])) {} reauthorizedFirst := by
  have hfailed : History (operations (.plain [] [])) {} failedFirst :=
    history_authorizedFirst.returned (Operation.execute (notesExecution timingOut) _ noteRequest)
  have hrecovering : History (operations (.plain [] [])) {} recoveringFirst :=
    hfailed.returned_void (Operation.beginRecovery [] {} {} (firstTask failedFirst))
  have hstabilizing : History (operations (.plain [] [])) {} stabilizingFirst :=
    hrecovering.returned_void (Operation.resolveRecovery notesRecovery _ restoring)
  have hstabilized : History (operations (.plain [] [])) {} stabilizedFirst :=
    hstabilizing.returned_void (Operation.stabilize (firstTask stabilizingFirst))
  exact hstabilized.returned_void (Operation.evaluateAndAuthorize {} (firstTask stabilizedFirst)
    { capabilities := ["data.read"] })

/-- INTERNAL: both ledgers hold the FAILURE of the first note. -/
theorem reauthorizedFirst_ledgers :
    (∃ row, IdempotencyRepository.ofTables reauthorizedFirst.committed
      (generateKey .plain (firstTask reauthorizedFirst).id noteRequest) = some row ∧
        row.state = .failed) ∧
    ∃ record, ToolExecutionRepository.latestForKey reauthorizedFirst.committed
      (generateKey .plain (firstTask reauthorizedFirst).id noteRequest) = some record ∧
        record.outcome = .failure := by
  have h : ((IdempotencyRepository.ofTables reauthorizedFirst.committed
      (generateKey .plain (firstTask reauthorizedFirst).id noteRequest)).map
        IdempotencyRecord.state) = some .failed ∧
      ((ToolExecutionRepository.latestForKey reauthorizedFirst.committed
      (generateKey .plain (firstTask reauthorizedFirst).id noteRequest)).map
        ToolExecutionRecord.outcome) = some .failure := by decide +kernel
  exact ⟨Option.map_eq_some_iff.mp h.1, Option.map_eq_some_iff.mp h.2⟩

/-- Both ledgers hold the FAILURE of the first note, its task is RUNNING again, the request passes
the gate, the fresh authorization and the capability check; and no adapter is called.
SOURCE: execution/service.py:92-104 -/
theorem failed_note_not_retried :
    ∃ w row record contract, History (operations (.plain [] [])) {} w ∧
      IdempotencyRepository.ofTables w.committed
        (generateKey .plain (firstTask w).id noteRequest) = some row ∧ row.state = .failed ∧
      ToolExecutionRepository.latestForKey w.committed
        (generateKey .plain (firstTask w).id noteRequest) = some record ∧
      record.outcome = .failure ∧ (firstTask w).state = .running ∧
      (((notesExecution timingOut).prepare (.plain [] []) (firstTask w) noteRequest).run w).1 =
        .ok contract ∧
      callsOf ((takeNote w).run w).2.log = callsOf w.log := by
  obtain ⟨⟨row, hrow, hfailed⟩, record, hrecord, hfailure⟩ := reauthorizedFirst_ledgers
  have h : (firstTask reauthorizedFirst).state = .running ∧
      (((notesExecution timingOut).prepare (.plain [] []) (firstTask reauthorizedFirst)
        noteRequest).run reauthorizedFirst).1.isOk = true ∧
      callsOf ((takeNote reauthorizedFirst).run reauthorizedFirst).2.log =
        callsOf reauthorizedFirst.log := by decide +kernel
  obtain ⟨hrunning, hprepared, hcalls⟩ := h
  cases hcontract : (((notesExecution timingOut).prepare (.plain [] [])
      (firstTask reauthorizedFirst) noteRequest).run reauthorizedFirst).1 with
  | error e =>
    rw [hcontract] at hprepared
    cases hprepared
  | ok contract =>
    exact ⟨reauthorizedFirst, row, record, contract, history_reauthorizedFirst, hrow, hfailed,
      hrecord, hfailure, hrunning, hcontract, hcalls⟩

/-- The same state as a case of the general result. -/
theorem failed_key_never_retried_note :
    callsOf (((notesExecution timingOut).execute (.plain [] []) (firstTask reauthorizedFirst)
      noteRequest).run reauthorizedFirst).2.log = callsOf reauthorizedFirst.log := by
  obtain ⟨⟨row, hrow, hfailed⟩, record, hrecord, hfailure⟩ := reauthorizedFirst_ledgers
  exact (failed_key_never_retried history_reauthorizedFirst (notesExecution timingOut)
    (firstTask reauthorizedFirst) noteRequest hrow hfailed hrecord hfailure).2

end Shea.Analysis
