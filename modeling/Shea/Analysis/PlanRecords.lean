import Shea.Analysis.RunnerCalls

/-!
# What the services record

Plans, their steps, executions and verifications are only ever written by the services that own them:
planning and the runner write plans, an execution adds one record when it returns and none when it
raises, a verification likewise. Every other call leaves the four tables alone.

The ids of the records are drawn in turn, so a new record never falls on an old one.
-/

set_option autoImplicit false

namespace Shea.Analysis

open Shea.Computation Shea.Model

/-- Plans and their steps, executions, verifications. -/
def corePart (t : Tables) :
    (List Plan × List PlanStep) × List ToolExecutionRecord × List VerificationRecord :=
  ((t.plans, t.planSteps), t.toolExecutions, t.verifications)

/-- INTERNAL: authorizing and recovering write none of these. -/
theorem beside_corePart : Beside corePart := by
  constructor
  · exact ⟨fun _ _ => rfl, fun _ _ => rfl⟩
  all_goals exact fun _ _ => rfl

/-- INTERNAL: nor does the supervisor. -/
theorem apart_corePart : Apart corePart :=
  ⟨fun _ _ => rfl, fun _ _ => rfl, fun _ _ => rfl, fun _ _ => rfl, fun _ _ => rfl⟩

/-! ## Calls that spare a part of the database -/

/-- From `w` to `t` the part is the same, nothing is left open, and ids were drawn at most. -/
structure Spared {γ : Type} (host : Host) (part : Tables → γ) (w t : World) : Prop where
  resting : Resting host t
  part : part t.committed = part w.committed
  nextId : w.nextId ≤ t.nextId

/-- A call that spares a part. -/
def Spares {α γ : Type} (host : Host) (part : Tables → γ) (p : Proc α) : Prop :=
  ∀ w, Resting host w → Spared host part w (p.run w).2

section Spares

variable {α β γ : Type} {host : Host} {part : Tables → γ} {w t : World}

/-- INTERNAL: sparing is transitive. -/
theorem Spared.trans {u : World} (h : Spared host part w t) (h' : Spared host part t u) :
    Spared host part w u :=
  ⟨h'.resting, h'.part.trans h.part, h.nextId.trans h'.nextId⟩

/-- INTERNAL: ids are drawn in turn. -/
theorem Step.nextId_le {l l' : Ledger} (h : Step host l l') : l.nextId ≤ l'.nextId := by
  cases h with
  | draw hn => exact hn
  | _ => exact le_rfl

/-- INTERNAL: identifiers are never given back. -/
theorem Rests.nextId {p : Proc α} (h : Rests host p) (hw : Resting host w) :
    w.nextId ≤ (p.run w).2.nextId := by
  have hkept := (h w hw).keep (I := fun t => w.nextId ≤ t.nextId) (fun a b hab ha => ?_) le_rfl
  · exact hkept.run.2
  · exact ha.trans (Step.nextId_le hab)

/-- INTERNAL: a call that rests and leaves the part alone. -/
theorem Rests.spares {p : Proc α} (h : Rests host p) (hpart : Leaves part p) :
    Spares host part p := by
  intro w hw
  exact ⟨(h w hw).run, (hpart.run w (congrArg part hw.idle.working)).2, h.nextId hw⟩

/-- INTERNAL: what serves both parts spares the one. -/
theorem Serves.spares {p : Proc α} (hledger : Serves ledgerPart p) (hpart : Serves part p) :
    Spares host part p :=
  hledger.rests.spares (hpart.steps.mono fun _ _ hab => hab.keeps)

/-- INTERNAL: dropping the result changes nothing. -/
theorem Spares.void {p : Proc α} (h : Spares host part p) : Spares host part p.void := by
  intro w hw
  rw [Program.run_void]
  exact h w hw

/-- INTERNAL: one program after another. -/
theorem Spares.bind {p : Proc α} {f : α → Proc β} (hp : Spares host part p)
    (hf : ∀ a, Spares host part (f a)) : Spares host part (p >>= f) := by
  intro w hw
  have h := hp w hw
  rw [Program.run_bind]
  revert h
  rcases p.run w with ⟨r, t⟩
  cases r with
  | ok a => exact fun h => h.trans (hf a t h.resting)
  | error e => exact fun h => h

/-- INTERNAL: such a call before another one. -/
theorem sat_spared_bind {p : Proc α} {f : α → Proc β} {Q : Except Err β → World → Prop}
    (hp : Spares host part p) (hw : Resting host w)
    (hok : ∀ a t, Spared host part w t → (f a).Sat (fun _ _ => True) Q t)
    (herror : ∀ e t, Spared host part w t → Q (.error e) t) :
    (p >>= f).Sat (fun _ _ => True) Q w := by
  rw [Program.sat_bind]
  refine Program.sat_of_run ?_
  have h := hp w hw
  revert h
  rcases p.run w with ⟨r, t⟩
  cases r with
  | ok a => exact hok a t
  | error e => exact herror e t

end Spares

/-! ## The services -/

section Services

variable {host : Host}

/-- INTERNAL: the ledger has nothing to do with the core. -/
theorem outlying_ledgerPart : Outlying ledgerPart := ofAppPlane_ledgerPart.outlying

/-- An authorization spares the plans and the records.
SOURCE: decision/service.py:118-245 -/
theorem spares_evaluateAndAuthorize (service : DecisionService) (task : Task)
    (request : AuthorizationRequest) :
    Spares host corePart (service.evaluateAndAuthorize host task request) :=
  (serves_evaluateAndAuthorize outlying_ledgerPart.toBeside service host task request).spares
    (serves_evaluateAndAuthorize beside_corePart service host task request)

/-- So does a scan.
SOURCE: security/service.py:120-158 -/
theorem spares_scanOutput (service : SecurityService) (task : Task) (toolName : String)
    (data : Value) : Spares host corePart (service.scanOutput host task toolName data) :=
  (serves_scanOutput outlying_ledgerPart.toUnrelated service host task toolName data).spares
    (serves_scanOutput beside_corePart.toUnrelated service host task toolName data)

/-- INTERNAL: a call of the supervisor. -/
theorem spares_supervise (sup : ExecutionSupervisor) (contract : ExecutionContract) :
    Spares host corePart (sup.execute host contract) :=
  (rests_supervise sup contract).spares
    (leaves_execute apart_corePart sup host contract (.inr fun _ _ => ⟨rfl, rfl⟩))

/-- INTERNAL: everything an execution does before it records. -/
theorem spares_prepare (service : ExecutionService) (task : Task) (request : ToolRequest) :
    Spares host corePart (service.prepare host task request) :=
  (serves_prepare outlying_ledgerPart.toUnrelated service host task request).spares
    (serves_prepare beside_corePart.toUnrelated service host task request)

/-- INTERNAL: screening a response spares the core. -/
theorem spares_screen (task : Task) (request : ToolRequest) (response : ToolResponse)
    (scan : InjectionScanResult) :
    Spares host corePart (ExecutionService.screen host task request response scan) := by
  have hserves : ∀ {γ : Type} {part : Tables → γ}, Unrelated part →
      Serves part (ExecutionService.screen host task request response scan) := by
    intro γ part hpart
    unfold ExecutionService.screen
    split
    · exact .bind (serves_audit hpart host _) fun _ => .pure _
    · exact .pure _
  exact (hserves outlying_ledgerPart.toUnrelated).spares (hserves beside_corePart.toUnrelated)

/-- The ids of the stored executions were drawn. -/
def Numbered (host : Host) (w : World) : Prop :=
  ∀ record ∈ w.committed.toolExecutions, ∃ n < w.nextId, record.id = host.newId n

/-- INTERNAL: plans stay numbered through what spares the core. -/
theorem Numbered.spared {w t : World} (h : Numbered host w) (hs : Spared host corePart w t) :
    Numbered host t := by
  obtain ⟨-, hrecords⟩ := Prod.mk.inj hs.part
  obtain ⟨hexecutions, -⟩ := Prod.mk.inj hrecords
  intro record hrecord
  rw [hexecutions] at hrecord
  obtain ⟨n, hn, hid⟩ := h record hrecord
  exact ⟨n, hn.trans_le hs.nextId, hid⟩

/-- What an execution adds to the records. -/
def ExecutionAdded (w t : World) (task : Task) (request : ToolRequest) :
    Except Err ExecutionOutcomeRecord → Prop
  | .ok result => ∃ record, t.committed.toolExecutions = w.committed.toolExecutions ++ [record] ∧
      record.taskId = task.id ∧ record.tool = request.tool ∧ record.action = request.action ∧
      record.outcome = result.outcome
  | .error _ => t.committed.toolExecutions = w.committed.toolExecutions

/-- The tables of the core but the executions. -/
def unexecutedPart (t : Tables) : (List Plan × List PlanStep) × List VerificationRecord :=
  ((t.plans, t.planSteps), t.verifications)

/-- The record of an execution is new, and everything else is as it was. -/
structure ExecutionKept (host : Host) (w t : World) (task : Task) (request : ToolRequest)
    (r : Except Err ExecutionOutcomeRecord) : Prop where
  numbered : Numbered host t
  part : unexecutedPart t.committed = unexecutedPart w.committed
  added : ExecutionAdded w t task request r

/-- INTERNAL: nothing was recorded. -/
theorem ExecutionKept.of_spared {w t : World} {task : Task} {request : ToolRequest} (e : Err)
    (hnum : Numbered host w) (h : Spared host corePart w t) :
    ExecutionKept host w t task request (.error e) := by
  obtain ⟨hplans, hrecords⟩ := Prod.mk.inj h.part
  obtain ⟨hexecutions, hverifications⟩ := Prod.mk.inj hrecords
  exact ⟨hnum.spared h, by rw [unexecutedPart, unexecutedPart, hplans, hverifications], hexecutions⟩

/-- INTERNAL: an execution keeps what was spared before it. -/
theorem ExecutionKept.after {w v t : World} {task : Task} {request : ToolRequest}
    {r : Except Err ExecutionOutcomeRecord} (h : Spared host corePart w v)
    (hkept : ExecutionKept host v t task request r) : ExecutionKept host w t task request r := by
  obtain ⟨hplans, hrecords⟩ := Prod.mk.inj h.part
  obtain ⟨hexecutions, hverifications⟩ := Prod.mk.inj hrecords
  refine ⟨hkept.numbered, hkept.part.trans ?_, ?_⟩
  · rw [unexecutedPart, unexecutedPart, hplans, hverifications]
  · have hadded := hkept.added
    unfold ExecutionAdded at hadded ⊢
    rw [hexecutions] at hadded
    exact hadded

/-- INTERNAL: inside a block, too, ids are drawn in turn. -/
theorem Within.nextId_le {α γ : Type} {part : Tables → γ} {p : Proc α} (h : Within part p) (w : World) :
    w.nextId ≤ (p.run w).2.nextId := by
  have hdrawn : p.Guarantee fun a b : World => a.nextId ≤ b.nextId :=
    h.steps.mono fun _ _ hab => hab.nextId
  exact (hdrawn.sat (fun _ => le_rfl) (fun _ _ _ => le_trans) w).run

/-- INTERNAL: a record whose number is the next one. -/
theorem numbered_append {w t : World} {record : ToolExecutionRecord} (hnum : Numbered host w)
    (hid : record.id = host.newId w.nextId) (hnext : w.nextId < t.nextId)
    (hadded : t.committed.toolExecutions = w.committed.toolExecutions ++ [record]) :
    Numbered host t := by
  intro row hrow
  rw [hadded] at hrow
  rcases List.mem_append.mp hrow with hrow | hrow
  · obtain ⟨n, hn, hrowId⟩ := hnum row hrow
    exact ⟨n, hn.trans hnext, hrowId⟩
  · exact ⟨w.nextId, hnext, List.mem_singleton.mp hrow ▸ hid⟩

/-- INTERNAL: an upsert of that record appends it. -/
theorem upsert_numbered {w : World} {record : ToolExecutionRecord} (hnum : Numbered host w)
    (hid : record.id = host.newId w.nextId) :
    Table.upsert ToolExecutionRecord.id ToolExecutionRepository.merge record
      w.committed.toolExecutions = w.committed.toolExecutions ++ [record] := by
  refine Table.upsert_of_new fun row hrow heq => ?_
  obtain ⟨n, hn, hrowId⟩ := hnum row hrow
  have hsame := host.newId_injective (hrowId.symm.trans (heq.trans hid))
  omega

/-- INTERNAL: the block that records an execution.
SOURCE: execution/service.py:418-472 -/
theorem kept_writeRecord {task : Task} {request : ToolRequest} {key : String}
    {supervision : SupervisionResult} {outcome : ExecutionOutcome} {response : ToolResponse}
    {w t : World} {r : Except Err Task} (hw : w.Idle) (hnum : Numbered host w)
    (h : (withUow (ExecutionService.writeRecord host task request key supervision outcome
      response)).run w = (r, t)) :
    ExecutionKept host w t task request
      (r.map fun moved => { response := response, outcome := outcome, task := moved }) := by
  have hnested := nested_writeRecord host task request key supervision outcome response
  have hrest : ∀ recordId, Within ledgerPart (do
      ToolExecutionRepository.save host.py
        (ExecutionService.recordOf task request outcome response key recordId)
      audit host (ExecutionService.recordEntry task request outcome response supervision)
      ExecutionService.completed host task request outcome response.data
      ExecutionService.consume host task outcome
      Orchestrator.advance host task.id (advanceEventByOutcome outcome)) := by
    have hledger := outlying_ledgerPart.toUnrelated
    have hexecutions : ∀ t rows, ledgerPart { t with toolExecutions := rows } = ledgerPart t :=
      fun _ _ => rfl
    exact fun recordId => .bind (Serves.writeChecked _ _ fun t => hexecutions t _).toWithin fun _ =>
      .bind (serves_audit hledger host _).toWithin fun _ =>
      .bind (Serves.emit host _ _ _ _).toWithin fun _ =>
      .bind (serves_consume host task outcome fun _ _ => rfl).toWithin fun _ =>
      (serves_advance hledger host _ _).toWithin
  cases r with
  | error e =>
    obtain ⟨u, hquiet, rfl⟩ := run_withUow_error hnested.inner hw h
    have hsame : u.rollback.committed = w.committed := hquiet.committed
    refine ⟨fun row hrow => ?_, congrArg unexecutedPart hsame, congrArg Tables.toolExecutions hsame⟩
    rw [hsame] at hrow
    obtain ⟨n, hn, hid⟩ := hnum row hrow
    exact ⟨n, hn.trans_le hquiet.nextId, hid⟩
  | ok moved =>
    obtain ⟨u, hbody, rfl⟩ := run_withUow_ok hnested.inner hw h
    obtain ⟨-, rows, usedAt, hwritten⟩ := written_writeRecord (Nat.succ_pos _) hbody
    have hbefore : w.enter.working = w.committed := hw.working
    let record := ToolExecutionRepository.stored host.py
      (ExecutionService.recordOf task request outcome response key (host.newId w.nextId))
    have hadded : u.commit.committed.toolExecutions = w.committed.toolExecutions ++ [record] := by
      have htable := congrArg Tables.toolExecutions hwritten
      rw [hbefore] at htable
      exact htable.trans (upsert_numbered hnum rfl)
    have hnext : w.nextId < u.commit.nextId := by
      obtain ⟨recordId, v, hnew, hbody⟩ := Program.run_bind_ok hbody
      obtain ⟨-, rfl⟩ := Prod.mk.inj hnew
      have hle := (hrest recordId).nextId_le { w.enter with nextId := w.enter.nextId + 1 }
      rw [hbody] at hle
      exact hle
    refine ⟨numbered_append hnum rfl hnext hadded, ?_, record, hadded, rfl, rfl, rfl, rfl⟩
    have hpart := congrArg unexecutedPart hwritten
    rw [hbefore] at hpart
    exact hpart

/-- INTERNAL: what follows the supervisor's answer.
SOURCE: execution/service.py:342-472 -/
theorem kept_settle (service : ExecutionService) {task : Task} {request : ToolRequest}
    (supervision : SupervisionResult) {w : World} (hw : Resting host w) (hnum : Numbered host w) :
    (service.settle host task request supervision).Sat (fun _ _ => True)
      (fun r t => ExecutionKept host w t task request r) w := by
  have hpure : ∀ x : Except Err ExecutionOutcome, Spares host corePart (Program.ofExcept x) :=
    fun x => (Serves.ofExcept x).spares (.ofExcept x)
  refine sat_spared_bind (hpure _) hw (fun outcome t₁ h₁ => ?_) fun e t h => .of_spared e hnum h
  refine sat_spared_bind (spares_scanOutput service.security task _ _) h₁.resting
    (fun scan t₂ h₂ => ?_) fun e t h => .of_spared e hnum (h₁.trans h)
  have hw₂ := h₁.trans h₂
  refine sat_spared_bind (spares_screen task request _ scan) h₂.resting (fun response t₃ h₃ => ?_)
    fun e t h => .of_spared e hnum (hw₂.trans h)
  have hw₃ := hw₂.trans h₃
  rw [Program.sat_bind]
  refine Program.sat_of_run ?_
  generalize hrun : (withUow (ExecutionService.writeRecord host task request
    (generateKey host.py task.id request) supervision outcome response)).run t₃ = out
  obtain ⟨r, t⟩ := out
  have hkept := (kept_writeRecord h₃.resting.idle (hnum.spared hw₃) hrun).after hw₃
  cases r with
  | ok moved => exact hkept
  | error e => exact hkept

/-- An execution that returns has added its record, and one that raises has not.
SOURCE: execution/service.py:229-481 -/
theorem kept_execute {service : ExecutionService} {task : Task} {request : ToolRequest} {w t : World}
    {r : Except Err ExecutionOutcomeRecord} (hw : Resting host w) (hnum : Numbered host w)
    (h : (service.execute host task request).run w = (r, t)) :
    Resting host t ∧ ExecutionKept host w t task request r := by
  have hrests := (rests_execute service task request w hw).run
  have hsat : (service.execute host task request).Sat (fun _ _ => True)
      (fun r t => ExecutionKept host w t task request r) w := by
    unfold ExecutionService.execute
    split
    case isFalse =>
      exact .of_spared _ hnum ⟨hw, rfl, le_rfl⟩
    unfold ExecutionService.carryOut
    refine sat_spared_bind (spares_prepare service task request) hw (fun contract t₁ h₁ => ?_)
      fun e t h => .of_spared e hnum h
    refine sat_spared_bind (spares_supervise _ contract) h₁.resting (fun supervision t₂ h₂ => ?_)
      fun e t h => .of_spared e hnum (h₁.trans h)
    have hw₂ := h₁.trans h₂
    exact (kept_settle service supervision h₂.resting (hnum.spared hw₂)).post
      fun r t hkept => hkept.after hw₂
  have hrun := hsat.run
  rw [h] at hrests hrun
  exact ⟨hrests, hrun⟩

/-- The tables of the core but the verifications. -/
def unverifiedPart (t : Tables) : (List Plan × List PlanStep) × List ToolExecutionRecord :=
  ((t.plans, t.planSteps), t.toolExecutions)

/-- What a verification adds. -/
def VerificationAdded (w t : World) (task : Task) : Except Err VerificationResult → Prop
  | .ok result => t.committed.verifications = w.committed.verifications ++ [result.verification] ∧
      result.verification.taskId = task.id
  | .error _ => t.committed.verifications = w.committed.verifications

/-- INTERNAL: the rest of a verification. -/
theorem spares_verify (service : VerificationService) (task : Task) (moreSteps : Bool) :
    Spares host unverifiedPart (service.verify host task moreSteps) :=
  (serves_verify outlying_ledgerPart.toUnrelated (fun _ _ => rfl) service host task moreSteps).spares
    (serves_verify ⟨fun _ _ => rfl, fun _ _ => rfl⟩ (fun _ _ => rfl) service host task moreSteps)

/-- A verification that returns has added its record, and one that raises has not.
SOURCE: verification/service.py:82-150 -/
theorem added_verify {service : VerificationService} {task : Task} {moreSteps : Bool} {w t : World}
    {r : Except Err VerificationResult} (hw : Resting host w)
    (h : (service.verify host task moreSteps).run w = (r, t)) :
    Spared host unverifiedPart w t ∧ VerificationAdded w t task r := by
  have hspared := spares_verify service task moreSteps w hw
  rw [h] at hspared
  refine ⟨hspared, ?_⟩
  have hyields : (service.verify host task moreSteps).Yields
      fun result => result.verification.taskId = task.id := by
    unfold VerificationService.verify
    split
    case isFalse => trivial
    refine Program.yields_bind fun found => ?_
    cases found with
    | none => trivial
    | some record =>
      refine Program.yields_bind fun instant => Program.yields_bind fun outcome =>
        Program.yields_bind fun recordId => Program.yields_bind fun advanced => ?_
      exact rfl
  rcases allOrNone_verify service host task moreSteps w hw.idle (fun _ => none) 0 with
    ⟨result, u, hrun, outcome, hrecorded⟩ | ⟨e, u, hrun, hsame⟩
  · rw [Program.faulty_none, h] at hrun
    obtain ⟨rfl, rfl⟩ := Prod.mk.inj hrun
    obtain ⟨-, rows, -, hafter⟩ := hrecorded
    refine ⟨?_, hyields.of_run (congrArg Prod.fst h)⟩
    rw [hafter]
    rfl
  · rw [Program.faulty_none, h] at hrun
    obtain ⟨rfl, rfl⟩ := Prod.mk.inj hrun
    exact congrArg Tables.verifications hsame

end Services

/-! ## The public operations -/

/-- Nothing is taken back: executions and verifications are only added. -/
structure Grown (host : Host) (w t : World) : Prop where
  resting : Resting host t
  numbered : Numbered host t
  executions : w.committed.toolExecutions <+: t.committed.toolExecutions
  verifications : w.committed.verifications <+: t.committed.verifications

/-- Executions and verifications. -/
def recordPart (t : Tables) : List ToolExecutionRecord × List VerificationRecord :=
  (t.toolExecutions, t.verifications)

/-- Plans and their steps. -/
def planPart (t : Tables) : List Plan × List PlanStep := (t.plans, t.planSteps)

section Operations

variable {host : Host} {w t : World}

/-- INTERNAL: a part of what is spared is spared. -/
theorem Spared.map {β γ : Type} {part : Tables → γ} (h : Spared host part w t) (f : γ → β) :
    Spared host (fun tables => f (part tables)) w t :=
  ⟨h.resting, congrArg f h.part, h.nextId⟩

/-- INTERNAL: what spares the records lets them grow by none. -/
theorem Grown.of_spared (hnum : Numbered host w) (h : Spared host recordPart w t) :
    Grown host w t := by
  obtain ⟨hexecutions, hverifications⟩ := Prod.mk.inj h.part
  refine ⟨h.resting, fun record hrecord => ?_, ?_, ?_⟩
  · rw [hexecutions] at hrecord
    obtain ⟨n, hn, hid⟩ := hnum record hrecord
    exact ⟨n, hn.trans_le h.nextId, hid⟩
  · exact ⟨[], by rw [List.append_nil, hexecutions]⟩
  · exact ⟨[], by rw [List.append_nil, hverifications]⟩

/-- INTERNAL: growing is transitive. -/
theorem Grown.trans {u : World} (h : Grown host w t) (h' : Grown host t u) : Grown host w u :=
  ⟨h'.resting, h'.numbered, h.executions.trans h'.executions, h.verifications.trans h'.verifications⟩

/-- INTERNAL: an execution adds at most. -/
theorem ExecutionKept.grown {task : Task} {request : ToolRequest}
    {r : Except Err ExecutionOutcomeRecord} (ht : Resting host t)
    (h : ExecutionKept host w t task request r) : Grown host w t := by
  obtain ⟨-, hverifications⟩ := Prod.mk.inj h.part
  refine ⟨ht, h.numbered, ?_, ⟨[], by rw [List.append_nil, hverifications]⟩⟩
  have hadded := h.added
  cases r with
  | ok result =>
    obtain ⟨record, htable, -⟩ := hadded
    exact ⟨[record], htable.symm⟩
  | error e => exact ⟨[], by rw [List.append_nil, hadded]⟩

/-- INTERNAL: so does a verification. -/
theorem VerificationAdded.grown {task : Task} {r : Except Err VerificationResult}
    (hnum : Numbered host w) (hs : Spared host unverifiedPart w t)
    (h : VerificationAdded w t task r) : Grown host w t := by
  obtain ⟨-, hexecutions⟩ := Prod.mk.inj hs.part
  refine ⟨hs.resting, fun record hrecord => ?_, ⟨[], by rw [List.append_nil, hexecutions]⟩, ?_⟩
  · rw [hexecutions] at hrecord
    obtain ⟨n, hn, hid⟩ := hnum record hrecord
    exact ⟨n, hn.trans_le hs.nextId, hid⟩
  · cases r with
    | ok result => exact ⟨[result.verification], h.1.symm⟩
    | error e => exact ⟨[], by rw [List.append_nil, h]⟩

/-- INTERNAL: the app plane is apart from both parts. -/
theorem outlying_recordPart : Outlying recordPart := by
  have hunrelated : Unrelated recordPart := ⟨fun _ _ => rfl, fun _ _ => rfl⟩
  have hbeside : Beside recordPart :=
    ⟨hunrelated, fun _ _ => rfl, fun _ _ => rfl, fun _ _ => rfl, fun _ _ => rfl⟩
  have hunasked : Unasked recordPart := ⟨hbeside, fun _ _ => rfl, fun _ _ => rfl, fun _ _ => rfl⟩
  exact ⟨hunasked, fun _ _ => rfl, fun _ _ => rfl⟩

/-- INTERNAL: stored plans have nothing to do with requests and what is made of them. -/
theorem unasked_planPart : Unasked planPart := by
  have hunrelated : Unrelated planPart := ⟨fun _ _ => rfl, fun _ _ => rfl⟩
  have hbeside : Beside planPart :=
    ⟨hunrelated, fun _ _ => rfl, fun _ _ => rfl, fun _ _ => rfl, fun _ _ => rfl⟩
  exact ⟨hbeside, fun _ _ => rfl, fun _ _ => rfl, fun _ _ => rfl⟩

/-- INTERNAL: an operation is one of the four that write plans, grants or records, or it leaves alone a
part that requests, recovery attempts and the app plane are not in. -/
theorem Operation.leaves_or {γ : Type} {part : Tables → γ} {p : Proc Unit} (h : Operation host p)
    (hpart : Unsought part)
    (hattempts : ∀ t rows, part { t with recoveryAttempts := rows } = part t) (hapart : Apart part)
    (hkeys : ∀ r t, part (IdempotencyRepository.put r t) = part t ∧
      part (IdempotencyRepository.add r t) = part t) :
    (Rests host p ∧ Leaves part p) ∨
    (∃ (service : PlanningService) (given : PlanningRequest),
      p = (service.createAndPlan host given).void) ∨
    (∃ (service : DecisionService) (task : Task) (request : AuthorizationRequest),
      p = (service.evaluateAndAuthorize host task request).void) ∨
    (∃ (service : ExecutionService) (task : Task) (request : ToolRequest),
      p = (service.execute host task request).void) ∨
    ∃ (service : VerificationService) (task : Task) (moreSteps : Bool),
      p = (service.verify host task moreSteps).void := by
  have hledger := outlying_ledgerPart.toUnplanned
  have hunrelated := hpart.toUnrelated
  have hledgerAttempts : ∀ t rows, ledgerPart { t with recoveryAttempts := rows } = ledgerPart t :=
    fun _ _ => rfl
  have hsweep : ∀ adapters planner retry, Rests host (RecoveryService.reconcileAppPlane
      { supervisor := { adapters := adapters }, planner := planner, retry := retry } host) ∧
      Leaves part (RecoveryService.reconcileAppPlane
        { supervisor := { adapters := adapters }, planner := planner, retry := retry } host) := by
    intro adapters planner retry
    refine ⟨rests_reconcileAppPlane adapters planner retry, ?_⟩
    refine .bind (leaves_reconcileStuck hapart _ host) fun results => .bind ?_ fun _ => .pure _
    exact (Serves.withUow (serves_auditReconciled hunrelated host results).toWithin).leaves
  have hdone : ∀ {α : Type} {q : Proc α}, Rests host q → Leaves part q →
      Rests host q.void ∧ Leaves part q.void :=
    fun hrests hleaves => ⟨hrests.void, .bind hleaves fun _ => .pure _⟩
  have hserves : ∀ {α : Type} {q : Proc α}, Serves ledgerPart q → Serves part q →
      Rests host q.void ∧ Leaves part q.void := fun hl hq => hdone hl.rests hq.leaves
  cases h with
  | createTask =>
    exact .inl (hserves (serves_createTask hledger.toUnrelated host ..)
      (serves_createTask hunrelated host ..))
  | advance =>
    exact .inl (hserves (serves_advance hledger.toUnrelated host ..)
      (serves_advance hunrelated host ..))
  | attachPlan =>
    exact .inl (hserves (serves_attachPlan hledger.toUnrelated host ..)
      (serves_attachPlan hunrelated host ..))
  | cancelTask =>
    exact .inl (hserves (serves_cancelTask hledger.toUnrelated host ..)
      (serves_cancelTask hunrelated host ..))
  | openRequest =>
    exact .inl (hserves (serves_openRequest hledger.toUnsought host ..)
      (serves_openRequest hpart host ..))
  | understand =>
    exact .inl (hserves (serves_understand hledger.toUnsought _ host ..)
      (serves_understand hpart _ host ..))
  | createAndPlan service given => exact .inr (.inl ⟨service, given, rfl⟩)
  | answerConversationally =>
    exact .inl (hserves (serves_answerConversationally _ _) (serves_answerConversationally _ _))
  | evaluateAndAuthorize service task request =>
    exact .inr (.inr (.inl ⟨service, task, request, rfl⟩))
  | enforce =>
    exact .inl (hserves (serves_enforce hledger.toUnrelated _ host ..)
      (serves_enforce hunrelated _ host ..))
  | scanOutput =>
    exact .inl (hserves (serves_scanOutput hledger.toUnrelated _ host ..)
      (serves_scanOutput hunrelated _ host ..))
  | execute service task request => exact .inr (.inr (.inr (.inl ⟨service, task, request, rfl⟩)))
  | verify service task moreSteps => exact .inr (.inr (.inr (.inr ⟨service, task, moreSteps, rfl⟩)))
  | planRecovery =>
    exact .inl (hserves (serves_planRecovery hledger.toUnrelated _ host _)
      (serves_planRecovery hunrelated _ host _))
  | beginRecovery adapters planner retry task =>
    obtain ⟨hrests, hleaves⟩ := hsweep adapters planner retry
    refine .inl (hdone (.bind hrests fun _ => .bind (serves_getTask _).rests fun task => ?_)
      (.bind hleaves fun _ => .bind (serves_getTask _).leaves fun task => ?_))
    · split
      · exact (serves_recoverFailed hledger.toUnrelated hledgerAttempts _ host task).rests
      · exact (Serves.throw _).rests
    · split
      · exact (serves_recoverFailed hunrelated hattempts _ host task).leaves
      · exact .throw _
  | resolveRecovery =>
    exact .inl (hserves (serves_resolveRecovery hledger.toUnrelated hledgerAttempts _ host ..)
      (serves_resolveRecovery hunrelated hattempts _ host ..))
  | stabilize =>
    exact .inl (hserves (serves_stabilize hledger.toUnrelated host _)
      (serves_stabilize hunrelated host _))
  | resolveBlocked =>
    exact .inl (hserves (serves_resolveBlocked hledger.toUnrelated _ host ..)
      (serves_resolveBlocked hunrelated _ host ..))
  | reconcileStrandedTasks adapters planner retry =>
    obtain ⟨hrests, hleaves⟩ := hsweep adapters planner retry
    have hlist : ∀ {β : Type} {other : Tables → β}, Serves other TaskRepository.listTransientTasks :=
      .query _
    exact .inl (hdone (.bind hrests fun _ => .bind hlist.rests fun tasks =>
        (serves_settleAll hledger.toUnrelated host tasks).rests)
      (.bind hleaves fun _ => .bind hlist.leaves fun tasks =>
        (serves_settleAll hunrelated host tasks).leaves))
  | supervise h =>
    refine .inl ⟨fun w hw => h.sat hw, ?_⟩
    cases h with
    | execute adapters contract =>
      exact .bind (leaves_execute hapart _ host contract (.inr hkeys)) fun _ => .pure _
    | reconcileReceipt adapters receiptId =>
      exact .bind (leaves_reconcileReceipt hapart _ host receiptId) fun _ => .pure _
    | reconcileStuck adapters =>
      exact .bind (leaves_reconcileStuck hapart _ host) fun _ => .pure _

/-- INTERNAL: what an operation does to a part that requests, authorizations and the app plane do not
touch, given what the three operations do that write the core. -/
theorem Operation.spares {γ : Type} {part : Tables → γ} {p : Proc Unit} (h : Operation host p)
    (hpart : Unasked part) (hapart : Apart part)
    (hkeys : ∀ r t, part (IdempotencyRepository.put r t) = part t ∧
      part (IdempotencyRepository.add r t) = part t)
    {Q : World → World → Prop} (hspared : ∀ w t, Spared host part w t → Numbered host w → Q w t)
    (hcreate : ∀ (service : PlanningService) given w, Resting host w → Numbered host w →
      p = (service.createAndPlan host given).void → Q w ((service.createAndPlan host given).run w).2)
    (hexecute : ∀ (service : ExecutionService) task request w, Resting host w → Numbered host w →
      Q w ((service.execute host task request).run w).2)
    (hverify : ∀ (service : VerificationService) task moreSteps w, Resting host w →
      Numbered host w → Q w ((service.verify host task moreSteps).run w).2)
    (hw : Resting host w) (hnum : Numbered host w) : Q w (p.run w).2 := by
  rcases h.leaves_or hpart.toUnsought hpart.recoveryAttempts hapart hkeys with ⟨hrests, hleaves⟩ |
    ⟨service, given, rfl⟩ | ⟨service, task, request, rfl⟩ | ⟨service, task, request, rfl⟩ |
    ⟨service, task, moreSteps, rfl⟩
  · exact hspared _ _ (hrests.spares hleaves w hw) hnum
  · rw [Program.run_void]
    exact hcreate service given w hw hnum rfl
  · rw [Program.run_void]
    exact hspared _ _ ((serves_evaluateAndAuthorize outlying_ledgerPart.toBeside service host task
      request).spares (serves_evaluateAndAuthorize hpart.toBeside service host task request) w hw) hnum
  · rw [Program.run_void]
    exact hexecute service task request w hw hnum
  · rw [Program.run_void]
    exact hverify service task moreSteps w hw hnum

/-- No public operation takes an execution or a verification back. -/
theorem Operation.grown {p : Proc Unit} (h : Operation host p) (hw : Resting host w)
    (hnum : Numbered host w) : Grown host w (p.run w).2 := by
  refine h.spares outlying_recordPart.toUnasked
    ⟨fun _ _ => rfl, fun _ _ => rfl, fun _ _ => rfl, fun _ _ => rfl, fun _ _ => rfl⟩
    (fun _ _ => ⟨rfl, rfl⟩) (fun w t hs hnum => .of_spared hnum hs) ?_ ?_ ?_ hw hnum
  · intro service given w hw hnum _
    exact .of_spared hnum ((serves_createAndPlan outlying_ledgerPart.toUnplanned service host given).spares
      (serves_createAndPlan outlying_recordPart.toUnplanned service host given) w hw)
  · intro service task request w hw hnum
    obtain ⟨ht, hkept⟩ := kept_execute hw hnum rfl
    exact hkept.grown ht
  · intro service task moreSteps w hw hnum
    obtain ⟨hs, hadded⟩ := added_verify hw rfl
    exact hadded.grown hnum hs

/-- Only planning and the runner write plans. -/
theorem Operation.spares_plans {p : Proc Unit} (h : Operation host p)
    (hother : ∀ (service : PlanningService) given, p ≠ (service.createAndPlan host given).void)
    (hw : Resting host w) (hnum : Numbered host w) : planPart (p.run w).2.committed =
      planPart w.committed := by
  refine h.spares unasked_planPart
    ⟨fun _ _ => rfl, fun _ _ => rfl, fun _ _ => rfl, fun _ _ => rfl, fun _ _ => rfl⟩
    (fun _ _ => ⟨rfl, rfl⟩) (Q := fun w t => planPart t.committed = planPart w.committed)
    (fun w t hs _ => hs.part) ?_ ?_ ?_ hw hnum
  · intro service given w hw hnum heq
    exact absurd heq (hother service given)
  · intro service task request w hw hnum
    obtain ⟨ht, hkept⟩ := kept_execute hw hnum rfl
    exact (Prod.mk.inj hkept.part).1
  · intro service task moreSteps w hw hnum
    obtain ⟨hs, hadded⟩ := added_verify hw rfl
    exact (Prod.mk.inj hs.part).1

end Operations

end Shea.Analysis
