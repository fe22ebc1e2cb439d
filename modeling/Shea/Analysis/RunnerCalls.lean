import Shea.Analysis.Reservation
import Shea.Analysis.Operations
import Shea.Analysis.Atomicity
import Shea.Analysis.RecoveryStart

/-!
# What the runner may expect of the services

The state of one task as the services move it. Each service writes the task in one block with its
other rows, so a call that returns has moved it and a call that raises has not, with one exception: a
violation of the security rules moves the task to SECURITY_HALT and raises.

`TaskCalls` collects this for the four services of a plan runner, and `taskCalls_ofServices` is the
proof for the services of the runtime. Whatever else the services do is left open.
-/

set_option autoImplicit false

namespace Shea.Analysis

open Shea.Computation Shea.Model

/-! ## Calls and the states of tasks -/

/-- A call that starts with no transaction open leaves none open. -/
def Closes {α : Type} (p : Proc α) : Prop := ∀ w : World, w.Idle → (p.run w).2.Idle

namespace Closes

variable {α β : Type}

/-- INTERNAL: a value that is returned. -/
theorem pure (a : α) : Closes (Pure.pure a : Proc α) := fun _ h => h

/-- INTERNAL: an error that is raised. -/
theorem throw (e : Err) : Closes (MonadExcept.throw e : Proc α) := fun _ h => h

/-- INTERNAL: a result that is passed on. -/
theorem ofExcept (x : Except Err α) : Closes (Program.ofExcept x : Proc α) :=
  fun _ h => by cases x <;> exact h

/-- INTERNAL: one program after the other. -/
theorem bind {p : Proc α} {f : α → Proc β} (hp : Closes p) (hf : ∀ a, Closes (f a)) :
    Closes (p >>= f) := by
  intro w hw
  have h := hp w hw
  rw [Program.run_bind]
  revert h
  rcases p.run w with ⟨r, t⟩
  cases r with
  | ok a => exact hf a t
  | error e => exact fun h => h

/-- INTERNAL: a program whose errors are results. -/
theorem attempt {p : Proc α} (hp : Closes p) : Closes p.attempt := by
  intro w hw
  rw [Program.run_attempt]
  exact hp w hw

/-- INTERNAL: a handler. -/
theorem tryCatch {p : Proc α} {h : Err → Proc α} (hp : Closes p) (hh : ∀ e, Closes (h e)) :
    Closes (MonadExcept.tryCatch p h) := by
  intro w hw
  have hidle := hp w hw
  rw [show (MonadExcept.tryCatch p h : Proc α) = tryCatchThe Err p h from rfl]
  have hrun := Program.run_tryCatch p h w
  revert hidle hrun
  rcases p.run w with ⟨r, t⟩
  cases r with
  | ok a => exact fun hidle hrun => hrun ▸ hidle
  | error e => exact fun hidle hrun => hrun ▸ hh e t hidle

/-- INTERNAL: a look at the state. -/
theorem get (view : World → α) : Closes (Program.get view : Proc α) := fun _ h => h

/-- INTERNAL: a query. -/
theorem query (view : Tables → α) : Closes (Model.query view) := .get _

/-- INTERNAL: a look at the machine. -/
theorem probe (host : Host) : Closes (Model.probe host) := .get _

/-- INTERNAL: the clock. -/
theorem now (host : Host) : Closes (Model.now host) := fun _ h => ⟨h.depth, h.working⟩

/-- INTERNAL: a new id. -/
theorem newId (host : Host) : Closes (Model.newId host) := fun _ h => ⟨h.depth, h.working⟩

/-- INTERNAL: an entry of the log. -/
theorem note (effect : Effect) : Closes (Model.note effect) := fun _ h => ⟨h.depth, h.working⟩

/-- INTERNAL: a block.
SOURCE: persistence/sqlite/unit_of_work.py:32-49 -/
theorem withUow {body : Proc α} (h : Inner body) : Closes (Model.withUow body) := by
  intro w hw
  have hsat : (Model.withUow body).Sat (fun _ _ => True) (fun _ t => t.Idle) w :=
    sat_withUow h hw (fun _ _ _ => trivial) (fun _ t _ _ => ⟨trivial, t.idle_commit⟩)
      fun _ t _ _ => t.idle_rollback
  exact hsat.run

/-- INTERNAL: an adapter works outside the database. -/
theorem invoke (adapter : Adapter) (contract : ExecutionContract) (receipt : ExecutionReceipt)
    (attempt : ExecutionAttempt) : Closes (adapter.invoke contract receipt attempt) := by
  intro w hw
  have h := ((adapter.outside contract receipt attempt).sat outside_refl
    (fun _ _ _ => outside_trans) w).run
  exact ⟨h.depth.trans hw.depth, h.working.trans (hw.working.trans h.committed.symm)⟩

end Closes

/-- INTERNAL: reserving a key is a block of its own.
SOURCE: app/supervisor.py:399-429 -/
theorem closes_reserve (host : Host) (key : Option String) :
    Closes (ExecutionSupervisor.whenKeyed key (ExecutionSupervisor.reserveIdempotency host)) := by
  cases key with
  | none => exact .pure _
  | some key =>
    refine .bind (.query _) fun existing => ?_
    cases existing.bind _ with
    | some reason => exact .throw _
    | none =>
      exact .bind (.now host) fun _ =>
        .tryCatch (.withUow (.executeChecked _ _ _)) fun _ => .throw _

/-- INTERNAL: committing the intent is a block.
SOURCE: app/supervisor.py:162-190 -/
theorem closes_openReceipt (host : Host) (contract : ExecutionContract) (adapterName : String)
    (key : Option String) :
    Closes (ExecutionSupervisor.openReceipt host contract adapterName key) := by
  refine .bind (.now host) fun _ => .bind (.newId host) fun _ => .bind (.newId host) fun _ =>
    .bind (.withUow (inner_writeIntent host _ _ key)) fun _ => .bind (.query _) fun found => ?_
  cases found with
  | none => exact .throw _
  | some _ => exact .pure _

/-- INTERNAL: what follows a committed receipt is two blocks around the adapter.
SOURCE: app/supervisor.py:192-315 -/
theorem closes_carryOut (host : Host) (adapter : Adapter) (contract : ExecutionContract)
    (resolved : ResolvedIdentity) (report : Option ScopeEnforcementReport)
    (receipt : ExecutionReceipt) (attempt : ExecutionAttempt) (key : Option String) :
    Closes (ExecutionSupervisor.carryOut host adapter contract resolved report receipt attempt
      key) := by
  refine .bind (.bind (.probe host) fun _ => .bind (.ofExcept _) fun _ => .bind (.now host) fun _ =>
    .bind (.withUow (.saveChecked _ _ _ _)) fun _ => .pure _) fun marked => ?_
  refine .bind (.bind (.note _) fun _ => .bind (.attempt (.invoke adapter _ _ _)) fun outcome =>
    .bind (.note _) fun _ => ?_) fun result => ?_
  · cases outcome with
    | ok result => exact .pure _
    | error e =>
      dsimp only
      split
      · exact .pure _
      · exact .throw _
  · exact .bind (.bind (.now host) fun _ => .bind (.newId host) fun _ => .bind (.ofExcept _) fun _ =>
      .bind (.newId host) fun _ => .bind (.ofExcept _) fun _ => .pure _) fun judged =>
      .bind (.now host) fun _ => .bind (.withUow (inner_writeOutcome host _ _ _ _ key _)) fun _ =>
        .pure _

/-- A call of the supervisor leaves no transaction open.
SOURCE: app/supervisor.py:131-315 -/
theorem closes_supervise (sup : ExecutionSupervisor) (host : Host) (contract : ExecutionContract) :
    Closes (sup.execute host contract) := by
  refine .bind ?_ fun _ => .bind (.ofExcept _) fun adapter => .bind (closes_reserve host _) fun _ =>
    .bind (.bind (.now host) fun _ => .bind (.probe host) fun _ => .bind (.ofExcept _) fun _ =>
      .pure _) fun _ => .bind ?_ fun admitted => .bind (closes_openReceipt host contract _ _) fun rows =>
    closes_carryOut host adapter contract _ _ _ _ _
  · unfold ExecutionSupervisor.validate
    split
    · exact .throw _
    · split
      · exact .pure _
      · refine .bind (.now host) fun _ => ?_
        split
        · exact .throw _
        · exact .pure _
  · refine .bind (.probe host) fun _ => .bind (.ofExcept _) fun _ => .bind (.ofExcept _) fun _ => ?_
    cases contract.scope with
    | none => exact .pure _
    | some scope => exact .bind (.ofExcept _) fun _ => .pure _

/-- The stored state of a task. -/
def stateIn (w : World) (taskId : String) : Option TaskState := storedState w.committed taskId

/-- A call that moves no task and leaves no transaction open. -/
def MovesNone {α : Type} (p : Proc α) : Prop :=
  ∀ w : World, w.Idle → (p.run w).2.Idle ∧ ∀ taskId, stateIn (p.run w).2 taskId = stateIn w taskId

/-- INTERNAL: a call that does not touch the table of tasks. -/
theorem Leaves.movesNone {α : Type} {p : Proc α} (h : Leaves Tables.tasks p) (hc : Closes p) :
    MovesNone p := by
  intro w hw
  have hsame := (h.run w (congrArg Tables.tasks hw.working)).2
  refine ⟨hc w hw, fun taskId => ?_⟩
  unfold stateIn storedState
  rw [hsame]

/-- INTERNAL: a call that leaves the tasks alone moves none. -/
theorem Serves.movesNone {α : Type} {p : Proc α} (h : Serves Tables.tasks p) : MovesNone p :=
  Leaves.movesNone (h.steps.mono fun _ _ hab => hab.keeps) h.idle

/-- INTERNAL: the supervisor writes the app plane only.
SOURCE: app/supervisor.py:131-315 -/
theorem movesNone_supervise (sup : ExecutionSupervisor) (host : Host)
    (contract : ExecutionContract) : MovesNone (sup.execute host contract) := by
  have hapart : Apart Tables.tasks :=
    ⟨fun _ _ => rfl, fun _ _ => rfl, fun _ _ => rfl, fun _ _ => rfl, fun _ _ => rfl⟩
  exact (leaves_execute hapart sup host contract (.inr fun _ _ => ⟨rfl, rfl⟩)).movesNone
    (closes_supervise sup host contract)

/-- The only transition by an event. -/
structure OnlyEdge (event : String) (source target : TaskState) : Prop where
  edge : nextState source event = .ok target
  only : ∀ state, state ≠ source → ∃ e, nextState state event = .error e

/-- INTERNAL: what a move by such an event does to the stored state. -/
theorem MovedBy.states {event : String} {source target : TaskState} {before after : Tables}
    {taskId : String} {moved : Task} (h : MovedBy event before taskId moved)
    (hedge : OnlyEdge event source target)
    (hafter : after.tasks = (TaskRepository.put moved before).tasks) :
    moved.id = taskId ∧ moved.state = target ∧ storedState before taskId = some source ∧
      storedState after taskId = some target := by
  obtain ⟨old, hold, hnext, rfl⟩ := h
  have hfrom : old.state = source := by
    by_contra hother
    obtain ⟨e, he⟩ := hedge.only _ hother
    cases he.symm.trans hnext
  have hto : moved.state = target := by
    rw [hfrom, hedge.edge] at hnext
    exact (Except.ok.inj hnext).symm
  refine ⟨rfl, hto, ?_, ?_⟩
  · unfold storedState
    rw [hold]
    exact congrArg some hfrom
  · have hput := storedState_put hold
    unfold storedState at hput ⊢
    rw [hafter, hput, hto]

/-- INTERNAL: a grant moves a READY task to RUNNING. -/
theorem onlyEdge_authorize : OnlyEdge "authorize_and_run" .ready .running :=
  ⟨rfl, fun s hs => by cases s <;> first | exact absurd rfl hs | exact ⟨_, rfl⟩⟩

/-- INTERNAL: a halt moves a RUNNING task to SECURITY_HALT. -/
theorem onlyEdge_halt : OnlyEdge "security_halt" .running .securityHalt :=
  ⟨rfl, fun s hs => by cases s <;> first | exact absurd rfl hs | exact ⟨_, rfl⟩⟩

/-! ## Postconditions of the services -/

/-- The state an execution moves the task to. -/
def executedState : ExecutionOutcome → TaskState
  | .success => .verifying
  | .failure => .failed
  | .unknown => .blocked

/-- The state a verification moves the task to. -/
def verifiedState (verified moreSteps : Bool) : TaskState :=
  if !verified then .failed else if moreSteps then .ready else .completed

/-- INTERNAL: an execution moves a RUNNING task by its outcome. -/
theorem onlyEdge_execution (outcome : ExecutionOutcome) :
    OnlyEdge (advanceEventByOutcome outcome) .running (executedState outcome) := by
  cases outcome <;>
    exact ⟨rfl, fun s hs => by cases s <;> first | exact absurd rfl hs | exact ⟨_, rfl⟩⟩

/-- INTERNAL: a verification moves a VERIFYING task by its result. -/
theorem onlyEdge_verification (verified moreSteps : Bool) :
    OnlyEdge (VerificationService.eventOf verified moreSteps) .verifying
      (verifiedState verified moreSteps) := by
  cases verified <;> cases moreSteps <;>
    exact ⟨rfl, fun s hs => by cases s <;> first | exact absurd rfl hs | exact ⟨_, rfl⟩⟩

/-- An authorization moves the task from READY to RUNNING, or raises and leaves it alone. -/
def Authorizes (w : World) (task : Task) : Except Err DecisionOutcome → World → Prop
  | .ok outcome, t => outcome.task.id = task.id ∧ outcome.task.state = .running ∧
      stateIn w task.id = some .ready ∧ stateIn t task.id = some .running
  | .error _, t => stateIn t task.id = stateIn w task.id

/-- An execution moves a RUNNING task as its outcome says, or raises and leaves it alone or halted. -/
def Executes (w : World) (task : Task) : Except Err ExecutionOutcomeRecord → World → Prop
  | .ok result, t => task.state = .running ∧ result.task.id = task.id ∧
      result.task.state = executedState result.outcome ∧ stateIn w task.id = some .running ∧
      stateIn t task.id = some (executedState result.outcome)
  | .error _, t => stateIn t task.id = stateIn w task.id ∨
      (task.state = .running ∧ stateIn w task.id = some .running ∧
        stateIn t task.id = some .securityHalt)

/-- A check leaves the task alone, or halts it if it is RUNNING, and raises. -/
def Scans {α : Type} (w : World) (task : Task) : Except Err α → World → Prop
  | .ok _, t => stateIn t task.id = stateIn w task.id
  | .error _, t => stateIn t task.id = stateIn w task.id ∨
      (stateIn w task.id = some .running ∧ stateIn t task.id = some .securityHalt)

/-- A verification moves a VERIFYING task as its verdict says, or raises and leaves it alone. -/
def Verifies (w : World) (task : Task) (moreSteps : Bool) :
    Except Err VerificationResult → World → Prop
  | .ok result, t => result.task.id = task.id ∧
      result.task.state = verifiedState result.verification.verified moreSteps ∧
      stateIn w task.id = some .verifying ∧
      stateIn t task.id = some (verifiedState result.verification.verified moreSteps)
  | .error _, t => stateIn t task.id = stateIn w task.id

/-- What a plan runner may expect of its services. -/
structure TaskCalls (runner : PlanRunner) : Prop where
  authorize : ∀ {w t : World} {task : Task} {request : AuthorizationRequest}
    {r : Except Err DecisionOutcome}, w.Idle →
      (runner.evaluateAndAuthorize task request).run w = (r, t) → t.Idle ∧ Authorizes w task r t
  execute : ∀ {w t : World} {task : Task} {request : ToolRequest}
    {r : Except Err ExecutionOutcomeRecord}, w.Idle →
      (runner.execute task request).run w = (r, t) → t.Idle ∧ Executes w task r t
  scan : ∀ {w t : World} {task : Task} {tool : String} {data : Value}
    {r : Except Err InjectionScanResult}, w.Idle →
      (runner.scanOutput task tool data).run w = (r, t) → t.Idle ∧ Scans w task r t
  verify : ∀ {w t : World} {task : Task} {moreSteps : Bool} {r : Except Err VerificationResult},
      w.Idle → (runner.verify task moreSteps).run w = (r, t) → t.Idle ∧ Verifies w task moreSteps r t

/-! ## The services of the runtime -/

section Services

variable {α β : Type} {w : World}

/-- INTERNAL: a call that moves no task. -/
theorem sat_still {p : Proc α} (hp : MovesNone p) (hw : w.Idle) :
    p.Sat (fun _ _ => True)
      (fun _ t => t.Idle ∧ ∀ taskId, stateIn t taskId = stateIn w taskId) w :=
  Program.sat_of_run (hp w hw)

/-- INTERNAL: such a call before another one. -/
theorem sat_still_bind {p : Proc α} {f : α → Proc β} {Q : Except Err β → World → Prop}
    (hp : MovesNone p) (hw : w.Idle)
    (hok : ∀ a t, t.Idle → (∀ taskId, stateIn t taskId = stateIn w taskId) →
      (f a).Sat (fun _ _ => True) Q t)
    (herror : ∀ e t, t.Idle → (∀ taskId, stateIn t taskId = stateIn w taskId) → Q (.error e) t) :
    (p >>= f).Sat (fun _ _ => True) Q w := by
  rw [Program.sat_bind]
  refine (sat_still hp hw).post fun r t ht => ?_
  cases r with
  | ok a => exact hok a t ht.1 ht.2
  | error e => exact herror e t ht.1 ht.2

/-- INTERNAL: the same for a call that does not touch tasks by its text. -/
theorem sat_kept_bind {p : Proc α} {f : α → Proc β} {Q : Except Err β → World → Prop}
    (hp : Serves Tables.tasks p) (hw : w.Idle)
    (hok : ∀ a t, t.Idle → (∀ taskId, stateIn t taskId = stateIn w taskId) →
      (f a).Sat (fun _ _ => True) Q t)
    (herror : ∀ e t, t.Idle → (∀ taskId, stateIn t taskId = stateIn w taskId) → Q (.error e) t) :
    (p >>= f).Sat (fun _ _ => True) Q w :=
  sat_still_bind hp.movesNone hw hok herror

/-- INTERNAL: a block that records everything or nothing. -/
theorem sat_block {body : Proc α} {recorded : Tables → Tables → α → Prop}
    {Q : Except Err α → World → Prop} (hb : Nested body) (hblock : AllOrNone (withUow body) recorded)
    (hw : w.Idle) (hok : ∀ a t, t.Idle → recorded w.committed t.committed a → Q (.ok a) t)
    (herror : ∀ e t, t.Idle → t.committed = w.committed → Q (.error e) t) :
    (withUow body).Sat (fun _ _ => True) Q w := by
  refine Program.sat_of_run ?_
  have hidle := Closes.withUow hb.inner w hw
  have hcases := hblock w hw (fun _ => none) 0
  rw [Program.faulty_none] at hcases
  rcases hcases with ⟨a, t, hrun, hrecorded⟩ | ⟨e, t, hrun, hsame⟩
  · rw [hrun] at hidle ⊢
    exact hok a t hidle hrecorded
  · rw [hrun] at hidle ⊢
    exact herror e t hidle hsame

/-- INTERNAL: audit rows are not tasks. -/
theorem tasks_auditEvents (t : Tables) (rows : List AuditEvent) :
    ({ t with auditEvents := rows } : Tables).tasks = t.tasks := rfl

/-- INTERNAL: the same committed rows, the same states. -/
theorem stateIn_of_committed {t : World} (h : t.committed = w.committed) (taskId : String) :
    stateIn t taskId = stateIn w taskId := by
  unfold stateIn
  rw [h]

/-- An authorization moves the task or leaves it alone.
SOURCE: decision/service.py:118-245 -/
theorem authorizes_evaluateAndAuthorize (service : DecisionService) (host : Host) (task : Task)
    (request : AuthorizationRequest) (hw : w.Idle) :
    (service.evaluateAndAuthorize host task request).Sat (fun _ _ => True)
      (fun r t => t.Idle ∧ Authorizes w task r t) w := by
  have hauthorize : ∀ verdict, (service.authorize host task request verdict).Sat (fun _ _ => True)
      (fun r t => t.Idle ∧ Authorizes w task r t) w := by
    intro verdict
    refine sat_kept_bind (.newId host) hw (fun assessmentId t₁ ht₁ hs₁ => ?_)
      fun e t ht hs => ⟨ht, hs _⟩
    refine sat_kept_bind (.newId host) ht₁ (fun decisionId t₂ ht₂ hs₂ => ?_)
      fun e t ht hs => ⟨ht, (hs _).trans (hs₁ _)⟩
    refine sat_kept_bind (serves_resolveAuthorization tasks_auditEvents host task _ _ request) ht₂
      (fun authorization t₃ ht₃ hs₃ => ?_)
      fun e t ht hs => ⟨ht, (hs _).trans ((hs₂ _).trans (hs₁ _))⟩
    have hbefore : stateIn t₃ task.id = stateIn w task.id :=
      (hs₃ _).trans ((hs₂ _).trans (hs₁ _))
    rw [Program.sat_bind]
    refine sat_block (nested_writeGrant host task _ _ authorization)
      (.withUow (nested_writeGrant host task _ _ authorization)
        fun w t a hw h => returned_writeGrant hw h) ht₃ (fun moved t ht hrecorded => ?_)
      fun e t ht hsame => ⟨ht, (stateIn_of_committed hsame _).trans hbefore⟩
    obtain ⟨hmoved, rows, -, hafter⟩ := hrecorded
    have htasks : t.committed.tasks = (TaskRepository.put moved t₃.committed).tasks := by
      rw [hafter]
      rfl
    obtain ⟨hid, hstate, hsource, htarget⟩ := hmoved.states onlyEdge_authorize htasks
    exact ⟨ht, hid, hstate, hbefore ▸ hsource, htarget⟩
  unfold DecisionService.evaluateAndAuthorize
  split
  · refine sat_kept_bind (.withUow (serves_entry tasks_auditEvents host _).toWithin) hw
      (fun _ t ht hs => ?_) fun e t ht hs => ⟨ht, hs _⟩
    exact ⟨ht, hs _⟩
  · exact hauthorize _

/-- A verification moves the task or leaves it alone.
SOURCE: verification/service.py:82-150 -/
theorem verifies_verify (service : VerificationService) (host : Host) (task : Task)
    (moreSteps : Bool) (hw : w.Idle) :
    (service.verify host task moreSteps).Sat (fun _ _ => True)
      (fun r t => t.Idle ∧ Verifies w task moreSteps r t) w := by
  unfold VerificationService.verify
  split
  case isFalse => exact ⟨hw, rfl⟩
  refine sat_kept_bind (.query _) hw (fun found t₁ ht₁ hs₁ => ?_) fun e t ht hs => ⟨ht, hs _⟩
  cases found with
  | none => exact ⟨ht₁, hs₁ _⟩
  | some record =>
    refine sat_kept_bind (.get _) ht₁ (fun instant t₂ ht₂ hs₂ => ?_)
      fun e t ht hs => ⟨ht, (hs _).trans (hs₁ _)⟩
    refine sat_kept_bind (.ofExcept _) ht₂ (fun outcome t₃ ht₃ hs₃ => ?_)
      fun e t ht hs => ⟨ht, (hs _).trans ((hs₂ _).trans (hs₁ _))⟩
    refine sat_kept_bind (.newId host) ht₃ (fun recordId t₄ ht₄ hs₄ => ?_)
      fun e t ht hs => ⟨ht, (hs _).trans ((hs₃ _).trans ((hs₂ _).trans (hs₁ _)))⟩
    have hbefore : stateIn t₄ task.id = stateIn w task.id :=
      (hs₄ _).trans ((hs₃ _).trans ((hs₂ _).trans (hs₁ _)))
    have hnested := nested_writeVerification host task record.tool outcome
      (VerificationService.recordOf task outcome recordId) moreSteps
    rw [Program.sat_bind]
    refine sat_block hnested (.withUow hnested fun w t a hw h => returned_writeVerification hw h) ht₄
      (fun moved t ht hrecorded => ?_)
      fun e t ht hsame => ⟨ht, (stateIn_of_committed hsame _).trans hbefore⟩
    obtain ⟨hmoved, rows, -, hafter⟩ := hrecorded
    have htasks : t.committed.tasks = (TaskRepository.put moved t₄.committed).tasks := by
      rw [hafter]
      rfl
    obtain ⟨hid, hstate, hsource, htarget⟩ :=
      hmoved.states (onlyEdge_verification outcome.verified moreSteps) htasks
    exact ⟨ht, hid, hstate, hbefore ▸ hsource, htarget⟩

/-- The task was RUNNING and is halted. -/
def Halted (taskId : String) (before after : Tables) : Prop :=
  storedState before taskId = some .running ∧ storedState after taskId = some .securityHalt

/-- INTERNAL: a halt inside a block. -/
theorem returned_halt {host : Host} {taskId : String} {u t : World} (hu : 0 < u.depth) {moved : Task}
    (h : (Orchestrator.advance host taskId "security_halt").run u = (.ok moved, t)) :
    Halted taskId u.working t.working := by
  obtain ⟨old, row, hold, hnext, hid, -, hworking⟩ := returned_advance hu h
  have hmoved : MovedBy "security_halt" u.working taskId moved := ⟨old, hold, hnext, hid⟩
  have htasks : t.working.tasks = (TaskRepository.put moved u.working).tasks := by
    rw [hworking]
    rfl
  obtain ⟨-, -, hsource, htarget⟩ := hmoved.states onlyEdge_halt htasks
  exact ⟨hsource, htarget⟩

/-- A scan leaves the task alone, or halts it and raises.
SOURCE: security/service.py:120-158 -/
theorem scans_scanOutput (service : SecurityService) (host : Host) (task : Task) (toolName : String)
    (data : Value) (hw : w.Idle) :
    (service.scanOutput host task toolName data).Sat (fun _ _ => True)
      (fun r t => t.Idle ∧ Scans w task r t) w := by
  unfold SecurityService.scanOutput
  dsimp only
  split
  case isFalse => exact ⟨hw, rfl⟩
  refine sat_kept_bind (.bind (serves_entry tasks_auditEvents host _) fun _ => .emit ..) hw
    (fun _ t₁ ht₁ hs₁ => ?_) fun e t ht hs => ⟨ht, .inl (hs _)⟩
  rw [Program.sat_bind]
  unfold SecurityService.haltFlagged
  split
  case isFalse => exact ⟨ht₁, hs₁ _⟩
  rw [Program.sat_bind]
  have hnested := nested_advance host task.id "security_halt"
  have hblock : AllOrNone (withUow (Orchestrator.advance host task.id "security_halt"))
      fun before after _ => Halted task.id before after :=
    .withUow hnested fun w t a hw h => returned_halt hw h
  refine sat_block hnested hblock ht₁ (fun moved t ht hhalted => ?_)
    fun e t ht hsame => ⟨ht, .inl ((stateIn_of_committed hsame _).trans (hs₁ _))⟩
  exact ⟨ht, .inr ⟨hs₁ task.id ▸ hhalted.1, hhalted.2⟩⟩

/-- The gate leaves the task alone; a violation halts it, or leaves it alone, and raises.
SOURCE: security/service.py:58-118 -/
theorem scans_enforce (service : SecurityService) (host : Host) (task : Task)
    (request : ToolRequest) (hw : w.Idle) :
    (service.enforce host task request).Sat (fun _ _ => True)
      (fun r t => t.Idle ∧ Scans w task r t) w := by
  unfold SecurityService.enforce
  split
  · exact ⟨hw, .inl rfl⟩
  split
  · next tool category reason _ =>
    have hnested : Nested (do
        audit host (SecurityService.entry "security.gate" "security.violation" "enforce" "blocked"
          task [("tool", .str request.tool), ("category", .str category), ("reason", .str reason),
            ("severity", .str "HIGH")])
        let _ ← Orchestrator.advance host task.id "security_halt") :=
      .bind (nested_audit host _) fun _ => .bind (nested_advance host _ _) fun _ => .pure _
    have hblock : AllOrNone (SecurityService.haltTask host task request.tool category reason)
        fun before after _ => Halted task.id before after := by
      refine .withUow hnested fun u t a hu h => ?_
      obtain ⟨_, v, haudit, h⟩ := Program.run_bind_ok h
      obtain ⟨row, -, hworking⟩ := returned_audit hu haudit
      obtain ⟨moved, v', hadvance, h⟩ := Program.run_bind_ok h
      obtain rfl : v' = t := congrArg Prod.snd h
      have hhalted := returned_halt ((nested_audit host _).depth hu haudit) hadvance
      rw [hworking] at hhalted
      exact hhalted
    unfold SecurityService.reportViolation
    rw [Program.sat_bind]
    refine sat_block hnested hblock hw (fun _ t ht hhalted => ?_)
      fun e t ht hsame => ⟨ht, .inl (stateIn_of_committed hsame _)⟩
    refine sat_kept_bind (.emit ..) ht (fun _ t' ht' hs' => ?_) fun e t' ht' hs' => ?_
    · exact ⟨ht', .inr ⟨hhalted.1, (hs' _).trans hhalted.2⟩⟩
    · exact ⟨ht', .inr ⟨hhalted.1, (hs' _).trans hhalted.2⟩⟩
  · exact ⟨hw, .inl rfl⟩
  · have hserves : Serves Tables.tasks (SecurityService.reportCleared host task request) :=
      .bind (serves_entry tasks_auditEvents host _) fun _ => .emit ..
    refine (sat_still hserves.movesNone hw).post fun r t ht => ⟨ht.1, ?_⟩
    cases r with
    | ok _ => exact ht.2 _
    | error e => exact .inl (ht.2 _)

/-- Everything an execution records, apart from which authorizations it has used up.
SOURCE: execution/service.py:418-472 -/
def ExecutionRecorded (host : Host) (task : Task) (request : ToolRequest) (key : String)
    (outcome : ExecutionOutcome) (response : ToolResponse) (before after : Tables) (moved : Task) :
    Prop :=
  MovedBy (advanceEventByOutcome outcome) before task.id moved ∧ ∃ recordId rows authorizations,
    after = TaskRepository.put moved { before with
      toolExecutions := Table.upsert ToolExecutionRecord.id ToolExecutionRepository.merge
        (ToolExecutionRepository.stored host.py
          (ExecutionService.recordOf task request outcome response key recordId))
        before.toolExecutions
      authorizations := authorizations
      auditEvents := before.auditEvents ++ rows }

/-- INTERNAL: marking an authorization used. -/
theorem nested_consume (host : Host) (task : Task) (outcome : ExecutionOutcome) :
    Nested (ExecutionService.consume host task outcome) := by
  unfold ExecutionService.consume
  split
  · refine .bind (.query _) fun auths => ?_
    split
    · exact .pure _
    · unfold ExecutionService.markUsed
      split
      · exact .bind (.now host) fun _ => .writeChecked _ _ _
      · exact .pure _
  · exact .pure _

/-- The authorizations after an execution has used up the newest one of its task.
SOURCE: execution/service.py:452-465 -/
def consumed (taskId : String) (outcome : ExecutionOutcome) (usedAt : Time) (t : Tables) :
    List Authorization :=
  match (AuthorizationRepository.ofTables t taskId).getLast? with
  | none => t.authorizations
  | some auth =>
    if outcome = .success ∧ (auth.nonce.isSome && auth.usedAt.isNone) then
      Table.upsert Authorization.id AuthorizationRepository.merge { auth with usedAt := some usedAt }
        t.authorizations
    else t.authorizations

/-- INTERNAL: an authorization that was used is marked as used. -/
theorem returned_consume {host : Host} {task : Task} {outcome : ExecutionOutcome} {u t : World}
    (hu : 0 < u.depth) {a : Unit}
    (h : (ExecutionService.consume host task outcome).run u = (.ok a, t)) :
    ∃ usedAt, t.working = { u.working with
      authorizations := consumed task.id outcome usedAt u.working } := by
  have hsame : ∀ usedAt, consumed task.id outcome usedAt u.working = u.working.authorizations → u = t →
      t.working = { u.working with
        authorizations := consumed task.id outcome usedAt u.working } := by
    rintro usedAt heq rfl
    rw [heq]
  unfold ExecutionService.consume at h
  split at h
  next hsuccess =>
    obtain ⟨auths, v, hlist, h⟩ := Program.run_bind_ok h
    obtain ⟨hauths, rfl⟩ := Prod.mk.inj hlist
    obtain rfl := Except.ok.inj hauths
    split at h
    next hnone =>
      refine ⟨0, hsame 0 ?_ (congrArg Prod.snd h)⟩
      unfold consumed
      rw [hnone]
    next auth hauth =>
      unfold ExecutionService.markUsed at h
      split at h
      next hunused =>
        obtain ⟨at_, v, hnow, h⟩ := Program.run_bind_ok h
        obtain ⟨hat, rfl⟩ := Prod.mk.inj hnow
        obtain rfl := Except.ok.inj hat
        have hpos : 0 < ({ u with ticks := u.ticks + 1 } : World).depth := hu
        have hwritten := returned_writeChecked hpos h
        refine ⟨host.clock u.ticks, hwritten.trans ?_⟩
        unfold consumed
        rw [hauth]
        dsimp only
        rw [if_pos ⟨hsuccess, hunused⟩]
        rfl
      next hused =>
        refine ⟨0, hsame 0 ?_ (congrArg Prod.snd h)⟩
        unfold consumed
        rw [hauth]
        dsimp only
        rw [if_neg fun hboth => hused hboth.2]
  next hother =>
    refine ⟨0, hsame 0 ?_ (congrArg Prod.snd h)⟩
    unfold consumed
    split
    · rfl
    · rw [if_neg fun hboth => hother hboth.1]

/-- INTERNAL: the block that records an execution. -/
theorem nested_writeRecord (host : Host) (task : Task) (request : ToolRequest) (key : String)
    (supervision : SupervisionResult) (outcome : ExecutionOutcome) (response : ToolResponse) :
    Nested (ExecutionService.writeRecord host task request key supervision outcome response) :=
  .bind (.newId host) fun _ => .bind (.writeChecked _ _ _) fun _ => .bind (nested_audit host _) fun _ =>
    .bind (.emit ..) fun _ => .bind (nested_consume host task outcome) fun _ =>
    nested_advance host _ _

/-- INTERNAL: the body of that block, when it returns; the record has the next id. -/
theorem written_writeRecord {host : Host} {task : Task} {request : ToolRequest} {key : String}
    {supervision : SupervisionResult} {outcome : ExecutionOutcome} {response : ToolResponse}
    {u t : World} (hu : 0 < u.depth) {moved : Task}
    (h : (ExecutionService.writeRecord host task request key supervision outcome response).run u =
      (.ok moved, t)) :
    MovedBy (advanceEventByOutcome outcome) u.working task.id moved ∧ ∃ rows usedAt,
      t.working = TaskRepository.put moved { u.working with
        toolExecutions := Table.upsert ToolExecutionRecord.id ToolExecutionRepository.merge
          (ToolExecutionRepository.stored host.py (ExecutionService.recordOf task request outcome
            response key (host.newId u.nextId)))
          u.working.toolExecutions
        authorizations := consumed task.id outcome usedAt u.working
        auditEvents := u.working.auditEvents ++ rows } := by
  obtain ⟨recordId, u₁, hnew, h⟩ := Program.run_bind_ok h
  obtain ⟨hrecordId, rfl⟩ := Prod.mk.inj hnew
  obtain rfl := Except.ok.inj hrecordId
  have hd₁ : 0 < ({ u with nextId := u.nextId + 1 } : World).depth := hu
  obtain ⟨_, u₂, hsave, h⟩ := Program.run_bind_ok h
  have hd₂ := (Nested.writeChecked _ _ _).depth hd₁ hsave
  obtain ⟨_, u₃, haudit, h⟩ := Program.run_bind_ok h
  have hd₃ := (nested_audit host _).depth hd₂ haudit
  obtain ⟨_, u₄, hemit, h⟩ := Program.run_bind_ok h
  have hd₄ := (Nested.emit host _ _ _ _).depth hd₃ hemit
  obtain ⟨_, u₅, hconsume, h⟩ := Program.run_bind_ok h
  have hd₅ := (nested_consume host task outcome).depth hd₄ hconsume
  have hw₂ := returned_writeChecked hd₁ hsave
  obtain ⟨row, -, hw₃⟩ := returned_audit hd₂ haudit
  have hw₄ : u₄.working = u₃.working := (congrArg (World.working ∘ Prod.snd) hemit).symm
  obtain ⟨usedAt, hw₅⟩ := returned_consume hd₄ hconsume
  obtain ⟨old, row', hold, hnext, hid, -, hworking⟩ := returned_advance hd₅ h
  rw [hw₅, hw₄, hw₃, hw₂] at hold hworking
  refine ⟨⟨old, hold, hnext, hid⟩, [row, row'], usedAt, ?_⟩
  rw [hworking]
  simp [withAudit, TaskRepository.put, consumed, AuthorizationRepository.ofTables]

/-- INTERNAL: what the block of an execution has written when it returns. -/
theorem returned_writeRecord {host : Host} {task : Task} {request : ToolRequest} {key : String}
    {supervision : SupervisionResult} {outcome : ExecutionOutcome} {response : ToolResponse}
    {u t : World} (hu : 0 < u.depth) {moved : Task}
    (h : (ExecutionService.writeRecord host task request key supervision outcome response).run u =
      (.ok moved, t)) :
    ExecutionRecorded host task request key outcome response u.working t.working moved := by
  obtain ⟨hmoved, rows, usedAt, hwritten⟩ := written_writeRecord hu h
  exact ⟨hmoved, _, rows, _, hwritten⟩

/-- INTERNAL: what follows the supervisor's answer.
SOURCE: execution/service.py:342-472 -/
theorem executes_settle (service : ExecutionService) (host : Host) (task : Task)
    (request : ToolRequest) (supervision : SupervisionResult) (hrunning : task.state = .running)
    (hw : w.Idle) :
    (service.settle host task request supervision).Sat (fun _ _ => True)
      (fun r t => t.Idle ∧ Executes w task r t) w := by
  refine sat_kept_bind (.ofExcept _) hw (fun outcome t₁ ht₁ hs₁ => ?_)
    fun e t ht hs => ⟨ht, .inl (hs _)⟩
  rw [Program.sat_bind]
  refine (scans_scanOutput service.security host task _ _ ht₁).post fun r t₂ ht₂ => ?_
  cases r with
  | error e =>
    refine ⟨ht₂.1, ht₂.2.imp (fun h => h.trans (hs₁ _)) fun h => ⟨hrunning, ?_, h.2⟩⟩
    exact (hs₁ _).symm.trans h.1
  | ok scan =>
    have hs₂ : stateIn t₂ task.id = stateIn w task.id := ht₂.2.trans (hs₁ _)
    have hscreen : Serves Tables.tasks
        (ExecutionService.screen host task request (ExecutionService.responseOf supervision outcome)
          scan) := by
      unfold ExecutionService.screen
      split
      · exact .bind (serves_entry tasks_auditEvents host _) fun _ => .pure _
      · exact .pure _
    refine sat_kept_bind hscreen ht₂.1 (fun response t₃ ht₃ hs₃ => ?_)
      fun e t ht hs => ⟨ht, .inl ((hs _).trans hs₂)⟩
    have hbefore : stateIn t₃ task.id = stateIn w task.id := (hs₃ _).trans hs₂
    have hnested := nested_writeRecord host task request (generateKey host.py task.id request)
      supervision outcome response
    rw [Program.sat_bind]
    refine sat_block hnested (.withUow hnested fun w t a hw h => returned_writeRecord hw h) ht₃
      (fun moved t ht hrecorded => ?_)
      fun e t ht hsame => ⟨ht, .inl ((stateIn_of_committed hsame _).trans hbefore)⟩
    obtain ⟨hmoved, recordId, rows, authorizations, hafter⟩ := hrecorded
    have htasks : t.committed.tasks = (TaskRepository.put moved t₃.committed).tasks := by
      rw [hafter]
      rfl
    obtain ⟨hid, hstate, hsource, htarget⟩ := hmoved.states (onlyEdge_execution outcome) htasks
    exact ⟨ht, hrunning, hid, hstate, hbefore ▸ hsource, htarget⟩

/-- An execution moves the task as its outcome says, or raises and leaves it alone or halted.
SOURCE: execution/service.py:229-481 -/
theorem executes_execute (service : ExecutionService) (host : Host) (task : Task)
    (request : ToolRequest) (hw : w.Idle) :
    (service.execute host task request).Sat (fun _ _ => True)
      (fun r t => t.Idle ∧ Executes w task r t) w := by
  unfold ExecutionService.execute
  split
  case isFalse => exact ⟨hw, .inl rfl⟩
  next hrunning =>
  unfold ExecutionService.carryOut ExecutionService.prepare
  rw [Program.sat_bind, Program.sat_bind]
  refine (scans_enforce service.security host task request hw).post fun r t₁ ht₁ => ?_
  cases r with
  | error e => exact ⟨ht₁.1, ht₁.2.imp id fun h => ⟨hrunning, h⟩⟩
  | ok _ =>
    refine (sat_still (serves_checks tasks_auditEvents service host task request).movesNone
      ht₁.1).post fun r t₂ ht₂ => ?_
    have hs₂ : stateIn t₂ task.id = stateIn w task.id := (ht₂.2 _).trans ht₁.2
    cases r with
    | error e => exact ⟨ht₂.1, .inl hs₂⟩
    | ok contract =>
      refine sat_still_bind (movesNone_supervise _ host contract) ht₂.1
        (fun supervision t₃ ht₃ hs₃ => ?_) fun e t ht hs => ⟨ht, .inl ((hs _).trans hs₂)⟩
      have hs₃' : stateIn t₃ task.id = stateIn w task.id := (hs₃ _).trans hs₂
      refine (executes_settle service host task request supervision hrunning ht₃).post
        fun r t ht => ⟨ht.1, ?_⟩
      cases r with
      | ok result =>
        obtain ⟨-, h₁, h₂, h₃, h₄⟩ := ht.2
        exact ⟨hrunning, h₁, h₂, hs₃' ▸ h₃, h₄⟩
      | error e => exact ht.2.imp (fun h => h.trans hs₃') fun h => ⟨hrunning, hs₃' ▸ h.2.1, h.2.2⟩

end Services

/-- The services of the runtime are such services. -/
theorem taskCalls_ofServices (host : Host) (decision : DecisionService)
    (execution : ExecutionService) (verification : VerificationService) :
    TaskCalls (PlanRunner.ofServices host decision execution verification) := by
  constructor
  · intro w t task request r hw hrun
    have h := (authorizes_evaluateAndAuthorize decision host task request hw).run
    rwa [show (decision.evaluateAndAuthorize host task request).run w = (r, t) from hrun] at h
  · intro w t task request r hw hrun
    have h := (executes_execute execution host task request hw).run
    rwa [show (execution.execute host task request).run w = (r, t) from hrun] at h
  · intro w t task tool data r hw hrun
    have h := (scans_scanOutput execution.security host task tool data hw).run
    rwa [show (execution.security.scanOutput host task tool data).run w = (r, t) from hrun] at h
  · intro w t task moreSteps r hw hrun
    have h := (verifies_verify verification host task moreSteps hw).run
    rwa [show (verification.verify host task moreSteps).run w = (r, t) from hrun] at h

end Shea.Analysis
