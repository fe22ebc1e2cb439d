import Shea.Analysis.Operations
import Shea.Analysis.TaskStates
import Shea.Model.PlanRunner

/-!
# What every call keeps

The core tables a call can hurt an invariant through are the tasks, the audit log and the recovery
attempts. `Lasting` says which changes of theirs an invariant has to survive: a new audit row under a
drawn id, a new task, a task moved by an event, an attempt that is resolved. Every other statement
leaves the three tables alone.

`Upholds I p` says that every step of the program keeps `I` and commits at most what the connection
reads. It is a property of the text of the program, like `Serves`; here it is for a lasting invariant
of the author's choice.
-/

set_option autoImplicit false

namespace Shea.Analysis

open Shea.Computation Shea.Model

/-! ## Rules and statements -/

/-- A step commits what the connection reads, or nothing. -/
def Commits (a b : World) : Prop := b.committed = a.committed ∨ b.committed = a.working

/-- Every step keeps the invariant and commits at most what the connection reads. -/
def Upholds {α : Type} (I : World → Prop) (p : Proc α) : Prop :=
  ∀ w, I w → p.Sat (fun a b => I b ∧ Commits a b) (fun _ t => I t) w

/-- The invariant is about the rows, and of the ids it asks only that enough are drawn. -/
def OfRows (I : World → Prop) : Prop :=
  ∀ {a b : World}, I a → b.working = a.working → b.committed = a.committed → a.nextId ≤ b.nextId → I b

/-- Such an invariant survives commit and rollback. -/
structure Framed (I : World → Prop) : Prop where
  rows : OfRows I
  commit : ∀ {w : World}, I w → I { w with committed := w.working }
  rollback : ∀ {w : World}, I w → I { w with working := w.committed }

/-- The statement has nothing to do with tasks, the audit log and recovery attempts. -/
structure Elsewhere (statement : Tables → Tables) : Prop where
  tasks : ∀ t, (statement t).tasks = t.tasks
  auditEvents : ∀ t, (statement t).auditEvents = t.auditEvents
  recoveryAttempts : ∀ t, (statement t).recoveryAttempts = t.recoveryAttempts

/-- A task goes from one state to the other by one of the events, or is cancelled, or stays. -/
inductive Change (may : String → Prop) (old : TaskState) : TaskState → Prop
  | kept : Change may old old
  | cancelled : Change may old .cancelled
  | moved {event : String} {new : TaskState} (hmay : may event) (hnext : nextState old event = .ok new) :
      Change may old new

/-- The tables after an attempt was saved. -/
def withAttempt (attempt : RecoveryAttempt) (t : Tables) : Tables :=
  { t with
    recoveryAttempts :=
      Table.upsert RecoveryAttempt.id RecoveryAttemptRepository.merge attempt t.recoveryAttempts }

/-- What a task was given can be written as JSON. -/
def Rewritable (task : Task) : Prop := (Value.dict (task.profileSnapshot.getD [])).serializable = true

/-- The changes an invariant has to survive. -/
structure Lasting (host : Host) (may : String → String → Prop) (I : World → Prop) : Prop extends Framed I where
  elsewhere : ∀ {w : World} {statement : Tables → Tables}, I w → Elsewhere statement →
    I { w with working := statement w.working }
  recorded : ∀ {w : World} {event : AuditEvent} {n : ℕ}, I w → n < w.nextId →
    event.eventId = host.newId n → I { w with working := withAudit event w.working }
  created : ∀ {w : World} {task : Task} {n : ℕ}, I w → n < w.nextId → task.id = host.newId n →
    task.state = .created → Rewritable task → I { w with working := TaskRepository.put task w.working }
  changed : ∀ {w : World} {old task : Task}, I w →
    Table.lookup Task.id w.working.tasks task.id = some old → Change (may task.id) old.state task.state →
    Rewritable task → I { w with working := TaskRepository.put task w.working }
  resolved : ∀ {w : World} {attempt : RecoveryAttempt} (old : RecoveryAttempt), I w →
    old ∈ w.working.recoveryAttempts → attempt.id = old.id → attempt.taskId = old.taskId →
    attempt.attemptNumber = old.attemptNumber →
    I { w with working := withAttempt attempt w.working }

/-- The invariant survives a new attempt at the task as well. -/
def Begins (host : Host) (I : World → Prop) (taskId : String) : Prop :=
  ∀ {w : World} {attempt : RecoveryAttempt} {n : ℕ}, I w → n < w.nextId →
    attempt.id = host.newId n → attempt.taskId = taskId →
    I { w with working := withAttempt attempt w.working }

section Blocks

variable {α β : Type} {R : World → World → Prop} {I : World → Prop} {w : World}

/-- INTERNAL: the rule for a block, whatever is open around it.
SOURCE: persistence/sqlite/unit_of_work.py:32-49 -/
theorem sat_uow {body : Proc α} {Q : Except Err α → World → Prop} :
    (withUow body).Sat R Q w ↔ R w w.enter ∧
      body.Sat R (fun r t => R t (t.exit r.isOk) ∧ Q r (t.exit r.isOk)) w.enter := by
  unfold withUow
  rw [Program.sat_bind, Program.sat_modify, Program.then_ok, Program.sat_bind, Program.sat_attempt]
  refine and_congr_right fun _ => ?_
  constructor <;> intro h <;> refine h.post fun r t ht => ?_ <;> cases r <;> exact ht

/-- INTERNAL: leaving a block. -/
theorem commits_exit (clean : Bool) (w : World) : Commits w (w.exit clean) := by
  unfold World.exit
  split
  · exact .inl rfl
  · split
    · exact .inr rfl
    · exact .inl rfl

/-- INTERNAL: leaving a block keeps it. -/
theorem Framed.exit (hI : Framed I) (clean : Bool) (h : I w) : I (w.exit clean) := by
  unfold World.exit
  split
  · exact hI.rows h rfl rfl le_rfl
  · split
    · exact hI.rows (hI.commit h) rfl rfl le_rfl
    · exact hI.rows (hI.rollback h) rfl rfl le_rfl

/-- INTERNAL: so does entering one. -/
theorem Framed.enter (hI : Framed I) (h : I w) : I w.enter := hI.rows h rfl rfl le_rfl

/-- INTERNAL: a framed invariant goes with a bound on the ids drawn. -/
theorem Framed.drawn (hI : Framed I) (n : ℕ) : Framed fun w => I w ∧ n < w.nextId :=
  ⟨fun h hw hc hn => ⟨hI.rows h.1 hw hc hn, h.2.trans_le hn⟩, fun h => ⟨hI.commit h.1, h.2⟩,
    fun h => ⟨hI.rollback h.1, h.2⟩⟩

end Blocks

namespace Upholds

variable {α β : Type} {I : World → Prop}

/-- INTERNAL: a value that is returned. -/
theorem pure (a : α) : Upholds I (Pure.pure a : Proc α) := fun _ h => h

/-- INTERNAL: an error that is raised. -/
theorem throw (e : Err) : Upholds I (MonadExcept.throw e : Proc α) := fun _ h => h

/-- INTERNAL: a result that is passed on. -/
theorem ofExcept (x : Except Err α) : Upholds I (Program.ofExcept x : Proc α) := by
  intro w h
  cases x <;> exact h

/-- INTERNAL: one program after the other. -/
theorem bind {p : Proc α} {f : α → Proc β} (hp : Upholds I p) (hf : ∀ a, Upholds I (f a)) :
    Upholds I (p >>= f) := by
  intro w hw
  rw [Program.sat_bind]
  refine (hp w hw).post fun r t ht => ?_
  cases r with
  | ok a => exact hf a t ht
  | error e => exact ht

/-- INTERNAL: a program whose errors are results. -/
theorem attempt {p : Proc α} (hp : Upholds I p) : Upholds I p.attempt := by
  intro w hw
  rw [Program.sat_attempt]
  exact hp w hw

/-- INTERNAL: a handler. -/
theorem tryCatch {p : Proc α} {h : Err → Proc α} (hp : Upholds I p) (hh : ∀ e, Upholds I (h e)) :
    Upholds I (MonadExcept.tryCatch p h) := by
  intro w hw
  rw [show (MonadExcept.tryCatch p h : Proc α) = tryCatchThe Err p h from rfl]
  refine (Program.sat_tryCatch p h).mpr ((hp w hw).post fun r t ht => ?_)
  cases r with
  | ok a => exact ht
  | error e => exact hh e t ht

/-- INTERNAL: a look at the state. -/
theorem get (view : World → α) : Upholds I (Program.get view : Proc α) :=
  fun _ hw => ⟨⟨hw, .inl rfl⟩, hw⟩

/-- INTERNAL: a query. -/
theorem query (view : Tables → α) : Upholds I (Model.query view) := .get _

/-- INTERNAL: a look at the machine. -/
theorem probe (host : Host) : Upholds I (Model.probe host) := .get _

/-- INTERNAL: a program whose value is dropped. -/
theorem void {p : Proc α} (h : Upholds I p) : Upholds I p.void := .bind h fun _ => .pure _

section Rows

variable (hI : OfRows I)

include hI

/-- INTERNAL: a step that writes no table. -/
theorem act {view : World → α} {update : World → World} (hw : ∀ w, (update w).working = w.working)
    (hc : ∀ w, (update w).committed = w.committed) (hn : ∀ w, w.nextId ≤ (update w).nextId) :
    Upholds I (Program.act view update : Proc α) := by
  intro w h
  have hkept : I (update w) := hI h (hw w) (hc w) (hn w)
  exact ⟨⟨hkept, .inl (hc w)⟩, hkept⟩

/-- INTERNAL: the clock. -/
theorem now (host : Host) : Upholds I (Model.now host) :=
  .act hI (fun _ => rfl) (fun _ => rfl) fun _ => le_rfl

/-- INTERNAL: a new id. -/
theorem newId (host : Host) : Upholds I (Model.newId host) :=
  .act hI (fun _ => rfl) (fun _ => rfl) fun _ => Nat.le_succ _

/-- INTERNAL: an entry of the log. -/
theorem note (effect : Effect) : Upholds I (Model.note effect) := by
  intro w h
  have hkept : I { w with log := w.log ++ [effect] } := hI h rfl rfl le_rfl
  exact ⟨⟨hkept, .inl rfl⟩, hkept⟩

/-- INTERNAL: a published event. -/
theorem emit (host : Host) (source eventType : String) (payload : Dict)
    (correlationId : Option String) :
    Upholds I (Model.emit host source eventType payload correlationId) :=
  .bind (.newId hI host) fun _ => .bind (.now hI host) fun _ => .note hI _

/-- INTERNAL: an adapter works outside the database. -/
theorem outside {p : Proc α} (h : p.Guarantee Outside) : Upholds I p :=
  fun _ hw => h.sat_of_inv (fun _ _ ha hab =>
    ⟨⟨hI ha hab.working hab.committed hab.nextId, .inl hab.committed⟩,
      hI ha hab.working hab.committed hab.nextId⟩) hw

end Rows

/-- INTERNAL: a block, if what happens within it keeps the invariant. -/
theorem withUow (hI : Framed I) {body : Proc α} (h : Upholds I body) : Upholds I (Model.withUow body) := by
  intro w hw
  refine sat_uow.mpr ⟨⟨hI.enter hw, .inl rfl⟩, (h _ (hI.enter hw)).post fun r t ht => ?_⟩
  exact ⟨⟨hI.exit _ ht, commits_exit _ t⟩, hI.exit _ ht⟩

end Upholds

section Statements

variable {host : Host} {may : String → String → Prop} {I : World → Prop} (hI : Lasting host may I)

include hI

omit hI in
/-- INTERNAL: the JSON check of a column. -/
theorem upholds_requireSerializable (d : Dict) : Upholds I (requireSerializable d) := by
  unfold requireSerializable
  split
  · exact .pure _
  · exact .throw _

/-- INTERNAL: a statement on another table. -/
theorem upholds_execute {statement : Tables → Tables} (h : Elsewhere statement) :
    Upholds I (execute statement) :=
  fun _ hw => ⟨⟨hI.elsewhere hw h, .inl rfl⟩, hI.elsewhere hw h⟩

/-- INTERNAL: the same under a constraint. -/
theorem upholds_executeChecked {statement : Tables → Tables} (holds : Tables → Bool)
    (message : String) (h : Elsewhere statement) :
    Upholds I (executeChecked holds message statement) := by
  refine .bind (fun w hw => ?_) fun ok => ?_
  · have hkept : I (if holds w.working then { w with working := statement w.working } else w) := by
      split
      · exact hI.elsewhere hw h
      · exact hw
    refine ⟨⟨hkept, .inl ?_⟩, hkept⟩
    show (if _ then _ else _ : World).committed = _
    split <;> rfl
  · cases ok
    · exact .throw _
    · exact .pure _

/-- INTERNAL: a save of a row with a JSON column, of another table. -/
theorem upholds_save (d : Dict) {statement : Tables → Tables} (h : Elsewhere statement) :
    Upholds I (withUow do requireSerializable d; execute statement) :=
  .withUow hI.toFramed (.bind (upholds_requireSerializable d) fun _ => upholds_execute hI h)

/-- INTERNAL: and of one that refers to another row. -/
theorem upholds_saveChecked (d : Dict) (holds : Tables → Bool) (message : String)
    {statement : Tables → Tables} (h : Elsewhere statement) :
    Upholds I (withUow do requireSerializable d; executeChecked holds message statement) :=
  .withUow hI.toFramed (.bind (upholds_requireSerializable d) fun _ =>
    upholds_executeChecked hI holds message h)

/-- INTERNAL: a block of one statement on another table. -/
theorem upholds_write {statement : Tables → Tables} (h : Elsewhere statement) :
    Upholds I (withUow (execute statement)) := .withUow hI.toFramed (upholds_execute hI h)

/-- INTERNAL: the same under a constraint. -/
theorem upholds_writeChecked {statement : Tables → Tables} (holds : Tables → Bool)
    (message : String) (h : Elsewhere statement) :
    Upholds I (withUow (executeChecked holds message statement)) :=
  .withUow hI.toFramed (upholds_executeChecked hI holds message h)

/-- INTERNAL: the row of an audit entry has an id that was drawn for it.
SOURCE: audit/recorder.py -/
theorem upholds_audit (entry : AuditEntry) : Upholds I (audit host entry) := by
  intro w hw
  have hdrawn : I { w with nextId := w.nextId + 1 } := hI.rows hw rfl rfl (Nat.le_succ _)
  have hticked : I { w with nextId := w.nextId + 1, ticks := w.ticks + 1 } :=
    hI.rows hdrawn rfl rfl le_rfl
  unfold audit
  rw [Program.sat_bind, sat_newId, Program.then_ok, Program.sat_bind, sat_now, Program.then_ok]
  refine ⟨⟨hdrawn, .inl rfl⟩, ⟨hticked, .inl rfl⟩, ?_⟩
  have hframed := hI.toFramed.drawn w.nextId
  have hbody : Upholds (fun t => I t ∧ w.nextId < t.nextId) (AuditSink.record host.py
      (entry.event (host.newId w.nextId) (host.clock w.ticks))) := by
    refine .withUow hframed (.bind (upholds_requireSerializable _) fun _ => .bind ?_ fun ok => ?_)
    · intro t ht
      have hkept : I (if !t.working.auditEvents.any (·.eventId = host.newId w.nextId) then
          { t with working := withAudit (AuditSink.chained host.py t.working
            (entry.event (host.newId w.nextId) (host.clock w.ticks))) t.working } else t) := by
        split
        · exact hI.recorded ht.1 ht.2 rfl
        · exact ht.1
      have hnext : w.nextId < (if !t.working.auditEvents.any (·.eventId = host.newId w.nextId) then
          { t with working := withAudit (AuditSink.chained host.py t.working
            (entry.event (host.newId w.nextId) (host.clock w.ticks))) t.working } else t).nextId := by
        split <;> exact ht.2
      refine ⟨⟨⟨hkept, hnext⟩, .inl ?_⟩, hkept, hnext⟩
      show (if _ then _ else _ : World).committed = _
      split <;> rfl
    · cases ok
      · exact .throw _
      · exact .pure _
  exact (hbody _ ⟨hticked, Nat.lt_succ_self _⟩).mono (fun _ _ h => ⟨h.1.1, h.2⟩) fun _ _ h => h.1

end Statements

/-! ## Tasks -/

/-- The invariant survives the write of the task from any state with the same rows. -/
def Writable (I : World → Prop) (task : Task) (w : World) : Prop :=
  ∀ t : World, I t → t.working = w.working → w.nextId ≤ t.nextId → Rewritable task →
    I { t with working := TaskRepository.put task t.working }

section Orchestration

variable {host : Host} {may : String → String → Prop} {I : World → Prop} {w : World} (hI : Lasting host may I)

include hI

/-- INTERNAL: a task saved in a block of its own. -/
theorem sat_saveTask_upheld {task : Task} (hw : I w) (hput : Writable I task w) :
    (TaskRepository.save task).Sat (fun a b => I b ∧ Commits a b) (fun _ t => I t) w := by
  have hframed := hI.toFramed
  have henter := hframed.enter hw
  refine sat_uow.mpr ⟨⟨henter, .inl rfl⟩, ?_⟩
  unfold requireSerializable
  split
  · next hwrites =>
    have hkept := hput _ henter rfl le_rfl hwrites
    exact ⟨⟨hkept, .inl rfl⟩, ⟨hframed.exit true hkept, commits_exit true _⟩,
      hframed.exit true hkept⟩
  · exact ⟨⟨hframed.exit false henter, commits_exit false _⟩, hframed.exit false henter⟩

/-- INTERNAL: a task and its audit entry.
SOURCE: core/orchestrator.py:74-85, 119-131 -/
theorem sat_saveAudited_upheld {task : Task} (entry : AuditEntry) (hw : I w)
    (hput : Writable I task w) :
    (Orchestrator.saveAudited host task entry).Sat (fun a b => I b ∧ Commits a b) (fun _ t => I t)
      w := by
  have hframed := hI.toFramed
  have henter := hframed.enter hw
  refine sat_uow.mpr ⟨⟨henter, .inl rfl⟩, ?_⟩
  rw [Program.sat_bind]
  refine (sat_saveTask_upheld hI henter hput).post fun r t ht => ?_
  cases r with
  | ok _ =>
    refine (upholds_audit hI entry t ht).post fun r u hu => ?_
    exact ⟨⟨hframed.exit _ hu, commits_exit _ u⟩, hframed.exit _ hu⟩
  | error e => exact ⟨⟨hframed.exit false ht, commits_exit false t⟩, hframed.exit false ht⟩

/-- INTERNAL: the same with the event that follows it. -/
theorem sat_announced_upheld {α : Type} {task : Task} (entry : AuditEntry) (source eventType : String)
    (payload : Dict) (correlationId : Option String) (a : α) (hw : I w) (hput : Writable I task w) :
    (do Orchestrator.saveAudited host task entry
        emit host source eventType payload correlationId
        pure a : Proc α).Sat (fun a b => I b ∧ Commits a b) (fun _ t => I t) w := by
  rw [Program.sat_bind]
  refine (sat_saveAudited_upheld hI entry hw hput).post fun r t ht => ?_
  cases r with
  | ok _ =>
    exact (Upholds.bind (.emit hI.rows host source eventType payload correlationId)
      fun _ => .pure a) t ht
  | error e => exact ht

omit hI in
/-- INTERNAL: what the reader of a task knows. -/
theorem sat_getTask_upheld {β : Type} {f : Task → Proc β} (taskId : String) (hw : I w)
    (hf : ∀ task, Table.lookup Task.id w.working.tasks taskId = some task → task.id = taskId →
      (f task).Sat (fun a b => I b ∧ Commits a b) (fun _ t => I t) w) :
    (Orchestrator.getTask taskId >>= f).Sat (fun a b => I b ∧ Commits a b) (fun _ t => I t) w := by
  rw [Program.sat_bind, Orchestrator.getTask, TaskRepository.get, Program.sat_bind, sat_query]
  refine ⟨⟨hw, .inl rfl⟩, ?_⟩
  rw [Program.then_ok]
  cases hrow : Table.lookup Task.id w.working.tasks taskId with
  | none => exact hw
  | some task => exact hf task hrow (Table.lookup_eq_some_key hrow)

/-- INTERNAL: a task that was just read may be changed. -/
theorem writable_of_change {old : Task} (task : Task) {taskId : String}
    (hrow : Table.lookup Task.id w.working.tasks taskId = some old) (hid : task.id = taskId)
    (hchange : Change (may task.id) old.state task.state) {t : World} (ht : t.working = w.working) :
    Writable I task t := by
  intro u hu hworking _ hwrites
  have hlookup : Table.lookup Task.id u.working.tasks task.id = some old := by
    rw [hworking, ht, hid]
    exact hrow
  exact hI.changed hu hlookup hchange hwrites

/-- A new task.
SOURCE: core/orchestrator.py:62-93 -/
theorem upholds_createTask (sessionId requestId : String) (profileSnapshot : Option Dict) :
    Upholds I (Orchestrator.createTask host sessionId requestId profileSnapshot) := by
  intro w hw
  have hframed := hI.toFramed
  have hticked : I { w with ticks := w.ticks + 1 } := hframed.rows hw rfl rfl le_rfl
  have hdrawn : I { w with ticks := w.ticks + 1, nextId := w.nextId + 1 } :=
    hframed.rows hticked rfl rfl (Nat.le_succ _)
  unfold Orchestrator.createTask
  rw [Program.sat_bind, sat_now, Program.then_ok, Program.sat_bind, sat_newId, Program.then_ok]
  refine ⟨⟨hticked, .inl rfl⟩, ⟨hdrawn, .inl rfl⟩, ?_⟩
  refine sat_announced_upheld hI _ _ _ _ _ _ hdrawn fun t ht _ hnext hwrites => ?_
  exact hI.created ht (n := w.nextId) (Nat.lt_of_succ_le hnext) rfl rfl hwrites

/-- A move, accepted or rejected.
SOURCE: core/orchestrator.py:95-140 -/
theorem upholds_advance (taskId : String) {event : String} (hmay : may taskId event) :
    Upholds I (Orchestrator.advance host taskId event) := by
  intro w hw
  refine sat_getTask_upheld taskId hw fun task hrow hid => ?_
  cases hnext : nextState task.state event with
  | error e => exact Upholds.bind (upholds_audit hI _) (fun _ => .throw e) w hw
  | ok newState =>
    show (Orchestrator.moveTask host task event newState).Sat _ _ _
    unfold Orchestrator.moveTask
    rw [Program.sat_bind, sat_now]
    have hticked : I { w with ticks := w.ticks + 1 } := hI.rows hw rfl rfl le_rfl
    refine ⟨⟨hticked, .inl rfl⟩, ?_⟩
    exact sat_announced_upheld hI _ _ _ _ _ _ hticked
      (writable_of_change hI { task with state := newState, updatedAt := host.clock w.ticks } hrow hid
        (.moved (hid ▸ hmay) hnext) rfl)

/-- INTERNAL: a plan is given to a task. -/
theorem upholds_attachPlan (taskId planId : String) :
    Upholds I (Orchestrator.attachPlan host taskId planId) := by
  intro w hw
  refine sat_getTask_upheld taskId hw fun task hrow hid => ?_
  exact sat_announced_upheld hI _ _ _ _ _ _ hw
    (writable_of_change hI { task with planId := some planId } hrow hid .kept rfl)

/-- INTERNAL: a task is cancelled. -/
theorem upholds_cancelTask (taskId : String) :
    Upholds I (Orchestrator.cancelTask host taskId) := by
  intro w hw
  refine sat_getTask_upheld taskId hw fun task hrow hid => ?_
  split
  · exact hw
  · rw [Program.sat_bind]
    refine (sat_saveTask_upheld hI hw (writable_of_change hI { task with state := .cancelled } hrow
      hid .cancelled rfl)).post fun r t ht => ?_
    cases r with
    | ok _ => exact Upholds.bind (.emit hI.rows _ _ _ _ _) (fun _ => .pure _) t ht
    | error e => exact ht

end Orchestration

/-! ## Security and execution -/

section Services

variable {host : Host} {may : String → String → Prop} {I : World → Prop} (hI : Lasting host may I)

include hI

/-- INTERNAL: the gate.
SOURCE: security/service.py:58-118 -/
theorem upholds_enforce (hhalt : ∀ taskId, may taskId "security_halt") (service : SecurityService) (task : Task)
    (request : ToolRequest) : Upholds I (service.enforce host task request) := by
  unfold SecurityService.enforce
  split
  · exact .throw _
  · split
    · refine .bind (.withUow hI.toFramed ?_) fun _ => .bind (.emit hI.rows _ _ _ _ _) fun _ =>
        .throw _
      exact .bind (upholds_audit hI _) fun _ => .bind (upholds_advance hI _ (hhalt _)) fun _ => .pure _
    · exact .throw _
    · exact .bind (upholds_audit hI _) fun _ => .emit hI.rows _ _ _ _ _

/-- INTERNAL: the scan of an output.
SOURCE: security/service.py:120-158 -/
theorem upholds_scanOutput (hhalt : ∀ taskId, may taskId "security_halt") (service : SecurityService) (task : Task)
    (toolName : String) (data : Value) :
    Upholds I (service.scanOutput host task toolName data) := by
  unfold SecurityService.scanOutput
  dsimp only
  split
  · refine .bind (.bind (upholds_audit hI _) fun _ => .emit hI.rows _ _ _ _ _) fun _ =>
      .bind ?_ fun _ => .pure _
    unfold SecurityService.haltFlagged
    split
    · exact .bind (.withUow hI.toFramed (upholds_advance hI _ (hhalt _))) fun _ => .throw _
    · exact .pure _
  · exact .pure _

/-- INTERNAL: everything before the supervisor.
SOURCE: execution/service.py:229-340 -/
theorem upholds_prepare (hhalt : ∀ taskId, may taskId "security_halt") (service : ExecutionService) (task : Task)
    (request : ToolRequest) : Upholds I (service.prepare host task request) := by
  refine .bind (upholds_enforce hI hhalt _ task request) fun _ => .bind (.bind (.query _)
    fun auths => ?_) fun _ => .bind (.bind (.query _) fun prior => ?_) fun _ =>
    .bind (.bind (.query _) fun decision => ?_) fun capabilities => .bind ?_ fun _ =>
    .bind (.bind (.query _) fun auths => ?_) fun auth => .bind (.newId hI.rows host) fun _ =>
    .pure _
  · split
    · exact .throw _
    · refine .bind (.ofExcept _) fun _ => .bind (.ofExcept _) fun _ => .bind ?_ fun _ =>
        .bind (.query _) fun _ => .ofExcept _
      unfold checkUnexpired
      split
      · exact .pure _
      · refine .bind (.now hI.rows host) fun at_ => ?_
        split
        · exact .throw _
        · exact .pure _
  · cases prior with
    | none => exact .pure _
    | some prior =>
      dsimp only
      split
      · exact .pure _
      · exact .bind (upholds_audit hI _) fun _ => .throw _
  · cases decision with
    | none => exact .throw _
    | some decision => exact .pure _
  · unfold ExecutionService.requireCapabilities
    split
    · exact .pure _
    · exact .bind (upholds_audit hI _) fun _ => .throw _
    · exact .throw _
  · split
    · exact .throw _
    · exact .pure _

/-- INTERNAL: the supervisor writes no table of the core.
SOURCE: app/supervisor.py:131-315 -/
theorem upholds_supervise (sup : ExecutionSupervisor) (contract : ExecutionContract) :
    Upholds I (sup.execute host contract) := by
  have hframed := hI.toFramed
  have hkeyed : ∀ (key : Option String) (body : String → Proc Unit), (∀ key, Upholds I (body key)) →
      Upholds I (ExecutionSupervisor.whenKeyed key body) := by
    intro key body hbody
    cases key with
    | none => exact .pure _
    | some key => exact hbody key
  have hreserve : ∀ key, Upholds I (ExecutionSupervisor.reserveIdempotency host key) := by
    intro key
    refine .bind (.query _) fun existing => ?_
    cases existing.bind _ with
    | some reason => exact .throw _
    | none =>
      exact .bind (.now hI.rows host) fun _ => .tryCatch (upholds_writeChecked hI _ _
        ⟨fun _ => rfl, fun _ => rfl, fun _ => rfl⟩) fun _ => .throw _
  have hvalidate : Upholds I (ExecutionSupervisor.validate host contract) := by
    unfold ExecutionSupervisor.validate
    split
    · exact .throw _
    · split
      · exact .pure _
      · refine .bind (.now hI.rows host) fun _ => ?_
        split
        · exact .throw _
        · exact .pure _
  have hadmit : Upholds I (ExecutionSupervisor.admitTarget host contract) := by
    refine .bind (.probe host) fun probes => .bind (.ofExcept _) fun _ => .bind (.ofExcept _)
      fun _ => ?_
    cases contract.scope with
    | none => exact .pure _
    | some scope => exact .bind (.ofExcept _) fun _ => .pure _
  have hsave : ∀ (d : Dict) {statement : Tables → Tables}, Elsewhere statement →
      Upholds I (withUow do requireSerializable d; execute statement) :=
    fun d _ h => upholds_save hI d h
  have hrefer : ∀ (d : Dict) (holds : Tables → Bool) (message : String) {statement : Tables → Tables},
      Elsewhere statement →
        Upholds I (withUow do requireSerializable d; executeChecked holds message statement) :=
    fun d holds message _ h => upholds_saveChecked hI d holds message h
  have hopen : ∀ name key, Upholds I (ExecutionSupervisor.openReceipt host contract name key) := by
    intro name key
    refine .bind (.now hI.rows host) fun _ => .bind (.newId hI.rows host) fun _ =>
      .bind (.newId hI.rows host) fun _ => .bind (.withUow hframed (.bind
        (hsave _ ⟨fun _ => rfl, fun _ => rfl, fun _ => rfl⟩) fun _ => .bind
        (hsave _ ⟨fun _ => rfl, fun _ => rfl, fun _ => rfl⟩) fun _ => .bind
        (hrefer _ _ _ ⟨fun _ => rfl, fun _ => rfl, fun _ => rfl⟩) fun _ => hkeyed _ _ fun key => ?_))
        fun _ => .bind (.query _) fun found => ?_
    · refine .bind (.query _) fun existing => .bind (.now hI.rows host) fun _ => ?_
      cases existing <;> exact upholds_write hI ⟨fun _ => rfl, fun _ => rfl, fun _ => rfl⟩
    · cases found with
      | none => exact .throw _
      | some _ => exact .pure _
  have hinvoke : ∀ (adapter : Adapter) contract receipt attempt key, Upholds I
      (ExecutionSupervisor.invokeAdapter host adapter contract receipt attempt key) := by
    intro adapter contract receipt attempt key
    refine .bind (.note hI.rows _) fun _ => .bind (.attempt (.outside hI.rows
      (adapter.outside contract receipt attempt))) fun outcome => .bind (.note hI.rows _) fun _ => ?_
    cases outcome with
    | ok result => exact .pure _
    | error e =>
      dsimp only
      split
      · exact .pure _
      · exact .throw _
  have hfinish : ∀ receipt attempt key result, Upholds I
      (ExecutionSupervisor.finalize host contract.operation receipt attempt key result) := by
    intro receipt attempt key result
    refine .bind (.bind (.now hI.rows host) fun _ => .bind (.newId hI.rows host) fun _ =>
      .bind (.ofExcept _) fun _ => .bind (.newId hI.rows host) fun _ => .bind (.ofExcept _) fun _ =>
      .pure _) fun judged =>
      .bind (.now hI.rows host) fun _ => .bind (.withUow hframed (.bind
        (hrefer _ _ _ ⟨fun _ => rfl, fun _ => rfl, fun _ => rfl⟩) fun _ => .bind
        (hsave _ ⟨fun _ => rfl, fun _ => rfl, fun _ => rfl⟩) fun _ => .bind
        (hrefer _ _ _ ⟨fun _ => rfl, fun _ => rfl, fun _ => rfl⟩) fun _ => .bind
        (upholds_writeChecked hI _ _ ⟨fun _ => rfl, fun _ => rfl, fun _ => rfl⟩) fun _ =>
        hkeyed _ _ fun key => ?_)) fun _ => .pure _
    exact .bind (.now hI.rows host) fun _ => .bind (.query _) fun _ =>
      upholds_write hI ⟨fun _ => rfl, fun _ => rfl, fun _ => rfl⟩
  exact .bind hvalidate fun _ => .bind (.ofExcept _) fun adapter => .bind (hkeyed _ _ hreserve)
    fun _ => .bind (.bind (.now hI.rows host) fun _ => .bind (.probe host) fun _ =>
      .bind (.ofExcept _) fun _ => .pure _) fun _ => .bind hadmit fun admitted =>
    .bind (hopen _ _) fun rows => .bind (.bind (.probe host) fun _ => .bind (.ofExcept _) fun _ =>
      .bind (.now hI.rows host) fun _ => .bind (.withUow hframed
        (hrefer _ _ _ ⟨fun _ => rfl, fun _ => rfl, fun _ => rfl⟩)) fun _ => .pure _) fun marked =>
        .bind (hinvoke _ _ _ _ _) fun result => hfinish _ _ _ _

/-- INTERNAL: what follows the supervisor's answer.
SOURCE: execution/service.py:342-471 -/
theorem upholds_settle (hhalt : ∀ taskId, may taskId "security_halt")
    (hexecuted : ∀ taskId outcome, may taskId (advanceEventByOutcome outcome)) (service : ExecutionService)
    (task : Task) (request : ToolRequest) (supervision : SupervisionResult) :
    Upholds I (service.settle host task request supervision) := by
  refine .bind (.ofExcept _) fun outcome => .bind (upholds_scanOutput hI hhalt _ task _ _)
    fun scan => .bind ?_ fun response => .bind (.withUow hI.toFramed ?_) fun _ => .pure _
  · unfold ExecutionService.screen
    split
    · exact .bind (upholds_audit hI _) fun _ => .pure _
    · exact .pure _
  · refine .bind (.newId hI.rows host) fun _ => .bind
      (upholds_writeChecked hI _ _ ⟨fun _ => rfl, fun _ => rfl, fun _ => rfl⟩) fun _ =>
      .bind (upholds_audit hI _) fun _ => .bind (.emit hI.rows _ _ _ _ _) fun _ =>
      .bind ?_ fun _ => upholds_advance hI _ (hexecuted _ outcome)
    unfold ExecutionService.consume
    split
    · refine .bind (.query _) fun auths => ?_
      split
      · exact .pure _
      · unfold ExecutionService.markUsed
        split
        · exact .bind (.now hI.rows host) fun _ =>
            upholds_writeChecked hI _ _ ⟨fun _ => rfl, fun _ => rfl, fun _ => rfl⟩
        · exact .pure _
    · exact .pure _

/-- INTERNAL: a whole execution. -/
theorem upholds_execute_service (hhalt : ∀ taskId, may taskId "security_halt")
    (hexecuted : ∀ taskId outcome, may taskId (advanceEventByOutcome outcome)) (service : ExecutionService)
    (task : Task) (request : ToolRequest) : Upholds I (service.execute host task request) := by
  unfold ExecutionService.execute
  split
  · exact .bind (upholds_prepare hI hhalt service task request) fun contract =>
      .bind (upholds_supervise hI _ contract) fun supervision =>
      upholds_settle hI hhalt hexecuted service task request supervision
  · exact .throw _

end Services

/-! ## Decision, verification, recovery -/

section Services

variable {host : Host} {may : String → String → Prop} {I : World → Prop} (hI : Lasting host may I)

include hI

/-- INTERNAL: authorizing.
SOURCE: decision/service.py:118-315 -/
theorem upholds_evaluateAndAuthorize (hrun : ∀ taskId, may taskId "authorize_and_run") (service : DecisionService)
    (task : Task) (request : AuthorizationRequest) :
    Upholds I (service.evaluateAndAuthorize host task request) := by
  have hframed := hI.toFramed
  have hresolve : ∀ decision assessment, Upholds I
      (DecisionService.resolveAuthorization host task decision assessment request) := by
    intro decision assessment
    have hgrant : ∀ binding expiresAt grantedBy explicit, Upholds I
        (DecisionService.grant host task binding expiresAt grantedBy explicit) :=
      fun _ _ _ _ => .bind (.newId hI.rows host) fun _ => .pure _
    refine .bind ?_ fun plan => .bind (.get _) fun nonce => .bind (.now hI.rows host) fun at_ => ?_
    · unfold DecisionService.resolvedPlan
      split
      · exact .pure _
      · split
        · exact .query _
        · exact .pure _
    · unfold DecisionService.decide
      split
      · exact hgrant _ _ _ _
      · split
        · exact hgrant _ _ _ _
        · split
          · exact hgrant _ _ _ _
          · exact .bind (.withUow hframed (upholds_audit hI _)) fun _ => .throw _
  have hauthorize : ∀ verdict, Upholds I (service.authorize host task request verdict) := by
    refine fun verdict => .bind (.newId hI.rows host) fun _ => .bind (.newId hI.rows host) fun _ =>
      .bind (hresolve _ _) fun _ => .bind (.withUow hframed ?_) fun _ => .pure _
    have hchecked : ∀ holds message {statement : Tables → Tables}, Elsewhere statement →
        Upholds I (withUow (executeChecked holds message statement)) :=
      fun _ _ {_} h => upholds_writeChecked hI _ _ h
    exact .bind (hchecked _ _ ⟨fun _ => rfl, fun _ => rfl, fun _ => rfl⟩) fun _ =>
      .bind (hchecked _ _ ⟨fun _ => rfl, fun _ => rfl, fun _ => rfl⟩) fun _ =>
      .bind (hchecked _ _ ⟨fun _ => rfl, fun _ => rfl, fun _ => rfl⟩) fun _ =>
      .bind (upholds_audit hI _) fun _ => .bind (upholds_audit hI _) fun _ =>
      .bind (upholds_audit hI _) fun _ => upholds_advance hI _ (hrun _)
  unfold DecisionService.evaluateAndAuthorize
  split
  · exact .bind (.withUow hframed (upholds_audit hI _)) fun _ => .throw _
  · exact hauthorize _

/-- INTERNAL: verifying.
SOURCE: verification/service.py:84-149 -/
theorem upholds_verify (hverified : ∀ taskId verified moreSteps,
    may taskId (VerificationService.eventOf verified moreSteps)) (service : VerificationService)
    (task : Task) (moreSteps : Bool) : Upholds I (service.verify host task moreSteps) := by
  unfold VerificationService.verify
  split
  · refine .bind (.query _) fun record => ?_
    cases record with
    | none => exact .throw _
    | some record =>
      exact .bind (.get _) fun _ => .bind (.ofExcept _) fun outcome =>
        .bind (.newId hI.rows host) fun _ => .bind (.withUow hI.toFramed (.bind
          (upholds_writeChecked hI _ _ ⟨fun _ => rfl, fun _ => rfl, fun _ => rfl⟩) fun _ =>
          .bind (upholds_audit hI _) fun _ => upholds_advance hI _ (hverified _ _ _))) fun _ => .pure _
  · exact .throw _

omit hI in
/-- INTERNAL: the authority of a recovery is only read. -/
theorem upholds_authorizeRecovery {I : World → Prop} (hI : OfRows I) (service : RecoveryService)
    (task : Task) (operation : String) (attemptsMade : ℕ) :
    Upholds I (service.authorize host task operation attemptsMade) := by
  refine .bind (.bind (.bind (.query _) fun decision => ?_) fun _ => .bind (.now hI host)
    fun _ => .ofExcept _) fun _ => .bind (.now hI host) fun _ => .bind (.ofExcept _) fun _ => .pure _
  cases decision with
  | none => exact .throw _
  | some decision =>
    refine .bind (.query _) fun auths => ?_
    split
    · exact .throw _
    · exact .pure _

/-- INTERNAL: a recovery is planned. -/
theorem upholds_planRecovery (service : RecoveryService) (task : Task) :
    Upholds I (service.planRecovery host task) := by
  unfold RecoveryService.planRecovery
  split
  · refine .bind (.query _) fun execution => ?_
    cases execution with
    | none => exact .throw _
    | some execution =>
      exact .bind (.query _) fun _ => .bind (.query _) fun _ => .bind (upholds_audit hI _) fun _ =>
        .pure _
  · exact .throw _

/-- INTERNAL: an attempt saved in a block of its own. -/
theorem sat_saveAttempt_upheld {attempt : RecoveryAttempt} {w : World} (hw : I w)
    (hput : ∀ t : World, I t → t.working = w.working → w.nextId ≤ t.nextId →
      I { t with working := withAttempt attempt t.working }) :
    (RecoveryAttemptRepository.save attempt).Sat (fun a b => I b ∧ Commits a b) (fun _ t => I t)
      w := by
  have hframed := hI.toFramed
  have henter := hframed.enter hw
  refine sat_uow.mpr ⟨⟨henter, .inl rfl⟩, ?_⟩
  have hkept : I (if Table.has RecoveryAttempt.id w.working.recoveryAttempts attempt.id ||
      w.working.hasTask attempt.taskId then
        { w.enter with working := withAttempt attempt w.enter.working }
      else w.enter) := by
    split
    · exact hput _ henter rfl le_rfl
    · exact henter
  refine (Program.sat_bind _ _).mpr ⟨⟨hkept, .inl ?_⟩, ?_⟩
  · show (if _ then _ else _ : World).committed = _
    split <;> rfl
  · show (if (Table.has RecoveryAttempt.id w.working.recoveryAttempts attempt.id ||
      w.working.hasTask attempt.taskId) = true then pure () else throw _ : Proc Unit).Sat _ _ _
    split
    · exact ⟨⟨hframed.exit true hkept, commits_exit true _⟩, hframed.exit true hkept⟩
    · exact ⟨⟨hframed.exit false hkept, commits_exit false _⟩, hframed.exit false hkept⟩

/-- INTERNAL: an attempt under an id that was drawn for it.
SOURCE: recovery/service.py:243-270 -/
theorem upholds_recordAttempt {task : Task} (hbegins : Begins host I task.id) (attemptNumber : ℕ)
    (delaySeconds : PyFloat) (strategy : RecoveryStrategy) (authority : RecoveryAuthority) :
    Upholds I (withUow do
      let attemptId ← newId host
      RecoveryService.writeAttempt host task
        { id := attemptId
          taskId := task.id
          attemptNumber := attemptNumber
          delaySeconds := delaySeconds } strategy authority) := by
  refine .withUow hI.toFramed fun w hw => ?_
  have hdrawn : I { w with nextId := w.nextId + 1 } := hI.rows hw rfl rfl (Nat.le_succ _)
  rw [Program.sat_bind, sat_newId, Program.then_ok]
  refine ⟨⟨hdrawn, .inl rfl⟩, ?_⟩
  unfold RecoveryService.writeAttempt
  rw [Program.sat_bind]
  refine (sat_saveAttempt_upheld hI hdrawn fun t ht _ hnext => ?_).post fun r t ht => ?_
  · exact hbegins ht (n := w.nextId) (Nat.lt_of_succ_le hnext) rfl rfl
  · cases r with
    | ok _ => exact upholds_audit hI _ t ht
    | error e => exact ht

/-- INTERNAL: `begin_recovery` after the sweep.
SOURCE: recovery/service.py:209-277 -/
theorem upholds_recoverFailed {task : Task} (hbegins : Begins host I task.id)
    (hretry : may task.id "retry") (hhalt : may task.id "security_halt") (service : RecoveryService) :
    Upholds I (service.recoverFailed host task) := by
  refine .bind (.query _) fun previous => .bind (upholds_authorizeRecovery hI.rows service task _ _)
    fun authority => ?_
  split
  · refine .bind (upholds_planRecovery hI service task) fun decision => ?_
    unfold RecoveryService.follow
    split
    · exact upholds_advance hI _ hhalt
    · exact .throw _
    · exact .bind (.get _) fun _ => .bind (upholds_recordAttempt hI hbegins _ _ _ _) fun _ =>
        upholds_advance hI _ hretry
  · exact .throw _

/-- INTERNAL: the attempt that is resolved was read in the same call.
SOURCE: recovery/service.py:277-331 -/
theorem upholds_resolveRecovery (hresolved : ∀ taskId, ∀ restored : Bool,
    may taskId (if restored then "recovered" else "recovery_failed")) (service : RecoveryService)
    (task : Task) (compensator : Compensator) :
    Upholds I (service.resolveRecovery host task compensator) := by
  have hframed := hI.toFramed
  unfold RecoveryService.resolveRecovery
  split
  · intro w hw
    unfold RecoveryService.resolveLatest RecoveryAttemptRepository.getLatestByTask
    rw [Program.sat_bind, sat_query, Program.then_ok]
    refine ⟨⟨hw, .inl rfl⟩, ?_⟩
    split
    · exact hw
    next attempt hlatest =>
    have hin : attempt ∈ w.working.recoveryAttempts :=
      (List.mem_filter.mp ((List.mem_insertionSort _).mp (List.mem_of_head? hlatest))).1
    have hrows : OfRows fun t => I t ∧ t.working = w.working :=
      fun h hworking hcommitted hnext => ⟨hI.rows h.1 hworking hcommitted hnext, hworking.trans h.2⟩
    -- the authority is read without a write, so the attempt is still there when it is saved
    unfold RecoveryService.resolveAttempt
    rw [Program.sat_bind]
    refine ((upholds_authorizeRecovery hrows service task _ _) w ⟨hw, rfl⟩).mono
      (fun _ _ h => ⟨h.1.1, h.2⟩) fun r t ht => ?_
    cases r with
    | error e => exact ht.1
    | ok authority =>
      refine ⟨⟨ht.1, .inl rfl⟩, ?_⟩
      show ((Program.ofExcept _ : Proc CompensationOutcome) >>= _).Sat _ _ _
      rw [Program.sat_bind, Program.sat_ofExcept]
      cases compensator task t.ticks with
      | error e => exact ht.1
      | ok outcome =>
        have hbody : (RecoveryService.writeResolution host task attempt outcome).Sat
            (fun a b => I b ∧ Commits a b) (fun _ t => I t) t.enter := by
          unfold RecoveryService.writeResolution
          rw [Program.sat_bind]
          refine (sat_saveAttempt_upheld hI (hI.toFramed.enter ht.1) fun u hu hworking _ => ?_).post
            fun r u hu => ?_
          · exact hI.resolved attempt hu (hworking ▸ ht.2 ▸ hin) rfl rfl rfl
          · cases r with
            | ok _ =>
              exact Upholds.bind (upholds_audit hI _) (fun _ => upholds_advance hI _ (hresolved _ _)) u hu
            | error e => exact hu
        refine sat_uow.mpr ⟨⟨hI.toFramed.enter ht.1, .inl rfl⟩, hbody.post fun r u hu => ?_⟩
        exact ⟨⟨hI.toFramed.exit _ hu, commits_exit _ u⟩, hI.toFramed.exit _ hu⟩
  · exact .throw _

/-- INTERNAL: a task is declared stable. -/
theorem upholds_stabilize (hstabilized : ∀ taskId, may taskId "stabilized") (task : Task) :
    Upholds I (RecoveryService.stabilize host task) := by
  unfold RecoveryService.stabilize
  split
  · exact .withUow hI.toFramed (.bind (upholds_audit hI _) fun _ => upholds_advance hI _ (hstabilized _))
  · exact .throw _

/-- INTERNAL: a blocked task is resumed or cancelled. -/
theorem upholds_resolveBlocked (hunblock : ∀ taskId, ∀ resume : Bool,
    may taskId (if resume then "unblock" else "cancel"))
    (service : RecoveryService) (task : Task) (resume : Bool) :
    Upholds I (service.resolveBlocked host task resume) := by
  unfold RecoveryService.resolveBlocked
  split
  · exact .bind (upholds_authorizeRecovery hI.rows service task _ _) fun _ =>
      .bind (upholds_audit hI _) fun _ => upholds_advance hI _ (hunblock _ resume)
  · exact .throw _

/-- INTERNAL: a stuck receipt is finalized in the app plane.
SOURCE: app/supervisor.py:317-390 -/
theorem upholds_reconcileReceipt (sup : ExecutionSupervisor) (receiptId : String) :
    Upholds I (sup.reconcileReceipt host receiptId) := by
  refine .bind (.query _) fun found => ?_
  cases found with
  | none => exact .throw _
  | some receipt =>
    refine .bind (.query _) fun attempt => ?_
    split
    · exact .pure _
    · refine .bind (.probe host) fun probes => .bind (.ofExcept _) fun observation =>
        .bind (.now hI.rows host) fun at_ => .bind (.newId hI.rows host) fun _ =>
        .bind (.newId hI.rows host) fun _ => .bind (.withUow hI.toFramed (.bind ?_ fun _ =>
        .bind (upholds_save hI _ ⟨fun _ => rfl, fun _ => rfl, fun _ => rfl⟩) fun _ =>
        upholds_write hI ⟨fun _ => rfl, fun _ => rfl, fun _ => rfl⟩)) fun _ => .pure _
      cases attempt with
      | none => exact .pure _
      | some attempt => exact upholds_saveChecked hI _ _ _ ⟨fun _ => rfl, fun _ => rfl, fun _ => rfl⟩

/-- INTERNAL: the sweep over the receipts. -/
theorem upholds_reconcileStuck (sup : ExecutionSupervisor) :
    Upholds I (sup.reconcileStuck host) := by
  refine .bind (.query _) fun receipts => ?_
  induction receipts with
  | nil => exact .pure _
  | cons receipt rest ih =>
    exact .bind (upholds_reconcileReceipt hI sup receipt.id) fun _ => .bind ih fun _ => .pure _

/-- INTERNAL: the sweep of the app plane, with its audit rows.
SOURCE: recovery/service.py:387-411 -/
theorem upholds_reconcileAppPlane (service : RecoveryService) :
    Upholds I (service.reconcileAppPlane host) := by
  refine .bind (upholds_reconcileStuck hI _) fun results => .bind (.withUow hI.toFramed ?_)
    fun _ => .pure _
  induction results with
  | nil => exact .pure _
  | cons item rest ih =>
    refine .bind ?_ fun _ => ih
    unfold RecoveryService.auditItem
    split
    · exact .pure _
    · exact upholds_audit hI _

/-- INTERNAL: a recovery is begun. -/
theorem upholds_beginRecovery {given : Task} (hbegins : Begins host I given.id)
    (hretry : may given.id "retry") (hhalt : may given.id "security_halt")
    (service : RecoveryService) : Upholds I (service.beginRecovery host given) := by
  refine .bind (upholds_reconcileAppPlane hI service) fun _ w hw => ?_
  refine sat_getTask_upheld given.id hw fun task _ hid => ?_
  have hrecover : Upholds I (if task.state = .failed then service.recoverFailed host task
      else throw (.taskNotFailed task.id task.state)) := by
    split
    · rw [← hid] at hbegins hretry hhalt
      exact upholds_recoverFailed hI hbegins hretry hhalt service
    · exact .throw _
  exact hrecover w hw

/-- INTERNAL: the tasks a shutdown left behind.
SOURCE: recovery/service.py:412-445 -/
theorem upholds_reconcileStrandedTasks
    (hstranded : ∀ taskId state event, RecoveryService.strandedEvent state = some event →
      may taskId event)
    (service : RecoveryService) : Upholds I (service.reconcileStrandedTasks host) := by
  have hlist : Upholds I TaskRepository.listTransientTasks := .query _
  refine .bind (upholds_reconcileAppPlane hI service) fun _ => .bind hlist fun tasks => ?_
  induction tasks with
  | nil => exact .pure _
  | cons task rest ih =>
    unfold RecoveryService.settleAll
    split
    · exact ih
    next event hevent =>
      exact .bind (.bind (upholds_advance hI _ (hstranded _ _ _ hevent)) fun _ =>
        .bind (upholds_audit hI _) fun _ => .pure _) fun _ => .bind ih fun _ => .pure _

end Services

end Shea.Analysis
