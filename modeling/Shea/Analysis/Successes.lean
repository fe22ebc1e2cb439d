import Shea.Analysis.Registers
import Shea.Analysis.Rejections

/-!
# Calls that come to their end

With the registers in order a save of a task, an audit entry and a legal move are never refused: the
ids they insert are new and what they write is JSON. `Succeeds` says that a call returns, what it
leaves, and that the registers are still in order, so that the next call does not fail either;
`Raises` is its counterpart for a call that raises. Both hold whatever the nesting depth, and are about
what the connection reads; with no block open, that is what is committed.
-/

set_option autoImplicit false

namespace Shea.Analysis

open Shea.Computation Shea.Model

/-! ## The rules -/

/-- The registers of what the connection reads are in order, and with no block open it is committed. -/
structure Ordered (host : Host) (w : World) : Prop where
  registered : Registered host w.nextId w.working
  settled : w.depth = 0 → w.committed = w.working

/-- What a call leaves that has come to its end, from the state it started in. -/
structure Sequel (host : Host) (w t : World) : Prop extends Ordered host t where
  depth : t.depth = w.depth
  nextId : w.nextId ≤ t.nextId
  kept : 0 < w.depth → t.committed = w.committed

/-- The call returns, with a value and rows like these. -/
def Succeeds {α : Type} (host : Host) (p : Proc α) (Q : α → Tables → Prop) (w : World) : Prop :=
  ∃ a t, p.run w = (.ok a, t) ∧ Sequel host w t ∧ Q a t.working

/-- The call raises the error, with rows like these. -/
def Raises {α : Type} (host : Host) (p : Proc α) (e : Err) (Q : Tables → Prop) (w : World) : Prop :=
  ∃ t, p.run w = (.error e, t) ∧ Sequel host w t ∧ Q t.working

section Rules

variable {α β : Type} {host : Host} {w t u : World}

/-- INTERNAL: the services keep their tables in order. -/
theorem Ordered.of_services (h : History (services host) {} w) : Ordered host w := by
  have hidle := (resting_of_services h).idle
  refine ⟨?_, fun _ => hidle.working.symm⟩
  rw [hidle.working]
  exact registered_of_services h

/-- INTERNAL: with no block open there is no transaction. -/
theorem Ordered.idle (h : Ordered host w) (hdepth : w.depth = 0) : w.Idle :=
  ⟨hdepth, (h.settled hdepth).symm⟩

/-- INTERNAL: a state follows itself. -/
theorem Ordered.sequel (h : Ordered host w) : Sequel host w w := ⟨h, rfl, le_rfl, fun _ => rfl⟩

/-- INTERNAL: what follows one that follows. -/
theorem Sequel.trans (h : Sequel host w t) (h' : Sequel host t u) : Sequel host w u := by
  refine ⟨h'.toOrdered, h'.depth.trans h.depth, h.nextId.trans h'.nextId, fun hpos => ?_⟩
  exact (h'.kept (h.depth ▸ hpos)).trans (h.kept hpos)

/-- INTERNAL: a step that writes nothing. -/
theorem Ordered.sequel_of_eq (h : Ordered host w) (hworking : t.working = w.working)
    (hcommitted : t.committed = w.committed) (hdepth : t.depth = w.depth)
    (hnext : w.nextId ≤ t.nextId) : Sequel host w t := by
  refine ⟨⟨?_, fun hzero => ?_⟩, hdepth, hnext, fun _ => hcommitted⟩
  · rw [hworking]
    exact h.registered.mono hnext
  · rw [hcommitted, hworking]
    exact h.settled (hdepth ▸ hzero)

/-- INTERNAL: inside a block, the registers are what they were. -/
theorem Ordered.enter (h : Ordered host w) : Ordered host w.enter :=
  ⟨h.registered, fun hzero => absurd hzero (Nat.succ_ne_zero _)⟩

/-- INTERNAL: a clean exit keeps the rows, and commits them when it is the outermost one. -/
theorem Sequel.exit (h : Sequel host w.enter t) :
    Sequel host w (t.exit true) ∧ (t.exit true).working = t.working := by
  have hdepth : t.depth - 1 = w.depth := by
    rw [h.depth]
    rfl
  unfold World.exit
  by_cases hzero : w.depth = 0
  · rw [if_neg (by omega), if_pos rfl]
    exact ⟨⟨⟨h.registered, fun _ => rfl⟩, hdepth, h.nextId, fun hpos => absurd hpos (by omega)⟩, rfl⟩
  · rw [if_pos (by omega)]
    refine ⟨⟨⟨h.registered, fun hnow => ?_⟩, hdepth, h.nextId, fun _ => ?_⟩, rfl⟩
    · exact absurd (hdepth.symm.trans hnow) hzero
    · exact h.kept (Nat.succ_pos _)

/-- INTERNAL: a value that is returned. -/
theorem Succeeds.pure {Q : α → Tables → Prop} {a : α} (hw : Ordered host w) (h : Q a w.working) :
    Succeeds host (Pure.pure a) Q w := ⟨a, w, rfl, hw.sequel, h⟩

/-- INTERNAL: a query. -/
theorem Succeeds.query {γ : Type} {Q : γ → Tables → Prop} {view : Tables → γ} (hw : Ordered host w)
    (h : Q (view w.working) w.working) : Succeeds host (Model.query view) Q w :=
  ⟨_, w, rfl, hw.sequel, h⟩

/-- INTERNAL: a look at the state. -/
theorem Succeeds.get {γ : Type} {Q : γ → Tables → Prop} {view : World → γ} (hw : Ordered host w)
    (h : Q (view w) w.working) : Succeeds host (Program.get view) Q w :=
  ⟨_, w, rfl, hw.sequel, h⟩

/-- INTERNAL: one program after the other. -/
theorem Succeeds.bind {p : Proc α} {f : α → Proc β} {Q : α → Tables → Prop} {Q' : β → Tables → Prop}
    (hp : Succeeds host p Q w)
    (hf : ∀ a t, Sequel host w t → Q a t.working → Succeeds host (f a) Q' t) :
    Succeeds host (p >>= f) Q' w := by
  obtain ⟨a, t, hrun, hsequel, hQ⟩ := hp
  obtain ⟨b, u, hrun', hsequel', hQ'⟩ := hf a t hsequel hQ
  refine ⟨b, u, ?_, hsequel.trans hsequel', hQ'⟩
  rw [Program.run_bind, hrun]
  exact hrun'

/-- INTERNAL: the second of which raises. -/
theorem Succeeds.bind_raises {p : Proc α} {f : α → Proc β} {e : Err} {Q : α → Tables → Prop}
    {Q' : Tables → Prop} (hp : Succeeds host p Q w)
    (hf : ∀ a t, Sequel host w t → Q a t.working → Raises host (f a) e Q' t) :
    Raises host (p >>= f) e Q' w := by
  obtain ⟨a, t, hrun, hsequel, hQ⟩ := hp
  obtain ⟨u, hrun', hsequel', hQ'⟩ := hf a t hsequel hQ
  refine ⟨u, ?_, hsequel.trans hsequel', hQ'⟩
  rw [Program.run_bind, hrun]
  exact hrun'

/-- INTERNAL: what follows an error never runs. -/
theorem Raises.bind {p : Proc α} {f : α → Proc β} {e : Err} {Q : Tables → Prop}
    (hp : Raises host p e Q w) : Raises host (p >>= f) e Q w := by
  obtain ⟨t, hrun, hsequel, hQ⟩ := hp
  refine ⟨t, ?_, hsequel, hQ⟩
  rw [Program.run_bind, hrun]

/-- INTERNAL: a call that raises after one that returned. -/
theorem Raises.after {p : Proc α} {f : α → Proc β} {a : α} {e : Err} {Q : Tables → Prop}
    (hrun : p.run w = (.ok a, t)) (hsequel : Sequel host w t) (h : Raises host (f a) e Q t) :
    Raises host (p >>= f) e Q w := by
  obtain ⟨u, hrun', hsequel', hQ⟩ := h
  refine ⟨u, ?_, hsequel.trans hsequel', hQ⟩
  rw [Program.run_bind, hrun]
  exact hrun'

/-- INTERNAL: an error that is raised. -/
theorem Raises.throw {e : Err} {Q : Tables → Prop} (hw : Ordered host w) (h : Q w.working) :
    Raises host (MonadExcept.throw e : Proc α) e Q w := ⟨w, rfl, hw.sequel, h⟩

/-- INTERNAL: less is known at the end. -/
theorem Succeeds.mono {p : Proc α} {Q Q' : α → Tables → Prop} (h : Succeeds host p Q w)
    (hQ : ∀ a rows, Q a rows → Q' a rows) : Succeeds host p Q' w := by
  obtain ⟨a, t, hrun, hsequel, hend⟩ := h
  exact ⟨a, t, hrun, hsequel, hQ _ _ hend⟩

/-- The rule for a block.
SOURCE: persistence/sqlite/unit_of_work.py:32-49 -/
theorem Succeeds.withUow {body : Proc α} {Q : α → Tables → Prop}
    (h : Succeeds host body Q w.enter) : Succeeds host (Model.withUow body) Q w := by
  obtain ⟨a, t, hrun, hsequel, hQ⟩ := h
  obtain ⟨hexit, hrows⟩ := hsequel.exit
  refine ⟨a, t.exit true, ?_, hexit, hrows ▸ hQ⟩
  rw [run_withUow, hrun]

/-- INTERNAL: the clock. -/
theorem succeeds_now (hw : Ordered host w) {Q : Time → Tables → Prop}
    (h : Q (host.clock w.ticks) w.working) : Succeeds host (now host) Q w :=
  ⟨_, _, rfl, hw.sequel_of_eq rfl rfl rfl le_rfl, h⟩

/-- INTERNAL: a new id. -/
theorem succeeds_newId (hw : Ordered host w) {Q : String → Tables → Prop}
    (h : Q (host.newId w.nextId) w.working) : Succeeds host (newId host) Q w :=
  ⟨_, _, rfl, hw.sequel_of_eq rfl rfl rfl (Nat.le_succ _), h⟩

/-- INTERNAL: a new id, and what is done with it. -/
theorem succeeds_drawn (hw : Ordered host w) {f : String → Proc β} {Q : β → Tables → Prop}
    (h : Ordered host { w with nextId := w.nextId + 1 } →
      Succeeds host (f (host.newId w.nextId)) Q { w with nextId := w.nextId + 1 }) :
    Succeeds host (newId host >>= f) Q w := by
  have hdrawn : Sequel host w { w with nextId := w.nextId + 1 } :=
    hw.sequel_of_eq rfl rfl rfl (Nat.le_succ _)
  obtain ⟨b, t, hrun, hsequel, hQ⟩ := h hdrawn.toOrdered
  exact ⟨b, t, hrun, hdrawn.trans hsequel, hQ⟩

/-- INTERNAL: a published event. -/
theorem succeeds_emit (hw : Ordered host w) (source eventType : String) (payload : Dict)
    (correlationId : Option String) :
    Succeeds host (emit host source eventType payload correlationId)
      (fun _ rows => rows = w.working) w :=
  ⟨(), _, rfl, hw.sequel_of_eq rfl rfl rfl (Nat.le_succ _), rfl⟩

end Rules

/-! ## Statements -/

section Statements

variable {host : Host} {w : World}

/-- INTERNAL: a statement that leaves the registers in order. -/
theorem succeeds_execute (hdepth : 0 < w.depth) {statement : Tables → Tables}
    (h : Registered host w.nextId (statement w.working)) :
    Succeeds host (execute statement) (fun _ rows => rows = statement w.working) w :=
  ⟨(), _, rfl, ⟨⟨h, fun hzero => absurd hzero (Nat.ne_of_gt hdepth)⟩, rfl, le_rfl, fun _ => rfl⟩, rfl⟩

/-- INTERNAL: a statement under a constraint that holds. -/
theorem succeeds_executeChecked (hdepth : 0 < w.depth)
    {holds : Tables → Bool} (message : String) {statement : Tables → Tables}
    (hholds : holds w.working = true) (h : Registered host w.nextId (statement w.working)) :
    Succeeds host (executeChecked holds message statement)
      (fun _ rows => rows = statement w.working) w := by
  obtain ⟨u, t, hrun, hsequel, hrows⟩ := succeeds_execute hdepth h
  refine ⟨u, t, ?_, hsequel, hrows⟩
  rw [run_executeChecked, if_pos hholds]
  exact hrun

/-- INTERNAL: a statement on another table leaves the registers alone. -/
theorem Registered.elsewhere {n : ℕ} {t : Tables} (h : Registered host n t)
    {statement : Tables → Tables} (hfar : Elsewhere statement) : Registered host n (statement t) := by
  refine ⟨?_, ?_, ?_, ?_⟩
  · exact hfar.auditEvents t ▸ h.auditEvents
  · exact hfar.recoveryAttempts t ▸ h.recoveryAttempts
  · exact hfar.tasks t ▸ h.tasks
  · exact hfar.tasks t ▸ h.snapshots

/-- INTERNAL: a save under a constraint, in a block of its own. -/
theorem succeeds_writeChecked {holds : Tables → Bool} (message : String)
    (statement : Tables → Tables) (hholds : holds w.working = true)
    (h : Registered host w.nextId (statement w.working)) :
    Succeeds host (withUow (executeChecked holds message statement))
      (fun _ rows => rows = statement w.working) w :=
  .withUow (succeeds_executeChecked (Nat.succ_pos _) message hholds h)

/-- INTERNAL: the JSON check of what is JSON. -/
theorem succeeds_requireSerializable (hw : Ordered host w) {d : Dict}
    (hd : (Value.dict d).serializable = true) :
    Succeeds host (requireSerializable d) (fun _ rows => rows = w.working) w := by
  unfold requireSerializable
  rw [if_pos hd]
  exact .pure hw rfl

/-- An audit entry is recorded as one row.
SOURCE: audit/recorder.py, persistence/sqlite/audit_sink.py -/
theorem succeeds_audit (hw : Ordered host w) {entry : AuditEntry}
    (hd : (Value.dict entry.metadata).serializable = true) :
    Succeeds host (audit host entry)
      (fun _ rows => rows = withAudit (auditRow host entry w) w.working) w := by
  let drawn : World := { w with nextId := w.nextId + 1, ticks := w.ticks + 1 }
  have hdrawn : Sequel host w drawn := hw.sequel_of_eq rfl rfl rfl (Nat.le_succ _)
  have hnew : (!w.working.auditEvents.any (·.eventId = host.newId w.nextId)) = true := by
    rw [Bool.not_eq_true', List.any_eq_false]
    intro row hrow heq
    exact (hw.registered.auditEvents row hrow).ne le_rfl (of_decide_eq_true heq)
  have hregistered : Registered host (w.nextId + 1)
      (withAudit (auditRow host entry w) w.working) :=
    (hw.registered.mono (Nat.le_succ _)).record ⟨w.nextId, Nat.lt_succ_self _, rfl⟩
  have hrecord : Succeeds host (AuditSink.record host.py
      (entry.event (host.newId w.nextId) (host.clock w.ticks)))
      (fun _ rows => rows = withAudit (auditRow host entry w) w.working) drawn := by
    refine .withUow ((succeeds_requireSerializable hdrawn.enter hd).bind fun _ t ht hrows => ?_)
    have hworking : t.working = w.working := hrows
    have hnext : w.nextId + 1 ≤ t.nextId := ht.nextId
    refine (succeeds_executeChecked (ht.depth ▸ Nat.succ_pos _) _ ?_ ?_).mono ?_
    · rw [hworking]
      exact hnew
    · rw [hworking]
      exact hregistered.mono hnext
    · intro _ rows hrows
      rw [hrows, hworking]
      rfl
  obtain ⟨u, t, hrun, hsequel, hrows⟩ := hrecord
  exact ⟨u, t, hrun, hdrawn.trans hsequel, hrows⟩

/-- INTERNAL: a task is saved. -/
theorem succeeds_saveTask (hw : Ordered host w) {task : Task} (hwrites : Rewritable task) :
    Succeeds host (TaskRepository.save task)
      (fun _ rows => rows = TaskRepository.put task w.working) w := by
  refine .withUow ((succeeds_requireSerializable hw.enter hwrites).bind fun _ t ht hrows => ?_)
  have hworking : t.working = w.working := hrows
  refine (succeeds_execute (ht.depth ▸ Nat.succ_pos _) ?_).mono ?_
  · exact ht.registered.putTask hwrites
  · intro _ rows hrows
    rw [hrows, hworking]

/-- A task and its audit entry.
SOURCE: core/orchestrator.py:74-85, 119-131 -/
theorem succeeds_saveAudited (hw : Ordered host w) {task : Task} (hwrites : Rewritable task)
    {entry : AuditEntry} (hd : (Value.dict entry.metadata).serializable = true) :
    Succeeds host (Orchestrator.saveAudited host task entry) (fun _ rows => ∃ v : World,
      v.working = TaskRepository.put task w.working ∧
        rows = withAudit (auditRow host entry v) v.working) w := by
  refine .withUow ((succeeds_saveTask hw.enter hwrites).bind fun _ t ht hrows => ?_)
  exact (succeeds_audit ht.toOrdered hd).mono fun _ rows h => ⟨t, hrows, h⟩

end Statements

/-! ## Moves -/

section Moves

variable {host : Host} {w : World} {taskId : String} {task : Task}

/-- INTERNAL: a stored task is found. -/
theorem succeeds_getTask (hw : Ordered host w)
    (hrow : Table.lookup Task.id w.working.tasks taskId = some task) :
    Succeeds host (Orchestrator.getTask taskId) (fun found rows => found = task ∧ rows = w.working)
      w := by
  refine ⟨task, w, ?_, hw.sequel, rfl, rfl⟩
  unfold Orchestrator.getTask TaskRepository.get
  rw [Program.run_bind, run_query, hrow]
  rfl

/-- The rows after a move: the task in its new state, and the one row that records the move. -/
def MoveRows (task : Task) (event : String) (newState : TaskState) (before rows : Tables) : Prop :=
  ∃ moved row, moved.id = task.id ∧ moved.state = newState ∧
    RecordsMove task.id event task.state newState row ∧
    rows = withAudit row (TaskRepository.put moved before)

/-- A legal move of a stored task is never refused.
SOURCE: core/orchestrator.py:95-140 -/
theorem succeeds_advance (hw : Ordered host w) {event : String} {newState : TaskState}
    (hrow : Table.lookup Task.id w.working.tasks taskId = some task)
    (hnext : nextState task.state event = .ok newState) :
    Succeeds host (Orchestrator.advance host taskId event) (fun moved rows =>
      moved.id = task.id ∧ moved.requestId = task.requestId ∧ moved.state = newState ∧
        MoveRows task event newState w.working rows) w := by
  refine (succeeds_getTask hw hrow).bind fun found t ht hfound => ?_
  obtain ⟨rfl, hworking⟩ := hfound
  rw [hnext]
  refine (succeeds_now ht.toOrdered (Q := fun at_ rows => rows = w.working) hworking).bind
    fun at_ u hu hrows => ?_
  have hwrites : Rewritable found := hw.registered.snapshots found (Table.lookup_mem hrow)
  let moved : Task := { found with state := newState, updatedAt := at_ }
  have hmoved : Rewritable moved := hwrites
  refine (succeeds_saveAudited hu.toOrdered hmoved (by rfl)).bind fun _ v hv hsaved => ?_
  obtain ⟨x, hx, hv'⟩ := hsaved
  refine (succeeds_emit hv.toOrdered _ _ _ _).bind fun _ y hy hemit => ?_
  have hrow' : RecordsMove found.id event found.state newState (auditRow host
      (Orchestrator.transitionEntry moved event found.state newState) x) := ⟨rfl, rfl, rfl, rfl, rfl⟩
  refine .pure hy.toOrdered ⟨rfl, rfl, rfl, moved, _, rfl, rfl, hrow', ?_⟩
  have hx' : x.working = TaskRepository.put moved w.working := by rw [hx, hrows]
  rw [hemit, hv', hx']

/-- An illegal one is audited and raised.
SOURCE: core/orchestrator.py:105-118 -/
theorem raises_advance (hw : Ordered host w) {event : String} {e : Err}
    (hrow : Table.lookup Task.id w.working.tasks taskId = some task)
    (hnext : nextState task.state event = .error e) :
    Raises host (Orchestrator.advance host taskId event) e (fun rows => ∃ row,
      RecordsRejection task.id event row ∧ rows = withAudit row w.working) w := by
  refine (succeeds_getTask hw hrow).bind_raises fun found t ht hfound => ?_
  obtain ⟨rfl, hworking⟩ := hfound
  rw [hnext]
  refine (succeeds_audit ht.toOrdered (by rfl)).bind_raises fun _ u hu hrows => ?_
  have hrejection : RecordsRejection found.id event
      (auditRow host (Orchestrator.rejectionEntry found event) t) := ⟨rfl, rfl, rfl, rfl⟩
  refine .throw hu.toOrdered ⟨_, hrejection, ?_⟩
  rw [hrows, hworking]

end Moves

end Shea.Analysis
