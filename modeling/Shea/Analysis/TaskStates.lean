import Shea.Analysis.UnitOfWork
import Shea.Model.Orchestrator
import Shea.Model.Sample

/-!
# Task states change along the transition table

`Lawful` is what is asked of a single step: whenever the committed state of a task changes, the
change is an edge of the table, and the step that commits it commits one audit row that records it.

`create_task`, `advance` and `attach_plan` take lawful steps only. `cancel_task` does so when it
leaves the task alone, and in no other case: it writes no audit row, and from VERIFYING, RECOVERING
and STABILIZING there is no edge to CANCELLED.
-/

set_option autoImplicit false

namespace Shea.Analysis

open Shea.Computation Shea.Model

/-! ## Audit entries inside and outside transactions -/

section Audit

variable {w : World}

/-- The audit row an entry becomes at the end of the table. -/
def auditRow (host : Host) (entry : AuditEntry) (w : World) : AuditEvent :=
  AuditSink.chained host.py w.working
    (entry.event (host.newId w.nextId) (host.clock w.ticks))

/-- The tables with one more audit row. -/
def withAudit (row : AuditEvent) (t : Tables) : Tables :=
  { t with auditEvents := t.auditEvents ++ [row] }

/-- INTERNAL: an entry is recorded as one row, if its metadata are JSON and its identifier is new.
SOURCE: audit/recorder.py, persistence/sqlite/audit_sink.py -/
theorem run_audit (host : Host) (hw : 0 < w.depth) (entry : AuditEntry) :
    (audit host entry).run w =
      if (Value.dict entry.metadata).serializable then
        if !w.working.auditEvents.any (·.eventId = host.newId w.nextId) then
          (.ok (), { w with
            nextId := w.nextId + 1
            ticks := w.ticks + 1
            working := withAudit (auditRow host entry w) w.working })
        else (.error (.integrityError "UNIQUE constraint failed: audit_events.event_id"),
          { w with nextId := w.nextId + 1, ticks := w.ticks + 1 })
      else (.error (.typeError "Object is not JSON serializable"),
          { w with nextId := w.nextId + 1, ticks := w.ticks + 1 }) := by
  have hrecord := run_withUow_saveChecked
    (w := { w with nextId := w.nextId + 1, ticks := w.ticks + 1 }) hw
    entry.metadata (fun t => !t.auditEvents.any (·.eventId = host.newId w.nextId))
    "UNIQUE constraint failed: audit_events.event_id"
    fun t => withAudit (AuditSink.chained host.py t
      (entry.event (host.newId w.nextId) (host.clock w.ticks))) t
  exact hrecord

/-- INTERNAL: recording is inner. -/
theorem inner_audit (host : Host) (entry : AuditEntry) : Inner (audit host entry) :=
  .bind (.newId host) fun _ => .bind (.now host) fun _ =>
    .withUow (.bind (.requireSerializable _) fun _ => .executeChecked _ _ _)

end Audit

/-! ## Saving a task with its audit entry -/

section Blocks

variable {w : World} {R : World → World → Prop}

/-- INTERNAL: publishing an event is quiet. -/
theorem sat_emit (host : Host) (source eventType : String) (payload : Dict)
    (correlationId : Option String) (hw : w.Idle) (hquiet : ∀ a b, Quiet a b → R a b) :
    (emit host source eventType payload correlationId).Sat R (fun r t => r = .ok () ∧ Calm w t)
      w := by
  unfold emit
  simp only [Program.sat_bind, sat_newId, sat_now, sat_note, Program.then_ok]
  refine ⟨hquiet _ _ (quiet_newId w), hquiet _ _ (quiet_tick _), hquiet _ _ ?_, trivial, ?_, ?_⟩
  · exact ⟨rfl, le_rfl, [_], rfl⟩
  · exact ⟨rfl, Nat.le_succ _, [_], rfl⟩
  · exact ⟨hw.depth, hw.working⟩

/-- INTERNAL: a task and its audit entry are saved by inner programs. -/
theorem inner_saveAudited (task : Task) (host : Host) (entry : AuditEntry) :
    Inner (do TaskRepository.save task; audit host entry) :=
  .bind (.save _ _) fun _ => inner_audit host entry

/-- INTERNAL: what saving a task with its audit entry writes when it comes to its end. -/
theorem run_saveAudited (host : Host) (hw : 0 < w.depth) {task : Task} {entry : AuditEntry} {u : Unit}
    {t : World} (h : (do TaskRepository.save task; audit host entry : Proc Unit).run w = (.ok u, t)) :
    t.nextId = w.nextId + 1 ∧ t.working = withAudit (AuditSink.chained host.py
      (TaskRepository.put task w.working)
      (entry.event (host.newId w.nextId) (host.clock w.ticks)))
      (TaskRepository.put task w.working) := by
  rw [Program.run_bind, TaskRepository.save, run_withUow_save hw] at h
  split at h
  · next r heq =>
    split at heq
    · obtain ⟨-, rfl⟩ := Prod.mk.inj heq
      rw [run_audit host (by exact hw)] at h
      split at h
      · split at h
        · obtain ⟨-, rfl⟩ := Prod.mk.inj h
          exact ⟨rfl, rfl⟩
        · cases h
      · cases h
    · cases heq
  · cases h

/-- The rule for an audit entry by itself, with no transaction open: one commit with one more row, or
nothing.
SOURCE: audit/recorder.py, persistence/sqlite/audit_sink.py -/
theorem sat_audit (host : Host) (entry : AuditEntry) (hw : w.Idle)
    (hquiet : ∀ a b, Quiet a b → R a b) {Q : Except Err Unit → World → Prop}
    (hok : ∀ t, Quiet w t → t.working = withAudit (auditRow host entry w) w.committed →
      R t t.commit ∧ Q (.ok ()) t.commit)
    (herr : ∀ e t, Calm w t → Q (.error e) t) :
    (audit host entry).Sat R Q w := by
  unfold audit
  simp only [Program.sat_bind, sat_newId, sat_now, Program.then_ok]
  refine ⟨hquiet _ _ (quiet_newId w), hquiet _ _ (quiet_tick _), ?_⟩
  have hdrawn : Quiet w { w with nextId := w.nextId + 1, ticks := w.ticks + 1 } :=
    (quiet_newId w).trans (quiet_tick _)
  refine sat_withUow (.bind (.requireSerializable _) fun _ => .executeChecked _ _ _)
    (by exact ⟨hw.depth, hw.working⟩) hquiet ?_ ?_
  · intro u t hrun hq
    refine hok t (hdrawn.trans hq) ?_
    unfold requireSerializable executeChecked at hrun
    split at hrun
    · simp only [Program.run_bind, Program.run_pure, Program.run_act, World.enter] at hrun
      cases hnew : !w.working.auditEvents.any (·.eventId = (entry.event (host.newId w.nextId)
          (host.clock w.ticks)).eventId) with
      | true =>
        simp only [hnew, if_true, Program.run_pure] at hrun
        obtain ⟨-, rfl⟩ := Prod.mk.inj hrun
        rw [← hw.working]
        rfl
      | false => simp [hnew] at hrun
    · simp at hrun
  · intro e t _ hq
    exact herr e _ ⟨⟨hq.committed, (hdrawn.trans hq).nextId, (hdrawn.trans hq).log⟩, t.idle_rollback⟩

/-- The rule for a task saved with its audit entry, with no transaction open: one commit with both,
or nothing.
SOURCE: core/orchestrator.py:74-85, 119-131 -/
theorem sat_saveAudited (host : Host) (task : Task) (entry : AuditEntry) (hw : w.Idle)
    (hquiet : ∀ a b, Quiet a b → R a b) {Q : Except Err Unit → World → Prop}
    (hok : ∀ t, Quiet w t → t.nextId = w.nextId + 1 →
      t.working = withAudit (AuditSink.chained host.py (TaskRepository.put task w.committed)
        (entry.event (host.newId w.nextId) (host.clock w.ticks)))
        (TaskRepository.put task w.committed) → R t t.commit ∧ Q (.ok ()) t.commit)
    (herr : ∀ e t, Calm w t → Q (.error e) t) :
    (Orchestrator.saveAudited host task entry).Sat R Q w := by
  refine sat_withUow (inner_saveAudited task host entry) hw hquiet ?_ ?_
  · intro u t hrun hq
    obtain ⟨hnext, hworking⟩ := run_saveAudited host (Nat.succ_pos _) hrun
    rw [show w.enter.working = w.committed from hw.working] at hworking
    exact hok t hq hnext hworking
  · intro e t _ hq
    exact herr e _ ⟨⟨hq.committed, hq.nextId, hq.log⟩, t.idle_rollback⟩

end Blocks

/-! ## Lawful steps -/

/-- The audit row records that the event moved the task from one state to the other. -/
structure RecordsMove (taskId event : String) (fromState toState : TaskState) (row : AuditEvent) :
    Prop where
  eventType : row.eventType = "task.transition"
  taskId : row.taskId = some taskId
  action : row.action = event
  result : row.result = "success"
  metadata : row.metadata =
    [("from_state", .str fromState.value), ("to_state", .str toState.value)]

/-- The committed row of a task. -/
def taskRow (w : World) (taskId : String) : Option Task :=
  Table.lookup Task.id w.committed.tasks taskId

/-- Every task keeps its row, and a task whose committed state changes has gone along an edge of the
table that the one audit row of the same commit records. -/
def Lawful (a b : World) : Prop :=
  ∀ taskId old, taskRow a taskId = some old → ∃ new, taskRow b taskId = some new ∧
    (new.state = old.state ∨ ∃ event row, nextState old.state event = .ok new.state ∧
      b.committed.auditEvents = a.committed.auditEvents ++ [row] ∧
      RecordsMove taskId event old.state new.state row)

/-- INTERNAL: a quiet step is lawful. -/
theorem Quiet.lawful {a b : World} (h : Quiet a b) : Lawful a b := by
  intro taskId old hold
  exact ⟨old, by rw [taskRow, h.committed]; exact hold, .inl rfl⟩

/-- INTERNAL: saving a task again keeps its id. -/
theorem keepsKey_task : Table.KeepsKey Task.id TaskRepository.merge := fun _ _ => rfl

/-- INTERNAL: what a saved task looks like to the next reader. -/
theorem taskRow_commit {t : World} {committed : Tables} {task : Task} {row : AuditEvent}
    (hw : t.working = withAudit row (TaskRepository.put task committed)) (taskId : String) :
    taskRow t.commit taskId = if task.id = taskId then
        some ((Table.lookup Task.id committed.tasks taskId).elim (TaskRepository.stored task)
          (TaskRepository.merge · (TaskRepository.stored task)))
      else Table.lookup Task.id committed.tasks taskId := by
  have hrow : taskRow t.commit taskId = Table.lookup Task.id
      (Table.upsert Task.id TaskRepository.merge (TaskRepository.stored task) committed.tasks)
      taskId := by
    simp only [taskRow, World.commit, hw]
    rfl
  rw [hrow]
  split
  · next h =>
    subst h
    exact Table.lookup_upsert_self keepsKey_task committed.tasks (TaskRepository.stored task)
  · next h => exact Table.lookup_upsert_of_ne keepsKey_task committed.tasks h

/-- The identifiers of the stored tasks have been drawn. -/
def DrawnTasks (host : Host) (w : World) : Prop :=
  ∀ task ∈ w.committed.tasks, ∃ n < w.nextId, task.id = host.newId n

/-- A lawful step that leaves the identifiers of tasks drawn. -/
def Orderly (host : Host) (a b : World) : Prop :=
  Lawful a b ∧ (DrawnTasks host a → DrawnTasks host b)

section Operations

variable {host : Host} {w : World}

/-- INTERNAL: a quiet step is orderly. -/
theorem Quiet.orderly {a b : World} (h : Quiet a b) : Orderly host a b := by
  refine ⟨h.lawful, fun ha task htask => ?_⟩
  rw [h.committed] at htask
  obtain ⟨n, hn, hid⟩ := ha task htask
  exact ⟨n, hn.trans_le h.nextId, hid⟩

/-- INTERNAL: the commit of a task and its audit row is orderly when the row, if there is one
already, is in the state the task had or is moved along an edge that the audit row records. -/
theorem orderly_commit {t : World} {task : Task} {row : AuditEvent} (hq : Quiet w t)
    (hworking : t.working = withAudit row (TaskRepository.put task w.committed))
    (haudit : ∀ t', (TaskRepository.put task t').auditEvents = t'.auditEvents)
    (hdrawn : ∃ n < t.nextId, task.id = host.newId n)
    (hstate : ∀ old, taskRow w task.id = some old → task.state = old.state ∨
      ∃ event, nextState old.state event = .ok task.state ∧
        RecordsMove task.id event old.state task.state row) :
    Orderly host t t.commit := by
  constructor
  · intro taskId old hold
    have hold' : taskRow w taskId = some old := by rw [taskRow, ← hq.committed]; exact hold
    rw [taskRow_commit hworking]
    split
    · next h =>
      subst h
      rw [show Table.lookup Task.id w.committed.tasks task.id = some old from hold']
      refine ⟨_, rfl, ?_⟩
      rcases hstate old hold' with h | ⟨event, hnext, hrecords⟩
      · exact .inl h
      · refine .inr ⟨event, row, hnext, ?_, hrecords⟩
        simp only [World.commit, hworking, withAudit, haudit, hq.committed]
    · exact ⟨old, hold', .inl rfl⟩
  · intro hd task' htask'
    have hmem : task' ∈ Table.upsert Task.id TaskRepository.merge (TaskRepository.stored task)
        t.committed.tasks := by
      have h : t.commit.committed.tasks = Table.upsert Task.id TaskRepository.merge
          (TaskRepository.stored task) t.committed.tasks := by
        simp only [World.commit, hworking, hq.committed]
        rfl
      exact h ▸ htask'
    rcases Table.mem_upsert hmem with rfl | ⟨old, hold, hid, rfl⟩ | h
    · exact hdrawn
    · obtain ⟨n, hn, he⟩ := hd old hold
      exact ⟨n, hn, he⟩
    · exact hd task' h

/-- INTERNAL: the rule for a task saved with its audit entry, for orderly steps. -/
theorem sat_saveAudited_orderly {task : Task} {entry : AuditEntry} (hw : w.Idle)
    (hdrawn : ∃ n < w.nextId, task.id = host.newId n)
    (hstate : ∀ old row, taskRow w task.id = some old →
      row = AuditSink.chained host.py (TaskRepository.put task w.committed)
        (entry.event (host.newId w.nextId) (host.clock w.ticks)) →
      task.state = old.state ∨ ∃ event, nextState old.state event = .ok task.state ∧
        RecordsMove task.id event old.state task.state row) :
    (Orchestrator.saveAudited host task entry).Sat (Orderly host) (fun _ t => t.Idle) w := by
  refine sat_saveAudited host task entry hw (fun _ _ h => h.orderly) ?_ fun e t ht => ht.idle
  intro t hq hnext hworking
  refine ⟨orderly_commit hq hworking (fun _ => rfl) ?_ fun old hold => hstate old _ hold rfl,
    t.idle_commit⟩
  obtain ⟨n, hn, hid⟩ := hdrawn
  exact ⟨n, hnext ▸ hn.trans (Nat.lt_succ_self _), hid⟩

/-- INTERNAL: the same with the event that follows it. -/
theorem sat_saveAudited_emit {α : Type} {task : Task} {entry : AuditEntry} (source eventType : String)
    (payload : Dict) (correlationId : Option String) (a : α) (hw : w.Idle)
    (hdrawn : ∃ n < w.nextId, task.id = host.newId n)
    (hstate : ∀ old row, taskRow w task.id = some old →
      row = AuditSink.chained host.py (TaskRepository.put task w.committed)
        (entry.event (host.newId w.nextId) (host.clock w.ticks)) →
      task.state = old.state ∨ ∃ event, nextState old.state event = .ok task.state ∧
        RecordsMove task.id event old.state task.state row) :
    (do Orchestrator.saveAudited host task entry
        emit host source eventType payload correlationId
        pure a : Proc α).Sat (Orderly host) (fun _ t => t.Idle) w := by
  rw [Program.sat_bind]
  refine (sat_saveAudited_orderly hw hdrawn hstate).post fun r t ht => ?_
  cases r with
  | error e => exact ht
  | ok _ =>
    rw [Program.then_ok, Program.sat_bind]
    refine (sat_emit host source eventType payload correlationId ht fun _ _ h => h.orderly).post
      fun r t ht => ?_
    rw [ht.1]
    exact ht.2.idle

/-- INTERNAL: reading a task, and what the reader then knows. -/
theorem sat_getTask (taskId : String) {β : Type} {f : Task → Proc β} {R : World → World → Prop}
    {Q : Except Err β → World → Prop} (hw : w.Idle) (hrefl : R w w)
    (hnone : taskRow w taskId = none → Q (.error (.taskNotFound taskId)) w)
    (hsome : ∀ task, taskRow w taskId = some task → (f task).Sat R Q w) :
    (Orchestrator.getTask taskId >>= f).Sat R Q w := by
  rw [Program.sat_bind, Orchestrator.getTask, TaskRepository.get, Program.sat_bind, sat_query,
    hw.working]
  refine ⟨hrefl, ?_⟩
  cases hrow : Table.lookup Task.id w.committed.tasks taskId with
  | none => exact hnone hrow
  | some task => exact hsome task hrow

/-- INTERNAL: the identifier of a stored task was drawn, and is the one it was found under. -/
theorem DrawnTasks.of_row (hd : DrawnTasks host w) {taskId : String} {task : Task}
    (h : taskRow w taskId = some task) : task.id = taskId ∧ ∃ n < w.nextId, task.id = host.newId n :=
  ⟨Table.lookup_eq_some_key h, hd task (Table.lookup_mem h)⟩

/-- Creating a task is orderly: its identifier is new.
SOURCE: core/orchestrator.py:62-87 -/
theorem sat_createTask (sessionId requestId : String) (profileSnapshot : Option Dict) (hw : w.Idle)
    (hd : DrawnTasks host w) :
    (Orchestrator.createTask host sessionId requestId profileSnapshot).Sat (Orderly host)
      (fun _ t => t.Idle) w := by
  unfold Orchestrator.createTask
  simp only [Program.sat_bind, sat_now, sat_newId, Program.then_ok]
  refine ⟨(quiet_tick w).orderly, (quiet_newId _).orderly, ?_⟩
  have hidle : ({ w with ticks := w.ticks + 1, nextId := w.nextId + 1 } : World).Idle :=
    ⟨hw.depth, hw.working⟩
  rw [← Program.sat_bind]
  refine sat_saveAudited_emit _ _ _ _ _ hidle ⟨w.nextId, Nat.lt_succ_self _, rfl⟩ ?_
  intro old row hold _
  have hid : old.id = host.newId w.nextId := Table.lookup_eq_some_key hold
  obtain ⟨n, hn, he⟩ := hd old (Table.lookup_mem hold)
  obtain rfl := host.newId_injective (hid.symm.trans he)
  exact absurd hn (Nat.lt_irrefl _)

/-- Advancing a task is orderly: it is moved along an edge of the table, which the audit row of the
same commit records, or stays where it is.
SOURCE: core/orchestrator.py:95-140 -/
theorem sat_advance (taskId event : String) (hw : w.Idle) (hd : DrawnTasks host w) :
    (Orchestrator.advance host taskId event).Sat (Orderly host) (fun _ t => t.Idle) w := by
  refine sat_getTask taskId hw (Quiet.refl w).orderly (fun _ => hw) fun task hrow => ?_
  cases hnext : nextState task.state event with
  | error e =>
    rw [Program.sat_bind]
    refine sat_audit host _ hw (fun _ _ h => h.orderly) ?_ fun e t ht => ht.idle
    intro t hq hworking
    have htasks : t.commit.committed.tasks = t.committed.tasks := by
      simp only [World.commit, hworking, hq.committed]
      rfl
    refine ⟨⟨fun taskId old hold => ⟨old, ?_, .inl rfl⟩, fun hd' task' h => ?_⟩, t.idle_commit⟩
    · rw [taskRow, htasks]
      exact hold
    · rw [htasks] at h
      exact hd' task' h
  | ok newState =>
    obtain ⟨hid, hdrawn⟩ := hd.of_row hrow
    show (Orchestrator.moveTask host task event newState).Sat _ _ _
    unfold Orchestrator.moveTask
    rw [Program.sat_bind, sat_now]
    refine ⟨(quiet_tick w).orderly, ?_⟩
    rw [Program.then_ok]
    refine sat_saveAudited_emit _ _ _ _ _ (by exact ⟨hw.depth, hw.working⟩) hdrawn ?_
    intro old row hold hrow'
    have hsame : task = old := by
      have hold' : taskRow w task.id = some old := hold
      rw [hid, hrow] at hold'
      exact Option.some.inj hold'
    refine .inr ⟨event, hsame ▸ hnext, ?_⟩
    rw [hrow', ← hsame]
    exact ⟨rfl, rfl, rfl, rfl, rfl⟩

/-- Attaching a plan is orderly: it leaves the state alone.
SOURCE: core/orchestrator.py:142-165 -/
theorem sat_attachPlan (taskId planId : String) (hw : w.Idle) (hd : DrawnTasks host w) :
    (Orchestrator.attachPlan host taskId planId).Sat (Orderly host) (fun _ t => t.Idle) w := by
  refine sat_getTask taskId hw (Quiet.refl w).orderly (fun _ => hw) fun task hrow => ?_
  obtain ⟨hid, hdrawn⟩ := hd.of_row hrow
  refine sat_saveAudited_emit _ _ _ _ _ hw hdrawn ?_
  intro old row hold _
  have hold' : taskRow w task.id = some old := hold
  rw [hid, hrow] at hold'
  rw [← Option.some.inj hold']
  exact .inl rfl

/-- The task is missing, or in a state that `cancel_task` leaves alone. -/
def LeftAlone (w : World) (taskId : String) : Prop :=
  ∀ task, taskRow w taskId = some task → task.state ∈ Orchestrator.settledStates

/-- Cancelling a settled task changes nothing.
SOURCE: core/orchestrator.py:167-170 -/
theorem sat_cancelTask_settled (taskId : String) (hw : w.Idle) (hsettled : LeftAlone w taskId) :
    (Orchestrator.cancelTask host taskId).Sat (Orderly host) (fun _ t => t.Idle) w := by
  refine sat_getTask taskId hw (Quiet.refl w).orderly (fun _ => hw) fun task hrow => ?_
  rw [if_pos (hsettled task hrow)]
  exact hw

end Operations

/-! ## Histories of the orchestrator -/

/-- INTERNAL: cancelling a task never writes an audit row.
SOURCE: core/orchestrator.py:167-183 -/
theorem leaves_cancelTask (host : Host) (taskId : String) :
    Leaves Tables.auditEvents (Orchestrator.cancelTask host taskId) := by
  refine .bind (.bind (.query _) fun found => ?_) fun task => ?_
  · cases found with
    | none => exact .throw _
    | some task => exact .pure _
  · split
    · exact .pure _
    · exact .bind (.save _ fun _ => rfl) fun _ => .bind (.bind (.newId host) fun _ =>
        .bind (.now host) fun _ => .note _) fun _ => .pure _

/-- The calls made to the orchestrator, with `cancel_task` only for settled tasks. -/
inductive SettledCall (host : Host) (w : World) : Proc Unit → Prop
  | createTask (sessionId requestId : String) (profileSnapshot : Option Dict) :
      SettledCall host w (Orchestrator.createTask host sessionId requestId profileSnapshot).void
  | advance (taskId event : String) :
      SettledCall host w (Orchestrator.advance host taskId event).void
  | attachPlan (taskId planId : String) :
      SettledCall host w (Orchestrator.attachPlan host taskId planId).void
  | cancelTask (taskId : String) (hsettled : LeftAlone w taskId) :
      SettledCall host w (Orchestrator.cancelTask host taskId).void

/-- Any sequence of such calls, each killed at any point or not at all. -/
def settledUse (host : Host) : Usage World Err :=
  { calls := SettledCall host
    crashes := fun w p _ => SettledCall host w p
    restart := World.restart }

/-- INTERNAL: every such call is orderly. -/
theorem SettledCall.sat {host : Host} {w : World} {p : Proc Unit} (h : SettledCall host w p)
    (hw : w.Idle) (hd : DrawnTasks host w) :
    p.Sat (Orderly host) (fun _ t => t.Idle ∧ DrawnTasks host t) w := by
  refine Program.Sat.keep (I := DrawnTasks host) ?_ (fun _ _ h => h.2) hd
  cases h with
  | createTask sessionId requestId profileSnapshot =>
    exact Program.sat_void (sat_createTask sessionId requestId profileSnapshot hw hd)
  | advance taskId event => exact Program.sat_void (sat_advance taskId event hw hd)
  | attachPlan taskId planId => exact Program.sat_void (sat_attachPlan taskId planId hw hd)
  | cancelTask taskId hsettled => exact Program.sat_void (sat_cancelTask_settled taskId hw hsettled)

/-- INTERNAL: between calls no transaction is open, and the identifiers of tasks are drawn. -/
theorem drawn_of_history {host : Host} {w : World} (h : History (settledUse host) {} w) :
    w.Idle ∧ DrawnTasks host w := by
  refine h.invariant (I := fun w => w.Idle ∧ DrawnTasks host w)
    ⟨⟨rfl, rfl⟩, fun task htask => by cases htask⟩ ?_ ?_
  · rintro w p ⟨hw, hd⟩ hp
    exact (hp.sat hw hd).run
  · rintro w p n ⟨hw, hd⟩ hp
    have hend := (hp.sat hw hd).cut_keep (fun _ _ h => h.2) hd n
    exact ⟨World.idle_restart _, hend⟩

/-- INTERNAL: there is no edge out of a terminal state.
SOURCE: state_machine/transitions.py:18-72 -/
theorem nextState_of_terminal {state : TaskState} (h : state ∈ terminalStates) (event : String) :
    nextState state event = .error (.illegalTransition state event) := by
  have hcases : state = .completed ∨ state = .cancelled ∨ state = .securityHalt := by
    simpa [terminalStates] using h
  rcases hcases with rfl | rfl | rfl <;> rfl

/-- In every history whose `cancel_task` calls name settled tasks, each step keeps every task; a
committed state changes only along an edge of the table that the one audit row of the same commit
records; and a terminal state does not change.
SOURCE: core/orchestrator.py:95-183, state_machine/transitions.py:18-115 -/
theorem task_states_lawful {host : Host} {a b : World} (h : Moment (settledUse host) {} a b)
    {taskId : String} {old : Task} (hold : taskRow a taskId = some old) :
    ∃ new, taskRow b taskId = some new ∧
      (new.state ≠ old.state → ∃ event row, nextState old.state event = .ok new.state ∧
        b.committed.auditEvents = a.committed.auditEvents ++ [row] ∧
        RecordsMove taskId event old.state new.state row) ∧
      (old.state ∈ terminalStates → new.state = old.state) := by
  obtain ⟨hs, hp, n⟩ := h
  obtain ⟨hw, hd⟩ := drawn_of_history hs
  rcases (hp.sat hw hd).nth n with hsame | hstep
  · exact ⟨old, by rw [hsame]; exact hold, fun h => absurd rfl h, fun _ => rfl⟩
  · obtain ⟨new, hnew, hchange⟩ := hstep.1 taskId old hold
    refine ⟨new, hnew, fun hne => hchange.resolve_left hne, fun hterminal => ?_⟩
    rcases hchange with h | ⟨event, row, hnext, -⟩
    · exact h
    · rw [nextState_of_terminal hterminal event] at hnext
      cases hnext

/-- A machine with no files and no processes of interest. -/
def plainHost : Host := .plain [] []

/-- A task that was just created. -/
def createdTask : World :=
  ((Orchestrator.createTask plainHost "session" "request" none).run {}).2

/-- The same task after the events. -/
def advancedTask (events : List String) : World :=
  events.foldl (fun w event => ((Orchestrator.advance plainHost "id" event).run w).2) createdTask

/-- INTERNAL: these are states of a history. -/
theorem history_advancedTask (events : List String) :
    History (settledUse plainHost) {} (advancedTask events) := by
  have hcreated : History (settledUse plainHost) {} createdTask :=
    History.start.returned_void (SettledCall.createTask "session" "request" none)
  unfold advancedTask
  generalize createdTask = w at hcreated
  induction events generalizing w with
  | nil => exact hcreated
  | cons event rest ih =>
    exact ih _ (hcreated.returned_void (SettledCall.advance "id" event))

/-- INTERNAL: the step that commits the first move of a task. -/
theorem task_states_lawful_planning :
    ∃ a b old new, Moment (settledUse plainHost) {} a b ∧
      taskRow a "id" = some old ∧ taskRow b "id" = some new ∧
      old.state = .created ∧ new.state = .planning ∧
      ∃ event row, nextState old.state event = .ok new.state ∧
        b.committed.auditEvents = a.committed.auditEvents ++ [row] ∧
        RecordsMove "id" event old.state new.state row := by
  have hmoment := Moment.step (u := settledUse plainHost) (history_advancedTask [])
    (SettledCall.advance "id" "start_planning") 11
  rw [Program.cut_void, Program.cut_void] at hmoment
  have hold : (taskRow ((Orchestrator.advance plainHost "id" "start_planning").cut 11 (advancedTask []))
      "id").map Task.state = some .created := by decide +kernel
  have hnew : (taskRow ((Orchestrator.advance plainHost "id" "start_planning").cut (11 + 1)
      (advancedTask [])) "id").map Task.state = some .planning := by decide +kernel
  obtain ⟨old, hold, holdState⟩ := Option.map_eq_some_iff.mp hold
  obtain ⟨new, hrow, hchange, -⟩ := task_states_lawful hmoment hold
  rw [hrow, Option.map_some, Option.some.injEq] at hnew
  refine ⟨_, _, old, new, hmoment, hold, hrow, holdState, hnew, hchange ?_⟩
  rw [hnew, holdState]
  decide

/-- A task that has been executed and waits for its verification. -/
def verifyingTask : World :=
  advancedTask ["start_planning", "plan_ready", "authorize_and_run", "execution_complete"]

/-- The same task after it was cancelled. -/
def cancelledTask : World := ((Orchestrator.cancelTask plainHost "id").run verifyingTask).2

/-- A task is cancelled while it waits for its verification: its state changes, no event of the table
leads there, and no audit row is committed.
SOURCE: core/orchestrator.py:167-183 -/
theorem cancelTask_unlawful :
    History (settledUse plainHost) {} verifyingTask ∧
    (taskRow verifyingTask "id").map Task.state = some .verifying ∧
    (taskRow cancelledTask "id").map Task.state = some .cancelled ∧
    (∀ event, nextState .verifying event ≠ .ok .cancelled) ∧
    cancelledTask.committed.auditEvents = verifyingTask.committed.auditEvents := by
  have hhistory : History (settledUse plainHost) {} verifyingTask := history_advancedTask _
  refine ⟨hhistory, by decide +kernel, by decide +kernel, fun event h => ?_, ?_⟩
  · unfold nextState at h
    split at h
    · next state hlook =>
      obtain rfl := Except.ok.inj h
      obtain ⟨before, after, hsplit, -⟩ := List.lookup_eq_some_iff.mp hlook
      have hmem : (event, TaskState.cancelled) ∈ transitions .verifying := by
        rw [hsplit]
        simp
      simp [transitions] at hmem
    · cases h
  · exact ((leaves_cancelTask plainHost "id").run verifyingTask
      (by rw [(drawn_of_history hhistory).1.working])).2

end Shea.Analysis
