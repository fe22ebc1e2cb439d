import Shea.Analysis.FailedTasks

/-!
# Tasks left behind by a shutdown

After the sweep of the app plane `reconcile_stranded_tasks` lists the tasks in a transient state and moves
each by the event for its state. Every such event is an edge of the transition table into a stable
state. STABILIZING is not among the stable states, so it is listed, but there is no event for it: a task
left in it stays in it. Otherwise every task is settled.
-/

set_option autoImplicit false

namespace Shea.Analysis

open Shea.Computation Shea.Model

/-! ## One task after the other -/

section Settling

variable {host : Host} {w : World} {task : Task} {tasks : List Task} {before rows : Tables}

/-- INTERNAL: the event for a transient state leads to a stable one.
SOURCE: recovery/service.py:420-431, state_machine/transitions.py:18-73 -/
theorem stable_of_strandedEvent {state : TaskState} {event : String}
    (h : RecoveryService.strandedEvent state = some event) :
    ∃ newState, nextState state event = .ok newState ∧ newState ∈ TaskRepository.stableStates := by
  cases state
  case created => cases h; exact ⟨.cancelled, rfl, by decide⟩
  case planning => cases h; exact ⟨.cancelled, rfl, by decide⟩
  case ready => cases h; exact ⟨.cancelled, rfl, by decide⟩
  case running => cases h; exact ⟨.blocked, rfl, by decide⟩
  case verifying => cases h; exact ⟨.failed, rfl, by decide⟩
  case recovering => cases h; exact ⟨.failed, rfl, by decide⟩
  all_goals cases h

/-- INTERNAL: only one transient state has no event. -/
theorem strandedEvent_eq_none_iff {state : TaskState} :
    RecoveryService.strandedEvent state = none ↔
      state ∈ TaskRepository.stableStates ∨ state = .stabilizing := by
  cases state <;> decide

/-- The task was moved by its event into a stable state, and one of the rows records the move. -/
def SettledBy (task : Task) (event : String) (added : List AuditEvent) (rows : Tables) : Prop :=
  ∃ moved row, Table.lookup Task.id rows.tasks task.id = some moved ∧
    nextState task.state event = .ok moved.state ∧ moved.state ∈ TaskRepository.stableStates ∧
    row ∈ added ∧ RecordsMove task.id event task.state moved.state row

/-- What settling these tasks does to the tables. -/
structure SettledRows (tasks : List Task) (before rows : Tables) (added : List AuditEvent) : Prop where
  ids : rows.tasks.map Task.id = before.tasks.map Task.id
  audit : rows.auditEvents = before.auditEvents ++ added
  others : ∀ taskId, (∀ task ∈ tasks, task.id = taskId →
    RecoveryService.strandedEvent task.state = none) →
      Table.lookup Task.id rows.tasks taskId = Table.lookup Task.id before.tasks taskId
  moves : ∀ task ∈ tasks, ∀ event, RecoveryService.strandedEvent task.state = some event →
    SettledBy task event added rows

/-- INTERNAL: one task is settled.
SOURCE: recovery/service.py:420-441 -/
theorem succeeds_settleStranded (hw : Ordered host w) {event : String}
    (hrow : Table.lookup Task.id w.working.tasks task.id = some task)
    (hevent : RecoveryService.strandedEvent task.state = some event) :
    Succeeds host (RecoveryService.settleStranded host task event)
      (fun _ rows => ∃ added, SettledRows [task] w.working rows added) w := by
  obtain ⟨newState, hnext, hstable⟩ := stable_of_strandedEvent hevent
  refine (succeeds_advance hw hrow hnext).bind fun found t ht hfound => ?_
  obtain ⟨-, -, hstate, moved, row, hid, hmoved, hrecords, hrows⟩ := hfound
  refine (succeeds_audit ht.toOrdered (by rfl)).bind fun _ u hu haudit => ?_
  refine .pure hu.toOrdered ?_
  have hmember : task.id ∈ w.working.tasks.map Task.id :=
    List.mem_map_of_mem (Table.lookup_mem hrow)
  obtain ⟨entry, hentry⟩ : ∃ entry, u.working = withAudit entry t.working := ⟨_, haudit⟩
  rw [hrows] at hentry
  have htasks : u.working.tasks = (TaskRepository.put moved w.working).tasks := by
    rw [hentry]
    rfl
  have hlog : u.working.auditEvents = w.working.auditEvents ++ [row] ++ [entry] := by
    rw [hentry]
    rfl
  rw [List.append_assoc] at hlog
  refine ⟨[row] ++ [entry], ?_, hlog, fun taskId hother => ?_, fun settled hsettled e he => ?_⟩
  · rw [htasks]
    refine (Table.map_key_upsert keepsKey_task _ _).trans (if_pos ?_)
    show moved.id ∈ _
    rw [hid]
    exact hmember
  · have hne : task.id ≠ taskId := by
      intro heq
      rw [hother task (List.mem_singleton_self _) heq] at hevent
      cases hevent
    rw [htasks]
    refine Table.lookup_upsert_of_ne keepsKey_task _ ?_
    show moved.id ≠ _
    rw [hid]
    exact hne
  · obtain rfl := List.mem_singleton.mp hsettled
    obtain rfl := Option.some.inj (hevent.symm.trans he)
    have hlookup := Table.lookup_upsert_self keepsKey_task w.working.tasks
      (TaskRepository.stored moved)
    have hkey : (TaskRepository.stored moved).id = settled.id := hid
    rw [hkey, hrow] at hlookup
    refine ⟨TaskRepository.merge settled (TaskRepository.stored moved), row, ?_, ?_, ?_, ?_, ?_⟩
    · rw [htasks]
      exact hlookup
    · exact hnext.trans (congrArg Except.ok hmoved.symm)
    · exact hmoved.symm ▸ hstable
    · exact List.mem_cons_self ..
    · exact hmoved.symm ▸ hrecords

/-- All of them are settled, none twice.
SOURCE: recovery/service.py:420-445 -/
theorem succeeds_settleAll (hw : Ordered host w) (hnodup : (tasks.map Task.id).Nodup)
    (hrows : ∀ task ∈ tasks, Table.lookup Task.id w.working.tasks task.id = some task) :
    Succeeds host (RecoveryService.settleAll host tasks)
      (fun _ rows => ∃ added, SettledRows tasks w.working rows added) w := by
  induction tasks generalizing w with
  | nil => exact .pure hw ⟨[], rfl, (List.append_nil _).symm, fun _ _ => rfl, by simp⟩
  | cons task rest ih =>
    obtain ⟨hnew, hrest⟩ := List.nodup_cons.mp hnodup
    have hothers : ∀ other ∈ rest, task.id ≠ other.id := fun other hother heq =>
      hnew (heq ▸ List.mem_map_of_mem hother)
    unfold RecoveryService.settleAll
    cases hevent : RecoveryService.strandedEvent task.state with
    | none =>
      refine (ih hw hrest fun other hother => hrows other (List.mem_cons_of_mem _ hother)).mono ?_
      rintro _ rows ⟨added, h⟩
      refine ⟨added, h.ids, h.audit, fun taskId hother => h.others taskId fun other hmem =>
        hother other (List.mem_cons_of_mem _ hmem), fun settled hsettled e he => ?_⟩
      rcases List.mem_cons.mp hsettled with rfl | hsettled
      · rw [hevent] at he
        cases he
      · exact h.moves settled hsettled e he
    | some event =>
      refine (succeeds_settleStranded hw (hrows task (List.mem_cons_self ..)) hevent).bind
        fun _ t ht hfirst => ?_
      obtain ⟨first, hfirst⟩ := hfirst
      have hkept : ∀ other ∈ rest, Table.lookup Task.id t.working.tasks other.id = some other := by
        intro other hother
        rw [hfirst.others other.id fun only honly heq => absurd
          (List.mem_singleton.mp honly ▸ heq) (hothers other hother)]
        exact hrows other (List.mem_cons_of_mem _ hother)
      refine (ih ht.toOrdered hrest hkept).bind fun _ u hu hlater => ?_
      obtain ⟨later, hlater⟩ := hlater
      refine .pure hu.toOrdered ⟨first ++ later, hlater.ids.trans hfirst.ids, ?_,
        fun taskId hother => ?_, fun settled hsettled e he => ?_⟩
      · rw [hlater.audit, hfirst.audit, List.append_assoc]
      · refine (hlater.others taskId fun other hmem =>
          hother other (List.mem_cons_of_mem _ hmem)).trans (hfirst.others taskId ?_)
        intro only honly
        obtain rfl := List.mem_singleton.mp honly
        exact hother only (List.mem_cons_self ..)
      · rcases List.mem_cons.mp hsettled with rfl | hsettled
        · obtain ⟨moved, row, hlookup, hnext, hstable, hrow, hrecords⟩ :=
            hfirst.moves settled (List.mem_singleton_self _) e he
          refine ⟨moved, row, ?_, hnext, hstable, List.mem_append_left _ hrow, hrecords⟩
          rw [hlater.others settled.id fun other hother heq =>
            absurd heq.symm (hothers other hother)]
          exact hlookup
        · obtain ⟨moved, row, hlookup, hnext, hstable, hrow, hrecords⟩ :=
            hlater.moves settled hsettled e he
          exact ⟨moved, row, hlookup, hnext, hstable, List.mem_append_right _ hrow, hrecords⟩

end Settling

/-! ## After a shutdown -/

/-- What the startup is for: afterwards every task is stable; a task that changed went along an edge of
the table that a new audit row records; and a task that was stable before is as it was. -/
structure Settles (w t : World) : Prop where
  ids : t.committed.tasks.map Task.id = w.committed.tasks.map Task.id
  stable : ∀ task ∈ t.committed.tasks, task.state ∈ TaskRepository.stableStates
  moves : ∃ added, t.committed.auditEvents = w.committed.auditEvents ++ added ∧
    ∀ taskId old new, taskRow w taskId = some old → taskRow t taskId = some new → new ≠ old →
      ∃ event row, nextState old.state event = .ok new.state ∧ row ∈ added ∧
        RecordsMove taskId event old.state new.state row
  kept : ∀ taskId old, taskRow w taskId = some old → old.state ∈ TaskRepository.stableStates →
    taskRow t taskId = some old

section Startup

variable {host : Host} {w : World} (adapters : List Adapter) (planner : RetryPolicy)
  (retry : RetryController)

/-- INTERNAL: audit rows are only ever added. -/
theorem lasting_log (host : Host) (may : String → String → Prop) (log : List AuditEvent) :
    Lasting host may (Both fun _ t => log <+: t.auditEvents) := by
  refine ⟨framed_both fun _ _ _ h _ => h, ?_, ?_, ?_, ?_, ?_⟩
  · intro w statement h hfar
    refine ⟨?_, h.2⟩
    show log <+: (statement w.working).auditEvents
    rw [hfar.auditEvents]
    exact h.1
  · exact fun h _ _ => ⟨h.1.trans (List.prefix_append _ _), h.2⟩
  · exact fun h _ _ _ _ => h
  · exact fun h _ _ _ => h
  · exact fun _ h _ _ _ _ => h

/-- INTERNAL: the sweep only adds to the audit log. -/
theorem log_swept (hw : Sound host w) :
    w.committed.auditEvents <+: (swept adapters planner retry host w).committed.auditEvents := by
  have hlog : Both (fun _ t => w.committed.auditEvents <+: t.auditEvents) w := by
    refine ⟨?_, List.prefix_rfl⟩
    rw [hw.idle.working]
  exact (upholds_reconcileAppPlane (lasting_log host (fun _ _ => True) w.committed.auditEvents)
    (recoveryOver adapters planner retry) w hlog).run.2

/-- INTERNAL: the sweep leaves the tasks alone. -/
theorem tasks_swept (hw : Sound host w) :
    (swept adapters planner retry host w).committed.tasks = w.committed.tasks :=
  (sameDomain (domainRows_swept adapters planner retry hw.idle)).tasks

/-- INTERNAL: the tasks that are listed, as a look at the tables. -/
def transientTasks (t : Tables) : List Task :=
  (t.tasks.filter fun task => task.state ∉ TaskRepository.stableStates).insertionSort
    fun a b => a.createdAt ≤ b.createdAt

/-- INTERNAL: the sweep goes over the tasks in no stable state. -/
theorem mem_transientTasks {t : Tables} {task : Task} :
    task ∈ transientTasks t ↔ task ∈ t.tasks ∧ task.state ∉ TaskRepository.stableStates := by
  unfold transientTasks
  rw [List.mem_insertionSort, List.mem_filter, decide_eq_true_iff]

/-- INTERNAL: no task is listed twice. -/
theorem nodup_transientTasks (h : Ordered host w) :
    ((transientTasks w.working).map Task.id).Nodup := by
  refine ((List.perm_insertionSort _ _).map Task.id).nodup_iff.mpr ?_
  exact h.registered.tasks.sublist (List.filter_sublist.map Task.id)

/-- INTERNAL: the tasks are settled one after the other, once the sweep has returned.
SOURCE: recovery/service.py:412-445 -/
theorem run_reconcileStrandedTasks (hw : Sound host w) :
    (¬ Observable host w ∧ ∃ e t,
      ((recoveryOver adapters planner retry).reconcileStrandedTasks host).run w = (.error e, t)) ∨
    (Observable host w ∧ ∃ settled t added,
      ((recoveryOver adapters planner retry).reconcileStrandedTasks host).run w = (.ok settled, t) ∧
        SettledRows (transientTasks w.committed) (swept adapters planner retry host w).committed
          t.committed added) := by
  have hsweep := sweep_returns_iff adapters planner retry hw
  have hsound := sound_swept adapters planner retry hw
  have htasks := tasks_swept adapters planner retry hw
  rw [← hsweep]
  unfold RecoveryService.reconcileStrandedTasks
  rw [Program.run_bind]
  unfold swept at hsound htasks ⊢
  revert hsound htasks
  rcases ((recoveryOver adapters planner retry).reconcileAppPlane host).run w with ⟨r, t⟩
  intro hsound htasks
  cases r with
  | error e =>
    refine .inl ⟨?_, e, t, rfl⟩
    rintro ⟨results, h⟩
    cases h
  | ok results =>
    dsimp only at hsound htasks ⊢
    have hlisted : transientTasks w.committed = transientTasks t.working := by
      unfold transientTasks
      rw [hsound.idle.working, htasks]
    have hfound : ∀ task ∈ transientTasks t.working,
        Table.lookup Task.id t.working.tasks task.id = some task := fun task htask =>
      Table.lookup_of_mem hsound.ordered.registered.tasks (mem_transientTasks.mp htask).1
    obtain ⟨settled, u, hrun, hsequel, added, hsettled⟩ :=
      succeeds_settleAll hsound.ordered (nodup_transientTasks hsound.ordered) hfound
    refine .inr ⟨⟨results, rfl⟩, settled, u, added, hrun, ?_⟩
    rw [hlisted, hsequel.committed hsound.idle, ← hsound.idle.working]
    exact hsettled

/-- INTERNAL: settled rows are what the startup is for, unless a task is stabilizing. -/
theorem settles_iff (hw : Sound host w) {t : World} {added : List AuditEvent}
    (hrows : SettledRows (transientTasks w.committed)
      (swept adapters planner retry host w).committed t.committed added) :
    Settles w t ↔ ∀ task ∈ w.committed.tasks, task.state ≠ .stabilizing := by
  have htasks := tasks_swept adapters planner retry hw
  have hids : t.committed.tasks.map Task.id = w.committed.tasks.map Task.id := by
    rw [hrows.ids, htasks]
  have hnodup : (t.committed.tasks.map Task.id).Nodup := hids ▸ hw.registered.tasks
  have hstored : ∀ taskId old, taskRow w taskId = some old →
      old ∈ w.committed.tasks ∧ old.id = taskId := fun _ _ hold =>
    ⟨Table.lookup_mem hold, Table.lookup_eq_some_key hold⟩
  -- a task without an event keeps its row
  have hother : ∀ taskId old, taskRow w taskId = some old →
      RecoveryService.strandedEvent old.state = none → taskRow t taskId = some old := by
    intro taskId old hold hnone
    have hkept : taskRow t taskId = Table.lookup Task.id w.committed.tasks taskId := by
      rw [← htasks]
      refine hrows.others taskId fun task htask heq => ?_
      have hsame := Table.lookup_of_mem hw.registered.tasks (mem_transientTasks.mp htask).1
      rw [heq] at hsame
      obtain rfl := Option.some.inj (hsame.symm.trans hold)
      exact hnone
    exact hkept.trans hold
  constructor
  · rintro h task htask hstabilizing
    have hrow : taskRow w task.id = some task := Table.lookup_of_mem hw.registered.tasks htask
    have hstill := hother task.id task hrow
      (strandedEvent_eq_none_iff.mpr (.inr hstabilizing))
    have hstable := h.stable task (Table.lookup_mem hstill)
    rw [hstabilizing] at hstable
    exact absurd hstable (by decide)
  · intro hnone
    have hmoves : ∀ taskId old, taskRow w taskId = some old →
        old.state ∈ TaskRepository.stableStates ∨ ∃ event, SettledBy old event added t.committed := by
      intro taskId old hold
      by_cases hstable : old.state ∈ TaskRepository.stableStates
      · exact .inl hstable
      obtain ⟨hmem, -⟩ := hstored taskId old hold
      cases hevent : RecoveryService.strandedEvent old.state with
      | none =>
        rcases strandedEvent_eq_none_iff.mp hevent with hyes | hstabilizing
        · exact .inl hyes
        · exact absurd hstabilizing (hnone old hmem)
      | some event =>
        exact .inr ⟨event, hrows.moves old (mem_transientTasks.mpr ⟨hmem, hstable⟩) event hevent⟩
    have hkept : ∀ taskId old, taskRow w taskId = some old →
        old.state ∈ TaskRepository.stableStates → taskRow t taskId = some old :=
      fun taskId old hold hstable => hother taskId old hold
        (strandedEvent_eq_none_iff.mpr (.inl hstable))
    refine ⟨hids, fun task htask => ?_, ?_, hkept⟩
    · have hknown : task.id ∈ w.committed.tasks.map Task.id := hids ▸ List.mem_map_of_mem htask
      obtain ⟨old, hmem, hid⟩ := List.mem_map.mp hknown
      have hold : taskRow w task.id = some old :=
        hid ▸ Table.lookup_of_mem hw.registered.tasks hmem
      have hnow : taskRow t task.id = some task := Table.lookup_of_mem hnodup htask
      rcases hmoves task.id old hold with hstable | ⟨event, moved, row, hlookup, -, hstable, -⟩
      · obtain rfl := Option.some.inj ((hkept task.id old hold hstable).symm.trans hnow)
        exact hstable
      · rw [hid] at hlookup
        obtain rfl := Option.some.inj (hlookup.symm.trans hnow)
        exact hstable
    · obtain ⟨swept, hlog⟩ := log_swept adapters planner retry hw
      refine ⟨swept ++ added, ?_, fun taskId old new hold hnew hne => ?_⟩
      · rw [hrows.audit, ← hlog, List.append_assoc]
      · obtain ⟨-, hid⟩ := hstored taskId old hold
        rcases hmoves taskId old hold with hstable |
          ⟨event, moved, row, hlookup, hnext, -, hrow, hrecords⟩
        · exact absurd (Option.some.inj (hnew.symm.trans (hkept taskId old hold hstable))) hne
        · rw [hid] at hlookup hrecords
          obtain rfl := Option.some.inj (hlookup.symm.trans hnew)
          exact ⟨event, row, hnext, List.mem_append_right _ hrow, hrecords⟩

/-- The startup returns exactly when every unfinished receipt can be observed at its turn; and it settles
every task exactly when none was left in STABILIZING.
SOURCE: recovery/service.py:412-445, persistence/sqlite/task_repository.py:66-75 -/
theorem stranded_settled_iff (h : History (services host) {} w) :
    ((∃ settled t, ((recoveryOver adapters planner retry).reconcileStrandedTasks host).run w =
      (.ok settled, t)) ↔ Observable host w) ∧
    ∀ settled t, ((recoveryOver adapters planner retry).reconcileStrandedTasks host).run w =
      (.ok settled, t) →
        (Settles w t ↔ ∀ task ∈ w.committed.tasks, task.state ≠ .stabilizing) := by
  have hsound := Sound.of_services h
  rcases run_reconcileStrandedTasks adapters planner retry hsound with
    ⟨hblind, e, t, hrun⟩ | ⟨hobservable, settled, t, added, hrun, hrows⟩
  · refine ⟨iff_of_false ?_ hblind, fun settled u hok => ?_⟩
    · rintro ⟨settled, u, hok⟩
      rw [hrun] at hok
      cases hok
    · rw [hrun] at hok
      cases hok
  · refine ⟨iff_of_true ⟨settled, t, hrun⟩ hobservable, fun settled' u hok => ?_⟩
    obtain ⟨-, rfl⟩ := Prod.mk.inj (hrun.symm.trans hok)
    exact settles_iff adapters planner retry hsound hrows

end Startup

/-- The startup after a shutdown in the state. -/
def startupAfter (w : World) : Except Err (List Task) × World :=
  ((recoveryOver [] {} {}).reconcileStrandedTasks (.plain [] [])).run w

/-- A shutdown between `resolve_recovery` and `stabilize` leaves the first task in STABILIZING, and so
does the startup.
SOURCE: recovery/service.py:420-433 -/
theorem stabilizing_task_left :
    History (services (.plain [] [])) {} stabilizingFirst ∧
      (startupAfter stabilizingFirst).1 = .ok [] ∧
      storedState (startupAfter stabilizingFirst).2.committed (firstTask stabilizingFirst).id =
        some .stabilizing ∧
      ¬ Settles stabilizingFirst (startupAfter stabilizingFirst).2 := by
  have hfailed : History (operations (.plain [] [])) {} failedFirst :=
    history_authorizedFirst.returned (Operation.execute (notesExecution timingOut) _ noteRequest)
  have hrecovering : History (operations (.plain [] [])) {} recoveringFirst :=
    hfailed.returned_void (Operation.beginRecovery [] {} {} (firstTask failedFirst))
  have hstabilizing : History (operations (.plain [] [])) {} stabilizingFirst :=
    hrecovering.returned_void (Operation.resolveRecovery notesRecovery _ restoring)
  have hrun : (startupAfter stabilizingFirst).1 = .ok [] ∧
      storedState (startupAfter stabilizingFirst).2.committed (firstTask stabilizingFirst).id =
        some .stabilizing := by decide +kernel
  refine ⟨history_of_operations hstabilizing, hrun.1, hrun.2, fun hsettles => ?_⟩
  obtain ⟨task, hrow, -, hstate⟩ := lookup_of_storedState hrun.2
  have hstable := hsettles.stable task (Table.lookup_mem hrow)
  rw [hstate] at hstable
  exact absurd hstable (by decide)

/-- A task that was running is settled. -/
theorem running_task_settled :
    ∃ settled t, startupAfter authorizedFirst = (.ok settled, t) ∧ Settles authorizedFirst t := by
  have hrun : (startupAfter authorizedFirst).1.isOk = true ∧
      ∀ task ∈ authorizedFirst.committed.tasks, task.state ≠ .stabilizing := by decide +kernel
  obtain ⟨hreturns, hsettles⟩ := stranded_settled_iff [] {} {}
    (history_of_operations history_authorizedFirst)
  revert hrun
  generalize hout : startupAfter authorizedFirst = out
  obtain ⟨r, t⟩ := out
  rintro ⟨hok, hnone⟩
  cases r with
  | error e => cases hok
  | ok settled => exact ⟨settled, t, rfl, (hsettles settled t hout).mpr hnone⟩

end Shea.Analysis
