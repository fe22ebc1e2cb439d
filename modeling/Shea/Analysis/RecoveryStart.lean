import Shea.Analysis.Atomicity
import Shea.Analysis.IdempotencyKeys

/-!
# The start of a recovery

After planning, `begin_recovery` writes the attempt with its audit row in one transaction and moves
the task to RECOVERING in another. A crash or an exception between the two commits leaves an attempt
behind that nobody is working on, and every such attempt counts against the retry budget; anywhere
else, the attempt and the move are both there or both missing.
-/

set_option autoImplicit false

namespace Shea.Analysis

open Shea.Computation Shea.Model

/-! ## Where the database changes -/

section Stages

variable {α : Type} {w : World}

/-- INTERNAL: a block changes the committed rows in its last step. -/
theorem switchesAt_withUow {body : Proc α} (hb : Inner body) (w : World) :
    (withUow body).SwitchesAt World.committed w ((withUow body).steps w) 0 :=
  Program.Early.switchesAt fun n hn => (early_withUow hb w n hn).committed

/-- INTERNAL: whichever call inside a block is refused, what follows commits nothing. -/
theorem backs_withUow {body : Proc α} (hb : Nested body) (w : World) :
    (withUow body).Backs refusable World.committed w := by
  refine Program.backs_bind (Program.strict_modify _) Program.backs_modify fun _ t hrun => ?_
  obtain rfl : w.enter = t := congrArg Prod.snd hrun
  have hquiet : body.Endures refusable (fun a b => b.committed = a.committed)
      (fun _ t => t.depth = w.enter.depth) w.enter :=
    (hb.endures w.enter (Nat.succ_pos _)).mono (fun _ _ h => h.committed) fun _ _ h => h
  have hexit : ∀ t : World, (t.exit false).committed = t.committed := by
    intro t
    unfold World.exit
    split
    · rfl
    · rfl
  refine Program.backs_attempt_bind hb.strict hquiet (fun e t => hexit t) fun r t _ => ?_
  cases r with
  | ok a => exact ⟨fun _ _ => rfl, trivial⟩
  | error e => exact ⟨fun _ _ => rfl, trivial⟩

/-- INTERNAL: an audit entry by itself. -/
theorem backs_audit (host : Host) (entry : AuditEntry) (w : World) :
    (audit host entry).Backs refusable World.committed w := by
  refine Program.backs_bind (Program.strict_act _ _) Program.backs_act fun _ t _ => ?_
  refine Program.backs_bind (Program.strict_act _ _) Program.backs_act fun _ t' _ => ?_
  exact backs_withUow (.bind (.requireSerializable _) fun _ => .executeChecked _ _ _) t'

/-- INTERNAL: a move by itself.
SOURCE: core/orchestrator.py:95-140 -/
theorem backs_advance (host : Host) (taskId event : String) (w : World) :
    (Orchestrator.advance host taskId event).Backs refusable World.committed w := by
  refine Program.backs_bind (nested_getTask taskId).strict ?_ fun task t _ => ?_
  · refine Program.backs_bind (Program.strict_get _) Program.backs_get fun found t _ => ?_
    cases found <;> trivial
  split
  · exact Program.backs_bind (nested_audit host _).strict (backs_audit host _ t) fun _ _ _ => trivial
  · refine Program.backs_bind (Program.strict_act _ _) Program.backs_act fun at_ t' _ => ?_
    refine Program.backs_bind (nested_saveAudited host _ _).strict ?_ fun _ t'' _ => ?_
    · exact backs_withUow (.bind (.withUow (.bind (.requireSerializable _) fun _ => .execute _))
        fun _ => nested_audit host _) t'
    · exact ⟨fun _ _ => rfl, fun _ _ => rfl, fun _ _ => rfl, trivial⟩

/-- INTERNAL: looking a task up writes nothing. -/
theorem sat_getTask_view (taskId : String) (w : World) :
    (Orchestrator.getTask taskId).Sat (fun a b => b.committed = a.committed) (fun _ _ => True) w := by
  refine ⟨rfl, ?_⟩
  cases h : Table.lookup Task.id w.working.tasks taskId with
  | none => simp [Program.bind, h]
  | some task => simp [Program.bind, h]

/-- INTERNAL: an accepted move changes the committed rows three steps before its end; the last three
publish the event.
SOURCE: core/orchestrator.py:119-140 -/
theorem switchesAt_moveTask {host : Host} {task moved : Task} {event : String}
    {newState : TaskState} {t : World}
    (h : (Orchestrator.moveTask host task event newState).run w = (.ok moved, t)) :
    ∃ m, (Orchestrator.moveTask host task event newState).SwitchesAt World.committed w m 3 := by
  obtain ⟨at_, w₁, hnow, h⟩ := Program.run_bind_ok h
  obtain ⟨_, w₂, hsaved, -⟩ := Program.run_bind_ok h
  have hclock : (now host).Sat (fun a b => b.committed = a.committed) (fun _ _ => True) w :=
    ⟨rfl, trivial⟩
  have hcommit := switchesAt_withUow (inner_saveAudited
    { task with state := newState, updatedAt := at_ } host
    (Orchestrator.transitionEntry { task with state := newState, updatedAt := at_ } event task.state
      newState)) w₁
  have hpublish := hcommit.bind_right (f := fun _ => do
    TaskChannel.stateChanged host task.id task.state newState event task.requestId
    pure { task with state := newState, updatedAt := at_ }) hsaved
    (Q := fun _ _ => True) ⟨rfl, rfl, rfl, trivial⟩
  unfold Orchestrator.moveTask
  exact ⟨_, .bind_left hclock hnow hpublish⟩

/-- INTERNAL: a call of `advance` that returns has looked the task up and moved it. -/
theorem advance_returned {host : Host} {taskId event : String} {moved : Task} {t : World}
    (h : (Orchestrator.advance host taskId event).run w = (.ok moved, t)) :
    ∃ old newState, Table.lookup Task.id w.working.tasks taskId = some old ∧
      nextState old.state event = .ok newState ∧
      (Orchestrator.getTask taskId).run w = (.ok old, w) ∧
      (Orchestrator.moveTask host old event newState).run w = (.ok moved, t) := by
  obtain ⟨task, w₁, hget, h⟩ := Program.run_bind_ok h
  obtain ⟨found, w₂, hfound, hmatch⟩ := Program.run_bind_ok hget
  obtain ⟨hrow, rfl⟩ := Prod.mk.inj hfound
  cases found with
  | none => cases hmatch
  | some row =>
    obtain ⟨htask, rfl⟩ := Prod.mk.inj hmatch
    obtain rfl := Except.ok.inj htask
    cases hnext : nextState row.state event with
    | error e =>
      rw [hnext] at h
      obtain ⟨_, w₃, _, h⟩ := Program.run_bind_ok h
      cases h
    | ok newState =>
      rw [hnext] at h
      exact ⟨row, newState, Except.ok.inj hrow, hnext, hget, h⟩

/-- INTERNAL: so does the whole call. -/
theorem switchesAt_advance {host : Host} {taskId event : String} {moved : Task} {t : World}
    (h : (Orchestrator.advance host taskId event).run w = (.ok moved, t)) :
    ∃ m, (Orchestrator.advance host taskId event).SwitchesAt World.committed w m 3 := by
  obtain ⟨old, newState, -, hnext, hget, hmove⟩ := advance_returned h
  obtain ⟨m, hswitch⟩ := switchesAt_moveTask hmove
  refine ⟨(Orchestrator.getTask taskId).steps w + m,
    Program.SwitchesAt.bind_left (sat_getTask_view taskId w) hget ?_⟩
  rw [hnext]
  exact hswitch

/-- INTERNAL: the rows a move leaves, when no block is open around it. -/
theorem committed_advance {host : Host} (hw : w.Idle) {taskId event : String} {moved : Task}
    {t : World} (h : (Orchestrator.advance host taskId event).run w = (.ok moved, t)) :
    ∃ old row, Table.lookup Task.id w.committed.tasks taskId = some old ∧
      nextState old.state event = .ok moved.state ∧ moved.id = taskId ∧
      RowOf (Orchestrator.transitionEntry moved event old.state moved.state) row ∧
      t.committed = withAudit row (TaskRepository.put moved w.committed) := by
  obtain ⟨old, newState, hlookup, hnext, -, hmove⟩ := advance_returned h
  have hid : old.id = taskId := Table.lookup_eq_some_key hlookup
  obtain ⟨at_, w₁, hnow, hmove⟩ := Program.run_bind_ok hmove
  obtain ⟨-, rfl⟩ := Prod.mk.inj hnow
  obtain ⟨_, w₂, hsave, hmove⟩ := Program.run_bind_ok hmove
  obtain ⟨_, w₃, hemit, hmove⟩ := Program.run_bind_ok hmove
  obtain ⟨hmoved, rfl⟩ := Prod.mk.inj hmove
  obtain rfl := Except.ok.inj hmoved
  have hidle : ({ w with ticks := w.ticks + 1 } : World).Idle := ⟨hw.depth, hw.working⟩
  obtain ⟨u, hbody, rfl⟩ := run_withUow_ok (inner_saveAudited _ host _) hidle hsave
  obtain ⟨-, hworking⟩ := run_saveAudited host (Nat.succ_pos _) hbody
  have hlast : w₃.committed = u.commit.committed :=
    (congrArg (World.committed ∘ Prod.snd) hemit).symm
  rw [← hw.working]
  exact ⟨old, _, hlookup, hnext, hid, ⟨rfl, rfl, rfl⟩, hlast.trans hworking⟩

end Stages

/-! ## Two transactions -/

section Start

variable (service : RecoveryService) (host : Host) (task : Task) (number : ℕ)
  (strategy : RecoveryStrategy) (authority : RecoveryAuthority)

/-- The first transaction: the attempt and its audit row.
SOURCE: recovery/service.py:243-270 -/
def recordAttempt : Proc Unit := do
  let instant ← Program.get World.ticks
  withUow do
    let attemptId ← newId host
    RecoveryService.writeAttempt host task
      { id := attemptId
        taskId := task.id
        attemptNumber := number
        delaySeconds := service.retry.delayFor number instant } strategy authority

/-- INTERNAL: the second one moves the task. -/
theorem startAttempt_eq :
    service.startAttempt host task number strategy authority =
      recordAttempt service host task number strategy authority >>= fun _ =>
        Orchestrator.advance host task.id "retry" := rfl

/-- INTERNAL: the body of the first transaction. -/
theorem nested_attemptBody (instant : ℕ) : Nested (do
    let attemptId ← newId host
    RecoveryService.writeAttempt host task
      { id := attemptId
        taskId := task.id
        attemptNumber := number
        delaySeconds := service.retry.delayFor number instant } strategy authority) :=
  .bind (.newId host) fun _ => .bind (.writeChecked _ _ _) fun _ => nested_audit host _

/-- The failure falls between the two commits: after the last step of the first transaction, and
before the last step of the second one, which the three steps that publish the event follow. -/
def BetweenCommits (w : World) (n : ℕ) : Prop :=
  (recordAttempt service host task number strategy authority).steps w ≤ n ∧
    n + 3 < (service.startAttempt host task number strategy authority).steps w

end Start

/-! ## Both or neither -/

/-- A new row of the audit table says that an attempt was started. -/
def AttemptAudited (taskId : String) (before after : Tables) : Prop :=
  ∃ rows row, after.auditEvents = before.auditEvents ++ rows ∧ row ∈ rows ∧
    row.eventType = "recovery.attempt_started" ∧ row.taskId = some taskId

/-- The state of a stored task. -/
def storedState (t : Tables) (taskId : String) : Option TaskState :=
  (Table.lookup Task.id t.tasks taskId).map Task.state

/-- The attempt, its audit row and the task in RECOVERING are all there, or none of them is. -/
def BothOrNeither (taskId attemptId : String) (before after : Tables) : Prop :=
  ((∃ attempt ∈ after.recoveryAttempts, attempt.id = attemptId ∧ attempt.taskId = taskId) ∧
    AttemptAudited taskId before after ∧ storedState after taskId = some .recovering) ∨
  ((∀ attempt ∈ after.recoveryAttempts, attempt.id ≠ attemptId) ∧
    ¬ AttemptAudited taskId before after ∧ storedState after taskId ≠ some .recovering)

/-- How many attempts of a task are stored. -/
def attemptsOf (t : Tables) (taskId : String) : ℕ :=
  t.recoveryAttempts.countP (·.taskId = taskId)

/-- How often a task has entered RECOVERING, by the audit table. -/
def recoveriesOf (t : Tables) (taskId : String) : ℕ :=
  t.auditEvents.countP fun row => row.eventType = "task.transition" ∧ row.taskId = some taskId ∧
    Dict.get row.metadata "to_state" = .str TaskState.recovering.value

/-- The start is atomic: both or neither, and the attempts have grown as the entries into RECOVERING
have. -/
def AtomicStart (taskId attemptId : String) (before after : Tables) : Prop :=
  BothOrNeither taskId attemptId before after ∧
    attemptsOf after taskId + recoveriesOf before taskId =
      attemptsOf before taskId + recoveriesOf after taskId

section Outcomes

variable {service : RecoveryService} {host : Host} {task : Task} {number : ℕ}
  {strategy : RecoveryStrategy} {authority : RecoveryAuthority} {w t : World}

/-- INTERNAL: the rows the first transaction leaves.
SOURCE: recovery/service.py:243-270 -/
theorem committed_recordAttempt (hw : w.Idle)
    (hfresh : ∀ attempt ∈ w.committed.recoveryAttempts, attempt.id ≠ host.newId w.nextId) {u : Unit}
    (h : (recordAttempt service host task number strategy authority).run w = (.ok u, t)) :
    t.Idle ∧ ∃ attempt row, attempt.id = host.newId w.nextId ∧ attempt.taskId = task.id ∧
      row.eventType = "recovery.attempt_started" ∧ row.taskId = some task.id ∧
      t.committed = withAudit row { w.committed with
        recoveryAttempts := w.committed.recoveryAttempts ++ [attempt] } := by
  obtain ⟨instant, w₁, hticks, h⟩ := Program.run_bind_ok h
  obtain ⟨-, rfl⟩ := Prod.mk.inj hticks
  have hnested := nested_attemptBody service host task number strategy authority instant
  obtain ⟨v, hbody, rfl⟩ := run_withUow_ok hnested.inner hw h
  obtain ⟨attemptId, w₂, hnew, hbody⟩ := Program.run_bind_ok hbody
  obtain ⟨hid, rfl⟩ := Prod.mk.inj hnew
  obtain rfl := Except.ok.inj hid
  obtain ⟨_, w₃, hsave, haudit⟩ := Program.run_bind_ok hbody
  have hpos : 0 < ({ w.enter with nextId := w.enter.nextId + 1 } : World).depth := Nat.succ_pos _
  have hsaved := returned_writeChecked hpos hsave
  have hdepth := (Nested.writeChecked _ _ _).depth hpos hsave
  obtain ⟨row, hof, hwritten⟩ := returned_audit hdepth haudit
  let attempt : RecoveryAttempt :=
    { id := host.newId w.nextId
      taskId := task.id
      attemptNumber := number
      delaySeconds := service.retry.delayFor number instant }
  have hadded : Table.upsert RecoveryAttempt.id RecoveryAttemptRepository.merge attempt
      w.committed.recoveryAttempts = w.committed.recoveryAttempts ++ [attempt] :=
    Table.upsert_of_new hfresh
  refine ⟨v.idle_commit, attempt, row, rfl, rfl, hof.eventType, hof.taskId, ?_⟩
  show v.working = _
  rw [hwritten, hsaved, ← hadded, ← hw.working]
  rfl

/-- INTERNAL: only FAILED tasks can be retried. -/
theorem nextState_retry {state newState : TaskState} (h : nextState state "retry" = .ok newState) :
    state = .failed ∧ newState = .recovering := by
  have hall : nextState state "retry" =
      if state = .failed then .ok .recovering else .error (.illegalTransition state "retry") := by
    cases state <;> rfl
  rw [hall] at h
  split at h
  · next hfailed => exact ⟨hfailed, (Except.ok.inj h).symm⟩
  · cases h

/-- INTERNAL: nothing has happened yet. -/
theorem atomicStart_unchanged {before : Tables} {taskId attemptId : String}
    (hfresh : ∀ attempt ∈ before.recoveryAttempts, attempt.id ≠ attemptId)
    (hstate : storedState before taskId = some .failed) :
    AtomicStart taskId attemptId before before := by
  refine ⟨.inr ⟨hfresh, ?_, by simp [hstate]⟩, rfl⟩
  rintro ⟨rows, row, hrows, hmem, -⟩
  rw [List.self_eq_append_right.mp hrows] at hmem
  cases hmem

/-- INTERNAL: the attempt without the move. -/
theorem not_atomicStart_attempt {before after : Tables} {taskId attemptId : String}
    (hattempt : ∃ attempt ∈ after.recoveryAttempts, attempt.id = attemptId)
    (hstate : storedState after taskId = some .failed) :
    ¬ AtomicStart taskId attemptId before after := by
  rintro ⟨⟨-, -, hrecovering⟩ | ⟨hnone, -⟩, -⟩
  · rw [hstate] at hrecovering
    cases hrecovering
  · obtain ⟨attempt, hmem, hid⟩ := hattempt
    exact hnone attempt hmem hid

/-- INTERNAL: the state of a task that was just saved. -/
theorem storedState_put {task old : Task} {t : Tables}
    (hold : Table.lookup Task.id t.tasks task.id = some old) :
    storedState (TaskRepository.put task t) task.id = some task.state := by
  have hrow := Table.lookup_upsert_self keepsKey_task t.tasks (TaskRepository.stored task)
  unfold storedState TaskRepository.put
  rw [show task.id = (TaskRepository.stored task).id from rfl, hrow,
    show (TaskRepository.stored task).id = task.id from rfl, hold]
  rfl

/-- INTERNAL: the attempt and the move. -/
theorem atomicStart_both {before : Tables} {attempt : RecoveryAttempt} {row move : AuditEvent}
    {moved old : Task} (hof : attempt.taskId = moved.id)
    (hold : Table.lookup Task.id before.tasks moved.id = some old)
    (hmoved : moved.state = .recovering)
    (htype : row.eventType = "recovery.attempt_started") (hrow : row.taskId = some moved.id)
    (hmove : RowOf (Orchestrator.transitionEntry moved "retry" old.state moved.state) move) :
    AtomicStart moved.id attempt.id before (withAudit move (TaskRepository.put moved
      (withAudit row { before with recoveryAttempts := before.recoveryAttempts ++ [attempt] }))) := by
  refine ⟨.inl ⟨⟨attempt, ?_, rfl, hof⟩, ⟨[row, move], row, ?_, ?_, htype, hrow⟩, ?_⟩, ?_⟩
  · simp [withAudit, TaskRepository.put]
  · simp [withAudit, TaskRepository.put]
  · simp
  · exact (storedState_put hold).trans (congrArg some hmoved)
  · have hattempts : attemptsOf (withAudit move (TaskRepository.put moved (withAudit row
        { before with recoveryAttempts := before.recoveryAttempts ++ [attempt] }))) moved.id =
        attemptsOf before moved.id + 1 := by
      simp [attemptsOf, withAudit, TaskRepository.put, hof]
    have hentry : Dict.get move.metadata "to_state" = .str TaskState.recovering.value := by
      rw [hmove.metadata, hmoved]
      rfl
    have hentries : recoveriesOf (withAudit move (TaskRepository.put moved (withAudit row
        { before with recoveryAttempts := before.recoveryAttempts ++ [attempt] }))) moved.id =
        recoveriesOf before moved.id + 1 := by
      have hkind : move.eventType = "task.transition" := hmove.eventType
      have htask : move.taskId = some moved.id := hmove.taskId
      simp [recoveriesOf, withAudit, TaskRepository.put, htype, hkind, htask, hentry]
    rw [hattempts, hentries]
    omega

/-- INTERNAL: the two halves of a start that returns. -/
theorem startAttempt_returned {moved : Task}
    (h : (service.startAttempt host task number strategy authority).run w = (.ok moved, t)) :
    ∃ u w₁, (recordAttempt service host task number strategy authority).run w = (.ok u, w₁) ∧
      (Orchestrator.advance host task.id "retry").run w₁ = (.ok moved, t) := by
  rw [startAttempt_eq] at h
  exact Program.run_bind_ok h

/-- INTERNAL: an attempt is made durable in the last step of the first transaction. -/
theorem switchesAt_recordAttempt (w : World) :
    (recordAttempt service host task number strategy authority).SwitchesAt World.committed w
      ((recordAttempt service host task number strategy authority).steps w) 0 := by
  refine Program.Early.switchesAt fun n hn => ?_
  have hearly : (recordAttempt service host task number strategy authority).Early Quiet w := by
    unfold recordAttempt
    refine Program.early_bind Quiet.refl (fun _ _ _ => Quiet.trans) ⟨.refl w, fun instant _ => ?_⟩
    exact early_withUow (nested_attemptBody ..).inner w
  exact (hearly n hn).committed

/-- INTERNAL: whichever step of a start is refused, what follows commits nothing. -/
theorem backs_startAttempt (w : World) :
    (service.startAttempt host task number strategy authority).Backs refusable World.committed w := by
  refine Program.backs_bind (Program.strict_get _) Program.backs_get fun instant t _ => ?_
  have hnested := nested_attemptBody service host task number strategy authority instant
  exact Program.backs_bind (Nested.withUow hnested).strict (backs_withUow hnested t)
    fun _ t' _ => backs_advance host task.id "retry" t'

/-- INTERNAL: the committed rows at each step of a start that returns. -/
theorem committed_cut_startAttempt {u : Unit} {w₁ : World} {moved : Task}
    (hrecord : (recordAttempt service host task number strategy authority).run w = (.ok u, w₁))
    (hadvance : (Orchestrator.advance host task.id "retry").run w₁ = (.ok moved, t)) (n : ℕ) :
    (BetweenCommits service host task number strategy authority w n ∧
      ((service.startAttempt host task number strategy authority).cut n w).committed =
        w₁.committed) ∨
    (¬ BetweenCommits service host task number strategy authority w n ∧
      (((service.startAttempt host task number strategy authority).cut n w).committed =
        w.committed ∨
      ((service.startAttempt host task number strategy authority).cut n w).committed =
        t.committed)) := by
  obtain ⟨m, hswitch⟩ := switchesAt_advance hadvance
  have hsteps : (service.startAttempt host task number strategy authority).steps w =
      (recordAttempt service host task number strategy authority).steps w + (m + 3) := by
    rw [startAttempt_eq, Program.steps_bind, hrecord, ← hswitch.steps]
  unfold BetweenCommits
  rw [hsteps, startAttempt_eq]
  by_cases hlt : n < (recordAttempt service host task number strategy authority).steps w
  · have hearly : ((recordAttempt service host task number strategy authority).cut n w).committed =
        w.committed := (switchesAt_recordAttempt w).before n hlt
    refine .inr ⟨by omega, .inl ?_⟩
    rw [Program.cut_bind_of_le _ _ (Nat.le_of_lt hlt)]
    exact hearly
  · obtain ⟨j, rfl⟩ := Nat.exists_eq_add_of_le (Nat.le_of_not_lt hlt)
    rw [Program.cut_bind_add, hrecord]
    by_cases hj : j < m
    · exact .inl ⟨by omega, hswitch.before j hj⟩
    · refine .inr ⟨by omega, .inr ?_⟩
      have hlast := hswitch.after j (Nat.le_of_not_lt hj)
      rw [hadvance] at hlast
      exact hlast

/-- A start of recovery that undisturbed would return, with a failure at its `n`-th step: killed
there, or an exception there. The attempt with its audit row and the task in RECOVERING are both
committed or both missing, and the attempts agree with the entries into RECOVERING, exactly when the
failure does not fall between the two commits.
SOURCE: recovery/service.py:243-275 -/
theorem recovery_start_atomic_iff {moved : Task} (hw : w.Idle)
    (hfresh : ∀ attempt ∈ w.committed.recoveryAttempts, attempt.id ≠ host.newId w.nextId)
    (hok : (service.startAttempt host task number strategy authority).run w = (.ok moved, t))
    (n : ℕ) :
    (AtomicStart task.id (host.newId w.nextId) w.committed
      (((service.startAttempt host task number strategy authority).cut n w).restart).committed ↔
        ¬ BetweenCommits service host task number strategy authority w n) ∧
    ∀ e, (AtomicStart task.id (host.newId w.nextId) w.committed
      ((service.startAttempt host task number strategy authority).faulty refusable
        (Program.only n e) 0 w).2.committed ↔
        ¬ (BetweenCommits service host task number strategy authority w n ∧
          refusable ((service.startAttempt host task number strategy authority).cut n w)
            ((service.startAttempt host task number strategy authority).cut (n + 1) w) = true)) := by
  obtain ⟨u, w₁, hrecord, hadvance⟩ := startAttempt_returned hok
  obtain ⟨hidle, attempt, row, hid, hof, htype, hrow, hfirst⟩ :=
    committed_recordAttempt hw hfresh hrecord
  obtain ⟨old, move, hold, hnext, hmoved, hmove, hsecond⟩ := committed_advance hidle hadvance
  obtain ⟨hfailed, hrecovering⟩ := nextState_retry hnext
  have hbefore : Table.lookup Task.id w.committed.tasks moved.id = some old := by
    rw [hfirst] at hold
    exact hmoved ▸ hold
  have hstate : storedState w.committed task.id = some .failed := by
    unfold storedState
    rw [← hmoved, hbefore]
    exact congrArg some hfailed
  have hneither := atomicStart_unchanged hfresh hstate
  have hhalf : ¬ AtomicStart task.id (host.newId w.nextId) w.committed w₁.committed := by
    refine not_atomicStart_attempt ⟨attempt, ?_, hid⟩ ?_
    · rw [hfirst]
      simp [withAudit]
    · rw [hfirst]
      exact hstate
  have hboth : AtomicStart task.id (host.newId w.nextId) w.committed t.committed := by
    rw [hsecond, hfirst, ← hmoved, ← hid]
    exact atomicStart_both (hof.trans hmoved.symm) hbefore hrecovering htype
      (hrow.trans (congrArg some hmoved.symm)) hmove
  have hcrash : ∀ n, AtomicStart task.id (host.newId w.nextId) w.committed
      ((service.startAttempt host task number strategy authority).cut n w).committed ↔
        ¬ BetweenCommits service host task number strategy authority w n := by
    intro n
    rcases committed_cut_startAttempt hrecord hadvance n with
      ⟨hbetween, hcut⟩ | ⟨hbetween, hcut | hcut⟩
    · rw [hcut]
      exact iff_of_false hhalf (not_not_intro hbetween)
    · rw [hcut]
      exact iff_of_true hneither hbetween
    · rw [hcut]
      exact iff_of_true hboth hbetween
  refine ⟨hcrash n, fun e => ?_⟩
  by_cases hrefused : n < (service.startAttempt host task number strategy authority).steps w ∧
      refusable ((service.startAttempt host task number strategy authority).cut n w)
        ((service.startAttempt host task number strategy authority).cut (n + 1) w) = true
  · have hback : ((service.startAttempt host task number strategy authority).faulty refusable
        (Program.only (0 + n) e) 0 w).2.committed =
        ((service.startAttempt host task number strategy authority).cut n w).committed :=
      (backs_startAttempt w).faulty_only e hrefused.1 hrefused.2
    rw [Nat.zero_add] at hback
    rw [hback, hcrash n]
    simp [hrefused.2]
  · have hrun : (service.startAttempt host task number strategy authority).faulty refusable
        (Program.only (0 + n) e) 0 w =
        (service.startAttempt host task number strategy authority).run w := by
      refine Program.faulty_only_of_not e fun hlt => ?_
      exact Bool.eq_false_iff.mpr fun hmay => hrefused ⟨hlt, hmay⟩
    rw [Nat.zero_add] at hrun
    rw [hrun, hok]
    refine iff_of_true hboth fun hbetween => hrefused ⟨?_, hbetween.2⟩
    have hinside := hbetween.1.2
    omega

end Outcomes

/-- The recovery of the first note, killed after some steps. -/
def killedRecovery (n : ℕ) : World :=
  ((notesRecovery.beginRecovery (.plain [] []) (firstTask failedFirst)).cut n failedFirst).restart

/-- Killed after 29 steps, the recovery leaves an attempt and a task that is still FAILED.
SOURCE: recovery/service.py:243-275 -/
theorem recovery_start_not_atomic :
    (firstTask failedFirst).state = .failed ∧
      ∃ attempt ∈ (killedRecovery 29).committed.recoveryAttempts,
        (∀ old ∈ failedFirst.committed.recoveryAttempts, old.id ≠ attempt.id) ∧
        ¬ AtomicStart (firstTask failedFirst).id attempt.id failedFirst.committed
          (killedRecovery 29).committed := by
  have h : (firstTask failedFirst).state = .failed ∧
      failedFirst.committed.recoveryAttempts.isEmpty = true ∧
      (killedRecovery 29).committed.recoveryAttempts.isEmpty = false ∧
      storedState (killedRecovery 29).committed (firstTask failedFirst).id = some .failed := by
    decide +kernel
  obtain ⟨hfailed, hnone, hsome, hstate⟩ := h
  obtain ⟨attempt, hmem⟩ := List.exists_mem_of_ne_nil _ (List.isEmpty_eq_false_iff.mp hsome)
  refine ⟨hfailed, attempt, hmem, ?_, not_atomicStart_attempt ⟨attempt, hmem, rfl⟩ hstate⟩
  rw [List.isEmpty_iff.mp hnone]
  exact fun _ hold => by cases hold

/-- The authority of that recovery. -/
def firstAuthority : RecoveryAuthority :=
  { taskId := (firstTask failedFirst).id
    authorizationId := "authorization"
    capabilities := ["data.read"]
    maxAttempts := 3
    expiresAt := 0
    permittedOperations := RecoveryAuthority.defaultOperations }

/-- What a recovery of the first note does after planning. -/
def startFirst : Proc Task :=
  notesRecovery.startAttempt (.plain [] []) (firstTask failedFirst) 1 .retry firstAuthority

/-- INTERNAL: undisturbed, it takes 27 steps and returns; there is no attempt yet. -/
theorem startFirst_returns : (startFirst.run failedFirst).1.isOk = true ∧
    startFirst.steps failedFirst = 27 ∧
    failedFirst.committed.recoveryAttempts.isEmpty = true := by
  decide +kernel

/-- Killed after its 24 steps up to the second commit, it has both. -/
theorem recovery_start_atomic_note :
    AtomicStart (firstTask failedFirst).id ((Host.plain [] []).newId failedFirst.nextId)
      failedFirst.committed ((startFirst.cut 24 failedFirst).restart).committed := by
  have hidle : failedFirst.Idle := (resting_of_operations (history_authorizedFirst.returned
    (Operation.execute (notesExecution timingOut) _ noteRequest))).idle
  obtain ⟨hreturns, hsteps, hnone⟩ := startFirst_returns
  have hfresh : ∀ attempt ∈ failedFirst.committed.recoveryAttempts,
      attempt.id ≠ (Host.plain [] []).newId failedFirst.nextId := by
    rw [List.isEmpty_iff.mp hnone]
    exact fun _ hold => by cases hold
  have houtside : ¬ BetweenCommits notesRecovery (.plain [] []) (firstTask failedFirst) 1 .retry
      firstAuthority failedFirst 24 := by
    rintro ⟨-, hinside⟩
    rw [show (notesRecovery.startAttempt (.plain [] []) (firstTask failedFirst) 1 .retry
      firstAuthority).steps failedFirst = 27 from hsteps] at hinside
    omega
  revert hreturns
  generalize hrun : startFirst.run failedFirst = out
  obtain ⟨r, t⟩ := out
  intro hreturns
  cases r with
  | error e => cases hreturns
  | ok moved => exact (recovery_start_atomic_iff hidle hfresh hrun 24).1.mpr houtside

end Shea.Analysis
