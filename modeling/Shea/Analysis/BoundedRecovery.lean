import Shea.Analysis.FailedTasks
import Shea.Computation.Counting

/-!
# Recovery is bounded

An attempt is stored by `begin_recovery` alone, under the next number, and only while fewer than the
allowed ones are stored; and a task goes from FAILED to RECOVERING only by the move that follows in the
same call. So the number of stored attempts is at most the allowed one, and the moves, counted along a
run with crashes anywhere, are at most as many as the stored attempts.
-/

set_option autoImplicit false

namespace Shea.Analysis

open Shea.Computation Shea.Model

/-! ## What stays while no attempt is started -/

/-- The numbers of the attempts of a task, in the order they were stored. -/
def numbersOf (t : Tables) (taskId : String) : List ℕ :=
  (t.recoveryAttempts.filter (·.taskId = taskId)).map RecoveryAttempt.attemptNumber

/-- The attempts of the task have these numbers, and what is written does not move it to RECOVERING. -/
structure Steady (taskId : String) (numbers : List ℕ) (w : World) : Prop where
  working : numbersOf w.working taskId = numbers
  committed : numbersOf w.committed taskId = numbers
  state : storedState w.working taskId = some .recovering →
    storedState w.committed taskId = some .recovering

section Steady

variable {taskId : String} {numbers : List ℕ} {w : World} {t : Tables} {attempt : RecoveryAttempt}

/-- INTERNAL: the numbers, read off what a save keeps. -/
theorem numbersOf_eq (t : Tables) (taskId : String) :
    numbersOf t taskId = ((t.recoveryAttempts.map fun attempt =>
      (attempt.taskId, attempt.attemptNumber)).filter (·.1 = taskId)).map Prod.snd := by
  unfold numbersOf
  rw [List.filter_map, List.map_map]
  rfl

/-- INTERNAL: saving a stored attempt again keeps the numbers. -/
theorem numbersOf_resaved (h : attempt.id ∈ t.recoveryAttempts.map RecoveryAttempt.id) :
    numbersOf (withAttempt attempt t) taskId = numbersOf t taskId := by
  obtain ⟨old, hold⟩ : ∃ old, Table.lookup RecoveryAttempt.id t.recoveryAttempts attempt.id =
      some old := by
    rw [← Option.ne_none_iff_exists', ne_eq, Table.lookup_eq_none_iff]
    obtain ⟨row, hrow, hid⟩ := List.mem_map.mp h
    exact fun hnone => hnone row hrow hid
  have hsame : (withAttempt attempt t).recoveryAttempts.map
      (fun row => (row.taskId, row.attemptNumber)) =
        t.recoveryAttempts.map fun row => (row.taskId, row.attemptNumber) := by
    refine Table.map_upsert_of_lookup _ ?_ hold
    exact fun _ _ => rfl
  rw [numbersOf_eq, numbersOf_eq, hsame]

/-- INTERNAL: an attempt at another task does not count. -/
theorem numbersOf_other (h : attempt.taskId ≠ taskId) :
    numbersOf (withAttempt attempt t) taskId = numbersOf t taskId := by
  by_cases hmem : attempt.id ∈ t.recoveryAttempts.map RecoveryAttempt.id
  · exact numbersOf_resaved hmem
  have hadded : (withAttempt attempt t).recoveryAttempts = t.recoveryAttempts ++ [attempt] :=
    Table.upsert_of_new fun row hrow heq => hmem (heq ▸ List.mem_map_of_mem hrow)
  unfold numbersOf
  rw [hadded, List.filter_append, List.filter_singleton]
  simp [h]

/-- INTERNAL: the state of a task after a task was saved. -/
theorem storedState_put_cases (task : Task) (t : Tables) (taskId : String) :
    storedState (TaskRepository.put task t) taskId =
      if task.id = taskId then some task.state else storedState t taskId := by
  unfold storedState TaskRepository.put
  split
  · next heq =>
    subst heq
    have hrow := Table.lookup_upsert_self keepsKey_task t.tasks (TaskRepository.stored task)
    rw [show (TaskRepository.stored task).id = task.id from rfl] at hrow
    rw [hrow]
    cases Table.lookup Task.id t.tasks task.id <;> rfl
  · next hne =>
    have hrow := Table.lookup_upsert_of_ne keepsKey_task t.tasks
      (show (TaskRepository.stored task).id ≠ taskId from hne)
    rw [hrow]

/-- INTERNAL: only one edge leads to RECOVERING.
SOURCE: state_machine/transitions.py:18-73 -/
theorem retry_of_recovering {state : TaskState} {event : String}
    (h : nextState state event = .ok .recovering) : state = .failed ∧ event = "retry" := by
  have hedge : (event, TaskState.recovering) ∈ transitions state := by
    unfold nextState at h
    cases hfound : (transitions state).lookup event with
    | none =>
      rw [hfound] at h
      cases h
    | some newState =>
      rw [hfound] at h
      obtain rfl := Except.ok.inj h
      obtain ⟨before, after, hsplit, -⟩ := List.lookup_eq_some_iff.mp hfound
      rw [hsplit]
      exact List.mem_append_right _ (List.mem_cons_self ..)
  cases state <;> simp [transitions] at hedge
  exact ⟨rfl, hedge⟩

/-- INTERNAL: no event but "retry" hurts it. -/
theorem lasting_steady (host : Host) (taskId : String) (numbers : List ℕ) :
    Lasting host (fun id event => id = taskId → event ≠ "retry") (Steady taskId numbers) := by
  refine ⟨⟨fun {a b} h hworking hcommitted _ => ?_, fun h => ⟨h.working, h.working, id⟩,
    fun h => ⟨h.committed, h.committed, id⟩⟩, ?_, ?_, ?_, ?_, ?_⟩
  · exact ⟨hworking ▸ h.working, hcommitted ▸ h.committed, hworking ▸ hcommitted ▸ h.state⟩
  · intro w statement h hfar
    refine ⟨?_, h.committed, fun hnow => h.state ?_⟩
    · unfold numbersOf
      rw [hfar.recoveryAttempts]
      exact h.working
    · unfold storedState at hnow ⊢
      rw [hfar.tasks] at hnow
      exact hnow
  · exact fun h _ _ => ⟨h.working, h.committed, h.state⟩
  · intro w task n h _ _ hcreated _
    refine ⟨h.working, h.committed, fun hnow => h.state ?_⟩
    rw [storedState_put_cases] at hnow
    split at hnow
    · rw [hcreated] at hnow
      cases hnow
    · exact hnow
  · intro w old task h hold hchange _
    refine ⟨h.working, h.committed, fun hnow => h.state ?_⟩
    rw [storedState_put_cases] at hnow
    split at hnow
    · next heq =>
      have hstate : task.state = .recovering := Option.some.inj hnow
      rw [hstate] at hchange
      have hkept : old.state = .recovering := by
        generalize old.state = previous at hchange
        cases hchange with
        | kept => rfl
        | moved hmay hnext => exact absurd (retry_of_recovering hnext).2 (hmay heq)
      unfold storedState
      rw [← heq, hold]
      exact congrArg some hkept
    · exact hnow
  · intro w attempt old h hold hid _ _
    have hmem : attempt.id ∈ w.working.recoveryAttempts.map RecoveryAttempt.id :=
      hid ▸ List.mem_map_of_mem hold
    exact ⟨(numbersOf_resaved hmem).trans h.working, h.committed, h.state⟩

/-- INTERNAL: nor does an attempt at another task. -/
theorem begins_steady (host : Host) {taskId other : String} (numbers : List ℕ)
    (hne : other ≠ taskId) : Begins host (Steady taskId numbers) other := by
  intro w attempt n h _ _ hof
  refine ⟨?_, h.committed, h.state⟩
  rw [show numbersOf (withAttempt attempt w.working) taskId = _ from
    numbersOf_other (hof ▸ hne)]
  exact h.working

end Steady

/-! ## Counting -/

/-- The commit moves the task from FAILED to RECOVERING. -/
def Retried (taskId : String) (before after : Tables) : Prop :=
  storedState before taskId = some .failed ∧ storedState after taskId = some .recovering

instance (taskId : String) (before after : Tables) : Decidable (Retried taskId before after) :=
  inferInstanceAs (Decidable (_ ∧ _))

/-- INTERNAL: what such a commit costs. -/
def retryPrice (taskId : String) (before after : Tables) : ℕ :=
  if Retried taskId before after then 1 else 0

/-- The attempts of the task are numbered from one on, there are not more than allowed, and not fewer
than so many moves. -/
def BoundedBy (taskId : String) (maxAttempts moves : ℕ) (t : Tables) : Prop :=
  ∃ n, numbersOf t taskId = List.range' 1 n ∧ moves ≤ n ∧ n ≤ maxAttempts

/-- INTERNAL: the program keeps the count from the state, and its outcome satisfies the
postcondition. -/
def KeepsCount {α : Type} (taskId : String) (maxAttempts : ℕ) (p : Proc α)
    (Q : ℕ → Except Err α → World → Prop) (moves : ℕ) (w : World) : Prop :=
  p.Counts (fun a b => retryPrice taskId a.committed b.committed)
    (fun k t => BoundedBy taskId maxAttempts k t.committed) Q moves w

section Counting

variable {α : Type} {host : Host} {taskId : String} {m n k : ℕ} {w : World}

/-- INTERNAL: nothing is paid where nothing changes. -/
theorem retryPrice_self (taskId : String) (t : Tables) : retryPrice taskId t t = 0 := by
  refine if_neg ?_
  rintro ⟨hfailed, hrecovering⟩
  rw [hfailed] at hrecovering
  cases hrecovering

/-- INTERNAL: no step pays more than one attempt. -/
theorem retryPrice_le_one (taskId : String) (before after : Tables) :
    retryPrice taskId before after ≤ 1 := by
  unfold retryPrice
  split <;> omega

/-- INTERNAL: a step that commits what is written, or nothing, costs nothing. -/
theorem retryPrice_of_commits {numbers : List ℕ} {a b : World} (h : Steady taskId numbers a)
    (hcommits : Commits a b) : retryPrice taskId a.committed b.committed = 0 := by
  rcases hcommits with hnothing | hall
  · rw [hnothing]
    exact retryPrice_self taskId _
  · rw [hall]
    refine if_neg ?_
    rintro ⟨hfailed, hrecovering⟩
    rw [h.state hrecovering] at hfailed
    cases hfailed

/-- INTERNAL: a phase in which no attempt is started. -/
theorem keepsCount_steady {p : Proc α} {numbers : List ℕ} (hsteady : Upholds (Steady taskId numbers) p)
    (hw : Steady taskId numbers w) (hbounded : BoundedBy taskId m k w.committed) :
    KeepsCount taskId m p (fun k' r t => k' = k ∧ Steady taskId numbers t ∧ p.run w = (r, t)) k w := by
  have hsat := (hsteady w hw).and (sat_run p w)
  refine (hsat.counts (I := fun k t => BoundedBy taskId m k t.committed) hw ?_).post ?_
  · rintro a b ha ⟨⟨hb, hcommits⟩, -⟩
    refine ⟨hb, retryPrice_of_commits ha hcommits, ?_⟩
    obtain ⟨n, hnumbers, hle⟩ := hbounded
    exact ⟨n, hb.committed.trans (hw.committed.symm.trans hnumbers), hle⟩
  · rintro k' r t ⟨hcount, ht, -, hrun⟩
    exact ⟨hcount, ht, hrun⟩

end Counting

/-! ## A start -/

section Start

variable {host : Host} {taskId : String} {m n k : ℕ} {w : World} {task : Task}
  {service : RecoveryService}

/-- INTERNAL: a commit that leaves the tasks alone costs nothing. -/
theorem retryPrice_of_tasks {before after : Tables} (h : after.tasks = before.tasks) :
    retryPrice taskId before after = 0 := by
  refine if_neg ?_
  rintro ⟨hfailed, hrecovering⟩
  unfold storedState at hfailed hrecovering
  rw [h, hfailed] at hrecovering
  cases hrecovering

/-- INTERNAL: the first transaction of a start adds the next number, and moves nothing.
SOURCE: recovery/service.py:243-270 -/
theorem keepsCount_recordAttempt (hw : Ordered host w) (hidle : w.Idle)
    (hrow : Table.lookup Task.id w.working.tasks task.id = some task)
    (hnumbers : numbersOf w.committed task.id = List.range' 1 n) (hk : k ≤ n) (hlt : n < m)
    (strategy : RecoveryStrategy) (authority : RecoveryAuthority) :
    KeepsCount task.id m (recordAttempt service host task (n + 1) strategy authority)
      (fun k' _ t => k' = k ∧ Ordered host t ∧ t.Idle ∧ t.working.tasks = w.working.tasks ∧
        numbersOf t.committed task.id = List.range' 1 (n + 1)) k w := by
  obtain ⟨u, t, hrun, hsequel, htasks, attempt, hof, hnumber, hattempts⟩ :=
    succeeds_recordAttempt hw service (n + 1) strategy authority hrow
  have hcommitted := hsequel.committed hidle
  have hfree : retryPrice task.id w.committed t.committed = 0 :=
    retryPrice_of_tasks (by rw [hcommitted, htasks, hidle.working])
  have hadded : numbersOf t.committed task.id = List.range' 1 (n + 1) := by
    unfold numbersOf at hnumbers ⊢
    rw [hcommitted, hattempts, hidle.working, List.filter_append, List.map_append, hnumbers,
      List.range'_concat]
    simp [hof, hnumber, Nat.add_comm]
  have honce : (recordAttempt service host task (n + 1) strategy authority).SwitchesAt
      World.committed w _ 0 := switchesAt_recordAttempt w
  have hswitch := honce.counts (k := k) (J := BoundedBy task.id m) (retryPrice_self task.id)
    ⟨n, hnumbers, hk, hlt.le⟩
  rw [hrun] at hswitch
  dsimp only at hswitch
  rw [hfree, Nat.add_zero] at hswitch
  refine (hswitch ⟨n + 1, hadded, by omega, hlt⟩).post ?_
  rintro k' r v ⟨hout, hcount⟩
  obtain ⟨-, rfl⟩ := Prod.mk.inj hout
  rw [hfree, Nat.add_zero] at hcount
  exact ⟨hcount, hsequel.toOrdered, hsequel.idle hidle, htasks, hadded⟩

/-- INTERNAL: the second one moves the task, at most once.
SOURCE: recovery/service.py:272-275 -/
theorem keepsCount_retry (hw : Ordered host w) (hidle : w.Idle)
    (hrow : Table.lookup Task.id w.working.tasks task.id = some task) (hstate : task.state = .failed)
    (hnumbers : numbersOf w.committed task.id = List.range' 1 n) (hk : k < n) (hle : n ≤ m) :
    KeepsCount task.id m (Orchestrator.advance host task.id "retry") (fun _ _ _ => True) k w := by
  have hnext : nextState task.state "retry" = .ok .recovering := by
    rw [hstate]
    rfl
  obtain ⟨moved, t, hrun, hsequel, -, -, -, found, row, -, -, -, hrows⟩ :=
    succeeds_advance hw hrow hnext
  have hkept : numbersOf t.committed task.id = List.range' 1 n := by
    rw [hsequel.committed hidle, hrows, ← hnumbers, ← hidle.working]
    rfl
  obtain ⟨i, hswitch⟩ := switchesAt_advance hrun
  have hcounts := hswitch.counts (k := k) (J := BoundedBy task.id m) (retryPrice_self task.id)
    ⟨n, hnumbers, hk.le, hle⟩
  rw [hrun] at hcounts
  have hprice := retryPrice_le_one task.id w.committed t.committed
  exact (hcounts ⟨n, hkept, by dsimp only; omega, hle⟩).post fun _ _ _ _ => trivial

/-- INTERNAL: both transactions. -/
theorem keepsCount_startAttempt (hw : Ordered host w) (hidle : w.Idle)
    (hrow : Table.lookup Task.id w.working.tasks task.id = some task) (hstate : task.state = .failed)
    (hnumbers : numbersOf w.committed task.id = List.range' 1 n) (hk : k ≤ n) (hlt : n < m)
    (strategy : RecoveryStrategy) (authority : RecoveryAuthority) :
    KeepsCount task.id m (service.startAttempt host task (n + 1) strategy authority)
      (fun _ _ _ => True) k w := by
  rw [startAttempt_eq]
  refine (keepsCount_recordAttempt hw hidle hrow hnumbers hk hlt strategy authority).bind ?_
    fun _ _ _ _ => trivial
  rintro k' u t ⟨rfl, ht, hidle', htasks, hadded⟩
  have hrow' : Table.lookup Task.id t.working.tasks task.id = some task := htasks ▸ hrow
  exact keepsCount_retry ht hidle' hrow' hstate hadded (Nat.lt_succ_of_le hk) hlt

/-- INTERNAL: what a strategy leads to, while attempts are left.
SOURCE: recovery/service.py:238-275 -/
theorem keepsCount_follow (hw : Ordered host w) (hidle : w.Idle)
    (hrow : Table.lookup Task.id w.working.tasks task.id = some task) (hstate : task.state = .failed)
    (hsteady : Steady task.id (List.range' 1 n) w) (hk : k ≤ n) (hlt : n < m)
    (authority : RecoveryAuthority) (strategy : RecoveryStrategy) :
    KeepsCount task.id m (service.follow host task n authority strategy) (fun _ _ _ => True) k w := by
  have hbounded : BoundedBy task.id m k w.committed := ⟨n, hsteady.committed, hk, hlt.le⟩
  unfold RecoveryService.follow
  split
  · refine (keepsCount_steady ?_ hsteady hbounded).post fun _ _ _ _ => trivial
    exact upholds_advance (lasting_steady host task.id _) _ fun _ => by decide
  · exact trivial
  · exact keepsCount_startAttempt hw hidle hrow hstate hsteady.committed hk hlt _ _

/-- INTERNAL: without an execution on record there is nothing to plan.
SOURCE: recovery/service.py:136-142 -/
theorem planRecovery_raises (service : RecoveryService) (host : Host) (hstate : task.state = .failed)
    (hnone : latestExecution w.working task.id = none) :
    ∃ e, (service.planRecovery host task).run w = (.error e, w) := by
  unfold RecoveryService.planRecovery
  rw [if_pos hstate]
  unfold RecoveryService.planLatest ToolExecutionRepository.getLatestByTask
  rw [Program.run_bind, run_query]
  unfold latestExecution at hnone
  rw [hnone]
  exact ⟨_, rfl⟩

/-- INTERNAL: `begin_recovery` of a FAILED task, after the sweep.
SOURCE: recovery/service.py:221-275 -/
theorem keepsCount_recoverFailed (hw : Sound host w)
    (hrow : Table.lookup Task.id w.working.tasks task.id = some task) (hstate : task.state = .failed)
    (hsteady : Steady task.id (List.range' 1 n) w) (hk : k ≤ n) (hle : n ≤ m)
    (hm : service.retry.policy.maxAttempts = m) :
    KeepsCount task.id m (service.recoverFailed host task) (fun _ _ _ => True) k w := by
  have hI := lasting_steady host task.id (List.range' 1 n)
  have hbounded : ∀ {t : World}, Steady task.id (List.range' 1 n) t →
      BoundedBy task.id m k t.committed := fun h => ⟨n, h.committed, hk, hle⟩
  have hlist : Upholds (Steady task.id (List.range' 1 n))
      (RecoveryAttemptRepository.listByTask task.id) := .query _
  refine (keepsCount_steady hlist hsteady (hbounded hsteady)).bind ?_ fun _ _ _ _ => trivial
  rintro k' previous t ⟨rfl, hsteady', hrun⟩
  obtain ⟨hprevious, rfl⟩ := Prod.mk.inj hrun
  have hmade : previous.length = n := by
    obtain rfl := Except.ok.inj hprevious
    have hperm := (List.perm_insertionSort (fun a b : RecoveryAttempt =>
      a.attemptNumber ≤ b.attemptNumber) (w.working.recoveryAttempts.filter
        (·.taskId = task.id))).length_eq
    have hlength := congrArg List.length hsteady.working
    unfold numbersOf at hlength
    rw [List.length_map, List.length_range', ← hperm] at hlength
    exact hlength
  rw [hmade]
  refine (keepsCount_steady (upholds_authorizeRecovery hI.rows service task "retry" n) hsteady
    (hbounded hsteady)).bind ?_ fun _ _ _ _ => trivial
  rintro k' authority t ⟨rfl, hsteady', hrun⟩
  have hretry : "retry" ∈ RecoveryAuthority.defaultOperations := by decide
  rcases run_authorize service host task n w hretry with ⟨hcovered, _, hok⟩ | ⟨-, e, _, herror⟩
  · obtain ⟨_, _, -, -, -, -, hleft⟩ := hcovered
    obtain ⟨-, rfl⟩ := Prod.mk.inj (hok.symm.trans hrun)
    have hcan : service.retry.canRetry n = true := decide_eq_true hleft
    rw [if_pos hcan]
    have hlater : Sequel host w { w with ticks := w.ticks + 2 } :=
      hw.ordered.sequel_of_eq rfl rfl rfl le_rfl
    refine (keepsCount_steady (upholds_planRecovery hI service task) hsteady'
      (hbounded hsteady')).bind ?_ fun _ _ _ _ => trivial
    rintro k' decision u ⟨rfl, hsteady'', hplan⟩
    cases hlatest : latestExecution w.working task.id with
    | none =>
      obtain ⟨e, herror⟩ := planRecovery_raises (w := { w with ticks := w.ticks + 2 }) service host
        hstate hlatest
      cases herror.symm.trans hplan
    | some execution =>
      obtain ⟨_, v, hplanned, hv, -, row, hrows⟩ :=
        succeeds_planRecovery hlater.toOrdered service hstate hlatest
      obtain ⟨-, rfl⟩ := Prod.mk.inj (hplanned.symm.trans hplan)
      have hrow' : Table.lookup Task.id v.working.tasks task.id = some task := by
        rw [hrows]
        exact hrow
      exact keepsCount_follow hv.toOrdered ((hlater.trans hv).idle hw.idle) hrow' hstate hsteady'' hk
        (hm ▸ hleft) authority decision.strategy
  · cases herror.symm.trans hrun

/-- INTERNAL: looking a task up.
SOURCE: core/orchestrator.py:88-93 -/
theorem getTask_returned {taskId : String} {found : Task} {t : World}
    (h : (Orchestrator.getTask taskId).run w = (.ok found, t)) :
    t = w ∧ Table.lookup Task.id w.working.tasks taskId = some found := by
  unfold Orchestrator.getTask TaskRepository.get at h
  rw [Program.run_bind, run_query] at h
  dsimp only at h
  cases hrow : Table.lookup Task.id w.working.tasks taskId with
  | none =>
    rw [hrow] at h
    cases h
  | some task =>
    rw [hrow] at h
    cases h
    exact ⟨rfl, rfl⟩

/-- INTERNAL: between calls nothing is on the way. -/
theorem Sound.steady (hw : Sound host w) {numbers : List ℕ} {taskId : String}
    (h : numbersOf w.committed taskId = numbers) : Steady taskId numbers w := by
  refine ⟨?_, h, ?_⟩
  · rw [hw.idle.working]
    exact h
  · rw [hw.idle.working]
    exact id

/-- INTERNAL: `begin_recovery` as a whole.
SOURCE: recovery/service.py:209-275 -/
theorem keepsCount_beginRecovery (hw : Sound host w) (adapters : List Adapter) (planner : RetryPolicy)
    (retry : RetryController) (given : Task) (hm : retry.policy.maxAttempts = m)
    (hbounded : BoundedBy given.id m k w.committed) :
    KeepsCount given.id m ((recoveryOver adapters planner retry).beginRecovery host given)
      (fun _ _ _ => True) k w := by
  obtain ⟨n, hnumbers, hk, hle⟩ := hbounded
  have hI := lasting_steady host given.id (List.range' 1 n)
  have hsteady := hw.steady hnumbers
  have hsound := sound_swept adapters planner retry hw
  refine (keepsCount_steady (upholds_reconcileAppPlane hI _) hsteady ⟨n, hnumbers, hk, hle⟩).bind ?_
    fun _ _ _ _ => trivial
  rintro k' _ t ⟨rfl, hsteady', hrun⟩
  unfold swept at hsound
  rw [hrun] at hsound
  have hget : Upholds (Steady given.id (List.range' 1 n)) (Orchestrator.getTask given.id) := by
    refine .bind (.query _) fun found => ?_
    cases found with
    | none => exact .throw _
    | some task => exact .pure _
  refine (keepsCount_steady hget hsteady' ⟨n, hsteady'.committed, hk, hle⟩).bind ?_
    fun _ _ _ _ => trivial
  rintro k' task u ⟨rfl, hsteady'', hfound⟩
  obtain ⟨rfl, hrow⟩ := getTask_returned hfound
  have hid : task.id = given.id := Table.lookup_eq_some_key hrow
  rw [← hid] at hrow hsteady'' ⊢
  split
  · next hstate => exact keepsCount_recoverFailed hsound hrow hstate hsteady'' hk hle hm
  · exact trivial

end Start

/-! ## Runs -/

/-- What may happen to the tasks: recoveries are begun with so many attempts allowed, resolved and
stabilized, plans are made and run, and tasks are executed, verified, moved by other events, cancelled,
resolved and settled after a shutdown. -/
inductive RecoveryCall (host : Host) (maxAttempts : ℕ) : Proc Unit → Prop
  | beginRecovery (adapters : List Adapter) (planner : RetryPolicy) (retry : RetryController)
      (task : Task) (hmax : retry.policy.maxAttempts = maxAttempts) :
      RecoveryCall host maxAttempts
        ((recoveryOver adapters planner retry).beginRecovery host task).void
  | resolveRecovery (service : RecoveryService) (task : Task) (compensator : Compensator) :
      RecoveryCall host maxAttempts (service.resolveRecovery host task compensator).void
  | stabilize (task : Task) :
      RecoveryCall host maxAttempts (RecoveryService.stabilize host task).void
  | runPlan (decision : DecisionService) (execution : ExecutionService)
      (verification : VerificationService) (task : Task) (actingUser : String)
      (explicitUserAck : Bool) :
      RecoveryCall host maxAttempts ((PlanRunner.ofServices host decision execution verification).run
        host task actingUser explicitUserAck).void
  | createAndPlan (service : PlanningService) (given : PlanningRequest) :
      RecoveryCall host maxAttempts (service.createAndPlan host given).void
  | evaluateAndAuthorize (service : DecisionService) (task : Task) (request : AuthorizationRequest) :
      RecoveryCall host maxAttempts (service.evaluateAndAuthorize host task request).void
  | execute (service : ExecutionService) (task : Task) (request : ToolRequest) :
      RecoveryCall host maxAttempts (service.execute host task request).void
  | verify (service : VerificationService) (task : Task) (moreSteps : Bool) :
      RecoveryCall host maxAttempts (service.verify host task moreSteps).void
  | advance (taskId event : String) (hother : event ≠ "retry") :
      RecoveryCall host maxAttempts (Orchestrator.advance host taskId event).void
  | cancelTask (taskId : String) :
      RecoveryCall host maxAttempts (Orchestrator.cancelTask host taskId).void
  | resolveBlocked (service : RecoveryService) (task : Task) (resume : Bool) :
      RecoveryCall host maxAttempts (service.resolveBlocked host task resume).void
  | reconcileStrandedTasks (adapters : List Adapter) (planner : RetryPolicy)
      (retry : RetryController) :
      RecoveryCall host maxAttempts
        ((recoveryOver adapters planner retry).reconcileStrandedTasks host).void

/-- Any sequence of such calls, each killed at any point or not at all. -/
def recoveryUse (host : Host) (maxAttempts : ℕ) : Usage World Err :=
  .free (RecoveryCall host maxAttempts) World.restart

section Runs

variable {host : Host} {taskId : String} {m k : ℕ} {w : World} {p : Proc Unit}

/-- INTERNAL: all of these are calls of the services. -/
theorem RecoveryCall.service (h : RecoveryCall host m p) : ServiceCall host p := by
  cases h with
  | beginRecovery adapters planner retry task => exact .operation (.beginRecovery _ _ _ _)
  | resolveRecovery service task compensator => exact .operation (.resolveRecovery _ _ _)
  | stabilize task => exact .operation (.stabilize _)
  | runPlan => exact .runPlan _ _ _ _ _ _
  | createAndPlan service given => exact .operation (.createAndPlan _ _)
  | evaluateAndAuthorize service task request => exact .operation (.evaluateAndAuthorize _ _ _)
  | execute service task request => exact .operation (.execute _ _ _)
  | verify service task moreSteps => exact .operation (.verify _ _ _)
  | advance taskId event => exact .operation (.advance _ _)
  | cancelTask taskId => exact .operation (.cancelTask _)
  | resolveBlocked service task resume => exact .operation (.resolveBlocked _ _ _)
  | reconcileStrandedTasks => exact .operation (.reconcileStrandedTasks _ _ _)

/-- INTERNAL: a use of the recovery is a history of the services. -/
theorem history_of_recoveryUse (h : History (recoveryUse host m) {} w) :
    History (services host) {} w := by
  induction h with
  | start => exact .start
  | returned _ hp ih => exact ih.returned hp.service
  | crashed _ hp ih => exact ih.crashed hp.service

/-- INTERNAL: every call but one starts no attempt at the task. -/
theorem RecoveryCall.upholds (h : RecoveryCall host m p) (taskId : String) (numbers : List ℕ) :
    Upholds (Steady taskId numbers) p ∨ ∃ adapters planner retry given,
      p = ((recoveryOver adapters planner retry).beginRecovery host given).void ∧
        given.id = taskId ∧ retry.policy.maxAttempts = m := by
  have hI := lasting_steady host taskId numbers
  cases h with
  | beginRecovery adapters planner retry task hmax =>
    by_cases heq : task.id = taskId
    · exact .inr ⟨adapters, planner, retry, task, rfl, heq, hmax⟩
    · exact .inl (.void (upholds_beginRecovery hI (begins_steady host numbers heq)
        (fun h => absurd h heq) (fun _ => by decide) _))
  | resolveRecovery =>
    exact .inl (.void (upholds_resolveRecovery hI (fun _ restored _ => by cases restored <;> decide)
      _ _ _))
  | stabilize => exact .inl (.void (upholds_stabilize hI (fun _ _ => by decide) _))
  | runPlan =>
    exact .inl (.void (upholds_runPlan hI (fun _ _ hother _ => hother) _ _ _ _ _ _))
  | createAndPlan =>
    exact .inl (.void (upholds_createAndPlan hI (fun _ _ => by decide) (fun _ _ => by decide)
      (fun _ _ => by decide) (fun _ _ => by decide) _ _))
  | evaluateAndAuthorize =>
    exact .inl (.void (upholds_evaluateAndAuthorize hI (fun _ _ => by decide) _ _ _))
  | execute =>
    exact .inl (.void (upholds_execute_service hI (fun _ _ => by decide)
      (fun _ outcome _ => by cases outcome <;> decide) _ _ _))
  | verify =>
    exact .inl (.void (upholds_verify hI
      (fun _ verified more _ => by cases verified <;> cases more <;> decide) _ _ _))
  | advance taskId event hother => exact .inl (.void (upholds_advance hI _ fun _ => hother))
  | cancelTask => exact .inl (.void (upholds_cancelTask hI _))
  | resolveBlocked =>
    exact .inl (.void (upholds_resolveBlocked hI (fun _ resume _ => by cases resume <;> decide)
      _ _ _))
  | reconcileStrandedTasks =>
    refine .inl (.void (upholds_reconcileStrandedTasks hI (fun _ state event hevent _ => ?_) _))
    cases state <;> cases hevent <;> decide

/-- INTERNAL: every call keeps the count. -/
theorem RecoveryCall.counts (h : RecoveryCall host m p) (hw : Sound host w)
    (hbounded : BoundedBy taskId m k w.committed) :
    KeepsCount taskId m p (fun _ _ _ => True) k w := by
  obtain ⟨n, hnumbers, -⟩ := id hbounded
  rcases h.upholds taskId (List.range' 1 n) with hsteady |
    ⟨adapters, planner, retry, given, rfl, rfl, hmax⟩
  · exact (keepsCount_steady hsteady (hw.steady hnumbers) hbounded).post fun _ _ _ _ => trivial
  · exact (keepsCount_beginRecovery hw adapters planner retry given hmax hbounded).bind
      (fun _ _ _ _ => trivial) fun _ _ _ _ => trivial

/-- In every run, with crashes anywhere, the stored attempts of a task are numbered from one to at most the
allowed number, after every step; and the task goes from FAILED to RECOVERING at most as often as
attempts are stored.
SOURCE: recovery/service.py:209-275, recovery/authority.py:52-66, recovery/retry.py:18-19 -/
theorem recovery_bounded {steps : List (World × World)} (h : Trail (recoveryUse host m) {} steps w)
    (taskId : String) :
    (∃ n ≤ m, numbersOf w.committed taskId = List.range' 1 n ∧
      (steps.countP fun x => Retried taskId x.1.committed x.2.committed) ≤ n) ∧
    ∀ x ∈ steps, ∃ n ≤ m, numbersOf x.2.committed taskId = List.range' 1 n := by
  have hcall : ∀ k s p, History (recoveryUse host m) {} s → BoundedBy taskId m k s.committed →
      RecoveryCall host m p → KeepsCount taskId m p (fun _ _ _ => True) k s :=
    fun k s p hs hbounded hp => hp.counts (.of_services (history_of_recoveryUse hs)) hbounded
  obtain ⟨hend, hall⟩ := h.counts (I := fun k (t : World) => BoundedBy taskId m k t.committed)
    ⟨0, rfl, le_rfl, Nat.zero_le _⟩ hcall (fun k s p _ hs hbounded hp => hcall k s p hs hbounded hp)
    fun _ _ hbounded => hbounded
  obtain ⟨n, hnumbers, hmoves, hle⟩ := hend
  rw [show spent (fun a b : World => retryPrice taskId a.committed b.committed) steps = _ from
    spent_eq_countP (fun a b : World => Retried taskId a.committed b.committed) steps] at hmoves
  refine ⟨⟨n, hle, hnumbers, hmoves⟩, fun x hx => ?_⟩
  obtain ⟨_, j, hnumbers', -, hle'⟩ := hall x hx
  exact ⟨j, hle', hnumbers'⟩

end Runs

/-- The first note fails, and recovery of its task has begun: one attempt of three, and at most one
move. -/
theorem first_recovery_bounded :
    ∃ steps, Trail (recoveryUse (.plain [] []) 3) {} steps recoveringFirst ∧
      numbersOf recoveringFirst.committed (firstTask recoveringFirst).id = [1] ∧
      (steps.countP fun x =>
        Retried (firstTask recoveringFirst).id x.1.committed x.2.committed) ≤ 1 := by
  have hplanned := (History.start : History (recoveryUse (.plain [] []) 3) {} {}).returned_void
    (.createAndPlan (notesPlanning timingOut) { sessionId := "session", requestText := "note" })
  have hauthorized : History (recoveryUse (.plain [] []) 3) {} authorizedFirst :=
    hplanned.returned_void (.evaluateAndAuthorize {}
      (firstTask (plannedNote (.plain [] []) timingOut)) { capabilities := ["data.read"] })
  have hfailed : History (recoveryUse (.plain [] []) 3) {} failedFirst :=
    hauthorized.returned (.execute (notesExecution timingOut) _ noteRequest)
  have hrecovering : History (recoveryUse (.plain [] []) 3) {} recoveringFirst :=
    hfailed.returned_void (.beginRecovery [] {} {} (firstTask failedFirst) rfl)
  have hfirst : numbersOf recoveringFirst.committed (firstTask recoveringFirst).id = [1] := by
    decide +kernel
  obtain ⟨steps, htrail⟩ := Trail.of_history hrecovering
  obtain ⟨⟨n, -, hnumbers, hmoves⟩, -⟩ :=
    recovery_bounded htrail (firstTask recoveringFirst).id
  have hone : n = 1 := by
    have hlength := congrArg List.length (hnumbers.symm.trans hfirst)
    rwa [List.length_range'] at hlength
  exact ⟨steps, htrail, hfirst, hone ▸ hmoves⟩

end Shea.Analysis
