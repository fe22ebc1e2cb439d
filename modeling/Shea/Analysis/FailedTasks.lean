import Shea.Analysis.RecoveryCalls

/-!
# Recovery of failed tasks

What `begin_recovery` does with a FAILED task. It raises before it plans when a receipt cannot be
observed or the newest grant does not cover a retry; otherwise it follows the strategy of the planner.

The strategy for a security relevant failure is to halt, but FAILED has no `security_halt` edge: the
move is rejected, and the task stays FAILED. A failure that is not recoverable and not security
relevant escalates, and `begin_recovery` makes an attempt of every strategy but halting and aborting.
-/

set_option autoImplicit false

namespace Shea.Analysis

open Shea.Computation Shea.Model

/-! ## Planning and the course of a start -/

/-- The newest execution record of a task. -/
def latestExecution (t : Tables) (taskId : String) : Option ToolExecutionRecord :=
  (t.toolExecutions.filter (·.taskId = taskId)).getLast?

/-- How many recovery attempts of a task are stored. -/
def attemptsMade (t : Tables) (taskId : String) : ℕ :=
  (RecoveryAttemptRepository.ofTables t taskId).length

/-- The newest verification of a task. -/
def latestVerification (t : Tables) (taskId : String) : Option VerificationRecord :=
  (t.verifications.filter (·.taskId = taskId)).getLast?

/-- The strategy the planner chooses for a record. -/
def strategyFor (planner : RetryPolicy) (py : Stdlib) (execution : ToolExecutionRecord) (t : Tables) :
    RecoveryStrategy :=
  (planner.decide execution (classifyFailure py execution) (attemptsMade t execution.taskId)
    (latestVerification t execution.taskId)).strategy

section Planning

variable {host : Host} {w : World} {task : Task} {execution : ToolExecutionRecord}

/-- INTERNAL: the newest record of a task names it. -/
theorem latestExecution_taskId {t : Tables} {taskId : String}
    (h : latestExecution t taskId = some execution) : execution.taskId = taskId := by
  have hmem := List.mem_of_getLast? h
  simpa using (List.mem_filter.mp hmem).2

/-- INTERNAL: planning writes one audit row.
SOURCE: recovery/service.py:130-186 -/
theorem succeeds_planRecovery (hw : Ordered host w) (service : RecoveryService)
    (hstate : task.state = .failed) (hlatest : latestExecution w.working task.id = some execution) :
    Succeeds host (service.planRecovery host task) (fun decision rows =>
      decision.strategy = strategyFor service.planner host.py execution w.working ∧
        ∃ row, rows = withAudit row w.working) w := by
  have htask := latestExecution_taskId hlatest
  unfold RecoveryService.planRecovery
  rw [if_pos hstate]
  refine (Succeeds.query hw (Q := fun found rows => found = some execution ∧ rows = w.working)
    ⟨hlatest, rfl⟩).bind fun found t ht hfound => ?_
  obtain ⟨rfl, hworking⟩ := hfound
  refine (Succeeds.query ht.toOrdered (Q := fun attempts rows =>
    attempts = RecoveryAttemptRepository.ofTables w.working task.id ∧ rows = w.working)
    ⟨by rw [hworking], hworking⟩).bind fun attempts u hu hattempts => ?_
  obtain ⟨rfl, hworking⟩ := hattempts
  refine (Succeeds.query hu.toOrdered (Q := fun verification rows =>
    verification = latestVerification w.working task.id ∧ rows = w.working)
    ⟨by rw [hworking]; rfl, hworking⟩).bind fun verification v hv hverification => ?_
  obtain ⟨rfl, hworking⟩ := hverification
  refine (succeeds_audit hv.toOrdered (by rfl)).bind fun _ x hx hrows => ?_
  refine .pure hx.toOrdered ⟨?_, _, hworking ▸ hrows⟩
  unfold strategyFor attemptsMade
  rw [htask]

end Planning

section Course

variable {host : Host} {w : World} {adapters : List Adapter} {planner : RetryPolicy}
  {retry : RetryController} {given task : Task} {execution : ToolExecutionRecord}

/-- The start gets to its strategy: every unfinished receipt can be observed, and after the sweep the
newest grant covers one more attempt. -/
def ReachesStrategy (adapters : List Adapter) (planner : RetryPolicy) (retry : RetryController)
    (host : Host) (taskId : String) (w : World) : Prop :=
  Observable host w ∧ Covered (recoveryOver adapters planner retry) host taskId
    (attemptsMade w.committed taskId) (swept adapters planner retry host w)

/-- `begin_recovery` of a FAILED task raises without a change to the tables recovery decides by, or it
follows the strategy of the planner.
SOURCE: recovery/service.py:209-245 -/
theorem beginRecovery_course (adapters : List Adapter) (planner : RetryPolicy)
    (retry : RetryController) (hw : Sound host w)
    (hrow : Table.lookup Task.id w.committed.tasks given.id = some task)
    (hstate : task.state = .failed)
    (hlatest : latestExecution w.committed given.id = some execution) :
    (¬ ReachesStrategy adapters planner retry host given.id w ∧ ∃ e t,
      ((recoveryOver adapters planner retry).beginRecovery host given).run w = (.error e, t) ∧
        t.Idle ∧ domainRows t.committed = domainRows w.committed) ∨
    (ReachesStrategy adapters planner retry host given.id w ∧ ∃ authority u,
      ((recoveryOver adapters planner retry).beginRecovery host given).run w =
        ((recoveryOver adapters planner retry).follow host task (attemptsMade w.committed given.id)
          authority (strategyFor planner host.py execution w.committed)).run u ∧
        Ordered host u ∧ u.depth = 0 ∧ domainRows u.working = domainRows w.committed) := by
  have hsweep := sweep_returns_iff adapters planner retry hw
  have hdomain : domainRows (swept adapters planner retry host w).committed =
      domainRows w.committed := domainRows_swept adapters planner retry hw.idle
  have hsound := sound_swept adapters planner retry hw
  have hid : task.id = given.id := Table.lookup_eq_some_key hrow
  unfold ReachesStrategy
  unfold RecoveryService.beginRecovery
  rw [Program.run_bind]
  unfold swept at hdomain hsound
  rw [← hsweep]
  unfold swept
  revert hdomain hsound
  rcases ((recoveryOver adapters planner retry).reconcileAppPlane host).run w with ⟨r, t⟩
  intro hdomain hsound
  cases r with
  | error e =>
    refine .inl ⟨?_, e, t, rfl, hsound.idle, hdomain⟩
    rintro ⟨⟨results, h⟩, -⟩
    cases h
  | ok results =>
    dsimp only at hdomain hsound ⊢
    have hworking : domainRows t.working = domainRows w.committed := by
      rw [hsound.idle.working, hdomain]
    have hsame := sameDomain hworking
    have hget : (Orchestrator.getTask given.id).run t = (.ok task, t) := by
      unfold Orchestrator.getTask TaskRepository.get
      rw [Program.run_bind, run_query, hsame.tasks, hrow]
      rfl
    rw [Program.run_bind, hget]
    dsimp only
    rw [if_pos hstate]
    unfold RecoveryService.recoverFailed RecoveryAttemptRepository.listByTask
    have hmade : (RecoveryAttemptRepository.ofTables t.working task.id).length =
        attemptsMade w.committed given.id := by
      unfold attemptsMade RecoveryAttemptRepository.ofTables
      rw [hsame.recoveryAttempts, hid]
    rw [Program.run_bind, run_query]
    dsimp only
    rw [hmade, Program.run_bind]
    have hretry : "retry" ∈ RecoveryAuthority.defaultOperations := by decide
    have hauthorize := run_authorize (recoveryOver adapters planner retry) host task
      (attemptsMade w.committed given.id) t hretry
    rw [hid] at hauthorize
    rcases hauthorize with ⟨hcovered, authority, hrun⟩ | ⟨hcovered, e, n, hrun⟩
    · refine .inr ⟨⟨⟨results, rfl⟩, hcovered⟩, authority, ?_⟩
      have hleft : (recoveryOver adapters planner retry).retry.canRetry
          (attemptsMade w.committed given.id) = true := by
        obtain ⟨_, _, _, _, _, _, hleft⟩ := hcovered
        exact decide_eq_true hleft
      rw [hrun]
      dsimp only
      rw [if_pos hleft]
      have hlater : Sequel host t { t with ticks := t.ticks + 2 } :=
        hsound.ordered.sequel_of_eq rfl rfl rfl le_rfl
      have hlatest' : latestExecution t.working task.id = some execution := by
        unfold latestExecution at hlatest ⊢
        rw [hsame.toolExecutions, hid]
        exact hlatest
      obtain ⟨decision, u, hplan, hu, hstrategy, row, hrow'⟩ :=
        succeeds_planRecovery hlater.toOrdered (recoveryOver adapters planner retry) hstate hlatest'
      have hchosen : strategyFor planner host.py execution t.working =
          strategyFor planner host.py execution w.committed := by
        unfold strategyFor attemptsMade latestVerification RecoveryAttemptRepository.ofTables
        rw [hsame.recoveryAttempts, hsame.verifications]
      refine ⟨u, ?_, hu.toOrdered, hu.depth.trans hsound.idle.depth, ?_⟩
      · rw [Program.run_bind, hplan, ← hchosen]
        dsimp only
        rw [hstrategy]
        rfl
      · rw [hrow']
        exact hworking
    · refine .inl ⟨fun h => hcovered h.2, e, { t with ticks := t.ticks + n }, ?_, ?_, hdomain⟩
      · rw [hrun]
      · exact ⟨hsound.idle.depth, hsound.idle.working⟩

/-- INTERNAL: a stored state comes from a stored row. -/
theorem lookup_of_storedState {t : Tables} {taskId : String} {state : TaskState}
    (h : storedState t taskId = some state) :
    ∃ task, Table.lookup Task.id t.tasks taskId = some task ∧ task.id = taskId ∧
      task.state = state := by
  unfold storedState at h
  obtain ⟨task, hrow, hstate⟩ := Option.map_eq_some_iff.mp h
  exact ⟨task, hrow, Table.lookup_eq_some_key hrow, hstate⟩

/-- INTERNAL: the same tasks have the same states. -/
theorem SameDomain.storedState {t t' : Tables} (h : SameDomain t t') (taskId : String) :
    storedState t taskId = storedState t' taskId := by
  unfold Analysis.storedState
  rw [h.tasks]

end Course

/-! ## Security relevant failures -/

section Halting

variable {host : Host} {w : World} {adapters : List Adapter} {planner : RetryPolicy}
  {retry : RetryController} {given : Task} {execution : ToolExecutionRecord}

/-- `begin_recovery` returns with the task in SECURITY_HALT, and without a new attempt. -/
def HaltsOn (service : RecoveryService) (host : Host) (given : Task) (w : World) : Prop :=
  ∃ task t, (service.beginRecovery host given).run w = (.ok task, t) ∧
    storedState t.committed given.id = some .securityHalt ∧
    t.committed.recoveryAttempts = w.committed.recoveryAttempts

/-- INTERNAL: a start after a security relevant failure raises.
SOURCE: recovery/service.py:209-245, state_machine/transitions.py:56-58 -/
theorem raises_of_securityRelevant (adapters : List Adapter) (planner : RetryPolicy)
    (retry : RetryController) (h : History (services host) {} w)
    (hfailed : storedState w.committed given.id = some .failed)
    (hlatest : latestExecution w.committed given.id = some execution)
    (hsecurity : (classifyFailure host.py execution).securityRelevant = true) :
    ∃ e t, ((recoveryOver adapters planner retry).beginRecovery host given).run w = (.error e, t) ∧
      storedState t.committed given.id = some .failed ∧
      t.committed.recoveryAttempts = w.committed.recoveryAttempts := by
  obtain ⟨task, hrow, hid, hstate⟩ := lookup_of_storedState hfailed
  rcases beginRecovery_course adapters planner retry (Sound.of_services h) hrow hstate hlatest with
    ⟨-, e, t, hrun, -, hsame⟩ | ⟨-, authority, u, hrun, hu, hdepth, hsame⟩
  · have hdomain := sameDomain hsame
    exact ⟨e, t, hrun, (hdomain.storedState _).trans hfailed, hdomain.recoveryAttempts⟩
  · have hdomain := sameDomain hsame
    have hstrategy : strategyFor planner host.py execution w.committed = .securityHalt := by
      unfold strategyFor RetryPolicy.decide
      rw [if_pos hsecurity]
    have hrow' : Table.lookup Task.id u.working.tasks task.id = some task := by
      rw [hdomain.tasks, hid]
      exact hrow
    have hillegal : nextState task.state "security_halt" =
        .error (.illegalTransition .failed "security_halt") := by
      rw [hstate]
      rfl
    obtain ⟨t, hadvance, hsequel, row, -, hrows⟩ := raises_advance hu hrow' hillegal
    rw [hstrategy] at hrun
    have hcommitted : t.committed = withAudit row u.working :=
      (hsequel.settled (hsequel.depth.trans hdepth)).trans hrows
    refine ⟨_, t, hrun.trans hadvance, ?_, ?_⟩
    · rw [hcommitted]
      exact (hdomain.storedState given.id).trans hfailed
    · rw [hcommitted]
      exact hdomain.recoveryAttempts

/-- A FAILED task whose latest execution is security relevant is never halted: `begin_recovery` raises,
the task stays FAILED, and no attempt is stored. When the sweep and the authority let it pass, the
planner chooses to halt, and the transition table rejects the move.
SOURCE: recovery/service.py:209-245, state_machine/transitions.py:56-58 -/
theorem security_failure_never_halts (h : History (services host) {} w)
    (hfailed : storedState w.committed given.id = some .failed)
    (hlatest : latestExecution w.committed given.id = some execution)
    (hsecurity : (classifyFailure host.py execution).securityRelevant = true) :
    ¬ HaltsOn (recoveryOver adapters planner retry) host given w ∧ ∃ e t,
      ((recoveryOver adapters planner retry).beginRecovery host given).run w = (.error e, t) ∧
        storedState t.committed given.id = some .failed ∧
        t.committed.recoveryAttempts = w.committed.recoveryAttempts := by
  have hraises :=
    raises_of_securityRelevant adapters planner retry h hfailed hlatest hsecurity
  refine ⟨?_, hraises⟩
  rintro ⟨moved, v, hok, -⟩
  obtain ⟨e, t, hrun, -⟩ := hraises
  rw [hrun] at hok
  cases hok

end Halting

section Start

variable {host : Host} {w : World} {task : Task}

/-- INTERNAL: a list of texts is JSON. -/
theorem serializable_texts (texts : List String) :
    (Value.list (texts.map Value.str)).serializable = true := by
  show Value.serializableList (texts.map Value.str) = true
  induction texts with
  | nil => rfl
  | cons text rest ih => exact ih

/-- INTERNAL: what the audit row of an attempt says is JSON.
SOURCE: recovery/service.py:247-270, recovery/authority.py:72-84 -/
theorem serializable_attemptEntry (py : Stdlib) (attempt : RecoveryAttempt)
    (strategy : RecoveryStrategy) (authority : RecoveryAuthority) :
    (Value.dict [("attempt_number", .int attempt.attemptNumber), ("strategy", .str strategy.value),
      ("delay_seconds", .float attempt.delaySeconds),
      ("recovery_authority", .dict (authority.toAuditDict py))]).serializable = true := by
  have hcapabilities := serializable_texts (sortedTexts authority.capabilities)
  have hoperations := serializable_texts (sortedTexts authority.permittedOperations)
  unfold RecoveryAuthority.toAuditDict
  simp only [Value.serializable, Value.serializableDict, Bool.true_and, Bool.and_true] at *
  rw [hcapabilities, hoperations]
  cases authority.planHash <;> rfl

/-- INTERNAL: the state of a task after its move. -/
theorem MoveRows.storedState {event : String} {newState : TaskState} {before rows : Tables}
    (h : MoveRows task event newState before rows)
    (hrow : Table.lookup Task.id before.tasks task.id = some task) :
    storedState rows task.id = some newState := by
  obtain ⟨moved, row, hid, hstate, -, rfl⟩ := h
  rw [← hid] at hrow ⊢
  exact (storedState_put hrow).trans (congrArg some hstate)

/-- INTERNAL: the first transaction of a start is never refused while the task is stored.
SOURCE: recovery/service.py:243-270 -/
theorem succeeds_recordAttempt (hw : Ordered host w) (service : RecoveryService) (number : ℕ)
    (strategy : RecoveryStrategy) (authority : RecoveryAuthority)
    (hrow : Table.lookup Task.id w.working.tasks task.id = some task) :
    Succeeds host (recordAttempt service host task number strategy authority)
      (fun _ rows => rows.tasks = w.working.tasks ∧ ∃ attempt : RecoveryAttempt,
        attempt.taskId = task.id ∧ attempt.attemptNumber = number ∧
        rows.recoveryAttempts = w.working.recoveryAttempts ++ [attempt]) w := by
  refine (Succeeds.get hw (Q := fun _ rows => rows = w.working) rfl).bind
    fun instant t ht hrows => .withUow (succeeds_drawn ht.enter fun hdrawn => ?_)
  let attempt : RecoveryAttempt :=
    { id := host.newId t.nextId
      taskId := task.id
      attemptNumber := number
      delaySeconds := service.retry.delayFor number instant }
  have hstored : t.working.hasTask task.id = true := by
    rw [hrows]
    exact List.any_eq_true.mpr ⟨task, Table.lookup_mem hrow, decide_eq_true rfl⟩
  have hadded : Table.upsert RecoveryAttempt.id RecoveryAttemptRepository.merge attempt
      t.working.recoveryAttempts = t.working.recoveryAttempts ++ [attempt] :=
    Table.upsert_of_new fun old hold => (ht.registered.recoveryAttempts old hold).ne le_rfl
  refine (succeeds_writeChecked (w := { t.enter with nextId := t.enter.nextId + 1 })
    _ (withAttempt attempt) (Bool.or_eq_true_iff.mpr (.inr hstored)) (hdrawn.registered.saveAttempt
      ⟨t.nextId, Nat.lt_succ_self _, rfl⟩)).bind fun _ u hu hsaved => ?_
  refine (succeeds_audit hu.toOrdered (serializable_attemptEntry host.py attempt strategy
    authority)).mono fun _ rows haudited => ?_
  rw [haudited, hsaved, ← hrows]
  exact ⟨rfl, attempt, rfl, rfl, hadded⟩

/-- A start of a stored FAILED task is never refused: it stores one attempt with the next number, and
moves the task to RECOVERING.
SOURCE: recovery/service.py:243-275 -/
theorem succeeds_startAttempt (hw : Ordered host w) (service : RecoveryService) (number : ℕ)
    (strategy : RecoveryStrategy) (authority : RecoveryAuthority) (hstate : task.state = .failed)
    (hrow : Table.lookup Task.id w.working.tasks task.id = some task) :
    Succeeds host (service.startAttempt host task number strategy authority) (fun _ rows =>
      storedState rows task.id = some .recovering ∧ ∃ attempt : RecoveryAttempt,
        attempt.taskId = task.id ∧ attempt.attemptNumber = number ∧
        rows.recoveryAttempts = w.working.recoveryAttempts ++ [attempt]) w := by
  rw [startAttempt_eq]
  refine (succeeds_recordAttempt hw service number strategy authority hrow).bind
    fun _ t ht hrows => ?_
  obtain ⟨htasks, attempt, hof, hnumber, hattempts⟩ := hrows
  have hrow' : Table.lookup Task.id t.working.tasks task.id = some task := by
    rw [htasks]
    exact hrow
  have hnext : nextState task.state "retry" = .ok .recovering := by
    rw [hstate]
    rfl
  refine (succeeds_advance ht.toOrdered hrow' hnext).mono fun moved rows h => ?_
  obtain ⟨-, -, -, hmove⟩ := h
  refine ⟨hmove.storedState hrow', attempt, hof, hnumber, ?_⟩
  obtain ⟨_, _, -, -, -, rfl⟩ := hmove
  exact hattempts

end Start

/-! ## Failures that are not recoverable -/

section Unrecoverable

variable {host : Host} {w : World} {adapters : List Adapter} {planner : RetryPolicy}
  {retry : RetryController} {given : Task} {execution : ToolExecutionRecord}

/-- `begin_recovery` neither moves the task to RECOVERING nor stores an attempt: it raises, or the task
is halted. -/
def NotRecovered (service : RecoveryService) (host : Host) (given : Task) (w : World) : Prop :=
  ∃ r t, (service.beginRecovery host given).run w = (r, t) ∧
    storedState t.committed given.id ≠ some .recovering ∧
    t.committed.recoveryAttempts = w.committed.recoveryAttempts ∧
    ((∃ e, r = .error e) ∨ storedState t.committed given.id = some .securityHalt)

/-- INTERNAL: what is neither recoverable nor security relevant is an invalid input.
SOURCE: recovery/classifier.py:95-107 -/
theorem classifyFailure_invalid {py : Stdlib}
    (hrecoverable : (classifyFailure py execution).recoverable = false)
    (hsecurity : (classifyFailure py execution).securityRelevant = false) :
    execution.outcome ≠ .unknown ∧ (classifyFailure py execution).retryable = false ∧
      (classifyFailure py execution).reversible = false ∧
      (classifyFailure py execution).category = .invalidInput := by
  by_cases hunknown : execution.outcome = .unknown
  · unfold classifyFailure at hrecoverable
    rw [if_pos hunknown] at hrecoverable
    cases hrecoverable
  rw [classifyFailure_known hunknown] at hrecoverable hsecurity ⊢
  refine ⟨hunknown, ?_⟩
  unfold classOf at *
  cases hfound : failureWords.find? fun entry => mentions (loweredError py execution) entry.1 with
  | none =>
    rw [hfound] at hrecoverable
    cases hrecoverable
  | some entry =>
    rw [hfound] at hrecoverable hsecurity
    have hmem := List.mem_of_find?_eq_some hfound
    obtain ⟨words, classification⟩ := entry
    simp only [failureWords, List.mem_cons, Prod.mk.injEq, List.not_mem_nil, or_false] at hmem
    rcases hmem with ⟨-, rfl⟩ | ⟨-, rfl⟩ | ⟨-, rfl⟩ | ⟨-, rfl⟩ | ⟨-, rfl⟩ | ⟨-, rfl⟩ | ⟨-, rfl⟩
    · cases hrecoverable
    · cases hrecoverable
    · cases hrecoverable
    · cases hsecurity
    · cases hsecurity
    · exact ⟨rfl, rfl, rfl⟩
    · cases hsecurity

/-- INTERNAL: the planner escalates it while it has attempts left, and aborts after that.
SOURCE: recovery/planner.py:28-120 -/
theorem strategyFor_invalid (planner : RetryPolicy) {py : Stdlib} (t : Tables)
    (hrecoverable : (classifyFailure py execution).recoverable = false)
    (hsecurity : (classifyFailure py execution).securityRelevant = false) :
    strategyFor planner py execution t =
      if planner.maxAttempts ≤ attemptsMade t execution.taskId then .abort else .escalate := by
  obtain ⟨hknown, hretryable, hreversible, hcategory⟩ :=
    classifyFailure_invalid hrecoverable hsecurity
  unfold strategyFor RetryPolicy.decide
  rw [hsecurity, hretryable, hreversible, hcategory, if_neg (by decide)]
  by_cases hspent : planner.maxAttempts ≤ attemptsMade t execution.taskId
  · rw [if_pos hspent, if_pos hspent]
  · rw [if_neg hspent, if_neg hspent, if_neg hknown]
    rfl

/-- A FAILED task whose latest execution is not recoverable is left alone exactly when the failure is
security relevant, or the start does not reach its strategy (a receipt cannot be observed, or the newest
grant does not cover one more attempt), or the planner's budget is exhausted. In every other case an
attempt is stored and the task is moved to RECOVERING.
SOURCE: recovery/service.py:209-275, recovery/planner.py:28-120 -/
theorem unrecoverable_not_recovered_iff (h : History (services host) {} w)
    (hfailed : storedState w.committed given.id = some .failed)
    (hlatest : latestExecution w.committed given.id = some execution)
    (hrecoverable : (classifyFailure host.py execution).recoverable = false) :
    NotRecovered (recoveryOver adapters planner retry) host given w ↔
      (classifyFailure host.py execution).securityRelevant = true ∨
      ¬ ReachesStrategy adapters planner retry host given.id w ∨
      planner.maxAttempts ≤ attemptsMade w.committed given.id := by
  cases hsecurity : (classifyFailure host.py execution).securityRelevant with
  | true =>
    obtain ⟨e, t, hrun, hstate, hattempts⟩ :=
      raises_of_securityRelevant adapters planner retry h hfailed hlatest hsecurity
    refine iff_of_true ⟨_, t, hrun, ?_, hattempts, .inl ⟨e, rfl⟩⟩ (.inl rfl)
    rw [hstate]
    exact fun heq => by cases heq
  | false =>
    obtain ⟨task, hrow, hid, hstate⟩ := lookup_of_storedState hfailed
    have hstrategy := strategyFor_invalid planner w.committed hrecoverable hsecurity
    rw [latestExecution_taskId hlatest] at hstrategy
    rcases beginRecovery_course adapters planner retry (Sound.of_services h) hrow hstate hlatest with
      ⟨hstopped, e, t, hrun, -, hsame⟩ | ⟨hreaches, authority, u, hrun, hu, hdepth, hsame⟩
    · have hdomain := sameDomain hsame
      refine iff_of_true ⟨_, t, hrun, ?_, hdomain.recoveryAttempts, .inl ⟨e, rfl⟩⟩
        (.inr (.inl hstopped))
      rw [hdomain.storedState, hfailed]
      exact fun heq => by cases heq
    · have hdomain := sameDomain hsame
      rw [hstrategy] at hrun
      by_cases hspent : planner.maxAttempts ≤ attemptsMade w.committed given.id
      · rw [if_pos hspent] at hrun
        have hcommitted : u.committed = u.working := hu.settled hdepth
        refine iff_of_true ⟨_, u, hrun, ?_, ?_, .inl ⟨_, rfl⟩⟩ (.inr (.inr hspent))
        · rw [hcommitted, hdomain.storedState, hfailed]
          exact fun heq => by cases heq
        · rw [hcommitted]
          exact hdomain.recoveryAttempts
      · rw [if_neg hspent] at hrun
        have hrow' : Table.lookup Task.id u.working.tasks task.id = some task := by
          rw [hdomain.tasks, hid]
          exact hrow
        obtain ⟨moved, t, hstart, hsequel, hrecovering, -⟩ := succeeds_startAttempt hu
          (recoveryOver adapters planner retry) (attemptsMade w.committed given.id + 1) .escalate
          authority hstate hrow'
        refine iff_of_false ?_ ?_
        · rintro ⟨r, v, hrun', hnot, -⟩
          have hend : (r, v) = (.ok moved, t) := hrun'.symm.trans (hrun.trans hstart)
          obtain ⟨-, rfl⟩ := Prod.mk.inj hend
          have hcommitted : v.committed = v.working :=
            hsequel.settled (hsequel.depth.trans hdepth)
          rw [hcommitted, ← hid] at hnot
          exact hnot hrecovering
        · rintro (hyes | hstopped | hspent')
          · cases hyes
          · exact hstopped hreaches
          · exact hspent hspent'

end Unrecoverable

/-- A handler that refuses every note with the text. -/
def refusing (text : String) : ToolHandler :=
  fun _ _ => .ok { success := false, error := some text }

/-- The first task, authorized to take its note. -/
def authorizedToRefuse (text : String) : World :=
  authorizedNote (.plain [] []) (plannedNote (.plain [] []) (refusing text))

/-- The state after the first note was refused with the text. -/
def refusedNote (text : String) : World :=
  (((notesExecution (refusing text)).execute (.plain [] []) (firstTask (authorizedToRefuse text))
    noteRequest).run (authorizedToRefuse text)).2

/-- The start of its recovery. -/
def recoveryOfRefused (text : String) : Except Err Task × World :=
  ((recoveryOver [] {} {}).beginRecovery (.plain [] []) (firstTask (refusedNote text))).run
    (refusedNote text)

/-- INTERNAL: planning, authorizing and executing are calls of the services. -/
theorem history_refusedNote (text : String) :
    History (services (.plain [] [])) {} (refusedNote text) := by
  have hplanned := (History.start : History (services (.plain [] [])) {} {}).returned_void
    (.operation (.createAndPlan (notesPlanning (refusing text))
      { sessionId := "session", requestText := "note" }))
  have hauthorized := hplanned.returned_void (.operation (.evaluateAndAuthorize {}
    (firstTask (plannedNote (.plain [] []) (refusing text))) { capabilities := ["data.read"] }))
  exact hauthorized.returned_void (.operation (.execute (notesExecution (refusing text)) _ noteRequest))

/-- INTERNAL: a note whose handler answers "forbidden" fails, is classified security relevant and not
recoverable, and the authority and the budget let its recovery come to the halt. -/
theorem forbidden_note_run :
    storedState (refusedNote "forbidden").committed (firstTask (refusedNote "forbidden")).id =
        some .failed ∧
      (latestExecution (refusedNote "forbidden").committed
        (firstTask (refusedNote "forbidden")).id).any (fun execution =>
          (classifyFailure .plain execution).securityRelevant &&
            !(classifyFailure .plain execution).recoverable) = true ∧
      (recoveryOfRefused "forbidden").1 = .error (.illegalTransition .failed "security_halt") := by
  decide +kernel

/-- Its `begin_recovery` raises on the way: the task is not halted.
SOURCE: recovery/service.py:241-242, state_machine/transitions.py:56-58 -/
theorem forbidden_note_not_halted :
    storedState (refusedNote "forbidden").committed (firstTask (refusedNote "forbidden")).id =
        some .failed ∧
      (recoveryOfRefused "forbidden").1 = .error (.illegalTransition .failed "security_halt") ∧
      ¬ HaltsOn (recoveryOver [] {} {}) (.plain [] []) (firstTask (refusedNote "forbidden"))
        (refusedNote "forbidden") := by
  obtain ⟨hfailed, -, herror⟩ := forbidden_note_run
  refine ⟨hfailed, herror, ?_⟩
  rintro ⟨task, t, hok, -⟩
  rw [show recoveryOfRefused "forbidden" = (.ok task, t) from hok] at herror
  cases herror

/-- The general reason. -/
theorem forbidden_note_never_halts :
    ¬ HaltsOn (recoveryOver [] {} {}) (.plain [] []) (firstTask (refusedNote "forbidden"))
      (refusedNote "forbidden") := by
  obtain ⟨hfailed, hclass, -⟩ := forbidden_note_run
  obtain ⟨execution, hlatest, hboth⟩ := (Option.any_eq_true _ _).mp hclass
  obtain ⟨hsecurity, -⟩ := Bool.and_eq_true_iff.mp hboth
  exact (security_failure_never_halts (history_refusedNote _) hfailed hlatest hsecurity).1

/-- It is not recovered either. -/
theorem forbidden_note_not_recovered :
    NotRecovered (recoveryOver [] {} {}) (.plain [] []) (firstTask (refusedNote "forbidden"))
      (refusedNote "forbidden") := by
  obtain ⟨hfailed, hclass, -⟩ := forbidden_note_run
  obtain ⟨execution, hlatest, hboth⟩ := (Option.any_eq_true _ _).mp hclass
  obtain ⟨hsecurity, hunrecoverable⟩ := Bool.and_eq_true_iff.mp hboth
  exact (unrecoverable_not_recovered_iff (history_refusedNote _) hfailed hlatest
    ((Bool.not_eq_true' _).mp hunrecoverable)).mpr (.inl hsecurity)

/-- A note whose handler answers "invalid input" is classified as not recoverable, and its recovery is
begun all the same. -/
theorem invalid_note_recovered :
    (latestExecution (refusedNote "invalid input").committed
        (firstTask (refusedNote "invalid input")).id).any
          (fun execution => !(classifyFailure .plain execution).recoverable) = true ∧
      storedState (refusedNote "invalid input").committed
        (firstTask (refusedNote "invalid input")).id = some .failed ∧
      (recoveryOfRefused "invalid input").2.committed.recoveryAttempts.length = 1 ∧
      ¬ NotRecovered (recoveryOver [] {} {}) (.plain [] []) (firstTask (refusedNote "invalid input"))
        (refusedNote "invalid input") := by
  have hrun : (latestExecution (refusedNote "invalid input").committed
        (firstTask (refusedNote "invalid input")).id).any
          (fun execution => !(classifyFailure .plain execution).recoverable) = true ∧
      storedState (refusedNote "invalid input").committed
        (firstTask (refusedNote "invalid input")).id = some .failed ∧
      (recoveryOfRefused "invalid input").2.committed.recoveryAttempts.length = 1 ∧
      storedState (recoveryOfRefused "invalid input").2.committed
        (firstTask (refusedNote "invalid input")).id = some .recovering := by
    decide +kernel
  refine ⟨hrun.1, hrun.2.1, hrun.2.2.1, ?_⟩
  rintro ⟨r, t, hend, hnot, -⟩
  have hstate := hrun.2.2.2
  rw [show recoveryOfRefused "invalid input" = (r, t) from hend] at hstate
  exact hnot hstate

end Shea.Analysis
