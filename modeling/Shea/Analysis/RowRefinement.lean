import Shea.Computation.Simulation
import Shea.Analysis.PlanStore
import Shea.Analysis.RowCodecs

/-!
# Rows and tables in lockstep

What uses the repositories sees no difference between rows of text and tables of records: each of their
calls, and `with unit_of_work`, goes in lockstep on both. So every client that saves well-formed records gets
the same answers and the same exceptions, in nested units of work too, and wherever it is stopped, the rows
that are committed are those of the records that are committed.
-/

set_option autoImplicit false

namespace Shea.Analysis

open Shea.Computation Shea.Model Program

/-! ## Statements and queries -/

/-- The rows are those of the records. -/
structure RowsHold (py : Stdlib) (floatOf : String → PyFloat) (db : RowDatabase) (t : Tables) : Prop where
  tasks : StoredRows (rowOfTask py) (TaskStored py floatOf) db.tasks t.tasks
  plans : StoredRows (Sql.PlanRepository.row py) (·.steps = []) db.plans t.plans
  planSteps : StoredRows (rowOfStep py) (fun step => KeptByJson py floatOf (.dict step.arguments))
    db.planSteps t.planSteps
  decisions : StoredRows (Sql.DecisionRepository.row py) (fun _ => True) db.decisions t.decisions
  authorizations : StoredRows (Sql.AuthorizationRepository.row py) AuthorizationKept db.authorizations
    t.authorizations
  toolExecutions : StoredRows (rowOfExecution py) (ExecutionRecordStored py floatOf) db.toolExecutions t.toolExecutions
  verifications : StoredRows Sql.VerificationRepository.row (fun _ => True) db.verifications t.verifications
  recoveryAttempts : StoredRows Sql.RecoveryAttemptRepository.row (·.delaySeconds ≠ .nan) db.recoveryAttempts
    t.recoveryAttempts
  receipts : StoredRows (rowOfReceipt py) (ReceiptStored py floatOf) db.receipts t.receipts
  attempts : StoredRows (rowOfAttempt py) (AttemptStored py floatOf) db.attempts t.attempts
  idempotency : StoredRows (Sql.IdempotencyRepository.row py) IdempotencyKept db.idempotency t.idempotency

/-- Both connections see the same, have committed the same, and have as many blocks open. -/
structure SameStores (py : Stdlib) (floatOf : String → PyFloat) (s : RowWorld) (w : World) : Prop where
  working : RowsHold py floatOf s.working w.working
  committed : RowsHold py floatOf s.committed w.committed
  depth : s.depth = w.depth

section Statements

variable {py : Stdlib} {floatOf : String → PyFloat} {α : Type} {good : α → Prop}

/-- INTERNAL: both enter a block. -/
theorem SameStores.enter {s : RowWorld} {w : World} (h : SameStores py floatOf s w) :
    SameStores py floatOf s.enter w.enter := ⟨h.working, h.committed, congrArg (· + 1) h.depth⟩

/-- INTERNAL: both leave it, and commit or roll back. -/
theorem SameStores.exit {s : RowWorld} {w : World} (h : SameStores py floatOf s w) (clean : Bool) :
    SameStores py floatOf (s.exit clean) (w.exit clean) := by
  have hdepth : s.depth - 1 = w.depth - 1 := congrArg (· - 1) h.depth
  unfold RowWorld.exit World.exit
  rw [hdepth]
  split
  · exact ⟨h.working, h.committed, rfl⟩
  · cases clean with
    | false => exact ⟨h.committed, h.committed, rfl⟩
    | true => exact ⟨h.working, h.working, rfl⟩

/-- `with unit_of_work: body`. -/
theorem lockstep_withUow {body : RowProc α} {body' : Proc α}
    (h : Lockstep (SameStores py floatOf) good body body') :
    Lockstep (SameStores py floatOf) good (Sql.withUow body) (withUow body') := by
  refine (lockstep_modify fun _ _ => SameStores.enter).andThen (h.attempt.bind fun outcome houtcome => ?_)
  have hexit (clean : Bool) : Lockstep (SameStores py floatOf) (fun _ => True)
      (Program.modify (RowWorld.exit clean) : RowProc Unit) (Program.modify (World.exit clean)) :=
    lockstep_modify fun _ _ hst => hst.exit clean
  cases outcome with
  | ok a => exact (hexit true).andThen (lockstep_pure (houtcome a rfl))
  | error e => exact (hexit false).andThen (lockstep_throw e)

/-- A statement that writes. -/
theorem lockstep_execute {statement : RowDatabase → RowDatabase} {statement' : Tables → Tables}
    (h : ∀ db t, RowsHold py floatOf db t → RowsHold py floatOf (statement db) (statement' t)) :
    Lockstep (SameStores py floatOf) (fun _ => True) (Sql.execute statement) (execute statement') :=
  lockstep_modify fun _ _ hst => ⟨h _ _ hst.working, hst.committed, hst.depth⟩

/-- A statement that writes if a constraint holds. -/
theorem lockstep_executeChecked {holds : RowDatabase → Bool} {holds' : Tables → Bool} (message : String)
    {statement : RowDatabase → RowDatabase} {statement' : Tables → Tables}
    (hholds : ∀ db t, RowsHold py floatOf db t → holds db = holds' t)
    (h : ∀ db t, RowsHold py floatOf db t → RowsHold py floatOf (statement db) (statement' t)) :
    Lockstep (SameStores py floatOf) (fun _ => True) (Sql.executeChecked holds message statement)
      (executeChecked holds' message statement') := by
  have hact : Lockstep (SameStores py floatOf) (fun _ => True)
      (Program.act (fun s => holds s.working) (fun s => if holds s.working then
        { s with working := statement s.working } else s) : RowProc Bool)
      (Program.act (fun w => holds' w.working) fun w => if holds' w.working then
        { w with working := statement' w.working } else w) := by
    refine lockstep_act (fun s w hst => ⟨hholds _ _ hst.working, trivial⟩) fun s w hst => ?_
    rw [hholds _ _ hst.working]
    split
    · exact ⟨h _ _ hst.working, hst.committed, hst.depth⟩
    · exact hst
  refine hact.bind fun passed _ => ?_
  cases passed with
  | false => exact lockstep_throw _
  | true => exact lockstep_pure trivial

variable {write : α → Row Cell} {Good : α → Prop} {read : Row Cell → Option α}

/-- The records of the rows that a query selects. -/
theorem lockstep_fetchAll (hread : ∀ record, Good record → read (write record) = some record)
    {view : RowDatabase → List (Row Cell)} {view' : Tables → List α}
    (h : ∀ db t, RowsHold py floatOf db t → StoredRows write Good (view db) (view' t)) :
    Lockstep (SameStores py floatOf) (fun records => ∀ record ∈ records, Good record)
      (Sql.query view >>= Sql.fetchAll read) (query view') := by
  refine lockstep_get_bind fun s w hst => ?_
  have hstored := h _ _ hst.working
  refine ⟨?_, hstored.good⟩
  unfold Sql.fetchAll
  rw [hstored.mapM_eq hread]

/-- INTERNAL: the record of the row that was fetched. -/
theorem fetchOne_eq (hread : ∀ record, Good record → read (write record) = some record)
    {row : Option (Row Cell)} {record : Option α} (h : StoredRows write Good row.toList record.toList) :
    Sql.fetchOne read row = pure record := by
  unfold Sql.fetchOne Sql.fetchAll
  rw [h.mapM_eq hread]
  cases record <;> rfl

/-- The record of the row that a query selects, if there is one. -/
theorem lockstep_fetchOne (hread : ∀ record, Good record → read (write record) = some record)
    {view : RowDatabase → Option (Row Cell)} {view' : Tables → Option α}
    (h : ∀ db t, RowsHold py floatOf db t → StoredRows write Good (view db).toList (view' t).toList) :
    Lockstep (SameStores py floatOf) (fun answer => ∀ record ∈ answer, Good record)
      (Sql.query view >>= Sql.fetchOne read) (query view') :=
  lockstep_get_bind fun _ _ hst =>
    ⟨fetchOne_eq hread (h _ _ hst.working), fun _ hrecord =>
      (h _ _ hst.working).good _ (Option.mem_toList.mpr hrecord)⟩

end Statements

/-! ## The repositories -/

section Repositories

variable {py : Stdlib} {floatOf : String → PyFloat} {α : Type} {good : α → Prop}

/-- A column of JSON text and the check of it: both raise the same, or the cell is written. -/
inductive JsonColumn (fine : Prop) (cell : Cell) : Except Err Cell → Proc Unit → Prop
  | written (h : fine) : JsonColumn fine cell (.ok cell) (pure ())
  | refused (e : Err) : JsonColumn fine cell (.error e) (throw e)

/-- INTERNAL: the cell may be fine for another reason. -/
theorem JsonColumn.mono {fine fine' : Prop} {cell : Cell} {column : Except Err Cell} {check : Proc Unit}
    (h : JsonColumn fine cell column check) (hfine : fine → fine') : JsonColumn fine' cell column check := by
  cases h with
  | written h => exact .written (hfine h)
  | refused e => exact .refused e

/-- INTERNAL: a JSON column, and what follows if it can be written. -/
theorem lockstep_column {fine : Prop} {cell : Cell} {column : Except Err Cell} {check : Proc Unit}
    (h : JsonColumn fine cell column check) {next : Cell → RowProc α} {next' : Proc α}
    (hnext : fine → Lockstep (SameStores py floatOf) good (next cell) next') :
    Lockstep (SameStores py floatOf) good (Program.ofExcept column >>= next) (check >>= fun _ => next') := by
  cases h with
  | written hfine => exact hnext hfine
  | refused e => exact lockstep_throw e

/-- INTERNAL: a cell that can be written. -/
theorem lockstep_written {cell : Cell} {next : Cell → RowProc α} {q : Proc α}
    (h : Lockstep (SameStores py floatOf) good (next cell) q) :
    Lockstep (SameStores py floatOf) good (Program.ofExcept (.ok cell) >>= next) q := h

/-- INTERNAL: a dictionary in a JSON column. -/
theorem column_dict (h : ColumnsReadBack py floatOf) {d : Dict} (hd : JsonKept py floatOf (.dict d)) :
    JsonColumn ((Value.dict d).serializable = true) (jsonCell py (.dict d)) (Sql.dictCell py d)
      (requireSerializable d) := by
  unfold Sql.dictCell requireSerializable
  rw [jsonText_eq h hd]
  by_cases hserial : (Value.dict d).serializable = true
  · rw [if_pos hserial, if_pos hserial]
    exact .written hserial
  · rw [if_neg hserial, if_neg hserial]
    exact .refused _

/-- INTERNAL: a cell of text is known by its text. -/
theorem text_eq_iff {a b : String} : some (Cell.text a) = some (Cell.text b) ↔ a = b := by simp

/-- INTERNAL: a condition on a column of text. -/
theorem hasCell_text {row : Row Cell} {column a : String} (h : row.lookup column = some (.text a))
    (s : String) : hasCell column (.text s) row = decide (a = s) := by
  unfold hasCell
  rw [h]
  exact decide_eq_decide.mpr text_eq_iff

/-- INTERNAL: an id is that of a row if it is that of a record. -/
theorem hasId_eq {rows : List (Row Cell)} {records : List α} {write : α → Row Cell} {Good : α → Prop}
    {key : α → String} (h : StoredRows write Good rows records)
    (hkey : ∀ record, (write record).lookup "id" = some (.text (key record))) (id : String) :
    Sql.hasId rows id = Table.has key records id := h.any_eq fun record => hasCell_text (hkey record) id

/-- INTERNAL: a task is stored in both. -/
theorem hasTask_eq {db : RowDatabase} {t : Tables} (h : RowsHold py floatOf db t) (taskId : String) :
    Sql.hasTask db taskId = t.hasTask taskId := hasId_eq h.tasks (fun _ => rfl) taskId

/-- INTERNAL: a receipt is stored in both. -/
theorem hasReceipt_eq {db : RowDatabase} {t : Tables} (h : RowsHold py floatOf db t) (receiptId : String) :
    Sql.hasReceipt db receiptId = t.hasReceipt receiptId := hasId_eq h.receipts (fun _ => rfl) receiptId

/-- INTERNAL: a snapshot without entries is stored as `NULL`. -/
theorem column_snapshot (h : ColumnsReadBack py floatOf) {task : Task} (htask : TaskKept py floatOf task) :
    JsonColumn (TaskStored py floatOf (TaskRepository.stored task))
      ((TaskRepository.stored task).profileSnapshot.elim .null fun d => jsonCell py (.dict d))
      (Sql.TaskRepository.snapshotCell py task.profileSnapshot)
      (requireSerializable (task.profileSnapshot.getD [])) := by
  obtain ⟨hcreated, hupdated, hsnapshot⟩ := htask
  rcases hcase : task.profileSnapshot with _ | _ | ⟨entry, entries⟩
  · have hstored : (TaskRepository.stored task).profileSnapshot = none := by
      rw [TaskRepository.stored, hcase]
      rfl
    rw [hstored]
    exact .written ⟨⟨hcreated, hupdated, by simp [hstored]⟩, by simp [hstored], by simp [hstored]⟩
  · have hstored : (TaskRepository.stored task).profileSnapshot = none := by
      rw [TaskRepository.stored, hcase]
      rfl
    rw [hstored]
    exact .written ⟨⟨hcreated, hupdated, by simp [hstored]⟩, by simp [hstored], by simp [hstored]⟩
  · have hstored : (TaskRepository.stored task).profileSnapshot = some (entry :: entries) := by
      rw [TaskRepository.stored, hcase]
      rfl
    have hkept := hsnapshot _ hcase
    have hcolumn := column_dict h hkept
    rw [hstored]
    refine hcolumn.mono fun hserial => ⟨⟨hcreated, hupdated, ?_⟩, ?_, by simp [hstored]⟩
    · simpa [hstored] using hkept
    · simpa [hstored] using hserial

/-- A task is saved. -/
theorem lockstep_saveTask (h : ColumnsReadBack py floatOf) {task : Task} (htask : TaskKept py floatOf task) :
    Lockstep (SameStores py floatOf) (fun _ => True) (Sql.TaskRepository.save py task)
      (TaskRepository.save task) :=
  lockstep_withUow <| lockstep_column (column_snapshot h htask) fun hstored =>
    lockstep_execute fun _ _ hst =>
      { hst with
        tasks := hst.tasks.upsert (fun _ _ => text_eq_iff) excluded_task _ hstored fun _ hold =>
          ⟨⟨hold.created, hstored.updated, hstored.snapshot⟩, hstored.serial, hstored.nonempty⟩ }

/-- A task is read. -/
theorem lockstep_getTask (h : ColumnsReadBack py floatOf) (taskId : String) :
    Lockstep (SameStores py floatOf) (fun answer => ∀ task ∈ answer, TaskStored py floatOf task)
      (Sql.TaskRepository.get py floatOf taskId) (TaskRepository.get taskId) :=
  lockstep_fetchOne (fun _ => rowToTask_rowOfTask h) fun _ _ hst =>
    hst.tasks.find? fun _ => hasCell_text rfl taskId

/-- The tasks of a session are read in the order of their dates. -/
theorem lockstep_listTasks (h : ColumnsReadBack py floatOf) (sessionId : String) :
    Lockstep (SameStores py floatOf) (fun tasks => ∀ task ∈ tasks, TaskStored py floatOf task)
      (Sql.TaskRepository.listBySession py floatOf sessionId) (TaskRepository.listBySession sessionId) :=
  lockstep_fetchAll (fun _ => rowToTask_rowOfTask h) fun _ _ hst =>
    (hst.tasks.filter fun _ => hasCell_text rfl sessionId).sort
      fun _ _ ha hb => h.ofTime_le ha.created hb.created

/-- The tasks come in the order of their dates, as the texts of the dates are in this order. -/
theorem lockstep_listTransientTasks (h : ColumnsReadBack py floatOf) :
    Lockstep (SameStores py floatOf) (fun tasks => ∀ task ∈ tasks, TaskStored py floatOf task)
      (Sql.TaskRepository.listTransientTasks py floatOf) TaskRepository.listTransientTasks := by
  refine lockstep_fetchAll (fun _ => rowToTask_rowOfTask h) fun _ _ hst => ?_
  refine (hst.tasks.filter fun task => ?_).sort fun a b ha hb => h.ofTime_le ha.created hb.created
  have hstate : (rowOfTask py task).lookup "state" = some (.text task.state.value) := rfl
  simp only [hasCell_text hstate]
  cases task.state <;> decide

/-- A plan that can be saved, or raises a `TypeError`. -/
def PlanKept (py : Stdlib) (floatOf : String → PyFloat) (plan : Plan) : Prop :=
  ∀ step ∈ plan.steps, JsonKept py floatOf (.dict step.arguments)

/-- INTERNAL: the steps of a plan are inserted. -/
theorem lockstep_insertSteps (h : ColumnsReadBack py floatOf) (plan : Plan) {steps : List PlanStep}
    (hsteps : ∀ step ∈ steps, JsonKept py floatOf (.dict step.arguments)) :
    Lockstep (SameStores py floatOf) (fun _ => True) (Sql.PlanRepository.insertSteps py plan steps)
      (PlanRepository.insertSteps plan steps) := by
  induction steps with
  | nil => exact lockstep_pure trivial
  | cons step rest ih =>
    have hkept := hsteps step (List.mem_cons_self ..)
    have hinsert : Lockstep (SameStores py floatOf) (fun _ => True)
        (Sql.PlanRepository.insertStep py plan step) (PlanRepository.insertStep plan step) := by
      refine lockstep_column (column_dict h hkept) fun hserial => lockstep_executeChecked _
        (fun db t hst => ?_) fun db t hst =>
          { hst with planSteps := hst.planSteps.append (PlanRepository.stepRow plan step) ⟨hkept, hserial⟩ }
      exact congrArg not (hasId_eq hst.planSteps (fun _ => rfl) step.id)
    exact hinsert.andThen (ih fun step hstep => hsteps step (List.mem_cons_of_mem _ hstep))

/-- A plan is saved. -/
theorem lockstep_savePlan (h : ColumnsReadBack py floatOf) {plan : Plan} (hplan : PlanKept py floatOf plan) :
    Lockstep (SameStores py floatOf) (fun _ => True) (Sql.PlanRepository.save py plan)
      (PlanRepository.save plan) := by
  have hother (step : PlanStep) : (!hasCell "plan_id" (.text plan.id) (rowOfStep py step)) =
      decide (step.planId ≠ plan.id) := by
    rw [hasCell_text rfl plan.id, decide_not]
  refine lockstep_withUow <|
    Lockstep.andThen (lockstep_executeChecked _ (fun _ _ hst =>
      congrArg₂ or (hasId_eq hst.plans (fun _ => rfl) _) (hasTask_eq hst _)) fun _ _ hst => ?_) <|
    Lockstep.andThen (lockstep_execute fun _ _ hst => ?_) <|
      lockstep_insertSteps h plan hplan
  · exact { hst with
      plans := hst.plans.upsert (fun _ _ => text_eq_iff) excluded_plan (PlanRepository.row plan) rfl
        fun _ hold => hold }
  · exact { hst with planSteps := hst.planSteps.filter hother }

/-- INTERNAL: the steps of a stored plan are read as they were saved. -/
theorem plainSteps_kept {db : RowDatabase} {t : Tables} (hst : RowsHold py floatOf db t) (plan : Plan) :
    PlainSteps { plan with steps := PlanRepository.stepRows t plan.id } := by
  intro step hstep
  have hin := (List.mem_filter.mp ((List.mem_insertionSort _).mp hstep)).1
  exact plain_of_jsonKept (.dict step.arguments) (hst.planSteps.good step hin).kept

/-- The rows that are selected for a task are those of its plan and of the steps of it, in their order. -/
theorem selected_eq {db : RowDatabase} {t : Tables} (hst : RowsHold py floatOf db t) (taskId : String) :
    Sql.PlanRepository.selected db taskId = (PlanRepository.ofTables t taskId).map fun plan =>
      (Sql.PlanRepository.row py plan, plan.steps.map (rowOfStep py)) := by
  have hfind : db.plans.find? (hasCell "task_id" (.text taskId)) =
      (t.plans.find? fun plan => plan.taskId = taskId).map (Sql.PlanRepository.row py) :=
    (hst.plans.find? fun _ => hasCell_text rfl taskId).eq_map
  have hof (plan : Plan) (step : PlanStep) :
      decide ((rowOfStep py step).lookup "plan_id" = (Sql.PlanRepository.row py plan).lookup "id") =
        decide (step.planId = plan.id) := decide_eq_decide.mpr text_eq_iff
  have horder (a b : PlanStep) : inOrder "step_order" (rowOfStep py a) (rowOfStep py b) = true ↔
      a.order ≤ b.order := integer_le_iff a.order b.order
  have hsteps (plan : Plan) :
      (db.planSteps.filter fun row =>
        row.lookup "plan_id" = (Sql.PlanRepository.row py plan).lookup "id").insertionSort
          (fun a b => inOrder "step_order" a b) =
        (PlanRepository.stepRows t plan.id).map (rowOfStep py) :=
    ((hst.planSteps.filter (hof plan)).sort fun a b _ _ => horder a b).rows_eq
  unfold Sql.PlanRepository.selected PlanRepository.ofTables
  rw [hfind, Option.map_map, Option.map_map]
  congr 1
  funext plan
  have hplain := (plainSteps_kept hst plan).asRead_eq
  have hread := congrArg (fun read : Plan => read.steps.map (rowOfStep py)) hplain
  exact Prod.ext rfl ((hsteps plan).trans hread.symm)

/-- INTERNAL: a stored plan has arguments that JSON keeps. -/
theorem ofTables_kept {db : RowDatabase} {t : Tables} (hst : RowsHold py floatOf db t) (taskId : String) :
    ∀ plan ∈ PlanRepository.ofTables t taskId, ∀ step ∈ plan.steps,
      KeptByJson py floatOf (.dict step.arguments) := by
  intro plan hplan step hstep
  unfold PlanRepository.ofTables at hplan
  obtain ⟨plan, -, rfl⟩ := Option.mem_map.mp hplan
  rw [(plainSteps_kept hst plan).asRead_eq] at hstep
  exact hst.planSteps.good step (List.mem_filter.mp ((List.mem_insertionSort _).mp hstep)).1

/-- A plan is read. -/
theorem lockstep_getPlan (h : ColumnsReadBack py floatOf) (taskId : String) :
    Lockstep (SameStores py floatOf)
      (fun answer => ∀ plan ∈ answer, ∀ step ∈ plan.steps, KeptByJson py floatOf (.dict step.arguments))
      (Sql.PlanRepository.getByTask floatOf taskId) (PlanRepository.getByTask taskId) := by
  refine lockstep_get_bind fun s w hst => ?_
  have hkept := ofTables_kept hst.working taskId
  refine ⟨?_, hkept⟩
  beta_reduce
  rw [selected_eq hst.working taskId]
  cases hplan : PlanRepository.ofTables w.working taskId with
  | none => rfl
  | some plan =>
    have hsteps : (Sql.fetchAll (Sql.PlanRepository.rowToStep floatOf) (plan.steps.map (rowOfStep py))) =
        pure plan.steps := by
      unfold Sql.fetchAll
      rw [StoredRows.mapM_eq ⟨rfl, hkept plan hplan⟩ fun _ => rowToStep_rowOfStep h]
    have hrow : StoredRows (Sql.PlanRepository.row py) (· = plan) [Sql.PlanRepository.row py plan] [plan] :=
      ⟨rfl, fun _ hrecord => List.mem_singleton.mp hrecord⟩
    have hone : Sql.fetchOne (Sql.PlanRepository.rowToPlan floatOf · plan.steps)
        (some (Sql.PlanRepository.row py plan)) = pure (some plan) :=
      fetchOne_eq (fun record hrecord => hrecord ▸ rowToPlan_row h plan plan.steps) hrow
    change Sql.fetchAll _ _ >>= _ = _
    rw [hsteps]
    exact hone

/-- A decision is saved. -/
theorem lockstep_saveDecision (d : Decision) :
    Lockstep (SameStores py floatOf) (fun _ => True) (Sql.DecisionRepository.save py d)
      (DecisionRepository.save d) :=
  lockstep_withUow <| lockstep_executeChecked _ (fun _ _ hst =>
    congrArg₂ or (hasId_eq hst.decisions (fun _ => rfl) _) (hasTask_eq hst _)) fun _ _ hst =>
    { hst with
      decisions := hst.decisions.upsert (fun _ _ => text_eq_iff) excluded_decision d trivial
        fun _ _ => trivial }

/-- The newest decision is read. -/
theorem lockstep_getDecision (h : ColumnsReadBack py floatOf) (taskId : String) :
    Lockstep (SameStores py floatOf) (fun answer => ∀ d ∈ answer, True)
      (Sql.DecisionRepository.getByTask floatOf taskId) (DecisionRepository.getByTask taskId) :=
  lockstep_fetchOne (fun d _ => rowToDecision_row h d) fun _ _ hst =>
    (hst.decisions.filter fun _ => hasCell_text rfl taskId).getLast?

/-- An authorization is saved. -/
theorem lockstep_saveAuthorization {a : Authorization} (ha : AuthorizationKept a) :
    Lockstep (SameStores py floatOf) (fun _ => True) (Sql.AuthorizationRepository.save py a)
      (AuthorizationRepository.save a) := by
  refine lockstep_withUow <| lockstep_executeChecked _ (fun _ _ hst => ?_) fun _ _ hst =>
    { hst with
      authorizations := hst.authorizations.upsert (fun _ _ => text_eq_iff) excluded_authorization a ha
        fun _ _ => ⟨ha.expires, ha.used⟩ }
  rw [hasTask_eq hst, hasId_eq hst.authorizations (fun _ => rfl)]
  congr 1
  have hcolumn : (Sql.AuthorizationRepository.row py a).lookup "expires_at" =
      some (.ofTimeOption py a.expiresAt) := rfl
  unfold hasCell
  rw [hcolumn]
  cases a.expiresAt <;> rfl

/-- The authorizations of a task are read. -/
theorem lockstep_listAuthorizations (h : ColumnsReadBack py floatOf) (taskId : String) :
    Lockstep (SameStores py floatOf) (fun answer => ∀ a ∈ answer, AuthorizationKept a)
      (Sql.AuthorizationRepository.listByTask py taskId) (AuthorizationRepository.listByTask taskId) :=
  lockstep_fetchAll (fun _ => rowToAuthorization_row h) fun _ _ hst =>
    hst.authorizations.filter fun _ => hasCell_text rfl taskId

/-- INTERNAL: what is written of data, be it the data or the text of it. -/
theorem serializeData_eq (h : ColumnsReadBack py floatOf) {data : Value} (hdata : JsonKept py floatOf data) :
    Sql.ToolExecutionRepository.serializeData py data =
      .ok (dataCell py (ToolExecutionRepository.serializeData py data)) := by
  unfold Sql.ToolExecutionRepository.serializeData ToolExecutionRepository.serializeData dataCell
  rw [jsonText_eq h hdata]
  by_cases hserial : data.serializable = true
  · rw [if_pos hserial, if_pos hserial]
    split <;> rfl
  · have hne : data ≠ .none := by
      rintro rfl
      exact hserial rfl
    have htext : JsonKept py floatOf (.str (py.strOf data)) := trivial
    rw [if_neg hserial, if_neg hserial, if_neg hne, jsonText_eq h htext]
    rfl

/-- INTERNAL: what is written of data can be read. -/
theorem keptByJson_serializeData {data : Value} (hdata : JsonKept py floatOf data) :
    KeptByJson py floatOf (ToolExecutionRepository.serializeData py data) := by
  unfold ToolExecutionRepository.serializeData
  split
  · next hserial => exact ⟨hdata, hserial⟩
  · exact ⟨trivial, rfl⟩

/-- The record of an execution is saved. -/
theorem lockstep_saveExecution (h : ColumnsReadBack py floatOf) {r : ToolExecutionRecord}
    (hr : ExecutionRecordKept py floatOf r) :
    Lockstep (SameStores py floatOf) (fun _ => True) (Sql.ToolExecutionRepository.save py r)
      (ToolExecutionRepository.save py r) := by
  have hdata := keptByJson_serializeData hr.data
  have hmetadata := keptByJson_serializeData hr.metadata
  have hgiven : ToolExecutionRepository.serializeData py r.metadata ≠ .none := by
    unfold ToolExecutionRepository.serializeData
    split
    · exact hr.given
    · simp
  have hstored : ExecutionRecordStored py floatOf (ToolExecutionRepository.stored py r) :=
    ⟨⟨hdata.kept, hmetadata.kept, hgiven⟩, hdata.serial, hmetadata.serial⟩
  unfold Sql.ToolExecutionRepository.save
  rw [serializeData_eq h hr.data, serializeData_eq h hr.metadata]
  refine lockstep_withUow <| lockstep_written <| lockstep_written <|
    lockstep_executeChecked _ (fun _ _ hst =>
      congrArg₂ or (hasId_eq hst.toolExecutions (fun _ => rfl) _) (hasTask_eq hst _)) fun _ _ hst => ?_
  exact
    { hst with
      toolExecutions := hst.toolExecutions.upsert (fun _ _ => text_eq_iff) excluded_execution _ hstored
        fun _ _ => ⟨⟨hdata.kept, hmetadata.kept, hgiven⟩, hdata.serial, hmetadata.serial⟩ }

/-- The records of a task are read. -/
theorem lockstep_listExecutions (h : ColumnsReadBack py floatOf) (taskId : String) :
    Lockstep (SameStores py floatOf) (fun answer => ∀ r ∈ answer, ExecutionRecordStored py floatOf r)
      (Sql.ToolExecutionRepository.listByTask floatOf taskId) (ToolExecutionRepository.listByTask taskId) :=
  lockstep_fetchAll (fun _ => rowToRecord_rowOfExecution h) fun _ _ hst =>
    hst.toolExecutions.filter fun _ => hasCell_text rfl taskId

/-- The newest of them is read. -/
theorem lockstep_latestExecution (h : ColumnsReadBack py floatOf) (taskId : String) :
    Lockstep (SameStores py floatOf) (fun answer => ∀ r ∈ answer, ExecutionRecordStored py floatOf r)
      (Sql.ToolExecutionRepository.getLatestByTask floatOf taskId)
      (ToolExecutionRepository.getLatestByTask taskId) :=
  lockstep_fetchOne (fun _ => rowToRecord_rowOfExecution h) fun _ _ hst =>
    (hst.toolExecutions.filter fun _ => hasCell_text rfl taskId).getLast?

/-- The newest under a key is read. -/
theorem lockstep_executionByKey (h : ColumnsReadBack py floatOf) (key : String) :
    Lockstep (SameStores py floatOf) (fun answer => ∀ r ∈ answer, ExecutionRecordStored py floatOf r)
      (Sql.ToolExecutionRepository.getByIdempotencyKey floatOf key)
      (ToolExecutionRepository.getByIdempotencyKey key) := by
  refine lockstep_fetchOne (fun _ => rowToRecord_rowOfExecution h) fun _ _ hst =>
    (hst.toolExecutions.filter fun r => decide_eq_decide.mpr ?_).getLast?
  exact Option.some_inj.trans (ofOption_eq_text_iff r.idempotencyKey key)

/-- A verification is saved. -/
theorem lockstep_saveVerification (r : VerificationRecord) :
    Lockstep (SameStores py floatOf) (fun _ => True) (Sql.VerificationRepository.save r)
      (VerificationRepository.save r) := by
  refine lockstep_withUow <| lockstep_executeChecked _ (fun _ _ hst => ?_) fun _ _ hst =>
    { hst with verifications := hst.verifications.append r trivial }
  rw [hasTask_eq hst, hasId_eq hst.verifications (fun _ => rfl) r.id]
  rfl

/-- The verifications of a task are read. -/
theorem lockstep_listVerifications (taskId : String) :
    Lockstep (SameStores py floatOf) (fun answer => ∀ r ∈ answer, True)
      (Sql.VerificationRepository.listByTask taskId) (VerificationRepository.listByTask taskId) :=
  lockstep_fetchAll (fun r _ => rowToRecord_verification r) fun _ _ hst =>
    hst.verifications.filter fun _ => hasCell_text rfl taskId

/-- The newest of them is read. -/
theorem lockstep_latestVerification (taskId : String) :
    Lockstep (SameStores py floatOf) (fun answer => ∀ r ∈ answer, True)
      (Sql.VerificationRepository.getLatestByTask taskId) (VerificationRepository.getLatestByTask taskId) :=
  lockstep_fetchOne (fun r _ => rowToRecord_verification r) fun _ _ hst =>
    (hst.verifications.filter fun _ => hasCell_text rfl taskId).getLast?

/-- A recovery attempt is saved. -/
theorem lockstep_saveRecoveryAttempt {a : RecoveryAttempt} (ha : a.delaySeconds ≠ .nan) :
    Lockstep (SameStores py floatOf) (fun _ => True) (Sql.RecoveryAttemptRepository.save a)
      (RecoveryAttemptRepository.save a) := by
  refine lockstep_withUow <| lockstep_executeChecked _ (fun _ _ hst => ?_) fun _ _ hst =>
    { hst with
      recoveryAttempts := hst.recoveryAttempts.upsert (fun _ _ => text_eq_iff) excluded_recoveryAttempt a ha
        fun _ _ => ha }
  have hcolumn : hasCell "delay_seconds" .null (Sql.RecoveryAttemptRepository.row a) = false := by
    refine decide_eq_false fun hnull => ha ((ofFloat_eq_null_iff a.delaySeconds).mp ?_)
    exact Option.some.inj hnull
  rw [hasTask_eq hst, hasId_eq hst.recoveryAttempts (fun _ => rfl), hcolumn]
  rfl

/-- The recovery attempts of a task are read in their order. -/
theorem lockstep_listRecoveryAttempts (taskId : String) :
    Lockstep (SameStores py floatOf) (fun answer => ∀ a ∈ answer, a.delaySeconds ≠ .nan)
      (Sql.RecoveryAttemptRepository.listByTask taskId) (RecoveryAttemptRepository.listByTask taskId) :=
  lockstep_fetchAll (fun _ => rowToAttempt_recoveryAttempt) fun _ _ hst =>
    (hst.recoveryAttempts.filter fun _ => hasCell_text rfl taskId).sort
      fun a b _ _ => integer_le_iff a.attemptNumber b.attemptNumber

/-- The last of them is read. -/
theorem lockstep_latestRecoveryAttempt (taskId : String) :
    Lockstep (SameStores py floatOf) (fun answer => ∀ a ∈ answer, a.delaySeconds ≠ .nan)
      (Sql.RecoveryAttemptRepository.getLatestByTask taskId)
      (RecoveryAttemptRepository.getLatestByTask taskId) :=
  lockstep_fetchOne (fun _ => rowToAttempt_recoveryAttempt) fun _ _ hst =>
    ((hst.recoveryAttempts.filter fun _ => hasCell_text rfl taskId).sort
      fun a b _ _ => integer_le_iff b.attemptNumber a.attemptNumber).head?

/-- A receipt is saved. -/
theorem lockstep_saveReceipt (h : ColumnsReadBack py floatOf) {r : ExecutionReceipt}
    (hr : ReceiptKept py floatOf r) :
    Lockstep (SameStores py floatOf) (fun _ => True) (Sql.ReceiptRepository.save py r)
      (ReceiptRepository.save r) :=
  lockstep_withUow <| lockstep_column (column_dict h hr.metadata) fun hserial =>
    lockstep_execute fun _ _ hst =>
      { hst with
        receipts := hst.receipts.upsert (fun _ _ => text_eq_iff) excluded_receipt r ⟨hr, hserial⟩
          fun _ hold => ⟨⟨hold.created, hr.finalized, hr.metadata⟩, hserial⟩ }

/-- A receipt is read. -/
theorem lockstep_getReceipt (h : ColumnsReadBack py floatOf) (receiptId : String) :
    Lockstep (SameStores py floatOf) (fun answer => ∀ r ∈ answer, ReceiptStored py floatOf r)
      (Sql.ReceiptRepository.get py floatOf receiptId) (ReceiptRepository.get receiptId) :=
  lockstep_fetchOne (fun _ => rowToReceipt_rowOfReceipt h) fun _ _ hst =>
    hst.receipts.find? fun _ => hasCell_text rfl receiptId

/-- The newest receipt of a contract is read. -/
theorem lockstep_getReceiptByContract (h : ColumnsReadBack py floatOf) (contractId : String) :
    Lockstep (SameStores py floatOf) (fun answer => ∀ r ∈ answer, ReceiptStored py floatOf r)
      (Sql.ReceiptRepository.getByContract py floatOf contractId)
      (ReceiptRepository.getByContract contractId) :=
  lockstep_fetchOne (fun _ => rowToReceipt_rowOfReceipt h) fun _ _ hst =>
    (hst.receipts.filter fun _ => hasCell_text rfl contractId).getLast?

/-- The receipts that are not finalized are read. -/
theorem lockstep_listUnfinalized (h : ColumnsReadBack py floatOf) :
    Lockstep (SameStores py floatOf) (fun answer => ∀ r ∈ answer, ReceiptStored py floatOf r)
      (Sql.ReceiptRepository.listUnfinalized py floatOf) ReceiptRepository.listUnfinalized := by
  refine lockstep_fetchAll (fun _ => rowToReceipt_rowOfReceipt h) fun _ _ hst =>
    hst.receipts.filter fun r => ?_
  have hstate : hasCell "state" (.ofEnum ReceiptState.finalized) (rowOfReceipt py r) =
      decide (r.state = .finalized) :=
    decide_eq_decide.mpr (Option.some_inj.trans ofEnum_inj)
  rw [hstate, decide_not]

/-- An attempt is saved. -/
theorem lockstep_saveAttempt (h : ColumnsReadBack py floatOf) {a : ExecutionAttempt}
    (ha : AttemptKept py floatOf a) :
    Lockstep (SameStores py floatOf) (fun _ => True) (Sql.AttemptRepository.save py a)
      (AttemptRepository.save a) :=
  lockstep_withUow <| lockstep_column (column_dict h ha.evidence) fun hserial =>
    lockstep_executeChecked _ (fun _ _ hst =>
      congrArg₂ or (hasId_eq hst.attempts (fun _ => rfl) _) (hasReceipt_eq hst _)) fun _ _ hst =>
      { hst with
        attempts := hst.attempts.upsert (fun _ _ => text_eq_iff) excluded_attempt a ⟨ha, hserial⟩
          fun _ hold => ⟨⟨hold.created, ha.invoked, ha.finalized, ha.evidence⟩, hserial⟩ }

/-- The attempts of a receipt are read in their order. -/
theorem lockstep_listAttempts (h : ColumnsReadBack py floatOf) (receiptId : String) :
    Lockstep (SameStores py floatOf) (fun answer => ∀ a ∈ answer, AttemptStored py floatOf a)
      (Sql.AttemptRepository.listByReceipt py floatOf receiptId)
      (AttemptRepository.listByReceipt receiptId) :=
  lockstep_fetchAll (fun _ => rowToAttempt_rowOfAttempt h) fun _ _ hst =>
    (hst.attempts.filter fun _ => hasCell_text rfl receiptId).sort
      fun a b _ _ => integer_le_iff a.attemptNumber b.attemptNumber

/-- The record of a key is read. -/
theorem lockstep_getKey (h : ColumnsReadBack py floatOf) (key : String) :
    Lockstep (SameStores py floatOf) (fun answer => ∀ r ∈ answer, IdempotencyKept r)
      (Sql.IdempotencyRepository.get py key) (IdempotencyRepository.get key) :=
  lockstep_fetchOne (fun _ => rowToIdempotency_row h) fun _ _ hst =>
    hst.idempotency.find? fun _ => hasCell_text rfl key

/-- It is saved. -/
theorem lockstep_saveKey {r : IdempotencyRecord} (hr : IdempotencyKept r) :
    Lockstep (SameStores py floatOf) (fun _ => True) (Sql.IdempotencyRepository.save py r)
      (IdempotencyRepository.save r) :=
  lockstep_withUow <| lockstep_execute fun _ _ hst =>
    { hst with
      idempotency := hst.idempotency.upsert (fun _ _ => text_eq_iff) excluded_idempotency r hr
        fun _ hold => ⟨hold.created, hr.updated⟩ }

/-- A key is reserved, or the reservation refused. -/
theorem lockstep_reserveKey {r : IdempotencyRecord} (hr : IdempotencyKept r) :
    Lockstep (SameStores py floatOf) (fun _ => True) (Sql.IdempotencyRepository.reserve py r)
      (IdempotencyRepository.reserve r) := by
  refine lockstep_withUow <| lockstep_executeChecked _ (fun db t hst => ?_) fun _ _ hst =>
    { hst with idempotency := hst.idempotency.append r hr }
  rw [hst.idempotency.any_eq fun _ => hasCell_text rfl r.key]
  unfold IdempotencyRepository.ofTables Table.lookup
  rw [← Option.not_isSome, List.isSome_find?]

end Repositories

/-! ## Clients -/

section Clients

variable {py : Stdlib} {floatOf : String → PyFloat}

/-- `sqlite3` binds the number, and raises no `OverflowError`. -/
def FitsInteger (n : ℕ) : Prop := n < 2 ^ 63

/-- What a call saves is well formed. -/
def CallKept (py : Stdlib) (floatOf : String → PyFloat) {α : Type} : RepositoryCall α → Prop
  | .saveTask task => TaskKept py floatOf task
  | .savePlan plan => PlanKept py floatOf plan ∧ ∀ step ∈ plan.steps, FitsInteger step.order
  | .saveAuthorization a => AuthorizationKept a
  | .saveExecution r => ExecutionRecordKept py floatOf r ∧ FitsInteger r.attemptNumber
  | .saveRecoveryAttempt a => a.delaySeconds ≠ .nan ∧ FitsInteger a.attemptNumber
  | .saveReceipt r => ReceiptKept py floatOf r
  | .saveAttempt a => AttemptKept py floatOf a ∧ FitsInteger a.attemptNumber
  | .saveKey r => IdempotencyKept r
  | .reserveKey r => IdempotencyKept r
  | _ => True

/-- What a call answers with is well formed. -/
def AnswerKept (py : Stdlib) (floatOf : String → PyFloat) : {α : Type} → RepositoryCall α → α → Prop
  | _, .getTask _, answer => ∀ task ∈ answer, TaskStored py floatOf task
  | _, .listTasks _, answer => ∀ task ∈ answer, TaskStored py floatOf task
  | _, .listTransientTasks, answer => ∀ task ∈ answer, TaskStored py floatOf task
  | _, .getPlan _, answer =>
      ∀ plan ∈ answer, ∀ step ∈ plan.steps, KeptByJson py floatOf (.dict step.arguments)
  | _, .listAuthorizations _, answer => ∀ a ∈ answer, AuthorizationKept a
  | _, .listExecutions _, answer => ∀ r ∈ answer, ExecutionRecordStored py floatOf r
  | _, .latestExecution _, answer => ∀ r ∈ answer, ExecutionRecordStored py floatOf r
  | _, .executionByKey _, answer => ∀ r ∈ answer, ExecutionRecordStored py floatOf r
  | _, .listRecoveryAttempts _, answer => ∀ a ∈ answer, a.delaySeconds ≠ .nan
  | _, .latestRecoveryAttempt _, answer => ∀ a ∈ answer, a.delaySeconds ≠ .nan
  | _, .getReceipt _, answer => ∀ r ∈ answer, ReceiptStored py floatOf r
  | _, .getReceiptByContract _, answer => ∀ r ∈ answer, ReceiptStored py floatOf r
  | _, .listUnfinalized, answer => ∀ r ∈ answer, ReceiptStored py floatOf r
  | _, .listAttempts _, answer => ∀ a ∈ answer, AttemptStored py floatOf a
  | _, .getKey _, answer => ∀ r ∈ answer, IdempotencyKept r
  | _, _, _ => True

/-- A client that saves only what is well formed, given that what it is answered is well formed, and ends
with a good value. -/
def ClientKept (py : Stdlib) (floatOf : String → PyFloat) : {α : Type} → RepositoryClient α → (α → Prop) → Prop
  | _, .done value, good => good value
  | _, .raise _, _ => True
  | _, .call made next, good => CallKept py floatOf made ∧
      ∀ answer, IfOk (AnswerKept py floatOf made) answer → ClientKept py floatOf (next answer) good
  | _, .block body next, good => ∃ kept, ClientKept py floatOf body kept ∧
      ∀ answer, IfOk kept answer → ClientKept py floatOf (next answer) good

/-- Each call goes in lockstep on the rows and on the tables. -/
theorem lockstep_call (h : ColumnsReadBack py floatOf) {α : Type} (made : RepositoryCall α)
    (hmade : CallKept py floatOf made) :
    Lockstep (SameStores py floatOf) (AnswerKept py floatOf made) (made.onRows py floatOf)
      (made.onTables py) := by
  cases made with
  | saveTask task => exact lockstep_saveTask h hmade
  | getTask taskId => exact lockstep_getTask h taskId
  | listTasks sessionId => exact lockstep_listTasks h sessionId
  | listTransientTasks => exact lockstep_listTransientTasks h
  | savePlan plan => exact lockstep_savePlan h hmade.1
  | getPlan taskId => exact lockstep_getPlan h taskId
  | saveDecision decision => exact lockstep_saveDecision decision
  | getDecision taskId => exact (lockstep_getDecision h taskId).mono fun _ _ => trivial
  | saveAuthorization authorization => exact lockstep_saveAuthorization hmade
  | listAuthorizations taskId => exact lockstep_listAuthorizations h taskId
  | saveExecution record => exact lockstep_saveExecution h hmade.1
  | listExecutions taskId => exact lockstep_listExecutions h taskId
  | latestExecution taskId => exact lockstep_latestExecution h taskId
  | executionByKey key => exact lockstep_executionByKey h key
  | saveVerification record => exact lockstep_saveVerification record
  | listVerifications taskId => exact (lockstep_listVerifications taskId).mono fun _ _ => trivial
  | latestVerification taskId => exact (lockstep_latestVerification taskId).mono fun _ _ => trivial
  | saveRecoveryAttempt attempt => exact lockstep_saveRecoveryAttempt hmade.1
  | listRecoveryAttempts taskId => exact lockstep_listRecoveryAttempts taskId
  | latestRecoveryAttempt taskId => exact lockstep_latestRecoveryAttempt taskId
  | saveReceipt receipt => exact lockstep_saveReceipt h hmade
  | getReceipt receiptId => exact lockstep_getReceipt h receiptId
  | getReceiptByContract contractId => exact lockstep_getReceiptByContract h contractId
  | listUnfinalized => exact lockstep_listUnfinalized h
  | saveAttempt attempt => exact lockstep_saveAttempt h hmade.1
  | listAttempts receiptId => exact lockstep_listAttempts h receiptId
  | getKey key => exact lockstep_getKey h key
  | saveKey record => exact lockstep_saveKey hmade
  | reserveKey record => exact lockstep_reserveKey hmade

/-- So does every client. -/
theorem lockstep_client (h : ColumnsReadBack py floatOf) {α : Type} {client : RepositoryClient α}
    {good : α → Prop} (hclient : ClientKept py floatOf client good) :
    Lockstep (SameStores py floatOf) good (client.onRows py floatOf) (client.onTables py) := by
  induction client with
  | done value => exact lockstep_pure hclient
  | raise e => exact lockstep_throw e
  | call made next ih =>
    exact (lockstep_call h made hclient.1).attempt.bind fun answer hanswer => ih answer (hclient.2 answer hanswer)
  | block body next ihbody ihnext =>
    obtain ⟨kept, hbody, hnext⟩ := hclient
    exact (lockstep_withUow (ihbody hbody)).attempt.bind fun answer hanswer =>
      ihnext answer (hnext answer hanswer)

/-- What the rows are read as is the records. -/
structure RowsReadBack (py : Stdlib) (floatOf : String → PyFloat) (db : RowDatabase) (t : Tables) : Prop where
  tasks : db.tasks.mapM (Sql.TaskRepository.rowToTask py floatOf) = some t.tasks
  plans : db.plans.mapM (Sql.PlanRepository.rowToPlan floatOf · []) = some t.plans
  planSteps : db.planSteps.mapM (Sql.PlanRepository.rowToStep floatOf) = some t.planSteps
  decisions : db.decisions.mapM (Sql.DecisionRepository.rowToDecision floatOf) = some t.decisions
  authorizations :
    db.authorizations.mapM (Sql.AuthorizationRepository.rowToAuthorization py) = some t.authorizations
  toolExecutions :
    db.toolExecutions.mapM (Sql.ToolExecutionRepository.rowToRecord floatOf) = some t.toolExecutions
  verifications : db.verifications.mapM Sql.VerificationRepository.rowToRecord = some t.verifications
  recoveryAttempts :
    db.recoveryAttempts.mapM Sql.RecoveryAttemptRepository.rowToAttempt = some t.recoveryAttempts
  receipts : db.receipts.mapM (Sql.ReceiptRepository.rowToReceipt py floatOf) = some t.receipts
  attempts : db.attempts.mapM (Sql.AttemptRepository.rowToAttempt py floatOf) = some t.attempts
  idempotency :
    db.idempotency.mapM (Sql.IdempotencyRepository.rowToIdempotency py) = some t.idempotency

/-- The records are read back from their rows. -/
theorem RowsHold.readsBack (h : ColumnsReadBack py floatOf) {db : RowDatabase} {t : Tables}
    (hst : RowsHold py floatOf db t) : RowsReadBack py floatOf db t where
  tasks := hst.tasks.mapM_eq fun _ => rowToTask_rowOfTask h
  plans := hst.plans.mapM_eq fun plan hplan => by
    rw [rowToPlan_row h plan [], ← hplan]
  planSteps := hst.planSteps.mapM_eq fun _ => rowToStep_rowOfStep h
  decisions := hst.decisions.mapM_eq fun d _ => rowToDecision_row h d
  authorizations := hst.authorizations.mapM_eq fun _ => rowToAuthorization_row h
  toolExecutions := hst.toolExecutions.mapM_eq fun _ => rowToRecord_rowOfExecution h
  verifications := hst.verifications.mapM_eq fun r _ => rowToRecord_verification r
  recoveryAttempts := hst.recoveryAttempts.mapM_eq fun _ => rowToAttempt_recoveryAttempt
  receipts := hst.receipts.mapM_eq fun _ => rowToReceipt_rowOfReceipt h
  attempts := hst.attempts.mapM_eq fun _ => rowToAttempt_rowOfAttempt h
  idempotency := hst.idempotency.mapM_eq fun _ => rowToIdempotency_row h

/-- A client of the repositories gets the same answers from rows as from tables and ends the same way, and
wherever it is stopped, the rows that are committed are read as the records that are committed.
SOURCE: persistence/sqlite/unit_of_work.py:32-50, task_repository.py:23-91, app_receipt_repository.py:25-104 -/
theorem rows_refine_tables (h : ColumnsReadBack py floatOf) {α : Type} {client : RepositoryClient α}
    {good : α → Prop} (hclient : ClientKept py floatOf client good) {s : RowWorld} {w : World}
    (hst : SameStores py floatOf s w) :
    ((client.onRows py floatOf).run s).1 = ((client.onTables py).run w).1 ∧
      ∀ n, SameStores py floatOf ((client.onRows py floatOf).cut n s) ((client.onTables py).cut n w) ∧
        RowsReadBack py floatOf ((client.onRows py floatOf).cut n s).committed
          ((client.onTables py).cut n w).committed := by
  have hlockstep := lockstep_client h hclient
  refine ⟨(hlockstep.run hst).1, fun n => ?_⟩
  have hcut := hlockstep.cut hst n
  exact ⟨hcut, hcut.committed.readsBack h⟩

end Clients

/-- INTERNAL: an empty database. -/
theorem sameStores_empty (py : Stdlib) (floatOf : String → PyFloat) : SameStores py floatOf {} {} := by
  have hempty : RowsHold py floatOf {} {} :=
    ⟨.nil, .nil, .nil, .nil, .nil, .nil, .nil, .nil, .nil, .nil, .nil⟩
  exact ⟨hempty, hempty, rfl⟩

/-- An interpreter that writes dates and floats, and reads them. -/
def calendarPy : Stdlib :=
  { Stdlib.plain with
    floatRepr := floatText
    isoformat := UtcDatetime.isoOfInstant
    fromisoformat := fun text => some (UtcDatetime.instantOfIso text) }

/-- INTERNAL: its dates and floats come back. -/
theorem columnsReadBack_calendarPy : ColumnsReadBack calendarPy floatOfText where
  writes := UtcDatetime.isoOfInstant_instant
  reads d := congrArg some (UtcDatetime.instantOfIso_isoformat d)
  floats := floatsReadBack_floatText { Stdlib.plain with
    isoformat := UtcDatetime.isoOfInstant
    fromisoformat := fun text => some (UtcDatetime.instantOfIso text) }

/-- A task of the new year. -/
def newYearTask : Task :=
  { id := "task"
    sessionId := "session"
    requestId := "request"
    state := .ready
    createdAt := (newYear 0 (Nat.zero_lt_succ _)).instant
    updatedAt := (newYear 1 (Nat.succ_lt_succ (Nat.zero_lt_succ _))).instant
    profileSnapshot := some [("style", .str "short")] }

/-- The task is saved; then a block is left with an exception in which it was set running. -/
def savedTwice : RepositoryClient (Option Task) :=
  .block (.call (.saveTask newYearTask) fun _ => .done ()) fun _ =>
    .block (.call (.saveTask { newYearTask with state := .running }) fun _ =>
      (.raise (.runtimeError "stopped") : RepositoryClient Unit)) fun _ =>
      .call (.getTask "task") fun answer => match answer with
        | .ok found => .done found
        | .error e => .raise e

/-- The rows give the task as it was before the second block. -/
theorem savedTwice_onRows :
    ((savedTwice.onRows calendarPy floatOfText).run {}).1 = .ok (some newYearTask) := by
  have htask (state : TaskState) : TaskKept calendarPy floatOfText { newYearTask with state := state } := by
    refine ⟨⟨_, rfl⟩, ⟨_, rfl⟩, fun d hd => ?_⟩
    obtain rfl := Option.some.inj hd
    exact ⟨by decide, trivial, trivial⟩
  have hclient : ClientKept calendarPy floatOfText savedTwice fun _ => True := by
    refine ⟨fun _ => True, ⟨htask _, fun _ _ => trivial⟩, fun _ _ => ⟨fun _ => True, ⟨htask _, fun _ _ =>
      trivial⟩, fun _ _ => ⟨trivial, fun answer _ => ?_⟩⟩⟩
    cases answer <;> trivial
  rw [(rows_refine_tables columnsReadBack_calendarPy hclient (sameStores_empty _ _)).1]
  rfl

end Shea.Analysis
