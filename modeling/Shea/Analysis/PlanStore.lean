import Shea.Analysis.UnitOfWork
import Shea.Analysis.StepOrder

/-!
# Stored plans

Saving a plan replaces its row and all its steps in one transaction. It succeeds when the task is
stored, the arguments of the steps are JSON, the ids of the steps are distinct and no other plan uses
one of them (`Savable`); otherwise nothing is written. Marking a step leaves all this alone, so a plan
that was saved once can be saved again with other marks. What is stored afterwards is the plan as the
runner has it.
-/

set_option autoImplicit false

namespace Shea.Analysis

open Shea.Computation Shea.Model
open Shea.Model.PlanRunner

/-! ## Saving -/

/-- The steps can be inserted. -/
structure Insertable (plan : Plan) (steps : List PlanStep) (t : Tables) : Prop where
  json : ∀ step ∈ steps, (Value.dict step.arguments).serializable = true
  distinct : (steps.map PlanStep.id).Nodup
  unused : ∀ step ∈ steps, ∀ row ∈ t.planSteps, row.id ≠ step.id

/-- The plan is stored already, or its task is. -/
def Placed (plan : Plan) (t : Tables) : Prop :=
  (Table.has Plan.id t.plans plan.id || t.hasTask plan.taskId) = true

/-- A plan of a stored task. -/
theorem placed_of_hasTask {plan : Plan} {t : Tables} (h : t.hasTask plan.taskId = true) : Placed plan t := by
  rw [Placed, h, Bool.or_true]

/-- The plan can be saved. -/
structure Savable (plan : Plan) (t : Tables) : Prop where
  placed : Placed plan t
  json : ∀ step ∈ plan.steps, (Value.dict step.arguments).serializable = true
  distinct : (plan.steps.map PlanStep.id).Nodup
  unused : ∀ step ∈ plan.steps, ∀ row ∈ t.planSteps, row.planId ≠ plan.id → row.id ≠ step.id

/-- The tables with the row of the plan in them and its steps gone. -/
def clearedPlan (plan : Plan) (t : Tables) : Tables :=
  { t with
    plans := Table.upsert Plan.id PlanRepository.merge (PlanRepository.row plan) t.plans
    planSteps := t.planSteps.filter (·.planId ≠ plan.id) }

/-- The tables with the plan in them. -/
def savedPlan (plan : Plan) (t : Tables) : Tables :=
  { t with
    plans := Table.upsert Plan.id PlanRepository.merge (PlanRepository.row plan) t.plans
    planSteps := t.planSteps.filter (·.planId ≠ plan.id) ++
      plan.steps.map (PlanRepository.stepRow plan) }

section Saving

variable {plan : Plan} {w : World}

/-- The state with other rows in the open transaction. -/
def writing (w : World) (t : Tables) : World := { w with working := t }

/-- INTERNAL: one insert. -/
theorem run_insertStep (plan : Plan) (step : PlanStep) (w : World) :
    ((Value.dict step.arguments).serializable = true ∧
      (∀ row ∈ w.working.planSteps, row.id ≠ step.id) ∧
      (PlanRepository.insertStep plan step).run w = (.ok (), writing w { w.working with
        planSteps := w.working.planSteps ++ [PlanRepository.stepRow plan step] })) ∨
    (¬ ((Value.dict step.arguments).serializable = true ∧
      ∀ row ∈ w.working.planSteps, row.id ≠ step.id) ∧
      ∃ e, (PlanRepository.insertStep plan step).run w = (.error e, w)) := by
  unfold PlanRepository.insertStep requireSerializable
  by_cases hjson : (Value.dict step.arguments).serializable = true
  case neg =>
    rw [if_neg hjson]
    exact .inr ⟨fun h => hjson h.1, _, rfl⟩
  rw [if_pos hjson]
  by_cases hnew : ∀ row ∈ w.working.planSteps, row.id ≠ step.id
  · have hnone : (!w.working.planSteps.any (fun row => row.id = step.id)) = true := by
      simpa using hnew
    refine .inl ⟨hjson, hnew, ?_⟩
    rw [Program.run_bind, Program.run_pure]
    exact (run_executeChecked ..).trans (if_pos hnone)
  · have hsome : ¬ (!w.working.planSteps.any (fun row => row.id = step.id)) = true := by
      simpa using hnew
    refine .inr ⟨fun h => hnew h.2,
      .integrityError "UNIQUE constraint failed: plan_steps.id", ?_⟩
    rw [Program.run_bind, Program.run_pure]
    exact (run_executeChecked ..).trans (if_neg hsome)

/-- INTERNAL: the steps can be inserted if the first can and then the others. -/
theorem insertable_cons {step : PlanStep} {rest : List PlanStep} {t : Tables} :
    Insertable plan (step :: rest) t ↔
      (Value.dict step.arguments).serializable = true ∧ (∀ row ∈ t.planSteps, row.id ≠ step.id) ∧
        Insertable plan rest { t with
          planSteps := t.planSteps ++ [PlanRepository.stepRow plan step] } := by
  have hrows : ∀ other, (∀ row ∈ t.planSteps ++ [PlanRepository.stepRow plan step], row.id ≠ other) ↔
      (∀ row ∈ t.planSteps, row.id ≠ other) ∧ step.id ≠ other := by
    intro other
    simp [or_imp, forall_and, PlanRepository.stepRow]
  constructor
  · intro h
    obtain ⟨hout, hdistinct⟩ := List.nodup_cons.mp h.distinct
    refine ⟨h.json step (List.mem_cons_self ..), h.unused step (List.mem_cons_self ..),
      fun s hs => h.json s (List.mem_cons_of_mem _ hs), hdistinct, fun s hs => ?_⟩
    refine (hrows s.id).mpr ⟨h.unused s (List.mem_cons_of_mem _ hs), fun heq => hout ?_⟩
    exact heq ▸ List.mem_map_of_mem hs
  · rintro ⟨hjson, hnew, h⟩
    refine ⟨?_, List.nodup_cons.mpr ⟨fun hin => ?_, h.distinct⟩, ?_⟩
    · rintro s (_ | ⟨_, hs⟩)
      · exact hjson
      · exact h.json s hs
    · obtain ⟨s, hs, heq⟩ := List.mem_map.mp hin
      exact ((hrows s.id).mp (h.unused s hs)).2 heq.symm
    · rintro s (_ | ⟨_, hs⟩)
      · exact hnew
      · exact ((hrows s.id).mp (h.unused s hs)).1

/-- INTERNAL: the inserts, one after the other. -/
theorem run_insertSteps (plan : Plan) (steps : List PlanStep) (w : World) :
    (Insertable plan steps w.working ∧ (PlanRepository.insertSteps plan steps).run w =
      (.ok (), writing w { w.working with
        planSteps := w.working.planSteps ++ steps.map (PlanRepository.stepRow plan) })) ∨
    (¬ Insertable plan steps w.working ∧ ∃ e t, (PlanRepository.insertSteps plan steps).run w =
      (.error e, writing w t)) := by
  induction steps generalizing w with
  | nil =>
    refine .inl ⟨⟨by simp, by simp, by simp⟩, ?_⟩
    simp [PlanRepository.insertSteps, writing]
  | cons step rest ih =>
    unfold PlanRepository.insertSteps
    rw [insertable_cons, Program.run_bind]
    rcases run_insertStep plan step w with ⟨hjson, hnew, hrun⟩ | ⟨hno, e, hrun⟩
    · rw [hrun]
      rcases ih (writing w { w.working with
        planSteps := w.working.planSteps ++ [PlanRepository.stepRow plan step] }) with
        ⟨hok, hrest⟩ | ⟨hno, e, t, hrest⟩
      · refine .inl ⟨⟨hjson, hnew, hok⟩, hrest.trans ?_⟩
        simp [writing]
      · exact .inr ⟨fun h => hno h.2.2, e, t, hrest⟩
    · rw [hrun]
      exact .inr ⟨fun h => hno ⟨h.1, h.2.1⟩, e, w.working, rfl⟩

/-- INTERNAL: what is to be inserted once the old steps are gone. -/
theorem savable_iff {t : Tables} : Savable plan t ↔
    Placed plan t ∧ Insertable plan plan.steps (clearedPlan plan t) := by
  constructor
  · intro h
    refine ⟨h.placed, h.json, h.distinct, fun step hstep row hrow => ?_⟩
    obtain ⟨hrow, hother⟩ := List.mem_filter.mp hrow
    exact h.unused step hstep row hrow (by simpa using hother)
  · rintro ⟨hplaced, h⟩
    refine ⟨hplaced, h.json, h.distinct, fun step hstep row hrow hother => ?_⟩
    exact h.unused step hstep row (List.mem_filter.mpr ⟨hrow, by simpa using hother⟩)

/-- INTERNAL: the outermost exit of a block. -/
theorem exit_writing (hw : w.Idle) (t : Tables) (clean : Bool) :
    (writing w.enter t).exit clean =
      if clean then { w with working := t, committed := t } else w := by
  cases w with
  | mk working committed depth nextId ticks log =>
    obtain ⟨hdepth, hworking⟩ := hw
    simp only at hdepth hworking
    subst hdepth hworking
    cases clean <;> rfl

/-- INTERNAL: the statements of a save. -/
theorem run_planBody (plan : Plan) (w : World) :
    (do
      executeForTask (fun t => Table.has Plan.id t.plans plan.id) plan.taskId fun t =>
        { t with plans := Table.upsert Plan.id PlanRepository.merge (PlanRepository.row plan) t.plans }
      Model.execute fun t => { t with planSteps := t.planSteps.filter (·.planId ≠ plan.id) }
      PlanRepository.insertSteps plan plan.steps : Proc Unit).run w =
    if Table.has Plan.id w.working.plans plan.id || w.working.hasTask plan.taskId then
      (PlanRepository.insertSteps plan plan.steps).run (writing w (clearedPlan plan w.working))
    else (.error (.integrityError "FOREIGN KEY constraint failed"), w) := by
  rw [Program.run_bind, executeForTask, run_executeChecked]
  by_cases hplaced : (Table.has Plan.id w.working.plans plan.id || w.working.hasTask plan.taskId) = true
  · simp only [hplaced, if_true]
    rw [Program.run_bind]
    rfl
  · simp only [hplaced, Bool.false_eq_true, if_false]

/-- A plan is saved as a whole or not at all.
SOURCE: persistence/sqlite/plan_repository.py -/
theorem run_savePlan (plan : Plan) (hw : w.Idle) :
    (Savable plan w.committed ∧ (PlanRepository.save plan).run w =
      (.ok (), { w with
        working := savedPlan plan w.committed
        committed := savedPlan plan w.committed })) ∨
    (¬ Savable plan w.committed ∧ ∃ e, (PlanRepository.save plan).run w = (.error e, w)) := by
  have hworking : w.enter.working = w.committed := hw.working
  rw [savable_iff, PlanRepository.save, run_withUow, run_planBody, hworking]
  by_cases hplaced : (Table.has Plan.id w.committed.plans plan.id || w.committed.hasTask plan.taskId) = true
  case neg =>
    rw [if_neg hplaced]
    refine .inr ⟨fun h => hplaced h.1, .integrityError "FOREIGN KEY constraint failed",
      Prod.ext rfl ?_⟩
    exact exit_writing hw w.working false
  rw [if_pos hplaced]
  rcases run_insertSteps plan plan.steps (writing w.enter (clearedPlan plan w.committed)) with
    ⟨hok, hrun⟩ | ⟨hno, e, t, hrun⟩
  · rw [hrun]
    exact .inl ⟨⟨hplaced, hok⟩, Prod.ext rfl (exit_writing hw (savedPlan plan w.committed) true)⟩
  · rw [hrun]
    exact .inr ⟨fun h => hno h.2, e, Prod.ext rfl (exit_writing hw t false)⟩

end Saving

/-! ## Marking -/

/-- The plan is what is stored for its task. -/
def Stored (plan : Plan) (t : Tables) : Prop := PlanRepository.ofTables t plan.taskId = some plan

/-- The arguments of each step are read back as they are. -/
def PlainSteps (plan : Plan) : Prop := ∀ step ∈ plan.steps, step.arguments.plain = true

section Marking

variable {plan : Plan} {t : Tables}

/-- INTERNAL: marking keeps the plan's identifier. -/
@[simp] theorem markStep_id (plan : Plan) (stepId state : String) :
    (markStep plan stepId state).id = plan.id := rfl

/-- INTERNAL: and its task. -/
@[simp] theorem markStep_taskId (plan : Plan) (stepId state : String) :
    (markStep plan stepId state).taskId = plan.taskId := rfl

/-- INTERNAL: whatever does not look at the state of a step does not see a mark. -/
theorem map_markStep {β : Type} (f : PlanStep → β)
    (hf : ∀ (step : PlanStep) (state : String), f { step with state := state } = f step) (plan : Plan)
    (stepId state : String) : (markStep plan stepId state).steps.map f = plan.steps.map f := by
  unfold markStep
  rw [List.map_map]
  refine List.map_congr_left fun step _ => ?_
  simp only [Function.comp]
  split
  · exact hf step state
  · rfl

/-- INTERNAL: the steps of a marked plan. -/
theorem mem_markStep {stepId state : String} {step : PlanStep} :
    step ∈ (markStep plan stepId state).steps ↔
      (step ∈ plan.steps ∧ step.id ≠ stepId) ∨
      ∃ old ∈ plan.steps, old.id = stepId ∧ step = { old with state := state } := by
  unfold markStep
  simp only [List.mem_map]
  constructor
  · rintro ⟨old, hold, rfl⟩
    by_cases hid : old.id = stepId
    · rw [if_pos hid]
      exact .inr ⟨old, hold, hid, rfl⟩
    · rw [if_neg hid]
      exact .inl ⟨hold, hid⟩
  · rintro (⟨hstep, hid⟩ | ⟨old, hold, hid, rfl⟩)
    · exact ⟨step, hstep, if_neg hid⟩
    · exact ⟨old, hold, if_pos hid⟩

/-- INTERNAL: a property of steps that does not look at their state. -/
theorem forall_markStep {P : PlanStep → Prop}
    (hP : ∀ (step : PlanStep) (state : String), P { step with state := state } ↔ P step) (plan : Plan)
    (stepId state : String) :
    (∀ step ∈ (markStep plan stepId state).steps, P step) ↔ ∀ step ∈ plan.steps, P step := by
  constructor
  · intro h step hstep
    by_cases hid : step.id = stepId
    · exact (hP step state).mp (h _ (mem_markStep.mpr (.inr ⟨step, hstep, hid, rfl⟩)))
    · exact h step (mem_markStep.mpr (.inl ⟨hstep, hid⟩))
  · intro h step hstep
    rcases mem_markStep.mp hstep with ⟨hstep, -⟩ | ⟨old, hold, -, rfl⟩
    · exact h step hstep
    · exact (hP old state).mpr (h old hold)

/-- A plan can be saved whatever its marks. -/
theorem savable_markStep (stepId state : String) :
    Savable (markStep plan stepId state) t ↔ Savable plan t := by
  have hjson := forall_markStep (P := fun step => (Value.dict step.arguments).serializable = true)
    (fun _ _ => Iff.rfl) plan stepId state
  have hids := map_markStep PlanStep.id (fun _ _ => rfl) plan stepId state
  have hunused := forall_markStep
    (P := fun step => ∀ row ∈ t.planSteps, row.planId ≠ plan.id → row.id ≠ step.id)
    (fun _ _ => Iff.rfl) plan stepId state
  constructor
  · intro h
    exact ⟨h.placed, hjson.mp h.json, hids ▸ h.distinct, hunused.mp h.unused⟩
  · intro h
    exact ⟨h.placed, hjson.mpr h.json, hids.symm ▸ h.distinct, hunused.mpr h.unused⟩

/-- INTERNAL: what is needed to save depends on the tasks and on the steps of other plans. -/
theorem Savable.transfer {t' : Tables} (h : Savable plan t) (hplaced : Placed plan t')
    (hrows : ∀ row ∈ t'.planSteps, row.planId ≠ plan.id → row ∈ t.planSteps) : Savable plan t' :=
  ⟨hplaced, h.json, h.distinct, fun step hstep row hrow hother =>
    h.unused step hstep row (hrows row hrow hother) hother⟩

/-- INTERNAL: a saved plan is in the table. -/
theorem placed_savedPlan (plan : Plan) (t : Tables) : Placed plan (savedPlan plan t) := by
  have hkeeps : Table.KeepsKey Plan.id PlanRepository.merge := fun _ _ => rfl
  exact Bool.or_eq_true_iff.mpr (.inl (Table.has_upsert_self hkeeps t.plans (PlanRepository.row plan)))

/-- INTERNAL: a save leaves the steps of other plans alone. -/
theorem mem_savedPlan_other {row : PlanStep} (hrow : row ∈ (savedPlan plan t).planSteps)
    (hother : row.planId ≠ plan.id) : row ∈ t.planSteps := by
  rcases List.mem_append.mp hrow with hrow | hrow
  · exact (List.mem_filter.mp hrow).1
  · obtain ⟨step, -, rfl⟩ := List.mem_map.mp hrow
    exact absurd rfl hother

/-- INTERNAL: the row a save leaves for the task. -/
theorem find_upsert_plan {plans : List Plan} {taskId : String} {row new : Plan}
    (hfound : plans.find? (·.taskId = taskId) = some row) (hid : row.id = new.id)
    (hsame : PlanRepository.merge row new = row) :
    (Table.upsert Plan.id PlanRepository.merge new plans).find? (·.taskId = taskId) = some row := by
  induction plans with
  | nil => cases hfound
  | cons first plans ih =>
    unfold Table.upsert
    by_cases htask : first.taskId = taskId
    · rw [List.find?_cons_of_pos (by simpa using htask)] at hfound
      obtain rfl := Option.some.inj hfound
      rw [if_pos hid, hsame, List.find?_cons_of_pos (by simpa using htask)]
    · rw [List.find?_cons_of_neg (by simpa using htask)] at hfound
      split
      · have hmerged : (PlanRepository.merge first new).taskId = first.taskId := rfl
        rw [List.find?_cons_of_neg (by simpa [hmerged] using htask)]
        exact hfound
      · rw [List.find?_cons_of_neg (by simpa using htask)]
        exact ih hfound

/-- INTERNAL: reading changes nothing about a step but its arguments. -/
theorem map_asRead {β : Type} (f : PlanStep → β)
    (hf : ∀ (step : PlanStep) (arguments : Dict), f { step with arguments := arguments } = f step)
    (plan : Plan) : (PlanRepository.asRead plan).steps.map f = plan.steps.map f := by
  unfold PlanRepository.asRead
  rw [List.map_map]
  exact List.map_congr_left fun step _ => hf step _

/-- INTERNAL: the steps of a plan that was read. -/
theorem mem_asRead {step : PlanStep} : step ∈ (PlanRepository.asRead plan).steps ↔
    ∃ old ∈ plan.steps, { old with arguments := old.arguments.reloaded } = step := List.mem_map

/-- A plan that was read is read back as it is. -/
theorem plainSteps_asRead (plan : Plan) : PlainSteps (PlanRepository.asRead plan) := by
  intro step hstep
  obtain ⟨old, -, rfl⟩ := mem_asRead.mp hstep
  exact Value.plainDict_reloaded old.arguments

/-- INTERNAL: so is any plan with such arguments. -/
theorem PlainSteps.asRead_eq (h : PlainSteps plan) : PlanRepository.asRead plan = plan := by
  unfold PlanRepository.asRead
  have hsteps : plan.steps.map (fun step => { step with arguments := step.arguments.reloaded }) =
      plan.steps := by
    refine (List.map_congr_left fun step hstep => ?_).trans (List.map_id _)
    rw [Dict.reloaded_eq_iff.mpr (h step hstep)]
    rfl
  rw [hsteps]

/-- INTERNAL: the parts of a stored plan. -/
theorem stored_iff : Stored plan t ↔ ∃ row, t.plans.find? (·.taskId = plan.taskId) = some row ∧
    plan = PlanRepository.asRead { row with steps := PlanRepository.stepRows t row.id } := by
  unfold Stored PlanRepository.ofTables
  rw [Option.map_eq_some_iff]
  refine exists_congr fun row => and_congr_right fun _ => ?_
  exact eq_comm

/-- INTERNAL: a stored plan is read back as it is. -/
theorem Stored.plain (h : Stored plan t) : PlainSteps plan := by
  obtain ⟨row, -, rfl⟩ := stored_iff.mp h
  exact plainSteps_asRead _

/-- INTERNAL: a step of a stored plan names the plan. -/
theorem Stored.planId (h : Stored plan t) {step : PlanStep} (hstep : step ∈ plan.steps) :
    step.planId = plan.id := by
  obtain ⟨row, -, rfl⟩ := stored_iff.mp h
  obtain ⟨old, hold, rfl⟩ := mem_asRead.mp hstep
  have hin := (List.perm_insertionSort _ _).mem_iff.mp hold
  have hplan : old.planId = row.id := by simpa using (List.mem_filter.mp hin).2
  exact hplan

/-- INTERNAL: its steps stand in order. -/
theorem Stored.sorted (h : Stored plan t) : plan.steps.Pairwise fun a b => a.order ≤ b.order := by
  obtain ⟨row, -, rfl⟩ := stored_iff.mp h
  rw [← List.pairwise_map (f := PlanStep.order), map_asRead PlanStep.order fun _ _ => rfl,
    List.pairwise_map]
  exact List.pairwise_insertionSort (fun a b : PlanStep => a.order ≤ b.order) _

/-- What is stored after a save with other steps: the plan as it was saved, if its steps belong to the
plan, are in order and have arguments that are read back as they are.
SOURCE: persistence/sqlite/plan_repository.py -/
theorem Stored.savedPlan_steps (h : Stored plan t) {new : Plan}
    (hrow : PlanRepository.row new = PlanRepository.row plan)
    (hplanId : ∀ step ∈ new.steps, step.planId = plan.id)
    (hsorted : new.steps.Pairwise fun a b => a.order ≤ b.order) (hplain : PlainSteps new) :
    Stored new (savedPlan new t) := by
  have hnewId : new.id = plan.id :=
    show (PlanRepository.row new).id = (PlanRepository.row plan).id by rw [hrow]
  have htaskId : new.taskId = plan.taskId :=
    show (PlanRepository.row new).taskId = (PlanRepository.row plan).taskId by rw [hrow]
  obtain ⟨row, hfound, hplan⟩ := stored_iff.mp h
  have hid : row.id = plan.id := (congrArg Plan.id hplan).symm
  have hsame : PlanRepository.row new = { row with steps := [] } := by
    rw [hrow, hplan]
    rfl
  refine stored_iff.mpr ⟨row, ?_, ?_⟩
  · rw [htaskId]
    refine find_upsert_plan hfound (hid.trans hnewId.symm) ?_
    rw [hsame]
    rfl
  · have hsteps : PlanRepository.stepRows (savedPlan new t) row.id = new.steps := by
      have hrows : new.steps.map (PlanRepository.stepRow new) = new.steps := by
        refine (List.map_congr_left fun step hstep => ?_).trans (List.map_id _)
        unfold PlanRepository.stepRow
        rw [hnewId, ← hplanId step hstep]
        rfl
      unfold savedPlan PlanRepository.stepRows
      dsimp only
      rw [hrows, List.filter_append, hid]
      have hothers : (t.planSteps.filter (·.planId ≠ new.id)).filter (·.planId = plan.id) = [] := by
        rw [List.filter_filter, hnewId]
        refine List.filter_eq_nil_iff.mpr fun step _ => ?_
        by_cases hstep : step.planId = plan.id <;> simp [hstep]
      have hown : new.steps.filter (·.planId = plan.id) = new.steps :=
        List.filter_eq_self.mpr fun step hstep => by simpa using hplanId step hstep
      rw [hothers, hown, List.nil_append]
      exact hsorted.insertionSort_eq
    have hnew : new = { row with steps := new.steps } :=
      congrArg (fun bare : Plan => { bare with steps := new.steps }) hsame
    rw [hsteps, ← hnew, hplain.asRead_eq]

/-- What is stored after a save with another mark.
SOURCE: execution/plan_runner.py:242-244 -/
theorem Stored.savedPlan_markStep (h : Stored plan t) (stepId state : String) :
    Stored (markStep plan stepId state) (savedPlan (markStep plan stepId state) t) := by
  refine h.savedPlan_steps rfl ?_ ?_ ?_
  · exact (forall_markStep (P := fun step => step.planId = plan.id) (fun _ _ => Iff.rfl) plan stepId
      state).mpr fun step hstep => h.planId hstep
  · have hplan := h.sorted
    rw [← List.pairwise_map (f := PlanStep.order)] at hplan ⊢
    rwa [map_markStep PlanStep.order fun _ _ => rfl]
  · exact (forall_markStep (P := fun step => step.arguments.plain = true) (fun _ _ => Iff.rfl) plan stepId
      state).mpr h.plain

end Marking

end Shea.Analysis
