import Shea.Analysis.PlanCompletion

/-!
# Runs of a plan, one after the other

The loop goes through the pending steps. Every step it has gone past is COMPLETED, so the step it comes
to depends on COMPLETED steps only (`Pending`), and when the last one moves the task to COMPLETED, all
of them are (`AllDone`). Between two runs the plan may be resumed and its task recovered; that writes
no plan.
-/

set_option autoImplicit false

namespace Shea.Analysis

open Shea.Computation Shea.Model
open Shea.Model.PlanRunner

/-! ## Plans that differ in their marks -/

/-- The step without its mark. -/
def unmarked (step : PlanStep) : PlanStep := { step with state := "" }

/-- The same task and the same steps, but for the marks. -/
structure SameButMarks (base plan : Plan) : Prop where
  taskId : plan.taskId = base.taskId
  steps : plan.steps.map unmarked = base.steps.map unmarked

/-- INTERNAL: a plan is itself up to marks. -/
theorem SameButMarks.refl (plan : Plan) : SameButMarks plan plan := ⟨rfl, rfl⟩

/-- INTERNAL: the relation is transitive. -/
theorem SameButMarks.trans {a b c : Plan} (h : SameButMarks a b) (h' : SameButMarks b c) :
    SameButMarks a c :=
  ⟨h'.taskId.trans h.taskId, h'.steps.trans h.steps⟩

/-- INTERNAL: remarking changes marks alone. -/
theorem Remarked.same {base plan : Plan} {stepId : String} (h : Remarked base stepId plan) :
    SameButMarks base plan := by
  rcases h with rfl | ⟨state, rfl⟩
  · exact .refl _
  · exact ⟨rfl, map_markStep unmarked (fun _ _ => rfl) base stepId state⟩

/-- INTERNAL: a task has one stored plan. -/
theorem Standing.unique {host : Host} {plan plan' : Plan} {w : World} (h : Standing host plan w)
    (h' : Standing host plan' w) (htask : plan'.taskId = plan.taskId) : plan' = plan := by
  have hstored := h'.stored
  unfold Stored at hstored
  rw [htask, h.stored] at hstored
  exact (Option.some.inj hstored).symm

/-! ## The loop -/

/-- Every step with a tool is COMPLETED. -/
def AllDone (plan : Plan) : Prop := ∀ step ∈ plan.steps, step.tool ≠ "" → step.state = "COMPLETED"

/-- The same, but for the steps that are still to be taken up. -/
def DoneBut (plan : Plan) (remaining : List PlanStep) : Prop :=
  ∀ step ∈ plan.steps, step.tool ≠ "" →
    step.state = "COMPLETED" ∨ step.id ∈ remaining.map PlanStep.id

/-- What `step` depends on is COMPLETED in the store. -/
def DependenciesDone (taskId : String) (step : PlanStep) (t : Tables) : Prop :=
  ∃ plan, PlanRepository.ofTables t taskId = some plan ∧
    ∀ dep ∈ plan.steps, dep.id ∈ step.dependsOn → dep.tool ≠ "" → dep.state = "COMPLETED"

/-- No step depends on itself or on a later one. -/
structure Forward (steps : List PlanStep) : Prop where
  later : steps.Pairwise fun a b => b.id ∉ a.dependsOn
  itself : ∀ step ∈ steps, step.id ∉ step.dependsOn

/-- What the loop finds before each step. -/
structure Pending (host : Host) (progress : Progress) (steps : List PlanStep) (w : World) : Prop where
  standing : Standing host progress.plan w
  task : progress.plan.taskId = progress.current.id
  doneBut : DoneBut progress.plan steps
  stepsOf : ∀ step ∈ steps, StepOf progress.plan step
  forward : Forward steps

section Loop

variable {host : Host} {runner : PlanRunner} {actingUser : String} {explicitUserAck : Bool}
  {progress : Progress} {step : PlanStep} {rest : List PlanStep} {w t : World}

/-- INTERNAL: once the first of them is marked COMPLETED, it is no longer awaited. -/
theorem DoneBut.complete {plan : Plan} (h : DoneBut plan (step :: rest)) :
    DoneBut (markStep plan step.id "COMPLETED") rest := by
  intro s hs htool
  rcases mem_markStep.mp hs with ⟨hin, hother⟩ | ⟨old, -, -, rfl⟩
  · refine (h s hin htool).imp id fun hawaited => ?_
    rw [List.map_cons, List.mem_cons] at hawaited
    exact hawaited.resolve_left hother
  · exact .inl rfl

/-- INTERNAL: with no step left out, all are done. -/
theorem DoneBut.allDone {plan : Plan} (h : DoneBut plan []) : AllDone plan :=
  fun s hs htool => (h s hs htool).resolve_right List.not_mem_nil

/-- INTERNAL: the later steps go forward too. -/
theorem Forward.tail (h : Forward (step :: rest)) : Forward rest :=
  ⟨(List.pairwise_cons.mp h.later).2, fun s hs => h.itself s (List.mem_cons_of_mem _ hs)⟩

/-- INTERNAL: taking up a step is noted, which nothing else sees. -/
theorem Pending.noted {steps : List PlanStep} (h : Pending host progress steps w)
    (taskId stepId : String) (hrun : (note (.stepStarted taskId stepId)).run w = (.ok (), t)) :
    Pending host progress steps t ∧ t.committed = w.committed := by
  obtain ⟨-, rfl⟩ := Prod.mk.inj hrun
  have hcalls : callsOf (w.log ++ [.stepStarted taskId stepId]) = callsOf w.log := by
    simp [callsOf]
  have hsafe : Safe host (ledgerOf { w with log := w.log ++ [.stepStarted taskId stepId] }) := by
    unfold ledgerOf
    rw [hcalls]
    exact h.standing.resting.safe
  have hidle := Closes.note (.stepStarted taskId stepId) w h.standing.resting.idle
  exact ⟨⟨h.standing.spared ⟨⟨hidle, hsafe⟩, rfl, le_rfl⟩, h.task, h.doneBut, h.stepsOf, h.forward⟩, rfl⟩

/-- INTERNAL: after a step that does not stop the run. -/
theorem Pending.next {after : Progress} {plan : Plan} {moreSteps : Bool} {before : Prop}
    {r : Except Err Progress} (h : Pending host progress (step :: rest) w)
    (hend : StepEnd host progress.plan step.id progress.current.id moreSteps before r t plan)
    (hr : r = .ok after) (hgoes : after.stopped = false) :
    after.current.id = progress.current.id ∧ Pending host after rest t := by
  obtain ⟨hplan, hid, hmarked⟩ := hend.returned after hr
  have hafter : after.plan = markStep progress.plan step.id "COMPLETED" :=
    hplan.trans (hmarked hgoes)
  refine ⟨hid, hplan ▸ hend.standing, ?_, ?_, fun s hs => ?_, h.forward.tail⟩
  · rw [hafter, hid]
    exact h.task
  · rw [hafter]
    exact h.doneBut.complete
  · rw [hafter]
    exact (h.stepsOf s (List.mem_cons_of_mem _ hs)).mark _ _

/-- How the loop leaves the plan. -/
structure LoopEnd (host : Host) (base : Plan) (taskId : String) (before : Prop)
    (r : Except Err (Progress × Option PlanStep)) (t : World) (plan : Plan) : Prop where
  standing : Standing host plan t
  marked : SameButMarks base plan
  returned : ∀ ended, r = .ok ended → ended.1.current.id = taskId
  completed : stateIn t taskId = some .completed → before ∨ AllDone plan

/-- The loop keeps the plan certified, and moves its task to COMPLETED only when all is done.
SOURCE: execution/plan_runner.py:121-212 -/
theorem runSteps_end (hrunner : TaskCalls runner) (hrecords : RecordCalls host runner)
    {steps : List PlanStep} (h : Pending host progress steps w)
    {r : Except Err (Progress × Option PlanStep)}
    (hrun : (runSteps runner host actingUser explicitUserAck progress steps).run w = (r, t)) :
    ∃ plan, LoopEnd host progress.plan progress.current.id
      (stateIn w progress.current.id = some .completed) r t plan := by
  induction steps generalizing progress w with
  | nil =>
    obtain ⟨rfl, rfl⟩ := Prod.mk.inj hrun
    refine ⟨progress.plan, h.standing, .refl _, fun ended hended => ?_, .inl⟩
    obtain rfl := Except.ok.inj hended
    rfl
  | cons step rest ih =>
    unfold runSteps at hrun
    split at hrun
    · obtain ⟨rfl, rfl⟩ := Prod.mk.inj hrun
      refine ⟨progress.plan, h.standing, .refl _, fun ended hended => ?_, .inl⟩
      cases hended
    rw [Program.run_bind] at hrun
    generalize hbegun : (note (.stepStarted progress.plan.taskId step.id)).run w = begun at hrun
    obtain ⟨r₀, begun⟩ := begun
    obtain rfl : r₀ = .ok () := (congrArg Prod.fst hbegun).symm
    obtain ⟨hnoted, hcommitted⟩ := h.noted _ _ hbegun
    have hsame : stateIn begun progress.current.id = stateIn w progress.current.id := by
      unfold stateIn
      rw [hcommitted]
    dsimp only at hrun
    rw [Program.run_bind] at hrun
    generalize hstep : (runStep runner host actingUser explicitUserAck progress step
      (!rest.isEmpty)).run begun = out at hrun
    obtain ⟨r₁, w₁⟩ := out
    obtain ⟨plan, hend⟩ := runStep_end hrunner hrecords hnoted.standing
      (h.stepsOf step (List.mem_cons_self ..)) h.task hstep
    rw [hsame] at hend
    -- the last step is the only one that moves the task to COMPLETED
    have hdone : stateIn w₁ progress.current.id = some .completed →
        stateIn w progress.current.id = some .completed ∨ (rest = [] ∧ AllDone plan) := by
      intro hcompleted
      refine (hend.completed hcompleted).imp id ?_
      rintro ⟨hlast, rfl⟩
      obtain rfl : rest = [] := by simpa using hlast
      exact ⟨rfl, h.doneBut.complete.allDone⟩
    cases r₁ with
    | error e =>
      obtain ⟨rfl, rfl⟩ := Prod.mk.inj hrun
      refine ⟨plan, hend.standing, hend.marked.same, fun ended hended => ?_,
        fun hcompleted => (hdone hcompleted).imp id And.right⟩
      cases hended
    | ok after =>
      obtain ⟨hplan, hid, -⟩ := hend.returned after rfl
      dsimp only at hrun
      split at hrun
      · obtain ⟨rfl, rfl⟩ := Prod.mk.inj hrun
        refine ⟨plan, hend.standing, hend.marked.same, fun ended hended => ?_,
          fun hcompleted => (hdone hcompleted).imp id And.right⟩
        obtain rfl := Except.ok.inj hended
        exact hid
      · next hgoes =>
        have hgoes' : after.stopped = false := by simpa using hgoes
        obtain ⟨-, hnext⟩ := hnoted.next hend rfl hgoes'
        obtain ⟨last, hlast⟩ := ih hnext hrun
        rw [hid, hplan] at hlast
        refine ⟨last, hlast.standing, hend.marked.same.trans hlast.marked, hlast.returned,
          fun hcompleted => ?_⟩
        rcases hlast.completed hcompleted with hearlier | hall
        · refine (hdone hearlier).imp id ?_
          rintro ⟨rfl, hall⟩
          -- the run is over, so what is stored is what that step has left
          obtain ⟨-, rfl⟩ := Prod.mk.inj hrun
          rw [hend.standing.unique hlast.standing hlast.marked.taskId]
          exact hall
        · exact .inr hall

/-- INTERNAL: an execution is under way only when all it depends on is COMPLETED.
SOURCE: execution/plan_runner.py:121-174 -/
theorem dependenciesDone_executing (hrecords : RecordCalls host runner)
    (h : Pending host progress (step :: rest) w) {plan : Plan} {current : Task}
    (hauthorized : (authorizeStep runner host progress step actingUser explicitUserAck).run w =
      (.ok (plan, current), t)) (n : ℕ) :
    DependenciesDone progress.current.id step
      ((runner.execute current (requestFor current step)).cut n t).committed := by
  rcases authorizeStep_kept hrecords h.standing hauthorized with ⟨⟨e, he⟩, -⟩ | ⟨hstanding, -, -⟩
  · cases he
  have hkeeps := (hrecords.executing current (requestFor current step)).cut n t
  have hpart := (hkeeps (congrArg planPart hstanding.resting.idle.working)).2
  have hstored := hstanding.stored.of_planPart hpart
  refine ⟨markStep progress.plan step.id "RUNNING", ?_, fun dep hdep hdepends htool => ?_⟩
  · rw [← h.task]
    exact hstored
  · rcases mem_markStep.mp hdep with ⟨hin, -⟩ | ⟨old, -, hid, rfl⟩
    · refine (h.doneBut dep hin htool).resolve_right fun hawaited => ?_
      rw [List.map_cons, List.mem_cons] at hawaited
      rcases hawaited with hid | hlater
      · exact h.forward.itself step (List.mem_cons_self ..) (hid ▸ hdepends)
      · obtain ⟨later, hlater, hid⟩ := List.mem_map.mp hlater
        exact (List.pairwise_cons.mp h.forward.later).1 later hlater (hid ▸ hdepends)
    · exact absurd (hid ▸ hdepends) (h.forward.itself step (List.mem_cons_self ..))

/-- A step's execution is under way when something it depends on is not COMPLETED. -/
def StartsEarly (runner : PlanRunner) (host : Host) (actingUser : String) (explicitUserAck : Bool)
    (progress : Progress) (step : PlanStep) (w : World) : Prop :=
  ∃ plan current w₁ n,
    (authorizeStep runner host progress step actingUser explicitUserAck).run w =
      (.ok (plan, current), w₁) ∧
    ¬ DependenciesDone progress.current.id step
      ((runner.execute current (requestFor current step)).cut n w₁).committed

/-- The loop comes to no step that starts early.
SOURCE: execution/plan_runner.py:121-212 -/
theorem runSteps_inOrder (hrunner : TaskCalls runner) (hrecords : RecordCalls host runner)
    {steps : List PlanStep} (h : Pending host progress steps w) :
    ¬ ComesTo runner host actingUser explicitUserAck
      (fun progress step _ => StartsEarly runner host actingUser explicitUserAck progress step)
      progress steps w := by
  induction steps generalizing progress w with
  | nil => exact id
  | cons step rest ih =>
    obtain ⟨hnoted, -⟩ := h.noted progress.plan.taskId step.id rfl
    rintro (⟨plan, current, w₁, n, hauthorized, hnot⟩ | ⟨after, t, hstep, hgoes, hcomes⟩)
    · exact hnot (dependenciesDone_executing hrecords hnoted hauthorized n)
    · obtain ⟨plan, hend⟩ := runStep_end hrunner hrecords hnoted.standing
        (h.stepsOf step (List.mem_cons_self ..)) h.task hstep
      exact ih (hnoted.next hend rfl hgoes).2 hcomes

/-- INTERNAL: compensations are executions.
SOURCE: execution/plan_runner.py:214-233 -/
theorem compensate_end (hrunner : TaskCalls runner) (hrecords : RecordCalls host runner) {plan : Plan}
    (nodes : List OperationNode) (h : Standing host plan w) {r : Except Err Progress}
    (hrun : (compensate runner host progress nodes).run w = (r, t)) :
    Standing host plan t ∧ (stateIn t progress.current.id = some .completed →
      stateIn w progress.current.id = some .completed) := by
  induction nodes generalizing progress w with
  | nil =>
    obtain ⟨-, rfl⟩ := Prod.mk.inj hrun
    exact ⟨h, id⟩
  | cons node rest ih =>
    generalize hexecute : (runner.execute progress.current
      (compensationFor host.py progress.current node)).run w = out
    obtain ⟨r₁, w₁⟩ := out
    rw [compensate_cons node rest hexecute] at hrun
    obtain ⟨hresting, hkept⟩ := hrecords.execute h.resting h.numbered hexecute
    obtain ⟨-, hexecutes⟩ := hrunner.execute h.resting.idle hexecute
    have hstands := h.executed hresting hkept
    -- the task is the same for the compensations that follow, if there are any
    obtain ⟨hlast, hcompleted⟩ : Standing host plan t ∧
        (stateIn t progress.current.id = some .completed →
          stateIn w₁ progress.current.id = some .completed) := by
      cases hnext : withResult progress r₁ with
      | error e =>
        rw [hnext] at hrun
        obtain ⟨-, rfl⟩ := Prod.mk.inj hrun
        exact ⟨hstands, id⟩
      | ok next =>
        rw [hnext] at hrun
        have hid : next.current.id = progress.current.id := by
          cases r₁ with
          | ok result =>
            obtain rfl := Except.ok.inj hnext
            exact hexecutes.2.1
          | error e => rw [withResult_error hnext]
        rw [← hid]
        exact ih hstands hrun
    refine ⟨hlast, fun hdone => ?_⟩
    have hdone₁ := hcompleted hdone
    cases r₁ with
    | ok result =>
      rw [hexecutes.2.2.2.2] at hdone₁
      revert hdone₁
      cases result.outcome <;> simp [executedState]
    | error e =>
      rcases hexecutes with hsame | ⟨-, -, hhalted⟩
      · rwa [hsame] at hdone₁
      · rw [hhalted] at hdone₁
        cases hdone₁

/-- Unwinding leaves the plan standing and completes no task. -/
theorem unwind_end (hrunner : TaskCalls runner) (hrecords : RecordCalls host runner) {plan : Plan}
    (ordered : List OperationNode) (stopped : Option PlanStep) (h : Standing host plan w)
    {r : Except Err Progress} (hrun : (unwind runner host ordered progress stopped).run w = (r, t)) :
    Standing host plan t ∧ (stateIn t progress.current.id = some .completed →
      stateIn w progress.current.id = some .completed) := by
  cases stopped with
  | none =>
    obtain ⟨-, rfl⟩ := Prod.mk.inj hrun
    exact ⟨h, id⟩
  | some step =>
    rw [unwind_some] at hrun
    exact compensate_end hrunner hrecords _ h hrun

end Loop

/-! ## Whole runs -/

section Runs

variable {host : Host} {runner : PlanRunner} {actingUser : String} {explicitUserAck : Bool}
  {plan : Plan} {task : Task} {nodes ordered : List OperationNode} {w t : World}

/-- INTERNAL: a list whose every split is in order is in order. -/
theorem pairwise_of_splits {α : Type} {R : α → α → Prop} {items : List α}
    (h : ∀ before a after, items = before ++ a :: after → ∀ b ∈ after, R a b) : items.Pairwise R := by
  induction items with
  | nil => exact .nil
  | cons a rest ih =>
    refine List.pairwise_cons.mpr ⟨h [] a rest rfl, ih fun before b after hsplit => ?_⟩
    exact h (a :: before) b after (by rw [hsplit]; rfl)

/-- INTERNAL: in the order of the graph, no step depends on itself or on a later one. -/
theorem forward_stepsInOrder (hdistinct : (plan.steps.map PlanStep.id).Nodup)
    (hnodes : OperationGraph.fromPlan host.py plan = .ok nodes)
    (hordered : OperationGraph.topologicalOrder nodes = .ok ordered) :
    Forward (stepsInOrder plan ordered) := by
  have hperm := stepsInOrder_perm hdistinct hnodes hordered
  have hnodup : ((stepsInOrder plan ordered).map PlanStep.id).Nodup :=
    (hperm.map PlanStep.id).nodup_iff.mpr hdistinct
  have hsplit : ∀ before step after, stepsInOrder plan ordered = before ++ step :: after →
      ∀ other ∈ step :: after, other.id ∉ step.dependsOn := by
    intro before step after hsteps other hother hdepends
    have hin : other ∈ plan.steps := hperm.subset (by simp [hsteps, hother])
    have hbefore := stepsInOrder_before hdistinct hnodes hordered hsteps hin hdepends
    rw [hsteps, List.map_append] at hnodup
    exact List.disjoint_of_nodup_append hnodup (List.mem_map_of_mem hbefore)
      (List.mem_map_of_mem hother)
  refine ⟨pairwise_of_splits fun before a after hsteps b hb =>
    hsplit before a after hsteps b (List.mem_cons_of_mem _ hb), fun step hstep => ?_⟩
  obtain ⟨before, after, hsteps⟩ := List.append_of_mem hstep
  exact hsplit before step after hsteps step (List.mem_cons_self ..)

/-- INTERNAL: what the loop finds at its first step. -/
theorem pending_run (h : Standing host plan w) (htask : plan.taskId = task.id)
    (hnodes : OperationGraph.fromPlan host.py plan = .ok nodes)
    (hordered : OperationGraph.topologicalOrder nodes = .ok ordered) :
    Pending host { plan := plan, current := task }
      ((executableSteps plan ordered).filter (·.state ≠ "COMPLETED")) w := by
  have hperm := stepsInOrder_perm h.distinct hnodes hordered
  have hforward := forward_stepsInOrder h.distinct hnodes hordered
  have hsub : ((executableSteps plan ordered).filter (·.state ≠ "COMPLETED")).Sublist
      (stepsInOrder plan ordered) :=
    List.filter_sublist.trans List.filter_sublist
  refine ⟨h, htask, fun step hstep htool => ?_, fun step hstep => ?_,
    hforward.later.sublist hsub, fun step hstep => hforward.itself step (hsub.subset hstep)⟩
  · by_cases hdone : step.state = "COMPLETED"
    · exact .inl hdone
    · have hin : step ∈ executableSteps plan ordered :=
        List.mem_filter.mpr ⟨hperm.symm.subset hstep, by simpa using htool⟩
      exact .inr (List.mem_map_of_mem (List.mem_filter.mpr ⟨hin, by simpa using hdone⟩))
  · exact ⟨step, hperm.subset (hsub.subset hstep), rfl, rfl⟩

/-- INTERNAL: the plan a run begins with is the one that is stored. -/
theorem run_getByTask (h : Standing host plan w) (htask : plan.taskId = task.id) :
    (PlanRepository.getByTask task.id).run w = (.ok (some plan), w) := by
  have hstored : PlanRepository.ofTables w.working task.id = some plan := by
    rw [h.resting.idle.working, ← htask]
    exact h.stored
  exact Prod.ext (congrArg Except.ok hstored) rfl

/-- A run keeps the plan certified, and moves its task to COMPLETED only when all is done.
SOURCE: execution/plan_runner.py:80-240 -/
theorem run_end (hrunner : TaskCalls runner) (hrecords : RecordCalls host runner)
    (h : Standing host plan w) (htask : plan.taskId = task.id) {r : Except Err PlanRunResult}
    (hrun : (run runner host task actingUser explicitUserAck).run w = (r, t)) :
    ∃ last, Standing host last t ∧ SameButMarks plan last ∧
      (stateIn t task.id = some .completed → stateIn w task.id = some .completed ∨ AllDone last) := by
  have hstill : ∀ {e : Err}, (throw e : Proc PlanRunResult).run w = (r, t) →
      ∃ last, Standing host last t ∧ SameButMarks plan last ∧
        (stateIn t task.id = some .completed →
          stateIn w task.id = some .completed ∨ AllDone last) := by
    intro e hraised
    obtain ⟨-, rfl⟩ := Prod.mk.inj hraised
    exact ⟨plan, h, .refl _, .inl⟩
  unfold run at hrun
  rw [Program.run_bind, run_getByTask h htask] at hrun
  dsimp only at hrun
  unfold runPlan at hrun
  rw [Program.run_bind, Program.run_ofExcept] at hrun
  cases hnodes : OperationGraph.fromPlan host.py plan with
  | error e =>
    rw [hnodes] at hrun
    exact hstill hrun
  | ok nodes =>
  rw [hnodes] at hrun
  dsimp only at hrun
  rw [Program.run_bind, Program.run_ofExcept] at hrun
  cases hordered : OperationGraph.topologicalOrder nodes with
  | error e =>
    rw [hordered] at hrun
    exact hstill hrun
  | ok ordered =>
  rw [hordered] at hrun
  have hpending := pending_run h htask hnodes hordered
  unfold runOrdered at hrun
  dsimp only at hrun
  split at hrun
  · exact hstill hrun
  split at hrun
  · obtain ⟨-, rfl⟩ := Prod.mk.inj hrun
    exact ⟨plan, h, .refl _, .inl⟩
  unfold runPending at hrun
  rw [Program.run_bind] at hrun
  generalize hloop : (runSteps runner host actingUser explicitUserAck
    { plan := plan, current := task } _).run w = out at hrun
  obtain ⟨r₁, w₁⟩ := out
  obtain ⟨last, hend⟩ := runSteps_end hrunner hrecords hpending hloop
  cases r₁ with
  | error e =>
    obtain ⟨-, rfl⟩ := Prod.mk.inj hrun
    exact ⟨last, hend.standing, hend.marked, hend.completed⟩
  | ok ended =>
    dsimp only at hrun
    rw [Program.run_bind] at hrun
    generalize hunwind : (unwind runner host ordered ended.1 ended.2).run w₁ = out at hrun
    obtain ⟨r₂, w₂⟩ := out
    obtain rfl : w₂ = t := by
      cases r₂ <;> exact congrArg Prod.snd hrun
    obtain ⟨hstanding, hcompleted⟩ := unwind_end hrunner hrecords ordered _ hend.standing hunwind
    rw [hend.returned ended rfl] at hcompleted
    exact ⟨last, hstanding, hend.marked, fun hdone => hend.completed (hcompleted hdone)⟩

/-- A run comes to no step that starts early. -/
theorem run_inOrder (hrunner : TaskCalls runner) (hrecords : RecordCalls host runner)
    (h : Standing host plan w) (htask : plan.taskId = task.id) :
    ¬ RunComesTo runner host actingUser explicitUserAck
      (fun _ progress step _ => StartsEarly runner host actingUser explicitUserAck progress step)
      task w := by
  rintro ⟨plan', nodes, ordered, hplan, hnodes, hordered, hcomes⟩
  rw [run_getByTask h htask] at hplan
  obtain rfl := Option.some.inj (Except.ok.inj (congrArg Prod.fst hplan))
  exact runSteps_inOrder hrunner hrecords (pending_run h htask hnodes hordered) hcomes

end Runs

/-! ## Histories -/

/-- Public operations and saves of plans, none of them killed. -/
inductive StoreCall (host : Host) : Proc Unit → Prop
  | operation {p : Proc Unit} (h : Operation host p) : StoreCall host p
  | save (plan : Plan) : StoreCall host (PlanRepository.save plan)

/-- Runs of the task's plan, with any services, and public operations other than planning. -/
inductive PlanCall (host : Host) (taskId : String) : Proc Unit → Prop
  | run (decision : DecisionService) (execution : ExecutionService) (verification : VerificationService)
      (task : Task) (htask : task.id = taskId) (actingUser : String) (explicitUserAck : Bool) :
      PlanCall host taskId (PlanRunner.run (.ofServices host decision execution verification) host task
        actingUser explicitUserAck).void
  | operation {p : Proc Unit} (h : Operation host p)
      (hother : ∀ (service : PlanningService) given, p ≠ (service.createAndPlan host given).void) :
      PlanCall host taskId p

/-- Calls that all come to an end. -/
def unkilled (calls : Proc Unit → Prop) : Usage World Err :=
  { calls := fun _ => calls, crashes := fun _ _ _ => False, restart := id }

section Histories

variable {host : Host} {plan₀ : Plan} {w₀ w : World}

/-- INTERNAL: before the first run. -/
theorem numbered_of_storeCalls (h : History (unkilled (StoreCall host)) {} w) :
    Resting host w ∧ Numbered host w := by
  refine h.invariant (I := fun w => Resting host w ∧ Numbered host w) ?_ ?_ fun _ _ _ _ => False.elim
  · exact ⟨resting_empty host, fun record hrecord => by cases hrecord⟩
  · rintro s p ⟨hs, hnum⟩ (hp | plan)
    · have hgrown := hp.grown hs hnum
      exact ⟨hgrown.resting, hgrown.numbered⟩
    · have hspares : Spares host recordPart (PlanRepository.save plan) :=
        (serves_savePlan outlying_ledgerPart.toUnplanned plan).spares
        (serves_savePlan outlying_recordPart.toUnplanned plan)
      have hgrown := Grown.of_spared hnum (hspares s hs)
      exact ⟨hgrown.resting, hgrown.numbered⟩

/-- From one call to the next the plan is certified. -/
theorem standing_of_planCalls (h₀ : Standing host plan₀ w₀)
    (h : History (unkilled (PlanCall host plan₀.taskId)) w₀ w) :
    ∃ plan, Standing host plan w ∧ SameButMarks plan₀ plan := by
  refine h.invariant (I := fun w => ∃ plan, Standing host plan w ∧ SameButMarks plan₀ plan)
    ⟨plan₀, h₀, .refl _⟩ ?_ fun _ _ _ _ => False.elim
  rintro s p ⟨plan, hs, hsame⟩ hp
  cases hp with
  | run decision execution verification task htask actingUser explicitUserAck =>
    rw [Program.run_void]
    obtain ⟨last, hlast, hmarks, -⟩ := run_end (taskCalls_ofServices host decision execution verification)
      (recordCalls_ofServices host decision execution verification) hs
      (hsame.taskId.trans htask.symm) rfl
    exact ⟨last, hlast, hsame.trans hmarks⟩
  | operation hp hother =>
    exact ⟨plan, hs.grow (hp.spares_plans hother hs.resting hs.numbered)
      (hp.grown hs.resting hs.numbered), hsame⟩

/-- A plan with distinct step ids and no step done yet is stored; its task is run, resumed and
recovered in any order, with any services. In the next run a step is executed only while all it depends
on is COMPLETED, and if the run moves the task to COMPLETED, every step with a tool is COMPLETED and has
a successful execution and a positive verification of its own.
SOURCE: execution/plan_runner.py:80-244 -/
theorem plan_run_in_order_and_completed (hstart : History (unkilled (StoreCall host)) {} w₀)
    (hplan : Stored plan₀ w₀.committed) (hdistinct : (plan₀.steps.map PlanStep.id).Nodup)
    (hfresh : ∀ step ∈ plan₀.steps, step.tool ≠ "" → step.state ≠ "COMPLETED")
    (hresumed : History (unkilled (PlanCall host plan₀.taskId)) w₀ w)
    (decision : DecisionService) (execution : ExecutionService) (verification : VerificationService)
    {task : Task} (htask : task.id = plan₀.taskId) (actingUser : String) (explicitUserAck : Bool)
    {r : Except Err PlanRunResult} {t : World}
    (hrun : (PlanRunner.run (.ofServices host decision execution verification) host task actingUser
      explicitUserAck).run w = (r, t)) :
    ¬ RunComesTo (.ofServices host decision execution verification) host actingUser explicitUserAck
      (fun _ progress step _ => StartsEarly (.ofServices host decision execution verification) host
        actingUser explicitUserAck progress step) task w ∧
    (stateIn t task.id = some .completed → stateIn w task.id ≠ some .completed →
      ∃ plan, PlanRepository.ofTables t.committed task.id = some plan ∧ SameButMarks plan₀ plan ∧
        AllDone plan ∧ Certified plan t.committed) := by
  obtain ⟨hresting, hnumbered⟩ := numbered_of_storeCalls hstart
  have hcertified : Certified plan₀ w₀.committed :=
    ⟨[], List.nil_sublist _, List.nil_sublist _, fun step hstep htool hdone =>
      absurd hdone (hfresh step hstep htool)⟩
  obtain ⟨plan, hstanding, hsame⟩ :=
    standing_of_planCalls ⟨hresting, hnumbered, hplan, hcertified, hdistinct⟩ hresumed
  have htask' : plan.taskId = task.id := hsame.taskId.trans htask.symm
  have hrunner := taskCalls_ofServices host decision execution verification
  have hrecords := recordCalls_ofServices host decision execution verification
  refine ⟨run_inOrder hrunner hrecords hstanding htask', fun hdone hnot => ?_⟩
  obtain ⟨last, hlast, hmarks, hcompleted⟩ := run_end hrunner hrecords hstanding htask' hrun
  refine ⟨last, ?_, hsame.trans hmarks, (hcompleted hdone).resolve_left hnot, hlast.certified⟩
  rw [← htask', ← hmarks.taskId]
  exact hlast.stored

end Histories

/-- The state in which a note is planned, and the task. -/
def plannedToAnswer : World := plannedNote (.plain [] []) answering

def taskToAnswer : Task := firstTask plannedToAnswer

/-- The run of the plan. -/
def runToAnswer : Except Err PlanRunResult × World :=
  (run (notesRunner {}) (.plain [] []) taskToAnswer).run plannedToAnswer

/-- INTERNAL: the plan is stored, and the run completes its task. -/
theorem plannedToAnswer_plan :
    (PlanRepository.ofTables plannedToAnswer.committed taskToAnswer.id).any (fun plan =>
      plan.taskId = taskToAnswer.id ∧ (plan.steps.map PlanStep.id).Nodup ∧
      ∀ step ∈ plan.steps, step.state ≠ "COMPLETED") = true := by
  decide +kernel

/-- The planned question runs to its answer. -/
theorem runToAnswer_completed :
    stateIn runToAnswer.2 taskToAnswer.id = some .completed ∧
    stateIn plannedToAnswer taskToAnswer.id ≠ some .completed := by
  decide +kernel

/-- The run of a plan for one note: its step is COMPLETED and certified. -/
theorem note_run_in_order_and_completed :
    ∃ plan₀ plan, Stored plan₀ plannedToAnswer.committed ∧ SameButMarks plan₀ plan ∧
      PlanRepository.ofTables runToAnswer.2.committed taskToAnswer.id = some plan ∧
      AllDone plan ∧ Certified plan runToAnswer.2.committed := by
  have hstart : History (unkilled (StoreCall (.plain [] []))) {} plannedToAnswer :=
    History.start.returned_void (.operation (.createAndPlan (notesPlanning answering)
      { sessionId := "session", requestText := "note" }))
  obtain ⟨plan₀, hplan, hgood⟩ := (Option.any_eq_true _ _).mp plannedToAnswer_plan
  obtain ⟨htask, hdistinct, hfresh⟩ := of_decide_eq_true hgood
  have hstored : Stored plan₀ plannedToAnswer.committed := by
    unfold Stored
    rw [htask]
    exact hplan
  have hrun : (PlanRunner.run (.ofServices (.plain [] []) {} { notesExecution answering with
      security := {} } {}) (.plain [] []) taskToAnswer "user" true).run plannedToAnswer =
      (runToAnswer.1, runToAnswer.2) := by
    unfold runToAnswer notesRunner
    exact Prod.mk.eta.symm
  obtain ⟨-, hcompleted⟩ := plan_run_in_order_and_completed hstart hstored hdistinct
    (fun step hstep _ => hfresh step hstep) .start {} { notesExecution answering with security := {} }
    {} htask.symm "user" true hrun
  obtain ⟨plan, hlast, hsame, hdone, hcertified⟩ :=
    hcompleted runToAnswer_completed.1 runToAnswer_completed.2
  exact ⟨plan₀, plan, hstored, hsame, hlast, hdone, hcertified⟩

end Shea.Analysis
