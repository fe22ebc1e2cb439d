import Shea.Analysis.PlanHistories

/-!
# The order of a run

Planning numbers the steps of a plan in the order of their blueprints, draws an id for each, and lets
none depend on another (`FreshPlan`). The graph then has a single round, and the runner takes the
steps up in the order of their ids. It keeps to the numbers exactly when the ids happen to increase with
them.
-/

set_option autoImplicit false

namespace Shea.Analysis

open Shea.Computation Shea.Model
open Shea.Model.PlanRunner

/-! ## Plans and rounds -/

/-- What planning and the repository make sure of. -/
structure FreshPlan (tools : ToolRegistry) (plan : Plan) : Prop where
  order : plan.steps.map PlanStep.order = List.range plan.steps.length
  planId : ∀ step ∈ plan.steps, step.planId = plan.id
  pending : ∀ step ∈ plan.steps, step.state = "PENDING"
  independent : ∀ step ∈ plan.steps, step.dependsOn = []
  known : ∀ step ∈ plan.steps, step.tool ≠ "" ∧ (tools.find step.tool).isSome
  json : ∀ step ∈ plan.steps, (Value.dict step.arguments).serializable = true
  plain : PlainSteps plan
  distinct : (plan.steps.map PlanStep.id).Nodup

section Planning

variable {host : Host} {service : PlanningService} {task : Task} {intent : Intent} {w t : World}

/-- INTERNAL: the steps of the blueprints. -/
theorem newSteps_yields (planId : String) (index : ℕ) (blueprints : List StepBlueprint) :
    (PlanningService.newSteps host planId index blueprints).Yields fun steps =>
      steps.map PlanStep.order = List.range' index steps.length ∧
      ∀ step ∈ steps, step.planId = planId ∧ step.state = "PENDING" ∧ step.dependsOn = [] := by
  induction blueprints generalizing index with
  | nil => exact ⟨rfl, by simp⟩
  | cons blueprint rest ih =>
    unfold PlanningService.newSteps
    refine Program.yields_bind fun stepId => (ih (index + 1)).bind fun others hothers => ?_
    obtain ⟨horder, hsteps⟩ := hothers
    refine ⟨?_, ?_⟩
    · simp [horder, List.range'_succ]
    · rintro step (_ | ⟨_, hstep⟩)
      · exact ⟨rfl, rfl, rfl⟩
      · exact hsteps step hstep

/-- INTERNAL: every step of a valid plan names a tool. -/
theorem validateSteps_known {py : Stdlib} {tools : ToolRegistry} {planId : String}
    {steps : List PlanStep} (h : validateSteps py tools planId steps = .ok ()) :
    ∀ step ∈ steps, step.tool ≠ "" ∧ (tools.find step.tool).isSome := by
  induction steps with
  | nil => simp
  | cons first rest ih =>
    unfold validateSteps at h
    split at h
    · cases h
    next htool =>
    split at h
    · cases h
    next hknown =>
    rintro step (_ | ⟨_, hstep⟩)
    · exact ⟨htool, Option.isSome_iff_ne_none.mpr (by simpa using hknown)⟩
    · exact ih h step hstep

/-- INTERNAL: the plan of the blueprints.
SOURCE: planning/service.py:414-436 -/
theorem assemble_returned {blueprints : List StepBlueprint} {plan : Plan}
    (h : (service.assemble host task intent blueprints).run w = (.ok plan, t)) :
    plan.steps.map PlanStep.order = List.range plan.steps.length ∧
      (∀ step ∈ plan.steps, step.planId = plan.id ∧ step.state = "PENDING" ∧ step.dependsOn = []) ∧
      ∀ step ∈ plan.steps, step.tool ≠ "" ∧ (service.tools.find step.tool).isSome := by
  obtain ⟨planId, w₁, -, h⟩ := Program.run_bind_ok h
  obtain ⟨steps, w₂, hsteps, h⟩ := Program.run_bind_ok h
  obtain ⟨horder, hshape⟩ := (newSteps_yields planId 0 blueprints).of_run (congrArg Prod.fst hsteps)
  obtain ⟨valid, w₃, hvalid, h⟩ := Program.run_bind_ok h
  obtain ⟨hplan, -⟩ := Prod.mk.inj h
  obtain rfl := Except.ok.inj hplan
  refine ⟨horder.trans List.range_eq_range'.symm, hshape, ?_⟩
  have hvalid' : validatePlan host.py service.tools _ = .ok valid :=
    congrArg Prod.fst ((Program.run_ofExcept _ _).symm.trans hvalid)
  unfold validatePlan at hvalid'
  split at hvalid'
  · cases hvalid'
  · exact validateSteps_known hvalid'

/-- INTERNAL: a plan that was saved has JSON arguments and distinct ids.
SOURCE: persistence/sqlite/plan_repository.py -/
theorem savePlan_returned {plan : Plan} (h : (PlanRepository.save plan).run w = (.ok (), t)) :
    (∀ step ∈ plan.steps, (Value.dict step.arguments).serializable = true) ∧
      (plan.steps.map PlanStep.id).Nodup := by
  rw [PlanRepository.save, run_withUow, run_planBody] at h
  split at h
  · next heq =>
    split at heq
    · rcases run_insertSteps plan plan.steps (writing w.enter (clearedPlan plan w.enter.working)) with
        ⟨hok, -⟩ | ⟨-, e, t', hrun⟩
      · exact ⟨hok.json, hok.distinct⟩
      · rw [hrun] at heq
        cases heq
    · cases heq
  · cases h

/-- INTERNAL: what is caught while the plan is built is raised again. -/
theorem buildAndValidatePlan_returned {draft : IntentDraft} {plan : Plan}
    (h : (service.buildAndValidatePlan host task intent draft).run w = (.ok plan, t)) :
    ∃ blueprints u, (service.assemble host task intent blueprints).run u = (.ok plan, t) := by
  obtain ⟨template, w₁, -, h⟩ := Program.run_bind_ok h
  have habandon : ∀ e, (PlanningService.abandonPlan host task e).Yields fun _ => False := fun e =>
    Program.yields_bind fun _ => Program.yields_bind fun _ => trivial
  have hyields : ∀ e, (PlanningService.handleInvalid host task e).Yields fun _ => False := by
    intro e
    unfold PlanningService.handleInvalid
    split
    · exact habandon _
    · exact habandon _
    · trivial
  rcases Program.run_tryCatch_ok h with h | ⟨e, u, -, h⟩
  · obtain ⟨blueprints, u, -, h⟩ := Program.run_bind_ok h
    exact ⟨blueprints, u, h⟩
  · exact ((hyields e).of_run (congrArg Prod.fst h)).elim

/-- A plan that was made and stored is fresh when it is read.
SOURCE: planning/service.py:262-359, 414-436 -/
theorem createAndPlan_returned {given : PlanningRequest} {outcome : PlanningOutcome}
    (h : (service.createAndPlan host given).run w = (.ok outcome, t)) :
    FreshPlan service.tools (PlanRepository.asRead outcome.plan) := by
  obtain ⟨request, w₁, -, h⟩ := Program.run_bind_ok h
  obtain ⟨snapshot, w₂, -, h⟩ := Program.run_bind_ok h
  obtain ⟨created, w₃, -, h⟩ := Program.run_bind_ok h
  obtain ⟨task, w₄, -, h⟩ := Program.run_bind_ok h
  obtain ⟨⟨understanding, already⟩, w₅, -, h⟩ := Program.run_bind_ok h
  obtain ⟨plan, w₆, hplan, h⟩ := Program.run_bind_ok h
  obtain ⟨ready, w₇, hready, h⟩ := Program.run_bind_ok h
  obtain ⟨houtcome, -⟩ := Prod.mk.inj h
  obtain rfl := Except.ok.inj houtcome
  obtain ⟨blueprints, u, hassembled⟩ := buildAndValidatePlan_returned hplan
  obtain ⟨horder, hshape, hknown⟩ := assemble_returned hassembled
  have hsaved : ∃ u v, (PlanRepository.save plan).run u = (.ok (), v) := by
    rw [run_withUow] at hready
    split at hready
    · next hbody =>
      obtain ⟨_, v₁, -, hbody⟩ := Program.run_bind_ok hbody
      obtain ⟨_, v₂, hsave, -⟩ := Program.run_bind_ok hbody
      exact ⟨v₁, v₂, hsave⟩
    · cases hready
  obtain ⟨u, v, hsave⟩ := hsaved
  obtain ⟨hjson, hdistinct⟩ := savePlan_returned hsave
  have hread : ∀ {P : PlanStep → Prop}, (∀ (step : PlanStep) (arguments : Dict), P step →
      P { step with arguments := arguments }) → (∀ step ∈ plan.steps, P step) →
      ∀ step ∈ (PlanRepository.asRead plan).steps, P step := by
    rintro P hP h step hstep
    obtain ⟨old, hold, rfl⟩ := mem_asRead.mp hstep
    exact hP old _ (h old hold)
  refine ⟨?_, hread (fun _ _ h => h) fun step hstep => (hshape step hstep).1,
    hread (fun _ _ h => h) fun step hstep => (hshape step hstep).2.1,
    hread (fun _ _ h => h) fun step hstep => (hshape step hstep).2.2,
    hread (fun _ _ h => h) hknown, ?_, plainSteps_asRead plan, ?_⟩
  · rw [map_asRead PlanStep.order fun _ _ => rfl, horder]
    exact congrArg List.range (List.length_map _).symm
  · intro step hstep
    obtain ⟨old, hold, rfl⟩ := mem_asRead.mp hstep
    exact (Dict.serializable_reloaded old.arguments).trans (hjson old hold)
  · rwa [map_asRead PlanStep.id fun _ _ => rfl]

end Planning

section Round

variable {py : Stdlib} {plan plan' : Plan} {nodes ordered : List OperationNode}

/-- INTERNAL: a graph without dependencies has a single round.
SOURCE: execution/operation_graph.py:65-79 -/
theorem rounds_independent (n : ℕ) (ids : List String) (hn : ids.length ≤ n) :
    OperationGraph.rounds n (ids.map fun id => (id, [])) = .ok (sortedTexts ids) := by
  cases ids with
  | nil => cases n <;> rfl
  | cons id ids =>
    obtain ⟨m, rfl⟩ : ∃ m, n = m + 1 := ⟨n - 1, by simp at hn; omega⟩
    have hready : ∀ ids : List String, OperationGraph.ready (ids.map fun id => (id, [])) = ids := by
      intro ids
      unfold OperationGraph.ready
      simp [List.filter_map, Function.comp_def]
    have hreleased : OperationGraph.release (id :: ids) ((id :: ids).map fun id => (id, [])) = [] := by
      unfold OperationGraph.release
      rw [List.map_eq_nil_iff]
      refine List.filter_eq_nil_iff.mpr fun entry hentry => ?_
      obtain ⟨other, hother, rfl⟩ := List.mem_map.mp hentry
      simp [List.mem_cons.mp hother]
    have hnone : ∀ m, OperationGraph.rounds m [] = .ok [] := fun m => by cases m <;> rfl
    have hround : OperationGraph.rounds (m + 1) ((id :: ids).map fun id => (id, [])) =
        if (OperationGraph.ready ((id :: ids).map fun id => (id, []))).isEmpty then
          .error (.valueError "OperationGraph contains a cycle")
        else (OperationGraph.rounds m (OperationGraph.release
          (OperationGraph.ready ((id :: ids).map fun id => (id, [])))
          ((id :: ids).map fun id => (id, [])))).map
            (sortedTexts (OperationGraph.ready ((id :: ids).map fun id => (id, []))) ++ ·) := rfl
    rw [hround, hready, hreleased, hnone]
    simp [Except.map]

/-- INTERNAL: with distinct ids, the steps stand in the order of their ids. -/
theorem stepsInOrder_sorted (hdistinct : (plan.steps.map PlanStep.id).Nodup)
    (hindependent : ∀ step ∈ plan.steps, step.dependsOn = [])
    (hnodes : OperationGraph.fromPlan py plan = .ok nodes)
    (hordered : OperationGraph.topologicalOrder nodes = .ok ordered) :
    (stepsInOrder plan ordered).Pairwise fun a b => a.id < b.id := by
  obtain ⟨hperm, hrounds⟩ := stepsInOrder_ids hdistinct hnodes hordered
  have hpairs : (plan.steps.map fun step => (step.id, step.dependsOn)) =
      (plan.steps.map PlanStep.id).map fun id => (id, []) := by
    rw [List.map_map]
    refine List.map_congr_left fun step hstep => ?_
    rw [Function.comp_apply, hindependent step hstep]
  rw [hpairs, rounds_independent _ _ (by simp)] at hrounds
  have hids := Except.ok.inj hrounds
  have hsorted : ((stepsInOrder plan ordered).map PlanStep.id).Pairwise (· ≤ ·) := by
    rw [← hids]
    exact List.pairwise_insertionSort _ _
  have hdistinct' : ((stepsInOrder plan ordered).map PlanStep.id).Pairwise (· ≠ ·) :=
    hperm.nodup_iff.mpr hdistinct
  refine (List.pairwise_map.mp (hsorted.and hdistinct')).imp fun hab => ?_
  by_contra hnot
  exact hab.2 (String.le_antisymm hab.1 (String.not_lt.mp hnot))

/-- INTERNAL: the graph does not look at the marks.
SOURCE: execution/operation_graph.py:29-54 -/
theorem fromPlan_marks (h : SameButMarks plan plan') :
    OperationGraph.fromPlan py plan' = OperationGraph.fromPlan py plan := by
  have hnodes : ∀ steps, OperationGraph.nodesOf py (steps.map unmarked) =
      OperationGraph.nodesOf py steps := by
    intro steps
    induction steps with
    | nil => rfl
    | cons step rest ih =>
      rw [List.map_cons]
      unfold OperationGraph.nodesOf
      rw [ih]
      rfl
  unfold OperationGraph.fromPlan
  rw [← hnodes plan'.steps, ← hnodes plan.steps, h.steps]

end Round

/-! ## What the runner has in its hands -/

section Hands

variable {runner : PlanRunner} {host : Host} {actingUser : String} {explicitUserAck : Bool}
  {progress after : Progress} {step : PlanStep} {moreSteps : Bool} {w t : World}

/-- INTERNAL: a mark gives the marked plan. -/
theorem setStepState_yields (plan : Plan) (stepId state : String) :
    (setStepState plan stepId state).Yields fun marked => marked = markStep plan stepId state :=
  Program.yields_bind fun _ => rfl

/-- INTERNAL: a failed step stops the walk. -/
theorem failStep_stops (h : (failStep progress step).run w = (.ok after, t)) :
    after.stopped = true := by
  obtain ⟨plan, w₁, -, h⟩ := Program.run_bind_ok h
  obtain ⟨hafter, -⟩ := Prod.mk.inj h
  obtain rfl := Except.ok.inj hafter
  rfl

/-- INTERNAL: so does a step that is stopped at. -/
theorem stopAt_stops (h : (stopAt progress step).run w = (.ok after, t)) : after.stopped = true := by
  rcases guarded_returned h with ⟨a, w₁, hfail, hnext⟩ | ⟨e, w₁, -, hnext⟩
  · obtain ⟨hafter, -⟩ := Prod.mk.inj hnext
    obtain rfl := Except.ok.inj hafter
    exact failStep_stops hfail
  · exact failStep_stops hnext

/-- INTERNAL: the step that does not stop the run is COMPLETED in the runner's plan. -/
theorem finishStep_marks (h : (finishStep progress step).run w = (.ok after, t))
    (hgoes : after.stopped = false) : after.plan = markStep progress.plan step.id "COMPLETED" := by
  rcases guarded_returned h with ⟨plan, w₁, hmark, hnext⟩ | ⟨e, w₁, -, hnext⟩
  · obtain rfl := (setStepState_yields _ _ _).of_run (congrArg Prod.fst hmark)
    obtain ⟨hafter, -⟩ := Prod.mk.inj hnext
    obtain rfl := Except.ok.inj hafter
    rfl
  · rw [failStep_stops hnext] at hgoes
    cases hgoes

/-- A verified step that goes on is marked completed. -/
theorem verifyStep_marks (h : (verifyStep runner progress step moreSteps).run w = (.ok after, t))
    (hgoes : after.stopped = false) : after.plan = markStep progress.plan step.id "COMPLETED" := by
  rcases guarded_returned h with ⟨result, w₁, -, hnext⟩ | ⟨e, w₁, -, hnext⟩
  · split at hnext
    · have hmarked := finishStep_marks hnext hgoes
      exact hmarked
    · rw [stopAt_stops hnext] at hgoes
      cases hgoes
  · rw [failStep_stops hnext] at hgoes
    cases hgoes

/-- INTERNAL: the same of the execution before it. -/
theorem executeStep_marks (h : (executeStep runner progress step moreSteps).run w = (.ok after, t))
    (hgoes : after.stopped = false) : after.plan = markStep progress.plan step.id "COMPLETED" := by
  have hstop : ∀ {given : Progress} {u}, (stopAt given step).run u = (.ok after, t) →
      after.plan = markStep progress.plan step.id "COMPLETED" := by
    intro given u hstopped
    rw [stopAt_stops hstopped] at hgoes
    cases hgoes
  rcases guarded_returned h with ⟨result, w₁, -, hnext⟩ | ⟨e, w₁, -, hnext⟩
  · dsimp only at hnext
    split at hnext
    · exact hstop hnext
    split at hnext
    · exact hstop hnext
    rcases guarded_returned hnext with ⟨scan, w₂, -, hlast⟩ | ⟨e, w₂, -, hlast⟩
    · split at hlast
      · exact hstop hlast
      · have hmarked := verifyStep_marks hlast hgoes
        exact hmarked
    · rw [failStep_stops hlast] at hgoes
      cases hgoes
  · rw [failStep_stops hnext] at hgoes
    cases hgoes

/-- After a step that does not stop the run, the runner has it COMPLETED.
SOURCE: execution/plan_runner.py:121-212 -/
theorem runStep_marks
    (h : (runStep runner host actingUser explicitUserAck progress step moreSteps).run w =
      (.ok after, t)) (hgoes : after.stopped = false) :
    after.plan = markStep progress.plan step.id "COMPLETED" := by
  rcases guarded_returned h with ⟨⟨plan, current⟩, w₁, hcall, hnext⟩ | ⟨e, w₁, -, hnext⟩
  · have hyields : (authorizeStep runner host progress step actingUser explicitUserAck).Yields
        fun authorized => authorized.1 = markStep progress.plan step.id "RUNNING" := by
      refine (setStepState_yields _ _ _).bind fun marked hmarked => ?_
      refine Program.yields_bind fun tool => Program.yields_bind fun profileId =>
        Program.yields_bind fun outcome => ?_
      exact hmarked
    obtain rfl : plan = _ := hyields.of_run (congrArg Prod.fst hcall)
    rw [executeStep_marks hnext hgoes]
    exact markStep_markStep ..
  · rw [failStep_stops hnext] at hgoes
    cases hgoes

end Hands

/-! ## Runs that keep to the numbers -/

/-- When the step is taken up, one with a smaller number is not COMPLETED. -/
def OutOfTurn (progress : Progress) (step : PlanStep) : Prop :=
  ∃ earlier ∈ progress.plan.steps, earlier.tool ≠ "" ∧ earlier.order < step.order ∧
    earlier.state ≠ "COMPLETED"

/-- No run of the plan takes a step up out of turn, whatever the services do and whatever earlier runs
have left of the marks. -/
def RunsInOrder (host : Host) (plan : Plan) : Prop :=
  ∀ marked, SameButMarks plan marked → ∀ (runner : PlanRunner) (actingUser : String)
    (explicitUserAck : Bool) (task : Task) (w : World),
    (PlanRepository.getByTask task.id).run w = (.ok (some marked), w) →
    ¬ RunComesTo runner host actingUser explicitUserAck
      (fun _ progress step _ _ => OutOfTurn progress step) task w

section Order

variable {runner : PlanRunner} {host : Host} {actingUser : String} {explicitUserAck : Bool}
  {plan : Plan} {tools : ToolRegistry} {w : World}

/-- INTERNAL: the numbers of a step and of its copy in the plan are the same. -/
theorem order_eq {plan : Plan} {base : Plan} (h : SameButMarks base plan)
    (hdistinct : (base.steps.map PlanStep.id).Nodup) {a b : PlanStep} (ha : a ∈ base.steps)
    (hb : b ∈ plan.steps) (hid : b.id = a.id) : b.order = a.order := by
  have hin : unmarked b ∈ base.steps.map unmarked := h.steps ▸ List.mem_map_of_mem hb
  obtain ⟨c, hc, hcb⟩ := List.mem_map.mp hin
  have hcid : (unmarked c).id = (unmarked b).id := congrArg PlanStep.id hcb
  have horder : (unmarked c).order = (unmarked b).order := congrArg PlanStep.order hcb
  obtain rfl := List.inj_on_of_nodup_map hdistinct hc ha (hcid.trans hid)
  exact horder.symm

/-- INTERNAL: the loop keeps to the numbers when the pending steps stand in their order. -/
theorem comesTo_inOrder {progress : Progress} {steps : List PlanStep}
    (hdistinct : (plan.steps.map PlanStep.id).Nodup) (hsame : SameButMarks plan progress.plan)
    (hsteps : ∀ step ∈ steps, ∃ base ∈ plan.steps, base.id = step.id ∧ base.order = step.order)
    (hsorted : steps.Pairwise fun a b => ¬ b.order < a.order) (hdone : DoneBut progress.plan steps) :
    ¬ ComesTo runner host actingUser explicitUserAck (fun progress step _ _ => OutOfTurn progress step)
      progress steps w := by
  induction steps generalizing progress w with
  | nil => exact id
  | cons step rest ih =>
    obtain ⟨hfirst, hrest⟩ := List.pairwise_cons.mp hsorted
    rintro (⟨earlier, hin, htool, hless, hstate⟩ | ⟨after, t, hstep, hgoes, hcomes⟩)
    · have hawaited := (hdone earlier hin htool).resolve_left hstate
      obtain ⟨awaited, hawaited, hid⟩ := List.mem_map.mp hawaited
      obtain ⟨base, hbase, hbaseId, hbaseOrder⟩ := hsteps awaited hawaited
      have horder := order_eq hsame hdistinct hbase hin (hid.symm.trans hbaseId.symm)
      rw [horder, hbaseOrder] at hless
      rcases List.mem_cons.mp hawaited with rfl | hlater
      · exact lt_irrefl _ hless
      · exact hfirst awaited hlater hless
    · have hplan := runStep_marks hstep hgoes
      have hsame' : SameButMarks plan after.plan := by
        rw [hplan]
        exact hsame.trans (Remarked.same (.inr ⟨_, rfl⟩))
      have hdone' : DoneBut after.plan rest := by
        rw [hplan]
        exact hdone.complete
      exact ih hsame' (fun s hs => hsteps s (List.mem_cons_of_mem _ hs)) hrest hdone' hcomes

/-- INTERNAL: the ids increase along the list exactly when they increase with the numbers. -/
theorem FreshPlan.increasing_iff (hplan : FreshPlan tools plan) :
    plan.steps.Pairwise (fun a b => a.id < b.id) ↔
      ∀ a ∈ plan.steps, ∀ b ∈ plan.steps, a.order < b.order → a.id < b.id := by
  have hnumbers : plan.steps.Pairwise fun a b => a.order < b.order := by
    rw [← List.pairwise_map (f := PlanStep.order), hplan.order]
    exact List.pairwise_lt_range
  constructor
  · intro hids a ha b hb
    refine List.Pairwise.forall_of_forall_of_flip (R := fun x y => x.order < y.order → x.id < y.id)
      (fun x _ hless => absurd hless (lt_irrefl _)) ?_ ?_ ha hb
    · refine hids.imp ?_
      intro x y hid _
      exact hid
    · refine hnumbers.imp ?_
      intro x y hless hback
      exact absurd hback (Nat.lt_asymm hless)
  · intro h
    exact hnumbers.imp_of_mem fun ha hb hless => h _ ha _ hb hless

/-- INTERNAL: a fresh plan whose ids increase is run in its order.
SOURCE: execution/plan_runner.py:80-212 -/
theorem runsInOrder_of_increasing (hplan : FreshPlan tools plan)
    (hincreasing : (OperationGraph.fromPlan host.py plan).isOk = true →
      plan.steps.Pairwise fun a b => a.id < b.id) : RunsInOrder host plan := by
  rintro marked hsame runner actingUser explicitUserAck task w hfound ⟨plan', nodes, ordered, hfound',
    hnodes, hordered, hcomes⟩
  obtain rfl := Option.some.inj (Except.ok.inj (congrArg Prod.fst (hfound.symm.trans hfound')))
  have hids : marked.steps.map PlanStep.id = plan.steps.map PlanStep.id := by
    have h := congrArg (List.map PlanStep.id) hsame.steps
    rwa [List.map_map, List.map_map] at h
  have hdistinct : (marked.steps.map PlanStep.id).Nodup := hids ▸ hplan.distinct
  have hbase : ∀ step ∈ marked.steps, ∃ base ∈ plan.steps, unmarked base = unmarked step := by
    intro step hstep
    have hin : unmarked step ∈ plan.steps.map unmarked := hsame.steps ▸ List.mem_map_of_mem hstep
    exact List.mem_map.mp hin
  have hindependent : ∀ step ∈ marked.steps, step.dependsOn = [] := by
    intro step hstep
    obtain ⟨base, hin, heq⟩ := hbase step hstep
    have hdepends : (unmarked base).dependsOn = (unmarked step).dependsOn :=
      congrArg PlanStep.dependsOn heq
    exact hdepends.symm.trans (hplan.independent base hin)
  have hincreases := hincreasing (by rw [← fromPlan_marks hsame, hnodes]; rfl)
  have hperm := stepsInOrder_perm hdistinct hnodes hordered
  have hsub : ((executableSteps marked ordered).filter (·.state ≠ "COMPLETED")).Sublist
      (stepsInOrder marked ordered) :=
    List.filter_sublist.trans List.filter_sublist
  refine comesTo_inOrder hplan.distinct hsame (fun step hstep => ?_) ?_ ?_ hcomes
  · obtain ⟨base, hin, heq⟩ := hbase step (hperm.subset (hsub.subset hstep))
    have hid : (unmarked base).id = (unmarked step).id := congrArg PlanStep.id heq
    have horder : (unmarked base).order = (unmarked step).order := congrArg PlanStep.order heq
    exact ⟨base, hin, hid, horder⟩
  · -- of two steps the one with the smaller id has the smaller number
    have hsorted := (stepsInOrder_sorted hdistinct hindependent hnodes hordered).sublist hsub
    refine hsorted.imp_of_mem fun {a b} ha hb hless hback => ?_
    obtain ⟨x, hx, hxa⟩ := hbase a (hperm.subset (hsub.subset ha))
    obtain ⟨y, hy, hyb⟩ := hbase b (hperm.subset (hsub.subset hb))
    have hxid : (unmarked x).id = (unmarked a).id := congrArg PlanStep.id hxa
    have hyid : (unmarked y).id = (unmarked b).id := congrArg PlanStep.id hyb
    have hxorder : (unmarked x).order = (unmarked a).order := congrArg PlanStep.order hxa
    have hyorder : (unmarked y).order = (unmarked b).order := congrArg PlanStep.order hyb
    have hid : (unmarked y).id < (unmarked x).id :=
      hplan.increasing_iff.mp hincreases y hy x hx (by
        show (unmarked y).order < (unmarked x).order
        rwa [hxorder, hyorder])
    rw [hxid, hyid] at hid
    exact String.lt_asymm hless hid
  · intro step hstep htool
    by_cases hdone : step.state = "COMPLETED"
    · exact .inl hdone
    · have hin : step ∈ executableSteps marked ordered :=
        List.mem_filter.mpr ⟨hperm.symm.subset hstep, by simpa using htool⟩
      exact .inr (List.mem_map_of_mem (List.mem_filter.mpr ⟨hin, by simpa using hdone⟩))

end Order

/-! ## Runs that do not, and the plans that are made -/

/-- Services that always succeed. -/
def obliging (tools : ToolRegistry) : PlanRunner :=
  { tools := tools
    evaluateAndAuthorize := fun task _ => pure
      { decision := { id := "decision", taskId := task.id, recommendation := "proceed_automatically",
                      risk := .safe, requiresAuthorization := false }
        riskAssessment := { id := "assessment", taskId := task.id, level := .safe }
        authorization := { id := "authorization", taskId := task.id, granted := true,
                           grantedBy := "system" }
        task := { task with state := .running } }
    execute := fun task _ => pure
      { response := { success := true }, outcome := .success, task := { task with state := .verifying } }
    scanOutput := fun _ _ _ => pure { reason := "", flagged := false }
    verify := fun task moreSteps => pure
      { verification := { id := "verification", taskId := task.id, verified := true, method := "none" }
        task := { task with state := if moreSteps then .ready else .completed } } }

section Obliging

variable {tools : ToolRegistry} {host : Host} {actingUser : String} {explicitUserAck : Bool}
  {plan : Plan} {progress : Progress} {step : PlanStep} {w : World}

/-- INTERNAL: a mark that can be written. -/
theorem run_setStepState (state : String) (hw : w.Idle) (hsavable : Savable plan w.committed)
    (stepId : String) : ∃ t, (setStepState plan stepId state).run w =
      (.ok (markStep plan stepId state), t) ∧ t.Idle ∧ Savable plan t.committed := by
  unfold setStepState
  rw [Program.run_bind]
  rcases run_savePlan (markStep plan stepId state) hw with ⟨-, hrun⟩ | ⟨hno, -⟩
  · rw [hrun]
    refine ⟨_, rfl, ⟨hw.depth, rfl⟩, hsavable.transfer (placed_savedPlan (markStep plan stepId state) _)
      fun row hrow hother => ?_⟩
    exact mem_savedPlan_other hrow hother
  · exact absurd ((savable_markStep _ _).mpr hsavable) hno

/-- INTERNAL: with such services a step is done. -/
theorem runStep_obliging (moreSteps : Bool) (hw : w.Idle) (hsavable : Savable progress.plan w.committed)
    (hprofile : progress.current.profileSnapshot = none) (htool : (tools.find step.tool).isSome) :
    ∃ after t, (runStep (obliging tools) host actingUser explicitUserAck progress step moreSteps).run w =
        (.ok after, t) ∧ after.stopped = progress.stopped ∧ t.Idle ∧ Savable after.plan t.committed ∧
      after.current.profileSnapshot = none ∧
      after.current.state = if moreSteps then .ready else .completed := by
  obtain ⟨entry, hentry⟩ := Option.isSome_iff_exists.mp htool
  have hget : tools.get step.tool = .ok entry := by
    unfold ToolRegistry.get
    rw [hentry]
  have hid : snapshotProfileId host.py progress.current = .ok "system" := by
    unfold snapshotProfileId
    rw [hprofile]
    rfl
  obtain ⟨w₁, hrunning, hidle₁, hsavable₁⟩ := run_setStepState "RUNNING" hw hsavable step.id
  obtain ⟨w₂, hcompleted, hidle₂, hsavable₂⟩ := run_setStepState "COMPLETED" hidle₁
    ((savable_markStep step.id "RUNNING").mpr hsavable₁) step.id
  have hrun : ∃ after, (runStep (obliging tools) host actingUser explicitUserAck progress step
      moreSteps).run w = (.ok after, w₂) ∧ after.stopped = progress.stopped ∧
      after.plan = markStep (markStep progress.plan step.id "RUNNING") step.id "COMPLETED" ∧
      after.current = { progress.current with
        state := if moreSteps then .ready else .completed } := by
    have htry : ∀ (outcome : DecisionOutcome) (handler : Err → Proc DecisionOutcome),
        (tryCatch (pure outcome) handler : Proc DecisionOutcome) = pure outcome := fun _ _ => rfl
    simp [-bind_pure_comp, runStep, guarded, authorizeStep, executeStep, scanStep, verifyStep,
      finishStep, obliging, hrunning, hget, hid, hcompleted, Program.run_ofExcept, htry]
  obtain ⟨after, hrun, hstopped, hplan, hcurrent⟩ := hrun
  refine ⟨after, w₂, hrun, hstopped, hidle₂, ?_, ?_, ?_⟩
  · rw [hplan]
    exact (savable_markStep _ _).mpr hsavable₂
  · rw [hcurrent]
    exact hprofile
  · rw [hcurrent]

/-- INTERNAL: what the loop finds when nothing has gone wrong and the steps are all to be done. -/
structure Untouched (tools : ToolRegistry) (progress : Progress) (steps : List PlanStep) (w : World) :
    Prop where
  idle : w.Idle
  savable : Savable progress.plan w.committed
  profile : progress.current.profileSnapshot = none
  goes : progress.stopped = false
  distinct : (steps.map PlanStep.id).Nodup
  awaited : ∀ step ∈ steps, ∃ old ∈ progress.plan.steps, old.id = step.id ∧ old.order = step.order ∧
    old.tool ≠ "" ∧ old.state ≠ "COMPLETED"
  known : ∀ step ∈ steps, (tools.find step.tool).isSome

/-- INTERNAL: a step is taken up out of turn when the steps do not stand in the order of their
numbers. -/
theorem comesTo_outOfTurn {steps : List PlanStep} (h : Untouched tools progress steps w)
    (hbad : ¬ steps.Pairwise fun a b => ¬ b.order < a.order) :
    ComesTo (obliging tools) host actingUser explicitUserAck
      (fun progress step _ _ => OutOfTurn progress step) progress steps w := by
  induction steps generalizing progress w with
  | nil => exact absurd .nil hbad
  | cons step rest ih =>
    by_cases hfirst : ∀ b ∈ rest, ¬ b.order < step.order
    · have hrest : ¬ rest.Pairwise fun a b => ¬ b.order < a.order :=
        fun hrest => hbad (List.pairwise_cons.mpr ⟨hfirst, hrest⟩)
      obtain ⟨hnew, hdistinct⟩ := List.nodup_cons.mp h.distinct
      have hstep : ∃ after t, (runStep (obliging tools) host actingUser explicitUserAck progress step
          (!rest.isEmpty)).run ((note (.stepStarted progress.plan.taskId step.id)).run w).2 =
            (.ok after, t) ∧ after.stopped = progress.stopped ∧ t.Idle ∧ Savable after.plan t.committed ∧
          after.current.profileSnapshot = none ∧
          after.current.state = if !rest.isEmpty then .ready else .completed :=
        runStep_obliging _ (Closes.note _ w h.idle) h.savable h.profile
          (h.known step (List.mem_cons_self ..))
      obtain ⟨after, t, hrun, hstopped, hidle, hsavable, hprofile, -⟩ := hstep
      have hgoes : after.stopped = false := hstopped.trans h.goes
      refine .inr ⟨after, t, hrun, hgoes, ih ⟨hidle, hsavable, hprofile, hgoes, hdistinct, ?_,
        fun s hs => h.known s (List.mem_cons_of_mem _ hs)⟩ hrest⟩
      intro s hs
      obtain ⟨old, hold, hid, hrest⟩ := h.awaited s (List.mem_cons_of_mem _ hs)
      rw [runStep_marks hrun hgoes]
      refine ⟨old, mem_markStep.mpr (.inl ⟨hold, fun hsame => hnew ?_⟩), hid, hrest⟩
      rw [← hsame, hid]
      exact List.mem_map_of_mem hs
    · push Not at hfirst
      obtain ⟨earlier, hin, hless⟩ := hfirst
      obtain ⟨old, hold, -, horder, htool, hstate⟩ := h.awaited earlier (List.mem_cons_of_mem _ hin)
      exact .inl ⟨old, hold, htool, horder ▸ hless, hstate⟩

/-- What a plan is like that the repository takes in. -/
structure Storable (plan : Plan) : Prop where
  planId : ∀ step ∈ plan.steps, step.planId = plan.id
  sorted : plan.steps.Pairwise fun a b => a.order ≤ b.order
  json : ∀ step ∈ plan.steps, (Value.dict step.arguments).serializable = true
  distinct : (plan.steps.map PlanStep.id).Nodup

/-- What a plan is like that comes out of the repository. -/
structure Restorable (plan : Plan) : Prop extends Storable plan where
  plain : PlainSteps plan

/-- A fresh plan comes out as it went in. -/
theorem FreshPlan.restorable (hplan : FreshPlan tools plan) : Restorable plan := by
  refine ⟨⟨hplan.planId, ?_, hplan.json, hplan.distinct⟩, hplan.plain⟩
  rw [← List.pairwise_map (f := PlanStep.order), hplan.order]
  exact List.pairwise_le_range

/-- INTERNAL: a database with nothing but the plan and its task. -/
def tablesWith (plan : Plan) (task : Task) : Tables := savedPlan plan { tasks := [task] }

/-- INTERNAL: the rows of the steps of a stored plan. -/
theorem storedSteps_eq (hplan : Storable plan) (others : List PlanStep)
    (hothers : ∀ step ∈ others, step.planId ≠ plan.id) :
    ((others ++ plan.steps.map (PlanRepository.stepRow plan)).filter
      (·.planId = plan.id)).insertionSort (fun a b => a.order ≤ b.order) = plan.steps := by
  have hrows : plan.steps.map (PlanRepository.stepRow plan) = plan.steps := by
    refine (List.map_congr_left fun step hstep => ?_).trans (List.map_id _)
    unfold PlanRepository.stepRow
    rw [← hplan.planId step hstep]
    rfl
  have hnone : others.filter (·.planId = plan.id) = [] :=
    List.filter_eq_nil_iff.mpr fun step hstep => by simpa using hothers step hstep
  have hown : plan.steps.filter (·.planId = plan.id) = plan.steps :=
    List.filter_eq_self.mpr fun step hstep => by simpa using hplan.planId step hstep
  rw [List.filter_append, hrows, hnone, List.nil_append, hown]
  exact hplan.sorted.insertionSort_eq

/-- INTERNAL: the tables made for a plan store it. -/
theorem stored_tablesWith (hplan : Restorable plan) (task : Task) :
    Stored plan (tablesWith plan task) := by
  refine stored_iff.mpr ⟨PlanRepository.row plan, ?_, ?_⟩
  · simp [tablesWith, savedPlan, Table.upsert, PlanRepository.row]
  · have hsteps : PlanRepository.stepRows (tablesWith plan task) (PlanRepository.row plan).id =
        plan.steps := storedSteps_eq hplan.toStorable [] (by simp)
    rw [hsteps]
    exact hplan.plain.asRead_eq.symm

/-- INTERNAL: and let it be saved again. -/
theorem savable_tablesWith (hplan : Storable plan) {task : Task} (htask : task.id = plan.taskId) :
    Savable plan (tablesWith plan task) := by
  refine ⟨placed_of_hasTask ?_, hplan.json, hplan.distinct, fun step _ row hrow hother => ?_⟩
  · simp [tablesWith, savedPlan, Tables.hasTask, htask]
  · obtain ⟨old, -, rfl⟩ : ∃ old ∈ plan.steps, PlanRepository.stepRow plan old = row := by
      simpa [tablesWith, savedPlan] using hrow
    exact absurd rfl hother

/-- INTERNAL: a fresh plan that is always run in its order has increasing ids. -/
theorem increasing_of_runsInOrder (hplan : FreshPlan tools plan) (h : RunsInOrder host plan)
    (hgraph : (OperationGraph.fromPlan host.py plan).isOk = true) :
    plan.steps.Pairwise fun a b => a.id < b.id := by
  obtain ⟨nodes, hnodes⟩ : ∃ nodes, OperationGraph.fromPlan host.py plan = .ok nodes := by
    cases hgraph' : OperationGraph.fromPlan host.py plan with
    | ok nodes => exact ⟨nodes, rfl⟩
    | error e =>
      rw [hgraph'] at hgraph
      cases hgraph
  obtain ⟨ordered, hordered⟩ := topologicalOrder_of_fromPlan hnodes
  have hsteps : (executableSteps plan ordered).filter (·.state ≠ "COMPLETED") =
      stepsInOrder plan ordered := by
    have hmem : ∀ step ∈ stepsInOrder plan ordered, step ∈ plan.steps :=
      fun step => mem_of_mem_stepsInOrder
    have hknown : executableSteps plan ordered = stepsInOrder plan ordered :=
      List.filter_eq_self.mpr fun step hstep => by simpa using (hplan.known step (hmem step hstep)).1
    rw [hknown]
    refine List.filter_eq_self.mpr fun step hstep => ?_
    simp [hplan.pending step (hmem step hstep)]
  have hperm := stepsInOrder_perm hplan.distinct hnodes hordered
  have hids := stepsInOrder_sorted hplan.distinct hplan.independent hnodes hordered
  by_contra hnot
  have hbad : ¬ (stepsInOrder plan ordered).Pairwise fun a b => ¬ b.order < a.order := by
    refine fun hnumbers => hnot (hplan.increasing_iff.mpr fun a ha b hb => ?_)
    refine List.Pairwise.forall_of_forall_of_flip (R := fun x y => x.order < y.order → x.id < y.id)
      (fun x _ hless => absurd hless (lt_irrefl _)) ?_ ?_ (hperm.mem_iff.mpr ha) (hperm.mem_iff.mpr hb)
    · refine hids.imp ?_
      intro x y hid _
      exact hid
    · refine hnumbers.imp ?_
      intro x y hless hback
      exact absurd hback hless
  let task : Task := { readyTask with id := plan.taskId }
  let w : World := { working := tablesWith plan task, committed := tablesWith plan task }
  have hstored : (PlanRepository.getByTask task.id).run w = (.ok (some plan), w) :=
    Prod.ext (congrArg Except.ok (stored_tablesWith hplan.restorable task)) rfl
  refine h plan (.refl _) (obliging tools) "user" true task w hstored
    ⟨plan, nodes, ordered, hstored, hnodes, hordered, ?_⟩
  rw [hsteps]
  have hsavable : Savable plan (tablesWith plan task) := savable_tablesWith hplan.restorable.toStorable rfl
  refine comesTo_outOfTurn ⟨⟨rfl, rfl⟩, hsavable, rfl, rfl, ?_, ?_, ?_⟩ hbad
  · exact (hperm.map PlanStep.id).nodup_iff.mpr hplan.distinct
  · intro step hstep
    have hin := hperm.mem_iff.mp hstep
    exact ⟨step, hin, rfl, rfl, (hplan.known step hin).1, by simp [hplan.pending step hin]⟩
  · exact fun step hstep => (hplan.known step (hperm.mem_iff.mp hstep)).2

end Obliging

/-- A plan made by the planning service, as it is read, is run in its order exactly when its ids increase
along its steps, or when it has no graph, so that no step is taken up at all.
SOURCE: execution/operation_graph.py:65-79, execution/plan_runner.py:80-212,
planning/service.py:414-436 -/
theorem run_in_order_iff_ids_increase {host : Host} {service : PlanningService}
    {given : PlanningRequest} {outcome : PlanningOutcome} {w t : World}
    (h : (service.createAndPlan host given).run w = (.ok outcome, t)) :
    RunsInOrder host (PlanRepository.asRead outcome.plan) ↔
      ((OperationGraph.fromPlan host.py (PlanRepository.asRead outcome.plan)).isOk = true →
        outcome.plan.steps.Pairwise fun a b => a.id < b.id) := by
  have hplan := createAndPlan_returned h
  have hids : (PlanRepository.asRead outcome.plan).steps.Pairwise (fun a b => a.id < b.id) ↔
      outcome.plan.steps.Pairwise fun a b => a.id < b.id := by
    rw [← List.pairwise_map (f := PlanStep.id), map_asRead PlanStep.id fun _ _ => rfl, List.pairwise_map]
  rw [← hids]
  constructor
  · intro hruns hgraph
    exact increasing_of_runsInOrder hplan hruns hgraph
  · intro hincreasing
    exact runsInOrder_of_increasing hplan hincreasing

/-- A service that plans three notes for a request. -/
def threeNotes : PlanningService :=
  { notesPlanning answering with
    templates :=
      { templates := [("note", fun _ => .ok (List.replicate 3 { tool := "notes", action := "add" }))] } }

/-- The request for them, and the answer on a host. -/
def threeNotesPlanned (host : Host) : Except Err PlanningOutcome × World :=
  (threeNotes.createAndPlan host { sessionId := "session", requestText := "note" }).run {}

def threeNotesPlan (host : Host) : Option Plan := (threeNotesPlanned host).1.toOption.map (·.plan)

/-- INTERNAL: the generator of the plain host counts upwards. -/
theorem threeNotes_increase : (threeNotesPlan (.plain [] [])).any (fun plan =>
    plan.steps.Pairwise fun a b => a.id < b.id) = true := by
  decide +kernel

/-- Three planned notes run in the order of the plan. -/
theorem three_notes_run_in_order :
    ∃ outcome t, threeNotesPlanned (.plain [] []) = (.ok outcome, t) ∧
      RunsInOrder (.plain [] []) (PlanRepository.asRead outcome.plan) := by
  obtain ⟨plan, hplan, hids⟩ := (Option.any_eq_true _ _).mp threeNotes_increase
  have hpair : threeNotesPlanned (.plain [] []) =
      ((threeNotesPlanned (.plain [] [])).1, (threeNotesPlanned (.plain [] [])).2) := Prod.mk.eta.symm
  unfold threeNotesPlan at hplan
  cases houtcome : (threeNotesPlanned (.plain [] [])).1 with
  | error e =>
    rw [houtcome] at hplan
    cases hplan
  | ok outcome =>
    rw [houtcome] at hplan hpair
    obtain rfl : outcome.plan = plan := Option.some.inj hplan
    exact ⟨outcome, _, hpair, (run_in_order_iff_ids_increase hpair).mpr fun _ => of_decide_eq_true hids⟩

/-- The plain host, with the ids of each even number and the next one swapped. -/
def swappedHost : Host :=
  { Host.plain [] [] with
    newId := fun n => plainId (if n % 2 = 0 then n + 1 else n - 1)
    newId_injective := by
      intro m n h
      have heq := plainId_injective h
      split at heq <;> split at heq <;> omega }

/-- INTERNAL: of three ids in a row, two are swapped. -/
theorem threeNotes_swapped : (threeNotesPlan swappedHost).any (fun plan =>
    (OperationGraph.fromPlan swappedHost.py (PlanRepository.asRead plan)).isOk = true ∧
      ¬ (PlanRepository.asRead plan).steps.Pairwise fun a b => a.id < b.id) = true := by
  decide +kernel

/-- Three notes whose ids do not increase: a run takes one up before an earlier one is COMPLETED. -/
theorem three_notes_out_of_order :
    ∃ outcome t, threeNotesPlanned swappedHost = (.ok outcome, t) ∧
      ¬ RunsInOrder swappedHost (PlanRepository.asRead outcome.plan) := by
  obtain ⟨plan, hplan, hids⟩ := (Option.any_eq_true _ _).mp threeNotes_swapped
  obtain ⟨hgraph, hnot⟩ := of_decide_eq_true hids
  have hpair : threeNotesPlanned swappedHost =
      ((threeNotesPlanned swappedHost).1, (threeNotesPlanned swappedHost).2) := Prod.mk.eta.symm
  unfold threeNotesPlan at hplan
  cases houtcome : (threeNotesPlanned swappedHost).1 with
  | error e =>
    rw [houtcome] at hplan
    cases hplan
  | ok outcome =>
    rw [houtcome] at hplan hpair
    obtain rfl : outcome.plan = plan := Option.some.inj hplan
    exact ⟨outcome, _, hpair, fun hruns =>
      hnot (increasing_of_runsInOrder (createAndPlan_returned hpair) hruns hgraph)⟩

end Shea.Analysis
