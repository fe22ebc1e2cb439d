import Shea.Analysis.RunOrder

/-!
# The requests of a plan's steps

A blueprint becomes a step, the step is stored and read back, and the runner makes a tool request of it.
The tool comes through all of it, and so do arguments that JSON gives back as they are. The action does
not: a step has no field for one, and the request takes the description of the step in its place, or the
tool's name. The arguments come through too well: the `_graph` entry, which the node of the step leaves
out, is still in the request.
-/

set_option autoImplicit false

namespace Shea.Analysis

open Shea.Computation Shea.Model
open Shea.Model.PlanRunner

/-! ## The requests of a run -/

section Requests

variable (runner : PlanRunner) (host : Host) (actingUser : String) (explicitUserAck : Bool)

/-- The step is authorized, and the runner goes on to execute the request. -/
def Submits (request : ToolRequest) (progress : Progress) (step : PlanStep) (w : World) : Prop :=
  ∃ plan current t, (authorizeStep runner host progress step actingUser explicitUserAck).run w =
    (.ok (plan, current), t) ∧ request = requestFor current step

end Requests

/-- Every request that a run of the plan submits for a step is such, whatever the services do and
whatever earlier runs have left of the marks. -/
def EveryRequest (host : Host) (plan : Plan) (such : String → ToolRequest → Prop) : Prop :=
  ∀ marked, SameButMarks plan marked → ∀ (runner : PlanRunner) (actingUser : String)
    (explicitUserAck : Bool) (task : Task) (w : World),
    (PlanRepository.getByTask task.id).run w = (.ok (some marked), w) →
    ¬ RunComesTo runner host actingUser explicitUserAck (fun _ progress step _ u =>
      ∃ request, Submits runner host actingUser explicitUserAck request progress step u ∧
        ¬ such step.id request) task w

section Runs

variable {host : Host} {plan : Plan} {such : String → ToolRequest → Prop}

/-- INTERNAL: a step the loop comes to is one of its list. -/
theorem comesTo_mem {runner : PlanRunner} {actingUser : String} {explicitUserAck : Bool}
    {at_ : Progress → PlanStep → Bool → World → Prop} {progress : Progress} {steps : List PlanStep}
    {w : World} (h : ComesTo runner host actingUser explicitUserAck at_ progress steps w) :
    ∃ step ∈ steps, ∃ progress moreSteps u, at_ progress step moreSteps u := by
  induction steps generalizing progress w with
  | nil => exact h.elim
  | cons step rest ih =>
    rcases h with h | ⟨after, t, -, -, h⟩
    · exact ⟨step, List.mem_cons_self .., _, _, _, h⟩
    · obtain ⟨other, hother, hat⟩ := ih h
      exact ⟨other, List.mem_cons_of_mem _ hother, hat⟩

/-- The plan when all but one of its steps are COMPLETED. -/
def onlyPending (plan : Plan) (stepId : String) : Plan :=
  { plan with steps := plan.steps.map fun step =>
      { step with state := if step.id = stepId then "PENDING" else "COMPLETED" } }

/-- INTERNAL: leaving one step pending changes marks alone. -/
theorem sameButMarks_onlyPending (plan : Plan) (stepId : String) :
    SameButMarks plan (onlyPending plan stepId) := by
  refine ⟨rfl, ?_⟩
  unfold onlyPending
  rw [List.map_map]
  rfl

/-- INTERNAL: the plan is stored and read all the same. -/
theorem Restorable.onlyPending (hplan : Restorable plan) (stepId : String) :
    Restorable (onlyPending plan stepId) := by
  have hmap : ∀ {β : Type} (f : PlanStep → β),
      (∀ (step : PlanStep) (state : String), f { step with state := state } = f step) →
      (Analysis.onlyPending plan stepId).steps.map f = plan.steps.map f := by
    intro β f hf
    unfold Analysis.onlyPending
    rw [List.map_map]
    exact List.map_congr_left fun step _ => hf step _
  refine ⟨⟨?_, ?_, ?_, ?_⟩, ?_⟩
  · intro step hstep
    obtain ⟨old, hold, rfl⟩ := List.mem_map.mp hstep
    exact hplan.planId old hold
  · have hsorted := hplan.sorted
    rw [← List.pairwise_map (f := PlanStep.order)] at hsorted ⊢
    rwa [hmap PlanStep.order fun _ _ => rfl]
  · intro step hstep
    obtain ⟨old, hold, rfl⟩ := List.mem_map.mp hstep
    exact hplan.json old hold
  · rw [hmap PlanStep.id fun _ _ => rfl]
    exact hplan.distinct
  · intro step hstep
    obtain ⟨old, hold, rfl⟩ := List.mem_map.mp hstep
    exact hplan.plain old hold

/-- A registry that knows one tool. -/
def soleTool (name : String) : ToolRegistry := { tools := [({ name := name, capabilities := [] }, answering)] }

/-- INTERNAL: with services that always succeed, the first step is authorized. -/
theorem submits_obliging {tools : ToolRegistry} {actingUser : String} {explicitUserAck : Bool}
    {progress : Progress} {step : PlanStep} {w : World} (hw : w.Idle)
    (hsavable : Savable progress.plan w.committed)
    (hprofile : progress.current.profileSnapshot = none) (htool : (tools.find step.tool).isSome) :
    Submits (obliging tools) host actingUser explicitUserAck (requestFor progress.current step) progress
      step w := by
  obtain ⟨entry, hentry⟩ := Option.isSome_iff_exists.mp htool
  have hget : tools.get step.tool = .ok entry := by
    unfold ToolRegistry.get
    rw [hentry]
  have hid : snapshotProfileId host.py progress.current = .ok "system" := by
    unfold snapshotProfileId
    rw [hprofile]
    rfl
  obtain ⟨t, hrunning, -⟩ := run_setStepState "RUNNING" hw hsavable step.id
  have htry : ∀ (outcome : DecisionOutcome) (handler : Err → Proc DecisionOutcome),
      (tryCatch (pure outcome) handler : Proc DecisionOutcome) = pure outcome := fun _ _ => rfl
  refine ⟨markStep progress.plan step.id "RUNNING", { progress.current with state := .running }, t,
    ?_, rfl⟩
  simp [-bind_pure_comp, authorizeStep, obliging, hrunning, hget, hid, Program.run_ofExcept, htry]

/-- INTERNAL: there is a run that submits the request of a given step. -/
theorem runComesTo_submits (hplan : Restorable plan) {nodes : List OperationNode}
    (hnodes : OperationGraph.fromPlan host.py plan = .ok nodes) {step : PlanStep}
    (hstep : step ∈ plan.steps) (htool : step.tool ≠ "") (current : Task)
    (hnot : ¬ such step.id (requestFor current step)) : ¬ EveryRequest host plan such := by
  intro hevery
  let marked := onlyPending plan step.id
  let task : Task := { readyTask with id := plan.taskId, requestId := current.requestId }
  let w : World := { working := tablesWith marked task, committed := tablesWith marked task }
  have hmarked : Restorable marked := hplan.onlyPending step.id
  have hsame : SameButMarks plan marked := sameButMarks_onlyPending plan step.id
  have hnodes' : OperationGraph.fromPlan host.py marked = .ok nodes :=
    (fromPlan_marks hsame).trans hnodes
  obtain ⟨ordered, hordered⟩ := topologicalOrder_of_fromPlan hnodes'
  have hfound : (PlanRepository.getByTask task.id).run w = (.ok (some marked), w) :=
    Prod.ext (congrArg Except.ok (stored_tablesWith hmarked task)) rfl
  have hperm := stepsInOrder_perm hmarked.distinct hnodes' hordered
  -- the one step that is still to be done
  have hmem : { step with state := "PENDING" } ∈
      (executableSteps marked ordered).filter (·.state ≠ "COMPLETED") := by
    have hin : { step with state := "PENDING" } ∈ marked.steps :=
      List.mem_map.mpr ⟨step, hstep, by simp⟩
    have hordered' := hperm.mem_iff.mpr hin
    refine List.mem_filter.mpr ⟨List.mem_filter.mpr ⟨hordered', by simpa using htool⟩, ?_⟩
    simp
  have honly : ∀ other ∈ (executableSteps marked ordered).filter (·.state ≠ "COMPLETED"),
      other = { step with state := "PENDING" } := by
    intro other hother
    obtain ⟨hother, hstate⟩ := List.mem_filter.mp hother
    have hin : other ∈ marked.steps := hperm.mem_iff.mp (List.mem_filter.mp hother).1
    obtain ⟨old, hold, rfl⟩ := List.mem_map.mp hin
    by_cases hid : old.id = step.id
    · obtain rfl := List.inj_on_of_nodup_map hplan.distinct hold hstep hid
      simp
    · simp [hid] at hstate
  refine hevery marked hsame (obliging (soleTool step.tool)) "user" true task w hfound
    ⟨marked, nodes, ordered, hfound, hnodes', hordered, ?_⟩
  cases hsteps : (executableSteps marked ordered).filter (·.state ≠ "COMPLETED") with
  | nil =>
    rw [hsteps] at hmem
    cases hmem
  | cons first rest =>
    have hfirst := honly first (hsteps ▸ List.mem_cons_self ..)
    have hidle : w.Idle := ⟨rfl, rfl⟩
    have hknown : ((soleTool step.tool).find first.tool).isSome := by
      rw [hfirst]
      simp [soleTool, ToolRegistry.find]
    refine .inl ⟨_, submits_obliging (Closes.note _ w hidle) (savable_tablesWith hmarked.toStorable rfl) rfl
      hknown, ?_⟩
    rw [hfirst]
    exact hnot

/-- Which requests the runs of a stored plan submit.
SOURCE: execution/plan_runner.py:121-172 -/
theorem everyRequest_iff (hplan : Restorable plan) : EveryRequest host plan such ↔
    ((OperationGraph.fromPlan host.py plan).isOk = true → ∀ step ∈ plan.steps, step.tool ≠ "" →
      ∀ current, such step.id (requestFor current step)) := by
  constructor
  · intro hevery hgraph step hstep htool current
    by_contra hnot
    cases hnodes : OperationGraph.fromPlan host.py plan with
    | error e =>
      rw [hnodes] at hgraph
      cases hgraph
    | ok nodes => exact runComesTo_submits hplan hnodes hstep htool current hnot hevery
  · rintro hsuch marked hsame runner actingUser explicitUserAck task w hfound ⟨plan', nodes, ordered,
      hfound', hnodes, hordered, hcomes⟩
    obtain rfl := Option.some.inj (Except.ok.inj (congrArg Prod.fst (hfound.symm.trans hfound')))
    obtain ⟨step, hstep, progress, moreSteps, u, request, ⟨plan₁, current, t, -, rfl⟩, hnot⟩ :=
      comesTo_mem hcomes
    have hexecutable := (List.mem_filter.mp hstep).1
    have hin : step ∈ marked.steps := mem_of_mem_stepsInOrder (List.mem_filter.mp hexecutable).1
    have htool : step.tool ≠ "" := by simpa using (List.mem_filter.mp hexecutable).2
    obtain ⟨base, hbase, heq⟩ : ∃ base ∈ plan.steps, unmarked base = unmarked step := by
      have hmap : unmarked step ∈ plan.steps.map unmarked := hsame.steps ▸ List.mem_map_of_mem hin
      exact List.mem_map.mp hmap
    have hid : (unmarked base).id = (unmarked step).id := congrArg PlanStep.id heq
    have hrequest : requestFor current (unmarked base) = requestFor current (unmarked step) :=
      congrArg (requestFor current) heq
    have hgraph : (OperationGraph.fromPlan host.py plan).isOk = true := by
      rw [← fromPlan_marks hsame, hnodes]
      rfl
    have hbaseTool : (unmarked base).tool = (unmarked step).tool := congrArg PlanStep.tool heq
    refine hnot ?_
    have hgood := hsuch hgraph base hbase (fun h => htool (hbaseTool.symm.trans h)) current
    rw [show step.id = base.id from hid.symm,
      show requestFor current step = requestFor current base from hrequest.symm]
    exact hgood

end Runs

/-! ## Plans made of blueprints -/

/-- The blueprints give the plan, it is valid, it is stored, and read back for its task. -/
structure MadeFrom (service : PlanningService) (host : Host) (blueprints : List StepBlueprint)
    (plan loaded : Plan) : Prop where
  made : ∃ task intent w t, (service.assemble host task intent blueprints).run w = (.ok plan, t)
  stored : ∃ (u v : World) (taskId : String), u.Idle ∧ (PlanRepository.save plan).run u = (.ok (), v) ∧
    PlanRepository.ofTables v.committed taskId = some loaded
  sameId : loaded.id = plan.id

/-- The step has the tool, the description and the arguments of the blueprint. -/
structure Follows (step : PlanStep) (blueprint : StepBlueprint) : Prop where
  tool : step.tool = blueprint.tool
  description : step.description = blueprint.description
  arguments : step.arguments = blueprint.arguments

section Blueprints

variable {service : PlanningService} {host : Host} {blueprints : List StepBlueprint}
  {plan loaded : Plan}

/-- INTERNAL: the steps follow their blueprints, in order.
SOURCE: planning/service.py:414-436 -/
theorem newSteps_follow (planId : String) (index : ℕ) (blueprints : List StepBlueprint) :
    (PlanningService.newSteps host planId index blueprints).Yields fun steps =>
      List.Forall₂ Follows steps blueprints := by
  induction blueprints generalizing index with
  | nil => exact .nil
  | cons blueprint rest ih =>
    unfold PlanningService.newSteps
    refine Program.yields_bind fun stepId => (ih (index + 1)).bind fun others hothers => ?_
    exact .cons ⟨rfl, rfl, rfl⟩ hothers

/-- Each assembled step follows its blueprint. -/
theorem assemble_follows {task : Task} {intent : Intent} {w t : World}
    (h : (service.assemble host task intent blueprints).run w = (.ok plan, t)) :
    List.Forall₂ Follows plan.steps blueprints := by
  obtain ⟨planId, w₁, -, h⟩ := Program.run_bind_ok h
  obtain ⟨steps, w₂, hsteps, h⟩ := Program.run_bind_ok h
  have hfollow := (newSteps_follow planId 0 blueprints).of_run (congrArg Prod.fst hsteps)
  obtain ⟨valid, w₃, -, h⟩ := Program.run_bind_ok h
  obtain ⟨hplan, -⟩ := Prod.mk.inj h
  obtain rfl := Except.ok.inj hplan
  exact hfollow

/-- INTERNAL: a plan that is read back under the id of a saved one has its steps, as they are read.
SOURCE: persistence/sqlite/plan_repository.py:27-103 -/
theorem loaded_steps (hplan : Storable plan) {u v : World} (hu : u.Idle)
    (hsave : (PlanRepository.save plan).run u = (.ok (), v)) {taskId : String}
    (hload : PlanRepository.ofTables v.committed taskId = some loaded) (hid : loaded.id = plan.id) :
    loaded.steps = (PlanRepository.asRead plan).steps := by
  have hcommitted : v.committed = savedPlan plan u.committed := by
    rcases run_savePlan plan hu with ⟨-, hrun⟩ | ⟨-, e, hrun⟩
    · rw [hrun] at hsave
      obtain ⟨-, rfl⟩ := Prod.mk.inj hsave
      rfl
    · rw [hrun] at hsave
      cases hsave
  unfold PlanRepository.ofTables at hload
  obtain ⟨row, -, rfl⟩ := Option.map_eq_some_iff.mp hload
  have hrow : row.id = plan.id := hid
  have hsteps : PlanRepository.stepRows (savedPlan plan u.committed) plan.id = plan.steps :=
    storedSteps_eq hplan _ fun step hstep => by simpa using (List.mem_filter.mp hstep).2
  rw [hcommitted, hrow, hsteps]
  rfl

/-- INTERNAL: a plan made of blueprints is a storable one. -/
theorem MadeFrom.storable (h : MadeFrom service host blueprints plan loaded) : Storable plan := by
  obtain ⟨task, intent, w, t, hmade⟩ := h.made
  obtain ⟨u, v, taskId, -, hsave, -⟩ := h.stored
  obtain ⟨horder, hshape, -⟩ := assemble_returned hmade
  obtain ⟨hjson, hdistinct⟩ := savePlan_returned hsave
  refine ⟨fun step hstep => (hshape step hstep).1, ?_, hjson, hdistinct⟩
  rw [← List.pairwise_map (f := PlanStep.order), horder]
  exact List.pairwise_le_range

/-- INTERNAL: the loaded plan has the steps of the one that was made, as they are read. -/
theorem MadeFrom.steps (h : MadeFrom service host blueprints plan loaded) :
    loaded.steps = (PlanRepository.asRead plan).steps := by
  obtain ⟨u, v, taskId, hu, hsave, hload⟩ := h.stored
  exact loaded_steps h.storable hu hsave hload h.sameId

/-- INTERNAL: it can be stored again, and comes back as it is. -/
theorem MadeFrom.loaded_restorable (h : MadeFrom service host blueprints plan loaded) :
    Restorable loaded := by
  have hplan := h.storable
  have hread : ∀ step ∈ loaded.steps,
      ∃ old ∈ plan.steps, { old with arguments := old.arguments.reloaded } = step := by
    intro step hstep
    rw [h.steps] at hstep
    exact mem_asRead.mp hstep
  refine ⟨⟨?_, ?_, ?_, ?_⟩, ?_⟩
  · intro step hstep
    obtain ⟨old, hold, rfl⟩ := hread step hstep
    exact (hplan.planId old hold).trans h.sameId.symm
  · have hsorted := hplan.sorted
    rw [← List.pairwise_map (f := PlanStep.order)] at hsorted ⊢
    rwa [h.steps, map_asRead PlanStep.order fun _ _ => rfl]
  · intro step hstep
    obtain ⟨old, hold, rfl⟩ := hread step hstep
    exact (Dict.serializable_reloaded old.arguments).trans (hplan.json old hold)
  · rw [h.steps, map_asRead PlanStep.id fun _ _ => rfl]
    exact hplan.distinct
  · unfold PlainSteps
    rw [h.steps]
    exact plainSteps_asRead plan

/-- INTERNAL: such a plan comes back as it was. -/
theorem madeFrom_self {task : Task} {intent : Intent} {w t : World}
    (hmade : (service.assemble host task intent blueprints).run w = (.ok plan, t))
    (hplan : Restorable plan) : MadeFrom service host blueprints plan plan := by
  let owner : Task := { readyTask with id := plan.taskId }
  let u : World := { working := { tasks := [owner] }, committed := { tasks := [owner] } }
  have hu : u.Idle := ⟨rfl, rfl⟩
  have hsavable : Savable plan u.committed := by
    refine ⟨placed_of_hasTask ?_, hplan.json, hplan.distinct, fun _ _ row hrow => by cases hrow⟩
    simp [u, owner, Tables.hasTask]
  rcases run_savePlan plan hu with ⟨-, hrun⟩ | ⟨hno, -⟩
  · exact ⟨⟨task, intent, w, t, hmade⟩, ⟨u, _, plan.taskId, hu, hrun, stored_tablesWith hplan owner⟩,
      rfl⟩
  · exact absurd hsavable hno

end Blueprints

/-! ## The action of a request -/

/-- The request is the one the blueprint of the step asks for. -/
def CarriesBlueprint (plan : Plan) (blueprints : List StepBlueprint) (stepId : String)
    (request : ToolRequest) : Prop :=
  ∃ step blueprint, (step, blueprint) ∈ plan.steps.zip blueprints ∧ step.id = stepId ∧
    request.tool = blueprint.tool ∧ request.action = blueprint.action ∧
    request.arguments = blueprint.arguments

/-- The action a request of the blueprint's step gets. -/
def requestedAction (blueprint : StepBlueprint) : String :=
  if blueprint.description = "" then blueprint.tool else blueprint.description

/-- The requests of a plan carry what its blueprints say exactly when every blueprint has its action
for a description, or has none and has its tool for an action, and its arguments are read back as they
are; or the plan has no graph.
SOURCE: execution/plan_runner.py:166-171, planning/service.py:65-83, 414-436,
persistence/sqlite/plan_repository.py:27-103 -/
theorem requests_carry_blueprints_iff {service : PlanningService} {host : Host}
    {blueprints : List StepBlueprint} {plan loaded : Plan}
    (h : MadeFrom service host blueprints plan loaded) :
    EveryRequest host loaded (CarriesBlueprint plan blueprints) ↔
      ((OperationGraph.fromPlan host.py loaded).isOk = true →
        ∀ blueprint ∈ blueprints,
          requestedAction blueprint = blueprint.action ∧ blueprint.arguments.plain = true) := by
  obtain ⟨task, intent, w, t, hmade⟩ := h.made
  have hfollow := assemble_follows hmade
  have hknown := (assemble_returned hmade).2.2
  have hlength := hfollow.length_eq
  have hids : ((plan.steps.zip blueprints).map fun entry => entry.1.id).Nodup := by
    have hmap : (plan.steps.zip blueprints).map (fun entry => entry.1.id) =
        ((plan.steps.zip blueprints).map Prod.fst).map PlanStep.id := by rw [List.map_map]; rfl
    rw [hmap, List.map_fst_zip (Nat.le_of_eq hlength)]
    exact h.storable.distinct
  have haction : ∀ {step blueprint}, Follows step blueprint → ∀ current,
      (requestFor current step).action = requestedAction blueprint := by
    intro step blueprint hstep current
    unfold requestFor requestedAction
    rw [hstep.description, hstep.tool]
  rw [everyRequest_iff h.loaded_restorable, h.steps]
  refine imp_congr_right fun _ => ⟨fun hcarries blueprint hin => ?_, fun hactions read hread _ current => ?_⟩
  · rw [← List.map_snd_zip (Nat.le_of_eq hlength.symm)] at hin
    obtain ⟨⟨step, _⟩, hentry, rfl⟩ := List.mem_map.mp hin
    have hstep : step ∈ plan.steps := (List.of_mem_zip hentry).1
    have hfollows := List.forall₂_zip hfollow hentry
    obtain ⟨step', blueprint', hentry', hid, -, hsame, harguments⟩ :=
      hcarries _ (mem_asRead.mpr ⟨step, hstep, rfl⟩) (hknown step hstep).1 readyTask
    obtain ⟨-, rfl⟩ := Prod.mk.inj (List.inj_on_of_nodup_map hids hentry' hentry hid)
    refine ⟨(haction hfollows readyTask).symm.trans hsame, Dict.reloaded_eq_iff.mp ?_⟩
    exact (congrArg Dict.reloaded hfollows.arguments.symm).trans harguments
  · obtain ⟨step, hin, rfl⟩ := mem_asRead.mp hread
    rw [← List.map_fst_zip (Nat.le_of_eq hlength)] at hin
    obtain ⟨⟨_, blueprint⟩, hentry, rfl⟩ := List.mem_map.mp hin
    have hstep := List.forall₂_zip hfollow hentry
    obtain ⟨hsame, hplain⟩ := hactions blueprint (List.of_mem_zip hentry).2
    refine ⟨_, blueprint, hentry, rfl, hstep.tool, (haction hstep current).trans hsame, ?_⟩
    exact (congrArg Dict.reloaded hstep.arguments).trans (Dict.reloaded_eq_iff.mpr hplain)

/-- A note, described as its action says or not at all. -/
def noteBlueprint (description : String) : StepBlueprint :=
  { tool := "notes", action := "add", description := description }

/-- The plan of that note. -/
def blueprintPlan (description : String) : Plan :=
  { id := plainId 0
    taskId := readyTask.id
    objective := "take a note"
    steps := [{ id := plainId 1
                planId := plainId 0
                order := 0
                description := description
                tool := "notes" }] }

/-- INTERNAL: the pipeline for that note. -/
theorem madeFrom_note (description : String) : MadeFrom (notesPlanning answering) (.plain [] [])
    [noteBlueprint description] (blueprintPlan description) (blueprintPlan description) := by
  let intent : Intent := { id := "intent", requestId := "request", type := "note",
                           goal := "take a note" }
  have hmade : ((notesPlanning answering).assemble (.plain [] []) readyTask intent
      [noteBlueprint description]).run {} = (.ok (blueprintPlan description), { nextId := 2 }) := rfl
  refine madeFrom_self hmade ⟨⟨?_, ?_, ?_, ?_⟩, ?_⟩
  · simp [blueprintPlan]
  · simp [blueprintPlan]
  · simp [blueprintPlan, Value.serializable, Value.serializableDict]
  · simp [blueprintPlan]
  · simp [PlainSteps, blueprintPlan, Dict.plain, Value.plainDict]

/-- The note is described as "add": its request carries the action. -/
theorem described_note_carried :
    EveryRequest (.plain [] []) (blueprintPlan "add")
      (CarriesBlueprint (blueprintPlan "add") [noteBlueprint "add"]) :=
  (requests_carry_blueprints_iff (madeFrom_note "add")).mpr fun _ blueprint hin => by
    obtain rfl := List.mem_singleton.mp hin
    exact ⟨rfl, rfl⟩

/-- The note is not described: its request is for the action "notes". -/
theorem bare_note_not_carried :
    MadeFrom (notesPlanning answering) (.plain [] []) [noteBlueprint ""] (blueprintPlan "")
      (blueprintPlan "") ∧
    ¬ EveryRequest (.plain [] []) (blueprintPlan "")
      (CarriesBlueprint (blueprintPlan "") [noteBlueprint ""]) := by
  refine ⟨madeFrom_note "", fun hevery => ?_⟩
  obtain ⟨step, blueprint, hentry, -, -, haction, -⟩ :=
    (everyRequest_iff (madeFrom_note "").loaded_restorable).mp hevery (by decide +kernel)
      _ (List.mem_singleton_self _) (by decide) readyTask
  obtain ⟨rfl, rfl⟩ := Prod.mk.inj (List.mem_singleton.mp hentry)
  revert haction
  decide

/-! ## The graph entry -/

/-- The schema takes the request. -/
def SchemaAccepts (py : Stdlib) (schema : ToolSchema) (request : ToolRequest) : Prop :=
  (schema.getValidatedArguments py request).isOk = true

/-- The request has the arguments of the step's node, so that every schema takes it exactly when it
takes those. -/
def HasNodeArguments (py : Stdlib) (plan : Plan) (stepId : String) (request : ToolRequest) : Prop :=
  ∃ nodes node, OperationGraph.fromPlan py plan = .ok nodes ∧ node ∈ nodes ∧ node.stepId = stepId ∧
    request.arguments = node.arguments ∧
    ∀ schema, SchemaAccepts py schema request ↔
      SchemaAccepts py schema { request with arguments := node.arguments }

section Nodes

variable {py : Stdlib} {plan : Plan} {nodes : List OperationNode}

/-- INTERNAL: the node under the id of a step has the other arguments of that step. -/
theorem node_arguments (hdistinct : (plan.steps.map PlanStep.id).Nodup)
    (hnodes : OperationGraph.fromPlan py plan = .ok nodes) {step : PlanStep}
    (hstep : step ∈ plan.steps) {node : OperationNode} (hnode : node ∈ nodes)
    (hid : node.stepId = step.id) : node.arguments = step.arguments.filter (·.1 ≠ "_graph") := by
  have hpairs := nodesOf_forall₂ (fromPlan_returned hnodes)
  rw [← List.map_snd_zip (Nat.le_of_eq hpairs.length_eq.symm)] at hnode
  obtain ⟨⟨other, _⟩, hentry, rfl⟩ := List.mem_map.mp hnode
  obtain ⟨hother, -, harguments⟩ := nodeOf_returned (List.forall₂_zip hpairs hentry)
  obtain rfl := List.inj_on_of_nodup_map hdistinct (List.of_mem_zip hentry).1 hstep
    (hother.symm.trans hid)
  exact harguments

/-- INTERNAL: each step has its node. -/
theorem exists_node (hnodes : OperationGraph.fromPlan py plan = .ok nodes) {step : PlanStep}
    (hstep : step ∈ plan.steps) : ∃ node ∈ nodes, node.stepId = step.id := by
  have hpairs := nodesOf_forall₂ (fromPlan_returned hnodes)
  rw [← List.map_fst_zip (Nat.le_of_eq hpairs.length_eq)] at hstep
  obtain ⟨⟨_, node⟩, hentry, rfl⟩ := List.mem_map.mp hstep
  exact ⟨node, (List.of_mem_zip hentry).2, (nodeOf_returned (List.forall₂_zip hpairs hentry)).1⟩

/-- INTERNAL: an argument the schema does not declare is an error.
SOURCE: tools/schema.py:134-161 -/
theorem givenErrors_undeclared {schema : ToolSchema} {name : String}
    (hname : schema.arguments.lookup name = none) {arguments : Dict} (h : arguments.has name = true) :
    schema.givenErrors py arguments ≠ .ok [] := by
  induction arguments with
  | nil => cases h
  | cons entry rest ih =>
    obtain ⟨key, value⟩ := entry
    unfold ToolSchema.givenErrors
    by_cases hkey : key = name
    · rw [hkey, hname]
      cases schema.givenErrors py rest <;> simp [bind, Except.bind, pure, Except.pure]
    · have hrest : Dict.has rest name = true := by
        have hother : (name == key) = false := by simpa using Ne.symm hkey
        unfold Dict.has at h ⊢
        rwa [List.lookup_cons, hother] at h
      revert ih
      cases schema.givenErrors py rest with
      | error e =>
        cases schema.arguments.lookup key with
        | none => simp [bind, Except.bind, pure, Except.pure]
        | some argument => cases hvalid : argument.validate py value <;> simp [bind, Except.bind, hvalid]
      | ok errors =>
        intro ih
        have hsome : errors ≠ [] := fun hnil => ih hrest (by rw [hnil])
        cases schema.arguments.lookup key with
        | none => simp [bind, Except.bind, pure, Except.pure]
        | some argument =>
          cases hvalid : argument.validate py value <;>
            simp [bind, Except.bind, pure, Except.pure, hsome, hvalid]

/-- A schema that does not declare the graph entry takes no request that has one. -/
theorem closed_schema_rejects {schema : ToolSchema} (hclosed : schema.arguments.lookup "_graph" = none)
    {request : ToolRequest} (h : request.arguments.has "_graph" = true) :
    ¬ SchemaAccepts py schema request := by
  have hgiven : schema.givenErrors py request.arguments ≠ .ok [] := givenErrors_undeclared hclosed h
  unfold SchemaAccepts ToolSchema.getValidatedArguments ToolSchema.validateRequest
  revert hgiven
  cases schema.givenErrors py request.arguments with
  | error e => simp [bind, Except.bind, Except.isOk, Except.toBool]
  | ok errors =>
    intro hgiven
    have hne : errors ≠ [] := fun hnil => hgiven (by rw [hnil])
    simp [bind, Except.bind, pure, Except.pure, hne, throw, throwThe, MonadExceptOf.throw, Except.isOk,
      Except.toBool]

/-- INTERNAL: nothing is left out when there is no such entry. -/
theorem filter_graph_eq_self_iff (arguments : Dict) :
    arguments.filter (·.1 ≠ "_graph") = arguments ↔ arguments.has "_graph" = false := by
  rw [List.filter_eq_self]
  unfold Dict.has
  rw [Option.isSome_eq_false_iff, Option.isNone_iff_eq_none, List.lookup_eq_none_iff]
  refine forall₂_congr fun entry _ => ?_
  rw [decide_eq_true_iff, bne_iff_ne]
  exact ne_comm

end Nodes

/-- The requests of a stored plan have the arguments of their nodes exactly when no step with a tool has
a graph entry; or the plan has no graph.
SOURCE: execution/operation_graph.py:29-54, execution/plan_runner.py:166-171 -/
theorem requests_have_node_arguments_iff {host : Host} {plan : Plan} (hplan : Restorable plan) :
    EveryRequest host plan (HasNodeArguments host.py plan) ↔
      ((OperationGraph.fromPlan host.py plan).isOk = true → ∀ step ∈ plan.steps, step.tool ≠ "" →
        step.arguments.has "_graph" = false) := by
  rw [everyRequest_iff hplan]
  refine imp_congr_right fun hgraph => forall_congr' fun step => forall_congr' fun hstep =>
    imp_congr_right fun _ => ⟨fun hsuch => ?_, fun hnone current => ?_⟩
  · obtain ⟨nodes, node, hnodes, hnode, hid, hsame, -⟩ := hsuch readyTask
    rw [← filter_graph_eq_self_iff, ← node_arguments hplan.distinct hnodes hstep hnode hid]
    exact hsame.symm
  · cases hnodes : OperationGraph.fromPlan host.py plan with
    | error e =>
      rw [hnodes] at hgraph
      cases hgraph
    | ok nodes =>
      obtain ⟨node, hnode, hid⟩ := exists_node hnodes hstep
      have hsame : step.arguments = node.arguments := by
        rw [node_arguments hplan.distinct hnodes hstep hnode hid]
        exact ((filter_graph_eq_self_iff _).mpr hnone).symm
      refine ⟨nodes, node, hnodes, hnode, hid, hsame, fun schema => ?_⟩
      rw [← hsame]
      exact Iff.rfl

/-- A note without a graph entry is requested with the arguments of its node. -/
theorem plain_note_node_arguments :
    EveryRequest (.plain [] []) (blueprintPlan "add") (HasNodeArguments .plain (blueprintPlan "add")) :=
  (requests_have_node_arguments_iff (madeFrom_note "add").loaded_restorable).mpr fun _ step hin _ => by
    obtain rfl := List.mem_singleton.mp hin
    rfl

/-- A plan of a note with a graph entry. -/
def graphPlan : Plan :=
  { id := "plan"
    taskId := readyTask.id
    objective := "take a note"
    steps := [noteStep "one" 0 [("_graph", .dict [])]] }

/-- The note's request has the graph entry. Its node has not, and a schema without arguments takes only
the node's. -/
theorem graph_entry_submitted :
    Restorable graphPlan ∧
    ¬ EveryRequest (.plain [] []) graphPlan (HasNodeArguments .plain graphPlan) ∧
    ¬ SchemaAccepts .plain { name := "notes" }
      (requestFor readyTask (noteStep "one" 0 [("_graph", .dict [])])) ∧
    SchemaAccepts .plain { name := "notes" } (requestFor readyTask (noteStep "one" 0 [])) := by
  have hplan : Restorable graphPlan := by
    refine ⟨⟨?_, ?_, ?_, ?_⟩, ?_⟩ <;>
      simp [graphPlan, noteStep, Value.serializable, Value.serializableDict, PlainSteps, Dict.plain,
        Value.plainDict, Value.plain]
  refine ⟨hplan, fun hevery => ?_, closed_schema_rejects rfl rfl, rfl⟩
  have hstep : noteStep "one" 0 [("_graph", .dict [])] ∈ graphPlan.steps := List.mem_singleton_self _
  obtain ⟨nodes, node, hnodes, hnode, hid, hsame, -⟩ :=
    (everyRequest_iff hplan).mp hevery (by decide +kernel) _ hstep (by decide) readyTask
  rw [node_arguments hplan.distinct hnodes hstep hnode hid] at hsame
  cases (filter_graph_eq_self_iff _).mp hsame.symm

end Shea.Analysis
