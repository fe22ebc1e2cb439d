import Shea.Model.PlanRunner

/-!
# The order of the steps

The operation graph gives the steps round by round: a round takes the ids that wait for nothing,
sorted, and releases the others. Whatever a step depends on stands before it, and every step stands
in the list once.

The order of the plan plays no part in it. Steps that depend on nothing are taken up in the order of
their ids.
-/

set_option autoImplicit false

namespace Shea.Analysis

open Shea.Computation Shea.Model
open Shea.Model.OperationGraph

/-! ## The rounds -/

section Rounds

variable {deps : Waiting} {ids : List String}

/-- INTERNAL: what is left after a round. -/
theorem mem_release {done : List String} {stepId : String} {d : List String} :
    (stepId, d) ∈ release done deps ↔
      ∃ d', (stepId, d') ∈ deps ∧ stepId ∉ done ∧ d = d'.filter (· ∉ done) := by
  unfold release
  constructor
  · intro h
    obtain ⟨⟨other, d'⟩, hmem, heq⟩ := List.mem_map.mp h
    obtain ⟨rfl, rfl⟩ := Prod.mk.inj heq
    obtain ⟨hin, hout⟩ := List.mem_filter.mp hmem
    exact ⟨d', hin, by simpa using hout, rfl⟩
  · rintro ⟨d', hin, hout, rfl⟩
    exact List.mem_map.mpr ⟨(stepId, d'), List.mem_filter.mpr ⟨hin, by simpa using hout⟩, rfl⟩

/-- INTERNAL: releasing keeps the steps that are not done. -/
theorem map_fst_release (done : List String) :
    (release done deps).map Prod.fst = (deps.map Prod.fst).filter (· ∉ done) := by
  unfold release
  rw [List.map_map, List.filter_map]
  rfl

/-- INTERNAL: a step is ready when it waits for nothing. -/
theorem mem_ready {stepId : String} : stepId ∈ ready deps ↔ (stepId, []) ∈ deps := by
  unfold ready
  constructor
  · intro h
    obtain ⟨⟨other, d⟩, hmem, rfl⟩ := List.mem_map.mp h
    obtain ⟨hin, hempty⟩ := List.mem_filter.mp hmem
    obtain rfl : d = [] := List.isEmpty_iff.mp hempty
    exact hin
  · intro h
    exact List.mem_map.mpr ⟨_, List.mem_filter.mpr ⟨h, rfl⟩, rfl⟩

/-- INTERNAL: the ready steps are among those that are left. -/
theorem ready_sublist : (ready deps).Sublist (deps.map Prod.fst) :=
  (List.filter_sublist).map _

/-- INTERNAL: a round, when there is something to do. -/
theorem rounds_returned {fuel : ℕ} (hdeps : deps ≠ []) (h : rounds fuel deps = .ok ids) :
    ∃ n rest, fuel = n + 1 ∧ rounds n (release (ready deps) deps) = .ok rest ∧
      ids = sortedTexts (ready deps) ++ rest := by
  obtain ⟨entry, tail, rfl⟩ := List.exists_cons_of_ne_nil hdeps
  cases fuel with
  | zero => cases h
  | succ n =>
    unfold rounds at h
    split at h
    · cases h
    · cases hrest : rounds n (release (ready (entry :: tail)) (entry :: tail)) with
      | error e =>
        rw [hrest] at h
        cases h
      | ok rest =>
        rw [hrest] at h
        exact ⟨n, rest, rfl, hrest, (Except.ok.inj h).symm⟩

/-- Every id is taken up once.
SOURCE: execution/operation_graph.py:65-79 -/
theorem rounds_perm {fuel : ℕ} (hdistinct : (deps.map Prod.fst).Nodup)
    (h : rounds fuel deps = .ok ids) : ids.Perm (deps.map Prod.fst) := by
  induction fuel generalizing deps ids with
  | zero =>
    by_cases hdeps : deps = []
    · subst hdeps
      obtain rfl := Except.ok.inj h
      exact .refl _
    · obtain ⟨n, rest, hfuel, -⟩ := rounds_returned hdeps h
      omega
  | succ fuel ih =>
    by_cases hdeps : deps = []
    · subst hdeps
      obtain rfl := Except.ok.inj h
      exact .refl _
    · obtain ⟨n, rest, hfuel, hrest, rfl⟩ := rounds_returned hdeps h
      obtain rfl : fuel = n := by omega
      have hreleased : ((release (ready deps) deps).map Prod.fst).Nodup := by
        rw [map_fst_release]
        exact hdistinct.filter _
      have hperm := ih hreleased hrest
      rw [map_fst_release] at hperm
      have hready : (ready deps).Perm ((deps.map Prod.fst).filter (· ∈ ready deps)) := by
        refine (List.perm_ext_iff_of_nodup (ready_sublist.nodup hdistinct)
          (hdistinct.filter _)).mpr fun stepId => ?_
        rw [List.mem_filter]
        refine ⟨fun hin => ⟨ready_sublist.subset hin, by simpa using hin⟩, fun hin => ?_⟩
        simpa using hin.2
      have hsplit := List.filter_append_perm (fun stepId => decide (stepId ∈ ready deps))
        (deps.map Prod.fst)
      refine (((List.perm_insertionSort _ _).trans hready).append ?_).trans hsplit
      simpa using hperm

/-- INTERNAL: an element that is not in the front of a list stands in the rest. -/
theorem split_of_notMem {α : Type} {front rest before after : List α} {a : α}
    (h : front ++ rest = before ++ a :: after) (ha : a ∉ front) :
    ∃ middle, before = front ++ middle ∧ rest = middle ++ a :: after := by
  rcases List.append_eq_append_iff.mp h with ⟨middle, hbefore, hrest⟩ | ⟨tail, hfront, hafter⟩
  · exact ⟨middle, hbefore, hrest⟩
  · cases tail with
    | nil => exact ⟨[], by simpa using hfront.symm, by simpa using hafter.symm⟩
    | cons first tail =>
      obtain ⟨rfl, -⟩ := List.cons.inj hafter
      exact absurd (by rw [hfront]; simp) ha

/-- Whatever an id waits for is taken up before it.
SOURCE: execution/operation_graph.py:65-79 -/
theorem rounds_before {fuel : ℕ} (hdistinct : (deps.map Prod.fst).Nodup)
    (h : rounds fuel deps = .ok ids) {stepId : String} {before after d : List String}
    (hids : ids = before ++ stepId :: after) (hwaits : (stepId, d) ∈ deps) :
    ∀ other ∈ d, other ∈ before := by
  induction fuel generalizing deps ids before d with
  | zero =>
    obtain ⟨n, rest, hfuel, -⟩ := rounds_returned (List.ne_nil_of_mem hwaits) h
    omega
  | succ fuel ih =>
    obtain ⟨n, rest, hfuel, hrest, rfl⟩ := rounds_returned (List.ne_nil_of_mem hwaits) h
    obtain rfl : fuel = n := by omega
    intro other hother
    have hsorted : ∀ x, x ∈ sortedTexts (ready deps) ↔ x ∈ ready deps :=
      fun x => (List.perm_insertionSort _ _).mem_iff
    have hnow : stepId ∉ ready deps := by
      -- an id that is ready waits for nothing
      intro hready
      have hpair := List.inj_on_of_nodup_map hdistinct hwaits (mem_ready.mp hready) rfl
      obtain ⟨-, rfl⟩ := Prod.mk.inj hpair
      cases hother
    obtain ⟨middle, rfl, hmiddle⟩ := split_of_notMem hids fun hin => hnow ((hsorted _).mp hin)
    by_cases hdone : other ∈ ready deps
    · exact List.mem_append_left _ ((hsorted _).mpr hdone)
    · have hreleased : ((release (ready deps) deps).map Prod.fst).Nodup := by
        rw [map_fst_release]
        exact hdistinct.filter _
      refine List.mem_append_right _ (ih hreleased hrest hmiddle
        (mem_release.mpr ⟨d, hwaits, hnow, rfl⟩) other ?_)
      exact List.mem_filter.mpr ⟨hother, by simpa using hdone⟩

end Rounds

/-! ## The steps of a plan -/

section Plans

variable {py : Stdlib} {plan : Plan} {nodes ordered : List OperationNode}

/-- INTERNAL: a node has the id and the dependencies of its step, and its arguments without the graph
entry.
SOURCE: execution/operation_graph.py:29-54 -/
theorem nodeOf_returned {step : PlanStep} {node : OperationNode} (h : nodeOf py step = .ok node) :
    node.stepId = step.id ∧ node.dependsOn = step.dependsOn ∧
      node.arguments = step.arguments.filter (·.1 ≠ "_graph") := by
  unfold nodeOf at h
  revert h
  generalize strOf py (actionOf step) = action
  generalize dictOr _ = compensation
  generalize strOf py (policyOf step) = policy
  intro h
  -- all three of them were there, or nothing would have been returned
  cases action with
  | error e => cases h
  | ok action =>
    cases compensation with
    | error e => cases h
    | ok entries =>
      cases policy with
      | error e => cases h
      | ok policy =>
        obtain rfl := Except.ok.inj h
        exact ⟨rfl, rfl, rfl⟩

/-- INTERNAL: the nodes are those of the steps, in order. -/
theorem nodesOf_forall₂ {steps : List PlanStep} (h : nodesOf py steps = .ok nodes) :
    List.Forall₂ (fun step node => nodeOf py step = .ok node) steps nodes := by
  induction steps generalizing nodes with
  | nil =>
    obtain rfl := Except.ok.inj h
    exact .nil
  | cons step rest ih =>
    unfold nodesOf at h
    cases hnode : nodeOf py step with
    | error e =>
      rw [hnode] at h
      cases h
    | ok node =>
      cases hrest : nodesOf py rest with
      | error e =>
        rw [hnode, hrest] at h
        cases h
      | ok others =>
        rw [hnode, hrest] at h
        obtain rfl := Except.ok.inj h
        exact .cons hnode (ih hrest)

/-- INTERNAL: the ids and dependencies of the nodes are those of the steps. -/
theorem nodesOf_returned {steps : List PlanStep} (h : nodesOf py steps = .ok nodes) :
    nodes.map (fun node => (node.stepId, node.dependsOn)) =
      steps.map fun step => (step.id, step.dependsOn) := by
  have hpairs := nodesOf_forall₂ h
  clear h
  induction hpairs with
  | nil => rfl
  | cons hnode _ ih =>
    obtain ⟨hid, hdepends, -⟩ := nodeOf_returned hnode
    rw [List.map_cons, List.map_cons, ih, hid, hdepends]

/-- INTERNAL: a graph that was built is the list of its nodes. -/
theorem fromPlan_returned (h : fromPlan py plan = .ok nodes) : nodesOf py plan.steps = .ok nodes := by
  unfold fromPlan at h
  cases hnodes : nodesOf py plan.steps with
  | error e =>
    rw [hnodes] at h
    cases h
  | ok others =>
    rw [hnodes] at h
    cases hvalid : validate others with
    | error e =>
      simp only [Except.bind, bind, hvalid] at h
      cases h
    | ok _ =>
      simp only [Except.bind, bind, hvalid] at h
      exact h

/-- INTERNAL: and the list is a valid one. -/
theorem fromPlan_valid (h : fromPlan py plan = .ok nodes) : validate nodes = .ok () := by
  have hnodes := fromPlan_returned h
  unfold fromPlan at h
  rw [hnodes] at h
  cases hvalid : validate nodes with
  | error e =>
    simp only [Except.bind, bind, hvalid] at h
    cases h
  | ok _ => rfl

/-- INTERNAL: so it has an order. -/
theorem topologicalOrder_of_fromPlan (h : fromPlan py plan = .ok nodes) :
    ∃ ordered, topologicalOrder nodes = .ok ordered := by
  have hvalid := fromPlan_valid h
  unfold validate at hvalid
  cases hordered : topologicalOrder nodes with
  | ok ordered => exact ⟨ordered, rfl⟩
  | error e =>
    cases hdepends : checkDependencies nodes with
    | ok _ =>
      simp only [Except.bind, bind, hdepends, hordered] at hvalid
      cases hvalid
    | error e =>
      simp only [Except.bind, bind, hdepends] at hvalid
      cases hvalid

/-- INTERNAL: the rows under these keys, in the order of the keys. -/
theorem map_filterMap_lookup {α : Type} {key : α → String} {rows : List α}
    (hd : (rows.map key).Nodup) {keys : List String} (hkeys : ∀ k ∈ keys, k ∈ rows.map key) :
    (keys.filterMap (Table.lookup key rows)).map key = keys := by
  induction keys with
  | nil => rfl
  | cons k keys ih =>
    obtain ⟨row, hrow, rfl⟩ := List.mem_map.mp (hkeys k (List.mem_cons_self ..))
    rw [List.filterMap_cons_some (Table.lookup_of_mem hd hrow), List.map_cons,
      ih fun k hk => hkeys k (List.mem_cons_of_mem _ hk)]

/-- INTERNAL: a list without repetitions has none to erase. -/
theorem eraseDups_of_nodup {ids : List String} (h : ids.Nodup) : ids.eraseDups = ids := by
  induction ids with
  | nil => rfl
  | cons id ids ih =>
    obtain ⟨hout, hrest⟩ := List.nodup_cons.mp h
    have hkept : ids.filter (fun other => !other == id) = ids := by
      refine List.filter_eq_self.mpr fun other hin => ?_
      have hne : other ≠ id := fun heq => hout (heq ▸ hin)
      simpa using hne
    rw [List.eraseDups_cons, hkept, ih hrest]

/-- INTERNAL: what the nodes wait for. -/
theorem waiting_eq (hdistinct : (nodes.map (·.stepId)).Nodup) :
    waiting nodes = nodes.map fun node => (node.stepId, node.dependsOn) := by
  unfold waiting
  rw [eraseDups_of_nodup hdistinct, List.map_map]
  refine List.map_congr_left fun node hnode => ?_
  have hreversed : (nodes.reverse.map (·.stepId)).Nodup := by
    rwa [List.map_reverse, List.nodup_reverse]
  have hfound : byId nodes node.stepId = some node :=
    Table.lookup_of_mem hreversed (List.mem_reverse.mpr hnode)
  simp [hfound]

/-- INTERNAL: the ids in the order of the graph. -/
theorem topologicalOrder_ids (hdistinct : (nodes.map (·.stepId)).Nodup)
    (h : topologicalOrder nodes = .ok ordered) :
    (ordered.map (·.stepId)).Perm (nodes.map (·.stepId)) ∧
      rounds nodes.length (nodes.map fun node => (node.stepId, node.dependsOn)) =
        .ok (ordered.map (·.stepId)) := by
  unfold topologicalOrder at h
  rw [waiting_eq hdistinct] at h
  cases hrounds : rounds nodes.length (nodes.map fun node => (node.stepId, node.dependsOn)) with
  | error e =>
    rw [hrounds] at h
    cases h
  | ok ids =>
    rw [hrounds] at h
    obtain rfl := Except.ok.inj h
    have hperm : ids.Perm (nodes.map (·.stepId)) := by
      have hdeps := rounds_perm (by simpa [List.map_map, Function.comp_def] using hdistinct) hrounds
      simpa [List.map_map, Function.comp_def] using hdeps
    have hreversed : (nodes.reverse.map (·.stepId)).Nodup := by
      rwa [List.map_reverse, List.nodup_reverse]
    have hids : (ids.filterMap (byId nodes)).map (·.stepId) = ids := by
      refine map_filterMap_lookup hreversed fun id hid => ?_
      rw [List.map_reverse, List.mem_reverse]
      exact hperm.subset hid
    rw [hids]
    exact ⟨hperm, rfl⟩

/-- The steps of a plan in the order of the graph. -/
def stepsInOrder (plan : Plan) (ordered : List OperationNode) : List PlanStep :=
  ordered.filterMap fun node => PlanRunner.stepById plan node.stepId

variable (hdistinct : (plan.steps.map PlanStep.id).Nodup) (hnodes : fromPlan py plan = .ok nodes)
  (hordered : topologicalOrder nodes = .ok ordered)

include hdistinct hnodes hordered

/-- INTERNAL: the ids of the steps, round by round. -/
theorem stepsInOrder_ids :
    ((stepsInOrder plan ordered).map PlanStep.id).Perm (plan.steps.map PlanStep.id) ∧
      rounds plan.steps.length (plan.steps.map fun step => (step.id, step.dependsOn)) =
        .ok ((stepsInOrder plan ordered).map PlanStep.id) := by
  have hpairs := nodesOf_returned (fromPlan_returned hnodes)
  have hids : nodes.map (·.stepId) = plan.steps.map PlanStep.id := by
    have h := congrArg (List.map Prod.fst) hpairs
    simpa [List.map_map, Function.comp_def] using h
  have hlength : nodes.length = plan.steps.length := by
    have h := congrArg List.length hpairs
    simpa using h
  obtain ⟨hperm, hrounds⟩ := topologicalOrder_ids (hids ▸ hdistinct) hordered
  rw [hids] at hperm
  have hreversed : (plan.steps.reverse.map PlanStep.id).Nodup := by
    rwa [List.map_reverse, List.nodup_reverse]
  have hsame : (stepsInOrder plan ordered).map PlanStep.id = ordered.map (·.stepId) := by
    have hsteps : stepsInOrder plan ordered =
        (ordered.map (·.stepId)).filterMap (Table.lookup PlanStep.id plan.steps.reverse) := by
      rw [List.filterMap_map]
      rfl
    rw [hsteps]
    refine map_filterMap_lookup hreversed fun id hid => ?_
    rw [List.map_reverse, List.mem_reverse]
    exact hperm.subset hid
  rw [hsame, ← hpairs, ← hlength]
  exact ⟨hperm, hrounds⟩

omit hdistinct hnodes hordered in
/-- INTERNAL: the steps in order are steps of the plan. -/
theorem mem_of_mem_stepsInOrder {step : PlanStep} (h : step ∈ stepsInOrder plan ordered) :
    step ∈ plan.steps := by
  obtain ⟨node, -, hfound⟩ := List.mem_filterMap.mp h
  exact List.mem_reverse.mp (List.mem_of_find?_eq_some hfound)

/-- Every step of the plan stands in the order of the graph, once. -/
theorem stepsInOrder_perm : (stepsInOrder plan ordered).Perm plan.steps := by
  obtain ⟨hperm, -⟩ := stepsInOrder_ids hdistinct hnodes hordered
  refine (List.perm_ext_iff_of_nodup (.of_map _ (hperm.nodup_iff.mpr hdistinct))
    (.of_map _ hdistinct)).mpr fun step => ⟨mem_of_mem_stepsInOrder, fun hstep => ?_⟩
  obtain ⟨other, hother, hid⟩ := List.mem_map.mp (hperm.symm.subset (List.mem_map_of_mem hstep))
  obtain rfl := List.inj_on_of_nodup_map hdistinct (mem_of_mem_stepsInOrder hother) hstep hid
  exact hother

/-- Whatever a step depends on stands before it in the order of the graph.
SOURCE: execution/operation_graph.py:29-79 -/
theorem stepsInOrder_before {step : PlanStep} {before after : List PlanStep}
    (h : stepsInOrder plan ordered = before ++ step :: after) {dep : PlanStep}
    (hdep : dep ∈ plan.steps) (hdepends : dep.id ∈ step.dependsOn) : dep ∈ before := by
  obtain ⟨hperm, hrounds⟩ := stepsInOrder_ids hdistinct hnodes hordered
  have hstep : step ∈ plan.steps := mem_of_mem_stepsInOrder (by rw [h]; simp)
  have hids : (stepsInOrder plan ordered).map PlanStep.id =
      before.map PlanStep.id ++ step.id :: after.map PlanStep.id := by
    rw [h, List.map_append, List.map_cons]
  have hearlier := rounds_before (by simpa [List.map_map, Function.comp_def] using hdistinct) hrounds
    hids (List.mem_map_of_mem hstep) dep.id hdepends
  obtain ⟨other, hother, hid⟩ := List.mem_map.mp hearlier
  have hmem : other ∈ plan.steps := mem_of_mem_stepsInOrder (by rw [h]; simp [hother])
  obtain rfl := List.inj_on_of_nodup_map hdistinct hmem hdep hid
  exact hother

end Plans

end Shea.Analysis
