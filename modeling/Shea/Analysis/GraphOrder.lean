import Mathlib.Data.Fintype.EquivFin
import Mathlib.Order.WellFounded
import Shea.Analysis.StepOrder
import Shea.Model.Sample

/-!
# Which graphs have an order

The loop of `topological_order` ends on every input: a round that finds nothing ready raises, and any
other round leaves fewer ids. When the dependencies of a plan name its steps and never lead back to
where they started, every round finds something: among the ids that are left, one waits for none of
them. When they do lead back, no order exists, since every dependency stands before what depends on it.

A graph can be refused for one other reason: `dict()` is asked to make a dictionary of the
`compensation_arguments` of a step, whatever these are.
-/

set_option autoImplicit false

namespace Shea.Analysis

open Shea.Computation Shea.Model
open Shea.Model.OperationGraph

/-! ## The loop without fuel -/

/-- The `while` loop: over when nothing is left, an error when nothing is ready, else one round and
the loop again. -/
inductive LoopEnds : Waiting → Except Err (List String) → Prop
  | done : LoopEnds [] (.ok [])
  | stuck {deps : Waiting} (hleft : deps ≠ []) (hstuck : ready deps = []) :
      LoopEnds deps (.error (.valueError "OperationGraph contains a cycle"))
  | round {deps : Waiting} {result : Except Err (List String)} (hready : ready deps ≠ [])
      (hrest : LoopEnds (release (ready deps) deps) result) :
      LoopEnds deps (result.map (sortedTexts (ready deps) ++ ·))

section Loop

variable {deps : Waiting}

/-- INTERNAL: a round that finds something leaves less. -/
theorem length_release_lt (hready : ready deps ≠ []) :
    (release (ready deps) deps).length < deps.length := by
  obtain ⟨stepId, hin⟩ := List.exists_mem_of_ne_nil _ hready
  have hmem := mem_ready.mp hin
  unfold release
  rw [List.length_map]
  apply List.length_filter_lt_length_iff_exists.mpr
  exact ⟨_, hmem, by simpa using hin⟩

/-- As many rounds as ids are enough, for any dependencies.
SOURCE: execution/operation_graph.py:65-79 -/
theorem loopEnds_rounds {fuel : ℕ} (h : deps.length ≤ fuel) : LoopEnds deps (rounds fuel deps) := by
  induction fuel generalizing deps with
  | zero =>
    obtain rfl : deps = [] := by
      apply List.eq_nil_of_length_eq_zero
      omega
    exact .done
  | succ fuel ih =>
    by_cases hdeps : deps = []
    · subst hdeps
      exact .done
    · obtain ⟨entry, tail, rfl⟩ := List.exists_cons_of_ne_nil hdeps
      unfold rounds
      by_cases hready : ready (entry :: tail) = []
      · rw [hready]
        exact .stuck hdeps hready
      · rw [if_neg (by simpa using hready)]
        have hless := length_release_lt hready
        apply LoopEnds.round hready
        apply ih
        omega

end Loop

/-- INTERNAL: erasing repetitions leaves at most as many. -/
theorem length_eraseDups_le (ids : List String) : ids.eraseDups.length ≤ ids.length := by
  induction h : ids.length using Nat.strong_induction_on generalizing ids with
  | _ n ih =>
    subst h
    cases ids with
    | nil => simp
    | cons id rest =>
      have hfilter := List.length_filter_le (fun other => !other == id) rest
      have hrest := ih (rest.filter fun other => !other == id).length
        (by rw [List.length_cons]; omega) _ rfl
      rw [List.eraseDups_cons, List.length_cons, List.length_cons]
      omega

/-! ## Finding something ready -/

/-- An id waits for another one. -/
def WaitsFor (deps : Waiting) (a b : String) : Prop := ∃ d, (a, d) ∈ deps ∧ b ∈ d

/-- No id leads back to itself. -/
def Acyclic (r : String → String → Prop) : Prop := ∀ a, ¬ Relation.TransGen r a a

section Acyclic

variable {deps : Waiting}

/-- INTERNAL: a nonempty finite part of an acyclic relation has an element that leads to no other one
of the part. -/
theorem exists_minimal_of_acyclic {r : String → String → Prop} (h : Acyclic r) {ids : List String}
    (hids : ids ≠ []) : ∃ a ∈ ids, ∀ b ∈ ids, ¬ r a b := by
  -- the closure of the relation, on the ids of the list, is transitive and irreflexive
  let less : {a // a ∈ ids} → {a // a ∈ ids} → Prop := fun b a => Relation.TransGen r a.1 b.1
  have htrans : IsTrans _ less := ⟨fun _ _ _ hba hcb => hcb.trans hba⟩
  have hirrefl : Std.Irrefl less := ⟨fun a => h a.1⟩
  have hfounded : WellFounded less := Finite.wellFounded_of_trans_of_irrefl less
  obtain ⟨first, hfirst⟩ := List.exists_mem_of_ne_nil _ hids
  obtain ⟨⟨a, ha⟩, -, hminimal⟩ := hfounded.has_min Set.univ ⟨⟨first, hfirst⟩, trivial⟩
  refine ⟨a, ha, ?_⟩
  intro b hb hab
  exact hminimal ⟨b, hb⟩ trivial (.single hab)

/-- INTERNAL: what is left waits for less. -/
theorem waitsFor_release {done : List String} {a b : String}
    (h : WaitsFor (release done deps) a b) : WaitsFor deps a b := by
  obtain ⟨d, hmem, hb⟩ := h
  obtain ⟨d', hin, -, rfl⟩ := mem_release.mp hmem
  exact ⟨d', hin, (List.mem_filter.mp hb).1⟩

/-- INTERNAL: and only for what is left. -/
theorem closed_release {done : List String}
    (hclosed : ∀ a b, WaitsFor deps a b → b ∈ deps.map Prod.fst) {a b : String}
    (h : WaitsFor (release done deps) a b) : b ∈ (release done deps).map Prod.fst := by
  rw [map_fst_release]
  obtain ⟨d, hmem, hb⟩ := h
  obtain ⟨d', hin, -, rfl⟩ := mem_release.mp hmem
  obtain ⟨hb', hout⟩ := List.mem_filter.mp hb
  exact List.mem_filter.mpr ⟨hclosed a b ⟨d', hin, hb'⟩, hout⟩

/-- INTERNAL: every round finds something. -/
theorem ready_ne_nil (hclosed : ∀ a b, WaitsFor deps a b → b ∈ deps.map Prod.fst)
    (hacyclic : Acyclic (WaitsFor deps)) (hdeps : deps ≠ []) : ready deps ≠ [] := by
  have hids : deps.map Prod.fst ≠ [] := by simpa using hdeps
  obtain ⟨a, ha, hnone⟩ := exists_minimal_of_acyclic hacyclic hids
  obtain ⟨⟨a, d⟩, hmem, rfl⟩ := List.mem_map.mp ha
  have hempty : d = [] := by
    apply List.eq_nil_iff_forall_not_mem.mpr
    intro b hb
    exact hnone b (hclosed a b ⟨d, hmem, hb⟩) ⟨d, hmem, hb⟩
  subst hempty
  exact List.ne_nil_of_mem (mem_ready.mpr hmem)

/-- The rounds come to an order when the dependencies stay among the ids and never lead back. -/
theorem rounds_of_acyclic {fuel : ℕ} (hfuel : deps.length ≤ fuel)
    (hclosed : ∀ a b, WaitsFor deps a b → b ∈ deps.map Prod.fst)
    (hacyclic : Acyclic (WaitsFor deps)) : ∃ ids, rounds fuel deps = .ok ids := by
  induction fuel generalizing deps with
  | zero =>
    obtain rfl : deps = [] := by
      apply List.eq_nil_of_length_eq_zero
      omega
    exact ⟨[], rfl⟩
  | succ fuel ih =>
    by_cases hdeps : deps = []
    · subst hdeps
      exact ⟨[], rfl⟩
    · have hready := ready_ne_nil hclosed hacyclic hdeps
      have hless := length_release_lt hready
      have hless_rel : WaitsFor (release (ready deps) deps) ≤ WaitsFor deps :=
        fun _ _ h => waitsFor_release h
      have hreleased : Acyclic (WaitsFor (release (ready deps) deps)) := by
        intro a hcycle
        exact hacyclic a (Relation.TransGen.mono hless_rel _ _ hcycle)
      obtain ⟨rest, hrest⟩ := ih (by omega) (fun _ _ => closed_release hclosed) hreleased
      obtain ⟨entry, tail, rfl⟩ := List.exists_cons_of_ne_nil hdeps
      unfold rounds
      rw [if_neg (by simpa using hready), hrest]
      exact ⟨_, rfl⟩

/-- An order rules out cycles: whatever leads to an id stands before it. -/
theorem acyclic_of_rounds {fuel : ℕ} {ids : List String} (hdistinct : (deps.map Prod.fst).Nodup)
    (h : rounds fuel deps = .ok ids) : Acyclic (WaitsFor deps) := by
  have hperm := rounds_perm hdistinct h
  have hids : ids.Nodup := hperm.nodup_iff.mpr hdistinct
  have hstep : ∀ a b, WaitsFor deps a b → ids.idxOf b < ids.idxOf a := by
    rintro a b ⟨d, hmem, hb⟩
    have ha : a ∈ ids := hperm.symm.subset (List.mem_map_of_mem hmem)
    obtain ⟨before, after, hsplit⟩ := List.append_of_mem ha
    have hbefore := rounds_before hdistinct h hsplit hmem b hb
    have hout : a ∉ before := by
      intro hin
      rw [hsplit] at hids
      exact (List.nodup_append.mp hids).2.2 a hin a (List.mem_cons_self ..) rfl
    rw [hsplit, List.idxOf_append_of_mem hbefore, List.idxOf_append_of_notMem hout,
      List.idxOf_cons_self]
    have hless := List.idxOf_lt_length_of_mem hbefore
    omega
  have hpath : ∀ a b, Relation.TransGen (WaitsFor deps) a b → ids.idxOf b < ids.idxOf a := by
    intro a b hab
    induction hab with
    | single h => exact hstep _ _ h
    | tail _ h ih => exact (hstep _ _ h).trans ih
  intro a hcycle
  exact absurd (hpath a a hcycle) (lt_irrefl _)

end Acyclic

/-! ## The graph of a plan -/

/-- A step depends on another one. -/
def StepDependsOn (plan : Plan) (a b : String) : Prop :=
  ∃ step ∈ plan.steps, step.id = a ∧ b ∈ step.dependsOn

/-- Whatever a step depends on is a step of the plan, and no step depends on itself, directly or not. -/
structure Orderable (plan : Plan) : Prop where
  present : ∀ step ∈ plan.steps, ∀ other ∈ step.dependsOn, other ∈ plan.steps.map PlanStep.id
  acyclic : Acyclic (StepDependsOn plan)

/-- The graph entries of the step can be converted: `dict()` accepts its compensation arguments, `str()`
its action and its failure policy. -/
structure EntriesConvert (step : PlanStep) : Prop where
  action : (actionOf step).prints = true
  compensation : (dictOr ((metaOf step).get "compensation_arguments")).isOk = true
  policy : (policyOf step).prints = true

/-- Every node once, after all the nodes it depends on. -/
structure InOrder (nodes ordered : List OperationNode) : Prop where
  perm : ordered.Perm nodes
  after : ∀ before node rest, ordered = before ++ node :: rest →
    ∀ other ∈ node.dependsOn, ∃ earlier ∈ before, earlier.stepId = other

section Graph

variable {py : Stdlib} {plan : Plan} {nodes ordered : List OperationNode}

/-- INTERNAL: `str()` accepts what can be printed. -/
theorem strOf_isOk_iff (py : Stdlib) {value : Value} :
    (∃ text, strOf py value = .ok text) ↔ value.prints = true := by
  unfold strOf
  split <;> simp_all

/-- INTERNAL: a node can be built when its entries can be converted. -/
theorem nodeOf_isOk_iff (py : Stdlib) {step : PlanStep} :
    (∃ node, nodeOf py step = .ok node) ↔ EntriesConvert step := by
  constructor
  · rintro ⟨node, h⟩
    unfold nodeOf at h
    cases haction : strOf py (actionOf step) with
    | error e =>
      rw [haction] at h
      cases h
    | ok action =>
      cases hcompensation : dictOr ((metaOf step).get "compensation_arguments") with
      | error e =>
        rw [haction, hcompensation] at h
        cases h
      | ok entries =>
        cases hpolicy : strOf py (policyOf step) with
        | error e =>
          rw [haction, hcompensation, hpolicy] at h
          cases h
        | ok policy =>
          exact ⟨(strOf_isOk_iff py).mp ⟨action, haction⟩, by rw [hcompensation]; rfl,
            (strOf_isOk_iff py).mp ⟨policy, hpolicy⟩⟩
  · intro h
    obtain ⟨action, haction⟩ := (strOf_isOk_iff py).mpr h.action
    obtain ⟨policy, hpolicy⟩ := (strOf_isOk_iff py).mpr h.policy
    have hcompensation := h.compensation
    unfold nodeOf
    cases hentries : dictOr ((metaOf step).get "compensation_arguments") with
    | error e =>
      rw [hentries] at hcompensation
      cases hcompensation
    | ok entries =>
      rw [haction, hpolicy]
      exact ⟨_, rfl⟩

/-- INTERNAL: so it is for the nodes. -/
theorem nodesOf_isOk_iff (steps : List PlanStep) :
    (∃ nodes, nodesOf py steps = .ok nodes) ↔ ∀ step ∈ steps, EntriesConvert step := by
  induction steps with
  | nil => simp [nodesOf]
  | cons step rest ih =>
    have hcons : nodesOf py (step :: rest) = (nodeOf py step >>= fun node =>
        nodesOf py rest >>= fun nodes => pure (node :: nodes)) := rfl
    rw [List.forall_mem_cons, ← nodeOf_isOk_iff py, ← ih, hcons]
    cases nodeOf py step with
    | error e => simp [bind, Except.bind]
    | ok node =>
      cases nodesOf py rest with
      | error e => simp [bind, Except.bind]
      | ok nodes => simp [bind, Except.bind, pure, Except.pure]

/-- INTERNAL: no dependency is missing.
SOURCE: execution/operation_graph.py:54-59 -/
theorem checkDependencies_isOk_iff : checkDependencies nodes = .ok () ↔
    ∀ node ∈ nodes, ∀ other ∈ node.dependsOn, other ∈ nodes.map (·.stepId) := by
  unfold checkDependencies
  split
  · next hnone =>
    simp only [List.findSome?_eq_none_iff, Option.map_eq_none_iff, List.find?_eq_none] at hnone
    simpa [List.any_eq_true] using hnone
  · next stepId missing hsome =>
    obtain ⟨node, hnode, hfound⟩ := List.exists_of_findSome?_eq_some hsome
    obtain ⟨other, hother, -⟩ := Option.map_eq_some_iff.mp hfound
    have hmissing := List.find?_some hother
    constructor
    · intro h
      cases h
    · intro h
      have hin := h node hnode other (List.mem_of_find?_eq_some hother)
      simp only [Bool.not_eq_true', List.mem_map] at hmissing hin
      obtain ⟨present, hpresent, hid⟩ := hin
      simp only [List.any_eq_false, decide_eq_true_eq] at hmissing
      exact absurd hid (hmissing present hpresent)

/-- INTERNAL: a valid graph, by its pairs of ids and dependencies. -/
theorem validate_isOk_iff (hdistinct : (nodes.map (·.stepId)).Nodup) :
    validate nodes = .ok () ↔
      (∀ node ∈ nodes, ∀ other ∈ node.dependsOn, other ∈ nodes.map (·.stepId)) ∧
        Acyclic (WaitsFor (nodes.map fun node => (node.stepId, node.dependsOn))) := by
  have hkeys : ((nodes.map fun node => (node.stepId, node.dependsOn)).map Prod.fst).Nodup := by
    simpa [List.map_map, Function.comp_def] using hdistinct
  unfold validate
  constructor
  · intro h
    cases hpresent : checkDependencies nodes with
    | error e => simp [hpresent, bind, Except.bind] at h
    | ok _ =>
      cases horder : topologicalOrder nodes with
      | error e => simp [hpresent, horder, bind, Except.bind] at h
      | ok ordered =>
        obtain ⟨-, hrounds⟩ := topologicalOrder_ids hdistinct horder
        exact ⟨checkDependencies_isOk_iff.mp hpresent, acyclic_of_rounds hkeys hrounds⟩
  · rintro ⟨hpresent, hacyclic⟩
    have hclosed : ∀ a b, WaitsFor (nodes.map fun node => (node.stepId, node.dependsOn)) a b →
        b ∈ (nodes.map fun node => (node.stepId, node.dependsOn)).map Prod.fst := by
      rintro a b ⟨d, hmem, hb⟩
      obtain ⟨node, hnode, heq⟩ := List.mem_map.mp hmem
      obtain ⟨-, rfl⟩ := Prod.mk.inj heq
      simpa [List.map_map, Function.comp_def] using hpresent node hnode b hb
    have hfuel : (nodes.map fun node => (node.stepId, node.dependsOn)).length ≤ nodes.length := by
      simp
    obtain ⟨ids, hids⟩ := rounds_of_acyclic hfuel hclosed hacyclic
    rw [checkDependencies_isOk_iff.mpr hpresent]
    unfold topologicalOrder
    rw [waiting_eq hdistinct, hids]
    rfl

/-- INTERNAL: the order of a graph that has one.
SOURCE: execution/operation_graph.py:63-79 -/
theorem inOrder_of_topologicalOrder (hdistinct : (nodes.map (·.stepId)).Nodup)
    (h : topologicalOrder nodes = .ok ordered) : InOrder nodes ordered := by
  have hkeys : ((nodes.map fun node => (node.stepId, node.dependsOn)).map Prod.fst).Nodup := by
    simpa [List.map_map, Function.comp_def] using hdistinct
  obtain ⟨hids, hrounds⟩ := topologicalOrder_ids hdistinct h
  have hsubset : ∀ node ∈ ordered, node ∈ nodes := by
    unfold topologicalOrder at h
    cases hround : rounds nodes.length (waiting nodes) with
    | error e =>
      rw [hround] at h
      cases h
    | ok ids =>
      rw [hround] at h
      obtain rfl := Except.ok.inj h
      intro node hnode
      obtain ⟨id, -, hfound⟩ := List.mem_filterMap.mp hnode
      exact List.mem_reverse.mp (List.mem_of_find?_eq_some hfound)
  constructor
  · apply (List.perm_ext_iff_of_nodup (.of_map _ (hids.nodup_iff.mpr hdistinct))
      (.of_map _ hdistinct)).mpr
    intro node
    refine ⟨hsubset node, ?_⟩
    intro hnode
    obtain ⟨other, hother, hid⟩ := List.mem_map.mp (hids.symm.subset (List.mem_map_of_mem hnode))
    obtain rfl := List.inj_on_of_nodup_map hdistinct (hsubset other hother) hnode hid
    exact hother
  · intro before node rest hsplit other hother
    have hnode : node ∈ nodes := hsubset node (by rw [hsplit]; simp)
    have hmap : ordered.map (·.stepId) =
        before.map (·.stepId) ++ node.stepId :: rest.map (·.stepId) := by
      rw [hsplit, List.map_append, List.map_cons]
    have hearlier := rounds_before hkeys hrounds hmap
      (List.mem_map_of_mem hnode (f := fun node => (node.stepId, node.dependsOn))) other hother
    exact List.mem_map.mp hearlier

/-- A graph is accepted exactly when its dependencies can be ordered and its entries converted; then its
order has every node once, after those it depends on; and the loop ends on every input.
SOURCE: execution/operation_graph.py:29-79 -/
theorem graph_ordered (hdistinct : (plan.steps.map PlanStep.id).Nodup) :
    ((∃ nodes, fromPlan py plan = .ok nodes) ↔
      Orderable plan ∧ ∀ step ∈ plan.steps, EntriesConvert step) ∧
    (∀ nodes, fromPlan py plan = .ok nodes →
      ∃ ordered, topologicalOrder nodes = .ok ordered ∧ InOrder nodes ordered) ∧
    ∀ nodes : List OperationNode, LoopEnds (waiting nodes) (rounds nodes.length (waiting nodes)) := by
  have hnodes_distinct : ∀ nodes, nodesOf py plan.steps = .ok nodes →
      (nodes.map (·.stepId)).Nodup := by
    intro nodes h
    have hpairs := congrArg (List.map Prod.fst) (nodesOf_returned h)
    have hids : nodes.map (·.stepId) = plan.steps.map PlanStep.id := by
      simpa [List.map_map, Function.comp_def] using hpairs
    rwa [hids]
  have hvalid : ∀ nodes, nodesOf py plan.steps = .ok nodes →
      (validate nodes = .ok () ↔ Orderable plan) := by
    intro nodes h
    have hpairs := nodesOf_returned h
    have hids : nodes.map (·.stepId) = plan.steps.map PlanStep.id := by
      simpa [List.map_map, Function.comp_def] using congrArg (List.map Prod.fst) hpairs
    have hsame : WaitsFor (nodes.map fun node => (node.stepId, node.dependsOn)) =
        StepDependsOn plan := by
      funext a b
      rw [hpairs]
      simp [WaitsFor, StepDependsOn, and_assoc]
    have hpresent : (∀ node ∈ nodes, ∀ other ∈ node.dependsOn, other ∈ nodes.map (·.stepId)) ↔
        ∀ step ∈ plan.steps, ∀ other ∈ step.dependsOn, other ∈ plan.steps.map PlanStep.id := by
      rw [hids]
      have hdeps : nodes.map (·.dependsOn) = plan.steps.map PlanStep.dependsOn := by
        simpa [List.map_map, Function.comp_def] using congrArg (List.map Prod.snd) hpairs
      have hall : ∀ p : List String → Prop,
          (∀ node ∈ nodes, p node.dependsOn) ↔ ∀ step ∈ plan.steps, p step.dependsOn := by
        intro p
        rw [← List.forall_mem_map (f := OperationNode.dependsOn) (P := p), hdeps, List.forall_mem_map]
      exact hall fun deps => ∀ other ∈ deps, other ∈ plan.steps.map PlanStep.id
    rw [validate_isOk_iff (hnodes_distinct nodes h), hsame, hpresent]
    constructor
    · intro h
      exact ⟨h.1, h.2⟩
    · intro h
      exact ⟨h.present, h.acyclic⟩
  refine ⟨⟨?_, ?_⟩, ?_, ?_⟩
  · rintro ⟨nodes, h⟩
    have hnodes := fromPlan_returned h
    exact ⟨(hvalid nodes hnodes).mp (fromPlan_valid h), (nodesOf_isOk_iff _).mp ⟨nodes, hnodes⟩⟩
  · rintro ⟨horderable, hconverts⟩
    obtain ⟨nodes, hnodes⟩ : ∃ nodes, nodesOf py plan.steps = .ok nodes :=
      (nodesOf_isOk_iff _).mpr hconverts
    refine ⟨nodes, ?_⟩
    unfold fromPlan
    rw [hnodes]
    simp [bind, Except.bind, (hvalid nodes hnodes).mpr horderable, pure, Except.pure]
  · intro nodes h
    obtain ⟨ordered, hordered⟩ := topologicalOrder_of_fromPlan h
    exact ⟨ordered, hordered,
      inOrder_of_topologicalOrder (hnodes_distinct nodes (fromPlan_returned h)) hordered⟩
  · intro nodes
    apply loopEnds_rounds
    unfold waiting
    rw [List.length_map]
    simpa using length_eraseDups_le (nodes.map (·.stepId))

end Graph

/-- Two notes, the first one after the second. -/
def notesPlan : Plan :=
  { id := "plan"
    taskId := "task"
    objective := "take two notes"
    steps := [
      { id := "b", planId := "plan", order := 0, description := "", tool := "notes",
        dependsOn := ["a", "a"] },
      { id := "a", planId := "plan", order := 1, description := "", tool := "notes" }] }

/-- They have an order. -/
theorem notesPlan_ordered : ∃ nodes ordered, fromPlan .plain notesPlan = .ok nodes ∧
    topologicalOrder nodes = .ok ordered ∧ InOrder nodes ordered := by
  have hdistinct : (notesPlan.steps.map PlanStep.id).Nodup := by decide
  have hdepends : ∀ a b, StepDependsOn notesPlan a b → a = "b" ∧ b = "a" := by
    rintro a b ⟨step, hstep, rfl, hb⟩
    simp only [notesPlan, List.mem_cons, List.not_mem_nil, or_false] at hstep
    rcases hstep with rfl | rfl
    · simpa using hb
    · simp at hb
  have hlast : ∀ a b, Relation.TransGen (StepDependsOn notesPlan) a b → a = "b" ∧ b = "a" := by
    intro a b h
    induction h with
    | single h => exact hdepends _ _ h
    | tail _ h ih => exact ⟨ih.1, (hdepends _ _ h).2⟩
  have horderable : Orderable notesPlan := by
    constructor
    · decide
    · intro a hcycle
      obtain ⟨hb, ha⟩ := hlast a a hcycle
      exact absurd (hb.symm.trans ha) (by decide)
  have hconverts : ∀ step ∈ notesPlan.steps, EntriesConvert step := by
    intro step hstep
    simp only [notesPlan, List.mem_cons, List.not_mem_nil, or_false] at hstep
    rcases hstep with rfl | rfl <;> exact ⟨rfl, rfl, rfl⟩
  obtain ⟨haccepted, horder, -⟩ := graph_ordered hdistinct
  obtain ⟨nodes, hnodes⟩ := haccepted.mpr ⟨horderable, hconverts⟩
  obtain ⟨ordered, hordered⟩ := horder nodes hnodes
  exact ⟨nodes, ordered, hnodes, hordered⟩

/-- A step on its own, with a number for compensation arguments. -/
def oddPlan : Plan :=
  { id := "plan"
    taskId := "task"
    objective := "take a note"
    steps := [
      { id := "a", planId := "plan", order := 0, description := "", tool := "notes",
        arguments := [("_graph", .dict [("compensation_arguments", .int 5)])] }] }

/-- No dependency is missing and there is no cycle, but the graph is refused. -/
theorem odd_compensation_refused :
    (oddPlan.steps.map PlanStep.id).Nodup ∧ Orderable oddPlan ∧
      ¬ ∃ nodes, fromPlan .plain oddPlan = .ok nodes := by
  have hnone : ∀ a b, ¬ StepDependsOn oddPlan a b := by
    rintro a b ⟨step, hstep, -, hb⟩
    simp only [oddPlan, List.mem_cons, List.not_mem_nil, or_false] at hstep
    subst hstep
    simp at hb
  refine ⟨by decide, ⟨by decide, ?_⟩, ?_⟩
  · intro a hcycle
    obtain ⟨b, hab, -⟩ := Relation.TransGen.head'_iff.mp hcycle
    exact hnone a b hab
  · rintro ⟨nodes, hnodes⟩
    have hrefused : (fromPlan .plain oddPlan).isOk = false := by decide
    rw [hnodes] at hrefused
    cases hrefused

end Shea.Analysis
