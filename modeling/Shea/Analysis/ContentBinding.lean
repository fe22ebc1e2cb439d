import Shea.Analysis.Bindings
import Shea.Analysis.IdempotencyKeys
import Shea.Analysis.JsonTexts
import Shea.Analysis.Mismatches
import Shea.Analysis.PlanHistories
import Shea.Analysis.PlanStore

/-!
# What an authorization is bound to

An authorization carries the hashes of a plan, of one of its steps and of the arguments of the step.
They are hashes of JSON texts with sorted keys, so two plans have the same hash if and only if they
have the same content: id, objective and, step by step, id, tool and arguments. Before a request is
executed the hashes are compared with those of the stored plan and of the request.
-/

set_option autoImplicit false

namespace Shea.Analysis

open Shea.Computation Shea.Model

/-! ## Hashes, their check, and the grant -/

/-- Two steps with the same id and tool and arguments of the same content. -/
structure SameStep (a b : PlanStep) : Prop where
  id : a.id = b.id
  tool : a.tool = b.tool
  arguments : (Value.dict a.arguments).canon = (Value.dict b.arguments).canon

/-- Two plans with the same id, objective and steps. -/
structure SameContent (a b : Plan) : Prop where
  id : a.id = b.id
  objective : a.objective = b.objective
  steps : List.Forall₂ SameStep a.steps b.steps

/-- No two texts have the same SHA-256 hash, and floats are written as `json` writes them. -/
structure HashesTellApart (py : Stdlib) : Prop where
  sha256 : Function.Injective py.sha256
  floats : FloatTexts py

section Hashes

variable {py : Stdlib}

/-- INTERNAL: a hash tells the content.
SOURCE: security/binding.py:40-46 -/
theorem computeHash_eq_iff (hpy : HashesTellApart py) {a b : Value} :
    computeHash py a = computeHash py b ↔ a.canon = b.canon := by
  unfold computeHash
  rw [hpy.sha256.eq_iff, dumps_eq_iff hpy.floats rfl]

/-- INTERNAL: the keys of a step, sorted. -/
theorem sortEntries_stepKeys {α : Type} (a b c : α) :
    sortEntries [("id", a), ("tool", b), ("arguments", c)] =
      [("arguments", c), ("id", a), ("tool", b)] := by
  have hid : "id" ≤ "arguments" ↔ False := by decide +kernel
  have htool : "tool" ≤ "arguments" ↔ False := by decide +kernel
  have hkept : "id" ≤ "tool" := by decide +kernel
  simp [sortEntries, hid, htool, hkept]

/-- INTERNAL: the keys of a plan are sorted. -/
theorem sortEntries_planKeys {α : Type} (a b c : α) :
    sortEntries [("id", a), ("objective", b), ("steps", c)] =
      [("id", a), ("objective", b), ("steps", c)] := by
  have hsorted : [("id", a), ("objective", b), ("steps", c)].Pairwise fun x y => x.1 ≤ y.1 := by
    have hobjective : "id" ≤ "objective" := by decide +kernel
    have hsteps : "id" ≤ "steps" ∧ "objective" ≤ "steps" := by decide +kernel
    simp [hobjective, hsteps]
  exact hsorted.insertionSort_eq

/-- INTERNAL: the content of what a step is hashed as. -/
theorem canon_stepData_eq_iff {a b : PlanStep} :
    (stepData a).canon = (stepData b).canon ↔ SameStep a b := by
  have hsorted : ∀ step : PlanStep, (stepData step).canon =
      .dict [("arguments", (Value.dict step.arguments).canon), ("id", .str step.id),
        ("tool", .str step.tool)] := by
    intro step
    unfold stepData
    rw [Value.canon_dict]
    exact congrArg Value.dict (sortEntries_stepKeys _ _ _)
  rw [hsorted, hsorted]
  constructor
  · intro h
    have hentries := Value.dict.inj h
    simp only [List.cons.injEq, Prod.mk.injEq, true_and, Value.str.injEq, and_true] at hentries
    exact ⟨hentries.2.1, hentries.2.2, hentries.1⟩
  · intro h
    rw [h.id, h.tool, h.arguments]

/-- Two steps have the same hash if and only if they have the same content.
SOURCE: security/binding.py:66-73 -/
theorem computeStepHash_eq_iff (hpy : HashesTellApart py) {a b : PlanStep} :
    computeStepHash py a = computeStepHash py b ↔ SameStep a b := by
  unfold computeStepHash
  rw [computeHash_eq_iff hpy, canon_stepData_eq_iff]

/-- Two plans have the same hash if and only if they have the same content.
SOURCE: security/binding.py:49-63 -/
theorem computePlanHash_eq_iff (hpy : HashesTellApart py) {a b : Plan} :
    computePlanHash py a = computePlanHash py b ↔ SameContent a b := by
  have hsorted : ∀ plan : Plan, (Value.dict [("id", .str plan.id), ("objective", .str plan.objective),
      ("steps", .list (plan.steps.map stepData))]).canon =
      .dict [("id", .str plan.id), ("objective", .str plan.objective),
        ("steps", .list (plan.steps.map fun step => (stepData step).canon))] := by
    intro plan
    rw [Value.canon_dict]
    simp only [List.map_cons, List.map_nil, Value.canon_list, List.map_map]
    exact congrArg Value.dict (sortEntries_planKeys _ _ _)
  have hsteps : a.steps.map (fun step => (stepData step).canon) =
      b.steps.map (fun step => (stepData step).canon) ↔ List.Forall₂ SameStep a.steps b.steps := by
    rw [← List.forall₂_eq_eq_eq, List.forall₂_map_left_iff, List.forall₂_map_right_iff]
    exact ⟨fun h => h.imp fun _ _ => canon_stepData_eq_iff.mp,
      fun h => h.imp fun _ _ => canon_stepData_eq_iff.mpr⟩
  unfold computePlanHash
  rw [computeHash_eq_iff hpy, hsorted, hsorted]
  constructor
  · intro h
    have hentries := Value.dict.inj h
    simp only [List.cons.injEq, Prod.mk.injEq, true_and, Value.str.injEq, Value.list.injEq,
      and_true] at hentries
    exact ⟨hentries.1, hentries.2.1, hsteps.mp hentries.2.2⟩
  · intro h
    rw [h.id, h.objective, hsteps.mpr h.steps]

end Hashes

/-- The authorization carries the hashes of the plan, the step and the arguments of the step. -/
structure BoundTo (py : Stdlib) (plan : Plan) (step : PlanStep) (auth : Authorization) : Prop where
  planHash : auth.planHash = some (computePlanHash py plan)
  stepHash : auth.stepHash = some (computeStepHash py step)
  argumentsHash : auth.argumentsHash = some (computeArgumentsHash py step.arguments)

/-- The stored plan has the content of the plan, and the request asks for what the step says. -/
structure Unaltered (plan : Plan) (step : PlanStep) (stored : Option Plan) (request : ToolRequest) :
    Prop where
  plan : ∃ current, stored = some current ∧ SameContent plan current
  tool : request.toolIsText = true ∧ request.tool = step.tool
  arguments : (Value.dict step.arguments).canon = (Value.dict request.arguments).canon

section Checks

variable {py : Stdlib} {plan : Plan} {step : PlanStep} {auth : Authorization} {task : Task}
  {request : ToolRequest} {stored : Option Plan}

/-- INTERNAL: the check raises nothing but a mismatch.
SOURCE: execution/service.py:510-555 -/
theorem checkHashes_mismatch {e : Err} (h : checkHashes py task request auth stored = .error e) :
    IsMismatch e := by
  have hplan : ∀ e, checkPlanHash py task auth stored = .error e → IsMismatch e := by
    intro e he
    unfold checkPlanHash at he
    split at he
    · cases he
    · split at he
      · cases he
      · exact Except.error.inj he ▸ trivial
  have hstep : ∀ e, checkStepHash py task request auth stored = .error e → IsMismatch e := by
    intro e he
    unfold checkStepHash at he
    split at he
    · cases he
    · split at he
      · cases he
      · exact Except.error.inj he ▸ trivial
  have harguments : ∀ e, checkArgumentsHash py task request auth = .error e → IsMismatch e := by
    intro e he
    unfold checkArgumentsHash at he
    split at he
    · cases he
    · split at he
      · cases he
      · exact Except.error.inj he ▸ trivial
  unfold checkHashes at h
  cases hfirst : checkPlanHash py task auth stored with
  | error e' =>
    rw [hfirst] at h
    exact Except.error.inj h ▸ hplan e' hfirst
  | ok _ =>
    rw [hfirst] at h
    cases hsecond : checkStepHash py task request auth stored with
    | error e' =>
      rw [hsecond] at h
      exact Except.error.inj h ▸ hstep e' hsecond
    | ok _ =>
      rw [hsecond] at h
      exact harguments e h

/-- INTERNAL: the check passes for what was authorized, and for nothing else.
SOURCE: execution/service.py:510-555 -/
theorem checkHashes_ok_iff (hpy : HashesTellApart py) (hbound : BoundTo py plan step auth)
    (hmem : step ∈ plan.steps) :
    checkHashes py task request auth stored = .ok () ↔ Unaltered plan step stored request := by
  have hplan : checkPlanHash py task auth stored = .ok () ↔
      ∃ current, stored = some current ∧ SameContent plan current := by
    unfold checkPlanHash
    rw [hbound.planHash]
    dsimp only
    constructor
    · intro h
      split at h
      next heq =>
        obtain ⟨current, hcurrent, hsame⟩ := Option.map_eq_some_iff.mp heq
        exact ⟨current, hcurrent, (computePlanHash_eq_iff hpy).mp hsame.symm⟩
      · cases h
    · rintro ⟨current, rfl, hsame⟩
      exact if_pos (congrArg some ((computePlanHash_eq_iff hpy).mpr hsame).symm)
  have hstep : (∃ current, stored = some current ∧ SameContent plan current) →
      (checkStepHash py task request auth stored = .ok () ↔
        request.toolIsText = true ∧ request.tool = step.tool) := by
    rintro ⟨current, rfl, hsame⟩
    unfold checkStepHash hasStep
    rw [hbound.stepHash]
    dsimp only
    rw [Option.any_some]
    constructor
    · intro h
      split at h
      next hany =>
        obtain ⟨other, -, hother⟩ := List.any_eq_true.mp hany
        rw [Bool.and_eq_true, Bool.and_eq_true, decide_eq_true_eq, decide_eq_true_eq,
          computeStepHash_eq_iff hpy] at hother
        exact ⟨hother.1.1, hother.1.2.symm.trans hother.2.tool⟩
      · cases h
    · rintro ⟨htext, htool⟩
      obtain ⟨i, hi, rfl⟩ := List.getElem_of_mem hmem
      have hlength := hsame.steps.length_eq
      have hother := (List.forall₂_iff_get.mp hsame.steps).2 i hi (hlength ▸ hi)
      refine if_pos (List.any_eq_true.mpr ⟨current.steps.get ⟨i, hlength ▸ hi⟩, List.get_mem _ _, ?_⟩)
      rw [Bool.and_eq_true, Bool.and_eq_true, decide_eq_true_eq, decide_eq_true_eq]
      exact ⟨⟨htext, hother.tool.symm.trans htool.symm⟩, ((computeStepHash_eq_iff hpy).mpr hother).symm⟩
  have harguments : checkArgumentsHash py task request auth = .ok () ↔
      (Value.dict step.arguments).canon = (Value.dict request.arguments).canon := by
    unfold checkArgumentsHash
    rw [hbound.argumentsHash]
    dsimp only
    constructor
    · intro h
      split at h
      next heq => exact (computeHash_eq_iff hpy).mp heq
      · cases h
    · exact fun hsame => if_pos ((computeHash_eq_iff hpy).mpr hsame)
  have hall : checkHashes py task request auth stored = .ok () ↔
      checkPlanHash py task auth stored = .ok () ∧ checkStepHash py task request auth stored = .ok () ∧
        checkArgumentsHash py task request auth = .ok () := by
    unfold checkHashes
    rcases checkPlanHash py task auth stored with e | ⟨⟩
    · exact ⟨fun h => (nomatch h), fun h => (nomatch h.1)⟩
    · rcases checkStepHash py task request auth stored with e | ⟨⟩
      · exact ⟨fun h => (nomatch h), fun h => (nomatch h.2.1)⟩
      · exact ⟨fun h => ⟨rfl, rfl, h⟩, fun h => h.2.2⟩
  rw [hall, hplan, harguments]
  constructor
  · rintro ⟨hcurrent, htool, hargs⟩
    exact ⟨hcurrent, (hstep hcurrent).mp htool, hargs⟩
  · intro h
    exact ⟨h.plan, (hstep h.plan).mpr h.tool, h.arguments⟩

end Checks

/-- The authorization is asked for the plan, given or stored, for the step, given or the first one, and
for the arguments of the step. -/
structure AsksFor (plan : Plan) (step : PlanStep) (task : Task) (request : AuthorizationRequest)
    (t : Tables) : Prop where
  asked : request.plan = some plan ∨
    request.plan = none ∧ task.planId.isSome = true ∧ PlanRepository.ofTables t task.id = some plan
  chosen : request.step = some step ∨ request.step = none ∧ plan.steps.head? = some step
  given : request.arguments = some step.arguments ∨ request.arguments = none

section Grants

variable {host : Host} {plan : Plan} {step : PlanStep} {task : Task} {w t : World}

/-- INTERNAL: the hashes in an authorization.
SOURCE: decision/service.py:241-315 -/
theorem resolveAuthorization_bound {decision : Decision} {assessment : RiskAssessment}
    {request : AuthorizationRequest} {auth : Authorization}
    (hasks : AsksFor plan step task request w.working)
    (h : (DecisionService.resolveAuthorization host task decision assessment request).run w =
      (.ok auth, t)) :
    BoundTo host.py plan step auth ∧ auth.expiresAt.isSome = true := by
  obtain ⟨resolved, w₁, hplan, h⟩ := Program.run_bind_ok h
  have hresolved : resolved = some plan := by
    unfold DecisionService.resolvedPlan at hplan
    rcases hasks.asked with hgiven | ⟨hnone, htask, hstored⟩
    · rw [hgiven] at hplan
      exact (Except.ok.inj (congrArg Prod.fst hplan)).symm
    · rw [hnone] at hplan
      dsimp only at hplan
      rw [if_pos htask] at hplan
      have hread : PlanRepository.ofTables w.working task.id = resolved :=
        Except.ok.inj (congrArg Prod.fst hplan)
      exact hread.symm.trans hstored
  subst hresolved
  obtain ⟨nonce, w₂, -, h⟩ := Program.run_bind_ok h
  obtain ⟨at_, w₃, -, h⟩ := Program.run_bind_ok h
  have hstep : (request.step <|> plan.steps.head?) = some step := by
    rcases hasks.chosen with hgiven | ⟨hnone, hfirst⟩
    · rw [hgiven]
      rfl
    · rw [hnone, hfirst]
      rfl
  have harguments : request.arguments.getD step.arguments = step.arguments := by
    rcases hasks.given with hgiven | hnone
    · rw [hgiven]
      rfl
    · rw [hnone]
      rfl
  have hgrant : ∀ {expiresAt grantedBy explicit} {u v : World},
      (DecisionService.grant host task (DecisionService.bindingOf host.py nonce request.step
        request.arguments (some plan)) expiresAt grantedBy explicit).run u = (.ok auth, v) →
      BoundTo host.py plan step auth ∧ auth.expiresAt.isSome = true := by
    intro expiresAt grantedBy explicit u v hrun
    obtain ⟨id, u₁, -, hrun⟩ := Program.run_bind_ok hrun
    obtain rfl := Except.ok.inj (congrArg Prod.fst hrun)
    have hsome : (request.step <|> plan.steps.head?).map (computeStepHash host.py) =
        some (computeStepHash host.py step) := by
      rw [hstep]
      rfl
    have hgiven : ((request.step <|> plan.steps.head?).map fun s =>
        computeArgumentsHash host.py (request.arguments.getD s.arguments)) =
        some (computeArgumentsHash host.py step.arguments) := by
      rw [hstep, Option.map_some, harguments]
    exact ⟨⟨rfl, hsome, hgiven⟩, rfl⟩
  unfold DecisionService.decide at h
  split at h
  · exact hgrant h
  · split at h
    · exact hgrant h
    · split at h
      · exact hgrant h
      · obtain ⟨_, w₄, -, h⟩ := Program.run_bind_ok h
        cases h

/-- The authorization that a grant returns is bound to what it was asked for.
SOURCE: decision/service.py:121-232 -/
theorem granted_bound {service : DecisionService} {request : AuthorizationRequest}
    {outcome : DecisionOutcome} (hw : w.Idle) (hasks : AsksFor plan step task request w.committed)
    (h : (service.evaluateAndAuthorize host task request).run w = (.ok outcome, t)) :
    BoundTo host.py plan step outcome.authorization ∧
      outcome.authorization.expiresAt.isSome = true := by
  have hauthorize : ∀ verdict, (service.authorize host task request verdict).run w = (.ok outcome, t) →
      BoundTo host.py plan step outcome.authorization ∧
        outcome.authorization.expiresAt.isSome = true := by
    intro verdict h
    obtain ⟨assessmentId, w₁, hdrawn, h⟩ := Program.run_bind_ok h
    obtain ⟨-, rfl⟩ := Prod.mk.inj hdrawn
    obtain ⟨decisionId, w₂, hdrawn, h⟩ := Program.run_bind_ok h
    obtain ⟨-, rfl⟩ := Prod.mk.inj hdrawn
    obtain ⟨auth, w₃, hresolved, h⟩ := Program.run_bind_ok h
    obtain ⟨updated, w₄, -, h⟩ := Program.run_bind_ok h
    obtain rfl := Except.ok.inj (congrArg Prod.fst h)
    rw [← hw.working] at hasks
    exact resolveAuthorization_bound (w := { w with nextId := w.nextId + 1 + 1 }) hasks hresolved
  unfold DecisionService.evaluateAndAuthorize at h
  split at h
  · obtain ⟨_, w₁, -, h⟩ := Program.run_bind_ok h
    cases h
  · exact hauthorize _ h

end Grants

/-! ## Edits of stored plans -/

/-- Saves of plans, and crashes. -/
def edits : Usage World Err := .free (fun p => ∃ plan, p = PlanRepository.save plan) World.restart

/-- The plan with other states, descriptions and dependencies of its steps. -/
structure Retouched (plan new : Plan) : Prop where
  row : PlanRepository.row new = PlanRepository.row plan
  steps : List.Forall₂ (fun step step' : PlanStep => ∃ state description dependsOn,
    step' = { step with state := state, description := description, dependsOn := dependsOn })
    plan.steps new.steps

/-- Saves of the stored plan of a task with such changes only. -/
def retouches (taskId : String) : Usage World Err :=
  let call (s : World) (p : Proc Unit) : Prop := ∃ plan new,
    PlanRepository.ofTables s.committed taskId = some plan ∧ Retouched plan new ∧
      p = PlanRepository.save new
  { calls := call, crashes := fun s p _ => call s p, restart := World.restart }

section Edits

variable {w t : World} {plan new : Plan} {taskId : String}

/-- INTERNAL: no block is open after a restart. -/
theorem idle_restarted (w : World) : w.restart.Idle := ⟨rfl, rfl⟩

/-- INTERNAL: an edit leaves the authorizations alone. -/
theorem edits_grants (hw : w.Idle) (h : History edits w t) :
    t.Idle ∧ t.committed.authorizations = w.committed.authorizations := by
  have hsave : ∀ plan, Serves grantPart (PlanRepository.save plan) :=
    fun plan => serves_savePlan unplanned_grantPart plan
  refine History.invariant (I := fun s => s.Idle ∧
    s.committed.authorizations = w.committed.authorizations) ⟨hw, rfl⟩ ?_ ?_ h
  · rintro s _ ⟨hs, hsame⟩ ⟨plan, rfl⟩
    have hkept := (hsave plan).leaves.run s (congrArg grantPart hs.working)
    exact ⟨(hsave plan).idle s hs, (congrArg Prod.fst hkept.2).trans hsame⟩
  · rintro s _ n ⟨hs, hsame⟩ ⟨plan, rfl⟩
    have hkept := (hsave plan).leaves.cut n s (congrArg grantPart hs.working)
    exact ⟨idle_restarted _, (congrArg Prod.fst hkept.2).trans hsame⟩

/-- INTERNAL: a save that is killed has committed all or nothing.
SOURCE: persistence/sqlite/plan_repository.py:27-67 -/
theorem cut_savePlan (new : Plan) (hw : w.Idle) (n : ℕ) :
    ((PlanRepository.save new).cut n w).committed = w.committed ∨
      ((PlanRepository.save new).cut n w).committed = savedPlan new w.committed := by
  by_cases hn : n < (PlanRepository.save new).steps w
  · exact .inl (early_withUow (nested_planBody new).inner w n hn).committed
  · rw [Program.cut_of_steps_le _ (not_lt.mp hn)]
    rcases run_savePlan new hw with ⟨-, hrun⟩ | ⟨-, e, hrun⟩
    · rw [hrun]
      exact .inr rfl
    · rw [hrun]
      exact .inl rfl

/-- INTERNAL: a plan has its own content. -/
theorem SameContent.refl (plan : Plan) : SameContent plan plan :=
  ⟨rfl, rfl, List.forall₂_same.mpr fun _ _ => ⟨rfl, rfl, rfl⟩⟩

/-- INTERNAL: the relation is transitive. -/
theorem SameContent.trans {a b c : Plan} (h : SameContent a b) (h' : SameContent b c) :
    SameContent a c := by
  have hsteps : ∀ {as bs cs : List PlanStep}, List.Forall₂ SameStep as bs →
      List.Forall₂ SameStep bs cs → List.Forall₂ SameStep as cs := by
    intro as bs cs hab
    induction hab generalizing cs with
    | nil => exact fun h => h
    | cons hhead _ ih =>
      intro hbc
      cases hbc with
      | cons hhead' htail =>
        exact .cons ⟨hhead.id.trans hhead'.id, hhead.tool.trans hhead'.tool,
          hhead.arguments.trans hhead'.arguments⟩ (ih htail)
  exact ⟨h.id.trans h'.id, h.objective.trans h'.objective, hsteps h.steps h'.steps⟩

/-- INTERNAL: such changes leave the content alone. -/
theorem Retouched.sameContent (h : Retouched plan new) : SameContent plan new := by
  have hid : new.id = plan.id :=
    show (PlanRepository.row new).id = (PlanRepository.row plan).id by rw [h.row]
  have hobjective : new.objective = plan.objective :=
    show (PlanRepository.row new).objective = (PlanRepository.row plan).objective by rw [h.row]
  refine ⟨hid.symm, hobjective.symm, h.steps.imp fun step step' hstep => ?_⟩
  obtain ⟨state, description, dependsOn, rfl⟩ := hstep
  exact ⟨rfl, rfl, rfl⟩

/-- INTERNAL: what is stored after such a save. -/
theorem Retouched.stored {tables : Tables} (h : Retouched plan new)
    (hstored : PlanRepository.ofTables tables taskId = some plan) :
    PlanRepository.ofTables (savedPlan new tables) taskId = some new := by
  have htaskId : plan.taskId = taskId := by
    obtain ⟨row, hfound, hplan⟩ := Option.map_eq_some_iff.mp hstored
    have hrow : row.taskId = taskId := by simpa using List.find?_some hfound
    rw [← hplan]
    exact hrow
  have hsame : Stored plan tables := by
    unfold Stored
    rw [htaskId]
    exact hstored
  have hnewId : new.taskId = taskId :=
    (show (PlanRepository.row new).taskId = (PlanRepository.row plan).taskId by rw [h.row]).trans htaskId
  have hrelated : ∀ {β : Type} (f : PlanStep → β), (∀ (step : PlanStep) state description dependsOn,
      f { step with state := state, description := description, dependsOn := dependsOn } = f step) →
      new.steps.map f = plan.steps.map f := by
    intro β f hf
    have hsteps := h.steps
    generalize plan.steps = steps at hsteps ⊢
    generalize new.steps = steps' at hsteps ⊢
    induction hsteps with
    | nil => rfl
    | cons hhead _ ih =>
      obtain ⟨state, description, dependsOn, rfl⟩ := hhead
      rw [List.map_cons, List.map_cons, hf, ih]
  have hplanIds : ∀ step ∈ new.steps, step.planId = plan.id := by
    intro step hstep
    have hin : step.planId ∈ plan.steps.map PlanStep.planId :=
      hrelated PlanStep.planId (fun _ _ _ _ => rfl) ▸ List.mem_map_of_mem hstep
    obtain ⟨old, hold, heq⟩ := List.mem_map.mp hin
    exact heq.symm.trans (hsame.planId hold)
  have hsorted : new.steps.Pairwise fun a b => a.order ≤ b.order := by
    have hplan := hsame.sorted
    rw [← List.pairwise_map (f := PlanStep.order)] at hplan ⊢
    rwa [hrelated PlanStep.order fun _ _ _ _ => rfl]
  have hplain : PlainSteps new := by
    intro step hstep
    have hin : step.arguments ∈ plan.steps.map PlanStep.arguments :=
      hrelated PlanStep.arguments (fun _ _ _ _ => rfl) ▸ List.mem_map_of_mem hstep
    obtain ⟨old, hold, heq⟩ := List.mem_map.mp hin
    exact heq ▸ hsame.plain old hold
  have hnew := hsame.savedPlan_steps h.row hplanIds hsorted hplain
  unfold Stored at hnew
  rwa [hnewId] at hnew

/-- Whatever of this kind is saved, and wherever a save is killed, the stored plan keeps its content. -/
theorem retouches_sameContent (hw : w.Idle)
    (hstored : PlanRepository.ofTables w.committed taskId = some plan)
    (h : History (retouches taskId) w t) :
    t.Idle ∧ ∃ current, PlanRepository.ofTables t.committed taskId = some current ∧
      SameContent plan current := by
  refine History.invariant (I := fun s => s.Idle ∧ ∃ current,
    PlanRepository.ofTables s.committed taskId = some current ∧ SameContent plan current)
    ⟨hw, plan, hstored, .refl plan⟩ ?_ ?_ h
  · rintro s _ ⟨hs, current, hcurrent, hsame⟩ ⟨old, new, hold, hretouched, rfl⟩
    obtain rfl := Option.some.inj (hcurrent.symm.trans hold)
    rcases run_savePlan new hs with ⟨-, hrun⟩ | ⟨-, e, hrun⟩
    · rw [hrun]
      exact ⟨⟨hs.depth, rfl⟩, new, hretouched.stored hcurrent, hsame.trans hretouched.sameContent⟩
    · rw [hrun]
      exact ⟨hs, current, hcurrent, hsame⟩
  · rintro s _ n ⟨hs, current, hcurrent, hsame⟩ ⟨old, new, hold, hretouched, rfl⟩
    obtain rfl := Option.some.inj (hcurrent.symm.trans hold)
    refine ⟨idle_restarted _, ?_⟩
    rcases cut_savePlan new hs n with hnothing | hall
    · exact ⟨current, (congrArg (PlanRepository.ofTables · taskId) hnothing).trans hcurrent, hsame⟩
    · exact ⟨new, (congrArg (PlanRepository.ofTables · taskId) hall).trans (hretouched.stored hcurrent),
        hsame.trans hretouched.sameContent⟩

end Edits

/-! ## Executions -/

section Executions

variable {service : ExecutionService} {host : Host} {plan : Plan} {step : PlanStep} {task : Task}
  {request : ToolRequest} {auth : Authorization} {w t : World}

/-- INTERNAL: the check of an unused authorization of the system, which can expire.
SOURCE: execution/service.py:483-555 -/
theorem run_verifyAuthorizationBinding {expiry : Time}
    (hnewest : (AuthorizationRepository.ofTables w.working task.id).getLast? = some auth)
    (hprofile : auth.profileId = "system") (hunused : auth.usedAt = none)
    (hexpires : auth.expiresAt = some expiry) :
    (verifyAuthorizationBinding host task request).run w =
      (if expiry < host.clock w.ticks then .error (.authorizationExpired task.id expiry)
        else checkHashes host.py task request auth (PlanRepository.ofTables w.working task.id),
      { w with ticks := w.ticks + 1 }) := by
  have hfirst : checkProfile task auth = .ok () := if_neg fun h => h.2 hprofile
  have hsecond : checkUnused task auth = .ok () := by
    unfold checkUnused
    rw [hunused]
    rfl
  have hchecked : (verifyAuthorizationBinding host task request).run w =
      (checkAuthorization host task request auth).run w := by
    unfold verifyAuthorizationBinding AuthorizationRepository.listByTask
    rw [Program.run_bind, run_query]
    dsimp only
    rw [hnewest]
  rw [hchecked]
  unfold checkAuthorization checkUnexpired PlanRepository.getByTask
  rw [hfirst, hsecond, hexpires]
  by_cases hlate : expiry < host.clock w.ticks
  · simp only [Program.run_bind, Program.run_ofExcept, run_now, if_pos hlate, Program.run_throw]
  · simp only [Program.run_bind, Program.run_ofExcept, run_now, if_neg hlate, Program.run_pure, run_query]

/-- What `prepare` goes on with once the binding is checked. -/
def laterChecks (service : ExecutionService) (host : Host) (task : Task) (request : ToolRequest) :
    Proc ExecutionContract := do
  ExecutionService.suppressDuplicate host task request (generateKey host.py task.id request)
  let capabilities ← ExecutionService.decidedCapabilities task
  service.requireCapabilities host task request capabilities
  let auth ← ExecutionService.newestAuthorization task
  let contractId ← newId host
  pure (service.contractOf host.py task request capabilities auth
    (generateKey host.py task.id request) contractId)

/-- How far the checks before an execution get: to the gate, to the expiry of the authorization, to its
hashes, or past them. -/
inductive Prepared (service : ExecutionService) (host : Host) (task : Task) (request : ToolRequest)
    (expiry : Time) (hashes : Except Err Unit) (w : World) : Prop
  | refused {e : Err} {u : World}
      (hgate : (service.security.enforce host task request).run w = (.error e, u))
      (hrun : (service.prepare host task request).run w = (.error e, u))
  | expired {u v : World} (hgate : (service.security.enforce host task request).run w = (.ok (), u))
      (hlate : expiry < host.clock u.ticks)
      (hrun : (service.prepare host task request).run w =
        (.error (.authorizationExpired task.id expiry), v))
  | mismatched {e : Err} {u v : World}
      (hgate : (service.security.enforce host task request).run w = (.ok (), u))
      (hearly : ¬ expiry < host.clock u.ticks) (hhashes : hashes = .error e)
      (hrun : (service.prepare host task request).run w = (.error e, v))
  | matched {u v : World} (hgate : (service.security.enforce host task request).run w = (.ok (), u))
      (hearly : ¬ expiry < host.clock u.ticks) (hhashes : hashes = .ok ())
      (hrun : (service.prepare host task request).run w =
        (laterChecks service host task request).run v)

/-- INTERNAL: the checks of an unused authorization of the system, which can expire.
SOURCE: execution/service.py:229-340 -/
theorem prepared {expiry : Time} (service : ExecutionService) (request : ToolRequest) (hw : w.Idle)
    (hnewest : (AuthorizationRepository.ofTables w.committed task.id).getLast? = some auth)
    (hprofile : auth.profileId = "system") (hunused : auth.usedAt = none)
    (hexpires : auth.expiresAt = some expiry) :
    Prepared service host task request expiry
      (checkHashes host.py task request auth (PlanRepository.ofTables w.committed task.id)) w := by
  have hprepare : (service.prepare host task request).run w =
      (service.security.enforce host task request >>= fun _ =>
        verifyAuthorizationBinding host task request >>= fun _ =>
          laterChecks service host task request).run w := rfl
  cases hgate : (service.security.enforce host task request).run w with
  | mk r u =>
  rw [Program.run_bind, hgate] at hprepare
  cases r with
  | error e => exact .refused hgate hprepare
  | ok _ =>
  have hsame : ∀ {γ : Type} {part : Tables → γ}, Unrelated part →
      part u.working = part w.committed := by
    intro γ part hpart
    have hleaves : Leaves part (service.security.enforce host task request) :=
      (serves_enforce hpart service.security host task request).leaves
    have hkept := (hleaves.run w (congrArg part hw.working)).1
    rw [hgate, hw.working] at hkept
    exact hkept
  have hplans : PlanRepository.ofTables u.working task.id =
      PlanRepository.ofTables w.committed task.id := by
    have hboth : planPart u.working = planPart w.committed := hsame unasked_planPart.toUnrelated
    obtain ⟨hplans, hsteps⟩ := Prod.mk.inj hboth
    exact ofTables_congr hplans hsteps task.id
  have hrows : AuthorizationRepository.ofTables u.working task.id =
      AuthorizationRepository.ofTables w.committed task.id := by
    have hauthorizations : u.working.authorizations = w.committed.authorizations :=
      congrArg Prod.fst (hsame unplanned_grantPart.toUnrelated)
    unfold AuthorizationRepository.ofTables
    rw [hauthorizations]
  have hverify : (verifyAuthorizationBinding host task request).run u = _ :=
    run_verifyAuthorizationBinding (hrows ▸ hnewest) hprofile hunused hexpires
  dsimp only at hprepare
  rw [Program.run_bind, hverify, hplans] at hprepare
  by_cases hlate : expiry < host.clock u.ticks
  · rw [if_pos hlate] at hprepare
    exact .expired hgate hlate hprepare
  rw [if_neg hlate] at hprepare
  cases hhashes : checkHashes host.py task request auth (PlanRepository.ofTables w.committed task.id) with
  | error e =>
    rw [hhashes] at hprepare
    exact .mismatched hgate hlate rfl hprepare
  | ok _ =>
    rw [hhashes] at hprepare
    exact .matched hgate hlate rfl hprepare

/-- The execution raises before an adapter is called. -/
def RefusedUncalled (service : ExecutionService) (host : Host) (task : Task) (request : ToolRequest)
    (w : World) : Prop :=
  ∃ e t, (service.execute host task request).run w = (.error e, t) ∧
    callsOf t.log = callsOf w.log

/-- The execution raises a mismatch of the binding. -/
def RaisesMismatch (service : ExecutionService) (host : Host) (task : Task) (request : ToolRequest)
    (w : World) : Prop :=
  ∃ e t, (service.execute host task request).run w = (.error e, t) ∧ IsMismatch e

/-- The execution gets to the check of the hashes: the task is RUNNING, the gate lets the request
through, and the authorization has not expired by then. -/
def ReachesHashes (service : ExecutionService) (host : Host) (task : Task) (request : ToolRequest)
    (auth : Authorization) (w : World) : Prop :=
  task.state = .running ∧ ∃ u, (service.security.enforce host task request).run w = (.ok (), u) ∧
    ∀ expiry, auth.expiresAt = some expiry → ¬ expiry < host.clock u.ticks

/-- INTERNAL: an error of the checks is an error of the execution. -/
theorem run_execute_of_prepare {e : Err} (hrunning : task.state = .running)
    (hrun : (service.prepare host task request).run w = (.error e, t)) :
    (service.execute host task request).run w = (.error e, t) := by
  unfold ExecutionService.execute ExecutionService.carryOut
  rw [if_pos hrunning, Program.run_bind, hrun]

/-- INTERNAL: an execution of a task that is not RUNNING. -/
theorem run_execute_of_not_running (hrunning : task.state ≠ .running) :
    (service.execute host task request).run w = (.error (.taskNotRunning task.id task.state), w) := by
  unfold ExecutionService.execute
  rw [if_neg hrunning]
  rfl

/-- What is not what was authorized is not executed.
SOURCE: execution/service.py:229-340, 483-555 -/
theorem refused_of_altered (hpy : HashesTellApart host.py) (hw : w.Idle)
    (hnewest : (AuthorizationRepository.ofTables w.committed task.id).getLast? = some auth)
    (hprofile : auth.profileId = "system") (hunused : auth.usedAt = none)
    (hexpires : auth.expiresAt.isSome = true) (hbound : BoundTo host.py plan step auth)
    (hmem : step ∈ plan.steps)
    (haltered : ¬ Unaltered plan step (PlanRepository.ofTables w.committed task.id) request) :
    RefusedUncalled service host task request w := by
  by_cases hrunning : task.state = .running
  swap
  · exact ⟨_, w, run_execute_of_not_running hrunning, rfl⟩
  obtain ⟨expiry, hexpiry⟩ := Option.isSome_iff_exists.mp hexpires
  have hcalls := (calls_of_serves (serves_prepare ofAppPlane_ledgerPart.outlying.toUnrelated service
    host task request) hw).1
  have hraises : ∀ {e v}, (service.prepare host task request).run w = (.error e, v) →
      RefusedUncalled service host task request w := by
    intro e v hrun
    rw [hrun] at hcalls
    exact ⟨e, v, run_execute_of_prepare hrunning hrun, hcalls⟩
  cases prepared service request hw hnewest hprofile hunused hexpiry with
  | refused _ hrun => exact hraises hrun
  | expired _ _ hrun => exact hraises hrun
  | mismatched _ _ _ hrun => exact hraises hrun
  | matched _ _ hhashes _ => exact absurd ((checkHashes_ok_iff hpy hbound hmem).mp hhashes) haltered

/-- A mismatch is raised for what gets to the check of the hashes and is not what was authorized, and
for nothing else.
SOURCE: execution/service.py:229-481 -/
theorem raisesMismatch_iff (hpy : HashesTellApart host.py)
    (hos : ∀ instant, OwnErrors (host.probes instant)) (hw : w.Idle)
    (hnewest : (AuthorizationRepository.ofTables w.committed task.id).getLast? = some auth)
    (hprofile : auth.profileId = "system") (hunused : auth.usedAt = none)
    (hexpires : auth.expiresAt.isSome = true) (hbound : BoundTo host.py plan step auth)
    (hmem : step ∈ plan.steps) :
    RaisesMismatch service host task request w ↔ ReachesHashes service host task request auth w ∧
      ¬ Unaltered plan step (PlanRepository.ofTables w.committed task.id) request := by
  by_cases hrunning : task.state = .running
  swap
  · refine iff_of_false ?_ fun h => hrunning h.1.1
    rintro ⟨e, t, hrun, hmismatch⟩
    rw [run_execute_of_not_running hrunning] at hrun
    obtain rfl := Except.error.inj (congrArg Prod.fst hrun)
    exact hmismatch
  obtain ⟨expiry, hexpiry⟩ := Option.isSome_iff_exists.mp hexpires
  have hchecks : checkHashes host.py task request auth
      (PlanRepository.ofTables w.committed task.id) = .ok () ↔ _ := checkHashes_ok_iff hpy hbound hmem
  have hnone : ∀ {e v}, (service.prepare host task request).run w = (.error e, v) → NoMismatch e →
      ¬ RaisesMismatch service host task request w := by
    rintro e v hprepare hother ⟨e', t, hrun, hmismatch⟩
    rw [run_execute_of_prepare hrunning hprepare] at hrun
    obtain rfl := Except.error.inj (congrArg Prod.fst hrun)
    exact hother hmismatch
  have hreaches : ∀ {u}, (service.security.enforce host task request).run w = (.ok (), u) →
      ¬ expiry < host.clock u.ticks → ReachesHashes service host task request auth w := by
    intro u hgate hearly
    refine ⟨hrunning, u, hgate, fun expiry' hexpiry' => ?_⟩
    obtain rfl := Option.some.inj (hexpiry.symm.trans hexpiry')
    exact hearly
  cases prepared service request hw hnewest hprofile hunused hexpiry with
  | refused hgate hrun =>
    have hother := (matched_enforce service.security host task request).of_run
      (congrArg Prod.fst hgate)
    refine iff_of_false (hnone hrun hother) ?_
    rintro ⟨⟨-, u, hpassed, -⟩, -⟩
    rw [hgate] at hpassed
    cases hpassed
  | expired hgate hlate hrun =>
    refine iff_of_false (hnone hrun fun h => h) ?_
    rintro ⟨⟨-, u, hpassed, hearly⟩, -⟩
    obtain ⟨-, rfl⟩ := Prod.mk.inj (hgate.symm.trans hpassed)
    exact hearly expiry hexpiry hlate
  | mismatched hgate hearly hhashes hrun =>
    refine iff_of_true ⟨_, _, run_execute_of_prepare hrunning hrun, checkHashes_mismatch hhashes⟩
      ⟨hreaches hgate hearly, fun hsame => ?_⟩
    rw [hchecks.mpr hsame] at hhashes
    cases hhashes
  | @matched u v hgate hearly hhashes hrun =>
    refine iff_of_false ?_ fun h => h.2 (hchecks.mp hhashes)
    rintro ⟨e, t, hexecute, hmismatch⟩
    -- nothing that follows the check raises a mismatch
    have hrest : Matched (laterChecks service host task request >>= fun contract =>
        (service.sup host).execute host contract >>= fun supervision =>
          service.settle host task request supervision) :=
      .bind (matched_checks service host task request) fun contract =>
        .bind (matched_supervise hos (service.sup host) contract) fun supervision =>
          matched_settle service task request supervision
    unfold ExecutionService.execute ExecutionService.carryOut at hexecute
    rw [if_pos hrunning, Program.run_bind, hrun, ← Program.run_bind] at hexecute
    exact hrest.of_run (congrArg Prod.fst hexecute) hmismatch

end Executions

/-! ## The binding -/

/-- Public operations and saves of plans, each killed at any point or not at all. -/
def storing (host : Host) : Usage World Err := .free (StoreCall host) World.restart

section Binding

variable {host : Host} {plan : Plan} {step : PlanStep} {w₀ w₁ w : World}

/-- INTERNAL: they draw the ids of authorizations and executions in turn. -/
theorem StoreCall.sat_restingDrawn {p : Proc Unit} (hp : StoreCall host p)
    (hw : RestingDrawn host w) :
    p.Sat (fun a b => Moves host a b ∧ GrantStep host a b) (fun _ t => RestingDrawn host t) w := by
  cases hp with
  | operation h => exact h.sat_restingDrawn hw
  | save plan =>
    have hledger := serves_savePlan outlying_ledgerPart.toUnplanned plan
    have hboth := (hledger.rests w hw.1).and
      (hledger.sat_grants (serves_savePlan unplanned_grantPart plan) hw.1)
    refine (hboth.keep (fun _ _ hab ha => hab.2.drawn ha) hw.2).post fun _ _ ht => ?_
    exact ⟨ht.1.1, ht.2⟩

/-- A history of stored plans rests, and has drawn each identifier it uses. -/
theorem restingDrawn_of_storing (h : History (storing host) {} w) : RestingDrawn host w :=
  History.invariant_of_sat restingDrawn_empty (fun _ _ hp hs => hp.sat_restingDrawn hs)
    (fun _ _ hs hc => hs.restart hc) h

/-- An authorization is granted for a plan, a step and its arguments, and then plans are saved. An
execution that is not what was authorized is refused before an adapter is called, with a mismatch if
and only if it gets to the check of the hashes; and no mismatch is raised after saves that have changed
only states, descriptions and dependencies.
SOURCE: decision/service.py:121-315, execution/service.py:229-340, 483-555, security/binding.py:40-73 -/
theorem content_bound {decider : DecisionService} {asked : AuthorizationRequest} {granted task : Task}
    {outcome : DecisionOutcome} {service : ExecutionService} {request : ToolRequest}
    (hpy : HashesTellApart host.py) (hos : ∀ instant, OwnErrors (host.probes instant))
    (hw₀ : History (storing host) {} w₀) (hasks : AsksFor plan step granted asked w₀.committed)
    (hmem : step ∈ plan.steps)
    (hgrant : (decider.evaluateAndAuthorize host granted asked).run w₀ = (.ok outcome, w₁))
    (hedits : History edits w₁ w) (htask : task.id = granted.id) :
    (¬ Unaltered plan step (PlanRepository.ofTables w.committed task.id) request →
      RefusedUncalled service host task request w) ∧
    (RaisesMismatch service host task request w ↔
      ReachesHashes service host task request outcome.authorization w ∧
        ¬ Unaltered plan step (PlanRepository.ofTables w.committed task.id) request) ∧
    (History (retouches task.id) w₁ w →
      PlanRepository.ofTables w₁.committed task.id = some plan →
      request.toolIsText = true ∧ request.tool = step.tool →
      (Value.dict step.arguments).canon = (Value.dict request.arguments).canon →
      ¬ RaisesMismatch service host task request w) := by
  have hstart := restingDrawn_of_storing hw₀
  obtain ⟨hbound, hexpires⟩ := granted_bound hstart.1.idle hasks hgrant
  obtain ⟨hnewest₁, hprofile⟩ := newest_granted hstart hgrant
  have hends := (sat_evaluateAndAuthorize decider granted asked hstart.1 hstart.2).run
  have hidle₁ : w₁.Idle := by
    have hrests := ((serves_evaluateAndAuthorize outlying_ledgerPart.toBeside decider host granted
      asked).rests w₀ hstart.1).run
    rw [hgrant] at hrests
    exact hrests.idle
  rw [hgrant] at hends
  obtain ⟨-, -, -, hunused⟩ := hends outcome rfl
  obtain ⟨hidle, hsame⟩ := edits_grants hidle₁ hedits
  have hnewest : (AuthorizationRepository.ofTables w.committed task.id).getLast? =
      some outcome.authorization := by
    unfold AuthorizationRepository.ofTables at hnewest₁ ⊢
    rw [hsame, htask, hnewest₁]
  have hmismatch : RaisesMismatch service host task request w ↔ _ :=
    raisesMismatch_iff hpy hos hidle hnewest hprofile hunused hexpires hbound hmem
  refine ⟨fun haltered => refused_of_altered hpy hidle hnewest hprofile hunused hexpires hbound hmem
    haltered, hmismatch, fun hretouches hstored htool harguments hraises => ?_⟩
  obtain ⟨-, hcurrent⟩ := retouches_sameContent hidle₁ hstored hretouches
  exact (hmismatch.mp hraises).2 ⟨hcurrent, htool, harguments⟩

end Binding

/-- A machine on which no two texts have the same hash. -/
def exactHost : Host :=
  { Host.plain [] [] with py := { Stdlib.plain with sha256 := id, floatRepr := floatText } }

/-- INTERNAL: the exact host's hashes tell contents apart. -/
theorem hashesTellApart_exactHost : HashesTellApart exactHost.py :=
  ⟨fun _ _ h => h, floatTexts_floatText { Stdlib.plain with sha256 := id }⟩

/-- INTERNAL: and its probes raise their own errors only. -/
theorem ownErrors_exactHost (instant : ℕ) : OwnErrors (exactHost.probes instant) :=
  ⟨fun _ => .ok _, fun _ => .ok _, fun _ => .ok _, .ok _⟩

/-- The note, planned. -/
def exactNote : World := plannedNote exactHost answering

/-- Its plan. -/
def exactPlan : Plan :=
  (PlanRepository.ofTables exactNote.committed (firstTask exactNote).id).getD
    { id := "", taskId := "", objective := "" }

/-- The step of the plan. -/
def exactStep : PlanStep :=
  exactPlan.steps.headD { id := "", planId := "", order := 0, description := "", tool := "" }

/-- The authorization of the note. -/
def exactGrant : Except Err DecisionOutcome × World :=
  (DecisionService.evaluateAndAuthorize {} exactHost (firstTask exactNote)
    { capabilities := ["data.read"] }).run exactNote

/-- The state after the plan was saved with another objective. -/
def editedNote : World :=
  ((PlanRepository.save { exactPlan with objective := "take another note" }).run exactGrant.2).2

/-- INTERNAL: the note is planned by a public operation, and has a stored plan with one step. -/
theorem exactNote_planned :
    History (storing exactHost) {} exactNote ∧
      AsksFor exactPlan exactStep (firstTask exactNote) { capabilities := ["data.read"] }
        exactNote.committed ∧ exactStep ∈ exactPlan.steps := by
  have hplanned : History (storing exactHost) {} exactNote :=
    History.start.returned_void (StoreCall.operation (Operation.createAndPlan (notesPlanning answering)
      { sessionId := "session", requestText := "note" }))
  have hstored : (firstTask exactNote).planId.isSome = true ∧
      PlanRepository.ofTables exactNote.committed (firstTask exactNote).id = some exactPlan ∧
      exactPlan.steps.head? = some exactStep := by decide +kernel
  exact ⟨hplanned, ⟨.inr ⟨rfl, hstored.1, hstored.2.1⟩, .inr ⟨rfl, hstored.2.2⟩, .inr rfl⟩,
    List.mem_of_head? hstored.2.2⟩

/-- The note is refused under its new objective, with a mismatch. -/
theorem edited_note_mismatched :
    RefusedUncalled (notesExecution answering) exactHost (firstTask exactGrant.2) noteRequest
        editedNote ∧
      RaisesMismatch (notesExecution answering) exactHost (firstTask exactGrant.2) noteRequest
        editedNote := by
  obtain ⟨hplanned, hasks, hmem⟩ := exactNote_planned
  have hok : exactGrant.1.isOk = true := by decide +kernel
  obtain ⟨outcome, hgrant⟩ := exists_of_isOk hok
  have hedits : History edits exactGrant.2 editedNote := History.start.returned ⟨_, rfl⟩
  have htask : (firstTask exactGrant.2).id = (firstTask exactNote).id := by decide +kernel
  have hbound :
      (¬ Unaltered exactPlan exactStep
          (PlanRepository.ofTables editedNote.committed (firstTask exactGrant.2).id) noteRequest →
        RefusedUncalled (notesExecution answering) exactHost (firstTask exactGrant.2) noteRequest
          editedNote) ∧
      (RaisesMismatch (notesExecution answering) exactHost (firstTask exactGrant.2) noteRequest
          editedNote ↔ _) ∧ _ :=
    content_bound hashesTellApart_exactHost ownErrors_exactHost hplanned hasks hmem hgrant hedits
      htask
  have haltered : ¬ Unaltered exactPlan exactStep
      (PlanRepository.ofTables editedNote.committed (firstTask exactGrant.2).id) noteRequest := by
    have hobjective : exactPlan.objective = "take a note" ∧
        (PlanRepository.ofTables editedNote.committed (firstTask exactGrant.2).id).map Plan.objective =
          some "take another note" := by decide +kernel
    intro h
    obtain ⟨current, hcurrent, hsame⟩ := h.plan
    rw [hcurrent] at hobjective
    have hnew := (hobjective.1.symm.trans hsame.objective).trans (Option.some.inj hobjective.2)
    exact absurd hnew (by decide)
  have hgate : ((notesExecution answering).security.enforce exactHost (firstTask exactGrant.2)
        noteRequest |>.run editedNote).1.isOk = true ∧
      (firstTask exactGrant.2).state = .running ∧
      ∀ expiry ∈ exactGrant.1.toOption.bind (·.authorization.expiresAt), ¬ expiry < exactHost.clock
        ((notesExecution answering).security.enforce exactHost (firstTask exactGrant.2)
          noteRequest |>.run editedNote).2.ticks := by decide +kernel
  obtain ⟨hpassed, hrunning, hearly⟩ := hgate
  obtain ⟨_, hpassed⟩ := exists_of_isOk hpassed
  have hresult : exactGrant.1.toOption = some outcome := by rw [hgrant]; rfl
  rw [hresult] at hearly
  exact ⟨hbound.1 haltered, hbound.2.1.mpr ⟨⟨hrunning, _, hpassed, hearly⟩, haltered⟩⟩

/-- A request with an argument that was not authorized. -/
def strayRequest : ToolRequest := { noteRequest with arguments := [("path", .str "/etc/passwd")] }

/-- What an execution service with a gate makes of it. -/
def strayRun : Except Err ExecutionOutcomeRecord × World :=
  (({ notesExecution answering with security := homeOnly } : ExecutionService).execute exactHost
    (firstTask exactGrant.2) strayRequest).run exactGrant.2

/-- Other arguments than those authorized, and no mismatch: the gate stops the request first. -/
theorem stray_request_stopped_by_gate :
    exactGrant.1.isOk = true ∧ (firstTask exactGrant.2).state = .running ∧
    strayRequest.arguments ≠ exactStep.arguments ∧
    strayRun.1 = .error (.securityViolation "notes" "path_traversal"
      "argument 'path' is outside the allowed filesystem scope: '/etc/passwd'") ∧
    ¬ RaisesMismatch { notesExecution answering with security := homeOnly } exactHost
      (firstTask exactGrant.2) strayRequest exactGrant.2 := by
  have hruns : exactGrant.1.isOk = true ∧ (firstTask exactGrant.2).state = .running ∧
      strayRequest.arguments ≠ exactStep.arguments ∧
      strayRun.1 = .error (.securityViolation "notes" "path_traversal"
        "argument 'path' is outside the allowed filesystem scope: '/etc/passwd'") := by decide +kernel
  refine ⟨hruns.1, hruns.2.1, hruns.2.2.1, hruns.2.2.2, ?_⟩
  rintro ⟨e, t, hrun, hmismatch⟩
  have herror := (congrArg Prod.fst hrun).symm.trans hruns.2.2.2
  obtain rfl := Except.error.inj herror
  exact hmismatch

end Shea.Analysis
