import Shea.Analysis.PlanStore
import Shea.Analysis.PlanRecords
import Shea.Analysis.PlanRuns

/-!
# How a plan is completed

A plan is run, stopped, recovered and run again. Throughout, the stored plan is the plan the runner
has in its hands, and every step that is marked COMPLETED has an execution and a verification of its
own among the stored records (`Certified`).

From one call to the next only marks are written and records are added, so what is certified stays
certified. A run takes the steps up in the order of the graph and leaves out the COMPLETED ones, so
a step is executed when everything it depends on is COMPLETED, and a verification moves the task to
COMPLETED at the last pending step only.
-/

set_option autoImplicit false

namespace Shea.Analysis

open Shea.Computation Shea.Model
open Shea.Model.PlanRunner

/-! ## Certificates -/

/-- The execution and the verification of a step. -/
structure Certificate where
  stepId : String
  execution : ToolExecutionRecord
  verification : VerificationRecord

/-- The execution of that step succeeded, and its verification says so. -/
structure Certificate.Valid (c : Certificate) (taskId : String) (step : PlanStep) : Prop where
  stepId : c.stepId = step.id
  executed : c.execution.taskId = taskId ∧ c.execution.tool = step.tool
  success : c.execution.outcome = .success
  verified : c.verification.taskId = taskId ∧ c.verification.verified = true

/-- Every COMPLETED step with a tool has a certificate, and no row of the two tables is used twice. -/
def Certified (plan : Plan) (t : Tables) : Prop :=
  ∃ certificates : List Certificate,
    (certificates.map (·.execution)).Sublist t.toolExecutions ∧
    (certificates.map (·.verification)).Sublist t.verifications ∧
    ∀ step ∈ plan.steps, step.tool ≠ "" → step.state = "COMPLETED" →
      ∃ c ∈ certificates, c.Valid plan.taskId step

section Certificates

variable {plan : Plan} {t t' : Tables}

/-- INTERNAL: a certificate does not look at the state of the step. -/
theorem Certificate.Valid.mark {c : Certificate} {taskId : String} {step : PlanStep}
    (h : c.Valid taskId step) (state : String) : c.Valid taskId { step with state := state } :=
  ⟨h.stepId, h.executed, h.success, h.verified⟩

/-- INTERNAL: records that were added do not matter. -/
theorem Certified.grow (h : Certified plan t) (hexecutions : t.toolExecutions <+: t'.toolExecutions)
    (hverifications : t.verifications <+: t'.verifications) : Certified plan t' := by
  obtain ⟨certificates, hex, hver, hsteps⟩ := h
  exact ⟨certificates, hex.trans hexecutions.sublist, hver.trans hverifications.sublist, hsteps⟩

/-- INTERNAL: a mark other than COMPLETED asks for no certificate. -/
theorem Certified.mark (h : Certified plan t) (stepId : String) {state : String}
    (hstate : state ≠ "COMPLETED") : Certified (markStep plan stepId state) t := by
  obtain ⟨certificates, hex, hver, hsteps⟩ := h
  refine ⟨certificates, hex, hver, fun step hstep htool hdone => ?_⟩
  rcases mem_markStep.mp hstep with ⟨hin, -⟩ | ⟨old, -, -, rfl⟩
  · exact hsteps step hin htool hdone
  · exact absurd hdone hstate

/-- INTERNAL: the mark COMPLETED asks for a new one. -/
theorem Certified.complete {step : PlanStep} (h : Certified plan t) (hstep : step ∈ plan.steps)
    (hdistinct : (plan.steps.map PlanStep.id).Nodup) {record : ToolExecutionRecord}
    {verification : VerificationRecord}
    (hexecutions : t'.toolExecutions = t.toolExecutions ++ [record])
    (hverifications : t'.verifications = t.verifications ++ [verification])
    (hvalid : Certificate.Valid ⟨step.id, record, verification⟩ plan.taskId step) :
    Certified (markStep plan step.id "COMPLETED") t' := by
  obtain ⟨certificates, hex, hver, hsteps⟩ := h
  refine ⟨certificates ++ [⟨step.id, record, verification⟩], ?_, ?_, fun s hs htool hdone => ?_⟩
  · rw [List.map_append, hexecutions]
    exact hex.append (.refl _)
  · rw [List.map_append, hverifications]
    exact hver.append (.refl _)
  · rcases mem_markStep.mp hs with ⟨hin, -⟩ | ⟨old, hold, hid, rfl⟩
    · obtain ⟨c, hc, hvalid⟩ := hsteps s hin htool hdone
      exact ⟨c, List.mem_append_left _ hc, hvalid⟩
    · obtain rfl := List.inj_on_of_nodup_map hdistinct hold hstep hid
      exact ⟨_, List.mem_append_right _ (List.mem_singleton_self _), hvalid.mark _⟩

/-- INTERNAL: marking a step again. -/
theorem markStep_markStep (plan : Plan) (stepId state state' : String) :
    markStep (markStep plan stepId state) stepId state' = markStep plan stepId state' := by
  unfold markStep
  simp only [List.map_map]
  congr 1
  refine List.map_congr_left fun step _ => ?_
  simp only [Function.comp]
  split <;> rfl

end Certificates

/-! ## What the services leave of it -/

/-- What a plan runner may expect of its services where plans and records are concerned. -/
structure RecordCalls (host : Host) (runner : PlanRunner) : Prop where
  authorize : ∀ task request, Spares host corePart (runner.evaluateAndAuthorize task request)
  execute : ∀ {w t : World} {task : Task} {request : ToolRequest}
    {r : Except Err ExecutionOutcomeRecord}, Resting host w → Numbered host w →
      (runner.execute task request).run w = (r, t) →
      Resting host t ∧ ExecutionKept host w t task request r
  executing : ∀ task request, Leaves planPart (runner.execute task request)
  scan : ∀ task tool data, Spares host corePart (runner.scanOutput task tool data)
  verify : ∀ {w t : World} {task : Task} {moreSteps : Bool} {r : Except Err VerificationResult},
      Resting host w → (runner.verify task moreSteps).run w = (r, t) →
      Spared host unverifiedPart w t ∧ VerificationAdded w t task r

/-- INTERNAL: no step of an execution writes plans.
SOURCE: execution/service.py:229-481 -/
theorem leaves_plans_execute (service : ExecutionService) (host : Host) (task : Task)
    (request : ToolRequest) : Leaves planPart (service.execute host task request) := by
  have hplan := unasked_planPart.toUnrelated
  have hapart : Apart planPart :=
    ⟨fun _ _ => rfl, fun _ _ => rfl, fun _ _ => rfl, fun _ _ => rfl, fun _ _ => rfl⟩
  have hof : ∀ {α : Type} {p : Proc α}, Serves planPart p → Leaves planPart p :=
    fun h => h.steps.mono fun _ _ hab => hab.keeps
  unfold ExecutionService.execute
  split
  · exact .bind (hof (serves_prepare hplan service host task request)) fun contract =>
      .bind (leaves_execute hapart _ host contract (.inr fun _ _ => ⟨rfl, rfl⟩)) fun supervision =>
      hof (serves_settle hplan service host task request supervision (fun _ _ => rfl)
        fun _ _ => rfl)
  · exact .throw _

/-- The services of the runtime are such services. -/
theorem recordCalls_ofServices (host : Host) (decision : DecisionService)
    (execution : ExecutionService) (verification : VerificationService) :
    RecordCalls host (PlanRunner.ofServices host decision execution verification) where
  authorize := spares_evaluateAndAuthorize decision
  execute := fun hw hnum h => kept_execute hw hnum h
  executing := leaves_plans_execute execution host
  scan := spares_scanOutput execution.security
  verify := fun hw h => added_verify hw h


/-! ## Between two marks -/

/-- The plan is stored, its COMPLETED steps are certified, and no call is under way. -/
structure Standing (host : Host) (plan : Plan) (w : World) : Prop where
  resting : Resting host w
  numbered : Numbered host w
  stored : Stored plan w.committed
  certified : Certified plan w.committed
  distinct : (plan.steps.map PlanStep.id).Nodup

section Standing

variable {host : Host} {plan : Plan} {w t : World}

/-- INTERNAL: what is stored is read off the two tables of plans. -/
theorem Stored.of_planPart {t t' : Tables} (h : Stored plan t) (hsame : planPart t' = planPart t) :
    Stored plan t' := by
  obtain ⟨hplans, hsteps⟩ := Prod.mk.inj hsame
  exact (ofTables_congr hplans hsteps plan.taskId).trans h

/-- INTERNAL: a call that leaves the plans alone and only adds records. -/
theorem Standing.grow (h : Standing host plan w) (hsame : planPart t.committed = planPart w.committed)
    (hgrown : Grown host w t) : Standing host plan t :=
  ⟨hgrown.resting, hgrown.numbered, h.stored.of_planPart hsame,
    h.certified.grow hgrown.executions hgrown.verifications, h.distinct⟩

/-- INTERNAL: a standing plan outlives what spares the core. -/
theorem Standing.spared (h : Standing host plan w) (hs : Spared host corePart w t) :
    Standing host plan t :=
  h.grow (hs.map Prod.fst).part (.of_spared h.numbered (hs.map Prod.snd))

/-- INTERNAL: and an execution. -/
theorem Standing.executed (h : Standing host plan w) {task : Task} {request : ToolRequest}
    {r : Except Err ExecutionOutcomeRecord} (ht : Resting host t)
    (hkept : ExecutionKept host w t task request r) : Standing host plan t :=
  h.grow (Prod.mk.inj hkept.part).1 (hkept.grown ht)

/-- INTERNAL: the state after a save of the marked plan. -/
theorem Standing.saved {stepId state : String} (h : Standing host plan w)
    (hcertified : Certified (markStep plan stepId state) w.committed)
    (hrun : (PlanRepository.save (markStep plan stepId state)).run w = (.ok (), t))
    (ht : t.committed = savedPlan (markStep plan stepId state) w.committed) :
    Standing host (markStep plan stepId state) t := by
  have hserves := serves_savePlan outlying_ledgerPart.toUnplanned (markStep plan stepId state)
  have hnext := hserves.rests.nextId h.resting
  have hresting := (hserves.rests w h.resting).run
  rw [hrun] at hresting hnext
  refine ⟨hresting, fun record hrecord => ?_, ?_, ?_, ?_⟩
  · rw [ht] at hrecord
    obtain ⟨n, hn, hid⟩ := h.numbered record hrecord
    exact ⟨n, hn.trans_le hnext, hid⟩
  · rw [ht]
    exact h.stored.savedPlan_markStep stepId state
  · rw [ht]
    exact hcertified
  · rw [map_markStep PlanStep.id fun _ _ => rfl]
    exact h.distinct

/-- A mark is written or, when the plan cannot be saved, nothing is.
SOURCE: execution/plan_runner.py:242-244 -/
theorem Standing.marked {stepId state : String} (h : Standing host plan w)
    (hcertified : Certified (markStep plan stepId state) w.committed)
    {r : Except Err Plan} (hrun : (setStepState plan stepId state).run w = (r, t)) :
    (r = .ok (markStep plan stepId state) ∧ Savable plan w.committed ∧
      Standing host (markStep plan stepId state) t ∧
      t.committed = savedPlan (markStep plan stepId state) w.committed) ∨
    (∃ e, r = .error e ∧ t = w ∧ ¬ Savable plan w.committed) := by
  unfold setStepState at hrun
  rw [Program.run_bind] at hrun
  rcases run_savePlan (markStep plan stepId state) h.resting.idle with ⟨hsavable, hsave⟩ | ⟨hno, e, hsave⟩
  · rw [hsave] at hrun
    obtain ⟨rfl, rfl⟩ := Prod.mk.inj hrun
    exact .inl ⟨rfl, (savable_markStep _ _).mp hsavable, h.saved hcertified hsave rfl, rfl⟩
  · rw [hsave] at hrun
    obtain ⟨rfl, rfl⟩ := Prod.mk.inj hrun
    exact .inr ⟨e, rfl, rfl, fun hsavable => hno ((savable_markStep _ _).mpr hsavable)⟩

end Standing

/-! ## One step -/

/-- The step is one of the plan, but for its mark. -/
def StepOf (plan : Plan) (step : PlanStep) : Prop :=
  ∃ old ∈ plan.steps, old.id = step.id ∧ old.tool = step.tool

/-- The plan is the one the step was taken up with, but for the mark of that step. -/
def Remarked (base : Plan) (stepId : String) (plan : Plan) : Prop :=
  plan = base ∨ ∃ state, plan = markStep base stepId state

/-- The plan was saved, and only its own steps have been written since. -/
def SavedBefore (plan : Plan) (t : Tables) : Prop :=
  ∃ t₀, Savable plan t₀ ∧ t.planSteps = t₀.planSteps

/-- The step was executed with success since its plan was certified last. -/
def Executed (plan : Plan) (step : PlanStep) (t : Tables) : Prop :=
  ∃ t₀ record, Certified plan t₀ ∧ t.toolExecutions = t₀.toolExecutions ++ [record] ∧
    t.verifications = t₀.verifications ∧ record.taskId = plan.taskId ∧ record.tool = step.tool ∧
    record.outcome = .success

/-- How a step leaves the plan: it is stored under one more mark, and the task is COMPLETED, if it was
not before, only with the last step and its mark. -/
structure StepEnd (host : Host) (base : Plan) (stepId taskId : String) (moreSteps : Bool)
    (before : Prop) (r : Except Err Progress) (t : World) (plan : Plan) : Prop where
  standing : Standing host plan t
  marked : Remarked base stepId plan
  returned : ∀ after, r = .ok after → after.plan = plan ∧ after.current.id = taskId ∧
    (after.stopped = false → plan = markStep base stepId "COMPLETED")
  completed : stateIn t taskId = some .completed →
    before ∨ (moreSteps = false ∧ plan = markStep base stepId "COMPLETED")

section Steps

variable {host : Host} {runner : PlanRunner} {base : Plan} {progress : Progress} {step : PlanStep}
  {moreSteps : Bool} {before : Prop} {w t : World} {r : Except Err Progress}

/-- INTERNAL: a step stays one of the marked plan. -/
theorem StepOf.mark {plan : Plan} (h : StepOf plan step) (stepId state : String) :
    StepOf (markStep plan stepId state) step := by
  obtain ⟨old, hold, hid, htool⟩ := h
  by_cases hsame : old.id = stepId
  · exact ⟨_, mem_markStep.mpr (.inr ⟨old, hold, hsame, rfl⟩), hid, htool⟩
  · exact ⟨old, mem_markStep.mpr (.inl ⟨hold, hsame⟩), hid, htool⟩

/-- INTERNAL: a step of the first plan is one of the remarked plan. -/
theorem Remarked.stepOf {stepId : String} {plan : Plan} (h : Remarked base stepId plan)
    (hstep : StepOf base step) : StepOf plan step := by
  rcases h with rfl | ⟨state, rfl⟩
  · exact hstep
  · exact hstep.mark _ _

/-- INTERNAL: marks leave the plan with its task. -/
theorem Remarked.taskId {stepId : String} {plan : Plan} (h : Remarked base stepId plan) :
    plan.taskId = base.taskId := by
  rcases h with rfl | ⟨state, rfl⟩ <;> rfl

/-- INTERNAL: only the last mark counts. -/
theorem Remarked.markStep_eq {stepId : String} {plan : Plan} (h : Remarked base stepId plan)
    (state : String) : markStep plan stepId state = markStep base stepId state := by
  rcases h with rfl | ⟨old, rfl⟩
  · rfl
  · exact markStep_markStep ..

/-- INTERNAL: a mark does not touch the tasks. -/
theorem stateIn_savedPlan {plan : Plan} (ht : t.committed = savedPlan plan w.committed)
    (taskId : String) : stateIn t taskId = stateIn w taskId := by
  unfold stateIn
  rw [ht]
  rfl

/-- INTERNAL: a plan that was saved can be saved again while its task is there. -/
theorem SavedBefore.savable {plan : Plan} {tables : Tables} (h : SavedBefore plan tables)
    (htask : tables.hasTask plan.taskId = true) : Savable plan tables := by
  obtain ⟨t₀, hsavable, hrows⟩ := h
  exact hsavable.transfer (placed_of_hasTask htask) fun row hrow _ => hrows ▸ hrow

/-- INTERNAL: whatever leaves the plans alone leaves this. -/
theorem SavedBefore.of_planPart {plan : Plan} {tables tables' : Tables} (h : SavedBefore plan tables)
    (hsame : planPart tables' = planPart tables) : SavedBefore plan tables' := by
  obtain ⟨t₀, hsavable, hrows⟩ := h
  exact ⟨t₀, hsavable, (Prod.mk.inj hsame).2.trans hrows⟩

/-- INTERNAL: a task with a state is there. -/
theorem hasTask_of_stateIn {taskId : String} {state : TaskState} (h : stateIn w taskId = some state) :
    w.committed.hasTask taskId = true := by
  unfold stateIn storedState at h
  obtain ⟨task, hfound, -⟩ := Option.map_eq_some_iff.mp h
  refine List.any_eq_true.mpr ⟨task, Table.lookup_mem hfound, ?_⟩
  exact decide_eq_true (Table.lookup_eq_some_key hfound)

/-- INTERNAL: the verification completes the certificate of the step. -/
theorem Executed.complete {plan : Plan} {tables tables' : Tables} (h : Executed plan step tables)
    (hstep : StepOf plan step) (hdistinct : (plan.steps.map PlanStep.id).Nodup)
    {verification : VerificationRecord}
    (hexecutions : tables'.toolExecutions = tables.toolExecutions)
    (hverifications : tables'.verifications = tables.verifications ++ [verification])
    (htask : verification.taskId = plan.taskId) (hverified : verification.verified = true) :
    Certified (markStep plan step.id "COMPLETED") tables' := by
  obtain ⟨t₀, record, hcertified, hadded, hsame, hrecord, htool, hsuccess⟩ := h
  obtain ⟨old, hold, hid, holdTool⟩ := hstep
  rw [← hid]
  refine hcertified.complete hold hdistinct (hexecutions.trans hadded)
    (hverifications.trans (by rw [hsame])) ?_
  exact ⟨rfl, ⟨hrecord, htool.trans holdTool.symm⟩, hsuccess, htask, hverified⟩

/-- INTERNAL: calls that leave the records alone leave this. -/
theorem Executed.spared {plan : Plan} (h : Executed plan step w.committed)
    (hs : Spared host corePart w t) : Executed plan step t.committed := by
  obtain ⟨t₀, record, hcertified, hadded, hsame, hrecord⟩ := h
  obtain ⟨-, hrecords⟩ := Prod.mk.inj hs.part
  obtain ⟨hexecutions, hverifications⟩ := Prod.mk.inj hrecords
  exact ⟨t₀, record, hcertified, hexecutions.trans hadded, hverifications.trans hsame, hrecord⟩

/-- How a step ends inside the `try` when a call of it raised: it is marked FAILED, or what was raised is no
`Exception` and is raised on. -/
def Rescued (progress : Progress) (step : PlanStep) (w : World) (r : Except Err Progress) (t : World) :
    Prop :=
  (failStep progress step).run w = (r, t) ∨ (∃ e, r = .error e) ∧ t = w

/-- INTERNAL: the step is marked FAILED, or that cannot be written. -/
theorem failStep_cases {stored : Plan} (h : Standing host stored w)
    (hstored : Remarked base step.id stored) (hplan : Remarked base step.id progress.plan)
    (hrun : Rescued progress step w r t) :
    (r = .ok { progress with plan := markStep base step.id "FAILED", stopped := true } ∧
      Standing host (markStep base step.id "FAILED") t ∧
      ∀ taskId, stateIn t taskId = stateIn w taskId) ∨
    ((∃ e, r = .error e) ∧ t = w) := by
  rcases hrun with hrun | hraised
  swap
  · exact .inr hraised
  unfold failStep at hrun
  rw [Program.run_bind] at hrun
  generalize hmark : (setStepState progress.plan step.id "FAILED").run w = out at hrun
  obtain ⟨r₁, w₁⟩ := out
  have hmark' : (setStepState stored step.id "FAILED").run w = (r₁, w₁) := by
    rw [← hmark, setStepState, setStepState, hplan.markStep_eq, hstored.markStep_eq]
  rcases h.marked (h.certified.mark step.id (by simp)) hmark' with
    ⟨rfl, -, hstanding, hcommitted⟩ | ⟨e, rfl, rfl, -⟩
  · obtain ⟨rfl, rfl⟩ := Prod.mk.inj hrun
    rw [hstored.markStep_eq] at hstanding ⊢
    exact .inl ⟨rfl, hstanding, stateIn_savedPlan hcommitted⟩
  · obtain ⟨rfl, rfl⟩ := Prod.mk.inj hrun
    exact .inr ⟨⟨e, rfl⟩, rfl⟩

/-- A rescued step ends with the plan standing and the step marked. -/
theorem failStep_end {stored : Plan} (h : Standing host stored w)
    (hstored : Remarked base step.id stored) (hplan : Remarked base step.id progress.plan)
    (hbefore : stateIn w progress.current.id = some .completed → before)
    (hrun : Rescued progress step w r t) :
    ∃ plan, StepEnd host base step.id progress.current.id moreSteps before r t plan := by
  rcases failStep_cases h hstored hplan hrun with ⟨rfl, hstanding, hsame⟩ | ⟨⟨e, rfl⟩, rfl⟩
  · refine ⟨_, hstanding, .inr ⟨_, rfl⟩, fun after hafter => ?_, fun hdone => ?_⟩
    · obtain rfl := Except.ok.inj hafter
      exact ⟨rfl, rfl, fun hgoes => by cases hgoes⟩
    · rw [hsame] at hdone
      exact .inl (hbefore hdone)
  · refine ⟨stored, h, hstored, fun after hafter => ?_, fun hdone => .inl (hbefore hdone)⟩
    cases hafter

/-- INTERNAL: a call inside the `try`, however the step ends. -/
theorem guarded_ran {α : Type} {call : Proc α} {next : α → Proc Progress}
    (h : (guarded progress step call next).run w = (r, t)) :
    (∃ a w₁, call.run w = (.ok a, w₁) ∧ (next a).run w₁ = (r, t)) ∨
    ∃ e w₁, call.run w = (.error e, w₁) ∧ Rescued progress step w₁ r t := by
  unfold guarded at h
  rw [Program.run_bind, Program.run_attempt] at h
  revert h
  rcases call.run w with ⟨r₁, w₁⟩
  cases r₁ with
  | ok a => exact fun h => .inl ⟨a, w₁, rfl, h⟩
  | error e =>
    intro h
    dsimp only at h
    split at h
    · exact .inr ⟨e, w₁, rfl, .inl h⟩
    · obtain ⟨rfl, rfl⟩ := Prod.mk.inj h
      exact .inr ⟨e, w₁, rfl, .inr ⟨⟨e, rfl⟩, rfl⟩⟩

/-- What holds of a step that was authorized, up to its end. -/
structure Underway (host : Host) (base : Plan) (step : PlanStep) (progress : Progress) (w : World) :
    Prop where
  standing : Standing host progress.plan w
  marked : Remarked base step.id progress.plan
  saved : SavedBefore progress.plan w.committed
  stepOf : StepOf progress.plan step
  task : progress.plan.taskId = progress.current.id

/-- INTERNAL: a step under way stays so through what spares the core. -/
theorem Underway.spared (h : Underway host base step progress w) (hs : Spared host corePart w t) :
    Underway host base step progress t :=
  ⟨h.standing.spared hs, h.marked, h.saved.of_planPart (Prod.mk.inj hs.part).1, h.stepOf, h.task⟩

/-- INTERNAL: rescuing it ends the step. -/
theorem Underway.failStep (h : Underway host base step progress w)
    (hnot : stateIn w progress.current.id ≠ some .completed)
    (hrun : Rescued progress step w r t) :
    ∃ plan, StepEnd host base step.id progress.current.id moreSteps before r t plan :=
  failStep_end h.standing h.marked h.marked (fun hdone => absurd hdone hnot) hrun

/-- INTERNAL: the step is marked FAILED inside the `try`. -/
theorem Underway.stopAt (h : Underway host base step progress w)
    (hnot : stateIn w progress.current.id ≠ some .completed)
    (hrun : (stopAt progress step).run w = (r, t)) :
    ∃ plan, StepEnd host base step.id progress.current.id moreSteps before r t plan := by
  rcases guarded_ran hrun with ⟨after, w₁, hfail, hnext⟩ | ⟨e, w₁, hfail, hnext⟩
  · obtain ⟨rfl, rfl⟩ := Prod.mk.inj hnext
    exact h.failStep hnot (.inl hfail)
  · rcases failStep_cases h.standing h.marked h.marked (.inl hfail) with ⟨hok, -⟩ | ⟨-, rfl⟩
    · cases hok
    · exact h.failStep hnot hnext

/-- INTERNAL: the step is marked COMPLETED, which can be written as the mark RUNNING could.
SOURCE: execution/plan_runner.py:204 -/
theorem Underway.finishStep (h : Underway host base step progress w)
    (hcertified : Certified (markStep progress.plan step.id "COMPLETED") w.committed)
    {state : TaskState} (hstate : stateIn w progress.current.id = some state)
    (hlast : state = .completed → moreSteps = false)
    (hrun : (finishStep progress step).run w = (r, t)) :
    ∃ plan, StepEnd host base step.id progress.current.id moreSteps before r t plan := by
  have hsavable : Savable progress.plan w.committed :=
    h.saved.savable (h.task ▸ hasTask_of_stateIn hstate)
  rcases guarded_ran hrun with ⟨plan, w₁, hmark, hrun⟩ | ⟨e, w₁, hmark, hrun⟩
  · rcases h.standing.marked hcertified hmark with ⟨hplan, -, hstanding, hcommitted⟩ | ⟨e, he, -⟩
    · obtain rfl := Except.ok.inj hplan
      obtain ⟨rfl, rfl⟩ := Prod.mk.inj hrun
      refine ⟨_, hstanding, .inr ⟨_, h.marked.markStep_eq _⟩, fun after hafter => ?_, fun hdone => ?_⟩
      · obtain rfl := Except.ok.inj hafter
        exact ⟨rfl, rfl, fun _ => h.marked.markStep_eq _⟩
      · rw [stateIn_savedPlan hcommitted, hstate] at hdone
        exact .inr ⟨hlast (Option.some.inj hdone), h.marked.markStep_eq _⟩
    · cases he
  · rcases h.standing.marked hcertified hmark with ⟨hok, -⟩ | ⟨-, -, -, hno⟩
    · cases hok
    · exact absurd hsavable hno

/-- INTERNAL: a step that was executed with success, from the verification on.
SOURCE: execution/plan_runner.py:194-204 -/
theorem Underway.verifyStep (hrunner : TaskCalls runner) (hrecords : RecordCalls host runner)
    (h : Underway host base step progress w)
    (hexecuted : Executed progress.plan step w.committed)
    (hverifying : stateIn w progress.current.id = some .verifying)
    (hrun : (verifyStep runner progress step moreSteps).run w = (r, t)) :
    ∃ plan, StepEnd host base step.id progress.current.id moreSteps before r t plan := by
  rcases guarded_ran hrun with ⟨result, w₁, hverify, hnext⟩ | ⟨e, w₁, hverify, hnext⟩
  · obtain ⟨hspared, hadded, htask⟩ := hrecords.verify h.standing.resting hverify
    obtain ⟨-, hid, -, -, hstored⟩ := hrunner.verify h.standing.resting.idle hverify
    obtain ⟨hplans, hexecutions⟩ := Prod.mk.inj hspared.part
    have hgrown : Grown host w w₁ :=
      VerificationAdded.grown h.standing.numbered hspared (r := .ok result) ⟨hadded, htask⟩
    have hunder : Underway host base step { progress with current := result.task } w₁ :=
      ⟨h.standing.grow hplans hgrown, h.marked, h.saved.of_planPart hplans, h.stepOf,
        h.task.trans hid.symm⟩
    rw [← hid] at hstored ⊢
    split at hnext
    · next hverified =>
      rw [hverified] at hstored
      have hcertified : Certified (markStep progress.plan step.id "COMPLETED") w₁.committed :=
        hexecuted.complete h.stepOf h.standing.distinct hexecutions hadded
          (htask.trans h.task.symm) hverified
      refine hunder.finishStep hcertified hstored (fun hcompleted => ?_) hnext
      revert hcompleted
      cases moreSteps <;> simp [verifiedState]
    · next hrefuted =>
      refine hunder.stopAt ?_ hnext
      show stateIn w₁ result.task.id ≠ _
      rw [hstored, Bool.eq_false_iff.mpr hrefuted]
      simp [verifiedState]
  · obtain ⟨hspared, hadded⟩ := hrecords.verify h.standing.resting hverify
    obtain ⟨-, hsame⟩ := hrunner.verify h.standing.resting.idle hverify
    obtain ⟨hplans, -⟩ := Prod.mk.inj hspared.part
    have hgrown : Grown host w w₁ :=
      VerificationAdded.grown h.standing.numbered hspared (r := .error e) hadded
    have hunder : Underway host base step progress w₁ :=
      ⟨h.standing.grow hplans hgrown, h.marked, h.saved.of_planPart hplans, h.stepOf, h.task⟩
    refine hunder.failStep ?_ hnext
    rw [hsame, hverifying]
    simp

/-- INTERNAL: from the scan of the output on.
SOURCE: execution/plan_runner.py:186-204 -/
theorem Underway.scanStep (hrunner : TaskCalls runner) (hrecords : RecordCalls host runner)
    (h : Underway host base step progress w)
    (hexecuted : Executed progress.plan step w.committed)
    (hverifying : stateIn w progress.current.id = some .verifying) {data : Value}
    (hrun : (scanStep runner progress step data moreSteps).run w = (r, t)) :
    ∃ plan, StepEnd host base step.id progress.current.id moreSteps before r t plan := by
  have hspares := hrecords.scan progress.current step.tool data w h.standing.resting
  rcases guarded_ran hrun with ⟨scan, w₁, hscan, hnext⟩ | ⟨e, w₁, hscan, hnext⟩
  · rw [hscan] at hspares
    obtain ⟨-, hsame⟩ := hrunner.scan h.standing.resting.idle hscan
    have hstored : stateIn w₁ progress.current.id = some .verifying := hsame.trans hverifying
    split at hnext
    · refine (h.spared hspares).stopAt ?_ hnext
      rw [hstored]
      simp
    · exact (h.spared hspares).verifyStep hrunner hrecords (hexecuted.spared hspares) hstored hnext
  · rw [hscan] at hspares
    obtain ⟨-, hscans⟩ := hrunner.scan h.standing.resting.idle hscan
    refine (h.spared hspares).failStep ?_ hnext
    rcases hscans with hsame | ⟨-, hhalted⟩
    · rw [hsame, hverifying]
      simp
    · rw [hhalted]
      simp

/-- INTERNAL: from the execution on.
SOURCE: execution/plan_runner.py:171-204 -/
theorem Underway.executeStep (hrunner : TaskCalls runner) (hrecords : RecordCalls host runner)
    (h : Underway host base step progress w)
    (hrunning : stateIn w progress.current.id = some .running)
    (hrun : (executeStep runner progress step moreSteps).run w = (r, t)) :
    ∃ plan, StepEnd host base step.id progress.current.id moreSteps before r t plan := by
  rcases guarded_ran hrun with ⟨result, w₁, hexecute, hnext⟩ | ⟨e, w₁, hexecute, hnext⟩
  · obtain ⟨hresting, hkept⟩ := hrecords.execute h.standing.resting h.standing.numbered hexecute
    obtain ⟨-, -, hid, -, -, hstored⟩ := hrunner.execute h.standing.resting.idle hexecute
    obtain ⟨hplans, hverifications⟩ := Prod.mk.inj hkept.part
    have hunder : Underway host base step
        { progress with current := result.task, results := progress.results ++ [result] } w₁ :=
      ⟨h.standing.executed hresting hkept, h.marked, h.saved.of_planPart hplans, h.stepOf,
        h.task.trans hid.symm⟩
    rw [← hid] at hstored ⊢
    have hnot : stateIn w₁ result.task.id ≠ some .completed := by
      rw [hstored]
      cases result.outcome <;> simp [executedState]
    dsimp only at hnext
    split at hnext
    · exact hunder.stopAt hnot hnext
    · next hsuccess =>
      have hsuccess' : result.outcome = .success := not_not.mp hsuccess
      split at hnext
      · exact hunder.stopAt hnot hnext
      · obtain ⟨record, hadded, htask, htool, -, houtcome⟩ := hkept.added
        rw [hsuccess'] at hstored houtcome
        refine hunder.scanStep hrunner hrecords ?_ hstored hnext
        exact ⟨w.committed, record, h.standing.certified, hadded, hverifications,
          htask.trans h.task.symm, htool, houtcome⟩
  · obtain ⟨hresting, hkept⟩ := hrecords.execute h.standing.resting h.standing.numbered hexecute
    obtain ⟨-, hexecutes⟩ := hrunner.execute h.standing.resting.idle hexecute
    obtain ⟨hplans, -⟩ := Prod.mk.inj hkept.part
    have hunder : Underway host base step progress w₁ :=
      ⟨h.standing.executed hresting hkept, h.marked, h.saved.of_planPart hplans, h.stepOf, h.task⟩
    refine hunder.failStep ?_ hnext
    rcases hexecutes with hsame | ⟨-, -, hhalted⟩
    · rw [hsame, hrunning]
      simp
    · rw [hhalted]
      simp

/-- INTERNAL: pure checks spare everything. -/
theorem Spares.ofExcept {α γ : Type} {part : Tables → γ} (x : Except Err α) :
    Spares host part (Program.ofExcept x : Proc α) :=
  (Serves.ofExcept x).spares (.ofExcept x)

/-- INTERNAL: a handler that spares what its body spares. -/
theorem Spares.tryCatch {α γ : Type} {part : Tables → γ} {p : Proc α} {f : Err → Proc α}
    (hp : Spares host part p) (hf : ∀ e, Spares host part (f e)) :
    Spares host part (MonadExcept.tryCatch p f) := by
  intro w hw
  have hspared := hp w hw
  have hrun : ((MonadExcept.tryCatch p f).run w) = _ := Program.run_tryCatch p f w
  rw [hrun]
  revert hspared
  rcases p.run w with ⟨r, t⟩
  cases r with
  | ok a => exact id
  | error e => exact fun hspared => hspared.trans (hf e t hspared.resting)

variable {actingUser : String} {explicitUserAck : Bool}

/-- INTERNAL: a missing confirmation is noted. -/
theorem spares_noteConfirmation {α γ : Type} {part : Tables → γ} (e : Err) :
    Spares host part (noteConfirmation host e : Proc α) := by
  unfold noteConfirmation
  split
  · exact .bind ((Serves.now host).spares (.now host)) fun _ => (Serves.throw _).spares (.throw _)
  · exact (Serves.throw _).spares (.throw _)

/-- INTERNAL: what follows the mark writes no plan.
SOURCE: execution/plan_runner.py:135-168 -/
theorem authorizeRest_spares (hrecords : RecordCalls host runner) (step : PlanStep) (plan : Plan)
    (current : Task) (actingUser : String) (explicitUserAck : Bool) (hw : Resting host w) : (do
      let (declaration, _) ← Program.ofExcept (runner.tools.get step.tool)
      let profileId ← Program.ofExcept (snapshotProfileId host.py current)
      let outcome ← tryCatch (runner.evaluateAndAuthorize current
        (authorizationFor plan step declaration.capabilities actingUser profileId explicitUserAck))
        (noteConfirmation host)
      pure (plan, outcome.task) : Proc (Plan × Task)).Sat (fun _ _ => True)
      (fun r t => Spared host corePart w t ∧ ∀ authorized, r = .ok authorized → authorized.1 = plan)
      w := by
  refine sat_spared_bind (.ofExcept _) hw (fun tool t₁ h₁ => ?_) fun e t h => ⟨h, fun a ha => ?_⟩
  case refine_2 => cases ha
  refine sat_spared_bind (.ofExcept _) h₁.resting (fun profileId t₂ h₂ => ?_)
    fun e t h => ⟨h₁.trans h, fun a ha => ?_⟩
  case refine_2 => cases ha
  refine sat_spared_bind (.tryCatch (hrecords.authorize _ _) fun e => spares_noteConfirmation e)
    h₂.resting (fun outcome t₃ h₃ => ?_) fun e t h => ⟨h₁.trans (h₂.trans h), fun a ha => ?_⟩
  case refine_2 => cases ha
  refine ⟨h₁.trans (h₂.trans h₃), fun a ha => ?_⟩
  obtain rfl := Except.ok.inj ha
  rfl

/-- INTERNAL: up to the authorization, the plan is stored under the mark RUNNING.
SOURCE: execution/plan_runner.py:133-170 -/
theorem authorizeStep_kept (hrecords : RecordCalls host runner)
    (h : Standing host progress.plan w) {r : Except Err (Plan × Task)}
    (hrun : (authorizeStep runner host progress step actingUser explicitUserAck).run w = (r, t)) :
    ((∃ e, r = .error e) ∧ t = w) ∨
    (Standing host (markStep progress.plan step.id "RUNNING") t ∧
      SavedBefore (markStep progress.plan step.id "RUNNING") t.committed ∧
      ∀ authorized, r = .ok authorized →
        authorized.1 = markStep progress.plan step.id "RUNNING") := by
  unfold authorizeStep at hrun
  rw [Program.run_bind] at hrun
  generalize hmark : (setStepState progress.plan step.id "RUNNING").run w = out at hrun
  obtain ⟨r₁, w₁⟩ := out
  rcases h.marked (h.certified.mark step.id (by simp)) hmark with
    ⟨rfl, hsavable, hstanding, hcommitted⟩ | ⟨e, rfl, rfl, -⟩
  case inr =>
    obtain ⟨rfl, rfl⟩ := Prod.mk.inj hrun
    exact .inl ⟨⟨e, rfl⟩, rfl⟩
  have hsaved : SavedBefore (markStep progress.plan step.id "RUNNING") w₁.committed := by
    refine ⟨w₁.committed, (savable_markStep _ _).mpr (hsavable.transfer ?_ ?_), rfl⟩
    · rw [hcommitted]
      exact placed_savedPlan (markStep progress.plan step.id "RUNNING") w.committed
    · intro row hrow hother
      rw [hcommitted] at hrow
      exact mem_savedPlan_other hrow hother
  have hafter : ∀ {v : World}, Spared host corePart w₁ v →
      Standing host (markStep progress.plan step.id "RUNNING") v ∧
      SavedBefore (markStep progress.plan step.id "RUNNING") v.committed :=
    fun hs => ⟨hstanding.spared hs, hsaved.of_planPart (Prod.mk.inj hs.part).1⟩
  have hend := (authorizeRest_spares hrecords step (markStep progress.plan step.id "RUNNING")
    progress.current actingUser explicitUserAck hstanding.resting).run
  dsimp only at hrun
  rw [hrun] at hend
  exact .inr ⟨(hafter hend.1).1, (hafter hend.1).2, hend.2⟩

/-- A step keeps the plan certified, and moves its task to COMPLETED only as the last one.
SOURCE: execution/plan_runner.py:121-212 -/
theorem runStep_end (hrunner : TaskCalls runner) (hrecords : RecordCalls host runner)
    (h : Standing host progress.plan w) (hstep : StepOf progress.plan step)
    (htask : progress.plan.taskId = progress.current.id)
    (hrun : (runStep runner host actingUser explicitUserAck progress step moreSteps).run w = (r, t)) :
    ∃ plan, StepEnd host progress.plan step.id progress.current.id moreSteps
      (stateIn w progress.current.id = some .completed) r t plan := by
  have hauthorize : ∀ {r v}, (authorizeStep runner host progress step actingUser explicitUserAck).run
      w = (r, v) → _ := fun hrun => hrun ▸ (authorizes_authorizeStep hrunner h.resting.idle).run
  rcases guarded_ran hrun with ⟨⟨plan, current⟩, w₁, hcall, hnext⟩ | ⟨e, w₁, hcall, hnext⟩
  · obtain ⟨-, hid, -, -, hrunning⟩ := hauthorize hcall
    rcases authorizeStep_kept hrecords h hcall with ⟨⟨e, he⟩, -⟩ | ⟨hstanding, hsaved, hplan⟩
    · cases he
    obtain rfl : plan = _ := hplan _ rfl
    have hunder : Underway host progress.plan step { progress with
        plan := markStep progress.plan step.id "RUNNING"
        current := current } w₁ :=
      ⟨hstanding, .inr ⟨_, rfl⟩, hsaved, hstep.mark _ _, htask.trans hid.symm⟩
    rw [← hid] at hrunning ⊢
    exact hunder.executeStep hrunner hrecords hrunning hnext
  · obtain ⟨-, hsame⟩ := hauthorize hcall
    rcases authorizeStep_kept hrecords h hcall with ⟨-, rfl⟩ | ⟨hstanding, -, -⟩
    · exact failStep_end h (.inl rfl) (.inl rfl) id hnext
    · exact failStep_end hstanding (.inr ⟨_, rfl⟩) (.inl rfl) (fun hdone => hsame ▸ hdone) hnext

end Steps

end Shea.Analysis
