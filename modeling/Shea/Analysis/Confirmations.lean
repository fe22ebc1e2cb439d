import Shea.Model.Interaction
import Shea.Analysis.PlanRuns
import Shea.Analysis.Rejections

/-!
# Missing acknowledgements

A decision service that misses an acknowledgement raises, `handle_text` has a result for that, and
between the two stands the loop of the plan runner, whose own handler takes every exception for a
failed step. What the runner can still raise is a constraint of the database or a plan that is no
graph; so the result is never returned.
-/

set_option autoImplicit false

namespace Shea.Analysis

open Shea.Model Shea.Computation

/-- The exception is not a missing acknowledgement. -/
def Acknowledged (e : Err) : Prop :=
  ∀ taskId decision assessment, e ≠ .authorizationRequired taskId decision assessment

/-! ## What the runner raises -/

namespace Acknowledged

/-- INTERNAL: a TypeError asks for no confirmation. -/
theorem typeError (message : String) : Acknowledged (.typeError message) :=
  fun _ _ _ h => nomatch h

/-- INTERNAL: nor does a ValueError. -/
theorem valueError (message : String) : Acknowledged (.valueError message) :=
  fun _ _ _ h => nomatch h

/-- INTERNAL: nor a RuntimeError. -/
theorem runtimeError (message : String) : Acknowledged (.runtimeError message) :=
  fun _ _ _ h => nomatch h

/-- INTERNAL: nor an error of the database. -/
theorem integrityError (message : String) : Acknowledged (.integrityError message) :=
  fun _ _ _ h => nomatch h

/-- INTERNAL: a missing acknowledgement is an `Exception`. -/
theorem of_not_isException {e : Err} (h : e.isException ≠ true) : Acknowledged e := by
  rintro taskId decision assessment rfl
  exact h rfl

end Acknowledged

section Graph

variable (py : Stdlib)

/-- INTERNAL: iterating over a value raises a TypeError at most. -/
theorem fails_elementsOf (value : Value) : Fails Acknowledged (elementsOf value) := by
  fun_induction elementsOf value with
  | case1 => exact .ok _
  | case2 => exact .ok _
  | case3 => exact .ok _
  | case4 _ _ value ih => exact ih
  | case5 => exact .error (.typeError _)

/-- INTERNAL: so does taking it for a pair. -/
theorem fails_pairOf (value : Value) : Fails Acknowledged (pairOf value) := by
  have helements : ∀ items, Fails Acknowledged (pairOfElements items) := by
    intro items
    unfold pairOfElements
    split
    · exact .ite (.ok _) (.error (.typeError _))
    · exact .error (.valueError _)
  fun_cases pairOf value with
  | case1 => exact .ok _
  | case2 => exact .error (.typeError _)
  | case3 => exact .bind (fails_elementsOf value) helements

/-- INTERNAL: making a dictionary of pairs. -/
theorem fails_dictOfPairs (entries : PyDict) (items : List Value) :
    Fails Acknowledged (dictOfPairs entries items) := by
  induction items generalizing entries with
  | nil => exact .ok _
  | cons item rest ih => exact .bind (fails_pairOf item) fun pair => ih _

/-- INTERNAL: and of any value. -/
theorem fails_dictOf (value : Value) : Fails Acknowledged (dictOf value) := by
  fun_induction dictOf value with
  | case1 => exact .ok _
  | case2 _ _ value ih => exact ih
  | case3 => exact .ok _
  | case4 => exact .error (.typeError _)
  | case5 value => exact .bind (fails_elementsOf value) fun _ => fails_dictOfPairs _ _

/-- INTERNAL: or of nothing. -/
theorem fails_dictOr (value : Value) : Fails Acknowledged (dictOr value) :=
  .ite (.ok _) (fails_dictOf value)

/-- INTERNAL: the text of a value. -/
theorem fails_strOf (value : Value) : Fails Acknowledged (strOf py value) :=
  .ite (.ok _) (.error (.valueError _))

/-- INTERNAL: the nodes of a graph. -/
theorem fails_nodesOf (steps : List PlanStep) :
    Fails Acknowledged (OperationGraph.nodesOf py steps) := by
  induction steps with
  | nil => exact .ok _
  | cons step rest ih =>
    have hnode : Fails Acknowledged (OperationGraph.nodeOf py step) :=
      .bind (fails_strOf py _) fun _ => .bind (fails_dictOr _) fun _ =>
        .bind (fails_strOf py _) fun _ => .pure _
    exact .bind hnode fun node => .bind ih fun nodes => .pure _

/-- INTERNAL: the rounds of the sort. -/
theorem fails_rounds (fuel : ℕ) (deps : OperationGraph.Waiting) :
    Fails Acknowledged (OperationGraph.rounds fuel deps) := by
  induction fuel generalizing deps with
  | zero =>
    cases deps with
    | nil => exact .ok _
    | cons _ _ => exact .error (.valueError _)
  | succ fuel ih =>
    cases deps with
    | nil => exact .ok _
    | cons first rest =>
      exact .ite (.error (.valueError _)) (.map (ih _))

/-- INTERNAL: the order of the nodes. -/
theorem fails_topologicalOrder (nodes : List OperationNode) :
    Fails Acknowledged (OperationGraph.topologicalOrder nodes) := .map (fails_rounds _ _)

/-- INTERNAL: the graph of a plan. -/
theorem fails_fromPlan (plan : Plan) : Fails Acknowledged (OperationGraph.fromPlan py plan) := by
  have hdependencies (nodes : List OperationNode) :
      Fails Acknowledged (OperationGraph.checkDependencies nodes) := by
    unfold OperationGraph.checkDependencies
    split
    · exact .ok _
    · exact .error (.valueError _)
  refine .bind (fails_nodesOf py _) fun nodes => .bind ?_ fun _ => .pure _
  exact .bind (hdependencies nodes) fun _ => .bind (fails_topologicalOrder nodes) fun _ => .pure _

end Graph

/-- INTERNAL: storing a plan misses no acknowledgement. -/
theorem throws_savePlan (plan : Plan) : (PlanRepository.save plan).Throws Acknowledged := by
  have hchecked (holds : Tables → Bool) (message : String) (statement : Tables → Tables) :
      (executeChecked holds message statement).Throws Acknowledged := by
    refine Program.throws_bind (fun _ => trivial) fun ok => ?_
    cases ok
    · exact Acknowledged.integrityError _
    · trivial
  have hinsert (step : PlanStep) : (PlanRepository.insertStep plan step).Throws Acknowledged := by
    refine Program.throws_bind ?_ fun _ => hchecked _ _ _
    unfold requireSerializable
    split
    · trivial
    · exact Acknowledged.typeError _
  have hsteps (steps : List PlanStep) :
      (PlanRepository.insertSteps plan steps).Throws Acknowledged := by
    induction steps with
    | nil => trivial
    | cons step rest ih => exact Program.throws_bind (hinsert step) fun _ => ih
  exact throws_withUow <| Program.throws_bind (hchecked _ _ _) fun _ =>
    Program.throws_bind (fun _ => trivial) fun _ => hsteps _

section Runner

variable (runner : PlanRunner) (host : Host) (actingUser : String) (explicitUserAck : Bool)

/-- INTERNAL: nor does marking a step FAILED. -/
theorem throws_failStep (progress : PlanRunner.Progress) (step : PlanStep) :
    (PlanRunner.failStep progress step).Throws Acknowledged :=
  Program.throws_bind (Program.throws_bind (throws_savePlan _) fun _ => trivial) fun _ => trivial

/-- INTERNAL: a call inside the `try` raises what is no `Exception`, at most.
SOURCE: execution/plan_runner.py:204-208 -/
theorem throws_guarded {α : Type} {call : Proc α} {next : α → Proc PlanRunner.Progress}
    (progress : PlanRunner.Progress) (step : PlanStep) (hnext : ∀ a, (next a).Throws Acknowledged) :
    (PlanRunner.guarded progress step call next).Throws Acknowledged := by
  refine Program.throws_bind (Program.throws_attempt call) fun outcome => ?_
  cases outcome with
  | ok a => exact hnext a
  | error e =>
    dsimp only
    split
    · exact throws_failStep progress step
    · next hinterrupt => exact Acknowledged.of_not_isException hinterrupt

/-- INTERNAL: the body of the loop.
SOURCE: execution/plan_runner.py:133-208 -/
theorem throws_runStep (progress : PlanRunner.Progress) (step : PlanStep) (moreSteps : Bool) :
    (PlanRunner.runStep runner host actingUser explicitUserAck progress step moreSteps).Throws
      Acknowledged := by
  have hstop (progress : PlanRunner.Progress) :
      (PlanRunner.stopAt progress step).Throws Acknowledged :=
    throws_guarded progress step fun _ => trivial
  refine throws_guarded _ _ fun authorized => throws_guarded _ _ fun result => ?_
  refine Program.throws_ite (hstop _) (Program.throws_ite (hstop _) ?_)
  refine throws_guarded _ _ fun scan => Program.throws_ite (hstop _) ?_
  refine throws_guarded _ _ fun verified => Program.throws_ite ?_ (hstop _)
  exact throws_guarded _ _ fun plan => trivial

/-- INTERNAL: the loop.
SOURCE: execution/plan_runner.py:122-211 -/
theorem throws_runSteps (progress : PlanRunner.Progress) (pending : List PlanStep) :
    (PlanRunner.runSteps runner host actingUser explicitUserAck progress pending).Throws
      Acknowledged := by
  induction pending generalizing progress with
  | nil => trivial
  | cons step rest ih =>
    refine Program.throws_ite (Acknowledged.runtimeError _)
      (Program.throws_bind (fun _ => trivial) ?_)
    have hstep := throws_runStep runner host actingUser explicitUserAck progress step !rest.isEmpty
    exact fun _ => Program.throws_bind hstep fun after => Program.throws_ite trivial (ih after)

/-- INTERNAL: an `Exception` that a compensation raises is dropped.
SOURCE: execution/plan_runner.py:213-235 -/
theorem throws_compensate (progress : PlanRunner.Progress) (nodes : List OperationNode) :
    (PlanRunner.compensate runner host progress nodes).Throws Acknowledged := by
  induction nodes generalizing progress with
  | nil => trivial
  | cons node rest ih =>
    have hresult (result : Except Err ExecutionOutcomeRecord) :
        Fails Acknowledged (PlanRunner.withResult progress result) := by
      cases result with
      | ok _ => exact .ok _
      | error e =>
        show Fails Acknowledged (if e.isException then .ok progress else .error e)
        split
        · exact .ok _
        · next hinterrupt => exact .error (Acknowledged.of_not_isException hinterrupt)
    exact Program.throws_bind (Program.throws_attempt _) fun result =>
      Program.throws_bind (hresult result).throws fun progress => ih progress

/-- INTERNAL: a run misses no acknowledgement.
SOURCE: execution/plan_runner.py:81-242 -/
theorem throws_run (task : Task) :
    (runner.run host task actingUser explicitUserAck).Throws Acknowledged := by
  have hunwind (ordered : List OperationNode) (progress : PlanRunner.Progress)
      (stopped : Option PlanStep) :
      (PlanRunner.unwind runner host ordered progress stopped).Throws Acknowledged := by
    cases stopped with
    | none => trivial
    | some step => exact Program.throws_ite (throws_compensate runner host _ _) trivial
  refine Program.throws_bind (fun _ => trivial) fun stored => ?_
  cases stored with
  | none => exact Acknowledged.valueError _
  | some plan =>
    refine Program.throws_bind (fails_fromPlan _ plan).throws fun nodes => ?_
    refine Program.throws_bind (fails_topologicalOrder nodes).throws fun ordered => ?_
    refine Program.throws_ite (Acknowledged.valueError _) (Program.throws_ite trivial ?_)
    have hsteps := throws_runSteps runner host actingUser explicitUserAck
    exact Program.throws_bind (hsteps _ _) fun after =>
      Program.throws_bind (hunwind _ _ _) fun _ => trivial

end Runner

/-! ## What an interaction returns -/

/-- A result that asks for an acknowledgement, or carries a decision that waits for one. -/
def AsksUser (result : InteractionResult) : Prop :=
  result.error = some "authorization_required" ∨ result.pendingDecision.isSome

/-- INTERNAL: a text that starts in another way. -/
theorem ne_of_head {lead : String} {c : Char} (hlead : lead.toList.head? = some c) (hc : c ≠ 'a')
    (text : String) : lead ++ text ≠ "authorization_required" := by
  intro h
  have hheads : (lead ++ text).toList.head? = some 'a' := congrArg (·.toList.head?) h
  rw [String.toList_append, List.head?_append, hlead] at hheads
  exact hc (Option.some.inj hheads)

section Service

variable (service : InteractionService) (host : Host) (given : TextRequest)

/-- INTERNAL: an answer.
SOURCE: app/interaction/service.py:115-133 -/
theorem yields_converse (request : Request) (draft : IntentDraft) :
    (service.converse host given request draft).Yields fun result => ¬ AsksUser result := by
  have hplain (message : String) : ¬ AsksUser { message := some message } := by
    rintro (h | h)
    · cases h
    · cases h
  refine Program.yields_bind fun answer => ?_
  cases answer with
  | none => exact hplain _
  | some message =>
    refine Program.yields_bind fun _ => Program.yields_bind fun permitted => ?_
    cases permitted
    · exact hplain _
    · exact Program.yields_bind fun _ => hplain _

/-- A result that is final asks for nothing. -/
def SettledQuietly : InteractionService.Prepared → Prop
  | .final result => ¬ AsksUser result
  | .planned _ => True

/-- INTERNAL: what comes before the run.
SOURCE: app/interaction/service.py:107-189 -/
theorem yields_prepared :
    (tryCatch (service.prepare host given) (InteractionService.recoverPlanning host given)).Yields
      SettledQuietly := by
  refine Program.yields_tryCatch ?_ fun e => ?_
  · refine Program.yields_bind fun request => Program.yields_bind fun understanding => ?_
    refine Program.yields_ite ?_ (Program.yields_bind fun planning => trivial)
    exact (yields_converse service host given request understanding.draft).bind
      fun result hresult => hresult
  · have hsynthesized (e : Err) : (InteractionService.synthesize host given
        ("Critical failure during planning: " ++ host.errText e)).Yields
        fun result => ¬ AsksUser result := by
      refine Program.yields_bind fun _ => Program.yields_bind fun _ => Program.yields_bind fun _ =>
        Program.yields_bind fun _ => Program.yields_bind fun _ => ?_
      rintro (h | h)
      · exact ne_of_head (c := 'C') (by decide) (by decide) _ (Option.some.inj h)
      · cases h
    have hother (e : Err) : (if e.isException then do
          let result ← InteractionService.synthesize host given
            ("Critical failure during planning: " ++ host.errText e)
          pure (.final result)
        else throw e : Proc InteractionService.Prepared).Yields SettledQuietly := by
      split
      · exact (hsynthesized e).bind fun result hresult => hresult
      · trivial
    unfold InteractionService.recoverPlanning
    split
    · rintro (h | h)
      · exact absurd (Option.some.inj h) (by decide)
      · cases h
    · exact hother _

/-- INTERNAL: the run of a planned task.
SOURCE: app/interaction/service.py:195-220 -/
theorem yields_runReady (planning : PlanningOutcome) :
    (service.runReady host given planning).Yields fun result => ¬ AsksUser result := by
  refine (throws_run service.runner host given.actor given.explicitUserAck
    planning.task).attempt.bind fun outcome houtcome => ?_
  cases outcome with
  | ok result =>
    rintro (h | h)
    · cases h
    · cases h
  | error e =>
    dsimp only
    split
    · -- what is left is no missing acknowledgement
      cases e with
      | authorizationRequired taskId decision assessment =>
        exact absurd rfl (houtcome _ rfl taskId decision assessment)
      | _ =>
        rintro (h | h)
        · exact ne_of_head (c := 'C') (by decide) (by decide) _ (Option.some.inj h)
        · cases h
    · trivial

/-- INTERNAL: what happens to a planned task. -/
theorem yields_proceed (planning : PlanningOutcome) :
    (service.proceed host given planning).Yields fun result => ¬ AsksUser result := by
  refine Program.yields_ite ?_ (Program.yields_ite ?_ (yields_runReady service host given planning))
  · rintro (h | h)
    · have hlead := Option.some.inj h
      rw [String.append_assoc] at hlead
      exact ne_of_head (c := 'p') (by decide) (by decide) _ hlead
    · cases h
  · rintro (h | h)
    · cases h
    · cases h

/-- No result of `handle_text` asks for an acknowledgement: whatever the services of the runner
decide, a missing one has become a failed step by then.
SOURCE: app/interaction/service.py:98-220, execution/plan_runner.py:133-208 -/
theorem confirmation_never_surfaced (w : World) :
    ¬ ∃ result, ((service.handleText host given).run w).1 = .ok result ∧ AsksUser result := by
  have hyields : (service.handleText host given).Yields fun result => ¬ AsksUser result := by
    refine (yields_prepared service host given).bind fun prepared hprepared => ?_
    cases prepared with
    | final result => exact hprepared
    | planned planning => exact yields_proceed service host given planning
  rintro ⟨result, hrun, hasks⟩
  exact hyields.of_run hrun hasks

end Service

/-! ## A step that waits for an acknowledgement -/

/-- A decision service to which every step is irreversible and touches foreign content. -/
def wary (host : Host) (task : Task) (request : AuthorizationRequest) : Proc DecisionOutcome :=
  DecisionService.evaluateAndAuthorize
    { risk := { elevatedPrivilegeCapabilities := ["data.read"] } } host task
    { request with reversible := false, externalContentInvolved := true }

/-- Notes, taken under that service. -/
def waryInteraction (host : Host) (handler : ToolHandler) : InteractionService :=
  { planning := notesPlanning handler
    runner := { PlanRunner.ofServices host {} (notesExecution handler) {} with
      evaluateAndAuthorize := wary host } }

/-- The step needs an acknowledgement: that is audited. What comes back is a READY task with no error
and no decision, and a step that is FAILED. -/
theorem confirmation_swallowed :
    (((waryInteraction (.plain [] []) answering).handleText (.plain [] [])
        { text := "note", explicitUserAck := false }).run {}).1.toOption.map (fun result =>
      (result.task.map (·.state), result.error, result.pendingDecision)) =
        some (some .ready, none, none) ∧
    (((waryInteraction (.plain [] []) answering).handleText (.plain [] [])
        { text := "note", explicitUserAck := false }).run {}).2.committed.auditEvents.any
      (·.eventType = "decision.authorization.awaiting") ∧
    (((waryInteraction (.plain [] []) answering).handleText (.plain [] [])
        { text := "note", explicitUserAck := false }).run {}).2.committed.planSteps.map (·.state) =
      ["FAILED"] := by
  decide +kernel

end Shea.Analysis
