import Shea.Analysis.RunnerCalls

/-!
# How a run of a plan ends

A run goes through the pending steps and stops at the first one that does not end well. What the
caller gets back is the task as the runner last saw it; what is stored is the task as the services
left it. The runner sees a move only when the service that made it returns.

`StepCourse` lists the ways a step can end. A step is left in flight when its execution raises and
leaves the task RUNNING, or when the scan of its output or its verification stops the run while the
task is VERIFYING; it is left unseen when its execution halts the task and raises.
-/

set_option autoImplicit false

namespace Shea.Analysis

open Shea.Computation Shea.Model
open Shea.Model.PlanRunner

/-! ## Marks and ends of steps -/

section Marks

variable {progress after : Progress} {step : PlanStep} {w t : World}

/-- INTERNAL: saving a plan does not touch tasks. -/
theorem serves_savePlan_tasks (plan : Plan) : Serves Tables.tasks (PlanRepository.save plan) := by
  have hinsert : ∀ steps, Within Tables.tasks (PlanRepository.insertSteps plan steps) := by
    intro steps
    induction steps with
    | nil => exact .pure _
    | cons step rest ih =>
      exact .bind (.bind (.requireSerializable _) fun _ => .executeChecked _ _ fun _ => rfl)
        fun _ => ih
  exact .withUow (.bind (.executeChecked _ _ fun _ => rfl) fun _ => .bind (.execute fun _ => rfl)
    fun _ => hinsert _)

/-- INTERNAL: marking a step serves the tasks. -/
theorem serves_setStepState (plan : Plan) (stepId state : String) :
    Serves Tables.tasks (setStepState plan stepId state) :=
  .bind (serves_savePlan_tasks _) fun _ => .pure _

/-- INTERNAL: so does failing one. -/
theorem serves_failStep (progress : Progress) (step : PlanStep) :
    Serves Tables.tasks (failStep progress step) :=
  .bind (serves_setStepState _ _ _) fun _ => .pure _

/-- INTERNAL: a call inside the `try`, when the step comes to an end. -/
theorem guarded_returned {α : Type} {call : Proc α} {next : α → Proc Progress}
    (h : (guarded progress step call next).run w = (.ok after, t)) :
    (∃ a w₁, call.run w = (.ok a, w₁) ∧ (next a).run w₁ = (.ok after, t)) ∨
    ∃ e w₁, call.run w = (.error e, w₁) ∧ (failStep progress step).run w₁ = (.ok after, t) := by
  -- what is no `Exception` is raised on, and then the step does not come to an end
  obtain ⟨r, w₁, hcall, h⟩ := Program.run_bind_ok h
  rw [Program.run_attempt] at hcall
  obtain ⟨hr, hw₁⟩ := Prod.mk.inj hcall
  have hrun : call.run w = (r, w₁) := Prod.ext (Except.ok.inj hr) hw₁
  cases r with
  | ok a => exact .inl ⟨a, w₁, hrun, h⟩
  | error e =>
    dsimp only at h
    split at h
    · exact .inr ⟨e, w₁, hrun, h⟩
    · cases h

/-- INTERNAL: a step that is marked FAILED. -/
theorem failStep_returned (hw : w.Idle) (h : (failStep progress step).run w = (.ok after, t)) :
    t.Idle ∧ (∀ taskId, stateIn t taskId = stateIn w taskId) ∧ after.stopped = true ∧
      after.current = progress.current := by
  have hnone := (serves_failStep progress step).movesNone w hw
  rw [h] at hnone
  obtain ⟨plan, w₁, -, h⟩ := Program.run_bind_ok h
  obtain ⟨hafter, -⟩ := Prod.mk.inj h
  obtain rfl := Except.ok.inj hafter
  exact ⟨hnone.1, hnone.2, rfl, rfl⟩

/-- INTERNAL: the same inside the `try`. -/
theorem stopAt_returned (hw : w.Idle) (h : (stopAt progress step).run w = (.ok after, t)) :
    t.Idle ∧ (∀ taskId, stateIn t taskId = stateIn w taskId) ∧ after.stopped = true ∧
      after.current = progress.current := by
  rcases guarded_returned h with ⟨a, w₁, hfail, h⟩ | ⟨e, w₁, hfail, h⟩
  · obtain ⟨ha, rfl⟩ := Prod.mk.inj h
    obtain rfl := Except.ok.inj ha
    exact failStep_returned hw hfail
  · have hnone := (serves_failStep progress step).movesNone w hw
    rw [hfail] at hnone
    obtain ⟨hidle, hsame, hstopped, hcurrent⟩ := failStep_returned hnone.1 h
    exact ⟨hidle, fun taskId => (hsame taskId).trans (hnone.2 taskId), hstopped, hcurrent⟩

/-- INTERNAL: a step that is marked COMPLETED, or FAILED when that raises. -/
theorem finishStep_returned (hw : w.Idle) (h : (finishStep progress step).run w = (.ok after, t)) :
    t.Idle ∧ (∀ taskId, stateIn t taskId = stateIn w taskId) ∧ after.current = progress.current := by
  rcases guarded_returned h with ⟨plan, w₁, hmark, h⟩ | ⟨e, w₁, hmark, h⟩
  · have hnone := (serves_setStepState progress.plan step.id "COMPLETED").movesNone w hw
    rw [hmark] at hnone
    obtain ⟨hafter, rfl⟩ := Prod.mk.inj h
    obtain rfl := Except.ok.inj hafter
    exact ⟨hnone.1, hnone.2, rfl⟩
  · have hnone := (serves_setStepState progress.plan step.id "COMPLETED").movesNone w hw
    rw [hmark] at hnone
    obtain ⟨hidle, hsame, -, hcurrent⟩ := failStep_returned hnone.1 h
    exact ⟨hidle, fun taskId => (hsame taskId).trans (hnone.2 taskId), hcurrent⟩

end Marks

section Steps

variable (runner : PlanRunner) (host : Host) (actingUser : String) (explicitUserAck : Bool)
  (progress : Progress) (step : PlanStep) (moreSteps : Bool)

/-- The execution of the step raises; the task it was given, and the state it leaves. -/
def ExecutionRaises (w : World) (current : Task) (w₂ : World) : Prop :=
  ∃ plan w₁ e,
    (authorizeStep runner host progress step actingUser explicitUserAck).run w =
      (.ok (plan, current), w₁) ∧
    (runner.execute current (requestFor current step)).run w₁ = (.error e, w₂)

/-- The step was executed with success, but the scan of its output raises or flags it, or its
verification raises. -/
def OutputStops (w : World) : Prop :=
  ∃ plan current w₁ result w₂,
    (authorizeStep runner host progress step actingUser explicitUserAck).run w =
      (.ok (plan, current), w₁) ∧
    (runner.execute current (requestFor current step)).run w₁ = (.ok result, w₂) ∧
    result.outcome = .success ∧
    ((∃ e w₃, (runner.scanOutput result.task step.tool result.response.data).run w₂ =
        (.error e, w₃)) ∨
      ∃ scan w₃, (runner.scanOutput result.task step.tool result.response.data).run w₂ =
          (.ok scan, w₃) ∧
        (scan.flagged = true ∨ ∃ e w₄, (runner.verify result.task moreSteps).run w₃ = (.error e, w₄)))

/-- The ways a step can end, with the task in memory and its stored state. -/
inductive StepCourse (w : World) (after : Progress) (t : World) : Prop
  /-- It was not authorized: nothing has moved. -/
  | unauthorized (hnone : ∀ current w₂, ¬ ExecutionRaises runner host actingUser explicitUserAck
        progress step w current w₂)
      (hnostop : ¬ OutputStops runner host actingUser explicitUserAck progress step moreSteps w)
      (hstopped : after.stopped = true) (hcurrent : after.current = progress.current)
      (hsame : stateIn t progress.current.id = stateIn w progress.current.id)
  /-- Its execution raised. -/
  | executionRaised (current : Task) (w₂ : World)
      (hraises : ExecutionRaises runner host actingUser explicitUserAck progress step w current w₂)
      (hnostop : ¬ OutputStops runner host actingUser explicitUserAck progress step moreSteps w)
      (hstopped : after.stopped = true) (hcurrent : after.current = current)
      (hid : current.id = progress.current.id) (hstate : current.state = .running)
      (hready : stateIn w progress.current.id = some .ready)
      (hstored : stateIn w₂ progress.current.id = some .running ∨
        stateIn w₂ progress.current.id = some .securityHalt)
      (hsame : stateIn t progress.current.id = stateIn w₂ progress.current.id)
  /-- Its output or its verification stopped the run. -/
  | outputStopped
      (hnone : ∀ current w₂, ¬ ExecutionRaises runner host actingUser explicitUserAck
        progress step w current w₂)
      (hstops : OutputStops runner host actingUser explicitUserAck progress step moreSteps w)
      (hstopped : after.stopped = true) (hid : after.current.id = progress.current.id)
      (hstate : after.current.state = .verifying)
      (hready : stateIn w progress.current.id = some .ready)
      (hstored : stateIn t progress.current.id = some .verifying)
  /-- It failed, or it is verified. -/
  | settled
      (hnone : ∀ current w₂, ¬ ExecutionRaises runner host actingUser explicitUserAck
        progress step w current w₂)
      (hnostop : ¬ OutputStops runner host actingUser explicitUserAck progress step moreSteps w)
      (hid : after.current.id = progress.current.id) (hrunning : after.current.state ≠ .running)
      (hverifying : after.current.state ≠ .verifying)
      (hready : stateIn w progress.current.id = some .ready)
      (hstored : stateIn t progress.current.id = some after.current.state)

variable {runner host actingUser explicitUserAck progress step moreSteps}
variable {w t : World} {after : Progress}

/-- INTERNAL: up to the authorization.
SOURCE: execution/plan_runner.py:136-170 -/
theorem authorizes_authorizeStep (hrunner : TaskCalls runner) (hw : w.Idle) :
    (authorizeStep runner host progress step actingUser explicitUserAck).Sat (fun _ _ => True)
      (fun r t => t.Idle ∧ match r with
        | .ok (_, current) => current.id = progress.current.id ∧ current.state = .running ∧
            stateIn w progress.current.id = some .ready ∧
            stateIn t progress.current.id = some .running
        | .error _ => stateIn t progress.current.id = stateIn w progress.current.id) w := by
  refine sat_kept_bind (serves_setStepState _ _ _) hw (fun plan t₁ ht₁ hs₁ => ?_)
    fun e t ht hs => ⟨ht, hs _⟩
  refine sat_kept_bind (.ofExcept _) ht₁ (fun tool t₂ ht₂ hs₂ => ?_)
    fun e t ht hs => ⟨ht, (hs _).trans (hs₁ _)⟩
  refine sat_kept_bind (.ofExcept _) ht₂ (fun profileId t₃ ht₃ hs₃ => ?_)
    fun e t ht hs => ⟨ht, (hs _).trans ((hs₂ _).trans (hs₁ _))⟩
  have hbefore : stateIn t₃ progress.current.id = stateIn w progress.current.id :=
    (hs₃ _).trans ((hs₂ _).trans (hs₁ _))
  rw [Program.sat_bind]
  refine (Program.sat_tryCatch _ _).mpr (Program.sat_of_run ?_)
  generalize hrun : (runner.evaluateAndAuthorize progress.current _).run t₃ = out
  obtain ⟨r, t₄⟩ := out
  obtain ⟨ht₄, hauthorizes⟩ := hrunner.authorize ht₃ hrun
  cases r with
  | ok outcome =>
    obtain ⟨hid, hstate, hready, hrunning⟩ := hauthorizes
    exact ⟨ht₄, hid, hstate, hbefore ▸ hready, hrunning⟩
  | error e =>
    have hsame : stateIn t₄ progress.current.id = stateIn w progress.current.id :=
      hauthorizes.trans hbefore
    have hnote : Serves Tables.tasks (noteConfirmation host e : Proc DecisionOutcome) := by
      unfold noteConfirmation
      split
      · exact .bind (.now host) fun _ => .throw _
      · exact .throw _
    have hraises : (noteConfirmation host e : Proc DecisionOutcome).Sat (fun _ _ => True)
        (fun r _ => ∃ e', r = .error e') t₄ := by
      unfold noteConfirmation
      split
      · exact ⟨trivial, _, rfl⟩
      · exact ⟨_, rfl⟩
    refine ((sat_still hnote.movesNone ht₄).and hraises).mono (fun _ _ _ => trivial) ?_
    rintro r t ⟨⟨ht, hs⟩, e', rfl⟩
    exact ⟨ht, (hs _).trans hsame⟩

/-- INTERNAL: a step is executed once, with one outcome. -/
theorem executed_unique {plan plan' : Plan} {current current' : Task} {w₁ w₁' w₂ w₂' : World}
    {result result' : ExecutionOutcomeRecord}
    (hauthorized : (authorizeStep runner host progress step actingUser explicitUserAck).run w =
      (.ok (plan, current), w₁))
    (hexecuted : (runner.execute current (requestFor current step)).run w₁ = (.ok result, w₂))
    (hauthorized' : (authorizeStep runner host progress step actingUser explicitUserAck).run w =
      (.ok (plan', current'), w₁'))
    (hexecuted' : (runner.execute current' (requestFor current' step)).run w₁' = (.ok result', w₂')) :
    w₂' = w₂ ∧ result' = result := by
  obtain ⟨ha, rfl⟩ := Prod.mk.inj (hauthorized.symm.trans hauthorized')
  obtain ⟨-, rfl⟩ := Prod.mk.inj (Except.ok.inj ha)
  obtain ⟨hr, rfl⟩ := Prod.mk.inj (hexecuted.symm.trans hexecuted')
  exact ⟨rfl, (Except.ok.inj hr).symm⟩

/-- An execution that returned did not raise. -/
theorem not_executionRaises {plan : Plan} {current : Task} {w₁ w₂ : World}
    {result : ExecutionOutcomeRecord}
    (hauthorized : (authorizeStep runner host progress step actingUser explicitUserAck).run w =
      (.ok (plan, current), w₁))
    (hexecuted : (runner.execute current (requestFor current step)).run w₁ = (.ok result, w₂))
    (current' : Task) (w₂' : World) :
    ¬ ExecutionRaises runner host actingUser explicitUserAck progress step w current' w₂' := by
  rintro ⟨plan', w₁', e, hok, hraises⟩
  obtain ⟨ha, rfl⟩ := Prod.mk.inj (hauthorized.symm.trans hok)
  obtain ⟨-, rfl⟩ := Prod.mk.inj (Except.ok.inj ha)
  cases hexecuted.symm.trans hraises

/-- INTERNAL: a step that was authorized and executed with success.
SOURCE: execution/plan_runner.py:186-212 -/
theorem scanStep_course (hrunner : TaskCalls runner) {plan : Plan} {current : Task} {w₁ w₂ : World}
    {result : ExecutionOutcomeRecord}
    (hauthorized : (authorizeStep runner host progress step actingUser explicitUserAck).run w =
      (.ok (plan, current), w₁))
    (hexecuted : (runner.execute current (requestFor current step)).run w₁ = (.ok result, w₂))
    (hready : stateIn w progress.current.id = some .ready) (hsuccess : result.outcome = .success)
    (hid : result.task.id = progress.current.id) (hstate : result.task.state = .verifying)
    (hstored : stateIn w₂ progress.current.id = some .verifying) (hidle : w₂.Idle)
    {given : Progress} (hgiven : given.current = result.task)
    (h : (scanStep runner given step result.response.data moreSteps).run w₂ = (.ok after, t)) :
    t.Idle ∧ StepCourse runner host actingUser explicitUserAck progress step moreSteps w after t := by
  have hnone : ∀ current' w₂', ¬ ExecutionRaises runner host actingUser explicitUserAck progress step
      w current' w₂' := not_executionRaises hauthorized hexecuted
  have hstop : ∀ {v : World}, stateIn v progress.current.id = some .verifying → after.stopped = true →
      (∀ taskId, stateIn t taskId = stateIn v taskId) → after.current = given.current →
      OutputStops runner host actingUser explicitUserAck progress step moreSteps w →
      StepCourse runner host actingUser explicitUserAck progress step moreSteps w after t := by
    intro v hv hstopped hsame hcurrent hstops
    exact .outputStopped hnone hstops hstopped (by rw [hcurrent, hgiven, hid])
      (by rw [hcurrent, hgiven, hstate]) hready ((hsame _).trans hv)
  unfold scanStep at h
  rw [hgiven] at h
  rcases guarded_returned h with ⟨scan, w₃, hscan, h⟩ | ⟨e, w₃, hscan, h⟩
  · obtain ⟨hidle₃, hscans⟩ := hrunner.scan hidle hscan
    have hs₃ : stateIn w₃ progress.current.id = some .verifying := by
      rw [← hid] at hstored ⊢
      exact hscans.trans hstored
    split at h
    · next hflagged =>
      obtain ⟨hidle', hsame, hstopped, hcurrent⟩ := stopAt_returned hidle₃ h
      exact ⟨hidle', hstop hs₃ hstopped hsame hcurrent
        ⟨plan, current, w₁, result, w₂, hauthorized, hexecuted, hsuccess,
          .inr ⟨scan, w₃, hscan, .inl hflagged⟩⟩⟩
    · next hflagged =>
      unfold verifyStep at h
      rw [hgiven] at h
      rcases guarded_returned h with ⟨verdict, w₄, hverify, h⟩ | ⟨e, w₄, hverify, h⟩
      · obtain ⟨hidle₄, hid₄, hstate₄, -, hstored₄⟩ := hrunner.verify hidle₃ hverify
        have hnostop : ¬ OutputStops runner host actingUser explicitUserAck progress step moreSteps
            w := by
          rintro ⟨plan', current', w₁', result', w₂', hok, hran, -, hstops⟩
          obtain ⟨rfl, rfl⟩ := executed_unique hauthorized hexecuted hok hran
          rcases hstops with ⟨e, w₃', hraises⟩ | ⟨scan', w₃', hran', hflag | ⟨e, w₄', hraises⟩⟩
          · cases hscan.symm.trans hraises
          · obtain ⟨hs, rfl⟩ := Prod.mk.inj (hscan.symm.trans hran')
            obtain rfl := Except.ok.inj hs
            exact hflagged hflag
          · obtain ⟨-, rfl⟩ := Prod.mk.inj (hscan.symm.trans hran')
            cases hverify.symm.trans hraises
        have hend : ∀ {v : World}, after.current = verdict.task →
            (∀ taskId, stateIn v taskId = stateIn w₄ taskId) →
            StepCourse runner host actingUser explicitUserAck progress step moreSteps w after v := by
          intro v hcurrent hsame
          have hlands : after.current.state =
              verifiedState verdict.verification.verified moreSteps := by
            rw [hcurrent, hstate₄]
          refine .settled hnone hnostop (by rw [hcurrent, hid₄, hid]) ?_ ?_ hready ?_
          · rw [hlands]
            unfold verifiedState
            split <;> [skip; split] <;> simp
          · rw [hlands]
            unfold verifiedState
            split <;> [skip; split] <;> simp
          · rw [hsame, ← hid, hstored₄, hlands]
        split at h
        · obtain ⟨hidle', hsame, hcurrent⟩ := finishStep_returned hidle₄ h
          exact ⟨hidle', hend hcurrent hsame⟩
        · obtain ⟨hidle', hsame, -, hcurrent⟩ := stopAt_returned hidle₄ h
          exact ⟨hidle', hend hcurrent hsame⟩
      · obtain ⟨hidle₄, hverifies⟩ := hrunner.verify hidle₃ hverify
        have hs₄ : stateIn w₄ progress.current.id = some .verifying := by
          rw [← hid] at hs₃ ⊢
          exact hverifies.trans hs₃
        obtain ⟨hidle', hsame, hstopped, hcurrent⟩ := failStep_returned hidle₄ h
        exact ⟨hidle', hstop hs₄ hstopped hsame hcurrent
          ⟨plan, current, w₁, result, w₂, hauthorized, hexecuted, hsuccess,
            .inr ⟨scan, w₃, hscan, .inr ⟨e, w₄, hverify⟩⟩⟩⟩
  · obtain ⟨hidle₃, hscans⟩ := hrunner.scan hidle hscan
    have hs₃ : stateIn w₃ progress.current.id = some .verifying := by
      rw [← hid] at hstored ⊢
      rcases hscans with hsame | ⟨hrunning, -⟩
      · exact hsame.trans hstored
      · rw [hstored] at hrunning
        cases hrunning
    obtain ⟨hidle', hsame, hstopped, hcurrent⟩ := failStep_returned hidle₃ h
    exact ⟨hidle', hstop hs₃ hstopped hsame hcurrent
      ⟨plan, current, w₁, result, w₂, hauthorized, hexecuted, hsuccess, .inl ⟨e, w₃, hscan⟩⟩⟩

/-- Every step that comes to an end takes one of these courses.
SOURCE: execution/plan_runner.py:121-212 -/
theorem runStep_course (hrunner : TaskCalls runner) (hw : w.Idle)
    (h : (runStep runner host actingUser explicitUserAck progress step moreSteps).run w =
      (.ok after, t)) :
    t.Idle ∧ StepCourse runner host actingUser explicitUserAck progress step moreSteps w after t := by
  have hauthorize : ∀ {r v}, (authorizeStep runner host progress step actingUser explicitUserAck).run
      w = (r, v) → _ := fun hrun => hrun ▸ (authorizes_authorizeStep hrunner hw).run
  rcases guarded_returned h with ⟨⟨plan, current⟩, w₁, hcall, h⟩ | ⟨e, w₁, hcall, h⟩
  · obtain ⟨hidle₁, hid, hstate, hready, hrunning⟩ := hauthorize hcall
    rcases guarded_returned h with ⟨result, w₂, hexecute, h⟩ | ⟨e, w₂, hexecute, h⟩
    · obtain ⟨hidle₂, -, hid₂, hstate₂, -, hstored₂⟩ := hrunner.execute hidle₁ hexecute
      have hid₂' : result.task.id = progress.current.id := hid₂.trans hid
      rw [hid] at hstored₂
      dsimp only at h
      split at h
      · next hfailed =>
        obtain ⟨hidle, hsame, -, hcurrent⟩ := stopAt_returned hidle₂ h
        have hlands : after.current.state = executedState result.outcome := by
          rw [hcurrent]
          exact hstate₂
        have hended : executedState result.outcome ≠ .running ∧
            executedState result.outcome ≠ .verifying := by
          revert hfailed
          cases result.outcome <;> simp [executedState]
        refine ⟨hidle, .settled ?_ ?_ ?_ ?_ ?_ hready ?_⟩
        · exact not_executionRaises hcall hexecute
        · rintro ⟨plan', current', w₁', result', w₂', hok, hran, hsuccess, -⟩
          obtain ⟨-, rfl⟩ := executed_unique hcall hexecute hok hran
          exact hfailed hsuccess
        · rw [hcurrent]
          exact hid₂'
        · rw [hlands]
          exact hended.1
        · rw [hlands]
          exact hended.2
        · rw [hsame, hstored₂, hlands]
      · next hsuccess =>
        have hsuccess' : result.outcome = .success := not_not.mp hsuccess
        rw [hsuccess'] at hstate₂ hstored₂
        split at h
        · next hother => exact absurd hstate₂ hother
        · exact scanStep_course hrunner hcall hexecute hready hsuccess' hid₂' hstate₂ hstored₂ hidle₂
            rfl h
    · obtain ⟨hidle₂, hexecutes⟩ := hrunner.execute hidle₁ hexecute
      obtain ⟨hidle, hsame, hstopped, hcurrent⟩ := failStep_returned hidle₂ h
      have hstored : stateIn w₂ progress.current.id = some .running ∨
          stateIn w₂ progress.current.id = some .securityHalt := by
        rw [← hid] at hrunning ⊢
        exact hexecutes.imp (fun h => h.trans hrunning) fun h => h.2.2
      refine ⟨hidle, .executionRaised current w₂ ⟨plan, w₁, e, hcall, hexecute⟩ ?_ hstopped hcurrent hid
        hstate hready hstored (hsame _)⟩
      rintro ⟨plan', current', w₁', result', w₂', hok, hran, -⟩
      obtain ⟨ha, rfl⟩ := Prod.mk.inj (hcall.symm.trans hok)
      obtain ⟨-, rfl⟩ := Prod.mk.inj (Except.ok.inj ha)
      cases hexecute.symm.trans hran
  · obtain ⟨hidle₁, hsame₁⟩ := hauthorize hcall
    obtain ⟨hidle, hsame, hstopped, hcurrent⟩ := failStep_returned hidle₁ h
    refine ⟨hidle, .unauthorized ?_ ?_ hstopped hcurrent ((hsame _).trans hsame₁)⟩
    · rintro current w₂ ⟨plan, w₁', e', hok, -⟩
      cases hcall.symm.trans hok
    · rintro ⟨plan, current, w₁', result, w₂, hok, -⟩
      cases hcall.symm.trans hok

end Steps

/-! ## The compensations -/

section Compensations

variable (runner : PlanRunner) (host : Host)

/-- The compensations of a step that failed. -/
def compensations (ordered : List OperationNode) (step : PlanStep) : List OperationNode :=
  if (ordered.find? (·.stepId = step.id)).any (·.failurePolicy = "compensate") then
    OperationGraph.compensationChain ordered step.id
  else []

/-- A compensation takes the task out of RUNNING: one returns with such an outcome, or one halts the
task and raises. -/
def TakenOut (outcomes : ExecutionOutcome → Prop) (current : Task) :
    List OperationNode → World → Prop
  | [], _ => False
  | node :: rest, w =>
    match (runner.execute current (compensationFor host.py current node)).run w with
    | (.ok result, _) => outcomes result.outcome
    | (.error _, t) =>
      stateIn t current.id ≠ some .running ∨ TakenOut outcomes current rest t

variable {runner host} {progress after : Progress} {w w₁ t : World}

/-- INTERNAL: what the run does after a step that failed. -/
theorem unwind_some (ordered : List OperationNode) (progress : Progress) (step : PlanStep) :
    unwind runner host ordered progress (some step) =
      compensate runner host progress (compensations ordered step) := by
  simp only [unwind, compensations]
  split <;> rfl

/-- INTERNAL: one compensation after the other, up to one that is interrupted. -/
theorem compensate_cons (node : OperationNode) (rest : List OperationNode)
    {r : Except Err ExecutionOutcomeRecord}
    (hexecute : (runner.execute progress.current
      (compensationFor host.py progress.current node)).run w = (r, w₁)) :
    (compensate runner host progress (node :: rest)).run w =
      match withResult progress r with
      | .ok next => (compensate runner host next rest).run w₁
      | .error e => (.error e, w₁) := by
  rw [compensate, Program.run_bind, Program.run_attempt, hexecute]
  dsimp only
  rw [Program.run_bind, Program.run_ofExcept]
  cases withResult progress r <;> rfl

/-- INTERNAL: the same, when they come to an end. -/
theorem compensate_returned {node : OperationNode} {rest : List OperationNode}
    {r : Except Err ExecutionOutcomeRecord}
    (hexecute : (runner.execute progress.current
      (compensationFor host.py progress.current node)).run w = (r, w₁))
    (h : (compensate runner host progress (node :: rest)).run w = (.ok after, t)) :
    ∃ next, withResult progress r = .ok next ∧
      (compensate runner host next rest).run w₁ = (.ok after, t) := by
  rw [compensate_cons node rest hexecute] at h
  cases hresult : withResult progress r with
  | error e =>
    rw [hresult] at h
    cases h
  | ok next =>
    rw [hresult] at h
    exact ⟨next, rfl, h⟩

/-- INTERNAL: what is raised and dropped leaves the progress alone. -/
theorem withResult_error {progress next : Progress} {e : Err}
    (h : withResult progress (.error e) = .ok next) : progress = next := by
  dsimp only [withResult] at h
  split at h
  · exact Except.ok.inj h
  · cases h

/-- INTERNAL: unless the task is RUNNING in memory and in the store, a compensation does nothing to
it.
SOURCE: execution/service.py:229-232 -/
theorem compensate_idle (hrunner : TaskCalls runner) (nodes : List OperationNode) (hw : w.Idle)
    (hnot : progress.current.state ≠ .running ∨
      stateIn w progress.current.id ≠ some .running)
    (h : (compensate runner host progress nodes).run w = (.ok after, t)) :
    after.current = progress.current ∧
      stateIn t progress.current.id = stateIn w progress.current.id := by
  induction nodes generalizing progress w with
  | nil =>
    obtain ⟨hafter, rfl⟩ := Prod.mk.inj h
    obtain rfl := Except.ok.inj hafter
    exact ⟨rfl, rfl⟩
  | cons node rest ih =>
    generalize hexecute : (runner.execute progress.current
      (compensationFor host.py progress.current node)).run w = out
    obtain ⟨r, w₁⟩ := out
    obtain ⟨next, hnext, hrest⟩ := compensate_returned hexecute h
    obtain ⟨hidle, hexecutes⟩ := hrunner.execute hw hexecute
    cases r with
    | ok result =>
      obtain ⟨hmemory, -, -, hstored, -⟩ := hexecutes
      rcases hnot with hnot | hnot
      · exact absurd hmemory hnot
      · exact absurd hstored hnot
    | error e =>
      obtain rfl := withResult_error hnext
      have hsame : stateIn w₁ progress.current.id = stateIn w progress.current.id := by
        rcases hexecutes with hsame | ⟨hmemory, hstored, -⟩
        · exact hsame
        · rcases hnot with hnot | hnot
          · exact absurd hmemory hnot
          · exact absurd hstored hnot
      obtain ⟨hcurrent, hlast⟩ := ih hidle (hsame.symm ▸ hnot) hrest
      exact ⟨hcurrent, hlast.trans hsame⟩

/-- The compensations of a RUNNING task: it stays RUNNING, one halts it behind the runner's back, or
one returns and moves it.
SOURCE: execution/plan_runner.py:214-233 -/
theorem compensate_running (hrunner : TaskCalls runner) (nodes : List OperationNode) (hw : w.Idle)
    (hstored : stateIn w progress.current.id = some .running)
    (h : (compensate runner host progress nodes).run w = (.ok after, t)) :
    (after.current = progress.current ∧ stateIn t progress.current.id = some .running ∧
      ∀ outcomes, ¬ TakenOut runner host outcomes progress.current nodes w) ∨
    (after.current = progress.current ∧ stateIn t progress.current.id = some .securityHalt ∧
      ∀ outcomes, TakenOut runner host outcomes progress.current nodes w) ∨
    ∃ outcome, after.current.id = progress.current.id ∧
      after.current.state = executedState outcome ∧
      stateIn t progress.current.id = some (executedState outcome) ∧
      ∀ outcomes, TakenOut runner host outcomes progress.current nodes w ↔ outcomes outcome := by
  induction nodes generalizing w with
  | nil =>
    obtain ⟨hafter, rfl⟩ := Prod.mk.inj h
    obtain rfl := Except.ok.inj hafter
    exact .inl ⟨rfl, hstored, fun _ => id⟩
  | cons node rest ih =>
    generalize hexecute : (runner.execute progress.current
      (compensationFor host.py progress.current node)).run w = out
    obtain ⟨r, w₁⟩ := out
    obtain ⟨next, hnext, hrest⟩ := compensate_returned hexecute h
    obtain ⟨hidle, hexecutes⟩ := hrunner.execute hw hexecute
    simp only [TakenOut, hexecute]
    cases r with
    | ok result =>
      obtain rfl := Except.ok.inj hnext
      obtain ⟨-, hid, hstate, -, hmoved⟩ := hexecutes
      have hended : executedState result.outcome ≠ .running := by
        cases result.outcome <;> simp [executedState]
      obtain ⟨hcurrent, hlast⟩ := compensate_idle hrunner rest hidle
        (.inl (by rw [hstate]; exact hended)) hrest
      refine .inr (.inr ⟨result.outcome, ?_, ?_, ?_, fun _ => Iff.rfl⟩)
      · rw [hcurrent]
        exact hid
      · rw [hcurrent]
        exact hstate
      · rw [← hmoved, ← hid]
        exact hlast
    | error e =>
      obtain rfl := withResult_error hnext
      rcases hexecutes with hsame | ⟨-, -, hhalted⟩
      · have hstill : stateIn w₁ progress.current.id = some .running := hsame.trans hstored
        rcases ih hidle hstill hrest with ⟨hcurrent, hlast, hnone⟩ | ⟨hcurrent, hlast, hall⟩ |
          ⟨outcome, hid, hstate, hlast, hiff⟩
        · exact .inl ⟨hcurrent, hlast, fun outcomes hout => hout.elim (· hstill) (hnone outcomes)⟩
        · exact .inr (.inl ⟨hcurrent, hlast, fun outcomes => .inr (hall outcomes)⟩)
        · refine .inr (.inr ⟨outcome, hid, hstate, hlast, fun outcomes => ?_⟩)
          rw [← hiff outcomes]
          exact ⟨fun hout => hout.elim (fun hother => absurd hstill hother) id, .inr⟩
      · have hother : stateIn w₁ progress.current.id ≠ some .running := by
          rw [hhalted]
          simp
        obtain ⟨hcurrent, hlast⟩ := compensate_idle hrunner rest hidle (.inr hother) hrest
        exact .inr (.inl ⟨hcurrent, hlast.trans hhalted, fun _ => .inl hother⟩)

end Compensations

/-! ## The loop -/

section Loop

variable (runner : PlanRunner) (host : Host) (actingUser : String) (explicitUserAck : Bool)
  (ordered : List OperationNode)

/-- The run comes to a step that is such. -/
def ComesTo (such : Progress → PlanStep → Bool → World → Prop) :
    Progress → List PlanStep → World → Prop
  | _, [], _ => False
  | progress, step :: rest, w =>
    let begun := ((note (.stepStarted progress.plan.taskId step.id)).run w).2
    such progress step (!rest.isEmpty) begun ∨ ∃ after t,
      (runStep runner host actingUser explicitUserAck progress step (!rest.isEmpty)).run begun =
        (.ok after, t) ∧ after.stopped = false ∧ ComesTo such after rest t

/-- The step is left in flight: its output or its verification stops the run, or its execution raises
and leaves the task RUNNING, and no compensation that fails or halts takes it out. -/
def LeftInFlight (progress : Progress) (step : PlanStep) (moreSteps : Bool) (w : World) : Prop :=
  OutputStops runner host actingUser explicitUserAck progress step moreSteps w ∨
  ∃ current w₂ after t,
    ExecutionRaises runner host actingUser explicitUserAck progress step w current w₂ ∧
    stateIn w₂ current.id = some .running ∧
    (runStep runner host actingUser explicitUserAck progress step moreSteps).run w = (.ok after, t) ∧
    ¬ TakenOut runner host (· ≠ .success) current (compensations ordered step) t

/-- The step is halted behind the runner's back: its execution halts the task and raises, or it raises
and leaves the task RUNNING, and a compensation halts it and raises. -/
def HaltedUnseen (progress : Progress) (step : PlanStep) (moreSteps : Bool) (w : World) : Prop :=
  ∃ current w₂,
    ExecutionRaises runner host actingUser explicitUserAck progress step w current w₂ ∧
    (stateIn w₂ current.id ≠ some .running ∨ ∃ after t,
      (runStep runner host actingUser explicitUserAck progress step moreSteps).run w =
        (.ok after, t) ∧
      TakenOut runner host (fun _ => False) current (compensations ordered step) t)

variable {runner host actingUser explicitUserAck ordered}
variable {progress after : Progress} {step : PlanStep} {w t : World}

/-- INTERNAL: an execution raises in one way. -/
theorem ExecutionRaises.unique {current current' : Task} {w₂ w₂' : World}
    (h : ExecutionRaises runner host actingUser explicitUserAck progress step w current w₂)
    (h' : ExecutionRaises runner host actingUser explicitUserAck progress step w current' w₂') :
    current' = current ∧ w₂' = w₂ := by
  obtain ⟨plan, w₁, e, hok, hraises⟩ := h
  obtain ⟨plan', w₁', e', hok', hraises'⟩ := h'
  obtain ⟨ha, rfl⟩ := Prod.mk.inj (hok.symm.trans hok')
  obtain ⟨-, rfl⟩ := Prod.mk.inj (Except.ok.inj ha)
  obtain ⟨-, rfl⟩ := Prod.mk.inj (hraises.symm.trans hraises')
  exact ⟨rfl, rfl⟩

/-- INTERNAL: a step whose execution raised is left in flight if nothing takes the task out. -/
theorem ExecutionRaises.leftInFlight {moreSteps : Bool} {current : Task} {w₂ : World}
    (hraises : ExecutionRaises runner host actingUser explicitUserAck progress step w current w₂)
    (hnostop : ¬ OutputStops runner host actingUser explicitUserAck progress step moreSteps w)
    (hstep : (runStep runner host actingUser explicitUserAck progress step moreSteps).run w =
      (.ok after, t)) :
    LeftInFlight runner host actingUser explicitUserAck ordered progress step moreSteps w ↔
      stateIn w₂ current.id = some .running ∧
        ¬ TakenOut runner host (· ≠ .success) current (compensations ordered step) t := by
  constructor
  · rintro (hstops | ⟨current', w₂', after', t', hraises', hstored, hstep', hnot⟩)
    · exact absurd hstops hnostop
    · obtain ⟨rfl, rfl⟩ := hraises.unique hraises'
      obtain ⟨-, rfl⟩ := Prod.mk.inj (hstep.symm.trans hstep')
      exact ⟨hstored, hnot⟩
  · rintro ⟨hstored, hnot⟩
    exact .inr ⟨current, w₂, after, t, hraises, hstored, hstep, hnot⟩

/-- INTERNAL: the same for a task that is halted. -/
theorem ExecutionRaises.haltedUnseen {moreSteps : Bool} {current : Task} {w₂ : World}
    (hraises : ExecutionRaises runner host actingUser explicitUserAck progress step w current w₂)
    (hstep : (runStep runner host actingUser explicitUserAck progress step moreSteps).run w =
      (.ok after, t)) :
    HaltedUnseen runner host actingUser explicitUserAck ordered progress step moreSteps w ↔
      (stateIn w₂ current.id ≠ some .running ∨
        TakenOut runner host (fun _ => False) current (compensations ordered step) t) := by
  constructor
  · rintro ⟨current', w₂', hraises', hhalted⟩
    obtain ⟨rfl, rfl⟩ := hraises.unique hraises'
    refine hhalted.imp id ?_
    rintro ⟨after', t', hstep', htaken⟩
    obtain ⟨-, rfl⟩ := Prod.mk.inj (hstep.symm.trans hstep')
    exact htaken
  · rintro hhalted
    exact ⟨current, w₂, hraises, hhalted.imp id fun htaken => ⟨after, t, hstep, htaken⟩⟩

/-- INTERNAL: a step whose execution does not raise. -/
theorem not_leftInFlight {moreSteps : Bool}
    (hnone : ∀ current w₂, ¬ ExecutionRaises runner host actingUser explicitUserAck progress step w
      current w₂)
    (hnostop : ¬ OutputStops runner host actingUser explicitUserAck progress step moreSteps w) :
    ¬ LeftInFlight runner host actingUser explicitUserAck ordered progress step moreSteps w := by
  rintro (hstops | ⟨current, w₂, after, t, hraises, -⟩)
  · exact hnostop hstops
  · exact hnone current w₂ hraises

/-- INTERNAL: where nothing is raised, no halt goes unseen. -/
theorem not_haltedUnseen {moreSteps : Bool}
    (hnone : ∀ current w₂, ¬ ExecutionRaises runner host actingUser explicitUserAck progress step w
      current w₂) :
    ¬ HaltedUnseen runner host actingUser explicitUserAck ordered progress step moreSteps w := by
  rintro ⟨current, w₂, hraises, -⟩
  exact hnone current w₂ hraises

/-- The task is RUNNING or VERIFYING in the store. -/
def InFlight (w : World) (taskId : String) : Prop :=
  stateIn w taskId = some .running ∨ stateIn w taskId = some .verifying

/-- INTERNAL: a task is in flight by its state. -/
theorem inFlight_iff_of_eq {taskId : String} {state : TaskState} (h : stateIn w taskId = some state) :
    InFlight w taskId ↔ state = .running ∨ state = .verifying := by
  unfold InFlight
  rw [h, Option.some.injEq, Option.some.injEq]

/-- What is to be said about a run that ended in `u` with the task `last`. -/
structure Ending (w u : World) (first last : Task) (flight unseen : Prop) : Prop where
  id : last.id = first.id
  flight : stateIn w first.id = some first.state → first.state ≠ .running →
    first.state ≠ .verifying → (InFlight u first.id ↔ flight)
  agrees : stateIn u first.id = some last.state ↔ stateIn w first.id = some first.state ∧ ¬ unseen

/-- INTERNAL: the ending of a run whose task is ready in memory. -/
theorem Ending.of_ready {u : World} {first last : Task} {flight unseen : Prop}
    (hmemory : first.state = .ready) (id : last.id = first.id)
    (hflight : stateIn w first.id = some .ready → (InFlight u first.id ↔ flight))
    (hagrees : stateIn u first.id = some last.state ↔ stateIn w first.id = some .ready ∧ ¬ unseen) :
    Ending w u first last flight unseen := by
  rw [← hmemory] at hflight hagrees
  exact ⟨id, fun hstored _ _ => hflight hstored, hagrees⟩

/-- INTERNAL: an ending by an exception of the execution. -/
theorem ending_executionRaised (hrunner : TaskCalls runner) {moreSteps : Bool} {last : Progress}
    {u w₂ : World} (ht : t.Idle) (hmemory : progress.current.state = .ready)
    (hraises : ExecutionRaises runner host actingUser explicitUserAck progress step w after.current w₂)
    (hnostop : ¬ OutputStops runner host actingUser explicitUserAck progress step moreSteps w)
    (hstep : (runStep runner host actingUser explicitUserAck progress step moreSteps).run w =
      (.ok after, t))
    (hid : after.current.id = progress.current.id) (hstate : after.current.state = .running)
    (hready : stateIn w progress.current.id = some .ready)
    (hstored : stateIn w₂ progress.current.id = some .running ∨ stateIn w₂ progress.current.id = some .securityHalt)
    (hsame : stateIn t progress.current.id = stateIn w₂ progress.current.id)
    (hunwind : (compensate runner host after (compensations ordered step)).run t = (.ok last, u)) :
    Ending w u progress.current last.current
      (LeftInFlight runner host actingUser explicitUserAck ordered progress step moreSteps w)
      (HaltedUnseen runner host actingUser explicitUserAck ordered progress step moreSteps w) := by
  rw [← hid] at hready hstored hsame
  rw [hraises.leftInFlight hnostop hstep, hraises.haltedUnseen hstep]
  rcases hstored with hrunning | hhalted
  · rcases compensate_running hrunner _ ht (hsame.trans hrunning) hunwind with
      ⟨hcurrent, hlast, hnone⟩ | ⟨hcurrent, hlast, hall⟩ | ⟨outcome, hid', hlands, hlast, hiff⟩
    · refine .of_ready hmemory ((congrArg Task.id hcurrent).trans hid) (fun _ => ?_) ?_
      · rw [← hid]
        simp [inFlight_iff_of_eq hlast, hrunning, hnone]
      · rw [← hid]
        simp [hlast, hcurrent, hstate, hready, hrunning, hnone]
    · refine .of_ready hmemory ((congrArg Task.id hcurrent).trans hid) (fun _ => ?_) ?_
      · rw [← hid]
        simp [inFlight_iff_of_eq hlast, hall]
      · rw [← hid]
        simp [hlast, hcurrent, hstate, hall]
    · refine .of_ready hmemory (hid'.trans hid) (fun _ => ?_) ?_
      · rw [← hid, inFlight_iff_of_eq hlast, hiff]
        cases outcome <;> simp [executedState, hrunning]
      · rw [← hid]
        simp [hlast, hlands, hready, hrunning, hiff]
  · obtain ⟨hcurrent, hlast⟩ := compensate_idle hrunner _ ht
      (.inr (by rw [hsame, hhalted]; simp)) hunwind
    have hlast' : stateIn u after.current.id = some .securityHalt := hlast.trans (hsame.trans hhalted)
    refine .of_ready hmemory ((congrArg Task.id hcurrent).trans hid) (fun _ => ?_) ?_
    · rw [← hid]
      simp [inFlight_iff_of_eq hlast', hhalted]
    · rw [← hid]
      simp [hlast', hcurrent, hstate, hhalted]

/-- How a run ends at a step that stopped it, given that the task was READY in memory.
SOURCE: execution/plan_runner.py:121-240 -/
theorem ending_stopped (hrunner : TaskCalls runner) {moreSteps : Bool} {last : Progress} {u : World}
    (hw : w.Idle) (hmemory : progress.current.state = .ready)
    (hstep : (runStep runner host actingUser explicitUserAck progress step moreSteps).run w =
      (.ok after, t))
    (hunwind : (unwind runner host ordered after (some step)).run t = (.ok last, u)) :
    Ending w u progress.current last.current
      (LeftInFlight runner host actingUser explicitUserAck ordered progress step moreSteps w)
      (HaltedUnseen runner host actingUser explicitUserAck ordered progress step moreSteps w) := by
  rw [unwind_some] at hunwind
  obtain ⟨ht, hcourse⟩ := runStep_course hrunner hw hstep
  cases hcourse with
  | unauthorized hnone hnostop hstopped hcurrent hsame =>
    obtain ⟨hlast, hstored⟩ := compensate_idle hrunner _ ht
      (.inl (by rw [hcurrent, hmemory]; simp)) hunwind
    rw [hcurrent] at hlast hstored
    have hkept : stateIn u progress.current.id = stateIn w progress.current.id := hstored.trans hsame
    refine .of_ready hmemory (congrArg Task.id hlast) (fun hready => ?_) ?_
    · simp [inFlight_iff_of_eq (hkept.trans hready), not_leftInFlight hnone hnostop]
    · simp [hkept, hlast, hmemory, not_haltedUnseen hnone]
  | executionRaised current w₂ hraises hnostop hstopped hcurrent hid hstate hready hstored hsame =>
    obtain rfl := hcurrent
    exact ending_executionRaised hrunner ht hmemory hraises hnostop hstep hid hstate hready hstored
      hsame hunwind
  | outputStopped hnone hstops hstopped hid hstate hready hstored =>
    obtain ⟨hlast, hkept⟩ := compensate_idle hrunner _ ht (.inl (by rw [hstate]; simp)) hunwind
    rw [hid, hstored] at hkept
    refine .of_ready hmemory ((congrArg Task.id hlast).trans hid) (fun _ => ?_) ?_
    · simp [inFlight_iff_of_eq hkept, LeftInFlight, hstops]
    · simp [hkept, hlast, hstate, hready, not_haltedUnseen hnone]
  | settled hnone hnostop hid hrunning hverifying hready hstored =>
    obtain ⟨hlast, hkept⟩ := compensate_idle hrunner _ ht (.inl hrunning) hunwind
    rw [hid, hstored] at hkept
    refine .of_ready hmemory ((congrArg Task.id hlast).trans hid) (fun _ => ?_) ?_
    · simp [inFlight_iff_of_eq hkept, not_leftInFlight hnone hnostop, hrunning, hverifying]
    · simp [hkept, hlast, hready, not_haltedUnseen hnone]

/-- INTERNAL: a step that does not stop the run is verified, and the runner has seen it. -/
theorem runStep_goes_on (ordered : List OperationNode) (hrunner : TaskCalls runner) {moreSteps : Bool} (hw : w.Idle)
    (hstep : (runStep runner host actingUser explicitUserAck progress step moreSteps).run w =
      (.ok after, t)) (hgoes : after.stopped = false) :
    t.Idle ∧ stateIn w progress.current.id = some .ready ∧
      after.current.id = progress.current.id ∧
      stateIn t after.current.id = some after.current.state ∧
      after.current.state ≠ .running ∧ after.current.state ≠ .verifying ∧
      ¬ LeftInFlight runner host actingUser explicitUserAck ordered progress step moreSteps w ∧
      ¬ HaltedUnseen runner host actingUser explicitUserAck ordered progress step moreSteps w := by
  obtain ⟨ht, hcourse⟩ := runStep_course hrunner hw hstep
  cases hcourse with
  | unauthorized hnone hnostop hstopped hcurrent hsame => exact absurd hstopped (by simp [hgoes])
  | executionRaised current w₂ hraises hnostop hstopped hcurrent hid hstate hready hstored hsame =>
    exact absurd hstopped (by simp [hgoes])
  | outputStopped hnone hstops hstopped hid hstate hready hstored =>
    exact absurd hstopped (by simp [hgoes])
  | settled hnone hnostop hid hrunning hverifying hready hstored =>
    exact ⟨ht, hready, hid, hid ▸ hstored, hrunning, hverifying, not_leftInFlight hnone hnostop,
      not_haltedUnseen hnone⟩

/-- INTERNAL: where the run comes to from a step that does not stop it. -/
theorem comesTo_cons {such : Progress → PlanStep → Bool → World → Prop} {rest : List PlanStep}
    {begun : World}
    (hbegun : (note (.stepStarted progress.plan.taskId step.id)).run w = (.ok (), begun))
    (hstep : (runStep runner host actingUser explicitUserAck progress step (!rest.isEmpty)).run begun =
      (.ok after, t)) :
    ComesTo runner host actingUser explicitUserAck such progress (step :: rest) w ↔
      such progress step (!rest.isEmpty) begun ∨
        (after.stopped = false ∧ ComesTo runner host actingUser explicitUserAck such after rest t) := by
  simp only [ComesTo, hbegun]
  refine or_congr Iff.rfl ⟨?_, fun ⟨hgoes, hcomes⟩ => ⟨after, t, hstep, hgoes, hcomes⟩⟩
  rintro ⟨after', t', hstep', hgoes, hcomes⟩
  obtain ⟨hafter, rfl⟩ := Prod.mk.inj (hstep.symm.trans hstep')
  obtain rfl := Except.ok.inj hafter
  exact ⟨hgoes, hcomes⟩

/-- How the loop and what follows it end.
SOURCE: execution/plan_runner.py:121-240 -/
theorem ending_runSteps (hrunner : TaskCalls runner) {steps : List PlanStep}
    {stopped : Option PlanStep} {last : Progress} {u : World} (hw : w.Idle)
    (hloop : (runSteps runner host actingUser explicitUserAck progress steps).run w =
      (.ok (after, stopped), t))
    (hunwind : (unwind runner host ordered after stopped).run t = (.ok last, u)) :
    Ending w u progress.current last.current
      (ComesTo runner host actingUser explicitUserAck
        (LeftInFlight runner host actingUser explicitUserAck ordered) progress steps w)
      (ComesTo runner host actingUser explicitUserAck
        (HaltedUnseen runner host actingUser explicitUserAck ordered) progress steps w) := by
  induction steps generalizing progress w with
  | nil =>
    obtain ⟨hafter, rfl⟩ := Prod.mk.inj hloop
    obtain ⟨rfl, rfl⟩ := Prod.mk.inj (Except.ok.inj hafter)
    obtain ⟨hlast, rfl⟩ := Prod.mk.inj hunwind
    obtain rfl := Except.ok.inj hlast
    refine ⟨rfl, fun hstored hrunning hverifying => ?_, by simp [ComesTo]⟩
    simp [inFlight_iff_of_eq hstored, ComesTo, hrunning, hverifying]
  | cons step rest ih =>
    unfold runSteps at hloop
    split at hloop
    · cases hloop
    next hmemory =>
    have hmemory' : progress.current.state = .ready := not_not.mp hmemory
    obtain ⟨_, begun, hbegun, hloop⟩ := Program.run_bind_ok hloop
    obtain ⟨next, v, hstep, hloop⟩ := Program.run_bind_ok hloop
    have hbegunIdle : begun.Idle := by
      have hidle := Closes.note (.stepStarted progress.plan.taskId step.id) w hw
      rwa [hbegun] at hidle
    have hsame : ∀ taskId, stateIn begun taskId = stateIn w taskId := by
      obtain ⟨-, rfl⟩ := Prod.mk.inj hbegun
      exact fun _ => rfl
    rw [comesTo_cons hbegun hstep, comesTo_cons hbegun hstep]
    split at hloop
    · next hstopped =>
      obtain ⟨hafter, rfl⟩ := Prod.mk.inj hloop
      obtain ⟨rfl, rfl⟩ := Prod.mk.inj (Except.ok.inj hafter)
      have hend := ending_stopped hrunner hbegunIdle hmemory' hstep hunwind
      simp only [hstopped, Bool.true_eq_false, false_and, or_false]
      exact ⟨hend.id, hsame _ ▸ hend.flight, hsame progress.current.id ▸ hend.agrees⟩
    · next hgoes =>
      have hgoes' : next.stopped = false := by simpa using hgoes
      obtain ⟨hidle, hready, hid, hstored, hrunning, hverifying, hnoflight, hseen⟩ :=
        runStep_goes_on ordered hrunner hbegunIdle hstep hgoes'
      have hend := ih hidle hloop
      simp only [hgoes', true_and, hnoflight, hseen, false_or]
      refine .of_ready hmemory' (hend.id.trans hid) (fun _ => ?_) ?_
      · rw [← hid]
        exact hend.flight hstored hrunning hverifying
      · rw [← hid, hend.agrees, hid, ← hsame progress.current.id, hready, ← hid]
        simp [hstored]

end Loop

/-! ## Whole runs -/

section Runs

variable (runner : PlanRunner) (host : Host) (actingUser : String) (explicitUserAck : Bool)

/-- A run of the task's plan comes to a step that is such. -/
def RunComesTo (such : List OperationNode → Progress → PlanStep → Bool → World → Prop) (task : Task)
    (w : World) : Prop :=
  ∃ plan nodes ordered, (PlanRepository.getByTask task.id).run w = (.ok (some plan), w) ∧
    OperationGraph.fromPlan host.py plan = .ok nodes ∧
    OperationGraph.topologicalOrder nodes = .ok ordered ∧
    ComesTo runner host actingUser explicitUserAck (such ordered) { plan := plan, current := task }
      ((executableSteps plan ordered).filter (·.state ≠ "COMPLETED")) w

variable {runner host actingUser explicitUserAck} {task : Task} {w t : World} {result : PlanRunResult}

/-- INTERNAL: where a run that comes through the graph comes to. -/
theorem runComesTo_iff {such : List OperationNode → Progress → PlanStep → Bool → World → Prop}
    {plan : Plan} {nodes ordered : List OperationNode}
    (hplan : (PlanRepository.getByTask task.id).run w = (.ok (some plan), w))
    (hnodes : OperationGraph.fromPlan host.py plan = .ok nodes)
    (hordered : OperationGraph.topologicalOrder nodes = .ok ordered) :
    RunComesTo runner host actingUser explicitUserAck such task w ↔
      ComesTo runner host actingUser explicitUserAck (such ordered) { plan := plan, current := task }
        ((executableSteps plan ordered).filter (·.state ≠ "COMPLETED")) w := by
  refine ⟨?_, fun hcomes => ⟨plan, nodes, ordered, hplan, hnodes, hordered, hcomes⟩⟩
  rintro ⟨plan', nodes', ordered', hplan', hnodes', hordered', hcomes⟩
  obtain rfl := Option.some.inj (Except.ok.inj (congrArg Prod.fst (hplan.symm.trans hplan')))
  obtain rfl := Except.ok.inj (hnodes.symm.trans hnodes')
  obtain rfl := Except.ok.inj (hordered.symm.trans hordered')
  exact hcomes

/-- A run that returns: either there was nothing to do, or it is a run of the loop.
SOURCE: execution/plan_runner.py:80-240 -/
theorem run_course (hrunner : TaskCalls runner) (hw : w.Idle)
    (h : (run runner host task actingUser explicitUserAck).run w = (.ok result, t)) :
    (result.task = task ∧ t = w ∧
      ∀ such, ¬ RunComesTo runner host actingUser explicitUserAck such task w) ∨
    (task.state = .ready ∧ Ending w t task result.task
      (RunComesTo runner host actingUser explicitUserAck
        (LeftInFlight runner host actingUser explicitUserAck) task w)
      (RunComesTo runner host actingUser explicitUserAck
        (HaltedUnseen runner host actingUser explicitUserAck) task w)) := by
  obtain ⟨found, w₁, hfound, h⟩ := Program.run_bind_ok h
  obtain ⟨hview, rfl⟩ := Prod.mk.inj hfound
  cases found with
  | none => cases h
  | some plan =>
    obtain ⟨nodes, w₂, hnodes, h⟩ := Program.run_bind_ok h
    obtain ⟨hnodes', rfl⟩ := Prod.mk.inj ((Program.run_ofExcept _ _).symm.trans hnodes)
    obtain ⟨ordered, w₃, hordered, h⟩ := Program.run_bind_ok h
    obtain ⟨hordered', rfl⟩ := Prod.mk.inj ((Program.run_ofExcept _ _).symm.trans hordered)
    simp only [runComesTo_iff hfound hnodes' hordered']
    unfold runOrdered at h
    dsimp only at h
    split at h
    · cases h
    split at h
    · next hempty =>
      obtain ⟨hresult, rfl⟩ := Prod.mk.inj h
      obtain rfl := Except.ok.inj hresult
      refine .inl ⟨rfl, rfl, fun such => ?_⟩
      rw [List.isEmpty_iff.mp hempty]
      exact id
    · next hpending =>
      refine .inr ?_
      obtain ⟨⟨after, stopped⟩, v, hloop, h⟩ := Program.run_bind_ok h
      obtain ⟨last, u, hunwind, h⟩ := Program.run_bind_ok h
      obtain ⟨hresult, rfl⟩ := Prod.mk.inj h
      obtain rfl := Except.ok.inj hresult
      refine ⟨?_, ending_runSteps hrunner hw hloop hunwind⟩
      revert hpending hloop
      cases (executableSteps plan ordered).filter (·.state ≠ "COMPLETED") with
      | nil => exact fun hpending => absurd rfl hpending
      | cons step rest =>
        intro _ hloop
        by_contra hmemory
        unfold runSteps at hloop
        rw [if_pos hmemory] at hloop
        cases hloop

/-- The runner leaves no task in flight exactly when the run comes to no step whose output or
verification stops it, and to none whose execution raises and leaves the task RUNNING for good.
SOURCE: execution/plan_runner.py:80-240 -/
theorem none_in_flight_iff (hrunner : TaskCalls runner) (hw : w.Idle)
    (hready : stateIn w task.id = some .ready)
    (h : (run runner host task actingUser explicitUserAck).run w = (.ok result, t)) :
    (stateIn t task.id ≠ some .running ∧ stateIn t task.id ≠ some .verifying) ↔
      ¬ RunComesTo runner host actingUser explicitUserAck
        (LeftInFlight runner host actingUser explicitUserAck) task w := by
  rw [← not_or]
  refine not_congr ?_
  rcases run_course hrunner hw h with ⟨-, rfl, hnone⟩ | ⟨hmemory, hend⟩
  · have hrest : ¬ InFlight t task.id := by
      rw [inFlight_iff_of_eq hready]
      simp
    exact iff_of_false hrest (hnone _)
  · exact hend.flight (hmemory ▸ hready) (by simp [hmemory]) (by simp [hmemory])

/-- The task a run returns agrees with the store exactly when the task it was given did and the run
comes to no step that is halted behind the runner's back.
SOURCE: execution/plan_runner.py:80-240 -/
theorem result_agrees_iff (hrunner : TaskCalls runner) (hw : w.Idle)
    (h : (run runner host task actingUser explicitUserAck).run w = (.ok result, t)) :
    stateIn t result.task.id = some result.task.state ↔
      stateIn w task.id = some task.state ∧
        ¬ RunComesTo runner host actingUser explicitUserAck
          (HaltedUnseen runner host actingUser explicitUserAck) task w := by
  rcases run_course hrunner hw h with ⟨hsame, rfl, hnone⟩ | ⟨-, hend⟩
  · rw [hsame]
    exact (and_iff_left (hnone _)).symm
  · rw [hend.id]
    exact hend.agrees

end Runs

/-- A tool that does what it is told. -/
def answering : ToolHandler := fun _ _ => .ok { success := true }

/-- A READY task, stored with a plan of these steps. -/
def readyTask : Task :=
  { id := "task"
    sessionId := "session"
    requestId := "request"
    state := .ready
    createdAt := 0
    updatedAt := 0 }

def plannedTables (steps : List PlanStep) : Tables :=
  { tasks := [readyTask]
    plans := [{ id := "plan", taskId := "task", objective := "take notes" }]
    planSteps := steps }

def plannedSteps (steps : List PlanStep) : World :=
  { working := plannedTables steps
    committed := plannedTables steps }

/-- INTERNAL: no block is open over the planned steps. -/
theorem idle_plannedSteps (steps : List PlanStep) : (plannedSteps steps).Idle := ⟨rfl, rfl⟩

/-- INTERNAL: a run that returned. -/
theorem exists_of_isOk {α : Type} {out : Except Err α × World} (h : out.1.isOk = true) :
    ∃ a, out = (.ok a, out.2) := by
  obtain ⟨r, t⟩ := out
  cases r with
  | ok a => exact ⟨a, rfl⟩
  | error e => cases h

/-- A runner for notes. -/
def notesRunner (security : SecurityService) : PlanRunner :=
  .ofServices (.plain [] []) {} { notesExecution answering with security := security } {}

/-- A run of the task's plan. -/
def runNotes (security : SecurityService) (w : World) : Except Err PlanRunResult × World :=
  (run (notesRunner security) (.plain [] []) readyTask).run w

/-- A step that takes a note. -/
def noteStep (id : String) (order : ℕ) (arguments : Dict) : PlanStep :=
  { id := id
    planId := "plan"
    order := order
    description := "add"
    tool := "notes"
    arguments := arguments }

/-- A plan with a note about a malformed address. -/
def malformedNote : World := plannedSteps [noteStep "one" 0 [("url", .str "http://[")]]

/-- A plan with a note outside the directories of the policy. -/
def strayNote : World := plannedSteps [noteStep "one" 0 [("path", .str "/etc")]]

/-- The policy. -/
def homeOnly : SecurityService := { gate := { filesystemPolicy := some { allowedRoots := ["/home"] } } }

/-- INTERNAL: how these runs end. -/
theorem runNotes_malformed : (runNotes {} malformedNote).1.isOk = true ∧
    stateIn (runNotes {} malformedNote).2 "task" = some .running := by
  decide +kernel

/-- The stray note leaves the task running in memory and halted in the store. -/
theorem runNotes_stray :
    (runNotes homeOnly strayNote).1.toOption.map (fun result => (result.task.id, result.task.state)) =
      some ("task", .running) ∧
    stateIn (runNotes homeOnly strayNote).2 "task" = some .securityHalt := by
  decide +kernel

/-- The gate cannot read the address and raises, and the task stays RUNNING. -/
theorem malformed_step_left_running :
    malformedNote.Idle ∧ stateIn malformedNote readyTask.id = some .ready ∧
      ∃ result t, runNotes {} malformedNote = (.ok result, t) ∧
        stateIn t readyTask.id = some .running := by
  obtain ⟨hok, hrunning⟩ := runNotes_malformed
  obtain ⟨result, hrun⟩ := exists_of_isOk hok
  exact ⟨idle_plannedSteps _, rfl, result, _, hrun, hrunning⟩

/-- That run comes to a step that is left in flight. -/
theorem none_in_flight_malformed :
    RunComesTo (notesRunner {}) (.plain [] []) "user" true
      (LeftInFlight (notesRunner {}) (.plain [] []) "user" true) readyTask malformedNote := by
  obtain ⟨hok, hrunning⟩ := runNotes_malformed
  obtain ⟨result, hrun⟩ := exists_of_isOk hok
  by_contra hnone
  have hended := (none_in_flight_iff (taskCalls_ofServices _ _ _ _) (idle_plannedSteps _) rfl hrun).mpr
    hnone
  exact hended.1 hrunning

/-- INTERNAL: the run that meets the gate. -/
theorem runNotes_stray_returned :
    ∃ result t, runNotes homeOnly strayNote = (.ok result, t) ∧ result.task.id = "task" ∧
      result.task.state = .running ∧ stateIn t "task" = some .securityHalt := by
  obtain ⟨hresult, hhalted⟩ := runNotes_stray
  revert hresult hhalted
  generalize runNotes homeOnly strayNote = out
  obtain ⟨r, t⟩ := out
  intro hresult hhalted
  cases r with
  | error e => cases hresult
  | ok result =>
    obtain ⟨hid, hstate⟩ := Prod.mk.inj (Option.some.inj hresult)
    exact ⟨result, t, rfl, hid, hstate, hhalted⟩

/-- A step the gate stops: the task is halted, and the runner reports it as RUNNING. -/
theorem stray_step_halted_unseen :
    ∃ result t, runNotes homeOnly strayNote = (.ok result, t) ∧
      stateIn t result.task.id ≠ some result.task.state := by
  obtain ⟨result, t, hrun, hid, hstate, hhalted⟩ := runNotes_stray_returned
  refine ⟨result, t, hrun, ?_⟩
  rw [hid, hstate, hhalted]
  simp

/-- That run comes to a step that is halted behind the runner's back. -/
theorem result_agrees_stray :
    RunComesTo (notesRunner homeOnly) (.plain [] []) "user" true
      (HaltedUnseen (notesRunner homeOnly) (.plain [] []) "user" true) readyTask strayNote := by
  obtain ⟨result, t, hrun, hid, hstate, hhalted⟩ := runNotes_stray_returned
  by_contra hnone
  have hsame := (result_agrees_iff (taskCalls_ofServices _ _ _ _) (idle_plannedSteps _) hrun).mpr
    ⟨rfl, hnone⟩
  rw [hid, hstate, hhalted] at hsame
  cases hsame

end Shea.Analysis
