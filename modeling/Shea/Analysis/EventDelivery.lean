import Shea.Computation.Ranking
import Shea.Model.ReentrantBus

/-!
# Event delivery with handlers that use the bus

A publish clears the one list of errors of the bus, so after a run the list has the errors that were
collected since the last publish began (`errorsAfter`), whoever it was that called it. What is called is
settled by the subscriptions at entry, and by the sinks as they are attached, whatever the handlers do.

So a publish delivers its event as it should, unless one of its handlers or sinks raises what is no
`Exception`; and the list of errors is its own unless one of them publishes: then the errors before that are
gone, and those of the inner publish stay.
-/

set_option autoImplicit false

namespace Shea.Analysis

open Shea.Computation Shea.Model Shea.Model.Reentrant.EventBus

/-! ## What a publish should do -/

/-- Each of the subscriptions once, the highest priority first, and those of one priority in the order of
their registration. -/
structure InDeliveryOrder (matched called : List Reentrant.Subscription) : Prop where
  each_once : called.Perm matched
  descending : called.Pairwise fun a b => b.handlerPriority ≤ a.handlerPriority
  registration : ∀ priority : ℤ, called.filter (·.handlerPriority = priority) =
    matched.filter (·.handlerPriority = priority)

/-- The errors that a publish has caught itself, in their order. -/
def ownErrors (calls : List Reentrant.Call) : List (String × Err) := calls.filterMap Reentrant.Call.failure

/-- It raises nothing, it has called the subscriptions that matched at entry and then the matching sinks,
and the list of errors has its own errors. -/
structure Delivers (bus : Reentrant.EventBus) (event : BusEvent) (published : Reentrant.Published) : Prop where
  never_raises : published.result = .ok ()
  calls_each : ∃ called, InDeliveryOrder (bus.matched event) called ∧
    published.calls.map Reentrant.Call.callee = called.map .subscription ++
      (published.bus.sinks.filter (forwards event)).map fun entry => .sink entry.1
  own_errors : published.bus.lastErrors = ownErrors published.calls

/-- A publish began in the call. -/
def Publishes (call : Reentrant.Call) : Prop := .cleared ∈ call.inside

/-- What a list of errors comes to. -/
def errorsAfter (errors : List (String × Err)) (steps : List Reentrant.ErrorStep) : List (String × Err) :=
  steps.foldl (fun collected step =>
    match step with
    | .cleared => []
    | .appended name error => collected ++ [(name, error)]) errors

/-- None of the handlers and sinks publishes. Or, when the last one that does begins its last publish, the
errors collected before it are just those collected from then on, as long as it runs: as a rule, none and
none. -/
def Undisturbed (calls : List Reentrant.Call) : Prop :=
  (∀ call ∈ calls, ¬ Publishes call) ∨
    ∃ before call after, calls = before ++ call :: after ∧ Publishes call ∧
      (∀ later ∈ after, ¬ Publishes later) ∧ ownErrors before = errorsAfter [] call.inside

/-! ## The list of errors -/

/-- INTERNAL: errors are recorded step after step. -/
theorem errorsAfter_append (errors : List (String × Err)) (s t : List Reentrant.ErrorStep) :
    errorsAfter errors (s ++ t) = errorsAfter (errorsAfter errors s) t := List.foldl_append

/-- INTERNAL: what was in the list before it was cleared does not matter. -/
theorem errorsAfter_of_cleared {steps : List Reentrant.ErrorStep} (h : .cleared ∈ steps)
    (errors : List (String × Err)) : errorsAfter errors steps = errorsAfter [] steps := by
  obtain ⟨before, after, rfl⟩ := List.append_of_mem h
  rw [errorsAfter_append, errorsAfter_append]
  rfl

/-- INTERNAL: what happens to the errors comes from publishes. -/
def FromPublishes (steps : List Reentrant.ErrorStep) : Prop := steps = [] ∨ .cleared ∈ steps

/-- INTERNAL: what a call adds to the errors when nothing is published in it. -/
theorem errorsAfter_steps_of_quiet {call : Reentrant.Call} (hfrom : FromPublishes call.inside)
    (hquiet : ¬ Publishes call) (errors : List (String × Err)) :
    errorsAfter errors call.steps = errors ++ call.failure.toList := by
  have hinside : call.inside = [] := hfrom.resolve_right hquiet
  unfold Reentrant.Call.steps
  rw [hinside]
  cases call.failure with
  | none => exact (List.append_nil _).symm
  | some failure => rfl

/-- INTERNAL: a call that publishes leaves what was collected since, and its own error. -/
theorem errorsAfter_steps_of_publishes {call : Reentrant.Call} (h : Publishes call)
    (errors : List (String × Err)) :
    errorsAfter errors call.steps = errorsAfter [] call.inside ++ call.failure.toList := by
  unfold Reentrant.Call.steps
  rw [errorsAfter_append, errorsAfter_of_cleared h]
  cases call.failure with
  | none => exact (List.append_nil _).symm
  | some failure => rfl

/-- INTERNAL: the errors of the first call come first. -/
theorem ownErrors_cons (call : Reentrant.Call) (calls : List Reentrant.Call) :
    ownErrors (call :: calls) = call.failure.toList ++ ownErrors calls := by
  unfold ownErrors
  rw [List.filterMap_cons]
  cases call.failure <;> rfl

/-- INTERNAL: calls in which nothing is published add their errors. -/
theorem errorsAfter_of_quiet {calls : List Reentrant.Call}
    (hfrom : ∀ call ∈ calls, FromPublishes call.inside) (hquiet : ∀ call ∈ calls, ¬ Publishes call)
    (errors : List (String × Err)) :
    errorsAfter errors (calls.flatMap Reentrant.Call.steps) = errors ++ ownErrors calls := by
  induction calls generalizing errors with
  | nil => exact (List.append_nil _).symm
  | cons call calls ih =>
    rw [List.flatMap_cons, errorsAfter_append,
      errorsAfter_steps_of_quiet (hfrom call (List.mem_cons_self ..)) (hquiet call (List.mem_cons_self ..)),
      ih (fun other hother => hfrom other (List.mem_cons_of_mem _ hother))
        (fun other hother => hquiet other (List.mem_cons_of_mem _ hother)),
      ownErrors_cons, List.append_assoc]

/-- INTERNAL: none of the calls publishes, or there is a last one that does. -/
theorem quiet_or_last_publishes (calls : List Reentrant.Call) :
    (∀ call ∈ calls, ¬ Publishes call) ∨
      ∃ before call after, calls = before ++ call :: after ∧ Publishes call ∧
        ∀ later ∈ after, ¬ Publishes later := by
  induction calls with
  | nil => exact .inl fun call hcall => absurd hcall List.not_mem_nil
  | cons first calls ih =>
    rcases ih with hquiet | ⟨before, call, after, rfl, hcall, hafter⟩
    · by_cases hfirst : Publishes first
      · exact .inr ⟨[], first, calls, rfl, hfirst, hquiet⟩
      · refine .inl fun call hcall => ?_
        rcases List.mem_cons.mp hcall with rfl | hcall
        · exact hfirst
        · exact hquiet call hcall
    · exact .inr ⟨first :: before, call, after, rfl, hcall, hafter⟩

/-- INTERNAL: after a last call that publishes, the list has what was collected since. -/
theorem errorsAfter_of_last {before after : List Reentrant.Call} {call : Reentrant.Call}
    (hcall : Publishes call) (hfrom : ∀ later ∈ after, FromPublishes later.inside)
    (hquiet : ∀ later ∈ after, ¬ Publishes later) :
    errorsAfter [] ((before ++ call :: after).flatMap Reentrant.Call.steps) =
      errorsAfter [] call.inside ++ ownErrors (call :: after) := by
  rw [List.flatMap_append, List.flatMap_cons, errorsAfter_append, errorsAfter_append,
    errorsAfter_steps_of_publishes hcall, errorsAfter_of_quiet hfrom hquiet, ownErrors_cons,
    List.append_assoc]

/-- INTERNAL: the list has the own errors just when nothing has disturbed it. -/
theorem errorsAfter_eq_ownErrors_iff {calls : List Reentrant.Call}
    (hfrom : ∀ call ∈ calls, FromPublishes call.inside) :
    errorsAfter [] (calls.flatMap Reentrant.Call.steps) = ownErrors calls ↔ Undisturbed calls := by
  have hlast {before after : List Reentrant.Call} {call : Reentrant.Call}
      (hcalls : calls = before ++ call :: after) (hcall : Publishes call)
      (hafter : ∀ later ∈ after, ¬ Publishes later) :
      errorsAfter [] (calls.flatMap Reentrant.Call.steps) = ownErrors calls ↔
        ownErrors before = errorsAfter [] call.inside := by
    subst hcalls
    have hlater : ∀ later ∈ after, FromPublishes later.inside := fun later hmem =>
      hfrom later (List.mem_append_right _ (List.mem_cons_of_mem _ hmem))
    have hown : ownErrors (before ++ call :: after) = ownErrors before ++ ownErrors (call :: after) :=
      List.filterMap_append
    rw [errorsAfter_of_last hcall hlater hafter, hown, List.append_left_inj]
    exact eq_comm
  constructor
  · intro heq
    rcases quiet_or_last_publishes calls with hquiet | ⟨before, call, after, hcalls, hcall, hafter⟩
    · exact .inl hquiet
    · exact .inr ⟨before, call, after, hcalls, hcall, hafter, (hlast hcalls hcall hafter).mp heq⟩
  · rintro (hquiet | ⟨before, call, after, hcalls, hcall, hafter, heq⟩)
    · exact errorsAfter_of_quiet hfrom hquiet []
    · exact (hlast hcalls hcall hafter).mpr heq

/-! ## What a run does to the bus -/

/-- INTERNAL: from one bus to another one the errors go through the steps, and sinks are only added. -/
structure BusMoves (bus : Reentrant.EventBus) (steps : List Reentrant.ErrorStep) (after : Reentrant.EventBus) :
    Prop where
  errors : after.lastErrors = errorsAfter bus.lastErrors steps
  sinks : bus.sinks <+: after.sinks

/-- INTERNAL: a bus at rest makes the empty move. -/
theorem BusMoves.refl (bus : Reentrant.EventBus) : BusMoves bus [] bus := ⟨rfl, List.prefix_rfl⟩

/-- INTERNAL: one move after another is a move. -/
theorem BusMoves.trans {a b c : Reentrant.EventBus} {s t : List Reentrant.ErrorStep} (hab : BusMoves a s b)
    (hbc : BusMoves b t c) : BusMoves a (s ++ t) c :=
  ⟨by rw [errorsAfter_append, ← hab.errors, hbc.errors], hab.sinks.trans hbc.sinks⟩

/-- INTERNAL: what does not touch the errors. -/
theorem BusMoves.of_silent {a b c : Reentrant.EventBus} {s : List Reentrant.ErrorStep} (h : BusMoves b s c)
    (herrors : b.lastErrors = a.lastErrors) (hsinks : a.sinks <+: b.sinks) : BusMoves a s c :=
  ⟨herrors ▸ h.errors, hsinks.trans h.sinks⟩

/-- INTERNAL: what a loop of a publish has done. It returns unless one of its calls raises what is not
caught, and then it has called these, as the bus is at the end. -/
structure LoopRun (bus : Reentrant.EventBus) (published : Reentrant.Published)
    (callees : Reentrant.EventBus → List Reentrant.Callee) : Prop where
  moves : BusMoves bus (published.calls.flatMap Reentrant.Call.steps) published.bus
  inside : ∀ call ∈ published.calls, FromPublishes call.inside
  returns : published.result = .ok () ↔ ∀ call ∈ published.calls, call.interrupt = none
  callees : published.result = .ok () →
    published.calls.map Reentrant.Call.callee = callees published.bus

/-- INTERNAL: a loop with nobody to call delivers nothing. -/
theorem LoopRun.nothing (bus : Reentrant.EventBus) : LoopRun bus ⟨.ok (), bus, []⟩ fun _ => [] :=
  ⟨.refl bus, fun _ hcall => absurd hcall List.not_mem_nil,
    iff_of_true rfl fun _ hcall => absurd hcall List.not_mem_nil, fun _ => rfl⟩

/-- INTERNAL: a run speaks of its callees at the bus it leaves only. -/
theorem LoopRun.congr {bus : Reentrant.EventBus} {published : Reentrant.Published}
    {callees callees' : Reentrant.EventBus → List Reentrant.Callee} (h : LoopRun bus published callees)
    (hsame : callees published.bus = callees' published.bus) : LoopRun bus published callees' :=
  ⟨h.moves, h.inside, h.returns, fun hok => (h.callees hok).trans hsame⟩

/-- INTERNAL: what follows a call: the loop goes on, or what the call raises ends it. -/
theorem andThen_cases {bus middle : Reentrant.EventBus} {call : Reentrant.Call}
    {rest : Reentrant.EventBus → Option Reentrant.Published} {published : Reentrant.Published}
    {callees : Reentrant.EventBus → List Reentrant.Callee} (hmoves : BusMoves bus call.steps middle)
    (hfrom : FromPublishes call.inside)
    (hrest : ∀ after, rest middle = some after → LoopRun middle after callees)
    (h : andThen middle call rest = some published) :
    LoopRun bus published fun after => call.callee :: callees after := by
  unfold andThen at h
  cases hinterrupt : call.interrupt with
  | some error =>
    rw [hinterrupt] at h
    obtain rfl := Option.some.inj h
    refine ⟨?_, fun other hother => ?_, ?_, fun hok => by cases hok⟩
    · simpa using hmoves
    · obtain rfl := List.mem_singleton.mp hother
      exact hfrom
    · refine iff_of_false (fun hok => by cases hok) fun hall => ?_
      cases hinterrupt.symm.trans (hall call (List.mem_singleton_self _))
  | none =>
    rw [hinterrupt] at h
    obtain ⟨after, hafter, rfl⟩ := Option.map_eq_some_iff.mp h
    have hloop := hrest after hafter
    refine ⟨hmoves.trans hloop.moves, fun other hother => ?_, ?_, fun hok => ?_⟩
    · rcases List.mem_cons.mp hother with rfl | hother
      · exact hfrom
      · exact hloop.inside other hother
    · rw [List.forall_mem_cons]
      exact hloop.returns.trans (and_iff_right hinterrupt).symm
    · exact congrArg (call.callee :: ·) (hloop.callees hok)

section Runs

variable {nested : BusEvent → Reentrant.EventBus → Option Reentrant.Published}
variable (hnested : ∀ event bus published, nested event bus = some published →
  BusMoves bus published.steps published.bus)

include hnested

/-- INTERNAL: a handler or a sink at work.
SOURCE: events/bus.py:39-75 -/
theorem perform_moves {behaviour : Reentrant.Behaviour} {bus : Reentrant.EventBus}
    {outcome : Reentrant.Outcome} (h : perform nested behaviour bus = some outcome) :
    BusMoves bus outcome.steps outcome.bus ∧ FromPublishes outcome.steps := by
  induction behaviour generalizing bus outcome with
  | done | raise error =>
    obtain rfl := Option.some.inj h
    exact ⟨.refl bus, .inl rfl⟩
  | publish event next ih =>
    unfold perform at h
    split at h
    · cases h
    · next published hpublished =>
      have hmoves := hnested event bus published hpublished
      obtain ⟨rest, hrest, rfl⟩ := Option.map_eq_some_iff.mp h
      exact ⟨hmoves.trans (ih _ hrest).1, .inr (List.mem_append_left _ (List.mem_cons_self ..))⟩
  | subscribe eventPattern handler handlerPriority subscriptionId next _ ih =>
    obtain ⟨hmoves, hfrom⟩ := ih _ h
    exact ⟨hmoves.of_silent rfl List.prefix_rfl, hfrom⟩
  | unsubscribe subscriptionId next ih =>
    obtain ⟨hmoves, hfrom⟩ := ih _ h
    exact ⟨hmoves.of_silent rfl List.prefix_rfl, hfrom⟩
  | addSink typeName accept eventFilter next _ ih =>
    obtain ⟨hmoves, hfrom⟩ := ih h
    exact ⟨hmoves.of_silent rfl (List.prefix_append _ _), hfrom⟩
  | lastErrors next ih => exact ih _ h

/-- INTERNAL: a guarded call.
SOURCE: events/bus.py:94-103, events/bus.py:109-118 -/
theorem guarded_moves {event : BusEvent} {callee : Reentrant.Callee} {bus after : Reentrant.EventBus}
    {call : Reentrant.Call} (h : guarded nested event callee bus = some (after, call)) :
    BusMoves bus call.steps after ∧ FromPublishes call.inside ∧ call.callee = callee := by
  obtain ⟨outcome, houtcome, hcall⟩ := Option.map_eq_some_iff.mp h
  obtain ⟨hmoves, hfrom⟩ := perform_moves hnested houtcome
  have hmoves := hmoves.of_silent (a := bus) rfl List.prefix_rfl
  cases hresult : outcome.result with
  | ok value =>
    rw [hresult] at hcall
    obtain ⟨rfl, rfl⟩ := Prod.mk.inj hcall
    exact ⟨by simpa [Reentrant.Call.steps, Reentrant.Call.failure] using hmoves, hfrom, rfl⟩
  | error error =>
    rw [hresult] at hcall
    obtain ⟨rfl, rfl⟩ := Prod.mk.inj hcall
    refine ⟨?_, hfrom, rfl⟩
    by_cases hcaught : error.isException = true
    · have hsteps : ({ callee := callee, inside := outcome.steps, error := some error } :
          Reentrant.Call).steps = outcome.steps ++ [.appended callee.name error] := by
        simp [Reentrant.Call.steps, Reentrant.Call.failure, Option.filter, hcaught]
      rw [hsteps, if_pos hcaught]
      exact hmoves.trans ⟨rfl, List.prefix_rfl⟩
    · have hsteps : ({ callee := callee, inside := outcome.steps, error := some error } :
          Reentrant.Call).steps = outcome.steps := by
        simp [Reentrant.Call.steps, Reentrant.Call.failure, Option.filter, hcaught]
      rw [hsteps, if_neg hcaught]
      exact hmoves

/-- INTERNAL: the loop over the matching subscriptions calls each one.
SOURCE: events/bus.py:93-103 -/
theorem callHandlers_run {event : BusEvent} {subscriptions : List Reentrant.Subscription}
    {bus : Reentrant.EventBus} {published : Reentrant.Published}
    (h : callHandlers nested event subscriptions bus = some published) :
    LoopRun bus published fun _ => subscriptions.map .subscription := by
  induction subscriptions generalizing bus published with
  | nil =>
    obtain rfl := Option.some.inj h
    exact .nothing bus
  | cons subscription rest ih =>
    unfold callHandlers at h
    split at h
    · cases h
    · next middle call hcall =>
      obtain ⟨hmoves, hfrom, hcallee⟩ := guarded_moves hnested hcall
      have hrun := andThen_cases hmoves hfrom (fun after hafter => ih hafter) h
      rw [hcallee] at hrun
      exact hrun

/-- INTERNAL: the loop over the sinks calls each one that forwards the event, those added meanwhile too.
SOURCE: events/bus.py:106-118 -/
theorem callSinks_run {event : BusEvent} {rounds index : ℕ} {bus : Reentrant.EventBus}
    {published : Reentrant.Published} (h : callSinks nested event rounds index bus = some published) :
    LoopRun bus published fun after =>
      ((after.sinks.drop index).filter (forwards event)).map fun entry => .sink entry.1 := by
  induction rounds generalizing index bus published with
  | zero => cases h
  | succ rounds ih =>
    unfold callSinks at h
    split at h
    · next hnone =>
      obtain rfl := Option.some.inj h
      refine (LoopRun.nothing bus).congr ?_
      rw [List.drop_eq_nil_of_le (List.getElem?_eq_none_iff.mp hnone)]
      rfl
    · next entry hentry =>
      have hdrop : bus.sinks <+: published.bus.sinks →
          published.bus.sinks.drop index = entry :: published.bus.sinks.drop (index + 1) := by
        rintro ⟨more, hmore⟩
        have hafter : published.bus.sinks[index]? = some entry := by
          obtain ⟨hlt, -⟩ := List.getElem?_eq_some_iff.mp hentry
          rw [← hmore, List.getElem?_append_left hlt, hentry]
        obtain ⟨hlt, hget⟩ := List.getElem?_eq_some_iff.mp hafter
        rw [← hget]
        exact List.drop_eq_getElem_cons hlt
      split at h
      · next hforwards =>
        split at h
        · cases h
        · next middle call hcall =>
          obtain ⟨hmoves, hfrom, hcallee⟩ := guarded_moves hnested hcall
          have hrun := andThen_cases hmoves hfrom (fun after hafter => ih hafter) h
          refine hrun.congr ?_
          rw [hdrop hrun.moves.sinks, List.filter_cons_of_pos hforwards, List.map_cons, hcallee]
      · next hforwards =>
        have hrun := ih h
        refine hrun.congr ?_
        rw [hdrop hrun.moves.sinks, List.filter_cons_of_neg hforwards]

end Runs

/-- INTERNAL: what a publish does to the bus, and whom it calls.
SOURCE: events/bus.py:76-118 -/
theorem publish_cases {fuel : ℕ} {event : BusEvent} {bus : Reentrant.EventBus}
    {published : Reentrant.Published} (h : publish fuel event bus = some published) :
    LoopRun { bus with lastErrors := [] } published fun after =>
      ((bus.matched event).insertionSort fun a b => b.handlerPriority ≤ a.handlerPriority).map
          .subscription ++
        (after.sinks.filter (forwards event)).map fun entry => .sink entry.1 := by
  induction fuel generalizing event bus published with
  | zero => cases h
  | succ fuel ih =>
    have hnested : ∀ event bus published, publish fuel event bus = some published →
        BusMoves bus published.steps published.bus := fun event bus published h =>
      (show BusMoves bus [.cleared] { bus with lastErrors := [] } from ⟨rfl, List.prefix_rfl⟩).trans
        (ih h).moves
    unfold publish at h
    dsimp only at h
    split at h
    · cases h
    · next handled hhandlers =>
      have hfirst := callHandlers_run hnested hhandlers
      cases hresult : handled.result with
      | error error =>
        rw [hresult] at h
        obtain rfl := Option.some.inj h
        exact ⟨hfirst.moves, hfirst.inside, hfirst.returns, fun hok => by cases hresult.symm.trans hok⟩
      | ok value =>
        rw [hresult] at h
        obtain ⟨forwarded, hsinks, rfl⟩ := Option.map_eq_some_iff.mp h
        have hsecond := callSinks_run hnested hsinks
        refine ⟨?_, fun call hcall => ?_, ?_, fun hok => ?_⟩
        · rw [List.flatMap_append]
          exact hfirst.moves.trans hsecond.moves
        · rcases List.mem_append.mp hcall with hcall | hcall
          · exact hfirst.inside call hcall
          · exact hsecond.inside call hcall
        · rw [List.forall_mem_append]
          exact hsecond.returns.trans (and_iff_right (hfirst.returns.mp hresult)).symm
        · rw [List.map_append, hfirst.callees hresult, hsecond.callees hok, List.drop_zero]

/-- INTERNAL: a stable sort by descending priority is the order of delivery.
SOURCE: events/bus.py:86-91 -/
theorem inDeliveryOrder_insertionSort (matched : List Reentrant.Subscription) :
    InDeliveryOrder matched (matched.insertionSort fun a b => b.handlerPriority ≤ a.handlerPriority) := by
  have htotal : Std.Total fun a b : Reentrant.Subscription => b.handlerPriority ≤ a.handlerPriority :=
    ⟨fun a b => le_total b.handlerPriority a.handlerPriority⟩
  have htrans : IsTrans Reentrant.Subscription fun a b => b.handlerPriority ≤ a.handlerPriority :=
    ⟨fun a b c hab hbc => le_trans hbc hab⟩
  refine ⟨List.perm_insertionSort _ _, List.pairwise_insertionSort _ _, fun priority => ?_⟩
  rw [filter_insertionSort]
  refine List.Pairwise.insertionSort_eq (List.pairwise_of_forall_mem_list fun a ha b hb => ?_)
  rw [of_decide_eq_true (List.mem_filter.mp ha).2, of_decide_eq_true (List.mem_filter.mp hb).2]

/-- A publish that ends has delivered its event as it should if and only if no handler or sink that it
called has raised what is not caught, and none has published in between, or the errors of the last such
publish are those of the calls before.
SOURCE: events/bus.py:76-124, events/filters.py:8-21 -/
theorem publish_delivers_iff {fuel : ℕ} {event : BusEvent} {bus : Reentrant.EventBus}
    {published : Reentrant.Published} (h : publish fuel event bus = some published) :
    Delivers bus event published ↔
      (∀ call ∈ published.calls, call.interrupt = none) ∧ Undisturbed published.calls := by
  have hrun := publish_cases h
  have herrors := hrun.moves.errors
  rw [← errorsAfter_eq_ownErrors_iff hrun.inside, ← hrun.returns]
  constructor
  · intro hdelivers
    exact ⟨hdelivers.never_raises, herrors.symm.trans hdelivers.own_errors⟩
  · rintro ⟨hresult, hown⟩
    exact ⟨hresult, ⟨_, inDeliveryOrder_insertionSort _, hrun.callees hresult⟩, herrors.trans hown⟩

/-- An event of a type. -/
def plainEvent (eventType : String) : BusEvent :=
  { eventId := "event"
    eventType := eventType
    source := "core"
    timestamp := 0 }

/-- A bus with a handler that raises, another one with a lower priority, and a sink. -/
def failingBus (other : Reentrant.EventHandler) : Reentrant.EventBus :=
  { subscriptions := [
      { id := "other", eventPattern := "started", handler := other },
      { id := "failing"
        eventPattern := "started"
        handler := fun _ _ => .raise (.runtimeError "failed")
        handlerPriority := 1 }]
    sinks := [(⟨"LogSink", fun _ _ => .done⟩, none)] }

/-- The other handler unsubscribes the one that has failed, which changes nothing for this event. -/
theorem failure_delivered :
    ∃ published, publish 4 (plainEvent "started")
        (failingBus fun _ _ => .unsubscribe "failing" fun _ => .done) = some published ∧
      Delivers (failingBus fun _ _ => .unsubscribe "failing" fun _ => .done) (plainEvent "started")
        published := by
  have hrun : (publish 4 (plainEvent "started")
      (failingBus fun _ _ => .unsubscribe "failing" fun _ => .done)).map (fun published =>
        published.calls.map fun call => (call.inside, call.interrupt)) =
      some [([], none), ([], none), ([], none)] := by decide
  obtain ⟨published, hpublished, hcalls⟩ := Option.map_eq_some_iff.mp hrun
  have heach : ∀ call ∈ published.calls, call.inside = [] ∧ call.interrupt = none := by
    intro call hcall
    have hmem : (call.inside, call.interrupt) ∈ [([], none), ([], none), ([], none)] :=
      hcalls ▸ List.mem_map_of_mem hcall
    simp only [List.mem_cons, List.not_mem_nil, or_false, or_self] at hmem
    exact Prod.mk.inj hmem
  refine ⟨published, hpublished, (publish_delivers_iff hpublished).mpr
    ⟨fun call hcall => (heach call hcall).2, .inl fun call hcall hcleared => ?_⟩⟩
  rw [Publishes, (heach call hcall).1] at hcleared
  cases hcleared

/-- The other handler publishes that it has been called, and the failure is not in the list. -/
theorem failure_lost :
    ∃ published, publish 4 (plainEvent "started")
        (failingBus fun _ _ => .publish (plainEvent "noted") fun _ => .done) = some published ∧
      ¬ Delivers (failingBus fun _ _ => .publish (plainEvent "noted") fun _ => .done) (plainEvent "started")
        published := by
  have hrun : (publish 4 (plainEvent "started")
      (failingBus fun _ _ => .publish (plainEvent "noted") fun _ => .done)).map
        (fun published => (published.bus.lastErrors, ownErrors published.calls)) =
      some ([], [("failing", .runtimeError "failed")]) := by decide
  obtain ⟨published, hpublished, herrors⟩ := Option.map_eq_some_iff.mp hrun
  obtain ⟨hlast, hown⟩ := Prod.mk.inj herrors
  refine ⟨published, hpublished, fun hdelivers => ?_⟩
  have heq := hlast.symm.trans (hdelivers.own_errors.trans hown)
  cases heq

/-! ## Handlers that leave the bus alone -/

section Quiet

/-- A handler that only raises, or returns. -/
def quietHandler (handler : EventHandler) : Reentrant.EventHandler := fun event _ =>
  match handler event with
  | none => .done
  | some error => .raise error

def quietSubscription (subscription : Subscription) : Reentrant.Subscription :=
  { id := subscription.id
    eventPattern := subscription.eventPattern
    handler := quietHandler subscription.handler
    handlerPriority := subscription.handlerPriority }

def quietSink (entry : EventSink × Option EventFilter) : Reentrant.EventSink × Option EventFilter :=
  (⟨entry.1.typeName, quietHandler entry.1.accept⟩, entry.2)

/-- A bus of such handlers and sinks. -/
def quietBus (bus : EventBus) (calls : ℕ) : Reentrant.EventBus :=
  { subscriptions := bus.subscriptions.map quietSubscription
    sinks := bus.sinks.map quietSink
    lastErrors := bus.lastErrors
    counter := bus.counter
    calls := calls }

variable (nested : BusEvent → Reentrant.EventBus → Option Reentrant.Published) (event : BusEvent)

/-- INTERNAL: a call of a quiet handler adds its error, and does not interrupt the loop. -/
theorem guarded_quiet (callee : Reentrant.Callee) (handler : EventHandler) (bus : Reentrant.EventBus)
    (hcaught : ∀ error ∈ handler event, error.isException = true)
    (h : callee.behaviour event bus.calls = quietHandler handler event bus.calls) :
    ∃ call : Reentrant.Call, call.interrupt = none ∧ guarded nested event callee bus = some ({ bus with
      calls := bus.calls + 1
      lastErrors := bus.lastErrors ++ ((handler event).map fun error => (callee.name, error)).toList },
      call) := by
  unfold guarded
  rw [h, quietHandler]
  cases hraised : handler event with
  | none => exact ⟨⟨callee, [], none⟩, rfl, by simp [perform]⟩
  | some error =>
    have hexception := hcaught error hraised
    exact ⟨⟨callee, [], some error⟩, by simp [Reentrant.Call.interrupt, Option.filter, hexception],
      by simp [perform, hexception]⟩

/-- INTERNAL: the loop over quiet handlers adds their errors.
SOURCE: events/bus.py:93-103 -/
theorem callHandlers_quiet (subscriptions : List Subscription) (bus : Reentrant.EventBus)
    (hcaught : ∀ subscription ∈ subscriptions, ∀ error ∈ subscription.handler event,
      error.isException = true) :
    ∃ n calls, callHandlers nested event (subscriptions.map quietSubscription) bus = some ⟨.ok (), { bus with
      calls := n
      lastErrors := bus.lastErrors ++ subscriptions.filterMap fun subscription =>
        (subscription.handler event).map fun error => (subscription.id, error) }, calls⟩ := by
  induction subscriptions generalizing bus with
  | nil => exact ⟨bus.calls, [], by simp [callHandlers]⟩
  | cons subscription rest ih =>
    obtain ⟨call, hgoes, hcall⟩ := guarded_quiet nested event
      (.subscription (quietSubscription subscription)) subscription.handler bus
      (hcaught _ (List.mem_cons_self ..)) rfl
    obtain ⟨n, calls, hrest⟩ := ih { bus with
      calls := bus.calls + 1
      lastErrors := bus.lastErrors ++
        ((subscription.handler event).map fun error => (subscription.id, error)).toList }
      fun other hother => hcaught other (List.mem_cons_of_mem _ hother)
    refine ⟨n, call :: calls, ?_⟩
    have hcall' : guarded nested event (.subscription (quietSubscription subscription)) bus = some ({ bus with
        calls := bus.calls + 1
        lastErrors := bus.lastErrors ++
          ((subscription.handler event).map fun error => (subscription.id, error)).toList }, call) := hcall
    rw [List.map_cons, callHandlers, hcall']
    simp only [andThen, hgoes, hrest, Option.map_some, List.filterMap_cons]
    cases subscription.handler event <;> simp

/-- INTERNAL: what a sink raises for an event that passes its filter. -/
def sinkError (entry : EventSink × Option EventFilter) : Option (String × Err) :=
  if entry.2.all (·.accepts event) then (entry.1.accept event).map fun error => (entry.1.typeName, error)
  else none

/-- INTERNAL: the loop over quiet sinks adds the errors of those that the event passes to.
SOURCE: events/bus.py:106-118 -/
theorem callSinks_quiet (sinks : List (EventSink × Option EventFilter)) (bus : Reentrant.EventBus)
    (hcaught : ∀ entry ∈ sinks, ∀ error ∈ entry.1.accept event, error.isException = true)
    (hsinks : bus.sinks = sinks.map quietSink) {rounds index : ℕ} (hindex : index ≤ sinks.length)
    (hrounds : sinks.length < rounds + index) :
    ∃ n calls, callSinks nested event rounds index bus = some ⟨.ok (), { bus with
      calls := n
      lastErrors := bus.lastErrors ++ (sinks.drop index).filterMap (sinkError event) }, calls⟩ := by
  induction rounds generalizing index bus with
  | zero => omega
  | succ rounds ih =>
    unfold callSinks
    rcases Nat.eq_or_lt_of_le hindex with rfl | hlt
    · have hnone : bus.sinks[sinks.length]? = none := by
        rw [hsinks]
        exact List.getElem?_eq_none (by rw [List.length_map])
      refine ⟨bus.calls, [], ?_⟩
      rw [hnone, List.drop_length, List.filterMap_nil, List.append_nil]
    · have hentry : bus.sinks[index]? = some (quietSink sinks[index]) := by
        rw [hsinks, List.getElem?_map, List.getElem?_eq_getElem hlt]
        rfl
      rw [hentry, List.drop_eq_getElem_cons hlt, List.filterMap_cons]
      dsimp only
      by_cases hforwards : forwards event (quietSink sinks[index]) = true
      · have herror : sinkError event sinks[index] =
            (sinks[index].1.accept event).map fun error => (sinks[index].1.typeName, error) :=
          if_pos hforwards
        obtain ⟨call, hgoes, hcall⟩ := guarded_quiet nested event (.sink (quietSink sinks[index]).1)
          sinks[index].1.accept bus (hcaught _ (List.getElem_mem hlt)) rfl
        rw [if_pos hforwards, hcall, herror]
        obtain ⟨n, calls, hrest⟩ := ih { bus with
          calls := bus.calls + 1
          lastErrors := bus.lastErrors ++ ((sinks[index].1.accept event).map fun error =>
            ((Reentrant.Callee.sink (quietSink sinks[index]).1).name, error)).toList } hsinks hlt (by omega)
        refine ⟨n, call :: calls, ?_⟩
        simp only [andThen, hgoes, hrest, Option.map_some]
        cases sinks[index].1.accept event <;> simp [Reentrant.Callee.name, quietSink]
      · have herror : sinkError event sinks[index] = none := if_neg hforwards
        rw [if_neg hforwards, herror]
        exact ih bus hsinks hlt (by omega)

/-- Handlers and sinks that leave the bus alone and raise `Exception`s at most: a publish ends, and the bus
is as if each of their calls were one of its own.
SOURCE: events/bus.py:76-118 -/
theorem publish_quiet (bus : EventBus) (calls : ℕ) {fuel : ℕ} (hfuel : bus.sinks.length < fuel)
    (hhandlers : ∀ subscription ∈ bus.subscriptions, ∀ error ∈ subscription.handler event,
      error.isException = true)
    (hsinks : ∀ entry ∈ bus.sinks, ∀ error ∈ entry.1.accept event, error.isException = true) :
    ∃ n made, publish (fuel + 1) event (quietBus bus calls) =
      some ⟨.ok (), quietBus (bus.publish event) n, made⟩ := by
  have hmatched : ((quietBus bus calls).matched event).insertionSort
        (fun a b => b.handlerPriority ≤ a.handlerPriority) =
      ((bus.subscriptionsFor event.eventType).insertionSort
        fun a b => b.handlerPriority ≤ a.handlerPriority).map quietSubscription := by
    rw [List.map_insertionSort (fun a b : Subscription => b.handlerPriority ≤ a.handlerPriority)
      (fun a b : Reentrant.Subscription => b.handlerPriority ≤ a.handlerPriority) quietSubscription _
      fun a _ b _ => Iff.rfl]
    unfold matched quietBus EventBus.subscriptionsFor
    rw [List.filter_map]
    rfl
  have hmatches : ∀ subscription ∈ (bus.subscriptionsFor event.eventType).insertionSort
      (fun a b => b.handlerPriority ≤ a.handlerPriority), ∀ error ∈ subscription.handler event,
      error.isException = true := by
    intro subscription hsubscription
    exact hhandlers subscription (List.mem_filter.mp ((List.mem_insertionSort _).mp hsubscription)).1
  obtain ⟨n, handlerCalls, hfirst⟩ := callHandlers_quiet (publish fuel) event
    ((bus.subscriptionsFor event.eventType).insertionSort fun a b => b.handlerPriority ≤ a.handlerPriority)
    { quietBus bus calls with lastErrors := [] } hmatches
  obtain ⟨m, sinkCalls, hsecond⟩ := callSinks_quiet (publish fuel) event bus.sinks { quietBus bus calls with
      calls := n
      lastErrors := [] ++ ((bus.subscriptionsFor event.eventType).insertionSort
        fun a b => b.handlerPriority ≤ a.handlerPriority).filterMap fun subscription =>
          (subscription.handler event).map fun error => (subscription.id, error) }
    hsinks rfl (Nat.zero_le _) hfuel
  refine ⟨m, handlerCalls ++ sinkCalls, ?_⟩
  rw [publish]
  rw [hmatched, hfirst]
  dsimp only
  rw [hsecond]
  rfl

end Quiet

end Shea.Analysis
