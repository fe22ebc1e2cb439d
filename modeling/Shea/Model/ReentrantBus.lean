import Mathlib.Data.List.Sort
import Shea.Model.EventBus

/-!
# Handlers that use the event bus

`events/bus.py` once more, for handlers and sinks that call the bus while it is calling them. What one of
them does is a tree of calls of the bus, and depends on the event, on what these calls return, and on the
number of calls of handlers and sinks before this one: it may remember what has happened so far.

A publish that goes on and on has no result. What a handler or a sink raises is collected if it is an
`Exception`; anything else ends the publish. Besides the bus, a publish tells which handlers and sinks it
has called, and a call what has become of `last_errors` within.
-/

set_option autoImplicit false

namespace Shea.Model.Reentrant

/-- What a handler or a sink does when it is called. -/
inductive Behaviour
  | done
  | raise (error : Err)
  | publish (event : BusEvent) (next : Except Err Unit → Behaviour)
  | subscribe (eventPattern : String) (handler : BusEvent → ℕ → Behaviour) (handlerPriority : ℤ)
      (subscriptionId : Option String) (next : String → Behaviour)
  | unsubscribe (subscriptionId : String) (next : Bool → Behaviour)
  | addSink (typeName : String) (accept : BusEvent → ℕ → Behaviour) (eventFilter : Option EventFilter)
      (next : Behaviour)
  | lastErrors (next : List (String × Err) → Behaviour)

/-- What it does with an event, by the number of calls before this one. -/
abbrev EventHandler := BusEvent → ℕ → Behaviour

structure Subscription where
  id : String
  eventPattern : String
  handler : EventHandler
  handlerPriority : ℤ := 0

/-- A sink, with the name of its type. -/
structure EventSink where
  typeName : String
  accept : EventHandler

structure EventBus where
  subscriptions : List Subscription := []
  sinks : List (EventSink × Option EventFilter) := []
  lastErrors : List (String × Err) := []
  counter : ℕ := 0
  calls : ℕ := 0

/-! ## What has happened -/

/-- What becomes of `last_errors`. -/
inductive ErrorStep
  | cleared
  | appended (name : String) (error : Err)
  deriving DecidableEq, Repr

/-- Who is called. -/
inductive Callee
  | subscription (matched : Subscription)
  | sink (attached : EventSink)

/-- The name that goes with its errors. -/
def Callee.name : Callee → String
  | .subscription matched => matched.id
  | .sink attached => attached.typeName

def Callee.behaviour (event : BusEvent) (calls : ℕ) : Callee → Behaviour
  | .subscription matched => matched.handler event calls
  | .sink attached => attached.accept event calls

/-- A call of a handler or a sink: what has become of the errors while it ran, and what it raised. -/
structure Call where
  callee : Callee
  inside : List ErrorStep
  error : Option Err

/-- The error of a call, as it is collected. -/
def Call.failure (call : Call) : Option (String × Err) :=
  (call.error.filter Err.isException).map fun error => (call.callee.name, error)

/-- What a call raises that is not caught. -/
def Call.interrupt (call : Call) : Option Err := call.error.filter fun error => !error.isException

/-- What becomes of the errors in a call and behind it. -/
def Call.steps (call : Call) : List ErrorStep :=
  call.inside ++ (call.failure.map fun (name, error) => ErrorStep.appended name error).toList

/-- What comes of a publish, or of one of its loops, that ends. -/
structure Published where
  result : Except Err Unit
  bus : EventBus
  calls : List Call

/-- What becomes of the errors in a publish. -/
def Published.steps (published : Published) : List ErrorStep :=
  .cleared :: published.calls.flatMap Call.steps

/-- What comes of a behaviour that ends. -/
structure Outcome where
  result : Except Err Unit
  bus : EventBus
  steps : List ErrorStep

namespace EventBus

/-! ## Subscriptions and sinks -/

/-- `subscription_id or f"sub-{self._counter}"`, for the next value of the counter. -/
def nextId (bus : EventBus) (subscriptionId : Option String) : String :=
  match subscriptionId with
  | some given => if given = "" then "sub-" ++ toString (bus.counter + 1) else given
  | none => "sub-" ++ toString (bus.counter + 1)

def subscribe (bus : EventBus) (eventPattern : String) (handler : EventHandler) (handlerPriority : ℤ)
    (subscriptionId : Option String) : String × EventBus :=
  let id := bus.nextId subscriptionId
  (id, { bus with
    counter := bus.counter + 1
    subscriptions := bus.subscriptions ++ [
      { id := id
        eventPattern := eventPattern
        handler := handler
        handlerPriority := handlerPriority }] })

def unsubscribe (bus : EventBus) (subscriptionId : String) : Bool × EventBus :=
  let kept := bus.subscriptions.filter (·.id ≠ subscriptionId)
  (kept.length < bus.subscriptions.length, { bus with subscriptions := kept })

def addSink (bus : EventBus) (sink : EventSink) (eventFilter : Option EventFilter) : EventBus :=
  { bus with sinks := bus.sinks ++ [(sink, eventFilter)] }

/-- The subscriptions that match the type of the event. -/
def matched (bus : EventBus) (event : BusEvent) : List Subscription :=
  bus.subscriptions.filter (patternMatches ·.eventPattern event.eventType)

/-- A sink without a filter, or with one that the event passes. -/
def forwards (event : BusEvent) (entry : EventSink × Option EventFilter) : Bool :=
  entry.2.all (·.accepts event)

/-! ## Publishing -/

section Publish

variable (nested : BusEvent → EventBus → Option Published)

/-- A handler or a sink at work, up to its end or to what it raises. `nested` is what a publish does that
it asks for. -/
def perform : Behaviour → EventBus → Option Outcome
  | .done, bus => some ⟨.ok (), bus, []⟩
  | .raise error, bus => some ⟨.error error, bus, []⟩
  | .publish event next, bus =>
      match nested event bus with
      | none => none
      | some published => (perform (next published.result) published.bus).map fun outcome =>
          { outcome with steps := published.steps ++ outcome.steps }
  | .subscribe eventPattern handler handlerPriority subscriptionId next, bus =>
      let (id, bus) := bus.subscribe eventPattern handler handlerPriority subscriptionId
      perform (next id) bus
  | .unsubscribe subscriptionId next, bus =>
      let (found, bus) := bus.unsubscribe subscriptionId
      perform (next found) bus
  | .addSink typeName accept eventFilter next, bus =>
      perform next (bus.addSink ⟨typeName, accept⟩ eventFilter)
  | .lastErrors next, bus => perform (next bus.lastErrors) bus

/-- `try: ... except Exception as exc: self._last_errors.append(...)`. -/
def guarded (event : BusEvent) (callee : Callee) (bus : EventBus) : Option (EventBus × Call) :=
  (perform nested (callee.behaviour event bus.calls) { bus with calls := bus.calls + 1 }).map fun outcome =>
    match outcome.result with
    | .ok () => (outcome.bus, ⟨callee, outcome.steps, none⟩)
    | .error error =>
      ({ outcome.bus with
          lastErrors := if error.isException then outcome.bus.lastErrors ++ [(callee.name, error)]
            else outcome.bus.lastErrors },
        ⟨callee, outcome.steps, some error⟩)

/-- What follows a call: what it raises that is not caught ends the loop. -/
def andThen (bus : EventBus) (call : Call) (rest : EventBus → Option Published) : Option Published :=
  match call.interrupt with
  | some error => some ⟨.error error, bus, [call]⟩
  | none => (rest bus).map fun published => { published with calls := call :: published.calls }

/-- The loop over the matching subscriptions. -/
def callHandlers (event : BusEvent) : List Subscription → EventBus → Option Published
  | [], bus => some ⟨.ok (), bus, []⟩
  | subscription :: rest, bus =>
      match guarded nested event (.subscription subscription) bus with
      | none => none
      | some (bus, call) => andThen bus call (callHandlers event rest)

/-- The loop over the sinks, from an index on. The list may grow while it runs, so there is a number of
rounds that it may take at most. -/
def callSinks (event : BusEvent) : ℕ → ℕ → EventBus → Option Published
  | 0, _, _ => none
  | rounds + 1, index, bus =>
      match bus.sinks[index]? with
      | none => some ⟨.ok (), bus, []⟩
      | some entry =>
        if forwards event entry then
          match guarded nested event (.sink entry.1) bus with
          | none => none
          | some (bus, call) => andThen bus call (callSinks event rounds (index + 1))
        else callSinks event rounds (index + 1) bus

end Publish

/-- `publish`, with a depth to which it may be nested and a number of rounds for each loop over the
sinks. -/
def publish : ℕ → BusEvent → EventBus → Option Published
  | 0, _, _ => none
  | fuel + 1, event, bus =>
      let sorted := (bus.matched event).insertionSort fun a b => b.handlerPriority ≤ a.handlerPriority
      match callHandlers (publish fuel) event sorted { bus with lastErrors := [] } with
      | none => none
      | some handled =>
        match handled.result with
        | .error _ => some handled
        | .ok () => (callSinks (publish fuel) event fuel 0 handled.bus).map fun forwarded =>
            { forwarded with calls := handled.calls ++ forwarded.calls }

end EventBus

end Shea.Model.Reentrant
