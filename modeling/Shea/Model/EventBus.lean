import Shea.Model.World

/-!
# The event bus

`events/contracts.py`, `filters.py`, `bus.py` and the wrapper plugins get of it in
`extensions/security.py`.

A handler is the `Exception` it raises for an event, if any. Calls that a handler makes on the bus are
calls of their own; in `ReentrantBus` they are made while it runs, and it may raise what is no
`Exception`.
-/

set_option autoImplicit false

namespace Shea.Model

/-! ## Events -/

inductive EventPriority
  | low
  | normal
  | high
  | critical
  deriving DecidableEq, Repr

/-- `priority_rank`. -/
def EventPriority.rank : EventPriority → ℕ
  | low => 0
  | normal => 1
  | high => 2
  | critical => 3

/-- An `Event` of the bus. -/
structure BusEvent where
  eventId : String
  eventType : String
  source : String
  timestamp : Time
  payload : Dict := []
  correlationId : Option String := none
  priority : EventPriority := .normal
  deriving DecidableEq, Repr

/-- The `Exception` a handler or a sink raises for an event, if any. -/
abbrev EventHandler := BusEvent → Option Err

structure Subscription where
  id : String
  eventPattern : String
  handler : EventHandler
  handlerPriority : ℤ := 0

/-- `_pattern_matches`. -/
def patternMatches (pattern eventType : String) : Bool :=
  if pattern = "*" then true
  else if endsWith pattern ".*" then startsWith eventType (String.ofList pattern.toList.dropLast)
  else pattern = eventType

structure EventFilter where
  eventTypes : Option (List String) := none
  sources : Option (List String) := none
  minPriority : Option EventPriority := none
  deriving DecidableEq, Repr

def EventFilter.accepts (filter : EventFilter) (event : BusEvent) : Bool :=
  filter.eventTypes.all (fun patterns => patterns.any (patternMatches · event.eventType)) &&
    filter.sources.all (event.source ∈ ·) &&
    filter.minPriority.all fun priority => priority.rank ≤ event.priority.rank

/-- A sink, with the name of its type. -/
structure EventSink where
  typeName : String
  accept : EventHandler

/-! ## The bus -/

structure EventBus where
  subscriptions : List Subscription := []
  sinks : List (EventSink × Option EventFilter) := []
  lastErrors : List (String × Err) := []
  counter : ℕ := 0

namespace EventBus

/-- `subscription_id or f"sub-{self._counter}"`, for the next value of the counter. -/
def nextId (bus : EventBus) (subscriptionId : Option String) : String :=
  match subscriptionId with
  | some given => if given = "" then "sub-" ++ toString (bus.counter + 1) else given
  | none => "sub-" ++ toString (bus.counter + 1)

def subscribe (bus : EventBus) (eventPattern : String) (handler : EventHandler)
    (handlerPriority : ℤ := 0) (subscriptionId : Option String := none) : String × EventBus :=
  let id := bus.nextId subscriptionId
  (id, { bus with
    counter := bus.counter + 1
    subscriptions := bus.subscriptions ++ [
      { id := id
        eventPattern := eventPattern
        handler := handler
        handlerPriority := handlerPriority }] })

def unsubscribe (bus : EventBus) (subscriptionId : String) : Bool × EventBus :=
  let kept := bus.subscriptions.filter (·.id ≠ subscriptionId)
  (kept.length < bus.subscriptions.length, { bus with subscriptions := kept })

def addSink (bus : EventBus) (sink : EventSink) (filter : Option EventFilter := none) : EventBus :=
  { bus with sinks := bus.sinks ++ [(sink, filter)] }

/-- `subscriptions_for`. -/
def subscriptionsFor (bus : EventBus) (eventType : String) : List Subscription :=
  bus.subscriptions.filter (patternMatches ·.eventPattern eventType)

/-- The handlers run in the order of their priorities, highest first, then the sinks; what they raise
is collected. -/
def publish (bus : EventBus) (event : BusEvent) : EventBus :=
  let matched := (bus.subscriptionsFor event.eventType).insertionSort fun a b =>
    b.handlerPriority ≤ a.handlerPriority
  let handlerErrors := matched.filterMap fun subscription =>
    (subscription.handler event).map fun error => (subscription.id, error)
  let sinkErrors := bus.sinks.filterMap fun (sink, filter) =>
    if filter.all (·.accepts event) then
      (sink.accept event).map fun error => (sink.typeName, error)
    else none
  { bus with lastErrors := handlerErrors ++ sinkErrors }

end EventBus

/-! ## What a plugin gets -/

/-- A plugin, by its manifest. -/
structure Plugin where
  id : String
  name : String
  permissions : List String := []
  deriving DecidableEq, Repr

namespace RestrictedEventBus

def canPublish (plugin : Plugin) : Bool := "events.publish" ∈ plugin.permissions

def canSubscribe (plugin : Plugin) : Bool := "events.subscribe" ∈ plugin.permissions

def notAllowed (plugin : Plugin) (what : String) : Err :=
  .securityViolation "core" "extensions"
    ("Plugin '" ++ plugin.name ++ "' is not allowed to " ++ what ++ ".")

/-- The event with the plugin for its source; a new event has the default priority. -/
def marked (plugin : Plugin) (event : BusEvent) : BusEvent :=
  let source := "plugin." ++ plugin.name
  if event.source = source then event
  else { event with source := source, priority := .normal }

def publish (bus : EventBus) (plugin : Plugin) (event : BusEvent) : Except Err EventBus :=
  if canPublish plugin then .ok (bus.publish (marked plugin event))
  else .error (notAllowed plugin "publish events")

def subscribe (bus : EventBus) (plugin : Plugin) (pattern : String) (handler : EventHandler) :
    Except Err (String × EventBus) :=
  if canSubscribe plugin then .ok (bus.subscribe pattern handler)
  else .error (notAllowed plugin "subscribe to events")

def unsubscribe (bus : EventBus) (_plugin : Plugin) (subscriptionId : String) : EventBus :=
  (bus.unsubscribe subscriptionId).2

end RestrictedEventBus

end Shea.Model
