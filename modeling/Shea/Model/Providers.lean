import Mathlib.Data.Rat.Defs
import Mathlib.Algebra.Order.Ring.Rat
import Shea.Model.Planning

/-!
# Routing between model providers

`provider/profile.py`, `requirements.py`, `health.py`, `failure.py`, `router.py` and `service.py`.

A registered provider is a place in the list of the service: the object that is called and the health
tracker that is written are those of that place. What a provider answers is given call by call. What the
floats of an error rate come to is a parameter. An audit record is an event of the run.
-/

set_option autoImplicit false

namespace Shea.Model

/-! ## Profiles and requirements -/

inductive ProviderTrustLevel
  | «local»
  | trustedRemote
  | untrusted
  deriving DecidableEq, Repr

structure ProviderProfile where
  providerId : String
  modelId : String
  trustLevel : ProviderTrustLevel
  capabilities : List String := []
  contextLimit : ℤ := 8000
  deriving DecidableEq, Repr

structure RoutingRequirements where
  requiredCapabilities : List String := []
  contextSizeEstimate : ℤ := 0
  requireLocalOnly : Bool := false
  preferredProvider : Option String := none
  deriving DecidableEq, Repr

/-! ## Health -/

inductive ProviderHealthState
  | healthy
  | degraded
  | unavailable
  deriving DecidableEq, Repr

/-- `1.0 - (successes / total)`, which floats need not compute exactly. -/
abbrev ErrorRate := (successes total : ℕ) → ℚ

/-- The error rate in exact arithmetic. -/
def ErrorRate.exact : ErrorRate := fun successes total => 1 - (successes : ℚ) / total

structure HealthTracker where
  windowSize : ℤ := 10
  degradedErrorRate : ℚ := 3 / 10
  unavailableErrorRate : ℚ := 7 / 10
  outcomes : List Bool := []
  deriving DecidableEq, Repr

namespace HealthTracker

/-- `_record`: the oldest outcome goes when there are more than the window holds. -/
def record (tracker : HealthTracker) (succeeded : Bool) : HealthTracker :=
  let outcomes := tracker.outcomes ++ [succeeded]
  { tracker with outcomes := if tracker.windowSize < outcomes.length then outcomes.tail else outcomes }

def errorRate (rate : ErrorRate) (tracker : HealthTracker) : ℚ :=
  rate (tracker.outcomes.count true) tracker.outcomes.length

def state (rate : ErrorRate) (tracker : HealthTracker) : ProviderHealthState :=
  if tracker.outcomes.isEmpty then .healthy
  else if tracker.unavailableErrorRate ≤ tracker.errorRate rate then .unavailable
  else if tracker.degradedErrorRate ≤ tracker.errorRate rate then .degraded
  else .healthy

end HealthTracker

/-! ## The router -/

namespace ProviderRouter

/-- The hard filters. -/
def passes (requirements : RoutingRequirements) (profile : ProviderProfile)
    (health : ProviderHealthState) : Bool :=
  profile.trustLevel ≠ .untrusted &&
    (!requirements.requireLocalOnly || profile.trustLevel = .local) &&
    requirements.requiredCapabilities.all (· ∈ profile.capabilities) &&
    requirements.contextSizeEstimate ≤ profile.contextLimit && health ≠ .unavailable

/-- `health_by_id`: the last provider of an id decides. -/
def healthById (providers : List (ProviderProfile × ProviderHealthState)) (providerId : String) :
    Option ProviderHealthState :=
  (providers.reverse.find? (·.1.providerId = providerId)).map Prod.snd

/-- `_rank_key`: preferred providers first, then by health. -/
def rankKey (py : Stdlib) (requirements : RoutingRequirements)
    (providers : List (ProviderProfile × ProviderHealthState)) (profile : ProviderProfile) : ℤ × ℤ :=
  (if requirements.preferredProvider.any fun preferred =>
      preferred ≠ "" && containsText (py.lower profile.providerId) (py.lower preferred)
    then -1 else 0,
    match healthById providers profile.providerId with
    | some .healthy => 0
    | some .degraded => 1
    | _ => 2)

/-- The order of tuples. -/
def rankLe (a b : ℤ × ℤ) : Prop := a.1 < b.1 ∨ a.1 = b.1 ∧ a.2 ≤ b.2

instance (a b : ℤ × ℤ) : Decidable (rankLe a b) := by
  unfold rankLe
  infer_instance

/-- The profiles that pass, in the order of their keys; equal keys stay in the order of the list. -/
def eligible (py : Stdlib) (providers : List (ProviderProfile × ProviderHealthState))
    (requirements : RoutingRequirements) : List ProviderProfile :=
  ((providers.filter fun (profile, health) => passes requirements profile health).map
    Prod.fst).insertionSort fun a b =>
      rankLe (rankKey py requirements providers a) (rankKey py requirements providers b)

end ProviderRouter

/-! ## The service -/

/-- The `Exception`s a provider may raise, as far as `classify_exception` tells them apart. -/
inductive ProviderFailure
  | modelUnavailable
  | malformedModelOutput
  | other
  deriving DecidableEq, Repr

inductive ProviderFailureCategory
  | providerUnavailable
  | malformedResponse
  | unknown
  deriving DecidableEq, Repr

def ProviderFailureCategory.value : ProviderFailureCategory → String
  | providerUnavailable => "PROVIDER_UNAVAILABLE"
  | malformedResponse => "MALFORMED_RESPONSE"
  | unknown => "UNKNOWN"

def classifyException : ProviderFailure → ProviderFailureCategory
  | .modelUnavailable => .providerUnavailable
  | .malformedModelOutput => .malformedResponse
  | .other => .unknown

/-- A provider's profile with its health history. -/
structure RegisteredProvider where
  profile : ProviderProfile
  health : HealthTracker := {}
  deriving DecidableEq, Repr

structure ProviderRoutingService where
  providers : List RegisteredProvider
  requirements : RoutingRequirements := {}
  maxAttempts : Option ℤ := none
  deriving DecidableEq, Repr

/-- What `generate` raises. -/
inductive RoutingError
  | noEligibleProvider (message : String)
  | allProvidersExhausted (attempts : List (String × String))
  | keyError (providerId : String)
  deriving DecidableEq, Repr

/-- The audit records of `generate`, with their metadata. -/
inductive RoutingEvent
  | noEligible (requiredCapabilities : List String) (requireLocalOnly : Bool)
      (preferredProvider : Option String)
  | attemptFailed (providerId category : String)
  | selected (providerId : String) (attemptNumber : ℕ)
  | exhausted (attempts : List (String × String))
  deriving DecidableEq, Repr

/-- A call of a provider object, named by its place, and its answer. -/
structure ProviderCall where
  place : ℕ
  answer : Except ProviderFailure ModelResponse

/-- The call succeeded. -/
def ProviderCall.succeeded (call : ProviderCall) : Bool := call.answer.isOk

/-- What comes of a call of `generate`. -/
structure RoutingRun where
  result : Except RoutingError ModelResponse
  providers : List RegisteredProvider
  calls : List ProviderCall := []
  events : List RoutingEvent := []

/-- The answers of the providers, call by call. -/
abbrev Answers := ℕ → Except ProviderFailure ModelResponse

namespace ProviderRoutingService

/-- `_by_id`: the place of the first provider of an id. -/
def byId (providers : List RegisteredProvider) (providerId : String) : Option ℕ :=
  providers.findIdx? (·.profile.providerId = providerId)

/-- `registered.health.record_success()` or `record_failure()`. -/
def recordAt (providers : List RegisteredProvider) (place : ℕ) (succeeded : Bool) :
    List RegisteredProvider :=
  providers.modify place fun registered =>
    { registered with health := registered.health.record succeeded }

/-- The loop over the eligible profiles; `attempts` are the failures so far. -/
def attemptAll (answers : Answers) :
    List ProviderProfile → List RegisteredProvider → List (String × String) → RoutingRun
  | [], providers, attempts =>
    { result := .error (.allProvidersExhausted attempts)
      providers := providers
      events := [.exhausted attempts] }
  | profile :: rest, providers, attempts =>
    match byId providers profile.providerId with
    | none => { result := .error (.keyError profile.providerId), providers := providers }
    | some place =>
      match answers attempts.length with
      | .error failure =>
        let category := (classifyException failure).value
        let run := attemptAll answers rest (recordAt providers place false)
          (attempts ++ [(profile.providerId, category)])
        { run with
          calls := ⟨place, .error failure⟩ :: run.calls
          events := .attemptFailed profile.providerId category :: run.events }
      | .ok response =>
        { result := .ok response
          providers := recordAt providers place true
          calls := [⟨place, .ok response⟩]
          events := [.selected profile.providerId (attempts.length + 1)] }

/-- `replace(reqs, preferred_provider=preferred)`, when the context names one. -/
def effectiveRequirements (service : ProviderRoutingService) (preferred : Option String) :
    RoutingRequirements :=
  if preferred.any (· ≠ "") then { service.requirements with preferredProvider := preferred }
  else service.requirements

/-- What the router is given. -/
def routed (service : ProviderRoutingService) (rate : ErrorRate) :
    List (ProviderProfile × ProviderHealthState) :=
  service.providers.map fun registered => (registered.profile, registered.health.state rate)

/-- The profiles that are tried: `self._max_attempts or len(eligible)` of the eligible ones. -/
def tried (service : ProviderRoutingService) (py : Stdlib) (rate : ErrorRate)
    (preferred : Option String) : List ProviderProfile :=
  let eligible :=
    ProviderRouter.eligible py (service.routed rate) (service.effectiveRequirements preferred)
  match service.maxAttempts with
  | some bound => if bound = 0 then eligible else sliceTo eligible bound
  | none => eligible

def generate (service : ProviderRoutingService) (py : Stdlib) (rate : ErrorRate)
    (preferred : Option String) (answers : Answers) : RoutingRun :=
  let requirements := service.effectiveRequirements preferred
  if (ProviderRouter.eligible py (service.routed rate) requirements).isEmpty then
    { result := .error (.noEligibleProvider
        "no registered provider satisfies the current routing requirements")
      providers := service.providers
      events := [.noEligible (requirements.requiredCapabilities.insertionSort (· ≤ ·))
        requirements.requireLocalOnly requirements.preferredProvider] }
  else attemptAll answers (service.tried py rate preferred) service.providers []

/-- Some provider is not unavailable. -/
def health (service : ProviderRoutingService) (rate : ErrorRate) : Bool :=
  service.providers.any fun registered => registered.health.state rate ≠ .unavailable

/-- The capabilities of all providers together. -/
def capabilities (service : ProviderRoutingService) : List String :=
  (service.providers.flatMap (·.profile.capabilities)).dedup

end ProviderRoutingService

end Shea.Model
