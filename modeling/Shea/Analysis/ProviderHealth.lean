import Shea.Analysis.ProviderRouting

/-!
# Coming back from unavailability

A provider's health changes only when it is called, and a provider that is unavailable is not called.
So with one provider to an id nothing that happens later changes an unavailable one: the providers of
a service can all be eligible again only if none of them has become unavailable in the first place. A
single failure of a fresh tracker is enough for that, since one failure out of one outcome is an error
rate of one.
-/

set_option autoImplicit false

namespace Shea.Analysis

open Shea.Model

/-! ## Sequences of calls -/

/-- A call of `generate`: the provider the context prefers, and the answers of the providers. -/
abbrev GenerateCall := Option String × Answers

/-- The service after a call. -/
def afterCall (py : Stdlib) (rate : ErrorRate) (service : ProviderRoutingService) (call : GenerateCall) :
    ProviderRoutingService :=
  { service with providers := (service.generate py rate call.1 call.2).providers }

/-- The service after these calls. -/
def afterAll (py : Stdlib) (rate : ErrorRate) (service : ProviderRoutingService) (calls : List GenerateCall) :
    ProviderRoutingService :=
  calls.foldl (afterCall py rate) service

/-- A provider passes the filters that do not depend on its health. -/
def StaticallyFit (service : ProviderRoutingService) (registered : RegisteredProvider) : Prop :=
  ProviderRouter.passes service.requirements registered.profile .healthy = true

/-- Some further calls make every provider eligible that passes the static filters. -/
def Recoverable (py : Stdlib) (rate : ErrorRate) (service : ProviderRoutingService) : Prop :=
  ∃ more : List GenerateCall, ∀ registered ∈ (afterAll py rate service more).providers,
    StaticallyFit service registered → Passes (afterAll py rate service more) rate none registered

/-- None of these providers is unavailable. -/
def NoneUnavailable (rate : ErrorRate) (service : ProviderRoutingService) : Prop :=
  ∀ registered ∈ service.providers, StaticallyFit service registered →
    registered.health.state rate ≠ .unavailable

/-- None of them is, nor has one been at the end of an earlier call. -/
def NeverUnavailable (py : Stdlib) (rate : ErrorRate) (service : ProviderRoutingService)
    (calls : List GenerateCall) : Prop :=
  ∀ before after, calls = before ++ after → NoneUnavailable rate (afterAll py rate service before)

section Calls

variable (py : Stdlib) (rate : ErrorRate) (service : ProviderRoutingService)

/-- INTERNAL: health is the last filter; the preference is none. -/
theorem passes_iff (preferred : Option String) (registered : RegisteredProvider) :
    Passes service rate preferred registered ↔
      StaticallyFit service registered ∧ registered.health.state rate ≠ .unavailable := by
  have hsame : ∀ health, ProviderRouter.passes (service.effectiveRequirements preferred)
      registered.profile health =
        ProviderRouter.passes service.requirements registered.profile health := by
    intro health
    unfold ProviderRoutingService.effectiveRequirements
    split <;> rfl
  unfold Passes StaticallyFit
  rw [hsame]
  simp [ProviderRouter.passes]

/-- INTERNAL: calls leave the requirements as they are. -/
@[simp] theorem requirements_afterAll (calls : List GenerateCall) :
    (afterAll py rate service calls).requirements = service.requirements := by
  induction calls generalizing service with
  | nil => rfl
  | cons call rest ih => exact ih (afterCall py rate service call)

/-- INTERNAL: the calls of two lists, one after the other. -/
theorem afterAll_append (before after : List GenerateCall) :
    afterAll py rate service (before ++ after) = afterAll py rate (afterAll py rate service before) after :=
  List.foldl_append ..

/-- INTERNAL: a call changes no profile. -/
theorem map_profile_afterCall (call : GenerateCall) :
    (afterCall py rate service call).providers.map (·.profile) = service.providers.map (·.profile) := by
  have hrecorded := (attempts_generate service py rate call.1 call.2).recorded
  unfold afterCall
  apply List.ext_getElem?
  intro place
  rw [List.getElem?_map, List.getElem?_map, hrecorded, getElem?_foldl_recordAt, Option.map_map]
  rfl

/-- INTERNAL: and the profiles. -/
theorem map_profile_afterAll (calls : List GenerateCall) :
    (afterAll py rate service calls).providers.map (·.profile) = service.providers.map (·.profile) := by
  induction calls generalizing service with
  | nil => rfl
  | cons call rest ih =>
    have hfirst := map_profile_afterCall py rate service call
    exact (ih (afterCall py rate service call)).trans hfirst

/-- INTERNAL: so one provider to an id stays one. -/
theorem distinct_afterAll (hdistinct : (service.providers.map (·.profile.providerId)).Nodup)
    (calls : List GenerateCall) :
    ((afterAll py rate service calls).providers.map (·.profile.providerId)).Nodup := by
  have hids : ∀ rps : List RegisteredProvider, rps.map (·.profile.providerId) =
      (rps.map (·.profile)).map (·.providerId) := by
    intro rps
    rw [List.map_map]
    rfl
  rw [hids, map_profile_afterAll, ← hids]
  exact hdistinct

variable {place : ℕ} {registered : RegisteredProvider}

/-- INTERNAL: an unavailable provider is not called, so the call leaves it as it is.
SOURCE: provider/service.py:78-146, provider/health.py:36-62 -/
theorem unavailable_afterCall (hdistinct : (service.providers.map (·.profile.providerId)).Nodup)
    (hat : service.providers[place]? = some registered)
    (hdown : registered.health.state rate = .unavailable) (call : GenerateCall) :
    (afterCall py rate service call).providers[place]? = some registered := by
  have hrouted := (routed_of_unambiguous service py rate call.1 call.2)
    (unambiguous_of_distinct service py rate call.1 call.2 hdistinct)
  have hnone : (service.generate py rate call.1 call.2).calls.filter (·.place = place) = [] := by
    apply List.filter_eq_nil_iff.mpr
    intro made hmade hplace
    obtain ⟨other, hother, hpasses⟩ := hrouted.allowed made hmade
    rw [of_decide_eq_true hplace, hat] at hother
    obtain rfl := Option.some.inj hother
    exact ((passes_iff rate service _ _).mp hpasses).2 hdown
  have hrecorded := hrouted.recorded place
  rw [hnone, hat] at hrecorded
  exact hrecorded

/-- An unavailable provider stays as it is, whatever is called. -/
theorem unavailable_afterAll (hdistinct : (service.providers.map (·.profile.providerId)).Nodup)
    (hat : service.providers[place]? = some registered)
    (hdown : registered.health.state rate = .unavailable) (calls : List GenerateCall) :
    (afterAll py rate service calls).providers[place]? = some registered := by
  induction calls generalizing service with
  | nil => exact hat
  | cons call rest ih =>
    apply ih
    · exact distinct_afterAll py rate service hdistinct [call]
    · exact unavailable_afterCall py rate service hdistinct hat hdown call

/-- When no provider has become unavailable all are eligible; and with one provider to an id that is
the only way for them to be eligible again.
SOURCE: provider/health.py:19-62, provider/router.py:31-46, provider/service.py:78-146 -/
theorem recoverable_iff_never_unavailable (calls : List GenerateCall) :
    (NeverUnavailable py rate service calls → Recoverable py rate (afterAll py rate service calls)) ∧
    ((service.providers.map (·.profile.providerId)).Nodup →
      (Recoverable py rate (afterAll py rate service calls) ↔ NeverUnavailable py rate service calls)) := by
  have hsufficient : NeverUnavailable py rate service calls →
      Recoverable py rate (afterAll py rate service calls) := by
    intro h
    refine ⟨[], ?_⟩
    intro registered hregistered hfit
    have hup := h calls [] (by simp) registered hregistered hfit
    exact (passes_iff rate _ none registered).mpr ⟨hfit, hup⟩
  refine ⟨hsufficient, ?_⟩
  intro hdistinct
  refine ⟨?_, hsufficient⟩
  rintro ⟨more, hmore⟩ before after rfl registered hregistered hfit hdown
  obtain ⟨place, hat⟩ := List.getElem?_of_mem hregistered
  have hstill := unavailable_afterAll py rate (afterAll py rate service before)
    (distinct_afterAll py rate service hdistinct before) hat hdown (after ++ more)
  rw [afterAll_append, ← afterAll_append py rate service before after] at hstill
  have hfit' : StaticallyFit (afterAll py rate service (before ++ after)) registered := by
    unfold StaticallyFit at hfit ⊢
    rw [requirements_afterAll] at hfit ⊢
    exact hfit
  have hpasses := hmore registered (List.mem_of_getElem? hstill) hfit'
  exact ((passes_iff rate _ none registered).mp hpasses).2 hdown

end Calls

/-- A service with a single provider. -/
def soloService : ProviderRoutingService :=
  { providers := [
      { profile := { providerId := "ollama", modelId := "llama", trustLevel := .local } }] }

/-- It has failed once. -/
def failedOnce : ProviderRoutingService :=
  afterAll .plain .exact soloService [(none, fun _ => .error .other)]

/-- One failure makes it unavailable, for good. -/
theorem failed_once_not_recoverable : ¬ Recoverable .plain .exact failedOnce := by
  have hdown : ∃ registered, failedOnce.providers[0]? = some registered ∧
      registered.health.state .exact = .unavailable ∧ StaticallyFit failedOnce registered := by
    unfold StaticallyFit
    exact ⟨_, rfl, by decide +kernel, by decide +kernel⟩
  obtain ⟨registered, hat, hunavailable, hfit⟩ := hdown
  have hdistinct : (failedOnce.providers.map (·.profile.providerId)).Nodup :=
    distinct_afterAll .plain .exact soloService (by decide) _
  rintro ⟨more, hmore⟩
  have hstill := unavailable_afterAll .plain .exact failedOnce hdistinct hat hunavailable more
  have hpasses := hmore registered (List.mem_of_getElem? hstill) hfit
  exact ((passes_iff .exact _ none registered).mp hpasses).2 hunavailable

end Shea.Analysis
