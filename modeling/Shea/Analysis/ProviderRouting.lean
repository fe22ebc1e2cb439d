import Shea.Computation.Ranking
import Shea.Model.Providers
import Shea.Model.Sample

/-!
# Which providers are called

The router filters and ranks profiles, the service then looks up the provider of each profile by its
id. As long as the profiles it gets to have different ids and the first provider of each id passes the
filters itself, that lookup finds the place the profile came from, and the calls are the first places
of the ranking. When two providers share an id, the first of them is called for the profile of the
second, whatever its own trust level.
-/

set_option autoImplicit false

namespace Shea.Analysis

open Shea.Computation Shea.Model
open Shea.Model.ProviderRoutingService (byId recordAt attemptAll)

/-! ## The ranking of the places -/

section Ranking

variable (service : ProviderRoutingService) (py : Stdlib) (rate : ErrorRate) (preferred : Option String)

/-- The order of the router, between registered providers. -/
def RanksBefore (a b : RegisteredProvider × ℕ) : Prop :=
  ProviderRouter.rankLe
    (ProviderRouter.rankKey py (service.effectiveRequirements preferred) (service.routed rate) a.1.profile)
    (ProviderRouter.rankKey py (service.effectiveRequirements preferred) (service.routed rate) b.1.profile)

instance : DecidableRel (RanksBefore service py rate preferred) := fun _ _ => by
  unfold RanksBefore
  infer_instance

/-- A provider passes the hard filters with its own profile and its own health. -/
def Passes (registered : RegisteredProvider) : Prop :=
  ProviderRouter.passes (service.effectiveRequirements preferred) registered.profile
    (registered.health.state rate) = true

/-- The providers that pass, with their places, best first. -/
def ranked : List (RegisteredProvider × ℕ) :=
  (service.providers.zipIdx.filter fun entry =>
    ProviderRouter.passes (service.effectiveRequirements preferred) entry.1.profile
      (entry.1.health.state rate)).insertionSort (RanksBefore service py rate preferred)

instance : Std.Total (RanksBefore service py rate preferred) := ⟨fun a b => by
  unfold RanksBefore ProviderRouter.rankLe
  omega⟩

instance : IsTrans _ (RanksBefore service py rate preferred) := ⟨fun a b c => by
  unfold RanksBefore ProviderRouter.rankLe
  omega⟩

/-- INTERNAL: the router gives the profiles of the ranking.
SOURCE: provider/router.py:24-67 -/
theorem eligible_eq :
    ProviderRouter.eligible py (service.routed rate) (service.effectiveRequirements preferred) =
      (ranked service py rate preferred).map (·.1.profile) := by
  unfold ranked ProviderRouter.eligible
  rw [List.map_insertionSort (r := RanksBefore service py rate preferred) (s := fun a b =>
    ProviderRouter.rankLe
      (ProviderRouter.rankKey py (service.effectiveRequirements preferred) (service.routed rate) a)
      (ProviderRouter.rankKey py (service.effectiveRequirements preferred) (service.routed rate) b))]
  · congr 1
    have hproviders : service.providers = service.providers.zipIdx.map Prod.fst := by simp
    unfold ProviderRoutingService.routed
    conv_lhs => rw [hproviders]
    rw [List.map_map, List.filter_map, List.map_map]
    rfl
  · intro a _ b _
    rfl

/-- INTERNAL: a provider of the ranking is registered at its place, and passes. -/
theorem mem_ranked {entry : RegisteredProvider × ℕ} :
    entry ∈ ranked service py rate preferred ↔
      service.providers[entry.2]? = some entry.1 ∧ Passes service rate preferred entry.1 := by
  unfold ranked
  rw [List.mem_insertionSort, List.mem_filter, List.mem_zipIdx_iff_getElem?]
  rfl

/-- No provider is ranked twice. -/
theorem ranked_nodup : (ranked service py rate preferred).Nodup := by
  unfold ranked
  apply (List.perm_insertionSort _ _).nodup_iff.mpr
  apply List.Nodup.filter
  apply List.Nodup.of_map Prod.snd
  rw [List.zipIdx_map_snd]
  exact List.nodup_range'

end Ranking

/-! ## The loop -/

section Loop

variable (answers : Answers)

/-- The profiles up to the first one whose call succeeds; `n` calls were made before. -/
def attempted : List ProviderProfile → ℕ → List ProviderProfile
  | [], _ => []
  | profile :: rest, n =>
    profile :: match answers n with
      | .error _ => attempted rest (n + 1)
      | .ok _ => []

/-- The place that is called for a profile. -/
def placeOf (providers : List RegisteredProvider) (profile : ProviderProfile) : ℕ :=
  (byId providers profile.providerId).getD 0

/-- Every profile has a provider. -/
def AllRegistered (providers : List RegisteredProvider) (profiles : List ProviderProfile) : Prop :=
  ∀ profile ∈ profiles, byId providers profile.providerId = some (placeOf providers profile)

/-- The attempts follow the ranking from its start. -/
theorem attempted_isPrefix (profiles : List ProviderProfile) (n : ℕ) :
    attempted answers profiles n <+: profiles := by
  induction profiles generalizing n with
  | nil => exact List.prefix_refl _
  | cons profile rest ih =>
    unfold attempted
    apply (List.prefix_cons_inj profile).mpr
    cases answers n with
    | error failure => exact ih (n + 1)
    | ok response => exact List.nil_prefix

variable {answers} {providers : List RegisteredProvider}

/-- INTERNAL: outcomes change no profile, so they change no lookup. -/
theorem byId_recordAt (place : ℕ) (succeeded : Bool) (providerId : String) :
    byId (recordAt providers place succeeded) providerId = byId providers providerId := by
  have hids : (recordAt providers place succeeded).map (·.profile.providerId) =
      providers.map (·.profile.providerId) := by
    unfold recordAt
    apply List.ext_getElem?
    intro i
    rw [List.getElem?_map, List.getElem?_map, List.getElem?_modify]
    by_cases h : place = i
    · cases providers[i]? <;> simp [h]
    · simp [h]
  have hsame : ∀ rps : List RegisteredProvider, byId rps providerId =
      (rps.map (·.profile.providerId)).findIdx? (· = providerId) := by
    intro rps
    unfold byId
    rw [List.findIdx?_map]
    rfl
  rw [hsame, hids, ← hsame]

/-- INTERNAL: an outcome moves no provider. -/
theorem placeOf_recordAt (place : ℕ) (succeeded : Bool) :
    placeOf (recordAt providers place succeeded) = placeOf providers := by
  funext profile
  unfold placeOf
  rw [byId_recordAt]

/-- INTERNAL: and all profiles stay registered. -/
theorem AllRegistered.recordAt {profiles : List ProviderProfile} (h : AllRegistered providers profiles)
    (place : ℕ) (succeeded : Bool) :
    AllRegistered (ProviderRoutingService.recordAt providers place succeeded) profiles := by
  intro profile hprofile
  rw [byId_recordAt, placeOf_recordAt]
  exact h profile hprofile

/-- What a run of the loop does: whom it calls, when it ends, what it records. -/
structure Attempts (answers : Answers) (providers : List RegisteredProvider)
    (profiles : List ProviderProfile) (n : ℕ) (run : RoutingRun) : Prop where
  places : run.calls.map ProviderCall.place =
    (attempted answers profiles n).map (placeOf providers)
  stops : ∀ before call after, run.calls = before ++ call :: after → call.succeeded = true → after = []
  answered : ∀ response, run.result = .ok response ↔
    ∃ call ∈ run.calls, call.answer = .ok response
  recorded : run.providers = run.calls.foldl
    (fun rps call => recordAt rps call.place call.succeeded) providers

/-- The loop, call by call.
SOURCE: provider/service.py:105-146 -/
theorem attempts_attemptAll (profiles : List ProviderProfile) (attempts : List (String × String))
    (h : AllRegistered providers profiles) :
    Attempts answers providers profiles attempts.length
      (attemptAll answers profiles providers attempts) := by
  induction profiles generalizing providers attempts with
  | nil =>
    refine ⟨rfl, ?_, ?_, rfl⟩
    · intro before call after hsplit _
      cases before <;> cases hsplit
    · intro response
      simp [attemptAll]
  | cons profile rest ih =>
    have hplace := h profile (List.mem_cons_self ..)
    have hrest : AllRegistered providers rest := fun other hother =>
      h other (List.mem_cons_of_mem _ hother)
    unfold attemptAll
    rw [hplace]
    cases hanswer : answers attempts.length with
    | error failure =>
      have hloop := ih (attempts ++ [(profile.providerId, (classifyException failure).value)])
        (hrest.recordAt (placeOf providers profile) false)
      rw [List.length_append] at hloop
      refine ⟨?_, ?_, ?_, ?_⟩
      · have hplaces := hloop.places
        rw [placeOf_recordAt] at hplaces
        unfold attempted
        simpa [hanswer] using hplaces
      · intro before call after hsplit hsucceeded
        cases before with
        | nil =>
          obtain ⟨rfl, -⟩ := List.cons.inj hsplit
          cases hsucceeded
        | cons first before =>
          obtain ⟨-, htail⟩ := List.cons.inj hsplit
          exact hloop.stops before call after htail hsucceeded
      · intro response
        rw [hloop.answered]
        simp
      · rw [hloop.recorded]
        rfl
    | ok response =>
      refine ⟨?_, ?_, ?_, rfl⟩
      · unfold attempted
        simp [hanswer]
      · intro before call after hsplit _
        cases before with
        | nil => exact (List.cons.inj hsplit).2.symm
        | cons first before =>
          obtain ⟨-, htail⟩ := List.cons.inj hsplit
          cases before <;> cases htail
      · intro other
        simp

/-- A provider after these of its calls. -/
def afterCalls (calls : List ProviderCall) (registered : RegisteredProvider) : RegisteredProvider :=
  { registered with
    health := calls.foldl (fun tracker call => tracker.record call.succeeded) registered.health }

/-- INTERNAL: the tracker of a place records the calls of that place, and no others. -/
theorem getElem?_foldl_recordAt (calls : List ProviderCall) (providers : List RegisteredProvider)
    (place : ℕ) :
    (calls.foldl (fun rps call => recordAt rps call.place call.succeeded) providers)[place]? =
      providers[place]?.map (afterCalls (calls.filter (·.place = place))) := by
  unfold afterCalls
  induction calls generalizing providers with
  | nil => simp
  | cons call rest ih =>
    rw [List.foldl_cons, ih, recordAt, List.getElem?_modify]
    by_cases h : call.place = place
    · simp [h, Function.comp_def]
    · simp [h]

end Loop

/-! ## A call of `generate` -/

section Generate

variable (service : ProviderRoutingService) (py : Stdlib) (rate : ErrorRate) (preferred : Option String)
  (answers : Answers)

/-- A run that respects the hard filters: only providers that pass are called, each at most once and
in the order of the ranking, until one of them succeeds; and every outcome is recorded with the
provider that was called. -/
structure Routed (run : RoutingRun) : Prop where
  allowed : ∀ call ∈ run.calls, ∃ registered, service.providers[call.place]? = some registered ∧
    Passes service rate preferred registered
  once : (run.calls.map ProviderCall.place).Nodup
  ranked : run.calls.map ProviderCall.place <+: (ranked service py rate preferred).map Prod.snd
  stops : ∀ before call after, run.calls = before ++ call :: after → call.succeeded = true → after = []
  answered : ∀ response, run.result = .ok response ↔ ∃ call ∈ run.calls, call.answer = .ok response
  recorded : ∀ place, run.providers[place]? =
    service.providers[place]?.map (afterCalls (run.calls.filter (·.place = place)))

/-- The ids of the profiles that are gone through, up to the first success, name one provider each: no
two of these profiles have the same id, and the first provider registered under it passes the
filters. -/
structure Unambiguous : Prop where
  distinct : ((attempted answers (service.tried py rate preferred) 0).map (·.providerId)).Nodup
  first : ∀ profile ∈ attempted answers (service.tried py rate preferred) 0, ∀ registered,
    service.providers.find? (·.profile.providerId = profile.providerId) = some registered →
      Passes service rate preferred registered

/-- INTERNAL: what is tried is a front part of the ranking.
SOURCE: provider/service.py:99-105 -/
theorem tried_isPrefix :
    service.tried py rate preferred <+: (ranked service py rate preferred).map (·.1.profile) := by
  rw [← eligible_eq]
  unfold ProviderRoutingService.tried
  cases service.maxAttempts with
  | none => exact List.prefix_refl _
  | some bound =>
    simp only
    split
    · exact List.prefix_refl _
    · unfold sliceTo
      split
      · exact List.take_prefix ..
      · exact List.take_prefix ..

/-- INTERNAL: the first provider of an id, by its place. -/
theorem find?_of_byId {providers : List RegisteredProvider} {providerId : String} {place : ℕ}
    (h : byId providers providerId = some place) :
    providers.find? (·.profile.providerId = providerId) = providers[place]? ∧
      ∃ registered, providers[place]? = some registered ∧
        registered.profile.providerId = providerId := by
  unfold byId at h
  obtain ⟨hlt, hid, -⟩ := List.findIdx?_eq_some_iff_getElem.mp h
  constructor
  · rw [List.find?_eq_bind_findIdx?_getElem?, h]
    rfl
  · exact ⟨_, List.getElem?_eq_getElem hlt, by simpa using hid⟩

/-- INTERNAL: no provider of the id stands before it. -/
theorem le_of_byId {providers : List RegisteredProvider} {providerId : String} {place other : ℕ}
    (h : byId providers providerId = some place) {registered : RegisteredProvider}
    (hother : providers[other]? = some registered)
    (hid : registered.profile.providerId = providerId) : place ≤ other := by
  unfold byId at h
  obtain ⟨_, _, hbefore⟩ := List.findIdx?_eq_some_iff_getElem.mp h
  by_contra hlt
  obtain ⟨hin, hget⟩ := List.getElem?_eq_some_iff.mp hother
  apply hbefore other (by omega)
  rw [hget]
  simpa using hid

/-- INTERNAL: whatever is tried is registered. -/
theorem allRegistered_tried : AllRegistered service.providers (service.tried py rate preferred) := by
  intro profile hprofile
  obtain ⟨entry, hentry, rfl⟩ :=
    List.mem_map.mp ((tried_isPrefix service py rate preferred).subset hprofile)
  obtain ⟨hat, -⟩ := (mem_ranked service py rate preferred).mp hentry
  have hsome : (byId service.providers entry.1.profile.providerId).isSome = true := by
    unfold byId
    rw [List.findIdx?_isSome, List.any_eq_true]
    exact ⟨entry.1, List.mem_of_getElem? hat, by simp⟩
  obtain ⟨place, hplace⟩ := Option.isSome_iff_exists.mp hsome
  unfold placeOf
  rw [hplace]
  rfl

/-- INTERNAL: the entries of the ranking whose profiles are gone through. -/
theorem exists_front : ∃ front back, ranked service py rate preferred = front ++ back ∧
    front.map (·.1.profile) = attempted answers (service.tried py rate preferred) 0 := by
  obtain ⟨rest, hrest⟩ := (attempted_isPrefix answers (service.tried py rate preferred) 0).trans
    (tried_isPrefix service py rate preferred)
  obtain ⟨front, back, hsplit, hfront, -⟩ := List.map_eq_append_iff.mp hrest.symm
  exact ⟨front, back, hsplit, hfront⟩

/-- INTERNAL: without ambiguity, the lookup of a profile finds the place it came from. -/
theorem placeOf_of_unambiguous (h : Unambiguous service py rate preferred answers)
    {front back : List (RegisteredProvider × ℕ)} (hsplit : ranked service py rate preferred = front ++ back)
    (hfront : front.map (·.1.profile) = attempted answers (service.tried py rate preferred) 0) :
    ∀ entry ∈ front, placeOf service.providers entry.1.profile = entry.2 := by
  intro entry hentry
  have hmem : entry.1.profile ∈ attempted answers (service.tried py rate preferred) 0 :=
    hfront ▸ List.mem_map_of_mem (f := fun e => e.1.profile) hentry
  have hranked : entry ∈ ranked service py rate preferred := by
    rw [hsplit]
    exact List.mem_append_left _ hentry
  obtain ⟨hat, -⟩ := (mem_ranked service py rate preferred).mp hranked
  have hplace := allRegistered_tried service py rate preferred entry.1.profile
    ((attempted_isPrefix answers _ 0).subset hmem)
  obtain ⟨hfind, holder, hholder, hid⟩ := find?_of_byId hplace
  have hpasses := h.first _ hmem holder (hfind.trans hholder)
  rcases (le_of_byId hplace hat rfl).lt_or_eq with hlt | heq
  swap
  · exact heq
  -- an earlier provider of the same id would be ranked before this one, under the same id
  exfalso
  have hin : (holder, placeOf service.providers entry.1.profile) ∈ ranked service py rate preferred :=
    (mem_ranked service py rate preferred).mpr ⟨hholder, hpasses⟩
  have hkeys : RanksBefore service py rate preferred
      (holder, placeOf service.providers entry.1.profile) entry := by
    unfold RanksBefore ProviderRouter.rankKey
    rw [hid]
    exact .inr ⟨rfl, le_refl _⟩
  have hordered : service.providers.zipIdx.Pairwise fun a b => a.2 < b.2 := by
    rw [← List.pairwise_map (f := Prod.snd) (R := (· < ·)), List.zipIdx_map_snd]
    exact List.pairwise_lt_range'
  have hpair : [(holder, placeOf service.providers entry.1.profile), entry].Sublist
      (front ++ back) := by
    rw [← hsplit]
    unfold ranked at hin hranked ⊢
    apply List.pair_sublist_insertionSort hkeys
    rw [List.mem_insertionSort] at hin hranked
    exact pair_sublist_of_pairwise (hordered.filter _) (fun _ _ h₁ h₂ => by omega) hin hranked hlt
  have hnodup : (front ++ back).Nodup := hsplit ▸ ranked_nodup service py rate preferred
  have hearlier := mem_front_of_pair hnodup hentry hpair
  have hids : (front.map (·.1.profile.providerId)).Nodup := by
    have hdistinct := h.distinct
    rw [← hfront, List.map_map] at hdistinct
    exact hdistinct
  have hsame := List.inj_on_of_nodup_map hids hearlier hentry hid
  have hplaces := congrArg Prod.snd hsame
  simp only at hplaces
  omega

/-- INTERNAL: the run of `generate`, call by call.
SOURCE: provider/service.py:68-160 -/
theorem attempts_generate :
    Attempts answers service.providers (service.tried py rate preferred) 0
      (service.generate py rate preferred answers) := by
  unfold ProviderRoutingService.generate
  simp only
  split
  · next hnone =>
    have htried : service.tried py rate preferred = [] := by
      have hprefix := tried_isPrefix service py rate preferred
      rw [← eligible_eq, List.isEmpty_iff.mp hnone] at hprefix
      exact List.prefix_nil.mp hprefix
    rw [htried]
    refine ⟨rfl, ?_, ?_, rfl⟩
    · intro before call after hsplit _
      cases before <;> cases hsplit
    · intro response
      simp
  · exact attempts_attemptAll _ [] (allRegistered_tried service py rate preferred)

/-- INTERNAL: without ambiguity the calls are the first places of the ranking.
SOURCE: provider/service.py:99-146 -/
theorem routed_of_unambiguous (hclear : Unambiguous service py rate preferred answers) :
    Routed service py rate preferred (service.generate py rate preferred answers) := by
  have hrun := attempts_generate service py rate preferred answers
  obtain ⟨front, back, hsplit, hfront⟩ := exists_front service py rate preferred answers
  have hplaces : (service.generate py rate preferred answers).calls.map ProviderCall.place =
      front.map Prod.snd := by
    rw [hrun.places, ← hfront, List.map_map]
    apply List.map_congr_left
    intro entry hentry
    exact placeOf_of_unambiguous service py rate preferred answers hclear hsplit hfront entry hentry
  have hranked : (ranked service py rate preferred).map Prod.snd =
      front.map Prod.snd ++ back.map Prod.snd := by
    rw [hsplit, List.map_append]
  refine ⟨?_, ?_, ?_, hrun.stops, hrun.answered, ?_⟩
  · intro call hcall
    have hin : call.place ∈ front.map Prod.snd := hplaces ▸ List.mem_map_of_mem hcall
    obtain ⟨entry, hentry, heq⟩ := List.mem_map.mp hin
    have hmem : entry ∈ ranked service py rate preferred := by
      rw [hsplit]
      exact List.mem_append_left _ hentry
    obtain ⟨hat, hpasses⟩ := (mem_ranked service py rate preferred).mp hmem
    exact ⟨entry.1, heq ▸ hat, hpasses⟩
  · rw [hplaces]
    have hall : ((ranked service py rate preferred).map Prod.snd).Nodup := by
      unfold ranked
      apply ((List.perm_insertionSort _ _).map _).nodup_iff.mpr
      apply List.Nodup.sublist ((List.filter_sublist).map _)
      rw [List.zipIdx_map_snd]
      exact List.nodup_range'
    rw [hranked] at hall
    exact (List.nodup_append.mp hall).1
  · rw [hplaces, hranked]
    exact List.prefix_append ..
  · intro place
    rw [hrun.recorded, getElem?_foldl_recordAt]

/-- With different ids nothing is ambiguous. -/
theorem unambiguous_of_distinct
    (h : (service.providers.map (·.profile.providerId)).Nodup) :
    Unambiguous service py rate preferred answers := by
  obtain ⟨front, back, hsplit, hfront⟩ := exists_front service py rate preferred answers
  have hmem : ∀ entry ∈ front, service.providers[entry.2]? = some entry.1 ∧
      Passes service rate preferred entry.1 := by
    intro entry hentry
    apply (mem_ranked service py rate preferred).mp
    rw [hsplit]
    exact List.mem_append_left _ hentry
  have hnodup : front.Nodup := by
    have hall := ranked_nodup service py rate preferred
    rw [hsplit] at hall
    exact (List.nodup_append.mp hall).1
  constructor
  · rw [← hfront, List.map_map]
    apply hnodup.map_on
    intro a ha b hb hid
    have hplace : a.2 = b.2 := by
      apply (List.getElem?_inj ?_ h).mp
      · rw [List.getElem?_map, List.getElem?_map, (hmem a ha).1, (hmem b hb).1]
        simpa using hid
      · rw [List.length_map]
        exact (List.getElem?_eq_some_iff.mp (hmem a ha).1).1
    have hsame := (hmem a ha).1.symm.trans ((congrArg _ hplace).trans (hmem b hb).1)
    exact Prod.ext (Option.some.inj hsame) hplace
  · intro profile hprofile registered hfirst
    rw [← hfront] at hprofile
    obtain ⟨entry, hentry, rfl⟩ := List.mem_map.mp hprofile
    have hid : registered.profile.providerId = entry.1.profile.providerId := by
      simpa using List.find?_some hfirst
    obtain rfl := List.inj_on_of_nodup_map h (List.mem_of_find?_eq_some hfirst)
      (List.mem_of_getElem? (hmem entry hentry).1) hid
    exact (hmem entry hentry).2

end Generate

/-! ## Two providers under one id -/

end Shea.Analysis
