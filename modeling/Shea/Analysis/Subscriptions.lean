import Shea.Model.EventBus

/-!
# Who owns a subscription

The bus knows a subscription by its id alone: generated ids and ids chosen by a caller share one
namespace, and removal takes whatever has the id. To say whose subscription a call removes, the calls
on a bus are followed here with the owner of every live subscription.

A run is sound when the live ids stay distinct, an unsubscribe removes at most one subscription, and
plugins remove only their own. That depends on its callers alone: the bus checks nothing of it.
-/

set_option autoImplicit false

namespace Shea.Analysis

open Shea.Model

/-! ## Calls on a bus -/

/-- The callers of a bus: the core, or a plugin behind its wrapper. -/
abbrev Owner := Option Plugin

inductive BusCall
  | subscribe (pattern : String) (handler : EventHandler) (priority : ℤ)
      (subscriptionId : Option String)
  | unsubscribe (subscriptionId : String)
  | publish (event : BusEvent)
  | pluginSubscribe (plugin : Plugin) (pattern : String) (handler : EventHandler)
  | pluginUnsubscribe (plugin : Plugin) (subscriptionId : String)
  | pluginPublish (plugin : Plugin) (event : BusEvent)

/-- The plugin that makes the call. -/
def BusCall.plugin : BusCall → Owner
  | subscribe .. => none
  | unsubscribe _ => none
  | publish _ => none
  | pluginSubscribe plugin _ _ => some plugin
  | pluginUnsubscribe plugin _ => some plugin
  | pluginPublish plugin _ => some plugin

/-- The bus after a call. -/
def busAfter (bus : EventBus) : BusCall → EventBus
  | .subscribe pattern handler priority subscriptionId =>
    (bus.subscribe pattern handler priority subscriptionId).2
  | .unsubscribe subscriptionId => (bus.unsubscribe subscriptionId).2
  | .publish event => bus.publish event
  | .pluginSubscribe plugin pattern handler =>
    match RestrictedEventBus.subscribe bus plugin pattern handler with
    | .ok (_, next) => next
    | .error _ => bus
  | .pluginUnsubscribe plugin subscriptionId =>
    RestrictedEventBus.unsubscribe bus plugin subscriptionId
  | .pluginPublish plugin event =>
    match RestrictedEventBus.publish bus plugin event with
    | .ok next => next
    | .error _ => bus

/-- A bus, and the owner of each live subscription. -/
structure OwnedBus where
  bus : EventBus := {}
  owners : List Owner := []

/-- The live subscriptions with their owners. -/
def OwnedBus.live (state : OwnedBus) : List (Owner × Subscription) :=
  state.owners.zip state.bus.subscriptions

/-- The owners of what is left when an id is taken away. -/
def OwnedBus.keptOwners (state : OwnedBus) (subscriptionId : String) : List Owner :=
  (state.live.filter (·.2.id ≠ subscriptionId)).map Prod.fst

/-- The owners after a call: a new subscription belongs to its caller. -/
def ownersAfter (state : OwnedBus) : BusCall → List Owner
  | .subscribe .. => state.owners ++ [none]
  | .unsubscribe subscriptionId => state.keptOwners subscriptionId
  | .publish _ => state.owners
  | .pluginSubscribe plugin _ _ =>
    if RestrictedEventBus.canSubscribe plugin then state.owners ++ [some plugin] else state.owners
  | .pluginUnsubscribe _ subscriptionId => state.keptOwners subscriptionId
  | .pluginPublish .. => state.owners

def OwnedBus.step (state : OwnedBus) (call : BusCall) : OwnedBus :=
  { bus := busAfter state.bus call, owners := ownersAfter state call }

/-- The live ids. -/
def OwnedBus.ids (state : OwnedBus) : List String := state.bus.subscriptions.map Subscription.id

/-- Something holds of every call of a run, in the state it is made in. -/
def Along (p : OwnedBus → BusCall → Prop) : OwnedBus → List BusCall → Prop
  | _, [] => True
  | state, call :: rest => p state call ∧ Along p (state.step call) rest

/-! ## Sound calls -/

/-- A call that respects the ownership of subscriptions. -/
structure SoundCall (state : OwnedBus) (call : BusCall) : Prop where
  distinct : (state.step call).ids.Nodup
  atMostOne : state.bus.subscriptions.length ≤ (state.step call).bus.subscriptions.length + 1
  own : ∀ plugin, call.plugin = some plugin →
    ∀ entry ∈ state.live, entry ∉ (state.step call).live → entry.1 = some plugin
  quiet : ∀ plugin, call.plugin = some plugin → "events.subscribe" ∉ plugin.permissions →
    (state.step call).bus.subscriptions = state.bus.subscriptions

/-- A call whose caller takes care: a new id is not live, and a plugin takes away only ids of its
own. -/
def FairCall (state : OwnedBus) : BusCall → Prop
  | .subscribe _ _ _ subscriptionId => state.bus.nextId subscriptionId ∉ state.ids
  | .pluginSubscribe plugin _ _ =>
    "events.subscribe" ∈ plugin.permissions → state.bus.nextId none ∉ state.ids
  | .pluginUnsubscribe plugin subscriptionId =>
    ∀ entry ∈ state.live, entry.2.id = subscriptionId → entry.1 = some plugin
  | _ => True

/-- What holds between calls: every live subscription has an owner, the owners among the plugins may
subscribe, and the ids are distinct. -/
structure OwnedBus.Coherent (state : OwnedBus) : Prop where
  matched : state.owners.length = state.bus.subscriptions.length
  permitted : ∀ plugin, some plugin ∈ state.owners → "events.subscribe" ∈ plugin.permissions
  distinct : state.ids.Nodup

section Steps

variable {state : OwnedBus} {call : BusCall}

/-- INTERNAL: the owners and the subscriptions of the live ones. -/
theorem live_map (h : state.Coherent) :
    state.live.map Prod.fst = state.owners ∧ state.live.map Prod.snd = state.bus.subscriptions := by
  unfold OwnedBus.live
  exact ⟨List.map_fst_zip h.matched.le, List.map_snd_zip h.matched.ge⟩

/-- INTERNAL: what is left of the live subscriptions.
SOURCE: events/bus.py:54-62 -/
theorem live_unsubscribe (h : state.Coherent) (subscriptionId : String) :
    (state.keptOwners subscriptionId).zip (state.bus.unsubscribe subscriptionId).2.subscriptions =
      state.live.filter (·.2.id ≠ subscriptionId) := by
  have hkept : (state.bus.unsubscribe subscriptionId).2.subscriptions =
      (state.live.filter (·.2.id ≠ subscriptionId)).map Prod.snd := by
    unfold EventBus.unsubscribe
    simp only
    conv_lhs => rw [← (live_map h).2]
    rw [List.filter_map]
    rfl
  rw [hkept]
  exact (List.zip_of_prod rfl rfl).symm

/-- INTERNAL: an unsubscribe, by whomever, with the owners that go with it. -/
theorem coherent_unsubscribe (h : state.Coherent) (subscriptionId : String) :
    OwnedBus.Coherent ⟨(state.bus.unsubscribe subscriptionId).2, state.keptOwners subscriptionId⟩ := by
  have hlive := live_unsubscribe h subscriptionId
  refine ⟨?_, ?_, ?_⟩
  · have hkept := congrArg List.length (List.filter_map (f := Prod.snd)
      (p := fun s : Subscription => decide (s.id ≠ subscriptionId)) (l := state.live))
    rw [(live_map h).2] at hkept
    unfold OwnedBus.keptOwners EventBus.unsubscribe
    simp only [List.length_map] at hkept ⊢
    exact hkept.symm
  · intro plugin hplugin
    obtain ⟨entry, hentry, hfirst⟩ := List.mem_map.mp hplugin
    apply h.permitted plugin
    rw [← (live_map h).1, ← hfirst]
    exact List.mem_map_of_mem (List.mem_filter.mp hentry).1
  · exact h.distinct.sublist ((List.filter_sublist).map _)

/-- INTERNAL: a new subscription at the end.
SOURCE: events/bus.py:32-53 -/
theorem coherent_subscribe (h : state.Coherent) (owner : Owner) (pattern : String)
    (handler : EventHandler) (priority : ℤ) (subscriptionId : Option String)
    (hfresh : state.bus.nextId subscriptionId ∉ state.ids)
    (howner : ∀ plugin, owner = some plugin → "events.subscribe" ∈ plugin.permissions) :
    OwnedBus.Coherent ⟨(state.bus.subscribe pattern handler priority subscriptionId).2,
      state.owners ++ [owner]⟩ := by
  refine ⟨?_, ?_, ?_⟩
  · simp [EventBus.subscribe, h.matched]
  · intro plugin hplugin
    rcases List.mem_append.mp hplugin with hplugin | hplugin
    · exact h.permitted plugin hplugin
    · exact howner plugin (List.mem_singleton.mp hplugin).symm
  · unfold OwnedBus.ids EventBus.subscribe
    rw [List.map_append]
    apply List.nodup_append.mpr
    refine ⟨h.distinct, List.nodup_singleton _, ?_⟩
    intro id hid other hother heq
    obtain rfl := List.mem_singleton.mp hother
    have hsame : id = state.bus.nextId subscriptionId := heq
    exact hfresh (hsame ▸ hid)

/-- INTERNAL: distinct ids need a new one. -/
theorem fresh_of_distinct {pattern : String} {handler : EventHandler} {priority : ℤ}
    {subscriptionId : Option String}
    (h : ((state.bus.subscribe pattern handler priority subscriptionId).2.subscriptions.map
      Subscription.id).Nodup) : state.bus.nextId subscriptionId ∉ state.ids := by
  unfold EventBus.subscribe at h
  rw [List.map_append] at h
  intro hin
  exact (List.nodup_append.mp h).2.2 _ hin _ (List.mem_singleton_self _) rfl

/-- INTERNAL: with distinct ids an id takes away at most one subscription. -/
theorem length_unsubscribe (h : state.ids.Nodup) (subscriptionId : String) :
    state.bus.subscriptions.length ≤
      (state.bus.unsubscribe subscriptionId).2.subscriptions.length + 1 := by
  unfold OwnedBus.ids at h
  unfold EventBus.unsubscribe
  simp only
  generalize state.bus.subscriptions = subscriptions at h ⊢
  induction subscriptions with
  | nil => simp
  | cons first rest ih =>
    obtain ⟨hout, hrest⟩ := List.nodup_cons.mp h
    by_cases hid : first.id = subscriptionId
    · have hkept : rest.filter (·.id ≠ subscriptionId) = rest := by
        apply List.filter_eq_self.mpr
        intro other hother
        have hne : other.id ≠ subscriptionId := by
          intro heq
          apply hout
          rw [hid, ← heq]
          exact List.mem_map_of_mem hother
        simpa using hne
      rw [List.filter_cons_of_neg (by simpa using hid), hkept, List.length_cons]
    · have hrest' := ih hrest
      rw [List.filter_cons_of_pos (by simpa using hid), List.length_cons, List.length_cons]
      omega

/-- INTERNAL: what an unsubscribe takes away has the id. -/
theorem removed_unsubscribe (h : state.Coherent) {subscriptionId : String}
    {entry : Owner × Subscription} (hlive : entry ∈ state.live) :
    entry ∉ OwnedBus.live ⟨(state.bus.unsubscribe subscriptionId).2,
      state.keptOwners subscriptionId⟩ ↔ entry.2.id = subscriptionId := by
  unfold OwnedBus.live
  rw [live_unsubscribe h]
  simp [hlive]

/-- INTERNAL: a call that adds to the live subscriptions removes none. -/
theorem live_subscribe (h : state.Coherent) (owner : Owner) (pattern : String)
    (handler : EventHandler) (priority : ℤ) (subscriptionId : Option String)
    {entry : Owner × Subscription} (hlive : entry ∈ state.live) :
    entry ∈ OwnedBus.live ⟨(state.bus.subscribe pattern handler priority subscriptionId).2,
      state.owners ++ [owner]⟩ := by
  unfold OwnedBus.live EventBus.subscribe
  simp only
  rw [List.zip_append h.matched]
  exact List.mem_append_left _ hlive

/-- INTERNAL: a fair call is sound, and leaves what holds between calls.
SOURCE: events/bus.py:32-62, extensions/security.py:38-66 -/
theorem sound_of_fair (h : state.Coherent) (hfair : FairCall state call) :
    SoundCall state call ∧ (state.step call).Coherent := by
  cases call with
  | subscribe pattern handler priority subscriptionId =>
    have hnext := coherent_subscribe h none pattern handler priority subscriptionId hfair (by simp)
    refine ⟨⟨hnext.distinct, ?_, by simp [BusCall.plugin], by simp [BusCall.plugin]⟩, hnext⟩
    simp only [OwnedBus.step, busAfter, EventBus.subscribe, List.length_append]
    omega
  | unsubscribe subscriptionId =>
    have hnext := coherent_unsubscribe h subscriptionId
    exact ⟨⟨hnext.distinct, length_unsubscribe h.distinct subscriptionId,
      by simp [BusCall.plugin], by simp [BusCall.plugin]⟩, hnext⟩
  | publish event =>
    exact ⟨⟨h.distinct, by simp [OwnedBus.step, busAfter, EventBus.publish],
      by simp [BusCall.plugin], by simp [BusCall.plugin]⟩, ⟨h.matched, h.permitted, h.distinct⟩⟩
  | pluginSubscribe plugin pattern handler =>
    by_cases hallowed : RestrictedEventBus.canSubscribe plugin = true
    · have hpermitted : "events.subscribe" ∈ plugin.permissions := by
        simpa [RestrictedEventBus.canSubscribe] using hallowed
      have hnext := coherent_subscribe h (some plugin) pattern handler 0 none (hfair hpermitted)
        (by rintro _ ⟨⟩; exact hpermitted)
      have hstep : state.step (.pluginSubscribe plugin pattern handler) =
          ⟨(state.bus.subscribe pattern handler).2, state.owners ++ [some plugin]⟩ := by
        simp [OwnedBus.step, busAfter, ownersAfter, RestrictedEventBus.subscribe, hallowed]
      rw [← hstep] at hnext
      refine ⟨⟨hnext.distinct, ?_, ?_, ?_⟩, hnext⟩
      · rw [hstep]
        simp only [EventBus.subscribe, List.length_append]
        omega
      · intro _ _ entry hlive hgone
        rw [hstep] at hgone
        exact absurd (live_subscribe h (some plugin) pattern handler 0 none hlive) hgone
      · rintro _ ⟨⟩ hforbidden
        exact absurd hpermitted hforbidden
    · have hstep : state.step (.pluginSubscribe plugin pattern handler) = state := by
        simp [OwnedBus.step, busAfter, ownersAfter, RestrictedEventBus.subscribe, hallowed]
      refine ⟨⟨?_, ?_, ?_, ?_⟩, ?_⟩
      · rw [hstep]
        exact h.distinct
      · rw [hstep]
        omega
      · intro _ _ entry hlive hgone
        rw [hstep] at hgone
        exact absurd hlive hgone
      · intro _ _ _
        rw [hstep]
      · rw [hstep]
        exact h
  | pluginUnsubscribe plugin subscriptionId =>
    have hnext := coherent_unsubscribe h subscriptionId
    refine ⟨⟨hnext.distinct, length_unsubscribe h.distinct subscriptionId, ?_, ?_⟩, hnext⟩
    · rintro _ ⟨⟩ entry hlive hgone
      exact hfair entry hlive ((removed_unsubscribe h hlive).mp hgone)
    · rintro _ ⟨⟩ hforbidden
      -- the plugin owns nothing, so nothing has the id
      apply List.filter_eq_self.mpr
      intro subscription hsubscription
      rw [← (live_map h).2] at hsubscription
      obtain ⟨entry, hlive, rfl⟩ := List.mem_map.mp hsubscription
      have hne : entry.2.id ≠ subscriptionId := by
        intro hid
        have howner := hfair entry hlive hid
        apply hforbidden
        apply h.permitted
        rw [← (live_map h).1, ← howner]
        exact List.mem_map_of_mem hlive
      simpa using hne
  | pluginPublish plugin event =>
    have hsame : (busAfter state.bus (.pluginPublish plugin event)).subscriptions =
        state.bus.subscriptions := by
      unfold busAfter RestrictedEventBus.publish
      by_cases hallowed : RestrictedEventBus.canPublish plugin = true
      · simp [hallowed, EventBus.publish]
      · simp [hallowed]
    have hlive : (state.step (.pluginPublish plugin event)).live = state.live := by
      simp only [OwnedBus.live, OwnedBus.step, ownersAfter, hsame]
    refine ⟨⟨?_, ?_, ?_, ?_⟩, ⟨?_, h.permitted, ?_⟩⟩
    · simpa [OwnedBus.ids, OwnedBus.step, hsame] using h.distinct
    · simp [OwnedBus.step, hsame]
    · intro _ _ entry hin hgone
      exact absurd (hlive ▸ hin) hgone
    · intro _ _ _
      exact hsame
    · simpa [OwnedBus.step, ownersAfter, hsame] using h.matched
    · simpa [OwnedBus.ids, OwnedBus.step, hsame] using h.distinct

/-- INTERNAL: a sound call was a fair one. -/
theorem fair_of_sound (h : state.Coherent) (hsound : SoundCall state call) : FairCall state call := by
  cases call with
  | subscribe pattern handler priority subscriptionId => exact fresh_of_distinct hsound.distinct
  | unsubscribe subscriptionId => trivial
  | publish event => trivial
  | pluginSubscribe plugin pattern handler =>
    intro hpermitted
    have hallowed : RestrictedEventBus.canSubscribe plugin = true := by
      simpa [RestrictedEventBus.canSubscribe] using hpermitted
    have hdistinct := hsound.distinct
    simp only [OwnedBus.ids, OwnedBus.step, busAfter, RestrictedEventBus.subscribe, hallowed,
      if_true] at hdistinct
    exact fresh_of_distinct hdistinct
  | pluginUnsubscribe plugin subscriptionId =>
    intro entry hlive hid
    exact hsound.own plugin rfl entry hlive ((removed_unsubscribe h hlive).mpr hid)
  | pluginPublish plugin event => trivial

end Steps

/-! ## Runs -/

/-- INTERNAL: along a run from a state where it all holds. -/
theorem along_sound_iff {state : OwnedBus} (h : state.Coherent) (calls : List BusCall) :
    Along SoundCall state calls ↔ Along FairCall state calls := by
  induction calls generalizing state with
  | nil => exact Iff.rfl
  | cons call rest ih =>
    constructor
    · rintro ⟨hsound, hrest⟩
      have hfair := fair_of_sound h hsound
      exact ⟨hfair, (ih (sound_of_fair h hfair).2).mp hrest⟩
    · rintro ⟨hfair, hrest⟩
      obtain ⟨hsound, hnext⟩ := sound_of_fair h hfair
      exact ⟨hsound, (ih hnext).mpr hrest⟩

/-- A run on a new bus respects the ownership of subscriptions, call by call, exactly when every
caller takes care.
SOURCE: events/bus.py:32-62, extensions/security.py:38-66 -/
theorem ownership_respected_iff (calls : List BusCall) :
    Along SoundCall {} calls ↔ Along FairCall {} calls :=
  along_sound_iff ⟨rfl, by simp, by simp [OwnedBus.ids]⟩ calls

/-- A plugin without any permission. -/
def idlePlugin : Plugin := { id := "plugin", name := "plugin" }

/-- It takes away the first subscription of the core, whose id it can guess. -/
theorem idle_plugin_unsubscribes_core :
    "events.subscribe" ∉ idlePlugin.permissions ∧
      ¬ Along SoundCall {} [.subscribe "task.state_changed" (fun _ => none) 10 none,
        .pluginUnsubscribe idlePlugin "sub-1"] := by
  refine ⟨by decide, ?_⟩
  rintro ⟨-, hsound, -⟩
  have hquiet := congrArg List.length (hsound.quiet idlePlugin rfl (by decide))
  revert hquiet
  decide +kernel

end Shea.Analysis
