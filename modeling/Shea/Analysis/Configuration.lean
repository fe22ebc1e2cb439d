import Shea.Model.Config

/-!
# The two ways to read the configuration

`resolve` walks the layers for one key, `effective_config` merges them into one map. The merge starts
from the least specific layer, so what it holds under a key is the value of the first layer of the
walk that has one; the loop over the invariant keys puts the values of the system layer in their
place. Both read an invariant key from the system layer alone, and a write to another layer leaves
that one as it is.
-/

set_option autoImplicit false

namespace Shea.Analysis

open Shea.Model

/-! ## Merging maps -/

section Maps

variable {κ V : Type} [DecidableEq κ]

/-- INTERNAL: the left map of a union goes first. -/
theorem lookup_union (s t : AList fun _ : κ => V) (key : κ) :
    (s ∪ t).lookup key = ((s.lookup key).or (t.lookup key)) := by
  cases h : s.lookup key with
  | none =>
    rw [AList.lookup_union_right (AList.lookup_eq_none.mp h), Option.none_or]
  | some value =>
    have hmem : key ∈ s := by
      apply AList.lookup_isSome.mp
      simp [h]
    rw [AList.lookup_union_left hmem, h, Option.some_or]

end Maps

/-! ## The merge and the walk -/

section Resolver

variable (resolver : ConfigResolver) (key : String) (default : Value)

/-- The value of the first of these layers that has one. -/
def firstDefined (layers : List ConfigLayer) : Option Value :=
  layers.findSome? fun layer => (resolver.layer layer).lookup key

/-- The walk over the layers finds the first one that defines the key. -/
theorem walk_eq (layers : List ConfigLayer) :
    resolver.walk key default layers = (firstDefined resolver key layers).getD default := by
  induction layers with
  | nil => rfl
  | cons layer rest ih =>
    have hcons : firstDefined resolver key (layer :: rest) =
        ((resolver.layer layer).lookup key).or (firstDefined resolver key rest) := by
      unfold firstDefined
      rw [List.findSome?_cons]
      cases (resolver.layer layer).lookup key <;> rfl
    unfold ConfigResolver.walk
    rw [hcons]
    cases (resolver.layer layer).lookup key with
    | none => simpa using ih
    | some value => simp

/-- INTERNAL: the layers merged last go first.
SOURCE: config/resolver.py:56-58 -/
theorem lookup_updateAll (result : Settings) (layers : List ConfigLayer) :
    (resolver.updateAll result layers).lookup key =
      (firstDefined resolver key layers.reverse).or (result.lookup key) := by
  induction layers generalizing result with
  | nil => simp [ConfigResolver.updateAll, firstDefined]
  | cons layer rest ih =>
    unfold ConfigResolver.updateAll
    rw [ih, lookup_union]
    unfold firstDefined
    rw [List.reverse_cons, List.findSome?_append, Option.or_assoc]
    simp

/-- INTERNAL: the loop over the invariant keys.
SOURCE: config/resolver.py:60-65 -/
theorem lookup_forceInvariants (systemValues result : Settings) (keys : List String) :
    (ConfigResolver.forceInvariants systemValues result keys).lookup key =
      if key ∈ keys then systemValues.lookup key else result.lookup key := by
  induction keys generalizing result with
  | nil => simp [ConfigResolver.forceInvariants]
  | cons forced rest ih =>
    unfold ConfigResolver.forceInvariants
    rw [ih]
    by_cases hrest : key ∈ rest
    · simp [hrest]
    · by_cases hkey : key = forced
      · subst hkey
        cases hsystem : systemValues.lookup key with
        | none => simp [hrest]
        | some value => simp [hrest]
      · have hcons : key ∉ forced :: rest := by simp [hkey, hrest]
        rw [if_neg hrest, if_neg hcons]
        cases hsystem : systemValues.lookup forced with
        | none => exact AList.lookup_erase_ne hkey
        | some value => exact AList.lookup_insert_ne hkey

/-- The two merges agree. -/
theorem effectiveConfig_resolve :
    (resolver.effectiveConfig.lookup key).getD default = resolver.resolve key default := by
  unfold ConfigResolver.effectiveConfig ConfigResolver.resolve
  rw [lookup_forceInvariants]
  by_cases hkey : key ∈ resolver.securityInvariantKeys
  · simp [hkey]
  · rw [if_neg hkey, if_neg hkey, lookup_updateAll, List.reverse_reverse, walk_eq]
    simp

end Resolver

/-! ## Writes -/

/-- A write to one layer: one of its values, or all of them. -/
inductive ConfigWrite
  | entry (layer : ConfigLayer) (key : String) (value : Value)
  | whole (layer : ConfigLayer) (settings : Settings)

/-- The layer that is written. -/
def ConfigWrite.target : ConfigWrite → ConfigLayer
  | entry layer _ _ => layer
  | whole layer _ => layer

def ConfigWrite.apply (resolver : ConfigResolver) : ConfigWrite → ConfigResolver
  | entry layer key value => resolver.setLayerValue layer key value
  | whole layer settings => resolver.setLayer layer settings

/-- One write after the other. -/
def applyWrites (resolver : ConfigResolver) (writes : List ConfigWrite) : ConfigResolver :=
  writes.foldl ConfigWrite.apply resolver

section Writes

variable (resolver : ConfigResolver)

/-- INTERNAL: a write leaves the protected keys as they are. -/
@[simp] theorem apply_securityInvariantKeys (write : ConfigWrite) :
    (write.apply resolver).securityInvariantKeys = resolver.securityInvariantKeys := by
  cases write <;> rfl

/-- INTERNAL: a write leaves the other layers alone. -/
theorem layer_apply_of_ne {write : ConfigWrite} {layer : ConfigLayer} (h : layer ≠ write.target) :
    (write.apply resolver).layer layer = resolver.layer layer := by
  unfold ConfigResolver.layer
  cases write with
  | entry target key value =>
    have hne : layer ≠ target := h
    simp only [ConfigWrite.apply, ConfigResolver.setLayerValue]
    rw [AList.lookup_insert_ne hne]
  | whole target settings =>
    have hne : layer ≠ target := h
    simp only [ConfigWrite.apply, ConfigResolver.setLayer]
    rw [AList.lookup_insert_ne hne]

/-- INTERNAL: an invariant key is read from the system layer. -/
theorem resolve_apply_of_invariant {write : ConfigWrite} (hwrite : write.target ≠ .system)
    {key : String} (hkey : key ∈ resolver.securityInvariantKeys) (default : Value) :
    (write.apply resolver).resolve key default = resolver.resolve key default := by
  unfold ConfigResolver.resolve
  rw [apply_securityInvariantKeys, if_pos hkey, if_pos hkey, layer_apply_of_ne resolver hwrite.symm]

/-- INTERNAL: nor do any number of such writes change its value. -/
theorem resolve_applyWrites_of_invariant {writes : List ConfigWrite}
    (hwrites : ∀ write ∈ writes, write.target ≠ .system) {key : String}
    (hkey : key ∈ resolver.securityInvariantKeys) (default : Value) :
    (applyWrites resolver writes).resolve key default = resolver.resolve key default := by
  induction writes generalizing resolver with
  | nil => rfl
  | cons write writes ih =>
    have hfirst := resolve_apply_of_invariant resolver (hwrites write (List.mem_cons_self ..)) hkey
      default
    have hrest := ih (write.apply resolver)
      (fun other hother => hwrites other (List.mem_cons_of_mem _ hother)) (by simpa using hkey)
    exact hrest.trans hfirst

/-- Whatever was written, the merged configuration answers as `resolve` does; and writes to other
layers than the system layer leave the value of an invariant key as it was.
SOURCE: config/resolver.py:33-70 -/
theorem configuration_layered (written : List ConfigWrite) :
    (∀ key default, ((applyWrites resolver written).effectiveConfig.lookup key).getD default =
      (applyWrites resolver written).resolve key default) ∧
    ∀ more : List ConfigWrite, (∀ write ∈ more, write.target ≠ .system) →
      ∀ key ∈ resolver.securityInvariantKeys, ∀ default,
        (applyWrites resolver (written ++ more)).resolve key default =
          (applyWrites resolver written).resolve key default := by
  refine ⟨fun key default => effectiveConfig_resolve _ key default, fun more hmore key hkey default => ?_⟩
  have hkeys : (applyWrites resolver written).securityInvariantKeys =
      resolver.securityInvariantKeys := by
    unfold applyWrites
    induction written generalizing resolver with
    | nil => rfl
    | cons write written ih =>
      rw [List.foldl_cons, ih]
      · simp
      · simpa using hkey
  have hsplit : applyWrites resolver (written ++ more) =
      applyWrites (applyWrites resolver written) more := List.foldl_append ..
  rw [hsplit]
  exact resolve_applyWrites_of_invariant _ hmore (by rwa [hkeys]) default

end Writes

/-- A project that asks for unsigned plugins does not get them. -/
theorem unsigned_plugins_stay_off :
    (applyWrites {} [.entry .system "allow_unsigned_plugins" (.bool false),
      .entry .project "allow_unsigned_plugins" (.bool true)]).resolve "allow_unsigned_plugins" =
      .bool false := by
  have h := (configuration_layered {} [.entry .system "allow_unsigned_plugins" (.bool false)]).2
    [.entry .project "allow_unsigned_plugins" (.bool true)] (by simp [ConfigWrite.target])
    "allow_unsigned_plugins" (by simp [defaultSecurityInvariantKeys]) .none
  exact h.trans (by decide +kernel)

end Shea.Analysis
