import Shea.Computation.Ranking
import Shea.Model.Credentials

/-!
# The cached pattern of the credential service

`redact` builds its pattern once and keeps it until a call drops it. A call that changes what there is to
be masked and does not come to the line that drops the pattern leaves an old one behind: a `revoke`
whose `delete_secret` raises, which nobody notices, or any call that raises after a store has changed.

What is to be masked is a matter of the ids in the vault, in the order of their names, and of the
secrets of eight letters and more that the secure store has for them. As long as that stays the same, or
the pattern is dropped, the cache stays good.
-/

set_option autoImplicit false

namespace Shea.Analysis

open Shea.Computation Shea.Model

/-! ## What is to be masked -/

/-- The secret that is masked for an id. -/
def maskedSecret (secrets : List (String × String)) (credentialId : String) : Option String :=
  (secrets.lookup credentialId).filter toBeMasked

/-- The pattern as it is built from the two stores. -/
def freshPattern (w : CredentialWorld) : List String :=
  (VaultRepository.byName w.credentials).flatMap fun metadata =>
    (maskedSecret w.secrets metadata.id).toList

/-- What the order of the vault depends on. -/
def place (metadata : CredentialMetadata) : String × String := (metadata.name, metadata.id)

/-- INTERNAL: names are compared, ids are not. -/
def nameLe (a b : String × String) : Prop := a.1 ≤ b.1

instance : DecidableRel nameLe := fun a b => inferInstanceAs (Decidable (a.1 ≤ b.1))

instance : Std.Total nameLe := ⟨fun a b => String.le_total a.1 b.1⟩

instance : IsTrans (String × String) nameLe := ⟨fun _ _ _ hab hbc => String.le_trans hab hbc⟩

/-- INTERNAL: the secrets to be masked, for some places. -/
def maskedAt (secrets : List (String × String)) (places : List (String × String)) : List String :=
  places.flatMap fun p => (maskedSecret secrets p.2).toList

/-- INTERNAL: there is something to be masked at a place. -/
def hasMask (secrets : List (String × String)) (p : String × String) : Bool :=
  (maskedSecret secrets p.2).isSome

/-- INTERNAL: the fresh pattern masks the secrets in the order of their names. -/
theorem freshPattern_eq (w : CredentialWorld) :
    freshPattern w = maskedAt w.secrets ((w.credentials.map place).insertionSort nameLe) := by
  have hsort : (VaultRepository.byName w.credentials).map place =
      (w.credentials.map place).insertionSort nameLe :=
    List.map_insertionSort _ nameLe place w.credentials fun a _ b _ => Iff.rfl
  rw [← hsort]
  unfold freshPattern maskedAt
  rw [List.flatMap_map]
  rfl

/-- INTERNAL: places where nothing is to be masked do not matter. -/
theorem maskedAt_filter (secrets : List (String × String)) (places : List (String × String)) :
    maskedAt secrets (places.filter (hasMask secrets)) = maskedAt secrets places := by
  induction places with
  | nil => rfl
  | cons p places ih =>
    unfold maskedAt hasMask at ih ⊢
    cases h : maskedSecret secrets p.2 <;> simp [h, ih]

/-- Two vaults with the same places, where something is to be masked at all, have the same pattern. -/
theorem freshPattern_congr_places {w : CredentialWorld} {rows : List CredentialMetadata}
    (h : (rows.map place).filter (hasMask w.secrets) =
      (w.credentials.map place).filter (hasMask w.secrets)) :
    freshPattern { w with credentials := rows } = freshPattern w := by
  have hfilter : ∀ places : List (String × String), maskedAt w.secrets (places.insertionSort nameLe) =
      maskedAt w.secrets ((places.filter (hasMask w.secrets)).insertionSort nameLe) := by
    intro places
    rw [← maskedAt_filter, filter_insertionSort]
  rw [freshPattern_eq, freshPattern_eq]
  exact (hfilter _).trans ((congrArg (fun places => maskedAt w.secrets (places.insertionSort nameLe)) h).trans
    (hfilter _).symm)

/-- Two secure stores with the same secrets to be masked, for the ids in the vault. -/
theorem freshPattern_congr_secrets {w : CredentialWorld} {secrets : List (String × String)}
    (h : ∀ metadata ∈ w.credentials,
      maskedSecret secrets metadata.id = maskedSecret w.secrets metadata.id) :
    freshPattern { w with secrets := secrets } = freshPattern w := by
  unfold freshPattern
  refine List.flatMap_congr fun metadata hmem => ?_
  have hin : metadata ∈ w.credentials := (List.mem_insertionSort _).mp hmem
  exact congrArg Option.toList (h metadata hin)

/-- The state after metadata was saved. -/
def saved (w : CredentialWorld) (metadata : CredentialMetadata) : CredentialWorld :=
  { w with credentials := Table.upsert CredentialMetadata.id VaultRepository.updated metadata w.credentials }

/-- The state after metadata was deleted. -/
def deleted (w : CredentialWorld) (credentialId : String) : CredentialWorld :=
  { w with credentials := w.credentials.filter (·.id ≠ credentialId) }

/-- The state after a secret was set. -/
def stored (w : CredentialWorld) (credentialId secret : String) : CredentialWorld :=
  { w with secrets := (credentialId, secret) :: w.secrets.filter (·.1 ≠ credentialId) }

/-- The state after a secret was deleted. -/
def forgotten (w : CredentialWorld) (credentialId : String) : CredentialWorld :=
  { w with secrets := w.secrets.filter (·.1 ≠ credentialId) }

section Stores

variable {w : CredentialWorld} {credentialId secret : String} {metadata old : CredentialMetadata}

/-- INTERNAL: a row for which nothing is masked may be saved. -/
theorem freshPattern_save_of_none (h : maskedSecret w.secrets metadata.id = none) :
    freshPattern (saved w metadata) = freshPattern w := by
  apply freshPattern_congr_places
  have hnone : ∀ row : CredentialMetadata, row.id = metadata.id →
      hasMask w.secrets (place row) = false := by
    intro row hrow
    unfold hasMask place
    rw [hrow, h]
    rfl
  induction w.credentials with
  | nil => simp [Table.upsert, hnone metadata rfl]
  | cons row rows ih =>
    unfold Table.upsert
    split
    · next hrow =>
      rw [List.map_cons, List.map_cons, List.filter_cons_of_neg, List.filter_cons_of_neg]
      · simp [hnone row hrow]
      · simp [hnone (VaultRepository.updated row metadata) rfl]
    · rw [List.map_cons, List.map_cons, List.filter_cons, List.filter_cons, ih]

/-- INTERNAL: a row that is saved over one with the same name has its place. -/
theorem map_place_upsert {rows : List CredentialMetadata}
    (h : Table.lookup CredentialMetadata.id rows metadata.id = some old)
    (hname : metadata.name = old.name) :
    (Table.upsert CredentialMetadata.id VaultRepository.updated metadata rows).map place =
      rows.map place := by
  induction rows with
  | nil => cases h
  | cons row rows ih =>
    unfold Table.lookup at h
    rw [List.find?_cons] at h
    unfold Table.upsert
    by_cases hrow : row.id = metadata.id
    · rw [decide_eq_true hrow] at h
      obtain rfl := Option.some.inj h
      have hsame : place (VaultRepository.updated row metadata) = place row := Prod.ext hname hrow.symm
      rw [if_pos hrow, List.map_cons, List.map_cons, hsame]
    · rw [decide_eq_false hrow] at h
      rw [if_neg hrow, List.map_cons, List.map_cons, ih h]

/-- INTERNAL: a row may be saved over one with the same name. -/
theorem freshPattern_save_of_lookup
    (h : Table.lookup CredentialMetadata.id w.credentials metadata.id = some old)
    (hname : metadata.name = old.name) :
    freshPattern (saved w metadata) = freshPattern w := by
  apply freshPattern_congr_places
  rw [map_place_upsert h hname]

/-- INTERNAL: the metadata of an id for which nothing is masked may be deleted. -/
theorem freshPattern_delete_of_none
    (h : maskedSecret w.secrets credentialId = none ∨ ∀ row ∈ w.credentials, row.id ≠ credentialId) :
    freshPattern (deleted w credentialId) = freshPattern w := by
  apply freshPattern_congr_places
  rw [List.filter_map, List.filter_map, List.filter_filter]
  congr 1
  apply List.filter_congr
  intro row hrow
  rcases h with h | h
  · by_cases hid : row.id = credentialId
    · simp [hasMask, place, hid, h]
    · simp [hid]
  · simp [h row hrow]

/-- INTERNAL: the secrets of other ids are found as before. -/
theorem lookup_filter_ne (secrets : List (String × String)) {other : String} (h : other ≠ credentialId) :
    (secrets.filter (·.1 ≠ credentialId)).lookup other = secrets.lookup other := by
  induction secrets with
  | nil => rfl
  | cons entry rest ih =>
    obtain ⟨key, value⟩ := entry
    by_cases hkey : key = credentialId
    · have hne : (other == key) = false := beq_false_of_ne (hkey ▸ h)
      rw [List.filter_cons_of_neg (by simpa using hkey), List.lookup_cons, hne, ih]
    · rw [List.filter_cons_of_pos (by simpa using hkey), List.lookup_cons, List.lookup_cons, ih]

/-- INTERNAL: what is masked for an id after a secret was set. -/
theorem maskedSecret_set (secrets : List (String × String)) (other : String) :
    maskedSecret ((credentialId, secret) :: secrets.filter (·.1 ≠ credentialId)) other =
      if other = credentialId then (some secret).filter toBeMasked else maskedSecret secrets other := by
  unfold maskedSecret
  rw [List.lookup_cons]
  by_cases h : other = credentialId
  · simp [h]
  · rw [beq_false_of_ne h, if_neg h, lookup_filter_ne secrets h]

/-- INTERNAL: a secret may be set if the same is masked for the id afterwards. -/
theorem freshPattern_set_of_same
    (h : (some secret).filter toBeMasked = maskedSecret w.secrets credentialId) :
    freshPattern (stored w credentialId secret) = freshPattern w := by
  apply freshPattern_congr_secrets
  intro metadata _
  rw [maskedSecret_set]
  split
  · next hid => rw [h, hid]
  · rfl

/-- INTERNAL: what is masked for other ids after a secret was deleted. -/
theorem freshPattern_deleteSecret (h : ∀ row ∈ w.credentials, row.id ≠ credentialId) :
    freshPattern (forgotten w credentialId) = freshPattern w := by
  apply freshPattern_congr_secrets
  intro metadata hmem
  unfold maskedSecret
  rw [lookup_filter_ne w.secrets (h metadata hmem)]

end Stores

/-! ## The stores -/

/-- The call raises after it had its effect. -/
def RaisesAfter (fault : Fault) : Prop := ∃ e, fault = .after e

/-- The call raises before it had its effect. -/
def RaisesBefore (fault : Fault) : Prop := ∃ e, fault = .before e

section Calls

variable {w w' : CredentialWorld} {fault : Fault} {faults : StoreFaults}

/-- A call of a store is carried out, or it raises and has had no effect, or it raises and has had
it. -/
theorem storeCall_cases {α : Type} {call : CredentialProc α} {r : Except Err α}
    (h : (storeCall fault call).run w = (r, w')) :
    (fault = .none ∧ call.run w = (r, w')) ∨
      ((RaisesBefore fault ∧ w' = w ∨ RaisesAfter fault ∧ w' = (call.run w).2) ∧
        ∃ e, r = .error e) := by
  cases fault with
  | none => exact .inl ⟨rfl, h⟩
  | before e =>
    obtain ⟨rfl, rfl⟩ := Prod.mk.inj h
    exact .inr ⟨.inl ⟨⟨e, rfl⟩, rfl⟩, e, rfl⟩
  | after e =>
    refine .inr ⟨.inr ⟨⟨e, rfl⟩, ?_⟩, ?_⟩ <;>
    · simp only [storeCall, Program.run_bind] at h
      rcases hcall : call.run w with ⟨result, u⟩
      rw [hcall] at h
      cases result <;> obtain ⟨rfl, rfl⟩ := Prod.mk.inj h <;> simp

/-- INTERNAL: reading from a store changes nothing. -/
theorem storeCall_get {α : Type} (fault : Fault) (view : CredentialWorld → α) (w : CredentialWorld) :
    (storeCall fault (Program.get view)).run w = (.ok (view w), w) ∨
      fault ≠ .none ∧ ∃ e, (storeCall fault (Program.get view)).run w = (.error e, w) := by
  cases fault with
  | none => exact .inl rfl
  | before e => exact .inr ⟨(fun h => by cases h), e, rfl⟩
  | after e => exact .inr ⟨(fun h => by cases h), e, rfl⟩

/-- Saving metadata raises and changes nothing, or stores it. -/
theorem saveMetadata_run (metadata : CredentialMetadata) (w : CredentialWorld) :
    (∃ e, (VaultRepository.saveMetadata metadata).run w = (.error e, w)) ∨
      (VaultRepository.saveMetadata metadata).run w = (.ok (), saved w metadata) := by
  unfold VaultRepository.saveMetadata
  rw [Program.run_bind, Program.run_get]
  dsimp only
  split
  · exact .inl ⟨_, rfl⟩
  · exact .inr rfl

/-- A call that reads from one of the stores raises. -/
def ReadRaises (faults : StoreFaults) : Prop :=
  faults.listMetadata ≠ .none ∨ ∃ credentialId, faults.getSecret credentialId ≠ .none

/-- INTERNAL: the loop over the metadata. -/
theorem secretsToMask_run (faults : StoreFaults) (rows : List CredentialMetadata) (w : CredentialWorld) :
    (CredentialService.secretsToMask faults rows).run w =
        (.ok (rows.flatMap fun metadata => (maskedSecret w.secrets metadata.id).toList), w) ∨
      ReadRaises faults ∧ ∃ e, (CredentialService.secretsToMask faults rows).run w = (.error e, w) := by
  induction rows with
  | nil => exact .inl rfl
  | cons metadata rest ih =>
    unfold CredentialService.secretsToMask SecureStore.getSecret
    rw [Program.run_bind]
    rcases storeCall_get (faults.getSecret metadata.id) (·.secrets.lookup metadata.id) w with
      hget | ⟨hraises, e, hget⟩
    · rw [hget]
      dsimp only
      rw [Program.run_bind]
      rcases ih with hrest | ⟨hraises, e, hrest⟩
      · rw [hrest]
        exact .inl rfl
      · rw [hrest]
        exact .inr ⟨hraises, e, rfl⟩
    · rw [hget]
      exact .inr ⟨.inr ⟨metadata.id, hraises⟩, e, rfl⟩

/-- The pattern is the cached one, or the fresh one, which is then cached, or a store raises.
SOURCE: credentials/service.py:32-54 -/
theorem getRedactionPattern_run (faults : StoreFaults) (w : CredentialWorld) :
    (CredentialService.getRedactionPattern faults).run w =
        (.ok (w.pattern.getD (freshPattern w)),
          { w with pattern := some (w.pattern.getD (freshPattern w)) }) ∨
      ReadRaises faults ∧ ∃ e, (CredentialService.getRedactionPattern faults).run w = (.error e, w) := by
  unfold CredentialService.getRedactionPattern
  rw [Program.run_bind, Program.run_get]
  obtain ⟨credentials, secrets, pattern, published⟩ := w
  cases pattern with
  | some pattern => exact .inl rfl
  | none =>
    dsimp only
    unfold VaultRepository.listMetadata
    rw [Program.run_bind]
    rcases storeCall_get faults.listMetadata (fun w => VaultRepository.byName w.credentials)
        ⟨credentials, secrets, none, published⟩ with hlist | ⟨hraises, e, hlist⟩
    · rw [hlist]
      dsimp only
      rw [Program.run_bind]
      rcases secretsToMask_run faults (VaultRepository.byName credentials)
          ⟨credentials, secrets, none, published⟩ with hmask | ⟨hraises, e, hmask⟩
      · rw [hmask]
        exact .inl rfl
      · rw [hmask]
        exact .inr ⟨hraises, e, rfl⟩
    · rw [hlist]
      exact .inr ⟨.inl hraises, e, rfl⟩

/-- INTERNAL: there is nothing to substitute in the empty text. -/
theorem substitute_empty (pattern : List String) : substitute pattern "" = "" := by
  unfold substitute
  rw [String.toList_empty, mask_nil]

/-- When no store raises, a text is masked with the cached pattern, or with the fresh one.
SOURCE: credentials/service.py:101-109 -/
theorem redact_run (w : CredentialWorld) (text : String) :
    ((CredentialService.redact {} text).run w).1 =
      .ok (substitute (w.pattern.getD (freshPattern w)) text) := by
  unfold CredentialService.redact
  split
  · next h =>
    subst h
    rw [substitute_empty]
    rfl
  · rw [Program.run_bind]
    rcases getRedactionPattern_run {} w with h | ⟨hraises, -⟩
    · rw [h]
      rfl
    · rcases hraises with h | ⟨_, h⟩ <;> exact absurd rfl h

/-- A call of `redact` caches the fresh pattern, or leaves the state alone. -/
theorem redact_state (faults : StoreFaults) (w : CredentialWorld) (text : String) :
    ((CredentialService.redact faults text).run w).2 = w ∨
      ((CredentialService.redact faults text).run w).2 =
        { w with pattern := some (w.pattern.getD (freshPattern w)) } := by
  unfold CredentialService.redact
  split
  · exact .inl rfl
  · rw [Program.run_bind]
    rcases getRedactionPattern_run faults w with h | ⟨-, e, h⟩
    · rw [h]
      exact .inr rfl
    · rw [h]
      exact .inl rfl

end Calls

/-! ## What one call does -/

/-- What is masked, and what is cached, is as before. -/
structure SameMask (w w' : CredentialWorld) : Prop where
  pattern : w'.pattern = w.pattern
  fresh : freshPattern w' = freshPattern w

/-- INTERNAL: a world masks as itself. -/
theorem SameMask.refl (w : CredentialWorld) : SameMask w w := ⟨rfl, rfl⟩

/-- INTERNAL: masking alike is transitive. -/
theorem SameMask.trans {w w' w'' : CredentialWorld} (h : SameMask w w') (h' : SameMask w' w'') :
    SameMask w w'' := ⟨h'.pattern.trans h.pattern, h'.fresh.trans h.fresh⟩

/-- The call comes to the line that drops the pattern, or what is masked stays the same: a create saves
nothing, or it saves an id for which nothing is masked; a rotate does not come to storing a secret, or
stores one and goes on, or the masked secret stays the same; a revoke deletes nothing, or both of its
calls are carried out, or nothing is masked for the id. -/
def LeavesMask (w : CredentialWorld) : CredentialCall × StoreFaults → Prop
  | (.create credentialId _ _ _ _ _ secret, faults) =>
      (faults.saveMetadata = .none ∧ faults.setSecret = .none) ∨ RaisesBefore faults.saveMetadata ∨
        (maskedSecret w.secrets credentialId = none ∧
          (RaisesAfter faults.setSecret → toBeMasked secret = false))
  | (.rotate _ credentialId newSecret, faults) =>
      ¬ RaisesAfter faults.setSecret ∨ faults.getMetadata ≠ .none ∨ faults.saveMetadata ≠ .none ∨
        (∀ row ∈ w.credentials, row.id ≠ credentialId) ∨
        (some newSecret).filter toBeMasked = maskedSecret w.secrets credentialId
  | (.revoke credentialId, faults) =>
      (faults.deleteMetadata = .none ∧ faults.deleteSecret = .none) ∨ RaisesBefore faults.deleteMetadata ∨
        maskedSecret w.secrets credentialId = none ∨ ∀ row ∈ w.credentials, row.id ≠ credentialId
  | _ => True

/-- What a call does: the pattern is dropped, or it stays, and what is masked stays the same if the
call leaves it alone. -/
def KeepsMask (leaves : Prop) (w w' : CredentialWorld) : Prop :=
  w'.pattern = none ∨ w'.pattern = w.pattern ∧ (leaves → freshPattern w' = freshPattern w)

section Effects

variable {w w' : CredentialWorld} {fault : Fault} {r : Except Err Unit}

/-- INTERNAL: a call that changes a store. -/
theorem storeCall_modify {update : CredentialWorld → CredentialWorld}
    (h : (storeCall fault (Program.modify update)).run w = (r, w')) :
    (fault = .none ∧ r = .ok () ∧ w' = update w) ∨
      ((RaisesBefore fault ∧ w' = w ∨ RaisesAfter fault ∧ w' = update w) ∧ ∃ e, r = .error e) := by
  rcases storeCall_cases h with ⟨hfault, hrun⟩ | h
  · obtain ⟨rfl, rfl⟩ := Prod.mk.inj hrun
    exact .inl ⟨hfault, rfl, rfl⟩
  · exact .inr h

/-- INTERNAL: metadata is saved, or the call raises. -/
theorem storeCall_save {metadata : CredentialMetadata}
    (h : (storeCall fault (VaultRepository.saveMetadata metadata)).run w = (r, w')) :
    (fault = .none ∧ r = .ok () ∧ w' = saved w metadata) ∨
      ((w' = w ∨ RaisesAfter fault ∧ w' = saved w metadata) ∧ ∃ e, r = .error e) := by
  rcases storeCall_cases h with ⟨hfault, hrun⟩ | ⟨⟨-, rfl⟩ | ⟨hafter, rfl⟩, herror⟩
  · rcases saveMetadata_run metadata w with ⟨e, hsave⟩ | hsave
    · obtain ⟨rfl, rfl⟩ := Prod.mk.inj (hsave.symm.trans hrun)
      exact .inr ⟨.inl rfl, e, rfl⟩
    · obtain ⟨rfl, rfl⟩ := Prod.mk.inj (hsave.symm.trans hrun)
      exact .inl ⟨hfault, rfl, rfl⟩
  · exact .inr ⟨.inl rfl, herror⟩
  · rcases saveMetadata_run metadata w with ⟨e, hsave⟩ | hsave
    · rw [hsave]
      exact .inr ⟨.inl rfl, herror⟩
    · rw [hsave]
      exact .inr ⟨.inr ⟨hafter, rfl⟩, herror⟩

/-- INTERNAL: a fault that raises is a fault. -/
theorem not_none_of_raisesAfter (h : RaisesAfter fault) : fault ≠ .none := by
  rintro rfl
  obtain ⟨e, he⟩ := h
  cases he

/-- INTERNAL: a store that raises after writing does not raise before. -/
theorem not_raisesBefore_of_raisesAfter (h : RaisesAfter fault) : ¬ RaisesBefore fault := by
  rintro ⟨e, rfl⟩
  obtain ⟨e', he⟩ := h
  cases he

/-- INTERNAL: a fault that raises before is a fault. -/
theorem not_none_of_raisesBefore (h : RaisesBefore fault) : fault ≠ .none := by
  rintro rfl
  obtain ⟨e, he⟩ := h
  cases he

end Effects

section Operations

variable (service : CredentialService) (faults : StoreFaults) (w : CredentialWorld)

/-- INTERNAL: the pattern is dropped, and an event published.
SOURCE: credentials/service.py:28-30 -/
theorem run_invalidate_publish {α : Type} (event : CredentialEvent) (value : α) (w : CredentialWorld) :
    ((do
      CredentialService.invalidateRedactionCache
      service.publish event
      pure value : CredentialProc α).run w).2.pattern = none := by
  unfold CredentialService.invalidateRedactionCache CredentialService.publish
  split <;> rfl

/-- INTERNAL: publishing an event touches neither the stores nor the pattern. -/
theorem sameMask_publish (event : CredentialEvent) (w : CredentialWorld) :
    SameMask w ((service.publish event).run w).2 := by
  unfold CredentialService.publish
  split
  · exact ⟨rfl, rfl⟩
  · exact .refl w

/-- INTERNAL: `create`.
SOURCE: credentials/service.py:56-72 -/
theorem kept_create (credentialId : String) (now : Time) (profileId name : String)
    (description : Option String) (allowedTools : List String) (secret : String) :
    KeepsMask (LeavesMask w (.create credentialId now profileId name description allowedTools secret, faults))
      w ((service.create faults credentialId now profileId name description allowedTools secret).run
        w).2 := by
  unfold CredentialService.create
  dsimp only
  rw [Program.run_bind]
  rcases hsave : (storeCall faults.saveMetadata (VaultRepository.saveMetadata _)).run w with ⟨r, w₁⟩
  rcases storeCall_save hsave with ⟨hfault, rfl, rfl⟩ | ⟨rfl | ⟨hafter, rfl⟩, e, rfl⟩
  · dsimp only
    rw [Program.run_bind]
    rcases hset : (storeCall faults.setSecret (SecureStore.setSecret credentialId secret)).run _ with ⟨r, w₂⟩
    -- the id is saved, so nothing may be masked for it unless the pattern is dropped
    rcases storeCall_modify hset with ⟨hfault', rfl, rfl⟩ | ⟨⟨hbefore, rfl⟩ | ⟨hafter, rfl⟩, e, rfl⟩
    · exact .inl (run_invalidate_publish service _ _ _)
    · refine .inr ⟨rfl, ?_⟩
      rintro (⟨-, hnone⟩ | ⟨e', hbefore'⟩ | ⟨hnone, -⟩)
      · exact absurd hnone (not_none_of_raisesBefore hbefore)
      · exact absurd (hfault.symm.trans hbefore') (by simp)
      · exact freshPattern_save_of_none hnone
    · refine .inr ⟨rfl, ?_⟩
      rintro (⟨-, hnone⟩ | ⟨e', hbefore'⟩ | ⟨hnone, hshort⟩)
      · exact absurd hnone (not_none_of_raisesAfter hafter)
      · exact absurd (hfault.symm.trans hbefore') (by simp)
      · refine Eq.trans (freshPattern_set_of_same ?_) (freshPattern_save_of_none hnone)
        have hsecret : (some secret).filter toBeMasked = none := by
          simp [Option.filter, hshort hafter]
        exact hsecret.trans hnone.symm
  · exact .inr ⟨rfl, fun _ => rfl⟩
  · refine .inr ⟨rfl, ?_⟩
    rintro (⟨hnone, -⟩ | hbefore | ⟨hnone, -⟩)
    · exact absurd hnone (not_none_of_raisesAfter hafter)
    · exact absurd hbefore (not_raisesBefore_of_raisesAfter hafter)
    · exact freshPattern_save_of_none hnone

/-- INTERNAL: the metadata is read, or an exception raised.
SOURCE: credentials/service.py:75-77 -/
theorem existing_run (credentialId : String) :
    (∃ metadata, faults.getMetadata = .none ∧
        Table.lookup CredentialMetadata.id w.credentials credentialId = some metadata ∧
        (CredentialService.existing faults credentialId).run w = (.ok metadata, w)) ∨
      ∃ e, (CredentialService.existing faults credentialId).run w = (.error e, w) := by
  unfold CredentialService.existing VaultRepository.getMetadata
  rw [Program.run_bind]
  cases hfault : faults.getMetadata with
  | none =>
    unfold storeCall
    rw [Program.run_get]
    dsimp only
    split
    · next metadata hlookup => exact .inl ⟨metadata, rfl, hlookup, rfl⟩
    · exact .inr ⟨_, rfl⟩
  | before e => exact .inr ⟨e, rfl⟩
  | after e => exact .inr ⟨e, rfl⟩

/-- INTERNAL: saving metadata with the id and the name of what was read. -/
theorem freshPattern_save_again {credentialId : String} {metadata new : CredentialMetadata}
    (hlookup : Table.lookup CredentialMetadata.id w.credentials credentialId = some metadata)
    (hid : new.id = metadata.id) (hname : new.name = metadata.name) :
    freshPattern (saved w new) = freshPattern w := by
  have hkey : metadata.id = credentialId := Table.lookup_eq_some_key hlookup
  rw [← hkey, ← hid] at hlookup
  exact freshPattern_save_of_lookup hlookup hname

/-- INTERNAL: `rotate`.
SOURCE: credentials/service.py:74-83 -/
theorem kept_rotate (now : Time) (credentialId newSecret : String) :
    KeepsMask (LeavesMask w (.rotate now credentialId newSecret, faults)) w
      ((service.rotate faults now credentialId newSecret).run w).2 := by
  unfold CredentialService.rotate
  rw [Program.run_bind]
  rcases existing_run faults w credentialId with ⟨metadata, hget, hlookup, hrun⟩ | ⟨e, hrun⟩
  swap
  · rw [hrun]
    exact .inr ⟨rfl, fun _ => rfl⟩
  rw [hrun]
  dsimp only
  rw [Program.run_bind]
  have hfresh : freshPattern (saved w { metadata with updatedAt := some now }) = freshPattern w :=
    freshPattern_save_again w hlookup rfl rfl
  rcases hsave : (storeCall faults.saveMetadata (VaultRepository.saveMetadata _)).run w with ⟨r, w₁⟩
  rcases storeCall_save hsave with ⟨hfault, rfl, rfl⟩ | ⟨rfl | ⟨-, rfl⟩, e, rfl⟩
  · dsimp only
    rw [Program.run_bind]
    rcases hset : (storeCall faults.setSecret (SecureStore.setSecret credentialId newSecret)).run _ with
      ⟨r, w₂⟩
    rcases storeCall_modify hset with ⟨-, rfl, rfl⟩ | ⟨⟨-, rfl⟩ | ⟨hafter, rfl⟩, e, rfl⟩
    · exact .inl (sameMask_publish service (.rotated credentialId)
        { stored _ _ _ with pattern := none }).pattern
    · exact .inr ⟨rfl, fun _ => hfresh⟩
    · refine .inr ⟨rfl, ?_⟩
      have hrow := Table.lookup_mem hlookup
      have hid := Table.lookup_eq_some_key hlookup
      rintro (hnot | hnot | hnot | hnot | hsame)
      · exact absurd hafter hnot
      · exact absurd hget hnot
      · exact absurd hfault hnot
      · exact absurd hid (hnot metadata hrow)
      · exact Eq.trans (freshPattern_set_of_same hsame) hfresh
  · exact .inr ⟨rfl, fun _ => rfl⟩
  · exact .inr ⟨rfl, fun _ => hfresh⟩

/-- INTERNAL: `update_scopes`.
SOURCE: credentials/service.py:94-99 -/
theorem kept_updateScopes (now : Time) (credentialId : String) (allowedTools : List String) :
    KeepsMask True w ((CredentialService.updateScopes faults now credentialId allowedTools).run w).2 := by
  unfold CredentialService.updateScopes
  rw [Program.run_bind]
  rcases existing_run faults w credentialId with ⟨metadata, -, hlookup, hrun⟩ | ⟨e, hrun⟩
  swap
  · rw [hrun]
    exact .inr ⟨rfl, fun _ => rfl⟩
  rw [hrun]
  dsimp only
  have hfresh : freshPattern
      (saved w { metadata with allowedTools := allowedTools, updatedAt := some now }) = freshPattern w :=
    freshPattern_save_again w hlookup rfl rfl
  rcases hsave : (storeCall faults.saveMetadata (VaultRepository.saveMetadata _)).run w with ⟨r, w₁⟩
  rcases storeCall_save hsave with ⟨-, -, rfl⟩ | ⟨rfl | ⟨-, rfl⟩, -⟩
  · exact .inr ⟨rfl, fun _ => hfresh⟩
  · exact .inr ⟨rfl, fun _ => rfl⟩
  · exact .inr ⟨rfl, fun _ => hfresh⟩

/-- INTERNAL: the part of `revoke` after the metadata is deleted: the pattern is dropped, or the id is
without metadata and its secret does not matter.
SOURCE: credentials/service.py:87-91 -/
theorem revoke_secret {credentialId : String} (hgone : ∀ row ∈ w.credentials, row.id ≠ credentialId) :
    ∃ r w', (try do
        storeCall faults.deleteSecret (SecureStore.deleteSecret credentialId)
        CredentialService.invalidateRedactionCache
      catch e => if e.isException then pure () else throw e : CredentialProc Unit).run w = (r, w') ∧
      (w'.pattern = none ∨ faults.deleteSecret ≠ .none ∧ SameMask w w') := by
  -- a failure is passed over or raised, and either way nothing else happens
  have hcaught : ∀ (e : Err) (w' : CredentialWorld),
      ∃ r, (if e.isException then pure () else throw e : CredentialProc Unit).run w' = (r, w') := by
    intro e w'
    split
    · exact ⟨_, rfl⟩
    · exact ⟨_, rfl⟩
  rw [Program.run_tryCatch, Program.run_bind]
  rcases hdelete : (storeCall faults.deleteSecret (SecureStore.deleteSecret credentialId)).run w with
    ⟨r, w₁⟩
  rcases storeCall_modify hdelete with ⟨-, rfl, rfl⟩ | ⟨⟨hbefore, rfl⟩ | ⟨hafter, rfl⟩, e, rfl⟩
  · exact ⟨_, _, rfl, .inl rfl⟩
  · obtain ⟨r, hr⟩ := hcaught e w₁
    exact ⟨r, w₁, hr, .inr ⟨not_none_of_raisesBefore hbefore, .refl w₁⟩⟩
  · obtain ⟨r, hr⟩ := hcaught e { w with secrets := w.secrets.filter (·.1 ≠ credentialId) }
    exact ⟨r, _, hr, .inr ⟨not_none_of_raisesAfter hafter, rfl, freshPattern_deleteSecret hgone⟩⟩

/-- INTERNAL: `revoke`.
SOURCE: credentials/service.py:85-92 -/
theorem kept_revoke (credentialId : String) :
    KeepsMask (LeavesMask w (.revoke credentialId, faults)) w
      ((service.revoke faults credentialId).run w).2 := by
  unfold CredentialService.revoke
  rw [Program.run_bind]
  have hgone : ∀ row ∈ (deleted w credentialId).credentials, row.id ≠ credentialId := by
    intro row hrow
    simpa using (List.mem_filter.mp hrow).2
  rcases hdelete : (storeCall faults.deleteMetadata (VaultRepository.deleteMetadata credentialId)).run w
    with ⟨r, w₁⟩
  rcases storeCall_modify hdelete with ⟨hfault, rfl, rfl⟩ | ⟨⟨-, rfl⟩ | ⟨hafter, rfl⟩, e, rfl⟩
  · dsimp only
    rw [Program.run_bind]
    obtain ⟨r, w₂, hrun, hpattern⟩ := revoke_secret faults (deleted w credentialId) hgone
    have hkeeps : ∀ w₃, SameMask w₂ w₃ → KeepsMask (LeavesMask w (.revoke credentialId, faults)) w w₃ := by
      intro w₃ hpublish
      rcases hpattern with hdropped | ⟨hraises, hsame⟩
      · exact .inl (hpublish.pattern.trans hdropped)
      · refine .inr ⟨(hsame.trans hpublish).pattern, ?_⟩
        rintro (⟨-, hnone⟩ | ⟨e, hbefore⟩ | hleaves)
        · exact absurd hnone hraises
        · exact absurd (hfault.symm.trans hbefore) (by simp)
        · exact (hsame.trans hpublish).fresh.trans (freshPattern_delete_of_none hleaves)
    unfold deleted at hrun
    rw [hrun]
    -- the event is published when nothing was raised but a failure that was passed over
    cases r with
    | ok _ => exact hkeeps _ (sameMask_publish service (.revoked credentialId) w₂)
    | error e => exact hkeeps _ (.refl w₂)
  · exact .inr ⟨rfl, fun _ => rfl⟩
  · refine .inr ⟨rfl, ?_⟩
    rintro (⟨hnone, -⟩ | hbefore | hleaves)
    · exact absurd hnone (not_none_of_raisesAfter hafter)
    · exact absurd hbefore (not_raisesBefore_of_raisesAfter hafter)
    · exact freshPattern_delete_of_none hleaves

end Operations

/-! ## Runs -/

/-- Whatever the text, it is masked as it would be if nothing were cached. -/
def Coherent (w : CredentialWorld) : Prop :=
  ∀ text, ((CredentialService.redact {} text).run w).1 =
    ((CredentialService.redact {} text).run { w with pattern := none }).1

/-- The cache is coherent when its pattern masks each text as a fresh one would. -/
theorem coherent_iff (w : CredentialWorld) :
    Coherent w ↔ ∀ pattern, w.pattern = some pattern →
      ∀ text, substitute pattern text = substitute (freshPattern w) text := by
  have hfresh : freshPattern { w with pattern := none } = freshPattern w := rfl
  unfold Coherent
  simp only [redact_run, hfresh, Option.getD_none, Except.ok.injEq]
  cases w.pattern with
  | none => simp
  | some pattern => simp

/-- No pattern is cached, or the call leaves alone what is masked or comes to dropping the pattern. -/
def Harmless (w : CredentialWorld) (call : CredentialCall × StoreFaults) : Prop :=
  w.pattern = none ∨ LeavesMask w call

/-- INTERNAL: what a call does to a good cache. -/
theorem coherent_of_kept {w w' : CredentialWorld} {leaves : Prop} (hkept : KeepsMask leaves w w')
    (hharmless : w.pattern = none ∨ leaves) (h : Coherent w) : Coherent w' := by
  rw [coherent_iff] at h ⊢
  intro pattern hpattern
  rcases hkept with hnone | ⟨hsame, hfresh⟩
  · rw [hnone] at hpattern
    cases hpattern
  · rw [hsame] at hpattern
    rcases hharmless with hnone | hleaves
    · rw [hnone] at hpattern
      cases hpattern
    · rw [hfresh hleaves]
      exact h pattern hpattern

/-- A harmless call keeps the cache good. -/
theorem coherent_run (service : CredentialService) {w : CredentialWorld}
    {call : CredentialCall × StoreFaults} (hharmless : Harmless w call) (h : Coherent w) :
    Coherent (CredentialCall.run service w call) := by
  obtain ⟨call, faults⟩ := call
  cases call with
  | create credentialId now profileId name description allowedTools secret =>
    exact coherent_of_kept (kept_create service faults w ..) hharmless h
  | rotate now credentialId newSecret =>
    exact coherent_of_kept (kept_rotate service faults w ..) hharmless h
  | revoke credentialId => exact coherent_of_kept (kept_revoke service faults w _) hharmless h
  | updateScopes now credentialId allowedTools =>
    exact coherent_of_kept (kept_updateScopes faults w ..) (.inr trivial) h
  | redact text =>
    rw [coherent_iff] at h ⊢
    intro pattern hpattern
    have hrun : CredentialCall.run service w (.redact text, faults) =
        ((CredentialService.redact faults text).run w).2 := rfl
    rw [hrun] at hpattern ⊢
    rcases redact_state faults w text with hstate | hstate
    · rw [hstate] at hpattern ⊢
      exact h pattern hpattern
    · rw [hstate] at hpattern ⊢
      obtain rfl := Option.some.inj hpattern
      show ∀ text, substitute _ text = substitute (freshPattern w) text
      cases hcached : w.pattern with
      | none => exact fun _ => rfl
      | some cached => exact h cached hcached

/-- The state after a sequence of calls. -/
def stateAfter (service : CredentialService) (w : CredentialWorld)
    (calls : List (CredentialCall × StoreFaults)) : CredentialWorld :=
  calls.foldl (CredentialCall.run service) w

/-- If each call of a sequence is harmless in the state it is made in, the cached pattern is as good as
a fresh one in every state of the run.
SOURCE: credentials/service.py:28-109 -/
theorem cache_coherent (service : CredentialService) (w : CredentialWorld) (hstart : w.pattern = none)
    (calls : List (CredentialCall × StoreFaults))
    (hharmless : ∀ before call, before ++ [call] <+: calls →
      Harmless (stateAfter service w before) call) :
    ∀ before, before <+: calls → Coherent (stateAfter service w before) := by
  intro before
  induction before using List.reverseRecOn with
  | nil =>
    intro _
    rw [coherent_iff]
    intro pattern hpattern
    exact absurd (hstart.symm.trans hpattern) (by simp)
  | append_singleton before call ih =>
    intro hbegins
    have hcall := hharmless before call hbegins
    have hbefore := ih ((List.prefix_append _ _).trans hbegins)
    have hstep := coherent_run service hcall hbefore
    unfold stateAfter at hstep ⊢
    rw [List.foldl_append]
    exact hstep

/-- A credential is stored, a text redacted, and the credential revoked. -/
def tokenCalls (deleteSecret : Fault) : List (CredentialCall × StoreFaults) :=
  [(.create "credential" 0 "system" "token" none [] "my-token", {}), (.redact "my-token", {}),
    (.revoke "credential", { deleteSecret := deleteSecret })]

/-- With both stores at work, the cache is good at the end. -/
theorem token_calls_coherent : Coherent (stateAfter {} {} (tokenCalls .none)) := by
  refine cache_coherent {} {} rfl (tokenCalls .none) ?_ _ List.prefix_rfl
  intro before call hbegins
  have hmem : call ∈ tokenCalls .none := hbegins.subset (List.mem_append_right _ (List.mem_singleton_self _))
  rcases List.mem_cons.mp hmem with rfl | hmem
  · exact .inr (.inl ⟨rfl, rfl⟩)
  · rcases List.mem_cons.mp hmem with rfl | hmem
    · exact .inr trivial
    · obtain rfl := List.mem_singleton.mp hmem
      exact .inr (.inl ⟨rfl, rfl⟩)

/-- The secret store is locked when the credential is revoked: the revocation goes through, and the
pattern that is kept masks what a fresh one does not. -/
theorem revoked_token_masked :
    let w := stateAfter {} {} (tokenCalls (.before (.other "KeyringLocked" "locked")))
    w.credentials = [] ∧ freshPattern w = [] ∧
      ((CredentialService.redact {} "my-token").run w).1 = .ok "[REDACTED_CREDENTIAL]" ∧
      ((CredentialService.redact {} "my-token").run { w with pattern := none }).1 = .ok "my-token" ∧
      ¬ Coherent w := by
  refine ⟨rfl, rfl, ?_, ?_, ?_⟩
  · rw [redact_run]
    exact congrArg Except.ok (by decide)
  · rw [redact_run]
    exact congrArg Except.ok (by decide)
  · rw [coherent_iff]
    intro h
    exact absurd (h ["my-token"] rfl "my-token") (by decide)

end Shea.Analysis
