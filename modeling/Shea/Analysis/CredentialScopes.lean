import Shea.Model.CredentialBroker
import Shea.Analysis.RedactionCache
import Shea.Analysis.ToolCalls

/-!
# Who gets a secret

The broker hands a secret out if its credential is in the vault, belongs to the profile that asks or to the
system, and one of its patterns takes the tool. The service changes the vault and the secure store call by
call, and each call of a store may raise, before or after it had its effect.

What a call does to one credential is said by one lemma for each call: the row and the secret are as
before, or as the call wants them. So a credential that is gone from the vault stays away until it is
created again, whatever is raised in between.
-/

set_option autoImplicit false

namespace Shea.Analysis

open Shea.Computation Shea.Model

/-! ## What the broker asks for -/

/-- The row of a credential. -/
def credentialRow (w : CredentialWorld) (credentialId : String) : Option CredentialMetadata :=
  Table.lookup CredentialMetadata.id w.credentials credentialId

/-- The stored secret of a credential. -/
def secretOf (w : CredentialWorld) (credentialId : String) : Option String :=
  w.secrets.lookup credentialId

/-- The credential may be used by the tool for the profile, and has this secret. -/
structure Entitled (w : CredentialWorld) (credentialId tool profileId secret : String) : Prop where
  row : ∃ metadata, credentialRow w credentialId = some metadata ∧
    (metadata.profileId = profileId ∨ metadata.profileId = "system") ∧
    SheaCredentialBroker.isToolAllowed tool metadata.allowedTools = true
  secret : secretOf w credentialId = some secret

section Resolving

variable {w t : CredentialWorld} {faults : StoreFaults} {reference : CredentialReference}
  {tool profileId secret : String}

/-- INTERNAL: a store that answers gives what it has. -/
theorem storeCall_get_ok {α : Type} {fault : Fault} {view : CredentialWorld → α} {a : α}
    (h : (storeCall fault (Program.get view)).run w = (.ok a, t)) : a = view w ∧ t = w := by
  rcases storeCall_get fault view w with hrun | ⟨-, e, hrun⟩
  · obtain ⟨ha, rfl⟩ := Prod.mk.inj (h.symm.trans hrun)
    exact ⟨Except.ok.inj ha, rfl⟩
  · cases (h.symm.trans hrun)

/-- Access is given on a matching profile and an allowed tool, and on nothing less. -/
theorem checkAccess_ok_iff {metadata : CredentialMetadata} :
    SheaCredentialBroker.checkAccess metadata tool profileId = .ok () ↔
      (metadata.profileId = profileId ∨ metadata.profileId = "system") ∧
        SheaCredentialBroker.isToolAllowed tool metadata.allowedTools = true := by
  unfold SheaCredentialBroker.checkAccess
  by_cases howner : metadata.profileId = profileId ∨ metadata.profileId = "system"
  · rw [if_neg (by tauto)]
    cases SheaCredentialBroker.isToolAllowed tool metadata.allowedTools <;> simp [howner]
  · rw [if_pos (by tauto)]
    simp [howner]

/-- The broker hands out a secret to those who are entitled to it, and to no one else.
SOURCE: credentials/broker.py:23-60 -/
theorem entitled_of_resolve
    (h : (SheaCredentialBroker.resolve faults reference tool profileId).run w = (.ok secret, t)) :
    Entitled w reference.id tool profileId secret := by
  obtain ⟨found, u, hfound, h⟩ := Program.run_bind_ok h
  obtain ⟨hrow, rfl⟩ := storeCall_get_ok hfound
  cases found with
  | none => cases h
  | some metadata =>
    obtain ⟨_, v, hchecked, h⟩ := Program.run_bind_ok h
    rw [Program.run_ofExcept] at hchecked
    obtain ⟨hok, rfl⟩ := Prod.mk.inj hchecked
    obtain ⟨value, v, hvalue, h⟩ := Program.run_bind_ok h
    obtain ⟨hsecret, rfl⟩ := storeCall_get_ok hvalue
    cases value with
    | none => cases h
    | some value =>
      obtain rfl := Except.ok.inj (congrArg Prod.fst h)
      exact ⟨⟨metadata, hrow.symm, checkAccess_ok_iff.mp hok⟩, hsecret.symm⟩

/-- INTERNAL: as long as neither store raises, they get it. -/
theorem resolve_of_entitled (h : Entitled w reference.id tool profileId secret) :
    (SheaCredentialBroker.resolve {} reference tool profileId).run w = (.ok secret, w) := by
  obtain ⟨⟨metadata, hrow, haccess⟩, hsecret⟩ := h
  have hmetadata : (VaultRepository.getMetadata reference.id).run w = (.ok (some metadata), w) :=
    congrArg (fun row => ((.ok row : Except Err (Option CredentialMetadata)), w)) hrow
  have hvalue : (SecureStore.getSecret reference.id).run w = (.ok (some secret), w) :=
    congrArg (fun value => ((.ok value : Except Err (Option String)), w)) hsecret
  unfold SheaCredentialBroker.resolve
  rw [Program.run_bind, show storeCall (StoreFaults.getMetadata {}) (VaultRepository.getMetadata
    reference.id) = VaultRepository.getMetadata reference.id from rfl, hmetadata]
  dsimp only
  rw [Program.run_bind, Program.run_ofExcept, checkAccess_ok_iff.mpr haccess]
  dsimp only
  rw [Program.run_bind, show storeCall (StoreFaults.getSecret {} reference.id) (SecureStore.getSecret
    reference.id) = SecureStore.getSecret reference.id from rfl, hvalue]
  rfl

end Resolving

/-- What becomes of one argument: of a reference the secret of a credential that tool and profile may use,
of anything else itself. -/
def Confined (py : Stdlib) (w : CredentialWorld) (tool profileId : String)
    (given delivered : String × Value) : Prop :=
  delivered.1 = given.1 ∧
    match credentialRef py given.2 with
    | none => delivered.2 = given.2
    | some ref => ∃ secret, Entitled w ref.id tool profileId secret ∧ delivered.2 = .str secret

/-- With this broker, arguments get the secrets of such credentials only.
SOURCE: credentials/injection.py:15-44, credentials/broker.py:23-60 -/
theorem confined_of_resolved {py : Stdlib} {stores : ℕ → CredentialWorld × StoreFaults} {instant : ℕ}
    {tool profileId : String} {arguments delivered : Dict}
    (h : resolveArgumentCredentials py (SheaCredentialBroker.onStores stores) tool profileId instant
      arguments = .ok delivered) :
    List.Forall₂ (Confined py (stores instant).1 tool profileId) arguments delivered := by
  refine (injected_of_resolved h).imp fun given value hinjected => ⟨hinjected.1, ?_⟩
  have hvalue := hinjected.2
  cases href : credentialRef py given.2 with
  | none =>
    rw [href] at hvalue
    exact hvalue
  | some ref =>
    rw [href] at hvalue
    obtain ⟨secret, hresolved, htext⟩ := hvalue
    exact ⟨secret, entitled_of_resolve (Prod.ext hresolved rfl), htext⟩

/-! ## What the calls of the service do -/

/-- The owner and the patterns of a credential. -/
def accessOf (w : CredentialWorld) (credentialId : String) : Option (String × List String) :=
  (credentialRow w credentialId).map fun metadata => (metadata.profileId, metadata.allowedTools)

/-- What a call wants the owner and the patterns of a credential to be. -/
def wantedAccess (credentialId : String) (access : Option (String × List String)) :
    CredentialCall → Option (String × List String)
  | .create created _ profileId _ _ allowedTools _ =>
    if created = credentialId then some (profileId, allowedTools) else access
  | .revoke revoked => if revoked = credentialId then none else access
  | .updateScopes _ updated allowedTools =>
    if updated = credentialId then access.map fun before => (before.1, allowedTools) else access
  | .rotate _ _ _ | .redact _ => access

/-- What a call wants the secret of a credential to be. -/
def wantedSecret (credentialId : String) (secret : Option String) : CredentialCall → Option String
  | .create created _ _ _ _ _ chosen => if created = credentialId then some chosen else secret
  | .rotate _ rotated chosen =>
    if rotated = credentialId then some chosen else secret
  | .revoke revoked => if revoked = credentialId then none else secret
  | .updateScopes _ _ _ | .redact _ => secret

section Stores

variable {w : CredentialWorld} {metadata : CredentialMetadata} {id other secret : String}

/-- INTERNAL: a row that is saved has the owner and the patterns that are wanted. -/
theorem accessOf_saved : accessOf (saved w metadata) other =
    if metadata.id = other then some (metadata.profileId, metadata.allowedTools)
    else accessOf w other := by
  let renewed : CredentialMetadata → CredentialMetadata → CredentialMetadata :=
    fun old new => { VaultRepository.updated old new with id := old.id }
  have hkeeps : Table.KeepsKey CredentialMetadata.id renewed := fun _ _ => rfl
  have hsaved : (saved w metadata).credentials =
      Table.upsert CredentialMetadata.id renewed metadata w.credentials := by
    refine Table.upsert_congr (fun old hid => ?_) w.credentials
    show VaultRepository.updated old metadata = { VaultRepository.updated old metadata with id := old.id }
    rw [hid]
    rfl
  unfold accessOf credentialRow
  rw [hsaved]
  split
  · next h =>
    subst h
    rw [Table.lookup_upsert_self hkeeps]
    cases Table.lookup CredentialMetadata.id w.credentials metadata.id <;> rfl
  · next h => rw [Table.lookup_upsert_of_ne hkeeps _ h]

/-- INTERNAL: a deletion takes one row of metadata away. -/
theorem accessOf_deleted : accessOf (deleted w id) other =
    if id = other then none else accessOf w other := by
  unfold accessOf credentialRow deleted
  dsimp only
  rw [Table.lookup_delete]
  split <;> rfl

/-- INTERNAL: storing a secret sets one entry of the store. -/
theorem secretOf_stored : secretOf (stored w id secret) other =
    if id = other then some secret else secretOf w other := by
  unfold secretOf stored
  dsimp only
  rw [List.lookup_cons]
  by_cases h : other = id
  · simp [h]
  · rw [beq_false_of_ne h, if_neg (Ne.symm h), lookup_filter_ne w.secrets h]

/-- INTERNAL: forgetting one removes that entry. -/
theorem secretOf_forgotten : secretOf (forgotten w id) other =
    if id = other then none else secretOf w other := by
  unfold secretOf forgotten
  dsimp only
  by_cases h : id = other
  · rw [if_pos h, List.lookup_eq_none_iff]
    intro entry hentry
    have hne := of_decide_eq_true (List.mem_filter.mp hentry).2
    simpa [h] using Ne.symm hne
  · rw [if_neg h, lookup_filter_ne w.secrets (Ne.symm h)]

/-- INTERNAL: the access read depends on the credentials alone. -/
theorem accessOf_congr {w' : CredentialWorld} (h : w'.credentials = w.credentials) :
    accessOf w' other = accessOf w other := by
  unfold accessOf credentialRow
  rw [h]

/-- INTERNAL: the secret read depends on the secrets alone. -/
theorem secretOf_congr {w' : CredentialWorld} (h : w'.secrets = w.secrets) :
    secretOf w' other = secretOf w other := by
  unfold secretOf
  rw [h]

end Stores

/-- The step from `w` to `t` obeys the call: for every credential the access and the secret are as they were,
or what the call wants them to be. -/
structure Obeys (call : CredentialCall) (w t : CredentialWorld) : Prop where
  access : ∀ credentialId, accessOf t credentialId = accessOf w credentialId ∨
    accessOf t credentialId = wantedAccess credentialId (accessOf w credentialId) call
  secret : ∀ credentialId, secretOf t credentialId = secretOf w credentialId ∨
    secretOf t credentialId = wantedSecret credentialId (secretOf w credentialId) call

section Operations

variable {service : CredentialService} {faults : StoreFaults} {w t : CredentialWorld}

/-- INTERNAL: publishing an event touches neither store. -/
theorem run_publish (event : CredentialEvent) (w : CredentialWorld) :
    ∃ published, (service.publish event).run w = (.ok (), { w with published := published }) := by
  unfold CredentialService.publish
  split
  · exact ⟨_, rfl⟩
  · exact ⟨w.published, rfl⟩

/-- INTERNAL: dropping the pattern and publishing an event touch neither store. -/
theorem run_announce (event : CredentialEvent) (w : CredentialWorld) :
    ∃ published, (do
      CredentialService.invalidateRedactionCache
      service.publish event : CredentialProc Unit).run w =
        (.ok (), { w with pattern := none, published := published }) := by
  obtain ⟨published, hrun⟩ := @run_publish service event { w with pattern := none }
  refine ⟨published, ?_⟩
  rw [Program.run_bind]
  exact hrun

/-- INTERNAL: `create`. If it returns, both stores have what it wants.
SOURCE: credentials/service.py:56-72 -/
theorem obeys_create {credentialId profileId name secret : String} {now : Time}
    {description : Option String} {allowedTools : List String} {r : Except Err CredentialMetadata}
    (h : (service.create faults credentialId now profileId name description allowedTools secret).run w =
      (r, t)) :
    Obeys (.create credentialId now profileId name description allowedTools secret) w t ∧
      (r.isOk = true → accessOf t credentialId = some (profileId, allowedTools) ∧
        secretOf t credentialId = some secret) := by
  let metadata : CredentialMetadata :=
    { id := credentialId
      profileId := profileId
      name := name
      description := description
      allowedTools := allowedTools
      createdAt := now }
  have haccess : ∀ {v : CredentialWorld}, v.credentials = (saved w metadata).credentials → ∀ other,
      accessOf v other = if credentialId = other then some (profileId, allowedTools)
        else accessOf w other := fun hv other => (accessOf_congr hv).trans accessOf_saved
  unfold CredentialService.create at h
  dsimp only at h
  rw [Program.run_bind] at h
  rcases hsave : (storeCall faults.saveMetadata (VaultRepository.saveMetadata metadata)).run w with ⟨s, v⟩
  rw [hsave] at h
  rcases storeCall_save hsave with ⟨-, rfl, rfl⟩ | ⟨hv, e, rfl⟩
  swap
  · obtain ⟨rfl, rfl⟩ := Prod.mk.inj h
    refine ⟨⟨fun other => ?_, fun other => .inl ?_⟩, fun hok => by cases hok⟩
    · rcases hv with rfl | ⟨-, rfl⟩
      · exact .inl rfl
      · exact .inr (haccess rfl other)
    · rcases hv with rfl | ⟨-, rfl⟩ <;> rfl
  dsimp only at h
  rw [Program.run_bind] at h
  rcases hset : (storeCall faults.setSecret (SecureStore.setSecret credentialId secret)).run
    (saved w metadata) with ⟨s, v⟩
  rw [hset] at h
  rcases storeCall_modify hset with ⟨-, rfl, rfl⟩ | ⟨hv, e, rfl⟩
  swap
  · obtain ⟨rfl, rfl⟩ := Prod.mk.inj h
    refine ⟨⟨fun other => .inr (haccess ?_ other), fun other => ?_⟩, fun hok => by cases hok⟩
    · rcases hv with ⟨-, rfl⟩ | ⟨-, rfl⟩ <;> rfl
    · rcases hv with ⟨-, rfl⟩ | ⟨-, rfl⟩
      · exact .inl rfl
      · exact .inr secretOf_stored
  dsimp only at h
  rw [← bind_assoc, Program.run_bind] at h
  obtain ⟨published, hannounce⟩ := @run_announce service
    (.created credentialId profileId) (stored (saved w metadata) credentialId secret)
  unfold stored at hannounce
  rw [hannounce] at h
  obtain ⟨-, rfl⟩ := Prod.mk.inj h
  refine ⟨⟨fun other => .inr (haccess rfl other), fun other => .inr secretOf_stored⟩, fun _ => ⟨?_, ?_⟩⟩
  · exact (haccess rfl credentialId).trans (if_pos rfl)
  · exact secretOf_stored.trans (if_pos rfl)

/-- INTERNAL: a row that is saved as it was read, with new patterns or not. -/
theorem accessOf_saved_again {credentialId : String} {metadata new : CredentialMetadata}
    (hrow : Table.lookup CredentialMetadata.id w.credentials credentialId = some metadata)
    (hid : new.id = metadata.id) (howner : new.profileId = metadata.profileId) (other : String) :
    accessOf (saved w new) other = if credentialId = other
      then (accessOf w other).map fun before => (before.1, new.allowedTools) else accessOf w other := by
  have hkey : new.id = credentialId := hid.trans (Table.lookup_eq_some_key hrow)
  rw [accessOf_saved, hkey]
  split
  · next h =>
    subst h
    unfold accessOf credentialRow
    rw [hrow, howner]
    rfl
  · rfl

/-- INTERNAL: `rotate`. If it returns, the new secret is stored.
SOURCE: credentials/service.py:74-83 -/
theorem obeys_rotate {credentialId newSecret : String} {now : Time} {r : Except Err Unit}
    (h : (service.rotate faults now credentialId newSecret).run w = (r, t)) :
    Obeys (.rotate now credentialId newSecret) w t ∧
      (r.isOk = true → secretOf t credentialId = some newSecret) := by
  unfold CredentialService.rotate at h
  rw [Program.run_bind] at h
  rcases existing_run faults w credentialId with ⟨metadata, -, hrow, hread⟩ | ⟨e, hread⟩
  swap
  · rw [hread] at h
    obtain ⟨rfl, rfl⟩ := Prod.mk.inj h
    exact ⟨⟨fun _ => .inl rfl, fun _ => .inl rfl⟩, fun hok => by cases hok⟩
  rw [hread] at h
  dsimp only at h
  rw [Program.run_bind] at h
  let renewed : CredentialMetadata := { metadata with updatedAt := some now }
  -- the row keeps its owner and its patterns
  have haccess : ∀ {v : CredentialWorld}, v.credentials = (saved w renewed).credentials → ∀ other,
      accessOf v other = accessOf w other := by
    intro v hv other
    have hid : renewed.id = metadata.id := rfl
    refine (accessOf_congr hv).trans ((accessOf_saved_again hrow hid rfl other).trans ?_)
    split
    · next heq =>
      subst heq
      unfold accessOf credentialRow
      rw [hrow]
      rfl
    · rfl
  rcases hsave : (storeCall faults.saveMetadata (VaultRepository.saveMetadata renewed)).run w with ⟨s, v⟩
  rw [hsave] at h
  rcases storeCall_save hsave with ⟨-, rfl, rfl⟩ | ⟨hv, e, rfl⟩
  swap
  · obtain ⟨rfl, rfl⟩ := Prod.mk.inj h
    refine ⟨⟨fun other => .inl ?_, fun other => .inl ?_⟩, fun hok => by cases hok⟩
    · rcases hv with rfl | ⟨-, rfl⟩
      · rfl
      · exact haccess rfl other
    · rcases hv with rfl | ⟨-, rfl⟩ <;> rfl
  dsimp only at h
  rw [Program.run_bind] at h
  rcases hset : (storeCall faults.setSecret (SecureStore.setSecret credentialId newSecret)).run
    (saved w renewed) with ⟨s, v⟩
  rw [hset] at h
  rcases storeCall_modify hset with ⟨-, rfl, rfl⟩ | ⟨hv, e, rfl⟩
  swap
  · obtain ⟨rfl, rfl⟩ := Prod.mk.inj h
    refine ⟨⟨fun other => .inl (haccess ?_ other), fun other => ?_⟩, fun hok => by cases hok⟩
    · rcases hv with ⟨-, rfl⟩ | ⟨-, rfl⟩ <;> rfl
    · rcases hv with ⟨-, rfl⟩ | ⟨-, rfl⟩
      · exact .inl rfl
      · exact .inr secretOf_stored
  obtain ⟨published, hannounce⟩ := @run_announce service (.rotated credentialId)
    (stored (saved w renewed) credentialId newSecret)
  unfold stored at hannounce
  obtain ⟨-, rfl⟩ := Prod.mk.inj (hannounce.symm.trans h)
  refine ⟨⟨fun other => .inl (haccess rfl other), fun other => .inr secretOf_stored⟩, fun _ => ?_⟩
  exact secretOf_stored.trans (if_pos rfl)

/-- INTERNAL: `update_scopes`. If it returns, the patterns are the new ones.
SOURCE: credentials/service.py:94-99 -/
theorem obeys_updateScopes {credentialId : String} {now : Time} {allowedTools : List String}
    {r : Except Err Unit}
    (h : (CredentialService.updateScopes faults now credentialId allowedTools).run w = (r, t)) :
    Obeys (.updateScopes now credentialId allowedTools) w t ∧
      (r.isOk = true → ∃ owner, accessOf t credentialId = some (owner, allowedTools)) := by
  unfold CredentialService.updateScopes at h
  rw [Program.run_bind] at h
  rcases existing_run faults w credentialId with ⟨metadata, -, hrow, hread⟩ | ⟨e, hread⟩
  swap
  · rw [hread] at h
    obtain ⟨rfl, rfl⟩ := Prod.mk.inj h
    exact ⟨⟨fun _ => .inl rfl, fun _ => .inl rfl⟩, fun hok => by cases hok⟩
  rw [hread] at h
  dsimp only at h
  let rescoped : CredentialMetadata :=
    { metadata with allowedTools := allowedTools, updatedAt := some now }
  have hid : rescoped.id = metadata.id := rfl
  have haccess : ∀ other, accessOf (saved w rescoped) other = if credentialId = other
      then (accessOf w other).map fun before => (before.1, allowedTools) else accessOf w other :=
    accessOf_saved_again hrow hid rfl
  rcases storeCall_save h with ⟨-, rfl, rfl⟩ | ⟨hv, e, rfl⟩
  · refine ⟨⟨fun other => .inr (haccess other), fun _ => .inl rfl⟩, fun _ => ⟨metadata.profileId, ?_⟩⟩
    rw [haccess, if_pos rfl]
    unfold accessOf credentialRow
    rw [hrow]
    rfl
  · refine ⟨⟨fun other => ?_, fun other => .inl ?_⟩, fun hok => by cases hok⟩
    · rcases hv with rfl | ⟨-, rfl⟩
      · exact .inl rfl
      · exact .inr (haccess other)
    · rcases hv with rfl | ⟨-, rfl⟩ <;> rfl

/-- INTERNAL: the part of `revoke` that nobody hears of: the secret is deleted, or it stays.
SOURCE: credentials/service.py:87-91 -/
theorem run_forget (faults : StoreFaults) (w : CredentialWorld) (credentialId : String) :
    ∃ r w', (try do
        storeCall faults.deleteSecret (SecureStore.deleteSecret credentialId)
        CredentialService.invalidateRedactionCache
      catch e => if e.isException then pure () else throw e : CredentialProc Unit).run w = (r, w') ∧
      w'.credentials = w.credentials ∧
      (w'.secrets = w.secrets ∨ w'.secrets = (forgotten w credentialId).secrets) := by
  have hcaught : ∀ (e : Err) (w' : CredentialWorld),
      ∃ r, (if e.isException then pure () else throw e : CredentialProc Unit).run w' = (r, w') := by
    intro e w'
    split
    · exact ⟨_, rfl⟩
    · exact ⟨_, rfl⟩
  rw [Program.run_tryCatch, Program.run_bind]
  rcases hdelete : (storeCall faults.deleteSecret (SecureStore.deleteSecret credentialId)).run w with
    ⟨r, w₁⟩
  rcases storeCall_modify hdelete with ⟨-, rfl, rfl⟩ | ⟨⟨-, rfl⟩ | ⟨-, rfl⟩, e, rfl⟩
  · exact ⟨_, _, rfl, rfl, .inr rfl⟩
  · obtain ⟨r, hr⟩ := hcaught e w₁
    exact ⟨r, w₁, hr, rfl, .inl rfl⟩
  · obtain ⟨r, hr⟩ := hcaught e { w with secrets := w.secrets.filter (·.1 ≠ credentialId) }
    exact ⟨r, _, hr, rfl, .inr rfl⟩

/-- INTERNAL: `revoke`. Once the vault has deleted the row, the credential is gone, whatever becomes of
the secret.
SOURCE: credentials/service.py:85-92 -/
theorem obeys_revoke {credentialId : String} {r : Except Err Unit}
    (h : (service.revoke faults credentialId).run w = (r, t)) :
    Obeys (.revoke credentialId) w t ∧
      (¬ RaisesBefore faults.deleteMetadata → accessOf t credentialId = none) := by
  unfold CredentialService.revoke at h
  rw [Program.run_bind] at h
  have haccess : ∀ {v : CredentialWorld}, v.credentials = (deleted w credentialId).credentials →
      ∀ other, accessOf v other = if credentialId = other then none else accessOf w other :=
    fun hv other => (accessOf_congr hv).trans accessOf_deleted
  rcases hdelete : (storeCall faults.deleteMetadata (VaultRepository.deleteMetadata credentialId)).run w
    with ⟨s, v⟩
  rw [hdelete] at h
  rcases storeCall_modify hdelete with ⟨-, rfl, rfl⟩ | ⟨⟨hbefore, rfl⟩ | ⟨-, rfl⟩, e, rfl⟩
  · dsimp only at h
    rw [Program.run_bind] at h
    obtain ⟨tried, v, htried, hcredentials, hsecrets⟩ :=
      run_forget faults (deleted w credentialId) credentialId
    unfold deleted at htried
    rw [htried] at h
    -- the event is published when nothing was raised but a failure that was passed over
    obtain ⟨published, rfl⟩ : ∃ published, t = { v with published := published } := by
      cases tried with
      | ok _ =>
        obtain ⟨published, hpublish⟩ := @run_publish service (.revoked credentialId) v
        exact ⟨_, (Prod.mk.inj (hpublish.symm.trans h)).2.symm⟩
      | error e => exact ⟨v.published, (Prod.mk.inj h).2.symm⟩
    refine ⟨⟨fun other => .inr (haccess hcredentials other), fun other => ?_⟩, fun _ => ?_⟩
    · rcases hsecrets with hsecrets | hsecrets
      · exact .inl (secretOf_congr hsecrets)
      · exact .inr ((secretOf_congr hsecrets).trans secretOf_forgotten)
    · exact (haccess hcredentials credentialId).trans (if_pos rfl)
  · obtain ⟨rfl, rfl⟩ := Prod.mk.inj h
    exact ⟨⟨fun _ => .inl rfl, fun _ => .inl rfl⟩, fun hnot => absurd hbefore hnot⟩
  · obtain ⟨rfl, rfl⟩ := Prod.mk.inj h
    refine ⟨⟨fun other => .inr (haccess rfl other), fun _ => .inl rfl⟩, fun _ => ?_⟩
    exact (haccess rfl credentialId).trans (if_pos rfl)

/-- INTERNAL: `redact` only reads.
SOURCE: credentials/service.py:101-109 -/
theorem obeys_redact (text : String) :
    Obeys (.redact text) w ((CredentialService.redact faults text).run w).2 := by
  rcases redact_state faults w text with h | h <;> rw [h] <;>
    exact ⟨fun _ => .inl rfl, fun _ => .inl rfl⟩

/-- INTERNAL: every call follows its wishes or leaves the stores alone. -/
theorem obeys_run (call : CredentialCall) :
    Obeys call w (CredentialCall.run service w (call, faults)) := by
  cases call with
  | create => exact (obeys_create Prod.mk.eta.symm).1
  | rotate => exact (obeys_rotate Prod.mk.eta.symm).1
  | revoke => exact (obeys_revoke Prod.mk.eta.symm).1
  | updateScopes => exact (obeys_updateScopes Prod.mk.eta.symm).1
  | redact text => exact obeys_redact text

/-- INTERNAL: what no later call wants otherwise stays true of the access. -/
theorem access_lasts {credentialId : String} {P : Option (String × List String) → Prop}
    {later : List (CredentialCall × StoreFaults)}
    (hkeep : ∀ call ∈ later, ∀ access, P access → P (wantedAccess credentialId access call.1))
    (hnow : P (accessOf w credentialId)) : P (accessOf (stateAfter service w later) credentialId) := by
  induction later generalizing w with
  | nil => exact hnow
  | cons call later ih =>
    refine ih (fun next hnext => hkeep next (List.mem_cons_of_mem _ hnext)) ?_
    have hobeys : Obeys call.1 w (CredentialCall.run service w call) := obeys_run call.1
    rcases hobeys.access credentialId with h | h
    · exact h.symm ▸ hnow
    · exact h.symm ▸ hkeep call (List.mem_cons_self ..) _ hnow

/-- INTERNAL: what no later call wants otherwise stays true of the secret. -/
theorem secret_lasts {credentialId : String} {P : Option String → Prop}
    {later : List (CredentialCall × StoreFaults)}
    (hkeep : ∀ call ∈ later, ∀ secret, P secret → P (wantedSecret credentialId secret call.1))
    (hnow : P (secretOf w credentialId)) : P (secretOf (stateAfter service w later) credentialId) := by
  induction later generalizing w with
  | nil => exact hnow
  | cons call later ih =>
    refine ih (fun next hnext => hkeep next (List.mem_cons_of_mem _ hnext)) ?_
    have hobeys : Obeys call.1 w (CredentialCall.run service w call) := obeys_run call.1
    rcases hobeys.secret credentialId with h | h
    · exact h.symm ▸ hnow
    · exact h.symm ▸ hkeep call (List.mem_cons_self ..) _ hnow

end Operations

/-! ## What lasts -/

/-- The broker can give out this secret. -/
def Dispenses (w : CredentialWorld) (credentialId tool profileId secret : String) : Prop :=
  ∃ faults reference t, reference.id = credentialId ∧
    (SheaCredentialBroker.resolve faults reference tool profileId).run w = (.ok secret, t)

/-- The call creates the credential. -/
def Creates (credentialId : String) : CredentialCall → Prop
  | .create created _ _ _ _ _ _ => created = credentialId
  | _ => False

/-- The call sets the patterns of the credential anew. -/
def Rescopes (credentialId : String) : CredentialCall → Prop
  | .updateScopes _ updated _ => updated = credentialId
  | _ => False

/-- The call sets the secret of the credential anew. -/
def Rotates (credentialId : String) : CredentialCall → Prop
  | .rotate _ rotated _ => rotated = credentialId
  | _ => False

section Lasting

variable {service : CredentialService} {w : CredentialWorld} {call : CredentialCall}
  {credentialId tool profileId secret : String}

/-- INTERNAL: what is given out is the stored secret, to those who have access. -/
theorem Dispenses.entitled (h : Dispenses w credentialId tool profileId secret) :
    (∃ owner patterns, accessOf w credentialId = some (owner, patterns) ∧
      (owner = profileId ∨ owner = "system") ∧
      SheaCredentialBroker.isToolAllowed tool patterns = true) ∧
    secretOf w credentialId = some secret := by
  obtain ⟨faults, reference, t, rfl, hrun⟩ := h
  obtain ⟨⟨metadata, hrow, howner, hallowed⟩, hsecret⟩ := entitled_of_resolve hrun
  refine ⟨⟨metadata.profileId, metadata.allowedTools, ?_, howner, hallowed⟩, hsecret⟩
  unfold accessOf
  rw [hrow]
  rfl

/-- INTERNAL: only a creation wants a credential that is not there. -/
theorem wantedAccess_none (h : ¬ Creates credentialId call) :
    wantedAccess credentialId none call = none := by
  cases call with
  | create => exact if_neg h
  | revoke => exact ite_self _
  | updateScopes => exact ite_self _
  | rotate | redact => rfl

/-- INTERNAL: only a creation wants another owner. -/
theorem wantedAccess_owner {owner : String} (h : ¬ Creates credentialId call)
    {access : Option (String × List String)} (howner : ∀ a ∈ access, a.1 = owner) :
    ∀ a ∈ wantedAccess credentialId access call, a.1 = owner := by
  cases call with
  | create =>
    intro a ha
    exact howner a ((congrArg (a ∈ ·) (if_neg h)).mp ha)
  | revoke revoked =>
    intro a ha
    change a ∈ (if revoked = credentialId then none else access) at ha
    split at ha
    · cases ha
    · exact howner a ha
  | updateScopes _ updated patterns =>
    intro a ha
    change a ∈ (if updated = credentialId then access.map fun before => (before.1, patterns) else access) at ha
    split at ha
    · obtain ⟨b, hb, rfl⟩ := Option.map_eq_some_iff.mp ha
      exact howner b hb
    · exact howner a ha
  | rotate | redact => exact howner

/-- INTERNAL: only a creation or an update wants other patterns. -/
theorem wantedAccess_patterns {patterns : List String} (h : ¬ Creates credentialId call)
    (h' : ¬ Rescopes credentialId call) {access : Option (String × List String)}
    (hpatterns : ∀ a ∈ access, a.2 = patterns) :
    ∀ a ∈ wantedAccess credentialId access call, a.2 = patterns := by
  cases call with
  | create =>
    intro a ha
    exact hpatterns a ((congrArg (a ∈ ·) (if_neg h)).mp ha)
  | revoke revoked =>
    intro a ha
    change a ∈ (if revoked = credentialId then none else access) at ha
    split at ha
    · cases ha
    · exact hpatterns a ha
  | updateScopes =>
    intro a ha
    exact hpatterns a ((congrArg (a ∈ ·) (if_neg h')).mp ha)
  | rotate | redact => exact hpatterns

/-- INTERNAL: only a creation or a rotation wants another secret. -/
theorem wantedSecret_secret {chosen : String} (h : ¬ Creates credentialId call)
    (h' : ¬ Rotates credentialId call) {stored : Option String} (hstored : ∀ a ∈ stored, a = chosen) :
    ∀ a ∈ wantedSecret credentialId stored call, a = chosen := by
  cases call with
  | create =>
    intro a ha
    exact hstored a ((congrArg (a ∈ ·) (if_neg h)).mp ha)
  | rotate =>
    intro a ha
    exact hstored a ((congrArg (a ∈ ·) (if_neg h')).mp ha)
  | revoke revoked =>
    intro a ha
    change a ∈ (if revoked = credentialId then none else stored) at ha
    split at ha
    · cases ha
    · exact hstored a ha
  | updateScopes | redact => exact hstored

section Settled

variable {faults : StoreFaults} {later : List (CredentialCall × StoreFaults)}
  (hlater : ∀ call ∈ later, ¬ Creates credentialId call.1)
include hlater

/-- INTERNAL: a credential that the vault has deleted is given to nobody. -/
theorem not_dispenses_revoked (hdeleted : ¬ RaisesBefore faults.deleteMetadata) :
    ¬ Dispenses (stateAfter service w ((.revoke credentialId, faults) :: later)) credentialId tool
      profileId secret := by
  intro hgiven
  let t := CredentialCall.run service w (.revoke credentialId, faults)
  have hnone : accessOf t credentialId = none := (obeys_revoke Prod.mk.eta.symm).2 hdeleted
  have hlasts : accessOf (stateAfter service t later) credentialId = none := by
    refine access_lasts (P := (· = none)) (fun call hcall access haccess => ?_) hnone
    rw [haccess]
    exact wantedAccess_none (hlater call hcall)
  obtain ⟨⟨owner, patterns, haccess, -⟩, -⟩ := hgiven.entitled
  cases haccess.symm.trans hlasts

/-- INTERNAL: patterns that were set are the ones that count. -/
theorem allowed_of_rescoped {now : Time} {patterns : List String}
    (hok : ((CredentialService.updateScopes faults now credentialId patterns).run w).1 = .ok ())
    (hscopes : ∀ call ∈ later, ¬ Rescopes credentialId call.1)
    (hgiven : Dispenses (stateAfter service w ((.updateScopes now credentialId patterns, faults) :: later))
      credentialId tool profileId secret) :
    SheaCredentialBroker.isToolAllowed tool patterns = true := by
  let t := CredentialCall.run service w (.updateScopes now credentialId patterns, faults)
  have hreturned : ((CredentialService.updateScopes faults now credentialId patterns).run w).1.isOk =
      true := by rw [hok]; rfl
  obtain ⟨owner, hnow⟩ := (obeys_updateScopes Prod.mk.eta.symm).2 hreturned
  have hlasts : ∀ a ∈ accessOf (stateAfter service t later) credentialId, a.2 = patterns := by
    refine access_lasts (P := fun access => ∀ a ∈ access, a.2 = patterns)
      (fun call hcall access => wantedAccess_patterns (hlater call hcall) (hscopes call hcall)) ?_
    intro a ha
    obtain rfl := Option.some.inj (hnow.symm.trans ha)
    rfl
  obtain ⟨⟨owner', patterns', haccess, -, hallowed⟩, -⟩ := hgiven.entitled
  obtain rfl := hlasts _ haccess
  exact hallowed

/-- INTERNAL: a secret that was rotated is the one that is given out. -/
theorem eq_of_rotated {now : Time} {chosen : String}
    (hok : ((service.rotate faults now credentialId chosen).run w).1 = .ok ())
    (hrotations : ∀ call ∈ later, ¬ Rotates credentialId call.1)
    (hgiven : Dispenses (stateAfter service w ((.rotate now credentialId chosen, faults) :: later))
      credentialId tool profileId secret) :
    secret = chosen := by
  let t := CredentialCall.run service w (.rotate now credentialId chosen, faults)
  have hreturned : ((service.rotate faults now credentialId chosen).run w).1.isOk = true := by
    rw [hok]; rfl
  have hnow := (obeys_rotate Prod.mk.eta.symm).2 hreturned
  have hlasts : ∀ a ∈ secretOf (stateAfter service t later) credentialId, a = chosen := by
    refine secret_lasts (P := fun stored => ∀ a ∈ stored, a = chosen)
      (fun call hcall stored => wantedSecret_secret (hlater call hcall) (hrotations call hcall)) ?_
    intro a ha
    exact (Option.some.inj (hnow.symm.trans ha)).symm
  obtain ⟨-, hsecret⟩ := hgiven.entitled
  exact hlasts secret hsecret

/-- INTERNAL: who created a credential is its owner. -/
theorem owner_of_created {now : Time} {owner name : String} {description : Option String}
    {patterns : List String} {chosen : String} {metadata : CredentialMetadata}
    (hok : ((service.create faults credentialId now owner name description patterns chosen).run w).1 =
      .ok metadata)
    (hgiven : Dispenses (stateAfter service w
      ((.create credentialId now owner name description patterns chosen, faults) :: later))
      credentialId tool profileId secret) :
    profileId = owner ∨ owner = "system" := by
  let t := CredentialCall.run service w
    (.create credentialId now owner name description patterns chosen, faults)
  have hreturned : ((service.create faults credentialId now owner name description patterns chosen).run
      w).1.isOk = true := by rw [hok]; rfl
  obtain ⟨hnow, -⟩ := (obeys_create Prod.mk.eta.symm).2 hreturned
  have hlasts : ∀ a ∈ accessOf (stateAfter service t later) credentialId, a.1 = owner := by
    refine access_lasts (P := fun access => ∀ a ∈ access, a.1 = owner)
      (fun call hcall access => wantedAccess_owner (hlater call hcall)) ?_
    intro a ha
    obtain rfl := Option.some.inj (hnow.symm.trans ha)
    rfl
  obtain ⟨⟨owner', patterns', haccess, howner, -⟩, -⟩ := hgiven.entitled
  obtain rfl := hlasts _ haccess
  exact howner.imp_left Eq.symm

end Settled

end Lasting

/-- Whatever is called later, and whatever the stores raise: a credential whose row the vault has deleted is
given to nobody, one whose patterns were set to tools of these patterns only, one that was rotated with the
new secret only, and one that was created to its owner only, as long as it is not created, and its patterns
or its secret are not set, anew.
SOURCE: credentials/service.py:56-99, credentials/broker.py:23-60 -/
theorem settled_access_lasts (service : CredentialService) (w : CredentialWorld) (credentialId : String)
    (faults : StoreFaults) (later : List (CredentialCall × StoreFaults))
    (hlater : ∀ call ∈ later, ¬ Creates credentialId call.1) (tool profileId secret : String) :
    (¬ RaisesBefore faults.deleteMetadata →
      ¬ Dispenses (stateAfter service w ((.revoke credentialId, faults) :: later)) credentialId tool
        profileId secret) ∧
    (∀ now patterns, ((CredentialService.updateScopes faults now credentialId patterns).run w).1 = .ok () →
      (∀ call ∈ later, ¬ Rescopes credentialId call.1) →
      Dispenses (stateAfter service w ((.updateScopes now credentialId patterns, faults) :: later))
        credentialId tool profileId secret →
      SheaCredentialBroker.isToolAllowed tool patterns = true) ∧
    (∀ now chosen, ((service.rotate faults now credentialId chosen).run w).1 = .ok () →
      (∀ call ∈ later, ¬ Rotates credentialId call.1) →
      Dispenses (stateAfter service w ((.rotate now credentialId chosen, faults) :: later))
        credentialId tool profileId secret →
      secret = chosen) ∧
    (∀ now owner name description patterns chosen metadata,
      ((service.create faults credentialId now owner name description patterns chosen).run w).1 =
        .ok metadata →
      Dispenses (stateAfter service w
        ((.create credentialId now owner name description patterns chosen, faults) :: later))
        credentialId tool profileId secret →
      profileId = owner ∨ owner = "system") :=
  ⟨not_dispenses_revoked hlater,
    fun _ _ hok hscopes hgiven => allowed_of_rescoped hlater hok hscopes hgiven,
    fun _ _ hok hrotations hgiven => eq_of_rotated hlater hok hrotations hgiven,
    fun _ _ _ _ _ _ _ hok hgiven => owner_of_created hlater hok hgiven⟩

/-- A token for the notes tools. -/
def notesToken : CredentialWorld :=
  stateAfter {} {} [(.create "credential" 0 "system" "token" none ["notes.*"] "my-token", {})]

/-- The token is revoked, but the secure store is locked; later it is rotated. -/
def revocation : List (CredentialCall × StoreFaults) :=
  [(.revoke "credential", { deleteSecret := .before (.other "KeyringLocked" "locked") }),
    (.rotate 1 "credential" "new-token", {})]

/-- A token whose secret stays behind is given to nobody once it is revoked. -/
theorem notes_token_withheld :
    Dispenses notesToken "credential" "notes.write" "alice" "my-token" ∧
      secretOf (stateAfter {} notesToken revocation) "credential" = some "my-token" ∧
      ¬ Dispenses (stateAfter {} notesToken revocation) "credential" "notes.write" "alice" "my-token" := by
  refine ⟨⟨{}, ⟨"credential", "token", none⟩, notesToken, rfl, ?_⟩, by decide, ?_⟩
  · exact resolve_of_entitled ⟨⟨_, rfl, .inr rfl, by decide⟩, by decide⟩
  · refine (settled_access_lasts {} notesToken "credential" _ [(.rotate 1 "credential" "new-token", {})]
      (fun call hcall => ?_) "notes.write" "alice" "my-token").1 ?_
    · obtain rfl := List.mem_singleton.mp hcall
      exact not_false
    · rintro ⟨e, he⟩
      cases he

end Shea.Analysis
