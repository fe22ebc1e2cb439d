import Mathlib.Data.List.Sort
import Shea.Computation.Masking
import Shea.Computation.Program
import Shea.Computation.Table
import Shea.Model.World

/-!
# Stored credentials

`credentials/service.py`, with `persistence/sqlite/vault_repository.py` for the metadata and a secure
store that keeps one secret for an id. Any call of either may raise, before or after it had its effect.

The pattern of the service is an alternation of escaped secrets, so it is kept as their list, in the
order of the alternatives; no secret stands for a pattern that matches nothing. Identifiers and the
time of a call come from the surroundings.
-/

set_option autoImplicit false

namespace Shea.Model

open Shea.Computation

/-- `CredentialMetadata`. -/
structure CredentialMetadata where
  id : String
  profileId : String
  name : String
  description : Option String
  allowedTools : List String
  createdAt : Time
  updatedAt : Option Time := none
  deriving DecidableEq, Repr

/-- What is published on the credential channel. -/
inductive CredentialEvent
  | created (credentialId profileId : String)
  | rotated (credentialId : String)
  | revoked (credentialId : String)
  deriving DecidableEq, Repr

/-- The rows of `credentials`, the secure store, `_redaction_pattern` and the published events. -/
structure CredentialWorld where
  credentials : List CredentialMetadata := []
  secrets : List (String × String) := []
  pattern : Option (List String) := none
  published : List CredentialEvent := []
  deriving DecidableEq, Repr

abbrev CredentialProc := Program CredentialWorld Err

/-! ## The two stores -/

namespace VaultRepository

/-- `ON CONFLICT(id) DO UPDATE`: all but the time of creation. -/
def updated (old new : CredentialMetadata) : CredentialMetadata := { new with createdAt := old.createdAt }

/-- `UNIQUE(profile_id, name)` is in the way. -/
def conflicts (metadata : CredentialMetadata) (rows : List CredentialMetadata) : Bool :=
  rows.any fun row =>
    row.id ≠ metadata.id && row.profileId = metadata.profileId && row.name = metadata.name

def saveMetadata (metadata : CredentialMetadata) : CredentialProc Unit := do
  let rows ← Program.get CredentialWorld.credentials
  if conflicts metadata rows then
    throw (.integrityError "UNIQUE constraint failed: credentials.profile_id, credentials.name")
  else
    Program.modify fun w =>
      { w with credentials := Table.upsert CredentialMetadata.id updated metadata w.credentials }

def getMetadata (credentialId : String) : CredentialProc (Option CredentialMetadata) :=
  Program.get fun w => Table.lookup CredentialMetadata.id w.credentials credentialId

/-- `ORDER BY name ASC`. -/
def byName (rows : List CredentialMetadata) : List CredentialMetadata :=
  rows.insertionSort fun a b => a.name ≤ b.name

def listMetadata : CredentialProc (List CredentialMetadata) :=
  Program.get fun w => byName w.credentials

def deleteMetadata (credentialId : String) : CredentialProc Unit :=
  Program.modify fun w => { w with credentials := w.credentials.filter (·.id ≠ credentialId) }

end VaultRepository

namespace SecureStore

def setSecret (credentialId secret : String) : CredentialProc Unit :=
  Program.modify fun w =>
    { w with secrets := (credentialId, secret) :: w.secrets.filter (·.1 ≠ credentialId) }

def getSecret (credentialId : String) : CredentialProc (Option String) :=
  Program.get fun w => w.secrets.lookup credentialId

def deleteSecret (credentialId : String) : CredentialProc Unit :=
  Program.modify fun w => { w with secrets := w.secrets.filter (·.1 ≠ credentialId) }

end SecureStore

/-- What becomes of a call of a store: it is carried out, or it raises before or after it had its
effect. -/
inductive Fault
  | none
  | before (e : Err)
  | after (e : Err)
  deriving DecidableEq, Repr

/-- A call of a store. -/
def storeCall {α : Type} (fault : Fault) (call : CredentialProc α) : CredentialProc α :=
  match fault with
  | .none => call
  | .before e => throw e
  | .after e => call >>= fun _ => throw e

/-- What becomes of the calls that one operation of the service makes. -/
structure StoreFaults where
  saveMetadata : Fault := .none
  getMetadata : Fault := .none
  listMetadata : Fault := .none
  deleteMetadata : Fault := .none
  setSecret : Fault := .none
  getSecret : String → Fault := fun _ => .none
  deleteSecret : Fault := .none

/-! ## The service -/

/-- The replacement of `CredentialService.redact`. -/
def redactedCredential : String := "[REDACTED_CREDENTIAL]"

/-- `pattern.sub("[REDACTED_CREDENTIAL]", text)`. -/
def substitute (pattern : List String) (text : String) : String :=
  String.ofList (mask (firstOf (pattern.map String.toList)) redactedCredential.toList 0 text.toList)

/-- `secret and len(secret) >= 8`. -/
def toBeMasked (secret : String) : Bool := 8 ≤ secret.length

structure CredentialService where
  hasChannel : Bool := true

namespace CredentialService

variable (service : CredentialService)

def publish (event : CredentialEvent) : CredentialProc Unit :=
  if service.hasChannel then Program.modify fun w => { w with published := w.published ++ [event] }
  else pure ()

/-- `_invalidate_redaction_cache`. -/
def invalidateRedactionCache : CredentialProc Unit :=
  Program.modify fun w => { w with pattern := none }

/-- The loop that collects the secrets. -/
def secretsToMask (faults : StoreFaults) : List CredentialMetadata → CredentialProc (List String)
  | [] => pure []
  | metadata :: rest => do
      let secret ← storeCall (faults.getSecret metadata.id) (SecureStore.getSecret metadata.id)
      let others ← secretsToMask faults rest
      pure ((secret.filter toBeMasked).toList ++ others)

/-- `_get_redaction_pattern`. -/
def getRedactionPattern (faults : StoreFaults) : CredentialProc (List String) := do
  match ← Program.get CredentialWorld.pattern with
  | some pattern => pure pattern
  | none => do
      let metas ← storeCall faults.listMetadata VaultRepository.listMetadata
      let secrets ← secretsToMask faults metas
      Program.modify fun w => { w with pattern := some secrets }
      pure secrets

def create (faults : StoreFaults) (credentialId : String) (now : Time) (profileId name : String)
    (description : Option String) (allowedTools : List String) (secret : String) :
    CredentialProc CredentialMetadata := do
  let metadata : CredentialMetadata :=
    { id := credentialId
      profileId := profileId
      name := name
      description := description
      allowedTools := allowedTools
      createdAt := now }
  storeCall faults.saveMetadata (VaultRepository.saveMetadata metadata)
  storeCall faults.setSecret (SecureStore.setSecret credentialId secret)
  invalidateRedactionCache
  service.publish (.created credentialId profileId)
  pure metadata

/-- The metadata of a credential, or a `ValueError`. -/
def existing (faults : StoreFaults) (credentialId : String) : CredentialProc CredentialMetadata := do
  match ← storeCall faults.getMetadata (VaultRepository.getMetadata credentialId) with
  | some metadata => pure metadata
  | none => throw (.valueError ("Credential " ++ credentialId ++ " not found"))

def rotate (faults : StoreFaults) (now : Time) (credentialId newSecret : String) :
    CredentialProc Unit := do
  let metadata ← existing faults credentialId
  storeCall faults.saveMetadata (VaultRepository.saveMetadata { metadata with updatedAt := some now })
  storeCall faults.setSecret (SecureStore.setSecret credentialId newSecret)
  invalidateRedactionCache
  service.publish (.rotated credentialId)

def revoke (faults : StoreFaults) (credentialId : String) : CredentialProc Unit := do
  storeCall faults.deleteMetadata (VaultRepository.deleteMetadata credentialId)
  try do
    storeCall faults.deleteSecret (SecureStore.deleteSecret credentialId)
    invalidateRedactionCache
  catch e => if e.isException then pure () else throw e
  service.publish (.revoked credentialId)

def updateScopes (faults : StoreFaults) (now : Time) (credentialId : String)
    (allowedTools : List String) : CredentialProc Unit := do
  let metadata ← existing faults credentialId
  storeCall faults.saveMetadata
    (VaultRepository.saveMetadata { metadata with allowedTools := allowedTools, updatedAt := some now })

def redact (faults : StoreFaults) (text : String) : CredentialProc String := do
  if text = "" then pure text
  else do
    let pattern ← getRedactionPattern faults
    pure (substitute pattern text)

end CredentialService

/-! ## Sequences of calls -/

/-- A call of the service, with what becomes of its calls of the stores. -/
inductive CredentialCall
  | create (credentialId : String) (now : Time) (profileId name : String) (description : Option String)
      (allowedTools : List String) (secret : String)
  | rotate (now : Time) (credentialId newSecret : String)
  | revoke (credentialId : String)
  | updateScopes (now : Time) (credentialId : String) (allowedTools : List String)
  | redact (text : String)

namespace CredentialCall

/-- The state after a call; its caller goes on, whether it raised or not. -/
def run (service : CredentialService) (w : CredentialWorld) : CredentialCall × StoreFaults →
    CredentialWorld
  | (.create credentialId now profileId name description allowedTools secret, faults) =>
      ((service.create faults credentialId now profileId name description allowedTools secret).run w).2
  | (.rotate now credentialId newSecret, faults) =>
      ((service.rotate faults now credentialId newSecret).run w).2
  | (.revoke credentialId, faults) => ((service.revoke faults credentialId).run w).2
  | (.updateScopes now credentialId allowedTools, faults) =>
      ((CredentialService.updateScopes faults now credentialId allowedTools).run w).2
  | (.redact text, faults) => ((CredentialService.redact faults text).run w).2

end CredentialCall

end Shea.Model
