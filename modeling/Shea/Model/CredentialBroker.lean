import Shea.Model.Credentials
import Shea.Model.EventBus
import Shea.Model.Tools

/-!
# The credential broker

`credentials/broker.py`: who may have which secret. It reads the two stores of the credential service; at
an instant these are as the calls of that service have left them, and each of the two reads may raise.
-/

set_option autoImplicit false

namespace Shea.Model

open Shea.Computation

namespace SheaCredentialBroker

/-- `_is_tool_allowed`. -/
def isToolAllowed (toolName : String) (allowedPatterns : List String) : Bool :=
  allowedPatterns.any (patternMatches · toolName)

/-- The profile and the tool are checked against the metadata. -/
def checkAccess (metadata : CredentialMetadata) (requestingTool requestingProfile : String) :
    Except Err Unit :=
  if metadata.profileId ≠ requestingProfile ∧ metadata.profileId ≠ "system" then
    .error (.securityViolation requestingTool "credential_access"
      ("Profile '" ++ requestingProfile ++ "' is not authorized to access credential '" ++
        metadata.name ++ "' owned by '" ++ metadata.profileId ++ "'."))
  else if !isToolAllowed requestingTool metadata.allowedTools then
    .error (.securityViolation requestingTool "credential_access"
      ("Tool '" ++ requestingTool ++ "' is not authorized to access credential '" ++
        metadata.name ++ "'."))
  else .ok ()

/-- `resolve`: the value of the secret. -/
def resolve (faults : StoreFaults) (reference : CredentialReference)
    (requestingTool requestingProfile : String) : CredentialProc String := do
  match ← storeCall faults.getMetadata (VaultRepository.getMetadata reference.id) with
  | none =>
    throw (.valueError ("Credential '" ++ reference.id ++ "' does not exist in the vault."))
  | some metadata =>
    Program.ofExcept (checkAccess metadata requestingTool requestingProfile)
    match ← storeCall (faults.getSecret reference.id) (SecureStore.getSecret reference.id) with
    | none => throw (.valueError ("Secret for credential '" ++ reference.id ++
        "' is missing from the secure store."))
    | some secret => pure secret

/-- The broker over stores that are so at each instant. -/
def onStores (stores : ℕ → CredentialWorld × StoreFaults) : CredentialBroker :=
  fun reference tool profileId instant =>
    ((resolve (stores instant).2 reference tool profileId).run (stores instant).1).1

end SheaCredentialBroker

end Shea.Model
