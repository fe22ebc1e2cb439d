import Shea.Model.World

/-!
# Evidence and verification of an adapter's result

`app/verification.py` and `app/verify_engine.py`. The outcome a receipt is finalized with is the
result of the verification, not what the adapter reported.
-/

set_option autoImplicit false

namespace Shea.Model

/-! ## Policies -/

def defaultPolicy : VerificationPolicy :=
  { policyId := "default.v1", requiredEvidenceKinds := ["adapter.generic"] }

/-- `DEFAULT_POLICIES`. -/
def defaultPolicies : List (String × VerificationPolicy) := [
  ("filesystem.write",
    { policyId := "fs.write.v1"
      postconditions := ["content_match", "exists"]
      requiredEvidenceKinds := ["adapter.filesystem"] }),
  ("filesystem.create",
    { policyId := "fs.create.v1"
      postconditions := ["exists"]
      requiredEvidenceKinds := ["adapter.filesystem"] }),
  ("filesystem.delete",
    { policyId := "fs.delete.v1"
      postconditions := ["absent"]
      requiredEvidenceKinds := ["adapter.filesystem"] }),
  ("filesystem.copy",
    { policyId := "fs.copy.v1"
      postconditions := ["source_and_destination_exist"]
      requiredEvidenceKinds := ["adapter.filesystem"] }),
  ("filesystem.move",
    { policyId := "fs.move.v1"
      postconditions := ["source_absent_destination_exists"]
      requiredEvidenceKinds := ["adapter.filesystem"] }),
  ("filesystem.read",
    { policyId := "fs.read.v1", requiredEvidenceKinds := ["adapter.filesystem"] }),
  ("process.run",
    { policyId := "process.run.v1", requiredEvidenceKinds := ["adapter.process"] }),
  ("default", defaultPolicy),
  ("network.request",
    { policyId := "net.request.v1"
      postconditions := ["response_received"]
      requiredEvidenceKinds := ["adapter.network"]
      requiresTransportVerification := true }),
  ("http.fetch",
    { policyId := "http.fetch.v1"
      postconditions := ["response_received"]
      requiredEvidenceKinds := ["adapter.network"]
      requiresTransportVerification := true }),
  ("application.launch",
    { policyId := "app.launch.v1"
      postconditions := ["open_accepted"]
      requiredEvidenceKinds := ["adapter.application"] }),
  ("application.activate",
    { policyId := "app.activate.v1"
      postconditions := ["open_accepted"]
      requiredEvidenceKinds := ["adapter.application"] }),
  ("application.inspect",
    { policyId := "app.inspect.v1"
      postconditions := ["inspect_platform"]
      requiredEvidenceKinds := ["adapter.application"] }),
  ("browser.navigate",
    { policyId := "browser.navigate.v1"
      postconditions := ["page_fetched"]
      requiredEvidenceKinds := ["adapter.browser"] }),
  ("browser.read",
    { policyId := "browser.read.v1"
      postconditions := ["page_fetched"]
      requiredEvidenceKinds := ["adapter.browser"] })]

/-- `EVIDENCE_KIND_BY_FAMILY`. -/
def evidenceKindByFamily : List (String × String) := [
  ("filesystem", "adapter.filesystem"),
  ("process", "adapter.process"),
  ("network", "adapter.network"),
  ("application", "adapter.application"),
  ("browser", "adapter.browser")]

/-- `operation.split(".", 1)[0]`. -/
def operationFamily (operation : String) : String := beforeFirst '.' operation

def evidenceKindForOperation (operation : String) : String :=
  if operation = "http.fetch" then "adapter.network"
  else (evidenceKindByFamily.lookup (operationFamily operation)).getD "adapter.generic"

/-- `_FAMILY_POLICIES`. -/
def familyPolicy (family : String) : Option VerificationPolicy :=
  (evidenceKindByFamily.lookup family).map fun kind =>
    { policyId := family ++ ".family.v1", requiredEvidenceKinds := [kind] }

def policyForOperation (operation : String) : VerificationPolicy :=
  (defaultPolicies.lookup operation).getD
    ((familyPolicy (operationFamily operation)).getD defaultPolicy)

/-! ## Evidence -/

/-- `_hash_payload`. What `json.dumps` raises here (`TypeError` for keys that cannot be compared,
`ValueError` for an integer that is too long, whatever a `str()` raises) is one error. -/
def hashPayload (py : Stdlib) (payload : Dict) : Except Err String :=
  if (Value.dict payload).dumpable then .ok (py.sha256 (dumps py .default (.dict payload)))
  else .error (.typeError "'<' not supported between instances")

def evidencePayload (result : AdapterResult) : Dict :=
  Dict.update [("outcome", .str result.outcome.value), ("error", .ofOption result.error)]
    result.evidence

def evidenceFromAdapter (py : Stdlib) (evidenceId receiptId attemptId operation : String)
    (result : AdapterResult) (observedAt : Time) : Except Err EvidenceRecord := do
  let payload := evidencePayload result
  let contentHash ← hashPayload py payload
  pure { id := evidenceId
         receiptId := receiptId
         attemptId := some attemptId
         kind := evidenceKindForOperation operation
         source := "adapter"
         strength := .direct
         observedAt := observedAt
         contentHash := contentHash
         payload := payload }

/-! ## Verification -/

/-- `strength_order`. -/
def EvidenceStrength.rank : EvidenceStrength → ℕ
  | inferred => 1
  | derived => 2
  | direct => 3

/-- `isinstance(status, int) and not isinstance(status, bool) and 200 <= status < 300`. -/
def successStatus : Value → Bool
  | .int n => 200 ≤ n && n < 300
  | _ => false

def transportVerified (payload : Dict) : Bool :=
  payload.get "transport_complete" = .bool true && successStatus (payload.get "status") &&
    payload.get "tls_verified" ≠ .bool false

/-- `post in {"content_match", "exists"}`: a membership test hashes its operand. -/
def postMarksPresence (post : Value) : Except Err Bool :=
  if post.hashable then .ok (post = .str "content_match" || post = .str "exists")
  else .error (.typeError "unhashable type")

/-- The flags that stand in for the postcondition `exists`. -/
def existsByFlags (result : AdapterResult) (payload : Dict) : Except Err Bool :=
  if !(payload.get "path").truthy then .ok false
  else if result.outcome ≠ .success then .ok false
  else if (payload.get "created").truthy then .ok true
  else if payload.get "bytes_written" ≠ .none then .ok true
  else postMarksPresence (payload.get "postcondition")

/-- The flags that stand in for the postcondition `absent`. -/
def absentByFlags (payload : Dict) : Bool :=
  payload.get "postcondition" = .str "absent" || payload.get "deleted" = .bool true ||
    payload.get "note" = .str "already absent"

/-- The body of the loop over `policy.postconditions`, up to `continue`. The remaining tests of the
loop repeat `post == required` or compare a text with a truth value. -/
def postconditionMet (result : AdapterResult) (payload : Dict) (required : String) :
    Except Err Bool := do
  if payload.get "postcondition" = .str required then
    return true
  if required = "exists" then
    if ← existsByFlags result payload then
      return true
  return required = "absent" && absentByFlags payload

/-- The outcome and the explanations so far. -/
abbrev Judgement := AppOutcome × List String

/-- What an unmet postcondition does to the judgement. -/
def unmetPostcondition (policy : VerificationPolicy) (result : AdapterResult) (required : String)
    (j : Judgement) : Judgement :=
  match result.outcome with
  | .success =>
    (if policy.contradictionBehavior = "unknown" then .unknown else .failure,
      j.2 ++ ["postcondition not met: " ++ required])
  | .unknown => (.unknown, j.2 ++ ["unknown and postcondition unchecked: " ++ required])
  | _ => j

def checkPostconditions (policy : VerificationPolicy) (result : AdapterResult) (payload : Dict) :
    List String → Judgement → Except Err Judgement
  | [], j => .ok j
  | required :: rest, j => do
      let met ← postconditionMet result payload required
      checkPostconditions policy result payload rest
        (if met then j else unmetPostcondition policy result required j)

/-- Missing evidence never establishes a failure of an unknown outcome. -/
def missingOutcome (policy : VerificationPolicy) (result : AdapterResult) : AppOutcome :=
  if result.outcome = .unknown then .unknown else policy.missingEvidenceOutcome

/-- The three checks before the postconditions: kind, strength, transport. -/
def checkEvidence (policy : VerificationPolicy) (result : AdapterResult) (evidence : EvidenceRecord) :
    Judgement :=
  let missing := missingOutcome policy result
  let j : Judgement := (result.outcome, [])
  let j := if !policy.requiredEvidenceKinds.isEmpty ∧ evidence.kind ∉ policy.requiredEvidenceKinds
    then (missing, j.2 ++ ["missing required evidence kind (have " ++ evidence.kind ++ ")"]) else j
  let j := if evidence.strength.rank < policy.minimumStrength.rank
    then (missing, j.2 ++ ["evidence strength below policy minimum"]) else j
  if policy.requiresTransportVerification && !transportVerified evidence.payload
    then (missing, j.2 ++ ["transport not verified"]) else j

/-- `"; ".join(explanation_parts)`, never empty. -/
def explain (j : Judgement) : String :=
  if j.2.isEmpty then (if j.1 = .success then "policy satisfied" else j.1.value)
  else String.intercalate "; " j.2

def evaluateVerification (verificationId receiptId attemptId : String) (policy : VerificationPolicy)
    (result : AdapterResult) (evidence : EvidenceRecord) (verifiedAt : Time) :
    Except Err AppVerificationRecord := do
  let j ← checkPostconditions policy result evidence.payload policy.postconditions
    (checkEvidence policy result evidence)
  pure { id := verificationId
         receiptId := receiptId
         attemptId := attemptId
         policyId := policy.policyId
         expectedPostconditions := policy.postconditions
         evidenceIds := [evidence.id]
         result := j.1
         explanation := explain j
         verifiedAt := verifiedAt }

end Shea.Model
