import Shea.Analysis.Registers
import Shea.Analysis.Reservation

/-!
# When an execution is finalized

Once its adapter is back, `ExecutionSupervisor.execute` judges the result and writes attempt, receipt,
evidence, verification and key in one transaction. An `Exception` that an adapter raises is finalized;
what it raises beyond that, a `KeyboardInterrupt`, goes through. A result it returns is finalized exactly
when verification and the transaction take it: `json.dumps` writes its evidence, and its payload in the
order of its keys, and the postcondition can be hashed where it is looked up in a set.

The repository of tool executions falls back on `str()` where `json.dumps` raises; those of attempts and
of evidence do not.
-/

set_option autoImplicit false

namespace Shea.Analysis

open Shea.Computation Shea.Model

/-! ## Which results can be written -/

section Recordable

variable {operation : String} {result : AdapterResult}

end Recordable

/-! ## What a call leaves behind -/

section Concluded

variable {sup : ExecutionSupervisor} {host : Host} {contract : ExecutionContract} {w t : World}
  {r : Except Err SupervisionResult} {s : SupervisionResult}

/-- INTERNAL: finalizing saves the receipt and the attempt that were there.
SOURCE: app/supervisor.py:286-304 -/
theorem Finalized.lookups {key : Option String} {receipt : ExecutionReceipt}
    {attempt : ExecutionAttempt} (h : Finalized key w t receipt attempt s)
    (hreceipt : Table.lookup ExecutionReceipt.id w.committed.receipts receipt.id = some receipt)
    (hattempt : Table.lookup ExecutionAttempt.id w.committed.attempts attempt.id = some attempt) :
    ∃ (receipt' : ExecutionReceipt) (attempt' : ExecutionAttempt),
      Table.lookup ExecutionReceipt.id t.committed.receipts receipt.id = some receipt' ∧
      Table.lookup ExecutionAttempt.id t.committed.attempts attempt.id = some attempt' ∧
      receipt'.state = .finalized ∧ attempt'.receiptId = attempt.receiptId := by
  obtain ⟨evidence, at_, hc⟩ := h.committed
  have hreceipts : t.committed.receipts =
      Table.upsert ExecutionReceipt.id ReceiptRepository.merge s.receipt w.committed.receipts := by
    rw [hc]
    rfl
  have hattempts : t.committed.attempts =
      Table.upsert ExecutionAttempt.id AttemptRepository.merge s.attempt w.committed.attempts := by
    rw [hc]
    rfl
  have hfoundR := Table.lookup_upsert_self keepsKey_receipt w.committed.receipts s.receipt
  have hfoundA := Table.lookup_upsert_self keepsKey_attempt w.committed.attempts s.attempt
  rw [h.receiptId, hreceipt, ← hreceipts] at hfoundR
  rw [h.attemptId, hattempt, ← hattempts] at hfoundA
  exact ⟨_, _, hfoundR, hfoundA, h.receiptState, rfl⟩

/-- INTERNAL: the adapter call of the log is the one that was made, and what came back from it is what
the supervisor went on with.
SOURCE: app/supervisor.py:226-266 -/
theorem Invoked.answered {adapter : Adapter} {contract' : ExecutionContract}
    {receipt : ExecutionReceipt} {marked : ExecutionAttempt} {key key' : Option String}
    {w₁ w₂ : World} {result : Except Err AdapterResult} {receiptId attemptId : String}
    {outcome : Except Err AdapterResult}
    (h : Invoked host adapter contract' receipt marked key w₁ w₂ result) (hbefore : w₁.log = w.log)
    (hafter : ∃ events : List Event, t.log = w₂.log ++ events.map .published)
    (hcalled : Effect.adapterCalled receiptId attemptId key' ∈ t.log.drop w.log.length)
    (hreturned : Effect.adapterReturned attemptId outcome ∈ t.log.drop w.log.length) :
    receiptId = receipt.id ∧ attemptId = marked.id ∧
      resultOf host adapter.name contract'.operation receipt.id marked.id outcome = result := by
  obtain ⟨events, hevents⟩ := hafter
  obtain ⟨handlers, answer, hlog, hresult⟩ := h.log
  rw [hevents, hlog, hbefore, List.append_assoc, List.append_assoc, List.append_assoc,
    List.drop_left] at hcalled hreturned
  obtain ⟨rfl, rfl, -⟩ : receiptId = receipt.id ∧ attemptId = marked.id ∧ key' = key := by
    simpa using hcalled
  obtain rfl : outcome = answer := by simpa using hreturned
  exact ⟨rfl, rfl, hresult.symm⟩

end Concluded

end Shea.Analysis
