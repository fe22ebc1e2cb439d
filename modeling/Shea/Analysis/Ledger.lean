import Shea.Analysis.Reconciliation

/-!
# The execution ledger

What the supervisor is for, without its code: a ledger of receipts, attempts and idempotency keys,
and the adapter calls made under it. `Step` lists the only ways the ledger changes, each with the
condition under which it may be taken:

* a key is reserved once, and never again;
* a receipt and its one attempt are opened together, under identifiers that are not in use;
* the attempt is marked invoked, then the adapter is called, once;
* receipt and attempt are settled together, with one outcome.

`Safe` is the invariant that follows. That every step of the supervisor's programs is such a step is
shown in `SupervisorSteps`.
-/

set_option autoImplicit false

namespace Shea.Analysis

open Shea.Computation Shea.Model

/-- One entry into `adapter.invoke`. -/
structure AdapterCall where
  receiptId : String
  attemptId : String
  key : Option String
  deriving DecidableEq, Repr

/-- Receipts, attempts and keys as committed, the adapter calls made so far, and how many
identifiers have been drawn. -/
structure Ledger where
  receipts : List ExecutionReceipt
  attempts : List ExecutionAttempt
  idempotency : List IdempotencyRecord
  calls : List AdapterCall
  nextId : ℕ

/-- The adapter calls of a log. -/
def callsOf (log : List Effect) : List AdapterCall :=
  log.filterMap fun
    | .adapterCalled receiptId attemptId key => some ⟨receiptId, attemptId, key⟩
    | _ => none

/-- The ledger of a state. -/
def ledgerOf (w : World) : Ledger :=
  { receipts := w.committed.receipts
    attempts := w.committed.attempts
    idempotency := w.committed.idempotency
    calls := callsOf w.log
    nextId := w.nextId }

/-- The idempotency rows after an optional save. -/
def withRow (row : Option IdempotencyRecord) (rows : List IdempotencyRecord) :
    List IdempotencyRecord :=
  row.elim rows fun r => Table.upsert IdempotencyRecord.key IdempotencyRepository.merge r rows

/-- The states of a receipt and its attempt go together. -/
def Paired (receipt : ExecutionReceipt) (attempt : ExecutionAttempt) : Prop :=
  (receipt.state = .attempting ∧ (attempt.state = .created ∨ attempt.state = .invoked)) ∨
  (receipt.state = .finalized ∧ attempt.state = .finalized ∧
    ∃ outcome, receipt.outcome = some outcome ∧ attempt.outcome = some outcome)

/-! ## The steps -/

/-- How the ledger changes. -/
inductive Step (host : Host) (l : Ledger) : Ledger → Prop
  /-- Identifiers are drawn, or nothing happens. -/
  | draw {n : ℕ} (hn : l.nextId ≤ n) : Step host l { l with nextId := n }
  /-- A key without a row gets one. -/
  | reserved {row : IdempotencyRecord} (hstate : row.state = .inProgress)
      (hnew : Table.lookup IdempotencyRecord.key l.idempotency row.key = none) :
      Step host l { l with idempotency := l.idempotency ++ [row] }
  /-- A receipt and its attempt are written together, and the key is bound to the receipt. -/
  | opened {receipt : ExecutionReceipt} {attempt : ExecutionAttempt}
      {row : Option IdempotencyRecord} {m n : ℕ}
      (hreceiptId : receipt.id = host.newId m) (hattemptId : attempt.id = host.newId n)
      (hm : m < l.nextId) (hn : n < l.nextId)
      (hnewReceipt : ∀ r ∈ l.receipts, r.id ≠ receipt.id)
      (hnewAttempt : ∀ a ∈ l.attempts, a.id ≠ attempt.id)
      (hattempting : receipt.state = .attempting) (hcreated : attempt.state = .created)
      (hlink : attempt.receiptId = receipt.id)
      (hreceiptJson : (Value.dict receipt.metadata).serializable = true)
      (hattemptJson : (Value.dict attempt.evidence).serializable = true) :
      Step host l { l with
        receipts := l.receipts ++ [receipt]
        attempts := l.attempts ++ [attempt]
        idempotency := withRow row l.idempotency }
  /-- The attempt of an open receipt is marked invoked. -/
  | marked {old new : ExecutionAttempt} {receipt : ExecutionReceipt}
      (hold : Table.lookup ExecutionAttempt.id l.attempts new.id = some old)
      (hreceipt : Table.lookup ExecutionReceipt.id l.receipts old.receiptId = some receipt)
      (hattempting : receipt.state = .attempting) (hinvoked : new.state = .invoked)
      (hjson : (Value.dict new.evidence).serializable = true) :
      Step host l { l with
        attempts := Table.upsert ExecutionAttempt.id AttemptRepository.merge new l.attempts }
  /-- The adapter is called for an invoked attempt that was not called before, under a key that was
  reserved and not used for a call before. -/
  | called {call : AdapterCall} {receipt : ExecutionReceipt} {attempt : ExecutionAttempt}
      (hreceipt : Table.lookup ExecutionReceipt.id l.receipts call.receiptId = some receipt)
      (hattempting : receipt.state = .attempting)
      (hattempt : Table.lookup ExecutionAttempt.id l.attempts call.attemptId = some attempt)
      (hinvoked : attempt.state = .invoked) (hlink : attempt.receiptId = call.receiptId)
      (hkey : ∀ k, call.key = some k →
        (Table.lookup IdempotencyRecord.key l.idempotency k).isSome ∧
          ∀ c ∈ l.calls, c.key ≠ some k) :
      Step host l { l with calls := l.calls ++ [call] }
  /-- A receipt and its attempt are finalized together with one outcome. -/
  | settled {receipt oldReceipt : ExecutionReceipt} {attempt oldAttempt : ExecutionAttempt}
      {row : Option IdempotencyRecord} {outcome : AppOutcome}
      (hreceipt : Table.lookup ExecutionReceipt.id l.receipts receipt.id = some oldReceipt)
      (hattempt : Table.lookup ExecutionAttempt.id l.attempts attempt.id = some oldAttempt)
      (hlink : oldAttempt.receiptId = receipt.id)
      (hreceiptState : receipt.state = .finalized) (hattemptState : attempt.state = .finalized)
      (hreceiptOutcome : receipt.outcome = some outcome)
      (hattemptOutcome : attempt.outcome = some outcome)
      (hreceiptJson : (Value.dict receipt.metadata).serializable = true)
      (hattemptJson : (Value.dict attempt.evidence).serializable = true) :
      Step host l { l with
        receipts := Table.upsert ExecutionReceipt.id ReceiptRepository.merge receipt l.receipts
        attempts := Table.upsert ExecutionAttempt.id AttemptRepository.merge attempt l.attempts
        idempotency := withRow row l.idempotency }

/-! ## The invariant -/

/-- What holds of every ledger. -/
structure Safe (host : Host) (l : Ledger) : Prop where
  receiptKeys : (l.receipts.map ExecutionReceipt.id).Nodup
  attemptKeys : (l.attempts.map ExecutionAttempt.id).Nodup
  /-- Every receipt has exactly one attempt, in the same place of the table. -/
  linked : l.attempts.map ExecutionAttempt.receiptId = l.receipts.map ExecutionReceipt.id
  paired : ∀ r ∈ l.receipts, ∀ a ∈ l.attempts, a.receiptId = r.id → Paired r a
  receiptIds : ∀ r ∈ l.receipts, ∃ n < l.nextId, r.id = host.newId n
  attemptIds : ∀ a ∈ l.attempts, ∃ n < l.nextId, a.id = host.newId n
  receiptJson : ∀ r ∈ l.receipts, (Value.dict r.metadata).serializable = true
  attemptJson : ∀ a ∈ l.attempts, (Value.dict a.evidence).serializable = true
  /-- Every key an adapter was called under has a row. -/
  callKeys : ∀ c ∈ l.calls, ∀ k, c.key = some k →
    (Table.lookup IdempotencyRecord.key l.idempotency k).isSome
  /-- No key was used for two calls. -/
  callsOnce : (l.calls.filterMap AdapterCall.key).Nodup

/-- INTERNAL: the ledger of an empty database. -/
theorem safe_empty (host : Host) (n : ℕ) : Safe host ⟨[], [], [], [], n⟩ := by
  constructor <;> simp

/-- INTERNAL: saving an idempotency row again keeps its key. -/
theorem keepsKey_idempotency :
    Table.KeepsKey IdempotencyRecord.key IdempotencyRepository.merge := fun _ _ => rfl

/-- INTERNAL: an optional save never removes a key. -/
theorem lookup_withRow_isSome (row : Option IdempotencyRecord) {rows : List IdempotencyRecord}
    {k : String} (h : (Table.lookup IdempotencyRecord.key rows k).isSome) :
    (Table.lookup IdempotencyRecord.key (withRow row rows) k).isSome := by
  cases row with
  | none => exact h
  | some r =>
    by_cases hk : r.key = k
    · subst hk
      simp [withRow, Table.lookup_upsert_self keepsKey_idempotency]
    · simpa [withRow, Table.lookup_upsert_of_ne keepsKey_idempotency rows hk] using h

/-- INTERNAL: saving an attempt again leaves all links as they are. -/
theorem links_upsert {rows : List ExecutionAttempt} {new old : ExecutionAttempt}
    (hold : Table.lookup ExecutionAttempt.id rows new.id = some old) :
    (Table.upsert ExecutionAttempt.id AttemptRepository.merge new rows).map
      ExecutionAttempt.receiptId = rows.map ExecutionAttempt.receiptId := by
  apply Table.map_upsert_of_lookup _ _ hold
  exact fun _ _ => rfl

/-- INTERNAL: saving a receipt again leaves all ids as they are. -/
theorem ids_upsert {rows : List ExecutionReceipt} {new old : ExecutionReceipt}
    (hold : Table.lookup ExecutionReceipt.id rows new.id = some old) :
    (Table.upsert ExecutionReceipt.id ReceiptRepository.merge new rows).map ExecutionReceipt.id =
      rows.map ExecutionReceipt.id := by
  apply Table.map_upsert_of_lookup _ _ hold
  exact fun _ _ => rfl

section Preservation

variable {host : Host} {l l' : Ledger}

/-- INTERNAL: receipts and attempts that are already there keep their keys and links. -/
theorem Safe.linked_step (hs : Safe host l) (h : Step host l l') :
    (l'.receipts.map ExecutionReceipt.id).Nodup ∧ (l'.attempts.map ExecutionAttempt.id).Nodup ∧
      l'.attempts.map ExecutionAttempt.receiptId = l'.receipts.map ExecutionReceipt.id := by
  cases h with
  | draw => exact ⟨hs.receiptKeys, hs.attemptKeys, hs.linked⟩
  | reserved => exact ⟨hs.receiptKeys, hs.attemptKeys, hs.linked⟩
  | called => exact ⟨hs.receiptKeys, hs.attemptKeys, hs.linked⟩
  | opened _ _ _ _ hnewReceipt hnewAttempt _ _ hlink =>
    refine ⟨?_, ?_, ?_⟩
    · simpa [List.nodup_append, hs.receiptKeys] using hnewReceipt
    · simpa [List.nodup_append, hs.attemptKeys] using hnewAttempt
    · simp [hs.linked, hlink]
  | marked hold =>
    refine ⟨hs.receiptKeys, Table.nodup_upsert keepsKey_attempt hs.attemptKeys _, ?_⟩
    exact (links_upsert hold).trans hs.linked
  | settled hreceipt hattempt =>
    refine ⟨Table.nodup_upsert keepsKey_receipt hs.receiptKeys _,
      Table.nodup_upsert keepsKey_attempt hs.attemptKeys _, ?_⟩
    exact (links_upsert hattempt).trans (hs.linked.trans (ids_upsert hreceipt).symm)

/-- INTERNAL: the attempt of a receipt is unique. -/
theorem Safe.attempt_unique (hs : Safe host l) {a b : ExecutionAttempt} (ha : a ∈ l.attempts)
    (hb : b ∈ l.attempts) (h : a.receiptId = b.receiptId) : a = b := by
  have hd : (l.attempts.map ExecutionAttempt.receiptId).Nodup := hs.linked ▸ hs.receiptKeys
  exact List.inj_on_of_nodup_map hd ha hb h

/-- INTERNAL: a freshly opened receipt has no other attempt, a fresh attempt no other receipt. -/
theorem Safe.attempt_has_receipt (hs : Safe host l) {a : ExecutionAttempt} (ha : a ∈ l.attempts) :
    ∃ r ∈ l.receipts, r.id = a.receiptId := by
  have h : a.receiptId ∈ l.receipts.map ExecutionReceipt.id :=
    hs.linked ▸ List.mem_map_of_mem ha
  obtain ⟨r, hr, he⟩ := List.mem_map.mp h
  exact ⟨r, hr, he⟩

/-- INTERNAL: every receipt has an attempt. -/
theorem Safe.receipt_has_attempt (hs : Safe host l) {r : ExecutionReceipt} (hr : r ∈ l.receipts) :
    ∃ a ∈ l.attempts, a.receiptId = r.id := by
  have h : r.id ∈ l.attempts.map ExecutionAttempt.receiptId :=
    hs.linked.symm ▸ List.mem_map_of_mem hr
  obtain ⟨a, ha, he⟩ := List.mem_map.mp h
  exact ⟨a, ha, he⟩

/-- INTERNAL: receipts and attempts stay paired. -/
theorem Safe.paired_step (hs : Safe host l) (h : Step host l l') :
    ∀ r ∈ l'.receipts, ∀ a ∈ l'.attempts, a.receiptId = r.id → Paired r a := by
  cases h with
  | draw => exact hs.paired
  | reserved => exact hs.paired
  | called => exact hs.paired
  | @opened receipt attempt _ _ _ _ _ _ _ hnewReceipt _ hattempting hcreated hlink =>
    intro r hr a ha hra
    rcases List.mem_append.mp hr with hr | hr <;> rcases List.mem_append.mp ha with ha | ha
    · exact hs.paired r hr a ha hra
    · -- an old receipt does not have the new id
      rw [List.mem_singleton.mp ha, hlink] at hra
      exact absurd hra.symm (hnewReceipt r hr)
    · -- an old attempt points to an old receipt
      obtain ⟨r', hr', he⟩ := hs.attempt_has_receipt ha
      rw [List.mem_singleton.mp hr] at hra
      exact absurd (he.trans hra) (hnewReceipt r' hr')
    · rw [List.mem_singleton.mp hr, List.mem_singleton.mp ha]
      exact .inl ⟨hattempting, .inl hcreated⟩
  | @marked old new receipt hold hreceipt hattempting hinvoked =>
    intro r hr a ha hra
    rcases Table.mem_upsert_of_lookup keepsKey_attempt hs.attemptKeys hold ha with rfl | ⟨ha, -⟩
    · have hr' := Table.lookup_of_mem hs.receiptKeys hr
      have hrr : receipt = r := by
        have hid : old.receiptId = r.id := hra
        rw [hid, hr'] at hreceipt
        exact (Option.some.inj hreceipt).symm
      exact .inl ⟨hrr ▸ hattempting, .inr hinvoked⟩
    · exact hs.paired r hr a ha hra
  | @settled receipt oldReceipt attempt oldAttempt row outcome hreceipt hattempt hlink hrs has hro
      hao =>
    have hmem := Table.lookup_mem hattempt
    intro r hr a ha hra
    rcases Table.mem_upsert_of_lookup keepsKey_receipt hs.receiptKeys hreceipt hr with
      rfl | ⟨hr, hrk⟩ <;>
    rcases Table.mem_upsert_of_lookup keepsKey_attempt hs.attemptKeys hattempt ha with
      rfl | ⟨ha, hak⟩
    · exact .inr ⟨hrs, has, outcome, hro, hao⟩
    · -- the settled receipt has only the settled attempt
      have hid : oldReceipt.id = receipt.id := Table.lookup_eq_some_key hreceipt
      have heq := hs.attempt_unique ha hmem (hra.trans (hid.trans hlink.symm))
      exact absurd (heq ▸ Table.lookup_eq_some_key hattempt) hak
    · have hid : oldAttempt.receiptId = r.id := hra
      exact absurd (hid.symm.trans hlink) hrk
    · exact hs.paired r hr a ha hra

/-- INTERNAL: identifiers of stored rows have been drawn. -/
theorem Safe.ids_step (hs : Safe host l) (h : Step host l l') :
    (∀ r ∈ l'.receipts, ∃ n < l'.nextId, r.id = host.newId n) ∧
      ∀ a ∈ l'.attempts, ∃ n < l'.nextId, a.id = host.newId n := by
  cases h with
  | draw hn =>
    constructor
    · intro r hr
      obtain ⟨k, hk, he⟩ := hs.receiptIds r hr
      exact ⟨k, hk.trans_le hn, he⟩
    · intro a ha
      obtain ⟨k, hk, he⟩ := hs.attemptIds a ha
      exact ⟨k, hk.trans_le hn, he⟩
  | reserved => exact ⟨hs.receiptIds, hs.attemptIds⟩
  | called => exact ⟨hs.receiptIds, hs.attemptIds⟩
  | @opened receipt attempt _ m n hreceiptId hattemptId hm hn =>
    constructor
    · intro r hr
      rcases List.mem_append.mp hr with hr | hr
      · exact hs.receiptIds r hr
      · exact ⟨m, hm, List.mem_singleton.mp hr ▸ hreceiptId⟩
    · intro a ha
      rcases List.mem_append.mp ha with ha | ha
      · exact hs.attemptIds a ha
      · exact ⟨n, hn, List.mem_singleton.mp ha ▸ hattemptId⟩
  | @marked old new receipt hold =>
    refine ⟨hs.receiptIds, fun a ha => ?_⟩
    rcases Table.mem_upsert_of_lookup keepsKey_attempt hs.attemptKeys hold ha with rfl | ⟨ha, -⟩
    · exact hs.attemptIds old (Table.lookup_mem hold)
    · exact hs.attemptIds a ha
  | @settled receipt oldReceipt attempt oldAttempt _ _ hreceipt hattempt =>
    constructor
    · intro r hr
      rcases Table.mem_upsert_of_lookup keepsKey_receipt hs.receiptKeys hreceipt hr with
        rfl | ⟨hr, -⟩
      · exact hs.receiptIds oldReceipt (Table.lookup_mem hreceipt)
      · exact hs.receiptIds r hr
    · intro a ha
      rcases Table.mem_upsert_of_lookup keepsKey_attempt hs.attemptKeys hattempt ha with
        rfl | ⟨ha, -⟩
      · exact hs.attemptIds oldAttempt (Table.lookup_mem hattempt)
      · exact hs.attemptIds a ha

/-- INTERNAL: JSON columns keep holding JSON. -/
theorem Safe.json_step (hs : Safe host l) (h : Step host l l') :
    (∀ r ∈ l'.receipts, (Value.dict r.metadata).serializable = true) ∧
      ∀ a ∈ l'.attempts, (Value.dict a.evidence).serializable = true := by
  cases h with
  | draw => exact ⟨hs.receiptJson, hs.attemptJson⟩
  | reserved => exact ⟨hs.receiptJson, hs.attemptJson⟩
  | called => exact ⟨hs.receiptJson, hs.attemptJson⟩
  | opened _ _ _ _ _ _ _ _ _ hreceiptJson hattemptJson =>
    constructor
    · intro r hr
      rcases List.mem_append.mp hr with hr | hr
      · exact hs.receiptJson r hr
      · exact List.mem_singleton.mp hr ▸ hreceiptJson
    · intro a ha
      rcases List.mem_append.mp ha with ha | ha
      · exact hs.attemptJson a ha
      · exact List.mem_singleton.mp ha ▸ hattemptJson
  | marked hold _ _ _ hjson =>
    refine ⟨hs.receiptJson, fun a ha => ?_⟩
    rcases Table.mem_upsert_of_lookup keepsKey_attempt hs.attemptKeys hold ha with rfl | ⟨ha, -⟩
    · exact hjson
    · exact hs.attemptJson a ha
  | settled hreceipt hattempt _ _ _ _ _ hreceiptJson hattemptJson =>
    constructor
    · intro r hr
      rcases Table.mem_upsert_of_lookup keepsKey_receipt hs.receiptKeys hreceipt hr with
        rfl | ⟨hr, -⟩
      · exact hreceiptJson
      · exact hs.receiptJson r hr
    · intro a ha
      rcases Table.mem_upsert_of_lookup keepsKey_attempt hs.attemptKeys hattempt ha with
        rfl | ⟨ha, -⟩
      · exact hattemptJson
      · exact hs.attemptJson a ha

/-- INTERNAL: a key is used for one call, and only while it has a row. -/
theorem Safe.calls_step (hs : Safe host l) (h : Step host l l') :
    (∀ c ∈ l'.calls, ∀ k, c.key = some k →
      (Table.lookup IdempotencyRecord.key l'.idempotency k).isSome) ∧
      (l'.calls.filterMap AdapterCall.key).Nodup := by
  cases h with
  | draw => exact ⟨hs.callKeys, hs.callsOnce⟩
  | @reserved row hstate hnew =>
    refine ⟨fun c hc k hk => ?_, hs.callsOnce⟩
    have h := hs.callKeys c hc k hk
    simp only [Table.lookup, List.find?_append]
    rw [Option.isSome_or]
    simpa [Table.lookup] using Or.inl h
  | opened =>
    exact ⟨fun c hc k hk => lookup_withRow_isSome _ (hs.callKeys c hc k hk), hs.callsOnce⟩
  | marked => exact ⟨hs.callKeys, hs.callsOnce⟩
  | @called call _ _ _ _ _ _ _ hkey =>
    constructor
    · intro c hc k hk
      rcases List.mem_append.mp hc with hc | hc
      · exact hs.callKeys c hc k hk
      · rw [List.mem_singleton.mp hc] at hk
        exact (hkey k hk).1
    · rw [List.filterMap_append]
      cases hk : call.key with
      | none => simpa [hk] using hs.callsOnce
      | some k =>
        have hfresh : k ∉ l.calls.filterMap AdapterCall.key := by
          intro hmem
          obtain ⟨c, hc, he⟩ := List.mem_filterMap.mp hmem
          exact (hkey k hk).2 c hc he
        simp only [List.filterMap_cons, hk, List.filterMap_nil]
        exact hs.callsOnce.append (List.nodup_singleton k) (by simpa using hfresh)
  | settled =>
    exact ⟨fun c hc k hk => lookup_withRow_isSome _ (hs.callKeys c hc k hk), hs.callsOnce⟩

/-- Every step of the ledger keeps the invariant. -/
theorem Safe.step (hs : Safe host l) (h : Step host l l') : Safe host l' where
  receiptKeys := (hs.linked_step h).1
  attemptKeys := (hs.linked_step h).2.1
  linked := (hs.linked_step h).2.2
  paired := hs.paired_step h
  receiptIds := (hs.ids_step h).1
  attemptIds := (hs.ids_step h).2
  receiptJson := (hs.json_step h).1
  attemptJson := (hs.json_step h).2
  callKeys := (hs.calls_step h).1
  callsOnce := (hs.calls_step h).2

end Preservation

/-! ## Where calls happen -/

/-- The call is made under an open receipt whose attempt is marked invoked, both committed. -/
def UnderReceipt (l : Ledger) (call : AdapterCall) : Prop :=
  ∃ receipt attempt,
    Table.lookup ExecutionReceipt.id l.receipts call.receiptId = some receipt ∧
    receipt.state = .attempting ∧
    Table.lookup ExecutionAttempt.id l.attempts call.attemptId = some attempt ∧
    attempt.state = .invoked ∧ attempt.receiptId = call.receiptId

/-- A step that adds a call adds it under a receipt. -/
theorem Step.underReceipt {host : Host} {l l' : Ledger} (h : Step host l l') {call : AdapterCall}
    (hcall : l'.calls = l.calls ++ [call]) : UnderReceipt l call := by
  cases h with
  | @called call' receipt attempt hreceipt hattempting hattempt hinvoked hlink =>
    obtain rfl : call' = call := by simpa using hcall
    exact ⟨receipt, attempt, hreceipt, hattempting, hattempt, hinvoked, hlink⟩
  | draw => simp at hcall
  | reserved => simp at hcall
  | opened => simp at hcall
  | marked => simp at hcall
  | settled => simp at hcall

end Shea.Analysis
