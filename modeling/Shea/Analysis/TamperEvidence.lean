import Shea.Analysis.JsonRoundTrip
import Shea.Model.AuditChain
import Shea.Model.Sample

/-!
# Tamper evidence

A table that the verifier finds valid is a chain: every row is the hash of its own event and of the row
before it. The last hash tells the last event and the hash before it, so from the end backwards it tells
the whole table, up to one thing: a BLOB is hashed as its `repr`, so a cell with the BLOB and a cell with
that text have the same hash.
-/

set_option autoImplicit false

namespace Shea.Analysis

open Shea.Computation Shea.Model

/-- No two texts have the same SHA-256 hash, none has the hash that stands for no event, and floats are
written as `json` writes them. -/
structure ChainHash (py : Stdlib) : Prop where
  sha256 : Function.Injective py.sha256
  not_genesis (text : String) : py.sha256 text ≠ genesisPrevHash
  floats : FloatTexts py

/-- The keys are in the same order by their code points and by the texts that they are read back as. -/
def SameOrder (keys : List PyText) : Prop :=
  ∀ a ∈ keys, ∀ b ∈ keys, a.le b = true ↔ a.text ≤ b.text

mutual

/-- The keys of every dictionary in the metadata are in the order of the texts they are read back as. -/
def KeepsOrder : AuditMetadata → Prop
  | .plain _ => True
  | .list items => KeepsOrderItems items
  | .dict entries => SameOrder (entries.map Prod.fst) ∧ KeepsOrderEntries entries

def KeepsOrderItems : List AuditMetadata → Prop
  | [] => True
  | item :: items => KeepsOrder item ∧ KeepsOrderItems items

def KeepsOrderEntries : List (PyText × AuditMetadata) → Prop
  | [] => True
  | (_, item) :: rest => KeepsOrder item ∧ KeepsOrderEntries rest

end

/-- INTERNAL: the texts of a dictionary are under its keys. -/
theorem keys_dumpsEntries (py : Stdlib) (sep : Separators) (entries : List (PyText × AuditMetadata)) :
    (AuditMetadata.dumpsEntries py sep entries).map Prod.fst = entries.map Prod.fst := by
  induction entries with
  | nil => rfl
  | cons entry rest ih => rw [AuditMetadata.dumpsEntries, List.map_cons, List.map_cons, ih]

/-- INTERNAL: where the order of the keys is that of their texts, so is the order of the entries. -/
theorem sortKeys_of_sameOrder {α : Type} {entries : List (PyText × α)}
    (h : SameOrder (entries.map Prod.fst)) :
    sortEntries (entries.map fun entry => (entry.1.text, entry.2)) =
      (AuditMetadata.sortKeys entries).map fun entry => (entry.1.text, entry.2) := by
  unfold sortEntries AuditMetadata.sortKeys
  exact (List.map_insertionSort (fun a b : PyText × α => a.1.le b.1 = true)
    (fun a b : String × α => a.1 ≤ b.1) (fun entry => (entry.1.text, entry.2)) entries fun a ha b hb =>
      h a.1 (List.mem_map_of_mem ha) b.1 (List.mem_map_of_mem hb)).symm

section Written

variable (py : Stdlib) (sep : Separators)

mutual

/-- INTERNAL: metadata whose keys keep their order is written as what it is read back as.
SOURCE: audit/chain.py:42-60 -/
theorem dumps_written : ∀ metadata : AuditMetadata, KeepsOrder metadata →
    metadata.dumps py sep = dumps py sep metadata.written
  | .plain _, _ => rfl
  | .list items, h => by
    rw [AuditMetadata.dumps, dumpsItems_written items h]
    rfl
  | .dict entries, h => by
    have hentries := dumpsEntries_written entries h.2
    have hkeys : SameOrder ((AuditMetadata.dumpsEntries py sep entries).map Prod.fst) := by
      rw [keys_dumpsEntries]
      exact h.1
    have hsorted := sortKeys_of_sameOrder hkeys
    rw [hentries] at hsorted
    rw [AuditMetadata.dumps, AuditMetadata.written, dumps, hsorted, List.map_map]
    rfl

/-- INTERNAL: the items of metadata are written as the values they stand for. -/
theorem dumpsItems_written : ∀ items : List AuditMetadata, KeepsOrderItems items →
    AuditMetadata.dumpsItems py sep items = dumpsList py sep (AuditMetadata.writtenItems items)
  | [], _ => rfl
  | item :: items, h => by
    rw [AuditMetadata.dumpsItems, dumps_written item h.1, dumpsItems_written items h.2]
    rfl

/-- INTERNAL: so are the entries, if the keys are in the same order. -/
theorem dumpsEntries_written : ∀ entries : List (PyText × AuditMetadata), KeepsOrderEntries entries →
    (AuditMetadata.dumpsEntries py sep entries).map (fun entry => (entry.1.text, entry.2)) =
      dumpsDict py sep (AuditMetadata.writtenEntries entries)
  | [], _ => rfl
  | (key, item) :: rest, h => by
    rw [AuditMetadata.dumpsEntries, List.map_cons, dumpsEntries_written rest h.2,
      dumps_written item h.1]
    rfl

end

end Written

/-- INTERNAL: texts are in the order of their code points. -/
theorem lex_codes_iff (a b : List Char) :
    (a.map Char.toNat).lex (b.map Char.toNat) (fun x y => decide (x < y)) = true ↔ a < b := by
  induction a generalizing b with
  | nil => cases b <;> simp
  | cons x xs ih =>
    cases b with
    | nil => simp
    | cons y ys =>
      rw [List.map_cons, List.map_cons, List.cons_lex_cons, List.cons_lt_cons_iff]
      simp only [Bool.or_eq_true, Bool.and_eq_true, decide_eq_true_eq, beq_iff_eq, Char.toNat_inj, ih]
      rfl

/-- INTERNAL: a text without surrogates is read back as itself. -/
theorem text_ofString (key : String) : (PyText.ofString key).text = key := by
  unfold PyText.ofString PyText.text
  rw [List.map_map]
  exact (congrArg String.ofList (List.map_id _)).trans String.ofList_toList

/-- INTERNAL: without surrogates there is no other order. -/
theorem sameOrder_ofString (keys : List String) : SameOrder (keys.map PyText.ofString) := by
  have hcodes (key : String) : (PyText.ofString key).codes = key.toList.map Char.toNat := by
    unfold PyText.ofString PyText.codes
    induction key.toList with
    | nil => rfl
    | cons c rest ih =>
      rw [List.map_cons, List.flatMap_cons, ih]
      rfl
  intro a ha b hb
  obtain ⟨a, -, rfl⟩ := List.mem_map.mp ha
  obtain ⟨b, -, rfl⟩ := List.mem_map.mp hb
  unfold PyText.le
  rw [hcodes, hcodes, text_ofString, text_ofString, Bool.not_eq_true', ← Bool.not_eq_true,
    lex_codes_iff]
  rfl

/-- INTERNAL: entries under such keys, as they are read back. -/
theorem writtenEntries_ofString (entries : List (String × AuditMetadata)) :
    AuditMetadata.writtenEntries (entries.map fun entry => (PyText.ofString entry.1, entry.2)) =
      entries.map fun entry => (entry.1, entry.2.written) := by
  induction entries with
  | nil => rfl
  | cons entry rest ih =>
    rw [List.map_cons, List.map_cons, AuditMetadata.writtenEntries, text_ofString, ih]

section Chains

variable {δ : Type} {py : Stdlib} {iso : IsoFormat δ} {loads : AuditCell → Option Value}

/-- What is hashed, as it is read back. -/
def payloadWritten (iso : IsoFormat δ) (event : ChainEvent δ) (prevHash : AuditCell) : Dict :=
  (auditPayload iso event prevHash).map fun entry => (entry.1, entry.2.written)

/-- INTERNAL: an event whose metadata keeps the order of its keys is hashed as what it is read back as.
SOURCE: audit/chain.py:42-60 -/
theorem hashChainEvent_eq {event : ChainEvent δ} (h : KeepsOrder event.metadata) (prev : AuditCell) :
    hashChainEvent py iso event prev =
      py.sha256 (dumps py .compact (.dict (payloadWritten iso event prev))) := by
  have hkeys : ((auditPayload iso event prev).map fun entry =>
      (PyText.ofString entry.1, entry.2)).map Prod.fst =
      ((auditPayload iso event prev).map Prod.fst).map PyText.ofString := by
    rw [List.map_map, List.map_map]
    rfl
  have horder : KeepsOrder (.dict ((auditPayload iso event prev).map fun entry =>
      (PyText.ofString entry.1, entry.2))) := by
    rw [KeepsOrder, hkeys]
    refine ⟨sameOrder_ofString _, ?_⟩
    simp only [auditPayload, List.map_cons, List.map_nil, KeepsOrderEntries, KeepsOrder, true_and,
      and_true]
    exact h
  unfold hashChainEvent
  rw [dumps_written py .compact _ horder, AuditMetadata.written, writtenEntries_ofString]
  rfl

/-- INTERNAL: events with the same texts and metadata of the same content have the same hash. -/
theorem hashChainEvent_congr (hfloat : FloatTexts py) {a b : ChainEvent δ}
    (hkeeps : KeepsOrder a.metadata) (hkeeps' : KeepsOrder b.metadata)
    (hinstant : iso.isoformat a.timestamp = iso.isoformat b.timestamp)
    (hmetadata : a.metadata.written.canon = b.metadata.written.canon)
    (hrest : a = { b with timestamp := a.timestamp, metadata := a.metadata }) (prev : AuditCell) :
    hashChainEvent py iso a prev = hashChainEvent py iso b prev := by
  rw [hashChainEvent_eq hkeeps, hashChainEvent_eq hkeeps']
  apply congrArg py.sha256
  apply dumps_of_canon hfloat
  rw [Value.canon_dict, Value.canon_dict]
  rw [hrest]
  simp only [payloadWritten, auditPayload, List.map_cons, List.map_nil, hinstant, hmetadata]

/-! ## Chains -/

variable (py iso loads) in
/-- A row in its place: the next number, the hash of the row before it, and the hash of its own event. -/
structure Intact (prevHash : AuditCell) (number : ℤ) (row : AuditRow) (event : ChainEvent δ) :
    Prop where
  read : row.event py iso loads = .ok event
  number : row.sequenceNumber = some number
  prevHash : row.prevHash = prevHash
  eventHash : row.eventHash = .text (hashChainEvent py iso event row.prevHash)

variable (py iso loads) in
/-- Rows that continue a chain. -/
def Linked (prevHash : AuditCell) (number : ℤ) : List AuditRow → List (ChainEvent δ) → Prop
  | [], [] => True
  | row :: rest, event :: events =>
      Intact py iso loads prevHash number row event ∧ Linked row.eventHash (number + 1) rest events
  | _, _ => False

/-- INTERNAL: no gap is found where the number is the next one. -/
theorem gapBreaks_iff {row : AuditRow} {number : ℤ} :
    gapBreaks py row number = [] ↔ row.sequenceNumber = some number := by
  unfold gapBreaks
  split
  · next h => exact iff_of_true rfl h
  · next h => exact iff_of_false (List.cons_ne_nil _ _) h

/-- INTERNAL: no broken link where the hash of the row before is there. -/
theorem linkBreaks_iff {row : AuditRow} {prevHash : AuditCell} :
    linkBreaks py row prevHash = [] ↔ row.prevHash = prevHash := by
  unfold linkBreaks
  split
  · next h => exact iff_of_true rfl h
  · next h => exact iff_of_false (List.cons_ne_nil _ _) h

/-- INTERNAL: no altered content where the hash is that of the content. -/
theorem contentBreaks_iff {row : AuditRow} {event : ChainEvent δ} :
    contentBreaks py iso row event = [] ↔
      row.eventHash = .text (hashChainEvent py iso event row.prevHash) := by
  unfold contentBreaks
  split
  · next h => exact iff_of_true rfl h
  · next h => exact iff_of_false (List.cons_ne_nil _ _) h

/-- INTERNAL: nothing is wrong with a row if and only if it is in its place. -/
theorem rowBreaks_iff {prevHash : AuditCell} {number : ℤ} {row : AuditRow} :
    rowBreaks py iso loads row prevHash number = .ok [] ↔
      ∃ event, Intact py iso loads prevHash number row event := by
  unfold rowBreaks
  cases hread : row.event py iso loads with
  | error e =>
    refine iff_of_false (fun h => by cases h) fun h => ?_
    obtain ⟨event, hevent⟩ := h
    cases hread.symm.trans hevent.read
  | ok event =>
    constructor
    · intro h
      have hnone := Except.ok.inj h
      simp only [List.append_eq_nil_iff, gapBreaks_iff, linkBreaks_iff, contentBreaks_iff] at hnone
      exact ⟨event, hread, hnone.1.1, hnone.1.2, hnone.2⟩
    · rintro ⟨event', hevent⟩
      obtain rfl : event = event' := Except.ok.inj (hread.symm.trans hevent.read)
      have hnone : gapBreaks py row number ++ linkBreaks py row prevHash ++
          contentBreaks py iso row event = [] := by
        rw [gapBreaks_iff.mpr hevent.number, linkBreaks_iff.mpr hevent.prevHash,
          contentBreaks_iff.mpr hevent.eventHash]
        rfl
      exact congrArg Except.ok hnone

/-- INTERNAL: what the loop reports about one row and the rest. -/
theorem chainBreaks_cons_iff {prevHash : AuditCell} {number : ℤ} {row : AuditRow}
    {rest : List AuditRow} :
    chainBreaks py iso loads (row :: rest) prevHash number = .ok [] ↔
      (∃ event, Intact py iso loads prevHash number row event) ∧
        chainBreaks py iso loads rest row.eventHash (number + 1) = .ok [] := by
  rw [← rowBreaks_iff, chainBreaks]
  constructor
  · intro h
    cases hhere : rowBreaks py iso loads row prevHash number with
    | error e =>
      rw [hhere] at h
      cases h
    | ok here =>
      cases hnext : row.nextNumber with
      | error e =>
        rw [hhere, hnext] at h
        cases h
      | ok next =>
        cases hlater : chainBreaks py iso loads rest row.eventHash next with
        | error e =>
          rw [hhere, hnext] at h
          simp only [bind, Except.bind, hlater] at h
          cases h
        | ok later =>
          rw [hhere, hnext] at h
          simp only [bind, Except.bind, hlater] at h
          obtain ⟨rfl, rfl⟩ := List.append_eq_nil_iff.mp (Except.ok.inj h)
          obtain ⟨event, hevent⟩ := rowBreaks_iff.mp hhere
          have hnumber : next = number + 1 := by
            unfold AuditRow.nextNumber at hnext
            rw [hevent.number] at hnext
            exact (Except.ok.inj hnext).symm
          rw [← hnumber]
          exact ⟨rfl, hlater⟩
  · rintro ⟨hhere, hlater⟩
    obtain ⟨event, hevent⟩ := rowBreaks_iff.mp hhere
    have hnext : row.nextNumber = .ok (number + 1) := by
      unfold AuditRow.nextNumber
      rw [hevent.number]
    rw [hhere, hnext]
    simp only [bind, Except.bind, hlater]
    rfl

/-- The loop reports nothing if and only if the rows are a chain.
SOURCE: persistence/sqlite/audit_chain.py:42-102 -/
theorem chainBreaks_iff {rows : List AuditRow} {prevHash : AuditCell} {number : ℤ} :
    chainBreaks py iso loads rows prevHash number = .ok [] ↔
      ∃ events, Linked py iso loads prevHash number rows events := by
  induction rows generalizing prevHash number with
  | nil =>
    refine ⟨fun _ => ⟨[], trivial⟩, fun _ => rfl⟩
  | cons row rest ih =>
    rw [chainBreaks_cons_iff, ih]
    constructor
    · rintro ⟨⟨event, hevent⟩, events, hevents⟩
      exact ⟨event :: events, hevent, hevents⟩
    · rintro ⟨events, hevents⟩
      cases events with
      | nil => exact hevents.elim
      | cons event events => exact ⟨⟨event, hevents.1⟩, events, hevents.2⟩

/-- The hash that the next row has to carry. -/
def tipHash (prevHash : AuditCell) (rows : List AuditRow) : AuditCell :=
  (rows.getLast?.map AuditRow.eventHash).getD prevHash

/-- INTERNAL: a chain with one more row at its end. -/
theorem linked_concat_iff {prevHash : AuditCell} {number : ℤ} {rows : List AuditRow}
    {row : AuditRow} {events : List (ChainEvent δ)} :
    Linked py iso loads prevHash number (rows ++ [row]) events ↔
      ∃ before event, events = before ++ [event] ∧ Linked py iso loads prevHash number rows before ∧
        Intact py iso loads (tipHash prevHash rows) (number + rows.length) row event := by
  induction rows generalizing prevHash number events with
  | nil =>
    have hnumber : number + (([] : List AuditRow).length : ℤ) = number := by simp
    rw [hnumber]
    constructor
    · intro h
      match events, h with
      | [event], h => exact ⟨[], event, rfl, trivial, h.1⟩
      | _ :: _ :: _, h => exact h.2.elim
    · rintro ⟨before, event, rfl, hbefore, hevent⟩
      cases before with
      | nil => exact ⟨hevent, trivial⟩
      | cons _ _ => exact hbefore.elim
  | cons first rest ih =>
    have hnumber : number + ((first :: rest).length : ℤ) = number + 1 + rest.length := by
      rw [List.length_cons]
      omega
    have htip : tipHash prevHash (first :: rest) = tipHash first.eventHash rest := by
      unfold tipHash
      cases rest with
      | nil => rfl
      | cons second rest => rw [List.getLast?_cons_cons, List.getLast?_cons]; rfl
    rw [hnumber, htip]
    constructor
    · intro h
      cases events with
      | nil => exact h.elim
      | cons head events =>
        obtain ⟨before, event, rfl, hbefore, hevent⟩ := ih.mp h.2
        exact ⟨head :: before, event, rfl, ⟨h.1, hbefore⟩, hevent⟩
    · rintro ⟨before, event, rfl, hbefore, hevent⟩
      cases before with
      | nil => exact hbefore.elim
      | cons head before => exact ⟨hbefore.1, ih.mpr ⟨before, event, rfl, hbefore.2, hevent⟩⟩

/-- INTERNAL: the tip is the hash of the last row. -/
theorem tipHash_concat (prevHash : AuditCell) (rows : List AuditRow) (row : AuditRow) :
    tipHash prevHash (rows ++ [row]) = row.eventHash := by
  simp [tipHash]

end Chains

/-- The text itself, behind a mark. -/
def marked (text : String) : String := String.ofList ('#' :: text.toList)

/-- A standard library whose hash of a text is the text itself, behind a mark. -/
def tagged : Stdlib := { Stdlib.plain with sha256 := marked, floatRepr := floatText }

/-- INTERNAL: the letters of a marked text. -/
theorem toList_marked (text : String) : (marked text).toList = '#' :: text.toList :=
  String.toList_ofList

/-- INTERNAL: a marked text is not the genesis hash. -/
theorem marked_ne_genesis (text : String) : marked text ≠ genesisPrevHash := by
  intro h
  have hchars : (marked text).toList = genesisPrevHash.toList := congrArg String.toList h
  have hzeros : genesisPrevHash.toList = '0' :: List.replicate 63 '0' := String.toList_ofList
  rw [toList_marked, hzeros] at hchars
  exact absurd (List.cons.inj hchars).1 (by decide)

/-- INTERNAL: marking a text is a hash without collisions. -/
theorem chainHash_tagged : ChainHash tagged where
  sha256 a b h := by
    have hchars : (marked a).toList = (marked b).toList := congrArg String.toList h
    rw [toList_marked, toList_marked] at hchars
    exact String.toList_inj.mp (List.cons.inj hchars).2
  not_genesis := marked_ne_genesis
  floats := floatTexts_floatText { Stdlib.plain with sha256 := marked }

/-- Datetimes known by their texts. -/
def textDates : IsoFormat String := { isoformat := fun text => text, fromisoformat := some }

/-- A note was taken. -/
def noteTaken (actor : AuditCell) (metadata : Value) : ChainEvent String :=
  { eventId := .text "event"
    requestId := .null
    taskId := .text "task"
    timestamp := "2026-01-01T00:00:00+00:00"
    actor := actor
    component := .text "notes"
    eventType := .text "note.taken"
    action := .text "take"
    result := .text "success"
    metadata := .plain metadata }

/-- No BLOB is JSON here. -/
def loadsText : AuditCell → Option Value := loadsCell floatOfText fun _ => none

end Shea.Analysis
