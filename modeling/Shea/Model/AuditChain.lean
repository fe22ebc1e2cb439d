import Mathlib.Data.List.Sort
import Shea.Model.JsonReader
import Shea.Model.Repositories

/-!
# The audit table and its chain

`persistence/sqlite/audit_sink.py` and `persistence/sqlite/audit_chain.py`, on the rows as the database
has them. A column of texts holds `NULL`, a text or a BLOB, whatever its type. The writer hashes the event
in memory; the verifier hashes what it reads back from a row.

Timestamps are whatever `isoformat` writes and `fromisoformat` reads, whether aware or naive.
-/

set_option autoImplicit false

namespace Shea.Model

/-- The datetimes, as texts. -/
structure IsoFormat (δ : Type) where
  /-- `instant.isoformat()`. -/
  isoformat : δ → String
  /-- `datetime.fromisoformat(text)`; `none` is its `ValueError`. -/
  fromisoformat : String → Option δ

/-! ## Metadata -/

/-- A Python text whose surrogates come in pairs: its characters, each with a mark that says whether it
stands there as a pair of surrogates. -/
abbrev PyText := List (Char × Bool)

namespace PyText

/-- The code points of the text. -/
def codes (key : PyText) : List ℕ := key.flatMap fun (c, paired) =>
  if paired && 0x10000 ≤ c.toNat then
    [0xd800 + (c.toNat - 0x10000) / 0x400, 0xdc00 + (c.toNat - 0x10000) % 0x400]
  else [c.toNat]

/-- `a <= b`. -/
def le (a b : PyText) : Bool := !b.codes.lex a.codes fun x y => decide (x < y)

/-- What `json.loads` makes of what `json.dumps` writes for it. -/
def text (key : PyText) : String := String.ofList (key.map Prod.fst)

/-- A text without surrogates. -/
def ofString (text : String) : PyText := text.toList.map fun c => (c, false)

end PyText

/-- The metadata of an event in memory: a value, or one with keys that have surrogates in them. -/
inductive AuditMetadata
  | plain (value : Value)
  | list (items : List AuditMetadata)
  | dict (entries : List (PyText × AuditMetadata))
  deriving Inhabited

namespace AuditMetadata

mutual

/-- What `json.loads` makes of what `json.dumps` writes for it. -/
def written : AuditMetadata → Value
  | plain value => value
  | list items => .list (writtenItems items)
  | dict entries => .dict (writtenEntries entries)

def writtenItems : List AuditMetadata → List Value
  | [] => []
  | item :: items => item.written :: writtenItems items

def writtenEntries : List (PyText × AuditMetadata) → Dict
  | [] => []
  | (key, item) :: rest => (key.text, item.written) :: writtenEntries rest

end

/-- Entries in increasing order of the code points of their keys, as `sort_keys=True` writes them. -/
def sortKeys {α : Type} (entries : List (PyText × α)) : List (PyText × α) :=
  entries.insertionSort fun a b => a.1.le b.1

section Dumps

variable (py : Stdlib) (sep : Separators)

mutual

/-- `json.dumps(metadata, sort_keys=True, default=str)`. -/
def dumps : AuditMetadata → String
  | plain value => Model.dumps py sep value
  | list items => "[" ++ String.intercalate sep.item (dumpsItems items) ++ "]"
  | dict entries =>
      "\x7b" ++ String.intercalate sep.item ((sortKeys (dumpsEntries entries)).map Prod.snd) ++ "\x7d"

def dumpsItems : List AuditMetadata → List String
  | [] => []
  | item :: items => item.dumps :: dumpsItems items

def dumpsEntries : List (PyText × AuditMetadata) → List (PyText × String)
  | [] => []
  | (key, item) :: rest => (key, quote key.text ++ sep.key ++ item.dumps) :: dumpsEntries rest

end

end Dumps

end AuditMetadata

/-! ## Events and rows -/

/-- What a column of texts holds. A BLOB is known by its `repr`. -/
inductive AuditCell
  | null
  | text (text : String)
  | blob (repr : String)
  deriving DecidableEq, Repr

namespace AuditCell

/-- The cell of an optional text. -/
def ofOption (value : Option String) : AuditCell := value.elim .null .text

/-- The value that the cell is read as: `None`, a `str` or `bytes`. -/
def value : AuditCell → Value
  | null => .none
  | text content => .str content
  | blob repr => .other repr {} none

end AuditCell

/-- An audit event, as the sink is given it and as the verifier rebuilds it from a row. -/
structure ChainEvent (δ : Type) where
  eventId : AuditCell
  requestId : AuditCell
  taskId : AuditCell
  timestamp : δ
  actor : AuditCell
  component : AuditCell
  eventType : AuditCell
  action : AuditCell
  result : AuditCell
  metadata : AuditMetadata

/-- A row of `audit_events`. -/
structure AuditRow where
  eventId : AuditCell
  requestId : AuditCell
  taskId : AuditCell
  timestamp : AuditCell
  actor : AuditCell
  component : AuditCell
  eventType : AuditCell
  action : AuditCell
  result : AuditCell
  metadata : AuditCell
  sequenceNumber : Option ℤ
  prevHash : AuditCell
  eventHash : AuditCell
  deriving DecidableEq, Repr

/-- The three ways in which a chain can be broken. -/
inductive BreakKind
  | contentAltered
  | linkBroken
  | sequenceGap
  deriving DecidableEq, Repr

structure AuditChainBreak where
  sequenceNumber : Option ℤ
  kind : BreakKind
  detail : String
  deriving DecidableEq, Repr

structure AuditChainVerificationResult where
  valid : Bool
  eventsChecked : ℕ
  breaks : List AuditChainBreak
  deriving DecidableEq, Repr

/-- Numbers in increasing order, `NULL` before them. -/
def sequenceLe : Option ℤ → Option ℤ → Bool
  | none, _ => true
  | some _, none => false
  | some a, some b => a ≤ b

section Chain

variable {δ : Type} (py : Stdlib) (iso : IsoFormat δ)

/-- What `hash_audit_event` hashes. -/
def auditPayload (event : ChainEvent δ) (prevHash : AuditCell) : List (String × AuditMetadata) := [
  ("event_id", .plain event.eventId.value),
  ("request_id", .plain event.requestId.value),
  ("task_id", .plain event.taskId.value),
  ("timestamp", .plain (.str (iso.isoformat event.timestamp))),
  ("actor", .plain event.actor.value),
  ("component", .plain event.component.value),
  ("event_type", .plain event.eventType.value),
  ("action", .plain event.action.value),
  ("result", .plain event.result.value),
  ("metadata", event.metadata),
  ("prev_hash", .plain prevHash.value)]

/-- `hash_audit_event`, of an event that may come from any row. -/
def hashChainEvent (event : ChainEvent δ) (prevHash : AuditCell) : String :=
  py.sha256 (AuditMetadata.dumps py .compact
    (.dict ((auditPayload iso event prevHash).map fun entry => (.ofString entry.1, entry.2))))

/-- `sequence_number + 1`, a `TypeError` for `None`. -/
def AuditRow.nextNumber (row : AuditRow) : Except Err ℤ :=
  match row.sequenceNumber with
  | some number => .ok (number + 1)
  | none => .error (.typeError "unsupported operand type(s) for +: 'NoneType' and 'int'")

/-! ## The sink -/

/-- The newest row (`ORDER BY sequence_number DESC LIMIT 1`). -/
def newestRow (table : List AuditRow) : Option AuditRow :=
  (table.insertionSort fun a b => sequenceLe b.sequenceNumber a.sequenceNumber).head?

/-- The number of the next event and the hash before it. -/
def nextPlace (table : List AuditRow) : Except Err (ℤ × AuditCell) :=
  match newestRow table with
  | none => .ok (1, .text genesisPrevHash)
  | some tip => tip.nextNumber.map fun number => (number, tip.eventHash)

/-- The row of an event in its place. -/
def chainRow (event : ChainEvent δ) (metadata : String) (number : ℤ) (prevHash : AuditCell) :
    AuditRow :=
  { eventId := event.eventId
    requestId := event.requestId
    taskId := event.taskId
    timestamp := .text (iso.isoformat event.timestamp)
    actor := event.actor
    component := event.component
    eventType := event.eventType
    action := event.action
    result := event.result
    metadata := .text metadata
    sequenceNumber := some number
    prevHash := prevHash
    eventHash := .text (hashChainEvent py iso event prevHash) }

/-- `json.dumps(event.metadata)`. -/
def ChainEvent.metadataText (event : ChainEvent δ) : Except Err String :=
  match jsonDumps py event.metadata.written with
  | some text => .ok text
  | none => .error (.typeError "Object is not JSON serializable")

/-- The columns that are `NOT NULL`. -/
def ChainEvent.required (event : ChainEvent δ) : List (String × AuditCell) := [
  ("actor", event.actor),
  ("component", event.component),
  ("event_type", event.eventType),
  ("action", event.action),
  ("result", event.result)]

/-- The statements of `SqliteAuditSink.record`. The number is above all others, so of the two unique
columns only `event_id` can be in the way. -/
def insertEvent (table : List AuditRow) (event : ChainEvent δ) : Except Err (List AuditRow) := do
  let place ← nextPlace table
  let metadata ← event.metadataText py
  match event.required.find? (·.2 = .null) with
  | some (column, _) =>
    .error (.integrityError ("NOT NULL constraint failed: audit_events." ++ column))
  | none =>
    if event.eventId ≠ .null && table.any (·.eventId = event.eventId) then
      .error (.integrityError "UNIQUE constraint failed: audit_events.event_id")
    else
      pure (table ++ [chainRow py iso event metadata place.1 place.2])

/-- The audit table of a connection: what is committed, what the connection reads, and the number of
units of work that are open. -/
structure AuditLog where
  committed : List AuditRow := []
  working : List AuditRow := []
  depth : ℕ := 0
  deriving DecidableEq, Repr

namespace AuditLog

def enter (log : AuditLog) : AuditLog := { log with depth := log.depth + 1 }

/-- `SqliteUnitOfWork.__exit__`: only the outermost exit commits or rolls back. -/
def exit (clean : Bool) (log : AuditLog) : AuditLog :=
  if 0 < log.depth - 1 then { log with depth := log.depth - 1 }
  else if clean then { log with depth := log.depth - 1, committed := log.working }
  else { log with depth := log.depth - 1, working := log.committed }

/-- `SqliteAuditSink.record`; what it raises, its caller catches. -/
def record (log : AuditLog) (event : ChainEvent δ) : AuditLog :=
  match insertEvent py iso log.enter.working event with
  | .ok rows => exit true { log.enter with working := rows }
  | .error _ => exit false log.enter

end AuditLog

/-- What callers do with the sink: they record events, within units of work to any depth. A unit of work
may end in an exception, which is caught outside of it. -/
inductive AuditWork (δ : Type)
  | record (event : ChainEvent δ)
  | block (body : List (AuditWork δ)) (raises : Bool)

mutual

def AuditWork.run : AuditWork δ → AuditLog → AuditLog
  | .record event, log => log.record py iso event
  | .block body raises, log => (AuditWork.runAll body log.enter).exit !raises

/-- One after the other. -/
def AuditWork.runAll : List (AuditWork δ) → AuditLog → AuditLog
  | [], log => log
  | work :: rest, log => AuditWork.runAll rest (work.run log)

end

/-! ## The verifier -/

/-- `json.loads` of what a column of texts holds; `ofBlob` is what it makes of `bytes`. -/
def loadsCell (floatOf : String → PyFloat) (ofBlob : String → Option Value) : AuditCell → Option Value
  | .null => none
  | .text text => jsonLoads floatOf text
  | .blob repr => ofBlob repr

variable (loads : AuditCell → Option Value)

/-- `datetime.fromisoformat(row["timestamp"])`. -/
def AuditRow.readTimestamp (row : AuditRow) : Except Err δ :=
  match row.timestamp with
  | .text text =>
    match iso.fromisoformat text with
    | some instant => .ok instant
    | none => .error (.valueError ("Invalid isoformat string: " ++ py.reprOf (.str text)))
  | _ => .error (.typeError "fromisoformat: argument must be str")

/-- `json.loads(row["metadata"])`, which takes a text or `bytes`. -/
def AuditRow.readMetadata (row : AuditRow) : Except Err Value :=
  match loads row.metadata with
  | some value => .ok value
  | none => .error (.other "JSONDecodeError" (pyStr py row.metadata.value))

/-- The event of a row. -/
def AuditRow.event (row : AuditRow) : Except Err (ChainEvent δ) := do
  let timestamp ← row.readTimestamp py iso
  let metadata ← row.readMetadata py loads
  pure {
    eventId := row.eventId
    requestId := row.requestId
    taskId := row.taskId
    timestamp := timestamp
    actor := row.actor
    component := row.component
    eventType := row.eventType
    action := row.action
    result := row.result
    metadata := .plain metadata }

def gapBreaks (row : AuditRow) (expectedNumber : ℤ) : List AuditChainBreak :=
  if row.sequenceNumber = some expectedNumber then []
  else [{
    sequenceNumber := some expectedNumber
    kind := .sequenceGap
    detail := "expected sequence_number " ++ toString expectedNumber ++ ", found " ++
      pyStr py (row.sequenceNumber.elim .none .int) ++ " — an event was deleted or " ++
      "the sequence was tampered with" }]

def linkBreaks (row : AuditRow) (expectedPrevHash : AuditCell) : List AuditChainBreak :=
  if row.prevHash = expectedPrevHash then []
  else [{
    sequenceNumber := row.sequenceNumber
    kind := .linkBroken
    detail := "stored prev_hash " ++ py.reprOf row.prevHash.value ++ " does not match the " ++
      "previous event's actual hash " ++ py.reprOf expectedPrevHash.value }]

def contentBreaks (row : AuditRow) (event : ChainEvent δ) : List AuditChainBreak :=
  if row.eventHash = .text (hashChainEvent py iso event row.prevHash) then []
  else [{
    sequenceNumber := row.sequenceNumber
    kind := .contentAltered
    detail := "stored event_hash " ++ py.reprOf row.eventHash.value ++ " does not match " ++
      "the hash recomputed from this row's own content " ++
      "(" ++ py.reprOf (.str (hashChainEvent py iso event row.prevHash)) ++
      ") — this row was modified after being written" }]

/-- What is wrong with one row. -/
def rowBreaks (row : AuditRow) (expectedPrevHash : AuditCell) (expectedNumber : ℤ) :
    Except Err (List AuditChainBreak) := do
  let event ← row.event py iso loads
  pure (gapBreaks py row expectedNumber ++ linkBreaks py row expectedPrevHash ++
    contentBreaks py iso row event)

/-- The loop of `verify_audit_chain`. -/
def chainBreaks : List AuditRow → (expectedPrevHash : AuditCell) → (expectedNumber : ℤ) →
    Except Err (List AuditChainBreak)
  | [], _, _ => .ok []
  | row :: rest, expectedPrevHash, expectedNumber => do
      let here ← rowBreaks py iso loads row expectedPrevHash expectedNumber
      let next ← row.nextNumber
      let later ← chainBreaks rest row.eventHash next
      pure (here ++ later)

/-- The rows as the verifier reads them (`ORDER BY sequence_number ASC`). -/
def inSequence (table : List AuditRow) : List AuditRow :=
  table.insertionSort fun a b => sequenceLe a.sequenceNumber b.sequenceNumber

def verifyAuditChain (table : List AuditRow) : Except Err AuditChainVerificationResult := do
  let breaks ← chainBreaks py iso loads (inSequence table) (.text genesisPrevHash) 1
  pure {
    valid := breaks.length = 0
    eventsChecked := (inSequence table).length
    breaks := breaks }

end Chain

end Shea.Model
