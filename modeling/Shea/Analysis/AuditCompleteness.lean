import Shea.Analysis.JsonRoundTrip
import Shea.Analysis.TamperEvidence

/-!
# Which logs verify

The sink hashes the event that it is given; the verifier hashes the event that it reads back. The two
have the same payload when the datetime is read back as one with the same text, and `json.loads` gives back
the content of what `json.dumps` has written, in the same order. So a table to which only the sink has written
such events is a chain, whatever the units of work around it do. A datetime at an offset of less than a
second, or a key with a pair of surrogates in it, breaks the chain.
-/

set_option autoImplicit false

namespace Shea.Analysis

open Shea.Computation Shea.Model

/-- The event has the payload of what is read back of it: its timestamp has the text of the one that is read,
the keys of its metadata have the order of their texts, and no two of them have one text. -/
structure Rereadable {δ : Type} (iso : IsoFormat δ) (event : ChainEvent δ) : Prop where
  timestamp : ∃ other, iso.fromisoformat (iso.isoformat event.timestamp) = some other ∧
    iso.isoformat other = iso.isoformat event.timestamp
  order : KeepsOrder event.metadata
  keys : event.metadata.written.distinctKeys = true

mutual

/-- Every event that is recorded is one of these. -/
def RecordsOnly {δ : Type} (P : ChainEvent δ → Prop) : AuditWork δ → Prop
  | .record event => P event
  | .block body _ => RecordsOnlyAll P body

def RecordsOnlyAll {δ : Type} (P : ChainEvent δ → Prop) : List (AuditWork δ) → Prop
  | [] => True
  | work :: rest => RecordsOnly P work ∧ RecordsOnlyAll P rest

end

section Logs

variable {δ : Type} {py : Stdlib} {iso : IsoFormat δ} {floatOf : String → PyFloat}
  {ofBlob : String → Option Value}

/-! ## Events and tables -/

/-- INTERNAL: the row of an event is in its place.
SOURCE: persistence/sqlite/audit_sink.py:44-84, persistence/sqlite/audit_chain.py:42-102 -/
theorem intact_chainRow (hfloat : FloatsReadBack py floatOf) {event : ChainEvent δ}
    (hevent : Rereadable iso event) {metadata : String}
    (hmetadata : event.metadataText py = .ok metadata) (number : ℤ) (prevHash : AuditCell) :
    ∃ other, Intact py iso (loadsCell floatOf ofBlob) prevHash number
      (chainRow py iso event metadata number prevHash) other := by
  have hdumps : jsonDumps py event.metadata.written = some metadata := by
    unfold ChainEvent.metadataText at hmetadata
    cases h : jsonDumps py event.metadata.written with
    | none =>
      rw [h] at hmetadata
      cases hmetadata
    | some text =>
      rw [h] at hmetadata
      rw [Except.ok.inj hmetadata]
  obtain ⟨value, hvalue, hcanon⟩ := jsonLoads_jsonDumps hfloat hevent.keys hdumps
  obtain ⟨instant, hinstant, htext⟩ := hevent.timestamp
  let read : ChainEvent δ := { event with timestamp := instant, metadata := .plain value }
  refine ⟨read, ?_, rfl, rfl, ?_⟩
  · unfold AuditRow.event AuditRow.readTimestamp AuditRow.readMetadata
    simp only [chainRow, hinstant, loadsCell, hvalue]
    rfl
  · have hread : KeepsOrder read.metadata := trivial
    exact congrArg AuditCell.text (hashChainEvent_congr hfloat.toFloatTexts (b := read) hevent.order hread
      htext.symm hcanon.symm rfl prevHash)

/-- INTERNAL: the last of rows with ever larger numbers is the newest one. -/
theorem newestRow_concat {rows : List AuditRow} {row : AuditRow}
    (h : ∀ r ∈ rows, sequenceLe row.sequenceNumber r.sequenceNumber = false) :
    newestRow (rows ++ [row]) = some row := by
  unfold newestRow
  induction rows with
  | nil => rfl
  | cons r rest ih =>
    have hlast := ih fun r hr => h r (List.mem_cons_of_mem _ hr)
    rw [List.cons_append, List.insertionSort_cons]
    cases hsorted : (rest ++ [row]).insertionSort fun a b =>
        sequenceLe b.sequenceNumber a.sequenceNumber with
    | nil =>
      rw [hsorted] at hlast
      cases hlast
    | cons first others =>
      rw [hsorted] at hlast
      obtain rfl := Option.some.inj hlast
      have hno : ¬ sequenceLe first.sequenceNumber r.sequenceNumber = true := by
        rw [h r (List.mem_cons_self ..)]
        exact Bool.false_ne_true
      rw [List.orderedInsert, if_neg hno]
      rfl

variable (py iso floatOf ofBlob) in
/-- The table is a chain from the start. -/
def Chain (table : List AuditRow) : Prop :=
  ∃ events, Linked py iso (loadsCell floatOf ofBlob) (.text genesisPrevHash) 1 table events

/-- INTERNAL: the rows of a chain are numbered one after the other. -/
theorem number_of_linked {loads : AuditCell → Option Value} {prevHash : AuditCell} {number : ℤ}
    {rows : List AuditRow} {events : List (ChainEvent δ)}
    (h : Linked py iso loads prevHash number rows events) (i : ℕ) (hi : i < rows.length) :
    rows[i].sequenceNumber = some (number + i) := by
  induction rows generalizing prevHash number events i with
  | nil => cases hi
  | cons row rest ih =>
    cases events with
    | nil => exact h.elim
    | cons event events =>
      cases i with
      | zero => simpa using h.1.number
      | succ i =>
        have hrest := ih h.2 i (by simpa using hi)
        rw [List.getElem_cons_succ, hrest]
        congr 1
        push_cast
        omega

/-- INTERNAL: so they are in the order in which the verifier reads them. -/
theorem inSequence_of_linked {loads : AuditCell → Option Value} {prevHash : AuditCell} {number : ℤ}
    {rows : List AuditRow} {events : List (ChainEvent δ)}
    (h : Linked py iso loads prevHash number rows events) : inSequence rows = rows := by
  apply List.Pairwise.insertionSort_eq
  rw [List.pairwise_iff_getElem]
  intro i j hi hj hij
  rw [number_of_linked h i hi, number_of_linked h j hj]
  simp only [sequenceLe, decide_eq_true_eq]
  omega

/-- INTERNAL: the next event goes behind the last one.
SOURCE: persistence/sqlite/audit_sink.py:38-48 -/
theorem nextPlace_of_linked {loads : AuditCell → Option Value} {rows : List AuditRow}
    {events : List (ChainEvent δ)}
    (h : Linked py iso loads (.text genesisPrevHash) 1 rows events) :
    nextPlace rows = .ok (1 + rows.length, tipHash (.text genesisPrevHash) rows) := by
  cases rows using List.reverseRecOn with
  | nil => rfl
  | append_singleton rows row =>
    have hlength : rows.length < (rows ++ [row]).length := by simp
    have hnumber := number_of_linked h rows.length hlength
    rw [List.getElem_concat_length rfl] at hnumber
    have hnewest : newestRow (rows ++ [row]) = some row := by
      apply newestRow_concat
      intro r hr
      obtain ⟨i, hi, rfl⟩ := List.getElem_of_mem hr
      have hsmaller := number_of_linked h i (by rw [List.length_append]; omega)
      rw [List.getElem_append_left hi] at hsmaller
      rw [hnumber, hsmaller]
      simp only [sequenceLe, decide_eq_false_iff_not]
      omega
    unfold nextPlace
    rw [hnewest, tipHash_concat]
    simp only [AuditRow.nextNumber, hnumber, Except.map]
    rw [List.length_append]
    congr 2

/-- INTERNAL: what the sink makes of a chain is a chain.
SOURCE: persistence/sqlite/audit_sink.py:24-84 -/
theorem chain_insertEvent (hfloat : FloatsReadBack py floatOf)
    {table rows : List AuditRow} (hchain : Chain py iso floatOf ofBlob table) {event : ChainEvent δ}
    (hevent : Rereadable iso event) (h : insertEvent py iso table event = .ok rows) :
    Chain py iso floatOf ofBlob rows := by
  obtain ⟨events, hlinked⟩ := hchain
  unfold insertEvent at h
  rw [nextPlace_of_linked hlinked] at h
  cases hmetadata : event.metadataText py with
  | error e =>
    rw [hmetadata] at h
    cases h
  | ok metadata =>
    rw [hmetadata] at h
    simp only [bind, Except.bind] at h
    split at h
    · cases h
    split at h
    · cases h
    · obtain rfl := Except.ok.inj h
      obtain ⟨other, hother⟩ := intact_chainRow hfloat hevent hmetadata (1 + table.length)
        (tipHash (.text genesisPrevHash) table)
      exact ⟨events ++ [other], linked_concat_iff.mpr ⟨events, other, rfl, hlinked, hother⟩⟩

/-! ## Units of work and the events of the services -/

variable (py iso floatOf ofBlob) in
/-- What is committed is a chain, and what the connection reads is one. -/
structure BothChains (log : AuditLog) : Prop where
  committed : Chain py iso floatOf ofBlob log.committed
  working : Chain py iso floatOf ofBlob log.working

/-- INTERNAL: entering a block copies the chain that is stored. -/
theorem BothChains.enter {log : AuditLog} (h : BothChains py iso floatOf ofBlob log) :
    BothChains py iso floatOf ofBlob log.enter := ⟨h.committed, h.working⟩

/-- INTERNAL: an exit leaves the log, commits all that the connection reads or takes it all back. -/
theorem BothChains.exit {log : AuditLog} (h : BothChains py iso floatOf ofBlob log) (clean : Bool) :
    BothChains py iso floatOf ofBlob (log.exit clean) := by
  unfold AuditLog.exit
  split
  · exact ⟨h.committed, h.working⟩
  · split
    · exact ⟨h.working, h.working⟩
    · exact ⟨h.committed, h.committed⟩

/-- INTERNAL: a recorded event extends the chain of the open block. -/
theorem BothChains.record (hfloat : FloatsReadBack py floatOf) {log : AuditLog}
    (h : BothChains py iso floatOf ofBlob log) {event : ChainEvent δ} (hevent : Rereadable iso event) :
    BothChains py iso floatOf ofBlob (log.record py iso event) := by
  unfold AuditLog.record
  split
  · next rows hrows =>
    apply BothChains.exit
    exact ⟨h.committed, chain_insertEvent hfloat h.working hevent hrows⟩
  · exact h.enter.exit false

mutual

/-- INTERNAL: one piece of work keeps both chains. -/
theorem BothChains.run (hfloat : FloatsReadBack py floatOf) :
    ∀ (work : AuditWork δ) {log : AuditLog}, RecordsOnly (Rereadable iso) work →
      BothChains py iso floatOf ofBlob log → BothChains py iso floatOf ofBlob (work.run py iso log)
  | .record _, _, hworks, h => by
    rw [AuditWork.run]
    exact h.record hfloat hworks
  | .block body raises, _, hworks, h => by
    rw [AuditWork.run]
    exact (BothChains.runAll hfloat body hworks h.enter).exit !raises

/-- INTERNAL: and so does any work, by induction on its pieces. -/
theorem BothChains.runAll (hfloat : FloatsReadBack py floatOf) :
    ∀ (works : List (AuditWork δ)) {log : AuditLog}, RecordsOnlyAll (Rereadable iso) works →
      BothChains py iso floatOf ofBlob log →
      BothChains py iso floatOf ofBlob (AuditWork.runAll py iso works log)
  | [], _, _, h => by
    rw [AuditWork.runAll]
    exact h
  | work :: rest, _, hworks, h => by
    rw [AuditWork.runAll]
    exact BothChains.runAll hfloat rest hworks.2 (BothChains.run hfloat work hworks.1 h)

end

/-- Whatever events are recorded within whatever units of work, if each can be read back, the verifier finds
the table that is committed valid, and has checked each of its events.
SOURCE: persistence/sqlite/audit_sink.py:24-84, persistence/sqlite/audit_chain.py:11-108 -/
theorem audit_log_verifies (hfloat : FloatsReadBack py floatOf) (works : List (AuditWork δ))
    (hworks : RecordsOnlyAll (Rereadable iso) works) :
    verifyAuditChain py iso (loadsCell floatOf ofBlob) (AuditWork.runAll py iso works {}).committed =
      .ok {
        valid := true
        eventsChecked := (AuditWork.runAll py iso works {}).committed.length
        breaks := [] } := by
  have hempty : Chain py iso floatOf ofBlob [] := ⟨[], trivial⟩
  have hboth : BothChains py iso floatOf ofBlob {} := ⟨hempty, hempty⟩
  obtain ⟨events, hlinked⟩ := (hboth.runAll hfloat works hworks).committed
  have hnone := chainBreaks_iff.mpr ⟨events, hlinked⟩
  unfold verifyAuditChain
  rw [inSequence_of_linked hlinked, hnone]
  rfl

end Logs

section Services

variable {py : Stdlib}

variable (py) in
/-- The datetimes of the services, instants in UTC. -/
def instants : IsoFormat Time := { isoformat := py.isoformat, fromisoformat := py.fromisoformat }

/-- An event of the services, as the sink is given it. -/
def chainEventOf (event : AuditEvent) : ChainEvent Time :=
  { eventId := .text event.eventId
    requestId := .ofOption event.requestId
    taskId := .ofOption event.taskId
    timestamp := event.timestamp
    actor := .text event.actor
    component := .text event.component
    eventType := .text event.eventType
    action := .text event.action
    result := .text event.result
    metadata := .plain (.dict event.metadata) }

variable (py) in
/-- The row of an event that has its place in the chain. -/
def rowOf (event : AuditEvent) : AuditRow :=
  { chainRow py (instants py) (chainEventOf event)
      ((jsonDumps py (.dict event.metadata)).getD "") event.sequenceNumber (.text event.prevHash) with
    eventHash := .text event.eventHash }

/-- INTERNAL: the cell of an optional text reads back as that text. -/
theorem value_ofOption (value : Option String) : (AuditCell.ofOption value).value = .ofOption value := by
  cases value <;> rfl

/-- INTERNAL: the sink of the services hashes the event as this one does.
SOURCE: audit/chain.py:42-60 -/
theorem hashChainEvent_chainEventOf (event : AuditEvent) (prevHash : String) :
    hashChainEvent py (instants py) (chainEventOf event) (.text prevHash) =
      hashAuditEvent py event prevHash := by
  have hkeeps : KeepsOrder (chainEventOf event).metadata := trivial
  rw [hashChainEvent_eq hkeeps]
  unfold payloadWritten auditPayload chainEventOf
  simp only [List.map_cons, List.map_nil, AuditMetadata.written, value_ofOption]
  rfl

/-- INTERNAL: the newest row is the row of the newest event. -/
theorem newestRow_rowOf (t : Tables) :
    newestRow (t.auditEvents.map (rowOf py)) = (AuditSink.tip t).map (rowOf py) := by
  unfold newestRow AuditSink.tip
  rw [← List.head?_map]
  apply congrArg List.head?
  symm
  apply List.map_insertionSort
  intro a _ b _
  simp [rowOf, chainRow, sequenceLe]

/-- The sink of the services puts the row into the table that the statements of `record` put there.
SOURCE: persistence/sqlite/audit_sink.py:24-84 -/
theorem insertEvent_rowOf (t : Tables) (event : AuditEvent) {text : String}
    (htext : jsonDumps py (.dict event.metadata) = some text)
    (hnew : t.auditEvents.any (·.eventId = event.eventId) = false) :
    insertEvent py (instants py) (t.auditEvents.map (rowOf py)) (chainEventOf event) =
      .ok ((t.auditEvents ++ [AuditSink.chained py t event]).map (rowOf py)) := by
  have hplace : nextPlace (t.auditEvents.map (rowOf py)) =
      .ok (((AuditSink.chained py t event).sequenceNumber : ℤ),
        .text (AuditSink.chained py t event).prevHash) := by
    unfold nextPlace
    rw [newestRow_rowOf]
    cases htip : AuditSink.tip t with
    | none => simp [AuditSink.chained, htip]
    | some tip => simp [AuditSink.chained, htip, AuditRow.nextNumber, rowOf, chainRow, Except.map]
  have hmetadata : (chainEventOf event).metadataText py = .ok text := by
    unfold ChainEvent.metadataText chainEventOf
    simp only [AuditMetadata.written, htext]
  have hrequired : (chainEventOf event).required.find? (·.2 = .null) = none := rfl
  have hfresh : (decide ((chainEventOf event).eventId ≠ .null) &&
      (t.auditEvents.map (rowOf py)).any (·.eventId = (chainEventOf event).eventId)) = false := by
    rw [List.any_map, ← hnew]
    simp [chainEventOf, rowOf, chainRow, Function.comp_def]
  unfold insertEvent
  rw [hplace, hmetadata]
  simp only [bind, Except.bind, hrequired, hfresh]
  rw [List.map_append, List.map_singleton]
  have hrow : rowOf py (AuditSink.chained py t event) =
      chainRow py (instants py) (chainEventOf event) text (AuditSink.chained py t event).sequenceNumber
        (.text (AuditSink.chained py t event).prevHash) := by
    have htext' : jsonDumps py (.dict (AuditSink.chained py t event).metadata) = some text := htext
    simp only [rowOf, chainRow, htext', hashChainEvent_chainEventOf]
    rfl
  rw [hrow]
  rfl

end Services

/-! ## Examples -/

/-- A note with a key of its own. -/
def recordNote (eventId : String) : AuditWork String :=
  .record { noteTaken (.text "user") (.dict [("size", .int 2), ("kind", .str "a")]) with
    eventId := .text eventId }

/-- The second note is recorded in a unit of work that fails within another one; the third in one that
fails on its own. -/
def nestedNotes : List (AuditWork String) :=
  [.block [recordNote "first", .block [recordNote "second"] true] false,
    .block [recordNote "third"] true]

/-- INTERNAL: the tagged writing of floats can be read back. -/
theorem floatsReadBack_tagged : FloatsReadBack tagged floatOfText :=
  floatsReadBack_floatText { Stdlib.plain with sha256 := marked }

/-- INTERNAL: a note without surrogates, with a datetime that is known by its text. -/
theorem rereadable_note (eventId : String) :
    RecordsOnly (Rereadable textDates) (recordNote eventId) :=
  ⟨⟨_, rfl, rfl⟩, trivial, rfl⟩

/-- Two events are committed, and the log of them verifies. -/
theorem nested_notes_verify :
    verifyAuditChain tagged textDates loadsText
      (AuditWork.runAll tagged textDates nestedNotes {}).committed = .ok ⟨true, 2, []⟩ := by
  have hlength : (AuditWork.runAll tagged textDates nestedNotes {}).committed.length = 2 := by
    decide +kernel
  have hworks : RecordsOnlyAll (Rereadable textDates) nestedNotes :=
    ⟨⟨rereadable_note "first", ⟨rereadable_note "second", trivial⟩, trivial⟩,
      ⟨rereadable_note "third", trivial⟩, trivial⟩
  rw [← hlength]
  exact audit_log_verifies floatsReadBack_tagged nestedNotes hworks

/-- A time zone: UTC, or half a second ahead of it. -/
inductive Zone
  | utc
  | halfSecond

/-- New Year in a time zone. `fromisoformat` takes an offset of less than a second for UTC. -/
def zonedYear : IsoFormat Zone where
  isoformat
    | .utc => "2026-01-01T00:00:00+00:00"
    | .halfSecond => "2026-01-01T00:00:00+00:00:00.500000"
  fromisoformat text :=
    if text = "2026-01-01T00:00:00+00:00" ∨ text = "2026-01-01T00:00:00+00:00:00.500000" then some .utc
    else none

/-- The note, taken at New Year of the time zone ahead of UTC. -/
def earlyNote : ChainEvent Zone :=
  { noteTaken (.text "user") (.dict []) with timestamp := .halfSecond }

/-- The note, with a key in two surrogates beside one above them. -/
def pairedNote : ChainEvent String :=
  { noteTaken (.text "user") (.dict []) with
    metadata := .dict [([(Char.ofNat 0x1f600, true)], .plain (.int 1)),
      ([(Char.ofNat 0xe000, false)], .plain (.int 2))] }

/-- Its metadata in the row. -/
def pairedText : String := "\x7b\"\\ud83d\\ude00\": 1, \"\\ue000\": 2\x7d"

/-- INTERNAL: the verdict on a row that is the first of its chain, but does not have the hash of what is read
from it. -/
theorem altered_of_ne {δ : Type} {py : Stdlib} {iso : IsoFormat δ} {loads : AuditCell → Option Value}
    {row : AuditRow} {event : ChainEvent δ} (hread : row.event py iso loads = .ok event)
    (hnumber : row.sequenceNumber = some 1) (hprev : row.prevHash = .text genesisPrevHash)
    (hne : row.eventHash ≠ .text (hashChainEvent py iso event row.prevHash)) :
    (verifyAuditChain py iso loads [row]).toOption.map
      (fun report => (report.valid, report.eventsChecked, report.breaks.map AuditChainBreak.kind)) =
        some (false, 1, [.contentAltered]) := by
  have hone : inSequence [row] = [row] := rfl
  have hnext : row.nextNumber = .ok 2 := by
    unfold AuditRow.nextNumber
    rw [hnumber]
    rfl
  unfold verifyAuditChain
  rw [hone, chainBreaks, rowBreaks, hread, hnext]
  simp only [bind, Except.bind, pure, Except.pure, gapBreaks_iff.mpr hnumber, linkBreaks_iff.mpr hprev,
    contentBreaks, if_neg hne]
  rfl

/-- An event that is read back as one with another hash is found altered when it was the only one to be
recorded. -/
theorem altered_of_record {δ : Type} {py : Stdlib} {iso : IsoFormat δ} {loads : AuditCell → Option Value}
    {event read : ChainEvent δ} {text : String} (htext : event.metadataText py = .ok text)
    (hrequired : event.required.find? (·.2 = .null) = none)
    (hread : (chainRow py iso event text 1 (.text genesisPrevHash)).event py iso loads = .ok read)
    (hne : hashChainEvent py iso event (.text genesisPrevHash) ≠
      hashChainEvent py iso read (.text genesisPrevHash)) :
    (verifyAuditChain py iso loads (AuditWork.runAll py iso [.record event] {}).committed).toOption.map
      (fun report => (report.valid, report.eventsChecked, report.breaks.map AuditChainBreak.kind)) =
        some (false, 1, [.contentAltered]) := by
  have hinsert : insertEvent py iso [] event =
      .ok [chainRow py iso event text 1 (.text genesisPrevHash)] := by
    have hplace : nextPlace [] = .ok (1, .text genesisPrevHash) := rfl
    unfold insertEvent
    rw [hplace, htext]
    simp only [bind, Except.bind, hrequired, List.any_nil, Bool.and_false]
    rfl
  have hrows : (AuditWork.runAll py iso [.record event] {}).committed =
      [chainRow py iso event text 1 (.text genesisPrevHash)] := by
    unfold AuditWork.runAll AuditWork.run AuditLog.record
    simp only [AuditLog.enter, hinsert]
    rfl
  rw [hrows]
  exact altered_of_ne hread rfl rfl fun h => hne (AuditCell.text.inj h)

/-- Both are recorded; the verifier finds either of them altered. -/
theorem recorded_note_altered :
    (verifyAuditChain tagged zonedYear loadsText
        (AuditWork.runAll tagged zonedYear [.record earlyNote] {}).committed).toOption.map
      (fun report => (report.valid, report.eventsChecked, report.breaks.map AuditChainBreak.kind)) =
        some (false, 1, [.contentAltered]) ∧
    (verifyAuditChain tagged textDates loadsText
        (AuditWork.runAll tagged textDates [.record pairedNote] {}).committed).toOption.map
      (fun report => (report.valid, report.eventsChecked, report.breaks.map AuditChainBreak.kind)) =
        some (false, 1, [.contentAltered]) := by
  constructor
  · have hloads : jsonLoads floatOfText "\x7b\x7d" = some (.dict []) := by decide +kernel
    have hread : (chainRow tagged zonedYear earlyNote "\x7b\x7d" 1 (.text genesisPrevHash)).event tagged
        zonedYear loadsText = .ok { earlyNote with timestamp := .utc } := by
      unfold AuditRow.event AuditRow.readTimestamp AuditRow.readMetadata
      simp only [chainRow, loadsText, loadsCell, hloads]
      rfl
    refine altered_of_record rfl rfl hread fun h => ?_
    exact absurd (chainHash_tagged.sha256 h) (by decide +kernel)
  · have htext : pairedNote.metadataText tagged = .ok pairedText := by
      have hdumps : jsonDumps tagged pairedNote.metadata.written = some pairedText := by decide +kernel
      unfold ChainEvent.metadataText
      rw [hdumps]
    have hloads : jsonLoads floatOfText pairedText = some pairedNote.metadata.written := by decide +kernel
    have hread : (chainRow tagged textDates pairedNote pairedText 1 (.text genesisPrevHash)).event tagged
        textDates loadsText = .ok { pairedNote with metadata := .plain pairedNote.metadata.written } := by
      unfold AuditRow.event AuditRow.readTimestamp AuditRow.readMetadata
      simp only [chainRow, loadsText, loadsCell, hloads]
      rfl
    refine altered_of_record htext rfl hread fun h => ?_
    exact absurd (chainHash_tagged.sha256 h) (by decide +kernel)

end Shea.Analysis
