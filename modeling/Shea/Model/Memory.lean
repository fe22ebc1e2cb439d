import Mathlib.Algebra.Order.Ring.Rat
import Mathlib.Order.WithBot
import Shea.Computation.Table
import Shea.Model.Planning

/-!
# The memory subsystem

`memory/contracts.py`, `persistence/sqlite/memory_repository.py`, `persistence/vector/fts_adapter.py`,
`memory/retrieval/ranking.py`, `memory/service.py`, `memory/lifecycle/expiration.py` and
`memory/broker.py`.

The state is the table of the memories and the rows of the text index; a step is a committed
transaction, a search, or a look at the clock. What SQLite's full-text search makes of a query is a
parameter, as are the Unicode functions and the rounded arithmetic of floats. A float is kept as the
rational it stands for or as an infinity: the column refuses a NaN, and the broker clamps a proposed
one to 1.
-/

set_option autoImplicit false

namespace Shea.Model

open Shea.Computation

/-- A float that is a number. -/
abbrev Score := WithBot (WithTop ℚ)

/-- A finite one. -/
def scoreOf (x : ℚ) : Score := WithBot.some (WithTop.some x)

/-! ## Memories and their stores -/

inductive MemoryType
  | conversation
  | fact
  | preference
  | skill
  | observation
  deriving DecidableEq, Repr

inductive MemoryStatus
  | active
  | expired
  | deleted
  deriving DecidableEq, Repr

inductive Sensitivity
  | «public»
  | internal
  | sensitive
  | restricted
  deriving DecidableEq, Repr

structure Memory where
  id : String
  profileId : String
  type : MemoryType
  content : String
  source : String
  provenance : String
  createdAt : Time
  updatedAt : Option Time := none
  expiresAt : Option Time := none
  confidence : Score := scoreOf 1
  sensitivity : Sensitivity := .internal
  status : MemoryStatus := .active
  deriving DecidableEq, Repr

structure RetrievalResult where
  memory : Memory
  score : Score
  deriving DecidableEq, Repr

inductive ResolutionOutcome
  | duplicate
  | update
  | distinct
  deriving DecidableEq, Repr

structure MemoryProposal where
  profileId : String
  type : MemoryType
  content : String
  source : String
  taskId : Option String
  requestId : Option String
  baseConfidence : Score := scoreOf (1 / 2)
  deriving DecidableEq, Repr

/-- A row of `memory_fts`. -/
structure FtsRow where
  id : String
  content : String
  profileId : String
  deriving DecidableEq, Repr

structure MemoryStores where
  memories : List Memory := []
  index : List FtsRow := []
  ticks : ℕ := 0
  nextId : ℕ := 0
  modelCalls : ℕ := 0

/-- The full-text search of SQLite: which queries it can parse, which contents match one, and how it
ranks a row among all of them (smaller is better). -/
structure FtsEngine where
  parses : (query : String) → Bool
  matchesContent : (query content : String) → Bool
  bm25 : (index : List FtsRow) → (query : String) → FtsRow → ℚ

/-- The surroundings of the memory subsystem. -/
structure MemoryHost extends Host where
  fts : FtsEngine
  /-- `text.upper()`. -/
  upper : String → String
  /-- `c.isalnum()`. -/
  isAlnum : Char → Bool
  /-- `x * y` and `x - y` of floats. -/
  mul : Score → Score → Score
  sub : Score → Score → Score
  /-- `model.generate(prompt)`, by the number of the call. -/
  judge : (prompt : String) → (call : ℕ) → Except Err ModelResponse

/-- A computation on the stores. -/
abbrev MemoryProc := Program MemoryStores Err

namespace MemoryRepository

/-- The columns `ON CONFLICT(id) DO UPDATE` sets: all but the profile and the time of creation. -/
def merge (old new : Memory) : Memory :=
  { new with id := old.id, profileId := old.profileId, createdAt := old.createdAt }

def save (memory : Memory) : MemoryProc Unit :=
  .modify fun s => { s with memories := Table.upsert Memory.id merge memory s.memories }

/-- `get`, on the stores. -/
def ofStores (s : MemoryStores) (memoryId : String) : Option Memory :=
  Table.lookup Memory.id s.memories memoryId

end MemoryRepository

namespace FtsVectorStore

/-- Delete the row of the id, insert it anew. -/
def upsert (memoryId content profileId : String) : MemoryProc Unit :=
  .modify fun s => { s with
    index := s.index.filter (·.id ≠ memoryId) ++ [⟨memoryId, content, profileId⟩] }

/-- Letters and digits stay, everything else becomes a space. -/
def safeQuery (host : MemoryHost) (query : String) : List Char :=
  strip (query.toList.map fun c => if host.isAlnum c then c else ' ')

/-- `" OR ".join(f"{word}*" for word in safe_query.split())`. -/
def matchQuery (safe : List Char) : String :=
  String.intercalate " OR " (((safe.splitOnP isSpace).filter (· ≠ [])).map fun word =>
    String.ofList word ++ "*")

/-- `LIMIT`: a negative one is none. -/
def limited {α : Type} (rows : List α) (limit : ℤ) : List α :=
  if 0 ≤ limit then rows.take limit.toNat else rows

/-- `search`, on the stores: the ids that match, best first, with their similarity. An empty profile
does not filter. -/
def searchIn (host : MemoryHost) (s : MemoryStores) (query : String) (limit : ℤ)
    (profileId : String) : Except Err (List (String × Score)) :=
  let safe := safeQuery host query
  if safe.isEmpty then .ok []
  else
    let text := matchQuery safe
    if host.fts.parses text then
      let found := s.index.filter fun row =>
        host.fts.matchesContent text row.content && (profileId = "" || row.profileId = profileId)
      let score := host.fts.bm25 s.index text
      .ok ((limited (found.insertionSort fun a b => score a ≤ score b) limit).map fun row =>
        (row.id, scoreOf |score row|))
    else .error (.osError "fts5: syntax error")

end FtsVectorStore

/-! ## Retrieval -/

namespace HybridMemoryRetriever

/-- A hit, joined with the stored memory of its id; hits without one, or with one of another profile,
are dropped. -/
def rehydrate (host : MemoryHost) (s : MemoryStores) (profileId : String) (hit : String × Score) :
    Option RetrievalResult :=
  match MemoryRepository.ofStores s hit.1 with
  | none => none
  | some memory =>
    if memory.profileId = profileId then
      some { memory := memory, score := host.mul hit.2 memory.confidence }
    else none

/-- The hits of the profile, before they are ranked. -/
def candidates (host : MemoryHost) (s : MemoryStores) (query profileId : String) (limit : ℤ) :
    Except Err (List RetrievalResult) :=
  (FtsVectorStore.searchIn host s query (limit * 2) profileId).map fun hits =>
    hits.filterMap (rehydrate host s profileId)

/-- `retrieve`, on the stores. -/
def retrieveIn (host : MemoryHost) (s : MemoryStores) (query profileId : String) (limit : ℤ) :
    Except Err (List RetrievalResult) :=
  (candidates host s query profileId limit).map fun results =>
    sliceTo (results.insertionSort fun a b => b.score ≤ a.score) limit

end HybridMemoryRetriever

/-! ## The service -/

namespace MemoryService

def store (memory : Memory) : MemoryProc Unit := do
  MemoryRepository.save memory
  FtsVectorStore.upsert memory.id memory.content memory.profileId

def retrieve (host : MemoryHost) (query profileId : String) (limit : ℤ := 5) :
    MemoryProc (List RetrievalResult) := do
  let results ← Program.get fun s => HybridMemoryRetriever.retrieveIn host s query profileId limit
  Program.ofExcept results

def delete (memoryId : String) : MemoryProc Unit := do
  Program.modify fun s => { s with index := s.index.filter (·.id ≠ memoryId) }
  Program.modify fun s => { s with memories := s.memories.filter (·.id ≠ memoryId) }

end MemoryService

/-- `clock.now()`. -/
def memoryNow (host : MemoryHost) : MemoryProc Time :=
  .act (fun s => host.clock s.ticks) (fun s => { s with ticks := s.ticks + 1 })

namespace MemoryLifecycleEnforcer

/-- Time stamps are compared as texts. -/
def expires (host : MemoryHost) (now : Time) (memory : Memory) : Bool :=
  memory.status = .active &&
    memory.expiresAt.any fun at_ => host.py.isoformat at_ ≤ host.py.isoformat now

def expireMemories (host : MemoryHost) : MemoryProc ℕ := do
  let now ← memoryNow host
  Program.act (fun s => s.memories.countP (expires host now)) fun s => { s with
    memories := s.memories.map fun memory =>
      if expires host now memory then { memory with status := .expired } else memory }

def purgeDeletedMemories : MemoryProc ℕ :=
  .act (fun s => s.memories.countP (·.status = .deleted)) fun s => { s with
    memories := s.memories.filter (·.status ≠ .deleted) }

end MemoryLifecycleEnforcer

/-! ## The broker -/

namespace MemoryBroker

def analyzeSensitivity (host : MemoryHost) (content : String) : Sensitivity :=
  let text := host.py.lower content
  if ["bearer ", "sk-", "password", "secret"].any (containsText text) then .restricted
  else if ["email", "phone", "address"].any (containsText text) then .sensitive
  else .internal

/-- The float `0.2`. -/
def fifth : Score := scoreOf (3602879701896397 / 18014398509481984)

/-- The float `0.8`. -/
def fourFifths : Score := scoreOf (3602879701896397 / 4503599627370496)

def computeConfidence (host : MemoryHost) (proposal : MemoryProposal) (sensitivity : Sensitivity) :
    Score :=
  let confidence :=
    if (sensitivity = .restricted ∨ sensitivity = .sensitive) ∧ proposal.source = "llm_extraction"
    then host.sub proposal.baseConfidence fifth else proposal.baseConfidence
  max (scoreOf 0) (min (scoreOf 1) confidence)

/-- `timedelta(days=days)`. -/
def ofDays (days : ℤ) : Time := days * 86400 * 1000000

def computeExpiration (host : MemoryHost) (type : MemoryType) : MemoryProc (Option Time) := do
  let now ← memoryNow host
  pure (match type with
    | .fact => some (now + ofDays 90)
    | .observation => some (now + ofDays 7)
    | _ => none)

def conflictPrompt (oldContent newContent : String) : String :=
  "Given the old memory and the new proposed memory, determine the relationship.\n" ++
  "Old Memory: " ++ oldContent ++ "\n" ++
  "New Memory: " ++ newContent ++ "\n\n" ++
  "Return a JSON object with a single key 'resolution' that is one of:\n" ++
  "- 'DUPLICATE': The new memory is semantically identical to the old one.\n" ++
  "- 'UPDATE': The new memory contradicts or supersedes the old memory (e.g. preference changed).\n" ++
  "- 'DISTINCT': They are different and both should be kept.\n"

/-- `ResolutionOutcome(value)`, with `DISTINCT` for a value that is none. -/
def outcomeOf (value : Value) : ResolutionOutcome :=
  if value = .str "DUPLICATE" then .duplicate
  else if value = .str "UPDATE" then .update
  else .distinct

/-- The model's answer: structured data go first, else the text is searched for the two words. -/
def outcomeOfResponse (host : MemoryHost) (response : ModelResponse) :
    Except Err ResolutionOutcome :=
  if response.structuredData.truthy then
    match response.structuredData with
    | .dict entries => .ok (outcomeOf ((entries.lookup "resolution").getD (.str "DISTINCT")))
    | _ => .error (.typeError "object has no attribute 'get'")
  else if containsText (host.upper response.content) "DUPLICATE" then .ok .duplicate
  else if containsText (host.upper response.content) "UPDATE" then .ok .update
  else .ok .distinct

/-- The loop over the candidates: the first one that the model does not hold to be distinct. -/
def judgeAll (host : MemoryHost) (content : String) :
    List Memory → MemoryProc (ResolutionOutcome × Option Memory)
  | [] => pure (.distinct, none)
  | old :: rest => do
    let response ← Program.act
      (fun s => host.judge (conflictPrompt old.content content) s.modelCalls)
      fun s => { s with modelCalls := s.modelCalls + 1 }
    let response ← Program.ofExcept response
    let outcome ← Program.ofExcept (outcomeOfResponse host response)
    if outcome = .duplicate ∨ outcome = .update then pure (outcome, some old)
    else judgeAll host content rest

/-- The results that may conflict with a proposal. -/
def conflictCandidates (proposal : MemoryProposal) (similar : List RetrievalResult) : List Memory :=
  (similar.filter fun r => fourFifths < r.score ∧ r.memory.type = proposal.type).map
    RetrievalResult.memory

def resolveConflicts (host : MemoryHost) (proposal : MemoryProposal) :
    MemoryProc (ResolutionOutcome × Option Memory) := do
  let similar ← MemoryService.retrieve host proposal.content proposal.profileId 3
  judgeAll host proposal.content (conflictCandidates proposal similar)

/-- `proposal.request_id or proposal.task_id`. -/
def provenanceOf (proposal : MemoryProposal) : Option String :=
  if proposal.requestId.any (· ≠ "") then proposal.requestId else proposal.taskId

/-- The new memory of a proposal. -/
def memoryOf (proposal : MemoryProposal) (id provenance : String) (now : Time)
    (expiresAt : Option Time) (confidence : Score) (sensitivity : Sensitivity) : Memory :=
  { id := id
    profileId := proposal.profileId
    type := proposal.type
    content := proposal.content
    source := proposal.source
    provenance := provenance
    createdAt := now
    updatedAt := some now
    expiresAt := expiresAt
    confidence := confidence
    sensitivity := sensitivity
    status := .active }

/-- What is done about the old memory; the result says whether the new one is still to be stored. -/
def applyResolution (now : Time) : ResolutionOutcome → Option Memory → MemoryProc Bool
  | .duplicate, some old => do
    MemoryService.store { old with updatedAt := some now }
    pure false
  | .update, some old => do
    MemoryService.store { old with status := .expired, updatedAt := some now }
    pure true
  | _, _ => pure true

def propose (host : MemoryHost) (proposal : MemoryProposal) : MemoryProc Unit :=
  match provenanceOf proposal with
  | none => pure ()
  | some provenance => do
    let sensitivity := analyzeSensitivity host proposal.content
    let confidence := computeConfidence host proposal sensitivity
    let expiresAt ← computeExpiration host proposal.type
    let (resolution, old) ← resolveConflicts host proposal
    let now ← memoryNow host
    if ← applyResolution now resolution old then
      let id ← Program.act (fun s => host.newId s.nextId) fun s => { s with nextId := s.nextId + 1 }
      MemoryService.store
        (memoryOf proposal id provenance now expiresAt confidence sensitivity)

end MemoryBroker

end Shea.Model
