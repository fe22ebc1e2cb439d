import Mathlib.Data.List.Sort
import Shea.Model.JsonReader
import Shea.Model.World

/-!
# The history of a chat

`save_event` and `get_history` of `persistence/sqlite/chat_repository.py`, on the rows of `chat_events` in
the order of their insertion.

`json.loads` is a parameter, as it can also raise what is no `JSONDecodeError`, and so is the order that
SQLite has for the column `created_at`. Rows that it does not tell apart come as they were inserted: the
index by session and time has them so.
-/

set_option autoImplicit false

namespace Shea.Model

/-- `str | dict[str, Any]`. -/
inductive ChatContent
  | text (text : String)
  | object (entries : Dict)

/-- The arguments of `save_event`. -/
structure ChatEvent where
  eventId : String
  sessionId : String
  source : String
  eventType : String
  content : ChatContent
  createdAt : String

/-- A row of `chat_events`. -/
structure ChatRow where
  id : String
  sessionId : String
  source : String
  eventType : String
  content : String
  createdAt : String
  deriving DecidableEq, Repr

/-- An entry of the history. -/
structure HistoryEntry where
  id : String
  source : String
  eventType : String
  content : Value
  createdAt : String

/-- What comes of `json.loads(text)`. -/
inductive LoadsOutcome
  | value (value : Value)
  | jsonDecodeError
  | raised (error : Err)

namespace SqliteChatRepository

section Save

variable (py : Stdlib)

/-- `json.dumps(content) if isinstance(content, dict) else content`. -/
def contentStr : ChatContent → Option String
  | .text text => some text
  | .object entries => jsonDumps py (.dict entries)

def saveEvent (rows : List ChatRow) (event : ChatEvent) : Except Err (List ChatRow) :=
  match contentStr py event.content with
  | none => .error (.typeError "Object is not JSON serializable")
  | some text =>
    if rows.any (·.id = event.eventId) then
      .error (.integrityError "UNIQUE constraint failed: chat_events.id")
    else
      .ok (rows ++ [
        { id := event.eventId
          sessionId := event.sessionId
          source := event.source
          eventType := event.eventType
          content := text
          createdAt := event.createdAt }])

/-- Calls of `save_event`, one after the other. -/
def saveEvents : List ChatRow → List ChatEvent → Except Err (List ChatRow)
  | rows, [] => .ok rows
  | rows, event :: events =>
    match saveEvent py rows event with
    | .ok rows => saveEvents rows events
    | .error error => .error error

end Save

section History

variable (loads : String → LoadsOutcome) (timeLe : String → String → Bool)

/-- `json.loads(content_str)`, or the text itself. -/
def historyContent (text : String) : Except Err Value :=
  match loads text with
  | .value value => .ok value
  | .jsonDecodeError => .ok (.str text)
  | .raised error => .error error

def historyEntry (row : ChatRow) : Except Err HistoryEntry :=
  (historyContent loads row.content).map fun content =>
    { id := row.id
      source := row.source
      eventType := row.eventType
      content := content
      createdAt := row.createdAt }

/-- The rows of the session, `ORDER BY created_at ASC`. -/
def sessionRows (rows : List ChatRow) (sessionId : String) : List ChatRow :=
  (rows.filter (·.sessionId = sessionId)).insertionSort fun a b => timeLe a.createdAt b.createdAt

def getHistory (rows : List ChatRow) (sessionId : String) : Except Err (List HistoryEntry) :=
  (sessionRows timeLe rows sessionId).mapM (historyEntry loads)

end History

end SqliteChatRepository

end Shea.Model
