import Shea.Model.PlanRunner
import Shea.Model.Recovery

/-!
# A host to run the model on

Everything the model leaves to the surroundings, filled in with something small: a short checksum for
the hash function, a clock that counts seconds, and a machine with a fixed list of files
and of live pids; an adapter that does nothing and reports a fixed result; and services for a single
tool that takes notes. Counterexamples and witnesses run on these.
-/

set_option autoImplicit false

namespace Shea.Model

/-- A checksum of a text. -/
def checksum (text : String) : String :=
  toString (text.toList.foldl (fun sum c => (31 * sum + c.toNat) % 4294967296) 7)

/-- The number that stands in a text. -/
def decimal (text : String) : Option ℤ :=
  if text.toList.all Char.isDigit then
    some (text.toList.foldl (fun n c => 10 * n + (c.toNat - 48)) 0 : ℕ)
  else none

/-- A standard library with a checksum for a hash function. -/
def Stdlib.plain : Stdlib :=
  { sha256 := checksum
    hmacSha256 := fun secret message => secret ++ ":" ++ message
    floatRepr := fun _ => "0.0"
    strOf := fun _ => "<object>"
    reprOf := fun
      | .str text => "'" ++ text ++ "'"
      | _ => "<object>"
    isoformat := fun instant => toString instant
    pathText := fun text => text
    lower := fun text => String.ofList (text.toList.map Char.toLower)
    urlparse := fun _ => none
    ipAddress := fun _ => none
    reMatch := fun _ _ => some true
    fromisoformat := decimal }

/-- A machine with these files and these live processes. -/
def Probes.plain (files : List String) (pids : List ℤ) : Probes :=
  { resolve := fun path => .ok path
    pathExists := fun path => .ok (path ∈ files)
    isFile := fun path => .ok (path ∈ files)
    isSymlink := fun _ => .ok false
    parent := fun _ => "/"
    expanduser := fun path => path
    kill := fun pid => if pid ∈ pids then .ok () else .error .processLookup
    getcwd := .ok "/" }

/-- Identifiers `id`, `idi`, `idii`, … -/
def plainId (n : ℕ) : String := String.ofList ('i' :: 'd' :: List.replicate n 'i')

/-- INTERNAL: two draws give two identifiers. -/
theorem plainId_injective : Function.Injective plainId := by
  intro m n h
  have h' := congrArg (fun s : String => s.toList.length) h
  simpa [plainId] using h'

/-- The same machine at every instant. -/
def Host.plain (files : List String) (pids : List ℤ) : Host :=
  { py := .plain
    clock := fun n => n * 1000000
    newId := plainId
    newId_injective := plainId_injective
    probes := fun _ => .plain files pids }

/-- An adapter that supports everything and reports the same result each time. -/
def Adapter.fixed (name : String) (result : AdapterResult) : Adapter :=
  { name := name
    supports := fun _ => true
    invoke := fun _ _ _ => pure result
    outside := fun _ _ _ => trivial }

/-- A contract to write a file, as a caller of the supervisor may hand it in. -/
def writeContract (path : String) : ExecutionContract :=
  { contractId := "contract"
    authorizationId := "authorization"
    capability := "filesystem.write"
    operation := "filesystem.write"
    target := path
    metadata := [("path", .str path)] }

/-! ## A tool that takes notes -/

/-- The declaration of the tool. -/
def notesTool : ToolDeclaration := { name := "notes", capabilities := ["data.read"] }

/-- The tools, with a handler for the notes. -/
def notesRegistry (handler : ToolHandler) : ToolRegistry := { tools := [(notesTool, handler)] }

/-- An execution service for the notes. -/
def notesExecution (handler : ToolHandler) : ExecutionService :=
  { executor := { registry := notesRegistry handler, permitAuthority := { secret := "secret" } }
    supervisor := { adapters := [] }
    permits := { secret := "secret" } }

/-- A planning service that plans one note for every request that mentions one. -/
def notesPlanning (handler : ToolHandler) : PlanningService :=
  { parser := { matcher := { rules := [("note", { type := "note", goal := "take a note" })] } }
    templates := { templates := [("note", fun _ => .ok [{ tool := "notes", action := "add" }])] }
    tools := notesRegistry handler }

/-- The request of that plan's step. -/
def noteRequest : ToolRequest := { requestId := "request", tool := "notes", action := "add" }

/-- The first task of a database. -/
def firstTask (w : World) : Task :=
  w.committed.tasks.headD
    { id := ""
      sessionId := ""
      requestId := ""
      state := .created
      createdAt := 0
      updatedAt := 0 }

/-- The state after a plan for a note was made. -/
def plannedNote (host : Host) (handler : ToolHandler) : World :=
  ((notesPlanning handler).createAndPlan host { sessionId := "session", requestText := "note" } |>.run
    {}).2

/-- The state after the first task was authorized. -/
def authorizedNote (host : Host) (w : World) : World :=
  (DecisionService.evaluateAndAuthorize {} host (firstTask w) { capabilities := ["data.read"] } |>.run
    w).2

end Shea.Model
