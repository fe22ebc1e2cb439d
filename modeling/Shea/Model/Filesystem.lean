import Shea.Computation.FileTree
import Shea.Model.AppContracts
import Shea.Model.Security
import Shea.Model.Verification

/-!
# Files

`app/adapters/filesystem_local.py`, `tools/builtin/filesystem.py` and `realpath_under_roots` of
`security/runtime_checks.py`, with the functions of `pathlib` and `shutil` they call, on a POSIX system.

The state is the tree of the files. Each call of the system is one step, and the system may refuse
any of them with an `OSError`; a file is written in pieces, each of them a call of its own. What a file
holds is its bytes, so that reading a text back decodes it and translates its line ends. No file has a
second name: there are no hard links. A text has no lone surrogates, and resolving a path that leads into
a cycle of links raises (as in Python up to 3.12).
-/

set_option autoImplicit false

namespace Shea.Model

open Shea.Computation

/-! ## Names and paths -/

/-- Neither empty nor one of the names with a meaning of their own, and without a slash or a NUL. -/
def isFileName (text : String) : Bool :=
  text ≠ "" && text ≠ "." && text ≠ ".." && !text.toList.contains '/' && !text.toList.contains '\x00'

/-- A name in a directory. -/
structure FileName where
  text : String
  valid : isFileName text = true
  deriving DecidableEq, Repr

abbrev Place := Location FileName

abbrev Files := FileTree FileName UInt8

abbrev FileProc := Program Files Err

/-- The hop a component of a path stands for. -/
def hopOf (component : String) : Option (Hop FileName) :=
  if h : isFileName component = true then some (.down ⟨component, h⟩)
  else if component = ".." then some .up
  else none

def hopsOf (path : String) : List (Hop FileName) := (splitSlash path.toList []).filterMap hopOf

/-- `str(path)` of a resolved path. -/
def placeText (place : Place) : String :=
  "/" ++ String.intercalate "/" (place.reverse.map FileName.text)

/-- `text.encode("utf-8")`. -/
def encodeUtf8 (text : String) : List UInt8 := text.toUTF8.data.toList

/-- `bytes.decode("utf-8")`; `none` is its `UnicodeDecodeError`. -/
def decodeUtf8 (bytes : List UInt8) : Option String := String.fromUTF8? ⟨bytes.toArray⟩

/-- What universal newlines make of the characters of a file. -/
def translateNewlines : List Char → List Char
  | '\r' :: '\n' :: rest => '\n' :: translateNewlines rest
  | '\r' :: rest => '\n' :: translateNewlines rest
  | c :: rest => c :: translateNewlines rest
  | [] => []

/-! ## The system, `pathlib` and `shutil` -/

inductive SystemCall
  | stat (path : List (Hop FileName))
  | mkdir (place : Place)
  | openFile (place : Place)
  | write (place : Place) (bytes : List UInt8)
  | read (path : List (Hop FileName))
  | unlink (place : Place)
  | rename (source destination : Place)
  | copystat (destination : Place)
  deriving DecidableEq, Repr

/-- Why a call of the system has failed: the tree does not allow it, or something else does not. -/
inductive Refusal
  | fault (found : PathFault)
  | other (reason : String)
  deriving DecidableEq, Repr

/-- What a path is resolved by, apart from the files. -/
structure Site where
  /-- `os.getcwd()`. -/
  cwd : Place
  /-- How deep links may lead through links; a cycle always leads deeper. -/
  linkDepth : ℕ
  deriving DecidableEq, Repr

/-- The hops of a path from the root. A NUL is found by the first call that is given the path. -/
def Site.routeOf (site : Site) (path : String) : Except Err (List (Hop FileName)) :=
  if path.toList.contains '\x00' then .error (.valueError "embedded null byte")
  else .ok ((if startsWith path "/" then [] else route site.cwd) ++ hopsOf path)

/-- The system as the process meets it. -/
structure System extends Site where
  /-- A refusal that is not for what there is in the tree. -/
  refuses : SystemCall → Files → Option String
  /-- `str(exc)` of the `OSError` of a call. -/
  text : SystemCall → Refusal → String
  /-- `str(exc)` of the `RuntimeError` of a path that leads into a cycle. -/
  loopText : List (Hop FileName) → String
  /-- `str(exc)` of a `UnicodeDecodeError`. -/
  decodeText : List UInt8 → String
  /-- How what is written goes to the file. -/
  pieces : List UInt8 → List (List UInt8)
  pieces_flatten : ∀ bytes, (pieces bytes).flatten = bytes

namespace System

variable {α : Type}

/-- What a call comes to. -/
def outcome (system : System) (call : SystemCall) (effect : Files → Except PathFault (α × Files))
    (files : Files) : Except Refusal (α × Files) :=
  match system.refuses call files with
  | some reason => .error (.other reason)
  | none => (effect files).mapError .fault

/-- A call of the system. One that fails changes nothing. -/
def attempt (system : System) (call : SystemCall) (effect : Files → Except PathFault (α × Files)) :
    FileProc (Except Refusal α) :=
  Program.act (fun files => (system.outcome call effect files).map Prod.fst)
    fun files => ((system.outcome call effect files).map Prod.snd).toOption.getD files

/-- A call of the system that raises when it fails. -/
def call (system : System) (made : SystemCall) (effect : Files → Except PathFault (α × Files)) :
    FileProc α := do
  match ← system.attempt made effect with
  | .ok value => pure value
  | .error refusal => throw (.osError (system.text made refusal))

/-- `path.stat()`, where the errors that `exists`, `is_file` and `is_dir` ignore are `none`. -/
def stat (system : System) (path : List (Hop FileName)) : FileProc (Option (Node FileName UInt8)) :=
  system.call (.stat path) fun files => .ok ((files.status system.linkDepth path).toOption, files)

/-- `path.exists()`. -/
def pathExists (system : System) (path : List (Hop FileName)) : FileProc Bool := do
  pure (← system.stat path).isSome

/-- `path.is_file()`. -/
def isFile (system : System) (path : List (Hop FileName)) : FileProc Bool := do
  match ← system.stat path with
  | some (.file _) => pure true
  | _ => pure false

/-- `path.is_dir()`. -/
def isDir (system : System) (path : List (Hop FileName)) : FileProc Bool := do
  match ← system.stat path with
  | some .directory => pure true
  | _ => pure false

/-- `path.stat().st_size`, of a file. -/
def size (system : System) (path : List (Hop FileName)) : FileProc ℕ :=
  system.call (.stat path) fun files =>
    (files.read system.linkDepth path).map fun content => (content.length, files)

/-- `path.resolve()`. -/
def resolveHops (system : System) (path : List (Hop FileName)) : FileProc Place := do
  match ← Program.get fun files : Files => files.walk .kept system.linkDepth [] path with
  | .ok place => pure place
  | .error _ => throw (.runtimeError (system.loopText path))

/-- `Path(path).resolve()`. -/
def resolve (system : System) (path : String) : FileProc Place := do
  system.resolveHops (← Program.ofExcept (system.routeOf path))

/-- `os.mkdir(path)`. -/
def mkdir (system : System) (place : Place) : FileProc (Except Refusal Unit) :=
  system.attempt (.mkdir place) fun files => (files.mkdir system.linkDepth place).map ((), ·)

/-- What `Path.mkdir` does about an error when the directory may be there already. -/
def unlessThere (system : System) (place : Place) (refusal : Refusal) : FileProc Unit := do
  if !(← system.isDir (route place)) then throw (.osError (system.text (.mkdir place) refusal))

/-- `path.mkdir(exist_ok=True)`. -/
def mkdirOne (system : System) (place : Place) : FileProc Unit := do
  match ← system.mkdir place with
  | .ok () => pure ()
  | .error (.fault .notFound) => throw (.osError (system.text (.mkdir place) (.fault .notFound)))
  | .error refusal => system.unlessThere place refusal

/-- `path.mkdir(parents=True, exist_ok=True)`. -/
def mkdirParents (system : System) : Place → FileProc Unit
  | [] => system.mkdirOne []
  | name :: parent => do
      match ← system.mkdir (name :: parent) with
      | .ok () => pure ()
      | .error (.fault .notFound) =>
          system.mkdirParents parent
          system.mkdirOne (name :: parent)
      | .error refusal => system.unlessThere (name :: parent) refusal

/-- Writes the pieces to an open file, one after the other. -/
def writePieces (system : System) (place : Place) : List (List UInt8) → FileProc Unit
  | [] => pure ()
  | piece :: pieces => do
      system.call (.write place piece) fun files => .ok ((), files.append place piece)
      system.writePieces place pieces

/-- `path.write_bytes(bytes)`: the file is opened, and is empty then, before it is written. -/
def writeBytes (system : System) (place : Place) (bytes : List UInt8) : FileProc Unit := do
  let opened ← system.call (.openFile place) fun files => files.truncate system.linkDepth place
  system.writePieces opened (system.pieces bytes)

/-- `path.write_text(text, encoding="utf-8")`. -/
def writeText (system : System) (place : Place) (text : String) : FileProc Unit :=
  system.writeBytes place (encodeUtf8 text)

/-- `path.read_bytes()`. -/
def readBytes (system : System) (path : List (Hop FileName)) : FileProc (List UInt8) :=
  system.call (.read path) fun files => (files.read system.linkDepth path).map (·, files)

/-- `path.read_text(encoding="utf-8")`, with universal newlines. -/
def readText (system : System) (path : List (Hop FileName)) : FileProc String := do
  let bytes ← system.readBytes path
  match decodeUtf8 bytes with
  | some text => pure (String.ofList (translateNewlines text.toList))
  | none => throw (.other "UnicodeDecodeError" (system.decodeText bytes))

/-- `path.unlink()`. -/
def unlink (system : System) (place : Place) : FileProc Unit :=
  system.call (.unlink place) fun files => (files.unlink system.linkDepth place).map ((), ·)

/-- `shutil.copy2(source, destination)`, where the destination is not there. -/
def copy2 (system : System) (source destination : Place) : FileProc Unit := do
  let bytes ← system.readBytes (route source)
  system.writeBytes destination bytes
  system.call (.copystat destination) fun files => .ok ((), files)

/-- `shutil.move(source, destination)` of a file, where the destination is not there: what cannot be
renamed is copied and deleted. -/
def move (system : System) (source destination : Place) : FileProc Unit := do
  match ← system.attempt (.rename source destination) fun files =>
      (files.rename system.linkDepth source destination).map ((), ·) with
  | .ok () => pure ()
  | .error _ =>
      system.copy2 source destination
      system.unlink source

end System

/-! ## Paths under the allowed roots -/

/-- `Path(root) / path`, of a relative path. -/
def joinPath (root path : String) : String := if root = "" then path else root ++ "/" ++ path

section Roots

variable (system : System)

/-- `place.relative_to(Path(root).resolve())`, inside `try ... except ValueError`. -/
def isRelativeTo (place : Place) (root : String) : FileProc Bool :=
  tryCatch (do
    let rootReal ← system.resolve root
    pure (rootReal.isSuffixOf place)) fun e =>
      match e with
      | .valueError _ => pure false
      | e => throw e

/-- Is the place, which is relative to the working directory, under one of the roots? -/
def underSomeRoot (place : Place) : List String → FileProc Bool
  | [] => pure false
  | root :: roots => do
      if ← isRelativeTo system place root then pure true
      else underSomeRoot place roots

/-- The path below the first root it stays under. -/
def belowSomeRoot (path : String) : List String → FileProc (Option Place)
  | [] => pure none
  | root :: roots => do
      let resolvedRoot ← system.resolve (joinPath root path)
      if ← isRelativeTo system resolvedRoot root then pure (some resolvedRoot)
      else belowSomeRoot path roots

/-- What a relative path stands for: a path from the working directory, if that is under a root, or one
from a root. -/
def anchored (path : String) (roots : List String) : FileProc String := do
  let resolvedCwd ← system.resolve path
  if ← underSomeRoot system resolvedCwd roots then pure (placeText resolvedCwd)
  else
    match ← belowSomeRoot system path roots with
    | some place => pure (placeText place)
    | none => pure (placeText (← system.resolve path))

/-- The last loop: a root that holds the real path. -/
def realUnderSomeRoot (real : Place) : List String → FileProc Bool
  | [] => pure false
  | root :: roots => do
      let rootReal ← system.resolve root
      if rootReal.isSuffixOf real then pure true else realUnderSomeRoot real roots

/-- `target`, before it is resolved. -/
def targetOf (py : Stdlib) (path : String) (roots : List String) : FileProc String :=
  if startsWith path "/" then pure (py.pathText path) else anchored system path roots

/-- Resolves links and requires that the real path is under an allowed root. -/
def realpathUnderRoots (py : Stdlib) (path : String) (policy : FilesystemPolicy) (tool : String) :
    FileProc Place := do
  let target ← targetOf system py path policy.allowedRoots
  if isPathAllowed policy target then
    let real ← system.resolve target
    if ← realUnderSomeRoot system real policy.allowedRoots then pure real
    else throw (.securityViolation tool "filesystem"
      ("Resolved path " ++ py.reprOf (.str (placeText real)) ++ " escapes allowed roots"))
  else throw (.securityViolation tool "filesystem"
    ("Path blocked by policy: " ++ py.reprOf (.str path)))

end Roots

/-! ## The adapter and its tools -/

namespace LocalFilesystemAdapter

def writeOps : List String := [
  "filesystem.write", "filesystem.create", "filesystem.delete", "filesystem.copy", "filesystem.move"]

def supports (contract : ExecutionContract) : Bool :=
  startsWith contract.operation "filesystem." ||
    contract.capability ∈ ["filesystem.read", "filesystem.write"]

def baseEvidence (receipt : ExecutionReceipt) (attempt : ExecutionAttempt) : Dict :=
  [("receipt_id", .str receipt.id), ("attempt_id", .str attempt.id)]

def failed (error : String) (evidence : Dict) : AdapterResult :=
  { outcome := .failure
    error := some error
    evidence := evidence }

section Operations

variable (host : Host) (system : System) (base : Dict)

/-- The evidence with a path, and with two. -/
def withPath (path : Place) : Dict := base ++ [("path", .str (placeText path))]

def withPaths (source destination : Place) : Dict :=
  base ++ [("path", .str (placeText source)), ("destination", .str (placeText destination))]

/-- The body of `except OSError as exc: return AdapterResult(...)`. -/
def onOsError (evidence : Dict) (e : Err) : FileProc AdapterResult :=
  match e with
  | .osError _ => pure (failed (host.errText e) evidence)
  | e => throw e

/-- The end of `_copy`: what the copy is compared with. -/
def copied (source destination : Place) : FileProc AdapterResult := do
  let evidence := withPaths base source destination
  let missing := failed "postcondition failed: source or destination missing after copy" evidence
  if !(← system.isFile (route destination)) then pure missing
  else if !(← system.isFile (route source)) then pure missing
  else
    let size ← system.size (route source)
    let sizeCopied ← system.size (route destination)
    if size ≠ sizeCopied then pure (failed "postcondition failed: size mismatch after copy" evidence)
    else pure { outcome := .success
                evidence := evidence ++
                  [("copied", .bool true), ("postcondition", .str "source_and_destination_exist")] }

def copy (source destination : Place) : FileProc AdapterResult := do
  if !(← system.isFile (route source)) then
    pure (failed ("not a file: " ++ placeText source) (withPath base source))
  else if ← system.pathExists (route destination) then
    pure (failed ("destination already exists: " ++ placeText destination)
      (withPaths base source destination))
  else
    system.mkdirParents destination.tail
    match ← (system.copy2 source destination).attempt with
    | .error e => onOsError host (withPaths base source destination) e
    | .ok () => copied system base source destination

/-- The end of `_move`. -/
def moved (source destination : Place) : FileProc AdapterResult := do
  let evidence := withPaths base source destination
  let wrong := failed "postcondition failed: source or destination state after move" evidence
  if ← system.pathExists (route source) then pure wrong
  else if !(← system.isFile (route destination)) then pure wrong
  else pure { outcome := .success
              evidence := evidence ++
                [("moved", .bool true), ("postcondition", .str "source_absent_destination_exists")] }

def move (source destination : Place) : FileProc AdapterResult := do
  if !(← system.isFile (route source)) then
    pure (failed ("not a file: " ++ placeText source) (withPath base source))
  else if (← system.resolveHops (route source)) = (← system.resolveHops (route destination)) then
    pure (failed "source and destination are the same path" (withPaths base source destination))
  else if ← system.pathExists (route destination) then
    pure (failed ("destination already exists: " ++ placeText destination)
      (withPaths base source destination))
  else
    system.mkdirParents destination.tail
    match ← (system.move source destination).attempt with
    | .error e => onOsError host (withPaths base source destination) e
    | .ok () => moved system base source destination

/-- The answer of `_inspect`. -/
def inspection (path : Place) (found isFile isDir : Bool) (size : Value) : AdapterResult :=
  { outcome := .success
    evidence := withPath base path ++
      [("exists", .bool found), ("is_file", .bool isFile), ("is_dir", .bool isDir), ("size", size)] }

/-- `path.stat().st_size if ... path.is_file() else None`. -/
def fileSize (path : Place) : FileProc Value := do
  if ← system.isFile (route path) then
    let size ← system.size (route path)
    pure (.int size)
  else pure .none

def inspect (path : Place) : FileProc AdapterResult := do
  if ← system.pathExists (route path) then
    let isFile ← system.isFile (route path)
    let isDir ← system.isDir (route path)
    let size ← fileSize system path
    pure (inspection base path true isFile isDir size)
  else pure (inspection base path false false false .none)

def read (path : Place) : FileProc AdapterResult := do
  if !(← system.isFile (route path)) then
    pure (failed ("not a file: " ++ placeText path) (withPath base path))
  else
    let content ← system.readText (route path)
    pure { outcome := .success
           evidence := withPath base path ++
             [("content", .str content), ("size", .int (encodeUtf8 content).length)] }

def write (path : Place) (contract : ExecutionContract) : FileProc AdapterResult := do
  match contract.arguments.get "content" with
  | .str content =>
    system.mkdirParents path.tail
    system.writeText path content
    if !(← system.isFile (route path)) then
      pure (failed "postcondition failed: file missing after write" (withPath base path))
    else
      let observed ← system.readText (route path)
      if observed ≠ content then
        pure (failed "postcondition failed: content mismatch after write" (withPath base path))
      else pure { outcome := .success
                  evidence := withPath base path ++
                    [("content", .str content), ("bytes_written", .int (encodeUtf8 content).length),
                      ("postcondition", .str "content_match")] }
  | _ => pure (failed "arguments.content must be str" base)

def create (path : Place) (contract : ExecutionContract) : FileProc AdapterResult := do
  if ← system.pathExists (route path) then
    pure (failed ("already exists: " ++ placeText path) (withPath base path))
  else
    match (contract.arguments.lookup "content").getD (.str "") with
    | .str content =>
      system.mkdirParents path.tail
      system.writeText path content
      if !(← system.isFile (route path)) then
        pure (failed "postcondition failed: file missing after create" (withPath base path))
      else pure { outcome := .success
                  evidence := withPath base path ++
                    [("created", .bool true), ("postcondition", .str "exists")] }
    | _ => pure (failed "arguments.content must be str" base)

def delete (path : Place) : FileProc AdapterResult := do
  if !(← system.pathExists (route path)) then
    pure { outcome := .success
           evidence := withPath base path ++
             [("deleted", .bool false), ("note", .str "already absent")] }
  else if ← system.isDir (route path) then
    pure (failed "refusing to delete directory in V1" (withPath base path))
  else
    system.unlink path
    if ← system.pathExists (route path) then
      pure (failed "postcondition failed: path still exists after delete" (withPath base path))
    else pure { outcome := .success
                evidence := withPath base path ++
                  [("deleted", .bool true), ("postcondition", .str "absent")] }

/-- `isinstance(value, str) and value`. -/
def textArgument (contract : ExecutionContract) (key : String) : Option String :=
  match contract.arguments.get key with
  | .str text => if text = "" then none else some text
  | _ => none

/-- The resolved path of an argument, or the error of the answer. -/
def realArgument (policy : FilesystemPolicy) (path : String) : FileProc (Except String Place) := do
  match ← (realpathUnderRoots system host.py path policy "filesystem.local").attempt with
  | .ok real => pure (.ok real)
  | .error (.securityViolation tool category reason) =>
      pure (.error (host.errText (.securityViolation tool category reason)))
  | .error e => throw e

/-- An operation with a destination. -/
def transfer (policy : FilesystemPolicy) (contract : ExecutionContract) (real : Place) :
    FileProc AdapterResult := do
  match textArgument contract "destination" with
  | none => pure (failed "arguments.destination must be a non-empty str" base)
  | some destinationArg =>
    match ← realArgument host system policy destinationArg with
    | .error error => pure (failed error base)
    | .ok destination =>
      if contract.operation = "filesystem.copy" then copy host system base real destination
      else move host system base real destination

/-- An operation on a resolved path. -/
def perform (policy : FilesystemPolicy) (contract : ExecutionContract) (real : Place) :
    FileProc AdapterResult :=
  let op := contract.operation
  if op ∈ ["filesystem.copy", "filesystem.move"] then transfer host system base policy contract real
  else if op = "filesystem.inspect" then inspect system base real
  else if op = "filesystem.read" then read system base real
  else if op = "filesystem.write" then write system base real contract
  else if op = "filesystem.create" then create system base real contract
  else if op = "filesystem.delete" then delete system base real
  else pure (failed ("unsupported filesystem operation: " ++ host.py.reprOf (.str op)) base)

end Operations

def invoke (host : Host) (system : System) (contract : ExecutionContract) (receipt : ExecutionReceipt)
    (attempt : ExecutionAttempt) : FileProc AdapterResult := do
  let base := baseEvidence receipt attempt
  match contract.adapterContext with
  | none => pure (failed "filesystem.local requires scope + AdapterContext" base)
  | some context =>
    let scope := context.scope.filesystem
    if scope.allowedRoots.isEmpty then
      pure (failed "filesystem scope allowed_roots is empty; refusing access" base)
    else if contract.operation ∈ writeOps && scope.readOnly then
      pure (failed "filesystem scope is read_only" base)
    else
      match textArgument contract "path" with
      | none => pure (failed "arguments.path must be a non-empty str" base)
      | some pathArg =>
        let policy : FilesystemPolicy := { allowedRoots := scope.allowedRoots }
        match ← realArgument host system policy pathArg with
        | .error error => pure (failed error base)
        | .ok real => perform host system base policy contract real

end LocalFilesystemAdapter

end Shea.Model
