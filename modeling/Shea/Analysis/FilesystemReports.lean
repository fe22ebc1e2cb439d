import Shea.Analysis.FileOperations
import Shea.Model.Sample

/-!
# What the filesystem adapter reports

The adapter looks again at what it has done before it reports success. This module says what a success
stands for, operation by operation, and what is left alone; and what the second look is worth for a text
with a carriage return, which is written as it is and read back with its line ends translated.
-/

set_option autoImplicit false

namespace Shea.Analysis

open Shea.Computation Shea.Computation.Program Shea.Model

/-- A text is read back from its bytes. -/
theorem decodeUtf8_encodeUtf8 (text : String) : decodeUtf8 (encodeUtf8 text) = some text := by
  unfold decodeUtf8 encodeUtf8 String.fromUTF8? String.toUTF8
  exact dif_pos text.isValidUTF8

/-- Universal newlines leave a text alone exactly when it has no carriage return. -/
theorem translateNewlines_eq_iff (chars : List Char) : translateNewlines chars = chars ↔ '\r' ∉ chars := by
  induction chars using translateNewlines.induct with
  | case1 rest ih => simp [translateNewlines]
  | case2 rest hrest ih => simp [translateNewlines]
  | case3 c rest hpair hreturn ih =>
    rw [translateNewlines]
    · have hc : '\r' ≠ c := fun h => hreturn h.symm
      simp [ih, hc]
    · exact hpair
    · exact hreturn
  | case4 => simp [translateNewlines]

/-- Reading in text mode gives the text back unless it has a carriage return. -/
theorem readBack_eq_iff (text : String) :
    String.ofList (translateNewlines text.toList) = text ↔ '\r' ∉ text.toList := by
  rw [← translateNewlines_eq_iff]
  constructor
  · intro h
    have hchars := congrArg String.toList h
    rwa [String.toList_ofList] at hchars
  · intro h
    rw [h, String.ofList_toList]

/-! ## What a success stands for -/

section Operations

variable {host : Host} {system : System} {receipt : ExecutionReceipt} {attempt : ExecutionAttempt}
  {asked places : Set Place} {contract : ExecutionContract} {real destination : Place}
  {files files' : Files}

/-- How a write ends that returns: the text is in the file, and is reported as written unless it has a
carriage return. -/
structure WriteEnded (real : Place) (content : String) (files : Files) (result : AdapterResult)
    (files' : Files) : Prop where
  node : files'.node real = some (.file (encodeUtf8 content))
  success : result.outcome = .success ↔ '\r' ∉ content.toList
  path : result.outcome = .success → result.evidence.get "path" = .str (placeText real)

open LocalFilesystemAdapter in
/-- INTERNAL: a file is written and read again. -/
theorem sat_write {content : String} (hcontent : contract.arguments.get "content" = .str content)
    (hreal : files.Real real) :
    (write system (baseEvidence receipt attempt) real contract).Sat (FileTree.Touches {real})
      (fun r files' => FileTree.Touches {real} files files' ∧
        ∀ result, r = .ok result → WriteEnded real content files result files') files := by
  unfold write
  rw [hcontent]
  dsimp only
  rw [sat_bind]
  refine (sat_mkdirParents hreal.tail (Set.mem_singleton real) (List.tail_suffix real)).post
    fun r files₁ htouch₁ => ?_
  cases r with
  | error e => exact ⟨htouch₁, fun _ h => nomatch h⟩
  | ok value =>
    rw [then_ok, sat_bind]
    refine (sat_writeBytes (htouch₁.real hreal) (Set.mem_singleton real) _).post fun r files₂ h₂ => ?_
    have htouch₂ := htouch₁.trans h₂.1
    cases r with
    | error e => exact ⟨htouch₂, fun _ h => nomatch h⟩
    | ok value =>
      have hreal₂ := htouch₂.real hreal
      have hnode := h₂.2 rfl
      rw [then_ok, sat_bind]
      refine sat_isFile hreal₂ (.refl _ _) (fun found hfound => ?_) fun e => ⟨htouch₂, fun _ h => nomatch h⟩
      obtain rfl := hfound.mpr ⟨_, hnode⟩
      rw [then_ok, Bool.not_true, if_neg Bool.false_ne_true, sat_bind]
      refine sat_readText hreal₂ (.refl _ _) (fun bytes text hbytes htext => ?_)
        fun e => ⟨htouch₂, fun _ h => nomatch h⟩
      obtain rfl := Node.file.inj (Option.some.inj (hbytes.symm.trans hnode))
      obtain rfl := Option.some.inj (htext.symm.trans (decodeUtf8_encodeUtf8 content))
      have hsame := readBack_eq_iff text
      rw [then_ok]
      split
      · next hdiffer =>
        refine ⟨htouch₂, fun result hresult => ?_⟩
        obtain rfl := Except.ok.inj hresult
        exact ⟨hnode, ⟨(fun h => nomatch h), fun h => absurd (hsame.mpr h) hdiffer⟩, fun h => nomatch h⟩
      · next hequal =>
        refine ⟨htouch₂, fun result hresult => ?_⟩
        obtain rfl := Except.ok.inj hresult
        exact ⟨hnode, ⟨fun _ => hsame.mp (not_not.mp hequal), fun _ => rfl⟩, fun _ => rfl⟩

end Operations

/-! ## One call of the adapter -/

section Invocations

variable {host : Host} {system : System} {receipt : ExecutionReceipt} {attempt : ExecutionAttempt}
  {first second : Set Place} {contract : ExecutionContract} {real : Place} {policy : FilesystemPolicy}
  {files files' : Files}

def workDir : FileName := ⟨"work", by decide⟩

def noteFile : FileName := ⟨"note.txt", by decide⟩

def etcDir : FileName := ⟨"etc", by decide⟩

/-- A directory with a link out of it, to another with one file. -/
def workspace : Files :=
  let dirs := ((FileTree.empty : Files).set workDir [] (some .directory) (by decide) (by decide)).set
    etcDir [] (some .directory) (by decide) (by decide)
  let link : Node FileName UInt8 := .link true [.down etcDir]
  (dirs.set noteFile [etcDir] (some (.file (encodeUtf8 "old"))) (by decide) (by decide)).set
    ⟨"up", by decide⟩ [workDir] (some link) (by decide) (by decide)

/-- A system that refuses nothing and writes in one piece. -/
def plainSystem : System :=
  { cwd := []
    linkDepth := 4
    refuses := fun _ _ => none
    text := fun _ _ => "refused"
    loopText := fun _ => "loop"
    decodeText := fun _ => "no text"
    pieces := fun bytes => [bytes]
    pieces_flatten := fun _ => List.flatten_singleton }

/-- A contract for the note, in the scope of the workspace. -/
def noteContract (operation content : String) : ExecutionContract :=
  { writeContract "/work/note.txt" with
    operation := operation
    arguments := [("path", .str "/work/note.txt"), ("content", .str content)]
    adapterContext := some
      { verifiedIdentity :=
          { identity := { kind := .opaqueKind, canonicalValue := "", requestedValue := "" }
            assurance := .basic
            verified := true
            method := "" }
        scope := { scopeId := "scope", filesystem := { allowedRoots := ["/work"] } }
        enforcement :=
          { scopeId := "scope"
            limits := []
            isolation := []
            filesystem := [] } } }

def noteReceipt : ExecutionReceipt :=
  { id := "receipt"
    contractId := "contract"
    authorizationId := "authorization"
    capability := "filesystem.write"
    operation := "filesystem.write"
    target := "/work/note.txt"
    state := .attempting
    createdAt := 0 }

def noteAttempt : ExecutionAttempt :=
  { id := "attempt"
    receiptId := "receipt"
    attemptNumber := 1
    state := .created
    createdAt := 0 }

/-- A write that returns has put the text into the file, whatever it reports; it reports success exactly
when the text has no carriage return.
SOURCE: app/adapters/filesystem_local.py:298-338 -/
theorem write_success_iff {content : String} {result : AdapterResult} (hreal : files.Real real)
    (hcontent : contract.arguments.get "content" = .str content)
    (hrun : (LocalFilesystemAdapter.write system (LocalFilesystemAdapter.baseEvidence receipt attempt) real
      contract).run files = (.ok result, files')) :
    files'.node real = some (.file (encodeUtf8 content)) ∧
      (result.outcome = .success ↔ '\r' ∉ content.toList) := by
  have hend := (@sat_write system receipt attempt contract real files content hcontent hreal).run
  rw [hrun] at hend
  exact ⟨(hend.2 result rfl).node, (hend.2 result rfl).success⟩

/-- INTERNAL: the write of a note with a carriage return. -/
def returnRun : Except Err AdapterResult × Files :=
  (LocalFilesystemAdapter.write plainSystem (LocalFilesystemAdapter.baseEvidence noteReceipt noteAttempt)
    [noteFile, workDir] (noteContract "filesystem.write" "a\r\nb")).run workspace

/-- INTERNAL: what the adapter says of it. -/
def returnResult : AdapterResult :=
  { outcome := .failure
    evidence := [("receipt_id", .str "receipt"), ("attempt_id", .str "attempt"),
      ("path", .str "/work/note.txt")]
    error := some "postcondition failed: content mismatch after write" }

/-- INTERNAL: the file has the carriage return, and the run has failed. -/
theorem return_written_and_failed : returnRun.1 = .ok returnResult ∧
    returnRun.2.node [noteFile, workDir] = some (.file (encodeUtf8 "a\r\nb")) := by
  have hresult : returnRun.1 = .ok returnResult := by decide +kernel
  have hrun : returnRun = (.ok returnResult, returnRun.2) := by rw [← hresult]
  have hwalk : workspace.walk .kept 4 [] (route [noteFile, workDir]) = .ok [noteFile, workDir] := by
    decide +kernel
  have hwrite := @write_success_iff plainSystem noteReceipt noteAttempt
    (noteContract "filesystem.write" "a\r\nb") [noteFile, workDir] workspace returnRun.2 "a\r\nb"
    returnResult (FileTree.walk_real FileTree.real_nil hwalk) rfl hrun
  exact ⟨hresult, hwrite.1⟩

end Invocations

end Shea.Analysis
