import Shea.Model.Filesystem
import Shea.Analysis.PathScope

/-!
# What the operations on files do

Every operation of the adapter and of the tools works on paths it has resolved. At such a path the system
finds what there is and nothing else, as no link is on the way; and what an operation changes is what
there is at its own paths, and directories that were missing on the way to them. So links lead where they
led before, and a path that was resolved stays resolved while the operation goes on.

The lemmas here state this once for each function, together with what there is in the end when the function
returns. They hold wherever the system refuses a call and wherever the process is killed.
-/

set_option autoImplicit false

namespace Shea.Analysis

open Shea.Computation Shea.Computation.Program Shea.Model

/-! ## Calls that look at files -/

section Calls

variable {α : Type} {system : System} {made : SystemCall} {effect : Files → Except PathFault (α × Files)}
  {files : Files} {R : Files → Files → Prop}

/-- INTERNAL: a call of the system whose refusal is a result. -/
theorem sat_attempt_call {Q : Except Err (Except Refusal α) → Files → Prop} (hR : R files files)
    (hok : ∀ value files', effect files = .ok (value, files') →
      R files files' ∧ Q (.ok (.ok value)) files')
    (herror : ∀ refusal, Q (.ok (.error refusal)) files) : (system.attempt made effect).Sat R Q files := by
  unfold System.attempt System.outcome
  rw [sat_act]
  cases system.refuses made files with
  | some reason => exact ⟨hR, herror _⟩
  | none =>
    cases heffect : effect files with
    | error fault => exact ⟨hR, herror _⟩
    | ok result => exact hok result.1 result.2 heffect

/-- INTERNAL: a call of the system whose refusal is raised. -/
theorem sat_call {Q : Except Err α → Files → Prop} (hR : R files files)
    (hok : ∀ value files', effect files = .ok (value, files') → R files files' ∧ Q (.ok value) files')
    (herror : ∀ e, Q (.error e) files) : (system.call made effect).Sat R Q files := by
  unfold System.call
  rw [sat_bind]
  refine sat_attempt_call hR (fun value files' h => ?_) fun refusal => herror _
  exact hok value files' h

end Calls

section Still

variable {α : Type} {system : System} {made : SystemCall} {effect : Files → Except PathFault (α × Files)}

end Still

section Finding

variable {system : System} {files : Files} {place : Place} {R : Files → Files → Prop}

/-- What stands at a real location. -/
theorem sat_stat {Q : Except Err (Option (Node FileName UInt8)) → Files → Prop} (hreal : files.Real place)
    (hR : R files files) (hok : Q (.ok (files.node place)) files) (herror : ∀ e, Q (.error e) files) :
    (system.stat (route place)).Sat R Q files := by
  refine sat_call hR (fun found files' h => ?_) herror
  obtain ⟨rfl, rfl⟩ := Prod.mk.inj (Except.ok.inj h)
  rw [FileTree.status_route hreal]
  exact ⟨hR, hok⟩

variable {Q : Except Err Bool → Files → Prop}

/-- Whether a file does. -/
theorem sat_isFile (hreal : files.Real place) (hR : R files files)
    (hok : ∀ found, (found = true ↔ ∃ content, files.node place = some (.file content)) →
      Q (.ok found) files)
    (herror : ∀ e, Q (.error e) files) : (system.isFile (route place)).Sat R Q files := by
  unfold System.isFile
  rw [sat_bind]
  refine sat_stat hreal hR ?_ herror
  rw [then_ok]
  split
  · next content hnode => exact hok true ⟨fun _ => ⟨content, hnode⟩, fun _ => rfl⟩
  · next hnode =>
    exact hok false ⟨fun h => absurd h Bool.false_ne_true, fun ⟨content, h⟩ => absurd h (hnode content)⟩

/-- Whether a directory does. -/
theorem sat_isDir (hreal : files.Real place) (hR : R files files)
    (hok : ∀ found, (found = true ↔ files.node place = some .directory) → Q (.ok found) files)
    (herror : ∀ e, Q (.error e) files) : (system.isDir (route place)).Sat R Q files := by
  unfold System.isDir
  rw [sat_bind]
  refine sat_stat hreal hR ?_ herror
  rw [then_ok]
  split
  · next hnode => exact hok true ⟨fun _ => hnode, fun _ => rfl⟩
  · next hnode => exact hok false ⟨fun h => absurd h Bool.false_ne_true, fun h => absurd h hnode⟩

/-- What is in it. -/
theorem sat_readBytes {Q : Except Err (List UInt8) → Files → Prop} (hreal : files.Real place)
    (hR : R files files)
    (hok : ∀ content, files.node place = some (.file content) → Q (.ok content) files)
    (herror : ∀ e, Q (.error e) files) : (system.readBytes (route place)).Sat R Q files := by
  refine sat_call hR (fun bytes files' h => ?_) herror
  cases hread : files.read system.linkDepth (route place) with
  | error fault =>
    rw [hread] at h
    cases h
  | ok content =>
    rw [hread] at h
    obtain ⟨rfl, rfl⟩ := Prod.mk.inj (Except.ok.inj h)
    exact ⟨hR, hok content ((FileTree.read_route hreal).mp hread)⟩

/-- And what text that is. -/
theorem sat_readText {Q : Except Err String → Files → Prop} (hreal : files.Real place) (hR : R files files)
    (hok : ∀ content text, files.node place = some (.file content) → decodeUtf8 content = some text →
      Q (.ok (String.ofList (translateNewlines text.toList))) files)
    (herror : ∀ e, Q (.error e) files) : (system.readText (route place)).Sat R Q files := by
  unfold System.readText
  rw [sat_bind]
  refine sat_readBytes hreal hR (fun content hnode => ?_) herror
  rw [then_ok]
  split
  · next text htext => exact hok content text hnode htext
  · exact herror _

end Finding

/-! ## Calls that change files -/

section Changing

variable {system : System} {files : Files} {place outer : Place} {places : Set Place}

/-- INTERNAL: a directory is made on the way to one of the places. -/
theorem sat_mkdir {Q : Except Err (Except Refusal Unit) → Files → Prop} (hreal : files.Real outer)
    (hplace : place ∈ places) (hway : outer <:+ place)
    (hQ : ∀ r files', FileTree.Touches places files files' → Q (.ok r) files') :
    (system.mkdir outer).Sat (FileTree.Touches places) Q files := by
  refine sat_attempt_call (.refl places files) (fun value files' h => ?_) fun refusal => hQ _ _ (.refl _ _)
  cases hmkdir : files.mkdir system.linkDepth outer with
  | error fault =>
    rw [hmkdir] at h
    cases h
  | ok made =>
    rw [hmkdir] at h
    obtain ⟨-, rfl⟩ := Prod.mk.inj (Except.ok.inj h)
    obtain ⟨hnone, hnode⟩ := FileTree.mkdir_spec hreal hmkdir
    have htouch := FileTree.touches_mkdir hnode hnone hplace hway
    exact ⟨htouch, hQ _ _ htouch⟩

/-- INTERNAL: a refusal is forgotten if the directory is there. -/
theorem sat_unlessThere (hreal : files.Real outer) (refusal : Refusal) :
    (system.unlessThere outer refusal).Sat (FileTree.Touches places)
      (fun _ files' => FileTree.Touches places files files') files := by
  unfold System.unlessThere
  rw [sat_bind]
  refine sat_isDir hreal (.refl _ _) (fun found _ => ?_) fun e => .refl _ _
  rw [then_ok]
  split
  · exact .refl _ _
  · exact .refl _ _

/-- INTERNAL: one directory of the way, made unless it is there. -/
theorem sat_mkdirOne (hreal : files.Real outer) (hplace : place ∈ places) (hway : outer <:+ place) :
    (system.mkdirOne outer).Sat (FileTree.Touches places)
      (fun _ files' => FileTree.Touches places files files') files := by
  unfold System.mkdirOne
  rw [sat_bind]
  refine sat_mkdir hreal hplace hway fun r files' htouch => ?_
  rw [then_ok]
  split
  · exact htouch
  · exact htouch
  · exact (sat_unlessThere (htouch.real hreal) _).post fun _ _ h => htouch.trans h

/-- Only directories on the way to the place are made. -/
theorem sat_mkdirParents (hreal : files.Real outer) (hplace : place ∈ places) (hway : outer <:+ place) :
    (system.mkdirParents outer).Sat (FileTree.Touches places)
      (fun _ files' => FileTree.Touches places files files') files := by
  induction outer generalizing files with
  | nil => exact sat_mkdirOne hreal hplace hway
  | cons name parent ih =>
    unfold System.mkdirParents
    rw [sat_bind]
    refine sat_mkdir hreal hplace hway fun r files' htouch => ?_
    rw [then_ok]
    split
    · exact htouch
    · rw [sat_bind]
      refine (ih (htouch.real hreal.tail) ((List.suffix_cons _ _).trans hway)).post fun r files'' h => ?_
      have hboth := htouch.trans h
      cases r with
      | error e => exact hboth
      | ok value =>
        rw [then_ok]
        exact (sat_mkdirOne (hboth.real hreal) hplace hway).post fun _ _ h' => hboth.trans h'
    · exact (sat_unlessThere (htouch.real hreal) _).post fun _ _ h => htouch.trans h

/-- The induction is on the pieces that are left; what was written of them so far is in the file. -/
theorem sat_writePieces (hplace : place ∈ places) {content : List UInt8} (pieces : List (List UInt8))
    (hnode : files.node place = some (.file content)) :
    (system.writePieces place pieces).Sat (FileTree.Touches places)
      (fun r files' => FileTree.Touches places files files' ∧
        (r = .ok () → files'.node place = some (.file (content ++ pieces.flatten)))) files := by
  induction pieces generalizing files content with
  | nil =>
    refine ⟨.refl _ _, fun _ => ?_⟩
    rw [List.flatten_nil, List.append_nil]
    exact hnode
  | cons piece pieces ih =>
    unfold System.writePieces
    rw [sat_bind]
    have htouch := @FileTree.touches_append _ _ _ files _ places hplace piece
    refine sat_call (.refl _ _) (fun value files' h => ?_) fun e => ⟨.refl _ _, fun h => nomatch h⟩
    obtain ⟨-, rfl⟩ := Prod.mk.inj (Except.ok.inj h)
    refine ⟨htouch, (ih (FileTree.append_file hnode piece)).post fun r files'' h => ⟨htouch.trans h.1, ?_⟩⟩
    intro hr
    rw [h.2 hr, List.append_assoc, List.flatten_cons]

/-- A file is written. -/
theorem sat_writeBytes (hreal : files.Real place) (hplace : place ∈ places) (bytes : List UInt8) :
    (system.writeBytes place bytes).Sat (FileTree.Touches places)
      (fun r files' => FileTree.Touches places files files' ∧
        (r = .ok () → files'.node place = some (.file bytes))) files := by
  unfold System.writeBytes
  rw [sat_bind]
  refine sat_call (.refl _ _) (fun opened files' h => ?_) fun e => ⟨.refl _ _, fun h => nomatch h⟩
  obtain ⟨rfl, -, hnode⟩ := FileTree.truncate_spec hreal h
  have htouch := FileTree.touches_update hnode hplace (hreal opened (List.suffix_refl _))
    fun rooted target h => by cases h
  refine ⟨htouch, ?_⟩
  have hempty : files'.node opened = some (.file []) := by rw [hnode, Function.update_self]
  refine (sat_writePieces hplace (system.pieces bytes) hempty).post fun r files'' h => ⟨htouch.trans h.1, ?_⟩
  intro hr
  rw [h.2 hr, List.nil_append, system.pieces_flatten]

variable {source destination : Place}

end Changing

section Resolving

variable {system : System} {files files' : Files} {place real : Place} {path : String}
  {roots : List String} {policy : FilesystemPolicy} {tool : String} {py : Stdlib}

end Resolving

end Shea.Analysis
