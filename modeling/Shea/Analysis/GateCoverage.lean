import Shea.Analysis.PathScope
import Shea.Model.Sample

/-!
# What the security gate looks at

The gate checks the texts among the values of the arguments: one that starts with `http://` or
`https://` has to have an allowed host, one that starts with a slash has to be in the filesystem scope.
It does not look into a list or a dictionary, nor at the names of arguments, and a scheme with a capital
letter is none to it.
-/

set_option autoImplicit false

namespace Shea.Model

namespace Value

mutual

/-- Every text in a value: the value, the items of a list, the keys and values of a dictionary. -/
def texts : Value → List String
  | .str text => [text]
  | .list items => textsList items
  | .dict entries => textsDict entries
  | _ => []

def textsList : List Value → List String
  | [] => []
  | x :: xs => x.texts ++ textsList xs

def textsDict : List (String × Value) → List String
  | [] => []
  | (key, x) :: rest => key :: x.texts ++ textsDict rest

end

/-- A value that is a text. -/
def ownTexts : Value → List String
  | .str text => [text]
  | _ => []

/-- The texts of a value that is not a text. -/
def innerTexts : Value → List String
  | .str _ => []
  | value => value.texts

end Value

end Shea.Model

namespace Shea.Analysis

open Shea.Computation Shea.Model

/-! ## What is to be covered -/

/-- The text starts with the scheme `http` or `https`, in any letter case. -/
def IsHttpUrl (text : String) : Prop :=
  "http://".toList <+: text.toList.map Char.toLower ∨
    "https://".toList <+: text.toList.map Char.toLower

/-- The URL has a host, and the policy allows it. -/
def HostAllowed (py : Stdlib) (policy : NetworkPolicy) (url : String) : Prop :=
  ∃ scheme host, py.urlparse url = some (scheme, host) ∧ host ≠ "" ∧
    isHostAllowed py policy host = true

/-- The path is below one of the allowed roots. -/
def InsideRoot (policy : FilesystemPolicy) (path : String) : Prop :=
  ∃ root ∈ policy.allowedRoots, IsAbsolute root ∧ Holds root path

/-- What the policies of the gate say of a text. -/
structure CoveredText (py : Stdlib) (gate : SecurityGate) (text : String) : Prop where
  host : IsHttpUrl text → HostAllowed py gate.networkPolicy text
  path : ∀ policy ∈ gate.filesystemPolicy, IsAbsolute text → InsideRoot policy text

/-! ## What the gate looks at -/

/-- The texts among the values of the arguments. -/
def scannedTexts (arguments : Dict) : List String := arguments.flatMap fun entry => entry.2.ownTexts

/-- The names of the arguments and the texts inside lists and dictionaries. -/
def hiddenTexts (arguments : Dict) : List String :=
  arguments.flatMap fun entry => entry.1 :: entry.2.innerTexts

/-- The gate lets a text pass. -/
structure PassesGate (py : Stdlib) (gate : SecurityGate) (text : String) : Prop where
  host : SecurityGate.looksLikeUrl text = true → isUrlAllowed py gate.networkPolicy text = .ok true
  path : ∀ policy ∈ gate.filesystemPolicy, SecurityGate.looksLikeAbsolutePath text = true →
    isPathAllowed policy text = true

section Gate

variable {py : Stdlib} {gate : SecurityGate}

/-- The texts of the arguments are those that are scanned and those that are hidden. -/
theorem mem_texts_iff (arguments : Dict) (text : String) :
    text ∈ (Value.dict arguments).texts ↔ text ∈ scannedTexts arguments ∨ text ∈ hiddenTexts arguments := by
  show text ∈ Value.textsDict arguments ↔ _
  induction arguments with
  | nil => simp [Value.textsDict, scannedTexts, hiddenTexts]
  | cons entry rest ih =>
    obtain ⟨key, value⟩ := entry
    have hvalue : text ∈ value.texts ↔ text ∈ value.ownTexts ∨ text ∈ value.innerTexts := by
      cases value <;> simp [Value.texts, Value.ownTexts, Value.innerTexts]
    have hscanned : text ∈ scannedTexts ((key, value) :: rest) ↔
        text ∈ value.ownTexts ∨ text ∈ scannedTexts rest := List.mem_append
    have hhidden : text ∈ hiddenTexts ((key, value) :: rest) ↔
        (text = key ∨ text ∈ value.innerTexts) ∨ text ∈ hiddenTexts rest := by
      unfold hiddenTexts
      rw [List.flatMap_cons, List.mem_append, List.mem_cons]
    rw [Value.textsDict, List.mem_append, List.mem_cons, ih, hvalue, hscanned, hhidden]
    grind

/-- INTERNAL: what it is for the policy to allow a URL.
SOURCE: security/network_policy.py:56-70 -/
theorem isUrlAllowed_iff (policy : NetworkPolicy) (url : String) :
    isUrlAllowed py policy url = .ok true ↔ HostAllowed py policy url := by
  unfold isUrlAllowed HostAllowed
  cases hparse : py.urlparse url with
  | none => simp
  | some parsed =>
    obtain ⟨scheme, host⟩ := parsed
    simp

/-- INTERNAL: the check of one text.
SOURCE: security/gate.py:45-61 -/
theorem checkText_ok_iff (tool key text : String) :
    gate.checkText py tool key text = .ok () ↔ PassesGate py gate text := by
  have hpassed : PassesGate py gate text ↔
      (SecurityGate.looksLikeUrl text = true → isUrlAllowed py gate.networkPolicy text = .ok true) ∧
      ∀ policy ∈ gate.filesystemPolicy, SecurityGate.looksLikeAbsolutePath text = true →
        isPathAllowed policy text = true := ⟨fun h => ⟨h.host, h.path⟩, fun h => ⟨h.1, h.2⟩⟩
  rw [hpassed]
  unfold SecurityGate.checkText
  -- the URL is not one, cannot be read, is refused or is allowed
  have hurl : (SecurityGate.looksLikeUrl text = false) ∨
      (SecurityGate.looksLikeUrl text = true ∧
        ((∃ e, isUrlAllowed py gate.networkPolicy text = .error e) ∨
          isUrlAllowed py gate.networkPolicy text = .ok false ∨
          isUrlAllowed py gate.networkPolicy text = .ok true)) := by
    cases SecurityGate.looksLikeUrl text <;>
      rcases isUrlAllowed py gate.networkPolicy text with e | _ | _ <;> simp
  cases hpolicy : gate.filesystemPolicy with
  | none =>
    rcases hurl with hurl | ⟨hurl, ⟨e, hallowed⟩ | hallowed | hallowed⟩ <;>
      simp [*, bind, Except.bind, pure, Except.pure, throw, throwThe, MonadExceptOf.throw]
  | some policy =>
    cases hlooks : SecurityGate.looksLikeAbsolutePath text <;>
      cases hscope : isPathAllowed policy text <;>
      rcases hurl with hurl | ⟨hurl, ⟨e, hallowed⟩ | hallowed | hallowed⟩ <;>
      simp [*, bind, Except.bind, pure, Except.pure, throw, throwThe, MonadExceptOf.throw]

/-- INTERNAL: the gate accepts a request when each text that it looks at passes.
SOURCE: security/gate.py:40-61 -/
theorem checkRequest_ok_iff (request : ToolRequest) :
    gate.checkRequest py request = .ok () ↔
      ∀ text ∈ scannedTexts request.arguments, PassesGate py gate text := by
  unfold SecurityGate.checkRequest
  induction request.arguments with
  | nil => simp [SecurityGate.checkArguments, scannedTexts]
  | cons entry rest ih =>
    obtain ⟨key, value⟩ := entry
    have hscanned : scannedTexts ((key, value) :: rest) = value.ownTexts ++ scannedTexts rest := rfl
    rw [hscanned]
    cases value with
    | str text =>
      rw [SecurityGate.checkArguments, Value.ownTexts, List.singleton_append, List.forall_mem_cons,
        ← ih, ← @checkText_ok_iff py gate request.tool key text]
      cases gate.checkText py request.tool key text <;> simp [bind, Except.bind]
    | _ => exact ih

/-- INTERNAL: an absolute path that passes is below a root. -/
theorem insideRoot_of_passes {text : String} (h : PassesGate py gate text) :
    ∀ policy ∈ gate.filesystemPolicy, IsAbsolute text → InsideRoot policy text := by
  intro policy hpolicy habsolute
  have hslash : ("/" : String).toList = ['/'] := by decide
  have hlooks : SecurityGate.looksLikeAbsolutePath text = true := by
    unfold SecurityGate.looksLikeAbsolutePath startsWith
    rw [hslash, List.isPrefixOf_iff_prefix]
    exact List.singleton_prefix_iff_head?_eq_some.mpr habsolute
  obtain ⟨-, root, hroot, hrooted, hholds, -⟩ :=
    (isPathAllowed_iff policy text).mp (h.path policy hpolicy hlooks)
  exact ⟨root, hroot, hrooted, hholds⟩

/-- What the gate accepts is covered if and only if, unless it looks at a text that it refuses, the
texts that it does not look at are covered, and so are URLs with a capital letter in their scheme.
SOURCE: security/gate.py:40-61, security/network_policy.py:40-70,
security/filesystem_policy.py:23-32 -/
theorem gate_covers_iff (py : Stdlib) (gate : SecurityGate) (request : ToolRequest) :
    (gate.checkRequest py request = .ok () →
        ∀ text ∈ (Value.dict request.arguments).texts, CoveredText py gate text) ↔
      ((∀ text ∈ scannedTexts request.arguments, PassesGate py gate text) →
        (∀ text ∈ hiddenTexts request.arguments, CoveredText py gate text) ∧
        ∀ text ∈ scannedTexts request.arguments, IsHttpUrl text →
          SecurityGate.looksLikeUrl text = false → HostAllowed py gate.networkPolicy text) := by
  rw [checkRequest_ok_iff]
  refine imp_congr_right fun hpasses => ?_
  constructor
  · intro hcovered
    refine ⟨fun text htext => ?_, fun text htext hurl _ => ?_⟩
    · exact hcovered text ((mem_texts_iff _ _).mpr (.inr htext))
    · exact (hcovered text ((mem_texts_iff _ _).mpr (.inl htext))).host hurl
  · rintro ⟨hhidden, hcapital⟩ text htext
    rcases (mem_texts_iff _ _).mp htext with hscanned | htext
    · have hpassed := hpasses text hscanned
      refine ⟨fun hurl => ?_, insideRoot_of_passes hpassed⟩
      cases hlooks : SecurityGate.looksLikeUrl text with
      | true => exact (isUrlAllowed_iff _ _).mp (hpassed.host hlooks)
      | false => exact hcapital text hscanned hurl hlooks
    · exact hhidden text htext

end Gate

/-- A standard library that knows one host, a loopback address. -/
def loopbackPy : Stdlib :=
  { Stdlib.plain with
    urlparse := fun _ => some ("http", "127.0.0.1")
    ipAddress := fun _ => some
      { isPrivate := true
        isLoopback := true
        isLinkLocal := false
        isReserved := false
        isMulticast := false
        isUnspecified := false } }

/-- A URL of that host among the options of a request. -/
def nestedRequest : ToolRequest :=
  { requestId := "request"
    tool := "notes"
    action := "add"
    arguments := [("options", .dict [("url", .str "http://127.0.0.1/")])] }

/-- The same URL with a capital letter, and a path outside the scope inside a list. -/
def capitalRequest : ToolRequest :=
  { requestId := "request"
    tool := "notes"
    action := "add"
    arguments := [("url", .str "Http://127.0.0.1/"), ("paths", .list [.str "/etc/passwd"])] }

/-- The gate accepts both requests. -/
theorem nested_url_accepted :
    let gate : SecurityGate := { filesystemPolicy := some { allowedRoots := ["/notes"] } }
    (gate.checkRequest loopbackPy nestedRequest = .ok () ∧
      "http://127.0.0.1/" ∈ (Value.dict nestedRequest.arguments).texts ∧
      ¬ CoveredText loopbackPy gate "http://127.0.0.1/") ∧
    (gate.checkRequest loopbackPy capitalRequest = .ok () ∧
      "Http://127.0.0.1/" ∈ (Value.dict capitalRequest.arguments).texts ∧
      ¬ CoveredText loopbackPy gate "Http://127.0.0.1/" ∧
      "/etc/passwd" ∈ (Value.dict capitalRequest.arguments).texts ∧
      ¬ CoveredText loopbackPy gate "/etc/passwd") := by
  have hrefused : ∀ url, ¬ HostAllowed loopbackPy {} url := by
    rintro url ⟨scheme, host, hparse, -, hallowed⟩
    obtain ⟨-, rfl⟩ := Prod.mk.inj (Option.some.inj hparse)
    exact absurd hallowed (by decide)
  refine ⟨⟨rfl, by decide, fun h => hrefused _ (h.host ?_)⟩, rfl, by decide,
    fun h => hrefused _ (h.host ?_), by decide, fun h => ?_⟩
  · exact .inl (by decide)
  · exact .inl (by decide)
  · obtain ⟨root, hroot, -, hholds⟩ := h.path _ rfl (by decide)
    obtain rfl := List.mem_singleton.mp hroot
    exact absurd hholds (by decide +kernel)

end Shea.Analysis
