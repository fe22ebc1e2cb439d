import Shea.Model.Extensions
import Shea.Analysis.ContentBinding

/-!
# What extensions add to the registry

An extension that is loaded can do no more to the tools than to add some, under names that are free. For
each tool that was added there is an entry of the directory whose manifest was accepted and permits it, and
a tool of another process has no elevated capability, since it comes without an argument schema.

The loop over the directory, the loop over the declarations of one extension and the calls of the code of
another are three inductions over one relation: the registry has grown, by tools of some kind.
-/

set_option autoImplicit false

namespace Shea.Analysis

open Shea.Computation Shea.Model

abbrev RegisteredTool := ToolDeclaration × ToolHandler

/-! ## Registries that grow, by one extension -/

/-- The names of the registered tools. -/
def toolNames (registry : ToolRegistry) : List String := registry.tools.map (·.1.name)

/-- Tools of some kind were added, under names that were free. -/
def Grows (kind : RegisteredTool → Prop) (before after : ToolRegistry) : Prop :=
  ∃ added, after.tools = before.tools ++ added ∧ (∀ tool ∈ added, kind tool) ∧
    ((toolNames before).Nodup → (toolNames after).Nodup)

section Growing

variable {kind kind' : RegisteredTool → Prop} {a b c : ToolRegistry} {py : Stdlib}

/-- INTERNAL: a registry grows into itself. -/
theorem Grows.refl (kind : RegisteredTool → Prop) (a : ToolRegistry) : Grows kind a a :=
  ⟨[], (List.append_nil _).symm, fun _ h => absurd h List.not_mem_nil, id⟩

/-- INTERNAL: growing is transitive. -/
theorem Grows.trans (h : Grows kind a b) (h' : Grows kind b c) : Grows kind a c := by
  obtain ⟨added, htools, hkind, hnames⟩ := h
  obtain ⟨added', htools', hkind', hnames'⟩ := h'
  refine ⟨added ++ added', ?_, fun tool htool => ?_, fun hnodup => hnames' (hnames hnodup)⟩
  · rw [htools', htools, List.append_assoc]
  · exact (List.mem_append.mp htool).elim (hkind tool) (hkind' tool)

/-- INTERNAL: a wider kind of tool admits the same growth. -/
theorem Grows.mono (h : Grows kind a b) (hmono : ∀ tool, kind tool → kind' tool) : Grows kind' a b := by
  obtain ⟨added, htools, hkind, hnames⟩ := h
  exact ⟨added, htools, fun tool htool => hmono tool (hkind tool htool), hnames⟩

/-- A tool that was there is found as before. -/
theorem Grows.find (h : Grows kind a b) {name : String} {tool : RegisteredTool}
    (hfound : a.find name = some tool) : b.find name = some tool := by
  obtain ⟨added, htools, -⟩ := h
  unfold ToolRegistry.find at hfound ⊢
  rw [htools, List.find?_append, hfound, Option.some_or]

/-- A capability that is elevated comes with a schema for the arguments. -/
def Schematic (declaration : ToolDeclaration) : Prop :=
  ∀ capability ∈ declaration.capabilities, capability ∈ elevatedCapabilities →
    declaration.argumentSchema.isSome = true

/-- INTERNAL: one registration.
SOURCE: tools/registry.py:82-90 -/
theorem grows_register {declaration : ToolDeclaration} {handler : ToolHandler}
    (h : a.register py declaration handler = .ok b)
    (hkind : Schematic declaration → kind (declaration, handler)) : Grows kind a b := by
  unfold ToolRegistry.register at h
  split at h
  · cases h
  next hfree =>
  dsimp only at h
  split at h
  · cases h
  next hschema =>
  obtain rfl := Except.ok.inj h
  refine ⟨[(declaration, handler)], rfl, fun tool htool => ?_, fun hnodup => ?_⟩
  · obtain rfl := List.mem_singleton.mp htool
    refine hkind fun capability hin helevated => ?_
    by_contra hnone
    refine hschema ?_
    have hsome : capability ∈ declaration.capabilities.filter (· ∈ elevatedCapabilities) :=
      List.mem_filter.mpr ⟨hin, decide_eq_true helevated⟩
    rw [Bool.and_eq_true, Option.isNone_iff_eq_none, Bool.not_eq_true', List.isEmpty_eq_false_iff]
    exact ⟨List.ne_nil_of_mem hsome, by simpa using hnone⟩
  · show (List.map _ (a.tools ++ [(declaration, handler)])).Nodup
    rw [List.map_append, List.nodup_append]
    refine ⟨hnodup, List.nodup_singleton _, fun name hold other hnew => ?_⟩
    obtain rfl : other = declaration.name := List.mem_singleton.mp hnew
    rintro rfl
    obtain ⟨tool, htool, hname⟩ := List.mem_map.mp hold
    refine hfree ?_
    rw [ToolRegistry.find, List.find?_isSome]
    exact ⟨tool, htool, decide_eq_true hname⟩

end Growing

section Extension

variable {host : ExtensionHost} {registry : ToolRegistry} {manifest : ExtensionManifest}
  {handle : ProcessExtensionHandle}

/-- A tool of the host process behind the handle: its handler calls the process, and it has no capability
that is elevated, and none that the manifest does not name, if it names any, but the extension's own. -/
structure Remote (host : ExtensionHost) (handle : ProcessExtensionHandle) (tool : RegisteredTool) :
    Prop where
  harmless : ∀ capability ∈ tool.1.capabilities, capability ∉ elevatedCapabilities
  granted : ∀ capability ∈ tool.1.capabilities, handle.manifest.capabilities = [] ∨
    capability ∈ handle.manifest.capabilities ∨ capability = "extension." ++ handle.manifest.id
  remote : tool.2 = makeHandler host tool.1.name handle

/-- A granted capability is declared by the manifest, or is the extension's own. -/
theorem mem_grantedCapabilities {declared : List String} {capability : String}
    (h : capability ∈ grantedCapabilities manifest declared) : manifest.capabilities = [] ∨
      capability ∈ manifest.capabilities ∨ capability = "extension." ++ manifest.id := by
  by_cases hnone : manifest.capabilities = []
  · exact .inl hnone
  unfold grantedCapabilities at h
  rw [if_neg (mt List.isEmpty_iff.mp hnone)] at h
  dsimp only at h
  split at h
  · exact .inr (.inr (List.mem_singleton.mp h))
  · exact .inr (.inl (of_decide_eq_true (List.mem_filter.mp h).2))

/-- INTERNAL: what a declaration asks for.
SOURCE: extensions/apply.py:32-61 -/
theorem declaredTool_ok {declaration : Dict} {tool : RegisteredTool}
    (h : declaredTool host handle declaration = .ok tool) :
    "tools.register" ∈ handle.manifest.permissions ∧
      (Schematic tool.1 → Remote host handle tool) := by
  unfold declaredTool at h
  split at h
  · cases h
  next hpermitted =>
  cases hname : ToolExecutorAdapter.textItem host.py declaration "name" with
  | error e =>
    rw [hname] at h
    cases h
  | ok name =>
  cases hdeclared : textsOf host.py declaration "capabilities" with
  | error e =>
    rw [hname, hdeclared] at h
    cases h
  | ok declared =>
  rw [hname, hdeclared] at h
  obtain rfl := Except.ok.inj h
  refine ⟨not_not.mp hpermitted, fun hschema => ⟨fun capability hin helevated => ?_,
    fun capability hin => mem_grantedCapabilities hin, rfl⟩⟩
  cases hschema capability hin helevated

/-- INTERNAL: the loop over the declarations, with or without an exception.
SOURCE: extensions/apply.py:32-61 -/
theorem grows_applyDeclarations (declarations : List Value) (registry : ToolRegistry) :
    Grows (fun tool => "tools.register" ∈ handle.manifest.permissions ∧ Remote host handle tool)
      registry (applyDeclarations host handle declarations registry).2 := by
  induction declarations generalizing registry with
  | nil => exact .refl _ _
  | cons declared rest ih =>
    cases declared with
    | dict declaration =>
      unfold applyDeclarations
      split
      · exact ih registry
      cases htool : declaredTool host handle declaration with
      | error e => exact .refl _ _
      | ok tool =>
        obtain ⟨tool, handler⟩ := tool
        obtain ⟨hpermitted, hremote⟩ := declaredTool_ok htool
        dsimp only
        cases hregistered : registry.register host.py tool handler with
        | error e => exact .refl _ _
        | ok registered =>
          exact (grows_register hregistered fun hschema => ⟨hpermitted, hremote hschema⟩).trans
            (ih registered)
    | _ => exact .refl _ _

/-- INTERNAL: whatever the code of an extension calls.
SOURCE: extensions/security.py:17-27 -/
theorem grows_run (code : PluginCode) (registry : ToolRegistry) :
    Grows (fun tool => "tools.register" ∈ manifest.permissions ∧ Schematic tool.1) registry
      (code.run (.ofManifest manifest) host.py registry).2 := by
  induction code generalizing registry with
  | done => exact .refl _ _
  | raise error => exact .refl _ _
  | find name next ih => exact ih _ registry
  | listTools next ih => exact ih _ registry
  | register declaration handler next ih =>
    unfold PluginCode.run
    cases hregistered : (RestrictedToolRegistry.ofManifest manifest).register host.py registry declaration
        handler with
    | error e => exact ih _ registry
    | ok registered =>
      refine Grows.trans ?_ (ih _ registered)
      unfold RestrictedToolRegistry.register at hregistered
      split at hregistered
      · cases hregistered
      next hallowed =>
      have hpermitted : "tools.register" ∈ manifest.permissions := by
        simpa [RestrictedToolRegistry.ofManifest] using hallowed
      exact grows_register hregistered fun hschema => ⟨hpermitted, hschema⟩

end Extension

/-! ## Manifests -/

/-- What a manifest says that was accepted. -/
structure Vouched (host : ExtensionHost) (requireSignature : Bool) (manifest : ExtensionManifest) : Prop where
  permissions : ∀ permission ∈ manifest.permissions, permission ∈ allowedPermissions
  isolation : manifest.isolation = .inprocess →
    manifest.trustLevel = .trusted ∨ manifest.trustLevel = .core
  signed : manifest.signature = none ∧ requireSignature = false ∧ manifest.trustLevel = .untrusted ∨
    manifest.signature.isSome = true ∧ manifest.signatureAlgorithm = "sha256-manifest"

section Manifests

variable {host : ExtensionHost} {path : String} {text : Except Err String} {requireSignature : Bool}
  {data : Dict} {manifest : ExtensionManifest}

/-- INTERNAL: the checks of `from_dict`.
SOURCE: extensions/manifest.py:47-78 -/
theorem fromDict_ok (h : ExtensionManifest.fromDict host data = .ok manifest) :
    (∀ permission ∈ manifest.permissions, permission ∈ allowedPermissions) ∧
      (manifest.isolation = .inprocess → manifest.trustLevel = .trusted ∨ manifest.trustLevel = .core) ∧
      manifest.signatureAlgorithm = textOr host.py data "signature_algorithm" "sha256-manifest" := by
  obtain ⟨permissions, -, h⟩ := exists_of_bind_ok h
  dsimp only at h
  split at h
  · cases h
  next hknown =>
  obtain ⟨trustLevel, -, h⟩ := exists_of_bind_ok h
  obtain ⟨isolation, -, h⟩ := exists_of_bind_ok h
  split at h
  · cases h
  next hisolated =>
  obtain ⟨id, -, h⟩ := exists_of_bind_ok h
  obtain ⟨capabilities, -, h⟩ := exists_of_bind_ok h
  obtain ⟨dependencies, -, h⟩ := exists_of_bind_ok h
  obtain rfl := Except.ok.inj h
  refine ⟨fun permission hin => ?_, fun hinprocess => ?_, rfl⟩
  · have hnone : permissions.dedup.filter (· ∉ allowedPermissions) = [] := by
      simpa using hknown
    simpa using List.filter_eq_nil_iff.mp hnone permission hin
  · by_contra hnot
    exact hisolated ⟨hinprocess, not_or.mp hnot⟩

/-- INTERNAL: the steps of the verification.
SOURCE: extensions/manifest.py:95-110 -/
theorem verifyManifestSignature_ok
    (h : verifyManifestSignature host path text requireSignature = .ok manifest) :
    ∃ data, readManifest host text = .ok data ∧ ExtensionManifest.fromDict host data = .ok manifest ∧
      checkSignature host path requireSignature data manifest = .ok () := by
  obtain ⟨data, hread, h⟩ := exists_of_bind_ok h
  obtain ⟨manifest', hmanifest, h⟩ := exists_of_bind_ok h
  obtain ⟨_, hsigned, h⟩ := exists_of_bind_ok h
  obtain rfl := Except.ok.inj h
  exact ⟨data, hread, hmanifest, hsigned⟩

/-- A manifest whose signature was verified is vouched for. -/
theorem Vouched.of_verified (h : verifyManifestSignature host path text requireSignature = .ok manifest) :
    Vouched host requireSignature manifest := by
  obtain ⟨data, -, hmanifest, hsigned⟩ := verifyManifestSignature_ok h
  obtain ⟨hpermissions, hisolation, -⟩ := fromDict_ok hmanifest
  refine ⟨hpermissions, hisolation, ?_⟩
  unfold checkSignature at hsigned
  split at hsigned
  · next hnone =>
    split at hsigned
    · cases hsigned
    · next hfree =>
      simp only [not_or, not_not, Bool.not_eq_true] at hfree
      exact .inl ⟨hnone, hfree⟩
  · next signature hsome =>
    split at hsigned
    · cases hsigned
    · next halgorithm => exact .inr ⟨by rw [hsome]; rfl, not_not.mp halgorithm⟩

end Manifests

/-! ## The directory -/

/-- A tool that an extension of the directory has added. -/
structure Vetted (loader : PluginLoader) (host : ExtensionHost) (entry : PluginEntry)
    (manifest : ExtensionManifest) (tool : RegisteredTool) : Prop where
  visible : startsWith entry.name "." = false
  verified : ∃ text, entry.manifest = some text ∧
    verifyManifestSignature host entry.name text loader.requireSignature = .ok manifest
  vouched : Vouched host loader.requireSignature manifest
  permitted : "tools.register" ∈ manifest.permissions
  schematic : Schematic tool.1
  isolated : (∃ handle, spawnExtensionHost manifest entry.child = .ok handle ∧
      handle.manifest = manifest ∧ handle.child = entry.child ∧ Remote host handle tool) ∨
    manifest.isolation = .inprocess ∧ loader.allowInprocess = true

/-- The code of the entry may be run: its manifest was verified, and is one of an extension in the process,
which claims to be trusted, and the loader allows it. -/
def Runnable (loader : PluginLoader) (host : ExtensionHost) (entry : PluginEntry) : Prop :=
  loader.allowInprocess = true ∧ ∃ text manifest, entry.manifest = some text ∧
    verifyManifestSignature host entry.name text loader.requireSignature = .ok manifest ∧
    manifest.isolation = .inprocess ∧ (manifest.trustLevel = .trusted ∨ manifest.trustLevel = .core)

section Directory

variable {loader : PluginLoader} {host : ExtensionHost} {entry : PluginEntry}
  {manifest : ExtensionManifest} {handle : ProcessExtensionHandle}

/-- INTERNAL: a tool of a host process has no capability that asks for a schema. -/
theorem Remote.schematic {tool : RegisteredTool} (h : Remote host handle tool) : Schematic tool.1 :=
  fun capability hin helevated => absurd helevated (h.harmless capability hin)

/-- INTERNAL: a host process that was started is the one of the entry.
SOURCE: extensions/process_host.py:60-114 -/
theorem spawnExtensionHost_ok (h : spawnExtensionHost manifest entry.child = .ok handle) :
    handle.manifest = manifest ∧ handle.child = entry.child := by
  unfold spawnExtensionHost at h
  split at h
  · cases h
  obtain ⟨_, -, h⟩ := exists_of_bind_ok h
  obtain ⟨_, -, h⟩ := exists_of_bind_ok h
  obtain ⟨_, -, h⟩ := exists_of_bind_ok h
  obtain rfl := Except.ok.inj h
  exact ⟨rfl, rfl⟩

/-- INTERNAL: what is logged changes no tool. -/
@[simp] theorem registry_logged (state : Loading) (e : Err) : (state.logged e).registry = state.registry := by
  unfold Loading.logged
  split <;> rfl

/-- INTERNAL: and neither does the end of a `try`. -/
@[simp] theorem registry_settle (state : Loading) (answer : Except Err Unit) :
    (PluginLoader.settle manifest state answer).registry = state.registry := by
  cases answer with
  | ok _ => rfl
  | error e => exact registry_logged state e

/-- INTERNAL: a manifest that was not rejected. -/
theorem grows_load (state : Loading) :
    Grows (fun tool => "tools.register" ∈ manifest.permissions ∧ Schematic tool.1 ∧
        ((∃ handle, spawnExtensionHost manifest entry.child = .ok handle ∧ handle.manifest = manifest ∧
            handle.child = entry.child ∧ Remote host handle tool) ∨
          manifest.isolation = .inprocess ∧ loader.allowInprocess = true))
      state.registry (loader.load host entry manifest state).registry := by
  unfold PluginLoader.load
  cases hisolation : manifest.isolation with
  | process =>
    dsimp only
    cases hspawned : spawnExtensionHost manifest entry.child with
    | error e =>
      dsimp only
      rw [registry_logged]
      exact .refl _ _
    | ok handle =>
      obtain ⟨hmanifest, hchild⟩ := spawnExtensionHost_ok hspawned
      dsimp only
      rw [registry_settle]
      refine (grows_applyDeclarations handle.declarations state.registry).mono fun tool htool => ?_
      rw [← hmanifest]
      exact ⟨htool.1, htool.2.schematic, .inl ⟨handle, rfl, rfl, hchild, htool.2⟩⟩
  | inprocess =>
    dsimp only
    split
    · exact .refl _ _
    · next hallowed =>
      rw [registry_settle]
      refine (grows_run entry.code state.registry).mono fun tool htool => ?_
      exact ⟨htool.1, htool.2, .inr ⟨rfl, by simpa using hallowed⟩⟩

/-- INTERNAL: one round of the loop.
SOURCE: extensions/loader.py:34-74 -/
theorem grows_loadEntry (state : Loading) :
    Grows (fun tool => ∃ manifest, Vetted loader host entry manifest tool) state.registry
      (loader.loadEntry host state entry).registry := by
  unfold PluginLoader.loadEntry
  split
  · exact .refl _ _
  next hgoes =>
  have hvisible : startsWith entry.name "." = false := by
    simp only [Bool.or_eq_true, not_or, Bool.not_eq_true] at hgoes
    exact hgoes.2
  cases htext : entry.manifest with
  | none => exact .refl _ _
  | some text =>
    dsimp only
    unfold PluginLoader.verifyAndLoad
    cases hverified : verifyManifestSignature host entry.name text loader.requireSignature with
    | error e =>
      dsimp only
      rw [registry_logged]
      exact .refl _ _
    | ok manifest =>
      refine (grows_load state).mono fun tool htool => ⟨manifest, ?_⟩
      obtain ⟨hpermitted, hschematic, hisolated⟩ := htool
      exact ⟨hvisible, ⟨text, htext, hverified⟩, .of_verified hverified, hpermitted, hschematic,
        hisolated⟩

/-- INTERNAL: unless it may be run, the code of an entry makes no difference.
SOURCE: extensions/loader.py:48-72 -/
theorem loadEntry_code (hnot : ¬ Runnable loader host entry) (code : PluginCode) (state : Loading) :
    loader.loadEntry host state { entry with code := code } = loader.loadEntry host state entry := by
  unfold PluginLoader.loadEntry
  dsimp only
  split
  · rfl
  cases htext : entry.manifest with
  | none => rfl
  | some text =>
    dsimp only
    unfold PluginLoader.verifyAndLoad
    dsimp only
    cases hverified : verifyManifestSignature host entry.name text loader.requireSignature with
    | error e => rfl
    | ok manifest =>
      dsimp only
      unfold PluginLoader.load
      cases hisolation : manifest.isolation with
      | process => rfl
      | inprocess =>
        dsimp only
        split
        · rfl
        · next hallowed =>
          have htrusted := (Vouched.of_verified hverified).isolation hisolation
          exact absurd ⟨by simpa using hallowed, text, manifest, htext, hverified, hisolation, htrusted⟩ hnot

/-- INTERNAL: nor does it in the loop. -/
theorem foldl_code (changed : PluginEntry → PluginEntry) (entries : List PluginEntry)
    (hchanged : ∀ entry ∈ entries, changed entry = entry ∨
      ¬ Runnable loader host entry ∧ ∃ code, changed entry = { entry with code := code })
    (state : Loading) :
    (entries.map changed).foldl (loader.loadEntry host) state =
      entries.foldl (loader.loadEntry host) state := by
  induction entries generalizing state with
  | nil => rfl
  | cons entry rest ih =>
    rw [List.map_cons, List.foldl_cons, List.foldl_cons]
    have hfirst : loader.loadEntry host state (changed entry) = loader.loadEntry host state entry := by
      rcases hchanged entry List.mem_cons_self with hsame | ⟨hnot, code, hsame⟩
      · rw [hsame]
      · rw [hsame, loadEntry_code hnot]
    rw [hfirst]
    exact ih (fun other hin => hchanged other (List.mem_cons_of_mem _ hin)) _

/-- INTERNAL: the loop. -/
theorem grows_foldl (entries : List PluginEntry) (state : Loading) :
    Grows (fun tool => ∃ entry ∈ entries, ∃ manifest, Vetted loader host entry manifest tool)
      state.registry (entries.foldl (loader.loadEntry host) state).registry := by
  induction entries generalizing state with
  | nil => exact .refl _ _
  | cons entry rest ih =>
    refine Grows.trans ((grows_loadEntry state).mono ?_) ((ih _).mono ?_)
    · exact fun tool ⟨manifest, h⟩ => ⟨entry, List.mem_cons_self .., manifest, h⟩
    · exact fun tool ⟨other, hin, h⟩ => ⟨other, List.mem_cons_of_mem _ hin, h⟩

end Directory

/-- Whatever is in the plugin directory, and whatever its extensions do with the registry they are given:
loading it changes no tool that is registered, and each tool that it adds was registered under a name that
was free, by an extension whose manifest was verified and has the permission. A tool of a host process calls
the process of its entry, has no elevated capability, and only those that the manifest names, if it names
any, or the extension's own. Code in the process makes no difference unless the loader allows it and the
manifest was verified and claims to be trusted.
SOURCE: extensions/loader.py:34-74, extensions/apply.py:14-62, extensions/security.py:17-27,
extensions/manifest.py:47-110 -/
theorem extension_tools_vetted (loader : PluginLoader) (host : ExtensionHost)
    (entries : List PluginEntry) (registry : ToolRegistry) :
    (∀ name tool, registry.find name = some tool →
      (loader.loadPlugins host entries registry).registry.find name = some tool) ∧
    Grows (fun tool => ∃ entry ∈ entries, ∃ manifest, Vetted loader host entry manifest tool) registry
      (loader.loadPlugins host entries registry).registry ∧
    ∀ changed : PluginEntry → PluginEntry, (∀ entry ∈ entries, changed entry = entry ∨
        ¬ Runnable loader host entry ∧ ∃ code, changed entry = { entry with code := code }) →
      loader.loadPlugins host (entries.map changed) registry = loader.loadPlugins host entries registry := by
  have hgrows : Grows (fun tool => ∃ entry ∈ entries, ∃ manifest, Vetted loader host entry manifest tool)
      registry (loader.loadPlugins host entries registry).registry := by
    refine (grows_foldl _ _).mono fun tool ⟨entry, hin, h⟩ => ⟨entry, ?_, h⟩
    exact (List.mem_insertionSort _).mp hin
  refine ⟨fun name tool => hgrows.find, hgrows, fun changed hchanged => ?_⟩
  have hname : ∀ entry ∈ entries, (changed entry).name = entry.name := by
    intro entry hin
    rcases hchanged entry hin with hsame | ⟨-, code, hsame⟩ <;> rw [hsame]
  unfold PluginLoader.loadPlugins
  rw [← List.map_insertionSort (fun a b : PluginEntry => a.name ≤ b.name) _ changed entries
    fun a ha b hb => by rw [hname a ha, hname b hb]]
  exact foldl_code changed _ (fun entry hin => hchanged entry ((List.mem_insertionSort _).mp hin)) _

/-- A host whose digests show what they are of. -/
def signingHost : ExtensionHost :=
  { py := { exactHost.py with sha256 := fun text => "sha256:" ++ text, lower := fun text => text }
    upper := fun text => String.ofList (text.toList.map Char.toUpper)
    floatOf := fun _ => .finite 0 0 }

/-- A directory with one extension, which asks for a connection and for a tool of its own. -/
def guestDirectory : List PluginEntry := [
  { name := "guest"
    manifest := some (.ok "\x7b\"id\": \"guest\", \"permissions\": [\"tools.register\"]\x7d")
    child :=
      { configure := .ok []
        registerDeclare := .ok [("declarations", .list [
          .dict [("kind", .str "tool"), ("name", .str "greet")],
          .dict [("kind", .str "tool"), ("name", .str "dial"), ("capabilities", .list [.str "network.connect"])]])]
        invokeTool := fun _ _ _ _ => .ok [] }
    code := .done }]

example : ((({} : PluginLoader).loadPlugins signingHost guestDirectory {}).registry.tools.map fun tool =>
    (tool.1.name, tool.1.capabilities)) = [("greet", ["extension.guest"])] := by decide +kernel

/-! ## Signatures -/

/-- What is documented of the digests: they are in lower case, and not empty. -/
structure SignatureHash (py : Stdlib) : Prop extends HashesTellApart py where
  lower : ∀ text, py.lower (py.sha256 text) = py.sha256 text
  nonempty : ∀ text, py.sha256 text ≠ ""

section Signatures

variable {host : ExtensionHost} {path : String} {text : Except Err String} {requireSignature : Bool}
  {data : Dict} {manifest : ExtensionManifest} {signature : String}

/-- INTERNAL: a signed manifest that was accepted is signed with the digest of its entries. -/
theorem digest_of_verified (hread : readManifest host text = .ok data)
    (h : verifyManifestSignature host path text requireSignature = .ok manifest)
    (hsigned : manifest.signature = some signature) :
    host.py.lower signature = host.py.lower (host.py.sha256 (canonicalManifestBytes host.py data)) := by
  obtain ⟨data', hread', -, hcheck⟩ := verifyManifestSignature_ok h
  obtain rfl := Except.ok.inj (hread.symm.trans hread')
  unfold checkSignature at hcheck
  rw [hsigned] at hcheck
  dsimp only at hcheck
  split at hcheck
  · cases hcheck
  split at hcheck
  · cases hcheck
  · next hsame => exact not_not.mp hsame

/-- INTERNAL: an entry that is put behind the others does not hide them. -/
theorem lookup_append_ne {key other : String} (hne : key ≠ other) (value : Value) :
    (data ++ [(other, value)]).lookup key = data.lookup key := by
  rw [List.lookup_append, List.lookup_cons, beq_false_of_ne hne]
  exact Option.or_none

/-- INTERNAL: the other entries of a manifest mean the same with a signature behind them. -/
theorem fromDict_signed (hfresh : data.lookup "signature" = none) (hsignature : signature ≠ "")
    (h : ExtensionManifest.fromDict host data = .ok manifest) :
    ExtensionManifest.fromDict host (data ++ [("signature", .str signature)]) =
      .ok { manifest with signature := some signature } := by
  let signed := data ++ [("signature", Value.str signature)]
  have hlookup : ∀ key, key ≠ "signature" → signed.lookup key = data.lookup key :=
    fun key hne => lookup_append_ne hne _
  have hget : ∀ key, key ≠ "signature" → Dict.get signed key = Dict.get data key := by
    intro key hne
    unfold Dict.get
    rw [hlookup key hne]
  have htexts : ∀ key, key ≠ "signature" → textsOf host.py signed key = textsOf host.py data key := by
    intro key hne
    unfold textsOf
    rw [hget key hne]
  have htext : ∀ key default, key ≠ "signature" →
      textOr host.py signed key default = textOr host.py data key default := by
    intro key default hne
    unfold textOr
    rw [hlookup key hne]
  have hitem : ToolExecutorAdapter.item signed "id" = ToolExecutorAdapter.item data "id" := by
    unfold ToolExecutorAdapter.item
    rw [hlookup "id" (by decide)]
  have hown : Dict.get signed "signature" = .str signature := by
    unfold Dict.get
    rw [List.lookup_append, hfresh]
    rfl
  have hsignature : signatureOf host.py signed = some signature := by
    unfold signatureOf
    rw [hown]
    exact if_pos (bne_iff_ne.mpr hsignature)
  show ExtensionManifest.fromDict host signed = _
  obtain ⟨permissions, hpermissions, h⟩ := exists_of_bind_ok h
  dsimp only at h
  split at h
  · cases h
  next hknown =>
  obtain ⟨trustLevel, htrust, h⟩ := exists_of_bind_ok h
  obtain ⟨isolation, hisolation, h⟩ := exists_of_bind_ok h
  split at h
  · cases h
  next hisolated =>
  obtain ⟨id, hid, h⟩ := exists_of_bind_ok h
  obtain ⟨capabilities, hcapabilities, h⟩ := exists_of_bind_ok h
  obtain ⟨dependencies, hdependencies, h⟩ := exists_of_bind_ok h
  obtain rfl := Except.ok.inj h
  unfold ExtensionManifest.fromDict
  rw [htexts "permissions" (by decide), hpermissions, htexts "capabilities" (by decide), hcapabilities,
    htexts "dependencies" (by decide), hdependencies, hitem, hid, htext "trust_level" _ (by decide), htrust,
    htext "isolation" _ (by decide), hisolation, htext "version" _ (by decide),
    htext "author" _ (by decide), htext "api_version" _ (by decide), htext "entrypoint" _ (by decide),
    htext "signature_algorithm" _ (by decide), hget "name" (by decide), hsignature]
  dsimp only [bind, Except.bind]
  rw [if_neg hknown, if_neg hisolated]
  rfl

/-- INTERNAL: anyone can compute the signature that a manifest needs.
SOURCE: extensions/manifest.py:89-110 -/
theorem verified_of_digest (hhost : SignatureHash host.py) (hfresh : data.lookup "signature" = none)
    (halgorithm : data.lookup "signature_algorithm" = none ∨
      data.lookup "signature_algorithm" = some (.str "sha256-manifest"))
    (h : ExtensionManifest.fromDict host data = .ok manifest)
    (hread : readManifest host text = .ok
      (data ++ [("signature", .str (host.py.sha256 (canonicalManifestBytes host.py data)))])) :
    verifyManifestSignature host path text requireSignature = .ok
      { manifest with signature := some (host.py.sha256 (canonicalManifestBytes host.py data)) } := by
  have hsigned := fromDict_signed hfresh (hhost.nonempty (canonicalManifestBytes host.py data)) h
  have hsame : canonicalManifestBytes host.py
      (data ++ [("signature", .str (host.py.sha256 (canonicalManifestBytes host.py data)))]) =
        canonicalManifestBytes host.py data := by
    unfold canonicalManifestBytes signedBody
    rw [List.filter_append]
    exact congrArg (fun body => dumps host.py .compact (.dict body)) (List.append_nil _)
  have hdefault : manifest.signatureAlgorithm = "sha256-manifest" := by
    rw [(fromDict_ok h).2.2]
    unfold textOr
    rcases halgorithm with hnone | hnamed
    · rw [hnone]
      rfl
    · rw [hnamed]
      rfl
  unfold verifyManifestSignature
  rw [hread]
  dsimp only [bind, Except.bind]
  rw [hsigned]
  dsimp only
  unfold checkSignature
  dsimp only
  rw [if_neg (not_not.mpr hdefault), hsame, if_neg (not_not.mpr rfl)]
  rfl

end Signatures

/-- The signature of a manifest is tied to its content, and to nothing else: signed manifests that are accepted
with one signature have the same entries, and every manifest without one that can be read at all and names no
other algorithm, whatever trust it claims, is accepted with a digest of its own entries.
SOURCE: extensions/manifest.py:89-110 -/
theorem signature_tells_content (host : ExtensionHost) (hhost : SignatureHash host.py) :
    (∀ path path' text text' required required' data data' manifest manifest' signature signature',
      readManifest host text = .ok data → readManifest host text' = .ok data' →
      verifyManifestSignature host path text required = .ok manifest →
      verifyManifestSignature host path' text' required' = .ok manifest' →
      manifest.signature = some signature → manifest'.signature = some signature' →
      host.py.lower signature = host.py.lower signature' →
      (Value.dict (signedBody data)).canon = (Value.dict (signedBody data')).canon) ∧
    (∀ path text data manifest, ExtensionManifest.fromDict host data = .ok manifest →
      data.lookup "signature" = none →
      data.lookup "signature_algorithm" = none ∨
        data.lookup "signature_algorithm" = some (.str "sha256-manifest") →
      readManifest host text = .ok
        (data ++ [("signature", .str (host.py.sha256 (canonicalManifestBytes host.py data)))]) →
      verifyManifestSignature host path text true = .ok
        { manifest with signature := some (host.py.sha256 (canonicalManifestBytes host.py data)) }) := by
  refine ⟨fun path path' text text' required required' data data' manifest manifest' signature signature'
    hread hread' h h' hsigned hsigned' hsame => ?_, fun path text data manifest h hfresh halgorithm hread =>
      verified_of_digest hhost hfresh halgorithm h hread⟩
  have hdigest : host.py.lower (host.py.sha256 (canonicalManifestBytes host.py data)) =
      host.py.lower (host.py.sha256 (canonicalManifestBytes host.py data')) :=
    (digest_of_verified hread h hsigned).symm.trans (hsame.trans (digest_of_verified hread' h' hsigned'))
  rw [hhost.lower, hhost.lower] at hdigest
  exact (dumps_eq_iff hhost.floats rfl).mp (hhost.sha256 hdigest)

/-- A manifest of someone who says that he is part of the core. -/
def coreClaim : Dict := [("id", .str "guest"), ("trust_level", .str "core"), ("isolation", .str "inprocess")]

/-- It is signed by whoever has written it. -/
def coreManifest : String :=
  "\x7b\"id\": \"guest\", \"trust_level\": \"core\", \"isolation\": \"inprocess\", " ++
    "\"signature\": " ++ quote (signingHost.py.sha256 (canonicalManifestBytes signingHost.py coreClaim)) ++
    "\x7d"

/-- The manifest is accepted as it claims to be. -/
theorem core_claim_accepted :
    verifyManifestSignature signingHost "manifest.json" (.ok coreManifest) true = .ok
      { id := "guest"
        name := "guest"
        version := "0.0.0"
        trustLevel := .core
        isolation := .inprocess
        signature := some (signingHost.py.sha256 (canonicalManifestBytes signingHost.py coreClaim)) } := by
  have hhost : SignatureHash signingHost.py := by
    refine ⟨⟨fun a b h => ?_, floatTexts_floatText signingHost.py⟩, fun _ => rfl, fun text h => ?_⟩
    · have hchars : ("sha256:" ++ a).toList = ("sha256:" ++ b).toList := congrArg String.toList h
      rw [String.toList_append, String.toList_append] at hchars
      exact String.toList_inj.mp (List.append_cancel_left hchars)
    · have hchars : ("sha256:" ++ text).toList = "".toList := congrArg String.toList h
      rw [String.toList_append] at hchars
      cases hchars
  exact (signature_tells_content signingHost hhost).2 "manifest.json" (.ok coreManifest) coreClaim
    { id := "guest"
      name := "guest"
      version := "0.0.0"
      trustLevel := .core
      isolation := .inprocess } (by decide +kernel) (by decide +kernel) (.inl (by decide +kernel))
    (by decide +kernel)

end Shea.Analysis
