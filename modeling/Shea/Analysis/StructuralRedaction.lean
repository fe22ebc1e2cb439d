import Shea.Analysis.JsonRoundTrip
import Shea.Computation.Masking
import Shea.Model.Metadata
import Shea.Model.Sample

/-!
# Redaction at the boundary

The sandboxed boundary redacts the JSON text of an answer and reads it back. That is the redaction of the
strings in the data if the redactor finds something only within the literals of strings, and in each
literal what it finds in the string itself. A secret with a letter that JSON escapes is not in the
literal; a pattern that goes on to the next blank takes the quotation mark along.
-/

set_option autoImplicit false

namespace Shea.Model

/-! ## Values as metadata -/

namespace Value

mutual

/-- The value is a JSON value: there is no object of another kind in it. -/
def isJson : Value → Bool
  | .list items => isJsonItems items
  | .dict entries => isJsonEntries entries
  | .other .. => false
  | _ => true

def isJsonItems : List Value → Bool
  | [] => true
  | item :: items => item.isJson && isJsonItems items

def isJsonEntries : Dict → Bool
  | [] => true
  | (_, value) :: rest => value.isJson && isJsonEntries rest

end

mutual

/-- A value as the redactor walks through it. -/
def asMetadata : Value → MetadataValue
  | .none => .none
  | .bool b => .bool b
  | .int n => .int n
  | .float x => .float x
  | .str s => .str s
  | .list items => .list (asMetadataItems items)
  | .dict entries => .dict (asMetadataEntries entries)
  | .other text .. => .other text

def asMetadataItems : List Value → List MetadataValue
  | [] => []
  | item :: items => item.asMetadata :: asMetadataItems items

def asMetadataEntries : Dict → MetadataMapping
  | [] => []
  | (key, value) :: rest => (.str key, value.asMetadata) :: asMetadataEntries rest

end

end Value

/-- The recursive redaction of a value (`_redact_value`). -/
def SecretRedactor.redactJson (py : Stdlib) (redactor : SecretRedactor) (value : Value) : Value :=
  (redactor.redactValue py value.asMetadata).written py

/-- The boundary's `json` module, on JSON values. -/
structure Rendering.IsJson (py : Stdlib) (floatOf : String → PyFloat) (rendering : Rendering) : Prop where
  dumps (value : Value) (text : String) : jsonDumps py value = some text →
    rendering.dumps value = .ok text
  loads (text : String) (value : Value) : jsonLoads floatOf text = some value →
    rendering.loads text = .ok value

end Shea.Model

namespace Shea.Analysis

open Shea.Computation Shea.Model

section Structure

variable (py : Stdlib) (redactor : SecretRedactor)

/-- The recursive redaction, of the items of a list. -/
def redactJsonItems (items : List Value) : List Value :=
  MetadataValue.writtenItems py (redactor.redactItems py (Value.asMetadataItems items))

/-- The recursive redaction, of the entries of a dictionary. -/
def redactJsonEntries (entries : Dict) : Dict :=
  MetadataValue.writtenEntries py (redactor.redactMapping py (Value.asMetadataEntries entries))

/-- INTERNAL: a text is redacted. -/
@[simp] theorem redactJson_str (s : String) :
    redactor.redactJson py (.str s) = .str (redactor.redact py s) := by
  simp [SecretRedactor.redactJson, Value.asMetadata, SecretRedactor.redactValue, MetadataValue.written]

/-- INTERNAL: a list is redacted item by item. -/
@[simp] theorem redactJson_list (items : List Value) :
    redactor.redactJson py (.list items) = .list (redactJsonItems py redactor items) := by
  simp [SecretRedactor.redactJson, Value.asMetadata, SecretRedactor.redactValue, MetadataValue.written,
    redactJsonItems]

/-- INTERNAL: a mapping value by value. -/
@[simp] theorem redactJson_dict (entries : Dict) :
    redactor.redactJson py (.dict entries) = .dict (redactJsonEntries py redactor entries) := by
  simp [SecretRedactor.redactJson, Value.asMetadata, SecretRedactor.redactValue, MetadataValue.written,
    redactJsonEntries]

/-- INTERNAL: no items. -/
@[simp] theorem redactJsonItems_nil : redactJsonItems py redactor [] = [] := rfl

/-- INTERNAL: the first item, then the others. -/
@[simp] theorem redactJsonItems_cons (item : Value) (items : List Value) :
    redactJsonItems py redactor (item :: items) =
      redactor.redactJson py item :: redactJsonItems py redactor items := rfl

/-- INTERNAL: no entries. -/
@[simp] theorem redactJsonEntries_nil : redactJsonEntries py redactor [] = [] := rfl

/-- INTERNAL: the first entry keeps its key. -/
@[simp] theorem redactJsonEntries_cons (key : String) (value : Value) (rest : Dict) :
    redactJsonEntries py redactor ((key, value) :: rest) =
      (key, redactor.redactJson py value) :: redactJsonEntries py redactor rest := rfl

end Structure

/-! ## The literals of strings -/

/-- A string between the quotation marks of its literal. -/
def escaped (s : String) : String := String.ofList (s.toList.flatMap escapeChar)

section Literals

variable (py : Stdlib) (redactor : SecretRedactor)

mutual

/-- The letters of a value in which each literal of a string is redacted on its own. Keys are left
alone. -/
def redactedLetters : Value → Option (List Char)
  | .str s => some ('"' :: ((redactor.redact py (escaped s)).toList ++ ['"']))
  | .list items => (redactedItems items).map fun written =>
      '[' :: ([',', ' '].intercalate written ++ [']'])
  | .dict entries => (redactedEntries entries).map fun written =>
      '\x7b' :: ([',', ' '].intercalate written ++ ['\x7d'])
  | value => jsonLetters py value

def redactedItems : List Value → Option (List (List Char))
  | [] => some []
  | item :: items => do
      let first ← redactedLetters item
      let rest ← redactedItems items
      pure (first :: rest)

def redactedEntries : Dict → Option (List (List Char))
  | [] => some []
  | (key, value) :: rest => do
      let first ← redactedLetters value
      let others ← redactedEntries rest
      pure (((quote key).toList ++ ':' :: ' ' :: first) :: others)

end

mutual

/-- The strings in a value, keys apart. -/
def stringsOf : Value → List String
  | .str s => [s]
  | .list items => stringsOfItems items
  | .dict entries => stringsOfEntries entries
  | _ => []

def stringsOfItems : List Value → List String
  | [] => []
  | item :: items => stringsOf item ++ stringsOfItems items

def stringsOfEntries : Dict → List String
  | [] => []
  | (_, value) :: rest => stringsOf value ++ stringsOfEntries rest

end

/-- The redactor finds in the literal of a string what it finds in the string. -/
def SeesThroughEscapes (s : String) : Prop := redactor.redact py (escaped s) = escaped (redactor.redact py s)

mutual

/-- INTERNAL: with that, redacted literals are the literals of redacted strings. -/
theorem redactedLetters_eq (value : Value) (hvalue : value.isJson = true)
    (h : ∀ s ∈ stringsOf value, SeesThroughEscapes py redactor s) :
    redactedLetters py redactor value = jsonLetters py (redactor.redactJson py value) := by
  cases value with
  | str s =>
    rw [redactJson_str, redactedLetters, jsonLetters, toList_quote, h s (by simp [stringsOf])]
    simp [escaped]
  | list items => rw [redactJson_list, redactedLetters, jsonLetters, redactedItems_eq items hvalue h]
  | dict entries =>
    rw [redactJson_dict, redactedLetters, jsonLetters, redactedEntries_eq entries hvalue h]
  | other text traits written => cases hvalue
  | _ =>
    rw [redactedLetters]
    · rfl
    all_goals simp

/-- INTERNAL: the same of the items of a list. -/
theorem redactedItems_eq (items : List Value) (hvalue : Value.isJsonItems items = true)
    (h : ∀ s ∈ stringsOfItems items, SeesThroughEscapes py redactor s) :
    redactedItems py redactor items = jsonItems py (redactJsonItems py redactor items) := by
  cases items with
  | nil => rfl
  | cons item items =>
    rw [Value.isJsonItems, Bool.and_eq_true] at hvalue
    have hitem := redactedLetters_eq item hvalue.1 fun s hs => h s (List.mem_append_left _ hs)
    have hitems := redactedItems_eq items hvalue.2 fun s hs => h s (List.mem_append_right _ hs)
    rw [redactJsonItems_cons, redactedItems, jsonItems, hitem, hitems]

/-- INTERNAL: and of the entries of a mapping. -/
theorem redactedEntries_eq (entries : Dict) (hvalue : Value.isJsonEntries entries = true)
    (h : ∀ s ∈ stringsOfEntries entries, SeesThroughEscapes py redactor s) :
    redactedEntries py redactor entries = jsonEntries py (redactJsonEntries py redactor entries) := by
  cases entries with
  | nil => rfl
  | cons entry rest =>
    obtain ⟨key, value⟩ := entry
    rw [Value.isJsonEntries, Bool.and_eq_true] at hvalue
    have hfirst := redactedLetters_eq value hvalue.1 fun s hs => h s (List.mem_append_left _ hs)
    have hrest := redactedEntries_eq rest hvalue.2 fun s hs => h s (List.mem_append_right _ hs)
    rw [redactJsonEntries_cons, redactedEntries, jsonEntries, hfirst, hrest]

end

mutual

/-- INTERNAL: redaction does not touch keys. -/
theorem distinctKeys_redactJson (value : Value) (hvalue : value.isJson = true) :
    (redactor.redactJson py value).distinctKeys = value.distinctKeys := by
  cases value with
  | str s => rw [redactJson_str, Value.distinctKeys, Value.distinctKeys] <;> simp
  | list items =>
    rw [redactJson_list, Value.distinctKeys, Value.distinctKeys, distinctKeys_redactJsonItems items hvalue]
  | dict entries =>
    have hkeys : ∀ entries : Dict,
        (redactJsonEntries py redactor entries).map Prod.fst = entries.map Prod.fst := by
      intro entries
      induction entries with
      | nil => rfl
      | cons entry rest ih => rw [redactJsonEntries_cons, List.map_cons, List.map_cons, ih]
    rw [redactJson_dict, Value.distinctKeys, Value.distinctKeys, hkeys,
      distinctKeys_redactJsonEntries entries hvalue]
  | other text traits written => cases hvalue
  | _ => rfl

/-- INTERNAL: the same over items. -/
theorem distinctKeys_redactJsonItems (items : List Value) (hvalue : Value.isJsonItems items = true) :
    Value.distinctKeysList (redactJsonItems py redactor items) = Value.distinctKeysList items := by
  cases items with
  | nil => rfl
  | cons item items =>
    rw [Value.isJsonItems, Bool.and_eq_true] at hvalue
    rw [redactJsonItems_cons, Value.distinctKeysList, Value.distinctKeysList,
      distinctKeys_redactJson item hvalue.1, distinctKeys_redactJsonItems items hvalue.2]

/-- INTERNAL: and over entries. -/
theorem distinctKeys_redactJsonEntries (entries : Dict) (hvalue : Value.isJsonEntries entries = true) :
    Value.distinctKeysDict (redactJsonEntries py redactor entries) = Value.distinctKeysDict entries := by
  cases entries with
  | nil => rfl
  | cons entry rest =>
    obtain ⟨key, value⟩ := entry
    rw [Value.isJsonEntries, Bool.and_eq_true] at hvalue
    rw [redactJsonEntries_cons, Value.distinctKeysDict, Value.distinctKeysDict,
      distinctKeys_redactJson value hvalue.1, distinctKeys_redactJsonEntries rest hvalue.2]

end

end Literals

/-! ## The data of an answer -/

/-- In the JSON text of a value the redactor finds something only within the literals of strings, in each
on its own, and there what it finds in the string. -/
structure RedactsLikeStrings (py : Stdlib) (redactor : SecretRedactor) (value : Value) : Prop where
  withinLiterals (text : String) : jsonDumps py value = some text →
    (redactedLetters py redactor value).map String.ofList = some (redactor.redact py text)
  throughEscapes : ∀ s ∈ stringsOf value, SeesThroughEscapes py redactor s

/-- The value is rendered as JSON text. -/
def HasJsonText : Value → Prop
  | .none => False
  | .str _ => False
  | _ => True

/-- Redaction at the boundary is structural for `None`, for a string, and for a value in whose JSON text
the redactor finds what it finds in the strings, and nothing else.
SOURCE: security/sandbox.py:85-104, security/secrets.py:38-59 -/
theorem redactData_structural {py : Stdlib} {floatOf : String → PyFloat} {rendering : Rendering}
    (boundary : SandboxedExecutionBoundary) (hfloat : FloatsReadBack py floatOf)
    (hjson : rendering.IsJson py floatOf) {value : Value} (hvalue : value.isJson = true)
    (hkeys : value.distinctKeys = true) {text : String} (htext : jsonDumps py value = some text)
    (hredacts : HasJsonText value → RedactsLikeStrings py boundary.redactor value) :
    ∃ data, boundary.redactData py rendering value = .ok data ∧
      data.canon = (boundary.redactor.redactJson py value).canon := by
  have hblob (hhas : HasJsonText value) : ∃ data, (rendering.dumps value >>= fun blob =>
      rendering.loads (boundary.redactor.redact py blob)) = .ok data ∧
      data.canon = (boundary.redactor.redactJson py value).canon := by
    have hlike := hredacts hhas
    have hwithin := hlike.withinLiterals text htext
    rw [redactedLetters_eq py boundary.redactor value hvalue hlike.throughEscapes] at hwithin
    have hredacted : jsonDumps py (boundary.redactor.redactJson py value) =
        some (boundary.redactor.redact py text) := hwithin
    have hdistinct := (distinctKeys_redactJson py boundary.redactor value hvalue).trans hkeys
    obtain ⟨data, hloads, hcanon⟩ := jsonLoads_jsonDumps hfloat hdistinct hredacted
    refine ⟨data, ?_, hcanon⟩
    rw [hjson.dumps value text htext]
    exact hjson.loads _ _ hloads
  cases value with
  | none => exact ⟨.none, rfl, rfl⟩
  | str s => exact ⟨.str (boundary.redactor.redact py s), rfl, by rw [redactJson_str]⟩
  | _ =>
    obtain ⟨data, hdata, hcanon⟩ := hblob trivial
    refine ⟨data, ?_, hcanon⟩
    unfold SandboxedExecutionBoundary.redactData
    dsimp only
    rw [hdata]

/-- A standard library that writes floats by their binary expansion. -/
def floatPy : Stdlib := { Stdlib.plain with floatRepr := floatText }

/-- The `json` module of that library. -/
def floatJson : Rendering :=
  { dumps := fun value => (jsonDumps floatPy value).elim (.error (.typeError "not serializable")) .ok
    loads := fun text =>
      (jsonLoads floatOfText text).elim (.error (.other "JSONDecodeError" "Expecting value")) .ok
    str := fun value => .ok (pyStr floatPy value)
    encodedLength := fun text => .ok text.utf8ByteSize }

/-- INTERNAL: the sample with a float is a JSON value. -/
theorem isJson_floatJson : floatJson.IsJson floatPy floatOfText := by
  refine ⟨fun value text h => ?_, fun text value h => ?_⟩
  · show (jsonDumps floatPy value).elim _ _ = _
    rw [h]
    rfl
  · show (jsonLoads floatOfText text).elim _ _ = _
    rw [h]
    rfl

/-- INTERNAL: a redactor of one secret, when no pattern finds anything. -/
theorem redact_single {secret : String} (hsecret : secret ≠ "") (text : String) :
    SecretRedactor.redact floatPy { exactSecrets := [secret] } text =
      String.ofList (mask (firstOf [secret.toList]) redactedText.toList 0 text.toList) := by
  have hpatterns : SecretRedactor.redact floatPy { exactSecrets := [secret] } text =
      text.replace secret redactedText := by
    show (if secret = "" then text else text.replace secret redactedText) = _
    rw [if_neg hsecret]
  rw [hpatterns, ← toList_replace hsecret, String.ofList_toList]

/-- A boundary that knows one secret. -/
def boundaryOf (secret : String) : SandboxedExecutionBoundary := { redactor := { exactSecrets := [secret] } }

/-- An answer with a password in it. -/
def passwordData : Value := .dict [("note", .str "hunter2"), ("times", .list [.int 3])]

/-- INTERNAL: the password is redacted in the text as it is in the string. -/
theorem redactsLikeStrings_password :
    RedactsLikeStrings floatPy (boundaryOf "hunter2").redactor passwordData := by
  have hthrough : ∀ s ∈ stringsOf passwordData,
      SeesThroughEscapes floatPy (boundaryOf "hunter2").redactor s := by
    intro s hs
    obtain rfl := List.mem_singleton.mp hs
    unfold SeesThroughEscapes boundaryOf
    rw [redact_single (by decide), redact_single (by decide)]
    decide
  refine ⟨fun text htext => ?_, hthrough⟩
  have hredacted : SecretRedactor.redactJson floatPy (boundaryOf "hunter2").redactor passwordData =
      .dict [("note", .str "[REDACTED]"), ("times", .list [.int 3])] := by
    unfold passwordData boundaryOf
    rw [redactJson_dict, redactJsonEntries_cons, redactJson_str, redact_single (by decide)]
    decide
  rw [redactedLetters_eq _ _ _ rfl hthrough, hredacted]
  obtain rfl : "\x7b\"note\": \"hunter2\", \"times\": [3]\x7d" = text :=
    Option.some.inj (Eq.trans (by decide) htext)
  unfold boundaryOf
  rw [redact_single (by decide)]
  decide

/-- The password in a dictionary is redacted like any string. -/
theorem password_data_structural :
    ∃ data, (boundaryOf "hunter2").redactData floatPy floatJson passwordData = .ok data ∧
      data.canon = ((boundaryOf "hunter2").redactor.redactJson floatPy passwordData).canon :=
  redactData_structural (boundaryOf "hunter2") (floatsReadBack_floatText .plain) isJson_floatJson rfl (by decide)
    (show jsonDumps floatPy passwordData = some "\x7b\"note\": \"hunter2\", \"times\": [3]\x7d" by decide)
    fun _ => redactsLikeStrings_password

/-- A secret that is escaped in the JSON text comes through the boundary. -/
theorem escaped_secret_left :
    (boundaryOf "\u00f6").redactData floatPy floatJson (.list [.str "\u00f6"]) =
        .ok (.list [.str "\u00f6"]) ∧
      (boundaryOf "\u00f6").redactor.redactJson floatPy (.list [.str "\u00f6"]) =
        .list [.str "[REDACTED]"] := by
  constructor
  · have hdumps : floatJson.dumps (.list [.str "\u00f6"]) = .ok "[\"\\u00f6\"]" :=
      isJson_floatJson.dumps _ _ (by decide)
    have hredact : SecretRedactor.redact floatPy (boundaryOf "\u00f6").redactor "[\"\\u00f6\"]" =
        "[\"\\u00f6\"]" := by
      unfold boundaryOf
      rw [redact_single (by decide)]
      decide
    have hloads : floatJson.loads "[\"\\u00f6\"]" = .ok (.list [.str "\u00f6"]) :=
      isJson_floatJson.loads _ _ (by decide +kernel)
    have hblob : (floatJson.dumps (.list [.str "\u00f6"]) >>= fun blob =>
        floatJson.loads (SecretRedactor.redact floatPy (boundaryOf "\u00f6").redactor blob)) =
        .ok (.list [.str "\u00f6"]) := by
      rw [hdumps]
      exact (congrArg floatJson.loads hredact).trans hloads
    unfold SandboxedExecutionBoundary.redactData
    dsimp only
    rw [hblob]
  · unfold boundaryOf
    rw [redactJson_list, redactJsonItems_cons, redactJson_str, redact_single (by decide)]
    decide

end Shea.Analysis
