import Shea.Model.JsonReader
import Shea.Model.Sandbox

/-!
# Redaction of metadata

The walk of `security/secrets.py` over the metadata of an audit event, and what `json.dumps` makes of
the result. Metadata is any Python value that the sink can write: a dictionary may have keys that are
not texts, and a tuple is written like a list.
-/

set_option autoImplicit false

namespace Shea.Model

/-- A key that `json.dumps` writes. -/
inductive MetadataKey
  | none
  | bool (b : Bool)
  | int (n : ℤ)
  | float (x : PyFloat)
  | str (s : String)

inductive MetadataValue
  | none
  | bool (b : Bool)
  | int (n : ℤ)
  | float (x : PyFloat)
  | str (s : String)
  | list (items : List MetadataValue)
  | tuple (items : List MetadataValue)
  | dict (entries : List (MetadataKey × MetadataValue))
  | other (text : String)

/-- A `dict[str, Any]`, whatever its keys are. -/
abbrev MetadataMapping := List (MetadataKey × MetadataValue)

/-! ## The walk -/

namespace SecretRedactor

variable (py : Stdlib) (redactor : SecretRedactor)

mutual

/-- `_redact_value`. -/
def redactValue : MetadataValue → MetadataValue
  | .str value => .str (redactor.redact py value)
  | .dict entries => .dict (redactMapping entries)
  | .list items => .list (redactItems items)
  | value => value

/-- `[self._redact_value(item) for item in items]`. -/
def redactItems : List MetadataValue → List MetadataValue
  | [] => []
  | item :: items => redactValue item :: redactItems items

/-- `redact_mapping`. -/
def redactMapping : MetadataMapping → MetadataMapping
  | [] => []
  | (key, value) :: rest => (key, redactValue value) :: redactMapping rest

end

end SecretRedactor

/-- The metadata that `AuditRecorder.record` hands to its sink. -/
def safeMetadata (py : Stdlib) (redactor : Option SecretRedactor) (metadata : Option MetadataMapping) :
    MetadataMapping :=
  match redactor with
  | some redactor => redactor.redactMapping py (metadata.getD [])
  | none => metadata.getD []

/-! ## What `json.dumps` makes of it -/

section Written

variable (py : Stdlib)

/-- The text that stands for a key. -/
def MetadataKey.written : MetadataKey → String
  | .none => "null"
  | .bool true => "true"
  | .bool false => "false"
  | .int n => toString n
  | .float (.finite m e) => py.floatRepr (.finite m e)
  | .float .inf => "Infinity"
  | .float .negInf => "-Infinity"
  | .float .nan => "NaN"
  | .str s => s

namespace MetadataValue

mutual

/-- What is written: a tuple is a list, and every key a text. -/
def written : MetadataValue → Value
  | .none => .none
  | .bool b => .bool b
  | .int n => .int n
  | .float x => .float x
  | .str s => .str s
  | .list items => .list (writtenItems items)
  | .tuple items => .list (writtenItems items)
  | .dict entries => .dict (writtenEntries entries)
  | .other text => .other text {} .none

def writtenItems : List MetadataValue → List Value
  | [] => []
  | item :: items => item.written :: writtenItems items

def writtenEntries : MetadataMapping → Dict
  | [] => []
  | (key, value) :: rest => (key.written py, value.written) :: writtenEntries rest

end

end MetadataValue

namespace Value

mutual

/-- The texts, keys and elements in what `json.dumps` writes for a value. -/
def writtenTexts : Value → List String
  | .str text => [text]
  | .list items => writtenTextsItems items
  | .dict entries => writtenTextsEntries entries
  | .other _ _ (some value) => value.writtenTexts
  | value => (jsonDumps py value).toList

def writtenTextsItems : List Value → List String
  | [] => []
  | item :: items => item.writtenTexts ++ writtenTextsItems items

def writtenTextsEntries : Dict → List String
  | [] => []
  | (key, value) :: rest => key :: value.writtenTexts ++ writtenTextsEntries rest

end

end Value

end Written

end Shea.Model
