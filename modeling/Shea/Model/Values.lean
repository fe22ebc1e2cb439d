import Mathlib.Algebra.Ring.Int.Defs
import Mathlib.Data.List.Sort

/-!
# Python values

Arguments, evidence and metadata travel through the runtime as `dict[str, Any]`. `Value` is what
occurs there: the values that `json` writes and reads back as they are, and, as `other`, any other
object, known by its `str()`, by what the code can find out about it, and by what `json` makes of it. A
tuple, a dictionary with keys that are not texts, a `bytearray`, a set, a list that contains itself are
such objects.

A binary float is kept exactly, as `mantissa * 2 ^ exponent`, because `int()` truncates it; how it
prints (`repr`) is left to `Stdlib`, with the hash functions and the text functions that depend on
Unicode tables.
-/

set_option autoImplicit false

namespace Shea.Model

/-- A Python `float`. -/
inductive PyFloat
  | finite (mantissa exponent : ℤ)
  | inf
  | negInf
  | nan
  deriving DecidableEq, Repr

/-- What the code can find out about an object it does not look into. -/
structure Traits where
  /-- `bool(obj)`. -/
  truthy : Bool := true
  /-- `hash(obj)` does not raise. -/
  hashable : Bool := true
  /-- `json.dumps(obj, sort_keys=True, default=str)` has nothing to raise about the object itself: its
  keys can be compared, its `str()` does not raise. -/
  sorts : Bool := true
  /-- `str(obj)` does not raise. -/
  prints : Bool := true
  /-- `dict(obj)` does not raise. Asked only of an object that `json` does not write. -/
  pairs : Bool := false
  /-- The object has two elements, the first hashable. Asked only of one that `json` does not write. -/
  pair : Bool := false
  deriving DecidableEq, Repr, Inhabited

/-- A Python value as it occurs in `dict[str, Any]`. Of another object, `written` is the value that
`json.dumps` writes in its place, such as the list of a tuple's items; there is none where it raises
`TypeError`. -/
inductive Value
  | none
  | bool (b : Bool)
  | int (n : ℤ)
  | float (x : PyFloat)
  | str (s : String)
  | list (items : List Value)
  | dict (entries : List (String × Value))
  | other (text : String) (traits : Traits) (written : Option Value)
  deriving Repr, Inhabited

/-- A `dict[str, Any]`: entries in insertion order. -/
abbrev Dict := List (String × Value)

namespace Value

mutual

/-- Equality of values is decided structurally. -/
def decEq : (a b : Value) → Decidable (a = b)
  | none, b => by cases b <;> first | exact isTrue rfl | exact isFalse (by simp)
  | bool x, b => by
      cases b with
      | bool y => exact decidable_of_iff (x = y) (by simp)
      | _ => exact isFalse (by simp)
  | int x, b => by
      cases b with
      | int y => exact decidable_of_iff (x = y) (by simp)
      | _ => exact isFalse (by simp)
  | float x, b => by
      cases b with
      | float y => exact decidable_of_iff (x = y) (by simp)
      | _ => exact isFalse (by simp)
  | str x, b => by
      cases b with
      | str y => exact decidable_of_iff (x = y) (by simp)
      | _ => exact isFalse (by simp)
  | list xs, b => by
      cases b with
      | list ys => exact @decidable_of_iff _ (xs = ys) (by simp) (decEqList xs ys)
      | _ => exact isFalse (by simp)
  | dict xs, b => by
      cases b with
      | dict ys => exact @decidable_of_iff _ (xs = ys) (by simp) (decEqDict xs ys)
      | _ => exact isFalse (by simp)
  | other x t .none, b => by
      cases b with
      | other y u w =>
        exact @decidable_of_iff _ (x = y ∧ t = u ∧ Option.none = w) (by simp) inferInstance
      | _ => exact isFalse (by simp)
  | other x t (some v), b => by
      cases b with
      | other y u w =>
        cases w with
        | none => exact isFalse (by simp)
        | some w =>
          exact @decidable_of_iff _ (x = y ∧ t = u ∧ v = w) (by simp)
            (@instDecidableAnd _ _ inferInstance
              (@instDecidableAnd _ _ inferInstance (decEq v w)))
      | _ => exact isFalse (by simp)

def decEqList : (xs ys : List Value) → Decidable (xs = ys)
  | [], [] => isTrue rfl
  | [], _ :: _ => isFalse (by simp)
  | _ :: _, [] => isFalse (by simp)
  | x :: xs, y :: ys =>
      @decidable_of_iff _ (x = y ∧ xs = ys) (by simp)
        (@instDecidableAnd _ _ (decEq x y) (decEqList xs ys))

def decEqDict : (xs ys : List (String × Value)) → Decidable (xs = ys)
  | [], [] => isTrue rfl
  | [], _ :: _ => isFalse (by simp)
  | _ :: _, [] => isFalse (by simp)
  | (k, x) :: xs, (l, y) :: ys =>
      @decidable_of_iff _ (k = l ∧ x = y ∧ xs = ys) (by simp [and_assoc])
        (@instDecidableAnd _ _ inferInstance
          (@instDecidableAnd _ _ (decEq x y) (decEqDict xs ys)))

end

instance : DecidableEq Value := decEq

/-- `bool(value)`. -/
def truthy : Value → Bool
  | none => false
  | bool b => b
  | int n => n != 0
  | float (.finite m _) => m != 0
  | float _ => true
  | str s => s != ""
  | list items => !items.isEmpty
  | dict entries => !entries.isEmpty
  | other _ traits _ => traits.truthy

/-- An optional text as a value. -/
def ofOption (text : Option String) : Value := text.elim .none .str

/-- `a or b`. -/
def orElse (a b : Value) : Value := if a.truthy then a else b

end Value

/-- More digits than this are neither written nor read (`sys.get_int_max_str_digits()`). -/
def maxIntDigits : ℕ := 4300

namespace Value

mutual

/-- `json.dumps` without a `default` knows every object in the value: no `TypeError` is raised. -/
def serializable : Value → Bool
  | none => true
  | bool _ => true
  | int _ => true
  | float _ => true
  | str _ => true
  | list items => serializableList items
  | dict entries => serializableDict entries
  | other _ _ .none => false
  | other _ _ (some value) => value.serializable

def serializableList : List Value → Bool
  | [] => true
  | x :: xs => x.serializable && serializableList xs

def serializableDict : List (String × Value) → Bool
  | [] => true
  | (_, x) :: xs => x.serializable && serializableDict xs

end

/-- `hash(value)` does not raise. -/
def hashable : Value → Bool
  | list _ => false
  | dict _ => false
  | other _ traits _ => traits.hashable
  | _ => true

mutual

/-- `json.dumps(value, sort_keys=True, default=str)` does not raise. -/
def dumpable : Value → Bool
  | none => true
  | bool _ => true
  | int n => (Nat.toDigits 10 n.natAbs).length ≤ maxIntDigits
  | float _ => true
  | str _ => true
  | list items => dumpableList items
  | dict entries => dumpableDict entries
  | other _ traits .none => traits.sorts
  | other _ traits (some value) => traits.sorts && value.dumpable

def dumpableList : List Value → Bool
  | [] => true
  | x :: xs => x.dumpable && dumpableList xs

def dumpableDict : List (String × Value) → Bool
  | [] => true
  | (_, x) :: xs => x.dumpable && dumpableDict xs

end

mutual

/-- `str(value)` does not raise. -/
def prints : Value → Bool
  | none => true
  | bool _ => true
  | int n => (Nat.toDigits 10 n.natAbs).length ≤ maxIntDigits
  | float _ => true
  | str _ => true
  | list items => printsList items
  | dict entries => printsDict entries
  | other _ traits _ => traits.prints

def printsList : List Value → Bool
  | [] => true
  | x :: xs => x.prints && printsList xs

def printsDict : List (String × Value) → Bool
  | [] => true
  | (_, x) :: xs => x.prints && printsDict xs

end

mutual

/-- What `json.loads` reads of what `json.dumps` wrote: a tuple is a list then, every key a text. -/
def reloaded : Value → Value
  | none => none
  | bool b => bool b
  | int n => int n
  | float x => float x
  | str s => str s
  | list items => list (reloadedList items)
  | dict entries => dict (reloadedDict entries)
  | other text traits .none => other text traits .none
  | other _ _ (some value) => value.reloaded

def reloadedList : List Value → List Value
  | [] => []
  | x :: xs => x.reloaded :: reloadedList xs

def reloadedDict : List (String × Value) → List (String × Value)
  | [] => []
  | (k, x) :: xs => (k, x.reloaded) :: reloadedDict xs

end

mutual

/-- The value is read back as it is. -/
def plain : Value → Bool
  | none => true
  | bool _ => true
  | int _ => true
  | float _ => true
  | str _ => true
  | list items => plainList items
  | dict entries => plainDict entries
  | other _ _ written => written.isNone

def plainList : List Value → Bool
  | [] => true
  | x :: xs => x.plain && plainList xs

def plainDict : List (String × Value) → Bool
  | [] => true
  | (_, x) :: xs => x.plain && plainDict xs

end

mutual

/-- What was read back is plain. -/
theorem plain_reloaded : ∀ value : Value, value.reloaded.plain = true
  | none | bool _ | int _ | float _ | str _ | other _ _ .none => rfl
  | list items => plainList_reloaded items
  | dict entries => plainDict_reloaded entries
  | other _ _ (some value) => plain_reloaded value

/-- INTERNAL: so it is item by item. -/
theorem plainList_reloaded : ∀ items : List Value, plainList (reloadedList items) = true
  | [] => rfl
  | x :: xs => Bool.and_eq_true_iff.mpr ⟨plain_reloaded x, plainList_reloaded xs⟩

/-- INTERNAL: and entry by entry. -/
theorem plainDict_reloaded : ∀ entries : List (String × Value), plainDict (reloadedDict entries) = true
  | [] => rfl
  | (_, x) :: xs => Bool.and_eq_true_iff.mpr ⟨plain_reloaded x, plainDict_reloaded xs⟩

end

mutual

/-- A plain value is read back as it is. -/
theorem reloaded_of_plain : ∀ value : Value, value.plain = true → value.reloaded = value
  | none, _ | bool _, _ | int _, _ | float _, _ | str _, _ | other _ _ .none, _ => rfl
  | list items, h => congrArg list (reloadedList_of_plain items h)
  | dict entries, h => congrArg dict (reloadedDict_of_plain entries h)

/-- INTERNAL: so are plain items. -/
theorem reloadedList_of_plain :
    ∀ items : List Value, plainList items = true → reloadedList items = items
  | [], _ => rfl
  | x :: xs, h => by
      obtain ⟨hx, hxs⟩ := Bool.and_eq_true_iff.mp h
      exact congrArg₂ List.cons (reloaded_of_plain x hx) (reloadedList_of_plain xs hxs)

/-- INTERNAL: and plain entries. -/
theorem reloadedDict_of_plain :
    ∀ entries : List (String × Value), plainDict entries = true → reloadedDict entries = entries
  | [], _ => rfl
  | (k, x) :: xs, h => by
      obtain ⟨hx, hxs⟩ := Bool.and_eq_true_iff.mp h
      exact congrArg₂ (fun y ys => (k, y) :: ys) (reloaded_of_plain x hx) (reloadedDict_of_plain xs hxs)

end

mutual

/-- What was read back can be written again. -/
theorem serializable_reloaded : ∀ value : Value, value.reloaded.serializable = value.serializable
  | none | bool _ | int _ | float _ | str _ | other _ _ .none => rfl
  | list items => serializableList_reloaded items
  | dict entries => serializableDict_reloaded entries
  | other _ _ (some value) => serializable_reloaded value

/-- INTERNAL: item by item. -/
theorem serializableList_reloaded :
    ∀ items : List Value, serializableList (reloadedList items) = serializableList items
  | [] => rfl
  | x :: xs => congrArg₂ and (serializable_reloaded x) (serializableList_reloaded xs)

/-- INTERNAL: entry by entry. -/
theorem serializableDict_reloaded : ∀ entries : List (String × Value),
    serializableDict (reloadedDict entries) = serializableDict entries
  | [] => rfl
  | (_, x) :: xs => congrArg₂ and (serializable_reloaded x) (serializableDict_reloaded xs)

end

end Value

namespace Dict

/-- The dictionary that is read back. -/
def reloaded (d : Dict) : Dict := Value.reloadedDict d

/-- Every value in the dictionary is read back as it is. -/
def plain (d : Dict) : Bool := Value.plainDict d

/-- The dictionaries that are read back as they are. -/
theorem reloaded_eq_iff {d : Dict} : d.reloaded = d ↔ d.plain = true :=
  ⟨fun h => h ▸ Value.plainDict_reloaded d, Value.reloadedDict_of_plain d⟩

/-- Reading back a second time changes nothing. -/
@[simp] theorem reloaded_reloaded (d : Dict) : d.reloaded.reloaded = d.reloaded :=
  reloaded_eq_iff.mpr (Value.plainDict_reloaded d)

/-- A dictionary that was read back can be written when the one that was written can. -/
@[simp] theorem serializable_reloaded (d : Dict) :
    (Value.dict d.reloaded).serializable = (Value.dict d).serializable :=
  Value.serializableDict_reloaded d

/-- `d.get(key)`, with `None` for a missing key. -/
def get (d : Dict) (key : String) : Value := (d.lookup key).getD .none

/-- `key in d`. -/
def has (d : Dict) (key : String) : Bool := (d.lookup key).isSome

/-- `d[key] = value`: the entry keeps its place, a new one goes last. -/
def set : Dict → String → Value → Dict
  | [], key, value => [(key, value)]
  | (k, v) :: rest, key, value =>
      if k = key then (k, value) :: rest else (k, v) :: set rest key value

/-- `d.update(e)`, also `{**d, **e}`. -/
def update (d e : Dict) : Dict := e.foldl (fun acc entry => set acc entry.1 entry.2) d

/-- INTERNAL: the entry that was set is found. -/
@[simp] theorem get_set_self (d : Dict) (key : String) (value : Value) :
    (d.set key value).get key = value := by
  induction d with
  | nil => simp [set, get]
  | cons entry rest ih =>
    obtain ⟨k, v⟩ := entry
    unfold set
    by_cases hk : k = key
    · simp [hk, get]
    · simpa [hk, get, List.lookup_cons, Ne.symm hk, beq_eq_false_iff_ne.mpr (Ne.symm hk)] using ih

/-- INTERNAL: an entry after setting is the new one or an old one. -/
theorem mem_set {d : Dict} {key : String} {value : Value} {entry : String × Value}
    (h : entry ∈ d.set key value) : entry.2 = value ∨ entry ∈ d := by
  induction d with
  | nil => exact .inl (by simp_all [set])
  | cons head rest ih =>
    unfold set at h
    split at h
    · rcases List.mem_cons.mp h with rfl | h
      · exact .inl rfl
      · exact .inr (List.mem_cons_of_mem _ h)
    · rcases List.mem_cons.mp h with rfl | h
      · exact .inr (List.mem_cons_self ..)
      · exact (ih h).imp id (List.mem_cons_of_mem _)

/-- A name is the first one or among the rest. -/
theorem has_cons (key : String) (old : Value) (d : Dict) (name : String) :
    Dict.has ((key, old) :: d) name = (decide (name = key) || d.has name) := by
  unfold Dict.has
  rw [List.lookup_cons]
  by_cases h : name = key
  · simp [h]
  · have hbeq : (name == key) = false := by simpa using h
    simp [h, hbeq]

/-- An entry that was set, or was there before. -/
theorem has_set (d : Dict) (name other : String) (value : Value) :
    (d.set name value).has other = (decide (other = name) || d.has other) := by
  induction d with
  | nil => exact has_cons name value [] other
  | cons entry rest ih =>
    obtain ⟨key, old⟩ := entry
    unfold Dict.set
    by_cases hkey : key = name
    · subst hkey
      rw [if_pos rfl, has_cons, has_cons]
      simp
    · rw [if_neg hkey, has_cons, has_cons, ih, Bool.or_left_comm]

/-- A new name goes last. -/
theorem set_of_missing {d : Dict} {name : String} (h : d.has name = false) (value : Value) :
    d.set name value = d ++ [(name, value)] := by
  induction d with
  | nil => rfl
  | cons entry rest ih =>
    obtain ⟨key, old⟩ := entry
    rw [has_cons, Bool.or_eq_false_iff, decide_eq_false_iff_not] at h
    unfold Dict.set
    rw [if_neg (Ne.symm h.1), ih h.2]
    rfl

/-- A name that is there has an entry. -/
theorem has_iff_mem {d : Dict} {name : String} : d.has name = true ↔ ∃ value, (name, value) ∈ d := by
  induction d with
  | nil => simp [Dict.has]
  | cons entry rest ih =>
    obtain ⟨key, old⟩ := entry
    rw [has_cons, Bool.or_eq_true, ih]
    constructor
    · rintro (hkey | ⟨value, hmem⟩)
      · obtain rfl : name = key := by simpa using hkey
        exact ⟨old, List.mem_cons_self ..⟩
      · exact ⟨value, List.mem_cons_of_mem _ hmem⟩
    · rintro ⟨value, hmem⟩
      rcases List.mem_cons.mp hmem with heq | hmem
      · exact .inl (by simpa using (Prod.mk.inj heq).1)
      · exact .inr ⟨value, hmem⟩

end Dict

namespace Value

/-- A dictionary can be written when each of its values can. -/
theorem serializable_dict_iff {entries : Dict} :
    (Value.dict entries).serializable = true ↔ ∀ entry ∈ entries, entry.2.serializable = true := by
  rw [serializable]
  induction entries with
  | nil => simp [serializableDict]
  | cons entry rest ih =>
    obtain ⟨k, v⟩ := entry
    simp [serializableDict, ih]

/-- INTERNAL: setting a serializable value keeps the mapping serializable. -/
theorem serializable_set {d : Dict} (hd : (Value.dict d).serializable = true) (key : String)
    {value : Value} (hv : value.serializable = true) :
    (Value.dict (d.set key value)).serializable = true := by
  rw [serializable_dict_iff] at hd ⊢
  intro entry hentry
  rcases Dict.mem_set hentry with h | h
  · rw [h, hv]
  · exact hd entry h

/-- INTERNAL: so does an update by a serializable mapping. -/
theorem serializable_update {d e : Dict} (hd : (Value.dict d).serializable = true)
    (he : (Value.dict e).serializable = true) : (Value.dict (d.update e)).serializable = true := by
  unfold Dict.update
  induction e generalizing d with
  | nil => exact hd
  | cons entry rest ih =>
    rw [serializable_dict_iff] at he
    have hrest : (Value.dict rest).serializable = true :=
      serializable_dict_iff.mpr fun x hx => he x (List.mem_cons_of_mem _ hx)
    exact ih (serializable_set hd entry.1 (he entry (List.mem_cons_self ..))) hrest

end Value

/-! ## Slices and text -/

/-- `items[:bound]`; a negative bound counts from the end. -/
def sliceTo {α : Type} (items : List α) (bound : ℤ) : List α :=
  if 0 ≤ bound then items.take bound.toNat else items.take (items.length - bound.natAbs)

/-- `text.startswith(start)`. -/
def startsWith (text start : String) : Bool := start.toList.isPrefixOf text.toList

/-- `text.endswith(tail)`. -/
def endsWith (text tail : String) : Bool := tail.toList.isSuffixOf text.toList

/-- `part in text`. -/
def containsText (text part : String) : Bool := text.toList.tails.any part.toList.isPrefixOf

/-- `text.split(sep, 1)[0]`: the text before the first separator character. -/
def beforeFirst (sep : Char) (text : String) : String :=
  String.ofList (text.toList.takeWhile (· != sep))

/-- The zero digits of the Unicode decimal-digit blocks. -/
def decimalZeros : List ℕ :=
  [0x30, 0x660, 0x6F0, 0x7C0, 0x966, 0x9E6, 0xA66, 0xAE6, 0xB66, 0xBE6, 0xC66, 0xCE6, 0xD66,
    0xDE6, 0xE50, 0xED0, 0xF20, 0x1040, 0x1090, 0x17E0, 0x1810, 0x1946, 0x19D0, 0x1A80, 0x1A90,
    0x1B50, 0x1BB0, 0x1C40, 0x1C50, 0xA620, 0xA8D0, 0xA900, 0xA9D0, 0xA9F0, 0xAA50, 0xABF0, 0xFF10,
    0x104A0, 0x10D30, 0x11066, 0x110F0, 0x11136, 0x111D0, 0x112F0, 0x11450, 0x114D0, 0x11650,
    0x116C0, 0x11730, 0x118E0, 0x11950, 0x11C50, 0x11D50, 0x11DA0, 0x11F50, 0x16A60, 0x16AC0,
    0x16B50, 0x1D7CE, 0x1D7D8, 0x1D7E2, 0x1D7EC, 0x1D7F6, 0x1E140, 0x1E2F0, 0x1E4F0, 0x1E950,
    0x1FBF0]

/-- The value of a decimal digit. -/
def decimalDigit (c : Char) : Option ℕ :=
  (decimalZeros.find? fun z => z ≤ c.toNat ∧ c.toNat < z + 10).map fun z => c.toNat - z

/-- `c.isspace()`. -/
def isSpace (c : Char) : Bool :=
  let n := c.toNat
  (0x09 ≤ n && n ≤ 0x0d) || (0x1c ≤ n && n ≤ 0x20) || n == 0x85 || n == 0xa0 || n == 0x1680 ||
    (0x2000 ≤ n && n ≤ 0x200a) || n == 0x2028 || n == 0x2029 || n == 0x202f || n == 0x205f ||
    n == 0x3000

/-- `text.strip()`, on the characters. -/
def strip (text : List Char) : List Char :=
  ((text.dropWhile isSpace).reverse.dropWhile isSpace).reverse

/-- Digits with single underscores between them; `pending` says that a digit must follow. -/
def digitsOf : (pending : Bool) → List Char → ℕ → Option ℕ
  | pending, [], acc => if pending then none else some acc
  | pending, c :: rest, acc =>
      if c = '_' then if pending then none else digitsOf true rest acc
      else match decimalDigit c with
        | some d => digitsOf false rest (10 * acc + d)
        | none => none

/-- `int(text)`; `none` is a `ValueError`, which more than 4300 digits raise as well. -/
def intOfText (text : String) : Option ℤ :=
  let body := strip text.toList
  let (negative, digits) := match body with
    | '-' :: rest => (true, rest)
    | '+' :: rest => (false, rest)
    | _ => (false, body)
  if 4300 < (digits.filter (· != '_')).length then none
  else (digitsOf true digits 0).map fun n => if negative then -(n : ℤ) else n

/-! ## The parts of the interpreter left abstract -/

/-- What the code asks of an `ipaddress` address. -/
structure IpAddress where
  isPrivate : Bool
  isLoopback : Bool
  isLinkLocal : Bool
  isReserved : Bool
  isMulticast : Bool
  isUnspecified : Bool
  deriving DecidableEq, Repr

/-- Functions of the Python standard library that the model does not compute: the hash functions,
the texts of floats, containers, datetimes and paths, lower-casing over all of Unicode, URLs, IP
addresses and regular expressions. -/
structure Stdlib where
  /-- `hashlib.sha256(text.encode()).hexdigest()`. -/
  sha256 : String → String
  /-- `hmac.new(secret, message.encode(), hashlib.sha256).hexdigest()`. -/
  hmacSha256 : (secret message : String) → String
  /-- `repr(x)` of a float, which is also what `json.dumps` writes for a finite one. -/
  floatRepr : PyFloat → String
  /-- `str(value)`. -/
  strOf : Value → String
  /-- `repr(value)`. -/
  reprOf : Value → String
  /-- `instant.isoformat()`. -/
  isoformat : ℤ → String
  /-- `str(Path(text))`. -/
  pathText : String → String
  /-- `text.lower()`. -/
  lower : String → String
  /-- `urlparse(text)`: the scheme and the host name, empty where missing; `none` is the
  `ValueError` of a malformed host. -/
  urlparse : String → Option (String × String)
  /-- `ipaddress.ip_address(text)`; `none` is its `ValueError`. -/
  ipAddress : String → Option IpAddress
  /-- `bool(re.match(pattern, text))`; `none` is `re.error`. -/
  reMatch : (pattern text : String) → Option Bool
  /-- `datetime.fromisoformat(text)`; `none` is its `ValueError`. -/
  fromisoformat : String → Option ℤ := fun _ => none
  /-- `pattern.sub(replacement, text)`. -/
  reSub : (pattern replacement text : String) → String := fun _ _ text => text

/-- `str(value)`, computed where the text of the value is its own. -/
def pyStr (py : Stdlib) : Value → String
  | .str s => s
  | .int n => toString n
  | .none => "None"
  | .bool true => "True"
  | .bool false => "False"
  | v => py.strOf v

/-! ## `json.dumps` -/

/-- A hexadecimal digit, in lower case. -/
def hexDigit (n : ℕ) : Char := if n < 10 then Char.ofNat (48 + n) else Char.ofNat (87 + n)

/-- `\uXXXX`. -/
def unicodeEscape (n : ℕ) : List Char :=
  ['\\', 'u', hexDigit (n / 4096 % 16), hexDigit (n / 256 % 16), hexDigit (n / 16 % 16),
    hexDigit (n % 16)]

/-- One character of a JSON string (`ensure_ascii`): printable ASCII stands for itself, everything
outside the basic plane becomes a surrogate pair. -/
def escapeChar (c : Char) : List Char :=
  if c = '"' then ['\\', '"']
  else if c = '\\' then ['\\', '\\']
  else if c = '\n' then ['\\', 'n']
  else if c = '\r' then ['\\', 'r']
  else if c = '\t' then ['\\', 't']
  else if c.toNat = 0x0c then ['\\', 'f']
  else if c.toNat = 0x08 then ['\\', 'b']
  else if 0x20 ≤ c.toNat ∧ c.toNat ≤ 0x7e then [c]
  else if c.toNat < 0x10000 then unicodeEscape c.toNat
  else unicodeEscape (0xd800 + (c.toNat - 0x10000) / 0x400) ++
    unicodeEscape (0xdc00 + (c.toNat - 0x10000) % 0x400)

/-- A JSON string literal. -/
def quote (text : String) : String :=
  String.ofList (['"'] ++ text.toList.flatMap escapeChar ++ ['"'])

/-- The two separators of `json.dumps`. -/
structure Separators where
  item : String
  key : String

/-- `json.dumps` without `separators=`. -/
def Separators.default : Separators := ⟨", ", ": "⟩

/-- `separators=(",", ":")`. -/
def Separators.compact : Separators := ⟨",", ":"⟩

/-- Entries in increasing key order, as `sort_keys=True` writes them. -/
def sortEntries {α : Type} (entries : List (String × α)) : List (String × α) :=
  entries.insertionSort fun a b => a.1 ≤ b.1

section Dumps

variable (py : Stdlib) (sep : Separators)

mutual

/-- `json.dumps(value, sort_keys=True, default=str)`. -/
def dumps : Value → String
  | .none => "null"
  | .bool true => "true"
  | .bool false => "false"
  | .int n => toString n
  | .float (.finite m e) => py.floatRepr (.finite m e)
  | .float .inf => "Infinity"
  | .float .negInf => "-Infinity"
  | .float .nan => "NaN"
  | .str s => quote s
  | .list items => "[" ++ String.intercalate sep.item (dumpsList items) ++ "]"
  | .dict entries =>
      "\x7b" ++ String.intercalate sep.item ((sortEntries (dumpsDict entries)).map Prod.snd) ++ "\x7d"
  | .other text _ .none => quote text
  | .other _ _ (some value) => dumps value

def dumpsList : List Value → List String
  | [] => []
  | x :: xs => dumps x :: dumpsList xs

def dumpsDict : List (String × Value) → List (String × String)
  | [] => []
  | (k, x) :: xs => (k, quote k ++ sep.key ++ dumps x) :: dumpsDict xs

end

end Dumps

end Shea.Model
