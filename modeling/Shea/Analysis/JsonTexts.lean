import Shea.Computation.Codes
import Shea.Model.Values
import Mathlib.NumberTheory.Padics.PadicVal.Defs

/-!
# What a JSON text tells

`json.dumps(…, sort_keys=True, default=str)` writes two values alike exactly when they have the same
content: the same entries whatever their order, the same number whatever its exponent, the same text
for an object that JSON does not know. Hashes are taken of these texts.

A text is read from the left. Numbers and words end at the first letter that occurs in none of them,
strings at a quotation mark that is not escaped, lists and dictionaries at their bracket.
-/

set_option autoImplicit false

namespace Shea.Model

/-! ## Content -/

/-- A float with the factors of two taken out of its mantissa. -/
def PyFloat.canon : PyFloat → PyFloat
  | .finite m e =>
      if m = 0 then .finite 0 0
      else .finite (m / 2 ^ padicValNat 2 m.natAbs) (e + padicValNat 2 m.natAbs)
  | .inf => .inf
  | .negInf => .negInf
  | .nan => .nan

/-- INTERNAL: a finite float stays finite. -/
theorem PyFloat.canon_finite (m e : ℤ) : ∃ m' e', (PyFloat.finite m e).canon = .finite m' e' := by
  by_cases hm : m = 0
  · exact ⟨0, 0, if_pos hm⟩
  · exact ⟨_, _, if_neg hm⟩

namespace Value

mutual

/-- The content of a value. -/
def canon : Value → Value
  | .none => .none
  | .bool b => .bool b
  | .int n => .int n
  | .float x => .float x.canon
  | .str s => .str s
  | .list items => .list (canonList items)
  | .dict entries => .dict (sortEntries (canonDict entries))
  | .other text _ .none => .str text
  | .other _ _ (some value) => value.canon

def canonList : List Value → List Value
  | [] => []
  | x :: xs => x.canon :: canonList xs

def canonDict : List (String × Value) → List (String × Value)
  | [] => []
  | (k, x) :: xs => (k, x.canon) :: canonDict xs

end

/-- INTERNAL: the items are put in order one by one. -/
theorem canonList_eq_map (items : List Value) : canonList items = items.map canon := by
  induction items with
  | nil => rfl
  | cons x xs ih => rw [canonList, ih, List.map_cons]

/-- INTERNAL: so are the entries. -/
theorem canonDict_eq_map (entries : Dict) :
    canonDict entries = entries.map fun entry => (entry.1, entry.2.canon) := by
  induction entries with
  | nil => rfl
  | cons entry rest ih => rw [canonDict, ih, List.map_cons]

/-- INTERNAL: a list in order. -/
theorem canon_list (items : List Value) : (Value.list items).canon = .list (items.map canon) :=
  congrArg Value.list (canonList_eq_map items)

/-- INTERNAL: a dictionary in order. -/
theorem canon_dict (entries : Dict) : (Value.dict entries).canon =
    .dict (sortEntries (entries.map fun entry => (entry.1, entry.2.canon))) :=
  congrArg (fun written => Value.dict (sortEntries written)) (canonDict_eq_map entries)

/-- The value is not an object that is written as another value. -/
def Direct : Value → Prop
  | .other _ _ (some _) => False
  | _ => True

/-- INTERNAL: what holds of the values that are written as they are, and is handed on to the objects that
are written in the same way, holds of all values. -/
theorem byWritten {P : Value → Prop} (direct : ∀ v : Value, v.Direct → P v)
    (through : ∀ text traits v, P v → P (.other text traits (some v))) : ∀ v, P v
  | .other text traits (some v) => through text traits v (byWritten direct through v)
  | .other _ _ .none => direct _ trivial
  | .none => direct _ trivial
  | .bool _ => direct _ trivial
  | .int _ => direct _ trivial
  | .float _ => direct _ trivial
  | .str _ => direct _ trivial
  | .list _ => direct _ trivial
  | .dict _ => direct _ trivial

end Value

/-- Sorting entries by key does not look at what is under the keys. -/
theorem sortEntries_map {α β : Type} (f : String × α → String × β) (hf : ∀ entry, (f entry).1 = entry.1)
    (entries : List (String × α)) : sortEntries (entries.map f) = (sortEntries entries).map f := by
  unfold sortEntries
  refine (List.map_insertionSort _ _ f entries fun a _ b _ => ?_).symm
  rw [hf a, hf b]

/-- INTERNAL: sorting keeps the entries. -/
theorem mem_sortEntries {α : Type} {entries : List (String × α)} {entry : String × α} :
    entry ∈ sortEntries entries ↔ entry ∈ entries := List.mem_insertionSort _

end Shea.Model

namespace Shea.Analysis

open Shea.Computation Shea.Model

/-! ## Strings -/

/-- The value of a hexadecimal digit. -/
def hexValue (c : Char) : ℕ := if c.toNat < 58 then c.toNat - 48 else c.toNat - 87

/-- Four hexadecimal digits. -/
def readUnit : List Char → Option (ℕ × List Char)
  | a :: b :: c :: d :: s =>
      some (4096 * hexValue a + 256 * hexValue b + 16 * hexValue c + hexValue d, s)
  | _ => none

/-- A code point, in one unit or in two. -/
def readCode (s : List Char) : Option (Char × List Char) :=
  match readUnit s with
  | none => none
  | some (n, s) =>
    if 0xd800 ≤ n ∧ n < 0xdc00 then
      (readUnit (s.drop 2)).map fun (m, s) =>
        (Char.ofNat (0x10000 + 0x400 * (n - 0xd800) + (m - 0xdc00)), s)
    else some (Char.ofNat n, s)

/-- The letters that stand for a control character or for themselves after a backslash. -/
def shortEscapes : List (Char × Char) :=
  [('"', '"'), ('\\', '\\'), ('n', '\n'), ('r', '\r'), ('t', '\t'), ('f', Char.ofNat 0x0c),
    ('b', Char.ofNat 0x08)]

/-- One character of a string literal. -/
def readChar : List Char → Option (Char × List Char)
  | [] => none
  | '\\' :: 'u' :: s => readCode s
  | '\\' :: c :: s => (shortEscapes.lookup c).map (·, s)
  | c :: s => some (c, s)

section Strings

/-- A hexadecimal digit has its value. -/
theorem hexValue_hexDigit {n : ℕ} (h : n < 16) : hexValue (hexDigit n) = n := by
  have hall : ∀ m : Fin 16, hexValue (hexDigit m.val) = m.val := by decide
  exact hall ⟨n, h⟩

/-- INTERNAL: an escaped code unit is read. -/
theorem readUnit_unicodeEscape {n : ℕ} (h : n < 65536) (s : List Char) :
    readUnit ((unicodeEscape n).drop 2 ++ s) = some (n, s) := by
  have hdigit : ∀ m, hexValue (hexDigit (m % 16)) = m % 16 :=
    fun m => hexValue_hexDigit (Nat.mod_lt _ (by decide))
  have hsum : 4096 * (n / 4096 % 16) + 256 * (n / 256 % 16) + 16 * (n / 16 % 16) + n % 16 = n := by
    omega
  simp [unicodeEscape, readUnit, hdigit, hsum]

/-- INTERNAL: a character is read back from its escape.
SOURCE: security/binding.py:40-46 -/
theorem readChar_escapeChar (c : Char) (s : List Char) : readChar (escapeChar c ++ s) = some (c, s) := by
  have hcode : ∀ n rest, readChar (unicodeEscape n ++ rest) =
      readCode ((unicodeEscape n).drop 2 ++ rest) := fun n rest => rfl
  have hvalid : c.toNat < 0xd800 ∨ (0xdfff < c.toNat ∧ c.toNat < 0x110000) := c.valid
  unfold escapeChar
  split_ifs with hquote hback hn hr ht hf hb hplain hbasic
  · rw [hquote]; rfl
  · rw [hback]; rfl
  · rw [hn]; rfl
  · rw [hr]; rfl
  · rw [ht]; rfl
  · rw [← Char.ofNat_toNat c, hf]; rfl
  · rw [← Char.ofNat_toNat c, hb]; rfl
  · rw [List.singleton_append]
    unfold readChar
    split
    · simp_all
    · simp_all
    · simp_all
    · simp_all
  · rw [hcode]
    unfold readCode
    rw [readUnit_unicodeEscape hbasic]
    have hno : ¬ (0xd800 ≤ c.toNat ∧ c.toNat < 0xdc00) := by omega
    simp only [if_neg hno, Char.ofNat_toNat]
  · rw [List.append_assoc, hcode]
    unfold readCode
    rw [readUnit_unicodeEscape (by omega)]
    have hyes : 0xd800 ≤ 0xd800 + (c.toNat - 0x10000) / 0x400 ∧
        0xd800 + (c.toNat - 0x10000) / 0x400 < 0xdc00 := by omega
    have hdrop : ∀ n, (unicodeEscape n ++ s).drop 2 = (unicodeEscape n).drop 2 ++ s := fun n => rfl
    have hwhole : 0x10000 + 0x400 * (0xd800 + (c.toNat - 0x10000) / 0x400 - 0xd800) +
        (0xdc00 + (c.toNat - 0x10000) % 0x400 - 0xdc00) = c.toNat := by omega
    simp only [if_pos hyes, hdrop]
    rw [readUnit_unicodeEscape (by omega)]
    simp only [Option.map_some, hwhole, Char.ofNat_toNat]

/-- No escaped letter begins another. -/
theorem prefixCode_escapeChar : PrefixCode escapeChar := .of_read readChar readChar_escapeChar

/-- No escape begins with a quotation mark. -/
theorem escapeChar_ne_quote (c : Char) (s t : List Char) : escapeChar c ++ s ≠ '"' :: t := by
  intro h
  have hread := (readChar_escapeChar c s).symm.trans (congrArg readChar h)
  have hsome : readChar ('"' :: t) = some ('"', t) := rfl
  obtain ⟨rfl, rfl⟩ := Prod.mk.inj (Option.some.inj (hread.trans hsome))
  exact absurd (List.cons.inj h).1 (by decide)

/-- INTERNAL: the letters of a quoted text. -/
theorem toList_quote (text : String) :
    (quote text).toList = '"' :: (text.toList.flatMap escapeChar ++ ['"']) := by
  simp [quote]

/-- A quoted text tells the text and where it ends. -/
theorem quote_inj {a b : String} {s t : List Char}
    (h : (quote a).toList ++ s = (quote b).toList ++ t) : a = b ∧ s = t := by
  rw [toList_quote, toList_quote] at h
  simp only [List.cons_append, List.append_assoc, List.nil_append] at h
  obtain ⟨hchars, hrest⟩ :=
    prefixCode_escapeChar.flatMap escapeChar_ne_quote (List.cons.inj h).2
  exact ⟨String.toList_inj.mp hchars, hrest⟩

end Strings

/-! ## Numbers and words -/

/-- What the texts of finite floats are like: they are the same for the same number only, have the
letters of a number, and cannot be taken for an integer. -/
structure FloatTexts (py : Stdlib) : Prop where
  repr_iff (m e m' e' : ℤ) : py.floatRepr (.finite m e) = py.floatRepr (.finite m' e') ↔
    (PyFloat.finite m e).canon = (PyFloat.finite m' e').canon
  letters (m e : ℤ) : ∀ c ∈ (py.floatRepr (.finite m e)).toList,
    c.isDigit = true ∨ c ∈ ['-', '+', '.', 'e']
  point (m e : ℤ) : '.' ∈ (py.floatRepr (.finite m e)).toList ∨
    'e' ∈ (py.floatRepr (.finite m e)).toList

/-- A letter of a number or a word. -/
def isBare (c : Char) : Bool := c.isAlphanum || c = '-' || c = '+' || c = '.'

/-- Nothing, or a letter that ends a number or a word. -/
def Stops (s : List Char) : Prop := ∀ c ∈ s.head?, ¬ isBare c = true

/-- What a text can be the text of, by its first letter. -/
inductive Kind
  | bare
  | text
  | items
  | entries
  deriving DecidableEq

def kindOf (c : Char) : Kind :=
  if c = '"' then .text else if c = '[' then .items else if c = '\x7b' then .entries else .bare

def kind : Value → Kind
  | .none => .bare
  | .bool _ => .bare
  | .int _ => .bare
  | .float _ => .bare
  | .str _ => .text
  | .list _ => .items
  | .dict _ => .entries
  | .other _ _ .none => .text
  | .other _ _ (some value) => kind value

/-- Which number or word a text is. -/
inductive BareKind
  | word (text : List Char)
  | int
  | float
  deriving DecidableEq

/-- The words, each with what it says. -/
def words : List (List Char × Value) := [
  ("null".toList, .none), ("true".toList, .bool true), ("false".toList, .bool false),
  ("Infinity".toList, .float .inf), ("-Infinity".toList, .float .negInf), ("NaN".toList, .float .nan)]

def bareKindOf (text : List Char) : BareKind :=
  if text ∈ words.map Prod.fst then .word text
  else if '.' ∈ text ∨ 'e' ∈ text then .float else .int

def bareKind : Value → BareKind
  | .none => .word "null".toList
  | .bool true => .word "true".toList
  | .bool false => .word "false".toList
  | .float (.finite _ _) => .float
  | .float .inf => .word "Infinity".toList
  | .float .negInf => .word "-Infinity".toList
  | .float .nan => .word "NaN".toList
  | .other _ _ (some value) => bareKind value
  | _ => .int

section Bare

variable {py : Stdlib} {sep : Separators}

/-- INTERNAL: an integer is its sign and its digits. -/
theorem toList_ofNat (m : ℕ) : (toString (Int.ofNat m)).toList = Nat.toDigits 10 m := Nat.toList_repr

/-- INTERNAL: the letters of a negative number. -/
theorem toList_negSucc (m : ℕ) :
    (toString (Int.negSucc m)).toList = '-' :: Nat.toDigits 10 (m + 1) := by
  show ("-" ++ Nat.repr (m + 1)).toList = _
  rw [String.toList_append, Nat.toList_repr]
  rfl

/-- INTERNAL: the digits of a number are digits. -/
theorem isDigit_of_mem {m : ℕ} {c : Char} (h : c ∈ Nat.toDigits 10 m) : c.isDigit = true :=
  Nat.isDigit_of_mem_toDigits (by decide) (by decide) h

/-- INTERNAL: they tell the number. -/
theorem toDigits_inj {m n : ℕ} (h : Nat.toDigits 10 m = Nat.toDigits 10 n) : m = n := by
  rw [← Nat.ofDigitChars_ten_toDigits (n := m), h, Nat.ofDigitChars_ten_toDigits]

/-- INTERNAL: the letters of an integer. -/
theorem letters_int (n : ℤ) : ∀ c ∈ (toString n).toList, c.isDigit = true ∨ c = '-' := by
  intro c hc
  cases n with
  | ofNat m =>
    rw [toList_ofNat] at hc
    exact .inl (isDigit_of_mem hc)
  | negSucc m =>
    rw [toList_negSucc] at hc
    rcases List.mem_cons.mp hc with rfl | hc
    · exact .inr rfl
    · exact .inl (isDigit_of_mem hc)

/-- INTERNAL: there are some. -/
theorem toString_int_ne_nil (n : ℤ) : (toString n).toList ≠ [] := by
  cases n with
  | ofNat m =>
    rw [toList_ofNat]
    exact Nat.toDigits_ne_nil
  | negSucc m =>
    rw [toList_negSucc]
    exact List.cons_ne_nil _ _

/-- They tell the integer. -/
theorem toString_int_inj {m n : ℤ} (h : toString m = toString n) : m = n := by
  have hchars := congrArg String.toList h
  have hsign : ∀ {m n : ℕ}, Nat.toDigits 10 m ≠ '-' :: Nat.toDigits 10 (n + 1) := by
    intro m n heq
    have hin : '-' ∈ Nat.toDigits 10 m := heq ▸ List.mem_cons_self ..
    exact absurd (isDigit_of_mem hin) (by decide)
  cases m with
  | ofNat m =>
    cases n with
    | ofNat n =>
      rw [toList_ofNat, toList_ofNat] at hchars
      rw [toDigits_inj hchars]
    | negSucc n =>
      rw [toList_ofNat, toList_negSucc] at hchars
      exact absurd hchars hsign
  | negSucc m =>
    cases n with
    | ofNat n =>
      rw [toList_ofNat, toList_negSucc] at hchars
      exact absurd hchars.symm hsign
    | negSucc n =>
      rw [toList_negSucc, toList_negSucc] at hchars
      obtain rfl := Nat.succ_injective (toDigits_inj (List.cons.inj hchars).2)
      rfl

/-- INTERNAL: no word has the letters of a number only. -/
theorem not_word_of_letters {text : List Char}
    (h : ∀ c ∈ text, c.isDigit = true ∨ c ∈ ['-', '+', '.', 'e']) : text ∉ words.map Prod.fst := by
  intro hin
  have hall : (words.map Prod.fst).all (fun word => word.any fun c =>
      !(c.isDigit || ['-', '+', '.', 'e'].elem c)) = true := by decide
  obtain ⟨c, hc, hno⟩ := List.any_eq_true.mp (List.all_eq_true.mp hall text hin)
  rcases h c hc with hdigit | hsign
  · rw [hdigit] at hno
    cases hno
  · rw [List.elem_eq_true_of_mem hsign, Bool.or_true] at hno
    cases hno

/-- INTERNAL: the words are told apart, and consist of letters. -/
theorem word_text : ∀ text ∈ ["null", "true", "false", "Infinity", "-Infinity", "NaN"],
    bareKindOf text.toList = .word text.toList ∧ (∀ c ∈ text.toList, isBare c = true) ∧
      text.toList ≠ [] := by
  have hall : ["null", "true", "false", "Infinity", "-Infinity", "NaN"].all (fun text =>
      decide (bareKindOf text.toList = .word text.toList) && text.toList.all isBare &&
        !text.toList.isEmpty) = true := by decide
  intro text htext
  have hword := List.all_eq_true.mp hall text htext
  simp only [Bool.and_eq_true, decide_eq_true_eq, Bool.not_eq_true'] at hword
  obtain ⟨⟨hkind, hbare⟩, hempty⟩ := hword
  exact ⟨hkind, List.all_eq_true.mp hbare, List.isEmpty_eq_false_iff.mp hempty⟩

/-- INTERNAL: an integer looks like one. -/
theorem bareKindOf_int (n : ℤ) : bareKindOf (toString n).toList = .int := by
  have hletters := letters_int n
  have hno : ∀ c, ¬ (c.isDigit = true ∨ c = '-') → c ∉ (toString n).toList :=
    fun c hc hin => hc (hletters c hin)
  unfold bareKindOf
  rw [if_neg (not_word_of_letters fun c hc => (hletters c hc).imp id fun h => by simp [h]), if_neg]
  rintro (h | h)
  · exact hno '.' (by decide) h
  · exact hno 'e' (by decide) h

/-- INTERNAL: a float looks like one. -/
theorem bareKindOf_float (hfloat : FloatTexts py) (m e : ℤ) :
    bareKindOf (py.floatRepr (.finite m e)).toList = .float := by
  unfold bareKindOf
  rw [if_neg (not_word_of_letters (hfloat.letters m e)), if_pos (hfloat.point m e)]

/-- INTERNAL: what a number or a word is can be seen from its text.
SOURCE: security/binding.py:40-46 -/
theorem bareKindOf_dumps (hfloat : FloatTexts py) {v : Value} (h : kind v = .bare) :
    bareKindOf (dumps py sep v).toList = bareKind v := by
  induction v using Value.byWritten with
  | through text traits v ih => exact ih h
  | direct v hv =>
    cases v with
    | none => exact (word_text "null" (by decide)).1
    | bool b =>
      cases b with
      | true => exact (word_text "true" (by decide)).1
      | false => exact (word_text "false" (by decide)).1
    | int n => exact bareKindOf_int n
    | float x =>
      cases x with
      | finite m e => exact bareKindOf_float hfloat m e
      | inf => exact (word_text "Infinity" (by decide)).1
      | negInf => exact (word_text "-Infinity" (by decide)).1
      | nan => exact (word_text "NaN" (by decide)).1
    | str s => cases h
    | list items => cases h
    | dict entries => cases h
    | other text traits written =>
      cases written with
      | none => cases h
      | some _ => exact hv.elim

/-- INTERNAL: it has letters of numbers and words only, and at least one. -/
theorem bare_letters (hfloat : FloatTexts py) (sep : Separators) {v : Value} (h : kind v = .bare) :
    (∀ c ∈ (dumps py sep v).toList, isBare c = true) ∧ (dumps py sep v).toList ≠ [] := by
  have hdigit : ∀ c : Char, c.isDigit = true → isBare c = true := by
    intro c hc
    simp [isBare, Char.isAlphanum, hc]
  induction v using Value.byWritten with
  | through text traits v ih => exact ih h
  | direct v hv =>
    cases v with
    | none => exact (word_text "null" (by decide)).2
    | bool b =>
      cases b with
      | true => exact (word_text "true" (by decide)).2
      | false => exact (word_text "false" (by decide)).2
    | int n =>
      refine ⟨fun c hc => ?_, toString_int_ne_nil n⟩
      rcases letters_int n c hc with hc | rfl
      · exact hdigit c hc
      · decide
    | float x =>
      cases x with
      | finite m e =>
        refine ⟨fun c hc => ?_, fun hnil => ?_⟩
        · rcases hfloat.letters m e c hc with hc | hc
          · exact hdigit c hc
          · have hall : ['-', '+', '.', 'e'].all isBare = true := by decide
            exact List.all_eq_true.mp hall c hc
        · have hpoint := hfloat.point m e
          have htext : (py.floatRepr (.finite m e)).toList = [] := hnil
          rw [htext] at hpoint
          rcases hpoint with h | h <;> cases h
      | inf => exact (word_text "Infinity" (by decide)).2
      | negInf => exact (word_text "-Infinity" (by decide)).2
      | nan => exact (word_text "NaN" (by decide)).2
    | str s => cases h
    | list items => cases h
    | dict entries => cases h
    | other text traits written =>
      cases written with
      | none => cases h
      | some _ => exact hv.elim

/-- INTERNAL: a word tells what it says. -/
theorem canon_of_word {v : Value} {text : List Char} (h : kind v = .bare)
    (hword : bareKind v = .word text) : words.lookup text = some v.canon := by
  induction v using Value.byWritten with
  | through text traits v ih => exact ih h hword
  | direct v hv =>
    cases v with
    | none => obtain rfl := BareKind.word.inj hword; rfl
    | bool b => cases b <;> (obtain rfl := BareKind.word.inj hword; rfl)
    | int n => cases hword
    | float x =>
      cases x with
      | finite m e => cases hword
      | inf => obtain rfl := BareKind.word.inj hword; rfl
      | negInf => obtain rfl := BareKind.word.inj hword; rfl
      | nan => obtain rfl := BareKind.word.inj hword; rfl
    | str s => cases h
    | list items => cases h
    | dict entries => cases h
    | other text traits written =>
      cases written with
      | none => cases h
      | some _ => exact hv.elim

/-- INTERNAL: what looks like an integer is one. -/
theorem int_of_kind {v : Value} (hv : v.Direct) (h : kind v = .bare) (hint : bareKind v = .int) :
    ∃ n, v = .int n := by
  cases v with
  | int n => exact ⟨n, rfl⟩
  | none => cases hint
  | bool b => cases b <;> cases hint
  | float x => cases x <;> cases hint
  | str s => cases h
  | list items => cases h
  | dict entries => cases h
  | other text traits written =>
    cases written with
    | none => cases h
    | some _ => exact hv.elim

/-- INTERNAL: what looks like a float is one. -/
theorem float_of_kind {v : Value} (hv : v.Direct) (hfloat : bareKind v = .float) :
    ∃ m e, v = .float (.finite m e) := by
  cases v with
  | float x =>
    cases x with
    | finite m e => exact ⟨m, e, rfl⟩
    | inf => cases hfloat
    | negInf => cases hfloat
    | nan => cases hfloat
  | bool b => cases b <;> cases hfloat
  | none => cases hfloat
  | int n => cases hfloat
  | str s => cases hfloat
  | list items => cases hfloat
  | dict entries => cases hfloat
  | other text traits written =>
    cases written with
    | none => cases hfloat
    | some _ => exact hv.elim

/-- INTERNAL: a number or a word tells its content. -/
theorem bare_inj (hfloat : FloatTexts py) {a b : Value} (ha : kind a = .bare) (hb : kind b = .bare)
    (h : dumps py sep a = dumps py sep b) : a.canon = b.canon := by
  induction a using Value.byWritten with
  | through text traits a ih => exact ih ha h
  | direct a hdirect =>
  induction b using Value.byWritten with
  | through text traits b ih => exact ih hb h
  | direct b hdirect' =>
  have hkinds : bareKind a = bareKind b := by
    rw [← bareKindOf_dumps hfloat ha, ← bareKindOf_dumps hfloat hb, h]
  cases hkind : bareKind a with
  | word text =>
    have hcanon := canon_of_word ha hkind
    rw [canon_of_word hb (hkinds.symm.trans hkind)] at hcanon
    exact (Option.some.inj hcanon).symm
  | int =>
    obtain ⟨m, rfl⟩ := int_of_kind hdirect ha hkind
    obtain ⟨n, rfl⟩ := int_of_kind hdirect' hb (hkinds.symm.trans hkind)
    obtain rfl := toString_int_inj (m := m) (n := n) h
    rfl
  | float =>
    obtain ⟨m, e, rfl⟩ := float_of_kind hdirect hkind
    obtain ⟨m', e', rfl⟩ := float_of_kind hdirect' (hkinds.symm.trans hkind)
    have hcanon : (PyFloat.finite m e).canon = (PyFloat.finite m' e').canon :=
      (hfloat.repr_iff m e m' e').mp h
    exact congrArg Value.float hcanon

end Bare

/-! ## Whole values -/

section Values

variable {py : Stdlib} {sep : Separators}

/-- INTERNAL: the items are written one by one. -/
theorem dumpsList_eq_map (items : List Value) : dumpsList py sep items = items.map (dumps py sep) := by
  induction items with
  | nil => rfl
  | cons x xs ih => rw [dumpsList, ih, List.map_cons]

/-- One entry of a dictionary. -/
def fieldText (py : Stdlib) (sep : Separators) (entry : String × Value) : String :=
  quote entry.1 ++ sep.key ++ dumps py sep entry.2

/-- INTERNAL: so are the entries. -/
theorem dumpsDict_eq_map (entries : Dict) :
    dumpsDict py sep entries = entries.map fun entry => (entry.1, fieldText py sep entry) := by
  induction entries with
  | nil => rfl
  | cons entry rest ih =>
    rw [dumpsDict, ih, List.map_cons]
    rfl

/-- INTERNAL: the letters of a list. -/
theorem toList_dumps_list (items : List Value) : (dumps py sep (.list items)).toList =
    '[' :: (sep.item.toList.intercalate (items.map fun x => (dumps py sep x).toList) ++ [']']) := by
  rw [dumps, dumpsList_eq_map, String.toList_append, String.toList_append,
    String.toList_intercalate, List.map_map]
  rfl

/-- INTERNAL: the letters of a dictionary. -/
theorem toList_dumps_dict (entries : Dict) : (dumps py sep (.dict entries)).toList =
    '\x7b' :: (sep.item.toList.intercalate
      ((sortEntries entries).map fun entry => (fieldText py sep entry).toList) ++ ['\x7d']) := by
  rw [dumps, dumpsDict_eq_map,
    sortEntries_map (fun entry => (entry.1, fieldText py sep entry)) fun _ => rfl, List.map_map,
    String.toList_append, String.toList_append, String.toList_intercalate, List.map_map]
  rfl

/-- INTERNAL: the first letter of a text.
SOURCE: security/binding.py:40-46 -/
theorem first_dumps (hfloat : FloatTexts py) (sep : Separators) (v : Value) :
    ∃ c rest, (dumps py sep v).toList = c :: rest ∧ kindOf c = kind v ∧ c ≠ ']' := by
  have hquote : ∀ text, ∃ c rest, (quote text).toList = c :: rest ∧ kindOf c = .text ∧ c ≠ ']' :=
    fun text => ⟨'"', _, toList_quote text, rfl, by decide⟩
  have hbare : ∀ v, kind v = .bare → ∃ c rest, (dumps py sep v).toList = c :: rest ∧
      kindOf c = .bare ∧ c ≠ ']' := by
    intro v hkind
    obtain ⟨hletters, hne⟩ := bare_letters hfloat sep hkind
    obtain ⟨c, rest, htext⟩ := List.exists_cons_of_ne_nil hne
    have hc : isBare c = true := hletters c (htext ▸ List.mem_cons_self ..)
    have hnot : ∀ d ∈ ['"', '[', '\x7b', ']'], c ≠ d := by
      rintro d hd rfl
      have hall : ['"', '[', '\x7b', ']'].all (fun d => !isBare d) = true := by decide
      have hno := List.all_eq_true.mp hall c hd
      rw [hc] at hno
      cases hno
    refine ⟨c, rest, htext, ?_, hnot ']' (by simp)⟩
    unfold kindOf
    rw [if_neg (hnot '"' (by simp)), if_neg (hnot '[' (by simp)), if_neg (hnot '\x7b' (by simp))]
  induction v using Value.byWritten with
  | through text traits v ih => exact ih
  | direct v hv =>
    cases v with
    | none => exact hbare _ rfl
    | bool b => exact hbare (.bool b) rfl
    | int n => exact hbare (.int n) rfl
    | float x => exact hbare (.float x) rfl
    | str text => exact hquote text
    | list items => exact ⟨'[', _, toList_dumps_list items, rfl, by decide⟩
    | dict entries => exact ⟨'\x7b', _, toList_dumps_dict entries, rfl, by decide⟩
    | other text traits written =>
      cases written with
      | none => exact hquote text
      | some _ => exact hv.elim

/-- INTERNAL: texts that begin alike are of values of one kind. -/
theorem kind_eq_of_append (hfloat : FloatTexts py) {a b : Value} {s t : List Char}
    (h : (dumps py sep a).toList ++ s = (dumps py sep b).toList ++ t) : kind a = kind b := by
  obtain ⟨c, as, ha, hkind, -⟩ := first_dumps hfloat sep a
  obtain ⟨d, bs, hb, hkind', -⟩ := first_dumps hfloat sep b
  rw [ha, hb] at h
  rw [← hkind, ← hkind', (List.cons.inj h).1]

/-- INTERNAL: a number ends where no letter of a number follows. -/
theorem stops_of_head {c : Char} (hc : isBare c = false) {s : List Char} (h : s.head? = some c) :
    Stops s := by
  intro d hd
  obtain rfl := Option.some.inj (h.symm.trans hd)
  simp [hc]

/-- INTERNAL: an item is smaller than its list. -/
theorem sizeOf_lt_list {items : List Value} {x : Value} (h : x ∈ items) :
    sizeOf x < sizeOf (Value.list items) := by
  have hlt := List.sizeOf_lt_of_mem h
  simp only [Value.list.sizeOf_spec]
  omega

/-- INTERNAL: so is the value of an entry. -/
theorem sizeOf_lt_dict {entries : Dict} {entry : String × Value} (h : entry ∈ entries) :
    sizeOf entry.2 < sizeOf (Value.dict entries) := by
  have hlt := List.sizeOf_lt_of_mem h
  have hpair : sizeOf entry.2 < sizeOf entry := by
    cases entry
    simp only [Prod.mk.sizeOf_spec]
    omega
  simp only [Value.dict.sizeOf_spec]
  omega

/-- INTERNAL: and what an object is written as. -/
theorem sizeOf_lt_other (text : String) (traits : Traits) (v : Value) :
    sizeOf v < sizeOf (Value.other text traits (some v)) := by
  simp only [Value.other.sizeOf_spec, Option.some.sizeOf_spec]
  omega

/-- Two values whose texts begin one text have the same content, unless one runs on as a number or a
word.
SOURCE: security/binding.py:40-46 -/
theorem dumps_toldApart (hfloat : FloatTexts py) (hsep : sep.item.toList.head? = some ',')
    (a b : Value) : ToldApart Stops (fun a b => a.canon = b.canon)
      (fun v => (dumps py sep v).toList) a b := by
  induction hsize : sizeOf a using Nat.strong_induction_on generalizing a b with
  | _ size ih =>
  subst hsize
  intro s t hs ht h
  induction b using Value.byWritten with
  | through text traits b ihb => exact ihb h
  | direct b hdirect =>
  have hkind := kind_eq_of_append hfloat h
  have hitem : ∀ u, Stops (sep.item.toList ++ u) := by
    intro u
    refine stops_of_head (c := ',') (by decide) ?_
    rw [List.head?_append, hsep]
    rfl
  have htexts : ∀ {text text' : String}, (quote text).toList ++ s = (quote text').toList ++ t →
      Value.str text = Value.str text' ∧ s = t := by
    intro text text' heq
    obtain ⟨rfl, hrest⟩ := quote_inj heq
    exact ⟨rfl, hrest⟩
  have hbare : kind a = .bare → a.canon = b.canon ∧ s = t := by
    intro ha
    obtain ⟨hletters, -⟩ := bare_letters hfloat sep ha
    obtain ⟨hletters', -⟩ := bare_letters hfloat sep (hkind ▸ ha)
    obtain ⟨hsame, hrest⟩ := append_inj_of_stop hletters hletters' hs ht h
    exact ⟨bare_inj hfloat ha (hkind ▸ ha) (String.toList_inj.mp hsame), hrest⟩
  cases a with
  | none => exact hbare rfl
  | bool x => exact hbare rfl
  | int n => exact hbare rfl
  | float x => exact hbare rfl
  | str text =>
    cases b with
    | str text' => exact htexts h
    | other text' traits' written' =>
      cases written' with
      | none => exact htexts h
      | some _ => exact hdirect.elim
    | _ => cases hkind
  | other text traits written =>
    cases written with
    | some v => exact ih _ (sizeOf_lt_other text traits v) v b rfl s t hs ht h
    | none =>
    cases b with
    | str text' => exact htexts h
    | other text' traits' written' =>
      cases written' with
      | none => exact htexts h
      | some _ => exact hdirect.elim
    | _ => cases hkind
  | list items =>
    cases b with
    | list items' =>
      simp only [toList_dumps_list, List.cons_append, List.append_assoc, List.nil_append] at h
      obtain ⟨hitems, hrest⟩ := intercalate_inj (fun a b => a.canon = b.canon) hsep
        (by decide) hitem (fun u => stops_of_head (c := ']') (by decide) rfl)
        (fun x u v heq => by
          obtain ⟨c, rest, hx, -, hne⟩ := first_dumps hfloat sep x
          rw [hx] at heq
          exact hne (List.cons.inj heq).1)
        (fun x hx y _ => ih _ (sizeOf_lt_list hx) x y rfl) (List.cons.inj h).2
      refine ⟨?_, hrest⟩
      have hmap : items.map Value.canon = items'.map Value.canon := by
        rw [← List.forall₂_eq_eq_eq, List.forall₂_map_left_iff, List.forall₂_map_right_iff]
        exact hitems
      show (Value.list items).canon = (Value.list items').canon
      rw [Value.canon_list, Value.canon_list, hmap]
    | other text' traits' written' =>
      cases written' with
      | none => cases hkind
      | some _ => exact hdirect.elim
    | _ => cases hkind
  | dict entries =>
    cases b with
    | dict entries' =>
      simp only [toList_dumps_dict, List.cons_append, List.append_assoc, List.nil_append] at h
      obtain ⟨hentries, hrest⟩ := intercalate_inj
        (fun x y => (x.1, x.2.canon) = (y.1, y.2.canon)) hsep
        (by decide) hitem (fun u => stops_of_head (c := '\x7d') (by decide) rfl)
        (fun x u v heq => by
          simp only [fieldText, String.toList_append, toList_quote, List.cons_append] at heq
          exact absurd (List.cons.inj heq).1 (by decide))
        (fun x hx y _ u v hu hv heq => by
          have hin : x ∈ entries := mem_sortEntries.mp hx
          simp only [fieldText, String.toList_append, List.append_assoc] at heq
          obtain ⟨hkey, heq⟩ := quote_inj heq
          obtain ⟨hvalue, huv⟩ := ih _ (sizeOf_lt_dict hin) x.2 y.2 rfl u v hu hv
            (List.append_cancel_left heq)
          exact ⟨Prod.ext hkey hvalue, huv⟩) (List.cons.inj h).2
      refine ⟨?_, hrest⟩
      have hmap : (sortEntries entries).map (fun entry => (entry.1, entry.2.canon)) =
          (sortEntries entries').map fun entry => (entry.1, entry.2.canon) := by
        rw [← List.forall₂_eq_eq_eq, List.forall₂_map_left_iff, List.forall₂_map_right_iff]
        exact hentries
      show (Value.dict entries).canon = (Value.dict entries').canon
      rw [Value.canon_dict, Value.canon_dict,
        sortEntries_map (fun entry : String × Value => (entry.1, entry.2.canon)) fun _ => rfl,
        sortEntries_map (fun entry : String × Value => (entry.1, entry.2.canon)) fun _ => rfl, hmap]
    | other text' traits' written' =>
      cases written' with
      | none => cases hkind
      | some _ => exact hdirect.elim
    | _ => cases hkind

/-- INTERNAL: equal floats have the same text. -/
theorem dumps_float (hfloat : FloatTexts py) {x y : PyFloat} (h : x.canon = y.canon) :
    dumps py sep (.float x) = dumps py sep (.float y) := by
  cases x with
  | finite m e =>
    cases y with
    | finite m' e' => exact (hfloat.repr_iff m e m' e').mpr h
    | _ =>
      obtain ⟨m', e', hcanon⟩ := PyFloat.canon_finite m e
      cases hcanon.symm.trans h
  | _ =>
    cases y with
    | finite m e =>
      obtain ⟨m', e', hcanon⟩ := PyFloat.canon_finite m e
      cases h.trans hcanon
    | _ => cases h <;> rfl

/-- INTERNAL: the same content is written alike.
SOURCE: security/binding.py:40-46 -/
theorem dumps_of_canon (hfloat : FloatTexts py) {a b : Value} (h : a.canon = b.canon) :
    dumps py sep a = dumps py sep b := by
  induction hsize : sizeOf a using Nat.strong_induction_on generalizing a b with
  | _ size ih =>
  subst hsize
  induction b using Value.byWritten with
  | through text traits b ihb => exact ihb h
  | direct b hdirect =>
  cases a with
  | none =>
    cases b with
    | none => rfl
    | other _ _ written' => cases written' <;> first | exact hdirect.elim | cases h
    | _ => cases h
  | bool x =>
    cases b with
    | bool y => rw [Value.bool.inj h]
    | other _ _ written' => cases written' <;> first | exact hdirect.elim | cases h
    | _ => cases h
  | int n =>
    cases b with
    | int m => rw [Value.int.inj h]
    | other _ _ written' => cases written' <;> first | exact hdirect.elim | cases h
    | _ => cases h
  | str text =>
    cases b with
    | str text' => rw [Value.str.inj h]
    | other text' _ written' =>
      cases written' with
      | none => exact congrArg quote (Value.str.inj h)
      | some _ => exact hdirect.elim
    | _ => cases h
  | other text traits written =>
    cases written with
    | some v =>
      have hv : dumps py sep v = dumps py sep b := ih _ (sizeOf_lt_other text traits v) h rfl
      exact hv
    | none =>
    cases b with
    | str text' => exact congrArg quote (Value.str.inj h)
    | other text' _ written' =>
      cases written' with
      | none => exact congrArg quote (Value.str.inj h)
      | some _ => exact hdirect.elim
    | _ => cases h
  | float x =>
    cases b with
    | float y => exact dumps_float hfloat (Value.float.inj h)
    | other _ _ written' => cases written' <;> first | exact hdirect.elim | cases h
    | _ => cases h
  | list items =>
    cases b with
    | list items' =>
      rw [Value.canon_list, Value.canon_list] at h
      have hmap : items.map (dumps py sep) = items'.map (dumps py sep) := by
        have hitems := Value.list.inj h
        rw [← List.forall₂_eq_eq_eq, List.forall₂_map_left_iff, List.forall₂_map_right_iff] at hitems ⊢
        exact List.forall₂_iff_get.mpr ⟨hitems.length_eq, fun i hi hi' =>
          ih _ (sizeOf_lt_list (List.get_mem ..)) ((List.forall₂_iff_get.mp hitems).2 i hi hi') rfl⟩
      rw [dumps, dumps, dumpsList_eq_map, dumpsList_eq_map, hmap]
    | other _ _ written' => cases written' <;> first | exact hdirect.elim | cases h
    | _ => cases h
  | dict entries =>
    cases b with
    | dict entries' =>
      rw [Value.canon_dict, Value.canon_dict,
        sortEntries_map (fun entry : String × Value => (entry.1, entry.2.canon)) fun _ => rfl,
        sortEntries_map (fun entry : String × Value => (entry.1, entry.2.canon)) fun _ => rfl] at h
      have hmap : (sortEntries entries).map (fieldText py sep) =
          (sortEntries entries').map (fieldText py sep) := by
        have hentries := Value.dict.inj h
        rw [← List.forall₂_eq_eq_eq, List.forall₂_map_left_iff, List.forall₂_map_right_iff] at hentries ⊢
        refine List.forall₂_iff_get.mpr ⟨hentries.length_eq, fun i hi hi' => ?_⟩
        obtain ⟨hkey, hvalue⟩ := Prod.mk.inj ((List.forall₂_iff_get.mp hentries).2 i hi hi')
        have hin := mem_sortEntries.mp (List.get_mem (sortEntries entries) ⟨i, hi⟩)
        have htext := ih _ (sizeOf_lt_dict hin) hvalue rfl
        unfold fieldText
        rw [hkey, htext]
      rw [dumps, dumps, dumpsDict_eq_map, dumpsDict_eq_map,
        sortEntries_map (fun entry => (entry.1, fieldText py sep entry)) fun _ => rfl,
        sortEntries_map (fun entry => (entry.1, fieldText py sep entry)) fun _ => rfl,
        List.map_map, List.map_map]
      exact congrArg (fun fields => "\x7b" ++ String.intercalate sep.item fields ++ "\x7d") hmap
    | other _ _ written' => cases written' <;> first | exact hdirect.elim | cases h
    | _ => cases h

/-- Two values are written alike if and only if they have the same content. -/
theorem dumps_eq_iff (hfloat : FloatTexts py) (hsep : sep.item.toList.head? = some ',') {a b : Value} :
    dumps py sep a = dumps py sep b ↔ a.canon = b.canon := by
  constructor
  · intro h
    have hnil : Stops [] := fun c hc => by cases hc
    exact (dumps_toldApart hfloat hsep a b [] [] hnil hnil
      (congrArg (fun text => text.toList ++ []) h)).1
  · exact dumps_of_canon hfloat

end Values

/-- A text of a finite float: mantissa and exponent of its content. -/
def floatText (x : PyFloat) : String :=
  match x.canon with
  | .finite m e => toString m ++ "e" ++ toString e
  | _ => ""

/-- INTERNAL: the text of a float, mantissa and exponent of its content. -/
theorem toList_floatText (m e : ℤ) : ∃ m' e' : ℤ, (PyFloat.finite m e).canon = .finite m' e' ∧
    (floatText (.finite m e)).toList = (toString m').toList ++ 'e' :: (toString e').toList := by
  obtain ⟨m', e', hcanon⟩ := PyFloat.canon_finite m e
  refine ⟨m', e', hcanon, ?_⟩
  unfold floatText
  rw [hcanon]
  simp

/-- Such texts are as they have to be. -/
theorem floatTexts_floatText (py : Stdlib) : FloatTexts { py with floatRepr := floatText } := by
  refine ⟨fun m e m' e' => ⟨fun h => ?_, fun h => ?_⟩, fun m e c hc => ?_, fun m e => ?_⟩
  · obtain ⟨m₁, e₁, hcanon, hchars⟩ := toList_floatText m e
    obtain ⟨m₂, e₂, hcanon', hchars'⟩ := toList_floatText m' e'
    have hsame := hchars.symm.trans ((congrArg String.toList h).trans hchars')
    have hletter : ∀ n : ℤ, ∀ c ∈ (toString n).toList, c ≠ 'e' := by
      rintro n _ hc rfl
      rcases letters_int n 'e' hc with hdigit | hsign
      · exact absurd hdigit (by decide)
      · exact absurd hsign (by decide)
    obtain ⟨hmantissa, hrest⟩ := append_inj_of_stop (hletter m₁) (hletter m₂) (by simp) (by simp) hsame
    rw [hcanon, hcanon', toString_int_inj (String.toList_inj.mp hmantissa),
      toString_int_inj (String.toList_inj.mp (List.cons.inj hrest).2)]
  · show floatText (.finite m e) = floatText (.finite m' e')
    unfold floatText
    rw [h]
  · obtain ⟨m', e', -, hchars⟩ := toList_floatText m e
    have hc' : c ∈ (toString m').toList ++ 'e' :: (toString e').toList := hchars ▸ hc
    have hint : ∀ n : ℤ, c ∈ (toString n).toList → c.isDigit = true ∨ c ∈ ['-', '+', '.', 'e'] := by
      intro n hn
      rcases letters_int n c hn with hdigit | rfl
      · exact .inl hdigit
      · exact .inr (by decide)
    rcases List.mem_append.mp hc' with hmantissa | hrest
    · exact hint m' hmantissa
    · rcases List.mem_cons.mp hrest with rfl | hexponent
      · exact .inr (by decide)
      · exact hint e' hexponent
  · obtain ⟨m', e', -, hchars⟩ := toList_floatText m e
    refine .inr ?_
    show 'e' ∈ (floatText (.finite m e)).toList
    rw [hchars]
    simp

end Shea.Analysis
