import Shea.Model.Values

/-!
# `json.dumps` and `json.loads` without options

`json.dumps(value)` writes the entries of a dictionary in their order and raises for what JSON does not
know. `json.loads(text)` reads a text from the left: it skips white space, takes the last of several
entries with one key, and refuses a byte order mark at the start and anything after the value.

A `str` is a sequence of Unicode characters here, so a text that escapes half of a surrogate pair is
refused as well.
-/

set_option autoImplicit false

namespace Shea.Model

/-! ## Writing -/

section JsonDumps

variable (py : Stdlib)

mutual

/-- The letters of `json.dumps(value)`; `none` when it raises. -/
def jsonLetters : Value → Option (List Char)
  | .none => some "null".toList
  | .bool true => some "true".toList
  | .bool false => some "false".toList
  | .int n => if (Nat.toDigits 10 n.natAbs).length ≤ maxIntDigits then some (toString n).toList else none
  | .float (.finite m e) => some (py.floatRepr (.finite m e)).toList
  | .float .inf => some "Infinity".toList
  | .float .negInf => some "-Infinity".toList
  | .float .nan => some "NaN".toList
  | .str s => some (quote s).toList
  | .list items => (jsonItems items).map fun written => '[' :: ([',', ' '].intercalate written ++ [']'])
  | .dict entries =>
      (jsonEntries entries).map fun written => '\x7b' :: ([',', ' '].intercalate written ++ ['\x7d'])
  | .other _ _ .none => none
  | .other _ _ (some value) => jsonLetters value

def jsonItems : List Value → Option (List (List Char))
  | [] => some []
  | x :: xs => do
      let first ← jsonLetters x
      let rest ← jsonItems xs
      pure (first :: rest)

def jsonEntries : List (String × Value) → Option (List (List Char))
  | [] => some []
  | (k, x) :: xs => do
      let first ← jsonLetters x
      let rest ← jsonEntries xs
      pure (((quote k).toList ++ ':' :: ' ' :: first) :: rest)

end

/-- `json.dumps(value)`; `none` when it raises. -/
def jsonDumps (value : Value) : Option String := (jsonLetters py value).map String.ofList

end JsonDumps

namespace Value

mutual

/-- A dictionary has each key once, at every depth. -/
def distinctKeys : Value → Bool
  | list items => distinctKeysList items
  | dict entries => decide (entries.map Prod.fst).Nodup && distinctKeysDict entries
  | other _ _ (some value) => value.distinctKeys
  | _ => true

def distinctKeysList : List Value → Bool
  | [] => true
  | x :: xs => x.distinctKeys && distinctKeysList xs

def distinctKeysDict : List (String × Value) → Bool
  | [] => true
  | (_, x) :: xs => x.distinctKeys && distinctKeysDict xs

end

end Value

/-! ## Reading -/

def isJsonSpace (c : Char) : Bool := c = ' ' || c = '\t' || c = '\n' || c = '\r'

def skipSpace (s : List Char) : List Char := s.dropWhile isJsonSpace

def hexDigitValue (c : Char) : Option ℕ :=
  if 48 ≤ c.toNat ∧ c.toNat ≤ 57 then some (c.toNat - 48)
  else if 97 ≤ c.toNat ∧ c.toNat ≤ 102 then some (c.toNat - 87)
  else if 65 ≤ c.toNat ∧ c.toNat ≤ 70 then some (c.toNat - 55)
  else none

/-- The four digits of `\uXXXX`. -/
def hexUnit (a b c d : Char) : Option ℕ := do
  let a ← hexDigitValue a
  let b ← hexDigitValue b
  let c ← hexDigitValue c
  let d ← hexDigitValue d
  pure (4096 * a + 256 * b + 16 * c + d)

/-- What a letter stands for after a backslash. -/
def shortEscape (c : Char) : Option Char :=
  if c = '"' then some '"'
  else if c = '\\' then some '\\'
  else if c = '/' then some '/'
  else if c = 'b' then some (Char.ofNat 0x08)
  else if c = 'f' then some (Char.ofNat 0x0c)
  else if c = 'n' then some '\n'
  else if c = 'r' then some '\r'
  else if c = 't' then some '\t'
  else none

/-- One character of a string, and what comes after it. -/
def scanChar : List Char → Option (Char × List Char)
  | '\\' :: 'u' :: a :: b :: c :: d :: s => do
      let high ← hexUnit a b c d
      if 0xd800 ≤ high ∧ high < 0xdc00 then
        match s with
        | '\\' :: 'u' :: a :: b :: c :: d :: s => do
            let low ← hexUnit a b c d
            if 0xdc00 ≤ low ∧ low < 0xe000 then
              some (Char.ofNat (0x10000 + 0x400 * (high - 0xd800) + (low - 0xdc00)), s)
            else none
        | _ => none
      else if 0xdc00 ≤ high ∧ high < 0xe000 then none
      else some (Char.ofNat high, s)
  | '\\' :: c :: s => (shortEscape c).map fun written => (written, s)
  | c :: s => if c.toNat < 0x20 then none else some (c, s)
  | [] => none

/-- `scanstring`: the characters up to the closing quotation mark; each takes at least one letter. -/
def scanString : ℕ → List Char → Option (List Char × List Char)
  | 0, _ => none
  | fuel + 1, s =>
      match s with
      | '"' :: rest => some ([], rest)
      | _ => do
          let (c, rest) ← scanChar s
          let (text, rest) ← scanString fuel rest
          pure (c :: text, rest)

/-- A `0`, or digits that begin with another one. -/
def scanWhole : List Char → Option (List Char × List Char)
  | '0' :: s => some (['0'], s)
  | s =>
      if s.takeWhile Char.isDigit = [] then none
      else some (s.takeWhile Char.isDigit, s.dropWhile Char.isDigit)

/-- A point with digits after it, if there is one. -/
def scanFraction : List Char → List Char × List Char
  | '.' :: s =>
      if s.takeWhile Char.isDigit = [] then ([], '.' :: s)
      else ('.' :: s.takeWhile Char.isDigit, s.dropWhile Char.isDigit)
  | s => ([], s)

def scanSign : List Char → List Char × List Char
  | '+' :: s => (['+'], s)
  | '-' :: s => (['-'], s)
  | s => ([], s)

/-- An `e` with digits after it, if there is one. -/
def scanExponent : List Char → List Char × List Char
  | c :: s =>
      let (sign, digits) := scanSign s
      if (c = 'e' ∨ c = 'E') ∧ digits.takeWhile Char.isDigit ≠ [] then
        (c :: (sign ++ digits.takeWhile Char.isDigit), digits.dropWhile Char.isDigit)
      else ([], c :: s)
  | [] => ([], [])

section JsonLoads

variable (floatOf : String → PyFloat)

/-- `int(text)` of a sign and digits. -/
def intOfDigits (negative : Bool) (digits : List Char) : Option Value :=
  if digits.length ≤ maxIntDigits then
    some (.int (if negative then -(Nat.ofDigitChars 10 digits 0 : ℤ) else Nat.ofDigitChars 10 digits 0))
  else none

/-- A number without its sign: it is an `int` unless it has a fraction or an exponent. -/
def scanUnsigned (negative : Bool) (s : List Char) : Option (Value × List Char) := do
  let (whole, s) ← scanWhole s
  let (fraction, s) := scanFraction s
  let (exponent, s) := scanExponent s
  if fraction = [] ∧ exponent = [] then
    let value ← intOfDigits negative whole
    pure (value, s)
  else
    let sign := if negative then ['-'] else []
    pure (.float (floatOf (String.ofList (sign ++ whole ++ fraction ++ exponent))), s)

def scanNumber : List Char → Option (Value × List Char)
  | '-' :: s => scanUnsigned floatOf true s
  | s => scanUnsigned floatOf false s

/-- A number or a word. -/
def scanBare : List Char → Option (Value × List Char)
  | 'n' :: 'u' :: 'l' :: 'l' :: s => some (.none, s)
  | 't' :: 'r' :: 'u' :: 'e' :: s => some (.bool true, s)
  | 'f' :: 'a' :: 'l' :: 's' :: 'e' :: s => some (.bool false, s)
  | 'N' :: 'a' :: 'N' :: s => some (.float .nan, s)
  | 'I' :: 'n' :: 'f' :: 'i' :: 'n' :: 'i' :: 't' :: 'y' :: s => some (.float .inf, s)
  | '-' :: 'I' :: 'n' :: 'f' :: 'i' :: 'n' :: 'i' :: 't' :: 'y' :: s => some (.float .negInf, s)
  | s => scanNumber floatOf s

mutual

/-- `scan_once`: the value at the beginning of a text. Of any two calls, one within the other, the inner
one has a shorter text, so twice the length of the text is fuel enough. -/
def scanOnce : ℕ → List Char → Option (Value × List Char)
  | 0, _ => none
  | fuel + 1, s =>
      match s with
      | '"' :: s => do
          let (text, s) ← scanString (s.length + 1) s
          pure (.str (String.ofList text), s)
      | '[' :: s =>
          match skipSpace s with
          | ']' :: s => some (.list [], s)
          | s => do
              let (items, s) ← scanItems fuel s
              pure (.list items, s)
      | '\x7b' :: s =>
          match skipSpace s with
          | '\x7d' :: s => some (.dict [], s)
          | s => do
              let (entries, s) ← scanEntries fuel s
              pure (.dict (Dict.update [] entries), s)
      | s => scanBare floatOf s

/-- The items of a list, from the next one on. -/
def scanItems : ℕ → List Char → Option (List Value × List Char)
  | 0, _ => none
  | fuel + 1, s => do
      let (value, s) ← scanOnce fuel s
      match skipSpace s with
      | ']' :: s => pure ([value], s)
      | ',' :: s => do
          let (items, s) ← scanItems fuel (skipSpace s)
          pure (value :: items, s)
      | _ => none

/-- The entries of a dictionary, from the next one on. -/
def scanEntries : ℕ → List Char → Option (Dict × List Char)
  | 0, _ => none
  | fuel + 1, s =>
      match s with
      | '"' :: s => do
          let (key, s) ← scanString (s.length + 1) s
          match skipSpace s with
          | ':' :: s => do
              let (value, s) ← scanOnce fuel (skipSpace s)
              match skipSpace s with
              | '\x7d' :: s => pure ([(String.ofList key, value)], s)
              | ',' :: s => do
                  let (entries, s) ← scanEntries fuel (skipSpace s)
                  pure ((String.ofList key, value) :: entries, s)
              | _ => none
          | _ => none
      | _ => none

end

/-- `json.loads(text)`; `none` when it raises. -/
def jsonLoads (text : String) : Option Value :=
  match text.toList with
  | '\uFEFF' :: _ => none
  | s => do
      let (value, rest) ← scanOnce floatOf (2 * s.length + 1) (skipSpace s)
      if skipSpace rest = [] then some value else none

end JsonLoads

end Shea.Model
