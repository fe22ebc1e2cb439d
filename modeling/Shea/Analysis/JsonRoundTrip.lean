import Mathlib.NumberTheory.Padics.PadicVal.Basic
import Shea.Analysis.JsonTexts
import Shea.Model.JsonReader

/-!
# What is written is read back

`json.loads` gives back what `json.dumps` has written: the same content, with the entries of a
dictionary in their order and the floats as their texts have them. What has been written ends where a
separator, a bracket or the end of the text follows, so the reader stops at the right place.
-/

set_option autoImplicit false

namespace Shea.Analysis

open Shea.Computation Shea.Model

/-! ## Strings -/

section Strings

/-- A hexadecimal digit is read back. -/
theorem hexDigitValue_hexDigit {n : ℕ} (h : n < 16) : hexDigitValue (hexDigit n) = some n := by
  have hall : ∀ m : Fin 16, hexDigitValue (hexDigit m.val) = some m.val := by decide
  exact hall ⟨n, h⟩

/-- INTERNAL: the four digits of an escape are read back. -/
theorem hexUnit_unicodeEscape {n : ℕ} (h : n < 65536) :
    hexUnit (hexDigit (n / 4096 % 16)) (hexDigit (n / 256 % 16)) (hexDigit (n / 16 % 16))
      (hexDigit (n % 16)) = some n := by
  have hdigit : ∀ m, hexDigitValue (hexDigit (m % 16)) = some (m % 16) :=
    fun m => hexDigitValue_hexDigit (Nat.mod_lt _ (by decide))
  have hsum : 4096 * (n / 4096 % 16) + 256 * (n / 256 % 16) + 16 * (n / 16 % 16) + n % 16 = n := by
    omega
  simp [hexUnit, hdigit, hsum]

/-- INTERNAL: a surrogate pair stands for one character. -/
theorem scanChar_pair {high low : ℕ} (hhigh : 0xd800 ≤ high ∧ high < 0xdc00)
    (hlow : 0xdc00 ≤ low ∧ low < 0xe000) (s : List Char) :
    scanChar (unicodeEscape high ++ (unicodeEscape low ++ s)) =
      some (Char.ofNat (0x10000 + 0x400 * (high - 0xd800) + (low - 0xdc00)), s) := by
  have hfirst := hexUnit_unicodeEscape (n := high) (by omega)
  have hsecond := hexUnit_unicodeEscape (n := low) (by omega)
  simp only [unicodeEscape, List.cons_append, List.nil_append, scanChar, hfirst, hsecond,
    Option.bind_eq_bind, Option.bind_some, if_pos hhigh, if_pos hlow]

/-- INTERNAL: a character is read back from its escape. -/
theorem scanChar_escapeChar (c : Char) (s : List Char) : scanChar (escapeChar c ++ s) = some (c, s) := by
  have hvalid : c.toNat < 0xd800 ∨ (0xdfff < c.toNat ∧ c.toNat < 0x110000) := c.valid
  unfold escapeChar
  split_ifs with hquote hback hn hr ht hf hb hplain hbasic
  · rw [hquote]; rfl
  · rw [hback]; rfl
  · rw [hn]; rfl
  · rw [hr]; rfl
  · rw [ht]; rfl
  · rw [← Char.ofNat_toNat c, hf]; rfl
  · rw [← Char.ofNat_toNat c, hb]; rfl
  · rw [List.singleton_append]
    have hcontrol : ¬ c.toNat < 0x20 := by omega
    unfold scanChar
    split
    · simp_all
    · simp_all
    · simp_all
    · simp_all
  · have hhigh : ¬ (0xd800 ≤ c.toNat ∧ c.toNat < 0xdc00) := by omega
    have hlow : ¬ (0xdc00 ≤ c.toNat ∧ c.toNat < 0xe000) := by omega
    simp [unicodeEscape, scanChar, hexUnit_unicodeEscape hbasic, hhigh, hlow, Char.ofNat_toNat]
  · have hwhole : 0x10000 + 0x400 * (0xd800 + (c.toNat - 0x10000) / 0x400 - 0xd800) +
        (0xdc00 + (c.toNat - 0x10000) % 0x400 - 0xdc00) = c.toNat := by omega
    rw [List.append_assoc, scanChar_pair (by omega) (by omega), hwhole, Char.ofNat_toNat]

/-- INTERNAL: each letter is written somehow. -/
theorem escapeChar_ne_nil (c : Char) : escapeChar c ≠ [] := by
  intro h
  have hread := scanChar_escapeChar c []
  rw [h] at hread
  cases hread

/-- A string is read back from its literal.
SOURCE: persistence/sqlite/audit_chain.py:81 -/
theorem scanString_quote (text : List Char) (s : List Char) (fuel : ℕ) (hfuel : text.length < fuel) :
    scanString fuel (text.flatMap escapeChar ++ '"' :: s) = some (text, s) := by
  induction text generalizing fuel with
  | nil =>
    obtain ⟨fuel, rfl⟩ := Nat.exists_eq_succ_of_ne_zero (Nat.ne_of_gt hfuel)
    rfl
  | cons c text ih =>
    obtain ⟨fuel, rfl⟩ := Nat.exists_eq_succ_of_ne_zero (Nat.ne_of_gt (Nat.zero_lt_of_lt hfuel))
    have hrest := ih fuel (by simpa using hfuel)
    rw [List.flatMap_cons, List.append_assoc]
    unfold scanString
    split
    · next rest heq => exact absurd heq (escapeChar_ne_quote c _ _)
    · rw [scanChar_escapeChar]
      simp only [Option.bind_eq_bind, Option.bind_some, hrest]
      rfl

/-- INTERNAL: the fuel the reader takes is enough. -/
theorem length_le_flatMap (text : List Char) : text.length ≤ (text.flatMap escapeChar).length := by
  induction text with
  | nil => exact le_rfl
  | cons c text ih =>
    have hpos := List.length_pos_iff.mpr (escapeChar_ne_nil c)
    simp only [List.flatMap_cons, List.length_append, List.length_cons]
    omega

end Strings

/-! ## Numbers -/

section Numbers

/-- Digits, of which the first is a zero only where it is the only one. -/
def WholeDigits (ds : List Char) : Prop :=
  ds = ['0'] ∨ (ds ≠ [] ∧ ds.head? ≠ some '0' ∧ ∀ c ∈ ds, c.isDigit = true)

/-- No digit follows. -/
def NoDigit (s : List Char) : Prop := ∀ c ∈ s.head?, c.isDigit = false

/-- INTERNAL: digits are taken up to the first letter that is none. -/
theorem takeWhile_digits {ds s : List Char} (hds : ∀ c ∈ ds, c.isDigit = true) (hs : NoDigit s) :
    (ds ++ s).takeWhile Char.isDigit = ds ∧ (ds ++ s).dropWhile Char.isDigit = s := by
  have hnone : s.takeWhile Char.isDigit = [] ∧ s.dropWhile Char.isDigit = s := by
    cases s with
    | nil => exact ⟨rfl, rfl⟩
    | cons c s =>
      have hc : c.isDigit = false := hs c rfl
      simp [hc]
  rw [List.takeWhile_append_of_pos hds, List.dropWhile_append_of_pos hds, hnone.1, hnone.2,
    List.append_nil]
  exact ⟨rfl, rfl⟩

/-- INTERNAL: the digits of a whole number are read. -/
theorem scanWhole_append {ds s : List Char} (hds : WholeDigits ds) (hs : NoDigit s) :
    scanWhole (ds ++ s) = some (ds, s) := by
  rcases hds with rfl | ⟨hne, hhead, hdigits⟩
  · rfl
  · obtain ⟨htake, hdrop⟩ := takeWhile_digits hdigits hs
    cases ds with
    | nil => exact absurd rfl hne
    | cons c ds =>
      unfold scanWhole
      split
      · next heq =>
        obtain ⟨rfl, -⟩ := List.cons.inj heq
        exact absurd rfl hhead
      · rw [htake, hdrop, if_neg (List.cons_ne_nil _ _)]

/-- INTERNAL: a number written in decimal has no leading zero. -/
theorem head_toDigits {n : ℕ} (h : n ≠ 0) : (Nat.toDigits 10 n).head? ≠ some '0' := by
  induction n using Nat.strong_induction_on with
  | _ n ih =>
  rw [Nat.toDigits_eq_if (by decide)]
  split
  · next hlt =>
    have hall : ∀ m : Fin 10, m.val ≠ 0 → [Nat.digitChar m.val].head? ≠ some '0' := by decide
    exact hall ⟨n, hlt⟩ h
  · next hle =>
    have hfirst := ih (n / 10) (by omega) (by omega)
    rw [List.head?_append]
    cases hhead : (Nat.toDigits 10 (n / 10)).head? with
    | none => exact absurd (List.head?_eq_none_iff.mp hhead) Nat.toDigits_ne_nil
    | some c =>
      rw [hhead] at hfirst
      exact hfirst

/-- INTERNAL: a number is written in such digits. -/
theorem wholeDigits_toDigits (n : ℕ) : WholeDigits (Nat.toDigits 10 n) := by
  by_cases hzero : n = 0
  · exact .inl (by rw [hzero, Nat.toDigits_zero])
  · exact .inr ⟨Nat.toDigits_ne_nil, head_toDigits hzero, fun _ hc => isDigit_of_mem hc⟩

/-- INTERNAL: neither a fraction nor an exponent begins where a number may stop. -/
theorem scanFraction_stops {s : List Char} (hs : Stops s) : scanFraction s = ([], s) := by
  cases s with
  | nil => rfl
  | cons c s =>
    have hpoint : c ≠ '.' := by
      rintro rfl
      exact hs '.' rfl (by decide)
    unfold scanFraction
    split
    · next heq => exact absurd (List.cons.inj heq).1 hpoint
    · rfl

/-- INTERNAL: where a number ends there is no exponent. -/
theorem scanExponent_stops {s : List Char} (hs : Stops s) : scanExponent s = ([], s) := by
  cases s with
  | nil => rfl
  | cons c s =>
    have hletter : ¬ (c = 'e' ∨ c = 'E') := by
      rintro (rfl | rfl)
      · exact hs 'e' rfl (by decide)
      · exact hs 'E' rfl (by decide)
    simp [scanExponent, hletter]

/-- INTERNAL: nor a digit. -/
theorem noDigit_of_stops {s : List Char} (hs : Stops s) : NoDigit s := by
  intro c hc
  have hbare := hs c hc
  cases hdigit : c.isDigit with
  | false => rfl
  | true => simp [isBare, Char.isAlphanum, hdigit] at hbare

variable {floatOf : String → PyFloat}

/-- INTERNAL: an integer without its sign. -/
theorem scanUnsigned_digits {n : ℕ} (hn : (Nat.toDigits 10 n).length ≤ maxIntDigits) (negative : Bool)
    {s : List Char} (hs : Stops s) :
    scanUnsigned floatOf negative (Nat.toDigits 10 n ++ s) =
      some (.int (if negative then -(n : ℤ) else n), s) := by
  unfold scanUnsigned
  rw [scanWhole_append (wholeDigits_toDigits n) (noDigit_of_stops hs)]
  simp [scanFraction_stops hs, scanExponent_stops hs, intOfDigits, hn]

/-- An integer is read back from its text.
SOURCE: persistence/sqlite/audit_chain.py:81 -/
theorem scanNumber_int {n : ℤ} (hn : (Nat.toDigits 10 n.natAbs).length ≤ maxIntDigits) {s : List Char}
    (hs : Stops s) : scanNumber floatOf ((toString n).toList ++ s) = some (.int n, s) := by
  cases n with
  | ofNat m =>
    rw [toList_ofNat]
    have hread : scanUnsigned floatOf false (Nat.toDigits 10 m ++ s) = _ :=
      scanUnsigned_digits hn false hs
    unfold scanNumber
    split
    · next rest heq =>
      have hminus : '-' ∈ Nat.toDigits 10 m := by
        cases hdigits : Nat.toDigits 10 m with
        | nil => exact absurd hdigits Nat.toDigits_ne_nil
        | cons c ds =>
          rw [hdigits] at heq
          rw [(List.cons.inj heq).1]
          exact List.mem_cons_self ..
      exact absurd (isDigit_of_mem hminus) (by decide)
    · exact hread
  | negSucc m =>
    rw [toList_negSucc, List.cons_append]
    have hread : scanUnsigned floatOf true (Nat.toDigits 10 (m + 1) ++ s) = _ :=
      scanUnsigned_digits hn true hs
    show scanUnsigned floatOf true (Nat.toDigits 10 (m + 1) ++ s) = _
    rw [hread]
    rfl

def FractionLetters (s : List Char) : Prop :=
  s = [] ∨ ∃ ds, ds ≠ [] ∧ (∀ c ∈ ds, c.isDigit = true) ∧ s = '.' :: ds

def ExponentLetters (s : List Char) : Prop :=
  s = [] ∨ ∃ sign ds, (sign = [] ∨ sign = ['+'] ∨ sign = ['-']) ∧ ds ≠ [] ∧
    (∀ c ∈ ds, c.isDigit = true) ∧ s = 'e' :: (sign ++ ds)

/-- The letters of a float: a sign, digits, and a fraction or an exponent or both. -/
def FloatLetters (s : List Char) : Prop :=
  ∃ (negative : Bool) (whole fraction exponent : List Char),
    s = (if negative then ['-'] else []) ++ whole ++ fraction ++ exponent ∧ WholeDigits whole ∧
      FractionLetters fraction ∧ ExponentLetters exponent ∧ (fraction ≠ [] ∨ exponent ≠ [])

/-- INTERNAL: nor is there one where an exponent begins. -/
theorem noDigit_exponent {exponent s : List Char} (hexponent : ExponentLetters exponent)
    (hs : Stops s) : NoDigit (exponent ++ s) := by
  rcases hexponent with rfl | ⟨sign, ds, -, -, -, rfl⟩
  · exact noDigit_of_stops hs
  · intro c hc
    obtain rfl : 'e' = c := Option.some.inj hc
    decide

/-- INTERNAL: or a fraction. -/
theorem noDigit_fraction {fraction s : List Char} (hfraction : FractionLetters fraction)
    (hs : NoDigit s) : NoDigit (fraction ++ s) := by
  rcases hfraction with rfl | ⟨ds, -, -, rfl⟩
  · exact hs
  · intro c hc
    obtain rfl : '.' = c := Option.some.inj hc
    decide

/-- INTERNAL: an exponent is read. -/
theorem scanExponent_append {exponent s : List Char} (hexponent : ExponentLetters exponent)
    (hs : Stops s) : scanExponent (exponent ++ s) = (exponent, s) := by
  rcases hexponent with rfl | ⟨sign, ds, hsign, hne, hdigits, rfl⟩
  · exact scanExponent_stops hs
  · obtain ⟨htake, hdrop⟩ := takeWhile_digits hdigits (noDigit_of_stops hs)
    have hscan : scanSign (sign ++ (ds ++ s)) = (sign, ds ++ s) := by
      rcases hsign with rfl | rfl | rfl
      · cases ds with
        | nil => exact absurd rfl hne
        | cons d ds =>
          have hd : d.isDigit = true := hdigits d (List.mem_cons_self ..)
          unfold scanSign
          split
          · next heq =>
            obtain ⟨rfl, -⟩ := List.cons.inj heq
            exact absurd hd (by decide)
          · next heq =>
            obtain ⟨rfl, -⟩ := List.cons.inj heq
            exact absurd hd (by decide)
          · rfl
      · rfl
      · rfl
    rw [List.cons_append, List.append_assoc]
    simp [scanExponent, hscan, htake, hdrop, hne]

/-- INTERNAL: a fraction is read. -/
theorem scanFraction_append {fraction s : List Char} (hfraction : FractionLetters fraction)
    (hs : NoDigit s) (hpoint : s.head? ≠ some '.') : scanFraction (fraction ++ s) = (fraction, s) := by
  rcases hfraction with rfl | ⟨ds, hne, hdigits, rfl⟩
  · cases s with
    | nil => rfl
    | cons c s =>
      rw [List.nil_append]
      unfold scanFraction
      split
      · next heq =>
        obtain ⟨rfl, -⟩ := List.cons.inj heq
        exact absurd rfl hpoint
      · rfl
  · obtain ⟨htake, hdrop⟩ := takeWhile_digits hdigits hs
    simp [scanFraction, htake, hdrop, hne]

/-- INTERNAL: an exponent does not begin with a point. -/
theorem head_exponent {exponent s : List Char} (hexponent : ExponentLetters exponent)
    (hs : Stops s) : (exponent ++ s).head? ≠ some '.' := by
  rcases hexponent with rfl | ⟨sign, ds, -, -, -, rfl⟩
  · exact fun hpoint => hs '.' hpoint (by decide)
  · exact fun hpoint => absurd (Option.some.inj hpoint) (by decide)

/-- A float is read back from its text.
SOURCE: persistence/sqlite/audit_chain.py:81 -/
theorem scanNumber_float {letters s : List Char} (hletters : FloatLetters letters) (hs : Stops s) :
    scanNumber floatOf (letters ++ s) = some (.float (floatOf (String.ofList letters)), s) := by
  obtain ⟨negative, whole, fraction, exponent, rfl, hwhole, hfraction, hexponent, hpart⟩ := hletters
  have hscan : scanUnsigned floatOf negative (whole ++ (fraction ++ (exponent ++ s))) =
      some (.float (floatOf (String.ofList
        ((if negative then ['-'] else []) ++ whole ++ fraction ++ exponent))), s) := by
    have hnone : ¬ (fraction = [] ∧ exponent = []) := fun h => hpart.elim (· h.1) (· h.2)
    unfold scanUnsigned
    rw [scanWhole_append hwhole (noDigit_fraction hfraction (noDigit_exponent hexponent hs))]
    simp only [Option.bind_eq_bind, Option.bind_some]
    rw [scanFraction_append hfraction (noDigit_exponent hexponent hs) (head_exponent hexponent hs)]
    simp only [scanExponent_append hexponent hs, if_neg hnone]
    rfl
  cases negative with
  | true => 
    rw [← hscan]
    simp [scanNumber]
  | false =>
    rw [← hscan]
    simp only [Bool.false_eq_true, if_false, List.nil_append, List.append_assoc]
    unfold scanNumber
    split
    · next rest heq =>
      rcases hwhole with rfl | ⟨hne, -, hdigits⟩
      · cases heq
      · cases whole with
        | nil => exact absurd rfl hne
        | cons c ds =>
          obtain ⟨rfl, -⟩ := List.cons.inj heq
          exact absurd (hdigits _ (List.mem_cons_self ..)) (by decide)
    · rfl

end Numbers

/-- What the texts of finite floats are like for a reader: they have the letters of a float, and the
number is read back from them. -/
structure FloatsReadBack (py : Stdlib) (floatOf : String → PyFloat) : Prop extends FloatTexts py where
  shape (m e : ℤ) : FloatLetters (py.floatRepr (.finite m e)).toList
  back (m e : ℤ) : (floatOf (py.floatRepr (.finite m e))).canon = (PyFloat.finite m e).canon

section Values

variable {py : Stdlib} {floatOf : String → PyFloat}

/-- A letter with which a number or a word can begin. -/
def BareStart (c : Char) : Prop := c.isAlphanum = true ∨ c = '-'

/-- INTERNAL: such a letter is neither white space nor a quotation mark or bracket. -/
theorem BareStart.plain {c : Char} (h : BareStart c) :
    isJsonSpace c = false ∧ c ≠ ']' ∧ c ≠ '"' ∧ c ≠ '[' ∧ c ≠ '\x7b' ∧ c ≠ '\uFEFF' := by
  have hnot : ∀ d : Char, d.isAlphanum = false → d ≠ '-' → c ≠ d := by
    rintro d hd hminus rfl
    rcases h with hletter | hsign
    · exact Bool.false_ne_true (hd.symm.trans hletter)
    · exact hminus hsign
  have hblank := hnot ' ' (by decide) (by decide)
  have htab := hnot '\t' (by decide) (by decide)
  have hline := hnot '\n' (by decide) (by decide)
  have hreturn := hnot '\r' (by decide) (by decide)
  exact ⟨by simp [isJsonSpace, hblank, htab, hline, hreturn], hnot _ (by decide) (by decide),
    hnot _ (by decide) (by decide), hnot _ (by decide) (by decide), hnot _ (by decide) (by decide),
    hnot _ (by decide) (by decide)⟩

/-- INTERNAL: what is no string, list or dictionary. -/
theorem scanOnce_bare {c : Char} {s : List Char} {fuel : ℕ} (h : BareStart c) :
    scanOnce floatOf (fuel + 1) (c :: s) = scanBare floatOf (c :: s) := by
  obtain ⟨-, -, hquote, hitems, hentries, -⟩ := h.plain
  unfold scanOnce
  split
  · next heq => exact absurd (List.cons.inj heq).1 hquote
  · next heq => exact absurd (List.cons.inj heq).1 hitems
  · next heq => exact absurd (List.cons.inj heq).1 hentries
  · rfl

/-- The first letters of a number: a digit, or a minus and a digit. -/
def NumberStart (s : List Char) : Prop :=
  ∃ c rest, c.isDigit = true ∧ (s = c :: rest ∨ s = '-' :: c :: rest)

/-- INTERNAL: what begins as a number is read as one. -/
theorem scanBare_number {s : List Char} (h : NumberStart s) :
    scanBare floatOf s = scanNumber floatOf s := by
  obtain ⟨c, rest, hc, rfl | rfl⟩ := h
  · unfold scanBare
    split
    all_goals first
      | rfl
      | next heq =>
        obtain ⟨rfl, -⟩ := List.cons.inj heq
        exact absurd hc (by decide)
  · unfold scanBare
    split
    all_goals first
      | rfl
      | next heq =>
        obtain ⟨-, heq⟩ := List.cons.inj heq
        obtain ⟨rfl, -⟩ := List.cons.inj heq
        exact absurd hc (by decide)

/-- INTERNAL: digits begin a number. -/
theorem numberStart_whole {whole s : List Char} (h : WholeDigits whole) : NumberStart (whole ++ s) := by
  rcases h with rfl | ⟨hne, -, hdigits⟩
  · exact ⟨'0', s, by decide, .inl rfl⟩
  · cases whole with
    | nil => exact absurd rfl hne
    | cons c ds => exact ⟨c, ds ++ s, hdigits c (List.mem_cons_self ..), .inl rfl⟩

/-- INTERNAL: so does a minus before them. -/
theorem numberStart_minus {whole s : List Char} (h : WholeDigits whole) :
    NumberStart ('-' :: (whole ++ s)) := by
  rcases h with rfl | ⟨hne, -, hdigits⟩
  · exact ⟨'0', s, by decide, .inr rfl⟩
  · cases whole with
    | nil => exact absurd rfl hne
    | cons c ds => exact ⟨c, ds ++ s, hdigits c (List.mem_cons_self ..), .inr rfl⟩

/-- INTERNAL: an integer begins as a number. -/
theorem numberStart_int (n : ℤ) (s : List Char) : NumberStart ((toString n).toList ++ s) := by
  cases n with
  | ofNat m =>
    rw [toList_ofNat]
    exact numberStart_whole (wholeDigits_toDigits m)
  | negSucc m =>
    rw [toList_negSucc]
    exact numberStart_minus (wholeDigits_toDigits (m + 1))

/-- INTERNAL: so does a float. -/
theorem numberStart_float {letters : List Char} (h : FloatLetters letters) (s : List Char) :
    NumberStart (letters ++ s) := by
  obtain ⟨negative, whole, fraction, exponent, rfl, hwhole, -⟩ := h
  simp only [List.append_assoc]
  cases negative with
  | true => exact numberStart_minus (s := fraction ++ (exponent ++ s)) hwhole
  | false => exact numberStart_whole (s := fraction ++ (exponent ++ s)) hwhole

/-- INTERNAL: a number is no string, list or dictionary. -/
theorem NumberStart.bare {s : List Char} (h : NumberStart s) :
    ∃ c rest, s = c :: rest ∧ BareStart c := by
  obtain ⟨c, rest, hc, rfl | rfl⟩ := h
  · exact ⟨c, rest, rfl, .inl (by simp [Char.isAlphanum, hc])⟩
  · exact ⟨'-', c :: rest, rfl, .inr rfl⟩

/-- INTERNAL: a number or a word is read back. -/
theorem scanOnce_jsonLetters_bare (hfloat : FloatsReadBack py floatOf) {v : Value}
    (hkind : kind v = .bare) {letters : List Char} (h : jsonLetters py v = some letters) :
    (∃ c rest, letters = c :: rest ∧ BareStart c) ∧ ∀ s fuel, Stops s →
      ∃ other, scanOnce floatOf (fuel + 1) (letters ++ s) = some (other, s) ∧ other.Direct ∧
        other.canon = v.canon := by
  induction v using Value.byWritten with
  | through text traits v ih => exact ih hkind h
  | direct v hdirect =>
  -- a word begins with a letter of its own, and nothing that may follow belongs to it
  have hword : ∀ {c : Char} {word : List Char} {other : Value}, BareStart c →
      (∀ s, scanBare floatOf (c :: word ++ s) = some (other, s)) → letters = c :: word →
      other.Direct ∧ other.canon = v.canon →
      (∃ c rest, letters = c :: rest ∧ BareStart c) ∧ ∀ s fuel, Stops s →
        ∃ other, scanOnce floatOf (fuel + 1) (letters ++ s) = some (other, s) ∧ other.Direct ∧
          other.canon = v.canon := by
    rintro c word other hc hscan rfl hcanon
    refine ⟨⟨c, word, rfl, hc⟩, fun s fuel _ => ⟨other, ?_, hcanon⟩⟩
    rw [List.cons_append, scanOnce_bare hc]
    exact hscan s
  have hnumber : ∀ {other : Value}, (∀ s, NumberStart (letters ++ s)) →
      (∀ s, Stops s → scanNumber floatOf (letters ++ s) = some (other, s)) →
      other.Direct ∧ other.canon = v.canon →
      (∃ c rest, letters = c :: rest ∧ BareStart c) ∧ ∀ s fuel, Stops s →
        ∃ other, scanOnce floatOf (fuel + 1) (letters ++ s) = some (other, s) ∧ other.Direct ∧
          other.canon = v.canon := by
    intro other hstart hscan hcanon
    have hfirst := (hstart []).bare
    rw [List.append_nil] at hfirst
    refine ⟨hfirst, fun s fuel hs => ⟨other, ?_, hcanon⟩⟩
    rw [← hscan s hs, ← scanBare_number (hstart s)]
    obtain ⟨c, rest, rfl, hc⟩ := hfirst
    exact scanOnce_bare hc
  cases v with
  | none =>
    obtain rfl := Option.some.inj h
    exact hword (.inl (by decide)) (fun s => rfl) rfl ⟨by trivial, rfl⟩
  | bool b =>
    cases b with
    | true =>
      obtain rfl := Option.some.inj h
      exact hword (.inl (by decide)) (fun s => rfl) rfl ⟨by trivial, rfl⟩
    | false =>
      obtain rfl := Option.some.inj h
      exact hword (.inl (by decide)) (fun s => rfl) rfl ⟨by trivial, rfl⟩
  | int n =>
    rw [jsonLetters] at h
    split at h
    · next hdigits =>
      obtain rfl := Option.some.inj h
      exact hnumber (numberStart_int n) (fun s hs => scanNumber_int hdigits hs) ⟨by trivial, rfl⟩
    · cases h
  | float x =>
    cases x with
    | finite m e =>
      obtain rfl := Option.some.inj h
      refine hnumber (numberStart_float (hfloat.shape m e))
        (fun s hs => scanNumber_float (hfloat.shape m e) hs) ?_
      rw [String.ofList_toList]
      exact ⟨trivial, congrArg Value.float (hfloat.back m e)⟩
    | inf =>
      obtain rfl := Option.some.inj h
      exact hword (.inl (by decide)) (fun s => rfl) rfl ⟨by trivial, rfl⟩
    | negInf =>
      obtain rfl := Option.some.inj h
      exact hword (.inr rfl) (fun s => rfl) rfl ⟨by trivial, rfl⟩
    | nan =>
      obtain rfl := Option.some.inj h
      exact hword (.inl (by decide)) (fun s => rfl) rfl ⟨by trivial, rfl⟩
  | str text => cases hkind
  | list items => cases hkind
  | dict entries => cases hkind
  | other text traits written =>
    cases written with
    | none => cases hkind
    | some _ => exact hdirect.elim

/-! ## Values -/

/-- The value is read back from its letters, with what follows them left over. -/
def ReadBack (py : Stdlib) (floatOf : String → PyFloat) (v : Value) : Prop :=
  ∀ letters, jsonLetters py v = some letters →
    (∃ c rest, letters = c :: rest ∧ isJsonSpace c = false ∧ c ≠ ']' ∧ c ≠ '\uFEFF') ∧
    ∀ s fuel, Stops s → 2 * letters.length ≤ fuel →
      ∃ other, scanOnce floatOf fuel (letters ++ s) = some (other, s) ∧ other.canon = v.canon

/-- A string is read back. -/
theorem readBack_str (text : String) : ReadBack py floatOf (.str text) := by
  intro letters h
  obtain rfl := Option.some.inj h
  rw [toList_quote]
  refine ⟨⟨_, _, rfl, rfl, by decide, by decide⟩, fun s fuel _ hfuel => ⟨.str text, ?_, rfl⟩⟩
  obtain ⟨fuel, rfl⟩ := Nat.exists_eq_succ_of_ne_zero (n := fuel) (by rintro rfl; simp at hfuel)
  have hlength := length_le_flatMap text.toList
  have hscan := scanString_quote text.toList s
    ((text.toList.flatMap escapeChar ++ '"' :: s).length + 1) (by
      simp only [List.length_append]
      omega)
  simp only [List.cons_append, List.append_assoc, List.nil_append]
  unfold scanOnce
  simp only [hscan, Option.bind_eq_bind, Option.bind_some, String.ofList_toList]
  rfl

/-- INTERNAL: what is no space is not skipped. -/
theorem skipSpace_cons {c : Char} {s : List Char} (h : isJsonSpace c = false) :
    skipSpace (c :: s) = c :: s := by
  simp [skipSpace, h]

/-- INTERNAL: the parts of what is written in a list or a dictionary are separated by a comma and a
blank. -/
theorem intercalate_cons {first : List Char} {rest : List (List Char)} (h : rest ≠ []) :
    [',', ' '].intercalate (first :: rest) = first ++ ',' :: ' ' :: [',', ' '].intercalate rest := by
  cases rest with
  | nil => exact absurd rfl h
  | cons second others =>
    rw [List.intercalate_cons_cons]
    simp

/-- INTERNAL: the first letter of items in a row. -/
theorem head_intercalate (c : Char) (tail : List Char) (rest : List (List Char)) :
    ∃ more, [',', ' '].intercalate ((c :: tail) :: rest) = c :: more := by
  cases rest with
  | nil => exact ⟨tail, by simp⟩
  | cons second others =>
    rw [intercalate_cons (List.cons_ne_nil _ _)]
    exact ⟨_, rfl⟩

/-- INTERNAL: entries begin with a quotation mark. -/
theorem head_entries (key : String) (first : List Char) (rest : List (List Char)) :
    ∃ more, [',', ' '].intercalate (((quote key).toList ++ ':' :: ' ' :: first) :: rest) =
      '"' :: more := by
  rw [toList_quote, List.cons_append]
  exact head_intercalate ..

/-- INTERNAL: the blank after a separator is skipped, and nothing more. -/
theorem skipSpace_blank {c : Char} {s : List Char} (h : isJsonSpace c = false) :
    skipSpace (' ' :: c :: s) = c :: s := skipSpace_cons h

/-- INTERNAL: a list or a dictionary that is not empty is read from its first letter on. -/
theorem scanOnce_list {c : Char} (hspace : isJsonSpace c = false) (hclose : c ≠ ']') (s : List Char)
    (fuel : ℕ) : scanOnce floatOf (fuel + 1) ('[' :: c :: s) =
      (scanItems floatOf fuel (c :: s)).map fun read => (.list read.1, read.2) := by
  rw [scanOnce]
  simp only [skipSpace_cons hspace]
  split
  · next heq => exact absurd (List.cons.inj heq).1 hclose
  · cases scanItems floatOf fuel (c :: s) <;> rfl

/-- INTERNAL: a dictionary with entries. -/
theorem scanOnce_dict (s : List Char) (fuel : ℕ) : scanOnce floatOf (fuel + 1) ('\x7b' :: '"' :: s) =
    (scanEntries floatOf fuel ('"' :: s)).map fun read => (.dict (Dict.update [] read.1), read.2) := by
  rw [scanOnce]
  simp only [skipSpace_cons (c := '"') rfl]
  split
  · next heq => exact absurd (List.cons.inj heq).1 (by decide)
  · cases scanEntries floatOf fuel ('"' :: s) <;> rfl

/-- INTERNAL: what was written of a list, item by item. -/
theorem jsonItems_cons {x : Value} {xs : List Value} {written : List (List Char)}
    (h : jsonItems py (x :: xs) = some written) :
    ∃ first rest, jsonLetters py x = some first ∧ jsonItems py xs = some rest ∧
      written = first :: rest := by
  rw [jsonItems] at h
  cases hfirst : jsonLetters py x with
  | none =>
    rw [hfirst] at h
    cases h
  | some first =>
    cases hrest : jsonItems py xs with
    | none =>
      rw [hfirst, hrest] at h
      cases h
    | some rest =>
      rw [hfirst, hrest] at h
      exact ⟨first, rest, rfl, rfl, (Option.some.inj h).symm⟩

/-- INTERNAL: the items of a list are read back, from any of them on. -/
theorem scanItems_jsonItems {x : Value} {xs : List Value}
    (hback : ∀ y ∈ x :: xs, ReadBack py floatOf y) {written : List (List Char)}
    (h : jsonItems py (x :: xs) = some written) (s : List Char) (fuel : ℕ)
    (hfuel : 2 * ([',', ' '].intercalate written).length < fuel) :
    ∃ items, scanItems floatOf fuel ([',', ' '].intercalate written ++ ']' :: s) = some (items, s) ∧
      items.map Value.canon = (x :: xs).map Value.canon := by
  induction xs generalizing x written fuel with
  | nil =>
    obtain ⟨first, rest, hfirst, hrest, rfl⟩ := jsonItems_cons h
    obtain rfl := Option.some.inj hrest
    obtain ⟨-, hread⟩ := hback x (List.mem_cons_self ..) first hfirst
    obtain ⟨fuel, rfl⟩ := Nat.exists_eq_succ_of_ne_zero (Nat.ne_of_gt (Nat.zero_lt_of_lt hfuel))
    obtain ⟨other, hscan, hcanon⟩ := hread (']' :: s) fuel (stops_of_head (c := ']') (by decide) rfl)
      (by simp at hfuel; omega)
    refine ⟨[other], ?_, by simp [hcanon]⟩
    unfold scanItems
    simp only [List.intercalate_singleton, hscan, Option.bind_eq_bind, Option.bind_some]
    rfl
  | cons y ys ih =>
    obtain ⟨first, rest, hfirst, hrest, rfl⟩ := jsonItems_cons h
    obtain ⟨-, hread⟩ := hback x (List.mem_cons_self ..) first hfirst
    obtain ⟨fuel, rfl⟩ := Nat.exists_eq_succ_of_ne_zero (Nat.ne_of_gt (Nat.zero_lt_of_lt hfuel))
    obtain ⟨second, others, hsecond, -, hparts⟩ := jsonItems_cons hrest
    -- the next item begins with no white space
    obtain ⟨⟨c, tail, rfl, hspace, -⟩, -⟩ :=
      hback y (List.mem_cons_of_mem _ (List.mem_cons_self ..)) second hsecond
    obtain ⟨more, hmore⟩ := head_intercalate c tail others
    rw [intercalate_cons (hparts ▸ List.cons_ne_nil _ _)] at hfuel ⊢
    simp only [List.length_append, List.length_cons] at hfuel
    obtain ⟨other, hscan, hcanon⟩ := hread (',' :: ' ' :: ([',', ' '].intercalate rest ++ ']' :: s)) fuel
      (stops_of_head (c := ',') (by decide) rfl) (by omega)
    obtain ⟨items, hitems, hcanons⟩ := ih (fun z hz => hback z (List.mem_cons_of_mem _ hz)) hrest fuel
      (by omega)
    refine ⟨other :: items, ?_, by rw [List.map_cons, List.map_cons, hcanon, hcanons]⟩
    rw [hparts, hmore, List.cons_append] at hscan hitems
    rw [hparts, hmore]
    unfold scanItems
    simp only [List.append_assoc, List.cons_append, hscan, Option.bind_eq_bind, Option.bind_some,
      skipSpace_cons (c := ',') rfl, skipSpace_blank hspace, hitems]
    rfl

/-- INTERNAL: what was written of a dictionary, entry by entry. -/
theorem jsonEntries_cons {entry : String × Value} {entries : Dict} {written : List (List Char)}
    (h : jsonEntries py (entry :: entries) = some written) :
    ∃ first rest, jsonLetters py entry.2 = some first ∧ jsonEntries py entries = some rest ∧
      written = ((quote entry.1).toList ++ ':' :: ' ' :: first) :: rest := by
  obtain ⟨key, x⟩ := entry
  rw [jsonEntries] at h
  cases hfirst : jsonLetters py x with
  | none =>
    rw [hfirst] at h
    cases h
  | some first =>
    cases hrest : jsonEntries py entries with
    | none =>
      rw [hfirst, hrest] at h
      cases h
    | some rest =>
      rw [hfirst, hrest] at h
      exact ⟨first, rest, rfl, rfl, (Option.some.inj h).symm⟩

/-- The content of an entry. -/
def canonEntry (entry : String × Value) : String × Value := (entry.1, entry.2.canon)

/-- INTERNAL: the key of an entry and its value are read back, and what comes after them is looked at. -/
theorem scanEntries_head (key : String) {x : Value} {first : List Char} (next : Char) (s : List Char)
    (fuel : ℕ) (hback : ReadBack py floatOf x) (hfirst : jsonLetters py x = some first)
    (hstop : isBare next = false) (hspace : isJsonSpace next = false)
    (hfuel : 2 * first.length ≤ fuel) :
    ∃ other, other.canon = x.canon ∧
      (next = '\x7d' →
        scanEntries floatOf (fuel + 1) ((quote key).toList ++ ':' :: ' ' :: (first ++ next :: s)) =
          some ([(key, other)], s)) ∧
      (next = ',' →
        scanEntries floatOf (fuel + 1) ((quote key).toList ++ ':' :: ' ' :: (first ++ next :: s)) =
          (scanEntries floatOf fuel (skipSpace s)).map fun read => ((key, other) :: read.1, read.2)) := by
  obtain ⟨⟨c, tail, rfl, hblank, -⟩, hread⟩ := hback first hfirst
  obtain ⟨other, hscan, hcanon⟩ := hread (next :: s) fuel (stops_of_head hstop rfl) hfuel
  have hkey := scanString_quote key.toList (':' :: ' ' :: (c :: tail ++ next :: s))
    ((key.toList.flatMap escapeChar ++ '"' :: ':' :: ' ' :: (c :: tail ++ next :: s)).length + 1) (by
      have hlength := length_le_flatMap key.toList
      simp only [List.length_append]
      omega)
  rw [toList_quote]
  simp only [List.cons_append, List.append_assoc, List.nil_append] at hkey hscan ⊢
  rw [scanEntries]
  simp only [hkey, Option.bind_eq_bind, Option.bind_some, skipSpace_cons (c := ':') rfl,
    skipSpace_blank hblank, hscan, skipSpace_cons hspace, String.ofList_toList]
  refine ⟨other, hcanon, ?_, ?_⟩
  · rintro rfl
    rfl
  · rintro rfl
    show (scanEntries floatOf fuel (skipSpace s)).bind _ = _
    cases scanEntries floatOf fuel (skipSpace s) <;> rfl

/-- INTERNAL: the entries of a dictionary are read back, from any of them on. -/
theorem scanEntries_jsonEntries {entry : String × Value} {entries : Dict}
    (hback : ∀ e ∈ entry :: entries, ReadBack py floatOf e.2) {written : List (List Char)}
    (h : jsonEntries py (entry :: entries) = some written) (s : List Char) (fuel : ℕ)
    (hfuel : 2 * ([',', ' '].intercalate written).length < fuel) :
    ∃ read, scanEntries floatOf fuel ([',', ' '].intercalate written ++ '\x7d' :: s) = some (read, s) ∧
      read.map canonEntry = (entry :: entries).map canonEntry := by
  induction entries generalizing entry written fuel with
  | nil =>
    obtain ⟨first, rest, hfirst, hrest, rfl⟩ := jsonEntries_cons h
    obtain rfl := Option.some.inj hrest
    obtain ⟨fuel, rfl⟩ := Nat.exists_eq_succ_of_ne_zero (Nat.ne_of_gt (Nat.zero_lt_of_lt hfuel))
    simp only [List.intercalate_singleton, List.length_append, List.length_cons] at hfuel
    obtain ⟨other, hcanon, hlast, -⟩ := scanEntries_head entry.1 '\x7d' s fuel
      (hback entry (List.mem_cons_self ..)) hfirst (by decide) rfl (by omega)
    refine ⟨[(entry.1, other)], ?_, by simp [canonEntry, hcanon]⟩
    rw [← hlast rfl]
    simp
  | cons second entries ih =>
    obtain ⟨first, rest, hfirst, hrest, rfl⟩ := jsonEntries_cons h
    obtain ⟨fuel, rfl⟩ := Nat.exists_eq_succ_of_ne_zero (Nat.ne_of_gt (Nat.zero_lt_of_lt hfuel))
    obtain ⟨value, others, -, -, hparts⟩ := jsonEntries_cons hrest
    rw [intercalate_cons (hparts ▸ List.cons_ne_nil _ _)] at hfuel ⊢
    simp only [List.length_append, List.length_cons] at hfuel
    obtain ⟨other, hcanon, -, hcomma⟩ := scanEntries_head entry.1 ','
      (' ' :: ([',', ' '].intercalate rest ++ '\x7d' :: s)) fuel (hback entry (List.mem_cons_self ..))
      hfirst (by decide) rfl (by omega)
    obtain ⟨read, hread, hcanons⟩ := ih (fun e he => hback e (List.mem_cons_of_mem _ he)) hrest fuel
      (by omega)
    have hentry : canonEntry (entry.1, other) = canonEntry entry := by simp [canonEntry, hcanon]
    refine ⟨(entry.1, other) :: read, ?_, by rw [List.map_cons, List.map_cons, hcanons, hentry]⟩
    -- the next entry begins with a quotation mark
    have hskip : skipSpace (' ' :: ([',', ' '].intercalate rest ++ '\x7d' :: s)) =
        [',', ' '].intercalate rest ++ '\x7d' :: s := by
      obtain ⟨more, hmore⟩ := head_entries second.1 value others
      rw [hparts, hmore]
      exact skipSpace_blank rfl
    have hscan := hcomma rfl
    rw [hskip, hread] at hscan
    simpa using hscan

/-- INTERNAL: in the items of a list no dictionary repeats a key. -/
theorem distinctKeys_list {items : List Value} (h : (Value.list items).distinctKeys = true) :
    ∀ x ∈ items, x.distinctKeys = true := by
  rw [Value.distinctKeys] at h
  induction items with
  | nil => exact fun x hx => by cases hx
  | cons y ys ih =>
    rw [Value.distinctKeysList, Bool.and_eq_true] at h
    intro x hx
    rcases List.mem_cons.mp hx with rfl | hx
    · exact h.1
    · exact ih h.2 x hx

/-- INTERNAL: nor does a dictionary, or one in it. -/
theorem distinctKeys_dict {entries : Dict} (h : (Value.dict entries).distinctKeys = true) :
    (entries.map Prod.fst).Nodup ∧ ∀ entry ∈ entries, entry.2.distinctKeys = true := by
  rw [Value.distinctKeys, Bool.and_eq_true, decide_eq_true_eq] at h
  refine ⟨h.1, ?_⟩
  have hvalues := h.2
  clear h
  induction entries with
  | nil => exact fun x hx => by cases hx
  | cons head rest ih =>
    rw [Value.distinctKeysDict, Bool.and_eq_true] at hvalues
    intro entry hentry
    rcases List.mem_cons.mp hentry with rfl | hentry
    · exact hvalues.1
    · exact ih hvalues.2 entry hentry

/-- INTERNAL: a dictionary of different keys is what its entries make, one after the other. -/
theorem update_of_nodup {d entries : Dict} (h : ((d ++ entries).map Prod.fst).Nodup) :
    Dict.update d entries = d ++ entries := by
  unfold Dict.update
  induction entries generalizing d with
  | nil => simp
  | cons entry rest ih =>
    have hnew : d.has entry.1 = false := by
      rw [← Bool.not_eq_true, Dict.has_iff_mem]
      rintro ⟨value, hvalue⟩
      rw [List.map_append, List.nodup_append] at h
      exact h.2.2 _ (List.mem_map_of_mem hvalue) _ (List.mem_map_of_mem (List.mem_cons_self ..)) rfl
    rw [List.foldl_cons, Dict.set_of_missing hnew, ih (by simpa using h)]
    simp

/-- A value is read back from its letters: the same content, whatever follows.
SOURCE: persistence/sqlite/audit_sink.py:76, persistence/sqlite/audit_chain.py:81 -/
theorem readBack_of_distinctKeys (hfloat : FloatsReadBack py floatOf) (v : Value)
    (hkeys : v.distinctKeys = true) : ReadBack py floatOf v := by
  induction hsize : sizeOf v using Nat.strong_induction_on generalizing v with
  | _ size ih =>
  subst hsize
  have hbare : kind v = .bare → ReadBack py floatOf v := by
    intro hkind letters h
    obtain ⟨⟨c, rest, rfl, hc⟩, hread⟩ := scanOnce_jsonLetters_bare hfloat hkind h
    obtain ⟨hspace, hclose, -, -, -, hmark⟩ := hc.plain
    refine ⟨⟨c, rest, rfl, hspace, hclose, hmark⟩, fun s fuel hs hfuel => ?_⟩
    obtain ⟨fuel, rfl⟩ := Nat.exists_eq_succ_of_ne_zero (n := fuel) (by rintro rfl; simp at hfuel)
    obtain ⟨other, hscan, -, hcanon⟩ := hread s fuel hs
    exact ⟨other, hscan, hcanon⟩
  cases v with
  | none => exact hbare rfl
  | bool b => exact hbare rfl
  | int n => exact hbare rfl
  | float x => exact hbare rfl
  | str text => exact readBack_str text
  | other text traits written =>
    cases written with
    | none =>
      intro letters h
      cases h
    | some v => exact ih _ (sizeOf_lt_other text traits v) v hkeys rfl
  | list items =>
    intro letters h
    rw [jsonLetters] at h
    obtain ⟨written, hwritten, rfl⟩ := Option.map_eq_some_iff.mp h
    refine ⟨⟨_, _, rfl, rfl, by decide, by decide⟩, fun s fuel _ hfuel => ?_⟩
    simp only [List.length_cons, List.length_append, List.length_nil] at hfuel
    obtain ⟨fuel, rfl⟩ := Nat.exists_eq_succ_of_ne_zero (n := fuel) (by omega)
    have hback : ∀ x ∈ items, ReadBack py floatOf x := fun x hx =>
      ih _ (sizeOf_lt_list hx) x (distinctKeys_list hkeys x hx) rfl
    cases items with
    | nil =>
      obtain rfl := Option.some.inj hwritten
      exact ⟨.list [], rfl, rfl⟩
    | cons x xs =>
      obtain ⟨first, rest, hfirst, -, rfl⟩ := jsonItems_cons hwritten
      obtain ⟨read, hread, hcanon⟩ := scanItems_jsonItems hback hwritten s fuel (by omega)
      obtain ⟨⟨c, tail, rfl, hspace, hclose, -⟩, -⟩ := hback x (List.mem_cons_self ..) first hfirst
      obtain ⟨more, hmore⟩ := head_intercalate c tail rest
      refine ⟨.list read, ?_, by rw [Value.canon_list, Value.canon_list, hcanon]⟩
      rw [hmore] at hread ⊢
      rw [List.cons_append] at hread
      simp only [List.cons_append, List.append_assoc, List.nil_append]
      rw [scanOnce_list hspace hclose, hread]
      rfl
  | dict entries =>
    intro letters h
    rw [jsonLetters] at h
    obtain ⟨written, hwritten, rfl⟩ := Option.map_eq_some_iff.mp h
    refine ⟨⟨_, _, rfl, rfl, by decide, by decide⟩, fun s fuel _ hfuel => ?_⟩
    simp only [List.length_cons, List.length_append, List.length_nil] at hfuel
    obtain ⟨fuel, rfl⟩ := Nat.exists_eq_succ_of_ne_zero (n := fuel) (by omega)
    obtain ⟨hnodup, hvalues⟩ := distinctKeys_dict hkeys
    have hback : ∀ entry ∈ entries, ReadBack py floatOf entry.2 := fun entry hentry =>
      ih _ (sizeOf_lt_dict hentry) entry.2 (hvalues entry hentry) rfl
    cases entries with
    | nil =>
      obtain rfl := Option.some.inj hwritten
      exact ⟨.dict [], rfl, rfl⟩
    | cons entry entries =>
      obtain ⟨first, rest, -, -, rfl⟩ := jsonEntries_cons hwritten
      obtain ⟨read, hread, hcanon⟩ := scanEntries_jsonEntries hback hwritten s fuel (by omega)
      have hread_keys : (read.map Prod.fst).Nodup := by
        have hsame := congrArg (List.map Prod.fst) hcanon
        rw [List.map_map, List.map_map] at hsame
        exact hsame ▸ hnodup
      refine ⟨.dict read, ?_, ?_⟩
      · obtain ⟨more, hmore⟩ := head_entries entry.1 first rest
        rw [hmore] at hread ⊢
        rw [List.cons_append] at hread
        simp only [List.cons_append, List.append_assoc, List.nil_append]
        rw [scanOnce_dict, hread]
        exact congrArg (fun d => some (Value.dict d, s)) (update_of_nodup (d := []) hread_keys)
      · rw [Value.canon_dict, Value.canon_dict]
        exact congrArg (fun written => Value.dict (sortEntries written)) hcanon

/-- What `json.dumps` has written is what `json.loads` reads, the content of a value.
SOURCE: persistence/sqlite/audit_sink.py:76, persistence/sqlite/audit_chain.py:81 -/
theorem jsonLoads_jsonDumps (hfloat : FloatsReadBack py floatOf) {v : Value}
    (hkeys : v.distinctKeys = true) {text : String} (h : jsonDumps py v = some text) :
    ∃ other, jsonLoads floatOf text = some other ∧ other.canon = v.canon := by
  obtain ⟨letters, hletters, rfl⟩ := Option.map_eq_some_iff.mp h
  obtain ⟨⟨c, rest, rfl, hspace, -, hmark⟩, hread⟩ :=
    readBack_of_distinctKeys hfloat v hkeys letters hletters
  have hnil : Stops [] := fun c hc => by cases hc
  obtain ⟨other, hscan, hcanon⟩ := hread [] (2 * (c :: rest).length + 1) hnil (by omega)
  refine ⟨other, ?_, hcanon⟩
  rw [List.append_nil] at hscan
  unfold jsonLoads
  rw [String.toList_ofList]
  split
  · next heq => exact absurd (List.cons.inj heq).1 hmark
  · rw [skipSpace_cons hspace, hscan]
    rfl

end Values

/-- INTERNAL: the factors of two are taken out once and for all. -/
theorem canon_canon (x : PyFloat) : x.canon.canon = x.canon := by
  cases x with
  | finite m e =>
    by_cases hm : m = 0
    · simp [PyFloat.canon, hm]
    · have hdvd : (2 : ℤ) ^ padicValNat 2 m.natAbs ∣ m := by
        rw [← Int.natAbs_dvd_natAbs, Int.natAbs_pow]
        exact pow_padicValNat_dvd
      have hodd : padicValNat 2 (m / 2 ^ padicValNat 2 m.natAbs).natAbs = 0 := by
        rw [Int.natAbs_ediv_of_dvd hdvd, Int.natAbs_pow]
        show padicValNat 2 (m.natAbs / 2 ^ padicValNat 2 m.natAbs) = 0
        rw [padicValNat.div_pow pow_padicValNat_dvd, Nat.sub_self]
      have hne : m / 2 ^ padicValNat 2 m.natAbs ≠ 0 := by
        intro hzero
        exact hm (Int.eq_zero_of_ediv_eq_zero hdvd hzero)
      simp [PyFloat.canon, hm, hne, hodd]
  | inf => rfl
  | negInf => rfl
  | nan => rfl

/-- The integer that some letters write. -/
def intOfLetters : List Char → ℤ
  | '-' :: ds => -(Nat.ofDigitChars 10 ds 0 : ℤ)
  | ds => Nat.ofDigitChars 10 ds 0

/-- The float that a text of mantissa and exponent writes. -/
def floatOfText (text : String) : PyFloat :=
  .finite (intOfLetters (text.toList.takeWhile (· ≠ 'e')))
    (intOfLetters ((text.toList.dropWhile (· ≠ 'e')).drop 1))

/-- The letters of an integer are read as the integer. -/
theorem intOfLetters_toString (n : ℤ) : intOfLetters (toString n).toList = n := by
  cases n with
  | ofNat m =>
    rw [toList_ofNat]
    unfold intOfLetters
    split
    · next ds heq =>
      have hminus : '-' ∈ Nat.toDigits 10 m := heq ▸ List.mem_cons_self ..
      exact absurd (isDigit_of_mem hminus) (by decide)
    · rw [Nat.ofDigitChars_ten_toDigits]
      rfl
  | negSucc m =>
    rw [toList_negSucc]
    show -(Nat.ofDigitChars 10 (Nat.toDigits 10 (m + 1)) 0 : ℤ) = _
    rw [Nat.ofDigitChars_ten_toDigits]
    rfl

/-- INTERNAL: the letters of an integer are a sign and digits. -/
theorem signed_int (n : ℤ) : ∃ (negative : Bool) (ds : List Char),
    (toString n).toList = (if negative then ['-'] else []) ++ ds ∧ WholeDigits ds ∧
      (∀ c ∈ ds, c.isDigit = true) := by
  cases n with
  | ofNat m =>
    exact ⟨false, _, toList_ofNat m, wholeDigits_toDigits m, fun _ hc => isDigit_of_mem hc⟩
  | negSucc m =>
    exact ⟨true, _, toList_negSucc m, wholeDigits_toDigits (m + 1), fun _ hc => isDigit_of_mem hc⟩

/-- Such texts are read back. -/
theorem floatsReadBack_floatText (py : Stdlib) :
    FloatsReadBack { py with floatRepr := floatText } floatOfText := by
  refine ⟨floatTexts_floatText py, fun m e => ?_, fun m e => ?_⟩
  · obtain ⟨m', e', -, htext⟩ := toList_floatText m e
    obtain ⟨negative, whole, hmantissa, hwhole, -⟩ := signed_int m'
    obtain ⟨negative', ds, hexponent, hdigits, hall⟩ := signed_int e'
    refine ⟨negative, whole, [], 'e' :: (toString e').toList, ?_, hwhole, .inl rfl, .inr ?_,
      .inr (List.cons_ne_nil _ _)⟩
    · show (floatText (.finite m e)).toList = _
      rw [htext, hmantissa, List.append_nil]
    · refine ⟨if negative' then ['-'] else [], ds, ?_, ?_, hall, by rw [hexponent]⟩
      · cases negative' <;> simp
      · rcases hdigits with rfl | hne
        · exact List.cons_ne_nil _ _
        · exact hne.1
  · obtain ⟨m', e', hcanon, htext⟩ := toList_floatText m e
    have hletter : ∀ c ∈ (toString m').toList, (decide (c ≠ 'e')) = true := by
      intro c hc
      apply decide_eq_true
      rintro rfl
      rcases letters_int m' 'e' hc with hdigit | hsign
      · exact absurd hdigit (by decide)
      · exact absurd hsign (by decide)
    have hread : floatOfText (floatText (.finite m e)) = .finite m' e' := by
      unfold floatOfText
      rw [htext, List.takeWhile_append_of_pos hletter, List.dropWhile_append_of_pos hletter]
      simp only [decide_not, List.takeWhile_cons, List.dropWhile_cons, decide_true, Bool.not_true,
        Bool.false_eq_true, if_false, List.append_nil, List.drop_one, List.tail_cons,
        intOfLetters_toString]
    show (floatOfText (floatText (.finite m e))).canon = _
    rw [hread, ← hcanon, canon_canon]

end Shea.Analysis
