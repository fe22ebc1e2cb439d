import Shea.Analysis.JsonRoundTrip

/-!
# Values that JSON keeps

A column of JSON text gives back the value itself, not only its content: the entries of a dictionary
stand in the order they were written in. This holds of a value whose dictionaries have every key once, whose
integers are not too long to be written, and whose floats are what `float` makes of their `repr`.
-/

set_option autoImplicit false

namespace Shea.Analysis

open Shea.Computation Shea.Model

section Keeping

variable (py : Stdlib) (floatOf : String → PyFloat)

mutual

/-- The value is one that JSON keeps, or has an object in it that JSON does not know. -/
def JsonKept : Value → Prop
  | .int n => (Nat.toDigits 10 n.natAbs).length ≤ maxIntDigits
  | .float (.finite m e) => floatOf (py.floatRepr (.finite m e)) = .finite m e
  | .list items => JsonKeptItems items
  | .dict entries => (entries.map Prod.fst).Nodup ∧ JsonKeptEntries entries
  | .other _ _ written => written = .none
  | _ => True

def JsonKeptItems : List Value → Prop
  | [] => True
  | x :: xs => JsonKept x ∧ JsonKeptItems xs

def JsonKeptEntries : Dict → Prop
  | [] => True
  | (_, x) :: xs => JsonKept x ∧ JsonKeptEntries xs

end

variable {py floatOf}

/-- INTERNAL: a list is kept when each item is. -/
theorem jsonKeptItems_iff {items : List Value} :
    JsonKeptItems py floatOf items ↔ ∀ x ∈ items, JsonKept py floatOf x := by
  induction items with
  | nil => simp [JsonKeptItems]
  | cons x xs ih => simp [JsonKeptItems, ih]

/-- INTERNAL: a mapping is kept when each value is. -/
theorem jsonKeptEntries_iff {entries : Dict} :
    JsonKeptEntries py floatOf entries ↔ ∀ entry ∈ entries, JsonKept py floatOf entry.2 := by
  induction entries with
  | nil => simp [JsonKeptEntries]
  | cons entry entries ih => simp [JsonKeptEntries, ih]

mutual

/-- What is kept can be written, unless there is an object in it. -/
theorem exists_jsonLetters : ∀ v : Value, JsonKept py floatOf v → v.serializable = true →
    ∃ letters, jsonLetters py v = some letters
  | .none, _, _ => ⟨_, rfl⟩
  | .bool true, _, _ => ⟨_, rfl⟩
  | .bool false, _, _ => ⟨_, rfl⟩
  | .int n, h, _ => ⟨_, if_pos h⟩
  | .float (.finite _ _), _, _ => ⟨_, rfl⟩
  | .float .inf, _, _ => ⟨_, rfl⟩
  | .float .negInf, _, _ => ⟨_, rfl⟩
  | .float .nan, _, _ => ⟨_, rfl⟩
  | .str _, _, _ => ⟨_, rfl⟩
  | .list items, h, hserial => by
      obtain ⟨written, hwritten⟩ := exists_jsonItems items h hserial
      exact ⟨_, by rw [jsonLetters, hwritten]; rfl⟩
  | .dict entries, h, hserial => by
      obtain ⟨written, hwritten⟩ := exists_jsonEntries entries h.2 hserial
      exact ⟨_, by rw [jsonLetters, hwritten]; rfl⟩
  | .other _ _ .none, _, hserial => absurd hserial Bool.false_ne_true
  | .other _ _ (some _), h, _ => nomatch h

/-- INTERNAL: kept and serializable items can be written. -/
theorem exists_jsonItems : ∀ items : List Value, JsonKeptItems py floatOf items →
    Value.serializableList items = true → ∃ written, jsonItems py items = some written
  | [], _, _ => ⟨_, rfl⟩
  | x :: xs, h, hserial => by
      rw [Value.serializableList, Bool.and_eq_true] at hserial
      obtain ⟨first, hfirst⟩ := exists_jsonLetters x h.1 hserial.1
      obtain ⟨rest, hrest⟩ := exists_jsonItems xs h.2 hserial.2
      exact ⟨first :: rest, by rw [jsonItems, hfirst, hrest]; rfl⟩

/-- INTERNAL: and such entries. -/
theorem exists_jsonEntries : ∀ entries : Dict, JsonKeptEntries py floatOf entries →
    Value.serializableDict entries = true → ∃ written, jsonEntries py entries = some written
  | [], _, _ => ⟨_, rfl⟩
  | (key, x) :: xs, h, hserial => by
      rw [Value.serializableDict, Bool.and_eq_true] at hserial
      obtain ⟨first, hfirst⟩ := exists_jsonLetters x h.1 hserial.1
      obtain ⟨rest, hrest⟩ := exists_jsonEntries xs h.2 hserial.2
      exact ⟨_, by rw [jsonEntries, hfirst, hrest]; rfl⟩

end

mutual

/-- What JSON keeps is read back as it is. -/
theorem plain_of_jsonKept : ∀ v : Value, JsonKept py floatOf v → v.plain = true
  | .none, _ | .bool _, _ | .int _, _ | .float _, _ | .str _, _ => rfl
  | .list items, h => plainList_of_jsonKept items h
  | .dict entries, h => plainDict_of_jsonKept entries h.2
  | .other _ _ _, h => Option.isNone_iff_eq_none.mpr h

/-- INTERNAL: so are kept items. -/
theorem plainList_of_jsonKept :
    ∀ items : List Value, JsonKeptItems py floatOf items → Value.plainList items = true
  | [], _ => rfl
  | x :: xs, h => Bool.and_eq_true_iff.mpr ⟨plain_of_jsonKept x h.1, plainList_of_jsonKept xs h.2⟩

/-- INTERNAL: and kept entries. -/
theorem plainDict_of_jsonKept :
    ∀ entries : Dict, JsonKeptEntries py floatOf entries → Value.plainDict entries = true
  | [], _ => rfl
  | (_, x) :: xs, h => Bool.and_eq_true_iff.mpr ⟨plain_of_jsonKept x h.1, plainDict_of_jsonKept xs h.2⟩

end

mutual

/-- What is written has no object in it. -/
theorem serializable_of_jsonLetters : ∀ (v : Value) {letters : List Char}, jsonLetters py v = some letters →
    v.serializable = true
  | .none, _, _ => rfl
  | .bool _, _, _ => rfl
  | .int _, _, _ => rfl
  | .float _, _, _ => rfl
  | .str _, _, _ => rfl
  | .list items, _, h => by
      rw [jsonLetters] at h
      obtain ⟨written, hwritten, -⟩ := Option.map_eq_some_iff.mp h
      exact serializable_of_jsonItems items hwritten
  | .dict entries, _, h => by
      rw [jsonLetters] at h
      obtain ⟨written, hwritten, -⟩ := Option.map_eq_some_iff.mp h
      exact serializable_of_jsonEntries entries hwritten
  | .other _ _ .none, _, h => nomatch h
  | .other _ _ (some v), _, h => serializable_of_jsonLetters v h

/-- INTERNAL: items that are written are serializable. -/
theorem serializable_of_jsonItems : ∀ (items : List Value) {written : List (List Char)},
    jsonItems py items = some written → Value.serializableList items = true
  | [], _, _ => rfl
  | x :: xs, _, h => by
      obtain ⟨first, rest, hfirst, hrest, -⟩ := jsonItems_cons h
      rw [Value.serializableList, serializable_of_jsonLetters x hfirst, serializable_of_jsonItems xs hrest]
      rfl

/-- INTERNAL: and entries. -/
theorem serializable_of_jsonEntries : ∀ (entries : Dict) {written : List (List Char)},
    jsonEntries py entries = some written → Value.serializableDict entries = true
  | [], _, _ => rfl
  | (key, x) :: xs, _, h => by
      obtain ⟨first, rest, hfirst, hrest, -⟩ := jsonEntries_cons h
      rw [Value.serializableDict, serializable_of_jsonLetters x hfirst,
        serializable_of_jsonEntries xs hrest]
      rfl

end

end Keeping

/-! ## Reading them -/

section Reading

variable {py : Stdlib} {floatOf : String → PyFloat}

/-- The value itself is read from its letters, with what follows them left over. -/
structure ReadsItself (py : Stdlib) (floatOf : String → PyFloat) (v : Value) (letters : List Char) :
    Prop where
  begins : ∃ c rest, letters = c :: rest ∧ isJsonSpace c = false ∧ c ≠ ']' ∧ c ≠ '\uFEFF'
  scan : ∀ s fuel, Stops s → 2 * letters.length ≤ fuel →
    scanOnce floatOf fuel (letters ++ s) = some (v, s)

/-- INTERNAL: an infinity or a NaN is nothing but itself. -/
theorem eq_of_canon_special {x : PyFloat} (hx : ∀ m e, x ≠ .finite m e) {other : Value}
    (hdirect : other.Direct) (h : other.canon = (Value.float x).canon) : other = .float x := by
  have hspecial : x.canon = x := by
    cases x with
    | finite m e => exact absurd rfl (hx m e)
    | _ => rfl
  cases other with
  | float y =>
    have hy : y.canon = x := (Value.float.inj h).trans hspecial
    cases y with
    | finite m e =>
      obtain ⟨m', e', hfinite⟩ := PyFloat.canon_finite m e
      exact absurd (hy.symm.trans hfinite) (hx m' e')
    | _ => exact congrArg Value.float hy
  | other text traits written =>
    cases written with
    | none => cases h
    | some _ => exact hdirect.elim
  | _ => cases h

/-- The value is a word or an integer. -/
def IsWord : Value → Prop
  | .none => True
  | .bool _ => True
  | .int _ => True
  | _ => False

/-- INTERNAL: a word or an integer is the only value of its content that is written as it is. -/
theorem eq_of_canon_word {v other : Value} (hv : IsWord v) (hdirect : other.Direct)
    (h : other.canon = v.canon) : other = v := by
  have hcanon : v.canon = v := by cases v <;> first | exact hv.elim | rfl
  rw [hcanon] at h
  subst h
  cases other with
  | other text traits written =>
    cases written with
    | none => exact hv.elim
    | some _ => exact hdirect.elim
  | float x => exact hv.elim
  | list items => exact hv.elim
  | dict entries => exact hv.elim
  | str text => exact hv.elim
  | _ => rfl

/-- INTERNAL: a word or a number of which the content says everything. -/
theorem readsItself_of_canon (hfloat : FloatsReadBack py floatOf) {v : Value} (hkind : kind v = .bare)
    {letters : List Char} (h : jsonLetters py v = some letters)
    (hcanon : ∀ other : Value, other.Direct → other.canon = v.canon → other = v) :
    ReadsItself py floatOf v letters := by
  obtain ⟨⟨c, rest, rfl, hc⟩, hread⟩ := scanOnce_jsonLetters_bare hfloat hkind h
  obtain ⟨hspace, hclose, -, -, -, hmark⟩ := hc.plain
  refine ⟨⟨c, rest, rfl, hspace, hclose, hmark⟩, fun s fuel hs hfuel => ?_⟩
  obtain ⟨fuel, rfl⟩ := Nat.exists_eq_succ_of_ne_zero (n := fuel) (by rintro rfl; simp at hfuel)
  obtain ⟨other, hscan, hdirect, hother⟩ := hread s fuel hs
  rw [hscan, hcanon other hdirect hother]

/-- INTERNAL: a float that reads back as itself does so from its writing. -/
theorem readsItself_float (hfloat : FloatsReadBack py floatOf) {m e : ℤ}
    (h : floatOf (py.floatRepr (.finite m e)) = .finite m e) :
    ReadsItself py floatOf (.float (.finite m e)) (py.floatRepr (.finite m e)).toList := by
  have hstart := numberStart_float (hfloat.shape m e)
  obtain ⟨c, rest, hletters, hc⟩ := (hstart []).bare
  rw [List.append_nil] at hletters
  obtain ⟨hspace, hclose, -, -, -, hmark⟩ := hc.plain
  refine ⟨⟨c, rest, hletters, hspace, hclose, hmark⟩, fun s fuel hs hfuel => ?_⟩
  obtain ⟨fuel, rfl⟩ := Nat.exists_eq_succ_of_ne_zero (n := fuel) (by
    rintro rfl
    rw [hletters] at hfuel
    simp at hfuel)
  have hnumber : scanNumber floatOf ((py.floatRepr (.finite m e)).toList ++ s) = _ :=
    scanNumber_float (hfloat.shape m e) hs
  rw [String.ofList_toList, h, ← scanBare_number (hstart s)] at hnumber
  rw [← hnumber, hletters]
  exact scanOnce_bare hc

/-- INTERNAL: a text reads back from its quoted writing. -/
theorem readsItself_str (text : String) : ReadsItself py floatOf (.str text) (quote text).toList := by
  rw [toList_quote]
  refine ⟨⟨_, _, rfl, rfl, by decide, by decide⟩, fun s fuel _ hfuel => ?_⟩
  obtain ⟨fuel, rfl⟩ := Nat.exists_eq_succ_of_ne_zero (n := fuel) (by rintro rfl; simp at hfuel)
  have hlength := length_le_flatMap text.toList
  have hscan := scanString_quote text.toList s
    ((text.toList.flatMap escapeChar ++ '"' :: s).length + 1) (by
      simp only [List.length_append]
      omega)
  simp only [List.cons_append, List.append_assoc, List.nil_append]
  unfold scanOnce
  simp only [hscan, Option.bind_eq_bind, Option.bind_some, String.ofList_toList]
  rfl

/-- The items of a list are read one after the other, from any of them on. -/
theorem scanItems_itself {x : Value} {xs : List Value} {written : List (List Char)}
    (hread : ∀ y ∈ x :: xs, ∀ letters, jsonLetters py y = some letters → ReadsItself py floatOf y letters)
    (h : jsonItems py (x :: xs) = some written) (s : List Char) (fuel : ℕ)
    (hfuel : 2 * ([',', ' '].intercalate written).length < fuel) :
    scanItems floatOf fuel ([',', ' '].intercalate written ++ ']' :: s) = some (x :: xs, s) := by
  induction xs generalizing x written fuel with
  | nil =>
    obtain ⟨first, rest, hfirst, hrest, rfl⟩ := jsonItems_cons h
    obtain rfl := Option.some.inj hrest
    obtain ⟨fuel, rfl⟩ := Nat.exists_eq_succ_of_ne_zero (Nat.ne_of_gt (Nat.zero_lt_of_lt hfuel))
    have hscan := (hread x (List.mem_cons_self ..) first hfirst).scan (']' :: s) fuel
      (stops_of_head (c := ']') (by decide) rfl) (by simp at hfuel; omega)
    unfold scanItems
    simp only [List.intercalate_singleton, hscan, Option.bind_eq_bind, Option.bind_some]
    rfl
  | cons y ys ih =>
    obtain ⟨first, rest, hfirst, hrest, rfl⟩ := jsonItems_cons h
    obtain ⟨fuel, rfl⟩ := Nat.exists_eq_succ_of_ne_zero (Nat.ne_of_gt (Nat.zero_lt_of_lt hfuel))
    obtain ⟨second, others, hsecond, -, hparts⟩ := jsonItems_cons hrest
    -- the next item begins with no white space
    obtain ⟨c, tail, rfl, hspace, -⟩ :=
      (hread y (List.mem_cons_of_mem _ (List.mem_cons_self ..)) second hsecond).begins
    obtain ⟨more, hmore⟩ := head_intercalate c tail others
    rw [intercalate_cons (hparts ▸ List.cons_ne_nil _ _)] at hfuel ⊢
    simp only [List.length_append, List.length_cons] at hfuel
    have hscan := (hread x (List.mem_cons_self ..) first hfirst).scan
      (',' :: ' ' :: ([',', ' '].intercalate rest ++ ']' :: s)) fuel
      (stops_of_head (c := ',') (by decide) rfl) (by omega)
    have hitems := ih (fun z hz => hread z (List.mem_cons_of_mem _ hz)) hrest fuel (by omega)
    rw [hparts, hmore, List.cons_append] at hscan hitems
    rw [hparts, hmore]
    unfold scanItems
    simp only [List.append_assoc, List.cons_append, hscan, Option.bind_eq_bind, Option.bind_some,
      skipSpace_cons (c := ',') rfl, skipSpace_blank hspace, hitems]
    rfl

/-- The key of an entry and its value are read, and what comes after them is looked at. -/
theorem scanEntries_head_itself (key : String) {x : Value} {first : List Char} (next : Char)
    (s : List Char) (fuel : ℕ) (hread : ReadsItself py floatOf x first)
    (hstop : isBare next = false) (hspace : isJsonSpace next = false)
    (hfuel : 2 * first.length ≤ fuel) :
    (next = '\x7d' →
      scanEntries floatOf (fuel + 1) ((quote key).toList ++ ':' :: ' ' :: (first ++ next :: s)) =
        some ([(key, x)], s)) ∧
    (next = ',' →
      scanEntries floatOf (fuel + 1) ((quote key).toList ++ ':' :: ' ' :: (first ++ next :: s)) =
        (scanEntries floatOf fuel (skipSpace s)).map fun read => ((key, x) :: read.1, read.2)) := by
  obtain ⟨c, tail, rfl, hblank, -⟩ := hread.begins
  have hscan := hread.scan (next :: s) fuel (stops_of_head hstop rfl) hfuel
  have hkey := scanString_quote key.toList (':' :: ' ' :: (c :: tail ++ next :: s))
    ((key.toList.flatMap escapeChar ++ '"' :: ':' :: ' ' :: (c :: tail ++ next :: s)).length + 1) (by
      have hlength := length_le_flatMap key.toList
      simp only [List.length_append]
      omega)
  rw [toList_quote]
  simp only [List.cons_append, List.append_assoc, List.nil_append] at hkey hscan ⊢
  rw [scanEntries]
  simp only [hkey, Option.bind_eq_bind, Option.bind_some, skipSpace_cons (c := ':') rfl,
    skipSpace_blank hblank, hscan, skipSpace_cons hspace, String.ofList_toList]
  constructor
  · rintro rfl
    rfl
  · rintro rfl
    show (scanEntries floatOf fuel (skipSpace s)).bind _ = _
    cases scanEntries floatOf fuel (skipSpace s) <;> rfl

/-- The entries of a dictionary are read one after the other, from any of them on. -/
theorem scanEntries_itself {entry : String × Value} {entries : Dict} {written : List (List Char)}
    (hread : ∀ e ∈ entry :: entries, ∀ letters, jsonLetters py e.2 = some letters →
      ReadsItself py floatOf e.2 letters)
    (h : jsonEntries py (entry :: entries) = some written) (s : List Char) (fuel : ℕ)
    (hfuel : 2 * ([',', ' '].intercalate written).length < fuel) :
    scanEntries floatOf fuel ([',', ' '].intercalate written ++ '\x7d' :: s) =
      some (entry :: entries, s) := by
  induction entries generalizing entry written fuel with
  | nil =>
    obtain ⟨first, rest, hfirst, hrest, rfl⟩ := jsonEntries_cons h
    obtain rfl := Option.some.inj hrest
    obtain ⟨fuel, rfl⟩ := Nat.exists_eq_succ_of_ne_zero (Nat.ne_of_gt (Nat.zero_lt_of_lt hfuel))
    simp only [List.intercalate_singleton, List.length_append, List.length_cons] at hfuel
    have hlast := (scanEntries_head_itself entry.1 '\x7d' s fuel
      (hread entry (List.mem_cons_self ..) first hfirst) (by decide) rfl (by omega)).1 rfl
    rw [← hlast]
    simp
  | cons second entries ih =>
    obtain ⟨first, rest, hfirst, hrest, rfl⟩ := jsonEntries_cons h
    obtain ⟨fuel, rfl⟩ := Nat.exists_eq_succ_of_ne_zero (Nat.ne_of_gt (Nat.zero_lt_of_lt hfuel))
    obtain ⟨value, others, -, -, hparts⟩ := jsonEntries_cons hrest
    rw [intercalate_cons (hparts ▸ List.cons_ne_nil _ _)] at hfuel ⊢
    simp only [List.length_append, List.length_cons] at hfuel
    have hscan := (scanEntries_head_itself entry.1 ','
      (' ' :: ([',', ' '].intercalate rest ++ '\x7d' :: s)) fuel
      (hread entry (List.mem_cons_self ..) first hfirst) (by decide) rfl (by omega)).2 rfl
    have hothers := ih (fun e he => hread e (List.mem_cons_of_mem _ he)) hrest fuel (by omega)
    -- the next entry begins with a quotation mark
    have hskip : skipSpace (' ' :: ([',', ' '].intercalate rest ++ '\x7d' :: s)) =
        [',', ' '].intercalate rest ++ '\x7d' :: s := by
      obtain ⟨more, hmore⟩ := head_entries second.1 value others
      rw [hparts, hmore]
      exact skipSpace_blank rfl
    rw [hskip, hothers] at hscan
    simpa using hscan

/-- A value that JSON keeps is read itself. -/
theorem readsItself_of_jsonKept (hfloat : FloatsReadBack py floatOf) (v : Value) (hkept : JsonKept py floatOf v)
    {letters : List Char} (h : jsonLetters py v = some letters) : ReadsItself py floatOf v letters := by
  induction hsize : sizeOf v using Nat.strong_induction_on generalizing v letters with
  | _ size ih =>
  subst hsize
  cases v with
  | none => exact readsItself_of_canon hfloat rfl h fun other => eq_of_canon_word trivial
  | bool b => exact readsItself_of_canon hfloat rfl h fun other => eq_of_canon_word trivial
  | int n => exact readsItself_of_canon hfloat rfl h fun other => eq_of_canon_word trivial
  | float x =>
    cases x with
    | finite m e =>
      obtain rfl := Option.some.inj h
      exact readsItself_float hfloat hkept
    | _ =>
      exact readsItself_of_canon hfloat rfl h fun other hdirect hother =>
        eq_of_canon_special (by simp) hdirect hother
  | str text =>
    obtain rfl := Option.some.inj h
    exact readsItself_str text
  | other text traits written =>
    obtain rfl := hkept
    cases h
  | list items =>
    rw [jsonLetters] at h
    obtain ⟨written, hwritten, rfl⟩ := Option.map_eq_some_iff.mp h
    refine ⟨⟨_, _, rfl, rfl, by decide, by decide⟩, fun s fuel _ hfuel => ?_⟩
    simp only [List.length_cons, List.length_append, List.length_nil] at hfuel
    obtain ⟨fuel, rfl⟩ := Nat.exists_eq_succ_of_ne_zero (n := fuel) (by omega)
    have hitems : ∀ x ∈ items, ∀ letters, jsonLetters py x = some letters →
        ReadsItself py floatOf x letters := fun x hx letters hletters =>
      ih _ (sizeOf_lt_list hx) x (jsonKeptItems_iff.mp hkept x hx) hletters rfl
    cases items with
    | nil =>
      obtain rfl := Option.some.inj hwritten
      rfl
    | cons x xs =>
      obtain ⟨first, rest, hfirst, -, rfl⟩ := jsonItems_cons hwritten
      have hread := scanItems_itself hitems hwritten s fuel (by omega)
      obtain ⟨c, tail, rfl, hspace, hclose, -⟩ := (hitems x (List.mem_cons_self ..) first hfirst).begins
      obtain ⟨more, hmore⟩ := head_intercalate c tail rest
      rw [hmore] at hread ⊢
      rw [List.cons_append] at hread
      simp only [List.cons_append, List.append_assoc, List.nil_append]
      rw [scanOnce_list hspace hclose, hread]
      rfl
  | dict entries =>
    rw [jsonLetters] at h
    obtain ⟨written, hwritten, rfl⟩ := Option.map_eq_some_iff.mp h
    refine ⟨⟨_, _, rfl, rfl, by decide, by decide⟩, fun s fuel _ hfuel => ?_⟩
    simp only [List.length_cons, List.length_append, List.length_nil] at hfuel
    obtain ⟨fuel, rfl⟩ := Nat.exists_eq_succ_of_ne_zero (n := fuel) (by omega)
    have hvalues : ∀ entry ∈ entries, ∀ letters, jsonLetters py entry.2 = some letters →
        ReadsItself py floatOf entry.2 letters := fun entry hentry letters hletters =>
      ih _ (sizeOf_lt_dict hentry) entry.2 (jsonKeptEntries_iff.mp hkept.2 entry hentry) hletters rfl
    cases entries with
    | nil =>
      obtain rfl := Option.some.inj hwritten
      rfl
    | cons entry entries =>
      obtain ⟨first, rest, -, -, rfl⟩ := jsonEntries_cons hwritten
      have hread := scanEntries_itself hvalues hwritten s fuel (by omega)
      obtain ⟨more, hmore⟩ := head_entries entry.1 first rest
      rw [hmore] at hread ⊢
      rw [List.cons_append] at hread
      simp only [List.cons_append, List.append_assoc, List.nil_append]
      rw [scanOnce_dict, hread]
      exact congrArg (fun d => some (Value.dict d, s)) (update_of_nodup (d := []) hkept.1)

/-- What `json.dumps` writes of a value that JSON keeps is what `json.loads` makes the value of. -/
theorem jsonLoads_of_jsonKept (hfloat : FloatsReadBack py floatOf) {v : Value} (hkept : JsonKept py floatOf v)
    (hserial : v.serializable = true) :
    ∃ text, jsonDumps py v = some text ∧ jsonLoads floatOf text = some v := by
  obtain ⟨letters, hletters⟩ := exists_jsonLetters v hkept hserial
  have hread := readsItself_of_jsonKept hfloat v hkept hletters
  obtain ⟨c, rest, rfl, hspace, -, hmark⟩ := hread.begins
  refine ⟨String.ofList (c :: rest), by rw [jsonDumps, hletters]; rfl, ?_⟩
  have hnil : Stops [] := fun c hc => by cases hc
  have hscan := hread.scan [] (2 * (c :: rest).length + 1) hnil (by omega)
  rw [List.append_nil] at hscan
  unfold jsonLoads
  rw [String.toList_ofList]
  split
  · next heq => exact absurd (List.cons.inj heq).1 hmark
  · rw [skipSpace_cons hspace, hscan]
    rfl

end Reading

end Shea.Analysis
