import Shea.Model.JsonReader
import Shea.Model.ModelOutput
import Shea.Model.Sample

/-!
# What is extracted from the output of a model

The scan goes from one opening brace to the next. When it stands at one, no object decodes at any brace
before it, and the number of letters from there on goes down with each round. So it ends after at most as
many rounds as the text has letters, with the object at the first brace where one decodes, or without one.
-/

set_option autoImplicit false

namespace Shea.Analysis

open Shea.Model

/-! ## The next brace -/

/-- The letter is at the place. -/
def LetterAt (text : String) (letter : Char) (i : ℕ) : Prop := text.toList[i]? = some letter

/-- INTERNAL: what is found is the first place from `start` on with the letter.
SOURCE: model/model_compatible.py:28 -/
theorem findFrom_eq_some {text : String} {letter : Char} {start i : ℕ}
    (h : findFrom text letter start = some i) :
    start ≤ i ∧ i < text.length ∧ LetterAt text letter i ∧
      ∀ j, start ≤ j → j < i → ¬ LetterAt text letter j := by
  obtain ⟨k, hk, rfl⟩ := Option.map_eq_some_iff.mp h
  obtain ⟨hinside, hletter, hbefore⟩ := List.findIdx?_eq_some_iff_getElem.mp hk
  have hplace : LetterAt text letter (start + k) := by
    unfold LetterAt
    rw [← List.getElem?_drop, List.getElem?_eq_getElem hinside]
    exact congrArg some (of_decide_eq_true hletter)
  have hlt : k < text.length - start := by
    rw [← String.length_toList, ← List.length_drop]
    exact hinside
  refine ⟨Nat.le_add_right start k, by omega, hplace, fun j hstart hj hletterAt => ?_⟩
  obtain ⟨m, rfl⟩ := Nat.exists_eq_add_of_le hstart
  have hm : m < k := by omega
  refine hbefore m hm (decide_eq_true ?_)
  unfold LetterAt at hletterAt
  rw [← List.getElem?_drop, List.getElem?_eq_getElem (Nat.lt_trans hm hinside)] at hletterAt
  exact Option.some.inj hletterAt

/-- INTERNAL: nothing is found when no place from `start` on has the letter.
SOURCE: model/model_compatible.py:28 -/
theorem findFrom_eq_none {text : String} {letter : Char} {start : ℕ}
    (h : findFrom text letter start = none) : ∀ j, start ≤ j → ¬ LetterAt text letter j := by
  intro j hstart hletter
  obtain ⟨m, rfl⟩ := Nat.exists_eq_add_of_le hstart
  unfold LetterAt at hletter
  rw [← List.getElem?_drop] at hletter
  have hnot := List.findIdx?_eq_none_iff.mp (Option.map_eq_none_iff.mp h) letter
    (List.mem_of_getElem? hletter)
  simp at hnot

/-! ## The scan -/

/-- What the scan relies on: a prefix decoder returns a value or reports that there is none, and what
begins with a brace is an object. -/
structure PrefixDecoder (rawDecode : String → ℕ → RawDecode) : Prop where
  decides : ∀ text i, (∃ value stop, rawDecode text i = .parsed value stop) ∨
    rawDecode text i = .jsonDecodeError
  object_of_brace : ∀ text i value stop, LetterAt text '\x7b' i → rawDecode text i = .parsed value stop →
    ∃ entries, value = .dict entries

section Scan

variable (rawDecode : String → ℕ → RawDecode) (text : String)

/-- An object decodes at the brace. -/
def ObjectAt (i : ℕ) (entries : Dict) (stop : ℕ) : Prop :=
  LetterAt text '\x7b' i ∧ rawDecode text i = .parsed (.dict entries) stop

/-- It is the first brace where an object decodes. -/
def FirstObject (found : Dict × ℕ × ℕ) : Prop :=
  ObjectAt rawDecode text found.2.1 found.1 found.2.2 ∧
    ∀ j, j < found.2.1 → ∀ entries stop, ¬ ObjectAt rawDecode text j entries stop

/-- What there is to be found. -/
def Extracts : Option (Dict × ℕ × ℕ) → Prop
  | some found => FirstObject rawDecode text found
  | none => ∀ i entries stop, ¬ ObjectAt rawDecode text i entries stop

variable {rawDecode text}

/-- INTERNAL: the invariant of the scan, that no object decodes before the place where it goes on. Fuel
for the letters from there on is enough.
SOURCE: model/model_compatible.py:28-38 -/
theorem scanForObject_extracts (h : PrefixDecoder rawDecode) {fuel start : ℕ}
    (hfuel : text.length < start + fuel)
    (hbefore : ∀ j, j < start → ∀ entries stop, ¬ ObjectAt rawDecode text j entries stop) :
    ∃ answer, scanForObject rawDecode text fuel (findFrom text '\x7b' start) = some (.ok answer) ∧
      Extracts rawDecode text answer := by
  induction fuel generalizing start with
  | zero =>
    cases hfind : findFrom text '\x7b' start with
    | some i =>
      obtain ⟨hstart, hlt, -, -⟩ := findFrom_eq_some hfind
      omega
    | none =>
      refine ⟨none, rfl, fun i entries stop hobject => ?_⟩
      rcases Nat.lt_or_ge i start with hi | hi
      · exact hbefore i hi entries stop hobject
      · exact findFrom_eq_none hfind i hi hobject.1
  | succ fuel ih =>
    cases hfind : findFrom text '\x7b' start with
    | none =>
      refine ⟨none, rfl, fun i entries stop hobject => ?_⟩
      rcases Nat.lt_or_ge i start with hi | hi
      · exact hbefore i hi entries stop hobject
      · exact findFrom_eq_none hfind i hi hobject.1
    | some index =>
      obtain ⟨hstart, hlt, hbrace, hnone⟩ := findFrom_eq_some hfind
      have hearlier : ∀ j, j < index → ∀ entries stop, ¬ ObjectAt rawDecode text j entries stop := by
        intro j hj entries stop hobject
        rcases Nat.lt_or_ge j start with hjstart | hjstart
        · exact hbefore j hjstart entries stop hobject
        · exact hnone j hjstart hj hobject.1
      rcases h.decides text index with ⟨value, stop, hdecode⟩ | hdecode
      · obtain ⟨entries, rfl⟩ := h.object_of_brace text index value stop hbrace hdecode
        refine ⟨some (entries, index, stop), ?_, ⟨hbrace, hdecode⟩, hearlier⟩
        simp only [scanForObject, hdecode]
      · have hnext : ∀ j, j < index + 1 → ∀ entries stop, ¬ ObjectAt rawDecode text j entries stop := by
          intro j hj entries stop hobject
          rcases Nat.lt_succ_iff_lt_or_eq.mp hj with hj | rfl
          · exact hearlier j hj entries stop hobject
          · exact RawDecode.noConfusion (hdecode.symm.trans hobject.2)
        obtain ⟨answer, hscan, hanswer⟩ := ih (by omega) hnext
        refine ⟨answer, ?_, hanswer⟩
        simp only [scanForObject, hdecode]
        exact hscan

/-- INTERNAL: there is one first object at most. -/
theorem firstObject_unique {found other : Dict × ℕ × ℕ} (hfound : FirstObject rawDecode text found)
    (hother : FirstObject rawDecode text other) : found = other := by
  obtain ⟨entries, i, stop⟩ := found
  obtain ⟨entries', j, stop'⟩ := other
  obtain rfl : i = j := by
    rcases Nat.lt_trichotomy i j with hlt | heq | hlt
    · exact absurd hfound.1 (hother.2 i hlt entries stop)
    · exact heq
    · exact absurd hother.1 (hfound.2 j hlt entries' stop')
  have hdecode := hfound.1.2.symm.trans hother.1.2
  cases hdecode
  rfl

end Scan

/-- The scan ends, within as many rounds as the text has letters and one more. It returns the object that
decodes at the first brace where one does, and none just when nothing decodes at any brace.
SOURCE: model/model_compatible.py:18-38 -/
theorem extractJsonObject_first {rawDecode : String → ℕ → RawDecode} (h : PrefixDecoder rawDecode)
    (text : String) {fuel : ℕ} (hfuel : text.length < fuel) :
    ∃ answer, extractJsonObject rawDecode text fuel = some (.ok answer) ∧
      (∀ found, answer = some found ↔ FirstObject rawDecode text found) ∧
      (answer = none ↔ ∀ i, LetterAt text '\x7b' i → rawDecode text i = .jsonDecodeError) := by
  obtain ⟨answer, hscan, hanswer⟩ := scanForObject_extracts h ((Nat.zero_add fuel).symm ▸ hfuel)
    fun j hj => absurd hj (Nat.not_lt_zero j)
  refine ⟨answer, hscan, fun found => ⟨?_, fun hfound => ?_⟩, fun hnone i hbrace => ?_, fun hnone => ?_⟩
  · rintro rfl
    exact hanswer
  · cases answer with
    | none => exact absurd hfound.1 (hanswer _ _ _)
    | some other => exact congrArg some (firstObject_unique hanswer hfound)
  · subst hnone
    rcases h.decides text i with ⟨value, stop, hdecode⟩ | hdecode
    · obtain ⟨entries, rfl⟩ := h.object_of_brace text i value stop hbrace hdecode
      exact absurd ⟨hbrace, hdecode⟩ (hanswer i entries stop)
    · exact hdecode
  · cases answer with
    | none => rfl
    | some found =>
      exact RawDecode.noConfusion ((hnone _ hanswer.1.1).symm.trans hanswer.1.2)

/-- The reader of `json.loads` as a prefix decoder. -/
def readerDecode (text : String) (index : ℕ) : RawDecode :=
  let rest := text.toList.drop index
  match scanOnce (fun _ => .nan) (2 * rest.length + 1) rest with
  | some (value, left) => .parsed value (text.length - left.length)
  | none => .jsonDecodeError

/-- INTERNAL: the reader of the sample decodes prefixes. -/
theorem prefixDecoder_reader : PrefixDecoder readerDecode where
  decides text i := by
    unfold readerDecode
    dsimp only
    split
    · exact .inl ⟨_, _, rfl⟩
    · exact .inr rfl
  object_of_brace text i value stop hbrace hdecode := by
    obtain ⟨rest, hrest⟩ : ∃ rest, text.toList.drop i = '\x7b' :: rest := by
      obtain ⟨hi, hletter⟩ := List.getElem?_eq_some_iff.mp hbrace
      exact ⟨_, hletter ▸ List.drop_eq_getElem_cons hi⟩
    unfold readerDecode at hdecode
    rw [hrest] at hdecode
    dsimp only at hdecode
    split at hdecode
    · next value' left hscan =>
      cases hdecode
      rw [scanOnce] at hscan
      split at hscan
      · next hempty => exact ⟨[], by cases hscan; rfl⟩
      · next hentries =>
        obtain ⟨⟨entries, s⟩, -, hvalue⟩ := Option.bind_eq_some_iff.mp hscan
        cases hvalue
        exact ⟨_, rfl⟩
    · cases hdecode

/-- An object in a code fence, after a set in braces. -/
def fencedText : String := "In \x7bA\x7d: ```\x7b\"b\": 1\x7d```"

/-- The object of a fenced answer is extracted. -/
theorem fenced_object_extracted :
    FirstObject readerDecode fencedText ([("b", .int 1)], 11, 19) := by
  have hlength : fencedText.length < 23 := by decide
  obtain ⟨answer, hanswer, hfound, -⟩ := extractJsonObject_first prefixDecoder_reader fencedText hlength
  have hset : findFrom fencedText '\x7b' 0 = some 3 ∧ readerDecode fencedText 3 = .jsonDecodeError := by decide
  have hobject : findFrom fencedText '\x7b' 4 = some 11 ∧
      readerDecode fencedText 11 = .parsed (.dict [("b", .int 1)]) 19 := by decide +kernel
  simp only [extractJsonObject, scanForObject, hset.1, hset.2, hobject.1, hobject.2] at hanswer
  exact (hfound _).mp (Except.ok.inj (Option.some.inj hanswer)).symm

end Shea.Analysis
