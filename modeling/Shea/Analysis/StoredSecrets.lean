import Shea.Analysis.RedactionCache

/-!
# Stored secrets in a text

`CredentialService.redact` goes through a text from the left and writes a marker wherever a stored secret
begins, the first one in the order of the vault, and goes on behind it. A secret that is the beginning of
another one, and comes before it, leaves the rest of it in the text; so does a secret that overlaps
another one.

So the text is masked in full exactly when the secrets, laid end to end from the beginning of each
stretch of letters that belong to secrets, come to the end of the stretch. And there may be a stored
secret that has letters of the marker in it, so that the markers spell it.
-/

set_option autoImplicit false

namespace Shea.Analysis

open Shea.Computation Shea.Model

/-- The stored secrets of eight letters and more, in the order of the vault. -/
def storedSecrets (w : CredentialWorld) : List (List Char) := (freshPattern w).map String.toList

/-- What `redact` writes for each letter of a text: the letter, the marker where a secret begins, or
nothing. -/
def writtenPieces (w : CredentialWorld) (text : String) : List (List Char) :=
  (List.range text.toList.length).map
    (written (firstOf (storedSecrets w)) redactedCredential.toList text.toList)

section Pieces

variable (w : CredentialWorld) (text : String)

/-- The marker is longer than a letter. -/
theorem redactedCredential_ne_letter (c : Char) : redactedCredential.toList ≠ [c] := by
  intro h
  have hlength : redactedCredential.toList.length = 1 := congrArg List.length h
  exact absurd hlength (by decide)

/-- INTERNAL: the marker is not the empty text. -/
theorem redactedCredential_ne_nil : redactedCredential.toList ≠ [] := by decide

/-- INTERNAL: the secrets that are masked are not empty. -/
theorem storedSecrets_ne_nil : ∀ secret ∈ storedSecrets w, secret ≠ [] := by
  intro letters hletters hnil
  obtain ⟨secret, hsecret, rfl⟩ := List.mem_map.mp hletters
  obtain ⟨metadata, -, hmem⟩ := List.mem_flatMap.mp hsecret
  have hmasked : toBeMasked secret = true := by
    unfold maskedSecret at hmem
    exact (Option.filter_eq_some_iff.mp (Option.mem_toList.mp hmem)).2
  have hlength : 8 ≤ secret.length := of_decide_eq_true hmasked
  rw [← String.length_toList, hnil] at hlength
  exact absurd hlength (by decide)

/-- The result is made of these pieces.
SOURCE: credentials/service.py:101-109 -/
theorem redact_writtenPieces :
    ((CredentialService.redact {} text).run { w with pattern := none }).1 =
      .ok (String.ofList (writtenPieces w text).flatten) := by
  rw [redact_run]
  show Except.ok (substitute (freshPattern w) text) = _
  unfold substitute writtenPieces storedSecrets
  rw [mask_eq_written, List.flatMap_def]

end Pieces

/-! ## Masked in full -/

/-- No letter of a stored secret is written, and there is no stored secret in the result. -/
structure MaskedInFull (w : CredentialWorld) (text result : String) : Prop where
  removed : ∀ i c, Covers (storedSecrets w) text.toList i → text.toList[i]? = some c →
    (writtenPieces w text)[i]? ≠ some [c]
  gone : ∀ secret ∈ storedSecrets w, ¬ secret <:+: result.toList

/-- The stored secrets, laid end to end, never come to a letter of a secret at which none begins. -/
def LaysOut (w : CredentialWorld) (text : String) : Prop :=
  ∀ p, Laid (storedSecrets w) text.toList p → Covers (storedSecrets w) text.toList p →
    ∃ secret ∈ storedSecrets w, secret <+: text.toList.drop p

/-- Where the laid secrets are read as the marker, one reads no stored secret that has a letter of the
marker in it. -/
def SpellsNone (w : CredentialWorld) (text : String) : Prop :=
  ∀ secret ∈ storedSecrets w, ¬ NoCommonLetter secret redactedCredential.toList →
    ∀ reading, Reads (storedSecrets w) redactedCredential.toList text.toList 0 reading →
      ¬ secret <:+: reading

section Full

variable (w : CredentialWorld) (text : String)

/-- INTERNAL: a letter is written if and only if the scanner keeps it. -/
theorem writtenPieces_eq_letter_iff {i : ℕ} {c : Char} (hc : text.toList[i]? = some c) :
    (writtenPieces w text)[i]? = some [c] ↔ Kept (firstOf (storedSecrets w)) text.toList i := by
  obtain ⟨hlt, rfl⟩ := List.getElem?_eq_some_iff.mp hc
  rw [← written_eq_letter_iff hlt (redactedCredential_ne_letter _)]
  unfold writtenPieces
  rw [List.getElem?_map, List.getElem?_range hlt, Option.map_some, Option.some.injEq]

/-- INTERNAL: no letter of a secret is written if and only if the secrets can be laid out. -/
theorem removed_iff_laysOut :
    (∀ i c, Covers (storedSecrets w) text.toList i → text.toList[i]? = some c →
      (writtenPieces w text)[i]? ≠ some [c]) ↔ LaysOut w text := by
  unfold LaysOut
  rw [← none_kept_iff_laid (storedSecrets_ne_nil w)]
  constructor
  · intro hremoved i hcovers hkept
    have hc := List.getElem?_eq_getElem (lt_length_of_covers hcovers)
    exact hremoved i _ hcovers hc ((writtenPieces_eq_letter_iff w text hc).mpr hkept)
  · intro hnone i c hcovers hc hpiece
    exact hnone i hcovers ((writtenPieces_eq_letter_iff w text hc).mp hpiece)

/-- A text is masked in full if and only if the stored secrets in it can be laid end to end, and the
markers spell no stored secret.
SOURCE: credentials/service.py:32-54, credentials/service.py:101-109 -/
theorem masked_in_full_iff :
    ∃ result, ((CredentialService.redact {} text).run { w with pattern := none }).1 = .ok result ∧
      (MaskedInFull w text result ↔ LaysOut w text ∧ SpellsNone w text) := by
  refine ⟨_, redact_writtenPieces w text, ?_⟩
  have hresult : (String.ofList (writtenPieces w text).flatten).toList =
      mask (firstOf (storedSecrets w)) redactedCredential.toList 0 text.toList := by
    unfold writtenPieces
    rw [String.toList_ofList, mask_eq_written, List.flatMap_def]
  constructor
  · rintro ⟨hremoved, hgone⟩
    refine ⟨(removed_iff_laysOut w text).mp hremoved, fun secret hsecret _ reading hreads hinside => ?_⟩
    have hbegins := prefix_mask_of_reads (storedSecrets_ne_nil w) hreads rfl
    rw [List.drop_zero, ← hresult] at hbegins
    exact hgone secret hsecret (hinside.trans hbegins.isInfix)
  · rintro ⟨hlays, hspells⟩
    refine ⟨(removed_iff_laysOut w text).mpr hlays, fun secret hsecret hinside => ?_⟩
    rw [hresult] at hinside
    -- a secret apart from the marker would have to be in the text, where it is masked
    by_cases hapart : NoCommonLetter secret redactedCredential.toList
    · exact not_infix_mask (storedSecrets_ne_nil w) redactedCredential_ne_nil hsecret hapart _ hinside
    · exact hspells secret hsecret hapart _ (reads_mask (storedSecrets_ne_nil w) hlays rfl) hinside

end Full

/-- A vault with two secrets, in this order. -/
def twoSecrets (first second : String) : CredentialWorld :=
  { credentials := [
      { id := "a", profileId := "system", name := "first", description := none, allowedTools := [],
        createdAt := 0 },
      { id := "b", profileId := "system", name := "second", description := none, allowedTools := [],
        createdAt := 0 }]
    secrets := [("a", first), ("b", second)] }

/-- What comes behind the marker is left of a longer secret, of one that overlaps the first, or spelled
by the marker. -/
theorem longer_secret_left :
    ((CredentialService.redact {} "password1234").run (twoSecrets "password" "password1234")).1 =
      .ok "[REDACTED_CREDENTIAL]1234" ∧
    (∀ result, ¬ MaskedInFull (twoSecrets "password" "password1234") "password1234" result) ∧
    ((CredentialService.redact {} "password-one").run (twoSecrets "password" "word-one")).1 =
      .ok "[REDACTED_CREDENTIAL]-one" ∧
    ((CredentialService.redact {} "password").run (twoSecrets "password" "REDACTED")).1 =
      .ok "[REDACTED_CREDENTIAL]" := by
  refine ⟨?_, fun result hfull => ?_, ?_, ?_⟩
  · rw [redact_run]
    exact congrArg Except.ok (by decide)
  · have hcovers : Covers (storedSecrets (twoSecrets "password" "password1234"))
        "password1234".toList 11 := ⟨0, "password1234".toList, by decide, by decide, by decide, by decide⟩
    exact hfull.removed 11 '4' hcovers (by decide) (by decide)
  · rw [redact_run]
    exact congrArg Except.ok (by decide)
  · rw [redact_run]
    exact congrArg Except.ok (by decide)

end Shea.Analysis
