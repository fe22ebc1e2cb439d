import Mathlib.Data.Finset.Basic
import Shea.Computation.Masking
import Shea.Model.Metadata
import Shea.Model.Sample

/-!
# Secrets in recorded metadata

The recorder redacts the texts in metadata, and those in lists and dictionaries, to any depth. What it
comes to is free of the exact secrets: replacing one secret cuts parts out of a text, and so do the
replacements after it, so nothing brings a secret back that shares no letter with the marker.

Keys, what is in a tuple, and elements that are not texts are written as they are.
-/

set_option autoImplicit false

namespace Shea.Analysis

open Shea.Computation Shea.Model

/-! ## One text -/

/-- A secret that is not empty and has no letter of the marker. -/
structure ExactSecret (secret : String) : Prop where
  ne_empty : secret ≠ ""
  apart : NoCommonLetter secret.toList redactedText.toList

/-- `pattern.sub` with the marker, which is a plain replacement, cuts parts out of a text. -/
def SubstitutesMarker (py : Stdlib) : Prop :=
  ∀ pattern text, Cut redactedText.toList text.toList (py.reSub pattern redactedText text).toList

/-- The secret is somewhere in the text. -/
def Contains (text secret : String) : Prop := secret.toList <:+: text.toList

section Text

variable {secret : String}

/-- INTERNAL: an exact secret is not the empty text. -/
theorem ExactSecret.toList_ne_nil (h : ExactSecret secret) : secret.toList ≠ [] :=
  fun hnil => h.ne_empty (String.toList_eq_nil_iff.mp hnil)

/-- INTERNAL: nor is the marker. -/
theorem redactedText_ne_nil : redactedText.toList ≠ [] := by decide

/-- INTERNAL: a secret is in what is left of a text only if it is in the text. -/
theorem contains_of_cut (h : ExactSecret secret) {text left : String}
    (hcut : Cut redactedText.toList text.toList left.toList) (hleft : Contains left secret) :
    Contains text secret :=
  hcut.infix_of_apart redactedText_ne_nil h.toList_ne_nil h.apart hleft

/-- INTERNAL: replacements one after the other do not bring a secret back. -/
theorem not_contains_foldl {β : Type} (h : ExactSecret secret) {step : String → β → String}
    (hstep : ∀ text x, Cut redactedText.toList text.toList (step text x).toList) (xs : List β)
    {text : String} (htext : ¬ Contains text secret) : ¬ Contains (xs.foldl step text) secret := by
  induction xs generalizing text with
  | nil => exact htext
  | cons x xs ih => exact ih fun hcontains => htext (contains_of_cut h (hstep text x) hcontains)

/-- INTERNAL: the replacement of one exact secret. -/
def replaceSecret (text secret : String) : String :=
  if secret = "" then text else text.replace secret redactedText

/-- INTERNAL: the replacement of an exact secret cuts parts out. -/
theorem cut_replaceSecret (text secret : String) :
    Cut redactedText.toList text.toList (replaceSecret text secret).toList := by
  unfold replaceSecret
  split
  · exact .refl _ _
  · next hne =>
    rw [toList_replace hne]
    exact cut_mask _

/-- INTERNAL: a secret that is replaced is gone. -/
theorem not_contains_replaceSecret (h : ExactSecret secret) (text : String) :
    ¬ Contains (replaceSecret text secret) secret := by
  unfold replaceSecret Contains
  rw [if_neg h.ne_empty, toList_replace h.ne_empty]
  have hwords : ∀ word ∈ [secret.toList], word ≠ [] := by
    intro word hword
    rw [List.mem_singleton.mp hword]
    exact h.toList_ne_nil
  exact not_infix_mask hwords redactedText_ne_nil (List.mem_singleton_self _) h.apart _

/-- INTERNAL: after all replacements no secret is left. -/
theorem not_contains_replaceSecrets {secrets : List String} (h : ExactSecret secret)
    (hmem : secret ∈ secrets) (text : String) :
    ¬ Contains (secrets.foldl replaceSecret text) secret := by
  induction secrets generalizing text with
  | nil => cases hmem
  | cons first secrets ih =>
    rcases List.mem_cons.mp hmem with rfl | hmem
    · exact not_contains_foldl h cut_replaceSecret secrets (not_contains_replaceSecret h text)
    · exact ih hmem _

/-- A redacted text contains none of the exact secrets.
SOURCE: security/secrets.py:38-45 -/
theorem not_contains_redact {py : Stdlib} (hpy : SubstitutesMarker py) {redactor : SecretRedactor}
    (h : ExactSecret secret) (hmem : secret ∈ redactor.exactSecrets) (text : String) :
    ¬ Contains (redactor.redact py text) secret :=
  not_contains_foldl h (fun text pattern => hpy pattern text) redactor.patterns
    (not_contains_replaceSecrets h hmem text)

end Text

end Shea.Analysis

namespace Shea.Model

/-! ## What the walk comes to -/

namespace MetadataValue

mutual

/-- The texts that redaction comes to. -/
def reached : MetadataValue → List String
  | .str text => [text]
  | .list items => reachedItems items
  | .dict entries => reachedEntries entries
  | _ => []

def reachedItems : List MetadataValue → List String
  | [] => []
  | item :: items => item.reached ++ reachedItems items

def reachedEntries : MetadataMapping → List String
  | [] => []
  | (_, value) :: rest => value.reached ++ reachedEntries rest

end

section PassedOver

variable (py : Stdlib)

mutual

/-- What is written as it is: keys, all that is in a tuple, and elements that are not texts. -/
def passedOver : MetadataValue → List String
  | .str _ => []
  | .list items => passedOverItems items
  | .dict entries => passedOverEntries entries
  | value => (value.written py).writtenTexts py

def passedOverItems : List MetadataValue → List String
  | [] => []
  | item :: items => item.passedOver ++ passedOverItems items

def passedOverEntries : MetadataMapping → List String
  | [] => []
  | (key, value) :: rest => key.written py :: value.passedOver ++ passedOverEntries rest

end

end PassedOver

end MetadataValue

end Shea.Model

namespace Shea.Analysis

open Shea.Computation Shea.Model

section Walk

variable (py : Stdlib) (redactor : SecretRedactor)

/-- One of the texts is the text of a redaction. -/
def AmongRedacted (texts : List String) (text : String) : Prop :=
  ∃ original ∈ texts, text = redactor.redact py original

/-- INTERNAL: a text is among the redacted ones of either list. -/
theorem amongRedacted_append (texts others : List String) (text : String) :
    AmongRedacted py redactor (texts ++ others) text ↔
      AmongRedacted py redactor texts text ∨ AmongRedacted py redactor others text := by
  unfold AmongRedacted
  simp only [List.mem_append, or_and_right, exists_or]

/-- INTERNAL: no text is among none. -/
theorem not_amongRedacted_nil (text : String) : ¬ AmongRedacted py redactor [] text := by
  simp [AmongRedacted]

mutual

/-- What is written of a redacted value: what is passed over, and what comes of the texts reached.
SOURCE: security/secrets.py:47-59 -/
theorem mem_writtenTexts_redactValue (value : MetadataValue) (text : String) :
    text ∈ ((redactor.redactValue py value).written py).writtenTexts py ↔
      text ∈ value.passedOver py ∨ AmongRedacted py redactor value.reached text := by
  cases value with
  | str s =>
    simp [SecretRedactor.redactValue, MetadataValue.written, Value.writtenTexts,
      MetadataValue.passedOver, MetadataValue.reached, AmongRedacted]
  | list items => exact mem_writtenTexts_redactItems items text
  | dict entries => exact mem_writtenTexts_redactEntries entries text
  | _ =>
    rw [SecretRedactor.redactValue, MetadataValue.passedOver, MetadataValue.reached]
    · simp [not_amongRedacted_nil]
    all_goals simp

/-- INTERNAL: the same over the items of a list. -/
theorem mem_writtenTexts_redactItems (items : List MetadataValue) (text : String) :
    text ∈ Value.writtenTextsItems py
        (MetadataValue.writtenItems py (redactor.redactItems py items)) ↔
      text ∈ MetadataValue.passedOverItems py items ∨
        AmongRedacted py redactor (MetadataValue.reachedItems items) text := by
  cases items with
  | nil => simp [SecretRedactor.redactItems, MetadataValue.writtenItems, Value.writtenTextsItems,
      MetadataValue.passedOverItems, MetadataValue.reachedItems, not_amongRedacted_nil]
  | cons item items =>
    have hitem := mem_writtenTexts_redactValue item text
    have hitems := mem_writtenTexts_redactItems items text
    rw [SecretRedactor.redactItems, MetadataValue.writtenItems, Value.writtenTextsItems,
      MetadataValue.passedOverItems, MetadataValue.reachedItems, List.mem_append, List.mem_append,
      amongRedacted_append, hitem, hitems, or_or_or_comm]

/-- INTERNAL: and over the entries of a mapping. -/
theorem mem_writtenTexts_redactEntries (entries : MetadataMapping) (text : String) :
    text ∈ Value.writtenTextsEntries py
        (MetadataValue.writtenEntries py (redactor.redactMapping py entries)) ↔
      text ∈ MetadataValue.passedOverEntries py entries ∨
        AmongRedacted py redactor (MetadataValue.reachedEntries entries) text := by
  cases entries with
  | nil => simp [SecretRedactor.redactMapping, MetadataValue.writtenEntries,
      Value.writtenTextsEntries, MetadataValue.passedOverEntries, MetadataValue.reachedEntries,
      not_amongRedacted_nil]
  | cons entry rest =>
    obtain ⟨key, value⟩ := entry
    have hvalue := mem_writtenTexts_redactValue value text
    have hrest := mem_writtenTexts_redactEntries rest text
    rw [SecretRedactor.redactMapping, MetadataValue.writtenEntries, Value.writtenTextsEntries,
      MetadataValue.passedOverEntries, MetadataValue.reachedEntries, List.mem_append, List.mem_append,
      List.mem_cons, List.mem_cons, amongRedacted_append, hvalue, hrest]
    grind

end

end Walk

/-! ## Metadata -/

/-- None of the redactor's exact secrets is in one of the texts. -/
def FreeOfSecrets (redactor : SecretRedactor) (texts : List String) : Prop :=
  ∀ secret ∈ redactor.exactSecrets, ∀ text ∈ texts, ¬ Contains text secret

/-- What the sink writes for metadata that the recorder redacts. -/
def recordedTexts (py : Stdlib) (redactor : SecretRedactor) (metadata : MetadataMapping) : List String :=
  Value.writtenTextsEntries py
    (MetadataValue.writtenEntries py (safeMetadata py (some redactor) (some metadata)))

/-- Recorded metadata is free of the exact secrets if and only if the keys, the tuples and the elements
that are not texts are free of them.
SOURCE: security/secrets.py:38-59, audit/recorder.py:40-42 -/
theorem recorded_free_iff (py : Stdlib) (redactor : SecretRedactor) (metadata : MetadataMapping)
    (hpy : SubstitutesMarker py)
    (hsecrets : ∀ secret ∈ redactor.exactSecrets, ExactSecret secret) :
    FreeOfSecrets redactor (recordedTexts py redactor metadata) ↔
      FreeOfSecrets redactor (MetadataValue.passedOverEntries py metadata) := by
  have hmem := mem_writtenTexts_redactEntries py redactor metadata
  constructor
  · intro hfree secret hsecret text htext
    exact hfree secret hsecret text ((hmem text).mpr (.inl htext))
  · intro hfree secret hsecret text htext
    rcases (hmem text).mp htext with hpassed | ⟨original, -, rfl⟩
    · exact hfree secret hsecret text hpassed
    · exact not_contains_redact hpy (hsecrets secret hsecret) hsecret original

/-- INTERNAL: a library that replaces nothing satisfies the assumption on `re.sub`. -/
theorem substitutesMarker_plain : SubstitutesMarker .plain := fun _ text => .refl _ text.toList

/-- A redactor of one password. -/
def passwordRedactor : SecretRedactor := { exactSecrets := ["hunter2"] }

/-- INTERNAL: the password is an exact secret. -/
theorem exactSecret_password : ∀ secret ∈ passwordRedactor.exactSecrets, ExactSecret secret := by
  intro secret hsecret
  obtain rfl := List.mem_singleton.mp hsecret
  exact ⟨by decide, by simp [NoCommonLetter, redactedText]⟩

/-- The password in a list in a dictionary does not come to the sink. -/
theorem nested_password_free :
    FreeOfSecrets passwordRedactor (recordedTexts .plain passwordRedactor
      [(.str "notes", .list [.dict [(.str "text", .str "hunter2")], .bool true])]) :=
  (recorded_free_iff .plain passwordRedactor _ substitutesMarker_plain exactSecret_password).mpr
    (by unfold FreeOfSecrets Contains; decide)

/-- The password in a tuple. -/
def tupleMetadata : MetadataMapping := [(.str "notes", .tuple [.str "hunter2"])]

/-- The password as a key. -/
def keyMetadata : MetadataMapping := [(.str "notes", .dict [(.str "hunter2", .none)])]

/-- What is recorded is written, with the password in it. -/
theorem tuple_password_recorded :
    (∀ secret ∈ passwordRedactor.exactSecrets, ExactSecret secret) ∧ SubstitutesMarker .plain ∧
    (jsonDumps .plain (.dict (MetadataValue.writtenEntries .plain
      (safeMetadata .plain (some passwordRedactor) (some tupleMetadata))))).isSome ∧
    ¬ FreeOfSecrets passwordRedactor (recordedTexts .plain passwordRedactor tupleMetadata) ∧
    ¬ FreeOfSecrets passwordRedactor (recordedTexts .plain passwordRedactor keyMetadata) := by
  have hcontains : Contains "hunter2" "hunter2" := List.infix_rfl
  refine ⟨exactSecret_password, substitutesMarker_plain, by decide, fun hfree => ?_, fun hfree => ?_⟩
  · exact hfree "hunter2" (by decide) "hunter2" (by decide) hcontains
  · exact hfree "hunter2" (by decide) "hunter2" (by decide) hcontains

/-! ## A set of secrets -/

/-- A set is iterated over in some order, each member once. -/
def IteratesOver (order : List String) (secrets : Finset String) : Prop :=
  order.Nodup ∧ ∀ secret, secret ∈ order ↔ secret ∈ secrets

/-- In whatever order the secrets of a set are replaced, and whatever the patterns substitute after
that, none of the secrets is left in a text.
SOURCE: security/secrets.py:38-45 -/
theorem redact_free_of_set {py : Stdlib} (hpy : SubstitutesMarker py) {secrets : Finset String}
    (hsecrets : ∀ secret ∈ secrets, ExactSecret secret) {order : List String}
    (horder : IteratesOver order secrets) (patterns : List String) (text : String) :
    ∀ secret ∈ secrets,
      ¬ Contains (SecretRedactor.redact py { patterns := patterns, exactSecrets := order } text) secret := by
  intro secret hsecret
  have hmem : secret ∈ order := (horder.2 secret).mpr hsecret
  exact not_contains_redact hpy (hsecrets secret hsecret) hmem text

/-- A substitution for patterns whose characters stand for themselves. -/
def literalPy : Stdlib :=
  { Stdlib.plain with
    reSub := fun pattern replacement text => if pattern = "" then text else text.replace pattern replacement }

/-- INTERNAL: so does the library of the sample. -/
theorem substitutesMarker_literal : SubstitutesMarker literalPy := fun pattern text =>
  cut_replaceSecret text pattern

/-- Three secrets, of which one is in another and two overlap. -/
def overlappingSecrets : Finset String := {"token", "okens", "to"}

/-- The shortest first, and a pattern that matches what is left of another one. -/
def shortestFirst : SecretRedactor :=
  { patterns := ["ke"]
    exactSecrets := ["to", "token", "okens"] }

/-- INTERNAL: shortest first is one order of the secrets. -/
theorem iteratesOver_shortestFirst : IteratesOver shortestFirst.exactSecrets overlappingSecrets := by
  refine ⟨by decide, fun secret => ?_⟩
  simp only [shortestFirst, overlappingSecrets, Finset.mem_insert, Finset.mem_singleton, List.mem_cons,
    List.not_mem_nil, or_false]
  tauto

/-- INTERNAL: the overlapping secrets are exact ones. -/
theorem exactSecret_of_overlapping : ∀ secret ∈ overlappingSecrets, ExactSecret secret := by
  intro secret hsecret
  simp only [overlappingSecrets, Finset.mem_insert, Finset.mem_singleton] at hsecret
  rcases hsecret with rfl | rfl | rfl
  all_goals exact ⟨by decide, by simp [NoCommonLetter, redactedText]⟩

/-- No secret of the sample is left, although one is part of another. -/
theorem overlapping_secrets_redacted :
    ¬ Contains (shortestFirst.redact literalPy "tokens and token") "to" ∧
      ¬ Contains (shortestFirst.redact literalPy "tokens and token") "token" ∧
      ¬ Contains (shortestFirst.redact literalPy "tokens and token") "okens" := by
  have hfree := redact_free_of_set substitutesMarker_literal exactSecret_of_overlapping
    iteratesOver_shortestFirst ["ke"] "tokens and token"
  exact ⟨hfree "to" (by decide), hfree "token" (by decide), hfree "okens" (by decide)⟩

end Shea.Analysis
