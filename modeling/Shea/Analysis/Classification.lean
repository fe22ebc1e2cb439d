import Mathlib.Data.List.Infix
import Shea.Analysis.RecoveryStart

/-!
# What the classifier makes of an error text

The classifier looks for words in the lowered text, in a fixed order, and the first list with a hit
decides. A security violation has the word "security" in its message, but that list comes last: a
tool name, category or reason that mentions a timeout, a network or a rate limit is caught before, and
the failure counts as one that another attempt may cure.
-/

set_option autoImplicit false

namespace Shea.Analysis

open Shea.Computation Shea.Model

/-! ## Words in texts -/

/-- A text contains another when the letters of the one are an infix of the letters of the other. -/
theorem containsText_iff (text part : String) :
    containsText text part = true ↔ part.toList <:+: text.toList := by
  unfold containsText
  rw [List.any_eq_true]
  constructor
  · rintro ⟨suffix, hsuffix, hprefix⟩
    exact (List.isPrefixOf_iff_prefix.mp hprefix).isInfix.trans
      ((List.mem_tails _ _).mp hsuffix).isInfix
  · intro h
    obtain ⟨suffix, hprefix, hsuffix⟩ := List.infix_iff_prefix_suffix.mp h
    exact ⟨suffix, (List.mem_tails _ _).mpr hsuffix, List.isPrefixOf_iff_prefix.mpr hprefix⟩

/-- One of the words occurs in the text. -/
def mentions (text : String) (words : List String) : Bool := words.any (containsText text)

/-- A word of the first half of a text is a word of the text. -/
theorem containsText_append (text rest : String) {part : String} (h : containsText text part = true) :
    containsText (text ++ rest) part = true := by
  rw [containsText_iff] at *
  rw [String.toList_append]
  exact h.trans (List.infix_append' [] text.toList rest.toList)

/-- The words of the lists, in the order in which they are looked for. -/
def passingWords : List String := [
  "timeout", "timed out", "connection", "network", "dns", "connection reset", "rate limit",
  "too many requests", "429"]

def accessWords : List String := [
  "permission denied", "forbidden", "not authorized", "unauthenticated", "authentication",
  "invalid token"]

def inputWords : List String := ["invalid argument", "invalid input", "validation error"]

def securityWords : List String := ["security", "malicious", "integrity violation"]

/-! ## The classification -/

section Classify

variable (py : Stdlib) (record : ToolExecutionRecord)

/-- The text the classifier looks at. -/
def loweredError : String := py.lower (record.error.getD "")

variable {py record}

/-- The class of the first list with a hit. -/
def classOf (text : String) : FailureClassification :=
  ((failureWords.find? fun entry => mentions text entry.1).map Prod.snd).getD unclassifiedFailure

/-- INTERNAL: a known outcome is classified by its error.
SOURCE: recovery/classifier.py:31-133 -/
theorem classifyFailure_known (hknown : record.outcome ≠ .unknown) :
    classifyFailure py record = classOf (loweredError py record) := by
  unfold classifyFailure classOf
  rw [if_neg hknown]
  dsimp only
  split
  · next words classification hfound =>
    rw [show failureWords.find? (fun entry => mentions (loweredError py record) entry.1) =
      some (words, classification) from hfound]
    rfl
  · next hnone =>
    rw [show failureWords.find? (fun entry => mentions (loweredError py record) entry.1) = none
      from hnone]
    rfl

/-- INTERNAL: the first list with a hit decides.
SOURCE: recovery/classifier.py:31-133 -/
theorem securityRelevant_iff (hknown : record.outcome ≠ .unknown) :
    (classifyFailure py record).securityRelevant = true ↔
      mentions (loweredError py record) passingWords = false ∧
        (mentions (loweredError py record) accessWords = true ∨
          mentions (loweredError py record) inputWords = false ∧
            mentions (loweredError py record) securityWords = true) := by
  rw [classifyFailure_known hknown]
  generalize loweredError py record = text
  have hpassing : mentions text passingWords =
      (mentions text ["timeout", "timed out"] ||
        mentions text ["connection", "network", "dns", "connection reset"] ||
        mentions text ["rate limit", "too many requests", "429"]) := by
    simp [mentions, passingWords, Bool.or_assoc]
  have haccess : mentions text accessWords =
      (mentions text ["permission denied", "forbidden", "not authorized"] ||
        mentions text ["unauthenticated", "authentication", "invalid token"]) := by
    simp [mentions, accessWords, Bool.or_assoc]
  rw [hpassing, haccess]
  unfold classOf failureWords inputWords securityWords
  simp only [List.find?_cons, List.find?_nil]
  cases mentions text ["timeout", "timed out"]
  · cases mentions text ["connection", "network", "dns", "connection reset"]
    · cases mentions text ["rate limit", "too many requests", "429"]
      · cases mentions text ["permission denied", "forbidden", "not authorized"]
        · cases mentions text ["unauthenticated", "authentication", "invalid token"]
          · cases mentions text ["invalid argument", "invalid input", "validation error"]
            · cases mentions text ["security", "malicious", "integrity violation"]
              · simp [unclassifiedFailure]
              · simp [lastingFailure]
            · simp [lastingFailure]
          · simp [lastingFailure]
        · simp [lastingFailure]
      · simp [passingFailure]
    · simp [passingFailure]
  · simp [passingFailure]

end Classify

/-! ## Security violations -/

/-- `str(SecurityViolationError(tool, category, reason))`. -/
def violationText (py : Stdlib) (tool category reason : String) : String :=
  "Security violation " ++ "(" ++
    (category ++ ") for tool " ++ py.reprOf (.str tool) ++ ": " ++ reason)

/-- The error of the record: the message as it is, or under the supervisor's prefix. -/
def recordedViolation (py : Stdlib) (rejected : Bool) (tool category reason : String) : String :=
  (if rejected then "adapter rejected before any side effect: " else "") ++
    violationText py tool category reason

/-- `text.lower()` of ASCII letters up to a bracket: each is lowered by itself, whatever follows. -/
def LowersAscii (py : Stdlib) : Prop :=
  ∀ head rest : String, head.toList.all (·.toNat < 128) = true →
    py.lower (head ++ "(" ++ rest) =
      String.ofList (head.toList.map Char.toLower) ++ "(" ++ py.lower rest

/-- The record counts as security relevant, and whatever the policy, the attempts made and the
verification, the planner does not retry. -/
def NeverRetried (py : Stdlib) (record : ToolExecutionRecord) : Prop :=
  (classifyFailure py record).securityRelevant = true ∧
    ∀ (policy : RetryPolicy) (attemptsMade : ℕ) (verification : Option VerificationRecord),
      (policy.decide record (classifyFailure py record) attemptsMade verification).strategy ≠ .retry

section Violations

variable {py : Stdlib} {record : ToolExecutionRecord}

/-- INTERNAL: the planner halts on whatever is security relevant.
SOURCE: recovery/planner.py:28-35 -/
theorem neverRetried_iff :
    NeverRetried py record ↔ (classifyFailure py record).securityRelevant = true := by
  refine ⟨And.left, fun h => ⟨h, fun policy attemptsMade verification => ?_⟩⟩
  unfold RetryPolicy.decide
  rw [if_pos h]
  exact fun heq => by cases heq

/-- INTERNAL: the message of a violation says so, in small letters.
SOURCE: security/exceptions.py:17-21 -/
theorem mentions_security (hpy : LowersAscii py) (rejected : Bool) (tool category reason : String) :
    mentions (py.lower (recordedViolation py rejected tool category reason)) securityWords = true := by
  have hlowered : ∃ head rest, containsText head "security" = true ∧
      py.lower (recordedViolation py rejected tool category reason) = head ++ rest := by
    unfold recordedViolation violationText
    cases rejected with
    | true =>
      have happ := hpy ("adapter rejected before any side effect: " ++ "Security violation ")
        (category ++ ") for tool " ++ py.reprOf (.str tool) ++ ": " ++ reason) (by decide)
      refine ⟨_, _, ?_, Eq.trans ?_ (happ.trans String.append_assoc)⟩
      · decide
      · simp only [if_true, String.append_assoc]
    | false =>
      have happ := hpy "Security violation "
        (category ++ ") for tool " ++ py.reprOf (.str tool) ++ ": " ++ reason) (by decide)
      refine ⟨_, _, ?_, Eq.trans ?_ (happ.trans String.append_assoc)⟩
      · decide
      · simp
  obtain ⟨head, rest, hword, heq⟩ := hlowered
  rw [heq]
  exact List.any_eq_true.mpr ⟨"security", by simp [securityWords], containsText_append _ _ hword⟩

/-- A failure whose recorded error is the message of a security violation counts as security relevant,
and is never retried, exactly when its lowered text has no word of the lists that are looked for
before, or only such as speak of access: none of a timeout, of the network or of a rate limit, and
either one of access or none of invalid input.
SOURCE: recovery/classifier.py:31-133, recovery/planner.py:28-120 -/
theorem violation_never_retried_iff (hpy : LowersAscii py) {rejected : Bool}
    {tool category reason : String} (houtcome : record.outcome = .failure)
    (herror : record.error = some (recordedViolation py rejected tool category reason)) :
    NeverRetried py record ↔
      mentions (py.lower (recordedViolation py rejected tool category reason)) passingWords = false ∧
        (mentions (py.lower (recordedViolation py rejected tool category reason)) accessWords = true ∨
          mentions (py.lower (recordedViolation py rejected tool category reason)) inputWords =
            false) := by
  have hknown : record.outcome ≠ .unknown := by
    rw [houtcome]
    decide
  have hsecurity := mentions_security hpy rejected tool category reason
  rw [neverRetried_iff, securityRelevant_iff hknown, loweredError, herror, Option.getD_some,
    hsecurity]
  simp

end Violations

/-- INTERNAL: the small library lowers letter by letter. -/
theorem lowersAscii_plain : LowersAscii .plain := by
  intro head rest _
  show String.ofList (List.map Char.toLower (head ++ "(" ++ rest).toList) = _ ++ String.ofList _
  simp [String.ofList_append, String.append_assoc]

/-- The record of a request that was stopped because its arguments carry a secret: the violation names
the tool "network".
SOURCE: credentials/destination.py:47-53 -/
def secretInArguments : ToolExecutionRecord :=
  { id := "execution"
    taskId := "task"
    tool := "http.fetch"
    action := "fetch"
    outcome := .failure
    success := false
    idempotencyKey := some "key"
    error := some (recordedViolation .plain true "network" "credential"
      "raw secret material in arguments['token'] is forbidden; use credential refs only") }

/-- It counts as a network failure, and the default policy retries it. -/
theorem secret_in_arguments_retried :
    secretInArguments.outcome = .failure ∧
      ¬ NeverRetried .plain secretInArguments ∧
      (({} : RetryPolicy).decide secretInArguments (classifyFailure .plain secretInArguments) 0
        none).strategy = .retry := by
  have h : (classifyFailure .plain secretInArguments).securityRelevant = false ∧
      (({} : RetryPolicy).decide secretInArguments (classifyFailure .plain secretInArguments) 0
        none).strategy = .retry := by decide +kernel
  refine ⟨rfl, fun hnever => ?_, h.2⟩
  rw [neverRetried_iff, h.1] at hnever
  cases hnever

/-- A violation without such words is never retried. -/
theorem path_violation_never_retried :
    NeverRetried .plain { secretInArguments with error := some (recordedViolation .plain false "browser"
      "filesystem" "path '/etc' is outside the allowed filesystem roots") } := by
  refine (violation_never_retried_iff lowersAscii_plain rfl rfl).mpr ⟨?_, .inr ?_⟩ <;>
    decide +kernel

end Shea.Analysis
