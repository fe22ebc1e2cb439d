import Shea.Analysis.ContentBinding
import Shea.Model.JsonReader

/-!
# What a permit is bound to

The token of a permit is a keyed hash of one text: tool, action, a digest of the arguments and a digest
of the capabilities, with NUL characters between them. The capabilities are joined the same way before
their digest is taken. Nothing keeps a NUL out of a name, so the text does not always tell where one
name ends: a permit also verifies for an invocation with the boundary in another place.
-/

set_option autoImplicit false

namespace Shea.Analysis

open Shea.Computation Shea.Model

/-! ## Invocations -/

/-- An invocation that a permit is asked for: JSON arguments, each name in a dictionary once, and a set
of capabilities. -/
structure PermitSubject where
  tool : String
  action : String
  arguments : Dict
  capabilities : List String
  json : (Value.dict arguments).serializable = true
  names : (Value.dict arguments).distinctKeys = true
  distinct : capabilities.Nodup

/-- The same tool, action and set of capabilities, and arguments of the same content. -/
structure SameInvocation (a b : PermitSubject) : Prop where
  tool : a.tool = b.tool
  action : a.action = b.action
  arguments : (Value.dict a.arguments).canon = (Value.dict b.arguments).canon
  capabilities : a.capabilities.Perm b.capabilities

/-- The permit minted for `a` verifies for `b`. -/
def PermitVerifies (authority : ExecutionPermitAuthority) (py : Stdlib) (a b : PermitSubject) : Prop :=
  authority.verify py (authority.mint py a.tool a.action a.arguments a.capabilities) b.tool b.action
    b.arguments b.capabilities = true

/-- Hashes and keyed hashes tell texts apart, and a digest is written in hexadecimal. -/
structure DigestsTellApart (py : Stdlib) : Prop extends HashesTellApart py where
  hmac (secret : String) : Function.Injective (py.hmacSha256 secret)
  hex (text : String) : '\x00' ∉ (py.sha256 text).toList

/-! ## Where a NUL hides a boundary -/

/-- The end of one tool name, from a NUL on, is the beginning of the other action name. -/
def ShiftedInto (tool action tool' action' : String) : Prop :=
  ∃ mid : String, tool' = tool ++ "\x00" ++ mid ∧ action = mid ++ "\x00" ++ action'

/-- A NUL stands on the other side of the boundary between tool and action. -/
def Shifted (a b : PermitSubject) : Prop :=
  ShiftedInto a.tool a.action b.tool b.action ∨ ShiftedInto b.tool b.action a.tool a.action

/-- The pieces between NULs of the capabilities, in order. -/
def capabilityPieces (capabilities : List String) : List (List Char) :=
  pieces '\x00' ((sortedTexts capabilities).map String.toList)

/-- Two sets of capabilities with the same pieces: a NUL in a capability stands where the other set has
the end of one, or one set is empty and the other has the empty capability only. -/
def Regrouped (a b : PermitSubject) : Prop :=
  ¬ a.capabilities.Perm b.capabilities ∧
    capabilityPieces a.capabilities = capabilityPieces b.capabilities

/-- The two differ only in where the boundaries between names are. -/
def OnlyBoundariesDiffer (a b : PermitSubject) : Prop :=
  (Value.dict a.arguments).canon = (Value.dict b.arguments).canon ∧
  ((a.tool = b.tool ∧ a.action = b.action) ∨ Shifted a b) ∧
  (a.capabilities.Perm b.capabilities ∨ Regrouped a b) ∧
  (Shifted a b ∨ Regrouped a b)

section Tokens

variable {py : Stdlib}

/-- INTERNAL: the names before the digests, as characters. -/
theorem toList_message (tool action argsDigest capsDigest : String) :
    (ExecutionPermitAuthority.message tool action argsDigest capsDigest).toList =
      ((tool.toList ++ '\x00' :: action.toList) ++ '\x00' :: argsDigest.toList) ++
        '\x00' :: capsDigest.toList := by
  have hnul : ("\x00" : String).toList = ['\x00'] := by decide
  simp [ExecutionPermitAuthority.message, String.toList_append, hnul]

/-- The tool and the action read the same, joined by a NUL. -/
theorem names_joined_iff (a b : PermitSubject) :
    a.tool.toList ++ '\x00' :: a.action.toList = b.tool.toList ++ '\x00' :: b.action.toList ↔
      (a.tool = b.tool ∧ a.action = b.action) ∨ Shifted a b := by
  have hshift : ∀ tool action tool' action' : String, ShiftedInto tool action tool' action' ↔
      ∃ mid, tool'.toList = tool.toList ++ '\x00' :: mid ∧
        action.toList = mid ++ '\x00' :: action'.toList := by
    intro tool action tool' action'
    have hnul : ("\x00" : String).toList = ['\x00'] := by decide
    constructor
    · rintro ⟨mid, rfl, rfl⟩
      exact ⟨mid.toList, by simp [hnul], by simp [hnul]⟩
    · rintro ⟨mid, htool, haction⟩
      refine ⟨String.ofList mid, String.toList_inj.mp ?_, String.toList_inj.mp ?_⟩
      · simpa [hnul] using htool
      · simpa [hnul] using haction
  rw [append_sep_eq_iff, String.toList_inj, String.toList_inj]
  unfold Shifted
  rw [hshift, hshift]

/-- The joined capabilities are the same text. -/
theorem capabilities_joined_iff (capabilities others : List String) :
    String.intercalate "\x00" (sortedTexts capabilities) =
        String.intercalate "\x00" (sortedTexts others) ↔
      capabilityPieces capabilities = capabilityPieces others := by
  have hnul : ("\x00" : String).toList = ['\x00'] := by decide
  rw [← String.toList_inj, String.toList_intercalate, String.toList_intercalate, hnul, join_eq_iff]
  rfl

/-- A set has one list of sorted elements. -/
theorem pieces_of_perm {a b : PermitSubject} (h : a.capabilities.Perm b.capabilities) :
    capabilityPieces a.capabilities = capabilityPieces b.capabilities := by
  have hsorted : sortedTexts a.capabilities = sortedTexts b.capabilities := by
    unfold sortedTexts
    have hordered (capabilities : List String) :
        (capabilities.insertionSort (· ≤ ·)).Pairwise (· ≤ ·) := List.pairwise_insertionSort _ _
    refine List.Perm.eq_of_pairwise ?_ (hordered _) (hordered _) ?_
    · intro x y _ _ hxy hyx
      exact String.le_antisymm hxy hyx
    · exact (List.perm_insertionSort _ _).trans (h.trans (List.perm_insertionSort _ _).symm)
  unfold capabilityPieces
  rw [hsorted]

/-- INTERNAL: what a token tells of an invocation.
SOURCE: execution/permit.py:33-79 -/
theorem verifies_iff (authority : ExecutionPermitAuthority) (hpy : DigestsTellApart py)
    (a b : PermitSubject) : PermitVerifies authority py a b ↔
      ((a.tool = b.tool ∧ a.action = b.action) ∨ Shifted a b) ∧
      (Value.dict a.arguments).canon = (Value.dict b.arguments).canon ∧
      capabilityPieces a.capabilities = capabilityPieces b.capabilities := by
  have harguments : ExecutionPermitAuthority.digestArgs py a.arguments =
      ExecutionPermitAuthority.digestArgs py b.arguments ↔
        (Value.dict a.arguments).canon = (Value.dict b.arguments).canon :=
    computeHash_eq_iff hpy.toHashesTellApart
  have hcapabilities : ExecutionPermitAuthority.digestCaps py a.capabilities =
      ExecutionPermitAuthority.digestCaps py b.capabilities ↔
        capabilityPieces a.capabilities = capabilityPieces b.capabilities :=
    (hpy.sha256.eq_iff).trans (capabilities_joined_iff _ _)
  rw [← names_joined_iff, ← harguments, ← hcapabilities]
  unfold PermitVerifies ExecutionPermitAuthority.verify ExecutionPermitAuthority.mint
  rw [decide_eq_true_iff, (hpy.hmac _).eq_iff, ← String.toList_inj, toList_message, toList_message]
  constructor
  · intro h
    -- the digests have no NUL, so they are read off from the right
    obtain ⟨h, hcaps⟩ := append_sep_inj (hpy.hex _) (hpy.hex _) h
    obtain ⟨hnames, hargs⟩ := append_sep_inj (hpy.hex _) (hpy.hex _) h
    exact ⟨hnames, String.toList_inj.mp hargs, String.toList_inj.mp hcaps⟩
  · rintro ⟨hnames, hargs, hcaps⟩
    rw [hnames, hargs, hcaps]

/-- A permit binds the whole invocation, except where two invocations differ only in boundaries that a
NUL hides.
SOURCE: execution/permit.py:33-79 -/
theorem permit_binds_iff (authority : ExecutionPermitAuthority) (hpy : DigestsTellApart py)
    (a b : PermitSubject) :
    (PermitVerifies authority py a b ↔ SameInvocation a b) ↔ ¬ OnlyBoundariesDiffer a b := by
  rw [verifies_iff authority hpy]
  have hsame_verifies : SameInvocation a b →
      capabilityPieces a.capabilities = capabilityPieces b.capabilities :=
    fun h => pieces_of_perm h.capabilities
  have hnot_shifted : a.tool = b.tool → ¬ Shifted a b := by
    have hnul : ("\x00" : String).length = 1 := rfl
    rintro htool (⟨mid, hmid, -⟩ | ⟨mid, hmid, -⟩)
    · have hlength := congrArg String.length (htool.trans hmid)
      rw [String.length_append, String.length_append] at hlength
      omega
    · have hlength := congrArg String.length (htool.symm.trans hmid)
      rw [String.length_append, String.length_append] at hlength
      omega
  constructor
  · rintro hiff ⟨hargs, hnames, hcaps, hdiffer⟩
    have hpieces : capabilityPieces a.capabilities = capabilityPieces b.capabilities :=
      hcaps.elim pieces_of_perm fun h => h.2
    have hsame := hiff.mp ⟨hnames, hargs, hpieces⟩
    rcases hdiffer with hshifted | hregrouped
    · exact hnot_shifted hsame.tool hshifted
    · exact hregrouped.1 hsame.capabilities
  · intro hnone
    constructor
    · rintro ⟨hnames, hargs, hpieces⟩
      have hcaps : a.capabilities.Perm b.capabilities ∨ Regrouped a b := by
        by_cases hperm : a.capabilities.Perm b.capabilities
        · exact .inl hperm
        · exact .inr ⟨hperm, hpieces⟩
      have hnot : ¬ (Shifted a b ∨ Regrouped a b) := fun h => hnone ⟨hargs, hnames, hcaps, h⟩
      have htool := hnames.resolve_right fun h => hnot (.inl h)
      exact
        { tool := htool.1
          action := htool.2
          arguments := hargs
          capabilities := hcaps.resolve_right fun h => hnot (.inr h) }
    · intro hsame
      exact ⟨.inl ⟨hsame.tool, hsame.action⟩, hsame.arguments, hsame_verifies hsame⟩

end Tokens

/-! ## Two notes -/

/-- INTERNAL: a string literal has printable characters only. -/
theorem printable_escapeChar (c : Char) : ∀ d ∈ escapeChar c, 0x20 ≤ d.toNat := by
  have hhex : ∀ n < 16, 0x20 ≤ (hexDigit n).toNat := by decide
  have hunicode : ∀ n : ℕ, ∀ d ∈ unicodeEscape n, 0x20 ≤ d.toNat := by
    intro n d hd
    simp only [unicodeEscape, List.mem_cons, List.not_mem_nil, or_false] at hd
    rcases hd with rfl | rfl | rfl | rfl | rfl | rfl
    · decide
    · decide
    all_goals exact hhex _ (Nat.mod_lt _ (by decide))
  intro d hd
  have hshort : ∀ x : Char, 0x20 ≤ x.toNat → d ∈ ['\\', x] → 0x20 ≤ d.toNat := by
    intro x hx hd
    simp only [List.mem_cons, List.not_mem_nil, or_false] at hd
    rcases hd with rfl | rfl
    · decide
    · exact hx
  unfold escapeChar at hd
  split_ifs at hd with _ _ _ _ _ _ _ hprintable
  iterate 7 exact hshort _ (by decide) hd
  · obtain rfl := List.mem_singleton.mp hd
    exact hprintable.1
  · exact hunicode _ d hd
  · rcases List.mem_append.mp hd with hd | hd
    · exact hunicode _ d hd
    · exact hunicode _ d hd

/-- A standard library whose digest of a text is its string literal. -/
def quotingPy : Stdlib := { Stdlib.plain with sha256 := quote, floatRepr := floatText }

/-- INTERNAL: the quoting library's digests tell texts apart. -/
theorem digestsTellApart_quotingPy : DigestsTellApart quotingPy := by
  have hquote : Function.Injective quote := by
    intro x y h
    have hlists : (quote x).toList ++ [] = (quote y).toList ++ [] := by rw [h]
    exact (quote_inj hlists).1
  refine
    { sha256 := hquote
      floats := floatTexts_floatText { Stdlib.plain with sha256 := quote }
      hmac := ?_
      hex := ?_ }
  · intro secret x y h
    have hlists := congrArg String.toList h
    simp only [quotingPy, Stdlib.plain, String.toList_append] at hlists
    exact String.toList_inj.mp (List.append_cancel_left hlists)
  · intro text hnul
    have hchars : '\x00' ∈ (quote text).toList := hnul
    rw [toList_quote] at hchars
    simp only [List.mem_cons, List.mem_append, List.mem_flatMap, List.not_mem_nil, or_false] at hchars
    rcases hchars with hquote | ⟨c, -, hc⟩ | hquote
    · exact absurd hquote (by decide)
    · exact absurd (printable_escapeChar c _ hc) (by decide)
    · exact absurd hquote (by decide)

/-- An invocation without arguments. -/
def plainInvocation (tool action : String) (capability : String) : PermitSubject :=
  { tool := tool
    action := action
    arguments := []
    capabilities := [capability]
    json := rfl
    names := rfl
    distinct := List.nodup_singleton _ }

/-- A permit for reading notes is bound to it: the same call with another capability is another
invocation, and the permit does not verify for it. -/
theorem note_permit_bound :
    ¬ SameInvocation (plainInvocation "notes" "add" "data.read")
        (plainInvocation "notes" "add" "data.write") ∧
      ¬ PermitVerifies { secret := "secret" } quotingPy (plainInvocation "notes" "add" "data.read")
        (plainInvocation "notes" "add" "data.write") := by
  have hbinds : PermitVerifies { secret := "secret" } quotingPy
      (plainInvocation "notes" "add" "data.read") (plainInvocation "notes" "add" "data.write") ↔
      SameInvocation (plainInvocation "notes" "add" "data.read")
        (plainInvocation "notes" "add" "data.write") := by
    refine (permit_binds_iff _ digestsTellApart_quotingPy _ _).mpr ?_
    rintro ⟨-, -, hcaps | hcaps, -⟩
    · exact absurd hcaps (by decide)
    · exact absurd hcaps.2 (by decide)
  have hother : ¬ SameInvocation (plainInvocation "notes" "add" "data.read")
      (plainInvocation "notes" "add" "data.write") :=
    fun h => absurd (List.perm_singleton.mp h.capabilities) (by decide)
  exact ⟨hother, fun h => hother (hbinds.mp h)⟩

/-- A permit for the action `all` of a tool verifies for another tool and action. -/
theorem moved_boundary_verifies : DigestsTellApart quotingPy ∧
    PermitVerifies { secret := "secret" } quotingPy (plainInvocation "notes\x00add" "all" "data.read")
      (plainInvocation "notes" "add\x00all" "data.read") ∧
    ¬ SameInvocation (plainInvocation "notes\x00add" "all" "data.read")
      (plainInvocation "notes" "add\x00all" "data.read") := by
  refine ⟨digestsTellApart_quotingPy, ?_, fun h => absurd h.tool (by decide)⟩
  refine (verifies_iff _ digestsTellApart_quotingPy _ _).mpr ⟨.inr (.inr ?_), rfl, rfl⟩
  exact ⟨"add", by decide, by decide⟩

end Shea.Analysis
