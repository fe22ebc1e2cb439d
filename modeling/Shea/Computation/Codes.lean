import Mathlib.Data.List.Basic
import Mathlib.Data.List.Forall2

/-!
# Texts whose parts can be told apart

A text is made of the codes of its parts. The parts can be read off when no code is the beginning of
another one (`PrefixCode`), when a code stops where a letter stands that occurs in no code, and, for a
sequence with separators, when the parts are told apart by what may follow them.
-/

set_option autoImplicit false

namespace Shea.Computation

variable {α β : Type}

/-- Two runs of letters with `p`, each up to a letter without it. -/
theorem append_inj_of_stop {p : β → Prop} {xs ys s t : List β} (hxs : ∀ x ∈ xs, p x)
    (hys : ∀ y ∈ ys, p y) (hs : ∀ x ∈ s.head?, ¬ p x) (ht : ∀ y ∈ t.head?, ¬ p y)
    (h : xs ++ s = ys ++ t) : xs = ys ∧ s = t := by
  induction xs generalizing ys with
  | nil =>
    cases ys with
    | nil => exact ⟨rfl, h⟩
    | cons y ys =>
      obtain rfl : s = y :: (ys ++ t) := h
      exact absurd (hys y (List.mem_cons_self ..)) (hs y rfl)
  | cons x xs ih =>
    cases ys with
    | nil =>
      obtain rfl : x :: (xs ++ s) = t := h
      exact absurd (hxs x (List.mem_cons_self ..)) (ht x rfl)
    | cons y ys =>
      obtain ⟨rfl, hrest⟩ := List.cons.inj h
      obtain ⟨rfl, rfl⟩ := ih (fun z hz => hxs z (List.mem_cons_of_mem _ hz))
        (fun z hz => hys z (List.mem_cons_of_mem _ hz)) hrest
      exact ⟨rfl, rfl⟩

/-- No code is the beginning of another one. -/
def PrefixCode (code : α → List β) : Prop :=
  ∀ a b s t, code a ++ s = code b ++ t → a = b ∧ s = t

/-- A code that some function reads back, whatever follows. -/
theorem PrefixCode.of_read {code : α → List β} (read : List β → Option (α × List β))
    (h : ∀ a s, read (code a ++ s) = some (a, s)) : PrefixCode code := by
  intro a b s t heq
  have hread := (h a s).symm.trans ((congrArg read heq).trans (h b t))
  exact Prod.mk.inj (Option.some.inj hread)

/-- A sequence of codes, closed by a letter with which no code begins. -/
theorem PrefixCode.flatMap {code : α → List β} (hcode : PrefixCode code) {close : β}
    (hclose : ∀ a s t, code a ++ s ≠ close :: t) {as bs : List α} {s t : List β}
    (h : as.flatMap code ++ close :: s = bs.flatMap code ++ close :: t) : as = bs ∧ s = t := by
  induction as generalizing bs with
  | nil =>
    cases bs with
    | nil => exact ⟨rfl, (List.cons.inj h).2⟩
    | cons b bs =>
      rw [List.flatMap_cons, List.append_assoc] at h
      exact absurd h.symm (hclose _ _ _)
  | cons a as ih =>
    cases bs with
    | nil =>
      rw [List.flatMap_cons, List.append_assoc] at h
      exact absurd h (hclose _ _ _)
    | cons b bs =>
      rw [List.flatMap_cons, List.flatMap_cons, List.append_assoc, List.append_assoc] at h
      obtain ⟨rfl, hrest⟩ := hcode _ _ _ _ h
      obtain ⟨rfl, rfl⟩ := ih hrest
      exact ⟨rfl, rfl⟩

/-- Where the two codes begin one text, and both are followed by something a code may stop at, they
are the codes of the same thing. -/
def ToldApart (stop : List β → Prop) (same : α → α → Prop) (code : α → List β) (a b : α) : Prop :=
  ∀ s t, stop s → stop t → code a ++ s = code b ++ t → same a b ∧ s = t

/-- A sequence with separators, closed by a letter with which no part begins. -/
theorem intercalate_inj (same : α → α → Prop) {stop : List β → Prop} {code : α → List β}
    {sep : List β} {close first : β} {as bs : List α}
    (hsep : sep.head? = some first) (hne : first ≠ close)
    (hstop : ∀ s, stop (sep ++ s)) (hclose : ∀ s, stop (close :: s))
    (hopen : ∀ a s t, code a ++ s ≠ close :: t)
    (hparts : ∀ a ∈ as, ∀ b ∈ bs, ToldApart stop same code a b) {s t : List β}
    (h : sep.intercalate (as.map code) ++ close :: s = sep.intercalate (bs.map code) ++ close :: t) :
    List.Forall₂ same as bs ∧ s = t := by
  -- what follows a part of a sequence: a separator and the next one, or the end
  have hrest : ∀ (d : α) (ds : List α) (u : List β),
      ∃ v, sep.intercalate ((d :: ds).map code) ++ close :: u = code d ++ v ∧ stop v ∧
        (ds = [] → v = close :: u) ∧
        (ds ≠ [] → v = sep ++ (sep.intercalate (ds.map code) ++ close :: u)) := by
    intro d ds u
    cases ds with
    | nil => exact ⟨close :: u, by simp, hclose u, fun _ => rfl, fun hno => absurd rfl hno⟩
    | cons e es =>
      refine ⟨sep ++ (sep.intercalate ((e :: es).map code) ++ close :: u), ?_, hstop _, nofun,
        fun _ => rfl⟩
      simp [List.intercalate_cons_cons]
  have hnot : ∀ {u v : List β}, sep ++ u ≠ close :: v := by
    intro u v heq
    cases sep with
    | nil => cases hsep
    | cons x xs =>
      obtain rfl := Option.some.inj hsep
      exact hne (List.cons.inj heq).1
  induction as generalizing bs with
  | nil =>
    cases bs with
    | nil => exact ⟨.nil, (List.cons.inj h).2⟩
    | cons b bs =>
      obtain ⟨v, hv, -⟩ := hrest b bs t
      rw [hv] at h
      exact absurd h.symm (hopen _ _ _)
  | cons a as ih =>
    obtain ⟨u, hu, hustop, hulast, humore⟩ := hrest a as s
    rw [hu] at h
    cases bs with
    | nil => exact absurd h (hopen _ _ _)
    | cons b bs =>
      obtain ⟨v, hv, hvstop, hvlast, hvmore⟩ := hrest b bs t
      rw [hv] at h
      obtain ⟨hab, huv⟩ := hparts a (List.mem_cons_self ..) b (List.mem_cons_self ..) u v hustop hvstop h
      cases as with
      | nil =>
        cases bs with
        | nil =>
          rw [hulast rfl, hvlast rfl] at huv
          exact ⟨.cons hab .nil, (List.cons.inj huv).2⟩
        | cons b' bs =>
          rw [hulast rfl, hvmore (List.cons_ne_nil _ _)] at huv
          exact absurd huv.symm hnot
      | cons a' as =>
        cases bs with
        | nil =>
          rw [humore (List.cons_ne_nil _ _), hvlast rfl] at huv
          exact absurd huv hnot
        | cons b' bs =>
          rw [humore (List.cons_ne_nil _ _), hvmore (List.cons_ne_nil _ _)] at huv
          have hothers (x) (hx : x ∈ _) (y) (hy : y ∈ _) :=
            hparts x (List.mem_cons_of_mem _ hx) y (List.mem_cons_of_mem _ hy)
          obtain ⟨hrests, rfl⟩ := ih hothers (List.append_cancel_left huv)
          exact ⟨.cons hab hrests, rfl⟩

/-! ## A letter between the parts -/

section Separator

variable {sep : β}

/-- Two texts joined by a letter read the same when the parts are the same, or one first part goes on
into what is the second part of the other text. -/
theorem append_sep_eq_iff {x y x' y' : List β} : x ++ sep :: y = x' ++ sep :: y' ↔
    (x = x' ∧ y = y') ∨ (∃ mid, x' = x ++ sep :: mid ∧ y = mid ++ sep :: y') ∨
      ∃ mid, x = x' ++ sep :: mid ∧ y' = mid ++ sep :: y := by
  constructor
  · intro h
    rcases List.append_eq_append_iff.mp h with ⟨mid, rfl, hmid⟩ | ⟨mid, rfl, hmid⟩
    · cases mid with
      | nil => exact .inl ⟨(List.append_nil x).symm, (List.cons.inj hmid).2⟩
      | cons c mid =>
        obtain ⟨rfl, rfl⟩ := List.cons.inj hmid
        exact .inr (.inl ⟨mid, rfl, rfl⟩)
    · cases mid with
      | nil => exact .inl ⟨List.append_nil x', (List.cons.inj hmid).2.symm⟩
      | cons c mid =>
        obtain ⟨rfl, rfl⟩ := List.cons.inj hmid
        exact .inr (.inr ⟨mid, rfl, rfl⟩)
  · rintro (⟨rfl, rfl⟩ | ⟨mid, rfl, rfl⟩ | ⟨mid, rfl, rfl⟩) <;> simp

/-- The last part is told by the last separator. -/
theorem append_sep_inj {x y x' y' : List β} (hy : sep ∉ y) (hy' : sep ∉ y')
    (h : x ++ sep :: y = x' ++ sep :: y') : x = x' ∧ y = y' := by
  rcases append_sep_eq_iff.mp h with heq | ⟨mid, -, rfl⟩ | ⟨mid, -, rfl⟩
  · exact heq
  · exact absurd (by simp) hy
  · exact absurd (by simp) hy'

/-- A join of two sequences, neither of them empty. -/
theorem join_append {parts others : List (List β)} (hparts : parts ≠ []) (hothers : others ≠ []) :
    [sep].intercalate (parts ++ others) =
      [sep].intercalate parts ++ sep :: [sep].intercalate others := by
  induction parts with
  | nil => exact absurd rfl hparts
  | cons x rest ih =>
    cases rest with
    | nil => simp [List.intercalate_cons_of_ne_nil hothers]
    | cons y rest =>
      rw [List.cons_append, List.intercalate_cons_of_ne_nil (by simp), ih (List.cons_ne_nil _ _),
        List.intercalate_cons_cons]
      simp

variable [BEq β] [LawfulBEq β]

/-- What stands between the separators once the parts are joined. A join of no parts is empty, as is
that of a single empty one. -/
def pieces (sep : β) (parts : List (List β)) : List (List β) :=
  if parts = [] then [[]] else parts.flatMap (List.splitOn sep)

/-- INTERNAL: the pieces are what the join splits into. -/
theorem splitOn_join (parts : List (List β)) :
    ([sep].intercalate parts).splitOn sep = pieces sep parts := by
  induction parts with
  | nil => simp [pieces]
  | cons x rest ih =>
    cases rest with
    | nil => simp [pieces]
    | cons y rest =>
      have hjoin : [sep].intercalate (x :: y :: rest) = x ++ sep :: [sep].intercalate (y :: rest) := by
        simp [List.intercalate_cons_cons]
      rw [hjoin, List.splitOn_append_cons_self, ih]
      simp [pieces]

/-- No piece of a split has a separator. -/
theorem not_mem_of_mem_splitOn {s piece : List β} (h : piece ∈ s.splitOn sep) : sep ∉ piece := by
  induction s generalizing piece with
  | nil =>
    rw [List.splitOn_nil, List.mem_singleton] at h
    rw [h]
    exact List.not_mem_nil
  | cons c rest ih =>
    obtain ⟨first, others, hsplit⟩ := List.exists_cons_of_ne_nil (List.splitOn_ne_nil sep rest)
    rw [List.splitOn_cons_eq_if_modifyHead, hsplit] at h
    rw [hsplit] at ih
    have hfirst : sep ∉ first := ih (List.mem_cons_self ..)
    by_cases hc : c = sep
    · simp only [hc, beq_self_eq_true, if_true, List.mem_cons] at h
      rcases h with rfl | rfl | h
      · exact List.not_mem_nil
      · exact hfirst
      · exact ih (List.mem_cons_of_mem _ h)
    · simp only [beq_eq_false_iff_ne.mpr hc, Bool.false_eq_true, if_false, List.modifyHead_cons,
        List.mem_cons] at h
      rcases h with rfl | h
      · simp [Ne.symm hc, hfirst]
      · exact ih (List.mem_cons_of_mem _ h)

/-- Two joins are the same text exactly when the parts have the same pieces. -/
theorem join_eq_iff {parts others : List (List β)} :
    [sep].intercalate parts = [sep].intercalate others ↔ pieces sep parts = pieces sep others := by
  constructor
  · intro h
    rw [← splitOn_join, ← splitOn_join, h]
  · intro h
    have hjoin := congrArg [sep].intercalate h
    rw [← splitOn_join, ← splitOn_join, List.intercalate_splitOn, List.intercalate_splitOn] at hjoin
    exact hjoin

/-- Parts without separators are told by their join, if none of them is empty. -/
theorem join_inj {parts others : List (List β)} (hparts : ∀ part ∈ parts, part ≠ [] ∧ sep ∉ part)
    (hothers : ∀ part ∈ others, part ≠ [] ∧ sep ∉ part)
    (h : [sep].intercalate parts = [sep].intercalate others) : parts = others := by
  have hsplit : ∀ these : List (List β), (∀ part ∈ these, part ≠ [] ∧ sep ∉ part) →
      these = (([sep].intercalate these).splitOn sep).filter (· ≠ []) := by
    intro these hthese
    have hkept : these.filter (· ≠ []) = these :=
      List.filter_eq_self.mpr fun part hpart => decide_eq_true (hthese part hpart).1
    by_cases hnil : these = []
    · subst hnil
      simp
    · rw [List.splitOn_intercalate sep (fun part hpart => (hthese part hpart).2) hnil, hkept]
  rw [hsplit parts hparts, hsplit others hothers, h]

/-- One join is the beginning of another, with a separator after it, when the parts are the first ones
of more parts. -/
theorem join_prefix_iff {parts others : List (List β)} (hne : parts ≠ [])
    (hparts : ∀ part ∈ parts, part ≠ [] ∧ sep ∉ part)
    (hothers : ∀ part ∈ others, part ≠ [] ∧ sep ∉ part) :
    [sep].intercalate parts ++ [sep] <+: [sep].intercalate others ↔
      parts <+: others ∧ parts ≠ others := by
  constructor
  · rintro ⟨rest, hrest⟩
    have hsplit := congrArg (List.splitOn sep) hrest
    have hothers_ne : others ≠ [] := by
      rintro rfl
      simp at hrest
    rw [List.append_assoc, List.singleton_append, List.splitOn_append_cons_self,
      List.splitOn_intercalate sep (fun part hpart => (hparts part hpart).2) hne,
      List.splitOn_intercalate sep (fun part hpart => (hothers part hpart).2) hothers_ne] at hsplit
    refine ⟨⟨_, hsplit⟩, ?_⟩
    rintro rfl
    exact List.splitOn_ne_nil sep rest (List.append_right_eq_self.mp hsplit)
  · rintro ⟨⟨rest, rfl⟩, hproper⟩
    have hrest : rest ≠ [] := by
      rintro rfl
      exact hproper (List.append_nil parts).symm
    refine ⟨[sep].intercalate rest, ?_⟩
    rw [join_append hne hrest, List.append_assoc, List.singleton_append]

end Separator

end Shea.Computation
