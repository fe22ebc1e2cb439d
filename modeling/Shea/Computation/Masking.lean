import Mathlib.Data.List.Infix

/-!
# Masking parts of a text

A scanner goes through a text from the left. Where a match begins it writes a mark and goes on behind
the match, elsewhere it keeps the letter. That is how `str.replace` and the substitution of a pattern
work: matches are found leftmost first and do not overlap.

What comes out consists of pieces of the text with marks between them (`Cut`), so a word that has no
letter in common with the mark is in the result only where it was in the text (`Cut.infix_of_apart`).
-/

set_option autoImplicit false

namespace Shea.Computation

variable {α : Type}

/-! ## Texts with parts cut out, and the scanner -/

/-- The second text is the first one with some parts replaced by the mark. -/
inductive Cut (mark : List α) : List α → List α → Prop
  | nil : Cut mark [] []
  | keep (c : α) {s t : List α} : Cut mark s t → Cut mark (c :: s) (c :: t)
  | cut (part : List α) {s t : List α} : Cut mark s t → Cut mark (part ++ s) (mark ++ t)

/-- The two have no letter in common. -/
def NoCommonLetter (word mark : List α) : Prop := ∀ c ∈ word, c ∉ mark

/-- A text of which nothing is cut out. -/
theorem Cut.refl (mark s : List α) : Cut mark s s := by
  induction s with
  | nil => exact .nil
  | cons c s ih => exact ih.keep c

/-- A word without a letter of the mark is not found across it. -/
theorem infix_append_of_apart {word mark t : List α} (hne : word ≠ []) (hapart : NoCommonLetter word mark)
    (h : word <:+: mark ++ t) : word <:+: t := by
  induction mark with
  | nil => exact h
  | cons c mark ih =>
    rcases List.infix_cons_iff.mp h with hbegins | hinside
    · obtain ⟨d, rest, rfl⟩ := List.exists_cons_of_ne_nil hne
      have hd : d = c := (List.cons_prefix_cons.mp hbegins).1
      exact absurd (hd ▸ List.mem_cons_self ..) (hapart d (List.mem_cons_self ..))
    · exact ih (fun d hd hmem => hapart d hd (List.mem_cons_of_mem _ hmem)) hinside

section Cuts

variable {word mark s t : List α}

/-- A word without a letter of the mark begins the result only if it begins the text. -/
theorem Cut.prefix_of_apart (h : Cut mark s t) (hmark : mark ≠ []) (hapart : NoCommonLetter word mark)
    (hbegins : word <+: t) : word <+: s := by
  induction h generalizing word with
  | nil => exact hbegins
  | keep c _ ih =>
    cases word with
    | nil => exact List.nil_prefix
    | cons d rest =>
      obtain ⟨rfl, hrest⟩ := List.cons_prefix_cons.mp hbegins
      exact List.cons_prefix_cons.mpr
        ⟨rfl, ih (fun e he => hapart e (List.mem_cons_of_mem _ he)) hrest⟩
  | cut part _ ih =>
    cases word with
    | nil => exact List.nil_prefix
    | cons d rest =>
      obtain ⟨c, tail, rfl⟩ := List.exists_cons_of_ne_nil hmark
      have hd : d = c := (List.cons_prefix_cons.mp hbegins).1
      exact absurd (hd ▸ List.mem_cons_self ..) (hapart d (List.mem_cons_self ..))

/-- A word without a letter of the mark is in the result only if it is in the text. -/
theorem Cut.infix_of_apart (h : Cut mark s t) (hmark : mark ≠ []) (hne : word ≠ [])
    (hapart : NoCommonLetter word mark) (hinside : word <:+: t) : word <:+: s := by
  induction h with
  | nil => exact hinside
  | keep c hcut ih =>
    rcases List.infix_cons_iff.mp hinside with hbegins | hinside
    · exact ((hcut.keep c).prefix_of_apart hmark hapart hbegins).isInfix
    · exact List.infix_cons_iff.mpr (.inr (ih hinside))
  | cut part _ ih =>
    exact (ih (infix_append_of_apart hne hapart hinside)).trans (List.suffix_append part _).isInfix

end Cuts

section Scanner

variable (find : List α → Option ℕ) (mark : List α)

/-- `find` tells how many letters match at the beginning of a text. The scanner skips the letters of a
match that are left, or looks for one. -/
def mask : ℕ → List α → List α
  | _, [] => []
  | left + 1, _ :: rest => mask left rest
  | 0, c :: rest =>
      match find (c :: rest) with
      | some (left + 1) => mark ++ mask left rest
      | _ => c :: mask 0 rest

/-- INTERNAL: there is nothing to mask. -/
@[simp] theorem mask_nil (left : ℕ) : mask find mark left [] = [] := by
  cases left <;> rfl

/-- INTERNAL: what is skipped is left out. -/
theorem mask_skip (left : ℕ) (s : List α) : mask find mark left s = mask find mark 0 (s.drop left) := by
  induction left generalizing s with
  | zero => rfl
  | succ left ih =>
    cases s with
    | nil => simp
    | cons c rest => exact ih rest

variable {find mark}

/-- INTERNAL: a match is replaced by the mark. -/
theorem mask_match {s : List α} {n : ℕ} (h : find s = some n) (hn : 0 < n) (hs : s ≠ []) :
    mask find mark 0 s = mark ++ mask find mark 0 (s.drop n) := by
  obtain ⟨c, rest, rfl⟩ := List.exists_cons_of_ne_nil hs
  obtain ⟨left, rfl⟩ := Nat.exists_eq_succ_of_ne_zero (Nat.pos_iff_ne_zero.mp hn)
  rw [mask, h]
  exact congrArg (mark ++ ·) (mask_skip find mark left rest)

/-- INTERNAL: where nothing matches the letter is kept. -/
theorem mask_keep {c : α} {rest : List α} (h : ∀ n, 0 < n → find (c :: rest) ≠ some n) :
    mask find mark 0 (c :: rest) = c :: mask find mark 0 rest := by
  rw [mask]
  split
  · next left heq => exact absurd heq (h _ (Nat.succ_pos left))
  · rfl

/-- The letters at which no match begins are kept. -/
theorem mask_append_of_no_match {part rest : List α}
    (h : ∀ before after, part = before ++ after → after ≠ [] →
      ∀ n, 0 < n → find (after ++ rest) ≠ some n) :
    mask find mark 0 (part ++ rest) = part ++ mask find mark 0 rest := by
  induction part with
  | nil => rfl
  | cons c part ih =>
    have hkeep : mask find mark 0 (c :: (part ++ rest)) = c :: mask find mark 0 (part ++ rest) :=
      mask_keep (h [] (c :: part) rfl (List.cons_ne_nil _ _))
    rw [List.cons_append, hkeep, ih, List.cons_append]
    intro before after heq hne
    exact h (c :: before) after (by rw [heq]; rfl) hne

/-- INTERNAL: at each place there is a match, or there is none. -/
theorem match_or_not (find : List α → Option ℕ) (s : List α) :
    (∃ n, 0 < n ∧ find s = some n) ∨ ∀ n, 0 < n → find s ≠ some n := by
  by_cases h : ∃ n, 0 < n ∧ find s = some n
  · exact .inl h
  · exact .inr fun n hn heq => h ⟨n, hn, heq⟩

/-- Masking cuts parts out. -/
theorem cut_mask (s : List α) : Cut mark s (mask find mark 0 s) := by
  induction hlength : s.length using Nat.strong_induction_on generalizing s with
  | _ length ih =>
    cases s with
    | nil => exact .nil
    | cons c rest =>
      rcases match_or_not find (c :: rest) with ⟨n, hn, hfind⟩ | hnone
      · rw [mask_match hfind hn (List.cons_ne_nil _ _)]
        have hshorter : ((c :: rest).drop n).length < length := by
          rw [List.length_drop, hlength]
          have hpos : 0 < length := by rw [← hlength]; exact Nat.succ_pos _
          omega
        have hcut := (ih _ hshorter ((c :: rest).drop n) rfl).cut ((c :: rest).take n)
        rwa [List.take_append_drop] at hcut
      · rw [mask_keep hnone]
        exact (ih rest.length (by rw [← hlength]; exact Nat.lt_succ_self _) rest rfl).keep c

end Scanner

/-! ## Places -/

section Places

variable (find : List α → Option ℕ) (s : List α)

/-- The letters of a match that are left when the scanner comes to a place. -/
def skipAt : ℕ → ℕ
  | 0 => 0
  | i + 1 =>
    match skipAt i with
    | left + 1 => left
    | 0 => match find (s.drop i) with
      | some (left + 1) => left
      | _ => 0

/-- A match begins at a place that the scanner looks at. -/
def Selected (i n : ℕ) : Prop := skipAt find s i = 0 ∧ 0 < n ∧ find (s.drop i) = some n

/-- The scanner keeps the letter: it is looked at, and no match begins there. -/
def Kept (i : ℕ) : Prop := skipAt find s i = 0 ∧ ∀ n, 0 < n → find (s.drop i) ≠ some n

variable {find s}

/-- INTERNAL: one letter less is left to be skipped. -/
theorem skipAt_succ_of_pos {i left : ℕ} (h : skipAt find s i = left + 1) :
    skipAt find s (i + 1) = left := by
  rw [skipAt, h]

/-- INTERNAL: after a match the rest of it is skipped. -/
theorem skipAt_succ_of_selected {i n : ℕ} (h : Selected find s i (n + 1)) :
    skipAt find s (i + 1) = n := by
  rw [skipAt, h.1]
  simp only [h.2.2]

/-- INTERNAL: after a kept letter nothing is. -/
theorem skipAt_succ_of_kept {i : ℕ} (h : Kept find s i) : skipAt find s (i + 1) = 0 := by
  rw [skipAt, h.1]
  dsimp only
  split
  · next left heq => exact absurd heq (h.2 _ (Nat.succ_pos left))
  · rfl

/-- A place is inside of a match, or one begins there, or its letter is kept. -/
theorem place_cases (find : List α → Option ℕ) (s : List α) (i : ℕ) :
    (∃ left, skipAt find s i = left + 1) ∨ (∃ n, Selected find s i n) ∨ Kept find s i := by
  cases hskip : skipAt find s i with
  | succ left => exact .inl ⟨left, rfl⟩
  | zero =>
    rcases match_or_not find (s.drop i) with ⟨n, hn, hfind⟩ | hnone
    · exact .inr (.inl ⟨n, hskip, hn, hfind⟩)
    · exact .inr (.inr ⟨hskip, hnone⟩)

/-- What the scanner writes at a place. -/
def written (find : List α → Option ℕ) (mark s : List α) (i : ℕ) : List α :=
  if 0 < skipAt find s i then []
  else if 0 < (find (s.drop i)).getD 0 then mark
  else s[i]?.toList

/-- INTERNAL: a skipped letter is not written. -/
theorem written_of_pos (mark : List α) {i left : ℕ} (h : skipAt find s i = left + 1) :
    written find mark s i = [] := by
  unfold written
  rw [h, if_pos (Nat.succ_pos left)]

/-- INTERNAL: the mark is written for a match. -/
theorem written_of_selected (mark : List α) {i n : ℕ} (h : Selected find s i n) :
    written find mark s i = mark := by
  have hn : 0 < (find (s.drop i)).getD 0 := by
    rw [h.2.2]
    exact h.2.1
  unfold written
  rw [h.1, if_neg (Nat.lt_irrefl 0), if_pos hn]

/-- INTERNAL: a kept letter is written. -/
theorem written_of_kept (mark : List α) {i : ℕ} (h : Kept find s i) :
    written find mark s i = s[i]?.toList := by
  have hzero : ¬ 0 < (find (s.drop i)).getD 0 := by
    cases hfind : find (s.drop i) with
    | none => exact Nat.lt_irrefl 0
    | some n => exact fun hn => h.2 n hn hfind
  unfold written
  rw [h.1, if_neg (Nat.lt_irrefl 0), if_neg hzero]

/-- A letter is written if and only if it is kept, unless the mark is that letter. -/
theorem written_eq_letter_iff {mark : List α} {i : ℕ} (hi : i < s.length)
    (hmark : mark ≠ [s[i]]) : written find mark s i = [s[i]] ↔ Kept find s i := by
  constructor
  · intro hwritten
    rcases place_cases find s i with ⟨left, hleft⟩ | ⟨n, hselected⟩ | hkept
    · rw [written_of_pos mark hleft] at hwritten
      cases hwritten
    · exact absurd ((written_of_selected mark hselected).symm.trans hwritten) hmark
    · exact hkept
  · intro hkept
    rw [written_of_kept mark hkept, List.getElem?_eq_getElem hi]
    rfl

/-- INTERNAL: the scanner at work, up to a place. -/
theorem mask_eq_written_append (mark : List α) {i : ℕ} (hi : i ≤ s.length) :
    mask find mark 0 s = (List.range i).flatMap (written find mark s) ++
      mask find mark (skipAt find s i) (s.drop i) := by
  induction i with
  | zero => simp [skipAt]
  | succ i ih =>
    have hlt : i < s.length := hi
    have hdrop : s.drop i = s[i] :: s.drop (i + 1) := List.drop_eq_getElem_cons hlt
    have hstep : mask find mark (skipAt find s i) (s.drop i) =
        written find mark s i ++ mask find mark (skipAt find s (i + 1)) (s.drop (i + 1)) := by
      rcases place_cases find s i with ⟨left, hleft⟩ | ⟨n, hselected⟩ | hkept
      · rw [skipAt_succ_of_pos hleft, written_of_pos mark hleft, hleft, hdrop]
        rfl
      · obtain ⟨left, rfl⟩ := Nat.exists_eq_succ_of_ne_zero (Nat.pos_iff_ne_zero.mp hselected.2.1)
        rw [skipAt_succ_of_selected hselected, written_of_selected mark hselected, hselected.1,
          mask_match hselected.2.2 (Nat.succ_pos left) (hdrop ▸ List.cons_ne_nil _ _),
          mask_skip find mark left, List.drop_drop, List.drop_drop, Nat.succ_eq_add_one, Nat.add_assoc,
          Nat.add_comm 1 left]
      · have hkeep := hkept.2
        rw [hdrop] at hkeep
        rw [skipAt_succ_of_kept hkept, written_of_kept mark hkept, hkept.1, hdrop, mask_keep hkeep,
          List.getElem?_eq_getElem hlt]
        rfl
    rw [ih (Nat.le_of_lt hlt), hstep, List.range_succ, List.flatMap_append, List.append_assoc,
      List.flatMap_singleton]

/-- The result is what is written at each place: the mark where a match begins, the letter where it is
kept. -/
theorem mask_eq_written (mark : List α) :
    mask find mark 0 s = (List.range s.length).flatMap (written find mark s) := by
  rw [mask_eq_written_append mark le_rfl]
  simp

/-- INTERNAL: behind the beginning of a match, its letters are skipped. -/
theorem skipAt_inside {i n : ℕ} (h : Selected find s i n) {j : ℕ} (hj : j < n) :
    skipAt find s (i + 1 + j) = n - 1 - j := by
  obtain ⟨left, rfl⟩ := Nat.exists_eq_succ_of_ne_zero (Nat.pos_iff_ne_zero.mp h.2.1)
  induction j with
  | zero => exact skipAt_succ_of_selected h
  | succ j ih =>
    have hskip : skipAt find s (i + 1 + j) = (left - (j + 1)) + 1 := by
      rw [ih (Nat.lt_of_succ_lt hj)]
      omega
    have hnext := skipAt_succ_of_pos hskip
    rw [Nat.add_assoc _ j 1] at hnext
    rw [hnext]
    omega

/-- Behind a match the scanner looks again. -/
theorem skipAt_after {i n : ℕ} (h : Selected find s i n) : skipAt find s (i + n) = 0 := by
  have hn := h.2.1
  have hinside := skipAt_inside h (Nat.sub_lt hn Nat.one_pos)
  have hplace : i + 1 + (n - 1) = i + n := by omega
  rw [hplace] at hinside
  omega

/-- A letter that is skipped belongs to a match. -/
theorem selected_of_skipAt {i left : ℕ} (h : skipAt find s i = left + 1) :
    ∃ j n, j < i ∧ Selected find s j n ∧ j + n = i + (left + 1) := by
  induction i generalizing left with
  | zero => cases h
  | succ i ih =>
    rcases place_cases find s i with ⟨more, hmore⟩ | ⟨n, hselected⟩ | hkept
    · obtain rfl : more = left + 1 := (skipAt_succ_of_pos hmore).symm.trans h
      obtain ⟨j, n, hj, hselected, hend⟩ := ih hmore
      exact ⟨j, n, by omega, hselected, by omega⟩
    · obtain ⟨m, rfl⟩ := Nat.exists_eq_succ_of_ne_zero (Nat.pos_iff_ne_zero.mp hselected.2.1)
      obtain rfl : m = left + 1 := (skipAt_succ_of_selected hselected).symm.trans h
      exact ⟨i, _, Nat.lt_succ_self i, hselected, by omega⟩
    · rw [skipAt_succ_of_kept hkept] at h
      cases h

end Places

/-! ## Words to be masked -/

section Words

variable [DecidableEq α]

/-- The first of the words that a text begins with. -/
def firstOf (words : List (List α)) (s : List α) : Option ℕ :=
  (words.find? fun word => decide (word <+: s)).map List.length

/-- INTERNAL: the search for one word. -/
theorem firstOf_singleton (word s : List α) :
    firstOf [word] s = if word <+: s then some word.length else none := by
  unfold firstOf
  by_cases h : word <+: s <;> simp [h]

/-- One of the words begins the text, and its length is told. -/
theorem firstOf_eq_some {words : List (List α)} {s : List α} {n : ℕ} (h : firstOf words s = some n) :
    ∃ word ∈ words, word <+: s ∧ word.length = n := by
  obtain ⟨word, hfind, rfl⟩ := Option.map_eq_some_iff.mp h
  have hbegins : decide (word <+: s) = true :=
    List.find?_some (p := fun word => decide (word <+: s)) hfind
  exact ⟨word, List.mem_of_find?_eq_some hfind, of_decide_eq_true hbegins, rfl⟩

/-- INTERNAL: a text that begins with a word has a first one. -/
theorem exists_firstOf {words : List (List α)} (hwords : ∀ word ∈ words, word ≠ []) {word s : List α}
    (hword : word ∈ words) (hbegins : word <+: s) : ∃ n, 0 < n ∧ firstOf words s = some n := by
  have hfound : (words.find? fun other => decide (other <+: s)).isSome := by
    rw [List.find?_isSome]
    exact ⟨word, hword, decide_eq_true hbegins⟩
  obtain ⟨first, hfirst⟩ := Option.isSome_iff_exists.mp hfound
  refine ⟨first.length, List.length_pos_iff.mpr (hwords first (List.mem_of_find?_eq_some hfirst)), ?_⟩
  unfold firstOf
  rw [hfirst]
  rfl

/-- The words are masked, and no new ones come about. -/
theorem not_infix_mask {words : List (List α)} (hwords : ∀ word ∈ words, word ≠ [])
    {word mark : List α} (hmark : mark ≠ []) (hword : word ∈ words) (hapart : NoCommonLetter word mark)
    (s : List α) : ¬ word <:+: mask (firstOf words) mark 0 s := by
  have hne : word ≠ [] := hwords word hword
  intro hinside
  induction hlength : s.length using Nat.strong_induction_on generalizing s with
  | _ length ih =>
    cases s with
    | nil => exact hne (List.eq_nil_of_infix_nil hinside)
    | cons c rest =>
      rcases match_or_not (firstOf words) (c :: rest) with ⟨n, hn, hfind⟩ | hnone
      · rw [mask_match hfind hn (List.cons_ne_nil _ _)] at hinside
        refine ih _ ?_ _ (infix_append_of_apart hne hapart hinside) rfl
        rw [List.length_drop, hlength]
        have hrest : 0 < length := by rw [← hlength]; exact Nat.succ_pos _
        omega
      · rw [mask_keep hnone] at hinside
        rcases List.infix_cons_iff.mp hinside with hbegins | hlater
        · have hbegins : word <+: c :: rest :=
            ((cut_mask rest).keep c).prefix_of_apart hmark hapart hbegins
          obtain ⟨n, hn, hfirst⟩ := exists_firstOf hwords hword hbegins
          exact hnone n hn hfirst
        · exact ih rest.length (by rw [← hlength]; exact Nat.lt_succ_self _) rest hlater rfl

/-- The letter belongs to a word in the text. -/
def Covers (words : List (List α)) (s : List α) (i : ℕ) : Prop :=
  ∃ j, ∃ word ∈ words, word <+: s.drop j ∧ j ≤ i ∧ i < j + word.length

/-- The places one comes to by laying words end to end, from the beginning of a stretch of letters that
belong to words: at each place the first of the words that the text goes on with. -/
inductive Laid (words : List (List α)) (s : List α) : ℕ → Prop
  | start {p : ℕ} : Covers words s p → (∀ q, p = q + 1 → ¬ Covers words s q) → Laid words s p
  | next {p n : ℕ} : Laid words s p → firstOf words (s.drop p) = some n → Laid words s (p + n)

section Laying

variable {words : List (List α)} (hwords : ∀ word ∈ words, word ≠ []) {s : List α}

/-- A letter of a match belongs to a word. -/
theorem covers_of_selected {i n : ℕ} (h : Selected (firstOf words) s i n) {k : ℕ} (hi : i ≤ k)
    (hk : k < i + n) : Covers words s k := by
  obtain ⟨word, hword, hbegins, rfl⟩ := firstOf_eq_some h.2.2
  exact ⟨i, word, hword, hbegins, hi, hk⟩

include hwords

/-- INTERNAL: the scanner looks at each place where a word is laid. -/
theorem skipAt_of_laid {p : ℕ} (h : Laid words s p) : skipAt (firstOf words) s p = 0 := by
  induction h with
  | @start p hcovers hstart =>
    cases p with
    | zero => rfl
    | succ q =>
      have hnot := hstart q rfl
      rcases place_cases (firstOf words) s q with ⟨left, hleft⟩ | ⟨n, hselected⟩ | hkept
      · obtain ⟨j, n, hj, hselected, hend⟩ := selected_of_skipAt hleft
        exact absurd (covers_of_selected hselected (by omega) (by omega)) hnot
      · have hn := hselected.2.1
        exact absurd (covers_of_selected hselected le_rfl (by omega)) hnot
      · exact skipAt_succ_of_kept hkept
  | @next p n _ hfirst ih =>
    obtain ⟨word, hword, -, rfl⟩ := firstOf_eq_some hfirst
    exact skipAt_after ⟨ih, List.length_pos_iff.mpr (hwords word hword), hfirst⟩

/-- INTERNAL: a letter of a word at which the scanner looks is a place where one is laid, as long as
the words go on. -/
theorem laid_of_skipAt (hgo : ∀ p, Laid words s p → Covers words s p →
    ∃ word ∈ words, word <+: s.drop p) {i : ℕ} (hskip : skipAt (firstOf words) s i = 0)
    (hcovers : Covers words s i) : Laid words s i := by
  induction i using Nat.strong_induction_on with
  | _ i ih =>
    cases i with
    | zero => exact .start hcovers fun q hq => by cases hq
    | succ q =>
      have hselected_next : ∀ j n, j < q + 1 → Selected (firstOf words) s j n → j + n = q + 1 →
          Laid words s (q + 1) := by
        intro j n hj hselected hend
        have hn := hselected.2.1
        have hlaid := ih j hj hselected.1 (covers_of_selected hselected le_rfl (by omega))
        exact hend ▸ hlaid.next hselected.2.2
      rcases place_cases (firstOf words) s q with ⟨left, hleft⟩ | ⟨n, hselected⟩ | hkept
      · obtain ⟨j, n, hj, hselected, hend⟩ := selected_of_skipAt hleft
        have hzero : left = 0 := (skipAt_succ_of_pos hleft).symm.trans hskip
        exact hselected_next j n (by omega) hselected (by omega)
      · obtain ⟨m, rfl⟩ := Nat.exists_eq_succ_of_ne_zero (Nat.pos_iff_ne_zero.mp hselected.2.1)
        have hzero : m = 0 := (skipAt_succ_of_selected hselected).symm.trans hskip
        exact hselected_next q _ (Nat.lt_succ_self q) hselected (by omega)
      · refine .start hcovers fun other hother hcovered => ?_
        obtain rfl : q = other := by omega
        obtain ⟨word, hword, hbegins⟩ := hgo q (ih q (Nat.lt_succ_self q) hkept.1 hcovered) hcovered
        obtain ⟨n, hn, hfirst⟩ := exists_firstOf hwords hword hbegins
        exact hkept.2 n hn hfirst

/-- No letter of a word is kept if and only if the words, laid end to end, never come to a letter of a
word at which none begins. -/
theorem none_kept_iff_laid : (∀ i, Covers words s i → ¬ Kept (firstOf words) s i) ↔
    ∀ p, Laid words s p → Covers words s p → ∃ word ∈ words, word <+: s.drop p := by
  constructor
  · intro hnone p hlaid hcovers
    have hskip := skipAt_of_laid hwords hlaid
    rcases match_or_not (firstOf words) (s.drop p) with ⟨n, -, hfirst⟩ | hnot
    · obtain ⟨word, hword, hbegins, -⟩ := firstOf_eq_some hfirst
      exact ⟨word, hword, hbegins⟩
    · exact absurd ⟨hskip, hnot⟩ (hnone p hcovers)
  · intro hgo i hcovers hkept
    have hlaid := laid_of_skipAt hwords hgo hkept.1 hcovers
    obtain ⟨word, hword, hbegins⟩ := hgo i hlaid hcovers
    obtain ⟨n, hn, hfirst⟩ := exists_firstOf hwords hword hbegins
    exact hkept.2 n hn hfirst

end Laying

omit [DecidableEq α] in
/-- INTERNAL: a word covers letters of the text only. -/
theorem lt_length_of_covers {words : List (List α)} {s : List α} {i : ℕ} (h : Covers words s i) :
    i < s.length := by
  obtain ⟨j, word, -, hbegins, hle, hlt⟩ := h
  have hlength := hbegins.length_le
  rw [List.length_drop] at hlength
  omega

/-- What one reads from a place on: letters that belong to no word as they are, and a mark for each word
that is laid. One may stop anywhere. -/
inductive Reads (words : List (List α)) (mark s : List α) : ℕ → List α → Prop
  | stop (p : ℕ) : Reads words mark s p []
  | letter {p : ℕ} {c : α} {t : List α} : ¬ Covers words s p → s[p]? = some c →
      Reads words mark s (p + 1) t → Reads words mark s p (c :: t)
  | word {p n : ℕ} {t : List α} : Laid words s p → firstOf words (s.drop p) = some n →
      Reads words mark s (p + n) t → Reads words mark s p (mark ++ t)

section Reading

variable {words : List (List α)} (hwords : ∀ word ∈ words, word ≠ []) {mark s : List α}

include hwords

/-- What one reads is the beginning of what the scanner writes. -/
theorem prefix_mask_of_reads {p : ℕ} {t : List α} (h : Reads words mark s p t)
    (hskip : skipAt (firstOf words) s p = 0) : t <+: mask (firstOf words) mark 0 (s.drop p) := by
  induction h with
  | stop p => exact List.nil_prefix
  | @letter p c t hnot hc _ ih =>
    have hkept : Kept (firstOf words) s p := by
      refine ⟨hskip, fun n hn hfind => hnot ?_⟩
      exact covers_of_selected ⟨hskip, hn, hfind⟩ le_rfl (Nat.lt_add_of_pos_right hn)
    obtain ⟨hlt, rfl⟩ := List.getElem?_eq_some_iff.mp hc
    have hdrop : s.drop p = s[p] :: s.drop (p + 1) := List.drop_eq_getElem_cons hlt
    have hkeep := hkept.2
    rw [hdrop] at hkeep ⊢
    rw [mask_keep hkeep]
    exact List.cons_prefix_cons.mpr ⟨rfl, ih (skipAt_succ_of_kept hkept)⟩
  | @word p n t hlaid hfirst _ ih =>
    obtain ⟨word, hword, hbegins, rfl⟩ := firstOf_eq_some hfirst
    have hpos : 0 < word.length := List.length_pos_iff.mpr (hwords word hword)
    have hne : s.drop p ≠ [] := fun hnil => hwords word hword (List.prefix_nil.mp (hnil ▸ hbegins))
    have hselected : Selected (firstOf words) s p word.length :=
      ⟨skipAt_of_laid hwords hlaid, hpos, hfirst⟩
    rw [mask_match hfirst hpos hne, List.drop_drop]
    exact (List.prefix_append_right_inj mark).mpr (ih (skipAt_after hselected))

/-- As long as the words go on, one can read all that the scanner writes. -/
theorem reads_mask (hgo : ∀ p, Laid words s p → Covers words s p →
    ∃ word ∈ words, word <+: s.drop p) {p : ℕ} (hskip : skipAt (firstOf words) s p = 0) :
    Reads words mark s p (mask (firstOf words) mark 0 (s.drop p)) := by
  induction hleft : s.length - p using Nat.strong_induction_on generalizing p with
  | _ left ih =>
    rcases Nat.lt_or_ge p s.length with hlt | hge
    · have hdrop : s.drop p = s[p] :: s.drop (p + 1) := List.drop_eq_getElem_cons hlt
      rcases place_cases (firstOf words) s p with ⟨more, hmore⟩ | ⟨n, hselected⟩ | hkept
      · rw [hskip] at hmore
        cases hmore
      · have hn := hselected.2.1
        have hlaid := laid_of_skipAt hwords hgo hskip (covers_of_selected hselected le_rfl (by omega))
        rw [mask_match hselected.2.2 hn (hdrop ▸ List.cons_ne_nil _ _), List.drop_drop]
        exact .word hlaid hselected.2.2 (ih _ (by omega) (skipAt_after hselected) rfl)
      · have hkeep := hkept.2
        rw [hdrop] at hkeep
        rw [hdrop, mask_keep hkeep]
        have hnot : ¬ Covers words s p := fun hcovers =>
          (none_kept_iff_laid hwords).mpr hgo p hcovers hkept
        exact .letter hnot (List.getElem?_eq_getElem hlt)
          (ih _ (by omega) (skipAt_succ_of_kept hkept) rfl)
    · rw [List.drop_eq_nil_of_le hge, mask_nil]
      exact .stop p

end Reading

end Words

/-! ## `String.replace` -/

open String.Slice.Pattern String.Slice.Pattern.Model

/-- What `String.replace` does with one step of a search. -/
def replaceStep (mark : String) {s : String.Slice} (done : String) : SearchStep s → String
  | .matched _ _ => done ++ mark.toSlice
  | .rejected start stop => done ++ s.slice! start stop

section Replace

variable {word : String} {s : String.Slice}

/-- INTERNAL: no match begins inside of a rejected part. -/
theorem no_match_of_rejected {startPos endPos : s.Pos} {before part after : String}
    (hnone : ∀ pos, startPos ≤ pos → pos < endPos → ¬ MatchesAt word pos)
    (hstart : startPos.Splits before (part ++ after)) (hend : endPos.Splits (before ++ part) after)
    {skipped rest : List Char} (hpart : part.toList = skipped ++ rest) (hrest : rest ≠ []) :
    ¬ word.toList <+: rest ++ after.toList := by
  rintro ⟨tail, htail⟩
  have hpieces : part = String.ofList skipped ++ String.ofList rest :=
    String.toList_inj.mp (by simpa using hpart)
  have hcopy : s.copy = (before ++ String.ofList skipped) ++ (String.ofList rest ++ after) := by
    rw [hstart.eq_append, hpieces, String.append_assoc, String.append_assoc]
  have hsplits := String.Slice.Pos.splits_ofEqAppend hcopy
  have hword : String.ofList rest ++ after = word ++ String.ofList tail :=
    String.toList_inj.mp (by simpa using htail.symm)
  refine hnone _ ?_ ?_ (ForwardStringSearcher.matchesAt_iff_splits.mpr ⟨_, _, hsplits.of_eq rfl hword⟩)
  · refine (hstart.le_iff_exists_eq_append hsplits).mpr ⟨String.ofList skipped, rfl, ?_⟩
    rw [hpieces, String.append_assoc]
  · refine (hsplits.lt_iff_exists_eq_append hend).mpr ⟨String.ofList rest, ?_, ?_, rfl⟩
    · simpa using hrest
    · rw [hpieces, String.append_assoc]

/-- INTERNAL: the matches that are found are masked from left to right. -/
theorem foldl_search (mark : String) (hword : word ≠ "") {pos : s.Pos}
    {steps : List (SearchStep s)} (hsteps : IsValidSearchFrom word pos steps) (before after done : String)
    (hpos : pos.Splits before after) :
    (steps.foldl (replaceStep mark) done).toList =
      done.toList ++ mask (firstOf [word.toList]) mark.toList 0 after.toList := by
  have hne : word.toList ≠ [] := fun h => hword (String.toList_eq_nil_iff.mp h)
  induction hsteps generalizing before after done with
  | endPos =>
    obtain ⟨-, rfl⟩ := String.Slice.splits_endPos_iff.mp hpos
    simp
  | matched hmatch _ ih =>
    obtain ⟨t₁, t₂, hstart, hend⟩ := ForwardStringSearcher.isLongestMatchAt_iff_splits.mp hmatch
    obtain ⟨rfl, rfl⟩ := hpos.eq hstart
    have hfind : firstOf [word.toList] (word ++ t₂).toList = some word.toList.length := by
      rw [firstOf_singleton, String.toList_append, if_pos (List.prefix_append _ _)]
    rw [List.foldl_cons, ih _ _ _ hend, mask_match hfind (List.length_pos_iff.mpr hne) (by simp [hne]),
      String.toList_append, List.drop_left]
    simp [replaceStep]
  | @mismatched _ startPos endPos hlt hnone _ ih =>
    obtain ⟨t₁, t₂, hend⟩ : ∃ t₁ t₂, endPos.Splits t₁ t₂ := ⟨_, _, endPos.splits⟩
    obtain ⟨part, -, rfl, rfl⟩ := (hpos.lt_iff_exists_eq_append hend).mp hlt
    obtain ⟨hle, hcopy⟩ := String.Slice.copy_slice_eq_iff_splits.mpr ⟨_, _, hpos, hend⟩
    rw [List.foldl_cons, ih _ _ _ hend, String.toList_append, mask_append_of_no_match]
    · simp [replaceStep, ← String.Slice.slice_eq_slice! (h := hle), hcopy]
    · intro skipped rest hpart hrest n _
      rw [firstOf_singleton, if_neg (no_match_of_rejected hnone hpos hend hpart hrest)]
      exact (Option.some_ne_none n).symm

/-- `str.replace` masks a word. -/
theorem toList_replace {text word mark : String} (hword : word ≠ "") :
    (text.replace word mark).toList = mask (firstOf [word.toList]) mark.toList 0 text.toList := by
  have hvalid := (ForwardStringSearcher.lawfulToForwardSearcherModel hword).isValidSearchFrom_toList
    text.toSlice
  have h := foldl_search mark hword hvalid "" text "" (by simp)
  rw [String.toList_empty, List.nil_append] at h
  rw [← h]
  unfold String.replace String.Slice.replace
  rw [← Std.Iter.foldl_toList]
  congr 2
  funext done step
  cases step <;> rfl

end Replace

end Shea.Computation
