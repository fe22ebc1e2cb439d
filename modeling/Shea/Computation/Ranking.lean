import Mathlib.Data.List.Sort

/-!
# Places in a stable sort

Where an element of a list ends up when the list is sorted: after the elements that rank before it,
and, among those of the same rank, after the ones that stood before it already. So it is one of the
first `k` exactly when fewer than `k` elements go before it.
-/

set_option autoImplicit false

namespace Shea.Computation

variable {α : Type} {r : α → α → Prop} {l front back : List α} {a b : α}

/-- Two members of an ordered list stand in it in their order. -/
theorem pair_sublist_of_pairwise (h : l.Pairwise r) (hasymm : ∀ a b, r a b → ¬ r b a)
    (ha : a ∈ l) (hb : b ∈ l) (hab : r a b) : [a, b].Sublist l := by
  induction l with
  | nil => cases ha
  | cons x rest ih =>
    obtain ⟨hx, hrest⟩ := List.pairwise_cons.mp h
    have hne : b ≠ a := by
      rintro rfl
      exact hasymm _ _ hab hab
    rcases List.mem_cons.mp ha with rfl | hin
    · apply List.Sublist.cons_cons
      apply List.singleton_sublist.mpr
      exact (List.mem_cons.mp hb).resolve_left hne
    · rcases List.mem_cons.mp hb with rfl | hb
      · exact absurd (hx a hin) (hasymm _ _ hab)
      · exact (ih hrest hin hb).cons x

/-- What stands before a member of the front stands in the front. -/
theorem mem_front_of_pair (hnodup : (front ++ back).Nodup) (hb : b ∈ front)
    (h : [a, b].Sublist (front ++ back)) : a ∈ front := by
  obtain ⟨l₁, l₂, hsplit, h₁, h₂⟩ := List.sublist_append_iff.mp h
  have hout : b ∉ back := by
    intro hin
    exact (List.nodup_append.mp hnodup).2.2 b hb b hin rfl
  cases l₁ with
  | nil =>
    rw [List.nil_append] at hsplit
    exact absurd (h₂.subset (hsplit ▸ by simp)) hout
  | cons first rest =>
    rw [List.cons_append, List.cons.injEq] at hsplit
    obtain ⟨rfl, -⟩ := hsplit
    exact h₁.subset (List.mem_cons_self ..)

/-! ## Stable sorting -/

section Stable

variable {k : ℕ}

/-- In a list without repeats, one of two members stands before the other. -/
theorem pair_sublist_or (ha : a ∈ l) (hb : b ∈ l) (hne : a ≠ b) :
    [a, b].Sublist l ∨ [b, a].Sublist l := by
  induction l with
  | nil => cases ha
  | cons x rest ih =>
    rcases List.mem_cons.mp ha with rfl | harest
    · left
      apply List.Sublist.cons_cons
      apply List.singleton_sublist.mpr
      exact (List.mem_cons.mp hb).resolve_left hne.symm
    · rcases List.mem_cons.mp hb with rfl | hbrest
      · right
        apply List.Sublist.cons_cons
        exact List.singleton_sublist.mpr harest
      · exact (ih harest hbrest).imp (·.cons x) (·.cons x)

/-- And not the other way round. -/
theorem not_pair_sublist (hnodup : l.Nodup) (h : [a, b].Sublist l) : ¬ [b, a].Sublist l := by
  intro hback
  induction l with
  | nil => cases h
  | cons x rest ih =>
    obtain ⟨hx, hrest⟩ := List.nodup_cons.mp hnodup
    rcases List.sublist_cons_iff.mp h with h | ⟨tail, heq, htail⟩
    · rcases List.sublist_cons_iff.mp hback with hback | ⟨tail, heq, -⟩
      · exact ih hrest h hback
      · injection heq with hbx _
        apply hx
        rw [← hbx]
        exact h.subset (by simp)
    · injection heq with hax htl
      have hb : b ∈ rest := htail.subset (by simp [← htl])
      have hbx : b ≠ x := by
        rintro rfl
        exact hx hb
      rcases List.sublist_cons_iff.mp hback with hback | ⟨tail', heq', -⟩
      · apply hx
        rw [← hax]
        exact hback.subset (by simp)
      · injection heq' with hbx' _
        exact hbx hbx'

variable (r)

/-- An element goes before another one: it ranks no later, and stands before it if they rank the
same. -/
def GoesBefore (l : List α) (b a : α) : Prop := r b a ∧ (r a b → [b, a].Sublist l)

instance [DecidableEq α] [DecidableRel r] (b a : α) : Decidable (GoesBefore r l b a) :=
  inferInstanceAs (Decidable (_ ∧ (_ → _)))

/-- In a list without repetitions nothing goes both ways. -/
theorem goesBefore_asymm (hnodup : l.Nodup) (h : GoesBefore r l b a) : ¬ GoesBefore r l a b := by
  intro hback
  exact not_pair_sublist hnodup (h.2 hback.1) (hback.2 h.1)

/-- A stable sort puts an element after exactly those that go before it. -/
theorem pairwise_goesBefore [DecidableRel r] [Std.Total r] [IsTrans α r] (hnodup : l.Nodup) :
    (l.insertionSort r).Pairwise (GoesBefore r l) := by
  have hsorted : (l.insertionSort r).Nodup := (List.perm_insertionSort r l).nodup_iff.mpr hnodup
  rw [List.pairwise_iff_forall_sublist]
  intro b a hpair
  have hba : r b a := List.pairwise_iff_forall_sublist.mp (List.pairwise_insertionSort r l) hpair
  refine ⟨hba, fun hab => ?_⟩
  have hb : b ∈ l := (List.mem_insertionSort r).mp (hpair.subset (by simp))
  have ha : a ∈ l := (List.mem_insertionSort r).mp (hpair.subset (by simp))
  have hne : b ≠ a := by
    rintro rfl
    exact not_pair_sublist hsorted hpair hpair
  rcases pair_sublist_or hb ha hne with h | h
  · exact h
  · exact absurd (List.pair_sublist_insertionSort hab h) (not_pair_sublist hsorted hpair)

variable {r}

/-- In a list ordered by an asymmetric relation, the first `k` members are those that fewer than `k`
go before. -/
theorem mem_take_iff_countP [DecidableRel r] (h : l.Pairwise r) (hasymm : ∀ a b, r a b → ¬ r b a)
    (ha : a ∈ l) : a ∈ l.take k ↔ l.countP (fun b => r b a) < k := by
  induction l generalizing k with
  | nil => cases ha
  | cons x rest ih =>
    obtain ⟨hx, hrest⟩ := List.pairwise_cons.mp h
    cases k with
    | zero => simp
    | succ k =>
      rw [List.take_succ_cons, List.mem_cons, List.countP_cons]
      by_cases hax : a = x
      · subst hax
        have hself : ¬ r a a := fun hr => hasymm a a hr hr
        have hnone : rest.countP (fun b => r b a) = 0 := by
          simp only [List.countP_eq_zero, decide_eq_true_eq]
          intro b hb
          exact hasymm a b (hx b hb)
        simp [hself, hnone]
      · have harest : a ∈ rest := (List.mem_cons.mp ha).resolve_left hax
        have hfirst : r x a := hx a harest
        rw [ih hrest harest]
        simp [hax, hfirst]

/-- After a stable sort of a list without repeats, the first `k` are those that fewer than `k` go
before. -/
theorem mem_take_insertionSort [DecidableEq α] [DecidableRel r] [Std.Total r] [IsTrans α r]
    (hnodup : l.Nodup) (ha : a ∈ l) :
    a ∈ (l.insertionSort r).take k ↔ l.countP (fun b => GoesBefore r l b a) < k := by
  rw [← (List.perm_insertionSort r l).countP_eq]
  apply mem_take_iff_countP (pairwise_goesBefore r hnodup)
  · intro a b hab
    exact goesBefore_asymm r hnodup hab
  · exact (List.mem_insertionSort r).mpr ha

/-- Of the first `k` after a stable sort, those that go before another stand before it. -/
theorem pair_take_insertionSort [DecidableRel r] [Std.Total r] [IsTrans α r] (hnodup : l.Nodup)
    (ha : a ∈ (l.insertionSort r).take k) (hb : b ∈ (l.insertionSort r).take k) :
    [a, b].Sublist ((l.insertionSort r).take k) ↔ GoesBefore r l a b := by
  have hordered : ((l.insertionSort r).take k).Pairwise (GoesBefore r l) :=
    (pairwise_goesBefore r hnodup).sublist (List.take_sublist _ _)
  constructor
  · exact List.pairwise_iff_forall_sublist.mp hordered
  · exact pair_sublist_of_pairwise hordered (fun _ _ hab => goesBefore_asymm r hnodup hab) ha hb

end Stable

/-! ## Some of the members -/

section Some

variable {β : Type} {f : α → Option β} {x y : β}

/-- Two images stand in the order of what they are the images of. -/
theorem pair_sublist_filterMap (hnodup : (l.filterMap f).Nodup) (ha : a ∈ l) (hb : b ∈ l)
    (hx : f a = some x) (hy : f b = some y) : [x, y].Sublist (l.filterMap f) ↔ [a, b].Sublist l := by
  have hmap : ∀ {c d : α} {u v : β}, f c = some u → f d = some v → [c, d].Sublist l →
      [u, v].Sublist (l.filterMap f) := by
    intro c d u v hu hv hpair
    have himage := hpair.filterMap f
    rw [List.filterMap_cons_some hu, List.filterMap_cons_some hv] at himage
    exact himage
  constructor
  · intro hpair
    have hne : a ≠ b := by
      rintro rfl
      obtain rfl := Option.some.inj (hx.symm.trans hy)
      exact not_pair_sublist hnodup hpair hpair
    rcases pair_sublist_or ha hb hne with h | h
    · exact h
    · exact absurd (hmap hy hx h) (not_pair_sublist hnodup hpair)
  · exact hmap hx hy

/-- Members of a part are counted in the whole. -/
theorem countP_part [DecidableEq α] {part : List α} (p : α → Bool) (hpart : part.Nodup)
    (hnodup : l.Nodup) (hin : ∀ a ∈ part, a ∈ l) :
    part.countP p = l.countP fun a => a ∈ part ∧ p a := by
  have hperm : part.Perm (l.filter (· ∈ part)) := by
    refine (List.perm_ext_iff_of_nodup hpart (hnodup.filter _)).mpr fun a => ?_
    rw [List.mem_filter, decide_eq_true_eq]
    exact ⟨fun ha => ⟨hin a ha, ha⟩, And.right⟩
  rw [hperm.countP_eq, List.countP_filter]
  refine List.countP_congr fun a _ => ?_
  simp [and_comm]

end Some

/-! ## Sorting some of the members -/

section Filter

variable [DecidableRel r]

/-- An element that ranks before all others is inserted in front. -/
theorem orderedInsert_of_forall {a : α} {l : List α} (h : ∀ b ∈ l, r a b) :
    l.orderedInsert r a = a :: l := by
  cases l with
  | nil => rfl
  | cons b rest => rw [List.orderedInsert, if_pos (h b (List.mem_cons_self ..))]

/-- INTERNAL: an insertion into an ordered list, seen from the members that are kept. -/
theorem filter_orderedInsert [IsTrans α r] (keep : α → Bool) (a : α) {l : List α} (hl : l.Pairwise r) :
    (l.orderedInsert r a).filter keep =
      if keep a then (l.filter keep).orderedInsert r a else l.filter keep := by
  induction l with
  | nil => cases h : keep a <;> simp [h]
  | cons b rest ih =>
    obtain ⟨hb, hrest⟩ := List.pairwise_cons.mp hl
    by_cases hab : r a b
    · have hfirst : ∀ c ∈ (b :: rest).filter keep, r a c := by
        intro c hc
        rcases List.mem_cons.mp (List.mem_of_mem_filter hc) with rfl | hc
        · exact hab
        · exact trans_of r hab (hb c hc)
      rw [List.orderedInsert, if_pos hab, orderedInsert_of_forall hfirst, List.filter_cons]
    · rw [List.orderedInsert, if_neg hab, List.filter_cons, ih hrest, List.filter_cons]
      cases hkb : keep b <;> cases hka : keep a <;> simp [hab]

/-- A stable sort of the members that are kept. -/
theorem filter_insertionSort [Std.Total r] [IsTrans α r] (keep : α → Bool) (l : List α) :
    (l.insertionSort r).filter keep = (l.filter keep).insertionSort r := by
  induction l with
  | nil => rfl
  | cons a rest ih =>
    rw [List.insertionSort_cons, filter_orderedInsert keep a (List.pairwise_insertionSort r rest), ih,
      List.filter_cons]
    split <;> rfl

end Filter

end Shea.Computation
