import Mathlib.Data.List.Nodup

/-!
# Tables with a primary key

A table is the list of its rows in rowid order. `upsert` is `INSERT … ON CONFLICT(key) DO UPDATE`:
an existing row keeps its place and is merged with the new one, otherwise the new row goes last.
The merge says which columns the statement updates; it never changes the key (`KeepsKey`).
-/

set_option autoImplicit false

namespace Shea.Computation.Table

variable {α κ : Type} [DecidableEq κ] (key : α → κ)

/-- The row stored under a key. -/
def lookup (rows : List α) (k : κ) : Option α := rows.find? fun r => key r = k

/-- A row is stored under a key. -/
def has (rows : List α) (k : κ) : Bool := rows.any fun r => key r = k

/-- Insert a row, or merge it into the row that has its key. -/
def upsert (merge : (old new : α) → α) (row : α) : List α → List α
  | [] => [row]
  | old :: rest =>
      if key old = key row then merge old row :: rest else old :: upsert merge row rest

/-- The merge of an upsert leaves the key alone. -/
def KeepsKey (merge : α → α → α) : Prop := ∀ old new, key (merge old new) = key old

variable {key} {merge : α → α → α}

/-- What is found has the key. -/
theorem lookup_eq_some_key {rows : List α} {k : κ} {r : α} (h : lookup key rows k = some r) :
    key r = k := by
  simpa using List.find?_some h

/-- It is a row of the table. -/
theorem lookup_mem {rows : List α} {k : κ} {r : α} (h : lookup key rows k = some r) : r ∈ rows :=
  List.mem_of_find?_eq_some h

/-- Nothing is found when no row has the key. -/
theorem lookup_eq_none_iff {rows : List α} {k : κ} :
    lookup key rows k = none ↔ ∀ r ∈ rows, key r ≠ k := by
  simp [lookup]

/-- A row of the table is found by its key. -/
theorem has_of_mem {rows : List α} {r : α} (h : r ∈ rows) : has key rows (key r) = true :=
  List.any_eq_true.mpr ⟨r, h, decide_eq_true rfl⟩

/-- Then later rows are searched. -/
theorem lookup_append_of_none {rows rows' : List α} {k : κ} (h : lookup key rows k = none) :
    lookup key (rows ++ rows') k = lookup key rows' k := by
  unfold lookup at *
  rw [List.find?_append, h, Option.none_or]

/-- With distinct keys, a row of the table is the one its key finds. -/
theorem lookup_of_mem {rows : List α} (hd : (rows.map key).Nodup) {r : α} (h : r ∈ rows) :
    lookup key rows (key r) = some r := by
  induction rows with
  | nil => simp at h
  | cons a rows ih =>
    rw [List.map_cons, List.nodup_cons] at hd
    rcases List.mem_cons.mp h with rfl | h'
    · simp [lookup]
    · have hne : key a ≠ key r := fun he => hd.1 (he ▸ List.mem_map_of_mem h')
      have := ih hd.2 h'
      simpa [lookup, List.find?_cons, hne] using this

/-- A row whose key is not among the first rows leaves these alone. -/
theorem upsert_append_of_new {rows : List α} {row : α} (h : ∀ r ∈ rows, key r ≠ key row)
    (rows' : List α) :
    upsert key merge row (rows ++ rows') = rows ++ upsert key merge row rows' := by
  induction rows with
  | nil => rfl
  | cons a rows ih =>
    have ha : key a ≠ key row := h a (List.mem_cons_self ..)
    have hr := ih fun r hr => h r (List.mem_cons_of_mem _ hr)
    simp [upsert, ha, hr]

/-- A row with a new key goes last. -/
theorem upsert_of_new {rows : List α} {row : α} (h : ∀ r ∈ rows, key r ≠ key row) :
    upsert key merge row rows = rows ++ [row] := by
  simpa [upsert] using upsert_append_of_new h []

/-- What an upsert leaves in the table: the new row, a row merged with it, or an old row. -/
theorem mem_upsert {rows : List α} {row r : α} (h : r ∈ upsert key merge row rows) :
    r = row ∨ (∃ old ∈ rows, key old = key row ∧ r = merge old row) ∨ r ∈ rows := by
  induction rows with
  | nil => exact .inl (by simpa [upsert] using h)
  | cons a rows ih =>
    unfold upsert at h
    split at h
    · next hk =>
      rcases List.mem_cons.mp h with rfl | h
      · exact .inr (.inl ⟨a, List.mem_cons_self .., hk, rfl⟩)
      · exact .inr (.inr (List.mem_cons_of_mem _ h))
    · rcases List.mem_cons.mp h with rfl | h
      · exact .inr (.inr (List.mem_cons_self ..))
      · rcases ih h with h | ⟨old, ho, hk, he⟩ | h
        · exact .inl h
        · exact .inr (.inl ⟨old, List.mem_cons_of_mem _ ho, hk, he⟩)
        · exact .inr (.inr (List.mem_cons_of_mem _ h))

/-- The row an upsert leaves under its own key. -/
theorem lookup_upsert_self (hm : KeepsKey key merge) (rows : List α) (row : α) :
    lookup key (upsert key merge row rows) (key row) =
      some ((lookup key rows (key row)).elim row (merge · row)) := by
  induction rows with
  | nil => simp [lookup, upsert]
  | cons a rows ih =>
    unfold upsert
    by_cases hk : key a = key row
    · simp [lookup, hk, hm a row]
    · simpa [lookup, hk] using ih

/-- A row is stored under the key of an upsert. -/
theorem has_upsert_self (hm : KeepsKey key merge) (rows : List α) (row : α) :
    has key (upsert key merge row rows) (key row) = true := by
  have hfound := lookup_upsert_self hm rows row
  exact lookup_eq_some_key hfound ▸ has_of_mem (lookup_mem hfound)

/-- An upsert leaves every other key's row alone. -/
theorem lookup_upsert_of_ne (hm : KeepsKey key merge) (rows : List α) {row : α} {k : κ}
    (h : key row ≠ k) : lookup key (upsert key merge row rows) k = lookup key rows k := by
  induction rows with
  | nil => simp [lookup, upsert, h]
  | cons a rows ih =>
    unfold upsert
    by_cases hk : key a = key row
    · simp [lookup, hk, hm a row, h]
    · by_cases ha : key a = k
      · have hne : k ≠ key row := h.symm
        simp [lookup, ha, hne]
      · simpa [lookup, hk, ha] using ih

/-- Keys are only ever added, and at the end. -/
theorem map_key_upsert (hm : KeepsKey key merge) (rows : List α) (row : α) :
    (upsert key merge row rows).map key =
      if key row ∈ rows.map key then rows.map key else rows.map key ++ [key row] := by
  induction rows with
  | nil => simp [upsert]
  | cons a rows ih =>
    unfold upsert
    by_cases hk : key a = key row
    · simp [hk, hm a row]
    · simp only [hk, if_false, List.map_cons, ih, List.mem_cons, Ne.symm hk, false_or]
      split <;> simp_all

/-- Keys stay distinct through an upsert. -/
theorem nodup_upsert (hm : KeepsKey key merge) {rows : List α} (hd : (rows.map key).Nodup)
    (row : α) : ((upsert key merge row rows).map key).Nodup := by
  rw [map_key_upsert hm]
  split
  · exact hd
  · next h => exact hd.append (List.nodup_singleton _) (by simpa using h)

/-- An upsert of an existing row merges that row and leaves the others. -/
theorem mem_upsert_of_lookup (hm : KeepsKey key merge) {rows : List α} {row old r : α}
    (hd : (rows.map key).Nodup) (hl : lookup key rows (key row) = some old)
    (h : r ∈ upsert key merge row rows) : r = merge old row ∨ (r ∈ rows ∧ key r ≠ key row) := by
  have hd' := nodup_upsert hm hd row
  by_cases hk : key r = key row
  · have hr := lookup_of_mem hd' h
    rw [hk, lookup_upsert_self hm, hl] at hr
    exact .inl (Option.some.inj hr).symm
  · rcases mem_upsert h with rfl | ⟨o, ho, hok, rfl⟩ | h
    · exact absurd rfl hk
    · exact absurd ((hm o row).trans hok) hk
    · exact .inr ⟨h, hk⟩

/-- Columns that a merge leaves alone are the same after an upsert of an existing row. -/
theorem map_upsert_of_lookup {β : Type} (f : α → β) (hf : ∀ old new, f (merge old new) = f old)
    {rows : List α} {row old : α} (hl : lookup key rows (key row) = some old) :
    (upsert key merge row rows).map f = rows.map f := by
  induction rows with
  | nil => simp [lookup] at hl
  | cons a rows ih =>
    unfold upsert
    by_cases hk : key a = key row
    · simp [hk, hf]
    · rw [if_neg hk, List.map_cons, List.map_cons, ih]
      simpa [lookup, hk] using hl

/-- An upsert of an existing row is a change of that row. -/
theorem upsert_eq_map {rows : List α} {row old : α} (hd : (rows.map key).Nodup) (h : old ∈ rows)
    (hk : key old = key row) :
    upsert key merge row rows = rows.map fun r => if key r = key row then merge r row else r := by
  induction rows with
  | nil => cases h
  | cons a rows ih =>
    obtain ⟨hnew, hrest⟩ := List.nodup_cons.mp hd
    unfold upsert
    rw [List.map_cons]
    by_cases ha : key a = key row
    · have hothers : rows.map (fun r => if key r = key row then merge r row else r) = rows := by
        refine (List.map_congr_left fun r hr => ?_).trans (List.map_id _)
        have hne : key r ≠ key row := fun heq => hnew (ha.trans heq.symm ▸ List.mem_map_of_mem hr)
        rw [if_neg hne]
        rfl
      rw [if_pos ha, if_pos ha, hothers]
    · rcases List.mem_cons.mp h with rfl | h
      · exact absurd hk ha
      · rw [if_neg ha, if_neg ha, ih hrest h]

/-- A merge matters only for rows with the same key. -/
theorem upsert_congr {merge' : α → α → α} {row : α}
    (h : ∀ old, key old = key row → merge old row = merge' old row) (rows : List α) :
    upsert key merge row rows = upsert key merge' row rows := by
  induction rows with
  | nil => rfl
  | cons a rows ih =>
    unfold upsert
    split
    · next hk => rw [h a hk]
    · rw [ih]

/-- The row found after a key's rows were deleted. -/
theorem lookup_delete (rows : List α) (k k' : κ) :
    lookup key (rows.filter fun r => decide (key r ≠ k)) k' =
      if k = k' then none else lookup key rows k' := by
  split
  · next h =>
    subst h
    rw [lookup_eq_none_iff]
    intro r hr
    exact of_decide_eq_true (List.mem_filter.mp hr).2
  · next h =>
    unfold lookup
    rw [List.find?_filter]
    congr 1
    funext r
    by_cases hr : key r = k'
    · simp [hr, Ne.symm h]
    · simp [hr]

end Shea.Computation.Table
