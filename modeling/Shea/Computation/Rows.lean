import Mathlib.Data.List.Sort
import Shea.Computation.Table

/-!
# Records stored as rows

A row gives each of its columns a cell. A table of records is stored as the table of their rows, in the same
order (`StoredRows`): what is done to the rows is then done to the records, as long as the statement and the
record operation agree row by row. `Row.excluded` is the assignment of an upsert, which takes some columns
of the new row and leaves the others.

Records come back from their rows when they are good, which every operation has to keep.
-/

set_option autoImplicit false

namespace Shea.Computation

/-- The cells of the columns. -/
abbrev Row (γ : Type) := List (String × γ)

/-- `DO UPDATE SET column = excluded.column, …`. -/
def Row.excluded {γ : Type} (columns : List String) (old new : Row γ) : Row γ :=
  old.map fun entry =>
    (entry.1, if entry.1 ∈ columns then (new.lookup entry.1).getD entry.2 else entry.2)

/-- The rows are those of the records, which are all good. -/
structure StoredRows {α ρ : Type} (write : α → ρ) (Good : α → Prop) (rows : List ρ) (records : List α) :
    Prop where
  rows_eq : rows = records.map write
  good : ∀ record ∈ records, Good record

namespace StoredRows

variable {α ρ κ κ' : Type} [DecidableEq κ] [DecidableEq κ'] {write : α → ρ} {Good : α → Prop}
  {rows : List ρ} {records : List α}

/-- The empty table. -/
theorem nil : StoredRows write Good [] [] := ⟨rfl, fun _ h => by cases h⟩

/-- One more row. -/
theorem append (h : StoredRows write Good rows records) (record : α) (hgood : Good record) :
    StoredRows write Good (rows ++ [write record]) (records ++ [record]) := by
  refine ⟨by rw [h.rows_eq, List.map_append, List.map_singleton], fun r hr => ?_⟩
  rcases List.mem_append.mp hr with hr | hr
  · exact h.good r hr
  · exact List.mem_singleton.mp hr ▸ hgood

/-- The rows that a condition selects. -/
theorem filter (h : StoredRows write Good rows records) {p' : ρ → Bool} {p : α → Bool}
    (hp : ∀ record, p' (write record) = p record) :
    StoredRows write Good (rows.filter p') (records.filter p) := by
  refine ⟨?_, fun r hr => h.good r (List.mem_filter.mp hr).1⟩
  rw [h.rows_eq, List.filter_map]
  congr 2
  exact funext hp

/-- A search finds the same on both sides. -/
theorem any_eq (h : StoredRows write Good rows records) {p' : ρ → Bool} {p : α → Bool}
    (hp : ∀ record, p' (write record) = p record) : rows.any p' = records.any p := by
  rw [h.rows_eq, List.any_map]
  congr 1
  exact funext hp

/-- The first row that a condition selects. -/
theorem find? (h : StoredRows write Good rows records) {p' : ρ → Bool} {p : α → Bool}
    (hp : ∀ record, p' (write record) = p record) :
    StoredRows write Good (rows.find? p').toList (records.find? p).toList := by
  have heq : p' ∘ write = p := funext hp
  refine ⟨?_, fun r hr => h.good r (List.mem_of_find?_eq_some (Option.mem_toList.mp hr))⟩
  rw [h.rows_eq, List.find?_map, heq, Option.toList_map]

/-- The row is that of the record, if there is one. -/
theorem eq_map {row : Option ρ} {record : Option α} (h : StoredRows write Good row.toList record.toList) :
    row = record.map write := by
  have heq := congrArg List.head? h.rows_eq
  cases record with
  | none => simpa using heq
  | some record => simpa using heq

/-- The rows in the order of a column. -/
theorem sort (h : StoredRows write Good rows records) {le' : ρ → ρ → Prop} {le : α → α → Prop}
    [DecidableRel le'] [DecidableRel le]
    (hle : ∀ a b, Good a → Good b → (le' (write a) (write b) ↔ le a b)) :
    StoredRows write Good (rows.insertionSort le') (records.insertionSort le) := by
  refine ⟨?_, fun r hr => h.good r ((List.mem_insertionSort _).mp hr)⟩
  rw [h.rows_eq]
  exact (List.map_insertionSort _ _ write records fun a ha b hb =>
    (hle a b (h.good a ha) (h.good b hb)).symm).symm

/-- The last row is that of the last record. -/
theorem getLast? (h : StoredRows write Good rows records) :
    StoredRows write Good rows.getLast?.toList records.getLast?.toList := by
  refine ⟨?_, fun r hr => h.good r (List.mem_of_getLast? (Option.mem_toList.mp hr))⟩
  rw [h.rows_eq, List.getLast?_map, Option.toList_map]

/-- And the first that of the first. -/
theorem head? (h : StoredRows write Good rows records) :
    StoredRows write Good rows.head?.toList records.head?.toList := by
  refine ⟨?_, fun r hr => h.good r (List.mem_of_mem_head? (Option.mem_toList.mp hr))⟩
  rw [h.rows_eq, List.head?_map, Option.toList_map]

/-- A statement `INSERT … ON CONFLICT DO UPDATE` that merges rows as records are merged. -/
theorem upsert (h : StoredRows write Good rows records) {key' : ρ → κ'} {key : α → κ} {merge' : ρ → ρ → ρ}
    {merge : α → α → α} (hkey : ∀ a b, key' (write a) = key' (write b) ↔ key a = key b)
    (hmerge : ∀ old new, merge' (write old) (write new) = write (merge old new)) (record : α)
    (hgood : Good record) (hmerged : ∀ old, Good old → Good (merge old record)) :
    StoredRows write Good (Table.upsert key' merge' (write record) rows)
      (Table.upsert key merge record records) := by
  constructor
  · rw [h.rows_eq]
    clear h
    induction records with
    | nil => rfl
    | cons old rest ih =>
      simp only [List.map_cons, Table.upsert, hkey]
      split
      · rw [hmerge, List.map_cons]
      · rw [ih, List.map_cons]
  · intro r hr
    rcases Table.mem_upsert hr with rfl | ⟨old, hold, -, rfl⟩ | hr
    · exact hgood
    · exact hmerged old (h.good old hold)
    · exact h.good r hr

/-- Good records are read back from their rows. -/
theorem mapM_eq (h : StoredRows write Good rows records) {read : ρ → Option α}
    (hread : ∀ record, Good record → read (write record) = some record) :
    rows.mapM read = some records := by
  obtain ⟨rfl, hgood⟩ := h
  induction records with
  | nil => rfl
  | cons record rest ih =>
    rw [List.map_cons, List.mapM_cons, hread record (hgood record (List.mem_cons_self ..)),
      ih fun r hr => hgood r (List.mem_cons_of_mem _ hr)]
    rfl

end StoredRows

end Shea.Computation
