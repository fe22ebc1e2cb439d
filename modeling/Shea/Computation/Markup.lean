import Shea.Computation.Masking

/-!
# Tags in a text

A tag is written as `<` or `</`, its name, and a letter that cannot go on with a name. A text is searched
for the tags of some names from the left (`tagsOf`), and a letter that belongs to no tag divides the
search (`tagsOf_append_cons`).

What stands between the name of a tag and its `>` is read letter by letter (`TagReader`). Behind a name
an `=` begins a value, and a value in quotes ends at the next quote of its kind, so an attribute that has
ended is never taken back (`TagReader.Ended.run`).
-/

set_option autoImplicit false

namespace Shea.Computation

def isBlank (c : Char) : Bool := c = ' ' || c = '\t' || c = '\n' || c = '\r' || c = '\x0c'

/-! ## Tags -/

/-- An opening or a closing tag, by its name. -/
structure Tag where
  closing : Bool
  name : String
  deriving DecidableEq, Repr

/-- The letters of a tag up to the end of its name. -/
def Tag.letters (tag : Tag) : List Char :=
  if tag.closing then '<' :: '/' :: tag.name.toList else '<' :: tag.name.toList

/-- A letter that ends the name of a tag. -/
def endsTagName (c : Char) : Bool := isBlank c || c = '/' || c = '>'

/-- The text begins with the letters, and a letter that ends a name comes after them. -/
def beginsWithName : List Char → List Char → Bool
  | [], s => s.head?.any endsTagName
  | l :: letters, c :: s => l = c && beginsWithName letters s
  | _ :: _, [] => false

section Tags

variable (tags : List Tag)

/-- Those of the tags that the text begins with. -/
def tagsAt (s : List Char) : List Tag := tags.filter fun tag => beginsWithName tag.letters s

/-- Those of the tags that are written in the text, from the left. -/
def tagsOf : List Char → List Tag
  | [] => []
  | c :: s => tagsAt tags (c :: s) ++ tagsOf s

/-- No letters, no tags. -/
@[simp] theorem tagsOf_nil : tagsOf tags [] = [] := rfl

variable {tags}

/-- INTERNAL: a letter that is not in a name and does not end one divides the text. -/
theorem beginsWithName_append_cons {letters : List Char} {c : Char} (hc : c ∉ letters)
    (hends : endsTagName c = false) (a b : List Char) :
    beginsWithName letters (a ++ c :: b) = beginsWithName letters a := by
  induction letters generalizing a with
  | nil => cases a <;> simp [beginsWithName, hends]
  | cons l letters ih =>
    obtain ⟨hl, hrest⟩ := not_or.mp (List.mem_cons.not.mp hc)
    cases a with
    | nil => simp [beginsWithName, Ne.symm hl]
    | cons d a => simp only [List.cons_append, beginsWithName, ih hrest]

/-- INTERNAL: a text that begins with another letter. -/
theorem beginsWithName_of_ne {l c : Char} (hne : l ≠ c) (letters s : List Char) :
    beginsWithName (l :: letters) (c :: s) = false := by
  simp [beginsWithName, hne]

/-- Every tag begins with its bracket. -/
theorem Tag.letters_eq_cons (tag : Tag) : ∃ letters, tag.letters = '<' :: letters := by
  unfold Tag.letters
  split
  · exact ⟨_, rfl⟩
  · exact ⟨_, rfl⟩

/-- No tag begins with a letter other than `<`. -/
theorem tagsAt_cons_of_ne {c : Char} (hc : c ≠ '<') (s : List Char) : tagsAt tags (c :: s) = [] := by
  refine List.filter_eq_nil_iff.mpr fun tag _ => ?_
  obtain ⟨letters, hletters⟩ := tag.letters_eq_cons
  rw [hletters, beginsWithName_of_ne hc.symm]
  exact Bool.false_ne_true

/-- Any other letter begins none. -/
theorem tagsOf_cons_of_ne {c : Char} (hc : c ≠ '<') (s : List Char) :
    tagsOf tags (c :: s) = tagsOf tags s := by
  rw [tagsOf, tagsAt_cons_of_ne hc, List.nil_append]

/-- Text without a `<` has no tags. -/
theorem tagsOf_append_of_not_mem {a : List Char} (ha : '<' ∉ a) (b : List Char) :
    tagsOf tags (a ++ b) = tagsOf tags b := by
  induction a with
  | nil => rfl
  | cons c a ih =>
    obtain ⟨hc, hrest⟩ := not_or.mp (List.mem_cons.not.mp ha)
    rw [List.cons_append, tagsOf_cons_of_ne (Ne.symm hc), ih hrest]

/-- A letter of no tag divides the search for tags. -/
theorem tagsOf_append_cons {c : Char} (hc : ∀ tag ∈ tags, c ∉ tag.letters) (hends : endsTagName c = false)
    (hne : c ≠ '<') (a b : List Char) :
    tagsOf tags (a ++ c :: b) = tagsOf tags a ++ tagsOf tags b := by
  induction a with
  | nil => exact tagsOf_cons_of_ne hne b
  | cons d a ih =>
    have hat : tagsAt tags (d :: a ++ c :: b) = tagsAt tags (d :: a) :=
      List.filter_congr fun tag htag => beginsWithName_append_cons (hc tag htag) hends (d :: a) b
    rw [List.cons_append, tagsOf, tagsOf, ih, ← List.cons_append, hat, List.append_assoc]

/-- INTERNAL: a mark that begins with `<`, for matches that do, leaves the names of tags as they are. -/
theorem beginsWithName_mask {find : List Char → Option ℕ} {mark letters : List Char}
    (hmark : mark.head? = some '<') (hfind : ∀ s n, 0 < n → find s = some n → s.head? = some '<')
    (hletters : '<' ∉ letters) (s : List Char) :
    beginsWithName letters (mask find mark 0 s) = beginsWithName letters s := by
  induction letters generalizing s with
  | nil =>
    have hhead : (mask find mark 0 s).head? = s.head? := by
      cases s with
      | nil => rfl
      | cons c rest =>
        rcases match_or_not find (c :: rest) with ⟨n, hn, hmatch⟩ | hnone
        · rw [mask_match hmatch hn (List.cons_ne_nil _ _), hfind _ n hn hmatch, List.head?_append, hmark]
          rfl
        · rw [mask_keep hnone]
          rfl
    rw [beginsWithName, beginsWithName, hhead]
  | cons l letters ih =>
    obtain ⟨hl, hrest⟩ := not_or.mp (List.mem_cons.not.mp hletters)
    cases s with
    | nil => rfl
    | cons c rest =>
      rcases match_or_not find (c :: rest) with ⟨n, hn, hmatch⟩ | hnone
      · obtain rfl : c = '<' := Option.some.inj (hfind _ n hn hmatch)
        obtain ⟨d, more, rfl⟩ : ∃ d more, mark = d :: more := by
          cases mark with
          | nil => cases hmark
          | cons d more => exact ⟨d, more, rfl⟩
        obtain rfl : d = '<' := Option.some.inj hmark
        rw [mask_match hmatch hn (List.cons_ne_nil _ _), List.cons_append,
          beginsWithName_of_ne (Ne.symm hl), beginsWithName_of_ne (Ne.symm hl)]
      · rw [mask_keep hnone, beginsWithName, beginsWithName, ih hrest]

end Tags

/-! ## Attributes -/

/-- Where a reader stands inside of a tag. -/
inductive TagPlace
  | between
  | inName
  | afterName
  | beforeValue
  | singleQuoted
  | doubleQuoted
  | unquoted
  deriving DecidableEq, Repr

/-- A reader of attributes, with the names it has come to, the last one first. -/
structure TagReader where
  place : TagPlace := .between
  names : List (List Char) := []
  deriving DecidableEq, Repr

namespace TagReader

def moveTo (reader : TagReader) (place : TagPlace) : TagReader := { reader with place := place }

/-- The letter begins another name. -/
def begin (reader : TagReader) (c : Char) : TagReader := ⟨.inName, [c] :: reader.names⟩

/-- The letter goes on with the last name. -/
def spell (reader : TagReader) (c : Char) : TagReader :=
  { reader with names := reader.names.modifyHead (· ++ [c]) }

def step (reader : TagReader) (c : Char) : TagReader :=
  match reader.place with
  | .between => if isBlank c || c = '/' then reader else reader.begin c
  | .inName =>
      if isBlank c then reader.moveTo .afterName
      else if c = '/' then reader.moveTo .between
      else if c = '=' then reader.moveTo .beforeValue
      else reader.spell c
  | .afterName =>
      if isBlank c then reader
      else if c = '/' then reader.moveTo .between
      else if c = '=' then reader.moveTo .beforeValue
      else reader.begin c
  | .beforeValue =>
      if isBlank c then reader
      else if c = '\'' then reader.moveTo .singleQuoted
      else if c = '"' then reader.moveTo .doubleQuoted
      else reader.moveTo .unquoted
  | .singleQuoted => if c = '\'' then reader.moveTo .between else reader
  | .doubleQuoted => if c = '"' then reader.moveTo .between else reader
  | .unquoted => if isBlank c then reader.moveTo .between else reader

def run (reader : TagReader) (text : List Char) : TagReader := text.foldl step reader

/-- The reader at the end of the text. -/
@[simp] theorem run_nil (reader : TagReader) : reader.run [] = reader := rfl

/-- The reader takes the letters one by one. -/
@[simp] theorem run_cons (reader : TagReader) (c : Char) (text : List Char) :
    reader.run (c :: text) = (reader.step c).run text := rfl

/-- Two texts are read one after the other. -/
theorem run_append (reader : TagReader) (a b : List Char) :
    reader.run (a ++ b) = (reader.run a).run b := List.foldl_append

/-- A tag does not end inside of quotes. -/
def quoted (reader : TagReader) : Bool := reader.place = .singleQuoted || reader.place = .doubleQuoted

/-- A reader in single quotes stays there up to the next one. -/
theorem run_singleQuoted {names : List (List Char)} {text : List Char} (h : '\'' ∉ text) :
    (TagReader.mk .singleQuoted names).run text = ⟨.singleQuoted, names⟩ := by
  induction text with
  | nil => rfl
  | cons c text ih =>
    obtain ⟨hc, htext⟩ := not_or.mp (List.mem_cons.not.mp h)
    have hstep : (TagReader.mk .singleQuoted names).step c = ⟨.singleQuoted, names⟩ := by
      simp [step, Ne.symm hc]
    rw [run_cons, hstep]
    exact ih htext

/-- So many attributes have ended: besides the one the reader is in, if it is in one. -/
def Ended (k : ℕ) (reader : TagReader) : Prop :=
  if reader.place = .between then k ≤ reader.names.length else k < reader.names.length

/-- No more attributes have ended than are named. -/
theorem Ended.le {k : ℕ} {reader : TagReader} (h : reader.Ended k) : k ≤ reader.names.length := by
  unfold Ended at h
  split at h
  · exact h
  · exact Nat.le_of_lt h

/-- All but the last have ended. -/
theorem ended_of_lt {k : ℕ} {reader : TagReader} (h : k < reader.names.length) : reader.Ended k := by
  unfold Ended
  split
  · exact Nat.le_of_lt h
  · exact h

/-- Another attribute begins: those before it have ended. -/
theorem ended_begin {k : ℕ} {reader : TagReader} (h : k ≤ reader.names.length) (c : Char) :
    (reader.begin c).Ended k := ended_of_lt (Nat.lt_succ_of_le h)

/-- INTERNAL: an attribute that has ended stays one with the next letter. -/
theorem Ended.step {k : ℕ} {reader : TagReader} (h : reader.Ended k) (c : Char) :
    (reader.step c).Ended k := by
  obtain ⟨place, names⟩ := reader
  cases place with
  | between =>
    unfold TagReader.step
    dsimp only
    split
    · exact h
    · exact ended_begin h.le c
  | inName | afterName | beforeValue | singleQuoted | doubleQuoted | unquoted =>
    have hlt : k < names.length := h
    refine ended_of_lt (Nat.lt_of_lt_of_le hlt ?_)
    unfold TagReader.step
    dsimp only
    split_ifs <;> simp [moveTo, spell, begin]

/-- Attributes that have ended stay. -/
theorem Ended.run {k : ℕ} {reader : TagReader} (h : reader.Ended k) (text : List Char) :
    (reader.run text).Ended k := by
  induction text generalizing reader with
  | nil => exact h
  | cons c text ih => exact ih (h.step c)

/-- A quotation mark after attributes that have ended belongs to another one. -/
theorem Ended.lt_step_quote {k : ℕ} {reader : TagReader} (h : reader.Ended k) :
    k < (reader.step '\'').names.length := by
  obtain ⟨place, names⟩ := reader
  cases place with
  | between =>
    have hle : k ≤ names.length := h
    exact Nat.lt_succ_of_le hle
  | inName | afterName | beforeValue | singleQuoted | doubleQuoted | unquoted =>
    have hlt : k < names.length := h
    refine Nat.lt_of_lt_of_le hlt ?_
    unfold TagReader.step
    dsimp only
    split_ifs <;> simp [moveTo, spell, begin]

/-- A reader in double quotes is still there after some text, or the attribute has ended. -/
theorem run_doubleQuoted {k : ℕ} {names : List (List Char)} (hk : k ≤ names.length) (text : List Char) :
    (TagReader.mk .doubleQuoted names).run text = ⟨.doubleQuoted, names⟩ ∨
      ((TagReader.mk .doubleQuoted names).run text).Ended k := by
  induction text with
  | nil => exact .inl rfl
  | cons c text ih =>
    rw [run_cons]
    by_cases hc : c = '"'
    · subst hc
      have hended : ((TagReader.mk .doubleQuoted names).step '"').Ended k := hk
      exact .inr (hended.run text)
    · have hstep : (TagReader.mk .doubleQuoted names).step c = ⟨.doubleQuoted, names⟩ := by
        simp [step, hc]
      rw [hstep]
      exact ih

end TagReader

/-- The names of the attributes inside of a tag; `none` when the tag ends within quotes. -/
def attributeNames (inside : String) : Option (List String) :=
  let reader := TagReader.run {} inside.toList
  if reader.quoted then none else some (reader.names.reverse.map String.ofList)

end Shea.Computation
