import Shea.Model.Tools
import Shea.Model.Sample

/-!
# What a validated argument map holds

`get_validated_arguments` looks at the values of a request and then puts defaults under the names that
are missing. A value that was looked at is what its schema asks for, with two exceptions: `None` is
looked at as if it were the default, and NaN passes any bound, since nothing compares with it. The
defaults themselves are not looked at at all.
-/

set_option autoImplicit false

namespace Shea.Analysis

open Shea.Model

/-! ## What a schema asks for -/

/-- `x <= y` of numbers. -/
def PyFloat.le (x y : PyFloat) : Bool := x ≠ .nan && y ≠ .nan && !y.lt x

/-- `a <= b` of values that are numbers. -/
def NumberLe (a b : Value) : Prop := ∃ x y, a.number = some x ∧ b.number = some y ∧ PyFloat.le x y = true

/-- A value of a numeric type lies between the bounds. -/
structure WithinBounds (argument : ArgumentSchema) (value : Value) : Prop where
  min : argument.minValue ≠ .none → NumberLe argument.minValue value
  max : argument.maxValue ≠ .none → NumberLe value argument.maxValue

/-- A text has a length between the bounds and matches the pattern. -/
structure FitsText (py : Stdlib) (argument : ArgumentSchema) (text : String) : Prop where
  minLength : ∀ n ∈ argument.minLength, n ≤ text.length
  maxLength : ∀ n ∈ argument.maxLength, text.length ≤ n
  pattern : ∀ pattern ∈ argument.pattern, py.reMatch pattern text = some true

/-- A type whose values have bounds. -/
def ArgumentType.numeric : ArgumentType → Bool
  | .integer => true
  | .float => true
  | _ => false

/-- A value is what its schema asks for. Bounds bind the numeric types only, lengths and pattern the
type STRING only: `validate` looks at them under the comments "numeric bounds" and "string bounds", and
the helpers give them to `integer_arg` and to `string_arg`. The enumeration and the custom validator
bind every type.
SOURCE: tools/schema.py:62-90, 192-265 -/
structure Satisfies (py : Stdlib) (argument : ArgumentSchema) (value : Value) : Prop where
  type : ArgumentSchema.checkType argument.type value = true
  bounds : ArgumentType.numeric argument.type = true → WithinBounds argument value
  text : argument.type = .string → ∀ text, value = .str text → FitsText py argument text
  choice : ∀ values ∈ argument.enum, ∃ allowed ∈ values, pyEq value allowed = true
  custom : ∀ accepts ∈ argument.customValidator, accepts value = true

/-- An argument map is sound for a schema. -/
structure SoundFor (py : Stdlib) (schema : ToolSchema) (arguments : Dict) : Prop where
  declared : ∀ entry ∈ arguments, (schema.arguments.lookup entry.1).isSome = true
  complete : ∀ entry ∈ schema.arguments, entry.2.required = true → arguments.has entry.1 = true
  satisfied : ∀ entry ∈ arguments, ∀ argument, schema.arguments.lookup entry.1 = some argument →
    Satisfies py argument entry.2

/-! ## What validation looks at -/

section Validate

variable {py : Stdlib} {argument : ArgumentSchema} {value : Value}

/-- The value compares with the bounds of its schema: none of the three is NaN. -/
structure Comparable (argument : ArgumentSchema) (value : Value) : Prop where
  min : argument.minValue ≠ .none → argument.minValue ≠ .float .nan ∧ value ≠ .float .nan
  max : argument.maxValue ≠ .none → argument.maxValue ≠ .float .nan ∧ value ≠ .float .nan

/-- INTERNAL: a number that is NaN. -/
theorem number_eq_nan_iff : value.number = some .nan ↔ value = .float .nan := by
  cases value with
  | float x => simp [Value.number]
  | bool b => simp [Value.number]
  | _ => simp [Value.number]

/-- INTERNAL: what a comparison that comes out false says. -/
theorem numberLe_iff {a b : Value} (h : ArgumentSchema.less b a = .ok false) :
    NumberLe a b ↔ a ≠ .float .nan ∧ b ≠ .float .nan := by
  unfold ArgumentSchema.less at h
  cases hb : b.number with
  | none => simp [hb] at h
  | some y =>
    cases ha : a.number with
    | none => simp [ha, hb] at h
    | some x =>
      rw [ha, hb] at h
      have hless : y.lt x = false := Except.ok.inj h
      rw [← number_eq_nan_iff.ne, ← number_eq_nan_iff.ne, ha, hb]
      unfold NumberLe
      rw [ha, hb]
      simp [PyFloat.le, hless]

/-- INTERNAL: bounds that were checked hold of what compares with them.
SOURCE: tools/schema.py:63-70 -/
theorem withinBounds_iff (h : argument.checkBounds py value = .ok none) :
    WithinBounds argument value ↔ Comparable argument value := by
  have hmin : argument.minValue ≠ .none →
      ArgumentSchema.less value argument.minValue = .ok false := by
    intro hbound
    unfold ArgumentSchema.checkBounds at h
    rw [if_pos hbound] at h
    cases hless : ArgumentSchema.less value argument.minValue with
    | error e => simp [hless, bind, Except.bind] at h
    | ok less =>
      cases less with
      | false => rfl
      | true => simp [hless, bind, Except.bind, pure, Except.pure] at h
  have hmax : argument.maxValue ≠ .none →
      ArgumentSchema.less argument.maxValue value = .ok false := by
    intro hbound
    have hrest : (do
        if ← ArgumentSchema.less argument.maxValue value then
          return some ("Argument '" ++ argument.name ++ "' must be <= " ++ pyStr py argument.maxValue)
        return none : Except Err (Option String)) = .ok none := by
      unfold ArgumentSchema.checkBounds at h
      by_cases hfirst : argument.minValue = .none
      · rw [if_neg (not_not.mpr hfirst), if_pos hbound] at h
        exact h
      · rw [if_pos hfirst, hmin hfirst, if_pos hbound] at h
        exact h
    cases hless : ArgumentSchema.less argument.maxValue value with
    | error e => simp [hless, bind, Except.bind] at hrest
    | ok less =>
      cases less with
      | false => rfl
      | true => simp [hless, bind, Except.bind, pure, Except.pure] at hrest
  constructor
  · intro hwithin
    constructor
    · intro hbound
      exact (numberLe_iff (hmin hbound)).mp (hwithin.min hbound)
    · intro hbound
      exact ((numberLe_iff (hmax hbound)).mp (hwithin.max hbound)).symm
  · intro hcomparable
    constructor
    · intro hbound
      exact (numberLe_iff (hmin hbound)).mpr (hcomparable.min hbound)
    · intro hbound
      exact (numberLe_iff (hmax hbound)).mpr (hcomparable.max hbound).symm

/-- INTERNAL: a text that was checked fits.
SOURCE: tools/schema.py:72-83 -/
theorem fitsText_of_checkText {text : String} (h : argument.checkText py text = .ok none) :
    FitsText py argument text := by
  unfold ArgumentSchema.checkText at h
  by_cases hmin : (argument.minLength.any (text.length < ·)) = true
  · rw [if_pos hmin] at h
    cases hlength : argument.minLength with
    | none => simp [hlength] at hmin
    | some n => simp [hlength, pure, Except.pure] at h
  rw [if_neg hmin] at h
  by_cases hmax : (argument.maxLength.any (· < text.length)) = true
  · rw [if_pos hmax] at h
    cases hlength : argument.maxLength with
    | none => simp [hlength] at hmax
    | some n => simp [hlength, pure, Except.pure] at h
  rw [if_neg hmax] at h
  refine ⟨fun n hn => ?_, fun n hn => ?_, fun pattern hpattern => ?_⟩
  · rw [Option.mem_def.mp hn] at hmin
    simpa using hmin
  · rw [Option.mem_def.mp hn] at hmax
    simpa using hmax
  · rw [Option.mem_def.mp hpattern] at h
    cases hmatch : py.reMatch pattern text with
    | none => simp [hmatch, throw, throwThe, MonadExceptOf.throw] at h
    | some found =>
      cases found with
      | true => rfl
      | false => simp [hmatch, pure, Except.pure] at h

/-- INTERNAL: a choice that was checked is one that is allowed.
SOURCE: tools/schema.py:85-91 -/
theorem allowed_of_checkChoice (h : argument.checkChoice py value = none) :
    (∀ values ∈ argument.enum, ∃ allowed ∈ values, pyEq value allowed = true) ∧
      ∀ accepts ∈ argument.customValidator, accepts value = true := by
  unfold ArgumentSchema.checkChoice at h
  split at h
  · cases h
  next henum =>
  split at h
  · cases h
  next hcustom =>
  constructor
  · intro values hvalues
    rw [Option.mem_def.mp hvalues] at henum
    simpa using henum
  · intro accepts haccepts
    rw [Option.mem_def.mp haccepts] at hcustom
    simpa using hcustom

/-- INTERNAL: a value that passes the checks is what the schema asks for, as soon as it compares with
the bounds.
SOURCE: tools/schema.py:57-93 -/
theorem satisfies_iff_of_checks (htype : ArgumentSchema.checkType argument.type value = true)
    (hshape : argument.checkShape py value = .ok none)
    (hchoice : argument.checkChoice py value = none) :
    Satisfies py argument value ↔
      (ArgumentType.numeric argument.type = true → Comparable argument value) := by
  have hbounds : ArgumentType.numeric argument.type = true →
      argument.checkBounds py value = .ok none := by
    intro hnumeric
    unfold ArgumentSchema.checkShape at hshape
    cases hkind : argument.type <;> simp_all [ArgumentType.numeric]
  constructor
  · intro hsatisfies hnumeric
    exact (withinBounds_iff (hbounds hnumeric)).mp (hsatisfies.bounds hnumeric)
  · intro hcomparable
    obtain ⟨henum, hcustom⟩ := allowed_of_checkChoice hchoice
    refine ⟨htype, fun hnumeric => ?_, fun hstring text htext => ?_, henum, hcustom⟩
    · exact (withinBounds_iff (hbounds hnumeric)).mpr (hcomparable hnumeric)
    · subst htext
      apply fitsText_of_checkText
      simpa [ArgumentSchema.checkShape, hstring] using hshape

/-- INTERNAL: what was looked at when a value was let pass.
SOURCE: tools/schema.py:44-93 -/
theorem checks_of_validate {given : Value} (h : argument.validate py given = .ok none) :
    ¬ (given = .none ∧ argument.required = true ∧ argument.default = .none) ∧
    (Satisfies py argument (if given = .none then argument.default else given) ↔
      (ArgumentType.numeric argument.type = true →
        Comparable argument (if given = .none then argument.default else given))) := by
  unfold ArgumentSchema.validate at h
  by_cases hmissing : given = .none ∧ argument.required = true ∧ argument.default = .none
  · rw [if_pos hmissing] at h
    cases h
  rw [if_neg hmissing] at h
  refine ⟨hmissing, ?_⟩
  generalize (if given = .none then argument.default else given) = value at h ⊢
  cases htype : ArgumentSchema.checkType argument.type value with
  | false =>
    simp only [htype, Bool.not_false, if_true] at h
    cases h
  | true =>
    simp only [htype, Bool.not_true, Bool.false_eq_true, if_false] at h
    cases hshape : argument.checkShape py value with
    | error e =>
      rw [hshape] at h
      cases h
    | ok message =>
      cases message with
      | some message =>
        rw [hshape] at h
        cases h
      | none =>
        rw [hshape] at h
        exact satisfies_iff_of_checks htype hshape (Except.ok.inj h)

end Validate

/-! ## Requests -/

section Requests

variable {py : Stdlib} {schema : ToolSchema} {request : ToolRequest} {arguments : Dict}

/-- INTERNAL: without errors, every argument that was given is declared and was let pass.
SOURCE: tools/schema.py:147-157 -/
theorem validated_of_givenErrors {given : Dict} (h : schema.givenErrors py given = .ok []) :
    ∀ entry ∈ given, ∃ argument, schema.arguments.lookup entry.1 = some argument ∧
      argument.validate py entry.2 = .ok none := by
  induction given with
  | nil => simp
  | cons entry rest ih =>
    obtain ⟨name, value⟩ := entry
    unfold ToolSchema.givenErrors at h
    cases hlookup : schema.arguments.lookup name with
    | none =>
      simp only [hlookup, bind, Except.bind, pure, Except.pure] at h
      cases hrest : schema.givenErrors py rest with
      | error e => simp [hrest] at h
      | ok errors => simp [hrest] at h
    | some argument =>
      cases hvalidate : argument.validate py value with
      | error e => simp [hlookup, hvalidate, bind, Except.bind] at h
      | ok error =>
        cases hrest : schema.givenErrors py rest with
        | error e => simp [hlookup, hvalidate, hrest, bind, Except.bind] at h
        | ok errors =>
          simp only [hlookup, hvalidate, hrest, bind, Except.bind, pure, Except.pure,
            Except.ok.injEq, List.append_eq_nil_iff] at h
          obtain ⟨herror, rfl⟩ := h
          obtain rfl : error = none := by simpa using herror
          intro entry hentry
          rcases List.mem_cons.mp hentry with rfl | hentry
          · exact ⟨argument, hlookup, hvalidate⟩
          · exact ih hrest entry hentry

/-- INTERNAL: an accepted request.
SOURCE: tools/schema.py:134-179 -/
theorem accepted_of_returned (h : schema.getValidatedArguments py request = .ok arguments) :
    schema.missingErrors request = [] ∧ schema.givenErrors py request.arguments = .ok [] ∧
      arguments = ToolSchema.withDefaults request.arguments schema.arguments := by
  unfold ToolSchema.getValidatedArguments ToolSchema.validateRequest at h
  cases hgiven : schema.givenErrors py request.arguments with
  | error e => simp [hgiven, bind, Except.bind] at h
  | ok errors =>
    rw [hgiven] at h
    simp only [bind, Except.bind, pure, Except.pure] at h
    split at h
    · next hnone =>
      have hnil := List.isEmpty_iff.mp hnone
      obtain ⟨hmissing, rfl⟩ := List.append_eq_nil_iff.mp hnil
      exact ⟨hmissing, rfl, (Except.ok.inj h).symm⟩
    · cases h

/-- INTERNAL: the entries of the map with defaults: those of the request, and the defaults of the names
it leaves out.
SOURCE: tools/schema.py:173-179 -/
theorem mem_withDefaults {given : Dict} {declared : List (String × ArgumentSchema)}
    (hkeys : (declared.map Prod.fst).Nodup) (entry : String × Value) :
    entry ∈ ToolSchema.withDefaults given declared ↔ entry ∈ given ∨
      ∃ argument, (entry.1, argument) ∈ declared ∧ given.has entry.1 = false ∧
        argument.default ≠ .none ∧ entry.2 = argument.default := by
  induction declared generalizing given with
  | nil => simp [ToolSchema.withDefaults]
  | cons head rest ih =>
    obtain ⟨name, argument⟩ := head
    obtain ⟨hout, hrest⟩ := List.nodup_cons.mp hkeys
    have hname : ∀ argument', (name, argument') ∉ rest := by
      intro argument' hin
      exact hout (List.mem_map.mpr ⟨_, hin, rfl⟩)
    unfold ToolSchema.withDefaults
    rw [ih hrest]
    by_cases happly : given.has name = false ∧ argument.default ≠ .none
    · have hgiven : (!given.has name && decide (argument.default ≠ .none)) = true := by
        simp [happly.1, happly.2]
      rw [if_pos hgiven, Dict.set_of_missing happly.1]
      constructor
      · rintro (hmem | ⟨argument', hin, hhas, hdefault, hvalue⟩)
        · rcases List.mem_append.mp hmem with hmem | hmem
          · exact .inl hmem
          · obtain rfl := List.mem_singleton.mp hmem
            exact .inr ⟨argument, List.mem_cons_self .., happly.1, happly.2, rfl⟩
        · refine .inr ⟨argument', List.mem_cons_of_mem _ hin, ?_, hdefault, hvalue⟩
          rw [← Dict.set_of_missing happly.1 argument.default, Dict.has_set] at hhas
          exact (Bool.or_eq_false_iff.mp hhas).2
      · rintro (hmem | ⟨argument', hin, hhas, hdefault, hvalue⟩)
        · exact .inl (List.mem_append_left _ hmem)
        · rcases List.mem_cons.mp hin with heq | hin
          · obtain ⟨hentry, rfl⟩ := Prod.mk.inj heq
            refine .inl (List.mem_append_right _ (List.mem_singleton.mpr ?_))
            exact Prod.ext hentry hvalue
          · refine .inr ⟨argument', hin, ?_, hdefault, hvalue⟩
            rw [← Dict.set_of_missing happly.1 argument.default, Dict.has_set, hhas]
            have hne : entry.1 ≠ name := by
              intro heq
              exact hname argument' (heq ▸ hin)
            simp [hne]
    · have hgiven : ¬ (!given.has name && decide (argument.default ≠ .none)) = true := by
        intro h
        rw [Bool.and_eq_true, Bool.not_eq_true', decide_eq_true_eq] at h
        exact happly h
      rw [if_neg hgiven]
      constructor
      · rintro (hmem | ⟨argument', hin, h⟩)
        · exact .inl hmem
        · exact .inr ⟨argument', List.mem_cons_of_mem _ hin, h⟩
      · rintro (hmem | ⟨argument', hin, hhas, hdefault, hvalue⟩)
        · exact .inl hmem
        · rcases List.mem_cons.mp hin with heq | hin
          · obtain ⟨hentry, rfl⟩ := Prod.mk.inj heq
            exact absurd ⟨hentry ▸ hhas, hdefault⟩ happly
          · exact .inr ⟨argument', hin, hhas, hdefault, hvalue⟩

/-- INTERNAL: a declared name finds its schema. -/
theorem lookup_of_declared {declared : List (String × ArgumentSchema)}
    (hkeys : (declared.map Prod.fst).Nodup) {entry : String × ArgumentSchema}
    (h : entry ∈ declared) : declared.lookup entry.1 = some entry.2 := by
  induction declared with
  | nil => cases h
  | cons head rest ih =>
    obtain ⟨hout, hrest⟩ := List.nodup_cons.mp hkeys
    rcases List.mem_cons.mp h with rfl | h
    · obtain ⟨name, argument⟩ := entry
      exact List.lookup_cons_self
    · have hne : entry.1 ≠ head.1 := fun heq => hout (heq ▸ List.mem_map_of_mem h)
      have hbeq : (entry.1 == head.1) = false := by simpa using hne
      rw [List.lookup_cons, hbeq]
      exact ih hrest h

/-- What is delivered was checked in the form it is delivered in: the defaults that are used and the
`None`s that stand for a default are what their schemas ask for, and the numbers compare with their
bounds. -/
structure CheckedAsDelivered (py : Stdlib) (schema : ToolSchema) (request : ToolRequest) : Prop where
  omitted : ∀ entry ∈ schema.arguments, request.arguments.has entry.1 = false →
    entry.2.default ≠ .none → Satisfies py entry.2 entry.2.default
  nones : ∀ entry ∈ schema.arguments, (entry.1, Value.none) ∈ request.arguments →
    entry.2.default ≠ .none → Satisfies py entry.2 .none
  numbers : ∀ entry ∈ schema.arguments, ArgumentType.numeric entry.2.type = true →
    ∀ value, (entry.1, value) ∈ request.arguments → Comparable entry.2 value

/-- INTERNAL: no numeric type has the value `None`. -/
theorem checkType_none_of_numeric {type : ArgumentType} (h : ArgumentType.numeric type = true) :
    ArgumentSchema.checkType type .none = false := by
  cases type <;> first | rfl | cases h

/-- INTERNAL: a value that was given and let pass.
SOURCE: tools/schema.py:147-157 -/
theorem satisfies_given_iff {argument : ArgumentSchema} {value : Value}
    (h : argument.validate py value = .ok none)
    (hnone : value = .none → argument.default = .none) :
    Satisfies py argument value ↔
      (ArgumentType.numeric argument.type = true → Comparable argument value) := by
  have hsame : (if value = .none then argument.default else value) = value := by
    split
    · next hvalue => rw [hnone hvalue, hvalue]
    · rfl
  have hchecks := (checks_of_validate h).2
  rwa [hsame] at hchecks

/-- A validated argument map is sound exactly when everything was checked as it is delivered.
SOURCE: tools/schema.py:44-179 -/
theorem validated_sound_iff (hkeys : (schema.arguments.map Prod.fst).Nodup)
    (h : schema.getValidatedArguments py request = .ok arguments) :
    SoundFor py schema arguments ↔ CheckedAsDelivered py schema request := by
  obtain ⟨hmissing, hgiven, rfl⟩ := accepted_of_returned h
  have hvalidated := validated_of_givenErrors hgiven
  constructor
  · intro hsound
    refine ⟨fun entry hentry homitted hdefault => ?_, fun entry hentry hnone _ => ?_,
      fun entry hentry hnumeric value hvalue => ?_⟩
    · have hmem : (entry.1, entry.2.default) ∈
          ToolSchema.withDefaults request.arguments schema.arguments :=
        (mem_withDefaults hkeys _).mpr (.inr ⟨entry.2, hentry, homitted, hdefault, rfl⟩)
      exact hsound.satisfied _ hmem entry.2 (lookup_of_declared hkeys hentry)
    · have hmem := (mem_withDefaults hkeys (entry.1, Value.none)).mpr (.inl hnone)
      exact hsound.satisfied _ hmem entry.2 (lookup_of_declared hkeys hentry)
    · have hmem := (mem_withDefaults hkeys (entry.1, value)).mpr (.inl hvalue)
      have hlookup := lookup_of_declared hkeys hentry
      have hsatisfies := hsound.satisfied _ hmem entry.2 hlookup
      obtain ⟨argument, hargument, hvalidate⟩ := hvalidated _ hvalue
      obtain rfl : entry.2 = argument := Option.some.inj (hlookup.symm.trans hargument)
      apply (satisfies_given_iff hvalidate ?_).mp hsatisfies hnumeric
      rintro rfl
      have htype := hsatisfies.type
      rw [checkType_none_of_numeric hnumeric] at htype
      cases htype
  · intro hchecked
    refine ⟨fun entry hentry => ?_, fun entry hentry hrequired => ?_,
      fun entry hentry argument hlookup => ?_⟩
    · rcases (mem_withDefaults hkeys entry).mp hentry with hmem | ⟨argument, hin, -⟩
      · obtain ⟨argument, hlookup, -⟩ := hvalidated entry hmem
        simp [hlookup]
      · simp [lookup_of_declared hkeys hin]
    · by_cases hhas : request.arguments.has entry.1 = true
      · obtain ⟨value, hvalue⟩ := Dict.has_iff_mem.mp hhas
        exact Dict.has_iff_mem.mpr ⟨value, (mem_withDefaults hkeys _).mpr (.inl hvalue)⟩
      · have homitted : request.arguments.has entry.1 = false := by simpa using hhas
        have hdefault : entry.2.default ≠ .none := by
          intro hnone
          unfold ToolSchema.missingErrors at hmissing
          have hfilter := List.filter_eq_nil_iff.mp (List.map_eq_nil_iff.mp hmissing) entry hentry
          simp [hrequired, homitted, hnone] at hfilter
        exact Dict.has_iff_mem.mpr ⟨entry.2.default, (mem_withDefaults hkeys _).mpr
          (.inr ⟨entry.2, hentry, homitted, hdefault, rfl⟩)⟩
    · rcases (mem_withDefaults hkeys entry).mp hentry with hmem |
        ⟨argument', hin, homitted, hdefault, hvalue⟩
      · obtain ⟨argument', hlookup', hvalidate⟩ := hvalidated entry hmem
        obtain rfl : argument = argument' := Option.some.inj (hlookup.symm.trans hlookup')
        obtain ⟨before, after, hsplit, -⟩ := List.lookup_eq_some_iff.mp hlookup
        have hin : (entry.1, argument) ∈ schema.arguments := by
          rw [hsplit]
          simp
        by_cases hnone : entry.2 = .none ∧ argument.default ≠ .none
        · have hgiven' : (entry.1, Value.none) ∈ request.arguments := hnone.1 ▸ hmem
          rw [hnone.1]
          exact hchecked.nones _ hin hgiven' hnone.2
        · apply (satisfies_given_iff hvalidate ?_).mpr
          · intro hnumeric
            exact hchecked.numbers _ hin hnumeric entry.2 hmem
          · intro hvalue
            by_contra hdefault
            exact hnone ⟨hvalue, hdefault⟩
      · have hlookup' := lookup_of_declared hkeys hin
        obtain rfl : argument = argument' := Option.some.inj (hlookup.symm.trans hlookup')
        rw [hvalue]
        exact hchecked.omitted _ hin homitted hdefault

end Requests

/-- A tool whose count is a number, ten by default. -/
def countSchema : ToolSchema :=
  { name := "notes"
    arguments := [("count", { name := "count", type := .integer, default := .int 10 })] }

/-- The same with the default written as a text. -/
def textSchema : ToolSchema :=
  { name := "notes"
    arguments := [("count", { name := "count", type := .integer, default := .str "ten" })] }

/-- A request without arguments. -/
def bareRequest : ToolRequest := { requestId := "request", tool := "notes", action := "run" }

/-- The number is delivered as declared. -/
theorem count_delivered : SoundFor .plain countSchema [("count", .int 10)] := by
  have hreturned : countSchema.getValidatedArguments .plain bareRequest =
      .ok [("count", .int 10)] := by rfl
  apply (validated_sound_iff (by decide) hreturned).mpr
  refine ⟨?_, by simp [bareRequest], by simp [bareRequest]⟩
  intro entry hentry _ _
  obtain rfl := List.mem_singleton.mp hentry
  refine ⟨rfl, fun _ => ⟨by simp, by simp⟩, by simp, by simp, by simp⟩

/-- The text is delivered in the place of the number. -/
theorem text_delivered_for_count :
    textSchema.getValidatedArguments .plain bareRequest = .ok [("count", .str "ten")] ∧
      ¬ SoundFor .plain textSchema [("count", .str "ten")] := by
  refine ⟨rfl, ?_⟩
  intro hsound
  have htype := (hsound.satisfied ("count", .str "ten") (List.mem_singleton_self _) _ rfl).type
  cases htype

end Shea.Analysis
