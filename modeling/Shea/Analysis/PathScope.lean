import Shea.Computation.Codes
import Shea.Model.Security

/-!
# The filesystem scope

`is_path_allowed` normalizes a path and each allowed root and compares texts: they are the same, or the
path goes on after the root and a slash. What that is to decide is whether the components of the root,
with `.`, `..` and empty ones resolved, are the first components of the path. The comparison of texts
never allows more than that. It allows less where the root is the root directory, whose text ends in a
slash already, and where only one of the two begins with exactly two slashes, which `normpath` keeps.
-/

set_option autoImplicit false

namespace Shea.Analysis

open Shea.Computation Shea.Model

/-! ## Scopes by components -/

/-- A path is absolute if it starts with a slash. -/
def IsAbsolute (path : String) : Prop := path.toList.head? = some '/'

instance (path : String) : Decidable (IsAbsolute path) :=
  inferInstanceAs (Decidable (path.toList.head? = some '/'))

/-- What stands between the slashes of a path. -/
def pathComponents (path : String) : List String := (path.toList.splitOn '/').map String.ofList

/-- One component: `.` and the empty one stay where they are, `..` goes up, where there is something to
go up from. -/
def resolveComponent (above : List String) (comp : String) : List String :=
  if comp = "" ∨ comp = "." then above
  else if comp = ".." then above.dropLast
  else above ++ [comp]

/-- The components that are left of an absolute path. -/
def lexicalComponents (path : String) : List String :=
  (pathComponents path).foldl resolveComponent []

/-- The root holds the path. -/
def Holds (root path : String) : Prop := lexicalComponents root <+: lexicalComponents path

instance (root path : String) : Decidable (Holds root path) :=
  inferInstanceAs (Decidable (lexicalComponents root <+: lexicalComponents path))

/-- The path is absolute and some root holds it. -/
def InScope (roots : List String) (path : String) : Prop :=
  IsAbsolute path ∧ ∃ root ∈ roots, Holds root path

/-- The path starts with two slashes and not with three. -/
def TwoSlashes (path : String) : Prop :=
  ∃ rest : List Char, path.toList = '/' :: '/' :: rest ∧ rest.head? ≠ some '/'

/-- The path is written below the root: both start with exactly two slashes or neither does, and the
root is not the root directory, unless the path is that as well. Or the root is the root directory and
only the path starts with exactly two slashes. -/
def WrittenBelow (root path : String) : Prop :=
  ((TwoSlashes root ↔ TwoSlashes path) ∧
    (lexicalComponents root = [] → lexicalComponents path = [])) ∨
  (lexicalComponents root = [] ∧ ¬ TwoSlashes root ∧ TwoSlashes path)

/-! ## Components -/

/-- INTERNAL: the split of the model is the split at the slashes. -/
theorem splitSlash_eq (s current : List Char) : splitSlash s current =
    ((s.splitOn '/').modifyHead (current.reverse ++ ·)).map String.ofList := by
  induction s generalizing current with
  | nil => simp [splitSlash]
  | cons c rest ih =>
    obtain ⟨part, parts, hparts⟩ := List.exists_cons_of_ne_nil (List.splitOn_ne_nil '/' rest)
    rw [List.splitOn_cons_eq_if_modifyHead, splitSlash, ih, ih, hparts]
    by_cases hc : c = '/'
    · simp [hc]
    · simp [hc]

/-- INTERNAL: splitting from the start gives the components. -/
theorem splitSlash_nil (path : String) : splitSlash path.toList [] = pathComponents path := by
  rw [splitSlash_eq]
  unfold pathComponents
  obtain ⟨part, parts, hparts⟩ := List.exists_cons_of_ne_nil (List.splitOn_ne_nil '/' path.toList)
  simp [hparts]

/-- INTERNAL: below the root directory, nothing kept is `..`. -/
theorem normComponents_rooted (comps kept : List String) (hkept : ".." ∉ kept) :
    (normComponents true comps kept).reverse = comps.foldl resolveComponent kept.reverse := by
  induction comps generalizing kept with
  | nil => rfl
  | cons comp rest ih =>
    rw [normComponents.eq_def, List.foldl_cons]
    dsimp only
    by_cases hskip : comp = "" ∨ comp = "."
    · rw [if_pos hskip, ih kept hkept, resolveComponent, if_pos hskip]
    · rw [if_neg hskip, resolveComponent, if_neg hskip]
      by_cases hup : comp = ".."
      · rw [if_neg (not_not_intro hup), if_pos hup]
        cases kept with
        | nil => simpa using ih [] (by simp)
        | cons last above =>
          obtain ⟨hlast, habove⟩ : last ≠ ".." ∧ ".." ∉ above := by
            simpa [eq_comm] using hkept
          simpa [hlast] using ih above habove
      · rw [if_pos hup, if_neg hup, ih (comp :: kept) (by simp [Ne.symm hup, hkept]),
          List.reverse_cons]

/-- INTERNAL: the components that are left are whole components of the path. -/
theorem mem_normComponents {rooted : Bool} {comps kept : List String} {part : String}
    (h : part ∈ normComponents rooted comps kept) : part ∈ kept ∨ (part ∈ comps ∧ part ≠ "") := by
  induction comps generalizing kept with
  | nil => exact .inl h
  | cons comp rest ih =>
    have hrest : ∀ {these : List String}, part ∈ normComponents rooted rest these →
        (∀ other ∈ these, other ∈ kept ∨ (other = comp ∧ comp ≠ "")) →
        part ∈ kept ∨ (part ∈ comp :: rest ∧ part ≠ "") := by
      intro these hpart hthese
      rcases ih hpart with hmem | ⟨hmem, hne⟩
      · rcases hthese part hmem with hkept | ⟨rfl, hne⟩
        · exact .inl hkept
        · exact .inr ⟨List.mem_cons_self .., hne⟩
      · exact .inr ⟨List.mem_cons_of_mem _ hmem, hne⟩
    rw [normComponents.eq_def] at h
    dsimp only at h
    by_cases hskip : comp = "" ∨ comp = "."
    · rw [if_pos hskip] at h
      exact hrest h fun other hother => .inl hother
    have hcomp : comp ≠ "" := fun hnil => hskip (.inl hnil)
    rw [if_neg hskip] at h
    by_cases hname : comp ≠ ".."
    · rw [if_pos hname] at h
      refine hrest h fun other hother => ?_
      rcases List.mem_cons.mp hother with rfl | hother
      · exact .inr ⟨rfl, hcomp⟩
      · exact .inl hother
    rw [if_neg hname] at h
    cases kept with
    | nil =>
      refine hrest h fun other hother => ?_
      cases rooted with
      | true => cases hother
      | false => exact .inr ⟨List.mem_singleton.mp hother, hcomp⟩
    | cons last above =>
      refine hrest h fun other hother => ?_
      split_ifs at hother
      · rcases List.mem_cons.mp hother with rfl | hother
        · exact .inr ⟨rfl, hcomp⟩
        · exact .inl hother
      · exact .inl (List.mem_cons_of_mem _ hother)

/-- The letters of the components. -/
def letters (comps : List String) : List (List Char) := comps.map String.toList

/-- INTERNAL: no component that is left is empty or has a slash. -/
theorem letters_normComponents (rooted : Bool) (path : String) :
    ∀ part ∈ letters (normComponents rooted (pathComponents path) []).reverse,
      part ≠ [] ∧ '/' ∉ part := by
  intro part hpart
  obtain ⟨comp, hcomp, rfl⟩ := List.mem_map.mp hpart
  rcases mem_normComponents (List.mem_reverse.mp hcomp) with hnone | ⟨hmem, hne⟩
  · cases hnone
  · obtain ⟨piece, hpiece, rfl⟩ := List.mem_map.mp hmem
    refine ⟨by simpa using hne, ?_⟩
    rw [String.toList_ofList]
    exact not_mem_of_mem_splitOn hpiece

/-- INTERNAL: the normal form is the lexical one. -/
theorem normComponents_lexical (path : String) :
    (normComponents true (pathComponents path) []).reverse = lexicalComponents path :=
  normComponents_rooted (pathComponents path) [] (by simp)

/-- INTERNAL: a lexical component is a name: not empty, without slashes. -/
theorem letters_lexical (path : String) :
    ∀ part ∈ letters (lexicalComponents path), part ≠ [] ∧ '/' ∉ part := by
  rw [← normComponents_lexical]
  exact letters_normComponents true path

/-- INTERNAL: lists of names are told apart by their letters. -/
theorem letters_inj {comps others : List String} : letters comps = letters others ↔ comps = others :=
  (List.map_injective_iff.mpr fun _ _ h => String.toList_inj.mp h).eq_iff

/-- INTERNAL: joined components do not start with a slash. -/
theorem head_join {parts : List (List Char)} (hparts : ∀ part ∈ parts, part ≠ [] ∧ '/' ∉ part) :
    ∀ c ∈ (['/'].intercalate parts).head?, ¬ c = '/' := by
  intro c hc
  cases parts with
  | nil => cases hc
  | cons part rest =>
    obtain ⟨hne, hslash⟩ := hparts part (List.mem_cons_self ..)
    obtain ⟨d, tail, rfl⟩ := List.exists_cons_of_ne_nil hne
    have hd : c = d := by
      cases rest with
      | nil => simpa [eq_comm] using hc
      | cons other rest => simpa [List.intercalate_cons_cons, eq_comm] using hc
    rintro rfl
    exact hslash (hd ▸ List.mem_cons_self ..)

/-! ## Normalized texts -/

/-- INTERNAL: a path that is not absolute starts with no slash, one with exactly two keeps both. -/
theorem initialSlashes_cases (s : List Char) :
    (s.head? ≠ some '/' ∧ initialSlashes s = 0) ∨
    (s.head? = some '/' ∧ (∃ rest, s = '/' :: '/' :: rest ∧ rest.head? ≠ some '/') ∧
      initialSlashes s = 2) ∨
    (s.head? = some '/' ∧ (¬ ∃ rest, s = '/' :: '/' :: rest ∧ rest.head? ≠ some '/') ∧
      initialSlashes s = 1) := by
  fun_cases initialSlashes s with
  | case1 tail =>
    refine .inr (.inr ⟨rfl, ?_, rfl⟩)
    rintro ⟨rest, heq, hhead⟩
    obtain rfl : '/' :: tail = rest := by simpa using heq
    exact hhead rfl
  | case2 tail hthree =>
    refine .inr (.inl ⟨rfl, ⟨tail, rfl, fun hhead => ?_⟩, rfl⟩)
    obtain ⟨rest, rfl⟩ := List.head?_eq_some_iff.mp hhead
    exact hthree rest rfl
  | case3 tail hthree htwo =>
    refine .inr (.inr ⟨rfl, ?_, rfl⟩)
    rintro ⟨rest, heq, -⟩
    obtain rfl : tail = '/' :: rest := by simpa using heq
    exact htwo rest rfl
  | case4 _ _ _ hone =>
    refine .inl ⟨fun hhead => ?_, rfl⟩
    obtain ⟨rest, rfl⟩ := List.head?_eq_some_iff.mp hhead
    exact hone rest rfl

/-- INTERNAL: an absolute path keeps one slash or two. -/
theorem initialSlashes_absolute {path : String} (h : IsAbsolute path) :
    (TwoSlashes path ∧ initialSlashes path.toList = 2) ∨
      (¬ TwoSlashes path ∧ initialSlashes path.toList = 1) := by
  rcases initialSlashes_cases path.toList with ⟨hno, -⟩ | ⟨-, htwo⟩ | ⟨-, hone⟩
  · exact absurd h hno
  · exact .inl htwo
  · exact .inr hone

/-- The text of a normalized path. -/
theorem toList_normpath {path : String} (h : IsAbsolute path) : (normpath path).toList =
    List.replicate (initialSlashes path.toList) '/' ++
      ['/'].intercalate (letters (lexicalComponents path)) := by
  have hslashes : 0 < initialSlashes path.toList := by
    rcases initialSlashes_absolute h with ⟨-, hn⟩ | ⟨-, hn⟩ <;> omega
  have hslash : ("/" : String).toList = ['/'] := by decide
  unfold normpath
  dsimp only
  rw [splitSlash_nil, decide_eq_true hslashes, normComponents_lexical]
  have hne : String.ofList (List.replicate (initialSlashes path.toList) '/') ++
      String.intercalate "/" (lexicalComponents path) ≠ "" := by
    intro hempty
    have hlists := congrArg String.toList hempty
    rw [String.toList_append, String.toList_ofList, String.toList_empty, List.append_eq_nil_iff,
      List.replicate_eq_nil_iff] at hlists
    omega
  rw [if_neg hne, String.toList_append, String.toList_ofList, String.toList_intercalate, hslash]
  rfl

/-- An absolute path stays absolute. -/
theorem head_normpath {path : String} (h : IsAbsolute path) :
    (normpath path).toList.head? = some '/' := by
  rw [toList_normpath h]
  rcases initialSlashes_absolute h with ⟨-, hn⟩ | ⟨-, hn⟩ <;> rw [hn] <;> rfl

/-- The text of the current directory is a dot. -/
theorem normpath_ne_empty (path : String) : normpath path ≠ "" := by
  unfold normpath
  dsimp only
  split_ifs with h
  · decide
  · exact h

/-- A relative path stays relative. -/
theorem normpath_relative {path : String} (h : ¬ IsAbsolute path) :
    (normpath path).toList.head? ≠ some '/' := by
  have hzero : initialSlashes path.toList = 0 := by
    rcases initialSlashes_cases path.toList with ⟨-, hzero⟩ | ⟨habsolute, -⟩ | ⟨habsolute, -⟩
    · exact hzero
    · exact absurd habsolute h
    · exact absurd habsolute h
  have hslash : ("/" : String).toList = ['/'] := by decide
  unfold normpath
  dsimp only
  rw [splitSlash_nil, hzero]
  split_ifs
  · decide
  · rw [String.toList_append, String.toList_ofList, String.toList_intercalate, hslash]
    intro hhead
    exact head_join (letters_normComponents _ path) '/' (by simpa [letters] using hhead) rfl

/-! ## The comparison -/

section Comparison

variable {path root : String}

/-- INTERNAL: texts of slashes and components are compared part by part. -/
theorem slashes_join_inj {m n : ℕ} {parts others : List (List Char)}
    (hparts : ∀ part ∈ parts, part ≠ [] ∧ '/' ∉ part)
    (hothers : ∀ part ∈ others, part ≠ [] ∧ '/' ∉ part) :
    List.replicate m '/' ++ ['/'].intercalate parts = List.replicate n '/' ++ ['/'].intercalate others ↔
      m = n ∧ parts = others := by
  constructor
  · intro h
    obtain ⟨hslashes, hjoin⟩ := append_inj_of_stop (p := (· = '/'))
      (fun c hc => List.eq_of_mem_replicate hc) (fun c hc => List.eq_of_mem_replicate hc)
      (head_join hparts) (head_join hothers) h
    have hlength := congrArg List.length hslashes
    rw [List.length_replicate, List.length_replicate] at hlength
    exact ⟨hlength, join_inj hparts hothers hjoin⟩
  · rintro ⟨rfl, rfl⟩
    rfl

/-- INTERNAL: so many slashes are the beginning of a text that has that many. -/
theorem replicate_prefix_iff {m n : ℕ} {s : List Char} (hs : ∀ c ∈ s.head?, ¬ c = '/') :
    List.replicate m '/' <+: List.replicate n '/' ++ s ↔ m ≤ n := by
  induction m generalizing n with
  | zero => simp
  | succ m ih =>
    cases n with
    | zero =>
      cases s with
      | nil => simp
      | cons c s =>
        have hc : c ≠ '/' := hs c rfl
        simp [List.replicate_succ, Ne.symm hc]
    | succ n => simpa [List.replicate_succ] using ih

/-- INTERNAL: the text of the root and a slash begin the text of the path. -/
theorem below_iff {m n : ℕ} {parts others : List (List Char)}
    (hparts : ∀ part ∈ parts, part ≠ [] ∧ '/' ∉ part)
    (hothers : ∀ part ∈ others, part ≠ [] ∧ '/' ∉ part) :
    List.replicate m '/' ++ ['/'].intercalate parts ++ ['/'] <+:
        List.replicate n '/' ++ ['/'].intercalate others ↔
      (parts = [] ∧ m < n) ∨ (parts ≠ [] ∧ m = n ∧ parts <+: others ∧ parts ≠ others) := by
  by_cases hnil : parts = []
  · subst hnil
    have hslashes : List.replicate m '/' ++ ['/'].intercalate [] ++ ['/'] =
        List.replicate (m + 1) '/' := by simp [List.replicate_succ']
    rw [hslashes, replicate_prefix_iff (head_join hothers)]
    simp only [ne_eq, not_true_eq_false, false_and, or_false, true_and]
    exact Nat.lt_iff_add_one_le.symm
  · simp only [hnil, false_and, ne_eq, not_false_eq_true, true_and, false_or]
    have hhead : ∀ (t : List Char), ∀ c ∈ (['/'].intercalate parts ++ ['/'] ++ t).head?, ¬ c = '/' := by
      intro t c hc
      obtain ⟨d, tail, hjoin⟩ : ∃ d tail, ['/'].intercalate parts = d :: tail := by
        refine List.exists_cons_of_ne_nil fun hempty => hnil ?_
        have hnone : ∀ part ∈ ([] : List (List Char)), part ≠ [] ∧ '/' ∉ part := by simp
        exact join_inj hparts hnone hempty
      refine head_join hparts c ?_
      rw [hjoin] at hc ⊢
      exact hc
    constructor
    · rintro ⟨t, ht⟩
      rw [List.append_assoc, List.append_assoc] at ht
      obtain ⟨hslashes, hjoin⟩ := append_inj_of_stop (p := (· = '/'))
        (fun c hc => List.eq_of_mem_replicate hc) (fun c hc => List.eq_of_mem_replicate hc)
        (by simpa using hhead t) (head_join hothers) ht
      have hlength := congrArg List.length hslashes
      rw [List.length_replicate, List.length_replicate] at hlength
      refine ⟨hlength, (join_prefix_iff hnil hparts hothers).mp ⟨t, ?_⟩⟩
      rw [List.append_assoc]
      exact hjoin
    · rintro ⟨rfl, hbegins⟩
      rw [List.append_assoc]
      exact (List.prefix_append_right_inj _).mpr ((join_prefix_iff hnil hparts hothers).mpr hbegins)

/-- INTERNAL: what the comparison of a path with one root tells.
SOURCE: security/filesystem_policy.py:28-31 -/
theorem compared_iff (hpath : IsAbsolute path) (hroot : IsAbsolute root) :
    (normpath path = normpath root ∨ startsWith (normpath path) (normpath root ++ "/") = true) ↔
      Holds root path ∧ WrittenBelow root path := by
  have hslash : ("/" : String).toList = ['/'] := by decide
  have hnil : ∀ comps : List String, letters comps = [] ↔ comps = [] := fun comps => List.map_eq_nil_iff
  have hbegins : letters (lexicalComponents root) <+: letters (lexicalComponents path) ↔
      Holds root path := by
    unfold Holds letters
    exact List.prefix_map_iff_of_injective fun _ _ h => String.toList_injective h
  unfold startsWith
  rw [List.isPrefixOf_iff_prefix, String.toList_append, hslash, ← String.toList_inj,
    toList_normpath hpath, toList_normpath hroot,
    slashes_join_inj (letters_lexical path) (letters_lexical root),
    below_iff (letters_lexical root) (letters_lexical path), hbegins, letters_inj, ne_eq, ne_eq, hnil,
    letters_inj]
  unfold WrittenBelow
  have hself : lexicalComponents path = lexicalComponents root → Holds root path := by
    intro h
    unfold Holds
    exact h ▸ List.prefix_rfl
  have hall : lexicalComponents root = [] → Holds root path := by
    intro h
    unfold Holds
    rw [h]
    exact List.nil_prefix
  -- one slash or two on either side
  rcases initialSlashes_absolute hpath with ⟨htwo, hn⟩ | ⟨htwo, hn⟩ <;>
    rcases initialSlashes_absolute hroot with ⟨htwo', hn'⟩ | ⟨htwo', hn'⟩ <;>
    rw [hn, hn'] <;> grind

/-- INTERNAL: a root that is not absolute allows no path. -/
theorem not_compared_of_relative (hpath : IsAbsolute path) (hroot : ¬ IsAbsolute root) :
    ¬ (normpath path = normpath root ∨
      startsWith (normpath path) (normpath root ++ "/") = true) := by
  have hslash : ("/" : String).toList = ['/'] := by decide
  have hhead : (normpath path).toList.head? = some '/' := head_normpath hpath
  rintro (hsame | hbelow)
  · exact normpath_relative hroot (hsame ▸ hhead)
  · unfold startsWith at hbelow
    rw [List.isPrefixOf_iff_prefix, String.toList_append, hslash] at hbelow
    obtain ⟨rest, hrest⟩ := hbelow
    cases hnormal : (normpath root).toList with
    | nil => exact normpath_ne_empty root (String.toList_eq_nil_iff.mp hnormal)
    | cons c tail =>
      have hc := normpath_relative hroot
      rw [← hrest, hnormal] at hhead
      rw [hnormal] at hc
      exact hc hhead

/-- INTERNAL: what the check allows.
SOURCE: security/filesystem_policy.py:23-32 -/
theorem isPathAllowed_iff (policy : FilesystemPolicy) (path : String) :
    isPathAllowed policy path = true ↔ IsAbsolute path ∧
      ∃ root ∈ policy.allowedRoots, IsAbsolute root ∧ Holds root path ∧ WrittenBelow root path := by
  have hslash : ("/" : String).toList = ['/'] := by decide
  have habsolute : startsWith (normpath path) "/" = true ↔ IsAbsolute path := by
    unfold startsWith
    rw [hslash, List.isPrefixOf_iff_prefix, List.singleton_prefix_iff_head?_eq_some]
    constructor
    · intro h
      by_contra hrelative
      exact normpath_relative hrelative h
    · exact head_normpath
  unfold isPathAllowed
  rw [Bool.and_eq_true, habsolute, List.any_eq_true]
  refine and_congr_right fun hpath => exists_congr fun root => and_congr_right fun hroot => ?_
  rw [Bool.or_eq_true, decide_eq_true_iff]
  by_cases hroot : IsAbsolute root
  · simpa only [hroot, true_and] using compared_iff hpath hroot
  · simpa only [hroot, false_and, iff_false] using not_compared_of_relative hpath hroot

/-- The check agrees with the scope by components if and only if, of the roots that hold the path, one
is written so that the comparison of texts finds it.
SOURCE: security/filesystem_policy.py:23-32 -/
theorem path_scope_iff {policy : FilesystemPolicy}
    (hroots : ∀ root ∈ policy.allowedRoots, IsAbsolute root) (path : String) :
    (isPathAllowed policy path = true ↔ InScope policy.allowedRoots path) ↔
      (InScope policy.allowedRoots path →
        ∃ root ∈ policy.allowedRoots, Holds root path ∧ WrittenBelow root path) := by
  rw [isPathAllowed_iff policy path]
  constructor
  · intro hiff hscope
    obtain ⟨root, hroot, -, hfound⟩ := (hiff.mpr hscope).2
    exact ⟨root, hroot, hfound⟩
  · intro hfound
    constructor
    · rintro ⟨hpath, root, hroot, -, hholds, -⟩
      exact ⟨hpath, root, hroot, hholds⟩
    · intro hscope
      obtain ⟨root, hroot, hwritten⟩ := hfound hscope
      exact ⟨hscope.1, root, hroot, hroots root hroot, hwritten⟩

end Comparison

/-- A path below a folder of notes is in its scope, and allowed: both sides hold. -/
theorem note_path_allowed :
    isPathAllowed { allowedRoots := ["/notes"] } "/notes//a/../b" = true ∧
      InScope ["/notes"] "/notes//a/../b" := by
  have hallowed : isPathAllowed { allowedRoots := ["/notes"] } "/notes//a/../b" = true := by
    decide +kernel
  have htwo : ∀ path : String, path.toList[1]? ≠ some '/' → ¬ TwoSlashes path := by
    rintro path hsecond ⟨rest, hrest, -⟩
    rw [hrest] at hsecond
    exact hsecond rfl
  refine ⟨hallowed, ((path_scope_iff (by simp [IsAbsolute]) _).mpr fun _ =>
    ⟨"/notes", by simp, by decide +kernel, ?_⟩).mp hallowed⟩
  refine .inl ⟨?_, fun h => absurd h (by decide +kernel)⟩
  simp only [htwo "/notes" (by decide), htwo "/notes//a/../b" (by decide)]

/-- With the root directory as its only root, the check refuses every path below it. -/
theorem root_directory_refuses :
    (∀ root ∈ ["/"], IsAbsolute root) ∧ InScope ["/"] "/etc" ∧
      isPathAllowed { allowedRoots := ["/"] } "/etc" = false := by
  refine ⟨by simp [IsAbsolute], ⟨by decide, "/", by simp, by decide +kernel⟩, by decide +kernel⟩

end Shea.Analysis
