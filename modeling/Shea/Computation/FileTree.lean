import Mathlib.Data.List.Infix
import Mathlib.Data.Set.Defs
import Mathlib.Logic.Function.Basic

/-!
# File trees

A tree of directories, files and symbolic links, as a system without other users shows it to a
process. Every file has one name: there are no hard links. A path is a list of hops; a `Location` is a path
without links, as the list of its names from the inside out, so that what lies below a location ends with it.

`walk` is the one definition of where a path leads. It has three readings, which differ in what they
do about a name that is not there: the system refuses such a path, unless the last name may be new
(when a file is opened for writing), and a real path keeps the name. The links met on the way
may lead through links again, up to a bound; a cycle of links exceeds every bound.

A location without a link on the way (`Real`) is where its own path leads, and every path leads to
such a location.
-/

set_option autoImplicit false

namespace Shea.Computation

/-- One component of a path. -/
inductive Hop (ν : Type)
  | up
  | down (name : ν)
  deriving DecidableEq, Repr

/-- The names that lead to a place, the innermost first. -/
abbrev Location (ν : Type) := List ν

/-- What there is at a location. -/
inductive Node (ν β : Type)
  | directory
  | file (content : List β)
  | link (rooted : Bool) (target : List (Hop ν))
  deriving DecidableEq, Repr

/-- Why the system refuses a path. -/
inductive PathFault
  | notFound
  | notDirectory
  | isDirectory
  | present
  | loop
  deriving DecidableEq, Repr

/-- The root is a directory, and whatever is there is in a directory. -/
structure FileTree (ν β : Type) where
  node : Location ν → Option (Node ν β)
  root : node [] = some .directory
  closed : ∀ name parent, node (name :: parent) ≠ none → node parent = some .directory

/-- The root alone. -/
def FileTree.empty {ν β : Type} : FileTree ν β where
  node := fun place => if place.isEmpty then some .directory else none
  root := rfl
  closed := fun _ _ h => absurd rfl h

/-- What a walk does about a name that is not there. -/
inductive Missing
  | refused
  | lastKept
  | kept
  deriving DecidableEq, Repr

/-- The path to a location. -/
def route {ν : Type} (place : Location ν) : List (Hop ν) := place.reverse.map .down

/-- INTERNAL: the route to a location goes through its parent. -/
theorem route_cons {ν : Type} (name : ν) (parent : Location ν) :
    route (name :: parent) = route parent ++ [.down name] := by
  simp [route]

namespace FileTree

section Walks

variable {ν β : Type}

/-- The fault of a path that leads on from a place that is no directory. -/
def fault (tree : FileTree ν β) (here : Location ν) : PathFault :=
  match tree.node here with
  | some (.file _) => .notDirectory
  | _ => .notFound

/-- Is there a directory? -/
def isDirectory (tree : FileTree ν β) (here : Location ν) : Bool :=
  match tree.node here with
  | some .directory => true
  | _ => false

/-- May the walk go on to a name that is not there, with these hops behind it? -/
def keeps (tree : FileTree ν β) (missing : Missing) (here : Location ν) (hops : List (Hop ν)) : Bool :=
  match missing with
  | .refused => false
  | .lastKept => hops.isEmpty && tree.isDirectory here
  | .kept => true

/-- Walks along the hops, where `follow` says where a link leads. -/
def walkWith (tree : FileTree ν β) (missing : Missing)
    (follow : Location ν → List (Hop ν) → Except PathFault (Location ν)) :
    List (Hop ν) → Location ν → Except PathFault (Location ν)
  | [], here => .ok here
  | .up :: hops, here =>
      if missing = .kept ∨ tree.isDirectory here then tree.walkWith missing follow hops here.tail
      else .error (tree.fault here)
  | .down name :: hops, here =>
      match tree.node (name :: here) with
      | some (.link rooted target) => do
          let there ← follow (if rooted then [] else here) target
          tree.walkWith missing follow hops there
      | some _ => tree.walkWith missing follow hops (name :: here)
      | none =>
          if tree.keeps missing here hops then tree.walkWith missing follow hops (name :: here)
          else .error (tree.fault here)

/-- Where a path leads, when links lead through at most `depth` further ones. -/
def walk (tree : FileTree ν β) (missing : Missing) :
    ℕ → Location ν → List (Hop ν) → Except PathFault (Location ν)
  | 0 => fun here hops => tree.walkWith missing (fun _ _ => .error .loop) hops here
  | depth + 1 => fun here hops => tree.walkWith missing (tree.walk missing depth) hops here

/-- What there is where a path leads. -/
def status (tree : FileTree ν β) (depth : ℕ) (hops : List (Hop ν)) : Except PathFault (Node ν β) := do
  match tree.node (← tree.walk .refused depth [] hops) with
  | some found => .ok found
  | none => .error .notFound

/-- The content of a file. -/
def read (tree : FileTree ν β) (depth : ℕ) (hops : List (Hop ν)) : Except PathFault (List β) := do
  match ← tree.status depth hops with
  | .file content => .ok content
  | .directory => .error .isDirectory
  | .link .. => .error .loop

/-! ## Locations without links on the way -/

/-- Nothing on the way to the location is a link. -/
def Real (tree : FileTree ν β) (place : Location ν) : Prop :=
  ∀ outer, outer <:+ place → ∀ rooted target, tree.node outer ≠ some (.link rooted target)

variable {tree : FileTree ν β} {name : ν} {parent place here there : Location ν}

/-- The root is real. -/
theorem real_nil : tree.Real [] := by
  intro outer houter rooted target h
  rw [List.suffix_nil.mp houter, tree.root] at h
  cases h

/-- A location is real if it is no link and its parent is real. -/
theorem real_cons : tree.Real (name :: parent) ↔
    (∀ rooted target, tree.node (name :: parent) ≠ some (.link rooted target)) ∧ tree.Real parent := by
  constructor
  · intro h
    exact ⟨h _ (List.suffix_refl _), fun outer houter => h outer (houter.trans (List.suffix_cons _ _))⟩
  · rintro ⟨hplace, hparent⟩ outer houter
    rcases List.suffix_cons_iff.mp houter with rfl | houter
    · exact hplace
    · exact hparent outer houter

/-- The parent of a real location is real. -/
theorem Real.tail (h : tree.Real place) : tree.Real place.tail := by
  cases place with
  | nil => exact h
  | cons name parent => exact (real_cons.mp h).2

/-- A walk from a real location ends at one, when the links do. -/
theorem walkWith_real {missing : Missing}
    {follow : Location ν → List (Hop ν) → Except PathFault (Location ν)}
    (hfollow : ∀ here hops there, tree.Real here → follow here hops = .ok there → tree.Real there)
    {hops : List (Hop ν)} (hhere : tree.Real here)
    (h : tree.walkWith missing follow hops here = .ok there) : tree.Real there := by
  induction hops generalizing here with
  | nil => exact Except.ok.inj h ▸ hhere
  | cons hop hops ih =>
    cases hop with
    | up =>
      unfold walkWith at h
      split at h
      · exact ih hhere.tail h
      · cases h
    | down name =>
      unfold walkWith at h
      split at h
      · next rooted target hnode =>
        cases hto : follow (if rooted then [] else here) target with
        | error fault =>
          rw [hto] at h
          cases h
        | ok linked =>
          rw [hto] at h
          refine ih (hfollow _ _ _ ?_ hto) h
          split
          · exact real_nil
          · exact hhere
      · next found hnode hlink =>
        refine ih (real_cons.mpr ⟨fun rooted target hto => ?_, hhere⟩) h
        exact hnode rooted target (Option.some.inj (hlink.symm.trans hto))
      · next hnode =>
        split at h
        · refine ih (real_cons.mpr ⟨fun rooted target hto => ?_, hhere⟩) h
          rw [hnode] at hto
          cases hto
        · cases h

/-- Every path leads to a location without links on the way. -/
theorem walk_real {missing : Missing} {depth : ℕ} {hops : List (Hop ν)} (hhere : tree.Real here)
    (h : tree.walk missing depth here hops = .ok there) : tree.Real there := by
  induction depth generalizing here hops there with
  | zero =>
    refine walkWith_real (fun _ _ _ _ hto => ?_) hhere h
    cases hto
  | succ depth ih => exact walkWith_real (fun _ _ _ hfrom hto => ih hfrom hto) hhere h

/-- Whatever is there has a directory around it. -/
theorem exists_parent (h : tree.node (name :: parent) ≠ none) : tree.node parent ≠ none := by
  rw [tree.closed name parent h]
  exact Option.some_ne_none _

/-- A walk along a real location, which must be there unless what is missing is kept. -/
theorem walkWith_route {missing : Missing}
    {follow : Location ν → List (Hop ν) → Except PathFault (Location ν)} (hreal : tree.Real place)
    (hthere : missing = .kept ∨ tree.node place ≠ none) (hops : List (Hop ν)) :
    tree.walkWith missing follow (route place ++ hops) [] = tree.walkWith missing follow hops place := by
  induction place generalizing hops with
  | nil => rfl
  | cons name parent ih =>
    obtain ⟨hlink, hparent⟩ := real_cons.mp hreal
    rw [route_cons, List.append_assoc, ih hparent (hthere.imp_right exists_parent)]
    simp only [List.singleton_append, walkWith]
    split
    · next rooted target hnode => exact absurd hnode (hlink rooted target)
    · rfl
    · next hnode =>
      rcases hthere with rfl | hthere
      · simp only [keeps, if_true]
      · exact absurd hnode hthere

/-- A walk along the route of a real location comes there. -/
theorem walk_route_append {missing : Missing} (hreal : tree.Real place)
    (hthere : missing = .kept ∨ tree.node place ≠ none) (depth : ℕ) (hops : List (Hop ν)) :
    tree.walk missing depth [] (route place ++ hops) = tree.walk missing depth place hops := by
  cases depth with
  | zero => exact walkWith_route hreal hthere hops
  | succ depth => exact walkWith_route hreal hthere hops

/-- A real location is where its path leads. -/
theorem walk_route {missing : Missing} (hreal : tree.Real place)
    (hthere : missing = .kept ∨ tree.node place ≠ none) (depth : ℕ) :
    tree.walk missing depth [] (route place) = .ok place := by
  have h := walk_route_append hreal hthere depth []
  rw [List.append_nil] at h
  rw [h]
  cases depth <;> rfl

/-- The system refuses the path to a real location that is not there. -/
theorem walk_route_absent {missing : Missing} (hreal : tree.Real place) (habsent : tree.node place = none)
    (hmissing : missing ≠ .kept) {depth : ℕ} {hops : List (Hop ν)}
    (hlast : missing = .refused ∨ hops ≠ []) :
    ∃ fault, tree.walk missing depth [] (route place ++ hops) = .error fault := by
  induction place generalizing hops with
  | nil => exact absurd habsent (by rw [tree.root]; exact Option.some_ne_none _)
  | cons name parent ih =>
    obtain ⟨-, hparent⟩ := real_cons.mp hreal
    rw [route_cons, List.append_assoc, List.singleton_append]
    by_cases hthere : tree.node parent = none
    · exact ih hparent hthere (.inr (List.cons_ne_nil _ _))
    · have hkeeps : tree.keeps missing parent hops = false := by
        cases missing with
        | refused => rfl
        | lastKept => simp [keeps, hlast.resolve_left (by decide)]
        | kept => exact absurd rfl hmissing
      refine ⟨tree.fault parent, ?_⟩
      rw [walk_route_append hparent (.inr hthere)]
      cases depth <;> simp [walk, walkWith, habsent, hkeeps]

/-- If the system finds the path to a real location, something is there. -/
theorem walk_refused_route (hreal : tree.Real place) {depth : ℕ}
    (h : tree.walk .refused depth [] (route place) = .ok here) :
    here = place ∧ tree.node place ≠ none := by
  by_cases hthere : tree.node place = none
  · obtain ⟨fault, hfault⟩ := @walk_route_absent _ _ tree place .refused hreal hthere (by decide) depth []
      (.inl rfl)
    rw [List.append_nil] at hfault
    exact absurd (hfault.symm.trans h) (by simp)
  · exact ⟨(Except.ok.inj ((walk_route hreal (.inr hthere) depth).symm.trans h)).symm, hthere⟩

/-- INTERNAL: also when the last hop is not followed. -/
theorem walk_lastKept_route (hreal : tree.Real place) {depth : ℕ}
    (h : tree.walk .lastKept depth [] (route place) = .ok here) : here = place := by
  cases place with
  | nil => exact (Except.ok.inj ((walk_route hreal (.inr (by simp [tree.root])) depth).symm.trans h)).symm
  | cons name parent =>
    obtain ⟨hlink, hparent⟩ := real_cons.mp hreal
    rw [route_cons] at h
    by_cases hthere : tree.node parent = none
    · obtain ⟨fault, hfault⟩ := @walk_route_absent _ _ tree parent .lastKept hparent hthere
        (by decide) depth [.down name] (.inr (List.cons_ne_nil _ _))
      exact absurd (hfault.symm.trans h) (by simp)
    · rw [walk_route_append hparent (.inr hthere)] at h
      have hone : ∀ follow, tree.walkWith .lastKept follow [.down name] parent = .ok here →
          here = name :: parent := by
        intro follow hwalk
        simp only [walkWith] at hwalk
        split at hwalk
        · next rooted target hnode => exact absurd hnode (hlink rooted target)
        · exact (Except.ok.inj hwalk).symm
        · split at hwalk
          · exact (Except.ok.inj hwalk).symm
          · cases hwalk
      cases depth with
      | zero => exact hone (fun _ _ => .error .loop) h
      | succ depth => exact hone (tree.walk .lastKept depth) h

/-- What there is at a real location. -/
theorem status_route (hreal : tree.Real place) (depth : ℕ) :
    (tree.status depth (route place)).toOption = tree.node place := by
  unfold status
  cases hwalk : tree.walk .refused depth [] (route place) with
  | error fault =>
    by_cases hthere : tree.node place = none
    · rw [hthere]
      rfl
    · exact absurd (hwalk.symm.trans (walk_route hreal (.inr hthere) depth)) (by simp)
  | ok here =>
    obtain ⟨rfl, hthere⟩ := walk_refused_route hreal hwalk
    show (match tree.node here with
      | some found => Except.ok found
      | none => .error PathFault.notFound).toOption = _
    cases tree.node here <;> rfl

/-- The content of the file at a real location. -/
theorem read_route {depth : ℕ} {content : List β} (hreal : tree.Real place) :
    tree.read depth (route place) = .ok content ↔ tree.node place = some (.file content) := by
  have hstatus := status_route hreal depth
  unfold read
  cases hfound : tree.status depth (route place) with
  | error fault =>
    rw [hfound] at hstatus
    rw [← hstatus]
    constructor <;> intro h <;> cases h
  | ok found =>
    rw [hfound] at hstatus
    rw [← hstatus]
    cases found with
    | file bytes => simp [bind, Except.bind, Except.toOption]
    | directory => simp [bind, Except.bind, Except.toOption]
    | link rooted target => simp [bind, Except.bind, Except.toOption]

/-- Only links decide where a real path leads. -/
theorem walkWith_congr {tree' : FileTree ν β}
    (hlinks : ∀ place rooted target, tree'.node place = some (.link rooted target) ↔
      tree.node place = some (.link rooted target))
    {follow : Location ν → List (Hop ν) → Except PathFault (Location ν)} (hops : List (Hop ν))
    (here : Location ν) :
    tree'.walkWith .kept follow hops here = tree.walkWith .kept follow hops here := by
  induction hops generalizing here with
  | nil => rfl
  | cons hop hops ih =>
    cases hop with
    | up => simp only [walkWith, true_or, if_true, ih]
    | down name =>
      have hplain : ∀ t : FileTree ν β, (∀ rooted target, t.node (name :: here) ≠ some (.link rooted target)) →
          t.walkWith .kept follow (.down name :: hops) here = t.walkWith .kept follow hops (name :: here) := by
        intro t ht
        rw [walkWith]
        split
        · next rooted target hnode => exact absurd hnode (ht rooted target)
        · rfl
        · simp only [keeps, if_true]
      by_cases hlink : ∃ rooted target, tree.node (name :: here) = some (.link rooted target)
      · obtain ⟨rooted, target, hlink⟩ := hlink
        simp only [walkWith, hlink, (hlinks _ _ _).mpr hlink, ih]
      · rw [not_exists] at hlink
        have hnot : ∀ rooted target, tree.node (name :: here) ≠ some (.link rooted target) :=
          fun rooted target h => hlink rooted ⟨target, h⟩
        rw [hplain tree hnot, hplain tree' fun rooted target h => hnot _ _ ((hlinks _ _ _).mp h), ih]

/-- Where links lead is a matter of the links only. -/
theorem walk_congr {tree' : FileTree ν β}
    (hlinks : ∀ place rooted target, tree'.node place = some (.link rooted target) ↔
      tree.node place = some (.link rooted target)) (depth : ℕ) :
    tree'.walk .kept depth = tree.walk .kept depth := by
  induction depth with
  | zero => exact funext fun here => funext fun hops => walkWith_congr hlinks hops here
  | succ depth ih =>
    funext here hops
    simp only [walk, ih]
    exact walkWith_congr hlinks hops here

/-! ## What is left alone -/

/-- The links are as before, and so is everything apart from the places and from new directories on the way
to them. -/
structure Touches (places : Set (Location ν)) (tree tree' : FileTree ν β) : Prop where
  links : ∀ other rooted target, tree'.node other = some (.link rooted target) ↔
    tree.node other = some (.link rooted target)
  others : ∀ other, tree'.node other = tree.node other ∨ other ∈ places ∨
    (tree.node other = none ∧ tree'.node other = some .directory ∧ ∃ place ∈ places, other <:+ place)

variable {tree' tree'' : FileTree ν β} {places places' : Set (Location ν)} {other : Location ν}

/-- A tree touches nothing of itself. -/
theorem Touches.refl (places : Set (Location ν)) (tree : FileTree ν β) : Touches places tree tree :=
  ⟨fun _ _ _ => Iff.rfl, fun _ => .inl rfl⟩

/-- Changes one after the other. -/
theorem Touches.trans (h : Touches places tree tree') (h' : Touches places tree' tree'') :
    Touches places tree tree'' := by
  refine ⟨fun other rooted target => (h'.links other rooted target).trans (h.links other rooted target), ?_⟩
  intro other
  rcases h.others other with hsame | hin | ⟨hnone, hdir, hway⟩
  · rw [← hsame]
    exact h'.others other
  · exact .inr (.inl hin)
  · rcases h'.others other with hsame | hin | ⟨hnone', -⟩
    · exact .inr (.inr ⟨hnone, hsame.trans hdir, hway⟩)
    · exact .inr (.inl hin)
    · rw [hdir] at hnone'
      cases hnone'

/-- Changes within fewer places are changes within more. -/
theorem Touches.mono (h : Touches places tree tree') (hsub : places ⊆ places') :
    Touches places' tree tree' := by
  refine ⟨h.links, fun other => ?_⟩
  rcases h.others other with hsame | hin | ⟨hnone, hdir, place, hplace, hway⟩
  · exact .inl hsame
  · exact .inr (.inl (hsub hin))
  · exact .inr (.inr ⟨hnone, hdir, place, hsub hplace, hway⟩)

/-- No path is led elsewhere. -/
theorem Touches.real (h : Touches places tree tree') (hreal : tree.Real other) : tree'.Real other :=
  fun outer houter rooted target hlink => hreal outer houter rooted target ((h.links _ _ _).mp hlink)

/-- Changes of what is no link lead nowhere else. -/
theorem Touches.walk (h : Touches places tree tree') (depth : ℕ) :
    tree'.walk .kept depth = tree.walk .kept depth :=
  walk_congr h.links depth

/-- A file elsewhere is as before. -/
theorem Touches.file (h : Touches places tree tree') {content : List β}
    (hnode : tree.node other = some (.file content)) (hother : other ∉ places) :
    tree'.node other = some (.file content) := by
  rcases h.others other with hsame | hin | ⟨hnone, -⟩
  · exact hsame.trans hnode
  · exact absurd hin hother
  · rw [hnode] at hnone
    cases hnone

end Walks

section Changes

variable {ν β : Type}

/-- The test for a directory. -/
theorem isDirectory_iff {tree : FileTree ν β} {here : Location ν} :
    tree.isDirectory here = true ↔ tree.node here = some .directory := by
  unfold isDirectory
  split
  · next h => exact ⟨fun _ => h, fun _ => rfl⟩
  · next h => exact ⟨fun hfalse => absurd hfalse Bool.false_ne_true, fun hdir => absurd hdir h⟩

/-- What becomes of something when bytes are added to it. -/
def extend (bytes : List β) : Node ν β → Node ν β
  | .file content => .file (content ++ bytes)
  | other => other

variable [DecidableEq ν]

/-- The tree with something else, or nothing, under a name of a directory that is no directory's. -/
def set (tree : FileTree ν β) (name : ν) (parent : Location ν) (new : Option (Node ν β))
    (hparent : tree.isDirectory parent = true) (hplace : tree.isDirectory (name :: parent) = false) :
    FileTree ν β where
  node := Function.update tree.node (name :: parent) new
  root := by
    rw [Function.update_of_ne (List.cons_ne_nil _ _).symm]
    exact tree.root
  closed := by
    intro child outer h
    have houter : tree.node outer = some .directory := by
      by_cases hself : child :: outer = name :: parent
      · rw [(List.cons.inj hself).2]
        exact isDirectory_iff.mp hparent
      · rw [Function.update_of_ne hself] at h
        exact tree.closed child outer h
    rw [Function.update_of_ne, houter]
    rintro rfl
    exact Bool.false_ne_true (hplace.symm.trans (isDirectory_iff.mpr houter))

/-- What is no directory takes no directory's place. -/
theorem set_isDirectory {tree : FileTree ν β} {name : ν} {place parent : Location ν} {found : Node ν β}
    {hparent : tree.isDirectory parent = true} {hplace : tree.isDirectory (name :: parent) = false}
    (hnode : tree.node place = some found) (hfound : tree.isDirectory place = false)
    (other : Location ν) :
    (tree.set name parent (some found) hparent hplace).isDirectory other = tree.isDirectory other := by
  by_cases hself : other = name :: parent
  · subst hself
    rw [hplace, ← hfound]
    unfold isDirectory
    rw [hnode]
    show (match Function.update tree.node _ _ _ with | some .directory => true | _ => false) = _
    rw [Function.update_self]
  · unfold isDirectory
    show (match Function.update tree.node _ _ _ with | some .directory => true | _ => false) = _
    rw [Function.update_of_ne hself]

/-- Adds bytes to an open file. -/
def append (tree : FileTree ν β) (place : Location ν) (bytes : List β) : FileTree ν β where
  node := Function.update tree.node place ((tree.node place).map (extend bytes))
  root := by
    by_cases h : [] = place
    · subst h
      rw [Function.update_self, tree.root]
      rfl
    · rw [Function.update_of_ne h]
      exact tree.root
  closed := by
    have hnone : ∀ other, Function.update tree.node place ((tree.node place).map (extend bytes)) other ≠ none →
        tree.node other ≠ none := by
      intro other h hother
      by_cases hself : other = place
      · subst hself
        rw [Function.update_self, hother] at h
        exact h rfl
      · rw [Function.update_of_ne hself] at h
        exact h hother
    intro child outer h
    have houter := tree.closed child outer (hnone _ h)
    by_cases hself : outer = place
    · subst hself
      rw [Function.update_self, houter]
      rfl
    · rw [Function.update_of_ne hself, houter]

/-- `mkdir`, which does not follow the last name. -/
def mkdir (tree : FileTree ν β) (depth : ℕ) : Location ν → Except PathFault (FileTree ν β)
  | [] => .error .present
  | name :: parent => do
      let here ← tree.walk .refused depth [] (route parent)
      if hdir : tree.isDirectory here = true then
        if hplace : tree.isDirectory (name :: here) = false then
          match tree.node (name :: here) with
          | none => .ok (tree.set name here (some .directory) hdir hplace)
          | some _ => .error .present
        else .error .present
      else .error (tree.fault here)

/-- Opens a file for writing: it is empty from then on. Returns where the file is. -/
def truncate (tree : FileTree ν β) (depth : ℕ) (place : Location ν) :
    Except PathFault (Location ν × FileTree ν β) := do
  match ← tree.walk .lastKept depth [] (route place) with
  | [] => .error .isDirectory
  | name :: here =>
    if hdir : tree.isDirectory here = true then
      if hplace : tree.isDirectory (name :: here) = false then
        .ok (name :: here, tree.set name here (some (.file [])) hdir hplace)
      else .error .isDirectory
    else .error (tree.fault here)

/-- `unlink`, which does not follow the last name. -/
def unlink (tree : FileTree ν β) (depth : ℕ) : Location ν → Except PathFault (FileTree ν β)
  | [] => .error .isDirectory
  | name :: parent => do
      let here ← tree.walk .refused depth [] (route parent)
      if hdir : tree.isDirectory here = true then
        if hplace : tree.isDirectory (name :: here) = false then
          match tree.node (name :: here) with
          | none => .error .notFound
          | some _ => .ok (tree.set name here none hdir hplace)
        else .error .isDirectory
      else .error (tree.fault here)

/-- `rename` of a file or a link to a name that is no directory's, which is replaced. A directory is not
moved. -/
def rename (tree : FileTree ν β) (depth : ℕ) : Location ν → Location ν → Except PathFault (FileTree ν β)
  | name :: parent, newName :: newParent => do
      let here ← tree.walk .refused depth [] (route parent)
      let there ← tree.walk .refused depth [] (route newParent)
      if hdir : tree.isDirectory here = true ∧ tree.isDirectory (name :: here) = false ∧
          tree.isDirectory there = true ∧ tree.isDirectory (newName :: there) = false then
        match hnode : tree.node (name :: here) with
        | none => .error .notFound
        | some found =>
          if name :: here = newName :: there then .ok tree
          else
            .ok ((tree.set newName there (some found) hdir.2.2.1 hdir.2.2.2).set name here none
              ((set_isDirectory hnode hdir.2.1 _).trans hdir.1)
              ((set_isDirectory hnode hdir.2.1 _).trans hdir.2.1))
      else .error .isDirectory
  | _, _ => .error .isDirectory

/-! ## Changes at real locations -/

variable {tree tree' : FileTree ν β} {depth : ℕ} {place other : Location ν} {places : Set (Location ν)}

/-- A new directory at a real location. -/
theorem mkdir_spec (hreal : tree.Real place) (h : tree.mkdir depth place = .ok tree') :
    tree.node place = none ∧ tree'.node = Function.update tree.node place (some .directory) := by
  cases place with
  | nil => cases h
  | cons name parent =>
    rw [mkdir] at h
    cases hwalk : tree.walk .refused depth [] (route parent) with
    | error fault =>
      rw [hwalk] at h
      cases h
    | ok here =>
      obtain ⟨rfl, -⟩ := walk_refused_route (real_cons.mp hreal).2 hwalk
      rw [hwalk] at h
      dsimp only [bind, Except.bind] at h
      split at h
      · split at h
        · split at h
          · next hnode => exact ⟨hnode, (congrArg node (Except.ok.inj h)).symm⟩
          · cases h
        · cases h
      · cases h

/-- A file that is emptied at a real location. -/
theorem truncate_spec {opened : Location ν} (hreal : tree.Real place)
    (h : tree.truncate depth place = .ok (opened, tree')) :
    opened = place ∧ tree.isDirectory place = false ∧
      tree'.node = Function.update tree.node place (some (.file [])) := by
  rw [truncate] at h
  cases hwalk : tree.walk .lastKept depth [] (route place) with
  | error fault =>
    rw [hwalk] at h
    cases h
  | ok here =>
    obtain rfl := walk_lastKept_route hreal hwalk
    rw [hwalk] at h
    dsimp only [bind, Except.bind] at h
    split at h
    · cases h
    · split at h
      · split at h
        · next hplace =>
          obtain ⟨rfl, rfl⟩ := Prod.mk.inj (Except.ok.inj h)
          exact ⟨rfl, hplace, rfl⟩
        · cases h
      · cases h

/-- Something that is no link takes the place of something that was none. -/
theorem touches_update {new : Option (Node ν β)} (hnode : tree'.node = Function.update tree.node place new)
    (hplace : place ∈ places) (hold : ∀ rooted target, tree.node place ≠ some (.link rooted target))
    (hnew : ∀ rooted target, new ≠ some (.link rooted target)) : Touches places tree tree' := by
  have hother : ∀ other, other ≠ place → tree'.node other = tree.node other := by
    intro other hother
    rw [hnode, Function.update_of_ne hother]
  constructor
  · intro other rooted target
    by_cases hself : other = place
    · subst hself
      rw [hnode, Function.update_self]
      exact ⟨fun h => absurd h (hnew _ _), fun h => absurd h (hold _ _)⟩
    · rw [hother other hself]
  · intro other
    by_cases hself : other = place
    · exact .inr (.inl (hself ▸ hplace))
    · exact .inl (hother other hself)

/-- A new directory on the way to a place. -/
theorem touches_mkdir (hnode : tree'.node = Function.update tree.node other (some .directory))
    (hnone : tree.node other = none) (hplace : place ∈ places) (hway : other <:+ place) :
    Touches places tree tree' := by
  have hdir : tree'.node other = some .directory := by rw [hnode, Function.update_self]
  constructor
  · intro outer rooted target
    by_cases hself : outer = other
    · subst hself
      rw [hdir, hnone]
      simp
    · rw [hnode, Function.update_of_ne hself]
  · intro outer
    by_cases hself : outer = other
    · subst hself
      exact .inr (.inr ⟨hnone, hdir, place, hplace, hway⟩)
    · rw [hnode, Function.update_of_ne hself]
      exact .inl rfl

/-- INTERNAL: appending touches the file. -/
theorem touches_append (hplace : place ∈ places) (bytes : List β) :
    Touches places tree (tree.append place bytes) := by
  have hnode : (tree.append place bytes).node =
    Function.update tree.node place ((tree.node place).map (extend bytes)) := rfl
  constructor
  · intro other rooted target
    by_cases hself : other = place
    · subst hself
      rw [hnode, Function.update_self]
      rcases tree.node other with _ | _ | _ | _ <;> simp [extend]
    · rw [hnode, Function.update_of_ne hself]
  · intro other
    by_cases hself : other = place
    · exact .inr (.inl (hself ▸ hplace))
    · rw [hnode, Function.update_of_ne hself]
      exact .inl rfl

/-- What an open file holds after something is added. -/
theorem append_file {content : List β} (hnode : tree.node place = some (.file content)) (bytes : List β) :
    (tree.append place bytes).node place = some (.file (content ++ bytes)) := by
  show Function.update tree.node place _ place = _
  rw [Function.update_self, hnode]
  rfl

end Changes

end FileTree

end Shea.Computation
