import Shea.Model.Repositories

/-!
# One unit of work, several clients

`bootstrap` hands the same `SqliteUnitOfWork` to every repository, and the repositories serve every
request. The unit of work has one nesting counter and one connection, and knows nothing of clients:
whoever brings the counter back to zero commits or rolls back everybody's writes.

A schedule says which client makes which move at each instant. `worldAt` is what the connection and
the counter make of it. `sharedAt` follows the same schedule by counting, for each client, its own open
blocks, and by keeping the instants of the writes that are pending and durable; `worldAt_eq` says that
it keeps them right.
-/

set_option autoImplicit false

namespace Shea.Analysis

open Shea.Computation Shea.Model

/-- What a client does with the unit of work. -/
inductive Move
  | enter
  | write (statement : Tables → Tables)
  | exit (clean : Bool)

/-- The effect of a move. -/
def Move.apply : Move → World → World
  | enter, w => w.enter
  | write statement, w => { w with working := statement w.working }
  | exit clean, w => w.exit clean

/-- Which client makes which move at each instant, if any. -/
abbrev Schedule (κ : Type) := ℕ → Option (κ × Move)

section Clients

variable {κ : Type} [DecidableEq κ] (schedule : Schedule κ)

/-- The shared state after the first `n` instants. -/
def worldAt (w : World) : ℕ → World
  | 0 => w
  | n + 1 => (schedule n).elim (worldAt w n) fun m => m.2.apply (worldAt w n)

/-- Whose blocks are open, and which writes wait for a commit or have been committed. -/
structure Shared (κ : Type) where
  own : κ → ℕ := fun _ => 0
  depth : ℕ := 0
  pending : List ℕ := []
  durable : List ℕ := []

namespace Shared

/-- The exit that brings the counter back to zero settles the pending writes. -/
def settle (clean : Bool) (s : Shared κ) : Shared κ :=
  if 0 < s.depth - 1 then { s with depth := s.depth - 1 }
  else if clean then
    { s with depth := s.depth - 1, durable := s.durable ++ s.pending, pending := [] }
  else { s with depth := s.depth - 1, pending := [] }

/-- A move of a client at an instant. -/
def move (n : ℕ) (s : Shared κ) : κ × Move → Shared κ
  | (c, .enter) =>
      { s with own := Function.update s.own c (s.own c + 1), depth := s.depth + 1 }
  | (_, .write _) => { s with pending := s.pending ++ [n] }
  | (c, .exit clean) => { s.settle clean with own := Function.update s.own c (s.own c - 1) }

end Shared

/-- The blocks and the writes after the first `n` instants. -/
def sharedAt : ℕ → Shared κ
  | 0 => {}
  | n + 1 => (schedule n).elim (sharedAt n) ((sharedAt n).move n)

/-! ## What the counts mean -/

/-- The statement that is written at an instant. -/
def statementAt (n : ℕ) : Tables → Tables :=
  match schedule n with
  | some (_, .write statement) => statement
  | _ => id

/-- The statements of these instants, one after the other. -/
def replay (instants : List ℕ) (t : Tables) : Tables :=
  instants.foldl (fun t n => statementAt schedule n t) t

omit [DecidableEq κ] in
/-- INTERNAL: one more statement. -/
theorem replay_concat (instants : List ℕ) (n : ℕ) (t : Tables) :
    replay schedule (instants ++ [n]) t = statementAt schedule n (replay schedule instants t) := by
  simp [replay, List.foldl_append]

/-- Whatever the schedule, the connection reads the durable and the pending writes, and the durable
ones are committed.
SOURCE: persistence/sqlite/unit_of_work.py:28-49 -/
theorem worldAt_eq {w : World} (hw : w.Idle) (n : ℕ) :
    (worldAt schedule w n).depth = (sharedAt schedule n).depth ∧
      (worldAt schedule w n).committed = replay schedule (sharedAt schedule n).durable w.committed ∧
      (worldAt schedule w n).working = replay schedule
        ((sharedAt schedule n).durable ++ (sharedAt schedule n).pending) w.committed := by
  induction n with
  | zero => exact ⟨hw.depth, rfl, hw.working⟩
  | succ n ih =>
    obtain ⟨hdepth, hcommitted, hworking⟩ := ih
    cases hmove : schedule n with
    | none =>
      have hworld : worldAt schedule w (n + 1) = worldAt schedule w n := by simp [worldAt, hmove]
      have hshared : sharedAt schedule (n + 1) = sharedAt schedule n := by simp [sharedAt, hmove]
      rw [hworld, hshared]
      exact ⟨hdepth, hcommitted, hworking⟩
    | some m =>
      obtain ⟨c, m⟩ := m
      have hworld : worldAt schedule w (n + 1) = m.apply (worldAt schedule w n) := by
        simp [worldAt, hmove]
      have hshared : sharedAt schedule (n + 1) = (sharedAt schedule n).move n (c, m) := by
        simp [sharedAt, hmove]
      rw [hworld, hshared]
      cases m with
      | enter => exact ⟨congrArg (· + 1) hdepth, hcommitted, hworking⟩
      | write statement =>
        refine ⟨hdepth, hcommitted, ?_⟩
        have hstatement : statementAt schedule n = statement := by simp [statementAt, hmove]
        show statement _ = _
        rw [Shared.move, ← List.append_assoc, replay_concat, hstatement, hworking]
      | exit clean =>
        simp only [Move.apply, Shared.move, World.exit, Shared.settle, hdepth]
        split
        · exact ⟨rfl, hcommitted, hworking⟩
        · cases clean
          · exact ⟨rfl, hcommitted, by simpa using hcommitted⟩
          · exact ⟨rfl, hworking, by simpa using hworking⟩

/-! ## Blocks -/

/-- Every client nests its own blocks, and writes only inside them: the moves are those of `with`
statements. -/
def WellNested : Prop :=
  ∀ n c m, schedule n = some (c, m) → m = .enter ∨ 0 < (sharedAt schedule n).own c

/-- An outermost block of a client, from the instant it is entered to the instant it is left. -/
structure Outermost (c : κ) (clean : Bool) (first last : ℕ) : Prop where
  enters : schedule first = some (c, .enter)
  outermost : (sharedAt schedule first).own c = 0
  lt : first < last
  inside : ∀ n, first < n → n ≤ last → 0 < (sharedAt schedule n).own c
  exits : schedule last = some (c, .exit clean)
  leaves : (sharedAt schedule last).own c = 1

/-- The client writes at the instant. -/
def Writes (c : κ) (n : ℕ) : Prop := ∃ statement, schedule n = some (c, .write statement)

/-- Each outermost block is all or nothing: left cleanly, its writes are durable right after its exit;
left with an exception, none of them ever is. -/
def AllOrNothing : Prop :=
  ∀ c clean first last, Outermost schedule c clean first last →
    ∀ k, first < k → k < last → Writes schedule c k →
      if clean then k ∈ (sharedAt schedule (last + 1)).durable
      else ∀ n, k ∉ (sharedAt schedule n).durable

/-- No client enters a block while another one is inside a block. -/
def Separate : Prop :=
  ∀ n c, schedule n = some (c, .enter) → ∀ d, d ≠ c → (sharedAt schedule n).own d = 0

/-! ## Separate clients -/

/-- What holds at every instant of a separate schedule. -/
structure Unshared (n : ℕ) (s : Shared κ) : Prop where
  /-- The counter counts the blocks of the one client that has any. -/
  alone : ∀ c, 0 < s.own c → s.own c = s.depth ∧ ∀ d, d ≠ c → s.own d = 0
  /-- With no block open nothing is pending. -/
  rest : (∀ c, s.own c = 0) → s.depth = 0 ∧ s.pending = []
  /-- Only what was written is pending or durable. -/
  past : ∀ k, k ∈ s.durable ∨ k ∈ s.pending → k < n

namespace Unshared

variable {n : ℕ} {s : Shared κ} {c : κ}

/-- INTERNAL: entering a block while no other client is inside one. -/
theorem enter (h : Unshared n s) (hfree : ∀ d, d ≠ c → s.own d = 0) :
    Unshared (n + 1) (s.move n (c, .enter)) := by
  have hdepth : s.depth = s.own c := by
    by_cases hc : s.own c = 0
    · have hnone : ∀ d, s.own d = 0 := by
        intro d
        by_cases hd : d = c
        · rw [hd, hc]
        · exact hfree d hd
      rw [(h.rest hnone).1, hc]
    · exact ((h.alone c (Nat.pos_of_ne_zero hc)).1).symm
  refine ⟨fun d hd => ?_, fun hnone => ?_, fun k hk => Nat.lt_succ_of_lt (h.past k hk)⟩
  · by_cases hdc : d = c
    · subst hdc
      refine ⟨by simp [Shared.move, hdepth], fun e he => ?_⟩
      simpa [Shared.move, Function.update_of_ne he] using hfree e he
    · simp [Shared.move, Function.update_of_ne hdc, hfree d hdc] at hd
  · have := hnone c
    simp [Shared.move] at this

/-- INTERNAL: a write inside a block. -/
theorem write (h : Unshared n s) (hc : 0 < s.own c) (statement : Tables → Tables) :
    Unshared (n + 1) (s.move n (c, .write statement)) := by
  refine ⟨h.alone, fun hnone => absurd (hnone c) (Nat.pos_iff_ne_zero.mp hc), fun k hk => ?_⟩
  rcases hk with hk | hk
  · exact Nat.lt_succ_of_lt (h.past k (.inl hk))
  · rcases List.mem_append.mp hk with hk | hk
    · exact Nat.lt_succ_of_lt (h.past k (.inr hk))
    · rw [List.mem_singleton.mp hk]
      exact Nat.lt_succ_self n

/-- INTERNAL: leaving an inner block settles nothing. -/
theorem move_exit_inner (h : Unshared n s) (hc : 1 < s.own c) (clean : Bool) :
    s.move n (c, .exit clean) =
      { s with own := Function.update s.own c (s.own c - 1), depth := s.depth - 1 } := by
  have hdepth := (h.alone c (Nat.lt_of_succ_lt hc)).1
  have hopen : 0 < s.depth - 1 := by omega
  simp [Shared.move, Shared.settle, hopen]

/-- INTERNAL: leaving the outermost block settles the pending writes. -/
theorem move_exit_outermost (h : Unshared n s) (hc : s.own c = 1) (clean : Bool) :
    s.move n (c, .exit clean) =
      { own := Function.update s.own c 0
        depth := 0
        pending := []
        durable := if clean then s.durable ++ s.pending else s.durable } := by
  have hdepth : s.depth = 1 := (h.alone c (by omega)).1.symm.trans hc
  cases clean <;> simp [Shared.move, Shared.settle, hdepth, hc]

/-- INTERNAL: leaving a block. -/
theorem exit (h : Unshared n s) (hc : 0 < s.own c) (clean : Bool) :
    Unshared (n + 1) (s.move n (c, .exit clean)) := by
  obtain ⟨hdepth, hothers⟩ := h.alone c hc
  by_cases hinner : 1 < s.own c
  · rw [h.move_exit_inner hinner]
    refine ⟨fun d hd => ?_, fun hnone => ?_, fun k hk => Nat.lt_succ_of_lt (h.past k hk)⟩
    · by_cases hdc : d = c
      · subst hdc
        refine ⟨by simp [hdepth], fun e he => ?_⟩
        simpa [Function.update_of_ne he] using hothers e he
      · simp [Function.update_of_ne hdc, hothers d hdc] at hd
    · have := hnone c
      simp at this
      omega
  · rw [h.move_exit_outermost (by omega)]
    refine ⟨fun d hd => ?_, fun _ => ⟨rfl, rfl⟩, fun k hk => ?_⟩
    · by_cases hdc : d = c
      · simp [hdc] at hd
      · simp [Function.update_of_ne hdc, hothers d hdc] at hd
    · rcases hk with hk | hk
      · refine Nat.lt_succ_of_lt (h.past k ?_)
        cases clean
        · exact .inl hk
        · exact List.mem_append.mp hk
      · cases hk

end Unshared

variable {schedule}

/-- INTERNAL: one instant at which a client moves. -/
theorem sharedAt_succ {n : ℕ} {m : κ × Move} (h : schedule n = some m) :
    sharedAt schedule (n + 1) = (sharedAt schedule n).move n m := by
  simp [sharedAt, h]

/-- INTERNAL: one instant at which nobody moves. -/
theorem sharedAt_succ_none {n : ℕ} (h : schedule n = none) :
    sharedAt schedule (n + 1) = sharedAt schedule n := by
  simp [sharedAt, h]

/-- A separate schedule is orderly at every instant. -/
theorem unshared (hnested : WellNested schedule) (hseparate : Separate schedule) (n : ℕ) :
    Unshared n (sharedAt schedule n) := by
  induction n with
  | zero => exact ⟨fun c hc => absurd hc (Nat.lt_irrefl 0), fun _ => ⟨rfl, rfl⟩,
      fun k hk => by rcases hk with hk | hk <;> cases hk⟩
  | succ n ih =>
    cases hmove : schedule n with
    | none =>
      rw [sharedAt_succ_none hmove]
      exact ⟨ih.alone, ih.rest, fun k hk => Nat.lt_succ_of_lt (ih.past k hk)⟩
    | some m =>
      obtain ⟨c, m⟩ := m
      rw [sharedAt_succ hmove]
      cases m with
      | enter => exact ih.enter (hseparate n c hmove)
      | write statement =>
        exact ih.write ((hnested n c _ hmove).resolve_left (by simp)) statement
      | exit clean => exact ih.exit ((hnested n c _ hmove).resolve_left (by simp)) clean

/-- INTERNAL: while a client is inside its block, only that client moves. -/
theorem mover_eq (hnested : WellNested schedule) (hseparate : Separate schedule) {n : ℕ} {c d : κ}
    {m : Move} (hc : 0 < (sharedAt schedule n).own c) (hmove : schedule n = some (d, m)) : d = c := by
  by_contra hne
  have hd : (sharedAt schedule n).own d = 0 :=
    ((unshared hnested hseparate n).alone c hc).2 d hne
  rcases hnested n d m hmove with rfl | hpos
  · have := hseparate n d hmove c (Ne.symm hne)
    omega
  · omega

/-- INTERNAL: inside a block its writes are pending and no write becomes durable. -/
theorem pending_inside (hnested : WellNested schedule) (hseparate : Separate schedule) {c : κ}
    {clean : Bool} {first last : ℕ} (hblock : Outermost schedule c clean first last) {n : ℕ}
    (hfirst : first < n) (hlast : n ≤ last) :
    (sharedAt schedule n).durable = (sharedAt schedule first).durable ∧
      ∀ k, first < k → k < n → Writes schedule c k → k ∈ (sharedAt schedule n).pending := by
  induction n with
  | zero => exact absurd hfirst (Nat.not_lt_zero _)
  | succ n ih =>
    by_cases hn : n = first
    · subst hn
      rw [sharedAt_succ hblock.enters]
      exact ⟨rfl, fun k hk hk' => by omega⟩
    · obtain ⟨hdurable, hpending⟩ := ih (by omega) (by omega)
      have hinside := hblock.inside n (by omega) (by omega)
      have hearlier : ∀ k, k < n + 1 → k ≠ n → k < n := fun k _ _ => by omega
      cases hmove : schedule n with
      | none =>
        rw [sharedAt_succ_none hmove]
        refine ⟨hdurable, fun k hk hk' hwrite => hpending k hk ?_ hwrite⟩
        refine hearlier k hk' fun he => ?_
        obtain ⟨statement, hwrite⟩ := hwrite
        rw [he, hmove] at hwrite
        cases hwrite
      | some m =>
        obtain ⟨d, m⟩ := m
        obtain rfl := mover_eq hnested hseparate hinside hmove
        rw [sharedAt_succ hmove]
        cases m with
        | enter =>
          refine ⟨hdurable, fun k hk hk' hwrite => hpending k hk (hearlier k hk' fun he => ?_) hwrite⟩
          obtain ⟨statement, hwrite⟩ := hwrite
          rw [he, hmove] at hwrite
          cases hwrite
        | write statement =>
          refine ⟨hdurable, fun k hk hk' hwrite => ?_⟩
          by_cases he : k = n
          · exact List.mem_append_right _ (List.mem_singleton.mpr he)
          · exact List.mem_append_left _ (hpending k hk (hearlier k hk' he) hwrite)
        | exit inner =>
          -- the client stays inside, so this is the exit of an inner block
          have hnext := hblock.inside (n + 1) hfirst hlast
          rw [sharedAt_succ hmove] at hnext
          have hdeep : 1 < (sharedAt schedule n).own d := by
            by_contra hshallow
            have hone : (sharedAt schedule n).own d = 1 := by omega
            rw [(unshared hnested hseparate n).move_exit_outermost hone] at hnext
            simp at hnext
          rw [(unshared hnested hseparate n).move_exit_inner hdeep]
          refine ⟨hdurable, fun k hk hk' hwrite => hpending k hk (hearlier k hk' fun he => ?_) hwrite⟩
          obtain ⟨statement, hwrite⟩ := hwrite
          rw [he, hmove] at hwrite
          cases hwrite

/-- INTERNAL: a write that is neither pending nor durable stays lost. -/
theorem lost_forever {k n : ℕ} (hk : k < n) (hlost : k ∉ (sharedAt schedule n).durable)
    (hlost' : k ∉ (sharedAt schedule n).pending) (n' : ℕ) (hn : n ≤ n') :
    k ∉ (sharedAt schedule n').durable ∧ k ∉ (sharedAt schedule n').pending := by
  induction n', hn using Nat.le_induction with
  | base => exact ⟨hlost, hlost'⟩
  | succ n' hn ih =>
    obtain ⟨hdurable, hpending⟩ := ih
    cases hmove : schedule n' with
    | none =>
      rw [sharedAt_succ_none hmove]
      exact ⟨hdurable, hpending⟩
    | some m =>
      obtain ⟨c, m⟩ := m
      rw [sharedAt_succ hmove]
      cases m with
      | enter => exact ⟨hdurable, hpending⟩
      | write statement =>
        refine ⟨hdurable, fun h => ?_⟩
        rcases List.mem_append.mp h with h | h
        · exact hpending h
        · have := List.mem_singleton.mp h
          omega
      | exit clean =>
        simp only [Shared.move, Shared.settle]
        split
        · exact ⟨hdurable, hpending⟩
        · cases clean
          · exact ⟨hdurable, List.not_mem_nil⟩
          · refine ⟨fun h => ?_, List.not_mem_nil⟩
            rcases List.mem_append.mp h with h | h
            · exact hdurable h
            · exact hpending h

/-- When no client enters a block while another one is inside a block, every outermost block is all
or nothing.
SOURCE: persistence/sqlite/unit_of_work.py:28-49, bootstrap.py:208-222 -/
theorem allOrNothing_of_separate (hnested : WellNested schedule) (hseparate : Separate schedule) :
    AllOrNothing schedule := by
  intro c clean first last hblock k hk hk' hwrite
  obtain ⟨hdurable, hpending⟩ := pending_inside hnested hseparate hblock hblock.lt le_rfl
  have hexit : sharedAt schedule (last + 1) = _ :=
    (sharedAt_succ hblock.exits).trans
      ((unshared hnested hseparate last).move_exit_outermost hblock.leaves clean)
  cases clean with
  | true =>
    rw [hexit]
    exact List.mem_append_right _ (hpending k hk hk' hwrite)
  | false =>
    have hbefore : ∀ n, n ≤ first → k ∉ (sharedAt schedule n).durable := by
      intro n hn hmem
      have := (unshared hnested hseparate n).past k (.inl hmem)
      omega
    have hat : k ∉ (sharedAt schedule first).durable := hbefore first le_rfl
    intro n
    by_cases hn : n ≤ first
    · exact hbefore n hn
    · by_cases hn' : n ≤ last
      · rw [(pending_inside hnested hseparate hblock (by omega) hn').1]
        exact hat
      · refine (lost_forever (n := last + 1) (by omega) ?_ ?_ n (by omega)).1
        · rw [hexit]
          exact hdurable ▸ hat
        · rw [hexit]
          exact List.not_mem_nil

end Clients

/-- A task of a client, to be written. -/
def savedBy (name : String) : Tables → Tables :=
  TaskRepository.put
    { id := name
      sessionId := "session"
      requestId := "request"
      state := .created
      createdAt := 0
      updatedAt := 0 }

/-- One client after the other; the second one fails. -/
def inTurn : Schedule Bool := fun n =>
  [(true, .enter), (true, .write (savedBy "first")), (true, .exit true), (false, .enter),
    (false, .write (savedBy "second")), (false, .exit false)][n]?

/-- The second client, which fails, is inside a block while the first one is. -/
def overlapping : Schedule Bool := fun n =>
  [(true, .enter), (true, .write (savedBy "first")), (false, .enter),
    (false, .write (savedBy "second")), (false, .exit false), (true, .exit true)][n]?

/-- INTERNAL: each client nests its blocks, one after the other or not. -/
theorem wellNested_inTurn : WellNested inTurn := by
  intro n c m h
  rcases n with _ | _ | _ | _ | _ | _ | n
  all_goals simp only [inTurn, List.getElem?_cons_zero, List.getElem?_cons_succ, List.getElem?_nil,
    Option.some.injEq, Prod.mk.injEq, reduceCtorEq] at h
  all_goals obtain ⟨rfl, rfl⟩ := h
  all_goals first
    | exact .inl rfl
    | exact .inr (by decide)

/-- INTERNAL: the same for the overlapping clients. -/
theorem wellNested_overlapping : WellNested overlapping := by
  intro n c m h
  rcases n with _ | _ | _ | _ | _ | _ | n
  all_goals simp only [overlapping, List.getElem?_cons_zero, List.getElem?_cons_succ,
    List.getElem?_nil, Option.some.injEq, Prod.mk.injEq, reduceCtorEq] at h
  all_goals obtain ⟨rfl, rfl⟩ := h
  all_goals first
    | exact .inl rfl
    | exact .inr (by decide)

/-- One client after the other: the first write is durable, the second never is. -/
theorem allOrNothing_inTurn :
    1 ∈ (sharedAt inTurn 3).durable ∧ ∀ n, 4 ∉ (sharedAt inTurn n).durable := by
  have hseparate : Separate inTurn := by
    intro n c h d hd
    rcases n with _ | _ | _ | _ | _ | _ | n
    all_goals simp only [inTurn, List.getElem?_cons_zero, List.getElem?_cons_succ, List.getElem?_nil,
      Option.some.injEq, Prod.mk.injEq, reduceCtorEq, and_false] at h
    all_goals obtain ⟨rfl, -⟩ := h
    all_goals cases d <;> first | exact absurd rfl hd | decide
  have hall := allOrNothing_of_separate wellNested_inTurn hseparate
  have hinside : ∀ n, n = 1 ∨ n = 2 → 0 < (sharedAt inTurn n).own true := by
    rintro n (rfl | rfl) <;> decide
  have hinside' : ∀ n, n = 4 ∨ n = 5 → 0 < (sharedAt inTurn n).own false := by
    rintro n (rfl | rfl) <;> decide
  refine ⟨?_, ?_⟩
  · exact hall true true 0 2 ⟨rfl, rfl, by decide, fun n h h' => hinside n (by omega), rfl, by decide⟩
      1 (by decide) (by decide) ⟨_, rfl⟩
  · exact hall false false 3 5
      ⟨rfl, by decide, by decide, fun n h h' => hinside' n (by omega), rfl, by decide⟩
      4 (by decide) (by decide) ⟨_, rfl⟩

/-- With overlapping blocks, the write of the client that failed is committed by the other one.
SOURCE: persistence/sqlite/unit_of_work.py:28-49 -/
theorem overlapping_commits_failed_block :
    WellNested overlapping ∧ ¬ AllOrNothing overlapping := by
  refine ⟨wellNested_overlapping, fun hall => ?_⟩
  have hinside : ∀ n, n = 3 ∨ n = 4 → 0 < (sharedAt overlapping n).own false := by
    rintro n (rfl | rfl) <;> decide
  have hnever := hall false false 2 4
    ⟨rfl, by decide, by decide, fun n h h' => hinside n (by omega), rfl, by decide⟩
    3 (by decide) (by decide) ⟨_, rfl⟩
  exact hnever 6 (by decide)

end Shea.Analysis
