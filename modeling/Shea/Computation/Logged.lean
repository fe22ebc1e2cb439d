import Mathlib.Data.List.Basic
import Mathlib.Logic.Relation

/-!
# Computations that write a log

A computation returns a value or raises an exception, and either way it has written some events. One
that calls another goes on where that one returned, and the log of both is the one after the other.

A loop repeats a step as long as the step says so (`loop`). Its rules are about the states it comes to
(`Reaches`): the events of the loop are those of the steps taken there, and a bound that goes down with
each repetition limits the number of steps.
-/

set_option autoImplicit false

namespace Shea.Computation

/-- What comes of a computation, and what it has written. -/
structure Logged (ω ε α : Type) where
  result : Except ε α
  log : List ω

namespace Logged

variable {ω ε α β σ : Type}

/-- The second computation goes on where the first one returned. -/
def bind (x : Logged ω ε α) (f : α → Logged ω ε β) : Logged ω ε β :=
  match x.result with
  | .ok a => ⟨(f a).result, x.log ++ (f a).log⟩
  | .error e => ⟨.error e, x.log⟩

instance : Monad (Logged ω ε) where
  pure a := ⟨.ok a, []⟩
  bind := bind

/-- One event. -/
def write (event : ω) : Logged ω ε Unit := ⟨.ok (), [event]⟩

/-- A value or an exception, without a word. -/
def ofExcept (x : Except ε α) : Logged ω ε α := ⟨x, []⟩

/-- Another exception instead of the one that is raised. -/
def mapError {ε' : Type} (f : ε → ε') (x : Logged ω ε α) : Logged ω ε' α := ⟨x.result.mapError f, x.log⟩

/-- Renaming errors keeps the log. -/
@[simp] theorem log_mapError {ε' : Type} (f : ε → ε') (x : Logged ω ε α) : (x.mapError f).log = x.log := rfl

/-- It keeps the results too. -/
theorem result_mapError_ok_iff {ε' : Type} {f : ε → ε'} {x : Logged ω ε α} {a : α} :
    (x.mapError f).result = .ok a ↔ x.result = .ok a := by
  unfold mapError
  cases h : x.result with
  | ok b => simp [Except.mapError]
  | error e => simp [Except.mapError]

/-- A value that is returned. -/
@[simp] theorem result_pure (a : α) : (pure a : Logged ω ε α).result = .ok a := rfl

/-- It logs nothing. -/
@[simp] theorem log_pure (a : α) : (pure a : Logged ω ε α).log = [] := rfl

/-- A result computed beforehand. -/
@[simp] theorem result_ofExcept (x : Except ε α) : (ofExcept x : Logged ω ε α).result = x := rfl

/-- It logs nothing. -/
@[simp] theorem log_ofExcept (x : Except ε α) : (ofExcept x : Logged ω ε α).log = [] := rfl

/-- Writing succeeds. -/
@[simp] theorem result_write (event : ω) : (write event : Logged ω ε Unit).result = .ok () := rfl

/-- It logs the event. -/
@[simp] theorem log_write (event : ω) : (write event : Logged ω ε Unit).log = [event] := rfl

section Bind

variable {x : Logged ω ε α} {f : α → Logged ω ε β}

/-- After a success the second part runs, and its log is added. -/
theorem bind_of_ok {a : α} (h : x.result = .ok a) :
    x >>= f = ⟨(f a).result, x.log ++ (f a).log⟩ := by
  show bind x f = _
  unfold bind
  rw [h]

/-- An error ends the computation, the log stays. -/
theorem bind_of_error {e : ε} (h : x.result = .error e) : x >>= f = ⟨.error e, x.log⟩ := by
  show bind x f = _
  unfold bind
  rw [h]

/-- A sequence succeeds when both parts do. -/
theorem result_bind_ok_iff {b : β} :
    (x >>= f).result = .ok b ↔ ∃ a, x.result = .ok a ∧ (f a).result = .ok b := by
  cases h : x.result with
  | ok a => simp [bind_of_ok h]
  | error e => simp [bind_of_error h]

/-- A computation that writes nothing more. -/
theorem log_bind_of_silent (h : ∀ a, (f a).log = []) : (x >>= f).log = x.log := by
  cases hresult : x.result with
  | ok a => rw [bind_of_ok hresult, h, List.append_nil]
  | error e => rw [bind_of_error hresult]

end Bind

/-! ## Loops -/

/-- After a step the loop ends with a value, or goes on from another state. -/
inductive Step (σ α : Type)
  | done (value : α)
  | again (state : σ)

variable (step : σ → Logged ω ε (Step σ α))

/-- `while True`, with a number of steps that it may take at most. -/
def loop : ℕ → σ → Option (Logged ω ε α)
  | 0, _ => none
  | fuel + 1, s =>
      match (step s).result with
      | .ok (.again t) => (loop fuel t).map fun rest => ⟨rest.result, (step s).log ++ rest.log⟩
      | .ok (.done value) => some ⟨.ok value, (step s).log⟩
      | .error e => some ⟨.error e, (step s).log⟩

/-- From one state the loop comes to another one. -/
def Reaches : σ → σ → Prop := Relation.ReflTransGen fun s t => (step s).result = .ok (.again t)

variable {step}

/-- One more step at the start. -/
theorem Reaches.head {s t u : σ} (h : (step s).result = .ok (.again t)) (hreaches : Reaches step t u) :
    Reaches step s u := Relation.ReflTransGen.head h hreaches

/-- A loop is at its first state, or has taken a step. -/
theorem reaches_cases {s u : σ} (h : Reaches step s u) :
    u = s ∨ ∃ t, (step s).result = .ok (.again t) ∧ Reaches step t u := by
  rcases Relation.ReflTransGen.cases_head h with rfl | ⟨t, hstep, hreaches⟩
  · exact .inl rfl
  · exact .inr ⟨t, hstep, hreaches⟩

/-- What each repetition preserves holds of every state that is reached. -/
theorem Reaches.invariant {I : σ → Prop} {s u : σ} (h : Reaches step s u) (hs : I s)
    (hstep : ∀ s t, I s → (step s).result = .ok (.again t) → I t) : I u := by
  induction h with
  | refl => exact hs
  | tail _ hagain ih => exact hstep _ _ ih hagain

/-- INTERNAL: a loop that ends: its step ends it, or raises, or it goes on. -/
theorem loop_succ_cases {fuel : ℕ} {s : σ} {run : Logged ω ε α} (h : loop step (fuel + 1) s = some run) :
    (∃ t rest, (step s).result = .ok (.again t) ∧ loop step fuel t = some rest ∧
        run = ⟨rest.result, (step s).log ++ rest.log⟩) ∨
      (∃ value, (step s).result = .ok (.done value) ∧ run = ⟨.ok value, (step s).log⟩) ∨
      ∃ e, (step s).result = .error e ∧ run = ⟨.error e, (step s).log⟩ := by
  unfold loop at h
  split at h
  · next t hstep =>
    obtain ⟨rest, hrest, rfl⟩ := Option.map_eq_some_iff.mp h
    exact .inl ⟨t, rest, hstep, hrest, rfl⟩
  · next value hstep => exact .inr (.inl ⟨value, hstep, (Option.some.inj h).symm⟩)
  · next e hstep => exact .inr (.inr ⟨e, hstep, (Option.some.inj h).symm⟩)

/-- A loop whose bound goes down with each repetition ends. -/
theorem loop_isSome (bound : σ → ℕ)
    (hbound : ∀ s t, (step s).result = .ok (.again t) → bound t < bound s) {fuel : ℕ} {s : σ}
    (hfuel : bound s < fuel) : (loop step fuel s).isSome := by
  induction fuel generalizing s with
  | zero => exact absurd hfuel (Nat.not_lt_zero _)
  | succ fuel ih =>
    unfold loop
    split
    · next t hstep =>
      rw [Option.isSome_map]
      exact ih (Nat.lt_of_lt_of_le (hbound s t hstep) (Nat.le_of_lt_succ hfuel))
    · rfl
    · rfl

/-- A loop that has ended needs no more steps. -/
theorem loop_add {fuel : ℕ} {s : σ} {run : Logged ω ε α} (h : loop step fuel s = some run) (extra : ℕ) :
    loop step (fuel + extra) s = some run := by
  induction fuel generalizing s run with
  | zero => cases h
  | succ fuel ih =>
    rw [Nat.add_right_comm]
    unfold loop
    rcases loop_succ_cases h with ⟨t, rest, hagain, hrest, rfl⟩ | ⟨value, hdone, rfl⟩ | ⟨e, herror, rfl⟩
    · rw [hagain]
      dsimp only
      rw [ih hrest]
      rfl
    · rw [hdone]
    · rw [herror]

/-- The events of a loop are those of the steps at the states it comes to. -/
theorem mem_log_loop {fuel : ℕ} {s : σ} {run : Logged ω ε α} (h : loop step fuel s = some run)
    (event : ω) : event ∈ run.log ↔ ∃ u, Reaches step s u ∧ event ∈ (step u).log := by
  induction fuel generalizing s run with
  | zero => cases h
  | succ fuel ih =>
    have hlast (hstop : ∀ t, (step s).result ≠ .ok (.again t)) :
        event ∈ (step s).log ↔ ∃ u, Reaches step s u ∧ event ∈ (step u).log := by
      refine ⟨fun hmem => ⟨s, .refl, hmem⟩, ?_⟩
      rintro ⟨u, hreaches, hmem⟩
      rcases reaches_cases hreaches with rfl | ⟨t, hagain, -⟩
      · exact hmem
      · exact absurd hagain (hstop t)
    rcases loop_succ_cases h with ⟨t, rest, hagain, hrest, rfl⟩ | ⟨value, hdone, rfl⟩ | ⟨e, herror, rfl⟩
    · rw [List.mem_append, ih hrest]
      constructor
      · rintro (hmem | ⟨u, hreaches, hmem⟩)
        · exact ⟨s, .refl, hmem⟩
        · exact ⟨u, hreaches.head hagain, hmem⟩
      · rintro ⟨u, hreaches, hmem⟩
        rcases reaches_cases hreaches with rfl | ⟨t', hagain', hreaches'⟩
        · exact .inl hmem
        · rw [hagain] at hagain'
          injection hagain' with hstep
          injection hstep with hstate
          exact .inr ⟨u, hstate ▸ hreaches', hmem⟩
    · exact hlast fun t hagain => by rw [hdone] at hagain; cases hagain
    · exact hlast fun t hagain => by rw [herror] at hagain; cases hagain

/-- With at most one event of a kind in each step, the bound limits how many there are. -/
theorem countP_log_loop (bound : σ → ℕ)
    (hbound : ∀ s t, (step s).result = .ok (.again t) → bound t < bound s) {kind : ω → Bool}
    (hone : ∀ s, (step s).log.countP kind ≤ 1) {fuel : ℕ} {s : σ} {run : Logged ω ε α}
    (h : loop step fuel s = some run) : run.log.countP kind ≤ bound s + 1 := by
  induction fuel generalizing s run with
  | zero => cases h
  | succ fuel ih =>
    have hfirst := hone s
    rcases loop_succ_cases h with ⟨t, rest, hagain, hrest, rfl⟩ | ⟨value, hdone, rfl⟩ | ⟨e, herror, rfl⟩
    · have hothers := ih hrest
      have hlt := hbound s t hagain
      rw [List.countP_append]
      omega
    · exact Nat.le_trans hfirst (Nat.le_add_left _ _)
    · exact Nat.le_trans hfirst (Nat.le_add_left _ _)

end Logged

end Shea.Computation
