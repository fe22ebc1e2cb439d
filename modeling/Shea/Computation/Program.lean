import Mathlib.Logic.Relation
import Mathlib.Data.List.Basic

/-!
# Programs with atomic steps

A `Program σ ε α` is a sequential computation over a shared state `σ` that either returns an
`α` or raises an `ε`. It is kept as a tree of atomic steps rather than as a state function, so
that one definition has several readings:

* `run`: nobody else acts and nothing is lost;
* `cut n`: the process stops after `n` steps, whatever the continuation would have done;
* `interleave env`: another client acts between the steps.

Every step also says what the program does when the step is refused (`fail`); the three
readings above never refuse one.

Correctness is stated with `Sat`: each step the program takes from a given state lies in a
relation, and the outcome satisfies a postcondition. `Sat` distributes over sequencing and over
exception handlers, and a relation that every step lies in relates the first state to every state
at which the program can be cut.
-/

set_option autoImplicit false

namespace Shea.Computation

/-- A computation that moves through atomic steps. A step replaces the state by `update`, and
goes on with `next`, which sees the state the step started from; `fail` is what the program does
if the step is refused instead. -/
inductive Program (σ ε α : Type) : Type
  | done (value : α)
  | raise (error : ε)
  | step (update : σ → σ) (next : σ → Program σ ε α) (fail : ε → Program σ ε α)

namespace Program

variable {σ ε α β : Type}

/-- Sequencing: the second program starts where the first one returned. -/
def bind : Program σ ε α → (α → Program σ ε β) → Program σ ε β
  | done value, f => f value
  | raise error, _ => raise error
  | step update next fail, f => step update (fun s => (next s).bind f) (fun e => (fail e).bind f)

/-- `try p except h`. -/
def handle : Program σ ε α → (ε → Program σ ε α) → Program σ ε α
  | done value, _ => done value
  | raise error, h => h error
  | step update next fail, h =>
      step update (fun s => (next s).handle h) (fun e => (fail e).handle h)

/-- Runs a program and returns its outcome, an exception included, as a value. -/
def attempt : Program σ ε α → Program σ ε (Except ε α)
  | done value => done (.ok value)
  | raise error => done (.error error)
  | step update next fail => step update (fun s => (next s).attempt) (fun e => (fail e).attempt)

instance : Monad (Program σ ε) where
  pure := done
  bind := bind

instance : MonadExceptOf ε (Program σ ε) where
  throw := raise
  tryCatch := handle

/-- One step that reads the state and leaves it alone. -/
def get (view : σ → α) : Program σ ε α :=
  step id (fun s => done (view s)) raise

/-- One step that writes the state. -/
def modify (update : σ → σ) : Program σ ε Unit :=
  step update (fun _ => done ()) raise

/-- One step that reads a value off the state and writes the state. -/
def act (view : σ → α) (update : σ → σ) : Program σ ε α :=
  step update (fun s => done (view s)) raise

/-- A pure check that may raise. -/
def ofExcept : Except ε α → Program σ ε α
  | .ok value => done value
  | .error error => raise error

/-- INTERNAL: the bind of the monad. -/
theorem bind_eq (p : Program σ ε α) (f : α → Program σ ε β) : p >>= f = p.bind f := rfl

/-- INTERNAL: the pure of the monad. -/
theorem pure_eq (value : α) : (pure value : Program σ ε α) = done value := rfl

/-- INTERNAL: nothing comes after the end. -/
theorem bind_done (p : Program σ ε α) : p.bind done = p := by
  induction p with
  | done value => rfl
  | raise error => rfl
  | step update next fail hn hf =>
    simp only [bind]
    exact congr (congrArg _ (funext hn)) (funext hf)

/-- INTERNAL: binds associate. -/
theorem bind_bind {γ : Type} (p : Program σ ε α) (f : α → Program σ ε β) (g : β → Program σ ε γ) :
    (p.bind f).bind g = p.bind fun a => (f a).bind g := by
  induction p with
  | done value => rfl
  | raise error => rfl
  | step update next fail hn hf =>
    simp only [bind]
    exact congr (congrArg _ (funext hn)) (funext hf)

instance : LawfulMonad (Program σ ε) :=
  LawfulMonad.mk' _ (fun p => bind_done p) (fun _ _ => rfl) (fun p f g => bind_bind p f g)

/-! ## Runs, undisturbed, stopped and interfered with -/

/-- The outcome and the last state of an undisturbed run. -/
def run : Program σ ε α → σ → Except ε α × σ
  | done value, s => (.ok value, s)
  | raise error, s => (.error error, s)
  | step update next _, s => (next s).run (update s)

/-- A value that is returned. -/
@[simp] theorem run_done (value : α) (s : σ) : (done value : Program σ ε α).run s = (.ok value, s) :=
  rfl

/-- A value that is returned, as the monad has it. -/
@[simp] theorem run_pure (value : α) (s : σ) :
    (pure value : Program σ ε α).run s = (.ok value, s) := rfl

/-- An error that is raised. -/
@[simp] theorem run_raise (error : ε) (s : σ) :
    (raise error : Program σ ε α).run s = (.error error, s) := rfl

/-- An error that is raised, as the monad has it. -/
@[simp] theorem run_throw (error : ε) (s : σ) :
    (throw error : Program σ ε α).run s = (.error error, s) := rfl

/-- A look at the state. -/
@[simp] theorem run_get (view : σ → α) (s : σ) :
    (get view : Program σ ε α).run s = (.ok (view s), s) := rfl

/-- An update. -/
@[simp] theorem run_modify (update : σ → σ) (s : σ) :
    (modify update : Program σ ε Unit).run s = (.ok (), update s) := rfl

/-- A look and an update in one step. -/
@[simp] theorem run_act (view : σ → α) (update : σ → σ) (s : σ) :
    (act view update : Program σ ε α).run s = (.ok (view s), update s) := rfl

/-- A result that is passed on. -/
theorem run_ofExcept (x : Except ε α) (s : σ) : (ofExcept x : Program σ ε α).run s = (x, s) := by
  cases x <;> rfl

/-- One program after the other. -/
@[simp] theorem run_bind (p : Program σ ε α) (f : α → Program σ ε β) (s : σ) :
    (p >>= f).run s = match p.run s with
      | (.ok a, t) => (f a).run t
      | (.error e, t) => (.error e, t) := by
  rw [bind_eq]
  induction p generalizing s with
  | done value => rfl
  | raise error => rfl
  | step update next fail hn hf => exact hn s (update s)

/-- A sequence that returns has come through both halves. -/
theorem run_bind_ok {p : Program σ ε α} {f : α → Program σ ε β} {s t : σ} {b : β}
    (h : (p >>= f).run s = (.ok b, t)) :
    ∃ a u, p.run s = (.ok a, u) ∧ (f a).run u = (.ok b, t) := by
  rw [run_bind] at h
  revert h
  rcases p.run s with ⟨r, u⟩
  cases r with
  | ok a => exact fun h => ⟨a, u, rfl, h⟩
  | error e => exact fun h => by cases h

/-- A program whose errors are results. -/
@[simp] theorem run_attempt (p : Program σ ε α) (s : σ) :
    p.attempt.run s = (.ok (p.run s).1, (p.run s).2) := by
  induction p generalizing s with
  | done value => rfl
  | raise error => rfl
  | step update next fail hn hf => exact hn s (update s)

/-- A handler. -/
theorem run_handle (p : Program σ ε α) (h : ε → Program σ ε α) (s : σ) :
    (p.handle h).run s = match p.run s with
      | (.ok a, t) => (.ok a, t)
      | (.error e, t) => (h e).run t := by
  induction p generalizing s with
  | done value => rfl
  | raise error => rfl
  | step update next fail hn hf => exact hn s (update s)

/-- A handler, as the monad has it. -/
@[simp] theorem run_tryCatch (p : Program σ ε α) (h : ε → Program σ ε α) (s : σ) :
    (tryCatch p h).run s = match p.run s with
      | (.ok a, t) => (.ok a, t)
      | (.error e, t) => (h e).run t := run_handle p h s

/-- A `try` that returns: its body did, or its handler. -/
theorem run_tryCatch_ok {p : Program σ ε α} {h : ε → Program σ ε α} {s t : σ} {a : α}
    (hrun : (tryCatch p h).run s = (.ok a, t)) :
    p.run s = (.ok a, t) ∨ ∃ e u, p.run s = (.error e, u) ∧ (h e).run u = (.ok a, t) := by
  rw [run_tryCatch] at hrun
  revert hrun
  rcases p.run s with ⟨r, u⟩
  cases r with
  | ok b => exact fun hrun => .inl hrun
  | error e => exact fun hrun => .inr ⟨e, u, rfl, hrun⟩

/-- The state in which the process stops when it is killed after `n` steps (or, when the program
is shorter, the last state it reaches). -/
def cut : ℕ → Program σ ε α → σ → σ
  | 0, _, s => s
  | n + 1, step update next _, s => cut n (next s) (update s)
  | _ + 1, done _, s => s
  | _ + 1, raise _, s => s

/-- How many steps an undisturbed run takes. -/
def steps : Program σ ε α → σ → ℕ
  | done _, _ => 0
  | raise _, _ => 0
  | step update next _, s => (next s).steps (update s) + 1

/-- Killed after its last step, the program has come to its end. -/
theorem cut_of_steps_le (p : Program σ ε α) {n : ℕ} {s : σ} (h : p.steps s ≤ n) :
    p.cut n s = (p.run s).2 := by
  induction p generalizing n s with
  | done value => cases n <;> rfl
  | raise error => cases n <;> rfl
  | step update next fail hn hf =>
    cases n with
    | zero => exact absurd h (Nat.not_succ_le_zero _)
    | succ n => exact hn s (Nat.le_of_succ_le_succ h)

/-- Killed within its first half, a sequence is where its first half is. -/
theorem cut_bind_of_le (p : Program σ ε α) (f : α → Program σ ε β) {n : ℕ} {s : σ}
    (h : n ≤ p.steps s) : (p >>= f).cut n s = p.cut n s := by
  rw [bind_eq]
  induction p generalizing n s with
  | done value =>
    obtain rfl := Nat.le_zero.mp h
    simp only [cut]
  | raise error => cases n <;> rfl
  | step update next fail hn hf =>
    cases n with
    | zero => rfl
    | succ n => exact hn s (Nat.le_of_succ_le_succ h)

/-- Killed in its second half, a sequence has come through its first half. -/
theorem cut_bind_add (p : Program σ ε α) (f : α → Program σ ε β) (n : ℕ) (s : σ) :
    (p >>= f).cut (p.steps s + n) s = match p.run s with
      | (.ok a, t) => (f a).cut n t
      | (.error _, t) => t := by
  rw [bind_eq]
  induction p generalizing s with
  | done value => simp only [bind, steps, run, Nat.zero_add]
  | raise error => cases n <;> rfl
  | step update next fail hn hf =>
    rw [steps, Nat.add_right_comm]
    exact hn s (update s)

/-- A sequence whose first half returns. -/
theorem cut_bind_of_ok {p : Program σ ε α} {f : α → Program σ ε β} {s t : σ} {a : α}
    (h : p.run s = (.ok a, t)) {n : ℕ} (hn : p.steps s ≤ n) :
    (p >>= f).cut n s = (f a).cut (n - p.steps s) t := by
  obtain ⟨k, rfl⟩ := Nat.exists_eq_add_of_le hn
  rw [cut_bind_add, h, Nat.add_sub_cancel_left]

/-- A sequence whose first half raises. -/
theorem cut_bind_of_error {p : Program σ ε α} {f : α → Program σ ε β} {s t : σ} {e : ε}
    (h : p.run s = (.error e, t)) (n : ℕ) : (p >>= f).cut n s = p.cut n s := by
  by_cases hn : n ≤ p.steps s
  · exact cut_bind_of_le p f hn
  · obtain ⟨k, rfl⟩ := Nat.exists_eq_add_of_le (Nat.le_of_not_le hn)
    rw [cut_bind_add, h, cut_of_steps_le p (Nat.le_add_right _ _), h]

/-- The steps of one program after the other. -/
theorem steps_bind (p : Program σ ε α) (f : α → Program σ ε β) (s : σ) :
    (p >>= f).steps s = p.steps s + match p.run s with
      | (.ok a, t) => (f a).steps t
      | (.error _, _) => 0 := by
  rw [bind_eq]
  induction p generalizing s with
  | done value => simp only [bind, steps, run, Nat.zero_add]
  | raise error => rfl
  | step update next fail hn hf =>
    have h := hn s (update s)
    simp only [bind, steps, run, h]
    omega

/-- A body that returns takes its own steps alone. -/
theorem steps_tryCatch_of_ok {p : Program σ ε α} {h : ε → Program σ ε α} {s t : σ} {a : α}
    (hrun : p.run s = (.ok a, t)) : (tryCatch p h).steps s = p.steps s := by
  show (p.handle h).steps s = p.steps s
  induction p generalizing s with
  | done value => rfl
  | raise error => cases hrun
  | step update next fail hn _ => exact congrArg (· + 1) (hn s hrun)

/-- A run in which `env i` happens just before the `i`-th step (and `env i` after the last one):
what the other clients of the state do meanwhile. -/
def interleave (env : ℕ → σ → σ) : ℕ → Program σ ε α → σ → Except ε α × σ
  | i, done value, s => (.ok value, env i s)
  | i, raise error, s => (.error error, env i s)
  | i, step update next _, s => interleave env (i + 1) (next (env i s)) (update (env i s))

/-! ## Step relations and postconditions -/

/-- Started in `s`, every step of the program lies in `R`, and its outcome satisfies `Q`. -/
def Sat (R : σ → σ → Prop) (Q : Except ε α → σ → Prop) : Program σ ε α → σ → Prop
  | done value, s => Q (.ok value) s
  | raise error, s => Q (.error error) s
  | step update next _, s => R s (update s) ∧ (next s).Sat R Q (update s)

variable {R : σ → σ → Prop} {Q : Except ε α → σ → Prop} {s : σ}

/-- A value that is returned. -/
@[simp] theorem sat_done (value : α) : (done value : Program σ ε α).Sat R Q s ↔ Q (.ok value) s :=
  Iff.rfl

/-- A value that is returned, as the monad has it. -/
@[simp] theorem sat_pure (value : α) : (pure value : Program σ ε α).Sat R Q s ↔ Q (.ok value) s :=
  Iff.rfl

/-- An error that is raised. -/
@[simp] theorem sat_raise (error : ε) :
    (raise error : Program σ ε α).Sat R Q s ↔ Q (.error error) s := Iff.rfl

/-- An error that is raised, as the monad has it. -/
@[simp] theorem sat_throw (error : ε) :
    (throw error : Program σ ε α).Sat R Q s ↔ Q (.error error) s := Iff.rfl

/-- An update is one step. -/
@[simp] theorem sat_modify {Q : Except ε Unit → σ → Prop} (update : σ → σ) :
    (modify update : Program σ ε Unit).Sat R Q s ↔ R s (update s) ∧ Q (.ok ()) (update s) := Iff.rfl

/-- So are both at once. -/
@[simp] theorem sat_act (view : σ → α) (update : σ → σ) :
    (act view update : Program σ ε α).Sat R Q s ↔ R s (update s) ∧ Q (.ok (view s)) (update s) :=
  Iff.rfl

/-- A result that is passed on. -/
@[simp] theorem sat_ofExcept (x : Except ε α) :
    (ofExcept x : Program σ ε α).Sat R Q s ↔ Q x s := by
  cases x <;> rfl

/-- The postcondition of the first half of a sequence: the second half meets `Q` from there. -/
def Then (R : σ → σ → Prop) (f : α → Program σ ε β) (Q : Except ε β → σ → Prop) :
    Except ε α → σ → Prop
  | .ok a, t => (f a).Sat R Q t
  | .error e, t => Q (.error e) t

/-- INTERNAL: what follows a value. -/
@[simp] theorem then_ok (f : α → Program σ ε β) (Q : Except ε β → σ → Prop) (a : α) (t : σ) :
    Then R f Q (.ok a) t ↔ (f a).Sat R Q t := Iff.rfl

/-- INTERNAL: nothing follows an error. -/
@[simp] theorem then_error (f : α → Program σ ε β) (Q : Except ε β → σ → Prop) (e : ε) (t : σ) :
    Then R f Q (.error e) t ↔ Q (.error e) t := Iff.rfl

/-- The rule for one program after the other. -/
@[simp] theorem sat_bind (p : Program σ ε α) (f : α → Program σ ε β) {Q : Except ε β → σ → Prop} :
    (p >>= f).Sat R Q s ↔ p.Sat R (Then R f Q) s := by
  rw [bind_eq]
  induction p generalizing s with
  | done value => rfl
  | raise error => rfl
  | step update next fail hn hf => exact and_congr_right fun _ => hn s

/-- The postcondition of a `try` body: its handler meets `Q` from where it raised. -/
def Catch (R : σ → σ → Prop) (h : ε → Program σ ε α) (Q : Except ε α → σ → Prop) :
    Except ε α → σ → Prop
  | .ok a, t => Q (.ok a) t
  | .error e, t => (h e).Sat R Q t

/-- INTERNAL: a value is not handled. -/
@[simp] theorem catch_ok (h : ε → Program σ ε α) (Q : Except ε α → σ → Prop) (a : α) (t : σ) :
    Catch R h Q (.ok a) t ↔ Q (.ok a) t := Iff.rfl

/-- INTERNAL: an error is. -/
@[simp] theorem catch_error (h : ε → Program σ ε α) (Q : Except ε α → σ → Prop) (e : ε) (t : σ) :
    Catch R h Q (.error e) t ↔ (h e).Sat R Q t := Iff.rfl

/-- The rule for a handler. -/
@[simp] theorem sat_tryCatch (p : Program σ ε α) (h : ε → Program σ ε α) :
    (tryCatch p h).Sat R Q s ↔ p.Sat R (Catch R h Q) s := by
  show (p.handle h).Sat R Q s ↔ _
  induction p generalizing s with
  | done value => rfl
  | raise error => rfl
  | step update next fail hn hf => exact and_congr_right fun _ => hn s

/-- The rule for a program whose errors are results. -/
@[simp] theorem sat_attempt (p : Program σ ε α) {Q : Except ε (Except ε α) → σ → Prop} :
    p.attempt.Sat R Q s ↔ p.Sat R (fun r t => Q (.ok r) t) s := by
  induction p generalizing s with
  | done value => rfl
  | raise error => rfl
  | step update next fail hn hf => exact and_congr_right fun _ => hn s

/-- A larger relation and a weaker postcondition. -/
theorem Sat.mono {R' : σ → σ → Prop} {Q' : Except ε α → σ → Prop} {p : Program σ ε α}
    (h : p.Sat R Q s) (hR : ∀ a b, R a b → R' a b) (hQ : ∀ r t, Q r t → Q' r t) :
    p.Sat R' Q' s := by
  induction p generalizing s with
  | done value => exact hQ _ _ h
  | raise error => exact hQ _ _ h
  | step update next fail hn hf => exact ⟨hR _ _ h.1, hn s h.2⟩

/-- A weaker postcondition. -/
theorem Sat.post {Q' : Except ε α → σ → Prop} {p : Program σ ε α}
    (h : p.Sat R Q s) (hQ : ∀ r t, Q r t → Q' r t) : p.Sat R Q' s :=
  h.mono (fun _ _ hr => hr) hQ

/-- Two facts about the same run hold together. -/
theorem Sat.and {R' : σ → σ → Prop} {Q' : Except ε α → σ → Prop} {p : Program σ ε α}
    (h : p.Sat R Q s) (h' : p.Sat R' Q' s) :
    p.Sat (fun a b => R a b ∧ R' a b) (fun r t => Q r t ∧ Q' r t) s := by
  induction p generalizing s with
  | done value => exact ⟨h, h'⟩
  | raise error => exact ⟨h, h'⟩
  | step update next fail hn hf => exact ⟨⟨h.1, h'.1⟩, hn s h.2 h'.2⟩

/-- An invariant of the steps holds where the program ends. -/
theorem Sat.keep {I : σ → Prop} {p : Program σ ε α} (h : p.Sat R Q s)
    (hI : ∀ a b, R a b → I a → I b) (hs : I s) : p.Sat R (fun r t => Q r t ∧ I t) s := by
  induction p generalizing s with
  | done value => exact ⟨h, hs⟩
  | raise error => exact ⟨h, hs⟩
  | step update next fail hn hf => exact ⟨h.1, hn s h.2 (hI _ _ h.1 hs)⟩

/-- The postcondition holds of the undisturbed run. -/
theorem Sat.run {p : Program σ ε α} (h : p.Sat R Q s) : Q (p.run s).1 (p.run s).2 := by
  induction p generalizing s with
  | done value => exact h
  | raise error => exact h
  | step update next fail hn hf => exact hn s h.2

/-- The postcondition of an undisturbed run, read as a `Sat` with no demand on the steps. -/
theorem sat_of_run {p : Program σ ε α} (h : Q (p.run s).1 (p.run s).2) :
    p.Sat (fun _ _ => True) Q s := by
  induction p generalizing s with
  | done value => exact h
  | raise error => exact h
  | step update next fail hn hf => exact ⟨trivial, hn s h⟩

open Relation in
/-- Wherever the program is cut, the steps so far form a chain of `R`. -/
theorem Sat.cut {p : Program σ ε α} (h : p.Sat R Q s) (n : ℕ) :
    ReflTransGen R s (p.cut n s) := by
  induction n generalizing p s with
  | zero => exact .refl
  | succ n ih =>
    cases p with
    | done value => exact .refl
    | raise error => exact .refl
    | step update next fail => exact .head h.1 (ih h.2)

/-- An invariant of the steps holds wherever the program is cut. -/
theorem Sat.cut_keep {I : σ → Prop} {p : Program σ ε α} (h : p.Sat R Q s)
    (hI : ∀ a b, R a b → I a → I b) (hs : I s) (n : ℕ) : I (p.cut n s) := by
  have hchain := h.cut n
  generalize p.cut n s = t at hchain ⊢
  induction hchain with
  | refl => exact hs
  | tail _ hstep ih => exact hI _ _ hstep ih

open Relation in
/-- The whole run is a chain of `R`. -/
theorem Sat.reach {p : Program σ ε α} (h : p.Sat R Q s) : ReflTransGen R s (p.run s).2 := by
  induction p generalizing s with
  | done value => exact .refl
  | raise error => exact .refl
  | step update next fail hn hf => exact .head h.1 (hn s h.2)

/-- Wherever the program is killed before it has come to its end, the state is one that `R` leads
to. A program that makes its writes durable in its last step is `Early` for the relation of states
with the same durable part. -/
def Early (R : σ → σ → Prop) (p : Program σ ε α) (s : σ) : Prop :=
  ∀ n < p.steps s, R s (p.cut n s)

/-- A sequence is early when every step of its first half lies in `R` and its second half is
early. -/
theorem early_bind (hrefl : ∀ s, R s s) (htrans : ∀ a b c, R a b → R b c → R a c)
    {p : Program σ ε α} {f : α → Program σ ε β}
    (h : p.Sat R (fun r t => ∀ a, r = .ok a → (f a).Early R t) s) : (p >>= f).Early R s := by
  have hchain : ∀ t, Relation.ReflTransGen R s t → R s t := by
    intro t ht
    induction ht with
    | refl => exact hrefl s
    | tail _ hs ih => exact htrans _ _ _ ih hs
  intro n hn
  by_cases hle : n ≤ p.steps s
  · rw [cut_bind_of_le p f hle]
    exact hchain _ (h.cut n)
  · obtain ⟨k, rfl⟩ := Nat.exists_eq_add_of_le (Nat.le_of_not_le hle)
    have hreach := hchain _ h.reach
    have hend := h.run
    rw [steps_bind] at hn
    rw [cut_bind_add]
    revert hreach hend hn
    rcases p.run s with ⟨r, t⟩
    cases r with
    | error e => exact fun hn => absurd hn (by simp only; omega)
    | ok a =>
      intro hn hreach hend
      have hk : k < (f a).steps t := by
        simp only at hn
        omega
      exact htrans _ _ _ hreach (hend a rfl k hk)

/-- The view is as before until `m` steps are taken, and as at the end from then on; `k` more steps
follow. -/
structure SwitchesAt {γ : Type} (view : σ → γ) (p : Program σ ε α) (s : σ) (m k : ℕ) : Prop where
  steps : p.steps s = m + k
  before : ∀ n < m, view (p.cut n s) = view s
  after : ∀ n, m ≤ n → view (p.cut n s) = view (p.run s).2

section SwitchesAt

variable {γ : Type} {view : σ → γ} {m k : ℕ}

/-- Steps that leave the view alone leave it alone all along. -/
theorem Sat.cut_view {p : Program σ ε α} (h : p.Sat (fun a b => view b = view a) Q s) (n : ℕ) :
    view (p.cut n s) = view s :=
  h.cut_keep (I := fun t => view t = view s) (fun _ _ hab ha => hab.trans ha) rfl n

/-- A view that no step changes is the same at the end. -/
theorem Sat.run_view {p : Program σ ε α} (h : p.Sat (fun a b => view b = view a) Q s) :
    view (p.run s).2 = view s := by
  have hend := h.cut_view (p.steps s)
  rwa [cut_of_steps_le p (Nat.le_refl _)] at hend

/-- A program that is early for the view changes it in its last step. -/
theorem Early.switchesAt {p : Program σ ε α} (h : p.Early (fun a b => view b = view a) s) :
    p.SwitchesAt view s (p.steps s) 0 :=
  ⟨rfl, h, fun _ hn => congrArg view (cut_of_steps_le p hn)⟩

/-- What comes first leaves the view alone. -/
theorem SwitchesAt.bind_left {p : Program σ ε α} {f : α → Program σ ε β} {a : α} {t : σ}
    (hp : p.Sat (fun a b => view b = view a) Q s) (hrun : p.run s = (.ok a, t))
    (hf : (f a).SwitchesAt view t m k) : (p >>= f).SwitchesAt view s (p.steps s + m) k := by
  have hview : view t = view s := by
    have h := hp.run_view
    rwa [hrun] at h
  refine ⟨?_, ?_, ?_⟩
  · rw [steps_bind, hrun, Nat.add_assoc]
    exact congrArg (p.steps s + ·) hf.steps
  · intro n hn
    by_cases hle : n ≤ p.steps s
    · rw [cut_bind_of_le p f hle]
      exact hp.cut_view n
    · obtain ⟨j, rfl⟩ := Nat.exists_eq_add_of_le (Nat.le_of_not_le hle)
      rw [cut_bind_add, hrun]
      exact (hf.before j (by omega)).trans hview
  · intro n hn
    obtain ⟨j, rfl⟩ := Nat.exists_eq_add_of_le (Nat.le_of_add_right_le hn)
    rw [cut_bind_add, run_bind, hrun]
    exact hf.after j (by omega)

/-- What comes last leaves the view alone. -/
theorem SwitchesAt.bind_right {p : Program σ ε α} {f : α → Program σ ε β} {a : α} {t : σ}
    {Q : Except ε β → σ → Prop} (hp : p.SwitchesAt view s m 0) (hrun : p.run s = (.ok a, t))
    (hf : (f a).Sat (fun a b => view b = view a) Q t) :
    (p >>= f).SwitchesAt view s m ((f a).steps t) := by
  have hsteps := hp.steps
  have hend : view ((p >>= f).run s).2 = view t := by
    rw [run_bind, hrun]
    exact hf.run_view
  refine ⟨?_, ?_, ?_⟩
  · rw [steps_bind, hrun, hsteps]
    rfl
  · intro n hn
    rw [cut_bind_of_le p f (by omega)]
    exact hp.before n hn
  · intro n hn
    obtain ⟨j, rfl⟩ := Nat.exists_eq_add_of_le hn
    rw [hend, show m + j = p.steps s + j by omega, cut_bind_add, hrun]
    exact hf.cut_view j

end SwitchesAt

/-! ## Programs whose steps lie in a relation from every state -/

/-- Every step of the program lies in `R`, from whatever state it is taken. -/
def Guarantee (R : σ → σ → Prop) : Program σ ε α → Prop
  | done _ => True
  | raise _ => True
  | step update next _ => (∀ s, R s (update s)) ∧ ∀ s, (next s).Guarantee R

/-- The rule for one program after the other. -/
@[simp] theorem guarantee_bind {p : Program σ ε α} {f : α → Program σ ε β}
    (hp : p.Guarantee R) (hf : ∀ a, (f a).Guarantee R) : (p >>= f).Guarantee R := by
  rw [bind_eq]
  induction p with
  | done value => exact hf value
  | raise error => trivial
  | step update next fail hn _ => exact ⟨hp.1, fun s => hn s (hp.2 s)⟩

/-- A value that is returned. -/
@[simp] theorem guarantee_pure (value : α) : (pure value : Program σ ε α).Guarantee R := trivial

/-- An error that is raised. -/
@[simp] theorem guarantee_throw (error : ε) : (throw error : Program σ ε α).Guarantee R := trivial

/-- A result that is passed on. -/
theorem guarantee_ofExcept (x : Except ε α) : (ofExcept x : Program σ ε α).Guarantee R := by
  cases x <;> trivial

/-- A look at the state. -/
theorem guarantee_get (hR : ∀ s, R s s) (view : σ → α) : (get view : Program σ ε α).Guarantee R :=
  ⟨hR, fun _ => trivial⟩

/-- A look and an update in one step. -/
theorem guarantee_act (view : σ → α) {update : σ → σ} (hR : ∀ s, R s (update s)) :
    (act view update : Program σ ε α).Guarantee R :=
  ⟨hR, fun _ => trivial⟩

/-- An update. -/
theorem guarantee_modify {update : σ → σ} (hR : ∀ s, R s (update s)) :
    (modify update : Program σ ε Unit).Guarantee R :=
  ⟨hR, fun _ => trivial⟩

/-- The rule for a handler. -/
theorem guarantee_tryCatch {p : Program σ ε α} {h : ε → Program σ ε α} (hp : p.Guarantee R)
    (hh : ∀ e, (h e).Guarantee R) : (tryCatch p h).Guarantee R := by
  show (p.handle h).Guarantee R
  induction p with
  | done value => trivial
  | raise error => exact hh error
  | step update next fail hn _ => exact ⟨hp.1, fun s => hn s (hp.2 s)⟩

/-- The rule for a program whose errors are results. -/
theorem guarantee_attempt {p : Program σ ε α} (hp : p.Guarantee R) : p.attempt.Guarantee R := by
  induction p with
  | done value => trivial
  | raise error => trivial
  | step update next fail hn _ => exact ⟨hp.1, fun s => hn s (hp.2 s)⟩

/-- A larger relation. -/
theorem Guarantee.mono {R' : σ → σ → Prop} {p : Program σ ε α} (h : p.Guarantee R)
    (hR : ∀ a b, R a b → R' a b) : p.Guarantee R' := by
  induction p with
  | done value => trivial
  | raise error => trivial
  | step update next fail hn _ => exact ⟨fun s => hR _ _ (h.1 s), fun s => hn s (h.2 s)⟩

/-- A guaranteed preorder relates the first state of a run to the last one. -/
theorem Guarantee.sat {p : Program σ ε α} (h : p.Guarantee R) (hrefl : ∀ s, R s s)
    (htrans : ∀ a b c, R a b → R b c → R a c) (s : σ) : p.Sat R (fun _ t => R s t) s := by
  induction p generalizing s with
  | done value => exact hrefl s
  | raise error => exact hrefl s
  | step update next fail hn hf =>
    exact ⟨h.1 s, (hn s (h.2 s) (update s)).post fun _ t ht => htrans _ _ _ (h.1 s) ht⟩

/-- A guaranteed preorder relates the states at which the program can be killed, the earlier to the
later. -/
theorem Guarantee.cut_le {p : Program σ ε α} (h : p.Guarantee R) (hrefl : ∀ s, R s s)
    (htrans : ∀ a b c, R a b → R b c → R a c) {m n : ℕ} (hmn : m ≤ n) (s : σ) :
    R (p.cut m s) (p.cut n s) := by
  induction m generalizing n p s with
  | zero =>
    have hchain := (h.sat hrefl htrans s).cut n
    generalize p.cut n s = t at hchain ⊢
    induction hchain with
    | refl => exact hrefl s
    | tail _ hstep ih => exact htrans _ _ _ ih hstep
  | succ m ih =>
    obtain ⟨k, rfl⟩ := Nat.exists_eq_add_of_le' hmn
    cases p with
    | done value => exact hrefl s
    | raise error => exact hrefl s
    | step update next fail => exact ih (h.2 s) (Nat.le_add_left m k) (update s)

/-- What is known of the outcome of a program that leaves the state alone. -/
theorem Guarantee.sat_still {p : Program σ ε α} (h : p.Guarantee fun a b => b = a) (hR : R s s)
    (hQ : Q (p.run s).1 s) : p.Sat R Q s := by
  induction p generalizing s with
  | done value => exact hQ
  | raise error => exact hQ
  | step update next fail hn hf =>
    have hstill : update s = s := h.1 s
    have hnext : Q ((next s).run (update s)).1 s := hQ
    rw [hstill] at hnext
    show R s (update s) ∧ (next s).Sat R Q (update s)
    rw [hstill]
    exact ⟨hR, hn s (h.2 s) hR hnext⟩

/-- Guaranteed steps, taken from states with an invariant they keep. -/
theorem Guarantee.sat_of_inv {R' : σ → σ → Prop} {I : σ → Prop} {p : Program σ ε α}
    (h : p.Guarantee R) (hstep : ∀ a b, I a → R a b → R' a b ∧ I b) {s : σ} (hs : I s) :
    p.Sat R' (fun _ t => I t) s := by
  induction p generalizing s with
  | done value => exact hs
  | raise error => exact hs
  | step update next fail hn hf =>
    obtain ⟨hR, hI⟩ := hstep _ _ hs (h.1 s)
    exact ⟨hR, hn s (h.2 s) hI⟩

/-- A handler that leaves a view alone cannot be told from the view. -/
theorem cut_tryCatch_view {γ : Type} {view : σ → γ} {p : Program σ ε α}
    {h : ε → Program σ ε α}
    (hh : ∀ e, (h e).Guarantee fun a b => view b = view a) (n : ℕ) (s : σ) :
    view ((tryCatch p h).cut n s) = view (p.cut n s) := by
  show view ((p.handle h).cut n s) = _
  induction p generalizing n s with
  | done value => rfl
  | raise error =>
    have hkeeps := (hh error).sat (fun _ => rfl) (fun _ _ _ hab hbc => hbc.trans hab) s
    have hsame := hkeeps.cut_view n
    cases n with
    | zero => rfl
    | succ n => exact hsame
  | step update next fail hn _ =>
    cases n with
    | zero => rfl
    | succ n => exact hn s n (update s)

/-! ## What a program can return -/

/-- Whatever the steps find, a value the program returns satisfies `P`. -/
def Yields (P : α → Prop) : Program σ ε α → Prop
  | done value => P value
  | raise _ => True
  | step _ next _ => ∀ s, (next s).Yields P

/-- A sequence returns what its second half returns. -/
theorem yields_bind {P : β → Prop} {p : Program σ ε α} {f : α → Program σ ε β}
    (hf : ∀ a, (f a).Yields P) : (p >>= f).Yields P := by
  rw [bind_eq]
  induction p with
  | done value => exact hf value
  | raise error => trivial
  | step update next fail hn _ => exact hn

/-- The second half may rely on what the first returns. -/
theorem Yields.bind {P : α → Prop} {Q : β → Prop} {p : Program σ ε α} {f : α → Program σ ε β}
    (hp : p.Yields P) (hf : ∀ a, P a → (f a).Yields Q) : (p >>= f).Yields Q := by
  rw [bind_eq]
  induction p with
  | done value => exact hf value hp
  | raise error => trivial
  | step update next fail hn _ => exact fun s => hn s (hp s)

/-- The value of an undisturbed run. -/
theorem Yields.of_run {P : α → Prop} {p : Program σ ε α} (h : p.Yields P) {s : σ} {value : α}
    (hrun : (p.run s).1 = .ok value) : P value := by
  induction p generalizing s with
  | done value' => exact Except.ok.inj hrun ▸ h
  | raise error => cases hrun
  | step update next fail hn _ => exact hn s (h s) hrun

/-- Whatever the steps find, an exception the program raises satisfies `P`. -/
def Throws (P : ε → Prop) : Program σ ε α → Prop
  | done _ => True
  | raise error => P error
  | step _ next _ => ∀ s, (next s).Throws P

/-- The errors of one program after the other. -/
theorem throws_bind {P : ε → Prop} {p : Program σ ε α} {f : α → Program σ ε β} (hp : p.Throws P)
    (hf : ∀ a, (f a).Throws P) : (p >>= f).Throws P := by
  rw [bind_eq]
  induction p with
  | done value => exact hf value
  | raise error => exact hp
  | step update next fail hn _ => exact fun s => hn s (hp s)

/-- An outcome is looked at, an exception included. -/
theorem throws_attempt_bind {P : ε → Prop} {p : Program σ ε α} {f : Except ε α → Program σ ε β}
    (hp : p.Throws P) (hok : ∀ a, (f (.ok a)).Throws P)
    (herror : ∀ e, P e → (f (.error e)).Throws P) : (p.attempt >>= f).Throws P := by
  rw [bind_eq]
  induction p with
  | done value => exact hok value
  | raise error => exact herror error hp
  | step update next fail hn _ => exact fun s => hn s (hp s)

/-- The exception of an undisturbed run. -/
theorem Throws.of_run {P : ε → Prop} {p : Program σ ε α} (h : p.Throws P) {s : σ} {error : ε}
    (hrun : (p.run s).1 = .error error) : P error := by
  induction p generalizing s with
  | done value => cases hrun
  | raise error' => exact Except.error.inj hrun ▸ h
  | step update next fail hn _ => exact hn s (h s) hrun

/-- What is known of the exceptions may be added to a postcondition. -/
theorem Throws.sat {P : ε → Prop} {p : Program σ ε α} (h : p.Throws P) {s : σ}
    (hsat : p.Sat R Q s) : p.Sat R (fun r t => Q r t ∧ ∀ e, r = .error e → P e) s := by
  induction p generalizing s with
  | done value => exact ⟨hsat, fun e he => by cases he⟩
  | raise error => exact ⟨hsat, fun e he => Except.error.inj he ▸ h⟩
  | step update next fail hn _ => exact ⟨hsat.1, hn s (h s) hsat.2⟩

/-- An exception that is caught gives way to those of the handler. -/
theorem throws_tryCatch {P : ε → Prop} {p : Program σ ε α} {h : ε → Program σ ε α} (hp : p.Throws P)
    (hh : ∀ e, P e → (h e).Throws P) : (tryCatch p h).Throws P := by
  show (p.handle h).Throws P
  induction p with
  | done value => trivial
  | raise error => exact hh error hp
  | step update next fail hn _ => exact fun s => hn s (hp s)

/-- Both ways of a choice. -/
theorem throws_ite {P : ε → Prop} {c : Prop} [Decidable c] {p q : Program σ ε α} (hp : p.Throws P)
    (hq : q.Throws P) : (if c then p else q).Throws P := by
  split
  · exact hp
  · exact hq

/-- The values of either branch. -/
theorem yields_ite {P : α → Prop} {c : Prop} [Decidable c] {p q : Program σ ε α} (hp : p.Yields P)
    (hq : q.Yields P) : (if c then p else q).Yields P := by
  split
  · exact hp
  · exact hq

/-- An outcome that is looked at is not raised. -/
theorem throws_attempt {P : ε → Prop} (p : Program σ ε α) : p.attempt.Throws P := by
  induction p with
  | done value => trivial
  | raise error => trivial
  | step update next fail hn _ => exact hn

/-- What the program can raise is what its outcome can carry. -/
theorem Throws.attempt {P : ε → Prop} {p : Program σ ε α} (h : p.Throws P) :
    p.attempt.Yields fun r => ∀ e, r = .error e → P e := by
  induction p with
  | done value => exact fun e he => nomatch he
  | raise error => exact fun e he => Except.error.inj he ▸ h
  | step update next fail hn _ => exact fun s => hn s (h s)

/-- A `try` returns what its body or its handler returns. -/
theorem yields_tryCatch {P : α → Prop} {p : Program σ ε α} {h : ε → Program σ ε α}
    (hp : p.Yields P) (hh : ∀ e, (h e).Yields P) : (tryCatch p h).Yields P := by
  show (p.handle h).Yields P
  induction p with
  | done value => exact hp
  | raise error => exact hh error
  | step update next fail hn _ => exact fun s => hn s (hp s)

end Program

/-- An exception the computation raises satisfies `P`. -/
def Fails {ε α : Type} (P : ε → Prop) (x : Except ε α) : Prop := ∀ e, x = .error e → P e

namespace Fails

variable {ε α β : Type} {P : ε → Prop}

/-- A value raises nothing. -/
theorem ok (a : α) : Fails P (.ok a : Except ε α) := fun _ h => nomatch h

/-- Nor does it as the monad has it. -/
theorem pure (a : α) : Fails P (Pure.pure a : Except ε α) := ok a

/-- An error of the kind. -/
theorem error {e : ε} (h : P e) : Fails P (.error e : Except ε α) := by
  intro e' heq
  obtain rfl := Except.error.inj heq
  exact h

/-- One computation after the other. -/
theorem bind {x : Except ε α} {f : α → Except ε β} (hx : Fails P x) (hf : ∀ a, Fails P (f a)) :
    Fails P (x >>= f) := by
  cases x with
  | ok a => exact hf a
  | error e => exact error (hx e rfl)

/-- A function of the value. -/
theorem map {x : Except ε α} {f : α → β} (hx : Fails P x) : Fails P (x.map f) := by
  cases x with
  | ok a => exact ok _
  | error e => exact error (hx e rfl)

/-- Either branch. -/
theorem ite {c : Prop} [Decidable c] {x y : Except ε α} (hx : Fails P x) (hy : Fails P y) :
    Fails P (if c then x else y) := by
  split
  · exact hx
  · exact hy

/-- A computation as a program. -/
theorem throws {σ : Type} {x : Except ε α} (h : Fails P x) :
    (Program.ofExcept x : Program σ ε α).Throws P := by
  cases x with
  | ok a => trivial
  | error e => exact h e rfl

end Fails

/-- The parts of a computation that has returned. -/
theorem exists_of_bind_ok {ε α β : Type} {x : Except ε α} {f : α → Except ε β} {b : β}
    (h : x >>= f = .ok b) : ∃ a, x = .ok a ∧ f a = .ok b := by
  cases x with
  | ok a => exact ⟨a, rfl, h⟩
  | error e => cases h

end Shea.Computation
