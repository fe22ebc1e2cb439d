import Shea.Computation.Program

/-!
# Histories of calls with crashes

A service is used by one call after another. Each call is a program; it either comes to its end,
or the process is killed after some of its steps and started again. `History` collects the states in
which no call is under way, and `Moment` the single steps taken on the way.

The rules at the end turn facts about one call into facts about every history: an invariant is kept
by every step of every call and by a restart.
-/

set_option autoImplicit false

namespace Shea.Computation

open Relation

variable {σ ε : Type}

/-- What may happen in a history: which programs may be called in a state, after how many steps the
process may be killed, and what a restart leaves of the state. -/
structure Usage (σ ε : Type) where
  calls : σ → Program σ ε Unit → Prop
  crashes : σ → Program σ ε Unit → ℕ → Prop
  restart : σ → σ

/-- The given programs, called in any state and killed at any point. -/
def Usage.free (calls : Program σ ε Unit → Prop) (restart : σ → σ) : Usage σ ε :=
  { calls := fun _ p => calls p, crashes := fun _ p _ => calls p, restart := restart }

/-- The states between calls. -/
inductive History (u : Usage σ ε) (init : σ) : σ → Prop
  | start : History u init init
  | returned {s : σ} {p : Program σ ε Unit} (hs : History u init s) (hp : u.calls s p) :
      History u init (p.run s).2
  | crashed {s : σ} {p : Program σ ε Unit} {n : ℕ} (hs : History u init s) (hp : u.crashes s p n) :
      History u init (u.restart (p.cut n s))

/-- A single step on the way: the states before and after the `n`-th step of a call. -/
inductive Moment (u : Usage σ ε) (init : σ) : σ → σ → Prop
  | step {s : σ} {p : Program σ ε Unit} (hs : History u init s) (hp : u.calls s p) (n : ℕ) :
      Moment u init (p.cut n s) (p.cut (n + 1) s)

namespace Program

variable {α : Type} {R : σ → σ → Prop} {Q : Except ε α → σ → Prop} {s : σ}

/-- The program with its result thrown away. -/
def void (p : Program σ ε α) : Program σ ε Unit := p >>= fun _ => pure ()

/-- Dropping the result keeps the postcondition on the states. -/
theorem sat_void {p : Program σ ε α} {I : σ → Prop} (h : p.Sat R (fun _ t => I t) s) :
    p.void.Sat R (fun _ t => I t) s := by
  unfold void
  rw [sat_bind]
  refine h.post fun r t ht => ?_
  cases r <;> exact ht

/-- It leaves the same state. -/
@[simp] theorem run_void (p : Program σ ε α) (s : σ) : (p.void.run s).2 = (p.run s).2 := by
  unfold void
  rw [run_bind]
  rcases p.run s with ⟨r, t⟩
  cases r <;> rfl

/-- Throwing the result away adds no step. -/
theorem cut_void (p : Program σ ε α) (n : ℕ) (s : σ) : p.void.cut n s = p.cut n s := by
  unfold void
  rw [bind_eq]
  induction p generalizing n s with
  | done value => cases n <;> rfl
  | raise error => cases n <;> rfl
  | step update next fail hn hf =>
    cases n with
    | zero => rfl
    | succ n => exact hn s n (update s)

/-- The `n`-th step of a program lies in `R`, unless the program is over by then. -/
theorem Sat.nth {p : Program σ ε α} (h : p.Sat R Q s) (n : ℕ) :
    p.cut (n + 1) s = p.cut n s ∨ R (p.cut n s) (p.cut (n + 1) s) := by
  induction n generalizing p s with
  | zero =>
    cases p with
    | done value => exact .inl rfl
    | raise error => exact .inl rfl
    | step update next fail => exact .inr (by simpa [Program.cut] using h.1)
  | succ n ih =>
    cases p with
    | done value => exact .inl rfl
    | raise error => exact .inl rfl
    | step update next fail => exact ih h.2

end Program

namespace History

variable {u : Usage σ ε} {init : σ} {I : σ → Prop} {R : σ → σ → Prop}

/-- An invariant of the states between calls is kept by every call and by every crash. -/
theorem invariant (h0 : I init)
    (hcall : ∀ s p, I s → u.calls s p → I (p.run s).2)
    (hcrash : ∀ s p n, I s → u.crashes s p n → I (u.restart (p.cut n s)))
    {s : σ} (h : History u init s) : I s := by
  induction h with
  | start => exact h0
  | returned _ hp ih => exact hcall _ _ ih hp
  | crashed _ hp ih => exact hcrash _ _ _ ih hp

/-- A call whose result is thrown away leaves the state it leaves. -/
theorem returned_void {α : Type} {s : σ} {p : Program σ ε α} (hs : History u init s)
    (hp : u.calls s p.void) : History u init (p.run s).2 :=
  Program.run_void p s ▸ hs.returned hp

variable {calls : Program σ ε Unit → Prop} {restart : σ → σ}

/-- The same when crashes are free: every step of a call from a state with the invariant lies in
`R`, the call ends in a state with the invariant, and whatever a chain of `R` leads to has the
invariant after a restart. -/
theorem invariant_of_sat (h0 : I init)
    (hcall : ∀ p s, calls p → I s → p.Sat R (fun _ t => I t) s)
    (hcrash : ∀ s t, I s → ReflTransGen R s t → I (restart t))
    {s : σ} (h : History (.free calls restart) init s) : I s :=
  h.invariant h0 (fun _ _ hI hp => (hcall _ _ hp hI).run)
    fun _ _ n hI hp => hcrash _ _ hI ((hcall _ _ hp hI).cut n)

/-- Under the same conditions, every single step lies in `R` or changes nothing, and starts in a
state that a chain of `R` reaches from a state with the invariant. -/
theorem moment_of_sat (h0 : I init)
    (hcall : ∀ p s, calls p → I s → p.Sat R (fun _ t => I t) s)
    (hcrash : ∀ s t, I s → ReflTransGen R s t → I (restart t))
    {a b : σ} (h : Moment (.free calls restart) init a b) :
    (∃ s, I s ∧ ReflTransGen R s a) ∧ (b = a ∨ R a b) := by
  obtain ⟨hs, hp, n⟩ := h
  have hI := invariant_of_sat h0 hcall hcrash hs
  have hsat := hcall _ _ hp hI
  exact ⟨⟨_, hI, hsat.cut n⟩, hsat.nth n⟩

end History

/-! ## The steps of a history -/

namespace Program

variable {α : Type} {R : σ → σ → Prop} {Q : Except ε α → σ → Prop} {J : σ → Prop} {s : σ}

/-- The steps of an undisturbed run, each with the states before and after it. -/
def trace : Program σ ε α → σ → List (σ × σ)
  | done _, _ => []
  | raise _, _ => []
  | step update next _, s => (s, update s) :: (next s).trace (update s)

/-- Every step of the trace lies in `R`. -/
theorem Sat.trace {p : Program σ ε α} (h : p.Sat R Q s) : ∀ x ∈ p.trace s, R x.1 x.2 := by
  induction p generalizing s with
  | done value => simp [Program.trace]
  | raise error => simp [Program.trace]
  | step update next fail hn hf =>
    rintro x (_ | ⟨_, hx⟩)
    · exact h.1
    · exact hn s h.2 x hx

/-- What the steps keep is handed from the first state to every step of the trace. -/
theorem Sat.trace_reaches {p : Program σ ε α} (h : p.Sat R Q s) (hJ : ∀ a b, R a b → J a → J b)
    (hs : J s) : ∀ x ∈ p.trace s, J x.1 := by
  induction p generalizing s with
  | done value => simp [Program.trace]
  | raise error => simp [Program.trace]
  | step update next fail hn hf =>
    rintro x (_ | ⟨_, hx⟩)
    · exact hs
    · exact hn s h.2 (hJ _ _ h.1 hs) x hx

/-- And from every step to the later ones. -/
theorem Sat.trace_pairwise {p : Program σ ε α} (h : p.Sat R Q s) (hJ : ∀ a b, R a b → J a → J b) :
    (p.trace s).Pairwise fun x y => J x.2 → J y.1 := by
  induction p generalizing s with
  | done value => exact .nil
  | raise error => exact .nil
  | step update next fail hn hf =>
    exact .cons (fun y hy hx => h.2.trace_reaches hJ hx y hy) (hn s h.2)

/-- And to the state in which the program is cut after them. -/
theorem Sat.trace_cut {p : Program σ ε α} (h : p.Sat R Q s) (hJ : ∀ a b, R a b → J a → J b) (n : ℕ) :
    ∀ x ∈ (p.trace s).take n, J x.2 → J (p.cut n s) := by
  induction n generalizing p s with
  | zero => simp
  | succ n ih =>
    cases p with
    | done value => simp [Program.trace]
    | raise error => simp [Program.trace]
    | step update next fail =>
      rintro x (_ | ⟨_, hx⟩)
      · exact fun hx => h.2.cut_keep hJ hx n
      · exact ih h.2 x hx

/-- The whole trace. -/
theorem trace_take_steps (p : Program σ ε α) (s : σ) : (p.trace s).take (p.steps s) = p.trace s := by
  induction p generalizing s with
  | done value => rfl
  | raise error => rfl
  | step update next fail hn hf => exact congrArg ((s, update s) :: ·) (hn s (update s))

end Program

/-- A history together with its steps, in order. -/
inductive Trail (u : Usage σ ε) (init : σ) : List (σ × σ) → σ → Prop
  | start : Trail u init [] init
  | returned {steps : List (σ × σ)} {s : σ} {p : Program σ ε Unit} (hs : Trail u init steps s)
      (hp : u.calls s p) : Trail u init (steps ++ p.trace s) (p.run s).2
  | crashed {steps : List (σ × σ)} {s : σ} {p : Program σ ε Unit} {n : ℕ}
      (hs : Trail u init steps s) (hp : u.crashes s p n) :
      Trail u init (steps ++ (p.trace s).take n) (u.restart (p.cut n s))

namespace Trail

variable {u : Usage σ ε} {init : σ} {steps : List (σ × σ)} {s : σ}

/-- A trail is a history of its last state. -/
theorem history (h : Trail u init steps s) : History u init s := by
  induction h with
  | start => exact .start
  | returned _ hp ih => exact ih.returned hp
  | crashed _ hp ih => exact ih.crashed hp

/-- Every history has its steps. -/
theorem of_history (h : History u init s) : ∃ steps, Trail u init steps s := by
  induction h with
  | start => exact ⟨[], .start⟩
  | returned _ hp ih =>
    obtain ⟨steps, htrail⟩ := ih
    exact ⟨_, htrail.returned hp⟩
  | crashed _ hp ih =>
    obtain ⟨steps, htrail⟩ := ih
    exact ⟨_, htrail.crashed hp⟩

variable {calls : Program σ ε Unit → Prop} {restart : σ → σ} {I J : σ → Prop} {R : σ → σ → Prop}

/-- Every step of a trail lies in `R`, and is taken from a state with whatever the steps keep. -/
theorem step_of_sat (h0 : I init)
    (hcall : ∀ p s, calls p → I s → p.Sat R (fun _ t => I t) s)
    (hcrash : ∀ s t, I s → ReflTransGen R s t → I (restart t))
    (hJ : ∀ a b, R a b → J a → J b) (hI : ∀ s, I s → J s)
    (h : Trail (.free calls restart) init steps s) : ∀ x ∈ steps, R x.1 x.2 ∧ J x.1 := by
  induction h with
  | start => simp
  | @returned steps s p hs hp ih =>
    have hs := History.invariant_of_sat h0 hcall hcrash hs.history
    have hsat := hcall _ _ hp hs
    intro x hx
    rcases List.mem_append.mp hx with hx | hx
    · exact ih x hx
    · exact ⟨hsat.trace x hx, hsat.trace_reaches hJ (hI _ hs) x hx⟩
  | @crashed steps s p n hs hp ih =>
    have hs := History.invariant_of_sat h0 hcall hcrash hs.history
    have hsat := hcall _ _ hp hs
    intro x hx
    rcases List.mem_append.mp hx with hx | hx
    · exact ih x hx
    · have hin := List.mem_of_mem_take hx
      exact ⟨hsat.trace x hin, hsat.trace_reaches hJ (hI _ hs) x hin⟩

/-- What every step and a restart keep is handed from each step of a trail to the later ones. -/
theorem pairwise_of_sat (h0 : I init)
    (hcall : ∀ p s, calls p → I s → p.Sat R (fun _ t => I t) s)
    (hcrash : ∀ s t, I s → ReflTransGen R s t → I (restart t))
    (hJ : ∀ a b, R a b → J a → J b) (hrestart : ∀ s, J s → J (restart s))
    (h : Trail (.free calls restart) init steps s) :
    steps.Pairwise (fun x y => J x.2 → J y.1) ∧ ∀ x ∈ steps, J x.2 → J s := by
  induction h with
  | start => exact ⟨.nil, by simp⟩
  | @returned steps s p hs hp ih =>
    have hsat := hcall _ _ hp (History.invariant_of_sat h0 hcall hcrash hs.history)
    obtain ⟨hpairs, hend⟩ := ih
    refine ⟨List.pairwise_append.mpr ⟨hpairs, hsat.trace_pairwise hJ, ?_⟩, ?_⟩
    · intro x hx y hy hxJ
      exact hsat.trace_reaches hJ (hend x hx hxJ) y hy
    · intro x hx hxJ
      rw [← Program.cut_of_steps_le p (Nat.le_refl _)]
      rcases List.mem_append.mp hx with hx | hx
      · exact hsat.cut_keep hJ (hend x hx hxJ) _
      · exact hsat.trace_cut hJ _ x ((p.trace_take_steps s).symm ▸ hx) hxJ
  | @crashed steps s p n hs hp ih =>
    have hsat := hcall _ _ hp (History.invariant_of_sat h0 hcall hcrash hs.history)
    obtain ⟨hpairs, hend⟩ := ih
    refine ⟨List.pairwise_append.mpr
      ⟨hpairs, (hsat.trace_pairwise hJ).sublist (List.take_sublist _ _), ?_⟩, ?_⟩
    · intro x hx y hy hxJ
      exact hsat.trace_reaches hJ (hend x hx hxJ) y (List.mem_of_mem_take hy)
    · intro x hx hxJ
      refine hrestart _ ?_
      rcases List.mem_append.mp hx with hx | hx
      · exact hsat.cut_keep hJ (hend x hx hxJ) _
      · exact hsat.trace_cut hJ _ x hx hxJ

end Trail

end Shea.Computation
