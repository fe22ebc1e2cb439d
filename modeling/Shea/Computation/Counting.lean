import Shea.Computation.History

/-!
# Counting steps of a kind

`Counts` is `Sat` with a counter: every step adds its cost to it, and after every step an invariant
relates the counter to the state. It goes through sequences; a phase in which no step costs anything
comes from a `Sat`, and a phase that changes what the cost and the invariant look at only once, from
where it switches. For a whole trail the counter is the sum of the costs of its steps.
-/

set_option autoImplicit false

namespace Shea.Computation

variable {σ ε : Type}

/-- What the steps cost together. -/
def spent (cost : σ → σ → ℕ) : List (σ × σ) → ℕ
  | [] => 0
  | x :: steps => cost x.1 x.2 + spent cost steps

section Spent

variable {cost : σ → σ → ℕ}

/-- No step, no cost. -/
@[simp] theorem spent_nil : spent cost [] = 0 := rfl

/-- The first step is paid first. -/
@[simp] theorem spent_cons (x : σ × σ) (steps : List (σ × σ)) :
    spent cost (x :: steps) = cost x.1 x.2 + spent cost steps := rfl

/-- Costs add up along a run. -/
theorem spent_append (steps steps' : List (σ × σ)) :
    spent cost (steps ++ steps') = spent cost steps + spent cost steps' := by
  induction steps with
  | nil => rw [List.nil_append, spent_nil, Nat.zero_add]
  | cons x steps ih => rw [List.cons_append, spent_cons, spent_cons, ih, Nat.add_assoc]

/-- With a cost of zero and one, the steps that cost something are counted. -/
theorem spent_eq_countP (kind : σ → σ → Prop) [∀ a b, Decidable (kind a b)]
    (steps : List (σ × σ)) :
    spent (fun a b => if kind a b then 1 else 0) steps = steps.countP fun x => kind x.1 x.2 := by
  induction steps with
  | nil => rfl
  | cons x steps ih =>
    rw [spent_cons, ih, List.countP_cons, Nat.add_comm]
    congr 1
    simp only [decide_eq_true_eq]

end Spent

namespace Program

variable {α β : Type}

/-- From the counter `k` in the state `s`: after every step the invariant holds of the counter and the
state, and at the end the counter, the outcome and the state satisfy `Q`. -/
def Counts (cost : σ → σ → ℕ) (I : ℕ → σ → Prop) (Q : ℕ → Except ε α → σ → Prop) :
    Program σ ε α → ℕ → σ → Prop
  | done value, k, s => Q k (.ok value) s
  | raise error, k, s => Q k (.error error) s
  | step update next _, k, s => I (k + cost s (update s)) (update s) ∧
      (next s).Counts cost I Q (k + cost s (update s)) (update s)

variable {cost : σ → σ → ℕ} {I : ℕ → σ → Prop} {Q : ℕ → Except ε α → σ → Prop}
  {p : Program σ ε α} {k : ℕ} {s : σ}

/-- A weaker postcondition. -/
theorem Counts.post {Q' : ℕ → Except ε α → σ → Prop} (h : p.Counts cost I Q k s)
    (hQ : ∀ k r t, Q k r t → Q' k r t) : p.Counts cost I Q' k s := by
  induction p generalizing k s with
  | done value => exact hQ _ _ _ h
  | raise error => exact hQ _ _ _ h
  | step update next fail hn hf => exact ⟨h.1, hn s h.2⟩

/-- The counter goes through a sequence. -/
theorem Counts.bind {f : α → Program σ ε β} {Q' : ℕ → Except ε β → σ → Prop}
    (h : p.Counts cost I Q k s)
    (hok : ∀ k a t, Q k (.ok a) t → (f a).Counts cost I Q' k t)
    (herror : ∀ k e t, Q k (.error e) t → Q' k (.error e) t) :
    (p >>= f).Counts cost I Q' k s := by
  rw [bind_eq]
  induction p generalizing k s with
  | done value => exact hok _ _ _ h
  | raise error => exact herror _ _ _ h
  | step update next fail hn hf => exact ⟨h.1, hn s h.2⟩

/-- Steps that keep `J` and cost nothing. -/
theorem Sat.counts {R : σ → σ → Prop} {Q : Except ε α → σ → Prop} {J : σ → Prop}
    (h : p.Sat R Q s) (hJ : J s) (hstep : ∀ a b, J a → R a b → J b ∧ cost a b = 0 ∧ I k b) :
    p.Counts cost I (fun k' r t => k' = k ∧ J t ∧ Q r t) k s := by
  induction p generalizing s with
  | done value => exact ⟨rfl, hJ, h⟩
  | raise error => exact ⟨rfl, hJ, h⟩
  | step update next fail hn hf =>
    obtain ⟨hJ', hfree, hI⟩ := hstep _ _ hJ h.1
    unfold Counts
    rw [hfree, Nat.add_zero]
    exact ⟨hI, hn s h.2 hJ'⟩

/-- Where a program is killed, the counter stands at what its steps have cost. -/
theorem Counts.cut (h : p.Counts cost I Q k s) (hs : I k s) (n : ℕ) :
    I (k + spent cost ((p.trace s).take n)) (p.cut n s) := by
  induction n generalizing p k s with
  | zero => simpa [Program.cut] using hs
  | succ n ih =>
    cases p with
    | done value => simpa [Program.trace, Program.cut] using hs
    | raise error => simpa [Program.trace, Program.cut] using hs
    | step update next fail =>
      have hrest := ih h.2 h.1
      rw [Nat.add_assoc] at hrest
      exact hrest

/-- The whole run. -/
theorem Counts.run (h : p.Counts cost I Q k s) (hs : I k s) :
    I (k + spent cost (p.trace s)) (p.run s).2 := by
  have hend := h.cut hs (p.steps s)
  rwa [trace_take_steps, cut_of_steps_le p (Nat.le_refl _)] at hend

/-- The invariant holds after every step of the trace. -/
theorem Counts.trace (h : p.Counts cost I Q k s) : ∀ x ∈ p.trace s, ∃ k', I k' x.2 := by
  induction p generalizing k s with
  | done value => simp [Program.trace]
  | raise error => simp [Program.trace]
  | step update next fail hn hf =>
    rintro x (_ | ⟨_, hx⟩)
    · exact ⟨_, h.1⟩
    · exact hn s h.2 x hx

/-- After its first step such a program still switches once, and the step has changed the view to what
it is at the end, or not at all. -/
theorem SwitchesAt.tail {γ : Type} {view : σ → γ} {update : σ → σ} {next : σ → Program σ ε α}
    {fail : ε → Program σ ε α} {m n : ℕ} (h : (step update next fail).SwitchesAt view s m n) :
    (∃ m' n', (next s).SwitchesAt view (update s) m' n') ∧
      (view (update s) = view s ∨ view (update s) = view ((next s).run (update s)).2) := by
  have hsteps : (next s).steps (update s) + 1 = m + n := h.steps
  have hafter : ∀ i, m ≤ i + 1 →
      view ((next s).cut i (update s)) = view ((next s).run (update s)).2 :=
    fun i hi => h.after (i + 1) hi
  have hfirst : (next s).cut 0 (update s) = update s := by cases next s <;> rfl
  cases m with
  | zero =>
    have hend : view (update s) = view ((next s).run (update s)).2 :=
      hfirst ▸ hafter 0 (Nat.zero_le _)
    exact ⟨⟨0, n - 1, by omega, fun i hi => absurd hi (Nat.not_lt_zero _),
      fun i _ => hafter i (Nat.zero_le _)⟩, .inr hend⟩
  | succ m =>
    cases m with
    | zero =>
      have hend : view (update s) = view ((next s).run (update s)).2 :=
        hfirst ▸ hafter 0 (Nat.le_refl _)
      exact ⟨⟨0, n, by omega, fun i hi => absurd hi (Nat.not_lt_zero _),
        fun i _ => hafter i (by omega)⟩, .inr hend⟩
    | succ m =>
      have hbefore : ∀ i < m + 1, view ((next s).cut i (update s)) = view s :=
        fun i hi => h.before (i + 1) (by omega)
      have hsame : view (update s) = view s := hfirst ▸ hbefore 0 (Nat.succ_pos _)
      exact ⟨⟨m + 1, n, by omega, fun i hi => (hbefore i hi).trans hsame.symm,
        fun i hi => hafter i (by omega)⟩, .inl hsame⟩

/-- A program that changes a view once pays once, for the change as a whole. -/
theorem SwitchesAt.counts {γ : Type} {view : σ → γ} {price : γ → γ → ℕ} {J : ℕ → γ → Prop} {m n : ℕ}
    (h : p.SwitchesAt view s m n) (hfree : ∀ v, price v v = 0) (hbefore : J k (view s))
    (hafter : J (k + price (view s) (view (p.run s).2)) (view (p.run s).2)) :
    p.Counts (fun a b => price (view a) (view b)) (fun c t => J c (view t))
      (fun c r t => (r, t) = p.run s ∧ c = k + price (view s) (view t)) k s := by
  induction p generalizing s m n k with
  | done value => exact ⟨rfl, by rw [hfree, Nat.add_zero]⟩
  | raise error => exact ⟨rfl, by rw [hfree, Nat.add_zero]⟩
  | step update next fail hn hf =>
    obtain ⟨⟨m', n', htail⟩, hview⟩ := h.tail
    have hrun : (step update next fail).run s = (next s).run (update s) := rfl
    rw [hrun] at hafter
    unfold Counts
    rcases hview with hsame | hend
    · rw [hsame, hfree, Nat.add_zero]
      refine ⟨hbefore, (hn s htail (hsame ▸ hbefore) (hsame ▸ hafter)).post ?_⟩
      rintro c r t ⟨hout, hcount⟩
      exact ⟨hout, hsame ▸ hcount⟩
    · rw [← hend] at hafter
      have hafter' := hafter
      rw [← Nat.add_zero (k + _), ← hfree (view (update s))] at hafter'
      refine ⟨hafter, (hn s htail hafter (hend ▸ hafter')).post ?_⟩
      rintro c r t ⟨hout, hcount⟩
      refine ⟨hout, hcount.trans ?_⟩
      have ht : t = ((next s).run (update s)).2 := congrArg Prod.snd hout
      rw [← ht] at hend
      rw [hend, hfree, Nat.add_zero]

end Program

/-! ## Trails -/

section Trails

variable {u : Usage σ ε} {init s : σ} {steps : List (σ × σ)} {cost : σ → σ → ℕ} {I : ℕ → σ → Prop}

/-- When every call counts from wherever a history leads, what all steps have cost stands in the invariant
at the end, and the invariant holds after every step. -/
theorem Trail.counts (h0 : I 0 init)
    (hcall : ∀ k s p, History u init s → I k s → u.calls s p →
      p.Counts cost I (fun _ _ _ => True) k s)
    (hcrash : ∀ k s p n, History u init s → I k s → u.crashes s p n →
      p.Counts cost I (fun _ _ _ => True) k s)
    (hrestart : ∀ k s, I k s → I k (u.restart s)) (h : Trail u init steps s) :
    I (spent cost steps) s ∧ ∀ x ∈ steps, ∃ k, I k x.2 := by
  induction h with
  | start => exact ⟨h0, by simp⟩
  | @returned steps s p hs hp ih =>
    obtain ⟨hI, hall⟩ := ih
    have hcounts := hcall _ _ _ hs.history hI hp
    refine ⟨spent_append steps _ ▸ hcounts.run hI, fun x hx => ?_⟩
    rcases List.mem_append.mp hx with hx | hx
    · exact hall x hx
    · exact hcounts.trace x hx
  | @crashed steps s p n hs hp ih =>
    obtain ⟨hI, hall⟩ := ih
    have hcounts := hcrash _ _ _ _ hs.history hI hp
    refine ⟨spent_append steps _ ▸ hrestart _ _ (hcounts.cut hI n), fun x hx => ?_⟩
    rcases List.mem_append.mp hx with hx | hx
    · exact hall x hx
    · exact hcounts.trace x (List.mem_of_mem_take hx)

end Trails

end Shea.Computation
