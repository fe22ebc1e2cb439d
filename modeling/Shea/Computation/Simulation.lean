import Shea.Computation.Program

/-!
# Programs in lockstep

Two programs over different states go in lockstep when they take their steps together: each pair of steps
keeps a relation between the two states, and the outcomes are the same. The relation is chosen once for a
refinement; sequencing and exception handlers keep the lockstep, so that it is shown step by step for the
operations of an interface and holds for every program made of them. What the programs return may be known
to be good, and what comes next has to go in lockstep only after good values.

Programs in lockstep return the same and raise the same, and stopped after equally many steps they leave
related states behind.
-/

set_option autoImplicit false

namespace Shea.Computation

namespace Program

variable {σ τ ε α β : Type} {ρ : σ → τ → Prop} {good : α → Prop} {good' : β → Prop}

/-- The two programs take their steps together, from the two states on. -/
def Together (ρ : σ → τ → Prop) (good : α → Prop) : Program σ ε α → Program τ ε α → σ → τ → Prop
  | done a, done b, _, _ => a = b ∧ good a
  | raise e, raise f, _, _ => e = f
  | step update next _, step update' next' _, s, t =>
      ρ (update s) (update' t) ∧ Together ρ good (next s) (next' t) (update s) (update' t)
  | _, _, _, _ => False

/-- From related states on, the two programs take their steps together. -/
def Lockstep (ρ : σ → τ → Prop) (good : α → Prop) (p : Program σ ε α) (q : Program τ ε α) : Prop :=
  ∀ s t, ρ s t → Together ρ good p q s t

/-- A value is good if there is one. -/
def IfOk (good : α → Prop) (outcome : Except ε α) : Prop := ∀ a, outcome = .ok a → good a

/-- Two runs together, then two programs in lockstep. -/
theorem together_bind {p : Program σ ε α} {q : Program τ ε α} {f : α → Program σ ε β}
    {g : α → Program τ ε β} {s : σ} {t : τ} (hst : ρ s t) (h : Together ρ good p q s t)
    (hnext : ∀ a, good a → Lockstep ρ good' (f a) (g a)) : Together ρ good' (p >>= f) (q >>= g) s t := by
  induction p generalizing q s t with
  | done a =>
    cases q with
    | done b =>
      obtain ⟨rfl, ha⟩ : a = b ∧ good a := h
      exact hnext a ha s t hst
    | raise e => cases h
    | step update next fail => cases h
  | raise e =>
    cases q with
    | done b => cases h
    | raise f => exact h
    | step update next fail => cases h
  | step update next fail ih =>
    cases q with
    | done b => cases h
    | raise f => cases h
    | step update' next' fail' => exact ⟨h.1, ih s h.1 h.2⟩

/-- Errors turned into results, on both sides. -/
theorem together_attempt {p : Program σ ε α} {q : Program τ ε α} {s : σ} {t : τ}
    (h : Together ρ good p q s t) : Together ρ (IfOk good) p.attempt q.attempt s t := by
  induction p generalizing q s t with
  | done a =>
    cases q with
    | done b => exact ⟨congrArg Except.ok h.1, fun _ hok => Except.ok.inj hok ▸ h.2⟩
    | raise e => cases h
    | step update next fail => cases h
  | raise e =>
    cases q with
    | done b => cases h
    | raise f => exact ⟨congrArg Except.error h, fun _ hok => by cases hok⟩
    | step update next fail => cases h
  | step update next fail ih =>
    cases q with
    | done b => cases h
    | raise f => cases h
    | step update' next' fail' => exact ⟨h.1, ih s h.2⟩

/-- A weaker condition on the results. -/
theorem Together.mono {weak : α → Prop} {p : Program σ ε α} {q : Program τ ε α} {s : σ} {t : τ}
    (h : Together ρ good p q s t) (hweak : ∀ a, good a → weak a) : Together ρ weak p q s t := by
  induction p generalizing q s t with
  | done a =>
    cases q with
    | done b => exact ⟨h.1, hweak a h.2⟩
    | raise e => cases h
    | step update next fail => cases h
  | raise e =>
    cases q with
    | done b => cases h
    | raise f => exact h
    | step update next fail => cases h
  | step update next fail ih =>
    cases q with
    | done b => cases h
    | raise f => cases h
    | step update' next' fail' => exact ⟨h.1, ih s h.2⟩

/-! ## The rules -/

/-- A value that is returned. -/
theorem lockstep_pure {a : α} (ha : good a) : Lockstep ρ good (pure a : Program σ ε α) (pure a) :=
  fun _ _ _ => ⟨rfl, ha⟩

/-- An error that is raised. -/
theorem lockstep_throw (e : ε) : Lockstep ρ good (throw e : Program σ ε α) (throw e) := fun _ _ _ => rfl

/-- One program after another. -/
theorem Lockstep.bind {p : Program σ ε α} {q : Program τ ε α} {f : α → Program σ ε β}
    {g : α → Program τ ε β} (h : Lockstep ρ good p q)
    (hnext : ∀ a, good a → Lockstep ρ good' (f a) (g a)) : Lockstep ρ good' (p >>= f) (q >>= g) :=
  fun s t hst => together_bind hst (h s t hst) hnext

/-- Two statements, one after the other. -/
theorem Lockstep.andThen {p : Program σ ε Unit} {q : Program τ ε Unit} {p' : Program σ ε β}
    {q' : Program τ ε β} (h : Lockstep ρ (fun _ => True) p q) (hnext : Lockstep ρ good' p' q') :
    Lockstep ρ good' (p >>= fun _ => p') (q >>= fun _ => q') := h.bind fun _ _ => hnext

/-- Errors turned into results. -/
theorem Lockstep.attempt {p : Program σ ε α} {q : Program τ ε α} (h : Lockstep ρ good p q) :
    Lockstep ρ (IfOk good) p.attempt q.attempt := fun s t hst => together_attempt (h s t hst)

/-- A weaker condition on the results. -/
theorem Lockstep.mono {weak : α → Prop} {p : Program σ ε α} {q : Program τ ε α} (h : Lockstep ρ good p q)
    (hweak : ∀ a, good a → weak a) : Lockstep ρ weak p q := fun s t hst => (h s t hst).mono hweak

/-- A step that writes both states. -/
theorem lockstep_modify {update : σ → σ} {update' : τ → τ} (h : ∀ s t, ρ s t → ρ (update s) (update' t)) :
    Lockstep ρ (fun _ => True) (modify update : Program σ ε Unit) (modify update') :=
  fun s t hst => ⟨h s t hst, rfl, trivial⟩

/-- A step that reads off both states and writes them. -/
theorem lockstep_act {view : σ → α} {update : σ → σ} {view' : τ → α} {update' : τ → τ}
    (hview : ∀ s t, ρ s t → view s = view' t ∧ good (view s))
    (hupdate : ∀ s t, ρ s t → ρ (update s) (update' t)) :
    Lockstep ρ good (act view update : Program σ ε α) (act view' update') :=
  fun s t hst => ⟨hupdate s t hst, hview s t hst⟩

/-- What one program reads and makes something of, the other reads at once. -/
theorem lockstep_get_bind {view : σ → β} {make : β → Program σ ε α} {view' : τ → α}
    (h : ∀ s t, ρ s t → make (view s) = pure (view' t) ∧ good (view' t)) :
    Lockstep ρ good (get view >>= make : Program σ ε α) (get view') := by
  intro s t hst
  obtain ⟨hmake, hgood⟩ := h s t hst
  refine ⟨hst, ?_⟩
  change Together ρ good (make (view s)) (done (view' t)) s t
  rw [hmake]
  exact ⟨rfl, hgood⟩

/-! ## What lockstep is good for -/

/-- Whole runs give the same result, and related states. -/
theorem Together.run {p : Program σ ε α} {q : Program τ ε α} {s : σ} {t : τ} (hst : ρ s t)
    (h : Together ρ good p q s t) : (p.run s).1 = (q.run t).1 ∧ ρ (p.run s).2 (q.run t).2 := by
  induction p generalizing q s t with
  | done a =>
    cases q with
    | done b => exact ⟨congrArg Except.ok h.1, hst⟩
    | raise e => cases h
    | step update next fail => cases h
  | raise e =>
    cases q with
    | done b => cases h
    | raise f => exact ⟨congrArg Except.error h, hst⟩
    | step update next fail => cases h
  | step update next fail ih =>
    cases q with
    | done b => cases h
    | raise f => cases h
    | step update' next' fail' =>
      have hrest := ih s h.1 h.2
      exact hrest

/-- Runs that are cut off leave related states. -/
theorem Together.cut {p : Program σ ε α} {q : Program τ ε α} {s : σ} {t : τ} (hst : ρ s t)
    (h : Together ρ good p q s t) (n : ℕ) : ρ (p.cut n s) (q.cut n t) := by
  induction n generalizing p q s t with
  | zero => exact hst
  | succ n ih =>
    cases p with
    | done a =>
      cases q with
      | done b => exact hst
      | raise e => cases h
      | step update next fail => cases h
    | raise e =>
      cases q with
      | done b => cases h
      | raise f => exact hst
      | step update next fail => cases h
    | step update next fail =>
      cases q with
      | done b => cases h
      | raise f => cases h
      | step update' next' fail' => exact ih h.1 h.2

/-- Programs in lockstep have the same outcome. -/
theorem Lockstep.run {p : Program σ ε α} {q : Program τ ε α} (h : Lockstep ρ good p q) {s : σ} {t : τ}
    (hst : ρ s t) : (p.run s).1 = (q.run t).1 ∧ ρ (p.run s).2 (q.run t).2 := (h s t hst).run hst

/-- Wherever they are stopped, they leave related states behind. -/
theorem Lockstep.cut {p : Program σ ε α} {q : Program τ ε α} (h : Lockstep ρ good p q) {s : σ} {t : τ}
    (hst : ρ s t) (n : ℕ) : ρ (p.cut n s) (q.cut n t) := (h s t hst).cut hst n

end Program

end Shea.Computation
