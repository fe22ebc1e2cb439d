import Shea.Computation.Program

/-!
# Runs in which steps are refused

A step of a program may be refused: then the state stays as it is and the program goes on with the
step's `fail` branch, which raises the exception, through whatever handlers stand around the step.
Which steps can be refused at all depends on what the step would do; when one is refused is decided
by a schedule `faults`, which names the exception.

* `faulty` is the run under a schedule, `faultyAt` the state it has reached after some steps.
* `Endures` is `Sat` for such runs: every step that is taken lies in a relation, and every outcome
  satisfies a postcondition, whatever is refused.
* A `Strict` program never returns after a refusal: when it returns, the run was undisturbed.
-/

set_option autoImplicit false

namespace Shea.Computation

namespace Program

variable {σ ε α β : Type}

/-- The run under a schedule of refusals; `i` counts the steps. -/
def faulty (may : σ → σ → Bool) (faults : ℕ → Option ε) : ℕ → Program σ ε α → σ → Except ε α × σ
  | _, done value, s => (.ok value, s)
  | _, raise error, s => (.error error, s)
  | i, step update next fail, s =>
    match faults i, may s (update s) with
    | some e, true => faulty may faults (i + 1) (fail e) s
    | _, _ => faulty may faults (i + 1) (next s) (update s)

/-- Where that run is after `n` steps. -/
def faultyAt (may : σ → σ → Bool) (faults : ℕ → Option ε) : ℕ → ℕ → Program σ ε α → σ → σ
  | 0, _, _, s => s
  | _ + 1, _, done _, s => s
  | _ + 1, _, raise _, s => s
  | n + 1, i, step update next fail, s =>
    match faults i, may s (update s) with
    | some e, true => faultyAt may faults n (i + 1) (fail e) s
    | _, _ => faultyAt may faults n (i + 1) (next s) (update s)

/-- With nothing refused it is the undisturbed run. -/
theorem faulty_none (may : σ → σ → Bool) (i : ℕ) (p : Program σ ε α) (s : σ) :
    p.faulty may (fun _ => none) i s = p.run s := by
  induction p generalizing i s with
  | done value => rfl
  | raise error => rfl
  | step update next fail hn _ => exact hn s (i + 1) (update s)

/-- A sequence goes on where its first half returned. -/
theorem faulty_bind (may : σ → σ → Bool) (faults : ℕ → Option ε) (i : ℕ) (p : Program σ ε α)
    (f : α → Program σ ε β) (s : σ) :
    ∃ j, (p >>= f).faulty may faults i s = match p.faulty may faults i s with
      | (.ok a, t) => (f a).faulty may faults j t
      | (.error e, t) => (.error e, t) := by
  rw [bind_eq]
  induction p generalizing i s with
  | done value => exact ⟨i, rfl⟩
  | raise error => exact ⟨i, rfl⟩
  | step update next fail hn hf =>
    simp only [bind, faulty]
    split
    · exact hf _ (i + 1) s
    · exact hn s (i + 1) (update s)

/-! ## What every such run satisfies -/

/-- Started in `s`, every step the program takes lies in `R` and its outcome satisfies `Q`, whatever
is refused. -/
def Endures (may : σ → σ → Bool) (R : σ → σ → Prop) (Q : Except ε α → σ → Prop) :
    Program σ ε α → σ → Prop
  | done value, s => Q (.ok value) s
  | raise error, s => Q (.error error) s
  | step update next fail, s =>
      (R s (update s) ∧ (next s).Endures may R Q (update s)) ∧
        (may s (update s) = true → ∀ e, (fail e).Endures may R Q s)

variable {may : σ → σ → Bool} {R : σ → σ → Prop} {Q : Except ε α → σ → Prop} {s : σ}

/-- A value that is returned. -/
@[simp] theorem endures_pure (value : α) :
    (pure value : Program σ ε α).Endures may R Q s ↔ Q (.ok value) s := Iff.rfl

/-- An error that is raised. -/
@[simp] theorem endures_throw (error : ε) :
    (throw error : Program σ ε α).Endures may R Q s ↔ Q (.error error) s := Iff.rfl

/-- A result that is passed on. -/
@[simp] theorem endures_ofExcept (x : Except ε α) :
    (ofExcept x : Program σ ε α).Endures may R Q s ↔ Q x s := by
  cases x <;> rfl

/-- A step that raises when it is refused. -/
theorem endures_act {view : σ → α} {update : σ → σ} (hR : R s (update s))
    (hQ : Q (.ok (view s)) (update s)) (hrefused : ∀ e, Q (.error e) s) :
    (act view update : Program σ ε α).Endures may R Q s :=
  ⟨⟨hR, hQ⟩, fun _ e => hrefused e⟩

/-- The same for a step that returns nothing. -/
theorem endures_modify {Q : Except ε Unit → σ → Prop} {update : σ → σ} (hR : R s (update s))
    (hQ : Q (.ok ()) (update s)) (hrefused : ∀ e, Q (.error e) s) :
    (modify update : Program σ ε Unit).Endures may R Q s :=
  ⟨⟨hR, hQ⟩, fun _ e => hrefused e⟩

/-- The postcondition of the first half of a sequence. -/
def EThen (may : σ → σ → Bool) (R : σ → σ → Prop) (f : α → Program σ ε β)
    (Q : Except ε β → σ → Prop) : Except ε α → σ → Prop
  | .ok a, t => (f a).Endures may R Q t
  | .error e, t => Q (.error e) t

/-- INTERNAL: what follows a value. -/
@[simp] theorem eThen_ok (f : α → Program σ ε β) (Q : Except ε β → σ → Prop) (a : α) (t : σ) :
    EThen may R f Q (.ok a) t ↔ (f a).Endures may R Q t := Iff.rfl

/-- INTERNAL: nothing follows an error. -/
@[simp] theorem eThen_error (f : α → Program σ ε β) (Q : Except ε β → σ → Prop) (e : ε) (t : σ) :
    EThen may R f Q (.error e) t ↔ Q (.error e) t := Iff.rfl

/-- The rule for one program after the other. -/
theorem endures_bind (p : Program σ ε α) (f : α → Program σ ε β) {Q : Except ε β → σ → Prop} :
    (p >>= f).Endures may R Q s ↔ p.Endures may R (EThen may R f Q) s := by
  rw [bind_eq]
  induction p generalizing s with
  | done value => rfl
  | raise error => rfl
  | step update next fail hn hf =>
    exact and_congr (and_congr_right fun _ => hn s)
      (forall_congr' fun _ => forall_congr' fun e => hf e)

/-- The rule for a program whose errors are results. -/
theorem endures_attempt (p : Program σ ε α) {Q : Except ε (Except ε α) → σ → Prop} :
    p.attempt.Endures may R Q s ↔ p.Endures may R (fun r t => Q (.ok r) t) s := by
  induction p generalizing s with
  | done value => rfl
  | raise error => rfl
  | step update next fail hn hf =>
    exact and_congr (and_congr_right fun _ => hn s)
      (forall_congr' fun _ => forall_congr' fun e => hf e)

/-- A larger relation and a weaker postcondition. -/
theorem Endures.mono {R' : σ → σ → Prop} {Q' : Except ε α → σ → Prop} {p : Program σ ε α}
    (h : p.Endures may R Q s) (hR : ∀ a b, R a b → R' a b) (hQ : ∀ r t, Q r t → Q' r t) :
    p.Endures may R' Q' s := by
  induction p generalizing s with
  | done value => exact hQ _ _ h
  | raise error => exact hQ _ _ h
  | step update next fail hn hf =>
    exact ⟨⟨hR _ _ h.1.1, hn s h.1.2⟩, fun hmay e => hf e (h.2 hmay e)⟩

/-- A weaker postcondition. -/
theorem Endures.post {Q' : Except ε α → σ → Prop} {p : Program σ ε α}
    (h : p.Endures may R Q s) (hQ : ∀ r t, Q r t → Q' r t) : p.Endures may R Q' s :=
  h.mono (fun _ _ hr => hr) hQ

/-- An invariant of the steps holds where the program ends. -/
theorem Endures.keep {I : σ → Prop} {p : Program σ ε α} (h : p.Endures may R Q s)
    (hI : ∀ a b, R a b → I a → I b) (hs : I s) :
    p.Endures may R (fun r t => Q r t ∧ I t) s := by
  induction p generalizing s with
  | done value => exact ⟨h, hs⟩
  | raise error => exact ⟨h, hs⟩
  | step update next fail hn hf =>
    exact ⟨⟨h.1.1, hn s h.1.2 (hI _ _ h.1.1 hs)⟩, fun hmay e => hf e (h.2 hmay e) hs⟩

/-- An undisturbed run is one of these runs. -/
theorem Endures.sat {p : Program σ ε α} (h : p.Endures may R Q s) : p.Sat R Q s := by
  induction p generalizing s with
  | done value => exact h
  | raise error => exact h
  | step update next fail hn _ => exact ⟨h.1.1, hn s h.1.2⟩

/-- The postcondition holds under every schedule. -/
theorem Endures.faulty {p : Program σ ε α} (h : p.Endures may R Q s) (faults : ℕ → Option ε)
    (i : ℕ) : Q (p.faulty may faults i s).1 (p.faulty may faults i s).2 := by
  induction p generalizing i s with
  | done value => exact h
  | raise error => exact h
  | step update next fail hn hf =>
    unfold Program.faulty
    split
    · next hmay => exact hf _ (h.2 hmay _) _
    · exact hn s h.1.2 _

open Relation in
/-- Wherever such a run is, it got there by a chain of `R`. -/
theorem Endures.faultyAt {p : Program σ ε α} (h : p.Endures may R Q s) (faults : ℕ → Option ε)
    (n i : ℕ) : ReflTransGen R s (p.faultyAt may faults n i s) := by
  induction n generalizing p i s with
  | zero => exact .refl
  | succ n ih =>
    cases p with
    | done value => exact .refl
    | raise error => exact .refl
    | step update next fail =>
      unfold Program.faultyAt
      split
      · next hmay => exact ih (h.2 hmay _) _
      · exact .head h.1.1 (ih h.1.2 _)

/-! ## Programs that do not return after a refusal -/

/-- Whatever happens, the program raises. -/
def Hopeless : Program σ ε α → Prop
  | done _ => False
  | raise _ => True
  | step _ next fail => (∀ s, (next s).Hopeless) ∧ ∀ e, (fail e).Hopeless

/-- A refusal is never forgiven. -/
def Strict : Program σ ε α → Prop
  | done _ => True
  | raise _ => True
  | step _ next fail => (∀ s, (next s).Strict) ∧ ∀ e, (fail e).Hopeless

/-- INTERNAL: whatever would follow, the program raises. -/
theorem hopeless_bind {p : Program σ ε α} (f : α → Program σ ε β) (hp : p.Hopeless) :
    (p >>= f).Hopeless := by
  rw [bind_eq]
  induction p with
  | done value => exact hp.elim
  | raise error => trivial
  | step update next fail hn hf => exact ⟨fun s => hn s (hp.1 s), fun e => hf e (hp.2 e)⟩

/-- INTERNAL: where nothing is refused, nothing is forgiven: a value that is returned. -/
@[simp] theorem strict_pure (value : α) : (pure value : Program σ ε α).Strict := trivial

/-- INTERNAL: an error that is raised. -/
@[simp] theorem strict_throw (error : ε) : (throw error : Program σ ε α).Strict := trivial

/-- INTERNAL: a refused look at the state raises. -/
theorem strict_get (view : σ → α) : (get view : Program σ ε α).Strict :=
  ⟨fun _ => trivial, fun _ => trivial⟩

/-- INTERNAL: so does a refused update. -/
theorem strict_modify (update : σ → σ) : (modify update : Program σ ε Unit).Strict :=
  ⟨fun _ => trivial, fun _ => trivial⟩

/-- INTERNAL: and both in one step. -/
theorem strict_act (view : σ → α) (update : σ → σ) : (act view update : Program σ ε α).Strict :=
  ⟨fun _ => trivial, fun _ => trivial⟩

/-- One program after the other, neither of which forgives a refusal. -/
theorem strict_bind {p : Program σ ε α} {f : α → Program σ ε β} (hp : p.Strict)
    (hf : ∀ a, (f a).Strict) : (p >>= f).Strict := by
  rw [bind_eq]
  induction p with
  | done value => exact hf value
  | raise error => trivial
  | step update next fail hn _ =>
    exact ⟨fun s => hn s (hp.1 s), fun e => hopeless_bind f (hp.2 e)⟩

/-- INTERNAL: it does so through a handler that raises too. -/
theorem hopeless_tryCatch {p : Program σ ε α} {h : ε → Program σ ε α} (hp : p.Hopeless)
    (hh : ∀ e, (h e).Hopeless) : (tryCatch p h).Hopeless := by
  show (p.handle h).Hopeless
  induction p with
  | done value => exact hp.elim
  | raise error => exact hh error
  | step update next fail hn hf => exact ⟨fun s => hn s (hp.1 s), fun e => hf e (hp.2 e)⟩

/-- A handler that raises again. -/
theorem strict_tryCatch {p : Program σ ε α} {h : ε → Program σ ε α} (hp : p.Strict)
    (hh : ∀ e, (h e).Hopeless) (hh' : ∀ e, (h e).Strict) : (tryCatch p h).Strict := by
  show (p.handle h).Strict
  induction p with
  | done value => trivial
  | raise error => exact hh' error
  | step update next fail hn _ =>
    exact ⟨fun s => hn s (hp.1 s), fun e => hopeless_tryCatch (hp.2 e) hh⟩

/-- An outcome is looked at and the exception raised again. -/
theorem strict_attempt_bind {p : Program σ ε α} {f : Except ε α → Program σ ε β} (hp : p.Strict)
    (hok : ∀ a, (f (.ok a)).Strict) (herror : ∀ e, (f (.error e)).Hopeless)
    (herror' : ∀ e, (f (.error e)).Strict) : (p.attempt >>= f).Strict := by
  have hhopeless : ∀ q : Program σ ε α, q.Hopeless → (q.attempt >>= f).Hopeless := by
    intro q hq
    rw [bind_eq]
    induction q with
    | done value => exact hq.elim
    | raise error => exact herror error
    | step update next fail hn hf => exact ⟨fun s => hn s (hq.1 s), fun e => hf e (hq.2 e)⟩
  rw [bind_eq]
  induction p with
  | done value => exact hok value
  | raise error => exact herror' error
  | step update next fail hn _ =>
    exact ⟨fun s => hn s (hp.1 s), fun e => hhopeless (fail e) (hp.2 e)⟩

/-- A hopeless program ends with an exception under every schedule. -/
theorem Hopeless.faulty {p : Program σ ε α} (h : p.Hopeless) (faults : ℕ → Option ε) (i : ℕ)
    (s : σ) (value : α) : (p.faulty may faults i s).1 ≠ .ok value := by
  induction p generalizing i s with
  | done value' => exact h.elim
  | raise error => exact fun hr => by cases hr
  | step update next fail hn hf =>
    unfold Program.faulty
    split
    · exact hf _ (h.2 _) _ _
    · exact hn s (h.1 s) _ _

/-- When a strict program returns, nothing was refused. -/
theorem Strict.faulty_ok {p : Program σ ε α} (h : p.Strict) {faults : ℕ → Option ε} {i : ℕ} {s : σ}
    {value : α} (hok : (p.faulty may faults i s).1 = .ok value) :
    p.faulty may faults i s = p.run s := by
  induction p generalizing i s with
  | done value' => rfl
  | raise error => rfl
  | step update next fail hn hf =>
    unfold Program.faulty at hok ⊢
    split at hok
    · exact absurd hok ((h.2 _).faulty faults _ _ _)
    · exact hn s (h.1 s) hok

/-- A hopeless program raises. -/
theorem Hopeless.run {p : Program σ ε α} (h : p.Hopeless) (s : σ) : ∃ e t, p.run s = (.error e, t) := by
  induction p generalizing s with
  | done value => exact h.elim
  | raise error => exact ⟨error, s, rfl⟩
  | step update next fail hn _ => exact hn s (h.1 s) (update s)

/-! ## A single refusal -/

/-- The schedule that refuses one step. -/
def only (n : ℕ) (e : ε) : ℕ → Option ε := fun i => if i = n then some e else none

/-- Wherever a step is refused, what the program does about it leaves the view as it was. -/
def Backs {γ : Type} (may : σ → σ → Bool) (view : σ → γ) : Program σ ε α → σ → Prop
  | done _, _ => True
  | raise _, _ => True
  | step update next fail, s =>
      (may s (update s) = true → ∀ e, view ((fail e).run s).2 = view s) ∧
        (next s).Backs may view (update s)

section Backs

variable {γ : Type} {view : σ → γ}

/-- INTERNAL: a single step that is refused has done nothing. -/
theorem backs_act {look : σ → α} {update : σ → σ} :
    (act look update : Program σ ε α).Backs may view s := ⟨fun _ _ => rfl, trivial⟩

/-- INTERNAL: an update that is refused neither. -/
theorem backs_modify {update : σ → σ} : (modify update : Program σ ε Unit).Backs may view s :=
  ⟨fun _ _ => rfl, trivial⟩

/-- INTERNAL: nor a look at the state. -/
theorem backs_get {look : σ → α} : (get look : Program σ ε α).Backs may view s :=
  ⟨fun _ _ => rfl, trivial⟩

/-- One program after the other, the first of which forgives no refusal. -/
theorem backs_bind {p : Program σ ε α} {f : α → Program σ ε β} (hstrict : p.Strict)
    (hp : p.Backs may view s) (hf : ∀ a t, p.run s = (.ok a, t) → (f a).Backs may view t) :
    (p >>= f).Backs may view s := by
  rw [bind_eq]
  induction p generalizing s with
  | done value => exact hf value s rfl
  | raise error => trivial
  | step update next fail hn _ =>
    refine ⟨fun hmay e => ?_, hn s (hstrict.1 s) hp.2 hf⟩
    have hraised := (hstrict.2 e).run s
    obtain ⟨e', t, hrun⟩ := hraised
    have hsame := hp.1 hmay e
    rw [hrun] at hsame
    have hbind : ((fail e).bind f).run s = (.error e', t) := by
      rw [← bind_eq, run_bind, hrun]
    rw [hbind]
    exact hsame

/-- An outcome is looked at and the exception raised again. -/
theorem backs_attempt_bind {p : Program σ ε α} {f : Except ε α → Program σ ε β}
    (hstrict : p.Strict) (hp : p.Endures may (fun a b => view b = view a) Q s)
    (hreraise : ∀ e t, view ((f (.error e)).run t).2 = view t)
    (hf : ∀ r t, p.run s = (r, t) → (f r).Backs may view t) :
    (p.attempt >>= f).Backs may view s := by
  rw [bind_eq]
  induction p generalizing s with
  | done value => exact hf _ s rfl
  | raise error => exact hf _ s rfl
  | step update next fail hn _ =>
    refine ⟨fun hmay e => ?_, hn s (hstrict.1 s) hp.1.2 hf⟩
    obtain ⟨e', t, hrun⟩ := (hstrict.2 e).run s
    have hsame : view t = view s := by
      have h := ((hp.2 hmay e).keep (I := fun t => view t = view s)
        (fun a b hab ha => hab.trans ha) rfl).sat.run
      rw [hrun] at h
      exact h.2
    have hbind : ((fail e).attempt.bind f).run s = (f (.error e')).run t := by
      rw [← bind_eq, run_bind, run_attempt, hrun]
    rw [hbind]
    exact (hreraise e' t).trans hsame

/-- A handler that leaves the view alone. -/
theorem backs_tryCatch {p : Program σ ε α} {h : ε → Program σ ε α} {s : σ}
    (hp : p.Backs may view s) (hrun : ∀ e t, view ((h e).run t).2 = view t)
    (hh : ∀ e t, (h e).Backs may view t) : (tryCatch p h).Backs may view s := by
  show (p.handle h).Backs may view s
  induction p generalizing s with
  | done value => trivial
  | raise error => exact hh error s
  | step update next fail hn _ =>
    refine ⟨fun hmay e => ?_, hn s hp.2⟩
    have hsame := hp.1 hmay e
    rw [run_handle]
    rcases hfail : (fail e).run s with ⟨r, t⟩
    rw [hfail] at hsame
    cases r with
    | ok value => exact hsame
    | error e' => exact (hrun e' t).trans hsame

/-- INTERNAL: a refusal that lies in the past disturbs nothing. -/
theorem faulty_only_of_lt (p : Program σ ε α) {n i : ℕ} (h : n < i) (e : ε) (s : σ) :
    p.faulty may (only n e) i s = p.run s := by
  induction p generalizing i s with
  | done value => rfl
  | raise error => rfl
  | step update next fail hn _ =>
    have hother : only n e i = none := if_neg (Nat.ne_of_gt h)
    simp only [faulty, hother]
    exact hn s (Nat.lt_succ_of_lt h) (update s)

/-- A step that is refused leaves the view where a crash before it would leave it. -/
theorem Backs.faulty_only {p : Program σ ε α} {n i : ℕ} (e : ε) (h : p.Backs may view s)
    (hn : n < p.steps s) (hmay : may (p.cut n s) (p.cut (n + 1) s) = true) :
    view (p.faulty may (only (i + n) e) i s).2 = view (p.cut n s) := by
  induction n generalizing p i s with
  | zero =>
    cases p with
    | done value => exact absurd hn (Nat.not_lt_zero _)
    | raise error => exact absurd hn (Nat.not_lt_zero _)
    | step update next fail =>
      have hhere : only (i + 0) e i = some e := if_pos rfl
      have hmay' : may s (update s) = true := by simpa [cut] using hmay
      simp only [faulty, hhere, hmay']
      have hrest : (fail e).faulty may (only (i + 0) e) (i + 1) s = (fail e).run s :=
        faulty_only_of_lt (fail e) (Nat.lt_succ_self i) e s
      rw [hrest]
      exact h.1 hmay' e
  | succ n ih =>
    cases p with
    | done value => exact absurd hn (Nat.not_lt_zero _)
    | raise error => exact absurd hn (Nat.not_lt_zero _)
    | step update next fail =>
      have hother : only (i + (n + 1)) e i = none := if_neg (by omega)
      have hshift : i + (n + 1) = i + 1 + n := by omega
      simp only [faulty, hother]
      rw [hshift]
      exact ih h.2 (Nat.lt_of_succ_lt_succ hn) hmay

/-- A refusal of a step that cannot be refused, or of one the program does not take. -/
theorem faulty_only_of_not {p : Program σ ε α} {n i : ℕ} (e : ε)
    (h : n < p.steps s → may (p.cut n s) (p.cut (n + 1) s) = false) :
    p.faulty may (only (i + n) e) i s = p.run s := by
  induction n generalizing p i s with
  | zero =>
    cases p with
    | done value => rfl
    | raise error => rfl
    | step update next fail =>
      have hmay : may s (update s) = false := by simpa [cut] using h (Nat.succ_pos _)
      have hhere : only (i + 0) e i = some e := if_pos rfl
      simp only [faulty, hhere, hmay]
      exact faulty_only_of_lt (next s) (Nat.lt_succ_self i) e (update s)
  | succ n ih =>
    cases p with
    | done value => rfl
    | raise error => rfl
    | step update next fail =>
      have hother : only (i + (n + 1)) e i = none := if_neg (by omega)
      have hshift : i + (n + 1) = i + 1 + n := by omega
      simp only [faulty, hother]
      rw [hshift]
      exact ih fun hn => h (Nat.succ_lt_succ hn)

end Backs

end Program

end Shea.Computation
