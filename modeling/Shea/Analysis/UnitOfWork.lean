import Shea.Computation.History
import Shea.Model.Repositories

/-!
# Transactions

What the nesting unit of work guarantees about a block that starts with no transaction open: until
its last step nothing becomes durable, and the last step makes all of its writes durable or none.

* `Quiet` is a step that leaves the committed rows alone and logs at most published events.
* `Inner` programs take only quiet steps while a transaction is open, and close what they open.
* `sat_withUow` is the rule for a whole block: its body is run once, as a function of the state.
-/

set_option autoImplicit false

namespace Shea.Analysis

open Shea.Computation Shea.Model

/-! ## Steps -/

/-- A step that makes nothing durable. -/
structure Quiet (w w' : World) : Prop where
  committed : w'.committed = w.committed
  nextId : w.nextId ≤ w'.nextId
  log : ∃ events : List Event, w'.log = w.log ++ events.map .published

namespace Quiet

/-- INTERNAL: a step that changes nothing is quiet. -/
theorem refl (w : World) : Quiet w w := ⟨rfl, le_rfl, [], by simp⟩

/-- INTERNAL: quiet steps compose. -/
theorem trans {a b c : World} (h : Quiet a b) (h' : Quiet b c) : Quiet a c := by
  obtain ⟨events, he⟩ := h.log
  obtain ⟨events', he'⟩ := h'.log
  refine ⟨h'.committed.trans h.committed, h.nextId.trans h'.nextId, events ++ events', ?_⟩
  rw [he', he, List.map_append, List.append_assoc]

end Quiet

/-- A quiet step inside an open transaction. -/
structure Enclosed (w w' : World) : Prop extends Quiet w w' where
  depth : 0 < w'.depth

/-- INTERNAL: a chain of enclosed steps is quiet. -/
theorem quiet_of_chain {a b : World} (h : Relation.ReflTransGen Enclosed a b) : Quiet a b := by
  induction h with
  | refl => exact .refl a
  | tail _ hs ih => exact ih.trans hs.toQuiet

/-- INTERNAL: reading the clock is quiet. -/
theorem quiet_tick (w : World) : Quiet w { w with ticks := w.ticks + 1 } :=
  ⟨rfl, le_rfl, [], by simp⟩

/-- INTERNAL: drawing an identifier is quiet. -/
theorem quiet_newId (w : World) : Quiet w { w with nextId := w.nextId + 1 } :=
  ⟨rfl, Nat.le_succ _, [], by simp⟩

section Steps

variable {R : World → World → Prop} {w : World}

/-- INTERNAL: one clock reading. -/
@[simp] theorem sat_now {Q : Except Err Time → World → Prop} (host : Host) :
    (now host).Sat R Q w ↔ R w { w with ticks := w.ticks + 1 } ∧
      Q (.ok (host.clock w.ticks)) { w with ticks := w.ticks + 1 } := Iff.rfl

/-- INTERNAL: one new identifier. -/
@[simp] theorem sat_newId {Q : Except Err String → World → Prop} (host : Host) :
    (newId host).Sat R Q w ↔ R w { w with nextId := w.nextId + 1 } ∧
      Q (.ok (host.newId w.nextId)) { w with nextId := w.nextId + 1 } := Iff.rfl

/-- INTERNAL: one look at the machine. -/
@[simp] theorem sat_probe {Q : Except Err Probes → World → Prop} (host : Host) :
    (probe host).Sat R Q w ↔ R w w ∧ Q (.ok (host.probes w.ticks)) w := Iff.rfl

/-- INTERNAL: one query. -/
@[simp] theorem sat_query {α : Type} {Q : Except Err α → World → Prop} (view : Tables → α) :
    (query view).Sat R Q w ↔ R w w ∧ Q (.ok (view w.working)) w := Iff.rfl

/-- INTERNAL: one entry of the log. -/
@[simp] theorem sat_note {Q : Except Err Unit → World → Prop} (effect : Effect) :
    (note effect).Sat R Q w ↔ R w { w with log := w.log ++ [effect] } ∧
      Q (.ok ()) { w with log := w.log ++ [effect] } := Iff.rfl

/-- INTERNAL: the runs of the same single steps. -/
@[simp] theorem run_now (host : Host) :
    (now host).run w = (.ok (host.clock w.ticks), { w with ticks := w.ticks + 1 }) := rfl

/-- INTERNAL: a query reads the tables of the open block. -/
@[simp] theorem run_query {α : Type} (view : Tables → α) :
    (query view).run w = (.ok (view w.working), w) := rfl

end Steps

/-! ## Programs that run inside a transaction -/

/-- Run inside a transaction, the program takes enclosed steps only and leaves the nesting depth as
it found it. -/
def Inner {α : Type} (p : Proc α) : Prop :=
  ∀ w : World, 0 < w.depth → p.Sat Enclosed (fun _ t => t.depth = w.depth) w

namespace Inner

variable {α β : Type}

/-- INTERNAL: returning is inner. -/
theorem pure (a : α) : Inner (Pure.pure a : Proc α) := fun _ _ => rfl

/-- INTERNAL: raising is inner. -/
theorem throw (e : Err) : Inner (MonadExcept.throw e : Proc α) := fun _ _ => rfl

/-- INTERNAL: a pure check is inner. -/
theorem ofExcept (x : Except Err α) : Inner (Program.ofExcept x : Proc α) := by
  intro w _
  cases x <;> rfl

/-- INTERNAL: sequencing keeps the depth in both halves. -/
theorem bind {p : Proc α} {f : α → Proc β} (hp : Inner p) (hf : ∀ a, Inner (f a)) :
    Inner (p >>= f) := by
  intro w hw
  rw [Program.sat_bind]
  refine (hp w hw).post fun r t ht => ?_
  cases r with
  | error e => exact ht
  | ok a =>
    refine (hf a t (ht ▸ hw)).post fun r' t' ht' => ?_
    exact ht'.trans ht

/-- INTERNAL: a handler starts at the depth its body stopped at. -/
theorem tryCatch {p : Proc α} {h : Err → Proc α} (hp : Inner p) (hh : ∀ e, Inner (h e)) :
    Inner (MonadExcept.tryCatch p h) := by
  intro w hw
  rw [show (MonadExcept.tryCatch p h : Proc α) = tryCatchThe Err p h from rfl]
  refine (Program.sat_tryCatch p h).mpr ((hp w hw).post fun r t ht => ?_)
  cases r with
  | ok a => exact ht
  | error e =>
    refine (hh e t (ht ▸ hw)).post fun r' t' ht' => ?_
    exact ht'.trans ht

/-- INTERNAL: reading is inner. -/
theorem get (view : World → α) : Inner (Program.get view : Proc α) :=
  fun w hw => ⟨⟨.refl w, hw⟩, rfl⟩

/-- INTERNAL: a write that keeps the committed rows, the log and the depth is inner. -/
theorem act {view : World → α} {update : World → World} (hq : ∀ w, Quiet w (update w))
    (hd : ∀ w, (update w).depth = w.depth) : Inner (Program.act view update : Proc α) :=
  fun w hw => ⟨⟨hq w, (hd w).symm ▸ hw⟩, hd w⟩

/-- INTERNAL: a nested block enters, runs and leaves; the outer transaction stays open.
SOURCE: persistence/sqlite/unit_of_work.py:32-49 -/
theorem withUow {body : Proc α} (hb : Inner body) : Inner (Model.withUow body) := by
  intro w hw
  have henter : Enclosed w w.enter := ⟨⟨rfl, le_rfl, [], by simp [World.enter]⟩, by simp [World.enter]⟩
  have hexit : ∀ (t : World) (b : Bool), t.depth = w.enter.depth →
      Enclosed t (t.exit b) ∧ (t.exit b).depth = w.depth := by
    intro t b ht
    have hd : t.depth - 1 = w.depth := by simp [ht, World.enter]
    have hx : t.exit b = { t with depth := t.depth - 1 } := by simp [World.exit, hd, hw]
    rw [hx]
    exact ⟨⟨⟨rfl, le_rfl, [], by simp⟩, hd ▸ hw⟩, hd⟩
  refine ⟨henter, ?_⟩
  change (body.attempt >>= _).Sat _ _ _
  rw [Program.sat_bind, Program.sat_attempt]
  refine (hb w.enter henter.depth).post fun r t ht => ?_
  cases r with
  | ok a => exact hexit t true ht
  | error e => exact hexit t false ht

/-- INTERNAL: a query is inner. -/
theorem query (view : Tables → α) : Inner (Model.query view) := Inner.get _

/-- INTERNAL: a statement writes the open transaction only. -/
theorem execute (statement : Tables → Tables) : Inner (Model.execute statement) :=
  fun _ hw => ⟨⟨⟨rfl, le_rfl, [], by simp⟩, hw⟩, rfl⟩

/-- INTERNAL: so does a statement under a constraint. -/
theorem executeChecked (holds : Tables → Bool) (message : String) (statement : Tables → Tables) :
    Inner (Model.executeChecked holds message statement) := by
  refine Inner.bind (Inner.act (fun w => ?_) fun w => ?_) fun b => ?_
  · split
    · exact ⟨rfl, le_rfl, [], by simp⟩
    · exact .refl w
  · split <;> rfl
  · cases b
    · exact .throw _
    · exact .pure _

/-- INTERNAL: the JSON check of a column is inner. -/
theorem requireSerializable (d : Dict) : Inner (Model.requireSerializable d) := by
  unfold Model.requireSerializable
  split
  · exact .pure _
  · exact .throw _

/-- INTERNAL: a save is a statement after its JSON check, in a block of its own. -/
theorem save (d : Dict) (statement : Tables → Tables) :
    Inner (Model.withUow do Model.requireSerializable d; Model.execute statement) :=
  .withUow (.bind (.requireSerializable d) fun _ => .execute statement)

/-- INTERNAL: the same for a row that refers to another. -/
theorem saveChecked (d : Dict) (holds : Tables → Bool) (message : String) (statement : Tables → Tables) :
    Inner (Model.withUow do Model.requireSerializable d; Model.executeChecked holds message statement) :=
  .withUow (.bind (.requireSerializable d) fun _ => .executeChecked holds message statement)

/-- INTERNAL: the clock is inner. -/
theorem now (host : Host) : Inner (Model.now host) :=
  .act (fun _ => ⟨rfl, le_rfl, [], by simp⟩) fun _ => rfl

/-- INTERNAL: the identifiers are inner. -/
theorem newId (host : Host) : Inner (Model.newId host) :=
  .act (fun _ => ⟨rfl, Nat.le_succ _, [], by simp⟩) fun _ => rfl

end Inner

/-! ## Whole blocks -/

/-- INTERNAL: an inner program, read as one run. -/
theorem Inner.run {α : Type} {body : Proc α} (hb : Inner body) {w : World} (hw : 0 < w.depth) :
    Quiet w (body.run w).2 ∧ (body.run w).2.depth = w.depth :=
  ⟨quiet_of_chain (hb w hw).reach, (hb w hw).run⟩

/-- INTERNAL: the outcome of a program is the one of its run. -/
theorem sat_run {α : Type} (body : Proc α) (w : World) :
    body.Sat (fun _ _ => True) (fun r t => body.run w = (r, t)) w :=
  Program.sat_of_run rfl

/-- INTERNAL: a statement under a constraint, read as one run. -/
theorem run_executeChecked (holds : Tables → Bool) (message : String)
    (statement : Tables → Tables) (w : World) :
    (executeChecked holds message statement).run w =
      if holds w.working then (.ok (), { w with working := statement w.working })
      else (.error (.integrityError message), w) := by
  unfold executeChecked
  cases h : holds w.working <;> simp [h]

/-- INTERNAL: a block, run undisturbed.
SOURCE: persistence/sqlite/unit_of_work.py:32-49 -/
theorem run_withUow {α : Type} (body : Proc α) (w : World) :
    (withUow body).run w = match body.run w.enter with
      | (.ok a, t) => (.ok a, t.exit true)
      | (.error e, t) => (.error e, t.exit false) := by
  unfold withUow
  rw [Program.run_bind, Program.run_modify]
  simp only [Program.run_bind, Program.run_attempt]
  rcases body.run w.enter with ⟨r, t⟩
  cases r <;> rfl

/-- A block that starts with no transaction open. Its steps are quiet but the last one, which
commits what the body wrote or rolls it back; the rule asks for the step relation and the
postcondition only there.
SOURCE: persistence/sqlite/unit_of_work.py:32-49 -/
theorem sat_withUow {α : Type} {body : Proc α} (hb : Inner body) {w : World} (hw : w.Idle)
    {R : World → World → Prop} {Q : Except Err α → World → Prop}
    (hquiet : ∀ a b, Quiet a b → R a b)
    (hok : ∀ a t, body.run w.enter = (.ok a, t) → Quiet w t →
      R t t.commit ∧ Q (.ok a) t.commit)
    (herr : ∀ e t, body.run w.enter = (.error e, t) → Quiet w t → Q (.error e) t.rollback) :
    (Model.withUow body).Sat R Q w := by
  have hpos : 0 < w.enter.depth := by simp [World.enter]
  have henter : Quiet w w.enter := ⟨rfl, le_rfl, [], by simp [World.enter]⟩
  have hone : w.enter.depth = 1 := by simp [World.enter, hw.depth]
  obtain ⟨hquiet', hdepth⟩ := hb.run hpos
  -- the body's own steps are enclosed; what is left is the outcome of its one run
  have hbody : body.Sat R (fun r t => body.run w.enter = (r, t)) w.enter := by
    have h := (hb w.enter hpos).and (sat_run body w.enter)
    exact h.mono (fun a b hab => hquiet a b hab.1.toQuiet) fun r t ht => ht.2
  refine ⟨hquiet _ _ henter, ?_⟩
  change (body.attempt >>= _).Sat _ _ _
  rw [Program.sat_bind, Program.sat_attempt]
  refine hbody.post fun r t hrun => ?_
  rw [hrun] at hquiet' hdepth
  have ht : t.depth - 1 = 0 := by
    simp only [hone] at hdepth
    omega
  cases r with
  | ok a =>
    have hx : t.exit true = t.commit := by simp [World.exit, World.commit, ht]
    have := hok a t hrun (henter.trans hquiet')
    exact ⟨hx ▸ this.1, hx ▸ this.2⟩
  | error e =>
    have hx : t.exit false = t.rollback := by simp [World.exit, World.rollback, ht]
    have hback : Quiet t t.rollback := ⟨rfl, le_rfl, [], by simp [World.rollback]⟩
    exact ⟨hx ▸ hquiet _ _ hback, hx ▸ herr e t hrun (henter.trans hquiet')⟩

/-- A block that starts with no transaction open makes nothing durable before its last step. -/
theorem early_withUow {α : Type} {body : Proc α} (hb : Inner body) (w : World) :
    (Model.withUow body).Early Quiet w := by
  have hpos : 0 < w.enter.depth := by simp [World.enter]
  have henter : Quiet w w.enter := ⟨rfl, le_rfl, [], by simp [World.enter]⟩
  unfold Model.withUow
  refine Program.early_bind Quiet.refl (fun _ _ _ => Quiet.trans) ⟨henter, ?_⟩
  rintro - -
  refine Program.early_bind Quiet.refl (fun _ _ _ => Quiet.trans) ?_
  rw [Program.sat_attempt]
  refine (hb w.enter hpos).mono (fun _ _ h => h.toQuiet) fun r t _ r' hr => ?_
  -- what is left is the one step that commits or rolls back
  obtain rfl := Except.ok.inj hr
  cases r with
  | ok a =>
    intro n hn
    obtain rfl : n = 0 := Nat.lt_one_iff.mp hn
    exact .refl _
  | error e =>
    intro n hn
    obtain rfl : n = 0 := Nat.lt_one_iff.mp hn
    exact .refl _

/-- The state is idle again and nothing has become durable. -/
structure Calm (w t : World) : Prop extends Quiet w t where
  idle : t.Idle

/-- INTERNAL: the rule for a block whose body returns. -/
theorem sat_withUow_commits {α : Type} {body : Proc α} (hb : Inner body) {w t : World} (hw : w.Idle)
    {R : World → World → Prop} {Q : Except Err α → World → Prop}
    (hquiet : ∀ a b, Quiet a b → R a b) {a : α} (hrun : body.run w.enter = (.ok a, t))
    (hR : R t t.commit) (hQ : Q (.ok a) t.commit) : (Model.withUow body).Sat R Q w := by
  refine sat_withUow hb hw hquiet ?_ ?_
  · intro a' t' hrun' _
    obtain ⟨ha, rfl⟩ := Prod.mk.inj (hrun.symm.trans hrun')
    obtain rfl := Except.ok.inj ha
    exact ⟨hR, hQ⟩
  · intro e t' hrun' _
    cases hrun.symm.trans hrun'

/-- INTERNAL: the rule for a block whose body raises. -/
theorem sat_withUow_rolls_back {α : Type} {body : Proc α} (hb : Inner body) {w : World}
    (hw : w.Idle) {R : World → World → Prop} {Q : Except Err α → World → Prop}
    (hquiet : ∀ a b, Quiet a b → R a b) (hrun : ∃ e t, body.run w.enter = (.error e, t))
    (hQ : ∀ e t, Calm w t → Q (.error e) t) : (Model.withUow body).Sat R Q w := by
  obtain ⟨e, t, hrun⟩ := hrun
  refine sat_withUow hb hw hquiet ?_ ?_
  · intro a' t' hrun' _
    cases hrun.symm.trans hrun'
  · intro e' t' _ hq
    have hback : Quiet t' t'.rollback := ⟨rfl, le_rfl, [], by simp [World.rollback]⟩
    exact hQ e' _ ⟨hq.trans hback, t'.idle_rollback⟩

/-! ## Parts of the database that a program leaves alone -/

/-- Where no open transaction has touched a part of the tables, a step leaves that part alone. -/
def Keeps {γ : Type} (part : Tables → γ) (w w' : World) : Prop :=
  part w.working = part w.committed →
    part w'.working = part w.working ∧ part w'.committed = part w.committed

namespace Keeps

variable {γ : Type} {part : Tables → γ}

/-- INTERNAL: a step that changes no table keeps every part. -/
theorem of_eq {w w' : World} (hw : w'.working = w.working) (hc : w'.committed = w.committed) :
    Keeps part w w' := fun _ => ⟨by rw [hw], by rw [hc]⟩

/-- INTERNAL: a part that two steps keep is kept by both. -/
theorem trans {a b c : World} (h : Keeps part a b) (h' : Keeps part b c) : Keeps part a c := by
  intro ha
  obtain ⟨hw, hc⟩ := h ha
  obtain ⟨hw', hc'⟩ := h' (by rw [hw, hc, ha])
  exact ⟨hw'.trans hw, hc'.trans hc⟩

/-- INTERNAL: commit and rollback move the part between two equal copies.
SOURCE: persistence/sqlite/unit_of_work.py:32-49 -/
theorem exit (clean : Bool) (w : World) : Keeps part w (w.exit clean) := by
  intro hw
  unfold World.exit
  split
  · exact ⟨rfl, rfl⟩
  · cases clean
    · exact ⟨hw.symm, rfl⟩
    · exact ⟨rfl, hw⟩

/-- INTERNAL: along a chain of keeping steps the part is what it was. -/
theorem chain {a b : World} (h : Relation.ReflTransGen (Keeps part) a b) : Keeps part a b := by
  induction h with
  | refl => exact of_eq rfl rfl
  | tail _ hs ih => exact ih.trans hs

end Keeps

/-- Every step of the program leaves the part alone. -/
def Leaves {α γ : Type} (part : Tables → γ) (p : Proc α) : Prop := p.Guarantee (Keeps part)

namespace Leaves

variable {α β γ : Type} {part : Tables → γ}

/-- INTERNAL: a value that is returned. -/
theorem pure (a : α) : Leaves part (Pure.pure a : Proc α) := Program.guarantee_pure a

/-- INTERNAL: an error that is raised. -/
theorem throw (e : Err) : Leaves part (MonadExcept.throw e : Proc α) := Program.guarantee_throw e

/-- INTERNAL: a result computed beforehand. -/
theorem ofExcept (x : Except Err α) : Leaves part (Program.ofExcept x : Proc α) :=
  Program.guarantee_ofExcept x

/-- INTERNAL: one program after another. -/
theorem bind {p : Proc α} {f : α → Proc β} (hp : Leaves part p) (hf : ∀ a, Leaves part (f a)) :
    Leaves part (p >>= f) := Program.guarantee_bind hp hf

/-- INTERNAL: a body and its handler. -/
theorem tryCatch {p : Proc α} {h : Err → Proc α} (hp : Leaves part p)
    (hh : ∀ e, Leaves part (h e)) : Leaves part (MonadExcept.tryCatch p h) :=
  Program.guarantee_tryCatch hp hh

/-- INTERNAL: a body whose error is a result. -/
theorem attempt {p : Proc α} (hp : Leaves part p) : Leaves part p.attempt :=
  Program.guarantee_attempt hp

/-- INTERNAL: clock, identifiers, machine, log and queries write no table. -/
theorem now (host : Host) : Leaves part (Model.now host) :=
  Program.guarantee_act _ fun _ => Keeps.of_eq rfl rfl

/-- INTERNAL: drawing an identifier. -/
theorem newId (host : Host) : Leaves part (Model.newId host) :=
  Program.guarantee_act _ fun _ => Keeps.of_eq rfl rfl

/-- INTERNAL: asking the host. -/
theorem probe (host : Host) : Leaves part (Model.probe host) :=
  Program.guarantee_get (fun _ => Keeps.of_eq rfl rfl) _

/-- INTERNAL: reading the tables. -/
theorem query (view : Tables → α) : Leaves part (Model.query view) :=
  Program.guarantee_get (fun _ => Keeps.of_eq rfl rfl) _

/-- INTERNAL: writing to the log. -/
theorem note (effect : Effect) : Leaves part (Model.note effect) :=
  Program.guarantee_modify fun _ => Keeps.of_eq rfl rfl

/-- INTERNAL: a statement that does not touch the part. -/
theorem execute {statement : Tables → Tables} (h : ∀ t, part (statement t) = part t) :
    Leaves part (Model.execute statement) :=
  Program.guarantee_modify fun _ _ => ⟨h _, rfl⟩

/-- INTERNAL: the same under a constraint. -/
theorem executeChecked {statement : Tables → Tables} (holds : Tables → Bool) (message : String)
    (h : ∀ t, part (statement t) = part t) :
    Leaves part (Model.executeChecked holds message statement) := by
  refine .bind (Program.guarantee_act _ fun w => ?_) fun ok => ?_
  · split
    · exact fun _ => ⟨h _, rfl⟩
    · exact Keeps.of_eq rfl rfl
  · split
    · exact .pure _
    · exact .throw _

/-- INTERNAL: a block leaves alone what its body does. -/
theorem withUow {body : Proc α} (h : Leaves part body) : Leaves part (Model.withUow body) := by
  refine .bind (Program.guarantee_modify fun _ => Keeps.of_eq rfl rfl) fun _ =>
    .bind (.attempt h) fun r => ?_
  cases r with
  | ok a => exact .bind (Program.guarantee_modify (Keeps.exit true)) fun _ => .pure _
  | error e => exact .bind (Program.guarantee_modify (Keeps.exit false)) fun _ => .throw _

/-- INTERNAL: a save of a row with a JSON column. -/
theorem save (d : Dict) {statement : Tables → Tables} (h : ∀ t, part (statement t) = part t) :
    Leaves part (Model.withUow do Model.requireSerializable d; Model.execute statement) := by
  refine withUow (.bind ?_ fun _ => .execute h)
  unfold Model.requireSerializable
  split
  · exact .pure _
  · exact .throw _

/-- INTERNAL: and of one that refers to another row. -/
theorem saveChecked (d : Dict) (holds : Tables → Bool) (message : String) {statement : Tables → Tables}
    (h : ∀ t, part (statement t) = part t) :
    Leaves part (Model.withUow do
      Model.requireSerializable d; Model.executeChecked holds message statement) := by
  refine withUow (.bind ?_ fun _ => .executeChecked holds message h)
  unfold Model.requireSerializable
  split
  · exact .pure _
  · exact .throw _

/-- INTERNAL: wherever the program is killed, the part is what it was when it started. -/
theorem cut {p : Proc α} (h : Leaves part p) (n : ℕ) (w : World) : Keeps part w (p.cut n w) :=
  Keeps.chain ((h.sat (fun _ => Keeps.of_eq rfl rfl) (fun _ _ _ => Keeps.trans) w).cut n)

/-- INTERNAL: and so it is when the program comes to its end. -/
theorem run {p : Proc α} (h : Leaves part p) (w : World) : Keeps part w (p.run w).2 :=
  Keeps.chain (h.sat (fun _ => Keeps.of_eq rfl rfl) (fun _ _ _ => Keeps.trans) w).reach

end Leaves

section Nested

variable {w : World}

/-- INTERNAL: a nested block of one statement is that statement. -/
@[simp] theorem run_withUow_execute (hw : 0 < w.depth) (statement : Tables → Tables) :
    (Model.withUow (Model.execute statement)).run w =
      (.ok (), { w with working := statement w.working }) := by
  simp [Model.withUow, Model.execute, World.enter, World.exit, hw]

/-- INTERNAL: a nested save of a row with a JSON column.
SOURCE: persistence/sqlite/app_receipt_repository.py, app_attempt_repository.py -/
@[simp] theorem run_withUow_save (hw : 0 < w.depth) (d : Dict) (statement : Tables → Tables) :
    (Model.withUow do Model.requireSerializable d; Model.execute statement).run w =
      if (Value.dict d).serializable then (.ok (), { w with working := statement w.working })
      else (.error (.typeError "Object is not JSON serializable"), w) := by
  unfold Model.requireSerializable
  split <;> simp [Model.withUow, Model.execute, World.enter, World.exit, hw]

/-- INTERNAL: a nested statement under a constraint that holds. -/
theorem run_withUow_checked (hw : 0 < w.depth) {holds : Tables → Bool} (message : String)
    (statement : Tables → Tables) (hholds : holds w.working = true) :
    (Model.withUow (Model.executeChecked holds message statement)).run w =
      (.ok (), { w with working := statement w.working }) := by
  have hentered : holds w.enter.working = true := hholds
  rw [run_withUow, run_executeChecked, if_pos hentered]
  simp [World.enter, World.exit, hw]

/-- INTERNAL: a nested save under a constraint. -/
theorem run_withUow_saveChecked (hw : 0 < w.depth) (d : Dict) (holds : Tables → Bool)
    (message : String) (statement : Tables → Tables) :
    (Model.withUow do Model.requireSerializable d; Model.executeChecked holds message statement).run w =
      if (Value.dict d).serializable then
        if holds w.working then (.ok (), { w with working := statement w.working })
        else (.error (.integrityError message), w)
      else (.error (.typeError "Object is not JSON serializable"), w) := by
  unfold Model.requireSerializable Model.executeChecked
  by_cases hd : (Value.dict d).serializable = true
  · cases hh : holds w.working <;> simp [Model.withUow, World.enter, World.exit, hw, hd, hh]
  · simp [Model.withUow, World.enter, World.exit, hw, hd]

/-- INTERNAL: an attempt is saved if it is stored already or its receipt is.
SOURCE: persistence/sqlite/migrations/0006_app_execution.sql:33 -/
theorem run_saveAttempt (hw : 0 < w.depth) {a : ExecutionAttempt}
    (hjson : (Value.dict a.evidence).serializable = true)
    (hknown : (Table.has ExecutionAttempt.id w.working.attempts a.id ||
      w.working.hasReceipt a.receiptId) = true) :
    (AttemptRepository.save a).run w = (.ok (), { w with working := AttemptRepository.put a w.working }) :=
  (run_withUow_saveChecked hw ..).trans (by rw [if_pos hjson, if_pos hknown])

/-- INTERNAL: and not if its evidence is no JSON. -/
theorem run_saveAttempt_raises (hw : 0 < w.depth) {a : ExecutionAttempt}
    (hjson : (Value.dict a.evidence).serializable = false) :
    (AttemptRepository.save a).run w = (.error (.typeError "Object is not JSON serializable"), w) :=
  (run_withUow_saveChecked hw ..).trans (by rw [hjson, if_neg Bool.false_ne_true])

/-- INTERNAL: evidence of a stored receipt is saved.
SOURCE: persistence/sqlite/migrations/0007_app_receipt.sql:12 -/
theorem run_saveEvidence (hw : 0 < w.depth) {r : EvidenceRecord}
    (hjson : (Value.dict r.payload).serializable = true) (hreceipt : w.working.hasReceipt r.receiptId = true) :
    (EvidenceRepository.save r).run w = (.ok (), { w with working := EvidenceRepository.put r w.working }) := by
  have hholds : (Table.has EvidenceRecord.id w.working.evidence r.id ||
      w.working.hasReceipt r.receiptId) = true := Bool.or_eq_true_iff.mpr (.inr hreceipt)
  exact (run_withUow_saveChecked hw ..).trans (by rw [if_pos hjson, if_pos hholds])

/-- INTERNAL: and so is a verification.
SOURCE: persistence/sqlite/migrations/0007_app_receipt.sql:27 -/
theorem run_saveAppVerification (hw : 0 < w.depth) {r : AppVerificationRecord}
    (hreceipt : w.working.hasReceipt r.receiptId = true) :
    (AppVerificationRepository.save r).run w =
      (.ok (), { w with working := AppVerificationRepository.put r w.working }) :=
  run_withUow_checked hw _ _ (Bool.or_eq_true_iff.mpr (.inr hreceipt))

end Nested

/-- INTERNAL: what is read depends on the two tables of plans. -/
theorem ofTables_congr {t t' : Tables} (hplans : t'.plans = t.plans) (hsteps : t'.planSteps = t.planSteps)
    (taskId : String) : PlanRepository.ofTables t' taskId = PlanRepository.ofTables t taskId := by
  unfold PlanRepository.ofTables PlanRepository.stepRows
  rw [hplans, hsteps]

end Shea.Analysis
