import Shea.Computation.Faults
import Shea.Analysis.TaskStates
import Shea.Analysis.Operations

/-!
# Blocks under failures

What is left of a transaction when any of the repository, audit or orchestrator calls inside it may
raise. Every step of a block can be refused but the two that open and close a block, which only count.

A `Nested` program takes enclosed steps only, whatever is refused, and does not return after a refusal.
So a block around it that starts with no transaction open returns with everything committed that the
undisturbed body writes, or raises with the committed rows as they were.
-/

set_option autoImplicit false

namespace Shea.Analysis

open Shea.Computation Shea.Model

/-- Every step may be refused but those of the unit of work. -/
def refusable (w w' : World) : Bool := w.depth = w'.depth

/-- A program that may stand inside a block: whatever is refused, its steps are enclosed and it leaves
the nesting depth as it found it; and when it returns, nothing was refused. -/
structure Nested {α : Type} (p : Proc α) : Prop where
  endures : ∀ w : World, 0 < w.depth →
    p.Endures refusable Enclosed (fun _ t => t.depth = w.depth) w
  strict : p.Strict

namespace Nested

variable {α β : Type}

/-- INTERNAL: a value that is returned. -/
theorem pure (a : α) : Nested (Pure.pure a : Proc α) := ⟨fun _ _ => rfl, trivial⟩

/-- INTERNAL: an error that is raised. -/
theorem throw (e : Err) : Nested (MonadExcept.throw e : Proc α) := ⟨fun _ _ => rfl, trivial⟩

/-- INTERNAL: a result that is passed on. -/
theorem ofExcept (x : Except Err α) : Nested (Program.ofExcept x : Proc α) := by
  cases x
  · exact .throw _
  · exact .pure _

/-- INTERNAL: sequencing keeps the depth in both halves. -/
theorem bind {p : Proc α} {f : α → Proc β} (hp : Nested p) (hf : ∀ a, Nested (f a)) :
    Nested (p >>= f) := by
  refine ⟨fun w hw => ?_, Program.strict_bind hp.strict fun a => (hf a).strict⟩
  rw [Program.endures_bind]
  refine (hp.endures w hw).post fun r t ht => ?_
  cases r with
  | error e => exact ht
  | ok a =>
    refine ((hf a).endures t (ht ▸ hw)).post fun r' t' ht' => ?_
    exact ht'.trans ht

/-- INTERNAL: a step that keeps the committed rows and the depth. -/
theorem act {view : World → α} {update : World → World} (hq : ∀ w, Quiet w (update w))
    (hd : ∀ w, (update w).depth = w.depth) : Nested (Program.act view update : Proc α) :=
  ⟨fun w hw => Program.endures_act ⟨hq w, (hd w).symm ▸ hw⟩ (hd w) fun _ => rfl,
    Program.strict_act view update⟩

/-- INTERNAL: a look at the state. -/
theorem get (view : World → α) : Nested (Program.get view : Proc α) :=
  ⟨fun w hw => Program.endures_act ⟨.refl w, hw⟩ rfl fun _ => rfl, Program.strict_get view⟩

/-- INTERNAL: a query. -/
theorem query (view : Tables → α) : Nested (Model.query view) := .get _

/-- INTERNAL: the clock. -/
theorem now (host : Host) : Nested (Model.now host) := .act quiet_tick fun _ => rfl

/-- INTERNAL: a new id. -/
theorem newId (host : Host) : Nested (Model.newId host) := .act quiet_newId fun _ => rfl

/-- INTERNAL: publishing an event. -/
theorem publish (event : Event) : Nested (Model.note (.published event)) :=
  ⟨fun _ hw => Program.endures_modify ⟨⟨rfl, le_rfl, [event], rfl⟩, hw⟩ rfl fun _ => rfl,
    Program.strict_modify _⟩

/-- INTERNAL: a statement. -/
theorem execute (statement : Tables → Tables) : Nested (Model.execute statement) :=
  ⟨fun _ hw => Program.endures_modify ⟨⟨rfl, le_rfl, [], by simp⟩, hw⟩ rfl fun _ => rfl,
    Program.strict_modify _⟩

/-- INTERNAL: a statement under a constraint. -/
theorem executeChecked (holds : Tables → Bool) (message : String) (statement : Tables → Tables) :
    Nested (Model.executeChecked holds message statement) := by
  refine .bind (.act (fun w => ?_) fun w => ?_) fun ok => ?_
  · split
    · exact ⟨rfl, le_rfl, [], by simp⟩
    · exact .refl w
  · split <;> rfl
  · cases ok
    · exact .throw _
    · exact .pure _

/-- INTERNAL: the JSON check of a column. -/
theorem requireSerializable (d : Dict) : Nested (Model.requireSerializable d) := by
  unfold Model.requireSerializable
  split
  · exact .pure _
  · exact .throw _

/-- INTERNAL: a nested block enters, runs and leaves; the outer transaction stays open.
SOURCE: persistence/sqlite/unit_of_work.py:32-49 -/
theorem withUow {body : Proc α} (hb : Nested body) : Nested (Model.withUow body) := by
  have hstrict : (Model.withUow body).Strict := by
    refine Program.strict_bind (Program.strict_modify _) fun _ =>
      Program.strict_attempt_bind hb.strict (fun a => ?_) (fun e => ?_) fun e => ?_
    · exact Program.strict_bind (Program.strict_modify _) fun _ => trivial
    · exact ⟨fun _ => trivial, fun _ => trivial⟩
    · exact Program.strict_bind (Program.strict_modify _) fun _ => trivial
  refine ⟨fun w hw => ?_, hstrict⟩
  have henter : Enclosed w w.enter :=
    ⟨⟨rfl, le_rfl, [], by simp [World.enter]⟩, by simp [World.enter]⟩
  have hexit : ∀ (t : World) (b : Bool), t.depth = w.enter.depth →
      Enclosed t (t.exit b) ∧ (t.exit b).depth = w.depth := by
    intro t b ht
    have hd : t.depth - 1 = w.depth := by simp [ht, World.enter]
    have hx : t.exit b = { t with depth := t.depth - 1 } := by simp [World.exit, hd, hw]
    rw [hx]
    exact ⟨⟨⟨rfl, le_rfl, [], by simp⟩, hd ▸ hw⟩, hd⟩
  have hcounts : ∀ (t : World) (b : Bool), t.depth = w.enter.depth →
      refusable t (t.exit b) ≠ true := by
    intro t b ht h
    have hd := (hexit t b ht).2
    have : t.depth = (t.exit b).depth := of_decide_eq_true h
    rw [hd, ht] at this
    simp [World.enter] at this
  refine ⟨⟨henter, ?_⟩, fun h => by simp [refusable, World.enter] at h⟩
  change (body.attempt >>= _).Endures _ _ _ _
  rw [Program.endures_bind, Program.endures_attempt]
  refine (hb.endures w.enter henter.depth).post fun r t ht => ?_
  cases r with
  | ok a => exact ⟨hexit t true ht, fun h => absurd h (hcounts t true ht)⟩
  | error e => exact ⟨hexit t false ht, fun h => absurd h (hcounts t false ht)⟩

/-- INTERNAL: a save of a row. -/
theorem write (statement : Tables → Tables) : Nested (Model.withUow (Model.execute statement)) :=
  .withUow (.execute statement)

/-- INTERNAL: a block of one statement. -/
theorem writeChecked (holds : Tables → Bool) (message : String) (statement : Tables → Tables) :
    Nested (Model.withUow (Model.executeChecked holds message statement)) :=
  .withUow (.executeChecked holds message statement)

/-- INTERNAL: a published event. -/
theorem emit (host : Host) (source eventType : String) (payload : Dict)
    (correlationId : Option String) :
    Nested (Model.emit host source eventType payload correlationId) :=
  .bind (.newId host) fun _ => .bind (.now host) fun _ => .publish _

end Nested

/-! ## Calls and whole blocks -/

/-- INTERNAL: an audit entry. -/
theorem nested_audit (host : Host) (entry : AuditEntry) : Nested (audit host entry) :=
  .bind (.newId host) fun _ => .bind (.now host) fun _ =>
    .withUow (.bind (.requireSerializable _) fun _ => .executeChecked _ _ _)

/-- INTERNAL: a task is saved with an audit entry. -/
theorem nested_saveAudited (host : Host) (task : Task) (entry : AuditEntry) :
    Nested (Orchestrator.saveAudited host task entry) :=
  .withUow (.bind (.withUow (.bind (.requireSerializable _) fun _ => .execute _)) fun _ =>
    nested_audit host entry)

/-- INTERNAL: a task is read. -/
theorem nested_getTask (taskId : String) : Nested (Orchestrator.getTask taskId) := by
  refine .bind (.query _) fun found => ?_
  split
  · exact .pure _
  · exact .throw _

/-- INTERNAL: a move, accepted or rejected.
SOURCE: core/orchestrator.py:95-140 -/
theorem nested_advance (host : Host) (taskId event : String) :
    Nested (Orchestrator.advance host taskId event) := by
  refine .bind (nested_getTask taskId) fun task => ?_
  split
  · exact .bind (nested_audit host _) fun _ => .throw _
  · exact .bind (.now host) fun _ => .bind (nested_saveAudited host _ _) fun _ =>
      .bind (.emit ..) fun _ => .pure _

/-- INTERNAL: a plan is given to a task. -/
theorem nested_attachPlan (host : Host) (taskId planId : String) :
    Nested (Orchestrator.attachPlan host taskId planId) :=
  .bind (nested_getTask taskId) fun _ => .bind (nested_saveAudited host _ _) fun _ =>
    .bind (.emit ..) fun _ => .pure _

/-- INTERNAL: the steps of a plan, one insert after the other. -/
theorem nested_insertSteps (plan : Plan) (steps : List PlanStep) :
    Nested (PlanRepository.insertSteps plan steps) := by
  induction steps with
  | nil => exact .pure _
  | cons step rest ih =>
    exact .bind (.bind (.requireSerializable _) fun _ => .executeChecked _ _ _) fun _ => ih

/-- INTERNAL: the statements of a plan's save. -/
theorem nested_planBody (plan : Plan) : Nested (do
    executeForTask (fun t => Table.has Plan.id t.plans plan.id) plan.taskId fun t =>
      { t with plans := Table.upsert Plan.id PlanRepository.merge (PlanRepository.row plan) t.plans }
    execute fun t => { t with planSteps := t.planSteps.filter (·.planId ≠ plan.id) }
    PlanRepository.insertSteps plan plan.steps) :=
  .bind (.executeChecked _ _ _) fun _ => .bind (.execute _) fun _ => nested_insertSteps plan _

/-- INTERNAL: a plan is saved. -/
theorem nested_savePlan (plan : Plan) : Nested (PlanRepository.save plan) :=
  .withUow (nested_planBody plan)

/-- INTERNAL: the block that records a grant.
SOURCE: decision/service.py:192-232 -/
theorem nested_writeGrant (host : Host) (task : Task) (decision : Decision)
    (assessment : RiskAssessment) (authorization : Authorization) :
    Nested (DecisionService.writeGrant host task decision assessment authorization) :=
  .bind (.writeChecked _ _ _) fun _ => .bind (.writeChecked _ _ _) fun _ =>
    .bind (.writeChecked _ _ _) fun _ => .bind (nested_audit host _) fun _ =>
    .bind (nested_audit host _) fun _ => .bind (nested_audit host _) fun _ =>
    nested_advance host _ _

/-- INTERNAL: the block that records a verification.
SOURCE: verification/service.py:105-150 -/
theorem nested_writeVerification (host : Host) (task : Task) (tool : String)
    (outcome : VerificationOutcome) (verification : VerificationRecord) (moreSteps : Bool) :
    Nested (VerificationService.writeVerification host task tool outcome verification moreSteps) :=
  .bind (.writeChecked _ _ _) fun _ => .bind (nested_audit host _) fun _ => nested_advance host _ _

/-- INTERNAL: the block that resolves a recovery.
SOURCE: recovery/service.py:304-334 -/
theorem nested_writeResolution (host : Host) (task : Task) (attempt : RecoveryAttempt)
    (outcome : CompensationOutcome) :
    Nested (RecoveryService.writeResolution host task attempt outcome) :=
  .bind (.writeChecked _ _ _) fun _ => .bind (nested_audit host _) fun _ => nested_advance host _ _

/-- INTERNAL: an intent is saved. -/
theorem nested_saveIntent (intent : Intent) (already : Bool) :
    Nested (PlanningService.saveIntent intent already) := by
  unfold PlanningService.saveIntent
  split
  · exact .pure _
  · exact .withUow (.bind (.requireSerializable _) fun _ => .executeChecked _ _ _)

/-- INTERNAL: the block that makes a plan ready.
SOURCE: planning/service.py:344-359 -/
theorem nested_writePlan (host : Host) (task : Task) (requestId : String) (intent : Intent)
    (already : Bool) (plan : Plan) :
    Nested (PlanningService.writePlan host task requestId intent already plan) :=
  .bind (nested_saveIntent intent already) fun _ => .bind (nested_savePlan plan) fun _ =>
    .bind (nested_attachPlan host _ _) fun _ => .bind (nested_advance host _ _) fun _ =>
    .bind (nested_audit host _) fun _ => .pure _

/-- INTERNAL: an undisturbed nested program is inner. -/
theorem Nested.inner {α : Type} {p : Proc α} (h : Nested p) : Inner p :=
  fun w hw => (h.endures w hw).sat

/-- INTERNAL: when a block that starts with no transaction open raises, the committed rows are as they
were. -/
theorem endures_withUow {α : Type} {body : Proc α} (hb : Nested body) {w : World} (hw : w.Idle) :
    (withUow body).Endures refusable (fun _ _ => True)
      (fun r t => t.Idle ∧ ∀ e, r = .error e → t.committed = w.committed) w := by
  have hpos : 0 < w.enter.depth := by simp [World.enter]
  have hone : w.enter.depth = 1 := by simp [World.enter, hw.depth]
  have hkept := (hb.endures w.enter hpos).keep (I := fun t => t.committed = w.committed)
    (fun a b hab ha => hab.committed.trans ha) rfl
  have hcounts : ∀ (t : World) (b : Bool), t.depth = w.enter.depth →
      refusable t (t.exit b) ≠ true := by
    intro t b ht h
    have hdepth : (t.exit b).depth = 0 := by
      cases b <;> simp [World.exit, ht, hone]
    have : t.depth = (t.exit b).depth := of_decide_eq_true h
    rw [hdepth, ht, hone] at this
    cases this
  refine ⟨⟨trivial, ?_⟩, fun h => by simp [refusable, World.enter] at h⟩
  change (body.attempt >>= _).Endures _ _ _ _
  rw [Program.endures_bind, Program.endures_attempt]
  refine hkept.mono (fun _ _ _ => trivial) fun r t ht => ?_
  have hzero : ¬ 0 < t.depth - 1 := by
    rw [ht.1, hone]
    exact Nat.lt_irrefl 0
  cases r with
  | ok a =>
    have hx : t.exit true = t.commit := by simp [World.exit, World.commit, ht.1, hone]
    refine ⟨⟨trivial, ?_⟩, fun h => absurd h (hcounts t true ht.1)⟩
    exact ⟨hx ▸ t.idle_commit, fun e he => by cases he⟩
  | error e =>
    have hx : t.exit false = t.rollback := by simp [World.exit, World.rollback, ht.1, hone]
    refine ⟨⟨trivial, ?_⟩, fun h => absurd h (hcounts t false ht.1)⟩
    exact ⟨hx ▸ t.idle_rollback, fun _ _ => hx ▸ ht.2⟩

/-- INTERNAL: a block that starts with no transaction open and returns has committed what its body
wrote. -/
theorem run_withUow_ok {α : Type} {body : Proc α} (hb : Inner body) {w t : World} (hw : w.Idle)
    {a : α} (h : (withUow body).run w = (.ok a, t)) :
    ∃ u, body.run w.enter = (.ok a, u) ∧ t = u.commit := by
  have hsat : (withUow body).Sat (fun _ _ => True)
      (fun r t => ∀ a, r = .ok a → ∃ u, body.run w.enter = (.ok a, u) ∧ t = u.commit) w := by
    refine sat_withUow hb hw (fun _ _ _ => trivial) ?_ ?_
    · intro a t hbody _
      refine ⟨trivial, fun a' ha => ?_⟩
      obtain rfl := Except.ok.inj ha
      exact ⟨t, hbody, rfl⟩
    · exact fun e t _ _ a ha => by cases ha
  have hrun := hsat.run
  rw [h] at hrun
  exact hrun a rfl

/-- INTERNAL: one that raises has rolled its body back. -/
theorem run_withUow_error {α : Type} {body : Proc α} (hb : Inner body) {w t : World} (hw : w.Idle)
    {e : Err} (h : (withUow body).run w = (.error e, t)) :
    ∃ u, Quiet w u ∧ t = u.rollback := by
  have hsat : (withUow body).Sat (fun _ _ => True)
      (fun r t => ∀ e, r = .error e → ∃ u, Quiet w u ∧ t = u.rollback) w := by
    refine sat_withUow hb hw (fun _ _ _ => trivial) ?_ ?_
    · exact fun a t _ _ => ⟨trivial, fun e he => by cases he⟩
    · exact fun e t _ hquiet _ _ => ⟨t, hquiet, rfl⟩
  have hrun := hsat.run
  rw [h] at hrun
  exact hrun e rfl

/-- A block that starts with no transaction open, whatever is refused in it: it returns, and what its
undisturbed body writes is committed; or it raises, and the committed rows are as they were.
SOURCE: persistence/sqlite/unit_of_work.py:32-49 -/
theorem faulty_withUow {α : Type} {body : Proc α} (hb : Nested body) {w : World} (hw : w.Idle)
    (faults : ℕ → Option Err) (i : ℕ) :
    (∃ a u, body.run w.enter = (.ok a, u) ∧
      (withUow body).faulty refusable faults i w = (.ok a, u.commit)) ∨
    ∃ e t, (withUow body).faulty refusable faults i w = (.error e, t) ∧ t.Idle ∧
      t.committed = w.committed := by
  have hend := (endures_withUow hb hw).faulty faults i
  have hstrict := (Nested.withUow hb).strict
  cases hout : (withUow body).faulty refusable faults i w with
  | mk r t =>
    rw [hout] at hend
    cases r with
    | error e => exact .inr ⟨e, t, rfl, hend.1, hend.2 e rfl⟩
    | ok a =>
      have hsame : (withUow body).faulty refusable faults i w = (withUow body).run w :=
        hstrict.faulty_ok (congrArg Prod.fst hout)
      rw [hout] at hsame
      obtain ⟨u, hbody, ht⟩ := run_withUow_ok hb.inner hw hsame.symm
      exact .inl ⟨a, u, hbody, by rw [ht]⟩

/-! ## What the calls inside a block write when they return -/

section Returned

variable {w t : World}

/-- INTERNAL: the depth after a nested program. -/
theorem Nested.depth {α : Type} {p : Proc α} (hp : Nested p) (hw : 0 < w.depth) {r : Except Err α}
    (h : p.run w = (r, t)) : 0 < t.depth := by
  have hsame : (p.run w).2.depth = w.depth := (hp.inner.run hw).2
  rw [h] at hsame
  exact hsame ▸ hw

/-- INTERNAL: a nested block writes what its body writes. -/
theorem returned_withUow {α : Type} (hw : 0 < w.depth) {body : Proc α} (hb : Nested body) {a : α}
    (h : (withUow body).run w = (.ok a, t)) :
    ∃ u, body.run w.enter = (.ok a, u) ∧ t.working = u.working := by
  obtain ⟨_, w₁, henter, h⟩ := Program.run_bind_ok h
  obtain rfl : w.enter = w₁ := congrArg Prod.snd henter
  obtain ⟨r, u, hbody, h⟩ := Program.run_bind_ok h
  rw [Program.run_attempt] at hbody
  obtain ⟨hresult, hlast⟩ := Prod.mk.inj hbody
  have hrun : body.run w.enter = (r, u) := Prod.ext (Except.ok.inj hresult) hlast
  have hdepth : u.depth - 1 = w.depth := by
    have hsame : (body.run w.enter).2.depth = w.enter.depth := (hb.inner.run (Nat.succ_pos _)).2
    rw [hrun] at hsame
    simp [show u.depth = _ from hsame, World.enter]
  cases r with
  | error e =>
    obtain ⟨_, w₂, _, h⟩ := Program.run_bind_ok h
    cases h
  | ok a' =>
    obtain ⟨_, w₂, hexit, h⟩ := Program.run_bind_ok h
    obtain ⟨ha, rfl⟩ := Prod.mk.inj h
    obtain rfl : u.exit true = w₂ := congrArg Prod.snd hexit
    obtain rfl := Except.ok.inj ha
    refine ⟨u, hrun, ?_⟩
    simp [World.exit, hdepth, hw]

/-- INTERNAL: a statement under a constraint. -/
theorem returned_executeChecked {holds : Tables → Bool} {message : String}
    {statement : Tables → Tables} {a : Unit}
    (h : (executeChecked holds message statement).run w = (.ok a, t)) :
    t.working = statement w.working := by
  unfold executeChecked at h
  cases hh : holds w.working <;> simp [hh] at h
  rw [← h]

/-- INTERNAL: a save under a constraint. -/
theorem returned_writeChecked (hw : 0 < w.depth) {holds : Tables → Bool} {message : String}
    {statement : Tables → Tables} {a : Unit}
    (h : (withUow (executeChecked holds message statement)).run w = (.ok a, t)) :
    t.working = statement w.working := by
  obtain ⟨u, hbody, hworking⟩ := returned_withUow hw (.executeChecked _ _ _) h
  have hwritten : u.working = statement w.enter.working := returned_executeChecked hbody
  exact hworking.trans hwritten

/-- The row was recorded for the entry. -/
structure RowOf (entry : AuditEntry) (row : AuditEvent) : Prop where
  eventType : row.eventType = entry.eventType
  taskId : row.taskId = entry.taskId
  metadata : row.metadata = entry.metadata

/-- INTERNAL: an audit entry.
SOURCE: audit/recorder.py, persistence/sqlite/audit_sink.py -/
theorem returned_audit {host : Host} (hw : 0 < w.depth) {entry : AuditEntry} {u : Unit}
    (h : (audit host entry).run w = (.ok u, t)) :
    ∃ row, RowOf entry row ∧ t.working = withAudit row w.working := by
  rw [run_audit host hw] at h
  split at h
  · split at h
    · exact ⟨_, ⟨rfl, rfl, rfl⟩, (congrArg (World.working ∘ Prod.snd) h).symm⟩
    · cases h
  · cases h

/-- INTERNAL: a task with its audit entry. -/
theorem returned_saveAudited {host : Host} (hw : 0 < w.depth) {task : Task} {entry : AuditEntry}
    {u : Unit} (h : (Orchestrator.saveAudited host task entry).run w = (.ok u, t)) :
    ∃ row, RowOf entry row ∧ t.working = withAudit row (TaskRepository.put task w.working) := by
  have hbody : Nested (do TaskRepository.save task; audit host entry) :=
    .bind (.withUow (.bind (.requireSerializable _) fun _ => .execute _)) fun _ =>
      nested_audit host entry
  obtain ⟨u, hrun, hworking⟩ := returned_withUow hw hbody h
  obtain ⟨-, hwritten⟩ := run_saveAudited host (Nat.succ_pos _) hrun
  exact ⟨_, ⟨rfl, rfl, rfl⟩, hworking.trans hwritten⟩

/-- INTERNAL: a move of a task.
SOURCE: core/orchestrator.py:95-140 -/
theorem returned_advance {host : Host} (hw : 0 < w.depth) {taskId event : String} {moved : Task}
    (h : (Orchestrator.advance host taskId event).run w = (.ok moved, t)) :
    ∃ old row, Table.lookup Task.id w.working.tasks taskId = some old ∧
      nextState old.state event = .ok moved.state ∧ moved.id = taskId ∧
      RowOf (Orchestrator.transitionEntry moved event old.state moved.state) row ∧
      t.working = withAudit row (TaskRepository.put moved w.working) := by
  obtain ⟨old, w₁, hget, h⟩ := Program.run_bind_ok h
  obtain ⟨found, w₂, hfound, hget⟩ := Program.run_bind_ok hget
  obtain ⟨hrow, rfl⟩ := Prod.mk.inj hfound
  cases found with
  | none => cases hget
  | some task =>
    obtain ⟨htask, rfl⟩ := Prod.mk.inj hget
    obtain rfl := Except.ok.inj htask
    cases hnext : nextState task.state event with
    | error e =>
      rw [hnext] at h
      obtain ⟨_, w₃, _, h⟩ := Program.run_bind_ok h
      cases h
    | ok newState =>
      rw [hnext] at h
      obtain ⟨at_, w₃, hnow, h⟩ := Program.run_bind_ok h
      obtain ⟨-, rfl⟩ := Prod.mk.inj hnow
      obtain ⟨u, w₄, hsave, h⟩ := Program.run_bind_ok h
      obtain ⟨row, hof, hworking⟩ := returned_saveAudited (by exact hw) hsave
      obtain ⟨u', w₅, hemit, h⟩ := Program.run_bind_ok h
      obtain ⟨hmoved, rfl⟩ := Prod.mk.inj h
      obtain rfl := Except.ok.inj hmoved
      have hlookup : Table.lookup Task.id w.working.tasks taskId = some task := Except.ok.inj hrow
      have hid : task.id = taskId := Table.lookup_eq_some_key hlookup
      refine ⟨task, row, hlookup, hnext, hid, hof, ?_⟩
      exact ((congrArg (World.working ∘ Prod.snd) hemit).symm).trans hworking

/-- INTERNAL: a plan is attached to a task.
SOURCE: core/orchestrator.py:142-166 -/
theorem returned_attachPlan {host : Host} (hw : 0 < w.depth) {taskId planId : String}
    {attached : Task} (h : (Orchestrator.attachPlan host taskId planId).run w = (.ok attached, t)) :
    ∃ old row, Table.lookup Task.id w.working.tasks taskId = some old ∧
      attached = { old with planId := some planId } ∧ row.eventType = "task.plan_attached" ∧
      row.taskId = some taskId ∧
      t.working = withAudit row (TaskRepository.put attached w.working) := by
  obtain ⟨old, w₁, hget, h⟩ := Program.run_bind_ok h
  obtain ⟨found, w₂, hfound, hget⟩ := Program.run_bind_ok hget
  obtain ⟨hrow, rfl⟩ := Prod.mk.inj hfound
  cases found with
  | none => cases hget
  | some task =>
    obtain ⟨htask, rfl⟩ := Prod.mk.inj hget
    obtain rfl := Except.ok.inj htask
    obtain ⟨u, w₃, hsave, h⟩ := Program.run_bind_ok h
    obtain ⟨row, hof, hworking⟩ := returned_saveAudited hw hsave
    obtain ⟨u', w₄, hemit, h⟩ := Program.run_bind_ok h
    obtain ⟨hattached, rfl⟩ := Prod.mk.inj h
    obtain rfl := Except.ok.inj hattached
    have hlookup : Table.lookup Task.id w.working.tasks taskId = some task := Except.ok.inj hrow
    have hid : task.id = taskId := Table.lookup_eq_some_key hlookup
    refine ⟨task, row, hlookup, rfl, hof.eventType, hof.taskId.trans (congrArg some hid), ?_⟩
    exact ((congrArg (World.working ∘ Prod.snd) hemit).symm).trans hworking

/-- INTERNAL: a check of a dictionary. -/
theorem returned_requireSerializable {d : Dict} {a : Unit}
    (h : (requireSerializable d).run w = (.ok a, t)) : t = w := by
  unfold requireSerializable at h
  split at h
  · exact (congrArg Prod.snd h).symm
  · cases h

/-- INTERNAL: the steps of a plan. -/
theorem returned_insertSteps {plan : Plan} {steps : List PlanStep} {a : Unit}
    (h : (PlanRepository.insertSteps plan steps).run w = (.ok a, t)) :
    t.working = { w.working with
      planSteps := w.working.planSteps ++ steps.map (PlanRepository.stepRow plan) } := by
  induction steps generalizing w with
  | nil =>
    obtain rfl : w = t := congrArg Prod.snd h
    simp
  | cons step rest ih =>
    obtain ⟨_, w₁, hinsert, h⟩ := Program.run_bind_ok h
    obtain ⟨_, w₂, hjson, hstatement⟩ := Program.run_bind_ok hinsert
    rw [returned_requireSerializable hjson] at hstatement
    have hwritten := returned_executeChecked hstatement
    rw [ih h, hwritten]
    simp

/-- INTERNAL: a plan with its steps.
SOURCE: persistence/sqlite/plan_repository.py -/
theorem returned_savePlan (hw : 0 < w.depth) {plan : Plan} {a : Unit}
    (h : (PlanRepository.save plan).run w = (.ok a, t)) :
    t.working = { w.working with
      plans := Table.upsert Plan.id PlanRepository.merge (PlanRepository.row plan) w.working.plans
      planSteps := w.working.planSteps.filter (·.planId ≠ plan.id) ++
        plan.steps.map (PlanRepository.stepRow plan) } := by
  obtain ⟨u, hbody, hworking⟩ := returned_withUow hw (nested_planBody plan) h
  obtain ⟨_, w₁, hplan, hbody⟩ := Program.run_bind_ok hbody
  obtain ⟨_, w₂, hdelete, hbody⟩ := Program.run_bind_ok hbody
  have hwritten : w₁.working = { w.working with
      plans := Table.upsert Plan.id PlanRepository.merge (PlanRepository.row plan)
        w.working.plans } := returned_executeChecked hplan
  have hdeleted : w₂.working = { w₁.working with
      planSteps := w₁.working.planSteps.filter (·.planId ≠ plan.id) } :=
    (congrArg (World.working ∘ Prod.snd) hdelete).symm
  rw [hworking, returned_insertSteps hbody, hdeleted, hwritten]

end Returned

/-! ## The blocks of the services -/

/-- The audit rows a block has added: their event types, all of one task. -/
structure AddedRows (taskId : String) (types : List String) (rows : List AuditEvent) : Prop where
  types : rows.map AuditEvent.eventType = types
  taskId : ∀ row ∈ rows, row.taskId = some taskId

/-- The task was moved by an event. -/
def MovedBy (event : String) (before : Tables) (taskId : String) (moved : Task) : Prop :=
  ∃ old, Table.lookup Task.id before.tasks taskId = some old ∧
    nextState old.state event = .ok moved.state ∧ moved.id = taskId

/-- Everything a grant consists of.
SOURCE: decision/service.py:192-232 -/
def GrantRecorded (task : Task) (decision : Decision) (assessment : RiskAssessment)
    (authorization : Authorization) (before after : Tables) (moved : Task) : Prop :=
  MovedBy "authorize_and_run" before task.id moved ∧ ∃ rows,
    AddedRows task.id ["decision.risk_assessed", "decision.recorded",
      if authorization.explicit then "decision.authorized" else "decision.authorization.auto",
      "task.transition"] rows ∧
    after = TaskRepository.put moved { before with
      riskAssessments := Table.upsert RiskAssessment.id RiskAssessmentRepository.merge assessment
        before.riskAssessments
      decisions := Table.upsert Decision.id DecisionRepository.merge decision before.decisions
      authorizations := Table.upsert Authorization.id AuthorizationRepository.merge authorization
        before.authorizations
      auditEvents := before.auditEvents ++ rows }

/-- Everything a verification consists of.
SOURCE: verification/service.py:105-150 -/
def VerificationRecorded (task : Task) (outcome : VerificationOutcome)
    (verification : VerificationRecord) (moreSteps : Bool) (before after : Tables) (moved : Task) :
    Prop :=
  MovedBy (VerificationService.eventOf outcome.verified moreSteps) before task.id moved ∧ ∃ rows,
    AddedRows task.id [if outcome.verified then "verification.verified" else "verification.failed",
      "task.transition"] rows ∧
    after = TaskRepository.put moved { before with
      verifications := before.verifications ++ [verification]
      auditEvents := before.auditEvents ++ rows }

/-- Everything the resolution of a recovery consists of.
SOURCE: recovery/service.py:304-334 -/
def ResolutionRecorded (task : Task) (attempt : RecoveryAttempt) (outcome : CompensationOutcome)
    (before after : Tables) (moved : Task) : Prop :=
  MovedBy (if outcome.restored then "recovered" else "recovery_failed") before task.id moved ∧
    ∃ rows,
      AddedRows task.id [if outcome.restored then "recovery.recovered" else "recovery.failed",
        "task.transition"] rows ∧
      after = TaskRepository.put moved { before with
        recoveryAttempts := Table.upsert RecoveryAttempt.id RecoveryAttemptRepository.merge
          { attempt with
            resolved := true
            recovered := some outcome.restored
            method := outcome.method
            explanation := outcome.explanation } before.recoveryAttempts
        auditEvents := before.auditEvents ++ rows }

/-- Everything a plan that is ready consists of; the intent is there already when it came from
`understand`.
SOURCE: planning/service.py:344-359 -/
def PlanRecorded (task : Task) (intent : Intent) (already : Bool) (plan : Plan)
    (before after : Tables) (moved : Task) : Prop :=
  ∃ old attached rows, Table.lookup Task.id before.tasks task.id = some old ∧
    attached = { old with planId := some plan.id } ∧
    MovedBy "plan_ready" (TaskRepository.put attached before) task.id moved ∧
    AddedRows task.id ["task.plan_attached", "task.transition", "planning.plan_ready"] rows ∧
    after = TaskRepository.put moved (TaskRepository.put attached { before with
      intents := if already then before.intents else before.intents ++ [intent]
      plans := Table.upsert Plan.id PlanRepository.merge (PlanRepository.row plan) before.plans
      planSteps := before.planSteps.filter (·.planId ≠ plan.id) ++
        plan.steps.map (PlanRepository.stepRow plan)
      auditEvents := before.auditEvents ++ rows })

section Blocks

variable {host : Host} {w t : World}

/-- INTERNAL: the body of the grant block, when it returns. -/
theorem returned_writeGrant (hw : 0 < w.depth) {task : Task} {decision : Decision}
    {assessment : RiskAssessment} {authorization : Authorization} {moved : Task}
    (h : (DecisionService.writeGrant host task decision assessment authorization).run w =
      (.ok moved, t)) :
    GrantRecorded task decision assessment authorization w.working t.working moved := by
  obtain ⟨_, w₁, h₁, h⟩ := Program.run_bind_ok h
  have hd₁ := (Nested.writeChecked _ _ _).depth hw h₁
  obtain ⟨_, w₂, h₂, h⟩ := Program.run_bind_ok h
  have hd₂ := (Nested.writeChecked _ _ _).depth hd₁ h₂
  obtain ⟨_, w₃, h₃, h⟩ := Program.run_bind_ok h
  have hd₃ := (Nested.writeChecked _ _ _).depth hd₂ h₃
  obtain ⟨_, w₄, h₄, h⟩ := Program.run_bind_ok h
  have hd₄ := (nested_audit host _).depth hd₃ h₄
  obtain ⟨_, w₅, h₅, h⟩ := Program.run_bind_ok h
  have hd₅ := (nested_audit host _).depth hd₄ h₅
  obtain ⟨_, w₆, h₆, h⟩ := Program.run_bind_ok h
  have hd₆ := (nested_audit host _).depth hd₅ h₆
  have hw₃ := returned_writeChecked hd₂ h₃
  rw [returned_writeChecked hd₁ h₂, returned_writeChecked hw h₁] at hw₃
  obtain ⟨row₁, hof₁, hw₄⟩ := returned_audit hd₃ h₄
  obtain ⟨row₂, hof₂, hw₅⟩ := returned_audit hd₄ h₅
  obtain ⟨row₃, hof₃, hw₆⟩ := returned_audit hd₅ h₆
  obtain ⟨old, row₄, hold, hnext, hid, hof₄, hworking⟩ := returned_advance hd₆ h
  rw [hw₆, hw₅, hw₄, hw₃] at hold hworking
  refine ⟨⟨old, hold, hnext, hid⟩, [row₁, row₂, row₃, row₄], ⟨?_, ?_⟩, ?_⟩
  · simp [hof₁.eventType, hof₂.eventType, hof₃.eventType, hof₄.eventType, DecisionService.entry,
      Orchestrator.transitionEntry, Orchestrator.entry]
  · simp [hof₁.taskId, hof₂.taskId, hof₃.taskId, hof₄.taskId, DecisionService.entry,
      Orchestrator.transitionEntry, Orchestrator.entry, hid]
  · rw [hworking]
    simp [withAudit, TaskRepository.put]

/-- INTERNAL: the body of the verification block, when it returns. -/
theorem returned_writeVerification (hw : 0 < w.depth) {task : Task} {tool : String}
    {outcome : VerificationOutcome} {verification : VerificationRecord} {moreSteps : Bool}
    {moved : Task}
    (h : (VerificationService.writeVerification host task tool outcome verification moreSteps).run w =
      (.ok moved, t)) :
    VerificationRecorded task outcome verification moreSteps w.working t.working moved := by
  obtain ⟨_, w₁, h₁, h⟩ := Program.run_bind_ok h
  have hd₁ := (Nested.writeChecked _ _ _).depth hw h₁
  obtain ⟨_, w₂, h₂, h⟩ := Program.run_bind_ok h
  have hd₂ := (nested_audit host _).depth hd₁ h₂
  have hw₁ := returned_writeChecked hw h₁
  obtain ⟨row₁, hof₁, hw₂⟩ := returned_audit hd₁ h₂
  obtain ⟨old, row₂, hold, hnext, hid, hof₂, hworking⟩ := returned_advance hd₂ h
  rw [hw₂, hw₁] at hold hworking
  refine ⟨⟨old, hold, hnext, hid⟩, [row₁, row₂], ⟨?_, ?_⟩, ?_⟩
  · simp [hof₁.eventType, hof₂.eventType, VerificationService.entry, Orchestrator.transitionEntry,
      Orchestrator.entry]
  · simp [hof₁.taskId, hof₂.taskId, VerificationService.entry, Orchestrator.transitionEntry, Orchestrator.entry,
      hid]
  · rw [hworking]
    simp [withAudit, TaskRepository.put]

/-- INTERNAL: the body of the resolution block, when it returns. -/
theorem returned_writeResolution (hw : 0 < w.depth) {task : Task} {attempt : RecoveryAttempt}
    {outcome : CompensationOutcome} {moved : Task}
    (h : (RecoveryService.writeResolution host task attempt outcome).run w = (.ok moved, t)) :
    ResolutionRecorded task attempt outcome w.working t.working moved := by
  obtain ⟨_, w₁, h₁, h⟩ := Program.run_bind_ok h
  have hd₁ := (Nested.writeChecked _ _ _).depth hw h₁
  obtain ⟨_, w₂, h₂, h⟩ := Program.run_bind_ok h
  have hd₂ := (nested_audit host _).depth hd₁ h₂
  have hw₁ := returned_writeChecked hw h₁
  obtain ⟨row₁, hof₁, hw₂⟩ := returned_audit hd₁ h₂
  obtain ⟨old, row₂, hold, hnext, hid, hof₂, hworking⟩ := returned_advance hd₂ h
  rw [hw₂, hw₁] at hold hworking
  refine ⟨⟨old, hold, hnext, hid⟩, [row₁, row₂], ⟨?_, ?_⟩, ?_⟩
  · simp [hof₁.eventType, hof₂.eventType, RecoveryService.entry, Orchestrator.transitionEntry,
      Orchestrator.entry]
  · simp [hof₁.taskId, hof₂.taskId, RecoveryService.entry, Orchestrator.transitionEntry, Orchestrator.entry,
      hid]
  · rw [hworking]
    simp [withAudit, TaskRepository.put]

/-- INTERNAL: the intent is saved unless it is there already. -/
theorem returned_saveIntent (hw : 0 < w.depth) {intent : Intent} {already : Bool} {a : Unit}
    (h : (PlanningService.saveIntent intent already).run w = (.ok a, t)) :
    t.working = { w.working with
      intents := if already then w.working.intents else w.working.intents ++ [intent] } := by
  cases already with
  | true =>
    obtain rfl : w = t := congrArg Prod.snd h
    rfl
  | false =>
    obtain ⟨u, hbody, hworking⟩ := returned_withUow hw
      (.bind (.requireSerializable _) fun _ => .executeChecked _ _ _) h
    obtain ⟨_, w₁, hjson, hstatement⟩ := Program.run_bind_ok hbody
    rw [hworking, returned_executeChecked hstatement, returned_requireSerializable hjson]
    rfl

/-- INTERNAL: the body of the planning block, when it returns. -/
theorem returned_writePlan (hw : 0 < w.depth) {task : Task} {requestId : String} {intent : Intent}
    {already : Bool} {plan : Plan} {moved : Task}
    (h : (PlanningService.writePlan host task requestId intent already plan).run w = (.ok moved, t)) :
    PlanRecorded task intent already plan w.working t.working moved := by
  obtain ⟨_, w₁, h₁, h⟩ := Program.run_bind_ok h
  have hd₁ := (nested_saveIntent intent already).depth hw h₁
  obtain ⟨_, w₂, h₂, h⟩ := Program.run_bind_ok h
  have hd₂ := (nested_savePlan plan).depth hd₁ h₂
  obtain ⟨attached, w₃, h₃, h⟩ := Program.run_bind_ok h
  have hd₃ := (nested_attachPlan host _ _).depth hd₂ h₃
  obtain ⟨ready, w₄, h₄, h⟩ := Program.run_bind_ok h
  have hd₄ := (nested_advance host _ _).depth hd₃ h₄
  obtain ⟨_, w₅, h₅, h⟩ := Program.run_bind_ok h
  obtain ⟨hready, rfl⟩ := Prod.mk.inj h
  obtain rfl := Except.ok.inj hready
  have hw₂ := returned_savePlan hd₁ h₂
  rw [returned_saveIntent hw h₁] at hw₂
  obtain ⟨old, row₁, hold, hattached, htype₁, hof₁, hw₃⟩ := returned_attachPlan hd₂ h₃
  obtain ⟨old', row₂, hold', hnext, hid, hof₂, hw₄⟩ := returned_advance hd₃ h₄
  obtain ⟨row₃, hof₃, hw₅⟩ := returned_audit hd₄ h₅
  rw [hw₂] at hold hw₃
  rw [hw₃] at hold' hw₄
  rw [hw₄] at hw₅
  refine ⟨old, attached, [row₁, row₂, row₃], hold, hattached, ⟨old', hold', hnext, hid⟩, ⟨?_, ?_⟩,
    ?_⟩
  · simp [htype₁, hof₂.eventType, hof₃.eventType, PlanningService.entry,
      Orchestrator.transitionEntry, Orchestrator.entry]
  · simp [hof₁, hof₂.taskId, hof₃.taskId, PlanningService.entry, Orchestrator.transitionEntry,
      Orchestrator.entry, hid]
  · rw [hw₅]
    simp [withAudit, TaskRepository.put]

end Blocks

/-! ## All or nothing -/

/-- Called with no transaction open and whatever is refused in it, the program returns and everything
it records is committed, or it raises and the committed rows are as they were. -/
def AllOrNone {α : Type} (p : Proc α) (recorded : Tables → Tables → α → Prop) : Prop :=
  ∀ w : World, w.Idle → ∀ (faults : ℕ → Option Err) (i : ℕ),
    (∃ a t, p.faulty refusable faults i w = (.ok a, t) ∧ recorded w.committed t.committed a) ∨
    ∃ e t, p.faulty refusable faults i w = (.error e, t) ∧ t.committed = w.committed

section AllOrNone

variable {α β : Type}

/-- INTERNAL: a block around a nested body. -/
theorem AllOrNone.withUow {body : Proc α} {recorded : Tables → Tables → α → Prop} (hb : Nested body)
    (hrecorded : ∀ (w t : World) (a : α), 0 < w.depth → body.run w = (.ok a, t) →
      recorded w.working t.working a) : AllOrNone (Model.withUow body) recorded := by
  intro w hw faults i
  rcases faulty_withUow hb hw faults i with ⟨a, u, hbody, hout⟩ | ⟨e, t, hout, -, hsame⟩
  · have hwritten := hrecorded w.enter u a (Nat.succ_pos _) hbody
    rw [show w.enter.working = w.committed from hw.working] at hwritten
    exact .inl ⟨a, u.commit, hout, hwritten⟩
  · exact .inr ⟨e, t, hout, hsame⟩

/-- INTERNAL: what raises at once writes nothing. -/
theorem AllOrNone.throw {recorded : Tables → Tables → α → Prop} (e : Err) :
    AllOrNone (MonadExcept.throw e : Proc α) recorded :=
  fun w _ _ _ => .inr ⟨e, w, rfl, rfl⟩

/-- INTERNAL: what only reads may stand before it. -/
theorem AllOrNone.read {p : Proc α} {f : α → Proc β} {recorded : Tables → Tables → β → Prop}
    (hp : ∀ w : World, w.Idle → p.Endures refusable (fun _ _ => True)
      (fun _ t => t.Idle ∧ t.committed = w.committed) w)
    (hf : ∀ a, AllOrNone (f a) recorded) : AllOrNone (p >>= f) recorded := by
  intro w hw faults i
  obtain ⟨j, hbind⟩ := Program.faulty_bind refusable faults i p f w
  have hread := (hp w hw).faulty faults i
  rw [hbind]
  revert hread
  rcases p.faulty refusable faults i w with ⟨r, t⟩
  rintro ⟨hidle, hsame⟩
  cases r with
  | error e => exact .inr ⟨e, t, rfl, hsame⟩
  | ok a => exact (show t.committed = w.committed from hsame) ▸ hf a t hidle faults j

/-- INTERNAL: a value computed from the result. -/
theorem AllOrNone.map {p : Proc α} {g : α → β} {recorded : Tables → Tables → α → Prop}
    {recorded' : Tables → Tables → β → Prop} (hp : AllOrNone p recorded)
    (hg : ∀ before after a, recorded before after a → recorded' before after (g a)) :
    AllOrNone (p >>= fun a => Pure.pure (g a)) recorded' := by
  intro w hw faults i
  obtain ⟨j, hbind⟩ := Program.faulty_bind refusable faults i p (fun a => Pure.pure (g a)) w
  rw [hbind]
  rcases hp w hw faults i with ⟨a, t, hout, hrecorded⟩ | ⟨e, t, hout, hsame⟩
  · exact .inl ⟨g a, t, by rw [hout]; rfl, hg _ _ _ hrecorded⟩
  · exact .inr ⟨e, t, by rw [hout], hsame⟩

end AllOrNone

/-- INTERNAL: `verify` reads, asks the verifier and enters its block.
SOURCE: verification/service.py:82-150 -/
theorem allOrNone_verify (service : VerificationService) (host : Host) (task : Task)
    (moreSteps : Bool) :
    AllOrNone (service.verify host task moreSteps) fun before after result =>
      ∃ outcome, VerificationRecorded task outcome result.verification moreSteps before after
        result.task := by
  have hread : ∀ {α : Type} (view : World → α) (w : World), w.Idle →
      (Program.get view : Proc α).Endures refusable (fun _ _ => True)
        (fun _ t => t.Idle ∧ t.committed = w.committed) w :=
    fun view w hw => Program.endures_act trivial ⟨hw, rfl⟩ fun _ => ⟨hw, rfl⟩
  unfold VerificationService.verify
  split
  case isFalse => exact .throw _
  refine .read (hread _) fun found => ?_
  cases found with
  | none => exact .throw _
  | some record =>
    refine .read (hread _) fun instant => .read (fun w hw => ?_) fun outcome =>
      .read (fun w hw => ?_) fun recordId => ?_
    · rw [Program.endures_ofExcept]
      exact ⟨hw, rfl⟩
    · exact Program.endures_act trivial ⟨⟨hw.depth, hw.working⟩, rfl⟩ fun _ => ⟨hw, rfl⟩
    · refine .map (.withUow (nested_writeVerification host task _ _ _ _)
        fun w t a hw h => returned_writeVerification hw h) fun _ _ _ hrecorded => ⟨outcome, hrecorded⟩

/-- The service steps are atomic: the grant of an authorization, a verification, the resolution of a
recovery and the last block of planning each commit all their rows with the move of the task or leave
the database as it was, whichever of the calls inside raises.
SOURCE: decision/service.py:192-232, verification/service.py:82-150, recovery/service.py:304-334,
planning/service.py:344-359 -/
theorem service_steps_atomic (host : Host) :
    (∀ task decision assessment authorization,
      AllOrNone (withUow (DecisionService.writeGrant host task decision assessment authorization))
        (GrantRecorded task decision assessment authorization)) ∧
    (∀ (service : VerificationService) (task : Task) (moreSteps : Bool),
      AllOrNone (service.verify host task moreSteps) fun before after result =>
        ∃ outcome, VerificationRecorded task outcome result.verification moreSteps before after
          result.task) ∧
    (∀ task attempt outcome,
      AllOrNone (withUow (RecoveryService.writeResolution host task attempt outcome))
        (ResolutionRecorded task attempt outcome)) ∧
    ∀ task requestId intent already plan,
      AllOrNone (withUow (PlanningService.writePlan host task requestId intent already plan))
        (PlanRecorded task intent already plan) := by
  refine ⟨fun task decision assessment authorization => ?_,
    fun service task moreSteps => allOrNone_verify service host task moreSteps, ?_, ?_⟩
  · exact .withUow (nested_writeGrant host task decision assessment authorization)
      fun w t a hw h => returned_writeGrant hw h
  · intro task attempt outcome
    exact .withUow (nested_writeResolution host task attempt outcome)
      fun w t a hw h => returned_writeResolution hw h
  · intro task requestId intent already plan
    exact .withUow (nested_writePlan host task requestId intent already plan)
      fun w t a hw h => returned_writePlan hw h

/-- The state in which the first task has its plan. -/
def plannedFirst : World := plannedNote (.plain [] []) timingOut

/-- The grant block for that task. -/
def grantFirst : Proc Task :=
  withUow (DecisionService.writeGrant (.plain [] []) (firstTask plannedFirst)
    (DecisionService.decisionOf (firstTask plannedFirst) .safe .allowed ["data.read"] "decision")
    (DecisionService.assessmentOf (firstTask plannedFirst) (RiskEngine.assess {} {}) "assessment")
    { id := "authorization", taskId := (firstTask plannedFirst).id, granted := true,
      grantedBy := "system", expiresAt := some 0 })

/-- The block undisturbed, and the block with its twentieth step refused. -/
theorem service_steps_atomic_note :
    (∃ moved t, grantFirst.faulty refusable (fun _ => none) 0 plannedFirst = (.ok moved, t) ∧
      MovedBy "authorize_and_run" plannedFirst.committed (firstTask plannedFirst).id moved) ∧
    ∃ e t, grantFirst.faulty refusable
        (fun i => if i = 20 then some (.integrityError "refused") else none) 0 plannedFirst =
      (.error e, t) ∧ t.committed = plannedFirst.committed := by
  have hidle : plannedFirst.Idle := (resting_of_operations
    ((History.start : History (operations (.plain [] [])) {} {}).returned_void
      (Operation.createAndPlan (notesPlanning timingOut)
        { sessionId := "session", requestText := "note" }))).idle
  have hruns : (grantFirst.faulty refusable (fun _ => none) 0 plannedFirst).1.isOk = true ∧
      (grantFirst.faulty refusable
        (fun i => if i = 20 then some (.integrityError "refused") else none) 0
          plannedFirst).1.isOk = false := by
    decide +kernel
  have hatomic := (service_steps_atomic (.plain [] [])).1 (firstTask plannedFirst)
    (DecisionService.decisionOf (firstTask plannedFirst) .safe .allowed ["data.read"] "decision")
    (DecisionService.assessmentOf (firstTask plannedFirst) (RiskEngine.assess {} {}) "assessment")
    { id := "authorization", taskId := (firstTask plannedFirst).id, granted := true,
      grantedBy := "system", expiresAt := some 0 } plannedFirst hidle
  constructor
  · rcases hatomic (fun _ => none) 0 with ⟨moved, t, hout, hrecorded⟩ | ⟨e, t, hout, -⟩
    · exact ⟨moved, t, hout, hrecorded.1⟩
    · have hok := hruns.1
      rw [show grantFirst.faulty refusable (fun _ => none) 0 plannedFirst = _ from hout] at hok
      cases hok
  · rcases hatomic (fun i => if i = 20 then some (.integrityError "refused") else none) 0 with
      ⟨moved, t, hout, -⟩ | ⟨e, t, hout, hsame⟩
    · have hraised := hruns.2
      rw [show grantFirst.faulty refusable _ 0 plannedFirst = _ from hout] at hraised
      cases hraised
    · exact ⟨e, t, hout, hsame⟩

end Shea.Analysis
