import Shea.Analysis.TaskStates
import Shea.Analysis.Operations

/-!
# Rejected transitions

`advance` audits a rejected transition before it raises. Called with no transaction open, the row is
committed at once. Called from inside a block, the row is one more write of that block, and the
exception that follows it rolls the block back, the row included.
-/

set_option autoImplicit false

namespace Shea.Analysis

open Shea.Computation Shea.Model

/-- A block of a service around a call: what it does before the call and after it. -/
structure Block where
  before : Proc Unit
  after : Task → Proc Task

/-- A call inside blocks, the outermost first. -/
def inBlocks : List Block → Proc Task → Proc Task
  | [], call => call
  | block :: rest, call => withUow do
      block.before
      let task ← inBlocks rest call
      block.after task

/-- The state in which the call is made, if every block gets that far. -/
inductive Reaches : List Block → World → World → Prop
  | here (w : World) : Reaches [] w w
  | inside {block : Block} {rest : List Block} {w t u : World}
      (hbefore : block.before.run w.enter = (.ok (), t)) (hrest : Reaches rest t u) :
      Reaches (block :: rest) w u

/-- What may stand in a block of a service. -/
structure Block.Proper (block : Block) : Prop where
  before : Inner block.before
  after : ∀ task, Inner (block.after task)

/-- The audit row records that the event was refused for the task. -/
structure RecordsRejection (taskId event : String) (row : AuditEvent) : Prop where
  eventType : row.eventType = "task.transition.rejected"
  taskId : row.taskId = some taskId
  action : row.action = event
  result : row.result = "illegal_transition"

/-- Among the committed audit rows that were added, one records the rejection. -/
def RejectionCommitted (taskId event : String) (w t : World) : Prop :=
  ∃ added row, t.committed.auditEvents = w.committed.auditEvents ++ added ∧ row ∈ added ∧
    RecordsRejection taskId event row

/-- INTERNAL: a move of a task may stand inside a transaction. -/
theorem inner_advance (host : Host) (taskId event : String) :
    Inner (Orchestrator.advance host taskId event) := by
  have h : Serves (fun _ : Tables => ()) (Orchestrator.advance host taskId event) :=
    serves_advance ⟨fun _ _ => rfl, fun _ _ => rfl⟩ host taskId event
  exact h.inner

/-- INTERNAL: proper blocks around an inner call are inner. -/
theorem inner_inBlocks {blocks : List Block} (hblocks : ∀ block ∈ blocks, block.Proper)
    {call : Proc Task} (hcall : Inner call) : Inner (inBlocks blocks call) := by
  induction blocks with
  | nil => exact hcall
  | cons block rest ih =>
    have hblock := hblocks block (List.mem_cons_self ..)
    have hrest := ih fun b hb => hblocks b (List.mem_cons_of_mem _ hb)
    exact .withUow (.bind hblock.before fun _ => .bind hrest hblock.after)

/-- INTERNAL: an exception of the call leaves every block around it. -/
theorem run_inBlocks_error {blocks : List Block} {call : Proc Task} {w u : World}
    (hreach : Reaches blocks w u) {e : Err} (hcall : (call.run u).1 = .error e) :
    ((inBlocks blocks call).run w).1 = .error e := by
  induction hreach with
  | here w => exact hcall
  | @inside block rest w t u hbefore hrest ih =>
    have hinner := ih hcall
    unfold inBlocks withUow
    simp only [Program.run_bind, Program.run_modify, Program.run_attempt, hbefore]
    revert hinner
    generalize (inBlocks rest call).run t = outcome
    obtain ⟨r, t'⟩ := outcome
    rintro rfl
    rfl

/-! ## Where a rejection comes from -/

/-- The exception is not the rejection of a transition. -/
def Otherwise (e : Err) : Prop := ∀ state event, e ≠ .illegalTransition state event

/-- INTERNAL: a block raises what its body raises. -/
theorem throws_withUow {α : Type} {P : Err → Prop} {body : Proc α} (h : body.Throws P) :
    (withUow body).Throws P := by
  refine Program.throws_bind (fun _ => trivial) fun _ =>
    Program.throws_attempt_bind h (fun a => ?_) fun e he => ?_
  · exact fun _ => trivial
  · exact fun _ => he

/-- INTERNAL: a column that is not JSON. -/
theorem throws_requireSerializable (d : Dict) : (requireSerializable d).Throws Otherwise := by
  unfold requireSerializable
  split
  · trivial
  · exact fun _ _ h => by cases h

/-- INTERNAL: recording an entry rejects no transition. -/
theorem throws_audit (host : Host) (entry : AuditEntry) : (audit host entry).Throws Otherwise := by
  refine fun _ _ => throws_withUow (Program.throws_bind (throws_requireSerializable _) fun _ =>
    Program.throws_bind (fun _ => trivial) fun ok => ?_)
  cases ok
  · exact fun _ _ h => by cases h
  · trivial

/-- INTERNAL: nor does an accepted move. -/
theorem throws_moveTask (host : Host) (task : Task) (event : String) (newState : TaskState) :
    (Orchestrator.moveTask host task event newState).Throws Otherwise := by
  have hsave : ∀ moved : Task, (TaskRepository.save moved).Throws Otherwise := fun moved =>
    throws_withUow (Program.throws_bind (throws_requireSerializable _) fun _ => fun _ => trivial)
  refine Program.throws_bind (fun _ => trivial) fun at_ => ?_
  refine Program.throws_bind (throws_withUow ?_) fun _ => fun _ _ _ => trivial
  exact Program.throws_bind (hsave _) fun _ => throws_audit host _

/-! ## With no transaction open -/

/-- INTERNAL: called with no transaction open, a rejected transition leaves one committed row.
SOURCE: core/orchestrator.py:105-118 -/
theorem rejectionCommitted_advance {host : Host} {taskId event : String} {w : World} (hw : w.Idle)
    {state : TaskState} (hraised : ((Orchestrator.advance host taskId event).run w).1 =
      .error (.illegalTransition state event)) :
    RejectionCommitted taskId event w ((Orchestrator.advance host taskId event).run w).2 := by
  have hsat : (Orchestrator.advance host taskId event).Sat (fun _ _ => True) (fun r t =>
      r = .error (.illegalTransition state event) → RejectionCommitted taskId event w t) w := by
    refine sat_getTask taskId hw trivial (fun _ h => by cases h) fun task hrow => ?_
    have hid : task.id = taskId := Table.lookup_eq_some_key hrow
    cases hnext : nextState task.state event with
    | error e =>
      have hthrows := throws_audit host (Orchestrator.rejectionEntry task event)
      rw [Program.sat_bind]
      refine (hthrows.sat (Q := fun r t => r = .ok () → RejectionCommitted taskId event w t)
        (sat_audit host _ hw (fun _ _ _ => trivial) ?_ fun _ _ _ h => by cases h)).post ?_
      · intro t hq hworking
        have hrows : t.commit.committed.auditEvents = w.committed.auditEvents ++
            [auditRow host (Orchestrator.rejectionEntry task event) w] := by
          show t.working.auditEvents = _
          rw [hworking]
          rfl
        exact ⟨trivial, fun _ => ⟨_, _, hrows, List.mem_singleton_self _, rfl, congrArg some hid,
          rfl, rfl⟩⟩
      · rintro (e' | u) t ⟨hok, herror⟩
        · exact fun hr => absurd (Except.error.inj hr) (herror e' rfl _ _)
        · exact fun _ => hok rfl
    | ok newState =>
      have hthrows := throws_moveTask host task event newState
      refine (hthrows.sat (Q := fun _ _ => True) (Program.sat_of_run trivial)).post ?_
      exact fun r t h hr => absurd rfl (h.2 _ hr state event)
  exact hsat.run hraised

/-! ## Inside blocks -/

/-- A rejected transition is durably audited exactly when `advance` was called with no block open.
Inside a block, whatever the block did before and would have done after, the row is rolled back with
the block.
SOURCE: core/orchestrator.py:95-118, persistence/sqlite/unit_of_work.py:32-49 -/
theorem rejection_committed_iff {host : Host} {taskId event : String} {blocks : List Block}
    (hblocks : ∀ block ∈ blocks, block.Proper) {w u : World} (hw : w.Idle)
    (hreach : Reaches blocks w u) {state : TaskState}
    (hraised : ((Orchestrator.advance host taskId event).run u).1 =
      .error (.illegalTransition state event)) :
    RejectionCommitted taskId event w
      ((inBlocks blocks (Orchestrator.advance host taskId event)).run w).2 ↔ blocks = [] := by
  have hpropagates := run_inBlocks_error hreach hraised
  cases hreach with
  | here => exact ⟨fun _ => rfl, fun _ => rejectionCommitted_advance hw hraised⟩
  | @inside block rest _ t _ hbefore hrest =>
    refine ⟨fun hcommitted => ?_, fun h => by cases h⟩
    have hbody : Inner (do
        block.before
        let task ← inBlocks rest (Orchestrator.advance host taskId event)
        block.after task) := by
      have hblock := hblocks block (List.mem_cons_self ..)
      have hinner := inner_inBlocks (fun b hb => hblocks b (List.mem_cons_of_mem _ hb))
        (inner_advance host taskId event)
      exact .bind hblock.before fun _ => .bind hinner hblock.after
    have hrolled : (withUow (do
        block.before
        let task ← inBlocks rest (Orchestrator.advance host taskId event)
        block.after task)).Sat (fun _ _ => True)
        (fun r t => ∀ e, r = .error e → t.committed = w.committed) w := by
      refine sat_withUow hbody hw (fun _ _ _ => trivial) ?_ ?_
      · exact fun a t _ _ => ⟨trivial, fun e he => by cases he⟩
      · exact fun e t _ hq e' _ => hq.committed
    have hsame := hrolled.run _ hpropagates
    obtain ⟨added, row, hrows, hmem, -⟩ := hcommitted
    have hnone : added = [] := by
      have hrows' := hrows
      rw [show ((inBlocks (block :: rest) (Orchestrator.advance host taskId event)).run w).2.committed
        = w.committed from hsame] at hrows'
      exact List.self_eq_append_right.mp hrows'
    rw [hnone] at hmem
    cases hmem

/-- A call of `advance` by itself, for a transition the state machine does not have. -/
theorem rejection_committed_direct :
    RejectionCommitted (firstTask authorizedFirst).id "retry" authorizedFirst
      ((inBlocks [] (Orchestrator.advance (.plain [] []) (firstTask authorizedFirst).id "retry")).run
        authorizedFirst).2 := by
  have hidle := (resting_of_operations history_authorizedFirst).idle
  have hblocks : ∀ block ∈ ([] : List Block), block.Proper := fun _ h => by cases h
  have hraised : ((Orchestrator.advance (.plain [] []) (firstTask authorizedFirst).id "retry").run
      authorizedFirst).1 = .error (.illegalTransition .running "retry") := by decide +kernel
  exact (rejection_committed_iff hblocks hidle (.here _) hraised).mpr rfl

/-- The second authorization of the first task. -/
def authorizedTwice : Except Err DecisionOutcome × World :=
  (DecisionService.evaluateAndAuthorize {} (.plain [] []) (firstTask authorizedFirst)
    { capabilities := ["data.read"] }).run authorizedFirst

/-- Authorizing a task that is RUNNING raises the rejection out of the block that records the grant,
and no audit row of it is left.
SOURCE: decision/service.py:192-232 -/
theorem rejection_lost_by_grant :
    authorizedTwice.1 = .error (.illegalTransition .running "authorize_and_run") ∧
      ¬ RejectionCommitted (firstTask authorizedFirst).id "authorize_and_run" authorizedFirst
        authorizedTwice.2 := by
  have h : authorizedTwice.1 = .error (.illegalTransition .running "authorize_and_run") ∧
      authorizedTwice.2.committed.auditEvents.all
        (fun row => row.eventType ≠ "task.transition.rejected") = true := by
    decide +kernel
  refine ⟨h.1, ?_⟩
  rintro ⟨added, row, hrows, hmem, hrejection⟩
  have hrow : row ∈ authorizedTwice.2.committed.auditEvents :=
    hrows ▸ List.mem_append_right _ hmem
  have hother := List.all_eq_true.mp h.2 row hrow
  exact absurd hrejection.eventType (of_decide_eq_true hother)

end Shea.Analysis
