import Shea.Analysis.FailedTasks

/-!
# Resolution of blocked tasks

`resolve_blocked` asks the authority of a recovery before it moves the task, for a cancellation as for
a resumption. A task that was blocked while it was planned has no decision and no authorization, and one
whose authorization is older than an hour has none that still holds: neither can be resolved.
-/

set_option autoImplicit false

namespace Shea.Analysis

open Shea.Computation Shea.Model

section Blocked

variable {service : RecoveryService} {host : Host} {task : Task} {w : World}

/-- Where a resolution leads. -/
def resolvedState (resume : Bool) : TaskState := if resume then .ready else .cancelled

/-- `resolve_blocked` moves the task, whichever way it is asked to. -/
def Resolvable (service : RecoveryService) (host : Host) (task : Task) (w : World) : Prop :=
  ∀ resume : Bool, ∃ moved t, (service.resolveBlocked host task resume).run w = (.ok moved, t) ∧
    storedState t.committed task.id = some (resolvedState resume)

/-- INTERNAL: the move of a resolution is legal. -/
theorem nextState_resolved (resume : Bool) :
    nextState .blocked (if resume then "unblock" else "cancel") = .ok (resolvedState resume) := by
  cases resume <;> rfl

/-- INTERNAL: after the authority has allowed it, nothing stops a resolution.
SOURCE: recovery/service.py:372-385 -/
theorem succeeds_resolution (hw : Ordered host w) (hstate : task.state = .blocked)
    (hrow : Table.lookup Task.id w.working.tasks task.id = some task) (resume : Bool) :
    Succeeds host (do
        audit host (RecoveryService.entry "recovery.manager" "recovery.blocked_resolved"
          "resolve_blocked" (if resume then "resumed" else "cancelled") task
          [("resumed", .bool resume)])
        Orchestrator.advance host task.id (if resume then "unblock" else "cancel"))
      (fun _ rows => storedState rows task.id = some (resolvedState resume)) w := by
  refine (succeeds_audit hw (by rfl)).bind fun _ t ht hrows => ?_
  have hrow' : Table.lookup Task.id t.working.tasks task.id = some task := by
    rw [hrows]
    exact hrow
  refine (succeeds_advance ht.toOrdered hrow'
    (by rw [hstate]; exact nextState_resolved resume)).mono fun _ rows h => ?_
  exact h.2.2.2.storedState hrow'

/-- A BLOCKED task can be resolved exactly when its newest decision and authorization are on file and
still cover a recovery: the authorization was granted and has not expired, and the policy allows an
attempt at all.
SOURCE: recovery/service.py:188-207, 356-385, recovery/authority.py:24-70 -/
theorem blocked_resolvable_iff (h : History (services host) {} w)
    (hrow : Table.lookup Task.id w.committed.tasks task.id = some task)
    (hstate : task.state = .blocked) :
    Resolvable service host task w ↔ Covered service host task.id 0 w := by
  have hsound := Sound.of_services h
  have hoperation : "resolve_blocked" ∈ RecoveryAuthority.defaultOperations := by decide
  have hauthorize := run_authorize service host task 0 w hoperation
  have hunfold : ∀ resume, (service.resolveBlocked host task resume).run w =
      (service.resolveStuck host task resume).run w := by
    intro resume
    unfold RecoveryService.resolveBlocked
    rw [if_pos hstate]
  rcases hauthorize with ⟨hcovered, authority, hrun⟩ | ⟨hcovered, e, n, hrun⟩
  · refine iff_of_true (fun resume => ?_) hcovered
    have hlater : Sequel host w { w with ticks := w.ticks + 2 } :=
      hsound.ordered.sequel_of_eq rfl rfl rfl le_rfl
    have hrow' : Table.lookup Task.id w.working.tasks task.id = some task := by
      rw [hsound.idle.working]
      exact hrow
    obtain ⟨moved, t, hmoved, hsequel, hresolved⟩ :=
      succeeds_resolution hlater.toOrdered hstate hrow' resume
    refine ⟨moved, t, ?_, ?_⟩
    · rw [hunfold]
      unfold RecoveryService.resolveStuck
      rw [Program.run_bind, hrun]
      exact hmoved
    · rw [(hlater.trans hsequel).committed hsound.idle]
      exact hresolved
  · refine iff_of_false (fun hresolvable => ?_) hcovered
    obtain ⟨moved, t, hmoved, -⟩ := hresolvable false
    rw [hunfold] at hmoved
    unfold RecoveryService.resolveStuck at hmoved
    rw [Program.run_bind, hrun] at hmoved
    cases hmoved

end Blocked

/-! ## Two blocked tasks -/

/-- A planning service that is not sure about notes. -/
def unsurePlanning : PlanningService :=
  { parser := { matcher := { rules :=
      [("note", { type := "note", goal := "take a note", confidence := .finite 0 0 })] } } }

/-- The state after a vague request has blocked its task. -/
def vagueNote : World :=
  (unsurePlanning.createAndPlan (.plain [] []) { sessionId := "session", requestText := "note" } |>.run
    {}).2

/-- The resolution of its task. -/
def resolutionOfVague (resume : Bool) : Except Err Task × World :=
  (notesRecovery.resolveBlocked (.plain [] []) (firstTask vagueNote) resume).run vagueNote

/-- A request that is too vague to plan blocks its task, and there is no decision to derive an authority
from: it can be neither cancelled nor resumed.
SOURCE: planning/service.py:375-387, recovery/service.py:188-207 -/
theorem vague_note_not_resolvable :
    History (services (.plain [] [])) {} vagueNote ∧
      storedState vagueNote.committed (firstTask vagueNote).id = some .blocked ∧
      (resolutionOfVague false).1 =
        .error (.recoveryAuthority (firstTask vagueNote).id "no decision on file") ∧
      ¬ Resolvable notesRecovery (.plain [] []) (firstTask vagueNote) vagueNote := by
  have hrun : storedState vagueNote.committed (firstTask vagueNote).id = some .blocked ∧
      (resolutionOfVague false).1 =
        .error (.recoveryAuthority (firstTask vagueNote).id "no decision on file") := by
    decide +kernel
  have hhistory : History (services (.plain [] [])) {} vagueNote :=
    (History.start : History (services (.plain [] [])) {} {}).returned_void
      (.operation (.createAndPlan unsurePlanning { sessionId := "session", requestText := "note" }))
  refine ⟨hhistory, hrun.1, hrun.2, fun hresolvable => ?_⟩
  obtain ⟨moved, t, hmoved, -⟩ := hresolvable false
  have herror := hrun.2
  rw [show resolutionOfVague false = (.ok moved, t) from hmoved] at herror
  cases herror

/-- A handler that loses its backend. -/
def losing : ToolHandler := fun _ _ => .error (.unknownOutcome "lost")

/-- The first task, authorized to take its note. -/
def authorizedToLose : World := authorizedNote (.plain [] []) (plannedNote (.plain [] []) losing)

/-- The state after nobody knows whether the note was taken. -/
def lostNote : World :=
  (((notesExecution losing).execute (.plain [] []) (firstTask authorizedToLose) noteRequest).run
    authorizedToLose).2

/-- The resolution of its task. -/
def resolutionOfLost (resume : Bool) : Except Err Task × World :=
  (notesRecovery.resolveBlocked (.plain [] []) (firstTask lostNote) resume).run lostNote

/-- INTERNAL: it works both ways. -/
theorem lostNote_resolvable :
    Table.lookup Task.id lostNote.committed.tasks (firstTask lostNote).id =
        some (firstTask lostNote) ∧
      (firstTask lostNote).state = .blocked ∧
      Resolvable notesRecovery (.plain [] []) (firstTask lostNote) lostNote := by
  have hrun : Table.lookup Task.id lostNote.committed.tasks (firstTask lostNote).id =
        some (firstTask lostNote) ∧ (firstTask lostNote).state = .blocked ∧
      ∀ resume, (resolutionOfLost resume).1.isOk = true ∧
        storedState (resolutionOfLost resume).2.committed (firstTask lostNote).id =
          some (resolvedState resume) := by
    decide +kernel
  refine ⟨hrun.1, hrun.2.1, fun resume => ?_⟩
  obtain ⟨hok, hstate⟩ := hrun.2.2 resume
  revert hok hstate
  generalize hout : resolutionOfLost resume = out
  obtain ⟨r, t⟩ := out
  intro hok hstate
  cases r with
  | error e => cases hok
  | ok moved => exact ⟨moved, t, hout, hstate⟩

/-- So the grant on file still covers it. -/
theorem lost_note_covered :
    Covered notesRecovery (.plain [] []) (firstTask lostNote).id 0 lostNote := by
  have hplanned := (History.start : History (services (.plain [] [])) {} {}).returned_void
    (.operation (.createAndPlan (notesPlanning losing)
      { sessionId := "session", requestText := "note" }))
  have hauthorized := hplanned.returned_void (.operation (.evaluateAndAuthorize {}
    (firstTask (plannedNote (.plain [] []) losing)) { capabilities := ["data.read"] }))
  have hhistory : History (services (.plain [] [])) {} lostNote :=
    hauthorized.returned_void (.operation (.execute (notesExecution losing) _ noteRequest))
  obtain ⟨hrow, hstate, hresolvable⟩ := lostNote_resolvable
  exact (blocked_resolvable_iff hhistory hrow hstate).mp hresolvable

end Shea.Analysis
