import Shea.Analysis.OneShot

/-!
# What an authorization is bound to

A task is executed on its newest authorization, which has to fit the profile of the task and the stored
plan. The check of the profile does its work for every profile but the system's, which fits all. The
decision service writes the system's profile into each authorization it grants, whatever it was
called with.
-/

set_option autoImplicit false

namespace Shea.Analysis

open Shea.Computation Shea.Model

/-! ## The profile -/

/-- The execution raises before the supervisor is called. -/
def RaisesEarly (service : ExecutionService) (host : Host) (task : Task) (request : ToolRequest)
    (w : World) : Prop :=
  task.state = .running → ∃ e t, (service.prepare host task request).run w = (.error e, t)

/-- The authorization has the profile, and stops the executions for every other one. -/
def Isolated (host : Host) (profileId : String) (auth : Authorization) : Prop :=
  auth.profileId = profileId ∧
    ∀ (service : ExecutionService) (task : Task) (request : ToolRequest) (w : World), w.Idle →
      (AuthorizationRepository.ofTables w.committed task.id).getLast? = some auth →
      profileId ≠ "system" → activeProfile task ≠ .str profileId →
      RaisesEarly service host task request w

section Profiles

variable {host : Host} {w t : World}

/-- Such a call raises, and has called no handler. -/
theorem RaisesEarly.execute {service : ExecutionService} {task : Task} {request : ToolRequest}
    (h : RaisesEarly service host task request w) :
    ∃ e t, (service.execute host task request).run w = (.error e, t) ∧
      (t = w ∨ (service.prepare host task request).run w = (.error e, t)) := by
  unfold ExecutionService.execute
  split
  case isTrue hrunning =>
    obtain ⟨e, t, hprepare⟩ := h hrunning
    refine ⟨e, t, ?_, .inr hprepare⟩
    unfold ExecutionService.carryOut
    rw [Program.run_bind, hprepare]
  case isFalse => exact ⟨_, w, rfl, .inl rfl⟩

/-- An authorization for one profile stops the executions for every other one.
SOURCE: execution/service.py:499-506 -/
theorem raisesEarly_of_foreign {service : ExecutionService} {task : Task} {request : ToolRequest}
    {auth : Authorization} (hw : w.Idle)
    (hnewest : (AuthorizationRepository.ofTables w.committed task.id).getLast? = some auth)
    (hown : auth.profileId ≠ "system") (hforeign : activeProfile task ≠ .str auth.profileId) :
    RaisesEarly service host task request w := by
  intro _
  cases hrun : (service.prepare host task request).run w with
  | mk r t =>
    cases r with
    | error e => exact ⟨e, t, rfl⟩
    | ok contract =>
      obtain ⟨cleared, u, hfound, hcleared, -⟩ := prepare_cleared hw hrun
      obtain rfl := Option.some.inj (hfound.symm.trans hnewest)
      have hprofile := hcleared.profile
      unfold checkProfile at hprofile
      rw [if_pos ⟨hforeign.symm, hown⟩] at hprofile
      cases hprofile

/-- An authorization with the profile it was asked for is isolated. -/
theorem isolated_of_profile {profileId : String} {auth : Authorization}
    (h : auth.profileId = profileId) : Isolated host profileId auth := by
  refine ⟨h, fun service task request w hw hnewest hown hforeign => ?_⟩
  rw [← h] at hown hforeign
  exact raisesEarly_of_foreign hw hnewest hown hforeign

/-- The newest authorization of a task after a grant. -/
theorem newest_granted {service : DecisionService} {task : Task} {request : AuthorizationRequest}
    {outcome : DecisionOutcome} (hw : RestingDrawn host w)
    (h : (service.evaluateAndAuthorize host task request).run w = (.ok outcome, t)) :
    (AuthorizationRepository.ofTables t.committed task.id).getLast? = some outcome.authorization ∧
      outcome.authorization.profileId = "system" := by
  have hends := (sat_evaluateAndAuthorize service task request hw.1 hw.2).run
  rw [h] at hends
  obtain ⟨hrows, htask, hprofile, -⟩ := hends outcome rfl
  refine ⟨?_, hprofile⟩
  have hlast : [outcome.authorization].filter (·.taskId = task.id) = [outcome.authorization] :=
    List.filter_eq_self.mpr fun row hrow => by
      rw [List.mem_singleton.mp hrow]
      exact decide_eq_true htask
  unfold AuthorizationRepository.ofTables
  rw [hrows, List.filter_append, hlast, List.getLast?_concat]

/-- A grant persists an authorization that is isolated if and only if it was asked for the profile of
the system.
SOURCE: decision/service.py:121-190 -/
theorem grant_isolated_iff {service : DecisionService} {task : Task} {request : AuthorizationRequest}
    {outcome : DecisionOutcome} (hw : History (operations host) {} w)
    (h : (service.evaluateAndAuthorize host task request).run w = (.ok outcome, t)) :
    (∃ auth, (AuthorizationRepository.ofTables t.committed task.id).getLast? = some auth ∧
      auth.id = outcome.authorization.id ∧ Isolated host request.profileId auth) ↔
    request.profileId = "system" := by
  obtain ⟨hnewest, hprofile⟩ := newest_granted (restingDrawn_of_operations hw) h
  constructor
  · rintro ⟨auth, hauth, -, hown, -⟩
    obtain rfl := Option.some.inj (hauth.symm.trans hnewest)
    exact hown.symm.trans hprofile
  · intro hsystem
    exact ⟨_, hnewest, rfl, isolated_of_profile (hprofile.trans hsystem.symm)⟩

end Profiles

/-- The note, planned for a user's profile. -/
def plannedFor (profileId : String) : World :=
  ((notesPlanning answering).createAndPlan (.plain [] [])
    { sessionId := "session", requestText := "note", profileId := profileId } |>.run {}).2

/-- The note planned for a profile is reached by calls of the services. -/
theorem history_plannedFor (profileId : String) :
    History (operations (.plain [] [])) {} (plannedFor profileId) :=
  History.start.returned_void (Operation.createAndPlan (notesPlanning answering)
    { sessionId := "session", requestText := "note", profileId := profileId })

/-- The authorization of that note, asked for by a profile. -/
def grantFor (planned profileId : String) : Except Err DecisionOutcome × World :=
  (DecisionService.evaluateAndAuthorize {} (.plain [] []) (firstTask (plannedFor planned))
    { capabilities := ["data.read"], profileId := profileId }).run (plannedFor planned)

/-- INTERNAL: a grant that returns. -/
theorem grantFor_eq (planned profileId : String)
    (h : (grantFor planned profileId).1.toOption.isSome = true) :
    ∃ outcome, grantFor planned profileId = (.ok outcome, (grantFor planned profileId).2) := by
  cases hrun : grantFor planned profileId with
  | mk r t =>
    rw [hrun] at h
    cases r with
    | error e => cases h
    | ok outcome => exact ⟨outcome, rfl⟩

/-- The system's own authorizations are isolated, since there is nothing to isolate. -/
theorem system_grant_isolated :
    ∃ outcome t, grantFor "system" "system" = (.ok outcome, t) ∧
      ∃ auth, (AuthorizationRepository.ofTables t.committed
          (firstTask (plannedFor "system")).id).getLast? = some auth ∧
        auth.id = outcome.authorization.id ∧ Isolated (.plain [] []) "system" auth := by
  obtain ⟨outcome, hgrant⟩ := grantFor_eq "system" "system"
    (by decide +kernel)
  exact ⟨outcome, _, hgrant, (grant_isolated_iff (history_plannedFor "system") hgrant).mpr rfl⟩

/-- An authorization asked for by one profile carries out the task of another. -/
theorem alice_grant_runs_for_bob :
    ∃ outcome t, grantFor "bob" "alice" = (.ok outcome, t) ∧
      activeProfile (firstTask t) = .str "bob" ∧
      (((notesExecution answering).execute (.plain [] []) (firstTask t) noteRequest).run t).1.isOk =
        true ∧
      ¬ ∃ auth, (AuthorizationRepository.ofTables t.committed
          (firstTask (plannedFor "bob")).id).getLast? = some auth ∧
        auth.id = outcome.authorization.id ∧ Isolated (.plain [] []) "alice" auth := by
  have hruns : (grantFor "bob" "alice").1.toOption.isSome = true ∧
      activeProfile (firstTask (grantFor "bob" "alice").2) = .str "bob" ∧
      (((notesExecution answering).execute (.plain [] []) (firstTask (grantFor "bob" "alice").2)
        noteRequest).run (grantFor "bob" "alice").2).1.isOk = true := by decide +kernel
  obtain ⟨hok, hprofile, hexecuted⟩ := hruns
  obtain ⟨outcome, hgrant⟩ := grantFor_eq "bob" "alice" hok
  refine ⟨outcome, _, hgrant, hprofile, hexecuted, ?_⟩
  rintro ⟨auth, hauth, -, hown, -⟩
  obtain ⟨hnewest, hsystem⟩ := newest_granted
    (restingDrawn_of_operations (history_plannedFor "bob")) hgrant
  obtain rfl := Option.some.inj (hauth.symm.trans hnewest)
  rw [hsystem] at hown
  exact absurd hown (by decide)

end Shea.Analysis
