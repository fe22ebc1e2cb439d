import Shea.Analysis.FailedTasks

/-!
# The gate of a decision

`evaluate_and_authorize` of a READY task grants, and moves it to RUNNING, exactly when the policy denies
none of the capabilities and the level of risk needs no acknowledgement that was not given. In every
other case it raises, and one audit row is all that is committed.

A larger set of capabilities meets at least the sets of the policy and of the risk engine that a smaller
one meets, so its level is at least as high: a denial goes up to it, and a grant without an
acknowledgement goes down from it.
-/

set_option autoImplicit false

namespace Shea.Analysis

open Shea.Computation Shea.Model

/-! ## The tables of the decision -/

section Tables

variable {a b : List String}

/-- INTERNAL: two lists meet in a common capability. -/
theorem meets_iff {set : List String} : meets a set = true ↔ ∃ capability ∈ a, capability ∈ set := by
  unfold meets
  rw [List.any_eq_true]
  simp only [decide_eq_true_iff]

/-- INTERNAL: more capabilities meet at least as much. -/
theorem meets_mono (h : a ⊆ b) {set : List String} (ha : meets a set = true) : meets b set = true := by
  obtain ⟨capability, hmem, hset⟩ := meets_iff.mp ha
  exact meets_iff.mpr ⟨capability, h hmem, hset⟩

/-- The policy denies when one capability is on its deny list. -/
theorem evaluate_eq_denied_iff (engine : PolicyEngine) (a : List String) :
    engine.evaluate a = .denied ↔ ∃ capability ∈ a, capability ∈ engine.denyCapabilities := by
  rw [← meets_iff]
  unfold PolicyEngine.evaluate
  split
  · next h => exact iff_of_true rfl h
  · next h =>
    refine iff_of_false ?_ h
    split <;> exact fun heq => by cases heq

/-- The level of risk the service assesses. -/
def assessedLevel (service : DecisionService) (request : AuthorizationRequest) : RiskLevel :=
  (service.risk.assess
    { capabilities := request.capabilities
      reversible := request.reversible
      externalContentInvolved := request.externalContentInvolved }).level

/-- The level of risk asks for an explicit acknowledgement. -/
def asksForAck (service : DecisionService) (request : AuthorizationRequest) : Bool :=
  (confirmationRuleFor (assessedLevel service request)).requiresExplicitAcknowledgement

/-- INTERNAL: an acknowledgement is asked for from three factors on.
SOURCE: decision/confirmation.py:33-44, decision/risk.py:58-65 -/
theorem explicit_iff (n : ℕ) :
    (confirmationRuleFor (levelByFactorCount n)).requiresExplicitAcknowledgement = true ↔ 3 ≤ n := by
  match n with
  | 0 => decide
  | 1 => decide
  | 2 => decide
  | 3 => decide
  | n + 4 => exact iff_of_true rfl (by omega)

/-- INTERNAL: a level that asks for an acknowledgement asks for an authorization.
SOURCE: decision/confirmation.py:33-44 -/
theorem requires_of_explicit {level : RiskLevel}
    (h : (confirmationRuleFor level).requiresExplicitAcknowledgement = true) :
    (confirmationRuleFor level).requiresAuthorization = true := by
  cases level <;> first | rfl | cases h

/-- INTERNAL: a list with an entry, or without. -/
theorem length_factor_mono {p q : Bool} (h : p = true → q = true) (text : String) :
    (if p then [text] else []).length ≤ (if q then [text] else []).length := by
  cases p with
  | false => exact Nat.zero_le _
  | true =>
    rw [h rfl]

/-- INTERNAL: more capabilities, more factors.
SOURCE: decision/risk.py:67-86 -/
theorem factors_mono (engine : RiskEngine) (reversible external : Bool) (h : a ⊆ b) :
    (engine.factors { capabilities := a, reversible, externalContentInvolved := external }).length ≤
      (engine.factors
        { capabilities := b, reversible, externalContentInvolved := external }).length := by
  unfold RiskEngine.factors
  simp only [List.length_append]
  have hmeets : ∀ set, meets a set = true → meets b set = true := fun _ => meets_mono h
  have helevated := length_factor_mono (hmeets engine.elevatedPrivilegeCapabilities)
    "Elevated privileges"
  have hnetwork := length_factor_mono (hmeets engine.networkCapabilities)
    "External network interaction"
  omega

end Tables

/-! ## The gate -/

/-- No capability is denied, and the acknowledgement was given or is not asked for. -/
def Permitted (service : DecisionService) (request : AuthorizationRequest) : Prop :=
  (∀ capability ∈ request.capabilities, capability ∉ service.policy.denyCapabilities) ∧
    (request.explicitUserAck = true ∨ asksForAck service request = false)

/-- The call returns a grant, everything it consists of is committed, and the task is RUNNING. -/
def Grants (service : DecisionService) (host : Host) (given : Task) (request : AuthorizationRequest)
    (w : World) : Prop :=
  ∃ outcome t, (service.evaluateAndAuthorize host given request).run w = (.ok outcome, t) ∧
    outcome.authorization.granted = true ∧
    GrantRecorded given outcome.decision outcome.riskAssessment outcome.authorization w.committed
      t.committed outcome.task ∧
    storedState t.committed given.id = some .running

/-- The call raises the error, and one audit row is all that is committed. -/
def RaisesAudited (service : DecisionService) (host : Host) (given : Task)
    (request : AuthorizationRequest) (w : World) (e : Err) : Prop :=
  ∃ t row, (service.evaluateAndAuthorize host given request).run w = (.error e, t) ∧
    t.committed = withAudit row w.committed

/-- The policy denies the request. -/
def Denies (service : DecisionService) (host : Host) (given : Task) (request : AuthorizationRequest)
    (w : World) : Prop :=
  ∃ capabilities, RaisesAudited service host given request w (.policyDenied given.id capabilities)

/-- The other request has the same flags, and no capability less. -/
structure Enlarges (request larger : AuthorizationRequest) : Prop where
  capabilities : request.capabilities ⊆ larger.capabilities
  reversible : larger.reversible = request.reversible
  externalContentInvolved : larger.externalContentInvolved = request.externalContentInvolved
  explicitUserAck : larger.explicitUserAck = request.explicitUserAck

section Gate

variable {host : Host} {w : World} {given task : Task} {request : AuthorizationRequest}

/-- INTERNAL: what an audit row says of the capabilities is JSON. -/
theorem serializable_entry (key : String) (texts : List String) :
    (Value.dict [(key, .list (texts.map Value.str))]).serializable = true := by
  have htexts := serializable_texts texts
  simp only [Value.serializable, Value.serializableDict, Bool.and_true] at *
  exact htexts

/-- INTERNAL: and what one says of the level and its factors. -/
theorem serializable_assessed (level : String) (factors : List String) :
    (Value.dict [("level", .str level), ("factors", .list (factors.map Value.str))]).serializable =
      true := by
  have htexts := serializable_texts factors
  simp only [Value.serializable, Value.serializableDict, Bool.and_true, Bool.true_and] at *
  exact htexts

/-- INTERNAL: a denial is audited and raised.
SOURCE: decision/service.py:121-147 -/
theorem raises_deny (hw : Ordered host w) (service : DecisionService) (capabilities : List String) :
    Raises host (service.deny host given capabilities)
      (.policyDenied given.id (capabilities.filter (· ∈ service.policy.denyCapabilities)))
      (fun rows => ∃ row, rows = withAudit row w.working) w :=
  (Succeeds.withUow (succeeds_audit hw.enter (serializable_entry _ _))).bind_raises
    fun _ _ ht hrows => .throw ht.toOrdered ⟨_, hrows⟩

/-- INTERNAL: a grant draws its id and writes nothing. -/
theorem succeeds_grant (hw : Ordered host w) (binding : Binding) (expiresAt : Time)
    (grantedBy : String) (explicit : Bool) :
    Succeeds host (DecisionService.grant host given binding expiresAt grantedBy explicit)
      (fun authorization rows => authorization.granted = true ∧ authorization.taskId = given.id ∧
        authorization.expiresAt = some expiresAt ∧ rows = w.working) w :=
  succeeds_drawn hw fun hdrawn => .pure hdrawn ⟨rfl, rfl, rfl, rfl⟩

/-- INTERNAL: what the authorization is bound to is read, and nothing written. -/
theorem succeeds_resolvedPlan (hw : Ordered host w) (plan : Option Plan) :
    Succeeds host (DecisionService.resolvedPlan given plan) (fun _ rows => rows = w.working) w := by
  unfold DecisionService.resolvedPlan
  split
  · exact .pure hw rfl
  · split
    · exact .query hw rfl
    · exact .pure hw rfl

variable {decision : Decision} {assessment : RiskAssessment}

/-- INTERNAL: with an acknowledgement, or where none is asked for, there is an authorization.
SOURCE: decision/service.py:238-303 -/
theorem succeeds_resolveAuthorization (hw : Ordered host w)
    (hpermitted : request.explicitUserAck = true ∨
      decision.requiresExplicitAcknowledgement = false) :
    Succeeds host (DecisionService.resolveAuthorization host given decision assessment request)
      (fun authorization rows => authorization.granted = true ∧ authorization.taskId = given.id ∧
        authorization.expiresAt.isSome = true ∧ rows = w.working) w := by
  refine (succeeds_resolvedPlan hw request.plan).bind fun plan t ht hrows => ?_
  refine (Succeeds.get ht.toOrdered (Q := fun _ rows => rows = w.working) hrows).bind
    fun nonce u hu hrows => ?_
  refine (succeeds_now hu.toOrdered (Q := fun _ rows => rows = w.working) hrows).bind
    fun at_ v hv hrows => ?_
  have hgrant : ∀ grantedBy explicit, Succeeds host (DecisionService.grant host given
      (DecisionService.bindingOf host.py nonce request.step request.arguments plan) (at_ + oneHour)
      grantedBy explicit) (fun authorization rows => authorization.granted = true ∧
        authorization.taskId = given.id ∧ authorization.expiresAt.isSome = true ∧
        rows = w.working) v := by
    intro grantedBy explicit
    refine (succeeds_grant hv.toOrdered _ _ grantedBy explicit).mono fun authorization rows h => ?_
    obtain ⟨hgranted, hof, hexpires, hkept⟩ := h
    exact ⟨hgranted, hof, hexpires ▸ rfl, hkept.trans hrows⟩
  unfold DecisionService.decide
  split
  · exact hgrant _ _
  · split
    · exact hgrant _ _
    · next hnoack =>
      split
      · exact hgrant _ _
      · next hasks =>
        rcases hpermitted with hack | hfree
        · exact absurd hack hnoack
        · rw [hfree] at hasks
          exact absurd rfl hasks

/-- INTERNAL: without one, the missing acknowledgement is audited and raised.
SOURCE: decision/service.py:304-315 -/
theorem raises_resolveAuthorization (given : Task) (assessment : RiskAssessment)
    (hw : Ordered host w) (hnoack : request.explicitUserAck = false)
    (hrequires : decision.requiresAuthorization = true)
    (hasks : decision.requiresExplicitAcknowledgement = true) :
    Raises host (DecisionService.resolveAuthorization host given decision assessment request)
      (.authorizationRequired given.id decision assessment)
      (fun rows => ∃ row, rows = withAudit row w.working) w := by
  refine (succeeds_resolvedPlan hw request.plan).bind_raises fun plan t ht hrows => ?_
  refine (Succeeds.get ht.toOrdered (Q := fun _ rows => rows = w.working) hrows).bind_raises
    fun nonce u hu hrows => ?_
  refine (succeeds_now hu.toOrdered (Q := fun _ rows => rows = w.working) hrows).bind_raises
    fun at_ v hv hrows => ?_
  unfold DecisionService.decide
  rw [hrequires, hnoack, hasks]
  refine (Succeeds.withUow (succeeds_audit hv.enter (by rfl))).bind_raises fun _ x hx haudit =>
    .throw hx.toOrdered ⟨_, haudit.trans (congrArg _ hrows)⟩

/-- INTERNAL: the transaction of a grant is never refused while the task is READY.
SOURCE: decision/service.py:186-236 -/
theorem succeeds_writeGrant (hw : Ordered host w) {authorization : Authorization}
    (hrow : Table.lookup Task.id w.working.tasks given.id = some task) (hready : task.state = .ready)
    (hdecision : decision.taskId = given.id) (hassessment : assessment.taskId = given.id)
    (hof : authorization.taskId = given.id) (hexpires : authorization.expiresAt.isSome = true) :
    Succeeds host (DecisionService.writeGrant host given decision assessment authorization)
      (fun _ _ => True) w := by
  have hid : task.id = given.id := Table.lookup_eq_some_key hrow
  have hstored : ∀ {t : Tables}, t.tasks = w.working.tasks → t.hasTask given.id = true := by
    intro t htasks
    unfold Tables.hasTask
    rw [htasks]
    exact List.any_eq_true.mpr ⟨task, Table.lookup_mem hrow, decide_eq_true hid⟩
  -- none of the statements before the move touches the tasks
  have hsave : ∀ {t : World} (holds : Tables → Bool) (message : String)
      {statement : Tables → Tables}, Ordered host t → t.working.tasks = w.working.tasks →
        holds t.working = true → Elsewhere statement →
          Succeeds host (withUow (executeChecked holds message statement))
            (fun _ rows => rows.tasks = w.working.tasks) t := by
    intro t holds message statement ht htasks hholds hfar
    refine (succeeds_writeChecked message statement hholds (ht.registered.elsewhere hfar)).mono ?_
    intro _ rows hrows
    rw [hrows, hfar.tasks, htasks]
  have haudit : ∀ {t : World} {entry : AuditEntry}, Ordered host t →
      t.working.tasks = w.working.tasks → (Value.dict entry.metadata).serializable = true →
        Succeeds host (audit host entry) (fun _ rows => rows.tasks = w.working.tasks) t := by
    intro t entry ht htasks hentry
    refine (succeeds_audit ht hentry).mono fun _ rows hrows => ?_
    rw [hrows]
    exact htasks
  have hassessments : Succeeds host (RiskAssessmentRepository.save assessment)
      (fun _ rows => rows.tasks = w.working.tasks) w := by
    refine hsave (fun rows => Table.has RiskAssessment.id rows.riskAssessments assessment.id ||
      rows.hasTask assessment.taskId) _ hw rfl ?_ ⟨fun _ => rfl, fun _ => rfl, fun _ => rfl⟩
    rw [hassessment, hstored rfl, Bool.or_true]
  have hdecisions : ∀ {t : World}, Ordered host t → t.working.tasks = w.working.tasks →
      Succeeds host (DecisionRepository.save decision)
        (fun _ rows => rows.tasks = w.working.tasks) t := by
    intro t ht htasks
    refine hsave (fun rows => Table.has Decision.id rows.decisions decision.id ||
      rows.hasTask decision.taskId) _ ht htasks ?_ ⟨fun _ => rfl, fun _ => rfl, fun _ => rfl⟩
    rw [hdecision, hstored htasks, Bool.or_true]
  have hauthorizations : ∀ {t : World}, Ordered host t → t.working.tasks = w.working.tasks →
      Succeeds host (AuthorizationRepository.save authorization)
        (fun _ rows => rows.tasks = w.working.tasks) t := by
    intro t ht htasks
    refine hsave (fun rows => authorization.expiresAt.isSome &&
      (Table.has Authorization.id rows.authorizations authorization.id || rows.hasTask authorization.taskId)) _
      ht htasks ?_ ⟨fun _ => rfl, fun _ => rfl, fun _ => rfl⟩
    rw [hexpires, hof, hstored htasks, Bool.or_true]
    rfl
  refine hassessments.bind fun _ t ht htasks => ?_
  refine (hdecisions ht.toOrdered htasks).bind fun _ u hu htasks => ?_
  refine (hauthorizations hu.toOrdered htasks).bind fun _ v hv htasks => ?_
  refine (haudit hv.toOrdered htasks (serializable_assessed _ _)).bind fun _ x hx htasks => ?_
  refine (haudit hx.toOrdered htasks (by rfl)).bind fun _ y hy htasks => ?_
  refine (haudit hy.toOrdered htasks (by rfl)).bind fun _ z hz htasks => ?_
  have hrow' : Table.lookup Task.id z.working.tasks given.id = some task := htasks ▸ hrow
  have hnext : nextState task.state "authorize_and_run" = .ok .running := by
    rw [hready]
    rfl
  exact (succeeds_advance hz.toOrdered hrow' hnext).mono fun _ _ _ => trivial

/-- INTERNAL: a recorded grant has moved a READY task to RUNNING. -/
theorem GrantRecorded.running {authorization : Authorization} {before after : Tables} {moved : Task}
    (h : GrantRecorded given decision assessment authorization before after moved)
    (hrow : Table.lookup Task.id before.tasks given.id = some task) (hready : task.state = .ready) :
    storedState after given.id = some .running := by
  obtain ⟨⟨old, hold, hnext, hid⟩, rows, -, rfl⟩ := h
  obtain rfl := Option.some.inj (hrow.symm.trans hold)
  rw [hready] at hnext
  have hstate : moved.state = .running := (Except.ok.inj hnext).symm
  rw [← hid] at hrow ⊢
  exact (storedState_put hrow).trans (congrArg some hstate)

/-- INTERNAL: what the transaction of a grant leaves. -/
theorem succeeds_recordGrant (hw : Ordered host w) {authorization : Authorization}
    (hrow : Table.lookup Task.id w.working.tasks given.id = some task) (hready : task.state = .ready)
    (hdecision : decision.taskId = given.id) (hassessment : assessment.taskId = given.id)
    (hof : authorization.taskId = given.id) (hexpires : authorization.expiresAt.isSome = true) :
    Succeeds host (withUow (DecisionService.writeGrant host given decision assessment authorization))
      (fun moved rows => GrantRecorded given decision assessment authorization w.working rows moved)
      w := by
  obtain ⟨moved, t, hrun, hsequel, -⟩ :=
    succeeds_writeGrant hw.enter hrow hready hdecision hassessment hof hexpires
  have hdepth : 0 < w.enter.depth := Nat.succ_pos _
  exact .withUow ⟨moved, t, hrun, hsequel, returned_writeGrant hdepth hrun⟩

/-- INTERNAL: the way to a grant.
SOURCE: decision/service.py:149-236 -/
theorem succeeds_authorize (hw : Ordered host w) (service : DecisionService) (verdict : PolicyVerdict)
    (hrow : Table.lookup Task.id w.working.tasks given.id = some task) (hready : task.state = .ready)
    (hpermitted : request.explicitUserAck = true ∨ asksForAck service request = false) :
    Succeeds host (service.authorize host given request verdict) (fun outcome rows =>
      outcome.authorization.granted = true ∧ GrantRecorded given outcome.decision
        outcome.riskAssessment outcome.authorization w.working rows outcome.task) w := by
  refine (succeeds_newId hw (Q := fun _ rows => rows = w.working) rfl).bind fun _ t ht hrows => ?_
  refine (succeeds_newId ht.toOrdered (Q := fun _ rows => rows = w.working) hrows).bind
    fun _ u hu hrows => ?_
  refine (succeeds_resolveAuthorization hu.toOrdered hpermitted).bind fun authorization v hv h => ?_
  obtain ⟨hgranted, hof, hexpires, hkept⟩ := h
  have hworking : v.working = w.working := hkept.trans hrows
  refine (succeeds_recordGrant hv.toOrdered (hworking ▸ hrow) hready rfl rfl hof hexpires).bind
    fun moved x hx hrecorded => .pure hx.toOrdered ⟨hgranted, ?_⟩
  rw [← hworking]
  exact hrecorded

/-- INTERNAL: the way to a missing acknowledgement.
SOURCE: decision/service.py:149-185, 304-315 -/
theorem raises_authorize (hw : Ordered host w) (service : DecisionService) (verdict : PolicyVerdict)
    (hnoack : request.explicitUserAck = false) (hasks : asksForAck service request = true) :
    ∃ decision assessment, Raises host (service.authorize host given request verdict)
      (.authorizationRequired given.id decision assessment)
      (fun rows => ∃ row, rows = withAudit row w.working) w := by
  obtain ⟨assessmentId, t, hassessed, ht, hrows⟩ :=
    succeeds_newId hw (Q := fun _ rows => rows = w.working) rfl
  obtain ⟨decisionId, u, hdecided, hu, hrows⟩ :=
    succeeds_newId ht.toOrdered (Q := fun _ rows => rows = w.working) hrows
  let result := service.risk.assess
    { capabilities := request.capabilities
      reversible := request.reversible
      externalContentInvolved := request.externalContentInvolved }
  let decision := DecisionService.decisionOf given result.level verdict request.capabilities decisionId
  have hrequires : decision.requiresAuthorization = true := by
    have hrule : (confirmationRuleFor result.level).requiresAuthorization = true :=
      requires_of_explicit hasks
    show (_ || _) = true
    rw [hrule]
    rfl
  have hraises := raises_resolveAuthorization given
    (DecisionService.assessmentOf given result assessmentId) hu.toOrdered hnoack hrequires hasks
  rw [hrows] at hraises
  exact ⟨_, _, .after hassessed ht (.after hdecided hu hraises.bind)⟩

/-- INTERNAL: a verdict is a denial, or the call goes its way with it.
SOURCE: decision/service.py:135-147 -/
theorem evaluateAndAuthorize_cases (host : Host) (service : DecisionService) (given : Task)
    (request : AuthorizationRequest) :
    ((∃ capability ∈ request.capabilities, capability ∈ service.policy.denyCapabilities) ∧
      service.evaluateAndAuthorize host given request =
        service.deny host given request.capabilities) ∨
    ((∀ capability ∈ request.capabilities, capability ∉ service.policy.denyCapabilities) ∧
      ∃ verdict, service.evaluateAndAuthorize host given request =
        service.authorize host given request verdict) := by
  have hdenied := evaluate_eq_denied_iff service.policy request.capabilities
  unfold DecisionService.evaluateAndAuthorize
  cases hverdict : service.policy.evaluate request.capabilities with
  | denied => exact .inl ⟨hdenied.mp hverdict, rfl⟩
  | allowed =>
    refine .inr ⟨fun capability hmem hin => ?_, .allowed, rfl⟩
    rw [hdenied.mpr ⟨capability, hmem, hin⟩] at hverdict
    cases hverdict
  | requiresAuthorization =>
    refine .inr ⟨fun capability hmem hin => ?_, .requiresAuthorization, rfl⟩
    rw [hdenied.mpr ⟨capability, hmem, hin⟩] at hverdict
    cases hverdict

/-- INTERNAL: a request of a READY task is denied, or granted, or waits for an acknowledgement. -/
theorem gate_cases (hw : Sound host w) (service : DecisionService)
    (hrow : Table.lookup Task.id w.committed.tasks given.id = some task)
    (hready : task.state = .ready) (request : AuthorizationRequest) :
    ((∃ capability ∈ request.capabilities, capability ∈ service.policy.denyCapabilities) ∧
      Denies service host given request w) ∨
    (Permitted service request ∧ Grants service host given request w) ∨
    ((∀ capability ∈ request.capabilities, capability ∉ service.policy.denyCapabilities) ∧
      ¬ Permitted service request ∧ ∃ decision assessment, RaisesAudited service host given request w
        (.authorizationRequired given.id decision assessment)) := by
  have hrow' : Table.lookup Task.id w.working.tasks given.id = some task := by
    rw [hw.idle.working]
    exact hrow
  -- a call that raises outside a block has committed its one audit row
  have haudited : ∀ {p : Proc DecisionOutcome} {e : Err},
      service.evaluateAndAuthorize host given request = p →
        Raises host p e (fun rows => ∃ row, rows = withAudit row w.working) w →
          RaisesAudited service host given request w e := by
    rintro _ e rfl ⟨t, hrun, hsequel, row, hrows⟩
    refine ⟨t, row, hrun, ?_⟩
    rw [hsequel.committed hw.idle, hrows, hw.idle.working]
  rcases evaluateAndAuthorize_cases host service given request with
    ⟨hdenied, hdeny⟩ | ⟨hfree, verdict, hauthorize⟩
  · exact .inl ⟨hdenied, _, haudited hdeny (raises_deny hw.ordered service request.capabilities)⟩
  by_cases hpermitted : request.explicitUserAck = true ∨ asksForAck service request = false
  · obtain ⟨outcome, t, hrun, hsequel, hgranted, hrecorded⟩ :=
      succeeds_authorize hw.ordered service verdict hrow' hready hpermitted
    have hcommitted := hsequel.committed hw.idle
    rw [hw.idle.working, ← hcommitted] at hrecorded
    exact .inr (.inl ⟨⟨hfree, hpermitted⟩, outcome, t, by rw [hauthorize, hrun], hgranted,
      hrecorded, hrecorded.running hrow hready⟩)
  · obtain ⟨hnoack, hasks⟩ := not_or.mp hpermitted
    obtain ⟨decision, assessment, hraises⟩ := raises_authorize hw.ordered service verdict
      (Bool.not_eq_true _ ▸ hnoack) (Bool.not_eq_false _ ▸ hasks)
    exact .inr (.inr ⟨hfree, fun h => hpermitted h.2, decision, assessment,
      haudited hauthorize hraises⟩)

/-- INTERNAL: what a larger set is permitted without an acknowledgement, a smaller one is. -/
theorem Permitted.mono {service : DecisionService} {larger : AuthorizationRequest}
    (hlarger : Enlarges request larger) (hnoack : larger.explicitUserAck = false)
    (h : Permitted service larger) : Permitted service request := by
  obtain ⟨hfree, hack⟩ := h
  refine ⟨fun capability hmem => hfree capability (hlarger.capabilities hmem), .inr ?_⟩
  have hlevel : asksForAck service larger = false := by
    rcases hack with hack | hlevel
    · rw [hnoack] at hack
      cases hack
    · exact hlevel
  have hcount := factors_mono service.risk request.reversible request.externalContentInvolved
    hlarger.capabilities
  rw [← Bool.not_eq_true] at hlevel ⊢
  intro hasks
  refine hlevel ?_
  unfold asksForAck assessedLevel RiskEngine.assess at hasks ⊢
  rw [hlarger.reversible, hlarger.externalContentInvolved]
  exact (explicit_iff _).mpr (((explicit_iff _).mp hasks).trans hcount)

/-- INTERNAL: a grant is what the permitted requests come to. -/
theorem grants_iff (hw : Sound host w) (service : DecisionService)
    (hrow : Table.lookup Task.id w.committed.tasks given.id = some task)
    (hready : task.state = .ready) (request : AuthorizationRequest) :
    Grants service host given request w ↔ Permitted service request := by
  -- a call that raises is no grant
  have hraised : ∀ {e : Err}, RaisesAudited service host given request w e →
      ¬ Grants service host given request w := by
    rintro e ⟨t, row, hrun, -⟩ ⟨outcome, u, hok, -⟩
    rw [hrun] at hok
    cases hok
  rcases gate_cases hw service hrow hready request with ⟨⟨capability, hmem, hin⟩, _, hraises⟩ |
    ⟨hyes, hgrants⟩ | ⟨-, hno, _, _, hraises⟩
  · exact iff_of_false (hraised hraises) fun hyes => hyes.1 capability hmem hin
  · exact iff_of_true hgrants hyes
  · exact iff_of_false (hraised hraises) hno

/-- INTERNAL: a denial is what a denied capability comes to. -/
theorem denies_iff (hw : Sound host w) (service : DecisionService)
    (hrow : Table.lookup Task.id w.committed.tasks given.id = some task)
    (hready : task.state = .ready) (request : AuthorizationRequest) :
    Denies service host given request w ↔
      ∃ capability ∈ request.capabilities, capability ∈ service.policy.denyCapabilities := by
  rcases gate_cases hw service hrow hready request with ⟨hdenied, hdenies⟩ |
    ⟨hyes, outcome, t, hrun, -⟩ | ⟨hfree, -, _, _, t, _, hrun, -⟩
  · exact iff_of_true hdenies hdenied
  · refine iff_of_false ?_ fun ⟨capability, hmem, hin⟩ => hyes.1 capability hmem hin
    rintro ⟨capabilities, u, row, herror, -⟩
    rw [hrun] at herror
    cases herror
  · refine iff_of_false ?_ fun ⟨capability, hmem, hin⟩ => hfree capability hmem hin
    rintro ⟨capabilities, u, row, herror, -⟩
    rw [hrun] at herror
    cases herror

/-- For every policy and risk configuration, capability set and flags, a READY task is granted and moved to
RUNNING exactly when no capability is denied and the acknowledgement was given or the level of risk does
not ask for it; otherwise one audit row is all that is committed. A denial goes up to a larger set, and a
grant without an acknowledgement goes down to a smaller one.
SOURCE: decision/service.py:121-315, decision/policy.py:55-60, decision/risk.py:67-86,
decision/confirmation.py:33-44 -/
theorem decision_gate (h : History (services host) {} w)
    (hready : storedState w.committed given.id = some .ready) (service : DecisionService)
    (request : AuthorizationRequest) :
    (Grants service host given request w ↔ Permitted service request) ∧
    (¬ Permitted service request → ∃ e, RaisesAudited service host given request w e) ∧
    ∀ larger, Enlarges request larger →
      (Denies service host given request w → Denies service host given larger w) ∧
      (larger.explicitUserAck = false →
        Grants service host given larger w → Grants service host given request w) := by
  obtain ⟨task, hrow, -, hstate⟩ := lookup_of_storedState hready
  have hsound := Sound.of_services h
  have hgrants := grants_iff hsound service hrow hstate
  have hdenies := denies_iff hsound service hrow hstate
  refine ⟨hgrants request, fun hno => ?_, fun larger hlarger => ⟨fun hdenied => ?_,
    fun hnoack hgranted => ?_⟩⟩
  · rcases gate_cases hsound service hrow hstate request with ⟨-, _, hraises⟩ | ⟨hyes, -⟩ |
      ⟨-, -, _, _, hraises⟩
    · exact ⟨_, hraises⟩
    · exact absurd hyes hno
    · exact ⟨_, hraises⟩
  · obtain ⟨capability, hmem, hin⟩ := (hdenies request).mp hdenied
    exact (hdenies larger).mpr ⟨capability, hlarger.capabilities hmem, hin⟩
  · exact (hgrants request).mpr (.mono hlarger hnoack ((hgrants larger).mp hgranted))

end Gate

/-- Reading data is granted to the first task. -/
theorem reading_granted :
    Grants {} (.plain [] []) (firstTask plannedFirst) { capabilities := ["data.read"] }
      plannedFirst := by
  have hplanned : History (services (.plain [] [])) {} plannedFirst :=
    (History.start : History (services (.plain [] [])) {} {}).returned_void (.operation
      (.createAndPlan (notesPlanning timingOut) { sessionId := "session", requestText := "note" }))
  have hready : storedState plannedFirst.committed (firstTask plannedFirst).id = some .ready := by
    decide +kernel
  exact (decision_gate hplanned hready {} { capabilities := ["data.read"] }).1.mpr
    ⟨by decide, .inr (by decide)⟩

end Shea.Analysis
