import Shea.Analysis.PlanRecords
import Shea.Analysis.PlanRuns

/-!
# One-shot authorizations

An execution looks at the newest authorization of its task twice: before the supervisor is called, when
it must not have been used, and in the transaction that records a SUCCESS, which marks it used. Between
the two nothing is granted, so the second look finds what the first one found. A used authorization
is never written again, and a later execution finds it used as long as it is the newest.
-/

set_option autoImplicit false

namespace Shea.Analysis

open Shea.Computation Shea.Model

/-! ## The check before the supervisor -/

/-- The authorization is the newest of the task, and it was good for the request. -/
structure Cleared (py : Stdlib) (task : Task) (request : ToolRequest) (auth : Authorization)
    (t : Tables) : Prop where
  newest : (AuthorizationRepository.ofTables t task.id).getLast? = some auth
  profile : checkProfile task auth = .ok ()
  unused : auth.usedAt = none
  hashes : checkHashes py task request auth (PlanRepository.ofTables t task.id) = .ok ()

section Checks

variable {host : Host} {task : Task} {request : ToolRequest} {w t : World}

/-- INTERNAL: the check of the expiry changes no table. -/
theorem checkUnexpired_working {auth : Authorization} {a : Unit}
    (h : (checkUnexpired host task auth).run w = (.ok a, t)) : t.working = w.working := by
  unfold checkUnexpired at h
  split at h
  · exact (congrArg (World.working ∘ Prod.snd) h).symm
  · obtain ⟨at_, v, hnow, h⟩ := Program.run_bind_ok h
    obtain ⟨-, rfl⟩ := Prod.mk.inj hnow
    split at h
    · cases h
    · exact (congrArg (World.working ∘ Prod.snd) h).symm

/-- INTERNAL: a check that passes writes nothing.
SOURCE: execution/service.py:483-555 -/
theorem verifyAuthorizationBinding_returned {a : Unit}
    (h : (verifyAuthorizationBinding host task request).run w = (.ok a, t)) :
    (∃ auth, Cleared host.py task request auth w.working) ∧ t.working = w.working := by
  obtain ⟨auths, w₁, hlist, h⟩ := Program.run_bind_ok h
  obtain ⟨hauths, rfl⟩ := Prod.mk.inj hlist
  obtain rfl := Except.ok.inj hauths
  split at h
  · cases h
  next auth hnewest =>
  obtain ⟨_, w₂, hfirst, h⟩ := Program.run_bind_ok h
  rw [Program.run_ofExcept] at hfirst
  obtain ⟨hprofile, rfl⟩ := Prod.mk.inj hfirst
  obtain ⟨_, w₃, hsecond, h⟩ := Program.run_bind_ok h
  rw [Program.run_ofExcept] at hsecond
  obtain ⟨hunused, rfl⟩ := Prod.mk.inj hsecond
  obtain ⟨_, w₄, hexpiry, h⟩ := Program.run_bind_ok h
  have hworking : w₄.working = w.working := checkUnexpired_working hexpiry
  obtain ⟨plan, w₅, hread, h⟩ := Program.run_bind_ok h
  obtain ⟨hplan, rfl⟩ := Prod.mk.inj hread
  obtain rfl := Except.ok.inj hplan
  rw [Program.run_ofExcept] at h
  obtain ⟨hhashes, rfl⟩ := Prod.mk.inj h
  have hnone : auth.usedAt = none := by
    unfold checkUnused at hunused
    split at hunused
    · cases hunused
    next hno => simpa using hno
  refine ⟨⟨auth, hnewest, hprofile, hnone, ?_⟩, hworking⟩
  rw [← hworking]
  exact hhashes

end Checks

/-! ## Grants and records -/

/-- Authorizations and executions. -/
def grantPart (t : Tables) : List Authorization × List ToolExecutionRecord :=
  (t.authorizations, t.toolExecutions)

/-- INTERNAL: grants have nothing to do with plans and requests. -/
theorem unplanned_grantPart : Unplanned grantPart := by
  have hunrelated : Unrelated grantPart := ⟨fun _ _ => rfl, fun _ _ => rfl⟩
  have hunsought : Unsought grantPart := ⟨hunrelated, fun _ _ => rfl, fun _ _ => rfl, fun _ _ => rfl⟩
  exact ⟨hunsought, fun _ _ => rfl, fun _ _ => rfl⟩

/-- INTERNAL: nor with receipts and their attempts. -/
theorem apart_grantPart : Apart grantPart :=
  ⟨fun _ _ => rfl, fun _ _ => rfl, fun _ _ => rfl, fun _ _ => rfl, fun _ _ => rfl⟩

/-- What a single step may commit: a new authorization, or the record of an execution whose newest
authorization was unused until then. -/
inductive Granting (host : Host) (a b : World) : Prop
  | kept (h : grantPart b.committed = grantPart a.committed)
  | granted (row : Authorization) (hid : ∃ n < b.nextId, row.id = host.newId n)
      (hnew : ∀ old ∈ a.committed.authorizations, old.id ≠ row.id)
      (h : grantPart b.committed =
        (a.committed.authorizations ++ [row], a.committed.toolExecutions))
  | recorded (record : ToolExecutionRecord) (newest : Authorization) (usedAt : Time)
      (hid : ∃ n < b.nextId, record.id = host.newId n)
      (hnewest : (AuthorizationRepository.ofTables a.committed record.taskId).getLast? = some newest)
      (hunused : newest.usedAt = none)
      (h : grantPart b.committed = (consumed record.taskId record.outcome usedAt a.committed,
        a.committed.toolExecutions ++ [record]))

structure GrantStep (host : Host) (a b : World) : Prop where
  nextId : a.nextId ≤ b.nextId
  change : Granting host a b

/-- The ids of authorizations and executions were drawn, those of authorizations once each. -/
structure Drawn (host : Host) (w : World) : Prop where
  authorizations : ∀ row ∈ w.committed.authorizations, ∃ n < w.nextId, row.id = host.newId n
  executions : Numbered host w
  distinct : (w.committed.authorizations.map Authorization.id).Nodup

section Steps

variable {host : Host} {a b : World}

/-- INTERNAL: using an authorization up changes its row only. -/
theorem consumed_eq_map {t : Tables} (hd : (t.authorizations.map Authorization.id).Nodup)
    {taskId : String} {outcome : ExecutionOutcome} {usedAt : Time} {newest : Authorization}
    (hnewest : (AuthorizationRepository.ofTables t taskId).getLast? = some newest)
    (hunused : newest.usedAt = none) : consumed taskId outcome usedAt t =
      if outcome = .success ∧ newest.nonce.isSome then t.authorizations.map fun row =>
        if row = newest then { row with usedAt := some usedAt } else row
      else t.authorizations := by
  have hin : newest ∈ t.authorizations :=
    (List.mem_filter.mp (List.mem_of_getLast? hnewest)).1
  unfold consumed
  rw [hnewest]
  dsimp only
  rw [hunused, Option.isNone_none, Bool.and_true]
  split
  · have hkey : newest.id = ({ newest with usedAt := some usedAt } : Authorization).id := rfl
    refine (Table.upsert_eq_map hd hin hkey).trans (List.map_congr_left fun row hrow => ?_)
    by_cases hid : row.id = newest.id
    · obtain rfl := List.inj_on_of_nodup_map hd hrow hin hid
      rw [if_pos rfl, if_pos rfl]
      rfl
    · have hne : row ≠ newest := fun heq => hid (congrArg Authorization.id heq)
      rw [if_neg hid, if_neg hne]
  · rfl

/-- Consuming the newest grant keeps the list of identifiers. -/
theorem map_id_consumed {t : Tables} (hd : (t.authorizations.map Authorization.id).Nodup)
    {taskId : String} {outcome : ExecutionOutcome} {usedAt : Time} {newest : Authorization}
    (hnewest : (AuthorizationRepository.ofTables t taskId).getLast? = some newest)
    (hunused : newest.usedAt = none) :
    (consumed taskId outcome usedAt t).map Authorization.id =
      t.authorizations.map Authorization.id := by
  rw [consumed_eq_map hd hnewest hunused]
  split
  · rw [List.map_map]
    refine List.map_congr_left fun row _ => ?_
    rw [Function.comp_apply]
    split <;> rfl
  · rfl

/-- INTERNAL: ids stay drawn and distinct. -/
theorem GrantStep.drawn (h : GrantStep host a b) (ha : Drawn host a) : Drawn host b := by
  have hlater : ∀ {id : String}, (∃ n < a.nextId, id = host.newId n) →
      ∃ n < b.nextId, id = host.newId n := fun ⟨n, hn, hid⟩ => ⟨n, hn.trans_le h.nextId, hid⟩
  rcases h.change with h | ⟨row, hid, hnew, h⟩ | ⟨record, newest, usedAt, hid, hnewest, hunused, h⟩
  · obtain ⟨hauthorizations, hexecutions⟩ := Prod.mk.inj h
    refine ⟨fun row hrow => ?_, fun row hrow => ?_, ?_⟩
    · exact hlater (ha.authorizations row (hauthorizations ▸ hrow))
    · exact hlater (ha.executions row (hexecutions ▸ hrow))
    · rw [hauthorizations]
      exact ha.distinct
  · obtain ⟨hauthorizations, hexecutions⟩ := Prod.mk.inj h
    refine ⟨fun other hrow => ?_, fun row hrow => ?_, ?_⟩
    · rw [hauthorizations] at hrow
      rcases List.mem_append.mp hrow with hrow | hrow
      · exact hlater (ha.authorizations other hrow)
      · obtain rfl := List.mem_singleton.mp hrow
        exact hid
    · exact hlater (ha.executions row (hexecutions ▸ hrow))
    · rw [hauthorizations, List.map_append]
      refine ha.distinct.append (List.nodup_singleton _) ?_
      intro id hin hlast
      obtain ⟨old, hold, rfl⟩ := List.mem_map.mp hin
      exact hnew old hold (List.mem_singleton.mp hlast)
  · obtain ⟨hauthorizations, hexecutions⟩ := Prod.mk.inj h
    have hids : (consumed record.taskId record.outcome usedAt a.committed).map Authorization.id =
        a.committed.authorizations.map Authorization.id :=
      map_id_consumed ha.distinct hnewest hunused
    refine ⟨fun row hrow => ?_, fun row hrow => ?_, ?_⟩
    · rw [hauthorizations] at hrow
      have hin := List.mem_map_of_mem (f := Authorization.id) hrow
      rw [hids] at hin
      obtain ⟨old, hold, heq⟩ := List.mem_map.mp hin
      rw [← heq]
      exact hlater (ha.authorizations old hold)
    · rw [hexecutions] at hrow
      rcases List.mem_append.mp hrow with hrow | hrow
      · exact hlater (ha.executions row hrow)
      · obtain rfl := List.mem_singleton.mp hrow
        exact hid
    · rw [hauthorizations, hids]
      exact ha.distinct

/-- INTERNAL: a used authorization stays as it is. -/
theorem GrantStep.used_stays (h : GrantStep host a b) (ha : Drawn host a) {auth : Authorization}
    (hused : auth.usedAt.isSome) (hin : auth ∈ a.committed.authorizations) :
    auth ∈ b.committed.authorizations := by
  rcases h.change with h | ⟨row, -, -, h⟩ | ⟨record, newest, usedAt, -, hnewest, hunused, h⟩
  · have hauthorizations : b.committed.authorizations = a.committed.authorizations :=
      congrArg Prod.fst h
    rw [hauthorizations]
    exact hin
  · have hauthorizations : b.committed.authorizations = _ := congrArg Prod.fst h
    rw [hauthorizations]
    exact List.mem_append_left _ hin
  · have hauthorizations : b.committed.authorizations = _ := congrArg Prod.fst h
    rw [hauthorizations, consumed_eq_map ha.distinct hnewest hunused]
    split
    · refine List.mem_map.mpr ⟨auth, hin, if_neg ?_⟩
      rintro rfl
      rw [hunused] at hused
      cases hused
    · exact hin

end Steps

/-! ## What the calls commit -/

section Calls

variable {α β : Type} {host : Host} {w : World}

/-- INTERNAL: a quiet step is a step of the grants. -/
theorem Quiet.grantStep {a b : World} (h : Quiet a b) : GrantStep host a b :=
  ⟨h.nextId, .kept (congrArg grantPart h.committed)⟩

/-- INTERNAL: a call that leaves both tables alone. -/
theorem Rests.sat_grants {p : Proc α} (h : Rests host p) (hpart : Leaves grantPart p)
    (hw : Resting host w) : p.Sat (GrantStep host) (fun _ t => Spared host grantPart w t) w := by
  have hkept : p.Sat (fun a b => grantPart b.committed = grantPart a.committed)
      (fun _ t => grantPart t.working = grantPart t.committed ∧
        grantPart t.committed = grantPart w.committed) w := by
    refine hpart.sat_of_inv (I := fun t => grantPart t.working = grantPart t.committed ∧
      grantPart t.committed = grantPart w.committed) (fun a b ha hab => ?_)
      ⟨congrArg grantPart hw.idle.working, rfl⟩
    obtain ⟨hworking, hcommitted⟩ := hab ha.1
    exact ⟨hcommitted, by rw [hworking, hcommitted, ha.1], hcommitted.trans ha.2⟩
  have hnext := (h w hw).keep (I := fun t => w.nextId ≤ t.nextId)
    (fun a b hab ha => ha.trans (Step.nextId_le hab)) le_rfl
  refine (hnext.and hkept).mono (fun a b hab => ?_) fun r t ht => ?_
  · exact ⟨Step.nextId_le hab.1, .kept hab.2⟩
  · exact ⟨ht.1.1, ht.2.2, ht.1.2⟩

/-- INTERNAL: a program that serves the grants takes one of their steps. -/
theorem Serves.sat_grants {p : Proc α} (hledger : Serves ledgerPart p) (hpart : Serves grantPart p)
    (hw : Resting host w) : p.Sat (GrantStep host) (fun _ t => Spared host grantPart w t) w :=
  hledger.rests.sat_grants hpart.leaves hw

/-- INTERNAL: such a call before another one; the second may rely on what the first returned. -/
theorem sat_grants_bind {p : Proc α} {f : α → Proc β} {Q : Except Err β → World → Prop}
    (hp : p.Sat (GrantStep host) (fun _ t => Spared host grantPart w t) w)
    (hf : ∀ a t, p.run w = (.ok a, t) → Spared host grantPart w t →
      (f a).Sat (GrantStep host) Q t)
    (herror : ∀ e t, Spared host grantPart w t → Q (.error e) t) :
    (p >>= f).Sat (GrantStep host) Q w := by
  rw [Program.sat_bind]
  refine (hp.and (sat_run p w)).mono (fun _ _ hab => hab.1) fun r t ht => ?_
  cases r with
  | ok a => exact hf a t ht.2 ht.1
  | error e => exact herror e t ht.1

/-- What an authorization is like when it is granted. -/
structure Granted (host : Host) (task : Task) (auth : Authorization) (w t : World) : Prop where
  taskId : auth.taskId = task.id
  profileId : auth.profileId = "system"
  unused : auth.usedAt = none
  drawn : ∃ n, w.nextId ≤ n ∧ n < t.nextId ∧ auth.id = host.newId n

/-- INTERNAL: an authorization is drawn with a new id.
SOURCE: decision/service.py:241-315 -/
theorem resolveAuthorization_returned {task : Task} {decision : Decision}
    {assessment : RiskAssessment} {request : AuthorizationRequest} {auth : Authorization} {t : World}
    (h : (DecisionService.resolveAuthorization host task decision assessment request).run w =
      (.ok auth, t)) : Granted host task auth w t := by
  obtain ⟨plan, w₁, hplan, h⟩ := Program.run_bind_ok h
  have hnext₁ : w₁.nextId = w.nextId := by
    unfold DecisionService.resolvedPlan at hplan
    split at hplan
    · exact (congrArg (World.nextId ∘ Prod.snd) hplan).symm
    · split at hplan <;> exact (congrArg (World.nextId ∘ Prod.snd) hplan).symm
  obtain ⟨nonce, w₂, hnonce, h⟩ := Program.run_bind_ok h
  obtain ⟨-, rfl⟩ := Prod.mk.inj hnonce
  obtain ⟨at_, w₃, hnow, h⟩ := Program.run_bind_ok h
  obtain ⟨-, rfl⟩ := Prod.mk.inj hnow
  have hgrant : ∀ {binding expiresAt grantedBy explicit} {u v : World},
      (DecisionService.grant host task binding expiresAt grantedBy explicit).run u = (.ok auth, v) →
      u.nextId = w₁.nextId → Granted host task auth w v := by
    intro binding expiresAt grantedBy explicit u v hrun hu
    obtain ⟨id, u₁, hdrawn, hrun⟩ := Program.run_bind_ok hrun
    obtain ⟨hid, rfl⟩ := Prod.mk.inj hdrawn
    obtain ⟨hauth, rfl⟩ := Prod.mk.inj hrun
    obtain rfl := Except.ok.inj hauth
    refine ⟨rfl, rfl, rfl, u.nextId, (hu.trans hnext₁).ge, Nat.lt_succ_self _, ?_⟩
    exact (Except.ok.inj hid).symm
  unfold DecisionService.decide at h
  split at h
  · exact hgrant h rfl
  · split at h
    · exact hgrant h rfl
    · split at h
      · exact hgrant h rfl
      · obtain ⟨_, w₄, -, h⟩ := Program.run_bind_ok h
        cases h

/-- INTERNAL: the block that records a grant appends the authorization.
SOURCE: decision/service.py:192-232 -/
theorem sat_writeGrant {task : Task} {decision : Decision} {assessment : RiskAssessment}
    {auth : Authorization} {u : World} (hw : w.Idle) (hd : Drawn host u)
    (hsame : grantPart w.committed = grantPart u.committed) (hauth : Granted host task auth u w) :
    (withUow (DecisionService.writeGrant host task decision assessment auth)).Sat (GrantStep host)
      (fun r t => r.isOk = true → t.committed.authorizations = u.committed.authorizations ++ [auth])
      w := by
  have hnested := nested_writeGrant host task decision assessment auth
  obtain ⟨hauthorizations, hexecutions⟩ := Prod.mk.inj hsame
  obtain ⟨n, hle, hlt, hid⟩ := hauth.drawn
  have hnew : ∀ old ∈ u.committed.authorizations, old.id ≠ auth.id := by
    intro old hold heq
    obtain ⟨m, hm, hmid⟩ := hd.authorizations old hold
    have hmn := host.newId_injective (hmid.symm.trans (heq.trans hid))
    omega
  have hwritten : ∀ moved t, (DecisionService.writeGrant host task decision assessment auth).run
      w.enter = (.ok moved, t) → Quiet w t →
      grantPart t.commit.committed = (t.committed.authorizations ++ [auth], t.committed.toolExecutions) ∧
        t.committed = w.committed := by
    intro moved t hrun hquiet
    obtain ⟨-, rows, -, hafter⟩ := returned_writeGrant (Nat.succ_pos _) hrun
    have hbefore : w.enter.working = w.committed := hw.working
    have htable : t.working.authorizations = w.committed.authorizations ++ [auth] := by
      have h := congrArg Tables.authorizations hafter
      rw [hbefore] at h
      refine h.trans ?_
      rw [hauthorizations]
      exact Table.upsert_of_new hnew
    have hrecords : t.working.toolExecutions = w.committed.toolExecutions := by
      have h := congrArg Tables.toolExecutions hafter
      rw [hbefore] at h
      exact h
    refine ⟨?_, hquiet.committed⟩
    rw [hquiet.committed, ← htable, ← hrecords]
    rfl
  refine sat_withUow hnested.inner hw (fun _ _ => Quiet.grantStep) (fun moved t hrun hquiet => ?_)
    fun e t _ _ hok => by cases hok
  obtain ⟨hpart, hcommitted⟩ := hwritten moved t hrun hquiet
  refine ⟨⟨le_rfl, .granted auth ⟨n, hlt.trans_le hquiet.nextId, hid⟩ ?_ hpart⟩, fun _ => ?_⟩
  · rw [hcommitted, hauthorizations]
    exact hnew
  · have h : t.commit.committed.authorizations = _ := congrArg Prod.fst hpart
    rw [h, hcommitted, hauthorizations]

/-- The newest authorization after a grant. -/
def GrantEnds (task : Task) (w : World) (r : Except Err DecisionOutcome) (t : World) : Prop :=
  ∀ outcome, r = .ok outcome →
    t.committed.authorizations = w.committed.authorizations ++ [outcome.authorization] ∧
    outcome.authorization.taskId = task.id ∧ outcome.authorization.profileId = "system" ∧
    outcome.authorization.usedAt = none

/-- A call that grants appends one unused authorization.
SOURCE: decision/service.py:118-315 -/
theorem sat_evaluateAndAuthorize (service : DecisionService) (task : Task)
    (request : AuthorizationRequest) (hw : Resting host w) (hd : Drawn host w) :
    (service.evaluateAndAuthorize host task request).Sat (GrantStep host) (GrantEnds task w) w := by
  have hledger := outlying_ledgerPart.toUnrelated
  have hgrant := unplanned_grantPart.toUnrelated
  have hraised : ∀ e t, GrantEnds task w (.error e) t := by
    intro e t outcome hr
    cases hr
  have hauthorize : ∀ verdict, (service.authorize host task request verdict).Sat (GrantStep host)
      (GrantEnds task w) w := by
    intro verdict
    unfold DecisionService.authorize
    refine sat_grants_bind ((Serves.newId host).sat_grants (.newId host) hw)
      (fun assessmentId w₁ _ h₁ => ?_) fun e t _ => hraised e t
    refine sat_grants_bind ((Serves.newId host).sat_grants (.newId host) h₁.resting)
      (fun decisionId w₂ _ h₂ => ?_) fun e t _ => hraised e t
    have hw₂ := h₁.trans h₂
    refine sat_grants_bind ((serves_resolveAuthorization hledger.auditEvents host task _ _ request).sat_grants
      (serves_resolveAuthorization hgrant.auditEvents host task _ _ request) h₂.resting)
      (fun auth w₃ hresolved h₃ => ?_) fun e t _ => hraised e t
    have hw₃ := hw₂.trans h₃
    obtain ⟨htaskId, hprofileId, hunused, n, hle, hlt, hid⟩ := resolveAuthorization_returned hresolved
    rw [Program.sat_bind]
    refine (sat_writeGrant h₃.resting.idle hd hw₃.part
      ⟨htaskId, hprofileId, hunused, n, hw₂.nextId.trans hle, hlt, hid⟩).post fun r t ht => ?_
    cases r with
    | error e => exact hraised e t
    | ok moved =>
      rintro outcome hok
      obtain rfl := Except.ok.inj hok
      exact ⟨ht rfl, htaskId, hprofileId, hunused⟩
  unfold DecisionService.evaluateAndAuthorize
  split
  · unfold DecisionService.deny
    refine sat_grants_bind (Serves.sat_grants (.withUow (serves_audit hledger host _).toWithin)
      (.withUow (serves_audit hgrant host _).toWithin) hw) (fun _ t _ _ => ?_) fun e t _ => hraised e t
    exact hraised _ t
  · exact hauthorize _

/-- INTERNAL: a request that is prepared is cleared by the newest authorization of its task.
SOURCE: execution/service.py:229-340 -/
theorem prepare_cleared {service : ExecutionService} {task : Task} {request : ToolRequest}
    {contract : ExecutionContract} {t : World} (hw : w.Idle)
    (h : (service.prepare host task request).run w = (.ok contract, t)) :
    ∃ auth u, (AuthorizationRepository.ofTables w.committed task.id).getLast? = some auth ∧
      Cleared host.py task request auth u ∧
      ∀ {γ : Type} {part : Tables → γ}, Unrelated part → part u = part w.committed := by
  obtain ⟨_, w₁, henforce, h⟩ := Program.run_bind_ok h
  obtain ⟨_, w₂, hbinding, h⟩ := Program.run_bind_ok h
  obtain ⟨⟨auth, hcleared⟩, -⟩ := verifyAuthorizationBinding_returned hbinding
  have hsame : ∀ {γ : Type} {part : Tables → γ}, Unrelated part →
      part w₁.working = part w.committed := by
    intro γ part hpart
    have hleaves : Leaves part (service.security.enforce host task request) :=
      (serves_enforce hpart service.security host task request).leaves
    have hkept := (hleaves.run w (congrArg part hw.working)).1
    rw [henforce, hw.working] at hkept
    exact hkept
  have hauthorizations : w₁.working.authorizations = w.committed.authorizations :=
    congrArg Prod.fst (hsame unplanned_grantPart.toUnrelated)
  have hnewest := hcleared.newest
  unfold AuthorizationRepository.ofTables at hnewest ⊢
  rw [hauthorizations] at hnewest
  exact ⟨auth, w₁.working, hnewest, hcleared, hsame⟩

/-- INTERNAL: a block whose body returns commits. -/
theorem run_withUow_commit {body : Proc α} (hb : Inner body) (hw : w.Idle) {a : α} {t : World}
    (h : body.run w.enter = (.ok a, t)) : (withUow body).run w = (.ok a, t.commit) := by
  have hpos : 0 < w.enter.depth := Nat.succ_pos _
  have hdepth := (hb.run hpos).2
  rw [h] at hdepth
  have hlast : ¬ 0 < t.depth - 1 := by
    rw [show t.depth = w.depth + 1 from hdepth, hw.depth]
    omega
  rw [run_withUow, h]
  dsimp only
  unfold World.exit World.commit
  rw [if_neg hlast, if_pos rfl, show t.depth - 1 = 0 by omega]

/-- INTERNAL: the block that records an execution.
SOURCE: execution/service.py:418-472 -/
theorem sat_writeRecord {task : Task} {request : ToolRequest} {key : String}
    {supervision : SupervisionResult} {outcome : ExecutionOutcome} {response : ToolResponse}
    (hw : w.Idle) (hnum : Numbered host w) {newest : Authorization}
    (hnewest : (AuthorizationRepository.ofTables w.committed task.id).getLast? = some newest)
    (hunused : newest.usedAt = none) :
    (withUow (ExecutionService.writeRecord host task request key supervision outcome response)).Sat
      (GrantStep host) (fun _ _ => True) w := by
  have hnested := nested_writeRecord host task request key supervision outcome response
  refine sat_withUow hnested.inner hw (fun _ _ => Quiet.grantStep) (fun moved t hrun hquiet => ?_)
    fun _ _ _ _ => trivial
  refine ⟨⟨le_rfl, ?_⟩, trivial⟩
  obtain ⟨-, rows, usedAt, hafter⟩ := written_writeRecord (Nat.succ_pos _) hrun
  have hbefore : w.enter.working = w.committed := hw.working
  rw [hbefore] at hafter
  let record := ToolExecutionRepository.stored host.py
    (ExecutionService.recordOf task request outcome response key (host.newId w.nextId))
  have hauthorizations : t.working.authorizations = consumed task.id outcome usedAt w.committed :=
    congrArg Tables.authorizations hafter
  have hexecutions : t.working.toolExecutions = w.committed.toolExecutions ++ [record] :=
    (congrArg Tables.toolExecutions hafter).trans (upsert_numbered hnum rfl)
  have hnext : w.nextId < t.commit.nextId := by
    have hkept := (kept_writeRecord hw hnum (run_withUow_commit hnested.inner hw hrun)).numbered
    obtain ⟨n, hn, hid⟩ := hkept record (by
      show record ∈ t.working.toolExecutions
      rw [hexecutions]
      exact List.mem_append_right _ (List.mem_singleton_self _))
    obtain rfl := host.newId_injective hid
    exact hn
  refine .recorded record newest usedAt ⟨w.nextId, hnext, rfl⟩ ?_ hunused ?_
  · rw [hquiet.committed]
    exact hnewest
  · rw [hquiet.committed]
    exact Prod.ext hauthorizations hexecutions

/-- An execution commits one record at most, and the newest authorization was unused until then.
SOURCE: execution/service.py:229-472 -/
theorem sat_grants_execute (service : ExecutionService) (task : Task) (request : ToolRequest)
    (hw : Resting host w) (hd : Drawn host w) :
    (service.execute host task request).Sat (GrantStep host) (fun _ _ => True) w := by
  have hledger := outlying_ledgerPart.toUnrelated
  have hgrant := unplanned_grantPart.toUnrelated
  unfold ExecutionService.execute
  split
  case isFalse => trivial
  unfold ExecutionService.carryOut
  refine sat_grants_bind ((serves_prepare hledger service host task request).sat_grants
    (serves_prepare hgrant service host task request) hw) (fun contract w₁ hprepared h₁ => ?_)
    fun _ _ _ => trivial
  obtain ⟨newest, _, hnewest, hcleared, -⟩ := prepare_cleared hw.idle hprepared
  have hunused := hcleared.unused
  refine sat_grants_bind ((rests_supervise _ contract).sat_grants
    (leaves_execute apart_grantPart _ host contract (.inr fun _ _ => ⟨rfl, rfl⟩)) h₁.resting)
    (fun supervision w₂ _ h₂ => ?_) fun _ _ _ => trivial
  have hw₂ := h₁.trans h₂
  unfold ExecutionService.settle
  refine sat_grants_bind ((Serves.ofExcept _).sat_grants (.ofExcept _) h₂.resting)
    (fun outcome w₃ _ h₃ => ?_) fun _ _ _ => trivial
  have hw₃ := hw₂.trans h₃
  refine sat_grants_bind ((serves_scanOutput hledger service.security host task _ _).sat_grants
    (serves_scanOutput hgrant service.security host task _ _) h₃.resting)
    (fun scan w₄ _ h₄ => ?_) fun _ _ _ => trivial
  have hw₄ := hw₃.trans h₄
  have hscreen : ∀ {γ : Type} {part : Tables → γ}, Unrelated part → Serves part
      (ExecutionService.screen host task request (ExecutionService.responseOf supervision outcome)
        scan) := by
    intro γ part hpart
    unfold ExecutionService.screen
    split
    · exact .bind (serves_audit hpart host _) fun _ => .pure _
    · exact .pure _
  refine sat_grants_bind ((hscreen hledger).sat_grants (hscreen hgrant) h₄.resting)
    (fun response w₅ _ h₅ => ?_) fun _ _ _ => trivial
  have hw₅ := hw₄.trans h₅
  obtain ⟨hauthorizations, hexecutions⟩ := Prod.mk.inj hw₅.part
  rw [Program.sat_bind]
  have hnum : Numbered host w₅ := by
    intro record hrecord
    rw [hexecutions] at hrecord
    obtain ⟨n, hn, hid⟩ := hd.executions record hrecord
    exact ⟨n, hn.trans_le hw₅.nextId, hid⟩
  have hnewest' : (AuthorizationRepository.ofTables w₅.committed task.id).getLast? = some newest := by
    unfold AuthorizationRepository.ofTables at hnewest ⊢
    rw [hauthorizations]
    exact hnewest
  refine (sat_writeRecord h₅.resting.idle hnum hnewest' hunused).post fun r t _ => ?_
  cases r <;> trivial

/-- Every public operation takes such steps.
SOURCE: decision/service.py, execution/service.py, recovery/service.py, verification/service.py -/
theorem Operation.sat_grants {p : Proc Unit} (h : Operation host p) (hw : Resting host w)
    (hd : Drawn host w) : p.Sat (GrantStep host) (fun _ _ => True) w := by
  have hattempts : ∀ t rows, grantPart { t with recoveryAttempts := rows } = grantPart t :=
    fun _ _ => rfl
  rcases h.leaves_or unplanned_grantPart.toUnsought hattempts apart_grantPart fun _ _ => ⟨rfl, rfl⟩ with
    ⟨hrests, hleaves⟩ | ⟨service, given, rfl⟩ | ⟨service, task, request, rfl⟩ |
    ⟨service, task, request, rfl⟩ | ⟨service, task, moreSteps, rfl⟩
  · exact (hrests.sat_grants hleaves hw).post fun _ _ _ => trivial
  · exact Program.sat_void (((serves_createAndPlan outlying_ledgerPart.toUnplanned service host
      given).sat_grants (serves_createAndPlan unplanned_grantPart service host given) hw).post
      fun _ _ _ => trivial)
  · exact Program.sat_void ((sat_evaluateAndAuthorize service task request hw hd).post
      fun _ _ _ => trivial)
  · exact Program.sat_void (sat_grants_execute service task request hw hd)
  · exact Program.sat_void (((serves_verify outlying_ledgerPart.toUnrelated (fun _ _ => rfl) service host
      task moreSteps).sat_grants (serves_verify unplanned_grantPart.toUnrelated (fun _ _ => rfl) service
      host task moreSteps) hw).post fun _ _ _ => trivial)

end Calls

/-! ## Over a history -/

/-- The step commits the record of a SUCCESS, and the authorization is the newest of its task. -/
def SucceedsOn (auth : Authorization) (record : ToolExecutionRecord) (step : World × World) : Prop :=
  record ∈ step.2.committed.toolExecutions ∧ record ∉ step.1.committed.toolExecutions ∧
    record.outcome = .success ∧
    (AuthorizationRepository.ofTables step.1.committed record.taskId).getLast? = some auth

section Histories

variable {host : Host} {a b : World} {x : World × World} {steps : List (World × World)} {w : World}

/-- INTERNAL: only a step that records an execution succeeds, and it uses the authorization up. -/
theorem GrantStep.succeeds (h : GrantStep host a b) (ha : Drawn host a) {auth : Authorization}
    {record : ToolExecutionRecord} (hs : SucceedsOn auth record (a, b)) :
    auth ∈ a.committed.authorizations ∧ auth.usedAt = none ∧
      b.committed.toolExecutions = a.committed.toolExecutions ++ [record] ∧
      (auth.nonce.isSome → ∃ used ∈ b.committed.authorizations,
        used.id = auth.id ∧ used.usedAt.isSome) := by
  obtain ⟨hin, hnot, hsuccess, hlast⟩ := hs
  have hauth : auth ∈ a.committed.authorizations :=
    (List.mem_filter.mp (List.mem_of_getLast? hlast)).1
  rcases h.change with h | ⟨row, -, -, h⟩ | ⟨recorded, newest, usedAt, -, hnewest, hunused, h⟩
  · have hexecutions : b.committed.toolExecutions = a.committed.toolExecutions := congrArg Prod.snd h
    exact absurd (hexecutions ▸ hin) hnot
  · have hexecutions : b.committed.toolExecutions = a.committed.toolExecutions := congrArg Prod.snd h
    exact absurd (hexecutions ▸ hin) hnot
  · obtain ⟨hauthorizations, hexecutions⟩ := Prod.mk.inj h
    have hsame : record = recorded := by
      rw [hexecutions] at hin
      rcases List.mem_append.mp hin with hold | hnew
      · exact absurd hold hnot
      · exact List.mem_singleton.mp hnew
    obtain rfl := hsame
    obtain rfl : newest = auth := Option.some.inj (hnewest.symm.trans hlast)
    refine ⟨hauth, hunused, hexecutions, fun hnonce => ⟨{ newest with usedAt := some usedAt }, ?_, rfl, rfl⟩⟩
    rw [hauthorizations, consumed_eq_map ha.distinct hnewest hunused, if_pos ⟨hsuccess, hnonce⟩]
    exact List.mem_map.mpr ⟨newest, hauth, if_pos rfl⟩

/-- INTERNAL: nothing succeeds on a used authorization. -/
theorem GrantStep.not_succeeds (h : GrantStep host a b) (ha : Drawn host a) {auth : Authorization}
    (hused : auth.usedAt.isSome) (hin : auth ∈ a.committed.authorizations)
    {newest : Authorization} (hid : newest.id = auth.id) (record : ToolExecutionRecord) :
    ¬ SucceedsOn newest record (a, b) := by
  intro hs
  obtain ⟨hnewest, hunused, -⟩ := h.succeeds ha hs
  obtain rfl := List.inj_on_of_nodup_map ha.distinct hnewest hin hid
  rw [hunused] at hused
  cases hused

/-- The state between operations. -/
def RestingDrawn (host : Host) (w : World) : Prop := Resting host w ∧ Drawn host w

/-- INTERNAL: every operation takes ledger steps and grant steps. -/
theorem Operation.sat_restingDrawn {p : Proc Unit} (hp : Operation host p) (hw : RestingDrawn host w) :
    p.Sat (fun a b => Moves host a b ∧ GrantStep host a b) (fun _ t => RestingDrawn host t) w := by
  have hboth := (hp.rests w hw.1).and (hp.sat_grants hw.1 hw.2)
  refine (hboth.keep (fun _ _ hab ha => hab.2.drawn ha) hw.2).post fun _ _ ht => ?_
  exact ⟨ht.1.1, ht.2⟩

/-- INTERNAL: and a crash leaves the same. -/
theorem RestingDrawn.restart {t : World} (hw : RestingDrawn host w)
    (h : Relation.ReflTransGen (fun a b => Moves host a b ∧ GrantStep host a b) w t) :
    RestingDrawn host t.restart := by
  have hmoves := Relation.ReflTransGen.mono (fun _ _ hab => hab.1 :
    (fun a b => Moves host a b ∧ GrantStep host a b) ≤ Moves host) w t h
  have hdrawn : Drawn host t := by
    clear hmoves
    induction h with
    | refl => exact hw.2
    | tail _ hab ih => exact hab.2.drawn ih
  exact ⟨hw.1.restart hmoves, hdrawn.authorizations, hdrawn.executions, hdrawn.distinct⟩

/-- INTERNAL: the first world rests. -/
theorem restingDrawn_empty : RestingDrawn host {} :=
  ⟨resting_empty host, by simp, by simp [Numbered], List.nodup_nil⟩

/-- INTERNAL: the states between operations. -/
theorem restingDrawn_of_operations (hw : History (operations host) {} w) : RestingDrawn host w :=
  History.invariant_of_sat restingDrawn_empty (fun _ _ hp hs => hp.sat_restingDrawn hs)
    (fun _ _ hs hc => hs.restart hc) hw

/-- INTERNAL: every step of a trail is a grant step from a state whose ids are drawn. -/
theorem grantStep_of_trail (h : Trail (operations host) {} steps w) :
    ∀ x ∈ steps, GrantStep host x.1 x.2 ∧ Drawn host x.1 := by
  intro x hx
  obtain ⟨hstep, hdrawn⟩ := Trail.step_of_sat (J := Drawn host) restingDrawn_empty
    (fun _ _ hp hw => hp.sat_restingDrawn hw) (fun _ _ hw hc => hw.restart hc)
    (fun _ _ hab ha => hab.2.drawn ha) (fun _ hw => hw.2) h x hx
  exact ⟨hstep.2, hdrawn⟩

/-- INTERNAL: a used authorization is handed on as it is. -/
theorem used_of_trail (h : Trail (operations host) {} steps w) (auth : Authorization)
    (hused : auth.usedAt.isSome) :
    (steps.Pairwise fun x y => auth ∈ x.2.committed.authorizations →
      auth ∈ y.1.committed.authorizations) ∧
    ∀ x ∈ steps, auth ∈ x.2.committed.authorizations → auth ∈ w.committed.authorizations := by
  have hdrawn := grantStep_of_trail h
  obtain ⟨hpairs, hend⟩ := Trail.pairwise_of_sat
    (J := fun w => Drawn host w ∧ auth ∈ w.committed.authorizations) restingDrawn_empty
    (fun _ _ hp hw => hp.sat_restingDrawn hw) (fun _ _ hw hc => hw.restart hc)
    (fun a b hab ha => ⟨hab.2.drawn ha.1, hab.2.used_stays ha.1 hused ha.2⟩)
    (fun s hs => ⟨⟨hs.1.authorizations, hs.1.executions, hs.1.distinct⟩, hs.2⟩) h
  constructor
  · refine hpairs.imp_of_mem fun {x y} hx _ hxy hin => ?_
    have hafter := (hdrawn x hx).1.drawn (hdrawn x hx).2
    exact (hxy ⟨hafter, hin⟩).2
  · intro x hx hin
    exact (hend x hx ⟨(hdrawn x hx).1.drawn (hdrawn x hx).2, hin⟩).2

/-- Over every history of public operations with crashes, an authorization with a nonce is the newest
authorization of one SUCCESS at most. Once it is used it stays as it is, and nothing succeeds on it.
SOURCE: execution/service.py:418-472 -/
theorem one_shot_authorizations (h : Trail (operations host) {} steps w) :
    (∀ x ∈ steps, ∀ auth auth' record record', SucceedsOn auth record x →
      SucceedsOn auth' record' x → record' = record) ∧
    (steps.Pairwise fun x y => ∀ auth auth' record record', auth'.id = auth.id →
      auth.nonce.isSome → SucceedsOn auth record x → ¬ SucceedsOn auth' record' y) ∧
    (steps.Pairwise fun x y => ∀ auth ∈ x.2.committed.authorizations, auth.usedAt.isSome →
      auth ∈ y.2.committed.authorizations ∧
      ∀ auth' record, auth'.id = auth.id → ¬ SucceedsOn auth' record y) ∧
    ∀ x ∈ steps, ∀ auth ∈ x.2.committed.authorizations, auth.usedAt.isSome →
      auth ∈ w.committed.authorizations := by
  have hstep := grantStep_of_trail h
  have hpair : ∀ auth : Authorization, auth.usedAt.isSome → steps.Pairwise fun x y =>
      auth ∈ x.2.committed.authorizations → auth ∈ y.1.committed.authorizations :=
    fun auth hused => (used_of_trail h auth hused).1
  have hlater : steps.Pairwise fun x y => ∀ auth : Authorization, auth.usedAt.isSome →
      auth ∈ x.2.committed.authorizations → auth ∈ y.1.committed.authorizations := by
    rw [List.pairwise_iff_getElem]
    intro i j hi hj hij auth hused
    exact List.pairwise_iff_getElem.mp (hpair auth hused) i j hi hj hij
  refine ⟨?_, ?_, ?_, fun x hx auth hin hused => (used_of_trail h auth hused).2 x hx hin⟩
  · intro x hx auth auth' record record' hfirst hsecond
    obtain ⟨hx₁, hx₂⟩ := hstep x hx
    have hone := (hx₁.succeeds hx₂ hfirst).2.2.1
    have htwo := (hx₁.succeeds hx₂ hsecond).2.2.1
    exact List.singleton_injective (List.append_cancel_left (htwo.symm.trans hone))
  · refine hlater.imp_of_mem fun {x y} hx hy hxy auth auth' record record' hid hnonce hfirst => ?_
    obtain ⟨-, -, -, huses⟩ := (hstep x hx).1.succeeds (hstep x hx).2 hfirst
    obtain ⟨used, hin, husedId, hused⟩ := huses hnonce
    exact (hstep y hy).1.not_succeeds (hstep y hy).2 hused (hxy used hused hin)
      (hid.trans husedId.symm) record'
  · refine hlater.imp_of_mem fun {x y} _ hy hxy auth hin hused => ?_
    have hbefore := hxy auth hused hin
    refine ⟨(hstep y hy).1.used_stays (hstep y hy).2 hused hbefore, fun auth' record hid => ?_⟩
    exact (hstep y hy).1.not_succeeds (hstep y hy).2 hused hbefore hid record

end Histories

/-- The note, taken by a handler that answers. -/
def answeredNote : Proc Unit :=
  ((notesExecution answering).execute (.plain [] []) (firstTask authorizedFirst) noteRequest).void

/-- INTERNAL: it succeeds. -/
theorem answeredNote_succeeds :
    ∃ x ∈ answeredNote.trace authorizedFirst, ∃ auth record, auth.nonce.isSome ∧
      SucceedsOn auth record x := by
  have h : ((answeredNote.trace authorizedFirst).any fun x =>
      x.2.committed.toolExecutions.any fun record =>
        decide (record ∉ x.1.committed.toolExecutions) && decide (record.outcome = .success) &&
        (AuthorizationRepository.ofTables x.1.committed record.taskId).getLast?.any
          (·.nonce.isSome)) = true := by decide +kernel
  obtain ⟨x, hx, h⟩ := List.any_eq_true.mp h
  obtain ⟨record, hin, h⟩ := List.any_eq_true.mp h
  rw [Bool.and_eq_true, Bool.and_eq_true] at h
  obtain ⟨⟨hnot, hsuccess⟩, hnewest⟩ := h
  obtain ⟨auth, hlast, hnonce⟩ := (Option.any_eq_true _ _).mp hnewest
  exact ⟨x, hx, auth, record, hnonce, hin, of_decide_eq_true hnot, of_decide_eq_true hsuccess, hlast⟩

/-- The authorization of the first note is used by one SUCCESS, and stays used. -/
theorem note_authorization_used_once :
    ∃ steps w, Trail (operations (.plain [] [])) {} steps w ∧
      (∃ x ∈ steps, ∃ auth record, auth.nonce.isSome ∧ SucceedsOn auth record x) ∧
      (steps.Pairwise fun x y => ∀ auth auth' record record', auth'.id = auth.id →
        auth.nonce.isSome → SucceedsOn auth record x → ¬ SucceedsOn auth' record' y) ∧
      ∀ x ∈ steps, ∀ auth ∈ x.2.committed.authorizations, auth.usedAt.isSome →
        auth ∈ w.committed.authorizations := by
  obtain ⟨steps, hplanned⟩ := Trail.of_history history_authorizedFirst
  have htrail := hplanned.returned (p := answeredNote) (.execute _ _ _)
  obtain ⟨x, hx, hsucceeds⟩ := answeredNote_succeeds
  obtain ⟨-, honce, -, hstays⟩ := one_shot_authorizations htrail
  exact ⟨_, _, htrail, ⟨x, List.mem_append_right _ hx, hsucceeds⟩, honce, hstays⟩

end Shea.Analysis
