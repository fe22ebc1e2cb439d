import Shea.Analysis.IdempotencyKeys
import Shea.Analysis.JsonTexts
import Shea.Analysis.PlanRuns
import Mathlib.Data.List.Dedup

/-!
# From the contract to the handler

The execution service makes a contract for a request and mints a permit for it. The adapter verifies
the permit, injects the credentials and hands the request to the executor, which looks up the tool,
verifies the permit again, now for the arguments with the credentials in them, and checks the arguments
against the schema of the tool. Only then is the handler called.
-/

set_option autoImplicit false

namespace Shea.Analysis

open Shea.Computation Shea.Model

/-! ## Capabilities and permits -/

section Permits

/-- INTERNAL: sorted texts stand in order. -/
theorem pairwise_sortedTexts (texts : List String) : (sortedTexts texts).Pairwise (· ≤ ·) := by
  have htotal : Std.Total (fun a b : String => a ≤ b) := ⟨String.le_total⟩
  have htrans : IsTrans String (· ≤ ·) := ⟨fun _ _ _ => String.le_trans⟩
  exact List.pairwise_insertionSort _ _

/-- INTERNAL: sorting twice is sorting once. -/
theorem sortedTexts_sortedTexts (texts : List String) :
    sortedTexts (sortedTexts texts) = sortedTexts texts :=
  (pairwise_sortedTexts texts).insertionSort_eq

/-- INTERNAL: sorting repeats nothing. -/
theorem nodup_sortedTexts {texts : List String} (h : texts.Nodup) : (sortedTexts texts).Nodup :=
  (List.perm_insertionSort _ texts).nodup_iff.mpr h

/-- INTERNAL: and loses nothing. -/
theorem mem_sortedTexts {texts : List String} {text : String} :
    text ∈ sortedTexts texts ↔ text ∈ texts := List.mem_insertionSort _

variable {py : Stdlib} {authority : ExecutionPermitAuthority} {tool action : String}
  {arguments : Dict} {capabilities : List String}

/-- INTERNAL: the order of the capabilities does not matter.
SOURCE: security/permits.py -/
theorem mint_sortedTexts : authority.mint py tool action arguments (sortedTexts capabilities) =
    authority.mint py tool action arguments capabilities := by
  unfold ExecutionPermitAuthority.mint ExecutionPermitAuthority.digestCaps
  rw [sortedTexts_sortedTexts]

/-- A permit is good for what it was minted for. -/
theorem verify_mint : authority.verify py (authority.mint py tool action arguments capabilities) tool
    action arguments (sortedTexts capabilities) = true := by
  unfold ExecutionPermitAuthority.verify
  rw [mint_sortedTexts]
  exact decide_eq_true rfl

end Permits

/-! ## The contract of a request -/

/-- What is known of a request for which a contract was made. -/
structure Authorized (service : ExecutionService) (py : Stdlib) (task : Task) (request : ToolRequest)
    (capabilities : List String) (contract : ExecutionContract) : Prop where
  distinct : capabilities.Nodup
  sufficient : service.executor.validateCapabilities request capabilities = .ok ()
  made : ∃ auth key contractId,
    contract = service.contractOf py task request capabilities auth key contractId

section Calls

variable {service : ExecutionService} {host : Host} {task : Task} {request : ToolRequest}
  {capabilities : List String} {contract : ExecutionContract} {receipt : ExecutionReceipt}
  {attempt : ExecutionAttempt} {w t : World}

/-- INTERNAL: what the checks before the supervisor establish; the capabilities are those of the newest
decision.
SOURCE: execution/service.py:275-340 -/
theorem prepare_decided (h : (service.prepare host task request).run w = (.ok contract, t)) :
    ∃ decision u, DecisionRepository.ofTables u task.id = some decision ∧
      (∀ {γ : Type} {part : Tables → γ}, Unrelated part → part w.working = part w.committed →
        part u = part w.working) ∧
      Authorized service host.py task request (ExecutionService.authorizedCapabilities decision)
        contract := by
  obtain ⟨_, w₁, henforce, h⟩ := Program.run_bind_ok h
  obtain ⟨_, w₂, hbinding, h⟩ := Program.run_bind_ok h
  obtain ⟨_, w₃, hsuppress, h⟩ := Program.run_bind_ok h
  obtain ⟨capabilities, w₄, hdecided, h⟩ := Program.run_bind_ok h
  obtain ⟨_, w₅, hrequired, h⟩ := Program.run_bind_ok h
  obtain ⟨auth, w₆, -, h⟩ := Program.run_bind_ok h
  obtain ⟨contractId, w₇, -, h⟩ := Program.run_bind_ok h
  obtain rfl := Except.ok.inj (congrArg Prod.fst h)
  have hsame : ∀ {γ : Type} {part : Tables → γ}, Unrelated part →
      part w.working = part w.committed → part w₃.working = part w.working := by
    intro γ part hpart hw
    have hkept₁ := (serves_enforce hpart service.security host task request).leaves.run w
    rw [henforce] at hkept₁
    have hkept₂ := (serves_verifyAuthorizationBinding host task request :
      Serves part _).leaves.run w₁
    rw [hbinding] at hkept₂
    have hkept₃ := (serves_suppressDuplicate hpart.auditEvents host task request
      (generateKey host.py task.id request)).leaves.run w₂
    rw [hsuppress] at hkept₃
    exact ((hkept₁.trans hkept₂).trans hkept₃ hw).1
  obtain ⟨found, u, hfound, hdecided⟩ := Program.run_bind_ok hdecided
  obtain ⟨hread, rfl⟩ := Prod.mk.inj hfound
  obtain rfl := Except.ok.inj hread
  cases hnewest : DecisionRepository.ofTables w₃.working task.id with
  | none =>
    dsimp only at hdecided
    rw [hnewest] at hdecided
    cases hdecided
  | some decision =>
    dsimp only at hdecided
    rw [hnewest] at hdecided
    obtain rfl := Except.ok.inj (congrArg Prod.fst hdecided)
    refine ⟨decision, w₃.working, hnewest, hsame, List.nodup_dedup _, ?_, auth, _, contractId, rfl⟩
    unfold ExecutionService.requireCapabilities at hrequired
    cases hvalid : service.executor.validateCapabilities request
        (ExecutionService.authorizedCapabilities decision) with
    | ok _ => rfl
    | error e =>
      rw [hvalid] at hrequired
      cases e with
      | capabilityNotAuthorized tool missing =>
        obtain ⟨_, _, -, hraise⟩ := Program.run_bind_ok hrequired
        cases hraise
      | _ => cases hrequired

/-- INTERNAL: so there are such capabilities. -/
theorem prepare_authorized (h : (service.prepare host task request).run w = (.ok contract, t)) :
    ∃ capabilities, Authorized service host.py task request capabilities contract := by
  obtain ⟨decision, u, -, -, hauthorized⟩ := prepare_decided h
  exact ⟨_, hauthorized⟩

/-- The request as the adapter hands it to the executor. -/
def handedOver (py : Stdlib) (service : ExecutionService) (request : ToolRequest)
    (capabilities : List String) (arguments : Dict) : ToolRequest :=
  { requestId := request.requestId
    tool := request.tool
    action := request.action
    arguments := arguments
    context := Dict.set request.context "_execution_permit" (.dict (ExecutionService.permitDict
      (service.executor.permitAuthority.mint py request.tool request.action request.arguments
        capabilities))) }

/-- The profile for which the credentials are looked up. -/
def profileOf (py : Stdlib) (task : Task) : String := pyStr py (activeProfile task)

/-- The call of the executor on a request. -/
def calledExecutor (service : ExecutionService) (host : Host) (receipt : ExecutionReceipt)
    (attempt : ExecutionAttempt) (request : ToolRequest) (capabilities : List String) (w : World) :
    Except Err AdapterResult × World :=
  match service.executor.prepare host.py request capabilities with
  | .error e => (.error e, w)
  | .ok (handler, delivered) =>
    ((ToolExecutor.resultOf host (service.executor.boundary handler delivered w.ticks)).map fun result =>
        { outcome := ToolExecutorAdapter.appOutcome result.outcome
          error := result.response.error
          evidence := ToolExecutorAdapter.evidenceOf receipt attempt request result.response },
      { w with log := w.log ++
          [.handlerCalled { request := request, capabilities := capabilities,
                            delivered := delivered }] })

/-- The adapter's call of the executor, in one step. -/
theorem run_callExecutor (request : ToolRequest) (capabilities : List String) :
    (ToolExecutorAdapter.callExecutor service.executor host receipt attempt request capabilities).run w =
      calledExecutor service host receipt attempt request capabilities w := by
  unfold ToolExecutorAdapter.callExecutor ToolExecutor.execute calledExecutor
  cases service.executor.prepare host.py request capabilities with
  | error e => rfl
  | ok prepared =>
    obtain ⟨handler, delivered⟩ := prepared
    have hnote : ∀ effect, (note effect).run w = (.ok (), { w with log := w.log ++ [effect] }) :=
      fun _ => rfl
    simp only [Program.run_bind, Program.run_ofExcept, hnote, Program.run_get]
    cases ToolExecutor.resultOf host (service.executor.boundary handler delivered w.ticks) <;> rfl

/-- INTERNAL: the capabilities of the contract.
SOURCE: app/adapters/tool_executor.py:70-73 -/
theorem capabilitiesOf_contractOf (hdistinct : capabilities.Nodup) (auth : Authorization)
    (key contractId : String) : ToolExecutorAdapter.capabilitiesOf host.py
      (service.contractOf host.py task request capabilities auth key contractId) =
        .ok (sortedTexts capabilities) := by
  have hlookup : (service.contractOf host.py task request capabilities auth key contractId).metadata.lookup
      "_authorized_capabilities" = some (.list ((sortedTexts capabilities).map .str)) := rfl
  have htexts : ((sortedTexts capabilities).map Value.str).map (pyStr host.py) =
      sortedTexts capabilities := by
    rw [List.map_map]
    exact List.map_id'' (fun _ => rfl) _
  unfold ToolExecutorAdapter.capabilitiesOf
  rw [hlookup]
  dsimp only
  rw [htexts, (nodup_sortedTexts hdistinct).dedup]

/-- The call of the adapter on the contract of a request.
SOURCE: app/adapters/tool_executor.py:47-117 -/
theorem run_invoke (h : Authorized service host.py task request capabilities contract)
    (receipt : ExecutionReceipt) (attempt : ExecutionAttempt) (w : World) :
    (ToolExecutorAdapter.invoke service.executor service.permits service.broker host contract receipt
      attempt).run w =
      if service.permits.verify host.py (service.executor.permitAuthority.mint host.py request.tool
          request.action request.arguments capabilities) request.tool request.action request.arguments
          (sortedTexts capabilities) then
        match ToolExecutorAdapter.inject service.broker host request.tool (profileOf host.py task)
            w.ticks request.arguments with
        | .error e => (.error e, w)
        | .ok (.error message) => (.ok (ToolExecutorAdapter.refused receipt attempt message), w)
        | .ok (.ok arguments) => calledExecutor service host receipt attempt
            (handedOver host.py service request capabilities arguments) (sortedTexts capabilities) w
      else (.ok (ToolExecutorAdapter.refused receipt attempt
        "execution permit invalid or capability/args mismatch"), w) := by
  obtain ⟨auth, key, contractId, rfl⟩ := h.made
  have hcapabilities : ToolExecutorAdapter.capabilitiesOf host.py
      (service.contractOf host.py task request capabilities auth key contractId) =
        .ok (sortedTexts capabilities) := capabilitiesOf_contractOf h.distinct auth key contractId
  let permit := service.executor.permitAuthority.mint host.py request.tool request.action
    request.arguments capabilities
  have hterms : ToolExecutorAdapter.termsOf host.py
      (service.contractOf host.py task request capabilities auth key contractId)
      (ExecutionService.permitDict permit) =
        .ok (permit, request.tool, request.action, sortedTexts capabilities) := by
    unfold ToolExecutorAdapter.termsOf
    rw [hcapabilities]
    rfl
  have hdeliver : ∀ instant, (ToolExecutorAdapter.deliver service.executor service.broker host
      (service.contractOf host.py task request capabilities auth key contractId) receipt attempt
      (ExecutionService.permitDict permit) request.tool request.action (sortedTexts capabilities)
      instant).run w =
      match ToolExecutorAdapter.inject service.broker host request.tool (profileOf host.py task)
          instant request.arguments with
      | .error e => (.error e, w)
      | .ok (.error message) => (.ok (ToolExecutorAdapter.refused receipt attempt message), w)
      | .ok (.ok arguments) => calledExecutor service host receipt attempt
          (handedOver host.py service request capabilities arguments) (sortedTexts capabilities) w := by
    intro instant
    have hprofile : pyStr host.py (((service.contractOf host.py task request capabilities auth key
        contractId).metadata.lookup "_profile_id").getD (.str "system")) = profileOf host.py task := rfl
    have harguments : (service.contractOf host.py task request capabilities auth key
        contractId).arguments = request.arguments := rfl
    unfold ToolExecutorAdapter.deliver
    rw [hprofile, harguments]
    dsimp only
    cases ToolExecutorAdapter.inject service.broker host request.tool (profileOf host.py task) instant
      request.arguments with
    | error e => rfl
    | ok injected =>
      cases injected with
      | error message => rfl
      | ok arguments => exact run_callExecutor _ _
  have hpresent : (ToolExecutorAdapter.invoke service.executor service.permits service.broker host
      (service.contractOf host.py task request capabilities auth key contractId) receipt attempt) =
      ToolExecutorAdapter.present service.executor service.permits service.broker host
        (service.contractOf host.py task request capabilities auth key contractId) receipt attempt
        (ExecutionService.permitDict permit) := rfl
  rw [hpresent]
  unfold ToolExecutorAdapter.present
  rw [hterms]
  show (if service.permits.verify host.py permit request.tool request.action request.arguments
    (sortedTexts capabilities) then _ else _ : Proc AdapterResult).run w = _
  split
  · exact hdeliver _
  · rfl

/-- INTERNAL: a tool that is found is named by a text.
SOURCE: tools/executor.py:133-139 -/
theorem getFor_eq_ok {registry : ToolRegistry} {entry : ToolDeclaration × ToolHandler} :
    registry.getFor request = .ok entry ↔
      request.toolIsText = true ∧ registry.get request.tool = .ok entry := by
  unfold ToolRegistry.getFor
  split
  · next htext => exact (and_iff_right htext).symm
  · next htext =>
    constructor
    · intro h
      cases h
    · exact fun h => absurd h.1 htext

/-- INTERNAL: capabilities that are sufficient have every one that the tool declares.
SOURCE: tools/executor.py:200-212 -/
theorem missingCapabilities_of_sufficient
    (h : service.executor.validateCapabilities request capabilities = .ok ()) :
    ∃ declaration handler, service.executor.registry.getFor request = .ok (declaration, handler) ∧
      ToolExecutor.missingCapabilities declaration capabilities = [] := by
  unfold ToolExecutor.validateCapabilities at h
  cases hfound : service.executor.registry.getFor request with
  | error e =>
    rw [hfound] at h
    cases h
  | ok entry =>
    obtain ⟨declaration, handler⟩ := entry
    rw [hfound] at h
    refine ⟨declaration, handler, rfl, ?_⟩
    by_contra hsome
    have hnot : (ToolExecutor.missingCapabilities declaration capabilities).isEmpty = false := by
      simpa using hsome
    simp only [bind, Except.bind, hnot] at h
    cases h

/-- INTERNAL: what the executor still checks.
SOURCE: tools/executor.py:133-181 -/
theorem prepare_handedOver (h : Authorized service host.py task request capabilities contract) :
    ∃ declaration handler, service.executor.registry.get request.tool = .ok (declaration, handler) ∧
      ∀ arguments, service.executor.prepare host.py
          (handedOver host.py service request capabilities arguments) (sortedTexts capabilities) =
        (do
          service.executor.checkPermit host.py
            (handedOver host.py service request capabilities arguments) (sortedTexts capabilities)
            (some (service.executor.permitAuthority.mint host.py request.tool request.action
              request.arguments capabilities))
          let delivered ← ToolExecutor.validateArguments host.py
            (handedOver host.py service request capabilities arguments) declaration
          pure (handler, delivered)) := by
  obtain ⟨declaration, handler, hfound, hmissing⟩ := missingCapabilities_of_sufficient h.sufficient
  obtain ⟨-, hfound⟩ := getFor_eq_ok.mp hfound
  have hsorted : ToolExecutor.missingCapabilities declaration (sortedTexts capabilities) = [] := by
    rw [← hmissing]
    unfold ToolExecutor.missingCapabilities
    simp only [mem_sortedTexts]
  refine ⟨declaration, handler, hfound, fun arguments => ?_⟩
  have hpermit : ToolExecutor.permitOf host.py
      (handedOver host.py service request capabilities arguments) =
      .ok (some (service.executor.permitAuthority.mint host.py request.tool request.action
        request.arguments capabilities)) := by
    unfold ToolExecutor.permitOf handedOver
    rw [Dict.get_set_self]
    rfl
  have hget : service.executor.registry.getFor
      (handedOver host.py service request capabilities arguments) = .ok (declaration, handler) :=
    hfound
  unfold ToolExecutor.prepare
  rw [hget, hpermit]
  simp only [bind, Except.bind, hsorted]
  rfl

end Calls

/-! ## Credentials -/

/-- What becomes of one argument: of a reference its secret, of anything else itself. -/
def InjectedAs (py : Stdlib) (broker : CredentialBroker) (tool profileId : String) (instant : ℕ)
    (given delivered : String × Value) : Prop :=
  delivered.1 = given.1 ∧
    match credentialRef py given.2 with
    | none => delivered.2 = given.2
    | some ref => ∃ secret, broker ref tool profileId instant = .ok secret ∧ delivered.2 = .str secret

/-- The broker has a secret for every reference among the arguments. -/
def Resolves (py : Stdlib) (broker : CredentialBroker) (tool profileId : String) (instant : ℕ)
    (arguments : Dict) : Prop :=
  ∀ entry ∈ arguments, ∀ ref, credentialRef py entry.2 = some ref →
    (broker ref tool profileId instant).isOk = true

/-- There is no reference among the arguments. -/
def NoReference (py : Stdlib) (arguments : Dict) : Prop :=
  ∀ entry ∈ arguments, credentialRef py entry.2 = none

/-- The call enters a handler, with every reference replaced by its secret and every other argument as
it was; defaults of the schema may follow. -/
def HandlerGetsSecrets (py : Stdlib) (broker : CredentialBroker) (tool profileId : String)
    (arguments : Dict) (call : Proc AdapterResult) (w : World) : Prop :=
  ∃ entered secrets, (call.run w).2.log = w.log ++ [.handlerCalled entered] ∧
    List.Forall₂ (InjectedAs py broker tool profileId w.ticks) arguments secrets ∧
    secrets <+: entered.delivered.arguments

section Credentials

variable {py : Stdlib} {broker : CredentialBroker} {tool profileId : String} {instant : ℕ}
  {arguments secrets : Dict}

/-- INTERNAL: references that the broker resolves are replaced.
SOURCE: credentials/injection.py:15-44 -/
theorem resolveArgumentCredentials_ok (h : Resolves py broker tool profileId instant arguments) :
    ∃ secrets, resolveArgumentCredentials py broker tool profileId instant arguments = .ok secrets ∧
      List.Forall₂ (InjectedAs py broker tool profileId instant) arguments secrets := by
  induction arguments with
  | nil => exact ⟨[], rfl, .nil⟩
  | cons entry rest ih =>
    obtain ⟨key, value⟩ := entry
    obtain ⟨secrets, hrest, hinjected⟩ := ih fun e he => h e (List.mem_cons_of_mem _ he)
    unfold resolveArgumentCredentials
    cases href : credentialRef py value with
    | none =>
      refine ⟨(key, value) :: secrets, ?_, .cons ⟨rfl, ?_⟩ hinjected⟩
      · simp only [hrest]
        rfl
      · rw [href]
    | some ref =>
      have hok := h (key, value) (List.mem_cons_self ..) ref href
      cases hsecret : broker ref tool profileId instant with
      | error e =>
        rw [hsecret] at hok
        cases hok
      | ok secret =>
        refine ⟨(key, .str secret) :: secrets, ?_, .cons ⟨rfl, ?_⟩ hinjected⟩
        · simp only [hrest, hsecret]
          rfl
        · rw [href]
          exact ⟨secret, hsecret, rfl⟩

/-- INTERNAL: nothing else comes of a replacement that succeeds.
SOURCE: credentials/injection.py:15-44 -/
theorem injected_of_resolved
    (h : resolveArgumentCredentials py broker tool profileId instant arguments = .ok secrets) :
    List.Forall₂ (InjectedAs py broker tool profileId instant) arguments secrets := by
  induction arguments generalizing secrets with
  | nil =>
    obtain rfl := Except.ok.inj h
    exact .nil
  | cons entry rest ih =>
    obtain ⟨key, value⟩ := entry
    unfold resolveArgumentCredentials at h
    cases href : credentialRef py value with
    | none =>
      rw [href] at h
      cases hrest : resolveArgumentCredentials py broker tool profileId instant rest with
      | error e =>
        rw [hrest] at h
        cases h
      | ok others =>
        rw [hrest] at h
        obtain rfl := Except.ok.inj h
        refine .cons ⟨rfl, ?_⟩ (ih hrest)
        rw [href]
    | some ref =>
      rw [href] at h
      cases hsecret : broker ref tool profileId instant with
      | error e =>
        simp only [hsecret] at h
        cases h
      | ok secret =>
        simp only [hsecret] at h
        cases hrest : resolveArgumentCredentials py broker tool profileId instant rest with
        | error e =>
          rw [hrest] at h
          cases h
        | ok others =>
          rw [hrest] at h
          obtain rfl := Except.ok.inj h
          refine .cons ⟨rfl, ?_⟩ (ih hrest)
          rw [href]
          exact ⟨secret, hsecret, rfl⟩

/-- INTERNAL: the replaced arguments are determined. -/
theorem injectedAs_unique {others : Dict}
    (h : List.Forall₂ (InjectedAs py broker tool profileId instant) arguments secrets)
    (h' : List.Forall₂ (InjectedAs py broker tool profileId instant) arguments others) :
    secrets = others := by
  induction h generalizing others with
  | nil =>
    cases h'
    rfl
  | @cons given delivered rest secrets hentry _ ih =>
    cases h' with
    | @cons _ delivered' _ others hentry' hrest' =>
      obtain rfl := ih hrest'
      obtain ⟨hkey, hvalue⟩ := hentry
      obtain ⟨hkey', hvalue'⟩ := hentry'
      have hsame : delivered.2 = delivered'.2 := by
        cases href : credentialRef py given.2 with
        | none =>
          rw [href] at hvalue hvalue'
          exact hvalue.trans hvalue'.symm
        | some ref =>
          rw [href] at hvalue hvalue'
          obtain ⟨secret, hsecret, hdelivered⟩ := hvalue
          obtain ⟨secret', hsecret', hdelivered'⟩ := hvalue'
          obtain rfl := Except.ok.inj (hsecret.symm.trans hsecret')
          exact hdelivered.trans hdelivered'.symm
      rw [Prod.ext (hkey.trans hkey'.symm) hsame]

/-- INTERNAL: without references nothing is replaced. -/
theorem secrets_of_noReference (h : NoReference py arguments)
    (hinjected : List.Forall₂ (InjectedAs py broker tool profileId instant) arguments secrets) :
    secrets = arguments := by
  induction hinjected with
  | nil => rfl
  | @cons given delivered rest secrets hentry _ ih =>
    obtain ⟨hkey, hvalue⟩ := hentry
    rw [h given (List.mem_cons_self ..)] at hvalue
    rw [ih fun e he => h e (List.mem_cons_of_mem _ he), Prod.ext hkey hvalue]

/-- INTERNAL: a default goes behind the arguments that are there.
SOURCE: tools/schema.py -/
theorem prefix_withDefaults (schemas : List (String × ArgumentSchema)) :
    arguments <+: ToolSchema.withDefaults arguments schemas := by
  induction schemas generalizing arguments with
  | nil => exact List.prefix_refl _
  | cons entry rest ih =>
    obtain ⟨name, argument⟩ := entry
    unfold ToolSchema.withDefaults
    split
    next hdefault =>
      rw [Bool.and_eq_true] at hdefault
      have hset := Dict.set_of_missing (by simpa using hdefault.1) argument.default
      exact (hset ▸ List.prefix_append _ _).trans ih
    · exact ih

/-- The value is written as a dictionary. -/
def isDict : Value → Bool
  | .dict _ => true
  | .other _ _ (some value) => isDict value
  | _ => false

/-- INTERNAL: the content of a value is a dictionary when the value is. -/
theorem isDict_canon (value : Value) : isDict value.canon = isDict value := by
  induction value using Value.byWritten with
  | through text traits value ih => exact ih
  | direct value hdirect =>
    cases value with
    | other text traits written =>
      cases written with
      | none => rfl
      | some _ => exact hdirect.elim
    | _ => rfl

/-- An entry with a dictionary for its value. -/
def holdsDict (entry : String × Value) : Bool := isDict entry.2

/-- INTERNAL: a reference is a dictionary, a secret is not. -/
theorem countP_holdsDict
    (h : List.Forall₂ (InjectedAs py broker tool profileId instant) arguments secrets) :
    secrets.countP holdsDict + arguments.countP (fun entry => (credentialRef py entry.2).isSome) =
      arguments.countP holdsDict := by
  induction h with
  | nil => rfl
  | @cons given delivered rest secrets hentry _ ih =>
    obtain ⟨-, hvalue⟩ := hentry
    simp only [List.countP_cons]
    cases href : credentialRef py given.2 with
    | none =>
      rw [href] at hvalue
      have hsame : holdsDict delivered = holdsDict given := by
        unfold holdsDict
        rw [hvalue]
      rw [hsame]
      simp only [Option.isSome_none, Bool.false_eq_true, if_false]
      omega
    | some ref =>
      rw [href] at hvalue
      obtain ⟨secret, -, hsecret⟩ := hvalue
      have hgiven : holdsDict given = true := by
        unfold holdsDict
        unfold credentialRef at href
        split at href
        next heq =>
          rw [heq]
          rfl
        · cases href
      have hdelivered : holdsDict delivered = false := by
        unfold holdsDict
        rw [hsecret]
        rfl
      rw [hgiven, hdelivered]
      simp only [Option.isSome_some, if_true, Bool.false_eq_true, if_false]
      omega

/-- INTERNAL: arguments with secrets have another content than those with the references.
SOURCE: credentials/injection.py:15-44 -/
theorem noReference_of_canon
    (h : List.Forall₂ (InjectedAs py broker tool profileId instant) arguments secrets)
    (hcanon : (Value.dict secrets).canon = (Value.dict arguments).canon) : NoReference py arguments := by
  rw [Value.canon_dict, Value.canon_dict] at hcanon
  have hsorted := Value.dict.inj hcanon
  unfold sortEntries at hsorted
  have hperm : (secrets.map fun entry => (entry.1, entry.2.canon)).Perm
      (arguments.map fun entry => (entry.1, entry.2.canon)) :=
    ((List.perm_insertionSort _ _).symm.trans (.of_eq hsorted)).trans (List.perm_insertionSort _ _)
  have hholds : ∀ entry : String × Value, holdsDict (entry.1, entry.2.canon) = holdsDict entry :=
    fun entry => isDict_canon entry.2
  have hcount := hperm.countP_eq holdsDict
  rw [List.countP_map, List.countP_map,
    show holdsDict ∘ (fun entry : String × Value => (entry.1, entry.2.canon)) = holdsDict from
      funext hholds] at hcount
  have hzero : arguments.countP (fun entry => (credentialRef py entry.2).isSome) = 0 := by
    have htotal := countP_holdsDict h
    omega
  intro entry hentry
  have hnot := List.countP_eq_zero.mp hzero entry hentry
  simpa using hnot

/-- No two texts have the same hash, and floats are written as `json` writes them. -/
structure CollisionFree (py : Stdlib) : Prop where
  sha256 : Function.Injective py.sha256
  hmacSha256 (secret : String) : Function.Injective (py.hmacSha256 secret)
  floats : FloatTexts py

/-- INTERNAL: the digest of the arguments tells their content. -/
theorem canon_of_digestArgs (hpy : CollisionFree py) {a b : Dict}
    (h : ExecutionPermitAuthority.digestArgs py a = ExecutionPermitAuthority.digestArgs py b) :
    (Value.dict a).canon = (Value.dict b).canon :=
  (dumps_eq_iff hpy.floats rfl).mp (hpy.sha256 h)

/-- INTERNAL: a permit is good for other arguments only if they have the same digest. -/
theorem digestArgs_of_verify {authority : ExecutionPermitAuthority}
    (hhmac : Function.Injective (py.hmacSha256 authority.secret)) {action : String}
    {capabilities : List String} {a b : Dict}
    (h : authority.verify py (authority.mint py tool action a capabilities) tool action b
      (sortedTexts capabilities) = true) :
    ExecutionPermitAuthority.digestArgs py a = ExecutionPermitAuthority.digestArgs py b := by
  unfold ExecutionPermitAuthority.verify at h
  rw [mint_sortedTexts] at h
  have hmessage := congrArg String.toList (hhmac (of_decide_eq_true h))
  simp only [ExecutionPermitAuthority.message, String.toList_append] at hmessage
  have hdigest := List.append_cancel_right (List.append_cancel_right hmessage)
  exact String.toList_inj.mp (List.append_cancel_left hdigest)

/-- INTERNAL: what is injected was resolved. -/
theorem resolveArgumentCredentials_of_injected
    (h : List.Forall₂ (InjectedAs py broker tool profileId instant) arguments secrets) :
    resolveArgumentCredentials py broker tool profileId instant arguments = .ok secrets := by
  have hresolves : Resolves py broker tool profileId instant arguments := by
    intro entry hentry ref href
    obtain ⟨i, hi, rfl⟩ := List.getElem_of_mem hentry
    obtain ⟨-, hvalue⟩ := (List.forall₂_iff_get.mp h).2 i hi (h.length_eq ▸ hi)
    rw [List.get_eq_getElem, href] at hvalue
    obtain ⟨secret, hsecret, -⟩ := hvalue
    rw [hsecret]
    rfl
  obtain ⟨others, hok, hothers⟩ := resolveArgumentCredentials_ok hresolves
  rw [hok, injectedAs_unique h hothers]

end Credentials

/-- The permit minted for the request as it is also fits these arguments. -/
def PermitFits (service : ExecutionService) (py : Stdlib) (request : ToolRequest)
    (capabilities : List String) (arguments : Dict) : Prop :=
  service.permits.verify py (service.permits.mint py request.tool request.action request.arguments
    capabilities) request.tool request.action arguments (sortedTexts capabilities) = true

/-- The schema of the tool takes these arguments. -/
def SchemaTakes (service : ExecutionService) (py : Stdlib) (request : ToolRequest)
    (arguments : Dict) : Prop :=
  ∀ declaration handler, service.executor.registry.get request.tool = .ok (declaration, handler) →
    (ToolExecutor.validateArguments py { request with arguments := arguments } declaration).isOk = true

section Delivery

variable {service : ExecutionService} {host : Host} {task : Task} {request : ToolRequest}
  {capabilities : List String} {contract : ExecutionContract} {receipt : ExecutionReceipt}
  {attempt : ExecutionAttempt} {w : World} {broker : CredentialBroker} {secrets : Dict}

/-- INTERNAL: a schema looks at the arguments only.
SOURCE: tools/executor.py:214-240 -/
theorem validateArguments_arguments (py : Stdlib) (a b : ToolRequest) (h : a.arguments = b.arguments)
    (declaration : ToolDeclaration) :
    (ToolExecutor.validateArguments py a declaration).map ToolRequest.arguments =
      (ToolExecutor.validateArguments py b declaration).map ToolRequest.arguments := by
  unfold ToolExecutor.validateArguments
  cases declaration.argumentSchema with
  | none => exact congrArg Except.ok h
  | some schema =>
    have hsame : schema.getValidatedArguments py a = schema.getValidatedArguments py b := by
      unfold ToolSchema.getValidatedArguments ToolSchema.validateRequest ToolSchema.missingErrors
      rw [h]
    dsimp only
    rw [hsame]
    cases schema.getValidatedArguments py b <;> rfl

/-- INTERNAL: the arguments that were given come first in those that are delivered. -/
theorem prefix_validateArguments {py : Stdlib} {a delivered : ToolRequest}
    {declaration : ToolDeclaration}
    (h : ToolExecutor.validateArguments py a declaration = .ok delivered) :
    a.arguments <+: delivered.arguments := by
  unfold ToolExecutor.validateArguments at h
  split at h
  · obtain rfl := Except.ok.inj h
    exact List.prefix_refl _
  next schema _ =>
    have hbind : ∀ x : Except Err Dict, (do
        let arguments ← x
        pure { a with arguments := arguments } : Except Err ToolRequest) = .ok delivered →
        ∃ arguments, x = .ok arguments ∧ delivered.arguments = arguments := by
      intro x hx
      cases x with
      | error e => cases hx
      | ok arguments =>
        obtain rfl := Except.ok.inj hx
        exact ⟨arguments, rfl, rfl⟩
    obtain ⟨arguments, hvalid, hdelivered⟩ := hbind _ h
    rw [hdelivered]
    unfold ToolSchema.getValidatedArguments at hvalid
    cases herrors : schema.validateRequest py a with
    | error e =>
      rw [herrors] at hvalid
      cases hvalid
    | ok errors =>
      rw [herrors] at hvalid
      simp only [bind, Except.bind] at hvalid
      split at hvalid
      · obtain rfl := Except.ok.inj hvalid
        exact prefix_withDefaults _
      · cases hvalid

/-- INTERNAL: the executor calls the handler when the permit fits and the schema takes the arguments.
SOURCE: tools/executor.py:133-198 -/
theorem calledExecutor_iff (hshared : service.executor.permitAuthority = service.permits)
    (hrequire : service.executor.requirePermit = true)
    (h : Authorized service host.py task request capabilities contract)
    (hsecrets : List.Forall₂ (InjectedAs host.py broker request.tool (profileOf host.py task) w.ticks)
      request.arguments secrets) :
    (∃ entered given, (calledExecutor service host receipt attempt
        (handedOver host.py service request capabilities secrets) (sortedTexts capabilities) w).2.log =
          w.log ++ [.handlerCalled entered] ∧
      List.Forall₂ (InjectedAs host.py broker request.tool (profileOf host.py task) w.ticks)
        request.arguments given ∧ given <+: entered.delivered.arguments) ↔
      PermitFits service host.py request capabilities secrets ∧
        SchemaTakes service host.py request secrets := by
  obtain ⟨declaration, handler, hfound, hprepared⟩ := prepare_handedOver h
  have hprepared := hprepared secrets
  have hsilent : ∀ entered : HandlerCall, w.log ≠ w.log ++ [.handlerCalled entered] :=
    fun entered heq => List.cons_ne_nil _ _ (List.self_eq_append_right.mp heq)
  have htakes : SchemaTakes service host.py request secrets ↔
      (ToolExecutor.validateArguments host.py
        (handedOver host.py service request capabilities secrets) declaration).isOk = true := by
    have hok : ∀ x : Except Err ToolRequest, x.isOk = (x.map ToolRequest.arguments).isOk := by
      intro x
      cases x <;> rfl
    have hsame := validateArguments_arguments host.py { request with arguments := secrets }
      (handedOver host.py service request capabilities secrets) rfl declaration
    rw [hok, ← hsame, ← hok]
    constructor
    · exact fun htakes => htakes declaration handler hfound
    · intro hvalid declaration' handler' hfound'
      obtain ⟨rfl, -⟩ := Prod.mk.inj (Except.ok.inj (hfound.symm.trans hfound'))
      exact hvalid
  rw [hshared] at hprepared
  unfold ToolExecutor.checkPermit at hprepared
  rw [hrequire, hshared, Bool.true_and, Option.any_some] at hprepared
  by_cases hfits : PermitFits service host.py request capabilities secrets
  case neg =>
    have hno : service.permits.verify host.py (service.permits.mint host.py request.tool request.action
        request.arguments capabilities) request.tool request.action secrets
        (sortedTexts capabilities) = false := by
      simpa [PermitFits] using hfits
    have herror : service.executor.prepare host.py
        (handedOver host.py service request capabilities secrets) (sortedTexts capabilities) =
        .error (.capabilityNotAuthorized request.tool ["<execution_permit_invalid>"]) := by
      rw [hprepared]
      unfold handedOver
      rw [hno]
      rfl
    unfold calledExecutor
    rw [herror]
    constructor
    · rintro ⟨entered, -, hlog, -⟩
      exact absurd hlog (hsilent entered)
    · exact fun hboth => absurd hboth.1 hfits
  have hvalidated : service.executor.prepare host.py
      (handedOver host.py service request capabilities secrets) (sortedTexts capabilities) =
      (ToolExecutor.validateArguments host.py
        (handedOver host.py service request capabilities secrets) declaration).map
          fun delivered => (handler, delivered) := by
    have hyes : service.permits.verify host.py (service.permits.mint host.py request.tool
        request.action request.arguments capabilities) request.tool request.action secrets
        (sortedTexts capabilities) = true := hfits
    rw [hprepared]
    unfold handedOver
    rw [hyes]
    rfl
  rw [htakes]
  unfold calledExecutor
  rw [hvalidated]
  cases hvalid : ToolExecutor.validateArguments host.py
    (handedOver host.py service request capabilities secrets) declaration with
  | error e =>
    constructor
    · rintro ⟨entered, -, hlog, -⟩
      exact absurd hlog (hsilent entered)
    · rintro ⟨-, hok⟩
      cases hok
  | ok delivered =>
    constructor
    · exact fun _ => ⟨hfits, rfl⟩
    · exact fun _ => ⟨_, secrets, rfl, hsecrets, prefix_validateArguments hvalid⟩

/-- INTERNAL: so does the adapter.
SOURCE: app/adapters/tool_executor.py:74-117 -/
theorem handlerGetsSecrets_iff (hshared : service.executor.permitAuthority = service.permits)
    (hrequire : service.executor.requirePermit = true) (hbroker : service.broker = some broker)
    (h : Authorized service host.py task request capabilities contract)
    (hsecrets : List.Forall₂ (InjectedAs host.py broker request.tool (profileOf host.py task) w.ticks)
      request.arguments secrets) :
    HandlerGetsSecrets host.py broker request.tool (profileOf host.py task) request.arguments
        (ToolExecutorAdapter.invoke service.executor service.permits service.broker host contract
          receipt attempt) w ↔
      PermitFits service host.py request capabilities secrets ∧
        SchemaTakes service host.py request secrets := by
  have hinject : ToolExecutorAdapter.inject service.broker host request.tool (profileOf host.py task)
      w.ticks request.arguments = .ok (.ok secrets) := by
    unfold ToolExecutorAdapter.inject
    rw [hbroker]
    dsimp only
    rw [resolveArgumentCredentials_of_injected hsecrets]
  have hrun := run_invoke h receipt attempt w
  rw [hshared, if_pos verify_mint, hinject] at hrun
  unfold HandlerGetsSecrets
  rw [hrun]
  exact calledExecutor_iff hshared hrequire h hsecrets

/-- The executor verifies the permit again, for the arguments with the secrets in them. Where there is
a reference among the arguments, no handler is called, unless two texts have the same hash.
SOURCE: app/adapters/tool_executor.py:74-117, tools/executor.py:133-181 -/
theorem secrets_reach_handler_iff (hshared : service.executor.permitAuthority = service.permits)
    (hrequire : service.executor.requirePermit = true) (hbroker : service.broker = some broker)
    (h : Authorized service host.py task request capabilities contract)
    (hsecrets : List.Forall₂ (InjectedAs host.py broker request.tool (profileOf host.py task) w.ticks)
      request.arguments secrets) :
    (HandlerGetsSecrets host.py broker request.tool (profileOf host.py task) request.arguments
        (ToolExecutorAdapter.invoke service.executor service.permits service.broker host contract
          receipt attempt) w ↔
      PermitFits service host.py request capabilities secrets ∧
        SchemaTakes service host.py request secrets) ∧
    (CollisionFree host.py → (PermitFits service host.py request capabilities secrets ↔
      NoReference host.py request.arguments)) := by
  refine ⟨handlerGetsSecrets_iff hshared hrequire hbroker h hsecrets, fun hpy =>
    ⟨fun hfits => ?_, fun hnone => ?_⟩⟩
  · refine noReference_of_canon hsecrets (canon_of_digestArgs hpy ?_)
    exact (digestArgs_of_verify (hpy.hmacSha256 _) hfits).symm
  · unfold PermitFits
    rw [secrets_of_noReference hnone hsecrets]
    exact verify_mint

end Delivery

/-- A broker that has a secret for everything. -/
def openVault : CredentialBroker := fun ref _ _ _ => .ok ("secret of " ++ ref.id)

/-- The notes, with that broker. -/
def vaultExecution : ExecutionService :=
  { notesExecution answering with broker := some openVault }

/-- A note with an argument. -/
def tokenRequest (token : Value) : ToolRequest :=
  { noteRequest with arguments := [("token", token)] }

/-- The planning of that note. -/
def tokenPlanning (token : Value) : PlanningService :=
  { notesPlanning answering with
    templates :=
      { templates := [("note", fun _ => .ok [
          { tool := "notes", action := "add", arguments := [("token", token)] }])] } }

/-- The state in which that note is authorized. -/
def tokenAuthorized (token : Value) : World :=
  authorizedNote (.plain [] []) (((tokenPlanning token).createAndPlan (.plain [] [])
    { sessionId := "session", requestText := "note" }).run {}).2

/-- Its contract. -/
def tokenPrepared (token : Value) : Except Err ExecutionContract × World :=
  (vaultExecution.prepare (.plain [] []) (firstTask (tokenAuthorized token)) (tokenRequest token)).run
    (tokenAuthorized token)

/-- INTERNAL: a contract is made for it, whether the argument is a text or a reference. -/
theorem tokenPrepared_authorized (token : Value)
    (h : (tokenPrepared token).1.toOption.isSome = true) :
    ∃ capabilities contract, (tokenPrepared token).1 = .ok contract ∧
      Authorized vaultExecution .plain (firstTask (tokenAuthorized token)) (tokenRequest token)
        capabilities contract := by
  cases hrun : tokenPrepared token with
  | mk r t =>
    rw [hrun] at h
    cases r with
    | error e => cases h
    | ok contract =>
      obtain ⟨capabilities, hauthorized⟩ := prepare_authorized hrun
      exact ⟨capabilities, contract, rfl, hauthorized⟩

/-- INTERNAL: the tool for notes takes everything. -/
theorem schemaTakes_notes (request : ToolRequest) (hnotes : request.tool = "notes") (arguments : Dict) :
    SchemaTakes vaultExecution .plain request arguments := by
  intro declaration handler hfound
  rw [hnotes] at hfound
  have hnote : vaultExecution.executor.registry.get "notes" = .ok (notesTool, answering) := rfl
  obtain ⟨rfl, -⟩ := Prod.mk.inj (Except.ok.inj (hnote.symm.trans hfound))
  rfl

/-- A note with a text for its argument gets to the handler. -/
theorem plain_token_delivered :
    ∃ contract, (tokenPrepared (.str "abc")).1 = .ok contract ∧ ∀ receipt attempt w,
      HandlerGetsSecrets .plain openVault "notes"
        (profileOf .plain (firstTask (tokenAuthorized (.str "abc")))) [("token", .str "abc")]
        (ToolExecutorAdapter.invoke vaultExecution.executor vaultExecution.permits
          vaultExecution.broker (.plain [] []) contract receipt attempt) w := by
  obtain ⟨capabilities, contract, hcontract, h⟩ :=
    tokenPrepared_authorized (.str "abc") (by decide +kernel)
  refine ⟨contract, hcontract, fun receipt attempt w => ?_⟩
  have hsecrets : List.Forall₂ (InjectedAs .plain openVault "notes"
      (profileOf .plain (firstTask (tokenAuthorized (.str "abc")))) w.ticks) [("token", .str "abc")]
      [("token", .str "abc")] := .cons ⟨rfl, rfl⟩ .nil
  exact (@secrets_reach_handler_iff vaultExecution (.plain [] []) _ _ _ _ _ _ _ _ _ rfl rfl rfl h hsecrets).1.mpr
    ⟨verify_mint, schemaTakes_notes _ rfl _⟩

/-- A note with a reference for its argument does not. -/
theorem token_reference_not_delivered :
    ∃ contract, (tokenPrepared (.dict [("__credential_ref__", .str "key")])).1 = .ok contract ∧
      ∀ receipt attempt w,
        List.Forall₂ (InjectedAs .plain openVault "notes" (profileOf .plain (firstTask
          (tokenAuthorized (.dict [("__credential_ref__", .str "key")])))) w.ticks)
          [("token", .dict [("__credential_ref__", .str "key")])] [("token", .str "secret of key")] ∧
        ¬ HandlerGetsSecrets .plain openVault "notes" (profileOf .plain (firstTask
            (tokenAuthorized (.dict [("__credential_ref__", .str "key")]))))
          [("token", .dict [("__credential_ref__", .str "key")])]
          (ToolExecutorAdapter.invoke vaultExecution.executor vaultExecution.permits
            vaultExecution.broker (.plain [] []) contract receipt attempt) w := by
  obtain ⟨capabilities, contract, hcontract, h⟩ := tokenPrepared_authorized
    (.dict [("__credential_ref__", .str "key")]) (by decide +kernel)
  refine ⟨contract, hcontract, fun receipt attempt w => ?_⟩
  have hsecrets : List.Forall₂ (InjectedAs .plain openVault "notes" (profileOf .plain (firstTask
      (tokenAuthorized (.dict [("__credential_ref__", .str "key")])))) w.ticks)
      [("token", .dict [("__credential_ref__", .str "key")])] [("token", .str "secret of key")] :=
    .cons ⟨rfl, "secret of key", rfl, rfl⟩ .nil
  refine ⟨hsecrets, fun hgets => ?_⟩
  obtain ⟨hfits, -⟩ := (@handlerGetsSecrets_iff vaultExecution (.plain [] []) _ _ _ _ _ _ _ _ _ rfl rfl
    rfl h hsecrets).mp hgets
  have hhmac : Function.Injective (Stdlib.plain.hmacSha256 "secret") := by
    intro a b hab
    have hchars := congrArg String.toList hab
    simp only [Stdlib.plain, String.toList_append] at hchars
    exact String.toList_inj.mp (List.append_cancel_left hchars)
  have hdigest := digestArgs_of_verify hhmac hfits
  revert hdigest
  decide +kernel

end Shea.Analysis
