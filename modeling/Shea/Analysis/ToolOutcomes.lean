import Shea.Analysis.ToolCalls
import Shea.Model.Sandbox

/-!
# Outcomes of tool calls

The outcome of a tool call is chosen by the executor, passed on by the adapter, and judged and
finalized by the supervisor, whose policy for tools leaves it as it is. A FAILURE allows another try,
an UNKNOWN does not.
-/

set_option autoImplicit false

namespace Shea.Analysis

open Shea.Computation Shea.Model

/-! ## The verdict on a tool operation -/

/-- `f"tool.{request.tool}.{request.action}"`. -/
def toolOperation (request : ToolRequest) : String :=
  "tool." ++ request.tool ++ "." ++ request.action

section Verdict

variable {host : Host} {request : ToolRequest} {w t : World}

/-- INTERNAL: the operation of a request is of the tools' family. -/
theorem operationFamily_toolOperation (request : ToolRequest) :
    operationFamily (toolOperation request) = "tool" := by
  unfold operationFamily beforeFirst toolOperation
  simp only [String.toList_append]
  rfl

/-- INTERNAL: no operation with a policy of its own is a tool operation.
SOURCE: app/verification.py:153-160 -/
theorem policyForOperation_toolOperation (request : ToolRequest) :
    policyForOperation (toolOperation request) = defaultPolicy := by
  have hnamed : ∀ entry ∈ defaultPolicies, operationFamily entry.1 ≠ "tool" := by decide +kernel
  have hnone : defaultPolicies.lookup (toolOperation request) = none := by
    rw [List.lookup_eq_none_iff]
    intro entry hentry
    rw [bne_iff_ne]
    intro heq
    exact hnamed entry hentry (heq ▸ operationFamily_toolOperation request)
  unfold policyForOperation familyPolicy
  rw [hnone, operationFamily_toolOperation]
  rfl

/-- INTERNAL: its evidence is of the generic kind. -/
theorem evidenceKind_toolOperation (request : ToolRequest) :
    evidenceKindForOperation (toolOperation request) = "adapter.generic" := by
  have hne : toolOperation request ≠ "http.fetch" := by
    intro heq
    have hfamily := operationFamily_toolOperation request
    rw [heq] at hfamily
    exact absurd hfamily (by decide)
  unfold evidenceKindForOperation
  rw [if_neg hne, operationFamily_toolOperation]
  rfl

/-- INTERNAL: the verification of a tool call leaves its outcome alone.
SOURCE: app/verify_engine.py -/
theorem evaluateVerification_tool (request : ToolRequest) (verificationId receiptId attemptId : String)
    (contentHash evidenceId : String) (result : AdapterResult) (at_ : Time) :
    ∃ record, evaluateVerification verificationId receiptId attemptId
        (policyForOperation (toolOperation request)) result
        (evidenceWith contentHash evidenceId receiptId attemptId (toolOperation request) result at_) at_ =
          .ok record ∧ record.result = result.outcome := by
  have hcheck : checkEvidence defaultPolicy result (evidenceWith contentHash evidenceId receiptId attemptId
      (toolOperation request) result at_) = (result.outcome, []) := by
    unfold checkEvidence evidenceWith
    rw [evidenceKind_toolOperation]
    rfl
  rw [policyForOperation_toolOperation]
  refine ⟨_, rfl, ?_⟩
  show (checkEvidence defaultPolicy result _).1 = result.outcome
  rw [hcheck]

/-- INTERNAL: so does the finalization.
SOURCE: app/supervisor.py:260-330 -/
theorem finalize_tool {receipt : ExecutionReceipt} {attempt : ExecutionAttempt} {key : Option String}
    {result : AdapterResult} {supervision : SupervisionResult}
    (h : (ExecutionSupervisor.finalize host (toolOperation request) receipt attempt key result).run w =
      (.ok supervision, t)) :
    supervision.adapterResult = result ∧ supervision.receipt.outcome = some result.outcome := by
  obtain ⟨⟨evidence, verification⟩, w₁, hjudge, h⟩ := Program.run_bind_ok h
  have hresult : verification.result = result.outcome := by
    obtain ⟨at_, w₂, -, hjudge⟩ := Program.run_bind_ok hjudge
    obtain ⟨evidenceId, w₃, -, hjudge⟩ := Program.run_bind_ok hjudge
    obtain ⟨built, w₄, hbuilt, hjudge⟩ := Program.run_bind_ok hjudge
    obtain ⟨verificationId, w₅, -, hjudge⟩ := Program.run_bind_ok hjudge
    rw [Program.run_ofExcept] at hbuilt
    obtain ⟨-, contentHash, rfl⟩ := (evidenceFromAdapter_cases host.py evidenceId receipt.id attempt.id
      (toolOperation request) result at_).2 built (Prod.mk.inj hbuilt).1
    obtain ⟨record, hrecord, hsame⟩ := evaluateVerification_tool request
      verificationId receipt.id attempt.id contentHash evidenceId result at_
    rw [hrecord] at hjudge
    obtain ⟨hpair, -⟩ := Prod.mk.inj hjudge
    obtain ⟨-, rfl⟩ := Prod.mk.inj (Except.ok.inj hpair)
    exact hsame
  have hsettled : ExecutionSupervisor.settledResult result verification = result := if_pos hresult
  dsimp only at h
  rw [hsettled, hresult] at h
  obtain ⟨at_, w₂, -, h⟩ := Program.run_bind_ok h
  obtain ⟨_, w₃, -, h⟩ := Program.run_bind_ok h
  obtain ⟨hsupervision, -⟩ := Prod.mk.inj h
  obtain rfl := Except.ok.inj hsupervision
  exact ⟨rfl, rfl⟩

end Verdict

/-! ## After the handler -/

/-- A boundary of the repository, with everything it depends on. -/
inductive KnownBoundary
  | direct
  | sandboxed (boundary : SandboxedExecutionBoundary) (rendering : Rendering) (waiting : FutureWait)
      (scope : BoundaryScope)

def KnownBoundary.run (py : Stdlib) : KnownBoundary → ToolHandler → ToolHandler
  | .direct => UnsafeExecutionBoundary.run
  | .sandboxed boundary rendering waiting scope => boundary.run py rendering waiting scope

/-- It comes to something good, or raises `UnknownOutcomeError` or what is no `Exception`. -/
def EndsWell {α : Type} (good : α → Prop) : Except Err α → Prop
  | .ok a => good a
  | .error (.unknownOutcome _) => True
  | .error e => e.isException = false

/-- Where there is a time limit, the handler is done before anybody waits, or the limit is one that can be
waited for. -/
def CanWait (waiting : FutureWait) (scope : BoundaryScope) (request : ToolRequest) (instant : ℕ) : Prop :=
  ∀ timeout, scope.maxRuntimeSeconds = some timeout →
    waiting.progress timeout request instant = .doneAtOnce ∨ waiting.tooLong timeout = false

/-- The sandbox takes the handler for late. -/
def IsLate (waiting : FutureWait) (scope : BoundaryScope) (request : ToolRequest) (instant : ℕ) : Prop :=
  ∃ timeout, scope.maxRuntimeSeconds = some timeout ∧ waiting.progress timeout request instant = .late

/-- The boundary passes an answer on: the sandbox can wait for it, and takes it for late, or redaction
does not raise and what is left is measured and is not too large. -/
def KnownBoundary.PassesOn (py : Stdlib) (request : ToolRequest) (instant : ℕ)
    (response : ToolResponse) : KnownBoundary → Prop
  | .direct => True
  | .sandboxed boundary rendering waiting scope =>
    CanWait waiting scope request instant ∧ (IsLate waiting scope request instant ∨
      EndsWell (fun data => ∀ limit, scope.maxOutputBytes = some limit → data ≠ .none →
          EndsWell (fun size => size ≤ limit)
            (SandboxedExecutionBoundary.estimateSize rendering data))
        (if scope.redactSecrets then boundary.redactData py rendering response.data
          else .ok response.data))

/-- The call is interrupted by what is no `Exception`, or returns with an outcome that is not FAILURE, and
the supervisor does not finalize it as one. -/
def NotFailed (host : Host) (request : ToolRequest) (call : Proc ExecutionResult) (w : World) : Prop :=
  (∃ e t, call.run w = (.error e, t) ∧ e.isException = false) ∨
  ∃ result t, call.run w = (.ok result, t) ∧ result.outcome ≠ .failure ∧
    ∀ receipt attempt key supervision u v,
      (ExecutionSupervisor.finalize host (toolOperation request) receipt attempt key
        { outcome := ToolExecutorAdapter.appOutcome result.outcome
          error := result.response.error
          evidence := ToolExecutorAdapter.evidenceOf receipt attempt request
            result.response }).run u = (.ok supervision, v) →
      supervision.adapterResult.outcome ≠ .failure ∧ supervision.receipt.outcome ≠ some .failure

section Handlers

variable {host : Host} {py : Stdlib} {request delivered : ToolRequest} {authorized : List String}
  {handler : ToolHandler} {response : ToolResponse} {executor : ToolExecutor} {w : World}

/-- INTERNAL: what the executor makes of an answer.
SOURCE: tools/executor.py:181-198 -/
theorem resultOf_endsWell (host : Host) (x : Except Err ToolResponse) :
    EndsWell (·.success = true) x ↔
      (∃ e, ToolExecutor.resultOf host x = .error e ∧ e.isException = false) ∨
      ∃ result, ToolExecutor.resultOf host x = .ok result ∧ result.outcome ≠ .failure := by
  cases x with
  | ok response =>
    cases hsuccess : response.success <;> simp [ToolExecutor.resultOf, EndsWell, hsuccess]
  | error e => cases e <;> simp [ToolExecutor.resultOf, EndsWell, Err.isException]

/-- INTERNAL: a sequence ends well when its last part does. -/
theorem endsWell_bind {α β : Type} {good : β → Prop} {x : Except Err α} {f : α → Except Err β} :
    EndsWell good (x >>= f) ↔ EndsWell (fun a => EndsWell good (f a)) x := by
  cases x with
  | ok a => exact Iff.rfl
  | error e => cases e <;> exact Iff.rfl

/-- INTERNAL: equivalent goods, at one result. -/
theorem endsWell_congr {α : Type} {good good' : α → Prop} (h : ∀ a, good a ↔ good' a)
    (x : Except Err α) : EndsWell good x ↔ EndsWell good' x := by
  cases x with
  | ok a => exact h a
  | error e => cases e <;> exact Iff.rfl

/-- INTERNAL: the size check.
SOURCE: security/sandbox.py:60-90 -/
theorem limitOutput_endsWell (rendering : Rendering) (scope : BoundaryScope) (response : ToolResponse)
    (hsuccess : response.success = true) :
    EndsWell (·.success = true) (SandboxedExecutionBoundary.limitOutput rendering scope response) ↔
      ∀ limit, scope.maxOutputBytes = some limit → response.data ≠ .none →
        EndsWell (fun size => size ≤ limit)
          (SandboxedExecutionBoundary.estimateSize rendering response.data) := by
  have hlabelled : (SandboxedExecutionBoundary.labelled scope response).success = true := hsuccess
  unfold SandboxedExecutionBoundary.limitOutput
  cases hmax : scope.maxOutputBytes with
  | none =>
    refine ⟨fun _ limit hlimit => ?_, fun _ => hlabelled⟩
    cases hlimit
  | some limit =>
    dsimp only
    split
    next hnone => exact ⟨fun _ _ _ hsome => absurd hnone hsome, fun _ => hlabelled⟩
    next hsome =>
      rw [endsWell_bind]
      have hsize : ∀ size : ℤ, EndsWell (·.success = true)
          (if limit < size then pure (SandboxedExecutionBoundary.oversized response size limit)
            else pure (SandboxedExecutionBoundary.labelled scope response) : Except Err ToolResponse) ↔
          size ≤ limit := by
        intro size
        split
        next hlarge =>
          refine ⟨fun hno => ?_, fun hle => absurd hlarge (not_lt.mpr hle)⟩
          exact absurd (show false = true from hno) (by decide)
        next hfits => exact ⟨fun _ => not_lt.mp hfits, fun _ => hlabelled⟩
      rw [endsWell_congr hsize]
      constructor
      · intro h limit' hlimit _
        obtain rfl := Option.some.inj hlimit
        exact h
      · exact fun h => h limit rfl hsome

/-- INTERNAL: what the sandbox makes of an answer that is in time.
SOURCE: security/sandbox.py:58-115 -/
theorem process_endsWell (boundary : SandboxedExecutionBoundary) (rendering : Rendering)
    (scope : BoundaryScope) (hsuccess : response.success = true) :
    EndsWell (·.success = true) (boundary.process py rendering scope response) ↔
      EndsWell (fun data => ∀ limit, scope.maxOutputBytes = some limit → data ≠ .none →
          EndsWell (fun size => size ≤ limit)
            (SandboxedExecutionBoundary.estimateSize rendering data))
        (if scope.redactSecrets then boundary.redactData py rendering response.data
          else .ok response.data) := by
  unfold SandboxedExecutionBoundary.process
  cases scope.redactSecrets with
  | false => exact limitOutput_endsWell rendering scope response hsuccess
  | true =>
    simp only [if_true]
    unfold SandboxedExecutionBoundary.redactResponse
    rw [endsWell_bind, endsWell_bind]
    refine endsWell_congr (fun data => ?_) _
    let redacted : ToolResponse :=
      { success := response.success
        data := data
        error := response.error.map (boundary.redactor.redact py)
        metadata := response.metadata }
    exact limitOutput_endsWell rendering scope redacted hsuccess

/-- INTERNAL: what a boundary makes of an answer with success. -/
theorem passesOn_iff (b : KnownBoundary) {instant : ℕ} (hreturned : handler delivered instant = .ok response)
    (hsuccess : response.success = true) :
    EndsWell (·.success = true) (b.run py handler delivered instant) ↔
      b.PassesOn py delivered instant response := by
  cases b with
  | direct =>
    refine ⟨fun _ => trivial, fun _ => ?_⟩
    show EndsWell _ (handler delivered instant)
    rw [hreturned]
    exact hsuccess
  | sandboxed boundary rendering waiting scope =>
    show EndsWell _ (SandboxedExecutionBoundary.callHandler py waiting handler scope delivered instant >>=
      boundary.process py rendering scope) ↔ _
    have hprocess : EndsWell (·.success = true) (boundary.process py rendering scope response) ↔ _ :=
      process_endsWell boundary rendering scope hsuccess
    unfold KnownBoundary.PassesOn CanWait IsLate SandboxedExecutionBoundary.callHandler
    dsimp only
    rw [endsWell_bind, ← hprocess]
    cases htimeout : scope.maxRuntimeSeconds with
    | none =>
      dsimp only
      rw [hreturned]
      exact ⟨fun h => ⟨nofun, .inr h⟩, fun h => h.2.resolve_left nofun⟩
    | some timeout =>
      simp only [Option.some.injEq, forall_eq', exists_eq_left']
      cases waiting.progress timeout delivered instant with
      | doneAtOnce => simp [SandboxedExecutionBoundary.resultOf, hreturned, EndsWell]
      | doneInTime =>
        cases waiting.tooLong timeout <;>
          simp [SandboxedExecutionBoundary.resultOf, hreturned, EndsWell, Err.isException]
      | late => cases waiting.tooLong timeout <;> simp [EndsWell, Err.isException]

/-- INTERNAL: the executor's answer.
SOURCE: tools/executor.py:133-198 -/
theorem run_execute (b : KnownBoundary) (hboundary : executor.boundary = b.run host.py)
    (hprepared : executor.prepare host.py request authorized = .ok (handler, delivered)) :
    (executor.execute host request authorized).run w =
      (ToolExecutor.resultOf host (b.run host.py handler delivered w.ticks),
        { w with log := w.log ++ [.handlerCalled
          { request := request, capabilities := authorized, delivered := delivered }] }) := by
  unfold ToolExecutor.execute
  rw [hprepared, hboundary]
  have hnote : ∀ effect, (note effect).run w = (.ok (), { w with log := w.log ++ [effect] }) :=
    fun _ => rfl
  simp only [Program.run_bind, Program.run_ofExcept, hnote, Program.run_get]

/-- INTERNAL: an outcome other than FAILURE comes from an answer that was passed on. -/
theorem passesOn_of_notFailed (host : Host) (b : KnownBoundary) (hboundary : executor.boundary = b.run host.py)
    (hprepared : executor.prepare host.py request authorized = .ok (handler, delivered))
    (hreturned : handler delivered w.ticks = .ok response) (hsuccess : response.success = true)
    (h : NotFailed host request (executor.execute host request authorized) w) :
    b.PassesOn host.py delivered w.ticks response := by
  refine (passesOn_iff b hreturned hsuccess).mp ((resultOf_endsWell host _).mpr ?_)
  rcases h with ⟨e, t, hraised, hbase⟩ | ⟨result, t, hresult, hne, -⟩
  · rw [run_execute b hboundary hprepared] at hraised
    exact .inl ⟨e, congrArg Prod.fst hraised, hbase⟩
  · rw [run_execute b hboundary hprepared] at hresult
    exact .inr ⟨result, congrArg Prod.fst hresult, hne⟩

/-- A handler that answers with success has an outcome other than FAILURE if and only if the boundary
passes its answer on.
SOURCE: tools/executor.py:181-198, security/sandbox.py:34-115 -/
theorem success_not_failed_iff (b : KnownBoundary) (hboundary : executor.boundary = b.run host.py)
    (hprepared : executor.prepare host.py request authorized = .ok (handler, delivered))
    (hreturned : handler delivered w.ticks = .ok response) (hsuccess : response.success = true) :
    NotFailed host request (executor.execute host request authorized) w ↔
      b.PassesOn host.py delivered w.ticks response := by
  refine ⟨passesOn_of_notFailed host b hboundary hprepared hreturned hsuccess, fun hpasses => ?_⟩
  have hrun := run_execute (w := w) b hboundary hprepared
  rcases (resultOf_endsWell host _).mp ((passesOn_iff b hreturned hsuccess).mpr hpasses) with
    ⟨e, hraised, hbase⟩ | ⟨result, hresult, hne⟩
  · rw [hraised] at hrun
    exact .inl ⟨e, _, hrun, hbase⟩
  rw [hresult] at hrun
  refine .inr ⟨result, _, hrun, hne, fun receipt attempt key supervision u v hfinal => ?_⟩
  obtain ⟨hadapter, hreceipt⟩ := finalize_tool hfinal
  have happ : ∀ outcome : ExecutionOutcome, outcome ≠ .failure →
      ToolExecutorAdapter.appOutcome outcome ≠ .failure := by
    intro outcome
    cases outcome <;> simp [ToolExecutorAdapter.appOutcome]
  rw [hadapter, hreceipt]
  exact ⟨happ _ hne, fun hsome => happ _ hne (Option.some.inj hsome)⟩

end Handlers

/-- Texts as they are, and the length of ASCII. -/
def plainRendering : Rendering :=
  { dumps := fun data => .ok (dumps .plain .default data)
    loads := fun _ => .error (.other "JSONDecodeError" "Expecting value")
    str := fun data => .ok (pyStr .plain data)
    encodedLength := fun text => .ok text.length }

/-- A handler that is in time, and time limits that are not too long. -/
def inTime : FutureWait := { progress := fun _ _ _ => .doneInTime, tooLong := fun _ => false }

/-- The sandbox with its defaults, around a handler that is in time. -/
def defaultSandbox : KnownBoundary := .sandboxed {} plainRendering inTime {}

/-- A handler that takes the note and answers with a text. -/
def reciting (text : String) : ToolHandler := fun _ _ => .ok { success := true, data := .str text }

/-- The notes in the sandbox. -/
def sandboxedNotes (text : String) : ToolExecutor :=
  { registry := notesRegistry (reciting text)
    boundary := defaultSandbox.run .plain
    permitAuthority := { secret := "secret" }
    requirePermit := false }

/-- INTERNAL: the sandboxed note is prepared as it stands. -/
theorem sandboxedNotes_prepare (text : String) :
    (sandboxedNotes text).prepare .plain noteRequest ["data.read"] = .ok (reciting text, noteRequest) :=
  rfl

/-- INTERNAL: a text is passed on when it fits. -/
theorem defaultSandbox_passesOn (text : String) (instant : ℕ) :
    defaultSandbox.PassesOn .plain noteRequest instant { success := true, data := .str text } ↔
      (text.length : ℤ) ≤ 1000000 := by
  constructor
  · rintro ⟨-, ⟨timeout, -, hlate⟩ | h⟩
    · cases hlate
    · exact h 1000000 rfl (by simp)
  · intro h
    refine ⟨fun _ _ => .inr rfl, .inr fun limit hlimit _ => ?_⟩
    obtain rfl := Option.some.inj hlimit
    exact h

/-- A short answer of the notes is a SUCCESS. -/
theorem short_note_not_failed :
    NotFailed (.plain [] []) noteRequest
      ((sandboxedNotes "done").execute (.plain [] []) noteRequest ["data.read"]) {} :=
  (@success_not_failed_iff (.plain [] []) _ _ _ _ _ _ _ defaultSandbox rfl
    (sandboxedNotes_prepare "done") rfl rfl).mpr ((defaultSandbox_passesOn "done" 0).mpr (by decide))

/-- One letter more than the sandbox lets through. -/
def longText : String := String.ofList (List.replicate 1000001 'a')

/-- A long one is a FAILURE, although the note was taken. -/
theorem long_note_failed :
    (sandboxedNotes longText).boundary = defaultSandbox.run .plain ∧
      (sandboxedNotes longText).prepare .plain noteRequest ["data.read"] =
        .ok (reciting longText, noteRequest) ∧
      reciting longText noteRequest 0 = .ok { success := true, data := .str longText } ∧
      ¬ NotFailed (.plain [] []) noteRequest
        ((sandboxedNotes longText).execute (.plain [] []) noteRequest ["data.read"]) {} := by
  refine ⟨rfl, sandboxedNotes_prepare longText, rfl, fun h => ?_⟩
  have hpasses := passesOn_of_notFailed (.plain [] []) defaultSandbox rfl
    (sandboxedNotes_prepare longText) rfl rfl h
  have hlength : (longText.length : ℤ) = 1000001 := by
    unfold longText
    rw [String.length_ofList, List.length_replicate]
    rfl
  have hfits := (defaultSandbox_passesOn longText 0).mp hpasses
  rw [hlength] at hfits
  exact absurd hfits (by decide)

end Shea.Analysis
