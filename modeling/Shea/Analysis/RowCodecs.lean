import Shea.Model.Rows
import Shea.Analysis.Expiry
import Shea.Analysis.JsonValues

/-!
# Records come back from their rows

What `_row_to_…` makes of the row of a record is the record itself, if its dates are in UTC and its
dictionaries are ones that JSON keeps. The assignments of `ON CONFLICT(id) DO UPDATE SET` do to the rows what
`merge` does to the records.
-/

set_option autoImplicit false

namespace Shea.Analysis

open Shea.Computation Shea.Model

/-! ## Cells -/

/-- The members of an enumeration have different values, none of them empty. -/
class LawfulEnumeration (α : Type) [Enumeration α] : Prop where
  asEnum_ofEnum : ∀ member : α, (Cell.ofEnum member).asEnum = some member
  truthy_ofEnum : ∀ member : α, (Cell.ofEnum member).truthy = true

instance : LawfulEnumeration TaskState := ⟨by rintro ⟨⟩ <;> rfl, by rintro ⟨⟩ <;> rfl⟩

instance : LawfulEnumeration RiskLevel := ⟨by rintro ⟨⟩ <;> rfl, by rintro ⟨⟩ <;> rfl⟩

instance : LawfulEnumeration ExecutionOutcome := ⟨by rintro ⟨⟩ <;> rfl, by rintro ⟨⟩ <;> rfl⟩

instance : LawfulEnumeration AppOutcome := ⟨by rintro ⟨⟩ <;> rfl, by rintro ⟨⟩ <;> rfl⟩

instance : LawfulEnumeration ReceiptState := ⟨by rintro ⟨⟩ <;> rfl, by rintro ⟨⟩ <;> rfl⟩

instance : LawfulEnumeration AttemptState := ⟨by rintro ⟨⟩ <;> rfl, by rintro ⟨⟩ <;> rfl⟩

instance : LawfulEnumeration IdempotencyState := ⟨by rintro ⟨⟩ <;> rfl, by rintro ⟨⟩ <;> rfl⟩

/-- A member of an enumeration, or none, comes back. -/
theorem asEnumOption_ofEnumOption {α : Type} [Enumeration α] [LawfulEnumeration α] (member : Option α) :
    (Cell.ofEnumOption member).asEnumOption = some member := by
  cases member with
  | none => rfl
  | some member =>
    have htruthy := LawfulEnumeration.truthy_ofEnum member
    have henum := LawfulEnumeration.asEnum_ofEnum member
    unfold Cell.asEnumOption
    exact (if_pos htruthy).trans (congrArg (Option.map some) henum)

/-- INTERNAL: members are known by their cells. -/
theorem ofEnum_inj {α : Type} [Enumeration α] [LawfulEnumeration α] {a b : α} :
    Cell.ofEnum a = Cell.ofEnum b ↔ a = b := by
  refine ⟨fun h => ?_, fun h => by rw [h]⟩
  have hread : ((Cell.ofEnum a).asEnum : Option α) = (Cell.ofEnum b).asEnum := by rw [h]
  rw [LawfulEnumeration.asEnum_ofEnum, LawfulEnumeration.asEnum_ofEnum] at hread
  exact Option.some.inj hread

/-- A text, or none, comes back. -/
theorem asOption_ofOption (text : Option String) : (Cell.ofOption text).asOption = some text := by
  cases text <;> rfl

/-- A flag comes back. -/
theorem truthy_ofBool (flag : Bool) : some (Cell.ofBool flag).truthy = some flag := by cases flag <;> rfl

/-- A flag, or none, comes back. -/
theorem asBoolOption_ofBoolOption (flag : Option Bool) :
    some (Cell.ofBoolOption flag).asBoolOption = some flag := by
  rcases flag with _ | _ | _ <;> rfl

/-- A float that is no NaN comes back. -/
theorem asFloat_ofFloat {x : PyFloat} (h : x ≠ .nan) : (Cell.ofFloat x).asFloat = some x := by
  unfold Cell.ofFloat
  rw [if_neg h]
  rfl

/-- INTERNAL: only a NaN is stored as `NULL`. -/
theorem ofFloat_eq_null_iff (x : PyFloat) : Cell.ofFloat x = .null ↔ x = .nan := by
  unfold Cell.ofFloat
  split <;> simp_all

/-- INTERNAL: the order of a column of texts. -/
theorem text_le_iff (a b : String) : (Cell.text a).le (.text b) = true ↔ a ≤ b := decide_eq_true_iff

/-- INTERNAL: the order of a column of numbers. -/
theorem integer_le_iff (m n : ℕ) : (Cell.integer m).le (.integer n) = true ↔ m ≤ n := by
  unfold Cell.le
  rw [decide_eq_true_iff]
  exact Int.ofNat_le

/-- INTERNAL: a condition on a column of texts that may be `NULL`. -/
theorem ofOption_eq_text_iff (o : Option String) (s : String) : Cell.ofOption o = .text s ↔ o = some s := by
  cases o <;> simp [Cell.ofOption]

/-! ## What the columns rely on -/

/-- Dates in UTC come back from their texts, and floats from theirs. -/
structure ColumnsReadBack (py : Stdlib) (floatOf : String → PyFloat) : Prop where
  writes : WritesUtc py
  reads : ∀ d : UtcDatetime, py.fromisoformat d.isoformat = some d.instant
  floats : FloatsReadBack py floatOf

/-- A value that goes through a column of JSON text unchanged. -/
structure KeptByJson (py : Stdlib) (floatOf : String → PyFloat) (v : Value) : Prop where
  kept : JsonKept py floatOf v
  serial : v.serializable = true

/-- What is written of a value into a column of JSON text. -/
def jsonCell (py : Stdlib) (v : Value) : Cell := .text ((jsonDumps py v).getD "")

section Reading

variable {py : Stdlib} {floatOf : String → PyFloat}

/-- An instant in UTC comes back. -/
theorem ColumnsReadBack.asTime_ofTime (h : ColumnsReadBack py floatOf) {instant : Time} (hutc : IsUtc instant) :
    (Cell.ofTime py instant).asTime py = some instant := by
  obtain ⟨d, rfl⟩ := hutc
  have hreads := h.reads d
  unfold Cell.ofTime
  rw [h.writes d]
  exact hreads

/-- An instant, or none, comes back. -/
theorem ColumnsReadBack.asTimeOption_ofTimeOption (h : ColumnsReadBack py floatOf) {instant : Option Time}
    (hutc : ∀ t ∈ instant, IsUtc t) : (Cell.ofTimeOption py instant).asTimeOption py = some instant := by
  cases instant with
  | none => rfl
  | some instant => exact congrArg (Option.map some) (h.asTime_ofTime (hutc instant rfl))

/-- The order of a column of instants. -/
theorem ColumnsReadBack.ofTime_le (h : ColumnsReadBack py floatOf) {a b : Time} (ha : IsUtc a) (hb : IsUtc b) :
    (Cell.ofTime py a).le (Cell.ofTime py b) = true ↔ a ≤ b := by
  obtain ⟨d, rfl⟩ := ha
  obtain ⟨e, rfl⟩ := hb
  unfold Cell.ofTime
  rw [h.writes, h.writes, text_le_iff]
  exact UtcDatetime.isoformat_le_iff d e

/-- A value that JSON keeps comes back. -/
theorem ColumnsReadBack.asJson_jsonCell (h : ColumnsReadBack py floatOf) {v : Value}
    (hv : KeptByJson py floatOf v) : (jsonCell py v).asJson floatOf = some v := by
  obtain ⟨text, hdumps, hloads⟩ := jsonLoads_of_jsonKept h.floats hv.kept hv.serial
  unfold jsonCell
  rw [hdumps]
  exact hloads

/-- INTERNAL: a JSON text is not empty. -/
theorem ColumnsReadBack.truthy_jsonCell (h : ColumnsReadBack py floatOf) {v : Value}
    (hv : KeptByJson py floatOf v) : (jsonCell py v).truthy = true := by
  obtain ⟨text, hdumps, hloads⟩ := jsonLoads_of_jsonKept h.floats hv.kept hv.serial
  have hne : text ≠ "" := by
    rintro rfl
    cases hloads
  unfold jsonCell
  rw [hdumps]
  exact decide_eq_true hne

/-- A dictionary comes back. -/
theorem ColumnsReadBack.asDict_jsonCell (h : ColumnsReadBack py floatOf) {d : Dict}
    (hd : KeptByJson py floatOf (.dict d)) : (jsonCell py (.dict d)).asDict floatOf = some d := by
  unfold Cell.asDict
  rw [h.asJson_jsonCell hd]
  rfl

/-- So it does from a column with a default. -/
theorem ColumnsReadBack.asDictOrEmpty_jsonCell (h : ColumnsReadBack py floatOf) {d : Dict}
    (hd : KeptByJson py floatOf (.dict d)) : (jsonCell py (.dict d)).asDictOrEmpty floatOf = some d := by
  unfold Cell.asDictOrEmpty
  rw [if_pos (h.truthy_jsonCell hd), h.asDict_jsonCell hd]

/-- INTERNAL: a list of texts is kept. -/
theorem keptByJson_texts (texts : List String) : KeptByJson py floatOf (.list (texts.map .str)) := by
  constructor
  · refine jsonKeptItems_iff.mpr fun x hx => ?_
    obtain ⟨text, -, rfl⟩ := List.mem_map.mp hx
    trivial
  · induction texts with
    | nil => rfl
    | cons text texts ih => exact ih

/-- A list of texts comes back. -/
theorem ColumnsReadBack.asTexts_textsCell (h : ColumnsReadBack py floatOf) (texts : List String) :
    (Sql.textsCell py texts).asTexts floatOf = some texts := by
  have hjson : (Sql.textsCell py texts).asJson floatOf = some (.list (texts.map .str)) :=
    h.asJson_jsonCell (keptByJson_texts texts)
  unfold Cell.asTexts
  rw [hjson]
  clear hjson
  change (texts.map Value.str).mapM _ = some texts
  induction texts with
  | nil => rfl
  | cons text texts ih =>
    rw [List.map_cons, List.mapM_cons, ih]
    rfl

/-- What is written of a value can be read, or it has an object in it and a `TypeError` is raised. -/
theorem jsonText_eq (h : ColumnsReadBack py floatOf) {v : Value} (hv : JsonKept py floatOf v) :
    Sql.jsonText py v =
      if v.serializable then .ok ((jsonDumps py v).getD "")
      else .error (.typeError "Object is not JSON serializable") := by
  unfold Sql.jsonText
  by_cases hserial : v.serializable = true
  · obtain ⟨text, hdumps, -⟩ := jsonLoads_of_jsonKept h.floats hv hserial
    rw [hdumps]
    exact (if_pos hserial).symm
  · have hnone : jsonDumps py v = none := by
      unfold jsonDumps
      rw [Option.map_eq_none_iff]
      refine Option.eq_none_iff_forall_ne_some.mpr fun letters hletters => ?_
      exact hserial (serializable_of_jsonLetters v hletters)
    rw [hnone]
    exact (if_neg hserial).trans (if_neg hserial).symm

/-! ## Records -/

/-- INTERNAL: one more cell is read. -/
theorem read_bind {α β : Type} {x : Option α} {a : α} {f : α → Option β} {b : β} (h : x = some a)
    (hnext : f a = some b) : (x >>= f) = some b := by
  subst h
  exact hnext

/-- A decision comes back. -/
theorem rowToDecision_row (h : ColumnsReadBack py floatOf) (d : Decision) :
    Sql.DecisionRepository.rowToDecision floatOf (Sql.DecisionRepository.row py d) = some d :=
  read_bind rfl <| read_bind rfl <| read_bind rfl <|
    read_bind (LawfulEnumeration.asEnum_ofEnum d.risk) <| read_bind (truthy_ofBool _) <|
    read_bind (truthy_ofBool _) <| read_bind (truthy_ofBool _) <|
    read_bind (h.asTexts_textsCell d.capabilities) rfl

/-- The columns that a second save replaces are the fields that `merge` takes from the new record.
SOURCE: persistence/sqlite/decision_repository.py:17-49 -/
theorem excluded_decision (old new : Decision) :
    Row.excluded Sql.DecisionRepository.updated (Sql.DecisionRepository.row py old)
      (Sql.DecisionRepository.row py new) =
      Sql.DecisionRepository.row py (DecisionRepository.merge old new) := rfl

/-- A verification comes back. -/
theorem rowToRecord_verification (r : VerificationRecord) :
    Sql.VerificationRepository.rowToRecord (Sql.VerificationRepository.row r) = some r :=
  read_bind rfl <| read_bind rfl <| read_bind (truthy_ofBool _) <| read_bind rfl <| read_bind rfl <|
    read_bind (truthy_ofBool _) <| read_bind (truthy_ofBool _) rfl

/-- The row of a plan gives the plan back with the steps that are put into it. -/
theorem rowToPlan_row (h : ColumnsReadBack py floatOf) (plan : Plan) (steps : List PlanStep) :
    Sql.PlanRepository.rowToPlan floatOf (Sql.PlanRepository.row py plan) steps =
      some { plan with steps := steps } :=
  read_bind rfl <| read_bind rfl <| read_bind rfl <| read_bind (h.asTexts_textsCell plan.assumptions) <|
    read_bind (asEnumOption_ofEnumOption _) <| read_bind (asOption_ofOption _) rfl

/-- The update of a plan's row is the merge of the plans. -/
theorem excluded_plan (old new : Plan) :
    Row.excluded Sql.PlanRepository.updated (Sql.PlanRepository.row py old)
      (Sql.PlanRepository.row py new) = Sql.PlanRepository.row py (PlanRepository.merge old new) := rfl

/-- A recovery attempt comes back. -/
theorem rowToAttempt_recoveryAttempt {a : RecoveryAttempt} (ha : a.delaySeconds ≠ .nan) :
    Sql.RecoveryAttemptRepository.rowToAttempt (Sql.RecoveryAttemptRepository.row a) = some a :=
  read_bind (asBoolOption_ofBoolOption _) <| read_bind rfl <| read_bind rfl <| read_bind rfl <|
    read_bind (truthy_ofBool _) <| read_bind rfl <| read_bind rfl <| read_bind (asFloat_ofFloat ha) rfl

/-- The update of its row is the merge. -/
theorem excluded_recoveryAttempt (old new : RecoveryAttempt) :
    Row.excluded Sql.RecoveryAttemptRepository.updated (Sql.RecoveryAttemptRepository.row old)
      (Sql.RecoveryAttemptRepository.row new) =
      Sql.RecoveryAttemptRepository.row (RecoveryAttemptRepository.merge old new) := rfl

structure AuthorizationKept (a : Authorization) : Prop where
  expires : ∀ t ∈ a.expiresAt, IsUtc t
  used : ∀ t ∈ a.usedAt, IsUtc t

/-- An authorization comes back. -/
theorem rowToAuthorization_row (h : ColumnsReadBack py floatOf) {a : Authorization}
    (ha : AuthorizationKept a) :
    Sql.AuthorizationRepository.rowToAuthorization py (Sql.AuthorizationRepository.row py a) = some a :=
  read_bind rfl <| read_bind rfl <| read_bind rfl <| read_bind (truthy_ofBool _) <| read_bind rfl <|
    read_bind (truthy_ofBool _) <| read_bind (asOption_ofOption _) <| read_bind (asOption_ofOption _) <|
    read_bind (asOption_ofOption _) <| read_bind (h.asTimeOption_ofTimeOption ha.expires) <|
    read_bind (h.asTimeOption_ofTimeOption ha.used) <| read_bind (asOption_ofOption _) rfl

/-- The update of its row is the merge. -/
theorem excluded_authorization (old new : Authorization) :
    Row.excluded Sql.AuthorizationRepository.updated (Sql.AuthorizationRepository.row py old)
      (Sql.AuthorizationRepository.row py new) =
      Sql.AuthorizationRepository.row py (AuthorizationRepository.merge old new) := rfl

structure IdempotencyKept (r : IdempotencyRecord) : Prop where
  created : IsUtc r.createdAt
  updated : IsUtc r.updatedAt

/-- The record of a key comes back. -/
theorem rowToIdempotency_row (h : ColumnsReadBack py floatOf) {r : IdempotencyRecord}
    (hr : IdempotencyKept r) :
    Sql.IdempotencyRepository.rowToIdempotency py (Sql.IdempotencyRepository.row py r) = some r :=
  read_bind rfl <| read_bind (asOption_ofOption _) <|
    read_bind (LawfulEnumeration.asEnum_ofEnum r.state) <| read_bind (asEnumOption_ofEnumOption _) <|
    read_bind (h.asTime_ofTime hr.created) <| read_bind (h.asTime_ofTime hr.updated) rfl

/-- The update of its row is the merge. -/
theorem excluded_idempotency (old new : IdempotencyRecord) :
    Row.excluded Sql.IdempotencyRepository.updated (Sql.IdempotencyRepository.row py old)
      (Sql.IdempotencyRepository.row py new) =
      Sql.IdempotencyRepository.row py (IdempotencyRepository.merge old new) := rfl

/-- A task that can be saved, or raises a `TypeError`. -/
structure TaskKept (py : Stdlib) (floatOf : String → PyFloat) (task : Task) : Prop where
  created : IsUtc task.createdAt
  updated : IsUtc task.updatedAt
  snapshot : ∀ d ∈ task.profileSnapshot, JsonKept py floatOf (.dict d)

/-- A task that is stored. -/
structure TaskStored (py : Stdlib) (floatOf : String → PyFloat) (task : Task) : Prop
    extends TaskKept py floatOf task where
  serial : ∀ d ∈ task.profileSnapshot, (Value.dict d).serializable = true
  nonempty : task.profileSnapshot ≠ some []

/-- The row of a stored task. -/
def rowOfTask (py : Stdlib) (task : Task) : Row Cell :=
  Sql.TaskRepository.row py task (task.profileSnapshot.elim .null fun d => jsonCell py (.dict d))

/-- A task comes back. -/
theorem rowToTask_rowOfTask (h : ColumnsReadBack py floatOf) {task : Task}
    (htask : TaskStored py floatOf task) :
    Sql.TaskRepository.rowToTask py floatOf (rowOfTask py task) = some task := by
  have hsnapshot : Sql.TaskRepository.asSnapshot floatOf
      (task.profileSnapshot.elim .null fun d => jsonCell py (.dict d)) = some task.profileSnapshot := by
    cases hcase : task.profileSnapshot with
    | none => rfl
    | some d =>
      have hd : KeptByJson py floatOf (.dict d) := ⟨htask.snapshot d hcase, htask.serial d hcase⟩
      unfold Sql.TaskRepository.asSnapshot
      rw [Option.elim_some, if_pos (h.truthy_jsonCell hd), h.asDict_jsonCell hd]
      rfl
  exact read_bind hsnapshot <| read_bind rfl <| read_bind rfl <| read_bind rfl <|
    read_bind (LawfulEnumeration.asEnum_ofEnum task.state) <| read_bind (asOption_ofOption _) <|
    read_bind (h.asTime_ofTime htask.created) <| read_bind (h.asTime_ofTime htask.updated) rfl

/-- The update of its row is the merge. -/
theorem excluded_task (old new : Task) :
    Row.excluded Sql.TaskRepository.updated (rowOfTask py old) (rowOfTask py new) =
      rowOfTask py (TaskRepository.merge old new) := rfl

/-- The row of a stored step. -/
def rowOfStep (py : Stdlib) (step : PlanStep) : Row Cell :=
  Sql.PlanRepository.stepRow py step.planId step (jsonCell py (.dict step.arguments))

/-- A step of a plan comes back. -/
theorem rowToStep_rowOfStep (h : ColumnsReadBack py floatOf) {step : PlanStep}
    (hstep : KeptByJson py floatOf (.dict step.arguments)) :
    Sql.PlanRepository.rowToStep floatOf (rowOfStep py step) = some step :=
  read_bind rfl <| read_bind rfl <| read_bind rfl <| read_bind rfl <| read_bind rfl <|
    read_bind (h.asDict_jsonCell hstep) <| read_bind rfl <|
    read_bind (h.asTexts_textsCell step.dependsOn) rfl

/-- A record of an execution that can be saved: what cannot be written as JSON is replaced. -/
structure ExecutionRecordKept (py : Stdlib) (floatOf : String → PyFloat) (r : ToolExecutionRecord) : Prop where
  data : JsonKept py floatOf r.data
  metadata : JsonKept py floatOf r.metadata
  given : r.metadata ≠ .none

/-- A record of an execution that is stored. -/
structure ExecutionRecordStored (py : Stdlib) (floatOf : String → PyFloat) (r : ToolExecutionRecord) : Prop
    extends ExecutionRecordKept py floatOf r where
  dataSerial : r.data.serializable = true
  metadataSerial : r.metadata.serializable = true

/-- What is written of some data. -/
def dataCell (py : Stdlib) (data : Value) : Cell := if data = .none then .null else jsonCell py data

/-- The row of a stored record. -/
def rowOfExecution (py : Stdlib) (r : ToolExecutionRecord) : Row Cell :=
  Sql.ToolExecutionRepository.row r (dataCell py r.data) (dataCell py r.metadata)

/-- INTERNAL: data that are there are read from their text. -/
theorem asData_dataCell_of_ne (h : ColumnsReadBack py floatOf) (default : Value) {data : Value}
    (hdata : KeptByJson py floatOf data) (hne : data ≠ .none) :
    Sql.ToolExecutionRepository.asData floatOf default (dataCell py data) = some data := by
  unfold dataCell
  rw [if_neg hne]
  exact h.asJson_jsonCell hdata

/-- The record of an execution comes back. -/
theorem rowToRecord_rowOfExecution (h : ColumnsReadBack py floatOf) {r : ToolExecutionRecord}
    (hr : ExecutionRecordStored py floatOf r) :
    Sql.ToolExecutionRepository.rowToRecord floatOf (rowOfExecution py r) = some r := by
  have hdata : Sql.ToolExecutionRepository.asData floatOf .none (dataCell py r.data) = some r.data := by
    by_cases hnone : r.data = .none
    · rw [hnone]
      rfl
    · exact asData_dataCell_of_ne h _ ⟨hr.data, hr.dataSerial⟩ hnone
  exact read_bind rfl <| read_bind rfl <| read_bind rfl <| read_bind rfl <|
    read_bind (LawfulEnumeration.asEnum_ofEnum r.outcome) <| read_bind (truthy_ofBool _) <|
    read_bind hdata <| read_bind (asOption_ofOption _) <| read_bind rfl <|
    read_bind (asOption_ofOption _) <|
    read_bind (asData_dataCell_of_ne h _ ⟨hr.metadata, hr.metadataSerial⟩ hr.given) rfl

/-- The update of its row is the merge. -/
theorem excluded_execution (old new : ToolExecutionRecord) :
    Row.excluded Sql.ToolExecutionRepository.updated (rowOfExecution py old) (rowOfExecution py new) =
      rowOfExecution py (ToolExecutionRepository.merge old new) := rfl

/-- A receipt that can be saved, or raises a `TypeError`. -/
structure ReceiptKept (py : Stdlib) (floatOf : String → PyFloat) (r : ExecutionReceipt) : Prop where
  created : IsUtc r.createdAt
  finalized : ∀ t ∈ r.finalizedAt, IsUtc t
  metadata : JsonKept py floatOf (.dict r.metadata)

/-- A receipt that is stored. -/
structure ReceiptStored (py : Stdlib) (floatOf : String → PyFloat) (r : ExecutionReceipt) : Prop
    extends ReceiptKept py floatOf r where
  serial : (Value.dict r.metadata).serializable = true

/-- The row of a stored receipt. -/
def rowOfReceipt (py : Stdlib) (r : ExecutionReceipt) : Row Cell :=
  Sql.ReceiptRepository.row py r (jsonCell py (.dict r.metadata))

/-- A receipt comes back. -/
theorem rowToReceipt_rowOfReceipt (h : ColumnsReadBack py floatOf) {r : ExecutionReceipt}
    (hr : ReceiptStored py floatOf r) :
    Sql.ReceiptRepository.rowToReceipt py floatOf (rowOfReceipt py r) = some r :=
  read_bind rfl <| read_bind rfl <| read_bind rfl <| read_bind rfl <| read_bind rfl <| read_bind rfl <|
    read_bind (LawfulEnumeration.asEnum_ofEnum r.state) <| read_bind (h.asTime_ofTime hr.created) <|
    read_bind (h.asTimeOption_ofTimeOption hr.finalized) <| read_bind (asEnumOption_ofEnumOption _) <|
    read_bind (asOption_ofOption _) <| read_bind (h.asDictOrEmpty_jsonCell ⟨hr.metadata, hr.serial⟩) rfl

/-- The update of its row is the merge. -/
theorem excluded_receipt (old new : ExecutionReceipt) :
    Row.excluded Sql.ReceiptRepository.updated (rowOfReceipt py old) (rowOfReceipt py new) =
      rowOfReceipt py (ReceiptRepository.merge old new) := rfl

/-- An attempt that can be saved, or raises a `TypeError`. -/
structure AttemptKept (py : Stdlib) (floatOf : String → PyFloat) (a : ExecutionAttempt) : Prop where
  created : IsUtc a.createdAt
  invoked : ∀ t ∈ a.invokedAt, IsUtc t
  finalized : ∀ t ∈ a.finalizedAt, IsUtc t
  evidence : JsonKept py floatOf (.dict a.evidence)

/-- An attempt that is stored. -/
structure AttemptStored (py : Stdlib) (floatOf : String → PyFloat) (a : ExecutionAttempt) : Prop
    extends AttemptKept py floatOf a where
  serial : (Value.dict a.evidence).serializable = true

/-- The row of a stored attempt. -/
def rowOfAttempt (py : Stdlib) (a : ExecutionAttempt) : Row Cell :=
  Sql.AttemptRepository.row py a (jsonCell py (.dict a.evidence))

/-- An attempt comes back. -/
theorem rowToAttempt_rowOfAttempt (h : ColumnsReadBack py floatOf) {a : ExecutionAttempt}
    (ha : AttemptStored py floatOf a) :
    Sql.AttemptRepository.rowToAttempt py floatOf (rowOfAttempt py a) = some a :=
  read_bind (h.asDictOrEmpty_jsonCell ⟨ha.evidence, ha.serial⟩) <| read_bind rfl <| read_bind rfl <|
    read_bind rfl <| read_bind (LawfulEnumeration.asEnum_ofEnum a.state) <|
    read_bind (h.asTime_ofTime ha.created) <| read_bind (h.asTimeOption_ofTimeOption ha.invoked) <|
    read_bind (h.asTimeOption_ofTimeOption ha.finalized) <| read_bind (asEnumOption_ofEnumOption _) <|
    read_bind (asOption_ofOption _) <| read_bind (asOption_ofOption _) rfl

/-- The update of its row is the merge. -/
theorem excluded_attempt (old new : ExecutionAttempt) :
    Row.excluded Sql.AttemptRepository.updated (rowOfAttempt py old) (rowOfAttempt py new) =
      rowOfAttempt py (AttemptRepository.merge old new) := rfl

end Reading

end Shea.Analysis
