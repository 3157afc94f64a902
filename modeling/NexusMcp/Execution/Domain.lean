-- SUMMARY: Tool executions and their attempts, with their transitions and the retry decision.
import NexusMcp.Shared.Json
import NexusMcp.Catalog.Domain

/-! # Tool Executions -/

namespace NexusMcp

/-! ## Enumerations -/

inductive ExecutionStatus where
  | planned
  | running
  | succeeded
  | failed
  | unknown
  | cancelled
deriving Repr, DecidableEq

def ExecutionStatus.value : ExecutionStatus → String
  | planned => "planned"
  | running => "running"
  | succeeded => "succeeded"
  | failed => "failed"
  | unknown => "unknown"
  | cancelled => "cancelled"

inductive McpScopeType where
  | root
  | toolset
deriving Repr, DecidableEq

def McpScopeType.value : McpScopeType → String
  | root => "root"
  | toolset => "toolset"

inductive RetryDisposition where
  | retry
  | doNotRetry
  | requireReconciliation
deriving Repr, DecidableEq

inductive ExecutionAttemptStatus where
  | running
  | succeeded
  | failed
  | unknown
  | cancelled
deriving Repr, DecidableEq

/-- `_validate_mcp_scope`. -/
def mcpScopeChecks (scopeType : McpScopeType) (toolsetId : Option Id)
    (toolsetRevision : Option Int) : List (Bool × String) := [
  (scopeType = .root ∧ (toolsetId.isSome ∨ toolsetRevision.isSome),
    "root MCP scope must not declare toolset context"),
  (scopeType = .toolset ∧ (toolsetId.getD "" = "" ∨ toolsetRevision.getD 0 ≤ 0),
    "toolset MCP scope requires toolset id and positive revision")]

/-! ## Calls -/

def idempotencyKeyCharacters : List Char :=
  "ABCDEFGHIJKLMNOPQRSTUVWXYZabcdefghijklmnopqrstuvwxyz0123456789._:-".toList

def isValidIdempotencyKey (value : String) : Bool :=
  1 ≤ value.toList.length ∧ value.toList.length ≤ 128 ∧
    value.toList.all (· ∈ idempotencyKeyCharacters)

structure CallToolCommandFields where
  context : ActorContext
  toolName : String
  arguments : JsonObject
  idempotencyKey : Option String := none
  approvalId : Option Id := none
  mcpScopeType : McpScopeType := .root
  toolsetId : Option Id := none
  toolsetRevision : Option Int := none

instance : PostInit CallToolCommandFields where
  checks c := [
    (isBlank c.toolName, "tool name must not be blank"),
    (c.idempotencyKey.any (! isValidIdempotencyKey ·),
      "idempotency key must be 1-128 safe ASCII token characters")]
    ++ mcpScopeChecks c.mcpScopeType c.toolsetId c.toolsetRevision

abbrev CallToolCommand := Checked CallToolCommandFields

def CallToolCommand.argumentsDigest [Sha256] (command : CallToolCommand) : Except Exc String :=
  canonicalJsonDigest (.obj command.val.arguments)

structure ResolvedExecutableTool where
  tenantId : Id
  toolId : Id
  toolVersionId : Id
  toolBindingId : Id
  upstreamServiceId : Id
  canonicalName : String
  version : Nat
  inputSchema : JsonObject
  outputSchema : Option JsonObject
  sideEffect : ToolSideEffect
  visibility : ToolVisibility
  bindingType : ToolBindingType
  bindingConfig : JsonObject
  upstreamEndpoint : String
  upstreamAuthScheme : Option String

structure ExecutorRequestFields where
  executionId : Id
  tool : ResolvedExecutableTool
  arguments : JsonObject
  timeoutSeconds : Rat
  idempotencyKey : Option String := none

instance : PostInit ExecutorRequestFields where
  checks r := [(r.timeoutSeconds ≤ 0, "executor timeout must be positive")]

abbrev ExecutorRequest := Checked ExecutorRequestFields

structure ExecutorResult where
  data : Json
  contentType : Option String
  upstreamStatus : Option Nat

structure CallToolResult where
  executionId : Id
  data : Json
  contentType : Option String
  upstreamStatus : Option Nat
  attemptCount : Nat := 1

/-! ## Executions -/

/-- The fields of an execution. The source counts attempts in an `int` and rejects a
    negative one, which a `Nat` excludes. -/
structure ToolExecutionFields where
  id : Id
  tenantId : Id
  requestId : String
  traceId : String
  principalId : String
  toolId : Id
  toolVersionId : Id
  toolBindingId : Id
  argumentsDigest : String
  policyVersion : String
  policyReasonCode : String
  sideEffect : ToolSideEffect
  status : ExecutionStatus
  plannedAt : Time
  approvalId : Option Id := none
  credentialBindingId : Option Id := none
  idempotencyKey : Option String := none
  startedAt : Option Time := none
  finishedAt : Option Time := none
  errorCode : Option String := none
  errorCategory : Option ExecutionErrorCategory := none
  attemptCount : Nat := 0
  mcpScopeType : McpScopeType := .root
  toolsetId : Option Id := none
  toolsetRevision : Option Int := none
deriving Repr, DecidableEq

/-- The status is one of the four an execution never leaves. -/
def ExecutionStatus.Terminal (status : ExecutionStatus) : Prop :=
  status = .succeeded ∨ status = .failed ∨ status = .unknown ∨ status = .cancelled

instance (status : ExecutionStatus) : Decidable status.Terminal :=
  inferInstanceAs (Decidable (_ ∨ _))

instance : PostInit ToolExecutionFields where
  checks e := [
    nonBlank "execution id" e.id,
    nonBlank "tenant id" e.tenantId,
    nonBlank "request id" e.requestId,
    nonBlank "trace id" e.traceId,
    nonBlank "principal id" e.principalId,
    nonBlank "tool id" e.toolId,
    nonBlank "tool version id" e.toolVersionId,
    nonBlank "tool binding id" e.toolBindingId,
    nonBlank "arguments digest" e.argumentsDigest,
    nonBlank "policy version" e.policyVersion,
    nonBlank "policy reason code" e.policyReasonCode,
    (e.status = .planned ∧ (e.startedAt.isSome ∨ e.finishedAt.isSome),
      "planned execution must not have start or finish time"),
    (e.status = .running ∧ e.startedAt.isNone, "running execution must have started_at"),
    (e.status.Terminal ∧ e.finishedAt.isNone, "terminal execution must have finished_at"),
    ((e.status = .planned ∨ e.status = .running) ∧
      (e.errorCode.isSome ∨ e.errorCategory.isSome),
      "non-terminal execution must not have error state"),
    (e.status = .succeeded ∧ (e.errorCode.isSome ∨ e.errorCategory.isSome),
      "succeeded execution must not have error state"),
    ((e.status = .failed ∨ e.status = .unknown ∨ e.status = .cancelled) ∧
      (e.errorCode.isNone ∨ e.errorCategory.isNone),
      "unsuccessful terminal execution must contain error state")]
    ++ mcpScopeChecks e.mcpScopeType e.toolsetId e.toolsetRevision

abbrev ToolExecution := Checked ToolExecutionFields

namespace ToolExecution

def start (execution : ToolExecution) (startedAt : Time) : Except Exc ToolExecution := do
  valueErrorIf (execution.val.status ≠ .planned) "only planned execution can start"
  construct { execution.val with status := .running, startedAt := some startedAt }

def requireRunning (execution : ToolExecution) : Except Exc Unit :=
  valueErrorIf (execution.val.status ≠ .running)
    "execution must be running before terminal transition"

def registerAttempt (execution : ToolExecution) : Except Exc ToolExecution := do
  execution.requireRunning
  construct { execution.val with attemptCount := execution.val.attemptCount + 1 }

def succeed (execution : ToolExecution) (finishedAt : Time) : Except Exc ToolExecution := do
  execution.requireRunning
  construct { execution.val with status := .succeeded, finishedAt := some finishedAt }

def fail (execution : ToolExecution) (errorCode : String) (category : ExecutionErrorCategory)
    (finishedAt : Time) : Except Exc ToolExecution := do
  execution.requireRunning
  construct { execution.val with
    status := .failed
    errorCode := some errorCode
    errorCategory := some category
    finishedAt := some finishedAt }

def markUnknown (execution : ToolExecution) (errorCode : String) (finishedAt : Time) :
    Except Exc ToolExecution := do
  execution.requireRunning
  construct { execution.val with
    status := .unknown
    errorCode := some errorCode
    errorCategory := some .unknown
    finishedAt := some finishedAt }

def cancel (execution : ToolExecution) (finishedAt : Time) : Except Exc ToolExecution := do
  valueErrorIf (execution.val.status ≠ .planned ∧ execution.val.status ≠ .running)
    "only planned or running execution can be cancelled"
  construct { execution.val with
    status := .cancelled
    errorCode := some "execution_cancelled"
    errorCategory := some .cancelled
    finishedAt := some finishedAt }

/-! ### What a transition does -/

theorem start_eq_ok {e e' : ToolExecution} {t : Time} :
    e.start t = .ok e' ↔ e.val.status = .planned ∧
      e'.val = { e.val with status := .running, startedAt := some t } := by
  simp [start]

theorem registerAttempt_eq_ok {e e' : ToolExecution} :
    e.registerAttempt = .ok e' ↔ e.val.status = .running ∧
      e'.val = { e.val with attemptCount := e.val.attemptCount + 1 } := by
  simp [registerAttempt, requireRunning]

theorem succeed_eq_ok {e e' : ToolExecution} {t : Time} :
    e.succeed t = .ok e' ↔ e.val.status = .running ∧
      e'.val = { e.val with status := .succeeded, finishedAt := some t } := by
  simp [succeed, requireRunning]

theorem fail_eq_ok {e e' : ToolExecution} {code : String} {category : ExecutionErrorCategory}
    {t : Time} :
    e.fail code category t = .ok e' ↔ e.val.status = .running ∧
      e'.val = { e.val with
        status := .failed, errorCode := some code, errorCategory := some category,
        finishedAt := some t } := by
  simp [fail, requireRunning]

theorem markUnknown_eq_ok {e e' : ToolExecution} {code : String} {t : Time} :
    e.markUnknown code t = .ok e' ↔ e.val.status = .running ∧
      e'.val = { e.val with
        status := .unknown, errorCode := some code, errorCategory := some .unknown,
        finishedAt := some t } := by
  simp [markUnknown, requireRunning]

theorem cancel_eq_ok {e e' : ToolExecution} {t : Time} :
    e.cancel t = .ok e' ↔ (e.val.status = .planned ∨ e.val.status = .running) ∧
      e'.val = { e.val with
        status := .cancelled, errorCode := some "execution_cancelled",
        errorCategory := some .cancelled, finishedAt := some t } := by
  simp [cancel, or_iff_not_imp_left]

/-- A valid execution that ends with the error state its status calls for is valid. -/
theorem valid_terminal {e : ToolExecution} {status : ExecutionStatus} {code : Option String}
    {category : Option ExecutionErrorCategory} (t : Time) (hstatus : status.Terminal)
    (hsucceeded : status = .succeeded → code = none ∧ category = none)
    (hothers : status ≠ .succeeded → code.isSome ∧ category.isSome) :
    Valid { e.val with
      status := status, errorCode := code, errorCategory := category, finishedAt := some t } := by
  have he := e.property
  rcases hstatus with rfl | rfl | rfl | rfl <;>
    simp_all [Valid, PostInit.checks, ExecutionStatus.Terminal, Option.isSome_iff_ne_none]

/-- The scope of an execution is the root, or a toolset at a positive revision. -/
theorem scope_cases (e : ToolExecution) :
    (e.val.mcpScopeType = .root ∧ e.val.toolsetId = none ∧ e.val.toolsetRevision = none) ∨
    (e.val.mcpScopeType = .toolset ∧
      ∃ id r, e.val.toolsetId = some id ∧ e.val.toolsetRevision = some r ∧ 0 < r) := by
  have he : ∀ check ∈ mcpScopeChecks e.val.mcpScopeType e.val.toolsetId e.val.toolsetRevision,
      check.1 = false := fun check h => e.property check (List.mem_append_right _ h)
  simp only [mcpScopeChecks, List.forall_mem_cons] at he
  obtain ⟨hroot, htoolset, -⟩ := he
  cases h : e.val.mcpScopeType with
  | root =>
    simp [h] at hroot
    exact .inl ⟨rfl, hroot⟩
  | toolset =>
    simp [h] at htoolset
    cases hr : e.val.toolsetRevision with
    | none => simp [hr] at htoolset
    | some r =>
      cases hid : e.val.toolsetId with
      | none => simp [hid] at htoolset
      | some id =>
        simp [hr] at htoolset
        exact .inr ⟨rfl, id, r, rfl, rfl, htoolset.2⟩

/-- A running execution has no error state. -/
theorem no_error_of_running {e : ToolExecution} (h : e.val.status = .running) :
    e.val.errorCode = none ∧ e.val.errorCategory = none := by
  have he := e.property
  simp_all [Valid, PostInit.checks]

end ToolExecution

/-! ## Attempts -/

structure ExecutionAttemptFields where
  id : Id
  tenantId : Id
  executionId : Id
  attemptNumber : Nat
  status : ExecutionAttemptStatus
  startedAt : Time
  finishedAt : Option Time := none
  errorCode : Option String := none
  errorCategory : Option ExecutionErrorCategory := none
  upstreamStatus : Option Nat := none
deriving Repr, DecidableEq

instance : PostInit ExecutionAttemptFields where
  checks a := [
    nonBlank "execution attempt id" a.id,
    nonBlank "tenant id" a.tenantId,
    nonBlank "execution id" a.executionId,
    (a.attemptNumber = 0, "execution attempt number must be positive"),
    (a.upstreamStatus.any (fun status => ¬ (100 ≤ status ∧ status ≤ 599)),
      "execution attempt upstream status was invalid"),
    (a.status = .running ∧ a.finishedAt.isSome,
      "running execution attempt must not have finished_at"),
    (a.status ≠ .running ∧ a.finishedAt.isNone,
      "terminal execution attempt must have finished_at"),
    ((a.status = .running ∨ a.status = .succeeded) ∧
      (a.errorCode.isSome ∨ a.errorCategory.isSome),
      "running or succeeded attempt must not have error state"),
    ((a.status = .failed ∨ a.status = .unknown ∨ a.status = .cancelled) ∧
      (a.errorCode.isNone ∨ a.errorCategory.isNone),
      "unsuccessful attempt must contain error state")]

abbrev ExecutionAttempt := Checked ExecutionAttemptFields

namespace ExecutionAttempt

def requireRunning (attempt : ExecutionAttempt) : Except Exc Unit :=
  valueErrorIf (attempt.val.status ≠ .running)
    "execution attempt must be running before terminal transition"

def succeed (attempt : ExecutionAttempt) (finishedAt : Time) (upstreamStatus : Option Nat) :
    Except Exc ExecutionAttempt := do
  attempt.requireRunning
  construct { attempt.val with
    status := .succeeded
    finishedAt := some finishedAt
    upstreamStatus := upstreamStatus }

def fail (attempt : ExecutionAttempt) (errorCode : String) (category : ExecutionErrorCategory)
    (finishedAt : Time) (outcomeUnknown : Bool) (upstreamStatus : Option Nat) :
    Except Exc ExecutionAttempt := do
  attempt.requireRunning
  construct { attempt.val with
    status := if outcomeUnknown then .unknown else .failed
    finishedAt := some finishedAt
    errorCode := some errorCode
    errorCategory := some category
    upstreamStatus := upstreamStatus }

def cancel (attempt : ExecutionAttempt) (finishedAt : Time) : Except Exc ExecutionAttempt := do
  attempt.requireRunning
  construct { attempt.val with
    status := .cancelled
    finishedAt := some finishedAt
    errorCode := some "attempt_cancelled"
    errorCategory := some .cancelled }

/-! ### What a transition does -/

theorem succeed_eq_ok {a a' : ExecutionAttempt} {t : Time} {upstreamStatus : Option Nat} :
    a.succeed t upstreamStatus = .ok a' ↔ a.val.status = .running ∧
      a'.val = { a.val with
        status := .succeeded, finishedAt := some t, upstreamStatus := upstreamStatus } := by
  simp [succeed, requireRunning]

theorem fail_eq_ok {a a' : ExecutionAttempt} {code : String} {category : ExecutionErrorCategory}
    {t : Time} {outcomeUnknown : Bool} {upstreamStatus : Option Nat} :
    a.fail code category t outcomeUnknown upstreamStatus = .ok a' ↔ a.val.status = .running ∧
      a'.val = { a.val with
        status := if outcomeUnknown then .unknown else .failed, finishedAt := some t,
        errorCode := some code, errorCategory := some category,
        upstreamStatus := upstreamStatus } := by
  simp [fail, requireRunning]

theorem cancel_eq_ok {a a' : ExecutionAttempt} {t : Time} :
    a.cancel t = .ok a' ↔ a.val.status = .running ∧
      a'.val = { a.val with
        status := .cancelled, finishedAt := some t, errorCode := some "attempt_cancelled",
        errorCategory := some .cancelled } := by
  simp [cancel, requireRunning]

/-- The statuses an attempt may record for its upstream. -/
def RecordableStatus (upstreamStatus : Option Nat) : Prop :=
  ∀ status, upstreamStatus = some status → 100 ≤ status ∧ status ≤ 599

/-- A valid attempt that ends with the error state its status calls for is valid exactly
    when it records a status between 100 and 599. -/
theorem valid_terminal_iff {a : ExecutionAttempt} {status : ExecutionAttemptStatus}
    {code : Option String} {category : Option ExecutionErrorCategory}
    {upstreamStatus : Option Nat} (t : Time) (hstatus : status ≠ .running)
    (hsucceeded : status = .succeeded → code = none ∧ category = none)
    (hothers : status ≠ .succeeded → code.isSome ∧ category.isSome) :
    Valid { a.val with
      status := status, finishedAt := some t, errorCode := code, errorCategory := category,
      upstreamStatus := upstreamStatus } ↔ RecordableStatus upstreamStatus := by
  have ha := a.property
  cases upstreamStatus <;> cases status <;>
    simp_all [Valid, PostInit.checks, RecordableStatus, Option.isSome_iff_ne_none]

/-- A running attempt has no error state. -/
theorem no_error_of_running {a : ExecutionAttempt} (h : a.val.status = .running) :
    a.val.errorCode = none ∧ a.val.errorCategory = none := by
  have ha := a.property
  simp_all [Valid, PostInit.checks]

end ExecutionAttempt

/-! ## The retry decision -/

def retryDisposition (sideEffect : ToolSideEffect) (errorCategory : ExecutionErrorCategory)
    (hasIdempotencyKey : Bool) : RetryDisposition :=
  if errorCategory ∈ [.validation, .authentication, .authorization, .approval, .credential,
      .upstream4xx, .cancelled] then .doNotRetry
  else if errorCategory ∈ [.timeoutAfterSend, .unknown] ∧
      sideEffect ∈ [.nonIdempotentWrite, .unknown] then .requireReconciliation
  else if errorCategory ∉ [.timeoutBeforeSend, .timeoutAfterSend, .network, .upstream5xx,
      .unknown] then .doNotRetry
  else if sideEffect = .readOnly then .retry
  else if sideEffect = .idempotentWrite ∧ hasIdempotencyKey then .retry
  else .doNotRetry

end NexusMcp
