-- SUMMARY: The execution lifecycle: planning, attempts, terminal transitions and audits, as short transactions.
import NexusMcp.Approval.UseCases

/-! # The Execution Lifecycle -/

namespace NexusMcp

open Txn
open Prog (commit uow lift)

/-! ## Commands -/

structure PlanExecutionCommand where
  context : ActorContext
  principalId : String
  toolId : Id
  toolVersionId : Id
  toolBindingId : Id
  argumentsDigest : String
  policyVersion : String
  policyReasonCode : String
  sideEffect : ToolSideEffect
  approvalId : Option Id := none
  credentialBindingId : Option Id := none
  idempotencyKey : Option String := none
  mcpScopeType : McpScopeType := .root
  toolsetId : Option Id := none
  toolsetRevision : Option Int := none
deriving DecidableEq

structure RecordCallDecisionCommand where
  context : ActorContext
  principalId : String
  toolVersionId : Id
  argumentsDigest : String
  policyVersion : String
  reasonCode : String
  outcome : AuditOutcome
  mcpScopeType : McpScopeType := .root
  toolsetId : Option Id := none
  toolsetRevision : Option Int := none
deriving DecidableEq

structure RecordMcpScopeDenialCommand where
  context : ActorContext
  toolName : String
  argumentsDigest : String
  reasonCode : String
  mcpScopeType : McpScopeType
  toolsetSlug : Option String := none
  toolsetId : Option Id := none
  toolsetRevision : Option Int := none
deriving DecidableEq

namespace ExecutionLifecycle

/-! ## Audits -/

/-- The scope evidence of an execution's audits. -/
def scopeEvidence (e : ToolExecutionFields) : McpScopeAuditEvidenceFields where
  scopeType := e.mcpScopeType.value
  toolsetId := e.toolsetId
  toolsetRevision := e.toolsetRevision

/-- The audit of an execution. -/
def executionAuditFields (id : Id) (e : ToolExecutionFields) (outcome : AuditOutcome)
    (occurredAt : Time) (evidence : McpScopeAuditEvidence) : AuditEventFields where
  id := id
  tenantId := e.tenantId
  actorId := e.principalId
  action := .toolCall
  resourceType := "tool_version"
  resourceId := e.toolVersionId
  outcome := outcome
  requestId := e.requestId
  traceId := e.traceId
  occurredAt := occurredAt
  argumentsDigest := some e.argumentsDigest
  policyVersion := some e.policyVersion
  reasonCode := if outcome ∈ [.failed, .unknown, .cancelled] then e.errorCode
    else some e.policyReasonCode
  executionId := some e.id
  metadata := some (
    [("side_effect", .str e.sideEffect.value), ("execution_status", .str e.status.value),
      ("attempt_count", .int e.attemptCount)] ++ evidence.metadata)

/-- `_execution_audit`, with the identifier it generates first. -/
def executionAuditEvent (id : Id) (execution : ToolExecution) (outcome : AuditOutcome)
    (occurredAt : Time) : Except Exc AuditEvent := do
  let evidence ← construct (scopeEvidence execution.val)
  construct (executionAuditFields id execution.val outcome occurredAt evidence)

def executionAudit (execution : ToolExecution) (outcome : AuditOutcome) (occurredAt : Time) :
    Program AuditEvent := do
  let id ← newId
  lift (executionAuditEvent id execution outcome occurredAt)

/-- The attempt count an execution's audit records. -/
def recordedAttemptCount (event : AuditEvent) : Option AuditMetadataValue :=
  ((event.val.metadata.getD []).find? (·.1 = "attempt_count")).map (·.2)

/-- What the audit of an execution says about it. -/
theorem executionAuditEvent_ok {id : Id} {e : ToolExecution} {outcome : AuditOutcome} {t : Time}
    {event : AuditEvent} (h : executionAuditEvent id e outcome t = .ok event) :
    event.val.id = id ∧ event.val.executionId = some e.val.id ∧
      event.val.outcome = outcome ∧ event.val.occurredAt = t ∧
      recordedAttemptCount event = some (.int e.val.attemptCount) := by
  obtain ⟨evidence, -, h⟩ := bind_eq_ok.1 h
  rw [construct_eq_ok] at h
  simp only [recordedAttemptCount, h]
  exact ⟨rfl, rfl, rfl, rfl, rfl⟩

theorem valid_scopeEvidence (e : ToolExecution) : Valid (scopeEvidence e.val) := by
  rcases e.scope_cases with ⟨h, h₁, h₂⟩ | ⟨h, id, r, h₁, h₂, hr⟩
  · simp [Valid, PostInit.checks, scopeEvidence, h, h₁, h₂, McpScopeType.value]
  · simp [Valid, PostInit.checks, scopeEvidence, h, h₁, h₂, hr, McpScopeType.value]

theorem valid_executionAuditFields {id : Id} (hid : isBlank id = false) (e : ToolExecution)
    (outcome : AuditOutcome) (t : Time) (evidence : McpScopeAuditEvidence) :
    Valid (executionAuditFields id e.val outcome t evidence) := by
  have he := e.property
  have hkeys : ∀ entry ∈ ([("side_effect", .str e.val.sideEffect.value),
      ("execution_status", .str e.val.status.value),
      ("attempt_count", .int e.val.attemptCount)] : AuditMetadata) ++ evidence.metadata,
      normalizeMetadataKey entry.1 ∉ sensitiveKeys := by
    intro entry hentry
    apply not_sensitive_of_recorded
    rcases List.mem_append.1 hentry with h | h
    · simp only [List.mem_cons, List.not_mem_nil, or_false] at h
      rcases h with rfl | rfl | rfl <;> simp [recordedKeys]
    · exact McpScopeAuditEvidence.key_mem h
  have hresource : isBlank "tool_version" = false := by decide
  simp only [Valid, PostInit.checks, List.cons_append, List.forall_mem_cons, nonBlank] at he ⊢
  refine ⟨hid, he.2.1, he.2.2.2.2.1, hresource, he.2.2.2.2.2.2.1, he.2.2.1, he.2.2.2.1, ?_⟩
  simpa [executionAuditFields] using hkeys

/-- An execution can always be audited under an identifier that is not blank. -/
theorem executionAuditEvent_of_nonBlank {id : Id} (hid : isBlank id = false) (e : ToolExecution)
    (outcome : AuditOutcome) (t : Time) :
    ∃ event, executionAuditEvent id e outcome t = .ok event := by
  unfold executionAuditEvent
  rw [construct_of_valid (valid_scopeEvidence e)]
  exact ⟨_, construct_of_valid (valid_executionAuditFields hid e outcome t _)⟩

/-! ## Planning -/

/-- The error for a key whose execution `executionId` had the same arguments. -/
def reuseError (executionId : Id) : ExecutionStatus → Exc
  | .planned | .running =>
    .nexus (.idempotencyInProgress executionId) "idempotent execution was in progress"
  | .succeeded =>
    .nexus (.idempotencyAlreadyCompleted executionId) "idempotent execution already succeeded"
  | .unknown =>
    .nexus (.idempotencyOutcomeUnknown executionId) "idempotent execution outcome was unknown"
  | status =>
    .nexus (.idempotencyPreviousFailed executionId) ("idempotent execution was " ++ status.value)

/-- `_raise_idempotency_reuse`: the error for a key that `execution` carries. -/
def idempotencyReuse (execution : ToolExecution) (argumentsDigest : String) : Exc :=
  let e := execution.val
  if e.argumentsDigest ≠ argumentsDigest then
    .nexus (.idempotencyConflict e.id) "idempotency key arguments digest changed"
  else reuseError e.id e.status

/-- A conflict is reported exactly when the arguments differ. -/
theorem idempotencyReuse_conflict (execution : ToolExecution) (argumentsDigest : String) :
    (∃ id message, idempotencyReuse execution argumentsDigest =
      .nexus (.idempotencyConflict id) message) ↔
      execution.val.argumentsDigest ≠ argumentsDigest := by
  unfold idempotencyReuse
  constructor
  · rintro ⟨id, message, h⟩ heq
    rw [if_neg (not_not.2 heq)] at h
    cases hstatus : execution.val.status <;> rw [hstatus] at h <;> cases h
  · intro h
    exact ⟨_, _, if_pos h⟩

theorem idempotencyReuse_of_same {execution : ToolExecution} {argumentsDigest : String}
    (h : execution.val.argumentsDigest = argumentsDigest) :
    idempotencyReuse execution argumentsDigest =
      reuseError execution.val.id execution.val.status :=
  if_neg (not_not.2 h)

/-- The fields `plan` gives a new execution. -/
def plannedFields (command : PlanExecutionCommand) (now : Time) (id : Id) :
    ToolExecutionFields where
  id := id
  tenantId := command.context.tenantId
  requestId := command.context.requestId
  traceId := command.context.traceId
  principalId := command.principalId
  toolId := command.toolId
  toolVersionId := command.toolVersionId
  toolBindingId := command.toolBindingId
  approvalId := command.approvalId
  credentialBindingId := command.credentialBindingId
  argumentsDigest := command.argumentsDigest
  policyVersion := command.policyVersion
  policyReasonCode := command.policyReasonCode
  sideEffect := command.sideEffect
  status := .planned
  plannedAt := now
  idempotencyKey := command.idempotencyKey
  mcpScopeType := command.mcpScopeType
  toolsetId := command.toolsetId
  toolsetRevision := command.toolsetRevision

/-- The execution that `plan` is about to record, already started. -/
def plannedExecution (command : PlanExecutionCommand) (now : Time) (id : Id) :
    Except Exc ToolExecution := do
  let planned ← construct (plannedFields command now id)
  ToolExecution.start planned now

theorem plannedExecution_ok {command : PlanExecutionCommand} {now : Time} {id : Id}
    {e : ToolExecution} (h : plannedExecution command now id = .ok e) :
    e.val = { plannedFields command now id with
      status := .running, startedAt := some now } := by
  obtain ⟨planned, hplanned, h⟩ := bind_eq_ok.1 h
  rw [construct_eq_ok] at hplanned
  rw [(ToolExecution.start_eq_ok.1 h).2, hplanned]

/-- The lookup of an earlier execution with the command's key. -/
def rejectReuse (command : PlanExecutionCommand) : Program Unit :=
  match command.idempotencyKey with
  | none => pure ()
  | some key => do
    let existing ← Executions.getByIdempotencyKey .plan command.context.tenantId
      command.principalId command.toolVersionId key
    match existing with
    | none => pure ()
    | some existing => throw (idempotencyReuse existing command.argumentsDigest)

/-- The command that consumes the approval for a planned call. -/
def consumeCommand (command : PlanExecutionCommand) (approvalId : Id) :
    ConsumeApprovalCommand where
  context := command.context
  approvalId := approvalId
  principalId := command.principalId
  toolVersionId := command.toolVersionId
  argumentsDigest := command.argumentsDigest
  policyVersion := command.policyVersion
  idempotencyKey := command.idempotencyKey

/-- The consumption of the approval the command names. -/
def consumeForPlan (command : PlanExecutionCommand) (now : Time) : Program Unit :=
  match command.approvalId with
  | none => pure ()
  | some approvalId => do
    let _ ← commitWhenExpired .plan
      (consumeLockedApproval .plan (consumeCommand command approvalId) now)
    pure ()

def plan (command : PlanExecutionCommand) : Program ToolExecution := do
  let now ← now
  let id ← newId
  let execution ← lift (plannedExecution command now id)
  uow .plan do
    -- The order of the source: the key, the approval, the insertion, the audit.
    rejectReuse command
    consumeForPlan command now
    Executions.add .plan command.context.tenantId execution
    let event ← executionAudit execution .allowed now
    Audits.append .plan event
    commit .plan
    return execution

/-! ## Attempts -/

def startAttempt (tenantId executionId : Id) : Program ExecutionAttempt := do
  let now ← now
  uow .startAttempt do
    let execution ← Executions.getForUpdate .startAttempt tenantId executionId
    let execution ← Prog.orRaise execution
      (.nexus .toolExecutionNotFound "execution did not exist in tenant")
    Prog.raiseIf (execution.val.status ≠ .running)
      (.nexus .invalidExecutionState "execution was not running")
    let execution ← lift execution.registerAttempt
    let id ← newId
    let attempt : ExecutionAttempt ← lift <| construct
      { id := id
        tenantId := tenantId
        executionId := executionId
        attemptNumber := execution.val.attemptCount
        status := .running
        startedAt := now }
    -- The count and the attempt of that number are stored by one commit.
    Executions.save .startAttempt tenantId execution
    Attempts.add .startAttempt tenantId attempt
    commit .startAttempt
    return attempt

/-- How an attempt ends. The source passes a status with an error code and a category
    that are `None` exactly where this type has none. -/
inductive AttemptOutcome where
  | succeeded (upstreamStatus : Option Nat)
  | failed (errorCode : String) (category : ExecutionErrorCategory) (outcomeUnknown : Bool)
      (upstreamStatus : Option Nat)
  | cancelled
deriving DecidableEq

/-- The transition of the attempt for an outcome. -/
def AttemptOutcome.transition (outcome : AttemptOutcome) (attempt : ExecutionAttempt)
    (now : Time) : Except Exc ExecutionAttempt :=
  match outcome with
  | .succeeded upstreamStatus => attempt.succeed now upstreamStatus
  | .cancelled => attempt.cancel now
  | .failed errorCode category outcomeUnknown upstreamStatus =>
    attempt.fail errorCode category now outcomeUnknown upstreamStatus

/-- `_finish_attempt`. -/
def finishAttempt (tenantId attemptId : Id) (outcome : AttemptOutcome) :
    Program ExecutionAttempt := do
  let now ← now
  uow .finishAttempt do
    let attempt ← Attempts.getForUpdate .finishAttempt tenantId attemptId
    let attempt ← Prog.orRaise attempt
      (.nexus .executionAttemptNotFound "execution attempt did not exist in tenant")
    Prog.raiseIf (attempt.val.status ≠ .running)
      (.nexus .invalidExecutionState "execution attempt was already terminal")
    let terminal ← lift (outcome.transition attempt now)
    Attempts.save .finishAttempt tenantId terminal
    commit .finishAttempt
    return terminal

def succeedAttempt (tenantId attemptId : Id) (upstreamStatus : Option Nat) :
    Program ExecutionAttempt :=
  finishAttempt tenantId attemptId (.succeeded upstreamStatus)

def failAttempt (tenantId attemptId : Id) (errorCode : String)
    (category : ExecutionErrorCategory) (outcomeUnknown : Bool)
    (upstreamStatus : Option Nat := none) : Program ExecutionAttempt :=
  finishAttempt tenantId attemptId (.failed errorCode category outcomeUnknown upstreamStatus)

def cancelAttempt (tenantId attemptId : Id) : Program ExecutionAttempt :=
  finishAttempt tenantId attemptId .cancelled

/-! ## Terminal transitions -/

/-- How an execution ends. -/
inductive ExecutionOutcome where
  | succeeded
  | failed (errorCode : String) (category : ExecutionErrorCategory)
  | unknown (errorCode : String)
  | cancelled
deriving DecidableEq

/-- The transition of the execution for an outcome. -/
def ExecutionOutcome.transition (outcome : ExecutionOutcome) (execution : ToolExecution)
    (now : Time) : Except Exc ToolExecution :=
  match outcome with
  | .succeeded => execution.succeed now
  | .unknown errorCode => execution.markUnknown errorCode now
  | .cancelled => execution.cancel now
  | .failed errorCode category => execution.fail errorCode category now

/-- The outcome recorded in the audit. -/
def ExecutionOutcome.audit : ExecutionOutcome → AuditOutcome
  | .succeeded => .succeeded
  | .unknown _ => .unknown
  | .cancelled => .cancelled
  | .failed _ _ => .failed

/-- `_finish`. -/
def finish (tenantId executionId : Id) (outcome : ExecutionOutcome) : Program ToolExecution := do
  let now ← now
  uow .finish do
    let execution ← Executions.getForUpdate .finish tenantId executionId
    let execution ← Prog.orRaise execution
      (.nexus .toolExecutionNotFound "execution did not exist in tenant")
    Prog.raiseIf (execution.val.status ≠ .running)
      (.nexus .invalidExecutionState ("execution was already " ++ execution.val.status.value))
    -- The row is locked, so it is ended by one transaction only.
    let terminal ← lift (outcome.transition execution now)
    Executions.save .finish tenantId terminal
    let event ← executionAudit terminal outcome.audit now
    Audits.append .finish event
    commit .finish
    return terminal

def succeed (tenantId executionId : Id) : Program ToolExecution :=
  finish tenantId executionId .succeeded

/-- `mark_unknown` drops the category the caller gave. -/
def fail (tenantId executionId : Id) (errorCode : String) (category : ExecutionErrorCategory)
    (outcomeUnknown : Bool := false) : Program ToolExecution :=
  finish tenantId executionId (if outcomeUnknown then .unknown errorCode
    else .failed errorCode category)

def cancel (tenantId executionId : Id) : Program ToolExecution :=
  finish tenantId executionId .cancelled

/-! ## Decisions without an execution -/

def recordCallDecision (command : RecordCallDecisionCommand) : Program Unit := do
  let id ← newId
  let now ← now
  -- The fields are checked before the unit of work begins.
  let evidence : McpScopeAuditEvidence ← lift <| construct
    { scopeType := command.mcpScopeType.value
      toolsetId := command.toolsetId
      toolsetRevision := command.toolsetRevision }
  let event : AuditEvent ← lift <| construct
    { id := id
      tenantId := command.context.tenantId
      actorId := command.principalId
      action := .toolCall
      resourceType := "tool_version"
      resourceId := command.toolVersionId
      outcome := command.outcome
      requestId := command.context.requestId
      traceId := command.context.traceId
      occurredAt := now
      argumentsDigest := some command.argumentsDigest
      policyVersion := some command.policyVersion
      reasonCode := some command.reasonCode
      metadata := some evidence.metadata }
  uow .recordCallDecision do
    Audits.append .recordCallDecision event
    commit .recordCallDecision

def recordScopeDenial (command : RecordMcpScopeDenialCommand) : Program Unit := do
  let evidence : McpScopeAuditEvidence ← lift <| construct
    { scopeType := command.mcpScopeType.value
      toolsetId := command.toolsetId
      toolsetRevision := command.toolsetRevision
      toolsetSlug := command.toolsetSlug }
  let id ← newId
  let now ← now
  let event : AuditEvent ← lift <| construct
    { id := id
      tenantId := command.context.tenantId
      actorId := command.context.principalId
      action := .toolCall
      resourceType := "tool_name"
      resourceId := command.toolName
      outcome := .denied
      requestId := command.context.requestId
      traceId := command.context.traceId
      occurredAt := now
      argumentsDigest := some command.argumentsDigest
      reasonCode := some command.reasonCode
      metadata := some (evidence.metadata (some command.reasonCode)) }
  uow .recordScopeDenial do
    Audits.append .recordScopeDenial event
    commit .recordScopeDenial

end ExecutionLifecycle

end NexusMcp
