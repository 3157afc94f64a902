-- SUMMARY: The orchestration of a tool call: visibility, policy, approval, egress, credential and execution.
import NexusMcp.Execution.RetryingExecutor

/-! # Calling a Tool -/

namespace NexusMcp

open Txn ExecutionLifecycle
open Prog (lift)

/-- The services of a call, as far as they are not asked through `Query`. An egress policy
    that was not configured is one that accepts every endpoint. -/
structure CallTool where
  executor : ToolExecutor
  hasCredentialBindingResolver : Bool := false
  hasCredentialProvider : Bool := false
  requestApproval : Option RequestApproval := none
  timeoutSeconds : Rat := 5
  timeout_pos : 0 < timeoutSeconds

/-! ## Before the plan -/

/-- `_is_visible`. -/
def isVisible (visibility : ToolVisibility) (principalType : PrincipalType) : Bool :=
  match visibility with
  | .public_ => true
  | .authenticated => principalType ≠ .anonymous
  | .restricted => false

namespace CallTool

/-- The check that a key is given exactly for an idempotent write. -/
def requireKeyUse (sideEffect : ToolSideEffect) (idempotencyKey : Option String) :
    Except Exc Unit := do
  raiseIf (idempotencyKey.isSome ∧ sideEffect ≠ .idempotentWrite)
    (.nexus .invalidArguments "idempotency key is only valid for idempotent write tools")
  raiseIf (sideEffect = .idempotentWrite ∧ idempotencyKey.isNone)
    (.nexus .idempotencyKeyRequired "idempotent write call did not provide a key")

/-- `_record_policy_decision` and the error for a `DENY`. -/
def deny {α : Type} (command : CallToolCommand) (principal : InternalPrincipal)
    (tool : ResolvedExecutableTool) (argumentsDigest : String) (decision : PolicyDecision) :
    Program α := do
  recordCallDecision
    { context := command.val.context
      principalId := principal.val.id
      toolVersionId := tool.toolVersionId
      argumentsDigest := argumentsDigest
      policyVersion := decision.policyVersion
      reasonCode := decision.reasonCode
      outcome := .denied
      mcpScopeType := command.val.mcpScopeType
      toolsetId := command.val.toolsetId
      toolsetRevision := command.val.toolsetRevision }
  throw (.nexus .authorization ("policy denied call with reason " ++ decision.reasonCode))

/-- `_pass_approval_gate`. A named approval is consumed later, together with the plan. -/
def passApprovalGate (self : CallTool) (command : CallToolCommand)
    (principal : InternalPrincipal) (tool : ResolvedExecutableTool) (argumentsDigest : String)
    (decision : PolicyDecision) : Program Unit :=
  match command.val.approvalId, self.requestApproval with
  | some _, _ => pure ()
  | none, none =>
    throw (.nexus (.approvalRequired none none)
      ("policy requires approval with reason " ++ decision.reasonCode))
  | none, some requestApproval => do
    let approval ← requestApproval.execute
      { context := command.val.context
        principalId := principal.val.id
        toolId := tool.toolId
        toolVersionId := tool.toolVersionId
        argumentsDigest := argumentsDigest
        policyVersion := decision.policyVersion
        idempotencyKey := command.val.idempotencyKey
        policyReasonCode := decision.reasonCode
        mcpScopeType := command.val.mcpScopeType.value
        toolsetId := command.val.toolsetId
        toolsetRevision := command.val.toolsetRevision }
    throw (.nexus (.approvalRequired (some approval.val.id) (some approval.val.expiresAt))
      ("policy requires approval with reason " ++ decision.reasonCode))

/-- What the effect of the policy calls for before the plan. -/
def passPolicy (self : CallTool) (command : CallToolCommand) (principal : InternalPrincipal)
    (tool : ResolvedExecutableTool) (argumentsDigest : String) (decision : PolicyDecision) :
    Program Unit :=
  match decision.effect with
  | .deny => deny command principal tool argumentsDigest decision
  | .requireApproval => self.passApprovalGate command principal tool argumentsDigest decision
  | .allow => pure ()

/-- How the upstream of the tool authenticates, `"none"` when it does not. -/
@[irreducible] def authScheme (tool : ResolvedExecutableTool) : String :=
  lowerAscii (strip ((tool.upstreamAuthScheme.filter (· ≠ "")).getD "none"))

/-- `_resolve_credential_binding`. -/
def resolveCredentialBinding (self : CallTool) (tenantId : Id) (principal : InternalPrincipal)
    (tool : ResolvedExecutableTool) : Program (Option CredentialBinding) :=
  if authScheme tool = "none" then return none
  else do
    Prog.raiseIf (! self.hasCredentialBindingResolver ∨ ! self.hasCredentialProvider)
      (.nexus .credentialResolution "credential services were not configured")
    let binding ← resolveBinding tenantId principal tool.toolId tool.upstreamServiceId
    let binding ← Prog.orRaise binding
      (.nexus .credentialBindingNotFound "no credential binding matched tool call")
    return some binding

/-- What a call has established before its plan. -/
structure Clearance where
  principal : InternalPrincipal
  tool : ResolvedExecutableTool
  argumentsDigest : String
  decision : PolicyDecision
  credentialBinding : Option CredentialBinding

/-- The part of `execute` before the plan. -/
def clear [Sha256] (self : CallTool) (command : CallToolCommand) : Program Clearance := do
  let context := command.val.context
  let principal ← resolvePrincipal context
  let tool ← resolveTool context.tenantId command.val.toolName
  let tool ← Prog.orRaise tool
    (.nexus .toolNotFound ("tool " ++ command.val.toolName ++ " was not executable in tenant"))
  Prog.raiseIf (! isVisible tool.visibility principal.val.principalType)
    (.nexus .toolNotVisible ("tool " ++ command.val.toolName ++ " was not visible to principal"))
  validateArguments tool.inputSchema command.val.arguments
  lift (requireKeyUse tool.sideEffect command.val.idempotencyKey)
  let argumentsDigest ← lift command.argumentsDigest
  let policyInput : PolicyEvaluationInput ← lift <| construct
    { tenantId := context.tenantId
      principal := principal
      toolId := tool.toolId
      toolVersionId := tool.toolVersionId
      action := .call
      sideEffect := tool.sideEffect
      argumentsDigest := argumentsDigest }
  let decision ← evaluatePolicy policyInput
  self.passPolicy command principal tool argumentsDigest decision
  validateEndpoint tool.upstreamEndpoint
  let credentialBinding ← self.resolveCredentialBinding context.tenantId principal tool
  return { principal, tool, argumentsDigest, decision, credentialBinding }

/-! ## From the plan on -/

/-- The plan of a cleared call. -/
def planCommand (command : CallToolCommand) (cleared : Clearance) : PlanExecutionCommand where
  context := command.val.context
  principalId := cleared.principal.val.id
  toolId := cleared.tool.toolId
  toolVersionId := cleared.tool.toolVersionId
  toolBindingId := cleared.tool.toolBindingId
  argumentsDigest := cleared.argumentsDigest
  policyVersion := cleared.decision.policyVersion
  policyReasonCode := cleared.decision.reasonCode
  sideEffect := cleared.tool.sideEffect
  approvalId := if cleared.decision.effect = .requireApproval then command.val.approvalId else none
  credentialBindingId := cleared.credentialBinding.map (·.val.id)
  idempotencyKey := command.val.idempotencyKey
  mcpScopeType := command.val.mcpScopeType
  toolsetId := command.val.toolsetId
  toolsetRevision := command.val.toolsetRevision

/-- `_resolve_secret`. -/
def resolveSecret (self : CallTool) :
    Option CredentialBinding → Program (Option ResolvedCredential)
  | none => return none
  | some binding => do
    Prog.raiseIf (! self.hasCredentialProvider)
      (.nexus .credentialResolution "credential provider was not configured")
    let value ← readSecret binding.val.secretReference
    return some
      { credentialBindingId := binding.val.id
        injectionLocation := binding.val.injectionLocation
        injectionName := binding.val.injectionName
        valueFormat := binding.val.valueFormat
        value := value }

/-- The handlers around the resolution of the secret. None of them catches a
    cancellation. -/
def failCredential {α : Type} (tenantId executionId : Id) : Exc → Program α
  | .cancelled => throw .cancelled
  | .nexus cls message => do
    let _ ← fail tenantId executionId cls.code .credential
    throw (.nexus cls message)
  | _ => do
    let _ ← fail tenantId executionId "credential_resolution_failed" .credential
    throw (.nexus .credentialResolution "unexpected credential provider failure")

/-- `_public_executor_error`. -/
def publicExecutorError (error : ExecutorFailure) : Exc :=
  if error.outcomeUnknown then .nexus .unknownExecutionOutcome error.code
  else match error.category with
    | .validation => .nexus .invalidArguments error.code
    | .authorization => .nexus .authorization error.code
    | .timeoutBeforeSend | .timeoutAfterSend => .nexus .upstreamTimeout error.code
    | .network | .upstream5xx => .nexus .upstreamUnavailable error.code
    | _ => .nexus .upstreamResponse error.code

/-- The handlers around the executor. -/
def failExecution {α : Type} (tenantId executionId : Id) : Exc → Program α
  | .cancelled => do
    let _ ← cancel tenantId executionId
    throw .cancelled
  | .executorFailure error => do
    let _ ← fail tenantId executionId error.code error.category error.outcomeUnknown
    throw (publicExecutorError error)
  | _ => do
    let _ ← fail tenantId executionId "unexpected_executor_failure" .unknown true
    throw (.nexus .unknownExecutionOutcome "unexpected executor failure")

/-- The call of the executor, with the request it is given. -/
def callExecutor (self : CallTool) (command : CallToolCommand) (tool : ResolvedExecutableTool)
    (executionId : Id) (credential : Option ResolvedCredential) : Program ExecutorResult := do
  let request : ExecutorRequest ← lift <| construct
    { executionId := executionId
      tool := tool
      arguments := command.val.arguments
      timeoutSeconds := self.timeoutSeconds
      idempotencyKey := command.val.idempotencyKey }
  self.executor request credential

/-- The part of `execute` after the plan. -/
def deliver (self : CallTool) (command : CallToolCommand) (cleared : Clearance)
    (execution : ToolExecution) : Program CallToolResult := do
  let tenantId := command.val.context.tenantId
  let executionId := execution.val.id
  let credential ← (self.resolveSecret cleared.credentialBinding).tryCatch
    (failCredential tenantId executionId)
  let executorResult ← (self.callExecutor command cleared.tool executionId credential).tryCatch
    (failExecution tenantId executionId)
  let terminal ← succeed tenantId executionId
  return {
    executionId := executionId
    data := executorResult.data
    contentType := executorResult.contentType
    upstreamStatus := executorResult.upstreamStatus
    attemptCount := terminal.val.attemptCount }

def execute [Sha256] (self : CallTool) (command : CallToolCommand) : Program CallToolResult := do
  let cleared ← self.clear command
  let execution ← plan (planCommand command cleared)
  self.deliver command cleared execution

end CallTool

end NexusMcp
