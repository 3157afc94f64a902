-- SUMMARY: What each request may ask and write, and whom every row of the ledger comes from.
import NexusMcp.Execution.GovernanceOrder
import NexusMcp.Mcp.Requests

/-!
# Attribution of the Ledger

A request asks and writes on its own behalf only. So every row of the ledger tells the
request that it comes from, however the requests interleave.
-/

namespace NexusMcp

open Txn ExecutionLifecycle Prog

/-! ## Admitted calls -/

/-- What the server has established about a business call when it hands it on. -/
structure AdmittedCall where
  context : RequestContext
  scope : McpEndpointScope
  access : Option ResolvedToolsetAccess
  key : Option String

/-- The call passed the checks of the server. -/
structure AdmittedCall.Of (server : McpServer) (ctx : RawServerContext)
    (params : CallToolRequestParams) (call : AdmittedCall) : Prop where
  context : ∃ own, server.contextResolver ctx = .ok own ∧ call.context = own.observed ctx
  scope : resolveEndpointScope ctx = .ok call.scope
  access : server.accessFor call.context call.scope = .ok call.access
  business : params.name ≠ nexusSearchToolsName
  inScope : McpServer.requireInScope call.access params.name = .ok ()
  key : McpServer.idempotencyKey params = .ok call.key

/-- A question that belongs to the call. -/
def AdmittedCall.Asks [Sha256] (call : AdmittedCall) (params : CallToolRequestParams) :
    Query → Prop
  | .resolvePrincipal context => context = call.context.toActorContext
  | .resolveTool tenantId name => tenantId = call.context.tenantId ∧ name = params.name
  | .validateArguments _ arguments => arguments = params.givenArguments
  | .evaluatePolicy input => input.val.tenantId = call.context.tenantId ∧
      canonicalJsonDigest (.obj params.givenArguments) = .ok input.val.argumentsDigest
  | .validateEndpoint _ => True
  | .resolveBinding tenantId _ _ _ => tenantId = call.context.tenantId
  | .resolveSecret _ => True
  | .executeTool request _ => request.val.arguments = params.givenArguments ∧
      request.val.idempotencyKey = call.key
  | _ => False

/-- The execution carries out the call. -/
structure AdmittedCall.Plans [Sha256] (call : AdmittedCall) (params : CallToolRequestParams)
    (e : ToolExecutionFields) : Prop where
  tenantId : e.tenantId = call.context.tenantId
  requestId : e.requestId = call.context.requestId
  traceId : e.traceId = call.context.traceId
  argumentsDigest : canonicalJsonDigest (.obj params.givenArguments) = .ok e.argumentsDigest
  idempotencyKey : e.idempotencyKey = call.key
  approvalId : e.approvalId = none ∨ e.approvalId = params.requestState
  scopeType : e.mcpScopeType = McpServer.executionScopeType call.access
  toolsetId : e.toolsetId = call.access.bind (·.toolsetId)
  toolsetRevision : e.toolsetRevision = call.access.bind (·.toolsetRevision)

/-- The ports answered that the policy decides so about the call, for a principal that sees the
    tool and with arguments that fit it. -/
structure AdmittedCall.Evaluated [Sha256] (call : AdmittedCall) (params : CallToolRequestParams)
    (given : Answers Gateway) (principal : InternalPrincipal) (tool : ResolvedExecutableTool)
    (argumentsDigest : String) (decision : PolicyDecision) : Prop where
  resolved : given (.resolvePrincipal call.context.toActorContext) (.ok principal)
  found : given (.resolveTool call.context.tenantId params.name) (.ok (some tool))
  visible : isVisible tool.visibility principal.val.principalType = true
  validated : given (.validateArguments tool.inputSchema params.givenArguments) (.ok ())
  key : CallTool.requireKeyUse tool.sideEffect call.key = .ok ()
  digest : canonicalJsonDigest (.obj params.givenArguments) = .ok argumentsDigest
  decided : ∃ input : PolicyEvaluationInput, given (.evaluatePolicy input) (.ok decision) ∧
    input.val = {
      tenantId := call.context.tenantId
      principal := principal
      toolId := tool.toolId
      toolVersionId := tool.toolVersionId
      action := .call
      sideEffect := tool.sideEffect
      argumentsDigest := argumentsDigest }

/-- Nothing that governs a call was passed by: the policy lets it through, the endpoint was
    vetted, and the credential is the one that was bound. -/
structure AdmittedCall.Mediated [Sha256] (call : AdmittedCall) (params : CallToolRequestParams)
    (given : Answers Gateway) (cleared : CallTool.Clearance) : Prop where
  evaluated : call.Evaluated params given cleared.principal cleared.tool cleared.argumentsDigest
    cleared.decision
  effect : cleared.decision.effect = .allow ∨
    cleared.decision.effect = .requireApproval ∧ params.requestState ≠ none
  endpoint : given (.validateEndpoint cleared.tool.upstreamEndpoint) (.ok ())
  credential : cleared.credentialBinding = none ∧ CallTool.authScheme cleared.tool = "none" ∨
    ∃ binding, cleared.credentialBinding = some binding ∧
      given (.resolveBinding call.context.tenantId cleared.principal cleared.tool.toolId
        cleared.tool.upstreamServiceId) (.ok (some binding))

/-- The execution records what its call was cleared with. -/
structure CallTool.Clearance.RecordedIn (cleared : CallTool.Clearance)
    (params : CallToolRequestParams) (e : ToolExecutionFields) : Prop where
  principalId : e.principalId = cleared.principal.val.id
  toolId : e.toolId = cleared.tool.toolId
  toolVersionId : e.toolVersionId = cleared.tool.toolVersionId
  toolBindingId : e.toolBindingId = cleared.tool.toolBindingId
  policyVersion : e.policyVersion = cleared.decision.policyVersion
  policyReasonCode : e.policyReasonCode = cleared.decision.reasonCode
  sideEffect : e.sideEffect = cleared.tool.sideEffect
  credentialBindingId : e.credentialBindingId = cleared.credentialBinding.map (·.val.id)
  approvalId : e.approvalId =
    if cleared.decision.effect = .requireApproval then params.requestState else none

/-- The approval is requested for the call. -/
structure AdmittedCall.Requests [Sha256] (call : AdmittedCall) (params : CallToolRequestParams)
    (a : ApprovalFields) : Prop where
  tenantId : a.tenantId = call.context.tenantId
  argumentsDigest : canonicalJsonDigest (.obj params.givenArguments) = .ok a.argumentsDigest
  idempotencyKey : a.idempotencyKey = call.key

/-- The approval is requested because the policy asks for one. -/
structure AdmittedCall.Calls [Sha256] (call : AdmittedCall) (params : CallToolRequestParams)
    (given : Answers Gateway) (a : ApprovalFields) : Prop where
  requests : call.Requests params a
  evaluated : ∃ principal tool argumentsDigest decision,
    call.Evaluated params given principal tool argumentsDigest decision ∧
      decision.effect = .requireApproval ∧ a.principalId = principal.val.id ∧
      a.toolId = tool.toolId ∧ a.toolVersionId = tool.toolVersionId ∧
      a.policyVersion = decision.policyVersion

/-! ## What a request may do -/

namespace GatewayRequest

/-- The request acts in the context. -/
def ActsIn : GatewayRequest → ActorContext → Prop
  | call server _ ctx _, context =>
    ∃ own, server.contextResolver ctx = .ok own ∧ context = (own.observed ctx).toActorContext
  | decide command, context => context = command.context

/-- The request is a call that the server admits as `admitted`. -/
def Admits : GatewayRequest → AdmittedCall → CallToolRequestParams → Prop
  | call server _ ctx params, admitted, params' =>
    params' = params ∧ admitted.Of server ctx params
  | decide _, _, _ => False

variable [Sha256]

def Asks (request : GatewayRequest) (q : Query) : Prop :=
  q = .now ∨ q = .newId ∨ (∃ seconds, q = .sleep seconds) ∨
    ∃ admitted params, request.Admits admitted params ∧ admitted.Asks params q

/-- The execution carries out a call of the request, which the answers cleared. -/
def Plans (request : GatewayRequest) (given : Answers Gateway) (e : ToolExecutionFields) : Prop :=
  ∃ admitted params, request.Admits admitted params ∧ admitted.Plans params e ∧
    ∃ cleared, admitted.Mediated params given cleared ∧ cleared.RecordedIn params e

def Requests (request : GatewayRequest) (given : Answers Gateway) (a : ApprovalFields) : Prop :=
  ∃ admitted params, request.Admits admitted params ∧ admitted.Calls params given a

omit [Sha256] in
/-- The audit names the request. -/
def Records (request : GatewayRequest) (event : AuditEventFields) : Prop :=
  ∃ context, request.ActsIn context ∧ event.tenantId = context.tenantId ∧
    event.requestId = context.requestId ∧ event.traceId = context.traceId

/-- The writes of a request. The audits of an execution name that execution instead. -/
inductive Writes (request : GatewayRequest) (given : Answers Gateway) :
    (Ledger → Ledger) → Prop where
  | addApproval {a : ApprovalRequest} (h : request.Requests given a.val) :
      Writes request given (Ledger.addApproval a)
  | saveApproval (a : ApprovalRequest) : Writes request given (Ledger.saveApproval a)
  | addExecution {e : ToolExecution} (h : request.Plans given e.val) :
      Writes request given (Ledger.addExecution e)
  | saveExecution (e : ToolExecution) : Writes request given (Ledger.saveExecution e)
  | addAttempt (a : ExecutionAttempt) : Writes request given (Ledger.addAttempt a)
  | saveAttempt (a : ExecutionAttempt) : Writes request given (Ledger.saveAttempt a)
  | appendAudit {event : AuditEvent}
      (h : event.val.executionId = none → request.Records event.val) :
      Writes request given (Ledger.appendAudit event)

def vocabulary (request : GatewayRequest) (given : Answers Gateway) : Vocabulary Gateway where
  asks := request.Asks
  opens _ := True
  writes := request.Writes given
  closes := True

/-! ## The programs of a request -/

variable {request : GatewayRequest} {given : Answers Gateway}

theorem asks_now : (request.vocabulary given).asks .now := .inl rfl

theorem asks_newId : (request.vocabulary given).asks .newId := .inr (.inl rfl)

theorem writes_saveApproval (a : ApprovalRequest) :
    (request.vocabulary given).writes (Ledger.saveApproval a) := .saveApproval a

theorem writes_saveExecution (e : ToolExecution) :
    (request.vocabulary given).writes (Ledger.saveExecution e) := .saveExecution e

theorem attempting : Attempting (request.vocabulary given) where
  now := asks_now
  newId := asks_newId
  sleep seconds := .inr (.inr (.inl ⟨seconds, rfl⟩))
  starts := trivial
  finishes := trivial
  registers _ e' _ := .saveExecution e'
  adds := .addAttempt
  saves := .saveAttempt
  closes := trivial

theorem within_recorded {event : AuditEvent} {u : UnitOfWork} (h : request.Records event.val) :
    (Audits.append u event).Within (request.vocabulary given) :=
  within_append trivial (.appendAudit fun _ => h)

/-- An audit that names its execution. -/
theorem within_audited {e : ToolExecution} {outcome : AuditOutcome} {t : Time} {u : UnitOfWork}
    {α : Type} {k : Program α} (hk : k.Within (request.vocabulary given)) :
    ((executionAudit e outcome t).bind fun event =>
      (Audits.append u event).bind fun _ => k).Within (request.vocabulary given) := by
  refine within_ask asks_newId fun id => within_lift_bind fun event hevent => ?_
  obtain ⟨-, hexecution, -⟩ := executionAuditEvent_ok hevent
  refine Within.bind (within_append trivial (.appendAudit fun hnone => ?_)) fun _ => hk
  rw [hexecution] at hnone
  cases hnone

theorem finish_within (tenantId executionId : Id) (outcome : ExecutionOutcome) :
    (finish tenantId executionId outcome).Within (request.vocabulary given) := by
  refine within_ask asks_now fun _ => Within.uow trivial trivial ?_
  refine (within_getExecution trivial).bind fun _ => (within_orRaise _ _).bind fun _ => ?_
  refine (within_raiseIf _ _).bind fun _ => (within_lift _).bind fun e => ?_
  refine (within_saveRow trivial (writes_saveExecution e)).bind fun _ => ?_
  exact within_audited ((within_commit.2 trivial).bind fun _ => trivial)

section Transactions

variable {context : ActorContext} (hacts : request.ActsIn context)

include hacts

/-- A decision is recorded under the context that took it. -/
theorem decideApproval_within {command : DecideApprovalCommand} (h : command.context = context) :
    (DecideApproval.execute command).Within (request.vocabulary given) := by
  refine Within.uow trivial trivial ((within_getApproval trivial).bind fun _ => ?_)
  refine (within_orRaise _ _).bind fun a => (within_lift _).bind fun _ => ?_
  refine within_ask asks_now fun _ => ?_
  rw [Prog.ret_bind]
  split
  · refine (within_lift _).bind fun b => ?_
    refine (within_saveRow trivial (writes_saveApproval b)).bind fun _ => ?_
    exact (within_commit.2 trivial).bind fun _ => trivial
  · refine (within_lift _).bind fun b => ?_
    refine (within_saveRow trivial (writes_saveApproval b)).bind fun _ => ?_
    refine within_ask asks_newId fun id => within_lift_bind fun event hevent => ?_
    rw [construct_eq_ok] at hevent
    refine Within.bind (within_recorded ⟨context, hacts, ?_⟩) fun _ => ?_
    · simp [hevent, h]
    · exact (within_commit.2 trivial).bind fun _ => trivial

theorem recordCallDecision_within {command : RecordCallDecisionCommand}
    (h : command.context = context) :
    (recordCallDecision command).Within (request.vocabulary given) := by
  refine within_ask asks_newId fun _ => within_ask asks_now fun _ => ?_
  refine (within_lift _).bind fun _ => within_lift_bind fun event hevent => ?_
  rw [construct_eq_ok] at hevent
  refine Within.uow trivial trivial (Within.bind (within_recorded ⟨context, hacts, ?_⟩) fun _ => ?_)
  · simp [hevent, h]
  · exact within_commit.2 trivial

theorem recordScopeDenial_within {command : RecordMcpScopeDenialCommand}
    (h : command.context = context) :
    (recordScopeDenial command).Within (request.vocabulary given) := by
  refine (within_lift _).bind fun _ => within_ask asks_newId fun _ => ?_
  refine within_ask asks_now fun _ => within_lift_bind fun event hevent => ?_
  rw [construct_eq_ok] at hevent
  refine Within.uow trivial trivial (Within.bind (within_recorded ⟨context, hacts, ?_⟩) fun _ => ?_)
  · simp [hevent, h]
  · exact within_commit.2 trivial

end Transactions

/-! ## The call of a tool -/

section Calls

variable {admitted : AdmittedCall} {params : CallToolRequestParams}
  (hadmits : request.Admits admitted params)

omit [Sha256] in
theorem Admits.acts (h : request.Admits admitted params) :
    request.ActsIn admitted.context.toActorContext := by
  cases request with
  | decide command => exact h.elim
  | call server wired ctx params' =>
    obtain ⟨own, hown, hcontext⟩ := h.2.context
    exact ⟨own, hown, congrArg _ hcontext⟩

/-- The command is the one that the server makes of the call. -/
def Commands (admitted : AdmittedCall) (params : CallToolRequestParams)
    (command : CallToolCommand) : Prop :=
  command.val = McpServer.commandFields admitted.context admitted.access params admitted.key

/-- What is planned for the command carries out the call. -/
theorem plans_of_fields {command : CallToolCommand} (hcommand : Commands admitted params command)
    {cleared : CallTool.Clearance} {e : ToolExecutionFields} {t : Time} {id : Id}
    (hdigest : canonicalJsonDigest (.obj params.givenArguments) = .ok cleared.argumentsDigest)
    (hfields : e = { plannedFields (CallTool.planCommand command cleared) t id with
      status := .running, startedAt := some t }) : admitted.Plans params e := by
  rw [hfields]
  simp only [plannedFields, CallTool.planCommand, show command.val = _ from hcommand,
    McpServer.commandFields]
  constructor
  case argumentsDigest => exact hdigest
  case approvalId => split <;> simp
  all_goals rfl

omit [Sha256] in
/-- What is planned for a cleared call records what it was cleared with. -/
theorem recorded_of_fields {command : CallToolCommand}
    (hcommand : Commands admitted params command) {cleared : CallTool.Clearance}
    {e : ToolExecutionFields} {t : Time} {id : Id}
    (hfields : e = { plannedFields (CallTool.planCommand command cleared) t id with
      status := .running, startedAt := some t }) : cleared.RecordedIn params e := by
  rw [hfields]
  simp only [plannedFields, CallTool.planCommand, show command.val = _ from hcommand,
    McpServer.commandFields]
  constructor <;> rfl

include hadmits

theorem asks_own {q : Query} (h : admitted.Asks params q) : (request.vocabulary given).asks q :=
  .inr (.inr (.inr ⟨admitted, params, hadmits, h⟩))

variable {command : CallToolCommand} (hcommand : Commands admitted params command)

include hcommand

/-- The approval that the policy asks for is requested for the call. -/
theorem requestApproval_within {service : RequestApproval} {approval : RequestApprovalCommand}
    (hcontext : approval.context = command.val.context)
    (hkey : approval.idempotencyKey = command.val.idempotencyKey)
    {principal : InternalPrincipal} {tool : ResolvedExecutableTool} {decision : PolicyDecision}
    (hevaluated : admitted.Evaluated params given principal tool approval.argumentsDigest decision)
    (hrequired : decision.effect = .requireApproval ∧ approval.principalId = principal.val.id ∧
      approval.toolId = tool.toolId ∧ approval.toolVersionId = tool.toolVersionId ∧
      approval.policyVersion = decision.policyVersion) :
    (service.execute approval).Within (request.vocabulary given) := by
  rw [hcommand] at hcontext hkey
  refine within_ask asks_now fun _ => within_ask asks_newId fun _ => ?_
  refine within_lift_bind fun a ha => Within.uow trivial trivial ?_
  rw [construct_eq_ok] at ha
  have hrequests : request.Requests given a.val := by
    refine ⟨admitted, params, hadmits, ?_, principal, tool, _, decision, hevaluated, ?_⟩
    · rw [ha]
      exact ⟨congrArg (·.tenantId) hcontext, hevaluated.digest, hkey⟩
    · rw [ha]
      exact hrequired
  refine Within.bind ?_ fun _ => within_ask asks_newId fun _ => ?_
  · refine within_requireTenant.bind fun _ => (within_claimKey trivial).bind fun _ => ?_
    exact within_write.2 ⟨trivial, .addApproval hrequests⟩
  · refine (within_lift _).bind fun _ => within_lift_bind fun event hevent => ?_
    rw [construct_eq_ok] at hevent
    refine Within.bind (within_recorded ⟨_, hadmits.acts, ?_⟩) fun _ => ?_
    · rw [hevent, hcontext]
      exact ⟨rfl, rfl, rfl⟩
    · exact (within_commit.2 trivial).bind fun _ => trivial

/-- A call goes on from the policy only where the policy lets it. -/
theorem passPolicy_answered {service : CallTool} {principal : InternalPrincipal}
    {tool : ResolvedExecutableTool} {digest : String} {decision : PolicyDecision}
    (hevaluated : admitted.Evaluated params given principal tool digest decision) {α : Type}
    {k : Unit → Program α} (hk : decision.effect = .allow ∨
      decision.effect = .requireApproval ∧ params.requestState ≠ none →
        (k ()).Answered given (request.vocabulary given)) :
    ((service.passPolicy command principal tool digest decision).bind k).Answered given
      (request.vocabulary given) := by
  have happrovalId : command.val.approvalId = params.requestState :=
    congrArg (·.approvalId) hcommand
  unfold CallTool.passPolicy CallTool.deny CallTool.passApprovalGate
  simp only [Prog.bind_eq, Prog.pure_eq]
  split
  · rw [Prog.bind_assoc]
    refine (recordCallDecision_within hadmits.acts ?_).answered_bind fun _ => trivial
    exact congrArg (·.context) hcommand
  next heffect =>
    split
    next _ hgiven =>
      refine hk (.inr ⟨heffect, fun hnone => ?_⟩)
      rw [happrovalId, hnone] at hgiven
      cases hgiven
    · trivial
    next service' _ _ =>
      rw [Prog.bind_assoc]
      exact (requestApproval_within hadmits hcommand rfl rfl hevaluated
        ⟨heffect, rfl, rfl, rfl, rfl⟩).answered_bind fun _ => trivial
  next heffect => exact hk (.inl heffect)

omit hcommand in
theorem resolveCredentialBinding_answered {service : CallTool} {principal : InternalPrincipal}
    {tool : ResolvedExecutableTool} {α : Type} {k : Option CredentialBinding → Program α}
    (hk : ∀ binding?, (binding? = none ∧ CallTool.authScheme tool = "none" ∨
      ∃ binding, binding? = some binding ∧
        given (.resolveBinding admitted.context.tenantId principal tool.toolId
          tool.upstreamServiceId) (.ok (some binding))) →
        (k binding?).Answered given (request.vocabulary given)) :
    ((service.resolveCredentialBinding admitted.context.tenantId principal tool).bind k).Answered
      given (request.vocabulary given) := by
  unfold CallTool.resolveCredentialBinding
  simp only [Prog.bind_eq, Prog.pure_eq]
  split
  next hscheme => exact hk none (.inl ⟨rfl, hscheme⟩)
  · simp only [Prog.bind_assoc]
    refine (within_raiseIf _ _).answered_bind fun _ => ?_
    refine answered_ask (asks_own hadmits rfl) fun answer hgiven => ?_
    refine answered_lift_bind fun found hfound => answered_orRaise_bind fun binding hbinding => ?_
    subst hfound hbinding
    exact hk (some binding) (.inr ⟨binding, rfl, hgiven⟩)

/-- A call goes on with a clearance only where all that governs it answered for it. -/
theorem clear_answered {service : CallTool} {α : Type} {k : CallTool.Clearance → Program α}
    (hk : ∀ cleared, admitted.Mediated params given cleared →
      (k cleared).Answered given (request.vocabulary given)) :
    ((service.clear command).bind k).Answered given (request.vocabulary given) := by
  have hcontext : command.val.context = admitted.context.toActorContext :=
    congrArg (·.context) hcommand
  have hname : command.val.toolName = params.name := congrArg (·.toolName) hcommand
  have harguments : command.val.arguments = params.givenArguments :=
    congrArg (·.arguments) hcommand
  have hkey : command.val.idempotencyKey = admitted.key := congrArg (·.idempotencyKey) hcommand
  unfold CallTool.clear
  -- In the words of the call, each question is one that the call may ask.
  rw [hcontext, hname, harguments, hkey]
  simp only [Prog.bind_eq, Prog.pure_eq, Prog.bind_assoc, Prog.ret_bind]
  refine answered_ask (asks_own hadmits rfl) fun _ hresolved => ?_
  refine answered_lift_bind fun principal hprincipal => ?_
  refine answered_ask (asks_own hadmits ⟨rfl, rfl⟩) fun _ hfound => ?_
  refine answered_lift_bind fun _ htool? => answered_orRaise_bind fun tool htool => ?_
  refine answered_raiseIf_bind fun hvisible => ?_
  refine answered_ask (asks_own hadmits rfl) fun _ hvalidated => ?_
  refine answered_lift_bind fun _ hvalid => answered_lift_bind fun _ hkeyUse => ?_
  refine answered_lift_bind fun digest hdigest => answered_lift_bind fun input hinput => ?_
  rw [construct_eq_ok] at hinput
  have hown : canonicalJsonDigest (.obj params.givenArguments) = .ok digest := harguments ▸ hdigest
  refine answered_ask (asks_own hadmits ?_) fun _ hdecided => ?_
  · rw [AdmittedCall.Asks, hinput]
    exact ⟨rfl, hown⟩
  refine answered_lift_bind fun decision hdecision => ?_
  -- Up to here every answer was a good one, so all that governs the call has answered for it.
  subst hprincipal htool? htool hvalid hdecision
  have hevaluated : admitted.Evaluated params given principal tool digest decision :=
    ⟨hresolved, hfound, by simpa using hvisible, hvalidated, hkeyUse, hown, input, hdecided, hinput⟩
  refine passPolicy_answered hadmits hcommand hevaluated fun heffect => ?_
  refine answered_ask (asks_own hadmits trivial) fun _ hvetted => ?_
  refine answered_lift_bind fun _ hendpoint => ?_
  subst hendpoint
  exact resolveCredentialBinding_answered hadmits fun binding? hcredential =>
    hk _ ⟨hevaluated, heffect, hvetted, hcredential⟩

theorem plan_within {cleared : CallTool.Clearance}
    (hmediated : admitted.Mediated params given cleared) :
    (plan (CallTool.planCommand command cleared)).Within (request.vocabulary given) := by
  refine within_ask asks_now fun t => within_ask asks_newId fun id => ?_
  refine within_lift_bind fun e he => Within.uow trivial trivial ?_
  have hfields := plannedExecution_ok he
  -- The one write that is not free: the execution that is inserted must be planned by the call.
  have hplans : request.Plans given e.val :=
    ⟨admitted, params, hadmits, plans_of_fields hcommand hmediated.evaluated.digest hfields,
      cleared, hmediated, recorded_of_fields hcommand hfields⟩
  refine Within.bind ?_ fun _ => Within.bind ?_ fun _ => Within.bind ?_ fun _ => ?_
  · unfold rejectReuse
    split
    · trivial
    · refine Within.bind ((within_select.2 trivial).bind fun _ => trivial) fun existing => ?_
      cases existing <;> trivial
  · unfold consumeForPlan
    split
    · trivial
    · refine Within.bind (Within.tryCatch ?_ fun x => ?_) fun _ => trivial
      · refine (within_getApproval trivial).bind fun _ => (within_orRaise _ _).bind fun a => ?_
        refine (within_lift _).bind fun _ => ?_
        split
        · refine (within_lift _).bind fun b => ?_
          exact (within_saveRow trivial (writes_saveApproval b)).bind fun _ => trivial
        · refine (within_lift _).bind fun _ => (within_lift _).bind fun b => ?_
          exact (within_saveRow trivial (writes_saveApproval b)).bind fun _ => trivial
      · unfold commitExpired
        split
        · exact (within_commit.2 trivial).bind fun _ => trivial
        · trivial
  · refine within_requireTenant.bind fun _ => (within_claimKey trivial).bind fun _ => ?_
    refine Within.bind ?_ fun _ => within_write.2 ⟨trivial, .addExecution hplans⟩
    unfold Executions.claimScope
    split
    · trivial
    · exact within_claimKey trivial
  · exact within_audited ((within_commit.2 trivial).bind fun _ => trivial)

theorem deliver_within {service : CallTool} (hwired : Wired service.executor)
    {cleared : CallTool.Clearance} {e : ToolExecution} :
    (service.deliver command cleared e).Within (request.vocabulary given) := by
  have hexecutor : ∀ (executorRequest : ExecutorRequest) credential,
      executorRequest.val = requestFields service command cleared.tool e.val.id →
      (service.executor executorRequest credential).Within (request.vocabulary given) := by
    intro executorRequest credential hrequest
    refine executor_within attempting hwired (asks_own hadmits ?_)
    rw [AdmittedCall.Asks, hrequest]
    exact ⟨congrArg (·.arguments) hcommand, congrArg (·.idempotencyKey) hcommand⟩
  refine Within.bind (Within.tryCatch ?_ fun x => ?_) fun credential => ?_
  · unfold CallTool.resolveSecret
    split
    · trivial
    · refine (within_raiseIf _ _).bind fun _ => within_ask (asks_own hadmits trivial) fun _ => ?_
      exact (within_lift _).bind fun _ => trivial
  · rw [CallTool.failCredential.eq_def]
    split
    · trivial
    all_goals exact (finish_within _ _ _).bind fun _ => trivial
  refine Within.bind (Within.tryCatch ?_ fun x => ?_) fun result => ?_
  · exact callExecutor_within fun executorRequest h => hexecutor executorRequest credential h
  · rw [CallTool.failExecution.eq_def]
    split
    all_goals exact (finish_within _ _ _).bind fun _ => trivial
  · exact (finish_within _ _ _).bind fun _ => trivial

theorem callTool_answered {service : CallTool} (hwired : Wired service.executor) :
    (service.execute command).Answered given (request.vocabulary given) :=
  clear_answered hadmits hcommand fun _ hmediated =>
    (plan_within hadmits hcommand hmediated).answered_bind fun _ =>
      (deliver_within hadmits hcommand hwired).answered

end Calls

/-! ## Whole requests -/

section Requests

variable {server : McpServer} {wired : ∀ service ∈ server.callTool, Wired service.executor}
  {ctx : RawServerContext} {params : CallToolRequestParams} {own : RequestContext}

omit [Sha256] in
theorem acts_call (hown : server.contextResolver ctx = .ok own) :
    (call server wired ctx params).ActsIn (own.observed ctx).toActorContext :=
  ⟨own, hown, rfl⟩

theorem recordDenial_within (hown : server.contextResolver ctx = .ok own) {scope : McpEndpointScope}
    {access : Option ResolvedToolsetAccess} {cls : ErrorClass} :
    (server.recordScopeDenial (own.observed ctx) scope access params cls).Within
      ((call server wired ctx params).vocabulary given) := by
  unfold McpServer.recordScopeDenial
  split
  · trivial
  · refine Within.tryCatch ?_ fun x => ?_
    · exact (within_lift _).bind fun _ => recordScopeDenial_within (acts_call hown) rfl
    · cases x <;> trivial

theorem reject_within (hown : server.contextResolver ctx = .ok own) {scope : McpEndpointScope}
    {access : Option ResolvedToolsetAccess} {cls : ErrorClass} {mode : Option ToolRetrievalMode} :
    (server.reject (own.observed ctx) scope access params cls mode).Within
      ((call server wired ctx params).vocabulary given) :=
  (recordDenial_within hown).attempt.bind fun _ => trivial

theorem serveSearch_within (hown : server.contextResolver ctx = .ok own)
    {scope : McpEndpointScope} {access : Option ResolvedToolsetAccess} :
    (server.serveSearch (own.observed ctx) scope access params).Within
      ((call server wired ctx params).vocabulary given) := by
  unfold McpServer.serveSearch
  split
  · trivial
  · split
    case h_2 => exact reject_within hown
    all_goals trivial

omit [Sha256] in
/-- The answer to an approval is decided in the context of the request. -/
theorem context_of_decision {context : RequestContext} {decision : DecideApprovalCommand}
    (h : server.approvalDecision context params = .ok (some decision)) :
    decision.context = context.toActorContext := by
  unfold McpServer.approvalDecision at h
  split at h
  · cases h
  · cases h
  · rw [raiseIf_bind_eq_ok, raiseIf_bind_eq_ok] at h
    obtain ⟨-, -, h⟩ := h
    split at h
    · rw [raiseIf_bind_eq_ok] at h
      obtain ⟨-, h⟩ := h
      cases h
      rfl
    · cases h
      rfl
    · cases h

theorem serveCall_answered (hown : server.contextResolver ctx = .ok own) {scope : McpEndpointScope}
    {access : Option ResolvedToolsetAccess} (hscope : resolveEndpointScope ctx = .ok scope)
    (haccess : server.accessFor (own.observed ctx) scope = .ok access)
    (hbusiness : params.name ≠ nexusSearchToolsName) :
    (server.serveCall (own.observed ctx) scope access params).Answered given
      ((call server wired ctx params).vocabulary given) := by
  unfold McpServer.serveCall
  split
  · trivial
  next service hservice =>
  refine Answered.bind (Answered.attempt ?_) fun outcome => ?_
  · refine answered_lift_bind fun _ hinScope => Answered.bind (Within.answered ?_) fun _ => ?_
    · refine within_lift_bind fun decision hdecision => ?_
      cases decision with
      | none => trivial
      | some decision =>
        refine Within.bind (decideApproval_within (acts_call hown) ?_) fun _ => trivial
        exact context_of_decision hdecision
    · refine answered_lift_bind fun key hkey => answered_lift_bind fun command hcommand => ?_
      rw [construct_eq_ok] at hcommand
      have hadmits : (call server wired ctx params).Admits
          ⟨own.observed ctx, scope, access, key⟩ params :=
        ⟨rfl, ⟨own, hown, rfl⟩, hscope, haccess, hbusiness, hinScope, hkey⟩
      exact callTool_answered hadmits hcommand (wired service hservice)
  · unfold McpServer.answerCall
    split
    case h_2 => split <;> trivial
    case h_3 => exact (reject_within hown).answered
    all_goals trivial

theorem onCallTool_answered :
    (server.onCallTool ctx params).Answered given
      ((call server wired ctx params).vocabulary given) := by
  unfold McpServer.onCallTool
  split
  · trivial
  · trivial
  next own hown =>
  refine Answered.bind ?_ fun _ => trivial
  unfold McpServer.serve
  split
  · trivial
  next scope hscope =>
  split
  · exact (reject_within hown).answered
  · trivial
  next access haccess =>
  split
  · exact (serveSearch_within hown).answered
  next hbusiness => exact serveCall_answered hown hscope haccess hbusiness

end Requests

/-- A request asks on its own behalf only, and writes what its answers cleared. -/
theorem program_answered (request : GatewayRequest) (given : Answers Gateway) :
    request.program.Answered given (request.vocabulary given) := by
  cases request with
  | call server wired ctx params => exact onCallTool_answered
  | decide command =>
    have hacts : (decide command).ActsIn command.context := rfl
    exact (decideApproval_within hacts rfl).answered

end GatewayRequest

/-! ## The audits of an execution -/

/-- The audit names the execution and whom it was planned for. -/
structure AuditNames (event : AuditEventFields) (e : ToolExecutionFields) : Prop where
  executionId : event.executionId = some e.id
  tenantId : event.tenantId = e.tenantId
  requestId : event.requestId = e.requestId
  traceId : event.traceId = e.traceId

/-- Every audit of an execution names one in the ledger. -/
def AuditsNamed (s : Ledger) : Prop :=
  ∀ event ∈ s.audits, event.val.executionId ≠ none →
    ∃ e ∈ s.executions, AuditNames event.val e.val

theorem auditNames_of_ok {id : Id} {e : ToolExecution} {outcome : AuditOutcome} {t : Time}
    {event : AuditEvent} (h : executionAuditEvent id e outcome t = .ok event) :
    AuditNames event.val e.val := by
  obtain ⟨evidence, -, h⟩ := bind_eq_ok.1 h
  rw [construct_eq_ok] at h
  rw [h]
  exact ⟨rfl, rfl, rfl, rfl⟩

theorem AuditNames.revises {event : AuditEventFields} {e e' : ToolExecution}
    (h : AuditNames event e.val) (hrevises : e'.Revises e) : AuditNames event e'.val where
  executionId := h.executionId.trans (congrArg some hrevises.id_eq.symm)
  tenantId := h.tenantId.trans (congrArg (·.val.tenantId) hrevises)
  requestId := h.requestId.trans (congrArg (·.val.requestId) hrevises)
  traceId := h.traceId.trans (congrArg (·.val.traceId) hrevises)

/-- An execution that an audit names is still there after a step. -/
theorem AuditNames.step {s s' : Ledger} {event : AuditEventFields} {e : ToolExecution}
    (h : AuditNames event e.val) (he : e ∈ s.executions) (hstep : LedgerStep s s') :
    ∃ e' ∈ s'.executions, AuditNames event e'.val := by
  obtain ⟨e', hfound, hrevises, -⟩ := hstep.execution (Table.find?_of_mem he)
  exact ⟨e', Table.mem_of_find? hfound, h.revises hrevises⟩

/-- The audits that a step adds: one without an execution, or one of an execution it leaves. -/
theorem LedgerStep.audit_cases {s s' : Ledger} (hstep : LedgerStep s s') {event : AuditEvent}
    (h : event ∈ s'.audits) : event ∈ s.audits ∨ event.val.executionId = none ∨
      ∃ e ∈ s'.executions, AuditNames event.val e.val := by
  cases hstep with
  | idle | expire | consume | startAttempt | finishAttempt => exact .inl h
  | request hstatus hfree hevent hexecution =>
    rcases Table.mem_of_mem_insert h with h | rfl
    · exact .inl h
    · exact .inr (.inl hexecution)
  | decide hfound hdecide hevent hexecution =>
    rcases Table.mem_of_mem_insert h with h | rfl
    · exact .inl h
    · exact .inr (.inl hexecution)
  | audit hevent hexecution =>
    rcases Table.mem_of_mem_insert h with h | rfl
    · exact .inl h
    · exact .inr (.inl hexecution)
  | @plan s₁ e event' id hconsumed hstatus hcount hfree hunclaimed haudit =>
    -- Consuming the approval first touches neither table.
    have hsame : s₁.executions = s.executions ∧ s₁.audits = s.audits := by
      cases hconsumed <;> exact ⟨rfl, rfl⟩
    rcases Table.mem_of_mem_insert h with h | rfl
    · exact .inl (hsame.2 ▸ h)
    · refine .inr (.inr ⟨e, (Table.mem_insert ?_).2 (.inr rfl), auditNames_of_ok haudit⟩)
      rw [hsame.1]
      exact hfree
  | @finish e e' event' id t outcome hfound hstatus hfinish haudit =>
    rcases Table.mem_of_mem_insert h with h | rfl
    · exact .inl h
    · refine .inr (.inr ⟨e', ?_, auditNames_of_ok haudit⟩)
      exact (Ledger.mem_saveExecution hfound (ToolExecution.revises_of_finish hfinish)).2 (.inr rfl)

theorem AuditsNamed.step {s s' : Ledger} (h : AuditsNamed s) (hstep : LedgerStep s s') :
    AuditsNamed s' := by
  intro event hevent hexecution
  rcases hstep.audit_cases hevent with hold | hnone | hnew
  · obtain ⟨e, he, hnames⟩ := h event hold hexecution
    exact hnames.step he hstep
  · exact absurd hnone hexecution
  · exact hnew

/-! ## Every run -/

/-- Every row of the ledger tells a request that it comes from, and what was answered to it. -/
structure LedgerAttributed [Sha256] {Pid : Type} (requests : Pid → GatewayRequest)
    (given : Pid → Answers Gateway) (s : Ledger) : Prop where
  executions : ∀ e ∈ s.executions, ∃ p, (requests p).Plans (given p) e.val
  approvals : ∀ a ∈ s.approvals, ∃ p, (requests p).Requests (given p) a.val
  audits : ∀ event ∈ s.audits, event.val.executionId = none → ∃ p, (requests p).Records event.val

section Runs

variable [Sha256] {Pid : Type} {requests : Pid → GatewayRequest}
  {w : World Gateway Pid (fun p => (requests p).Result)} {given : Pid → Answers Gateway}

theorem GatewayRequest.Plans.update {request : GatewayRequest} {given : Answers Gateway}
    {model e : ToolExecution} (h : request.Plans given model.val) :
    request.Plans given (updateExecutionModel model e).val := by
  obtain ⟨admitted, params, hadmits, h, cleared, hmediated, hrecorded⟩ := h
  refine ⟨admitted, params, hadmits, ?_, cleared, hmediated, ?_⟩
  · exact ⟨h.tenantId, h.requestId, h.traceId, h.argumentsDigest, h.idempotencyKey, h.approvalId,
      h.scopeType, h.toolsetId, h.toolsetRevision⟩
  · exact ⟨hrecorded.principalId, hrecorded.toolId, hrecorded.toolVersionId,
      hrecorded.toolBindingId, hrecorded.policyVersion, hrecorded.policyReasonCode,
      hrecorded.sideEffect, hrecorded.credentialBindingId, hrecorded.approvalId⟩

theorem GatewayRequest.Requests.update {request : GatewayRequest} {given : Answers Gateway}
    {model a : ApprovalRequest} (h : request.Requests given model.val) :
    request.Requests given (updateApprovalModel model a).val := by
  obtain ⟨admitted, params, hadmits, h, hevaluated⟩ := h
  exact ⟨admitted, params, hadmits, ⟨h.tenantId, h.argumentsDigest, h.idempotencyKey⟩, hevaluated⟩

/-- A write of a request leaves an attributed ledger. -/
theorem LedgerAttributed.write {s : Ledger} (h : LedgerAttributed requests given s) {p : Pid}
    {update : Ledger → Ledger} (hwrite : (requests p).Writes (given p) update) :
    LedgerAttributed requests given (update s) := by
  cases hwrite with
  | addApproval hrequests =>
    refine ⟨h.executions, fun a ha => ?_, h.audits⟩
    rcases Table.mem_of_mem_insert ha with ha | rfl
    · exact h.approvals a ha
    · exact ⟨p, hrequests⟩
  | saveApproval b =>
    refine ⟨h.executions, fun a ha => ?_, h.audits⟩
    rcases Table.mem_of_mem_modify ha with ha | ⟨model, hmodel, rfl⟩
    · exact h.approvals a ha
    · exact (h.approvals model hmodel).imp fun _ hrequests => hrequests.update
  | addExecution hplans =>
    refine ⟨fun e he => ?_, h.approvals, h.audits⟩
    rcases Table.mem_of_mem_insert he with he | rfl
    · exact h.executions e he
    · exact ⟨p, hplans⟩
  | saveExecution e' =>
    refine ⟨fun e he => ?_, h.approvals, h.audits⟩
    rcases Table.mem_of_mem_modify he with he | ⟨model, hmodel, rfl⟩
    · exact h.executions e he
    · exact (h.executions model hmodel).imp fun _ hplans => hplans.update
  | addAttempt | saveAttempt => exact ⟨h.executions, h.approvals, h.audits⟩
  | appendAudit hrecords =>
    refine ⟨h.executions, h.approvals, fun event hevent hnone => ?_⟩
    rcases Table.mem_of_mem_insert hevent with hevent | rfl
    · exact h.audits event hevent hnone
    · exact ⟨p, hrecords hnone⟩

theorem LedgerAttributed.empty : LedgerAttributed requests given .empty where
  executions _ h := absurd h Table.not_mem_empty
  approvals _ h := absurd h Table.not_mem_empty
  audits _ h := absurd h Table.not_mem_empty

theorem answered_start :
    (GatewayWorld requests).Answered given fun p => (requests p).vocabulary (given p) :=
  World.answered_start fun p => (requests p).program_answered (given p)

theorem Served.asks (h : Served requests w) {p : Pid} {q : Query} {a : q.Answer}
    (hlog : (p, .asked q a) ∈ w.log) : (requests p).Asks q :=
  (World.answered_of_reaches answered_start h fun _ _ _ hgiven => hgiven).log _ hlog

/-- The answers are those in the log. -/
theorem Served.attributed (h : Served requests w) : LedgerAttributed requests w.Given w.store :=
  (World.keeps_of_reaches (fun _ _ hwrite _ hs => hs.write hwrite) answered_start
    (World.keeps_start LedgerAttributed.empty) h fun _ _ _ hgiven => hgiven).store

theorem Served.auditsNamed (h : Served requests w) : AuditsNamed w.store :=
  LedgerStep.preserves AuditsNamed (fun _ _ hstep hs => hs.step hstep)
    (Contract.steps_of_reaches Served.start_good h)
    fun event (hevent : event ∈ Ledger.empty.audits) => absurd hevent Table.not_mem_empty

/-- An execution comes from a request that acts for its tenant under its request and trace. -/
theorem GatewayRequest.Plans.records {request : GatewayRequest} {given : Answers Gateway}
    {e : ToolExecutionFields} {event : AuditEventFields} (h : request.Plans given e)
    (hnames : AuditNames event e) : request.Records event := by
  obtain ⟨admitted, params, hadmits, h, -⟩ := h
  exact ⟨_, hadmits.acts, hnames.tenantId.trans h.tenantId, hnames.requestId.trans h.requestId,
    hnames.traceId.trans h.traceId⟩

/-- In every interleaving, each execution comes from a call that its server admitted and all
    that governs it let through, and records for whom, what and by which decision. Each approval
    comes from such a call that the policy wants approved, and each audit names a request that
    acts for its tenant. -/
theorem ledger_attributed (h : Served requests w) :
    (∀ e ∈ w.store.executions, ∃ p, (requests p).Plans (w.Given p) e.val) ∧
    (∀ a ∈ w.store.approvals, ∃ p, (requests p).Requests (w.Given p) a.val) ∧
    ∀ event ∈ w.store.audits, ∃ p, (requests p).Records event.val := by
  have hattributed := h.attributed
  refine ⟨hattributed.executions, hattributed.approvals, fun event hevent => ?_⟩
  by_cases hnone : event.val.executionId = none
  · exact hattributed.audits event hevent hnone
  · obtain ⟨e, he, hnames⟩ := h.auditsNamed event hevent hnone
    exact (hattributed.executions e he).imp fun _ hplans => hplans.records hnames

/-- In every interleaving, a request asks about its own call only. A call of the upstream has
    the arguments and the key of an admitted call, and the ledger holds its execution, which
    all that governs its own call let through. -/
theorem upstream_calls_accounted (h : Served requests w) {p : Pid} {q : Query} {a : q.Answer}
    (hlog : (p, .asked q a) ∈ w.log) :
    (requests p).Asks q ∧ ∀ request credential, q = .executeTool request credential →
      (∃ admitted params, (requests p).Admits admitted params ∧
        request.val.arguments = params.givenArguments ∧
        request.val.idempotencyKey = admitted.key) ∧
      ∃ e ∈ w.store.executions, e.val.id = request.val.executionId ∧
        e.val.toolVersionId = request.val.tool.toolVersionId ∧
        e.val.idempotencyKey = request.val.idempotencyKey ∧
        ∃ p', (requests p').Plans (w.Given p') e.val := by
  have hasks : (requests p).Asks q := h.asks hlog
  refine ⟨hasks, ?_⟩
  rintro request credential rfl
  constructor
  · rcases hasks with hq | hq | ⟨seconds, hq⟩ | ⟨admitted, params, hadmits, harguments, hkey⟩
    · cases hq
    · cases hq
    · cases hq
    · exact ⟨admitted, params, hadmits, harguments, hkey⟩
  · obtain ⟨s, hrecorded, hsteps⟩ := h.good.permitted p _ _ hlog
    obtain ⟨e, hfound, hversion, hkey⟩ := CallRecorded.steps hrecorded hsteps
    have he := Table.mem_of_find? hfound
    have hid := Table.key_of_find? hfound
    exact ⟨e, he, hid, hversion, hkey, h.attributed.executions e he⟩

end Runs

/-! ## A confirmed call -/

/-- A server for Alice whose calls are delivered without retries. -/
def confirmServer : McpServer where
  contextResolver ctx := .ok
    { raceContext "alice" with protocolVersion := ctx.protocolVersion, protocolEra := .modern }
  listVisibleTools _ := .ok []
  callTool := some
    { retryingCall with executor := askExecutor, requestApproval := some ⟨100⟩ }
  hasDecideApproval := true

theorem confirmServer_wired : ∀ service ∈ confirmServer.callTool, Wired service.executor := by
  intro service h
  cases h
  exact .direct

def confirmParams (requestState : Option String)
    (inputResponses : Option (List (String × InputResponse))) : CallToolRequestParams where
  name := "orders.update"
  inputResponses := inputResponses
  requestState := requestState
  metadata := some [("com.nexusmcp/idempotencyKey", .str "key")]

def confirmRequest (params : CallToolRequestParams) : GatewayRequest :=
  .call confirmServer confirmServer_wired { protocolVersion := "2026-07-28" } params

/-- Alice calls the tool, confirms the approval she is asked for and calls again with it. -/
def confirmRequests : Fin 3 → GatewayRequest
  | 0 => confirmRequest (confirmParams none none)
  | 1 => confirmRequest (confirmParams (some "approval")
      (some [("approval", .elicit .accept (some [("approved", .bool true)]))]))
  | 2 => confirmRequest (confirmParams (some "approval") none)

/-- The policy asks for an approval, and nothing else stands in the way. -/
def confirmAnswer (p : Fin 3) : (q : Query) → q.Answer
  | .newId => match p with
    | 0 => "approval"
    | 1 => "decision"
    | 2 => "execution"
  | .now => (1 : Nat)
  | .resolvePrincipal _ => .ok alice
  | .resolveTool _ _ => .ok (some raceRequest.val.tool)
  | .validateArguments _ _ => .ok ()
  | .evaluatePolicy _ => .ok ⟨.requireApproval, "policy", "approval"⟩
  | .validateEndpoint _ => .ok ()
  | q => someAnswer q

/-- The second call is overtaken by the third one once it has confirmed the approval. -/
def confirmSchedule : List (Fin 3) :=
  haveI : NeZero 3 := ⟨by decide⟩
  List.replicate 13 0 ++ List.replicate 13 1 ++ List.replicate 20 2

def confirmWorld : World Gateway (Fin 3) (fun p => (confirmRequests p).Result) :=
  (@GatewayWorld raceSha256 _ confirmRequests).follow confirmAnswer confirmSchedule

/-- The event hands an execution to the upstream. -/
def deliveredId? : Event Gateway → Option Id
  | .asked (.executeTool request _) _ => some request.val.executionId
  | _ => none

set_option maxRecDepth 100000 in
theorem confirmWorld_legal :
    World.Legal confirmAnswer (@GatewayWorld raceSha256 _ confirmRequests) confirmSchedule ∧
    confirmWorld.store.approvals.rows.map (·.val.status) = [.consumed] ∧
    confirmWorld.store.executions.rows.map (·.val.approvalId) = [some "approval"] ∧
    confirmWorld.log.filterMap (deliveredId? ·.2) = ["execution"] := by
  decide +kernel

theorem confirmWorld_served : @Served raceSha256 _ confirmRequests confirmWorld :=
  World.reaches_follow confirmWorld_legal.1

theorem ledger_attributed_confirmed :
    confirmWorld.store.executions.rows.map (·.val.approvalId) = [some "approval"] ∧
    (∀ e ∈ confirmWorld.store.executions, ∃ p, @GatewayRequest.Plans raceSha256
      (confirmRequests p) (confirmWorld.Given p) e.val) ∧
    (∀ a ∈ confirmWorld.store.approvals, ∃ p, @GatewayRequest.Requests raceSha256
      (confirmRequests p) (confirmWorld.Given p) a.val) ∧
    ∀ event ∈ confirmWorld.store.audits, ∃ p, (confirmRequests p).Records event.val :=
  ⟨confirmWorld_legal.2.2.1, @ledger_attributed raceSha256 _ _ _ confirmWorld_served⟩

theorem exists_delivery : ∃ p request credential a,
    (p, .asked (.executeTool request credential) a) ∈ confirmWorld.log := by
  have hmem : "execution" ∈ confirmWorld.log.filterMap (deliveredId? ·.2) := by
    rw [confirmWorld_legal.2.2.2]
    exact List.mem_singleton_self _
  obtain ⟨⟨p, ev⟩, hlog, hev⟩ := List.mem_filterMap.1 hmem
  revert hlog hev
  fun_cases deliveredId? ev with
  | case1 request credential a => exact fun hlog _ => ⟨p, request, credential, a, hlog⟩
  | case2 =>
    intro _ hev
    cases hev

theorem upstream_calls_accounted_confirmed :
    ∃ p request credential, @GatewayRequest.Asks raceSha256 (confirmRequests p)
        (.executeTool request credential) ∧
      ∃ e ∈ confirmWorld.store.executions, e.val.id = request.val.executionId := by
  obtain ⟨p, request, credential, a, hlog⟩ := exists_delivery
  obtain ⟨hasks, hcalls⟩ := @upstream_calls_accounted raceSha256 _ _ _ confirmWorld_served _ _ _
    hlog
  obtain ⟨-, e, he, hid, -⟩ := hcalls request credential rfl
  exact ⟨p, request, credential, hasks, e, he, hid⟩

end NexusMcp
