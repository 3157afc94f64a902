-- SUMMARY: Requesting, deciding and consuming approvals, as programs over the ledger.
import NexusMcp.Execution.Store

/-! # Approval Use Cases -/

namespace NexusMcp

open Txn
open Prog (commit uow lift)

/-! ## Commands -/

structure RequestApprovalCommand where
  context : ActorContext
  principalId : String
  toolId : Id
  toolVersionId : Id
  argumentsDigest : String
  policyVersion : String
  idempotencyKey : Option String := none
  policyReasonCode : String := "approval_required"
  mcpScopeType : String := "root"
  toolsetId : Option Id := none
  toolsetRevision : Option Int := none
deriving DecidableEq

structure ConsumeApprovalCommand where
  context : ActorContext
  approvalId : Id
  principalId : String
  toolVersionId : Id
  argumentsDigest : String
  policyVersion : String
  idempotencyKey : Option String := none
deriving DecidableEq

structure DecideApprovalCommand where
  context : ActorContext
  approvalId : Id
  approved : Bool
deriving DecidableEq

/-! ## Requesting -/

/-- `ttl` is the `timedelta` the configured number of seconds is turned into. -/
structure RequestApproval where
  ttl : Time
deriving DecidableEq

def RequestApproval.execute (self : RequestApproval) (command : RequestApprovalCommand) :
    Program ApprovalRequest := do
  let now ← now
  let id ← newId
  let approval : ApprovalRequest ← lift <| construct
    { id := id
      tenantId := command.context.tenantId
      principalId := command.principalId
      toolId := command.toolId
      toolVersionId := command.toolVersionId
      argumentsDigest := command.argumentsDigest
      policyVersion := command.policyVersion
      status := .pending
      requestedAt := now
      expiresAt := now + self.ttl
      idempotencyKey := command.idempotencyKey }
  uow .requestApproval do
    Approvals.add .requestApproval command.context.tenantId approval
    let auditId ← newId
    let evidence : McpScopeAuditEvidence ← lift <| construct
      { scopeType := command.mcpScopeType
        toolsetId := command.toolsetId
        toolsetRevision := command.toolsetRevision }
    let event : AuditEvent ← lift <| construct
      { id := auditId
        tenantId := command.context.tenantId
        actorId := command.principalId
        action := .toolCall
        resourceType := "tool_version"
        resourceId := command.toolVersionId
        outcome := .approvalRequired
        requestId := command.context.requestId
        traceId := command.context.traceId
        occurredAt := now
        argumentsDigest := some command.argumentsDigest
        policyVersion := some command.policyVersion
        reasonCode := some command.policyReasonCode
        metadata := some evidence.metadata }
    Audits.append .requestApproval event
    commit .requestApproval
    return approval

/-! ## Deciding -/

/-- `_require_pending_decision`. -/
def requirePendingDecision (approval : ApprovalRequest) : Except Exc Unit :=
  match approval.val.status with
  | .pending => .ok ()
  | .expired => .error (.nexus .approvalExpired "expired approval cannot be decided")
  | status => .error (.nexus .approvalInvalidState (status.value ++ " approval cannot be decided"))

/-- The branch of `DecideApproval` for an approval that is past its expiry. -/
def expireUndecided (tenantId : Id) (approval : ApprovalRequest) (now : Time) :
    Program ApprovalRequest := do
  let expired ← lift (approval.expire now)
  Approvals.save .decideApproval tenantId expired
  commit .decideApproval
  throw (.nexus .approvalExpired "approval expired before decision")

def DecideApproval.execute (command : DecideApprovalCommand) : Program ApprovalRequest :=
  uow .decideApproval do
    let tenantId := command.context.tenantId
    let approval ← Approvals.getForUpdate .decideApproval tenantId command.approvalId
    let approval ← Prog.orRaise approval
      (.nexus .approvalNotFound "approval did not exist in tenant")
    lift (requirePendingDecision approval)
    let now ← now
    if approval.val.expiresAt ≤ now then
      expireUndecided tenantId approval now
    else
      let decided ← lift <|
        if command.approved then approval.approve command.context.principalId now
        else approval.reject command.context.principalId now
      Approvals.save .decideApproval tenantId decided
      let auditId ← newId
      let event : AuditEvent ← lift <| construct
        { id := auditId
          tenantId := tenantId
          actorId := command.context.principalId
          action := .approvalDecision
          resourceType := "approval"
          resourceId := approval.val.id
          outcome := if command.approved then .allowed else .denied
          requestId := command.context.requestId
          traceId := command.context.traceId
          occurredAt := now
          argumentsDigest := some approval.val.argumentsDigest
          policyVersion := some approval.val.policyVersion
          reasonCode := some (if command.approved then "approval_approved"
            else "approval_rejected") }
      Audits.append .decideApproval event
      commit .decideApproval
      return decided

/-! ## Consuming -/

/-- `_require_consumable_status`. -/
def requireConsumableStatus (approval : ApprovalRequest) : Except Exc Unit :=
  match approval.val.status with
  | .approved => .ok ()
  | .pending => .error (.nexus .approvalPending "approval was not decided")
  | .rejected => .error (.nexus .approvalRejected "approval was rejected")
  | .expired => .error (.nexus .approvalExpired "approval was expired")
  | .consumed => .error (.nexus .approvalAlreadyConsumed "approval was already consumed")

/-- `_require_matching_call`. -/
def requireMatchingCall (approval : ApprovalRequest) (command : ConsumeApprovalCommand) :
    Except Exc Unit := do
  raiseIf (approval.val.principalId ≠ command.principalId)
    (.nexus .approvalMismatch "approval principal did not match")
  raiseIf (approval.val.toolVersionId ≠ command.toolVersionId)
    (.nexus .approvalMismatch "approval tool version did not match")
  raiseIf (approval.val.argumentsDigest ≠ command.argumentsDigest)
    (.nexus .approvalMismatch "approval arguments digest did not match")
  raiseIf (approval.val.policyVersion ≠ command.policyVersion)
    (.nexus .approvalMismatch "approval policy version did not match")
  raiseIf (approval.val.idempotencyKey ≠ command.idempotencyKey)
    (.nexus .approvalMismatch "approval idempotency key did not match")

theorem requireConsumableStatus_eq_ok {a : ApprovalRequest} :
    requireConsumableStatus a = .ok () ↔ a.val.status = .approved := by
  unfold requireConsumableStatus
  cases a.val.status <;> simp

theorem requireMatchingCall_eq_ok {a : ApprovalRequest} {command : ConsumeApprovalCommand} :
    requireMatchingCall a command = .ok () ↔
      a.val.principalId = command.principalId ∧ a.val.toolVersionId = command.toolVersionId ∧
      a.val.argumentsDigest = command.argumentsDigest ∧
      a.val.policyVersion = command.policyVersion ∧
      a.val.idempotencyKey = command.idempotencyKey := by
  simp [requireMatchingCall]

theorem requireMatchingCall_error {a : ApprovalRequest} {command : ConsumeApprovalCommand}
    {x : Exc} (h : requireMatchingCall a command = .error x) :
    ∃ message, x = .nexus .approvalMismatch message := by
  simp only [requireMatchingCall, raiseIf_bind_eq_error, raiseIf_eq_error] at h
  rcases h with ⟨-, h⟩ | ⟨-, ⟨-, h⟩ | ⟨-, ⟨-, h⟩ | ⟨-, ⟨-, h⟩ | ⟨-, -, h⟩⟩⟩⟩ <;> exact ⟨_, h⟩

/-- After the checks, the transition itself cannot fail. -/
theorem consume_of_matching {a : ApprovalRequest} {command : ConsumeApprovalCommand} {t : Time}
    (hstatus : a.val.status = .approved) (htime : t < a.val.expiresAt)
    (hmatch : requireMatchingCall a command = .ok ()) :
    ∃ b, a.consume command.principalId command.toolVersionId command.argumentsDigest
      command.policyVersion command.idempotencyKey t = .ok b := by
  obtain ⟨h₁, h₂, h₃, h₄, h₅⟩ := requireMatchingCall_eq_ok.1 hmatch
  exact ⟨⟨_, ApprovalRequest.valid_consumed hstatus t⟩, ApprovalRequest.consume_eq_ok.2
    ⟨hstatus, htime, h₁.symm, h₂.symm, h₃.symm, h₄.symm, h₅.symm, rfl⟩⟩

/-- An approved request that is past its expiry can be expired. -/
theorem expire_of_late {a : ApprovalRequest} {t : Time} (hstatus : a.val.status = .approved)
    (htime : a.val.expiresAt ≤ t) : ∃ b, a.expire t = .ok b :=
  ⟨⟨_, ApprovalRequest.valid_expired hstatus⟩, ApprovalRequest.expire_eq_ok.2
    ⟨.inr hstatus, htime, by simp [hstatus]⟩⟩

/-- Lock and consume an approval inside the unit of work `u`, which is left to its
    caller to commit. -/
def consumeLockedApproval (u : UnitOfWork) (command : ConsumeApprovalCommand)
    (consumedAt : Time) : Program ApprovalRequest := do
  let tenantId := command.context.tenantId
  let approval ← Approvals.getForUpdate u tenantId command.approvalId
  let approval ← Prog.orRaise approval
    (.nexus .approvalNotFound "approval did not exist in tenant")
  lift (requireConsumableStatus approval)
  if approval.val.expiresAt ≤ consumedAt then
    let expired ← lift (approval.expire consumedAt)
    Approvals.save u tenantId expired
    throw (.nexus .approvalExpired "approval expired before consumption")
  else
    lift (requireMatchingCall approval command)
    let consumed ← lift <| approval.consume command.principalId command.toolVersionId
      command.argumentsDigest command.policyVersion command.idempotencyKey consumedAt
    Approvals.save u tenantId consumed
    return consumed

/-- `except ApprovalExpiredError: await unit_of_work.commit(); raise`. -/
def commitExpired {α : Type} (u : UnitOfWork) : Exc → Program α
  | .nexus .approvalExpired message => do
    commit u
    throw (.nexus .approvalExpired message)
  | e => throw e

def commitWhenExpired {α : Type} (u : UnitOfWork) (body : Program α) : Program α :=
  body.tryCatch (commitExpired u)

theorem commitExpired_of_ne {α : Type} {u : UnitOfWork} {e : Exc}
    (h : ∀ message, e ≠ .nexus .approvalExpired message) :
    (commitExpired u e : Program α) = .raise e := by
  unfold commitExpired
  split
  · exact absurd rfl (h _)
  · rfl

/-- It never returns, so nothing follows it. -/
theorem commitExpired_bind {α β : Type} (k : α → Program β) (u : UnitOfWork) (e : Exc) :
    (commitExpired u e).bind k = commitExpired u e := by
  unfold commitExpired
  split
  · simp only [Prog.bind_eq, Prog.bind_assoc]
    rfl
  · rfl

theorem commitWhenExpired_now {α : Type} (u : UnitOfWork) (body : Time → Program α) :
    commitWhenExpired u (now.bind body) = now.bind fun t => commitWhenExpired u (body t) :=
  rfl

def ConsumeApproval.execute (command : ConsumeApprovalCommand) : Program ApprovalRequest :=
  uow .consumeApproval do
    let consumed ← commitWhenExpired .consumeApproval do
      let now ← now
      consumeLockedApproval .consumeApproval command now
    commit .consumeApproval
    return consumed

end NexusMcp
