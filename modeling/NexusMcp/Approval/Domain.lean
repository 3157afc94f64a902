-- SUMMARY: The approval request: a time-limited permission for one call, consumed at most once.
import NexusMcp.Shared.Errors

/-! # Approval Requests -/

namespace NexusMcp

inductive ApprovalStatus where
  | pending
  | approved
  | rejected
  | expired
  | consumed
deriving Repr, DecidableEq

/-- The status in messages. -/
def ApprovalStatus.value : ApprovalStatus → String
  | pending => "pending"
  | approved => "approved"
  | rejected => "rejected"
  | expired => "expired"
  | consumed => "consumed"

structure ApprovalFields where
  id : Id
  tenantId : Id
  principalId : String
  toolId : Id
  toolVersionId : Id
  argumentsDigest : String
  policyVersion : String
  status : ApprovalStatus
  requestedAt : Time
  expiresAt : Time
  idempotencyKey : Option String := none
  decidedBy : Option String := none
  decidedAt : Option Time := none
  consumedAt : Option Time := none
deriving Repr, DecidableEq

instance : PostInit ApprovalFields where
  checks a := [
    nonBlank "approval id" a.id,
    nonBlank "tenant id" a.tenantId,
    nonBlank "principal id" a.principalId,
    nonBlank "tool id" a.toolId,
    nonBlank "tool version id" a.toolVersionId,
    nonBlank "arguments digest" a.argumentsDigest,
    nonBlank "policy version" a.policyVersion,
    (a.expiresAt ≤ a.requestedAt, "approval expires_at must be after requested_at"),
    (a.idempotencyKey.any isBlank, "approval idempotency key must not be blank"),
    (a.status = .pending ∧
      (a.decidedBy.isSome ∨ a.decidedAt.isSome ∨ a.consumedAt.isSome),
      "pending approval must not contain decision state"),
    ((a.status = .approved ∨ a.status = .rejected) ∧
      (a.decidedBy.isNone ∨ a.decidedAt.isNone),
      "decided approval must contain approver and decision time"),
    (a.status = .expired ∧ (a.decidedBy.isNone ∨ a.decidedAt.isNone),
      "expired approval must contain decision state"),
    (a.status ≠ .consumed ∧ a.consumedAt.isSome, "only consumed approval may contain consumed_at"),
    (a.status = .consumed ∧
      (a.decidedBy.isNone ∨ a.decidedAt.isNone ∨ a.consumedAt.isNone),
      "consumed approval must contain decision and consume state")]

abbrev ApprovalRequest := Checked ApprovalFields

namespace ApprovalRequest

/-! ## Transitions -/

def requirePending (approval : ApprovalRequest) (decidedAt : Time) : Except Exc Unit := do
  valueErrorIf (approval.val.status ≠ .pending) "only pending approval can be decided"
  valueErrorIf (approval.val.expiresAt ≤ decidedAt) "expired approval cannot be decided"

def approve (approval : ApprovalRequest) (approverId : String) (decidedAt : Time) :
    Except Exc ApprovalRequest := do
  valueErrorIf (isBlank approverId) "approval approver id must not be blank"
  approval.requirePending decidedAt
  construct { approval.val with
    status := .approved
    decidedBy := some approverId
    decidedAt := some decidedAt }

def reject (approval : ApprovalRequest) (approverId : String) (decidedAt : Time) :
    Except Exc ApprovalRequest := do
  valueErrorIf (isBlank approverId) "approval approver id must not be blank"
  approval.requirePending decidedAt
  construct { approval.val with
    status := .rejected
    decidedBy := some approverId
    decidedAt := some decidedAt }

def expire (approval : ApprovalRequest) (expiredAt : Time) : Except Exc ApprovalRequest := do
  valueErrorIf (approval.val.status ≠ .pending ∧ approval.val.status ≠ .approved)
    "only pending or approved approval can expire"
  valueErrorIf (expiredAt < approval.val.expiresAt) "approval cannot expire before expires_at"
  if approval.val.status = .approved then
    construct { approval.val with status := .expired }
  else
    construct { approval.val with
      status := .expired
      decidedBy := some "system"
      decidedAt := some expiredAt }

def consume (approval : ApprovalRequest) (principalId : String) (toolVersionId : Id)
    (argumentsDigest policyVersion : String) (idempotencyKey : Option String)
    (consumedAt : Time) : Except Exc ApprovalRequest := do
  valueErrorIf (approval.val.status ≠ .approved) "only approved approval can be consumed"
  valueErrorIf (approval.val.expiresAt ≤ consumedAt) "expired approval cannot be consumed"
  valueErrorIf (principalId ≠ approval.val.principalId)
    "approval principal does not match call principal"
  valueErrorIf (toolVersionId ≠ approval.val.toolVersionId)
    "approval tool version does not match call version"
  valueErrorIf (argumentsDigest ≠ approval.val.argumentsDigest)
    "approval arguments digest does not match call arguments"
  valueErrorIf (policyVersion ≠ approval.val.policyVersion)
    "approval policy version does not match current policy"
  valueErrorIf (idempotencyKey ≠ approval.val.idempotencyKey)
    "approval idempotency key does not match call"
  construct { approval.val with status := .consumed, consumedAt := some consumedAt }

/-! ## What a transition does -/

theorem approve_eq_ok {a b : ApprovalRequest} {approverId : String} {t : Time} :
    a.approve approverId t = .ok b ↔
      isBlank approverId = false ∧ a.val.status = .pending ∧ t < a.val.expiresAt ∧
      b.val = { a.val with
        status := .approved, decidedBy := some approverId, decidedAt := some t } := by
  simp [approve, requirePending, bind_eq_ok]

theorem reject_eq_ok {a b : ApprovalRequest} {approverId : String} {t : Time} :
    a.reject approverId t = .ok b ↔
      isBlank approverId = false ∧ a.val.status = .pending ∧ t < a.val.expiresAt ∧
      b.val = { a.val with
        status := .rejected, decidedBy := some approverId, decidedAt := some t } := by
  simp [reject, requirePending, bind_eq_ok]

theorem expire_eq_ok {a b : ApprovalRequest} {t : Time} :
    a.expire t = .ok b ↔
      (a.val.status = .pending ∨ a.val.status = .approved) ∧ a.val.expiresAt ≤ t ∧
      b.val = if a.val.status = .approved then { a.val with status := .expired }
        else { a.val with
          status := .expired, decidedBy := some "system", decidedAt := some t } := by
  unfold expire
  split <;> simp_all

theorem consume_eq_ok {a b : ApprovalRequest} {principalId : String} {toolVersionId : Id}
    {argumentsDigest policyVersion : String} {idempotencyKey : Option String} {t : Time} :
    a.consume principalId toolVersionId argumentsDigest policyVersion idempotencyKey t = .ok b ↔
      a.val.status = .approved ∧ t < a.val.expiresAt ∧ principalId = a.val.principalId ∧
      toolVersionId = a.val.toolVersionId ∧ argumentsDigest = a.val.argumentsDigest ∧
      policyVersion = a.val.policyVersion ∧ idempotencyKey = a.val.idempotencyKey ∧
      b.val = { a.val with status := .consumed, consumedAt := some t } := by
  simp [consume]

/-- An approved request is still well formed once it is consumed. -/
theorem valid_consumed {a : ApprovalRequest} (h : a.val.status = .approved) (t : Time) :
    Valid { a.val with status := .consumed, consumedAt := some t } := by
  have ha := a.property
  simp_all [Valid, PostInit.checks]

/-- An approved request is still well formed once it is expired. -/
theorem valid_expired {a : ApprovalRequest} (h : a.val.status = .approved) :
    Valid { a.val with status := .expired } := by
  have ha := a.property
  simp_all [Valid, PostInit.checks]

end ApprovalRequest

end NexusMcp
