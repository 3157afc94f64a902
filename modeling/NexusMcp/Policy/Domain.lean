-- SUMMARY: Principals, tool policies, and the input and outcome of a policy evaluation.
import NexusMcp.Catalog.Domain

/-! # Principals and Policy Decisions -/

namespace NexusMcp

inductive PrincipalType where
  | agentService
  | anonymous
deriving Repr, DecidableEq

structure InternalPrincipalFields where
  id : String
  tenantId : Id
  principalType : PrincipalType
  authnMethod : String
deriving Repr, DecidableEq

instance : PostInit InternalPrincipalFields where
  checks p := [
    nonBlank "principal id" p.id,
    nonBlank "principal tenant id" p.tenantId,
    nonBlank "principal authentication method" p.authnMethod]

abbrev InternalPrincipal := Checked InternalPrincipalFields

inductive ToolAction where
  | call
deriving Repr, DecidableEq

inductive PolicyEffect where
  | allow
  | deny
  | requireApproval
deriving Repr, DecidableEq

inductive PolicySubjectType where
  | principal
  | tenant
deriving Repr, DecidableEq

inductive ToolPolicyStatus where
  | active
  | disabled
deriving Repr, DecidableEq

structure ToolPolicyFields where
  id : String
  tenantId : Id
  subjectType : PolicySubjectType
  subjectId : Option String
  toolId : Option Id
  action : ToolAction
  effect : PolicyEffect
  priority : Int
  version : String
  reasonCode : String
  status : ToolPolicyStatus := .active
deriving Repr, DecidableEq

instance : PostInit ToolPolicyFields where
  checks p := [
    (p.subjectType = .tenant ∧ p.subjectId.isSome,
      "tenant policy subject must not declare subject id"),
    (p.subjectType ≠ .tenant ∧ p.subjectId.getD "" = "",
      "principal policy subject must declare subject id"),
    (isBlank p.version ∨ isBlank p.reasonCode,
      "policy version and reason code must not be blank")]

abbrev ToolPolicy := Checked ToolPolicyFields

structure PolicyEvaluationInputFields where
  tenantId : Id
  principal : InternalPrincipal
  toolId : Id
  toolVersionId : Id
  action : ToolAction
  sideEffect : ToolSideEffect
  argumentsDigest : String
deriving Repr, DecidableEq

instance : PostInit PolicyEvaluationInputFields where
  checks i := [(i.principal.val.tenantId ≠ i.tenantId,
    "policy input principal crossed tenant boundary")]

abbrev PolicyEvaluationInput := Checked PolicyEvaluationInputFields

structure PolicyDecision where
  effect : PolicyEffect
  policyVersion : String
  reasonCode : String
deriving Repr, DecidableEq

/-- `PolicyDecision.default_deny`. -/
def PolicyDecision.defaultDeny : PolicyDecision := ⟨.deny, "default", "default_deny"⟩

end NexusMcp
