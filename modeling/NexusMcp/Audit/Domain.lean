-- SUMMARY: Audit events and the scope evidence recorded in their metadata.
import NexusMcp.Shared.Errors

/-! # Audit Events -/

namespace NexusMcp

inductive AuditAction where
  | toolCall
  | approvalDecision
  | credentialResolution
deriving Repr, DecidableEq

inductive AuditOutcome where
  | allowed
  | denied
  | approvalRequired
  | succeeded
  | failed
  | unknown
  | cancelled
deriving Repr, DecidableEq

/-- A metadata value, of the kinds the application records. -/
inductive AuditMetadataValue where
  | str (s : String)
  | int (i : Int)
deriving Repr, DecidableEq

abbrev AuditMetadata := List (String × AuditMetadataValue)

structure AuditEventFields where
  id : Id
  tenantId : Id
  actorId : String
  action : AuditAction
  resourceType : String
  resourceId : String
  outcome : AuditOutcome
  requestId : String
  traceId : String
  occurredAt : Time
  argumentsDigest : Option String := none
  policyVersion : Option String := none
  reasonCode : Option String := none
  executionId : Option Id := none
  metadata : Option AuditMetadata := none
deriving Repr, DecidableEq

/-- The metadata keys an event must not carry. -/
def sensitiveKeys : List String :=
  ["api_key", "arguments", "authorization", "cookie", "password", "result", "secret", "token"]

/-- `key.strip().lower().replace("-", "_")`. -/
def normalizeMetadataKey (key : String) : String :=
  let stripped := ((key.toList.dropWhile isSpace).reverse.dropWhile isSpace).reverse
  String.ofList (stripped.map fun c => if c = '-' then '_' else c.toLower)

instance : PostInit AuditEventFields where
  checks e := [
    nonBlank "audit id" e.id,
    nonBlank "tenant id" e.tenantId,
    nonBlank "actor id" e.actorId,
    nonBlank "resource type" e.resourceType,
    nonBlank "resource id" e.resourceId,
    nonBlank "request id" e.requestId,
    nonBlank "trace id" e.traceId,
    ((e.metadata.getD []).any (fun m => normalizeMetadataKey m.1 ∈ sensitiveKeys),
      "audit metadata must not contain sensitive fields")]

abbrev AuditEvent := Checked AuditEventFields

/-! ## Scope evidence -/

structure McpScopeAuditEvidenceFields where
  scopeType : String
  toolsetId : Option Id := none
  toolsetRevision : Option Int := none
  toolsetSlug : Option String := none
deriving Repr, DecidableEq

instance : PostInit McpScopeAuditEvidenceFields where
  checks e := [
    (e.scopeType ≠ "root" ∧ e.scopeType ≠ "toolset", "audit MCP scope type was invalid"),
    (e.scopeType = "root" ∧
      (e.toolsetId.isSome ∨ e.toolsetRevision.isSome ∨ e.toolsetSlug.isSome),
      "root audit scope must not contain toolset context"),
    (e.toolsetId.isNone ≠ e.toolsetRevision.isNone,
      "audit toolset id and revision must appear together"),
    (e.toolsetRevision.any (· ≤ 0), "audit toolset revision must be positive")]

abbrev McpScopeAuditEvidence := Checked McpScopeAuditEvidenceFields

/-- `metadata(denial_reason_code=...)`; an empty reason counts as none. -/
def McpScopeAuditEvidence.metadata (evidence : McpScopeAuditEvidence)
    (denialReasonCode : Option String := none) : AuditMetadata :=
  let e := evidence.val
  let scopeReason :=
    if e.scopeType = "toolset" then "active_toolset_grant" else "granted_toolset_union"
  [("mcp_scope_type", .str e.scopeType),
    ("scope_reason_code", .str
      (match denialReasonCode with
        | some reason => if reason = "" then scopeReason else reason
        | none => scopeReason))]
  ++ (e.toolsetId.map fun id => ("toolset_id", AuditMetadataValue.str id)).toList
  ++ (e.toolsetRevision.map fun r => ("toolset_revision", AuditMetadataValue.int r)).toList
  ++ (e.toolsetSlug.map fun slug => ("toolset_slug", AuditMetadataValue.str slug)).toList

/-- The keys the application records. -/
def recordedKeys : List String :=
  ["side_effect", "execution_status", "attempt_count", "mcp_scope_type", "scope_reason_code",
    "toolset_id", "toolset_revision", "toolset_slug"]

theorem not_sensitive_of_recorded : ∀ key ∈ recordedKeys, normalizeMetadataKey key ∉ sensitiveKeys := by
  decide

theorem McpScopeAuditEvidence.key_mem {evidence : McpScopeAuditEvidence}
    {denialReasonCode : Option String} {entry : String × AuditMetadataValue}
    (h : entry ∈ evidence.metadata denialReasonCode) : entry.1 ∈ recordedKeys := by
  simp only [metadata, List.mem_append, List.mem_cons, List.not_mem_nil, or_false,
    Option.mem_toList, Option.map_eq_some_iff] at h
  rcases h with (((rfl | rfl) | ⟨_, _, rfl⟩) | ⟨_, _, rfl⟩) | ⟨_, _, rfl⟩ <;> simp [recordedKeys]

end NexusMcp
