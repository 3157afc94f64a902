-- SUMMARY: Tools and tool versions, with their transitions, and the projection that discovery reads.
import NexusMcp.Shared.Json

/-! # The Tool Catalog -/

namespace NexusMcp

/-! ## Enumerations -/

inductive ToolVisibility where
  | public_
  | authenticated
  | restricted
deriving Repr, DecidableEq

inductive ToolSideEffect where
  | readOnly
  | idempotentWrite
  | nonIdempotentWrite
  | unknown
deriving Repr, DecidableEq

def ToolSideEffect.value : ToolSideEffect → String
  | readOnly => "read_only"
  | idempotentWrite => "idempotent_write"
  | nonIdempotentWrite => "non_idempotent_write"
  | unknown => "unknown"

inductive ToolBindingType where
  | http
  | remoteMcp
deriving Repr, DecidableEq

inductive ToolStatus where
  | active
  | disabled
deriving Repr, DecidableEq

inductive ToolVersionStatus where
  | draft
  | review
  | published
  | retired
deriving Repr, DecidableEq

def ToolVersionStatus.value : ToolVersionStatus → String
  | draft => "draft"
  | review => "review"
  | published => "published"
  | retired => "retired"

/-- `ANONYMOUS_PRINCIPAL_ID`. -/
def anonymousPrincipalId : String := "anonymous"

/-- `is_reserved_tool_namespace`. -/
def isReservedToolNamespace (namespaceName : String) : Bool := namespaceName = "nexus"

/-! ## Tools -/

/-- The identity of a tool, which its versions share. -/
structure ToolFields where
  id : Id
  tenantId : Id
  namespaceName : String
  canonicalName : String
  owner : String
  status : ToolStatus := .active
deriving Repr, DecidableEq

instance : PostInit ToolFields where
  checks t := [
    nonBlank "tool id" t.id,
    nonBlank "tenant id" t.tenantId,
    nonBlank "tool namespace" t.namespaceName,
    nonBlank "tool canonical name" t.canonicalName,
    nonBlank "tool owner" t.owner,
    (! (t.namespaceName ++ ".").toList.isPrefixOf t.canonicalName.toList,
      "tool canonical name must start with its namespace"),
    (isReservedToolNamespace t.namespaceName, "tool namespace is reserved by NexusMCP")]

abbrev Tool := Checked ToolFields

namespace Tool

def activate (self : Tool) : Except Exc Tool :=
  if self.val.status = .active then .ok self else construct { self.val with status := .active }

def disable (self : Tool) : Except Exc Tool :=
  if self.val.status = .disabled then .ok self
  else construct { self.val with status := .disabled }

end Tool

/-! ## Tool versions -/

/-- `_validate_input_schema` rejects the schema. -/
def isNotObjectSchema (inputSchema : JsonObject) : Bool :=
  match inputSchema.get "type" with
  | some (.str type) => type ≠ "object"
  | _ => true

structure ToolVersionFields where
  id : Id
  tenantId : Id
  toolId : Id
  version : Nat
  displayName : String
  description : String
  inputSchema : JsonObject
  outputSchema : Option JsonObject
  schemaDigest : String
  tags : List String
  sideEffect : ToolSideEffect
  visibility : ToolVisibility
  status : ToolVersionStatus
  createdBy : String
  createdAt : Time
  reviewedAt : Option Time := none
  publishedAt : Option Time := none
  retiredAt : Option Time := none
deriving Repr

instance : PostInit ToolVersionFields where
  checks v := [
    nonBlank "tool version id" v.id,
    nonBlank "tenant id" v.tenantId,
    nonBlank "tool id" v.toolId,
    nonBlank "tool display name" v.displayName,
    nonBlank "schema digest" v.schemaDigest,
    nonBlank "tool version creator" v.createdBy,
    (v.version < 1, "tool version must be positive"),
    (isNotObjectSchema v.inputSchema, "tool input schema root type must be object"),
    (v.status ∈ [.review, .published, .retired] ∧ v.reviewedAt = none,
      "review tool version must have reviewed_at"),
    (v.status ∈ [.published, .retired] ∧ v.publishedAt = none,
      "published tool version must have published_at"),
    (v.status = .retired ∧ v.retiredAt = none, "retired tool version must have retired_at")]

abbrev ToolVersion := Checked ToolVersionFields

namespace ToolVersion

def submitForReview (self : ToolVersion) (reviewedAt : Time) : Except Exc ToolVersion := do
  valueErrorIf (self.val.status ≠ .draft) "only draft tool version can be submitted for review"
  construct { self.val with status := .review, reviewedAt := some reviewedAt }

def publish (self : ToolVersion) (publishedAt : Time) : Except Exc ToolVersion := do
  valueErrorIf (self.val.status ≠ .review) "only review tool version can be published"
  construct { self.val with status := .published, publishedAt := some publishedAt }

def retire (self : ToolVersion) (retiredAt : Time) : Except Exc ToolVersion := do
  valueErrorIf (self.val.status ≠ .published) "only published tool version can be retired"
  construct { self.val with status := .retired, retiredAt := some retiredAt }

end ToolVersion

/-! ## Published tools -/

structure PublishedToolFields where
  toolId : Id
  toolVersionId : Id
  tenantId : Id
  canonicalName : String
  displayName : String
  description : String
  inputSchema : JsonObject
  outputSchema : Option JsonObject
  version : Nat
  visibility : ToolVisibility
  sideEffect : ToolSideEffect
  schemaDigest : String
  owner : Option String := none
  tags : List String := []
deriving Repr

instance : PostInit PublishedToolFields where
  checks t := [
    nonBlank "tool id" t.toolId,
    nonBlank "tool version id" t.toolVersionId,
    nonBlank "tenant id" t.tenantId,
    nonBlank "tool canonical name" t.canonicalName,
    nonBlank "tool display name" t.displayName,
    nonBlank "schema digest" t.schemaDigest,
    (t.version < 1, "tool version must be positive"),
    (isNotObjectSchema t.inputSchema, "tool input schema root type must be object")]

abbrev PublishedTool := Checked PublishedToolFields

def PublishedTool.isVisibleTo (self : PublishedTool) (principalId : String) : Bool :=
  match self.val.visibility with
  | .public_ => true
  | .authenticated => principalId ≠ anonymousPrincipalId
  | .restricted => false

/-- `namespace`. -/
def PublishedTool.namespaceName (self : PublishedTool) : String :=
  String.ofList (self.val.canonicalName.toList.takeWhile (· ≠ '.'))

/-- The fields that `published_tool_from_models` projects. -/
def publishedFields (tool : Tool) (version : ToolVersion) : PublishedToolFields where
  toolId := tool.val.id
  toolVersionId := version.val.id
  tenantId := tool.val.tenantId
  canonicalName := tool.val.canonicalName
  displayName := version.val.displayName
  description := version.val.description
  inputSchema := version.val.inputSchema
  outputSchema := version.val.outputSchema
  version := version.val.version
  visibility := version.val.visibility
  sideEffect := version.val.sideEffect
  schemaDigest := version.val.schemaDigest
  owner := some tool.val.owner
  tags := version.val.tags

/-- What the checks of a tool and of a version say is all that the projection checks. -/
theorem publishedFields_valid (tool : Tool) (version : ToolVersion) :
    Valid (publishedFields tool version) := by
  have ht := tool.property
  have hv := version.property
  simp only [Valid, PostInit.checks, nonBlank, List.forall_mem_cons, List.not_mem_nil,
    false_implies, implies_true, and_true] at ht hv ⊢
  exact ⟨ht.1, hv.1, ht.2.1, ht.2.2.2.1, hv.2.2.2.1, hv.2.2.2.2.1, hv.2.2.2.2.2.2.1,
    hv.2.2.2.2.2.2.2.1⟩

/-- `published_tool_from_models`. -/
def publishedToolFromModels (tool : Tool) (version : ToolVersion) : PublishedTool :=
  ⟨publishedFields tool version, publishedFields_valid tool version⟩

/-! ## Digests -/

/-- `calculate_schema_digest`. -/
def calculateSchemaDigest [Sha256] (inputSchema : JsonObject) (outputSchema : Option JsonObject) :
    Except Exc String :=
  canonicalJsonDigest (.obj [("input_schema", .obj inputSchema),
    ("output_schema", (outputSchema.map Json.obj).getD .null)])

end NexusMcp
