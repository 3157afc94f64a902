-- SUMMARY: Tool bindings: the execution configuration of one tool version, with its digest.
import NexusMcp.Catalog.Domain

/-! # Tool Bindings -/

namespace NexusMcp

inductive ToolBindingStatus where
  | draft
  | published
  | disabled
deriving Repr, DecidableEq

def ToolBindingType.value : ToolBindingType → String
  | http => "http"
  | remoteMcp => "remote_mcp"

structure ToolBindingFields where
  id : Id
  tenantId : Id
  toolVersionId : Id
  upstreamServiceId : Id
  importedOperationId : Option Id
  bindingType : ToolBindingType
  bindingConfig : JsonObject
  bindingDigest : String
  status : ToolBindingStatus
  createdAt : Time
  publishedAt : Option Time := none
deriving Repr

instance : PostInit ToolBindingFields where
  checks b := [
    nonBlank "tool binding id" b.id,
    nonBlank "tenant id" b.tenantId,
    nonBlank "tool version id" b.toolVersionId,
    nonBlank "upstream service id" b.upstreamServiceId,
    nonBlank "binding digest" b.bindingDigest,
    (b.status = .published ∧ b.publishedAt = none,
      "published tool binding must have published_at")]

abbrev ToolBinding := Checked ToolBindingFields

namespace ToolBinding

def publish (self : ToolBinding) (publishedAt : Time) : Except Exc ToolBinding := do
  valueErrorIf (self.val.status ≠ .draft) "only draft tool binding can be published"
  construct { self.val with status := .published, publishedAt := some publishedAt }

def disable (self : ToolBinding) : Except Exc ToolBinding := do
  valueErrorIf (self.val.status ≠ .published) "only published tool binding can be disabled"
  construct { self.val with status := .disabled }

end ToolBinding

/-- `calculate_binding_digest`. -/
def calculateBindingDigest [Sha256] (binding : ToolBindingFields) : Except Exc String :=
  canonicalJsonDigest (.obj [("binding_type", .str binding.bindingType.value),
    ("upstream_service_id", .str binding.upstreamServiceId),
    ("binding_config", .obj binding.bindingConfig)])

end NexusMcp
