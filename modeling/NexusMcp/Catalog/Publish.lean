-- SUMMARY: Submitting a version for review, and the publication that retires the one before it.
import NexusMcp.Catalog.Store

/-! # Publishing Tools -/

namespace NexusMcp

open CatalogM (lift orRaise)

/-! ## Submitting for review -/

structure SubmitToolVersionForReviewCommand where
  context : ActorContext
  toolVersionId : Id

/-- `SubmitToolVersionForReview.execute`, with what its clock returns. -/
def SubmitToolVersionForReview.execute (now : Time) (command : SubmitToolVersionForReviewCommand) :
    CatalogM Unit := do
  let tenantId := command.context.tenantId
  let version ← orRaise (← getVersionForUpdate tenantId command.toolVersionId)
    (.nexus .toolVersionNotFound
      ("tool version " ++ command.toolVersionId ++ " was not found in tenant"))
  CatalogM.raiseIf (version.val.status ≠ .draft)
    (.nexus .invalidToolState ("tool version " ++ version.val.id ++ " must be draft before review"))
  saveVersion tenantId (← lift (version.submitForReview now))

/-! ## Publishing -/

structure PublishToolCommand where
  context : ActorContext
  toolId : Id
  toolVersionId : Id
  expectedSchemaDigest : String
  expectedBindingDigest : String

structure ToolPublished where
  tenantId : Id
  toolId : Id
  toolVersionId : Id
  toolBindingId : Id
  canonicalName : String
  version : Nat
  actorId : String
  requestId : String
  traceId : String
  occurredAt : Time

structure PublishToolResult where
  event : ToolPublished
  retiredToolVersionId : Option Id

namespace PublishTool

/-- `_validate_publish_snapshot`. -/
def validatePublishSnapshot [Sha256] (command : PublishToolCommand) (tool : Tool)
    (version : ToolVersion) (binding : ToolBinding) (upstream : UpstreamService) :
    Except Exc Unit := do
  raiseIf (∃ tenantId ∈ [tool.val.tenantId, version.val.tenantId, binding.val.tenantId,
      upstream.val.tenantId], tenantId ≠ command.context.tenantId)
    (.nexus .tenantBoundaryViolation "publish aggregate crossed tenant boundary")
  raiseIf (version.val.toolId ≠ tool.val.id ∨ binding.val.toolVersionId ≠ version.val.id)
    (.nexus .invalidToolState "publish aggregate references do not match")
  raiseIf (version.val.status ≠ .review)
    (.nexus .invalidToolState
      ("tool version " ++ version.val.id ++ " must be review before publish"))
  raiseIf (binding.val.status ≠ .draft)
    (.nexus .invalidToolState ("tool binding " ++ binding.val.id ++ " must be draft before publish"))
  raiseIf (upstream.val.status ≠ .active)
    (.nexus .upstreamNotActive ("upstream " ++ upstream.val.id ++ " is not active"))
  let calculatedSchemaDigest ← calculateSchemaDigest version.val.inputSchema
    version.val.outputSchema
  raiseIf (calculatedSchemaDigest ≠ version.val.schemaDigest ∨
      command.expectedSchemaDigest ≠ version.val.schemaDigest)
    (.nexus .schemaDigestMismatch ("tool version " ++ version.val.id ++ " schema digest changed"))
  let calculatedBindingDigest ← calculateBindingDigest binding.val
  raiseIf (calculatedBindingDigest ≠ binding.val.bindingDigest ∨
      command.expectedBindingDigest ≠ binding.val.bindingDigest)
    (.nexus .bindingDigestMismatch ("tool binding " ++ binding.val.id ++ " digest changed"))

/-- Retire the version that is published now, with its binding. -/
def retireVersion (tenantId : Id) (current targetVersion : ToolVersion) (retiredAt : Time) :
    CatalogM Id := do
  CatalogM.raiseIf (current.val.version ≥ targetVersion.val.version)
    (.nexus .publishConflict "target version must be newer than the current published version")
  let lockedCurrent ← orRaise
    ((← getVersionForUpdate tenantId current.val.id).filter (·.val.status = .published))
    (.nexus .publishConflict "current published version changed during publish")
  let currentBinding ← orRaise (← getBindingByToolVersionForUpdate tenantId lockedCurrent.val.id)
    (.nexus .toolBindingNotFound
      ("published binding for version " ++ lockedCurrent.val.id ++ " was not found"))
  CatalogM.raiseIf (currentBinding.val.status ≠ .published)
    (.nexus .invalidToolState "current published version binding is not published")
  -- the partial unique index is free again before the next version is published
  saveVersion tenantId (← lift (lockedCurrent.retire retiredAt))
  saveBinding tenantId (← lift currentBinding.disable)
  return lockedCurrent.val.id

/-- `_retire_current_version`. -/
def retireCurrentVersion (tenantId : Id) (tool : Tool) (targetVersion : ToolVersion)
    (retiredAt : Time) : CatalogM (Option Id) := do
  match ← getPublishedVersion tenantId tool.val.id with
  | none => return none
  | some current => return some (← retireVersion tenantId current targetVersion retiredAt)

end PublishTool

/-- `publish_tool_in_transaction`. -/
def publishToolInTransaction [Sha256] (command : PublishToolCommand) (publishedAt : Time) :
    CatalogM PublishToolResult := do
  let tenantId := command.context.tenantId
  let tool ← orRaise (← getToolForUpdate tenantId command.toolId)
    (.nexus .toolNotFound ("tool " ++ command.toolId ++ " was not found in tenant"))
  let version ← orRaise (← getVersionForUpdate tenantId command.toolVersionId)
    (.nexus .toolVersionNotFound
      ("tool version " ++ command.toolVersionId ++ " was not found in tenant"))
  let binding ← orRaise (← getBindingByToolVersionForUpdate tenantId version.val.id)
    (.nexus .toolBindingNotFound
      ("binding for tool version " ++ version.val.id ++ " was not found in tenant"))
  let upstream ← orRaise (← getUpstreamForUpdate tenantId binding.val.upstreamServiceId)
    (.nexus .tenantBoundaryViolation "binding upstream was not found in the requested tenant")
  lift (PublishTool.validatePublishSnapshot command tool version binding upstream)
  let retiredVersionId ← PublishTool.retireCurrentVersion tenantId tool version publishedAt
  saveVersion tenantId (← lift (version.publish publishedAt))
  saveBinding tenantId (← lift (binding.publish publishedAt))
  saveTool tenantId (← lift tool.activate)
  return {
    event := {
      tenantId := tenantId
      toolId := tool.val.id
      toolVersionId := version.val.id
      toolBindingId := binding.val.id
      canonicalName := tool.val.canonicalName
      version := version.val.version
      actorId := command.context.principalId
      requestId := command.context.requestId
      traceId := command.context.traceId
      occurredAt := publishedAt }
    retiredToolVersionId := retiredVersionId }

end NexusMcp
