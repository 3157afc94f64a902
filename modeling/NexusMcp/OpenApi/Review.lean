-- SUMMARY: Reviewing an imported operation into drafts, and publishing it in the same transaction.
import NexusMcp.Catalog.Publish

/-! # Reviewing and Publishing Imported Operations -/

namespace NexusMcp

open CatalogM (lift orRaise)

/-! ## Review -/

structure ReviewImportedOperationCommand where
  context : ActorContext
  operationId : Id
  owner : String
  visibility : ToolVisibility := .public_
  reviewNotes : Option String := none

structure ReviewImportedOperationResult where
  operationId : Id
  toolId : Id
  toolVersionId : Id
  toolBindingId : Id
  canonicalName : String
  version : Nat
  schemaDigest : String
  bindingDigest : String

/-- What the identifier generator and the clock return to a review, by the object that
    each value is for. -/
structure ReviewEnv where
  toolId : Id
  versionId : Id
  bindingId : Id
  versionCreatedAt : Time
  bindingCreatedAt : Time

def invalidReviewState (message : String) : Exc := .nexus .invalidReviewState message

/-! ### Reading the normalized operation -/

/-- `_mapping`. -/
def mapping (value : Option Json) (fieldName : String) : Except Exc JsonObject :=
  match value with
  | some (.obj fields) => .ok fields
  | _ => .error (invalidReviewState ("normalized " ++ fieldName ++ " is invalid"))

/-- `_mapping` of a value that may be absent. -/
def optionalMapping (value : Option Json) (fieldName : String) : Except Exc (Option JsonObject) :=
  match value with
  | none => .ok none
  | some .null => .ok none
  | some value => (mapping (some value) fieldName).map some

def asObject : Json → Option JsonObject
  | .obj fields => some fields
  | _ => none

def asString : Json → Option String
  | .str s => some s
  | _ => none

/-- `_list_of_mappings`. The default of the caller is a tuple, which it rejects. -/
def listOfMappings (value : Option Json) (fieldName : String) : Except Exc (List JsonObject) :=
  match value with
  | some (.arr items) =>
    (items.mapM asObject).elim
      (.error (invalidReviewState ("normalized " ++ fieldName ++ " is invalid"))) .ok
  | _ => .error (invalidReviewState ("normalized " ++ fieldName ++ " is invalid"))

/-- `_string_list`. -/
def stringList (value : Option Json) : Except Exc (List String) :=
  match value with
  | none => .ok []
  | some (.arr items) =>
    (items.mapM asString).elim (.error (invalidReviewState "normalized tags are invalid")) .ok
  | some _ => .error (invalidReviewState "normalized tags are invalid")

/-- `_text`. -/
def text (value : Option Json) : Option String :=
  match value with
  | some (.str s) => if isBlank s then none else some s
  | _ => none

/-- `ToolSideEffect(str(value))`, or `UNKNOWN` where that fails. -/
def sideEffectOf (value : Option Json) : ToolSideEffect :=
  match value with
  | some (.str "read_only") => .readOnly
  | some (.str "idempotent_write") => .idempotentWrite
  | some (.str "non_idempotent_write") => .nonIdempotentWrite
  | _ => .unknown

/-! ### The drafts -/

namespace ReviewImportedOperation

/-- `_build_version`. -/
def buildVersion [Sha256] (env : ReviewEnv) (command : ReviewImportedOperationCommand)
    (operation : ImportedOperation) (tool : Tool) (versionNumber : Nat) :
    Except Exc ToolVersion := do
  let normalized := operation.normalizedOperation
  let inputSchema ← mapping (normalized.get "tool_input_schema") "tool input schema"
  let outputSchema ← optionalMapping (normalized.get "tool_output_schema") "tool output schema"
  let summary := (text (normalized.get "summary")).getD
    ((operation.operationId.filter (· ≠ "")).getD tool.val.canonicalName)
  let tags ← stringList (normalized.get "tags")
  construct {
    id := env.versionId
    tenantId := command.context.tenantId
    toolId := tool.val.id
    version := versionNumber
    displayName := summary
    description := (text (normalized.get "description")).getD summary
    inputSchema := inputSchema
    outputSchema := outputSchema
    schemaDigest := ← calculateSchemaDigest inputSchema outputSchema
    tags := tags
    sideEffect := sideEffectOf (normalized.get "side_effect")
    visibility := command.visibility
    status := .draft
    createdBy := command.context.principalId
    createdAt := env.versionCreatedAt }

/-- `parameter.get("required") is True`. -/
def isRequired (fields : JsonObject) : Json :=
  .bool (fields.get "required" matches some (.bool true))

/-- The mapping of one parameter to the upstream request. -/
def parameterConfig (parameter : JsonObject) : Json :=
  .obj [("argument_name", (parameter.get "argument_name").getD .null),
    ("upstream_name", (parameter.get "upstream_name").getD .null),
    ("location", (parameter.get "location").getD .null),
    ("required", isRequired parameter)]

def requestBodyConfig (requestBody : JsonObject) : Json :=
  .obj [("argument_name", (requestBody.get "argument_name").getD .null),
    ("content_type", (requestBody.get "content_type").getD .null),
    ("required", isRequired requestBody)]

/-- The binding configuration. -/
def bindingConfig (operation : ImportedOperation) (parameters : List JsonObject)
    (requestBody : Option JsonObject) : JsonObject :=
  [("method", .str operation.method), ("path_template", .str operation.path),
    ("parameters", .arr (parameters.map parameterConfig)),
    ("request_body", (requestBody.map requestBodyConfig).getD .null)]

/-- `_build_binding`. -/
def buildBinding [Sha256] (env : ReviewEnv) (operation : ImportedOperation)
    (version : ToolVersion) : Except Exc ToolBinding := do
  let normalized := operation.normalizedOperation
  let parameters ← listOfMappings (normalized.get "parameters") "parameters"
  let requestBody ← optionalMapping (normalized.get "request_body") "request body"
  let binding : ToolBinding ← construct {
    id := env.bindingId
    tenantId := operation.tenantId
    toolVersionId := version.val.id
    upstreamServiceId := operation.upstreamServiceId
    importedOperationId := some operation.id
    bindingType := .http
    bindingConfig := bindingConfig operation parameters requestBody
    bindingDigest := "pending"
    status := .draft
    createdAt := env.bindingCreatedAt }
  construct { binding.val with bindingDigest := ← calculateBindingDigest binding.val }

/-- What the caller is told of the reviewed resources. -/
def result (operation : ImportedOperation) (tool : Tool) (version : ToolVersion)
    (binding : ToolBinding) : ReviewImportedOperationResult where
  operationId := operation.id
  toolId := tool.val.id
  toolVersionId := version.val.id
  toolBindingId := binding.val.id
  canonicalName := tool.val.canonicalName
  version := version.val.version
  schemaDigest := version.val.schemaDigest
  bindingDigest := binding.val.bindingDigest

/-- `_existing_result`. -/
def existingResult (tenantId : Id) (operation : ImportedOperation) :
    CatalogM ReviewImportedOperationResult := do
  match operation.draftToolVersionId, operation.draftToolBindingId with
  | some versionId, some bindingId => do
    let version ← getVersionForUpdate tenantId versionId
    let binding ← getBindingById tenantId bindingId
    match version, binding with
    | some version, some binding => do
      let tool ← orRaise (← getToolForUpdate tenantId version.val.toolId)
        (invalidReviewState "accepted operation tool was not found")
      return result operation tool version binding
    | _, _ => lift (.error (invalidReviewState "accepted operation draft resources were not found"))
  | _, _ => lift (.error (invalidReviewState "accepted operation is missing draft references"))

/-- The tool under the generated name, which is added when it is the first of that name. -/
def getOrAddTool (env : ReviewEnv) (command : ReviewImportedOperationCommand)
    (upstream : UpstreamService) (generatedToolName : String) : CatalogM Tool := do
  let tenantId := command.context.tenantId
  match ← getToolByNameForUpdate tenantId generatedToolName with
  | some tool => return tool
  | none => do
    let tool ← lift (construct {
      id := env.toolId
      tenantId := tenantId
      namespaceName := upstream.val.namespaceName
      canonicalName := generatedToolName
      owner := command.owner
      status := .disabled })
    addTool tenantId tool
    return tool

/-- `execute_in_transaction` on an operation that is not accepted yet. -/
def draft [Sha256] (env : ReviewEnv) (command : ReviewImportedOperationCommand)
    (operation : ImportedOperation) : CatalogM ReviewImportedOperationResult := do
  let tenantId := command.context.tenantId
  CatalogM.raiseIf (operation.conflictStatus ≠ .none)
    (invalidReviewState
      ("operation " ++ operation.id ++ " has conflict " ++ operation.conflictStatus.value))
  let generatedToolName ← orRaise operation.generatedToolName
    (invalidReviewState "operation has no generated tool name")
  let upstream ← orRaise (← getUpstreamForUpdate tenantId operation.upstreamServiceId)
    (.nexus .tenantBoundaryViolation "operation upstream was not found in requested tenant")
  CatalogM.raiseIf (upstream.val.status ≠ .active)
    (.nexus .upstreamNotActive ("upstream " ++ upstream.val.id ++ " is not active"))
  let tool ← getOrAddTool env command upstream generatedToolName
  let versionNumber ← nextVersionNumber tenantId tool.val.id
  let version ← lift (buildVersion env command operation tool versionNumber)
  let binding ← lift (buildBinding env operation version)
  let acceptedOperation ← lift (operation.accept version.val.id binding.val.id command.reviewNotes)
  addVersion tenantId version
  addBinding tenantId binding
  saveOperation tenantId acceptedOperation
  return result operation tool version binding

/-- `execute_in_transaction`. -/
def executeInTransaction [Sha256] (env : ReviewEnv) (command : ReviewImportedOperationCommand) :
    CatalogM ReviewImportedOperationResult := do
  let tenantId := command.context.tenantId
  let operation ← orRaise (← getOperationForUpdate tenantId command.operationId)
    (.nexus .importedOperationNotFound
      ("imported operation " ++ command.operationId ++ " was not found in tenant"))
  if operation.reviewStatus = .accepted then existingResult tenantId operation
  else draft env command operation

end ReviewImportedOperation

/-! ## Direct publish -/

structure DirectPublishImportedOperationCommand where
  context : ActorContext
  operationId : Id
  owner : String
  visibility : ToolVisibility := .public_
  reviewNotes : Option String := none

structure DirectPublishImportedOperationResult where
  reviewed : ReviewImportedOperationResult
  retiredToolVersionId : Option Id
  publishedAt : Time
  alreadyPublished : Bool

namespace DirectPublishImportedOperation

/-- The command that the reviewer is given. -/
def reviewCommand (command : DirectPublishImportedOperationCommand) :
    ReviewImportedOperationCommand where
  context := command.context
  operationId := command.operationId
  owner := command.owner
  visibility := command.visibility
  reviewNotes := command.reviewNotes

/-- The command that the publication is given. -/
def publishCommand (context : ActorContext) (reviewed : ReviewImportedOperationResult) :
    PublishToolCommand where
  context := context
  toolId := reviewed.toolId
  toolVersionId := reviewed.toolVersionId
  expectedSchemaDigest := reviewed.schemaDigest
  expectedBindingDigest := reviewed.bindingDigest

/-- The version is submitted for review where it still is a draft. -/
def submit (tenantId : Id) (version : ToolVersion) (publishedAt : Time) : CatalogM Unit :=
  match version.val.status with
  | .draft => do saveVersion tenantId (← lift (version.submitForReview publishedAt))
  | .review => pure ()
  | status => lift (.error (.nexus .invalidToolState
      ("tool version " ++ version.val.id ++ " cannot be directly published from " ++ status.value)))

/-- The body of the unit of work, with what the clock returned before it. -/
def inUnitOfWork [Sha256] (env : ReviewEnv) (publishedAt : Time)
    (command : DirectPublishImportedOperationCommand) :
    CatalogM DirectPublishImportedOperationResult := do
  let tenantId := command.context.tenantId
  let reviewed ← ReviewImportedOperation.executeInTransaction env (reviewCommand command)
  let version ← getVersionForUpdate tenantId reviewed.toolVersionId
  let binding ← getBindingByToolVersionForUpdate tenantId reviewed.toolVersionId
  let tool ← getToolForUpdate tenantId reviewed.toolId
  match version, binding, tool with
  | some version, some binding, some tool =>
    if version.val.status = .published then do
      CatalogM.raiseIf (binding.val.status ≠ .published ∨ tool.val.status ≠ .active)
        (.nexus .invalidToolState "published operation resources were not in one consistent state")
      let versionPublishedAt ← orRaise version.val.publishedAt
        (.nexus .invalidToolState "published operation resources were not in one consistent state")
      return {
        reviewed := reviewed
        retiredToolVersionId := none
        publishedAt := versionPublishedAt
        alreadyPublished := true }
    else do
      submit tenantId version publishedAt
      let publication ← publishToolInTransaction (publishCommand command.context reviewed)
        publishedAt
      return {
        reviewed := reviewed
        retiredToolVersionId := publication.retiredToolVersionId
        publishedAt := publication.event.occurredAt
        alreadyPublished := false }
  | _, _, _ => lift (.error (invalidReviewState "reviewed publication resources were incomplete"))

/-- `execute`. A version that was published already is reported without a commit. -/
def execute [Sha256] (env : ReviewEnv) (publishedAt : Time)
    (command : DirectPublishImportedOperationCommand) :
    CatalogM DirectPublishImportedOperationResult := fun c =>
  (inUnitOfWork env publishedAt command c).map fun (result, c') =>
    (result, if result.alreadyPublished then c else c')

end DirectPublishImportedOperation

end NexusMcp
