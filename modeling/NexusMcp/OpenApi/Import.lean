-- SUMMARY: The import of an OpenAPI document: a job and its operations, in several short transactions.
import NexusMcp.Catalog.Store
import NexusMcp.Txn.Serial

/-!
# Importing OpenAPI Documents

The reader of documents and the parser are parameters. They run outside of every
transaction.
-/

namespace NexusMcp

open CatalogM (lift orRaise)
open Txn (Serial)

structure ImportOpenApiCommand where
  context : ActorContext
  upstreamServiceId : Id
  sourceRef : String
  operationAllowlist : List String := []

structure ImportOpenApiResult where
  importJobId : Id
  operationIds : List Id
  conflictCount : Nat

/-- What an import is composed with, and what its generator and its clock return. -/
structure ImportOpenApi where
  documentReader : String → Except Exc OpenApiDocument
  parser : JsonObject → String → List String → Except Exc ParsedOpenApiDocument
  jobId : Id
  operationId : Nat → Id
  createdAt : Time
  completedAt : Time
  failedAt : Time

namespace ImportOpenApi

variable (self : ImportOpenApi)

/-- The first unit of work: the job, and the namespace of its upstream. -/
def begin (command : ImportOpenApiCommand) (document : OpenApiDocument) :
    CatalogM (OpenApiImportJob × String) := do
  let tenantId := command.context.tenantId
  let upstream ← orRaise (← getUpstreamForUpdate tenantId command.upstreamServiceId)
    (.nexus .tenantBoundaryViolation "OpenAPI upstream was not found in the requested tenant")
  CatalogM.raiseIf (upstream.val.status ≠ .active)
    (.nexus .upstreamNotActive ("upstream " ++ upstream.val.id ++ " is not active"))
  let pending : OpenApiImportJob := {
    id := self.jobId
    tenantId := tenantId
    upstreamServiceId := upstream.val.id
    sourceType := .localFixture
    sourceRef := document.sourceRef
    sourceDigest := document.sourceDigest
    openapiVersion := none
    operationAllowlist := command.operationAllowlist
    allowlistSnapshot := [("network_access", .bool false), ("source_type", .str "local_fixture")]
    status := .pending
    errorSummary := none
    createdBy := command.context.principalId
    createdAt := self.createdAt }
  let job ← lift (pending.startValidation self.createdAt)
  addJob tenantId job
  return (job, upstream.val.namespaceName)

/-- `_mark_parsing`. -/
def markParsing (tenantId jobId : Id) : CatalogM Unit := do
  let job ← orRaise (← getJobForUpdate tenantId jobId)
    (openApiDocumentInvalid "import job disappeared before parsing")
  saveJob tenantId (← lift job.startParsing)

/-- `_build_operations`. -/
def buildOperations (tenantId : Id) (job : OpenApiImportJob) (parsed : ParsedOpenApiDocument) :
    List ImportedOperation :=
  parsed.operations.mapIdx fun i operation => {
    id := self.operationId i
    tenantId := tenantId
    importJobId := job.id
    upstreamServiceId := job.upstreamServiceId
    operationKey := operation.operationKey
    operationId := operation.operationId
    method := operation.method
    path := operation.path
    normalizedOperation := operation.normalizedOperation
    generatedToolName := operation.generatedToolName
    conflictStatus := operation.conflictStatus
    reviewStatus := .pending }

/-- `_complete_job`. -/
def completeJob (tenantId jobId : Id) (parsed : ParsedOpenApiDocument)
    (operations : List ImportedOperation) : CatalogM Unit := do
  let job ← orRaise (← getJobForUpdate tenantId jobId)
    (openApiDocumentInvalid "import job disappeared before completion")
  addOperations tenantId operations
  saveJob tenantId (← lift (job.complete parsed.openapiVersion self.completedAt))

/-- `_fail_job`. -/
def failJob (tenantId jobId : Id) (safeSummary : String) : CatalogM Unit := do
  match ← getJobForUpdate tenantId jobId with
  | none => return ()
  | some job =>
    if job.status = .completed ∨ job.status = .failed then return ()
    else saveJob tenantId (← lift (job.fail safeSummary self.failedAt))

/-- The job fails with the error that stopped it. A cancellation is no `Exception`. -/
def failWith {α : Type} (tenantId jobId : Id) (error : Exc) : Serial CatalogTables Exc α := do
  match error with
  | .nexus cls message => do
    Serial.atomically (self.failJob tenantId jobId cls.safeMessage)
    Serial.lift (.error (.nexus cls message))
  | .cancelled => Serial.lift (.error .cancelled)
  | _ => do
    Serial.atomically (self.failJob tenantId jobId ErrorClass.openApiDocumentInvalid.safeMessage)
    Serial.lift (.error (openApiDocumentInvalid "unexpected OpenAPI parser failure"))

/-- The part of `execute` that may fail the job. -/
def parseAndComplete (command : ImportOpenApiCommand) (document : OpenApiDocument)
    (job : OpenApiImportJob) (namespaceName : String) :
    Serial CatalogTables Exc (List ImportedOperation) := do
  let tenantId := command.context.tenantId
  Serial.atomically (markParsing tenantId self.jobId)
  let parsed ← Serial.lift (self.parser document.content namespaceName command.operationAllowlist)
  let operations := self.buildOperations tenantId job parsed
  Serial.atomically (self.completeJob tenantId self.jobId parsed operations)
  return operations

/-- `execute`. -/
def execute (command : ImportOpenApiCommand) : Serial CatalogTables Exc ImportOpenApiResult := do
  let document ← Serial.lift (self.documentReader command.sourceRef)
  let (job, namespaceName) ← Serial.atomically (self.begin command document)
  let operations ← (self.parseAndComplete command document job namespaceName).tryCatch
    (self.failWith command.context.tenantId self.jobId)
  return {
    importJobId := self.jobId
    operationIds := operations.map (·.id)
    conflictCount := operations.countP (·.conflictStatus ≠ .none) }

end ImportOpenApi

end NexusMcp
