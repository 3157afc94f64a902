-- SUMMARY: Import jobs, imported operations and parsed documents, with their transitions.
import NexusMcp.Shared.Json

/-! # OpenAPI Imports -/

namespace NexusMcp

/-! ## Enumerations -/

inductive OpenApiSourceType where
  | upload
  | localFixture
  | url
deriving Repr, DecidableEq

inductive ImportJobStatus where
  | pending
  | validating
  | parsing
  | completed
  | failed
deriving Repr, DecidableEq

inductive OperationReviewStatus where
  | pending
  | accepted
  | rejected
  | needsChange
deriving Repr, DecidableEq

inductive OperationConflictStatus where
  | none
  | nameCollision
  | missingOperationId
  | unsupported
deriving Repr, DecidableEq

def OperationConflictStatus.value : OperationConflictStatus → String
  | none => "none"
  | nameCollision => "name_collision"
  | missingOperationId => "missing_operation_id"
  | unsupported => "unsupported"

/-! ## Import jobs -/

structure OpenApiImportJob where
  id : Id
  tenantId : Id
  upstreamServiceId : Id
  sourceType : OpenApiSourceType
  sourceRef : String
  sourceDigest : String
  openapiVersion : Option String
  operationAllowlist : List String
  allowlistSnapshot : JsonObject
  status : ImportJobStatus
  errorSummary : Option String
  createdBy : String
  createdAt : Time
  startedAt : Option Time := none
  completedAt : Option Time := none

namespace OpenApiImportJob

def startValidation (self : OpenApiImportJob) (startedAt : Time) :
    Except Exc OpenApiImportJob := do
  valueErrorIf (self.status ≠ .pending) "only pending import job can start validation"
  return { self with status := .validating, startedAt := some startedAt }

def startParsing (self : OpenApiImportJob) : Except Exc OpenApiImportJob := do
  valueErrorIf (self.status ≠ .validating) "only validating import job can start parsing"
  return { self with status := .parsing }

def complete (self : OpenApiImportJob) (openapiVersion : String) (completedAt : Time) :
    Except Exc OpenApiImportJob := do
  valueErrorIf (self.status ≠ .parsing) "only parsing import job can complete"
  return { self with
    status := .completed
    openapiVersion := some openapiVersion
    completedAt := some completedAt
    errorSummary := none }

def fail (self : OpenApiImportJob) (errorSummary : String) (completedAt : Time) :
    Except Exc OpenApiImportJob := do
  valueErrorIf (self.status = .completed ∨ self.status = .failed)
    "terminal import job cannot fail again"
  return { self with
    status := .failed
    errorSummary := some errorSummary
    completedAt := some completedAt }

end OpenApiImportJob

/-! ## Imported operations -/

structure ImportedOperation where
  id : Id
  tenantId : Id
  importJobId : Id
  upstreamServiceId : Id
  operationKey : String
  operationId : Option String
  method : String
  path : String
  normalizedOperation : JsonObject
  generatedToolName : Option String
  conflictStatus : OperationConflictStatus
  reviewStatus : OperationReviewStatus
  reviewNotes : Option String := none
  draftToolVersionId : Option Id := none
  draftToolBindingId : Option Id := none

def ImportedOperation.accept (self : ImportedOperation) (draftToolVersionId draftToolBindingId : Id)
    (reviewNotes : Option String) : Except Exc ImportedOperation := do
  valueErrorIf (self.conflictStatus ≠ .none) "operation with conflict cannot be accepted"
  valueErrorIf (self.reviewStatus ≠ .pending ∧ self.reviewStatus ≠ .needsChange)
    "operation cannot be accepted from current review state"
  return { self with
    reviewStatus := .accepted
    reviewNotes := reviewNotes
    draftToolVersionId := some draftToolVersionId
    draftToolBindingId := some draftToolBindingId }

/-! ## Parsed documents -/

structure ParsedOperation where
  operationKey : String
  operationId : Option String
  method : String
  path : String
  normalizedOperation : JsonObject
  generatedToolName : Option String
  conflictStatus : OperationConflictStatus

structure ParsedOpenApiDocument where
  openapiVersion : String
  operations : List ParsedOperation

structure OpenApiDocument where
  sourceRef : String
  sourceDigest : String
  content : JsonObject

def openApiDocumentInvalid (message : String) : Exc := .nexus .openApiDocumentInvalid message

def openApiFeatureUnsupported (message : String) : Exc := .nexus .openApiFeatureUnsupported message

end NexusMcp
