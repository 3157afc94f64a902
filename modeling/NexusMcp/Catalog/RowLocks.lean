-- SUMMARY: The transactions that review and publish tools, with the rows that they lock.
import NexusMcp.OpenApi.Review
import NexusMcp.Txn.Locking

/-!
# Row Locks of the Catalogue

A repository function that reads `FOR UPDATE` locks the row it finds, and a row that is
added is locked by its transaction. Otherwise the transactions are those of the catalogue,
which run alone as they do there.
-/

namespace NexusMcp

open Txn (Locking Transaction)

/-- The rows of the catalogue, by their primary keys. -/
inductive CatalogRow where
  | operation (id : Id)
  | upstream (id : Id)
  | tool (id : Id)
  | version (id : Id)
  | binding (id : Id)
deriving Repr, DecidableEq

abbrev CatalogLocking (α : Type) := Locking CatalogTables CatalogRow Exc α

/-! ## Queries and changes -/

namespace CatalogLocking

variable {α β ν : Type}

/-- A computation that does not touch the tables. -/
def lift (x : Except Exc α) : CatalogLocking α := Locking.lift x

/-- `if x is None: raise e`. -/
def orRaise (x : Option α) (e : Exc) : CatalogLocking α := lift (x.elim (.error e) .ok)

def raiseIf (p : Prop) [Decidable p] (e : Exc) : CatalogLocking Unit := lift (NexusMcp.raiseIf p e)

/-- A query that locks nothing. -/
def select (get : CatalogM α) : CatalogLocking α :=
  .query (fun _ => none) fun c => .lift ((get c).map (·.1))

/-- The row that a query found, under its key. -/
def found (row : ν → CatalogRow) : Except Exc (Option ν × CatalogTables) → Option CatalogRow
  | .ok (v, _) => v.map row
  | .error _ => none

/-- A query with `with_for_update()`, for at most one row. -/
def forUpdate (row : ν → CatalogRow) (get : CatalogM (Option ν)) : CatalogLocking (Option ν) :=
  .query (fun c => found row (get c)) fun c => .lift ((get c).map (·.1))

/-- A change of rows that are locked. -/
def save (change : CatalogM Unit) : CatalogLocking Unit :=
  .write none (fun c => (change c).map (·.2)) (.ret ())

def add (row : CatalogRow) (change : CatalogM Unit) : CatalogLocking Unit :=
  .write (some row) (fun c => (change c).map (·.2)) (.ret ())

/-! ### Running alone -/

theorem run_bind {p : CatalogLocking α} {f : α → CatalogLocking β} {m : CatalogM α}
    {k : α → CatalogM β} (hp : p.run = m) (hf : ∀ a, (f a).run = k a) :
    (p >>= f).run = m >>= k := by
  funext c
  rw [Locking.run_bind, hp]
  change _ = CatalogM.bind m k c
  unfold CatalogM.bind
  cases m c with
  | ok result => simp only [hf]
  | error e => rfl

theorem run_lift (x : Except Exc α) : (lift x).run = CatalogM.lift x := by
  cases x <;> rfl

theorem run_orRaise (x : Option α) (e : Exc) : (orRaise x e).run = CatalogM.orRaise x e :=
  run_lift _

theorem run_raiseIf (p : Prop) {_ : Decidable p} (e : Exc) :
    (raiseIf p e).run = CatalogM.raiseIf p e :=
  run_lift _

theorem run_write (row? : Option CatalogRow) (change : CatalogM Unit) :
    Locking.run (.write row? (fun c => (change c).map (·.2)) (.ret ())) = change := by
  funext c
  simp only [Locking.run]
  cases change c <;> rfl

theorem run_save (change : CatalogM Unit) : (save change).run = change := run_write none change

theorem run_add (row : CatalogRow) (change : CatalogM Unit) : (add row change).run = change :=
  run_write (some row) change

end CatalogLocking

namespace RowLocks

open CatalogLocking

/-! ## Repositories -/

def getToolForUpdate (tenantId toolId : Id) : CatalogLocking (Option Tool) :=
  forUpdate (.tool ·.val.id) (NexusMcp.getToolForUpdate tenantId toolId)

def getToolByNameForUpdate (tenantId : Id) (canonicalName : String) :
    CatalogLocking (Option Tool) :=
  forUpdate (.tool ·.val.id) (NexusMcp.getToolByNameForUpdate tenantId canonicalName)

def getVersionForUpdate (tenantId toolVersionId : Id) : CatalogLocking (Option ToolVersion) :=
  forUpdate (.version ·.val.id) (NexusMcp.getVersionForUpdate tenantId toolVersionId)

def getBindingByToolVersionForUpdate (tenantId toolVersionId : Id) :
    CatalogLocking (Option ToolBinding) :=
  forUpdate (.binding ·.val.id) (NexusMcp.getBindingByToolVersionForUpdate tenantId toolVersionId)

def getUpstreamForUpdate (tenantId upstreamServiceId : Id) :
    CatalogLocking (Option UpstreamService) :=
  forUpdate (.upstream ·.val.id) (NexusMcp.getUpstreamForUpdate tenantId upstreamServiceId)

def getOperationForUpdate (tenantId operationId : Id) :
    CatalogLocking (Option ImportedOperation) :=
  forUpdate (.operation ·.id) (NexusMcp.getOperationForUpdate tenantId operationId)

/-! ## Submitting for review -/

/-- `SubmitToolVersionForReview.execute`. -/
def submitToolVersionForReview (now : Time) (command : SubmitToolVersionForReviewCommand) :
    CatalogLocking Unit := do
  let tenantId := command.context.tenantId
  let version ← orRaise (← getVersionForUpdate tenantId command.toolVersionId)
    (.nexus .toolVersionNotFound
      ("tool version " ++ command.toolVersionId ++ " was not found in tenant"))
  CatalogLocking.raiseIf (version.val.status ≠ .draft)
    (.nexus .invalidToolState ("tool version " ++ version.val.id ++ " must be draft before review"))
  CatalogLocking.save (saveVersion tenantId (← lift (version.submitForReview now)))

theorem run_submitToolVersionForReview (now : Time) (command : SubmitToolVersionForReviewCommand) :
    (submitToolVersionForReview now command).run =
      SubmitToolVersionForReview.execute now command := by
  refine run_bind rfl fun version? => ?_
  refine run_bind (run_orRaise _ _) fun version => ?_
  refine run_bind (run_raiseIf _ _) fun _ => ?_
  exact run_bind (run_lift _) fun _ => run_save _

/-! ## Publishing -/

/-- `retireVersion`. -/
def retireVersion (tenantId : Id) (current targetVersion : ToolVersion) (retiredAt : Time) :
    CatalogLocking Id := do
  CatalogLocking.raiseIf (current.val.version ≥ targetVersion.val.version)
    (.nexus .publishConflict "target version must be newer than the current published version")
  let lockedCurrent ← orRaise
    ((← getVersionForUpdate tenantId current.val.id).filter (·.val.status = .published))
    (.nexus .publishConflict "current published version changed during publish")
  let currentBinding ← orRaise (← getBindingByToolVersionForUpdate tenantId lockedCurrent.val.id)
    (.nexus .toolBindingNotFound
      ("published binding for version " ++ lockedCurrent.val.id ++ " was not found"))
  CatalogLocking.raiseIf (currentBinding.val.status ≠ .published)
    (.nexus .invalidToolState "current published version binding is not published")
  CatalogLocking.save (saveVersion tenantId (← lift (lockedCurrent.retire retiredAt)))
  CatalogLocking.save (saveBinding tenantId (← lift currentBinding.disable))
  return lockedCurrent.val.id

/-- `_retire_current_version`. -/
def retireCurrentVersion (tenantId : Id) (tool : Tool) (targetVersion : ToolVersion)
    (retiredAt : Time) : CatalogLocking (Option Id) := do
  match ← select (getPublishedVersion tenantId tool.val.id) with
  | none => return none
  | some current => return some (← retireVersion tenantId current targetVersion retiredAt)

/-- `publish_tool_in_transaction`. -/
def publishToolInTransaction [Sha256] (command : PublishToolCommand) (publishedAt : Time) :
    CatalogLocking PublishToolResult := do
  let tenantId := command.context.tenantId
  let tool ← orRaise (← getToolForUpdate tenantId command.toolId)
    (.nexus .toolNotFound ("tool " ++ command.toolId ++ " was not found in tenant"))
  let version ← orRaise (← getVersionForUpdate tenantId command.toolVersionId)
    (.nexus .toolVersionNotFound
      ("tool version " ++ command.toolVersionId ++ " was not found in tenant"))
  let binding ← orRaise (← getBindingByToolVersionForUpdate tenantId version.val.id)
    (.nexus .toolBindingNotFound
      ("binding for tool version " ++ version.val.id ++ " was not found in tenant"))
  let upstream ← orRaise (← getUpstreamForUpdate tenantId binding.val.upstreamServiceId)
    (.nexus .tenantBoundaryViolation "binding upstream was not found in the requested tenant")
  lift (PublishTool.validatePublishSnapshot command tool version binding upstream)
  let retiredVersionId ← retireCurrentVersion tenantId tool version publishedAt
  CatalogLocking.save (saveVersion tenantId (← lift (version.publish publishedAt)))
  CatalogLocking.save (saveBinding tenantId (← lift (binding.publish publishedAt)))
  CatalogLocking.save (saveTool tenantId (← lift tool.activate))
  return {
    event := {
      tenantId := tenantId
      toolId := tool.val.id
      toolVersionId := version.val.id
      toolBindingId := binding.val.id
      canonicalName := tool.val.canonicalName
      version := version.val.version
      actorId := command.context.principalId
      requestId := command.context.requestId
      traceId := command.context.traceId
      occurredAt := publishedAt }
    retiredToolVersionId := retiredVersionId }

theorem run_retireVersion (tenantId : Id) (current targetVersion : ToolVersion) (retiredAt : Time) :
    (retireVersion tenantId current targetVersion retiredAt).run =
      PublishTool.retireVersion tenantId current targetVersion retiredAt := by
  refine run_bind (run_raiseIf _ _) fun _ => ?_
  refine run_bind rfl fun version? => ?_
  refine run_bind (run_orRaise _ _) fun lockedCurrent => ?_
  refine run_bind rfl fun binding? => ?_
  refine run_bind (run_orRaise _ _) fun currentBinding => ?_
  refine run_bind (run_raiseIf _ _) fun _ => ?_
  refine run_bind (run_lift _) fun _ => run_bind (run_save _) fun _ => ?_
  exact run_bind (run_lift _) fun _ => run_bind (run_save _) fun _ => rfl

theorem run_retireCurrentVersion (tenantId : Id) (tool : Tool) (targetVersion : ToolVersion)
    (retiredAt : Time) : (retireCurrentVersion tenantId tool targetVersion retiredAt).run =
      PublishTool.retireCurrentVersion tenantId tool targetVersion retiredAt := by
  refine run_bind rfl fun current? => ?_
  cases current? with
  | none => rfl
  | some current => exact run_bind (run_retireVersion _ _ _ _) fun _ => rfl

theorem run_publishToolInTransaction [Sha256] (command : PublishToolCommand) (publishedAt : Time) :
    (publishToolInTransaction command publishedAt).run =
      NexusMcp.publishToolInTransaction command publishedAt := by
  refine run_bind rfl fun tool? => run_bind (run_orRaise _ _) fun tool => ?_
  refine run_bind rfl fun version? => run_bind (run_orRaise _ _) fun version => ?_
  refine run_bind rfl fun binding? => run_bind (run_orRaise _ _) fun binding => ?_
  refine run_bind rfl fun upstream? => run_bind (run_orRaise _ _) fun upstream => ?_
  refine run_bind (run_lift _) fun _ => ?_
  refine run_bind (run_retireCurrentVersion _ _ _ _) fun _ => ?_
  refine run_bind (run_lift _) fun _ => run_bind (run_save _) fun _ => ?_
  refine run_bind (run_lift _) fun _ => run_bind (run_save _) fun _ => ?_
  exact run_bind (run_lift _) fun _ => run_bind (run_save _) fun _ => rfl

/-! ## Reviewing -/

/-- `_existing_result`, which locks nothing. -/
def existingResult (tenantId : Id) (operation : ImportedOperation) :
    CatalogLocking ReviewImportedOperationResult := do
  match operation.draftToolVersionId, operation.draftToolBindingId with
  | some versionId, some bindingId => do
    let version ← select (NexusMcp.getVersionForUpdate tenantId versionId)
    let binding ← select (getBindingById tenantId bindingId)
    match version, binding with
    | some version, some binding => do
      let tool ← orRaise (← select (NexusMcp.getToolForUpdate tenantId version.val.toolId))
        (invalidReviewState "accepted operation tool was not found")
      return ReviewImportedOperation.result operation tool version binding
    | _, _ => lift (.error (invalidReviewState "accepted operation draft resources were not found"))
  | _, _ => lift (.error (invalidReviewState "accepted operation is missing draft references"))

def getOrAddTool (env : ReviewEnv) (command : ReviewImportedOperationCommand)
    (upstream : UpstreamService) (generatedToolName : String) : CatalogLocking Tool := do
  let tenantId := command.context.tenantId
  match ← getToolByNameForUpdate tenantId generatedToolName with
  | some tool => return tool
  | none => do
    let tool ← lift (construct {
      id := env.toolId
      tenantId := tenantId
      namespaceName := upstream.val.namespaceName
      canonicalName := generatedToolName
      owner := command.owner
      status := .disabled })
    CatalogLocking.add (.tool tool.val.id) (addTool tenantId tool)
    return tool

/-- `execute_in_transaction` on an operation that is not accepted yet. -/
def draft [Sha256] (env : ReviewEnv) (command : ReviewImportedOperationCommand)
    (operation : ImportedOperation) : CatalogLocking ReviewImportedOperationResult := do
  let tenantId := command.context.tenantId
  CatalogLocking.raiseIf (operation.conflictStatus ≠ .none)
    (invalidReviewState
      ("operation " ++ operation.id ++ " has conflict " ++ operation.conflictStatus.value))
  let generatedToolName ← orRaise operation.generatedToolName
    (invalidReviewState "operation has no generated tool name")
  let upstream ← orRaise (← getUpstreamForUpdate tenantId operation.upstreamServiceId)
    (.nexus .tenantBoundaryViolation "operation upstream was not found in requested tenant")
  CatalogLocking.raiseIf (upstream.val.status ≠ .active)
    (.nexus .upstreamNotActive ("upstream " ++ upstream.val.id ++ " is not active"))
  let tool ← getOrAddTool env command upstream generatedToolName
  let versionNumber ← select (nextVersionNumber tenantId tool.val.id)
  let version ← lift (ReviewImportedOperation.buildVersion env command operation tool versionNumber)
  let binding ← lift (ReviewImportedOperation.buildBinding env operation version)
  let acceptedOperation ← lift (operation.accept version.val.id binding.val.id command.reviewNotes)
  CatalogLocking.add (.version version.val.id) (addVersion tenantId version)
  CatalogLocking.add (.binding binding.val.id) (addBinding tenantId binding)
  CatalogLocking.save (saveOperation tenantId acceptedOperation)
  return ReviewImportedOperation.result operation tool version binding

/-- `execute_in_transaction`. -/
def executeInTransaction [Sha256] (env : ReviewEnv) (command : ReviewImportedOperationCommand) :
    CatalogLocking ReviewImportedOperationResult := do
  let tenantId := command.context.tenantId
  let operation ← orRaise (← getOperationForUpdate tenantId command.operationId)
    (.nexus .importedOperationNotFound
      ("imported operation " ++ command.operationId ++ " was not found in tenant"))
  if operation.reviewStatus = .accepted then existingResult tenantId operation
  else draft env command operation

theorem run_existingResult (tenantId : Id) (operation : ImportedOperation) :
    (existingResult tenantId operation).run =
      ReviewImportedOperation.existingResult tenantId operation := by
  unfold existingResult ReviewImportedOperation.existingResult
  cases operation.draftToolVersionId <;> cases operation.draftToolBindingId
  case some.some =>
    refine run_bind rfl fun version? => run_bind rfl fun binding? => ?_
    cases version? <;> cases binding?
    case some.some =>
      exact run_bind rfl fun tool? => run_bind (run_orRaise _ _) fun _ => rfl
    all_goals exact run_lift _
  all_goals exact run_lift _

theorem run_getOrAddTool (env : ReviewEnv) (command : ReviewImportedOperationCommand)
    (upstream : UpstreamService) (generatedToolName : String) :
    (getOrAddTool env command upstream generatedToolName).run =
      ReviewImportedOperation.getOrAddTool env command upstream generatedToolName := by
  refine run_bind rfl fun tool? => ?_
  cases tool? with
  | some tool => rfl
  | none => exact run_bind (run_lift _) fun _ => run_bind (run_add _ _) fun _ => rfl

theorem run_draft [Sha256] (env : ReviewEnv) (command : ReviewImportedOperationCommand)
    (operation : ImportedOperation) :
    (draft env command operation).run = ReviewImportedOperation.draft env command operation := by
  refine run_bind (run_raiseIf _ _) fun _ => run_bind (run_orRaise _ _) fun _ => ?_
  refine run_bind rfl fun upstream? => run_bind (run_orRaise _ _) fun upstream => ?_
  refine run_bind (run_raiseIf _ _) fun _ => ?_
  refine run_bind (run_getOrAddTool _ _ _ _) fun tool => run_bind rfl fun versionNumber => ?_
  refine run_bind (run_lift _) fun version => run_bind (run_lift _) fun binding => ?_
  refine run_bind (run_lift _) fun acceptedOperation => ?_
  refine run_bind (run_add _ _) fun _ => run_bind (run_add _ _) fun _ => ?_
  exact run_bind (run_save _) fun _ => rfl

theorem run_executeInTransaction [Sha256] (env : ReviewEnv)
    (command : ReviewImportedOperationCommand) : (executeInTransaction env command).run =
      ReviewImportedOperation.executeInTransaction env command := by
  refine run_bind rfl fun operation? => run_bind (run_orRaise _ _) fun operation => ?_
  split
  · exact run_existingResult _ _
  · exact run_draft _ _ _

/-! ## Direct publishing -/

def submit (tenantId : Id) (version : ToolVersion) (publishedAt : Time) : CatalogLocking Unit :=
  match version.val.status with
  | .draft => do
    CatalogLocking.save (saveVersion tenantId (← lift (version.submitForReview publishedAt)))
  | .review => pure ()
  | status => lift (.error (.nexus .invalidToolState
      ("tool version " ++ version.val.id ++ " cannot be directly published from " ++ status.value)))

/-- The unit of work of `DirectPublishImportedOperation.execute`. -/
def directPublish [Sha256] (env : ReviewEnv) (publishedAt : Time)
    (command : DirectPublishImportedOperationCommand) :
    CatalogLocking DirectPublishImportedOperationResult := do
  let tenantId := command.context.tenantId
  let reviewed ← executeInTransaction env (DirectPublishImportedOperation.reviewCommand command)
  let version ← getVersionForUpdate tenantId reviewed.toolVersionId
  let binding ← getBindingByToolVersionForUpdate tenantId reviewed.toolVersionId
  let tool ← getToolForUpdate tenantId reviewed.toolId
  match version, binding, tool with
  | some version, some binding, some tool =>
    if version.val.status = .published then do
      CatalogLocking.raiseIf (binding.val.status ≠ .published ∨ tool.val.status ≠ .active)
        (.nexus .invalidToolState "published operation resources were not in one consistent state")
      let versionPublishedAt ← orRaise version.val.publishedAt
        (.nexus .invalidToolState "published operation resources were not in one consistent state")
      return {
        reviewed := reviewed
        retiredToolVersionId := none
        publishedAt := versionPublishedAt
        alreadyPublished := true }
    else do
      submit tenantId version publishedAt
      let publication ← publishToolInTransaction
        (DirectPublishImportedOperation.publishCommand command.context reviewed) publishedAt
      return {
        reviewed := reviewed
        retiredToolVersionId := publication.retiredToolVersionId
        publishedAt := publication.event.occurredAt
        alreadyPublished := false }
  | _, _, _ => lift (.error (invalidReviewState "reviewed publication resources were incomplete"))

theorem run_submit (tenantId : Id) (version : ToolVersion) (publishedAt : Time) :
    (submit tenantId version publishedAt).run =
      DirectPublishImportedOperation.submit tenantId version publishedAt := by
  unfold submit DirectPublishImportedOperation.submit
  cases version.val.status with
  | draft => exact run_bind (run_lift _) fun _ => run_save _
  | review => rfl
  | published | retired => exact run_lift _

theorem run_directPublish [Sha256] (env : ReviewEnv) (publishedAt : Time)
    (command : DirectPublishImportedOperationCommand) :
    (directPublish env publishedAt command).run =
      DirectPublishImportedOperation.inUnitOfWork env publishedAt command := by
  refine run_bind (run_executeInTransaction _ _) fun reviewed => ?_
  refine run_bind rfl fun version? => run_bind rfl fun binding? => run_bind rfl fun tool? => ?_
  cases version? <;> cases binding? <;> cases tool?
  case some.some.some version binding tool =>
    dsimp only
    split
    · exact run_bind (run_raiseIf _ _) fun _ => run_bind (run_orRaise _ _) fun _ => rfl
    · refine run_bind (run_submit _ _ _) fun _ => ?_
      exact run_bind (run_publishToolInTransaction _ _) fun _ => rfl
  all_goals exact run_lift _

end RowLocks

end NexusMcp
