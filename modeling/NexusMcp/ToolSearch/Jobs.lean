-- SUMMARY: Reindex jobs: their table, the transactions of the job store and the use cases on them.
import NexusMcp.Catalog.Store
import NexusMcp.Txn.SerialHistory

/-!
# Reindex Jobs

Each operation of the store is one transaction. `claim`, `succeed` and `fail` lock the row of
the job, and the update of `recover_interrupted` locks the rows that it changes.
-/

namespace NexusMcp

open Txn (Table Serial Transaction)

/-! ## Jobs -/

inductive ToolSearchReindexJobStatus where
  | pending
  | running
  | succeeded
  | failed
deriving Repr, DecidableEq

structure ToolSearchReindexJob where
  id : Id
  tenantId : Id
  requestedBy : String
  status : ToolSearchReindexJobStatus
  force : Bool
  batchSize : Int
  embeddingModel : String
  embeddingDimensions : Int
  publishedCount : Nat
  currentCount : Nat
  pendingCount : Nat
  embeddedCount : Nat
  batchCount : Nat
  errorCode : Option String
  createdAt : Time
  startedAt : Option Time := none
  finishedAt : Option Time := none
deriving Repr, DecidableEq

namespace ToolSearchReindexJob

/-- The job takes the slot of its tenant. -/
def IsActive (self : ToolSearchReindexJob) : Prop :=
  self.status = .pending ∨ self.status = .running

instance (self : ToolSearchReindexJob) : Decidable self.IsActive :=
  inferInstanceAs (Decidable (_ ∨ _))

end ToolSearchReindexJob

structure ReindexToolsCommand where
  context : ActorContext
  batchSize : Int := 16
  force : Bool := false
  dryRun : Bool := false

structure ReindexToolsResult where
  publishedCount : Nat
  currentCount : Nat
  pendingCount : Nat
  embeddedCount : Nat
  batchCount : Nat
  model : String
  dimensions : Int
  dryRun : Bool

/-! ## The table -/

abbrev ReindexJobTable := Table fun job : ToolSearchReindexJob => job.id

/-- `uq_tool_search_reindex_job_active_tenant`. -/
def OneActive (jobs : ReindexJobTable) : Prop :=
  ((jobs.rows.filter (·.IsActive)).map (·.tenantId)).Nodup

instance (jobs : ReindexJobTable) : Decidable (OneActive jobs) :=
  inferInstanceAs (Decidable (List.Nodup _))

/-- The committed jobs. -/
structure ReindexJobs where
  jobs : ReindexJobTable
  oneActive : OneActive jobs

/-- Flush changed rows: the database checks the index. -/
def ReindexJobs.flush (jobs : ReindexJobTable) : Except Exc ReindexJobs :=
  if h : OneActive jobs then .ok ⟨jobs, h⟩
  else .error (.integrityError "uq_tool_search_reindex_job_active_tenant")

/-! ## The store -/

namespace ToolSearchReindexJobStore

/-- `create`. The errors with the state `23505` are those of the key and of the index. -/
def create (job : ToolSearchReindexJob) : Transaction ReindexJobs Exc Unit := fun s => do
  raiseIf (¬ (1 ≤ job.batchSize ∧ job.batchSize ≤ 64)) (.integrityError "batch_size")
  if h : s.jobs.find? job.id = none ∧ OneActive (s.jobs.insert job) then
    return ((), ⟨s.jobs.insert job, h.2⟩)
  else
    throw (.nexus .toolSearchReindexJobConflict "an active reindex job already exists for tenant")

/-- `_locked_model`. -/
def lockedModel (s : ReindexJobs) (tenantId jobId : Id) : Option ToolSearchReindexJob :=
  inTenant (·.tenantId) s.jobs tenantId jobId

/-- The changed row of a locked model. -/
def saveModel (s : ReindexJobs) (model : ToolSearchReindexJob) : Except Exc ReindexJobs :=
  ReindexJobs.flush (s.jobs.modify model.id fun _ => model)

/-- `claim`. -/
def claim (tenantId jobId : Id) (startedAt : Time) :
    Transaction ReindexJobs Exc (Option ToolSearchReindexJob) := fun s =>
  match lockedModel s tenantId jobId with
  | none => return (none, s)
  | some model =>
    if model.status ≠ .pending then return (none, s)
    else do
      let claimed := { model with status := .running, startedAt := some startedAt }
      return (some claimed, ← saveModel s claimed)

/-- `succeed`. It does not look at the status. -/
def succeed (tenantId jobId : Id) (result : ReindexToolsResult) (finishedAt : Time) :
    Transaction ReindexJobs Exc Unit := fun s =>
  match lockedModel s tenantId jobId with
  | none => return ((), s)
  | some model => do
    return ((), ← saveModel s { model with
      status := .succeeded
      publishedCount := result.publishedCount
      currentCount := result.currentCount
      pendingCount := result.pendingCount
      embeddedCount := result.embeddedCount
      batchCount := result.batchCount
      errorCode := none
      finishedAt := some finishedAt })

/-- `fail`. It does not look at the status either. -/
def fail (tenantId jobId : Id) (errorCode : String) (finishedAt : Time) :
    Transaction ReindexJobs Exc Unit := fun s =>
  match lockedModel s tenantId jobId with
  | none => return ((), s)
  | some model => do
    return ((), ← saveModel s { model with
      status := .failed
      errorCode := some errorCode
      finishedAt := some finishedAt })

/-- What `recover_interrupted` makes of a row. -/
def interrupt (tenantId : Id) (finishedAt : Time) (job : ToolSearchReindexJob) :
    ToolSearchReindexJob :=
  if job.tenantId = tenantId ∧ job.IsActive then
    { job with
      status := .failed
      errorCode := some "reindex_job_interrupted"
      finishedAt := some finishedAt }
  else job

theorem interrupt_id (tenantId : Id) (finishedAt : Time) (job : ToolSearchReindexJob) :
    (interrupt tenantId finishedAt job).id = job.id := by
  unfold interrupt
  split <;> rfl

/-- `recover_interrupted`, which returns the number of the active jobs that it counted. -/
def recoverInterrupted (tenantId : Id) (finishedAt : Time) : Transaction ReindexJobs Exc Nat :=
  fun s => do
    let recoveredCount := s.jobs.rows.countP fun job => job.tenantId = tenantId ∧ job.IsActive
    let recovered := s.jobs.map (interrupt tenantId finishedAt) (interrupt_id tenantId finishedAt)
    return (recoveredCount, ← ReindexJobs.flush recovered)

end ToolSearchReindexJobStore

/-! ## Use cases -/

open ToolSearchReindexJobStore

/-- What the creation of a job is composed with, and what its generator and its clock return. -/
structure CreateToolSearchReindexJob where
  newId : Id
  createdAt : Time
  embeddingModel : String
  embeddingDimensions : Int
  embeddingAvailable : Bool

namespace CreateToolSearchReindexJob

/-- The job that `execute` creates. -/
def newJob (self : CreateToolSearchReindexJob) (context : ActorContext) (force : Bool)
    (batchSize : Int) : ToolSearchReindexJob where
  id := self.newId
  tenantId := context.tenantId
  requestedBy := context.principalId
  status := .pending
  force := force
  batchSize := batchSize
  embeddingModel := self.embeddingModel
  embeddingDimensions := self.embeddingDimensions
  publishedCount := 0
  currentCount := 0
  pendingCount := 0
  embeddedCount := 0
  batchCount := 0
  errorCode := none
  createdAt := self.createdAt

def execute (self : CreateToolSearchReindexJob) (context : ActorContext) (force : Bool)
    (batchSize : Int) : Serial ReindexJobs Exc ToolSearchReindexJob := do
  Serial.lift (raiseIf (! self.embeddingAvailable)
    (.nexus .embeddingUnavailable "reindex job requires an embedding provider"))
  Serial.lift (valueErrorIf (¬ (1 ≤ batchSize ∧ batchSize ≤ 64))
    "reindex job batch size must be between 1 and 64")
  let job := self.newJob context force batchSize
  Serial.atomically (create job)
  return job

end CreateToolSearchReindexJob

/-- What the execution of a job is composed with. The reindexing does not touch the jobs, so
    it is a parameter; the clock is read before the claim and at the end. -/
structure RunToolSearchReindexJob where
  reindexTools : ReindexToolsCommand → Except Exc ReindexToolsResult
  startedAt : Time
  finishedAt : Time

namespace RunToolSearchReindexJob

/-- The command for the reindexing of a job. -/
def reindexCommand (job : ToolSearchReindexJob) : ReindexToolsCommand where
  context := {
    requestId := job.id
    traceId := String.ofList (job.id.toList.filter (· ≠ '-'))
    tenantId := job.tenantId
    principalId := job.requestedBy
    authnMethod := "admin_background_job" }
  batchSize := job.batchSize
  force := job.force

/-- The `except` and `else` clauses. A cancellation is no `Exception`. -/
def finish (self : RunToolSearchReindexJob) (tenantId jobId : Id) :
    Except Exc ReindexToolsResult → Serial ReindexJobs Exc Unit
  | .ok result => Serial.atomically (succeed tenantId jobId result self.finishedAt)
  | .error .cancelled => Serial.lift (.error .cancelled)
  | .error (.nexus cls _) => Serial.atomically (fail tenantId jobId cls.code self.finishedAt)
  | .error _ => Serial.atomically (fail tenantId jobId "internal_error" self.finishedAt)

def execute (self : RunToolSearchReindexJob) (tenantId jobId : Id) :
    Serial ReindexJobs Exc Unit := do
  match ← Serial.atomically (claim tenantId jobId self.startedAt) with
  | none => return ()
  | some job => self.finish tenantId jobId (self.reindexTools (reindexCommand job))

end RunToolSearchReindexJob

/-- What a process does to the jobs: a request creates one, a background task runs one, and
    the start of the application recovers the interrupted ones. -/
inductive ReindexJobCommand where
  | create (self : CreateToolSearchReindexJob) (context : ActorContext) (force : Bool)
      (batchSize : Int)
  | run (self : RunToolSearchReindexJob) (tenantId jobId : Id)
  | recoverInterrupted (tenantId : Id) (finishedAt : Time)

namespace ReindexJobCommand

abbrev Answer : ReindexJobCommand → Type
  | create _ _ _ _ => ToolSearchReindexJob
  | run _ _ _ => Unit
  | recoverInterrupted _ _ => Nat

def program : (command : ReindexJobCommand) → Serial ReindexJobs Exc command.Answer
  | create self context force batchSize => self.execute context force batchSize
  | run self tenantId jobId => self.execute tenantId jobId
  | recoverInterrupted tenantId finishedAt =>
    Serial.atomically (ToolSearchReindexJobStore.recoverInterrupted tenantId finishedAt)

end ReindexJobCommand

end NexusMcp
