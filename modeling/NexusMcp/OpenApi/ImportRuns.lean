-- SUMMARY: Imports that run concurrently and are interrupted, and the jobs and operations they leave.
import NexusMcp.OpenApi.Parser
import NexusMcp.Catalog.Runs
import NexusMcp.Txn.Interference

/-!
# Running Imports

An import owns its job from the transaction that adds it. The other imports leave the job and its
operations alone, so an import ends as it would alone, whatever interrupts its attempt.
-/

namespace NexusMcp

open CatalogM (lift orRaise)
open Txn (Serial SerialWorld Table Commit)

/-! ## Jobs and their operations -/

namespace CatalogTables

variable (c : CatalogTables)

def operationsOf (jobId : Id) : List ImportedOperation :=
  c.operations.rows.filter (·.importJobId = jobId)

/-- The row of a job, and its operations. -/
def importOf (jobId : Id) : Option OpenApiImportJob × List ImportedOperation :=
  (c.jobs.find? jobId, c.operationsOf jobId)

/-- The operations belong to jobs, and a job has operations when it is COMPLETED. -/
structure ImportsCoherent : Prop where
  owned : ∀ o ∈ c.operations, ∃ job ∈ c.jobs, o.importJobId = job.id
  completed : ∀ job ∈ c.jobs,
    (∃ o ∈ c.operations, o.importJobId = job.id) ↔ job.status = .completed

end CatalogTables

/-- What `ImportsCoherent` says of one job. -/
def ImportCoherent : Option OpenApiImportJob × List ImportedOperation → Prop
  | (none, operations) => operations = []
  | (some job, operations) => operations ≠ [] ↔ job.status = .completed

theorem operationsOf_ne_nil {c : CatalogTables} {jobId : Id} :
    c.operationsOf jobId ≠ [] ↔ ∃ o ∈ c.operations, o.importJobId = jobId := by
  unfold CatalogTables.operationsOf
  simp only [ne_eq, List.filter_eq_nil_iff, decide_eq_true_eq, not_forall, not_not, exists_prop]
  rfl

theorem importsCoherent_iff {c : CatalogTables} :
    c.ImportsCoherent ↔ ∀ jobId, ImportCoherent (c.importOf jobId) := by
  constructor
  · intro h jobId
    unfold CatalogTables.importOf
    cases hjob : c.jobs.find? jobId with
    | none =>
      by_contra hne
      -- An operation without a job: its job is there after all.
      obtain ⟨o, ho, hid⟩ := operationsOf_ne_nil.1 hne
      obtain ⟨job, hmem, hjobId⟩ := h.owned o ho
      exact Table.find?_eq_none.1 hjob job hmem (hjobId.symm.trans hid)
    | some job =>
      obtain ⟨hmem, rfl⟩ := Table.find?_eq_some.1 hjob
      exact operationsOf_ne_nil.trans (h.completed job hmem)
  · intro h
    constructor
    · intro o ho
      have hjob := h o.importJobId
      unfold CatalogTables.importOf at hjob
      cases hfind : c.jobs.find? o.importJobId with
      | none =>
        rw [hfind] at hjob
        exact absurd hjob (operationsOf_ne_nil.2 ⟨o, ho, rfl⟩)
      | some job =>
        obtain ⟨hmem, hid⟩ := Table.find?_eq_some.1 hfind
        exact ⟨job, hmem, hid.symm⟩
    · intro job hmem
      have hjob := h job.id
      unfold CatalogTables.importOf at hjob
      rw [Table.find?_of_mem hmem] at hjob
      exact operationsOf_ne_nil.symm.trans hjob

/-! ## What the transactions do -/

theorem saveJob_eq_ok {tenantId : Id} {job : OpenApiImportJob} {u : Unit} {c c' : CatalogTables} :
    saveJob tenantId job c = .ok (u, c') ↔ tenantId = job.tenantId ∧
      (∃ j, inTenant (·.tenantId) c.jobs tenantId job.id = some j) ∧
      c'.toCatalogRows = { c.toCatalogRows with jobs := replaceRow c.jobs job } := by
  simp [saveJob, CatalogM.bind_eq_ok, requireMatchingTenant_eq_ok, getJobForUpdate_eq_ok]

theorem addOperation_eq_ok {tenantId : Id} {operation : ImportedOperation} {u : Unit}
    {c c' : CatalogTables} : addOperation tenantId operation c = .ok (u, c') ↔
      tenantId = operation.tenantId ∧ c.operations.find? operation.id = none ∧
      c'.toCatalogRows =
        { c.toCatalogRows with operations := c.operations.insert operation } := by
  simp [addOperation, CatalogM.bind_eq_ok, requireMatchingTenant_eq_ok]

theorem addOperations_eq_ok {tenantId : Id} {operations : List ImportedOperation} {u : Unit}
    {c c' : CatalogTables} (h : addOperations tenantId operations c = .ok (u, c')) :
    c'.jobs = c.jobs ∧ c'.upstreams = c.upstreams ∧
      c'.operations.rows = c.operations.rows ++ operations := by
  induction operations generalizing c with
  | nil =>
    rw [addOperations, CatalogM.pure_eq_ok] at h
    obtain ⟨-, rfl⟩ := h
    exact ⟨rfl, rfl, (List.append_nil _).symm⟩
  | cons operation operations ih =>
    rw [addOperations, CatalogM.bind_eq_ok] at h
    obtain ⟨_, c₁, hadd, hrest⟩ := h
    obtain ⟨-, hfresh, hrows⟩ := addOperation_eq_ok.1 hadd
    obtain ⟨hjobs, hupstreams, hoperations⟩ := ih hrest
    rw [hjobs, hupstreams, hoperations, hrows]
    refine ⟨rfl, rfl, ?_⟩
    rw [Table.rows_insert hfresh, List.append_assoc]
    rfl

/-- A transaction of the import of a job: the row of the job and its operations become `after`,
    and nothing else that matters to an import changed. -/
structure Imports (jobId : Id) (after : Option OpenApiImportJob × List ImportedOperation)
    (c c' : CatalogTables) : Prop where
  own : c'.importOf jobId = after
  others : ∀ other, other ≠ jobId → c'.importOf other = c.importOf other
  upstreams : c'.upstreams = c.upstreams

theorem imports_of_insert {c c' : CatalogTables} {job : OpenApiImportJob}
    (hfresh : c.jobs.find? job.id = none)
    (h : c'.toCatalogRows = { c.toCatalogRows with jobs := c.jobs.insert job }) :
    Imports job.id (some job, c.operationsOf job.id) c c' := by
  refine ⟨?_, ?_, by rw [h]⟩
  · unfold CatalogTables.importOf CatalogTables.operationsOf
    rw [h, Table.find?_insert_self hfresh]
  · intro other hother
    unfold CatalogTables.importOf CatalogTables.operationsOf
    rw [h]
    dsimp only
    have hkept : (c.jobs.insert job).find? other = c.jobs.find? other :=
      Table.find?_insert_ne hother.symm
    rw [hkept]

/-- A job is saved after its operations were added. -/
theorem imports_of_replaceRow {c c' : CatalogTables} {job job' : OpenApiImportJob}
    {operations : List ImportedOperation} (hjob : c.jobs.find? job.id = some job)
    (hid : job'.id = job.id) (howned : ∀ o ∈ operations, o.importJobId = job.id)
    (hjobs : c'.jobs = replaceRow c.jobs job') (hupstreams : c'.upstreams = c.upstreams)
    (hoperations : c'.operations.rows = c.operations.rows ++ operations) :
    Imports job.id (some job', c.operationsOf job.id ++ operations) c c' := by
  refine ⟨?_, ?_, hupstreams⟩
  · unfold CatalogTables.importOf CatalogTables.operationsOf
    have hall : operations.filter (·.importJobId = job.id) = operations := by simpa using howned
    rw [hjobs, hoperations, List.filter_append, hall, replaceRow, hid,
      Table.find?_modify_self hjob hid]
  · intro other hother
    unfold CatalogTables.importOf CatalogTables.operationsOf
    have hnone : operations.filter (·.importJobId = other) = [] := by
      rw [List.filter_eq_nil_iff]
      intro o ho
      simpa [howned o ho] using hother.symm
    rw [hjobs, hoperations, List.filter_append, hnone, List.append_nil, replaceRow, hid,
      Table.find?_modify_ne hother]

/-! ### The four transactions -/

namespace OpenApiImportJob

variable {job job' : OpenApiImportJob}

theorem startParsing_eq_ok (h : job.startParsing = .ok job') :
    job.status = .validating ∧ job' = { job with status := .parsing } := by
  simp only [startParsing, raiseIf_bind_eq_ok, ne_eq, not_not] at h
  obtain ⟨hstatus, h⟩ := h
  cases h
  exact ⟨hstatus, rfl⟩

theorem complete_eq_ok {openapiVersion : String} {completedAt : Time}
    (h : job.complete openapiVersion completedAt = .ok job') :
    job.status = .parsing ∧ job'.id = job.id ∧ job'.status = .completed := by
  simp only [complete, raiseIf_bind_eq_ok, ne_eq, not_not] at h
  obtain ⟨hstatus, h⟩ := h
  cases h
  exact ⟨hstatus, rfl, rfl⟩

theorem fail_eq_ok {errorSummary : String} {completedAt : Time}
    (h : job.fail errorSummary completedAt = .ok job') :
    job'.id = job.id ∧ job'.status = .failed := by
  simp only [fail, raiseIf_bind_eq_ok] at h
  obtain ⟨-, h⟩ := h
  cases h
  exact ⟨rfl, rfl⟩

end OpenApiImportJob

section

variable {self : ImportOpenApi} {command : ImportOpenApiCommand} {document : OpenApiDocument}
variable {c c' : CatalogTables} {tenantId jobId : Id} {u : Unit}

theorem begin_eq_ok {job : OpenApiImportJob} {namespaceName : String}
    (h : self.begin command document c = .ok ((job, namespaceName), c')) :
    (job.id = self.jobId ∧ job.tenantId = command.context.tenantId ∧
        job.upstreamServiceId = command.upstreamServiceId ∧ job.status = .validating) ∧
      (∃ upstream ∈ c.upstreams, upstream.val.id = command.upstreamServiceId ∧
        upstream.val.namespaceName = namespaceName) ∧
      c.jobs.find? self.jobId = none ∧
      Imports self.jobId (some job, c.operationsOf self.jobId) c c' := by
  simp only [ImportOpenApi.begin, CatalogM.bind_eq_ok, getUpstreamForUpdate_eq_ok,
    CatalogM.orRaise_eq_ok, CatalogM.raiseIf_eq_ok, CatalogM.lift_eq_ok, addJob,
    requireMatchingTenant_eq_ok, requireFreshKey_eq_ok, update_eq_ok, CatalogM.pure_eq_ok,
    OpenApiImportJob.startValidation, raiseIf_bind_eq_ok] at h
  obtain ⟨_, _, ⟨rfl, rfl⟩, upstream, _, ⟨hupstream, rfl⟩, _, _, ⟨-, rfl⟩, started, _,
    ⟨⟨-, hstarted⟩, rfl⟩, _, _, ⟨_, _, ⟨-, rfl⟩, _, _, ⟨hfresh, rfl⟩, hrows⟩, hresult, rfl⟩ := h
  obtain ⟨hmem, hid, -⟩ := inTenant_eq_some.1 hupstream
  cases hstarted
  cases hresult
  exact ⟨⟨rfl, rfl, hid, rfl⟩, ⟨upstream, hmem, hid, rfl⟩, hfresh, imports_of_insert hfresh hrows⟩

theorem getJob_eq_some {job : OpenApiImportJob} :
    inTenant (·.tenantId) c.jobs tenantId jobId = some job ↔
      c.jobs.find? jobId = some job ∧ job.tenantId = tenantId := by
  rw [inTenant_eq_some, Table.find?_eq_some, and_assoc]

/-- A job is saved in another state. -/
theorem saveJob_imports {job job' : OpenApiImportJob} {operations : List ImportedOperation}
    {c₁ : CatalogTables} (hjob : c.jobs.find? jobId = some job) (hid : job'.id = job.id)
    (howned : ∀ o ∈ operations, o.importJobId = jobId)
    (hadd : c₁.jobs = c.jobs ∧ c₁.upstreams = c.upstreams ∧
      c₁.operations.rows = c.operations.rows ++ operations)
    (h : saveJob tenantId job' c₁ = .ok (u, c')) :
    Imports jobId (some job', c.operationsOf jobId ++ operations) c c' := by
  obtain rfl := Table.key_of_find? hjob
  obtain ⟨-, -, hrows⟩ := saveJob_eq_ok.1 h
  obtain ⟨hjobs, hupstreams, hoperations⟩ := hadd
  apply imports_of_replaceRow hjob hid howned
  · rw [hrows, ← hjobs]
  · rw [hrows, ← hupstreams]
  · rw [hrows, ← hoperations]

theorem markParsing_eq_ok (h : ImportOpenApi.markParsing tenantId jobId c = .ok (u, c')) :
    ∃ job, c.jobs.find? jobId = some job ∧ job.status = .validating ∧
      Imports jobId (some { job with status := .parsing }, c.operationsOf jobId) c c' := by
  simp only [ImportOpenApi.markParsing, CatalogM.bind_eq_ok, getJobForUpdate_eq_ok,
    CatalogM.orRaise_eq_ok, CatalogM.lift_eq_ok] at h
  obtain ⟨_, _, ⟨rfl, rfl⟩, job, _, ⟨hjob, rfl⟩, job', _, ⟨hparsing, rfl⟩, hsave⟩ := h
  obtain ⟨hstatus, rfl⟩ := OpenApiImportJob.startParsing_eq_ok hparsing
  obtain ⟨hfind, -⟩ := getJob_eq_some.1 hjob
  refine ⟨job, hfind, hstatus, ?_⟩
  have hid : ({ job with status := .parsing } : OpenApiImportJob).id = job.id := rfl
  have himports := saveJob_imports hfind hid (List.forall_mem_nil _)
    ⟨rfl, rfl, (List.append_nil _).symm⟩ hsave
  rwa [List.append_nil] at himports

theorem completeJob_eq_ok {parsed : ParsedOpenApiDocument} {operations : List ImportedOperation}
    (howned : ∀ o ∈ operations, o.importJobId = jobId)
    (h : self.completeJob tenantId jobId parsed operations c = .ok (u, c')) :
    ∃ job job', c.jobs.find? jobId = some job ∧ job.status = .parsing ∧ job'.id = job.id ∧
      job'.status = .completed ∧
      Imports jobId (some job', c.operationsOf jobId ++ operations) c c' := by
  simp only [ImportOpenApi.completeJob, CatalogM.bind_eq_ok, getJobForUpdate_eq_ok,
    CatalogM.orRaise_eq_ok, CatalogM.lift_eq_ok] at h
  obtain ⟨_, _, ⟨rfl, rfl⟩, job, _, ⟨hjob, rfl⟩, _, c₁, hadd, job', _, ⟨hcompleted, rfl⟩,
    hsave⟩ := h
  obtain ⟨hparsing, hid, hstatus⟩ := OpenApiImportJob.complete_eq_ok hcompleted
  obtain ⟨hfind, -⟩ := getJob_eq_some.1 hjob
  refine ⟨job, job', hfind, hparsing, hid, hstatus, ?_⟩
  exact saveJob_imports hfind hid howned (addOperations_eq_ok hadd) hsave

theorem failJob_eq_ok {summary : String}
    (h : self.failJob tenantId jobId summary c = .ok (u, c')) :
    c' = c ∨ ∃ job job', c.jobs.find? jobId = some job ∧ job.status ≠ .completed ∧
      job.status ≠ .failed ∧ job'.status = .failed ∧
      Imports jobId (some job', c.operationsOf jobId) c c' := by
  simp only [ImportOpenApi.failJob, CatalogM.bind_eq_ok, getJobForUpdate_eq_ok] at h
  obtain ⟨found, _, ⟨hfound, rfl⟩, h⟩ := h
  cases found with
  | none =>
    rw [CatalogM.pure_eq_ok] at h
    exact .inl h.2.symm
  | some job =>
    dsimp only at h
    split at h
    · rw [CatalogM.pure_eq_ok] at h
      exact .inl h.2.symm
    · next hstatus =>
      simp only [CatalogM.bind_eq_ok, CatalogM.lift_eq_ok] at h
      obtain ⟨job', _, ⟨hfail, rfl⟩, hsave⟩ := h
      obtain ⟨hid, hfailed⟩ := OpenApiImportJob.fail_eq_ok hfail
      obtain ⟨hfind, -⟩ := getJob_eq_some.1 hfound.symm
      rw [not_or] at hstatus
      right
      refine ⟨job, job', hfind, hstatus.1, hstatus.2, hfailed, ?_⟩
      have himports := saveJob_imports hfind hid (List.forall_mem_nil _)
        ⟨rfl, rfl, (List.append_nil _).symm⟩ hsave
      rwa [List.append_nil] at himports

/-- The job of an import that has not ended is failed: nothing stops that. -/
theorem failJob_fails {summary : String} {job : OpenApiImportJob}
    (hjob : c.jobs.find? jobId = some job) (htenant : job.tenantId = tenantId)
    (hcompleted : job.status ≠ .completed) (hfailed : job.status ≠ .failed) :
    ∃ c' job', self.failJob tenantId jobId summary c = .ok ((), c') ∧ job'.status = .failed ∧
      Imports jobId (some job', c.operationsOf jobId) c c' := by
  subst htenant
  obtain rfl := Table.key_of_find? hjob
  have hfound : inTenant (·.tenantId) c.jobs job.tenantId job.id = some job :=
    getJob_eq_some.2 ⟨hjob, rfl⟩
  let failed : OpenApiImportJob := { job with
    status := .failed
    errorSummary := some summary
    completedAt := some self.failedAt }
  obtain ⟨htoolNames, hversionNumbers, honePublished, honeBinding⟩ := c.unique
  let c' : CatalogTables := ⟨{ c.toCatalogRows with jobs := replaceRow c.jobs failed },
    htoolNames, hversionNumbers, honePublished, honeBinding⟩
  refine ⟨c', failed, ?_, rfl, ?_⟩
  · simp only [ImportOpenApi.failJob, CatalogM.bind_eq_ok, getJobForUpdate_eq_ok]
    refine ⟨_, _, ⟨rfl, rfl⟩, ?_⟩
    rw [hfound]
    dsimp only
    rw [if_neg (not_or.2 ⟨hcompleted, hfailed⟩)]
    simp only [CatalogM.bind_eq_ok, CatalogM.lift_eq_ok, OpenApiImportJob.fail,
      raiseIf_bind_eq_ok, saveJob_eq_ok]
    exact ⟨_, _, ⟨⟨not_or.2 ⟨hcompleted, hfailed⟩, rfl⟩, rfl⟩, rfl, ⟨job, hfound⟩, rfl⟩
  · have himports : Imports job.id (some failed, c.operationsOf job.id ++ []) c c' :=
      imports_of_replaceRow hjob rfl (List.forall_mem_nil _) rfl rfl (List.append_nil _).symm
    rwa [List.append_nil] at himports

end

/-! ### The errors that they raise -/

/-- What the transaction raises is an `Exception`: it is no cancellation. -/
def CatalogM.RaisesException {α : Type} (x : CatalogM α) : Prop :=
  ∀ c e, x c = .error e → e ≠ .cancelled

namespace CatalogM.RaisesException

variable {α β : Type}

theorem read {f : CatalogTables → α} : (CatalogM.read f).RaisesException :=
  fun _ _ h => nomatch h

theorem lift {x : Except Exc α} (hx : ∀ e, x = .error e → e ≠ .cancelled) :
    (CatalogM.lift x).RaisesException := by
  intro c e h
  cases x with
  | ok a => cases h
  | error e' =>
    cases h
    exact hx _ rfl

theorem orRaise {x : Option α} {e : Exc} (he : e ≠ .cancelled) :
    (CatalogM.orRaise x e).RaisesException := by
  apply lift
  intro e' h
  cases x with
  | some a => cases h
  | none =>
    cases h
    exact he

theorem raiseIf {p : Prop} [Decidable p] {e : Exc} (he : e ≠ .cancelled) :
    (CatalogM.raiseIf p e).RaisesException := by
  apply lift
  intro e' h
  rw [raiseIf_eq_error] at h
  rw [h.2]
  exact he

theorem bind {x : CatalogM α} {f : α → CatalogM β} (hx : x.RaisesException)
    (hf : ∀ a, (f a).RaisesException) : (x >>= f).RaisesException := by
  intro c e h
  change CatalogM.bind x f c = _ at h
  unfold CatalogM.bind at h
  split at h
  · next a c' _ => exact hf a c' e h
  · next e' hx' =>
    cases h
    exact hx c e hx'

theorem update {f : CatalogRows → CatalogRows} : (NexusMcp.update f).RaisesException := by
  refine bind read fun rows => ?_
  intro c e h
  unfold CatalogM.flush at h
  split at h
  · cases h
  · cases h
    exact Exc.noConfusion

theorem saveJob {tenantId : Id} {job : OpenApiImportJob} :
    (NexusMcp.saveJob tenantId job).RaisesException :=
  bind (raiseIf nofun) fun _ => bind read fun _ => bind (orRaise nofun) fun _ => update

theorem addOperations {tenantId : Id} {operations : List ImportedOperation} :
    (NexusMcp.addOperations tenantId operations).RaisesException := by
  induction operations with
  | nil => exact fun _ _ h => nomatch h
  | cons operation operations ih =>
    have hfresh : (requireFreshKey (·.operations) operation.id).RaisesException :=
      bind read fun _ => raiseIf nofun
    exact bind (bind (raiseIf nofun) fun _ => bind hfresh fun _ => update) fun _ => ih

theorem valueErrorIf {p : Prop} [Decidable p] {message : String} {f : Unit → Except Exc α}
    (hf : ∀ e, f () = .error e → e ≠ .cancelled) :
    ∀ e, (NexusMcp.valueErrorIf p message >>= f) = .error e → e ≠ .cancelled := by
  intro e h
  rw [raiseIf_bind_eq_error] at h
  rcases h with ⟨-, rfl⟩ | ⟨-, h⟩
  · exact nofun
  · exact hf e h

theorem markParsing {tenantId jobId : Id} :
    (ImportOpenApi.markParsing tenantId jobId).RaisesException :=
  bind read fun _ => bind (orRaise nofun) fun _ =>
    bind (lift (valueErrorIf nofun)) fun _ => saveJob

theorem completeJob {self : ImportOpenApi} {tenantId jobId : Id} {parsed : ParsedOpenApiDocument}
    {operations : List ImportedOperation} :
    (self.completeJob tenantId jobId parsed operations).RaisesException :=
  bind read fun _ => bind (orRaise nofun) fun _ => bind addOperations fun _ =>
    bind (lift (valueErrorIf nofun)) fun _ => saveJob

end CatalogM.RaisesException

/-! ## Interrupted imports -/

/-- `execute`, with `attempt` in the place of what may fail the job. -/
def ImportOpenApi.executeWith (self : ImportOpenApi) (command : ImportOpenApiCommand)
    (attempt : OpenApiDocument → OpenApiImportJob → String →
      Serial CatalogTables Exc (List ImportedOperation)) :
    Serial CatalogTables Exc ImportOpenApiResult := do
  let document ← Serial.lift (self.documentReader command.sourceRef)
  let (job, namespaceName) ← Serial.atomically (self.begin command document)
  let operations ← (attempt document job namespaceName).tryCatch
    (self.failWith command.context.tenantId self.jobId)
  return {
    importJobId := self.jobId
    operationIds := operations.map (·.id)
    conflictCount := operations.countP (·.conflictStatus ≠ .none) }

theorem ImportOpenApi.execute_eq (self : ImportOpenApi) (command : ImportOpenApiCommand) :
    self.execute command = self.executeWith command (self.parseAndComplete command) := rfl

/-- An import that any `Exception` may stop: in the parser, or in the place of a transaction after
    the job was added. One that is raised between two transactions counts as raised in the place
    of the second. -/
structure ImportProcess where
  self : ImportOpenApi
  command : ImportOpenApiCommand
  attempt : OpenApiDocument → OpenApiImportJob → String →
    Serial CatalogTables Exc (List ImportedOperation)
  parses : ∀ document namespaceName operationAllowlist parsed,
    self.parser document namespaceName operationAllowlist = .ok parsed →
      OpenApiParser.parse document namespaceName operationAllowlist = .ok parsed
  parserRaises : ∀ document namespaceName operationAllowlist e,
    self.parser document namespaceName operationAllowlist = .error e → e ≠ .cancelled
  interrupted : ∀ document job namespaceName,
    (self.parseAndComplete command document job namespaceName).Interrupted (· ≠ .cancelled)
      (attempt document job namespaceName)

namespace ImportProcess

variable (x : ImportProcess)

abbrev jobId : Id := x.self.jobId

abbrev tenantId : Id := x.command.context.tenantId

def program : Serial CatalogTables Exc ImportOpenApiResult :=
  x.self.executeWith x.command x.attempt

end ImportProcess

/-- What an import makes of its job and the operations of it, once it has added the job. -/
inductive ImportMove : Option OpenApiImportJob × List ImportedOperation →
    Option OpenApiImportJob × List ImportedOperation → Prop where
  | same {row : Option OpenApiImportJob × List ImportedOperation} : ImportMove row row
  | parsing {job : OpenApiImportJob} {operations : List ImportedOperation}
      (hvalidating : job.status = .validating) :
      ImportMove (some job, operations) (some { job with status := .parsing }, operations)
  | completed {job job' : OpenApiImportJob} {operations added : List ImportedOperation}
      (hparsing : job.status = .parsing) (hcompleted : job'.status = .completed)
      (hadded : added ≠ []) : ImportMove (some job, operations) (some job', operations ++ added)
  | failed {job job' : OpenApiImportJob} {operations : List ImportedOperation}
      (hnotCompleted : job.status ≠ .completed) (hnotFailed : job.status ≠ .failed)
      (hfailed : job'.status = .failed) : ImportMove (some job, operations) (some job', operations)

/-- What a transaction of an import does, given what the import has done before it. -/
inductive ImportStep (jobId : Id) : List (CatalogTables × CatalogTables) → CatalogTables →
    CatalogTables → Prop where
  | begun {seen : List (CatalogTables × CatalogTables)} {c c' : CatalogTables}
      {job : OpenApiImportJob} (hseen : seen = []) (hfresh : c.jobs.find? jobId = none)
      (hvalidating : job.status = .validating)
      (h : Imports jobId (some job, c.operationsOf jobId) c c') : ImportStep jobId seen c c'
  | moved {seen : List (CatalogTables × CatalogTables)} {c c' : CatalogTables} (hseen : seen ≠ [])
      (hmove : ImportMove (c.importOf jobId) (c'.importOf jobId))
      (h : Imports jobId (c'.importOf jobId) c c') : ImportStep jobId seen c c'

section Follows

variable {x : ImportProcess} {seen : List (CatalogTables × CatalogTables)}

theorem Imports.move {jobId : Id} {c c' : CatalogTables}
    {after : Option OpenApiImportJob × List ImportedOperation} (h : Imports jobId after c c')
    (hmove : ImportMove (c.importOf jobId) after) (hseen : seen ≠ []) :
    ImportStep jobId seen c c' := by
  obtain ⟨rfl, hothers, hupstreams⟩ := h
  exact .moved hseen hmove ⟨rfl, hothers, hupstreams⟩

theorem importOf_of_find? {c : CatalogTables} {jobId : Id} {job : OpenApiImportJob}
    (h : c.jobs.find? jobId = some job) : c.importOf jobId = (some job, c.operationsOf jobId) := by
  rw [CatalogTables.importOf, h]

theorem buildOperations_owned {self : ImportOpenApi} {tenantId : Id} {job : OpenApiImportJob}
    {parsed : ParsedOpenApiDocument} :
    ∀ o ∈ self.buildOperations tenantId job parsed, o.importJobId = job.id := by
  intro o ho
  obtain ⟨i, hi, rfl⟩ := List.mem_mapIdx.1 ho
  rfl

theorem buildOperations_ne_nil {self : ImportOpenApi} {tenantId : Id} {job : OpenApiImportJob}
    {parsed : ParsedOpenApiDocument} (h : parsed.operations ≠ []) :
    self.buildOperations tenantId job parsed ≠ [] := by
  simpa [ImportOpenApi.buildOperations] using h

theorem failJob_step {summary : String} {u : Unit} {c c' : CatalogTables}
    (h : x.self.failJob x.tenantId x.jobId summary c = .ok (u, c')) (hseen : seen ≠ []) :
    ImportStep x.jobId seen c c' := by
  rcases failJob_eq_ok h with rfl | ⟨job, job', hjob, hcompleted, hfailed, hstatus, himports⟩
  · exact .moved hseen .same ⟨rfl, fun _ _ => rfl, rfl⟩
  · apply himports.move _ hseen
    rw [importOf_of_find? hjob]
    exact .failed hcompleted hfailed hstatus

theorem failWith_follows {α : Type} (e : Exc) (hseen : seen ≠ []) :
    (x.self.failWith x.tenantId x.jobId e : Serial CatalogTables Exc α).Follows
      (ImportStep x.jobId) seen := by
  unfold ImportOpenApi.failWith
  split
  · rw [Serial.follows_atomically_bind]
    intro c _ c' h
    exact ⟨failJob_step h hseen, trivial⟩
  · trivial
  · rw [Serial.follows_atomically_bind]
    intro c _ c' h
    exact ⟨failJob_step h hseen, trivial⟩

theorem parseAndComplete_follows {document : OpenApiDocument} {job : OpenApiImportJob}
    {namespaceName : String} (hid : job.id = x.jobId) (hseen : seen ≠ []) :
    (x.self.parseAndComplete x.command document job namespaceName).Follows
      (ImportStep x.jobId) seen := by
  unfold ImportOpenApi.parseAndComplete
  rw [Serial.follows_atomically_bind]
  intro c _ c' hparsing
  obtain ⟨job₁, hjob, hvalidating, himports⟩ := markParsing_eq_ok hparsing
  constructor
  · apply himports.move _ hseen
    rw [importOf_of_find? hjob]
    exact .parsing hvalidating
  rw [Serial.follows_lift_bind]
  intro parsed hparsed
  rw [Serial.follows_atomically_bind]
  intro c₂ _ c₂' hcomplete
  obtain ⟨job₂, job₂', hjob, hstatus, -, hcompleted, himports⟩ :=
    completeJob_eq_ok (fun o ho => (buildOperations_owned o ho).trans hid) hcomplete
  refine ⟨?_, trivial⟩
  apply himports.move _ (List.cons_ne_nil _ _)
  rw [importOf_of_find? hjob]
  apply ImportMove.completed hstatus hcompleted
  exact buildOperations_ne_nil (OpenApiParser.parse_ne_nil (x.parses _ _ _ _ hparsed))

theorem program_follows (x : ImportProcess) : x.program.Follows (ImportStep x.jobId) [] := by
  unfold ImportProcess.program ImportOpenApi.executeWith
  rw [Serial.follows_lift_bind]
  intro document _
  rw [Serial.follows_atomically_bind]
  rintro c ⟨job, namespaceName⟩ c' hbegin
  obtain ⟨⟨hid, -, -, hvalidating⟩, -, hfresh, himports⟩ := begin_eq_ok hbegin
  refine ⟨.begun rfl hfresh hvalidating himports, ?_⟩
  refine Serial.Follows.bind ?_ fun _ _ => trivial
  apply Serial.Follows.tryCatch
  · exact (x.interrupted _ _ _).follows (parseAndComplete_follows hid (List.cons_ne_nil _ _))
  · intro seen' e
    exact failWith_follows e (List.append_ne_nil_of_right_ne_nil _ (List.cons_ne_nil _ _))

end Follows

/-! ## Whole runs -/

namespace ImportJobStatus

/-- The moves of a stored status. -/
inductive Moves : ImportJobStatus → ImportJobStatus → Prop where
  | parsing : Moves .validating .parsing
  | completed : Moves .parsing .completed
  | failedValidating : Moves .validating .failed
  | failedParsing : Moves .parsing .failed

def IsTerminal (status : ImportJobStatus) : Prop := status = .completed ∨ status = .failed

end ImportJobStatus

section Runs

variable {Pid : Type} [DecidableEq Pid] {processes : Pid → ImportProcess}

open Txn.SerialWorld

/-- What the state machine says of the row of a job and its operations before and after a
    commit. -/
structure ImportRowSound (row row' : Option OpenApiImportJob × List ImportedOperation) : Prop where
  created : ∀ job, row.1 = none → row'.1 = some job → job.status = .validating
  moves : ∀ job, row.1 = some job → ∃ job', row'.1 = some job' ∧
    (job'.status = job.status ∨ job.status.Moves job'.status)
  /-- Neither a terminal job nor its operations change. -/
  terminal : ∀ job, row.1 = some job → job.status.IsTerminal → row' = row

/-- What holds of the jobs after the commits of a run. -/
structure ImportRunState (processes : Pid → ImportProcess)
    (commits : List (Commit CatalogTables Pid)) (c : CatalogTables) : Prop where
  coherent : ∀ jobId, ImportCoherent (c.importOf jobId)
  /-- A process that has committed has added its job, and it is not PENDING. -/
  begun : ∀ p, seenBy commits p ≠ [] →
    ∃ job, c.jobs.find? (processes p).jobId = some job ∧ job.status ≠ .pending
  owner : ∀ p q, seenBy commits p ≠ [] → seenBy commits q ≠ [] →
    (processes p).jobId = (processes q).jobId → p = q

theorem ImportCoherent.step {jobId : Id} {seen : List (CatalogTables × CatalogTables)}
    {c c' : CatalogTables} (h : ∀ other, ImportCoherent (c.importOf other))
    (hstep : ImportStep jobId seen c c') (other : Id) : ImportCoherent (c'.importOf other) := by
  have hown := h jobId
  cases hstep with
  | @begun job hseen hfresh hvalidating himports =>
    by_cases hother : other = jobId
    · subst hother
      unfold CatalogTables.importOf at hown
      rw [hfresh] at hown
      rw [himports.own, show c.operationsOf other = [] from hown]
      simp [ImportCoherent, hvalidating]
    · rw [himports.others other hother]
      exact h other
  | moved hseen hmove himports =>
    by_cases hother : other = jobId
    · subst hother
      generalize c.importOf other = before at hmove hown
      generalize c'.importOf other = after at hmove ⊢
      cases hmove with
      | same => exact hown
      | parsing hvalidating =>
        simp only [ImportCoherent, hvalidating] at hown ⊢
        simpa using hown
      | completed hparsing hcompleted hadded =>
        simp [ImportCoherent, hcompleted, hadded]
      | failed hnotCompleted hnotFailed hfailed =>
        simp only [ImportCoherent, hnotCompleted, hfailed] at hown ⊢
        simpa using hown
    · rw [himports.others other hother]
      exact h other

/-- The job of a process is in the store after its transaction, and not PENDING. -/
theorem ImportStep.begun_after {jobId : Id} {seen : List (CatalogTables × CatalogTables)}
    {c c' : CatalogTables} (hstep : ImportStep jobId seen c c')
    (h : seen ≠ [] → ∃ job, c.jobs.find? jobId = some job ∧ job.status ≠ .pending) :
    ∃ job, c'.jobs.find? jobId = some job ∧ job.status ≠ .pending := by
  cases hstep with
  | @begun job hseen hfresh hvalidating himports =>
    refine ⟨job, congrArg Prod.fst himports.own, ?_⟩
    rw [hvalidating]
    exact nofun
  | moved hseen hmove himports =>
    obtain ⟨job, hjob, hpending⟩ := h hseen
    rw [importOf_of_find? hjob] at hmove
    have hfind : c'.jobs.find? jobId = (c'.importOf jobId).1 := rfl
    rw [hfind]
    generalize c'.importOf jobId = after at hmove
    cases hmove with
    | same => exact ⟨job, rfl, hpending⟩
    | parsing hvalidating => exact ⟨_, rfl, nofun⟩
    | @completed _ job' _ _ hparsing hcompleted hadded =>
      refine ⟨job', rfl, ?_⟩
      rw [hcompleted]
      exact nofun
    | @failed _ job' _ hnotCompleted hnotFailed hfailed =>
      refine ⟨job', rfl, ?_⟩
      rw [hfailed]
      exact nofun

/-- The others leave the import of a process alone once it has begun. -/
theorem ImportRunState.respects {earlier : List (Commit CatalogTables Pid)}
    {x : Commit CatalogTables Pid} (h : ImportRunState processes earlier x.before)
    (hstep : ImportStep (processes x.pid).jobId (seenBy earlier x.pid) x.before x.after) {p : Pid}
    (hp : p ≠ x.pid) (hbegun : seenBy earlier p ≠ []) :
    x.after.importOf (processes p).jobId = x.before.importOf (processes p).jobId := by
  by_cases hid : (processes p).jobId = (processes x.pid).jobId
  · cases hstep with
    | begun _ hfresh _ _ =>
      obtain ⟨job, hjob, -⟩ := h.begun p hbegun
      rw [hid] at hjob
      rw [hjob] at hfresh
      cases hfresh
    | moved hseen _ _ => exact absurd (h.owner p x.pid hbegun hseen hid) hp
  · cases hstep with
    | begun _ _ _ himports => exact himports.others _ hid
    | moved _ _ himports => exact himports.others _ hid

theorem ImportRunState.step {earlier : List (Commit CatalogTables Pid)}
    {x : Commit CatalogTables Pid} (h : ImportRunState processes earlier x.before)
    (hstep : ImportStep (processes x.pid).jobId (seenBy earlier x.pid) x.before x.after) :
    ImportRunState processes (x :: earlier) x.after := by
  have hself := hstep.begun_after (h.begun x.pid)
  -- A process that had begun before has another job than one that begins now.
  have howner : ∀ p, p ≠ x.pid → seenBy earlier p ≠ [] →
      (processes p).jobId ≠ (processes x.pid).jobId := by
    intro p hp hbegun hid
    cases hstep with
    | begun _ hfresh _ _ =>
      obtain ⟨job, hjob, -⟩ := h.begun p hbegun
      rw [hid] at hjob
      rw [hjob] at hfresh
      cases hfresh
    | moved hseen _ _ => exact hp (h.owner p x.pid hbegun hseen hid)
  refine ⟨ImportCoherent.step h.coherent hstep, ?_, ?_⟩
  · intro p hbegun
    by_cases hp : p = x.pid
    · subst hp
      exact hself
    · rw [seenBy_cons_of_ne hp] at hbegun
      obtain ⟨job, hjob, hpending⟩ := h.begun p hbegun
      have hsame := congrArg Prod.fst (h.respects hstep hp hbegun)
      exact ⟨job, hsame.trans hjob, hpending⟩
  · intro p q hbegunP hbegunQ hid
    by_cases hp : p = x.pid
    · by_cases hq : q = x.pid
      · exact hp.trans hq.symm
      · rw [seenBy_cons_of_ne hq] at hbegunQ
        exact absurd (hp ▸ hid.symm) (howner q hq hbegunQ)
    · rw [seenBy_cons_of_ne hp] at hbegunP
      by_cases hq : q = x.pid
      · exact absurd (hq ▸ hid) (howner p hp hbegunP)
      · rw [seenBy_cons_of_ne hq] at hbegunQ
        exact h.owner p q hbegunP hbegunQ hid

theorem ImportRowSound.same {row : Option OpenApiImportJob × List ImportedOperation} :
    ImportRowSound row row where
  created := fun _ hnone hsome => nomatch hnone.symm.trans hsome
  moves := fun job hjob => ⟨job, hjob, .inl rfl⟩
  terminal := fun _ _ _ => rfl

theorem ImportMove.sound {row row' : Option OpenApiImportJob × List ImportedOperation}
    (hmove : ImportMove row row') (hpending : ∀ job, row.1 = some job → job.status ≠ .pending) :
    ImportRowSound row row' := by
  -- A terminal job does not move, so a move says all there is to say.
  have of_moves {job job' : OpenApiImportJob} {operations operations' : List ImportedOperation}
      (hmoves : job.status.Moves job'.status) :
      ImportRowSound (some job, operations) (some job', operations') := by
    refine ⟨nofun, ?_, ?_⟩
    · rintro _ ⟨⟩
      exact ⟨job', rfl, .inr hmoves⟩
    · rintro _ ⟨⟩ hterminal
      rcases hterminal with hterminal | hterminal <;> rw [hterminal] at hmoves <;> cases hmoves
  cases hmove with
  | same => exact .same
  | parsing hvalidating =>
    apply of_moves
    rw [hvalidating]
    exact .parsing
  | completed hparsing hcompleted hadded =>
    apply of_moves
    rw [hparsing, hcompleted]
    exact .completed
  | @failed job _ _ hnotCompleted hnotFailed hfailed =>
    apply of_moves
    rw [hfailed]
    cases hstatus : job.status with
    -- No job is stored while it is pending: the import starts to validate it first.
    | pending => exact absurd hstatus (hpending job rfl)
    | validating => exact .failedValidating
    | parsing => exact .failedParsing
    | completed => exact absurd hstatus hnotCompleted
    | failed => exact absurd hstatus hnotFailed

theorem ImportRunState.sound {earlier : List (Commit CatalogTables Pid)}
    {x : Commit CatalogTables Pid} (h : ImportRunState processes earlier x.before)
    (hstep : ImportStep (processes x.pid).jobId (seenBy earlier x.pid) x.before x.after)
    (jobId : Id) : ImportRowSound (x.before.importOf jobId) (x.after.importOf jobId) := by
  by_cases hid : jobId = (processes x.pid).jobId
  · subst hid
    cases hstep with
    | @begun job hseen hfresh hvalidating himports =>
      rw [himports.own, CatalogTables.importOf, hfresh]
      refine ⟨?_, nofun, nofun⟩
      rintro _ - ⟨⟩
      exact hvalidating
    | moved hseen hmove himports =>
      apply hmove.sound
      intro job hjob
      obtain ⟨job', hjob', hpending⟩ := h.begun x.pid hseen
      cases hjob.symm.trans hjob'
      exact hpending
  · have hothers : x.after.importOf jobId = x.before.importOf jobId := by
      cases hstep with
      | begun _ _ _ himports => exact himports.others _ hid
      | moved _ _ himports => exact himports.others _ hid
    rw [hothers]
    exact .same

end Runs

/-! ## How an import ends -/

/-- The others change no upstream, keep the jobs coherent, and leave a job alone once its import
    has begun. -/
structure LeavesAlone (jobId : Id) (seen : List (CatalogTables × CatalogTables))
    (c c' : CatalogTables) : Prop where
  upstreams : c'.upstreams = c.upstreams
  coherent : ImportCoherent (c.importOf jobId) → ImportCoherent (c'.importOf jobId)
  own : seen ≠ [] → c'.importOf jobId = c.importOf jobId

def importRely (jobId : Id) : Serial.Rely CatalogTables where
  rel := LeavesAlone jobId
  refl _ _ := ⟨rfl, id, fun _ => rfl⟩
  trans _ _ _ _ h h' := ⟨h'.upstreams.trans h.upstreams, fun hc => h'.coherent (h.coherent hc),
    fun hseen => (h'.own hseen).trans (h.own hseen)⟩

/-- The job is COMPLETED, and its operations are built from those that the parser produced for the
    document and the namespace of the upstream. -/
structure ImportCompleted (x : ImportProcess) (result : ImportOpenApiResult)
    (c : CatalogTables) : Prop where
  parsed : ∃ document upstream parsed job row,
    x.self.documentReader x.command.sourceRef = .ok document ∧
    (upstream ∈ c.upstreams ∧ upstream.val.id = x.command.upstreamServiceId) ∧
    OpenApiParser.parse document.content upstream.val.namespaceName x.command.operationAllowlist =
      .ok parsed ∧
    (job.id = x.jobId ∧ job.upstreamServiceId = x.command.upstreamServiceId) ∧
    (c.jobs.find? x.jobId = some row ∧ row.status = .completed) ∧
    c.operationsOf x.jobId = x.self.buildOperations x.tenantId job parsed
  jobId : result.importJobId = x.jobId
  operationIds : result.operationIds = (c.operationsOf x.jobId).map (·.id)

/-- The job is FAILED and has no operation. -/
def ImportFailed (x : ImportProcess) (c : CatalogTables) : Prop :=
  ∃ job, c.jobs.find? x.jobId = some job ∧ job.status = .failed ∧ c.operationsOf x.jobId = []

/-- The job of the import is in the store, in some status, without operations. -/
structure ImportOpen (x : ImportProcess) (namespaceName : String) (status : ImportJobStatus)
    (c : CatalogTables) : Prop where
  row : ∃ job, c.importOf x.jobId = (some job, []) ∧ job.tenantId = x.tenantId ∧
    job.status = status
  upstream : ∃ upstream ∈ c.upstreams, upstream.val.id = x.command.upstreamServiceId ∧
    upstream.val.namespaceName = namespaceName

/-- How the attempt of an import ends. -/
def AttemptEnded (x : ImportProcess) (document : OpenApiDocument) (job : OpenApiImportJob)
    (namespaceName : String) (seen : List (CatalogTables × CatalogTables))
    (result : Except Exc (List ImportedOperation)) (c : CatalogTables) : Prop :=
  seen ≠ [] ∧ match result with
  | .ok operations => ∃ parsed row,
      OpenApiParser.parse document.content namespaceName x.command.operationAllowlist = .ok parsed ∧
      operations = x.self.buildOperations x.tenantId job parsed ∧
      c.importOf x.jobId = (some row, operations) ∧ row.status = .completed ∧
      ∃ upstream ∈ c.upstreams, upstream.val.id = x.command.upstreamServiceId ∧
        upstream.val.namespaceName = namespaceName
  | .error e => e ≠ .cancelled ∧
      (ImportOpen x namespaceName .validating c ∨ ImportOpen x namespaceName .parsing c)

/-- How the attempt ends where its errors fail the job. -/
def CaughtEnded (x : ImportProcess) (document : OpenApiDocument) (job : OpenApiImportJob)
    (namespaceName : String) (seen : List (CatalogTables × CatalogTables))
    (result : Except Exc (List ImportedOperation)) (c : CatalogTables) : Prop :=
  match result with
  | .ok operations => AttemptEnded x document job namespaceName seen (.ok operations) c
  | .error _ => ImportFailed x c

/-- How an import ends. -/
def ImportEnded (x : ImportProcess) (seen : List (CatalogTables × CatalogTables))
    (result : Except Exc ImportOpenApiResult) (c : CatalogTables) : Prop :=
  match result with
  | .ok result => ImportCompleted x result c
  | .error _ => seen ≠ [] → ImportFailed x c

section Ends

variable {x : ImportProcess} {seen : List (CatalogTables × CatalogTables)}
variable {document : OpenApiDocument} {job : OpenApiImportJob} {namespaceName : String}
variable {status : ImportJobStatus} {c c' : CatalogTables}

theorem ImportOpen.rely (h : ImportOpen x namespaceName status c)
    (hrely : (importRely x.jobId).rel seen c c') (hseen : seen ≠ []) :
    ImportOpen x namespaceName status c' := by
  obtain ⟨hrow, hupstream⟩ := h
  obtain ⟨hupstreams, -, hown⟩ := hrely
  exact ⟨by rwa [hown hseen], by rwa [hupstreams]⟩

/-- The row that a transaction of the import finds is the one the import left. -/
theorem ImportOpen.row_of_find? (h : ImportOpen x namespaceName status c)
    {found : OpenApiImportJob} (hfound : c.jobs.find? x.jobId = some found) :
    found.tenantId = x.tenantId ∧ found.status = status ∧ c.operationsOf x.jobId = [] := by
  obtain ⟨⟨row, hrow, htenant, hstatus⟩, -⟩ := h
  obtain ⟨hjob, hoperations⟩ := Prod.mk.inj hrow
  obtain rfl := Option.some.inj (hfound.symm.trans hjob)
  exact ⟨htenant, hstatus, hoperations⟩

/-- A transaction of the import that leaves its job open. -/
theorem Imports.importOpen (h : Imports x.jobId (some job, []) c c')
    (hopen : ImportOpen x namespaceName status c) (htenant : job.tenantId = x.tenantId) :
    ImportOpen x namespaceName job.status c' := by
  obtain ⟨hown, -, hupstreams⟩ := h
  exact ⟨⟨job, hown, htenant, rfl⟩, by rw [hupstreams]; exact hopen.upstream⟩

theorem parseAndComplete_ends (hid : job.id = x.jobId) (hseen : seen ≠ [])
    (hopen : ImportOpen x namespaceName .validating c) :
    (x.self.parseAndComplete x.command document job namespaceName).Ends (· ≠ .cancelled)
      (importRely x.jobId) (AttemptEnded x document job namespaceName) seen c := by
  unfold ImportOpenApi.parseAndComplete
  apply Serial.ends_atomically_bind
  · -- The job is PARSING, and the parser runs.
    intro c₁ hrely _ c₂ hmark
    have hopen₁ := hopen.rely hrely hseen
    obtain ⟨found, hfound, -, himports⟩ := markParsing_eq_ok hmark
    obtain ⟨htenant, -, hoperations⟩ := hopen₁.row_of_find? hfound
    rw [hoperations] at himports
    have hopen₂ := himports.importOpen hopen₁ htenant
    apply Serial.ends_lift_bind
    · intro parsed hparsed
      apply Serial.ends_atomically_bind
      · intro c₃ hrely₃ _ c₄ hcomplete
        obtain ⟨found, row, hfound, -, -, hcompleted, himports⟩ :=
          completeJob_eq_ok (fun o ho => (buildOperations_owned o ho).trans hid) hcomplete
        have hopen₃ := hopen₂.rely hrely₃ (List.cons_ne_nil _ _)
        obtain ⟨-, -, hoperations⟩ := hopen₃.row_of_find? hfound
        rw [hoperations, List.nil_append] at himports
        obtain ⟨hown, -, hupstreams⟩ := himports
        intro c₅ hrely₅
        refine ⟨List.cons_ne_nil _ _, parsed, row, x.parses _ _ _ _ hparsed, rfl, ?_, hcompleted,
          ?_⟩
        · rw [hrely₅.own (List.cons_ne_nil _ _), hown]
        · rw [hrely₅.upstreams, hupstreams]
          exact hopen₃.upstream
      · intro c₃ hrely₃ e he c₄ hrely₄
        have hopen₄ := hopen₂.rely ((importRely _).trans _ _ _ _ hrely₃ hrely₄)
          (List.cons_ne_nil _ _)
        refine ⟨List.cons_ne_nil _ _, ?_, .inr hopen₄⟩
        exact he.elim (CatalogM.RaisesException.completeJob c₃ e) id
    · intro e he c₃ hrely₃
      exact ⟨List.cons_ne_nil _ _, x.parserRaises _ _ _ e he,
        .inr (hopen₂.rely hrely₃ (List.cons_ne_nil _ _))⟩
  · -- The job stays VALIDATING.
    intro c₁ hrely₁ e he c₂ hrely₂
    refine ⟨hseen, he.elim (CatalogM.RaisesException.markParsing c₁ e) id, .inl ?_⟩
    exact hopen.rely ((importRely _).trans _ _ _ _ hrely₁ hrely₂) hseen

/-- The transaction in which an open job is failed. -/
theorem atomically_failJob_ends {α : Type} {summary : String} {e : Exc}
    {Q : List (CatalogTables × CatalogTables) → Except Exc α → CatalogTables → Prop}
    (hQ : ∀ seen c, ImportFailed x c → Q seen (.error e) c) (hseen : seen ≠ [])
    (hopen : ImportOpen x namespaceName status c) (hcompleted : status ≠ .completed)
    (hfailed : status ≠ .failed) :
    (Serial.atomically (x.self.failJob x.tenantId x.jobId summary) >>= fun _ =>
      (Serial.lift (.error e) : Serial CatalogTables Exc α)).Ends
      (fun _ => False) (importRely x.jobId) Q seen c := by
  have hfails : ∀ c₁, (importRely x.jobId).rel seen c c₁ → ∃ c' job',
      x.self.failJob x.tenantId x.jobId summary c₁ = .ok ((), c') ∧ job'.status = .failed ∧
        Imports x.jobId (some job', []) c₁ c' := by
    intro c₁ hrely
    have hopen₁ := hopen.rely hrely hseen
    obtain ⟨found, hrow, -⟩ := hopen₁.row
    have hfound : c₁.jobs.find? x.jobId = some found := congrArg Prod.fst hrow
    obtain ⟨htenant, rfl, hoperations⟩ := hopen₁.row_of_find? hfound
    rw [← hoperations]
    exact failJob_fails hfound htenant hcompleted hfailed
  apply Serial.ends_atomically_bind
  · intro c₁ hrely _ c₂ hfail c₃ hrely₃
    obtain ⟨c₂', job', hfail', hstatus, hown, -, -⟩ := hfails c₁ hrely
    cases hfail.symm.trans hfail'
    have hown₃ := (hrely₃.own (List.cons_ne_nil _ _)).trans hown
    exact hQ _ _ ⟨job', congrArg Prod.fst hown₃, hstatus, congrArg Prod.snd hown₃⟩
  · intro c₁ hrely e' he
    obtain ⟨c₂', job', hfail', -, -⟩ := hfails c₁ hrely
    rw [hfail'] at he
    rcases he with he | he <;> cases he

theorem failWith_ends {α : Type} {e : Exc}
    {Q : List (CatalogTables × CatalogTables) → Except Exc α → CatalogTables → Prop}
    (hQ : ∀ seen e c, ImportFailed x c → Q seen (.error e) c) (hseen : seen ≠ [])
    (hopen : ImportOpen x namespaceName .validating c ∨ ImportOpen x namespaceName .parsing c)
    (he : e ≠ .cancelled) :
    (x.self.failWith x.tenantId x.jobId e : Serial CatalogTables Exc α).Ends (fun _ => False)
      (importRely x.jobId) Q seen c := by
  have hfails (summary : String) (e' : Exc) :
      (Serial.atomically (x.self.failJob x.tenantId x.jobId summary) >>= fun _ =>
        (Serial.lift (.error e') : Serial CatalogTables Exc α)).Ends (fun _ => False)
        (importRely x.jobId) Q seen c := by
    rcases hopen with hopen | hopen
    · exact atomically_failJob_ends (fun _ _ => hQ _ _ _) hseen hopen nofun nofun
    · exact atomically_failJob_ends (fun _ _ => hQ _ _ _) hseen hopen nofun nofun
  unfold ImportOpenApi.failWith
  split
  · exact hfails _ _
  · exact absurd rfl he
  · exact hfails _ _

/-- However the other imports interfere, an import ends all or nothing. -/
theorem program_ends (x : ImportProcess) (hcoherent : ImportCoherent (c.importOf x.jobId)) :
    x.program.Ends (fun _ => False) (importRely x.jobId) (ImportEnded x) [] c := by
  unfold ImportProcess.program ImportOpenApi.executeWith
  apply Serial.ends_lift_bind
  · intro document hdocument
    apply Serial.ends_atomically_bind
    · rintro c₁ hrely ⟨job, namespaceName⟩ c₂ hbegin
      obtain ⟨⟨hid, htenant, hupstream, hvalidating⟩, hnamed, hfresh, hown, -, hupstreams⟩ :=
        begin_eq_ok hbegin
      -- The new job has no operations, since operations belong to jobs.
      have hnone := hrely.coherent hcoherent
      rw [CatalogTables.importOf, hfresh] at hnone
      rw [show c₁.operationsOf x.jobId = [] from hnone] at hown
      have hopen : ImportOpen x namespaceName .validating c₂ :=
        ⟨⟨job, hown, htenant, hvalidating⟩, by rw [hupstreams]; exact hnamed⟩
      have hattempt := (x.interrupted document job namespaceName).ends
        (parseAndComplete_ends hid (List.cons_ne_nil (c₁, c₂) []) hopen)
      have hcaught : ((x.attempt document job namespaceName).tryCatch
          (x.self.failWith x.tenantId x.jobId)).Ends (fun _ => False) (importRely x.jobId)
          (CaughtEnded x document job namespaceName) [(c₁, c₂)] c₂ := by
        apply hattempt.tryCatch
        · exact fun _ _ _ h => h
        · rintro seen' e c' ⟨hseen, he, hopen⟩
          exact failWith_ends (fun _ _ _ h => h) hseen hopen he
      apply hcaught.bind
      · rintro seen' _ c' ⟨hseen, parsed, row, hparsed, rfl, hown, hcompleted, hnamed⟩ c'' hrely
        obtain ⟨upstream, hmem, hupstreamId, rfl⟩ := hnamed
        have hown' := (hrely.own hseen).trans hown
        obtain ⟨hjob, hoperations⟩ := Prod.mk.inj hown'
        rw [← hrely.upstreams] at hmem
        refine ⟨⟨document, upstream, parsed, job, row, hdocument, ⟨hmem, hupstreamId⟩, hparsed,
          ⟨hid, hupstream⟩, ⟨hjob, hcompleted⟩, hoperations⟩, rfl, ?_⟩
        exact congrArg _ hoperations.symm
      · exact fun _ _ _ h _ => h
    · intro c₁ _ e _ c₂ _ hseen
      exact absurd rfl hseen
  · intro e _ c₁ _ hseen
    exact absurd rfl hseen

end Ends

/-! ## The lifecycle of import jobs -/

section Lifecycle

variable {Pid : Type} [DecidableEq Pid]

open Txn.SerialWorld

/-- Any number of imports. -/
def importWorld (processes : Pid → ImportProcess) (c : CatalogTables) :
    SerialWorld CatalogTables Exc Pid fun _ => ImportOpenApiResult :=
  .start c fun p => (processes p).program

/-- The jobs of the store are coherent, and every commit moved them as the state machine does. -/
structure ImportRunSound {δ : Pid → Type} (w : SerialWorld CatalogTables Exc Pid δ) : Prop where
  coherent : w.store.ImportsCoherent
  commits : ∀ x ∈ w.commits, ∀ jobId,
    ImportRowSound (x.before.importOf jobId) (x.after.importOf jobId)

/-- An import that has returned has completed its job, and one that has raised after it had added
    its job has failed it. -/
structure AllOrNothing (processes : Pid → ImportProcess)
    (w : SerialWorld CatalogTables Exc Pid fun _ => ImportOpenApiResult) : Prop where
  returned : ∀ p result, w.procs p = .done (.ok result) →
    ImportCompleted (processes p) result w.store
  raised : ∀ p e, w.procs p = .done (.error e) → (∃ x ∈ w.commits, x.pid = p) →
    ImportFailed (processes p) w.store

variable {processes : Pid → ImportProcess} {c c' : CatalogTables}

theorem importRun_of_explained {commits : List (Commit CatalogTables Pid)}
    (hc : c.ImportsCoherent) (hlinked : Linked c commits c')
    (hsteps : Explained (fun p => ImportStep (processes p).jobId) commits) :
    ImportRunState processes commits c' ∧
      (∀ x ∈ commits, ∀ jobId,
        ImportRowSound (x.before.importOf jobId) (x.after.importOf jobId)) ∧
      Respects (fun p => importRely (processes p).jobId) commits := by
  induction commits generalizing c' with
  | nil =>
    obtain rfl := hlinked
    exact ⟨⟨importsCoherent_iff.1 hc, fun p hp => absurd rfl hp, fun p _ hp => absurd rfl hp⟩,
      fun x hx => absurd hx List.not_mem_nil, trivial⟩
  | cons x earlier ih =>
    obtain ⟨rfl, hearlier⟩ := hlinked
    obtain ⟨hstep, hsteps⟩ := hsteps
    obtain ⟨hstate, hall, hrespects⟩ := ih hearlier hsteps
    have hafter := hstate.step hstep
    refine ⟨hafter, List.forall_mem_cons.2 ⟨hstate.sound hstep, hall⟩, ?_, hrespects⟩
    intro p hp
    have hupstreams : x.after.upstreams = x.before.upstreams := by
      cases hstep with
      | begun _ _ _ himports => exact himports.upstreams
      | moved _ _ himports => exact himports.upstreams
    exact ⟨hupstreams, fun _ => hafter.coherent _, hstate.respects hstep hp⟩

/-- For any number of concurrent imports, in every reachable store a job has operations when it is
    COMPLETED, terminal jobs stay as they are and a stored status only moves towards one. Where
    nothing but their attempts is interrupted, each import ends all or nothing. -/
theorem import_job_lifecycle (Fault : Exc → Prop) (processes : Pid → ImportProcess)
    (hc : c.ImportsCoherent) {w : SerialWorld CatalogTables Exc Pid fun _ => ImportOpenApiResult}
    (h : Reaches Fault (importWorld processes c) w) :
    ImportRunSound w ∧ ((∀ e, ¬ Fault e) → AllOrNothing processes w) := by
  have hsteps : Explained (fun p => ImportStep (processes p).jobId) w.commits :=
    explained_of_reaches (fun p => program_follows (processes p)) h
  obtain ⟨hstate, hall, hrespects⟩ := importRun_of_explained hc (linked_of_reaches h) hsteps
  refine ⟨⟨importsCoherent_iff.2 hstate.coherent, hall⟩, ?_⟩
  intro hnoFault
  obtain rfl : Fault = fun _ => False := funext fun e => eq_false (hnoFault e)
  have hends := ends_of_reaches
    (fun p => program_ends (processes p) (importsCoherent_iff.1 hc _)) h hrespects
  constructor
  · intro p result hdone
    have hended := hends p
    rw [hdone] at hended
    exact hended.done
  · rintro p e hdone ⟨x, hx, hpid⟩
    have hended := hends p
    rw [hdone] at hended
    exact hended.done fun hseen => seenBy_eq_nil.1 hseen x hx hpid

end Lifecycle

section Orders

/-- A document with one operation. -/
def orderSource : OpenApiDocument where
  sourceRef := "orders.json"
  sourceDigest := "digest"
  content := [("openapi", .str "3.1.0"), ("paths", .obj [("/orders", .obj [("get", .obj [
    ("operationId", .str "listOrders"), ("responses", .obj [])])])])]

def sourceImport (jobId : Id) : ImportOpenApi where
  documentReader _ := .ok orderSource
  parser := OpenApiParser.parse
  jobId := jobId
  operationId i := jobId ++ "-operation-" ++ toString i
  createdAt := 1
  completedAt := 2
  failedAt := 2

theorem parser_ne_cancelled {document : JsonObject} {namespaceName : String}
    {operationAllowlist : List String} {e : Exc}
    (h : OpenApiParser.parse document namespaceName operationAllowlist = .error e) :
    e ≠ .cancelled := by
  rintro rfl
  exact nomatch OpenApiParser.parse_raises _ h

def orderImportCommand : ImportOpenApiCommand where
  context := adminContext
  upstreamServiceId := "upstream-1"
  sourceRef := "orders.json"

/-- Nothing stops the first import, and the second is stopped before it parses. -/
def orderImports : Fin 2 → ImportProcess
  | 0 => {
    self := sourceImport "job-1"
    command := orderImportCommand
    attempt := (sourceImport "job-1").parseAndComplete orderImportCommand
    parses := fun _ _ _ _ => id
    parserRaises := fun _ _ _ _ => parser_ne_cancelled
    interrupted := fun _ _ _ => .refl _ }
  | 1 => {
    self := sourceImport "job-2"
    command := orderImportCommand
    attempt := fun _ _ _ => Serial.lift (.error (.other "ConnectionError"))
    parses := fun _ _ _ _ => id
    parserRaises := fun _ _ _ _ => parser_ne_cancelled
    interrupted := fun _ _ _ =>
      have hfault : Exc.other "ConnectionError" ≠ .cancelled := nofun
      .raises hfault (.done _) }

/-- The run of the two imports in the order of the schedule. -/
def orderImportRun (schedule : List (Fin 2)) :
    SerialWorld CatalogTables Exc (Fin 2) fun _ => ImportOpenApiResult :=
  (importWorld orderImports registeredCatalog).runSchedule schedule

theorem import_job_lifecycle_orders : ImportRunSound (orderImportRun [0, 1, 0, 1, 0]) ∧
    AllOrNothing orderImports (orderImportRun [0, 1, 0, 1, 0]) := by
  have hcoherent : registeredCatalog.ImportsCoherent := ⟨nofun, nofun⟩
  have h := import_job_lifecycle (fun _ => False) orderImports hcoherent
    (SerialWorld.reaches_runSchedule _ [0, 1, 0, 1, 0])
  exact ⟨h.1, h.2 fun _ => id⟩

end Orders

end NexusMcp
