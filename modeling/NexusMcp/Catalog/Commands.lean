-- SUMMARY: The catalogue commands as programs of transactions, and the effects of each on the tables.
import NexusMcp.Catalog.Effects
import Mathlib.Logic.Relation

/-! # Catalogue Commands -/

namespace NexusMcp

open Net (Unicode)
open Txn (Serial Table)
open Relation (ReflTransGen)

/-! ## Commands -/

/-- A command with the values that its generator and its clock return to it. -/
inductive CatalogCommand where
  | importOpenApi (self : ImportOpenApi) (command : ImportOpenApiCommand)
  | reviewImportedOperation (env : ReviewEnv) (command : ReviewImportedOperationCommand)
  | submitToolVersionForReview (now : Time) (command : SubmitToolVersionForReviewCommand)
  | publishTool (now : Time) (command : PublishToolCommand)
  | directPublishImportedOperation (env : ReviewEnv) (now : Time)
      (command : DirectPublishImportedOperationCommand)
  | updateUpstream (endpointPolicy : UpstreamEndpointPolicy) (command : UpdateUpstreamCommand)
  | disableUpstream (command : DisableUpstreamCommand)

namespace CatalogCommand

abbrev Result : CatalogCommand → Type
  | importOpenApi _ _ => ImportOpenApiResult
  | reviewImportedOperation _ _ => ReviewImportedOperationResult
  | submitToolVersionForReview _ _ => Unit
  | publishTool _ _ => PublishToolResult
  | directPublishImportedOperation _ _ _ => DirectPublishImportedOperationResult
  | updateUpstream _ _ => UpstreamService
  | disableUpstream _ => UpstreamService

/-- `execute` of the use case. -/
def program [Sha256] [Unicode] :
    (command : CatalogCommand) → Serial CatalogTables Exc command.Result
  | importOpenApi self command => self.execute command
  | reviewImportedOperation env command =>
    Serial.atomically (ReviewImportedOperation.executeInTransaction env command)
  | submitToolVersionForReview now command =>
    Serial.atomically (SubmitToolVersionForReview.execute now command)
  | publishTool now command => Serial.atomically (publishToolInTransaction command now)
  | directPublishImportedOperation env now command =>
    Serial.atomically (DirectPublishImportedOperation.execute env now command)
  | updateUpstream endpointPolicy command => UpdateUpstream.execute endpointPolicy command
  | disableUpstream command => Serial.atomically (DisableUpstream.execute command)

end CatalogCommand

/-! ## Effects -/

/-- Nothing but jobs, new operations and descriptive fields of upstreams changed. -/
structure Quiet (c c' : CatalogTables) : Prop where
  tools : c'.tools = c.tools
  versions : c'.versions = c.versions
  bindings : c'.bindings = c.bindings
  upstreams : ∀ u ∈ c.upstreams, ∃ u' ∈ c'.upstreams, u'.val.id = u.val.id ∧
    u'.val.tenantId = u.val.tenantId ∧ u'.val.status = u.val.status
  operationsKept : ∀ o ∈ c.operations, o ∈ c'.operations
  operationsNew : ∀ o ∈ c'.operations, o ∈ c.operations ∨ o.reviewStatus = .pending

theorem Quiet.refl (c : CatalogTables) : Quiet c c where
  tools := rfl
  versions := rfl
  bindings := rfl
  upstreams := fun u hu => ⟨u, hu, rfl, rfl, rfl⟩
  operationsKept := fun _ ho => ho
  operationsNew := fun _ ho => .inl ho

/-- Only jobs changed. -/
theorem Quiet.of_rows {c c' : CatalogTables} {jobs : Table fun j : OpenApiImportJob => j.id}
    (h : c'.toCatalogRows = { c.toCatalogRows with jobs := jobs }) : Quiet c c' where
  tools := by rw [h]
  versions := by rw [h]
  bindings := by rw [h]
  upstreams := fun u hu => ⟨u, by rw [h]; exact hu, rfl, rfl, rfl⟩
  operationsKept := fun o ho => by rw [h]; exact ho
  operationsNew := fun o ho => by rw [h] at ho; exact .inl ho

/-- An upstream was disabled. -/
structure Disabling (c c' : CatalogTables) (command : DisableUpstreamCommand)
    (upstream disabled : UpstreamService) : Prop where
  upstreamMem : upstream ∈ c.upstreams
  upstreamId : upstream.val.id = command.upstreamServiceId
  upstreamTenant : upstream.val.tenantId = command.context.tenantId
  disabledId : disabled.val.id = upstream.val.id
  disabledTenant : disabled.val.tenantId = upstream.val.tenantId
  isDisabled : disabled.val.status = .disabled
  rows : c'.toCatalogRows = { c.toCatalogRows with upstreams := replaceRow c.upstreams disabled }

/-- What the commands other than `DisableUpstream` are made of. -/
inductive CatalogEffect [Sha256] (c c' : CatalogTables) : Prop where
  | quiet (h : Quiet c c')
  | drafting {command : ReviewImportedOperationCommand} {operation accepted : ImportedOperation}
      {upstream : UpstreamService} {tool : Tool} {version : ToolVersion} {binding : ToolBinding}
      (h : Drafting c c' command operation accepted upstream tool version binding)
  | submission {v w : ToolVersion} (h : Submission c c' v w)
  | publication {command : PublishToolCommand} {tool : Tool} {version : ToolVersion}
      {binding : ToolBinding} {upstream : UpstreamService}
      (h : Publication c c' command tool version binding upstream)

/-- What a commit of the command does. -/
def CatalogCommand.Effect [Sha256] : CatalogCommand → CatalogTables → CatalogTables → Prop
  | disableUpstream command => fun c c' =>
    ∃ upstream disabled, Disabling c c' command upstream disabled
  | _ => ReflTransGen CatalogEffect

/-! ## The transactions have these effects -/

section Registry

theorem observe_eq_ok {command : UpdateUpstreamCommand} {u : UpstreamService}
    {c c' : CatalogTables} (h : UpdateUpstream.observe command c = .ok (u, c')) : c' = c := by
  simp only [UpdateUpstream.observe, CatalogM.bind_eq_ok, getUpstreamById_eq_ok,
    CatalogM.orRaise_eq_ok] at h
  obtain ⟨_, _, ⟨-, rfl⟩, -, rfl⟩ := h
  rfl

/-- Replacing an upstream by one of the same status. -/
theorem Quiet.of_replaceRow {c c' : CatalogTables} {upstream updated : UpstreamService}
    (hmem : upstream ∈ c.upstreams) (hid : updated.val.id = upstream.val.id)
    (htenant : updated.val.tenantId = upstream.val.tenantId)
    (hstatus : updated.val.status = upstream.val.status)
    (h : c'.toCatalogRows = { c.toCatalogRows with
      upstreams := replaceRow c.upstreams updated }) : Quiet c c' := by
  constructor
  · rw [h]
  · rw [h]
  · rw [h]
  · intro u hu
    rw [h]
    by_cases hkey : u.val.id = updated.val.id
    · have heq : u = upstream := Table.eq_of_key_eq hu hmem (hkey.trans hid)
      refine ⟨updated, (mem_replaceRow hmem hid.symm).2 (.inr rfl), ?_⟩
      rw [heq]
      exact ⟨hid, htenant, hstatus⟩
    · exact ⟨u, (mem_replaceRow hmem hid.symm).2 (.inl ⟨hu, hkey⟩), rfl, rfl, rfl⟩
  · intro o ho
    rw [h]
    exact ho
  · intro o ho
    rw [h] at ho
    exact .inl ho

theorem write_quiet {command : UpdateUpstreamCommand} {u : UpstreamService}
    {c c' : CatalogTables} (h : UpdateUpstream.write command c = .ok (u, c')) : Quiet c c' := by
  simp only [UpdateUpstream.write, CatalogM.bind_eq_ok, getUpstreamForUpdate_eq_ok,
    CatalogM.orRaise_eq_ok, CatalogM.lift_eq_ok, saveUpstream_eq_ok, CatalogM.pure_eq_ok,
    UpstreamService.update, construct_eq_ok] at h
  obtain ⟨_, _, ⟨rfl, rfl⟩, upstream, _, ⟨hupstream, rfl⟩, updated, _, ⟨hupdated, rfl⟩, _, _,
    ⟨-, -, hrows⟩, -, rfl⟩ := h
  obtain ⟨hmem, -, -⟩ := inTenant_eq_some.1 hupstream
  apply Quiet.of_replaceRow hmem _ _ _ hrows
  · rw [hupdated]
  · rw [hupdated]
  · rw [hupdated]

theorem disable_eq_ok {command : DisableUpstreamCommand} {u : UpstreamService}
    {c c' : CatalogTables} (h : DisableUpstream.execute command c = .ok (u, c')) :
    ∃ upstream disabled, Disabling c c' command upstream disabled := by
  simp only [DisableUpstream.execute, CatalogM.bind_eq_ok, getUpstreamForUpdate_eq_ok,
    CatalogM.orRaise_eq_ok, CatalogM.lift_eq_ok, saveUpstream_eq_ok, CatalogM.pure_eq_ok] at h
  obtain ⟨_, _, ⟨rfl, rfl⟩, upstream, _, ⟨hupstream, rfl⟩, disabled, _, ⟨hdisabled, rfl⟩, _, _,
    ⟨-, -, hrows⟩, -, rfl⟩ := h
  obtain ⟨hmem, hid, htenant⟩ := inTenant_eq_some.1 hupstream
  have hsame : disabled.val.id = upstream.val.id ∧
      disabled.val.tenantId = upstream.val.tenantId ∧ disabled.val.status = .disabled := by
    unfold UpstreamService.disable at hdisabled
    split at hdisabled
    · next halready =>
      cases hdisabled
      exact ⟨rfl, rfl, halready⟩
    · rw [construct_eq_ok] at hdisabled
      rw [hdisabled]
      exact ⟨rfl, rfl, rfl⟩
  exact ⟨upstream, disabled, hmem, hid, htenant, hsame.1, hsame.2.1, hsame.2.2, hrows⟩

end Registry

section Import

theorem saveJob_quiet {tenantId : Id} {job : OpenApiImportJob} {u : Unit} {c c' : CatalogTables}
    (h : saveJob tenantId job c = .ok (u, c')) : Quiet c c' := by
  simp only [saveJob, CatalogM.bind_eq_ok, requireMatchingTenant_eq_ok, getJobForUpdate_eq_ok,
    CatalogM.orRaise_eq_ok, update_eq_ok] at h
  obtain ⟨_, _, ⟨-, rfl⟩, _, _, ⟨-, rfl⟩, _, _, ⟨-, rfl⟩, hrows⟩ := h
  exact Quiet.of_rows hrows

theorem begin_quiet {self : ImportOpenApi} {command : ImportOpenApiCommand}
    {document : OpenApiDocument} {r : OpenApiImportJob × String} {c c' : CatalogTables}
    (h : self.begin command document c = .ok (r, c')) : Quiet c c' := by
  simp only [ImportOpenApi.begin, CatalogM.bind_eq_ok, getUpstreamForUpdate_eq_ok,
    CatalogM.orRaise_eq_ok, CatalogM.raiseIf_eq_ok, CatalogM.lift_eq_ok, addJob,
    requireMatchingTenant_eq_ok, requireFreshKey_eq_ok, update_eq_ok, CatalogM.pure_eq_ok] at h
  obtain ⟨_, _, ⟨-, rfl⟩, _, _, ⟨-, rfl⟩, _, _, ⟨-, rfl⟩, _, _, ⟨-, rfl⟩, _, _,
    ⟨_, _, ⟨-, rfl⟩, _, _, ⟨-, rfl⟩, hrows⟩, -, rfl⟩ := h
  exact Quiet.of_rows hrows

theorem markParsing_quiet {tenantId jobId : Id} {u : Unit} {c c' : CatalogTables}
    (h : ImportOpenApi.markParsing tenantId jobId c = .ok (u, c')) : Quiet c c' := by
  simp only [ImportOpenApi.markParsing, CatalogM.bind_eq_ok, getJobForUpdate_eq_ok,
    CatalogM.orRaise_eq_ok, CatalogM.lift_eq_ok] at h
  obtain ⟨_, _, ⟨-, rfl⟩, _, _, ⟨-, rfl⟩, _, _, ⟨-, rfl⟩, hsave⟩ := h
  exact saveJob_quiet hsave

theorem failJob_quiet {self : ImportOpenApi} {tenantId jobId : Id} {summary : String} {u : Unit}
    {c c' : CatalogTables} (h : self.failJob tenantId jobId summary c = .ok (u, c')) :
    Quiet c c' := by
  simp only [ImportOpenApi.failJob, CatalogM.bind_eq_ok, getJobForUpdate_eq_ok] at h
  obtain ⟨found, _, ⟨-, rfl⟩, h⟩ := h
  cases found with
  | none =>
    rw [CatalogM.pure_eq_ok] at h
    obtain ⟨-, rfl⟩ := h
    exact Quiet.refl _
  | some job =>
    dsimp only at h
    split at h
    · rw [CatalogM.pure_eq_ok] at h
      obtain ⟨-, rfl⟩ := h
      exact Quiet.refl _
    · simp only [CatalogM.bind_eq_ok, CatalogM.lift_eq_ok] at h
      obtain ⟨_, _, ⟨-, rfl⟩, hsave⟩ := h
      exact saveJob_quiet hsave

/-- Pending operations were added. -/
theorem Quiet.trans {c c' c'' : CatalogTables} (h : Quiet c c') (h' : Quiet c' c'') :
    Quiet c c'' := by
  constructor
  · rw [h'.tools, h.tools]
  · rw [h'.versions, h.versions]
  · rw [h'.bindings, h.bindings]
  · intro u hu
    obtain ⟨u', hu', hid, htenant, hstatus⟩ := h.upstreams u hu
    obtain ⟨u'', hu'', hid', htenant', hstatus'⟩ := h'.upstreams u' hu'
    exact ⟨u'', hu'', hid'.trans hid, htenant'.trans htenant, hstatus'.trans hstatus⟩
  · intro o ho
    exact h'.operationsKept o (h.operationsKept o ho)
  · intro o ho
    rcases h'.operationsNew o ho with ho | ho
    · exact h.operationsNew o ho
    · exact .inr ho

theorem addOperation_quiet {tenantId : Id} {operation : ImportedOperation} {u : Unit}
    {c c' : CatalogTables} (hpending : operation.reviewStatus = .pending)
    (h : addOperation tenantId operation c = .ok (u, c')) : Quiet c c' := by
  simp only [addOperation, CatalogM.bind_eq_ok, requireMatchingTenant_eq_ok,
    requireFreshKey_eq_ok, update_eq_ok] at h
  obtain ⟨_, _, ⟨-, rfl⟩, _, _, ⟨hfresh, rfl⟩, hrows⟩ := h
  constructor
  · rw [hrows]
  · rw [hrows]
  · rw [hrows]
  · intro u hu
    rw [hrows]
    exact ⟨u, hu, rfl, rfl, rfl⟩
  · intro o ho
    rw [hrows, Table.mem_insert hfresh]
    exact .inl ho
  · intro o ho
    rw [hrows, Table.mem_insert hfresh] at ho
    refine ho.imp_right ?_
    rintro rfl
    exact hpending

theorem addOperations_quiet {tenantId : Id} {operations : List ImportedOperation} {u : Unit}
    {c c' : CatalogTables} (hpending : ∀ o ∈ operations, o.reviewStatus = .pending)
    (h : addOperations tenantId operations c = .ok (u, c')) : Quiet c c' := by
  induction operations generalizing c with
  | nil =>
    rw [addOperations, CatalogM.pure_eq_ok] at h
    obtain ⟨-, rfl⟩ := h
    exact Quiet.refl _
  | cons operation operations ih =>
    rw [addOperations, CatalogM.bind_eq_ok] at h
    obtain ⟨_, c₁, hadd, hrest⟩ := h
    rw [List.forall_mem_cons] at hpending
    exact (addOperation_quiet hpending.1 hadd).trans (ih hpending.2 hrest)

theorem completeJob_quiet {self : ImportOpenApi} {tenantId jobId : Id}
    {parsed : ParsedOpenApiDocument} {job : OpenApiImportJob} {u : Unit} {c c' : CatalogTables}
    (h : self.completeJob tenantId jobId parsed (self.buildOperations tenantId job parsed) c =
      .ok (u, c')) : Quiet c c' := by
  simp only [ImportOpenApi.completeJob, CatalogM.bind_eq_ok, getJobForUpdate_eq_ok,
    CatalogM.orRaise_eq_ok, CatalogM.lift_eq_ok] at h
  obtain ⟨_, _, ⟨-, rfl⟩, _, _, ⟨-, rfl⟩, _, _, hadd, _, _, ⟨-, rfl⟩, hsave⟩ := h
  apply Quiet.trans _ (saveJob_quiet hsave)
  apply addOperations_quiet _ hadd
  intro o ho
  obtain ⟨i, hi, rfl⟩ := List.mem_mapIdx.1 ho
  rfl

theorem failWith_commits {α : Type} (self : ImportOpenApi) (tenantId jobId : Id) (e : Exc) :
    (self.failWith tenantId jobId e : Serial CatalogTables Exc α).Commits Quiet := by
  unfold ImportOpenApi.failWith
  split
  · apply Serial.Commits.atomically_bind
    · intro c _ c' h
      exact failJob_quiet h
    · intro _
      exact Serial.commits_lift
  · exact Serial.commits_lift
  · apply Serial.Commits.atomically_bind
    · intro c _ c' h
      exact failJob_quiet h
    · intro _
      exact Serial.commits_lift

theorem parseAndComplete_commits (self : ImportOpenApi) (command : ImportOpenApiCommand)
    (document : OpenApiDocument) (job : OpenApiImportJob) (namespaceName : String) :
    (self.parseAndComplete command document job namespaceName).Commits Quiet := by
  unfold ImportOpenApi.parseAndComplete
  apply Serial.Commits.atomically_bind
  · intro c _ c' h
    exact markParsing_quiet h
  intro _
  apply Serial.Commits.bind Serial.commits_lift
  intro parsed
  apply Serial.Commits.atomically_bind
  · intro c _ c' h
    exact completeJob_quiet h
  intro _
  exact Serial.commits_pure

theorem importOpenApi_commits (self : ImportOpenApi) (command : ImportOpenApiCommand) :
    (self.execute command).Commits Quiet := by
  unfold ImportOpenApi.execute
  apply Serial.Commits.bind Serial.commits_lift
  intro document
  apply Serial.Commits.atomically_bind
  · intro c _ c' h
    exact begin_quiet h
  rintro ⟨job, namespaceName⟩
  apply Serial.Commits.bind
  · apply Serial.Commits.tryCatch
    · exact parseAndComplete_commits self command document job namespaceName
    · exact failWith_commits self _ _
  · intro operations
    exact Serial.commits_pure

end Import

section Review

variable [Sha256]

/-- The resources of an operation that was accepted before. -/
structure Existing (c : CatalogTables) (tenantId : Id) (operation : ImportedOperation)
    (tool : Tool) (version : ToolVersion) (binding : ToolBinding) : Prop where
  operationMem : operation ∈ c.operations
  operationTenant : operation.tenantId = tenantId
  accepted : operation.reviewStatus = .accepted
  versionRef : operation.draftToolVersionId = some version.val.id
  bindingRef : operation.draftToolBindingId = some binding.val.id
  versionMem : version ∈ c.versions
  versionTenant : version.val.tenantId = tenantId
  bindingMem : binding ∈ c.bindings
  bindingTenant : binding.val.tenantId = tenantId
  toolMem : tool ∈ c.tools
  toolTenant : tool.val.tenantId = tenantId
  toolId : tool.val.id = version.val.toolId

omit [Sha256] in
theorem existingResult_eq_ok {tenantId : Id} {operation : ImportedOperation}
    {result : ReviewImportedOperationResult} {c c' : CatalogTables}
    (hmem : operation ∈ c.operations) (htenant : operation.tenantId = tenantId)
    (haccepted : operation.reviewStatus = .accepted)
    (h : ReviewImportedOperation.existingResult tenantId operation c = .ok (result, c')) :
    c' = c ∧ ∃ tool version binding, Existing c tenantId operation tool version binding ∧
      result = ReviewImportedOperation.result operation tool version binding := by
  unfold ReviewImportedOperation.existingResult at h
  cases hversionRef : operation.draftToolVersionId with
  | none => simp [hversionRef] at h
  | some versionId =>
    cases hbindingRef : operation.draftToolBindingId with
    | none => simp [hversionRef, hbindingRef] at h
    | some bindingId =>
      simp only [hversionRef, hbindingRef, CatalogM.bind_eq_ok, getVersionForUpdate_eq_ok,
        getBindingById_eq_ok] at h
      obtain ⟨found, _, ⟨hversion, rfl⟩, foundBinding, _, ⟨hbinding, rfl⟩, h⟩ := h
      cases found with
      | none => simp at h
      | some version =>
        cases foundBinding with
        | none => simp at h
        | some binding =>
          simp only [CatalogM.bind_eq_ok, getToolForUpdate_eq_ok, CatalogM.orRaise_eq_ok,
            CatalogM.pure_eq_ok] at h
          obtain ⟨_, _, ⟨rfl, rfl⟩, tool, _, ⟨htool, rfl⟩, rfl, rfl⟩ := h
          obtain ⟨hversionMem, rfl, hversionTenant⟩ := inTenant_eq_some.1 hversion.symm
          obtain ⟨hbindingMem, rfl, hbindingTenant⟩ := inTenant_eq_some.1 hbinding.symm
          obtain ⟨htoolMem, htoolId, htoolTenant⟩ := inTenant_eq_some.1 htool
          exact ⟨rfl, tool, version, binding, ⟨hmem, htenant, haccepted, hversionRef, hbindingRef,
            hversionMem, hversionTenant, hbindingMem, hbindingTenant, htoolMem, htoolTenant,
            htoolId⟩, rfl⟩

/-- What a review does: it reports the resources of an accepted operation, or drafts them. -/
inductive Reviewed (c c' : CatalogTables) (command : ReviewImportedOperationCommand)
    (result : ReviewImportedOperationResult) : Prop where
  | existing {operation : ImportedOperation} {tool : Tool} {version : ToolVersion}
      {binding : ToolBinding} (hid : operation.id = command.operationId)
      (h : Existing c command.context.tenantId operation tool version binding) (heq : c' = c)
      (hresult : result = ReviewImportedOperation.result operation tool version binding)
  | drafted {operation accepted : ImportedOperation} {upstream : UpstreamService} {tool : Tool}
      {version : ToolVersion} {binding : ToolBinding}
      (h : Drafting c c' command operation accepted upstream tool version binding)
      (hresult : result = ReviewImportedOperation.result operation tool version binding)

theorem executeInTransaction_eq_ok {env : ReviewEnv} {command : ReviewImportedOperationCommand}
    {result : ReviewImportedOperationResult} {c c' : CatalogTables}
    (h : ReviewImportedOperation.executeInTransaction env command c = .ok (result, c')) :
    Reviewed c c' command result := by
  simp only [ReviewImportedOperation.executeInTransaction, CatalogM.bind_eq_ok,
    getOperationForUpdate_eq_ok, CatalogM.orRaise_eq_ok] at h
  obtain ⟨_, _, ⟨rfl, rfl⟩, operation, _, ⟨hoperation, rfl⟩, h⟩ := h
  obtain ⟨hmem, hid, htenant⟩ := inTenant_eq_some.1 hoperation
  split at h
  · next haccepted =>
    obtain ⟨rfl, tool, version, binding, hexisting, hresult⟩ :=
      existingResult_eq_ok hmem htenant haccepted h
    exact .existing hid hexisting rfl hresult
  · obtain ⟨accepted, upstream, tool, version, binding, hdrafting, hresult⟩ :=
      draft_eq_ok hmem hid htenant h
    exact .drafted hdrafting hresult

theorem Reviewed.effect {c c' : CatalogTables} {command : ReviewImportedOperationCommand}
    {result : ReviewImportedOperationResult} (h : Reviewed c c' command result) :
    ReflTransGen CatalogEffect c c' := by
  cases h with
  | existing _ _ heq _ =>
    subst heq
    exact .refl
  | drafted h _ => exact .single (.drafting h)

/-! ### Direct publish -/

omit [Sha256] in
/-- A version that is a draft is submitted first. -/
theorem submit_eq_ok {tenantId : Id} {version : ToolVersion} {now : Time} {u : Unit}
    {c c' : CatalogTables} (hmem : version ∈ c.versions)
    (h : DirectPublishImportedOperation.submit tenantId version now c = .ok (u, c')) :
    (version.val.status = .review ∧ c' = c) ∨ ∃ w, Submission c c' version w := by
  unfold DirectPublishImportedOperation.submit at h
  cases hstatus : version.val.status with
  | draft =>
    simp only [hstatus, CatalogM.bind_eq_ok, CatalogM.lift_eq_ok] at h
    obtain ⟨w, _, ⟨hw, rfl⟩, hsave⟩ := h
    exact .inr ⟨w, submission_of_save hmem hw hsave⟩
  | review =>
    simp only [hstatus, CatalogM.pure_eq_ok] at h
    exact .inl ⟨rfl, h.2.symm⟩
  | published => simp [hstatus] at h
  | retired => simp [hstatus] at h

/-- The transactions that a direct publish is made of. -/
theorem inUnitOfWork_steps {env : ReviewEnv} {now : Time}
    {command : DirectPublishImportedOperationCommand}
    {result : DirectPublishImportedOperationResult} {c c' : CatalogTables}
    (h : DirectPublishImportedOperation.inUnitOfWork env now command c = .ok (result, c')) :
    ∃ c₁ version, ReviewImportedOperation.executeInTransaction env
        (DirectPublishImportedOperation.reviewCommand command) c = .ok (result.reviewed, c₁) ∧
      inTenant (·.val.tenantId) c₁.versions command.context.tenantId
        result.reviewed.toolVersionId = some version ∧
      ((result.alreadyPublished = true ∧ version.val.status = .published ∧ c' = c₁) ∨
        (result.alreadyPublished = false ∧ ∃ u c₂ publication,
          DirectPublishImportedOperation.submit command.context.tenantId version now c₁ =
            .ok (u, c₂) ∧
          publishToolInTransaction
            (DirectPublishImportedOperation.publishCommand command.context result.reviewed) now
            c₂ = .ok (publication, c') ∧
          result.retiredToolVersionId = publication.retiredToolVersionId)) := by
  simp only [DirectPublishImportedOperation.inUnitOfWork, CatalogM.bind_eq_ok,
    getVersionForUpdate_eq_ok, getBindingByToolVersionForUpdate_eq_ok, getToolForUpdate_eq_ok] at h
  obtain ⟨reviewed, c₁, hreviewed, foundVersion, _, ⟨hversion, rfl⟩, foundBinding, _, ⟨-, rfl⟩,
    foundTool, _, ⟨-, rfl⟩, h⟩ := h
  cases foundVersion with
  | none => simp at h
  | some version =>
    cases foundBinding with
    | none => simp at h
    | some binding =>
      cases foundTool with
      | none => simp at h
      | some tool =>
        -- A published version is reported as it is, any other one is submitted and published.
        by_cases hpublished : version.val.status = .published
        · simp only [hpublished, if_true, CatalogM.bind_eq_ok, CatalogM.raiseIf_eq_ok,
            CatalogM.orRaise_eq_ok, CatalogM.pure_eq_ok] at h
          obtain ⟨_, _, ⟨-, rfl⟩, _, _, ⟨-, rfl⟩, rfl, rfl⟩ := h
          exact ⟨_, version, hreviewed, hversion.symm, .inl ⟨rfl, hpublished, rfl⟩⟩
        · simp only [hpublished, if_false, CatalogM.bind_eq_ok, CatalogM.pure_eq_ok] at h
          obtain ⟨u, c₂, hsubmit, publication, c₃, hpublish, rfl, rfl⟩ := h
          exact ⟨_, version, hreviewed, hversion.symm,
            .inr ⟨rfl, u, c₂, publication, hsubmit, hpublish, rfl⟩⟩

theorem inUnitOfWork_eq_ok {env : ReviewEnv} {now : Time}
    {command : DirectPublishImportedOperationCommand}
    {result : DirectPublishImportedOperationResult} {c c' : CatalogTables}
    (h : DirectPublishImportedOperation.inUnitOfWork env now command c = .ok (result, c')) :
    ∃ c₁, Reviewed c c₁ (DirectPublishImportedOperation.reviewCommand command) result.reviewed ∧
      ∃ version ∈ c₁.versions, version.val.id = result.reviewed.toolVersionId ∧
        ((result.alreadyPublished = true ∧ version.val.status = .published ∧ c' = c₁) ∨
          (result.alreadyPublished = false ∧ ∃ c₂,
            ((version.val.status = .review ∧ c₂ = c₁) ∨ ∃ w, Submission c₁ c₂ version w) ∧
            ∃ publication, publishToolInTransaction
              (DirectPublishImportedOperation.publishCommand command.context result.reviewed) now
              c₂ = .ok (publication, c') ∧
              result.retiredToolVersionId = publication.retiredToolVersionId)) := by
  obtain ⟨c₁, version, hreviewed, hversion, hcases⟩ := inUnitOfWork_steps h
  obtain ⟨hmem, hid, -⟩ := inTenant_eq_some.1 hversion
  refine ⟨c₁, executeInTransaction_eq_ok hreviewed, version, hmem, hid, hcases.imp_right ?_⟩
  rintro ⟨halready, u, c₂, publication, hsubmit, hpublish, hretired⟩
  exact ⟨halready, c₂, submit_eq_ok hmem hsubmit, publication, hpublish, hretired⟩

theorem directPublish_effect {env : ReviewEnv} {now : Time}
    {command : DirectPublishImportedOperationCommand}
    {result : DirectPublishImportedOperationResult} {c c' : CatalogTables}
    (h : DirectPublishImportedOperation.execute env now command c = .ok (result, c')) :
    ReflTransGen CatalogEffect c c' := by
  obtain ⟨⟨result', c''⟩, hbody, heq⟩ := map_eq_ok.1 h
  cases heq
  obtain ⟨c₁, hreviewed, version, -, -, ⟨halready, -, -⟩ | ⟨halready, c₂, hsubmit, publication,
    hpublish, -⟩⟩ := inUnitOfWork_eq_ok hbody
  · simp only [halready, if_true]
    exact .refl
  · simp only [halready]
    obtain ⟨tool, version, binding, upstream, hpublication⟩ :=
      publishToolInTransaction_eq_ok hpublish
    have hsubmitted : ReflTransGen CatalogEffect c₁ c₂ := by
      rcases hsubmit with ⟨-, rfl⟩ | ⟨w, hw⟩
      · exact .refl
      · exact .single (.submission hw)
    exact (hreviewed.effect.trans hsubmitted).tail (.publication hpublication)

end Review

/-! ## Runs -/

/-- Every transaction of a command has the effect of the command. -/
theorem CatalogCommand.program_commits [Sha256] [Unicode] (command : CatalogCommand) :
    command.program.Commits command.Effect := by
  cases command with
  | importOpenApi self command =>
    apply (importOpenApi_commits self command).mono
    intro c c' h
    exact .single (.quiet h)
  | reviewImportedOperation env command =>
    apply Serial.commits_atomically.2
    intro c result c' h
    exact (executeInTransaction_eq_ok h).effect
  | submitToolVersionForReview now command =>
    apply Serial.commits_atomically.2
    intro c _ c' h
    obtain ⟨v, w, hsubmission⟩ := submitToolVersionForReview_eq_ok h
    exact .single (.submission hsubmission)
  | publishTool now command =>
    apply Serial.commits_atomically.2
    intro c result c' h
    obtain ⟨tool, version, binding, upstream, hpublication⟩ := publishToolInTransaction_eq_ok h
    exact .single (.publication hpublication)
  | directPublishImportedOperation env now command =>
    apply Serial.commits_atomically.2
    intro c result c' h
    exact directPublish_effect h
  | updateUpstream endpointPolicy command =>
    apply Serial.Commits.atomically_bind
    · intro c _ c' h
      rw [observe_eq_ok h]
      exact .refl
    intro observed
    apply Serial.Commits.bind Serial.commits_lift
    intro _
    apply Serial.Commits.bind Serial.commits_lift
    intro _
    apply Serial.commits_atomically.2
    intro c _ c' h
    exact .single (.quiet (write_quiet h))
  | disableUpstream command =>
    apply Serial.commits_atomically.2
    intro c _ c' h
    exact disable_eq_ok h

end NexusMcp
