-- SUMMARY: Direct publish refines review, submission and publication one after the other.
import NexusMcp.Catalog.Accepted
import NexusMcp.Catalog.Renaming
import NexusMcp.Txn.SerialOrder

/-!
# Direct Publish

The direct command reviews, submits and publishes in one transaction. It leaves the tables
that the three commands leave, up to what the generator and the clock return, and nothing
where it fails or where the version was published already.
-/

namespace NexusMcp

open Net (Unicode)
open Txn (Serial SerialWorld Table)

/-! ## Reviews that were given other values -/

/-- The values that were generated for the one review are renamed to those of the other. -/
structure ReviewEnv.RenamedTo (ρ : Renaming) (env env' : ReviewEnv) : Prop where
  tool : env'.toolId = ρ.tool env.toolId
  version : env'.versionId = ρ.version env.versionId
  binding : env'.bindingId = ρ.binding env.bindingId

/-- The identifiers are not in use yet. -/
structure ReviewEnv.Fresh (env : ReviewEnv) (c : CatalogTables) : Prop where
  tool : c.tools.find? env.toolId = none
  version : c.versions.find? env.versionId = none
  binding : c.bindings.find? env.bindingId = none

structure ReviewEnv.NonBlank (env : ReviewEnv) : Prop where
  tool : isBlank env.toolId = false
  version : isBlank env.versionId = false
  binding : isBlank env.bindingId = false

/-- What the generator of identifiers promises: they are not in use yet, and not blank. -/
structure ReviewEnv.Generated (env : ReviewEnv) (c : CatalogTables) : Prop where
  fresh : env.Fresh c
  nonBlank : env.NonBlank

def ReviewImportedOperationResult.renamed (ρ : Renaming) (result : ReviewImportedOperationResult) :
    ReviewImportedOperationResult :=
  { result with
    toolId := ρ.tool result.toolId
    toolVersionId := ρ.version result.toolVersionId
    toolBindingId := ρ.binding result.toolBindingId }

section Review

variable {ρ : Renaming}

/-- The same tool under another identifier. -/
theorem Tool.exists_with (t : Tool) {id : Id} (hid : isBlank id = false) :
    ∃ u : Tool, u.val = { t.val with id := id } := by
  have hvalid : Valid { t.val with id := id } := by
    have ht := t.property
    simp only [Valid, PostInit.checks, nonBlank, List.forall_mem_cons] at ht ⊢
    exact ⟨hid, ht.2⟩
  exact ⟨⟨_, hvalid⟩, rfl⟩

/-- The same version under other identifiers. -/
theorem ToolVersion.exists_with (v : ToolVersion) {id toolId : Id} (hid : isBlank id = false)
    (htoolId : isBlank toolId = false) (createdAt : Time) : ∃ w : ToolVersion,
      w.val = { v.val with id := id, toolId := toolId, createdAt := createdAt } := by
  have hvalid : Valid { v.val with id := id, toolId := toolId, createdAt := createdAt } := by
    have hv := v.property
    simp only [Valid, PostInit.checks, nonBlank, List.forall_mem_cons] at hv ⊢
    exact ⟨hid, hv.2.1, htoolId, hv.2.2.2⟩
  exact ⟨⟨_, hvalid⟩, rfl⟩

/-- The same binding under other identifiers. -/
theorem ToolBinding.exists_with (b : ToolBinding) {id toolVersionId : Id}
    (hid : isBlank id = false) (hversion : isBlank toolVersionId = false) (createdAt : Time) :
    ∃ d : ToolBinding, d.val =
      { b.val with id := id, toolVersionId := toolVersionId, createdAt := createdAt } := by
  have hvalid : Valid
      { b.val with id := id, toolVersionId := toolVersionId, createdAt := createdAt } := by
    have hb := b.property
    simp only [Valid, PostInit.checks, nonBlank, List.forall_mem_cons] at hb ⊢
    exact ⟨hid, hb.2.1, hversion, hb.2.2.2⟩
  exact ⟨⟨_, hvalid⟩, rfl⟩

theorem Tool.id_nonBlank (t : Tool) : isBlank t.val.id = false := by
  have h := t.property
  simp only [Valid, PostInit.checks, nonBlank, List.forall_mem_cons] at h
  exact h.1

theorem ToolVersion.id_nonBlank (v : ToolVersion) : isBlank v.val.id = false := by
  have h := v.property
  simp only [Valid, PostInit.checks, nonBlank, List.forall_mem_cons] at h
  exact h.1

variable [Sha256] {env env' : ReviewEnv} {command : ReviewImportedOperationCommand}
  {operation : ImportedOperation}

theorem exists_buildVersion {tool tool' : Tool} {number : Nat} {version : ToolVersion}
    (henv : env.RenamedTo ρ env') (hblank : isBlank env'.versionId = false)
    (htool : tool.Alike ρ tool')
    (h : ReviewImportedOperation.buildVersion env command operation tool number = .ok version) :
    ∃ version', ReviewImportedOperation.buildVersion env' command operation tool' number =
      .ok version' ∧ version.Alike ρ version' := by
  have hid : tool'.val.id = ρ.tool tool.val.id := htool.field (·.id)
  have hname : tool'.val.canonicalName = tool.val.canonicalName := htool.field (·.canonicalName)
  simp only [ReviewImportedOperation.buildVersion, bind_eq_ok, construct_eq_ok] at h ⊢
  obtain ⟨inputSchema, hinput, outputSchema, houtput, tags, htags, digest, hdigest, hversion⟩ := h
  obtain ⟨version', hversion'⟩ := version.exists_with hblank tool'.id_nonBlank
    env'.versionCreatedAt
  refine ⟨version', ⟨inputSchema, hinput, outputSchema, houtput, tags, htags, digest, hdigest, ?_⟩,
    ?_⟩
  · rw [hversion', hversion, hname]
  · unfold ToolVersion.Alike
    rw [hversion', hid, henv.version, hversion]
    rfl

theorem exists_buildBinding {version version' : ToolVersion} {binding : ToolBinding}
    (henv : env.RenamedTo ρ env') (hblank : isBlank env'.bindingId = false)
    (hversion : version.Alike ρ version')
    (h : ReviewImportedOperation.buildBinding env operation version = .ok binding) :
    ∃ binding', ReviewImportedOperation.buildBinding env' operation version' = .ok binding' ∧
      binding.Alike ρ binding' := by
  simp only [ReviewImportedOperation.buildBinding, bind_eq_ok, construct_eq_ok] at h ⊢
  obtain ⟨parameters, hparameters, requestBody, hbody, pending, hpending, digest, hdigest,
    hbinding⟩ := h
  obtain ⟨pending', hpending'⟩ := pending.exists_with hblank version'.id_nonBlank
    env'.bindingCreatedAt
  obtain ⟨binding', hbinding'⟩ := binding.exists_with hblank version'.id_nonBlank
    env'.bindingCreatedAt
  refine ⟨binding', ⟨parameters, hparameters, requestBody, hbody, pending', ?_, digest, ?_, ?_⟩, ?_⟩
  · rw [hpending', hpending]
  · rw [hpending', ← hdigest]
    rfl
  · rw [hbinding', hbinding, hpending']
  · unfold ToolBinding.Alike
    rw [hbinding', hversion.id, henv.binding, hbinding, hpending]
    rfl

omit [Sha256] in
theorem mirrors_getOrAddTool {upstream : UpstreamService} {name : String}
    (henv : env.RenamedTo ρ env') (hblank : isBlank env'.toolId = false) :
    CatalogM.Mirrors ρ (Tool.Alike ρ)
      (ReviewImportedOperation.getOrAddTool env command upstream name)
      (ReviewImportedOperation.getOrAddTool env' command upstream name) := by
  unfold ReviewImportedOperation.getOrAddTool
  refine .bind (mirrors_getToolByNameForUpdate _ _) fun found found' hfound => ?_
  cases hfound with
  | some htool => exact .pure htool
  | none =>
    refine .bind (Q := Tool.Alike ρ) (.lift fun t ht => ?_) fun tool tool' htool => ?_
    · rw [construct_eq_ok] at ht
      obtain ⟨t', ht'⟩ := t.exists_with hblank
      refine ⟨t', ?_, ?_⟩
      · rw [construct_eq_ok, ht', ht]
      · unfold Tool.Alike
        rw [ht', henv.tool, ht]
        rfl
    refine .bind (mirrors_addTool _ htool) fun _ _ _ => ?_
    exact .pure htool

omit [Sha256] in
/-- What is reported of rows that are alike. -/
theorem result_alike {tool tool' : Tool} {version version' : ToolVersion}
    {binding binding' : ToolBinding} (htool : tool.Alike ρ tool')
    (hversion : version.Alike ρ version') (hbinding : binding.Alike ρ binding') :
    ReviewImportedOperation.result operation tool' version' binding' =
      (ReviewImportedOperation.result operation tool version binding).renamed ρ := by
  have htoolId : tool'.val.id = ρ.tool tool.val.id := htool.field (·.id)
  have hname : tool'.val.canonicalName = tool.val.canonicalName := htool.field (·.canonicalName)
  have hschema : version'.val.schemaDigest = version.val.schemaDigest :=
    hversion.field (·.schemaDigest)
  have hdigest : binding'.val.bindingDigest = binding.val.bindingDigest :=
    hbinding.field (·.bindingDigest)
  unfold ReviewImportedOperation.result ReviewImportedOperationResult.renamed
  rw [htoolId, hversion.id, hbinding.id, hname, hversion.version, hschema, hdigest]

omit [Sha256] in
theorem exists_accept {versionId bindingId : Id} {notes : Option String}
    {accepted : ImportedOperation}
    (h : operation.accept versionId bindingId notes = .ok accepted) : ∃ accepted',
      operation.accept (ρ.version versionId) (ρ.binding bindingId) notes = .ok accepted' ∧
        accepted.Alike ρ accepted' := by
  obtain ⟨hconflict, hstatus, rfl⟩ := ImportedOperation.accept_eq_ok.1 h
  refine ⟨_, ImportedOperation.accept_eq_ok.2 ⟨hconflict, hstatus, rfl⟩, ?_⟩
  unfold ImportedOperation.Alike ImportedOperation.renamed
  rw [if_pos rfl]
  rfl

theorem mirrors_draft (henv : env.RenamedTo ρ env') (hblank : env'.NonBlank) :
    CatalogM.Mirrors ρ (fun r r' => r' = r.renamed ρ)
      (ReviewImportedOperation.draft env command operation)
      (ReviewImportedOperation.draft env' command operation) := by
  unfold ReviewImportedOperation.draft
  refine .bind (.raiseIf fun h => h) fun _ _ _ => ?_
  refine .bind (Q := (· = ·)) (.orRaise ?_) fun name name' hname => ?_
  · cases operation.generatedToolName with
    | none => exact .none
    | some name => exact .some rfl
  subst hname
  refine .bind (mirrors_getUpstreamForUpdate _ _) fun _ _ hfound => ?_
  refine .bind (.orRaise hfound) fun upstream upstream' hupstream => ?_
  subst hupstream
  refine .bind (.raiseIf fun h => h) fun _ _ _ => ?_
  refine .bind (mirrors_getOrAddTool henv hblank.tool) fun tool tool' htool => ?_
  have htoolId : tool'.val.id = ρ.tool tool.val.id := htool.field (·.id)
  rw [htoolId]
  refine .bind (mirrors_nextVersionNumber _ _) fun number number' hnumber => ?_
  subst hnumber
  refine .bind (.lift fun v hv => exists_buildVersion henv hblank.version htool hv)
    fun version version' hversion => ?_
  refine .bind (.lift fun b hb => exists_buildBinding henv hblank.binding hversion hb)
    fun binding binding' hbinding => ?_
  refine .bind (Q := ImportedOperation.Alike ρ) (.lift fun o ho => ?_) fun o o' ho => ?_
  · rw [hversion.id, hbinding.id]
    exact exists_accept ho
  refine .bind (mirrors_addVersion _ hversion) fun _ _ _ => ?_
  refine .bind (mirrors_addBinding _ hbinding) fun _ _ _ => ?_
  refine .bind (mirrors_saveOperation _ ho) fun _ _ _ => ?_
  exact .pure (result_alike htool hversion hbinding)

omit [Sha256] in
theorem mirrors_existingResult (tenantId : Id) (haccepted : operation.reviewStatus = .accepted) :
    CatalogM.Mirrors ρ (fun r r' => r' = r.renamed ρ)
      (ReviewImportedOperation.existingResult tenantId operation)
      (ReviewImportedOperation.existingResult tenantId (operation.renamed ρ)) := by
  have hversionRef : (operation.renamed ρ).draftToolVersionId =
      operation.draftToolVersionId.map ρ.version := by
    rw [ImportedOperation.renamed, if_pos haccepted]
  have hbindingRef : (operation.renamed ρ).draftToolBindingId =
      operation.draftToolBindingId.map ρ.binding := by
    rw [ImportedOperation.renamed, if_pos haccepted]
  unfold ReviewImportedOperation.existingResult
  rw [hversionRef, hbindingRef]
  cases operation.draftToolVersionId with
  | none => exact .raise
  | some versionId =>
    cases operation.draftToolBindingId with
    | none => exact .raise
    | some bindingId =>
      refine .bind (mirrors_getVersionForUpdate _ _) fun found found' hfound => ?_
      refine .bind (mirrors_getBindingById _ _) fun foundBinding foundBinding' hfoundBinding => ?_
      cases hfound with
      | none => exact .raise
      | @some version version' hversion =>
        cases hfoundBinding with
        | none => exact .raise
        | some hbinding =>
          dsimp only
          rw [hversion.toolId]
          refine .bind (mirrors_getToolForUpdate _ _) fun _ _ hfound => ?_
          refine .bind (.orRaise hfound) fun tool tool' htool => ?_
          refine .pure ?_
          rw [← result_alike htool hversion hbinding]
          unfold ReviewImportedOperation.result
          rw [ImportedOperation.renamed_field (·.id) fun _ _ => rfl]

/-- A review that is given other values follows a review. -/
theorem mirrors_executeInTransaction (henv : env.RenamedTo ρ env') (hblank : env'.NonBlank) :
    CatalogM.Mirrors ρ (fun r r' => r' = r.renamed ρ)
      (ReviewImportedOperation.executeInTransaction env command)
      (ReviewImportedOperation.executeInTransaction env' command) := by
  unfold ReviewImportedOperation.executeInTransaction
  refine .bind (mirrors_getOperationForUpdate _ _) fun _ _ hfound => ?_
  refine .bind (.orRaise hfound) fun operation operation' hoperation => ?_
  have hstatus : operation'.reviewStatus = operation.reviewStatus := by
    rw [hoperation]
    exact ImportedOperation.renamed_field (·.reviewStatus) fun _ _ => rfl
  rw [hstatus]
  split
  · next haccepted =>
    rw [hoperation]
    exact mirrors_existingResult _ haccepted
  · next hother =>
    have hsame : operation' = operation := by
      rw [hoperation, ImportedOperation.renamed, if_neg hother]
    rw [hsame]
    exact mirrors_draft henv hblank

end Review

/-! ## The three commands -/

section Workflow

variable [Sha256]

/-- `SubmitToolVersionForReview`, where the version still is a draft. -/
def submitDraft (submittedAt : Time) (context : ActorContext) (toolVersionId : Id) :
    Serial CatalogTables Exc Unit := do
  let version ← Serial.atomically (getVersionForUpdate context.tenantId toolVersionId)
  if version.map (·.val.status) = some .draft then
    Serial.atomically (SubmitToolVersionForReview.execute submittedAt
      { context := context, toolVersionId := toolVersionId })
  else return ()

/-- `ReviewImportedOperation`, the submission, and then `PublishTool` with the digests that were
    reviewed. -/
def stepwise (env : ReviewEnv) (submittedAt publishedAt : Time)
    (command : DirectPublishImportedOperationCommand) :
    Serial CatalogTables Exc PublishToolResult := do
  let reviewed ← Serial.atomically (ReviewImportedOperation.executeInTransaction env
    (DirectPublishImportedOperation.reviewCommand command))
  submitDraft submittedAt command.context reviewed.toolVersionId
  Serial.atomically (publishToolInTransaction
    (DirectPublishImportedOperation.publishCommand command.context reviewed) publishedAt)

variable {ρ : Renaming} {c c' d : CatalogTables}

omit [Sha256] in
/-- The submission on its own follows that in the direct command. -/
theorem solo_submitDraft {context : ActorContext} {toolVersionId : Id} {version : ToolVersion}
    {now : Time} {u : Unit} (halike : c.toCatalogRows.Alike ρ d.toCatalogRows)
    (hversion : inTenant (·.val.tenantId) c.versions context.tenantId toolVersionId = some version)
    (h : DirectPublishImportedOperation.submit context.tenantId version now c = .ok (u, c'))
    (submittedAt : Time) : ∃ d',
    (submitDraft submittedAt context (ρ.version toolVersionId)).solo d = (.ok (), d') ∧
      c'.toCatalogRows.Alike ρ d'.toCatalogRows := by
  obtain ⟨found, d₁, hget, hfound, hd₁⟩ := mirrors_getVersionForUpdate (ρ := ρ) context.tenantId
    toolVersionId c d halike _ _ (getVersionForUpdate_eq_ok.2 ⟨rfl, rfl⟩)
  obtain ⟨-, rfl⟩ := getVersionForUpdate_eq_ok.1 hget
  rw [hversion] at hfound
  obtain ⟨version', rfl, hversion'⟩ : ∃ version', found = some version' ∧
      version.Alike ρ version' := by
    cases hfound with
    | some h => exact ⟨_, rfl, h⟩
  unfold submitDraft
  rw [Serial.solo_bind (Serial.solo_atomically_ok hget), Option.map_some, hversion'.status]
  unfold DirectPublishImportedOperation.submit at h
  cases hstatus : version.val.status with
  | draft =>
    simp only [hstatus, CatalogM.bind_eq_ok, CatalogM.lift_eq_ok] at h
    obtain ⟨w, _, ⟨hw, rfl⟩, hsave⟩ := h
    obtain ⟨w', hw', hww'⟩ := hversion'.submitForReview hw submittedAt
    obtain ⟨_, d', hsave', -, hd'⟩ := mirrors_saveVersion _ hww' _ _ halike _ _ hsave
    refine ⟨d', ?_, hd'⟩
    rw [if_pos rfl]
    refine Serial.solo_atomically_ok ?_
    simp only [SubmitToolVersionForReview.execute, CatalogM.bind_eq_ok, CatalogM.orRaise_eq_ok,
      CatalogM.raiseIf_eq_ok, CatalogM.lift_eq_ok]
    exact ⟨_, _, hget, version', _, ⟨rfl, rfl⟩, (), _,
      ⟨not_not.2 (hversion'.status.trans hstatus), rfl⟩, w', _, ⟨hw', rfl⟩, hsave'⟩
  | review =>
    simp only [hstatus, CatalogM.pure_eq_ok] at h
    obtain ⟨-, rfl⟩ := h
    exact ⟨_, rfl, halike⟩
  | published => simp [hstatus] at h
  | retired => simp [hstatus] at h

/-- The three commands, given other values, follow the direct command. -/
theorem solo_stepwise {env env' : ReviewEnv} {now : Time}
    {command : DirectPublishImportedOperationCommand}
    {reviewed : ReviewImportedOperationResult} {version : ToolVersion} {u : Unit}
    {publication : PublishToolResult} {c₁ c₂ : CatalogTables}
    (halike : c.toCatalogRows.Alike ρ d.toCatalogRows) (henv : env.RenamedTo ρ env')
    (hblank : env'.NonBlank)
    (hreview : ReviewImportedOperation.executeInTransaction env
      (DirectPublishImportedOperation.reviewCommand command) c = .ok (reviewed, c₁))
    (hversion : inTenant (·.val.tenantId) c₁.versions command.context.tenantId
      reviewed.toolVersionId = some version)
    (hsubmit : DirectPublishImportedOperation.submit command.context.tenantId version now c₁ =
      .ok (u, c₂))
    (hpublish : publishToolInTransaction
      (DirectPublishImportedOperation.publishCommand command.context reviewed) now c₂ =
        .ok (publication, c')) (submittedAt publishedAt : Time) :
    ∃ publication' d', (stepwise env' submittedAt publishedAt command).solo d =
      (.ok publication', d') ∧ c'.toCatalogRows.Alike ρ d'.toCatalogRows := by
  obtain ⟨_, d₁, hreview', rfl, hd₁⟩ :=
    mirrors_executeInTransaction henv hblank _ _ halike _ _ hreview
  obtain ⟨d₂, hsubmit', hd₂⟩ := solo_submitDraft hd₁ hversion hsubmit submittedAt
  obtain ⟨publication', d', hpublish', -, hd'⟩ :=
    mirrors_publishToolInTransaction _ now publishedAt _ _ hd₂ _ _ hpublish
  refine ⟨publication', d', ?_, hd'⟩
  unfold stepwise
  rw [Serial.solo_bind (Serial.solo_atomically_ok hreview')]
  exact (Serial.solo_bind hsubmit').trans (Serial.solo_atomically_ok hpublish')

end Workflow

/-! ## Renaming what was generated -/

section Generated

/-- The renaming leaves every identifier that is in use. -/
structure Renaming.Keeps (ρ : Renaming) (c : CatalogTables) : Prop where
  tool : ∀ t ∈ c.tools, ρ.tool t.val.id = t.val.id
  version : ∀ v ∈ c.versions, ρ.version v.val.id = v.val.id
  binding : ∀ b ∈ c.bindings, ρ.binding b.val.id = b.val.id

variable {ρ : Renaming} {c : CatalogTables} {env env' : ReviewEnv}

/-- The identifiers that were generated for two reviews change places. -/
def ReviewEnv.swap (env env' : ReviewEnv) : Renaming where
  tool := Equiv.swap env.toolId env'.toolId
  version := Equiv.swap env.versionId env'.versionId
  binding := Equiv.swap env.bindingId env'.bindingId

theorem ReviewEnv.renamedTo_swap : env.RenamedTo (env.swap env') env' where
  tool := (Equiv.swap_apply_left ..).symm
  version := (Equiv.swap_apply_left ..).symm
  binding := (Equiv.swap_apply_left ..).symm

theorem swap_of_fresh {ν : Type} {key : ν → Id} {t : Table key} {a b : Id} (ha : t.find? a = none)
    (hb : t.find? b = none) : ∀ v ∈ t, Equiv.swap a b (key v) = key v := fun v hv =>
  Equiv.swap_apply_of_ne_of_ne (Table.find?_eq_none.1 ha v hv) (Table.find?_eq_none.1 hb v hv)

theorem ReviewEnv.keeps_swap (h : env.Fresh c) (h' : env'.Fresh c) : (env.swap env').Keeps c where
  tool := swap_of_fresh h.tool h'.tool
  version := swap_of_fresh h.version h'.version
  binding := swap_of_fresh h.binding h'.binding

/-- All that the rows refer to is there, so that a renaming of what is not there leaves them. -/
theorem Renaming.Keeps.alike [Sha256] (h : ρ.Keeps c) (hinv : CatalogInvariant c)
    (hreferenced : c.Referenced) : c.toCatalogRows.Alike ρ c.toCatalogRows where
  tools := Table.related_refl fun t ht => by
    unfold Tool.Alike ToolFields.renamed
    rw [h.tool t ht]
  versions := Table.related_refl fun v hv => by
    obtain ⟨t, ht, htool, -⟩ := hinv.tooled v hv
    unfold ToolVersion.Alike ToolVersionFields.renamed
    rw [h.version v hv, ← htool, h.tool t ht, htool]
  bindings := Table.related_refl fun b hb => by
    obtain ⟨v, hv, hversion⟩ := hinv.owned b hb
    unfold ToolBinding.Alike ToolBindingFields.renamed
    rw [h.binding b hb, ← hversion, h.version v hv, hversion]
  upstreams := rfl
  operations := Table.related_refl fun o ho => by
    unfold ImportedOperation.Alike ImportedOperation.renamed
    split
    · next haccepted =>
      have hrefers := hreferenced o ho haccepted
      have hversion : o.draftToolVersionId.map ρ.version = o.draftToolVersionId := by
        cases hid : o.draftToolVersionId with
        | none => rfl
        | some id =>
          obtain ⟨v, hv, rfl⟩ := hrefers.version id hid
          rw [Option.map_some, h.version v hv]
      have hbinding : o.draftToolBindingId.map ρ.binding = o.draftToolBindingId := by
        cases hid : o.draftToolBindingId with
        | none => rfl
        | some id =>
          obtain ⟨b, hb, rfl⟩ := hrefers.binding id hid
          rw [Option.map_some, h.binding b hb]
      rw [hversion, hbinding]
    · rfl
  jobs := rfl

variable {command : ReviewImportedOperationCommand} {c' : CatalogTables}

/-- The identifier of a tool that is not added may be any other. -/
theorem exists_fresh_getOrAddTool {upstream : UpstreamService} {name : String} {tool : Tool}
    (h : ReviewImportedOperation.getOrAddTool env command upstream name c = .ok (tool, c'))
    (hfresh : env'.Fresh c) : ∃ toolId, c.tools.find? toolId = none ∧
      ReviewImportedOperation.getOrAddTool { env with toolId := toolId } command upstream name c =
        .ok (tool, c') := by
  unfold ReviewImportedOperation.getOrAddTool at h ⊢
  simp only [CatalogM.bind_eq_ok] at h ⊢
  obtain ⟨found, c₁, hfound, h⟩ := h
  obtain ⟨-, rfl⟩ := CatalogM.read_eq_ok.1 hfound
  cases found with
  | some t => exact ⟨env'.toolId, hfresh.tool, _, _, hfound, h⟩
  | none =>
    refine ⟨env.toolId, ?_, _, _, hfound, h⟩
    simp only [CatalogM.bind_eq_ok, CatalogM.lift_eq_ok, construct_eq_ok, addTool_eq_ok] at h
    obtain ⟨t, _, ⟨ht, rfl⟩, _, _, ⟨-, hnew, -⟩, -⟩ := h
    rwa [ht] at hnew

variable [Sha256] {operation : ImportedOperation}

theorem id_of_buildVersion {tool : Tool} {number : Nat} {version : ToolVersion}
    (h : ReviewImportedOperation.buildVersion env command operation tool number = .ok version) :
    version.val.id = env.versionId := by
  simp only [ReviewImportedOperation.buildVersion, bind_eq_ok, construct_eq_ok] at h
  obtain ⟨_, -, _, -, _, -, _, -, hversion⟩ := h
  rw [hversion]

theorem id_of_buildBinding {version : ToolVersion} {binding : ToolBinding}
    (h : ReviewImportedOperation.buildBinding env operation version = .ok binding) :
    binding.val.id = env.bindingId := by
  simp only [ReviewImportedOperation.buildBinding, bind_eq_ok, construct_eq_ok] at h
  obtain ⟨_, -, _, -, _, hpending, _, -, hbinding⟩ := h
  rw [hbinding, hpending]

/-- The identifiers that a draft uses are not in use before. -/
theorem exists_fresh_draft {result : ReviewImportedOperationResult}
    (h : ReviewImportedOperation.draft env command operation c = .ok (result, c'))
    (hfresh : env'.Fresh c) : ∃ env₁ : ReviewEnv, env₁.Fresh c ∧
      ReviewImportedOperation.draft env₁ command operation c = .ok (result, c') := by
  simp only [ReviewImportedOperation.draft, CatalogM.bind_eq_ok] at h ⊢
  obtain ⟨_, _, hconflict, name, _, hname, found, _, hfound, upstream, _, hupstream, _, _, hactive,
    tool, c₁, htool, number, _, hnumber, version, _, hversion, binding, _, hbinding, accepted, _,
    haccepted, _, c₂, hadd, _, c₃, haddBinding, h⟩ := h
  obtain ⟨-, rfl⟩ := CatalogM.raiseIf_eq_ok.1 hconflict
  obtain ⟨-, rfl⟩ := CatalogM.orRaise_eq_ok.1 hname
  obtain ⟨-, rfl⟩ := getUpstreamForUpdate_eq_ok.1 hfound
  obtain ⟨-, rfl⟩ := CatalogM.orRaise_eq_ok.1 hupstream
  obtain ⟨-, rfl⟩ := CatalogM.raiseIf_eq_ok.1 hactive
  obtain ⟨-, rfl⟩ := nextVersionNumber_eq_ok.1 hnumber
  obtain ⟨hversionOk, rfl⟩ := CatalogM.lift_eq_ok.1 hversion
  obtain ⟨hbindingOk, rfl⟩ := CatalogM.lift_eq_ok.1 hbinding
  obtain ⟨-, rfl⟩ := CatalogM.lift_eq_ok.1 haccepted
  obtain ⟨-, -, hversions, hbindings, -⟩ := getOrAddTool_eq_ok htool
  obtain ⟨-, -, hnewVersion, hrows⟩ := addVersion_eq_ok.1 hadd
  obtain ⟨-, hnewBinding, -⟩ := addBinding_eq_ok.1 haddBinding
  obtain ⟨toolId, hnewTool, htool'⟩ := exists_fresh_getOrAddTool htool hfresh
  refine ⟨{ env with toolId := toolId }, ⟨hnewTool, ?_, ?_⟩, _, _, hconflict, name, _, hname, found,
    _, hfound, upstream, _, hupstream, _, _, hactive, tool, _, htool', number, _, hnumber, version,
    _, hversion, binding, _, hbinding, accepted, _, haccepted, _, c₂, hadd, _, c₃, haddBinding, h⟩
  · rwa [id_of_buildVersion hversionOk, hversions] at hnewVersion
  · rw [hrows] at hnewBinding
    rwa [id_of_buildBinding hbindingOk, hbindings] at hnewBinding

/-- A review does what it does with identifiers that are not in use before. -/
theorem exists_fresh_executeInTransaction {result : ReviewImportedOperationResult}
    (h : ReviewImportedOperation.executeInTransaction env command c = .ok (result, c'))
    (hfresh : env'.Fresh c) : ∃ env₁ : ReviewEnv, env₁.Fresh c ∧
      ReviewImportedOperation.executeInTransaction env₁ command c = .ok (result, c') := by
  simp only [ReviewImportedOperation.executeInTransaction, CatalogM.bind_eq_ok] at h ⊢
  obtain ⟨found, _, hfound, operation, _, hoperation, h⟩ := h
  obtain ⟨-, rfl⟩ := getOperationForUpdate_eq_ok.1 hfound
  obtain ⟨-, rfl⟩ := CatalogM.orRaise_eq_ok.1 hoperation
  by_cases haccepted : operation.reviewStatus = .accepted
  · refine ⟨env', hfresh, found, _, hfound, operation, _, hoperation, ?_⟩
    rwa [if_pos haccepted] at h ⊢
  · rw [if_neg haccepted] at h
    obtain ⟨env₁, hfresh₁, hdraft⟩ := exists_fresh_draft h hfresh
    refine ⟨env₁, hfresh₁, found, _, hfound, operation, _, hoperation, ?_⟩
    rwa [if_neg haccepted]

/-- A direct publish that commits leaves what the three commands leave, up to what is generated
    for them. -/
theorem exists_stepwise {now : Time} {command : DirectPublishImportedOperationCommand}
    {result : DirectPublishImportedOperationResult} (hinv : CatalogInvariant c)
    (hreferenced : c.Referenced)
    (h : DirectPublishImportedOperation.execute env now command c = .ok (result, c'))
    (hcommitted : result.alreadyPublished = false) (hgenerated : env'.Generated c)
    (submittedAt publishedAt : Time) : ∃ ρ : Renaming, ρ.Keeps c ∧ ∃ publication c'',
      (stepwise env' submittedAt publishedAt command).solo c = (.ok publication, c'') ∧
        c'.toCatalogRows.Alike ρ c''.toCatalogRows := by
  obtain ⟨⟨result', c₃⟩, hbody, heq⟩ := map_eq_ok.1 h
  obtain ⟨rfl, rfl⟩ := Prod.mk.inj heq
  rw [hcommitted, if_neg Bool.false_ne_true]
  obtain ⟨c₁, version, hreview, hversion, ⟨halready, -⟩ | ⟨-, u, c₂, publication, hsubmit, hpublish,
    -⟩⟩ := inUnitOfWork_steps hbody
  · rw [hcommitted] at halready
    cases halready
  obtain ⟨env₁, hfresh, hreview₁⟩ := exists_fresh_executeInTransaction hreview hgenerated.fresh
  have hkeeps := ReviewEnv.keeps_swap hfresh hgenerated.fresh
  exact ⟨_, hkeeps, solo_stepwise (hkeeps.alike hinv hreferenced) ReviewEnv.renamedTo_swap
    hgenerated.nonBlank hreview₁ hversion hsubmit hpublish submittedAt publishedAt⟩

end Generated

/-! ## Publishing again -/

section Again

variable [Sha256] {c c' : CatalogTables} {env : ReviewEnv} {now : Time}
  {command : DirectPublishImportedOperationCommand} {result : DirectPublishImportedOperationResult}

/-- The operation of the command is accepted, and its version is published. -/
structure PublishedOperation (c : CatalogTables) (command : DirectPublishImportedOperationCommand)
    (reviewed : ReviewImportedOperationResult) (operation : ImportedOperation) (tool : Tool)
    (version : ToolVersion) (binding : ToolBinding) : Prop where
  operationId : operation.id = command.operationId
  existing : Existing c command.context.tenantId operation tool version binding
  published : version.val.status = .published
  reviewed : reviewed = ReviewImportedOperation.result operation tool version binding

omit [Sha256] in
/-- The resources of an accepted operation are found again under the same identities. -/
theorem Existing.kept {tenantId : Id} {operation : ImportedOperation} {tool : Tool}
    {version : ToolVersion} {binding : ToolBinding}
    (h : Existing c tenantId operation tool version binding) (hkept : Kept c c') :
    ∃ tool' version' binding', Existing c' tenantId operation tool' version' binding' ∧
      version'.val.id = version.val.id ∧
      ReviewImportedOperation.result operation tool' version' binding' =
        ReviewImportedOperation.result operation tool version binding := by
  obtain ⟨tool', htool', htool⟩ := hkept.tools tool h.toolMem
  obtain ⟨version', hversion', hversion⟩ := hkept.versions version h.versionMem
  obtain ⟨binding', hbinding', hbinding⟩ := hkept.bindings binding h.bindingMem
  -- What is compared is part of the identity of each row, and that is kept.
  obtain ⟨htoolId, htoolTenant⟩ := Tool.id_of_identity htool
  obtain ⟨hversionId, hversionTenant, hversionTool, hnumber⟩ := ToolVersion.id_of_identity hversion
  obtain ⟨hbindingId, hbindingTenant, -, -⟩ := ToolBinding.id_of_identity hbinding
  have hname : tool'.val.canonicalName = tool.val.canonicalName := by
    change tool'.identity.canonicalName = tool.identity.canonicalName
    rw [htool]
  have hschema : version'.val.schemaDigest = version.val.schemaDigest := by
    change version'.identity.schemaDigest = version.identity.schemaDigest
    rw [hversion]
  have hdigest : binding'.val.bindingDigest = binding.val.bindingDigest := by
    change binding'.identity.bindingDigest = binding.identity.bindingDigest
    rw [hbinding]
  refine ⟨tool', version', binding', ?_, hversionId, ?_⟩
  · constructor
    · exact hkept.operations operation h.operationMem h.accepted
    · exact h.operationTenant
    · exact h.accepted
    · rw [hversionId]
      exact h.versionRef
    · rw [hbindingId]
      exact h.bindingRef
    · exact hversion'
    · exact hversionTenant.trans h.versionTenant
    · exact hbinding'
    · exact hbindingTenant.trans h.bindingTenant
    · exact htool'
    · exact htoolTenant.trans h.toolTenant
    · rw [htoolId, hversionTool]
      exact h.toolId
  · unfold ReviewImportedOperation.result
    rw [htoolId, hversionId, hbindingId, hname, hnumber, hschema, hdigest]

/-- After a review the operation is accepted, and its resources are those that were reported. -/
theorem Reviewed.existing_after {command : ReviewImportedOperationCommand}
    {reviewed : ReviewImportedOperationResult} (h : Reviewed c c' command reviewed) :
    ∃ operation tool version binding, operation.id = command.operationId ∧
      Existing c' command.context.tenantId operation tool version binding ∧
      reviewed = ReviewImportedOperation.result operation tool version binding := by
  cases h with
  | @existing operation tool version binding hid h heq hresult =>
    rw [heq]
    exact ⟨operation, tool, version, binding, hid, h, hresult⟩
  | @drafted operation accepted upstream tool version binding h hresult =>
    obtain ⟨-, -, haccepted⟩ := ImportedOperation.accept_eq_ok.1 h.accept
    have hid : operation.id = accepted.id := by rw [haccepted]
    refine ⟨accepted, tool, version, binding, hid.symm.trans h.operationId, ?_, ?_⟩
    · constructor
      · rw [h.operations]
        exact (mem_replaceRow h.operationMem hid).2 (.inr rfl)
      · rw [haccepted]
        exact h.operationTenant
      · rw [haccepted]
      · rw [haccepted]
      · rw [haccepted]
      · exact h.mem_versions.2 (.inr rfl)
      · exact h.drafts.versionTenant
      · exact h.mem_bindings.2 (.inr rfl)
      · exact h.drafts.bindingTenant.trans h.operationTenant
      · exact h.mem_tools.1
      · exact h.toolTenant
      · exact h.drafts.versionTool.symm
    · rw [hresult, ReviewImportedOperation.result, ReviewImportedOperation.result, hid]

/-- A version that is published was not drafted just now. -/
theorem publishedOperation_of_already
    (h : DirectPublishImportedOperation.execute env now command c = .ok (result, c'))
    (halready : result.alreadyPublished = true) : c' = c ∧
      ∃ operation tool version binding,
        PublishedOperation c command result.reviewed operation tool version binding := by
  obtain ⟨⟨result', c₃⟩, hbody, heq⟩ := map_eq_ok.1 h
  obtain ⟨rfl, rfl⟩ := Prod.mk.inj heq
  refine ⟨by rw [halready, if_pos rfl], ?_⟩
  obtain ⟨c₁, hreviewed, version, hmem, hid, ⟨-, hpublished, -⟩ | ⟨hcommitted, -⟩⟩ :=
    inUnitOfWork_eq_ok hbody
  · cases hreviewed with
    | @existing operation tool version' binding hoperation h heq hresult =>
      rw [hresult] at hid
      rw [heq] at hmem
      rw [Table.eq_of_key_eq hmem h.versionMem hid] at hpublished
      exact ⟨operation, tool, version', binding, hoperation, h, hpublished, hresult⟩
    | @drafted operation accepted upstream tool version' binding h hresult =>
      rw [hresult] at hid
      have hdrafted := h.mem_versions.2 (.inr (rfl : version' = version'))
      rw [Table.eq_of_key_eq hmem hdrafted hid, h.drafts.versionDraft] at hpublished
      cases hpublished
  · rw [halready] at hcommitted
    cases hcommitted

/-- A direct publish that commits leaves the operation accepted and its version published. -/
theorem publishedOperation_of_committed
    (h : DirectPublishImportedOperation.execute env now command c = .ok (result, c'))
    (hcommitted : result.alreadyPublished = false) : ∃ operation tool version binding,
      PublishedOperation c' command result.reviewed operation tool version binding := by
  obtain ⟨⟨result', c₃⟩, hbody, heq⟩ := map_eq_ok.1 h
  obtain ⟨rfl, rfl⟩ := Prod.mk.inj heq
  rw [hcommitted, if_neg Bool.false_ne_true]
  obtain ⟨c₁, hreviewed, version, hmem, hid, ⟨halready, -⟩ | ⟨-, c₂, hsubmit, publication, hpublish,
    -⟩⟩ := inUnitOfWork_eq_ok hbody
  · rw [hcommitted] at halready
    cases halready
  obtain ⟨operation, tool, version₁, binding, hoperation, hexisting, hresult⟩ :=
    hreviewed.existing_after
  have hsubmitted : Kept c₁ c₂ := by
    obtain ⟨-, rfl⟩ | ⟨w, hw⟩ := hsubmit
    · exact Kept.refl _
    · exact Kept.of_submission hw
  obtain ⟨tool', version', binding', hexisting', hversionId, hsame⟩ :=
    hexisting.kept (hsubmitted.trans (Kept.of_publish hpublish))
  obtain ⟨tool₂, version₂, binding₂, upstream, hpublication⟩ :=
    publishToolInTransaction_eq_ok hpublish
  obtain ⟨_, w, hrepublished⟩ := hpublication.republished
  refine ⟨operation, tool', version', binding', hoperation, hexisting', ?_,
    hresult.trans hsame.symm⟩
  -- the version that was published is the one under the identifier that was reviewed
  have hw : w.val.id = version'.val.id := by
    rw [(ToolVersion.id_of_identity hrepublished.identity).1, hpublication.versionId, hversionId]
    change result'.reviewed.toolVersionId = _
    rw [hresult]
    rfl
  rw [Table.eq_of_key_eq hexisting'.versionMem hrepublished.mem hw.symm]
  exact hrepublished.published

/-- A success leaves the operation accepted and its version published. -/
theorem publishedOperation_of_ok
    (h : DirectPublishImportedOperation.execute env now command c = .ok (result, c')) :
    ∃ operation tool version binding,
      PublishedOperation c' command result.reviewed operation tool version binding := by
  cases halready : result.alreadyPublished with
  | true =>
    obtain ⟨rfl, hpublished⟩ := publishedOperation_of_already h halready
    exact hpublished
  | false => exact publishedOperation_of_committed h halready

/-- Where no newer version is published, the version still is. -/
theorem PublishedOperation.continues {reviewed : ReviewImportedOperationResult}
    {operation : ImportedOperation} {tool : Tool} {version : ToolVersion} {binding : ToolBinding}
    (h : PublishedOperation c command reviewed operation tool version binding)
    (hcontinues : Continues c c')
    (hnewest : ∀ v ∈ c'.versions, v.val.toolId = reviewed.toolId → v.val.status = .published →
      v.val.version ≤ reviewed.version) : ∃ tool' version' binding',
      PublishedOperation c' command reviewed operation tool' version' binding' := by
  obtain ⟨tool', version', binding', hexisting', hversionId, hsame⟩ :=
    h.existing.kept hcontinues.kept
  refine ⟨tool', version', binding', h.operationId, hexisting', ?_, h.reviewed.trans hsame.symm⟩
  obtain ⟨v, hv, hvtool, hvpublished, hnumber⟩ :=
    hcontinues.succeeds version h.existing.versionMem h.published
  have htool : v.val.toolId = reviewed.toolId := by
    rw [hvtool, ← h.existing.toolId, h.reviewed]
    rfl
  have hle := hnewest v hv htool hvpublished
  have hreviewed : reviewed.version = version.val.version := by
    rw [h.reviewed]
    rfl
  obtain ⟨hid, -⟩ | hlt := hnumber
  · rwa [Table.eq_of_key_eq hexisting'.versionMem hv (hversionId.trans hid.symm)]
  · omega

/-- A review of an operation that is accepted reports its resources. -/
theorem executeInTransaction_of_existing {command : ReviewImportedOperationCommand}
    {operation : ImportedOperation} {tool : Tool} {version : ToolVersion} {binding : ToolBinding}
    (hid : operation.id = command.operationId)
    (h : Existing c command.context.tenantId operation tool version binding) :
    ReviewImportedOperation.executeInTransaction env command c =
      .ok (ReviewImportedOperation.result operation tool version binding, c) := by
  have hoperation : inTenant (·.tenantId) c.operations command.context.tenantId
      command.operationId = some operation :=
    inTenant_eq_some.2 ⟨h.operationMem, hid, h.operationTenant⟩
  have hversion : inTenant (·.val.tenantId) c.versions command.context.tenantId version.val.id =
      some version := inTenant_eq_some.2 ⟨h.versionMem, rfl, h.versionTenant⟩
  have hbinding : inTenant (·.val.tenantId) c.bindings command.context.tenantId binding.val.id =
      some binding := inTenant_eq_some.2 ⟨h.bindingMem, rfl, h.bindingTenant⟩
  have htool : inTenant (·.val.tenantId) c.tools command.context.tenantId version.val.toolId =
      some tool := inTenant_eq_some.2 ⟨h.toolMem, h.toolId, h.toolTenant⟩
  simp only [ReviewImportedOperation.executeInTransaction, CatalogM.bind_eq_ok,
    getOperationForUpdate_eq_ok, CatalogM.orRaise_eq_ok]
  refine ⟨_, _, ⟨rfl, rfl⟩, operation, _, ⟨hoperation, rfl⟩, ?_⟩
  rw [if_pos h.accepted, ReviewImportedOperation.existingResult, h.versionRef, h.bindingRef]
  simp only [CatalogM.bind_eq_ok, getVersionForUpdate_eq_ok, getBindingById_eq_ok]
  refine ⟨_, _, ⟨hversion.symm, rfl⟩, _, _, ⟨hbinding.symm, rfl⟩, ?_⟩
  simp only [CatalogM.bind_eq_ok, getToolForUpdate_eq_ok, CatalogM.orRaise_eq_ok,
    CatalogM.pure_eq_ok]
  exact ⟨_, _, ⟨rfl, rfl⟩, tool, _, ⟨htool, rfl⟩, rfl, rfl⟩

/-- Publishing the operation again reports the version that is published. -/
theorem PublishedOperation.execute_eq {reviewed : ReviewImportedOperationResult}
    {operation : ImportedOperation} {tool : Tool} {version : ToolVersion} {binding : ToolBinding}
    (h : PublishedOperation c command reviewed operation tool version binding)
    (hinv : CatalogInvariant c) (env : ReviewEnv) (now : Time) : ∃ result,
      DirectPublishImportedOperation.execute env now command c = .ok (result, c) ∧
        result.alreadyPublished = true ∧ result.reviewed = reviewed := by
  have hex := h.existing
  have hversion : inTenant (·.val.tenantId) c.versions command.context.tenantId version.val.id =
      some version := inTenant_eq_some.2 ⟨hex.versionMem, rfl, hex.versionTenant⟩
  have htool : inTenant (·.val.tenantId) c.tools command.context.tenantId tool.val.id =
      some tool := inTenant_eq_some.2 ⟨hex.toolMem, rfl, hex.toolTenant⟩
  -- the binding and the tool of a published version are published and active
  obtain ⟨binding', hbinding', hpair, htenant, hstatus⟩ := hinv.paired version hex.versionMem
  rw [h.published, ToolVersionStatus.ofBinding] at hstatus
  have hactive : tool.val.status = .active :=
    (hinv.active tool hex.toolMem).2 ⟨version, hex.versionMem, hex.toolId.symm, h.published⟩
  have hbinding : bindingOf c command.context.tenantId version.val.id = some binding' := by
    cases hfound : bindingOf c command.context.tenantId version.val.id with
    | none =>
      have hnone := List.find?_eq_none.1 hfound binding' hbinding'
      rw [decide_eq_true_eq] at hnone
      exact absurd ⟨htenant.trans hex.versionTenant, hpair⟩ hnone
    | some found =>
      obtain ⟨hmem, -, hsame⟩ := mem_of_bindingOf hfound
      rw [c.binding_eq_of_version hmem hbinding' (hsame.trans hpair.symm)]
  obtain ⟨publishedAt, hpublishedAt⟩ : ∃ time, version.val.publishedAt = some time := by
    have hvalid := version.property
    simp only [Valid, PostInit.checks, List.forall_mem_cons] at hvalid
    have htime := hvalid.2.2.2.2.2.2.2.2.2.1
    rw [h.published] at htime
    exact Option.ne_none_iff_exists'.1 (by simpa using htime)
  refine ⟨⟨reviewed, none, publishedAt, true⟩, ?_, rfl, rfl⟩
  refine map_eq_ok.2 ⟨(_, c), ?_, rfl⟩
  rw [h.reviewed]
  simp only [DirectPublishImportedOperation.inUnitOfWork, CatalogM.bind_eq_ok,
    getVersionForUpdate_eq_ok, getBindingByToolVersionForUpdate_eq_ok, getToolForUpdate_eq_ok]
  refine ⟨_, _, executeInTransaction_of_existing h.operationId hex, _, _, ⟨hversion.symm, rfl⟩, _,
    _, ⟨hbinding.symm, rfl⟩, _, _, ⟨htool.symm, rfl⟩, ?_⟩
  simp only [h.published, if_true, CatalogM.bind_eq_ok, CatalogM.raiseIf_eq_ok,
    CatalogM.orRaise_eq_ok, CatalogM.pure_eq_ok]
  exact ⟨(), _, ⟨by simp [hstatus, hactive], rfl⟩, publishedAt, _, ⟨hpublishedAt, rfl⟩, rfl, rfl⟩

end Again

/-! ## The refinement -/

section Refinement

variable [Sha256]

/-- What is promised of a direct publish that has ended: it raised and left nothing, or it left
    what the three commands leave, or the version was published and nothing changed. -/
structure DirectPublishRefines (c c' : CatalogTables)
    (command : DirectPublishImportedOperationCommand)
    (outcome : Except Exc DirectPublishImportedOperationResult) : Prop where
  raised : ∀ e, outcome = .error e → c' = c
  committed : ∀ result, outcome = .ok result → result.alreadyPublished = false →
    ∀ env' submittedAt publishedAt, env'.Generated c → ∃ ρ : Renaming, ρ.Keeps c ∧
      ∃ publication c'',
        (stepwise env' submittedAt publishedAt command).solo c = (.ok publication, c'') ∧
          c'.toCatalogRows.Alike ρ c''.toCatalogRows
  already : ∀ result, outcome = .ok result → result.alreadyPublished = true → c' = c ∧
    ∃ operation tool version binding,
      PublishedOperation c command result.reviewed operation tool version binding

/-- The command reports what was published before, and changes nothing. -/
def ReportsAgain (c : CatalogTables) (command : DirectPublishImportedOperationCommand)
    (reviewed : ReviewImportedOperationResult) : Prop :=
  ∀ env now, ∃ result,
    DirectPublishImportedOperation.execute env now command c = .ok (result, c) ∧
      result.alreadyPublished = true ∧ result.reviewed = reviewed

/-- From every committed state, a direct publish that runs alone refines the three commands, and
    one that succeeded is reported again while no newer version is published. -/
theorem direct_publish_refines [Unicode] {Pid : Type} (Fault : Exc → Prop)
    (commands : Pid → CatalogCommand) {c : CatalogTables} (hempty : c.Empty)
    {w : SerialWorld CatalogTables Exc Pid fun p => (commands p).Result}
    (hreaches : SerialWorld.Reaches Fault (catalogWorld commands c) w)
    (env : ReviewEnv) (now : Time) (command : DirectPublishImportedOperationCommand)
    {w' : SerialWorld CatalogTables Exc Unit fun _ => DirectPublishImportedOperationResult}
    {outcome : Except Exc DirectPublishImportedOperationResult}
    (halone : SerialWorld.Reaches Fault (SerialWorld.alone
      (CatalogCommand.directPublishImportedOperation env now command).program w.store) w')
    (hended : w'.procs () = .done outcome) :
    DirectPublishRefines w.store w'.store command outcome ∧
      ∀ result, outcome = .ok result →
        ∀ w₂, SerialWorld.Reaches Fault { w with store := w'.store } w₂ →
          (∀ v ∈ w₂.store.versions, v.val.toolId = result.reviewed.toolId →
            v.val.status = .published → v.val.version ≤ result.reviewed.version) →
          ReportsAgain w₂.store command result.reviewed := by
  obtain ⟨hprocs, hinv, hreferenced⟩ := referenced_of_reaches hempty hreaches
  have hends := SerialWorld.ended_of_reaches halone hended
  constructor
  · constructor
    · intro e he
      obtain ⟨a, hok, -⟩ | ⟨_, -, -, hsame⟩ := hends
      · rw [he] at hok
        cases hok
      · exact hsame
    -- The three commands, one after the other, reach the same catalogue.
    · intro result hresult hcommitted env' submittedAt publishedAt hgenerated
      obtain ⟨a, hok, hbody⟩ | ⟨e, herror, -⟩ := hends
      · obtain rfl := Except.ok.inj (hresult.symm.trans hok)
        exact exists_stepwise hinv hreferenced hbody hcommitted hgenerated submittedAt publishedAt
      · rw [hresult] at herror
        cases herror
    -- It was published before: nothing is written.
    · intro result hresult halready
      obtain ⟨a, hok, hbody⟩ | ⟨e, herror, -⟩ := hends
      · obtain rfl := Except.ok.inj (hresult.symm.trans hok)
        exact publishedOperation_of_already hbody halready
      · rw [hresult] at herror
        cases herror
  · intro result hresult w₂ hlater hnewest env₂ now₂
    obtain ⟨a, hok, hbody⟩ | ⟨e, herror, -⟩ := hends
    · obtain rfl := Except.ok.inj (hresult.symm.trans hok)
      have hpublish : (CatalogCommand.directPublishImportedOperation env now command).Effect
          w.store w'.store := directPublish_effect hbody
      -- Later commands leave the publication standing, unless a newer version is published.
      obtain ⟨-, hcontinues⟩ := continues_of_reaches hlater hprocs (hinv.command hpublish)
      obtain ⟨operation, tool, version, binding, hpublished⟩ := publishedOperation_of_ok hbody
      obtain ⟨tool', version', binding', hstill⟩ := hpublished.continues hcontinues hnewest
      exact hstill.execute_eq hcontinues.invariant env₂ now₂
    · rw [hresult] at herror
      cases herror

end Refinement

section Orders

attribute [local instance] zeroSha256 asciiUnicode

/-- The operation that was imported is published. -/
def orderPublication : DirectPublishImportedOperationCommand :=
  { context := adminContext, operationId := "operation-0", owner := "team" }

/-- The program of the publication, with what is generated for it. -/
def orderPublish : Serial CatalogTables Exc DirectPublishImportedOperationResult :=
  (CatalogCommand.directPublishImportedOperation ⟨"tool-1", "version-1", "binding-1", 3, 3⟩ 4
    orderPublication).program

theorem direct_publish_refines_orders : ∃ result,
    (orderPublish.solo (orderWorld [0]).store).1 = .ok result ∧
      result.alreadyPublished = false ∧
      DirectPublishRefines (orderWorld [0]).store (orderPublish.solo (orderWorld [0]).store).2
        orderPublication (.ok result) ∧
      ReportsAgain (orderPublish.solo (orderWorld [0]).store).2 orderPublication
        result.reviewed := by
  obtain ⟨w, hreaches, hended, hstore⟩ := SerialWorld.exists_ended (fun _ => False)
    orderPublish (orderWorld [0]).store
  have hfirst : ((orderPublish.solo (orderWorld [0]).store).1.map fun result =>
      (result.alreadyPublished, result.reviewed.version)).toOption = some (false, 1) := by
    decide +kernel
  have hnumbers : ∀ v ∈ (orderPublish.solo (orderWorld [0]).store).2.versions.rows,
      v.val.version ≤ 1 := by
    decide +kernel
  cases houtcome : (orderPublish.solo (orderWorld [0]).store).1 with
  | error e =>
    rw [houtcome] at hfirst
    cases hfirst
  | ok result =>
    rw [houtcome] at hfirst hended
    obtain ⟨hcommitted, hnumber⟩ := Prod.mk.inj (Option.some.inj hfirst)
    have h := direct_publish_refines (fun _ => False) orderCommands registeredCatalog_empty
      (SerialWorld.reaches_runInOrder (catalogWorld orderCommands registeredCatalog) [0]) _ _
      orderPublication hreaches hended
    have hagain := h.2 result rfl _ .refl
    rw [hstore] at h hagain
    refine ⟨result, rfl, hcommitted, h.1, hagain fun v hv _ _ => ?_⟩
    rw [hnumber]
    exact hnumbers v hv

end Orders

end NexusMcp
