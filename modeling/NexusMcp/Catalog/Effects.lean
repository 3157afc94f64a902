-- SUMMARY: What each catalogue transaction does to the tables when it commits.
import NexusMcp.OpenApi.Review
import NexusMcp.OpenApi.Import
import NexusMcp.Registry.UseCases

/-!
# Catalogue Effects

One description for each kind of change: a draft is added, a version is submitted, a
version is published and the one before it retired. Invariants are proved from these.
-/

namespace NexusMcp

open CatalogM (lift orRaise)
open Txn (Table)

/-! ## Replacing rows -/

section

variable {ν : Type} {key : ν → Id} {t : Table key}

/-- Replace the row that has the key of `w`. -/
abbrev replaceRow (t : Table key) (w : ν) : Table key := t.modify (key w) fun _ => w

theorem mem_replaceRow {v w x : ν} (hv : v ∈ t) (hkey : key v = key w) :
    x ∈ replaceRow t w ↔ (x ∈ t ∧ key x ≠ key w) ∨ x = w := by
  rw [Table.mem_modify (fun _ _ _ => rfl)]
  constructor
  · rintro (hx | ⟨_, _, _, rfl⟩)
    · exact .inl hx
    · exact .inr rfl
  · rintro (hx | rfl)
    · exact .inl hx
    · exact .inr ⟨v, hv, hkey, rfl⟩

/-- A replacement that `g` does not see. -/
theorem map_replaceRow {β : Type} {g : ν → β} {v w : ν} (hv : v ∈ t) (hkey : key v = key w)
    (hg : g w = g v) : (replaceRow t w).rows.map g = t.rows.map g := by
  simp only [Table.modify, List.map_map]
  apply List.map_congr_left
  intro x hx
  simp only [Function.comp_apply]
  split
  · next hxw =>
    have hxv : x = v := Table.eq_of_key_eq hx hv (hxw.1.trans hkey.symm)
    rw [hxv, hg]
  · rfl

end

/-! ## The repository functions -/

theorem requireMatchingTenant_eq_ok {a b : Id} {u : Unit} {c c' : CatalogTables} :
    requireMatchingTenant a b c = .ok (u, c') ↔ a = b ∧ c' = c := by
  simp [requireMatchingTenant]

theorem getToolForUpdate_eq_ok {tenantId id : Id} {r : Option Tool} {c c' : CatalogTables} :
    getToolForUpdate tenantId id c = .ok (r, c') ↔
      r = inTenant (·.val.tenantId) c.tools tenantId id ∧ c' = c := by
  simp [getToolForUpdate]

theorem getVersionForUpdate_eq_ok {tenantId id : Id} {r : Option ToolVersion}
    {c c' : CatalogTables} : getVersionForUpdate tenantId id c = .ok (r, c') ↔
      r = inTenant (·.val.tenantId) c.versions tenantId id ∧ c' = c := by
  simp [getVersionForUpdate]

theorem getBindingById_eq_ok {tenantId id : Id} {r : Option ToolBinding} {c c' : CatalogTables} :
    getBindingById tenantId id c = .ok (r, c') ↔
      r = inTenant (·.val.tenantId) c.bindings tenantId id ∧ c' = c := by
  simp [getBindingById]

theorem getUpstreamById_eq_ok {tenantId id : Id} {r : Option UpstreamService}
    {c c' : CatalogTables} : getUpstreamById tenantId id c = .ok (r, c') ↔
      r = inTenant (·.val.tenantId) c.upstreams tenantId id ∧ c' = c := by
  simp [getUpstreamById]

theorem getUpstreamForUpdate_eq_ok {tenantId id : Id} {r : Option UpstreamService}
    {c c' : CatalogTables} : getUpstreamForUpdate tenantId id c = .ok (r, c') ↔
      r = inTenant (·.val.tenantId) c.upstreams tenantId id ∧ c' = c := by
  simp [getUpstreamForUpdate]

theorem getOperationForUpdate_eq_ok {tenantId id : Id} {r : Option ImportedOperation}
    {c c' : CatalogTables} : getOperationForUpdate tenantId id c = .ok (r, c') ↔
      r = inTenant (·.tenantId) c.operations tenantId id ∧ c' = c := by
  simp [getOperationForUpdate]

theorem getJobForUpdate_eq_ok {tenantId id : Id} {r : Option OpenApiImportJob}
    {c c' : CatalogTables} : getJobForUpdate tenantId id c = .ok (r, c') ↔
      r = inTenant (·.tenantId) c.jobs tenantId id ∧ c' = c := by
  simp [getJobForUpdate]

/-- The version of a binding is found under it. -/
def bindingOf (c : CatalogTables) (tenantId toolVersionId : Id) : Option ToolBinding :=
  c.bindings.rows.find? fun b =>
    decide (b.val.tenantId = tenantId ∧ b.val.toolVersionId = toolVersionId)

theorem mem_of_bindingOf {c : CatalogTables} {tenantId toolVersionId : Id} {b : ToolBinding}
    (h : bindingOf c tenantId toolVersionId = some b) :
    b ∈ c.bindings ∧ b.val.tenantId = tenantId ∧ b.val.toolVersionId = toolVersionId := by
  have hb := List.find?_some h
  rw [decide_eq_true_eq] at hb
  exact ⟨List.mem_of_find?_eq_some h, hb.1, hb.2⟩

theorem getBindingByToolVersionForUpdate_eq_ok {tenantId id : Id} {r : Option ToolBinding}
    {c c' : CatalogTables} : getBindingByToolVersionForUpdate tenantId id c = .ok (r, c') ↔
      r = bindingOf c tenantId id ∧ c' = c := by
  simp [getBindingByToolVersionForUpdate, bindingOf]

/-- The published version of a tool. -/
def publishedOf (c : CatalogTables) (tenantId toolId : Id) : Option ToolVersion :=
  c.versions.rows.find? fun v =>
    decide (v.val.tenantId = tenantId ∧ v.val.toolId = toolId ∧ v.val.status = .published)

theorem mem_of_publishedOf {c : CatalogTables} {tenantId toolId : Id} {v : ToolVersion}
    (h : publishedOf c tenantId toolId = some v) : v ∈ c.versions ∧ v.val.tenantId = tenantId ∧
      v.val.toolId = toolId ∧ v.val.status = .published := by
  have hv := List.find?_some h
  rw [decide_eq_true_eq] at hv
  exact ⟨List.mem_of_find?_eq_some h, hv⟩

theorem not_published_of_publishedOf {c : CatalogTables} {tenantId toolId : Id}
    (h : publishedOf c tenantId toolId = none) {v : ToolVersion} (hv : v ∈ c.versions)
    (htenant : v.val.tenantId = tenantId) (htool : v.val.toolId = toolId) :
    v.val.status ≠ .published := by
  intro hstatus
  have hnone := List.find?_eq_none.1 h v hv
  rw [decide_eq_true_eq] at hnone
  exact hnone ⟨htenant, htool, hstatus⟩

theorem getPublishedVersion_eq_ok {tenantId toolId : Id} {r : Option ToolVersion}
    {c c' : CatalogTables} : getPublishedVersion tenantId toolId c = .ok (r, c') ↔
      r = publishedOf c tenantId toolId ∧ c' = c := by
  simp [getPublishedVersion, publishedOf]

theorem saveVersion_eq_ok {tenantId : Id} {w : ToolVersion} {u : Unit} {c c' : CatalogTables} :
    saveVersion tenantId w c = .ok (u, c') ↔ tenantId = w.val.tenantId ∧
      (∃ v, inTenant (·.val.tenantId) c.versions tenantId w.val.id = some v) ∧
      (∃ t, inTenant (·.val.tenantId) c.tools tenantId w.val.toolId = some t) ∧
      c'.toCatalogRows = { c.toCatalogRows with versions := replaceRow c.versions w } := by
  simp [saveVersion, CatalogM.bind_eq_ok, requireMatchingTenant_eq_ok, getVersionForUpdate_eq_ok,
    getToolForUpdate_eq_ok, and_assoc]

theorem saveBinding_eq_ok {tenantId : Id} {w : ToolBinding} {u : Unit} {c c' : CatalogTables} :
    saveBinding tenantId w c = .ok (u, c') ↔ tenantId = w.val.tenantId ∧
      (∃ b, inTenant (·.val.tenantId) c.bindings tenantId w.val.id = some b) ∧
      c'.toCatalogRows = { c.toCatalogRows with bindings := replaceRow c.bindings w } := by
  simp [saveBinding, CatalogM.bind_eq_ok, requireMatchingTenant_eq_ok, getBindingById_eq_ok]

theorem saveTool_eq_ok {tenantId : Id} {w : Tool} {u : Unit} {c c' : CatalogTables} :
    saveTool tenantId w c = .ok (u, c') ↔ tenantId = w.val.tenantId ∧
      (∃ t, inTenant (·.val.tenantId) c.tools tenantId w.val.id = some t) ∧
      c'.toCatalogRows = { c.toCatalogRows with tools := replaceRow c.tools w } := by
  simp [saveTool, CatalogM.bind_eq_ok, requireMatchingTenant_eq_ok, getToolForUpdate_eq_ok]

theorem saveUpstream_eq_ok {tenantId : Id} {w : UpstreamService} {u : Unit}
    {c c' : CatalogTables} : saveUpstream tenantId w c = .ok (u, c') ↔
      tenantId = w.val.tenantId ∧
      (∃ s, inTenant (·.val.tenantId) c.upstreams tenantId w.val.id = some s) ∧
      c'.toCatalogRows = { c.toCatalogRows with upstreams := replaceRow c.upstreams w } := by
  simp [saveUpstream, CatalogM.bind_eq_ok, requireMatchingTenant_eq_ok, getUpstreamForUpdate_eq_ok]

theorem saveOperation_eq_ok {tenantId : Id} {w : ImportedOperation} {u : Unit}
    {c c' : CatalogTables} : saveOperation tenantId w c = .ok (u, c') ↔ tenantId = w.tenantId ∧
      (∃ o, inTenant (·.tenantId) c.operations tenantId w.id = some o) ∧
      c'.toCatalogRows = { c.toCatalogRows with operations := replaceRow c.operations w } := by
  simp [saveOperation, CatalogM.bind_eq_ok, requireMatchingTenant_eq_ok,
    getOperationForUpdate_eq_ok]

theorem addVersion_eq_ok {tenantId : Id} {w : ToolVersion} {u : Unit} {c c' : CatalogTables} :
    addVersion tenantId w c = .ok (u, c') ↔ tenantId = w.val.tenantId ∧
      (∃ t, inTenant (·.val.tenantId) c.tools tenantId w.val.toolId = some t) ∧
      c.versions.find? w.val.id = none ∧
      c'.toCatalogRows = { c.toCatalogRows with versions := c.versions.insert w } := by
  simp [addVersion, CatalogM.bind_eq_ok, requireMatchingTenant_eq_ok, getToolForUpdate_eq_ok]

theorem addBinding_eq_ok {tenantId : Id} {w : ToolBinding} {u : Unit} {c c' : CatalogTables} :
    addBinding tenantId w c = .ok (u, c') ↔ tenantId = w.val.tenantId ∧
      c.bindings.find? w.val.id = none ∧
      c'.toCatalogRows = { c.toCatalogRows with bindings := c.bindings.insert w } := by
  simp [addBinding, CatalogM.bind_eq_ok, requireMatchingTenant_eq_ok]

theorem addTool_eq_ok {tenantId : Id} {w : Tool} {u : Unit} {c c' : CatalogTables} :
    addTool tenantId w c = .ok (u, c') ↔ tenantId = w.val.tenantId ∧
      c.tools.find? w.val.id = none ∧
      c'.toCatalogRows = { c.toCatalogRows with tools := c.tools.insert w } := by
  simp [addTool, CatalogM.bind_eq_ok, requireMatchingTenant_eq_ok]

/-! ## Identities -/

/-- The fields of a version that its lifecycle does not change. -/
def ToolVersion.identity (v : ToolVersion) : ToolVersionFields :=
  { v.val with status := .draft, reviewedAt := none, publishedAt := none, retiredAt := none }

/-- The fields of a binding that its lifecycle does not change. -/
def ToolBinding.identity (b : ToolBinding) : ToolBindingFields :=
  { b.val with status := .draft, publishedAt := none }

/-- The fields of a tool that its lifecycle does not change. -/
def Tool.identity (t : Tool) : ToolFields := { t.val with status := .active }

/-- The status of the binding of a version in a status. -/
def ToolVersionStatus.ofBinding : ToolVersionStatus → ToolBindingStatus
  | draft => .draft
  | review => .draft
  | published => .published
  | retired => .disabled

namespace ToolVersion

theorem submitForReview_eq_ok {v w : ToolVersion} {now : Time} :
    v.submitForReview now = .ok w ↔ v.val.status = .draft ∧
      w.val = { v.val with status := .review, reviewedAt := some now } := by
  simp [submitForReview]

theorem publish_eq_ok {v w : ToolVersion} {now : Time} :
    v.publish now = .ok w ↔ v.val.status = .review ∧
      w.val = { v.val with status := .published, publishedAt := some now } := by
  simp [publish]

theorem retire_eq_ok {v w : ToolVersion} {now : Time} :
    v.retire now = .ok w ↔ v.val.status = .published ∧
      w.val = { v.val with status := .retired, retiredAt := some now } := by
  simp [retire]

theorem id_of_identity {v w : ToolVersion} (h : w.identity = v.identity) :
    w.val.id = v.val.id ∧ w.val.tenantId = v.val.tenantId ∧ w.val.toolId = v.val.toolId ∧
      w.val.version = v.val.version := by
  have hfield {β : Type} (f : ToolVersionFields → β) : f w.identity = f v.identity := congrArg f h
  exact ⟨hfield (·.id), hfield (·.tenantId), hfield (·.toolId), hfield (·.version)⟩

end ToolVersion

namespace ToolBinding

theorem publish_eq_ok {b d : ToolBinding} {now : Time} :
    b.publish now = .ok d ↔ b.val.status = .draft ∧
      d.val = { b.val with status := .published, publishedAt := some now } := by
  simp [publish]

theorem disable_eq_ok {b d : ToolBinding} :
    b.disable = .ok d ↔ b.val.status = .published ∧ d.val = { b.val with status := .disabled } := by
  simp [disable]

theorem id_of_identity {b d : ToolBinding} (h : d.identity = b.identity) :
    d.val.id = b.val.id ∧ d.val.tenantId = b.val.tenantId ∧
      d.val.toolVersionId = b.val.toolVersionId ∧
      d.val.upstreamServiceId = b.val.upstreamServiceId := by
  have hfield {β : Type} (f : ToolBindingFields → β) : f d.identity = f b.identity := congrArg f h
  exact ⟨hfield (·.id), hfield (·.tenantId), hfield (·.toolVersionId), hfield (·.upstreamServiceId)⟩

end ToolBinding

theorem Tool.activate_eq_ok {t w : Tool} (h : t.activate = .ok w) :
    w.val.status = .active ∧ w.identity = t.identity := by
  unfold Tool.activate at h
  split at h
  · next hactive =>
    cases h
    exact ⟨hactive, rfl⟩
  · rw [construct_eq_ok] at h
    constructor
    · rw [h]
    · unfold Tool.identity
      rw [h]

theorem Tool.id_of_identity {t w : Tool} (h : w.identity = t.identity) :
    w.val.id = t.val.id ∧ w.val.tenantId = t.val.tenantId := by
  have hfield {β : Type} (f : ToolFields → β) : f w.identity = f t.identity := congrArg f h
  exact ⟨hfield (·.id), hfield (·.tenantId)⟩

/-! ## Moves -/

/-- A version and its binding moved on together, and nothing else changed. -/
structure Moved (c c' : CatalogTables) (v w : ToolVersion) (b d : ToolBinding) : Prop where
  version : v ∈ c.versions
  binding : b ∈ c.bindings
  paired : b.val.toolVersionId = v.val.id
  versionIdentity : w.identity = v.identity
  bindingIdentity : d.identity = b.identity
  status : d.val.status = w.val.status.ofBinding
  versions : c'.versions = replaceRow c.versions w
  bindings : c'.bindings = replaceRow c.bindings d
  tools : c'.tools = c.tools
  upstreams : c'.upstreams = c.upstreams

/-- The version of a tool that was published is retired, or there was none. -/
inductive Retirement (c c' : CatalogTables) (tenantId : Id) (tool : Tool)
    (target : ToolVersion) : Prop where
  | first (hnone : publishedOf c tenantId tool.val.id = none) (heq : c' = c)
  | retired {v w : ToolVersion} {b d : ToolBinding}
      (hcurrent : publishedOf c tenantId tool.val.id = some v)
      (hnewer : v.val.version < target.val.version) (hstatus : w.val.status = .retired)
      (hbinding : b.val.status = .published) (hmoved : Moved c c' v w b d)

/-! ## Publishing -/

theorem inTenant_of_mem {ν : Type} {key : ν → Id} {tenantOf : ν → Id} {table : Table key}
    {v : ν} (hv : v ∈ table) : inTenant tenantOf table (tenantOf v) (key v) = some v :=
  inTenant_eq_some.2 ⟨hv, rfl, rfl⟩

theorem retireVersion_eq_ok {tenantId : Id} {current target : ToolVersion} {now : Time}
    {retiredId : Id} {c c' : CatalogTables} (hmem : current ∈ c.versions)
    (htenant : current.val.tenantId = tenantId)
    (h : PublishTool.retireVersion tenantId current target now c = .ok (retiredId, c')) :
    current.val.version < target.val.version ∧ retiredId = current.val.id ∧
      ∃ w b d, w.val.status = .retired ∧ b.val.status = .published ∧ Moved c c' current w b d := by
  subst htenant
  have hfind : inTenant (·.val.tenantId) c.versions current.val.tenantId current.val.id =
      some current := inTenant_of_mem hmem
  simp only [PublishTool.retireVersion, CatalogM.bind_eq_ok, CatalogM.raiseIf_eq_ok,
    getVersionForUpdate_eq_ok, getBindingByToolVersionForUpdate_eq_ok, CatalogM.orRaise_eq_ok,
    CatalogM.lift_eq_ok, CatalogM.pure_eq_ok] at h
  obtain ⟨_, _, ⟨hnewer, rfl⟩, _, _, ⟨rfl, rfl⟩, locked, _, ⟨hlocked, rfl⟩, _, _, ⟨rfl, rfl⟩, b, _,
    ⟨hb, rfl⟩, _, _, ⟨hbinding, rfl⟩, w, _, ⟨hw, rfl⟩, _, c₁, hsave, d, _, ⟨hd, rfl⟩, _, c₂,
    hsaveBinding, hid, rfl⟩ := h
  rw [hfind, Option.filter_eq_some_iff] at hlocked
  -- The row that is locked is the one that was read.
  obtain ⟨heq, -⟩ := hlocked
  cases heq
  obtain ⟨hstatus, hw⟩ := ToolVersion.retire_eq_ok.1 hw
  obtain ⟨-, hd⟩ := ToolBinding.disable_eq_ok.1 hd
  obtain ⟨-, -, -, hrows₁⟩ := saveVersion_eq_ok.1 hsave
  obtain ⟨-, -, hrows₂⟩ := saveBinding_eq_ok.1 hsaveBinding
  obtain ⟨hbmem, -, hpaired⟩ := mem_of_bindingOf hb
  refine ⟨not_le.1 hnewer, hid.symm, w, b, d, by rw [hw], not_not.1 hbinding, ?_⟩
  constructor
  · exact hmem
  · exact hbmem
  · exact hpaired
  · simp [ToolVersion.identity, hw]
  · simp [ToolBinding.identity, hd]
  · simp [hw, hd, ToolVersionStatus.ofBinding]
  · simp [hrows₂, hrows₁]
  · simp [hrows₂, hrows₁]
  · simp [hrows₂, hrows₁]
  · simp [hrows₂, hrows₁]

theorem retireCurrentVersion_eq_ok {tenantId : Id} {tool : Tool} {target : ToolVersion}
    {now : Time} {r : Option Id} {c c' : CatalogTables}
    (h : PublishTool.retireCurrentVersion tenantId tool target now c = .ok (r, c')) :
    Retirement c c' tenantId tool target ∧
      r = (publishedOf c tenantId tool.val.id).map (·.val.id) := by
  simp only [PublishTool.retireCurrentVersion, CatalogM.bind_eq_ok, getPublishedVersion_eq_ok] at h
  obtain ⟨current, _, ⟨hcurrent, rfl⟩, h⟩ := h
  cases current with
  | none =>
    rw [CatalogM.pure_eq_ok] at h
    obtain ⟨rfl, rfl⟩ := h
    rw [← hcurrent]
    exact ⟨.first hcurrent.symm rfl, rfl⟩
  | some current =>
    simp only [CatalogM.bind_eq_ok, CatalogM.pure_eq_ok] at h
    obtain ⟨id, _, hretire, rfl, rfl⟩ := h
    obtain ⟨hmem, htenant, -, -⟩ := mem_of_publishedOf hcurrent.symm
    obtain ⟨hnewer, rfl, w, b, d, hstatus, hbinding, hmoved⟩ :=
      retireVersion_eq_ok hmem htenant hretire
    rw [← hcurrent]
    exact ⟨.retired hcurrent.symm hnewer hstatus hbinding hmoved, rfl⟩

/-- A retirement leaves the tools and upstreams, and the versions and bindings that are not
    published. -/
theorem Retirement.mem {c c' : CatalogTables} {tenantId : Id} {tool : Tool} {target : ToolVersion}
    (h : Retirement c c' tenantId tool target) : c'.tools = c.tools ∧ c'.upstreams = c.upstreams ∧
      (∀ v ∈ c.versions, v.val.status ≠ .published → v ∈ c'.versions) ∧
      ∀ b ∈ c.bindings, b.val.status ≠ .published → b ∈ c'.bindings := by
  cases h with
  | first _ heq =>
    subst heq
    exact ⟨rfl, rfl, fun _ hv _ => hv, fun _ hb _ => hb⟩
  | @retired v w b d hcurrent _ _ hbinding hmoved =>
    obtain ⟨hv, -, -, hstatus⟩ := mem_of_publishedOf hcurrent
    have hwid := (ToolVersion.id_of_identity hmoved.versionIdentity).1
    have hdid := (ToolBinding.id_of_identity hmoved.bindingIdentity).1
    refine ⟨hmoved.tools, hmoved.upstreams, ?_, ?_⟩
    · intro x hx hne
      rw [hmoved.versions, mem_replaceRow hmoved.version hwid.symm]
      refine .inl ⟨hx, ?_⟩
      intro hkey
      exact hne (Table.eq_of_key_eq hx hv (hkey.trans hwid) ▸ hstatus)
    · intro x hx hne
      rw [hmoved.bindings, mem_replaceRow hmoved.binding hdid.symm]
      refine .inl ⟨hx, ?_⟩
      intro hkey
      exact hne (Table.eq_of_key_eq hx hmoved.binding (hkey.trans hdid) ▸ hbinding)

/-- The snapshot that a publication validated. -/
structure PublishSnapshot [Sha256] (command : PublishToolCommand) (tool : Tool)
    (version : ToolVersion) (binding : ToolBinding) (upstream : UpstreamService) : Prop where
  tenants : ∀ tenantId ∈ [tool.val.tenantId, version.val.tenantId, binding.val.tenantId,
    upstream.val.tenantId], tenantId = command.context.tenantId
  toolId : version.val.toolId = tool.val.id
  toolVersionId : binding.val.toolVersionId = version.val.id
  reviewed : version.val.status = .review
  draft : binding.val.status = .draft
  active : upstream.val.status = .active
  schemaDigest : calculateSchemaDigest version.val.inputSchema version.val.outputSchema =
    .ok version.val.schemaDigest
  expectedSchemaDigest : command.expectedSchemaDigest = version.val.schemaDigest
  bindingDigest : calculateBindingDigest binding.val = .ok binding.val.bindingDigest
  expectedBindingDigest : command.expectedBindingDigest = binding.val.bindingDigest

theorem validatePublishSnapshot_eq_ok [Sha256] {command : PublishToolCommand} {tool : Tool}
    {version : ToolVersion} {binding : ToolBinding} {upstream : UpstreamService} {u : Unit}
    (h : PublishTool.validatePublishSnapshot command tool version binding upstream = .ok u) :
    PublishSnapshot command tool version binding upstream := by
  simp only [PublishTool.validatePublishSnapshot, bind_eq_ok, raiseIf_eq_ok, exists_const, not_or,
    not_not, ne_eq, not_exists, not_and] at h
  obtain ⟨htenants, ⟨htool, hversion⟩, hreview, hdraft, hactive, schemaDigest, hschema,
    ⟨hschemaDigest, hexpected⟩, bindingDigest, hbinding, hbindingDigest, hexpectedBinding⟩ := h
  constructor
  · exact htenants
  · exact htool
  · exact hversion
  · exact hreview
  · exact hdraft
  · exact hactive
  · rw [hschema, hschemaDigest]
  · exact hexpected
  · rw [hbinding, hbindingDigest]
  · exact hexpectedBinding

/-- A committed publication: the published version is retired, `version` takes its place and the
    tool is active. -/
structure Publication [Sha256] (c c' : CatalogTables) (command : PublishToolCommand) (tool : Tool)
    (version : ToolVersion) (binding : ToolBinding) (upstream : UpstreamService) : Prop where
  toolMem : tool ∈ c.tools
  toolId : tool.val.id = command.toolId
  versionMem : version ∈ c.versions
  versionId : version.val.id = command.toolVersionId
  bindingMem : binding ∈ c.bindings
  upstreamMem : upstream ∈ c.upstreams
  upstreamId : upstream.val.id = binding.val.upstreamServiceId
  snapshot : PublishSnapshot command tool version binding upstream
  steps : ∃ (c₁ c₂ : CatalogTables) (w : ToolVersion) (d : ToolBinding) (tool' : Tool),
    Retirement c c₁ command.context.tenantId tool version ∧ Moved c₁ c₂ version w binding d ∧
    w.val.status = .published ∧ tool'.val.status = .active ∧ tool'.identity = tool.identity ∧
    c'.toCatalogRows = { c₂.toCatalogRows with tools := replaceRow c₂.tools tool' }

theorem publishToolInTransaction_eq_ok [Sha256] {command : PublishToolCommand} {now : Time}
    {result : PublishToolResult} {c c' : CatalogTables}
    (h : publishToolInTransaction command now c = .ok (result, c')) :
    ∃ tool version binding upstream, Publication c c' command tool version binding upstream := by
  simp only [publishToolInTransaction, CatalogM.bind_eq_ok, getToolForUpdate_eq_ok,
    getVersionForUpdate_eq_ok, getBindingByToolVersionForUpdate_eq_ok, getUpstreamForUpdate_eq_ok,
    CatalogM.orRaise_eq_ok, CatalogM.lift_eq_ok, CatalogM.pure_eq_ok] at h
  obtain ⟨_, _, ⟨rfl, rfl⟩, tool, _, ⟨htool, rfl⟩, _, _, ⟨rfl, rfl⟩, version, _, ⟨hversion, rfl⟩,
    _, _, ⟨rfl, rfl⟩, binding, _, ⟨hbinding, rfl⟩, _, _, ⟨rfl, rfl⟩, upstream, _, ⟨hupstream, rfl⟩,
    _, _, ⟨hvalid, rfl⟩, _, c₁, hretire, w, _, ⟨hw, rfl⟩, _, c₂, hsaveVersion, d, _, ⟨hd, rfl⟩,
    _, c₃, hsaveBinding, tool', _, ⟨htool', rfl⟩, _, c₄, hsaveTool, -, rfl⟩ := h
  obtain ⟨htoolMem, htoolId, -⟩ := inTenant_eq_some.1 htool
  obtain ⟨hversionMem, hversionId, -⟩ := inTenant_eq_some.1 hversion
  obtain ⟨hbindingMem, -, hpaired⟩ := mem_of_bindingOf hbinding
  obtain ⟨hupstreamMem, hupstreamId, -⟩ := inTenant_eq_some.1 hupstream
  -- The retirement leaves the reviewed version and its binding, which are not published yet.
  obtain ⟨hretired, -⟩ := retireCurrentVersion_eq_ok hretire
  obtain ⟨-, -, hversions, hbindings⟩ := hretired.mem
  obtain ⟨hreview, hw⟩ := ToolVersion.publish_eq_ok.1 hw
  obtain ⟨hdraft, hd⟩ := ToolBinding.publish_eq_ok.1 hd
  obtain ⟨hactive, hidentity⟩ := Tool.activate_eq_ok htool'
  obtain ⟨-, -, -, hrows₂⟩ := saveVersion_eq_ok.1 hsaveVersion
  obtain ⟨-, -, hrows₃⟩ := saveBinding_eq_ok.1 hsaveBinding
  obtain ⟨-, -, hrows₄⟩ := saveTool_eq_ok.1 hsaveTool
  refine ⟨tool, version, binding, upstream, htoolMem, htoolId, hversionMem, hversionId, hbindingMem,
    hupstreamMem, hupstreamId, validatePublishSnapshot_eq_ok hvalid,
    _, _, w, d, tool', hretired, ?_, by rw [hw], hactive, hidentity, hrows₄⟩
  constructor
  · exact hversions version hversionMem (by simp [hreview])
  · exact hbindings binding hbindingMem (by simp [hdraft])
  · exact hpaired
  · simp [ToolVersion.identity, hw]
  · simp [ToolBinding.identity, hd]
  · simp [hw, hd, ToolVersionStatus.ofBinding]
  · simp [hrows₃, hrows₂]
  · simp [hrows₃, hrows₂]
  · simp [hrows₃, hrows₂]
  · simp [hrows₃, hrows₂]

/-! ## Submitting for review -/

/-- A committed submission: one draft is in review now. -/
structure Submission (c c' : CatalogTables) (v w : ToolVersion) : Prop where
  version : v ∈ c.versions
  draft : v.val.status = .draft
  review : w.val.status = .review
  identity : w.identity = v.identity
  rows : c'.toCatalogRows = { c.toCatalogRows with versions := replaceRow c.versions w }

theorem submission_of_save {tenantId : Id} {v w : ToolVersion} {now : Time} {u : Unit}
    {c c' : CatalogTables} (hv : v ∈ c.versions) (hw : v.submitForReview now = .ok w)
    (h : saveVersion tenantId w c = .ok (u, c')) : Submission c c' v w := by
  obtain ⟨hdraft, hw⟩ := ToolVersion.submitForReview_eq_ok.1 hw
  obtain ⟨-, -, -, hrows⟩ := saveVersion_eq_ok.1 h
  constructor
  · exact hv
  · exact hdraft
  · rw [hw]
  · simp [ToolVersion.identity, hw]
  · exact hrows

theorem submitToolVersionForReview_eq_ok {now : Time} {u : Unit}
    {command : SubmitToolVersionForReviewCommand} {c c' : CatalogTables}
    (h : SubmitToolVersionForReview.execute now command c = .ok (u, c')) :
    ∃ v w, Submission c c' v w := by
  simp only [SubmitToolVersionForReview.execute, CatalogM.bind_eq_ok, getVersionForUpdate_eq_ok,
    CatalogM.orRaise_eq_ok, CatalogM.raiseIf_eq_ok, CatalogM.lift_eq_ok] at h
  obtain ⟨_, _, ⟨rfl, rfl⟩, v, _, ⟨hv, rfl⟩, _, _, ⟨-, rfl⟩, w, _, ⟨hw, rfl⟩, hsave⟩ := h
  exact ⟨v, w, submission_of_save (inTenant_eq_some.1 hv).1 hw hsave⟩

/-! ## Drafting -/

/-- The numbers of the versions of a tool. -/
def versionNumbers (c : CatalogTables) (tenantId toolId : Id) : List Nat :=
  (c.versions.rows.filter fun v =>
    decide (v.val.tenantId = tenantId ∧ v.val.toolId = toolId)).map (·.val.version)

theorem nextVersionNumber_eq_ok {tenantId toolId : Id} {n : Nat} {c c' : CatalogTables} :
    nextVersionNumber tenantId toolId c = .ok (n, c') ↔
      n = (versionNumbers c tenantId toolId).foldr max 0 + 1 ∧ c' = c := by
  simp [nextVersionNumber, versionNumbers]

/-- The draft version and the draft binding of a review. -/
structure Drafts [Sha256] (command : ReviewImportedOperationCommand)
    (operation : ImportedOperation) (tool : Tool) (number : Nat) (version : ToolVersion)
    (binding : ToolBinding) : Prop where
  versionTenant : version.val.tenantId = command.context.tenantId
  versionTool : version.val.toolId = tool.val.id
  number : version.val.version = number
  versionDraft : version.val.status = .draft
  schemaDigest : calculateSchemaDigest version.val.inputSchema version.val.outputSchema =
    .ok version.val.schemaDigest
  bindingTenant : binding.val.tenantId = operation.tenantId
  bindingVersion : binding.val.toolVersionId = version.val.id
  bindingUpstream : binding.val.upstreamServiceId = operation.upstreamServiceId
  bindingDraft : binding.val.status = .draft
  bindingDigest : calculateBindingDigest binding.val = .ok binding.val.bindingDigest

theorem drafts_of_build [Sha256] {env : ReviewEnv} {command : ReviewImportedOperationCommand}
    {operation : ImportedOperation} {tool : Tool} {number : Nat} {version : ToolVersion}
    {binding : ToolBinding}
    (hversion : ReviewImportedOperation.buildVersion env command operation tool number =
      .ok version)
    (hbinding : ReviewImportedOperation.buildBinding env operation version = .ok binding) :
    Drafts command operation tool number version binding := by
  simp only [ReviewImportedOperation.buildVersion, ReviewImportedOperation.buildBinding, bind_eq_ok,
    construct_eq_ok] at hversion hbinding
  obtain ⟨inputSchema, -, outputSchema, -, tags, -, schemaDigest, hschema, hversion⟩ := hversion
  obtain ⟨parameters, -, requestBody, -, pending, hpending, bindingDigest, hdigest, hbinding⟩ :=
    hbinding
  constructor
  · rw [hversion]
  · rw [hversion]
  · rw [hversion]
  · rw [hversion]
  · rw [hversion]
    exact hschema
  · rw [hbinding, hpending]
  · rw [hbinding, hpending]
  · rw [hbinding, hpending]
  · rw [hbinding, hpending]
  · rw [hbinding]
    exact hdigest

/-- A committed review of an operation that was not accepted yet. -/
structure Drafting [Sha256] (c c' : CatalogTables) (command : ReviewImportedOperationCommand)
    (operation accepted : ImportedOperation) (upstream : UpstreamService) (tool : Tool)
    (version : ToolVersion) (binding : ToolBinding) : Prop where
  operationMem : operation ∈ c.operations
  operationId : operation.id = command.operationId
  operationTenant : operation.tenantId = command.context.tenantId
  accept : operation.accept version.val.id binding.val.id command.reviewNotes = .ok accepted
  upstreamMem : upstream ∈ c.upstreams
  upstreamId : upstream.val.id = operation.upstreamServiceId
  upstreamTenant : upstream.val.tenantId = command.context.tenantId
  active : upstream.val.status = .active
  toolTenant : tool.val.tenantId = command.context.tenantId
  tools : (tool ∈ c.tools ∧ c'.tools = c.tools) ∨
    (c.tools.find? tool.val.id = none ∧ tool.val.status = .disabled ∧
      c'.tools = c.tools.insert tool)
  drafts : Drafts command operation tool
    ((versionNumbers c command.context.tenantId tool.val.id).foldr max 0 + 1) version binding
  newVersion : c.versions.find? version.val.id = none
  newBinding : c.bindings.find? binding.val.id = none
  versions : c'.versions = c.versions.insert version
  bindings : c'.bindings = c.bindings.insert binding
  upstreams : c'.upstreams = c.upstreams
  operations : c'.operations = replaceRow c.operations accepted

/-- The tool of a generated name is there, or it is added and disabled. -/
theorem getOrAddTool_eq_ok {env : ReviewEnv} {command : ReviewImportedOperationCommand}
    {upstream : UpstreamService} {name : String} {tool : Tool} {c c' : CatalogTables}
    (h : ReviewImportedOperation.getOrAddTool env command upstream name c = .ok (tool, c')) :
    tool.val.tenantId = command.context.tenantId ∧
      ((tool ∈ c.tools ∧ c'.tools = c.tools) ∨ (c.tools.find? tool.val.id = none ∧
        tool.val.status = .disabled ∧ c'.tools = c.tools.insert tool)) ∧
      c'.versions = c.versions ∧ c'.bindings = c.bindings ∧ c'.upstreams = c.upstreams ∧
      c'.operations = c.operations := by
  simp only [ReviewImportedOperation.getOrAddTool, getToolByNameForUpdate, CatalogM.bind_eq_ok,
    CatalogM.read_eq_ok] at h
  obtain ⟨found, _, ⟨hfound, rfl⟩, h⟩ := h
  cases found with
  | some t =>
    rw [CatalogM.pure_eq_ok] at h
    obtain ⟨rfl, rfl⟩ := h
    have hmem := List.mem_of_find?_eq_some hfound.symm
    have hname := List.find?_some hfound.symm
    rw [decide_eq_true_eq] at hname
    exact ⟨hname.1, .inl ⟨hmem, rfl⟩, rfl, rfl, rfl, rfl⟩
  | none =>
    simp only [CatalogM.bind_eq_ok, CatalogM.lift_eq_ok, construct_eq_ok, addTool_eq_ok,
      CatalogM.pure_eq_ok] at h
    obtain ⟨t, _, ⟨ht, rfl⟩, _, _, ⟨htenant, hfresh, hrows⟩, rfl, rfl⟩ := h
    refine ⟨htenant.symm, .inr ⟨hfresh, ?_, ?_⟩, ?_⟩
    · rw [ht]
    · rw [hrows]
    · simp [hrows]

theorem draft_eq_ok [Sha256] {env : ReviewEnv} {command : ReviewImportedOperationCommand}
    {operation : ImportedOperation} {result : ReviewImportedOperationResult}
    {c c' : CatalogTables} (hmem : operation ∈ c.operations)
    (hid : operation.id = command.operationId)
    (htenant : operation.tenantId = command.context.tenantId)
    (h : ReviewImportedOperation.draft env command operation c = .ok (result, c')) :
    ∃ accepted upstream tool version binding,
      Drafting c c' command operation accepted upstream tool version binding ∧
        result = ReviewImportedOperation.result operation tool version binding := by
  simp only [ReviewImportedOperation.draft, CatalogM.bind_eq_ok, CatalogM.raiseIf_eq_ok,
    CatalogM.orRaise_eq_ok, getUpstreamForUpdate_eq_ok, nextVersionNumber_eq_ok,
    CatalogM.lift_eq_ok, addVersion_eq_ok, addBinding_eq_ok, saveOperation_eq_ok,
    CatalogM.pure_eq_ok] at h
  -- The statements of the source in their order: name, upstream, tool, version number, drafts,
  -- insertions and the accepted operation.
  obtain ⟨_, _, ⟨-, rfl⟩, name, _, ⟨-, rfl⟩, _, _, ⟨rfl, rfl⟩, upstream, _, ⟨hupstream, rfl⟩, _, _,
    ⟨hactive, rfl⟩, tool, c₁, htool, _, _, ⟨rfl, rfl⟩, version, _, ⟨hversion, rfl⟩, binding, _,
    ⟨hbinding, rfl⟩, accepted, _, ⟨haccept, rfl⟩, _, c₂, ⟨-, -, hnewVersion, hrows₂⟩, _, c₃,
    ⟨-, hnewBinding, hrows₃⟩, _, c₄, ⟨-, -, hrows₄⟩, rfl, rfl⟩ := h
  obtain ⟨hupstreamMem, hupstreamId, hupstreamTenant⟩ := inTenant_eq_some.1 hupstream
  obtain ⟨htoolTenant, htools, hversions, hbindings, hupstreams, hoperations⟩ :=
    getOrAddTool_eq_ok htool
  have hdrafts := drafts_of_build hversion hbinding
  refine ⟨accepted, upstream, tool, version, binding, ?_, rfl⟩
  constructor
  · exact hmem
  · exact hid
  · exact htenant
  · exact haccept
  · exact hupstreamMem
  · exact hupstreamId
  · exact hupstreamTenant
  · exact not_not.1 hactive
  · exact htoolTenant
  · simpa only [hrows₄, hrows₃, hrows₂] using htools
  · rwa [versionNumbers, hversions] at hdrafts
  · rwa [hversions] at hnewVersion
  · simpa [hrows₂, hbindings] using hnewBinding
  · simp [hrows₄, hrows₃, hrows₂, hversions]
  · simp [hrows₄, hrows₃, hrows₂, hbindings]
  · simp [hrows₄, hrows₃, hrows₂, hupstreams]
  · simp [hrows₄, hrows₃, hrows₂, hoperations]

end NexusMcp
