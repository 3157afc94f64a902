-- SUMMARY: What the toolset commands and the runtime read of the catalogue tables.
import NexusMcp.Catalog.Tables
import NexusMcp.Toolsets.Repository

/-! # Toolset Catalogue Reader -/

namespace NexusMcp

open Txn (Table)

/-- `_schema_size`. A stored schema holds no number that JSON lacks, so the text exists, and
    the order of its keys does not change its length. -/
def schemaSize (version : ToolVersion) : Int :=
  let document := ("inputSchema", Json.obj version.val.inputSchema) ::
    (version.val.outputSchema.map fun schema => ("outputSchema", Json.obj schema)).toList
  match (Json.obj document).canonical with
  | .ok text => text.utf8ByteSize
  | .error _ => 0

namespace CatalogTables

/-- The published version that the outer join finds for a tool. -/
def publishedVersion (c : CatalogTables) (tool : Tool) : Option ToolVersion :=
  c.versions.rows.find? fun v =>
    v.val.toolId = tool.val.id ∧ v.val.tenantId = tool.val.tenantId ∧ v.val.status = .published

theorem publishedVersion_eq_none {c : CatalogTables} {tool : Tool}
    (h : c.publishedVersion tool = none) : ∀ v ∈ c.versions, v.val.toolId = tool.val.id →
      v.val.tenantId = tool.val.tenantId → v.val.status ≠ .published := by
  intro v hv htool htenant hstatus
  have hnone := List.find?_eq_none.1 h v hv
  simp [htool, htenant, hstatus] at hnone

/-- The fields of the snapshot of one tool. -/
def snapshotFields (tool : Tool) (version : Option ToolVersion) : ToolsetCatalogSnapshotFields where
  toolId := tool.val.id
  tenantId := tool.val.tenantId
  availability :=
    if tool.val.status = .disabled then .toolDisabled
    else if version.isNone then .noPublishedVersion
    else .available
  publishedToolVersionId :=
    if tool.val.status = .active then version.map (·.val.id) else none
  canonicalName := some tool.val.canonicalName
  description := version.map (·.val.description)
  serializedSchemaSize := (version.map schemaSize).getD 0

theorem schemaSize_nonneg (version : ToolVersion) : 0 ≤ schemaSize version := by
  unfold schemaSize
  dsimp only
  split
  · exact Int.natCast_nonneg _
  · exact le_refl _

theorem snapshotFields_valid (tool : Tool) (version : Option ToolVersion) :
    Valid (snapshotFields tool version) := by
  have ht := tool.property
  simp only [Valid, PostInit.checks, nonBlank, List.forall_mem_cons] at ht
  have hsize : 0 ≤ (version.map schemaSize).getD 0 := by
    cases version with
    | none => exact le_refl _
    | some v => exact schemaSize_nonneg v
  have hstatus : tool.val.status = .disabled ↔ ¬ tool.val.status = .active := by
    cases tool.val.status <;> simp
  simp only [Valid, PostInit.checks, List.forall_mem_cons, List.not_mem_nil, false_implies,
    implies_true, and_true]
  refine ⟨?_, ?_, ?_, ?_⟩
  · simp [snapshotFields, ht.1, ht.2.1]
  · -- An available snapshot names the version, and the identifier of a version is not blank.
    cases version with
    | none => simp [snapshotFields, hstatus]; split <;> simp
    | some v =>
      have hv := v.property
      simp only [Valid, PostInit.checks, nonBlank, List.forall_mem_cons] at hv
      have hne : v.val.id ≠ "" := by
        intro hempty
        have := hv.1
        rw [hempty] at this
        exact absurd this (by decide)
      by_cases hactive : tool.val.status = .active <;>
        simp [snapshotFields, hstatus, hactive, isEmptyText, hne]
  · cases version with
    | none => simp [snapshotFields]
    | some v =>
      by_cases hactive : tool.val.status = .active <;> simp [snapshotFields, hstatus, hactive]
  · simp [snapshotFields, hsize]

def memberSnapshot (tool : Tool) (version : Option ToolVersion) : ToolsetCatalogSnapshot :=
  ⟨snapshotFields tool version, snapshotFields_valid tool version⟩

/-- The rows of a tenant with a requested identifier, by identifier. -/
def snapshotOf (c : CatalogTables) (tenantId toolId : Id) : Option ToolsetCatalogSnapshot :=
  match c.tools.find? toolId with
  | some tool =>
    if tool.val.tenantId = tenantId then some (memberSnapshot tool (c.publishedVersion tool))
    else none
  | none => none

theorem snapshotOf_eq_some {c : CatalogTables} {tenantId toolId : Id}
    {snapshot : ToolsetCatalogSnapshot} : c.snapshotOf tenantId toolId = some snapshot ↔
      ∃ tool ∈ c.tools, tool.val.id = toolId ∧ tool.val.tenantId = tenantId ∧
        snapshot = memberSnapshot tool (c.publishedVersion tool) := by
  unfold snapshotOf
  constructor
  · intro h
    split at h
    · next tool htool =>
      split at h
      · next htenant =>
        cases h
        obtain ⟨hmem, hid⟩ := Table.find?_eq_some.1 htool
        exact ⟨tool, hmem, hid, htenant, rfl⟩
      · cases h
    · cases h
  · rintro ⟨tool, hmem, rfl, htenant, rfl⟩
    simp [Table.find?_of_mem hmem, htenant]

/-- `SqlAlchemyToolsetCatalogReader`. -/
def toolsetReader (c : CatalogTables) : ToolsetCatalogReader where
  listMemberSnapshots tenantId toolIds := toolIds.filterMap (c.snapshotOf tenantId)
  listPublishedSnapshots tenantId :=
    ((c.tools.rows.filter fun tool => tool.val.tenantId = tenantId ∧ tool.val.status = .active
      ).insertionSort (·.val.canonicalName ≤ ·.val.canonicalName)).filterMap fun tool =>
        (c.publishedVersion tool).map fun version => memberSnapshot tool (some version)

theorem mem_listMemberSnapshots {c : CatalogTables} {tenantId : Id} {toolIds : List Id}
    {snapshot : ToolsetCatalogSnapshot} :
    snapshot ∈ c.toolsetReader.listMemberSnapshots tenantId toolIds ↔
      ∃ tool ∈ c.tools, tool.val.id ∈ toolIds ∧ tool.val.tenantId = tenantId ∧
        snapshot = memberSnapshot tool (c.publishedVersion tool) := by
  simp only [toolsetReader, List.mem_filterMap, snapshotOf_eq_some]
  constructor
  · rintro ⟨_, hid, tool, hmem, rfl, htenant, rfl⟩
    exact ⟨tool, hmem, hid, htenant, rfl⟩
  · rintro ⟨tool, hmem, hid, htenant, rfl⟩
    exact ⟨_, hid, tool, hmem, rfl, htenant, rfl⟩

end CatalogTables

end NexusMcp
