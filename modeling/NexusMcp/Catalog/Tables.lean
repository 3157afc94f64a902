-- SUMMARY: The tables of the catalogue with their unique constraints, and the join that discovery reads.
import NexusMcp.Txn.Table
import NexusMcp.Connectors.Domain
import NexusMcp.Registry.Domain
import NexusMcp.OpenApi.Domain
import Mathlib.Data.String.Basic

/-!
# Catalogue Tables

A committed state of the tables of tools, versions, bindings and upstreams. The
unique constraints of the schema hold of every state, so they are fields of it. Rows
are the domain objects that the mapping stores and reads back.
-/

namespace NexusMcp

open Txn (Table)

/-- The rows of the tables, before the database has checked the unique constraints. -/
structure CatalogRows where
  tools : Table fun t : Tool => t.val.id
  versions : Table fun v : ToolVersion => v.val.id
  bindings : Table fun b : ToolBinding => b.val.id
  upstreams : Table fun u : UpstreamService => u.val.id
  operations : Table fun o : ImportedOperation => o.id
  jobs : Table fun j : OpenApiImportJob => j.id

/-- The unique constraints that results rest on: the one on the operations of an import job is
    left out. -/
structure CatalogRows.Unique (c : CatalogRows) : Prop where
  /-- `uq_tool_tenant_canonical_name`. -/
  toolNames : (c.tools.rows.map fun t => (t.val.tenantId, t.val.canonicalName)).Nodup
  /-- `uq_tool_version_tool_version`. -/
  versionNumbers : (c.versions.rows.map fun v => (v.val.toolId, v.val.version)).Nodup
  /-- `uq_tool_version_one_published`. -/
  onePublished : ((c.versions.rows.filter (·.val.status = .published)).map (·.val.toolId)).Nodup
  /-- `uq_tool_binding_tool_version`. -/
  oneBinding : (c.bindings.rows.map (·.val.toolVersionId)).Nodup

instance (c : CatalogRows) : Decidable c.Unique :=
  decidable_of_iff
    ((c.tools.rows.map fun t => (t.val.tenantId, t.val.canonicalName)).Nodup ∧
      (c.versions.rows.map fun v => (v.val.toolId, v.val.version)).Nodup ∧
      ((c.versions.rows.filter (·.val.status = .published)).map (·.val.toolId)).Nodup ∧
      (c.bindings.rows.map (·.val.toolVersionId)).Nodup)
    ⟨fun ⟨h1, h2, h3, h4⟩ => ⟨h1, h2, h3, h4⟩, fun ⟨h1, h2, h3, h4⟩ => ⟨h1, h2, h3, h4⟩⟩

/-- A state of the tables that satisfies the constraints. -/
structure CatalogTables extends CatalogRows where
  unique : toCatalogRows.Unique

namespace CatalogTables

/-! ## Uniqueness -/

theorem tool_eq_of_name {c : CatalogTables} {t u : Tool} (ht : t ∈ c.tools) (hu : u ∈ c.tools)
    (htenant : t.val.tenantId = u.val.tenantId)
    (hname : t.val.canonicalName = u.val.canonicalName) : t = u :=
  List.inj_on_of_nodup_map c.unique.toolNames ht hu (Prod.ext htenant hname)

theorem version_eq_of_published {c : CatalogTables} {v w : ToolVersion} (hv : v ∈ c.versions)
    (hw : w ∈ c.versions) (hvs : v.val.status = .published) (hws : w.val.status = .published)
    (htool : v.val.toolId = w.val.toolId) : v = w := by
  apply List.inj_on_of_nodup_map c.unique.onePublished _ _ htool
  · exact List.mem_filter.2 ⟨hv, by simp [hvs]⟩
  · exact List.mem_filter.2 ⟨hw, by simp [hws]⟩

theorem binding_eq_of_version {c : CatalogTables} {a b : ToolBinding} (ha : a ∈ c.bindings)
    (hb : b ∈ c.bindings) (hversion : a.val.toolVersionId = b.val.toolVersionId) : a = b :=
  List.inj_on_of_nodup_map c.unique.oneBinding ha hb hversion

/-! ## The published join -/

/-- The condition of `_published_statement` on a tool, a version and a binding. The text and
    the vector search restate it. -/
def PublishedJoin (tenantId : Id) (tool : Tool) (version : ToolVersion) (binding : ToolBinding) :
    Prop :=
  version.val.toolId = tool.val.id ∧ binding.val.toolVersionId = version.val.id ∧
    tool.val.tenantId = tenantId ∧ version.val.tenantId = tenantId ∧
    binding.val.tenantId = tenantId ∧ tool.val.status = .active ∧
    version.val.status = .published ∧ binding.val.status = .published

instance (tenantId : Id) (tool : Tool) (version : ToolVersion) (binding : ToolBinding) :
    Decidable (PublishedJoin tenantId tool version binding) :=
  inferInstanceAs (Decidable (_ ∧ _))

/-- The rows of `_published_statement`. -/
def publishedRows (c : CatalogTables) (tenantId : Id) : List (Tool × ToolVersion) :=
  c.tools.rows.flatMap fun tool => c.versions.rows.flatMap fun version =>
    (c.bindings.rows.filter fun binding => PublishedJoin tenantId tool version binding).map
      fun _ => (tool, version)

theorem mem_publishedRows {c : CatalogTables} {tenantId : Id} {tool : Tool}
    {version : ToolVersion} : (tool, version) ∈ c.publishedRows tenantId ↔
      tool ∈ c.tools ∧ version ∈ c.versions ∧
        ∃ binding ∈ c.bindings, PublishedJoin tenantId tool version binding := by
  simp only [publishedRows, List.mem_flatMap, List.mem_map, List.mem_filter, decide_eq_true_eq,
    Prod.mk.injEq]
  constructor
  · rintro ⟨t, ht, v, hv, b, ⟨hb, hjoin⟩, rfl, rfl⟩
    exact ⟨ht, hv, b, hb, hjoin⟩
  · rintro ⟨ht, hv, b, hb, hjoin⟩
    exact ⟨tool, ht, version, hv, b, ⟨hb, hjoin⟩, rfl, rfl⟩

theorem pairwise_of_table {κ ν : Type} {key : ν → κ} (t : Table key) :
    t.rows.Pairwise fun v w => key v ≠ key w :=
  List.pairwise_map.1 t.nodup

/-- A tool has at most one row: it has one published version, and that has one binding. -/
theorem publishedRows_pairwise (c : CatalogTables) (tenantId : Id) :
    (c.publishedRows tenantId).Pairwise fun x y => x.1.val.id ≠ y.1.val.id := by
  unfold publishedRows
  rw [List.pairwise_flatMap]
  constructor
  · intro tool _
    rw [List.pairwise_flatMap]
    constructor
    · intro version _
      rw [List.pairwise_map, List.pairwise_filter]
      apply (pairwise_of_table c.bindings).imp_of_mem
      intro a b ha hb hne hja hjb
      simp only [decide_eq_true_eq] at hja hjb
      have heq := c.binding_eq_of_version ha hb (hja.2.1.trans hjb.2.1.symm)
      exact absurd (by rw [heq]) hne
    · apply (pairwise_of_table c.versions).imp_of_mem
      intro v w hv hw hne x hx y hy
      obtain ⟨a, ha, -⟩ := List.mem_map.1 hx
      obtain ⟨b, hb, -⟩ := List.mem_map.1 hy
      simp only [List.mem_filter, decide_eq_true_eq] at ha hb
      obtain ⟨-, hvt, -, -, -, -, -, hvs, -⟩ := ha
      obtain ⟨-, hwt, -, -, -, -, -, hws, -⟩ := hb
      have heq := c.version_eq_of_published hv hw hvs hws (hvt.trans hwt.symm)
      exact absurd (by rw [heq]) hne
  · apply (pairwise_of_table c.tools).imp
    intro t u hne x hx y hy
    simp only [List.mem_flatMap, List.mem_map] at hx hy
    obtain ⟨_, -, _, -, rfl⟩ := hx
    obtain ⟨_, -, _, -, rfl⟩ := hy
    exact hne

/-- `list_published_by_tenant`. -/
def listPublishedByTenant (c : CatalogTables) (tenantId : Id) : List PublishedTool :=
  ((c.publishedRows tenantId).map fun row => publishedToolFromModels row.1 row.2).insertionSort
    (·.val.canonicalName ≤ ·.val.canonicalName)

theorem mem_listPublishedByTenant {c : CatalogTables} {tenantId : Id} {published : PublishedTool} :
    published ∈ c.listPublishedByTenant tenantId ↔
      ∃ tool version, (tool, version) ∈ c.publishedRows tenantId ∧
        published = publishedToolFromModels tool version := by
  simp only [listPublishedByTenant, List.mem_insertionSort, List.mem_map, Prod.exists, eq_comm]

/-- The published tools of a tenant have different identifiers and different names. -/
theorem listPublishedByTenant_pairwise (c : CatalogTables) (tenantId : Id) :
    (c.listPublishedByTenant tenantId).Pairwise fun x y =>
      x.val.toolId ≠ y.val.toolId ∧ x.val.canonicalName ≠ y.val.canonicalName := by
  have hperm := List.perm_insertionSort
    (fun x y : PublishedTool => x.val.canonicalName ≤ y.val.canonicalName)
    ((c.publishedRows tenantId).map fun row => publishedToolFromModels row.1 row.2)
  refine (hperm.pairwise_iff ?_).2 ?_
  · intro x y h
    exact ⟨h.1.symm, h.2.symm⟩
  rw [List.pairwise_map]
  apply (c.publishedRows_pairwise tenantId).imp_of_mem
  rintro ⟨t, v⟩ ⟨u, w⟩ ht hu hne
  obtain ⟨ht, -, _, -, -, -, htt, -⟩ := mem_publishedRows.1 ht
  obtain ⟨hu, -, _, -, -, -, hut, -⟩ := mem_publishedRows.1 hu
  refine ⟨hne, ?_⟩
  intro hname
  have heq := c.tool_eq_of_name ht hu (htt.trans hut.symm) hname
  exact hne (by rw [heq])

/-- Sorting tools of different names by name leaves them in strictly increasing order. -/
theorem pairwise_lt_of_names {tools : List PublishedTool}
    (h : tools.Pairwise fun x y => x.val.canonicalName ≠ y.val.canonicalName) :
    (tools.insertionSort (·.val.canonicalName ≤ ·.val.canonicalName)).Pairwise
      fun x y => x.val.canonicalName < y.val.canonicalName := by
  have hle := List.pairwise_insertionSort
    (fun x y : PublishedTool => x.val.canonicalName ≤ y.val.canonicalName) tools
  have hperm := List.perm_insertionSort
    (fun x y : PublishedTool => x.val.canonicalName ≤ y.val.canonicalName) tools
  have hne := (hperm.pairwise_iff (fun hxy => Ne.symm hxy)).2 h
  exact (hle.and hne).imp fun hxy => lt_of_le_of_ne hxy.1 hxy.2

end CatalogTables

end NexusMcp
