-- SUMMARY: The queries of the control plane over the catalogue: its listings, details and counts.
import NexusMcp.Catalog.Tables
import NexusMcp.Net.Replace
import NexusMcp.Select.Join
import NexusMcp.Select.Like

/-!
# Control Plane Queries

The statements join the tables of the catalogue and return read models. An identifier
that is no UUID finds nothing, as one that no row has.
-/

namespace NexusMcp

open Net (Text replaceAll)
open Select (join leftJoin groupMax page)

/-! ## The database -/

theorem percent_ne_backslash : '%' ≠ '\\' := by decide

theorem underscore_ne_backslash : '_' ≠ '\\' := by decide

theorem percent_ne_underscore : '%' ≠ '_' := by decide

/-- The characters that `LIKE ... ESCAPE '\'` gives a meaning to. -/
def likeMarks : Like.Marks Char :=
  ⟨'%', '_', '\\', percent_ne_backslash, underscore_ne_backslash, percent_ne_underscore⟩

/-- The lower case that `ILIKE` compares by. It changes letters only, into letters. -/
class CaseFold where
  fold : Char → Char
  keeps : likeMarks.Keeps fold

/-- The order of a text column. It is total, and tells different texts apart. -/
class Collation where
  le : String → String → Bool
  total : ∀ a b, le a b ∨ le b a
  trans : ∀ a b c, le a b → le b c → le a c
  antisymm : ∀ a b, le a b → le b a → a = b

/-- `column ILIKE pattern ESCAPE '\'` is true. A pattern that the database refuses is not. -/
def ilike [CaseFold] (pattern text : Text) : Prop :=
  likeMarks.like (pattern.map CaseFold.fold) (text.map CaseFold.fold) = some true

instance [CaseFold] (pattern text : Text) : Decidable (ilike pattern text) :=
  inferInstanceAs (Decidable (_ = _))

structure Page (α : Type) where
  items : List α
  offset : Nat
  limit : Nat
  total : Nat

def Page.map {α β : Type} (f : α → β) (self : Page α) : Page β :=
  { self with items := self.items.map f }

/-- `_paged_rows`. The rows are counted by one statement and read by another, and others may
    commit in between. -/
def pagedRows {α : Type} (counted rows : List α) (offset limit : Nat) : Page α where
  items := page offset limit rows
  offset := offset
  limit := limit
  total := counted.length

/-- `_escape_like`. -/
def escapeLike (value : Text) : Text :=
  replaceAll "_".toList "\\_".toList
    -- The escape itself comes first, or it would escape the escapes.
    (replaceAll "%".toList "\\%".toList (replaceAll "\\".toList "\\\\".toList value))

/-! ## Read models -/

structure ToolSummary where
  id : Id
  namespaceName : String
  canonicalName : String
  owner : String
  status : ToolStatus
  latestVersionId : Id
  latestVersion : Nat
  displayName : String
  description : String
  versionStatus : ToolVersionStatus
  visibility : ToolVisibility
  sideEffect : ToolSideEffect
  tags : List String
  upstreamServiceId : Option Id
  upstreamName : Option String
  upstreamNamespace : Option String
deriving Repr, DecidableEq

structure ToolVersionDetail where
  id : Id
  toolId : Id
  version : Nat
  displayName : String
  description : String
  inputSchema : JsonObject
  outputSchema : Option JsonObject
  schemaDigest : String
  tags : List String
  sideEffect : ToolSideEffect
  visibility : ToolVisibility
  status : ToolVersionStatus
  createdBy : String
  createdAt : Time
  reviewedAt : Option Time
  publishedAt : Option Time
  retiredAt : Option Time

structure ToolBindingDetail where
  id : Id
  toolVersionId : Id
  upstreamServiceId : Id
  importedOperationId : Option Id
  bindingType : ToolBindingType
  bindingConfig : JsonObject
  bindingDigest : String
  status : ToolBindingStatus
  createdAt : Time
  publishedAt : Option Time

/-- `_version_detail`. An output schema without fields is not shown. -/
def versionDetail (model : ToolVersion) : ToolVersionDetail where
  id := model.val.id
  toolId := model.val.toolId
  version := model.val.version
  displayName := model.val.displayName
  description := model.val.description
  inputSchema := model.val.inputSchema
  outputSchema := model.val.outputSchema.filter fun schema => ! schema.isEmpty
  schemaDigest := model.val.schemaDigest
  tags := model.val.tags
  sideEffect := model.val.sideEffect
  visibility := model.val.visibility
  status := model.val.status
  createdBy := model.val.createdBy
  createdAt := model.val.createdAt
  reviewedAt := model.val.reviewedAt
  publishedAt := model.val.publishedAt
  retiredAt := model.val.retiredAt

/-- `_binding_detail`. -/
def bindingDetail (model : ToolBinding) : ToolBindingDetail where
  id := model.val.id
  toolVersionId := model.val.toolVersionId
  upstreamServiceId := model.val.upstreamServiceId
  importedOperationId := model.val.importedOperationId
  bindingType := model.val.bindingType
  bindingConfig := model.val.bindingConfig
  bindingDigest := model.val.bindingDigest
  status := model.val.status
  createdAt := model.val.createdAt
  publishedAt := model.val.publishedAt

/-! ## `list_tools` -/

/-- A row of the statement of `list_tools`. -/
structure ToolRow where
  tool : Tool
  version : ToolVersion
  binding : Option ToolBinding
  upstream : Option UpstreamService

/-- `_tool_summary`. -/
def toolSummary (row : ToolRow) : ToolSummary where
  id := row.tool.val.id
  namespaceName := row.tool.val.namespaceName
  canonicalName := row.tool.val.canonicalName
  owner := row.tool.val.owner
  status := row.tool.val.status
  latestVersionId := row.version.val.id
  latestVersion := row.version.val.version
  displayName := row.version.val.displayName
  description := row.version.val.description
  versionStatus := row.version.val.status
  visibility := row.version.val.visibility
  sideEffect := row.version.val.sideEffect
  tags := row.version.val.tags
  upstreamServiceId := row.binding.map (·.val.upstreamServiceId)
  upstreamName := row.upstream.map (·.val.name)
  upstreamNamespace := row.upstream.map (·.val.namespaceName)

structure ToolFilter where
  query : Option String := none
  upstreamId : Option Id := none
  namespaceName : Option String := none
  status : Option ToolStatus := none
  versionStatus : Option ToolVersionStatus := none
  visibility : Option ToolVisibility := none
  sideEffect : Option ToolSideEffect := none

/-- The texts of a row that the query is looked for in. -/
def ToolRow.searched (row : ToolRow) : List Text :=
  [row.tool.val.canonicalName.toList, row.version.val.displayName.toList,
    row.version.val.description.toList]

/-- The pattern that a normalized query is looked for by. -/
def likePattern (normalizedQuery : Text) : Text := '%' :: (escapeLike normalizedQuery ++ ['%'])

/-- The conditions that the filter puts on a row. -/
def ToolFilter.Passes [CaseFold] (filter : ToolFilter) (row : ToolRow) : Prop :=
  -- A blank query is no condition.
  (∀ query ∈ filter.query, strip query = "" ∨
    ∃ text ∈ row.searched, ilike (likePattern (strip query).toList) text) ∧
  (∀ id ∈ filter.upstreamId, row.binding.map (·.val.upstreamServiceId) = some id) ∧
  (∀ name ∈ filter.namespaceName, row.tool.val.namespaceName = name) ∧
  (∀ status ∈ filter.status, row.tool.val.status = status) ∧
  (∀ status ∈ filter.versionStatus, row.version.val.status = status) ∧
  (∀ visibility ∈ filter.visibility, row.version.val.visibility = visibility) ∧
  (∀ sideEffect ∈ filter.sideEffect, row.version.val.sideEffect = sideEffect)

instance ToolFilter.decidablePasses [CaseFold] (filter : ToolFilter) (row : ToolRow) :
    Decidable (filter.Passes row) :=
  inferInstanceAs (Decidable (_ ∧ _))

namespace CatalogTables

/-- The subquery of the latest versions. -/
def latestVersions (c : CatalogTables) (tenantId : Id) : List (Id × Nat) :=
  groupMax (·.val.toolId) (·.val.version) (c.versions.rows.filter (·.val.tenantId = tenantId))

/-- The tools with their latest versions. -/
def latestRows (c : CatalogTables) (tenantId : Id) : List ((Tool × (Id × Nat)) × ToolVersion) :=
  join (fun row version => version.val.toolId = row.2.1 ∧ version.val.version = row.2.2)
    (join (fun tool latest => latest.1 = tool.val.id) c.tools.rows (c.latestVersions tenantId))
    c.versions.rows

/-- The versions with their bindings, and these with their upstreams. -/
def boundRows (c : CatalogTables) (tenantId : Id) :
    List ((((Tool × (Id × Nat)) × ToolVersion) × Option ToolBinding) × Option UpstreamService) :=
  leftJoin (fun row upstream => upstream.val.tenantId = tenantId ∧
      row.2.map (·.val.upstreamServiceId) = some upstream.val.id)
    -- Outer joins: a version without a binding would still be listed.
    (leftJoin (fun row binding => binding.val.tenantId = tenantId ∧
      binding.val.toolVersionId = row.2.val.id) (c.latestRows tenantId) c.bindings.rows)
    c.upstreams.rows

def toolRows (c : CatalogTables) (tenantId : Id) : List ToolRow :=
  (c.boundRows tenantId).map fun row => ⟨row.1.1.1.1, row.1.1.2, row.1.2, row.2⟩

section Listings

variable [CaseFold] [Collation]

/-- `ORDER BY canonical_name`. -/
def nameBefore (x y : ToolRow) : Prop :=
  Collation.le x.tool.val.canonicalName y.tool.val.canonicalName = true

instance : DecidableRel (nameBefore) := fun _ _ => inferInstanceAs (Decidable (_ = true))

/-- The rows that the statement of `list_tools` selects, in their order. -/
def toolStatement (c : CatalogTables) (tenantId : Id) (filter : ToolFilter) : List ToolRow :=
  ((c.toolRows tenantId).filter fun row =>
    row.tool.val.tenantId = tenantId ∧ filter.Passes row).insertionSort nameBefore

/-- `list_tools`. -/
def listTools (counted read : CatalogTables) (tenantId : Id) (offset limit : Nat)
    (filter : ToolFilter) : Page ToolSummary :=
  (pagedRows (counted.toolStatement tenantId filter) (read.toolStatement tenantId filter) offset
    limit).map toolSummary

end Listings

/-! ## Versions and bindings -/

/-- The rows of the statement of `list_tool_versions`. -/
def toolVersionStatement (c : CatalogTables) (tenantId toolId : Id) : List ToolVersion :=
  (c.versions.rows.filter fun version => version.val.tenantId = tenantId ∧
    version.val.toolId = toolId).insertionSort (·.val.version ≥ ·.val.version)

/-- `list_tool_versions`. -/
def listToolVersions (counted read : CatalogTables) (tenantId toolId : Id) (offset limit : Nat) :
    Page ToolVersionDetail :=
  (pagedRows (counted.toolVersionStatement tenantId toolId)
    (read.toolVersionStatement tenantId toolId) offset limit).map versionDetail

/-- `get_tool_version_binding`. -/
def getToolVersionBinding (c : CatalogTables) (tenantId toolVersionId : Id) :
    Option ToolBindingDetail :=
  (c.bindings.rows.find? fun binding => binding.val.tenantId = tenantId ∧
    binding.val.toolVersionId = toolVersionId).map bindingDetail

/-- The row that `get_upstream` reads. -/
def getUpstreamRow (c : CatalogTables) (tenantId upstreamId : Id) : Option UpstreamService :=
  c.upstreams.rows.find? fun upstream => upstream.val.tenantId = tenantId ∧
    upstream.val.id = upstreamId

/-! ## `dashboard` -/

def publishedToolCount (c : CatalogTables) (tenantId : Id) : Nat :=
  (c.versions.rows.filter fun version => version.val.tenantId = tenantId ∧
    version.val.status = .published).length

end CatalogTables

end NexusMcp
