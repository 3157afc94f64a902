-- SUMMARY: The tools a principal reaches through an endpoint: listing, calling and searching agree.
import NexusMcp.Toolsets.Revisions
import NexusMcp.Toolsets.CatalogReader
import NexusMcp.ToolSearch.Domain

/-!
# Toolset Runtime

`ResolveToolsetAccess` reads the toolsets and the members in one transaction and the
published tools by a query of their own. Here all of them come from one snapshot.
-/

namespace NexusMcp

open Txn (Table)

section Runtime

variable [Sha256]

/-! ## Scopes -/

inductive McpEndpointScope where
  | root
  | toolset (slug : String) (nonempty : slug ≠ "")

structure ResolvedToolsetAccess where
  endpointScope : McpEndpointScope
  tools : List PublishedTool
  unavailableToolNames : List String
  discoveryMode : Option ToolsetDiscoveryMode
  toolsetId : Option Id := none
  toolsetRevision : Option Int := none

def ResolvedToolsetAccess.availableToolIds (self : ResolvedToolsetAccess) : List Id :=
  sortedSet (self.tools.map (·.val.toolId))

def ResolvedToolsetAccess.requireBusinessTool (self : ResolvedToolsetAccess)
    (canonicalName : String) : Except Exc Unit :=
  if ∃ tool ∈ self.tools, tool.val.canonicalName = canonicalName then .ok ()
  else if canonicalName ∈ self.unavailableToolNames then
    .error (.nexus .toolsetMemberUnavailable
      ("tool " ++ canonicalName ++ " was a member but is currently unavailable"))
  else .error (.nexus .toolsetAccessDenied
    ("tool " ++ canonicalName ++ " was outside the authorized endpoint scope"))

namespace ResolveToolsetAccess

/-- `_require_scoped_access`. -/
def requireScopedAccess (toolset : Option Toolset) (context : ActorContext) :
    Except Exc Toolset :=
  match toolset with
  | none => .error (.nexus .toolsetNotFound "toolset slug did not exist in tenant")
  | some toolset =>
    if toolset.val.status ≠ .active then
      .error (.nexus .toolsetNotActive "toolset endpoint was not active")
    else if context.principalId ∉ toolset.val.principalIds then
      .error (.nexus .toolsetAccessDenied "principal did not have an active toolset grant")
    else .ok toolset

/-- The toolsets of an endpoint. -/
def scopeToolsets (repository : InMemoryToolsetRepository) (context : ActorContext) :
    McpEndpointScope → Except Exc (List Toolset)
  | .root => .ok (repository.listGrantedActive context.tenantId context.principalId)
  | .toolset slug _ =>
    (requireScopedAccess (repository.getBySlug context.tenantId slug) context).map ([·])

/-- The identifiers that `_member_snapshots` asks for. -/
def memberIds (toolsets : List Toolset) : List Id :=
  sortedSet ((toolsets.filter (·.val.kind = .explicit)).flatMap (·.val.toolIds))

/-- The tool of a snapshot cannot be reached, although it is a member. -/
def isUnavailable (published : List PublishedTool) (snapshot : ToolsetCatalogSnapshot) : Bool :=
  snapshot.val.availability ≠ .available ∨
    snapshot.val.toolId ∉ published.map (·.val.toolId)

def execute (repository : InMemoryToolsetRepository) (catalog : ToolsetCatalogReader)
    (listPublishedByTenant : Id → List PublishedTool) (context : ActorContext)
    (endpointScope : McpEndpointScope) : Except Exc ResolvedToolsetAccess := do
  let toolsets ← scopeToolsets repository context endpointScope
  let allowedAllPublished := toolsets.any (·.val.kind = .allPublished)
  let snapshots := catalog.listMemberSnapshots context.tenantId (memberIds toolsets)
  let published := listPublishedByTenant context.tenantId
  let allowedIds := snapshots.map (·.val.toolId)
  let eligible := published.filter fun tool =>
    (allowedAllPublished ∨ tool.val.toolId ∈ allowedIds) ∧ tool.isVisibleTo context.principalId
  let scopedToolset := match endpointScope with
    | .root => none
    | .toolset _ _ => toolsets.head?
  return {
    endpointScope := endpointScope
    tools := eligible.insertionSort (·.val.canonicalName ≤ ·.val.canonicalName)
    unavailableToolNames :=
      (snapshots.filter (isUnavailable published)).filterMap (·.val.canonicalName)
    discoveryMode := scopedToolset.map (·.val.discoveryMode)
    toolsetId := scopedToolset.map (·.val.id)
    toolsetRevision := scopedToolset.map (·.val.revision) }

end ResolveToolsetAccess

/-- `_filter_search_result`. -/
def filterSearchResult (result : SearchToolsResult) (access : ResolvedToolsetAccess) :
    SearchToolsResult :=
  let hits := result.hits.filter (·.tool.val.toolId ∈ access.availableToolIds)
  { hits := hits
    retrievalMode := result.retrievalMode
    indexVersion := result.indexVersion
    diagnostics := result.diagnostics.map fun diagnostics =>
      hits.filterMap fun hit =>
        diagnostics.find? (·.1 = hit.tool.val.toolVersionId) }

/-! ## Toolsets in scope -/

/-- The endpoint serves the toolset. -/
def McpEndpointScope.Includes : McpEndpointScope → Toolset → Prop
  | root, _ => True
  | toolset slug _, t => t.val.slug = slug

/-- The toolset is active in the tenant, granted to the principal and in scope. -/
structure Toolset.ReachedBy (t : Toolset) (context : ActorContext) (scope : McpEndpointScope) :
    Prop where
  tenant : t.val.tenantId = context.tenantId
  scope : scope.Includes t
  active : t.val.status = .active
  granted : context.principalId ∈ t.val.principalIds

/-- The toolset lists the tool as a member, or lists every published tool. -/
def Toolset.Holds (t : Toolset) (toolId : Id) : Prop :=
  t.val.kind = .allPublished ∨ toolId ∈ t.val.toolIds

theorem InMemoryToolsetRepository.mem_listGrantedActive {repository : InMemoryToolsetRepository}
    {context : ActorContext} {t : Toolset} :
    t ∈ repository.listGrantedActive context.tenantId context.principalId ↔
      t ∈ repository.toolsets ∧ t.ReachedBy context .root := by
  simp only [listGrantedActive, listByTenant, List.mem_filter, List.mem_insertionSort,
    decide_eq_true_eq]
  constructor
  · rintro ⟨⟨ht, htenant⟩, hactive, hgranted⟩
    exact ⟨ht, htenant, trivial, hactive, hgranted⟩
  · rintro ⟨ht, htenant, -, hactive, hgranted⟩
    exact ⟨⟨ht, htenant⟩, hactive, hgranted⟩

theorem Toolset.slug_nonempty (t : Toolset) : t.val.slug ≠ "" := by
  intro h
  have hslug := t.sound.slug.2
  rw [h] at hslug
  exact absurd hslug (by decide)

namespace ResolveToolsetAccess

open InMemoryToolsetRepository in
/-- The toolsets of an endpoint are the ones its principal reaches there. -/
theorem mem_scopeToolsets {repository : InMemoryToolsetRepository} {context : ActorContext}
    {scope : McpEndpointScope} {toolsets : List Toolset}
    (h : scopeToolsets repository context scope = .ok toolsets) {t : Toolset} :
    t ∈ toolsets ↔ t ∈ repository.toolsets ∧ t.ReachedBy context scope := by
  cases scope with
  | root =>
    cases h
    exact mem_listGrantedActive
  | toolset slug nonempty =>
    obtain ⟨u, hu, rfl⟩ := map_eq_ok.1 h
    unfold requireScopedAccess at hu
    split at hu
    · cases hu
    next found hfound =>
      split_ifs at hu with hactive hgranted
      cases hu
      obtain ⟨hmem, htenant, hslug⟩ := getBySlug_eq_some.1 hfound
      rw [List.mem_singleton]
      constructor
      · rintro rfl
        exact ⟨hmem, htenant, hslug, not_not.1 hactive, hgranted⟩
      · rintro ⟨ht, htt, hts, -, -⟩
        exact eq_of_slug ht hmem (htt.trans htenant.symm) (hts.trans hslug.symm)

/-- Where one toolset is reached through an endpoint of its own, the endpoint answers. -/
theorem scopeToolsets_of_reached {repository : InMemoryToolsetRepository}
    {context : ActorContext} {t : Toolset} {slug : String} {nonempty : slug ≠ ""}
    (ht : t ∈ repository.toolsets) (h : t.ReachedBy context (.toolset slug nonempty)) :
    scopeToolsets repository context (.toolset slug nonempty) = .ok [t] := by
  have hfound : repository.getBySlug context.tenantId slug = some t :=
    InMemoryToolsetRepository.getBySlug_eq_some.2 ⟨ht, h.tenant, h.scope⟩
  simp only [scopeToolsets, hfound, requireScopedAccess, h.active, h.granted, ne_eq,
    not_true_eq_false, if_false, Except.map]

theorem mem_memberIds {toolsets : List Toolset} {toolId : Id} :
    toolId ∈ memberIds toolsets ↔
      ∃ t ∈ toolsets, t.val.kind = .explicit ∧ toolId ∈ t.val.toolIds := by
  simp only [memberIds, mem_sortedSet, List.mem_flatMap, List.mem_filter, decide_eq_true_eq,
    and_assoc]

/-! ## One snapshot -/

variable {repository : InMemoryToolsetRepository} {c : CatalogTables} {context : ActorContext}
  {scope : McpEndpointScope} {access : ResolvedToolsetAccess}

/-- Resolve the access with every reader on the one state of the catalogue. -/
def onSnapshot (repository : InMemoryToolsetRepository) (c : CatalogTables)
    (context : ActorContext) (scope : McpEndpointScope) : Except Exc ResolvedToolsetAccess :=
  execute repository c.toolsetReader c.listPublishedByTenant context scope

omit [Sha256] in
/-- A published tool of the tenant is a row of the tool table. -/
theorem tool_of_published {tenantId : Id} {published : PublishedTool}
    (h : published ∈ c.listPublishedByTenant tenantId) :
    ∃ tool ∈ c.tools, tool.val.id = published.val.toolId ∧ tool.val.tenantId = tenantId ∧
      tool.val.canonicalName = published.val.canonicalName ∧ tool.val.status = .active ∧
      ∃ version ∈ c.versions, version.val.toolId = tool.val.id ∧
        version.val.tenantId = tenantId ∧ version.val.status = .published := by
  obtain ⟨tool, version, hrow, rfl⟩ := CatalogTables.mem_listPublishedByTenant.1 h
  obtain ⟨htool, hversion, -, -, hvt, -, htt, hvtenant, -, hactive, hpublished, -⟩ :=
    CatalogTables.mem_publishedRows.1 hrow
  exact ⟨tool, htool, rfl, htt, rfl, hactive, version, hversion, hvt, hvtenant, hpublished⟩

/-- The tools of an endpoint are the visible published ones that a toolset in reach holds. -/
theorem mem_tools (h : onSnapshot repository c context scope = .ok access) {tool : PublishedTool} :
    tool ∈ access.tools ↔
      tool ∈ c.listPublishedByTenant context.tenantId ∧
        tool.isVisibleTo context.principalId = true ∧
        ∃ t ∈ repository.toolsets, t.ReachedBy context scope ∧ t.Holds tool.val.toolId := by
  obtain ⟨toolsets, hscope, h⟩ := bind_eq_ok.1 h
  cases h
  simp only [List.mem_insertionSort, List.mem_filter, decide_eq_true_eq, List.any_eq_true]
  constructor
  · rintro ⟨hpublished, hallowed, hvisible⟩
    refine ⟨hpublished, hvisible, ?_⟩
    rcases hallowed with ⟨t, ht, hkind⟩ | hid
    · obtain ⟨hmem, hreached⟩ := (mem_scopeToolsets hscope).1 ht
      exact ⟨t, hmem, hreached, .inl hkind⟩
    · obtain ⟨snapshot, hsnapshot, hid⟩ := List.mem_map.1 hid
      obtain ⟨row, -, hrow, -, rfl⟩ := CatalogTables.mem_listMemberSnapshots.1 hsnapshot
      obtain ⟨t, ht, -, hmember⟩ := mem_memberIds.1 hrow
      obtain ⟨hmem, hreached⟩ := (mem_scopeToolsets hscope).1 ht
      have hid' : row.val.id = tool.val.toolId := hid
      exact ⟨t, hmem, hreached, .inr (hid' ▸ hmember)⟩
  · rintro ⟨hpublished, hvisible, t, hmem, hreached, hholds⟩
    refine ⟨hpublished, ?_, hvisible⟩
    have ht : t ∈ toolsets := (mem_scopeToolsets hscope).2 ⟨hmem, hreached⟩
    by_cases hkind : t.val.kind = .allPublished
    · exact .inl ⟨t, ht, hkind⟩
    · right
      have hexplicit : t.val.kind = .explicit := by
        cases hk : t.val.kind with
        | explicit => rfl
        | allPublished => exact absurd hk hkind
      -- The member is a row of the tool table, so it has a snapshot.
      obtain ⟨row, hrow, hid, htenant, -⟩ := tool_of_published hpublished
      refine List.mem_map.2 ⟨CatalogTables.memberSnapshot row (c.publishedVersion row), ?_, hid⟩
      apply CatalogTables.mem_listMemberSnapshots.2
      refine ⟨row, hrow, ?_, htenant, rfl⟩
      rw [hid]
      exact mem_memberIds.2 ⟨t, ht, hexplicit, hholds.resolve_left hkind⟩

/-- The tools are in the order of their names, and no two share one. -/
theorem tools_sorted (h : onSnapshot repository c context scope = .ok access) :
    access.tools.Pairwise fun x y => x.val.canonicalName < y.val.canonicalName := by
  obtain ⟨toolsets, -, h⟩ := bind_eq_ok.1 h
  cases h
  apply CatalogTables.pairwise_lt_of_names
  apply List.Pairwise.filter
  exact (c.listPublishedByTenant_pairwise context.tenantId).imp fun hxy => hxy.2

/-- The root endpoint serves what the endpoints of its toolsets serve together. -/
theorem mem_root_tools (h : onSnapshot repository c context .root = .ok access)
    {tool : PublishedTool} : tool ∈ access.tools ↔
      ∃ t ∈ repository.listGrantedActive context.tenantId context.principalId,
        ∃ nonempty own, onSnapshot repository c context (.toolset t.val.slug nonempty) =
          .ok own ∧ tool ∈ own.tools := by
  rw [mem_tools h]
  constructor
  · rintro ⟨hpublished, hvisible, t, ht, hreached, hholds⟩
    have hscoped : t.ReachedBy context (.toolset t.val.slug t.slug_nonempty) :=
      ⟨hreached.tenant, rfl, hreached.active, hreached.granted⟩
    refine ⟨t, InMemoryToolsetRepository.mem_listGrantedActive.2 ⟨ht, hreached⟩,
      t.slug_nonempty, ?_⟩
    have hscope := scopeToolsets_of_reached ht hscoped
    refine ⟨_, bind_eq_ok.2 ⟨_, hscope, rfl⟩, ?_⟩
    exact (mem_tools (bind_eq_ok.2 ⟨_, hscope, rfl⟩)).2
      ⟨hpublished, hvisible, t, ht, hscoped, hholds⟩
  · rintro ⟨t, ht, nonempty, own, hok, htool⟩
    obtain ⟨-, hroot⟩ := InMemoryToolsetRepository.mem_listGrantedActive.1 ht
    obtain ⟨hpublished, hvisible, u, hu, hreached, hholds⟩ := (mem_tools hok).1 htool
    exact ⟨hpublished, hvisible, u, hu,
      ⟨hreached.tenant, trivial, hreached.active, hreached.granted⟩, hholds⟩

/-- A name is reported as unavailable only for a member that is not published. -/
theorem mem_unavailableToolNames (h : onSnapshot repository c context scope = .ok access)
    {name : String} (hname : name ∈ access.unavailableToolNames) :
    ∃ t ∈ repository.toolsets, t.ReachedBy context scope ∧ ∃ tool ∈ c.tools,
      tool.val.tenantId = context.tenantId ∧ tool.val.canonicalName = name ∧
      tool.val.id ∈ t.val.toolIds ∧
      ∀ published ∈ c.listPublishedByTenant context.tenantId,
        published.val.canonicalName ≠ name := by
  obtain ⟨toolsets, hscope, h⟩ := bind_eq_ok.1 h
  cases h
  obtain ⟨snapshot, hsnapshot, hsname⟩ := List.mem_filterMap.1 hname
  obtain ⟨hsnapshot, hunavailable⟩ := List.mem_filter.1 hsnapshot
  obtain ⟨tool, htool, hid, htenant, rfl⟩ := CatalogTables.mem_listMemberSnapshots.1 hsnapshot
  obtain ⟨t, ht, -, hmember⟩ := mem_memberIds.1 hid
  obtain ⟨hmem, hreached⟩ := (mem_scopeToolsets hscope).1 ht
  have htname : tool.val.canonicalName = name := Option.some.inj hsname
  refine ⟨t, hmem, hreached, tool, htool, htenant, htname, hmember, ?_⟩
  intro published hpublished hpname
  -- A published tool of this name is the member itself, whose snapshot is then available.
  obtain ⟨row, hrow, hrid, hrtenant, hrname, hactive, version, hversion, hvt, hvtenant, hvs⟩ :=
    tool_of_published hpublished
  obtain rfl : row = tool := c.tool_eq_of_name hrow htool (hrtenant.trans htenant.symm)
    (hrname.trans (hpname.trans htname.symm))
  have hsome : c.publishedVersion row ≠ none := fun hnone =>
    CatalogTables.publishedVersion_eq_none hnone version hversion hvt
      (hvtenant.trans hrtenant.symm) hvs
  have hin : row.val.id ∈ (c.listPublishedByTenant context.tenantId).map (·.val.toolId) :=
    List.mem_map.2 ⟨published, hpublished, hrid.symm⟩
  simp only [isUnavailable, CatalogTables.memberSnapshot, CatalogTables.snapshotFields, hactive,
    reduceCtorEq, if_false, Option.isNone_iff_eq_none, hsome, ne_eq, not_true_eq_false, false_or,
    decide_eq_true_eq] at hunavailable
  exact hunavailable hin

/-! ## Calling and searching -/

omit [Sha256] in
theorem requireBusinessTool_eq_ok {name : String} :
    access.requireBusinessTool name = .ok () ↔
      ∃ tool ∈ access.tools, tool.val.canonicalName = name := by
  unfold ResolvedToolsetAccess.requireBusinessTool
  split_ifs with h <;> simp [h]

omit [Sha256] in
theorem mem_unavailable_of_refused {name message : String}
    (h : access.requireBusinessTool name = .error (.nexus .toolsetMemberUnavailable message)) :
    name ∈ access.unavailableToolNames := by
  unfold ResolvedToolsetAccess.requireBusinessTool at h
  split_ifs at h with _ hname
  · exact hname
  · cases h

/-- A published tool with the identifier of an available one is that one. -/
theorem mem_tools_of_id (h : onSnapshot repository c context scope = .ok access)
    {tool : PublishedTool} (htool : tool ∈ c.listPublishedByTenant context.tenantId)
    (hid : tool.val.toolId ∈ access.availableToolIds) : tool ∈ access.tools := by
  rw [ResolvedToolsetAccess.availableToolIds, mem_sortedSet] at hid
  obtain ⟨other, hother, hid⟩ := List.mem_map.1 hid
  have hpublished := ((mem_tools h).1 hother).1
  have hnodup : ((c.listPublishedByTenant context.tenantId).map (·.val.toolId)).Nodup :=
    List.pairwise_map.2 ((c.listPublishedByTenant_pairwise context.tenantId).imp fun hxy => hxy.1)
  rw [← List.inj_on_of_nodup_map hnodup hpublished htool hid]
  exact hother

/-- The hits that a search result keeps are tools of the endpoint. -/
theorem filterSearchResult_subset (h : onSnapshot repository c context scope = .ok access)
    {result : SearchToolsResult}
    (hresult : ∀ hit ∈ result.hits, hit.tool ∈ c.listPublishedByTenant context.tenantId)
    {hit : PublishedToolSearchHit} (hhit : hit ∈ (filterSearchResult result access).hits) :
    hit.tool ∈ access.tools := by
  obtain ⟨hhit, hid⟩ := List.mem_filter.1 hhit
  exact mem_tools_of_id h (hresult hit hhit) (of_decide_eq_true hid)

/-- The hits of a search for the eligible tools of an endpoint are tools of the endpoint. -/
theorem search_subset [TextIndex] (h : onSnapshot repository c context scope = .ok access)
    {query : SearchPublishedToolsQuery} {hits : List PublishedToolSearchHit}
    (hcontext : query.context = context)
    (heligible : query.eligibleToolIds = some access.availableToolIds)
    (hsearch : SearchPublishedTools.execute c query = .ok hits) {hit : PublishedToolSearchHit}
    (hhit : hit ∈ hits) : hit.tool ∈ access.tools := by
  obtain ⟨hpublished, -, hids⟩ := SearchPublishedTools.mem_execute hsearch hhit
  rw [hcontext] at hpublished
  exact mem_tools_of_id h hpublished (hids _ heligible)

end ResolveToolsetAccess

/-! ## The scope of an endpoint -/

open ResolveToolsetAccess in
/-- Listing serves exactly the visible published tools that a toolset in reach holds, in the
    order of their different names. The root serves what its toolsets serve together. A call
    passes exactly for the name of such a tool, a name is reported as an unavailable member
    only where it is one and is not published, and searching finds none but these tools. -/
theorem toolset_scope_exact [TextIndex] (repository : InMemoryToolsetRepository)
    (c : CatalogTables) (context : ActorContext) (scope : McpEndpointScope)
    (access : ResolvedToolsetAccess) (h : onSnapshot repository c context scope = .ok access) :
    (∀ tool, tool ∈ access.tools ↔
      tool ∈ c.listPublishedByTenant context.tenantId ∧
        tool.isVisibleTo context.principalId = true ∧
        ∃ t ∈ repository.toolsets, t.ReachedBy context scope ∧ t.Holds tool.val.toolId) ∧
    access.tools.Pairwise (fun x y => x.val.canonicalName < y.val.canonicalName) ∧
    (scope = .root → ∀ tool, tool ∈ access.tools ↔
      ∃ t ∈ repository.listGrantedActive context.tenantId context.principalId,
        ∃ nonempty own, onSnapshot repository c context (.toolset t.val.slug nonempty) =
          .ok own ∧ tool ∈ own.tools) ∧
    (∀ name, access.requireBusinessTool name = .ok () ↔
      ∃ tool ∈ access.tools, tool.val.canonicalName = name) ∧
    (∀ name message,
      access.requireBusinessTool name = .error (.nexus .toolsetMemberUnavailable message) →
      ∃ t ∈ repository.toolsets, t.ReachedBy context scope ∧ ∃ tool ∈ c.tools,
        tool.val.tenantId = context.tenantId ∧ tool.val.canonicalName = name ∧
        tool.val.id ∈ t.val.toolIds ∧
        ∀ published ∈ c.listPublishedByTenant context.tenantId,
          published.val.canonicalName ≠ name) ∧
    (∀ query hits, query.context = context →
      query.eligibleToolIds = some access.availableToolIds →
      SearchPublishedTools.execute c query = .ok hits →
      ∀ hit ∈ hits, hit.tool ∈ access.tools) ∧
    ∀ result : SearchToolsResult,
      (∀ hit ∈ result.hits, hit.tool ∈ c.listPublishedByTenant context.tenantId) →
      ∀ hit ∈ (filterSearchResult result access).hits, hit.tool ∈ access.tools := by
  refine ⟨fun tool => mem_tools h, tools_sorted h, ?_, fun name => requireBusinessTool_eq_ok, ?_,
    ?_, ?_⟩
  · rintro rfl tool
    exact mem_root_tools h
  · intro name message hrefused
    exact mem_unavailableToolNames h (mem_unavailable_of_refused hrefused)
  · intro query hits hcontext heligible hsearch hit hhit
    exact search_subset h hcontext heligible hsearch hhit
  · intro result hresult hit hhit
    exact filterSearchResult_subset h hresult hhit

end Runtime

/-! ### One published tool -/

section OneTool

attribute [local instance] zeroSha256

def searchTool : Tool :=
  ⟨{ id := "tool-1"
     tenantId := "tenant-1"
     namespaceName := "crm"
     canonicalName := "crm.search"
     owner := "team" }, by decide +kernel⟩

def searchVersion : ToolVersion :=
  ⟨{ id := "version-1"
     tenantId := "tenant-1"
     toolId := "tool-1"
     version := 1
     displayName := "Search"
     description := "Search"
     inputSchema := [("type", .str "object")]
     outputSchema := none
     schemaDigest := "d"
     tags := []
     sideEffect := .readOnly
     visibility := .public_
     status := .published
     createdBy := "admin-1"
     createdAt := 1
     reviewedAt := some 2
     publishedAt := some 3 }, by decide +kernel⟩

def searchBinding : ToolBinding :=
  ⟨{ id := "binding-1"
     tenantId := "tenant-1"
     toolVersionId := "version-1"
     upstreamServiceId := "upstream-1"
     importedOperationId := none
     bindingType := .http
     bindingConfig := []
     bindingDigest := "d"
     status := .published
     createdAt := 1
     publishedAt := some 3 }, by decide +kernel⟩

def oneToolCatalog : CatalogTables where
  tools := ⟨[searchTool], List.nodup_singleton _⟩
  versions := ⟨[searchVersion], List.nodup_singleton _⟩
  bindings := ⟨[searchBinding], List.nodup_singleton _⟩
  upstreams := .empty
  operations := .empty
  jobs := .empty
  unique := by decide +kernel

/-- The system toolset, granted to one agent. -/
def systemToolset : Toolset :=
  ⟨{ id := "toolset-1"
     tenantId := "tenant-1"
     slug := allPublishedSlug
     name := "All Published Tools"
     description := none
     kind := .allPublished
     discoveryMode := .searchFirst
     status := .active
     revision := 1
     membershipDigest := Sha256.hexdigest ""
     createdBy := "system"
     createdAt := 5
     updatedAt := 5
     grants := [⟨{ tenantId := "tenant-1"
                   toolsetId := "toolset-1"
                   principalId := "agent-1"
                   grantedBy := "system"
                   grantedAt := 5 }, by decide +kernel⟩] }, by decide +kernel⟩

def systemRepository : InMemoryToolsetRepository where
  toolsets := [systemToolset]
  ids := by decide +kernel
  slugs := by decide +kernel
  system := by decide +kernel

def agentContext : ActorContext := ⟨"r", "t", "tenant-1", "agent-1", "token", "agent_service"⟩

theorem toolset_scope_exact_system :
    ∃ access, ResolveToolsetAccess.onSnapshot systemRepository oneToolCatalog agentContext .root =
        .ok access ∧
      publishedToolFromModels searchTool searchVersion ∈ access.tools := by
  let _ : TextIndex := ⟨fun _ _ _ => none⟩
  refine ⟨_, rfl, ?_⟩
  have hexact := toolset_scope_exact systemRepository oneToolCatalog agentContext .root _ rfl
  refine (hexact.1 _).2 ⟨?_, rfl, systemToolset, List.mem_singleton.2 rfl, ?_, .inl rfl⟩
  · apply CatalogTables.mem_listPublishedByTenant.2
    refine ⟨searchTool, searchVersion, ?_, rfl⟩
    apply CatalogTables.mem_publishedRows.2
    exact ⟨List.mem_singleton.2 rfl, List.mem_singleton.2 rfl, searchBinding,
      List.mem_singleton.2 rfl, by decide +kernel⟩
  · exact ⟨rfl, trivial, rfl, List.mem_singleton.2 rfl⟩

end OneTool

end NexusMcp
