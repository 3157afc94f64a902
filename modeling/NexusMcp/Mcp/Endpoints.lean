-- SUMMARY: What an endpoint lists, finds and lets a client call is one set of tools.
import NexusMcp.Catalog.Discovery
import NexusMcp.Mcp.Attribution

/-!
# Endpoints over One Snapshot

The resolver of a server reads the toolsets and the catalogue. A server that reads them in one
snapshot lists, finds and calls by the same access, and what reaches the ledger through any
number of such servers is a call of a tool that its principal reaches.
-/

namespace NexusMcp

open Txn ResolveToolsetAccess

section Endpoints

variable [Sha256]

/-! ## Reach -/

/-- The stores that an endpoint reads for a request. -/
structure EndpointStores where
  repository : InMemoryToolsetRepository
  catalog : CatalogTables

/-- The principal reaches the tool under its name, as one that the toolset holds. -/
structure EndpointStores.Reaches (stores : EndpointStores) (context : ActorContext)
    (scope : McpEndpointScope) (name : String) (tool : PublishedTool) (toolset : Toolset) :
    Prop where
  published : tool ∈ stores.catalog.listPublishedByTenant context.tenantId
  name : tool.val.canonicalName = name
  visible : tool.isVisibleTo context.principalId = true
  stored : toolset ∈ stores.repository.toolsets
  reached : toolset.ReachedBy context scope
  holds : toolset.Holds tool.val.toolId

/-- The server resolves the access of a request on the stores. -/
def McpServer.Reads (server : McpServer) (stores : EndpointStores) : Prop :=
  server.resolveToolsetAccess = some fun context scope =>
    onSnapshot stores.repository stores.catalog context.toActorContext scope

variable {server : McpServer} {stores : EndpointStores} {context : RequestContext}
  {scope : McpEndpointScope} {access : ResolvedToolsetAccess} {name : String}

theorem McpServer.Reads.resolved (h : server.Reads stores) {own : Option ResolvedToolsetAccess}
    (haccess : server.accessFor context scope = .ok own) : ∃ access, own = some access ∧
      onSnapshot stores.repository stores.catalog context.toActorContext scope = .ok access := by
  unfold McpServer.accessFor at haccess
  rw [show server.resolveToolsetAccess = _ from h] at haccess
  obtain ⟨access, hresolved, rfl⟩ := map_eq_ok.1 haccess
  exact ⟨access, rfl, hresolved⟩

/-- A call is in scope exactly if its principal reaches a tool of its name. -/
theorem requireInScope_iff
    (h : onSnapshot stores.repository stores.catalog context.toActorContext scope = .ok access) :
    McpServer.requireInScope (some access) name = .ok () ↔
      ∃ tool toolset, stores.Reaches context.toActorContext scope name tool toolset := by
  refine requireBusinessTool_eq_ok.trans ?_
  constructor
  · rintro ⟨tool, htool, hname⟩
    obtain ⟨hpublished, hvisible, toolset, ht, hreached, hholds⟩ := (mem_tools h).1 htool
    exact ⟨tool, toolset, hpublished, hname, hvisible, ht, hreached, hholds⟩
  · rintro ⟨tool, toolset, hreaches⟩
    exact ⟨tool, (mem_tools h).2 ⟨hreaches.published, hreaches.visible, toolset,
      hreaches.stored, hreaches.reached, hreaches.holds⟩, hreaches.name⟩

omit [Sha256] in
/-- The name of the meta tool lies in a namespace that no tool has. -/
theorem canonicalName_ne_nexusSearchToolsName (tool : Tool) :
    tool.val.canonicalName ≠ nexusSearchToolsName := by
  intro heq
  have hvalid := tool.property
  simp only [Valid, PostInit.checks, List.forall_mem_cons, Bool.not_eq_false',
    List.isPrefixOf_iff_prefix, heq, String.toList_append] at hvalid
  obtain ⟨-, -, -, -, -, ⟨rest, hname⟩, hreserved, -⟩ := hvalid
  -- the only dot of the name stands behind the reserved namespace
  have hdot : nexusSearchToolsName.toList[tool.val.namespaceName.toList.length]? = some '.' := by
    rw [← hname]
    simp
  have hlength : tool.val.namespaceName.toList.length = 5 := by
    have hdots : ∀ n < 18, nexusSearchToolsName.toList[n]? = some '.' → n = 5 := by decide
    refine hdots _ ?_ hdot
    by_contra hlong
    rw [List.getElem?_eq_none (Nat.le_of_not_lt hlong)] at hdot
    cases hdot
  have hnamespace : tool.val.namespaceName.toList = "nexus".toList := by
    have htake := congrArg (List.take 5) hname
    rw [List.append_assoc, List.take_left' hlength] at htake
    exact htake
  rw [isReservedToolNamespace, String.toList_inj.1 hnamespace] at hreserved
  cases hreserved

omit [Sha256] in
theorem name_ne_of_published {catalog : CatalogTables} {tenantId : Id} {tool : PublishedTool}
    (h : tool ∈ catalog.listPublishedByTenant tenantId) :
    tool.val.canonicalName ≠ nexusSearchToolsName := by
  obtain ⟨row, -, -, -, hname, -⟩ := tool_of_published h
  rw [← hname]
  exact canonicalName_ne_nexusSearchToolsName row

/-! ## The label of an endpoint -/

/-- The toolset that an execution is recorded with: the root serves none in particular. -/
def McpEndpointScope.label : McpEndpointScope → Toolset → Option Toolset
  | root, _ => none
  | toolset _ _, t => some t

/-- The access is labelled with its scope and the one toolset that is reached through it. -/
structure ResolvedToolsetAccess.Labelled (access : ResolvedToolsetAccess)
    (scope : McpEndpointScope) (toolset : Toolset) : Prop where
  served : access.endpointScope = scope
  toolsetId : access.toolsetId = (scope.label toolset).map (·.val.id)
  toolsetRevision : access.toolsetRevision = (scope.label toolset).map (·.val.revision)

theorem labelled_of_reached {own : ActorContext} {toolset : Toolset}
    (h : onSnapshot stores.repository stores.catalog own scope = .ok access)
    (hstored : toolset ∈ stores.repository.toolsets) (hreached : toolset.ReachedBy own scope) :
    access.Labelled scope toolset := by
  obtain ⟨toolsets, hscope, h⟩ := bind_eq_ok.1 h
  cases h
  cases scope with
  | root => exact ⟨rfl, rfl, rfl⟩
  | toolset slug nonempty =>
    rw [scopeToolsets_of_reached hstored hreached] at hscope
    cases hscope
    exact ⟨rfl, rfl, rfl⟩

/-! ## Calls in scope -/

/-- An admitted call of a tool that its principal reaches through the endpoint. -/
structure ScopedCall (request : GatewayRequest) (stores : EndpointStores) where
  admitted : AdmittedCall
  params : CallToolRequestParams
  admits : request.Admits admitted params
  tool : PublishedTool
  toolset : Toolset
  reaches : stores.Reaches admitted.context.toActorContext admitted.scope params.name tool toolset

/-- The execution says through which endpoint it was called. -/
structure ScopedCall.Labels {request : GatewayRequest} (call : ScopedCall request stores)
    (e : ToolExecutionFields) : Prop where
  scopeType : e.mcpScopeType = call.admitted.scope.type
  toolsetId : e.toolsetId = (call.admitted.scope.label call.toolset).map (·.val.id)
  toolsetRevision :
    e.toolsetRevision = (call.admitted.scope.label call.toolset).map (·.val.revision)

/-- The execution is of the version of the tool that is published, behind an active upstream. -/
structure ScopedCall.Executes {request : GatewayRequest} (call : ScopedCall request stores)
    (e : ToolExecutionFields) : Prop where
  toolId : e.toolId = call.tool.val.toolId
  toolVersionId : e.toolVersionId = call.tool.val.toolVersionId
  sideEffect : e.sideEffect = call.tool.val.sideEffect
  upstream : stores.catalog.UpstreamActive call.admitted.context.tenantId call.tool

/-- The names of tools are resolved on the stores. -/
def EndpointStores.Resolves (stores : EndpointStores) (given : Answers Gateway) : Prop :=
  ∀ tenantId name a, given (.resolveTool tenantId name) a → a = stores.catalog.resolve tenantId name

/-- The server of a call reads the stores. -/
def GatewayRequest.Reads : GatewayRequest → EndpointStores → Prop
  | call server _ _ _, stores => server.Reads stores
  | decide _, _ => True

theorem GatewayRequest.Reads.scoped {request : GatewayRequest} (h : request.Reads stores)
    {admitted : AdmittedCall} {params : CallToolRequestParams}
    (hadmits : request.Admits admitted params) :
    ∃ call : ScopedCall request stores, call.admitted = admitted ∧ call.params = params ∧
      ∃ access, admitted.access = some access ∧ access.Labelled admitted.scope call.toolset := by
  cases request with
  | decide command => exact hadmits.elim
  | call server wired ctx own =>
    have hinScope := hadmits.2.inScope
    obtain ⟨access, haccess, hresolved⟩ := McpServer.Reads.resolved h hadmits.2.access
    rw [haccess, requireInScope_iff hresolved, ← hadmits.1] at hinScope
    obtain ⟨tool, toolset, hreaches⟩ := hinScope
    exact ⟨⟨admitted, params, hadmits, tool, toolset, hreaches⟩, rfl, rfl, access, haccess,
      labelled_of_reached hresolved hreaches.stored hreaches.reached⟩

omit [Sha256] in
/-- In one snapshot, a name resolves to the published tool that has it, if its upstream is
    active. -/
theorem published_of_resolve {c : CatalogTables} {tenantId : Id} {published : PublishedTool}
    {row : ResolvedExecutableTool} (h : c.resolve tenantId published.val.canonicalName =
      .ok (some row)) (hpublished : published ∈ c.listPublishedByTenant tenantId) :
    row.toolId = published.val.toolId ∧ row.toolVersionId = published.val.toolVersionId ∧
      row.sideEffect = published.val.sideEffect ∧ c.UpstreamActive tenantId published := by
  obtain ⟨tool, htool, version, hversion, binding, hbinding, upstream, hupstream, hjoin, rfl⟩ :=
    CatalogTables.mem_executableRows.1 (CatalogTables.resolve_eq_some.1 h)
  obtain ⟨tool', version', hrow, rfl⟩ := CatalogTables.mem_listPublishedByTenant.1 hpublished
  obtain ⟨htool', hversion', binding', -, hjoin'⟩ := CatalogTables.mem_publishedRows.1 hrow
  obtain ⟨⟨hpaired, hbound, htenant, -, -, -, hstatus, -⟩, hname, hid, hutenant, hactive⟩ := hjoin
  obtain ⟨hpaired', -, htenant', -, -, -, hstatus', -⟩ := hjoin'
  obtain rfl : tool = tool' :=
    c.tool_eq_of_name htool htool' (htenant.trans htenant'.symm) hname
  obtain rfl : version = version' :=
    c.version_eq_of_published hversion hversion' hstatus hstatus' (hpaired.trans hpaired'.symm)
  exact ⟨rfl, rfl, rfl, binding, hbinding, hbound, upstream, hupstream, hid, hutenant, hactive⟩

theorem GatewayRequest.Reads.labels {request : GatewayRequest} (h : request.Reads stores)
    {given : Answers Gateway} {e : ToolExecutionFields} (hplans : request.Plans given e) :
    ∃ call : ScopedCall request stores, call.admitted.Plans call.params e ∧ call.Labels e ∧
      (stores.Resolves given → call.Executes e) := by
  obtain ⟨admitted, params, hadmits, hplans, cleared, hmediated, hrecorded⟩ := hplans
  obtain ⟨call, rfl, rfl, access, haccess, hlabelled⟩ := h.scoped hadmits
  refine ⟨call, hplans, ⟨?_, ?_, ?_⟩, fun hresolves => ?_⟩
  · rw [hplans.scopeType, haccess, ← hlabelled.served]
    rfl
  · rw [hplans.toolsetId, haccess, ← hlabelled.toolsetId]
    rfl
  · rw [hplans.toolsetRevision, haccess, ← hlabelled.toolsetRevision]
    rfl
  · have hresolved := hresolves _ _ _ hmediated.evaluated.found
    rw [← call.reaches.name] at hresolved
    obtain ⟨hid, hversion, hsideEffect, hactive⟩ :=
      published_of_resolve hresolved.symm call.reaches.published
    exact ⟨hrecorded.toolId.trans hid, hrecorded.toolVersionId.trans hversion,
      hrecorded.sideEffect.trans hsideEffect, hactive⟩

section Runs

variable {Pid : Type} {requests : Pid → GatewayRequest}
  {w : World Gateway Pid (fun p => (requests p).Result)}

/-- In every interleaving, each execution and each approval is of a call of a published tool
    that its principal sees, through an endpoint where an active toolset that is granted to
    the principal holds it, and no other call is handed to the upstream. The execution carries
    the label of that endpoint. Where the name was resolved on the same stores, it is of the
    published version of that very tool. -/
theorem ledger_in_scope (h : Served requests w) {stores : Pid → EndpointStores}
    (hreads : ∀ p, (requests p).Reads (stores p)) :
    (∀ e ∈ w.store.executions, ∃ p, ∃ call : ScopedCall (requests p) (stores p),
      call.admitted.Plans call.params e.val ∧ call.Labels e.val ∧
        ((stores p).Resolves (w.Given p) → call.Executes e.val)) ∧
    (∀ a ∈ w.store.approvals, ∃ p, ∃ call : ScopedCall (requests p) (stores p),
      call.admitted.Requests call.params a.val) ∧
    ∀ p request credential a, (p, .asked (.executeTool request credential) a) ∈ w.log →
      ∃ call : ScopedCall (requests p) (stores p),
        request.val.arguments = call.params.givenArguments ∧
        request.val.idempotencyKey = call.admitted.key := by
  have hattributed := h.attributed
  refine ⟨fun e he => ?_, fun a ha => ?_, fun p request credential a hlog => ?_⟩
  · exact (hattributed.executions e he).imp fun p hplans => (hreads p).labels hplans
  · obtain ⟨p, admitted, params, hadmits, hrequests⟩ := hattributed.approvals a ha
    obtain ⟨call, rfl, rfl, -⟩ := (hreads p).scoped hadmits
    exact ⟨p, call, hrequests.requests⟩
  · have hasks : (requests p).Asks (.executeTool request credential) := h.asks hlog
    rcases hasks with hq | hq | ⟨seconds, hq⟩ | ⟨admitted, params, hadmits, harguments, hkey⟩
    · cases hq
    · cases hq
    · cases hq
    · obtain ⟨call, rfl, rfl, -⟩ := (hreads p).scoped hadmits
      exact ⟨call, harguments, hkey⟩

end Runs

/-! ## Searching at an endpoint -/

section Search

omit [Sha256] in
/-- Whatever branch found it, a hit is a published tool of the tenant. -/
theorem Accepted.published {c : CatalogTables} {query : SearchPublishedToolsQuery}
    {hits : List PublishedToolSearchHit} {calls : SearchCalls} {call : SearchPublishedCall}
    (h : Accepted c query hits calls call) {hit : PublishedToolSearchHit} (hhit : hit ∈ hits) :
    hit.tool ∈ c.listPublishedByTenant query.context.tenantId := by
  have htenant : call.tenantId = query.context.tenantId := by
    have hrequest := h.request
    rw [SearchPublishedTools.request_eq] at hrequest
    obtain ⟨queryText, -, rfl⟩ := map_eq_ok.1 hrequest
    rfl
  obtain ⟨row, hrow, htool⟩ := h.hits hit hhit
  refine CatalogTables.mem_listPublishedByTenant.2 ⟨row.1, row.2, ?_, htool⟩
  rcases hrow with hrow | ⟨vectorCall, hvectorCall, hrow⟩
  · rw [mem_lexicalScope h.lexical, CatalogTables.mem_scopeRows, htenant] at hrow
    exact hrow.1
  · obtain ⟨-, -, hnone⟩ | ⟨-, -, queryVector, hvector⟩ := h.vector
    · rw [hnone] at hvectorCall
      cases hvectorCall
    · rw [hvector, List.mem_singleton] at hvectorCall
      rw [hvectorCall] at hrow
      exact (CatalogTables.mem_scopeRows.1 hrow).1

variable [TextIndex] [CosineDistance]

/-- The application's search on the catalogue of the stores, whatever its index, its policy and
    its hybrid search. -/
structure ApplicationSearch (stores : EndpointStores) where
  index : ToolSearchIndex
  principalResolver : ActorContext → Except Exc InternalPrincipal
  policyEvaluator : PolicyEvaluationInput → Except Exc PolicyDecision
  hybridSearch : Option SearchHybridTools
  tools : SearchTools
  created : createSearchTools stores.catalog index principalResolver policyEvaluator hybridSearch =
    .ok tools

namespace ApplicationSearch

variable (search : ApplicationSearch stores)

theorem published_of_retrieve {mode : ToolRetrievalMode} {query : SearchPublishedToolsQuery}
    {raw : RawSearch} (h : search.tools.retrieve mode query = .ok raw)
    {hit : PublishedToolSearchHit} (hhit : hit ∈ raw.hits) :
    hit.tool ∈ stores.catalog.listPublishedByTenant query.context.tenantId := by
  have hval := val_of_construct search.created
  cases mode with
  | lexical =>
    simp only [SearchTools.retrieve, hval] at h
    obtain ⟨hits, hhits, rfl⟩ := map_eq_ok.1 h
    exact (SearchPublishedTools.mem_execute hhits hhit).1
  | hybrid =>
    simp only [SearchTools.retrieve, hval] at h
    cases hhybrid : search.hybridSearch with
    | none =>
      rw [hhybrid] at h
      cases h
    | some hybrid =>
      rw [hhybrid] at h
      obtain ⟨detailed, hdetailed, rfl⟩ := map_eq_ok.1 h
      have haccepted : ∃ call, Accepted stores.catalog query detailed.hits
          (hybrid.gatherDetailed stores.catalog search.index query {}).2 call :=
        SearchHybridTools.accepted (Prod.ext hdetailed rfl)
      exact haccepted.elim fun _ h => h.published hhit

theorem published_of_execute {query : SearchToolsQuery} {result : SearchToolsResult}
    (h : search.tools.execute query = .ok result) {hit : PublishedToolSearchHit}
    (hhit : hit ∈ result.hits) :
    hit.tool ∈ stores.catalog.listPublishedByTenant query.context.tenantId := by
  obtain ⟨⟨hlimit, -⟩, raw, hretrieve, h⟩ := SearchTools.execute_eq_ok.1 h
  obtain ⟨principal, -, h⟩ := bind_eq_ok.1 h
  obtain ⟨argumentsDigest, -, h⟩ := bind_eq_ok.1 h
  obtain ⟨visible, hvisible, h⟩ := bind_eq_ok.1 h
  obtain ⟨diagnostics, -, h⟩ := bind_eq_ok.1 h
  cases h
  have hpositive : 0 < query.limit.toNat := by omega
  have hfirst := Select.firstAllowed_eq_ok hvisible hpositive
  rw [List.nil_append] at hfirst
  rw [hfirst] at hhit
  exact search.published_of_retrieve hretrieve
    (List.mem_of_mem_filter (List.mem_of_mem_take hhit))

end ApplicationSearch

/-- What the server searches is the catalogue of the stores. -/
def McpServer.Searches (server : McpServer) (stores : EndpointStores) : Prop :=
  ∀ execute ∈ server.searchTools, ∃ search : ApplicationSearch stores,
    execute = search.tools.execute

/-- A search at an endpoint finds tools of the endpoint only. -/
theorem hits_of_trySearch {params : CallToolRequestParams} {result : SearchToolsResult}
    (h : onSnapshot stores.repository stores.catalog context.toActorContext scope = .ok access)
    (search : ApplicationSearch stores)
    (hresult : (server.trySearch search.tools.execute context (some access) params).2 =
      .ok result) {hit : PublishedToolSearchHit} (hhit : hit ∈ result.hits) :
    hit.tool ∈ access.tools := by
  unfold McpServer.trySearch at hresult
  split at hresult
  · cases hresult
  next query hquery =>
  obtain ⟨-, hquery⟩ := raiseIf_bind_eq_ok.1 hquery
  obtain ⟨parsed, hparsed, hquery⟩ := bind_eq_ok.1 hquery
  cases hquery
  obtain ⟨found, hfound, rfl⟩ := map_eq_ok.1 hresult
  refine filterSearchResult_subset h (fun hit hhit => ?_) hhit
  have hpublished := search.published_of_execute hfound hhit
  have hcontext : parsed.context = context.toActorContext := by
    obtain ⟨-, hparsed⟩ := raiseIf_bind_eq_ok.1 hparsed
    obtain ⟨text, -, hparsed⟩ := bind_eq_ok.1 hparsed
    obtain ⟨mode, -, hparsed⟩ := bind_eq_ok.1 hparsed
    obtain ⟨limit, -, hparsed⟩ := bind_eq_ok.1 hparsed
    obtain ⟨namespaceName, -, hparsed⟩ := bind_eq_ok.1 hparsed
    obtain ⟨sideEffect, -, hparsed⟩ := bind_eq_ok.1 hparsed
    cases hparsed
    rfl
  rw [hcontext] at hpublished
  exact hpublished

end Search

/-! ## Listing at an endpoint -/

omit [Sha256] in
/-- A search is refused for the endpoint exactly if the meta tool is not visible there. -/
theorem searchQuery_denied_iff {own : Option ResolvedToolsetAccess}
    {params : CallToolRequestParams} : (∃ message, server.searchQuery context own params =
      .error (.nexus .toolsetAccessDenied message)) ↔ server.isMetaSearchVisible own = false := by
  unfold McpServer.searchQuery
  cases hvisible : server.isMetaSearchVisible own with
  | false =>
    refine iff_of_true ⟨_, raiseIf_bind_eq_error.2 (.inl ⟨?_, rfl⟩)⟩ rfl
    rfl
  | true =>
    refine iff_of_false ?_ Bool.noConfusion
    rintro ⟨message, h⟩
    rcases raiseIf_bind_eq_error.1 h with ⟨hnot, -⟩ | ⟨-, h⟩
    · cases hnot
    · obtain ⟨_, heq⟩ := (onlyInvalid_parseSearchToolsQuery _ _).bind
        (fun _ => SearchToolsQuery.onlyInvalid_ok _) _ h
      cases heq

omit [Sha256] in
theorem searchQuery_allowed_iff {own : Option ResolvedToolsetAccess} :
    (∀ params message, server.searchQuery context own params ≠
      .error (.nexus .toolsetAccessDenied message)) ↔ server.isMetaSearchVisible own = true := by
  rw [← Bool.not_eq_false, ← not_iff_not]
  simp only [not_forall, not_not, ne_eq, searchQuery_denied_iff]
  -- Whether a search is denied depends on the endpoint alone, so any call tells it.
  have : Nonempty CallToolRequestParams := ⟨{ name := "" }⟩
  exact exists_const _

/-- What an endpoint lists, finds and lets a client call is one set of tools. -/
structure McpServer.Agrees (server : McpServer) (context : RequestContext)
    (access : ResolvedToolsetAccess) (tools : List ProtocolTool) : Prop where
  distinct : (tools.map (·.name)).Nodup
  callable : ∀ tool ∈ tools, tool.name ≠ nexusSearchToolsName →
    McpServer.requireInScope (some access) tool.name = .ok ()
  listed : server.isSearchFirst (some access) = false →
    ∀ name, McpServer.requireInScope (some access) name = .ok () → name ∈ tools.map (·.name)
  hidden : server.isSearchFirst (some access) = true → ∀ tool ∈ tools, tool = searchToolsDefinition
  /-- The meta tool is listed where a search is not refused for the endpoint. -/
  searchable : searchToolsDefinition ∈ tools ↔ server.searchTools.isSome ∧
    ∀ params message, server.searchQuery context (some access) params ≠
      .error (.nexus .toolsetAccessDenied message)
  found : ∀ execute ∈ server.searchTools, ∀ params result,
    (server.trySearch execute context (some access) params).2 = .ok result →
      ∀ hit ∈ result.hits,
        McpServer.requireInScope (some access) hit.tool.val.canonicalName = .ok ()
  reserved : McpServer.requireInScope (some access) nexusSearchToolsName ≠ .ok ()

omit [Sha256] in
theorem names_protocolTool (tools : List PublishedTool) :
    (tools.map (McpServer.protocolTool context)).map (·.name) =
      tools.map (·.val.canonicalName) := by
  rw [List.map_map]
  rfl

omit [Sha256] in
/-- The business tools that are listed are tools of the access. -/
theorem listedTools_eq {listed : List PublishedTool}
    (h : server.listedTools context (some access) = .ok listed) :
    listed = if server.isSearchFirst (some access) then [] else access.tools := by
  unfold McpServer.listedTools at h
  split_ifs at h ⊢ with hfirst <;> cases h <;> rfl

omit [Sha256] in
theorem mem_tools_of_listed {listed : List PublishedTool}
    (h : server.listedTools context (some access) = .ok listed) {tool : PublishedTool}
    (htool : tool ∈ listed) : tool ∈ access.tools := by
  rw [listedTools_eq h] at htool
  split_ifs at htool
  · cases htool
  · exact htool

theorem names_nodup_of_listed
    (h : onSnapshot stores.repository stores.catalog context.toActorContext scope = .ok access)
    {listed : List PublishedTool}
    (hlisted : server.listedTools context (some access) = .ok listed) :
    (listed.map (·.val.canonicalName)).Nodup := by
  rw [listedTools_eq hlisted]
  split_ifs
  · exact List.nodup_nil
  · exact List.pairwise_map.2 ((tools_sorted h).imp fun hlt => hlt.ne)

/-- The namespace of the meta tool is reserved, so no tool of an endpoint has its name. -/
theorem name_ne_of_mem_tools
    (h : onSnapshot stores.repository stores.catalog context.toActorContext scope = .ok access)
    {tool : PublishedTool} (htool : tool ∈ access.tools) :
    tool.val.canonicalName ≠ nexusSearchToolsName :=
  name_ne_of_published ((mem_tools h).1 htool).1

omit [Sha256] in
/-- The only meta tool is the one for searches. -/
theorem mem_metaTools {p : Prop} [Decidable p] {tool : ProtocolTool} :
    tool ∈ (if p then [searchToolsDefinition] else []) ↔ p ∧ tool = searchToolsDefinition := by
  split_ifs with hp
  · rw [List.mem_singleton, and_iff_right hp]
  · exact iff_of_false List.not_mem_nil fun h => hp h.1

theorem agrees_of_listed [TextIndex] [CosineDistance] (hsearches : server.Searches stores)
    (h : onSnapshot stores.repository stores.catalog context.toActorContext scope = .ok access)
    {listed : List PublishedTool}
    (hlisted : server.listedTools context (some access) = .ok listed)
    {metaTools : List ProtocolTool}
    (hmeta : metaTools = if server.searchTools.isSome ∧ server.isMetaSearchVisible (some access)
      then [searchToolsDefinition] else []) :
    server.Agrees context access (metaTools ++ listed.map (McpServer.protocolTool context)) := by
  have hin : ∀ tool ∈ access.tools,
      McpServer.requireInScope (some access) tool.val.canonicalName = .ok () :=
    fun tool htool => requireBusinessTool_eq_ok.2 ⟨tool, htool, rfl⟩
  have hmetaTool : ∀ tool ∈ metaTools, tool = searchToolsDefinition := fun tool htool =>
    (mem_metaTools.1 (hmeta ▸ htool)).2
  constructor
  case distinct =>
    rw [List.map_append, names_protocolTool]
    refine List.nodup_append.2 ⟨?_, names_nodup_of_listed h hlisted, ?_⟩
    · rw [hmeta]
      split_ifs
      · exact List.nodup_singleton _
      · exact List.nodup_nil
    · rintro _ hname _ hname' rfl
      obtain ⟨tool, htool, rfl⟩ := List.mem_map.1 hname
      obtain ⟨business, hmem, heq⟩ := List.mem_map.1 hname'
      rw [hmetaTool tool htool] at heq
      exact name_ne_of_mem_tools h (mem_tools_of_listed hlisted hmem) heq
  case callable =>
    intro tool htool hname
    rcases List.mem_append.1 htool with htool | htool
    · rw [hmetaTool tool htool] at hname
      exact absurd rfl hname
    · obtain ⟨business, hmem, rfl⟩ := List.mem_map.1 htool
      exact hin business (mem_tools_of_listed hlisted hmem)
  case listed =>
    intro hfirst name hname
    obtain ⟨tool, htool, rfl⟩ := requireBusinessTool_eq_ok.1 hname
    rw [listedTools_eq hlisted, hfirst, List.map_append, names_protocolTool]
    exact List.mem_append_right _ (List.mem_map_of_mem htool)
  case hidden =>
    intro hfirst tool htool
    rw [listedTools_eq hlisted, hfirst, if_pos rfl, List.map_nil, List.append_nil] at htool
    exact hmetaTool tool htool
  case searchable =>
    rw [searchQuery_allowed_iff, List.mem_append]
    constructor
    · rintro (htool | htool)
      · rw [hmeta] at htool
        exact (mem_metaTools.1 htool).1
      · obtain ⟨business, hmem, heq⟩ := List.mem_map.1 htool
        exact absurd (congrArg ProtocolTool.name heq)
          (name_ne_of_mem_tools h (mem_tools_of_listed hlisted hmem))
    · intro hsearch
      rw [hmeta]
      exact .inl (mem_metaTools.2 ⟨hsearch, rfl⟩)
  case found =>
    intro execute hexecute params result hresult hit hhit
    -- The search is confined to the tools of the endpoint.
    obtain ⟨search, rfl⟩ := hsearches execute hexecute
    exact hin hit.tool (hits_of_trySearch h search hresult hhit)
  case reserved =>
    intro hname
    obtain ⟨tool, htool, heq⟩ := requireBusinessTool_eq_ok.1 hname
    exact name_ne_of_mem_tools h htool heq

theorem agrees_of_tryListTools [TextIndex] [CosineDistance] (hreads : server.Reads stores)
    (hsearches : server.Searches stores) {ctx : RawServerContext} {tools : List ProtocolTool}
    (h : server.tryListTools ctx context = .ok tools) :
    ∃ scope access, resolveEndpointScope ctx = .ok scope ∧
      server.accessFor context scope = .ok (some access) ∧ server.Agrees context access tools := by
  obtain ⟨scope, hscope, h⟩ := bind_eq_ok.1 h
  obtain ⟨own, haccess, h⟩ := bind_eq_ok.1 h
  obtain ⟨listed, hlisted, h⟩ := bind_eq_ok.1 h
  cases h
  obtain ⟨access, rfl, hresolved⟩ := hreads.resolved haccess
  exact ⟨scope, access, hscope, haccess, agrees_of_listed hsearches hresolved hlisted rfl⟩

omit [Sha256] in
/-- Tools are answered only by a listing that succeeded, in the context of the request. -/
theorem tryListTools_of_onListTools {ctx : RawServerContext} {tools : List ProtocolTool}
    (h : (server.onListTools ctx).answer = .ok (.tools tools)) :
    ∃ own, server.contextResolver ctx = .ok own ∧
      server.tryListTools ctx (own.observed ctx) = .ok tools := by
  unfold McpServer.onListTools at h
  cases hown : server.contextResolver ctx with
  | error e =>
    rw [hown] at h
    cases h
  | ok own =>
    rw [hown] at h
    refine ⟨own, rfl, ?_⟩
    cases hlisted : server.tryListTools ctx (own.observed ctx) with
    | ok listed =>
      simp only [hlisted] at h
      cases h
      rfl
    | error e =>
      simp only [hlisted] at h
      cases e <;> cases h

/-- The tools that an endpoint lists are distinct, and apart from the meta tool they are the ones
    that it lets a client call, unless it lists none and lets the client search. Whatever a
    search finds, the endpoint lets the client call, and no tool hides behind the meta tool. -/
theorem listing_agrees [TextIndex] [CosineDistance] (hreads : server.Reads stores)
    (hsearches : server.Searches stores) {ctx : RawServerContext} {tools : List ProtocolTool}
    (h : (server.onListTools ctx).answer = .ok (.tools tools)) :
    ∃ own scope access, server.contextResolver ctx = .ok own ∧
      resolveEndpointScope ctx = .ok scope ∧
      server.accessFor (own.observed ctx) scope = .ok (some access) ∧
      server.Agrees (own.observed ctx) access tools := by
  obtain ⟨own, hown, hlisted⟩ := tryListTools_of_onListTools h
  obtain ⟨scope, access, hagrees⟩ := agrees_of_tryListTools hreads hsearches hlisted
  exact ⟨own, scope, access, hown, hagrees⟩

end Endpoints

/-! ## An agent at the root -/

section Agent

attribute [local instance] zeroSha256

/-- The toolset of every published tool is granted to the agent. -/
def agentStores : EndpointStores := ⟨systemRepository, oneToolCatalog⟩

def agentServer : McpServer where
  contextResolver ctx := .ok
    { agentContext with protocolVersion := ctx.protocolVersion, protocolEra := .modern }
  listVisibleTools _ := .ok []
  callTool := some { retryingCall with executor := askExecutor }
  resolveToolsetAccess := some fun context scope =>
    onSnapshot agentStores.repository agentStores.catalog context.toActorContext scope

theorem agentServer_wired : ∀ service ∈ agentServer.callTool, Wired service.executor := by
  intro service h
  cases h
  exact .direct

def agentRequests (_ : Fin 1) : GatewayRequest :=
  .call agentServer agentServer_wired { protocolVersion := "2026-07-28" }
    { name := "crm.search" }

def agentAnswer (_ : Fin 1) : (q : Query) → q.Answer
  | .newId => "execution"
  | .now => (1 : Nat)
  | .resolvePrincipal _ => .ok searchingAgent
  | .resolveTool _ _ => .ok (some { raceRequest.val.tool with
      tenantId := "tenant-1", canonicalName := "crm.search", sideEffect := .readOnly })
  | .validateArguments _ _ => .ok ()
  | .evaluatePolicy _ => .ok ⟨.allow, "policy", "allowed"⟩
  | .validateEndpoint _ => .ok ()
  | q => someAnswer q

def agentWorld : World Gateway (Fin 1) (fun p => (agentRequests p).Result) :=
  (GatewayWorld agentRequests).follow agentAnswer (List.replicate 13 0)

set_option maxRecDepth 100000 in
theorem agentWorld_legal :
    World.Legal agentAnswer (GatewayWorld agentRequests) (List.replicate 13 0) ∧
    agentWorld.store.executions.rows.map (·.val.mcpScopeType) = [.root] := by
  decide +kernel

theorem agentServer_reads : agentServer.Reads agentStores := rfl

theorem ledger_in_scope_agent :
    agentWorld.store.executions.rows.map (·.val.mcpScopeType) = [.root] ∧
    ∀ e ∈ agentWorld.store.executions, ∃ p, ∃ call : ScopedCall (agentRequests p) agentStores,
      call.admitted.Plans call.params e.val ∧ call.Labels e.val ∧
        (agentStores.Resolves (agentWorld.Given p) → call.Executes e.val) :=
  ⟨agentWorld_legal.2, (ledger_in_scope (World.reaches_follow agentWorld_legal.1)
    fun _ => agentServer_reads).1⟩

attribute [local instance] everyText zeroDistance

/-- The agent searches by words only. -/
def agentTools : SearchTools :=
  ⟨{ lexicalSearch := SearchPublishedTools.execute oneToolCatalog
     principalResolver := fun _ => .ok searchingAgent
     policyEvaluator := fun _ => .ok ⟨.allow, "policy", "allowed"⟩ }, by decide +kernel⟩

def agentSearch : ApplicationSearch agentStores where
  index := ⟨.empty, List.nodup_nil⟩
  principalResolver := fun _ => .ok searchingAgent
  policyEvaluator := fun _ => .ok ⟨.allow, "policy", "allowed"⟩
  hybridSearch := none
  tools := agentTools
  created := construct_of_valid agentTools.property

def searchingServer : McpServer := { agentServer with searchTools := some agentTools.execute }

theorem searchingServer_searches : searchingServer.Searches agentStores := by
  intro execute h
  cases h
  exact ⟨agentSearch, rfl⟩

theorem searchingServer_lists : ∃ tools,
    (searchingServer.onListTools { protocolVersion := "2026-07-28" }).answer = .ok (.tools tools) ∧
      tools.map (·.name) = [nexusSearchToolsName, "crm.search"] := by
  refine ⟨_, rfl, ?_⟩
  decide +kernel

theorem listing_agrees_agent : ∃ context access tools,
    tools.map (·.name) = [nexusSearchToolsName, "crm.search"] ∧
    searchingServer.Agrees context access tools := by
  obtain ⟨tools, hlisted, hnames⟩ := searchingServer_lists
  obtain ⟨own, scope, access, -, -, -, hagrees⟩ := listing_agrees
    (show searchingServer.Reads agentStores from agentServer_reads) searchingServer_searches hlisted
  exact ⟨_, access, tools, hnames, hagrees⟩

end Agent

end NexusMcp
