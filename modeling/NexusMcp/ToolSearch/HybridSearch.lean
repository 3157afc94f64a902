-- SUMMARY: The vector search beside the lexical one, and when both branches share a scope.
import NexusMcp.ToolSearch.Convergence
import NexusMcp.ToolSearch.RankFusion

/-!
# Hybrid Search

The lexical and the vector branch check and normalise one query, each on its own. A search
records what its branches called their ports with.
-/

namespace NexusMcp

open Txn (Lasting)

/-! ## The vector index -/

structure VectorSearchResultFields where
  hits : List PublishedToolSearchHit
  eligibleCount : Int
  indexedCount : Int

instance : PostInit VectorSearchResultFields where
  checks r := [
    (r.eligibleCount < 0 ∨ r.indexedCount < 0,
      "vector search coverage counts must not be negative"),
    (r.indexedCount > r.eligibleCount, "indexed tool count must not exceed eligible tool count"),
    ((r.hits.length : Int) > r.indexedCount,
      "vector search hits must not exceed indexed tool count")]

abbrev VectorSearchResult := Checked VectorSearchResultFields

/-- The operator `cosine_distance` of the database, as the rational its float denotes. -/
class CosineDistance where
  distance : EmbeddingVector → EmbeddingVector → Rat

/-- A published row that has an embedding, and how far that is from the query. -/
structure EmbeddedRow where
  tool : Tool
  version : ToolVersion
  distance : Rat

/-- `ORDER BY distance, canonical_name`. -/
def nearerBefore (x y : EmbeddedRow) : Prop :=
  x.distance < y.distance ∨
    (x.distance = y.distance ∧ x.tool.val.canonicalName ≤ y.tool.val.canonicalName)

instance : DecidableRel nearerBefore := fun _ _ => inferInstanceAs (Decidable (_ ∨ _))

/-- The published rows that pass a filter: the scope of a search. -/
def CatalogTables.scopeRows (c : CatalogTables) (tenantId : Id) (filter : SearchFilter) :
    List (Tool × ToolVersion) :=
  (c.publishedRows tenantId).filter fun row => filter.Passes row.1 row.2

/-- The rows of a scope that join an embedding of the query's model. -/
def embeddedRows [CosineDistance] (c : CatalogTables) (index : ToolSearchIndex) (tenantId : Id)
    (queryVector : EmbeddingVector) (filter : SearchFilter) : List EmbeddedRow :=
  (c.scopeRows tenantId filter).filterMap fun row =>
    (index.embeddings.find? {
      tenantId := tenantId
      toolVersionId := row.2.val.id
      embeddingModel := queryVector.val.model
      embeddingDimensions := queryVector.val.dimensions }).map fun embedding =>
        { tool := row.1
          version := row.2
          distance := CosineDistance.distance embedding.val.vector queryVector }

/-- `count(distinct …)`. -/
def countDistinct (ids : List Id) : Int := ids.dedup.length

/-- `search_published_by_vector`. -/
def searchPublishedByVector [CosineDistance] (c : CatalogTables) (index : ToolSearchIndex)
    (tenantId : Id) (queryVector : EmbeddingVector) (filter : SearchFilter) (limit : Nat) :
    Except Exc VectorSearchResult :=
  if filter.visibilities = [] ∨ filter.eligibleToolIds = some [] then
    construct { hits := [], eligibleCount := 0, indexedCount := 0 }
  else
    let indexed := embeddedRows c index tenantId queryVector filter
    construct {
      hits := ((indexed.insertionSort nearerBefore).take limit).map fun row =>
        { tool := publishedToolFromModels row.tool row.version, rank := 1 - row.distance }
      eligibleCount := countDistinct ((c.scopeRows tenantId filter).map (·.2.val.id))
      indexedCount := countDistinct (indexed.map (·.version.val.id)) }

theorem CatalogTables.mem_scopeRows {c : CatalogTables} {tenantId : Id} {filter : SearchFilter}
    {row : Tool × ToolVersion} : row ∈ c.scopeRows tenantId filter ↔
      row ∈ c.publishedRows tenantId ∧ filter.Passes row.1 row.2 := by
  rw [scopeRows, List.mem_filter, decide_eq_true_eq]

/-- No row passes a filter to which no tool is eligible. -/
theorem CatalogTables.scopeRows_of_none_eligible {c : CatalogTables} {tenantId : Id}
    {filter : SearchFilter} (h : filter.eligibleToolIds = some []) :
    c.scopeRows tenantId filter = [] := by
  rw [List.eq_nil_iff_forall_not_mem]
  intro row hrow
  obtain ⟨-, -, heligible, -⟩ := mem_scopeRows.1 hrow
  exact absurd (heligible [] h) List.not_mem_nil

/-- A version is the published one of at most one tool. -/
theorem CatalogTables.nodup_publishedVersions (c : CatalogTables) (tenantId : Id) :
    ((c.publishedRows tenantId).map (·.2.val.id)).Nodup := by
  rw [List.Nodup, List.pairwise_map]
  apply (c.publishedRows_pairwise tenantId).imp_of_mem
  rintro ⟨tool, version⟩ ⟨tool', version'⟩ hrow hrow' hne hid
  obtain ⟨-, hversion, _, -, htool, -⟩ := mem_publishedRows.1 hrow
  obtain ⟨-, hversion', _, -, htool', -⟩ := mem_publishedRows.1 hrow'
  have hsame : version = version' := Txn.Table.eq_of_key_eq hversion hversion' hid
  exact hne (htool.symm.trans ((congrArg (·.val.toolId) hsame).trans htool'))

section

variable [CosineDistance] {c : CatalogTables} {index : ToolSearchIndex} {tenantId : Id}
  {queryVector : EmbeddingVector} {filter : SearchFilter} {limit : Nat}

theorem versions_embeddedRows :
    ((embeddedRows c index tenantId queryVector filter).map (·.version.val.id)).Sublist
      ((c.scopeRows tenantId filter).map (·.2.val.id)) := by
  unfold embeddedRows
  induction c.scopeRows tenantId filter with
  | nil => exact .slnil
  | cons row rows ih =>
    rw [List.filterMap_cons, List.map_cons]
    split
    · exact ih.cons _
    · next embedded hembedded =>
      obtain ⟨embedding, -, rfl⟩ := Option.map_eq_some_iff.1 hembedded
      exact ih.cons_cons _

/-- The answer passes its own checks: it does not have more hits than there are indexed
    versions, nor more of these than eligible ones. -/
theorem searchPublishedByVector_isOk :
    ∃ result, searchPublishedByVector c index tenantId queryVector filter limit = .ok result := by
  unfold searchPublishedByVector
  split
  · exact ⟨_, construct_of_valid (by decide)⟩
  · refine ⟨_, construct_of_valid ?_⟩
    have hversions :
        ((embeddedRows c index tenantId queryVector filter).map (·.version.val.id)).Sublist
          ((c.scopeRows tenantId filter).map (·.2.val.id)) := versions_embeddedRows
    have hscope : ((c.scopeRows tenantId filter).map (·.2.val.id)).Nodup :=
      (c.nodup_publishedVersions tenantId).sublist (List.filter_sublist.map _)
    have hindexed := hscope.sublist hversions
    have hle := hversions.length_le
    simp only [List.length_map] at hle
    simp only [Valid, PostInit.checks, countDistinct, hscope.dedup, hindexed.dedup,
      List.forall_mem_cons, List.not_mem_nil, false_implies, implies_true, and_true,
      decide_eq_false_iff_not, List.length_map, List.length_take, List.length_insertionSort]
    omega

/-- A hit is a row of the scope. -/
theorem mem_searchPublishedByVector {result : VectorSearchResult}
    (h : searchPublishedByVector c index tenantId queryVector filter limit = .ok result)
    {hit : PublishedToolSearchHit} (hhit : hit ∈ result.val.hits) :
    ∃ row ∈ c.scopeRows tenantId filter, hit.tool = publishedToolFromModels row.1 row.2 := by
  unfold searchPublishedByVector at h
  split at h
  · rw [val_of_construct h] at hhit
    cases hhit
  · rw [val_of_construct h] at hhit
    obtain ⟨embedded, hembedded, rfl⟩ := List.mem_map.1 hhit
    obtain ⟨row, hrow, hmap⟩ := List.mem_filterMap.1
      ((List.mem_insertionSort _).1 (List.mem_of_mem_take hembedded))
    obtain ⟨embedding, -, rfl⟩ := Option.map_eq_some_iff.1 hmap
    exact ⟨row, hrow, rfl⟩

end

/-! ## The two branches -/

/-- What `search_published_by_vector` is called with. -/
structure VectorSearchCall where
  tenantId : Id
  queryVector : EmbeddingVector
  filter : SearchFilter
  limit : Int

/-- What the ports were called with: the two stores, and the embedding provider. -/
structure SearchCalls where
  lexical : List SearchPublishedCall := []
  embedded : List (List String) := []
  vector : List VectorSearchCall := []

/-- The call of a store, which answers from the catalogue. -/
def SearchPublishedTools.search [TextIndex] (c : CatalogTables) (call : SearchPublishedCall) :
    Lasting SearchCalls Exc (List PublishedToolSearchHit) := fun s =>
  (.ok (searchPublished c call.tenantId call.queryText call.filter call.limit.toNat),
    { s with lexical := s.lexical ++ [call] })

/-- `SearchPublishedTools.execute`, with its call recorded. -/
def SearchPublishedTools.executeRecorded [TextIndex] (c : CatalogTables)
    (query : SearchPublishedToolsQuery) :
    Lasting SearchCalls Exc (List PublishedToolSearchHit) := do
  let call ← Lasting.lift (request query)
  search c call

structure SearchVectorTools where
  embeddingProvider : EmbeddingProvider

namespace SearchVectorTools

def indexVersion (self : SearchVectorTools) : String :=
  self.embeddingProvider.model ++ "@" ++ toString self.embeddingProvider.dimensions

/-- `_validate_query`. -/
def validateQuery (query : SearchPublishedToolsQuery) : Except Exc String := do
  let queryText := strip query.text
  raiseIf (queryText = "") (.nexus .invalidArguments "tool search text must not be blank")
  raiseIf (queryText.toList.length > 200)
    (.nexus .invalidArguments "tool search text must not exceed 200 characters")
  raiseIf (¬ (1 ≤ query.limit ∧ query.limit ≤ 50))
    (.nexus .invalidArguments "tool search limit must be between 1 and 50")
  raiseIf (∃ namespaceName ∈ query.namespaceName, strip namespaceName = "")
    (.nexus .invalidArguments "tool search namespace must not be blank")
  return queryText

/-- `self._embedding_provider.embed(texts)`. -/
def embed (self : SearchVectorTools) (texts : List String) :
    Lasting SearchCalls Exc (List EmbeddingVector) := fun s =>
  (self.embeddingProvider.embed s.embedded texts, { s with embedded := s.embedded ++ [texts] })

/-- The query vector among the vectors of an answer. -/
def readVector (self : SearchVectorTools) : List EmbeddingVector → Except Exc EmbeddingVector
  | [queryVector] => do
    raiseIf (queryVector.val.model ≠ self.embeddingProvider.model ∨
        queryVector.val.dimensions ≠ self.embeddingProvider.dimensions)
      (embeddingResponse "query embedding provider violated model contract")
    return queryVector
  | _ => .error (embeddingResponse "query embedding provider violated count contract")

/-- `self._vector_search.search_published_by_vector(…)`. -/
def search [CosineDistance] (c : CatalogTables) (index : ToolSearchIndex)
    (call : VectorSearchCall) : Lasting SearchCalls Exc VectorSearchResult := fun s =>
  (searchPublishedByVector c index call.tenantId call.queryVector call.filter call.limit.toNat,
    { s with vector := s.vector ++ [call] })

/-- What the store is called with: the namespace is the query's own. -/
def call (query : SearchPublishedToolsQuery) (queryVector : EmbeddingVector) :
    VectorSearchCall where
  tenantId := query.context.tenantId
  queryVector := queryVector
  filter := {
    visibilities := searchVisibilities query.context.principalId
    eligibleToolIds := query.eligibleToolIds
    namespaceName := query.namespaceName
    sideEffect := query.sideEffect }
  limit := query.limit

/-- `execute`, from the answer of the embedding provider on. -/
def searchNearest [CosineDistance] (self : SearchVectorTools) (c : CatalogTables)
    (index : ToolSearchIndex) (query : SearchPublishedToolsQuery)
    (vectors : List EmbeddingVector) : Lasting SearchCalls Exc VectorSearchResult := do
  let queryVector ← Lasting.lift (self.readVector vectors)
  let result ← search c index (call query queryVector)
  Lasting.lift (raiseIf (result.val.eligibleCount > 0 ∧ result.val.indexedCount = 0)
    (.nexus .toolSearchModeUnavailable "tool vector index was missing for search scope"))
  return result

def execute [CosineDistance] (self : SearchVectorTools) (c : CatalogTables)
    (index : ToolSearchIndex) (query : SearchPublishedToolsQuery) :
    Lasting SearchCalls Exc VectorSearchResult := do
  let queryText ← Lasting.lift (validateQuery query)
  if query.eligibleToolIds = some [] then
    Lasting.lift (construct { hits := [], eligibleCount := 0, indexedCount := 0 })
  else
    let vectors ← self.embed [queryText]
    self.searchNearest c index query vectors

end SearchVectorTools

structure SearchHybridTools where
  vectorSearch : SearchVectorTools
  rankFusion : ReciprocalRankFusion

/-- `SearchHybridTools.execute_detailed`, with the two searches it gathers. -/
def SearchHybridTools.gatherDetailed [TextIndex] [CosineDistance] (self : SearchHybridTools)
    (c : CatalogTables) (index : ToolSearchIndex) (query : SearchPublishedToolsQuery) :
    Lasting SearchCalls Exc HybridSearchResult := do
  let (lexicalHits, vectorResult) ← Lasting.gather (SearchPublishedTools.executeRecorded c query)
    (self.vectorSearch.execute c index query)
  Lasting.lift (executeDetailed self.rankFusion lexicalHits vectorResult.val.hits query.limit)

/-! ## What the branches call -/

/-- A search rejects its query as invalid, before it calls any port. -/
def Rejects {α : Type} (search : Lasting SearchCalls Exc α) (message : String) : Prop :=
  ∀ s, search s = (.error (.nexus .invalidArguments message), s)

section

variable {query : SearchPublishedToolsQuery} {c : CatalogTables} {s s' : SearchCalls}
  {message : String}

/-- The lexical branch checks what the vector branch checks. -/
theorem SearchPublishedTools.request_eq : request query =
    (SearchVectorTools.validateQuery query).map fun queryText => {
      tenantId := query.context.tenantId
      queryText := queryText
      filter := {
        visibilities := searchVisibilities query.context.principalId
        eligibleToolIds := query.eligibleToolIds
        namespaceName := query.namespaceName.map strip
        sideEffect := query.sideEffect }
      limit := query.limit } := by
  have hblank : query.namespaceName.map strip = some "" ↔
      ∃ namespaceName ∈ query.namespaceName, strip namespaceName = "" := Option.map_eq_some_iff
  simp only [request, SearchVectorTools.validateQuery, raiseIf, hblank]
  split_ifs <;> rfl

namespace SearchPublishedTools

variable [TextIndex]

theorem rejects_iff : Rejects (executeRecorded c query) message ↔
    SearchVectorTools.validateQuery query = .error (.nexus .invalidArguments message) := by
  unfold executeRecorded
  rw [request_eq]
  cases hvalid : SearchVectorTools.validateQuery query with
  | error e =>
    refine ⟨fun h => ?_, fun h s => ?_⟩
    · cases h {}
      rfl
    · cases h
      rfl
  | ok queryText =>
    refine ⟨fun h => ?_, fun h => (by cases h)⟩
    cases h {}

theorem executeRecorded_eq_ok {hits : List PublishedToolSearchHit}
    (h : executeRecorded c query s = (.ok hits, s')) : ∃ call, request query = .ok call ∧
      s' = { s with lexical := s.lexical ++ [call] } ∧
        hits = searchPublished c call.tenantId call.queryText call.filter call.limit.toNat := by
  obtain ⟨call, s₁, hcall, h⟩ := Lasting.bind_eq_ok.1 h
  rw [Lasting.lift_eq_ok] at hcall
  obtain ⟨hcall, rfl⟩ := hcall
  cases h
  exact ⟨call, hcall, rfl, rfl⟩

end SearchPublishedTools

namespace SearchVectorTools

variable [CosineDistance] {self : SearchVectorTools} {index : ToolSearchIndex}
  {vectors : List EmbeddingVector}

theorem embedded_searchNearest :
    (self.searchNearest c index query vectors s).2.embedded = s.embedded := by
  unfold searchNearest
  cases self.readVector vectors with
  | error e => rfl
  | ok queryVector =>
    rw [Lasting.lift_ok_bind, Lasting.bind_apply]
    unfold search
    cases searchPublishedByVector c index (call query queryVector).tenantId
      (call query queryVector).queryVector (call query queryVector).filter
      (call query queryVector).limit.toNat with
    | error e => rfl
    | ok result =>
      dsimp only
      rw [Lasting.bind_apply]
      cases raiseIf (result.val.eligibleCount > 0 ∧ result.val.indexedCount = 0)
        (.nexus .toolSearchModeUnavailable "tool vector index was missing for search scope") <;> rfl

theorem searchNearest_eq_ok {result : VectorSearchResult}
    (h : self.searchNearest c index query vectors s = (.ok result, s')) :
    ∃ queryVector, s' = { s with vector := s.vector ++ [call query queryVector] } ∧
      searchPublishedByVector c index query.context.tenantId queryVector
        (call query queryVector).filter query.limit.toNat = .ok result := by
  obtain ⟨queryVector, s₁, hvector, h⟩ := Lasting.bind_eq_ok.1 h
  rw [Lasting.lift_eq_ok] at hvector
  obtain ⟨-, rfl⟩ := hvector
  obtain ⟨result', s₂, hsearch, h⟩ := Lasting.bind_eq_ok.1 h
  obtain ⟨u, s₃, hcovered, h⟩ := Lasting.bind_eq_ok.1 h
  rw [Lasting.lift_eq_ok] at hcovered
  obtain ⟨-, rfl⟩ := hcovered
  cases h
  obtain ⟨hresult, hcalls⟩ := Prod.mk.inj hsearch
  exact ⟨queryVector, hcalls.symm, hresult⟩

theorem rejects_iff : Rejects (self.execute c index query) message ↔
    validateQuery query = .error (.nexus .invalidArguments message) := by
  unfold execute
  cases hvalid : validateQuery query with
  | error e =>
    refine ⟨fun h => ?_, fun h s => ?_⟩
    · cases h {}
      rfl
    · cases h
      rfl
  | ok queryText =>
    refine ⟨fun h => ?_, fun h => (by cases h)⟩
    have hrejects := h {}
    rw [Lasting.lift_ok_bind] at hrejects
    split at hrejects
    · cases hrejects
    · -- The text was embedded, so a port has been called.
      obtain ⟨vectors, s₁, hembed, hfails⟩ | hfails := (Lasting.bind_eq_error.1 hrejects).symm
      · obtain ⟨-, rfl⟩ := Prod.mk.inj hembed
        have hembedded := congrArg (·.2.embedded) hfails
        dsimp only at hembedded
        rw [embedded_searchNearest] at hembedded
        cases hembedded
      · cases (Prod.mk.inj hfails).2

theorem execute_eq_ok {result : VectorSearchResult}
    (h : self.execute c index query s = (.ok result, s')) :
    ∃ queryText, validateQuery query = .ok queryText ∧
      ((query.eligibleToolIds = some [] ∧ s' = s ∧ result.val.hits = []) ∨
        (query.eligibleToolIds ≠ some [] ∧ ∃ queryVector,
          s' = { s with embedded := s.embedded ++ [[queryText]]
                        vector := s.vector ++ [call query queryVector] } ∧
          searchPublishedByVector c index query.context.tenantId queryVector
            (call query queryVector).filter query.limit.toNat = .ok result)) := by
  obtain ⟨queryText, s₁, hvalid, h⟩ := Lasting.bind_eq_ok.1 h
  rw [Lasting.lift_eq_ok] at hvalid
  obtain ⟨hvalid, rfl⟩ := hvalid
  refine ⟨queryText, hvalid, ?_⟩
  split at h
  · next heligible =>
    rw [Lasting.lift_eq_ok] at h
    obtain ⟨hresult, rfl⟩ := h
    exact .inl ⟨heligible, rfl, by rw [val_of_construct hresult]⟩
  · next heligible =>
    obtain ⟨vectors, s₂, hembed, h⟩ := Lasting.bind_eq_ok.1 h
    obtain ⟨queryVector, rfl, hresult⟩ := searchNearest_eq_ok h
    obtain ⟨-, rfl⟩ := Prod.mk.inj hembed
    exact .inr ⟨heligible, queryVector, rfl, hresult⟩

end SearchVectorTools

end

/-! ## One scope -/

/-- The rows that the lexical branch may find. -/
def lexicalScope (c : CatalogTables) (calls : SearchCalls) : Set (Tool × ToolVersion) :=
  {row | ∃ call ∈ calls.lexical, row ∈ c.scopeRows call.tenantId call.filter}

/-- The rows that the vector branch may find. -/
def vectorScope (c : CatalogTables) (calls : SearchCalls) : Set (Tool × ToolVersion) :=
  {row | ∃ call ∈ calls.vector, row ∈ c.scopeRows call.tenantId call.filter}

/-- The lexical branch called its store, and the vector branch called its ports with the same
    text, tenant and filter, if at all. Neither branch searches what is outside the scope of the
    other, and every hit is in the scope. -/
structure SameScope (c : CatalogTables) (calls : SearchCalls)
    (hits : List PublishedToolSearchHit) (call : SearchPublishedCall) : Prop where
  lexical : calls.lexical = [call]
  embedded : ∀ texts ∈ calls.embedded, texts = [call.queryText]
  tenantId : ∀ vectorCall ∈ calls.vector, vectorCall.tenantId = call.tenantId
  filter : ∀ vectorCall ∈ calls.vector, vectorCall.filter = call.filter
  hits : ∀ hit ∈ hits, ∃ row ∈ c.scopeRows call.tenantId call.filter,
    hit.tool = publishedToolFromModels row.1 row.2
  excluded : lexicalScope c calls = vectorScope c calls

/-- What a search that is accepted called its ports with, and where its hits come from. -/
structure Accepted (c : CatalogTables) (query : SearchPublishedToolsQuery)
    (hits : List PublishedToolSearchHit) (calls : SearchCalls) (call : SearchPublishedCall) :
    Prop where
  request : SearchPublishedTools.request query = .ok call
  lexical : calls.lexical = [call]
  vector : (query.eligibleToolIds = some [] ∧ calls.embedded = [] ∧ calls.vector = []) ∨
    (query.eligibleToolIds ≠ some [] ∧ calls.embedded = [[call.queryText]] ∧
      ∃ queryVector, calls.vector = [SearchVectorTools.call query queryVector])
  hits : ∀ hit ∈ hits, ∃ row ∈ lexicalScope c calls ∪ vectorScope c calls,
    hit.tool = publishedToolFromModels row.1 row.2

section

variable {c : CatalogTables} {query : SearchPublishedToolsQuery} {calls : SearchCalls}
  {call : SearchPublishedCall}

theorem mem_lexicalScope (h : calls.lexical = [call]) {row : Tool × ToolVersion} :
    row ∈ lexicalScope c calls ↔ row ∈ c.scopeRows call.tenantId call.filter := by
  simp only [lexicalScope, h, List.mem_singleton, exists_eq_left, Set.mem_ofPred_eq]

theorem mem_vectorScope {vectorCall : VectorSearchCall} (h : calls.vector = [vectorCall])
    {row : Tool × ToolVersion} :
    row ∈ vectorScope c calls ↔ row ∈ c.scopeRows vectorCall.tenantId vectorCall.filter := by
  simp only [vectorScope, h, List.mem_singleton, exists_eq_left, Set.mem_ofPred_eq]

/-- The vector branch asks for what the lexical branch asks for, but for the namespace. -/
theorem SearchVectorTools.call_filter (h : SearchPublishedTools.request query = .ok call)
    (queryVector : EmbeddingVector) :
    (SearchVectorTools.call query queryVector).tenantId = call.tenantId ∧
      ((SearchVectorTools.call query queryVector).filter = call.filter ↔
        query.namespaceName.map strip = query.namespaceName) := by
  rw [SearchPublishedTools.request_eq] at h
  obtain ⟨queryText, -, rfl⟩ := map_eq_ok.1 h
  simp only [SearchVectorTools.call, SearchFilter.mk.injEq, true_and, and_true]
  exact ⟨Eq.symm, Eq.symm⟩

theorem SearchPublishedTools.request_eligible (h : request query = .ok call) :
    call.filter.eligibleToolIds = query.eligibleToolIds := by
  rw [request_eq] at h
  obtain ⟨queryText, -, rfl⟩ := map_eq_ok.1 h
  rfl

/-- Where the branches have one scope, it has the rows of all hits. -/
theorem SameScope.of_excluded {hits : List PublishedToolSearchHit}
    (h : Accepted c query hits calls call)
    (hembedded : ∀ texts ∈ calls.embedded, texts = [call.queryText])
    (htenant : ∀ vectorCall ∈ calls.vector, vectorCall.tenantId = call.tenantId)
    (hfilter : ∀ vectorCall ∈ calls.vector, vectorCall.filter = call.filter)
    (hexcluded : lexicalScope c calls = vectorScope c calls) : SameScope c calls hits call where
  lexical := h.lexical
  embedded := hembedded
  tenantId := htenant
  filter := hfilter
  hits hit hhit := by
    obtain ⟨row, hrow, htool⟩ := h.hits hit hhit
    rw [← hexcluded, Set.union_self] at hrow
    exact ⟨row, (mem_lexicalScope h.lexical).1 hrow, htool⟩
  excluded := hexcluded

/-- The one difference between the branches is in the stripping of the namespace. -/
theorem Accepted.sameScope_iff {hits : List PublishedToolSearchHit}
    (h : Accepted c query hits calls call) : SameScope c calls hits call ↔
      query.eligibleToolIds = some [] ∨ query.namespaceName.map strip = query.namespaceName := by
  constructor
  · intro hsame
    obtain ⟨heligible, -⟩ | ⟨-, -, queryVector, hvector⟩ := h.vector
    · exact .inl heligible
    · have hfilter := hsame.filter _ (hvector ▸ List.mem_singleton_self _)
      exact .inr ((SearchVectorTools.call_filter h.request queryVector).2.1 hfilter)
  · intro haligned
    obtain ⟨heligible, hembedded, hvector⟩ | ⟨hsome, hembedded, queryVector, hvector⟩ := h.vector
    · have hnone : c.scopeRows call.tenantId call.filter = [] :=
        CatalogTables.scopeRows_of_none_eligible
          ((SearchPublishedTools.request_eligible h.request).trans heligible)
      refine .of_excluded h (by simp [hembedded]) (by simp [hvector]) (by simp [hvector]) ?_
      ext row
      simp [lexicalScope, vectorScope, h.lexical, hvector, hnone]
    · obtain ⟨htenant, hfilter⟩ := SearchVectorTools.call_filter h.request queryVector
      have hfilter := hfilter.2 (haligned.resolve_left hsome)
      refine .of_excluded h (by simp [hembedded]) (by simp [hvector, htenant])
        (by simp [hvector, hfilter]) ?_
      ext row
      rw [mem_lexicalScope h.lexical, mem_vectorScope hvector, htenant, hfilter]

end

section

variable [TextIndex] [CosineDistance] {self : SearchHybridTools} {c : CatalogTables}
  {index : ToolSearchIndex} {query : SearchPublishedToolsQuery} {result : HybridSearchResult}
  {calls : SearchCalls}

theorem SearchHybridTools.accepted
    (h : self.gatherDetailed c index query {} = (.ok result, calls)) :
    ∃ call, Accepted c query result.hits calls call := by
  obtain ⟨⟨lexicalHits, vectorResult⟩, s₁, hgather, h⟩ := Lasting.bind_eq_ok.1 h
  dsimp only at h
  rw [Lasting.lift_eq_ok] at h
  obtain ⟨hdetailed, rfl⟩ := h
  obtain ⟨s₂, hlexical, hvector⟩ := Lasting.gather_eq_ok.1 hgather
  obtain ⟨call, hrequest, rfl, rfl⟩ := SearchPublishedTools.executeRecorded_eq_ok hlexical
  obtain ⟨queryText, hvalid, hvector⟩ := SearchVectorTools.execute_eq_ok hvector
  have htext : call.queryText = queryText := by
    rw [SearchPublishedTools.request_eq, hvalid] at hrequest
    cases hrequest
    rfl
  subst htext
  obtain ⟨fused, hfused, hresult⟩ := bind_eq_ok.1 hdetailed
  cases hresult
  -- The vector branch finds rows of its scope only, and nothing where it was not asked.
  have hvectorHits : ∀ found ∈ vectorResult.val.hits, ∃ row ∈ vectorScope c s₁,
      found.tool = publishedToolFromModels row.1 row.2 := by
    intro found hfound
    obtain ⟨-, -, hnone⟩ | ⟨-, queryVector, rfl, hsearch⟩ := hvector
    · rw [hnone] at hfound
      cases hfound
    · obtain ⟨row, hrow, htool⟩ := mem_searchPublishedByVector hsearch hfound
      exact ⟨row, (mem_vectorScope rfl).2 hrow, htool⟩
  have hlexical : s₁.lexical = [call] := by
    obtain ⟨-, rfl, -⟩ | ⟨-, queryVector, rfl, -⟩ := hvector <;> rfl
  refine ⟨call, hrequest, hlexical, ?_, ?_⟩
  · obtain ⟨heligible, rfl, -⟩ | ⟨heligible, queryVector, rfl, -⟩ := hvector
    · exact .inl ⟨heligible, rfl, rfl⟩
    · exact .inr ⟨heligible, rfl, queryVector, rfl⟩
  · intro hit hhit
    obtain ⟨ranking, hranking, found, hfound, -, htool⟩ :=
      (ReciprocalRankFusion.laws_of_fuse hfused).found hit hhit
    rw [← htool]
    obtain rfl | hranking := List.mem_cons.1 hranking
    · obtain ⟨tool, version, hrow, hpasses, hmodels⟩ := mem_searchPublished hfound
      exact ⟨(tool, version), .inl ((mem_lexicalScope hlexical).2
        (CatalogTables.mem_scopeRows.2 ⟨hrow, hpasses⟩)), hmodels⟩
    · rw [List.mem_singleton.1 hranking] at hfound
      obtain ⟨row, hrow, hmodels⟩ := hvectorHits found hfound
      exact ⟨row, .inr hrow, hmodels⟩

/-- The branches reject the same queries. One that is accepted has one scope in both exactly if
    no tool is eligible or stripping leaves its namespace as it is. -/
theorem hybrid_scope_shared_iff (self : SearchHybridTools) (c : CatalogTables)
    (index : ToolSearchIndex) (query : SearchPublishedToolsQuery) :
    (∀ message, Rejects (SearchPublishedTools.executeRecorded c query) message ↔
      Rejects (self.vectorSearch.execute c index query) message) ∧
    ∀ result calls, self.gatherDetailed c index query {} = (.ok result, calls) →
      ((∃ call, SameScope c calls result.hits call) ↔
        query.eligibleToolIds = some [] ∨
          query.namespaceName.map strip = query.namespaceName) := by
  constructor
  · intro message
    rw [SearchPublishedTools.rejects_iff, SearchVectorTools.rejects_iff]
  · intro result calls h
    obtain ⟨call, haccepted⟩ := SearchHybridTools.accepted h
    rw [← haccepted.sameScope_iff]
    constructor
    · rintro ⟨call', hsame⟩
      obtain rfl : call' = call :=
        List.singleton_inj.1 (hsame.lexical.symm.trans haccepted.lexical)
      exact hsame
    · exact fun hsame => ⟨call, hsame⟩

end

/-! ### A padded namespace -/

section

@[reducible] def everyText : TextIndex := ⟨fun _ _ _ => some 1⟩

@[reducible] def zeroDistance : CosineDistance := ⟨fun _ _ => 0⟩

attribute [local instance] everyText zeroDistance

def orderSearch : SearchHybridTools := ⟨⟨shakyProvider⟩, ⟨{}, by decide⟩⟩

/-- A search for the tools of one namespace, as an agent may pad it. -/
def ordersQuery (namespaceName : String) : SearchPublishedToolsQuery where
  context := { requestId := "request-1", traceId := "trace-1", tenantId := "tenant-1",
               principalId := "agent-1", authnMethod := "token" }
  text := "orders"
  namespaceName := some namespaceName

theorem ordersQuery_accepted (namespaceName : String)
    (h : (orderSearch.gatherDetailed searchedCatalog firstIndexed (ordersQuery namespaceName)
      {}).1.isOk) : ∃ result calls,
    orderSearch.gatherDetailed searchedCatalog firstIndexed (ordersQuery namespaceName) {} =
      (.ok result, calls) := by
  rcases hrun : orderSearch.gatherDetailed searchedCatalog firstIndexed
    (ordersQuery namespaceName) {} with ⟨_ | result, calls⟩
  · rw [hrun] at h
    cases h
  · exact ⟨result, calls, rfl⟩

theorem hybrid_scope_shared_iff_orders : ∃ result calls,
    orderSearch.gatherDetailed searchedCatalog firstIndexed (ordersQuery "orders") {} =
      (.ok result, calls) ∧ ∃ call, SameScope searchedCatalog calls result.hits call := by
  obtain ⟨result, calls, hrun⟩ := ordersQuery_accepted "orders" (by decide +kernel)
  refine ⟨result, calls, hrun, ?_⟩
  exact ((hybrid_scope_shared_iff _ _ _ _).2 result calls hrun).2 (.inr (by decide +kernel))

/-- With blanks around the namespace only the lexical branch searches the tools in it, and the
    search is accepted none the less. -/
theorem padded_namespace_splits_scope : ∃ result calls,
    orderSearch.gatherDetailed searchedCatalog firstIndexed (ordersQuery " orders ") {} =
      (.ok result, calls) ∧
    (listOrders, listOrdersVersion) ∈ lexicalScope searchedCatalog calls ∧
    (listOrders, listOrdersVersion) ∉ vectorScope searchedCatalog calls ∧
    ¬ ∃ call, SameScope searchedCatalog calls result.hits call := by
  obtain ⟨result, calls, hrun⟩ := ordersQuery_accepted " orders " (by decide +kernel)
  obtain ⟨call, haccepted⟩ := SearchHybridTools.accepted hrun
  have hlexical : (listOrders, listOrdersVersion) ∈ lexicalScope searchedCatalog calls := by
    have hrequest := haccepted.request
    rw [SearchPublishedTools.request_eq] at hrequest
    obtain ⟨queryText, -, rfl⟩ := map_eq_ok.1 hrequest
    refine (mem_lexicalScope haccepted.lexical).2 (CatalogTables.mem_scopeRows.2 ⟨?_, ?_⟩)
    · refine CatalogTables.mem_publishedRows.2
        ⟨.head _, .head _, listOrdersBinding, .head _, ?_⟩
      change CatalogTables.PublishedJoin "tenant-1" listOrders listOrdersVersion listOrdersBinding
      decide +kernel
    · change SearchFilter.Passes
        ⟨searchVisibilities "agent-1", none, some (strip " orders "), none⟩ listOrders
        listOrdersVersion
      decide +kernel
  have hvector : (listOrders, listOrdersVersion) ∉ vectorScope searchedCatalog calls := by
    obtain ⟨heligible, -⟩ | ⟨-, -, queryVector, hcalls⟩ := haccepted.vector
    · cases heligible
    · intro hrow
      obtain ⟨-, -, -, hnamespace, -⟩ :=
        CatalogTables.mem_scopeRows.1 ((mem_vectorScope hcalls).1 hrow)
      exact absurd (hnamespace " orders " rfl) (by decide)
  refine ⟨result, calls, hrun, hlexical, hvector, ?_⟩
  rintro ⟨call', hsame⟩
  exact hvector (hsame.excluded ▸ hlexical)

end

end NexusMcp
