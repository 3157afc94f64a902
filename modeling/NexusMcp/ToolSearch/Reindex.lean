-- SUMMARY: The reindexing of the published tools in batches, and the inspection of the index.
import NexusMcp.Batch.Slices
import NexusMcp.Catalog.Tables
import NexusMcp.ToolSearch.DocumentBuilder
import NexusMcp.ToolSearch.EmbeddingIndex
import NexusMcp.ToolSearch.Jobs
import NexusMcp.Txn.Lasting

/-!
# Reindexing

Each batch is embedded and then written in a transaction of its own. The provider may answer
differently at every call, so it is given the calls before.
-/

namespace NexusMcp

open Txn (Lasting)
open Projection (Sources)
open SqlAlchemyToolSearchEmbeddingRepository

/-! ## The documents -/

variable [Sha256] [PyStr]

/-- The documents of the published tools, in the order of their names. -/
def publishedDocuments (c : CatalogTables) (tenantId : Id) :
    Except Exc (List ToolSearchDocument) :=
  ((c.listPublishedByTenant tenantId).insertionSort
    (·.val.canonicalName ≤ ·.val.canonicalName)).mapM ToolSearchDocumentBuilder.build

/-! ## Reindexing -/

structure EmbeddingProvider where
  model : String
  dimensions : Int
  embed : List (List String) → List String → Except Exc (List EmbeddingVector)

/-- What the use case is composed with. The clock and the generator are asked by number. -/
structure ReindexToolsFields where
  embeddingProvider : Option EmbeddingProvider
  embeddingModel : String
  embeddingDimensions : Int
  now : Nat → Time
  newId : Nat → Id

instance : PostInit ReindexToolsFields where
  checks self := [
    (isBlank self.embeddingModel ∨ self.embeddingDimensions ≤ 0,
      "reindex embedding configuration was invalid"),
    (∃ provider ∈ self.embeddingProvider, provider.model ≠ self.embeddingModel ∨
      provider.dimensions ≠ self.embeddingDimensions,
      "embedding provider did not match reindex configuration")]

abbrev ReindexTools := Checked ReindexToolsFields

/-- The index, and how often the provider, the clock and the generator were asked. -/
structure ReindexState where
  index : ToolSearchIndex
  embedded : List (List String)
  clockReads : Nat
  newIds : Nat

namespace ReindexTools

/-- `self._clock.now()`. -/
def now (self : ReindexTools) : Lasting ReindexState Exc Time :=
  .update fun s => (self.val.now s.clockReads, { s with clockReads := s.clockReads + 1 })

/-- `self._identifier_generator.new_id()`. -/
def newId (self : ReindexTools) : Lasting ReindexState Exc Id :=
  .update fun s => (self.val.newId s.newIds, { s with newIds := s.newIds + 1 })

/-- `provider.embed(texts)`. -/
def embed (provider : EmbeddingProvider) (texts : List String) :
    Lasting ReindexState Exc (List EmbeddingVector) := fun s =>
  (provider.embed s.embedded texts, { s with embedded := s.embedded ++ [texts] })

/-- The identifier that the row of a document has already, or a new one. -/
def embeddingId (self : ReindexTools) (existing : Id → Option ToolSearchEmbedding)
    (document : ToolSearchDocument) : Lasting ReindexState Exc Id :=
  match existing document.val.toolVersionId with
  | some row => pure row.val.id
  | none => self.newId

/-- The embedding of a document. -/
def project (self : ReindexTools) (existing : Id → Option ToolSearchEmbedding)
    (document : ToolSearchDocument) (vector : EmbeddingVector) :
    Lasting ReindexState Exc ToolSearchEmbedding := do
  let id ← self.embeddingId existing document
  let indexedAt ← self.now
  Lasting.lift (construct {
    id := id
    tenantId := document.val.tenantId
    toolVersionId := document.val.toolVersionId
    embeddingModel := self.val.embeddingModel
    embeddingDimensions := self.val.embeddingDimensions
    sourceDigest := document.val.sourceDigest
    vector := vector
    indexedAt := indexedAt })

/-- One round of the loop over the batches, with the counts of batches and of embeddings. -/
def embedBatch [VectorColumn] (self : ReindexTools) (provider : EmbeddingProvider) (tenantId : Id)
    (existing : Id → Option ToolSearchEmbedding) (counts : Nat × Nat)
    (batch : List ToolSearchDocument) : Lasting ReindexState Exc (Nat × Nat) := do
  let vectors ← embed provider (batch.map (·.val.content))
  Lasting.lift (raiseIf (vectors.length ≠ batch.length)
    (embeddingResponse "embedding provider violated batch count contract"))
  let projections ← (batch.zip vectors).mapM fun pair => self.project existing pair.1 pair.2
  Lasting.atomically fun s =>
    (upsertMany tenantId projections s.index).map fun index => { s with index := index }
  return (counts.1 + 1, counts.2 + batch.length)

/-- `_load_existing`, as a dictionary. -/
def loadExisting (self : ReindexTools) (index : ToolSearchIndex) (tenantId : Id)
    (documents : List ToolSearchDocument) : Id → Option ToolSearchEmbedding :=
  byToolVersion (listByToolVersions index tenantId (documents.map (·.val.toolVersionId))
    self.val.embeddingModel self.val.embeddingDimensions)

/-- The pending documents. -/
def pending (force : Bool) (existing : Id → Option ToolSearchEmbedding)
    (documents : List ToolSearchDocument) : List ToolSearchDocument :=
  documents.filter fun document => force || match existing document.val.toolVersionId with
    | none => true
    | some row => row.val.sourceDigest ≠ document.val.sourceDigest

/-- `execute`. -/
def execute [VectorColumn] (self : ReindexTools) (c : CatalogTables)
    (command : ReindexToolsCommand) : Lasting ReindexState Exc ReindexToolsResult := do
  Lasting.lift (valueErrorIf (¬ (1 ≤ command.batchSize ∧ command.batchSize ≤ 64))
    "reindex batch size must be between 1 and 64")
  let documents ← Lasting.lift (publishedDocuments c command.context.tenantId)
  let existing ← Lasting.update fun s =>
    (self.loadExisting s.index command.context.tenantId documents, s)
  let pending := pending command.force existing documents
  let result : ReindexToolsResult := {
    publishedCount := documents.length
    currentCount := documents.length - pending.length
    pendingCount := pending.length
    embeddedCount := 0
    batchCount := 0
    model := self.val.embeddingModel
    dimensions := self.val.embeddingDimensions
    dryRun := command.dryRun }
  if command.dryRun ∨ pending = [] then return result
  else
    let provider ← Lasting.lift (self.val.embeddingProvider.elim
      (.error (.nexus .embeddingUnavailable "embedding provider was not configured")) .ok)
    let (batchCount, embeddedCount) ← (Batch.slices command.batchSize.toNat pending).foldlM
      (self.embedBatch provider command.context.tenantId existing) (0, 0)
    return { result with
      embeddedCount := embeddedCount
      batchCount := batchCount
      dryRun := false }

end ReindexTools

/-! ## Inspection -/

inductive ToolSearchIndexState where
  | missing
  | stale
  | current
deriving Repr, DecidableEq

structure ToolSearchIndexItem where
  toolId : Id
  toolVersionId : Id
  canonicalName : String
  state : ToolSearchIndexState
  indexedAt : Option Time
deriving Repr, DecidableEq

structure ToolSearchIndexSnapshot where
  publishedCount : Nat
  currentCount : Nat
  missingCount : Nat
  staleCount : Nat
  embeddingModel : String
  embeddingDimensions : Int
  embeddingAvailable : Bool
  items : List ToolSearchIndexItem
deriving Repr, DecidableEq

structure InspectToolSearchIndex where
  embeddingModel : String
  embeddingDimensions : Int
  embeddingAvailable : Bool

namespace InspectToolSearchIndex

/-- The state of a document, by the row of its version. -/
def stateOf (document : ToolSearchDocument) : Option ToolSearchEmbedding → ToolSearchIndexState
  | none => .missing
  | some row => if row.val.sourceDigest = document.val.sourceDigest then .current else .stale

def item (embedding : Option ToolSearchEmbedding) (tool : PublishedTool)
    (document : ToolSearchDocument) : ToolSearchIndexItem where
  toolId := tool.val.toolId
  toolVersionId := tool.val.toolVersionId
  canonicalName := tool.val.canonicalName
  state := stateOf document embedding
  indexedAt := embedding.map (·.val.indexedAt)

/-- `execute`. -/
def execute (self : InspectToolSearchIndex) (c : CatalogTables) (index : ToolSearchIndex)
    (tenantId : Id) : Except Exc ToolSearchIndexSnapshot := do
  let tools := (c.listPublishedByTenant tenantId).insertionSort
    (·.val.canonicalName ≤ ·.val.canonicalName)
  let documents ← tools.mapM ToolSearchDocumentBuilder.build
  let existing := byToolVersion (listByToolVersions index tenantId
    (documents.map (·.val.toolVersionId)) self.embeddingModel self.embeddingDimensions)
  let items := (tools.zip documents).map fun pair =>
    item (existing pair.2.val.toolVersionId) pair.1 pair.2
  return {
    publishedCount := items.length
    currentCount := items.countP (·.state = .current)
    missingCount := items.countP (·.state = .missing)
    staleCount := items.countP (·.state = .stale)
    embeddingModel := self.embeddingModel
    embeddingDimensions := self.embeddingDimensions
    embeddingAvailable := self.embeddingAvailable
    items := items }

end InspectToolSearchIndex

end NexusMcp
