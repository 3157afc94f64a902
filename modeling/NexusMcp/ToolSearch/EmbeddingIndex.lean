-- SUMMARY: The table of embeddings and its repository: what an upsert makes of the rows.
import NexusMcp.Projection.Digests
import NexusMcp.ToolSearch.SiliconFlow
import NexusMcp.Txn.Table

/-!
# The Embedding Index

A version has one row for each model. One statement inserts the rows of a batch, or updates
those that are there; it may not touch a row twice.
-/

namespace NexusMcp

open Txn (Table)
open Projection (Sources)

/-! ## Embeddings -/

structure ToolSearchEmbeddingFields where
  id : Id
  tenantId : Id
  toolVersionId : Id
  embeddingModel : String
  embeddingDimensions : Int
  sourceDigest : String
  vector : EmbeddingVector
  indexedAt : Time

instance : PostInit ToolSearchEmbeddingFields where
  checks e := [
    nonBlank "embedding id" e.id,
    nonBlank "tenant id" e.tenantId,
    nonBlank "tool version id" e.toolVersionId,
    nonBlank "embedding model" e.embeddingModel,
    (e.sourceDigest.length ≠ 64, "embedding source digest must be a SHA-256 hex digest"),
    (e.vector.val.model ≠ e.embeddingModel, "embedding vector model did not match projection"),
    (e.vector.val.dimensions ≠ e.embeddingDimensions,
      "embedding vector dimensions did not match projection")]

abbrev ToolSearchEmbedding := Checked ToolSearchEmbeddingFields

/-- The columns of `uq_tool_search_embedding_scope`. -/
structure EmbeddingScope where
  tenantId : Id
  toolVersionId : Id
  embeddingModel : String
  embeddingDimensions : Int
deriving DecidableEq

def ToolSearchEmbedding.scope (self : ToolSearchEmbedding) : EmbeddingScope where
  tenantId := self.val.tenantId
  toolVersionId := self.val.toolVersionId
  embeddingModel := self.val.embeddingModel
  embeddingDimensions := self.val.embeddingDimensions

/-! ## The table -/

abbrev EmbeddingTable := Table ToolSearchEmbedding.scope

/-- The committed embeddings. Their identifiers are the primary key. -/
structure ToolSearchIndex where
  embeddings : EmbeddingTable
  uniqueIds : (embeddings.rows.map (·.val.id)).Nodup

namespace ToolSearchIndex

/-- Changed rows: the database checks the primary key. -/
def flush (embeddings : EmbeddingTable) : Except Exc ToolSearchIndex :=
  if h : (embeddings.rows.map (·.val.id)).Nodup then .ok ⟨embeddings, h⟩
  else .error (.integrityError "pk_tool_search_embedding")

theorem flush_eq_ok {embeddings : EmbeddingTable} {index : ToolSearchIndex} :
    flush embeddings = .ok index ↔ index.embeddings = embeddings := by
  unfold flush
  constructor
  · intro h
    split at h
    · cases h
      rfl
    · cases h
  · rintro rfl
    rw [dif_pos index.uniqueIds]

/-- The digest of the source that a version is indexed by. -/
def digests (self : ToolSearchIndex) (scope : EmbeddingScope) : Option String :=
  (self.embeddings.find? scope).map (·.val.sourceDigest)

end ToolSearchIndex

/-- Some sources were written to the index, and no other row was touched. -/
structure Written {ι : Type} (src : Sources ι EmbeddingScope String) (part : List ι)
    (index index' : ToolSearchIndex) : Prop where
  digests : index'.digests = src.write index.digests part
  others : ∀ scope ∉ part.map src.key,
    index'.embeddings.find? scope = index.embeddings.find? scope

namespace Written

variable {ι : Type} {src : Sources ι EmbeddingScope String} {part part' : List ι}
  {index index' index'' : ToolSearchIndex}

theorem refl : Written src [] index index := ⟨rfl, fun _ _ => rfl⟩

theorem trans (h : Written src part index index') (h' : Written src part' index' index'') :
    Written src (part ++ part') index index'' where
  digests := by rw [h'.digests, h.digests, Sources.write_append]
  others scope hscope := by
    rw [List.map_append, List.mem_append, not_or] at hscope
    rw [h'.others scope hscope.2, h.others scope hscope.1]

theorem congr {ι' : Type} {src' : Sources ι' EmbeddingScope String} {part' : List ι'}
    (h : Written src part index index')
    (heq : part'.map (fun d => (src'.key d, src'.digest d)) =
      part.map fun d => (src.key d, src.digest d)) : Written src' part' index index' where
  digests := by rw [h.digests, src.write_congr heq]
  others scope hscope := by
    have hkeys := congrArg (List.map Prod.fst) heq
    simp only [List.map_map, Function.comp_def] at hkeys
    exact h.others scope (hkeys ▸ hscope)

end Written

/-- The embeddings as sources: each is kept under its scope. -/
def embeddingSources : Sources ToolSearchEmbedding EmbeddingScope String where
  key := ToolSearchEmbedding.scope
  digest := (·.val.sourceDigest)

/-- A row that replaces or joins the others is found under its scope. -/
theorem written_of_find? {embedding : ToolSearchEmbedding} {index index' : ToolSearchIndex}
    (row : ToolSearchEmbedding)
    (hfind : index'.embeddings.find? embedding.scope = some row)
    (hdigest : row.val.sourceDigest = embedding.val.sourceDigest)
    (hothers : ∀ scope ≠ embedding.scope,
      index'.embeddings.find? scope = index.embeddings.find? scope) :
    Written embeddingSources [embedding] index index' where
  digests := by
    funext scope
    rw [Sources.write_cons, Sources.write_nil, Function.update_apply]
    change (index'.embeddings.find? scope).map (·.val.sourceDigest) =
      if scope = embedding.scope then some embedding.val.sourceDigest
      else (index.embeddings.find? scope).map (·.val.sourceDigest)
    split
    · next hscope => rw [hscope, hfind, Option.map_some, hdigest]
    · next hscope => rw [hothers scope hscope]
  others scope hscope := hothers scope fun h => hscope (h ▸ List.mem_singleton_self _)

/-- What the column `VECTOR` keeps of a vector, unless it refuses its values. -/
class VectorColumn where
  store : EmbeddingVector → Option EmbeddingVector

namespace SqlAlchemyToolSearchEmbeddingRepository

/-- `list_by_tool_versions`. -/
def listByToolVersions (index : ToolSearchIndex) (tenantId : Id) (toolVersionIds : List Id)
    (embeddingModel : String) (embeddingDimensions : Int) : List ToolSearchEmbedding :=
  if toolVersionIds = [] then []
  else index.embeddings.rows.filter fun row =>
    row.val.tenantId = tenantId ∧ row.val.toolVersionId ∈ toolVersionIds ∧
      row.val.embeddingModel = embeddingModel ∧ row.val.embeddingDimensions = embeddingDimensions

/-- `{embedding.tool_version_id: embedding for embedding in embeddings}`, of which the last
    embedding of a version is kept. -/
def byToolVersion (embeddings : List ToolSearchEmbedding) (toolVersionId : Id) :
    Option ToolSearchEmbedding :=
  embeddings.reverse.find? (·.val.toolVersionId = toolVersionId)

/-- The dictionary has the row of each version in question. -/
theorem byToolVersion_listByToolVersions {index : ToolSearchIndex} {tenantId toolVersionId : Id}
    {toolVersionIds : List Id} {embeddingModel : String} {embeddingDimensions : Int}
    (h : toolVersionId ∈ toolVersionIds) :
    byToolVersion (listByToolVersions index tenantId toolVersionIds embeddingModel
      embeddingDimensions) toolVersionId =
        index.embeddings.find? ⟨tenantId, toolVersionId, embeddingModel, embeddingDimensions⟩ := by
  have hne : toolVersionIds ≠ [] := List.ne_nil_of_mem h
  have hmem {row : ToolSearchEmbedding} :
      row ∈ listByToolVersions index tenantId toolVersionIds embeddingModel embeddingDimensions ↔
        row ∈ index.embeddings ∧ row.val.tenantId = tenantId ∧
          row.val.toolVersionId ∈ toolVersionIds ∧ row.val.embeddingModel = embeddingModel ∧
            row.val.embeddingDimensions = embeddingDimensions := by
    rw [listByToolVersions, if_neg hne, List.mem_filter, decide_eq_true_eq, Table.mem_rows]
  unfold byToolVersion
  generalize listByToolVersions index tenantId toolVersionIds embeddingModel
    embeddingDimensions = listed at hmem
  cases hfound : index.embeddings.find?
      ⟨tenantId, toolVersionId, embeddingModel, embeddingDimensions⟩ with
  | none =>
    rw [List.find?_eq_none]
    intro row hrow
    obtain ⟨hrow, rfl, -, rfl, rfl⟩ := hmem.1 (List.mem_reverse.1 hrow)
    rw [decide_eq_true_eq]
    rintro rfl
    exact Table.find?_eq_none.1 hfound row hrow rfl
  | some row =>
    obtain ⟨hrow, hscope⟩ := Table.find?_eq_some.1 hfound
    cases hscope
    -- The scope is a key, so whichever row of the version comes last is this one.
    have hlisted : row ∈ listed.reverse := List.mem_reverse.2 (hmem.2 ⟨hrow, rfl, h, rfl, rfl⟩)
    cases hfind : listed.reverse.find? fun e => e.val.toolVersionId = row.val.toolVersionId with
    | none =>
      have hnone := List.find?_eq_none.1 hfind row hlisted
      simp at hnone
    | some row' =>
      obtain ⟨hrow', htenant, -, hmodel, hdimensions⟩ :=
        hmem.1 (List.mem_reverse.1 (List.mem_of_find?_eq_some hfind))
      have hversion : row'.val.toolVersionId = row.val.toolVersionId := by
        simpa using List.find?_some hfind
      have hsame : row'.scope = row.scope := by
        unfold ToolSearchEmbedding.scope
        rw [htenant, hversion, hmodel, hdimensions]
      rw [Table.eq_of_key_eq hrow' hrow hsame]

section

variable [VectorColumn]

/-- One row of the statement, after those whose scopes are given. The row is kept as
    `embedding_from_model` reads it back. -/
def upsertRow (written : List EmbeddingScope × ToolSearchIndex) (embedding : ToolSearchEmbedding) :
    Except Exc (List EmbeddingScope × ToolSearchIndex) := do
  raiseIf (embedding.val.embeddingModel.length > 256) (.other "DBAPIError")
  raiseIf (embedding.val.embeddingDimensions ≠ 2048) (.integrityError "dimensions")
  raiseIf (embedding.scope ∈ written.1) (.other "CardinalityViolationError")
  let vector ← (VectorColumn.store embedding.val.vector).elim (.error (.other "DBAPIError")) .ok
  match written.2.embeddings.find? embedding.scope with
  | some row => do
    let updated ← construct { row.val with
      sourceDigest := embedding.val.sourceDigest
      vector := vector
      indexedAt := embedding.val.indexedAt }
    let index ← ToolSearchIndex.flush
      (written.2.embeddings.modify embedding.scope fun _ => updated)
    return (embedding.scope :: written.1, index)
  | none => do
    let inserted ← construct { embedding.val with vector := vector }
    let index ← ToolSearchIndex.flush (written.2.embeddings.insert inserted)
    return (embedding.scope :: written.1, index)

/-- `upsert_many`. -/
def upsertMany (tenantId : Id) (embeddings : List ToolSearchEmbedding) (index : ToolSearchIndex) :
    Except Exc ToolSearchIndex :=
  if embeddings = [] then .ok index
  else do
    raiseIf (∃ embedding ∈ embeddings, embedding.val.tenantId ≠ tenantId)
      (.nexus .tenantBoundaryViolation "tool embedding crossed tenant boundary")
    let written ← embeddings.foldlM upsertRow ([], index)
    return written.2

theorem upsertRow_eq_ok {written written' : List EmbeddingScope × ToolSearchIndex}
    {embedding : ToolSearchEmbedding} (h : upsertRow written embedding = .ok written') :
    Written embeddingSources [embedding] written.2 written'.2 := by
  simp only [upsertRow, raiseIf_bind_eq_ok] at h
  obtain ⟨-, -, -, h⟩ := h
  obtain ⟨vector, -, h⟩ := bind_eq_ok.1 h
  split at h
  · next row hrow =>
    obtain ⟨(updated : ToolSearchEmbedding), hupdated, h⟩ := bind_eq_ok.1 h
    obtain ⟨index, hindex, h⟩ := bind_eq_ok.1 h
    cases h
    rw [ToolSearchIndex.flush_eq_ok] at hindex
    have hval := val_of_construct hupdated
    have hscope : updated.scope = embedding.scope := by
      rw [← Table.key_of_find? hrow]
      unfold ToolSearchEmbedding.scope
      rw [hval]
    refine written_of_find? updated ?_ (by rw [hval]) fun scope hne => ?_
    · rw [hindex, Table.find?_modify_self hrow hscope]
    · rw [hindex, Table.find?_modify_ne hne]
  · next hnone =>
    obtain ⟨(inserted : ToolSearchEmbedding), hinserted, h⟩ := bind_eq_ok.1 h
    obtain ⟨index, hindex, h⟩ := bind_eq_ok.1 h
    cases h
    rw [ToolSearchIndex.flush_eq_ok] at hindex
    have hval := val_of_construct hinserted
    have hscope : inserted.scope = embedding.scope := by
      unfold ToolSearchEmbedding.scope
      rw [hval]
    rw [← hscope] at hnone
    refine written_of_find? inserted ?_ (by rw [hval]) fun scope hne => ?_
    · rw [hindex, ← hscope, Table.find?_insert_self hnone]
    · rw [hindex, Table.find?_insert_ne (hscope ▸ hne.symm)]

theorem foldlM_upsertRow {embeddings : List ToolSearchEmbedding}
    {written written' : List EmbeddingScope × ToolSearchIndex}
    (h : embeddings.foldlM upsertRow written = .ok written') :
    Written embeddingSources embeddings written.2 written'.2 := by
  induction embeddings generalizing written with
  | nil =>
    cases h
    exact .refl
  | cons embedding embeddings ih =>
    rw [List.foldlM_cons] at h
    obtain ⟨between, hrow, hrest⟩ := bind_eq_ok.1 h
    exact (upsertRow_eq_ok hrow).trans (ih hrest)

theorem upsertMany_eq_ok {tenantId : Id} {embeddings : List ToolSearchEmbedding}
    {index index' : ToolSearchIndex} (h : upsertMany tenantId embeddings index = .ok index') :
    Written embeddingSources embeddings index index' := by
  unfold upsertMany at h
  split at h
  · next hnil =>
    cases h
    subst hnil
    exact .refl
  · simp only [raiseIf_bind_eq_ok] at h
    obtain ⟨-, h⟩ := h
    obtain ⟨written, hwritten, h⟩ := bind_eq_ok.1 h
    cases h
    exact foldlM_upsertRow hwritten

end

end SqlAlchemyToolSearchEmbeddingRepository

end NexusMcp
