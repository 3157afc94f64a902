-- SUMMARY: The text search over the published tools of the catalogue.
import NexusMcp.Catalog.Tables
import Mathlib.Data.Rat.Defs
import Mathlib.Order.Basic
import Mathlib.Algebra.Order.Ring.Rat

/-!
# Published Tool Search

The full text index is a parameter: it says which version matches a text, and how
well. A rank is the rational number that the database's float denotes.
-/

namespace NexusMcp

structure PublishedToolSearchHit where
  tool : PublishedTool
  rank : Rat

/-- The full text index: `search_vector @@ websearch_to_tsquery` with `ts_rank_cd`. -/
class TextIndex where
  rank : Tool → ToolVersion → String → Option Rat

/-! ## The query -/

/-- What `search_published` takes beside the tenant and the text. -/
structure SearchFilter where
  visibilities : List ToolVisibility
  eligibleToolIds : Option (List Id)
  namespaceName : Option String
  sideEffect : Option ToolSideEffect

/-- The row of a published tool passes the filter. -/
def SearchFilter.Passes (filter : SearchFilter) (tool : Tool) (version : ToolVersion) : Prop :=
  version.val.visibility ∈ filter.visibilities ∧
    (∀ ids ∈ filter.eligibleToolIds, tool.val.id ∈ ids) ∧
    (∀ name ∈ filter.namespaceName, tool.val.namespaceName = name) ∧
    ∀ sideEffect ∈ filter.sideEffect, version.val.sideEffect = sideEffect

instance (filter : SearchFilter) (tool : Tool) (version : ToolVersion) :
    Decidable (filter.Passes tool version) :=
  inferInstanceAs (Decidable (_ ∧ _))

/-- `ORDER BY rank DESC, canonical_name`. -/
def rankedBefore (h k : PublishedToolSearchHit) : Prop :=
  k.rank < h.rank ∨ (k.rank = h.rank ∧ h.tool.val.canonicalName ≤ k.tool.val.canonicalName)

instance : DecidableRel rankedBefore := fun _ _ => inferInstanceAs (Decidable (_ ∨ _))

/-- `search_published`. -/
def searchPublished [TextIndex] (c : CatalogTables) (tenantId : Id) (queryText : String)
    (filter : SearchFilter) (limit : Nat) : List PublishedToolSearchHit :=
  if filter.eligibleToolIds = some [] then []
  else
    let matching := (c.publishedRows tenantId).filterMap fun (tool, version) =>
      if filter.Passes tool version then
        (TextIndex.rank tool version queryText).map fun rank =>
          ({ tool := publishedToolFromModels tool version, rank := rank } :
            PublishedToolSearchHit)
      else none
    (matching.insertionSort rankedBefore).take limit

/-- A hit is a published tool of the tenant that passes the filter. -/
theorem mem_searchPublished [TextIndex] {c : CatalogTables} {tenantId : Id} {queryText : String}
    {filter : SearchFilter} {limit : Nat} {hit : PublishedToolSearchHit}
    (h : hit ∈ searchPublished c tenantId queryText filter limit) :
    ∃ tool version, (tool, version) ∈ c.publishedRows tenantId ∧ filter.Passes tool version ∧
      hit.tool = publishedToolFromModels tool version := by
  unfold searchPublished at h
  split at h
  · cases h
  · have hmem := (List.mem_insertionSort _).1 (List.mem_of_mem_take h)
    obtain ⟨⟨tool, version⟩, hrow, hmap⟩ := List.mem_filterMap.1 hmem
    dsimp only at hmap
    split at hmap
    · next hpasses =>
      obtain ⟨rank, -, rfl⟩ := Option.map_eq_some_iff.1 hmap
      exact ⟨tool, version, hrow, hpasses, rfl⟩
    · cases hmap

/-! ## The application query -/

structure SearchPublishedToolsQuery where
  context : ActorContext
  text : String
  limit : Int := 10
  namespaceName : Option String := none
  sideEffect : Option ToolSideEffect := none
  eligibleToolIds : Option (List Id) := none

/-- The visibilities a principal may search. -/
def searchVisibilities (principalId : String) : List ToolVisibility :=
  if principalId ≠ anonymousPrincipalId then [.public_, .authenticated] else [.public_]

/-- A principal may search exactly what is visible to it. -/
theorem mem_searchVisibilities {published : PublishedTool} {principalId : String} :
    published.val.visibility ∈ searchVisibilities principalId ↔
      published.isVisibleTo principalId = true := by
  unfold searchVisibilities PublishedTool.isVisibleTo
  cases published.val.visibility <;> split_ifs with h <;> simp [h]

/-- What `search_published` is called with. -/
structure SearchPublishedCall where
  tenantId : Id
  queryText : String
  filter : SearchFilter
  limit : Int

/-- `SearchPublishedTools.execute`, up to the call of its port. -/
def SearchPublishedTools.request (query : SearchPublishedToolsQuery) :
    Except Exc SearchPublishedCall := do
  let queryText := strip query.text
  raiseIf (queryText = "") (.nexus .invalidArguments "tool search text must not be blank")
  raiseIf (queryText.toList.length > 200)
    (.nexus .invalidArguments "tool search text must not exceed 200 characters")
  raiseIf (¬ (1 ≤ query.limit ∧ query.limit ≤ 50))
    (.nexus .invalidArguments "tool search limit must be between 1 and 50")
  let namespaceName := query.namespaceName.map strip
  raiseIf (namespaceName = some "")
    (.nexus .invalidArguments "tool search namespace must not be blank")
  return {
    tenantId := query.context.tenantId
    queryText := queryText
    filter := {
      visibilities := searchVisibilities query.context.principalId
      eligibleToolIds := query.eligibleToolIds
      namespaceName := namespaceName
      sideEffect := query.sideEffect }
    limit := query.limit }

/-- `SearchPublishedTools.execute`. -/
def SearchPublishedTools.execute [TextIndex] (c : CatalogTables)
    (query : SearchPublishedToolsQuery) : Except Exc (List PublishedToolSearchHit) := do
  let call ← request query
  return searchPublished c call.tenantId call.queryText call.filter call.limit.toNat

/-- A hit is a published tool of the tenant, visible to the principal and eligible. -/
theorem SearchPublishedTools.mem_execute [TextIndex] {c : CatalogTables}
    {query : SearchPublishedToolsQuery} {hits : List PublishedToolSearchHit}
    {hit : PublishedToolSearchHit} (h : execute c query = .ok hits) (hhit : hit ∈ hits) :
    hit.tool ∈ c.listPublishedByTenant query.context.tenantId ∧
      hit.tool.isVisibleTo query.context.principalId = true ∧
      ∀ ids ∈ query.eligibleToolIds, hit.tool.val.toolId ∈ ids := by
  obtain ⟨call, hcall, h⟩ := bind_eq_ok.1 h
  cases h
  simp only [request, raiseIf_bind_eq_ok] at hcall
  obtain ⟨-, -, -, -, hcall⟩ := hcall
  cases hcall
  obtain ⟨tool, version, hrow, ⟨hvisible, heligible, -⟩, htool⟩ := mem_searchPublished hhit
  refine ⟨CatalogTables.mem_listPublishedByTenant.2 ⟨tool, version, hrow, htool⟩, ?_, ?_⟩
  · rw [← mem_searchVisibilities, htool]
    exact hvisible
  · rw [htool]
    exact heligible

end NexusMcp
