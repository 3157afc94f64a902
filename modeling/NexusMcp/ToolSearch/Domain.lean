-- SUMMARY: The result of a tool search, with the diagnostics of its hits.
import NexusMcp.Catalog.Search

/-! # Tool Search Results -/

namespace NexusMcp

inductive ToolRetrievalMode where
  | lexical
  | hybrid
deriving Repr, DecidableEq

inductive ScoreKind where
  | fts
  | rrf
deriving Repr, DecidableEq

structure ToolSearchHitDiagnostics where
  scoreKind : ScoreKind
  lexicalRank : Option Nat := none
  lexicalScore : Option Rat := none
  vectorRank : Option Nat := none
  vectorCosineSimilarity : Option Rat := none
  rrfScore : Option Rat := none

/-- The diagnostics are a dictionary by version identifier. -/
structure SearchToolsResult where
  hits : List PublishedToolSearchHit
  retrievalMode : ToolRetrievalMode
  indexVersion : Option String := none
  diagnostics : Option (List (Id × ToolSearchHitDiagnostics)) := none

end NexusMcp
