import NexusMcp.Txn.Table
import NexusMcp.Txn.World
import NexusMcp.Txn.Within
import NexusMcp.Shared.Json
import NexusMcp.Approval.Domain
import NexusMcp.Audit.Domain
import NexusMcp.Execution.Domain
import NexusMcp.Policy.Domain
import NexusMcp.Credentials.Domain
import NexusMcp.Execution.Store
import NexusMcp.Execution.Lifecycle
import NexusMcp.Execution.Ledger
import NexusMcp.Execution.Contract
import NexusMcp.Execution.Transactions
import NexusMcp.Execution.Planning
import NexusMcp.Execution.RetryingExecutor
import NexusMcp.Execution.CallTool
import NexusMcp.Execution.Commands
import NexusMcp.Execution.Guarantees
import NexusMcp.Toolsets.Domain
import NexusMcp.Toolsets.Repository
import NexusMcp.Toolsets.UseCases
import NexusMcp.Toolsets.Revisions
import NexusMcp.Toolsets.Replacement
import NexusMcp.Toolsets.Bootstrap
import NexusMcp.Connectors.Domain
import NexusMcp.Registry.Domain
import NexusMcp.Catalog.Tables
import NexusMcp.Catalog.Search
import NexusMcp.Toolsets.CatalogReader
import NexusMcp.ToolSearch.Domain
import NexusMcp.Toolsets.Runtime
import NexusMcp.OpenApi.Domain
import NexusMcp.Txn.Serial
import NexusMcp.Catalog.Store
import NexusMcp.Catalog.Publish
import NexusMcp.OpenApi.Review
import NexusMcp.Net.Text
import NexusMcp.Net.IpAddress
import NexusMcp.Net.Url
import NexusMcp.Networking.Egress
import NexusMcp.Registry.UseCases
import NexusMcp.OpenApi.Import
import NexusMcp.Catalog.Effects
import NexusMcp.Catalog.Commands
import NexusMcp.Catalog.Invariants
import NexusMcp.Catalog.Runs
import NexusMcp.Execution.Resolver
import NexusMcp.Catalog.Discovery
import NexusMcp.Net.UrlForm
import NexusMcp.Net.Replace
import NexusMcp.Networking.Contacted
import NexusMcp.Execution.HttpxExecutor
import NexusMcp.Execution.PathStructure
import NexusMcp.Txn.SerialOrder
import NexusMcp.Toolsets.SqlRepository
import NexusMcp.Toolsets.Concurrency
import NexusMcp.Approval.Times
import NexusMcp.Execution.ArgumentOrder
import NexusMcp.Execution.RetryDiscipline
import NexusMcp.Execution.TrustedHeaders
import NexusMcp.Execution.WireEncoding
import NexusMcp.Execution.WriteOutcome
import NexusMcp.OpenApi.ImportRuns
import NexusMcp.OpenApi.SchemaMeaning
import NexusMcp.OpenApi.SchemaResolution
import NexusMcp.ToolSearch.JobRuns
import NexusMcp.Txn.Locking
import NexusMcp.Catalog.RowLocks
import NexusMcp.Catalog.LockOrder
import NexusMcp.Select.Top
import NexusMcp.Shared.RuleTarget
import NexusMcp.Policy.RuleBased
import NexusMcp.Credentials.Resolver
import NexusMcp.Num.Binary
import NexusMcp.ToolSearch.SiliconFlow
import NexusMcp.ToolSearch.VectorDecoding
import NexusMcp.Batch.Slices
import NexusMcp.Txn.Lasting
import NexusMcp.Projection.Digests
import NexusMcp.ToolSearch.DocumentBuilder
import NexusMcp.ToolSearch.EmbeddingIndex
import NexusMcp.ToolSearch.Reindex
import NexusMcp.ToolSearch.ReindexRuns
import NexusMcp.ToolSearch.Convergence
import NexusMcp.ToolSearch.JobBatches
import NexusMcp.ToolSearch.RankFusion
import NexusMcp.Select.FirstAllowed
import NexusMcp.ToolSearch.HybridSearch
import NexusMcp.ToolSearch.SearchTools
import NexusMcp.Coding.ReadBack
import NexusMcp.Shared.CanonicalJson
import NexusMcp.Execution.PayloadDigests
import NexusMcp.OpenApi.ReferenceWalk
import NexusMcp.OpenApi.ParsedOperations
import NexusMcp.Execution.GovernanceOrder
import NexusMcp.Execution.Conclusion
import NexusMcp.Execution.Stranding
import NexusMcp.Execution.RetriedCalls
import NexusMcp.Execution.DeliveredCalls
import NexusMcp.Execution.RetryVerdict
import NexusMcp.Execution.AttemptCoherence
import NexusMcp.OpenApi.DraftOperation
import NexusMcp.OpenApi.ArgumentNames
import NexusMcp.OpenApi.PlaceholderCoverage
import NexusMcp.Catalog.DirectPublish
import NexusMcp.Registry.Runs
import NexusMcp.Mcp.Approvals
import NexusMcp.Mcp.Answers
import NexusMcp.Mcp.Endpoints
import NexusMcp.Mcp.Identity
import NexusMcp.ControlPlane.Listings
