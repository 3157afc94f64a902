-- SUMMARY: The runs of the catalogue commands: what holds in each committed state, and of the publications.
import NexusMcp.Catalog.Invariants
import NexusMcp.Toolsets.Revisions
import NexusMcp.Networking.Egress

/-!
# Runs of the Catalogue

The commands run concurrently from a catalogue that has upstreams only. A publication is
a commit after which a version is published that was not published before it.
-/

namespace NexusMcp

open Net (Unicode)
open Txn (Commit SerialWorld Table)

/-! ## The committed states -/

/-- No tool, version, binding, operation or job is there yet. -/
structure CatalogTables.Empty (c : CatalogTables) : Prop where
  tools : c.tools = .empty
  versions : c.versions = .empty
  bindings : c.bindings = .empty
  operations : c.operations = .empty
  jobs : c.jobs = .empty

/-- What is promised of a committed state. -/
structure CatalogCoherent [Sha256] (c : CatalogTables) : Prop where
  onePublished : ∀ v ∈ c.versions, ∀ w ∈ c.versions, v.val.toolId = w.val.toolId →
    v.val.status = .published → w.val.status = .published → v = w
  bound : ∀ v ∈ c.versions, ∃ b ∈ c.bindings, b.val.toolVersionId = v.val.id
  statuses : ∀ v ∈ c.versions, ∀ b ∈ c.bindings, b.val.toolVersionId = v.val.id →
    (v.val.status = .published ↔ b.val.status = .published) ∧
      (v.val.status = .retired ↔ b.val.status = .disabled) ∧
      (v.val.status = .draft ∨ v.val.status = .review ↔ b.val.status = .draft)
  active : ∀ t ∈ c.tools, t.val.status = .active ↔
    ∃ v ∈ c.versions, v.val.toolId = t.val.id ∧ v.val.status = .published
  tenants : ∀ v ∈ c.versions, ∀ b ∈ c.bindings, b.val.toolVersionId = v.val.id →
    (∃ t ∈ c.tools, t.val.id = v.val.toolId ∧ t.val.tenantId = v.val.tenantId) ∧
      b.val.tenantId = v.val.tenantId ∧
      ∃ u ∈ c.upstreams, u.val.id = b.val.upstreamServiceId ∧ u.val.tenantId = b.val.tenantId
  schemaDigests : c.SchemaDigests
  bindingDigests : c.BindingDigests
  numbered : c.Numbered

section Invariant

variable [Sha256] {c c' : CatalogTables}

theorem CatalogInvariant.coherent (hinv : CatalogInvariant c) : CatalogCoherent c where
  onePublished _ hv _ hw htool hvp hwp := c.version_eq_of_published hv hw hvp hwp htool
  bound v hv := by
    obtain ⟨b, hb, hversion, -⟩ := hinv.paired v hv
    exact ⟨b, hb, hversion⟩
  statuses v hv b hb hversion := by
    obtain ⟨b', hb', hversion', -, hstatus⟩ := hinv.paired v hv
    obtain rfl : b' = b := c.binding_eq_of_version hb' hb (hversion'.trans hversion.symm)
    rw [hstatus]
    cases v.val.status <;> simp [ToolVersionStatus.ofBinding]
  active := hinv.active
  tenants v hv b hb hversion := by
    obtain ⟨b', hb', hversion', htenant, -⟩ := hinv.paired v hv
    obtain rfl : b' = b := c.binding_eq_of_version hb' hb (hversion'.trans hversion.symm)
    exact ⟨hinv.tooled v hv, htenant, hinv.upstreamed b' hb'⟩
  schemaDigests := hinv.schemaDigests
  bindingDigests := hinv.bindingDigests
  numbered := hinv.numbered

theorem CatalogTables.Empty.invariant (h : c.Empty) : CatalogInvariant c where
  paired v hv := by
    rw [h.versions] at hv
    exact absurd hv Table.not_mem_empty
  owned b hb := by
    rw [h.bindings] at hb
    exact absurd hb Table.not_mem_empty
  upstreamed b hb := by
    rw [h.bindings] at hb
    exact absurd hb Table.not_mem_empty
  tooled v hv := by
    rw [h.versions] at hv
    exact absurd hv Table.not_mem_empty
  active t ht := by
    rw [h.tools] at ht
    exact absurd ht Table.not_mem_empty
  schemaDigests v hv := by
    rw [h.versions] at hv
    exact absurd hv Table.not_mem_empty
  bindingDigests b hb := by
    rw [h.bindings] at hb
    exact absurd hb Table.not_mem_empty
  numbered toolId := by
    unfold CatalogTables.numbersOf
    rw [h.versions]
    exact .nil

end Invariant

/-! ## Publications -/

section Publications

variable {Pid : Type}

/-- The numbers of the versions of a tool that a commit published. -/
def publishedBy (toolId : Id) (commit : Commit CatalogTables Pid) : List Nat :=
  (commit.after.versions.rows.filter fun v =>
    v.val.toolId = toolId ∧ v.val.status = .published ∧
      ∀ w ∈ commit.before.versions.rows, w.val.id = v.val.id → w.val.status ≠ .published).map
    (·.val.version)

/-- The numbers of the versions ever published for a tool, the oldest publication first. -/
def publications (toolId : Id) (commits : List (Commit CatalogTables Pid)) : List Nat :=
  commits.reverse.flatMap (publishedBy toolId)

theorem publications_cons {toolId : Id} {commit : Commit CatalogTables Pid}
    {commits : List (Commit CatalogTables Pid)} :
    publications toolId (commit :: commits) =
      publications toolId commits ++ publishedBy toolId commit := by
  simp [publications]

theorem mem_publishedBy {toolId : Id} {commit : Commit CatalogTables Pid} {n : Nat} :
    n ∈ publishedBy toolId commit ↔ ∃ v ∈ commit.after.versions, (v.val.toolId = toolId ∧
      v.val.status = .published ∧ ∀ w ∈ commit.before.versions, w.val.id = v.val.id →
        w.val.status ≠ .published) ∧ v.val.version = n := by
  simp only [publishedBy, List.mem_map, List.mem_filter, decide_eq_true_eq, and_assoc,
    Txn.Table.mem_rows]

/-- A commit publishes at most one version of a tool. -/
theorem publishedBy_pairwise (toolId : Id) (commit : Commit CatalogTables Pid) :
    (publishedBy toolId commit).Pairwise (· < ·) := by
  unfold publishedBy
  rw [List.pairwise_map]
  apply ((CatalogTables.pairwise_of_table commit.after.versions).filter _).imp_of_mem
  intro v w hv hw hne
  obtain ⟨hv, hvp⟩ := List.mem_filter.1 hv
  obtain ⟨hw, hwp⟩ := List.mem_filter.1 hw
  rw [decide_eq_true_eq] at hvp hwp
  have hsame := commit.after.version_eq_of_published hv hw hvp.2.1 hwp.2.1
    (hvp.1.trans hwp.1.symm)
  exact absurd (by rw [hsame]) hne

/-- Every number published so far is at most that of the version that is published now. -/
def PublishedUpTo (c : CatalogTables) (toolId : Id) (numbers : List Nat) : Prop :=
  ∀ n ∈ numbers, ∃ v ∈ c.versions, v.val.toolId = toolId ∧ v.val.status = .published ∧
    n ≤ v.val.version

variable {toolId : Id} {commit : Commit CatalogTables Pid} {numbers : List Nat}

/-- What a commit publishes is greater than what was published before it. -/
theorem lt_of_mem_publishedBy (hsucceeds : Succeeds commit.before commit.after)
    (h : PublishedUpTo commit.before toolId numbers) :
    ∀ n ∈ numbers, ∀ m ∈ publishedBy toolId commit, n < m := by
  intro n hn m hm
  obtain ⟨v, hv, ⟨htool, hpublished, hnew⟩, rfl⟩ := mem_publishedBy.1 hm
  obtain ⟨w, hw, hwtool, hwpublished, hle⟩ := h n hn
  obtain ⟨w', hw', hwtool', hwpublished', hnumber⟩ := hsucceeds w hw hwpublished
  obtain rfl : w' = v := commit.after.version_eq_of_published hw' hv hwpublished' hpublished
    (hwtool'.trans (hwtool.trans htool.symm))
  rcases hnumber with ⟨hid, -⟩ | hlt
  · exact absurd hwpublished (hnew w hw hid.symm)
  · exact hle.trans_lt hlt

theorem PublishedUpTo.after_commit (hsucceeds : Succeeds commit.before commit.after)
    (h : PublishedUpTo commit.before toolId numbers) :
    PublishedUpTo commit.after toolId (numbers ++ publishedBy toolId commit) := by
  intro n hn
  rcases List.mem_append.1 hn with hn | hn
  · obtain ⟨w, hw, hwtool, hwpublished, hle⟩ := h n hn
    obtain ⟨w', hw', hwtool', hwpublished', hnumber⟩ := hsucceeds w hw hwpublished
    refine ⟨w', hw', hwtool'.trans hwtool, hwpublished', hle.trans ?_⟩
    rcases hnumber with ⟨-, heq⟩ | hlt
    · exact heq.ge
    · exact hlt.le
  · obtain ⟨v, hv, ⟨htool, hpublished, -⟩, rfl⟩ := mem_publishedBy.1 hn
    exact ⟨v, hv, htool, hpublished, le_rfl⟩

/-- Over a history, newer publications have greater numbers. -/
theorem publications_pairwise {c c' : CatalogTables} {commits : List (Commit CatalogTables Pid)}
    (hlinked : SerialWorld.Linked c commits c')
    (hsucceeds : ∀ commit ∈ commits, Succeeds commit.before commit.after) (toolId : Id) :
    (publications toolId commits).Pairwise (· < ·) ∧
      PublishedUpTo c' toolId (publications toolId commits) := by
  induction commits generalizing c' with
  | nil => exact ⟨.nil, fun n hn => absurd hn List.not_mem_nil⟩
  | cons commit earlier ih =>
    obtain ⟨rfl, hearlier⟩ := hlinked
    rw [List.forall_mem_cons] at hsucceeds
    obtain ⟨hpairwise, hupTo⟩ := ih hearlier hsucceeds.2
    rw [publications_cons]
    constructor
    · exact List.pairwise_append.2 ⟨hpairwise, publishedBy_pairwise toolId commit,
        lt_of_mem_publishedBy hsucceeds.1 hupTo⟩
    · exact hupTo.after_commit hsucceeds.1

end Publications

/-! ## Runs -/

section Runs

variable [Sha256] [Unicode] {Pid : Type}

/-- The catalogue before any of the commands has run. -/
def catalogWorld (commands : Pid → CatalogCommand) (c : CatalogTables) :
    SerialWorld CatalogTables Exc Pid (fun p => (commands p).Result) :=
  .start c fun p => (commands p).program

/-- Every committed state is coherent, and the version numbers published for a tool increase. -/
theorem catalog_coherent (Fault : Exc → Prop) (commands : Pid → CatalogCommand)
    {c : CatalogTables} (hempty : c.Empty)
    {w : SerialWorld CatalogTables Exc Pid (fun p => (commands p).Result)}
    (hreaches : SerialWorld.Reaches Fault (catalogWorld commands c) w) :
    CatalogCoherent w.store ∧
      ∀ toolId, (publications toolId w.commits).Pairwise (· < ·) := by
  have hwithin := SerialWorld.within_of_reaches
    (fun p => (commands p).program_commits) hreaches
  obtain ⟨hlast, hbefore⟩ := hwithin.linked.invariant hempty.invariant fun commit hcommit hinv =>
    hinv.command (hwithin.commits commit hcommit)
  have hsucceeds : ∀ commit ∈ w.commits, Succeeds commit.before commit.after :=
    fun commit hcommit =>
      Succeeds.of_command (hbefore commit hcommit) (hwithin.commits commit hcommit)
  exact ⟨hlast.coherent, fun toolId => (publications_pairwise hwithin.linked hsucceeds toolId).1⟩

end Runs

section Orders

attribute [local instance] zeroSha256 asciiUnicode

def adminContext : ActorContext := ⟨"r", "t", "tenant-1", "admin-1", "token", "admin_user"⟩

def orderService : UpstreamService :=
  ⟨{ id := "upstream-1"
     tenantId := "tenant-1"
     namespaceName := "orders"
     name := "Orders"
     description := none
     owner := "team"
     serviceType := .http
     transportType := "http"
     endpoint := "https://orders.internal"
     protocolMin := none
     protocolMax := none
     authScheme := none
     config := []
     status := .active }, by decide +kernel⟩

/-- An upstream is registered and nothing is imported yet. -/
def registeredCatalog : CatalogTables where
  tools := .empty
  versions := .empty
  bindings := .empty
  upstreams := ⟨[orderService], by decide⟩
  operations := .empty
  jobs := .empty
  unique := by decide

/-- A document with one operation. -/
def orderDocument : ParsedOpenApiDocument where
  openapiVersion := "3.0.3"
  operations := [{
    operationKey := "get /orders"
    operationId := some "listOrders"
    method := "get"
    path := "/orders"
    normalizedOperation := [("tool_input_schema", .obj [("type", .str "object")]),
      ("parameters", .arr []), ("side_effect", .str "read_only")]
    generatedToolName := some "orders.list"
    conflictStatus := .none }]

def orderImport : ImportOpenApi where
  documentReader ref := .ok ⟨ref, "digest", []⟩
  parser _ _ _ := .ok orderDocument
  jobId := "job-1"
  operationId i := "operation-" ++ toString i
  createdAt := 1
  completedAt := 2
  failedAt := 2

/-- The tool of the document is imported, then published, then its upstream is disabled. -/
def orderCommands : Fin 3 → CatalogCommand
  | 0 => .importOpenApi orderImport
    { context := adminContext, upstreamServiceId := "upstream-1", sourceRef := "orders.json" }
  | 1 => .directPublishImportedOperation ⟨"tool-1", "version-1", "binding-1", 3, 3⟩ 4
    { context := adminContext, operationId := "operation-0", owner := "team" }
  | 2 => .disableUpstream { context := adminContext, upstreamServiceId := "upstream-1" }

/-- The commands have run in this order, each on its own. -/
def orderWorld (order : List (Fin 3)) :
    SerialWorld CatalogTables Exc (Fin 3) (fun p => (orderCommands p).Result) :=
  (catalogWorld orderCommands registeredCatalog).runInOrder order

theorem registeredCatalog_empty : registeredCatalog.Empty := ⟨rfl, rfl, rfl, rfl, rfl⟩

theorem catalog_coherent_orders : CatalogCoherent (orderWorld [0, 1]).store ∧
    (publications "tool-1" (orderWorld [0, 1]).commits).Pairwise (· < ·) := by
  have h := catalog_coherent (fun _ => False) orderCommands registeredCatalog_empty
    (SerialWorld.reaches_runInOrder (catalogWorld orderCommands registeredCatalog) [0, 1])
  exact ⟨h.1, h.2 "tool-1"⟩

/-- The run publishes the first version of the tool. -/
example : publications "tool-1" (orderWorld [0, 1]).commits = [1] := by decide +kernel

end Orders

end NexusMcp
