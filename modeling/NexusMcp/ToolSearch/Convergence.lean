-- SUMMARY: The convergence of the reindexing, after whole, repeated, dry and failed runs.
import NexusMcp.ToolSearch.ReindexRuns
import NexusMcp.Toolsets.Revisions

/-!
# Convergence of the Reindexing

The catalogue does not change during the runs. What is pending is a matter of the digests alone,
so it can be compared with what the inspection reports.
-/

namespace NexusMcp

open Projection (Sources)
open SqlAlchemyToolSearchEmbeddingRepository

section

variable [Sha256] [PyStr] [VectorColumn] {tenantId : Id}

namespace ReindexTools

/-- The inspection that is configured like the reindexing. -/
def inspection (self : ReindexTools) (embeddingAvailable : Bool) : InspectToolSearchIndex where
  embeddingModel := self.val.embeddingModel
  embeddingDimensions := self.val.embeddingDimensions
  embeddingAvailable := embeddingAvailable

/-- The documents that a run has to write. -/
abbrev todo (self : ReindexTools) (command : ReindexToolsCommand) (s : ReindexState)
    (documents : List ToolSearchDocument) : List ToolSearchDocument :=
  self.sources.round command.force s.index.digests documents

/-- A run that is no dry run has returned: the index is up to date. -/
structure Completed (self : ReindexTools) (c : CatalogTables) (command : ReindexToolsCommand)
    (s s' : ReindexState) (result : ReindexToolsResult) (documents : List ToolSearchDocument) :
    Prop where
  built : publishedDocuments c command.context.tenantId = .ok documents
  inspected : ∀ embeddingAvailable, ∃ snapshot, (self.inspection embeddingAvailable).execute c
      s'.index command.context.tenantId = .ok snapshot ∧
    (snapshot.items.map (·.toolVersionId)).Perm
      ((c.listPublishedByTenant command.context.tenantId).map (·.val.toolVersionId)) ∧
    ∀ item ∈ snapshot.items, item.state = .current
  embedded : ∃ calls, s'.embedded = s.embedded ++ calls ∧
    calls.flatten = texts (self.todo command s documents) ∧ calls.length = result.batchCount
  once : ((self.todo command s documents).map (·.val.toolVersionId)).Nodup
  notCurrent : command.force = false → ∀ document ∈ self.todo command s documents,
    ¬ self.sources.Current s.index.digests document
  publishedCount :
    result.publishedCount = (c.listPublishedByTenant command.context.tenantId).length
  pendingCount : result.pendingCount = (self.todo command s documents).length
  currentCount : result.currentCount + result.pendingCount = result.publishedCount
  embeddedCount : result.embeddedCount = result.pendingCount
  batchCount : result.batchCount =
    (result.pendingCount + command.batchSize.toNat - 1) / command.batchSize.toNat
  again : ∀ command' : ReindexToolsCommand, command'.context.tenantId = command.context.tenantId →
    command'.force = false → 1 ≤ command'.batchSize ∧ command'.batchSize ≤ 64 →
      ∃ result', self.execute c command' s' = (.ok result', s') ∧
        result'.pendingCount = 0 ∧ result'.embeddedCount = 0

/-- A run has failed with a number of batches written, and one that was embedded in vain. -/
structure Interrupted (self : ReindexTools) (c : CatalogTables) (command : ReindexToolsCommand)
    (s s' : ReindexState) (calls : List (List String)) (documents : List ToolSearchDocument)
    (written : Nat) : Prop where
  built : publishedDocuments c command.context.tenantId = .ok documents
  attempts : calls.length = written + 1
  embedded : calls = ((Batch.slices command.batchSize.toNat
    (self.todo command s documents)).take (written + 1)).map texts
  persisted : Written self.sources
    ((self.todo command s documents).take (written * command.batchSize.toNat)) s.index s'.index
  rerun : ∀ (command' : ReindexToolsCommand) r s'',
    command'.context.tenantId = command.context.tenantId → command'.force = false →
      command'.dryRun = false → self.execute c command' s' = (r, s'') →
        let remaining := self.sources.pending s.index.digests
          ((self.todo command s documents).drop (written * command.batchSize.toNat))
        ∃ calls', s''.embedded = s'.embedded ++ calls' ∧ calls'.flatten <+: texts remaining ∧
          ∀ result, r = .ok result → calls'.flatten = texts remaining
  remaining : command.force = false → self.sources.pending s.index.digests
      ((self.todo command s documents).drop (written * command.batchSize.toNat)) =
    (self.todo command s documents).drop (written * command.batchSize.toNat)

/-- What is promised of a run, whatever the index held before. -/
structure Converges (self : ReindexTools) (c : CatalogTables) (command : ReindexToolsCommand)
    (s : ReindexState) : Prop where
  returned : ∀ result s', self.execute c command s = (.ok result, s') → command.dryRun = false →
    ∃ documents, self.Completed c command s s' result documents
  dryRun : ∀ result s', self.execute c command s = (.ok result, s') → command.dryRun = true →
    s' = s ∧ (command.force = false → ∀ embeddingAvailable, ∃ snapshot,
      (self.inspection embeddingAvailable).execute c s.index command.context.tenantId =
        .ok snapshot ∧
      result.currentCount = snapshot.currentCount ∧
      result.pendingCount = snapshot.missingCount + snapshot.staleCount)
  failed : ∀ e s' calls, self.execute c command s = (.error e, s') →
    s'.embedded = s.embedded ++ calls →
      (calls = [] ∧ s' = s) ∨
        ∃ documents written, self.Interrupted c command s s' calls documents written
  lastCall : ∀ provider r s' before call after e, self.val.embeddingProvider = some provider →
    self.execute c command s = (r, s') →
      s'.embedded = s.embedded ++ (before ++ call :: after) →
        provider.embed (s.embedded ++ before) call = .error e → r = .error e ∧ after = []

/-! ## The laws -/

variable {self : ReindexTools} {c : CatalogTables} {command : ReindexToolsCommand}
  {s s' : ReindexState} {documents : List ToolSearchDocument}

omit [Sha256] [PyStr] [VectorColumn] in
theorem flatten_map_texts (batches : List (List ToolSearchDocument)) :
    (batches.map texts).flatten = texts batches.flatten :=
  (List.map_flatten).symm

omit [VectorColumn] in
/-- Where nothing is pending, the inspection finds every version current. -/
theorem inspected_of_pending_nil (h : publishedDocuments c tenantId = .ok documents)
    {index : ToolSearchIndex} (hpending : self.sources.pending index.digests documents = [])
    (embeddingAvailable : Bool) :
    ∃ snapshot, (self.inspection embeddingAvailable).execute c index tenantId = .ok snapshot ∧
      (snapshot.items.map (·.toolVersionId)).Perm
        ((c.listPublishedByTenant tenantId).map (·.val.toolVersionId)) ∧
      ∀ item ∈ snapshot.items, item.state = .current := by
  obtain ⟨snapshot, hexecute, hitems, -⟩ :=
    (self.inspection embeddingAvailable).execute_of_documents index h
  refine ⟨snapshot, hexecute, ?_, fun item hitem => ?_⟩
  · have hversions := congrArg (List.map Prod.fst) hitems
    simp only [List.map_map, Function.comp_def] at hversions
    rw [hversions]
    exact publishedDocuments_versions h
  · have hmem := List.mem_map_of_mem (f := fun item : ToolSearchIndexItem =>
      (item.toolVersionId, item.state)) hitem
    rw [hitems] at hmem
    obtain ⟨document, hdocument, heq⟩ := List.mem_map.1 hmem
    rw [← (Prod.mk.inj heq).2, InspectToolSearchIndex.stateOf_eq_current]
    by_contra hcurrent
    exact List.ne_nil_of_mem (self.sources.mem_pending.2 ⟨hdocument, hcurrent⟩) hpending

/-- A run without pending documents changes nothing. -/
theorem execute_of_pending_nil (hsize : 1 ≤ command.batchSize ∧ command.batchSize ≤ 64)
    (h : publishedDocuments c command.context.tenantId = .ok documents)
    (hforce : command.force = false)
    (hpending : self.sources.pending s.index.digests documents = []) :
    ∃ result, self.execute c command s = (.ok result, s) ∧ result.pendingCount = 0 ∧
      result.embeddedCount = 0 := by
  have htodo : self.sources.round command.force s.index.digests documents = [] := by
    rw [hforce]
    exact hpending
  rw [execute_of_documents hsize h]
  dsimp only
  rw [htodo, if_pos (.inr rfl)]
  exact ⟨_, rfl, rfl, rfl⟩

theorem completed {result : ReindexToolsResult}
    (h : self.execute c command s = (.ok result, s')) (hdry : command.dryRun = false) :
    ∃ documents, self.Completed c command s s' result documents := by
  obtain ⟨e, he⟩ | ⟨hsize, documents, hdocuments⟩ := self.execute_cases c command s
  · rw [he] at h
    cases h
  have hpositive : 0 < command.batchSize.toNat := by omega
  have hnodup : (documents.map self.sources.key).Nodup := publishedDocuments_nodup hdocuments
  obtain ⟨done, rest, hslices, hwritten, ⟨rfl, hembedded, hresult⟩ | ⟨e, he, -⟩⟩ :=
    execute_run hsize hdocuments hdry h
  swap
  · cases he
  rw [List.append_nil] at hslices
  have hflatten : done.flatten = self.todo command s documents := by
    rw [← hslices, Batch.flatten_slices hpositive]
  -- The last slice is written, so no document is left that is not current.
  have hpending : self.sources.pending s'.index.digests documents = [] := by
    rw [hwritten.digests, hflatten]
    exact self.sources.pending_write_round hnodup
  have hlength : documents.length =
      (c.listPublishedByTenant command.context.tenantId).length := by
    have hversions := (publishedDocuments_versions hdocuments).length_eq
    rwa [List.length_map, List.length_map] at hversions
  cases hresult
  refine ⟨documents, {
    built := hdocuments
    inspected := inspected_of_pending_nil hdocuments hpending
    embedded := ⟨done.map texts, hembedded, by rw [flatten_map_texts, hflatten], by simp⟩
    once := ?_
    notCurrent := fun hforce document hmem => ?_
    publishedCount := hlength
    pendingCount := rfl
    currentCount := ?_
    embeddedCount := congrArg List.length hflatten
    batchCount := ?_
    again := fun command' htenant hforce hsize' => ?_ }⟩
  · exact ((publishedDocuments_versions hdocuments).nodup_iff.2
      (c.listPublishedByTenant_versions _)).sublist (self.sources.round_sublist.map _)
  · rw [todo, hforce] at hmem
    exact (self.sources.mem_pending.1 hmem).2
  · have hsublist : (self.todo command s documents).Sublist documents :=
      self.sources.round_sublist
    exact Nat.sub_add_cancel hsublist.length_le
  · change done.length = _
    rw [← hslices, Batch.length_slices]
    rfl
  · exact execute_of_pending_nil hsize' (by rwa [htenant]) hforce hpending

omit [Sha256] [PyStr] [VectorColumn] in
/-- Every item is in one of the three states. -/
theorem countP_states (items : List ToolSearchIndexItem) :
    items.countP (·.state = .current) +
      (items.countP (·.state = .missing) + items.countP (·.state = .stale)) = items.length := by
  induction items with
  | nil => rfl
  | cons item items ih =>
    simp only [List.countP_cons, List.length_cons]
    cases item.state <;> simp <;> omega

/-- The counts of a dry run are those of the inspection, if it is not forced. -/
theorem dryRun_counts {result : ReindexToolsResult}
    (h : self.execute c command s = (.ok result, s')) (hdry : command.dryRun = true) :
    s' = s ∧ (command.force = false → ∀ embeddingAvailable, ∃ snapshot,
      (self.inspection embeddingAvailable).execute c s.index command.context.tenantId =
        .ok snapshot ∧
      result.currentCount = snapshot.currentCount ∧
      result.pendingCount = snapshot.missingCount + snapshot.staleCount) := by
  obtain ⟨e, he⟩ | ⟨hsize, documents, hdocuments⟩ := self.execute_cases c command s
  · rw [he] at h
    cases h
  rw [execute_of_documents hsize hdocuments] at h
  dsimp only at h
  rw [if_pos (.inl hdry)] at h
  cases h
  refine ⟨rfl, fun hforce embeddingAvailable => ?_⟩
  obtain ⟨snapshot, hexecute, hitems, hcurrent, hmissing, hstale⟩ :=
    (self.inspection embeddingAvailable).execute_of_documents s.index hdocuments
  have hcount (state : ToolSearchIndexState) : snapshot.items.countP (·.state = state) =
      documents.countP fun document => InspectToolSearchIndex.stateOf document
        (s.index.embeddings.find? (self.sources.key document)) = state := by
    have hstates := congrArg (List.countP fun item => item.2 = state) hitems
    rw [List.countP_map, List.countP_map] at hstates
    exact hstates
  have hcurrent' : snapshot.currentCount =
      documents.countP fun document => self.sources.Current s.index.digests document := by
    rw [hcurrent, hcount]
    simp only [InspectToolSearchIndex.stateOf_eq_current]
  have hlength : documents.length = snapshot.items.length := by
    have hlengths := congrArg List.length hitems
    rw [List.length_map, List.length_map] at hlengths
    exact hlengths.symm
  -- Without force the documents that are not current are those left to do.
  have hpending : (self.todo command s documents).length + snapshot.currentCount =
      documents.length := by
    rw [hcurrent', todo, hforce, Nat.add_comm]
    have hsplit := documents.length_eq_countP_add_countP
      fun document => self.sources.Current s.index.digests document
    rw [hsplit]
    refine congrArg _ ?_
    unfold Sources.round Sources.pending
    rw [if_neg (by simp), List.countP_eq_length_filter]
    simp only [decide_eq_true_eq]
  have hstates := countP_states snapshot.items
  rw [← hcurrent, ← hmissing, ← hstale] at hstates
  refine ⟨snapshot, hexecute, ?_, ?_⟩
  · change documents.length - (self.todo command s documents).length = _
    omega
  · change (self.todo command s documents).length = _
    omega

/-- A run that is not forced embeds pending documents only, in their order, and all of them if it
    returns. -/
theorem rerun_calls {r : Except Exc ReindexToolsResult}
    (hdocuments : publishedDocuments c command.context.tenantId = .ok documents)
    (hforce : command.force = false) (hdry : command.dryRun = false)
    (h : self.execute c command s = (r, s')) :
    ∃ calls, s'.embedded = s.embedded ++ calls ∧
      calls.flatten <+: texts (self.sources.pending s.index.digests documents) ∧
        ∀ result, r = .ok result →
          calls.flatten = texts (self.sources.pending s.index.digests documents) := by
  obtain ⟨e, he⟩ | ⟨hsize, -⟩ := self.execute_cases c command s
  · rw [he] at h
    cases h
    exact ⟨[], (List.append_nil _).symm, List.nil_prefix, nofun⟩
  have hpositive : 0 < command.batchSize.toNat := by omega
  obtain ⟨done, rest, hslices, -, hend⟩ := execute_run hsize hdocuments hdry h
  rw [hforce] at hslices
  have hall : (done ++ rest).flatten = self.sources.pending s.index.digests documents := by
    rw [← hslices]
    exact Batch.flatten_slices hpositive _
  obtain ⟨rfl, hembedded, -⟩ | ⟨e, rfl, ⟨-, rfl, rfl⟩ | ⟨batch, rest', rfl, hembedded⟩⟩ := hend
  · rw [List.append_nil] at hall
    refine ⟨_, hembedded, ?_, fun _ _ => ?_⟩
    · rw [flatten_map_texts, hall]
    · rw [flatten_map_texts, hall]
  · exact ⟨[], (List.append_nil _).symm, List.nil_prefix, nofun⟩
  · refine ⟨_, hembedded, ?_, nofun⟩
    have hprefix : (done ++ batch :: rest').flatten =
        (done ++ [batch]).flatten ++ rest'.flatten := by
      rw [List.append_cons, List.flatten_append]
    rw [flatten_map_texts, ← hall, hprefix]
    exact (List.prefix_append _ _).map _

/-- A run that fails has written the batches before the last call. -/
theorem interrupted {e : Exc} {calls : List (List String)}
    (h : self.execute c command s = (.error e, s')) (hcalls : s'.embedded = s.embedded ++ calls) :
    (calls = [] ∧ s' = s) ∨
      ∃ documents written, self.Interrupted c command s s' calls documents written := by
  have hidle (hsame : s' = s) : calls = [] := by
    rw [hsame] at hcalls
    exact List.self_eq_append_right.1 hcalls
  obtain ⟨e', he'⟩ | ⟨hsize, documents, hdocuments⟩ := self.execute_cases c command s
  · rw [he'] at h
    cases h
    exact .inl ⟨hidle rfl, rfl⟩
  cases hdry : command.dryRun with
  | true =>
    rw [execute_of_documents hsize hdocuments] at h
    dsimp only at h
    rw [if_pos (.inl hdry)] at h
    cases h
  | false =>
    have hpositive : 0 < command.batchSize.toNat := by omega
    have hnodup : (documents.map self.sources.key).Nodup := publishedDocuments_nodup hdocuments
    obtain ⟨done, rest, hslices, hwritten, ⟨-, -, he⟩ | ⟨e', -, hend⟩⟩ :=
      execute_run hsize hdocuments hdry h
    · cases he
    obtain ⟨-, -, hsame⟩ | ⟨batch, rest', rfl, hembedded⟩ := hend
    · exact .inl ⟨hidle hsame, hsame⟩
    refine .inr ⟨documents, done.length, ?_⟩
    -- The batches that were stored, and the one whose call failed, are the first ones of the round.
    have hbatches : (Batch.slices command.batchSize.toNat
        (self.todo command s documents)).take (done.length + 1) = done ++ [batch] := by
      rw [hslices, List.take_length_add_append]
      rfl
    have hdone : done.flatten =
        (self.todo command s documents).take (done.length * command.batchSize.toNat) := by
      rw [← Batch.flatten_take_slices hpositive, hslices, List.take_left]
    have hcalls' : calls = (done ++ [batch]).map texts :=
      List.append_cancel_left (hcalls.symm.trans hembedded)
    rw [hdone] at hwritten
    refine {
      built := hdocuments
      attempts := by rw [hcalls']; simp
      embedded := by rw [hcalls', hbatches]
      persisted := hwritten
      rerun := fun command' r s'' htenant hforce hdry' h' => ?_
      remaining := fun hforce => ?_ }
    · have hpending : self.sources.pending s'.index.digests documents =
          self.sources.pending s.index.digests
            ((self.todo command s documents).drop (done.length * command.batchSize.toNat)) := by
        rw [hwritten.digests]
        exact self.sources.pending_write_of_append hnodup (List.take_append_drop _ _).symm
      rw [← htenant] at hdocuments
      rw [← hpending]
      exact rerun_calls hdocuments hforce hdry' h'
    · refine List.filter_eq_self.2 fun document hmem => ?_
      rw [todo, hforce] at hmem
      simpa using (self.sources.mem_pending.1 (List.mem_of_mem_drop hmem)).2

/-- A call that fails is the last, and its exception is that of the run. -/
theorem lastCall {provider : EmbeddingProvider} {r : Except Exc ReindexToolsResult}
    {before after : List (List String)} {call : List String} {e : Exc}
    (hprovider : self.val.embeddingProvider = some provider)
    (h : self.execute c command s = (r, s'))
    (hcalls : s'.embedded = s.embedded ++ (before ++ call :: after))
    (hfails : provider.embed (s.embedded ++ before) call = .error e) :
    r = .error e ∧ after = [] := by
  have hmade : s' ≠ s := by
    rintro rfl
    simpa using congrArg List.length hcalls
  obtain ⟨e', he'⟩ | ⟨hsize, documents, hdocuments⟩ := self.execute_cases c command s
  · rw [he'] at h
    cases h
    exact absurd rfl hmade
  rw [execute_of_documents hsize hdocuments] at h
  dsimp only at h
  split_ifs at h with hidle
  · cases h
    exact absurd rfl hmade
  simp only [hprovider] at h
  -- the call is none of those that were answered, so it is that of the batch that failed
  have hcase {r' : Except Exc (Nat × Nat)} {s₁ : ReindexState}
      (hloop : (Batch.slices command.batchSize.toNat (self.sources.round command.force
        s.index.digests documents)).foldlM (self.embedBatch provider command.context.tenantId
          (self.loadExisting s.index command.context.tenantId documents)) (0, 0) s = (r', s₁))
      (hsame : s₁ = s') : r' = .error e ∧ after = [] := by
    subst hsame
    obtain ⟨done, rest, -, -, hend, hanswered⟩ := foldlM_embedBatch hloop
    have hnot (after' : List (List String)) : done.map texts ≠ before ++ call :: after' := by
      intro hdone
      obtain ⟨vectors, hvectors⟩ := hanswered before call after' hdone
      rw [hfails] at hvectors
      cases hvectors
    obtain ⟨-, -, hembedded⟩ | ⟨batch, rest', e', -, rfl, hembedded, hlast⟩ := hend
    · exact absurd (List.append_cancel_left (hembedded.symm.trans hcalls)) (hnot after)
    · have hsplit : done.map texts ++ [texts batch] = before ++ call :: after := by
        rw [← List.append_cancel_left (hembedded.symm.trans hcalls), List.map_append]
        rfl
      obtain rfl | ⟨after', last, rfl⟩ := after.eq_nil_or_concat
      · obtain ⟨rfl, hcall⟩ := List.append_inj' hsplit rfl
        cases hcall
        exact ⟨congrArg _ (hlast e hfails), rfl⟩
      · rw [List.concat_eq_append, ← List.cons_append, ← List.append_assoc] at hsplit
        exact absurd (List.append_inj' hsplit rfl).1 (hnot after')
  split at h
  · next counts s₁ hloop =>
    cases h
    cases (hcase hloop rfl).1
  · next e' s₁ hloop =>
    cases h
    obtain ⟨he, hafter⟩ := hcase hloop rfl
    cases he
    exact ⟨rfl, hafter⟩

end ReindexTools

open ReindexTools in
/-- Every run converges: it leaves the index up to date or fails with whole batches written. -/
theorem reindexing_converges (self : ReindexTools) (c : CatalogTables)
    (command : ReindexToolsCommand) (s : ReindexState) : Converges self c command s where
  returned _ _ h hdry := completed h hdry
  dryRun _ _ h hdry := dryRun_counts h hdry
  failed _ _ _ h hcalls := interrupted h hcalls
  lastCall _ _ _ _ _ _ _ hprovider h hcalls hfails := lastCall hprovider h hcalls hfails

end

/-! ## Two tools -/

def listOrders : Tool :=
  ⟨⟨"tool-1", "tenant-1", "orders", "orders.list", "team", .active⟩, by decide⟩

def showOrder : Tool :=
  ⟨⟨"tool-2", "tenant-1", "orders", "orders.show", "team", .active⟩, by decide⟩

/-- The fields of a published version. -/
def publishedVersion (id toolId : Id) : ToolVersionFields where
  id := id
  tenantId := "tenant-1"
  toolId := toolId
  version := 1
  displayName := "Orders"
  description := ""
  inputSchema := [("type", .str "object")]
  outputSchema := none
  schemaDigest := "digest"
  tags := []
  sideEffect := .readOnly
  visibility := .public_
  status := .published
  createdBy := "admin"
  createdAt := 0
  reviewedAt := some 0
  publishedAt := some 0

def publishedBinding (id toolVersionId : Id) : ToolBindingFields where
  id := id
  tenantId := "tenant-1"
  toolVersionId := toolVersionId
  upstreamServiceId := "upstream-1"
  importedOperationId := none
  bindingType := .http
  bindingConfig := []
  bindingDigest := "digest"
  status := .published
  createdAt := 0
  publishedAt := some 0

def listOrdersVersion : ToolVersion := ⟨publishedVersion "version-1" "tool-1", by decide⟩

def showOrderVersion : ToolVersion := ⟨publishedVersion "version-2" "tool-2", by decide⟩

def listOrdersBinding : ToolBinding := ⟨publishedBinding "binding-1" "version-1", by decide⟩

def showOrderBinding : ToolBinding := ⟨publishedBinding "binding-2" "version-2", by decide⟩

/-- Two published tools. -/
def searchedCatalog : CatalogTables where
  tools := (Txn.Table.empty.insert listOrders).insert showOrder
  versions := (Txn.Table.empty.insert listOrdersVersion).insert showOrderVersion
  bindings := (Txn.Table.empty.insert listOrdersBinding).insert showOrderBinding
  upstreams := .empty
  operations := .empty
  jobs := .empty
  unique := by decide +kernel

def zeroVector : EmbeddingVector :=
  ⟨⟨"model", 2048, List.replicate 2048 (.ofInt 0)⟩, by decide +kernel⟩

/-- The first of them has an embedding. -/
def firstEmbedding : ToolSearchEmbedding :=
  ⟨{ id := "embedding-1"
     tenantId := "tenant-1"
     toolVersionId := "version-1"
     embeddingModel := "model"
     embeddingDimensions := 2048
     sourceDigest := String.ofList (List.replicate 64 '0')
     vector := zeroVector
     indexedAt := 0 }, by decide +kernel⟩

/-- A state in which nothing has been embedded yet. -/
def freshState (index : ToolSearchIndex) : ReindexState where
  index := index
  embedded := []
  clockReads := 0
  newIds := 0

def emptyIndex : ToolSearchIndex := ⟨.empty, List.nodup_nil⟩

def firstIndexed : ToolSearchIndex := ⟨Txn.Table.empty.insert firstEmbedding, by decide +kernel⟩

/-- The provider answers every call but the second. -/
def shakyProvider : EmbeddingProvider where
  model := "model"
  dimensions := 2048
  embed embedded texts := if embedded.length = 1
    then .error (.nexus .embeddingUnavailable "embedding provider timed out")
    else .ok (texts.map fun _ => zeroVector)

def shakyReindex : ReindexTools :=
  ⟨{ embeddingProvider := some shakyProvider
     embeddingModel := "model"
     embeddingDimensions := 2048
     now := fun _ => 0
     newId := fun count => "embedding-" ++ toString count }, by decide⟩

@[reducible] def plainStr : PyStr := ⟨fun _ => ""⟩

@[reducible] def exactColumn : VectorColumn := ⟨some⟩

attribute [local instance] zeroSha256 plainStr exactColumn

/-- A forced run of an administrator. -/
def forcedCommand (dryRun : Bool) : ReindexToolsCommand where
  context := { requestId := "request-1", traceId := "trace-1", tenantId := "tenant-1",
               principalId := "admin", authnMethod := "local_cli" }
  batchSize := 1
  force := true
  dryRun := dryRun

/-- The forced run that fails at its second batch, and its rerun. -/
def interruptedRun : Except Exc ReindexToolsResult × ReindexState :=
  shakyReindex.execute searchedCatalog (forcedCommand false) (freshState emptyIndex)

def forcedRerun : Except Exc ReindexToolsResult × ReindexState :=
  shakyReindex.execute searchedCatalog (forcedCommand false) interruptedRun.2

/-- Forced runs start over: a dry run counts what the inspection finds current as pending, and
    after a failure the rerun embeds what was persisted once more. -/
theorem forced_runs_start_over :
    (¬ ∀ (self : ReindexTools) (c : CatalogTables) (command : ReindexToolsCommand)
        (s s' : ReindexState) (result : ReindexToolsResult),
        self.execute c command s = (.ok result, s') → command.dryRun = true →
          ∃ snapshot, (self.inspection true).execute c s.index command.context.tenantId =
              .ok snapshot ∧
            result.currentCount = snapshot.currentCount ∧
            result.pendingCount = snapshot.missingCount + snapshot.staleCount) ∧
      ¬ ∀ (self : ReindexTools) (c : CatalogTables) (command : ReindexToolsCommand)
        (index : ToolSearchIndex) (s s' : ReindexState) (e : Exc)
        (r : Except Exc ReindexToolsResult),
        self.execute c command (freshState index) = (.error e, s) → command.dryRun = false →
          self.execute c command s = (r, s') →
            ∀ text ∈ (s'.embedded.drop s.embedded.length).flatten,
              text ∉ s.embedded.dropLast.flatten := by
  constructor
  · intro h
    rcases hrun : shakyReindex.execute searchedCatalog (forcedCommand true)
      (freshState firstIndexed) with ⟨outcome, s'⟩
    obtain ⟨hcount, hinspected⟩ : (shakyReindex.execute searchedCatalog (forcedCommand true)
          (freshState firstIndexed)).1.map (·.currentCount) = .ok 0 ∧
        ((shakyReindex.inspection true).execute searchedCatalog firstIndexed "tenant-1").map
          (·.currentCount) = .ok 1 := by
      decide +kernel
    rw [hrun] at hcount
    obtain ⟨result, rfl, hzero⟩ := map_eq_ok.1 hcount
    obtain ⟨snapshot, hsnapshot, hone⟩ := map_eq_ok.1 hinspected
    obtain ⟨snapshot', hsnapshot', hsame, -⟩ := h _ _ _ _ _ _ hrun rfl
    cases hsnapshot.symm.trans hsnapshot'
    rw [hzero, hone] at hsame
    cases hsame
  · intro h
    obtain ⟨hfails, text, hembedded, hpersisted⟩ : interruptedRun.1.map (·.currentCount) =
          .error (.nexus .embeddingUnavailable "embedding provider timed out") ∧
        ∃ text ∈ (forcedRerun.2.embedded.drop interruptedRun.2.embedded.length).flatten,
          text ∈ interruptedRun.2.embedded.dropLast.flatten := by
      decide +kernel
    cases hfirst : interruptedRun.1 with
    | ok result =>
      rw [hfirst] at hfails
      cases hfails
    | error e =>
      have hrun : interruptedRun = (.error e, interruptedRun.2) := by
        rw [← hfirst, Prod.mk.eta]
      have hrerun : forcedRerun = (forcedRerun.1, forcedRerun.2) := Prod.mk.eta.symm
      exact h shakyReindex searchedCatalog (forcedCommand false) emptyIndex interruptedRun.2
        forcedRerun.2 e forcedRerun.1 hrun rfl hrerun text hembedded hpersisted

end NexusMcp
