-- SUMMARY: Runs of the reindexing: what is embedded, what is written, what a failure leaves.
import NexusMcp.ToolSearch.Reindex

/-!
# Runs of the Reindexing

The index is a projection of the documents that keeps their digests. A run writes a round of
them, slice by slice.
-/

namespace NexusMcp

open Txn (Lasting)
open Projection (Sources)
open SqlAlchemyToolSearchEmbeddingRepository

/-! ## The documents as sources -/

/-- A document is kept under the scope of its version, for a model. -/
def documentSources (embeddingModel : String) (embeddingDimensions : Int) :
    Sources ToolSearchDocument EmbeddingScope String where
  key document := ⟨document.val.tenantId, document.val.toolVersionId, embeddingModel,
    embeddingDimensions⟩
  digest document := document.val.sourceDigest

/-- The published tools of a tenant have different versions. -/
theorem CatalogTables.listPublishedByTenant_versions (c : CatalogTables) (tenantId : Id) :
    ((c.listPublishedByTenant tenantId).map (·.val.toolVersionId)).Nodup := by
  rw [List.nodup_iff_pairwise_ne, List.pairwise_map]
  refine (c.listPublishedByTenant_pairwise tenantId).imp_of_mem ?_
  intro x y hx hy hne heq
  obtain ⟨tool, version, hrow, rfl⟩ := mem_listPublishedByTenant.1 hx
  obtain ⟨tool', version', hrow', rfl⟩ := mem_listPublishedByTenant.1 hy
  obtain ⟨-, hversion, _, -, hjoin⟩ := mem_publishedRows.1 hrow
  obtain ⟨-, hversion', _, -, hjoin'⟩ := mem_publishedRows.1 hrow'
  have hsame : version = version' := Txn.Table.eq_of_key_eq hversion hversion' heq
  refine hne.1 ?_
  change tool.val.id = tool'.val.id
  rw [← hjoin.1, ← hjoin'.1, hsame]

namespace ReindexTools

abbrev sources (self : ReindexTools) : Sources ToolSearchDocument EmbeddingScope String :=
  documentSources self.val.embeddingModel self.val.embeddingDimensions

/-! ## A batch -/

section

variable {self : ReindexTools} {provider : EmbeddingProvider} {tenantId : Id}
  {existing : Id → Option ToolSearchEmbedding} {document : ToolSearchDocument}
  {vector : EmbeddingVector} {embedding : ToolSearchEmbedding} {s s' : ReindexState}

/-- The texts of a batch. -/
abbrev texts (batch : List ToolSearchDocument) : List String := batch.map (·.val.content)

/-- The construction of an embedding touches neither the index nor the provider. -/
theorem project_frame (self : ReindexTools) (existing : Id → Option ToolSearchEmbedding)
    (document : ToolSearchDocument) (vector : EmbeddingVector) (s : ReindexState) :
    (self.project existing document vector s).2.index = s.index ∧
      (self.project existing document vector s).2.embedded = s.embedded := by
  have hid : (self.embeddingId existing document s).2.index = s.index ∧
      (self.embeddingId existing document s).2.embedded = s.embedded := by
    unfold embeddingId
    cases existing document.val.toolVersionId <;> exact ⟨rfl, rfl⟩
  unfold project
  rw [Lasting.bind_apply]
  generalize self.embeddingId existing document s = result at hid ⊢
  obtain ⟨id | e, s₁⟩ := result <;> exact hid

/-- The embedding of a document is kept where the document is, under its digest. -/
theorem project_eq_ok (h : self.project existing document vector s = (.ok embedding, s')) :
    embedding.scope = self.sources.key document ∧
      embedding.val.sourceDigest = self.sources.digest document := by
  unfold project at h
  obtain ⟨id, _, -, h⟩ := Lasting.bind_eq_ok.1 h
  obtain ⟨indexedAt, _, -, h⟩ := Lasting.bind_eq_ok.1 h
  have hval := val_of_construct (Lasting.lift_eq_ok.1 h).1
  unfold ToolSearchEmbedding.scope
  rw [hval]
  exact ⟨rfl, rfl⟩

variable {batch : List ToolSearchDocument} {counts : Nat × Nat}
  {r : Except Exc (Nat × Nat)}

theorem projections_written {vectors : List EmbeddingVector}
    {projections : List ToolSearchEmbedding} {index index' : ToolSearchIndex}
    (hlength : vectors.length = batch.length)
    (h : (batch.zip vectors).mapM (fun pair => self.project existing pair.1 pair.2) s =
      (.ok projections, s')) (hwritten : Written embeddingSources projections index index') :
    Written self.sources batch index index' := by
  refine hwritten.congr ?_
  have hsame := Lasting.mapM_eq_ok h
  clear h hwritten
  induction batch generalizing vectors projections with
  | nil =>
    cases hsame
    rfl
  | cons document batch ih =>
    cases vectors with
    | nil => cases hlength
    | cons vector vectors =>
      cases hsame with
      | cons hproject hrest =>
        obtain ⟨_, _, hproject⟩ := hproject
        obtain ⟨hscope, hdigest⟩ := project_eq_ok hproject
        rw [List.map_cons, List.map_cons, ih (Nat.succ.inj hlength) hrest]
        change _ = (ToolSearchEmbedding.scope _, _) :: _
        rw [hscope, ← hdigest]
        rfl

variable [VectorColumn]

/-- A batch is embedded and written, or the index stays as it was. -/
theorem embedBatch_cases
    (h : self.embedBatch provider tenantId existing counts batch s = (r, s')) :
    s'.embedded = s.embedded ++ [texts batch] ∧
      ((∃ vectors, provider.embed s.embedded (texts batch) = .ok vectors ∧
          r = .ok (counts.1 + 1, counts.2 + batch.length) ∧
          Written self.sources batch s.index s'.index) ∨
        (∃ e, r = .error e ∧ s'.index = s.index ∧
          ∀ e', provider.embed s.embedded (texts batch) = .error e' → e = e')) := by
  unfold embedBatch at h
  rw [Lasting.bind_apply] at h
  unfold embed at h
  cases hembed : provider.embed s.embedded (texts batch) with
  | error e =>
    rw [hembed] at h
    cases h
    exact ⟨rfl, .inr ⟨e, rfl, rfl, fun _ h => Except.error.inj h⟩⟩
  | ok vectors =>
    rw [hembed] at h
    obtain ⟨s₁, hs₁⟩ : ∃ s₁ : ReindexState, s₁ = { s with
      embedded := s.embedded ++ [texts batch] } := ⟨_, rfl⟩
    rw [← hs₁] at h
    have hindex : s₁.index = s.index := by rw [hs₁]
    have hembedded : s₁.embedded = s.embedded ++ [texts batch] := by rw [hs₁]
    -- The projections are made one by one before anything is written.
    have hframe := Lasting.mapM_related (R := fun s s' : ReindexState =>
      s'.index = s.index ∧ s'.embedded = s.embedded) (fun _ => ⟨rfl, rfl⟩)
      (fun _ _ _ h h' => ⟨h'.1.trans h.1, h'.2.trans h.2⟩)
      (fun pair => self.project_frame existing pair.1 pair.2) (batch.zip vectors) s₁
    cases r with
    | ok counts' =>
      obtain ⟨_, _, hcount, h⟩ := Lasting.bind_eq_ok.1 h
      obtain ⟨hlength, rfl⟩ := Lasting.lift_eq_ok.1 hcount
      obtain ⟨projections, s₂, hprojections, h⟩ := Lasting.bind_eq_ok.1 h
      obtain ⟨_, s₃, hupsert, h⟩ := Lasting.bind_eq_ok.1 h
      cases h
      rw [hprojections] at hframe
      have hupsert := Lasting.atomically_eq_ok.1 hupsert
      obtain ⟨index, hindex', rfl⟩ := map_eq_ok.1 hupsert
      refine ⟨hframe.2.trans hembedded, .inl ⟨vectors, rfl, rfl, ?_⟩⟩
      refine projections_written (by simpa using hlength) hprojections ?_
      rw [← hindex, ← hframe.1]
      exact upsertMany_eq_ok hindex'
    | error e =>
      -- Whichever step fails after the vectors are there, nothing has been written.
      have hno (e' : Exc) (h : (.ok vectors : Except Exc _) = .error e') : e = e' := by cases h
      suffices hs' : s'.index = s₁.index ∧ s'.embedded = s₁.embedded from
        ⟨hs'.2.trans hembedded, .inr ⟨e, rfl, hs'.1.trans hindex, hno⟩⟩
      obtain h | ⟨_, _, hlength, h⟩ := Lasting.bind_eq_error.1 h
      · obtain ⟨-, rfl⟩ := Lasting.lift_eq_error.1 h
        exact ⟨rfl, rfl⟩
      obtain ⟨-, rfl⟩ := Lasting.lift_eq_ok.1 hlength
      obtain h | ⟨projections, s₂, hprojections, h⟩ := Lasting.bind_eq_error.1 h
      · rw [h] at hframe
        exact hframe
      rw [hprojections] at hframe
      obtain h | ⟨_, _, -, h⟩ := Lasting.bind_eq_error.1 h
      · obtain ⟨-, rfl⟩ := Lasting.atomically_eq_error.1 h
        exact hframe
      · cases h

/-! ## The loop -/

/-- The batches that were written, and the calls that were made for them. A call that fails, or
    a batch that is not written, is the last. -/
theorem foldlM_embedBatch {batches : List (List ToolSearchDocument)}
    (h : batches.foldlM (self.embedBatch provider tenantId existing) counts s = (r, s')) :
    ∃ done rest, batches = done ++ rest ∧ Written self.sources done.flatten s.index s'.index ∧
      ((rest = [] ∧ r = .ok (counts.1 + done.length, counts.2 + done.flatten.length) ∧
          s'.embedded = s.embedded ++ done.map texts) ∨
        (∃ batch rest' e, rest = batch :: rest' ∧ r = .error e ∧
          s'.embedded = s.embedded ++ (done ++ [batch]).map texts ∧
          ∀ e', provider.embed (s.embedded ++ done.map texts) (texts batch) = .error e' →
            e = e')) ∧
      ∀ before call after, done.map texts = before ++ call :: after →
        ∃ vectors, provider.embed (s.embedded ++ before) call = .ok vectors := by
  induction batches generalizing counts s with
  | nil =>
    cases h
    exact ⟨[], [], rfl, .refl, .inl ⟨rfl, rfl, (List.append_nil _).symm⟩, by simp⟩
  | cons batch batches ih =>
    rw [List.foldlM_cons, Lasting.bind_apply] at h
    cases hbatch : self.embedBatch provider tenantId existing counts batch s with
    | mk r₁ s₁ =>
      rw [hbatch] at h
      obtain ⟨hembedded, hcase⟩ := embedBatch_cases hbatch
      -- The batch is embedded and stored, or the loop ends with an error before it is.
      rcases hcase with ⟨vectors, hvectors, rfl, hwritten⟩ | ⟨e, rfl, hindex, hfails⟩
      · obtain ⟨done, rest, rfl, hrest, hend, hcalls⟩ := ih h
        refine ⟨batch :: done, rest, rfl, hwritten.trans hrest, ?_, ?_⟩
        · rw [hembedded, List.append_assoc] at hend
          refine hend.imp ?_ ?_
          · rintro ⟨hnil, rfl, hs'⟩
            refine ⟨hnil, ?_, by rw [hs']; simp⟩
            rw [List.length_cons, List.flatten_cons, List.length_append]
            congr 2 <;> omega
          · rintro ⟨batch', rest', e, hcons, hr, hs', hlast⟩
            exact ⟨batch', rest', e, hcons, hr, by rw [hs']; simp, hlast⟩
        · intro before call after hsplit
          -- The call is that of this batch, or one of a later batch.
          cases before with
          | nil =>
            cases hsplit
            exact ⟨vectors, by rwa [List.append_nil]⟩
          | cons first before =>
            rw [List.map_cons, List.cons_append, List.cons.injEq] at hsplit
            have hcall := hcalls before call after hsplit.2
            rwa [hembedded, List.append_assoc, hsplit.1] at hcall
      · cases h
        refine ⟨[], batch :: batches, rfl, ?_, .inr ⟨batch, batches, e, rfl, rfl, hembedded, ?_⟩,
          by simp⟩
        · rw [hindex]
          exact .refl
        · rwa [List.map_nil, List.append_nil]

end

end ReindexTools

/-! ## The pending documents -/

variable [Sha256] [PyStr] {c : CatalogTables} {tenantId : Id} {documents : List ToolSearchDocument}
  {embeddingModel : String} {embeddingDimensions : Int}

/-- There is one document for each published tool. -/
theorem publishedDocuments_versions (h : publishedDocuments c tenantId = .ok documents) :
    (documents.map (·.val.toolVersionId)).Perm
      ((c.listPublishedByTenant tenantId).map (·.val.toolVersionId)) := by
  have hversions {tools : List PublishedTool} {documents : List ToolSearchDocument}
      (h : List.Forall₂ (fun tool d => ToolSearchDocumentBuilder.build tool = .ok d) tools
        documents) : documents.map (·.val.toolVersionId) = tools.map (·.val.toolVersionId) := by
    induction h with
    | nil => rfl
    | cons hbuild _ ih =>
      rw [List.map_cons, List.map_cons, ih, (ToolSearchDocumentBuilder.build_eq_ok hbuild).2.2.1]
  rw [hversions (mapM_eq_ok.1 h)]
  exact (List.perm_insertionSort _ _).map _

theorem publishedDocuments_tenant (h : publishedDocuments c tenantId = .ok documents)
    {document : ToolSearchDocument} (hmem : document ∈ documents) :
    document.val.tenantId = tenantId := by
  obtain ⟨tool, htool, hbuild⟩ := (mem_mapM h).1 hmem
  rw [(ToolSearchDocumentBuilder.build_eq_ok hbuild).1]
  obtain ⟨tool, version, hrow, rfl⟩ :=
    CatalogTables.mem_listPublishedByTenant.1 ((List.mem_insertionSort _).1 htool)
  obtain ⟨-, -, _, -, hjoin⟩ := CatalogTables.mem_publishedRows.1 hrow
  exact hjoin.2.2.1

/-- No two documents are kept under one scope. -/
theorem publishedDocuments_nodup (h : publishedDocuments c tenantId = .ok documents) :
    (documents.map (documentSources embeddingModel embeddingDimensions).key).Nodup := by
  have hversions : (documents.map (·.val.toolVersionId)).Nodup :=
    (publishedDocuments_versions h).nodup_iff.2 (c.listPublishedByTenant_versions tenantId)
  refine List.Nodup.of_map EmbeddingScope.toolVersionId ?_
  rw [List.map_map]
  exact hversions

/-- The dictionary has the row that a document is kept in. -/
theorem byToolVersion_of_document (h : publishedDocuments c tenantId = .ok documents)
    {index : ToolSearchIndex} {document : ToolSearchDocument} (hmem : document ∈ documents) :
    byToolVersion (listByToolVersions index tenantId (documents.map (·.val.toolVersionId))
      embeddingModel embeddingDimensions) document.val.toolVersionId =
        index.embeddings.find?
          ((documentSources embeddingModel embeddingDimensions).key document) := by
  rw [byToolVersion_listByToolVersions (List.mem_map_of_mem hmem)]
  rw [← publishedDocuments_tenant h hmem]
  rfl

namespace ReindexTools

/-- The pending documents are a round of the projection. -/
theorem pending_eq_round (self : ReindexTools) {force : Bool} {index : ToolSearchIndex}
    (h : publishedDocuments c tenantId = .ok documents) :
    pending force (self.loadExisting index tenantId documents) documents =
      self.sources.round force index.digests documents := by
  unfold pending Sources.round Sources.pending
  cases force with
  | true => simp
  | false =>
    simp only [Bool.false_or, Bool.false_eq_true, if_false]
    refine List.filter_congr fun document hmem => ?_
    unfold loadExisting
    rw [byToolVersion_of_document h hmem, Bool.eq_iff_iff, decide_eq_true_eq]
    unfold Sources.Current ToolSearchIndex.digests
    cases index.embeddings.find? (self.sources.key document) with
    | none => simp
    | some row => simp [documentSources]

/-! ## A run -/

section

variable [VectorColumn] {self : ReindexTools} {command : ReindexToolsCommand} {s s' : ReindexState}

/-- What a run returns when it embeds nothing. -/
def idleResult (self : ReindexTools) (command : ReindexToolsCommand)
    (documents pending : List ToolSearchDocument) : ReindexToolsResult where
  publishedCount := documents.length
  currentCount := documents.length - pending.length
  pendingCount := pending.length
  embeddedCount := 0
  batchCount := 0
  model := self.val.embeddingModel
  dimensions := self.val.embeddingDimensions
  dryRun := command.dryRun

/-- A run on documents that can be built, with the round of the projection that it writes. -/
theorem execute_of_documents (hsize : 1 ≤ command.batchSize ∧ command.batchSize ≤ 64)
    (h : publishedDocuments c command.context.tenantId = .ok documents) :
    self.execute c command s =
      let pending := self.sources.round command.force s.index.digests documents
      if command.dryRun ∨ pending = [] then (.ok (self.idleResult command documents pending), s)
      else match self.val.embeddingProvider with
        | none => (.error (.nexus .embeddingUnavailable "embedding provider was not configured"), s)
        | some provider =>
          match (Batch.slices command.batchSize.toNat pending).foldlM
            (self.embedBatch provider command.context.tenantId
              (self.loadExisting s.index command.context.tenantId documents)) (0, 0) s with
          | (.ok counts, s') => (.ok { self.idleResult command documents pending with
              embeddedCount := counts.2
              batchCount := counts.1
              dryRun := false }, s')
          | (.error e, s') => (.error e, s') := by
  have hguard : valueErrorIf (¬ (1 ≤ command.batchSize ∧ command.batchSize ≤ 64))
      "reindex batch size must be between 1 and 64" = .ok () :=
    raiseIf_eq_ok.2 (not_not.2 hsize)
  rw [← self.pending_eq_round h]
  unfold execute
  rw [hguard, h]
  simp only [Lasting.bind_apply, Lasting.lift, Lasting.update]
  split_ifs with hidle
  · rfl
  · cases hprovider : self.val.embeddingProvider with
    | none => rfl
    | some provider =>
      simp only [Option.elim_some]
      split
      · next counts s' hloop =>
        exact Lasting.bind_eq_ok.2 ⟨provider, s, rfl,
          Lasting.bind_eq_ok.2 ⟨counts, s', hloop, rfl⟩⟩
      · next e s' hloop =>
        exact Lasting.bind_eq_error.2 (.inr ⟨provider, s, rfl,
          Lasting.bind_eq_error.2 (.inl hloop)⟩)

/-- A run that cannot build the documents, or that is not allowed to start, does nothing. -/
theorem execute_cases (self : ReindexTools) (c : CatalogTables) (command : ReindexToolsCommand)
    (s : ReindexState) : (∃ e, self.execute c command s = (.error e, s)) ∨
      (1 ≤ command.batchSize ∧ command.batchSize ≤ 64) ∧
        ∃ documents, publishedDocuments c command.context.tenantId = .ok documents := by
  by_cases hsize : 1 ≤ command.batchSize ∧ command.batchSize ≤ 64
  · cases hdocuments : publishedDocuments c command.context.tenantId with
    | ok documents => exact .inr ⟨hsize, documents, rfl⟩
    | error e =>
      refine .inl ⟨e, ?_⟩
      unfold execute
      refine Lasting.bind_eq_error.2 (.inr ⟨(), s, ?_, Lasting.bind_eq_error.2 (.inl ?_)⟩)
      · exact Lasting.lift_eq_ok.2 ⟨raiseIf_eq_ok.2 (not_not.2 hsize), rfl⟩
      · exact Lasting.lift_eq_error.2 ⟨hdocuments, rfl⟩
  · refine .inl ⟨.valueError "reindex batch size must be between 1 and 64", ?_⟩
    unfold execute
    exact Lasting.bind_eq_error.2 (.inl (Lasting.lift_eq_error.2
      ⟨raiseIf_eq_error.2 ⟨hsize, rfl⟩, rfl⟩))

/-- What a run that is no dry run does: it writes slices of the round one after the other, until
    it has written all of them or it fails. -/
theorem execute_run {r : Except Exc ReindexToolsResult}
    (hsize : 1 ≤ command.batchSize ∧ command.batchSize ≤ 64)
    (hdocuments : publishedDocuments c command.context.tenantId = .ok documents)
    (hdry : command.dryRun = false) (h : self.execute c command s = (r, s')) :
    ∃ done rest, Batch.slices command.batchSize.toNat
        (self.sources.round command.force s.index.digests documents) = done ++ rest ∧
      Written self.sources done.flatten s.index s'.index ∧
      ((rest = [] ∧ s'.embedded = s.embedded ++ done.map texts ∧
          r = .ok { self.idleResult command documents
              (self.sources.round command.force s.index.digests documents) with
            embeddedCount := done.flatten.length
            batchCount := done.length }) ∨
        ∃ e, r = .error e ∧ ((self.val.embeddingProvider = none ∧ done = [] ∧ s' = s) ∨
          ∃ batch rest', rest = batch :: rest' ∧
            s'.embedded = s.embedded ++ (done ++ [batch]).map texts)) := by
  rw [execute_of_documents hsize hdocuments] at h
  -- What the round is made of does not matter from here on.
  generalize self.sources.round command.force s.index.digests documents = pending at h
  simp only [hdry, Bool.false_eq_true, false_or] at h
  have hpositive : 0 < command.batchSize.toNat := by omega
  split_ifs at h with hnil
  · cases h
    subst hnil
    exact ⟨[], [], Batch.slices_nil hpositive, .refl, .inl ⟨rfl, by simp, rfl⟩⟩
  · cases hprovider : self.val.embeddingProvider with
    | none =>
      rw [hprovider] at h
      cases h
      exact ⟨[], _, rfl, .refl, .inr ⟨_, rfl, .inl ⟨rfl, rfl, rfl⟩⟩⟩
    | some provider =>
      simp only [hprovider] at h
      split at h
      · next counts s₁ hloop =>
        cases h
        obtain ⟨done, rest, hslices, hwritten, hend, -⟩ := foldlM_embedBatch hloop
        obtain ⟨rfl, hcounts, hembedded⟩ | ⟨_, _, _, _, h, _⟩ := hend
        · refine ⟨done, [], hslices, hwritten, .inl ⟨rfl, hembedded, ?_⟩⟩
          cases hcounts
          simp [idleResult, hdry]
        · cases h
      · next e s₁ hloop =>
        cases h
        obtain ⟨done, rest, hslices, hwritten, hend, -⟩ := foldlM_embedBatch hloop
        obtain ⟨_, h, _⟩ | ⟨batch, rest', e', hrest, hr, hembedded, -⟩ := hend
        · cases h
        · exact ⟨done, rest, hslices, hwritten,
            .inr ⟨e, rfl, .inr ⟨batch, rest', hrest, hembedded⟩⟩⟩

end

end ReindexTools

/-! ## Inspection -/

namespace InspectToolSearchIndex

omit [Sha256] [PyStr] in
theorem stateOf_eq_current {document : ToolSearchDocument} {index : ToolSearchIndex} :
    stateOf document (index.embeddings.find?
      ((documentSources embeddingModel embeddingDimensions).key document)) = .current ↔
        (documentSources embeddingModel embeddingDimensions).Current index.digests document := by
  unfold Sources.Current ToolSearchIndex.digests stateOf
  cases index.embeddings.find?
      ((documentSources embeddingModel embeddingDimensions).key document) with
  | none => simp
  | some row => simp [documentSources]

/-- The items of a snapshot are those of the documents, each with the state of its row. -/
theorem execute_of_documents (self : InspectToolSearchIndex) (index : ToolSearchIndex)
    (h : publishedDocuments c tenantId = .ok documents) :
    ∃ snapshot, self.execute c index tenantId = .ok snapshot ∧
      snapshot.items.map (fun item => (item.toolVersionId, item.state)) =
        documents.map (fun document => (document.val.toolVersionId, stateOf document
          (index.embeddings.find? ((documentSources self.embeddingModel
            self.embeddingDimensions).key document)))) ∧
      snapshot.currentCount = snapshot.items.countP (·.state = .current) ∧
      snapshot.missingCount = snapshot.items.countP (·.state = .missing) ∧
      snapshot.staleCount = snapshot.items.countP (·.state = .stale) := by
  have hbuild := h
  unfold publishedDocuments at hbuild
  refine ⟨_, bind_eq_ok.2 ⟨documents, hbuild, rfl⟩, ?_, rfl, rfl, rfl⟩
  have hitems {tools : List PublishedTool} {part : List ToolSearchDocument}
      (hpart : ∀ document ∈ part, document ∈ documents)
      (hbuilt : List.Forall₂ (fun tool d => ToolSearchDocumentBuilder.build tool = .ok d) tools
        part) :
      (((tools.zip part).map fun pair => item (byToolVersion (listByToolVersions index tenantId
        (documents.map (·.val.toolVersionId)) self.embeddingModel self.embeddingDimensions)
          pair.2.val.toolVersionId) pair.1 pair.2).map fun item =>
            (item.toolVersionId, item.state)) =
        part.map (fun document => (document.val.toolVersionId, stateOf document
          (index.embeddings.find? ((documentSources self.embeddingModel
            self.embeddingDimensions).key document)))) := by
    induction hbuilt with
    | nil => rfl
    | @cons tool document _ _ hdocument _ ih =>
      rw [List.zip_cons_cons, List.map_cons, List.map_cons, List.map_cons,
        ih fun d hd => hpart d (List.mem_cons_of_mem _ hd)]
      simp only [item, byToolVersion_of_document h (hpart document List.mem_cons_self)]
      rw [(ToolSearchDocumentBuilder.build_eq_ok hdocument).2.2.1]
  exact hitems (fun _ hd => hd) (mapM_eq_ok.1 hbuild)

end InspectToolSearchIndex

end NexusMcp
