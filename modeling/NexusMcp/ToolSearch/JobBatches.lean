-- SUMMARY: The batches of a reindex job against the limit of the provider it is run with.
import NexusMcp.ToolSearch.Convergence
import NexusMcp.ToolSearch.VectorDecoding

/-!
# Batches of Reindex Jobs

The settings bound the batches of the provider, the creation of a job bounds the batches of the
job, and nothing compares the two.
-/

namespace NexusMcp

open Projection (Sources)

/-! ## The provider of the application -/

/-- The settings that the provider is built from. -/
structure EmbeddingSettings where
  embeddingModel : String := "Qwen/Qwen3-Embedding-8B"
  embeddingDimensions : Int := 2048
  embeddingApiUrl : String := "https://api.siliconflow.cn/v1/embeddings"
  embeddingTimeoutSeconds : Rat := 60
  embeddingBatchSize : Int := 16
deriving Repr, DecidableEq

instance : PostInit EmbeddingSettings where
  checks s := [
    (isBlank s.embeddingModel, "embedding_model must not be blank"),
    (¬ (64 ≤ s.embeddingDimensions ∧ s.embeddingDimensions ≤ 8192),
      "embedding_dimensions must be between 64 and 8192"),
    (¬ ("https://".toList <+: s.embeddingApiUrl.toList ∨
      "http://".toList <+: s.embeddingApiUrl.toList), "embedding_api_url must use http or https"),
    (s.embeddingTimeoutSeconds ≤ 0, "embedding_timeout_seconds must be positive"),
    (¬ (1 ≤ s.embeddingBatchSize ∧ s.embeddingBatchSize ≤ 64),
      "embedding_batch_size must be between 1 and 64")]

abbrev Settings := Checked EmbeddingSettings

namespace Settings

/-- The fields with which `create_app` builds its provider. -/
def providerFields (self : Settings) : SiliconFlowEmbeddingProviderFields where
  apiUrl := self.val.embeddingApiUrl
  model := self.val.embeddingModel
  dimensions := self.val.embeddingDimensions
  timeoutSeconds := self.val.embeddingTimeoutSeconds
  maxBatchSize := self.val.embeddingBatchSize

/-- Whatever the settings accept, the provider accepts. -/
theorem valid_providerFields (self : Settings) : Valid self.providerFields := by
  have hvalid := self.property
  simp only [Valid, PostInit.checks, List.forall_mem_cons, List.not_mem_nil, false_implies,
    implies_true, and_true, decide_eq_false_iff_not, not_not] at hvalid ⊢
  obtain ⟨hmodel, hdimensions, hurl, htimeout, hbatch⟩ := hvalid
  exact ⟨hurl, hmodel, by simp only [providerFields]; omega, htimeout,
    by simp only [providerFields]; omega⟩

theorem batchSize_bounds (self : Settings) :
    1 ≤ self.val.embeddingBatchSize ∧ self.val.embeddingBatchSize ≤ 64 := by
  have hvalid := self.property
  simp only [Valid, PostInit.checks, List.forall_mem_cons, List.not_mem_nil, false_implies,
    implies_true, and_true, decide_eq_false_iff_not, not_not] at hvalid
  exact hvalid.2.2.2.2

def embeddingProvider (self : Settings) : SiliconFlowEmbeddingProvider :=
  ⟨self.providerFields, self.valid_providerFields⟩

end Settings

/-- What else the reindexing is composed with: the key, the client, which may answer differently
    every time, the clock and the generator. -/
structure EmbeddingClient where
  apiKey : SecretValue
  post : List (List String) → EmbeddingRequest → EmbeddingExchange
  now : Nat → Time
  newId : Nat → Id

namespace Settings

/-- The fields with which `create_app` builds its reindexing. -/
def reindexFields (self : Settings) (client : EmbeddingClient) : ReindexToolsFields where
  embeddingProvider := some {
    model := self.embeddingProvider.val.model
    dimensions := self.embeddingProvider.val.dimensions
    embed := fun embedded => self.embeddingProvider.embed client.apiKey (client.post embedded) }
  embeddingModel := self.val.embeddingModel
  embeddingDimensions := self.val.embeddingDimensions
  now := client.now
  newId := client.newId

theorem valid_reindexFields (self : Settings) (client : EmbeddingClient) :
    Valid (self.reindexFields client) := by
  have hvalid := self.valid_providerFields
  simp only [Valid, PostInit.checks, List.forall_mem_cons, List.not_mem_nil, false_implies,
    implies_true, and_true, decide_eq_false_iff_not] at hvalid ⊢
  obtain ⟨-, hmodel, hdimensions, -⟩ := hvalid
  refine ⟨not_or.2 ⟨?_, hdimensions⟩, ?_⟩
  · rw [Bool.not_eq_true]
    exact hmodel
  · rintro ⟨provider, hprovider, hdiffers⟩
    cases hprovider
    exact hdiffers.elim (absurd rfl) (absurd rfl)

def reindexTools (self : Settings) (client : EmbeddingClient) : ReindexTools :=
  ⟨self.reindexFields client, self.valid_reindexFields client⟩

end Settings

/-! ## The check of the provider -/

namespace SiliconFlowEmbeddingProvider

variable {self : SiliconFlowEmbeddingProvider}

/-- The decoding raises no `ValueError`. -/
theorem parseVectors_ne_valueError (payload : Json) (expectedCount : Nat) (message : String) :
    self.parseVectors payload expectedCount ≠ .error (.valueError message) := by
  intro h
  by_cases hitems : ∃ data, HasItems payload expectedCount data
  · obtain ⟨data, hdata⟩ := hitems
    obtain ⟨_, h'⟩ | ⟨h', -⟩ := parseVectors_eq_error hdata h <;> cases h'
  · obtain ⟨_, h'⟩ : ∃ message, self.parseVectors payload expectedCount =
        .error (embeddingResponse message) := parseVectors_of_no_items hitems
    cases h'.symm.trans h

theorem readExchange_ne_valueError (expectedCount : Nat) (exchange : EmbeddingExchange)
    (message : String) :
    self.readExchange expectedCount exchange ≠ .error (.valueError message) := by
  intro h
  cases exchange with
  | timedOut => cases h
  | networkError => cases h
  | raised name => cases h
  | response statusCode body =>
    simp only [readExchange, raiseIf_bind_eq_error, reduceCtorEq, and_false, false_or] at h
    obtain ⟨-, -, -, ⟨-, h⟩ | ⟨-, h⟩⟩ := h
    · nomatch h
    · cases body with
      | none => cases h
      | some payload => exact parseVectors_ne_valueError payload expectedCount message h

/-- The provider complains about the size of exactly the batches that it is not made for. -/
theorem embed_batchSize {apiKey : SecretValue} {post : EmbeddingRequest → EmbeddingExchange}
    {texts : List String} : self.embed apiKey post texts =
      .error (.valueError "embedding batch size was invalid") ↔
        texts = [] ∨ (texts.length : Int) > self.val.maxBatchSize := by
  unfold embed
  rw [raiseIf_bind_eq_error, raiseIf_bind_eq_error]
  constructor
  · rintro (⟨h, -⟩ | ⟨-, ⟨-, h⟩ | ⟨-, h⟩⟩)
    · exact h
    · exact absurd (Exc.valueError.inj h) (by decide)
    · exact absurd h (readExchange_ne_valueError _ _ _)
  · exact fun h => .inl ⟨h, rfl⟩

end SiliconFlowEmbeddingProvider

/-! ## The batches of a job -/

section

variable [Sha256] [PyStr] [VectorColumn]

/-- The run of a job makes no call that the provider refuses for its size. -/
structure RespectsBatchLimit (settings : Settings) (client : EmbeddingClient) (c : CatalogTables)
    (job : ToolSearchReindexJob) (s : ReindexState) : Prop where
  bounded : ∀ r s' calls, (settings.reindexTools client).execute c
      (RunToolSearchReindexJob.reindexCommand job) s = (r, s') →
    s'.embedded = s.embedded ++ calls → ∀ texts ∈ calls,
      1 ≤ texts.length ∧ (texts.length : Int) ≤ settings.embeddingProvider.val.maxBatchSize
  notRefused : ∀ r s' before texts after, (settings.reindexTools client).execute c
      (RunToolSearchReindexJob.reindexCommand job) s = (r, s') →
    s'.embedded = s.embedded ++ (before ++ texts :: after) →
      settings.embeddingProvider.embed client.apiKey (client.post (s.embedded ++ before)) texts ≠
        .error (.valueError "embedding batch size was invalid")

namespace ReindexTools

variable {self : ReindexTools} {c : CatalogTables} {command : ReindexToolsCommand}
  {s s' : ReindexState} {r : Except Exc ReindexToolsResult} {documents : List ToolSearchDocument}

/-- A run asks the provider for slices of the round, beginning with the first. -/
theorem execute_slices (hsize : 1 ≤ command.batchSize ∧ command.batchSize ≤ 64)
    (hdocuments : publishedDocuments c command.context.tenantId = .ok documents)
    (hdry : command.dryRun = false) (hprovider : self.val.embeddingProvider ≠ none)
    (h : self.execute c command s = (r, s')) :
    ∃ n, s'.embedded = s.embedded ++ ((Batch.slices command.batchSize.toNat
        (self.todo command s documents)).take n).map texts ∧
      (self.todo command s documents ≠ [] → 0 < n) := by
  have hpositive : 0 < command.batchSize.toNat := by omega
  have hnonempty (hne : self.todo command s documents ≠ []) :
      Batch.slices command.batchSize.toNat (self.todo command s documents) ≠ [] := by
    rw [Batch.slices_of_ne_nil hpositive hne]
    exact List.cons_ne_nil _ _
  obtain ⟨done, rest, hslices, -, hend⟩ := execute_run hsize hdocuments hdry h
  obtain ⟨rfl, hembedded, -⟩ | ⟨e, -, ⟨hnone, -, -⟩ | ⟨batch, rest', rfl, hembedded⟩⟩ := hend
  · rw [List.append_nil] at hslices
    refine ⟨done.length, ?_, fun hne => ?_⟩
    · rw [hembedded, hslices, List.take_length]
    · rw [hslices] at hnonempty
      exact List.length_pos_of_ne_nil (hnonempty hne)
  · exact absurd hnone hprovider
  · refine ⟨done.length + 1, ?_, fun _ => Nat.succ_pos _⟩
    rw [hembedded, hslices, List.take_length_add_append]
    rfl

end ReindexTools

/-- The batches of a job respect the limit of the provider exactly if the job asks for no larger
    ones, or has no more documents to embed than the provider takes at once. -/
theorem reindex_job_respects_limit_iff (settings : Settings) (client : EmbeddingClient)
    (create : CreateToolSearchReindexJob) (context : ActorContext) (force : Bool) {batchSize : Int}
    (hsize : 1 ≤ batchSize ∧ batchSize ≤ 64) (c : CatalogTables) (s : ReindexState) :
    RespectsBatchLimit settings client c (create.newJob context force batchSize) s ↔
      ∀ documents, publishedDocuments c context.tenantId = .ok documents →
        batchSize ≤ settings.val.embeddingBatchSize ∨
          (((settings.reindexTools client).sources.round force s.index.digests
            documents).length : Int) ≤ settings.val.embeddingBatchSize := by
  let command := RunToolSearchReindexJob.reindexCommand (create.newJob context force batchSize)
  have hsize' : 1 ≤ command.batchSize ∧ command.batchSize ≤ 64 := hsize
  have hpositive : 0 < command.batchSize.toNat := by omega
  have hprovider : (settings.reindexTools client).val.embeddingProvider ≠ none :=
    Option.some_ne_none _
  constructor
  · intro h documents hdocuments
    by_contra hlarge
    rw [not_or, not_le, not_le] at hlarge
    obtain ⟨hbatch, hmany⟩ := hlarge
    -- Both are too large, so the first slice that is sent is larger than the provider takes.
    have hlimit : 1 ≤ settings.val.embeddingBatchSize := (settings.batchSize_bounds).1
    have hne : (settings.reindexTools client).todo command s documents ≠ [] := by
      intro hnil
      change (((settings.reindexTools client).todo command s documents).length : Int) > _ at hmany
      rw [hnil, List.length_nil] at hmany
      omega
    rcases hrun : (settings.reindexTools client).execute c command s with ⟨r, s'⟩
    obtain ⟨n, hembedded, hcalls⟩ :=
      ReindexTools.execute_slices hsize' hdocuments rfl hprovider hrun
    obtain ⟨n, rfl⟩ := Nat.exists_eq_add_one.2 (hcalls hne)
    rw [Batch.slices_of_ne_nil hpositive hne, List.take_succ_cons, List.map_cons] at hembedded
    have hfirst := (h.bounded _ _ _ hrun hembedded _ List.mem_cons_self).2
    rw [List.length_map, List.length_take] at hfirst
    change ((min command.batchSize.toNat ((settings.reindexTools client).todo command s
      documents).length : Nat) : Int) ≤ settings.val.embeddingBatchSize at hfirst
    change settings.val.embeddingBatchSize < command.batchSize at hbatch
    change settings.val.embeddingBatchSize <
      (((settings.reindexTools client).todo command s documents).length : Int) at hmany
    omega
  · intro h
    -- Every call sends a slice of the round, which is at most a batch and at most the round.
    have hbounded : ∀ r s' calls, (settings.reindexTools client).execute c command s = (r, s') →
        s'.embedded = s.embedded ++ calls → ∀ texts ∈ calls, 1 ≤ texts.length ∧
          (texts.length : Int) ≤ settings.embeddingProvider.val.maxBatchSize := by
      intro r s' calls hrun hcalls texts htexts
      obtain ⟨e, he⟩ | ⟨-, documents, hdocuments⟩ :=
        (settings.reindexTools client).execute_cases c command s
      · cases he.symm.trans hrun
        rw [List.self_eq_append_right.1 hcalls] at htexts
        cases htexts
      · obtain ⟨n, hembedded, -⟩ :=
          ReindexTools.execute_slices hsize' hdocuments rfl hprovider hrun
        rw [List.append_cancel_left (hcalls.symm.trans hembedded)] at htexts
        obtain ⟨slice, hslice, rfl⟩ := List.mem_map.1 htexts
        obtain ⟨hone, hmost⟩ :=
          Batch.length_of_mem_slices hpositive (List.mem_of_mem_take hslice)
        have hmany := h documents hdocuments
        rw [List.length_map]
        change 1 ≤ slice.length ∧ (slice.length : Int) ≤ settings.val.embeddingBatchSize
        change command.batchSize ≤ _ ∨ (((settings.reindexTools client).todo command s
          documents).length : Int) ≤ _ at hmany
        omega
    refine ⟨hbounded, fun r s' before texts after hrun hcalls hrefused => ?_⟩
    obtain ⟨hone, hmost⟩ := hbounded r s' _ hrun hcalls texts (by simp)
    -- A refused call would be empty or too large.
    obtain rfl | hlarge := SiliconFlowEmbeddingProvider.embed_batchSize.1 hrefused
    · cases hone
    · omega

end

section

attribute [local instance] zeroSha256 plainStr exactColumn

def defaultSettings : Settings := ⟨{}, by decide +kernel⟩

def singleTextSettings : Settings := ⟨{ embeddingBatchSize := 1 }, by decide +kernel⟩

def silentClient : EmbeddingClient where
  apiKey := ⟨"key", by decide⟩
  post _ _ := .timedOut
  now _ := 0
  newId _ := "embedding-1"

def jobCreation : CreateToolSearchReindexJob where
  newId := "job-1"
  createdAt := 0
  embeddingModel := defaultSettings.val.embeddingModel
  embeddingDimensions := defaultSettings.val.embeddingDimensions
  embeddingAvailable := true

/-- Two documents fit a batch of the default settings, whatever the job asks for. -/
theorem reindex_job_respects_limit_default :
    RespectsBatchLimit defaultSettings silentClient searchedCatalog
      (jobCreation.newJob (forcedCommand false).context false 64) (freshState emptyIndex) := by
  apply (reindex_job_respects_limit_iff defaultSettings silentClient jobCreation
    (forcedCommand false).context false (by decide) searchedCatalog (freshState emptyIndex)).2
  intro documents hdocuments
  have htwo : (searchedCatalog.listPublishedByTenant "tenant-1").length = 2 := by decide +kernel
  have hlength := (publishedDocuments_versions hdocuments).length_eq
  rw [List.length_map, List.length_map] at hlength
  have hround : ((defaultSettings.reindexTools silentClient).sources.round false
      (freshState emptyIndex).index.digests documents).length ≤ documents.length :=
    Sources.round_sublist _ |>.length_le
  right
  refine (Int.ofNat_le.2 (hround.trans_eq (hlength.trans htwo))).trans ?_
  decide

/-- With one text at a time, a job may still be created with batches of two. -/
theorem reindex_job_exceeds_limit :
    ¬ ∀ (settings : Settings) (client : EmbeddingClient) (create : CreateToolSearchReindexJob)
      (context : ActorContext) (force : Bool) (batchSize : Int) (c : CatalogTables)
      (s : ReindexState), 1 ≤ batchSize ∧ batchSize ≤ 64 →
        RespectsBatchLimit settings client c (create.newJob context force batchSize) s := by
  intro h
  have hrespects := h singleTextSettings silentClient jobCreation (forcedCommand false).context
    false 2 searchedCatalog (freshState emptyIndex) (by decide)
  have hcalls : ∃ texts ∈ ((singleTextSettings.reindexTools silentClient).execute searchedCatalog
      (RunToolSearchReindexJob.reindexCommand (jobCreation.newJob (forcedCommand false).context
        false 2)) (freshState emptyIndex)).2.embedded, texts.length = 2 := by
    decide +kernel
  obtain ⟨texts, htexts, hlength⟩ := hcalls
  have hmost := (hrespects.bounded _ _ _ Prod.mk.eta.symm (List.nil_append _).symm texts htexts).2
  rw [hlength] at hmost
  exact absurd hmost (by decide)

end

end NexusMcp
