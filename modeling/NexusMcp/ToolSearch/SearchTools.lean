-- SUMMARY: The search of the meta tool: the policy filters what the branches retrieved.
import NexusMcp.Policy.Domain
import NexusMcp.Select.FirstAllowed
import NexusMcp.ToolSearch.HybridSearch
import NexusMcp.Toolsets.Runtime

/-!
# Tool Search for the Meta Tool

More hits are fetched than are returned. A loop over them asks the policy and stops at the
limit; the diagnostics of the hits that are left are looked up by version.
-/

namespace NexusMcp

open Txn (Lasting)

structure SearchToolsQuery where
  context : ActorContext
  text : String
  retrievalMode : ToolRetrievalMode
  limit : Int := 5
  namespaceName : Option String := none
  sideEffect : Option ToolSideEffect := none
  eligibleToolIds : Option (List Id) := none

/-! ## Raw results -/

/-- `raw_hits`, and the dictionary `raw_diagnostics`. -/
structure RawSearch where
  hits : List PublishedToolSearchHit
  diagnostics : List (Id × ToolSearchHitDiagnostics)

def RawSearch.ofLexical (hits : List PublishedToolSearchHit) : RawSearch where
  hits := hits
  diagnostics := Select.ofItems ((hits.zipIdx 1).map fun (hit, position) => (hit.identity, {
    scoreKind := .fts
    lexicalRank := some position
    lexicalScore := some hit.rank }))

def RawSearch.ofDetailed (detailed : HybridSearchResult) : RawSearch where
  hits := detailed.hits
  diagnostics := detailed.diagnostics.map fun (toolVersionId, diagnostic) => (toolVersionId, {
    scoreKind := .rrf
    lexicalRank := diagnostic.lexicalRank
    lexicalScore := diagnostic.lexicalScore
    vectorRank := diagnostic.vectorRank
    vectorCosineSimilarity := diagnostic.vectorCosineSimilarity
    rrfScore := some diagnostic.rrfScore })

/-- The raw result of a hybrid search without diagnostics. -/
def RawSearch.ofHybrid (hits : List PublishedToolSearchHit) : RawSearch where
  hits := hits
  diagnostics := Select.ofItems (hits.map fun hit => (hit.identity, {
    scoreKind := .rrf
    rrfScore := some hit.rank }))

/-! ## The search -/

structure SearchToolsFields where
  lexicalSearch : SearchPublishedToolsQuery → Except Exc (List PublishedToolSearchHit)
  principalResolver : ActorContext → Except Exc InternalPrincipal
  policyEvaluator : PolicyEvaluationInput → Except Exc PolicyDecision
  hybridSearch :
    Option (SearchPublishedToolsQuery → Except Exc (List PublishedToolSearchHit)) := none
  hybridDiagnosticSearch :
    Option (SearchPublishedToolsQuery → Except Exc HybridSearchResult) := none
  hybridIndexVersion : Option String := none
  overfetchFactor : Int := 4

instance : PostInit SearchToolsFields where
  checks self := [
    (self.overfetchFactor ≤ 0, "tool search overfetch factor must be positive"),
    (self.hybridSearch.isSome ∧ isBlank (self.hybridIndexVersion.getD ""),
      "hybrid tool search must declare an index version")]

abbrev SearchTools := Checked SearchToolsFields

namespace SearchTools

def searchQuery (self : SearchTools) (query : SearchToolsQuery) : SearchPublishedToolsQuery where
  context := query.context
  text := query.text
  limit := min (query.limit * self.val.overfetchFactor) 50
  namespaceName := query.namespaceName
  sideEffect := query.sideEffect
  eligibleToolIds := query.eligibleToolIds

/-- The search of a mode. -/
def retrieve (self : SearchTools) (mode : ToolRetrievalMode)
    (searchQuery : SearchPublishedToolsQuery) : Except Exc RawSearch :=
  match mode with
  | .hybrid =>
    match self.val.hybridSearch with
    | none => .error (.nexus .toolSearchModeUnavailable "hybrid tool search is not indexed")
    | some hybridSearch =>
      match self.val.hybridDiagnosticSearch with
      | some diagnosticSearch => (diagnosticSearch searchQuery).map .ofDetailed
      | none => (hybridSearch searchQuery).map .ofHybrid
  | .lexical => (self.val.lexicalSearch searchQuery).map .ofLexical

/-- What the policy is asked about a hit. -/
def policyInput (context : ActorContext) (principal : InternalPrincipal)
    (argumentsDigest : String) (hit : PublishedToolSearchHit) :
    Except Exc PolicyEvaluationInput :=
  construct {
    tenantId := context.tenantId
    principal := principal
    toolId := hit.tool.val.toolId
    toolVersionId := hit.tool.val.toolVersionId
    action := .call
    sideEffect := hit.tool.val.sideEffect
    argumentsDigest := argumentsDigest }

/-- `decision.effect is not PolicyEffect.DENY`. -/
def allows (self : SearchTools) (context : ActorContext) (principal : InternalPrincipal)
    (argumentsDigest : String) (hit : PublishedToolSearchHit) : Except Exc Bool := do
  let input ← policyInput context principal argumentsDigest hit
  let decision ← self.val.policyEvaluator input
  return decision.effect ≠ .deny

/-- `raw_diagnostics[hit.tool.tool_version_id]`, under its key. -/
def diagnosticOf (raw : RawSearch) (hit : PublishedToolSearchHit) :
    Except Exc (Id × ToolSearchHitDiagnostics) :=
  match raw.diagnostics.lookup hit.identity with
  | some diagnostic => .ok (hit.identity, diagnostic)
  | none => .error (.other "KeyError")

/-- `execute`, from the raw result on. -/
def filterRaw [Sha256] (self : SearchTools) (query : SearchToolsQuery) (raw : RawSearch) :
    Except Exc SearchToolsResult := do
  let principal ← self.val.principalResolver query.context
  let emptyArgumentsDigest ← canonicalJsonDigest (.obj [])
  let visible ← Select.firstAllowed (self.allows query.context principal emptyArgumentsDigest)
    query.limit.toNat raw.hits []
  let diagnostics ← visible.mapM (diagnosticOf raw)
  return {
    hits := visible
    retrievalMode := query.retrievalMode
    indexVersion :=
      if query.retrievalMode = .hybrid then self.val.hybridIndexVersion else none
    diagnostics := some (Select.ofItems diagnostics) }

def execute [Sha256] (self : SearchTools) (query : SearchToolsQuery) :
    Except Exc SearchToolsResult := do
  raiseIf (¬ (1 ≤ query.limit ∧ query.limit ≤ 10))
    (.nexus .invalidArguments "Meta Tool search limit must be between 1 and 10")
  let raw ← self.retrieve query.retrievalMode (self.searchQuery query)
  self.filterRaw query raw

/-! ## Denied hits -/

/-- The policy decides to deny the principal a call of the tool. -/
def Denied (self : SearchTools) (context : ActorContext) (principal : InternalPrincipal)
    (argumentsDigest : String) (hit : PublishedToolSearchHit) : Prop :=
  ∃ input decision, policyInput context principal argumentsDigest hit = .ok input ∧
    self.val.policyEvaluator input = .ok decision ∧ decision.effect = .deny

variable {self : SearchTools} {context : ActorContext} {principal : InternalPrincipal}
  {argumentsDigest : String} {hit : PublishedToolSearchHit}

theorem admits_allows :
    Select.admits (self.allows context principal argumentsDigest) hit = true ↔
      ¬ self.Denied context principal argumentsDigest hit := by
  unfold Select.admits allows Denied
  cases hinput : policyInput context principal argumentsDigest hit with
  | error e => simp [Bind.bind, Except.bind]
  | ok input =>
    cases hdecision : self.val.policyEvaluator input with
    | error e => simp [Bind.bind, Except.bind, hdecision]
    | ok decision => simp [Bind.bind, Except.bind, hdecision, Pure.pure, Except.pure]

instance : DecidablePred (self.Denied context principal argumentsDigest) := fun hit =>
  decidable_of_iff (Select.admits (self.allows context principal argumentsDigest) hit = false) (by
    rw [← Bool.not_eq_true, admits_allows, not_not])

theorem filter_admits {hits : List PublishedToolSearchHit} :
    hits.filter (Select.admits (self.allows context principal argumentsDigest)) =
      hits.filter fun hit => ¬ self.Denied context principal argumentsDigest hit := by
  apply List.filter_congr
  intro hit _
  rw [Bool.eq_iff_iff, admits_allows, decide_eq_true_eq]

end SearchTools

/-! ## The ranks in the diagnostics -/

/-- Every hit of a raw result has diagnostics, and the ranks in them are first positions in the
    lists that the branches returned. -/
structure RawSearch.Explained (raw : RawSearch)
    (lexicalHits vectorHits : List PublishedToolSearchHit) : Prop where
  once : (raw.hits.map (·.identity)).Nodup
  present : ∀ hit ∈ raw.hits, ∃ diagnostic, raw.diagnostics.lookup hit.identity = some diagnostic
  ranks : ∀ entry ∈ raw.diagnostics,
    entry.2.lexicalRank = Select.firstPosition entry.1 (lexicalHits.map (·.identity)) ∧
      entry.2.vectorRank = Select.firstPosition entry.1 (vectorHits.map (·.identity))

namespace RawSearch

variable {hits above rest lexicalHits vectorHits : List PublishedToolSearchHit}

/-- The items of the dictionary that a lexical search is explained by. -/
def lexicalItems (hits : List PublishedToolSearchHit) (start : Nat) :
    List (Id × ToolSearchHitDiagnostics) :=
  (hits.zipIdx start).map fun (hit, position) => (hit.identity, {
    scoreKind := .fts
    lexicalRank := some position
    lexicalScore := some hit.rank })

theorem keys_lexicalItems {start : Nat} :
    (lexicalItems hits start).map Prod.fst = hits.map (·.identity) := by
  unfold lexicalItems
  rw [List.map_map]
  change (hits.zipIdx start).map (PublishedToolSearchHit.identity ∘ Prod.fst) = _
  rw [← List.map_map, List.zipIdx_map_fst]

theorem diagnostics_ofLexical (h : (hits.map (·.identity)).Nodup) :
    (ofLexical hits).diagnostics = lexicalItems hits 1 :=
  Select.ofItems_of_nodup (keys_lexicalItems ▸ h)

theorem explained_ofLexical (h : (hits.map (·.identity)).Nodup) :
    (ofLexical hits).Explained hits [] where
  once := h
  present hit hhit := by
    rw [diagnostics_ofLexical h]
    apply Select.exists_lookup
    rw [keys_lexicalItems]
    exact List.mem_map_of_mem hhit
  ranks entry hentry := by
    rw [diagnostics_ofLexical h] at hentry
    obtain ⟨⟨hit, position⟩, hmem, rfl⟩ := List.mem_map.1 hentry
    obtain ⟨hposition, hhit⟩ := List.mk_mem_zipIdx_iff_le_and_getElem?_sub.1 hmem
    have hidentity : (hits.map (·.identity))[position - 1]? = some hit.identity := by
      rw [List.getElem?_map, hhit, Option.map_some]
    refine ⟨?_, rfl⟩
    rw [Select.firstPosition_of_nodup h hidentity, Nat.sub_add_cancel hposition]

/-- What is found below a hit does not change its diagnostics. -/
theorem lookup_ofLexical (h : ((above ++ rest).map (·.identity)).Nodup)
    {hit : PublishedToolSearchHit} (hhit : hit ∈ above) :
    (ofLexical (above ++ rest)).diagnostics.lookup hit.identity =
      (lexicalItems above 1).lookup hit.identity := by
  have hpresent : ∃ diagnostic, (lexicalItems above 1).lookup hit.identity = some diagnostic := by
    apply Select.exists_lookup
    rw [keys_lexicalItems]
    exact List.mem_map_of_mem hhit
  obtain ⟨diagnostic, hdiagnostic⟩ := hpresent
  rw [diagnostics_ofLexical h, lexicalItems, List.zipIdx_append, List.map_append,
    List.lookup_append]
  change ((lexicalItems above 1).lookup hit.identity).or _ = _
  rw [hdiagnostic, Option.some_or]

theorem explained_ofDetailed {fusion : ReciprocalRankFusion} {limit : Int}
    {detailed : HybridSearchResult}
    (h : SearchHybridTools.executeDetailed fusion lexicalHits vectorHits limit = .ok detailed) :
    (ofDetailed detailed).Explained lexicalHits vectorHits := by
  obtain ⟨fused, hfused, hdetailed⟩ := bind_eq_ok.1 h
  cases hdetailed
  constructor
  case once => exact (ReciprocalRankFusion.laws_of_fuse hfused).once
  case present =>
    intro hit hhit
    apply Select.exists_lookup
    simp only [ofDetailed, List.map_map]
    exact List.mem_map.2 ⟨hit, hhit, rfl⟩
  case ranks =>
    intro entry hentry
    obtain ⟨⟨identity, diagnostic⟩, hmem, rfl⟩ := List.mem_map.1 hentry
    obtain ⟨hit, -, heq⟩ := List.mem_map.1 hmem
    cases heq
    exact ⟨position_rankedHits, position_rankedHits⟩

end RawSearch

/-! ## What is returned -/

/-- A result has the first hits that the policy does not deny, and explains each of them by its
    positions in the two branches. -/
structure SearchTools.Filtered (search : SearchTools) (query : SearchToolsQuery)
    (raw : RawSearch) (lexicalHits vectorHits : List PublishedToolSearchHit)
    (principal : InternalPrincipal) (argumentsDigest : String) (result : SearchToolsResult) :
    Prop where
  hits : result.hits = (raw.hits.filter fun hit =>
    ¬ search.Denied query.context principal argumentsDigest hit).take query.limit.toNat
  diagnostics : ∃ diagnostics, result.diagnostics = some diagnostics ∧
    diagnostics.map Prod.fst = result.hits.map (·.identity) ∧
    ∀ entry ∈ diagnostics,
      entry.2.lexicalRank = Select.firstPosition entry.1 (lexicalHits.map (·.identity)) ∧
        entry.2.vectorRank = Select.firstPosition entry.1 (vectorHits.map (·.identity))

namespace SearchTools

variable {self : SearchTools} {query : SearchToolsQuery} {raw raw' : RawSearch}
  {hits lexicalHits vectorHits : List PublishedToolSearchHit}
  {diagnostics : List (Id × ToolSearchHitDiagnostics)}

theorem diagnosticOf_eq_ok {hit : PublishedToolSearchHit}
    {entry : Id × ToolSearchHitDiagnostics} : diagnosticOf raw hit = .ok entry ↔
      entry.1 = hit.identity ∧ raw.diagnostics.lookup hit.identity = some entry.2 := by
  unfold diagnosticOf
  obtain ⟨identity, diagnostic⟩ := entry
  cases raw.diagnostics.lookup hit.identity with
  | none => simp
  | some found => simp [Prod.mk.injEq, eq_comm]

theorem keys_diagnostics (h : hits.mapM (diagnosticOf raw) = .ok diagnostics) :
    diagnostics.map Prod.fst = hits.map (·.identity) := by
  have hentries := mapM_eq_ok.1 h
  induction hentries with
  | nil => rfl
  | cons hentry hrest ih =>
    rw [List.map_cons, List.map_cons, (diagnosticOf_eq_ok.1 hentry).1,
      ih (mapM_eq_ok.2 hrest)]

theorem ofItems_diagnostics (h : hits.mapM (diagnosticOf raw) = .ok diagnostics)
    (hraw : (raw.hits.map (·.identity)).Nodup) (hhits : hits.Sublist raw.hits) :
    Select.ofItems diagnostics = diagnostics := by
  apply Select.ofItems_of_nodup
  rw [keys_diagnostics h]
  exact hraw.sublist (hhits.map _)

variable [Sha256]

theorem filterRaw_eq_ok {result : SearchToolsResult} (h : self.filterRaw query raw = .ok result)
    (hlimit : 1 ≤ query.limit) (hraw : raw.Explained lexicalHits vectorHits) :
    ∃ principal argumentsDigest, self.val.principalResolver query.context = .ok principal ∧
      canonicalJsonDigest (.obj []) = .ok argumentsDigest ∧
      self.Filtered query raw lexicalHits vectorHits principal argumentsDigest result := by
  obtain ⟨principal, hprincipal, h⟩ := bind_eq_ok.1 h
  obtain ⟨argumentsDigest, hdigest, h⟩ := bind_eq_ok.1 h
  obtain ⟨visible, hvisible, h⟩ := bind_eq_ok.1 h
  obtain ⟨diagnostics, hdiagnostics, h⟩ := bind_eq_ok.1 h
  cases h
  have hpositive : 0 < query.limit.toNat := by omega
  have hfirst := Select.firstAllowed_eq_ok hvisible hpositive
  rw [List.nil_append, List.length_nil, Nat.sub_zero, filter_admits] at hfirst
  have hsublist : visible.Sublist raw.hits := by
    rw [hfirst]
    exact (List.take_sublist _ _).trans List.filter_sublist
  have hdict := ofItems_diagnostics hdiagnostics hraw.once hsublist
  refine ⟨principal, argumentsDigest, hprincipal, hdigest, hfirst, diagnostics, ?_,
    keys_diagnostics hdiagnostics, ?_⟩
  · rw [hdict]
  · intro entry hentry
    obtain ⟨hit, -, hfound⟩ := (mem_mapM hdiagnostics).1 hentry
    obtain ⟨hkey, hlookup⟩ := diagnosticOf_eq_ok.1 hfound
    rw [hkey]
    exact hraw.ranks _ (Select.mem_of_lookup hlookup)

omit [Sha256] in
theorem allows_isOk {context : ActorContext} {principal : InternalPrincipal}
    (htenant : principal.val.tenantId = context.tenantId)
    (hpolicy : ∀ input, ∃ decision, self.val.policyEvaluator input = .ok decision)
    (argumentsDigest : String) (hit : PublishedToolSearchHit) :
    ∃ allowed, self.allows context principal argumentsDigest hit = .ok allowed := by
  obtain ⟨input, hinput⟩ : ∃ input, policyInput context principal argumentsDigest hit = .ok input :=
    ⟨_, construct_of_valid (by simp [Valid, PostInit.checks, htenant])⟩
  obtain ⟨decision, hdecision⟩ := hpolicy input
  exact ⟨_, bind_eq_ok.2 ⟨input, hinput, bind_eq_ok.2 ⟨decision, hdecision, rfl⟩⟩⟩

/-- An answer of the policy for every hit is enough for a result. -/
theorem filterRaw_isOk {principal : InternalPrincipal} (hlimit : 1 ≤ query.limit)
    (hraw : raw.Explained lexicalHits vectorHits)
    (hprincipal : self.val.principalResolver query.context = .ok principal)
    (htenant : principal.val.tenantId = query.context.tenantId)
    (hpolicy : ∀ input, ∃ decision, self.val.policyEvaluator input = .ok decision) :
    ∃ result, self.filterRaw query raw = .ok result := by
  obtain ⟨argumentsDigest, hdigest⟩ : ∃ argumentsDigest,
      canonicalJsonDigest (.obj []) = .ok argumentsDigest := ⟨_, rfl⟩
  have hpositive : ([] : List PublishedToolSearchHit).length < query.limit.toNat := by
    rw [List.length_nil]
    omega
  obtain ⟨visible, hvisible⟩ := Select.firstAllowed_isOk
    (fun hit (_ : hit ∈ raw.hits) => allows_isOk htenant hpolicy argumentsDigest hit) hpositive
  have hfirst := Select.firstAllowed_eq_ok hvisible hpositive
  obtain ⟨diagnostics, hdiagnostics⟩ :
      ∃ diagnostics, visible.mapM (diagnosticOf raw) = .ok diagnostics := by
    apply mapM_ok_of_forall
    intro hit hhit
    rw [hfirst, List.nil_append] at hhit
    obtain ⟨diagnostic, hdiagnostic⟩ :=
      hraw.present hit (List.mem_of_mem_filter (List.mem_of_mem_take hhit))
    exact ⟨(hit.identity, diagnostic), diagnosticOf_eq_ok.2 ⟨rfl, hdiagnostic⟩⟩
  exact ⟨_, bind_eq_ok.2 ⟨principal, hprincipal, bind_eq_ok.2 ⟨argumentsDigest, hdigest,
    bind_eq_ok.2 ⟨visible, hvisible, bind_eq_ok.2 ⟨diagnostics, hdiagnostics, rfl⟩⟩⟩⟩⟩

/-! ## Denied hits below the last one -/

/-- Two searches that differ only in where they retrieve from. -/
structure GovernedLike (search other : SearchTools) : Prop where
  principalResolver : other.val.principalResolver = search.val.principalResolver
  policyEvaluator : other.val.policyEvaluator = search.val.policyEvaluator
  hybridIndexVersion : other.val.hybridIndexVersion = search.val.hybridIndexVersion

/-- Below some hits, among which is the last one that is returned, two lists differ only in
    denied hits. -/
structure DeniedBelow (denied : PublishedToolSearchHit → Prop) [DecidablePred denied]
    (limit : Nat) (above rest rest' : List PublishedToolSearchHit) : Prop where
  remaining : (rest.filter fun hit => ¬ denied hit) = rest'.filter fun hit => ¬ denied hit
  last : ((above ++ rest).filter fun hit => ¬ denied hit).take limit =
    (above.filter fun hit => ¬ denied hit).take limit

/-- Two raw results of a mode differ only in denied hits below the last one that is returned. The
    diagnostics of a lexical search are made of its hits. -/
def DiffersInDenied (denied : PublishedToolSearchHit → Prop) [DecidablePred denied] (limit : Nat)
    (mode : ToolRetrievalMode) (raw raw' : RawSearch) : Prop :=
  ∃ above rest rest', raw.hits = above ++ rest ∧ raw'.hits = above ++ rest' ∧
    DeniedBelow denied limit above rest rest' ∧
    (mode = .hybrid → ∀ hit ∈ above,
      raw.diagnostics.lookup hit.identity = raw'.diagnostics.lookup hit.identity)

variable {self' : SearchTools} {principal : InternalPrincipal} {argumentsDigest : String}
  {above rest rest' : List PublishedToolSearchHit}

omit [Sha256] in
theorem firstAllowed_above (hlimit : 1 ≤ query.limit)
    (h : DeniedBelow (self.Denied query.context principal argumentsDigest)
      query.limit.toNat above rest rest') :
    Select.firstAllowed (self.allows query.context principal argumentsDigest)
        query.limit.toNat (above ++ rest) [] =
      Select.firstAllowed (self.allows query.context principal argumentsDigest)
        query.limit.toNat (above ++ rest') [] := by
  have hlast := h.last
  rw [List.filter_append] at hlast
  apply Select.firstAllowed_congr
  · rw [List.length_nil]
    omega
  · rw [filter_admits, filter_admits, List.length_nil, Nat.zero_add]
    exact Select.le_length_or_eq_nil hlast
  · rw [filter_admits, filter_admits]
    exact h.remaining

omit [Sha256] in
theorem mapM_diagnosticOf_congr (h : ∀ hit ∈ hits,
    raw.diagnostics.lookup hit.identity = raw'.diagnostics.lookup hit.identity) :
    hits.mapM (diagnosticOf raw) = hits.mapM (diagnosticOf raw') := by
  induction hits with
  | nil => rfl
  | cons hit hits ih =>
    obtain ⟨hhit, hrest⟩ := List.forall_mem_cons.1 h
    have hentry : diagnosticOf raw hit = diagnosticOf raw' hit := by
      unfold diagnosticOf
      rw [hhit]
    rw [List.mapM_cons, List.mapM_cons, hentry, ih hrest]

/-- What is denied below the last hit that is returned leaves no trace. -/
theorem filterRaw_congr (hgoverned : GovernedLike self self') (hlimit : 1 ≤ query.limit)
    (hprincipal : self.val.principalResolver query.context = .ok principal)
    (hdigest : canonicalJsonDigest (.obj []) = .ok argumentsDigest)
    (hraw : raw.hits = above ++ rest) (hraw' : raw'.hits = above ++ rest')
    (h : DeniedBelow (self.Denied query.context principal argumentsDigest)
      query.limit.toNat above rest rest')
    (hdiagnostics : ∀ hit ∈ above,
      raw.diagnostics.lookup hit.identity = raw'.diagnostics.lookup hit.identity) :
    self.filterRaw query raw = self'.filterRaw query raw' := by
  have hallows : self'.allows = self.allows := by
    unfold allows
    rw [hgoverned.policyEvaluator]
  unfold filterRaw
  rw [hgoverned.principalResolver, hgoverned.hybridIndexVersion, hprincipal, hdigest, hallows,
    hraw, hraw']
  change (Select.firstAllowed _ _ _ _ >>= _) = (Select.firstAllowed _ _ _ _ >>= _)
  rw [← firstAllowed_above hlimit h]
  cases hvisible : Select.firstAllowed (self.allows query.context principal argumentsDigest)
      query.limit.toNat (above ++ rest) [] with
  | error e => rfl
  | ok visible =>
    have hpositive : 0 < query.limit.toNat := by omega
    have hfirst := Select.firstAllowed_eq_ok hvisible hpositive
    rw [filter_admits, List.nil_append, List.length_nil, Nat.sub_zero, h.last] at hfirst
    have hentries : visible.mapM (diagnosticOf raw) = visible.mapM (diagnosticOf raw') := by
      apply mapM_diagnosticOf_congr
      intro hit hhit
      rw [hfirst] at hhit
      exact hdiagnostics hit (List.mem_of_mem_filter (List.mem_of_mem_take hhit))
    change (visible.mapM (diagnosticOf raw) >>= _) = (visible.mapM (diagnosticOf raw') >>= _)
    rw [hentries]

end SearchTools

/-! ## The wired application -/

/-- The application wires one hybrid search as the hybrid and as the diagnostic one. It fuses
    what its branches return. -/
structure SearchTools.Wired (search : SearchTools) (fusion : ReciprocalRankFusion)
    (branches : SearchPublishedToolsQuery →
      Except Exc (List PublishedToolSearchHit × List PublishedToolSearchHit)) : Prop where
  diagnosticSearch : search.val.hybridSearch.isSome → search.val.hybridDiagnosticSearch = some
    fun searchQuery => do
      let (lexicalHits, vectorHits) ← branches searchQuery
      SearchHybridTools.executeDetailed fusion lexicalHits vectorHits searchQuery.limit

namespace SearchTools

/-- What the branches of a mode return. In the lexical mode there is no vector branch. -/
def branchHits (self : SearchTools) (branches : SearchPublishedToolsQuery →
      Except Exc (List PublishedToolSearchHit × List PublishedToolSearchHit))
    (mode : ToolRetrievalMode) (searchQuery : SearchPublishedToolsQuery) :
    Except Exc (List PublishedToolSearchHit × List PublishedToolSearchHit) :=
  match mode with
  | .lexical => (self.val.lexicalSearch searchQuery).map (·, [])
  | .hybrid => branches searchQuery

/-- The raw hits of a mode: the lexical branch, or the fusion of both. -/
def rawHits (fusion : ReciprocalRankFusion) (mode : ToolRetrievalMode)
    (lexicalHits vectorHits : List PublishedToolSearchHit) (limit : Int) :
    Except Exc (List PublishedToolSearchHit) :=
  match mode with
  | .lexical => .ok lexicalHits
  | .hybrid => fusion.fuse [lexicalHits, vectorHits] limit

variable {self : SearchTools} {fusion : ReciprocalRankFusion}
  {branches : SearchPublishedToolsQuery →
    Except Exc (List PublishedToolSearchHit × List PublishedToolSearchHit)}
  {mode : ToolRetrievalMode} {searchQuery : SearchPublishedToolsQuery} {raw : RawSearch}
  {lexicalHits vectorHits : List PublishedToolSearchHit}

/-- What a wired search retrieves are the raw hits of its branches, with their ranks. -/
theorem retrieve_eq_ok (hwired : self.Wired fusion branches)
    (hbranches : self.branchHits branches mode searchQuery = .ok (lexicalHits, vectorHits))
    (hlexical : (lexicalHits.map (·.identity)).Nodup)
    (h : self.retrieve mode searchQuery = .ok raw) :
    rawHits fusion mode lexicalHits vectorHits searchQuery.limit = .ok raw.hits ∧
      raw.Explained lexicalHits vectorHits := by
  cases mode with
  | lexical =>
    obtain ⟨hits, hhits, heq⟩ := map_eq_ok.1 hbranches
    cases heq
    obtain ⟨hits', hhits', rfl⟩ := map_eq_ok.1 h
    cases hhits.symm.trans hhits'
    exact ⟨rfl, RawSearch.explained_ofLexical hlexical⟩
  | hybrid =>
    simp only [retrieve] at h
    split at h
    · cases h
    · next hybridSearch hhybrid =>
      rw [hwired.diagnosticSearch (by rw [hhybrid]; rfl)] at h
      obtain ⟨detailed, hdetailed, rfl⟩ := map_eq_ok.1 h
      obtain ⟨hits, hhits, hdetailed⟩ := bind_eq_ok.1 hdetailed
      cases hhits.symm.trans hbranches
      refine ⟨?_, RawSearch.explained_ofDetailed hdetailed⟩
      obtain ⟨fused, hfused, heq⟩ := bind_eq_ok.1 hdetailed
      cases heq
      exact hfused

theorem executeDetailed_isOk {limit : Int} (hlimit : 1 ≤ limit) : ∃ detailed,
    SearchHybridTools.executeDetailed fusion lexicalHits vectorHits limit = .ok detailed :=
  ⟨_, bind_eq_ok.2 ⟨_, ReciprocalRankFusion.fuse_eq_ok hlimit, rfl⟩⟩

theorem retrieve_isOk (hwired : self.Wired fusion branches)
    (hmode : mode = .hybrid → self.val.hybridSearch.isSome)
    (hbranches : self.branchHits branches mode searchQuery = .ok (lexicalHits, vectorHits))
    (hlimit : 1 ≤ searchQuery.limit) : ∃ raw, self.retrieve mode searchQuery = .ok raw := by
  cases mode with
  | lexical =>
    obtain ⟨hits, hhits, -⟩ := map_eq_ok.1 hbranches
    exact ⟨_, map_eq_ok.2 ⟨hits, hhits, rfl⟩⟩
  | hybrid =>
    obtain ⟨hybridSearch, hhybrid⟩ := Option.isSome_iff_exists.1 (hmode rfl)
    simp only [retrieve, hhybrid, hwired.diagnosticSearch (hmode rfl)]
    obtain ⟨detailed, hdetailed⟩ : ∃ detailed, SearchHybridTools.executeDetailed fusion
        lexicalHits vectorHits searchQuery.limit = .ok detailed := executeDetailed_isOk hlimit
    exact ⟨_, map_eq_ok.2 ⟨detailed, bind_eq_ok.2 ⟨_, hbranches, hdetailed⟩, rfl⟩⟩

theorem searchQuery_limit {query : SearchToolsQuery} (h : 1 ≤ query.limit) :
    1 ≤ (self.searchQuery query).limit := by
  have hvalid := self.property
  simp only [Valid, PostInit.checks, List.forall_mem_cons, decide_eq_false_iff_not] at hvalid
  have hfactor : 1 ≤ self.val.overfetchFactor := by omega
  have hproduct := one_le_mul_of_one_le_of_one_le h hfactor
  simp only [searchQuery]
  omega

theorem execute_eq_ok [Sha256] {query : SearchToolsQuery} {result : SearchToolsResult} :
    self.execute query = .ok result ↔ (1 ≤ query.limit ∧ query.limit ≤ 10) ∧
      ∃ raw, self.retrieve query.retrievalMode (self.searchQuery query) = .ok raw ∧
        self.filterRaw query raw = .ok result := by
  unfold execute
  rw [raiseIf_bind_eq_ok, bind_eq_ok, not_not]

end SearchTools

/-- What the branches of a hybrid search return, in one run of it. -/
def SearchHybridTools.branches [TextIndex] [CosineDistance] (self : SearchHybridTools)
    (c : CatalogTables) (index : ToolSearchIndex) (searchQuery : SearchPublishedToolsQuery) :
    Except Exc (List PublishedToolSearchHit × List PublishedToolSearchHit) :=
  (Lasting.gather (SearchPublishedTools.executeRecorded c searchQuery)
    (self.vectorSearch.execute c index searchQuery) {}).1.map fun (lexicalHits, vectorResult) =>
      (lexicalHits, vectorResult.val.hits)

/-- `create_app`: the search over the catalogue and the vector index. -/
def createSearchTools [TextIndex] [CosineDistance] (c : CatalogTables) (index : ToolSearchIndex)
    (principalResolver : ActorContext → Except Exc InternalPrincipal)
    (policyEvaluator : PolicyEvaluationInput → Except Exc PolicyDecision)
    (hybridSearch : Option SearchHybridTools) : Except Exc SearchTools :=
  let executeDetailed (hybrid : SearchHybridTools) (searchQuery : SearchPublishedToolsQuery) :=
    (hybrid.gatherDetailed c index searchQuery {}).1
  construct {
    lexicalSearch := SearchPublishedTools.execute c
    principalResolver := principalResolver
    policyEvaluator := policyEvaluator
    hybridSearch := hybridSearch.map fun hybrid searchQuery =>
      (executeDetailed hybrid searchQuery).map (·.hits)
    hybridDiagnosticSearch := hybridSearch.map executeDetailed
    hybridIndexVersion := hybridSearch.map (·.vectorSearch.indexVersion) }

section

variable [TextIndex] [CosineDistance] {c : CatalogTables} {index : ToolSearchIndex}

theorem SearchHybridTools.gatherDetailed_fst {hybrid : SearchHybridTools}
    {searchQuery : SearchPublishedToolsQuery} :
    (hybrid.gatherDetailed c index searchQuery {}).1 = (do
      let (lexicalHits, vectorHits) ← hybrid.branches c index searchQuery
      executeDetailed hybrid.rankFusion lexicalHits vectorHits searchQuery.limit) := by
  unfold gatherDetailed branches
  rw [Lasting.bind_apply]
  rcases Lasting.gather (SearchPublishedTools.executeRecorded c searchQuery)
    (hybrid.vectorSearch.execute c index searchQuery) {} with ⟨_ | hits, calls⟩ <;> rfl

/-- The composition of the application is wired as the results about it ask for. -/
theorem createSearchTools_wired {principalResolver : ActorContext → Except Exc InternalPrincipal}
    {policyEvaluator : PolicyEvaluationInput → Except Exc PolicyDecision}
    {hybrid : SearchHybridTools} {search : SearchTools}
    (h : createSearchTools c index principalResolver policyEvaluator (some hybrid) =
      .ok search) : search.Wired hybrid.rankFusion (hybrid.branches c index) where
  diagnosticSearch _ := by
    rw [val_of_construct h]
    simp only [Option.map_some, Option.some.injEq]
    funext searchQuery
    exact SearchHybridTools.gatherDetailed_fst

end

/-! ## The endpoint's filter -/

open SearchTools in
/-- A search returns the first hits that the policy does not deny, with the ranks they have in
    the branches. It does return where the branches and the policy answer, and no denied hit
    below the last one that is returned makes a difference. -/
theorem policy_filtered_search [Sha256] (self : SearchTools) (fusion : ReciprocalRankFusion)
    (branches : SearchPublishedToolsQuery →
      Except Exc (List PublishedToolSearchHit × List PublishedToolSearchHit))
    (hwired : self.Wired fusion branches) (query : SearchToolsQuery)
    (lexicalHits vectorHits : List PublishedToolSearchHit)
    (hbranches : self.branchHits branches query.retrievalMode (self.searchQuery query) =
      .ok (lexicalHits, vectorHits))
    (hlexical : (lexicalHits.map (·.identity)).Nodup) :
    (∀ result, self.execute query = .ok result → ∃ raw principal argumentsDigest,
      self.retrieve query.retrievalMode (self.searchQuery query) = .ok raw ∧
      rawHits fusion query.retrievalMode lexicalHits vectorHits (self.searchQuery query).limit =
        .ok raw.hits ∧
      self.val.principalResolver query.context = .ok principal ∧
      canonicalJsonDigest (.obj []) = .ok argumentsDigest ∧
      self.Filtered query raw lexicalHits vectorHits principal argumentsDigest result) ∧
    (∀ principal, 1 ≤ query.limit → query.limit ≤ 10 →
      (query.retrievalMode = .hybrid → self.val.hybridSearch.isSome) →
      self.val.principalResolver query.context = .ok principal →
      principal.val.tenantId = query.context.tenantId →
      (∀ input, ∃ decision, self.val.policyEvaluator input = .ok decision) →
      ∃ result, self.execute query = .ok result) ∧
    ∀ other raw raw' principal argumentsDigest, GovernedLike self other →
      self.retrieve query.retrievalMode (self.searchQuery query) = .ok raw →
      other.retrieve query.retrievalMode (other.searchQuery query) = .ok raw' →
      (raw'.hits.map (·.identity)).Nodup →
      self.val.principalResolver query.context = .ok principal →
      canonicalJsonDigest (.obj []) = .ok argumentsDigest →
      DiffersInDenied (self.Denied query.context principal argumentsDigest) query.limit.toNat
        query.retrievalMode raw raw' →
      self.execute query = other.execute query := by
  refine ⟨?_, ?_, ?_⟩
  · intro result h
    obtain ⟨⟨hlimit, -⟩, raw, hretrieve, h⟩ := execute_eq_ok.1 h
    obtain ⟨hhits, hexplained⟩ := retrieve_eq_ok hwired hbranches hlexical hretrieve
    obtain ⟨principal, argumentsDigest, hprincipal, hdigest, hfiltered⟩ :=
      filterRaw_eq_ok h hlimit hexplained
    exact ⟨raw, principal, argumentsDigest, hretrieve, hhits, hprincipal, hdigest, hfiltered⟩
  -- With a policy that answers, no step of the search can raise.
  · intro principal hlimit hmax hmode hprincipal htenant hpolicy
    obtain ⟨raw, hretrieve⟩ := retrieve_isOk hwired hmode hbranches (searchQuery_limit hlimit)
    obtain ⟨-, hexplained⟩ := retrieve_eq_ok hwired hbranches hlexical hretrieve
    obtain ⟨result, hresult⟩ := filterRaw_isOk hlimit hexplained hprincipal htenant hpolicy
    exact ⟨result, execute_eq_ok.2 ⟨⟨hlimit, hmax⟩, raw, hretrieve, hresult⟩⟩
  · intro other raw raw' principal argumentsDigest hgoverned hretrieve hretrieve' honce'
      hprincipal hdigest ⟨above, rest, rest', hraw, hraw', hbelow, hdiagnostics⟩
    obtain ⟨-, hexplained⟩ := retrieve_eq_ok hwired hbranches hlexical hretrieve
    have honce := hexplained.once
    rw [hraw] at honce
    rw [hraw'] at honce'
    -- Both searches have the same hits above the cut. Their diagnostics agree there by hypothesis,
    -- or because a lexical rank is the place in the list.
    have hlookup : ∀ hit ∈ above,
        raw.diagnostics.lookup hit.identity = raw'.diagnostics.lookup hit.identity := by
      cases hmode : query.retrievalMode with
      | hybrid => exact hdiagnostics hmode
      | lexical =>
        rw [hmode] at hretrieve hretrieve'
        obtain ⟨hits, -, rfl⟩ := map_eq_ok.1 hretrieve
        obtain ⟨hits', -, rfl⟩ := map_eq_ok.1 hretrieve'
        obtain rfl : hits = above ++ rest := hraw
        obtain rfl : hits' = above ++ rest' := hraw'
        intro hit hhit
        rw [RawSearch.lookup_ofLexical honce hhit, RawSearch.lookup_ofLexical honce' hhit]
    unfold execute raiseIf
    split
    · rfl
    · next hlimit =>
      have hfiltered := filterRaw_congr hgoverned (not_not.1 hlimit).1 hprincipal hdigest hraw
        hraw' hbelow hlookup
      rw [hretrieve, hretrieve']
      exact hfiltered

/-! ### A denied tool -/

section

attribute [local instance] zeroSha256

def orderHit (tool : Tool) (version : ToolVersion) : PublishedToolSearchHit where
  tool := publishedToolFromModels tool version
  rank := 1

/-- The lexical branch finds two tools, and the vector branch the second of them. -/
def orderBranches (_ : SearchPublishedToolsQuery) :
    Except Exc (List PublishedToolSearchHit × List PublishedToolSearchHit) :=
  .ok ([orderHit listOrders listOrdersVersion, orderHit showOrder showOrderVersion],
    [orderHit showOrder showOrderVersion])

def searchingAgent : InternalPrincipal :=
  ⟨⟨"agent-1", "tenant-1", .agentService, "agent_token"⟩, by decide⟩

def gatheredOrders (query : SearchPublishedToolsQuery) : Except Exc HybridSearchResult := do
  let (lexicalHits, vectorHits) ← orderBranches query
  SearchHybridTools.executeDetailed orderSearch.rankFusion lexicalHits vectorHits query.limit

/-- The policy denies the first tool. -/
def guardedSearch : SearchTools :=
  ⟨{ lexicalSearch := fun query => (orderBranches query).map (·.1)
     principalResolver := fun _ => .ok searchingAgent
     policyEvaluator := fun input =>
       .ok ⟨if input.val.toolId = "tool-1" then .deny else .allow, "1", "rule"⟩
     hybridSearch := some fun query => (gatheredOrders query).map (·.hits)
     hybridDiagnosticSearch := some gatheredOrders
     hybridIndexVersion := some "model@2048" }, by decide⟩

def guardedQuery : SearchToolsQuery where
  context := agentContext
  text := "orders"
  retrievalMode := .hybrid

theorem policy_filtered_search_guarded : ∃ result diagnostics,
    guardedSearch.execute guardedQuery = .ok result ∧
    result.hits.map (·.identity) = ["version-2"] ∧
    result.diagnostics = some diagnostics ∧ diagnostics.map Prod.fst = ["version-2"] := by
  obtain ⟨hfiltered, hreturns, -⟩ := policy_filtered_search guardedSearch orderSearch.rankFusion
    orderBranches ⟨fun _ => rfl⟩ guardedQuery _ _ rfl (by decide +kernel)
  obtain ⟨result, hresult⟩ := hreturns searchingAgent (by decide) (by decide) (fun _ => rfl) rfl rfl
    fun _ => ⟨_, rfl⟩
  obtain ⟨raw, principal, argumentsDigest, -, -, -, -, -, diagnostics, hdiagnostics, hkeys, -⟩ :=
    hfiltered result hresult
  have hhits : result.hits.map (·.identity) = ["version-2"] := by
    have hrun : (guardedSearch.execute guardedQuery).map
        (·.hits.map (·.identity)) = .ok ["version-2"] := by
      decide +kernel
    rw [hresult] at hrun
    exact Except.ok.inj hrun
  exact ⟨result, diagnostics, hresult, hhits, hdiagnostics, hkeys.trans hhits⟩

end

end NexusMcp
