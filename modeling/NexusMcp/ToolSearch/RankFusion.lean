-- SUMMARY: Reciprocal rank fusion of search results, with its laws.
import NexusMcp.Catalog.Search
import NexusMcp.Select.Fusion
import Mathlib.Algebra.Order.Field.Basic
import Mathlib.Algebra.Order.Field.Rat
import Mathlib.Algebra.Order.Ring.Cast
import Mathlib.Data.List.Induction
import Mathlib.Data.Nat.Cast.Order.Ring
import Mathlib.Data.Prod.Lex
import Mathlib.Data.String.Basic

/-!
# Reciprocal Rank Fusion

The scores are exact rationals. The two dictionaries of the source are association lists in
the order of their first writes, under the same keys.
-/

namespace NexusMcp

/-- The version that a hit is about. -/
def PublishedToolSearchHit.identity (hit : PublishedToolSearchHit) : Id :=
  hit.tool.val.toolVersionId

structure ReciprocalRankFusionFields where
  rankConstant : Int := 60

instance : PostInit ReciprocalRankFusionFields where
  checks f := [(f.rankConstant ≤ 0, "RRF rank constant must be positive")]

abbrev ReciprocalRankFusion := Checked ReciprocalRankFusionFields

/-- The dictionaries `scores` and `tools` of a fusion. -/
structure FusionState where
  scores : List (Id × Rat) := []
  tools : List (Id × PublishedToolSearchHit) := []

namespace FusionState

/-- `scores.get(identity, 0.0)`. -/
def score (state : FusionState) (identity : Id) : Rat := (state.scores.lookup identity).getD 0

/-- `tools[identity].tool`. Every identity with a score has one. -/
def tool (state : FusionState) (identity : Id) : Option PublishedTool :=
  (state.tools.lookup identity).map (·.tool)

/-- The key that the identities are sorted by. -/
def sortKey (state : FusionState) (identity : Id) : Rat ×ₗ (String ×ₗ Id) :=
  toLex (-state.score identity,
    toLex ((state.tool identity).elim "" (·.val.canonicalName), identity))

def ordered (state : FusionState) : List Id :=
  (state.scores.map Prod.fst).insertionSort fun a b => state.sortKey a ≤ state.sortKey b

/-- The hit that is returned for an identity. -/
def result (state : FusionState) (identity : Id) : Option PublishedToolSearchHit :=
  (state.tool identity).map fun tool => { tool := tool, rank := state.score identity }

/-- The hits of `ordered[:limit]`. -/
def fused (state : FusionState) (limit : Nat) : List PublishedToolSearchHit :=
  (state.ordered.take limit).filterMap state.result

end FusionState

namespace ReciprocalRankFusion

variable (fusion : ReciprocalRankFusion)

/-- What a position adds to a score. -/
def weight (position : Nat) : Rat := 1 / (fusion.val.rankConstant + position)

/-- The loop over the hits of one ranking, from a position on. -/
def addRanking : List PublishedToolSearchHit → Nat → List Id → FusionState → FusionState
  | [], _, _, state => state
  | hit :: ranking, position, seenInRanking, state =>
    if hit.identity ∈ seenInRanking then addRanking ranking (position + 1) seenInRanking state
    else
      addRanking ranking (position + 1) (hit.identity :: seenInRanking)
        { tools := Select.setDefault state.tools hit.identity hit
          scores := Select.setItem state.scores hit.identity
            (state.score hit.identity + fusion.weight position) }

/-- The loop over the rankings. -/
def addRankings (rankings : List (List PublishedToolSearchHit)) : FusionState :=
  rankings.foldl (fun state ranking => fusion.addRanking ranking 1 [] state) {}

def fuse (rankings : List (List PublishedToolSearchHit)) (limit : Int) :
    Except Exc (List PublishedToolSearchHit) := do
  valueErrorIf (limit ≤ 0) "RRF result limit must be positive"
  return (fusion.addRankings rankings).fused limit.toNat

/-! ## The accumulated dictionaries -/

variable {fusion} {state : FusionState} {ranking : List PublishedToolSearchHit}
  {rankings rankings' : List (List PublishedToolSearchHit)} {position : Nat}
  {seenInRanking : List Id} {identity : Id}

theorem keys_addRanking (h : state.tools.map Prod.fst = state.scores.map Prod.fst) :
    (fusion.addRanking ranking position seenInRanking state).tools.map Prod.fst =
      (fusion.addRanking ranking position seenInRanking state).scores.map Prod.fst := by
  induction ranking generalizing position seenInRanking state with
  | nil => exact h
  | cons hit ranking ih =>
    unfold addRanking
    split
    · exact ih h
    · apply ih
      rw [Select.keys_setDefault, Select.keys_setItem, h]

theorem nodup_addRanking (h : (state.scores.map Prod.fst).Nodup) :
    ((fusion.addRanking ranking position seenInRanking state).scores.map Prod.fst).Nodup := by
  induction ranking generalizing position seenInRanking state with
  | nil => exact h
  | cons hit ranking ih =>
    unfold addRanking
    split
    · exact ih h
    · apply ih
      rw [Select.keys_setItem]
      exact Select.nodup_withKey h

/-- The first position of a candidate behind the head of a ranking. -/
theorem position_cons {hit : PublishedToolSearchHit} (h : identity ≠ hit.identity) :
    (((hit :: ranking).map (·.identity)).idxOf? identity).map (fun i =>
        fusion.weight (position + i)) =
      ((ranking.map (·.identity)).idxOf? identity).map fun i =>
        fusion.weight (position + 1 + i) := by
  rw [List.map_cons, List.idxOf?_cons, beq_false_of_ne h.symm]
  simp only [Bool.false_eq_true, if_false, Option.map_map]
  congr 1
  funext i
  rw [Function.comp_apply, Nat.add_right_comm, Nat.add_assoc]

/-- A ranking adds the weight of the first position to the score of what was not seen. -/
theorem score_addRanking : (fusion.addRanking ranking position seenInRanking state).score identity =
    state.score identity + if identity ∈ seenInRanking then 0 else
      (((ranking.map (·.identity)).idxOf? identity).map fun i =>
        fusion.weight (position + i)).getD 0 := by
  induction ranking generalizing position seenInRanking state with
  | nil => simp [addRanking]
  | cons hit ranking ih =>
    unfold addRanking
    split
    · next hseen =>
      rw [ih]
      by_cases hid : identity ∈ seenInRanking
      · rw [if_pos hid, if_pos hid]
      · rw [if_neg hid, if_neg hid, position_cons (ne_of_mem_of_not_mem hseen hid).symm]
    · next hfresh =>
      rw [ih, FusionState.score, Select.lookup_setItem]
      by_cases hid : identity = hit.identity
      · subst hid
        simp [hfresh, List.idxOf?_cons]
      · rw [if_neg hid, position_cons hid]
        simp only [List.mem_cons, hid, false_or, FusionState.score]

/-- A ranking adds its first hit of each identity that has none. -/
theorem lookup_addRanking :
    (fusion.addRanking ranking position seenInRanking state).tools.lookup identity =
      (state.tools.lookup identity).or (if identity ∈ seenInRanking then none else
        ranking.find? (·.identity = identity)) := by
  induction ranking generalizing position seenInRanking state with
  | nil => simp [addRanking]
  | cons hit ranking ih =>
    unfold addRanking
    split
    -- A tool counts in a ranking with its first place only.
    · next hseen =>
      rw [ih]
      by_cases hid : identity ∈ seenInRanking
      · rw [if_pos hid, if_pos hid]
      · have hne : hit.identity ≠ identity := ne_of_mem_of_not_mem hseen hid
        rw [if_neg hid, if_neg hid, List.find?_cons_of_neg (by simpa using hne)]
    · next hfresh =>
      rw [ih, Select.lookup_setDefault]
      by_cases hid : identity = hit.identity
      · subst hid
        simp [hfresh]
      · have hne : hit.identity ≠ identity := Ne.symm hid
        rw [if_neg hid, Option.or_none, List.find?_cons_of_neg (by simpa using hne)]
        simp only [List.mem_cons, hid, false_or]

/-- What the loop over the rankings has added up. -/
structure Sums (fusion : ReciprocalRankFusion) (rankings : List (List PublishedToolSearchHit))
    (state : FusionState) : Prop where
  keys : state.tools.map Prod.fst = state.scores.map Prod.fst
  nodup : (state.scores.map Prod.fst).Nodup
  score : ∀ identity, state.score identity =
    Select.score fusion.weight (rankings.map fun ranking => ranking.map (·.identity)) identity
  lookup : ∀ identity, state.tools.lookup identity =
    rankings.flatten.find? (·.identity = identity)

theorem Sums.addRanking (h : Sums fusion rankings state) :
    Sums fusion (rankings ++ [ranking]) (fusion.addRanking ranking 1 [] state) where
  keys := keys_addRanking h.keys
  nodup := nodup_addRanking h.nodup
  score identity := by
    rw [score_addRanking, h.score, if_neg List.not_mem_nil, List.map_append, List.map_singleton,
      Select.score_concat, Select.share, Select.firstPosition, Option.map_map]
    simp only [Function.comp_def, Nat.add_comm 1]
  lookup identity := by
    rw [lookup_addRanking, h.lookup, if_neg List.not_mem_nil, List.flatten_append,
      List.find?_append, List.flatten_singleton]

theorem sums_addRankings (rankings : List (List PublishedToolSearchHit)) :
    Sums fusion rankings (fusion.addRankings rankings) := by
  induction rankings using List.reverseRecOn with
  | nil => exact ⟨rfl, List.nodup_nil, fun _ => rfl, fun _ => rfl⟩
  | append_singleton rankings ranking ih =>
    have hstep : fusion.addRankings (rankings ++ [ranking]) =
        fusion.addRanking ranking 1 [] (fusion.addRankings rankings) := List.foldl_append
    rw [hstep]
    exact ih.addRanking

namespace Sums

/-- What has a score is what some ranking contains, and it has a tool from there. -/
theorem mem_keys (h : Sums fusion rankings state) : identity ∈ state.scores.map Prod.fst ↔
    ∃ tool, state.tool identity = some tool := by
  rw [← h.keys, ← not_iff_not, ← Select.lookup_eq_none]
  cases hlookup : state.tools.lookup identity <;> simp [FusionState.tool, hlookup]

theorem tool_eq_some (h : Sums fusion rankings state) {tool : PublishedTool}
    (htool : state.tool identity = some tool) :
    ∃ ranking ∈ rankings, ∃ hit ∈ ranking, hit.identity = identity ∧ hit.tool = tool := by
  obtain ⟨hit, hlookup, rfl⟩ := Option.map_eq_some_iff.1 htool
  rw [h.lookup] at hlookup
  obtain ⟨ranking, hranking, hhit⟩ := List.mem_flatten.1 (List.mem_of_find?_eq_some hlookup)
  exact ⟨ranking, hranking, hit, hhit, by simpa using List.find?_some hlookup, rfl⟩

theorem mem_keys_iff (h : Sums fusion rankings state) : identity ∈ state.scores.map Prod.fst ↔
    ∃ ranking ∈ rankings, identity ∈ ranking.map (·.identity) := by
  rw [h.mem_keys]
  constructor
  · rintro ⟨tool, htool⟩
    obtain ⟨ranking, hranking, hit, hhit, hid, -⟩ := h.tool_eq_some htool
    exact ⟨ranking, hranking, List.mem_map.2 ⟨hit, hhit, hid⟩⟩
  · rintro ⟨ranking, hranking, hid⟩
    obtain ⟨hit, hhit, hid⟩ := List.mem_map.1 hid
    cases hlookup : state.tools.lookup identity with
    | none =>
      rw [h.lookup, List.find?_eq_none] at hlookup
      have := hlookup hit (List.mem_flatten.2 ⟨ranking, hranking, hhit⟩)
      simp [hid] at this
    | some found => exact ⟨found.tool, by simp [FusionState.tool, hlookup]⟩

end Sums

end ReciprocalRankFusion

/-! ## The order of the identities -/

namespace FusionState

variable {state : FusionState} {identity : Id}

theorem mem_ordered : identity ∈ state.ordered ↔ identity ∈ state.scores.map Prod.fst :=
  List.mem_insertionSort _

theorem nodup_ordered (h : (state.scores.map Prod.fst).Nodup) : state.ordered.Nodup :=
  (List.perm_insertionSort _ _).nodup_iff.2 h

/-- The identity is part of the key, so different identities have different keys. -/
theorem sortKey_injective (state : FusionState) : Function.Injective state.sortKey := by
  intro a b h
  exact congrArg (fun key => (ofLex (ofLex key).2).2) h

theorem pairwise_ordered (h : (state.scores.map Prod.fst).Nodup) :
    state.ordered.Pairwise fun a b => state.sortKey a < state.sortKey b := by
  have hle : state.ordered.Pairwise fun a b => state.sortKey a ≤ state.sortKey b := by
    have : IsTrans Id fun a b => state.sortKey a ≤ state.sortKey b := ⟨fun _ _ _ => le_trans⟩
    have : Std.Total fun a b : Id => state.sortKey a ≤ state.sortKey b := ⟨fun _ _ => le_total _ _⟩
    exact List.pairwise_insertionSort _ _
  refine (hle.and (nodup_ordered h)).imp ?_
  rintro a b ⟨hab, hne⟩
  exact lt_of_le_of_ne hab fun heq => hne (state.sortKey_injective heq)

/-- Two states that score and name the same identities alike order them alike. -/
theorem ordered_congr {state' : FusionState} (hnodup : (state.scores.map Prod.fst).Nodup)
    (hnodup' : (state'.scores.map Prod.fst).Nodup) (hkey : state.sortKey = state'.sortKey)
    (hmem : ∀ identity, identity ∈ state.scores.map Prod.fst ↔
      identity ∈ state'.scores.map Prod.fst) : state.ordered = state'.ordered := by
  have hlt := pairwise_ordered hnodup
  have hlt' := pairwise_ordered hnodup'
  rw [← hkey] at hlt'
  refine List.Perm.eq_of_pairwise ?_ hlt hlt' ?_
  · intro a b _ _ hab hba
    exact absurd hab hba.asymm
  · apply (List.perm_ext_iff_of_nodup (nodup_ordered hnodup) (nodup_ordered hnodup')).2
    intro identity
    rw [mem_ordered, mem_ordered, hmem]

end FusionState

namespace ReciprocalRankFusion

variable {fusion : ReciprocalRankFusion} {state : FusionState}
  {rankings rankings' : List (List PublishedToolSearchHit)} {identity : Id}

namespace Sums

theorem result_eq_some (h : Sums fusion rankings state) {hit : PublishedToolSearchHit}
    (hresult : state.result identity = some hit) :
    hit.identity = identity ∧ hit.rank = state.score identity ∧
      state.tool identity = some hit.tool := by
  obtain ⟨tool, htool, rfl⟩ := Option.map_eq_some_iff.1 hresult
  obtain ⟨ranking, -, found, -, hid, rfl⟩ := h.tool_eq_some htool
  exact ⟨hid, rfl, htool⟩

/-- Every identity that has a score is given back, in its place. -/
theorem identities_filterMap (h : Sums fusion rankings state) {ids : List Id}
    (hids : ∀ identity ∈ ids, identity ∈ state.scores.map Prod.fst) :
    (ids.filterMap state.result).map (·.identity) = ids := by
  induction ids with
  | nil => rfl
  | cons identity ids ih =>
    obtain ⟨tool, htool⟩ := h.mem_keys.1 (hids identity List.mem_cons_self)
    obtain ⟨hit, hresult⟩ : ∃ hit, state.result identity = some hit :=
      ⟨_, by rw [FusionState.result, htool, Option.map_some]⟩
    rw [List.filterMap_cons, hresult]
    simp only [List.map_cons]
    rw [(h.result_eq_some hresult).1, ih fun id hid => hids id (List.mem_cons_of_mem _ hid)]

theorem identities_fused (h : Sums fusion rankings state) (limit : Nat) :
    (state.fused limit).map (·.identity) = state.ordered.take limit :=
  h.identities_filterMap fun _ hid => FusionState.mem_ordered.1 (List.mem_of_mem_take hid)

theorem of_mem_fused (h : Sums fusion rankings state) {limit : Nat}
    {hit : PublishedToolSearchHit} (hhit : hit ∈ state.fused limit) :
    hit.rank = state.score hit.identity ∧ state.tool hit.identity = some hit.tool := by
  obtain ⟨identity, -, hresult⟩ := List.mem_filterMap.1 hhit
  obtain ⟨rfl, hrank, htool⟩ := h.result_eq_some hresult
  exact ⟨hrank, htool⟩

end Sums

/-! ## The laws of a fusion -/

/-- The rankings as lists of version identifiers. -/
def identities (rankings : List (List PublishedToolSearchHit)) : List (List Id) :=
  rankings.map fun ranking => ranking.map (·.identity)

/-- Hits of one version carry one tool. -/
def Consistent (rankings : List (List PublishedToolSearchHit)) : Prop :=
  ∀ hit ∈ rankings.flatten, ∀ hit' ∈ rankings.flatten,
    hit.identity = hit'.identity → hit.tool = hit'.tool

/-- A higher score, or an equal one and the smaller name, or equal both and the smaller
    identifier. -/
def Before (h k : PublishedToolSearchHit) : Prop :=
  k.rank < h.rank ∨ h.rank = k.rank ∧
    (h.tool.val.canonicalName < k.tool.val.canonicalName ∨
      h.tool.val.canonicalName = k.tool.val.canonicalName ∧ h.identity < k.identity)

structure Laws (fusion : ReciprocalRankFusion) (rankings : List (List PublishedToolSearchHit))
    (limit : Int) (hits : List PublishedToolSearchHit) : Prop where
  once : (hits.map (·.identity)).Nodup
  found : ∀ hit ∈ hits, ∃ ranking ∈ rankings, ∃ found ∈ ranking,
    found.identity = hit.identity ∧ found.tool = hit.tool
  complete : ∀ ranking ∈ rankings, ∀ found ∈ ranking,
    found.identity ∈ hits.map (·.identity) ∨ hits.length = limit
  score : ∀ hit ∈ hits,
    hit.rank = Select.score fusion.weight (identities rankings) hit.identity
  descending : hits.Pairwise Before
  /-- The order of the rankings does not matter. -/
  permuted : Consistent rankings → ∀ rankings', rankings.Perm rankings' →
    fusion.fuse rankings' limit = .ok hits
  /-- A larger limit only adds at the end. -/
  extended : ∃ longer, fusion.fuse rankings (limit + 1) = .ok longer ∧ hits <+: longer
  dominated : ∀ a b, Select.Dominates (identities rankings) b a → ∀ above hit below,
    hits = above ++ hit :: below → hit.identity = a → ∃ better ∈ above, better.identity = b

theorem fuse_eq_ok {limit : Int} (hlimit : 0 < limit) : fusion.fuse rankings limit =
    .ok ((fusion.addRankings rankings).fused limit.toNat) := by
  unfold fuse valueErrorIf raiseIf
  rw [if_neg (not_le.2 hlimit)]
  rfl

theorem rankConstant_pos (fusion : ReciprocalRankFusion) : (0 : Rat) < fusion.val.rankConstant := by
  have hvalid := fusion.property
  simp only [Valid, PostInit.checks, List.forall_mem_singleton, decide_eq_false_iff_not,
    not_le] at hvalid
  exact Int.cast_pos.2 hvalid

theorem weight_pos (p : Nat) : 0 < fusion.weight p :=
  one_div_pos.2 (add_pos_of_pos_of_nonneg fusion.rankConstant_pos (Nat.cast_nonneg p))

theorem weight_lt {q p : Nat} (h : q < p) : fusion.weight p < fusion.weight q := by
  have hpos : (0 : Rat) < fusion.val.rankConstant + q :=
    add_pos_of_pos_of_nonneg fusion.rankConstant_pos (Nat.cast_nonneg q)
  exact one_div_lt_one_div_of_lt hpos (add_lt_add_right (Nat.cast_lt.2 h) _)

namespace Sums

/-- The keys of two hits decide which of them comes before the other. -/
theorem before_of_lt (h : Sums fusion rankings state) {limit : Nat}
    {hit hit' : PublishedToolSearchHit} (hhit : hit ∈ state.fused limit)
    (hhit' : hit' ∈ state.fused limit)
    (hlt : state.sortKey hit.identity < state.sortKey hit'.identity) : Before hit hit' := by
  obtain ⟨hrank, htool⟩ := h.of_mem_fused hhit
  obtain ⟨hrank', htool'⟩ := h.of_mem_fused hhit'
  simp only [FusionState.sortKey, htool, htool', ← hrank, ← hrank', Prod.Lex.toLex_lt_toLex,
    neg_lt_neg_iff, neg_inj, Option.elim_some] at hlt
  exact hlt

theorem descending (h : Sums fusion rankings state) (limit : Nat) :
    (state.fused limit).Pairwise Before := by
  have hkeys := (FusionState.pairwise_ordered h.nodup).sublist (List.take_sublist limit _)
  rw [← h.identities_fused, List.pairwise_map] at hkeys
  exact hkeys.imp_of_mem fun ha hb hlt => h.before_of_lt ha hb hlt

theorem complete (h : Sums fusion rankings state) (limit : Nat)
    (hid : identity ∈ state.scores.map Prod.fst) :
    identity ∈ (state.fused limit).map (·.identity) ∨ (state.fused limit).length = limit := by
  have hlength : (state.fused limit).length = (state.ordered.take limit).length := by
    rw [← h.identities_fused, List.length_map]
  rw [h.identities_fused, hlength]
  obtain hle | hlt := le_or_gt state.ordered.length limit
  · rw [List.take_of_length_le hle]
    exact .inl (FusionState.mem_ordered.2 hid)
  · exact .inr (List.length_take_of_le hlt.le)

/-- A dominating identity has the smaller key. -/
theorem sortKey_lt_of_dominates (h : Sums fusion rankings state) {a b : Id}
    (hdominates : Select.Dominates (identities rankings) b a) :
    state.sortKey b < state.sortKey a := by
  have hscore : state.score a < state.score b := by
    rw [h.score, h.score]
    exact hdominates.score_lt (fun p _ => weight_pos p) fun q p _ hlt => weight_lt hlt
  exact Prod.Lex.toLex_lt_toLex.2 (.inl (neg_lt_neg hscore))

theorem dominated (h : Sums fusion rankings state) {limit : Nat} {a b : Id}
    (hdominates : Select.Dominates (identities rankings) b a)
    {above below : List PublishedToolSearchHit} {hit : PublishedToolSearchHit}
    (hfused : state.fused limit = above ++ hit :: below) (hid : hit.identity = a) :
    ∃ better ∈ above, better.identity = b := by
  have hkey := h.sortKey_lt_of_dominates hdominates
  -- The order is that of the sort keys, so the place of `a` tells what is above it and what below.
  have hids : state.ordered =
      above.map (·.identity) ++ a :: (below.map (·.identity) ++ state.ordered.drop limit) := by
    have htake := h.identities_fused limit
    rw [hfused, List.map_append, List.map_cons, hid] at htake
    rw [← List.cons_append, ← List.append_assoc, htake, List.take_append_drop]
  have hmem : b ∈ state.ordered := by
    obtain ⟨-, ranking, hranking, -, -, q, hq, -⟩ := hdominates
    obtain ⟨hits, hhits, rfl⟩ := List.mem_map.1 hranking
    have hfirst : b ∈ hits.map (·.identity) := by
      rw [← Select.firstPosition_isSome, Option.mem_def.1 hq]
      rfl
    exact FusionState.mem_ordered.2 (h.mem_keys_iff.2 ⟨hits, hhits, hfirst⟩)
  have hpairwise := FusionState.pairwise_ordered h.nodup
  rw [hids] at hmem hpairwise
  obtain habove | hrest := List.mem_append.1 hmem
  · exact List.mem_map.1 habove
  · obtain ⟨-, hbelow, -⟩ := List.pairwise_append.1 hpairwise
    obtain rfl | hbehind := List.mem_cons.1 hrest
    · exact absurd hkey (lt_irrefl _)
    · exact absurd hkey ((List.pairwise_cons.1 hbelow).1 b hbehind).asymm

/-- The tools of a fusion do not depend on the order of consistent rankings. -/
theorem tool_congr {state' : FusionState} (h : Sums fusion rankings state)
    (h' : Sums fusion rankings' state') (hconsistent : Consistent rankings)
    (hperm : rankings.Perm rankings') (identity : Id) :
    state.tool identity = state'.tool identity := by
  have hmem : ∀ hit, hit ∈ rankings.flatten ↔ hit ∈ rankings'.flatten :=
    fun _ => hperm.flatten.mem_iff
  unfold FusionState.tool
  rw [h.lookup, h'.lookup]
  cases hfind' : rankings'.flatten.find? (·.identity = identity) with
  | none =>
    rw [List.find?_eq_none] at hfind'
    rw [List.find?_eq_none.2 fun hit hhit => hfind' hit ((hmem hit).1 hhit)]
  | some hit' =>
    have hhit' := (hmem hit').2 (List.mem_of_find?_eq_some hfind')
    have hid' : hit'.identity = identity := by simpa using List.find?_some hfind'
    cases hfind : rankings.flatten.find? (·.identity = identity) with
    | none => exact absurd (List.find?_eq_none.1 hfind hit' hhit') (by simpa using hid')
    | some hit =>
      have hid : hit.identity = identity := by simpa using List.find?_some hfind
      have htool := hconsistent hit (List.mem_of_find?_eq_some hfind) hit' hhit'
        (hid.trans hid'.symm)
      rw [Option.map_some, Option.map_some, htool]

theorem score_congr {state' : FusionState} (h : Sums fusion rankings state)
    (h' : Sums fusion rankings' state') (hperm : rankings.Perm rankings') (identity : Id) :
    state.score identity = state'.score identity := by
  rw [h.score, h'.score]
  exact Select.score_perm (hperm.map _) identity

theorem fused_congr {state' : FusionState} (h : Sums fusion rankings state)
    (h' : Sums fusion rankings' state') (hconsistent : Consistent rankings)
    (hperm : rankings.Perm rankings') : state.fused = state'.fused := by
  have htool : state.tool = state'.tool := funext (h.tool_congr h' hconsistent hperm)
  have hscore : state.score = state'.score := funext (h.score_congr h' hperm)
  have hkey : state.sortKey = state'.sortKey := by
    funext identity
    simp only [FusionState.sortKey, htool, hscore]
  have hresult : state.result = state'.result := by
    funext identity
    simp only [FusionState.result, htool, hscore]
  have hordered : state.ordered = state'.ordered := by
    apply FusionState.ordered_congr h.nodup h'.nodup hkey
    intro identity
    rw [h.mem_keys, h'.mem_keys, htool]
  funext limit
  rw [FusionState.fused, FusionState.fused, hordered, hresult]

end Sums

theorem laws {limit : Int} (hlimit : 0 < limit) : ∃ hits, fusion.fuse rankings limit = .ok hits ∧
    Laws fusion rankings limit hits := by
  have h : Sums fusion rankings (fusion.addRankings rankings) := sums_addRankings rankings
  refine ⟨_, fuse_eq_ok hlimit, ?_⟩
  have hcast : (limit.toNat : Int) = limit := Int.toNat_of_nonneg hlimit.le
  constructor
  case once =>
    rw [h.identities_fused]
    exact (FusionState.nodup_ordered h.nodup).sublist (List.take_sublist _ _)
  case found =>
    intro hit hhit
    exact h.tool_eq_some (h.of_mem_fused hhit).2
  case complete =>
    intro ranking hranking found hfound
    have hid := h.mem_keys_iff.2 ⟨ranking, hranking, List.mem_map_of_mem hfound⟩
    refine (h.complete limit.toNat hid).imp_right fun hlength => ?_
    -- It is missing only where the limit has cut it off.
    rw [hlength, hcast]
  case score =>
    intro hit hhit
    rw [(h.of_mem_fused hhit).1]
    exact h.score hit.identity
  case descending => exact h.descending _
  case permuted =>
    intro hconsistent rankings' hperm
    have h' : Sums fusion rankings' (fusion.addRankings rankings') := sums_addRankings rankings'
    rw [fuse_eq_ok hlimit, h.fused_congr h' hconsistent hperm]
  case extended =>
    refine ⟨_, fuse_eq_ok (Int.lt_add_one_of_le hlimit.le), ?_⟩
    apply List.IsPrefix.filterMap
    exact List.take_prefix_take_left (Int.toNat_le_toNat (Int.le_add_one le_rfl))
  case dominated =>
    intro a b hdominates above hit below hfused hid
    exact h.dominated hdominates hfused hid

theorem fuse_refused {limit : Int} (hlimit : limit ≤ 0) : fusion.fuse rankings limit =
    .error (.valueError "RRF result limit must be positive") := by
  unfold fuse valueErrorIf raiseIf
  rw [if_pos hlimit]
  rfl

theorem laws_of_fuse {limit : Int} {hits : List PublishedToolSearchHit}
    (h : fusion.fuse rankings limit = .ok hits) : Laws fusion rankings limit hits := by
  obtain hlimit | hlimit := le_or_gt limit 0
  · rw [fuse_refused hlimit] at h
    cases h
  · obtain ⟨hits', hfused, hlaws⟩ :
        ∃ hits, fusion.fuse rankings limit = .ok hits ∧ Laws fusion rankings limit hits :=
      laws hlimit
    obtain rfl : hits' = hits := Except.ok.inj (hfused.symm.trans h)
    exact hlaws

/-- A fusion refuses a limit that is not positive, and otherwise obeys its laws. -/
theorem fuse_laws (fusion : ReciprocalRankFusion)
    (rankings : List (List PublishedToolSearchHit)) (limit : Int) :
    (limit ≤ 0 ∧ fusion.fuse rankings limit =
      .error (.valueError "RRF result limit must be positive")) ∨
    (0 < limit ∧ ∃ hits, fusion.fuse rankings limit = .ok hits ∧
      Laws fusion rankings limit hits) := by
  obtain hlimit | hlimit := le_or_gt limit 0
  · exact .inl ⟨hlimit, fuse_refused hlimit⟩
  · exact .inr ⟨hlimit, laws hlimit⟩

end ReciprocalRankFusion

/-! ## Hybrid search -/

structure HybridHitDiagnostics where
  rrfScore : Rat
  lexicalRank : Option Nat
  lexicalScore : Option Rat
  vectorRank : Option Nat
  vectorCosineSimilarity : Option Rat

/-- The diagnostics are a dictionary by version identifier. -/
structure HybridSearchResult where
  hits : List PublishedToolSearchHit
  diagnostics : List (Id × HybridHitDiagnostics)

/-- The loop of `_ranked_hits`. -/
def rankedFrom : List PublishedToolSearchHit → Nat → List (Id × Nat × Rat) → List (Id × Nat × Rat)
  | [], _, ranked => ranked
  | hit :: hits, position, ranked =>
    rankedFrom hits (position + 1) (Select.setDefault ranked hit.identity (position, hit.rank))

/-- `_ranked_hits`. -/
def rankedHits (hits : List PublishedToolSearchHit) : List (Id × Nat × Rat) := rankedFrom hits 1 []

/-- `SearchHybridTools.execute_detailed`, once the two searches have answered. -/
def SearchHybridTools.executeDetailed (rankFusion : ReciprocalRankFusion)
    (lexicalHits vectorHits : List PublishedToolSearchHit) (limit : Int) :
    Except Exc HybridSearchResult := do
  let fused ← rankFusion.fuse [lexicalHits, vectorHits] limit
  let lexical := rankedHits lexicalHits
  let vector := rankedHits vectorHits
  return {
    hits := fused
    diagnostics := fused.map fun hit => (hit.identity,
      { rrfScore := hit.rank
        lexicalRank := (lexical.lookup hit.identity).map (·.1)
        lexicalScore := (lexical.lookup hit.identity).map (·.2)
        vectorRank := (vector.lookup hit.identity).map (·.1)
        vectorCosineSimilarity := (vector.lookup hit.identity).map (·.2) }) }

theorem position_rankedFrom {hits : List PublishedToolSearchHit} {position : Nat}
    {ranked : List (Id × Nat × Rat)} {identity : Id} :
    ((rankedFrom hits position ranked).lookup identity).map (·.1) =
      ((ranked.lookup identity).map (·.1)).or
        (((hits.map (·.identity)).idxOf? identity).map (position + ·)) := by
  induction hits generalizing position ranked with
  | nil => simp [rankedFrom]
  | cons hit hits ih =>
    rw [rankedFrom, ih, Select.lookup_setDefault, List.map_cons, List.idxOf?_cons]
    by_cases hid : identity = hit.identity
    · subst hid
      cases ranked.lookup hit.identity <;> simp
    · have hpositions : (fun i => position + 1 + i) = (position + ·) ∘ (· + 1) := by
        funext i
        rw [Function.comp_apply, Nat.add_assoc, Nat.add_comm 1]
      rw [if_neg hid, Option.or_none, beq_false_of_ne (Ne.symm hid), hpositions,
        ← Option.map_map]
      rfl

/-- The rank in the diagnostics is the first position. -/
theorem position_rankedHits {hits : List PublishedToolSearchHit} {identity : Id} :
    ((rankedHits hits).lookup identity).map (·.1) =
      Select.firstPosition identity (hits.map (·.identity)) := by
  rw [rankedHits, position_rankedFrom, Select.firstPosition]
  simp only [List.lookup_nil, Option.map_none, Option.none_or, Nat.add_comm 1]

/-- The diagnostics of a hit explain its score: it is made of the weights of the two ranks. -/
theorem SearchHybridTools.rrfScore_eq {rankFusion : ReciprocalRankFusion}
    {lexicalHits vectorHits : List PublishedToolSearchHit} {limit : Int}
    {result : HybridSearchResult}
    (h : executeDetailed rankFusion lexicalHits vectorHits limit = .ok result) :
    ∀ entry ∈ result.diagnostics, entry.2.rrfScore =
      (entry.2.lexicalRank.map rankFusion.weight).getD 0 +
        (entry.2.vectorRank.map rankFusion.weight).getD 0 := by
  obtain ⟨fused, hfused, hresult⟩ := bind_eq_ok.1 h
  cases hresult
  intro entry hentry
  obtain ⟨hit, hhit, rfl⟩ := List.mem_map.1 hentry
  dsimp only
  rw [position_rankedHits, position_rankedHits,
    (ReciprocalRankFusion.laws_of_fuse hfused).score hit hhit, Select.score_eq_sum_share]
  simp [ReciprocalRankFusion.identities, Select.share]

end NexusMcp
