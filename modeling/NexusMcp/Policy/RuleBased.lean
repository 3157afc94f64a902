-- SUMMARY: The evaluation of tool policies, and that it selects a maximum.
import NexusMcp.Policy.Domain
import NexusMcp.Select.Top
import NexusMcp.Shared.RuleTarget
import Mathlib.Data.Prod.Lex
import Mathlib.Data.String.Basic

/-!
# Policy Evaluation

The most specific policies are kept, of these the ones of the highest priority, and of these
the one of the strictest effect, with the identifier as the last resort.
-/

namespace NexusMcp

open Select (scored top mem_top mem_top_scored)

/-- `_EFFECT_PRECEDENCE`. -/
def PolicyEffect.precedence : PolicyEffect → Nat
  | allow => 1
  | requireApproval => 2
  | deny => 3

namespace ToolPolicy

def target (policy : ToolPolicy) (input : PolicyEvaluationInput) : RuleTarget where
  inScope := policy.val.status = .active ∧
    ¬ (policy.val.tenantId ≠ input.val.tenantId ∨ policy.val.action ≠ input.val.action)
  toolId := policy.val.toolId
  forPrincipal := policy.val.subjectType = .principal
  subjectId := policy.val.subjectId

/-- `_specificity`. -/
def specificity (policy : ToolPolicy) (input : PolicyEvaluationInput) : Option Nat :=
  (policy.target input).specificity input.val.principal.val.id input.val.toolId

/-- The decision that the policy makes. -/
def decision (policy : ToolPolicy) : PolicyDecision :=
  ⟨policy.val.effect, policy.val.version, policy.val.reasonCode⟩

/-- The key of the last selection. -/
def strictness (policy : ToolPolicy) : Nat ×ₗ String :=
  toLex (policy.val.effect.precedence, policy.val.id)

end ToolPolicy

namespace RuleBasedPolicyEvaluator

/-- The policy that decides, if one applies. -/
def selected (policies : List ToolPolicy) (input : PolicyEvaluationInput) : Option ToolPolicy :=
  let candidates := scored (·.specificity input) policies
  let specific := top candidates
  let finalists := top (specific.map fun policy => (policy.val.priority, policy))
  finalists.argmax (·.strictness)

/-- `RuleBasedPolicyEvaluator.evaluate`. -/
def evaluate (policies : List ToolPolicy) (input : PolicyEvaluationInput) : PolicyDecision :=
  match selected policies input with
  | none => .defaultDeny
  | some selected => selected.decision

end RuleBasedPolicyEvaluator

/-! ## What applies -/

namespace ToolPolicy

variable {policy other : ToolPolicy} {input : PolicyEvaluationInput}

/-- The policy is active and is for the tenant, the action, the tool and the subject. -/
structure AppliesTo (policy : ToolPolicy) (input : PolicyEvaluationInput) : Prop where
  active : policy.val.status = .active
  tenant : policy.val.tenantId = input.val.tenantId
  action : policy.val.action = input.val.action
  tool : policy.val.toolId = none ∨ policy.val.toolId = some input.val.toolId
  subject : policy.val.subjectType = .tenant ∨
    policy.val.subjectId = some input.val.principal.val.id

theorem appliesTo_iff : policy.AppliesTo input ↔
    (policy.target input).AppliesTo input.val.principal.val.id input.val.toolId := by
  have hsubject : policy.val.subjectType = .tenant ∨
        policy.val.subjectId = some input.val.principal.val.id ↔
      ((policy.target input).forPrincipal →
        (policy.target input).subjectId = some input.val.principal.val.id) := by
    simp only [target]
    cases policy.val.subjectType <;> simp
  constructor
  · rintro ⟨hactive, htenant, haction, htool, hfor⟩
    exact ⟨by simp [target, hactive, htenant, haction], htool, hsubject.1 hfor⟩
  · rintro ⟨hscope, htool, hfor⟩
    obtain ⟨hactive, hscope⟩ := of_decide_eq_true hscope
    rw [not_or, not_not, not_not] at hscope
    exact ⟨hactive, hscope.1, hscope.2, htool, hsubject.2 hfor⟩

instance : Decidable (policy.AppliesTo input) := decidable_of_iff _ appliesTo_iff.symm

/-- How the policies that apply are ordered: by specificity, priority, effect and identifier. -/
def rank (policy : ToolPolicy) (input : PolicyEvaluationInput) : Nat ×ₗ Int ×ₗ Nat ×ₗ String :=
  toLex ((policy.target input).score, toLex (policy.val.priority, policy.strictness))

theorem specificity_eq_some {s : Nat} : policy.specificity input = some s ↔
    policy.AppliesTo input ∧ (policy.target input).score = s :=
  RuleTarget.specificity_eq_some.trans (and_congr_left' appliesTo_iff.symm)

theorem rank_le_iff : policy.rank input ≤ other.rank input ↔
    (policy.target input).score < (other.target input).score ∨
      (policy.target input).score = (other.target input).score ∧
        (policy.val.priority < other.val.priority ∨
          policy.val.priority = other.val.priority ∧ policy.strictness ≤ other.strictness) := by
  simp only [rank, Prod.Lex.toLex_le_toLex]

/-- The policy applies and none that applies is above it. -/
structure Decides (policies : List ToolPolicy) (input : PolicyEvaluationInput)
    (policy : ToolPolicy) : Prop where
  mem : policy ∈ policies
  applies : policy.AppliesTo input
  maximal : ∀ other ∈ policies, other.AppliesTo input → other.rank input ≤ policy.rank input

end ToolPolicy

/-! ## The selection -/

namespace RuleBasedPolicyEvaluator

variable {policies policies' : List ToolPolicy} {input : PolicyEvaluationInput}
  {policy : ToolPolicy}

/-- A policy is selected only if it applies and no other that applies is above it. -/
theorem decides_of_selected (h : selected policies input = some policy) :
    policy.Decides policies input := by
  have hfinalist := List.argmax_mem h
  obtain ⟨priority, hmem, hpriority⟩ := mem_top.1 hfinalist
  obtain ⟨policy', hspecific, heq⟩ := List.mem_map.1 hmem
  cases heq
  obtain ⟨hpolicy, s, hs, hmax⟩ := mem_top_scored.1 hspecific
  obtain ⟨happlies, rfl⟩ := ToolPolicy.specificity_eq_some.1 hs
  refine ⟨hpolicy, happlies, fun other hother hother' => ToolPolicy.rank_le_iff.2 ?_⟩
  have hscore := hmax other hother _ (ToolPolicy.specificity_eq_some.2 ⟨hother', rfl⟩)
  refine hscore.lt_or_eq.imp_right fun hsame => ⟨hsame, ?_⟩
  have hspecific' : other ∈ top (scored (·.specificity input) policies) :=
    mem_top_scored.2 ⟨hother, _, ToolPolicy.specificity_eq_some.2 ⟨hother', hsame⟩, hmax⟩
  have hle := hpriority _ other (List.mem_map_of_mem hspecific')
  refine hle.lt_or_eq.imp_right fun hsame' => ⟨hsame', List.le_of_mem_argmax ?_ h⟩
  exact mem_top.2 ⟨_, hsame' ▸ List.mem_map_of_mem hspecific', hpriority⟩

theorem selected_eq_none : selected policies input = none ↔
    ∀ policy ∈ policies, ¬ policy.AppliesTo input := by
  unfold selected
  rw [List.argmax_eq_none, Select.top_eq_nil, List.map_eq_nil_iff, Select.top_scored_eq_nil]
  refine forall₂_congr fun policy _ => ?_
  exact RuleTarget.specificity_eq_none.trans (not_congr ToolPolicy.appliesTo_iff.symm)

/-- With different identifiers there is one maximum. -/
theorem selected_eq_some (hids : (policies.map (·.val.id)).Nodup) :
    selected policies input = some policy ↔ policy.Decides policies input := by
  refine ⟨decides_of_selected, fun h => ?_⟩
  cases hselected : selected policies input with
  | none => exact absurd h.applies (selected_eq_none.1 hselected policy h.mem)
  | some policy' =>
    have h' := decides_of_selected hselected
    have hrank := le_antisymm (h.maximal policy' h'.mem h'.applies)
      (h'.maximal policy h.mem h.applies)
    have hid : policy'.val.id = policy.val.id := by
      simpa [ToolPolicy.rank, ToolPolicy.strictness] using
        congrArg (fun rank => (ofLex (ofLex (ofLex rank).2).2).2) hrank
    rw [List.inj_on_of_nodup_map hids h'.mem h.mem hid]

theorem evaluate_of_decides (hids : (policies.map (·.val.id)).Nodup)
    (h : policy.Decides policies input) : evaluate policies input = policy.decision := by
  unfold evaluate
  rw [(selected_eq_some hids).2 h]

theorem exists_decides (h : policy ∈ policies) (happlies : policy.AppliesTo input) :
    ∃ selected, ToolPolicy.Decides policies input selected := by
  cases hselected : selected policies input with
  | none => exact absurd happlies (selected_eq_none.1 hselected policy h)
  | some policy' => exact ⟨policy', decides_of_selected hselected⟩

/-- Only the policies that apply matter, and not their order. -/
theorem evaluate_congr (hids : (policies.map (·.val.id)).Nodup)
    (hids' : (policies'.map (·.val.id)).Nodup)
    (h : ∀ policy, policy.AppliesTo input → (policy ∈ policies' ↔ policy ∈ policies)) :
    evaluate policies' input = evaluate policies input := by
  have hselected : selected policies' input = selected policies input := by
    ext policy
    rw [selected_eq_some hids', selected_eq_some hids]
    constructor
    · rintro ⟨hmem, happlies, hmax⟩
      exact ⟨(h policy happlies).1 hmem, happlies, fun other hother hother' =>
        hmax other ((h other hother').2 hother) hother'⟩
    · rintro ⟨hmem, happlies, hmax⟩
      exact ⟨(h policy happlies).2 hmem, happlies, fun other hother hother' =>
        hmax other ((h other hother').1 hother) hother'⟩
  unfold evaluate
  rw [hselected]

/-- A denial outranks what allows or asks, at the same specificity and priority. -/
theorem effect_of_decides {deny : ToolPolicy} (h : policy.Decides policies input)
    (hdeny : deny ∈ policies) (happlies : deny.AppliesTo input)
    (heffect : deny.val.effect = .deny)
    (htop : ∀ other ∈ policies, other.AppliesTo input →
      toLex ((other.target input).score, other.val.priority) ≤
        toLex ((deny.target input).score, deny.val.priority)) : policy.val.effect = .deny := by
  have hle := ToolPolicy.rank_le_iff.1 (h.maximal deny hdeny happlies)
  have hge := Prod.Lex.toLex_le_toLex.1 (htop policy h.mem h.applies)
  have hstrict : deny.strictness ≤ policy.strictness := by
    rcases hle with hle | ⟨hsame, hle | ⟨-, hle⟩⟩
    · rcases hge with hge | ⟨hge, -⟩ <;> omega
    · rcases hge with hge | ⟨-, hge⟩ <;> omega
    · exact hle
  have hprecedence : 3 ≤ policy.val.effect.precedence := by
    have hfirst := Prod.Lex.toLex_le_toLex.1 hstrict
    rw [heffect] at hfirst
    rcases hfirst with hfirst | ⟨hfirst, -⟩
    · exact hfirst.le
    · exact hfirst.le
  cases hpolicy : policy.val.effect with
  | deny => rfl
  | allow | requireApproval =>
    rw [hpolicy] at hprecedence
    simp [PolicyEffect.precedence] at hprecedence

/-- What the evaluation of policies with different identifiers gives. -/
structure IsMaximum (policies : List ToolPolicy) (input : PolicyEvaluationInput) : Prop where
  order : ∀ policies', policies'.Perm policies → evaluate policies' input = evaluate policies input
  denied : evaluate policies input = .defaultDeny ↔
    (∀ policy ∈ policies, ¬ policy.AppliesTo input) ∨
      ∃ policy : ToolPolicy, policy.Decides policies input ∧ policy.decision = .defaultDeny
  decided : (∃ policy ∈ policies, policy.AppliesTo input) →
    ∃ policy : ToolPolicy, policy.Decides policies input ∧
      evaluate policies input = policy.decision
  deny : ∀ deny ∈ policies, deny.AppliesTo input → deny.val.effect = .deny →
    (∀ other ∈ policies, other.AppliesTo input →
      toLex ((other.target input).score, other.val.priority) ≤
        toLex ((deny.target input).score, deny.val.priority)) →
    (evaluate policies input).effect = .deny
  others : ∀ policies' : List ToolPolicy, (policies'.map (·.val.id)).Nodup →
    (∀ policy, policy.AppliesTo input → (policy ∈ policies' ↔ policy ∈ policies)) →
    evaluate policies' input = evaluate policies input

end RuleBasedPolicyEvaluator

open RuleBasedPolicyEvaluator in
/-- The decision is that of the highest policy that applies, and the default without one. -/
theorem policy_evaluation_maximum {policies : List ToolPolicy}
    (hids : (policies.map (·.val.id)).Nodup) (input : PolicyEvaluationInput) :
    RuleBasedPolicyEvaluator.IsMaximum policies input where
  order policies' hperm :=
    evaluate_congr hids ((hperm.map _).nodup_iff.2 hids) fun _ _ => hperm.mem_iff
  denied := by
    constructor
    · intro hdenied
      by_cases happlies : ∃ policy ∈ policies, policy.AppliesTo input
      · obtain ⟨policy, hpolicy, happlies⟩ := happlies
        obtain ⟨selected, hselected⟩ := exists_decides hpolicy happlies
        exact .inr ⟨selected, hselected, (evaluate_of_decides hids hselected).symm.trans hdenied⟩
      · exact .inl fun policy hpolicy happlies' => happlies ⟨policy, hpolicy, happlies'⟩
    · rintro (hnone | ⟨policy, hdecides, hdefault⟩)
      · unfold evaluate
        rw [selected_eq_none.2 hnone]
      · rw [evaluate_of_decides hids hdecides, hdefault]
  decided := by
    rintro ⟨policy, hpolicy, happlies⟩
    obtain ⟨selected, hselected⟩ := exists_decides hpolicy happlies
    exact ⟨selected, hselected, evaluate_of_decides hids hselected⟩
  deny deny hdeny happlies heffect htop := by
    obtain ⟨selected, hselected⟩ := exists_decides hdeny happlies
    rw [evaluate_of_decides hids hselected]
    exact effect_of_decides hselected hdeny happlies heffect htop
  others policies' hids' h := evaluate_congr hids hids' h

def agentInput : PolicyEvaluationInput :=
  ⟨{ tenantId := "tenant-1"
     principal := ⟨⟨"agent-2", "tenant-1", .agentService, "token"⟩, by decide⟩
     toolId := "tool-1"
     toolVersionId := "version-1"
     action := .call
     sideEffect := .readOnly
     argumentsDigest := "digest" }, by decide⟩

def tenantPolicy : ToolPolicy :=
  ⟨{ id := "policy-1"
     tenantId := "tenant-1"
     subjectType := .tenant
     subjectId := none
     toolId := none
     action := .call
     effect := .deny
     priority := 0
     version := "default"
     reasonCode := "default_deny" }, by decide +kernel⟩

def agentPolicy : ToolPolicy :=
  ⟨{ tenantPolicy.val with
     id := "policy-2"
     subjectType := .principal
     subjectId := some "agent-2"
     effect := .allow
     version := "1"
     reasonCode := "trusted" }, by decide +kernel⟩

/-- A policy for the agent comes before one for its tenant, whatever their order. -/
theorem policy_evaluation_maximum_agent :
    RuleBasedPolicyEvaluator.evaluate [agentPolicy, tenantPolicy] agentInput =
        agentPolicy.decision ∧
      RuleBasedPolicyEvaluator.evaluate [tenantPolicy, agentPolicy] agentInput =
        agentPolicy.decision := by
  have hids : ([agentPolicy, tenantPolicy].map (·.val.id)).Nodup := by decide
  have hmax := policy_evaluation_maximum hids agentInput
  have hagent : RuleBasedPolicyEvaluator.evaluate [agentPolicy, tenantPolicy] agentInput =
      agentPolicy.decision := by decide +kernel
  exact ⟨hagent, (hmax.order _ (.swap _ _ _)).trans hagent⟩

/-- A policy of the tenant may make the decision that stands for no policy. -/
theorem default_decision_of_a_policy :
    ¬ ∀ policies : List ToolPolicy, (policies.map (·.val.id)).Nodup →
      ∀ input, RuleBasedPolicyEvaluator.evaluate policies input = .defaultDeny ↔
        ∀ policy ∈ policies, ¬ policy.AppliesTo input := by
  intro h
  have hdefault : RuleBasedPolicyEvaluator.evaluate [tenantPolicy] agentInput = .defaultDeny := by
    decide +kernel
  have happlies : tenantPolicy.AppliesTo agentInput := by decide +kernel
  exact (h [tenantPolicy] (by decide) agentInput).1 hdefault tenantPolicy
    (List.mem_singleton_self _) happlies

end NexusMcp
