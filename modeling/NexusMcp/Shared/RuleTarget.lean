-- SUMMARY: Whom and what a policy or a credential binding is for, and how specific that is.
import NexusMcp.Shared.Errors

/-!
# Rule Targets

Policies and credential bindings are scored alike: what names the principal comes before what
is for the whole tenant, and what names the tool before what is for any tool.
-/

namespace NexusMcp

/-- The columns that `_specificity` reads, apart from those that only scope the rule. -/
structure RuleTarget where
  inScope : Bool
  toolId : Option Id
  forPrincipal : Bool
  subjectId : Option String

namespace RuleTarget

/-- `_specificity`. -/
def specificity (target : RuleTarget) (principalId : String) (toolId : Id) : Option Nat :=
  let toolScore := if target.toolId.isSome then 1 else 0
  if ¬ target.inScope then none
  else if target.toolId.isSome ∧ target.toolId ≠ some toolId then none
  else if target.forPrincipal then
    if target.subjectId ≠ some principalId then none else some (30 + toolScore)
  else some (10 + toolScore)

/-- The rule applies to a call of the tool by the principal. -/
structure AppliesTo (target : RuleTarget) (principalId : String) (toolId : Id) : Prop where
  inScope : target.inScope
  tool : target.toolId = none ∨ target.toolId = some toolId
  subject : target.forPrincipal → target.subjectId = some principalId

/-- The score of a rule that applies. -/
def score (target : RuleTarget) : Nat :=
  (if target.forPrincipal then 30 else 10) + (if target.toolId.isSome then 1 else 0)

variable {target other : RuleTarget} {principalId : String} {toolId : Id}

instance : Decidable (target.AppliesTo principalId toolId) :=
  decidable_of_iff (target.inScope ∧ (target.toolId = none ∨ target.toolId = some toolId) ∧
      (target.forPrincipal → target.subjectId = some principalId))
    ⟨fun ⟨h1, h2, h3⟩ => ⟨h1, h2, h3⟩, fun ⟨h1, h2, h3⟩ => ⟨h1, h2, h3⟩⟩

theorem specificity_eq : target.specificity principalId toolId =
    if target.AppliesTo principalId toolId then some target.score else none := by
  obtain ⟨inScope, ruleTool, forPrincipal, subjectId⟩ := target
  by_cases happlies : AppliesTo ⟨inScope, ruleTool, forPrincipal, subjectId⟩ principalId toolId
  · obtain ⟨hscope, htool, hsubject⟩ := id happlies
    rw [if_pos happlies]
    dsimp only at hscope htool hsubject
    rcases htool with rfl | rfl <;> cases forPrincipal <;>
      simp_all [specificity, score]
  · rw [if_neg happlies]
    have hnot : ¬ (inScope ∧ (ruleTool = none ∨ ruleTool = some toolId) ∧
        (forPrincipal → subjectId = some principalId)) := fun ⟨h1, h2, h3⟩ => happlies ⟨h1, h2, h3⟩
    cases inScope <;> cases ruleTool <;> cases forPrincipal <;> simp_all [specificity]

theorem specificity_eq_some {s : Nat} : target.specificity principalId toolId = some s ↔
    target.AppliesTo principalId toolId ∧ target.score = s := by
  rw [specificity_eq]
  split
  · next h => simp [h]
  · next h => simp [h]

theorem specificity_eq_none : target.specificity principalId toolId = none ↔
    ¬ target.AppliesTo principalId toolId := by
  rw [specificity_eq]
  split <;> simp_all

/-- The principal counts before the tool. -/
theorem score_lt_iff : target.score < other.score ↔
    (target.forPrincipal = false ∧ other.forPrincipal = true) ∨
      target.forPrincipal = other.forPrincipal ∧ target.toolId = none ∧ other.toolId ≠ none := by
  unfold score
  cases target.forPrincipal <;> cases other.forPrincipal <;> cases target.toolId <;>
    cases other.toolId <;> simp

end RuleTarget

end NexusMcp
