-- SUMMARY: The choice of a credential binding, and that it is never made by position.
import NexusMcp.Credentials.Domain
import NexusMcp.Policy.Domain
import NexusMcp.Select.Top
import NexusMcp.Shared.RuleTarget

/-!
# Credential Bindings

The most specific binding that applies is chosen, and it is an error if there are two.
-/

namespace NexusMcp

open Select (scored top)

namespace CredentialBinding

def target (binding : CredentialBinding) (tenantId upstreamServiceId : Id) : RuleTarget where
  inScope := binding.val.status = .active ∧
    ¬ (binding.val.tenantId ≠ tenantId ∨ binding.val.upstreamServiceId ≠ upstreamServiceId)
  toolId := binding.val.toolId
  forPrincipal := binding.val.subjectType = .principal
  subjectId := binding.val.subjectId

/-- `_specificity`. -/
def specificity (binding : CredentialBinding) (tenantId : Id) (principal : InternalPrincipal)
    (toolId upstreamServiceId : Id) : Option Nat :=
  (binding.target tenantId upstreamServiceId).specificity principal.val.id toolId

end CredentialBinding

namespace InMemoryCredentialBindingResolver

/-- `InMemoryCredentialBindingResolver.resolve`. -/
def resolve (bindings : List CredentialBinding) (tenantId : Id) (principal : InternalPrincipal)
    (toolId upstreamServiceId : Id) : Except Exc (Option CredentialBinding) :=
  if principal.val.tenantId ≠ tenantId then
    .error (.nexus .tenantBoundaryViolation "principal crossed credential tenant boundary")
  else
    let candidates := scored (·.specificity tenantId principal toolId upstreamServiceId) bindings
    if candidates = [] then .ok none
    else
      match top candidates with
      | [finalist] => .ok (some finalist)
      | _ => .error (.nexus .credentialBindingConflict "credential binding selection was ambiguous")

end InMemoryCredentialBindingResolver

/-! ## What applies -/

namespace CredentialBinding

variable {binding : CredentialBinding} {tenantId toolId upstreamServiceId : Id}
  {principal : InternalPrincipal}

/-- The binding is active, is for the tenant and the upstream, and is not for another tool or
    another principal. -/
structure AppliesTo (binding : CredentialBinding) (tenantId : Id) (principal : InternalPrincipal)
    (toolId upstreamServiceId : Id) : Prop where
  active : binding.val.status = .active
  tenant : binding.val.tenantId = tenantId
  upstream : binding.val.upstreamServiceId = upstreamServiceId
  tool : binding.val.toolId = none ∨ binding.val.toolId = some toolId
  subject : binding.val.subjectType = .tenant ∨ binding.val.subjectId = some principal.val.id

theorem appliesTo_iff : binding.AppliesTo tenantId principal toolId upstreamServiceId ↔
    (binding.target tenantId upstreamServiceId).AppliesTo principal.val.id toolId := by
  have hsubject : binding.val.subjectType = .tenant ∨
        binding.val.subjectId = some principal.val.id ↔
      ((binding.target tenantId upstreamServiceId).forPrincipal →
        (binding.target tenantId upstreamServiceId).subjectId = some principal.val.id) := by
    simp only [target]
    cases binding.val.subjectType <;> simp
  constructor
  · rintro ⟨hactive, htenant, hupstream, htool, hfor⟩
    exact ⟨by simp [target, hactive, htenant, hupstream], htool, hsubject.1 hfor⟩
  · rintro ⟨hscope, htool, hfor⟩
    obtain ⟨hactive, hscope⟩ := of_decide_eq_true hscope
    rw [not_or, not_not, not_not] at hscope
    exact ⟨hactive, hscope.1, hscope.2, htool, hsubject.2 hfor⟩

instance : Decidable (binding.AppliesTo tenantId principal toolId upstreamServiceId) :=
  decidable_of_iff _ appliesTo_iff.symm

/-- How specific a binding that applies is. -/
def score (binding : CredentialBinding) : Nat :=
  (if binding.val.subjectType = .principal then 30 else 10) +
    (if binding.val.toolId.isSome then 1 else 0)

theorem score_target : (binding.target tenantId upstreamServiceId).score = binding.score := by
  simp [RuleTarget.score, target, score]

theorem specificity_eq_some {s : Nat} :
    binding.specificity tenantId principal toolId upstreamServiceId = some s ↔
      binding.AppliesTo tenantId principal toolId upstreamServiceId ∧ binding.score = s := by
  rw [appliesTo_iff, ← score_target]
  exact RuleTarget.specificity_eq_some

theorem specificity_eq_none :
    binding.specificity tenantId principal toolId upstreamServiceId = none ↔
      ¬ binding.AppliesTo tenantId principal toolId upstreamServiceId :=
  RuleTarget.specificity_eq_none.trans (not_congr appliesTo_iff.symm)

theorem score_lt_of_subject {other : CredentialBinding}
    (hother : other.val.subjectType = .tenant) (h : binding.val.subjectType = .principal) :
    other.score < binding.score := by
  have hscore (binding : CredentialBinding) : binding.score = (binding.target "" "").score :=
    score_target.symm
  rw [hscore, hscore]
  exact RuleTarget.score_lt_iff.2 (.inl (by simp [target, h, hother]))

end CredentialBinding

/-! ## The choice -/

namespace InMemoryCredentialBindingResolver

variable {bindings bindings' : List CredentialBinding} {tenantId toolId upstreamServiceId : Id}
  {principal : InternalPrincipal} {binding : CredentialBinding}

/-- The candidates of the highest score. -/
abbrev finalists (bindings : List CredentialBinding) (tenantId : Id)
    (principal : InternalPrincipal) (toolId upstreamServiceId : Id) : List CredentialBinding :=
  top (scored (·.specificity tenantId principal toolId upstreamServiceId) bindings)

theorem mem_finalists : binding ∈ finalists bindings tenantId principal toolId upstreamServiceId ↔
    binding ∈ bindings ∧ binding.AppliesTo tenantId principal toolId upstreamServiceId ∧
      ∀ other ∈ bindings, other.AppliesTo tenantId principal toolId upstreamServiceId →
        other.score ≤ binding.score := by
  simp only [finalists, Select.mem_top_scored, CredentialBinding.specificity_eq_some]
  constructor
  · rintro ⟨hmem, s, ⟨happlies, rfl⟩, hmax⟩
    exact ⟨hmem, happlies, fun other hother hother' => hmax other hother _ ⟨hother', rfl⟩⟩
  · rintro ⟨hmem, happlies, hmax⟩
    refine ⟨hmem, _, ⟨happlies, rfl⟩, ?_⟩
    rintro other hother s ⟨hother', rfl⟩
    exact hmax other hother hother'

/-- Whoever has the score of a finalist is one. -/
theorem finalists_eq_filter
    (h : binding ∈ finalists bindings tenantId principal toolId upstreamServiceId) :
    finalists bindings tenantId principal toolId upstreamServiceId = bindings.filter fun other =>
      other.AppliesTo tenantId principal toolId upstreamServiceId ∧
        other.score = binding.score := by
  obtain ⟨hmem, happlies, hmax⟩ := mem_finalists.1 h
  have hfilter : finalists bindings tenantId principal toolId upstreamServiceId =
      bindings.filter fun other =>
        other.specificity tenantId principal toolId upstreamServiceId = some binding.score := by
    refine Select.top_scored_eq_filter hmem
      (CredentialBinding.specificity_eq_some.2 ⟨happlies, rfl⟩) ?_
    intro other hother s hs
    obtain ⟨hother', rfl⟩ := CredentialBinding.specificity_eq_some.1 hs
    exact hmax other hother hother'
  simpa only [CredentialBinding.specificity_eq_some] using hfilter

/-- A binding above all others that apply is the only finalist. -/
theorem finalists_of_above {rest : List CredentialBinding} (h : bindings.Perm (binding :: rest))
    (happlies : binding.AppliesTo tenantId principal toolId upstreamServiceId)
    (habove : ∀ other ∈ rest, other.AppliesTo tenantId principal toolId upstreamServiceId →
      other.score < binding.score) :
    finalists bindings tenantId principal toolId upstreamServiceId = [binding] := by
  have hfinalist : binding ∈ finalists bindings tenantId principal toolId upstreamServiceId := by
    refine mem_finalists.2 ⟨h.mem_iff.2 (.head _), happlies, fun other hother hother' => ?_⟩
    rcases List.mem_cons.1 (h.mem_iff.1 hother) with rfl | hother
    · exact le_rfl
    · exact (habove other hother hother').le
  have hrest : rest.filter (fun other => other.AppliesTo tenantId principal toolId
      upstreamServiceId ∧ other.score = binding.score) = [] := by
    rw [List.filter_eq_nil_iff]
    intro other hother hsame
    obtain ⟨hother', hsame⟩ := of_decide_eq_true hsame
    exact absurd hsame (habove other hother hother').ne
  rw [finalists_eq_filter hfinalist]
  refine List.perm_singleton.1 ((h.filter _).trans ?_)
  rw [List.filter_cons_of_pos (by simp [happlies]), hrest]

/-- And the only finalist is above all others that apply. -/
theorem above_of_finalists
    (h : finalists bindings tenantId principal toolId upstreamServiceId = [binding]) :
    binding.AppliesTo tenantId principal toolId upstreamServiceId ∧
      ∃ rest, bindings.Perm (binding :: rest) ∧
        ∀ other ∈ rest, other.AppliesTo tenantId principal toolId upstreamServiceId →
          other.score < binding.score := by
  have hfinalist : binding ∈ finalists bindings tenantId principal toolId upstreamServiceId := by
    rw [h]
    exact List.mem_singleton_self _
  obtain ⟨hmem, happlies, hmax⟩ := mem_finalists.1 hfinalist
  have hrest := List.perm_cons_erase hmem
  refine ⟨happlies, _, hrest, fun other hother hother' => ?_⟩
  have hle := hmax other (hrest.mem_iff.2 (.tail _ hother)) hother'
  refine hle.lt_of_ne fun hsame => ?_
  -- it would be a second finalist
  have hperm := (hrest.filter fun other => other.AppliesTo tenantId principal toolId
    upstreamServiceId ∧ other.score = binding.score).symm
  rw [← finalists_eq_filter hfinalist, h, List.filter_cons_of_pos (by simp [happlies])] at hperm
  have hnone := List.filter_eq_nil_iff.1 (List.cons.inj (List.perm_singleton.1 hperm)).2
  exact hnone other hother (by simp [hother', hsame])

/-- Two finalists have the same score. -/
theorem tied_of_finalists {first second : CredentialBinding} {more : List CredentialBinding}
    (h : finalists bindings tenantId principal toolId upstreamServiceId =
      first :: second :: more) :
    ∃ rest, bindings.Perm (first :: second :: rest) ∧
      first.AppliesTo tenantId principal toolId upstreamServiceId ∧
      second.AppliesTo tenantId principal toolId upstreamServiceId ∧
      second.score = first.score ∧
      ∀ other ∈ rest, other.AppliesTo tenantId principal toolId upstreamServiceId →
        other.score ≤ first.score := by
  have hfirst : first ∈ finalists bindings tenantId principal toolId upstreamServiceId := by
    rw [h]
    exact .head _
  obtain ⟨-, happlies, hmax⟩ := mem_finalists.1 hfirst
  have hfilter := finalists_eq_filter hfirst
  have hsecond : second ∈ finalists bindings tenantId principal toolId upstreamServiceId := by
    rw [h]
    exact .tail _ (.head _)
  rw [hfilter, List.mem_filter] at hsecond
  obtain ⟨happlies', hsame⟩ := of_decide_eq_true hsecond.2
  have hsublist : [first, second].Sublist bindings := by
    have hfinalists : (first :: second :: more).Sublist bindings := by
      rw [← h, hfilter]
      exact List.filter_sublist
    exact (((List.nil_sublist more).cons_cons second).cons_cons first).trans hfinalists
  obtain ⟨rest, hrest⟩ := hsublist.exists_perm_append
  refine ⟨rest, hrest, happlies, happlies', hsame, fun other hother hother' => ?_⟩
  exact hmax other (hrest.mem_iff.2 (by simp [hother])) hother'

theorem finalists_of_tied {first second : CredentialBinding} {rest : List CredentialBinding}
    (h : bindings.Perm (first :: second :: rest))
    (hfirst : first.AppliesTo tenantId principal toolId upstreamServiceId)
    (hsecond : second.AppliesTo tenantId principal toolId upstreamServiceId)
    (hsame : second.score = first.score)
    (hmax : ∀ other ∈ rest, other.AppliesTo tenantId principal toolId upstreamServiceId →
      other.score ≤ first.score) :
    2 ≤ (finalists bindings tenantId principal toolId upstreamServiceId).length := by
  have hfinalist : first ∈ finalists bindings tenantId principal toolId upstreamServiceId := by
    refine mem_finalists.2 ⟨h.mem_iff.2 (.head _), hfirst, fun other hother hother' => ?_⟩
    rcases List.mem_cons.1 (h.mem_iff.1 hother) with rfl | hother
    · exact le_rfl
    rcases List.mem_cons.1 hother with rfl | hother
    · exact hsame.le
    · exact hmax other hother hother'
  rw [finalists_eq_filter hfinalist, (h.filter _).length_eq,
    List.filter_cons_of_pos (by simp [hfirst]), List.filter_cons_of_pos (by simp [hsecond, hsame])]
  simp

theorem resolve_of_tenant (htenant : principal.val.tenantId = tenantId) :
    resolve bindings tenantId principal toolId upstreamServiceId =
      match finalists bindings tenantId principal toolId upstreamServiceId with
      | [] => .ok none
      | [finalist] => .ok (some finalist)
      | _ => .error (.nexus .credentialBindingConflict
        "credential binding selection was ambiguous") := by
  unfold resolve
  rw [if_neg (not_not.2 htenant)]
  dsimp only
  split
  · next hnone => rw [finalists, hnone]; rfl
  · next hsome =>
    have hne := mt Select.top_eq_nil.1 hsome
    cases hfinalists : finalists bindings tenantId principal toolId upstreamServiceId with
    | nil => exact absurd hfinalists hne
    | cons first more =>
      rw [finalists] at hfinalists
      rw [hfinalists]
      cases more <;> rfl

/-- Only the bindings that apply matter, and not their order. -/
theorem resolve_congr (htenant : principal.val.tenantId = tenantId)
    (h : (bindings'.filter (·.AppliesTo tenantId principal toolId upstreamServiceId)).Perm
      (bindings.filter (·.AppliesTo tenantId principal toolId upstreamServiceId))) :
    resolve bindings' tenantId principal toolId upstreamServiceId =
      resolve bindings tenantId principal toolId upstreamServiceId := by
  have hfilter (bindings : List CredentialBinding) :
      finalists (bindings.filter (·.AppliesTo tenantId principal toolId upstreamServiceId)) tenantId
          principal toolId upstreamServiceId =
        finalists bindings tenantId principal toolId upstreamServiceId := by
    refine congrArg top (Select.scored_filter fun binding hscored => ?_)
    obtain ⟨s, hs⟩ := Option.isSome_iff_exists.1 hscored
    exact decide_eq_true (CredentialBinding.specificity_eq_some.1 hs).1
  have hperm : (finalists bindings' tenantId principal toolId upstreamServiceId).Perm
      (finalists bindings tenantId principal toolId upstreamServiceId) := by
    rw [← hfilter bindings', ← hfilter bindings]
    exact Select.top_perm (Select.scored_perm h)
  rw [resolve_of_tenant htenant, resolve_of_tenant htenant]
  generalize finalists bindings' tenantId principal toolId upstreamServiceId = first at hperm
  generalize finalists bindings tenantId principal toolId upstreamServiceId = second at hperm
  match first, second, hperm.length_eq with
  | [], [], _ => rfl
  | [binding], [_], _ => rw [List.singleton_perm.1 hperm]
  | _ :: _ :: _, _ :: _ :: _, _ => rfl

/-- What the choice of a credential binding gives. -/
structure FailsClosed (bindings : List CredentialBinding) (tenantId : Id)
    (principal : InternalPrincipal) (toolId upstreamServiceId : Id) : Prop where
  order : ∀ bindings', bindings'.Perm bindings →
    resolve bindings' tenantId principal toolId upstreamServiceId =
      resolve bindings tenantId principal toolId upstreamServiceId
  found : ∀ binding, resolve bindings tenantId principal toolId upstreamServiceId =
      .ok (some binding) ↔
    binding.AppliesTo tenantId principal toolId upstreamServiceId ∧
      ∃ rest, bindings.Perm (binding :: rest) ∧
        ∀ other ∈ rest, other.AppliesTo tenantId principal toolId upstreamServiceId →
          other.score < binding.score
  notFound : resolve bindings tenantId principal toolId upstreamServiceId = .ok none ↔
    ∀ binding ∈ bindings, ¬ binding.AppliesTo tenantId principal toolId upstreamServiceId
  conflict : resolve bindings tenantId principal toolId upstreamServiceId =
      .error (.nexus .credentialBindingConflict "credential binding selection was ambiguous") ↔
    ∃ first second rest, bindings.Perm (first :: second :: rest) ∧
      first.AppliesTo tenantId principal toolId upstreamServiceId ∧
      second.AppliesTo tenantId principal toolId upstreamServiceId ∧
      second.score = first.score ∧
      ∀ other ∈ rest, other.AppliesTo tenantId principal toolId upstreamServiceId →
        other.score ≤ first.score
  raises : ∀ e, resolve bindings tenantId principal toolId upstreamServiceId = .error e →
    e = .nexus .credentialBindingConflict "credential binding selection was ambiguous"
  principalFirst : ∀ binding ∈ bindings,
    binding.AppliesTo tenantId principal toolId upstreamServiceId →
    binding.val.subjectType = .principal →
    (∀ other : CredentialBinding, other.val.subjectType = .tenant → other.score < binding.score) ∧
      ∀ found, resolve bindings tenantId principal toolId upstreamServiceId = .ok (some found) →
        found.val.subjectType = .principal
  others : ∀ bindings' : List CredentialBinding,
    (bindings'.filter (·.AppliesTo tenantId principal toolId upstreamServiceId)).Perm
      (bindings.filter (·.AppliesTo tenantId principal toolId upstreamServiceId)) →
    resolve bindings' tenantId principal toolId upstreamServiceId =
      resolve bindings tenantId principal toolId upstreamServiceId

theorem resolve_eq_some (htenant : principal.val.tenantId = tenantId) :
    resolve bindings tenantId principal toolId upstreamServiceId = .ok (some binding) ↔
      finalists bindings tenantId principal toolId upstreamServiceId = [binding] := by
  rw [resolve_of_tenant htenant]
  split <;> simp_all

end InMemoryCredentialBindingResolver

open InMemoryCredentialBindingResolver in
/-- A binding is chosen only if it is above all others that apply. -/
theorem credential_selection_fails_closed (bindings : List CredentialBinding) {tenantId : Id}
    {principal : InternalPrincipal} (htenant : principal.val.tenantId = tenantId)
    (toolId upstreamServiceId : Id) :
    FailsClosed bindings tenantId principal toolId upstreamServiceId where
  order bindings' hperm := resolve_congr htenant (hperm.filter _)
  found binding := by
    rw [resolve_eq_some htenant]
    exact ⟨above_of_finalists, fun ⟨happlies, _, hperm, habove⟩ =>
      finalists_of_above hperm happlies habove⟩
  notFound := by
    rw [resolve_of_tenant htenant]
    have hnone : finalists bindings tenantId principal toolId upstreamServiceId = [] ↔
        ∀ binding ∈ bindings, ¬ binding.AppliesTo tenantId principal toolId upstreamServiceId :=
      Select.top_scored_eq_nil.trans
        (forall₂_congr fun _ _ => CredentialBinding.specificity_eq_none)
    rw [← hnone]
    split <;> simp_all
  conflict := by
    rw [resolve_of_tenant htenant]
    constructor
    · intro hconflict
      -- A conflict is what two finalists or more end in.
      match hfinalists : finalists bindings tenantId principal toolId upstreamServiceId with
      | [] => simp [hfinalists] at hconflict
      | [_] => simp [hfinalists] at hconflict
      | first :: second :: _ => exact ⟨first, second, tied_of_finalists hfinalists⟩
    · rintro ⟨first, second, rest, hperm, hfirst, hsecond, hsame, hmax⟩
      have htwo := finalists_of_tied hperm hfirst hsecond hsame hmax
      split <;> simp_all
  raises e he := by
    rw [resolve_of_tenant htenant] at he
    split at he <;> cases he
    rfl
  principalFirst binding hbinding happlies hsubject := by
    refine ⟨fun other hother => CredentialBinding.score_lt_of_subject hother hsubject, ?_⟩
    intro found hfound
    have hfinalist : found ∈ finalists bindings tenantId principal toolId upstreamServiceId := by
      rw [(resolve_eq_some htenant).1 hfound]
      exact List.mem_singleton_self _
    -- The binding that is found scores at least as high as any that applies, and a tenant's is
    -- below a principal's.
    have hle := (mem_finalists.1 hfinalist).2.2 binding hbinding happlies
    cases hfound' : found.val.subjectType with
    | principal => rfl
    | tenant => exact absurd hle (CredentialBinding.score_lt_of_subject hfound' hsubject).not_ge
  others bindings' h := resolve_congr htenant h

def agentPrincipal : InternalPrincipal :=
  ⟨⟨"agent-3", "tenant-1", .agentService, "token"⟩, by decide⟩

def tenantBinding : CredentialBinding :=
  ⟨{ id := "binding-1"
     tenantId := "tenant-1"
     subjectType := .tenant
     subjectId := none
     toolId := some "tool-1"
     upstreamServiceId := "upstream-1"
     secretReference := ⟨⟨"vault", "orders", none⟩, by decide +kernel⟩
     injectionLocation := .header
     injectionName := "Authorization"
     valueFormat := .bearer }, by decide +kernel⟩

def agentBinding : CredentialBinding :=
  ⟨{ tenantBinding.val with
     id := "binding-2"
     subjectType := .principal
     subjectId := some "agent-3"
     toolId := none }, by decide +kernel⟩

/-- The binding of the agent for any tool comes before that of its tenant for the tool. -/
theorem credential_selection_fails_closed_agent :
    InMemoryCredentialBindingResolver.resolve [tenantBinding, agentBinding] "tenant-1"
        agentPrincipal "tool-1" "upstream-1" = .ok (some agentBinding) := by
  have h := credential_selection_fails_closed [tenantBinding, agentBinding]
    (show agentPrincipal.val.tenantId = "tenant-1" from rfl) "tool-1" "upstream-1"
  refine (h.found agentBinding).2 ⟨by decide +kernel, [tenantBinding], .swap _ _ _, ?_⟩
  decide +kernel

end NexusMcp
