-- SUMMARY: Catalogue tables that are alike up to generated identifiers and times.
import NexusMcp.Catalog.Effects
import NexusMcp.Txn.Simulation
import Mathlib.Logic.Equiv.Basic

/-!
# Generated Values

Two runs of a command differ in the identifiers and the times that they were given. Their
tables are alike when the rows are the same after one renaming of the identifiers, and but
for the times. The repository functions and the transitions of the rows keep tables alike.
-/

namespace NexusMcp

open Txn (Simulates Table)
open CatalogM (lift orRaise)

/-! ## Rows that are alike -/

/-- One generated identifier for another, for each kind of row. -/
structure Renaming where
  tool : Equiv.Perm Id
  version : Equiv.Perm Id
  binding : Equiv.Perm Id

def ToolFields.renamed (ρ : Renaming) (t : ToolFields) : ToolFields := { t with id := ρ.tool t.id }

def ToolVersionFields.renamed (ρ : Renaming) (v : ToolVersionFields) : ToolVersionFields :=
  { v with id := ρ.version v.id, toolId := ρ.tool v.toolId }

/-- The version with every time that is there set to zero. -/
def ToolVersionFields.untimed (v : ToolVersionFields) : ToolVersionFields :=
  { v with
    createdAt := 0
    reviewedAt := v.reviewedAt.map fun _ => 0
    publishedAt := v.publishedAt.map fun _ => 0
    retiredAt := v.retiredAt.map fun _ => 0 }

def ToolBindingFields.renamed (ρ : Renaming) (b : ToolBindingFields) : ToolBindingFields :=
  { b with id := ρ.binding b.id, toolVersionId := ρ.version b.toolVersionId }

/-- The binding with every time that is there set to zero. -/
def ToolBindingFields.untimed (b : ToolBindingFields) : ToolBindingFields :=
  { b with createdAt := 0, publishedAt := b.publishedAt.map fun _ => 0 }

/-- An operation refers to its drafts once it is accepted. -/
def ImportedOperation.renamed (ρ : Renaming) (o : ImportedOperation) : ImportedOperation :=
  if o.reviewStatus = .accepted then
    { o with
      draftToolVersionId := o.draftToolVersionId.map ρ.version
      draftToolBindingId := o.draftToolBindingId.map ρ.binding }
  else o

def Tool.Alike (ρ : Renaming) (t u : Tool) : Prop := u.val = t.val.renamed ρ

def ToolVersion.Alike (ρ : Renaming) (v w : ToolVersion) : Prop :=
  w.val.untimed = (v.val.renamed ρ).untimed

def ToolBinding.Alike (ρ : Renaming) (b d : ToolBinding) : Prop :=
  d.val.untimed = (b.val.renamed ρ).untimed

def ImportedOperation.Alike (ρ : Renaming) (o p : ImportedOperation) : Prop := p = o.renamed ρ

/-- The tables are the same up to the renaming of identifiers, and but for times. -/
structure CatalogRows.Alike (ρ : Renaming) (c d : CatalogRows) : Prop where
  tools : c.tools.Related (Tool.Alike ρ) d.tools
  versions : c.versions.Related (ToolVersion.Alike ρ) d.versions
  bindings : c.bindings.Related (ToolBinding.Alike ρ) d.bindings
  upstreams : d.upstreams = c.upstreams
  operations : c.operations.Related (ImportedOperation.Alike ρ) d.operations
  jobs : d.jobs = c.jobs

/-! ## Fields of rows that are alike -/

section Fields

variable {ρ : Renaming}

namespace Tool

variable {t u : Tool}

theorem Alike.field {β : Type} (h : t.Alike ρ u) (f : ToolFields → β) :
    f u.val = f (t.val.renamed ρ) := congrArg f h

theorem renames_alike :
    Table.Renames (Tool.Alike ρ) (·.val.id) (·.val.id) ρ.tool where
  injective := ρ.tool.injective
  key _ _ h := h.field (·.id)

end Tool

namespace ToolVersion

variable {v w : ToolVersion}

theorem Alike.field {β : Type} (h : v.Alike ρ w) (f : ToolVersionFields → β) :
    f w.val.untimed = f (v.val.renamed ρ).untimed := congrArg f h

theorem renames_alike :
    Table.Renames (ToolVersion.Alike ρ) (·.val.id) (·.val.id) ρ.version where
  injective := ρ.version.injective
  key _ _ h := h.field (·.id)

theorem Alike.status (h : v.Alike ρ w) : w.val.status = v.val.status := h.field (·.status)

theorem Alike.tenantId (h : v.Alike ρ w) : w.val.tenantId = v.val.tenantId := h.field (·.tenantId)

theorem Alike.toolId (h : v.Alike ρ w) : w.val.toolId = ρ.tool v.val.toolId := h.field (·.toolId)

theorem Alike.id (h : v.Alike ρ w) : w.val.id = ρ.version v.val.id := h.field (·.id)

theorem Alike.version (h : v.Alike ρ w) : w.val.version = v.val.version := h.field (·.version)

end ToolVersion

namespace ToolBinding

variable {b d : ToolBinding}

theorem Alike.field {β : Type} (h : b.Alike ρ d) (f : ToolBindingFields → β) :
    f d.val.untimed = f (b.val.renamed ρ).untimed := congrArg f h

theorem renames_alike :
    Table.Renames (ToolBinding.Alike ρ) (·.val.id) (·.val.id) ρ.binding where
  injective := ρ.binding.injective
  key _ _ h := h.field (·.id)

theorem Alike.status (h : b.Alike ρ d) : d.val.status = b.val.status := h.field (·.status)

theorem Alike.tenantId (h : b.Alike ρ d) : d.val.tenantId = b.val.tenantId := h.field (·.tenantId)

theorem Alike.id (h : b.Alike ρ d) : d.val.id = ρ.binding b.val.id := h.field (·.id)

theorem Alike.toolVersionId (h : b.Alike ρ d) :
    d.val.toolVersionId = ρ.version b.val.toolVersionId := h.field (·.toolVersionId)

theorem Alike.upstreamServiceId (h : b.Alike ρ d) :
    d.val.upstreamServiceId = b.val.upstreamServiceId := h.field (·.upstreamServiceId)

end ToolBinding

namespace ImportedOperation

variable {o p : ImportedOperation}

/-- A field that is no reference to a draft. -/
theorem renamed_field {β : Type} (f : ImportedOperation → β)
    (hf : ∀ version binding, f { o with
      draftToolVersionId := version, draftToolBindingId := binding } = f o) :
    f (o.renamed ρ) = f o := by
  unfold renamed
  split
  · exact hf _ _
  · rfl

/-- Operations keep their identifiers. -/
theorem renames_alike : Table.Renames (ImportedOperation.Alike ρ) (·.id) (·.id) fun k => k where
  injective := Function.injective_id
  key o p h := by
    rw [h]
    exact renamed_field (·.id) fun _ _ => rfl

end ImportedOperation

end Fields

/-! ## Unique constraints -/

theorem CatalogRows.Alike.unique {ρ : Renaming} {c d : CatalogRows} (h : c.Alike ρ d)
    (hc : c.Unique) : d.Unique where
  toolNames := by
    refine (Txn.nodup_map_iff_of_forall₂ h.tools Function.injective_id ?_).2 hc.toolNames
    intro t u htu
    exact Prod.ext (htu.field (·.tenantId)) (htu.field (·.canonicalName))
  versionNumbers := by
    refine (Txn.nodup_map_iff_of_forall₂ h.versions
      (ρ.tool.injective.prodMap Function.injective_id) ?_).2 hc.versionNumbers
    intro v w hvw
    exact Prod.ext hvw.toolId hvw.version
  onePublished := by
    have hpublished := Txn.forall₂_filter (p := fun v : ToolVersion => v.val.status = .published)
      (q := fun v : ToolVersion => v.val.status = .published) h.versions (by
        intro v w hvw
        rw [hvw.status])
    exact (Txn.nodup_map_iff_of_forall₂ hpublished ρ.tool.injective fun _ _ hvw => hvw.toolId).2
      hc.onePublished
  oneBinding :=
    (Txn.nodup_map_iff_of_forall₂ h.bindings ρ.version.injective
      fun _ _ hbd => hbd.toolVersionId).2 hc.oneBinding

/-! ## Transitions -/

section Transitions

variable {ρ : Renaming}

theorem ToolVersion.exists_submitForReview {v : ToolVersion} (h : v.val.status = .draft)
    (now : Time) : ∃ w, v.submitForReview now = .ok w := by
  have hvalid : Valid { v.val with status := .review, reviewedAt := some now } := by
    have hv := v.property
    simp only [Valid, PostInit.checks, nonBlank, List.forall_mem_cons] at hv ⊢
    simp_all
  exact ⟨⟨_, hvalid⟩, submitForReview_eq_ok.2 ⟨h, rfl⟩⟩

theorem ToolVersion.exists_publish {v : ToolVersion} (h : v.val.status = .review) (now : Time) :
    ∃ w, v.publish now = .ok w := by
  have hvalid : Valid { v.val with status := .published, publishedAt := some now } := by
    have hv := v.property
    simp only [Valid, PostInit.checks, nonBlank, List.forall_mem_cons] at hv ⊢
    simp_all
  exact ⟨⟨_, hvalid⟩, publish_eq_ok.2 ⟨h, rfl⟩⟩

theorem ToolVersion.exists_retire {v : ToolVersion} (h : v.val.status = .published) (now : Time) :
    ∃ w, v.retire now = .ok w := by
  have hvalid : Valid { v.val with status := .retired, retiredAt := some now } := by
    have hv := v.property
    simp only [Valid, PostInit.checks, nonBlank, List.forall_mem_cons] at hv ⊢
    simp_all
  exact ⟨⟨_, hvalid⟩, retire_eq_ok.2 ⟨h, rfl⟩⟩

theorem ToolBinding.exists_publish {b : ToolBinding} (h : b.val.status = .draft) (now : Time) :
    ∃ d, b.publish now = .ok d := by
  have hvalid : Valid { b.val with status := .published, publishedAt := some now } := by
    have hb := b.property
    simp only [Valid, PostInit.checks, nonBlank, List.forall_mem_cons] at hb ⊢
    simp_all
  exact ⟨⟨_, hvalid⟩, publish_eq_ok.2 ⟨h, rfl⟩⟩

theorem ToolBinding.exists_disable {b : ToolBinding} (h : b.val.status = .published) :
    ∃ d, b.disable = .ok d := by
  have hvalid : Valid { b.val with status := .disabled } := by
    have hb := b.property
    simp only [Valid, PostInit.checks, nonBlank, List.forall_mem_cons] at hb ⊢
    simp_all
  exact ⟨⟨_, hvalid⟩, disable_eq_ok.2 ⟨h, rfl⟩⟩

namespace ToolVersion

variable {v v' w : ToolVersion} {now : Time}

theorem Alike.submitForReview (h : v.Alike ρ v') (hw : v.submitForReview now = .ok w)
    (now' : Time) : ∃ w', v'.submitForReview now' = .ok w' ∧ w.Alike ρ w' := by
  obtain ⟨hdraft, hw⟩ := submitForReview_eq_ok.1 hw
  obtain ⟨w', hw'⟩ := exists_submitForReview (h.status.trans hdraft) now'
  refine ⟨w', hw', ?_⟩
  unfold Alike
  rw [(submitForReview_eq_ok.1 hw').2, hw]
  exact congrArg (fun f : ToolVersionFields =>
    { f with status := .review, reviewedAt := some 0 }) h

theorem Alike.publish (h : v.Alike ρ v') (hw : v.publish now = .ok w) (now' : Time) :
    ∃ w', v'.publish now' = .ok w' ∧ w.Alike ρ w' := by
  obtain ⟨hreview, hw⟩ := publish_eq_ok.1 hw
  obtain ⟨w', hw'⟩ := exists_publish (h.status.trans hreview) now'
  refine ⟨w', hw', ?_⟩
  unfold Alike
  rw [(publish_eq_ok.1 hw').2, hw]
  exact congrArg (fun f : ToolVersionFields =>
    { f with status := .published, publishedAt := some 0 }) h

theorem Alike.retire (h : v.Alike ρ v') (hw : v.retire now = .ok w) (now' : Time) :
    ∃ w', v'.retire now' = .ok w' ∧ w.Alike ρ w' := by
  obtain ⟨hpublished, hw⟩ := retire_eq_ok.1 hw
  obtain ⟨w', hw'⟩ := exists_retire (h.status.trans hpublished) now'
  refine ⟨w', hw', ?_⟩
  unfold Alike
  rw [(retire_eq_ok.1 hw').2, hw]
  exact congrArg (fun f : ToolVersionFields =>
    { f with status := .retired, retiredAt := some 0 }) h

end ToolVersion

namespace ToolBinding

variable {b b' d : ToolBinding} {now : Time}

theorem Alike.publish (h : b.Alike ρ b') (hd : b.publish now = .ok d) (now' : Time) :
    ∃ d', b'.publish now' = .ok d' ∧ d.Alike ρ d' := by
  obtain ⟨hdraft, hd⟩ := publish_eq_ok.1 hd
  obtain ⟨d', hd'⟩ := exists_publish (h.status.trans hdraft) now'
  refine ⟨d', hd', ?_⟩
  unfold Alike
  rw [(publish_eq_ok.1 hd').2, hd]
  exact congrArg (fun f : ToolBindingFields =>
    { f with status := .published, publishedAt := some 0 }) h

theorem Alike.disable (h : b.Alike ρ b') (hd : b.disable = .ok d) :
    ∃ d', b'.disable = .ok d' ∧ d.Alike ρ d' := by
  obtain ⟨hpublished, hd⟩ := disable_eq_ok.1 hd
  obtain ⟨d', hd'⟩ := exists_disable (h.status.trans hpublished)
  refine ⟨d', hd', ?_⟩
  unfold Alike
  rw [(disable_eq_ok.1 hd').2, hd]
  exact congrArg (fun f : ToolBindingFields => { f with status := .disabled }) h

end ToolBinding

theorem Tool.Alike.activate {t u w : Tool} (h : t.Alike ρ u) (hw : t.activate = .ok w) :
    ∃ w', u.activate = .ok w' ∧ w.Alike ρ w' := by
  have hstatus : u.val.status = t.val.status := h.field (·.status)
  unfold Tool.activate at hw ⊢
  rw [hstatus]
  split
  · next hactive =>
    rw [if_pos hactive] at hw
    cases hw
    exact ⟨u, rfl, h⟩
  · next hinactive =>
    rw [if_neg hinactive, construct_eq_ok] at hw
    have hvalid : Valid { u.val with status := .active } := u.property
    refine ⟨⟨_, hvalid⟩, construct_of_valid hvalid, ?_⟩
    unfold Tool.Alike at h ⊢
    rw [hw]
    exact congrArg (fun f : ToolFields => { f with status := .active }) h

end Transitions

/-! ## Repository functions -/

section Repository

variable {ρ : Renaming} {α β γ δ : Type}

/-- The success of one transaction is matched by the other, and the tables are alike again. -/
abbrev CatalogM.Mirrors (ρ : Renaming) (Q : α → β → Prop) (x : CatalogM α) (y : CatalogM β) :
    Prop :=
  Simulates (fun c d : CatalogTables => c.toCatalogRows.Alike ρ d.toCatalogRows) Q x y

theorem CatalogM.bind_eq_andThen {x : CatalogM α} {f : α → CatalogM β} :
    x >>= f = Txn.Transaction.andThen x f := by
  funext c
  change CatalogM.bind x f c = _
  unfold CatalogM.bind Txn.Transaction.andThen
  cases x c <;> rfl

namespace CatalogM.Mirrors

variable {Q : α → β → Prop} {Q' : γ → δ → Prop} {x : CatalogM α} {y : CatalogM β}

theorem bind {f : α → CatalogM γ} {g : β → CatalogM δ} (h : Mirrors ρ Q x y)
    (hfg : ∀ a b, Q a b → Mirrors ρ Q' (f a) (g b)) : Mirrors ρ Q' (x >>= f) (y >>= g) := by
  rw [bind_eq_andThen, bind_eq_andThen]
  exact h.andThen hfg

theorem pure {a : α} {b : β} (h : Q a b) : Mirrors ρ Q (Pure.pure a) (Pure.pure b) :=
  Simulates.query fun _ _ _ => h

theorem read {f : CatalogTables → α} {g : CatalogTables → β}
    (h : ∀ c d : CatalogTables, c.toCatalogRows.Alike ρ d.toCatalogRows → Q (f c) (g d)) :
    Mirrors ρ Q (CatalogM.read f) (CatalogM.read g) :=
  Simulates.query h

theorem lift {p : Except Exc α} {q : Except Exc β}
    (h : ∀ a, p = .ok a → ∃ b, q = .ok b ∧ Q a b) :
    Mirrors ρ Q (CatalogM.lift p) (CatalogM.lift q) :=
  Simulates.outside h

theorem raise {e e' : Exc} :
    Mirrors ρ Q (CatalogM.lift (.error e)) (CatalogM.lift (.error e')) := by
  refine lift ?_
  intro a ha
  cases ha

theorem orRaise {a : Option α} {b : Option β} {e e' : Exc} (h : Option.Rel Q a b) :
    Mirrors ρ Q (CatalogM.orRaise a e) (CatalogM.orRaise b e') := by
  refine lift ?_
  intro r hr
  cases h with
  | none => cases hr
  | some h =>
    cases hr
    exact ⟨_, rfl, h⟩

theorem raiseIf {p q : Prop} [Decidable p] [Decidable q] {e e' : Exc} (h : q → p) :
    Mirrors ρ (fun _ _ => True) (CatalogM.raiseIf p e) (CatalogM.raiseIf q e') := by
  refine lift ?_
  intro u hu
  rw [NexusMcp.raiseIf_eq_ok] at hu
  exact ⟨(), NexusMcp.raiseIf_eq_ok.2 (mt h hu), trivial⟩

/-- The unique constraints hold of the one when they hold of the other. -/
theorem update {f g : CatalogRows → CatalogRows}
    (h : ∀ c d, c.Alike ρ d → (f c).Alike ρ (g d)) :
    Mirrors ρ (fun _ _ => True) (NexusMcp.update f) (NexusMcp.update g) := by
  intro c d hcd u c' hc'
  rw [update_eq_ok] at hc'
  have halike := h _ _ hcd
  rw [← hc'] at halike
  exact ⟨(), ⟨_, halike.unique c'.unique⟩, update_eq_ok.2 rfl, trivial, halike⟩

end CatalogM.Mirrors

/-! ### Reading -/

theorem rel_inTenant {ν : Type} {key : ν → Id} {R : ν → ν → Prop} {σ : Id → Id} {tenantOf : ν → Id}
    {t t' : Table key} (h : t.Related R t') (hσ : Table.Renames R key key σ)
    (htenant : ∀ v w, R v w → tenantOf w = tenantOf v) (tenantId id : Id) :
    Option.Rel R (inTenant tenantOf t tenantId id) (inTenant tenantOf t' tenantId (σ id)) := by
  unfold inTenant
  have hfind := h.find? hσ id
  generalize t.find? id = found at hfind
  generalize t'.find? (σ id) = found' at hfind
  cases hfind with
  | none => exact .none
  | @some v w hvw =>
    rw [Option.filter_some, Option.filter_some, htenant v w hvw]
    split
    · exact .some hvw
    · exact .none

theorem mirrors_getToolForUpdate (tenantId toolId : Id) :
    CatalogM.Mirrors ρ (Option.Rel (Tool.Alike ρ)) (getToolForUpdate tenantId toolId)
      (getToolForUpdate tenantId (ρ.tool toolId)) :=
  .read fun _ _ h =>
    rel_inTenant h.tools Tool.renames_alike (fun _ _ htu => htu.field (·.tenantId)) tenantId toolId

theorem mirrors_getToolByNameForUpdate (tenantId : Id) (canonicalName : String) :
    CatalogM.Mirrors ρ (Option.Rel (Tool.Alike ρ)) (getToolByNameForUpdate tenantId canonicalName)
      (getToolByNameForUpdate tenantId canonicalName) := by
  -- Names are no identifiers, so they are looked up unchanged.
  refine .read fun c d h => Txn.rel_find? h.tools ?_
  intro t u htu
  have htenant : u.val.tenantId = t.val.tenantId := htu.field (·.tenantId)
  have hname : u.val.canonicalName = t.val.canonicalName := htu.field (·.canonicalName)
  rw [htenant, hname]

theorem mirrors_getVersionForUpdate (tenantId toolVersionId : Id) :
    CatalogM.Mirrors ρ (Option.Rel (ToolVersion.Alike ρ))
      (getVersionForUpdate tenantId toolVersionId)
      (getVersionForUpdate tenantId (ρ.version toolVersionId)) :=
  .read fun _ _ h => rel_inTenant h.versions ToolVersion.renames_alike
    (fun _ _ hvw => hvw.tenantId) tenantId toolVersionId

theorem mirrors_getPublishedVersion (tenantId toolId : Id) :
    CatalogM.Mirrors ρ (Option.Rel (ToolVersion.Alike ρ)) (getPublishedVersion tenantId toolId)
      (getPublishedVersion tenantId (ρ.tool toolId)) := by
  refine .read fun c d h => Txn.rel_find? h.versions ?_
  intro v w hvw
  rw [decide_eq_decide, hvw.tenantId, hvw.toolId, hvw.status, ρ.tool.injective.eq_iff]

theorem mirrors_nextVersionNumber (tenantId toolId : Id) :
    CatalogM.Mirrors ρ (fun n m => m = n) (nextVersionNumber tenantId toolId)
      (nextVersionNumber tenantId (ρ.tool toolId)) := by
  refine .read fun c d h => ?_
  -- The same versions are counted on both sides, under the renamed tool.
  have hfilter := Txn.forall₂_filter
    (p := fun v : ToolVersion => v.val.tenantId = tenantId ∧ v.val.toolId = toolId)
    (q := fun w : ToolVersion => w.val.tenantId = tenantId ∧ w.val.toolId = ρ.tool toolId)
    h.versions (by
      intro v w hvw
      rw [decide_eq_decide, hvw.tenantId, hvw.toolId, ρ.tool.injective.eq_iff])
  have hnumbers := Txn.map_eq_of_forall₂ hfilter (f := (·.val.version)) (g := (·.val.version))
    (σ := fun n => n) fun v w hvw => hvw.version
  rw [hnumbers, List.map_id']

theorem mirrors_getBindingById (tenantId bindingId : Id) :
    CatalogM.Mirrors ρ (Option.Rel (ToolBinding.Alike ρ)) (getBindingById tenantId bindingId)
      (getBindingById tenantId (ρ.binding bindingId)) :=
  .read fun _ _ h => rel_inTenant h.bindings ToolBinding.renames_alike
    (fun _ _ hbd => hbd.tenantId) tenantId bindingId

theorem mirrors_getBindingByToolVersionForUpdate (tenantId toolVersionId : Id) :
    CatalogM.Mirrors ρ (Option.Rel (ToolBinding.Alike ρ))
      (getBindingByToolVersionForUpdate tenantId toolVersionId)
      (getBindingByToolVersionForUpdate tenantId (ρ.version toolVersionId)) := by
  refine .read fun c d h => Txn.rel_find? h.bindings ?_
  intro b b' hbb'
  rw [decide_eq_decide, hbb'.tenantId, hbb'.toolVersionId, ρ.version.injective.eq_iff]

theorem mirrors_getUpstreamForUpdate (tenantId upstreamServiceId : Id) :
    CatalogM.Mirrors ρ (Option.Rel (· = ·)) (getUpstreamForUpdate tenantId upstreamServiceId)
      (getUpstreamForUpdate tenantId upstreamServiceId) := by
  refine .read fun c d h => ?_
  rw [h.upstreams]
  cases inTenant (·.val.tenantId) c.upstreams tenantId upstreamServiceId with
  | none => exact .none
  | some upstream => exact .some rfl

theorem mirrors_getOperationForUpdate (tenantId operationId : Id) :
    CatalogM.Mirrors ρ (Option.Rel (ImportedOperation.Alike ρ))
      (getOperationForUpdate tenantId operationId) (getOperationForUpdate tenantId operationId) :=
  .read fun _ _ h => rel_inTenant h.operations ImportedOperation.renames_alike
    (fun o p hop => by
      rw [hop]
      exact ImportedOperation.renamed_field (·.tenantId) fun _ _ => rfl) tenantId operationId

/-! ### Writing -/

theorem mirrors_requireMatchingTenant {tenantId entityTenantId entityTenantId' : Id}
    (h : entityTenantId' = entityTenantId) :
    CatalogM.Mirrors ρ (fun _ _ => True) (requireMatchingTenant tenantId entityTenantId)
      (requireMatchingTenant tenantId entityTenantId') := by
  rw [h]
  exact .raiseIf fun hne => hne

theorem mirrors_saveVersion (tenantId : Id) {v w : ToolVersion} (h : v.Alike ρ w) :
    CatalogM.Mirrors ρ (fun _ _ => True) (saveVersion tenantId v) (saveVersion tenantId w) := by
  unfold saveVersion
  refine .bind (mirrors_requireMatchingTenant h.tenantId) fun _ _ _ => ?_
  rw [h.id, h.toolId]
  refine .bind (mirrors_getVersionForUpdate _ _) fun _ _ hfound => ?_
  refine .bind (.orRaise hfound) fun _ _ _ => ?_
  refine .bind (mirrors_getToolForUpdate _ _) fun _ _ hfound => ?_
  refine .bind (.orRaise hfound) fun _ _ _ => ?_
  refine .update fun c d hcd => ?_
  rw [← h.id]
  exact ⟨hcd.tools, hcd.versions.replace ToolVersion.renames_alike h, hcd.bindings, hcd.upstreams,
    hcd.operations, hcd.jobs⟩

theorem mirrors_saveBinding (tenantId : Id) {b d : ToolBinding} (h : b.Alike ρ d) :
    CatalogM.Mirrors ρ (fun _ _ => True) (saveBinding tenantId b) (saveBinding tenantId d) := by
  unfold saveBinding
  refine .bind (mirrors_requireMatchingTenant h.tenantId) fun _ _ _ => ?_
  rw [h.id]
  refine .bind (mirrors_getBindingById _ _) fun _ _ hfound => ?_
  refine .bind (.orRaise hfound) fun _ _ _ => ?_
  refine .update fun c d hcd => ?_
  rw [← h.id]
  exact ⟨hcd.tools, hcd.versions, hcd.bindings.replace ToolBinding.renames_alike h, hcd.upstreams,
    hcd.operations, hcd.jobs⟩

theorem mirrors_saveTool (tenantId : Id) {t u : Tool} (h : t.Alike ρ u) :
    CatalogM.Mirrors ρ (fun _ _ => True) (saveTool tenantId t) (saveTool tenantId u) := by
  have hid : u.val.id = ρ.tool t.val.id := h.field (·.id)
  unfold saveTool
  refine .bind (mirrors_requireMatchingTenant (h.field (·.tenantId))) fun _ _ _ => ?_
  rw [hid]
  refine .bind (mirrors_getToolForUpdate _ _) fun _ _ hfound => ?_
  refine .bind (.orRaise hfound) fun _ _ _ => ?_
  refine .update fun c d hcd => ?_
  rw [← hid]
  exact ⟨hcd.tools.replace Tool.renames_alike h, hcd.versions, hcd.bindings, hcd.upstreams,
    hcd.operations, hcd.jobs⟩

theorem mirrors_saveOperation (tenantId : Id) {o p : ImportedOperation} (h : o.Alike ρ p) :
    CatalogM.Mirrors ρ (fun _ _ => True) (saveOperation tenantId o) (saveOperation tenantId p) := by
  have hid : p.id = o.id := ImportedOperation.renames_alike.key o p h
  have htenant : p.tenantId = o.tenantId := by
    rw [h]
    exact ImportedOperation.renamed_field (·.tenantId) fun _ _ => rfl
  unfold saveOperation
  refine .bind (mirrors_requireMatchingTenant htenant) fun _ _ _ => ?_
  rw [hid]
  refine .bind (mirrors_getOperationForUpdate _ _) fun _ _ hfound => ?_
  refine .bind (.orRaise hfound) fun _ _ _ => ?_
  refine .update fun c d hcd => ?_
  have hoperations := hcd.operations.replace ImportedOperation.renames_alike h
  rw [hid] at hoperations
  exact ⟨hcd.tools, hcd.versions, hcd.bindings, hcd.upstreams, hoperations, hcd.jobs⟩

theorem mirrors_requireFreshKey {ν : Type} {key : ν → Id} {R : ν → ν → Prop} {σ : Id → Id}
    (hσ : Table.Renames R key key σ) {table : CatalogTables → Table key}
    (h : ∀ c d : CatalogTables, c.toCatalogRows.Alike ρ d.toCatalogRows →
      (table c).Related R (table d)) (id : Id) :
    CatalogM.Mirrors ρ (fun _ _ => True) (requireFreshKey table id)
      (requireFreshKey table (σ id)) := by
  unfold requireFreshKey
  refine .bind (.read h) fun t t' htt' => ?_
  exact .raiseIf (mt (htt'.find?_eq_none_iff hσ).2)

theorem mirrors_addTool (tenantId : Id) {t u : Tool} (h : t.Alike ρ u) :
    CatalogM.Mirrors ρ (fun _ _ => True) (addTool tenantId t) (addTool tenantId u) := by
  have hid : u.val.id = ρ.tool t.val.id := h.field (·.id)
  unfold addTool
  refine .bind (mirrors_requireMatchingTenant (h.field (·.tenantId))) fun _ _ _ => ?_
  rw [hid]
  refine .bind (mirrors_requireFreshKey Tool.renames_alike (fun _ _ hcd => hcd.tools) _)
    fun _ _ _ => ?_
  refine .update fun c d hcd => ?_
  exact ⟨hcd.tools.insert Tool.renames_alike h, hcd.versions, hcd.bindings, hcd.upstreams,
    hcd.operations, hcd.jobs⟩

theorem mirrors_addVersion (tenantId : Id) {v w : ToolVersion} (h : v.Alike ρ w) :
    CatalogM.Mirrors ρ (fun _ _ => True) (addVersion tenantId v) (addVersion tenantId w) := by
  unfold addVersion
  refine .bind (mirrors_requireMatchingTenant h.tenantId) fun _ _ _ => ?_
  rw [h.id, h.toolId]
  refine .bind (mirrors_getToolForUpdate _ _) fun _ _ hfound => ?_
  refine .bind (.orRaise hfound) fun _ _ _ => ?_
  refine .bind (mirrors_requireFreshKey ToolVersion.renames_alike (fun _ _ hcd => hcd.versions) _)
    fun _ _ _ => ?_
  refine .update fun c d hcd => ?_
  exact ⟨hcd.tools, hcd.versions.insert ToolVersion.renames_alike h, hcd.bindings, hcd.upstreams,
    hcd.operations, hcd.jobs⟩

theorem mirrors_addBinding (tenantId : Id) {b d : ToolBinding} (h : b.Alike ρ d) :
    CatalogM.Mirrors ρ (fun _ _ => True) (addBinding tenantId b) (addBinding tenantId d) := by
  unfold addBinding
  refine .bind (mirrors_requireMatchingTenant h.tenantId) fun _ _ _ => ?_
  rw [h.id]
  refine .bind (mirrors_requireFreshKey ToolBinding.renames_alike (fun _ _ hcd => hcd.bindings) _)
    fun _ _ _ => ?_
  refine .update fun c d hcd => ?_
  exact ⟨hcd.tools, hcd.versions, hcd.bindings.insert ToolBinding.renames_alike h, hcd.upstreams,
    hcd.operations, hcd.jobs⟩

end Repository

/-! ## Publishing -/

section Publishing

variable [Sha256] {ρ : Renaming}

/-- The command for the renamed tool and version. -/
def PublishToolCommand.renamed (ρ : Renaming) (command : PublishToolCommand) : PublishToolCommand :=
  { command with
    toolId := ρ.tool command.toolId
    toolVersionId := ρ.version command.toolVersionId }

theorem validatePublishSnapshot_of_snapshot {command : PublishToolCommand} {tool : Tool}
    {version : ToolVersion} {binding : ToolBinding} {upstream : UpstreamService}
    (h : PublishSnapshot command tool version binding upstream) :
    PublishTool.validatePublishSnapshot command tool version binding upstream = .ok () := by
  simp only [PublishTool.validatePublishSnapshot, bind_eq_ok, raiseIf_eq_ok, exists_const, not_or,
    not_not, ne_eq, not_exists, not_and]
  exact ⟨h.tenants, ⟨h.toolId, h.toolVersionId⟩, h.reviewed, h.draft, h.active, _, h.schemaDigest,
    ⟨rfl, h.expectedSchemaDigest⟩, _, h.bindingDigest, rfl, h.expectedBindingDigest⟩

theorem PublishSnapshot.renamed {command : PublishToolCommand} {tool tool' : Tool}
    {version version' : ToolVersion} {binding binding' : ToolBinding} {upstream : UpstreamService}
    (h : PublishSnapshot command tool version binding upstream) (htool : tool.Alike ρ tool')
    (hversion : version.Alike ρ version') (hbinding : binding.Alike ρ binding') :
    PublishSnapshot (command.renamed ρ) tool' version' binding' upstream where
  tenants := by
    have htenant : tool'.val.tenantId = tool.val.tenantId := htool.field (·.tenantId)
    rw [htenant, hversion.tenantId, hbinding.tenantId]
    exact h.tenants
  toolId := by
    have hid : tool'.val.id = ρ.tool tool.val.id := htool.field (·.id)
    rw [hversion.toolId, hid, h.toolId]
  toolVersionId := by rw [hbinding.toolVersionId, hversion.id, h.toolVersionId]
  reviewed := hversion.status.trans h.reviewed
  draft := hbinding.status.trans h.draft
  active := h.active
  schemaDigest := by
    have hdigest : version'.val.schemaDigest = version.val.schemaDigest :=
      hversion.field (·.schemaDigest)
    have hcalculate : calculateSchemaDigest version'.val.inputSchema version'.val.outputSchema =
        calculateSchemaDigest version.val.inputSchema version.val.outputSchema :=
      hversion.field fun f => calculateSchemaDigest f.inputSchema f.outputSchema
    rw [hdigest, hcalculate]
    exact h.schemaDigest
  expectedSchemaDigest := h.expectedSchemaDigest.trans (hversion.field (·.schemaDigest)).symm
  bindingDigest := by
    have hdigest : binding'.val.bindingDigest = binding.val.bindingDigest :=
      hbinding.field (·.bindingDigest)
    have hcalculate : calculateBindingDigest binding'.val = calculateBindingDigest binding.val :=
      hbinding.field calculateBindingDigest
    rw [hdigest, hcalculate]
    exact h.bindingDigest
  expectedBindingDigest := h.expectedBindingDigest.trans (hbinding.field (·.bindingDigest)).symm

omit [Sha256] in
theorem mirrors_retireVersion (tenantId : Id) {current current' target target' : ToolVersion}
    (hcurrent : current.Alike ρ current') (htarget : target.Alike ρ target')
    (retiredAt retiredAt' : Time) :
    CatalogM.Mirrors ρ (fun _ _ => True)
      (PublishTool.retireVersion tenantId current target retiredAt)
      (PublishTool.retireVersion tenantId current' target' retiredAt') := by
  unfold PublishTool.retireVersion
  rw [hcurrent.version, htarget.version, hcurrent.id]
  refine .bind (.raiseIf fun h => h) fun _ _ _ => ?_
  refine .bind (mirrors_getVersionForUpdate _ _) fun found found' hfound => ?_
  have hlocked : Option.Rel (ToolVersion.Alike ρ) (found.filter (·.val.status = .published))
      (found'.filter (·.val.status = .published)) := by
    cases hfound with
    | none => exact .none
    | some hvw =>
      rw [Option.filter_some, Option.filter_some, hvw.status]
      split
      · exact .some hvw
      · exact .none
  refine .bind (.orRaise hlocked) fun locked locked' hlocked => ?_
  rw [hlocked.id]
  refine .bind (mirrors_getBindingByToolVersionForUpdate _ _) fun _ _ hfound => ?_
  refine .bind (.orRaise hfound) fun binding binding' hbinding => ?_
  rw [hbinding.status]
  refine .bind (.raiseIf fun h => h) fun _ _ _ => ?_
  refine .bind (.lift fun w hw => hlocked.retire hw retiredAt') fun w w' hw => ?_
  refine .bind (mirrors_saveVersion tenantId hw) fun _ _ _ => ?_
  refine .bind (.lift fun d hd => hbinding.disable hd) fun d d' hd => ?_
  refine .bind (mirrors_saveBinding tenantId hd) fun _ _ _ => ?_
  exact .pure trivial

omit [Sha256] in
theorem mirrors_retireCurrentVersion (tenantId : Id) {tool tool' : Tool}
    {target target' : ToolVersion} (htool : tool.Alike ρ tool') (htarget : target.Alike ρ target')
    (retiredAt retiredAt' : Time) :
    CatalogM.Mirrors ρ (fun _ _ => True)
      (PublishTool.retireCurrentVersion tenantId tool target retiredAt)
      (PublishTool.retireCurrentVersion tenantId tool' target' retiredAt') := by
  have hid : tool'.val.id = ρ.tool tool.val.id := htool.field (·.id)
  unfold PublishTool.retireCurrentVersion
  rw [hid]
  refine .bind (mirrors_getPublishedVersion _ _) fun found found' hfound => ?_
  cases hfound with
  | none => exact .pure trivial
  | some hcurrent =>
    refine .bind (mirrors_retireVersion tenantId hcurrent htarget _ retiredAt') fun _ _ _ => ?_
    exact .pure trivial

/-- The publication of the renamed version follows that of the version, at any other time. -/
theorem mirrors_publishToolInTransaction (command : PublishToolCommand)
    (publishedAt publishedAt' : Time) :
    CatalogM.Mirrors ρ (fun _ _ => True) (publishToolInTransaction command publishedAt)
      (publishToolInTransaction (command.renamed ρ) publishedAt') := by
  unfold publishToolInTransaction
  dsimp only [PublishToolCommand.renamed]
  refine .bind (mirrors_getToolForUpdate _ _) fun _ _ hfound => ?_
  refine .bind (.orRaise hfound) fun tool tool' htool => ?_
  refine .bind (mirrors_getVersionForUpdate _ _) fun _ _ hfound => ?_
  refine .bind (.orRaise hfound) fun version version' hversion => ?_
  rw [hversion.id]
  refine .bind (mirrors_getBindingByToolVersionForUpdate _ _) fun _ _ hfound => ?_
  refine .bind (.orRaise hfound) fun binding binding' hbinding => ?_
  rw [hbinding.upstreamServiceId]
  refine .bind (mirrors_getUpstreamForUpdate _ _) fun _ _ hfound => ?_
  refine .bind (.orRaise hfound) fun upstream upstream' hupstream => ?_
  subst hupstream
  refine .bind (Q := fun _ _ => True) (.lift fun u hu => ⟨(), ?_, trivial⟩) fun _ _ _ => ?_
  · exact validatePublishSnapshot_of_snapshot
      ((validatePublishSnapshot_eq_ok hu).renamed htool hversion hbinding)
  refine .bind (mirrors_retireCurrentVersion _ htool hversion _ publishedAt') fun _ _ _ => ?_
  refine .bind (.lift fun w hw => hversion.publish hw publishedAt') fun w w' hw => ?_
  refine .bind (mirrors_saveVersion _ hw) fun _ _ _ => ?_
  refine .bind (.lift fun d hd => hbinding.publish hd publishedAt') fun d d' hd => ?_
  refine .bind (mirrors_saveBinding _ hd) fun _ _ _ => ?_
  refine .bind (.lift fun t ht => htool.activate ht) fun t t' ht => ?_
  refine .bind (mirrors_saveTool _ ht) fun _ _ _ => ?_
  exact .pure trivial

end Publishing

end NexusMcp
