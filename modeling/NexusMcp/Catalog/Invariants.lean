-- SUMMARY: What holds of the catalogue in every reachable state, and the order of publications.
import NexusMcp.Catalog.Commands
import Mathlib.Data.List.Perm.Basic

/-!
# Catalogue Invariants

Each effect keeps the whole conjunction. Most of it is about fields that a lifecycle does
not change; the statuses of a version and its binding move together.
-/

namespace NexusMcp

open Net (Unicode)
open Txn (SerialWorld Table)
open Relation (ReflTransGen)

/-! ## The invariant -/

namespace CatalogTables

/-- A version has a binding, and their statuses correspond. -/
def Paired (c : CatalogTables) : Prop :=
  ∀ v ∈ c.versions, ∃ b ∈ c.bindings, b.val.toolVersionId = v.val.id ∧
    b.val.tenantId = v.val.tenantId ∧ b.val.status = v.val.status.ofBinding

def Owned (c : CatalogTables) : Prop :=
  ∀ b ∈ c.bindings, ∃ v ∈ c.versions, v.val.id = b.val.toolVersionId

def Upstreamed (c : CatalogTables) : Prop :=
  ∀ b ∈ c.bindings, ∃ u ∈ c.upstreams, u.val.id = b.val.upstreamServiceId ∧
    u.val.tenantId = b.val.tenantId

def Tooled (c : CatalogTables) : Prop :=
  ∀ v ∈ c.versions, ∃ t ∈ c.tools, t.val.id = v.val.toolId ∧ t.val.tenantId = v.val.tenantId

/-- A tool is active exactly when a version of it is published. -/
def ActiveIffPublished (c : CatalogTables) : Prop :=
  ∀ t ∈ c.tools, t.val.status = .active ↔
    ∃ v ∈ c.versions, v.val.toolId = t.val.id ∧ v.val.status = .published

def SchemaDigests [Sha256] (c : CatalogTables) : Prop :=
  ∀ v ∈ c.versions,
    calculateSchemaDigest v.val.inputSchema v.val.outputSchema = .ok v.val.schemaDigest

def BindingDigests [Sha256] (c : CatalogTables) : Prop :=
  ∀ b ∈ c.bindings, calculateBindingDigest b.val = .ok b.val.bindingDigest

/-- The numbers of the versions of a tool. -/
def numbersOf (c : CatalogTables) (toolId : Id) : List Nat :=
  ((c.versions.rows.map ToolVersion.identity).filter (·.toolId = toolId)).map (·.version)

/-- The version numbers of a tool are `1..n`. -/
def Numbered (c : CatalogTables) : Prop :=
  ∀ toolId, (c.numbersOf toolId).Perm (List.range' 1 (c.numbersOf toolId).length)

end CatalogTables

structure CatalogInvariant [Sha256] (c : CatalogTables) : Prop where
  paired : c.Paired
  owned : c.Owned
  upstreamed : c.Upstreamed
  tooled : c.Tooled
  active : c.ActiveIffPublished
  schemaDigests : c.SchemaDigests
  bindingDigests : c.BindingDigests
  numbered : c.Numbered

/-! ## Fields that a lifecycle does not change -/

/-- The rows of the tables are the same up to their lifecycles. -/
structure SameIdentities (c c' : CatalogTables) : Prop where
  tools : c'.tools.rows.map Tool.identity = c.tools.rows.map Tool.identity
  versions : c'.versions.rows.map ToolVersion.identity = c.versions.rows.map ToolVersion.identity
  bindings : c'.bindings.rows.map ToolBinding.identity = c.bindings.rows.map ToolBinding.identity
  upstreams : c'.upstreams = c.upstreams

theorem SameIdentities.trans {c c' c'' : CatalogTables} (h : SameIdentities c c')
    (h' : SameIdentities c' c'') : SameIdentities c c'' :=
  ⟨h'.tools.trans h.tools, h'.versions.trans h.versions, h'.bindings.trans h.bindings,
    h'.upstreams.trans h.upstreams⟩

theorem exists_of_map_eq {α β : Type} {f : α → β} {l l' : List α} (h : l'.map f = l.map f) {a : α}
    (ha : a ∈ l') : ∃ b ∈ l, f b = f a := by
  have hmem : f a ∈ l.map f := h ▸ List.mem_map_of_mem ha
  exact List.mem_map.1 hmem

section Identities

variable {c c' : CatalogTables} (h : SameIdentities c c')
include h

theorem SameIdentities.numbersOf (toolId : Id) : c'.numbersOf toolId = c.numbersOf toolId := by
  unfold CatalogTables.numbersOf
  rw [h.versions]

theorem SameIdentities.numbered (hnumbered : c.Numbered) : c'.Numbered := by
  intro toolId
  rw [h.numbersOf]
  exact hnumbered toolId

theorem SameIdentities.owned (howned : c.Owned) : c'.Owned := by
  intro b hb
  obtain ⟨b₀, hb₀, hbb⟩ := exists_of_map_eq h.bindings hb
  obtain ⟨v₀, hv₀, hid⟩ := howned b₀ hb₀
  obtain ⟨v, hv, hvv⟩ := exists_of_map_eq h.versions.symm hv₀
  refine ⟨v, hv, ?_⟩
  rw [(ToolVersion.id_of_identity hvv).1, hid, (ToolBinding.id_of_identity hbb).2.2.1]

theorem SameIdentities.upstreamed (hup : c.Upstreamed) : c'.Upstreamed := by
  intro b hb
  obtain ⟨b₀, hb₀, hbb⟩ := exists_of_map_eq h.bindings hb
  obtain ⟨-, htenant, -, hupstream⟩ := ToolBinding.id_of_identity hbb
  obtain ⟨u, hu, hid, hutenant⟩ := hup b₀ hb₀
  rw [h.upstreams]
  exact ⟨u, hu, hid.trans hupstream, hutenant.trans htenant⟩

theorem SameIdentities.tooled (htooled : c.Tooled) : c'.Tooled := by
  intro v hv
  obtain ⟨v₀, hv₀, hvv⟩ := exists_of_map_eq h.versions hv
  obtain ⟨-, htenant, htool, -⟩ := ToolVersion.id_of_identity hvv
  obtain ⟨t₀, ht₀, hid, ht₀tenant⟩ := htooled v₀ hv₀
  obtain ⟨t, ht, htt⟩ := exists_of_map_eq h.tools.symm ht₀
  obtain ⟨htid, httenant⟩ := Tool.id_of_identity htt
  exact ⟨t, ht, htid.trans (hid.trans htool), httenant.trans (ht₀tenant.trans htenant)⟩

theorem SameIdentities.schemaDigests [Sha256] (hdigests : c.SchemaDigests) :
    c'.SchemaDigests := by
  intro v hv
  obtain ⟨v₀, hv₀, hvv⟩ := exists_of_map_eq h.versions hv
  have hfield {β : Type} (f : ToolVersionFields → β) : f v₀.identity = f v.identity :=
    congrArg f hvv
  have hinput : v₀.val.inputSchema = v.val.inputSchema := hfield (·.inputSchema)
  have houtput : v₀.val.outputSchema = v.val.outputSchema := hfield (·.outputSchema)
  have hdigest : v₀.val.schemaDigest = v.val.schemaDigest := hfield (·.schemaDigest)
  rw [← hinput, ← houtput, ← hdigest]
  exact hdigests v₀ hv₀

theorem SameIdentities.bindingDigests [Sha256] (hdigests : c.BindingDigests) :
    c'.BindingDigests := by
  intro b hb
  obtain ⟨b₀, hb₀, hbb⟩ := exists_of_map_eq h.bindings hb
  have hfield {β : Type} (f : ToolBindingFields → β) : f b₀.identity = f b.identity :=
    congrArg f hbb
  have hdigest : b₀.val.bindingDigest = b.val.bindingDigest := hfield (·.bindingDigest)
  have hcalculate : calculateBindingDigest b₀.val = calculateBindingDigest b.val :=
    hfield calculateBindingDigest
  rw [← hdigest, ← hcalculate]
  exact hdigests b₀ hb₀

end Identities

/-! ## Moves -/

section Moves

variable {c c' : CatalogTables} {v w : ToolVersion} {b d : ToolBinding}

theorem Moved.sameIdentities (h : Moved c c' v w b d) : SameIdentities c c' := by
  constructor
  · rw [h.tools]
  · rw [h.versions]
    exact map_replaceRow h.version (ToolVersion.id_of_identity h.versionIdentity).1.symm
      h.versionIdentity
  · rw [h.bindings]
    exact map_replaceRow h.binding (ToolBinding.id_of_identity h.bindingIdentity).1.symm
      h.bindingIdentity
  · exact h.upstreams

theorem Moved.mem_versions (h : Moved c c' v w b d) {x : ToolVersion} :
    x ∈ c'.versions ↔ (x ∈ c.versions ∧ x.val.id ≠ v.val.id) ∨ x = w := by
  have hid := (ToolVersion.id_of_identity h.versionIdentity).1
  rw [h.versions, mem_replaceRow h.version hid.symm, hid]

theorem Moved.mem_bindings (h : Moved c c' v w b d) {x : ToolBinding} :
    x ∈ c'.bindings ↔ (x ∈ c.bindings ∧ x.val.id ≠ b.val.id) ∨ x = d := by
  have hid := (ToolBinding.id_of_identity h.bindingIdentity).1
  rw [h.bindings, mem_replaceRow h.binding hid.symm, hid]

/-- The statuses of versions and bindings still correspond after a move. -/
theorem Moved.keepsPaired (h : Moved c c' v w b d) (hpaired : c.Paired) : c'.Paired := by
  obtain ⟨hwid, hwtenant, -, -⟩ := ToolVersion.id_of_identity h.versionIdentity
  obtain ⟨hdid, hdtenant, hdversion, -⟩ := ToolBinding.id_of_identity h.bindingIdentity
  intro x hx
  rcases h.mem_versions.1 hx with ⟨hx, hne⟩ | rfl
  · obtain ⟨y, hy, hversion, htenant, hstatus⟩ := hpaired x hx
    refine ⟨y, h.mem_bindings.2 (.inl ⟨hy, ?_⟩), hversion, htenant, hstatus⟩
    intro hkey
    have hsame := Table.eq_of_key_eq hy h.binding hkey
    exact hne (hversion.symm.trans (hsame ▸ h.paired))
  · obtain ⟨y, hy, hversion, htenant, -⟩ := hpaired v h.version
    have hsame : y = b := c.binding_eq_of_version hy h.binding (hversion.trans h.paired.symm)
    refine ⟨d, h.mem_bindings.2 (.inr rfl), ?_, ?_, h.status⟩
    · rw [hdversion, h.paired, hwid]
    · rw [hdtenant, hwtenant, ← hsame, htenant]

end Moves

/-! ## Retirement and publication -/

section Publishing

variable {c c' : CatalogTables} {tenantId : Id} {tool : Tool} {target : ToolVersion}

theorem Retirement.sameIdentities (h : Retirement c c' tenantId tool target) :
    SameIdentities c c' := by
  cases h with
  | first _ heq =>
    subst heq
    exact ⟨rfl, rfl, rfl, rfl⟩
  | retired _ _ _ _ hmoved => exact hmoved.sameIdentities

theorem Retirement.keepsPaired (h : Retirement c c' tenantId tool target) (hpaired : c.Paired) :
    c'.Paired := by
  cases h with
  | first _ heq =>
    subst heq
    exact hpaired
  | retired _ _ _ _ hmoved => exact hmoved.keepsPaired hpaired

/-- A version after a retirement was there before, or it is the retired one. -/
theorem Retirement.of_mem_versions (h : Retirement c c' tenantId tool target) {x : ToolVersion}
    (hx : x ∈ c'.versions) : x ∈ c.versions ∨ x.val.status = .retired := by
  cases h with
  | first _ heq =>
    subst heq
    exact .inl hx
  | retired _ _ hstatus _ hmoved =>
    rcases hmoved.mem_versions.1 hx with ⟨hx, -⟩ | rfl
    · exact .inl hx
    · exact .inr hstatus

/-- A binding that is published after a retirement was there before. -/
theorem Retirement.of_mem_bindings (h : Retirement c c' tenantId tool target) {b : ToolBinding}
    (hb : b ∈ c'.bindings) (hpublished : b.val.status = .published) : b ∈ c.bindings := by
  cases h with
  | first _ heq => rwa [← heq]
  | retired _ _ hstatus _ hmoved =>
    rcases hmoved.mem_bindings.1 hb with ⟨hb, -⟩ | rfl
    · exact hb
    · rw [hmoved.status, hstatus] at hpublished
      cases hpublished

/-- The versions of the other tools are not retired. -/
theorem Retirement.mem_versions_of_ne (h : Retirement c c' tenantId tool target) {x : ToolVersion}
    (hx : x ∈ c.versions) (htool : x.val.toolId ≠ tool.val.id) : x ∈ c'.versions := by
  cases h with
  | first _ heq =>
    subst heq
    exact hx
  | retired hcurrent _ _ _ hmoved =>
    obtain ⟨hmem, -, hcurrentTool, -⟩ := mem_of_publishedOf hcurrent
    refine hmoved.mem_versions.2 (.inl ⟨hx, ?_⟩)
    intro hkey
    exact htool (Table.eq_of_key_eq hx hmem hkey ▸ hcurrentTool)

/-- The version that is published after a publication, which is the only one of its tool. -/
structure Republished [Sha256] (c c' : CatalogTables) (tool tool' : Tool)
    (version w : ToolVersion) : Prop where
  same : SameIdentities c c'
  keepsPaired : c.Paired → c'.Paired
  toolMem : tool ∈ c.tools
  tools : c'.tools = replaceRow c.tools tool'
  toolIdentity : tool'.identity = tool.identity
  activated : tool'.val.status = .active
  versionMem : version ∈ c.versions
  versionTool : version.val.toolId = tool.val.id
  versionTenant : version.val.tenantId = tool.val.tenantId
  reviewed : version.val.status = .review
  identity : w.identity = version.identity
  published : w.val.status = .published
  mem : w ∈ c'.versions
  of_mem : ∀ x ∈ c'.versions, x = w ∨ x ∈ c.versions ∨ x.val.status = .retired
  others : ∀ x ∈ c.versions, x.val.toolId ≠ tool.val.id → x ∈ c'.versions
  newer : ∀ x ∈ c.versions, x.val.tenantId = tool.val.tenantId → x.val.toolId = tool.val.id →
    x.val.status = .published → x.val.version < version.val.version

theorem Publication.republished [Sha256] {command : PublishToolCommand} {version : ToolVersion}
    {binding : ToolBinding} {upstream : UpstreamService}
    (h : Publication c c' command tool version binding upstream) :
    ∃ tool' w, Republished c c' tool tool' version w := by
  obtain ⟨c₁, c₂, w, d, tool', hretired, hmoved, hpublished, hactive, hidentity, hrows⟩ := h.steps
  have htenants := h.snapshot.tenants
  have htenant : tool.val.tenantId = command.context.tenantId := htenants _ (by simp)
  -- Three changes one after the other: the current version is retired, the reviewed one is
  -- published, and the tool is saved.
  have htools₁ := hretired.mem.1
  have htools : c'.tools = replaceRow c.tools tool' := by
    rw [hrows]
    dsimp only
    rw [hmoved.tools, htools₁]
  have hversions : c'.versions = c₂.versions := by rw [hrows]
  have hbindings : c'.bindings = c₂.bindings := by rw [hrows]
  have hsame : SameIdentities c₂ c' := by
    constructor
    · rw [htools, hmoved.tools, htools₁]
      exact map_replaceRow h.toolMem (Tool.id_of_identity hidentity).1.symm hidentity
    · rw [hversions]
    · rw [hbindings]
    · rw [hrows]
  refine ⟨tool', w, ?_⟩
  constructor
  · exact (hretired.sameIdentities.trans hmoved.sameIdentities).trans hsame
  · intro hpaired
    have hpaired₂ := hmoved.keepsPaired (hretired.keepsPaired hpaired)
    unfold CatalogTables.Paired
    rwa [hversions, hbindings]
  · exact h.toolMem
  · exact htools
  · exact hidentity
  · exact hactive
  · exact h.versionMem
  · exact h.snapshot.toolId
  · rw [htenant]
    exact htenants _ (by simp)
  · exact h.snapshot.reviewed
  · exact hmoved.versionIdentity
  · exact hpublished
  · rw [hversions]
    exact hmoved.mem_versions.2 (.inr rfl)
  · intro x hx
    rw [hversions] at hx
    rcases hmoved.mem_versions.1 hx with ⟨hx, -⟩ | rfl
    · exact .inr (hretired.of_mem_versions hx)
    · exact .inl rfl
  · intro x hx hne
    rw [hversions]
    refine hmoved.mem_versions.2 (.inl ⟨hretired.mem_versions_of_ne hx hne, ?_⟩)
    intro hkey
    exact hne (Table.eq_of_key_eq hx h.versionMem hkey ▸ h.snapshot.toolId)
  · intro x hx hxtenant hxtool hxpublished
    cases hretired with
    -- No version was published before.
    | first hnone _ =>
      exact absurd hxpublished
        (not_published_of_publishedOf hnone hx (hxtenant.trans htenant) hxtool)
    | retired hcurrent hnewer _ _ _ =>
      obtain ⟨hmem, -, hcurrentTool, hcurrentPublished⟩ := mem_of_publishedOf hcurrent
      rw [c.version_eq_of_published hx hmem hxpublished hcurrentPublished
        (hxtool.trans hcurrentTool.symm)]
      exact hnewer

end Publishing

/-! ## Numbers -/

theorem foldr_max_init (l : List Nat) (a : Nat) : l.foldr max a = max (l.foldr max 0) a := by
  induction l with
  | nil => simp
  | cons x l ih => rw [List.foldr_cons, List.foldr_cons, ih, max_assoc]

theorem foldr_max_range' (n : Nat) : (List.range' 1 n).foldr max 0 = n := by
  induction n with
  | zero => rfl
  | succ n ih =>
    rw [List.range'_1_concat, List.foldr_append, foldr_max_init, ih]
    simp only [List.foldr_cons, List.foldr_nil]
    omega

/-- The greatest of the numbers `1..n` is `n`. -/
theorem foldr_max_of_perm {l : List Nat} {n : Nat} (h : l.Perm (List.range' 1 n)) :
    l.foldr max 0 = n := by
  rw [h.foldr_eq, foldr_max_range']

/-- Where the versions of a tool are all in its tenant, the query of the next number sees all
    of them. -/
theorem versionNumbers_eq {c : CatalogTables} {tenantId toolId : Id}
    (h : ∀ v ∈ c.versions, v.val.toolId = toolId → v.val.tenantId = tenantId) :
    versionNumbers c tenantId toolId = c.numbersOf toolId := by
  unfold versionNumbers CatalogTables.numbersOf
  rw [List.filter_map, List.map_map]
  have hfilter : c.versions.rows.filter (fun v =>
      decide (v.val.tenantId = tenantId ∧ v.val.toolId = toolId)) =
      c.versions.rows.filter ((fun v => decide (v.toolId = toolId)) ∘ ToolVersion.identity) := by
    apply List.filter_congr
    intro v hv
    have htenant := h v hv
    have htool : (ToolVersion.identity v).toolId = v.val.toolId := rfl
    rw [Function.comp_apply, decide_eq_decide, htool]
    exact ⟨fun hboth => hboth.2, fun hid => ⟨htenant hid, hid⟩⟩
  rw [hfilter]
  rfl

/-! ## Drafting -/

section Drafting

variable [Sha256] {c c' : CatalogTables} {command : ReviewImportedOperationCommand}
  {operation accepted : ImportedOperation} {upstream : UpstreamService} {tool : Tool}
  {version : ToolVersion} {binding : ToolBinding}

theorem Drafting.mem_versions
    (h : Drafting c c' command operation accepted upstream tool version binding)
    {x : ToolVersion} : x ∈ c'.versions ↔ x ∈ c.versions ∨ x = version := by
  rw [h.versions, Table.mem_insert h.newVersion]

theorem Drafting.mem_bindings
    (h : Drafting c c' command operation accepted upstream tool version binding)
    {x : ToolBinding} : x ∈ c'.bindings ↔ x ∈ c.bindings ∨ x = binding := by
  rw [h.bindings, Table.mem_insert h.newBinding]

/-- The tool of the draft is there, and so are the tools from before; a new tool is disabled and
    had no version. -/
theorem Drafting.mem_tools
    (h : Drafting c c' command operation accepted upstream tool version binding) :
    tool ∈ c'.tools ∧ (∀ t ∈ c.tools, t ∈ c'.tools) ∧
      ∀ t ∈ c'.tools, t ∈ c.tools ∨
        (t = tool ∧ t.val.status = .disabled ∧ c.tools.find? t.val.id = none) := by
  rcases h.tools with ⟨hmem, heq⟩ | ⟨hfresh, hdisabled, heq⟩
  · rw [heq]
    exact ⟨hmem, fun t ht => ht, fun t ht => .inl ht⟩
  · rw [heq]
    refine ⟨(Table.mem_insert hfresh).2 (.inr rfl), fun t ht => (Table.mem_insert hfresh).2 (.inl ht),
      ?_⟩
    intro t ht
    rcases (Table.mem_insert hfresh).1 ht with ht | rfl
    · exact .inl ht
    · exact .inr ⟨rfl, hdisabled, hfresh⟩

/-- The versions of the tool are in the tenant of the command. -/
theorem Drafting.tenant_of_tool (hinv : CatalogInvariant c)
    (h : Drafting c c' command operation accepted upstream tool version binding) :
    ∀ v ∈ c.versions, v.val.toolId = tool.val.id → v.val.tenantId = command.context.tenantId := by
  intro v hv htool
  obtain ⟨t, ht, hid, htenant⟩ := hinv.tooled v hv
  rcases h.tools with ⟨hmem, -⟩ | ⟨hfresh, -, -⟩
  · rw [← htenant, Table.eq_of_key_eq ht hmem (hid.trans htool), h.toolTenant]
  · exact absurd (hid.trans htool) (Table.find?_eq_none.1 hfresh t ht)

theorem Drafting.numbersOf
    (h : Drafting c c' command operation accepted upstream tool version binding) (toolId : Id) :
    c'.numbersOf toolId = c.numbersOf toolId ++
      if version.val.toolId = toolId then [version.val.version] else [] := by
  unfold CatalogTables.numbersOf
  rw [h.versions, Table.rows_insert h.newVersion, List.map_append, List.filter_append,
    List.map_append]
  have htool : (ToolVersion.identity version).toolId = version.val.toolId := rfl
  by_cases heq : version.val.toolId = toolId
  · simp [heq, ToolVersion.identity]
  · simp [htool, heq]

theorem Drafting.numbered (hinv : CatalogInvariant c)
    (h : Drafting c c' command operation accepted upstream tool version binding) :
    c'.Numbered := by
  intro toolId
  have hperm := hinv.numbered toolId
  rw [h.numbersOf]
  split_ifs with heq
  · have htool : toolId = tool.val.id := heq.symm.trans h.drafts.versionTool
    have hnumber := h.drafts.number
    rw [versionNumbers_eq (h.tenant_of_tool hinv), ← htool, foldr_max_of_perm hperm] at hnumber
    rw [hnumber, List.length_append, List.length_singleton, List.range'_1_concat, Nat.add_comm 1]
    exact hperm.append_right _
  · rw [List.append_nil]
    exact hperm

theorem Drafting.invariant (hinv : CatalogInvariant c)
    (h : Drafting c c' command operation accepted upstream tool version binding) :
    CatalogInvariant c' := by
  obtain ⟨htoolMem, htoolsKept, htoolsNew⟩ := h.mem_tools
  constructor
  · intro v hv
    rcases h.mem_versions.1 hv with hv | rfl
    · obtain ⟨b, hb, hparts⟩ := hinv.paired v hv
      exact ⟨b, h.mem_bindings.2 (.inl hb), hparts⟩
    · refine ⟨binding, h.mem_bindings.2 (.inr rfl), h.drafts.bindingVersion, ?_, ?_⟩
      · rw [h.drafts.bindingTenant, h.drafts.versionTenant, h.operationTenant]
      · rw [h.drafts.bindingDraft, h.drafts.versionDraft, ToolVersionStatus.ofBinding]
  · intro b hb
    rcases h.mem_bindings.1 hb with hb | rfl
    · obtain ⟨v, hv, hid⟩ := hinv.owned b hb
      exact ⟨v, h.mem_versions.2 (.inl hv), hid⟩
    · exact ⟨version, h.mem_versions.2 (.inr rfl), h.drafts.bindingVersion.symm⟩
  · intro b hb
    rw [h.upstreams]
    rcases h.mem_bindings.1 hb with hb | rfl
    · exact hinv.upstreamed b hb
    · refine ⟨upstream, h.upstreamMem, ?_, ?_⟩
      · rw [h.drafts.bindingUpstream, h.upstreamId]
      · rw [h.drafts.bindingTenant, h.upstreamTenant, h.operationTenant]
  · intro v hv
    rcases h.mem_versions.1 hv with hv | rfl
    · obtain ⟨t, ht, hparts⟩ := hinv.tooled v hv
      exact ⟨t, htoolsKept t ht, hparts⟩
    · exact ⟨tool, htoolMem, h.drafts.versionTool.symm,
        h.toolTenant.trans h.drafts.versionTenant.symm⟩
  · intro t ht
    have hsame : (∃ v ∈ c'.versions, v.val.toolId = t.val.id ∧ v.val.status = .published) ↔
        ∃ v ∈ c.versions, v.val.toolId = t.val.id ∧ v.val.status = .published := by
      constructor
      · rintro ⟨v, hv, hid, hpublished⟩
        rcases h.mem_versions.1 hv with hv | rfl
        · exact ⟨v, hv, hid, hpublished⟩
        · rw [h.drafts.versionDraft] at hpublished
          cases hpublished
      · rintro ⟨v, hv, hparts⟩
        exact ⟨v, h.mem_versions.2 (.inl hv), hparts⟩
    rw [hsame]
    rcases htoolsNew t ht with ht | ⟨rfl, hdisabled, hfresh⟩
    · exact hinv.active t ht
    · -- a new tool is disabled, and no version refers to it
      rw [hdisabled]
      refine ⟨by simp, ?_⟩
      rintro ⟨v, hv, hid, -⟩
      obtain ⟨t', ht', hid', -⟩ := hinv.tooled v hv
      exact absurd (hid'.trans hid) (Table.find?_eq_none.1 hfresh t' ht')
  · intro v hv
    rcases h.mem_versions.1 hv with hv | rfl
    · exact hinv.schemaDigests v hv
    · exact h.drafts.schemaDigest
  · intro b hb
    rcases h.mem_bindings.1 hb with hb | rfl
    · exact hinv.bindingDigests b hb
    · exact h.drafts.bindingDigest
  · exact h.numbered hinv

end Drafting

/-! ## Each effect keeps the invariant -/

section Effects

variable [Sha256] {c c' : CatalogTables}

/-- What is left when the rows are the same up to their lifecycles. -/
theorem CatalogInvariant.of_same (hinv : CatalogInvariant c) (hsame : SameIdentities c c')
    (hpaired : c'.Paired) (hactive : c'.ActiveIffPublished) : CatalogInvariant c' where
  paired := hpaired
  owned := hsame.owned hinv.owned
  upstreamed := hsame.upstreamed hinv.upstreamed
  tooled := hsame.tooled hinv.tooled
  active := hactive
  schemaDigests := hsame.schemaDigests hinv.schemaDigests
  bindingDigests := hsame.bindingDigests hinv.bindingDigests
  numbered := hsame.numbered hinv.numbered

/-- The tools, versions and bindings are the same, and no upstream is gone. -/
theorem CatalogInvariant.of_upstreams (hinv : CatalogInvariant c) (htools : c'.tools = c.tools)
    (hversions : c'.versions = c.versions) (hbindings : c'.bindings = c.bindings)
    (hupstreams : ∀ u ∈ c.upstreams, ∃ u' ∈ c'.upstreams, u'.val.id = u.val.id ∧
      u'.val.tenantId = u.val.tenantId) : CatalogInvariant c' := by
  constructor
  · intro v hv
    rw [hversions] at hv
    rw [hbindings]
    exact hinv.paired v hv
  · intro b hb
    rw [hbindings] at hb
    rw [hversions]
    exact hinv.owned b hb
  · intro b hb
    rw [hbindings] at hb
    obtain ⟨u, hu, hid, htenant⟩ := hinv.upstreamed b hb
    obtain ⟨u', hu', hid', htenant'⟩ := hupstreams u hu
    exact ⟨u', hu', hid'.trans hid, htenant'.trans htenant⟩
  · intro v hv
    rw [hversions] at hv
    rw [htools]
    exact hinv.tooled v hv
  · intro t ht
    rw [htools] at ht
    rw [hversions]
    exact hinv.active t ht
  · intro v hv
    rw [hversions] at hv
    exact hinv.schemaDigests v hv
  · intro b hb
    rw [hbindings] at hb
    exact hinv.bindingDigests b hb
  · intro toolId
    unfold CatalogTables.numbersOf
    rw [hversions]
    exact hinv.numbered toolId

theorem CatalogInvariant.quiet (hinv : CatalogInvariant c) (h : Quiet c c') :
    CatalogInvariant c' := by
  apply hinv.of_upstreams h.tools h.versions h.bindings
  intro u hu
  obtain ⟨u', hu', hid, htenant, -⟩ := h.upstreams u hu
  exact ⟨u', hu', hid, htenant⟩

theorem CatalogInvariant.disabling (hinv : CatalogInvariant c) {command : DisableUpstreamCommand}
    {upstream disabled : UpstreamService} (h : Disabling c c' command upstream disabled) :
    CatalogInvariant c' := by
  apply hinv.of_upstreams
  · rw [h.rows]
  · rw [h.rows]
  · rw [h.rows]
  · intro u hu
    rw [h.rows]
    by_cases hkey : u.val.id = disabled.val.id
    · have hsame : u = upstream :=
        Table.eq_of_key_eq hu h.upstreamMem (hkey.trans h.disabledId)
      exact ⟨disabled, (mem_replaceRow h.upstreamMem h.disabledId.symm).2 (.inr rfl), hkey.symm,
        hsame ▸ h.disabledTenant⟩
    · exact ⟨u, (mem_replaceRow h.upstreamMem h.disabledId.symm).2 (.inl ⟨hu, hkey⟩), rfl, rfl⟩

omit [Sha256] in
/-- A submission moves a version, and leaves its binding a draft. -/
theorem Submission.mem_versions {v w : ToolVersion} (h : Submission c c' v w) {x : ToolVersion} :
    x ∈ c'.versions ↔ (x ∈ c.versions ∧ x.val.id ≠ v.val.id) ∨ x = w := by
  have hid := (ToolVersion.id_of_identity h.identity).1
  rw [h.rows]
  dsimp only
  rw [mem_replaceRow h.version hid.symm, hid]

theorem CatalogInvariant.submission (hinv : CatalogInvariant c) {v w : ToolVersion}
    (h : Submission c c' v w) : CatalogInvariant c' := by
  obtain ⟨hid, htenant, htool, -⟩ := ToolVersion.id_of_identity h.identity
  have hbindings : c'.bindings = c.bindings := by rw [h.rows]
  have htools : c'.tools = c.tools := by rw [h.rows]
  have hsame : SameIdentities c c' := by
    constructor
    · rw [htools]
    · rw [h.rows]
      exact map_replaceRow h.version hid.symm h.identity
    · rw [hbindings]
    · rw [h.rows]
  apply hinv.of_same hsame
  · intro x hx
    rw [hbindings]
    rcases h.mem_versions.1 hx with ⟨hx, -⟩ | rfl
    · exact hinv.paired x hx
    · obtain ⟨b, hb, hversion, hbtenant, hstatus⟩ := hinv.paired v h.version
      refine ⟨b, hb, hversion.trans hid.symm, hbtenant.trans htenant.symm, ?_⟩
      rw [hstatus, h.draft, h.review, ToolVersionStatus.ofBinding, ToolVersionStatus.ofBinding]
  · -- neither the draft nor the version in review is published
    intro t ht
    rw [htools] at ht
    rw [hinv.active t ht]
    constructor
    · rintro ⟨x, hx, hxtool, hpublished⟩
      refine ⟨x, h.mem_versions.2 (.inl ⟨hx, ?_⟩), hxtool, hpublished⟩
      intro hkey
      rw [Table.eq_of_key_eq hx h.version hkey, h.draft] at hpublished
      cases hpublished
    · rintro ⟨x, hx, hxtool, hpublished⟩
      rcases h.mem_versions.1 hx with ⟨hx, -⟩ | rfl
      · exact ⟨x, hx, hxtool, hpublished⟩
      · rw [h.review] at hpublished
        cases hpublished

/-- After a publication the versions of the other tools are published as before. -/
theorem Republished.published_iff {tool tool' : Tool} {version w : ToolVersion}
    (h : Republished c c' tool tool' version w) {toolId : Id} (hne : toolId ≠ tool.val.id) :
    (∃ x ∈ c'.versions, x.val.toolId = toolId ∧ x.val.status = .published) ↔
      ∃ x ∈ c.versions, x.val.toolId = toolId ∧ x.val.status = .published := by
  constructor
  · rintro ⟨x, hx, htool, hpublished⟩
    rcases h.of_mem x hx with rfl | hx | hretired
    · have hwtool := (ToolVersion.id_of_identity h.identity).2.2.1
      exact absurd (htool.symm.trans (hwtool.trans h.versionTool)) hne
    · exact ⟨x, hx, htool, hpublished⟩
    · rw [hretired] at hpublished
      cases hpublished
  · rintro ⟨x, hx, htool, hpublished⟩
    exact ⟨x, h.others x hx (htool ▸ hne), htool, hpublished⟩

theorem CatalogInvariant.publication (hinv : CatalogInvariant c) {command : PublishToolCommand}
    {tool : Tool} {version : ToolVersion} {binding : ToolBinding} {upstream : UpstreamService}
    (hpublication : Publication c c' command tool version binding upstream) :
    CatalogInvariant c' := by
  obtain ⟨tool', w, h⟩ := hpublication.republished
  obtain ⟨-, -, hwtool, -⟩ := ToolVersion.id_of_identity h.identity
  have htoolId := (Tool.id_of_identity h.toolIdentity).1
  apply hinv.of_same h.same (h.keepsPaired hinv.paired)
  intro t ht
  rw [h.tools, mem_replaceRow h.toolMem htoolId.symm, htoolId] at ht
  rcases ht with ⟨ht, hne⟩ | rfl
  · rw [hinv.active t ht, h.published_iff hne]
  · rw [h.activated]
    refine ⟨fun _ => ⟨w, h.mem, ?_, h.published⟩, fun _ => rfl⟩
    rw [hwtool, h.versionTool, htoolId]

theorem CatalogInvariant.effect (hinv : CatalogInvariant c) (h : CatalogEffect c c') :
    CatalogInvariant c' := by
  cases h with
  | quiet h => exact hinv.quiet h
  | drafting h => exact h.invariant hinv
  | submission h => exact hinv.submission h
  | publication h => exact hinv.publication h

theorem CatalogInvariant.command (hinv : CatalogInvariant c) {command : CatalogCommand}
    (h : command.Effect c c') : CatalogInvariant c' := by
  have hchain (hchain : ReflTransGen CatalogEffect c c') : CatalogInvariant c' := by
    clear h
    induction hchain with
    | refl => exact hinv
    | tail _ hlast ih => exact ih.effect hlast
  cases command with
  | disableUpstream command =>
    obtain ⟨upstream, disabled, hdisable⟩ := h
    exact hinv.disabling hdisable
  | _ => exact hchain h

/-! ## The order of publications -/

/-- A tool that has a published version keeps one, and a new one has a greater number. -/
def Succeeds (c c' : CatalogTables) : Prop :=
  ∀ v ∈ c.versions, v.val.status = .published → ∃ v' ∈ c'.versions,
    v'.val.toolId = v.val.toolId ∧ v'.val.status = .published ∧
      ((v'.val.id = v.val.id ∧ v'.val.version = v.val.version) ∨
        v.val.version < v'.val.version)

omit [Sha256] in
theorem Succeeds.of_kept (h : ∀ v ∈ c.versions, v.val.status = .published → v ∈ c'.versions) :
    Succeeds c c' := by
  intro v hv hpublished
  exact ⟨v, h v hv hpublished, rfl, hpublished, .inl ⟨rfl, rfl⟩⟩

omit [Sha256] in
theorem Succeeds.trans {c'' : CatalogTables} (h : Succeeds c c') (h' : Succeeds c' c'') :
    Succeeds c c'' := by
  intro v hv hpublished
  obtain ⟨v', hv', htool, hpublished', hnumber⟩ := h v hv hpublished
  obtain ⟨v'', hv'', htool', hpublished'', hnumber'⟩ := h' v' hv' hpublished'
  refine ⟨v'', hv'', htool'.trans htool, hpublished'', ?_⟩
  rcases hnumber with ⟨hid, heq⟩ | hlt
  · rcases hnumber' with ⟨hid', heq'⟩ | hlt'
    · exact .inl ⟨hid'.trans hid, heq'.trans heq⟩
    · exact .inr (heq ▸ hlt')
  · rcases hnumber' with ⟨-, heq'⟩ | hlt'
    · exact .inr (heq' ▸ hlt)
    · exact .inr (hlt.trans hlt')

theorem Succeeds.of_effect (hinv : CatalogInvariant c) (h : CatalogEffect c c') :
    Succeeds c c' := by
  cases h with
  | quiet h =>
    apply Succeeds.of_kept
    intro v hv _
    rwa [h.versions]
  | drafting h =>
    apply Succeeds.of_kept
    intro v hv _
    exact h.mem_versions.2 (.inl hv)
  | submission h =>
    apply Succeeds.of_kept
    intro v hv hpublished
    refine h.mem_versions.2 (.inl ⟨hv, ?_⟩)
    intro hkey
    rw [Table.eq_of_key_eq hv h.version hkey, h.draft] at hpublished
    cases hpublished
  | @publication _ tool _ _ _ hpublication =>
    obtain ⟨tool', w, h⟩ := hpublication.republished
    obtain ⟨-, -, hwtool, hwnumber⟩ := ToolVersion.id_of_identity h.identity
    intro v hv hpublished
    by_cases htool : v.val.toolId = tool.val.id
    · -- the tool of the publication: its published version is older
      obtain ⟨t, ht, hid, htenant⟩ := hinv.tooled v hv
      have hsame : t = tool := Table.eq_of_key_eq ht h.toolMem (hid.trans htool)
      have hnewer := h.newer v hv (hsame ▸ htenant.symm) htool hpublished
      refine ⟨w, h.mem, ?_, h.published, .inr ?_⟩
      · rw [hwtool, h.versionTool, htool]
      · rw [hwnumber]
        exact hnewer
    · exact ⟨v, h.others v hv htool, rfl, hpublished, .inl ⟨rfl, rfl⟩⟩

theorem Succeeds.of_command (hinv : CatalogInvariant c) {command : CatalogCommand}
    (h : command.Effect c c') : Succeeds c c' := by
  have hchain (hchain : ReflTransGen CatalogEffect c c') :
      CatalogInvariant c' ∧ Succeeds c c' := by
    clear h
    induction hchain with
    | refl => exact ⟨hinv, Succeeds.of_kept fun v hv _ => hv⟩
    | tail _ hlast ih => exact ⟨ih.1.effect hlast, ih.2.trans (Succeeds.of_effect ih.1 hlast)⟩
  cases command with
  | disableUpstream command =>
    obtain ⟨upstream, disabled, hdisable⟩ := h
    apply Succeeds.of_kept
    intro v hv _
    rwa [hdisable.rows]
  | _ => exact (hchain h).2

end Effects

end NexusMcp
