-- SUMMARY: Whether a discovered tool can be resolved for a call, over the runs of the catalogue.
import NexusMcp.Catalog.Runs
import NexusMcp.Execution.Resolver

/-!
# Discovery and Resolution

Discovery does not look at the upstream of a tool and the resolver does. They agree in a
run exactly when no upstream is disabled while a tool behind it can be discovered.
-/

namespace NexusMcp

open Net (Unicode)
open Txn (SerialWorld Table)
open Relation (ReflTransGen)

/-! ## Discovered tools -/

/-- What the authenticators guarantee: only the anonymous principal is of the anonymous type. -/
def InternalPrincipal.Trusted (principal : InternalPrincipal) : Prop :=
  principal.val.principalType = .anonymous → principal.val.id = anonymousPrincipalId

namespace CatalogTables

/-- A tool that discovery shows to the principal. -/
def Discovers (c : CatalogTables) (principal : InternalPrincipal) (published : PublishedTool) :
    Prop :=
  published ∈ c.listPublishedByTenant principal.val.tenantId ∧
    published.isVisibleTo principal.val.id = true

/-- The name of the tool resolves to the same version, which a call by the principal finds
    visible. -/
def Resolves (c : CatalogTables) (principal : InternalPrincipal) (published : PublishedTool) :
    Prop :=
  ∃ row, c.resolve principal.val.tenantId published.val.canonicalName = .ok (some row) ∧
    row.toolId = published.val.toolId ∧ row.toolVersionId = published.val.toolVersionId ∧
    isVisible row.visibility principal.val.principalType = true

/-- The binding of the tool's version refers to an active upstream. -/
def UpstreamActive (c : CatalogTables) (tenantId : Id) (published : PublishedTool) : Prop :=
  ∃ binding ∈ c.bindings, binding.val.toolVersionId = published.val.toolVersionId ∧
    ∃ upstream ∈ c.upstreams, upstream.val.id = binding.val.upstreamServiceId ∧
      upstream.val.tenantId = tenantId ∧ upstream.val.status = .active

variable {c : CatalogTables}

/-- A call does not find less visible than discovery does. -/
theorem isVisible_of_isVisibleTo {principal : InternalPrincipal} (h : principal.Trusted)
    {published : PublishedTool} (hvisible : published.isVisibleTo principal.val.id = true) :
    isVisible published.val.visibility principal.val.principalType = true := by
  unfold PublishedTool.isVisibleTo at hvisible
  unfold isVisible
  cases hvisibility : published.val.visibility with
  | public_ => rfl
  | authenticated =>
    simp only [hvisibility, decide_eq_true_eq] at hvisible ⊢
    intro hanonymous
    exact hvisible (h hanonymous)
  | restricted =>
    simp only [hvisibility] at hvisible
    cases hvisible

/-- A discovered tool resolves exactly when its upstream is active. -/
theorem Discovers.resolves_iff {principal : InternalPrincipal} {published : PublishedTool}
    (h : c.Discovers principal published) (htrusted : principal.Trusted) :
    c.Resolves principal published ↔ c.UpstreamActive principal.val.tenantId published := by
  obtain ⟨hlisted, hvisible⟩ := h
  obtain ⟨tool, version, hrow, rfl⟩ := mem_listPublishedByTenant.1 hlisted
  obtain ⟨htool, hversion, binding, hbinding, hjoin⟩ := mem_publishedRows.1 hrow
  have hpaired : binding.val.toolVersionId = version.val.id := hjoin.2.1
  constructor
  · rintro ⟨row, hresolve, -, hsame, -⟩
    obtain ⟨t, -, v, hv, b, hb, u, hu, hjoin', rfl⟩ :=
      mem_executableRows.1 (resolve_eq_some.1 hresolve)
    have hversionId : v.val.id = version.val.id := hsame
    refine ⟨b, hb, ?_, u, hu, hjoin'.2.2.1, hjoin'.2.2.2.1, hjoin'.2.2.2.2⟩
    exact hjoin'.1.2.1.trans hversionId
  · rintro ⟨b, hb, hbversion, upstream, hupstream, hid, htenant, hactive⟩
    have hsame : b = binding := c.binding_eq_of_version hb hbinding (hbversion.trans hpaired.symm)
    subst hsame
    refine ⟨resolvedFromModels principal.val.tenantId tool version b upstream, ?_, rfl, rfl, ?_⟩
    · apply resolve_eq_some.2
      exact mem_executableRows.2 ⟨tool, htool, version, hversion, b, hb, upstream, hupstream,
        ⟨hjoin, rfl, hid, htenant, hactive⟩, rfl⟩
    · exact isVisible_of_isVisibleTo htrusted hvisible

/-! ## The invariant -/

/-- Every tool that a principal discovers resolves for it. -/
def DiscoveredResolve (c : CatalogTables) : Prop :=
  ∀ principal : InternalPrincipal, principal.Trusted → ∀ published,
    c.Discovers principal published → c.Resolves principal published

theorem discoveredResolve_iff : c.DiscoveredResolve ↔
    ∀ principal : InternalPrincipal, principal.Trusted → ∀ published,
      c.Discovers principal published → c.UpstreamActive principal.val.tenantId published := by
  constructor
  · intro h principal htrusted published hdiscovers
    exact (hdiscovers.resolves_iff htrusted).1 (h principal htrusted published hdiscovers)
  · intro h principal htrusted published hdiscovers
    exact (hdiscovers.resolves_iff htrusted).2 (h principal htrusted published hdiscovers)

/-- The binding of the tool's version refers to the upstream. -/
def Behind (c : CatalogTables) (upstreamServiceId : Id) (published : PublishedTool) : Prop :=
  ∃ binding ∈ c.bindings, binding.val.toolVersionId = published.val.toolVersionId ∧
    binding.val.upstreamServiceId = upstreamServiceId

/-- A principal of the tenant discovers a tool behind the upstream. -/
def DiscoversBehind (c : CatalogTables) (tenantId upstreamServiceId : Id) : Prop :=
  ∃ principal : InternalPrincipal, principal.Trusted ∧ principal.val.tenantId = tenantId ∧
    ∃ published, c.Discovers principal published ∧ c.Behind upstreamServiceId published

/-! ### Each effect keeps it -/

variable {c' : CatalogTables}

/-- It is enough that each published row of `c'` is one of `c` or has an active upstream. -/
theorem DiscoveredResolve.of_rows (h : c.DiscoveredResolve)
    (hrows : ∀ tenantId, ∀ tool ∈ c'.tools, ∀ version ∈ c'.versions, ∀ binding ∈ c'.bindings,
      PublishedJoin tenantId tool version binding →
      (tool ∈ c.tools ∧ version ∈ c.versions ∧ binding ∈ c.bindings) ∨
      ∃ upstream ∈ c'.upstreams, upstream.val.id = binding.val.upstreamServiceId ∧
        upstream.val.tenantId = tenantId ∧ upstream.val.status = .active)
    (hupstreams : ∀ u ∈ c.upstreams, ∃ u' ∈ c'.upstreams, u'.val.id = u.val.id ∧
      u'.val.tenantId = u.val.tenantId ∧ u'.val.status = u.val.status) :
    c'.DiscoveredResolve := by
  rw [discoveredResolve_iff] at h ⊢
  intro principal htrusted published ⟨hlisted, hvisible⟩
  obtain ⟨tool, version, hrow, rfl⟩ := mem_listPublishedByTenant.1 hlisted
  obtain ⟨htool, hversion, binding, hbinding, hjoin⟩ := mem_publishedRows.1 hrow
  rcases hrows _ tool htool version hversion binding hbinding hjoin with
    ⟨htool', hversion', hbinding'⟩ | hupstream
  · have hdiscovers : c.Discovers principal (publishedToolFromModels tool version) :=
      ⟨mem_listPublishedByTenant.2
        ⟨tool, version, mem_publishedRows.2 ⟨htool', hversion', binding, hbinding', hjoin⟩, rfl⟩,
        hvisible⟩
    obtain ⟨b, hb, hbversion, u, hu, hid, htenant, hactive⟩ :=
      h principal htrusted _ hdiscovers
    -- the version had this one binding, so the active upstream is the binding's
    have hsame : b = binding :=
      c.binding_eq_of_version hb hbinding' (hbversion.trans hjoin.2.1.symm)
    subst hsame
    obtain ⟨u', hu', hid', htenant', hactive'⟩ := hupstreams u hu
    exact ⟨b, hbinding, hbversion, u', hu', hid'.trans hid, htenant'.trans htenant,
      hactive'.trans hactive⟩
  · exact ⟨binding, hbinding, hjoin.2.1, hupstream⟩

theorem DiscoveredResolve.quiet (h : c.DiscoveredResolve) (hquiet : Quiet c c') :
    c'.DiscoveredResolve := by
  apply h.of_rows _ hquiet.upstreams
  intro _ tool htool version hversion binding hbinding _
  rw [hquiet.tools] at htool
  rw [hquiet.versions] at hversion
  rw [hquiet.bindings] at hbinding
  exact .inl ⟨htool, hversion, hbinding⟩

/-- What a draft adds is not published. -/
theorem DiscoveredResolve.drafting [Sha256] {command : ReviewImportedOperationCommand}
    {operation accepted : ImportedOperation} {upstream : UpstreamService} {tool : Tool}
    {version : ToolVersion} {binding : ToolBinding} (h : c.DiscoveredResolve)
    (hdraft : Drafting c c' command operation accepted upstream tool version binding) :
    c'.DiscoveredResolve := by
  apply h.of_rows
  · intro tenantId t ht v hv b hb hjoin
    obtain ⟨-, -, -, -, -, hactive, hpublished, hbound⟩ := hjoin
    refine .inl ⟨?_, ?_, ?_⟩
    · rcases hdraft.mem_tools.2.2 t ht with ht | ⟨-, hdisabled, -⟩
      · exact ht
      · rw [hdisabled] at hactive
        cases hactive
    · rcases hdraft.mem_versions.1 hv with hv | rfl
      · exact hv
      · rw [hdraft.drafts.versionDraft] at hpublished
        cases hpublished
    · rcases hdraft.mem_bindings.1 hb with hb | rfl
      · exact hb
      · rw [hdraft.drafts.bindingDraft] at hbound
        cases hbound
  · intro u hu
    rw [hdraft.upstreams]
    exact ⟨u, hu, rfl, rfl, rfl⟩

theorem DiscoveredResolve.submission {v w : ToolVersion} (h : c.DiscoveredResolve)
    (hsubmit : Submission c c' v w) : c'.DiscoveredResolve := by
  have hmem : ∀ x ∈ c'.versions, x.val.status = .published → x ∈ c.versions := by
    intro x hx hpublished
    rcases hsubmit.mem_versions.1 hx with ⟨hx, -⟩ | rfl
    · exact hx
    · rw [hsubmit.review] at hpublished
      cases hpublished
  apply h.of_rows
  · intro tenantId t ht v hv b hb hjoin
    rw [hsubmit.rows] at ht hb
    exact .inl ⟨ht, hmem v hv hjoin.2.2.2.2.2.2.1, hb⟩
  · intro u hu
    rw [hsubmit.rows]
    exact ⟨u, hu, rfl, rfl, rfl⟩

theorem DiscoveredResolve.publication [Sha256] {command : PublishToolCommand} {tool : Tool}
    {version : ToolVersion} {binding : ToolBinding} {upstream : UpstreamService}
    (h : c.DiscoveredResolve)
    (hpublish : Publication c c' command tool version binding upstream) :
    c'.DiscoveredResolve := by
  obtain ⟨tool', w, hrepublished⟩ := hpublish.republished
  obtain ⟨c₁, c₂, w₂, d, tool₂, hretired, hmoved, -, -, -, hrows⟩ := hpublish.steps
  have hupstreams : c'.upstreams = c.upstreams := hrepublished.same.upstreams
  have hbindings : c'.bindings = c₂.bindings := by rw [hrows]
  obtain ⟨-, hdtenant, -, hdupstream⟩ := ToolBinding.id_of_identity hmoved.bindingIdentity
  have htenants := hpublish.snapshot.tenants
  have htoolId := (Tool.id_of_identity hrepublished.toolIdentity).1
  obtain ⟨hwid, -, hwtool, -⟩ := ToolVersion.id_of_identity hrepublished.identity
  apply h.of_rows
  · intro tenantId t ht v hv b hb hjoin
    obtain ⟨hvtool, hbversion, -, -, hbtenant, -, hpublished, hbpublished⟩ := hjoin
    rw [hbindings] at hb
    rcases hmoved.mem_bindings.1 hb with ⟨hb, hbne⟩ | rfl
    · have hbmem := hretired.of_mem_bindings hb hbpublished
      have hvne : v ≠ w := by
        rintro rfl
        have hpaired : binding.val.toolVersionId = v.val.id :=
          hpublish.snapshot.toolVersionId.trans hwid.symm
        exact hbne (by rw [c.binding_eq_of_version hbmem hpublish.bindingMem
          (hbversion.trans hpaired.symm)])
      refine .inl ⟨?_, ?_, hbmem⟩
      · rw [hrepublished.tools, mem_replaceRow hrepublished.toolMem htoolId.symm] at ht
        rcases ht with ⟨ht, -⟩ | rfl
        · exact ht
        · -- the tool of the publication has no other published version
          refine absurd (c'.version_eq_of_published hv hrepublished.mem hpublished
            hrepublished.published ?_) hvne
          rw [hvtool, hwtool, hrepublished.versionTool, htoolId]
      · rcases hrepublished.of_mem v hv with heq | hv | hretired
        · exact absurd heq hvne
        · exact hv
        · rw [hretired] at hpublished
          cases hpublished
    · -- the upstream of the new version was active when it was published
      refine .inr ⟨upstream, ?_, ?_, ?_, hpublish.snapshot.active⟩
      · rw [hupstreams]
        exact hpublish.upstreamMem
      · rw [hpublish.upstreamId, hdupstream]
      · rw [← hbtenant, hdtenant, htenants upstream.val.tenantId (by simp),
          htenants binding.val.tenantId (by simp)]
  · intro u hu
    rw [hupstreams]
    exact ⟨u, hu, rfl, rfl, rfl⟩

theorem DiscoveredResolve.effect [Sha256] (h : c.DiscoveredResolve)
    (heffect : CatalogEffect c c') : c'.DiscoveredResolve := by
  cases heffect with
  | quiet hquiet => exact h.quiet hquiet
  | drafting hdraft => exact h.drafting hdraft
  | submission hsubmit => exact h.submission hsubmit
  | publication hpublish => exact h.publication hpublish

end CatalogTables

/-! ### Disabling an upstream -/

section Disabling

variable {c c' : CatalogTables} {command : DisableUpstreamCommand}
  {upstream disabled : UpstreamService}

theorem Disabling.discovers_iff (h : Disabling c c' command upstream disabled)
    {principal : InternalPrincipal} {published : PublishedTool} :
    c'.Discovers principal published ↔ c.Discovers principal published := by
  have hlist (tenantId : Id) :
      c'.listPublishedByTenant tenantId = c.listPublishedByTenant tenantId := by
    unfold CatalogTables.listPublishedByTenant CatalogTables.publishedRows
    rw [h.rows]
  unfold CatalogTables.Discovers
  rw [hlist]

/-- An upstream that is active afterwards is another one. -/
theorem Disabling.mem_active (h : Disabling c c' command upstream disabled) {u : UpstreamService} :
    (u ∈ c'.upstreams ∧ u.val.status = .active) ↔
      u ∈ c.upstreams ∧ u.val.status = .active ∧ u.val.id ≠ command.upstreamServiceId := by
  have hid : disabled.val.id = command.upstreamServiceId := h.disabledId.trans h.upstreamId
  rw [h.rows]
  dsimp only
  rw [mem_replaceRow h.upstreamMem h.disabledId.symm, hid]
  constructor
  · rintro ⟨⟨hu, hne⟩ | rfl, hactive⟩
    · exact ⟨hu, hactive, hne⟩
    · rw [h.isDisabled] at hactive
      cases hactive
  · rintro ⟨hu, hactive, hne⟩
    exact ⟨.inl ⟨hu, hne⟩, hactive⟩

/-- Disabling an upstream keeps the discovered tools resolvable exactly when none of them is
    behind it. -/
theorem Disabling.discoveredResolve_iff (hdisable : Disabling c c' command upstream disabled)
    (h : c.DiscoveredResolve) :
    c'.DiscoveredResolve ↔
      ¬ c.DiscoversBehind command.context.tenantId command.upstreamServiceId := by
  have hbindings : c'.bindings = c.bindings := by rw [hdisable.rows]
  rw [CatalogTables.discoveredResolve_iff] at h ⊢
  constructor
  · rintro h' ⟨principal, htrusted, -, published, hdiscovers, b, hb, hbversion, hbupstream⟩
    obtain ⟨b', hb', hversion', u, hu, hid, -, hactive⟩ :=
      h' principal htrusted published (hdisable.discovers_iff.2 hdiscovers)
    rw [hbindings] at hb'
    have hsame : b' = b := c.binding_eq_of_version hb' hb (hversion'.trans hbversion.symm)
    subst hsame
    exact (hdisable.mem_active.1 ⟨hu, hactive⟩).2.2 (hid.trans hbupstream)
  · intro hnot principal htrusted published hdiscovers
    rw [hdisable.discovers_iff] at hdiscovers
    obtain ⟨b, hb, hbversion, u, hu, hid, htenant, hactive⟩ :=
      h principal htrusted published hdiscovers
    have hne : u.val.id ≠ command.upstreamServiceId := by
      intro heq
      have hsame : u = upstream :=
        Table.eq_of_key_eq hu hdisable.upstreamMem (heq.trans hdisable.upstreamId.symm)
      refine hnot ⟨principal, htrusted, ?_, published, hdiscovers, b, hb, hbversion,
        hid.symm.trans heq⟩
      rw [← htenant, hsame, hdisable.upstreamTenant]
    obtain ⟨hu', -⟩ := hdisable.mem_active.2 ⟨hu, hactive, hne⟩
    exact ⟨b, hbindings ▸ hb, hbversion, u, hu', hid, htenant, hactive⟩

end Disabling

/-! ## Runs -/

theorem CatalogTables.Empty.discoveredResolve {c : CatalogTables} (h : c.Empty) :
    c.DiscoveredResolve := by
  rintro principal - published ⟨hlisted, -⟩
  obtain ⟨tool, version, hrow, -⟩ := CatalogTables.mem_listPublishedByTenant.1 hlisted
  have htool := (CatalogTables.mem_publishedRows.1 hrow).1
  rw [h.tools] at htool
  exact absurd htool Table.not_mem_empty

/-- The command disables an upstream while a tool behind it is discovered. -/
def CatalogCommand.DisablesDiscovered : CatalogCommand → CatalogTables → Prop
  | disableUpstream command => fun c =>
    c.DiscoversBehind command.context.tenantId command.upstreamServiceId
  | _ => fun _ => False

section Runs

variable [Sha256]

/-- One command keeps the discovered tools resolvable exactly when it does not disable an
    upstream behind one. -/
theorem CatalogCommand.Effect.discoveredResolve_iff {command : CatalogCommand}
    {c c' : CatalogTables} (heffect : command.Effect c c') (h : c.DiscoveredResolve) :
    c'.DiscoveredResolve ↔ ¬ command.DisablesDiscovered c := by
  have hchain (hchain : ReflTransGen CatalogEffect c c') : c'.DiscoveredResolve := by
    clear heffect
    induction hchain with
    | refl => exact h
    | tail _ hlast ih => exact ih.effect hlast
  cases command with
  | disableUpstream command =>
    obtain ⟨upstream, disabled, hdisable⟩ := heffect
    exact hdisable.discoveredResolve_iff h
  | _ => exact iff_of_true (hchain heffect) not_false

variable [Unicode] {Pid : Type}

/-- In a run of the commands every discovered tool resolves in every committed state exactly
    when no commit disables an upstream while a tool behind it is discovered. -/
theorem discovered_tools_resolve_iff (Fault : Exc → Prop) (commands : Pid → CatalogCommand)
    {c : CatalogTables} (hempty : c.Empty)
    {w : SerialWorld CatalogTables Exc Pid (fun p => (commands p).Result)}
    (hreaches : SerialWorld.Reaches Fault (catalogWorld commands c) w) :
    (w.store.DiscoveredResolve ∧ ∀ commit ∈ w.commits, commit.before.DiscoveredResolve) ↔
      ∀ commit ∈ w.commits, ¬ (commands commit.pid).DisablesDiscovered commit.before := by
  have hwithin := SerialWorld.within_of_reaches
    (fun p => (commands p).program_commits) hreaches
  constructor
  · rintro ⟨hstore, hbefore⟩ commit hcommit
    have hafter : commit.after.DiscoveredResolve :=
      hwithin.linked.after hstore hbefore commit hcommit
    exact ((hwithin.commits commit hcommit).discoveredResolve_iff (hbefore commit hcommit)).1 hafter
  · intro hnone
    apply hwithin.linked.invariant hempty.discoveredResolve
    intro commit hcommit hbefore
    exact ((hwithin.commits commit hcommit).discoveredResolve_iff hbefore).2 (hnone commit hcommit)

end Runs

section Orders

attribute [local instance] zeroSha256 asciiUnicode

/-- Nothing has disabled the upstream behind the tool. -/
theorem discovered_tools_resolve_orders :
    (orderWorld [0, 1]).store.DiscoveredResolve ∧
      ∀ commit ∈ (orderWorld [0, 1]).commits, commit.before.DiscoveredResolve := by
  apply (discovered_tools_resolve_iff (fun _ => False) orderCommands registeredCatalog_empty
    (SerialWorld.reaches_runInOrder (catalogWorld orderCommands registeredCatalog) [0, 1])).2
  have hpids : ∀ commit ∈ (orderWorld [0, 1]).commits, commit.pid ≠ 2 := by decide +kernel
  intro commit hcommit hdisables
  have hpid := hpids commit hcommit
  match hp : commit.pid with
  | 0 => rw [hp] at hdisables; exact hdisables
  | 1 => rw [hp] at hdisables; exact hdisables
  | 2 => exact hpid hp

def orderAgent : InternalPrincipal :=
  ⟨⟨"agent-1", "tenant-1", .agentService, "token"⟩, by decide⟩

/-- Once its upstream is disabled, the tool is still discovered and no longer resolves. -/
theorem discovered_tool_not_resolved :
    ¬ ∀ (c : CatalogTables) (w : SerialWorld CatalogTables Exc (Fin 3)
        (fun p => (orderCommands p).Result)), c.Empty →
      SerialWorld.Reaches (fun _ => False) (catalogWorld orderCommands c) w →
      w.store.DiscoveredResolve := by
  intro h
  have hresolves := h registeredCatalog (orderWorld [0, 1, 2]) registeredCatalog_empty
    (SerialWorld.reaches_runInOrder _ _)
  have hlisted : ((orderWorld [0, 1, 2]).store.listPublishedByTenant "tenant-1").map
      (fun published => (published.val.canonicalName, published.isVisibleTo "agent-1")) =
        [("orders.list", true)] := by
    decide +kernel
  have hunresolved :
      ((orderWorld [0, 1, 2]).store.executableRows "tenant-1" "orders.list").isEmpty = true := by
    decide +kernel
  obtain ⟨published, hmem, hshown⟩ := List.mem_map.1 (hlisted ▸ List.mem_singleton_self _)
  obtain ⟨hname, hvisible⟩ := Prod.mk.inj hshown
  obtain ⟨row, hrow, -⟩ := hresolves orderAgent (fun htype => nomatch htype) published
    ⟨hmem, hvisible⟩
  have hmemRow := CatalogTables.resolve_eq_some.1 hrow
  have htenant : orderAgent.val.tenantId = "tenant-1" := rfl
  rw [htenant, hname, List.isEmpty_iff.1 hunresolved] at hmemRow
  exact absurd hmemRow List.not_mem_nil

end Orders

end NexusMcp
