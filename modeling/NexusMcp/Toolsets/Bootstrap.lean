-- SUMMARY: When the bootstrap of the system toolset succeeds, over every sequence of commands.
import NexusMcp.Toolsets.Revisions

/-!
# Bootstrap of the System Toolset

The reserved slug is kept from other toolsets in one direction only: a system toolset
must carry it, but an explicit one may. The bootstrap of a tenant fails from then on.
-/

namespace NexusMcp

/-- SHA-256 in hexadecimal digits has the form that a membership digest must have. -/
class Sha256.Lawful [Sha256] : Prop where
  digest : ∀ text, isNotDigest (Sha256.hexdigest text) = false

section Bootstrap

variable [Sha256]

open InMemoryToolsetRepository

/-! ## Moves of the repository -/

/-- The two repositories hold the same toolsets, some of them further than before. -/
structure Forward (repository stored : InMemoryToolsetRepository) : Prop where
  kept : ∀ t ∈ repository.toolsets, ∃ t' ∈ stored.toolsets, t.Follows t'
  known : ∀ t' ∈ stored.toolsets, ∃ t ∈ repository.toolsets, t.Follows t'

theorem Forward.refl (repository : InMemoryToolsetRepository) : Forward repository repository :=
  ⟨fun t ht => ⟨t, ht, .refl t⟩, fun t ht => ⟨t, ht, .refl t⟩⟩

theorem forward_of_replaced {repository stored : InMemoryToolsetRepository} {t t' : Toolset}
    {expectedRevision : Int} (ht : t ∈ repository.toolsets)
    (hadvanced : t.Advanced t' expectedRevision)
    (hstored : stored.toolsets = repository.replaced t') : Forward repository stored := by
  have hid : t.val.id = t'.val.id := hadvanced.identity.1
  constructor
  · intro u hu
    by_cases h : u.val.id = t'.val.id
    · obtain rfl := eq_of_id hu ht (h.trans hid.symm)
      exact ⟨t', hstored ▸ mem_replaced.2 (.inl ⟨rfl, u, hu, h⟩), hadvanced.follows⟩
    · exact ⟨u, hstored ▸ mem_replaced.2 (.inr ⟨hu, h⟩), .refl u⟩
  · intro u hu
    rw [hstored, mem_replaced] at hu
    rcases hu with ⟨rfl, -⟩ | ⟨hu, -⟩
    · exact ⟨t, ht, hadvanced.follows⟩
    · exact ⟨u, hu, .refl u⟩

/-- Saving what an operation made moves the repository forward. -/
theorem forward_of_save {repository stored : InMemoryToolsetRepository} {tenantId : Id}
    {t t' : Toolset} {expectedRevision : Int} (ht : t ∈ repository.toolsets)
    (htenant : t.val.tenantId = tenantId) (hchanged : t.Changed t' expectedRevision)
    (hsave : repository.save tenantId t' = .ok stored) :
    Forward repository stored ∧ t' ∈ stored.toolsets := by
  rcases save_changed (getById_eq_some.2 ⟨ht, rfl, htenant⟩) hchanged hsave with
    ⟨rfl, rfl⟩ | ⟨hadvanced, hstored⟩
  · exact ⟨.refl _, ht⟩
  · refine ⟨forward_of_replaced ht hadvanced hstored, ?_⟩
    rw [hstored, mem_replaced]
    exact .inl ⟨rfl, t, ht, hadvanced.identity.1⟩

theorem save_ok {repository : InMemoryToolsetRepository} {tenantId : Id} {t t' : Toolset}
    {expectedRevision : Int} (ht : t ∈ repository.toolsets) (htenant : t.val.tenantId = tenantId)
    (hchanged : t.Changed t' expectedRevision) :
    ∃ stored, repository.save tenantId t' = .ok stored := by
  obtain ⟨hid, htenant', hslug, hkind, -, -⟩ := hchanged.identity
  have hfound : repository.getById tenantId t'.val.id = some t :=
    getById_eq_some.2 ⟨ht, hid, htenant⟩
  have hslugOwner : repository.getBySlug tenantId t'.val.slug = some t :=
    getBySlug_eq_some.2 ⟨ht, htenant, hslug⟩
  unfold save
  split
  · next h => exact absurd (htenant.symm.trans htenant') h
  split
  · next h =>
    rw [hfound] at h
    cases h
  next current hcurrent =>
    obtain rfl : t = current := Option.some.inj (hfound.symm.trans hcurrent)
    split
    · next e hupdate =>
      rcases hchanged with rfl | hadvanced
      · rw [requiresPersistenceUpdate_eq_false.2 rfl] at hupdate
        cases hupdate
      · rw [requiresPersistenceUpdate_eq_true.2
          ⟨hadvanced.identity, hadvanced.ne, hadvanced.revision⟩] at hupdate
        cases hupdate
    · exact ⟨_, rfl⟩
    · -- The toolset found under the slug, or as the system toolset, is the saved one.
      split
      · next h =>
        rw [hslugOwner] at h
        simp [ownedByOther, hid] at h
      split
      · next h =>
        have hsystem : repository.getAllPublished tenantId = some t :=
          getAllPublished_eq_some.2 ⟨ht, htenant, hkind.trans h.1⟩
        rw [hsystem] at h
        simp [ownedByOther, hid] at h
      · exact ⟨_, rfl⟩

theorem add_eq_ok {repository stored : InMemoryToolsetRepository} {tenantId : Id}
    {toolset : Toolset} (h : repository.add tenantId toolset = .ok stored) :
    stored.toolsets = repository.toolsets ++ [toolset] ∧ toolset.val.tenantId = tenantId := by
  unfold add at h
  split_ifs at h with htenant hid hslug hsystem
  cases h
  exact ⟨rfl, (not_ne_iff.1 htenant).symm⟩

/-! ## Commands -/

/-- A create that is accepted adds an explicit toolset under the slug it names. -/
theorem CreateToolset.execute_eq_ok {env : ToolsetEnv}
    {repository stored : InMemoryToolsetRepository} {command : CreateToolsetCommand}
    {answer : ToolsetProfile}
    (h : CreateToolset.execute env repository command = .ok (answer, stored)) :
    ∃ t : Toolset, stored.toolsets = repository.toolsets ++ [t] ∧ t.val.kind = .explicit ∧
      t.val.tenantId = command.context.tenantId ∧ t.val.slug = command.slug := by
  unfold CreateToolset.execute at h
  obtain ⟨t, hcreate, h⟩ := bind_eq_ok.1 h
  rw [raiseIf_bind_eq_ok] at h
  obtain ⟨-, h⟩ := h
  obtain ⟨stored', hadd, h⟩ := bind_eq_ok.1 h
  rw [mapError_eq_ok] at hcreate hadd
  unfold Toolset.createExplicit at hcreate
  obtain ⟨digest, -, hcreate⟩ := bind_eq_ok.1 hcreate
  rw [buildToolset_eq_ok] at hcreate
  split at h
  · cases h
  · cases h
    exact ⟨t, (add_eq_ok hadd).1, by rw [hcreate], by rw [hcreate], by rw [hcreate]⟩

/-- A change that is accepted moves the repository forward. -/
theorem ToolsetChange.forward {env : ToolsetEnv} {repository stored : InMemoryToolsetRepository}
    {c : ToolsetChange} {answer : ToolsetProfile}
    (h : c.execute env repository = .ok (answer, stored)) : Forward repository stored := by
  obtain ⟨t, t', hfound, hchanged, hsave, -⟩ := ToolsetChange.execute_eq_ok h
  obtain ⟨ht, -, htenant⟩ := getById_eq_some.1 hfound
  exact (forward_of_save ht htenant hchanged hsave).1

namespace EnsureAllPublishedToolset

theorem merged_eq_ok {repository stored : InMemoryToolsetRepository} {occurredAt : Time}
    {tenantId : Id} {principalIds : List String} {t' : Toolset}
    (h : merged repository occurredAt tenantId principalIds = .ok (t', stored)) :
    ∃ t, repository.getAllPublished tenantId = some t ∧ t.Changed t' t.val.revision ∧
      Forward repository stored := by
  unfold merged at h
  split at h
  · cases h
  next t hfound =>
    obtain ⟨u, hop, h⟩ := bind_eq_ok.1 h
    obtain ⟨stored', hsave, h⟩ := bind_eq_ok.1 h
    cases h
    rw [mapError_eq_ok] at hop hsave
    obtain ⟨ht, htenant, -⟩ := getAllPublished_eq_some.1 hfound
    have hchanged := Toolset.replaceGrants_changed hop
    exact ⟨t, hfound, hchanged, (forward_of_save ht htenant hchanged hsave).1⟩

/-- A toolset that the bootstrap creates. -/
structure NewSystem (tenantId : Id) (t : Toolset) : Prop where
  tenantId : t.val.tenantId = tenantId
  kind : t.val.kind = .allPublished
  status : t.val.status = .active
  sorted : sortedSet t.val.principalIds = t.val.principalIds

theorem newSystem_of_createAllPublished {toolsetId tenantId : Id} {createdBy : String}
    {createdAt : Time} {t : Toolset}
    (h : Toolset.createAllPublished toolsetId tenantId createdBy createdAt = .ok t) :
    NewSystem tenantId t := by
  unfold Toolset.createAllPublished at h
  obtain ⟨digest, -, h⟩ := bind_eq_ok.1 h
  rw [buildToolset_eq_ok] at h
  exact ⟨by rw [h], by rw [h], by rw [h], by rw [h]; rfl⟩

theorem created_eq_ok {env : ToolsetEnv} {tenantId : Id} {principalIds : List String}
    {t : Toolset} (h : created env tenantId principalIds = .ok t) : NewSystem tenantId t := by
  unfold created at h
  obtain ⟨t₀, hcreate, h⟩ := bind_eq_ok.1 h
  have hnew := newSystem_of_createAllPublished hcreate
  split at h
  · cases h
    exact hnew
  · have hchanged := Toolset.replaceGrants_changed h
    obtain ⟨-, htenant, -, hkind, -⟩ := hchanged.identity
    rcases hchanged with rfl | hadvanced
    · exact hnew
    · exact ⟨htenant.symm.trans hnew.tenantId, hkind.symm.trans hnew.kind,
        hadvanced.system hnew.kind hnew.status, hadvanced.follows.grants hnew.sorted⟩

/-- The bootstrap creates the system toolset, or moves the repository forward. -/
theorem execute_eq_ok {env : ToolsetEnv} {repository stored : InMemoryToolsetRepository}
    {tenantId : Id} {principalIds : List String} {t : Toolset}
    (h : execute env repository tenantId principalIds = .ok (t, stored)) :
    (NewSystem tenantId t ∧ stored.toolsets = repository.toolsets ++ [t]) ∨
      Forward repository stored := by
  unfold execute at h
  split at h
  · obtain ⟨-, -, -, hforward⟩ := merged_eq_ok h
    exact .inr hforward
  · obtain ⟨u, hcreated, h⟩ := bind_eq_ok.1 h
    rw [mapError_eq_ok] at hcreated
    split at h
    · next hadd =>
      cases h
      exact .inl ⟨created_eq_ok hcreated, (add_eq_ok hadd).1⟩
    · obtain ⟨-, -, -, hforward⟩ := merged_eq_ok h
      exact .inr hforward

end EnsureAllPublishedToolset

/-! ## Invariants of a run -/

/-- Every system toolset is active, with its principals in order. -/
def SystemReady (repository : InMemoryToolsetRepository) : Prop :=
  ∀ t ∈ repository.toolsets, t.val.kind = .allPublished →
    t.val.status = .active ∧ sortedSet t.val.principalIds = t.val.principalIds

/-- An explicit toolset of the tenant carries the reserved slug. -/
def SlugTaken (repository : InMemoryToolsetRepository) (tenantId : Id) : Prop :=
  ∃ t ∈ repository.toolsets,
    t.val.tenantId = tenantId ∧ t.val.slug = allPublishedSlug ∧ t.val.kind = .explicit

/-- The command is a create with the reserved slug in the tenant, and it commits. -/
def Issued.TakesSlug (issued : Issued) (repository : InMemoryToolsetRepository) (tenantId : Id) :
    Prop :=
  ∃ command stored, issued.command = .create command ∧ command.context.tenantId = tenantId ∧
    command.slug = allPublishedSlug ∧ issued.command.execute issued.env repository = .ok stored

theorem Forward.systemReady {repository stored : InMemoryToolsetRepository}
    (h : Forward repository stored) (hready : SystemReady repository) : SystemReady stored := by
  intro t' ht' hkind
  obtain ⟨t, ht, hfollows⟩ := h.known t' ht'
  have hkind' : t.val.kind = .allPublished := hfollows.identity.2.2.2.1.trans hkind
  obtain ⟨hactive, hsorted⟩ := hready t ht hkind'
  exact ⟨hfollows.system hkind' hactive, hfollows.grants hsorted⟩

theorem Forward.slugTaken {repository stored : InMemoryToolsetRepository} {tenantId : Id}
    (h : Forward repository stored) :
    SlugTaken stored tenantId ↔ SlugTaken repository tenantId := by
  constructor
  · rintro ⟨t', ht', htenant, hslug, hkind⟩
    obtain ⟨t, ht, hfollows⟩ := h.known t' ht'
    obtain ⟨-, htenant', hslug', hkind', -⟩ := hfollows.identity
    exact ⟨t, ht, htenant'.trans htenant, hslug'.trans hslug, hkind'.trans hkind⟩
  · rintro ⟨t, ht, htenant, hslug, hkind⟩
    obtain ⟨t', ht', hfollows⟩ := h.kept t ht
    obtain ⟨-, htenant', hslug', hkind', -⟩ := hfollows.identity
    exact ⟨t', ht', htenant'.symm.trans htenant, hslug'.symm.trans hslug, hkind'.symm.trans hkind⟩

theorem slugTaken_of_append {repository stored : InMemoryToolsetRepository} {tenantId : Id}
    {t : Toolset} (h : stored.toolsets = repository.toolsets ++ [t]) :
    SlugTaken stored tenantId ↔ SlugTaken repository tenantId ∨
      (t.val.tenantId = tenantId ∧ t.val.slug = allPublishedSlug ∧ t.val.kind = .explicit) := by
  simp only [SlugTaken, h, List.mem_append, List.mem_singleton, or_and_right, exists_or,
    exists_eq_left]

/-- One command keeps the system toolsets ready, and takes the slug only as `TakesSlug` says. -/
theorem after_invariants {repository : InMemoryToolsetRepository} (issued : Issued)
    (hready : SystemReady repository) (tenantId : Id) :
    SystemReady (repository.after issued) ∧
      (SlugTaken (repository.after issued) tenantId ↔
        SlugTaken repository tenantId ∨ issued.TakesSlug repository tenantId) := by
  obtain ⟨env, command⟩ := issued
  cases hexecute : command.execute env repository with
  | error e =>
    have hsame : repository.after ⟨env, command⟩ = repository := by simp only [after, hexecute]
    have hnot : ¬ Issued.TakesSlug ⟨env, command⟩ repository tenantId := by
      rintro ⟨_, stored, -, -, -, h⟩
      rw [hexecute] at h
      cases h
    rw [hsame]
    exact ⟨hready, (or_iff_left hnot).symm⟩
  | ok stored =>
    have hstored : repository.after ⟨env, command⟩ = stored := by simp only [after, hexecute]
    rw [hstored]
    -- Only a create can take the slug, and one that commits adds the toolset it names.
    have hother : Forward repository stored → (∀ c, command ≠ .create c) →
        SystemReady stored ∧ (SlugTaken stored tenantId ↔ SlugTaken repository tenantId ∨
          Issued.TakesSlug ⟨env, command⟩ repository tenantId) := by
      intro hforward hne
      refine ⟨hforward.systemReady hready, hforward.slugTaken.trans (or_iff_left ?_).symm⟩
      rintro ⟨c, _, hc, -⟩
      exact hne c hc
    cases command with
    | create c =>
      obtain ⟨⟨answer, stored'⟩, hc, rfl⟩ := map_eq_ok.1 hexecute
      obtain ⟨t, happend, hkind, htenant, hslug⟩ := CreateToolset.execute_eq_ok hc
      constructor
      · intro u hu huk
        rw [happend, List.mem_append, List.mem_singleton] at hu
        rcases hu with hu | rfl
        · exact hready u hu huk
        · rw [hkind] at huk
          cases huk
      · refine (slugTaken_of_append happend).trans (or_congr_right ?_)
        constructor
        · rintro ⟨h1, h2, -⟩
          exact ⟨c, stored', rfl, htenant ▸ h1, hslug ▸ h2, hexecute⟩
        · rintro ⟨c', _, h, h1, h2, -⟩
          cases h
          exact ⟨htenant.trans h1, hslug.trans h2, hkind⟩
    | change c =>
      obtain ⟨⟨answer, stored'⟩, hc, rfl⟩ := map_eq_ok.1 hexecute
      exact hother (ToolsetChange.forward hc) (by simp)
    | ensureAllPublished tenant principalIds =>
      obtain ⟨⟨t, stored'⟩, hc, rfl⟩ := map_eq_ok.1 hexecute
      rcases EnsureAllPublishedToolset.execute_eq_ok hc with ⟨hnew, happend⟩ | hforward
      · constructor
        · intro u hu huk
          rw [happend, List.mem_append, List.mem_singleton] at hu
          rcases hu with hu | rfl
          · exact hready u hu huk
          · exact ⟨hnew.status, hnew.sorted⟩
        · refine (slugTaken_of_append happend).trans (or_congr_right ?_)
          constructor
          · rintro ⟨-, -, h⟩
            rw [hnew.kind] at h
            cases h
          · rintro ⟨c', _, h, -⟩
            cases h
      · exact hother hforward (by simp)

/-- A create with the reserved slug in the tenant commits somewhere in the sequence. -/
def RunTakesSlug (repository : InMemoryToolsetRepository) (commands : List Issued)
    (tenantId : Id) : Prop :=
  ∃ before issued rest, commands = before ++ issued :: rest ∧
    issued.TakesSlug (repository.run before) tenantId

theorem runTakesSlug_cons {repository : InMemoryToolsetRepository} {issued : Issued}
    {commands : List Issued} {tenantId : Id} :
    RunTakesSlug repository (issued :: commands) tenantId ↔
      issued.TakesSlug repository tenantId ∨
        RunTakesSlug (repository.after issued) commands tenantId := by
  constructor
  · rintro ⟨before, c, rest, heq, htakes⟩
    cases before with
    | nil =>
      cases heq
      exact .inl htakes
    | cons b before =>
      cases heq
      exact .inr ⟨before, c, rest, rfl, htakes⟩
  · rintro (htakes | ⟨before, c, rest, rfl, htakes⟩)
    · exact ⟨[], issued, commands, rfl, htakes⟩
    · exact ⟨issued :: before, c, rest, rfl, htakes⟩

/-- After a run the slug is taken exactly when it was before, or a create of the run took it. -/
theorem run_invariants {repository : InMemoryToolsetRepository} (commands : List Issued)
    (hready : SystemReady repository) (tenantId : Id) :
    SystemReady (repository.run commands) ∧
      (SlugTaken (repository.run commands) tenantId ↔
        SlugTaken repository tenantId ∨ RunTakesSlug repository commands tenantId) := by
  induction commands generalizing repository with
  | nil =>
    refine ⟨hready, (or_iff_left ?_).symm⟩
    rintro ⟨before, c, rest, h, -⟩
    cases before <;> cases h
  | cons issued commands ih =>
    obtain ⟨hready', hstep⟩ := after_invariants issued hready tenantId
    obtain ⟨hready'', hrun⟩ := ih hready'
    refine ⟨hready'', hrun.trans ?_⟩
    rw [hstep, runTakesSlug_cons, or_assoc]

/-! ## The next bootstrap -/

/-- What the bootstrap of a tenant is to leave, and to return. -/
structure Bootstrapped (repository stored : InMemoryToolsetRepository) (tenantId : Id)
    (principalIds : List String) (t : Toolset) : Prop where
  mem : t ∈ stored.toolsets
  tenant : t.val.tenantId = tenantId
  kind : t.val.kind = .allPublished
  status : t.val.status = .active
  slug : t.val.slug = allPublishedSlug
  unique : ∀ u ∈ stored.toolsets, u.val.tenantId = tenantId → u.val.kind = .allPublished → u = t
  slugOwner : ∀ u ∈ stored.toolsets,
    u.val.tenantId = tenantId → u.val.slug = allPublishedSlug → u = t
  grants : ∀ u ∈ repository.toolsets, u.val.tenantId = tenantId → u.val.kind = .allPublished →
    ∀ g ∈ u.val.grants, g ∈ t.val.grants
  principals : ∀ p ∈ principalIds, p ∈ t.val.principalIds

/-- The clock is not behind where the bootstrap has a grant to add: it is not behind the
    toolset there is, or two readings for a new toolset are in their order. -/
def ClockReady (env : ToolsetEnv) (repository : InMemoryToolsetRepository) (tenantId : Id)
    (principalIds : List String) : Prop :=
  match repository.getAllPublished tenantId with
  | some t => (∃ p ∈ principalIds, p ∉ t.val.principalIds) → t.val.updatedAt ≤ env.clock 0
  | none => principalIds ≠ [] → env.clock 0 ≤ env.clock 1

/-- The generated identifier is a new one. -/
def ToolsetEnv.Fresh (env : ToolsetEnv) (repository : InMemoryToolsetRepository) : Prop :=
  isBlank env.newId = false ∧ ∀ t ∈ repository.toolsets, t.val.id ≠ env.newId

omit [Sha256] in
/-- The principals asked for are all granted exactly when the desired set is the present one. -/
theorem desired_eq_iff {present principalIds : List String}
    (hsorted : sortedSet present = present) :
    sortedSet (sortedSet (present ++ principalIds)) = present ↔
      ∀ p ∈ principalIds, p ∈ present := by
  rw [sortedSet_sortedSet]
  constructor
  · intro h p hp
    rw [← h, mem_sortedSet]
    exact List.mem_append_right _ hp
  · intro h
    rw [← hsorted]
    apply sortedSet_congr
    intro x
    rw [List.mem_append, mem_sortedSet, or_iff_left_of_imp (h x)]

/-- The principals granted before, and those asked for, are not blank. -/
theorem Toolset.desired_not_blank (t : Toolset) {principalIds : List String}
    (hprincipals : ∀ p ∈ principalIds, isBlank p = false) :
    ∀ p ∈ sortedSet (t.val.principalIds ++ principalIds), isBlank p = false := by
  intro p hp
  rw [mem_sortedSet, List.mem_append] at hp
  rcases hp with hp | hp
  · obtain ⟨g, hg, rfl⟩ := List.mem_map.1 hp
    have hvalid := g.property
    simp only [Valid, PostInit.checks, nonBlank, List.forall_mem_cons] at hvalid
    exact hvalid.2.2.1
  · exact hprincipals p hp

theorem slug_of_system (t : Toolset) (hkind : t.val.kind = .allPublished) :
    t.val.slug = allPublishedSlug :=
  t.sound.systemSlug hkind

/-- Once the reserved slug is taken, the tenant has no system toolset. -/
theorem getAllPublished_of_slugTaken {repository : InMemoryToolsetRepository} {tenantId : Id}
    (h : SlugTaken repository tenantId) : repository.getAllPublished tenantId = none := by
  obtain ⟨t, ht, htenant, hslug, hkind⟩ := h
  apply getAllPublished_eq_none.2
  intro u hu hutenant hukind
  obtain rfl := eq_of_slug hu ht (hutenant.trans htenant.symm)
    ((slug_of_system u hukind).trans hslug.symm)
  rw [hukind] at hkind
  cases hkind

theorem bootstrapped_of_mem {repository stored : InMemoryToolsetRepository} {tenantId : Id}
    {principalIds : List String} {t : Toolset} (ht : t ∈ stored.toolsets)
    (htenant : t.val.tenantId = tenantId) (hkind : t.val.kind = .allPublished)
    (hactive : t.val.status = .active)
    (hgrants : ∀ u ∈ repository.toolsets, u.val.tenantId = tenantId →
      u.val.kind = .allPublished → ∀ g ∈ u.val.grants, g ∈ t.val.grants)
    (hprincipals : ∀ p ∈ principalIds, p ∈ t.val.principalIds) :
    Bootstrapped repository stored tenantId principalIds t := by
  refine ⟨ht, htenant, hkind, hactive, slug_of_system t hkind, ?_, ?_, hgrants, hprincipals⟩
  · intro u hu hutenant hukind
    exact eq_of_system hu ht (hutenant.trans htenant.symm) hukind hkind
  · intro u hu hutenant huslug
    exact eq_of_slug hu ht (hutenant.trans htenant.symm)
      (huslug.trans (slug_of_system t hkind).symm)

namespace EnsureAllPublishedToolset

/-- A tenant with a system toolset: the second unit of work merges the grants. -/
theorem merged_ok {repository : InMemoryToolsetRepository} {occurredAt : Time} {tenantId : Id}
    {principalIds : List String} {t : Toolset} (hready : SystemReady repository)
    (hprincipals : ∀ p ∈ principalIds, isBlank p = false)
    (hfound : repository.getAllPublished tenantId = some t)
    (hclock : (∃ p ∈ principalIds, p ∉ t.val.principalIds) → t.val.updatedAt ≤ occurredAt) :
    ∃ t' stored, merged repository occurredAt tenantId principalIds = .ok (t', stored) ∧
      t' ∈ stored.toolsets ∧ t.SameIdentity t' ∧ t'.val.status = .active ∧
      (∀ g ∈ t.val.grants, g ∈ t'.val.grants) ∧ ∀ p ∈ principalIds, p ∈ t'.val.principalIds := by
  obtain ⟨ht, htenant, hkind⟩ := getAllPublished_eq_some.1 hfound
  obtain ⟨hactive, hsorted⟩ := hready t ht hkind
  have hdesired := t.desired_not_blank hprincipals
  have hclock' : sortedSet (sortedSet (t.val.principalIds ++ principalIds)) = t.val.principalIds ∨
      t.val.updatedAt ≤ occurredAt := by
    by_cases hall : ∀ p ∈ principalIds, p ∈ t.val.principalIds
    · exact .inl ((desired_eq_iff hsorted).2 hall)
    · push Not at hall
      exact .inr (hclock hall)
  have hactor : isBlank "system" = false := by decide
  obtain ⟨t', hop, hids, hstatus, hgrants⟩ := Toolset.replaceGrants_ok hdesired hactor hclock'
  have hchanged := Toolset.replaceGrants_changed hop
  obtain ⟨stored, hsave⟩ := save_ok ht htenant hchanged
  refine ⟨t', stored, ?_, (forward_of_save ht htenant hchanged hsave).2, hchanged.identity,
    hstatus.trans hactive, ?_, ?_⟩
  · simp only [merged, hfound, hop, hsave, Except.mapError, bind, Except.bind, pure, Except.pure]
  · intro g hg
    apply hgrants g hg
    rw [mem_sortedSet, List.mem_append]
    exact .inl (List.mem_map.2 ⟨g, hg, rfl⟩)
  · intro p hp
    rw [hids, mem_sortedSet, mem_sortedSet, List.mem_append]
    exact .inr hp

/-- The clock is behind, and the toolset there is lacks a principal. -/
theorem merged_refused {repository : InMemoryToolsetRepository} {occurredAt : Time} {tenantId : Id}
    {principalIds : List String} {t : Toolset} (hready : SystemReady repository)
    (hprincipals : ∀ p ∈ principalIds, isBlank p = false)
    (hfound : repository.getAllPublished tenantId = some t)
    (hnew : ∃ p ∈ principalIds, p ∉ t.val.principalIds) (hclock : occurredAt < t.val.updatedAt) :
    ∃ e, merged repository occurredAt tenantId principalIds = .error e := by
  obtain ⟨ht, -, hkind⟩ := getAllPublished_eq_some.1 hfound
  have hdesired := t.desired_not_blank hprincipals
  have hne : sortedSet (sortedSet (t.val.principalIds ++ principalIds)) ≠ t.val.principalIds := by
    intro h
    obtain ⟨p, hp, hpn⟩ := hnew
    exact hpn ((desired_eq_iff (hready t ht hkind).2).1 h p hp)
  refine ⟨.valueError "toolset mutation time must not precede updated_at", ?_⟩
  simp only [merged, hfound, Toolset.replaceGrants_refused hdesired hne hclock, Except.mapError,
    bind, Except.bind, ToolsetError.message]

theorem createAllPublished_ok [Sha256.Lawful] {toolsetId tenantId : Id} {createdBy : String}
    (createdAt : Time) (hid : isBlank toolsetId = false) (htenant : isBlank tenantId = false)
    (hcreator : isBlank createdBy = false) :
    ∃ t, Toolset.createAllPublished toolsetId tenantId createdBy createdAt = .ok t ∧
      t.val.id = toolsetId ∧ t.val.updatedAt = createdAt ∧ t.val.grants = [] := by
  refine ⟨⟨_, valid_iff_sound.2 ?_⟩, bind_eq_ok.2 ⟨_, rfl, buildToolset_eq_ok.2 rfl⟩, rfl, rfl,
    rfl⟩
  constructor
  case ids => exact ⟨hid, htenant⟩
  case name =>
    change isBlank "All Published Tools" = false ∧ "All Published Tools".toList.length ≤ 128
    decide +kernel
  case createdBy => exact hcreator
  case slug =>
    change allPublishedSlug.toList.length ≤ 64 ∧ isKebabCase allPublishedSlug = true
    decide +kernel
  case revision => exact Int.one_pos
  case digestText => exact Sha256.Lawful.digest _
  case updatedAt => exact le_refl _
  case systemSlug => exact fun _ => rfl
  case systemMembers => exact fun _ => rfl
  case explicitMembers => exact fun h => nomatch h
  case members => exact ⟨(fun _ h => nomatch h), List.nodup_nil⟩
  case grants => exact ⟨(fun _ h => nomatch h), List.nodup_nil⟩
  case digest => rfl

theorem created_ok [Sha256.Lawful] {env : ToolsetEnv} {tenantId : Id} {principalIds : List String}
    (hid : isBlank env.newId = false) (htenant : isBlank tenantId = false)
    (hprincipals : ∀ p ∈ principalIds, isBlank p = false)
    (hclock : principalIds ≠ [] → env.clock 0 ≤ env.clock 1) :
    ∃ t, created env tenantId principalIds = .ok t ∧ t.val.id = env.newId ∧
      ∀ p ∈ principalIds, p ∈ t.val.principalIds := by
  have hsystem : isBlank "system" = false := by decide
  obtain ⟨t, hcreate, htid, htime, -⟩ := createAllPublished_ok (env.clock 0) hid htenant hsystem
  by_cases hnil : principalIds = []
  · refine ⟨t, ?_, htid, ?_⟩
    · simp only [created, hcreate, hnil, if_true, bind, Except.bind, pure, Except.pure]
    · rw [hnil]
      exact fun _ h => nomatch h
  · obtain ⟨t', hop, hids, -, -⟩ := Toolset.replaceGrants_ok hprincipals hsystem
      (.inr (htime ▸ hclock hnil))
    refine ⟨t', ?_, ?_, ?_⟩
    · simp only [created, hcreate, hnil, if_false, bind, Except.bind]
      exact hop
    · exact (Toolset.replaceGrants_changed hop).identity.1.symm.trans htid
    · intro p hp
      rw [hids, mem_sortedSet]
      exact hp

theorem created_refused [Sha256.Lawful] {env : ToolsetEnv} {tenantId : Id}
    {principalIds : List String} (hid : isBlank env.newId = false)
    (htenant : isBlank tenantId = false) (hprincipals : ∀ p ∈ principalIds, isBlank p = false)
    (hnonempty : principalIds ≠ []) (hclock : env.clock 1 < env.clock 0) :
    ∃ e, created env tenantId principalIds = .error e := by
  have hsystem : isBlank "system" = false := by decide
  obtain ⟨t, hcreate, -, htime, hgrants⟩ :=
    createAllPublished_ok (env.clock 0) hid htenant hsystem
  have hne : sortedSet principalIds ≠ t.val.principalIds := by
    simp only [ToolsetFields.principalIds, hgrants, List.map_nil, ne_eq, sortedSet_eq_nil]
    exact hnonempty
  refine ⟨.valueError "toolset mutation time must not precede updated_at", ?_⟩
  simp only [created, hcreate, hnonempty, if_false, bind, Except.bind]
  exact Toolset.replaceGrants_refused hprincipals hne (htime ▸ hclock)

theorem add_ok {repository : InMemoryToolsetRepository} {t : Toolset}
    (hid : ∀ u ∈ repository.toolsets, u.val.id ≠ t.val.id)
    (hslug : repository.getBySlug t.val.tenantId t.val.slug = none)
    (hsystem : repository.getAllPublished t.val.tenantId = none) :
    ∃ stored, repository.add t.val.tenantId t = .ok stored := by
  unfold add
  split
  · next h => exact absurd rfl h
  split
  · next h =>
    obtain ⟨u, hu, huid⟩ := h
    exact absurd huid (hid u hu)
  split
  · next h => exact absurd hslug h
  split
  · next h => exact absurd hsystem h.2
  · exact ⟨_, rfl⟩

/-- A toolset of the repository has the tenant and the slug: nothing can be added there. -/
theorem add_refused {repository : InMemoryToolsetRepository} {tenantId : Id} {t : Toolset}
    (hslug : repository.getBySlug tenantId t.val.slug ≠ none) :
    ∃ e, repository.add tenantId t = .error e := by
  unfold add
  split
  · exact ⟨_, rfl⟩
  split
  · exact ⟨_, rfl⟩
  · exact ⟨_, rfl⟩

/-- Where the reserved slug is taken, the retry finds no winner. -/
theorem execute_of_slugTaken (env : ToolsetEnv) {repository : InMemoryToolsetRepository}
    {tenantId : Id} (principalIds : List String) (h : SlugTaken repository tenantId) :
    ∃ e, execute env repository tenantId principalIds = .error e := by
  have hnone := getAllPublished_of_slugTaken h
  cases hcreated : created env tenantId principalIds with
  | error e =>
    refine ⟨.valueError e.message, ?_⟩
    simp only [execute, hnone, hcreated, Except.mapError, bind, Except.bind]
  | ok t =>
    obtain ⟨u, hu, hutenant, huslug, -⟩ := h
    have hslug : repository.getBySlug tenantId t.val.slug ≠ none := by
      rw [slug_of_system t (created_eq_ok hcreated).kind]
      rw [getBySlug_eq_some.2 ⟨hu, hutenant, huslug⟩]
      simp
    obtain ⟨e, hadd⟩ := add_refused hslug
    refine ⟨.nexus .toolsetConflict "all_published bootstrap lost uniqueness race", ?_⟩
    simp only [execute, hnone, hcreated, Except.mapError, bind, Except.bind, hadd, merged]
    rfl

/-- The bootstrap does what it is for exactly when no explicit toolset carries the reserved
    slug and the clock is not behind. -/
theorem execute_bootstraps_iff [Sha256.Lawful] {env : ToolsetEnv}
    {repository : InMemoryToolsetRepository} {tenantId : Id} {principalIds : List String}
    (hready : SystemReady repository) (hfresh : env.Fresh repository)
    (htenant : isBlank tenantId = false) (hprincipals : ∀ p ∈ principalIds, isBlank p = false) :
    (∃ t stored, execute env repository tenantId principalIds = .ok (t, stored) ∧
        Bootstrapped repository stored tenantId principalIds t) ↔
      ¬ SlugTaken repository tenantId ∧ ClockReady env repository tenantId principalIds := by
  constructor
  · rintro ⟨t, stored, hok, -⟩
    -- With the slug taken every bootstrap fails, whatever the clock says.
    have hnotTaken : ¬ SlugTaken repository tenantId := by
      intro htaken
      obtain ⟨e, herror⟩ := execute_of_slugTaken env principalIds htaken
      rw [herror] at hok
      cases hok
    refine ⟨hnotTaken, ?_⟩
    unfold ClockReady
    cases hfound : repository.getAllPublished tenantId with
    | some u =>
      intro hnew
      by_contra hclock
      -- Merging dates the new revision, and it may not be older than the one before.
      obtain ⟨e, herror⟩ := merged_refused hready hprincipals hfound hnew (not_le.1 hclock)
      simp only [execute, hfound, herror] at hok
      cases hok
    | none =>
      intro hnonempty
      by_contra hclock
      obtain ⟨e, herror⟩ := created_refused hfresh.1 htenant hprincipals hnonempty
        (not_le.1 hclock)
      simp only [execute, hfound, herror, Except.mapError, bind, Except.bind] at hok
      cases hok
  · rintro ⟨hnotTaken, hclock⟩
    unfold ClockReady at hclock
    cases hfound : repository.getAllPublished tenantId with
    | some u =>
      obtain ⟨hu, hutenant, hukind⟩ := getAllPublished_eq_some.1 hfound
      rw [hfound] at hclock
      obtain ⟨t, stored, hmerged, ht, hsame, hactive, hgrants, hgranted⟩ :=
        merged_ok hready hprincipals hfound hclock
      refine ⟨t, stored, ?_, ?_⟩
      · simp only [execute, hfound, hmerged]
      · have htt : t.val.tenantId = tenantId := hsame.2.1.symm.trans hutenant
        have htk : t.val.kind = .allPublished := hsame.2.2.2.1.symm.trans hukind
        refine bootstrapped_of_mem ht htt htk hactive ?_ hgranted
        intro v hv hvtenant hvkind
        rw [eq_of_system hv hu (hvtenant.trans hutenant.symm) hvkind hukind]
        exact hgrants
    | none =>
      rw [hfound] at hclock
      obtain ⟨t, hcreated, hid, hgranted⟩ := created_ok hfresh.1 htenant hprincipals hclock
      obtain ⟨htt, htk, hactive, -⟩ := created_eq_ok hcreated
      have hnone := getAllPublished_eq_none.1 hfound
      -- Its slug is free: another system toolset there is none, and no explicit one has taken it.
      have hslug : repository.getBySlug t.val.tenantId t.val.slug = none := by
        rw [getBySlug_eq_none, slug_of_system t htk, htt]
        intro v hv hvtenant hvslug
        cases hvkind : v.val.kind with
        | allPublished => exact hnone v hv hvtenant hvkind
        | explicit => exact hnotTaken ⟨v, hv, hvtenant, hvslug, hvkind⟩
      obtain ⟨stored, hadd⟩ := add_ok (fun v hv => hid ▸ hfresh.2 v hv) hslug (htt ▸ hfound)
      rw [htt] at hadd
      refine ⟨t, stored, ?_, ?_⟩
      · simp only [execute, hfound, hcreated, Except.mapError, bind, Except.bind, hadd, pure,
          Except.pure]
      · have ht : t ∈ stored.toolsets := by
          rw [(add_eq_ok hadd).1]
          simp
        refine bootstrapped_of_mem ht htt htk hactive ?_ hgranted
        intro v hv hvtenant hvkind
        exact absurd hvkind (hnone v hv hvtenant)

end EnsureAllPublishedToolset

/-- For every sequence of commands on an empty repository, the next bootstrap of a tenant does
    what it is for exactly when no create of the sequence took the reserved slug there and the
    clock is not behind. -/
theorem bootstrap_succeeds_iff [Sha256.Lawful] (commands : List Issued) (env : ToolsetEnv)
    (tenantId : Id) (principalIds : List String)
    (hfresh : env.Fresh (empty.run commands)) (htenant : isBlank tenantId = false)
    (hprincipals : ∀ p ∈ principalIds, isBlank p = false) :
    (∃ t stored, EnsureAllPublishedToolset.execute env (empty.run commands) tenantId principalIds =
          .ok (t, stored) ∧
        Bootstrapped (empty.run commands) stored tenantId principalIds t) ↔
      ¬ RunTakesSlug empty commands tenantId ∧
        ClockReady env (empty.run commands) tenantId principalIds := by
  have hempty : SystemReady empty := fun _ h => nomatch h
  obtain ⟨hready, htaken⟩ := run_invariants commands hempty tenantId
  have hnot : ¬ SlugTaken empty tenantId := fun ⟨_, h, _⟩ => nomatch h
  rw [EnsureAllPublishedToolset.execute_bootstraps_iff hready hfresh htenant hprincipals, htaken,
    or_iff_right hnot]

end Bootstrap

/-! ### An administrator takes the reserved slug -/

section ReservedSlug

attribute [local instance] zeroSha256

theorem zeroSha256_lawful : Sha256.Lawful := by
  have h : isNotDigest (Sha256.hexdigest "") = false := by decide +kernel
  exact ⟨fun _ => h⟩

/-- The toolset of tenant 1 that an administrator creates under a slug. -/
def createUnder (slug : String) : Issued where
  env := ⟨"toolset-1", fun _ => 5, ⟨fun _ _ => [], fun _ => []⟩⟩
  command := .create
    { context := ⟨"r", "t", "tenant-1", "admin-1", "token", "admin_user"⟩
      slug := slug
      name := "Everything" }

/-- The start of the application, one tick later. -/
def startEnv : ToolsetEnv := ⟨"toolset-2", fun _ => 6, ⟨fun _ _ => [], fun _ => []⟩⟩

theorem bootstrap_succeeds_iff_support :
    (∃ t stored, EnsureAllPublishedToolset.execute startEnv
          (InMemoryToolsetRepository.empty.run [createUnder "support"]) "tenant-1" ["svc"] =
            .ok (t, stored) ∧
        Bootstrapped (InMemoryToolsetRepository.empty.run [createUnder "support"]) stored
          "tenant-1" ["svc"] t) ↔
      ¬ RunTakesSlug .empty [createUnder "support"] "tenant-1" ∧
        ClockReady startEnv (InMemoryToolsetRepository.empty.run [createUnder "support"])
          "tenant-1" ["svc"] :=
  haveI := zeroSha256_lawful
  bootstrap_succeeds_iff [createUnder "support"] startEnv "tenant-1" ["svc"]
    ⟨by decide +kernel, by decide +kernel⟩ (by decide +kernel) (by decide +kernel)

/-- The administrator's toolset is accepted, and the next start of the application fails. -/
theorem reserved_slug_blocks_bootstrap :
    (InMemoryToolsetRepository.empty.run [createUnder "all-published"]).toolsets.length = 1 ∧
      ¬ ∃ t stored, EnsureAllPublishedToolset.execute startEnv
        (InMemoryToolsetRepository.empty.run [createUnder "all-published"]) "tenant-1" [] =
          .ok (t, stored) := by
  have hrun : (InMemoryToolsetRepository.empty.run
        [createUnder "all-published"]).toolsets.length = 1 ∧
      (EnsureAllPublishedToolset.execute startEnv
        (InMemoryToolsetRepository.empty.run [createUnder "all-published"])
          "tenant-1" []).isOk = false := by
    decide +kernel
  refine ⟨hrun.1, ?_⟩
  rintro ⟨t, stored, h⟩
  have hfails := hrun.2
  rw [h] at hfails
  cases hfails

end ReservedSlug

end NexusMcp
