-- SUMMARY: The ports of the toolset commands: the catalogue snapshots and the in-memory repository.
import NexusMcp.Toolsets.Domain

/-! # Toolset Repository -/

namespace NexusMcp

/-! ## Catalogue snapshots -/

inductive ToolsetMemberAvailability where
  | available
  | toolDisabled
  | noPublishedVersion
deriving Repr, DecidableEq

structure ToolsetCatalogSnapshotFields where
  toolId : Id
  tenantId : Id
  availability : ToolsetMemberAvailability
  publishedToolVersionId : Option Id
  canonicalName : Option String := none
  description : Option String := none
  serializedSchemaSize : Int := 0
deriving Repr, DecidableEq

/-- The truth value of an optional text. -/
def isEmptyText (value : Option String) : Bool := value.getD "" = ""

instance : PostInit ToolsetCatalogSnapshotFields where
  checks s := [
    (isBlank s.toolId ∨ isBlank s.tenantId, "catalog snapshot ids must not be blank"),
    (s.availability = .available ∧ isEmptyText s.publishedToolVersionId,
      "available catalog snapshot requires published version id"),
    (s.availability ≠ .available ∧ s.publishedToolVersionId ≠ none,
      "unavailable catalog snapshot must not expose published version id"),
    (s.serializedSchemaSize < 0, "catalog snapshot schema size must not be negative")]

abbrev ToolsetCatalogSnapshot := Checked ToolsetCatalogSnapshotFields

/-- What the toolset commands read of the catalogue, in their own transaction. -/
structure ToolsetCatalogReader where
  listMemberSnapshots : Id → List Id → List ToolsetCatalogSnapshot
  listPublishedSnapshots : Id → List ToolsetCatalogSnapshot

/-! ## Saving -/

section Repository

variable [Sha256]

/-- The fields of a toolset that no operation changes. -/
def Toolset.SameIdentity (current replacement : Toolset) : Prop :=
  current.val.id = replacement.val.id ∧ current.val.tenantId = replacement.val.tenantId ∧
    current.val.slug = replacement.val.slug ∧ current.val.kind = replacement.val.kind ∧
    current.val.createdBy = replacement.val.createdBy ∧
    current.val.createdAt = replacement.val.createdAt

instance (current replacement : Toolset) : Decidable (current.SameIdentity replacement) :=
  inferInstanceAs (Decidable (_ ∧ _))

@[refl, simp] theorem Toolset.SameIdentity.refl (t : Toolset) : t.SameIdentity t :=
  ⟨rfl, rfl, rfl, rfl, rfl, rfl⟩

theorem Toolset.SameIdentity.trans {t u v : Toolset} (h : t.SameIdentity u)
    (h' : u.SameIdentity v) : t.SameIdentity v := by
  obtain ⟨hid, htenant, hslug, hkind, hcreator, htime⟩ := h
  obtain ⟨hid', htenant', hslug', hkind', hcreator', htime'⟩ := h'
  exact ⟨hid.trans hid', htenant.trans htenant', hslug.trans hslug', hkind.trans hkind',
    hcreator.trans hcreator', htime.trans htime'⟩

/-- `requires_persistence_update`. -/
def requiresPersistenceUpdate (current replacement : Toolset) : Except ToolsetError Bool :=
  if ¬ current.SameIdentity replacement then
    .error (.valueError "toolset stable identity fields are immutable")
  else if replacement = current then .ok false
  else if replacement.val.revision ≠ current.val.revision + 1 then
    .error (.revisionConflict "toolset revision transition was invalid")
  else .ok true

theorem requiresPersistenceUpdate_eq_true {current replacement : Toolset} :
    requiresPersistenceUpdate current replacement = .ok true ↔
      current.SameIdentity replacement ∧ replacement ≠ current ∧
        replacement.val.revision = current.val.revision + 1 := by
  unfold requiresPersistenceUpdate
  split_ifs <;> simp_all

theorem requiresPersistenceUpdate_eq_false {current replacement : Toolset} :
    requiresPersistenceUpdate current replacement = .ok false ↔ replacement = current := by
  unfold requiresPersistenceUpdate
  constructor
  · intro h
    split_ifs at h with hid heq
    · exact heq
    · cases h
  · rintro rfl
    simp

/-! ## The in-memory repository -/

/-- The toolsets by insertion order. What `_validate_seed_uniqueness` checks of a seed
    holds of every repository. -/
structure InMemoryToolsetRepository where
  toolsets : List Toolset
  ids : (toolsets.map (·.val.id)).Nodup
  slugs : (toolsets.map fun t => (t.val.tenantId, t.val.slug)).Nodup
  system : ((toolsets.filter (·.val.kind = .allPublished)).map (·.val.tenantId)).Nodup

namespace InMemoryToolsetRepository

def empty : InMemoryToolsetRepository where
  toolsets := []
  ids := List.nodup_nil
  slugs := List.nodup_nil
  system := List.nodup_nil

def getById (self : InMemoryToolsetRepository) (tenantId toolsetId : Id) : Option Toolset :=
  match self.toolsets.find? (·.val.id = toolsetId) with
  | some toolset => if toolset.val.tenantId = tenantId then some toolset else none
  | none => none

def getForUpdate (self : InMemoryToolsetRepository) (tenantId toolsetId : Id) : Option Toolset :=
  self.getById tenantId toolsetId

def getBySlug (self : InMemoryToolsetRepository) (tenantId : Id) (slug : String) :
    Option Toolset :=
  self.toolsets.find? fun t => t.val.tenantId = tenantId ∧ t.val.slug = slug

def getAllPublished (self : InMemoryToolsetRepository) (tenantId : Id) : Option Toolset :=
  self.toolsets.find? fun t => t.val.tenantId = tenantId ∧ t.val.kind = .allPublished

def listByTenant (self : InMemoryToolsetRepository) (tenantId : Id) : List Toolset :=
  (self.toolsets.filter (·.val.tenantId = tenantId)).insertionSort (·.val.slug ≤ ·.val.slug)

def listGrantedActive (self : InMemoryToolsetRepository) (tenantId : Id) (principalId : String) :
    List Toolset :=
  (self.listByTenant tenantId).filter fun t =>
    t.val.status = .active ∧ principalId ∈ t.val.principalIds

/-! ### Lookups -/

/-- Two toolsets of the repository with one id are the same. -/
theorem eq_of_id {self : InMemoryToolsetRepository} {t u : Toolset} (ht : t ∈ self.toolsets)
    (hu : u ∈ self.toolsets) (h : t.val.id = u.val.id) : t = u :=
  List.inj_on_of_nodup_map self.ids ht hu h

/-- Two toolsets of a tenant with one slug are the same. -/
theorem eq_of_slug {self : InMemoryToolsetRepository} {t u : Toolset} (ht : t ∈ self.toolsets)
    (hu : u ∈ self.toolsets) (htenant : t.val.tenantId = u.val.tenantId)
    (hslug : t.val.slug = u.val.slug) : t = u :=
  List.inj_on_of_nodup_map self.slugs ht hu (Prod.ext htenant hslug)

/-- A tenant has one system toolset. -/
theorem eq_of_system {self : InMemoryToolsetRepository} {t u : Toolset} (ht : t ∈ self.toolsets)
    (hu : u ∈ self.toolsets) (htenant : t.val.tenantId = u.val.tenantId)
    (htk : t.val.kind = .allPublished) (huk : u.val.kind = .allPublished) : t = u := by
  apply List.inj_on_of_nodup_map self.system _ _ htenant
  · simp [ht, htk]
  · simp [hu, huk]

theorem getById_eq_some {self : InMemoryToolsetRepository} {tenantId toolsetId : Id}
    {t : Toolset} : self.getById tenantId toolsetId = some t ↔
      t ∈ self.toolsets ∧ t.val.id = toolsetId ∧ t.val.tenantId = tenantId := by
  have hfind : ∀ u, self.toolsets.find? (·.val.id = toolsetId) = some u ↔
      u ∈ self.toolsets ∧ u.val.id = toolsetId := by
    intro u
    rw [find?_eq_some_of_unique]
    · simp
    · intro x hx y hy hpx hpy
      simp only [decide_eq_true_eq] at hpx hpy
      exact self.eq_of_id hx hy (hpx.trans hpy.symm)
  unfold getById
  constructor
  · intro h
    split at h
    · next u hu =>
      split at h
      · next htenant =>
        cases h
        exact ⟨((hfind t).1 hu).1, ((hfind t).1 hu).2, htenant⟩
      · cases h
    · cases h
  · rintro ⟨ht, hid, htenant⟩
    simp [(hfind t).2 ⟨ht, hid⟩, htenant]

theorem getBySlug_eq_some {self : InMemoryToolsetRepository} {tenantId : Id} {slug : String}
    {t : Toolset} : self.getBySlug tenantId slug = some t ↔
      t ∈ self.toolsets ∧ t.val.tenantId = tenantId ∧ t.val.slug = slug := by
  unfold getBySlug
  rw [find?_eq_some_of_unique]
  · simp
  · intro x hx y hy hpx hpy
    simp only [decide_eq_true_eq] at hpx hpy
    exact self.eq_of_slug hx hy (hpx.1.trans hpy.1.symm) (hpx.2.trans hpy.2.symm)

theorem getBySlug_eq_none {self : InMemoryToolsetRepository} {tenantId : Id} {slug : String} :
    self.getBySlug tenantId slug = none ↔
      ∀ t ∈ self.toolsets, t.val.tenantId = tenantId → t.val.slug ≠ slug := by
  simp [getBySlug, List.find?_eq_none]

theorem getAllPublished_eq_some {self : InMemoryToolsetRepository} {tenantId : Id}
    {t : Toolset} : self.getAllPublished tenantId = some t ↔
      t ∈ self.toolsets ∧ t.val.tenantId = tenantId ∧ t.val.kind = .allPublished := by
  unfold getAllPublished
  rw [find?_eq_some_of_unique]
  · simp
  · intro x hx y hy hpx hpy
    simp only [decide_eq_true_eq] at hpx hpy
    exact self.eq_of_system hx hy (hpx.1.trans hpy.1.symm) hpx.2 hpy.2

theorem getAllPublished_eq_none {self : InMemoryToolsetRepository} {tenantId : Id} :
    self.getAllPublished tenantId = none ↔
      ∀ t ∈ self.toolsets, t.val.tenantId = tenantId → t.val.kind ≠ .allPublished := by
  simp [getAllPublished, List.find?_eq_none]

/-! ### Changes -/

/-- The repository with one more toolset. -/
def insert (self : InMemoryToolsetRepository) (toolset : Toolset)
    (hid : ∀ t ∈ self.toolsets, t.val.id ≠ toolset.val.id)
    (hslug : self.getBySlug toolset.val.tenantId toolset.val.slug = none)
    (hsystem : toolset.val.kind = .allPublished →
      self.getAllPublished toolset.val.tenantId = none) : InMemoryToolsetRepository where
  toolsets := self.toolsets ++ [toolset]
  ids := by
    simp only [List.map_append, List.map_cons, List.map_nil]
    refine self.ids.append (List.nodup_singleton _) ?_
    simpa [List.disjoint_singleton] using hid
  slugs := by
    simp only [List.map_append, List.map_cons, List.map_nil]
    refine self.slugs.append (List.nodup_singleton _) ?_
    simpa [List.disjoint_singleton] using getBySlug_eq_none.1 hslug
  system := by
    by_cases hkind : toolset.val.kind = .allPublished
    · simp only [List.filter_append, List.map_append]
      refine self.system.append (by simp [List.filter, hkind]) ?_
      have hnone := getAllPublished_eq_none.1 (hsystem hkind)
      simp only [hkind, List.filter, decide_true, List.map_cons, List.map_nil,
        List.disjoint_singleton, List.mem_map, List.mem_filter, decide_eq_true_eq, not_exists,
        not_and]
      rintro t ⟨ht, htk⟩ htenant
      exact hnone t ht htenant htk
    · simpa [List.filter_append, List.filter, hkind] using self.system

def add (self : InMemoryToolsetRepository) (tenantId : Id) (toolset : Toolset) :
    Except ToolsetError InMemoryToolsetRepository :=
  if htenant : tenantId ≠ toolset.val.tenantId then
    .error (.valueError "entity tenant does not match repository tenant scope")
  else if hid : ∃ t ∈ self.toolsets, t.val.id = toolset.val.id then
    .error (.valueError "toolset id already exists")
  else if hslug : self.getBySlug tenantId toolset.val.slug ≠ none then
    .error (.valueError "toolset slug already exists in tenant")
  else if hsystem : toolset.val.kind = .allPublished ∧ self.getAllPublished tenantId ≠ none then
    .error (.valueError "all_published toolset already exists in tenant")
  else .ok (self.insert toolset (by simpa using hid)
    (by simp only [ne_eq, not_not] at htenant hslug; exact htenant ▸ hslug)
    (by
      intro hkind
      simp only [ne_eq, not_not] at htenant
      by_contra hsome
      exact hsystem ⟨hkind, htenant ▸ hsome⟩))

/-- The rows of the repository, with a toolset in the place of the one of its id. -/
def replaced (self : InMemoryToolsetRepository) (toolset : Toolset) : List Toolset :=
  self.toolsets.map fun t => if t.val.id = toolset.val.id then toolset else t

theorem map_replaced {β : Type} {self : InMemoryToolsetRepository} {current toolset : Toolset}
    (hcurrent : current ∈ self.toolsets) (hid : current.val.id = toolset.val.id)
    (key : Toolset → β) (hkey : key current = key toolset) :
    (self.replaced toolset).map key = self.toolsets.map key := by
  simp only [replaced, List.map_map, List.map_inj_left, Function.comp_apply]
  intro t ht
  split
  · next h =>
    rw [self.eq_of_id ht hcurrent (h.trans hid.symm)]
    exact hkey.symm
  · rfl

theorem filter_replaced {self : InMemoryToolsetRepository} {current toolset : Toolset}
    (hcurrent : current ∈ self.toolsets) (hsame : current.SameIdentity toolset) :
    ((self.replaced toolset).filter (·.val.kind = .allPublished)).map (·.val.tenantId) =
      (self.toolsets.filter (·.val.kind = .allPublished)).map (·.val.tenantId) := by
  have h : ∀ rows : List Toolset,
      (rows.filter (·.val.kind = .allPublished)).map (·.val.tenantId) =
        ((rows.map fun t => (t.val.kind, t.val.tenantId)).filter
          (·.1 = .allPublished)).map (·.2) := by
    intro rows
    simp only [List.filter_map, List.map_map, Function.comp_def]
  obtain ⟨hid, htenant, -, hkind, -, -⟩ := hsame
  rw [h, h, map_replaced hcurrent hid (fun t => (t.val.kind, t.val.tenantId))
    (Prod.ext hkind htenant)]

/-- The repository with a toolset in the place of the one it came from. -/
def replace (self : InMemoryToolsetRepository) (current toolset : Toolset)
    (hcurrent : current ∈ self.toolsets) (hsame : current.SameIdentity toolset) :
    InMemoryToolsetRepository where
  toolsets := self.replaced toolset
  ids := by
    simp only [map_replaced hcurrent hsame.1 (·.val.id) hsame.1]
    exact self.ids
  slugs := by
    obtain ⟨hid, htenant, hslug, -⟩ := hsame
    simp only [map_replaced hcurrent hid (fun t => (t.val.tenantId, t.val.slug))
      (Prod.ext htenant hslug)]
    exact self.slugs
  system := by
    simp only [filter_replaced hcurrent hsame]
    exact self.system

/-- The toolset that a lookup found belongs to another id. -/
def ownedByOther (owner : Option Toolset) (toolsetId : Id) : Bool :=
  match owner with
  | some other => other.val.id ≠ toolsetId
  | none => false

def save (self : InMemoryToolsetRepository) (tenantId : Id) (toolset : Toolset) :
    Except ToolsetError InMemoryToolsetRepository :=
  if tenantId ≠ toolset.val.tenantId then
    .error (.valueError "entity tenant does not match repository tenant scope")
  else match hcurrent : self.getById tenantId toolset.val.id with
    | none => .error (.valueError "toolset does not exist in tenant")
    | some current =>
      match hupdate : requiresPersistenceUpdate current toolset with
      | .error e => .error e
      | .ok false => .ok self
      | .ok true =>
        if ownedByOther (self.getBySlug tenantId toolset.val.slug) toolset.val.id then
          .error (.valueError "toolset slug already exists in tenant")
        else if toolset.val.kind = .allPublished ∧
            ownedByOther (self.getAllPublished tenantId) toolset.val.id then
          .error (.valueError "all_published toolset already exists in tenant")
        else .ok (self.replace current toolset (getById_eq_some.1 hcurrent).1
          (requiresPersistenceUpdate_eq_true.1 hupdate).1)

end InMemoryToolsetRepository

end Repository

end NexusMcp
