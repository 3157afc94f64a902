-- SUMMARY: What an operation of the toolset aggregate changes, and when it succeeds.
import NexusMcp.Toolsets.Repository

/-!
# Operations of the Aggregate

Every operation returns the toolset it was given, or one that is a single revision
further. The proofs about commands use only this and what `Valid` says.
-/

namespace NexusMcp

/-! ## Row checks -/

theorem rowChecks_all {ρ : Type} {crossed : ρ → Bool} {key : ρ → String} {m m' : String}
    {rows : List ρ} {seen : List String} :
    (∀ check ∈ rowChecks crossed key m m' rows seen, check.1 = false) ↔
      (∀ row ∈ rows, crossed row = false) ∧ (rows.map key).Nodup ∧
        ∀ row ∈ rows, key row ∉ seen := by
  induction rows generalizing seen with
  | nil => simp [rowChecks]
  | cons row rows ih =>
    simp only [rowChecks, List.forall_mem_cons, ih, List.map_cons, List.nodup_cons]
    simp only [List.mem_cons, List.mem_map, not_or, decide_eq_false_iff_not]
    constructor
    · rintro ⟨hrow, hseen, hrows, hnodup, hnew⟩
      refine ⟨⟨hrow, hrows⟩, ⟨?_, hnodup⟩, hseen, fun r hr => (hnew r hr).2⟩
      rintro ⟨r, hr, hkey⟩
      exact (hnew r hr).1 hkey
    · rintro ⟨⟨hrow, hrows⟩, ⟨hfresh, hnodup⟩, hseen, hnew⟩
      exact ⟨hrow, hseen, hrows, hnodup, fun r hr => ⟨fun h => hfresh ⟨r, hr, h⟩, hnew r hr⟩⟩

/-! ## Construction -/

section Aggregate

variable [Sha256]

@[simp] theorem buildToolset_eq_ok {fields : ToolsetFields} {t : Toolset} :
    buildToolset fields = .ok t ↔ t.val = fields := by
  unfold buildToolset
  constructor
  · intro h
    split at h
    · cases h
      rfl
    · cases h
  · rintro rfl
    simp [t.property]

/-- What the checks of a toolset say of its rows and its digest. -/
structure ToolsetFields.Sound (t : ToolsetFields) : Prop where
  ids : isBlank t.id = false ∧ isBlank t.tenantId = false
  name : isBlank t.name = false ∧ t.name.toList.length ≤ 128
  createdBy : isBlank t.createdBy = false
  slug : t.slug.toList.length ≤ 64 ∧ isKebabCase t.slug = true
  revision : 0 < t.revision
  digestText : isNotDigest t.membershipDigest = false
  updatedAt : t.createdAt ≤ t.updatedAt
  systemSlug : t.kind = .allPublished → t.slug = allPublishedSlug
  systemMembers : t.kind = .allPublished → t.members = []
  explicitMembers : t.kind = .explicit → t.status = .active → t.members ≠ []
  members : (∀ m ∈ t.members, m.val.tenantId = t.tenantId ∧ m.val.toolsetId = t.id) ∧
    t.toolIds.Nodup
  grants : (∀ g ∈ t.grants, g.val.tenantId = t.tenantId ∧ g.val.toolsetId = t.id) ∧
    t.principalIds.Nodup
  digest : calculateMembershipDigest t.kind t.toolIds = .ok t.membershipDigest

theorem digestDiffers_eq_false {t : ToolsetFields} : digestDiffers t = false ↔
    calculateMembershipDigest t.kind t.toolIds = .ok t.membershipDigest := by
  unfold digestDiffers
  cases calculateMembershipDigest t.kind t.toolIds with
  | error e => simp
  | ok digest =>
    simp only [ne_eq, decide_not, Bool.not_eq_false', decide_eq_true_eq, Except.ok.injEq]
    exact eq_comm

theorem valid_iff_sound {t : ToolsetFields} : Valid t ↔ t.Sound := by
  simp only [Valid, PostInit.checks, nonBlank, memberChecks, grantChecks, List.forall_mem_append,
    List.forall_mem_cons, List.not_mem_nil, false_implies, implies_true, and_true, rowChecks_all,
    not_false_eq_true, digestDiffers_eq_false, decide_eq_false_iff_not, not_or, not_and, not_not,
    not_lt, not_le, gt_iff_lt, Bool.not_eq_true', Bool.not_eq_false]
  constructor
  · rintro ⟨⟨⟨⟨hid, htenant, hname, hby, hslug, hlong, hrev, hdigest, hat, hss, hsm, hem⟩, hm⟩,
      hg⟩, hd⟩
    exact ⟨⟨hid, htenant⟩, ⟨hname, hlong⟩, hby, hslug, hrev, hdigest, hat, hss, hsm, hem, hm, hg,
      hd⟩
  · rintro ⟨hids, hname, hby, hslug, hrev, hdigest, hat, hss, hsm, hem, hm, hg, hd⟩
    exact ⟨⟨⟨⟨hids.1, hids.2, hname.1, hby, hslug, hname.2, hrev, hdigest, hat, hss, hsm, hem⟩, hm⟩,
      hg⟩, hd⟩

theorem Toolset.sound (t : Toolset) : t.val.Sound := valid_iff_sound.1 t.property

/-! ## Operations -/

/-- What every operation leaves as it is, and what it moves by one step. -/
structure Toolset.Advanced (t t' : Toolset) (expectedRevision : Int) : Prop where
  identity : t.SameIdentity t'
  expected : expectedRevision = t.val.revision
  revision : t'.val.revision = t.val.revision + 1
  updatedAt : t.val.updatedAt ≤ t'.val.updatedAt
  system : t.val.kind = .allPublished → t.val.status = .active → t'.val.status = .active
  grants : t'.val.grants = t.val.grants ∨ sortedSet t'.val.principalIds = t'.val.principalIds

/-- An operation under `expectedRevision` returns the toolset or a single revision further. -/
def Toolset.Changed (t t' : Toolset) (expectedRevision : Int) : Prop :=
  t' = t ∨ t.Advanced t' expectedRevision

omit [Sha256] in
@[simp] theorem refuseIf_bind_eq_ok {β : Type} {c : Prop} [Decidable c] {e : ToolsetError}
    {f : Unit → Except ToolsetError β} {b : β} :
    (Toolset.refuseIf c e >>= f) = .ok b ↔ ¬ c ∧ f () = .ok b := by
  unfold Toolset.refuseIf
  split
  · next h => exact ⟨fun h' => (by cases h'), fun h' => absurd h h'.1⟩
  · next h => exact ⟨fun h' => ⟨h, h'⟩, fun h' => h'.2⟩

namespace Toolset

theorem principalId_of_grantFor {t : Toolset} {actorId principalId : String} {occurredAt : Time}
    {grant : ToolsetAccessGrant} (h : t.grantFor actorId occurredAt principalId = .ok grant) :
    grant.val.principalId = principalId := by
  unfold grantFor at h
  split at h
  · next found hfound =>
    cases h
    simpa using List.find?_some hfound
  · unfold buildGrant at h
    split at h
    · cases h
      rfl
    · cases h

/-- The principals of new grants are the normalised ones that were asked for. -/
theorem principalIds_of_mapM_grantFor {t : Toolset} {actorId : String} {occurredAt : Time}
    {principalIds : List String} {grants : List ToolsetAccessGrant}
    (h : principalIds.mapM (t.grantFor actorId occurredAt) = .ok grants) :
    grants.map (·.val.principalId) = principalIds := by
  rw [mapM_eq_ok] at h
  induction h with
  | nil => rfl
  | cons hgrant _ ih =>
    simp only [List.map_cons, principalId_of_grantFor hgrant, ih]

theorem updateProfile_changed {t t' : Toolset} {expectedRevision : Int} {name : String}
    {description : Option String} {discoveryMode : ToolsetDiscoveryMode} {updatedAt : Time}
    (h : t.updateProfile expectedRevision name description discoveryMode updatedAt = .ok t') :
    t.Changed t' expectedRevision := by
  simp only [updateProfile, requireRevision, requireMutationTime, refuseIf_bind_eq_ok] at h
  obtain ⟨hrevision, -, h⟩ := h
  split at h
  · cases h
    exact .inl rfl
  · simp only [refuseIf_bind_eq_ok, buildToolset_eq_ok] at h
    obtain ⟨htime, hval⟩ := h
    right
    constructor <;> simp_all [SameIdentity]

theorem replaceMembers_changed {t t' : Toolset} {expectedRevision : Int} {toolIds : List Id}
    {actorId : String} {occurredAt : Time}
    (h : t.replaceMembers expectedRevision toolIds actorId occurredAt = .ok t') :
    t.Changed t' expectedRevision := by
  simp only [replaceMembers, requireRevision, requireMutationTime, refuseIf_bind_eq_ok] at h
  obtain ⟨hrevision, hkind, h⟩ := h
  obtain ⟨ids, -, h⟩ := bind_eq_ok.1 h
  rw [refuseIf_bind_eq_ok] at h
  obtain ⟨-, h⟩ := h
  split at h
  · cases h
    exact .inl rfl
  · rw [refuseIf_bind_eq_ok] at h
    obtain ⟨htime, h⟩ := h
    simp only [bind_eq_ok, buildToolset_eq_ok] at h
    obtain ⟨members, -, digest, -, hval⟩ := h
    right
    constructor <;> simp_all [SameIdentity]

theorem replaceGrants_changed {t t' : Toolset} {expectedRevision : Int}
    {principalIds : List String} {actorId : String} {occurredAt : Time}
    (h : t.replaceGrants expectedRevision principalIds actorId occurredAt = .ok t') :
    t.Changed t' expectedRevision := by
  simp only [replaceGrants, requireRevision, requireMutationTime, refuseIf_bind_eq_ok] at h
  obtain ⟨hrevision, h⟩ := h
  obtain ⟨ids, hids, h⟩ := bind_eq_ok.1 h
  split at h
  · cases h
    exact .inl rfl
  · rw [refuseIf_bind_eq_ok] at h
    obtain ⟨htime, h⟩ := h
    simp only [bind_eq_ok, buildToolset_eq_ok] at h
    obtain ⟨grants, hgrants, hval⟩ := h
    have hprincipals := principalIds_of_mapM_grantFor hgrants
    obtain rfl := (normalizedIds_eq_ok.1 hids).2
    right
    constructor <;> simp_all [SameIdentity, ToolsetFields.principalIds]

theorem activate_changed {t t' : Toolset} {expectedRevision : Int} {activatedAt : Time}
    (h : t.activate expectedRevision activatedAt = .ok t') : t.Changed t' expectedRevision := by
  simp only [activate, requireRevision, requireMutationTime, refuseIf_bind_eq_ok] at h
  obtain ⟨hrevision, h⟩ := h
  split at h
  · cases h
    exact .inl rfl
  · simp only [refuseIf_bind_eq_ok, buildToolset_eq_ok] at h
    obtain ⟨-, htime, hval⟩ := h
    right
    constructor <;> simp_all [SameIdentity]

theorem disable_changed {t t' : Toolset} {expectedRevision : Int} {disabledAt : Time}
    (h : t.disable expectedRevision disabledAt = .ok t') : t.Changed t' expectedRevision := by
  simp only [disable, requireRevision, requireMutationTime, refuseIf_bind_eq_ok] at h
  obtain ⟨hrevision, h⟩ := h
  split at h
  · cases h
    exact .inl rfl
  · simp only [refuseIf_bind_eq_ok, buildToolset_eq_ok] at h
    obtain ⟨hkind, htime, hval⟩ := h
    right
    -- The system toolset is refused here, so its status is never changed.
    constructor <;> simp_all [SameIdentity]

/-! ### Granting -/

/-- A grant can be made for every principal that is not blank. -/
theorem grantFor_ok {t : Toolset} {actorId principalId : String} {occurredAt : Time}
    (hprincipal : isBlank principalId = false) (hactor : isBlank actorId = false) :
    ∃ grant, t.grantFor actorId occurredAt principalId = .ok grant ∧
      grant.val.tenantId = t.val.tenantId ∧ grant.val.toolsetId = t.val.id := by
  unfold grantFor
  split
  · next found hfound =>
    obtain ⟨htenant, hid⟩ := t.sound.grants.1 found (List.mem_of_find?_eq_some hfound)
    exact ⟨found, rfl, htenant, hid⟩
  · obtain ⟨hid, htenant⟩ := t.sound.ids
    unfold buildGrant
    rw [dif_pos]
    · exact ⟨_, rfl, rfl, rfl⟩
    · simp [Valid, PostInit.checks, nonBlank, hid, htenant, hprincipal, hactor]

/-- The grant there is for a principal is kept. -/
theorem grantFor_of_mem {t : Toolset} {actorId : String} {occurredAt : Time}
    {grant : ToolsetAccessGrant} (h : grant ∈ t.val.grants) :
    t.grantFor actorId occurredAt grant.val.principalId = .ok grant := by
  have hfind : t.val.grants.find? (·.val.principalId = grant.val.principalId) = some grant := by
    apply (find?_eq_some_of_unique _).2 ⟨h, by simp⟩
    intro x hx y hy hpx hpy
    simp only [decide_eq_true_eq] at hpx hpy
    exact List.inj_on_of_nodup_map t.sound.grants.2 hx hy (hpx.trans hpy.symm)
  simp only [grantFor, hfind]

/-- The fields that `replace_grants` gives to `replace`. -/
def withGrants (t : Toolset) (grants : List ToolsetAccessGrant) (occurredAt : Time) :
    ToolsetFields :=
  { t.val with grants := grants, revision := t.val.revision + 1, updatedAt := occurredAt }

theorem withGrants_sound {t : Toolset} {grants : List ToolsetAccessGrant} {occurredAt : Time}
    (hgrants : ∀ g ∈ grants, g.val.tenantId = t.val.tenantId ∧ g.val.toolsetId = t.val.id)
    (hnodup : (grants.map (·.val.principalId)).Nodup) (hclock : t.val.updatedAt ≤ occurredAt) :
    (t.withGrants grants occurredAt).Sound := by
  have h := t.sound
  refine ⟨h.ids, h.name, h.createdBy, h.slug, ?_, h.digestText, h.updatedAt.trans hclock,
    h.systemSlug, h.systemMembers, h.explicitMembers, h.members, ⟨hgrants, hnodup⟩, h.digest⟩
  have := h.revision
  simp only [withGrants]
  omega

theorem replaceGrants_eq {t : Toolset} {principalIds : List String} {actorId : String}
    {occurredAt : Time} (hprincipals : ∀ p ∈ principalIds, isBlank p = false) :
    t.replaceGrants t.val.revision principalIds actorId occurredAt =
      if sortedSet principalIds = t.val.principalIds then .ok t
      else if occurredAt < t.val.updatedAt then
        .error (.valueError "toolset mutation time must not precede updated_at")
      else (sortedSet principalIds).mapM (t.grantFor actorId occurredAt) >>= fun grants =>
        buildToolset (t.withGrants grants occurredAt) := by
  have hnormalized : normalizedIds "principal id" principalIds = .ok (sortedSet principalIds) :=
    normalizedIds_eq_ok.2 ⟨hprincipals, rfl⟩
  by_cases htime : occurredAt < t.val.updatedAt
  all_goals
    simp only [replaceGrants, requireRevision, refuseIf, ne_eq, not_true_eq_false, if_false,
      hnormalized, requireMutationTime, htime, if_true, withGrants, bind, Except.bind, pure,
      Except.pure]

/-- Grants for principals that are not blank can be replaced unless the clock is behind the
    toolset and the principals differ from the ones there are. -/
theorem replaceGrants_ok {t : Toolset} {principalIds : List String} {actorId : String}
    {occurredAt : Time} (hprincipals : ∀ p ∈ principalIds, isBlank p = false)
    (hactor : isBlank actorId = false)
    (hclock : sortedSet principalIds = t.val.principalIds ∨ t.val.updatedAt ≤ occurredAt) :
    ∃ t', t.replaceGrants t.val.revision principalIds actorId occurredAt = .ok t' ∧
      t'.val.principalIds = sortedSet principalIds ∧ t'.val.status = t.val.status ∧
      ∀ g ∈ t.val.grants, g.val.principalId ∈ principalIds → g ∈ t'.val.grants := by
  rw [replaceGrants_eq hprincipals]
  by_cases hsame : sortedSet principalIds = t.val.principalIds
  · rw [if_pos hsame]
    exact ⟨t, rfl, hsame.symm, rfl, fun g hg _ => hg⟩
  · have htime : t.val.updatedAt ≤ occurredAt := hclock.resolve_left hsame
    rw [if_neg hsame, if_neg (not_lt.2 htime)]
    have hgrant : ∀ p ∈ sortedSet principalIds, ∃ g, t.grantFor actorId occurredAt p = .ok g ∧
        g.val.tenantId = t.val.tenantId ∧ g.val.toolsetId = t.val.id := by
      intro p hp
      exact grantFor_ok (hprincipals p (mem_sortedSet.1 hp)) hactor
    obtain ⟨grants, hgrants⟩ := mapM_ok_of_forall fun p hp =>
      (hgrant p hp).imp fun _ h => h.1
    have hids := principalIds_of_mapM_grantFor hgrants
    -- Grants that were there are kept and the others are new; either way they are of this toolset.
    have hrows : ∀ g ∈ grants, g.val.tenantId = t.val.tenantId ∧ g.val.toolsetId = t.val.id := by
      intro g hg
      obtain ⟨p, hp, hpg⟩ := (mem_mapM hgrants).1 hg
      obtain ⟨g', hg', hrow⟩ := hgrant p hp
      obtain rfl : g' = g := Except.ok.inj (hg'.symm.trans hpg)
      exact hrow
    have hsound : (t.withGrants grants occurredAt).Sound :=
      withGrants_sound hrows (hids ▸ nodup_sortedSet _) htime
    refine ⟨⟨_, valid_iff_sound.2 hsound⟩, ?_, hids, rfl, ?_⟩
    · exact bind_eq_ok.2 ⟨grants, hgrants, buildToolset_eq_ok.2 rfl⟩
    · intro g hg hp
      exact (mem_mapM hgrants).2 ⟨_, mem_sortedSet.2 hp, grantFor_of_mem hg⟩

/-- Where the clock is behind and the principals differ, the replacement is refused. -/
theorem replaceGrants_refused {t : Toolset} {principalIds : List String} {actorId : String}
    {occurredAt : Time} (hprincipals : ∀ p ∈ principalIds, isBlank p = false)
    (hnew : sortedSet principalIds ≠ t.val.principalIds) (hclock : occurredAt < t.val.updatedAt) :
    t.replaceGrants t.val.revision principalIds actorId occurredAt =
      .error (.valueError "toolset mutation time must not precede updated_at") := by
  rw [replaceGrants_eq hprincipals, if_neg hnew, if_pos hclock]

end Toolset

end Aggregate

end NexusMcp
