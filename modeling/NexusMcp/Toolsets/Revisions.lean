-- SUMMARY: Runs of toolset commands: a change is one revision further, and no revision is changed twice.
import NexusMcp.Toolsets.Aggregate
import NexusMcp.Toolsets.UseCases

/-!
# Revisions

One command changes a stored toolset as one operation of the aggregate does, or not
at all. A run of commands therefore only moves it forward.
-/

namespace NexusMcp

section Revisions

variable [Sha256]

/-! ## Saving -/

namespace InMemoryToolsetRepository

/-- A save leaves the repository as it was, or puts the toolset in the place of its
    previous revision. -/
theorem save_eq_ok {repository stored : InMemoryToolsetRepository} {tenantId : Id}
    {toolset : Toolset} (h : repository.save tenantId toolset = .ok stored) :
    ∃ current, repository.getById tenantId toolset.val.id = some current ∧
      ((toolset = current ∧ stored = repository) ∨
        (requiresPersistenceUpdate current toolset = .ok true ∧
          stored.toolsets = repository.replaced toolset)) := by
  unfold save at h
  split at h
  · cases h
  split at h
  · cases h
  next current hcurrent =>
    refine ⟨current, hcurrent, ?_⟩
    split at h
    · cases h
    · next hupdate =>
      cases h
      exact .inl ⟨requiresPersistenceUpdate_eq_false.1 hupdate, rfl⟩
    · next hupdate =>
      split at h
      · cases h
      split at h
      · cases h
      cases h
      exact .inr ⟨hupdate, rfl⟩

theorem mem_replaced {self : InMemoryToolsetRepository} {toolset t : Toolset} :
    t ∈ self.replaced toolset ↔
      (t = toolset ∧ ∃ u ∈ self.toolsets, u.val.id = toolset.val.id) ∨
        (t ∈ self.toolsets ∧ t.val.id ≠ toolset.val.id) := by
  simp only [replaced, List.mem_map]
  constructor
  · rintro ⟨u, hu, rfl⟩
    split
    · next hid => exact .inl ⟨rfl, u, hu, hid⟩
    · next hid => exact .inr ⟨hu, hid⟩
  · rintro (⟨rfl, u, hu, hid⟩ | ⟨ht, hid⟩)
    · exact ⟨u, hu, if_pos hid⟩
    · exact ⟨t, ht, if_neg hid⟩

end InMemoryToolsetRepository

/-! ## One command -/

theorem changeToolset_eq_ok {env : ToolsetEnv} {repository stored : InMemoryToolsetRepository}
    {context : ActorContext} {toolsetId : Id} {check : Toolset → Except Exc Unit}
    {change : Toolset → Except ToolsetError Toolset} {answer : ToolsetProfile}
    (h : changeToolset env repository context toolsetId check change = .ok (answer, stored)) :
    ∃ t t', repository.getById context.tenantId toolsetId = some t ∧ change t = .ok t' ∧
      repository.save context.tenantId t' = .ok stored ∧ answer = profile env.catalog t' := by
  unfold changeToolset InMemoryToolsetRepository.getForUpdate at h
  split at h
  · cases h
  next t hfound =>
    obtain ⟨-, -, h⟩ := bind_eq_ok.1 h
    obtain ⟨t', hchange, h⟩ := bind_eq_ok.1 h
    obtain ⟨stored', hsave, h⟩ := bind_eq_ok.1 h
    cases h
    refine ⟨t, t', hfound, ?_, ?_, rfl⟩
    · cases hop : change t with
      | error e => rw [hop] at hchange; cases hchange
      | ok u => rw [hop] at hchange; cases hchange; rfl
    · cases hop : repository.save context.tenantId t' with
      | error e => rw [hop] at hsave; cases hsave
      | ok u => rw [hop] at hsave; cases hsave; rfl

/-- A command that is accepted performed one operation on the toolset it names, and saved
    the result. -/
theorem ToolsetChange.execute_eq_ok {env : ToolsetEnv}
    {repository stored : InMemoryToolsetRepository} {c : ToolsetChange} {answer : ToolsetProfile}
    (h : c.execute env repository = .ok (answer, stored)) :
    ∃ t t', repository.getById c.tenantId c.toolsetId = some t ∧
      t.Changed t' c.expectedRevision ∧ repository.save c.tenantId t' = .ok stored ∧
      answer = profile env.catalog t' := by
  cases c with
  | update command =>
    obtain ⟨t, t', hfound, hop, hsave, hanswer⟩ := changeToolset_eq_ok h
    exact ⟨t, t', hfound, Toolset.updateProfile_changed hop, hsave, hanswer⟩
  | replaceMembers command =>
    obtain ⟨t, t', hfound, hop, hsave, hanswer⟩ := changeToolset_eq_ok h
    exact ⟨t, t', hfound, Toolset.replaceMembers_changed hop, hsave, hanswer⟩
  | replaceGrants command =>
    obtain ⟨t, t', hfound, hop, hsave, hanswer⟩ := changeToolset_eq_ok h
    exact ⟨t, t', hfound, Toolset.replaceGrants_changed hop, hsave, hanswer⟩
  | activate command =>
    obtain ⟨t, t', hfound, hop, hsave, hanswer⟩ := changeToolset_eq_ok h
    exact ⟨t, t', hfound, Toolset.activate_changed hop, hsave, hanswer⟩
  | disable command =>
    obtain ⟨t, t', hfound, hop, hsave, hanswer⟩ := changeToolset_eq_ok h
    exact ⟨t, t', hfound, Toolset.disable_changed hop, hsave, hanswer⟩

theorem Toolset.Changed.identity {t t' : Toolset} {expectedRevision : Int}
    (h : t.Changed t' expectedRevision) : t.SameIdentity t' := by
  rcases h with rfl | h
  · exact .refl _
  · exact h.identity

theorem Toolset.Advanced.ne {t t' : Toolset} {expectedRevision : Int}
    (h : t.Advanced t' expectedRevision) : t' ≠ t := by
  rintro rfl
  have := h.revision
  omega

/-- What an operation made of a stored toolset is saved as it is. -/
theorem InMemoryToolsetRepository.save_changed {repository stored : InMemoryToolsetRepository}
    {tenantId toolsetId : Id} {t t' : Toolset} {expectedRevision : Int}
    (hfound : repository.getById tenantId toolsetId = some t)
    (hchanged : t.Changed t' expectedRevision)
    (hsave : repository.save tenantId t' = .ok stored) :
    (t' = t ∧ stored = repository) ∨
      (t.Advanced t' expectedRevision ∧ stored.toolsets = repository.replaced t') := by
  obtain ⟨current, hcurrent, hcase⟩ := save_eq_ok hsave
  have hid : t'.val.id = t.val.id := hchanged.identity.1.symm
  have hsame : current = t := by
    apply eq_of_id (getById_eq_some.1 hcurrent).1 (getById_eq_some.1 hfound).1
    exact (getById_eq_some.1 hcurrent).2.1.trans hid
  subst hsame
  rcases hcase with ⟨rfl, rfl⟩ | ⟨hupdate, hstored⟩
  · exact .inl ⟨rfl, rfl⟩
  · rcases hchanged with rfl | hadvanced
    · exact absurd rfl (requiresPersistenceUpdate_eq_true.1 hupdate).2.1
    · exact .inr ⟨hadvanced, hstored⟩

/-! ## Effect on one toolset -/

/-- The command names the toolset. -/
def ToolsetChange.Addresses (c : ToolsetChange) (t : Toolset) : Prop :=
  c.tenantId = t.val.tenantId ∧ c.toolsetId = t.val.id

/-- A command on a stored toolset, as it is issued. -/
structure IssuedChange where
  env : ToolsetEnv
  change : ToolsetChange

def IssuedChange.issued (c : IssuedChange) : Issued := ⟨c.env, .change c.change⟩

/-- What a command does to the repository and to the toolset `t` it holds, of which it
    leaves `t'`. -/
structure IssuedChange.Effect (c : IssuedChange) (repository : InMemoryToolsetRepository)
    (t t' : Toolset) : Prop where
  advanced : t' ≠ t → c.change.Addresses t ∧ t.Advanced t' c.change.expectedRevision
  rejected : ∀ e, c.change.execute c.env repository = .error e →
    repository.after c.issued = repository
  answered : ∀ answer stored, c.change.execute c.env repository = .ok (answer, stored) →
    repository.after c.issued = stored ∧
      (c.change.Addresses t → answer = profile c.env.catalog t' ∧
        (answer.revision = t.val.revision → stored = repository))

namespace InMemoryToolsetRepository

theorem after_of_ok {repository stored : InMemoryToolsetRepository} {c : IssuedChange}
    {answer : ToolsetProfile} (h : c.change.execute c.env repository = .ok (answer, stored)) :
    repository.after c.issued = stored := by
  simp only [after, IssuedChange.issued, ToolsetCommand.execute, h, Except.map]

theorem after_of_error {repository : InMemoryToolsetRepository} {c : IssuedChange} {e : Exc}
    (h : c.change.execute c.env repository = .error e) :
    repository.after c.issued = repository := by
  simp only [after, IssuedChange.issued, ToolsetCommand.execute, h, Except.map]

/-- Each command keeps every stored toolset, changed as `Effect` says. -/
theorem after_effect {repository : InMemoryToolsetRepository} (c : IssuedChange) {t : Toolset}
    (ht : t ∈ repository.toolsets) :
    ∃ t' ∈ (repository.after c.issued).toolsets,
      t.SameIdentity t' ∧ c.Effect repository t t' := by
  cases h : c.change.execute c.env repository with
  | error e =>
    refine ⟨t, ?_, .refl t, ⟨fun hne => absurd rfl hne, fun _ _ => after_of_error h, ?_⟩⟩
    · rw [after_of_error h]
      exact ht
    · intro answer stored h'
      rw [h] at h'
      cases h'
  | ok result =>
    obtain ⟨answer, stored⟩ := result
    obtain ⟨u, u', hfound, hchanged, hsave, hanswer⟩ := ToolsetChange.execute_eq_ok h
    obtain ⟨hu, huid, hutenant⟩ := getById_eq_some.1 hfound
    have huniq : c.change.Addresses t → t = u := fun haddr =>
      eq_of_id ht hu (haddr.2.symm.trans huid.symm)
    have hnotrejected : ∀ e, c.change.execute c.env repository = .error e →
        repository.after c.issued = repository := by
      intro e h'
      rw [h] at h'
      cases h'
    rcases save_changed hfound hchanged hsave with ⟨rfl, rfl⟩ | ⟨hadvanced, hstored⟩
    · -- The operation returned the toolset it was given.
      refine ⟨t, ?_, .refl t, ⟨fun hne => absurd rfl hne, hnotrejected, ?_⟩⟩
      · rw [after_of_ok h]
        exact ht
      · intro answer' stored' h'
        rw [h] at h'
        cases h'
        refine ⟨after_of_ok h, fun haddr => ⟨?_, fun _ => rfl⟩⟩
        rw [huniq haddr]
        exact hanswer
    · have hafter : ∀ x, x ∈ (repository.after c.issued).toolsets ↔
          x ∈ repository.replaced u' := by
        intro x
        rw [after_of_ok h, hstored]
      -- The toolset is the one that was replaced, or another one, which stays as it is.
      by_cases hid : t.val.id = u'.val.id
      · obtain rfl : t = u := eq_of_id ht hu (hid.trans hadvanced.identity.1.symm)
        refine ⟨u', ?_, hadvanced.identity, ⟨?_, hnotrejected, ?_⟩⟩
        · rw [hafter, mem_replaced]
          exact .inl ⟨rfl, t, ht, hid⟩
        · intro _
          exact ⟨⟨hutenant.symm, huid.symm⟩, hadvanced⟩
        · intro answer' stored' h'
          rw [h] at h'
          cases h'
          refine ⟨after_of_ok h, fun _ => ⟨hanswer, ?_⟩⟩
          intro hrevision
          have hnext : answer.revision = u'.val.revision := by rw [hanswer]; rfl
          have := hadvanced.revision
          omega
      · refine ⟨t, ?_, .refl t, ⟨fun hne => absurd rfl hne, hnotrejected, ?_⟩⟩
        · rw [hafter, mem_replaced]
          exact .inr ⟨ht, hid⟩
        · intro answer' stored' h'
          rw [h] at h'
          cases h'
          refine ⟨after_of_ok h, fun haddr => ?_⟩
          rw [huniq haddr] at hid
          exact absurd hadvanced.identity.1 hid

end InMemoryToolsetRepository

/-! ## Runs -/

/-- `t'` is `t` after any number of commands. -/
structure Toolset.Follows (t t' : Toolset) : Prop where
  identity : t.SameIdentity t'
  revision : t.val.revision ≤ t'.val.revision
  updatedAt : t.val.updatedAt ≤ t'.val.updatedAt
  system : t.val.kind = .allPublished → t.val.status = .active → t'.val.status = .active
  grants : sortedSet t.val.principalIds = t.val.principalIds →
    sortedSet t'.val.principalIds = t'.val.principalIds

theorem Toolset.Follows.refl (t : Toolset) : t.Follows t :=
  ⟨.refl t, le_refl _, le_refl _, fun _ h => h, fun h => h⟩

theorem Toolset.Follows.trans {t u v : Toolset} (h : t.Follows u) (h' : u.Follows v) :
    t.Follows v := by
  refine ⟨h.identity.trans h'.identity, h.revision.trans h'.revision,
    h.updatedAt.trans h'.updatedAt, ?_, fun hsorted => h'.grants (h.grants hsorted)⟩
  intro hkind hactive
  apply h'.system (h.identity.2.2.2.1.symm.trans hkind)
  exact h.system hkind hactive

theorem Toolset.Advanced.follows {t t' : Toolset} {expectedRevision : Int}
    (h : t.Advanced t' expectedRevision) : t.Follows t' := by
  refine ⟨h.identity, ?_, h.updatedAt, h.system, ?_⟩
  · have := h.revision
    omega
  · intro hsorted
    rcases h.grants with hgrants | hgrants
    · simp only [ToolsetFields.principalIds, hgrants] at hsorted ⊢
      exact hsorted
    · exact hgrants

theorem IssuedChange.Effect.follows {c : IssuedChange} {repository : InMemoryToolsetRepository}
    {t t' : Toolset} (h : c.Effect repository t t') : t.Follows t' := by
  by_cases heq : t' = t
  · rw [heq]
    exact .refl t
  · exact (h.advanced heq).2.follows

namespace InMemoryToolsetRepository

/-- The repository after a sequence of commands on stored toolsets. -/
def runChanges (repository : InMemoryToolsetRepository) (changes : List IssuedChange) :
    InMemoryToolsetRepository :=
  repository.run (changes.map (·.issued))

theorem runChanges_append {repository : InMemoryToolsetRepository}
    {first second : List IssuedChange} :
    repository.runChanges (first ++ second) = (repository.runChanges first).runChanges second := by
  simp only [runChanges, List.map_append, run_append]

@[simp] theorem runChanges_singleton {repository : InMemoryToolsetRepository} {c : IssuedChange} :
    repository.runChanges [c] = repository.after c.issued := rfl

/-- Every stored toolset is followed by one of the repository that a run leaves. -/
theorem runChanges_follows {repository : InMemoryToolsetRepository} (changes : List IssuedChange)
    {t : Toolset} (ht : t ∈ repository.toolsets) :
    ∃ t' ∈ (repository.runChanges changes).toolsets, t.Follows t' := by
  induction changes generalizing repository t with
  | nil => exact ⟨t, ht, .refl t⟩
  | cons c changes ih =>
    obtain ⟨u, hu, -, heffect⟩ := after_effect c ht
    obtain ⟨t', ht', hfollows⟩ := ih hu
    exact ⟨t', ht', heffect.follows.trans hfollows⟩

/-- The command changes the stored toolset of this identity. -/
def ChangedBy (repository : InMemoryToolsetRepository) (t : Toolset) (c : IssuedChange) : Prop :=
  (repository.after c.issued).getById t.val.tenantId t.val.id ≠
    repository.getById t.val.tenantId t.val.id

theorem getById_of_follows {repository : InMemoryToolsetRepository} {t t' : Toolset}
    (ht' : t' ∈ repository.toolsets) (h : t.SameIdentity t') :
    repository.getById t.val.tenantId t.val.id = some t' :=
  getById_eq_some.2 ⟨ht', h.1.symm, h.2.1.symm⟩

/-- A command that changes a toolset was issued for its revision, and leaves the next one. -/
theorem advanced_of_changedBy {repository : InMemoryToolsetRepository} {created t : Toolset}
    {c : IssuedChange} (ht : t ∈ repository.toolsets) (hsame : created.SameIdentity t)
    (h : repository.ChangedBy created c) :
    ∃ t' ∈ (repository.after c.issued).toolsets, t.Advanced t' c.change.expectedRevision := by
  obtain ⟨t', ht', hidentity, heffect⟩ := after_effect c ht
  have hne : t' ≠ t := by
    rintro rfl
    apply h
    rw [getById_of_follows ht' hsame, getById_of_follows ht hsame]
  exact ⟨t', ht', (heffect.advanced hne).2⟩

/-- Two commands of a run that both change a toolset expected different revisions. -/
theorem expectedRevision_ne {repository : InMemoryToolsetRepository} {created : Toolset}
    {first between : List IssuedChange} {c d : IssuedChange}
    (hcreated : created ∈ repository.toolsets)
    (hc : (repository.runChanges first).ChangedBy created c)
    (hd : (repository.runChanges (first ++ c :: between)).ChangedBy created d) :
    c.change.expectedRevision ≠ d.change.expectedRevision := by
  obtain ⟨t, ht, htf⟩ := runChanges_follows first hcreated
  obtain ⟨u, hu, hadvanced⟩ := advanced_of_changedBy ht htf.identity hc
  have hcu : created.SameIdentity u := htf.identity.trans hadvanced.identity
  obtain ⟨v, hv, huv⟩ := runChanges_follows between hu
  have hv' : v ∈ (repository.runChanges (first ++ c :: between)).toolsets := by
    rw [runChanges_append]
    exact hv
  obtain ⟨w, -, hadvanced'⟩ := advanced_of_changedBy hv' (hcu.trans huv.identity) hd
  -- The first command left a revision above the one it expected, and revisions only grow.
  have h1 := hadvanced.expected
  have h2 := hadvanced.revision
  have h3 := huv.revision
  have h4 := hadvanced'.expected
  omega

end InMemoryToolsetRepository

/-! ## Optimistic concurrency -/

/-- What a constructor of the aggregate returned. -/
inductive Toolset.Created : Toolset → Prop where
  | explicit {toolsetId tenantId : Id} {slug name : String} {description : Option String}
      {createdBy : String} {createdAt : Time} {discoveryMode : ToolsetDiscoveryMode}
      {t : Toolset} :
      createExplicit toolsetId tenantId slug name description createdBy createdAt discoveryMode =
        .ok t → Created t
  | allPublished {toolsetId tenantId : Id} {createdBy : String} {createdAt : Time} {t : Toolset} :
      createAllPublished toolsetId tenantId createdBy createdAt = .ok t → Created t

/-- What holds of a toolset in every state of a run that started with `created`. -/
structure Toolset.Consistent (created t : Toolset) : Prop where
  follows : created.Follows t
  explicitMembers : t.val.kind = .explicit → t.val.status = .active → t.val.members ≠ []
  system : t.val.kind = .allPublished → t.val.members = [] ∧ t.val.status = .active
  digest : calculateMembershipDigest t.val.kind t.val.toolIds = .ok t.val.membershipDigest

theorem Toolset.Created.active {created : Toolset} (h : created.Created)
    (hkind : created.val.kind = .allPublished) : created.val.status = .active := by
  cases h with
  | explicit h =>
    unfold createExplicit at h
    obtain ⟨digest, -, h⟩ := bind_eq_ok.1 h
    rw [buildToolset_eq_ok] at h
    rw [h] at hkind
    cases hkind
  | allPublished h =>
    unfold createAllPublished at h
    obtain ⟨digest, -, h⟩ := bind_eq_ok.1 h
    rw [buildToolset_eq_ok] at h
    rw [h]

theorem Toolset.Created.consistent {created t : Toolset} (h : created.Created)
    (hfollows : created.Follows t) : created.Consistent t := by
  refine ⟨hfollows, t.sound.explicitMembers, ?_, t.sound.digest⟩
  intro hkind
  have hkind' : created.val.kind = .allPublished := hfollows.identity.2.2.2.1.trans hkind
  exact ⟨t.sound.systemMembers hkind, hfollows.system hkind' (h.active hkind')⟩

open InMemoryToolsetRepository in
/-- After any run of commands the repository holds the toolset, consistent with what was
    created. The next command of any administrator has `Effect` on it, and no two commands
    of the run that expected one revision both changed it. -/
theorem toolset_optimistic_concurrency (repository : InMemoryToolsetRepository)
    (created : Toolset) (hcreated : created.Created) (hstored : created ∈ repository.toolsets)
    (changes : List IssuedChange) :
    (∃ t, (repository.runChanges changes).getById created.val.tenantId created.val.id = some t ∧
      created.Consistent t ∧
      ∀ next : IssuedChange, ∃ t',
        ((repository.runChanges changes).after next.issued).getById created.val.tenantId
          created.val.id = some t' ∧
        created.Consistent t' ∧ t.Follows t' ∧
        next.Effect (repository.runChanges changes) t t') ∧
    ∀ first between rest c d, changes = first ++ c :: (between ++ d :: rest) →
      (repository.runChanges first).ChangedBy created c →
      (repository.runChanges (first ++ c :: between)).ChangedBy created d →
      c.change.expectedRevision ≠ d.change.expectedRevision := by
  constructor
  · obtain ⟨t, ht, hfollows⟩ := runChanges_follows changes hstored
    refine ⟨t, getById_of_follows ht hfollows.identity, hcreated.consistent hfollows, ?_⟩
    intro next
    obtain ⟨t', ht', hidentity, heffect⟩ := after_effect next ht
    have hnext : created.Follows t' := hfollows.trans heffect.follows
    exact ⟨t', getById_of_follows ht' hnext.identity, hcreated.consistent hnext, heffect.follows,
      heffect⟩
  · intro first between rest c d _ hc hd
    exact expectedRevision_ne hstored hc hd

end Revisions

/-! ### Two administrators -/

/-- A digest of the right form. -/
@[reducible] def zeroSha256 : Sha256 := ⟨fun _ => String.ofList (List.replicate 64 '0')⟩

section TwoAdmins

attribute [local instance] zeroSha256

def supportToolset : Toolset :=
  ⟨{ id := "toolset-1"
     tenantId := "tenant-1"
     slug := "support"
     name := "Support"
     description := none
     kind := .explicit
     discoveryMode := .direct
     status := .draft
     revision := 1
     membershipDigest := Sha256.hexdigest ""
     createdBy := "admin-1"
     createdAt := 5
     updatedAt := 5 }, by decide +kernel⟩

def supportRepository : InMemoryToolsetRepository where
  toolsets := [supportToolset]
  ids := by decide +kernel
  slugs := by decide +kernel
  system := by decide +kernel

/-- The administrator renames the toolset as it was at revision 1. -/
def renameBy (principalId name : String) : IssuedChange where
  env := ⟨"", fun _ => 6, ⟨fun _ _ => [], fun _ => []⟩⟩
  change := .update
    { context := ⟨"r", "t", "tenant-1", principalId, "token", "admin_user"⟩
      toolsetId := "toolset-1"
      expectedRevision := 1
      name := name
      description := none
      discoveryMode := .direct }

theorem toolset_optimistic_concurrency_two_admins :
    ∃ t, (supportRepository.runChanges
        [renameBy "admin-1" "Help desk", renameBy "admin-2" "Hotline"]).getById
          "tenant-1" "toolset-1" = some t ∧ supportToolset.Consistent t := by
  have hcreated : supportToolset.Created := by
    refine @Toolset.Created.explicit _ "toolset-1" "tenant-1" "support" "Support" none "admin-1" 5
      .direct _ ?_
    exact bind_eq_ok.2 ⟨_, rfl, buildToolset_eq_ok.2 rfl⟩
  obtain ⟨⟨t, ht, hconsistent, -⟩, -⟩ := toolset_optimistic_concurrency supportRepository
    supportToolset hcreated (by simp [supportRepository])
    [renameBy "admin-1" "Help desk", renameBy "admin-2" "Hotline"]
  exact ⟨t, ht, hconsistent⟩

end TwoAdmins

end NexusMcp
