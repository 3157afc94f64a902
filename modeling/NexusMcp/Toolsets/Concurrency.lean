-- SUMMARY: Concurrent commands on the system toolset lose no grant, over every interleaving.
import NexusMcp.Toolsets.Revisions
import NexusMcp.Toolsets.SqlRepository

/-!
# Updates of the System Toolset

A save compares the new revision with the row that it locks. A bootstrap whose reads were
overtaken has counted from an earlier revision, so its save is refused, or finds what it
would store.
-/

namespace NexusMcp

open Txn Txn.Serial Txn.SerialWorld

section Concurrency

variable [Sha256]

/-- What is stored is a toolset. -/
def StoredToolset.Sound (s : StoredToolset) : Prop := ∀ t ∈ s, Valid t

/-! ## Granting -/

/-- The principals after a replacement are the ones that were asked for. -/
theorem Toolset.replaceGrants_principalIds {t t' : Toolset} {expectedRevision : Int}
    {principalIds : List String} {actorId : String} {occurredAt : Time}
    (h : t.replaceGrants expectedRevision principalIds actorId occurredAt = .ok t') :
    (∀ p ∈ principalIds, isBlank p = false) ∧ t'.val.principalIds = sortedSet principalIds := by
  simp only [replaceGrants, requireRevision, requireMutationTime, refuseIf_bind_eq_ok] at h
  obtain ⟨-, h⟩ := h
  obtain ⟨ids, hids, h⟩ := bind_eq_ok.1 h
  obtain ⟨hblank, rfl⟩ := normalizedIds_eq_ok.1 hids
  refine ⟨hblank, ?_⟩
  split at h
  · next hsame =>
    cases h
    exact hsame.symm
  · rw [refuseIf_bind_eq_ok] at h
    obtain ⟨-, h⟩ := h
    simp only [bind_eq_ok, buildToolset_eq_ok] at h
    obtain ⟨grants, hgrants, hval⟩ := h
    rw [hval]
    exact principalIds_of_mapM_grantFor hgrants

/-- A replacement is at most one revision further. -/
theorem Toolset.replaceGrants_revision {t t' : Toolset} {expectedRevision : Int}
    {principalIds : List String} {actorId : String} {occurredAt : Time}
    (h : t.replaceGrants expectedRevision principalIds actorId occurredAt = .ok t') :
    t'.val.revision ≤ t.val.revision + 1 := by
  simp only [replaceGrants, requireRevision, requireMutationTime, refuseIf_bind_eq_ok] at h
  obtain ⟨-, h⟩ := h
  obtain ⟨ids, -, h⟩ := bind_eq_ok.1 h
  split at h
  · cases h
    omega
  · rw [refuseIf_bind_eq_ok] at h
    obtain ⟨-, h⟩ := h
    simp only [bind_eq_ok, buildToolset_eq_ok] at h
    obtain ⟨grants, -, hval⟩ := h
    rw [hval]

/-- A toolset that has the principals already is returned as it is. -/
theorem Toolset.replaceGrants_same {t : Toolset} {principalIds : List String} {actorId : String}
    {occurredAt : Time} (hblank : ∀ p ∈ principalIds, isBlank p = false)
    (hsame : sortedSet principalIds = t.val.principalIds) :
    t.replaceGrants t.val.revision principalIds actorId occurredAt = .ok t := by
  rw [replaceGrants_eq hblank, if_pos hsame]

/-! ## Stores in order -/

/-- The store is one revision further, or as it was. A toolset that was not there may have
    any revision. -/
def Counted (s s' : StoredToolset) : Prop :=
  s' = s ∨ s = none ∨ ∃ t t', s = some t ∧ s' = some t' ∧ t'.revision = t.revision + 1

/-- The store has a higher revision, or it is the same. -/
def Later (s s' : StoredToolset) : Prop :=
  s' = s ∨ s = none ∨ ∃ t t', s = some t ∧ s' = some t' ∧ t.revision < t'.revision

omit [Sha256] in
theorem Counted.later {s s' : StoredToolset} (h : Counted s s') : Later s s' := by
  rcases h with h | h | ⟨t, t', ht, ht', hrevision⟩
  · exact .inl h
  · exact .inr (.inl h)
  · exact .inr (.inr ⟨t, t', ht, ht', by omega⟩)

omit [Sha256] in
theorem Later.trans {s₁ s₂ s₃ : StoredToolset} (h : Later s₁ s₂) (h' : Later s₂ s₃) :
    Later s₁ s₃ := by
  rcases h with rfl | h | ⟨t, t', rfl, rfl, hlt⟩
  · exact h'
  · exact .inr (.inl h)
  · rcases h' with rfl | h' | ⟨u, u', hu, rfl, hlt'⟩
    · exact .inr (.inr ⟨t, t', rfl, rfl, hlt⟩)
    · cases h'
    · cases hu
      exact .inr (.inr ⟨t, u', rfl, rfl, hlt.trans hlt'⟩)

omit [Sha256] in
theorem Later.revision {s s' : StoredToolset} {t t' : ToolsetFields} (h : Later s s')
    (hs : s = some t) (hs' : s' = some t') : t.revision ≤ t'.revision := by
  subst hs hs'
  rcases h with h | h | ⟨u, u', hu, hu', hlt⟩
  · cases h
    exact le_refl _
  · cases h
  · cases hu
    cases hu'
    exact hlt.le

omit [Sha256] in
/-- Between two stores with one revision every store is the same. -/
theorem Later.squeeze {s₁ s₂ s₃ : StoredToolset} {t₁ t₃ : ToolsetFields} (h : Later s₁ s₂)
    (h' : Later s₂ s₃) (h₁ : s₁ = some t₁) (h₃ : s₃ = some t₃)
    (hrevision : t₁.revision = t₃.revision) : s₂ = s₃ := by
  subst h₁ h₃
  rcases h' with h' | rfl | ⟨t, t', rfl, ht', hlt'⟩
  · exact h'.symm
  · rcases h with h | h | ⟨_, _, _, h, _⟩ <;> cases h
  · cases ht'
    rcases h with h | h | ⟨u, u', hu, hu', hlt⟩
    · cases h
      omega
    · cases h
    · cases hu
      cases hu'
      omega

/-! ## What the commands commit -/

theorem addStored_eq_ok {tenantId : Id} {toolset : Toolset} {s s' : StoredToolset} {u : Unit} :
    add tenantId toolset s = .ok (u, s') ↔
      tenantId = toolset.val.tenantId ∧ s = none ∧ s' = some toolset.val := by
  unfold add
  rw [refuseIf_bind_eq_ok, refuseIf_bind_eq_ok, ne_eq, not_not, ne_eq, not_not]
  constructor
  · rintro ⟨htenant, hs, h⟩
    cases h
    exact ⟨htenant, hs, rfl⟩
  · rintro ⟨htenant, hs, rfl⟩
    exact ⟨htenant, hs, rfl⟩

/-- A save that is accepted stores what is saved, and counts the change. -/
theorem save_counted {toolset : Toolset} {tenantId : Id} {s s' : StoredToolset} {u : Unit}
    (h : save .released tenantId toolset s = .ok (u, s')) :
    toolset.val.tenantId = tenantId ∧ s' = some toolset.val ∧ Counted s s' := by
  obtain ⟨htenant, current, rfl, -, -, hcase⟩ := save_eq_ok.1 h
  rcases hcase with ⟨rfl, rfl⟩ | ⟨hneeded, rfl⟩
  · exact ⟨htenant.symm, rfl, .inl rfl⟩
  · have hrevision := (requiresPersistenceUpdate_eq_true.1 hneeded).2.2
    exact ⟨htenant.symm, rfl, .inr (.inr ⟨_, _, rfl, rfl, hrevision⟩)⟩

omit [Sha256] in
theorem commits_read {α : Type} (f : StoredToolset → α) :
    (read f : Serial StoredToolset Exc α).Commits Counted := by
  refine commits_atomically.2 fun s a s' h => ?_
  cases h
  exact .inl rfl

theorem commits_getAllPublished : getAllPublished.Commits Counted := by
  refine (commits_read _).bind fun model => ?_
  cases model with
  | none => exact commits_pure
  | some model =>
    refine (commits_read _).bind fun members => (commits_read _).bind fun grants => ?_
    exact commits_lift.bind fun toolset => commits_pure

theorem commits_mergeGrants {env : GrantEnv} {tenantId : Id} {principalIds : List String} :
    (EnsureAllPublishedToolset.mergeGrants env tenantId principalIds).Commits Counted := by
  refine commits_getAllPublished.bind fun toolset => ?_
  cases toolset with
  | none => exact commits_lift
  | some toolset =>
    refine commits_lift.bind fun updated => ?_
    refine Commits.atomically_bind (fun s _ s' hsave => ?_) fun _ => commits_pure
    exact (save_counted (asValueError_eq_ok.1 hsave)).2.2

theorem ReplaceToolsetGrants.locked_saves {env : GrantEnv} {command : ReplaceToolsetGrantsCommand}
    {s s' : StoredToolset} {answer : ToolsetProfile} (h : locked env command s = .ok (answer, s')) :
    ∃ toolset updated : Toolset, s = some toolset.val ∧
      toolset.replaceGrants command.expectedRevision command.principalIds
        command.context.principalId (env.clock 0) = .ok updated ∧
      save .released command.context.tenantId updated s = .ok ((), s') := by
  unfold locked at h
  cases s with
  | none => cases h
  | some stored =>
    simp only [raiseIf_bind_eq_ok, not_not] at h
    obtain ⟨-, h⟩ := h
    obtain ⟨toolset, hbuilt, h⟩ := bind_eq_ok.1 h
    obtain ⟨updated, hreplaced, h⟩ := bind_eq_ok.1 h
    obtain ⟨⟨_, stored'⟩, hsave, h⟩ := bind_eq_ok.1 h
    cases h
    rw [mapError_eq_ok] at hreplaced hsave
    obtain rfl : toolset.val = stored := toolsetFromModels_eq_ok.1 (asValueError_eq_ok.1 hbuilt)
    exact ⟨toolset, updated, rfl, hreplaced, hsave⟩

/-- Whatever a command commits is counted. -/
theorem GrantCommand.commits {env : GrantEnv} {tenantId : Id} (command : GrantCommand) :
    (command.transactions env tenantId).Commits Counted := by
  cases command with
  | ensureAllPublished principalIds =>
    refine commits_getAllPublished.bind fun toolset => ?_
    cases toolset with
    | some toolset => exact commits_mergeGrants
    | none =>
      refine commits_lift.bind fun toolset => Commits.tryCatch ?_ fun e => ?_
      · refine Commits.atomically_bind (fun s _ s' hadd => ?_) fun _ => commits_pure
        obtain ⟨-, rfl, -⟩ := addStored_eq_ok.1 (asValueError_eq_ok.1 hadd)
        exact .inr (.inl rfl)
      · cases e with
        | valueError message => exact commits_mergeGrants
        | _ => exact commits_lift
  | replaceGrants command =>
    refine commits_atomically.2 fun s answer s' hlocked => ?_
    obtain ⟨toolset, updated, -, -, hsave⟩ := ReplaceToolsetGrants.locked_saves hlocked
    exact (save_counted hsave).2.2

/-! ## What the commands see -/

theorem getAllPublished_bind {α : Type} {f : Option Toolset → Serial StoredToolset Exc α} :
    getAllPublished >>= f = read StoredToolset.model >>= fun
      | none => f none
      | some model => read StoredToolset.members >>= fun members =>
          read StoredToolset.grants >>= fun grants =>
            lift (asValueError (toolsetFromModels model members grants)) >>= fun toolset =>
              f (some toolset) := by
  unfold getAllPublished
  rw [bind_assoc]
  congr 1
  funext model
  cases model with
  | none => rfl
  | some model => simp only [bind_assoc]; rfl

/-- The three statements of `get_all_published` may each find another store. -/
theorem traced_getAllPublished {α : Type} {f : Option Toolset → Serial StoredToolset Exc α}
    {Q : List (StoredToolset × StoredToolset) → α → Prop}
    {seen : List (StoredToolset × StoredToolset)} (hnone : (f none).Traced Q ((none, none) :: seen))
    (hsome : ∀ (t₁ : ToolsetFields) (s₂ s₃ : StoredToolset) toolset,
      toolsetFromModels t₁.row s₂.members s₃.grants = .ok toolset →
      (f (some toolset)).Traced Q
        ((s₃, s₃) :: (s₂, s₂) :: (some t₁, some t₁) :: seen)) :
    (getAllPublished >>= f).Traced Q seen := by
  rw [getAllPublished_bind, traced_read_bind]
  intro s₁
  cases s₁ with
  | none => exact hnone
  | some t₁ =>
    change (read StoredToolset.members >>= _).Traced Q _
    rw [traced_read_bind]
    intro s₂
    rw [traced_read_bind]
    intro s₃
    rw [traced_lift_bind]
    intro toolset htoolset
    exact hsome t₁ s₂ s₃ toolset (asValueError_eq_ok.1 htoolset)

/-- `get_all_published` between whose statements nobody runs. -/
theorem solo_getAllPublished {α : Type} {f : Option Toolset → Serial StoredToolset Exc α}
    (t : Toolset) :
    (getAllPublished >>= f).solo (some t.val) = (f (some t)).solo (some t.val) := by
  have hbuilt : toolsetFromModels t.val.row t.val.members t.val.grants = .ok t :=
    toolsetFromModels_eq_ok.2 rfl
  rw [getAllPublished_bind]
  change (lift (asValueError (toolsetFromModels t.val.row t.val.members t.val.grants)) >>= _ :
    Serial StoredToolset Exc α).solo (some t.val) = _
  rw [asValueError_eq_ok.2 hbuilt]
  rfl

namespace EnsureAllPublishedToolset

/-- The second unit of work read the row, the members and the grants in three stores, and
    saved in a fourth. -/
def Merges (env : GrantEnv) (tenantId : Id) (principalIds : List String) (t₁ : ToolsetFields)
    (s₂ s₃ s s' : StoredToolset) (updated : Toolset) : Prop :=
  ∃ toolset : Toolset, toolsetFromModels t₁.row s₂.members s₃.grants = .ok toolset ∧
    toolset.replaceGrants toolset.val.revision
      (sortedSet (toolset.val.principalIds ++ principalIds)) "system" env.mergedAt = .ok updated ∧
    save .released tenantId updated s = .ok ((), s')

/-- What the command has seen when it succeeds, newest first. -/
inductive Seen (env : GrantEnv) (tenantId : Id) (principalIds : List String) :
    List (StoredToolset × StoredToolset) → Toolset → Prop where
  | created {toolset : Toolset}
      (hcreated : created env.toToolsetEnv tenantId principalIds = .ok toolset)
      (htenant : tenantId = toolset.val.tenantId) :
      Seen env tenantId principalIds [(none, some toolset.val), (none, none)] toolset
  | merged {t₁ : ToolsetFields} {s₂ s₃ s s' : StoredToolset} {updated : Toolset}
      {earlier : List (StoredToolset × StoredToolset)}
      (hmerges : Merges env tenantId principalIds t₁ s₂ s₃ s s' updated) :
      Seen env tenantId principalIds
        ((s, s') :: (s₃, s₃) :: (s₂, s₂) :: (some t₁, some t₁) :: earlier) updated

variable {env : GrantEnv} {tenantId : Id} {principalIds : List String}

theorem mergeGrants_traced (seen : List (StoredToolset × StoredToolset)) :
    (mergeGrants env tenantId principalIds).Traced (Seen env tenantId principalIds) seen := by
  unfold mergeGrants
  apply traced_getAllPublished
  · trivial
  · intro t₁ s₂ s₃ toolset hbuilt
    apply traced_lift_bind.2
    intro updated hupdated
    apply traced_atomically.2
    intro s _ s' hsave
    exact .merged ⟨toolset, hbuilt, asValueError_eq_ok.1 hupdated, asValueError_eq_ok.1 hsave⟩

theorem transactions_traced :
    (transactions env tenantId principalIds).Traced (Seen env tenantId principalIds) [] := by
  unfold transactions
  apply traced_getAllPublished
  · apply traced_lift_bind.2
    intro toolset hcreated
    apply traced_atomically_tryCatch
    · intro s _ s' hadd
      obtain ⟨htenant, rfl, rfl⟩ := addStored_eq_ok.1 (asValueError_eq_ok.1 hadd)
      exact .created (asValueError_eq_ok.1 hcreated) htenant
    · intro e
      cases e with
      | valueError message => exact ⟨id, mergeGrants_traced _⟩
      | _ => exact ⟨id, trivial⟩
  · intro t₁ s₂ s₃ toolset _
    exact mergeGrants_traced _

/-! ### The command alone -/

/-- Alone, the command saves what it has read. -/
theorem solo_merged {t updated : Toolset} {s' : StoredToolset}
    (hreplaced : t.replaceGrants t.val.revision
      (sortedSet (t.val.principalIds ++ principalIds)) "system" env.mergedAt = .ok updated)
    (hsave : save .released tenantId updated (some t.val) = .ok ((), s')) :
    (transactions env tenantId principalIds).solo (some t.val) = (.ok updated, s') := by
  unfold transactions
  rw [solo_getAllPublished]
  change (mergeGrants env tenantId principalIds).solo (some t.val) = _
  unfold mergeGrants
  rw [solo_getAllPublished]
  dsimp only
  rw [asValueError_eq_ok.2 hreplaced, lift_bind_ok]
  exact solo_atomically (f := fun _ => updated) (asValueError_eq_ok.2 hsave)

theorem solo_created {toolset : Toolset}
    (hcreated : created env.toToolsetEnv tenantId principalIds = .ok toolset)
    (htenant : tenantId = toolset.val.tenantId) :
    (transactions env tenantId principalIds).solo none = (.ok toolset, some toolset.val) := by
  have hadd : add tenantId toolset none = .ok ((), some toolset.val) :=
    addStored_eq_ok.2 ⟨htenant, rfl, rfl⟩
  unfold transactions
  rw [getAllPublished_bind, solo_read_bind]
  dsimp only [StoredToolset.model, Option.map_none]
  rw [asValueError_eq_ok.2 hcreated, lift_bind_ok]
  exact solo_atomically_tryCatch (f := fun _ => toolset) (asValueError_eq_ok.2 hadd)

/-- Alone, the command changes nothing where the principals have their grants. -/
theorem solo_same {t : Toolset} (htenant : tenantId = t.val.tenantId)
    (hblank : ∀ p ∈ t.val.principalIds ++ principalIds, isBlank p = false)
    (hsame : sortedSet (t.val.principalIds ++ principalIds) = t.val.principalIds) :
    (transactions env tenantId principalIds).solo (some t.val) = (.ok t, some t.val) := by
  apply solo_merged
  · apply Toolset.replaceGrants_same
    · intro p hp
      exact hblank p (mem_sortedSet.1 hp)
    · rw [sortedSet_sortedSet, hsame]
  · exact save_eq_ok.2 ⟨htenant, t, rfl, htenant.symm, rfl, .inl ⟨rfl, rfl⟩⟩

theorem created_principalIds {env : ToolsetEnv} {t : Toolset}
    (h : created env tenantId principalIds = .ok t) (x : String) :
    x ∈ t.val.principalIds ↔ x ∈ principalIds := by
  unfold created at h
  obtain ⟨t₀, hcreate, h⟩ := bind_eq_ok.1 h
  split at h
  · next hempty =>
    cases h
    unfold Toolset.createAllPublished at hcreate
    obtain ⟨digest, -, hcreate⟩ := bind_eq_ok.1 hcreate
    rw [buildToolset_eq_ok] at hcreate
    simp [hcreate, hempty, ToolsetFields.principalIds]
  · rw [(Toolset.replaceGrants_principalIds h).2, mem_sortedSet]

end EnsureAllPublishedToolset

/-! ## No lost updates -/

/-- What a command may do to the grants: a bootstrap adds its principals and takes none
    away, and a replacement leaves the ones that it names. -/
def GrantCommand.Grants : GrantCommand → StoredToolset → StoredToolset → Prop
  | ensureAllPublished principalIds, s, s' =>
    ∀ x, x ∈ s'.principalIds ↔ x ∈ s.principalIds ∨ x ∈ principalIds
  | replaceGrants command, _, s' => ∀ x, x ∈ s'.principalIds ↔ x ∈ command.principalIds

/-- A change that a command makes is counted, and does to the grants what it may. -/
def GrantCommand.Keeps (command : GrantCommand) (s s' : StoredToolset) : Prop :=
  Counted s s' ∧ command.Grants s s'

/-- A run that lost no update: the committed outcome is that of a serial order of the commands
    that succeeded, every change is counted, and none does more to the grants than it may. -/
structure NoLostUpdate {Pid : Type} [DecidableEq Pid] (commands : Pid → GrantCommand)
    (w₀ w : SerialWorld StoredToolset Exc Pid fun p => (commands p).Answer) : Prop where
  serial : SerialOutcome w₀ w
  keeps : ∀ c ∈ w.commits, c.after = c.before ∨ (commands c.pid).Keeps c.before c.after

/-- The three transactions before the last one found the store as the last one did, unless
    that one changed nothing. -/
def Undisturbed : List (StoredToolset × StoredToolset) → Prop
  | [] => True
  | (s, s') :: earlier => s' = s ∨ ∀ seen ∈ earlier.take 3, seen.1 = s

theorem sound_some (t : Toolset) : StoredToolset.Sound (some t.val) := by
  intro u hu
  cases hu
  exact t.property

namespace EnsureAllPublishedToolset

variable {env : GrantEnv} {tenantId : Id} {principalIds : List String}

/-- A bootstrap that succeeded undisturbed did what it does alone. -/
theorem Seen.acts {seen : List (StoredToolset × StoredToolset)} {a : Toolset}
    (h : Seen env tenantId principalIds seen a) :
    ActsAtLast StoredToolset.Sound (GrantCommand.ensureAllPublished principalIds).Keeps Undisturbed
      (transactions env tenantId principalIds) seen a := by
  cases h with
  | @created toolset hcreated htenant =>
    refine ⟨_, _, _, rfl, fun _ _ => ⟨⟨_, solo_created hcreated htenant⟩, sound_some a, ?_, ?_⟩⟩
    · exact .inr (.inl rfl)
    · intro x
      have hx := created_principalIds hcreated x
      simpa [StoredToolset.principalIds, StoredToolset.grants, ToolsetFields.principalIds] using hx
  | @merged t₁ s₂ s₃ s s' _ earlier hmerges =>
    obtain ⟨toolset, hbuilt, hreplaced, hsave⟩ := hmerges
    obtain ⟨hblank, hids⟩ := Toolset.replaceGrants_principalIds hreplaced
    rw [sortedSet_sortedSet] at hids
    simp only [mem_sortedSet] at hblank
    obtain ⟨htenant, hstored, hcounted⟩ := save_counted hsave
    refine ⟨_, _, _, rfl, ?_⟩
    rintro (rfl | hseen) hsound
    · -- Nothing was changed, so the toolset that is stored has the grants already.
      have hprincipals : ∀ x, x ∈ a.val.principalIds ++ principalIds ↔
          x ∈ toolset.val.principalIds ++ principalIds := by
        intro x
        rw [hids]
        simp only [List.mem_append, mem_sortedSet]
        tauto
      have hsame : sortedSet (a.val.principalIds ++ principalIds) = a.val.principalIds :=
        (sortedSet_congr hprincipals).trans hids.symm
      have hblank' : ∀ p ∈ a.val.principalIds ++ principalIds, isBlank p = false :=
        fun p hp => hblank p ((hprincipals p).1 hp)
      rw [hstored]
      refine ⟨⟨a, solo_same htenant.symm hblank' hsame⟩, sound_some a, .inl rfl, ?_⟩
      intro x
      change x ∈ a.val.principalIds ↔ x ∈ a.val.principalIds ∨ x ∈ principalIds
      rw [hids]
      simp only [mem_sortedSet, List.mem_append]
      tauto
    · -- The reads found the present store, so the aggregate is the toolset that is stored.
      obtain ⟨rfl, rfl, hs⟩ : s₃ = s ∧ s₂ = s ∧ some t₁ = s := by
        simpa using hseen
      subst hs
      obtain rfl : toolset.val = t₁ := toolsetFromModels_eq_ok.1 hbuilt
      refine ⟨⟨_, solo_merged hreplaced hsave⟩, hstored ▸ sound_some a, hcounted, ?_⟩
      intro x
      rw [hstored]
      change x ∈ a.val.principalIds ↔ x ∈ toolset.val.principalIds ∨ x ∈ principalIds
      rw [hids, mem_sortedSet, List.mem_append]

/-- Where revisions only grow, a bootstrap that succeeded was not disturbed. -/
theorem Seen.undisturbed {seen : List (StoredToolset × StoredToolset)} {a : Toolset}
    (h : Seen env tenantId principalIds seen a)
    (hpairs : seen.Pairwise fun newer older => Later older.2 newer.1) : Undisturbed seen := by
  cases h with
  | created => exact .inr (by simp)
  | @merged t₁ s₂ s₃ s s' _ earlier hmerges =>
    obtain ⟨toolset, hbuilt, hreplaced, hsave⟩ := hmerges
    obtain ⟨-, current, rfl, -, -, ⟨-, hsame⟩ | ⟨hneeded, -⟩⟩ := save_eq_ok.1 hsave
    · exact .inl hsame
    · simp only [List.pairwise_cons, List.forall_mem_cons] at hpairs
      obtain ⟨⟨h₃, h₂, h₁, -⟩, ⟨-, h₁₃, -⟩, ⟨h₁₂, -⟩, -⟩ := hpairs
      -- The save was accepted, so the row that was read has the revision that is stored.
      have hloaded : t₁.revision = current.val.revision := by
        have hnext := (requiresPersistenceUpdate_eq_true.1 hneeded).2.2
        have hval := buildToolset_eq_ok.1 hbuilt
        have hread : toolset.val.revision = t₁.revision := by rw [hval]; rfl
        have hreplacement := Toolset.replaceGrants_revision hreplaced
        have hgrown := h₁.revision rfl rfl
        omega
      have hs₃ := h₁₃.squeeze h₃ rfl rfl hloaded
      have hs₂ := h₁₂.squeeze h₂ rfl rfl hloaded
      have hs₁ := Later.squeeze (.inl rfl) h₁ rfl rfl hloaded
      refine .inr ?_
      simp [hs₁, hs₂, hs₃]

end EnsureAllPublishedToolset

namespace ReplaceToolsetGrants

variable {env : GrantEnv} {command : ReplaceToolsetGrantsCommand}

theorem transactions_traced :
    (transactions env command).Traced
      (fun seen answer => ∃ s s', seen = [(s, s')] ∧ locked env command s = .ok (answer, s')) [] := by
  refine ⟨fun s answer s' hlocked => ⟨.inr trivial, s, s', rfl, hlocked⟩, fun e => ⟨id, trivial⟩⟩

theorem transactions_solo {s s' : StoredToolset} {answer : ToolsetProfile}
    (h : locked env command s = .ok (answer, s')) :
    (transactions env command).solo s = (.ok answer, s') := by
  unfold transactions atomically solo
  rw [h]
  rfl

theorem locked_keeps {s s' : StoredToolset} {answer : ToolsetProfile}
    (h : locked env command s = .ok (answer, s')) :
    s'.Sound ∧ (GrantCommand.replaceGrants command).Keeps s s' := by
  obtain ⟨toolset, updated, rfl, hreplaced, hsave⟩ := locked_saves h
  obtain ⟨-, rfl, hcounted⟩ := save_counted hsave
  refine ⟨sound_some updated, hcounted, ?_⟩
  intro x
  change x ∈ updated.val.principalIds ↔ x ∈ command.principalIds
  rw [(Toolset.replaceGrants_principalIds hreplaced).2, mem_sortedSet]

end ReplaceToolsetGrants

/-- What a command has seen when it succeeds. -/
def GrantCommand.Seen (env : GrantEnv) (tenantId : Id) : (command : GrantCommand) →
    List (StoredToolset × StoredToolset) → command.Answer → Prop
  | ensureAllPublished principalIds => EnsureAllPublishedToolset.Seen env tenantId principalIds
  | replaceGrants command => fun seen answer =>
    ∃ s s', seen = [(s, s')] ∧ ReplaceToolsetGrants.locked env command s = .ok (answer, s')

theorem GrantCommand.traced {env : GrantEnv} {tenantId : Id} (command : GrantCommand) :
    (command.transactions env tenantId).Traced (command.Seen env tenantId) [] := by
  cases command with
  | ensureAllPublished principalIds => exact EnsureAllPublishedToolset.transactions_traced
  | replaceGrants command => exact ReplaceToolsetGrants.transactions_traced

theorem GrantCommand.Seen.acts {env : GrantEnv} {tenantId : Id} {command : GrantCommand}
    {seen : List (StoredToolset × StoredToolset)} {a : command.Answer}
    (h : command.Seen env tenantId seen a) :
    ActsAtLast StoredToolset.Sound command.Keeps Undisturbed
      (command.transactions env tenantId) seen a := by
  cases command with
  | ensureAllPublished principalIds => exact EnsureAllPublishedToolset.Seen.acts h
  | replaceGrants command =>
    obtain ⟨s, s', rfl, hlocked⟩ := h
    refine ⟨s, s', [], rfl, fun _ _ => ⟨⟨a, ?_⟩, ?_⟩⟩
    · exact ReplaceToolsetGrants.transactions_solo hlocked
    · exact ReplaceToolsetGrants.locked_keeps hlocked

theorem GrantCommand.Seen.undisturbed {env : GrantEnv} {tenantId : Id} {command : GrantCommand}
    {seen : List (StoredToolset × StoredToolset)} {a : command.Answer}
    (h : command.Seen env tenantId seen a)
    (hpairs : seen.Pairwise fun newer older => Later older.2 newer.1) : Undisturbed seen := by
  cases command with
  | ensureAllPublished principalIds => exact EnsureAllPublishedToolset.Seen.undisturbed h hpairs
  | replaceGrants command =>
    obtain ⟨s, s', rfl, -⟩ := h
    exact .inr (by simp)

/-- For every interleaving of bootstraps and replacements, no update is lost. -/
theorem no_lost_grant_update {Pid : Type} [DecidableEq Pid] {Fault : Exc → Prop}
    (tenantId : Id) (stored : Option Toolset) (env : Pid → GrantEnv)
    (commands : Pid → GrantCommand)
    {w : SerialWorld StoredToolset Exc Pid fun p => (commands p).Answer}
    (h : Reaches Fault (grantWorld tenantId stored env commands) w) :
    NoLostUpdate commands (grantWorld tenantId stored env commands) w := by
  have hwithin := within_of_reaches (R := fun _ => Counted) (fun p => (commands p).commits) h
  -- Every commit is counted, so the stores of a run are ordered by their revisions.
  have hordered := (hwithin.linked.pairwise (R := Later) (fun _ => .inl rfl)
    (fun _ _ _ => Later.trans) fun c hc => (hwithin.commits c hc).later).2
  have hmet : ∀ p, (w.procs p).Succeeded → Undisturbed (w.history p) := by
    intro p hp
    have hseen := traced_of_reaches (Q := fun p => (commands p).Seen (env p) tenantId)
      (fun p => (commands p).traced) h p
    obtain ⟨a, ha⟩ := succeeded_iff.1 hp
    rw [ha] at hseen
    exact GrantCommand.Seen.undisturbed hseen (history_pairwise hordered p)
  have hstart : StoredToolset.Sound (stored.map (·.val)) := by
    intro t ht
    obtain ⟨toolset, -, rfl⟩ := Option.map_eq_some_iff.1 ht
    exact toolset.property
  obtain ⟨hserial, -, hkeeps⟩ := serialOutcome_of_reaches
    (I := StoredToolset.Sound) (R := fun p => (commands p).Keeps) (C := fun _ => Undisturbed)
    (fun p => (commands p).traced.mono fun _ _ => GrantCommand.Seen.acts) hstart h hmet
  exact ⟨hserial, hkeeps⟩

end Concurrency

/-! ### An overtaken bootstrap -/

section Overtaken

attribute [local instance] zeroSha256

/-- The first bootstrap grants the toolset to an auditor, and the second one to a service.
    Between them an administrator takes all grants away. -/
def overtakenCommands : Fin 3 → GrantCommand
  | 0 => .ensureAllPublished ["auditor"]
  | 1 => .ensureAllPublished ["service"]
  | 2 => .replaceGrants
    { context := ⟨"r", "t", "tenant-1", "admin-1", "token", "admin_user"⟩
      toolsetId := "toolset-1"
      expectedRevision := 2
      principalIds := [] }

def overtakenEnv (p : Fin 3) : GrantEnv where
  newId := "toolset-1"
  clock _ := 5 + p
  catalog := ⟨fun _ _ => [], fun _ => []⟩
  mergedAt := 5 + p

def overtakenStart : SerialWorld StoredToolset Exc (Fin 3) fun p => (overtakenCommands p).Answer :=
  grantWorld "tenant-1" none overtakenEnv overtakenCommands

/-- The second bootstrap has read the toolset when the administrator changes it, and tries to
    save it afterwards. -/
def overtaken : SerialWorld StoredToolset Exc (Fin 3) fun p => (overtakenCommands p).Answer :=
  overtakenStart.runSchedule [0, 0, 1, 1, 1, 1, 1, 1, 2, 1]

/-- The second bootstrap is refused, and the grant that was removed stays removed. -/
theorem no_lost_grant_update_overtaken :
    (¬ (overtaken.procs 1).Succeeded ∧ overtaken.store.principalIds = []) ∧
      NoLostUpdate overtakenCommands overtakenStart overtaken := by
  refine ⟨by decide +kernel, ?_⟩
  exact @no_lost_grant_update _ _ _ (fun _ => False) "tenant-1" none overtakenEnv
    overtakenCommands _ (reaches_runSchedule overtakenStart _)

end Overtaken

end NexusMcp
