-- SUMMARY: Replacing the members or the grants of a toolset, read as an operation on sets.
import NexusMcp.Toolsets.Revisions

/-!
# Replacement

`replace_members` and `replace_grants` are one algorithm over two collections. What they do
to the sets of identifiers does not depend on the order of the rows, except for the test
that finds nothing to do.
-/

namespace NexusMcp

/-! ## Sets of identifiers -/

/-- Two lists have the same elements. -/
def SameSet (a b : List String) : Prop := ∀ x, x ∈ a ↔ x ∈ b

theorem SameSet.symm {a b : List String} (h : SameSet a b) : SameSet b a := fun x => (h x).symm

theorem SameSet.trans {a b c : List String} (h : SameSet a b) (h' : SameSet b c) : SameSet a c :=
  fun x => (h x).trans (h' x)

theorem sameSet_sortedSet (ids : List String) : SameSet (sortedSet ids) ids :=
  fun _ => mem_sortedSet

/-- A list in increasing order is the sorted set of its elements. -/
theorem sortedSet_of_pairwise {ids : List String} (h : ids.Pairwise (· < ·)) :
    sortedSet ids = ids := by
  have hnodup : ids.Nodup := h.imp fun hlt => ne_of_lt hlt
  unfold sortedSet
  rw [hnodup.dedup]
  exact List.Pairwise.insertionSort_eq (h.imp fun hlt => le_of_lt hlt)

theorem pairwise_sortedSet (ids : List String) : (sortedSet ids).Pairwise (· < ·) := by
  have hle : (sortedSet ids).Pairwise (· ≤ ·) := List.pairwise_insertionSort (· ≤ ·) _
  refine (hle.and (nodup_sortedSet ids)).imp ?_
  rintro x y ⟨hxy, hne⟩
  exact lt_of_le_of_ne hxy hne

/-! ## Collections of a toolset -/

section Replacement

variable [Sha256]

/-- A collection of a toolset that an operation replaces: its rows with their keys and what is
    recorded when a row is made, the making of a row, and the operation itself. -/
structure Collection (ρ : Type) where
  rows : ToolsetFields → List ρ
  /-- The fields with other rows. -/
  withRows : ToolsetFields → List ρ → ToolsetFields
  key : ρ → String
  stamp : ρ → String × Time
  make : Toolset → String → Time → String → Except ToolsetError ρ
  /-- What is asked of a toolset and of the keys given, beside the revision. -/
  Accepts : ToolsetFields → List String → Prop
  replace : Toolset → Int → List String → String → Time → Except ToolsetError Toolset

def memberCollection : Collection ToolsetMember where
  rows t := t.members
  withRows t rows := { t with members := rows }
  key m := m.val.toolId
  stamp m := (m.val.addedBy, m.val.addedAt)
  make t actorId occurredAt toolId := buildMember
    { tenantId := t.val.tenantId
      toolsetId := t.val.id
      toolId := toolId
      addedBy := actorId
      addedAt := occurredAt }
  Accepts t ids := t.kind ≠ .allPublished ∧ (∀ v ∈ ids, isBlank v = false) ∧
    ¬ (t.status = .active ∧ ids = [])
  replace := Toolset.replaceMembers

def grantCollection : Collection ToolsetAccessGrant where
  rows t := t.grants
  withRows t rows := { t with grants := rows }
  key g := g.val.principalId
  stamp g := (g.val.grantedBy, g.val.grantedAt)
  make t actorId occurredAt principalId := buildGrant
    { tenantId := t.val.tenantId
      toolsetId := t.val.id
      principalId := principalId
      grantedBy := actorId
      grantedAt := occurredAt }
  Accepts _ ids := ∀ v ∈ ids, isBlank v = false
  replace := Toolset.replaceGrants

namespace Collection

variable {ρ : Type} (c : Collection ρ)

/-- The keys that a toolset holds, in the order of its rows. -/
def keys (t : ToolsetFields) : List String := (c.rows t).map c.key

/-- The row for a key: the one there is, or a new one. -/
def rowFor (t : Toolset) (actorId : String) (occurredAt : Time) (id : String) :
    Except ToolsetError ρ :=
  match (c.rows t.val).find? (c.key · = id) with
  | some row => .ok row
  | none => c.make t actorId occurredAt id

/-- The fields of a replacement. The digest is what the checks of a toolset make it. -/
def replaced (t : ToolsetFields) (rows : List ρ) (digest : String) (occurredAt : Time) :
    ToolsetFields :=
  { c.withRows t rows with
    membershipDigest := digest
    revision := t.revision + 1
    updatedAt := occurredAt }

/-- Two toolsets differ at most in the order of the rows. -/
def SameUpToOrder (t t₂ : Toolset) : Prop :=
  t₂.val = c.withRows t.val (c.rows t₂.val) ∧ (c.rows t.val).Perm (c.rows t₂.val)

/-! ### What is claimed of a replacement -/

/-- The replacement `t'` of `t` holds exactly the given keys: rows that were there are kept,
    others are stamped with the command's actor and time, and nothing else has changed. -/
structure Exchanged (t : Toolset) (ids : List String) (actorId : String) (occurredAt : Time)
    (t' : Toolset) : Prop where
  once : (c.keys t'.val).Nodup
  exactly : SameSet (c.keys t'.val) ids
  kept : ∀ row ∈ c.rows t.val, c.key row ∈ ids → row ∈ c.rows t'.val
  stamped : ∀ row ∈ c.rows t'.val,
    row ∈ c.rows t.val ∨ c.key row ∉ c.keys t.val ∧ c.stamp row = (actorId, occurredAt)
  others : t'.val = c.replaced t.val (c.rows t'.val) t'.val.membershipDigest occurredAt

/-- A replacement that returns `t'` is one of sets. Where the given set is the one held,
    `unchanged` says so for each order of the rows. -/
structure ActsOnSets (t : Toolset) (ids : List String) (actorId : String) (occurredAt : Time)
    (t' : Toolset) : Prop where
  unchanged : t' = t ↔ SameSet ids (c.keys t.val)
  changed : ¬ SameSet ids (c.keys t.val) → c.Exchanged t ids actorId occurredAt t'
  givenOrder : ∀ ids₂, SameSet ids₂ ids →
    c.replace t t.val.revision ids₂ actorId occurredAt = .ok t'
  heldOrder : ¬ SameSet ids (c.keys t.val) → ∀ t₂, c.SameUpToOrder t t₂ →
    c.replace t₂ t₂.val.revision ids actorId occurredAt = .ok t'
  again : ∀ actorId₂ occurredAt₂,
    c.replace t' t'.val.revision ids actorId₂ occurredAt₂ = .ok t'

/-- The replacement under the current revision is one of sets, whenever it returns. -/
def SetSemantics (t : Toolset) (ids : List String) (actorId : String) (occurredAt : Time) : Prop :=
  ∀ t', c.replace t t.val.revision ids actorId occurredAt = .ok t' →
    c.ActsOnSets t ids actorId occurredAt t'

/-- The order of the rows cannot be seen: the given set is another one than the set held, or the
    rows are in increasing order of their keys, or the clock is behind the toolset, which then
    refuses a change. -/
def OrderUnseen (t : Toolset) (ids : List String) (occurredAt : Time) : Prop :=
  ¬ SameSet ids (c.keys t.val) ∨ (c.keys t.val).Pairwise (· < ·) ∨ occurredAt < t.val.updatedAt

/-! ## What the two operations have in common -/

/-- The facts about a collection from which the behaviour of its replacement follows. -/
structure Lawful : Prop where
  updatedAt_withRows : ∀ t rows, (c.withRows t rows).updatedAt = t.updatedAt
  rows_replaced : ∀ t rows digest occurredAt, c.rows (c.replaced t rows digest occurredAt) = rows
  replaced_withRows : ∀ t rows rows₂ digest occurredAt,
    c.replaced (c.withRows t rows) rows₂ digest occurredAt = c.replaced t rows₂ digest occurredAt
  nodup_keys : ∀ t : Toolset, (c.keys t.val).Nodup
  make_eq_ok : ∀ {t actorId occurredAt id row}, c.make t actorId occurredAt id = .ok row →
    c.key row = id ∧ c.stamp row = (actorId, occurredAt)
  make_congr : ∀ {t t₂}, c.SameUpToOrder t t₂ → c.make t = c.make t₂
  accepts_congr : ∀ {t ids ids₂}, SameSet ids ids₂ → c.Accepts t ids → c.Accepts t ids₂
  accepts_withRows : ∀ {t rows ids}, c.Accepts t ids → c.Accepts (c.withRows t rows) ids
  accepts_replaced : ∀ {t rows digest occurredAt ids}, c.Accepts t ids →
    c.Accepts (c.replaced t rows digest occurredAt) ids
  accepts_keys : ∀ {t : Toolset}, c.rows t.val ≠ [] → c.Accepts t.val (c.keys t.val)
  /-- The rows of a toolset can be put in another order. -/
  valid_replaced : ∀ {t : Toolset} {rows occurredAt}, rows.Perm (c.rows t.val) →
    t.val.updatedAt ≤ occurredAt →
    Valid (c.replaced t.val rows t.val.membershipDigest occurredAt)
  replace_eq_ok : ∀ {t t' : Toolset} {ids actorId occurredAt},
    c.replace t t.val.revision ids actorId occurredAt = .ok t' ↔ c.Accepts t.val ids ∧
      (sortedSet ids = c.keys t.val ∧ t' = t ∨
        sortedSet ids ≠ c.keys t.val ∧ t.val.updatedAt ≤ occurredAt ∧
          ∃ rows, (sortedSet ids).mapM (c.rowFor t actorId occurredAt) = .ok rows ∧
            t'.val = c.replaced t.val rows t'.val.membershipDigest occurredAt)

variable {c}

/-- The keys of toolsets that differ in the order of the rows are the same set. -/
theorem SameUpToOrder.sameSet_keys {t t₂ : Toolset} (h : c.SameUpToOrder t t₂) :
    SameSet (c.keys t.val) (c.keys t₂.val) :=
  fun _ => (h.2.map c.key).mem_iff

/-- The row for a key has this key, if those that are made do. -/
theorem key_of_rowFor {t : Toolset} {actorId : String} {occurredAt : Time}
    (hmake : ∀ {id row}, c.make t actorId occurredAt id = .ok row → c.key row = id)
    {id : String} {row : ρ} (h : c.rowFor t actorId occurredAt id = .ok row) : c.key row = id := by
  unfold rowFor at h
  split at h
  · next found hfound =>
    cases h
    simpa using List.find?_some hfound
  · exact hmake h

/-- The rows made for some keys have these keys, in this order. -/
theorem keys_of_mapM {t : Toolset} {actorId : String} {occurredAt : Time}
    (hmake : ∀ {id row}, c.make t actorId occurredAt id = .ok row → c.key row = id)
    {ids : List String} {rows : List ρ}
    (h : ids.mapM (c.rowFor t actorId occurredAt) = .ok rows) : rows.map c.key = ids := by
  rw [mapM_eq_ok] at h
  induction h with
  | nil => rfl
  | cons hrow _ ih => rw [List.map_cons, ih, key_of_rowFor hmake hrow]

/-- Rows with different keys in another order are the same rows. -/
theorem perm_of_nodup_keys {rows rows₂ : List ρ} (h : (rows.map c.key).Nodup)
    (h₂ : (rows₂.map c.key).Nodup) (hmem : ∀ row, row ∈ rows ↔ row ∈ rows₂) : rows.Perm rows₂ :=
  (List.perm_ext_iff_of_nodup h.of_map h₂.of_map).2 hmem

namespace Lawful

variable {t t' : Toolset} {ids : List String} {actorId : String} {occurredAt : Time}

/-- A row is found by its key. -/
theorem find?_key (hc : c.Lawful) {row : ρ} {id : String} :
    (c.rows t.val).find? (c.key · = id) = some row ↔ row ∈ c.rows t.val ∧ c.key row = id := by
  rw [find?_eq_some_of_unique, decide_eq_true_iff]
  intro x hx y hy hpx hpy
  simp only [decide_eq_true_eq] at hpx hpy
  exact List.inj_on_of_nodup_map (hc.nodup_keys t) hx hy (hpx.trans hpy.symm)

theorem rowFor_of_mem (hc : c.Lawful) {row : ρ} (h : row ∈ c.rows t.val) :
    c.rowFor t actorId occurredAt (c.key row) = .ok row := by
  simp only [rowFor, hc.find?_key.2 ⟨h, rfl⟩]

theorem rowFor_eq_ok (hc : c.Lawful) {row : ρ} {id : String}
    (h : c.rowFor t actorId occurredAt id = .ok row) : c.key row = id ∧
      (row ∈ c.rows t.val ∨ id ∉ c.keys t.val ∧ c.stamp row = (actorId, occurredAt)) := by
  unfold rowFor at h
  split at h
  · next found hfound =>
    obtain ⟨hmem, hkey⟩ := hc.find?_key.1 hfound
    cases h
    exact ⟨hkey, .inl hmem⟩
  · next hnone =>
    obtain ⟨hkey, hstamp⟩ := hc.make_eq_ok h
    refine ⟨hkey, .inr ⟨?_, hstamp⟩⟩
    intro hheld
    obtain ⟨held, hmem, hid⟩ := List.mem_map.1 hheld
    simpa [hid] using List.find?_eq_none.1 hnone held hmem

/-- The rows are found and made alike in toolsets that differ in the order of the rows. -/
theorem rowFor_congr (hc : c.Lawful) {t₂ : Toolset} (h : c.SameUpToOrder t t₂) :
    c.rowFor t = c.rowFor t₂ := by
  funext actorId occurredAt id
  have hfind : (c.rows t.val).find? (c.key · = id) = (c.rows t₂.val).find? (c.key · = id) := by
    ext row
    simp only [hc.find?_key, h.2.mem_iff]
  simp only [rowFor, hfind, hc.make_congr h]

theorem key_of_make (hc : c.Lawful) {id : String} {row : ρ}
    (h : c.make t actorId occurredAt id = .ok row) : c.key row = id :=
  (hc.make_eq_ok h).1

/-- What a replacement that was made has done. -/
theorem exchanged (hc : c.Lawful) {rows : List ρ}
    (hrows : (sortedSet ids).mapM (c.rowFor t actorId occurredAt) = .ok rows)
    (hval : t'.val = c.replaced t.val rows t'.val.membershipDigest occurredAt) :
    c.Exchanged t ids actorId occurredAt t' := by
  have hrows' : c.rows t'.val = rows := by rw [hval, hc.rows_replaced]
  have hkeys : c.keys t'.val = sortedSet ids := by
    rw [keys, hrows', keys_of_mapM hc.key_of_make hrows]
  constructor
  case once => exact hc.nodup_keys t'
  case exactly => exact hkeys ▸ sameSet_sortedSet ids
  case kept =>
    intro row hrow hkey
    rw [hrows', mem_mapM hrows]
    exact ⟨c.key row, mem_sortedSet.2 hkey, hc.rowFor_of_mem hrow⟩
  case stamped =>
    intro row hrow
    rw [hrows', mem_mapM hrows] at hrow
    obtain ⟨id, -, hid⟩ := hrow
    obtain ⟨rfl, hnew⟩ := hc.rowFor_eq_ok hid
    exact hnew
  case others => exact hrows'.symm ▸ hval

/-- A replacement that finds nothing to do acts on sets. -/
theorem actsOnSets_of_same (hc : c.Lawful) (haccepts : c.Accepts t.val ids)
    (hsame : sortedSet ids = c.keys t.val) : c.ActsOnSets t ids actorId occurredAt t := by
  have hset : SameSet ids (c.keys t.val) := hsame ▸ (sameSet_sortedSet ids).symm
  constructor
  case unchanged => exact iff_of_true rfl hset
  case changed => exact fun hne => absurd hset hne
  case givenOrder =>
    intro ids₂ hids₂
    refine hc.replace_eq_ok.2 ⟨hc.accepts_congr hids₂.symm haccepts, .inl ⟨?_, rfl⟩⟩
    rw [sortedSet_congr hids₂, hsame]
  case heldOrder => exact fun hne => absurd hset hne
  case again => exact fun _ _ => hc.replace_eq_ok.2 ⟨haccepts, .inl ⟨hsame, rfl⟩⟩

/-- A replacement of a set by another one acts on sets. -/
theorem actsOnSets_of_exchange (hc : c.Lawful) (hne : ¬ SameSet ids (c.keys t.val))
    (haccepts : c.Accepts t.val ids) (hclock : t.val.updatedAt ≤ occurredAt) {rows : List ρ}
    (hrows : (sortedSet ids).mapM (c.rowFor t actorId occurredAt) = .ok rows)
    (hval : t'.val = c.replaced t.val rows t'.val.membershipDigest occurredAt) :
    c.ActsOnSets t ids actorId occurredAt t' := by
  have hdiffers : ∀ {t₂ : Toolset}, ¬ SameSet ids (c.keys t₂.val) →
      sortedSet ids ≠ c.keys t₂.val := by
    intro t₂ hne₂ hsame
    exact hne₂ (hsame ▸ (sameSet_sortedSet ids).symm)
  have hkeys : c.keys t'.val = sortedSet ids := by
    rw [keys, hval, hc.rows_replaced, keys_of_mapM hc.key_of_make hrows]
  constructor
  case unchanged =>
    refine iff_of_false ?_ hne
    rintro rfl
    -- The toolset is another one, since its revision has grown.
    have hrevision := congrArg ToolsetFields.revision hval
    simp only [replaced] at hrevision
    omega
  case changed => exact fun _ => hc.exchanged hrows hval
  case givenOrder =>
    intro ids₂ hids₂
    -- The ids are sorted before anything is done with them.
    have hne₂ : sortedSet ids₂ ≠ c.keys t.val := sortedSet_congr hids₂ ▸ hdiffers hne
    refine hc.replace_eq_ok.2 ⟨hc.accepts_congr hids₂.symm haccepts, .inr ⟨hne₂, hclock, rows, ?_⟩⟩
    exact ⟨sortedSet_congr hids₂ ▸ hrows, hval⟩
  case heldOrder =>
    intro _ t₂ ht₂
    -- No order of the held rows makes the sets equal.
    have hne₂ : ¬ SameSet ids (c.keys t₂.val) := fun h => hne (h.trans ht₂.sameSet_keys.symm)
    refine hc.replace_eq_ok.2 ⟨?_, .inr ⟨hdiffers hne₂, ?_, rows, ?_, ?_⟩⟩
    · rw [ht₂.1]
      exact hc.accepts_withRows haccepts
    · rw [ht₂.1, hc.updatedAt_withRows]
      exact hclock
    · rw [← hc.rowFor_congr ht₂]
      exact hrows
    · rw [ht₂.1, hc.replaced_withRows]
      exact hval
  case again =>
    intro actorId₂ occurredAt₂
    refine hc.replace_eq_ok.2 ⟨?_, .inl ⟨hkeys.symm, rfl⟩⟩
    rw [hval]
    exact hc.accepts_replaced haccepts

/-- Where the order of the rows is not seen, a replacement acts on sets. -/
theorem setSemantics (hc : c.Lawful) (hunseen : c.OrderUnseen t ids occurredAt) :
    c.SetSemantics t ids actorId occurredAt := by
  intro t' h
  obtain ⟨haccepts, ⟨hsame, rfl⟩ | ⟨hdiffers, hclock, rows, hrows, hval⟩⟩ := hc.replace_eq_ok.1 h
  · exact hc.actsOnSets_of_same haccepts hsame
  · have hne : ¬ SameSet ids (c.keys t.val) := by
      intro hset
      obtain hne | hordered | hbehind := hunseen
      · exact hne hset
      · exact hdiffers ((sortedSet_congr hset).trans (sortedSet_of_pairwise hordered))
      · exact absurd hbehind (not_lt.2 hclock)
    exact hc.actsOnSets_of_exchange hne haccepts hclock hrows hval

/-- The rows of a toolset can be made again for the keys that it holds. -/
theorem mapM_held (hc : c.Lawful) (actorId : String) (occurredAt : Time)
    (hset : SameSet ids (c.keys t.val)) :
    ∃ rows, (sortedSet ids).mapM (c.rowFor t actorId occurredAt) = .ok rows ∧
      rows.Perm (c.rows t.val) := by
  have hheld : ∀ id ∈ sortedSet ids, ∃ row ∈ c.rows t.val, c.key row = id := by
    intro id hid
    exact List.mem_map.1 ((hset id).1 (mem_sortedSet.1 hid))
  obtain ⟨rows, hrows⟩ : ∃ rows, (sortedSet ids).mapM (c.rowFor t actorId occurredAt) = .ok rows := by
    apply mapM_ok_of_forall
    intro id hid
    obtain ⟨row, hrow, rfl⟩ := hheld id hid
    exact ⟨row, hc.rowFor_of_mem hrow⟩
  refine ⟨rows, hrows, perm_of_nodup_keys ?_ (hc.nodup_keys t) ?_⟩
  · rw [keys_of_mapM hc.key_of_make hrows]
    exact nodup_sortedSet ids
  · intro row
    rw [mem_mapM hrows]
    constructor
    · rintro ⟨id, hid, hrow⟩
      obtain ⟨held, hheld, rfl⟩ := hheld id hid
      obtain rfl : held = row := Except.ok.inj ((hc.rowFor_of_mem hheld).symm.trans hrow)
      exact hheld
    · intro hrow
      refine ⟨c.key row, ?_, hc.rowFor_of_mem hrow⟩
      exact mem_sortedSet.2 ((hset _).2 (List.mem_map_of_mem hrow))

/-- Rows in another order than their keys' are put in order, under a new revision, by giving the
    set that is held. -/
theorem reordered (hc : c.Lawful) (actorId : String) (hset : SameSet ids (c.keys t.val))
    (hunordered : ¬ (c.keys t.val).Pairwise (· < ·)) (hclock : t.val.updatedAt ≤ occurredAt) :
    ∃ t', c.replace t t.val.revision ids actorId occurredAt = .ok t' ∧
      t'.val.revision = t.val.revision + 1 := by
  have hnonempty : c.rows t.val ≠ [] := by
    intro hrows
    apply hunordered
    rw [keys, hrows]
    exact .nil
  have hdiffers : sortedSet ids ≠ c.keys t.val := by
    intro hsame
    exact hunordered (hsame ▸ pairwise_sortedSet ids)
  obtain ⟨rows, hrows, hperm⟩ := hc.mapM_held actorId occurredAt hset
  refine ⟨⟨_, hc.valid_replaced hperm hclock⟩, hc.replace_eq_ok.2 ⟨?_, .inr ?_⟩, rfl⟩
  · exact hc.accepts_congr hset.symm (hc.accepts_keys hnonempty)
  · exact ⟨hdiffers, hclock, rows, hrows, rfl⟩

/-- A replacement acts on sets exactly where the order of the rows is not seen. -/
theorem setSemantics_iff (hc : c.Lawful) :
    c.SetSemantics t ids actorId occurredAt ↔ c.OrderUnseen t ids occurredAt := by
  constructor
  · intro h
    by_contra hseen
    simp only [OrderUnseen, not_or, not_not, not_lt] at hseen
    obtain ⟨hset, hunordered, hclock⟩ := hseen
    obtain ⟨t', hreplace, hrevision⟩ := hc.reordered actorId hset hunordered hclock
    obtain rfl : t' = t := (h t' hreplace).unchanged.2 hset
    omega
  · exact hc.setSemantics

end Lawful

end Collection

/-! ## Members and grants -/

omit [Sha256] in
theorem normalizedIds_congr {fieldName : String} {a b : List String} (h : SameSet a b) :
    normalizedIds fieldName a = normalizedIds fieldName b := by
  have hany : a.any isBlank = b.any isBlank := by
    rw [Bool.eq_iff_iff, List.any_eq_true, List.any_eq_true]
    exact exists_congr fun x => and_congr_left' (h x)
  simp only [normalizedIds, hany, sortedSet_congr h]

/-- The digest of a toolset depends on the set of its tools only. -/
theorem calculateMembershipDigest_congr {kind : ToolsetKind} {a b : List Id} (h : SameSet a b) :
    calculateMembershipDigest kind a = calculateMembershipDigest kind b := by
  simp only [calculateMembershipDigest, normalizedIds_congr h]

omit [Sha256] in
theorem val_of_buildMember {fields : ToolsetMemberFields} {m : ToolsetMember}
    (h : buildMember fields = .ok m) : m.val = fields := by
  unfold buildMember at h
  split at h
  · cases h
    rfl
  · cases h

omit [Sha256] in
theorem val_of_buildGrant {fields : ToolsetAccessGrantFields} {g : ToolsetAccessGrant}
    (h : buildGrant fields = .ok g) : g.val = fields := by
  unfold buildGrant at h
  split at h
  · cases h
    rfl
  · cases h

theorem memberCollection_make {t : Toolset} {actorId id : String} {occurredAt : Time}
    {m : ToolsetMember} (h : memberCollection.make t actorId occurredAt id = .ok m) :
    memberCollection.key m = id ∧ memberCollection.stamp m = (actorId, occurredAt) := by
  have hval : m.val = _ := val_of_buildMember h
  simp only [memberCollection, hval, and_self]

theorem grantCollection_make {t : Toolset} {actorId id : String} {occurredAt : Time}
    {g : ToolsetAccessGrant} (h : grantCollection.make t actorId occurredAt id = .ok g) :
    grantCollection.key g = id ∧ grantCollection.stamp g = (actorId, occurredAt) := by
  have hval : g.val = _ := val_of_buildGrant h
  simp only [grantCollection, hval, and_self]

theorem rowFor_members (t : Toolset) (actorId : String) (occurredAt : Time) :
    memberCollection.rowFor t actorId occurredAt = t.memberFor actorId occurredAt := by
  funext toolId
  unfold Collection.rowFor Toolset.memberFor
  -- The two matches are on one term, written through the collection and directly.
  generalize hfind : (memberCollection.rows t.val).find? (memberCollection.key · = toolId) = found
  have hfind' : t.val.members.find? (·.val.toolId = toolId) = found := hfind
  rw [hfind']
  cases found <;> rfl

theorem rowFor_grants (t : Toolset) (actorId : String) (occurredAt : Time) :
    grantCollection.rowFor t actorId occurredAt = t.grantFor actorId occurredAt := by
  funext principalId
  unfold Collection.rowFor Toolset.grantFor
  generalize hfind : (grantCollection.rows t.val).find? (grantCollection.key · = principalId) = found
  have hfind' : t.val.grants.find? (·.val.principalId = principalId) = found := hfind
  rw [hfind']
  cases found <;> rfl

/-- What `replace_members` does under the current revision. -/
theorem replaceMembers_eq_ok {t t' : Toolset} {ids : List Id} {actorId : String}
    {occurredAt : Time} :
    t.replaceMembers t.val.revision ids actorId occurredAt = .ok t' ↔
      memberCollection.Accepts t.val ids ∧
      (sortedSet ids = t.val.toolIds ∧ t' = t ∨
        sortedSet ids ≠ t.val.toolIds ∧ t.val.updatedAt ≤ occurredAt ∧
          ∃ rows, (sortedSet ids).mapM (t.memberFor actorId occurredAt) = .ok rows ∧
            t'.val = memberCollection.replaced t.val rows t'.val.membershipDigest occurredAt) := by
  unfold Toolset.replaceMembers Toolset.requireRevision Toolset.requireMutationTime
  rw [refuseIf_bind_eq_ok, refuseIf_bind_eq_ok, bind_eq_ok]
  constructor
  · rintro ⟨-, hkind, _, hids, h⟩
    obtain ⟨hblank, rfl⟩ := normalizedIds_eq_ok.1 hids
    rw [refuseIf_bind_eq_ok, sortedSet_eq_nil] at h
    obtain ⟨hactive, h⟩ := h
    refine ⟨⟨hkind, hblank, hactive⟩, ?_⟩
    split at h
    · next hsame =>
      cases h
      exact .inl ⟨hsame, rfl⟩
    · next hdiffers =>
      rw [refuseIf_bind_eq_ok] at h
      simp only [bind_eq_ok, buildToolset_eq_ok] at h
      obtain ⟨hclock, rows, hrows, digest, -, hval⟩ := h
      refine .inr ⟨hdiffers, not_lt.1 hclock, rows, hrows, ?_⟩
      rw [hval]
      rfl
  · rintro ⟨⟨hkind, hids, hactive⟩, h⟩
    refine ⟨not_not.2 rfl, hkind, _, normalizedIds_eq_ok.2 ⟨hids, rfl⟩, ?_⟩
    rw [refuseIf_bind_eq_ok, sortedSet_eq_nil]
    refine ⟨hactive, ?_⟩
    obtain ⟨hsame, rfl⟩ | ⟨hdiffers, hclock, rows, hrows, hval⟩ := h
    · rw [if_pos hsame]
      rfl
    · rw [if_neg hdiffers, refuseIf_bind_eq_ok]
      simp only [bind_eq_ok, buildToolset_eq_ok]
      refine ⟨not_lt.2 hclock, rows, hrows, t'.val.membershipDigest, ?_, hval⟩
      -- Building the toolset checks the digest, which is that of the sorted ids.
      have hkeys : t'.val.toolIds = sortedSet ids := by
        rw [hval]
        exact Collection.keys_of_mapM (fun h => (memberCollection_make h).1)
          (rowFor_members t _ _ ▸ hrows)
      have hkind : t'.val.kind = t.val.kind := by
        rw [hval]
        rfl
      rw [← hkeys, ← hkind]
      exact t'.sound.digest

/-- What `replace_grants` does under the current revision. -/
theorem replaceGrants_eq_ok {t t' : Toolset} {ids : List String} {actorId : String}
    {occurredAt : Time} :
    t.replaceGrants t.val.revision ids actorId occurredAt = .ok t' ↔
      grantCollection.Accepts t.val ids ∧
      (sortedSet ids = t.val.principalIds ∧ t' = t ∨
        sortedSet ids ≠ t.val.principalIds ∧ t.val.updatedAt ≤ occurredAt ∧
          ∃ rows, (sortedSet ids).mapM (t.grantFor actorId occurredAt) = .ok rows ∧
            t'.val = grantCollection.replaced t.val rows t'.val.membershipDigest occurredAt) := by
  unfold Toolset.replaceGrants Toolset.requireRevision Toolset.requireMutationTime
  rw [refuseIf_bind_eq_ok, bind_eq_ok]
  constructor
  · rintro ⟨-, _, hids, h⟩
    obtain ⟨hblank, rfl⟩ := normalizedIds_eq_ok.1 hids
    refine ⟨hblank, ?_⟩
    split at h
    · next hsame =>
      cases h
      exact .inl ⟨hsame, rfl⟩
    · next hdiffers =>
      rw [refuseIf_bind_eq_ok] at h
      simp only [bind_eq_ok, buildToolset_eq_ok] at h
      obtain ⟨hclock, rows, hrows, hval⟩ := h
      refine .inr ⟨hdiffers, not_lt.1 hclock, rows, hrows, ?_⟩
      rw [hval]
      rfl
  · rintro ⟨hids, h⟩
    refine ⟨not_not.2 rfl, _, normalizedIds_eq_ok.2 ⟨hids, rfl⟩, ?_⟩
    obtain ⟨hsame, rfl⟩ | ⟨hdiffers, hclock, rows, hrows, hval⟩ := h
    · rw [if_pos hsame]
      rfl
    · rw [if_neg hdiffers, refuseIf_bind_eq_ok]
      simp only [bind_eq_ok, buildToolset_eq_ok]
      refine ⟨not_lt.2 hclock, rows, hrows, ?_⟩
      -- The digest is the one of the same members.
      have hdigest : t'.val.membershipDigest = t.val.membershipDigest := by
        have h' := t'.sound.digest
        rw [hval] at h'
        exact Except.ok.inj (h'.symm.trans t.sound.digest)
      rw [hval, hdigest]
      rfl

theorem memberCollection_lawful : memberCollection.Lawful where
  updatedAt_withRows _ _ := rfl
  rows_replaced _ _ _ _ := rfl
  replaced_withRows _ _ _ _ _ := rfl
  nodup_keys t := t.sound.members.2
  make_eq_ok := memberCollection_make
  make_congr := by
    rintro t t₂ ⟨h, -⟩
    have htenant : t₂.val.tenantId = t.val.tenantId := by rw [h]; rfl
    have hid : t₂.val.id = t.val.id := by rw [h]; rfl
    funext actorId occurredAt toolId
    simp only [memberCollection, htenant, hid]
  accepts_congr := by
    rintro t ids ids₂ h ⟨hkind, hids, hactive⟩
    refine ⟨hkind, fun v hv => hids v ((h v).2 hv), ?_⟩
    rwa [← sortedSet_eq_nil, ← sortedSet_congr h, sortedSet_eq_nil]
  accepts_withRows h := h
  accepts_replaced h := h
  accepts_keys := by
    intro t hrows
    refine ⟨fun hkind => hrows (t.sound.systemMembers hkind), ?_, ?_⟩
    · intro v hv
      obtain ⟨m, -, rfl⟩ := List.mem_map.1 hv
      have := m.property
      simp only [Valid, PostInit.checks, nonBlank, List.forall_mem_cons] at this
      exact this.2.2.1
    · rintro ⟨-, hkeys⟩
      exact hrows (List.map_eq_nil_iff.1 hkeys)
  valid_replaced := by
    intro t rows occurredAt hperm hclock
    have h := t.sound
    -- The same members in another order have the same digest.
    have hset : SameSet ((memberCollection.replaced t.val rows t.val.membershipDigest
        occurredAt).toolIds) t.val.toolIds := fun _ => (hperm.map _).mem_iff
    apply valid_iff_sound.2
    refine ⟨h.ids, h.name, h.createdBy, h.slug, ?_, h.digestText, h.updatedAt.trans hclock,
      h.systemSlug, ?_, ?_, ⟨?_, ?_⟩, h.grants, ?_⟩
    case refine_1 => exact Int.lt_add_one_of_le h.revision.le
    case refine_2 =>
      intro hkind
      have hmembers : rows.Perm t.val.members := hperm
      rw [h.systemMembers hkind] at hmembers
      exact hmembers.eq_nil
    case refine_3 =>
      intro hkind hstatus hrows
      have hmembers : t.val.members.Perm rows := hperm.symm
      rw [show rows = [] from hrows] at hmembers
      exact h.explicitMembers hkind hstatus hmembers.eq_nil
    case refine_4 => exact fun m hm => h.members.1 m (hperm.mem_iff.1 hm)
    case refine_5 => exact (hperm.map _).nodup_iff.2 h.members.2
    case refine_6 => exact (calculateMembershipDigest_congr hset).trans h.digest
  replace_eq_ok := by
    intro t t' ids actorId occurredAt
    rw [rowFor_members]
    exact replaceMembers_eq_ok

theorem grantCollection_lawful : grantCollection.Lawful where
  updatedAt_withRows _ _ := rfl
  rows_replaced _ _ _ _ := rfl
  replaced_withRows _ _ _ _ _ := rfl
  nodup_keys t := t.sound.grants.2
  make_eq_ok := grantCollection_make
  make_congr := by
    rintro t t₂ ⟨h, -⟩
    have htenant : t₂.val.tenantId = t.val.tenantId := by rw [h]; rfl
    have hid : t₂.val.id = t.val.id := by rw [h]; rfl
    funext actorId occurredAt principalId
    simp only [grantCollection, htenant, hid]
  accepts_congr h hids := fun v hv => hids v ((h v).2 hv)
  accepts_withRows h := h
  accepts_replaced h := h
  accepts_keys := by
    intro t _ v hv
    obtain ⟨g, -, rfl⟩ := List.mem_map.1 hv
    have := g.property
    simp only [Valid, PostInit.checks, nonBlank, List.forall_mem_cons] at this
    exact this.2.2.1
  valid_replaced := by
    intro t rows occurredAt hperm hclock
    have hsound : (t.withGrants rows occurredAt).Sound :=
      Toolset.withGrants_sound (fun g hg => t.sound.grants.1 g (hperm.mem_iff.1 hg))
        ((hperm.map _).nodup_iff.2 t.sound.grants.2) hclock
    exact valid_iff_sound.2 hsound
  replace_eq_ok := by
    intro t t' ids actorId occurredAt
    rw [rowFor_grants]
    exact replaceGrants_eq_ok

/-- Replacing the members or the grants of a toolset acts on sets exactly where the order of the
    rows is not seen. -/
theorem replacement_acts_on_sets_iff (t : Toolset) (ids : List String) (actorId : String)
    (occurredAt : Time) :
    (memberCollection.SetSemantics t ids actorId occurredAt ↔
      memberCollection.OrderUnseen t ids occurredAt) ∧
    (grantCollection.SetSemantics t ids actorId occurredAt ↔
      grantCollection.OrderUnseen t ids occurredAt) :=
  ⟨memberCollection_lawful.setSemantics_iff, grantCollection_lawful.setSemantics_iff⟩

end Replacement

section MixedCase

attribute [local instance] zeroSha256

def collatedGrant (principalId : String)
    (h : Valid (⟨"tenant-1", "toolset-1", principalId, "system", 1⟩ :
      ToolsetAccessGrantFields)) : ToolsetAccessGrant := ⟨_, h⟩

/-- The system toolset with its grants in the order of a text collation that ignores case. -/
def collatedToolset : Toolset :=
  ⟨{ id := "toolset-1"
     tenantId := "tenant-1"
     slug := allPublishedSlug
     name := "All Published Tools"
     description := none
     kind := .allPublished
     discoveryMode := .searchFirst
     status := .active
     revision := 3
     membershipDigest := Sha256.hexdigest ""
     createdBy := "system"
     createdAt := 0
     updatedAt := 1
     grants := [collatedGrant "alice" (by decide +kernel), collatedGrant "Bob" (by decide +kernel)] },
    by decide +kernel⟩

/-- Granting a toolset to the principals that it is granted to makes a new revision of it. -/
theorem replace_grants_moves_equal_set :
    (collatedToolset.replaceGrants 3 ["alice", "Bob"] "system" 2).map (·.val.revision) = .ok 4 ∧
    ¬ ∀ (t : Toolset) (ids : List String) (actorId : String) (occurredAt : Time),
      memberCollection.SetSemantics t ids actorId occurredAt ∧
        grantCollection.SetSemantics t ids actorId occurredAt := by
  have hrevision : (collatedToolset.replaceGrants 3 ["alice", "Bob"] "system" 2).map
      (·.val.revision) = .ok 4 := by
    decide +kernel
  refine ⟨hrevision, fun h => ?_⟩
  obtain ⟨t', ht', hfour⟩ := map_eq_ok.1 hrevision
  have hsame : SameSet ["alice", "Bob"] (grantCollection.keys collatedToolset.val) :=
    fun _ => Iff.rfl
  -- The sets are equal, so the toolset should come back as it is, at revision 3.
  obtain rfl := ((h collatedToolset _ _ _).2 t' ht').unchanged.2 hsame
  revert hfour
  decide +kernel

end MixedCase

end NexusMcp
