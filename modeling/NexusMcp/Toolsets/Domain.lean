-- SUMMARY: The toolset aggregate: members, access grants, status and revision, with its operations.
import NexusMcp.Shared.Json
import Mathlib.Data.List.Dedup
import Mathlib.Data.String.Basic

/-! # Toolsets -/

namespace NexusMcp

/-! ## Enumerations -/

inductive ToolsetKind where
  | explicit
  | allPublished
deriving Repr, DecidableEq

def ToolsetKind.value : ToolsetKind → String
  | explicit => "explicit"
  | allPublished => "all_published"

inductive ToolsetDiscoveryMode where
  | direct
  | searchFirst
deriving Repr, DecidableEq

inductive ToolsetStatus where
  | draft
  | active
  | disabled
deriving Repr, DecidableEq

/-! ## Errors -/

/-- What an operation of the aggregate raises: a `ValueError`, or one of the two
    subclasses that the use cases tell apart. -/
inductive ToolsetError where
  | revisionConflict (message : String)
  | systemMutation (message : String)
  | valueError (message : String)
deriving Repr, DecidableEq

/-! ## Sets of identifiers -/

/-- The values of a list without repetitions, in increasing order: `sorted(set(values))`. -/
def sortedSet (values : List String) : List String := values.dedup.insertionSort (· ≤ ·)

@[simp] theorem mem_sortedSet {values : List String} {x : String} :
    x ∈ sortedSet values ↔ x ∈ values := by
  simp [sortedSet]

theorem nodup_sortedSet (values : List String) : (sortedSet values).Nodup :=
  (List.perm_insertionSort _ _).nodup_iff.2 values.nodup_dedup

@[simp] theorem sortedSet_eq_nil {values : List String} :
    sortedSet values = [] ↔ values = [] := by
  simp only [List.eq_nil_iff_forall_not_mem, mem_sortedSet]

/-- A sorted set is determined by its elements. -/
theorem sortedSet_congr {a b : List String} (h : ∀ x, x ∈ a ↔ x ∈ b) :
    sortedSet a = sortedSet b := by
  apply List.Perm.eq_of_pairwise
  · intro x y _ _ hxy hyx
    exact le_antisymm hxy hyx
  · exact List.pairwise_insertionSort (· ≤ ·) _
  · exact List.pairwise_insertionSort (· ≤ ·) _
  · apply (List.perm_ext_iff_of_nodup (nodup_sortedSet a) (nodup_sortedSet b)).2
    intro x
    simp only [mem_sortedSet, h]

@[simp] theorem sortedSet_sortedSet (values : List String) :
    sortedSet (sortedSet values) = sortedSet values :=
  sortedSet_congr fun _ => mem_sortedSet

/-- `_normalized_ids`. -/
def normalizedIds (fieldName : String) (values : List String) : Except ToolsetError (List String) :=
  if values.any isBlank then .error (.valueError (fieldName ++ " must not be blank"))
  else .ok (sortedSet values)

theorem normalizedIds_eq_ok {fieldName : String} {values ids : List String} :
    normalizedIds fieldName values = .ok ids ↔
      (∀ v ∈ values, isBlank v = false) ∧ ids = sortedSet values := by
  unfold normalizedIds
  split
  · next h =>
    obtain ⟨v, hv, hblank⟩ := List.any_eq_true.1 h
    constructor
    · intro h'
      cases h'
    · rintro ⟨h', -⟩
      rw [h' v hv] at hblank
      cases hblank
  · next h =>
    have hall : ∀ v ∈ values, isBlank v = false := by
      intro v hv
      by_contra hblank
      exact h (List.any_eq_true.2 ⟨v, hv, by simpa using hblank⟩)
    constructor
    · intro h'
      exact ⟨hall, (Except.ok.inj h').symm⟩
    · rintro ⟨-, rfl⟩
      rfl

/-- Looking up what at most one element satisfies. -/
theorem find?_eq_some_of_unique {α : Type} {p : α → Bool} {l : List α} {a : α}
    (hunique : ∀ x ∈ l, ∀ y ∈ l, p x → p y → x = y) :
    l.find? p = some a ↔ a ∈ l ∧ p a := by
  constructor
  · intro h
    exact ⟨List.mem_of_find?_eq_some h, List.find?_some h⟩
  · rintro ⟨ha, hp⟩
    cases hfind : l.find? p with
    | none => exact absurd hp (List.find?_eq_none.1 hfind a ha)
    | some b =>
      have hb := List.mem_of_find?_eq_some hfind
      exact congrArg some (hunique b hb a ha (List.find?_some hfind) hp)

/-! ## Members and grants -/

structure ToolsetMemberFields where
  tenantId : Id
  toolsetId : Id
  toolId : Id
  addedBy : String
  addedAt : Time
deriving Repr, DecidableEq

instance : PostInit ToolsetMemberFields where
  checks m := [
    nonBlank "member tenant id" m.tenantId,
    nonBlank "member toolset id" m.toolsetId,
    nonBlank "member tool id" m.toolId,
    nonBlank "member actor id" m.addedBy]

abbrev ToolsetMember := Checked ToolsetMemberFields

structure ToolsetAccessGrantFields where
  tenantId : Id
  toolsetId : Id
  principalId : String
  grantedBy : String
  grantedAt : Time
deriving Repr, DecidableEq

instance : PostInit ToolsetAccessGrantFields where
  checks g := [
    nonBlank "grant tenant id" g.tenantId,
    nonBlank "grant toolset id" g.toolsetId,
    nonBlank "grant principal id" g.principalId,
    nonBlank "grant actor id" g.grantedBy]

abbrev ToolsetAccessGrant := Checked ToolsetAccessGrantFields

/-! ## The aggregate -/

/-- The fields of a toolset. The times are timezone-aware, which the source checks. -/
structure ToolsetFields where
  id : Id
  tenantId : Id
  slug : String
  name : String
  description : Option String
  kind : ToolsetKind
  discoveryMode : ToolsetDiscoveryMode
  status : ToolsetStatus
  revision : Int
  membershipDigest : String
  createdBy : String
  createdAt : Time
  updatedAt : Time
  members : List ToolsetMember := []
  grants : List ToolsetAccessGrant := []
deriving DecidableEq

def ToolsetFields.toolIds (t : ToolsetFields) : List Id := t.members.map (·.val.toolId)

def ToolsetFields.principalIds (t : ToolsetFields) : List String :=
  t.grants.map (·.val.principalId)

/-- The slug of the system toolset. -/
def allPublishedSlug : String := "all-published"

/-- `[a-z0-9]+(?:-[a-z0-9]+)*` matches the whole text. -/
def isKebabCase (slug : String) : Bool :=
  (slug.toList.splitOn '-').all fun part =>
    ! part.isEmpty && part.all fun c => c.isLower || c.isDigit

/-- `_require_digest` rejects the text. -/
def isNotDigest (value : String) : Bool :=
  value.toList.length ≠ 64 || value.toList.any (· ∉ "0123456789abcdef".toList)

/-- `calculate_membership_digest`. -/
def calculateMembershipDigest [Sha256] (kind : ToolsetKind) (toolIds : List Id) :
    Except ToolsetError String := do
  let normalized ← normalizedIds "tool id" toolIds
  match kind with
  | .allPublished =>
    if normalized ≠ [] then
      throw (.valueError "all_published membership digest does not accept tool ids")
    return Sha256.hexdigest "\x7b\"kind\":\"all_published\",\"rule_version\":1\x7d"
  | .explicit =>
    return Sha256.hexdigest
      ("\x7b\"kind\":\"explicit\",\"tool_ids\":[" ++
        String.intercalate "," (normalized.map quoteString) ++ "]\x7d")

/-- The checks of `_validate_members` and `_validate_grants`, row by row. `crossed` says that
    a row belongs elsewhere, and `seen` are the keys of the rows before. -/
def rowChecks {ρ : Type} (crossed : ρ → Bool) (key : ρ → String)
    (crossedMessage uniqueMessage : String) :
    List ρ → List String → List (Bool × String)
  | [], _ => []
  | row :: rows, seen =>
    (crossed row, crossedMessage) :: (key row ∈ seen, uniqueMessage) ::
      rowChecks crossed key crossedMessage uniqueMessage rows (key row :: seen)

def memberChecks (t : ToolsetFields) : List (Bool × String) :=
  rowChecks (fun m => m.val.tenantId ≠ t.tenantId ∨ m.val.toolsetId ≠ t.id) (·.val.toolId)
    "toolset member crossed aggregate tenant or identity boundary"
    "toolset member tool id must be unique" t.members []

def grantChecks (t : ToolsetFields) : List (Bool × String) :=
  rowChecks (fun g => g.val.tenantId ≠ t.tenantId ∨ g.val.toolsetId ≠ t.id)
    (·.val.principalId)
    "toolset grant crossed aggregate tenant or identity boundary"
    "toolset grant principal id must be unique" t.grants []

/-- The digest of the members is not the recorded one. -/
def digestDiffers [Sha256] (t : ToolsetFields) : Bool :=
  match calculateMembershipDigest t.kind t.toolIds with
  | .ok digest => t.membershipDigest ≠ digest
  | .error _ => true

instance [Sha256] : PostInit ToolsetFields where
  checks t := [
    nonBlank "toolset id" t.id,
    nonBlank "toolset tenant id" t.tenantId,
    nonBlank "toolset name" t.name,
    nonBlank "toolset creator" t.createdBy,
    (t.slug.toList.length > 64 ∨ ! isKebabCase t.slug,
      "toolset slug must use lowercase kebab-case"),
    (t.name.toList.length > 128, "toolset name must not exceed 128 characters"),
    (t.revision ≤ 0, "toolset revision must be positive"),
    (isNotDigest t.membershipDigest,
      "toolset membership digest must be a lowercase sha256 digest"),
    (t.updatedAt < t.createdAt, "toolset updated_at must not precede created_at"),
    (t.kind = .allPublished ∧ t.slug ≠ allPublishedSlug,
      "system all_published toolset must use reserved slug"),
    (t.kind = .allPublished ∧ t.members ≠ [],
      "all_published toolset must not contain explicit members"),
    (t.kind = .explicit ∧ t.status = .active ∧ t.members = [],
      "active explicit toolset must contain at least one member")]
    ++ memberChecks t ++ grantChecks t
    ++ [(digestDiffers t, "toolset membership digest did not match members")]

abbrev Toolset [Sha256] := Checked ToolsetFields

section Aggregate

variable [Sha256]

/-- Construct a toolset: its `__post_init__` raises the first violation. -/
def buildToolset (fields : ToolsetFields) : Except ToolsetError Toolset :=
  if h : Valid fields then .ok ⟨fields, h⟩ else .error (.valueError (firstViolation fields))

def buildMember (fields : ToolsetMemberFields) : Except ToolsetError ToolsetMember :=
  if h : Valid fields then .ok ⟨fields, h⟩ else .error (.valueError (firstViolation fields))

def buildGrant (fields : ToolsetAccessGrantFields) : Except ToolsetError ToolsetAccessGrant :=
  if h : Valid fields then .ok ⟨fields, h⟩ else .error (.valueError (firstViolation fields))

namespace Toolset

def createExplicit (toolsetId tenantId : Id) (slug name : String) (description : Option String)
    (createdBy : String) (createdAt : Time) (discoveryMode : ToolsetDiscoveryMode) :
    Except ToolsetError Toolset := do
  let digest ← calculateMembershipDigest .explicit []
  buildToolset
    { id := toolsetId
      tenantId := tenantId
      slug := slug
      name := name
      description := description
      kind := .explicit
      discoveryMode := discoveryMode
      status := .draft
      revision := 1
      membershipDigest := digest
      createdBy := createdBy
      createdAt := createdAt
      updatedAt := createdAt }

def createAllPublished (toolsetId tenantId : Id) (createdBy : String) (createdAt : Time) :
    Except ToolsetError Toolset := do
  let digest ← calculateMembershipDigest .allPublished []
  buildToolset
    { id := toolsetId
      tenantId := tenantId
      slug := allPublishedSlug
      name := "All Published Tools"
      description := some "System-managed view of all current published tools."
      kind := .allPublished
      discoveryMode := .searchFirst
      status := .active
      revision := 1
      membershipDigest := digest
      createdBy := createdBy
      createdAt := createdAt
      updatedAt := createdAt }

/-! ### Operations -/

/-- `if c: raise e`, for an operation of the aggregate. -/
def refuseIf (c : Prop) [Decidable c] (e : ToolsetError) : Except ToolsetError Unit :=
  if c then .error e else .ok ()

/-- `_require_revision`. -/
def requireRevision (self : Toolset) (expectedRevision : Int) : Except ToolsetError Unit :=
  refuseIf (expectedRevision ≠ self.val.revision) (.revisionConflict "toolset revision conflict")

/-- `_require_mutation_time`. -/
def requireMutationTime (self : Toolset) (occurredAt : Time) : Except ToolsetError Unit :=
  refuseIf (occurredAt < self.val.updatedAt)
    (.valueError "toolset mutation time must not precede updated_at")

def updateProfile (self : Toolset) (expectedRevision : Int) (name : String)
    (description : Option String) (discoveryMode : ToolsetDiscoveryMode) (updatedAt : Time) :
    Except ToolsetError Toolset := do
  self.requireRevision expectedRevision
  refuseIf (self.val.kind = .allPublished ∧
      (self.val.name ≠ name ∨ self.val.description ≠ description))
    (.systemMutation "system all_published toolset identity is immutable")
  if self.val.name = name ∧ self.val.description = description ∧
      self.val.discoveryMode = discoveryMode then return self
  self.requireMutationTime updatedAt
  buildToolset { self.val with
    name := name
    description := description
    discoveryMode := discoveryMode
    revision := self.val.revision + 1
    updatedAt := updatedAt }

/-- The member for a tool: the one there is, or a new one. -/
def memberFor (self : Toolset) (actorId : String) (occurredAt : Time) (toolId : Id) :
    Except ToolsetError ToolsetMember :=
  match self.val.members.find? (·.val.toolId = toolId) with
  | some member => .ok member
  | none => buildMember
    { tenantId := self.val.tenantId
      toolsetId := self.val.id
      toolId := toolId
      addedBy := actorId
      addedAt := occurredAt }

def replaceMembers (self : Toolset) (expectedRevision : Int) (toolIds : List Id)
    (actorId : String) (occurredAt : Time) : Except ToolsetError Toolset := do
  self.requireRevision expectedRevision
  refuseIf (self.val.kind = .allPublished)
    (.systemMutation "all_published toolset does not accept explicit members")
  let normalized ← normalizedIds "tool id" toolIds
  refuseIf (self.val.status = .active ∧ normalized = [])
    (.valueError "active explicit toolset must contain at least one member")
  if normalized = self.val.toolIds then return self
  self.requireMutationTime occurredAt
  let members ← normalized.mapM (self.memberFor actorId occurredAt)
  let digest ← calculateMembershipDigest self.val.kind normalized
  buildToolset { self.val with
    members := members
    membershipDigest := digest
    revision := self.val.revision + 1
    updatedAt := occurredAt }

/-- The grant for a principal: the one there is, or a new one. -/
def grantFor (self : Toolset) (actorId : String) (occurredAt : Time) (principalId : String) :
    Except ToolsetError ToolsetAccessGrant :=
  match self.val.grants.find? (·.val.principalId = principalId) with
  | some grant => .ok grant
  | none => buildGrant
    { tenantId := self.val.tenantId
      toolsetId := self.val.id
      principalId := principalId
      grantedBy := actorId
      grantedAt := occurredAt }

def replaceGrants (self : Toolset) (expectedRevision : Int) (principalIds : List String)
    (actorId : String) (occurredAt : Time) : Except ToolsetError Toolset := do
  self.requireRevision expectedRevision
  let normalized ← normalizedIds "principal id" principalIds
  if normalized = self.val.principalIds then return self
  self.requireMutationTime occurredAt
  let grants ← normalized.mapM (self.grantFor actorId occurredAt)
  buildToolset { self.val with
    grants := grants
    revision := self.val.revision + 1
    updatedAt := occurredAt }

def activate (self : Toolset) (expectedRevision : Int) (activatedAt : Time) :
    Except ToolsetError Toolset := do
  self.requireRevision expectedRevision
  if self.val.status = .active then return self
  refuseIf (self.val.kind = .explicit ∧ self.val.members = [])
    (.valueError "explicit toolset must contain members before activation")
  self.requireMutationTime activatedAt
  buildToolset { self.val with
    status := .active
    revision := self.val.revision + 1
    updatedAt := activatedAt }

def disable (self : Toolset) (expectedRevision : Int) (disabledAt : Time) :
    Except ToolsetError Toolset := do
  self.requireRevision expectedRevision
  if self.val.status = .disabled then return self
  refuseIf (self.val.kind = .allPublished)
    (.systemMutation "system all_published toolset cannot be disabled")
  self.requireMutationTime disabledAt
  buildToolset { self.val with
    status := .disabled
    revision := self.val.revision + 1
    updatedAt := disabledAt }

end Toolset

end Aggregate

end NexusMcp
