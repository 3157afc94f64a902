-- SUMMARY: The transactions of two commands on the system toolset, as the SQL repository makes them.
import NexusMcp.Toolsets.Aggregate
import NexusMcp.Toolsets.UseCases
import NexusMcp.Txn.SerialOrder

/-!
# The System Toolset under READ COMMITTED

`EnsureAllPublishedToolset` reads without a lock, and `save` locks the row afterwards.
Each `SELECT` without a lock is a transaction of its own here, and what runs from a row
lock to the commit is one transaction.
-/

namespace NexusMcp

open Txn Txn.Serial

/-! ## Rows -/

/-- The row of a toolset, apart from those of its members and grants. -/
def ToolsetFields.row (t : ToolsetFields) : ToolsetFields := { t with members := [], grants := [] }

/-- The all-published toolset that is stored for a tenant, if there is one. Its members and
    grants are in the order in which they are selected. -/
abbrev StoredToolset := Option ToolsetFields

namespace StoredToolset

/-- `select(ToolsetModel)`: the row without its members and grants. -/
def model (s : StoredToolset) : Option ToolsetFields := s.map ToolsetFields.row

/-- `select(ToolsetMemberModel)`. -/
def members (s : StoredToolset) : List ToolsetMember := (s.map (·.members)).getD []

/-- `select(ToolsetAccessGrantModel)`. -/
def grants (s : StoredToolset) : List ToolsetAccessGrant := (s.map (·.grants)).getD []

def principalIds (s : StoredToolset) : List String := s.grants.map (·.val.principalId)

end StoredToolset

/-- The identity map of a session: the attribute values of the rows that it has loaded and that
    somebody still refers to. The map itself refers to them weakly. -/
structure OrmSession where
  model : Option ToolsetFields := none
  members : List ToolsetMember := []
  grants : List ToolsetAccessGrant := []

namespace OrmSession

/-- The session of a repository whose methods have returned: the rows were their local
    variables, and the aggregates that they have returned refer to none. -/
def released : OrmSession := {}

/-- A row that is selected again keeps the values with which it was loaded. -/
def reload {ρ : Type} (key : ρ → String) (loaded selected : List ρ) : List ρ :=
  selected.map fun row => (loaded.find? (key · = key row)).getD row

def reloadModel (session : OrmSession) (selected : ToolsetFields) : ToolsetFields :=
  session.model.getD selected

def reloadMembers (session : OrmSession) (selected : List ToolsetMember) : List ToolsetMember :=
  reload (·.val.toolId) session.members selected

def reloadGrants (session : OrmSession) (selected : List ToolsetAccessGrant) :
    List ToolsetAccessGrant :=
  reload (·.val.principalId) session.grants selected

end OrmSession

section Transactions

variable [Sha256]

/-- `toolset_from_models`. -/
def toolsetFromModels (model : ToolsetFields) (members : List ToolsetMember)
    (grants : List ToolsetAccessGrant) : Except ToolsetError Toolset :=
  buildToolset { model with members := members, grants := grants }

/-- An error of the aggregate that no use case maps. -/
def asValueError {α : Type} (result : Except ToolsetError α) : Except Exc α :=
  result.mapError fun e => .valueError e.message

/-! ## Saving -/

/-- The column that a flush leaves: an attribute that keeps its loaded value is not part of
    the `UPDATE`. -/
def flushed {τ : Type} [DecidableEq τ] (loaded assigned stored : τ) : τ :=
  if assigned = loaded then stored else assigned

/-- `update_toolset_model` and its flush, with the members and grants deleted and inserted
    again. The check of the identity is the one `requires_persistence_update` has made. -/
def updateToolsetModel (model stored : ToolsetFields) (toolset : Toolset) : ToolsetFields :=
  { stored with
    name := flushed model.name toolset.val.name stored.name
    description := flushed model.description toolset.val.description stored.description
    discoveryMode := flushed model.discoveryMode toolset.val.discoveryMode stored.discoveryMode
    status := flushed model.status toolset.val.status stored.status
    revision := flushed model.revision toolset.val.revision stored.revision
    membershipDigest :=
      flushed model.membershipDigest toolset.val.membershipDigest stored.membershipDigest
    updatedAt := flushed model.updatedAt toolset.val.updatedAt stored.updatedAt
    members := toolset.val.members
    grants := toolset.val.grants }

/-- `SqlAlchemyToolsetRepository.save`, from the row lock on. -/
def save (session : OrmSession) (tenantId : Id) (toolset : Toolset) :
    Transaction StoredToolset ToolsetError Unit := fun s => do
  Toolset.refuseIf (tenantId ≠ toolset.val.tenantId)
    (.valueError "entity tenant does not match repository tenant scope")
  match s with
  | none => throw (.valueError "toolset does not exist in tenant")
  | some stored =>
    Toolset.refuseIf (¬ (stored.tenantId = tenantId ∧ stored.id = toolset.val.id))
      (.valueError "toolset does not exist in tenant")
    let model := session.reloadModel stored.row
    let current ← toolsetFromModels model (session.reloadMembers stored.members)
      (session.reloadGrants stored.grants)
    if ← requiresPersistenceUpdate current toolset then
      return ((), some (updateToolsetModel model stored toolset))
    return ((), s)

/-- `SqlAlchemyToolsetRepository.add`: the table holds one such toolset for each tenant. -/
def add (tenantId : Id) (toolset : Toolset) : Transaction StoredToolset ToolsetError Unit :=
  fun s => do
    Toolset.refuseIf (tenantId ≠ toolset.val.tenantId)
      (.valueError "entity tenant does not match repository tenant scope")
    Toolset.refuseIf (s ≠ none) (.valueError "toolset uniqueness constraint was violated")
    return ((), some toolset.val)

/-- `SqlAlchemyToolsetRepository.get_all_published`: three statements without a lock. -/
def getAllPublished : Serial StoredToolset Exc (Option Toolset) := do
  match ← read StoredToolset.model with
  | none => return none
  | some model =>
    let members ← read StoredToolset.members
    let grants ← read StoredToolset.grants
    let toolset ← lift (asValueError (toolsetFromModels model members grants))
    return some toolset

/-! ## Commands -/

/-- What a command gets from outside. `mergedAt` is the reading of the clock in the second
    unit of work. -/
structure GrantEnv extends ToolsetEnv where
  mergedAt : Time

namespace EnsureAllPublishedToolset

/-- The second unit of work. -/
def mergeGrants (env : GrantEnv) (tenantId : Id) (principalIds : List String) :
    Serial StoredToolset Exc Toolset := do
  match ← getAllPublished with
  | none => lift (.error (.nexus .toolsetConflict "all_published bootstrap lost uniqueness race"))
  | some toolset =>
    let desired := sortedSet (toolset.val.principalIds ++ principalIds)
    let updated ← lift (asValueError
      (toolset.replaceGrants toolset.val.revision desired "system" env.mergedAt))
    atomically fun s => asValueError (save .released tenantId updated s)
    return updated

def transactions (env : GrantEnv) (tenantId : Id) (principalIds : List String) :
    Serial StoredToolset Exc Toolset := do
  match ← getAllPublished with
  | some _ => mergeGrants env tenantId principalIds
  | none =>
    let toolset ← lift (asValueError (created env.toToolsetEnv tenantId principalIds))
    let insert : Serial StoredToolset Exc Toolset := do
      atomically fun s => asValueError (add tenantId toolset s)
      return toolset
    insert.tryCatch fun
      -- A uniqueness error is taken for a concurrent bootstrap.
      | .valueError _ => mergeGrants env tenantId principalIds
      | e => lift (.error e)

end EnsureAllPublishedToolset

namespace ReplaceToolsetGrants

/-- From `get_for_update` to the commit, under the row lock. -/
def locked (env : GrantEnv) (command : ReplaceToolsetGrantsCommand) :
    Transaction StoredToolset Exc ToolsetProfile := fun s => do
  match s with
  | none => throw (.nexus .toolsetNotFound "toolset did not exist in tenant")
  | some stored =>
    raiseIf (¬ (stored.tenantId = command.context.tenantId ∧ stored.id = command.toolsetId))
      (.nexus .toolsetNotFound "toolset did not exist in tenant")
    let toolset ← asValueError (toolsetFromModels stored.row stored.members stored.grants)
    let updated ← (toolset.replaceGrants command.expectedRevision command.principalIds
      command.context.principalId (env.clock 0)).mapError mapMutationError
    let (_, s') ← (save .released command.context.tenantId updated s).mapError mapMutationError
    return (profile env.catalog updated, s')

def transactions (env : GrantEnv) (command : ReplaceToolsetGrantsCommand) :
    Serial StoredToolset Exc ToolsetProfile :=
  atomically (locked env command)

end ReplaceToolsetGrants

/-- A command that grants the system toolset of a tenant to principals. -/
inductive GrantCommand where
  | ensureAllPublished (principalIds : List String)
  | replaceGrants (command : ReplaceToolsetGrantsCommand)

namespace GrantCommand

def Answer : GrantCommand → Type
  | ensureAllPublished _ => Toolset
  | replaceGrants _ => ToolsetProfile

def transactions (env : GrantEnv) (tenantId : Id) :
    (command : GrantCommand) → Serial StoredToolset Exc command.Answer
  | ensureAllPublished principalIds =>
    EnsureAllPublishedToolset.transactions env tenantId principalIds
  | replaceGrants command => ReplaceToolsetGrants.transactions env command

end GrantCommand

/-- Any number of commands on the system toolset of a tenant. -/
def grantWorld {Pid : Type} (tenantId : Id) (stored : Option Toolset) (env : Pid → GrantEnv)
    (commands : Pid → GrantCommand) :
    SerialWorld StoredToolset Exc Pid fun p => (commands p).Answer :=
  .start (stored.map (·.val)) fun p => (commands p).transactions (env p) tenantId

/-! ## The rules of a save -/

omit [Sha256] in
/-- Where nobody refers to a row, it is selected as it is stored. -/
theorem reload_nil {ρ : Type} {key : ρ → String} {rows : List ρ} :
    OrmSession.reload key [] rows = rows :=
  List.map_id rows

omit [Sha256] in
theorem asValueError_eq_ok {α : Type} {result : Except ToolsetError α} {a : α} :
    asValueError result = .ok a ↔ result = .ok a := mapError_eq_ok

/-- The aggregate of the rows of a stored toolset is that toolset. -/
theorem toolsetFromModels_eq_ok {t : ToolsetFields} {toolset : Toolset} :
    toolsetFromModels t.row t.members t.grants = .ok toolset ↔ toolset.val = t :=
  buildToolset_eq_ok

/-- A row that still is as it was loaded becomes the toolset that is saved. -/
theorem updateToolsetModel_of {current toolset : Toolset}
    (hidentity : current.SameIdentity toolset) :
    updateToolsetModel current.val.row current.val toolset = toolset.val := by
  obtain ⟨hid, htenant, hslug, hkind, hcreator, hcreated⟩ := hidentity
  have hflushed : ∀ {τ : Type} [DecidableEq τ] (old new : τ), flushed old new old = new := by
    intro τ _ old new
    unfold flushed
    split
    · next h => exact h.symm
    · rfl
  unfold updateToolsetModel
  simp only [ToolsetFields.row, hflushed, hid, htenant, hslug, hkind, hcreator, hcreated]

/-- A save finds the toolset as it is stored, and writes nothing or the next revision of it. -/
theorem save_eq_ok {tenantId : Id} {toolset : Toolset} {s s' : StoredToolset} {u : Unit} :
    save .released tenantId toolset s = .ok (u, s') ↔
      tenantId = toolset.val.tenantId ∧ ∃ current : Toolset, s = some current.val ∧
        current.val.tenantId = tenantId ∧ current.val.id = toolset.val.id ∧
          ((toolset = current ∧ s' = s) ∨
            (requiresPersistenceUpdate current toolset = .ok true ∧ s' = some toolset.val)) := by
  unfold save
  rw [refuseIf_bind_eq_ok, ne_eq, not_not]
  refine and_congr_right fun _ => ?_
  cases s with
  | none => exact ⟨(fun h => nomatch h), (fun ⟨_, h, _⟩ => nomatch h)⟩
  | some stored =>
    simp only [refuseIf_bind_eq_ok, not_not]
    simp only [bind_eq_ok, OrmSession.released, OrmSession.reloadModel, OrmSession.reloadMembers,
      OrmSession.reloadGrants, reload_nil, Option.getD_none, toolsetFromModels_eq_ok]
    constructor
    · rintro ⟨⟨htenant, hid⟩, current, rfl, needed, hneeded, h⟩
      refine ⟨current, rfl, htenant, hid, ?_⟩
      cases needed with
      | false =>
        cases h
        exact .inl ⟨requiresPersistenceUpdate_eq_false.1 hneeded, rfl⟩
      | true =>
        cases h
        have hidentity := (requiresPersistenceUpdate_eq_true.1 hneeded).1
        exact .inr ⟨hneeded, congrArg some (updateToolsetModel_of hidentity)⟩
    · rintro ⟨current, hs, htenant, hid, hcase⟩
      cases hs
      refine ⟨⟨htenant, hid⟩, current, rfl, ?_⟩
      rcases hcase with ⟨heq, rfl⟩ | ⟨hneeded, rfl⟩
      · exact ⟨false, requiresPersistenceUpdate_eq_false.2 heq, rfl⟩
      · have hidentity := (requiresPersistenceUpdate_eq_true.1 hneeded).1
        refine ⟨true, hneeded, ?_⟩
        rw [if_pos rfl, updateToolsetModel_of hidentity]
        rfl

end Transactions

end NexusMcp
