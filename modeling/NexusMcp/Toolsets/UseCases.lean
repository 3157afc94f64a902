-- SUMMARY: The toolset commands over the in-memory repository, and what a sequence of them leaves.
import Mathlib.Algebra.Ring.Int.Defs
import NexusMcp.Toolsets.Repository

/-!
# Toolset Commands

A command works on a clone of the committed repository. Its result holds the
repository that its commit stores; a command that raises commits nothing.
-/

namespace NexusMcp

/-! ## Profiles -/

inductive ToolsetHealth where
  | healthy
  | degraded
  | unavailable
deriving Repr, DecidableEq

/-- The answer of a command. -/
structure ToolsetProfile where
  id : Id
  tenantId : Id
  slug : String
  name : String
  description : Option String
  kind : ToolsetKind
  discoveryMode : ToolsetDiscoveryMode
  status : ToolsetStatus
  revision : Int
  membershipDigest : String
  endpointPath : String
  health : ToolsetHealth
  toolCount : Nat
  availableToolCount : Nat
  serializedSchemaSize : Int
  principalIds : List String
  members : List ToolsetCatalogSnapshot
  createdBy : String
  createdAt : Time
  updatedAt : Time
deriving DecidableEq

section Commands

variable [Sha256]

/-- `_profile`. -/
def profile (catalog : ToolsetCatalogReader) (toolset : Toolset) : ToolsetProfile :=
  let snapshots : List ToolsetCatalogSnapshot := match toolset.val.kind with
    | .allPublished => catalog.listPublishedSnapshots toolset.val.tenantId
    | .explicit => catalog.listMemberSnapshots toolset.val.tenantId toolset.val.toolIds
  let availableCount := snapshots.countP (·.val.availability = .available)
  let expectedCount : Nat := match toolset.val.kind with
    | .allPublished => snapshots.length
    | .explicit => toolset.val.members.length
  { id := toolset.val.id
    tenantId := toolset.val.tenantId
    slug := toolset.val.slug
    name := toolset.val.name
    description := toolset.val.description
    kind := toolset.val.kind
    discoveryMode := toolset.val.discoveryMode
    status := toolset.val.status
    revision := toolset.val.revision
    membershipDigest := toolset.val.membershipDigest
    endpointPath := "/mcp/toolsets/" ++ toolset.val.slug
    health :=
      if expectedCount = 0 ∨ availableCount = 0 then .unavailable
      else if availableCount = expectedCount then .healthy
      else .degraded
    toolCount := expectedCount
    availableToolCount := availableCount
    serializedSchemaSize := (snapshots.map (·.val.serializedSchemaSize)).sum
    principalIds := toolset.val.principalIds
    members := snapshots
    createdBy := toolset.val.createdBy
    createdAt := toolset.val.createdAt
    updatedAt := toolset.val.updatedAt }

/-! ## Errors -/

/-- `str(error)`. -/
def ToolsetError.message : ToolsetError → String
  | revisionConflict message => message
  | systemMutation message => message
  | valueError message => message

/-- `_map_mutation_error`. -/
def mapMutationError : ToolsetError → Exc
  | .revisionConflict message => .nexus .toolsetRevisionConflict message
  | .systemMutation message => .nexus .systemToolsetImmutable message
  | .valueError message => .nexus .invalidArguments message

/-- `_require_available`. -/
def requireAvailable (snapshots : List ToolsetCatalogSnapshot) (expectedCount : Option Nat) :
    Except Exc Unit := do
  raiseIf (∃ count ∈ expectedCount, snapshots.length ≠ count)
    (.nexus .invalidToolsetMembers "one or more tools did not exist in tenant")
  raiseIf (∃ snapshot ∈ snapshots, snapshot.val.availability ≠ .available)
    (.nexus .toolsetMemberUnavailable "one or more tools were not currently published")

/-- `_require_expected_revision`. -/
def requireExpectedRevision (toolset : Toolset) (expectedRevision : Int) : Except Exc Unit :=
  raiseIf (toolset.val.revision ≠ expectedRevision)
    (.nexus .toolsetRevisionConflict "toolset revision conflict")

/-! ## Commands -/

/-- What a command gets from outside: the identifier it generates, the readings of its
    clock in their order, and the catalogue. -/
structure ToolsetEnv where
  newId : Id
  clock : Nat → Time
  catalog : ToolsetCatalogReader

structure CreateToolsetCommand where
  context : ActorContext
  slug : String
  name : String
  description : Option String := none
  discoveryMode : ToolsetDiscoveryMode := .direct
deriving Repr, DecidableEq

structure UpdateToolsetCommand where
  context : ActorContext
  toolsetId : Id
  expectedRevision : Int
  name : String
  description : Option String
  discoveryMode : ToolsetDiscoveryMode
deriving Repr, DecidableEq

structure ReplaceToolsetMembersCommand where
  context : ActorContext
  toolsetId : Id
  expectedRevision : Int
  toolIds : List Id
deriving Repr, DecidableEq

structure ReplaceToolsetGrantsCommand where
  context : ActorContext
  toolsetId : Id
  expectedRevision : Int
  principalIds : List String
deriving Repr, DecidableEq

structure ChangeToolsetStatusCommand where
  context : ActorContext
  toolsetId : Id
  expectedRevision : Int
deriving Repr, DecidableEq

def CreateToolset.execute (env : ToolsetEnv) (repository : InMemoryToolsetRepository)
    (command : CreateToolsetCommand) :
    Except Exc (ToolsetProfile × InMemoryToolsetRepository) := do
  let toolset ← (Toolset.createExplicit env.newId command.context.tenantId command.slug
    command.name command.description command.context.principalId (env.clock 0)
    command.discoveryMode).mapError fun e => .nexus .invalidArguments e.message
  raiseIf (repository.getBySlug toolset.val.tenantId toolset.val.slug ≠ none)
    (.nexus .toolsetConflict "toolset slug already exists in tenant")
  let stored ← (repository.add toolset.val.tenantId toolset).mapError fun e =>
    .nexus .toolsetConflict e.message
  -- `GetToolset` reads the toolset again, in a unit of work of its own.
  match stored.getById command.context.tenantId toolset.val.id with
  | none => throw (.nexus .toolsetNotFound "toolset did not exist in tenant")
  | some found => return (profile env.catalog found, stored)

/-- What the five commands on a stored toolset share: lock it, run the checks that raise
    errors of their own, change it and save it, and commit. -/
def changeToolset (env : ToolsetEnv) (repository : InMemoryToolsetRepository)
    (context : ActorContext) (toolsetId : Id) (check : Toolset → Except Exc Unit)
    (change : Toolset → Except ToolsetError Toolset) :
    Except Exc (ToolsetProfile × InMemoryToolsetRepository) := do
  match repository.getForUpdate context.tenantId toolsetId with
  | none => throw (.nexus .toolsetNotFound "toolset did not exist in tenant")
  | some toolset =>
    check toolset
    let updated ← (change toolset).mapError mapMutationError
    let stored ← (repository.save context.tenantId updated).mapError mapMutationError
    return (profile env.catalog updated, stored)

def UpdateToolset.execute (env : ToolsetEnv) (repository : InMemoryToolsetRepository)
    (command : UpdateToolsetCommand) : Except Exc (ToolsetProfile × InMemoryToolsetRepository) :=
  changeToolset env repository command.context command.toolsetId (fun _ => .ok ()) fun toolset =>
    toolset.updateProfile command.expectedRevision command.name command.description
      command.discoveryMode (env.clock 0)

/-- The tools a command asks for exist, and are published where the toolset is active. -/
def ReplaceToolsetMembers.check (env : ToolsetEnv) (command : ReplaceToolsetMembersCommand)
    (toolset : Toolset) : Except Exc Unit := do
  requireExpectedRevision toolset command.expectedRevision
  let requested := sortedSet command.toolIds
  let snapshots := env.catalog.listMemberSnapshots command.context.tenantId requested
  raiseIf (sortedSet (snapshots.map (·.val.toolId)) ≠ sortedSet requested)
    (.nexus .invalidToolsetMembers "one or more tools did not exist in tenant")
  if toolset.val.status = .active then requireAvailable snapshots none

def ReplaceToolsetMembers.execute (env : ToolsetEnv) (repository : InMemoryToolsetRepository)
    (command : ReplaceToolsetMembersCommand) :
    Except Exc (ToolsetProfile × InMemoryToolsetRepository) :=
  changeToolset env repository command.context command.toolsetId
    (ReplaceToolsetMembers.check env command) fun toolset =>
      toolset.replaceMembers command.expectedRevision (sortedSet command.toolIds)
        command.context.principalId (env.clock 0)

def ReplaceToolsetGrants.execute (env : ToolsetEnv) (repository : InMemoryToolsetRepository)
    (command : ReplaceToolsetGrantsCommand) :
    Except Exc (ToolsetProfile × InMemoryToolsetRepository) :=
  changeToolset env repository command.context command.toolsetId (fun _ => .ok ()) fun toolset =>
    toolset.replaceGrants command.expectedRevision command.principalIds
      command.context.principalId (env.clock 0)

/-- The members of the toolset are all published. -/
def ActivateToolset.check (env : ToolsetEnv) (command : ChangeToolsetStatusCommand)
    (toolset : Toolset) : Except Exc Unit := do
  requireExpectedRevision toolset command.expectedRevision
  requireAvailable (env.catalog.listMemberSnapshots command.context.tenantId toolset.val.toolIds)
    (some toolset.val.toolIds.length)

def ActivateToolset.execute (env : ToolsetEnv) (repository : InMemoryToolsetRepository)
    (command : ChangeToolsetStatusCommand) :
    Except Exc (ToolsetProfile × InMemoryToolsetRepository) :=
  changeToolset env repository command.context command.toolsetId
    (ActivateToolset.check env command) fun toolset =>
      toolset.activate command.expectedRevision (env.clock 0)

def DisableToolset.execute (env : ToolsetEnv) (repository : InMemoryToolsetRepository)
    (command : ChangeToolsetStatusCommand) :
    Except Exc (ToolsetProfile × InMemoryToolsetRepository) :=
  changeToolset env repository command.context command.toolsetId (fun _ => .ok ()) fun toolset =>
    toolset.disable command.expectedRevision (env.clock 0)

/-- A command on a stored toolset. -/
inductive ToolsetChange where
  | update (command : UpdateToolsetCommand)
  | replaceMembers (command : ReplaceToolsetMembersCommand)
  | replaceGrants (command : ReplaceToolsetGrantsCommand)
  | activate (command : ChangeToolsetStatusCommand)
  | disable (command : ChangeToolsetStatusCommand)
deriving Repr, DecidableEq

namespace ToolsetChange

def tenantId : ToolsetChange → Id
  | update command => command.context.tenantId
  | replaceMembers command => command.context.tenantId
  | replaceGrants command => command.context.tenantId
  | activate command => command.context.tenantId
  | disable command => command.context.tenantId

def toolsetId : ToolsetChange → Id
  | update command => command.toolsetId
  | replaceMembers command => command.toolsetId
  | replaceGrants command => command.toolsetId
  | activate command => command.toolsetId
  | disable command => command.toolsetId

def expectedRevision : ToolsetChange → Int
  | update command => command.expectedRevision
  | replaceMembers command => command.expectedRevision
  | replaceGrants command => command.expectedRevision
  | activate command => command.expectedRevision
  | disable command => command.expectedRevision

def execute (env : ToolsetEnv) (repository : InMemoryToolsetRepository) :
    ToolsetChange → Except Exc (ToolsetProfile × InMemoryToolsetRepository)
  | update command => UpdateToolset.execute env repository command
  | replaceMembers command => ReplaceToolsetMembers.execute env repository command
  | replaceGrants command => ReplaceToolsetGrants.execute env repository command
  | activate command => ActivateToolset.execute env repository command
  | disable command => DisableToolset.execute env repository command

end ToolsetChange

/-! ## The system toolset -/

namespace EnsureAllPublishedToolset

/-- The system toolset that the first unit of work creates. -/
def created (env : ToolsetEnv) (tenantId : Id) (principalIds : List String) :
    Except ToolsetError Toolset := do
  let toolset ← Toolset.createAllPublished env.newId tenantId "system" (env.clock 0)
  if principalIds = [] then return toolset
  toolset.replaceGrants toolset.val.revision principalIds "system" (env.clock 1)

/-- The second unit of work: add the principals to the grants there are. `occurredAt` is the
    next reading of the clock. -/
def merged (repository : InMemoryToolsetRepository) (occurredAt : Time) (tenantId : Id)
    (principalIds : List String) : Except Exc (Toolset × InMemoryToolsetRepository) := do
  match repository.getAllPublished tenantId with
  | none => throw (.nexus .toolsetConflict "all_published bootstrap lost uniqueness race")
  | some toolset =>
    let desired := sortedSet (toolset.val.principalIds ++ principalIds)
    let updated ← (toolset.replaceGrants toolset.val.revision desired "system"
      occurredAt).mapError fun e => .valueError e.message
    let stored ← (repository.save tenantId updated).mapError fun e => .valueError e.message
    return (updated, stored)

def execute (env : ToolsetEnv) (repository : InMemoryToolsetRepository) (tenantId : Id)
    (principalIds : List String) : Except Exc (Toolset × InMemoryToolsetRepository) :=
  match repository.getAllPublished tenantId with
  | some _ => merged repository (env.clock 0) tenantId principalIds
  | none => do
    let toolset ← (created env tenantId principalIds).mapError fun e => .valueError e.message
    match repository.add tenantId toolset with
    | .ok stored => return (toolset, stored)
    -- A uniqueness error is rolled back and taken for a concurrent bootstrap. Where no principals
    -- were granted, the clock has been read once only.
    | .error _ =>
      merged repository (env.clock (if principalIds = [] then 1 else 2)) tenantId principalIds

end EnsureAllPublishedToolset

/-! ## Runs -/

inductive ToolsetCommand where
  | create (command : CreateToolsetCommand)
  | change (change : ToolsetChange)
  | ensureAllPublished (tenantId : Id) (principalIds : List String)
deriving Repr, DecidableEq

/-- The repository that the commit of a command stores. -/
def ToolsetCommand.execute (env : ToolsetEnv) (repository : InMemoryToolsetRepository) :
    ToolsetCommand → Except Exc InMemoryToolsetRepository
  | create command => (CreateToolset.execute env repository command).map (·.2)
  | change c => (c.execute env repository).map (·.2)
  | ensureAllPublished tenantId principalIds =>
    (EnsureAllPublishedToolset.execute env repository tenantId principalIds).map (·.2)

/-- A command as it is issued. -/
structure Issued where
  env : ToolsetEnv
  command : ToolsetCommand

/-- The repository after a command: what it committed, or the one before where it raised. -/
def InMemoryToolsetRepository.after (repository : InMemoryToolsetRepository) (issued : Issued) :
    InMemoryToolsetRepository :=
  match issued.command.execute issued.env repository with
  | .ok stored => stored
  | .error _ => repository

/-- The repository after a sequence of commands. -/
def InMemoryToolsetRepository.run (repository : InMemoryToolsetRepository) :
    List Issued → InMemoryToolsetRepository
  | [] => repository
  | issued :: commands => (repository.after issued).run commands

theorem InMemoryToolsetRepository.run_append {repository : InMemoryToolsetRepository}
    {first second : List Issued} :
    repository.run (first ++ second) = (repository.run first).run second := by
  induction first generalizing repository with
  | nil => rfl
  | cons issued first ih => exact ih

end Commands

end NexusMcp
