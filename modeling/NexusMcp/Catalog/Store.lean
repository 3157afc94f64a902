-- SUMMARY: Transactions on the catalogue tables, and the repository functions they are made of.
import NexusMcp.Catalog.Tables

/-!
# Catalogue Store

The commands lock the rows they read until they commit, so a transaction is a function
of the committed tables. Each write is checked against the unique constraints, as the
flush after it is. A transaction that raises leaves nothing behind.
-/

namespace NexusMcp

open Txn (Table)

/-! ## Transactions -/

abbrev CatalogM (α : Type) := CatalogTables → Except Exc (α × CatalogTables)

namespace CatalogM

def bind {α β : Type} (x : CatalogM α) (f : α → CatalogM β) : CatalogM β := fun c =>
  match x c with
  | .ok (a, c') => f a c'
  | .error e => .error e

instance : Monad CatalogM where
  pure a := fun c => .ok (a, c)
  bind := CatalogM.bind

theorem bind_eq_ok {α β : Type} {x : CatalogM α} {f : α → CatalogM β} {c c'' : CatalogTables}
    {b : β} : (x >>= f) c = .ok (b, c'') ↔ ∃ a c', x c = .ok (a, c') ∧ f a c' = .ok (b, c'') := by
  change CatalogM.bind x f c = _ ↔ _
  unfold CatalogM.bind
  cases x c with
  | error e => simp
  | ok result =>
    obtain ⟨a, c'⟩ := result
    simp

@[simp] theorem pure_eq_ok {α : Type} {a b : α} {c c' : CatalogTables} :
    (pure a : CatalogM α) c = .ok (b, c') ↔ a = b ∧ c = c' := by
  change Except.ok (a, c) = _ ↔ _
  simp

/-- A query. -/
def read {α : Type} (f : CatalogTables → α) : CatalogM α := fun c => .ok (f c, c)

@[simp] theorem read_eq_ok {α : Type} {f : CatalogTables → α} {a : α} {c c' : CatalogTables} :
    read f c = .ok (a, c') ↔ a = f c ∧ c' = c := by
  simp [read, eq_comm]

/-- A computation that does not touch the tables. -/
def lift {α : Type} (x : Except Exc α) : CatalogM α := fun c => x.map (·, c)

@[simp] theorem lift_eq_ok {α : Type} {x : Except Exc α} {a : α} {c c' : CatalogTables} :
    lift x c = .ok (a, c') ↔ x = .ok a ∧ c' = c := by
  cases x <;> simp [lift, Except.map, eq_comm]

/-- `if x is None: raise e`. -/
def orRaise {α : Type} (x : Option α) (e : Exc) : CatalogM α := lift (x.elim (.error e) .ok)

@[simp] theorem orRaise_eq_ok {α : Type} {x : Option α} {e : Exc} {a : α} {c c' : CatalogTables} :
    orRaise x e c = .ok (a, c') ↔ x = some a ∧ c' = c := by
  cases x <;> simp [orRaise]

def raiseIf (p : Prop) [Decidable p] (e : Exc) : CatalogM Unit := lift (NexusMcp.raiseIf p e)

@[simp] theorem raiseIf_eq_ok {p : Prop} [Decidable p] {e : Exc} {u : Unit}
    {c c' : CatalogTables} : raiseIf p e c = .ok (u, c') ↔ ¬ p ∧ c' = c := by
  simp [raiseIf]

/-- Flush rows: the database checks its unique constraints. -/
def flush (rows : CatalogRows) : CatalogM Unit := fun _ =>
  if h : rows.Unique then .ok ((), ⟨rows, h⟩) else .error (.integrityError "unique constraint")

theorem flush_eq_ok {rows : CatalogRows} {u : Unit} {c c' : CatalogTables} :
    flush rows c = .ok (u, c') ↔ c'.toCatalogRows = rows := by
  unfold flush
  constructor
  · intro h
    split at h
    · cases h
      rfl
    · cases h
  · rintro rfl
    simp [c'.unique]

end CatalogM

open CatalogM (read lift orRaise flush)

/-! ## Reading -/

/-- The row with an identifier, where it belongs to the tenant. -/
def inTenant {ν : Type} {key : ν → Id} (tenantOf : ν → Id) (table : Table key) (tenantId id : Id) :
    Option ν :=
  (table.find? id).filter (tenantOf · = tenantId)

theorem inTenant_eq_some {ν : Type} {key : ν → Id} {tenantOf : ν → Id} {table : Table key}
    {tenantId id : Id} {v : ν} : inTenant tenantOf table tenantId id = some v ↔
      v ∈ table ∧ key v = id ∧ tenantOf v = tenantId := by
  simp only [inTenant, Option.filter_eq_some_iff, Table.find?_eq_some, decide_eq_true_eq, and_assoc]

def getToolForUpdate (tenantId toolId : Id) : CatalogM (Option Tool) :=
  read fun c => inTenant (·.val.tenantId) c.tools tenantId toolId

def getToolByNameForUpdate (tenantId : Id) (canonicalName : String) : CatalogM (Option Tool) :=
  read fun c => c.tools.rows.find? fun t =>
    t.val.tenantId = tenantId ∧ t.val.canonicalName = canonicalName

def getVersionForUpdate (tenantId toolVersionId : Id) : CatalogM (Option ToolVersion) :=
  read fun c => inTenant (·.val.tenantId) c.versions tenantId toolVersionId

def getPublishedVersion (tenantId toolId : Id) : CatalogM (Option ToolVersion) :=
  read fun c => c.versions.rows.find? fun v =>
    v.val.tenantId = tenantId ∧ v.val.toolId = toolId ∧ v.val.status = .published

/-- `next_version_number`: one above the greatest number of the tool. -/
def nextVersionNumber (tenantId toolId : Id) : CatalogM Nat :=
  read fun c =>
    ((c.versions.rows.filter fun v => v.val.tenantId = tenantId ∧ v.val.toolId = toolId).map
      (·.val.version)).foldr max 0 + 1

def getBindingById (tenantId bindingId : Id) : CatalogM (Option ToolBinding) :=
  read fun c => inTenant (·.val.tenantId) c.bindings tenantId bindingId

def getBindingByToolVersionForUpdate (tenantId toolVersionId : Id) :
    CatalogM (Option ToolBinding) :=
  read fun c => c.bindings.rows.find? fun b =>
    b.val.tenantId = tenantId ∧ b.val.toolVersionId = toolVersionId

def getUpstreamById (tenantId upstreamServiceId : Id) : CatalogM (Option UpstreamService) :=
  read fun c => inTenant (·.val.tenantId) c.upstreams tenantId upstreamServiceId

def getUpstreamForUpdate (tenantId upstreamServiceId : Id) : CatalogM (Option UpstreamService) :=
  read fun c => inTenant (·.val.tenantId) c.upstreams tenantId upstreamServiceId

def getOperationForUpdate (tenantId operationId : Id) : CatalogM (Option ImportedOperation) :=
  read fun c => inTenant (·.tenantId) c.operations tenantId operationId

def getJobForUpdate (tenantId importJobId : Id) : CatalogM (Option OpenApiImportJob) :=
  read fun c => inTenant (·.tenantId) c.jobs tenantId importJobId

/-! ## Writing -/

/-- `_require_matching_tenant`. -/
def requireMatchingTenant (requestedTenantId entityTenantId : Id) : CatalogM Unit :=
  CatalogM.raiseIf (requestedTenantId ≠ entityTenantId)
    (.valueError "entity tenant does not match repository tenant scope")

/-- Flush the tables with changed rows. -/
def update (f : CatalogRows → CatalogRows) : CatalogM Unit := do
  flush (f (← read (·.toCatalogRows)))

@[simp] theorem update_eq_ok {f : CatalogRows → CatalogRows} {u : Unit} {c c' : CatalogTables} :
    update f c = .ok (u, c') ↔ c'.toCatalogRows = f c.toCatalogRows := by
  simp [update, CatalogM.bind_eq_ok, CatalogM.flush_eq_ok]

/-- The primary key is taken. -/
def requireFreshKey {ν : Type} {key : ν → Id} (table : CatalogTables → Table key) (id : Id) :
    CatalogM Unit := do
  CatalogM.raiseIf ((← read table).find? id ≠ none) (.integrityError "primary key")

@[simp] theorem requireFreshKey_eq_ok {ν : Type} {key : ν → Id} {table : CatalogTables → Table key}
    {id : Id} {u : Unit} {c c' : CatalogTables} :
    requireFreshKey table id c = .ok (u, c') ↔ (table c).find? id = none ∧ c' = c := by
  simp [requireFreshKey, CatalogM.bind_eq_ok, and_comm]

def addTool (tenantId : Id) (tool : Tool) : CatalogM Unit := do
  requireMatchingTenant tenantId tool.val.tenantId
  requireFreshKey (·.tools) tool.val.id
  update fun c => { c with tools := c.tools.insert tool }

def saveTool (tenantId : Id) (tool : Tool) : CatalogM Unit := do
  requireMatchingTenant tenantId tool.val.tenantId
  let _ ← orRaise (← getToolForUpdate tenantId tool.val.id)
    (.valueError "tool does not exist in tenant")
  update fun c => { c with tools := c.tools.modify tool.val.id fun _ => tool }

def addVersion (tenantId : Id) (version : ToolVersion) : CatalogM Unit := do
  requireMatchingTenant tenantId version.val.tenantId
  let _ ← orRaise (← getToolForUpdate tenantId version.val.toolId)
    (.valueError "tool version parent does not exist in tenant")
  requireFreshKey (·.versions) version.val.id
  update fun c => { c with versions := c.versions.insert version }

def saveVersion (tenantId : Id) (version : ToolVersion) : CatalogM Unit := do
  requireMatchingTenant tenantId version.val.tenantId
  let _ ← orRaise (← getVersionForUpdate tenantId version.val.id)
    (.valueError "tool version does not exist in tenant")
  let _ ← orRaise (← getToolForUpdate tenantId version.val.toolId)
    (.valueError "tool version parent does not exist in tenant")
  update fun c => { c with versions := c.versions.modify version.val.id fun _ => version }

def addBinding (tenantId : Id) (binding : ToolBinding) : CatalogM Unit := do
  requireMatchingTenant tenantId binding.val.tenantId
  requireFreshKey (·.bindings) binding.val.id
  update fun c => { c with bindings := c.bindings.insert binding }

def saveBinding (tenantId : Id) (binding : ToolBinding) : CatalogM Unit := do
  requireMatchingTenant tenantId binding.val.tenantId
  let _ ← orRaise (← getBindingById tenantId binding.val.id)
    (.valueError "tool binding does not exist in tenant")
  update fun c => { c with bindings := c.bindings.modify binding.val.id fun _ => binding }

def saveUpstream (tenantId : Id) (upstream : UpstreamService) : CatalogM Unit := do
  requireMatchingTenant tenantId upstream.val.tenantId
  let _ ← orRaise (← getUpstreamForUpdate tenantId upstream.val.id)
    (.valueError "upstream service does not exist in tenant")
  update fun c => { c with upstreams := c.upstreams.modify upstream.val.id fun _ => upstream }

def addOperation (tenantId : Id) (operation : ImportedOperation) : CatalogM Unit := do
  requireMatchingTenant tenantId operation.tenantId
  requireFreshKey (·.operations) operation.id
  update fun c => { c with operations := c.operations.insert operation }

def addOperations (tenantId : Id) : List ImportedOperation → CatalogM Unit
  | [] => pure ()
  | operation :: operations => do
    addOperation tenantId operation
    addOperations tenantId operations

def saveOperation (tenantId : Id) (operation : ImportedOperation) : CatalogM Unit := do
  requireMatchingTenant tenantId operation.tenantId
  let _ ← orRaise (← getOperationForUpdate tenantId operation.id)
    (.valueError "imported operation does not exist in tenant")
  update fun c => { c with operations := c.operations.modify operation.id fun _ => operation }

def addJob (tenantId : Id) (job : OpenApiImportJob) : CatalogM Unit := do
  requireMatchingTenant tenantId job.tenantId
  requireFreshKey (·.jobs) job.id
  update fun c => { c with jobs := c.jobs.insert job }

def saveJob (tenantId : Id) (job : OpenApiImportJob) : CatalogM Unit := do
  requireMatchingTenant tenantId job.tenantId
  let _ ← orRaise (← getJobForUpdate tenantId job.id)
    (.valueError "OpenAPI import job does not exist in tenant")
  update fun c => { c with jobs := c.jobs.modify job.id fun _ => job }

end NexusMcp
