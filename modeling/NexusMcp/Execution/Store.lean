-- SUMMARY: The execution ledger, and its repositories as programs over a unit of work.
import NexusMcp.Txn.World
import NexusMcp.Txn.Table
import NexusMcp.Approval.Domain
import NexusMcp.Audit.Domain
import NexusMcp.Credentials.Domain
import NexusMcp.Execution.Domain
import NexusMcp.Num.Binary
import NexusMcp.Policy.Domain

/-!
# The Execution Ledger

The four tables the gateway writes while it serves a call, the questions it asks the
rest of the world, and the SQLAlchemy repositories. A primary key or a unique index
is modelled as a row of its own: an `INSERT` locks it, as it waits for a concurrent
`INSERT` of the same key, and then fails if the key is taken.
-/

namespace NexusMcp

open Txn

/-! ## The tables -/

abbrev ApprovalTable := Table (fun a : ApprovalRequest => a.val.id)
abbrev ExecutionTable := Table (fun e : ToolExecution => e.val.id)
abbrev AttemptTable := Table (fun a : ExecutionAttempt => a.val.id)
abbrev AuditTable := Table (fun e : AuditEvent => e.val.id)

@[ext] structure Ledger where
  approvals : ApprovalTable
  executions : ExecutionTable
  attempts : AttemptTable
  audits : AuditTable
deriving DecidableEq

def Ledger.empty : Ledger := ⟨.empty, .empty, .empty, .empty⟩

/-- The columns of `uq_tool_execution_idempotency_scope`. -/
structure IdempotencyScope where
  tenantId : Id
  principalId : String
  toolVersionId : Id
  idempotencyKey : String
deriving Repr, DecidableEq

/-- The entry of an execution in the partial unique index. -/
def ToolExecutionFields.idempotencyScope (e : ToolExecutionFields) : Option IdempotencyScope :=
  e.idempotencyKey.map fun key => ⟨e.tenantId, e.principalId, e.toolVersionId, key⟩

/-- What can be locked: rows, and entries of unique indexes. -/
inductive LedgerRow where
  | approval (id : Id)
  | execution (id : Id)
  | attempt (id : Id)
  | audit (id : Id)
  | idempotency (scope : IdempotencyScope)
  | attemptNumber (executionId : Id) (number : Nat)
deriving DecidableEq

/-- The `async with` blocks of the source. -/
inductive UnitOfWork where
  | requestApproval
  | decideApproval
  | consumeApproval
  | plan
  | startAttempt
  | finishAttempt
  | recordCallDecision
  | recordScopeDenial
  | finish
deriving DecidableEq

/-! ## The rest of the world -/

/-- The request an HTTP client is given. -/
structure HttpRequest where
  method : String
  url : String
  params : List (String × String)
  headers : List (String × String)
  json : Json
  timeout : Rat

/-- A complete final response. `contentType` is the header as it is, and `json` is what decoding
    the body gives. -/
structure HttpResponse where
  statusCode : Nat
  contentLength : Nat
  contentType : Option String
  text : String
  json : Except Exc Json

/-- `response.headers.get("content-type", "").split(";", 1)[0] or None`. -/
def HttpResponse.mediaType (self : HttpResponse) : Option String :=
  match (self.contentType.getD "").toList.takeWhile (· ≠ ';') with
  | [] => none
  | c :: rest => some (String.ofList (c :: rest))

/-- How an exchange can end: a response, one of the two families of exceptions that
    the client documents, or another exception. -/
inductive HttpOutcome where
  | response (response : HttpResponse)
  | timeoutException
  | networkError
  | raised (e : Exc)

inductive Query where
  | now
  | newId
  | resolvePrincipal (context : ActorContext)
  | resolveTool (tenantId : Id) (canonicalName : String)
  | validateArguments (schema arguments : JsonObject)
  | evaluatePolicy (input : PolicyEvaluationInput)
  | validateEndpoint (endpoint : String)
  | resolveBinding (tenantId : Id) (principal : InternalPrincipal) (toolId upstreamServiceId : Id)
  | resolveSecret (reference : SecretReference)
  | executeTool (request : ExecutorRequest) (credential : Option ResolvedCredential)
  | sleep (seconds : Binary.Value)
  | httpRequest (request : HttpRequest)

abbrev Query.Answer : Query → Type
  | now => Time
  | newId => Id
  | resolvePrincipal _ => Except Exc InternalPrincipal
  | resolveTool _ _ => Except Exc (Option ResolvedExecutableTool)
  | validateArguments _ _ => Except Exc Unit
  | evaluatePolicy _ => Except Exc PolicyDecision
  | validateEndpoint _ => Except Exc Unit
  | resolveBinding _ _ _ _ => Except Exc (Option CredentialBinding)
  | resolveSecret _ => Except Exc SecretValue
  | executeTool _ _ => Except Exc ExecutorResult
  | sleep _ => Except Exc Unit
  | httpRequest _ => HttpOutcome

/-- What programs of the gateway are written over. -/
abbrev Gateway : Interface where
  Store := Ledger
  Row := LedgerRow
  Scope := UnitOfWork
  Error := Exc
  Query := Query
  Answer := Query.Answer

abbrev Program (α : Type) := Prog Gateway α

def now : Program Time := .ask .now .ret

def newId : Program Id := .ask .newId .ret

/-! ### Ports

A port raises, or gives an answer. -/

abbrev reply {α : Type} (r : Except Exc α) : Program α := Prog.lift r

def resolvePrincipal (context : ActorContext) : Program InternalPrincipal :=
  .ask (.resolvePrincipal context) reply

def resolveTool (tenantId : Id) (canonicalName : String) :
    Program (Option ResolvedExecutableTool) :=
  .ask (.resolveTool tenantId canonicalName) reply

def validateArguments (schema arguments : JsonObject) : Program Unit :=
  .ask (.validateArguments schema arguments) reply

def evaluatePolicy (input : PolicyEvaluationInput) : Program PolicyDecision :=
  .ask (.evaluatePolicy input) reply

def validateEndpoint (endpoint : String) : Program Unit :=
  .ask (.validateEndpoint endpoint) reply

def resolveBinding (tenantId : Id) (principal : InternalPrincipal) (toolId upstreamServiceId : Id) :
    Program (Option CredentialBinding) :=
  .ask (.resolveBinding tenantId principal toolId upstreamServiceId) reply

def readSecret (reference : SecretReference) : Program SecretValue :=
  .ask (.resolveSecret reference) reply

def executeTool (request : ExecutorRequest) (credential : Option ResolvedCredential) :
    Program ExecutorResult :=
  .ask (.executeTool request credential) reply

def sleep (seconds : Binary.Value) : Program Unit := .ask (.sleep seconds) reply

def httpRequest (request : HttpRequest) : Program HttpOutcome := .ask (.httpRequest request) .ret

/-! ## Writing a loaded row -/

/-- `update_approval_model`: the columns a save writes. -/
def updateApprovalModel (model approval : ApprovalRequest) : ApprovalRequest where
  val := { model.val with
    status := approval.val.status
    decidedBy := approval.val.decidedBy
    decidedAt := approval.val.decidedAt
    consumedAt := approval.val.consumedAt }
  property := by
    have hm := model.property
    have ha := approval.property
    simp only [Valid, PostInit.checks, List.forall_mem_cons] at hm ha ⊢
    tauto

/-- `update_execution_model`: the columns a save writes. -/
def updateExecutionModel (model execution : ToolExecution) : ToolExecution where
  val := { model.val with
    status := execution.val.status
    startedAt := execution.val.startedAt
    finishedAt := execution.val.finishedAt
    errorCode := execution.val.errorCode
    errorCategory := execution.val.errorCategory
    attemptCount := execution.val.attemptCount }
  property := by
    have hm := model.property
    have he := execution.property
    simp only [Valid, PostInit.checks, List.cons_append, List.forall_mem_cons] at hm he ⊢
    tauto

/-- `update_attempt_model`: the columns a save writes. -/
def updateAttemptModel (model attempt : ExecutionAttempt) : ExecutionAttempt where
  val := { model.val with
    status := attempt.val.status
    finishedAt := attempt.val.finishedAt
    errorCode := attempt.val.errorCode
    errorCategory := attempt.val.errorCategory
    upstreamStatus := attempt.val.upstreamStatus }
  property := by
    have hm := model.property
    have ha := attempt.property
    simp only [Valid, PostInit.checks, List.forall_mem_cons] at hm ha ⊢
    tauto

/-- `b` differs from `a` only in the columns a save writes. -/
def ApprovalRequest.Revises (b a : ApprovalRequest) : Prop := updateApprovalModel a b = b

def ToolExecution.Revises (e' e : ToolExecution) : Prop := updateExecutionModel e e' = e'

def ExecutionAttempt.Revises (a' a : ExecutionAttempt) : Prop := updateAttemptModel a a' = a'

/-! ## Revisions -/

theorem ApprovalRequest.Revises.id_eq {a b : ApprovalRequest} (h : b.Revises a) :
    b.val.id = a.val.id :=
  congrArg (·.val.id) h.symm

theorem ToolExecution.Revises.id_eq {e e' : ToolExecution} (h : e'.Revises e) :
    e'.val.id = e.val.id :=
  congrArg (·.val.id) h.symm

theorem ToolExecution.Revises.approvalId_eq {e e' : ToolExecution} (h : e'.Revises e) :
    e'.val.approvalId = e.val.approvalId :=
  congrArg (·.val.approvalId) h.symm

theorem ToolExecution.Revises.scope_eq {e e' : ToolExecution} (h : e'.Revises e) :
    e'.val.idempotencyScope = e.val.idempotencyScope :=
  congrArg (·.val.idempotencyScope) h.symm

theorem ExecutionAttempt.Revises.id_eq {a a' : ExecutionAttempt} (h : a'.Revises a) :
    a'.val.id = a.val.id :=
  congrArg (·.val.id) h.symm

/-! ## Updates of the ledger -/

namespace Ledger

def addApproval (approval : ApprovalRequest) (s : Ledger) : Ledger :=
  { s with approvals := s.approvals.insert approval }

def saveApproval (approval : ApprovalRequest) (s : Ledger) : Ledger :=
  { s with approvals := s.approvals.modify approval.val.id (updateApprovalModel · approval) }

def addExecution (execution : ToolExecution) (s : Ledger) : Ledger :=
  { s with executions := s.executions.insert execution }

def saveExecution (execution : ToolExecution) (s : Ledger) : Ledger :=
  { s with
    executions := s.executions.modify execution.val.id (updateExecutionModel · execution) }

def addAttempt (attempt : ExecutionAttempt) (s : Ledger) : Ledger :=
  { s with attempts := s.attempts.insert attempt }

def saveAttempt (attempt : ExecutionAttempt) (s : Ledger) : Ledger :=
  { s with attempts := s.attempts.modify attempt.val.id (updateAttemptModel · attempt) }

def appendAudit (event : AuditEvent) (s : Ledger) : Ledger :=
  { s with audits := s.audits.insert event }

/-! ## Lookups -/

def approval? (s : Ledger) (tenantId approvalId : Id) : Option ApprovalRequest :=
  (s.approvals.find? approvalId).filter (·.val.tenantId = tenantId)

def execution? (s : Ledger) (tenantId executionId : Id) : Option ToolExecution :=
  (s.executions.find? executionId).filter (·.val.tenantId = tenantId)

def attempt? (s : Ledger) (tenantId attemptId : Id) : Option ExecutionAttempt :=
  (s.attempts.find? attemptId).filter (·.val.tenantId = tenantId)

theorem approval?_eq_some {s : Ledger} {tenantId id : Id} {a : ApprovalRequest} :
    s.approval? tenantId id = some a ↔
      s.approvals.find? id = some a ∧ a.val.tenantId = tenantId := by
  simp [approval?, Option.filter_eq_some_iff]

theorem execution?_eq_some {s : Ledger} {tenantId id : Id} {e : ToolExecution} :
    s.execution? tenantId id = some e ↔
      s.executions.find? id = some e ∧ e.val.tenantId = tenantId := by
  simp [execution?, Option.filter_eq_some_iff]

theorem attempt?_eq_some {s : Ledger} {tenantId id : Id} {a : ExecutionAttempt} :
    s.attempt? tenantId id = some a ↔
      s.attempts.find? id = some a ∧ a.val.tenantId = tenantId := by
  simp [attempt?, Option.filter_eq_some_iff]

/-! ### Frames

An update of a table changes the lookup of its own key only. -/

section Frames

variable {s : Ledger} {id : Id}

theorem find?_addApproval_ne {a : ApprovalRequest} (h : a.val.id ≠ id) :
    (s.addApproval a).approvals.find? id = s.approvals.find? id :=
  Table.find?_insert_ne h

theorem find?_saveApproval_ne {a : ApprovalRequest} (h : id ≠ a.val.id) :
    (s.saveApproval a).approvals.find? id = s.approvals.find? id :=
  Table.find?_modify_ne h

theorem find?_addExecution_ne {e : ToolExecution} (h : e.val.id ≠ id) :
    (s.addExecution e).executions.find? id = s.executions.find? id :=
  Table.find?_insert_ne h

theorem find?_saveExecution_ne {e : ToolExecution} (h : id ≠ e.val.id) :
    (s.saveExecution e).executions.find? id = s.executions.find? id :=
  Table.find?_modify_ne h

theorem find?_addAttempt_ne {a : ExecutionAttempt} (h : a.val.id ≠ id) :
    (s.addAttempt a).attempts.find? id = s.attempts.find? id :=
  Table.find?_insert_ne h

theorem find?_saveAttempt_ne {a : ExecutionAttempt} (h : id ≠ a.val.id) :
    (s.saveAttempt a).attempts.find? id = s.attempts.find? id :=
  Table.find?_modify_ne h

theorem find?_appendAudit_ne {event : AuditEvent} (h : event.val.id ≠ id) :
    (s.appendAudit event).audits.find? id = s.audits.find? id :=
  Table.find?_insert_ne h

/-- A save replaces the row it revises. -/
theorem find?_saveApproval_self {a b : ApprovalRequest}
    (hfound : s.approvals.find? a.val.id = some a) (h : b.Revises a) :
    (s.saveApproval b).approvals.find? a.val.id = some b := by
  have hrow : (s.approvals.modify a.val.id (updateApprovalModel · b)).find? a.val.id =
      some (updateApprovalModel a b) := Table.find?_modify_self hfound rfl
  rw [show updateApprovalModel a b = b from h, ← h.id_eq] at hrow
  rwa [← h.id_eq]

theorem find?_saveExecution_self {e e' : ToolExecution}
    (hfound : s.executions.find? e.val.id = some e) (h : e'.Revises e) :
    (s.saveExecution e').executions.find? e.val.id = some e' := by
  have hrow : (s.executions.modify e.val.id (updateExecutionModel · e')).find? e.val.id =
      some (updateExecutionModel e e') := Table.find?_modify_self hfound rfl
  rw [show updateExecutionModel e e' = e' from h, ← h.id_eq] at hrow
  rwa [← h.id_eq]

theorem find?_saveAttempt_self {a a' : ExecutionAttempt}
    (hfound : s.attempts.find? a.val.id = some a) (h : a'.Revises a) :
    (s.saveAttempt a').attempts.find? a.val.id = some a' := by
  have hrow : (s.attempts.modify a.val.id (updateAttemptModel · a')).find? a.val.id =
      some (updateAttemptModel a a') := Table.find?_modify_self hfound rfl
  rw [show updateAttemptModel a a' = a' from h, ← h.id_eq] at hrow
  rwa [← h.id_eq]

theorem mem_saveExecution {e e' x : ToolExecution}
    (hfound : s.executions.find? e.val.id = some e) (h : e'.Revises e) :
    x ∈ (s.saveExecution e').executions ↔
      (x ∈ s.executions ∧ x.val.id ≠ e.val.id) ∨ x = e' := by
  unfold saveExecution
  rw [h.id_eq]
  exact Table.mem_modify_row hfound h h.id_eq

theorem mem_saveAttempt {a a' x : ExecutionAttempt}
    (hfound : s.attempts.find? a.val.id = some a) (h : a'.Revises a) :
    x ∈ (s.saveAttempt a').attempts ↔ (x ∈ s.attempts ∧ x.val.id ≠ a.val.id) ∨ x = a' := by
  unfold saveAttempt
  rw [h.id_eq]
  exact Table.mem_modify_row hfound h h.id_eq

end Frames

/-- The execution in the unique index under `scope`. -/
def claimedBy? (s : Ledger) (scope : IdempotencyScope) : Option ToolExecution :=
  s.executions.rows.find? (·.val.idempotencyScope = some scope)

/-- The attempt in the unique index under `executionId` and `number`. -/
def numbered? (s : Ledger) (executionId : Id) (number : Nat) : Option ExecutionAttempt :=
  s.attempts.rows.find? fun a => a.val.executionId = executionId ∧ a.val.attemptNumber = number

end Ledger

/-! ## Repositories -/

open Prog (select lock write commit uow)

/-- `_require_tenant`. -/
def requireTenant (tenantId ownTenantId : Id) (message : String) : Program Unit :=
  Prog.raiseIf (ownTenantId ≠ tenantId) (.nexus .tenantBoundaryViolation message)

/-- The check of a unique key that an `INSERT` makes. -/
def claimKey (u : UnitOfWork) (row : LedgerRow) (taken : Ledger → Bool) (e : Exc) :
    Program Unit := do
  let s ← lock u row
  Prog.raiseIf (taken s) e

/-- The body of a repository's `save`: load the row again and write its mutable columns. -/
def saveRow (u : UnitOfWork) (tenantId ownTenantId : Id) (crossed : String)
    (loads : Ledger → Bool) (missing : String) (update : Ledger → Ledger) : Program Unit := do
  requireTenant tenantId ownTenantId crossed
  let s ← select u
  Prog.raiseIf (! loads s) (.valueError missing)
  write u update

namespace Approvals

def add (u : UnitOfWork) (tenantId : Id) (approval : ApprovalRequest) : Program Unit := do
  requireTenant tenantId approval.val.tenantId "approval crossed tenant boundary"
  claimKey u (.approval approval.val.id) (fun s => (s.approvals.find? approval.val.id).isSome)
    (.integrityError "pk_approval_request")
  write u (Ledger.addApproval approval)

def getForUpdate (u : UnitOfWork) (tenantId approvalId : Id) :
    Program (Option ApprovalRequest) := do
  let s ← lock u (.approval approvalId)
  return s.approval? tenantId approvalId

def save (u : UnitOfWork) (tenantId : Id) (approval : ApprovalRequest) : Program Unit :=
  saveRow u tenantId approval.val.tenantId "approval crossed tenant boundary"
    (fun s => (s.approval? tenantId approval.val.id).isSome) "approval does not exist in tenant"
    (Ledger.saveApproval approval)

end Approvals

namespace Executions

/-- The check of the partial unique index, which has no entry without a key. -/
def claimScope (u : UnitOfWork) : Option IdempotencyScope → Program Unit
  | none => pure ()
  | some scope => claimKey u (.idempotency scope) (fun s => (s.claimedBy? scope).isSome)
      (.nexus .idempotencyRace "concurrent idempotency claim lost")

def add (u : UnitOfWork) (tenantId : Id) (execution : ToolExecution) : Program Unit := do
  requireTenant tenantId execution.val.tenantId "tool execution crossed tenant boundary"
  claimKey u (.execution execution.val.id)
    (fun s => (s.executions.find? execution.val.id).isSome) (.integrityError "pk_tool_execution")
  claimScope u execution.val.idempotencyScope
  write u (Ledger.addExecution execution)

def getForUpdate (u : UnitOfWork) (tenantId executionId : Id) :
    Program (Option ToolExecution) := do
  let s ← lock u (.execution executionId)
  return s.execution? tenantId executionId

def getByIdempotencyKey (u : UnitOfWork) (tenantId : Id) (principalId : String)
    (toolVersionId : Id) (idempotencyKey : String) : Program (Option ToolExecution) := do
  let s ← select u
  return s.claimedBy? ⟨tenantId, principalId, toolVersionId, idempotencyKey⟩

def save (u : UnitOfWork) (tenantId : Id) (execution : ToolExecution) : Program Unit :=
  saveRow u tenantId execution.val.tenantId "tool execution crossed tenant boundary"
    (fun s => (s.execution? tenantId execution.val.id).isSome)
    "tool execution does not exist in tenant" (Ledger.saveExecution execution)

end Executions

namespace Attempts

def add (u : UnitOfWork) (tenantId : Id) (attempt : ExecutionAttempt) : Program Unit := do
  requireTenant tenantId attempt.val.tenantId "execution attempt crossed tenant boundary"
  claimKey u (.attempt attempt.val.id) (fun s => (s.attempts.find? attempt.val.id).isSome)
    (.integrityError "pk_execution_attempt")
  claimKey u (.attemptNumber attempt.val.executionId attempt.val.attemptNumber)
    (fun s => (s.numbered? attempt.val.executionId attempt.val.attemptNumber).isSome)
    (.integrityError "uq_execution_attempt_execution_number")
  write u (Ledger.addAttempt attempt)

def getForUpdate (u : UnitOfWork) (tenantId attemptId : Id) :
    Program (Option ExecutionAttempt) := do
  let s ← lock u (.attempt attemptId)
  return s.attempt? tenantId attemptId

def save (u : UnitOfWork) (tenantId : Id) (attempt : ExecutionAttempt) : Program Unit :=
  saveRow u tenantId attempt.val.tenantId "execution attempt crossed tenant boundary"
    (fun s => (s.attempt? tenantId attempt.val.id).isSome)
    "execution attempt does not exist in tenant" (Ledger.saveAttempt attempt)

end Attempts

namespace Audits

def append (u : UnitOfWork) (event : AuditEvent) : Program Unit := do
  claimKey u (.audit event.val.id) (fun s => (s.audits.find? event.val.id).isSome)
    (.integrityError "pk_audit_event")
  write u (Ledger.appendAudit event)

end Audits

end NexusMcp
