-- SUMMARY: Which errors name a row of the ledger, and that its transactions raise none of them.
import NexusMcp.Mcp.Requests
import NexusMcp.Txn.Throws

/-!
# Errors that Name a Row

An error that reaches a client may name an approval or an execution. Only the gate of the
approvals and the reuse of a key raise such errors, and no transaction does.
-/

namespace NexusMcp

open Txn ExecutionLifecycle
open Prog (lift)

/-! ## Errors -/

/-- The approval of an `ApprovalRequiredError`. -/
def ErrorClass.approvalId? : ErrorClass → Option Id
  | approvalRequired id _ => id
  | _ => none

/-- The error names no row of the ledger. -/
def NamesNothing (e : Exc) : Prop :=
  ∀ cls message, e = .nexus cls message →
    cls.existingExecutionId? = none ∧ cls.approvalId? = none

theorem namesNothing_nexus {cls : ErrorClass} {message : String}
    (hexecution : cls.existingExecutionId? = none) (happroval : cls.approvalId? = none) :
    NamesNothing (.nexus cls message) := by
  rintro _ _ ⟨⟩
  exact ⟨hexecution, happroval⟩

theorem namesNothing_valueError {message : String} : NamesNothing (.valueError message) :=
  fun _ _ h => by cases h

theorem namesNothing_integrityError {constraint : String} :
    NamesNothing (.integrityError constraint) :=
  fun _ _ h => by cases h

theorem Interruption.namesNothing {e : Exc} (h : Interruption e) : NamesNothing e :=
  fun cls message he => absurd he (h cls message)

/-! ## Checks -/

/-- What fails, fails with an error that names nothing. -/
def Nameless {α : Type} (x : Except Exc α) : Prop := ∀ e, x = .error e → NamesNothing e

section Checks

variable {α β : Type}

theorem nameless_ok (a : α) : Nameless (.ok a) := fun _ h => by cases h

theorem Nameless.bind {x : Except Exc α} {f : α → Except Exc β} (hx : Nameless x)
    (hf : ∀ a, Nameless (f a)) : Nameless (x >>= f) := by
  intro e he
  rcases bind_eq_error.1 he with he | ⟨a, -, he⟩
  · exact hx e he
  · exact hf a e he

theorem nameless_raiseIf {c : Prop} [Decidable c] {e : Exc} (h : NamesNothing e) :
    Nameless (raiseIf c e) := by
  intro e' he
  unfold raiseIf at he
  split at he
  · cases he
    exact h
  · cases he

theorem nameless_valueErrorIf (c : Prop) [Decidable c] (message : String) :
    Nameless (valueErrorIf c message) :=
  nameless_raiseIf namesNothing_valueError

theorem nameless_construct {δ : Type} [PostInit δ] (d : δ) :
    Nameless (construct d : Except Exc (Checked δ)) := by
  intro e he
  rw [(error_of_construct he).2]
  exact namesNothing_valueError

mutual

theorem Json.nameless_canonical : (value : Json) → Nameless value.canonical
  | .null | .bool true | .bool false | .int _ | .str _ => nameless_ok _
  | .float _ => by
    unfold Json.canonical
    split
    · rintro _ ⟨⟩
      exact namesNothing_valueError
    · exact nameless_ok _
  | .arr items => (Json.nameless_canonicalItems items).bind fun _ => nameless_ok _
  | .obj fields => (Json.nameless_canonicalFields fields).bind fun _ => nameless_ok _

theorem Json.nameless_canonicalItems : (items : List Json) → Nameless (Json.canonicalItems items)
  | [] => nameless_ok _
  | item :: items => item.nameless_canonical.bind fun _ =>
    (Json.nameless_canonicalItems items).bind fun _ => nameless_ok _

theorem Json.nameless_canonicalFields :
    (fields : List (String × Json)) → Nameless (Json.canonicalFields fields)
  | [] => nameless_ok _
  | (_, value) :: fields => value.nameless_canonical.bind fun _ =>
    (Json.nameless_canonicalFields fields).bind fun _ => nameless_ok _

end

theorem nameless_canonicalJsonDigest [Sha256] (value : Json) :
    Nameless (canonicalJsonDigest value) := by
  intro e he
  unfold canonicalJsonDigest at he
  cases hcanonical : value.canonical with
  | ok text =>
    rw [hcanonical] at he
    cases he
  | error e' =>
    rw [hcanonical] at he
    cases he
    exact value.nameless_canonical _ hcanonical

theorem CallTool.nameless_requireKeyUse (sideEffect : ToolSideEffect) (key : Option String) :
    Nameless (requireKeyUse sideEffect key) :=
  (nameless_raiseIf (namesNothing_nexus rfl rfl)).bind fun _ =>
    nameless_raiseIf (namesNothing_nexus rfl rfl)

theorem Nameless.throws {x : Except Exc α} (h : Nameless x) :
    (lift x : Program α).Throws NamesNothing :=
  Prog.throws_lift h

theorem ApprovalRequest.nameless_decide (a : ApprovalRequest) (approved : Bool)
    (approverId : String) (t : Time) :
    Nameless (if approved then a.approve approverId t else a.reject approverId t) := by
  split
  all_goals
    refine (nameless_valueErrorIf _ _).bind fun _ => Nameless.bind ?_ fun _ => nameless_construct _
    exact (nameless_valueErrorIf _ _).bind fun _ => nameless_valueErrorIf _ _

theorem ApprovalRequest.nameless_expire (a : ApprovalRequest) (t : Time) :
    Nameless (a.expire t) := by
  refine (nameless_valueErrorIf _ _).bind fun _ => (nameless_valueErrorIf _ _).bind fun _ => ?_
  split
  · exact nameless_construct _
  · exact nameless_construct _

theorem nameless_requirePendingDecision (a : ApprovalRequest) :
    Nameless (requirePendingDecision a) := by
  unfold requirePendingDecision
  split
  · exact nameless_ok _
  all_goals
    rintro _ ⟨⟩
    exact namesNothing_nexus rfl rfl

theorem ExecutionLifecycle.ExecutionOutcome.nameless_transition (outcome : ExecutionOutcome)
    (e : ToolExecution) (t : Time) : Nameless (outcome.transition e t) := by
  cases outcome <;> exact (nameless_valueErrorIf _ _).bind fun _ => nameless_construct _

theorem nameless_executionAuditEvent (id : Id) (e : ToolExecution) (outcome : AuditOutcome)
    (t : Time) : Nameless (executionAuditEvent id e outcome t) :=
  (nameless_construct _).bind fun _ => nameless_construct _

end Checks

/-! ## Repositories -/

section Repositories

open Prog

variable {u : UnitOfWork}

theorem now_throws : now.Throws NamesNothing := fun _ => trivial

theorem newId_throws : newId.Throws NamesNothing := fun _ => trivial

theorem getApproval_throws {tenantId approvalId : Id} :
    (Approvals.getForUpdate u tenantId approvalId).Throws NamesNothing :=
  throws_lock.bind fun _ => trivial

theorem getExecution_throws {tenantId executionId : Id} :
    (Executions.getForUpdate u tenantId executionId).Throws NamesNothing :=
  throws_lock.bind fun _ => trivial

theorem claimKey_throws {row : LedgerRow} {taken : Ledger → Bool} {constraint : String} :
    (claimKey u row taken (.integrityError constraint)).Throws NamesNothing :=
  throws_lock.bind fun _ => throws_raiseIf namesNothing_integrityError

theorem requireTenant_throws {tenantId ownTenantId : Id} {message : String} :
    (requireTenant tenantId ownTenantId message).Throws NamesNothing :=
  throws_raiseIf (namesNothing_nexus rfl rfl)

theorem saveRow_throws {tenantId ownTenantId : Id} {crossed missing : String}
    {loads : Ledger → Bool} {update : Ledger → Ledger} :
    (saveRow u tenantId ownTenantId crossed loads missing update).Throws NamesNothing :=
  requireTenant_throws.bind fun _ => throws_select.bind fun _ =>
    (throws_raiseIf namesNothing_valueError).bind fun _ => throws_write

theorem append_throws {event : AuditEvent} : (Audits.append u event).Throws NamesNothing :=
  claimKey_throws.bind fun _ => throws_write

end Repositories

/-! ## Transactions -/

section Transactions

open Prog

theorem finish_throws (tenantId executionId : Id) (outcome : ExecutionOutcome) :
    (finish tenantId executionId outcome).Throws NamesNothing := by
  refine now_throws.bind fun t => Throws.uow (getExecution_throws.bind fun _ => ?_)
  refine (throws_orRaise (namesNothing_nexus rfl rfl)).bind fun e => ?_
  refine (throws_raiseIf (namesNothing_nexus rfl rfl)).bind fun _ => ?_
  refine (outcome.nameless_transition e t).throws.bind fun _ => saveRow_throws.bind fun _ => ?_
  refine Throws.bind (newId_throws.bind fun _ => (nameless_executionAuditEvent _ _ _ _).throws)
    fun _ => ?_
  exact append_throws.bind fun _ => throws_commit.bind fun _ => trivial

theorem requestApproval_throws (service : RequestApproval) (command : RequestApprovalCommand) :
    (service.execute command).Throws NamesNothing := by
  refine now_throws.bind fun _ => newId_throws.bind fun _ => ?_
  refine (nameless_construct _).throws.bind fun a => Throws.uow ?_
  refine Throws.bind ?_ fun _ => newId_throws.bind fun _ => ?_
  · exact requireTenant_throws.bind fun _ => claimKey_throws.bind fun _ => throws_write
  · refine (nameless_construct _).throws.bind fun _ => ?_
    refine (nameless_construct _).throws.bind fun _ => ?_
    exact append_throws.bind fun _ => throws_commit.bind fun _ => trivial

theorem decideApproval_throws (command : DecideApprovalCommand) :
    (DecideApproval.execute command).Throws NamesNothing := by
  refine Throws.uow (getApproval_throws.bind fun _ => ?_)
  refine (throws_orRaise (namesNothing_nexus rfl rfl)).bind fun a => ?_
  refine (nameless_requirePendingDecision a).throws.bind fun _ => now_throws.bind fun t => ?_
  split
  · refine (a.nameless_expire t).throws.bind fun _ => saveRow_throws.bind fun _ => ?_
    exact throws_commit.bind fun _ => namesNothing_nexus rfl rfl
  · refine (a.nameless_decide _ _ t).throws.bind fun _ => saveRow_throws.bind fun _ => ?_
    refine newId_throws.bind fun _ => (nameless_construct _).throws.bind fun _ => ?_
    exact append_throws.bind fun _ => throws_commit.bind fun _ => trivial

theorem recordCallDecision_throws (command : RecordCallDecisionCommand) :
    (recordCallDecision command).Throws NamesNothing := by
  refine newId_throws.bind fun _ => now_throws.bind fun _ => ?_
  refine (nameless_construct _).throws.bind fun _ => ?_
  refine (nameless_construct _).throws.bind fun _ => Throws.uow ?_
  exact append_throws.bind fun _ => throws_commit

theorem namesNothing_publicExecutorError (failure : ExecutorFailure) :
    NamesNothing (CallTool.publicExecutorError failure) := by
  unfold CallTool.publicExecutorError
  split
  · exact namesNothing_nexus rfl rfl
  · split <;> exact namesNothing_nexus rfl rfl

/-- What the executor fails with is told as an error that names nothing. -/
theorem failExecution_throws {α : Type} (tenantId executionId : Id) (x : Exc) :
    (CallTool.failExecution tenantId executionId x : Program α).Throws NamesNothing := by
  rw [CallTool.failExecution.eq_def]
  split
  · exact (finish_throws _ _ _).bind fun _ _ _ h => by cases h
  · exact (finish_throws _ _ _).bind fun _ => namesNothing_publicExecutorError _
  · exact (finish_throws _ _ _).bind fun _ => namesNothing_nexus rfl rfl

end Transactions

end NexusMcp
