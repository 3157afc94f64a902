-- SUMMARY: What a committed transaction may do to the ledger, and the invariant that all of them keep.
import NexusMcp.Execution.Lifecycle

/-!
# Ledger Steps

`LedgerStep` says once, with every guard, what one committed transaction of the
gateway does to the ledger. Everything that holds of all reachable ledgers is proved
of `LedgerStep` and of nothing else.
-/

namespace NexusMcp

open Txn ExecutionLifecycle

/-! ## Steps -/

/-- The consumption of the approval that `execution` names, or nothing. -/
inductive ConsumedFor (execution : ToolExecutionFields) : Ledger → Ledger → Prop where
  | nothing {s} (hnone : execution.approvalId = none) : ConsumedFor execution s s
  | approval {s a b} (hnamed : execution.approvalId = some a.val.id)
      (hfound : s.approvals.find? a.val.id = some a)
      (htenant : a.val.tenantId = execution.tenantId)
      (hconsume : a.consume execution.principalId execution.toolVersionId
        execution.argumentsDigest execution.policyVersion execution.idempotencyKey
        execution.plannedAt = .ok b) :
      ConsumedFor execution s (s.saveApproval b)

/-- What one commit does. -/
inductive LedgerStep : Ledger → Ledger → Prop where
  | idle {s} : LedgerStep s s
  | request {s approval event}
      (hstatus : approval.val.status = .pending)
      (hfree : s.approvals.find? approval.val.id = none)
      (hevent : s.audits.find? event.val.id = none)
      (hexecution : event.val.executionId = none) :
      LedgerStep s ((s.addApproval approval).appendAudit event)
  | decide {s a b event approverId t}
      (hfound : s.approvals.find? a.val.id = some a)
      (hdecide : a.approve approverId t = .ok b ∨ a.reject approverId t = .ok b)
      (hevent : s.audits.find? event.val.id = none)
      (hexecution : event.val.executionId = none) :
      LedgerStep s ((s.saveApproval b).appendAudit event)
  | expire {s a b t}
      (hfound : s.approvals.find? a.val.id = some a)
      (hexpire : a.expire t = .ok b) :
      LedgerStep s (s.saveApproval b)
  | consume {s a b principalId toolVersionId argumentsDigest policyVersion idempotencyKey t}
      (hfound : s.approvals.find? a.val.id = some a)
      (hconsume : a.consume principalId toolVersionId argumentsDigest policyVersion
        idempotencyKey t = .ok b) :
      LedgerStep s (s.saveApproval b)
  | plan {s s' e event id}
      (hconsumed : ConsumedFor e.val s s')
      (hstatus : e.val.status = .running) (hcount : e.val.attemptCount = 0)
      (hfree : s.executions.find? e.val.id = none)
      (hunclaimed : ∀ scope, e.val.idempotencyScope = some scope → s.claimedBy? scope = none)
      (haudit : executionAuditEvent id e .allowed e.val.plannedAt = .ok event)
      (hevent : s.audits.find? event.val.id = none) :
      LedgerStep s ((s'.addExecution e).appendAudit event)
  | startAttempt {s e e' a}
      (hfound : s.executions.find? e.val.id = some e)
      (hregister : e.registerAttempt = .ok e')
      (hexecution : a.val.executionId = e.val.id) (hstatus : a.val.status = .running)
      (hnumber : a.val.attemptNumber = e'.val.attemptCount)
      (hfree : s.attempts.find? a.val.id = none) :
      LedgerStep s ((s.saveExecution e').addAttempt a)
  | finishAttempt {s a a' t} {outcome : AttemptOutcome}
      (hfound : s.attempts.find? a.val.id = some a)
      (hfinish : outcome.transition a t = .ok a') :
      LedgerStep s (s.saveAttempt a')
  | finish {s e e' event id t} {outcome : ExecutionOutcome}
      (hfound : s.executions.find? e.val.id = some e)
      (hstatus : e.val.status = .running)
      (hfinish : outcome.transition e t = .ok e')
      (haudit : executionAuditEvent id e' outcome.audit t = .ok event)
      (hevent : s.audits.find? event.val.id = none) :
      LedgerStep s ((s.saveExecution e').appendAudit event)
  | audit {s event}
      (hevent : s.audits.find? event.val.id = none)
      (hexecution : event.val.executionId = none) :
      LedgerStep s (s.appendAudit event)

/-! ## What a transition of a row changes -/

/-- The outcome in the audit of an execution that ended in `status`. -/
def ExecutionStatus.auditOutcome : ExecutionStatus → Option AuditOutcome
  | .succeeded => some .succeeded
  | .failed => some .failed
  | .unknown => some .unknown
  | .cancelled => some .cancelled
  | .planned | .running => none

theorem ExecutionLifecycle.AttemptOutcome.transition_ok {outcome : AttemptOutcome}
    {a a' : ExecutionAttempt} {t : Time} (h : outcome.transition a t = .ok a') :
    a.val.status = .running ∧ a'.val.status ≠ .running ∧
      a'.val = { a.val with
        status := a'.val.status, finishedAt := some t, errorCode := a'.val.errorCode,
        errorCategory := a'.val.errorCategory, upstreamStatus := a'.val.upstreamStatus } := by
  cases outcome with
  | succeeded upstreamStatus =>
    obtain ⟨hrunning, h⟩ := ExecutionAttempt.succeed_eq_ok.1 h
    simp [h, hrunning]
  | failed errorCode category outcomeUnknown upstreamStatus =>
    obtain ⟨hrunning, h⟩ := ExecutionAttempt.fail_eq_ok.1 h
    cases outcomeUnknown <;> simp [h, hrunning]
  | cancelled =>
    obtain ⟨hrunning, h⟩ := ExecutionAttempt.cancel_eq_ok.1 h
    simp [h, hrunning]

theorem ExecutionLifecycle.ExecutionOutcome.transition_ok {outcome : ExecutionOutcome}
    {e e' : ToolExecution} {t : Time} (h : outcome.transition e t = .ok e') :
    e'.val.status.Terminal ∧
      e'.val = { e.val with
        status := e'.val.status, finishedAt := some t, errorCode := e'.val.errorCode,
        errorCategory := e'.val.errorCategory } := by
  cases outcome with
  | succeeded =>
    obtain ⟨-, h⟩ := ToolExecution.succeed_eq_ok.1 h
    simp [h, ExecutionStatus.Terminal]
  | failed errorCode category =>
    obtain ⟨-, h⟩ := ToolExecution.fail_eq_ok.1 h
    simp [h, ExecutionStatus.Terminal]
  | unknown errorCode =>
    obtain ⟨-, h⟩ := ToolExecution.markUnknown_eq_ok.1 h
    simp [h, ExecutionStatus.Terminal]
  | cancelled =>
    obtain ⟨-, h⟩ := ToolExecution.cancel_eq_ok.1 h
    simp [h, ExecutionStatus.Terminal]

theorem ExecutionLifecycle.ExecutionOutcome.auditOutcome_of_transition
    {outcome : ExecutionOutcome} {e e' : ToolExecution} {t : Time}
    (h : outcome.transition e t = .ok e') : e'.val.status.auditOutcome = some outcome.audit := by
  cases outcome with
  | succeeded => simp [(ToolExecution.succeed_eq_ok.1 h).2, ExecutionStatus.auditOutcome,
      ExecutionOutcome.audit]
  | failed errorCode category => simp [(ToolExecution.fail_eq_ok.1 h).2,
      ExecutionStatus.auditOutcome, ExecutionOutcome.audit]
  | unknown errorCode => simp [(ToolExecution.markUnknown_eq_ok.1 h).2,
      ExecutionStatus.auditOutcome, ExecutionOutcome.audit]
  | cancelled => simp [(ToolExecution.cancel_eq_ok.1 h).2, ExecutionStatus.auditOutcome,
      ExecutionOutcome.audit]

theorem ApprovalRequest.revises_of_consume {a b : ApprovalRequest} {principalId : String}
    {toolVersionId : Id} {argumentsDigest policyVersion : String}
    {idempotencyKey : Option String} {t : Time}
    (h : a.consume principalId toolVersionId argumentsDigest policyVersion idempotencyKey t =
      .ok b) : b.Revises a := by
  obtain ⟨-, -, -, -, -, -, -, h⟩ := ApprovalRequest.consume_eq_ok.1 h
  exact Subtype.ext (by simp [updateApprovalModel, h])

theorem ApprovalRequest.revises_of_expire {a b : ApprovalRequest} {t : Time}
    (h : a.expire t = .ok b) : b.Revises a := by
  obtain ⟨-, -, h⟩ := ApprovalRequest.expire_eq_ok.1 h
  split at h <;> exact Subtype.ext (by simp [updateApprovalModel, h])

theorem ApprovalRequest.revises_of_decide {a b : ApprovalRequest} {approverId : String} {t : Time}
    (h : a.approve approverId t = .ok b ∨ a.reject approverId t = .ok b) : b.Revises a := by
  rcases h with h | h
  · obtain ⟨-, -, -, h⟩ := ApprovalRequest.approve_eq_ok.1 h
    exact Subtype.ext (by simp [updateApprovalModel, h])
  · obtain ⟨-, -, -, h⟩ := ApprovalRequest.reject_eq_ok.1 h
    exact Subtype.ext (by simp [updateApprovalModel, h])

theorem ToolExecution.revises_of_register {e e' : ToolExecution}
    (h : e.registerAttempt = .ok e') : e'.Revises e := by
  obtain ⟨-, h⟩ := ToolExecution.registerAttempt_eq_ok.1 h
  exact Subtype.ext (by simp [updateExecutionModel, h])

theorem ToolExecution.revises_of_finish {outcome : ExecutionOutcome} {e e' : ToolExecution}
    {t : Time} (h : outcome.transition e t = .ok e') : e'.Revises e := by
  obtain ⟨-, h⟩ := outcome.transition_ok h
  have hstarted : e'.val.startedAt = e.val.startedAt := by rw [h]
  have hfinished : e'.val.finishedAt = some t := by rw [h]
  have hcount : e'.val.attemptCount = e.val.attemptCount := by rw [h]
  refine Subtype.ext (Eq.trans ?_ h.symm)
  simp only [updateExecutionModel, hstarted, hfinished, hcount]

theorem ExecutionAttempt.revises_of_finish {outcome : AttemptOutcome} {a a' : ExecutionAttempt}
    {t : Time} (h : outcome.transition a t = .ok a') : a'.Revises a := by
  obtain ⟨-, -, h⟩ := outcome.transition_ok h
  have hfinished : a'.val.finishedAt = some t := by rw [h]
  refine Subtype.ext (Eq.trans ?_ h.symm)
  simp only [updateAttemptModel, hfinished]

/-! ## The invariant -/

namespace Ledger

/-- The numbers of the attempts of an execution, in the order they were inserted. -/
def attemptNumbers (s : Ledger) (executionId : Id) : List Nat :=
  s.attempts.rows.filterMap fun a =>
    if a.val.executionId = executionId then some a.val.attemptNumber else none

/-- The audits of an execution, in the order they were appended. -/
def auditsOf (s : Ledger) (executionId : Id) : List AuditEvent :=
  s.audits.rows.filter (·.val.executionId = some executionId)

end Ledger

/-- `event` records the end of `e`. -/
structure RecordsEnd (e : ToolExecution) (event : AuditEvent) : Prop where
  outcome : e.val.status.auditOutcome = some event.val.outcome
  attemptCount : recordedAttemptCount event = some (.int e.val.attemptCount)

/-- The audits of an execution: one `ALLOWED` and, once it ended, one for the end. -/
def Audited (e : ToolExecution) (events : List AuditEvent) : Prop :=
  ∃ first, first.val.outcome = .allowed ∧
    ((e.val.status = .running ∧ events = [first]) ∨
      ∃ last, RecordsEnd e last ∧ events = [first, last])

/-- The approval was consumed for exactly this call, when it was planned and in time. -/
structure ConsumedBy (a : ApprovalFields) (e : ToolExecutionFields) : Prop where
  status : a.status = .consumed
  tenantId : a.tenantId = e.tenantId
  principalId : a.principalId = e.principalId
  toolVersionId : a.toolVersionId = e.toolVersionId
  argumentsDigest : a.argumentsDigest = e.argumentsDigest
  policyVersion : a.policyVersion = e.policyVersion
  idempotencyKey : a.idempotencyKey = e.idempotencyKey
  consumedAt : a.consumedAt = some e.plannedAt
  inTime : e.plannedAt < a.expiresAt

/-- What holds of every reachable ledger. -/
structure LedgerInv (s : Ledger) : Prop where
  numbered : ∀ e ∈ s.executions, s.attemptNumbers e.val.id = List.range' 1 e.val.attemptCount
  attemptsOwned : ∀ a ∈ s.attempts, s.executions.find? a.val.executionId ≠ none
  audited : ∀ e ∈ s.executions, Audited e (s.auditsOf e.val.id)
  auditsOwned : ∀ event ∈ s.audits, ∀ id, event.val.executionId = some id →
    s.executions.find? id ≠ none
  claimed : ∀ e ∈ s.executions, ∀ e' ∈ s.executions, ∀ scope,
    e.val.idempotencyScope = some scope → e'.val.idempotencyScope = some scope → e = e'
  approvedOnce : ∀ e ∈ s.executions, ∀ e' ∈ s.executions, ∀ approvalId,
    e.val.approvalId = some approvalId → e'.val.approvalId = some approvalId → e = e'
  approved : ∀ e ∈ s.executions, ∀ approvalId, e.val.approvalId = some approvalId →
    ∃ a, s.approvals.find? approvalId = some a ∧ ConsumedBy a.val e.val

namespace LedgerInv

theorem empty : LedgerInv Ledger.empty where
  numbered _ h := absurd h Table.not_mem_empty
  attemptsOwned _ h := absurd h Table.not_mem_empty
  audited _ h := absurd h Table.not_mem_empty
  auditsOwned _ h := absurd h Table.not_mem_empty
  claimed _ h := absurd h Table.not_mem_empty
  approvedOnce _ h := absurd h Table.not_mem_empty
  approved _ h := absurd h Table.not_mem_empty

variable {s : Ledger}

/-! ## Updates that keep the invariant -/

theorem addApproval (h : LedgerInv s) {a : ApprovalRequest}
    (hfree : s.approvals.find? a.val.id = none) : LedgerInv (s.addApproval a) where
  numbered := h.numbered
  attemptsOwned := h.attemptsOwned
  audited := h.audited
  auditsOwned := h.auditsOwned
  claimed := h.claimed
  approvedOnce := h.approvedOnce
  approved := by
    intro e he approvalId hid
    obtain ⟨b, hb, hconsumed⟩ := h.approved e he approvalId hid
    refine ⟨b, ?_, hconsumed⟩
    have hne : a.val.id ≠ approvalId := by
      rintro rfl
      rw [hfree] at hb
      cases hb
    rwa [Ledger.find?_addApproval_ne hne]

/-- Revising an approval that nobody consumed. -/
theorem saveApproval (h : LedgerInv s) {a b : ApprovalRequest}
    (hfound : s.approvals.find? a.val.id = some a) (hopen : a.val.status ≠ .consumed)
    (hrevises : b.Revises a) : LedgerInv (s.saveApproval b) where
  numbered := h.numbered
  attemptsOwned := h.attemptsOwned
  audited := h.audited
  auditsOwned := h.auditsOwned
  claimed := h.claimed
  approvedOnce := h.approvedOnce
  approved := by
    intro e he approvalId hid
    obtain ⟨c, hc, hconsumed⟩ := h.approved e he approvalId hid
    refine ⟨c, ?_, hconsumed⟩
    have hne : approvalId ≠ b.val.id := by
      rintro rfl
      rw [hrevises.id_eq, hfound] at hc
      cases hc
      exact hopen hconsumed.status
    rwa [Ledger.find?_saveApproval_ne hne]

theorem auditsOf_append {event : AuditEvent} (hfree : s.audits.find? event.val.id = none)
    (id : Id) : (s.appendAudit event).auditsOf id =
      s.auditsOf id ++ if event.val.executionId = some id then [event] else [] := by
  unfold Ledger.auditsOf Ledger.appendAudit
  rw [Table.rows_insert hfree, List.filter_append]
  simp [List.filter_cons]

/-- Appending an audit of no execution. -/
theorem appendAudit (h : LedgerInv s) {event : AuditEvent}
    (hfree : s.audits.find? event.val.id = none) (hnone : event.val.executionId = none) :
    LedgerInv (s.appendAudit event) where
  numbered := h.numbered
  attemptsOwned := h.attemptsOwned
  audited e he := by
    rw [auditsOf_append hfree, hnone]
    simpa using h.audited e he
  auditsOwned ev hev id hid := by
    rcases (Table.mem_insert hfree).1 hev with hev | rfl
    · exact h.auditsOwned ev hev id hid
    · rw [hnone] at hid
      cases hid
  claimed := h.claimed
  approvedOnce := h.approvedOnce
  approved := h.approved

theorem attemptNumbers_saveAttempt (s : Ledger) (a : ExecutionAttempt) (id : Id) :
    (s.saveAttempt a).attemptNumbers id = s.attemptNumbers id :=
  Table.filterMap_modify fun _ _ => rfl

theorem attemptNumbers_addAttempt {a : ExecutionAttempt}
    (hfree : s.attempts.find? a.val.id = none) (id : Id) :
    (s.addAttempt a).attemptNumbers id =
      s.attemptNumbers id ++ if a.val.executionId = id then [a.val.attemptNumber] else [] := by
  have hrows : (s.addAttempt a).attempts.rows = s.attempts.rows ++ [a] := Table.rows_insert hfree
  unfold Ledger.attemptNumbers
  rw [hrows, List.filterMap_append]
  by_cases hid : a.val.executionId = id <;> simp [hid]

/-- Revising an attempt. -/
theorem saveAttempt (h : LedgerInv s) {a a' : ExecutionAttempt}
    (hfound : s.attempts.find? a.val.id = some a) (hrevises : a'.Revises a) :
    LedgerInv (s.saveAttempt a') where
  numbered e he := by
    rw [attemptNumbers_saveAttempt]
    exact h.numbered e he
  attemptsOwned x hx := by
    rcases (Ledger.mem_saveAttempt hfound hrevises).1 hx with ⟨hx, -⟩ | rfl
    · exact h.attemptsOwned x hx
    · have howner : x.val.executionId = a.val.executionId :=
        congrArg (·.val.executionId) hrevises.symm
      rw [howner]
      exact h.attemptsOwned a (Table.mem_of_find? hfound)
  audited := h.audited
  auditsOwned := h.auditsOwned
  claimed := h.claimed
  approvedOnce := h.approvedOnce
  approved := h.approved

/-- What a revision of an execution leaves as it is, but for the attempts and the audits
    of that execution. -/
theorem owned_saveExecution {e e' : ToolExecution}
    (hfound : s.executions.find? e.val.id = some e) (hrevises : e'.Revises e) {id : Id}
    (h : s.executions.find? id ≠ none) : (s.saveExecution e').executions.find? id ≠ none := by
  by_cases hid : id = e.val.id
  · subst hid
    rw [Ledger.find?_saveExecution_self hfound hrevises]
    simp
  · rwa [Ledger.find?_saveExecution_ne (hrevises.id_eq ▸ hid)]

theorem unique_saveExecution {e e' : ToolExecution}
    (hfound : s.executions.find? e.val.id = some e) (hrevises : e'.Revises e)
    {P : ToolExecution → Prop} (hP : P e' → P e)
    (hunique : ∀ x ∈ s.executions, ∀ y ∈ s.executions, P x → P y → x = y) :
    ∀ x ∈ (s.saveExecution e').executions, ∀ y ∈ (s.saveExecution e').executions,
      P x → P y → x = y := by
  have hmem := Table.mem_of_find? hfound
  intro x hx y hy hPx hPy
  rcases (Ledger.mem_saveExecution hfound hrevises).1 hx with ⟨hx, hxne⟩ | hxe <;>
    rcases (Ledger.mem_saveExecution hfound hrevises).1 hy with ⟨hy, hyne⟩ | hye
  · exact hunique x hx y hy hPx hPy
  -- Before the revision both were rows with the property, so they were one and the same.
  · exact absurd (congrArg (·.val.id) (hunique x hx e hmem hPx (hP (hye ▸ hPy)))) hxne
  · exact absurd (congrArg (·.val.id) (hunique y hy e hmem hPy (hP (hxe ▸ hPx)))) hyne
  · exact hxe.trans hye.symm

theorem approved_saveExecution (h : LedgerInv s) {e e' : ToolExecution}
    (hfound : s.executions.find? e.val.id = some e) (hrevises : e'.Revises e) :
    ∀ x ∈ (s.saveExecution e').executions, ∀ approvalId, x.val.approvalId = some approvalId →
      ∃ a, s.approvals.find? approvalId = some a ∧ ConsumedBy a.val x.val := by
  intro x hx approvalId hid
  rcases (Ledger.mem_saveExecution hfound hrevises).1 hx with ⟨hx, -⟩ | rfl
  · exact h.approved x hx approvalId hid
  · rw [hrevises.approvalId_eq] at hid
    obtain ⟨a, ha, hconsumed⟩ := h.approved e (Table.mem_of_find? hfound) approvalId hid
    refine ⟨a, ha, ?_⟩
    rw [← show updateExecutionModel e x = x from hrevises]
    exact ⟨hconsumed.1, hconsumed.2, hconsumed.3, hconsumed.4, hconsumed.5, hconsumed.6,
      hconsumed.7, hconsumed.8, hconsumed.9⟩

/-- Counting another attempt of a running execution and inserting it. -/
theorem startAttempt (h : LedgerInv s) {e e' : ToolExecution} {a : ExecutionAttempt}
    (hfound : s.executions.find? e.val.id = some e) (hregister : e.registerAttempt = .ok e')
    (hexecution : a.val.executionId = e.val.id)
    (hnumber : a.val.attemptNumber = e'.val.attemptCount)
    (hfree : s.attempts.find? a.val.id = none) :
    LedgerInv ((s.saveExecution e').addAttempt a) := by
  have hrevises := ToolExecution.revises_of_register hregister
  obtain ⟨hrunning, hval⟩ := ToolExecution.registerAttempt_eq_ok.1 hregister
  have hcount : e'.val.attemptCount = e.val.attemptCount + 1 := by rw [hval]
  have hnumbers : ∀ id, ((s.saveExecution e').addAttempt a).attemptNumbers id =
      s.attemptNumbers id ++ if e.val.id = id then [e.val.attemptCount + 1] else [] := by
    intro id
    rw [← hexecution, ← hcount, ← hnumber]
    exact attemptNumbers_addAttempt hfree id
  have howned : ∀ {id}, s.executions.find? id ≠ none →
      (s.saveExecution e').executions.find? id ≠ none := owned_saveExecution hfound hrevises
  constructor
  case numbered =>
    intro x hx
    rw [hnumbers]
    rcases (Ledger.mem_saveExecution hfound hrevises).1 hx with ⟨hx, hne⟩ | rfl
    -- The new number is the revised execution's alone.
    · rw [if_neg (Ne.symm hne), List.append_nil]
      exact h.numbered x hx
    · rw [hrevises.id_eq, if_pos rfl, h.numbered e (Table.mem_of_find? hfound), hcount,
        List.range'_1_concat, Nat.add_comm 1]
  case attemptsOwned =>
    intro x hx
    rcases (Table.mem_insert hfree).1 hx with hx | rfl
    · exact howned (h.attemptsOwned x hx)
    · exact howned (by rw [hexecution, hfound]; simp)
  case audited =>
    intro x hx
    rcases (Ledger.mem_saveExecution hfound hrevises).1 hx with ⟨hx, -⟩ | rfl
    · exact h.audited x hx
    · obtain ⟨first, hfirst, hrest⟩ := h.audited e (Table.mem_of_find? hfound)
      rcases hrest with ⟨-, hevents⟩ | ⟨last, hend, -⟩
      · refine ⟨first, hfirst, .inl ⟨by rw [hval, hrunning], ?_⟩⟩
        rw [hrevises.id_eq]
        exact hevents
      -- A running execution has no audit of its end.
      · have houtcome := hend.outcome
        rw [hrunning] at houtcome
        cases houtcome
  case auditsOwned => exact fun event hevent id hid => howned (h.auditsOwned event hevent id hid)
  case claimed =>
    intro x hx y hy scope hxs hys
    exact unique_saveExecution hfound hrevises (fun hs => hrevises.scope_eq.symm.trans hs)
      (fun x hx y hy => h.claimed x hx y hy scope) x hx y hy hxs hys
  case approvedOnce =>
    intro x hx y hy approvalId hxa hya
    exact unique_saveExecution hfound hrevises (fun hs => hrevises.approvalId_eq.symm.trans hs)
      (fun x hx y hy => h.approvedOnce x hx y hy approvalId) x hx y hy hxa hya
  case approved => exact approved_saveExecution h hfound hrevises

/-- Ending a running execution and auditing its end. -/
theorem finish (h : LedgerInv s) {e e' : ToolExecution} {event : AuditEvent} {id : Id} {t : Time}
    {outcome : ExecutionOutcome} (hfound : s.executions.find? e.val.id = some e)
    (hrunning : e.val.status = .running) (hfinish : outcome.transition e t = .ok e')
    (haudit : executionAuditEvent id e' outcome.audit t = .ok event)
    (hfree : s.audits.find? event.val.id = none) :
    LedgerInv ((s.saveExecution e').appendAudit event) := by
  have hrevises := ToolExecution.revises_of_finish hfinish
  obtain ⟨-, hval⟩ := outcome.transition_ok hfinish
  obtain ⟨-, hevent, houtcome, -, hrecorded⟩ := executionAuditEvent_ok haudit
  have hcount : e'.val.attemptCount = e.val.attemptCount := by rw [hval]
  have howned : ∀ {id}, s.executions.find? id ≠ none →
      (s.saveExecution e').executions.find? id ≠ none := owned_saveExecution hfound hrevises
  have hmem := Table.mem_of_find? hfound
  constructor
  case numbered =>
    intro x hx
    rcases (Ledger.mem_saveExecution hfound hrevises).1 hx with ⟨hx, -⟩ | rfl
    · exact h.numbered x hx
    · rw [hcount, hrevises.id_eq]
      exact h.numbered e hmem
  case attemptsOwned => exact fun x hx => howned (h.attemptsOwned x hx)
  case audited =>
    intro x hx
    rw [auditsOf_append (show (s.saveExecution e').audits.find? event.val.id = none from hfree),
      hevent, hrevises.id_eq]
    rcases (Ledger.mem_saveExecution hfound hrevises).1 hx with ⟨hx, hne⟩ | rfl
    · rw [if_neg (fun hid => hne (Option.some.inj hid).symm), List.append_nil]
      exact h.audited x hx
    · rw [hrevises.id_eq, if_pos rfl]
      obtain ⟨first, hfirst, hrest⟩ := h.audited e hmem
      rcases hrest with ⟨-, hevents⟩ | ⟨last, hend, -⟩
      -- The `ALLOWED` audit stands alone until now, and the new one is appended to it.
      · have hends : RecordsEnd x event :=
          ⟨by rw [houtcome, outcome.auditOutcome_of_transition hfinish], hrecorded⟩
        exact ⟨first, hfirst, .inr ⟨event, hends, congrArg (· ++ [event]) hevents⟩⟩
      -- Its end was not recorded before, since it was running.
      · have hnone := hend.outcome
        rw [hrunning] at hnone
        cases hnone
  case auditsOwned =>
    intro ev hev id hid
    rcases (Table.mem_insert hfree).1 hev with hev | rfl
    · exact howned (h.auditsOwned ev hev id hid)
    · rw [hevent, hrevises.id_eq] at hid
      cases hid
      exact howned (by rw [hfound]; simp)
  case claimed =>
    intro x hx y hy scope hxs hys
    exact unique_saveExecution hfound hrevises (fun hs => hrevises.scope_eq.symm.trans hs)
      (fun x hx y hy => h.claimed x hx y hy scope) x hx y hy hxs hys
  case approvedOnce =>
    intro x hx y hy approvalId hxa hya
    exact unique_saveExecution hfound hrevises (fun hs => hrevises.approvalId_eq.symm.trans hs)
      (fun x hx y hy => h.approvedOnce x hx y hy approvalId) x hx y hy hxa hya
  case approved => exact approved_saveExecution h hfound hrevises

/-- The consumption for a new execution keeps the invariant, and leaves the tables other
    than the approvals as they are. -/
theorem consumedFor (h : LedgerInv s) {s' : Ledger} {e : ToolExecutionFields}
    (hconsumed : ConsumedFor e s s') :
    LedgerInv s' ∧ s'.executions = s.executions ∧ s'.attempts = s.attempts ∧
      s'.audits = s.audits ∧ ∀ approvalId, e.approvalId = some approvalId →
        (∃ a, s'.approvals.find? approvalId = some a ∧ ConsumedBy a.val e) ∧
        ∀ x ∈ s.executions, x.val.approvalId ≠ some approvalId := by
  cases hconsumed with
  | nothing hnone =>
    refine ⟨h, rfl, rfl, rfl, fun approvalId hid => ?_⟩
    rw [hnone] at hid
    cases hid
  | @approval a b hnamed hfound htenant hconsume =>
    have hrevises := ApprovalRequest.revises_of_consume hconsume
    obtain ⟨happroved, htime, h₁, h₂, h₃, h₄, h₅, hval⟩ := ApprovalRequest.consume_eq_ok.1 hconsume
    -- No execution names the approval yet: it would have been consumed for that one.
    have hopen : a.val.status ≠ .consumed := by rw [happroved]; decide
    refine ⟨h.saveApproval hfound hopen hrevises, rfl, rfl, rfl, fun approvalId hid => ?_⟩
    obtain rfl : a.val.id = approvalId := Option.some.inj (hnamed.symm.trans hid)
    refine ⟨⟨b, Ledger.find?_saveApproval_self hfound hrevises, ?_⟩, fun x hx hxa => ?_⟩
    · rw [hval]
      exact ⟨rfl, htenant, h₁.symm, h₂.symm, h₃.symm, h₄.symm, h₅.symm, rfl, htime⟩
    · obtain ⟨c, hc, hconsumed⟩ := h.approved x hx _ hxa
      rw [hfound] at hc
      cases hc
      exact hopen hconsumed.status

/-- No attempt and no audit belongs to an execution that does not exist yet. -/
theorem nothing_owned (h : LedgerInv s) {id : Id} (hfree : s.executions.find? id = none) :
    s.attemptNumbers id = [] ∧ s.auditsOf id = [] := by
  constructor
  · refine List.filterMap_eq_nil_iff.2 fun a ha => if_neg fun hid => ?_
    exact h.attemptsOwned a ha (hid ▸ hfree)
  · refine List.filter_eq_nil_iff.2 fun event hevent hid => ?_
    exact h.auditsOwned event hevent id (by simpa using hid) hfree

/-- Recording a new execution with its `ALLOWED` audit. -/
theorem plan (h : LedgerInv s) {s' : Ledger} {e : ToolExecution} {event : AuditEvent} {id : Id}
    {t : Time} (hconsumed : ConsumedFor e.val s s') (hrunning : e.val.status = .running)
    (hcount : e.val.attemptCount = 0) (hfree : s.executions.find? e.val.id = none)
    (hunclaimed : ∀ scope, e.val.idempotencyScope = some scope → s.claimedBy? scope = none)
    (haudit : executionAuditEvent id e .allowed t = .ok event)
    (hevent : s.audits.find? event.val.id = none) :
    LedgerInv ((s'.addExecution e).appendAudit event) := by
  obtain ⟨h', hexecutions, hattempts, haudits, happroval⟩ := h.consumedFor hconsumed
  obtain ⟨-, hexecution, houtcome, -, -⟩ := executionAuditEvent_ok haudit
  -- The consumption changes no table but the approvals, so what is free before is free after.
  rw [← hexecutions] at hfree
  rw [← haudits] at hevent
  obtain ⟨hnumbers, hevents⟩ := h'.nothing_owned hfree
  have hmem : ∀ x, x ∈ (s'.addExecution e).executions ↔ x ∈ s'.executions ∨ x = e := fun x =>
    Table.mem_insert hfree
  have howned : ∀ id, s'.executions.find? id ≠ none →
      (s'.addExecution e).executions.find? id ≠ none := by
    intro id hid
    by_cases hne : e.val.id = id
    · exact absurd (hne ▸ hfree) hid
    · rwa [Ledger.find?_addExecution_ne hne]
  have hself : (s'.addExecution e).executions.find? e.val.id ≠ none := by
    rw [show (s'.addExecution e).executions.find? e.val.id = some e from
      Table.find?_insert_self hfree]
    simp
  constructor
  case numbered =>
    intro x hx
    rcases (hmem x).1 hx with hx | rfl
    · exact h'.numbered x hx
    · rw [hcount]
      exact hnumbers
  case attemptsOwned => exact fun a ha => howned _ (h'.attemptsOwned a ha)
  case audited =>
    intro x hx
    rw [auditsOf_append (show (s'.addExecution e).audits.find? event.val.id = none from hevent),
      hexecution]
    rcases (hmem x).1 hx with hx | rfl
    -- An earlier execution has another id, hence no new audit.
    · have hne : e.val.id ≠ x.val.id := fun hid =>
        absurd (Table.find?_of_mem hx) (by rw [← hid, hfree]; simp)
      rw [if_neg (fun hid => hne (Option.some.inj hid)), List.append_nil]
      exact h'.audited x hx
    · rw [if_pos rfl]
      exact ⟨event, houtcome, .inl ⟨hrunning, congrArg (· ++ [event]) hevents⟩⟩
  case auditsOwned =>
    intro ev hev id hid
    rcases (Table.mem_insert hevent).1 hev with hev | rfl
    · exact howned _ (h'.auditsOwned ev hev id hid)
    · rw [hexecution] at hid
      cases hid
      exact hself
  case claimed =>
    -- The scope was looked up before the insertion, so no earlier execution has claimed it.
    have hnew : ∀ x ∈ s'.executions, ∀ scope, x.val.idempotencyScope = some scope →
        e.val.idempotencyScope ≠ some scope := by
      intro x hx scope hxs hes
      have hnone := List.find?_eq_none.1 (hunclaimed scope hes) x (hexecutions ▸ hx)
      exact hnone (by simpa using hxs)
    intro x hx y hy scope hxs hys
    rcases (hmem x).1 hx with hx | hxe <;> rcases (hmem y).1 hy with hy | hye
    · exact h'.claimed x hx y hy scope hxs hys
    · exact absurd (hye ▸ hys) (hnew x hx scope hxs)
    · exact absurd (hxe ▸ hxs) (hnew y hy scope hys)
    · exact hxe.trans hye.symm
  case approvedOnce =>
    intro x hx y hy approvalId hxa hya
    rcases (hmem x).1 hx with hx | hxe <;> rcases (hmem y).1 hy with hy | hye
    · exact h'.approvedOnce x hx y hy approvalId hxa hya
    -- An approval that was open until now is named by no earlier execution.
    · exact absurd hxa ((happroval approvalId (hye ▸ hya)).2 x (hexecutions ▸ hx))
    · exact absurd hya ((happroval approvalId (hxe ▸ hxa)).2 y (hexecutions ▸ hy))
    · exact hxe.trans hye.symm
  case approved =>
    intro x hx approvalId hid
    rcases (hmem x).1 hx with hx | rfl
    · exact h'.approved x hx approvalId hid
    · exact (happroval approvalId hid).1

/-- Every step keeps the invariant. -/
theorem step {s' : Ledger} (h : LedgerInv s) (hstep : LedgerStep s s') : LedgerInv s' := by
  cases hstep with
  | idle => exact h
  | request hstatus hfree hevent hexecution =>
    exact (h.addApproval hfree).appendAudit hevent hexecution
  | @decide a b event approverId t hfound hdecide hevent hexecution =>
    have hopen : a.val.status ≠ .consumed := by
      rcases hdecide with hdecide | hdecide
      · rw [(ApprovalRequest.approve_eq_ok.1 hdecide).2.1]; decide
      · rw [(ApprovalRequest.reject_eq_ok.1 hdecide).2.1]; decide
    exact (h.saveApproval hfound hopen (ApprovalRequest.revises_of_decide hdecide)).appendAudit
      hevent hexecution
  | @expire a b t hfound hexpire =>
    have hopen : a.val.status ≠ .consumed := by
      rcases (ApprovalRequest.expire_eq_ok.1 hexpire).1 with hs | hs <;> rw [hs] <;> decide
    exact h.saveApproval hfound hopen (ApprovalRequest.revises_of_expire hexpire)
  | @consume a b _ _ _ _ _ _ hfound hconsume =>
    have hopen : a.val.status ≠ .consumed := by
      rw [(ApprovalRequest.consume_eq_ok.1 hconsume).1]; decide
    exact h.saveApproval hfound hopen (ApprovalRequest.revises_of_consume hconsume)
  | plan hconsumed hstatus hcount hfree hunclaimed haudit hevent =>
    exact h.plan hconsumed hstatus hcount hfree hunclaimed haudit hevent
  | startAttempt hfound hregister hexecution hstatus hnumber hfree =>
    exact h.startAttempt hfound hregister hexecution hnumber hfree
  | finishAttempt hfound hfinish =>
    exact h.saveAttempt hfound (ExecutionAttempt.revises_of_finish hfinish)
  | finish hfound hstatus hfinish haudit hevent =>
    exact h.finish hfound hstatus hfinish haudit hevent
  | audit hevent hexecution => exact h.appendAudit hevent hexecution

end LedgerInv

/-! ## Histories of rows -/

theorem ToolExecution.Revises.refl (e : ToolExecution) : e.Revises e := rfl

theorem ToolExecution.Revises.trans {e₁ e₂ e₃ : ToolExecution} (h : e₂.Revises e₁)
    (h' : e₃.Revises e₂) : e₃.Revises e₁ := by
  have hmodel : updateExecutionModel e₁ e₃ = updateExecutionModel e₂ e₃ := by
    rw [← show updateExecutionModel e₁ e₂ = e₂ from h]
    rfl
  exact hmodel.trans h'

theorem ApprovalRequest.Revises.refl (a : ApprovalRequest) : a.Revises a := rfl

theorem ApprovalRequest.Revises.trans {a₁ a₂ a₃ : ApprovalRequest} (h : a₂.Revises a₁)
    (h' : a₃.Revises a₂) : a₃.Revises a₁ := by
  have hmodel : updateApprovalModel a₁ a₃ = updateApprovalModel a₂ a₃ := by
    rw [← show updateApprovalModel a₁ a₂ = a₂ from h]
    rfl
  exact hmodel.trans h'

/-- The moves of an approval. -/
def ApprovalStatus.CanBecome : ApprovalStatus → ApprovalStatus → Prop
  | .pending, .approved => True
  | .pending, .rejected => True
  | .pending, .expired => True
  | .approved, .expired => True
  | .approved, .consumed => True
  | _, _ => False

/-- An approval stays as it is, or moves once. -/
def ApprovalMove (a b : ApprovalRequest) : Prop :=
  b = a ∨ a.val.status.CanBecome b.val.status

namespace LedgerStep

variable {s s' : Ledger}

/-- An execution is only ever revised, and not at all once it is terminal. -/
theorem execution (hstep : LedgerStep s s') {id : Id} {e : ToolExecution}
    (he : s.executions.find? id = some e) :
    ∃ e', s'.executions.find? id = some e' ∧ e'.Revises e ∧
      (e.val.status ≠ .running → e' = e) := by
  obtain rfl := Table.key_of_find? he
  cases hstep with
  | idle | request | decide | expire | consume | finishAttempt | audit =>
    exact ⟨e, he, .refl e, fun _ => rfl⟩
  | @plan s₁ x event id hconsumed hstatus hcount hfree =>
    have hne : x.val.id ≠ e.val.id := by
      intro h
      rw [h, he] at hfree
      cases hfree
    have hsame : s₁.executions = s.executions := by cases hconsumed <;> rfl
    refine ⟨e, ?_, .refl e, fun _ => rfl⟩
    rw [← he, ← hsame]
    exact Ledger.find?_addExecution_ne hne
  | @startAttempt x x' a hfound hregister =>
    have hrevises := ToolExecution.revises_of_register hregister
    by_cases hid : e.val.id = x.val.id
    · rw [hid] at he ⊢
      obtain rfl : x = e := Option.some.inj (hfound.symm.trans he)
      refine ⟨x', Ledger.find?_saveExecution_self hfound hrevises, hrevises, fun h => ?_⟩
      exact absurd (ToolExecution.registerAttempt_eq_ok.1 hregister).1 h
    · refine ⟨e, ?_, .refl e, fun _ => rfl⟩
      exact (Ledger.find?_saveExecution_ne (hrevises.id_eq ▸ hid)).trans he
  | @finish x x' event id t outcome hfound hstatus hfinish =>
    have hrevises := ToolExecution.revises_of_finish hfinish
    by_cases hid : e.val.id = x.val.id
    · rw [hid] at he ⊢
      obtain rfl : x = e := Option.some.inj (hfound.symm.trans he)
      exact ⟨x', Ledger.find?_saveExecution_self hfound hrevises, hrevises,
        fun h => absurd hstatus h⟩
    · refine ⟨e, ?_, .refl e, fun _ => rfl⟩
      exact (Ledger.find?_saveExecution_ne (hrevises.id_eq ▸ hid)).trans he

/-- An attempt that ended never changes. -/
theorem attempt (hstep : LedgerStep s s') {id : Id} {a : ExecutionAttempt}
    (ha : s.attempts.find? id = some a) :
    ∃ a', s'.attempts.find? id = some a' ∧ (a.val.status ≠ .running → a' = a) := by
  obtain rfl := Table.key_of_find? ha
  cases hstep with
  | idle | request | decide | expire | consume | finish | audit => exact ⟨a, ha, fun _ => rfl⟩
  | @plan s₁ x event id hconsumed =>
    have hsame : s₁.attempts = s.attempts := by cases hconsumed <;> rfl
    exact ⟨a, (congrArg (·.find? a.val.id) hsame).trans ha, fun _ => rfl⟩
  | @startAttempt x x' b hfound hregister hexecution hstatus hnumber hfree =>
    have hne : b.val.id ≠ a.val.id := by
      intro h
      rw [h, ha] at hfree
      cases hfree
    refine ⟨a, ?_, fun _ => rfl⟩
    rw [← ha]
    exact Ledger.find?_addAttempt_ne hne
  | @finishAttempt b b' t outcome hfound hfinish =>
    have hrevises := ExecutionAttempt.revises_of_finish hfinish
    by_cases hid : a.val.id = b.val.id
    · rw [hid] at ha ⊢
      obtain rfl : b = a := Option.some.inj (hfound.symm.trans ha)
      exact ⟨b', Ledger.find?_saveAttempt_self hfound hrevises,
        fun h => absurd (outcome.transition_ok hfinish).1 h⟩
    · refine ⟨a, ?_, fun _ => rfl⟩
      exact (Ledger.find?_saveAttempt_ne (hrevises.id_eq ▸ hid)).trans ha

/-- A saved approval: its own row moves, the others stay. -/
theorem approval_save {a b x : ApprovalRequest} (hfound : s.approvals.find? a.val.id = some a)
    (hrevises : b.Revises a) (hmove : ApprovalMove a b)
    (hx : s.approvals.find? x.val.id = some x) :
    ∃ y, (s.saveApproval b).approvals.find? x.val.id = some y ∧ ApprovalMove x y := by
  by_cases hid : x.val.id = a.val.id
  · rw [hid] at hx ⊢
    obtain rfl : a = x := Option.some.inj (hfound.symm.trans hx)
    exact ⟨b, Ledger.find?_saveApproval_self hfound hrevises, hmove⟩
  · exact ⟨x, (Ledger.find?_saveApproval_ne (hrevises.id_eq ▸ hid)).trans hx, .inl rfl⟩

/-- An approval only ever moves along `CanBecome`. -/
theorem approval (hstep : LedgerStep s s') {id : Id} {x : ApprovalRequest}
    (hx : s.approvals.find? id = some x) :
    ∃ y, s'.approvals.find? id = some y ∧ ApprovalMove x y := by
  obtain rfl := Table.key_of_find? hx
  cases hstep with
  | idle | startAttempt | finishAttempt | finish | audit => exact ⟨x, hx, .inl rfl⟩
  | @request a event hstatus hfree =>
    -- The identifier of a new request was free.
    have hne : a.val.id ≠ x.val.id := by
      intro h
      rw [h, hx] at hfree
      cases hfree
    exact ⟨x, (Ledger.find?_addApproval_ne hne).trans hx, .inl rfl⟩
  | @decide a b event approverId t hfound hdecide =>
    refine approval_save hfound (ApprovalRequest.revises_of_decide hdecide) (.inr ?_) hx
    rcases hdecide with hdecide | hdecide
    · obtain ⟨-, hpending, -, hval⟩ := ApprovalRequest.approve_eq_ok.1 hdecide
      rw [hval, hpending]
      trivial
    · obtain ⟨-, hpending, -, hval⟩ := ApprovalRequest.reject_eq_ok.1 hdecide
      rw [hval, hpending]
      trivial
  | @expire a b t hfound hexpire =>
    refine approval_save hfound (ApprovalRequest.revises_of_expire hexpire) (.inr ?_) hx
    obtain ⟨hstatus, -, hval⟩ := ApprovalRequest.expire_eq_ok.1 hexpire
    rcases hstatus with hstatus | hstatus <;> rw [hval, hstatus] <;> trivial
  | @consume a b _ _ _ _ _ _ hfound hconsume =>
    refine approval_save hfound (ApprovalRequest.revises_of_consume hconsume) (.inr ?_) hx
    obtain ⟨happroved, -, -, -, -, -, -, hval⟩ := ApprovalRequest.consume_eq_ok.1 hconsume
    rw [hval, happroved]
    trivial
  | @plan s₁ e event id hconsumed =>
    cases hconsumed with
    | nothing => exact ⟨x, hx, .inl rfl⟩
    | @approval a b hnamed hfound htenant hconsume =>
      refine approval_save hfound (ApprovalRequest.revises_of_consume hconsume) (.inr ?_) hx
      obtain ⟨happroved, -, -, -, -, -, -, hval⟩ := ApprovalRequest.consume_eq_ok.1 hconsume
      rw [hval, happroved]
      trivial

/-- An approval enters the ledger undecided. -/
theorem pending_of_new (hstep : LedgerStep s s') {id : Id} {x : ApprovalRequest}
    (hnew : s.approvals.find? id = none) (hx : s'.approvals.find? id = some x) :
    x.val.status = .pending := by
  have hsaved : ∀ {b : ApprovalRequest}, (s.saveApproval b).approvals.find? id ≠ some x := by
    intro b h
    have hnone : (s.saveApproval b).approvals.find? id = none := Table.find?_modify_none hnew
    rw [hnone] at h
    cases h
  cases hstep with
  | idle | startAttempt | finishAttempt | finish | audit =>
    rw [show s.approvals.find? id = some x from hx] at hnew
    cases hnew
  | @request a event hstatus hfree =>
    rcases (Table.mem_insert hfree).1 (Table.mem_of_find? hx) with h | rfl
    · exact absurd (Table.key_of_find? hx) (Table.find?_eq_none.1 hnew x h)
    · exact hstatus
  | decide => exact absurd hx hsaved
  | expire => exact absurd hx hsaved
  | consume => exact absurd hx hsaved
  | @plan s₁ e event id' hconsumed =>
    cases hconsumed with
    | nothing =>
      rw [show s.approvals.find? id = some x from hx] at hnew
      cases hnew
    | approval => exact absurd hx hsaved

/-! ### Over any number of steps -/

/-- What every step preserves, any number of steps preserves. -/
theorem preserves (P : Ledger → Prop) (h : ∀ s s', LedgerStep s s' → P s → P s')
    (hsteps : Relation.ReflTransGen LedgerStep s s') (hP : P s) : P s' := by
  induction hsteps with
  | refl => exact hP
  | tail _ hstep ih => exact h _ _ hstep ih

/-- An execution that ended stays as it is. -/
theorem ended_execution (hsteps : Relation.ReflTransGen LedgerStep s s') {id : Id}
    {e : ToolExecution} (he : s.executions.find? id = some e) (hended : e.val.status ≠ .running) :
    s'.executions.find? id = some e := by
  refine preserves (·.executions.find? id = some e) (fun s₁ s₂ hstep h₁ => ?_) hsteps he
  obtain ⟨e', h₂, -, hsame⟩ := hstep.execution h₁
  rw [h₂, hsame hended]

/-- An attempt that ended stays as it is. -/
theorem ended_attempt (hsteps : Relation.ReflTransGen LedgerStep s s') {id : Id}
    {a : ExecutionAttempt} (ha : s.attempts.find? id = some a) (hended : a.val.status ≠ .running) :
    s'.attempts.find? id = some a := by
  refine preserves (·.attempts.find? id = some a) (fun s₁ s₂ hstep h₁ => ?_) hsteps ha
  obtain ⟨a', h₂, hsame⟩ := hstep.attempt h₁
  rw [h₂, hsame hended]

/-- An approval in a status that allows no move stays as it is. -/
theorem closed_approval (hsteps : Relation.ReflTransGen LedgerStep s s') {id : Id}
    {a : ApprovalRequest} (ha : s.approvals.find? id = some a)
    (hclosed : ∀ status, ¬ a.val.status.CanBecome status) : s'.approvals.find? id = some a := by
  refine preserves (·.approvals.find? id = some a) (fun s₁ s₂ hstep h₁ => ?_) hsteps ha
  obtain ⟨b, h₂, hmove⟩ := hstep.approval h₁
  rcases hmove with rfl | hmove
  · exact h₂
  · exact absurd hmove (hclosed _)

/-- An execution is only ever revised. -/
theorem revised_execution (hsteps : Relation.ReflTransGen LedgerStep s s') {id : Id}
    {e : ToolExecution} (he : s.executions.find? id = some e) :
    ∃ e', s'.executions.find? id = some e' ∧ e'.Revises e := by
  refine preserves (fun s => ∃ e', s.executions.find? id = some e' ∧ e'.Revises e)
    (fun s₁ s₂ hstep h₁ => ?_) hsteps ⟨e, he, .refl e⟩
  obtain ⟨e₁, h₁, hrevises⟩ := h₁
  obtain ⟨e₂, h₂, hrevises₂, -⟩ := hstep.execution h₁
  exact ⟨e₂, h₂, hrevises.trans hrevises₂⟩

/-- A saved approval revises its own row, and the others stay. -/
theorem approval_revised {a b x : ApprovalRequest} (hfound : s.approvals.find? a.val.id = some a)
    (hrevises : b.Revises a) (hx : s.approvals.find? x.val.id = some x) :
    ∃ y, (s.saveApproval b).approvals.find? x.val.id = some y ∧ y.Revises x := by
  by_cases hid : x.val.id = a.val.id
  · rw [hid] at hx ⊢
    obtain rfl : a = x := Option.some.inj (hfound.symm.trans hx)
    exact ⟨b, Ledger.find?_saveApproval_self hfound hrevises, hrevises⟩
  · exact ⟨x, (Ledger.find?_saveApproval_ne (hrevises.id_eq ▸ hid)).trans hx, .refl x⟩

/-- An approval is only ever revised. -/
theorem revised_approval (hsteps : Relation.ReflTransGen LedgerStep s s') {id : Id}
    {a : ApprovalRequest} (ha : s.approvals.find? id = some a) :
    ∃ b, s'.approvals.find? id = some b ∧ b.Revises a := by
  refine preserves (fun s => ∃ b, s.approvals.find? id = some b ∧ b.Revises a)
    (fun s₁ s₂ hstep h₁ => ?_) hsteps ⟨a, ha, .refl a⟩
  obtain ⟨x, hx, hrevises⟩ := h₁
  suffices ∃ y, s₂.approvals.find? id = some y ∧ y.Revises x from
    this.imp fun y hy => ⟨hy.1, hrevises.trans hy.2⟩
  obtain rfl := Table.key_of_find? hx
  cases hstep with
  | idle | startAttempt | finishAttempt | finish | audit => exact ⟨x, hx, .refl x⟩
  | @request b event hstatus hfree =>
    refine ⟨x, (Ledger.find?_addApproval_ne fun h => ?_).trans hx, .refl x⟩
    rw [h, hx] at hfree
    cases hfree
  | decide hfound hdecide =>
    exact approval_revised hfound (ApprovalRequest.revises_of_decide hdecide) hx
  | expire hfound hexpire =>
    exact approval_revised hfound (ApprovalRequest.revises_of_expire hexpire) hx
  | consume hfound hconsume =>
    exact approval_revised hfound (ApprovalRequest.revises_of_consume hconsume) hx
  | plan hconsumed =>
    cases hconsumed with
    | nothing => exact ⟨x, hx, .refl x⟩
    | approval _ hfound _ hconsume =>
      exact approval_revised hfound (ApprovalRequest.revises_of_consume hconsume) hx

/-- A key that is taken stays taken. -/
theorem claimed_of_steps (hsteps : Relation.ReflTransGen LedgerStep s s')
    {scope : IdempotencyScope} (h : s.claimedBy? scope ≠ none) : s'.claimedBy? scope ≠ none := by
  obtain ⟨e, he⟩ := Option.ne_none_iff_exists'.1 h
  have hscope : e.val.idempotencyScope = some scope := by simpa using List.find?_some he
  obtain ⟨e', hfound, hrevises⟩ :=
    revised_execution hsteps (Table.find?_of_mem (List.mem_of_find?_eq_some he))
  intro hnone
  refine List.find?_eq_none.1 hnone e' (Table.mem_of_find? hfound) ?_
  simpa [hrevises.scope_eq] using hscope

end LedgerStep

end NexusMcp
