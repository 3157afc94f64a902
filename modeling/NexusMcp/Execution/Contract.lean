-- SUMMARY: Every transaction of the ledger keeps the ledger's contract under arbitrary interference.
import NexusMcp.Execution.Ledger

/-!
# The Ledger Contract

The row locks of the source, put to use: a row that a transaction holds is not
touched by the others, so what it read under the lock is still so when it commits.
From this each operation is shown to commit nothing but a `LedgerStep`.
-/

namespace NexusMcp

open Txn ExecutionLifecycle

/-! ## Untouched rows -/

/-- A row counts as untouched when looking it up gives the same; an entry of a unique
    index, when it is taken or free as before. -/
def sameRow : LedgerRow → Ledger → Ledger → Prop
  | .approval id, s, s' => s.approvals.find? id = s'.approvals.find? id
  | .execution id, s, s' => s.executions.find? id = s'.executions.find? id
  | .attempt id, s, s' => s.attempts.find? id = s'.attempts.find? id
  | .audit id, s, s' => s.audits.find? id = s'.audits.find? id
  | .idempotency scope, s, s' => (s.claimedBy? scope).isSome = (s'.claimedBy? scope).isSome
  | .attemptNumber id n, s, s' => (s.numbered? id n).isSome = (s'.numbered? id n).isSome

theorem sameRow_refl (row : LedgerRow) (s : Ledger) : sameRow row s s := by
  cases row <;> rfl

theorem sameRow_trans (row : LedgerRow) (s₁ s₂ s₃ : Ledger) (h : sameRow row s₁ s₂)
    (h' : sameRow row s₂ s₃) : sameRow row s₁ s₃ := by
  cases row <;> exact Eq.trans h h'

section Frames

variable {row : LedgerRow} (s : Ledger)

theorem sameRow_addApproval {a : ApprovalRequest} (h : row ≠ .approval a.val.id) :
    sameRow row s (s.addApproval a) := by
  cases row with
  | approval id => exact (Ledger.find?_addApproval_ne (fun hid => h (by rw [hid]))).symm
  | execution | attempt | audit | idempotency | attemptNumber => rfl

theorem sameRow_saveApproval {a : ApprovalRequest} (h : row ≠ .approval a.val.id) :
    sameRow row s (s.saveApproval a) := by
  cases row with
  | approval id => exact (Ledger.find?_saveApproval_ne (fun hid => h (by rw [hid]))).symm
  | execution | attempt | audit | idempotency | attemptNumber => rfl

theorem sameRow_addExecution {e : ToolExecution} (h : row ≠ .execution e.val.id)
    (hscope : ∀ scope, e.val.idempotencyScope = some scope → row ≠ .idempotency scope) :
    sameRow row s (s.addExecution e) := by
  cases row with
  | execution id => exact (Ledger.find?_addExecution_ne (fun hid => h (by rw [hid]))).symm
  | idempotency scope =>
    have hne : e.val.idempotencyScope ≠ some scope := fun hs => hscope scope hs rfl
    unfold sameRow Ledger.claimedBy? Ledger.addExecution
    by_cases hfree : s.executions.find? e.val.id = none
    · simp only [Table.rows_insert hfree, List.find?_append]
      simp [hne]
    · simp only [Table.insert_of_taken hfree]
  | approval | attempt | audit | attemptNumber => rfl

theorem sameRow_saveExecution {e : ToolExecution} (h : row ≠ .execution e.val.id) :
    sameRow row s (s.saveExecution e) := by
  cases row with
  | execution id => exact (Ledger.find?_saveExecution_ne (fun hid => h (by rw [hid]))).symm
  | idempotency scope =>
    have htaken : ((s.saveExecution e).claimedBy? scope).isSome = (s.claimedBy? scope).isSome :=
      Table.isSome_find?_modify fun _ => rfl
    exact htaken.symm
  | approval | attempt | audit | attemptNumber => rfl

theorem sameRow_addAttempt {a : ExecutionAttempt} (h : row ≠ .attempt a.val.id)
    (hnumber : row ≠ .attemptNumber a.val.executionId a.val.attemptNumber) :
    sameRow row s (s.addAttempt a) := by
  cases row with
  | attempt id => exact (Ledger.find?_addAttempt_ne (fun hid => h (by rw [hid]))).symm
  | attemptNumber id n =>
    have hne : ¬ (a.val.executionId = id ∧ a.val.attemptNumber = n) := fun hs =>
      hnumber (by rw [hs.1, hs.2])
    unfold sameRow Ledger.numbered? Ledger.addAttempt
    by_cases hfree : s.attempts.find? a.val.id = none
    · simp only [Table.rows_insert hfree, List.find?_append]
      simp [hne]
    · simp only [Table.insert_of_taken hfree]
  | approval | execution | audit | idempotency => rfl

theorem sameRow_saveAttempt {a : ExecutionAttempt} (h : row ≠ .attempt a.val.id) :
    sameRow row s (s.saveAttempt a) := by
  cases row with
  | attempt id => exact (Ledger.find?_saveAttempt_ne (fun hid => h (by rw [hid]))).symm
  | attemptNumber id n =>
    have htaken : ((s.saveAttempt a).numbered? id n).isSome = (s.numbered? id n).isSome :=
      Table.isSome_find?_modify fun _ => rfl
    exact htaken.symm
  | approval | execution | audit | idempotency => rfl

theorem sameRow_appendAudit {event : AuditEvent} (h : row ≠ .audit event.val.id) :
    sameRow row s (s.appendAudit event) := by
  cases row with
  | audit id => exact (Ledger.find?_appendAudit_ne (fun hid => h (by rw [hid]))).symm
  | approval | execution | attempt | idempotency | attemptNumber => rfl

end Frames

/-! ## The contract -/

/-- An upstream call is made for an execution in the ledger, under its own key. -/
def CallRecorded (request : ExecutorRequest) (s : Ledger) : Prop :=
  ∃ e, s.executions.find? request.val.executionId = some e ∧
    e.val.toolVersionId = request.val.tool.toolVersionId ∧
    e.val.idempotencyKey = request.val.idempotencyKey

def ledgerContract : Contract Gateway where
  inv := LedgerInv
  step := LedgerStep
  same := sameRow
  permit
    | .executeTool request _, s => CallRecorded request s
    | _, _ => True
  same_refl := sameRow_refl
  same_trans := sameRow_trans

/-! ## Rules for the repositories

Each rule consumes one call of a repository. Its facts hold of the store the call
leaves, and stay true while the rows it locked are held. -/

open Contract

section Repositories

variable {Fault : Exc → Prop} {α : Type} {l : Local Gateway} {s : Ledger}
  {Q : Except Exc α → Local Gateway → Ledger → Prop} {u : UnitOfWork} {tenantId : Id}

theorem step_now {k : Time → Program α}
    (hok : ∀ s', ledgerContract.Rely l.held s s' → ∀ t,
      ledgerContract.safe Fault Q (k t) (l.asked .now t) s') :
    ledgerContract.safe Fault Q (now.bind k) l s :=
  fun s' hs => ⟨trivial, hok s' hs⟩

theorem step_newId {k : Id → Program α}
    (hok : ∀ s', ledgerContract.Rely l.held s s' → ∀ id,
      ledgerContract.safe Fault Q (k id) (l.asked .newId id) s') :
    ledgerContract.safe Fault Q (newId.bind k) l s :=
  fun s' hs => ⟨trivial, hok s' hs⟩

theorem step_getApproval {approvalId : Id} {k : Option ApprovalRequest → Program α}
    (hcut : Absorbs Fault Q l) (hpending : ∀ x, (l.pending x).approvals = x.approvals)
    (hok : ∀ l' s', ledgerContract.Rely l.held s s' →
      l.Into l' l.pending (.approval approvalId :: l.held) → l.QuietAt l' s' →
      ledgerContract.safe Fault Q (k (s'.approval? tenantId approvalId)) l' s') :
    ledgerContract.safe Fault Q ((Approvals.getForUpdate u tenantId approvalId).bind k) l s := by
  unfold Approvals.getForUpdate
  simp only [Prog.bind_eq, Prog.bind_assoc]
  refine step_lock hcut fun s' hs => ?_
  have hview : (l.pending s').approval? tenantId approvalId = s'.approval? tenantId approvalId := by
    rw [Ledger.approval?, Ledger.approval?, hpending]
  rw [hview]
  exact hok _ s' hs ⟨rfl, rfl, Local.quiet_did l u _ s' (by simp)⟩
    (Local.quietAt_did l u _ s' (by simp))

theorem step_getExecution {executionId : Id} {k : Option ToolExecution → Program α}
    (hcut : Absorbs Fault Q l) (hpending : ∀ x, (l.pending x).executions = x.executions)
    (hok : ∀ l' s', ledgerContract.Rely l.held s s' →
      l.Into l' l.pending (.execution executionId :: l.held) →
      ledgerContract.safe Fault Q (k (s'.execution? tenantId executionId)) l' s') :
    ledgerContract.safe Fault Q ((Executions.getForUpdate u tenantId executionId).bind k) l s := by
  unfold Executions.getForUpdate
  simp only [Prog.bind_eq, Prog.bind_assoc]
  refine step_lock hcut fun s' hs => ?_
  have hview : (l.pending s').execution? tenantId executionId = s'.execution? tenantId executionId := by
    rw [Ledger.execution?, Ledger.execution?, hpending]
  rw [hview]
  exact hok _ s' hs ⟨rfl, rfl, Local.quiet_did l u _ s' (by simp)⟩

theorem step_getAttempt {attemptId : Id} {k : Option ExecutionAttempt → Program α}
    (hcut : Absorbs Fault Q l) (hpending : ∀ x, (l.pending x).attempts = x.attempts)
    (hok : ∀ l' s', ledgerContract.Rely l.held s s' →
      l.Into l' l.pending (.attempt attemptId :: l.held) →
      ledgerContract.safe Fault Q (k (s'.attempt? tenantId attemptId)) l' s') :
    ledgerContract.safe Fault Q ((Attempts.getForUpdate u tenantId attemptId).bind k) l s := by
  unfold Attempts.getForUpdate
  simp only [Prog.bind_eq, Prog.bind_assoc]
  refine step_lock hcut fun s' hs => ?_
  have hview : (l.pending s').attempt? tenantId attemptId = s'.attempt? tenantId attemptId := by
    rw [Ledger.attempt?, Ledger.attempt?, hpending]
  rw [hview]
  exact hok _ s' hs ⟨rfl, rfl, Local.quiet_did l u _ s' (by simp)⟩

/-- Claiming a key: it is free, and held from here on. -/
theorem step_claimKey {row : LedgerRow} {taken : Ledger → Bool} {e : Exc} {k : Unit → Program α}
    (hcut : Absorbs Fault Q l)
    (htaken : ∀ l' s', l.QuietAt l' s' → taken (l.pending s') = true → Q (.error e) l' s')
    (hok : ∀ l' s', ledgerContract.Rely l.held s s' → l.Into l' l.pending (row :: l.held) →
      taken (l.pending s') = false → ledgerContract.safe Fault Q (k ()) l' s') :
    ledgerContract.safe Fault Q ((claimKey u row taken e).bind k) l s := by
  unfold claimKey
  simp only [Prog.bind_eq, Prog.bind_assoc]
  refine step_lock hcut fun s₁ h₁ => ?_
  have hq := Local.quietAt_did l u (.lock row) s₁ (by simp)
  exact step_raiseIf (htaken _ s₁ hq)
    (fun hfree => hok _ s₁ h₁ ⟨rfl, rfl, hq.quiet⟩ (Bool.eq_false_iff.2 hfree))

/-- Saving a row that loads. -/
theorem step_saveRow {ownTenantId : Id} {crossed missing : String} {loads : Ledger → Bool}
    {update : Ledger → Ledger} {k : Unit → Program α} (hcut : Absorbs Fault Q l)
    (htenant : ownTenantId = tenantId)
    (hloads : ∀ s', ledgerContract.Rely l.held s s' → loads (l.pending s') = true)
    (hok : ∀ l' s', ledgerContract.Rely l.held s s' →
      l.Into l' (fun x => update (l.pending x)) l.held →
      ledgerContract.safe Fault Q (k ()) l' s') :
    ledgerContract.safe Fault Q
      ((saveRow u tenantId ownTenantId crossed loads missing update).bind k) l s := by
  unfold saveRow requireTenant
  simp only [Prog.bind_eq, Prog.bind_assoc]
  refine step_raiseIf (fun h => absurd htenant h) fun _ => ?_
  refine step_select hcut fun s₁ h₁ => ?_
  have hq₁ := Local.quiet_did l u .select s₁ (by simp)
  refine step_raiseIf (fun h => by simp [hloads s₁ h₁] at h) fun _ => ?_
  refine step_write (hcut.of_quiet hq₁) fun s₂ h₂ => ?_
  exact hok _ s₂ (h₁.trans h₂) ⟨rfl, rfl, hq₁.trans (Local.quiet_did _ u _ s₂ (by simp))⟩

/-- Saving an approval that is held and was not changed yet. -/
theorem step_saveApproval {a b : ApprovalRequest} {k : Unit → Program α}
    (hcut : Absorbs Fault Q l) (hpending : ∀ x, (l.pending x).approvals = x.approvals)
    (hheld : LedgerRow.approval a.val.id ∈ l.held)
    (hfound : s.approvals.find? a.val.id = some a) (htenant : a.val.tenantId = tenantId)
    (hrevises : b.Revises a)
    (hok : ∀ l' s', ledgerContract.Rely l.held s s' →
      l.Into l' (fun x => (l.pending x).saveApproval b) l.held →
      ledgerContract.safe Fault Q (k ()) l' s') :
    ledgerContract.safe Fault Q ((Approvals.save u tenantId b).bind k) l s := by
  refine step_saveRow hcut ((congrArg (·.val.tenantId) hrevises.symm).trans htenant)
    (fun s' hs => ?_) hok
  have hrow : s'.approvals.find? a.val.id = some a := (hs.same _ hheld) ▸ hfound
  rw [Ledger.approval?, hpending, hrevises.id_eq, hrow]
  simp [htenant]

theorem step_saveExecution {e e' : ToolExecution} {k : Unit → Program α}
    (hcut : Absorbs Fault Q l) (hpending : ∀ x, (l.pending x).executions = x.executions)
    (hheld : LedgerRow.execution e.val.id ∈ l.held)
    (hfound : s.executions.find? e.val.id = some e) (htenant : e.val.tenantId = tenantId)
    (hrevises : e'.Revises e)
    (hok : ∀ l' s', ledgerContract.Rely l.held s s' →
      l.Into l' (fun x => (l.pending x).saveExecution e') l.held →
      ledgerContract.safe Fault Q (k ()) l' s') :
    ledgerContract.safe Fault Q ((Executions.save u tenantId e').bind k) l s := by
  refine step_saveRow hcut ((congrArg (·.val.tenantId) hrevises.symm).trans htenant)
    (fun s' hs => ?_) hok
  have hrow : s'.executions.find? e.val.id = some e := (hs.same _ hheld) ▸ hfound
  rw [Ledger.execution?, hpending, hrevises.id_eq, hrow]
  simp [htenant]

theorem step_saveAttempt {a a' : ExecutionAttempt} {k : Unit → Program α}
    (hcut : Absorbs Fault Q l) (hpending : ∀ x, (l.pending x).attempts = x.attempts)
    (hheld : LedgerRow.attempt a.val.id ∈ l.held)
    (hfound : s.attempts.find? a.val.id = some a) (htenant : a.val.tenantId = tenantId)
    (hrevises : a'.Revises a)
    (hok : ∀ l' s', ledgerContract.Rely l.held s s' →
      l.Into l' (fun x => (l.pending x).saveAttempt a') l.held →
      ledgerContract.safe Fault Q (k ()) l' s') :
    ledgerContract.safe Fault Q ((Attempts.save u tenantId a').bind k) l s := by
  refine step_saveRow hcut ((congrArg (·.val.tenantId) hrevises.symm).trans htenant)
    (fun s' hs => ?_) hok
  have hrow : s'.attempts.find? a.val.id = some a := (hs.same _ hheld) ▸ hfound
  rw [Ledger.attempt?, hpending, hrevises.id_eq, hrow]
  simp [htenant]

/-- Adding an approval: its identifier is free and stays free until the commit. -/
theorem step_addApproval {a : ApprovalRequest} {k : Unit → Program α} (hcut : Absorbs Fault Q l)
    (hpending : ∀ x, (l.pending x).approvals = x.approvals) (htenant : a.val.tenantId = tenantId)
    (htaken : ∀ l' s', l.Quiet l' → Q (.error (.integrityError "pk_approval_request")) l' s')
    (hok : ∀ l' s', ledgerContract.Rely l.held s s' →
      l.Into l' (fun x => (l.pending x).addApproval a) (.approval a.val.id :: l.held) →
      s'.approvals.find? a.val.id = none → ledgerContract.safe Fault Q (k ()) l' s') :
    ledgerContract.safe Fault Q ((Approvals.add u tenantId a).bind k) l s := by
  unfold Approvals.add requireTenant
  simp only [Prog.bind_eq, Prog.bind_assoc]
  refine step_raiseIf (fun h => absurd htenant h) fun _ => ?_
  refine step_claimKey hcut (fun l' s' hq _ => htaken l' s' hq.quiet) fun l₁ s₁ h₁ into₁ hfree => ?_
  refine step_write (hcut.of_quiet into₁.quiet) fun s₂ h₂ => ?_
  rw [into₁.held] at h₂
  refine hok _ s₂ (h₁.trans (h₂.weaken fun row hr => List.mem_cons_of_mem _ hr))
    ⟨by rw [← into₁.pending]; rfl, into₁.held,
      into₁.quiet.trans (Local.quiet_did _ u _ s₂ (by simp))⟩ ?_
  rw [hpending, Option.isSome_eq_false_iff, Option.isNone_iff_eq_none] at hfree
  exact (h₂.same _ List.mem_cons_self) ▸ hfree

/-- Appending an audit: its identifier is free and stays free until the commit. -/
theorem step_appendAudit {event : AuditEvent} {k : Unit → Program α} (hcut : Absorbs Fault Q l)
    (hpending : ∀ x, (l.pending x).audits = x.audits)
    (htaken : ∀ l' s', l.QuietAt l' s' → s'.audits.find? event.val.id ≠ none →
      Q (.error (.integrityError "pk_audit_event")) l' s')
    (hok : ∀ l' s', ledgerContract.Rely l.held s s' →
      l.Into l' (fun x => (l.pending x).appendAudit event) (.audit event.val.id :: l.held) →
      s'.audits.find? event.val.id = none → ledgerContract.safe Fault Q (k ()) l' s') :
    ledgerContract.safe Fault Q ((Audits.append u event).bind k) l s := by
  unfold Audits.append
  simp only [Prog.bind_eq, Prog.bind_assoc]
  refine step_claimKey hcut (fun l' s' hq hsome => htaken l' s' hq ?_)
    fun l₁ s₁ h₁ into₁ hfree => ?_
  · rw [hpending] at hsome
    exact Option.isSome_iff_ne_none.1 hsome
  refine step_write (hcut.of_quiet into₁.quiet) fun s₂ h₂ => ?_
  rw [into₁.held] at h₂
  refine hok _ s₂ (h₁.trans (h₂.weaken fun row hr => List.mem_cons_of_mem _ hr))
    ⟨by rw [← into₁.pending]; rfl, into₁.held,
      into₁.quiet.trans (Local.quiet_did _ u _ s₂ (by simp))⟩ ?_
  rw [hpending, Option.isSome_eq_false_iff, Option.isNone_iff_eq_none] at hfree
  exact (h₂.same _ List.mem_cons_self) ▸ hfree

/-- Adding an attempt under a free identifier and a free number. -/
theorem step_addAttempt {a : ExecutionAttempt} {k : Unit → Program α} (hcut : Absorbs Fault Q l)
    (hpending : ∀ x, (l.pending x).attempts = x.attempts) (htenant : a.val.tenantId = tenantId)
    (htaken : ∀ e l' s', l.Quiet l' → (∃ constraint, e = .integrityError constraint) →
      Q (.error e) l' s')
    (hok : ∀ l' s', ledgerContract.Rely l.held s s' →
      l.Into l' (fun x => (l.pending x).addAttempt a)
        (.attemptNumber a.val.executionId a.val.attemptNumber :: .attempt a.val.id :: l.held) →
      s'.attempts.find? a.val.id = none → ledgerContract.safe Fault Q (k ()) l' s') :
    ledgerContract.safe Fault Q ((Attempts.add u tenantId a).bind k) l s := by
  unfold Attempts.add requireTenant
  simp only [Prog.bind_eq, Prog.bind_assoc]
  refine step_raiseIf (fun h => absurd htenant h) fun _ => ?_
  refine step_claimKey hcut (fun l' s' hq _ => htaken _ l' s' hq.quiet ⟨_, rfl⟩)
    fun l₁ s₁ h₁ into₁ hfree => ?_
  refine step_claimKey (hcut.of_quiet into₁.quiet)
    (fun l' s' hq _ => htaken _ l' s' (into₁.quiet.trans hq.quiet) ⟨_, rfl⟩)
    fun l₂ s₂ h₂ into₂ _ => ?_
  refine step_write (hcut.of_quiet (into₁.quiet.trans into₂.quiet)) fun s₃ h₃ => ?_
  rw [into₂.held, into₁.held] at h₃
  rw [into₁.held] at h₂
  have h₂₃ := h₂.trans (h₃.weaken fun row hr => List.mem_cons_of_mem _ hr)
  refine hok _ s₃ (h₁.trans (h₂₃.weaken fun row hr => List.mem_cons_of_mem _ hr))
    ⟨by rw [← into₁.pending, ← into₂.pending]; rfl, by rw [← into₁.held, ← into₂.held]; rfl,
      (into₁.quiet.trans into₂.quiet).trans (Local.quiet_did _ u _ s₃ (by simp))⟩ ?_
  rw [hpending, Option.isSome_eq_false_iff, Option.isNone_iff_eq_none] at hfree
  exact (h₂₃.same _ List.mem_cons_self) ▸ hfree

/-- The rows an `INSERT` of an execution locks. -/
def executionKeys (e : ToolExecutionFields) : List LedgerRow :=
  (e.idempotencyScope.map LedgerRow.idempotency).toList ++ [.execution e.id]

theorem mem_executionKeys {e : ToolExecutionFields} {row : LedgerRow} :
    row ∈ executionKeys e ↔
      (∃ scope, e.idempotencyScope = some scope ∧ .idempotency scope = row) ∨
        row = .execution e.id := by
  simp [executionKeys]

/-- Claiming the entry of the unique index, if there is one. -/
theorem step_claimScope {scope? : Option IdempotencyScope} {k : Unit → Program α}
    (hcut : Absorbs Fault Q l) (hpending : ∀ x, (l.pending x).executions = x.executions)
    (hrace : ∀ l' s' scope, l.QuietAt l' s' → scope? = some scope → s'.claimedBy? scope ≠ none →
      Q (.error (.nexus .idempotencyRace "concurrent idempotency claim lost")) l' s')
    (hok : ∀ l' s', ledgerContract.Rely l.held s s' →
      l.Into l' l.pending ((scope?.map LedgerRow.idempotency).toList ++ l.held) →
      (∀ scope, scope? = some scope → s'.claimedBy? scope = none) →
      ledgerContract.safe Fault Q (k ()) l' s') (hinv : ledgerContract.inv s) :
    ledgerContract.safe Fault Q ((Executions.claimScope u scope?).bind k) l s := by
  cases scope? with
  | none => exact hok l s (.refl hinv) ⟨rfl, rfl, .refl l⟩ (fun _ h => by cases h)
  | some scope =>
    have hclaimed : ∀ x, ((l.pending x).claimedBy? scope) = x.claimedBy? scope := by
      intro x
      unfold Ledger.claimedBy?
      rw [hpending]
    refine step_claimKey hcut (fun l' s' hq hsome => hrace l' s' scope hq rfl ?_)
      fun l' s' hs into hfree => ?_
    · rw [hclaimed] at hsome
      exact Option.isSome_iff_ne_none.1 hsome
    refine hok l' s' hs into fun scope' h => ?_
    cases h
    rwa [hclaimed, Option.isSome_eq_false_iff, Option.isNone_iff_eq_none] at hfree

/-- Adding an execution: its identifier and its key are free and stay free until the
    commit. -/
theorem step_addExecution {e : ToolExecution} {k : Unit → Program α} (hcut : Absorbs Fault Q l)
    (hpending : ∀ x, (l.pending x).executions = x.executions)
    (htenant : e.val.tenantId = tenantId)
    (htaken : ∀ l' s', l.QuietAt l' s' → s'.executions.find? e.val.id ≠ none →
      Q (.error (.integrityError "pk_tool_execution")) l' s')
    (hrace : ∀ l' s' scope, l.QuietAt l' s' → e.val.idempotencyScope = some scope →
      s'.claimedBy? scope ≠ none →
      Q (.error (.nexus .idempotencyRace "concurrent idempotency claim lost")) l' s')
    (hok : ∀ l' s', ledgerContract.Rely l.held s s' →
      l.Into l' (fun x => (l.pending x).addExecution e) (executionKeys e.val ++ l.held) →
      s'.executions.find? e.val.id = none →
      (∀ scope, e.val.idempotencyScope = some scope → s'.claimedBy? scope = none) →
      ledgerContract.safe Fault Q (k ()) l' s') :
    ledgerContract.safe Fault Q ((Executions.add u tenantId e).bind k) l s := by
  unfold Executions.add requireTenant
  simp only [Prog.bind_eq, Prog.bind_assoc]
  refine step_raiseIf (fun h => absurd htenant h) fun _ => ?_
  -- First the identifier is claimed, then the scope, and both are held when the row is written.
  refine step_claimKey hcut (fun l' s' hq hsome => htaken l' s' hq ?_)
    fun l₁ s₁ h₁ into₁ hfree => ?_
  · rw [hpending] at hsome
    exact Option.isSome_iff_ne_none.1 hsome
  rw [hpending, Option.isSome_eq_false_iff, Option.isNone_iff_eq_none] at hfree
  refine step_claimScope (hcut.of_quiet into₁.quiet) (by rw [into₁.pending]; exact hpending)
    (fun l' s' scope hq => hrace l' s' scope (into₁.quiet.transAt hq)) (fun l₂ s₂ h₂ into₂ hunclaimed => ?_)
    h₁.inv
  rw [into₁.held] at h₂
  refine step_write (hcut.of_quiet (into₁.quiet.trans into₂.quiet)) fun s₃ h₃ => ?_
  rw [into₂.held, into₁.held] at h₃
  have h₂₃ := h₂.trans (h₃.weaken fun row hr => List.mem_append_right _ hr)
  refine hok _ s₃ (h₁.trans (h₂₃.weaken fun row hr => List.mem_cons_of_mem _ hr))
    ⟨by rw [← into₁.pending, ← into₂.pending]; rfl, ?_,
      (into₁.quiet.trans into₂.quiet).trans (Local.quiet_did _ u _ s₃ (by simp))⟩ ?_ ?_
  · rw [executionKeys, List.append_assoc, List.singleton_append, ← into₁.held, ← into₂.held]
    rfl
  · exact (h₂₃.same _ List.mem_cons_self) ▸ hfree
  · intro scope hscope
    have hmem : LedgerRow.idempotency scope ∈
        (e.val.idempotencyScope.map LedgerRow.idempotency).toList ++
          LedgerRow.execution e.val.id :: l.held := by
      simp [hscope]
    have hsame : (s₂.claimedBy? scope).isSome = (s₃.claimedBy? scope).isSome := h₃.same _ hmem
    rw [hunclaimed scope hscope] at hsame
    exact Option.not_isSome_iff_eq_none.1 (by rw [← hsame]; simp)

end Repositories

end NexusMcp
