-- SUMMARY: Each operation of the gateway, shown to keep the ledger's contract.
import NexusMcp.Execution.Contract

/-!
# Transactions of the Ledger

One theorem for each operation: run against arbitrary interference, and interrupted
anywhere, it commits nothing but `LedgerStep`s, and ends with its session closed.
-/

namespace NexusMcp

open Txn ExecutionLifecycle Contract

/-- No session is open. -/
def Clean (l : Local Gateway) : Prop := l.pending = id ∧ l.held = []

section Rules

variable {Fault : Exc → Prop} {α : Type} {l : Local Gateway} {s : Ledger}

theorem clean_start : Clean (Local.start : Local Gateway) := ⟨rfl, rfl⟩

/-- What may interrupt a transaction from outside: no error of the application. -/
def Interruption (e : Exc) : Prop := ∀ cls message, e ≠ .nexus cls message

theorem absorbs_true : Absorbs Fault (fun (_ : Except Exc α) _ _ => True) l :=
  fun _ _ _ _ _ _ _ => trivial

/-- A unit of work whose body keeps the contract leaves no session open. -/
theorem safe_uow_clean {u : UnitOfWork} {body : Program α}
    (h : ledgerContract.safe Fault (fun _ _ _ => True) body l s) :
    ledgerContract.safe Fault (fun _ l' _ => Clean l') (Prog.uow u body) l s :=
  safe_uow.2 (safe_mono (fun _ _ _ _ _ _ => ⟨fun _ _ => ⟨rfl, rfl⟩, rfl, rfl⟩) h)

theorem guarantee {held : List LedgerRow} {s' : Ledger} (hinv : LedgerInv s)
    (hstep : LedgerStep s s') (hsame : ∀ row, row ∉ held → sameRow row s s') :
    ledgerContract.Guarantee held s s' :=
  ⟨hinv.step hstep, hstep, hsame⟩

/-- What a program returns is so in the ledger. -/
def Returned (K : α → Ledger → Prop) (r : Except Exc α) (s : Ledger) : Prop :=
  ∀ a, r = .ok a → K a s

theorem returned_error {K : α → Ledger → Prop} (e : Exc) : Returned K (.error e) s :=
  fun _ h => by cases h

theorem absorbs_returned {K : α → Ledger → Prop} :
    Absorbs Fault (fun r _ s => Returned K r s) l :=
  fun _ _ _ _ e _ _ => returned_error e

/-- A unit of work returns what its body does, if later steps of the ledger leave it so. -/
theorem safe_uow_returned {K : α → Ledger → Prop} {u : UnitOfWork} {body : Program α}
    (hK : ∀ a s s', K a s → Relation.ReflTransGen LedgerStep s s' → K a s')
    (h : ledgerContract.safe Fault (fun r _ s => Returned K r s) body l s) :
    ledgerContract.safe Fault (fun r l' s' => Clean l' ∧ Returned K r s') (Prog.uow u body) l s :=
  safe_uow.2 (safe_mono (fun _ _ s₁ hpost s₂ hs => ⟨fun e _ => ⟨⟨rfl, rfl⟩, returned_error e⟩,
    ⟨rfl, rfl⟩, fun a ha => hK a s₁ s₂ (hpost a ha) hs.steps⟩) h)

/-- The last step of a transaction, and what it returns. -/
theorem step_commit_returned {K : α → Ledger → Prop} {u : UnitOfWork} {a : α}
    (hguar : ∀ s', ledgerContract.Rely l.held s s' →
      ledgerContract.Guarantee l.held s' (l.pending s') ∧ K a (l.pending s')) :
    ledgerContract.safe Fault (fun r _ s => Returned K r s)
      ((Prog.commit u).bind fun _ => .ret a) l s :=
  step_commit absorbs_returned (fun s' hs => (hguar s' hs).1) fun s' hs b hb => by
    cases hb
    exact (hguar s' hs).2

/-- The last step of a transaction. -/
theorem step_commit_return {u : UnitOfWork} {a : α} (hguar : ∀ s', ledgerContract.Rely l.held s s' →
      ledgerContract.Guarantee l.held s' (l.pending s')) :
    ledgerContract.safe Fault (fun (_ : Except Exc α) _ _ => True)
      ((Prog.commit u).bind fun _ => .ret a) l s :=
  step_commit absorbs_true hguar fun _ _ => trivial

end Rules

variable {Fault : Exc → Prop} {l : Local Gateway} {s : Ledger}

/-! ## Attempts -/

theorem finishAttempt_safe (hl : Clean l) (tenantId attemptId : Id) (outcome : AttemptOutcome) :
    ledgerContract.safe Fault (fun _ l' _ => Clean l') (finishAttempt tenantId attemptId outcome)
      l s := by
  unfold finishAttempt
  simp only [Prog.bind_eq, Prog.pure_eq]
  refine step_now fun s₁ h₁ t => safe_uow_clean ?_
  obtain ⟨hpending, hheld⟩ : Clean (l.asked .now t) := hl
  refine step_getAttempt absorbs_true (fun x => by rw [hpending]; rfl) fun l₂ s₂ h₂ into₂ => ?_
  refine step_orRaise (fun _ => trivial) fun a ha => ?_
  refine step_raiseIf (fun _ => trivial) fun hrunning => ?_
  refine step_lift (fun _ _ => trivial) fun a' hfinish => ?_
  obtain ⟨hfound, htenant⟩ := Ledger.attempt?_eq_some.1 ha
  obtain rfl := Table.key_of_find? hfound
  have hrevises := ExecutionAttempt.revises_of_finish hfinish
  refine step_saveAttempt absorbs_true (fun x => by rw [into₂.pending, hpending]; rfl)
    (by simp [into₂.held]) hfound htenant hrevises fun l₃ s₃ h₃ into₃ => ?_
  refine step_commit_return fun s₄ h₄ => ?_
  rw [into₃.held, into₂.held, hheld] at h₄ ⊢
  rw [into₂.held] at h₃
  rw [into₃.pending, into₂.pending, hpending]
  have hfound₄ : s₄.attempts.find? a.val.id = some a := by
    rw [← h₄.same (.attempt a.val.id) (by simp), ← h₃.same (.attempt a.val.id) (by simp), hfound]
  refine guarantee h₄.inv (.finishAttempt hfound₄ hfinish) fun row hrow => ?_
  refine sameRow_saveAttempt s₄ fun h => hrow ?_
  rw [h, hrevises.id_eq]
  simp

theorem startAttempt_safe (hl : Clean l) (tenantId executionId : Id) :
    ledgerContract.safe Fault (fun _ l' _ => Clean l') (startAttempt tenantId executionId) l s := by
  unfold startAttempt
  simp only [Prog.bind_eq, Prog.pure_eq]
  refine step_now fun s₁ h₁ t => safe_uow_clean ?_
  have hpending : (l.asked .now t).pending = id := hl.1
  refine step_getExecution absorbs_true (fun x => by rw [hpending]; rfl) fun l₂ s₂ h₂ into₂ => ?_
  refine step_orRaise (fun _ => trivial) fun e he => ?_
  refine step_raiseIf (fun _ => trivial) fun hrunning => ?_
  refine step_lift (fun _ _ => trivial) fun e' hregister => ?_
  obtain ⟨hfound, htenant⟩ := Ledger.execution?_eq_some.1 he
  obtain rfl := Table.key_of_find? hfound
  have hrevises := ToolExecution.revises_of_register hregister
  refine step_newId fun s₃ h₃ id => step_lift (fun _ _ => trivial) fun a ha => ?_
  rw [construct_eq_ok] at ha
  have hfound₃ : s₃.executions.find? e.val.id = some e := by
    rw [← h₃.same (.execution e.val.id) (by simp [into₂.held]), hfound]
  refine step_saveExecution absorbs_true (fun x => by
      rw [Local.asked, into₂.pending, hpending]; rfl)
    (by simp [Local.asked, into₂.held]) hfound₃ htenant hrevises fun l₄ s₄ h₄ into₄ => ?_
  refine step_addAttempt absorbs_true (fun x => by
      rw [into₄.pending, Local.asked, into₂.pending, hpending]; rfl) (by rw [ha])
    (fun _ _ _ _ _ => trivial) fun l₅ s₅ h₅ into₅ hfree => ?_
  refine step_commit_return fun s₆ h₆ => ?_
  simp only [into₅.held, into₄.held, Local.asked, into₂.held] at h₄ h₅ h₆ ⊢
  rw [into₅.pending, into₄.pending, Local.asked, into₂.pending, hpending]
  -- The execution is locked since it was read, so at the commit it is still the one read.
  have hfound₆ : s₆.executions.find? e.val.id = some e := by
    rw [← h₆.same (.execution e.val.id) (by simp), ← h₅.same (.execution e.val.id) (by simp),
      ← h₄.same (.execution e.val.id) (by simp), hfound₃]
  have hfree₆ : s₆.attempts.find? a.val.id = none := by
    rw [← h₆.same (.attempt a.val.id) (by simp), hfree]
  refine guarantee h₆.inv (.startAttempt hfound₆ hregister (by rw [ha]) (by rw [ha]) (by rw [ha])
    hfree₆) fun row hrow => ?_
  simp only [List.mem_cons, not_or] at hrow
  refine sameRow_trans row _ _ _ (sameRow_saveExecution s₆ ?_) (sameRow_addAttempt _ hrow.2.1 hrow.1)
  rw [hrevises.id_eq]
  exact hrow.2.2.1

/-! ## Terminal transitions -/

/-- The execution is in the ledger as the outcome left it. -/
def EndedBy (executionId : Id) (outcome : ExecutionOutcome) (e : ToolExecution) (s : Ledger) :
    Prop :=
  s.executions.find? executionId = some e ∧ ∃ running t, outcome.transition running t = .ok e

theorem EndedBy.steps {executionId : Id} {outcome : ExecutionOutcome} {e : ToolExecution}
    {s s' : Ledger} (h : EndedBy executionId outcome e s)
    (hsteps : Relation.ReflTransGen LedgerStep s s') : EndedBy executionId outcome e s' := by
  obtain ⟨hfound, running, t, htransition⟩ := h
  refine ⟨LedgerStep.ended_execution hsteps hfound fun hrunning => ?_, running, t, htransition⟩
  have hterminal := (ExecutionOutcome.transition_ok htransition).1
  simp [hrunning, ExecutionStatus.Terminal] at hterminal

theorem finish_returns (hl : Clean l) (tenantId executionId : Id) (outcome : ExecutionOutcome) :
    ledgerContract.safe Fault
      (fun r l' s' => Clean l' ∧ Returned (EndedBy executionId outcome) r s')
      (finish tenantId executionId outcome) l s := by
  unfold finish executionAudit
  simp only [Prog.bind_eq, Prog.pure_eq, Prog.bind_assoc]
  refine step_now fun s₁ h₁ t => safe_uow_returned (fun _ _ _ h hsteps => h.steps hsteps) ?_
  have hpending : (l.asked .now t).pending = id := hl.1
  refine step_getExecution absorbs_returned (fun x => by rw [hpending]; rfl)
    fun l₂ s₂ h₂ into₂ => ?_
  refine step_orRaise (fun _ => returned_error _) fun e he => ?_
  refine step_raiseIf (fun _ => returned_error _) fun hrunning => ?_
  refine step_lift (fun _ _ => returned_error _) fun e' hfinish => ?_
  obtain ⟨hfound, htenant⟩ := Ledger.execution?_eq_some.1 he
  obtain rfl := Table.key_of_find? hfound
  have hrevises := ToolExecution.revises_of_finish hfinish
  refine step_saveExecution absorbs_returned (fun x => by rw [into₂.pending, hpending]; rfl)
    (by simp [into₂.held]) hfound htenant hrevises fun l₃ s₃ h₃ into₃ => ?_
  refine step_newId fun s₄ h₄ id => step_lift (fun _ _ => returned_error _) fun event haudit => ?_
  refine step_appendAudit absorbs_returned (fun x => by
      rw [Local.asked, into₃.pending, into₂.pending, hpending]; rfl)
    (fun _ _ _ _ => returned_error _) fun l₅ s₅ h₅ into₅ hfree => ?_
  refine step_commit_returned fun s₆ h₆ => ?_
  simp only [into₅.held, Local.asked, into₃.held, into₂.held] at h₃ h₄ h₅ h₆ ⊢
  rw [into₅.pending, Local.asked, into₃.pending, into₂.pending, hpending]
  have hfound₆ : s₆.executions.find? e.val.id = some e := by
    rw [← h₆.same (.execution e.val.id) (by simp), ← h₅.same (.execution e.val.id) (by simp),
      ← h₄.same (.execution e.val.id) (by simp), ← h₃.same (.execution e.val.id) (by simp), hfound]
  have hfree₆ : s₆.audits.find? event.val.id = none := by
    rw [← h₆.same (.audit event.val.id) (by simp), hfree]
  refine ⟨guarantee h₆.inv (.finish hfound₆ (not_not.1 hrunning) hfinish haudit hfree₆)
    fun row hrow => ?_, Ledger.find?_saveExecution_self hfound₆ hrevises, e, t, hfinish⟩
  simp only [List.mem_cons, not_or] at hrow
  refine sameRow_trans row _ _ _ (sameRow_saveExecution s₆ ?_) (sameRow_appendAudit _ hrow.1)
  rw [hrevises.id_eq]
  exact hrow.2.1

theorem finish_safe (hl : Clean l) (tenantId executionId : Id) (outcome : ExecutionOutcome) :
    ledgerContract.safe Fault (fun _ l' _ => Clean l') (finish tenantId executionId outcome)
      l s :=
  safe_mono (fun _ _ _ h => h.1) (finish_returns hl tenantId executionId outcome)

/-! ## Approvals -/

/-- The approval was given for the call that the command is for. -/
def ApprovalRequest.IsFor (a : ApprovalRequest) (command : ConsumeApprovalCommand) : Prop :=
  a.val.principalId = command.principalId ∧ a.val.toolVersionId = command.toolVersionId ∧
    a.val.argumentsDigest = command.argumentsDigest ∧
    a.val.policyVersion = command.policyVersion ∧ a.val.idempotencyKey = command.idempotencyKey

section Refused

variable (command : ConsumeApprovalCommand) (s : Ledger)

/-- The approval that the command names in its tenant is `a`. -/
def NamesApproval (a : ApprovalRequest) : Prop :=
  s.approval? command.context.tenantId command.approvalId = some a

/-- The errors for an approval that is not one to consume in `s`, save for an expired one. -/
inductive ApprovalRefusal : Exc → Prop where
  | notFound (message : String)
    (h : s.approval? command.context.tenantId command.approvalId = none) :
    ApprovalRefusal (.nexus .approvalNotFound message)
  | pending {a} (message : String) (h : NamesApproval command s a)
    (hstatus : a.val.status = .pending) : ApprovalRefusal (.nexus .approvalPending message)
  | rejected {a} (message : String) (h : NamesApproval command s a)
    (hstatus : a.val.status = .rejected) : ApprovalRefusal (.nexus .approvalRejected message)
  | consumed {a} (message : String) (h : NamesApproval command s a)
    (hstatus : a.val.status = .consumed) :
    ApprovalRefusal (.nexus .approvalAlreadyConsumed message)
  | mismatch {a} (message : String) (h : NamesApproval command s a)
    (hstatus : a.val.status = .approved) (hmismatch : ¬ a.IsFor command) :
    ApprovalRefusal (.nexus .approvalMismatch message)

/-- The approval has expired in `s`, or is due to expire at `t`. -/
def ApprovalPast (t : Time) : Prop :=
  ∃ a, NamesApproval command s a ∧
    (a.val.status = .expired ∨ (a.val.status = .approved ∧ a.val.expiresAt ≤ t))

end Refused

/-- What is committed for an approval found expired: nothing, or that it expired now. -/
def ApprovalLapsed (command : ConsumeApprovalCommand) (t : Time) (before after : Ledger) : Prop :=
  ∃ a, a.val.id = command.approvalId ∧ before.approvals.find? a.val.id = some a ∧
    a.val.tenantId = command.context.tenantId ∧
    ((a.val.status = .expired ∧ after = before) ∨
      ∃ b, a.val.status = .approved ∧ a.expire t = .ok b ∧ after = before.saveApproval b)

theorem ApprovalLapsed.past {command : ConsumeApprovalCommand} {t : Time} {before after : Ledger}
    (h : ApprovalLapsed command t before after) : ApprovalPast command before t := by
  obtain ⟨a, hid, hfound, htenant, hlapsed⟩ := h
  refine ⟨a, Ledger.approval?_eq_some.2 ⟨hid ▸ hfound, htenant⟩, ?_⟩
  obtain ⟨hexpired, -⟩ | ⟨b, happroved, hexpire, -⟩ := hlapsed
  · exact .inl hexpired
  · exact .inr ⟨happroved, (ApprovalRequest.expire_eq_ok.1 hexpire).2.1⟩

theorem requireConsumableStatus_error {command : ConsumeApprovalCommand} {s : Ledger}
    {a : ApprovalRequest} {x : Exc} (hnamed : NamesApproval command s a)
    (h : requireConsumableStatus a = .error x) :
    (a.val.status = .expired ∧ ∃ message, x = .nexus .approvalExpired message) ∨
      ApprovalRefusal command s x := by
  unfold requireConsumableStatus at h
  cases hstatus : a.val.status <;> rw [hstatus] at h <;> cases h
  case pending => exact .inr (.pending _ hnamed hstatus)
  case rejected => exact .inr (.rejected _ hnamed hstatus)
  case expired => exact .inl ⟨rfl, _, rfl⟩
  case consumed => exact .inr (.consumed _ hnamed hstatus)

section Consuming

variable {α : Type} {Q : Except Exc α → Local Gateway → Ledger → Prop}

theorem safe_commitWhenExpired {β : Type} {u : UnitOfWork} {body : Program β}
    {k : β → Program α} :
    ledgerContract.safe Fault Q ((commitWhenExpired u body).bind k) l s ↔
      ledgerContract.safe Fault (fun r l s => match r with
        | .ok b => ledgerContract.safe Fault Q (k b) l s
        | .error e => ledgerContract.safe Fault Q (commitExpired u e) l s) body l s := by
  unfold commitWhenExpired
  rw [safe_bind, safe_tryCatch]
  refine Iff.of_eq (congrArg (fun P => ledgerContract.safe Fault P body l s) ?_)
  funext r l s
  cases r with
  | ok b => rfl
  | error e =>
    have hhandler := congrArg (ledgerContract.safe Fault Q · l s) (commitExpired_bind k u e)
    exact (propext safe_bind).symm.trans hhandler

/-- Consuming an approval: it is refused, or found expired, which is committed, or it is
    consumed and held from here on. -/
theorem step_consume {u : UnitOfWork} {command : ConsumeApprovalCommand} {t : Time}
    {k : ApprovalRequest → Program α} (hfault : ∀ e, Fault e → Interruption e)
    (hcut : Absorbs Fault Q l) (hpending : l.pending = id) (hheld : l.held = [])
    (hrefuse : ∀ x l' s', ApprovalRefusal command s' x → l.QuietAt l' s' → Q (.error x) l' s')
    (hlapse : ∀ message l' s', l.Quiet l' → ApprovalLapsed command t s' (l'.pending s') →
      Q (.error (.nexus .approvalExpired message)) (l'.did u .commit s') (l'.pending s'))
    (hok : ∀ a b l' s', ledgerContract.Rely l.held s s' →
      l.Into l' (Ledger.saveApproval b) [.approval a.val.id] → a.val.id = command.approvalId →
      s'.approvals.find? a.val.id = some a → a.val.tenantId = command.context.tenantId →
      a.consume command.principalId command.toolVersionId command.argumentsDigest
        command.policyVersion command.idempotencyKey t = .ok b →
      ledgerContract.safe Fault Q (k b) l' s') :
    ledgerContract.safe Fault Q
      ((commitWhenExpired u (consumeLockedApproval u command t)).bind k) l s := by
  -- Only the error of an expired approval is committed before it is raised.
  refine safe_commitWhenExpired.2 ?_
  have hraise : ∀ x l' s', (∀ message, x ≠ .nexus .approvalExpired message) →
      Q (.error x) l' s' → ledgerContract.safe Fault Q (commitExpired u x) l' s' := by
    intro x l' s' hx hQ
    rwa [commitExpired_of_ne hx]
  have hcommit : ∀ message l' s', l.Quiet l' →
      (∀ s'', ledgerContract.Rely l'.held s' s'' →
        ApprovalLapsed command t s'' (l'.pending s'') ∧
          ledgerContract.Guarantee l'.held s'' (l'.pending s'')) →
      ledgerContract.safe Fault Q (commitExpired u (.nexus .approvalExpired message)) l' s' := by
    intro message l' s' hquiet hlapsed
    exact step_commit (hcut.of_quiet hquiet) (fun s'' hs => (hlapsed s'' hs).2)
      fun s'' hs => hlapse message l' s'' hquiet (hlapsed s'' hs).1
  unfold consumeLockedApproval
  simp only [Prog.bind_eq, Prog.pure_eq]
  -- An interruption is no such error, so it passes through.
  have habsorb : Absorbs Fault (fun r l s => match r with
      | .ok b => ledgerContract.safe Fault Q (k b) l s
      | .error e => ledgerContract.safe Fault Q (commitExpired u e) l s) l :=
    fun l' hq u' op e s' he => hraise e _ s' (fun m => hfault e he _ m) (hcut l' hq u' op e s' he)
  refine step_getApproval habsorb (fun x => by rw [hpending]; rfl) fun l₂ s₂ h₂ into₂ hsaw => ?_
  have hp₂ : l₂.pending = id := into₂.pending.trans hpending
  refine step_orRaise (fun hnone => ?_) fun a ha => ?_
  · exact hraise _ _ _ (by simp) (hrefuse _ _ _ (.notFound _ hnone) hsaw)
  obtain ⟨hfound, htenant⟩ := Ledger.approval?_eq_some.1 ha
  have hid := Table.key_of_find? hfound
  refine step_lift (fun x hx => ?_) fun _ hstatus => ?_
  · rcases requireConsumableStatus_error ha hx with ⟨hexpired, message, rfl⟩ | hrefusal
    · refine hcommit message _ _ into₂.quiet fun s₃ h₃ => ?_
      rw [into₂.held] at h₃
      have hfound₃ : s₃.approvals.find? a.val.id = some a := by
        rw [← hid] at hfound h₃
        rw [← h₃.same (.approval a.val.id) (by simp), hfound]
      rw [hp₂]
      exact ⟨⟨a, hid, hfound₃, htenant, .inl ⟨hexpired, rfl⟩⟩,
        guarantee h₃.inv .idle fun row _ => sameRow_refl row s₃⟩
    · exact hraise _ _ _ (by rintro m rfl; cases hrefusal) (hrefuse _ _ _ hrefusal hsaw)
  replace hstatus := requireConsumableStatus_eq_ok.1 hstatus
  rw [← hid] at hfound into₂
  split
  case isTrue hlate =>
    obtain ⟨b, hexpire⟩ := expire_of_late hstatus hlate
    have hrevises := ApprovalRequest.revises_of_expire hexpire
    rw [hexpire]
    -- Too late: the approval is saved as expired, which is all that the commit stores.
    refine step_saveApproval (habsorb.of_quiet into₂.quiet) (fun x => by rw [hp₂]; rfl)
      (by simp [into₂.held]) hfound htenant hrevises fun l₃ s₃ h₃ into₃ => ?_
    refine hcommit _ _ _ (into₂.quiet.trans into₃.quiet) fun s₄ h₄ => ?_
    rw [into₃.held, into₂.held] at h₄ ⊢
    rw [into₂.held] at h₃
    rw [into₃.pending, hp₂]
    have hfound₄ : s₄.approvals.find? a.val.id = some a := by
      rw [← h₄.same (.approval a.val.id) (by simp), ← h₃.same (.approval a.val.id) (by simp),
        hfound]
    refine ⟨⟨a, hid, hfound₄, htenant, .inr ⟨b, hstatus, hexpire, rfl⟩⟩,
      guarantee h₄.inv (.expire hfound₄ hexpire) fun row hrow => sameRow_saveApproval s₄ ?_⟩
    rintro rfl
    exact hrow (by simp [hrevises.id_eq])
  case isFalse hlate =>
    refine step_lift (fun x hx => ?_) fun _ hmatch => ?_
    -- In time, but not for this call.
    · obtain ⟨message, rfl⟩ := requireMatchingCall_error hx
      have hmismatch : ¬ a.IsFor command := fun hfor => by
        rw [requireMatchingCall_eq_ok.2 hfor] at hx
        cases hx
      exact hraise _ _ _ (by simp) (hrefuse _ _ _ (.mismatch _ ha hstatus hmismatch) hsaw)
    obtain ⟨b, hconsume⟩ := consume_of_matching hstatus (not_le.1 hlate) hmatch
    rw [hconsume]
    have hrevises := ApprovalRequest.revises_of_consume hconsume
    refine step_saveApproval (habsorb.of_quiet into₂.quiet) (fun x => by rw [hp₂]; rfl)
      (by simp [into₂.held]) hfound htenant hrevises fun l₃ s₃ h₃ into₃ => ?_
    have hfound₃ : s₃.approvals.find? a.val.id = some a := by
      rw [← h₃.same (.approval a.val.id) (by simp [into₂.held]), hfound]
    refine hok a b l₃ s₃ (h₂.trans (h₃.weaken (by simp [hheld]))) ⟨?_, ?_, ?_⟩ hid hfound₃ htenant
      hconsume
    · rw [into₃.pending, hp₂]
      rfl
    · rw [into₃.held, into₂.held, hheld]
    · exact into₂.quiet.trans into₃.quiet

end Consuming

/-- The approval, as it was requested by the command, is in the ledger, perhaps revised since. -/
def RequestedBy (command : RequestApprovalCommand) (a : ApprovalRequest) (s : Ledger) : Prop :=
  (a.val.tenantId = command.context.tenantId ∧ a.val.argumentsDigest = command.argumentsDigest ∧
    a.val.idempotencyKey = command.idempotencyKey) ∧
  ∃ b, s.approvals.find? a.val.id = some b ∧ b.Revises a

theorem RequestedBy.steps {command : RequestApprovalCommand} {a : ApprovalRequest} {s s' : Ledger}
    (h : RequestedBy command a s) (hsteps : Relation.ReflTransGen LedgerStep s s') :
    RequestedBy command a s' := by
  obtain ⟨hfields, b, hfound, hrevises⟩ := h
  obtain ⟨b', hfound', hrevises'⟩ := LedgerStep.revised_approval hsteps hfound
  exact ⟨hfields, b', hfound', hrevises.trans hrevises'⟩

theorem requestApproval_returns (hl : Clean l) (self : RequestApproval)
    (command : RequestApprovalCommand) :
    ledgerContract.safe Fault (fun r l' s' => Clean l' ∧ Returned (RequestedBy command) r s')
      (self.execute command) l s := by
  unfold RequestApproval.execute
  simp only [Prog.bind_eq, Prog.pure_eq]
  refine step_now fun s₁ h₁ t => step_newId fun s₂ h₂ id => ?_
  refine step_lift (fun _ _ => ⟨hl, returned_error _⟩) fun a ha =>
    safe_uow_returned (fun _ _ _ h hsteps => h.steps hsteps) ?_
  rw [construct_eq_ok] at ha
  obtain ⟨hpending, hheld⟩ : Clean ((l.asked .now t).asked .newId id) := hl
  refine step_addApproval absorbs_returned (fun x => by rw [hpending]; rfl) (by rw [ha])
    (fun _ _ _ => returned_error _) fun l₃ s₃ h₃ into₃ hfree => ?_
  refine step_newId fun s₄ h₄ auditId => ?_
  refine step_lift (fun _ _ => returned_error _) fun evidence _ => ?_
  refine step_lift (fun _ _ => returned_error _) fun event hevent => ?_
  rw [construct_eq_ok] at hevent
  refine step_appendAudit absorbs_returned (fun x => by
      rw [Local.asked, into₃.pending, hpending]; rfl)
    (fun _ _ _ _ => returned_error _) fun l₅ s₅ h₅ into₅ hfreeEvent => ?_
  refine step_commit_returned fun s₆ h₆ => ?_
  simp only [into₅.held, Local.asked, into₃.held] at h₄ h₅ h₆ ⊢
  rw [into₅.pending, Local.asked, into₃.pending, hpending]
  have hfree₆ : s₆.approvals.find? a.val.id = none := by
    rw [← h₆.same (.approval a.val.id) (by simp), ← h₅.same (.approval a.val.id) (by simp),
      ← h₄.same (.approval a.val.id) (by simp), hfree]
  have hfreeEvent₆ : s₆.audits.find? event.val.id = none := by
    rw [← h₆.same (.audit event.val.id) (by simp), hfreeEvent]
  refine ⟨guarantee h₆.inv (.request (by rw [ha]) hfree₆ hfreeEvent₆ (by rw [hevent]))
    fun row hrow => ?_, by rw [ha]; exact ⟨rfl, rfl, rfl⟩, a, Table.find?_insert_self hfree₆,
    .refl a⟩
  simp only [List.mem_cons, not_or] at hrow
  exact sameRow_trans row _ _ _ (sameRow_addApproval s₆ hrow.2.1) (sameRow_appendAudit _ hrow.1)

theorem requestApproval_safe (hl : Clean l) (self : RequestApproval)
    (command : RequestApprovalCommand) :
    ledgerContract.safe Fault (fun _ l' _ => Clean l') (self.execute command) l s :=
  safe_mono (fun _ _ _ h => h.1) (requestApproval_returns hl self command)

theorem decideApproval_safe (hl : Clean l) (command : DecideApprovalCommand) :
    ledgerContract.safe Fault (fun _ l' _ => Clean l') (DecideApproval.execute command) l s := by
  unfold DecideApproval.execute expireUndecided
  simp only [Prog.bind_eq, Prog.pure_eq]
  refine safe_uow_clean ?_
  obtain ⟨hpending, hheld⟩ := hl
  refine step_getApproval absorbs_true (fun x => by rw [hpending]; rfl)
    fun l₁ s₁ h₁ into₁ _ => ?_
  refine step_orRaise (fun _ => trivial) fun a ha => ?_
  obtain ⟨hfound, htenant⟩ := Ledger.approval?_eq_some.1 ha
  have hid := Table.key_of_find? hfound
  rw [← hid] at hfound into₁
  refine step_lift (fun _ _ => trivial) fun _ _ => ?_
  refine step_now fun s₂ h₂ t => ?_
  have hfound₂ : s₂.approvals.find? a.val.id = some a := by
    rw [← h₂.same (.approval a.val.id) (by simp [into₁.held]), hfound]
  -- Nothing is pending for the approvals before the decision.
  have hpending₂ : ∀ x, ((l₁.asked .now t).pending x).approvals = x.approvals := fun x => by
    rw [Local.asked, into₁.pending, hpending]
    rfl
  split
  case isTrue hlate =>
    refine step_lift (fun _ _ => trivial) fun b hexpire => ?_
    have hrevises := ApprovalRequest.revises_of_expire hexpire
    refine step_saveApproval absorbs_true hpending₂ (by simp [Local.asked, into₁.held]) hfound₂
      htenant hrevises fun l₃ s₃ h₃ into₃ => ?_
    refine step_commit absorbs_true (fun s₄ h₄ => ?_) fun _ _ => trivial
    simp only [into₃.held, Local.asked, into₁.held] at h₃ h₄ ⊢
    rw [into₃.pending, Local.asked, into₁.pending, hpending]
    have hfound₄ : s₄.approvals.find? a.val.id = some a := by
      rw [← h₄.same (.approval a.val.id) (by simp), ← h₃.same (.approval a.val.id) (by simp),
        hfound₂]
    refine guarantee h₄.inv (.expire hfound₄ hexpire) fun row hrow => sameRow_saveApproval s₄ ?_
    rintro rfl
    exact hrow (by simp [hrevises.id_eq])
  case isFalse hlate =>
    refine step_lift (fun _ _ => trivial) fun b hdecide => ?_
    -- Approved or rejected, the row is revised once and audited once.
    have hdecided : a.approve command.context.principalId t = .ok b ∨
        a.reject command.context.principalId t = .ok b := by
      split at hdecide
      · exact .inl hdecide
      · exact .inr hdecide
    have hrevises := ApprovalRequest.revises_of_decide hdecided
    refine step_saveApproval absorbs_true hpending₂ (by simp [Local.asked, into₁.held]) hfound₂
      htenant hrevises fun l₃ s₃ h₃ into₃ => ?_
    refine step_newId fun s₄ h₄ auditId => step_lift (fun _ _ => trivial) fun event hevent => ?_
    rw [construct_eq_ok] at hevent
    refine step_appendAudit absorbs_true (fun x => by
        rw [Local.asked, into₃.pending, Local.asked, into₁.pending, hpending]; rfl)
      (fun _ _ _ _ => trivial) fun l₅ s₅ h₅ into₅ hfreeEvent => ?_
    refine step_commit_return fun s₆ h₆ => ?_
    simp only [into₅.held, Local.asked, into₃.held, into₁.held] at h₃ h₄ h₅ h₆ ⊢
    rw [into₅.pending, Local.asked, into₃.pending, Local.asked, into₁.pending, hpending]
    have hfound₆ : s₆.approvals.find? a.val.id = some a := by
      rw [← h₆.same (.approval a.val.id) (by simp), ← h₅.same (.approval a.val.id) (by simp),
        ← h₄.same (.approval a.val.id) (by simp), ← h₃.same (.approval a.val.id) (by simp),
        hfound₂]
    have hfreeEvent₆ : s₆.audits.find? event.val.id = none := by
      rw [← h₆.same (.audit event.val.id) (by simp), hfreeEvent]
    refine guarantee h₆.inv (.decide hfound₆ hdecided hfreeEvent₆ (by rw [hevent]))
      fun row hrow => ?_
    simp only [List.mem_cons, not_or] at hrow
    refine sameRow_trans row _ _ _ (sameRow_saveApproval s₆ ?_) (sameRow_appendAudit _ hrow.1)
    rw [hrevises.id_eq]
    exact hrow.2.1

theorem consumeApproval_safe (hfault : ∀ e, Fault e → Interruption e) (hl : Clean l)
    (command : ConsumeApprovalCommand) :
    ledgerContract.safe Fault (fun _ l' _ => Clean l') (ConsumeApproval.execute command) l s := by
  unfold ConsumeApproval.execute
  simp only [Prog.bind_eq, Prog.pure_eq]
  refine safe_uow_clean ?_
  rw [commitWhenExpired_now, Prog.bind_assoc]
  refine step_now fun s₁ h₁ t => ?_
  obtain ⟨hpending, hheld⟩ : Clean (l.asked .now t) := hl
  refine step_consume hfault absorbs_true hpending hheld (fun _ _ _ _ _ => trivial)
    (fun _ _ _ _ _ => trivial) fun a b l₂ s₂ h₂ into₂ hid hfound htenant hconsume => ?_
  refine step_commit_return fun s₃ h₃ => ?_
  rw [into₂.held] at h₃ ⊢
  rw [into₂.pending]
  have hrevises := ApprovalRequest.revises_of_consume hconsume
  have hfound₃ : s₃.approvals.find? a.val.id = some a := by
    rw [← h₃.same (.approval a.val.id) (by simp), hfound]
  refine guarantee h₃.inv (.consume hfound₃ hconsume) fun row hrow => sameRow_saveApproval s₃ ?_
  rintro rfl
  exact hrow (by simp [hrevises.id_eq])

/-! ## Decisions without an execution -/

/-- A transaction that only appends an audit of no execution. -/
theorem appendAudit_safe {u : UnitOfWork} (hl : Clean l) {event : AuditEvent}
    (hnone : event.val.executionId = none) :
    ledgerContract.safe Fault (fun _ l' _ => Clean l')
      (Prog.uow u ((Audits.append u event).bind fun _ => Prog.commit u)) l s := by
  refine safe_uow_clean ?_
  obtain ⟨hpending, hheld⟩ := hl
  refine step_appendAudit absorbs_true (fun x => by rw [hpending]; rfl) (fun _ _ _ _ => trivial)
    fun l₁ s₁ h₁ into₁ hfree => ?_
  refine safe_commit.2 fun s₂ h₂ => ⟨fun _ _ => trivial, ?_, trivial⟩
  rw [into₁.held] at h₂ ⊢
  rw [into₁.pending, hpending]
  have hfree₂ : s₂.audits.find? event.val.id = none := by
    rw [← h₂.same (.audit event.val.id) (by simp), hfree]
  refine guarantee h₂.inv (.audit hfree₂ hnone) fun row hrow => sameRow_appendAudit s₂ ?_
  rintro rfl
  exact hrow (by simp)

theorem recordCallDecision_safe (hl : Clean l) (command : RecordCallDecisionCommand) :
    ledgerContract.safe Fault (fun _ l' _ => Clean l') (recordCallDecision command) l s := by
  unfold recordCallDecision
  simp only [Prog.bind_eq]
  refine step_newId fun _ _ _ => step_now fun _ _ _ => ?_
  refine step_lift (fun _ _ => hl) fun _ _ => step_lift (fun _ _ => hl) fun event hevent => ?_
  rw [construct_eq_ok] at hevent
  refine appendAudit_safe ?_ (by rw [hevent])
  exact hl

theorem recordScopeDenial_safe (hl : Clean l) (command : RecordMcpScopeDenialCommand) :
    ledgerContract.safe Fault (fun _ l' _ => Clean l') (recordScopeDenial command) l s := by
  unfold recordScopeDenial
  simp only [Prog.bind_eq]
  refine step_lift (fun _ _ => hl) fun _ _ => ?_
  refine step_newId fun _ _ _ => step_now fun _ _ _ => ?_
  refine step_lift (fun _ _ => hl) fun event hevent => ?_
  rw [construct_eq_ok] at hevent
  refine appendAudit_safe ?_ (by rw [hevent])
  exact hl

end NexusMcp
