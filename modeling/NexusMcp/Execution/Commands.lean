-- SUMMARY: The commands that work on the ledger, run by any number of callers at once.
import NexusMcp.Execution.Planning
import NexusMcp.Execution.CallTool

/-!
# The Ledger at Work

Everything the gateway does to the ledger, as the programs of a world with any number
of callers. A whole tool call is one of them, with the retries of its executor.
-/

namespace NexusMcp

open Txn ExecutionLifecycle Contract

/-! ## Commands -/

/-- The executors a tool call is given: one outside the gateway, alone or with retries. -/
inductive Wired : ToolExecutor → Prop where
  | direct : Wired askExecutor
  | retrying {self : ExecuteWithRetry} (h : self.executor = askExecutor) : Wired self.execute

inductive LedgerCommand where
  | requestApproval (service : RequestApproval) (command : RequestApprovalCommand)
  | decideApproval (command : DecideApprovalCommand)
  | consumeApproval (command : ConsumeApprovalCommand)
  | plan (command : PlanExecutionCommand)
  | startAttempt (tenantId executionId : Id)
  | finishAttempt (tenantId attemptId : Id) (outcome : AttemptOutcome)
  | finish (tenantId executionId : Id) (outcome : ExecutionOutcome)
  | recordCallDecision (command : RecordCallDecisionCommand)
  | recordScopeDenial (command : RecordMcpScopeDenialCommand)
  | callTool (service : CallTool) (wired : Wired service.executor) (command : CallToolCommand)

namespace LedgerCommand

/-- What a command returns. -/
abbrev Result : LedgerCommand → Type
  | requestApproval _ _ => ApprovalRequest
  | decideApproval _ => ApprovalRequest
  | consumeApproval _ => ApprovalRequest
  | plan _ => ToolExecution
  | startAttempt _ _ => ExecutionAttempt
  | finishAttempt _ _ _ => ExecutionAttempt
  | finish _ _ _ => ToolExecution
  | recordCallDecision _ => Unit
  | recordScopeDenial _ => Unit
  | callTool _ _ _ => CallToolResult

def program [Sha256] : (command : LedgerCommand) → Program command.Result
  | requestApproval service command => service.execute command
  | decideApproval command => DecideApproval.execute command
  | consumeApproval command => ConsumeApproval.execute command
  | plan command => ExecutionLifecycle.plan command
  | startAttempt tenantId executionId => ExecutionLifecycle.startAttempt tenantId executionId
  | finishAttempt tenantId attemptId outcome =>
    ExecutionLifecycle.finishAttempt tenantId attemptId outcome
  | finish tenantId executionId outcome => ExecutionLifecycle.finish tenantId executionId outcome
  | recordCallDecision command => ExecutionLifecycle.recordCallDecision command
  | recordScopeDenial command => ExecutionLifecycle.recordScopeDenial command
  | callTool service _ command => service.execute command

end LedgerCommand

/-! ## Tool calls -/

section ToolCalls

variable {Fault : Exc → Prop} {l : Local Gateway} {s : Ledger}

theorem CallRecorded.steps {request : ExecutorRequest} {s s' : Ledger}
    (h : CallRecorded request s) (hsteps : Relation.ReflTransGen LedgerStep s s') :
    CallRecorded request s' := by
  obtain ⟨e, hfound, hversion, hkey⟩ := h
  obtain ⟨e', hfound', hrevises⟩ := LedgerStep.revised_execution hsteps hfound
  refine ⟨e', hfound', ?_, ?_⟩
  · exact (congrArg (·.val.toolVersionId) hrevises.symm).trans hversion
  · exact (congrArg (·.val.idempotencyKey) hrevises.symm).trans hkey

/-- The postcondition of the steps of a call: no session is open, and the call is still
    recorded. -/
def StillRecorded (request : ExecutorRequest) (l : Local Gateway) (s : Ledger) : Prop :=
  Clean l ∧ CallRecorded request s

/-- An operation that leaves no session open also leaves the call recorded. -/
theorem stillRecorded {α : Type} {p : Program α} {request : ExecutorRequest}
    (hrecorded : CallRecorded request s)
    (h : ledgerContract.safe Fault (fun _ l' _ => Clean l') p l s) :
    ledgerContract.safe Fault (fun _ l' s' => StillRecorded request l' s') p l s :=
  safe_mono (fun _ _ _ hpost => ⟨hpost.1, hrecorded.steps hpost.2⟩) (safe_history .refl h)

/-- A question that anybody may ask. -/
theorem step_ask {α β : Type} {q : Query} {f : q.Answer → Program β} {k : β → Program α}
    {Q : Except Exc α → Local Gateway → Ledger → Prop} (hpermit : ∀ s', ledgerContract.permit q s')
    (hok : ∀ a s', ledgerContract.Rely l.held s s' →
      ledgerContract.safe Fault Q ((f a).bind k) (l.asked q a) s') :
    ledgerContract.safe Fault Q ((Prog.ask q f).bind k) l s :=
  fun s' hs => ⟨hpermit s', fun a => hok a s' hs⟩

theorem askExecutor_safe {request : ExecutorRequest} {credential : Option ResolvedCredential}
    (h : StillRecorded request l s) :
    ledgerContract.safe Fault (fun _ l' s' => StillRecorded request l' s')
      (askExecutor request credential) l s :=
  fun _ hs => ⟨h.2.steps hs.steps, fun _ => safe_lift.2 ⟨h.1, h.2.steps hs.steps⟩⟩

theorem proceed_safe {self : ExecuteWithRetry} {request : ExecutorRequest} {n : Nat}
    {outcome : Except Exc ExecutorResult} (h : StillRecorded request l s) :
    ledgerContract.safe Fault (fun _ l' s' => StillRecorded request l' s')
      (self.proceed request n outcome) l s := by
  unfold ExecuteWithRetry.proceed
  split
  · exact h
  · split
    · refine step_lift (fun _ _ => h) fun _ _ => step_ask (fun _ => trivial) fun a s' hs => ?_
      have h' := h.2.steps hs.steps
      exact step_lift (fun _ _ => ⟨h.1, h'⟩) fun _ _ => ⟨h.1, h'⟩
    · exact h
  · exact h

theorem loop_safe {self : ExecuteWithRetry} (hself : self.executor = askExecutor)
    {request : ExecutorRequest} {credential : Option ResolvedCredential} (remaining n : Nat)
    (h : StillRecorded request l s) :
    ledgerContract.safe Fault (fun _ l' s' => StillRecorded request l' s')
      (self.loop request credential remaining n) l s := by
  induction remaining generalizing n l s with
  | zero => exact h
  | succ remaining ih =>
    unfold ExecuteWithRetry.loop
    simp only [Prog.bind_eq, hself, ExecuteWithRetry.record_eq]
    refine safe_bind.2 (safe_mono (fun started l₁ s₁ h₁ => ?_)
      (stillRecorded h.2 (startAttempt_safe h.1 _ _)))
    cases started with
    | error e => exact h₁
    | ok attempt =>
    refine safe_bind.2 (safe_attempt.2 (safe_mono (fun _ l₂ s₂ h₂ => ?_) (askExecutor_safe h₁)))
    refine safe_bind.2 (safe_mono (fun recorded l₃ s₃ h₃ => ?_)
      (stillRecorded h₂.2 (finishAttempt_safe h₂.1 _ _ _)))
    cases recorded with
    | error e => exact h₃
    | ok _ =>
    refine safe_bind.2 (safe_mono (fun next l₄ s₄ h₄ => ?_) (proceed_safe h₃))
    rcases next with e | _ | result
    · exact h₄
    · exact ih _ h₄
    · exact h₄

theorem executor_safe {executor : ToolExecutor} (hwired : Wired executor)
    {request : ExecutorRequest} {credential : Option ResolvedCredential}
    (h : StillRecorded request l s) :
    ledgerContract.safe Fault (fun _ l' s' => StillRecorded request l' s')
      (executor request credential) l s := by
  cases hwired with
  | direct => exact askExecutor_safe h
  | retrying hself => exact loop_safe hself _ _ h

theorem passPolicy_safe (hl : Clean l) (service : CallTool) (command : CallToolCommand)
    (principal : InternalPrincipal) (tool : ResolvedExecutableTool) (digest : String)
    (decision : PolicyDecision) :
    ledgerContract.safe Fault (fun _ l' _ => Clean l')
      (service.passPolicy command principal tool digest decision) l s := by
  unfold CallTool.passPolicy CallTool.deny CallTool.passApprovalGate
  split
  · refine safe_bind.2 (safe_mono (fun recorded l₁ s₁ h₁ => ?_) (recordCallDecision_safe hl _))
    cases recorded <;> exact h₁
  · split
    · exact hl
    · exact hl
    · refine safe_bind.2 (safe_mono (fun requested l₁ s₁ h₁ => ?_) (requestApproval_safe hl _ _))
      cases requested <;> exact h₁
  · exact hl

theorem resolveCredentialBinding_safe (hl : Clean l) (service : CallTool) (tenantId : Id)
    (principal : InternalPrincipal) (tool : ResolvedExecutableTool) :
    ledgerContract.safe Fault (fun _ l' _ => Clean l')
      (service.resolveCredentialBinding tenantId principal tool) l s := by
  rw [CallTool.resolveCredentialBinding]
  by_cases hscheme : CallTool.authScheme tool = "none"
  · rw [if_pos hscheme]
    exact hl
  · rw [if_neg hscheme]
    simp only [Prog.bind_eq, Prog.pure_eq]
    refine step_raiseIf (fun _ => hl) fun _ => step_ask (fun _ => trivial) fun _ _ _ => ?_
    refine step_lift (fun _ _ => hl) fun binding _ => step_orRaise (fun _ => hl) fun _ _ => hl

theorem clear_safe [Sha256] (hl : Clean l) (service : CallTool) (command : CallToolCommand) :
    ledgerContract.safe Fault (fun _ l' _ => Clean l') (service.clear command) l s := by
  unfold CallTool.clear
  simp only [Prog.bind_eq, Prog.pure_eq]
  refine step_ask (fun _ => trivial) fun _ _ _ => step_lift (fun _ _ => hl) fun principal _ => ?_
  refine step_ask (fun _ => trivial) fun _ _ _ => step_lift (fun _ _ => hl) fun tool _ => ?_
  refine step_orRaise (fun _ => hl) fun tool _ => step_raiseIf (fun _ => hl) fun _ => ?_
  refine step_ask (fun _ => trivial) fun _ _ _ => step_lift (fun _ _ => hl) fun _ _ => ?_
  refine step_lift (fun _ _ => hl) fun _ _ => step_lift (fun _ _ => hl) fun digest _ => ?_
  refine step_lift (fun _ _ => hl) fun policyInput _ => ?_
  refine step_ask (fun _ => trivial) fun _ _ _ => step_lift (fun _ _ => hl) fun decision _ => ?_
  refine safe_bind.2 (safe_mono (fun passed l₁ s₁ h₁ => ?_)
    (passPolicy_safe (by exact hl) _ _ _ _ _ _))
  cases passed with
  | error e => exact h₁
  | ok _ =>
  refine step_ask (fun _ => trivial) fun _ _ _ => step_lift (fun _ _ => h₁) fun _ _ => ?_
  refine safe_bind.2 (safe_mono (fun resolved l₂ s₂ h₂ => ?_)
    (resolveCredentialBinding_safe (by exact h₁) _ _ _ _))
  cases resolved <;> exact h₂

theorem failCredential_safe {α : Type} (hl : Clean l) (tenantId executionId : Id) (e : Exc) :
    ledgerContract.safe Fault (fun _ l' _ => Clean l')
      (CallTool.failCredential tenantId executionId e : Program α) l s := by
  rw [CallTool.failCredential.eq_def]
  split
  · exact hl
  all_goals
    refine safe_bind.2 (safe_mono (fun finished l₁ s₁ h₁ => ?_) (finish_safe hl _ _ _))
    cases finished <;> exact h₁

theorem failExecution_safe {α : Type} (hl : Clean l) (tenantId executionId : Id) (e : Exc) :
    ledgerContract.safe Fault (fun _ l' _ => Clean l')
      (CallTool.failExecution tenantId executionId e : Program α) l s := by
  rw [CallTool.failExecution.eq_def]
  split
  all_goals
    refine safe_bind.2 (safe_mono (fun finished l₁ s₁ h₁ => ?_) (finish_safe hl _ _ _))
    cases finished <;> exact h₁

/-- Reading the secret leaves the ledger alone. -/
theorem resolveSecret_safe (hl : Clean l) (service : CallTool)
    (binding : Option CredentialBinding) :
    ledgerContract.safe Fault (fun _ l' _ => Clean l') (service.resolveSecret binding) l s := by
  unfold CallTool.resolveSecret
  split
  · exact hl
  · refine step_raiseIf (fun _ => hl) fun _ => step_ask (fun _ => trivial) fun _ _ _ => ?_
    exact step_lift (fun _ _ => hl) fun _ _ => hl

/-- The execution was planned for the call that is now delivered. -/
theorem callRecorded_of_recorded {command : CallToolCommand} {cleared : CallTool.Clearance}
    {e : ToolExecution} {request : ExecutorRequest} {t : Time} {id : Id}
    (hfields : e.val = { plannedFields (CallTool.planCommand command cleared) t id with
      status := .running, startedAt := some t })
    (hrecorded : Recorded e s) (hid : request.val.executionId = e.val.id)
    (htool : request.val.tool = cleared.tool)
    (hkey : request.val.idempotencyKey = command.val.idempotencyKey) : CallRecorded request s := by
  obtain ⟨e', hfound, hrevises⟩ := hrecorded
  refine ⟨e', hid ▸ hfound, ?_, ?_⟩
  · rw [show e'.val.toolVersionId = e.val.toolVersionId from
      congrArg (·.val.toolVersionId) hrevises.symm, hfields, htool]
    rfl
  · rw [show e'.val.idempotencyKey = e.val.idempotencyKey from
      congrArg (·.val.idempotencyKey) hrevises.symm, hfields, hkey]
    rfl

theorem callExecutor_safe {service : CallTool} (hwired : Wired service.executor)
    {command : CallToolCommand} {cleared : CallTool.Clearance} {e : ToolExecution} {t : Time}
    {id : Id} {credential : Option ResolvedCredential}
    (hfields : e.val = { plannedFields (CallTool.planCommand command cleared) t id with
      status := .running, startedAt := some t })
    (hl : Clean l) (hrecorded : Recorded e s) :
    ledgerContract.safe Fault (fun _ l' _ => Clean l')
      (service.callExecutor command cleared.tool e.val.id credential) l s := by
  rw [CallTool.callExecutor]
  simp only [Prog.bind_eq]
  refine step_lift (fun _ _ => hl) fun request hrequest => ?_
  rw [construct_eq_ok] at hrequest
  have hcall : CallRecorded request s :=
    callRecorded_of_recorded hfields hrecorded (by rw [hrequest]) (by rw [hrequest])
      (by rw [hrequest])
  exact safe_mono (fun _ _ _ h => h.1) (executor_safe hwired ⟨hl, hcall⟩)

/-- The part of a call after its plan. -/
theorem deliver_safe {service : CallTool} (hwired : Wired service.executor)
    {command : CallToolCommand} {cleared : CallTool.Clearance} {e : ToolExecution} {t : Time}
    {id : Id} (hfields : e.val = { plannedFields (CallTool.planCommand command cleared) t id with
      status := .running, startedAt := some t })
    (hl : Clean l) (hrecorded : Recorded e s) :
    ledgerContract.safe Fault (fun _ l' _ => Clean l') (service.deliver command cleared e) l s := by
  rw [CallTool.deliver]
  simp only [Prog.bind_eq, Prog.pure_eq]
  have hsecret : ledgerContract.safe Fault (fun _ l' _ => Clean l')
      ((service.resolveSecret cleared.credentialBinding).tryCatch
        (CallTool.failCredential command.val.context.tenantId e.val.id)) l s := by
    refine safe_tryCatch.2 (safe_mono (fun secret l₁ s₁ h₁ => ?_) (resolveSecret_safe hl _ _))
    cases secret with
    | error x => exact failCredential_safe h₁ _ _ x
    | ok credential => exact h₁
  refine safe_bind.2 (safe_mono (fun secret l₁ s₁ h₁ => ?_) (safe_history .refl hsecret))
  cases secret with
  | error x => exact h₁.1
  | ok credential =>
  have hexecutor : ledgerContract.safe Fault (fun _ l' _ => Clean l')
      ((service.callExecutor command cleared.tool e.val.id credential).tryCatch
        (CallTool.failExecution command.val.context.tenantId e.val.id)) l₁ s₁ := by
    refine safe_tryCatch.2 (safe_mono (fun result l₂ s₂ h₂ => ?_)
      (callExecutor_safe hwired hfields h₁.1 (hrecorded.steps h₁.2)))
    cases result with
    | error x => exact failExecution_safe h₂ _ _ x
    | ok result => exact h₂
  refine safe_bind.2 (safe_mono (fun result l₂ s₂ h₂ => ?_) hexecutor)
  cases result with
  | error x => exact h₂
  | ok result =>
  refine safe_bind.2 (safe_mono (fun finished l₃ s₃ h₃ => ?_) (finish_safe h₂ _ _ _))
  cases finished <;> exact h₃

theorem callTool_safe [Sha256] (hfault : ∀ e, Fault e → Interruption e) (hl : Clean l)
    {service : CallTool} (hwired : Wired service.executor) (command : CallToolCommand) :
    ledgerContract.safe Fault (fun _ l' _ => Clean l') (service.execute command) l s := by
  rw [CallTool.execute]
  simp only [Prog.bind_eq]
  refine safe_bind.2 (safe_mono (fun cleared l₁ s₁ h₁ => ?_) (clear_safe hl service command))
  cases cleared with
  | error x => exact h₁
  | ok cleared =>
  refine safe_bind.2 (safe_mono (fun planned l₂ s₂ h₂ => ?_) (plan_safe hfault h₁ _))
  cases planned with
  | error x => exact h₂.1
  | ok e =>
  obtain ⟨hclean, new, -, hend, hrecorded⟩ := h₂
  cases hend with
  | closed h =>
  cases h with
  | planned _ _ h =>
  cases h with
  | intro hfields => exact deliver_safe hwired hfields hclean (hrecorded e rfl)

end ToolCalls

/-! ## Worlds -/

namespace LedgerCommand

/-- What holds when a command ends. -/
def Post : (command : LedgerCommand) →
    Except Exc command.Result → Local Gateway → Ledger → Prop
  | plan command => fun r l s => Clean l ∧ PlanPost command .start r l s
  | _ => fun _ l _ => Clean l

/-- Every command keeps the ledger's contract. -/
theorem safe [Sha256] (command : LedgerCommand) (s : Ledger) :
    ledgerContract.safe Interruption command.Post command.program .start s := by
  cases command with
  | requestApproval service command => exact requestApproval_safe clean_start service command
  | decideApproval command => exact decideApproval_safe clean_start command
  | consumeApproval command => exact consumeApproval_safe (fun _ h => h) clean_start command
  | plan command => exact plan_safe (fun _ h => h) clean_start command
  | startAttempt tenantId executionId => exact startAttempt_safe clean_start tenantId executionId
  | finishAttempt tenantId attemptId outcome =>
    exact finishAttempt_safe clean_start tenantId attemptId outcome
  | finish tenantId executionId outcome =>
    exact finish_safe clean_start tenantId executionId outcome
  | recordCallDecision command => exact recordCallDecision_safe clean_start command
  | recordScopeDenial command => exact recordScopeDenial_safe clean_start command
  | callTool service wired command => exact callTool_safe (fun _ h => h) clean_start wired command

end LedgerCommand

/-- Any number of callers, each about to run its command on the empty ledger. -/
def LedgerWorld [Sha256] {Pid : Type} (commands : Pid → LedgerCommand) :
    World Gateway Pid (fun p => (commands p).Result) :=
  .start .empty fun p => (commands p).program

/-- `w` is reached by some interleaving in which any operation may be interrupted. -/
def Reachable [Sha256] {Pid : Type} (commands : Pid → LedgerCommand)
    (w : World Gateway Pid (fun p => (commands p).Result)) : Prop :=
  World.Reaches Interruption (LedgerWorld commands) w

section Worlds

variable [Sha256] {Pid : Type} {commands : Pid → LedgerCommand}
  {w : World Gateway Pid (fun p => (commands p).Result)}

theorem Reachable.good (h : Reachable commands w) :
    ledgerContract.Good Interruption (fun p => (commands p).Post) w :=
  good_of_reaches (good_start LedgerInv.empty fun p => (commands p).safe _) h

theorem Reachable.inv (h : Reachable commands w) : LedgerInv w.store := h.good.inv

/-- Later ledgers are reached by `LedgerStep`s. -/
theorem Reachable.steps {w' : World Gateway Pid (fun p => (commands p).Result)}
    (h : Reachable commands w) (hto : World.Reaches Interruption w w') :
    Relation.ReflTransGen LedgerStep w.store w'.store :=
  steps_of_reaches h.good hto

/-- Every commit is a `LedgerStep`, and the ledger comes from what it left. -/
theorem Reachable.commit {p : Pid} {u : UnitOfWork} {before after : Ledger}
    (h : Reachable commands w) (hlog : (p, .did u .commit before after) ∈ w.log) :
    LedgerStep before after ∧ Relation.ReflTransGen LedgerStep after w.store := by
  obtain ⟨hstep, hto⟩ := h.good.committed p u .commit before after hlog
  rcases hstep with rfl | hstep
  · exact ⟨.idle, hto⟩
  · exact ⟨hstep, hto⟩

end Worlds

end NexusMcp
