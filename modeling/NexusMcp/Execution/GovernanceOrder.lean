-- SUMMARY: What a tool call has established when it reads a secret or calls its executor.
import NexusMcp.Execution.RetryDiscipline
import NexusMcp.Txn.Within

/-!
# The Order of Governance

A call is cleared, planned and delivered, in this order. Only the delivery touches a secret or
the upstream, so everything it does comes after all that the clearance and the plan rest on.
-/

namespace NexusMcp

open Txn ExecutionLifecycle Contract Prog

/-! ## What a call uses -/

/-- The event reads a secret or calls the executor. -/
def Touches : Event Gateway → Prop
  | .asked (.resolveSecret _) _ | .asked (.executeTool _ _) _ => True
  | _ => False

/-- A question of the delivery: what it is given is what was cleared and planned. -/
def Supplies [Sha256] (command : CallToolCommand) (cleared : CallTool.Clearance)
    (e : ToolExecution) : Query → Prop
  | .resolveSecret reference =>
    ∃ binding, cleared.credentialBinding = some binding ∧ reference = binding.val.secretReference
  | .executeTool request _ =>
    request.val.executionId = e.val.id ∧ request.val.tool = cleared.tool ∧
      request.val.arguments = command.val.arguments ∧
      canonicalJsonDigest (.obj request.val.arguments) = .ok e.val.argumentsDigest
  | .now | .newId | .sleep _ => True
  | _ => False

/-- The identifiers of the executions. -/
def Ledger.executionIds (s : Ledger) : List Id := s.executions.rows.map (·.val.id)

/-- Before the plan: neither secrets nor the upstream, and no new execution. -/
def clearing : Vocabulary Gateway where
  asks
    | .resolveSecret _ | .executeTool _ _ | .httpRequest _ => False
    | _ => True
  opens u := u = .recordCallDecision ∨ u = .requestApproval
  writes update := ∀ s : Ledger, (update s).executionIds = s.executionIds
  closes := True

/-- The plan, but for the closing of its session. -/
def searching : Vocabulary Gateway where
  asks q := q = .now ∨ q = .newId
  opens u := u = .plan
  writes _ := True
  closes := False

def planning : Vocabulary Gateway := { searching with closes := True }

/-- After the plan: no further question of the clearance, and no new execution. -/
def delivering (supplies : Query → Prop) : Vocabulary Gateway where
  asks := supplies
  opens u := u = .startAttempt ∨ u = .finishAttempt ∨ u = .finish
  writes update := ∀ s : Ledger, (update s).executionIds = s.executionIds
  closes := True

/-! ## The vocabulary of each part -/

section Vocabularies

variable {v : Vocabulary Gateway} {u : UnitOfWork} {α : Type}

theorem within_ask {q : Query} {k : q.Answer → Program α} (hq : v.asks q)
    (hk : ∀ a, (k a).Within v) : Prog.Within v (.ask q k) :=
  ⟨hq, hk⟩

theorem within_claimKey {row : LedgerRow} {taken : Ledger → Bool} {e : Exc} (hu : v.opens u) :
    (claimKey u row taken e).Within v :=
  (within_lock.2 hu).bind fun _ => within_raiseIf _ _

theorem within_requireTenant {tenantId ownTenantId : Id} {message : String} :
    (requireTenant tenantId ownTenantId message).Within v :=
  within_raiseIf _ _

theorem within_saveRow {tenantId ownTenantId : Id} {crossed missing : String}
    {loads : Ledger → Bool} {update : Ledger → Ledger} (hu : v.opens u)
    (hupdate : v.writes update) :
    (saveRow u tenantId ownTenantId crossed loads missing update).Within v :=
  within_requireTenant.bind fun _ => (within_select.2 hu).bind fun _ =>
    (within_raiseIf _ _).bind fun _ => within_write.2 ⟨hu, hupdate⟩

theorem within_getApproval {tenantId approvalId : Id} (hu : v.opens u) :
    (Approvals.getForUpdate u tenantId approvalId).Within v :=
  (within_lock.2 hu).bind fun _ => trivial

theorem within_getExecution {tenantId executionId : Id} (hu : v.opens u) :
    (Executions.getForUpdate u tenantId executionId).Within v :=
  (within_lock.2 hu).bind fun _ => trivial

theorem within_getAttempt {tenantId attemptId : Id} (hu : v.opens u) :
    (Attempts.getForUpdate u tenantId attemptId).Within v :=
  (within_lock.2 hu).bind fun _ => trivial

theorem within_append {event : AuditEvent} (hu : v.opens u)
    (hupdate : v.writes (Ledger.appendAudit event)) : (Audits.append u event).Within v :=
  (within_claimKey hu).bind fun _ => within_write.2 ⟨hu, hupdate⟩

theorem within_executionAudit {e : ToolExecution} {outcome : AuditOutcome} {t : Time}
    (hid : v.asks .newId) : (executionAudit e outcome t).Within v :=
  within_ask hid fun _ => within_lift _

end Vocabularies

@[simp] theorem executionIds_appendAudit (event : AuditEvent) (s : Ledger) :
    (s.appendAudit event).executionIds = s.executionIds := rfl

@[simp] theorem executionIds_addApproval (a : ApprovalRequest) (s : Ledger) :
    (s.addApproval a).executionIds = s.executionIds := rfl

@[simp] theorem executionIds_addAttempt (a : ExecutionAttempt) (s : Ledger) :
    (s.addAttempt a).executionIds = s.executionIds := rfl

@[simp] theorem executionIds_saveAttempt (a : ExecutionAttempt) (s : Ledger) :
    (s.saveAttempt a).executionIds = s.executionIds := rfl

@[simp] theorem executionIds_saveExecution (e : ToolExecution) (s : Ledger) :
    (s.saveExecution e).executionIds = s.executionIds := by
  simp only [Ledger.executionIds, Ledger.saveExecution, Table.modify, List.map_map]
  refine List.map_congr_left fun x _ => ?_
  simp only [Function.comp_apply]
  split
  · next h => rw [h.1, h.2]
  · rfl

section Clearing

theorem clearing_requestApproval : clearing.opens .requestApproval := Or.inr rfl

theorem clearing_recordCallDecision : clearing.opens .recordCallDecision := Or.inl rfl

theorem requestApproval_within (service : RequestApproval) (command : RequestApprovalCommand) :
    (service.execute command).Within clearing := by
  have hu := clearing_requestApproval
  refine within_ask trivial fun _ => within_ask trivial fun _ => (within_lift _).bind fun _ => ?_
  refine Within.uow hu trivial (Within.bind ?_ fun _ => within_ask trivial fun _ => ?_)
  · refine within_requireTenant.bind fun _ => (within_claimKey hu).bind fun _ => ?_
    exact within_write.2 ⟨hu, fun _ => rfl⟩
  · refine (within_lift _).bind fun _ => (within_lift _).bind fun _ => ?_
    refine (within_append hu fun _ => rfl).bind fun _ => ?_
    exact (within_commit.2 hu).bind fun _ => trivial

theorem recordCallDecision_within (command : RecordCallDecisionCommand) :
    (recordCallDecision command).Within clearing := by
  have hu := clearing_recordCallDecision
  refine within_ask trivial fun _ => within_ask trivial fun _ => (within_lift _).bind fun _ => ?_
  refine (within_lift _).bind fun _ => Within.uow hu trivial ?_
  exact (within_append hu fun _ => rfl).bind fun _ => within_commit.2 hu

variable (service : CallTool) (command : CallToolCommand)

theorem passPolicy_within (principal : InternalPrincipal) (tool : ResolvedExecutableTool)
    (digest : String) (decision : PolicyDecision) :
    (service.passPolicy command principal tool digest decision).Within clearing := by
  unfold CallTool.passPolicy CallTool.deny CallTool.passApprovalGate
  split
  · exact (recordCallDecision_within _).bind fun _ => trivial
  · split
    · trivial
    · trivial
    · exact (requestApproval_within _ _).bind fun _ => trivial
  · trivial

theorem resolveCredentialBinding_within (tenantId : Id) (principal : InternalPrincipal)
    (tool : ResolvedExecutableTool) :
    (service.resolveCredentialBinding tenantId principal tool).Within clearing := by
  unfold CallTool.resolveCredentialBinding
  split
  · trivial
  · refine (within_raiseIf _ _).bind fun _ => within_ask trivial fun _ => ?_
    exact (within_lift _).bind fun _ => (within_orRaise _ _).bind fun _ => trivial

theorem clear_within [Sha256] : (service.clear command).Within clearing := by
  refine within_ask trivial fun _ => (within_lift _).bind fun principal => ?_
  refine within_ask trivial fun _ => (within_lift _).bind fun _ => ?_
  refine (within_orRaise _ _).bind fun tool => (within_raiseIf _ _).bind fun _ => ?_
  refine within_ask trivial fun _ => (within_lift _).bind fun _ => ?_
  refine (within_lift _).bind fun _ => (within_lift _).bind fun digest => ?_
  refine (within_lift _).bind fun _ => within_ask trivial fun _ => ?_
  refine (within_lift _).bind fun decision => (passPolicy_within _ _ _ _ _ _).bind fun _ => ?_
  refine within_ask trivial fun _ => (within_lift _).bind fun _ => ?_
  exact (resolveCredentialBinding_within _ _ _ _).bind fun _ => trivial

end Clearing

section Planning

theorem searching_plan : searching.opens .plan := rfl

theorem consumeLockedApproval_within (command : ConsumeApprovalCommand) (t : Time) :
    (consumeLockedApproval .plan command t).Within searching := by
  have hu := searching_plan
  refine (within_getApproval hu).bind fun _ => (within_orRaise _ _).bind fun a => ?_
  refine (within_lift _).bind fun _ => ?_
  split
  · exact (within_lift _).bind fun _ => (within_saveRow hu trivial).bind fun _ => trivial
  · refine (within_lift _).bind fun _ => (within_lift _).bind fun _ => ?_
    exact (within_saveRow hu trivial).bind fun _ => trivial

theorem consumeForPlan_within (command : PlanExecutionCommand) (t : Time) :
    (consumeForPlan command t).Within searching := by
  unfold consumeForPlan
  split
  · trivial
  · refine Within.bind ?_ fun _ => trivial
    refine (consumeLockedApproval_within _ _).tryCatch fun x => ?_
    unfold commitExpired
    split
    · exact (within_commit.2 searching_plan).bind fun _ => trivial
    · trivial

theorem rejectReuse_within (command : PlanExecutionCommand) :
    (rejectReuse command).Within searching := by
  unfold rejectReuse
  split
  · trivial
  · have hlookup : ∀ tenantId principalId toolVersionId key,
        (Executions.getByIdempotencyKey .plan tenantId principalId toolVersionId key).Within
          searching := fun _ _ _ _ => (within_select.2 searching_plan).bind fun _ => trivial
    refine (hlookup _ _ _ _).bind fun existing => ?_
    cases existing <;> trivial

theorem addExecution_within (tenantId : Id) (e : ToolExecution) :
    (Executions.add .plan tenantId e).Within searching := by
  have hu := searching_plan
  refine within_requireTenant.bind fun _ => (within_claimKey hu).bind fun _ => ?_
  refine Within.bind ?_ fun _ => within_write.2 ⟨hu, trivial⟩
  unfold Executions.claimScope
  split
  · trivial
  · exact within_claimKey hu

/-- What a plan does in its session. -/
def planBody (command : PlanExecutionCommand) (t : Time) (e : ToolExecution) :
    Program ToolExecution := do
  rejectReuse command
  consumeForPlan command t
  Executions.add .plan command.context.tenantId e
  let event ← executionAudit e .allowed t
  Audits.append .plan event
  commit .plan
  return e

theorem planBody_within (command : PlanExecutionCommand) (t : Time) (e : ToolExecution) :
    (planBody command t e).Within searching := by
  have hu := searching_plan
  refine (rejectReuse_within command).bind fun _ => ?_
  refine (consumeForPlan_within command t).bind fun _ => (addExecution_within _ e).bind fun _ => ?_
  refine (within_executionAudit (Or.inr rfl)).bind fun _ => ?_
  exact (within_append hu trivial).bind fun _ => (within_commit.2 hu).bind fun _ => trivial

theorem plan_within (command : PlanExecutionCommand) : (plan command).Within planning := by
  refine within_ask (Or.inl rfl) fun t => within_ask (Or.inr rfl) fun _ => ?_
  refine (within_lift _).bind fun e => Within.uow rfl trivial ?_
  have hbody : (planBody command t e).Within planning :=
    Within.mono (v := searching) (fun _ h => h) (fun _ h => h) (fun _ h => h) False.elim
      (planBody_within command t e)
  exact hbody

end Planning

section Delivering

/-- What the transactions of an attempt need of a vocabulary. -/
structure Attempting (v : Vocabulary Gateway) : Prop where
  now : v.asks .now
  newId : v.asks .newId
  sleep : ∀ seconds, v.asks (.sleep seconds)
  starts : v.opens .startAttempt
  finishes : v.opens .finishAttempt
  registers : ∀ e e' : ToolExecution, e.registerAttempt = .ok e' →
    v.writes (Ledger.saveExecution e')
  adds : ∀ a, v.writes (Ledger.addAttempt a)
  saves : ∀ a, v.writes (Ledger.saveAttempt a)
  closes : v.closes

variable {v : Vocabulary Gateway}

theorem Attempting.startAttempt (hv : Attempting v) (tenantId executionId : Id) :
    (startAttempt tenantId executionId).Within v := by
  have hu := hv.starts
  refine within_ask hv.now fun _ => Within.uow hu hv.closes ?_
  refine (within_getExecution hu).bind fun _ => (within_orRaise _ _).bind fun e => ?_
  refine (within_raiseIf _ _).bind fun _ => within_lift_bind fun e' hregister => ?_
  refine within_ask hv.newId fun _ => (within_lift _).bind fun a => ?_
  refine (within_saveRow hu (hv.registers e e' hregister)).bind fun _ => ?_
  refine Within.bind ?_ fun _ => (within_commit.2 hu).bind fun _ => trivial
  refine within_requireTenant.bind fun _ => (within_claimKey hu).bind fun _ => ?_
  exact (within_claimKey hu).bind fun _ => within_write.2 ⟨hu, hv.adds a⟩

theorem Attempting.finishAttempt (hv : Attempting v) (tenantId attemptId : Id)
    (outcome : AttemptOutcome) : (finishAttempt tenantId attemptId outcome).Within v := by
  have hu := hv.finishes
  refine within_ask hv.now fun _ => Within.uow hu hv.closes ?_
  refine (within_getAttempt hu).bind fun _ => (within_orRaise _ _).bind fun _ => ?_
  refine (within_raiseIf _ _).bind fun _ => (within_lift _).bind fun a => ?_
  refine (within_saveRow hu (hv.saves a)).bind fun _ => ?_
  exact (within_commit.2 hu).bind fun _ => trivial

/-- A retrying executor adds the transactions of its attempts to what it is given. -/
theorem Attempting.retry (hv : Attempting v) {self : ExecuteWithRetry}
    {request : ExecutorRequest} {credential : Option ResolvedCredential}
    (hcall : (self.executor request credential).Within v) :
    (self.execute request credential).Within v := by
  unfold ExecuteWithRetry.execute
  generalize self.maxAttempts = remaining
  generalize 1 = n
  induction remaining generalizing n with
  | zero => trivial
  | succ remaining ih =>
    refine (hv.startAttempt _ _).bind fun attempt => hcall.attempt.bind fun outcome => ?_
    rw [ExecuteWithRetry.record_eq]
    refine (hv.finishAttempt _ _ _).bind fun _ => Within.bind ?_ fun next => ?_
    · unfold ExecuteWithRetry.proceed
      split
      · trivial
      · split
        · exact (within_lift _).bind fun _ =>
            within_ask (hv.sleep _) fun _ => (within_lift _).bind fun _ => trivial
        · trivial
      · trivial
    · cases next with
      | none => exact ih (n + 1)
      | some result => trivial

/-- An executor that is wired hands over what it is given. -/
theorem executor_within (hv : Attempting v) {executor : ToolExecutor} (hwired : Wired executor)
    {request : ExecutorRequest} {credential : Option ResolvedCredential}
    (hcall : v.asks (.executeTool request credential)) :
    (executor request credential).Within v := by
  have hask : (askExecutor request credential).Within v :=
    within_ask hcall fun _ => within_lift _
  cases hwired with
  | direct => exact hask
  | @retrying self hself => exact hv.retry (hself ▸ hask)

/-- What a delivery needs of a vocabulary, save for the secret and the executor. -/
structure Concluding (v : Vocabulary Gateway) : Prop extends Attempting v where
  ends : v.opens .finish
  concludes : ∀ e, v.writes (Ledger.saveExecution e)
  audits : ∀ event, v.writes (Ledger.appendAudit event)

theorem Concluding.finish (hv : Concluding v) (tenantId executionId : Id)
    (outcome : ExecutionOutcome) : (finish tenantId executionId outcome).Within v := by
  have hu := hv.ends
  refine within_ask hv.now fun _ => Within.uow hu hv.closes ?_
  refine (within_getExecution hu).bind fun _ => (within_orRaise _ _).bind fun _ => ?_
  refine (within_raiseIf _ _).bind fun _ => (within_lift _).bind fun e => ?_
  refine (within_saveRow hu (hv.concludes e)).bind fun _ => ?_
  refine (within_executionAudit hv.newId).bind fun _ => ?_
  exact (within_append hu (hv.audits _)).bind fun _ => (within_commit.2 hu).bind fun _ => trivial

/-- The request of a call for its executor. -/
def requestFields (service : CallTool) (command : CallToolCommand) (tool : ResolvedExecutableTool)
    (executionId : Id) : ExecutorRequestFields where
  executionId := executionId
  tool := tool
  arguments := command.val.arguments
  timeoutSeconds := service.timeoutSeconds
  idempotencyKey := command.val.idempotencyKey

theorem callExecutor_within {service : CallTool} {command : CallToolCommand}
    {tool : ResolvedExecutableTool} {executionId : Id} {credential : Option ResolvedCredential}
    (hexecutor : ∀ request : ExecutorRequest,
      request.val = requestFields service command tool executionId →
      (service.executor request credential).Within v) :
    (service.callExecutor command tool executionId credential).Within v :=
  within_lift_bind fun request hrequest => hexecutor request (val_of_construct hrequest)

theorem Concluding.deliver (hv : Concluding v) {service : CallTool} {command : CallToolCommand}
    {cleared : CallTool.Clearance} {e : ToolExecution}
    (hsecret : ∀ binding, cleared.credentialBinding = some binding →
      v.asks (.resolveSecret binding.val.secretReference))
    (hexecutor : ∀ (request : ExecutorRequest) credential,
      request.val = requestFields service command cleared.tool e.val.id →
      (service.executor request credential).Within v) :
    (service.deliver command cleared e).Within v := by
  refine Within.bind (Within.tryCatch ?_ fun x => ?_) fun credential => ?_
  · unfold CallTool.resolveSecret
    split
    · trivial
    · next binding hbinding =>
      refine (within_raiseIf _ _).bind fun _ => within_ask (hsecret binding hbinding) fun _ => ?_
      exact (within_lift _).bind fun _ => trivial
  · rw [CallTool.failCredential.eq_def]
    split
    · trivial
    all_goals exact (hv.finish _ _ _).bind fun _ => trivial
  refine Within.bind (Within.tryCatch ?_ fun x => ?_) fun result => ?_
  · exact callExecutor_within fun request hrequest => hexecutor request credential hrequest
  · rw [CallTool.failExecution.eq_def]
    split
    all_goals exact (hv.finish _ _ _).bind fun _ => trivial
  · exact (hv.finish _ _ _).bind fun _ => trivial

theorem concluding_delivering {supplies : Query → Prop} (hnow : supplies .now)
    (hid : supplies .newId) (hsleep : ∀ seconds, supplies (.sleep seconds)) :
    Concluding (delivering supplies) where
  now := hnow
  newId := hid
  sleep := hsleep
  starts := Or.inl rfl
  finishes := Or.inr (Or.inl rfl)
  registers _ _ _ _ := executionIds_saveExecution _ _
  adds _ _ := rfl
  saves a s := executionIds_saveAttempt a s
  closes := trivial
  ends := Or.inr (Or.inr rfl)
  concludes _ _ := executionIds_saveExecution _ _
  audits _ _ := rfl

theorem deliver_within [Sha256] {service : CallTool} {command : CallToolCommand}
    {cleared : CallTool.Clearance} {e : ToolExecution} (hwired : Wired service.executor)
    (hdigest : command.argumentsDigest = .ok e.val.argumentsDigest) :
    (service.deliver command cleared e).Within (delivering (Supplies command cleared e)) := by
  have hv : Concluding (delivering (Supplies command cleared e)) :=
    concluding_delivering trivial trivial fun _ => trivial
  refine hv.deliver (fun binding h => ⟨binding, h, rfl⟩) fun request credential hrequest => ?_
  refine executor_within hv.toAttempting hwired ⟨?_, ?_, ?_, ?_⟩
  · rw [hrequest]
    rfl
  · rw [hrequest]
    rfl
  · rw [hrequest]
    rfl
  · rw [hrequest]
    exact hdigest

end Delivering

/-! ## What a clearance rests on -/

/-- The input of the policy for a call of a tool. -/
def policyFields (command : CallToolCommand) (cleared : CallTool.Clearance) :
    PolicyEvaluationInputFields where
  tenantId := command.val.context.tenantId
  principal := cleared.principal
  toolId := cleared.tool.toolId
  toolVersionId := cleared.tool.toolVersionId
  action := .call
  sideEffect := cleared.tool.sideEffect
  argumentsDigest := cleared.argumentsDigest

/-- The answers that clear a call, newest first, before its credential binding. -/
def clearingEvents (command : CallToolCommand) (cleared : CallTool.Clearance)
    (input : PolicyEvaluationInput) : List (Event Gateway) :=
  [.asked (.validateEndpoint cleared.tool.upstreamEndpoint) (.ok ()),
    .asked (.evaluatePolicy input) (.ok cleared.decision),
    .asked (.validateArguments cleared.tool.inputSchema command.val.arguments) (.ok ()),
    .asked (.resolveTool command.val.context.tenantId command.val.toolName)
      (.ok (some cleared.tool)),
    .asked (.resolvePrincipal command.val.context) (.ok cleared.principal)]

/-- The events that settle the credential binding. -/
inductive BindingSettled (command : CallToolCommand) (cleared : CallTool.Clearance) :
    List (Event Gateway) → Prop where
  | unauthenticated (h : cleared.credentialBinding = none) : BindingSettled command cleared []
  | resolved {binding} (h : cleared.credentialBinding = some binding) :
    BindingSettled command cleared [.asked (.resolveBinding command.val.context.tenantId
      cleared.principal cleared.tool.toolId cleared.tool.upstreamServiceId) (.ok (some binding))]

/-- How a call is cleared. -/
structure ClearedBy [Sha256] (command : CallToolCommand) (cleared : CallTool.Clearance)
    (events : List (Event Gateway)) : Prop where
  events : ∃ (input : PolicyEvaluationInput) (bindings : List (Event Gateway)),
    input.val = policyFields command cleared ∧ BindingSettled command cleared bindings ∧
      events = bindings ++ clearingEvents command cleared input
  visible : isVisible cleared.tool.visibility cleared.principal.val.principalType = true
  digest : command.argumentsDigest = .ok cleared.argumentsDigest
  effect : cleared.decision.effect ≠ .deny
  approval : cleared.decision.effect = .requireApproval → command.val.approvalId ≠ none

section Clearance

variable {env : Env Gateway} {σ : Session Gateway}

/-- The environment may answer in any way. -/
theorem wp_every_answer {α β : Type} {q : Query} {f : q.Answer → Program β} {k : β → Program α}
    {Q : Except Exc α → Session Gateway → Prop}
    (h : ∀ a, wp env ((f a).bind k) Q (σ.asked q a)) : wp env ((Prog.ask q f).bind k) Q σ :=
  wp_ask_bind (h _)

/-- What ends by raising never returns. -/
theorem wp_bind_raise {α β : Type} {p : Program β} {f : β → Program α}
    {Q : Except Exc α → Session Gateway → Prop} (hf : ∀ b, ∃ e, f b = .raise e)
    (h : ∀ x σ', Q (.error x) σ') : wp env (p.bind f) Q σ := by
  refine wp_bind.2 (wp_mono (fun r σ' _ => ?_) (show wp env p (fun _ _ => True) σ from trivial))
  cases r with
  | error x => exact h x σ'
  | ok b =>
    obtain ⟨e, he⟩ := hf b
    change wp env (f b) Q σ'
    rw [he]
    exact h e σ'

theorem wp_passPolicy (service : CallTool) (command : CallToolCommand)
    (principal : InternalPrincipal) (tool : ResolvedExecutableTool) (digest : String)
    (decision : PolicyDecision) :
    wp env (service.passPolicy command principal tool digest decision) (fun r σ' =>
      r = .ok () → σ' = σ ∧ decision.effect ≠ .deny ∧
        (decision.effect = .requireApproval → command.val.approvalId ≠ none)) σ := by
  unfold CallTool.passPolicy CallTool.deny CallTool.passApprovalGate
  cases heffect : decision.effect with
  | deny => exact wp_bind_raise (fun _ => ⟨_, rfl⟩) fun x σ' h => by cases h
  | allow => exact fun _ => ⟨rfl, by simp, by simp⟩
  | requireApproval =>
    cases happroval : command.val.approvalId with
    | some approvalId => exact fun _ => ⟨rfl, by simp, by simp⟩
    | none =>
      cases service.requestApproval with
      | none => exact fun h => by cases h
      | some requestApproval =>
        exact wp_bind_raise (fun _ => ⟨_, rfl⟩) fun x σ' h => by cases h

theorem wp_resolveCredentialBinding (service : CallTool) (command : CallToolCommand)
    (principal : InternalPrincipal) (tool : ResolvedExecutableTool) :
    wp env (service.resolveCredentialBinding command.val.context.tenantId principal tool)
      (fun r σ' => ∀ cleared : CallTool.Clearance, cleared.principal = principal →
        cleared.tool = tool → r = .ok cleared.credentialBinding →
        ∃ bindings, σ'.trace = bindings ++ σ.trace ∧
          BindingSettled command cleared bindings) σ := by
  unfold CallTool.resolveCredentialBinding
  split
  · intro cleared _ _ h
    exact ⟨[], rfl, .unauthenticated (Except.ok.inj h).symm⟩
  · refine wp_raiseIf_bind (fun _ _ _ _ h => by cases h) fun _ => wp_every_answer ?_
    rintro (x | _ | binding)
    · exact fun _ _ _ h => by cases h
    · exact fun _ _ _ h => by cases h
    · rintro cleared rfl rfl h
      exact ⟨[_], rfl, .resolved (Except.ok.inj h).symm⟩

variable [Sha256]

theorem wp_clear (service : CallTool) (command : CallToolCommand) :
    wp env (service.clear command) (fun r σ' => ∀ cleared, r = .ok cleared →
      ∃ new, σ'.trace = new ++ σ.trace ∧ ClearedBy command cleared new) σ := by
  unfold CallTool.clear
  simp only [Prog.bind_eq, Prog.pure_eq]
  refine wp_every_answer ?_
  -- Principal, tool, arguments, key, decision and credential: each one is asked for in turn,
  -- and the call goes on only if it is cleared.
  rintro (x | principal)
  · exact fun _ h => by cases h
  refine wp_every_answer ?_
  rintro (x | tool)
  · exact fun _ h => by cases h
  refine wp_orRaise_bind (fun _ _ h => by cases h) fun tool htool => ?_
  refine wp_raiseIf_bind (fun _ _ h => by cases h) fun hvisible => wp_every_answer ?_
  rintro (x | _)
  · exact fun _ h => by cases h
  change wp env ((Prog.lift (CallTool.requireKeyUse _ _)).bind _) _ _
  refine wp_lift_bind (fun _ _ _ h => by cases h) fun _ _ => ?_
  refine wp_lift_bind (fun _ _ _ h => by cases h) fun digest hdigest => ?_
  refine wp_lift_bind (fun _ _ _ h => by cases h) fun input hinput => wp_every_answer ?_
  rintro (x | decision)
  · exact fun _ h => by cases h
  change wp env ((service.passPolicy command principal tool digest decision).bind _) _ _
  refine wp_bind.2 (wp_mono ?_ (wp_passPolicy service command principal tool digest decision))
  rintro (x | _) σ₁ hpassed
  · exact fun _ h => by cases h
  obtain ⟨rfl, heffect, happroval⟩ := hpassed rfl
  refine wp_every_answer ?_
  rintro (x | _)
  · exact fun _ h => by cases h
  change wp env ((service.resolveCredentialBinding _ _ _).bind _) _ _
  refine wp_bind.2 (wp_mono ?_ (wp_resolveCredentialBinding service command principal tool))
  rintro (x | binding) σ₂ hbound
  · exact fun _ h => by cases h
  intro cleared hcleared
  have hfields := Except.ok.inj hcleared
  obtain ⟨bindings, htrace, hbindings⟩ :=
    hbound cleared (by rw [← hfields]) (by rw [← hfields]) (by rw [← hfields])
  refine ⟨bindings ++ clearingEvents command cleared input, ?_, ?_⟩
  · have hrun : σ₂.trace = bindings ++ clearingEvents command cleared input ++ σ.trace := by
      rw [htrace, htool, List.append_assoc, ← hfields]
      rfl
    exact hrun
  · refine ⟨⟨input, bindings, ?_, hbindings, rfl⟩, ?_, ?_, ?_, ?_⟩ <;> rw [← hfields]
    · exact val_of_construct hinput
    · simpa using hvisible
    · exact hdigest
    · exact heffect
    · exact happroval

end Clearance

/-! ## What a call is governed by -/

/-- The plan consumed the approval that the command names. -/
def Consumes (command : CallToolCommand) (before after : Ledger) : Prop :=
  ∃ a b, command.val.approvalId = some a.val.id ∧ before.approvals.find? a.val.id = some a ∧
    a.val.status = .approved ∧ after.approvals.find? a.val.id = some b ∧
    b.val.status = .consumed

/-- By the events `past`, the call was cleared, and `e` was planned for it. -/
structure Governed [Sha256] (command : CallToolCommand) (cleared : CallTool.Clearance)
    (e : ToolExecution) (past : List (Event Gateway)) : Prop where
  clearance : ∃ events, ClearedBy command cleared events ∧ ∀ ev ∈ events, ev ∈ past
  planned : ∃ before after, .did .plan .commit before after ∈ past ∧
    Added (CallTool.planCommand command cleared) e before after ∧
    (cleared.decision.effect = .requireApproval → Consumes command before after)
  digest : e.val.argumentsDigest = cleared.argumentsDigest

/-- The answers that refuse a call. -/
inductive CallRefused (command : CallToolCommand) (trace : List (Event Gateway)) : Prop where
  | unknownTool {tenantId name} (h : .asked (.resolveTool tenantId name) (.ok none) ∈ trace)
  | invisible {context principal tenantId name tool}
    (hprincipal : .asked (.resolvePrincipal context) (.ok principal) ∈ trace)
    (htool : .asked (.resolveTool tenantId name) (.ok (some tool)) ∈ trace)
    (h : isVisible tool.visibility principal.val.principalType = false)
  | invalidArguments {schema arguments x}
    (h : .asked (.validateArguments schema arguments) (.error x) ∈ trace)
  | denied {input decision} (h : .asked (.evaluatePolicy input) (.ok decision) ∈ trace)
    (heffect : decision.effect = .deny)
  | pendingApproval {input decision} (h : .asked (.evaluatePolicy input) (.ok decision) ∈ trace)
    (heffect : decision.effect = .requireApproval) (hnone : command.val.approvalId = none)
  | endpoint {endpoint x} (h : .asked (.validateEndpoint endpoint) (.error x) ∈ trace)
  | unbound {tenantId principal toolId upstreamServiceId}
    (h : .asked (.resolveBinding tenantId principal toolId upstreamServiceId) (.ok none) ∈ trace)

/-- The order that a call from `s` keeps, told from what happened in it. -/
structure KeepsOrder [Sha256] (command : CallToolCommand) (s : Ledger) (σ : Session Gateway) :
    Prop where
  governed : ∀ newer ev older, σ.trace = newer ++ ev :: older → Touches ev →
    ∃ cleared e, Governed command cleared e older ∧
      ∀ q a, ev = .asked q a → Supplies command cleared e q
  created : ∀ id ∈ σ.committed.executionIds, id ∉ s.executionIds →
    ∃ cleared e, Governed command cleared e σ.trace ∧ e.val.id = id
  refused : CallRefused command σ.trace →
    (∀ ev ∈ σ.trace, ¬ Touches ev) ∧ σ.committed.executionIds = s.executionIds

/-! ## The parts of a run -/

theorem not_touches_of_clearing {ev : Event Gateway} (h : ev.Within clearing) : ¬ Touches ev := by
  rcases ev with ⟨q, a⟩ | _ | _
  · cases q <;> first | exact id | exact absurd h id
  · exact id
  · exact id

theorem not_touches_of_planning {ev : Event Gateway} (h : ev.Within planning) : ¬ Touches ev := by
  rcases ev with ⟨q, a⟩ | _ | _
  · obtain rfl | rfl := h <;> exact id
  · exact id
  · exact id

section Parts

variable {env : Env Gateway} {σ σ' : Session Gateway}

/-- No session is open, and the ledger keeps its invariant. -/
structure Steady (σ : Session Gateway) : Prop where
  settled : σ.Settled
  inv : LedgerInv σ.committed

/-- What was done by a part of the call that ended with `r`. -/
structure PartDone {α : Type} (v : Vocabulary Gateway)
    (P : Except Exc α → List (Event Gateway) → Prop) (σ : Session Gateway) (r : Except Exc α)
    (σ' : Session Gateway) : Prop where
  steady : Steady σ'
  events : ∃ new, σ'.trace = new ++ σ.trace ∧ (∀ ev ∈ new, ev.Within v) ∧ P r new ∧
    Linked σ.committed (commits new) σ'.committed

/-- The part of a process that has done what the session has. -/
def Session.local (σ : Session Gateway) : Local Gateway :=
  { pending := id, held := [], trace := σ.trace }

theorem wp_steady {α : Type} {p : Program α}
    (hfault : ∀ σ u op x, env.fault σ u op = some x → Interruption x) (hσ : Steady σ)
    (hsafe : ledgerContract.safe Interruption (fun _ l' _ => Clean l') p (Session.local σ)
      σ.committed) :
    wp env p (fun _ σ' => Steady σ') σ := by
  obtain ⟨l', ⟨hpending, -⟩, hview, -, hinv⟩ :=
    run_of_safe (l := Session.local σ) σ hfault hσ.inv hσ.settled rfl hsafe
  refine ⟨?_, hinv⟩
  rw [hpending] at hview
  exact hview

theorem wp_part {α : Type} {v : Vocabulary Gateway} {p : Program α}
    {P : Except Exc α → List (Event Gateway) → Prop}
    (hfault : ∀ σ u op x, env.fault σ u op = some x → Interruption x) (hσ : Steady σ)
    (hwithin : p.Within v)
    (hsafe : ledgerContract.safe Interruption (fun _ l' _ => Clean l') p (Session.local σ)
      σ.committed)
    (hpost : wp env p (fun r σ' => ∃ new, σ'.trace = new ++ σ.trace ∧ P r new) σ) :
    wp env p (PartDone v P σ) σ := by
  obtain ⟨new, hnew, hp⟩ := hpost
  obtain ⟨new', hnew', hlinked, -⟩ := run_continues env p σ
  obtain ⟨new'', hnew'', hevents⟩ := run_within env hwithin σ
  obtain rfl : new' = new := List.append_cancel_right (hnew'.symm.trans hnew)
  obtain rfl : new'' = new' := List.append_cancel_right (hnew''.symm.trans hnew')
  exact ⟨wp_steady hfault hσ hsafe, new'', hnew', hevents, hp, hlinked⟩

theorem wp_plan (hfault : ∀ σ u op x, env.fault σ u op = some x → Interruption x) (hσ : Steady σ)
    (command : PlanExecutionCommand) :
    wp env (plan command) (PartDone planning (fun r new => PlanEnd command new r) σ) σ := by
  have hsafe : ledgerContract.safe Interruption
      (fun r l' s' => Clean l' ∧ PlanPost command (Session.local σ) r l' s') (plan command)
      (Session.local σ) σ.committed := plan_safe (fun _ h => h) ⟨rfl, rfl⟩ command
  refine wp_part hfault hσ (plan_within command) (safe_mono (fun _ _ _ h => h.1) hsafe) ?_
  obtain ⟨l', ⟨-, new, hnew, hend, -⟩, -, htrace, -⟩ :=
    run_of_safe (l := Session.local σ) σ hfault hσ.inv hσ.settled rfl hsafe
  exact ⟨new, htrace.trans hnew, hend⟩

/-- A plan that returns has closed its session. -/
theorem wp_plan_closed (command : PlanExecutionCommand) :
    wp env (plan command) (fun r σ' => r.isOk →
      ∀ u x, .cut u .close x ∈ σ'.trace → .cut u .close x ∈ σ.trace) σ := by
  unfold plan
  simp only [Prog.bind_eq, Prog.pure_eq]
  refine wp_ask_bind (wp_ask_bind (wp_lift_bind (fun _ _ h => by cases h) fun e _ => ?_))
  have hbody : ∀ t, (planBody command t e).Within searching :=
    fun t => planBody_within command t e
  refine wp_mono (fun r σ' h hok u x hmem => ?_) (wp_uow_closed (hbody _) id _)
  -- the time and the identifier were asked for before
  cases h hok u x hmem with
  | tail _ hmem =>
    cases hmem with
    | tail _ hmem => exact hmem

/-- The plan that ended with `r` has added `e` to the executions. -/
structure PlannedIn (command : PlanExecutionCommand) (σ : Session Gateway)
    (r : Except Exc ToolExecution) (σ' : Session Gateway) (e : ToolExecution) : Prop where
  commit : ∃ before after, .did .plan .commit before after ∈ σ'.trace ∧
    Planned command e before after
  returned : ∀ e', r = .ok e' → e' = e
  raised : ∀ x, r = .error x → .cut .plan .close x ∈ σ'.trace
  rows : σ'.committed.executions.rows = σ.committed.executions.rows ++ [e]

theorem PlannedIn.executionIds {command : PlanExecutionCommand} {r : Except Exc ToolExecution}
    {e : ToolExecution} (h : PlannedIn command σ r σ' e) :
    σ'.committed.executionIds = σ.committed.executionIds ++ [e.val.id] := by
  rw [Ledger.executionIds, h.rows, List.map_append]
  rfl

/-- A plan that adds an execution has committed it. -/
theorem planned_of_part {command : PlanExecutionCommand} {r : Except Exc ToolExecution}
    (hplan : PartDone planning (fun r new => PlanEnd command new r) σ r σ') :
    (σ'.committed.executions = σ.committed.executions ∧ ∀ e, r ≠ .ok e) ∨
      ∃ e, PlannedIn command σ r σ' e := by
  obtain ⟨new, htrace, hevents, hend, hlinked⟩ := hplan.events
  -- an approval that had expired leaves the executions alone
  have hlapsed : ∀ {t before after}, commits new = [(before, after)] →
      PlanLapsed command t before after → σ'.committed.executions = σ.committed.executions := by
    intro t before after hcommits hlapsed
    rw [hcommits] at hlinked
    obtain ⟨hafter, hbefore⟩ := hlinked
    have huntouched : Untouched command (fun _ => True) before after := hlapsed.untouched trivial
    rw [hafter, show σ.committed = before from hbefore.symm]
    exact huntouched.executions
  have hrefused : commits new = [] → σ'.committed.executions = σ.committed.executions := by
    intro hcommits
    rw [hcommits] at hlinked
    exact congrArg _ (show σ'.committed = σ.committed from hlinked)
  have hplanned : ∀ {e before after}, commits new = [(before, after)] →
      Planned command e before after → (∀ e', r = .ok e' → e' = e) →
      (∀ x, r = .error x → .cut .plan .close x ∈ σ'.trace) → PlannedIn command σ r σ' e := by
    intro e before after hcommits hplanned hreturned hraised
    obtain ⟨u, hmem⟩ := mem_commits.1 (hcommits ▸ List.mem_singleton_self (before, after))
    obtain rfl : u = .plan := (hevents _ hmem).1
    rw [hcommits] at hlinked
    obtain ⟨hafter, hbefore⟩ := hlinked
    refine ⟨⟨before, after, htrace ▸ List.mem_append_left _ hmem, hplanned⟩, hreturned, hraised, ?_⟩
    rw [hafter, show σ.committed = before from hbefore.symm, hplanned.added.executions]
  cases hend with
  | unclosed hcut hcommits _ h =>
    obtain ⟨e, h⟩ | ⟨t, -, h⟩ := h
    · refine .inr ⟨e, hplanned hcommits h (fun _ h => by cases h) ?_⟩
      rintro _ ⟨⟩
      rw [htrace, hcut]
      exact List.mem_append_left _ List.mem_cons_self
    · exact .inl ⟨hlapsed hcommits h, fun _ h => by cases h⟩
  | closed h =>
    cases h with
    | planned hcommits _ h =>
      exact .inr ⟨_, hplanned hcommits h (fun _ h => (Except.ok.inj h).symm) fun _ h => by cases h⟩
    | lapsed hcommits _ _ h => exact .inl ⟨hlapsed hcommits h, fun _ h => by cases h⟩
    | refused hcommits => exact .inl ⟨hrefused hcommits, fun _ h => by cases h⟩
    | interrupted hcommits => exact .inl ⟨hrefused hcommits, fun _ h => by cases h⟩

theorem wp_cleared [Sha256]
    (hfault : ∀ σ u op x, env.fault σ u op = some x → Interruption x) (hσ : Steady σ)
    (service : CallTool) (command : CallToolCommand) :
    wp env (service.clear command) (fun r σ' =>
      PartDone clearing (fun r new => ∀ cleared, r = .ok cleared → ClearedBy command cleared new)
        σ r σ' ∧ σ'.committed.executionIds = σ.committed.executionIds) σ := by
  have hwithin := clear_within service command
  refine ⟨wp_part hfault hσ hwithin (clear_safe ⟨rfl, rfl⟩ service command) ?_,
    (run_keeps env (fun _ h => h) hwithin (congrArg Ledger.executionIds hσ.settled)).1⟩
  obtain ⟨new, hnew, -⟩ := run_continues env (service.clear command) σ
  refine ⟨new, hnew, fun cleared h => ?_⟩
  obtain ⟨new', hnew', hcleared⟩ := wp_clear service command cleared h
  obtain rfl := List.append_cancel_right (hnew.symm.trans hnew')
  exact hcleared

end Parts

/-! ## The whole call -/

section Order

variable [Sha256] {command : CallToolCommand} {cleared : CallTool.Clearance} {e : ToolExecution}
  {past later events : List (Event Gateway)} {s : Ledger} {σ : Session Gateway}

theorem Governed.mono (h : Governed command cleared e past) (hmem : ∀ ev ∈ past, ev ∈ later) :
    Governed command cleared e later := by
  obtain ⟨⟨events, hcleared, hevents⟩, ⟨before, after, hcommit, hplanned⟩, hdigest⟩ := h
  exact ⟨⟨events, hcleared, fun ev hev => hmem ev (hevents ev hev)⟩,
    ⟨before, after, hmem _ hcommit, hplanned⟩, hdigest⟩

theorem governed_of_planned (hcleared : ClearedBy command cleared events)
    (hevents : ∀ ev ∈ events, ev ∈ past) {before after : Ledger}
    (hcommit : .did .plan .commit before after ∈ past)
    (hplanned : Planned (CallTool.planCommand command cleared) e before after) :
    Governed command cleared e past := by
  have hadded := hplanned.added
  refine ⟨⟨events, hcleared, hevents⟩, ⟨before, after, hcommit, hadded, fun hrequired => ?_⟩, ?_⟩
  · have hnamed : (CallTool.planCommand command cleared).approvalId = command.val.approvalId :=
      if_pos hrequired
    obtain ⟨hnone, -⟩ | ⟨a, b, hid, hfound, happroved, hval, hfound', -⟩ := hadded.approvals
    · exact absurd (hnamed ▸ hnone) (hcleared.approval hrequired)
    · exact ⟨a, b, hnamed ▸ hid, hfound, happroved, hfound', by rw [hval]⟩
  · obtain ⟨hfields, -⟩ := hplanned
    rw [hfields]
    rfl

/-- The answer is the one that the clearance rests on. -/
def PassingAnswer (cleared : CallTool.Clearance) : Event Gateway → Prop
  | .asked (.resolvePrincipal _) answer => answer = .ok cleared.principal
  | .asked (.resolveTool _ _) answer => answer = .ok (some cleared.tool)
  | .asked (.validateArguments _ _) answer => answer = .ok ()
  | .asked (.evaluatePolicy _) answer => answer = .ok cleared.decision
  | .asked (.validateEndpoint _) answer => answer = .ok ()
  | .asked (.resolveBinding _ _ _ _) answer => ∃ binding, answer = .ok (some binding)
  | _ => True

theorem ClearedBy.passes (h : ClearedBy command cleared events) :
    ∀ ev ∈ events, PassingAnswer cleared ev := by
  obtain ⟨⟨input, bindings, -, hbound, rfl⟩, -⟩ := h
  rw [List.forall_mem_append]
  constructor
  · cases hbound with
    | unauthenticated => simp
    | resolved => simp [PassingAnswer]
  · simp [clearingEvents, PassingAnswer]

/-- A call that was cleared has not been refused. -/
theorem not_callRefused (hcleared : ClearedBy command cleared events)
    (hlater : ∀ ev ∈ later, PassingAnswer cleared ev) :
    ¬ CallRefused command (later ++ events) := by
  have hpasses : ∀ ev ∈ later ++ events, PassingAnswer cleared ev :=
    List.forall_mem_append.2 ⟨hlater, hcleared.passes⟩
  rintro (h | ⟨hprincipal, htool, h⟩ | h | ⟨h, hdeny⟩ | ⟨h, hrequired, hnone⟩ | h | h)
  · cases hpasses _ h
  · cases hpasses _ hprincipal
    cases hpasses _ htool
    rw [hcleared.visible] at h
    cases h
  · cases hpasses _ h
  · cases hpasses _ h
    exact hcleared.effect hdeny
  · cases hpasses _ h
    exact hcleared.approval hrequired hnone
  · cases hpasses _ h
  · obtain ⟨binding, h⟩ := hpasses _ h
    cases h

omit [Sha256] in
theorem passes_of_planning {ev : Event Gateway} (h : ev.Within planning) :
    PassingAnswer cleared ev := by
  rcases ev with ⟨q, a⟩ | _ | _
  · obtain rfl | rfl := h <;> trivial
  · trivial
  · trivial

theorem passes_of_delivering {ev : Event Gateway}
    (h : ev.Within (delivering (Supplies command cleared e))) : PassingAnswer cleared ev := by
  rcases ev with ⟨q, a⟩ | _ | _
  · cases q <;> trivial
  · trivial
  · trivial

theorem keepsOrder_of_untouched (htouches : ∀ ev ∈ σ.trace, ¬ Touches ev)
    (hids : σ.committed.executionIds = s.executionIds) : KeepsOrder command s σ where
  governed _ ev _ htrace h :=
    absurd h (htouches ev (htrace ▸ List.mem_append_right _ List.mem_cons_self))
  created _ hid hnew := absurd (hids ▸ hid) hnew
  refused _ := ⟨htouches, hids⟩

/-- A call that was planned and perhaps delivered. -/
theorem keepsOrder_of_planned {σ₂ : Session Gateway} {new planned : List (Event Gateway)}
    (hcleared : ClearedBy command cleared events) (hplanned : ∀ ev ∈ planned, ev.Within planning)
    (htrace₂ : σ₂.trace = planned ++ events) {before after : Ledger}
    (hcommit : .did .plan .commit before after ∈ σ₂.trace)
    (hplan : Planned (CallTool.planCommand command cleared) e before after)
    (htrace : σ.trace = new ++ σ₂.trace)
    (hnew : ∀ ev ∈ new, ev.Within (delivering (Supplies command cleared e)))
    (huntouched : ∀ ev ∈ events, ¬ Touches ev)
    (hids : σ.committed.executionIds = s.executionIds ++ [e.val.id]) :
    KeepsOrder command s σ := by
  have hgoverned : Governed command cleared e σ₂.trace :=
    governed_of_planned hcleared
      (fun ev hev => htrace₂ ▸ List.mem_append_right _ hev) hcommit hplan
  refine ⟨?_, ?_, ?_⟩
  · intro newer ev older hsplit htouches
    have hold : ev ∉ σ₂.trace := by
      rw [htrace₂, List.mem_append]
      rintro (h | h)
      · exact not_touches_of_planning (hplanned ev h) htouches
      · exact huntouched ev h htouches
    -- the event is one of the delivery, so that everything up to the plan came before it
    rw [htrace, List.append_eq_append_iff] at hsplit
    obtain ⟨mid, -, hmid⟩ | ⟨_ | ⟨ev', mid⟩, hmid, hrest⟩ := hsplit
    · exact absurd (hmid ▸ List.mem_append_right _ List.mem_cons_self) hold
    · exact absurd ((show ev :: older = σ₂.trace from hrest) ▸ List.mem_cons_self) hold
    · obtain ⟨rfl, rfl⟩ := List.cons.inj hrest
      refine ⟨cleared, e, hgoverned.mono fun ev hev => List.mem_append_right _ hev, ?_⟩
      rintro q a rfl
      exact hnew _ (hmid ▸ List.mem_append_right _ List.mem_cons_self)
  · intro id hid hnew'
    rw [hids, List.mem_append, List.mem_singleton] at hid
    refine ⟨cleared, e, hgoverned.mono fun ev hev => ?_, (hid.resolve_left hnew').symm⟩
    exact htrace ▸ List.mem_append_right _ hev
  · intro hrefused
    rw [htrace, htrace₂, ← List.append_assoc] at hrefused
    refine absurd hrefused (not_callRefused hcleared (List.forall_mem_append.2 ⟨?_, ?_⟩))
    · exact fun ev hev => passes_of_delivering (hnew ev hev)
    · exact fun ev hev => passes_of_planning (hplanned ev hev)

/-- Secrets and the upstream are touched only by a call that was resolved, validated, allowed,
    accepted by the egress policy and planned, with its approval consumed where one is required,
    and only with what was cleared and recorded; a refused call leaves no execution. -/
theorem governance_order {Pid : Type} {commands : Pid → LedgerCommand}
    {w : World Gateway Pid (fun p => (commands p).Result)} (hw : Reachable commands w)
    (service : CallTool) (hwired : Wired service.executor) (command : CallToolCommand)
    (env : Env Gateway) (hfault : ∀ σ u op x, env.fault σ u op = some x → Interruption x) :
    KeepsOrder command w.store (run env (service.execute command) (.start w.store)).2 := by
  have hstart : Steady (Session.start w.store : Session Gateway) := ⟨rfl, hw.inv⟩
  change wp env (service.execute command) (fun _ σ => KeepsOrder command w.store σ) _
  unfold CallTool.execute
  simp only [Prog.bind_eq]
  refine wp_bind.2 (wp_mono ?_ (wp_cleared hfault hstart service command))
  rintro r σ₁ ⟨⟨hsteady₁, new₁, htrace₁, hevents₁, hcleared, -⟩, hids₁⟩
  have hnothing : (Session.start w.store : Session Gateway).trace = [] := rfl
  rw [hnothing, List.append_nil] at htrace₁
  have huntouched₁ : ∀ ev ∈ new₁, ¬ Touches ev := fun ev hev =>
    not_touches_of_clearing (hevents₁ ev hev)
  cases r with
  -- Refused before the plan: no secret, no upstream call, and no execution.
  | error x => exact keepsOrder_of_untouched (htrace₁ ▸ huntouched₁) hids₁
  | ok cleared =>
  have hcleared := hcleared cleared rfl
  refine wp_bind.2 (wp_mono ?_ (wp_plan hfault hsteady₁ (CallTool.planCommand command cleared)))
  intro r σ₂ hplan
  obtain ⟨new₂, htrace₂, hevents₂, -⟩ := hplan.events
  rw [htrace₁] at htrace₂
  have huntouched₂ : ∀ ev ∈ σ₂.trace, ¬ Touches ev := by
    rw [htrace₂, List.forall_mem_append]
    exact ⟨fun ev hev => not_touches_of_planning (hevents₂ ev hev), huntouched₁⟩
  -- The plan has inserted its execution, or it has left the executions as they were.
  obtain ⟨hsame, hnone⟩ | ⟨e, hadded⟩ := planned_of_part hplan
  · cases r with
    | error x =>
      have hids₂ : σ₂.committed.executionIds = σ₁.committed.executionIds :=
        congrArg (·.rows.map (·.val.id)) hsame
      exact keepsOrder_of_untouched huntouched₂ (hids₂.trans hids₁)
    | ok e => exact absurd rfl (hnone e)
  have hids₂ := hadded.executionIds
  obtain ⟨before, after, hcommit, hplanned⟩ := hadded.commit
  rw [hids₁] at hids₂
  cases r with
  | error x =>
    exact keepsOrder_of_planned hcleared hevents₂ htrace₂ hcommit hplanned (List.nil_append _).symm
      (fun _ h => absurd h List.not_mem_nil) huntouched₁ hids₂
  | ok e' =>
    obtain rfl := hadded.returned e' rfl
    have hdigest : command.argumentsDigest = .ok e'.val.argumentsDigest := by
      obtain ⟨hfields, -⟩ := hplanned
      rw [hfields]
      exact hcleared.digest
    have hwithin : (service.deliver command cleared e').Within
        (delivering (Supplies command cleared e')) := deliver_within hwired hdigest
    -- Secret and upstream are asked in the delivery only, behind the commit of the plan.
    obtain ⟨new₃, htrace₃, hevents₃⟩ := run_within env hwithin σ₂
    have hids₃ := (run_keeps env (fun _ h => h) hwithin
      (congrArg Ledger.executionIds hplan.steady.settled)).1
    exact keepsOrder_of_planned hcleared hevents₂ htrace₂ hcommit hplanned htrace₃ hevents₃
      huntouched₁ (hids₃.trans hids₂)

end Order

section Called

/-- An identifier that is longer than those of all attempts and audits. -/
def newLedgerId (σ : Session Gateway) : Id :=
  String.ofList (List.replicate
    ((σ.view.attempts.rows.map fun a => a.val.id.toList.length).sum +
      (σ.view.audits.rows.map fun event => event.val.id.toList.length).sum + 1) 'a')

def alice : InternalPrincipal where
  val := {
    id := "alice"
    tenantId := "tenant"
    principalType := .agentService
    authnMethod := "key" }
  property := by decide

/-- Alice calls the tool of the race with another key. -/
def aliceCall : CallToolCommand where
  val := {
    context := raceContext "alice"
    toolName := "orders.update"
    arguments := []
    idempotencyKey := some "other" }
  property := by decide

/-- Nothing stands in the way of the call, whose upstream answers as told. -/
def openEnv (outcomes : Nat → Except Exc ExecutorResult) : Env Gateway where
  answer σ
    | .newId => newLedgerId σ
    | .resolvePrincipal _ => .ok alice
    | .resolveTool _ _ => .ok (some raceRequest.val.tool)
    | .validateArguments _ _ => .ok ()
    | .evaluatePolicy _ => .ok ⟨.allow, "policy", "allowed"⟩
    | .validateEndpoint _ => .ok ()
    | .sleep _ => .ok ()
    | .executeTool _ _ => outcomes (callsIn (timeline σ) + 1)
    | q => someAnswer q
  fault _ _ _ := none

/-- The gateway with retries. -/
def retryingCall : CallTool where
  executor := raceRetry.execute
  timeout_pos := by decide +kernel

attribute [local instance] raceSha256

theorem reachable_empty : Reachable raceCommands (LedgerWorld raceCommands) := .refl

theorem governance_order_open :
    (run (openEnv raceOutcomes) (retryingCall.execute aliceCall) (.start .empty)).1.isOk ∧
    KeepsOrder aliceCall .empty
      (run (openEnv raceOutcomes) (retryingCall.execute aliceCall) (.start .empty)).2 :=
  ⟨by decide +kernel, governance_order reachable_empty retryingCall (.retrying rfl) aliceCall
    (openEnv raceOutcomes) fun _ _ _ _ h => by cases h⟩

end Called

end NexusMcp
