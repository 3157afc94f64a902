-- SUMMARY: How planning an execution ends, and what it has committed by then.
import NexusMcp.Execution.Transactions
import NexusMcp.Txn.History

/-!
# Planning

`plan` commits at most once. `PlanEnd` lists its ends together with that commit, and
`plan_safe` shows that there are no others, whatever the other processes do.
-/

namespace NexusMcp

open Txn ExecutionLifecycle Contract

/-! ## What planning commits -/

namespace ExecutionLifecycle

/-- The entry of the unique index that the planned execution will have. -/
def scopeOf (command : PlanExecutionCommand) : Option IdempotencyScope :=
  command.idempotencyKey.map fun key =>
    ⟨command.context.tenantId, command.principalId, command.toolVersionId, key⟩

/-- The commit of a plan that returns `e`: it adds `e` and its `ALLOWED` audit, and
    consumes the approval the command names. -/
inductive Planned (command : PlanExecutionCommand) (e : ToolExecution) :
    Ledger → Ledger → Prop where
  | intro {before consumed t id auditId event}
      (hfields : e.val = { plannedFields command t id with
        status := .running, startedAt := some t })
      (hconsumed : ConsumedFor e.val before consumed)
      (hfree : before.executions.find? e.val.id = none)
      (hunclaimed : ∀ scope, scopeOf command = some scope → before.claimedBy? scope = none)
      (haudit : executionAuditEvent auditId e .allowed e.val.plannedAt = .ok event)
      (hevent : before.audits.find? event.val.id = none) :
      Planned command e before ((consumed.addExecution e).appendAudit event)

theorem Planned.ledgerStep {command : PlanExecutionCommand} {e : ToolExecution}
    {before after : Ledger} (h : Planned command e before after) : LedgerStep before after := by
  obtain ⟨hfields, hconsumed, hfree, hunclaimed, haudit, hevent⟩ := h
  refine .plan hconsumed (by rw [hfields]) (by rw [hfields]; rfl) hfree (fun scope hscope => ?_)
    haudit hevent
  rw [hfields] at hscope
  exact hunclaimed scope hscope

theorem Planned.unclaimed {command : PlanExecutionCommand} {e : ToolExecution}
    {before after : Ledger} (h : Planned command e before after) {scope : IdempotencyScope}
    (hscope : scopeOf command = some scope) : before.claimedBy? scope = none := by
  obtain ⟨-, -, -, hunclaimed, -, -⟩ := h
  exact hunclaimed scope hscope

/-- The commit of a plan at `t` whose approval is found expired. -/
def PlanLapsed (command : PlanExecutionCommand) (t : Time) (before after : Ledger) : Prop :=
  ∃ approvalId, command.approvalId = some approvalId ∧
    ApprovalLapsed (consumeCommand command approvalId) t before after

/-- The lookup found nobody under the command's key. -/
def Unclaimed (command : PlanExecutionCommand) (lookup : Option Ledger) : Prop :=
  ∀ scope, scopeOf command = some scope → ∃ s, lookup = some s ∧ s.claimedBy? scope = none

/-- An operation of the plan found the ledger `s`. -/
def Found (trace : List (Event Gateway)) (s : Ledger) : Prop :=
  ∃ u op s', .did u op s s' ∈ trace

/-- The errors for an identifier that the plan has generated and that is blank, or that the
    ledger has already. -/
inductive GeneratedIdError (trace : List (Event Gateway)) : Exc → Prop where
  | blank {id message} (hid : .asked .newId id ∈ trace) (hblank : isBlank id = true) :
      GeneratedIdError trace (.valueError message)
  | execution {id s} (hid : .asked .newId id ∈ trace) (hfound : Found trace s)
      (htaken : s.executions.find? id ≠ none) :
      GeneratedIdError trace (.integrityError "pk_tool_execution")
  | audit {id s} (hid : .asked .newId id ∈ trace) (hfound : Found trace s)
      (htaken : s.audits.find? id ≠ none) :
      GeneratedIdError trace (.integrityError "pk_audit_event")

/-- The errors of a plan that nobody interrupts and that commits nothing. `lookup` is
    the store its lookup saw. -/
inductive PlanRefusal (command : PlanExecutionCommand) (lookup : Option Ledger)
    (trace : List (Event Gateway)) : Exc → Prop where
  | invalid {message} (hlookup : lookup = none) :
      PlanRefusal command lookup trace (.valueError message)
  | reuse {s scope existing} (hlookup : lookup = some s) (hscope : scopeOf command = some scope)
      (hfound : s.claimedBy? scope = some existing) :
      PlanRefusal command lookup trace (idempotencyReuse existing command.argumentsDigest)
  | approval {approvalId s x} (hlookup : Unclaimed command lookup)
      (hnamed : command.approvalId = some approvalId) (hfound : Found trace s)
      (hrefusal : ApprovalRefusal (consumeCommand command approvalId) s x) :
      PlanRefusal command lookup trace x
  | race {s scope} (hlookup : Unclaimed command lookup) (hfound : Found trace s)
      (hscope : scopeOf command = some scope) (hclaimed : s.claimedBy? scope ≠ none) :
      PlanRefusal command lookup trace
        (.nexus .idempotencyRace "concurrent idempotency claim lost")
  | generated {x} (hlookup : Unclaimed command lookup) (h : GeneratedIdError trace x) :
      PlanRefusal command lookup trace x

theorem Found.cons {trace : List (Event Gateway)} {s : Ledger} (h : Found trace s)
    (ev : Event Gateway) : Found (ev :: trace) s := by
  obtain ⟨u, op, s', hmem⟩ := h
  exact ⟨u, op, s', List.mem_cons_of_mem _ hmem⟩

theorem GeneratedIdError.cons {trace : List (Event Gateway)} {x : Exc}
    (h : GeneratedIdError trace x) (ev : Event Gateway) : GeneratedIdError (ev :: trace) x := by
  cases h with
  | blank hid hblank => exact .blank (List.mem_cons_of_mem _ hid) hblank
  | execution hid hfound htaken =>
    exact .execution (List.mem_cons_of_mem _ hid) (hfound.cons ev) htaken
  | audit hid hfound htaken => exact .audit (List.mem_cons_of_mem _ hid) (hfound.cons ev) htaken

theorem PlanRefusal.cons {command : PlanExecutionCommand} {lookup : Option Ledger}
    {trace : List (Event Gateway)} {x : Exc} (h : PlanRefusal command lookup trace x)
    (ev : Event Gateway) : PlanRefusal command lookup (ev :: trace) x := by
  cases h with
  | invalid hlookup => exact .invalid hlookup
  | reuse hlookup hscope hfound => exact .reuse hlookup hscope hfound
  | approval hlookup hnamed hfound hrefusal =>
    exact .approval hlookup hnamed (hfound.cons ev) hrefusal
  | race hlookup hfound hscope hclaimed => exact .race hlookup (hfound.cons ev) hscope hclaimed
  | generated hlookup h => exact .generated hlookup (h.cons ev)

/-- How the unit of work of a plan ends, given what the plan did. -/
inductive PlanBody (command : PlanExecutionCommand) (trace : List (Event Gateway)) :
    Except Exc ToolExecution → Prop where
  | planned {e before after} (hcommits : commits trace = [(before, after)])
      (hlookup : Unclaimed command (firstSelect trace)) (h : Planned command e before after) :
      PlanBody command trace (.ok e)
  | lapsed {message t before after} (hcommits : commits trace = [(before, after)])
      (hlookup : Unclaimed command (firstSelect trace)) (hnow : firstEvent trace = some (.asked .now t))
      (h : PlanLapsed command t before after) :
      PlanBody command trace (.error (.nexus .approvalExpired message))
  | refused {x} (hcommits : commits trace = [])
      (h : PlanRefusal command (firstSelect trace) trace x) : PlanBody command trace (.error x)
  | interrupted {u op x} (hcommits : commits trace = []) (hcut : .cut u op x ∈ trace) :
      PlanBody command trace (.error x)

/-- How a plan ends: as its unit of work did, unless closing the session failed after the
    commit. -/
inductive PlanEnd (command : PlanExecutionCommand) (trace : List (Event Gateway)) :
    Except Exc ToolExecution → Prop where
  | closed {r} (h : PlanBody command trace r) : PlanEnd command trace r
  | unclosed {before after x rest} (htrace : trace = .cut .plan .close x :: rest)
      (hcommits : commits trace = [(before, after)])
      (hlookup : Unclaimed command (firstSelect trace))
      (h : (∃ e, Planned command e before after) ∨
        ∃ t, firstEvent trace = some (.asked .now t) ∧ PlanLapsed command t before after) :
      PlanEnd command trace (.error x)

variable {command : PlanExecutionCommand}

/-! ## What a commit changes -/

/-- Nothing changed, save that the approval the command names may have moved from
    `APPROVED` to `EXPIRED`, when `clock` showed a time past its expiry. -/
structure Untouched (command : PlanExecutionCommand) (clock : Time → Prop) (s s' : Ledger) :
    Prop where
  executions : s'.executions = s.executions
  attempts : s'.attempts = s.attempts
  audits : s'.audits = s.audits
  approvals : s'.approvals = s.approvals ∨ ∃ a b t, command.approvalId = some a.val.id ∧
    s.approvals.find? a.val.id = some a ∧ a.val.status = .approved ∧ clock t ∧
    a.val.expiresAt ≤ t ∧ b.val = { a.val with status := .expired } ∧
    s'.approvals.find? a.val.id = some b ∧
    ∀ id, id ≠ a.val.id → s'.approvals.find? id = s.approvals.find? id

theorem Untouched.refl (clock : Time → Prop) (s : Ledger) : Untouched command clock s s :=
  ⟨rfl, rfl, rfl, .inl rfl⟩

theorem PlanLapsed.untouched {clock : Time → Prop} {t : Time} {before after : Ledger}
    (h : PlanLapsed command t before after) (ht : clock t) :
    Untouched command clock before after := by
  obtain ⟨approvalId, hnamed, a, hid, hfound, -, ⟨-, rfl⟩ | ⟨b, happroved, hexpire, rfl⟩⟩ := h
  · exact .refl clock _
  · have hrevises := ApprovalRequest.revises_of_expire hexpire
    obtain ⟨-, hlate, hval⟩ := ApprovalRequest.expire_eq_ok.1 hexpire
    rw [if_pos happroved] at hval
    refine ⟨rfl, rfl, rfl, .inr ⟨a, b, t, by rw [hnamed, hid]; rfl, hfound, happroved, ht, hlate,
      hval, Ledger.find?_saveApproval_self hfound hrevises, fun id hne => ?_⟩⟩
    exact Ledger.find?_saveApproval_ne (hrevises.id_eq ▸ hne)

/-- Exactly the running execution `e` and its `ALLOWED` audit were added, and exactly the
    approval the command names was consumed, if it names one. -/
structure Added (command : PlanExecutionCommand) (e : ToolExecution) (s s' : Ledger) : Prop where
  executions : s'.executions.rows = s.executions.rows ++ [e]
  running : e.val.status = .running ∧ e.val.attemptCount = 0
  attempts : s'.attempts = s.attempts
  audits : ∃ event, s'.audits.rows = s.audits.rows ++ [event] ∧ event.val.outcome = .allowed ∧
    event.val.executionId = some e.val.id
  approvals : (command.approvalId = none ∧ s'.approvals = s.approvals) ∨
    ∃ a b, command.approvalId = some a.val.id ∧ s.approvals.find? a.val.id = some a ∧
      a.val.status = .approved ∧
      b.val = { a.val with status := .consumed, consumedAt := some e.val.plannedAt } ∧
      s'.approvals.find? a.val.id = some b ∧
      ∀ id, id ≠ a.val.id → s'.approvals.find? id = s.approvals.find? id

theorem Planned.added {e : ToolExecution} {before after : Ledger}
    (h : Planned command e before after) : Added command e before after := by
  obtain ⟨hfields, hconsumed, hfree, -, haudit, hevent⟩ := h
  obtain ⟨-, hexecution, houtcome, -, -⟩ := executionAuditEvent_ok haudit
  have hrunning : e.val.status = .running ∧ e.val.attemptCount = 0 := by
    rw [hfields]
    exact ⟨rfl, rfl⟩
  have hnamed : e.val.approvalId = command.approvalId := by rw [hfields]; rfl
  cases hconsumed with
  | nothing hnone =>
    exact ⟨Table.rows_insert hfree, hrunning, rfl, ⟨_, Table.rows_insert hevent, houtcome,
      hexecution⟩, .inl ⟨hnamed ▸ hnone, rfl⟩⟩
  | @approval a b hid hfound htenant hconsume =>
    have hrevises := ApprovalRequest.revises_of_consume hconsume
    obtain ⟨happroved, -, -, -, -, -, -, hval⟩ := ApprovalRequest.consume_eq_ok.1 hconsume
    refine ⟨Table.rows_insert hfree, hrunning, rfl, ⟨_, Table.rows_insert hevent, houtcome,
      hexecution⟩, .inr ⟨a, b, hnamed ▸ hid, hfound, happroved, hval,
      Ledger.find?_saveApproval_self hfound hrevises, fun id hne => ?_⟩⟩
    exact Ledger.find?_saveApproval_ne (hrevises.id_eq ▸ hne)

/-! ## Closing the session -/

theorem PlanBody.closed {trace : List (Event Gateway)} {r : Except Exc ToolExecution}
    (h : PlanBody command trace r) (s s' : Ledger) :
    PlanEnd command (.did .plan .close s s' :: trace) r := by
  refine .closed ?_
  cases h with
  | planned hcommits hlookup h => exact .planned hcommits hlookup h
  | lapsed hcommits hlookup hnow h =>
    exact .lapsed hcommits hlookup (firstEvent_cons hnow) h
  | refused hcommits h => exact .refused hcommits (h.cons _)
  | interrupted hcommits hcut => exact .interrupted hcommits (List.mem_cons_of_mem _ hcut)

theorem PlanBody.unclosed {trace : List (Event Gateway)} {r : Except Exc ToolExecution}
    (h : PlanBody command trace r) (x : Exc) :
    PlanEnd command (.cut .plan .close x :: trace) (.error x) := by
  cases h with
  | planned hcommits hlookup h => exact .unclosed rfl hcommits hlookup (.inl ⟨_, h⟩)
  | lapsed hcommits hlookup hnow h =>
    exact .unclosed rfl hcommits hlookup (.inr ⟨_, firstEvent_cons hnow, h⟩)
  | refused hcommits h => exact .closed (.interrupted hcommits List.mem_cons_self)
  | interrupted hcommits _ => exact .closed (.interrupted hcommits List.mem_cons_self)

/-! ## What planning guarantees -/

/-- `e` is in the ledger, perhaps revised since. -/
def Recorded (e : ToolExecution) (s : Ledger) : Prop :=
  ∃ e', s.executions.find? e.val.id = some e' ∧ e'.Revises e

theorem Recorded.steps {e : ToolExecution} {s s' : Ledger} (h : Recorded e s)
    (hsteps : Relation.ReflTransGen LedgerStep s s') : Recorded e s' := by
  obtain ⟨e₁, hfound, hrevises⟩ := h
  obtain ⟨e₂, hfound₂, hrevises₂⟩ := LedgerStep.revised_execution hsteps hfound
  exact ⟨e₂, hfound₂, hrevises.trans hrevises₂⟩

theorem Planned.recorded {e : ToolExecution} {before after : Ledger}
    (h : Planned command e before after) : Recorded e after := by
  obtain ⟨-, hconsumed, hfree, -, -, -⟩ := h
  refine ⟨e, Table.find?_insert_self ?_, .refl e⟩
  cases hconsumed <;> exact hfree

/-- What the unit of work of a plan that started in `l` has done when it ends with `r`. -/
def PlanBodyPost (command : PlanExecutionCommand) (l : Local Gateway)
    (r : Except Exc ToolExecution) (l' : Local Gateway) (s' : Ledger) : Prop :=
  ∃ new, l'.trace = new ++ l.trace ∧ PlanBody command new r ∧ ∀ e, r = .ok e → Recorded e s'

/-- What a plan that started in `l` has done when it ends with `r`. -/
def PlanPost (command : PlanExecutionCommand) (l : Local Gateway)
    (r : Except Exc ToolExecution) (l' : Local Gateway) (s' : Ledger) : Prop :=
  ∃ new, l'.trace = new ++ l.trace ∧ PlanEnd command new r ∧ ∀ e, r = .ok e → Recorded e s'

theorem Unclaimed.append {new old : List (Event Gateway)}
    (h : Unclaimed command (firstSelect old)) : Unclaimed command (firstSelect (new ++ old)) := by
  intro scope hscope
  obtain ⟨s, hs, hfree⟩ := h scope hscope
  exact ⟨s, firstSelect_append hs, hfree⟩

theorem Unclaimed.cons {ev : Event Gateway} {old : List (Event Gateway)}
    (h : Unclaimed command (firstSelect old)) : Unclaimed command (firstSelect (ev :: old)) :=
  List.singleton_append ▸ h.append

/-- The plan that started in `l` at `t` has committed nothing, and found nobody under its
    key. -/
def Searched (command : PlanExecutionCommand) (t : Time) (l l' : Local Gateway) : Prop :=
  ∃ new, l'.trace = new ++ l.trace ∧ commits new = [] ∧ Unclaimed command (firstSelect new) ∧
    firstEvent new = some (.asked .now t)

section Searched

variable {t : Time} {l l' : Local Gateway}

theorem Searched.of_quiet {l'' : Local Gateway} (h : Searched command t l l')
    (hq : l'.Quiet l'') : Searched command t l l'' := by
  obtain ⟨new, htrace, hcommits, hlookup, hnow⟩ := h
  obtain ⟨new', htrace', hcommits'⟩ := hq.commits_eq
  refine ⟨new' ++ new, by rw [htrace', htrace, List.append_assoc], ?_, hlookup.append,
    firstEvent_append hnow⟩
  rw [commits_append, hcommits, hcommits']
  rfl

theorem Searched.refused {x : Exc} {s' : Ledger} (h : Searched command t l l')
    (hrefusal : ∀ new, l'.trace = new ++ l.trace → Unclaimed command (firstSelect new) →
      PlanRefusal command (firstSelect new) new x) :
    PlanBodyPost command l (.error x) l' s' := by
  obtain ⟨new, htrace, hcommits, hlookup, -⟩ := h
  exact ⟨new, htrace, .refused hcommits (hrefusal new htrace hlookup), fun e he => by cases he⟩

/-- Until the commit, an interruption leaves nothing behind. -/
theorem absorbs_of_quiet {Fault : Exc → Prop} (hq : l.Quiet l') :
    Absorbs Fault (PlanBodyPost command l) l' := by
  intro l'' hq' u op x s' hx
  obtain ⟨new, htrace, hcommits⟩ := (hq.trans hq').commits_eq
  refine ⟨.cut u op x :: new, trace_cons htrace, ?_, fun e he => by cases he⟩
  exact .interrupted hcommits List.mem_cons_self

end Searched

/-! ## The steps of a plan -/

theorem plannedExecution_error {t : Time} {id : Id} {x : Exc}
    (h : plannedExecution command t id = .error x) : ∃ message, x = .valueError message := by
  unfold plannedExecution ToolExecution.start at h
  cases hplanned : (construct (plannedFields command t id) : Except Exc ToolExecution) with
  | error e =>
    rw [hplanned] at h
    cases h
    exact ⟨_, (error_of_construct hplanned).2⟩
  | ok e =>
    rw [hplanned] at h
    rcases raiseIf_bind_eq_error.1 h with ⟨-, hx⟩ | ⟨-, hx⟩
    · exact ⟨_, hx⟩
    · exact ⟨_, (error_of_construct hx).2⟩

/-- An execution cannot be audited under a blank identifier only. -/
theorem executionAuditEvent_error {id : Id} {e : ToolExecution} {outcome : AuditOutcome}
    {t : Time} {x : Exc} (h : executionAuditEvent id e outcome t = .error x) :
    isBlank id = true ∧ ∃ message, x = .valueError message := by
  constructor
  · by_contra hblank
    obtain ⟨event, hevent⟩ :=
      executionAuditEvent_of_nonBlank (Bool.eq_false_iff.2 hblank) e outcome t
    rw [hevent] at h
    cases h
  · unfold executionAuditEvent at h
    rw [construct_of_valid (valid_scopeEvidence e)] at h
    exact ⟨_, (error_of_construct h).2⟩

section Steps

variable {Fault : Exc → Prop} {α : Type} {l : Local Gateway} {s : Ledger}
  {Q : Except Exc α → Local Gateway → Ledger → Prop}

/-- The lookup: somebody has the key, or nobody had it when it was looked up. -/
theorem step_rejectReuse {k : Unit → Program α} (hinv : ledgerContract.inv s)
    (hcut : Absorbs Fault Q l) (hpending : l.pending = id)
    (hreuse : ∀ l' s' scope existing, l'.trace = .did .plan .select s' s' :: l.trace →
      scopeOf command = some scope → s'.claimedBy? scope = some existing →
      Q (.error (idempotencyReuse existing command.argumentsDigest)) l' s')
    (hok : ∀ l' s', ledgerContract.Rely l.held s s' → l.Into l' id l.held →
      (∀ scope, scopeOf command = some scope →
        l'.trace = .did .plan .select s' s' :: l.trace ∧ s'.claimedBy? scope = none) →
      ledgerContract.safe Fault Q (k ()) l' s') :
    ledgerContract.safe Fault Q ((rejectReuse command).bind k) l s := by
  unfold rejectReuse
  unfold scopeOf at hreuse hok
  cases hkey : command.idempotencyKey with
  | none =>
    refine hok l s (.refl hinv) ⟨hpending, rfl, .refl l⟩ fun scope hscope => ?_
    rw [hkey] at hscope
    cases hscope
  | some key =>
    unfold Executions.getByIdempotencyKey
    simp only [Prog.bind_eq, Prog.pure_eq, Prog.bind_assoc, Prog.ret_bind]
    refine step_select hcut fun s₁ h₁ => ?_
    rw [hpending]
    cases hfound : s₁.claimedBy? ⟨command.context.tenantId, command.principalId,
        command.toolVersionId, key⟩ with
    | none =>
      simp only [id, hfound]
      refine hok _ s₁ h₁ ⟨hpending, rfl, Local.quiet_did l _ _ s₁ (by simp)⟩ fun scope hscope => ?_
      rw [hkey] at hscope
      cases hscope
      exact ⟨rfl, hfound⟩
    | some existing =>
      simp only [id, hfound]
      exact hreuse _ s₁ _ existing rfl (by rw [hkey]; rfl) hfound

/-- The approval, if one is named: whatever the others do until the commit, it will be
    consumed for the execution `e`. -/
theorem step_consumeForPlan {k : Unit → Program α} {t : Time} {executionId : Id}
    {e : ToolExecutionFields}
    (hfields : e = { plannedFields command t executionId with
      status := .running, startedAt := some t })
    (hfault : ∀ e, Fault e → Interruption e) (hinv : ledgerContract.inv s)
    (hcut : Absorbs Fault Q l) (hpending : l.pending = id) (hheld : l.held = [])
    (hrefuse : ∀ approvalId x l' s', command.approvalId = some approvalId →
      ApprovalRefusal (consumeCommand command approvalId) s' x → l.QuietAt l' s' →
      Q (.error x) l' s')
    (hlapse : ∀ message l' s', l.Quiet l' → PlanLapsed command t s' (l'.pending s') →
      Q (.error (.nexus .approvalExpired message)) (l'.did .plan .commit s') (l'.pending s'))
    (hok : ∀ l' s', ledgerContract.Rely l.held s s' → l.Quiet l' →
      (∀ x, (l'.pending x).executions = x.executions) →
      (∀ x, (l'.pending x).audits = x.audits) →
      (∀ s'', ledgerContract.Rely l'.held s' s'' → ConsumedFor e s'' (l'.pending s'') ∧
        ∀ row, row ∉ l'.held → sameRow row s'' (l'.pending s'')) →
      ledgerContract.safe Fault Q (k ()) l' s') :
    ledgerContract.safe Fault Q ((consumeForPlan command t).bind k) l s := by
  unfold consumeForPlan
  cases hnamed : command.approvalId with
  | none =>
    -- Without an approval nothing is consumed.
    refine hok l s (.refl hinv) (.refl l) (fun x => by rw [hpending, id])
      (fun x => by rw [hpending, id]) fun s' _ => ?_
    rw [hpending]
    exact ⟨.nothing (by rw [hfields]; exact hnamed), fun row _ => sameRow_refl row s'⟩
  | some approvalId =>
    simp only [Prog.bind_eq, Prog.pure_eq, Prog.bind_assoc, Prog.ret_bind]
    refine step_consume hfault hcut hpending hheld
      (fun x l' s' hx hq => hrefuse approvalId x l' s' hnamed hx hq)
      (fun message l' s' hq hlapsed => hlapse message l' s' hq ⟨approvalId, hnamed, hlapsed⟩)
      fun a b l₁ s₁ h₁ into₁ hid hfound htenant hconsume => ?_
    refine hok l₁ s₁ h₁ into₁.quiet (fun x => by rw [into₁.pending]; rfl)
      (fun x => by rw [into₁.pending]; rfl) fun s₂ h₂ => ?_
    rw [into₁.held] at h₂ ⊢
    rw [into₁.pending]
    -- The row is locked, so a later store has it as it was read.
    have hfound₂ : s₂.approvals.find? a.val.id = some a := by
      rw [← h₂.same (.approval a.val.id) (by simp), hfound]
    have hrevises := ApprovalRequest.revises_of_consume hconsume
    refine ⟨.approval ?_ hfound₂ ?_ ?_, fun row hrow => sameRow_saveApproval s₂ ?_⟩
    · rw [hfields, hid]
      exact hnamed
    · rw [hfields]
      exact htenant
    · rw [hfields]
      exact hconsume
    · rw [hrevises.id_eq]
      exact fun h => hrow (by simp [h])

end Steps

/-- Closing the session keeps what the body has done. -/
theorem safe_plan_uow {Fault : Exc → Prop} {l₀ l : Local Gateway} {s : Ledger}
    {body : Program ToolExecution}
    (h : ledgerContract.safe Fault (PlanBodyPost command l₀) body l s) :
    ledgerContract.safe Fault (fun r l' s' => Clean l' ∧ PlanPost command l₀ r l' s')
      (Prog.uow .plan body) l s := by
  refine safe_uow.2 (safe_mono (fun r l' s' hpost s'' hs => ?_) h)
  obtain ⟨new, htrace, hend, hrecorded⟩ := hpost
  refine ⟨fun x hx => ⟨⟨rfl, rfl⟩, _, trace_cons htrace, hend.unclosed x, ?_⟩,
    ⟨rfl, rfl⟩, _, trace_cons htrace, hend.closed s'' _,
    fun e he => (hrecorded e he).steps hs.steps⟩
  exact fun e he => by cases he

/-- Planning keeps the ledger's contract, and ends as `PlanEnd` says. -/
theorem plan_safe {Fault : Exc → Prop} {l : Local Gateway} {s : Ledger}
    (hfault : ∀ e, Fault e → Interruption e) (hl : Clean l) (command : PlanExecutionCommand) :
    ledgerContract.safe Fault (fun r l' s' => Clean l' ∧ PlanPost command l r l' s')
      (plan command) l s := by
  unfold plan executionAudit
  simp only [Prog.bind_eq, Prog.pure_eq, Prog.bind_assoc]
  refine step_now fun s₁ h₁ t => step_newId fun s₂ h₂ executionId => ?_
  have hq₂ : l.Quiet ((l.asked .now t).asked .newId executionId) :=
    (Local.quiet_asked l .now t).trans (Local.quiet_asked (l.asked .now t) .newId executionId)
  have hstart : ∃ new, ((l.asked .now t).asked .newId executionId).trace = new ++ l.trace ∧
      commits new = [] ∧ new.filterMap Event.selected? = [] ∧
      firstEvent new = some (.asked .now t) :=
    ⟨[_, _], rfl, rfl, rfl, rfl⟩
  refine step_lift (fun x hx => ?_) fun e he => ?_
  · obtain ⟨message, rfl⟩ := plannedExecution_error hx
    obtain ⟨new, htrace, hcommits, hlookup, -⟩ := hstart
    refine ⟨hl, new, htrace, .closed (.refused hcommits (.invalid ?_)), fun e he => by cases he⟩
    rw [firstSelect, hlookup]
    rfl
  have hfields := plannedExecution_ok he
  obtain ⟨hpending, hheld⟩ : Clean ((l.asked .now t).asked .newId executionId) := hl
  have hasked : ∀ {l' : Local Gateway} {new}, ((l.asked .now t).asked .newId executionId).Quiet l' →
      l'.trace = new ++ l.trace → .asked .newId executionId ∈ new :=
    (Local.quiet_asked l .now t).mem_between rfl
  -- The clock and the first id are read before the unit of work, and from here on within it.
  refine safe_plan_uow ?_
  generalize (l.asked .now t).asked .newId executionId = l₂ at *
  obtain ⟨new₂, htrace₂, hcommits₂, hlookup₂, hnow₂⟩ := hstart
  refine step_rejectReuse h₂.inv (absorbs_of_quiet hq₂) hpending
    (fun l₃ s₃ scope existing htrace hscope hfound => ?_) fun l₃ s₃ h₃ into₃ hlookup => ?_
  · refine ⟨_ :: new₂, htrace.trans (trace_cons htrace₂), .refused ?_ (.reuse
      (firstSelect_cons hlookup₂) hscope hfound), fun e he => by cases he⟩
    rw [commits_cons, hcommits₂]
    rfl
  -- No earlier execution was found, in the store that the look-up saw.
  have hsearched : Searched command t l l₃ := by
    obtain ⟨new₃, htrace₃, hcommits₃⟩ := into₃.quiet.commits_eq
    refine ⟨new₃ ++ new₂, by rw [htrace₃, htrace₂, List.append_assoc], ?_, fun scope hscope => ?_,
      firstEvent_append hnow₂⟩
    · rw [commits_append, hcommits₂, hcommits₃]
      rfl
    · obtain ⟨htrace, hfree⟩ := hlookup scope hscope
      rw [htrace₃] at htrace
      rw [List.append_cancel_right (htrace.trans List.singleton_append.symm)]
      exact ⟨s₃, firstSelect_cons hlookup₂, hfree⟩
  refine step_consumeForPlan hfields hfault h₃.inv (absorbs_of_quiet (hq₂.trans into₃.quiet))
    into₃.pending (into₃.held.trans hheld)
    (fun approvalId x l' s' hnamed hx hq => (hsearched.of_quiet hq.quiet).refused fun _ htrace h =>
      .approval h hnamed (((hq₂.trans into₃.quiet).transAt hq).mem htrace) hx)
    (fun message l' s' hq hlapsed => ?_) fun l₄ s₄ h₄ hq₄ hexecutions haudits hconsumed => ?_
  -- An approval that has lapsed is saved as expired, and that is committed before the error leaves.
  · obtain ⟨new, htrace, hcommits, hfound, hnow⟩ := hsearched.of_quiet hq
    refine ⟨_ :: new, trace_cons htrace, .lapsed ?_ hfound.cons (firstEvent_cons hnow)
      hlapsed, fun e he => by cases he⟩
    rw [commits_cons, hcommits]
    rfl
  -- The insertion is refused for a taken id, or loses the race for the scope.
  have hid : e.val.id = executionId := by rw [hfields]; rfl
  have hkey : e.val.idempotencyScope = scopeOf command := by rw [hfields]; rfl
  have hq₀₄ := (hq₂.trans into₃.quiet).trans hq₄
  have hsearched₄ := hsearched.of_quiet hq₄
  refine step_addExecution (absorbs_of_quiet hq₀₄) hexecutions (by rw [hfields]; rfl)
    (fun l' s' hq htaken => (hsearched₄.of_quiet hq.quiet).refused fun _ htrace h =>
      .generated h (.execution (hasked ((into₃.quiet.trans hq₄).trans hq.quiet) htrace)
        ((hq₀₄.transAt hq).mem htrace) (hid ▸ htaken)))
    (fun l' s' scope hq hscope hclaimed => (hsearched₄.of_quiet hq.quiet).refused fun _ htrace h =>
      .race h ((hq₀₄.transAt hq).mem htrace) (hkey ▸ hscope) hclaimed)
    fun l₅ s₅ h₅ into₅ hfree hunclaimed => ?_
  have hq₀₅ := hq₀₄.trans into₅.quiet
  have hsearched₅ := hsearched₄.of_quiet into₅.quiet
  refine step_newId fun s₆ h₆ auditId => step_lift (fun x hx => ?_) fun event haudit => ?_
  · obtain ⟨hblank, message, rfl⟩ := executionAuditEvent_error hx
    exact (hsearched₅.of_quiet (Local.quiet_asked _ _ _)).refused fun _ htrace h =>
      .generated h (.blank (hq₀₅.mem_between rfl (.refl _) htrace) hblank)
  have hauditId : event.val.id = auditId := (executionAuditEvent_ok haudit).1
  have hq₆ : l₅.Quiet (l₅.asked .newId auditId) := Local.quiet_asked l₅ _ _
  refine step_appendAudit (absorbs_of_quiet (hq₀₅.trans hq₆)) (fun x => ?_)
    (fun l' s' hq htaken => (hsearched₅.of_quiet (hq₆.trans hq.quiet)).refused fun _ htrace h =>
      .generated h (.audit (hq₀₅.mem_between rfl hq.quiet htrace)
        (((hq₀₅.trans hq₆).transAt hq).mem htrace) (hauditId ▸ htaken)))
    fun l₇ s₇ h₇ into₇ hfreeEvent => ?_
  · rw [Local.asked, into₅.pending]
    exact haudits x
  have hq₇ := hq₆.trans into₇.quiet
  -- Others may commit until this one does, but not to the rows that it holds: what was checked at
  -- the lock holds of them at the commit.
  have hguar : ∀ s₈, ledgerContract.Rely l₇.held s₇ s₈ →
      Planned command e s₈ (l₇.pending s₈) ∧ ledgerContract.Guarantee l₇.held s₈ (l₇.pending s₈) := by
    intro s₈ h₈
    simp only [into₇.held, Local.asked, into₅.held] at h₆ h₇ h₈
    have h₅₈ := (h₆.trans h₇).trans (h₈.weaken fun row hrow => List.mem_cons_of_mem _ hrow)
    obtain ⟨hconsumed₈, hsame₈⟩ := hconsumed s₈
      (h₅.trans (h₅₈.weaken fun row hrow => List.mem_append_right _ hrow))
    have hfree₈ : s₈.executions.find? e.val.id = none :=
      (h₅₈.same (.execution e.val.id) (by simp [mem_executionKeys])) ▸ hfree
    have hfreeEvent₈ : s₈.audits.find? event.val.id = none :=
      (h₈.same (.audit event.val.id) (by simp)) ▸ hfreeEvent
    have hunclaimed₈ : ∀ scope, scopeOf command = some scope → s₈.claimedBy? scope = none := by
      intro scope hscope
      have hown : e.val.idempotencyScope = some scope := hkey.trans hscope
      have hsame : (s₅.claimedBy? scope).isSome = (s₈.claimedBy? scope).isSome :=
        h₅₈.same (.idempotency scope) (by simp [mem_executionKeys, hown])
      rw [hunclaimed scope hown] at hsame
      exact Option.not_isSome_iff_eq_none.1 (by rw [← hsame]; simp)
    have hplannedAt : e.val.plannedAt = t := by rw [hfields]; rfl
    have hplanned : Planned command e s₈ (l₇.pending s₈) := by
      rw [into₇.pending, Local.asked, into₅.pending]
      exact .intro hfields hconsumed₈ hfree₈ hunclaimed₈ (hplannedAt ▸ haudit) hfreeEvent₈
    refine ⟨hplanned, guarantee h₈.inv hplanned.ledgerStep fun row hrow => ?_⟩
    rw [into₇.pending, Local.asked, into₅.pending]
    simp only [into₇.held, Local.asked, into₅.held, List.mem_cons, List.mem_append, not_or,
      mem_executionKeys] at hrow
    obtain ⟨hevent, ⟨hscope, hexecution⟩, hheld⟩ := hrow
    refine sameRow_trans row _ _ _ (hsame₈ row hheld) (sameRow_trans row _ _ _
      (sameRow_addExecution _ hexecution fun scope hs heq => hscope ⟨scope, hs, heq.symm⟩)
      (sameRow_appendAudit _ hevent))
  refine step_commit (absorbs_of_quiet (hq₀₅.trans hq₇)) (fun s₈ h₈ => (hguar s₈ h₈).2)
    fun s₈ h₈ => ?_
  obtain ⟨new, htrace, hcommits, hfound, -⟩ := hsearched₅.of_quiet hq₇
  have hplanned := (hguar s₈ h₈).1
  refine ⟨_ :: new, trace_cons htrace, .planned ?_ hfound.cons hplanned,
    fun e' he' => by cases he'; exact hplanned.recorded⟩
  rw [commits_cons, hcommits]
  rfl

end ExecutionLifecycle

end NexusMcp
