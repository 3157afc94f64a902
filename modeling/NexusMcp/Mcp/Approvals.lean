-- SUMMARY: Who decides an approval: only an explicit answer of a client or an administrator.
import NexusMcp.Approval.Writes
import NexusMcp.Mcp.Attribution

/-!
# Decisions of Approvals

A request decides at most one approval, the one it names. The decision is followed through
the trace of the request to the row that it locked, so that it counts for the row that is
committed.
-/

namespace NexusMcp

open Txn ExecutionLifecycle Contract

/-! ## Decisions -/

/-- The request may take the decision: its client answers the request for an approval, where
    the endpoint admits the call, or an administrator takes it. -/
def GatewayRequest.MayTake : GatewayRequest → DecideApprovalCommand → Prop
  | call server _ ctx params, command =>
    ∃ own scope access, server.contextResolver ctx = .ok own ∧
      resolveEndpointScope ctx = .ok scope ∧
      server.accessFor (own.observed ctx) scope = .ok access ∧
      McpServer.requireInScope access params.name = .ok () ∧
      server.approvalDecision (own.observed ctx) params = .ok (some command)
  | decide own, command => command = own

/-- How a request that may take the decisions in `may` revises an approval. -/
inductive Resolves (may : DecideApprovalCommand → Prop) (a b : ApprovalRequest) : Prop where
  | decided {command t} (hcommand : may command)
      (hid : a.val.id = command.approvalId) (htenant : a.val.tenantId = command.context.tenantId)
      (hdecide : (if command.approved then a.approve command.context.principalId t
        else a.reject command.context.principalId t) = .ok b)
  | expired {t} (hexpire : a.expire t = .ok b)
  | consumed {principalId toolVersionId argumentsDigest policyVersion idempotencyKey t}
      (hconsume : a.consume principalId toolVersionId argumentsDigest policyVersion
        idempotencyKey t = .ok b)

/-- What the buffered writes of a request that may take the decisions in `may` do to the
    approvals. -/
inductive DecisionWrite (may : DecideApprovalCommand → Prop) (l : Local Gateway) : Prop where
  | untouched (h : l.Spares Ledger.approvals)
  | requested {a} (hstatus : a.val.status = .pending)
      (h : ∀ s, (l.pending s).approvals = (s.addApproval a).approvals)
  | revised {a b s newer older} (hlocked : l.Locked (.approval a.val.id) s newer older)
      (hfound : s.approvals.find? a.val.id = some a) (hresolves : Resolves may a b)
      (h : ∀ s, (l.pending s).approvals = (s.saveApproval b).approvals)

section Writes

variable {may : DecideApprovalCommand → Prop} {l l' : Local Gateway}
  {a b : ApprovalRequest}

theorem Resolves.revises (h : Resolves may a b) : b.Revises a := by
  cases h with
  | decided _ _ _ hdecide =>
    split at hdecide
    · exact ApprovalRequest.revises_of_decide (.inl hdecide)
    · exact ApprovalRequest.revises_of_decide (.inr hdecide)
  | expired hexpire => exact ApprovalRequest.revises_of_expire hexpire
  | consumed hconsume => exact ApprovalRequest.revises_of_consume hconsume

theorem DecisionWrite.aside (h : DecisionWrite may l) (haside : Aside l l') :
    DecisionWrite may l' := by
  obtain ⟨new, htrace, hnew, hpending⟩ := haside
  cases h with
  | untouched h => exact .untouched fun s => (hpending s).trans (h s)
  | requested hstatus h => exact .requested hstatus fun s => (hpending s).trans (h s)
  | revised hlocked hfound hresolves h =>
    exact .revised (hlocked.append htrace fun ev hev => (hnew ev hev).1) hfound hresolves
      fun s => (hpending s).trans (h s)

end Writes

/-! ## Programs beside the approvals -/

/-- Everything but a write of the approvals. -/
def sparing : Vocabulary Gateway where
  asks _ := True
  opens _ := True
  writes update := ∀ s : Ledger, (update s).approvals = s.approvals
  closes := True

theorem concluding_sparing : Concluding sparing where
  now := trivial
  newId := trivial
  sleep _ := trivial
  starts := trivial
  finishes := trivial
  registers _ _ _ _ := rfl
  adds _ _ := rfl
  saves _ _ := rfl
  closes := trivial
  ends := trivial
  concludes _ _ := rfl
  audits _ _ := rfl

theorem recordCallDecision_spares (command : RecordCallDecisionCommand) :
    (recordCallDecision command).Within sparing := by
  refine within_ask trivial fun _ => within_ask trivial fun _ => ?_
  refine (Prog.within_lift _).bind fun _ => (Prog.within_lift _).bind fun _ => ?_
  refine Prog.Within.uow trivial trivial ?_
  exact (within_append trivial fun _ => rfl).bind fun _ => Prog.within_commit.2 trivial

theorem recordScopeDenial_spares (command : RecordMcpScopeDenialCommand) :
    (recordScopeDenial command).Within sparing := by
  refine (Prog.within_lift _).bind fun _ => within_ask trivial fun _ => ?_
  refine within_ask trivial fun _ => (Prog.within_lift _).bind fun _ => ?_
  refine Prog.Within.uow trivial trivial ?_
  exact (within_append trivial fun _ => rfl).bind fun _ => Prog.within_commit.2 trivial

theorem deliver_spares {service : CallTool} (hwired : Wired service.executor)
    (command : CallToolCommand) (cleared : CallTool.Clearance) (e : ToolExecution) :
    (service.deliver command cleared e).Within sparing :=
  concluding_sparing.deliver (fun _ _ => trivial) fun _ _ _ =>
    executor_within concluding_sparing.toAttempting hwired trivial

theorem reject_spares [Sha256] (server : McpServer) (context : RequestContext)
    (scope : McpEndpointScope) (access : Option ResolvedToolsetAccess)
    (params : CallToolRequestParams) (cls : ErrorClass) (mode : Option ToolRetrievalMode) :
    (server.reject context scope access params cls mode).Within sparing := by
  unfold McpServer.reject McpServer.recordScopeDenial
  refine Prog.Within.bind (Prog.Within.attempt ?_) fun _ => trivial
  split
  · trivial
  · refine Prog.Within.tryCatch ?_ fun x => by cases x <;> trivial
    exact (Prog.within_lift _).bind fun _ => recordScopeDenial_spares _

/-! ## Each program decides what it may -/

section Programs

variable {α β : Type} {u : UnitOfWork} {tenantId : Id}
  {Q : Except Exc α → Local Gateway → Prop} {l : Local Gateway}
  {may : DecideApprovalCommand → Prop}

/-- The postcondition of a part of a request: nothing is buffered for the approvals. -/
abbrev Spared {γ : Type} (_ : Except Exc γ) (l : Local Gateway) : Prop :=
  l.Spares Ledger.approvals

theorem Spares.traced {p : Program α} (hp : p.Within sparing) (hl : l.Spares Ledger.approvals) :
    p.traced (DecisionWrite may) Spared l :=
  hp.spares (fun _ h => h) (fun _ h => .untouched h) hl

/-- A transaction ends with nothing buffered. -/
theorem uow_spared {body : Program α}
    (h : body.traced (DecisionWrite may) (fun _ _ => True) l) :
    (Prog.uow u body).traced (DecisionWrite may) Spared l :=
  Prog.traced_uow.2 (Prog.traced_mono (fun _ _ _ => ⟨fun _ _ => rfl, fun _ _ => rfl⟩) h)

/-- The parts of a request one after the other. -/
theorem Spared.bind {p : Program β} {f : β → Program α}
    (hp : p.traced (DecisionWrite may) Spared l)
    (hf : ∀ b l', l'.Spares Ledger.approvals → (f b).traced (DecisionWrite may) Spared l') :
    (p.bind f).traced (DecisionWrite may) Spared l := by
  refine Prog.traced_bind.2 (Prog.traced_mono (fun r l' h => ?_) hp)
  cases r with
  | ok b => exact hf b l' h
  | error e => exact h

theorem decision_commit {k : Unit → Program α} (h : DecisionWrite may l)
    (hk : ∀ l', (k ()).traced (DecisionWrite may) (fun _ _ => True) l') :
    ((Prog.commit u).bind k).traced (DecisionWrite may) (fun _ _ => True) l :=
  Prog.traced_bind.2 (Prog.traced_commit.2 ⟨h, fun _ => trivial, fun s => hk (l.did u .commit s)⟩)

/-- A save of an approval that the request has locked. -/
theorem saveApproval_decides {a b : ApprovalRequest} {s : Ledger}
    {newer older : List (Event Gateway)} (hl : l.Spares Ledger.approvals)
    (hlocked : l.Locked (.approval a.val.id) s newer older)
    (hfound : s.approvals.find? a.val.id = some a) (hresolves : Resolves may a b) :
    (Approvals.save u tenantId b).traced (DecisionWrite may)
      (fun _ l' => DecisionWrite may l') l := by
  have hread : LeavesAside ((requireTenant tenantId b.val.tenantId
      "approval crossed tenant boundary").bind fun _ => (Prog.select u).bind fun s =>
        Prog.raiseIf (! (s.approval? tenantId b.val.id).isSome)
          (.valueError "approval does not exist in tenant")) :=
    (LeavesAside.raiseIf _ _).bind fun _ => LeavesAside.select.bind fun _ => .raiseIf _ _
  have hsteps : Approvals.save u tenantId b = ((requireTenant tenantId b.val.tenantId
      "approval crossed tenant boundary").bind fun _ => (Prog.select u).bind fun s =>
        Prog.raiseIf (! (s.approval? tenantId b.val.id).isSome)
          (.valueError "approval does not exist in tenant")).bind
      fun _ => Prog.write u (Ledger.saveApproval b) := by
    simp only [Prog.bind_assoc]
    rfl
  rw [hsteps]
  refine hread.step (fun _ _ h => (DecisionWrite.untouched hl).aside h) fun _ l₁ h₁ => ?_
  obtain ⟨new, htrace, hnew, hpending⟩ := h₁
  have hview : l₁.Spares Ledger.approvals := fun s => (hpending s).trans (hl s)
  refine Prog.traced_write.2 ⟨fun e => .untouched hview, fun s' => ?_⟩
  have hlocked₁ := hlocked.append htrace fun ev hev => (hnew ev hev).1
  have hlocked₂ : (l₁.did u (.write (Ledger.saveApproval b)) s').Locked (.approval a.val.id) s
      ([.did u (.write (Ledger.saveApproval b)) s' s'] ++ (new ++ newer)) older :=
    hlocked₁.append rfl fun ev hev => List.mem_singleton.1 hev ▸ id
  exact .revised hlocked₂ hfound hresolves fun s =>
    congrArg (·.modify b.val.id (updateApprovalModel · b)) (hview s)

theorem decideApproval_decides {command : DecideApprovalCommand} (hcommand : may command)
    (hl : l.Spares Ledger.approvals) :
    (DecideApproval.execute command).traced (DecisionWrite may) Spared l := by
  unfold DecideApproval.execute expireUndecided Approvals.getForUpdate
  simp only [Prog.bind_eq, Prog.pure_eq, Prog.bind_assoc, Prog.ret_bind]
  refine uow_spared (Prog.traced_bind.2 (Prog.traced_lock.2 ⟨fun _ => trivial, fun s => ?_⟩))
  refine Prog.traced_orRaise_bind (fun _ => trivial) fun a ha => ?_
  obtain ⟨hfound, htenant⟩ := Ledger.approval?_eq_some.1 ha
  rw [hl] at hfound
  have hid := Table.key_of_find? hfound
  rw [← hid] at hfound ⊢
  refine Prog.traced_lift_bind (fun _ _ => trivial) fun _ _ => now_traced fun t => ?_
  -- From the lock to the write the row is as it was read, which is what the decision rests on.
  have hgranted := l.locked_did UnitOfWork.decideApproval (LedgerRow.approval a.val.id) s
  have hlocked : ((l.did UnitOfWork.decideApproval (.lock (LedgerRow.approval a.val.id)) s).asked
      .now t).Locked (.approval a.val.id) s [.asked .now t] l.trace :=
    hgranted.append rfl fun ev hev => List.mem_singleton.1 hev ▸ id
  split
  -- An expired request is written as expired, whatever was decided.
  case isTrue hlate =>
    refine Prog.traced_lift_bind (fun _ _ => trivial) fun b hexpire => ?_
    refine Prog.traced_bind.2 (Prog.traced_mono (fun r l₃ h₃ => ?_)
      (saveApproval_decides hl hlocked hfound (.expired hexpire)))
    cases r with
    | error e => trivial
    | ok _ => exact decision_commit h₃ fun _ => trivial
  case isFalse hlate =>
    refine Prog.traced_lift_bind (fun _ _ => trivial) fun b hdecide => ?_
    refine Prog.traced_bind.2 (Prog.traced_mono (fun r l₃ h₃ => ?_)
      (saveApproval_decides hl hlocked hfound (.decided hcommand hid htenant hdecide)))
    cases r with
    | error e => trivial
    | ok _ =>
    refine LeavesAside.newId.step (fun _ _ _ => trivial) fun _ l₄ h₄ => ?_
    refine (LeavesAside.lift _).step (fun _ _ _ => trivial) fun _ l₅ h₅ => ?_
    refine (LeavesAside.appendAudit _).step (fun _ _ _ => trivial) fun _ l₆ h₆ => ?_
    exact decision_commit (h₃.aside ((h₄.trans h₅).trans h₆)) fun _ => trivial

theorem requestApproval_decides (self : RequestApproval) (command : RequestApprovalCommand)
    (hl : l.Spares Ledger.approvals) :
    (self.execute command).traced (DecisionWrite may) Spared l := by
  unfold RequestApproval.execute
  simp only [Prog.bind_eq, Prog.pure_eq]
  refine now_traced fun t => newId_traced fun id => ?_
  refine Prog.traced_lift_bind (fun _ _ => hl) fun a ha => uow_spared ?_
  rw [construct_eq_ok] at ha
  have hkey : LeavesAside ((requireTenant command.context.tenantId a.val.tenantId
      "approval crossed tenant boundary").bind fun _ => claimKey .requestApproval
        (.approval a.val.id) (fun s => (s.approvals.find? a.val.id).isSome)
        (.integrityError "pk_approval_request")) :=
    (LeavesAside.raiseIf _ _).bind fun _ => .claimKey _ _ _
  have hadd : Approvals.add .requestApproval command.context.tenantId a =
      ((requireTenant command.context.tenantId a.val.tenantId
        "approval crossed tenant boundary").bind fun _ => claimKey .requestApproval
          (.approval a.val.id) (fun s => (s.approvals.find? a.val.id).isSome)
          (.integrityError "pk_approval_request")).bind
        fun _ => Prog.write .requestApproval (Ledger.addApproval a) := (Prog.bind_assoc _ _ _).symm
  rw [hadd, Prog.bind_assoc]
  -- The check of the key buffers no write, so the row is inserted as it is.
  refine hkey.step (fun _ _ _ => trivial) fun _ l₁ h₁ => ?_
  obtain ⟨-, -, -, hpending⟩ := h₁
  refine Prog.traced_bind.2 (Prog.traced_write.2 ⟨fun _ => trivial, fun s' => ?_⟩)
  have hwrite : DecisionWrite may
      (l₁.did UnitOfWork.requestApproval (.write (Ledger.addApproval a)) s') :=
    .requested (by rw [ha]) fun s => congrArg (·.insert a) ((hpending s).trans (hl s))
  refine LeavesAside.newId.step (fun _ _ _ => trivial) fun _ l₂ h₂ => ?_
  refine (LeavesAside.lift _).step (fun _ _ _ => trivial) fun _ l₃ h₃ => ?_
  refine (LeavesAside.lift _).step (fun _ _ _ => trivial) fun _ l₄ h₄ => ?_
  refine (LeavesAside.appendAudit _).step (fun _ _ _ => trivial) fun _ l₅ h₅ => ?_
  exact decision_commit (hwrite.aside (((h₂.trans h₃).trans h₄).trans h₅)) fun _ => trivial

theorem consumeLocked_decides {command : ConsumeApprovalCommand} {t : Time}
    (hl : l.Spares Ledger.approvals) :
    (consumeLockedApproval u command t).traced (DecisionWrite may)
      (fun _ l' => DecisionWrite may l') l := by
  unfold consumeLockedApproval Approvals.getForUpdate
  simp only [Prog.bind_eq, Prog.pure_eq, Prog.bind_assoc, Prog.ret_bind]
  refine Prog.traced_bind.2 (Prog.traced_lock.2 ⟨fun _ => .untouched hl, fun s => ?_⟩)
  refine Prog.traced_orRaise_bind (fun _ => .untouched hl) fun a ha => ?_
  obtain ⟨hfound, -⟩ := Ledger.approval?_eq_some.1 ha
  rw [hl] at hfound
  have hid := Table.key_of_find? hfound
  rw [← hid] at hfound ⊢
  have hlocked := l.locked_did u (LedgerRow.approval a.val.id) s
  refine Prog.traced_lift_bind (fun _ _ => .untouched hl) fun _ _ => ?_
  split
  · refine Prog.traced_lift_bind (fun _ _ => .untouched hl) fun b hexpire => ?_
    refine Prog.traced_bind.2 (Prog.traced_mono (fun r l₃ h₃ => ?_)
      (saveApproval_decides hl hlocked hfound (.expired hexpire)))
    cases r <;> exact h₃
  · refine Prog.traced_lift_bind (fun _ _ => .untouched hl) fun _ _ => ?_
    refine Prog.traced_lift_bind (fun _ _ => .untouched hl) fun b hconsume => ?_
    refine Prog.traced_bind.2 (Prog.traced_mono (fun r l₃ h₃ => ?_)
      (saveApproval_decides hl hlocked hfound (.consumed hconsume)))
    cases r <;> exact h₃

/-- An approval that expired is committed as expired. -/
theorem commitExpired_decides {e : Exc} (h : DecisionWrite may l)
    (hQ : ∀ e l', Q (.error e) l') : (commitExpired u e).traced (DecisionWrite may) Q l := by
  unfold commitExpired
  split
  · exact Prog.traced_bind.2 (Prog.traced_commit.2 ⟨h, fun _ => hQ _ _, fun _ => hQ _ _⟩)
  · exact hQ _ _

theorem plan_decides (command : PlanExecutionCommand) (hl : l.Spares Ledger.approvals) :
    (plan command).traced (DecisionWrite may) Spared l := by
  unfold plan consumeForPlan
  simp only [Prog.bind_eq, Prog.pure_eq]
  refine now_traced fun t => newId_traced fun id => ?_
  refine Prog.traced_lift_bind (fun _ _ => hl) fun e he => uow_spared ?_
  refine (LeavesAside.rejectReuse command).step (fun _ _ _ => trivial) fun _ l₁ h₁ => ?_
  obtain ⟨-, -, -, hpending⟩ := h₁
  have hview : l₁.Spares Ledger.approvals := fun s => (hpending s).trans (hl s)
  -- What follows is the same with an approval and without one.
  have hrecord : ∀ l' : Local Gateway, DecisionWrite may l' →
      Prog.traced (DecisionWrite may) (fun _ _ => True)
        ((Executions.add UnitOfWork.plan command.context.tenantId e).bind fun _ =>
          (executionAudit e .allowed t).bind fun event =>
          (Audits.append UnitOfWork.plan event).bind fun _ =>
          (Prog.commit (I := Gateway) UnitOfWork.plan).bind fun _ => .ret e) l' := by
    intro l' h'
    refine (LeavesAside.addExecution _ _).step (fun _ _ _ => trivial) fun _ l₃ h₃ => ?_
    refine (LeavesAside.executionAudit _ _ _).step (fun _ _ _ => trivial) fun _ l₄ h₄ => ?_
    refine (LeavesAside.appendAudit _).step (fun _ _ _ => trivial) fun _ l₅ h₅ => ?_
    exact decision_commit (h'.aside ((h₃.trans h₄).trans h₅)) fun _ => trivial
  cases command.approvalId with
  | none => exact hrecord l₁ (.untouched hview)
  | some approvalId =>
    unfold commitWhenExpired
    simp only [Prog.bind_assoc, Prog.ret_bind]
    refine Prog.traced_bind.2 (Prog.traced_tryCatch.2 (Prog.traced_mono (fun r l₂ h₂ => ?_)
      (consumeLocked_decides hview)))
    cases r with
    | ok b => exact hrecord l₂ h₂
    | error e => exact commitExpired_decides h₂ fun _ _ => trivial

/-! ### Whole requests -/

/-- A part that leaves the approvals alone, and what follows it. -/
theorem Spares.bind {p : Program β} {f : β → Program α} (hp : p.Within sparing)
    (hl : l.Spares Ledger.approvals)
    (hf : ∀ b l', l'.Spares Ledger.approvals → (f b).traced (DecisionWrite may) Spared l') :
    (p.bind f).traced (DecisionWrite may) Spared l :=
  Spared.bind (Spares.traced hp hl) hf

theorem within_port {q : Query} {r : q.Answer → Except Exc β} :
    (Prog.ask q fun a => Prog.lift (r a) : Program β).Within sparing :=
  within_ask trivial fun _ => Prog.within_lift _

theorem passPolicy_decides (service : CallTool) (command : CallToolCommand)
    (principal : InternalPrincipal) (tool : ResolvedExecutableTool) (digest : String)
    (policy : PolicyDecision) (hl : l.Spares Ledger.approvals) :
    (service.passPolicy command principal tool digest policy).traced (DecisionWrite may)
      Spared l := by
  unfold CallTool.passPolicy CallTool.deny CallTool.passApprovalGate
  split
  · exact Spares.bind (recordCallDecision_spares _) hl fun _ _ h => h
  · split
    · exact hl
    · exact hl
    · exact Spared.bind (requestApproval_decides _ _ hl) fun _ _ h => h
  · exact hl

theorem clear_decides [Sha256] (service : CallTool) (command : CallToolCommand)
    (hl : l.Spares Ledger.approvals) :
    (service.clear command).traced (DecisionWrite may) Spared l := by
  unfold CallTool.clear
  simp only [Prog.bind_eq, Prog.pure_eq]
  refine Spares.bind within_port hl fun principal l₁ h₁ => ?_
  refine Spares.bind within_port h₁ fun found l₂ h₂ => ?_
  refine Spares.bind (Prog.within_orRaise _ _) h₂ fun tool l₃ h₃ => ?_
  refine Spares.bind (Prog.within_raiseIf _ _) h₃ fun _ l₄ h₄ => ?_
  refine Spares.bind within_port h₄ fun _ l₅ h₅ => ?_
  refine Spares.bind (Prog.within_lift _) h₅ fun _ l₆ h₆ => ?_
  refine Spares.bind (Prog.within_lift _) h₆ fun digest l₇ h₇ => ?_
  refine Spares.bind (Prog.within_lift _) h₇ fun input l₈ h₈ => ?_
  refine Spares.bind within_port h₈ fun policy l₉ h₉ => ?_
  refine Spared.bind (passPolicy_decides _ _ _ _ _ _ h₉) fun _ l₁₀ h₁₀ => ?_
  refine Spares.bind within_port h₁₀ fun _ l₁₁ h₁₁ => ?_
  refine Spares.bind ?_ h₁₁ fun _ _ h => h
  unfold CallTool.resolveCredentialBinding
  split
  · trivial
  · refine (Prog.within_raiseIf _ _).bind fun _ => within_port.bind fun _ => ?_
    exact (Prog.within_orRaise _ _).bind fun _ => trivial

theorem callTool_decides [Sha256] {service : CallTool} (hwired : Wired service.executor)
    (command : CallToolCommand) (hl : l.Spares Ledger.approvals) :
    (service.execute command).traced (DecisionWrite may) Spared l :=
  Spared.bind (clear_decides service command hl) fun cleared _ h₁ =>
    Spared.bind (plan_decides _ h₁) fun e _ h₂ =>
      Spares.traced (deliver_spares hwired command cleared e) h₂

variable [Sha256] {server : McpServer} {ctx : RawServerContext} {params : CallToolRequestParams}
  {context : RequestContext}

theorem tryCall_decides (access : Option ResolvedToolsetAccess) {service : CallTool}
    (hwired : Wired service.executor)
    (hmay : McpServer.requireInScope access params.name = .ok () → ∀ decision,
      server.approvalDecision context params = .ok (some decision) → may decision)
    (hl : l.Spares Ledger.approvals) :
    (server.tryCall service context access params).traced (DecisionWrite may) Spared l := by
  unfold McpServer.tryCall McpServer.resolveInteractiveApproval
  simp only [Prog.bind_eq, Prog.pure_eq]
  refine Prog.traced_lift_bind (fun _ _ => hl) fun _ hinScope => ?_
  refine Spared.bind ?_ fun _ l₁ h₁ => ?_
  · refine Prog.traced_lift_bind (fun _ _ => hl) fun decision h => ?_
    cases decision with
    | none => exact hl
    | some decision =>
      exact Spared.bind (decideApproval_decides (hmay hinScope decision h) hl) fun _ _ h => h
  · refine Spares.bind (Prog.within_lift _) h₁ fun key l₂ h₂ => ?_
    refine Spares.bind (Prog.within_lift _) h₂ fun command l₃ h₃ => ?_
    exact callTool_decides hwired command h₃

theorem answerCall_decides (scope : McpEndpointScope) (access : Option ResolvedToolsetAccess)
    (outcome : Except Exc CallToolResult) (hl : l.Spares Ledger.approvals) :
    (server.answerCall context scope access params outcome).traced (DecisionWrite may)
      Spared l := by
  unfold McpServer.answerCall
  split
  case h_2 => split <;> exact hl
  case h_3 => exact Spares.traced (reject_spares _ _ _ _ _ _ _) hl
  all_goals exact hl

theorem serve_decides (hwired : ∀ service ∈ server.callTool, Wired service.executor)
    (hmay : ∀ scope access, resolveEndpointScope ctx = .ok scope →
      server.accessFor context scope = .ok access →
      McpServer.requireInScope access params.name = .ok () → ∀ decision,
      server.approvalDecision context params = .ok (some decision) → may decision)
    (hl : l.Spares Ledger.approvals) :
    (server.serve ctx context params).traced (DecisionWrite may) Spared l := by
  unfold McpServer.serve McpServer.serveSearch McpServer.serveCall
  split
  · exact hl
  next scope hscope =>
  split
  · exact Spares.traced (reject_spares _ _ _ _ _ _ _) hl
  · exact hl
  next access haccess =>
  split
  · split
    · exact hl
    · split
      case h_2 => exact Spares.traced (reject_spares _ _ _ _ _ _ _) hl
      all_goals exact hl
  · split
    · exact hl
    next service hservice =>
    refine Prog.traced_bind.2 (Prog.traced_attempt.2 (Prog.traced_mono ?_
      (tryCall_decides access (hwired service hservice) (hmay scope access hscope haccess) hl)))
    exact fun outcome _ h₁ => answerCall_decides _ _ outcome h₁

end Programs

/-- A request commits no decision but the one that it may take. -/
theorem GatewayRequest.decides [Sha256] (request : GatewayRequest) :
    request.program.traced (DecisionWrite request.MayTake) Spared .start := by
  cases request with
  | decide command =>
    have hmay : (decide command).MayTake command := rfl
    exact decideApproval_decides hmay Local.spares_start
  | call server wired ctx params =>
    change (server.onCallTool ctx params).traced _ Spared _
    unfold McpServer.onCallTool
    split
    · exact Local.spares_start
    · exact Local.spares_start
    next own hown =>
    refine Spared.bind (serve_decides wired (fun scope access hscope haccess hinScope decision h =>
      ?_) Local.spares_start) fun _ _ h => h
    exact ⟨own, scope, access, hown, hscope, haccess, hinScope, h⟩

/-! ## Every run -/

/-- The request decided the approval as `approved`, in its own tenant. -/
def GatewayRequest.Decided (request : GatewayRequest) (a : ApprovalFields)
    (approved : Bool) : Prop :=
  ∃ command, request.MayTake command ∧ command.approved = approved ∧
    command.approvalId = a.id ∧ command.context.tenantId = a.tenantId ∧
    a.decidedBy = some command.context.principalId

/-- What is decided was decided by a request. -/
structure ApprovalDecided {Pid : Type} (requests : Pid → GatewayRequest) (a : ApprovalFields) :
    Prop where
  approved : a.status = .approved ∨ a.status = .consumed → ∃ p, (requests p).Decided a true
  rejected : a.status = .rejected → ∃ p, (requests p).Decided a false

section Runs

variable {Pid : Type} {requests : Pid → GatewayRequest} {p : Pid} {a b : ApprovalRequest}

theorem ApprovalDecided.of_pending (h : a.val.status = .pending) :
    ApprovalDecided requests a.val := by
  constructor <;> simp [h]

theorem ApprovalDecided.resolve (h : ApprovalDecided requests a.val)
    (hresolves : Resolves (requests p).MayTake a b) : ApprovalDecided requests b.val := by
  cases hresolves with
  | @decided command t hcommand hid htenant hdecide =>
    split at hdecide
    case isTrue hyes =>
      obtain ⟨-, -, -, hval⟩ := ApprovalRequest.approve_eq_ok.1 hdecide
      rw [hval]
      exact ⟨fun _ => ⟨p, command, hcommand, hyes, hid.symm, htenant.symm, rfl⟩, by simp⟩
    case isFalse hno =>
      obtain ⟨-, -, -, hval⟩ := ApprovalRequest.reject_eq_ok.1 hdecide
      rw [hval]
      refine ⟨by simp, fun _ => ⟨p, command, hcommand, ?_, hid.symm, htenant.symm, rfl⟩⟩
      exact Bool.not_eq_true _ ▸ hno
  | expired hexpire =>
    obtain ⟨-, -, hval⟩ := ApprovalRequest.expire_eq_ok.1 hexpire
    rw [hval]
    constructor <;> split <;> simp
  | consumed hconsume =>
    obtain ⟨hstatus, -, -, -, -, -, -, hval⟩ := ApprovalRequest.consume_eq_ok.1 hconsume
    obtain ⟨q, hq⟩ := h.approved (.inl hstatus)
    rw [hval]
    exact ⟨fun _ => ⟨q, hq⟩, by simp⟩

/-- A commit of a request leaves decided approvals. -/
theorem DecisionWrite.decided {s : Ledger} {l : Local Gateway}
    (hwrite : DecisionWrite (requests p).MayTake l)
    (hlocks : ∀ row s' newer older, l.Locked row s' newer older → sameRow row s' s)
    (hs : ∀ a ∈ s.approvals, ApprovalDecided requests a.val) :
    ∀ a ∈ (l.pending s).approvals, ApprovalDecided requests a.val := by
  intro x hx
  cases hwrite with
  | untouched h => exact hs x (h s ▸ hx)
  | requested hstatus h =>
    rw [h] at hx
    rcases Table.mem_of_mem_insert hx with hx | rfl
    · exact hs x hx
    · exact .of_pending hstatus
  | @revised a b s' newer older hlocked hfound hresolves h =>
    rw [h] at hx
    have hrow : s.approvals.find? a.val.id = some a :=
      (hlocks _ s' newer older hlocked).symm.trans hfound
    rcases (Ledger.mem_saveApproval hrow hresolves.revises).1 hx with ⟨hx, -⟩ | rfl
    · exact hs x hx
    · exact (hs a (Table.mem_of_find? hrow)).resolve hresolves

variable [Sha256] {w : World Gateway Pid (fun p => (requests p).Result)}

theorem Served.decided (h : Served requests w) :
    ∀ a ∈ w.store.approvals, ApprovalDecided requests a.val :=
  have hempty : ∀ a ∈ Ledger.empty.approvals, ApprovalDecided requests a.val :=
    fun _ ha => absurd ha Table.not_mem_empty
  World.invariant_of_traced (C := ledgerContract)
    (fun _ _ _ hwrite hlocks hs => hwrite.decided hlocks hs) Served.start_good
    World.locksHeld_start (fun p => (requests p).decides)
    hempty h

end Runs

/-! ## Explicit answers -/

/-- The request names the approval and answers nothing but the request for it. It approves
    only where the client accepted and the content confirms it. -/
structure AnswersApproval (params : CallToolRequestParams) (approvalId : Id)
    (approved : Bool) : Prop where
  state : params.requestState = some approvalId
  answer : ∃ responses action content, params.inputResponses = some responses ∧
    (∀ response ∈ responses, response.1 = "approval") ∧
    responses.lookup "approval" = some (.elicit action content) ∧
    (approved = true ↔ action = .accept) ∧
    (action = .accept → ∃ fields, content = some fields ∧
      fields.get "approved" = some (.bool true))

theorem McpServer.confirms_eq_true {content : Option JsonObject} (h : confirms content = true) :
    ∃ fields, content = some fields ∧ fields.get "approved" = some (.bool true) := by
  unfold confirms at h
  split at h
  next hvalue => exact Option.bind_eq_some_iff.1 hvalue
  · cases h

theorem McpServer.answers_of_decision {server : McpServer} {context : RequestContext}
    {params : CallToolRequestParams} {command : DecideApprovalCommand}
    (h : server.approvalDecision context params = .ok (some command)) :
    AnswersApproval params command.approvalId command.approved := by
  unfold approvalDecision at h
  split at h
  · cases h
  · cases h
  next responses approvalId hresponses hstate =>
  rw [raiseIf_bind_eq_ok, raiseIf_bind_eq_ok] at h
  obtain ⟨-, hkeys, h⟩ := h
  -- The keys of the responses are compared as a set.
  have honly : ∀ response ∈ responses, response.1 = "approval" := by
    intro response hmem
    have hkey : response.1 ∈ (responses.map Prod.fst).dedup :=
      List.mem_dedup.2 (List.mem_map_of_mem hmem)
    rw [not_not.1 hkeys] at hkey
    exact List.mem_singleton.1 hkey
  split at h
  next content hlookup =>
    rw [raiseIf_bind_eq_ok] at h
    obtain ⟨hconfirms, h⟩ := h
    cases h
    refine ⟨hstate, responses, .accept, content, hresponses, honly, hlookup, by simp, fun _ => ?_⟩
    exact confirms_eq_true (by simpa using hconfirms)
  next action content haccept hlookup =>
    cases h
    have hno : action ≠ .accept := haccept
    exact ⟨hstate, responses, action, content, hresponses, honly, hlookup, by simp [hno],
      fun h => absurd h hno⟩
  · cases h

/-- Who gave the approval its decision. -/
inductive ConfirmedBy (a : ApprovalFields) (approved : Bool) : GatewayRequest → Prop where
  | client {server wired ctx params own scope access}
      (hown : server.contextResolver ctx = .ok own)
      (hscope : resolveEndpointScope ctx = .ok scope)
      (haccess : server.accessFor (own.observed ctx) scope = .ok access)
      (hinScope : McpServer.requireInScope access params.name = .ok ())
      (htenant : own.tenantId = a.tenantId) (hprincipal : a.decidedBy = some own.principalId)
      (hanswer : AnswersApproval params a.id approved) :
      ConfirmedBy a approved (.call server wired ctx params)
  | administrator {command : DecideApprovalCommand} (hid : command.approvalId = a.id)
      (htenant : command.context.tenantId = a.tenantId)
      (hprincipal : a.decidedBy = some command.context.principalId)
      (happroved : command.approved = approved) : ConfirmedBy a approved (.decide command)

theorem GatewayRequest.Decided.confirmed {request : GatewayRequest} {a : ApprovalFields}
    {approved : Bool} (h : request.Decided a approved) : ConfirmedBy a approved request := by
  obtain ⟨command, hmay, happroved, hid, htenant, hprincipal⟩ := h
  cases request with
  | decide own =>
    obtain rfl := hmay
    exact .administrator hid htenant hprincipal happroved
  | call server wired ctx params =>
    obtain ⟨own, scope, access, hown, hscope, haccess, hinScope, hdecision⟩ := hmay
    have hcontext := context_of_decision hdecision
    rw [hcontext] at htenant hprincipal
    have hanswer := McpServer.answers_of_decision hdecision
    rw [hid, happroved] at hanswer
    exact .client hown hscope haccess hinScope htenant hprincipal hanswer

section Runs

variable [Sha256] {Pid : Type} {requests : Pid → GatewayRequest}
  {w : World Gateway Pid (fun p => (requests p).Result)}

/-- In every interleaving of calls and decisions, an approval is given or refused only by an
    explicit answer in its own tenant, and a call that needed one has an approval that was
    given. -/
theorem approvals_confirmed (h : Served requests w) :
    (∀ a ∈ w.store.approvals, a.val.status = .approved ∨ a.val.status = .consumed →
      ∃ p, ConfirmedBy a.val true (requests p)) ∧
    (∀ a ∈ w.store.approvals, a.val.status = .rejected →
      ∃ p, ConfirmedBy a.val false (requests p)) ∧
    ∀ e ∈ w.store.executions, ∀ approvalId, e.val.approvalId = some approvalId →
      ∃ a ∈ w.store.approvals, a.val.id = approvalId ∧ ConsumedBy a.val e.val ∧
        ∃ p, ConfirmedBy a.val true (requests p) := by
  have hdecided := h.decided
  refine ⟨fun a ha hstatus => ?_, fun a ha hstatus => ?_, fun e he approvalId hid => ?_⟩
  · exact ((hdecided a ha).approved hstatus).imp fun _ hp => hp.confirmed
  · exact ((hdecided a ha).rejected hstatus).imp fun _ hp => hp.confirmed
  · obtain ⟨a, hfound, hconsumed⟩ := h.inv.approved e he approvalId hid
    have ha := Table.mem_of_find? hfound
    have hkey := Table.key_of_find? hfound
    refine ⟨a, ha, hkey, hconsumed, ?_⟩
    exact ((hdecided a ha).approved (.inr hconsumed.status)).imp fun _ hp => hp.confirmed

end Runs

/-- Alice's confirmation stands behind the execution. -/
theorem approvals_confirmed_alice :
    confirmWorld.store.executions.rows.map (·.val.approvalId) = [some "approval"] ∧
    ∀ e ∈ confirmWorld.store.executions, ∀ approvalId, e.val.approvalId = some approvalId →
      ∃ a ∈ confirmWorld.store.approvals, a.val.id = approvalId ∧ ConsumedBy a.val e.val ∧
        ∃ p, ConfirmedBy a.val true (confirmRequests p) :=
  ⟨confirmWorld_legal.2.2.1, (@approvals_confirmed raceSha256 _ _ _ confirmWorld_served).2.2⟩

end NexusMcp
