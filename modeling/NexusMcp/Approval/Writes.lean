-- SUMMARY: What each command writes to the approvals, told from its own readings of the clock and its locks.
import NexusMcp.Execution.Commands
import NexusMcp.Txn.Traced

/-!
# Writes of the Approvals

A decision reads the clock after it has locked the approval; a consumption reads it
before. The programs are followed through their own traces, which tell the reading and
the lock that a write rests on.
-/

namespace NexusMcp

open Txn ExecutionLifecycle Contract

/-- The time that reading the clock gave. -/
def clockReading : Event Gateway → Option Time
  | .asked .now t => some t
  | _ => none

/-- The consumption of an approval that a command makes. -/
def LedgerCommand.consumption? : LedgerCommand → Option ConsumeApprovalCommand
  | .consumeApproval command => some command
  | .plan command => command.approvalId.map (consumeCommand command)
  | _ => none

/-! ## Writes of an approval -/

/-- How a process revises an approval `a` that it locked, after `older` and before
    `newer`: it decides or expires it, or it consumes it by its last reading before. -/
inductive Revision (consumption? : Option ConsumeApprovalCommand)
    (newer older : List (Event Gateway)) (a b : ApprovalRequest) : Prop where
  | decided {approverId t} (hread : .asked .now t ∈ newer)
      (hdecide : a.approve approverId t = .ok b ∨ a.reject approverId t = .ok b)
  | expired {t} (hexpire : a.expire t = .ok b)
  | consumed {command t} (hcommand : consumption? = some command)
      (hid : a.val.id = command.approvalId) (htenant : a.val.tenantId = command.context.tenantId)
      (hread : older.findSome? clockReading = some t)
      (hmatch : requireMatchingCall a command = .ok ())
      (hconsume : a.consume command.principalId command.toolVersionId command.argumentsDigest
        command.policyVersion command.idempotencyKey t = .ok b)

section Revision

variable {consumption? : Option ConsumeApprovalCommand} {newer older : List (Event Gateway)}
  {a b : ApprovalRequest}

theorem Revision.revises (h : Revision consumption? newer older a b) : b.Revises a := by
  cases h with
  | decided _ hdecide => exact ApprovalRequest.revises_of_decide hdecide
  | expired hexpire => exact ApprovalRequest.revises_of_expire hexpire
  | consumed _ _ _ _ _ hconsume => exact ApprovalRequest.revises_of_consume hconsume

theorem Revision.append (h : Revision consumption? newer older a b) (new : List (Event Gateway)) :
    Revision consumption? (new ++ newer) older a b := by
  cases h with
  | decided hread hdecide => exact .decided (List.mem_append_right new hread) hdecide
  | expired hexpire => exact .expired hexpire
  | consumed hcommand hid htenant hread hmatch hconsume =>
    exact .consumed hcommand hid htenant hread hmatch hconsume

end Revision

/-- What the buffered writes of a process do to the approvals. -/
inductive ApprovalWrite (consumption? : Option ConsumeApprovalCommand) (l : Local Gateway) :
    Prop where
  | untouched (h : ∀ s, (l.pending s).approvals = s.approvals)
  | requested {a} (hstatus : a.val.status = .pending)
      (hread : .asked .now a.val.requestedAt ∈ l.trace)
      (h : ∀ s, (l.pending s).approvals = (s.addApproval a).approvals)
  | revised {a b s newer older} (hlocked : l.Locked (.approval a.val.id) s newer older)
      (hfound : s.approvals.find? a.val.id = some a)
      (hrevision : Revision consumption? newer older a b)
      (h : ∀ s, (l.pending s).approvals = (s.saveApproval b).approvals)

/-! ## Steps beside the approvals -/

/-- `l'` continues `l` without writing an approval, giving up a row or reading the clock. -/
def Aside (l l' : Local Gateway) : Prop :=
  ∃ new, l'.trace = new ++ l.trace ∧ (∀ ev ∈ new, ¬ ev.Releases ∧ clockReading ev = none) ∧
    ∀ s, (l'.pending s).approvals = (l.pending s).approvals

section Aside

variable {l l' l'' : Local Gateway}

theorem Aside.refl (l : Local Gateway) : Aside l l :=
  ⟨[], rfl, fun _ h => absurd h List.not_mem_nil, fun _ => rfl⟩

theorem Aside.trans (h : Aside l l') (h' : Aside l' l'') : Aside l l'' := by
  obtain ⟨new, htrace, hnew, hpending⟩ := h
  obtain ⟨new', htrace', hnew', hpending'⟩ := h'
  refine ⟨new' ++ new, by rw [htrace', htrace, List.append_assoc], fun ev hev => ?_,
    fun s => (hpending' s).trans (hpending s)⟩
  rcases List.mem_append.1 hev with hmem | hmem
  · exact hnew' ev hmem
  · exact hnew ev hmem

theorem Aside.of_cons {ev : Event Gateway} (htrace : l'.trace = ev :: l.trace)
    (hkeeps : ¬ ev.Releases) (hread : clockReading ev = none)
    (hpending : ∀ s, (l'.pending s).approvals = (l.pending s).approvals) : Aside l l' :=
  ⟨[ev], htrace, fun _ h => List.mem_singleton.1 h ▸ ⟨hkeeps, hread⟩, hpending⟩

theorem Aside.lastReading (h : Aside l l') :
    l'.trace.findSome? clockReading = l.trace.findSome? clockReading := by
  obtain ⟨new, htrace, hnew, -⟩ := h
  have hnone : new.findSome? clockReading = none :=
    List.findSome?_eq_none_iff.2 fun ev hev => (hnew ev hev).2
  rw [htrace, List.findSome?_append, hnone, Option.none_or]

variable {consumption? : Option ConsumeApprovalCommand}

/-- What the buffered writes rest on is still in the trace. -/
theorem ApprovalWrite.aside (h : ApprovalWrite consumption? l) (haside : Aside l l') :
    ApprovalWrite consumption? l' := by
  obtain ⟨new, htrace, hnew, hpending⟩ := haside
  cases h with
  | untouched h => exact .untouched fun s => (hpending s).trans (h s)
  | requested hstatus hread h =>
    exact .requested hstatus (htrace ▸ List.mem_append_right new hread)
      fun s => (hpending s).trans (h s)
  | revised hlocked hfound hrevision h =>
    exact .revised (hlocked.append htrace fun ev hev => (hnew ev hev).1) hfound
      (hrevision.append new) fun s => (hpending s).trans (h s)

end Aside

/-- A program that leaves the approvals aside, and commits nothing. -/
def LeavesAside {α : Type} (p : Program α) : Prop :=
  ∀ P l, p.traced P (fun _ l' => Aside l l') l

namespace LeavesAside

variable {α β : Type} {u : UnitOfWork}

theorem bind {p : Program α} {f : α → Program β} (hp : LeavesAside p)
    (hf : ∀ a, LeavesAside (f a)) : LeavesAside (p.bind f) := by
  intro P l
  refine Prog.traced_bind.2 (Prog.traced_mono (fun r l' h => ?_) (hp P l))
  cases r with
  | ok a => exact Prog.traced_mono (fun _ _ h' => h.trans h') (hf a P l')
  | error e => exact h

theorem lift (r : Except Exc α) : LeavesAside (Prog.lift r : Program α) :=
  fun _ l => Prog.traced_lift.2 (.refl l)

theorem raiseIf (c : Prop) [Decidable c] (e : Exc) : LeavesAside (Prog.raiseIf c e) :=
  fun _ l => Prog.traced_raiseIf.2 ⟨fun _ => .refl l, fun _ => .refl l⟩

theorem select : LeavesAside (Prog.select u) := fun _ _ =>
  Prog.traced_select.2 ⟨fun _ => .of_cons rfl id rfl fun _ => rfl,
    fun _ => .of_cons rfl id rfl fun _ => rfl⟩

theorem lock (row : LedgerRow) : LeavesAside (Prog.lock u row) := fun _ _ =>
  Prog.traced_lock.2 ⟨fun _ => .of_cons rfl id rfl fun _ => rfl,
    fun _ => .of_cons rfl id rfl fun _ => rfl⟩

theorem write {update : Ledger → Ledger} (h : ∀ s, (update s).approvals = s.approvals) :
    LeavesAside (Prog.write u update) := fun _ l =>
  Prog.traced_write.2 ⟨fun _ => .of_cons rfl id rfl fun _ => rfl,
    fun _ => .of_cons rfl id rfl fun s => h (l.pending s)⟩

theorem newId : LeavesAside NexusMcp.newId := fun _ _ _ =>
  .of_cons rfl id rfl fun _ => rfl

theorem claimKey (row : LedgerRow) (taken : Ledger → Bool) (e : Exc) :
    LeavesAside (NexusMcp.claimKey u row taken e) :=
  (lock row).bind fun _ => raiseIf _ e

theorem appendAudit (event : AuditEvent) : LeavesAside (Audits.append u event) :=
  (claimKey _ _ _).bind fun _ => write fun _ => rfl

theorem claimScope (scope? : Option IdempotencyScope) :
    LeavesAside (Executions.claimScope u scope?) := by
  cases scope? with
  | none => exact lift (.ok ())
  | some scope => exact claimKey _ _ _

theorem addExecution (tenantId : Id) (e : ToolExecution) :
    LeavesAside (Executions.add u tenantId e) :=
  (raiseIf _ _).bind fun _ => (claimKey _ _ _).bind fun _ => (claimScope _).bind fun _ =>
    write fun _ => rfl

theorem executionAudit (e : ToolExecution) (outcome : AuditOutcome) (t : Time) :
    LeavesAside (ExecutionLifecycle.executionAudit e outcome t) :=
  newId.bind fun _ => lift _

theorem rejectReuse (command : PlanExecutionCommand) :
    LeavesAside (ExecutionLifecycle.rejectReuse command) := by
  unfold ExecutionLifecycle.rejectReuse
  cases command.idempotencyKey with
  | none => exact lift (.ok ())
  | some key =>
    refine (select.bind fun s => lift (.ok _)).bind fun existing => ?_
    cases existing with
    | none => exact lift (.ok ())
    | some existing => exact lift (.error _)

end LeavesAside

/-! ## The programs of the approvals -/

section Programs

variable {α β : Type} {u : UnitOfWork} {tenantId : Id} {P : Local Gateway → Prop}
  {Q : Except Exc α → Local Gateway → Prop} {l : Local Gateway}
  {consumption? : Option ConsumeApprovalCommand}

theorem LeavesAside.step {p : Program β} {f : β → Program α} (hp : LeavesAside p)
    (herr : ∀ e l', Aside l l' → Q (.error e) l')
    (hok : ∀ b l', Aside l l' → (f b).traced P Q l') : (p.bind f).traced P Q l := by
  refine Prog.traced_bind.2 (Prog.traced_mono (fun r l' h => ?_) (hp P l))
  cases r with
  | ok b => exact hok b l' h
  | error e => exact herr e l' h

theorem now_traced {k : Time → Program α} (hok : ∀ t, (k t).traced P Q (l.asked .now t)) :
    (now.bind k).traced P Q l :=
  hok

theorem newId_traced {k : Id → Program α} (hok : ∀ id, (k id).traced P Q (l.asked .newId id)) :
    (newId.bind k).traced P Q l :=
  hok

theorem traced_uow_true {body : Program α} (h : body.traced P (fun _ _ => True) l) :
    (Prog.uow u body).traced P (fun _ _ => True) l :=
  Prog.traced_uow.2 (Prog.traced_mono (fun _ _ _ => ⟨fun _ => trivial, fun _ => trivial⟩) h)

theorem saveApproval_traced {a b : ApprovalRequest} {s : Ledger}
    {newer older : List (Event Gateway)} (hpending : ∀ s, (l.pending s).approvals = s.approvals)
    (hlocked : l.Locked (.approval a.val.id) s newer older)
    (hfound : s.approvals.find? a.val.id = some a)
    (hrevision : Revision consumption? newer older a b) :
    (Approvals.save u tenantId b).traced (ApprovalWrite consumption?)
      (fun _ l' => ApprovalWrite consumption? l') l := by
  have hread : LeavesAside (requireTenant tenantId b.val.tenantId "approval crossed tenant boundary") :=
    .raiseIf _ _
  refine hread.step (fun _ _ h => (ApprovalWrite.untouched hpending).aside h) fun _ l₁ h₁ => ?_
  refine LeavesAside.select.step (fun _ _ h => ?_) fun _ l₂ h₂ => ?_
  · exact (ApprovalWrite.untouched hpending).aside (h₁.trans h)
  refine (LeavesAside.raiseIf _ _).step (fun _ _ h => ?_) fun _ l₃ h₃ => ?_
  · exact (ApprovalWrite.untouched hpending).aside ((h₁.trans h₂).trans h)
  obtain ⟨new, htrace, hnew, hpending₃⟩ := (h₁.trans h₂).trans h₃
  have hview : ∀ s, (l₃.pending s).approvals = s.approvals := fun s =>
    (hpending₃ s).trans (hpending s)
  refine Prog.traced_write.2 ⟨fun e => .untouched hview, fun s' => ?_⟩
  have hlocked₃ := hlocked.append htrace fun ev hev => (hnew ev hev).1
  have hlocked₄ : (l₃.did u (.write (Ledger.saveApproval b)) s').Locked (.approval a.val.id) s
      ([.did u (.write (Ledger.saveApproval b)) s' s'] ++ (new ++ newer)) older :=
    hlocked₃.append rfl fun ev hev => List.mem_singleton.1 hev ▸ id
  exact .revised hlocked₄ hfound ((hrevision.append new).append _) fun s =>
    congrArg (·.modify b.val.id (updateApprovalModel · b)) (hview s)

theorem addApproval_traced {a : ApprovalRequest} (hpending : ∀ s, (l.pending s).approvals = s.approvals)
    (hstatus : a.val.status = .pending) (hread : .asked .now a.val.requestedAt ∈ l.trace) :
    (Approvals.add u tenantId a).traced (ApprovalWrite consumption?)
      (fun _ l' => ApprovalWrite consumption? l') l := by
  have hkey : LeavesAside ((requireTenant tenantId a.val.tenantId
      "approval crossed tenant boundary").bind fun _ => claimKey u (.approval a.val.id)
        (fun s => (s.approvals.find? a.val.id).isSome) (.integrityError "pk_approval_request")) :=
    (LeavesAside.raiseIf _ _).bind fun _ => .claimKey _ _ _
  have hsteps : Approvals.add u tenantId a = ((requireTenant tenantId a.val.tenantId
      "approval crossed tenant boundary").bind fun _ => claimKey u (.approval a.val.id)
        (fun s => (s.approvals.find? a.val.id).isSome) (.integrityError "pk_approval_request")).bind
      fun _ => Prog.write u (Ledger.addApproval a) := (Prog.bind_assoc _ _ _).symm
  rw [hsteps]
  refine hkey.step (fun _ _ h => (ApprovalWrite.untouched hpending).aside h) fun _ l₁ h₁ => ?_
  obtain ⟨new, htrace, -, hpending₁⟩ := h₁
  have hview : ∀ s, (l₁.pending s).approvals = s.approvals := fun s =>
    (hpending₁ s).trans (hpending s)
  refine Prog.traced_write.2 ⟨fun e => .untouched hview, fun s' => ?_⟩
  refine .requested hstatus ?_ fun s => congrArg (·.insert a) (hview s)
  exact List.mem_cons_of_mem _ (htrace ▸ List.mem_append_right new hread)

/-- A transaction commits what it wrote, and nothing after. -/
theorem commit_traced {k : Unit → Program α} (h : ApprovalWrite consumption? l)
    (hk : ∀ l', (k ()).traced (ApprovalWrite consumption?) (fun _ _ => True) l') :
    ((Prog.commit u).bind k).traced (ApprovalWrite consumption?) (fun _ _ => True) l :=
  Prog.traced_bind.2 (Prog.traced_commit.2 ⟨h, fun _ => trivial, fun s => hk (l.did u .commit s)⟩)

theorem requestApproval_traced (self : RequestApproval) (command : RequestApprovalCommand) :
    (self.execute command).traced (ApprovalWrite consumption?) (fun _ _ => True) .start := by
  unfold RequestApproval.execute
  simp only [Prog.bind_eq, Prog.pure_eq]
  refine now_traced fun t => newId_traced fun id => ?_
  refine Prog.traced_lift_bind (fun _ _ => trivial) fun a ha => traced_uow_true ?_
  rw [construct_eq_ok] at ha
  refine Prog.traced_bind.2 (Prog.traced_mono (fun r l₁ h₁ => ?_)
    (addApproval_traced (fun _ => rfl) (by rw [ha]) (by rw [ha]; simp [Local.asked])))
  cases r with
  | error e => trivial
  | ok _ =>
  refine LeavesAside.newId.step (fun _ _ _ => trivial) fun _ l₂ h₂ => ?_
  refine (LeavesAside.lift _).step (fun _ _ _ => trivial) fun _ l₃ h₃ => ?_
  refine (LeavesAside.lift _).step (fun _ _ _ => trivial) fun _ l₄ h₄ => ?_
  refine (LeavesAside.appendAudit _).step (fun _ _ _ => trivial) fun _ l₅ h₅ => ?_
  exact commit_traced (h₁.aside (((h₂.trans h₃).trans h₄).trans h₅)) fun _ => trivial

theorem decideApproval_traced (command : DecideApprovalCommand) :
    (DecideApproval.execute command).traced (ApprovalWrite consumption?) (fun _ _ => True)
      .start := by
  unfold DecideApproval.execute expireUndecided Approvals.getForUpdate
  simp only [Prog.bind_eq, Prog.pure_eq, Prog.bind_assoc, Prog.ret_bind]
  refine traced_uow_true (Prog.traced_bind.2 (Prog.traced_lock.2 ⟨fun _ => trivial, fun s => ?_⟩))
  refine Prog.traced_orRaise_bind (fun _ => trivial) fun a ha => ?_
  obtain ⟨hfound, -⟩ := Ledger.approval?_eq_some.1 ha
  have hid := Table.key_of_find? hfound
  rw [← hid] at hfound ⊢
  refine Prog.traced_lift_bind (fun _ _ => trivial) fun _ _ => now_traced fun t => ?_
  -- The clock is read with the row in hand.
  have hgranted := (Local.start : Local Gateway).locked_did UnitOfWork.decideApproval
    (LedgerRow.approval a.val.id) s
  have hlocked : (((Local.start : Local Gateway).did UnitOfWork.decideApproval
      (.lock (LedgerRow.approval a.val.id)) s).asked .now t).Locked (.approval a.val.id) s
      [.asked .now t] [] :=
    hgranted.append rfl fun ev hev => List.mem_singleton.1 hev ▸ id
  split
  case isTrue hlate =>
    refine Prog.traced_lift_bind (fun _ _ => trivial) fun b hexpire => ?_
    refine Prog.traced_bind.2 (Prog.traced_mono (fun r l₃ h₃ => ?_)
      (saveApproval_traced (fun _ => rfl) hlocked hfound (.expired hexpire)))
    cases r with
    | error e => trivial
    | ok _ => exact commit_traced h₃ fun _ => trivial
  case isFalse hlate =>
    refine Prog.traced_lift_bind (fun _ _ => trivial) fun b hdecide => ?_
    have hdecided : a.approve command.context.principalId t = .ok b ∨
        a.reject command.context.principalId t = .ok b := by
      split at hdecide
      · exact .inl hdecide
      · exact .inr hdecide
    refine Prog.traced_bind.2 (Prog.traced_mono (fun r l₃ h₃ => ?_)
      (saveApproval_traced (fun _ => rfl) hlocked hfound (.decided List.mem_cons_self hdecided)))
    cases r with
    | error e => trivial
    | ok _ =>
    refine LeavesAside.newId.step (fun _ _ _ => trivial) fun _ l₄ h₄ => ?_
    refine (LeavesAside.lift _).step (fun _ _ _ => trivial) fun _ l₅ h₅ => ?_
    refine (LeavesAside.appendAudit _).step (fun _ _ _ => trivial) fun _ l₆ h₆ => ?_
    exact commit_traced (h₃.aside ((h₄.trans h₅).trans h₆)) fun _ => trivial

/-- Consuming an approval: `t` is the last reading before it is locked. -/
theorem consumeLocked_traced {command : ConsumeApprovalCommand} {t : Time}
    (hcommand : consumption? = some command) (hpending : ∀ s, (l.pending s).approvals = s.approvals)
    (hread : l.trace.findSome? clockReading = some t) :
    (consumeLockedApproval u command t).traced (ApprovalWrite consumption?)
      (fun _ l' => ApprovalWrite consumption? l') l := by
  unfold consumeLockedApproval Approvals.getForUpdate
  simp only [Prog.bind_eq, Prog.pure_eq, Prog.bind_assoc, Prog.ret_bind]
  refine Prog.traced_bind.2 (Prog.traced_lock.2 ⟨fun _ => .untouched hpending, fun s => ?_⟩)
  refine Prog.traced_orRaise_bind (fun _ => .untouched hpending) fun a ha => ?_
  obtain ⟨hfound, htenant⟩ := Ledger.approval?_eq_some.1 ha
  rw [hpending] at hfound
  have hid := Table.key_of_find? hfound
  rw [← hid] at hfound ⊢
  have hlocked := l.locked_did u (LedgerRow.approval a.val.id) s
  refine Prog.traced_lift_bind (fun _ _ => .untouched hpending) fun _ hstatus => ?_
  split
  case isTrue hlate =>
    refine Prog.traced_lift_bind (fun _ _ => .untouched hpending) fun b hexpire => ?_
    refine Prog.traced_bind.2 (Prog.traced_mono (fun r l₃ h₃ => ?_)
      (saveApproval_traced hpending hlocked hfound (.expired hexpire)))
    cases r <;> exact h₃
  case isFalse hlate =>
    refine Prog.traced_lift_bind (fun _ _ => .untouched hpending) fun _ hmatch => ?_
    refine Prog.traced_lift_bind (fun _ _ => .untouched hpending) fun b hconsume => ?_
    refine Prog.traced_bind.2 (Prog.traced_mono (fun r l₃ h₃ => ?_) (saveApproval_traced hpending
      hlocked hfound (.consumed hcommand hid htenant hread hmatch hconsume)))
    cases r <;> exact h₃

theorem commitExpired_traced {e : Exc} (h : ApprovalWrite consumption? l)
    (hQ : ∀ e l', Q (.error e) l') :
    (commitExpired u e).traced (ApprovalWrite consumption?) Q l := by
  unfold commitExpired
  split
  · exact Prog.traced_bind.2 (Prog.traced_commit.2 ⟨h, fun _ => hQ _ _, fun _ => hQ _ _⟩)
  · exact hQ _ _

theorem commitWhenExpired_traced {body : Program β} {k : β → Program α}
    (hbody : body.traced (ApprovalWrite consumption?)
      (fun _ l' => ApprovalWrite consumption? l') l)
    (hk : ∀ b l', ApprovalWrite consumption? l' →
      (k b).traced (ApprovalWrite consumption?) (fun _ _ => True) l') :
    ((commitWhenExpired u body).bind k).traced (ApprovalWrite consumption?)
      (fun _ _ => True) l := by
  unfold commitWhenExpired
  refine Prog.traced_bind.2 (Prog.traced_tryCatch.2 (Prog.traced_mono (fun r l' h => ?_) hbody))
  cases r with
  | ok b => exact hk b l' h
  | error e => exact commitExpired_traced h fun _ _ => trivial

theorem consumeApproval_traced (command : ConsumeApprovalCommand) :
    (ConsumeApproval.execute command).traced (ApprovalWrite (some command)) (fun _ _ => True)
      .start := by
  unfold ConsumeApproval.execute
  simp only [Prog.bind_eq, Prog.pure_eq]
  refine traced_uow_true ?_
  rw [commitWhenExpired_now, Prog.bind_assoc]
  refine now_traced fun t => ?_
  refine commitWhenExpired_traced (consumeLocked_traced rfl (fun _ => rfl) rfl) fun b l' h => ?_
  exact commit_traced h fun _ => trivial

theorem plan_traced (command : PlanExecutionCommand) :
    (plan command).traced (ApprovalWrite (LedgerCommand.plan command).consumption?)
      (fun _ _ => True) .start := by
  unfold plan consumeForPlan
  simp only [Prog.bind_eq, Prog.pure_eq]
  refine now_traced fun t => newId_traced fun id => ?_
  refine Prog.traced_lift_bind (fun _ _ => trivial) fun e he => traced_uow_true ?_
  refine (LeavesAside.rejectReuse command).step (fun _ _ _ => trivial) fun _ l₁ h₁ => ?_
  have hread : l₁.trace.findSome? clockReading = some t := h₁.lastReading
  have hpending : ∀ s, (l₁.pending s).approvals = s.approvals := by
    obtain ⟨-, -, -, hpending⟩ := h₁
    exact hpending
  -- What follows is the same with an approval and without one.
  have hrecord : ∀ l' : Local Gateway,
      ApprovalWrite (LedgerCommand.plan command).consumption? l' →
      Prog.traced (ApprovalWrite (LedgerCommand.plan command).consumption?) (fun _ _ => True)
        ((Executions.add UnitOfWork.plan command.context.tenantId e).bind fun _ =>
          (executionAudit e .allowed t).bind fun event =>
          (Audits.append UnitOfWork.plan event).bind fun _ =>
          (Prog.commit (I := Gateway) UnitOfWork.plan).bind fun _ => .ret e) l' := by
    intro l' h'
    refine (LeavesAside.addExecution _ _).step (fun _ _ _ => trivial) fun _ l₃ h₃ => ?_
    refine (LeavesAside.executionAudit _ _ _).step (fun _ _ _ => trivial) fun _ l₄ h₄ => ?_
    refine (LeavesAside.appendAudit _).step (fun _ _ _ => trivial) fun _ l₅ h₅ => ?_
    exact commit_traced (h'.aside ((h₃.trans h₄).trans h₅)) fun _ => trivial
  cases hnamed : command.approvalId with
  | none => exact hrecord l₁ (.untouched hpending)
  | some approvalId =>
    have hcommand : (LedgerCommand.plan command).consumption? =
        some (consumeCommand command approvalId) := congrArg (Option.map _) hnamed
    simp only [Prog.bind_assoc, Prog.ret_bind]
    exact commitWhenExpired_traced (consumeLocked_traced hcommand hpending hread) fun b l₂ h₂ =>
      hrecord l₂ h₂

end Programs

/-- The command requests, decides or consumes an approval, or plans an execution. -/
def LedgerCommand.OnApprovals : LedgerCommand → Prop
  | .requestApproval _ _ => True
  | .decideApproval _ => True
  | .consumeApproval _ => True
  | .plan _ => True
  | _ => False

theorem LedgerCommand.traced [Sha256] {command : LedgerCommand} (h : command.OnApprovals) :
    command.program.traced (ApprovalWrite command.consumption?) (fun _ _ => True) .start := by
  cases command with
  | requestApproval service command => exact requestApproval_traced service command
  | decideApproval command => exact decideApproval_traced command
  | consumeApproval command => exact consumeApproval_traced command
  | plan command => exact plan_traced command
  | startAttempt => exact h.elim
  | finishAttempt => exact h.elim
  | finish => exact h.elim
  | recordCallDecision => exact h.elim
  | recordScopeDenial => exact h.elim
  | callTool => exact h.elim

theorem Ledger.mem_saveApproval {s : Ledger} {a b x : ApprovalRequest}
    (hfound : s.approvals.find? a.val.id = some a) (h : b.Revises a) :
    x ∈ (s.saveApproval b).approvals ↔ (x ∈ s.approvals ∧ x.val.id ≠ a.val.id) ∨ x = b := by
  unfold Ledger.saveApproval
  rw [h.id_eq]
  exact Table.mem_modify_row hfound h h.id_eq

/-- Where the buffered writes of a process put an approval: it was there, it is a new one,
    or it revises one that the process holds. -/
theorem ApprovalWrite.mem {consumption? : Option ConsumeApprovalCommand} {l : Local Gateway}
    {s : Ledger} {b : ApprovalRequest} (h : ApprovalWrite consumption? l)
    (hlocks : ∀ row s' newer older, l.Locked row s' newer older → sameRow row s' s)
    (hb : b ∈ (l.pending s).approvals) :
    b ∈ s.approvals ∨ (b.val.status = .pending ∧ .asked .now b.val.requestedAt ∈ l.trace) ∨
      ∃ a s' newer older, l.Locked (.approval a.val.id) s' newer older ∧
        s'.approvals.find? a.val.id = some a ∧ a ∈ s.approvals ∧
        Revision consumption? newer older a b := by
  cases h with
  | untouched h => exact .inl (h s ▸ hb)
  | @requested a hstatus hread h =>
    rw [h] at hb
    by_cases hfree : s.approvals.find? a.val.id = none
    · rcases (Table.mem_insert hfree).1 hb with hmem | rfl
      · exact .inl hmem
      · exact .inr (.inl ⟨hstatus, hread⟩)
    · exact .inl (Table.insert_of_taken hfree ▸ hb)
  | @revised a b' s' newer older hlocked hfound hrevision h =>
    rw [h] at hb
    have hrow : s.approvals.find? a.val.id = some a :=
      (hlocks _ s' newer older hlocked).symm.trans hfound
    rcases (Ledger.mem_saveApproval hrow hrevision.revises).1 hb with ⟨hmem, -⟩ | rfl
    · exact .inl hmem
    · exact .inr (.inr ⟨a, s', newer, older, hlocked, hfound, Table.mem_of_find? hrow, hrevision⟩)

end NexusMcp
