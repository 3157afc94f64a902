-- SUMMARY: How the terminal transition of an execution ends, whatever interrupts it.
import NexusMcp.Execution.GovernanceOrder

/-!
# Ending an Execution

A terminal transition of a running execution commits, unless it is interrupted before. Nothing
else that a call does after its plan ends the execution.
-/

namespace NexusMcp

open Txn ExecutionLifecycle Prog

/-! ## A running execution -/

/-- New identifiers are not blank, and those of no attempt and of no audit. -/
structure FreshIds (env : Env Gateway) : Prop where
  attempts : NewIds env
  audits : ∀ σ : Session Gateway, σ.view.audits.find? (env.answer σ .newId) = none

theorem length_newLedgerId (σ : Session Gateway) : (newLedgerId σ).toList.length =
    (σ.view.attempts.rows.map fun a => a.val.id.toList.length).sum +
      (σ.view.audits.rows.map fun event => event.val.id.toList.length).sum + 1 := by
  rw [newLedgerId, String.toList_ofList, List.length_replicate]

theorem freshIds_openEnv (outcomes : Nat → Except Exc ExecutorResult) :
    FreshIds (openEnv outcomes) where
  attempts σ := by
    have hlength := length_newLedgerId σ
    have hblank : isBlank (newLedgerId σ) = false := by
      simp [newLedgerId, isBlank, isSpace]
    have hfree : σ.view.attempts.find? (newLedgerId σ) = none := find?_longer (by omega)
    exact ⟨hblank, hfree⟩
  audits σ := by
    have hlength := length_newLedgerId σ
    have hfree : σ.view.audits.find? (newLedgerId σ) = none := find?_longer (by omega)
    exact hfree

def RunningFor (tenantId executionId : Id) (s : Ledger) : Prop :=
  ∃ e, s.executions.find? executionId = some e ∧ e.val.tenantId = tenantId ∧
    e.val.status = .running

theorem RunningFor.saveExecution {tenantId executionId : Id} {s : Ledger} {e : ToolExecution}
    (h : RunningFor tenantId executionId s) (hrunning : e.val.status = .running) :
    RunningFor tenantId executionId (s.saveExecution e) := by
  obtain ⟨x, hfound, htenant, hstatus⟩ := h
  have hid := Table.key_of_find? hfound
  by_cases hsame : executionId = e.val.id
  · subst hsame
    exact ⟨updateExecutionModel x e, Table.find?_modify_self hfound hid, htenant, hrunning⟩
  · refine ⟨x, ?_, htenant, hstatus⟩
    rw [Ledger.find?_saveExecution_ne hsame]
    exact hfound

/-! ## The terminal transition -/

/-- A terminal transition was interrupted before its commit. -/
def FinishCut (trace : List (Event Gateway)) : Prop :=
  ∃ op x, .cut .finish op x ∈ trace ∧ op ≠ .close

/-- How the terminal transition of `e` ends. -/
inductive FinishEnd (outcome : ExecutionOutcome) (e : ToolExecution) (σ σ' : Session Gateway) :
    Prop where
  | interrupted (hcut : FinishCut σ'.trace) (hsame : σ'.committed = σ.committed)
  | finished {e' : ToolExecution} {t : Time} {event : AuditEvent}
    (hfinish : outcome.transition e t = .ok e')
    (hcommitted : σ'.committed = (σ.committed.saveExecution e').appendAudit event)
    (huncut : ¬ FinishCut σ'.trace)

/-- A running execution can end in any way. -/
theorem exists_conclusion {e : ToolExecution} (hrunning : e.val.status = .running)
    (outcome : ExecutionOutcome) (t : Time) : ∃ e', outcome.transition e t = .ok e' := by
  obtain ⟨hcode, hcategory⟩ := ToolExecution.no_error_of_running hrunning
  have hfailed : ∀ {status code category}, status ≠ .succeeded → status.Terminal →
      Valid { e.val with
        status := status, errorCode := some code, errorCategory := some category,
        finishedAt := some t } :=
    fun hne hterminal => ToolExecution.valid_terminal t hterminal (fun h => absurd h hne)
      fun _ => ⟨rfl, rfl⟩
  cases outcome with
  | succeeded =>
    have hvalid : Valid { e.val with
        status := .succeeded, errorCode := none, errorCategory := none, finishedAt := some t } :=
      ToolExecution.valid_terminal t (.inl rfl) (fun _ => ⟨rfl, rfl⟩) fun h => absurd rfl h
    refine ⟨⟨_, hvalid⟩, ToolExecution.succeed_eq_ok.2 ⟨hrunning, ?_⟩⟩
    simp [hcode, hcategory]
  | failed code category =>
    exact ⟨⟨_, hfailed (by decide) (by decide)⟩, ToolExecution.fail_eq_ok.2 ⟨hrunning, rfl⟩⟩
  | unknown code =>
    exact ⟨⟨_, hfailed (by decide) (by decide)⟩, ToolExecution.markUnknown_eq_ok.2 ⟨hrunning, rfl⟩⟩
  | cancelled =>
    exact ⟨⟨_, hfailed (by decide) (by decide)⟩, ToolExecution.cancel_eq_ok.2 ⟨.inr hrunning, rfl⟩⟩

section Finish

variable {env : Env Gateway} {σ : Session Gateway} {tenantId executionId : Id}

theorem wp_finish (hids : FreshIds env) (hσ : σ.Settled) (huncut : ¬ FinishCut σ.trace)
    {e : ToolExecution} (hfound : σ.committed.executions.find? executionId = some e)
    (htenant : e.val.tenantId = tenantId) (hrunning : e.val.status = .running)
    (outcome : ExecutionOutcome) :
    wp env (finish tenantId executionId outcome) (fun _ σ' => FinishEnd outcome e σ σ') σ := by
  obtain ⟨e', hfinish⟩ := exists_conclusion hrunning outcome (env.answer σ .now)
  have hrevises := ToolExecution.revises_of_finish hfinish
  have hexecution : σ.committed.execution? tenantId executionId = some e :=
    Ledger.execution?_eq_some.2 ⟨hfound, htenant⟩
  have hid := Table.key_of_find? hfound
  unfold finish executionAudit
  simp only [Prog.bind_eq, Prog.pure_eq, Prog.bind_assoc]
  have h := (inside_of_settled hσ).asked (q := .now) (a := env.answer σ .now) rfl
  refine wp_ask_bind (wp_uow ?_)
  -- an interruption before the commit leaves the store alone
  have hstops : Stops env .finish (fun (r : Except Exc ToolExecution) σ' =>
      (∀ x, env.fault σ' .finish .close = some x →
        FinishEnd outcome e σ (σ'.cut .finish .close x)) ∧
      (env.fault σ' .finish .close = none →
        FinishEnd outcome e σ (σ'.did .finish .close))) σ := by
    intro view σ' op x h' hop _
    have hcut : Event.cut UnitOfWork.finish op x ∈ (σ'.cut .finish op x).trace :=
      List.mem_cons_self
    exact ⟨fun x _ => .interrupted ⟨op, _, List.mem_cons_of_mem _ hcut, hop⟩ h'.committed,
      fun _ => .interrupted ⟨op, x, List.mem_cons_of_mem _ hcut, hop⟩ h'.committed⟩
  refine h.wp_getExecution hstops fun σ₁ h₁ => ?_
  rw [hexecution]
  refine wp_orRaise_bind (fun hnone => by cases hnone) fun x hx => ?_
  cases hx
  refine wp_raiseIf_bind (fun hnot => absurd hrunning hnot) fun _ => ?_
  refine wp_lift_bind (fun x hx => by rw [hfinish] at hx; cases hx) fun x hx => ?_
  rw [hfinish] at hx
  cases hx
  refine h₁.wp_saveExecution hstops hrevises (by rwa [hid]) fun σ₂ h₂ => ?_
  have h₃ := h₂.asked (q := .newId) (a := env.answer σ₂ .newId) rfl
  obtain ⟨hblank, -⟩ := hids.attempts σ₂
  obtain ⟨event, haudit⟩ := executionAuditEvent_of_nonBlank hblank e' outcome.audit
    (env.answer σ .now)
  obtain ⟨hevent, -⟩ := executionAuditEvent_ok haudit
  refine wp_ask_bind (wp_lift_bind (fun x hx => by rw [haudit] at hx; cases hx) fun x hx => ?_)
  rw [haudit] at hx
  cases hx
  have hfree : (σ.committed.saveExecution e').audits.find? event.val.id = none := by
    have hnew := hids.audits σ₂
    rw [h₂.view, ← hevent] at hnew
    exact hnew
  refine h₃.wp_append hstops hfree fun σ₄ h₄ => ?_
  refine h₄.wp_commit hstops fun σ₅ hstored huncut₅ => ?_
  have hleft : ∀ ev : Event Gateway, (∀ op x, ev = .cut .finish op x → op = .close) →
      ¬ FinishCut (ev :: σ₅.trace) := by
    rintro ev hev ⟨op, x, hmem, hop⟩
    cases hmem with
    | head => exact hop (hev op x rfl)
    | tail _ hmem => exact huncut ⟨op, x, huncut₅ _ _ _ hmem, hop⟩
  refine ⟨fun x _ => .finished hfinish hstored.committed (hleft _ ?_),
    fun _ => .finished hfinish hstored.committed (hleft _ ?_)⟩
  · rintro op x ⟨⟩
    rfl
  · rintro op x ⟨⟩

end Finish

/-! ## A planned call -/

/-- Everything but adding and removing executions. -/
def keeping : Vocabulary Gateway where
  asks _ := True
  opens _ := True
  writes update := ∀ s : Ledger, (update s).executionIds = s.executionIds
  closes := True

theorem concluding_keeping : Concluding keeping where
  now := trivial
  newId := trivial
  sleep _ := trivial
  starts := trivial
  finishes := trivial
  registers _ _ _ _ := executionIds_saveExecution _ _
  adds _ _ := rfl
  saves a s := executionIds_saveAttempt a s
  closes := trivial
  ends := trivial
  concludes _ _ := executionIds_saveExecution _ _
  audits _ _ := rfl

/-- The call that began in `s` has added `e` with its plan. -/
structure PlannedCall (command : CallToolCommand) (cleared : CallTool.Clearance) (s : Ledger)
    (e : ToolExecution) (σ : Session Gateway) : Prop where
  steady : Steady σ
  planned : ∃ before after, Planned (CallTool.planCommand command cleared) e before after
  added : e ∈ σ.committed.executions
  ids : σ.committed.executionIds = s.executionIds ++ [e.val.id]
  events : ∀ ev ∈ σ.trace, ev.Within clearing ∨ ev.Within planning

namespace PlannedCall

variable {command : CallToolCommand} {cleared : CallTool.Clearance} {s : Ledger}
  {e : ToolExecution} {σ σ' : Session Gateway}

/-- The fields of the execution that was planned. -/
theorem fields (h : PlannedCall command cleared s e σ) : ∃ t id,
    e.val = { plannedFields (CallTool.planCommand command cleared) t id with
      status := .running, startedAt := some t } := by
  obtain ⟨_, _, hfields, -⟩ := h.planned
  exact ⟨_, _, hfields⟩

theorem running (h : PlannedCall command cleared s e σ) :
    RunningFor command.val.context.tenantId e.val.id σ.committed := by
  obtain ⟨t, id, hfields⟩ := h.fields
  refine ⟨e, Table.find?_of_mem h.added, ?_, ?_⟩
  · rw [hfields]
    rfl
  · rw [hfields]

theorem recorded (h : PlannedCall command cleared s e σ) : Recorded e σ.committed :=
  ⟨e, Table.find?_of_mem h.added, .refl e⟩

/-- The planned execution is the only one that a call adds. -/
theorem id_eq_of_new (h : PlannedCall command cleared s e σ)
    (hids : σ'.committed.executionIds = σ.committed.executionIds) {e' : ToolExecution}
    (he : e' ∈ σ'.committed.executions) (hnew : e'.val.id ∉ s.executionIds) :
    e'.val.id = e.val.id := by
  have hmem : e'.val.id ∈ σ'.committed.executionIds := List.mem_map_of_mem he
  rw [hids, h.ids, List.mem_append, List.mem_singleton] at hmem
  exact hmem.resolve_left hnew

/-- A delivery adds no execution. -/
theorem deliver_ids {env : Env Gateway} (h : PlannedCall command cleared s e σ)
    {service : CallTool}
    (hexecutor : ∀ request credential, (service.executor request credential).Within keeping) :
    (run env (service.deliver command cleared e) σ).2.committed.executionIds =
      σ.committed.executionIds :=
  (run_keeps env (fun _ hupdate => hupdate)
    (concluding_keeping.deliver (fun _ _ => trivial) fun request credential _ =>
      hexecutor request credential)
    (congrArg Ledger.executionIds h.steady.settled)).1

end PlannedCall

/-- A call adds no execution, or it plans one and delivers it, unless the end of its plan is
    interrupted. -/
theorem wp_execute_cases [Sha256] {env : Env Gateway} {service : CallTool}
    {command : CallToolCommand} {s : Ledger} (hs : LedgerInv s) {Q : Session Gateway → Prop}
    (hfault : ∀ σ u op x, env.fault σ u op = some x → Interruption x)
    (huntouched : ∀ σ, σ.committed.executionIds = s.executionIds → Q σ)
    (hunclosed : ∀ cleared e σ, PlannedCall command cleared s e σ →
      (∃ x, .cut .plan .close x ∈ σ.trace) → Q σ)
    (hdelivered : ∀ cleared e σ, PlannedCall command cleared s e σ →
      (∀ x, .cut .plan .close x ∉ σ.trace) →
      wp env (service.deliver command cleared e) (fun _ σ' => Q σ') σ) :
    wp env (service.execute command) (fun _ σ' => Q σ') (.start s) := by
  have hstart : Steady (Session.start s : Session Gateway) := ⟨rfl, hs⟩
  unfold CallTool.execute
  simp only [Prog.bind_eq]
  refine wp_bind.2 (wp_mono ?_ (wp_cleared hfault hstart service command))
  rintro (x | cleared) σ₁ ⟨⟨hsteady₁, new₁, htrace₁, hevents₁, -, -⟩, hids₁⟩
  · exact huntouched σ₁ hids₁
  have hnothing : (Session.start s : Session Gateway).trace = [] := rfl
  rw [hnothing, List.append_nil] at htrace₁
  let planCommand := CallTool.planCommand command cleared
  have hplan : wp env (plan planCommand) (fun r σ₂ =>
      PartDone planning (fun r new => PlanEnd planCommand new r) σ₁ r σ₂ ∧
      (r.isOk → ∀ u x, .cut u .close x ∈ σ₂.trace → .cut u .close x ∈ σ₁.trace)) σ₁ :=
    ⟨wp_plan hfault hsteady₁ planCommand, wp_plan_closed planCommand⟩
  refine wp_bind.2 (wp_mono ?_ hplan)
  rintro r σ₂ ⟨hdone, hclosed⟩
  obtain ⟨hsame, hnone⟩ | ⟨e, hadded⟩ := planned_of_part hdone
  · have hids₂ : σ₂.committed.executionIds = σ₁.committed.executionIds :=
      congrArg (·.rows.map (·.val.id)) hsame
    cases r with
    | error x => exact huntouched σ₂ (hids₂.trans hids₁)
    | ok e => exact absurd rfl (hnone e)
  obtain ⟨before, after, -, hplanned⟩ := hadded.commit
  obtain ⟨new₂, htrace₂, hevents₂, -⟩ := hdone.events
  have hcall : PlannedCall command cleared s e σ₂ := by
    refine ⟨hdone.steady, ⟨before, after, hplanned⟩, ?_, ?_, fun ev hev => ?_⟩
    · rw [← Table.mem_rows, hadded.rows]
      exact List.mem_append_right _ List.mem_cons_self
    · rw [hadded.executionIds, hids₁]
      rfl
    · rw [htrace₂, htrace₁, List.mem_append] at hev
      exact hev.symm.imp (hevents₁ ev) (hevents₂ ev)
  cases r with
  | error x => exact hunclosed cleared e σ₂ hcall ⟨x, hadded.raised x rfl⟩
  | ok e' =>
    obtain rfl := hadded.returned e' rfl
    refine hdelivered cleared e' σ₂ hcall fun x hcut => ?_
    -- the clearance opens no unit of work of this name
    have hold := hclosed rfl .plan x hcut
    rw [htrace₁] at hold
    obtain ⟨h | h, -⟩ := hevents₁ _ hold <;> cases h

end NexusMcp
