-- SUMMARY: How the execution of a call that nothing disturbs ends, told by its outcomes.
import NexusMcp.Execution.RetriedCalls

/-!
# Delivered Calls

A call that nothing disturbs ends its execution as its executor reports, and its attempts are
those of the executor.
-/

namespace NexusMcp

open Txn ExecutionLifecycle Prog

/-! ## The end of the execution -/

def ExecutionLifecycle.ExecutionOutcome.status : ExecutionOutcome → ExecutionStatus
  | .succeeded => .succeeded
  | .failed _ _ => .failed
  | .unknown _ => .unknown
  | .cancelled => .cancelled

/-- How a call whose executor reports this ends its execution. -/
def conclusion : Except Exc ExecutorResult → ExecutionOutcome
  | .ok _ => .succeeded
  | .error .cancelled => .cancelled
  | .error (.executorFailure error) =>
    if error.outcomeUnknown then .unknown error.code else .failed error.code error.category
  | .error _ => .unknown "unexpected_executor_failure"

theorem failExecution_conclusion {α : Type} (tenantId executionId : Id) (x : Exc) : ∃ y,
    CallTool.failExecution (α := α) tenantId executionId x =
      (finish tenantId executionId (conclusion (.error x))).bind fun _ => .raise y := by
  rcases x with _ | _ | _ | _ | _ | _ <;> exact ⟨_, rfl⟩

theorem failCredential_conclusion {α : Type} (tenantId executionId : Id) {x : Exc}
    (hx : x ≠ .cancelled) : ∃ code y, CallTool.failCredential (α := α) tenantId executionId x =
      (finish tenantId executionId (.failed code .credential)).bind fun _ => .raise y := by
  rcases x with _ | _ | _ | _ | _ | _
  case cancelled => exact absurd rfl hx
  all_goals exact ⟨_, _, rfl⟩

theorem ExecutionLifecycle.ExecutionOutcome.status_of_transition {outcome : ExecutionOutcome}
    {e e' : ToolExecution} {t : Time} (h : outcome.transition e t = .ok e') :
    e'.val.status = outcome.status := by
  cases outcome with
  | succeeded => rw [(ToolExecution.succeed_eq_ok.1 h).2]; rfl
  | failed code category => rw [(ToolExecution.fail_eq_ok.1 h).2]; rfl
  | unknown code => rw [(ToolExecution.markUnknown_eq_ok.1 h).2]; rfl
  | cancelled => rw [(ToolExecution.cancel_eq_ok.1 h).2]; rfl

section Ends

variable {env : Env Gateway} {σ σ' : Session Gateway} {tenantId executionId : Id}

/-- What happened since was no question of an executor. -/
def Apart (σ σ' : Session Gateway) : Prop :=
  ∃ new, σ'.trace = new ++ σ.trace ∧ ∀ ev ∈ new, ev.Within aside

/-- The execution is running, its session is between two transactions, and nothing was
    interrupted. -/
structure Calm (tenantId executionId : Id) (σ : Session Gateway) : Prop where
  settled : σ.Settled
  running : RunningFor tenantId executionId σ.committed
  uncut : ∀ u op x, .cut u op x ∉ σ.trace

/-- The execution ended in this status, and its attempts are what they were. -/
structure EndsIn (executionId : Id) (status : ExecutionStatus) (σ σ' : Session Gateway) :
    Prop where
  status : ∃ e, σ'.committed.executions.find? executionId = some e ∧ e.val.status = status
  attempts : σ'.committed.attempts = σ.committed.attempts
  apart : Apart σ σ'

theorem Calm.wp_finish (henv : Unhindered env) (h : Calm tenantId executionId σ)
    (outcome : ExecutionOutcome) :
    wp env (finish tenantId executionId outcome)
      (fun _ σ' => EndsIn executionId outcome.status σ σ') σ := by
  obtain ⟨e, hfound, htenant, hstatus⟩ := h.running
  have hnotCut : ¬ FinishCut σ.trace := fun ⟨op, x, hmem, _⟩ => h.uncut _ op x hmem
  have hend : wp env (finish tenantId executionId outcome) _ σ :=
    NexusMcp.wp_finish henv.ids h.settled hnotCut hfound htenant hstatus outcome
  have hapart := run_within env (concluding_aside.finish tenantId executionId outcome) σ
  cases hend with
  | interrupted hcut hsame =>
    obtain ⟨op, x, hmem, -⟩ := hcut
    exact absurd (henv.faultless.uncut _ _ hmem) (h.uncut _ op x)
  | @finished e' t event hfinish hcommitted huncut =>
    have hid := Table.key_of_find? hfound
    subst hid
    refine ⟨⟨e', ?_, outcome.status_of_transition hfinish⟩, ?_, hapart⟩
    · rw [hcommitted]
      exact Ledger.find?_saveExecution_self hfound (ToolExecution.revises_of_finish hfinish)
    · rw [hcommitted]
      rfl

/-- A handler that ends the execution and raises. -/
theorem Calm.wp_finish_raise (henv : Unhindered env) (h : Calm tenantId executionId σ)
    {α : Type} (outcome : ExecutionOutcome) (y : Exc) :
    wp env ((finish tenantId executionId outcome).bind fun _ => (.raise y : Program α))
      (fun r σ' => (∃ z, r = .error z) ∧ EndsIn executionId outcome.status σ σ') σ := by
  refine wp_bind.2 (wp_mono ?_ (h.wp_finish henv outcome))
  rintro (z | _) σ' hends
  · exact ⟨⟨z, rfl⟩, hends⟩
  · exact ⟨⟨y, rfl⟩, hends⟩

/-- An attempt of no execution of the tenant is not started. -/
theorem wp_startAttempt_missing (hfault : env.Faultless) (hσ : σ.Settled)
    (h : σ.committed.execution? tenantId executionId = none) :
    wp env (startAttempt tenantId executionId)
      (fun r σ' => (∃ message, r = .error (.nexus .toolExecutionNotFound message)) ∧
        σ'.committed = σ.committed ∧ σ'.view = σ.committed) σ := by
  have hstops : ∀ {σ₀ Q}, Stops (α := ExecutionAttempt) env .startAttempt Q σ₀ :=
    stops_of_faultless hfault
  unfold startAttempt
  simp only [Prog.bind_eq, Prog.pure_eq]
  have hinside := (inside_of_settled hσ).asked (q := .now) (a := env.answer σ .now) rfl
  refine wp_ask_bind (wp_uow_faultless hfault ?_)
  refine hinside.wp_getExecution hstops fun σ₁ h₁ => ?_
  rw [h]
  exact ⟨⟨_, rfl⟩, h₁.committed, h₁.committed⟩

theorem Calm.of_unwritten (h : Calm tenantId executionId σ)
    (hcommitted : σ'.committed = σ.committed) (hview : σ'.view = σ.committed)
    (huncut : ∀ u op x, .cut u op x ∉ σ'.trace) : Calm tenantId executionId σ' := by
  refine ⟨?_, ?_, huncut⟩
  · rw [Session.Settled, hview, hcommitted]
  · rw [hcommitted]
    exact h.running

/-- A secret is read, or not. -/
theorem Calm.wp_resolveSecret (henv : Unhindered env) (h : Calm tenantId executionId σ)
    (service : CallTool) (binding : Option CredentialBinding) :
    wp env (service.resolveSecret binding) (fun _ σ' => Calm tenantId executionId σ' ∧
      σ'.committed = σ.committed ∧ Apart σ σ') σ := by
  let reading : Vocabulary Gateway := { asking with asks := aside.asks }
  have hreading : (service.resolveSecret binding).Within reading := by
    unfold CallTool.resolveSecret
    split
    · trivial
    · exact (within_raiseIf _ _).bind fun _ => within_ask trivial fun _ =>
        (within_lift _).bind fun _ => trivial
  have haside : (service.resolveSecret binding).Within aside :=
    Within.mono (v := reading) (fun _ hasks => hasks) (fun _ _ => trivial) (fun _ _ => trivial)
      (fun _ => trivial) hreading
  obtain ⟨hcommitted, hview⟩ :=
    run_keeps (f := id) env (fun _ h => absurd h id) hreading h.settled
  exact ⟨h.of_unwritten hcommitted hview fun u op x hmem =>
    h.uncut u op x (henv.faultless.uncut _ _ hmem), hcommitted, run_within env haside σ⟩

end Ends

/-! ## A delivered call -/

section Calls

variable {env : Env Gateway} {σ : Session Gateway} {service : CallTool}
  {command : CallToolCommand} {retry : ExecuteWithRetry}
  {Seen : List (Except Exc ExecutorResult) → List (Event Gateway) → Prop}

/-- What is left of the attempts of a call, and what its executor reports. -/
inductive Called (retry : ExecuteWithRetry)
    (Seen : List (Except Exc ExecutorResult) → List (Event Gateway) → Prop)
    (tool : ResolvedExecutableTool) (executionId : Id) (r : Except Exc ExecutorResult)
    (σ : Session Gateway) : Prop where
  | refused {x : Exc} (hseen : Seen [] σ.trace)
    (hattempts : σ.committed.attemptsOf executionId = []) (hr : r = .error x)
  | reported {request : ExecutorRequest} {outcomes} (htool : request.val.tool = tool)
    (hseen : Seen outcomes σ.trace)
    (hattempts : List.Forall₂ Tells outcomes (σ.committed.attemptsOf executionId))
    (hreported : Reported retry request outcomes r)

/-- The executor is observed whatever it is asked for. -/
def Observes (env : Env Gateway) (executor : ToolExecutor)
    (Seen : List (Except Exc ExecutorResult) → List (Event Gateway) → Prop) : Prop :=
  ∀ request credential, Observed env request (executor request credential) Seen

/-- How a call has left the execution `e`. -/
inductive Delivered (retry : ExecuteWithRetry)
    (Seen : List (Except Exc ExecutorResult) → List (Event Gateway) → Prop)
    (e : ToolExecution) (σ : Session Gateway) : Prop where
  | uncalled (hseen : Seen [] σ.trace) (hattempts : σ.committed.attemptsOf e.val.id = [])
    (hstatus : e.val.status ≠ .succeeded)
  | called {request : ExecutorRequest} {outcomes r}
    (hsideEffect : request.val.tool.sideEffect = e.val.sideEffect) (hseen : Seen outcomes σ.trace)
    (hattempts : List.Forall₂ Tells outcomes (σ.committed.attemptsOf e.val.id))
    (hreported : Reported retry request outcomes r) (hstatus : e.val.status = (conclusion r).status)

theorem wp_callExecutor_told (henv : Unhindered env) (hlegible : Legible Seen)
    (hservice : service.executor = retry.execute)
    (hobserved : Observes env retry.executor Seen)
    {executionId : Id} (h : Calm command.val.context.tenantId executionId σ)
    (hinv : LedgerInv σ.committed) (hnone : σ.committed.attemptsOf executionId = [])
    (hseen : Seen [] σ.trace) (tool : ResolvedExecutableTool)
    (credential : Option ResolvedCredential) :
    wp env (service.callExecutor command tool executionId credential) (fun r σ' =>
      Called retry Seen tool executionId r σ' ∧ Calm command.val.context.tenantId executionId σ') σ := by
  have huncut : ∀ u op x, .cut u op x ∉
      (run env (service.callExecutor command tool executionId credential) σ).2.trace :=
    fun u op x hmem => h.uncut u op x (henv.faultless.uncut _ _ hmem)
  have hcalled : wp env (service.callExecutor command tool executionId credential) (fun r σ' =>
      (∀ u op x, .cut u op x ∉ σ'.trace) →
      Called retry Seen tool executionId r σ' ∧ Calm command.val.context.tenantId executionId σ') σ := by
    unfold CallTool.callExecutor
    simp only [Prog.bind_eq]
    refine wp_lift_bind (fun x _ _ => ⟨.refused hseen hnone rfl, h⟩) fun request hrequest => ?_
    have hval := val_of_construct hrequest
    obtain ⟨e, hfound, htenant, hstatus⟩ := h.running
    rw [hservice]
    unfold ExecuteWithRetry.execute
    obtain ⟨remaining, hmax⟩ := Nat.exists_eq_succ_of_ne_zero retry.maxAttempts_pos.ne'
    rw [hmax]
    by_cases hsame : tool.tenantId = command.val.context.tenantId
    · have hexecution : request.val.executionId = executionId := by rw [hval]
      have hattemptable : Attemptable request σ := by
        refine ⟨h.settled, hinv, e, ?_, ?_, hstatus⟩
        · rwa [hexecution]
        · rw [hval, htenant, hsame]
      have hprogress : Progress request [] σ := by
        refine ⟨hattemptable, ?_⟩
        rw [hexecution, hnone]
        exact .nil
      have hattempts : retry.maxAttempts =
          ([] : List (Except Exc ExecutorResult)).length + 1 + remaining :=
        hmax.trans (Nat.add_comm remaining 1)
      refine wp_mono ?_ (retry.wp_loop_reported henv hlegible (hobserved request credential)
        remaining hattempts (by decide) hprogress hseen
        (fun _ hmem => by cases hmem))
      rintro r σ' ⟨outcomes, hprogress', hseen', hreported⟩ huncut'
      obtain ⟨hsettled, -, e', hfound', htenant', hstatus'⟩ := hprogress'.attemptable
      rw [hexecution] at hfound'
      refine ⟨.reported (by rw [hval]) hseen' ?_ hreported, hsettled, ⟨e', hfound', ?_, hstatus'⟩,
        huncut'⟩
      · rw [← hexecution]
        exact hprogress'.attempts
      · rw [htenant', hval, hsame]
    · -- an execution of another tenant is not found
      have hmissing : σ.committed.execution? request.val.tool.tenantId request.val.executionId =
          none := by
        refine Option.eq_none_iff_forall_not_mem.2 fun x hx => hsame ?_
        obtain ⟨hx, hxtenant⟩ := Ledger.execution?_eq_some.1 hx
        rw [hval] at hx hxtenant
        rw [hfound] at hx
        cases hx
        exact hxtenant.symm.trans htenant
      obtain ⟨new, htrace, hevents⟩ := run_within env (concluding_aside.startAttempt
        request.val.tool.tenantId request.val.executionId) σ
      have hstart : wp env (startAttempt request.val.tool.tenantId request.val.executionId)
          (fun r σ' => ((∃ message, r = .error (.nexus .toolExecutionNotFound message)) ∧
            σ'.committed = σ.committed ∧ σ'.view = σ.committed) ∧ Seen [] σ'.trace) σ :=
        ⟨wp_startAttempt_missing henv.faultless h.settled hmissing,
          htrace ▸ hlegible.between hevents hseen⟩
      rw [ExecuteWithRetry.loop]
      simp only [Prog.bind_eq]
      refine wp_bind.2 (wp_mono ?_ hstart)
      rintro _ σ₁ ⟨⟨⟨message, rfl⟩, hcommitted, hview⟩, hseen₁⟩ huncut₁
      refine ⟨.refused hseen₁ ?_ rfl, h.of_unwritten hcommitted hview huncut₁⟩
      rw [hcommitted]
      exact hnone
  exact hcalled huncut

/-- The execution has ended as its call tells, if it is one of this side effect. -/
def Told (retry : ExecuteWithRetry)
    (Seen : List (Except Exc ExecutorResult) → List (Event Gateway) → Prop)
    (sideEffect : ToolSideEffect) (executionId : Id) (σ : Session Gateway) : Prop :=
  ∃ e, σ.committed.executions.find? executionId = some e ∧
    (e.val.sideEffect = sideEffect → Delivered retry Seen e σ)

theorem attemptsOf_congr {s s' : Ledger} (h : s'.attempts = s.attempts) (executionId : Id) :
    s'.attemptsOf executionId = s.attemptsOf executionId := by
  rw [Ledger.attemptsOf, h]
  rfl

theorem EndsIn.told_of_uncalled (hlegible : Legible Seen) {executionId : Id}
    {status : ExecutionStatus} {σ' : Session Gateway} (h : EndsIn executionId status σ σ')
    (hseen : Seen [] σ.trace) (hnone : σ.committed.attemptsOf executionId = [])
    (hstatus : status ≠ .succeeded) (sideEffect : ToolSideEffect) :
    Told retry Seen sideEffect executionId σ' := by
  obtain ⟨⟨e, hfound, rfl⟩, hattempts, new, htrace, hevents⟩ := h
  have hid := Table.key_of_find? hfound
  refine ⟨e, hfound, fun _ => .uncalled ?_ ?_ hstatus⟩
  · exact htrace ▸ hlegible.between hevents hseen
  · rw [attemptsOf_congr hattempts, hid, hnone]

theorem conclusion_error_ne_succeeded (x : Exc) : (conclusion (.error x)).status ≠ .succeeded := by
  rcases x with _ | failure | _ | _ | _ | _
  case executorFailure =>
    rw [conclusion]
    split <;> simp [ExecutionOutcome.status]
  all_goals simp [conclusion, ExecutionOutcome.status]

theorem EndsIn.told_of_called (hlegible : Legible Seen) {tool : ResolvedExecutableTool}
    {executionId : Id} {r : Except Exc ExecutorResult} {σ' : Session Gateway}
    (h : EndsIn executionId (conclusion r).status σ σ')
    (hcalled : Called retry Seen tool executionId r σ) :
    Told retry Seen tool.sideEffect executionId σ' := by
  cases hcalled with
  | refused hseen hattempts hr =>
    subst hr
    exact h.told_of_uncalled hlegible hseen hattempts (conclusion_error_ne_succeeded _) _
  | reported htool hseen hattempts hreported =>
    obtain ⟨⟨e, hfound, hstatus⟩, hsame, new, htrace, hevents⟩ := h
    have hid := Table.key_of_find? hfound
    refine ⟨e, hfound, fun hsideEffect => .called ?_ ?_ ?_ hreported hstatus⟩
    · rw [htool, hsideEffect]
    · exact htrace ▸ hlegible.between hevents hseen
    · rw [attemptsOf_congr hsame, hid]
      exact hattempts

theorem wp_deliver_told (henv : Unhindered env) (hlegible : Legible Seen)
    (hservice : service.executor = retry.execute)
    (hobserved : Observes env retry.executor Seen)
    {e : ToolExecution} (h : Calm command.val.context.tenantId e.val.id σ)
    (hinv : LedgerInv σ.committed) (hnone : σ.committed.attemptsOf e.val.id = [])
    (hseen : Seen [] σ.trace) (cleared : CallTool.Clearance) :
    wp env (service.deliver command cleared e)
      (fun _ σ' => Told retry Seen cleared.tool.sideEffect e.val.id σ') σ := by
  unfold CallTool.deliver
  simp only [Prog.bind_eq, Prog.pure_eq]
  refine wp_bind.2 (wp_tryCatch.2 (wp_mono ?_ (h.wp_resolveSecret henv service _)))
  rintro r σ₁ ⟨hcalm₁, hsame, new, htrace, hevents⟩
  have hseen₁ : Seen [] σ₁.trace := htrace ▸ hlegible.between hevents hseen
  have hnone₁ : σ₁.committed.attemptsOf e.val.id = [] := by rw [hsame, hnone]
  rcases r with x | credential
  · by_cases hx : x = .cancelled
    · -- no handler is there for a cancellation
      subst hx
      obtain ⟨e', hfound, -, hstatus⟩ := hcalm₁.running
      have hid := Table.key_of_find? hfound
      have hnone' : σ₁.committed.attemptsOf e'.val.id = [] := by rw [hid, hnone₁]
      refine ⟨e', hfound, fun _ => .uncalled hseen₁ hnone' ?_⟩
      rw [hstatus]
      decide
    · obtain ⟨code, y, heq⟩ := failCredential_conclusion (α := Option ResolvedCredential)
        command.val.context.tenantId e.val.id hx
      simp only [heq]
      refine wp_mono ?_ (hcalm₁.wp_finish_raise henv _ y)
      rintro _ σ₂ ⟨⟨z, rfl⟩, hends⟩
      exact hends.told_of_uncalled hlegible hseen₁ hnone₁ (by simp [ExecutionOutcome.status]) _
  · refine wp_bind.2 (wp_tryCatch.2 (wp_mono ?_ (wp_callExecutor_told henv hlegible hservice
      hobserved hcalm₁ (hsame ▸ hinv) hnone₁ hseen₁ cleared.tool credential)))
    rintro (x | result) σ₂ ⟨hcalled, hcalm₂⟩
    · obtain ⟨y, heq⟩ := failExecution_conclusion (α := ExecutorResult)
        command.val.context.tenantId e.val.id x
      simp only [heq]
      refine wp_mono ?_ (hcalm₂.wp_finish_raise henv _ y)
      rintro _ σ₃ ⟨⟨z, rfl⟩, hends⟩
      exact hends.told_of_called hlegible hcalled
    · refine wp_bind.2 (wp_mono ?_ (hcalm₂.wp_finish henv .succeeded))
      rintro (x | _) σ₃ hends
      · exact hends.told_of_called hlegible hcalled
      · exact hends.told_of_called hlegible hcalled

theorem aside_of_clearing {ev : Event Gateway} (h : ev.Within clearing) : ev.Within aside := by
  rcases ev with ⟨q, a⟩ | _ | _
  · cases q <;> first | exact trivial | exact absurd h id
  · exact ⟨trivial, fun _ => trivial⟩
  · exact ⟨trivial, fun _ => trivial⟩

theorem aside_of_planning {ev : Event Gateway} (h : ev.Within planning) : ev.Within aside := by
  rcases ev with ⟨q, a⟩ | _ | _
  · obtain rfl | rfl := h <;> exact trivial
  · exact ⟨trivial, fun _ => trivial⟩
  · exact ⟨trivial, fun _ => trivial⟩

/-- The execution is one of this side effect. -/
def HasSideEffect (executionId : Id) (sideEffect : ToolSideEffect) (s : Ledger) : Prop :=
  ∃ e, s.executions.find? executionId = some e ∧ e.val.sideEffect = sideEffect

/-- No save of an execution changes its side effect. -/
theorem HasSideEffect.saveExecution {executionId : Id} {sideEffect : ToolSideEffect} {s : Ledger}
    (h : HasSideEffect executionId sideEffect s) (e : ToolExecution) :
    HasSideEffect executionId sideEffect (s.saveExecution e) := by
  obtain ⟨x, hfound, hsideEffect⟩ := h
  have hid := Table.key_of_find? hfound
  by_cases hsame : executionId = e.val.id
  · subst hsame
    exact ⟨updateExecutionModel x e, Table.find?_modify_self hfound hid, hsideEffect⟩
  · refine ⟨x, ?_, hsideEffect⟩
    rw [Ledger.find?_saveExecution_ne hsame]
    exact hfound

/-- Everything that leaves the side effect of the execution. -/
def revising (executionId : Id) (sideEffect : ToolSideEffect) : Vocabulary Gateway where
  asks _ := True
  opens _ := True
  writes update := ∀ s, HasSideEffect executionId sideEffect s →
    HasSideEffect executionId sideEffect (update s)
  closes := True

theorem concluding_revising {executionId : Id} {sideEffect : ToolSideEffect} :
    Concluding (revising executionId sideEffect) where
  now := trivial
  newId := trivial
  sleep _ := trivial
  starts := trivial
  finishes := trivial
  registers _ e' _ _ hs := hs.saveExecution e'
  adds _ _ hs := hs
  saves _ _ hs := hs
  closes := trivial
  ends := trivial
  concludes e _ hs := hs.saveExecution e
  audits _ _ hs := hs

theorem PlannedCall.attemptsOf_eq_nil {cleared : CallTool.Clearance} {s : Ledger}
    {e : ToolExecution} (h : PlannedCall command cleared s e σ) :
    σ.committed.attemptsOf e.val.id = [] := by
  obtain ⟨t, id, hfields⟩ := h.fields
  have hcount : e.val.attemptCount = 0 := by
    rw [hfields]
    rfl
  have hnumbered := h.steady.inv.numbered e h.added
  rw [hcount, Ledger.attemptNumbers, List.range'_zero, List.filterMap_eq_nil_iff] at hnumbered
  refine List.filter_eq_nil_iff.2 fun a ha hsame => ?_
  have hnone := hnumbered a ha
  rw [if_pos (of_decide_eq_true hsame)] at hnone
  cases hnone

/-- Every execution that a call adds was delivered as its executor told. -/
theorem wp_execute_told [Sha256] {s : Ledger} (hs : LedgerInv s) (henv : Unhindered env)
    (hlegible : Legible Seen) (hservice : service.executor = retry.execute)
    (hobserved : Observes env retry.executor Seen) :
    wp env (service.execute command) (fun _ σ' => ∀ e ∈ σ'.committed.executions,
      e.val.id ∉ s.executionIds → Delivered retry Seen e σ') (.start s) := by
  have huncut : ∀ u op x,
      .cut u op x ∉ (run env (service.execute command) (.start s)).2.trace :=
    fun u op x hmem => by cases henv.faultless.uncut _ _ hmem
  have hwithin : ∀ {v}, Concluding v → (∀ q, v.asks q) → ∀ request credential,
      (service.executor request credential).Within v := by
    intro v hv hasks request credential
    rw [hservice]
    have hinner : (retry.executor request credential).Within v :=
      Within.mono (v := asking) (fun q _ => hasks q) (fun _ => False.elim) (fun _ => False.elim)
        False.elim (hobserved request credential).asking
    exact hv.toAttempting.retry hinner
  have hcases : wp env (service.execute command) (fun _ σ' => (∀ u op x, .cut u op x ∉ σ'.trace) →
      ∀ e ∈ σ'.committed.executions, e.val.id ∉ s.executionIds → Delivered retry Seen e σ')
      (.start s) := by
    refine wp_execute_cases hs ?_ ?_ ?_ ?_
    · intro σ u op x hx
      rw [henv.faultless] at hx
      cases hx
    -- The call ended before it planned, so no execution is new.
    · intro σ hids _ e he hnew
      exact absurd (hids ▸ List.mem_map_of_mem he) hnew
    · rintro cleared planned σ hcall ⟨x, hcut⟩ huncut
      exact absurd hcut (huncut _ _ _)
    -- What is new is the planned execution, which the delivery goes on with.
    · intro cleared planned σ hcall hclosed
      refine fun huncut' => ?_
      have hdeliver : ∀ {v}, Concluding v → (∀ q, v.asks q) →
          (service.deliver command cleared planned).Within v :=
        fun hv hasks => hv.deliver (fun _ _ => hasks _) fun request credential _ =>
          hwithin hv hasks request credential
      obtain ⟨new, htrace, -⟩ := run_within env (hdeliver concluding_keeping fun _ => trivial) σ
      have hcalm : Calm command.val.context.tenantId planned.val.id σ :=
        ⟨hcall.steady.settled, hcall.running, fun u op x hmem =>
          huncut' u op x (htrace ▸ List.mem_append_right _ hmem)⟩
      have hseen : Seen [] σ.trace := by
        rw [← List.append_nil σ.trace]
        refine hlegible.between (fun ev hev => ?_) hlegible.started
        exact (hcall.events ev hev).elim aside_of_clearing aside_of_planning
      -- No revision changes the side effect, so the verdict is about the one it was planned with.
      have hsideEffect : HasSideEffect planned.val.id cleared.tool.sideEffect σ.committed := by
        obtain ⟨t, id, hfields⟩ := hcall.fields
        refine ⟨planned, Table.find?_of_mem hcall.added, ?_⟩
        rw [hfields]
        rfl
      obtain ⟨e', hfound', hkept⟩ := (run_preserves env (fun _ hupdate => hupdate)
        (hdeliver concluding_revising fun _ => trivial) hsideEffect
        (hcall.steady.settled ▸ hsideEffect)).1
      obtain ⟨e'', hfound'', htold⟩ : Told retry Seen _ _ _ := wp_deliver_told henv hlegible hservice
        hobserved hcalm hcall.steady.inv hcall.attemptsOf_eq_nil hseen cleared
      intro e he hnew
      have hid := hcall.id_eq_of_new (hcall.deliver_ids
        (hwithin concluding_keeping fun _ => trivial)) he hnew
      have hfound := Table.find?_eq_some.2 ⟨he, hid⟩
      rw [hfound] at hfound' hfound''
      cases hfound'
      cases hfound''
      exact htold hkept
  exact hcases huncut

end Calls

end NexusMcp
