-- SUMMARY: When a call leaves the execution it planned running.
import NexusMcp.Credentials.Resolver
import NexusMcp.Execution.Conclusion

/-!
# Stranded Executions

Every way out of a call that was planned ends its execution, save where an interruption meets
the end of the plan, the reading of a secret or the terminal transition itself.
-/

namespace NexusMcp

open Txn ExecutionLifecycle Prog

/-! ## The interruptions that count -/

/-- The event keeps the execution that was planned from ending. -/
def Strands : Event Gateway → Prop
  | .cut .plan .close _ => True
  | .asked (.resolveSecret _) (.error .cancelled) => True
  | .cut .finish op _ => op ≠ .close
  | _ => False

/-- The execution has ended, unless something kept it from that. -/
def EndedUnlessStranded (executionId : Id) (σ : Session Gateway) : Prop :=
  ∃ e, σ.committed.executions.find? executionId = some e ∧
    (e.val.status.Terminal ↔ ∀ ev ∈ σ.trace, ¬ Strands ev)

/-- The executor of a call: it keeps the execution running. -/
def calling (tenantId executionId : Id) : Vocabulary Gateway where
  asks
    | .now | .newId | .sleep _ | .executeTool _ _ => True
    | _ => False
  opens u := u = .startAttempt ∨ u = .finishAttempt
  writes update := ∀ s, RunningFor tenantId executionId s →
    RunningFor tenantId executionId (update s)
  closes := True

theorem attempting_calling {tenantId executionId : Id} :
    Attempting (calling tenantId executionId) where
  now := trivial
  newId := trivial
  sleep _ := trivial
  starts := Or.inl rfl
  finishes := Or.inr rfl
  registers _ _ hregister _ hs := by
    obtain ⟨hrunning, hval⟩ := ToolExecution.registerAttempt_eq_ok.1 hregister
    exact hs.saveExecution (by rw [hval]; exact hrunning)
  adds _ _ hs := hs
  saves _ _ hs := hs
  closes := trivial

/-- A terminal transition neither plans nor reads a secret. -/
def finishing : Vocabulary Gateway := delivering fun
  | .now | .newId | .sleep _ => True
  | _ => False

theorem concluding_finishing : Concluding finishing :=
  concluding_delivering trivial trivial fun _ => trivial

section Events

variable {ev : Event Gateway}

theorem not_strands_of_clearing (h : ev.Within clearing) : ¬ Strands ev := by
  rcases ev with ⟨q, a⟩ | _ | ⟨u, op, x⟩
  · cases q <;> first | exact id | exact absurd h id
  · exact id
  · obtain ⟨rfl | rfl, -⟩ := h <;> exact id

theorem strands_of_planning (h : ev.Within planning) (hstrands : Strands ev) :
    ∃ x, ev = .cut .plan .close x := by
  rcases ev with ⟨q, a⟩ | _ | ⟨u, op, x⟩
  · obtain rfl | rfl := h <;> exact absurd hstrands id
  · exact absurd hstrands id
  · obtain ⟨rfl, -⟩ := h
    cases op with
    | close => exact ⟨x, rfl⟩
    | select | lock row | write update | commit => exact absurd hstrands id

theorem not_strands_of_calling {tenantId executionId : Id}
    (h : ev.Within (calling tenantId executionId)) : ¬ Strands ev := by
  rcases ev with ⟨q, a⟩ | _ | ⟨u, op, x⟩
  · cases q <;> first | exact id | exact absurd h id
  · exact id
  · obtain ⟨rfl | rfl, -⟩ := h <;> exact id

/-- Only an interruption of the transaction itself strands an execution that ends. -/
theorem strands_of_finishing (h : ev.Within finishing) (hstrands : Strands ev) :
    ∃ op x, ev = .cut .finish op x ∧ op ≠ .close := by
  rcases ev with ⟨q, a⟩ | _ | ⟨u, op, x⟩
  · cases q <;> first | exact absurd hstrands id | exact absurd h id
  · exact absurd hstrands id
  · obtain ⟨rfl | rfl | rfl, -⟩ := h
    · exact absurd hstrands id
    · exact absurd hstrands id
    · exact ⟨op, x, rfl, hstrands⟩

theorem strands_of_finishCut {trace : List (Event Gateway)} (h : FinishCut trace) :
    ∃ ev ∈ trace, Strands ev := by
  obtain ⟨op, x, hmem, hop⟩ := h
  exact ⟨_, hmem, hop⟩

end Events

/-! ## The end of a call -/

section Ends

variable {env : Env Gateway} {σ σ' : Session Gateway} {tenantId executionId : Id}

/-- The call has a running execution, and nothing has kept it from ending. -/
structure Underway (tenantId executionId : Id) (σ : Session Gateway) : Prop where
  steady : Steady σ
  running : RunningFor tenantId executionId σ.committed
  free : ∀ ev ∈ σ.trace, ¬ Strands ev

theorem Underway.not_finishCut (h : Underway tenantId executionId σ) : ¬ FinishCut σ.trace := by
  intro hcut
  obtain ⟨ev, hmem, hstrands⟩ := strands_of_finishCut hcut
  exact h.free ev hmem hstrands

/-- A running execution that something keeps from ending. -/
theorem endedUnlessStranded_of_running (hrunning : RunningFor tenantId executionId σ.committed)
    (h : ∃ ev ∈ σ.trace, Strands ev) : EndedUnlessStranded executionId σ := by
  obtain ⟨e, hfound, -, hstatus⟩ := hrunning
  refine ⟨e, hfound, fun hterminal => ?_, fun hfree => ?_⟩
  · rw [hstatus] at hterminal
    exact absurd hterminal (by decide)
  · obtain ⟨ev, hmem, hstrands⟩ := h
    exact absurd hstrands (hfree ev hmem)

theorem Underway.wp_finish (h : Underway tenantId executionId σ) (hids : FreshIds env)
    (outcome : ExecutionOutcome) :
    wp env (finish tenantId executionId outcome)
      (fun _ σ' => EndedUnlessStranded executionId σ') σ := by
  obtain ⟨e, hfound, htenant, hstatus⟩ := h.running
  obtain ⟨new, htrace, hevents⟩ :=
    run_within env (concluding_finishing.finish tenantId executionId outcome) σ
  have hend : wp env (finish tenantId executionId outcome) _ σ :=
    NexusMcp.wp_finish hids h.steady.settled h.not_finishCut hfound htenant hstatus outcome
  -- whatever else the transition does, it is no reason for the execution to be stranded
  have hreason : ∀ ev ∈ (run env (finish tenantId executionId outcome) σ).2.trace, Strands ev →
      FinishCut (run env (finish tenantId executionId outcome) σ).2.trace := by
    intro ev hmem hstrands
    rw [htrace, List.mem_append] at hmem
    obtain hmem | hmem := hmem
    · obtain ⟨op, x, rfl, hop⟩ := strands_of_finishing (hevents ev hmem) hstrands
      exact ⟨op, x, htrace ▸ List.mem_append_left _ hmem, hop⟩
    · exact absurd hstrands (h.free ev hmem)
  cases hend with
  | interrupted hcut hsame =>
    have hrunning : RunningFor tenantId executionId _ := hsame.symm ▸ h.running
    exact endedUnlessStranded_of_running hrunning (strands_of_finishCut hcut)
  | @finished e' t event hfinish hcommitted huncut =>
    obtain ⟨hterminal, -⟩ := outcome.transition_ok hfinish
    refine ⟨e', ?_, fun _ ev hmem hstrands => huncut (hreason ev hmem hstrands), fun _ => hterminal⟩
    have hid := Table.key_of_find? hfound
    subst hid
    rw [hcommitted]
    exact Ledger.find?_saveExecution_self hfound (ToolExecution.revises_of_finish hfinish)

/-- A handler that ends the execution and raises. -/
theorem Underway.wp_finish_raise (h : Underway tenantId executionId σ) (hids : FreshIds env)
    {α : Type} {outcome : ExecutionOutcome} {x : Exc} :
    wp env ((finish tenantId executionId outcome).bind fun _ => (.raise x : Program α))
      (fun r σ' => (∃ y, r = .error y) ∧ EndedUnlessStranded executionId σ') σ := by
  refine wp_bind.2 (wp_mono ?_ (h.wp_finish hids outcome))
  rintro (y | _) σ' hended
  · exact ⟨⟨y, rfl⟩, hended⟩
  · exact ⟨⟨x, rfl⟩, hended⟩

theorem Underway.wp_failExecution (h : Underway tenantId executionId σ) (hids : FreshIds env)
    {α : Type} (x : Exc) :
    wp env (CallTool.failExecution (α := α) tenantId executionId x)
      (fun r σ' => (∃ y, r = .error y) ∧ EndedUnlessStranded executionId σ') σ := by
  rw [CallTool.failExecution.eq_def]
  split
  all_goals exact h.wp_finish_raise hids

theorem Underway.wp_failCredential (h : Underway tenantId executionId σ) (hids : FreshIds env)
    {α : Type} {x : Exc} (hx : x ≠ .cancelled) :
    wp env (CallTool.failCredential (α := α) tenantId executionId x)
      (fun r σ' => (∃ y, r = .error y) ∧ EndedUnlessStranded executionId σ') σ := by
  rw [CallTool.failCredential.eq_def]
  split
  · exact absurd rfl hx
  all_goals exact h.wp_finish_raise hids

/-- A secret is read, or the reading is cancelled. -/
theorem Underway.wp_resolveSecret (h : Underway tenantId executionId σ) (service : CallTool)
    (binding : Option CredentialBinding) :
    wp env (service.resolveSecret binding) (fun r σ' =>
      (r ≠ .error .cancelled ∧ Underway tenantId executionId σ' ∧
        σ'.committed = σ.committed) ∨
        (r = .error .cancelled ∧ RunningFor tenantId executionId σ'.committed ∧
          ∃ ev ∈ σ'.trace, Strands ev)) σ := by
  unfold CallTool.resolveSecret
  split
  · exact .inl ⟨fun h => (by cases h), h, rfl⟩
  · refine wp_raiseIf_bind (fun _ => .inl ⟨fun h => (by cases h), h, rfl⟩) fun _ => ?_
    refine wp_every_answer fun answer => ?_
    -- Any answer but a cancellation is caught or returned, and so it strands nothing.
    have hfree : ∀ {reference a}, a ≠ .error .cancelled →
        Underway tenantId executionId (σ.asked (.resolveSecret reference) a) := by
      intro reference a ha
      refine ⟨⟨h.steady.settled, h.steady.inv⟩, h.running, ?_⟩
      refine List.forall_mem_cons.2 ⟨fun hstrands => ?_, h.free⟩
      rcases a with (_ | _ | _ | _ | _ | _) | _
      case error.cancelled => exact ha rfl
      all_goals exact hstrands
    rcases answer with x | secret
    · by_cases hx : x = .cancelled
      · subst hx
        exact .inr ⟨rfl, h.running, _, List.mem_cons_self, trivial⟩
      · have hne : (.error x : Except Exc SecretValue) ≠ .error .cancelled :=
          fun h => hx (Except.error.inj h)
        exact .inl ⟨fun h => hx (Except.error.inj h), hfree hne, rfl⟩
    · have hread : ∀ {credential : ResolvedCredential},
          (.ok (some credential) : Except Exc (Option ResolvedCredential)) ≠ .error .cancelled :=
        fun h => by cases h
      exact .inl ⟨hread, hfree (fun h => by cases h), rfl⟩

theorem Underway.wp_callExecutor {e : ToolExecution} {service : CallTool}
    (h : Underway tenantId e.val.id σ)
    (hfault : ∀ σ u op x, env.fault σ u op = some x → Interruption x)
    (hwired : Wired service.executor) {command : CallToolCommand} {cleared : CallTool.Clearance}
    {t : Time} {id : Id}
    (hfields : e.val = { plannedFields (CallTool.planCommand command cleared) t id with
      status := .running, startedAt := some t })
    (hrecorded : Recorded e σ.committed) (credential : Option ResolvedCredential) :
    wp env (service.callExecutor command cleared.tool e.val.id credential)
      (fun _ σ' => Underway tenantId e.val.id σ') σ := by
  have hwithin : (service.callExecutor command cleared.tool e.val.id credential).Within
      (calling tenantId e.val.id) :=
    callExecutor_within fun _ _ => executor_within attempting_calling hwired trivial
  obtain ⟨new, htrace, hevents⟩ := run_within env hwithin σ
  refine ⟨wp_steady hfault h.steady (callExecutor_safe hwired hfields ⟨rfl, rfl⟩ hrecorded), ?_, ?_⟩
  · refine (run_preserves env (fun _ hupdate => hupdate) hwithin h.running ?_).1
    rw [h.steady.settled]
    exact h.running
  · rw [htrace]
    exact List.forall_mem_append.2
      ⟨fun ev hev => not_strands_of_calling (hevents ev hev), h.free⟩

theorem Underway.wp_deliver {e : ToolExecution} {service : CallTool} {command : CallToolCommand}
    (h : Underway command.val.context.tenantId e.val.id σ) (hids : FreshIds env)
    (hfault : ∀ σ u op x, env.fault σ u op = some x → Interruption x)
    (hwired : Wired service.executor) {cleared : CallTool.Clearance} {t : Time} {id : Id}
    (hfields : e.val = { plannedFields (CallTool.planCommand command cleared) t id with
      status := .running, startedAt := some t })
    (hrecorded : Recorded e σ.committed) :
    wp env (service.deliver command cleared e)
      (fun _ σ' => EndedUnlessStranded e.val.id σ') σ := by
  unfold CallTool.deliver
  simp only [Prog.bind_eq, Prog.pure_eq]
  refine wp_bind.2 (wp_tryCatch.2 (wp_mono ?_ (h.wp_resolveSecret service _)))
  rintro (x | credential) σ₁ (⟨hx, h₁, hsame⟩ | ⟨hx, hrunning, hstranded⟩)
  · refine wp_mono ?_ (h₁.wp_failCredential hids fun h => hx (h ▸ rfl))
    rintro _ σ₂ ⟨⟨y, rfl⟩, hended⟩
    exact hended
  · cases hx
    exact endedUnlessStranded_of_running hrunning hstranded
  · refine wp_bind.2 (wp_tryCatch.2 (wp_mono ?_
      (h₁.wp_callExecutor hfault hwired hfields (hsame ▸ hrecorded) credential)))
    rintro (x | result) σ₂ h₂
    · refine wp_mono ?_ (h₂.wp_failExecution hids x)
      rintro _ σ₃ ⟨⟨y, rfl⟩, hended⟩
      exact hended
    · refine wp_bind.2 (wp_mono ?_ (h₂.wp_finish hids .succeeded))
      rintro (x | _) σ₃ hended
      · exact hended
      · exact hended
  · cases hx

end Ends

theorem underway_of_planned {command : CallToolCommand} {cleared : CallTool.Clearance}
    {s : Ledger} {e : ToolExecution} {σ : Session Gateway}
    (h : PlannedCall command cleared s e σ) (hclosed : ∀ x, .cut .plan .close x ∉ σ.trace) :
    Underway command.val.context.tenantId e.val.id σ := by
  refine ⟨h.steady, h.running, fun ev hev hstrands => ?_⟩
  obtain hclearing | hplanning := h.events ev hev
  · exact not_strands_of_clearing hclearing hstrands
  · obtain ⟨x, rfl⟩ := strands_of_planning hplanning hstrands
    exact hclosed x hev

/-- Every execution that a call adds has ended when the call has, exactly when no interruption
    met the end of its plan, the reading of its secret, or its terminal transition before the
    commit. -/
theorem call_ends_execution_iff [Sha256] {Pid : Type} {commands : Pid → LedgerCommand}
    {w : World Gateway Pid (fun p => (commands p).Result)} (hw : Reachable commands w)
    (service : CallTool) (hwired : Wired service.executor) (command : CallToolCommand)
    (env : Env Gateway) (hids : FreshIds env)
    (hfault : ∀ σ u op x, env.fault σ u op = some x → Interruption x) (e : ToolExecution)
    (he : e ∈ (run env (service.execute command) (.start w.store)).2.committed.executions)
    (hnew : e.val.id ∉ w.store.executionIds) :
    e.val.status.Terminal ↔
      ∀ ev ∈ (run env (service.execute command) (.start w.store)).2.trace, ¬ Strands ev := by
  -- the execution that was planned is the only new one, so that it is the one in question
  have hof : ∀ {cleared planned σ σ'}, PlannedCall command cleared w.store planned σ →
      σ'.committed.executionIds = σ.committed.executionIds →
      EndedUnlessStranded planned.val.id σ' → ∀ e ∈ σ'.committed.executions,
      e.val.id ∉ w.store.executionIds →
      (e.val.status.Terminal ↔ ∀ ev ∈ σ'.trace, ¬ Strands ev) := by
    intro cleared planned σ σ' hcall hsame hended e he hnew
    obtain ⟨e', hfound, hiff⟩ := hended
    have hid := hcall.id_eq_of_new hsame he hnew
    rw [Table.find?_eq_some.2 ⟨he, hid⟩] at hfound
    cases hfound
    exact hiff
  have hexecutor : ∀ request credential, (service.executor request credential).Within keeping :=
    fun _ _ => executor_within concluding_keeping.toAttempting hwired trivial
  have hcases : wp env (service.execute command) (fun _ σ' => ∀ e ∈ σ'.committed.executions,
      e.val.id ∉ w.store.executionIds →
      (e.val.status.Terminal ↔ ∀ ev ∈ σ'.trace, ¬ Strands ev)) (.start w.store) := by
    refine wp_execute_cases hw.inv hfault ?_ ?_ ?_
    · intro σ hids e he hnew
      exact absurd (hids ▸ List.mem_map_of_mem he) hnew
    · rintro cleared planned σ hcall ⟨x, hcut⟩
      exact hof hcall rfl (endedUnlessStranded_of_running hcall.running ⟨_, hcut, trivial⟩)
    · intro cleared planned σ hcall hclosed
      obtain ⟨t, id, hfields⟩ := hcall.fields
      have hended : wp env (service.deliver command cleared planned) _ σ :=
        (underway_of_planned hcall hclosed).wp_deliver hids hfault hwired hfields hcall.recorded
      exact hof hcall (hcall.deliver_ids hexecutor) hended
  exact hcases e he hnew

section Stranded

attribute [local instance] raceSha256

set_option maxRecDepth 100000 in
/-- The execution of a call that nothing interrupts has ended. -/
theorem call_ends_execution_open :
    ∃ e ∈ (run (openEnv raceOutcomes) (retryingCall.execute aliceCall)
        (.start .empty)).2.committed.executions,
      (e.val.status.Terminal ↔ ∀ ev ∈ (run (openEnv raceOutcomes) (retryingCall.execute aliceCall)
        (.start .empty)).2.trace, ¬ Strands ev) := by
  have hadded : (run (openEnv raceOutcomes) (retryingCall.execute aliceCall)
      (.start .empty)).2.committed.executions.rows ≠ [] := by decide +kernel
  obtain ⟨e, he⟩ := List.exists_mem_of_ne_nil _ hadded
  exact ⟨e, he, call_ends_execution_iff reachable_empty retryingCall (.retrying rfl) aliceCall
    (openEnv raceOutcomes) (freshIds_openEnv _) (fun _ _ _ _ h => by cases h) e he
    List.not_mem_nil⟩

/-- The surroundings of a call whose upstream takes a secret, which is read as told. -/
def securedEnv (secret : Except Exc SecretValue) : Env Gateway where
  answer σ
    | .resolveTool _ _ =>
      .ok (some { raceRequest.val.tool with upstreamAuthScheme := some "bearer" })
    | .resolveBinding _ _ _ _ => .ok (some tenantBinding)
    | .resolveSecret _ => secret
    | q => (openEnv raceOutcomes).answer σ q
  fault _ _ _ := none

/-- The gateway with credentials. -/
def securedCall : CallTool :=
  { retryingCall with hasCredentialBindingResolver := true, hasCredentialProvider := true }

set_option maxRecDepth 100000 in
/-- A cancellation while the secret is read leaves the execution running. -/
theorem cancelled_secret_strands :
    ¬ ∀ (service : CallTool) (command : CallToolCommand) (env : Env Gateway),
      Wired service.executor → FreshIds env → env.Faultless →
      ∀ e ∈ (run env (service.execute command) (.start .empty)).2.committed.executions,
        e.val.status.Terminal := by
  intro h
  have hfresh : FreshIds (securedEnv (.error .cancelled)) :=
    ⟨(freshIds_openEnv raceOutcomes).attempts, (freshIds_openEnv raceOutcomes).audits⟩
  have hended := h securedCall aliceCall (securedEnv (.error .cancelled)) (.retrying rfl) hfresh
    fun _ _ _ => rfl
  have hstranded : ((run (securedEnv (.error .cancelled)) (securedCall.execute aliceCall)
      (.start .empty)).2.committed.executions.rows.any fun e => e.val.status = .running) = true := by
    decide +kernel
  obtain ⟨e, he, hrunning⟩ := List.any_eq_true.1 hstranded
  have hterminal := hended e he
  rw [of_decide_eq_true hrunning] at hterminal
  exact absurd hterminal (by decide)

end Stranded

end NexusMcp
