-- SUMMARY: The attempts that the calls of a retrying executor leave behind, told by their outcomes.
import Mathlib.Data.List.Forall2
import NexusMcp.Execution.Conclusion

/-!
# Retried Calls

The calls of a retrying executor that nothing disturbs, told by their outcomes: each has an
attempt that records it, and the last one decides what the executor reports.
-/

namespace NexusMcp

open Txn ExecutionLifecycle Prog

/-! ## The outcomes of a call -/

def Ledger.attemptsOf (s : Ledger) (executionId : Id) : List ExecutionAttempt :=
  s.attempts.rows.filter (·.val.executionId = executionId)

/-- The attempt tells the outcome of its call, if that could be recorded. -/
inductive Tells (outcome : Except Exc ExecutorResult) (a : ExecutionAttempt) : Prop where
  | recorded {a₀ : ExecutionAttempt} {t : Time} (h : Recordable outcome)
    (hfinish : (ExecuteWithRetry.attemptOutcome outcome).transition a₀ t = .ok a)
  | lost (h : ¬ Recordable outcome) (hrunning : a.val.status = .running)

/-- A failure that is followed by another call. -/
def Retried (request : ExecutorRequest) (outcome : Except Exc ExecutorResult) : Prop :=
  Recordable outcome ∧ ∃ failure, outcome = .error (.executorFailure failure) ∧
    ExecuteWithRetry.disposition request failure = .retry

/-- What the executor of a call reports after these outcomes. -/
inductive Reported (retry : ExecuteWithRetry) (request : ExecutorRequest) :
    List (Except Exc ExecutorResult) → Except Exc ExecutorResult → Prop where
  | left {earlier last r} (hearlier : ∀ outcome ∈ earlier, Retried request outcome)
    (hlast : Recordable last) (hleaves : retry.Leaves request (earlier.length + 1) last r) :
    Reported retry request (earlier ++ [last]) r
  | lost {earlier last message} (hearlier : ∀ outcome ∈ earlier, Retried request outcome)
    (hlast : ¬ Recordable last) :
    Reported retry request (earlier ++ [last]) (.error (.valueError message))

/-- Everything but the questions of an executor. -/
def aside : Vocabulary Gateway where
  asks
    | .executeTool _ _ | .httpRequest _ => False
    | _ => True
  opens _ := True
  writes _ := True
  closes := True

theorem concluding_aside : Concluding aside where
  now := trivial
  newId := trivial
  sleep _ := trivial
  starts := trivial
  finishes := trivial
  registers _ _ _ := trivial
  adds _ := trivial
  saves _ := trivial
  closes := trivial
  ends := trivial
  concludes _ := trivial
  audits _ := trivial

/-- Questions only. -/
def asking : Vocabulary Gateway where
  asks _ := True
  opens _ := False
  writes _ := False
  closes := False

/-- The outcomes of a call are told by its executor alone. -/
structure Legible (Seen : List (Except Exc ExecutorResult) → List (Event Gateway) → Prop) :
    Prop where
  started : Seen [] []
  between : ∀ {outcomes new trace}, (∀ ev ∈ new, ev.Within aside) → Seen outcomes trace →
    Seen outcomes (new ++ trace)

theorem Legible.asked {Seen : List (Except Exc ExecutorResult) → List (Event Gateway) → Prop}
    (h : Legible Seen) (q : Query) {a : q.Answer} (haside : aside.asks q)
    {outcomes : List (Except Exc ExecutorResult)} {trace : List (Event Gateway)}
    (hseen : Seen outcomes trace) : Seen outcomes (.asked q a :: trace) :=
  have hnew : ∀ ev ∈ [Event.asked (I := Gateway) q a], ev.Within aside :=
    List.forall_mem_singleton.2 haside
  h.between hnew hseen

/-- The executor asks questions only, and tells how each of its calls ends. -/
structure Observed (env : Env Gateway) (request : ExecutorRequest)
    (executor : Program ExecutorResult)
    (Seen : List (Except Exc ExecutorResult) → List (Event Gateway) → Prop) : Prop where
  asking : executor.Within asking
  called : ∀ (σ : Session Gateway) outcomes, (∀ outcome ∈ outcomes, Retried request outcome) →
    Seen outcomes σ.trace →
    wp env executor (fun outcome σ' => outcome ≠ .error .cancelled ∧
      Seen (outcomes ++ [outcome]) σ'.trace) σ

/-- The store operations succeed, identifiers are new, and no sleep is interrupted. -/
structure Unhindered (env : Env Gateway) : Prop where
  faultless : env.Faultless
  ids : FreshIds env
  slept : ∀ σ seconds, env.answer σ (.sleep seconds) = .ok ()

/-! ## The attempts -/

section Attempts

variable {env : Env Gateway} {σ σ' : Session Gateway} {request : ExecutorRequest}
  {outcome : Except Exc ExecutorResult} {outcomes : List (Except Exc ExecutorResult)}

theorem transition_error {attemptOutcome : AttemptOutcome} {a : ExecutionAttempt} {t : Time}
    {x : Exc} (h : attemptOutcome.transition a t = .error x) :
    ∃ message, x = .valueError message := by
  cases attemptOutcome
  all_goals
    rcases raiseIf_bind_eq_error.1 h with ⟨-, hx⟩ | ⟨-, hx⟩
    · exact ⟨_, hx⟩
    · exact ⟨_, (error_of_construct hx).2⟩

/-- The status of an attempt that ended so. -/
def ExecutionLifecycle.AttemptOutcome.status : AttemptOutcome → ExecutionAttemptStatus
  | .succeeded _ => .succeeded
  | .failed _ _ outcomeUnknown _ => if outcomeUnknown then .unknown else .failed
  | .cancelled => .cancelled

theorem ExecutionLifecycle.AttemptOutcome.status_of_transition {attemptOutcome : AttemptOutcome}
    {a a' : ExecutionAttempt} {t : Time} (h : attemptOutcome.transition a t = .ok a') :
    a'.val.status = attemptOutcome.status := by
  cases attemptOutcome with
  | succeeded upstreamStatus => rw [(ExecutionAttempt.succeed_eq_ok.1 h).2]; rfl
  | failed code category outcomeUnknown upstreamStatus =>
    rw [(ExecutionAttempt.fail_eq_ok.1 h).2]
    rfl
  | cancelled => rw [(ExecutionAttempt.cancel_eq_ok.1 h).2]; rfl

/-- The status that an attempt has recorded is in range. -/
theorem ExecutionAttempt.recordableStatus (a : ExecutionAttempt) :
    ExecutionAttempt.RecordableStatus a.val.upstreamStatus := by
  have h := a.property
  intro status hstatus
  simp only [Valid, PostInit.checks, List.forall_mem_cons, hstatus] at h
  simpa using h.2.2.2.2.1

theorem recordable_of_transition {a a' : ExecutionAttempt} {t : Time}
    (h : (ExecuteWithRetry.attemptOutcome outcome).transition a t = .ok a')
    (hcancelled : outcome ≠ .error .cancelled) : Recordable outcome := by
  have hstatus := a'.recordableStatus
  rcases outcome with (_ | failure | _ | _ | _ | _) | result
  case error.executorFailure =>
    obtain ⟨-, hval⟩ := ExecutionAttempt.fail_eq_ok.1 h
    rw [hval] at hstatus
    exact hstatus
  case ok =>
    obtain ⟨-, hval⟩ := ExecutionAttempt.succeed_eq_ok.1 h
    rw [hval] at hstatus
    exact hstatus
  case error.cancelled => exact absurd rfl hcancelled
  all_goals exact fun h => by cases h

/-- An outcome that cannot be recorded leaves the attempt as it is. -/
theorem wp_record_lost (hfault : env.Faultless) (hσ : Attemptable request σ)
    {a : ExecutionAttempt} {rows : List ExecutionAttempt}
    (hrows : σ.committed.attempts.rows = rows ++ [a])
    (htenant : a.val.tenantId = request.val.tool.tenantId) (hrunning : a.val.status = .running)
    (hcancelled : outcome ≠ .error .cancelled) (houtcome : ¬ Recordable outcome) :
    wp env (ExecuteWithRetry.record request.val.tool.tenantId a.val.id outcome)
      (fun r σ' => (∃ message, r = .error (.valueError message)) ∧ Attemptable request σ' ∧
        σ'.committed = σ.committed) σ := by
  have hmem : a ∈ σ.committed.attempts := by
    rw [← Table.mem_rows, hrows]
    simp
  have hfound : σ.committed.attempt? request.val.tool.tenantId a.val.id = some a :=
    Ledger.attempt?_eq_some.2 ⟨Table.find?_of_mem hmem, htenant⟩
  rw [ExecuteWithRetry.record_eq]
  unfold finishAttempt
  simp only [Prog.bind_eq, Prog.pure_eq]
  have h := (inside_of_settled hσ.settled).asked (q := .now) (a := env.answer σ .now) rfl
  refine wp_ask_bind (wp_uow_faultless hfault ?_)
  refine h.wp_getAttempt (stops_of_faultless hfault) fun σ₁ h₁ => ?_
  rw [hfound]
  refine wp_orRaise_bind (fun hnone => by cases hnone) fun x hx => ?_
  cases hx
  refine wp_raiseIf_bind (fun hnot => absurd hrunning hnot) fun _ => ?_
  -- The attempt refuses the status code, so the transaction is left before its commit.
  refine wp_lift_bind (fun x hx => ?_) fun a' hfinish =>
    absurd (recordable_of_transition hfinish hcancelled) houtcome
  obtain ⟨message, rfl⟩ := transition_error hx
  have hcommitted : (σ₁.did .finishAttempt .close).committed = σ.committed := h₁.committed
  refine ⟨⟨message, rfl⟩, ⟨rfl, ?_, ?_⟩, hcommitted⟩
  · rw [hcommitted]
    exact hσ.inv
  · rw [hcommitted]
    exact hσ.running

/-- The calls of the loop so far, and their attempts. -/
structure Progress (request : ExecutorRequest) (outcomes : List (Except Exc ExecutorResult))
    (σ : Session Gateway) : Prop where
  attemptable : Attemptable request σ
  attempts : List.Forall₂ Tells outcomes (σ.committed.attemptsOf request.val.executionId)

theorem attemptsOf_append {s s' : Ledger} {id : Id} {a : ExecutionAttempt}
    (hrows : s'.attempts.rows = s.attempts.rows ++ [a]) (hexecution : a.val.executionId = id) :
    s'.attemptsOf id = s.attemptsOf id ++ [a] := by
  simp [Ledger.attemptsOf, hrows, hexecution]

theorem Progress.append (h : Progress request outcomes σ) (hσ : Attemptable request σ')
    {a : ExecutionAttempt}
    (hrows : σ'.committed.attempts.rows = σ.committed.attempts.rows ++ [a])
    (hexecution : a.val.executionId = request.val.executionId) (htells : Tells outcome a) :
    Progress request (outcomes ++ [outcome]) σ' := by
  refine ⟨hσ, ?_⟩
  rw [attemptsOf_append hrows hexecution]
  exact List.rel_append h.attempts (.cons htells .nil)

end Attempts

/-! ## The loop -/

namespace ExecuteWithRetry

variable {env : Env Gateway} {self : ExecuteWithRetry} {request : ExecutorRequest}
  {credential : Option ResolvedCredential} {σ : Session Gateway}
  {outcomes : List (Except Exc ExecutorResult)}
  {Seen : List (Except Exc ExecutorResult) → List (Event Gateway) → Prop}

/-- One call, whose outcome is recorded if it can be. -/
theorem wp_round (henv : Unhindered env) (hlegible : Legible Seen)
    (hobserved : Observed env request (self.executor request credential) Seen)
    (h : Progress request outcomes σ) (hseen : Seen outcomes σ.trace)
    (hretried : ∀ outcome ∈ outcomes, Retried request outcome) {α : Type}
    {k : Except Exc ExecutorResult → Program α} {Q : Except Exc α → Session Gateway → Prop}
    (hrecorded : ∀ outcome σ', Recordable outcome → Progress request (outcomes ++ [outcome]) σ' →
      Seen (outcomes ++ [outcome]) σ'.trace → wp env (k outcome) Q σ')
    (hlost : ∀ outcome message σ', ¬ Recordable outcome →
      Progress request (outcomes ++ [outcome]) σ' → Seen (outcomes ++ [outcome]) σ'.trace →
      Q (.error (.valueError message)) σ') :
    wp env (do
      let attempt ← startAttempt request.val.tool.tenantId request.val.executionId
      let outcome ← (self.executor request credential).attempt
      let _ ← record request.val.tool.tenantId attempt.val.id outcome
      k outcome) Q σ := by
  have hfault := henv.faultless
  -- the transactions of the attempt are not among the outcomes
  have hquiet : ∀ {β : Type} {p : Program β} {outcomes : List (Except Exc ExecutorResult)}
      (σ : Session Gateway), p.Within aside → Seen outcomes σ.trace →
      Seen outcomes (run env p σ).2.trace := by
    intro β p outcomes σ hwithin hseen
    obtain ⟨new, htrace, hevents⟩ := run_within env hwithin σ
    rw [htrace]
    exact hlegible.between hevents hseen
  simp only [Prog.bind_eq]
  have hstart : wp env (startAttempt request.val.tool.tenantId request.val.executionId)
      (fun r σ' => (∃ a, r = .ok a ∧ Started request σ a σ') ∧ Seen outcomes σ'.trace) σ :=
    ⟨wp_startAttempt hfault henv.ids.attempts h.attemptable,
      hquiet σ (concluding_aside.toAttempting.startAttempt _ _) hseen⟩
  refine wp_bind.2 (wp_mono ?_ hstart)
  rintro _ σ₁ ⟨⟨a, rfl, hstarted⟩, hseen₁⟩
  have hcalled : wp env (self.executor request credential) (fun outcome σ' =>
      (outcome ≠ .error .cancelled ∧ Seen (outcomes ++ [outcome]) σ'.trace) ∧
        σ'.committed = σ₁.committed ∧ σ'.view = σ₁.committed) σ₁ :=
    ⟨hobserved.called σ₁ outcomes hretried hseen₁,
      run_keeps (f := id) env (fun _ h => absurd h id) hobserved.asking
        hstarted.attemptable.settled⟩
  refine wp_bind.2 (wp_attempt.2 (wp_mono ?_ hcalled))
  rintro outcome σ₂ ⟨⟨hcancelled, hseen₂⟩, hcommitted, hview⟩
  -- The executor commits nothing, so the attempt stands as it was started.
  have hσ₂ : Attemptable request σ₂ := by
    obtain ⟨-, hinv, hrunning⟩ := hstarted.attemptable
    refine ⟨?_, by rwa [hcommitted], by rwa [hcommitted]⟩
    rw [Session.Settled, hview, hcommitted]
  have hrows : σ₂.committed.attempts.rows = σ.committed.attempts.rows ++ [a] := by
    rw [hcommitted, hstarted.rows]
  have hquiet₂ := hquiet σ₂ (record_eq request.val.tool.tenantId a.val.id outcome ▸
    concluding_aside.toAttempting.finishAttempt _ _ _) hseen₂
  -- The attempt records the outcome, or raises over a status that it cannot hold.
  by_cases houtcome : Recordable outcome
  · have hrecord : wp env (record request.val.tool.tenantId a.val.id outcome) (fun r σ' =>
        (∃ a', r = .ok a' ∧ Finished request σ.committed.attempts.rows outcome σ₂ a a' σ') ∧
          Seen (outcomes ++ [outcome]) σ'.trace) σ₂ :=
      ⟨wp_record hfault hσ₂ hrows hstarted.tenantId hstarted.running houtcome, hquiet₂⟩
    refine wp_bind.2 (wp_mono ?_ hrecord)
    rintro _ σ₃ ⟨⟨a', rfl, hfinished⟩, hseen₃⟩
    obtain ⟨t, hfinish⟩ := hfinished.records
    have hexecution : a'.val.executionId = request.val.executionId :=
      (congrArg (·.val.executionId) (ExecutionAttempt.revises_of_finish hfinish).symm).trans
        hstarted.executionId
    exact hrecorded outcome σ₃ houtcome
      (h.append hfinished.attemptable hfinished.rows hexecution (.recorded houtcome hfinish)) hseen₃
  · have hrecord : wp env (record request.val.tool.tenantId a.val.id outcome) (fun r σ' =>
        ((∃ message, r = .error (.valueError message)) ∧ Attemptable request σ' ∧
          σ'.committed = σ₂.committed) ∧ Seen (outcomes ++ [outcome]) σ'.trace) σ₂ :=
      ⟨wp_record_lost hfault hσ₂ hrows hstarted.tenantId hstarted.running hcancelled houtcome,
        hquiet₂⟩
    refine wp_bind.2 (wp_mono ?_ hrecord)
    rintro _ σ₃ ⟨⟨⟨message, rfl⟩, hσ₃, hcommitted₃⟩, hseen₃⟩
    refine hlost outcome message σ₃ houtcome (h.append hσ₃ ?_ hstarted.executionId
      (.lost houtcome hstarted.running)) hseen₃
    rw [hcommitted₃, hrows]

theorem retried_of_not_ends {outcome : Except Exc ExecutorResult} (houtcome : Recordable outcome)
    (h : ¬ Ends request outcome) : Retried request outcome := by
  refine ⟨houtcome, ?_⟩
  rcases outcome with (_ | failure | _ | _ | _ | _) | _
  case error.executorFailure => exact ⟨failure, rfl, not_not.1 h⟩
  all_goals exact absurd trivial h

theorem wp_loop_reported (henv : Unhindered env) (hlegible : Legible Seen)
    (hobserved : Observed env request (self.executor request credential) Seen) (remaining : Nat)
    (hmax : self.maxAttempts = outcomes.length + 1 + remaining)
    (hbound : outcomes.length + 1 ≤ overflowingAttempt)
    (h : Progress request outcomes σ) (hseen : Seen outcomes σ.trace)
    (hretried : ∀ outcome ∈ outcomes, Retried request outcome) :
    wp env (self.loop request credential (remaining + 1) (outcomes.length + 1)) (fun r σ' =>
      ∃ outcomes', Progress request outcomes' σ' ∧ Seen outcomes' σ'.trace ∧
        Reported self request outcomes' r) σ := by
  induction remaining generalizing outcomes σ with
  | zero =>
    simp only [loop, Prog.bind_eq]
    refine wp_round henv hlegible hobserved h hseen hretried
      (fun outcome σ' houtcome h' hseen' => ?_)
      fun outcome message σ' houtcome h' hseen' => ⟨_, h', hseen', .lost hretried houtcome⟩
    exact wp_proceed_of_ends (fun _ => rfl) (.inr hmax.symm)
      ⟨_, h', hseen', .left hretried houtcome (.passed (.inr hmax.symm))⟩
  | succ remaining ih =>
    rw [loop]
    simp only [Prog.bind_eq]
    refine wp_round henv hlegible hobserved h hseen hretried
      (fun outcome σ' houtcome h' hseen' => ?_)
      fun outcome message σ' houtcome h' hseen' => ⟨_, h', hseen', .lost hretried houtcome⟩
    have hlt : outcomes.length + 1 < self.maxAttempts := by omega
    by_cases hends : Ends request outcome
    · exact wp_proceed_of_ends (fun _ => rfl) (.inl hends)
        ⟨_, h', hseen', .left hretried houtcome (.passed (.inl hends))⟩
    -- another call is due: its backoff raises, or is slept through
    obtain hover | hfits := Nat.eq_or_lt_of_le hbound
    · exact wp_proceed_of_overflow hends hlt hover.ge
        ⟨_, h', hseen', .left hretried houtcome (.overflowed hends hlt hover)⟩
    · refine wp_proceed_of_not_ends henv.slept hends hlt hfits ?_
      have hseen'' : Seen (outcomes ++ [outcome])
          (σ'.asked (.sleep (self.backoffSeconds (outcomes.length + 1))) (.ok ())).trace :=
        hlegible.asked (.sleep _) trivial hseen'
      have hlength : (outcomes ++ [outcome]).length = outcomes.length + 1 := by simp
      have hretried' : ∀ o ∈ outcomes ++ [outcome], Retried request o := by
        intro o ho
        rcases List.mem_append.1 ho with ho | ho
        · exact hretried o ho
        · rw [List.mem_singleton.1 ho]
          exact retried_of_not_ends houtcome hends
      have hlater := ih (by omega) (by omega) ⟨h'.attemptable.asked, h'.attempts⟩ hseen'' hretried'
      rwa [hlength] at hlater

end ExecuteWithRetry

end NexusMcp
