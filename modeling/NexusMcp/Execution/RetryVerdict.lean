-- SUMMARY: When retries that end on a definite failure overrule an earlier unknown outcome.
import NexusMcp.Execution.DeliveredCalls

/-!
# The Verdict of Retried Writes

The execution of a write takes its status from the last outcome of its executor. It is honest
unless that outcome is a definite failure and an earlier one was unknown.
-/

namespace NexusMcp

open Txn ExecutionLifecycle Prog

/-! ## The replies of an executor -/

/-- The outcomes that the executor outside the gateway has replied with, oldest first. -/
def replies (trace : List (Event Gateway)) : List (Except Exc ExecutorResult) :=
  trace.reverse.filterMap fun
    | .asked (.executeTool _ _) outcome => some outcome
    | _ => none

theorem replies_append (new trace : List (Event Gateway)) :
    replies (new ++ trace) = replies trace ++ replies new := by
  simp [replies]

theorem replies_of_aside {new : List (Event Gateway)} (h : ∀ ev ∈ new, ev.Within aside) :
    replies new = [] := by
  refine List.filterMap_eq_nil_iff.2 fun ev hev => ?_
  have haside := h ev (List.mem_reverse.1 hev)
  rcases ev with ⟨q, a⟩ | _ | _
  · cases q <;> first | rfl | exact absurd haside id
  · rfl
  · rfl

theorem legible_replies : Legible fun outcomes trace => replies trace = outcomes where
  started := rfl
  between haside hseen := by rw [replies_append, replies_of_aside haside, hseen, List.append_nil]

/-- The executor outside the gateway replies, and is not cancelled. -/
def Replies (env : Env Gateway) : Prop :=
  ∀ σ request credential, env.answer σ (.executeTool request credential) ≠ .error .cancelled

theorem observed_replies {env : Env Gateway} (henv : Replies env) (request : ExecutorRequest)
    (credential : Option ResolvedCredential) :
    Observed env request (askExecutor request credential)
      fun outcomes trace => replies trace = outcomes where
  asking := within_ask trivial fun _ => within_lift _
  called σ outcomes _ hseen := by
    refine wp_ask.2 (wp_lift.2 ⟨henv σ request credential, ?_⟩)
    change replies ([_] ++ σ.trace) = _
    rw [replies_append, hseen]
    rfl

/-! ## Honest verdicts -/

/-- The execution does not tell more than its attempts. -/
structure HonestVerdict (e : ToolExecution) (attempts : List ExecutionAttempt) : Prop where
  unknown : (∃ a ∈ attempts, a.val.status = .unknown) →
    (∀ a ∈ attempts, a.val.status ≠ .succeeded) → e.val.status = .unknown
  failed : e.val.status = .failed → ∀ a ∈ attempts, a.val.status = .failed

/-- The failure of a write is to be retried, after an attempt whose backoff raises. -/
def ExecuteWithRetry.Overflows (retry : ExecuteWithRetry) (attemptNumber : Nat)
    (failure : ExecutorFailure) : Prop :=
  attemptNumber = overflowingAttempt ∧ attemptNumber < retry.maxAttempts ∧
    retryDisposition .idempotentWrite failure.category true = .retry

/-- The last outcome is a definite failure that is recorded and reported, and an earlier one was
    unknown. -/
def Overruled (retry : ExecuteWithRetry) (outcomes : List (Except Exc ExecutorResult)) : Prop :=
  ∃ earlier last, outcomes = earlier ++ [.error (.executorFailure last)] ∧
    last.outcomeUnknown = false ∧ ExecutionAttempt.RecordableStatus last.upstreamStatus ∧
    ¬ retry.Overflows (earlier.length + 1) last ∧
    ∃ failure, .error (.executorFailure failure) ∈ earlier ∧ failure.outcomeUnknown = true

theorem Tells.status_of_recordable {outcome : Except Exc ExecutorResult} {a : ExecutionAttempt}
    (h : Tells outcome a) (houtcome : Recordable outcome) :
    a.val.status = (ExecuteWithRetry.attemptOutcome outcome).status := by
  cases h with
  | recorded _ hfinish => exact AttemptOutcome.status_of_transition hfinish
  | lost hlost _ => exact absurd houtcome hlost

/-- A write of which a failure is retried is idempotent, and has a key. -/
theorem disposition_eq_of_retried {request : ExecutorRequest}
    (hwrite : request.val.tool.sideEffect ≠ .readOnly) {failure : ExecutorFailure}
    (h : ExecuteWithRetry.disposition request failure = .retry) (failure' : ExecutorFailure) :
    ExecuteWithRetry.disposition request failure' =
      retryDisposition .idempotentWrite failure'.category true := by
  unfold ExecuteWithRetry.disposition retryDisposition at h
  split_ifs at h with _ _ _ hidempotent
  rw [ExecuteWithRetry.disposition, hidempotent.1, hidempotent.2]

/-- A write passes on what its last call failed with. -/
theorem passedOn_of_write {request : ExecutorRequest}
    (hwrite : request.val.tool.sideEffect ≠ .readOnly) (outcome : Except Exc ExecutorResult) :
    ExecuteWithRetry.passedOn request outcome = outcome := by
  rcases outcome with (_ | failure | _ | _ | _ | _) | result
  case error.executorFailure =>
    rw [ExecuteWithRetry.passedOn, ExecuteWithRetry.escaping, if_neg fun h => hwrite h.1]
  all_goals rfl

section Verdicts

variable {outcomes : List (Except Exc ExecutorResult)} {attempts : List ExecutionAttempt}
  {e : ToolExecution}

/-- Each outcome has its attempt, at its place. -/
theorem exists_attempt_at (h : List.Forall₂ Tells outcomes attempts) {i : Nat}
    {outcome : Except Exc ExecutorResult} (houtcome : outcomes[i]? = some outcome) :
    ∃ a, attempts[i]? = some a ∧ Tells outcome a := by
  induction h generalizing i with
  | nil => cases houtcome
  | @cons _ a _ _ htells _ ih =>
    cases i with
    | zero =>
      cases houtcome
      exact ⟨a, rfl, htells⟩
    | succ i => exact ih houtcome

theorem exists_attempt (h : List.Forall₂ Tells outcomes attempts)
    {outcome : Except Exc ExecutorResult} (houtcome : outcome ∈ outcomes) :
    ∃ a ∈ attempts, Tells outcome a := by
  obtain ⟨i, hi⟩ := List.getElem?_of_mem houtcome
  obtain ⟨a, ha, htells⟩ := exists_attempt_at h hi
  exact ⟨a, List.mem_of_getElem? ha, htells⟩

/-- Each attempt has its outcome. -/
theorem exists_outcome (h : List.Forall₂ Tells outcomes attempts) {a : ExecutionAttempt}
    (ha : a ∈ attempts) : ∃ outcome ∈ outcomes, Tells outcome a := by
  induction h with
  | nil => cases ha
  | @cons outcome _ _ _ htells _ ih =>
    cases ha with
    | head => exact ⟨outcome, List.mem_cons_self, htells⟩
    | tail _ ha =>
      obtain ⟨outcome', houtcome', htells'⟩ := ih ha
      exact ⟨outcome', List.mem_cons_of_mem _ houtcome', htells'⟩

theorem honestVerdict_of_unknown (h : e.val.status = .unknown) : HonestVerdict e attempts where
  unknown _ _ := h
  failed hfailed := by
    rw [h] at hfailed
    cases hfailed

theorem honestVerdict_of_succeeded (h : e.val.status = .succeeded)
    (hattempt : ∃ a ∈ attempts, a.val.status = .succeeded) : HonestVerdict e attempts where
  unknown _ hnone := by
    obtain ⟨a, ha, hsucceeded⟩ := hattempt
    exact absurd hsucceeded (hnone a ha)
  failed hfailed := by
    rw [h] at hfailed
    cases hfailed

/-- A failed execution is honest when no earlier failure was of an unknown outcome. -/
theorem honestVerdict_iff_of_failed {request : ExecutorRequest}
    {earlier : List (Except Exc ExecutorResult)} {last : ExecutorFailure}
    (hearlier : ∀ outcome ∈ earlier, Retried request outcome)
    (hlast : ExecutionAttempt.RecordableStatus last.upstreamStatus)
    (hdefinite : last.outcomeUnknown = false)
    (htells : List.Forall₂ Tells (earlier ++ [.error (.executorFailure last)]) attempts)
    (hstatus : e.val.status = .failed) :
    HonestVerdict e attempts ↔
      ¬ ∃ failure, .error (.executorFailure failure) ∈ earlier ∧ failure.outcomeUnknown = true := by
  constructor
  · rintro hhonest ⟨failure, hmem, hunknown⟩
    obtain ⟨a, ha, htell⟩ := exists_attempt htells (List.mem_append_left _ hmem)
    -- Its attempt is recorded as unknown, while a failed execution has failed attempts only.
    have hfailed := hhonest.failed hstatus a ha
    rw [htell.status_of_recordable (hearlier _ hmem).1] at hfailed
    simp [ExecuteWithRetry.attemptOutcome, AttemptOutcome.status, hunknown] at hfailed
  · intro hnone
    -- Every attempt tells of a failure that was definite, the last one included.
    have hall : ∀ a ∈ attempts, a.val.status = .failed := by
      intro a ha
      obtain ⟨outcome, hmem, htell⟩ := exists_outcome htells ha
      obtain hmem | hmem := List.mem_append.1 hmem
      · obtain ⟨hrecordable, failure, rfl, -⟩ := hearlier outcome hmem
        have hknown : failure.outcomeUnknown = false :=
          Bool.eq_false_iff.2 fun hunknown => hnone ⟨failure, hmem, hunknown⟩
        rw [htell.status_of_recordable hrecordable]
        simp [ExecuteWithRetry.attemptOutcome, AttemptOutcome.status, hknown]
      · cases List.mem_singleton.1 hmem
        rw [htell.status_of_recordable hlast]
        simp [ExecuteWithRetry.attemptOutcome, AttemptOutcome.status, hdefinite]
    refine ⟨fun ⟨a, ha, hunknown⟩ _ => ?_, fun _ => hall⟩
    rw [hall a ha] at hunknown
    cases hunknown

theorem overruled_iff {retry : ExecuteWithRetry} {earlier : List (Except Exc ExecutorResult)}
    {last : Except Exc ExecutorResult} : Overruled retry (earlier ++ [last]) ↔
      ∃ failure : ExecutorFailure, last = .error (.executorFailure failure) ∧
        failure.outcomeUnknown = false ∧
        ExecutionAttempt.RecordableStatus failure.upstreamStatus ∧
        ¬ retry.Overflows (earlier.length + 1) failure ∧
        ∃ failure, .error (.executorFailure failure) ∈ earlier ∧ failure.outcomeUnknown = true := by
  constructor
  · rintro ⟨earlier', failure, heq, h⟩
    obtain ⟨rfl, rfl⟩ := List.append_singleton_inj.1 heq
    exact ⟨failure, rfl, h⟩
  · rintro ⟨failure, rfl, h⟩
    exact ⟨earlier, failure, rfl, h⟩

theorem honestVerdict_iff {retry : ExecuteWithRetry} {request : ExecutorRequest}
    {r : Except Exc ExecutorResult} (hwrite : request.val.tool.sideEffect ≠ .readOnly)
    (htells : List.Forall₂ Tells outcomes attempts)
    (hreported : Reported retry request outcomes r)
    (hstatus : e.val.status = (conclusion r).status) :
    HonestVerdict e attempts ↔ ¬ Overruled retry outcomes := by
  cases hreported with
  | @lost earlier last message hearlier hlast =>
    refine iff_of_true (honestVerdict_of_unknown hstatus) fun hoverruled => hlast ?_
    obtain ⟨failure, rfl, -, hrecordable, -⟩ := overruled_iff.1 hoverruled
    exact hrecordable
  | @left earlier last _ hearlier hlast hleaves =>
    -- the earlier failures were retried, so the last one is judged as they were
    have hdisposition : ∀ {failure : ExecutorFailure},
        .error (.executorFailure failure) ∈ earlier → ∀ failure',
          ExecuteWithRetry.disposition request failure' =
            retryDisposition .idempotentWrite failure'.category true := by
      intro failure hmem
      obtain ⟨-, _, hfailure, hretry⟩ := hearlier _ hmem
      cases hfailure
      exact disposition_eq_of_retried hwrite hretry
    rw [overruled_iff]
    cases hleaves with
    | overflowed hends hlt hover =>
      refine iff_of_true (honestVerdict_of_unknown hstatus) ?_
      rintro ⟨failure, rfl, -, -, hfits, unknown, hmem, -⟩
      refine hfits ⟨hover, hlt, ?_⟩
      rw [← hdisposition hmem]
      exact not_not.1 hends
    | passed hends =>
      rw [passedOn_of_write hwrite] at hstatus
      rcases last with (_ | failure | _ | _ | _ | _) | result
      case error.executorFailure =>
        cases hunknown : failure.outcomeUnknown with
        | true =>
          rw [conclusion, hunknown] at hstatus
          refine iff_of_true (honestVerdict_of_unknown hstatus) ?_
          rintro ⟨failure', heq, hdefinite, -⟩
          cases heq
          rw [hunknown] at hdefinite
          cases hdefinite
        | false =>
          rw [conclusion, hunknown] at hstatus
          rw [honestVerdict_iff_of_failed hearlier hlast hunknown htells hstatus]
          refine not_congr ⟨fun hearly => ⟨failure, rfl, hunknown, hlast, ?_, hearly⟩, ?_⟩
          · obtain ⟨unknown, hmem, -⟩ := hearly
            rintro ⟨-, hlt, hretry⟩
            obtain hends | hmax := hends
            · exact hends ((hdisposition hmem failure).trans hretry)
            · exact absurd hmax (Nat.ne_of_lt hlt)
          · rintro ⟨_, -, -, -, -, hearly⟩
            exact hearly
      case error.cancelled => exact absurd rfl hlast
      case ok =>
        obtain ⟨a, ha, htell⟩ :=
          exists_attempt htells (List.mem_append_right _ List.mem_cons_self)
        refine iff_of_true (honestVerdict_of_succeeded hstatus ⟨a, ha, ?_⟩) ?_
        · exact htell.status_of_recordable hlast
        · rintro ⟨_, heq, -⟩
          cases heq
      all_goals
        refine iff_of_true (honestVerdict_of_unknown hstatus) ?_
        rintro ⟨_, heq, -⟩
        cases heq

end Verdicts

/-- The verdict over every write that a call adds is honest exactly when the outcomes of its
    executor do not end on a definite failure that it reports and that an unknown one precedes. -/
theorem retried_write_honest_iff [Sha256] {Pid : Type} {commands : Pid → LedgerCommand}
    {w : World Gateway Pid (fun p => (commands p).Result)} (hw : Reachable commands w)
    (retry : ExecuteWithRetry) (hinner : retry.executor = askExecutor) (service : CallTool)
    (hservice : service.executor = retry.execute) (command : CallToolCommand) (env : Env Gateway)
    (henv : Unhindered env) (hreplies : Replies env) (e : ToolExecution)
    (he : e ∈ (run env (service.execute command) (.start w.store)).2.committed.executions)
    (hnew : e.val.id ∉ w.store.executionIds) (hwrite : e.val.sideEffect ≠ .readOnly) :
    HonestVerdict e
        ((run env (service.execute command) (.start w.store)).2.committed.attemptsOf e.val.id) ↔
      ¬ Overruled retry (replies (run env (service.execute command) (.start w.store)).2.trace) := by
  have htold : wp env (service.execute command) _ (.start w.store) :=
    wp_execute_told hw.inv henv legible_replies hservice fun request credential =>
      hinner ▸ observed_replies hreplies request credential
  cases htold e he hnew with
  | uncalled hseen hattempts hstatus =>
    rw [hseen, hattempts]
    refine iff_of_true ⟨fun ⟨_, ha, _⟩ => absurd ha List.not_mem_nil, fun _ _ ha => ?_⟩ ?_
    · exact absurd ha List.not_mem_nil
    · rintro ⟨earlier, _, hnil, -⟩
      exact absurd hnil.symm (List.append_ne_nil_of_right_ne_nil _ (List.cons_ne_nil _ _))
  | called hsideEffect hseen hattempts hreported hstatus =>
    rw [hseen]
    exact honestVerdict_iff (hsideEffect ▸ hwrite) hattempts hreported hstatus

section Overruled

theorem unhindered_openEnv (outcomes : Nat → Except Exc ExecutorResult) :
    Unhindered (openEnv outcomes) where
  faultless _ _ _ := rfl
  ids := freshIds_openEnv outcomes
  slept _ _ := rfl

theorem replies_openEnv {outcomes : Nat → Except Exc ExecutorResult}
    (h : ∀ k, outcomes k ≠ .error .cancelled) : Replies (openEnv outcomes) :=
  fun σ _ _ => h (callsIn (timeline σ) + 1)

attribute [local instance] raceSha256

theorem raceOutcomes_ne_cancelled (k : Nat) : raceOutcomes k ≠ .error .cancelled := by
  unfold raceOutcomes
  split <;> simp

set_option maxRecDepth 100000 in
/-- A write that succeeds after a network error is told as it was. -/
theorem retried_write_honest_race :
    ∃ e ∈ (run (openEnv raceOutcomes) (retryingCall.execute aliceCall)
        (.start .empty)).2.committed.executions,
      (HonestVerdict e ((run (openEnv raceOutcomes) (retryingCall.execute aliceCall)
          (.start .empty)).2.committed.attemptsOf e.val.id) ↔
        ¬ Overruled raceRetry (replies (run (openEnv raceOutcomes) (retryingCall.execute aliceCall)
          (.start .empty)).2.trace)) := by
  have hadded : ((run (openEnv raceOutcomes) (retryingCall.execute aliceCall)
      (.start .empty)).2.committed.executions.rows.any
        fun e => e.val.sideEffect = .idempotentWrite) = true := by decide +kernel
  obtain ⟨e, he, hsideEffect⟩ := List.any_eq_true.1 hadded
  have hwrite : e.val.sideEffect ≠ .readOnly := by
    rw [of_decide_eq_true hsideEffect]
    decide
  exact ⟨e, he, retried_write_honest_iff reachable_empty raceRetry rfl retryingCall rfl aliceCall
    (openEnv raceOutcomes) (unhindered_openEnv _) (replies_openEnv raceOutcomes_ne_cancelled) e he
    List.not_mem_nil hwrite⟩

/-- The first call times out after it was sent, and the others are refused. -/
def overruledOutcomes : Nat → Except Exc ExecutorResult
  | 1 => .error (.executorFailure
    { code := "upstream_timeout", category := .timeoutAfterSend, outcomeUnknown := true })
  | _ => .error (.executorFailure
    { code := "upstream_409", category := .upstream4xx, upstreamStatus := some 409 })

set_option maxRecDepth 100000 in
/-- A write that was timed out and then refused is told as failed. -/
theorem refused_retry_overrules_timeout :
    ¬ ∀ (retry : ExecuteWithRetry) (service : CallTool) (command : CallToolCommand)
      (env : Env Gateway), retry.executor = askExecutor → service.executor = retry.execute →
      Unhindered env → Replies env →
      ∀ e ∈ (run env (service.execute command) (.start .empty)).2.committed.executions,
        e.val.sideEffect ≠ .readOnly →
        HonestVerdict e ((run env (service.execute command)
          (.start .empty)).2.committed.attemptsOf e.val.id) := by
  intro h
  have hne : ∀ k, overruledOutcomes k ≠ .error .cancelled := by
    intro k
    unfold overruledOutcomes
    split <;> simp
  have hhonest := h raceRetry retryingCall aliceCall (openEnv overruledOutcomes) rfl rfl
    (unhindered_openEnv _) (replies_openEnv hne)
  have hfailed : ((run (openEnv overruledOutcomes) (retryingCall.execute aliceCall)
      (.start .empty)).2.committed.executions.rows.any fun e =>
        e.val.sideEffect = .idempotentWrite ∧ e.val.status = .failed ∧
          ((run (openEnv overruledOutcomes) (retryingCall.execute aliceCall)
            (.start .empty)).2.committed.attemptsOf e.val.id).any
              fun a => a.val.status = .unknown) = true := by decide +kernel
  obtain ⟨e, he, hall⟩ := List.any_eq_true.1 hfailed
  obtain ⟨hsideEffect, hstatus, hunknown⟩ := of_decide_eq_true hall
  have hwrite : e.val.sideEffect ≠ .readOnly := by
    rw [hsideEffect]
    decide
  obtain ⟨a, ha, hattempt⟩ := List.any_eq_true.1 hunknown
  have hall := (hhonest e he hwrite).failed hstatus a ha
  rw [of_decide_eq_true hattempt] at hall
  cases hall

end Overruled

end NexusMcp
