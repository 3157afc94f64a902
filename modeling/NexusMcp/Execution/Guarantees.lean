-- SUMMARY: What holds of the ledger in every reachable world: approvals, idempotency keys, attempts and audits.
import NexusMcp.Execution.Commands

/-!
# Guarantees of the Ledger

The commands run by any number of callers, interleaved at every operation, and each
operation may be interrupted.
-/

namespace NexusMcp

open Txn ExecutionLifecycle Contract

/-! ## A race -/

/-- Answers for the questions of a process whose answers do not matter. -/
def someAnswer : (q : Query) → q.Answer
  | .now => (0 : Nat)
  | .newId => ""
  | .resolvePrincipal _ => .error .cancelled
  | .resolveTool _ _ => .error .cancelled
  | .validateArguments _ _ => .error .cancelled
  | .evaluatePolicy _ => .error .cancelled
  | .validateEndpoint _ => .error .cancelled
  | .resolveBinding _ _ _ _ => .error .cancelled
  | .resolveSecret _ => .error .cancelled
  | .executeTool _ _ => .error .cancelled
  | .sleep _ => .error .cancelled
  | .httpRequest _ => .timeoutException

/-- SHA-256 on `{}`, the only arguments of the race. -/
abbrev raceSha256 : Sha256 :=
  ⟨fun _ => "44136fa355b3678a1146ad16f7e8649e94fb4fc21fe77e8310c060f61caaff8a"⟩

def raceContext (principalId : Id) : ActorContext :=
  { requestId := "request", traceId := "trace", tenantId := "tenant", principalId := principalId,
    authnMethod := "key" }

/-- Both callers plan the same call, with one key and one approval. -/
def racePlan : PlanExecutionCommand :=
  { context := raceContext "alice", principalId := "alice", toolId := "tool",
    toolVersionId := "version", toolBindingId := "binding",
    argumentsDigest := raceSha256.hexdigest "{}", policyVersion := "policy",
    policyReasonCode := "approved", sideEffect := .idempotentWrite,
    approvalId := some "approval", idempotencyKey := some "key" }

/-- Alice requests an approval, Bob gives it and two callers plan with it. -/
def raceCommands : Fin 4 → LedgerCommand
  | 0 => .requestApproval ⟨10⟩
    { context := raceContext "alice", principalId := "alice", toolId := "tool",
      toolVersionId := "version", argumentsDigest := racePlan.argumentsDigest,
      policyVersion := "policy", idempotencyKey := some "key" }
  | 1 => .decideApproval { context := raceContext "bob", approvalId := "approval", approved := true }
  | 2 => .plan racePlan
  | 3 => .plan racePlan

/-- Time stands still and every identifier is new. -/
def raceAnswer (p : Fin 4) : (q : Query) → q.Answer
  | .newId => match p with
    | 0 => "approval"
    | 1 => "decision"
    | 2 => "first"
    | 3 => "second"
  | .now => (1 : Nat)
  | q => someAnswer q

/-- The first plan looks its key up, then the second one runs to its end. -/
def raceSchedule : List (Fin 4) :=
  List.replicate 9 0 ++ List.replicate 9 1 ++ List.replicate 3 2 ++ List.replicate 14 3

/-- The ledger when the second plan has committed. -/
def raceWorld : World Gateway (Fin 4) (fun p => (raceCommands p).Result) :=
  (@LedgerWorld raceSha256 _ raceCommands).follow raceAnswer raceSchedule

/-- The key of both plans. -/
def raceScope : IdempotencyScope := ⟨"tenant", "alice", "version", "key"⟩

set_option maxRecDepth 100000 in
theorem raceWorld_legal :
    World.Legal raceAnswer (@LedgerWorld raceSha256 _ raceCommands) raceSchedule ∧
    raceWorld.store.executions.rows.map (·.val.approvalId) = [some "approval"] ∧
    raceWorld.store.claimedBy? raceScope ≠ none := by
  decide +kernel

theorem raceWorld_reachable : @Reachable raceSha256 _ raceCommands raceWorld :=
  World.reaches_follow raceWorld_legal.1

/-! ## Attempts and audits -/

variable [Sha256] {Pid : Type} {commands : Pid → LedgerCommand}
  {w : World Gateway Pid (fun p => (commands p).Result)}

/-- The audit records the end of a call. -/
def RecordsOutcome (event : AuditEvent) : Prop :=
  event.val.outcome ∈ [AuditOutcome.succeeded, .failed, .unknown, .cancelled]

instance (event : AuditEvent) : Decidable (RecordsOutcome event) :=
  inferInstanceAs (Decidable (_ ∈ _))

/-- The audits of `e`: one for the plan, and one for the end exactly when it has ended. -/
structure AuditTrail (e : ToolExecution) (events : List AuditEvent) : Prop where
  allowed : ∃ first, events.filter (·.val.outcome = .allowed) = [first]
  ended : e.val.status.Terminal ↔ ∃ last, events.filter (RecordsOutcome ·) = [last]
  open_ : ¬ e.val.status.Terminal → events.filter (RecordsOutcome ·) = []
  outcome : ∀ event ∈ events, RecordsOutcome event → RecordsEnd e event

omit [Sha256] in
theorem RecordsEnd.recordsOutcome {e : ToolExecution} {event : AuditEvent}
    (h : RecordsEnd e event) : RecordsOutcome event ∧ e.val.status.Terminal := by
  have houtcome := h.outcome
  unfold RecordsOutcome ExecutionStatus.Terminal
  cases hstatus : e.val.status <;> rw [hstatus] at houtcome <;>
    simp_all [ExecutionStatus.auditOutcome, eq_comm]

omit [Sha256] in
theorem Audited.trail {e : ToolExecution} {events : List AuditEvent} (h : Audited e events) :
    AuditTrail e events := by
  obtain ⟨first, hfirst, ⟨hrunning, rfl⟩ | ⟨last, hlast, rfl⟩⟩ := h
  · have hopen : ¬ e.val.status.Terminal := by simp [hrunning, ExecutionStatus.Terminal]
    have hnone : ¬ RecordsOutcome first := by simp [RecordsOutcome, hfirst]
    refine ⟨⟨first, by simp [hfirst]⟩, ⟨fun h => absurd h hopen, ?_⟩, ?_, ?_⟩
    · rintro ⟨last, hlast⟩
      simp [hnone] at hlast
    · simp [hnone]
    · simp [hnone]
  · obtain ⟨hends, hterminal⟩ := hlast.recordsOutcome
    have hnone : ¬ RecordsOutcome first := by simp [RecordsOutcome, hfirst]
    have hallowed : last.val.outcome ≠ .allowed := by
      intro h
      simp [RecordsOutcome, h] at hends
    refine ⟨⟨first, by simp [hfirst, hallowed]⟩, ⟨fun _ => ⟨last, by simp [hnone, hends]⟩,
      fun _ => hterminal⟩, fun h => absurd hterminal h, ?_⟩
    intro event hevent hrecords
    rcases List.mem_cons.1 hevent with rfl | hevent
    · exact absurd hrecords hnone
    · exact (List.mem_singleton.1 hevent) ▸ hlast

/-- In every reachable ledger the attempts of an execution are numbered from one to its
    attempt count and its audits are those of its status, and what has ended never
    changes again. -/
theorem ledger_coherent (h : Reachable commands w) :
    (∀ e ∈ w.store.executions,
      w.store.attemptNumbers e.val.id = List.range' 1 e.val.attemptCount ∧
      AuditTrail e (w.store.auditsOf e.val.id)) ∧
    ∀ w', World.Reaches Interruption w w' →
      (∀ e ∈ w.store.executions, e.val.status.Terminal →
        w'.store.executions.find? e.val.id = some e) ∧
      (∀ a ∈ w.store.attempts, a.val.status ≠ .running →
        w'.store.attempts.find? a.val.id = some a) := by
  refine ⟨fun e he => ⟨h.inv.numbered e he, (h.inv.audited e he).trail⟩, fun w' hto => ?_⟩
  refine ⟨fun e he hterminal => ?_, fun a ha hended => ?_⟩
  · refine LedgerStep.ended_execution (h.steps hto) (Table.find?_of_mem he) fun hrunning => ?_
    simp [hrunning, ExecutionStatus.Terminal] at hterminal
  · exact LedgerStep.ended_attempt (h.steps hto) (Table.find?_of_mem ha) hended

omit [Sha256] in
/-- The second plan of the race added one execution, and it is coherent. -/
theorem ledger_coherent_race :
    raceWorld.store.executions.rows.map (·.val.approvalId) = [some "approval"] ∧
    ∀ e ∈ raceWorld.store.executions,
      raceWorld.store.attemptNumbers e.val.id = List.range' 1 e.val.attemptCount ∧
      AuditTrail e (raceWorld.store.auditsOf e.val.id) :=
  ⟨raceWorld_legal.2.1, (@ledger_coherent raceSha256 _ _ _ raceWorld_reachable).1⟩

/-! ## Approvals -/

/-- The statuses that allow no move. -/
def ApprovalStatus.Closed (status : ApprovalStatus) : Prop :=
  status = .rejected ∨ status = .expired ∨ status = .consumed

omit [Sha256] in
theorem ApprovalStatus.Closed.stuck {status : ApprovalStatus} (h : status.Closed)
    (next : ApprovalStatus) : ¬ status.CanBecome next := by
  rcases h with rfl | rfl | rfl <;> exact id

/-- The commit that created an execution also consumed the approval it names. -/
def CreatedWithApproval (e : ToolExecution) (approvalId : Id) (before after : Ledger) : Prop :=
  before.executions.find? e.val.id = none ∧
  (∃ e₀, after.executions.find? e.val.id = some e₀ ∧ e.Revises e₀) ∧
  (∃ a₀, before.approvals.find? approvalId = some a₀ ∧ a₀.val.status = .approved) ∧
  ∃ a, after.approvals.find? approvalId = some a ∧ a.val.status = .consumed

omit [Sha256] in
/-- Only a plan creates an execution, together with the consumption of its approval. -/
theorem LedgerStep.created {s s' : Ledger} (hstep : LedgerStep s s') {id : Id}
    {e : ToolExecution} (hnew : s.executions.find? id = none)
    (he : s'.executions.find? id = some e) :
    ∃ consumed, ConsumedFor e.val s consumed ∧ s'.approvals = consumed.approvals := by
  have hsaved : ∀ {x : ToolExecution}, (s.saveExecution x).executions.find? id ≠ some e := by
    intro x hx
    have hnone : (s.saveExecution x).executions.find? id = none := Table.find?_modify_none hnew
    rw [hnone] at hx
    cases hx
  cases hstep with
  | idle | request | decide | expire | consume | finishAttempt | audit =>
    rw [show s.executions.find? id = some e from he] at hnew
    cases hnew
  | startAttempt => exact absurd he hsaved
  | finish => exact absurd he hsaved
  | @plan s₁ x event id' hconsumed hstatus hcount hfree =>
    have hsame : s₁.executions = s.executions := by cases hconsumed <;> rfl
    rw [← hsame] at hfree hnew
    rcases (Table.mem_insert hfree).1 (Table.mem_of_find? he) with h | rfl
    · exact absurd (Table.key_of_find? he) (Table.find?_eq_none.1 hnew e h)
    · exact ⟨s₁, hconsumed, rfl⟩

/-- Where the execution of a reachable ledger was created, its approval was consumed. -/
theorem Reachable.created_with_approval (h : Reachable commands w) {e : ToolExecution}
    {approvalId : Id} (he : e ∈ w.store.executions) (hnamed : e.val.approvalId = some approvalId) :
    ∃ p u before after, (p, .did u .commit before after) ∈ w.log ∧
      CreatedWithApproval e approvalId before after := by
  obtain ⟨p, u, before, after, hlog, hnew, hcreated⟩ := World.exists_commit_of_reaches
    (fun s : Ledger => s.executions.find? e.val.id ≠ none) h
    (by simp [LedgerWorld, World.start, Ledger.empty]) (by simp [Table.find?_of_mem he])
  obtain ⟨hstep, hto⟩ := h.commit hlog
  rw [not_not] at hnew
  obtain ⟨e₀, he₀⟩ := Option.ne_none_iff_exists'.1 hcreated
  obtain ⟨e₁, he₁, hrevises⟩ := LedgerStep.revised_execution hto he₀
  obtain rfl : e = e₁ := Option.some.inj ((Table.find?_of_mem he).symm.trans he₁)
  refine ⟨p, u, before, after, hlog, hnew, ⟨e₀, he₀, hrevises⟩, ?_⟩
  rw [hrevises.approvalId_eq] at hnamed
  obtain ⟨consumed, hconsumed, happrovals⟩ := hstep.created hnew he₀
  rw [happrovals]
  cases hconsumed with
  | nothing hnone =>
    rw [hnone] at hnamed
    cases hnamed
  | @approval a b hid hfound htenant hconsume =>
    obtain rfl : a.val.id = approvalId := Option.some.inj (hid.symm.trans hnamed)
    obtain ⟨happroved, -, -, -, -, -, -, hval⟩ := ApprovalRequest.consume_eq_ok.1 hconsume
    refine ⟨⟨a, hfound, happroved⟩, b, ?_, by rw [hval]⟩
    exact Ledger.find?_saveApproval_self hfound (ApprovalRequest.revises_of_consume hconsume)

/-- An approval is consumed at most once, by exactly the call it was given for: closed
    statuses are never left, only an approved request is consumed, no two executions name
    the same approval, and the approval of an execution was consumed in time, by the
    transaction that created the execution. -/
theorem approval_single_use (h : Reachable commands w) :
    (∀ w', World.Reaches Interruption w w' → ∀ a ∈ w.store.approvals, a.val.status.Closed →
      w'.store.approvals.find? a.val.id = some a) ∧
    (∀ p u before after b, (p, .did u .commit before after) ∈ w.log →
      after.approvals.find? b.val.id = some b → b.val.status = .consumed →
      ∃ a, before.approvals.find? b.val.id = some a ∧ (a = b ∨ a.val.status = .approved)) ∧
    (∀ e ∈ w.store.executions, ∀ e' ∈ w.store.executions, ∀ approvalId,
      e.val.approvalId = some approvalId → e'.val.approvalId = some approvalId → e = e') ∧
    ∀ e ∈ w.store.executions, ∀ approvalId, e.val.approvalId = some approvalId →
      (∃ a, w.store.approvals.find? approvalId = some a ∧ ConsumedBy a.val e.val) ∧
      ∃ p u before after, (p, .did u .commit before after) ∈ w.log ∧
        CreatedWithApproval e approvalId before after := by
  refine ⟨fun w' hto a ha hclosed => ?_, fun p u before after b hlog hb hconsumed => ?_,
    h.inv.approvedOnce, fun e he approvalId hnamed =>
      ⟨h.inv.approved e he approvalId hnamed, h.created_with_approval he hnamed⟩⟩
  · exact LedgerStep.closed_approval (h.steps hto) (Table.find?_of_mem ha) hclosed.stuck
  · obtain ⟨hstep, -⟩ := h.commit hlog
    cases hbefore : before.approvals.find? b.val.id with
    | none =>
      rw [hstep.pending_of_new hbefore hb] at hconsumed
      cases hconsumed
    | some a =>
      obtain ⟨b', hb', hmove⟩ := hstep.approval hbefore
      obtain rfl : b' = b := Option.some.inj (hb'.symm.trans hb)
      refine ⟨a, rfl, hmove.imp Eq.symm fun hmove => ?_⟩
      cases hstatus : a.val.status <;> rw [hstatus, hconsumed] at hmove <;>
        first | rfl | cases hmove

omit [Sha256] in
/-- The one execution of the race consumed the approval it names. -/
theorem approval_single_use_race :
    raceWorld.store.executions.rows.map (·.val.approvalId) = [some "approval"] ∧
    ∀ e ∈ raceWorld.store.executions, ∀ approvalId, e.val.approvalId = some approvalId →
      ∃ a, raceWorld.store.approvals.find? approvalId = some a ∧ ConsumedBy a.val e.val := by
  refine ⟨raceWorld_legal.2.1, fun e he approvalId hnamed => ?_⟩
  exact ((@approval_single_use raceSha256 _ _ _ raceWorld_reachable).2.2.2 e he approvalId hnamed).1

/-! ## Planning -/

/-- A plan that runs alone from `s`: when it raises it has changed nothing but an expired
    approval, and when it returns it has added exactly its execution. -/
def AtomicPlan (env : Env Gateway) (s : Ledger) (command : PlanExecutionCommand) : Prop :=
  let out := run env (plan command) (.start s)
  (∀ x, out.1 = .error x →
    Untouched command (.asked .now · ∈ out.2.trace) s out.2.committed) ∧
  ∀ e, out.1 = .ok e → Added command e s out.2.committed

omit [Sha256] in
/-- A plan is atomic, if closing the session does not fail after its commit. -/
theorem run_plan {env : Env Gateway} {s : Ledger} (hinv : LedgerInv s)
    (hfault : ∀ σ u op x, env.fault σ u op = some x → Interruption x)
    (hclose : ∀ σ, commits σ.trace ≠ [] → env.fault σ .plan .close = none)
    (command : PlanExecutionCommand) : AtomicPlan env s command := by
  have hsafe : ledgerContract.safe Interruption _ (plan command) .start s :=
    plan_safe (fun _ h => h) clean_start command
  obtain ⟨l', ⟨-, new, htrace, hend, -⟩, -, htrace', -⟩ :=
    run_of_safe (.start s) hfault hinv rfl rfl hsafe
  obtain ⟨new', hnew', hlinked, hcaused⟩ := run_continues env (plan command) (.start s)
  have hsame : new = new' := by
    rw [← htrace', hnew'] at htrace
    exact List.append_cancel_right htrace.symm
  have hwhole : (run env (plan command) (.start s)).2.trace = new := by
    rw [hnew', hsame]
    exact List.append_nil new'
  subst hsame
  unfold AtomicPlan
  generalize run env (plan command) (.start s) = out at *
  dsimp only
  rw [hwhole]
  -- closing failed after the commit only if the environment made it fail
  have hnever : ∀ {x rest}, new = .cut .plan .close x :: rest → commits new = [] := by
    rintro x rest rfl
    obtain ⟨σ, hσ, hcut⟩ := hcaused.2 _ _ _ rfl
    by_contra hcommits
    have hpast : commits σ.trace ≠ [] := by
      rw [hσ, commits_append]
      exact fun h => hcommits (List.append_eq_nil_iff.1 h).1
    rw [hclose σ hpast] at hcut
    cases hcut
  refine ⟨fun x hx => ?_, fun e he => ?_⟩
  · rw [hx] at hend
    cases hend with
    | unclosed htrace hcommits =>
      rw [hnever htrace] at hcommits
      cases hcommits
    | closed h =>
      cases h with
      | lapsed hcommits _ hnow h =>
        rw [hcommits] at hlinked
        obtain ⟨hafter, hbefore⟩ := hlinked
        rw [hafter]
        exact (show _ = s from hbefore) ▸ h.untouched (mem_of_firstEvent hnow)
      | refused hcommits =>
        rw [hcommits] at hlinked
        rw [show out.2.committed = s from hlinked]
        exact .refl _ s
      | interrupted hcommits =>
        rw [hcommits] at hlinked
        rw [show out.2.committed = s from hlinked]
        exact .refl _ s
  · rw [he] at hend
    cases hend with
    | closed h =>
      cases h with
      | planned hcommits _ h =>
        rw [hcommits] at hlinked
        obtain ⟨hafter, hbefore⟩ := hlinked
        rw [hafter]
        exact (show _ = s from hbefore) ▸ h.added

/-- In every reachable ledger a plan is atomic, wherever it fails. -/
theorem plan_atomic (h : Reachable commands w) {env : Env Gateway}
    (hfault : ∀ σ u op x, env.fault σ u op = some x → Interruption x)
    (hclose : ∀ σ, commits σ.trace ≠ [] → env.fault σ .plan .close = none)
    (command : PlanExecutionCommand) : AtomicPlan env w.store command :=
  run_plan h.inv hfault hclose command

/-- The database refuses every commit. -/
def commitFails : Env Gateway where
  answer _ := raceAnswer 2
  fault _ _ op := match op with
    | .commit => some (.other "OperationalError")
    | _ => none

omit [Sha256] in
/-- A plan with a new key reaches its commit, which fails. -/
theorem plan_atomic_commitFails :
    (run commitFails (plan { racePlan with approvalId := none, idempotencyKey := some "other" })
      (.start raceWorld.store)).1 = .error (.other "OperationalError") ∧
    AtomicPlan commitFails raceWorld.store
      { racePlan with approvalId := none, idempotencyKey := some "other" } := by
  refine ⟨by decide +kernel, @plan_atomic raceSha256 _ _ _ raceWorld_reachable _ ?_ ?_ _⟩
  · rintro σ u (_ | _ | _ | _ | _) x h <;> cases h
    exact fun _ _ h => by cases h
  · exact fun _ _ => rfl

/-! ## Idempotency keys -/

omit [Sha256] in
theorem LedgerCommand.Post.plan {c : LedgerCommand} {command : PlanExecutionCommand}
    (hc : c = .plan command) {r : Except Exc c.Result} {l : Local Gateway} {s : Ledger}
    (h : c.Post r l s) :
    ∃ r' : Except Exc ToolExecution, PlanPost command .start r' l s ∧
      (∀ x, r = .error x → r' = .error x) ∧ (∀ a, r = .ok a → ∃ e, r' = .ok e) := by
  subst hc
  exact ⟨r, h.2, fun _ hr => hr, fun a hr => ⟨a, hr⟩⟩

/-- A plan that has ended did so as `PlanEnd` says. -/
theorem Reachable.plan_end (h : Reachable commands w) {p : Pid} {command : PlanExecutionCommand}
    (hp : commands p = .plan command) {r : Except Exc (commands p).Result}
    (hend : (w.procs p).prog = Prog.lift r) :
    ∃ r', PlanEnd command (w.procs p).loc.trace r' ∧ (∀ x, r = .error x → r' = .error x) ∧
      (∀ a, r = .ok a → ∃ e, r' = .ok e) := by
  obtain ⟨s, -, hpost⟩ := done_of_good h.good hend
  obtain ⟨r', ⟨new, htrace, hplan, -⟩, herror, hok⟩ := LedgerCommand.Post.plan hp hpost
  rw [show (w.procs p).loc.trace = new from htrace.trans (List.append_nil new)]
  exact ⟨r', hplan, herror, hok⟩

/-- Whatever a plan has committed so far, it planned an execution or recorded that its
    approval had expired. -/
theorem Reachable.plan_commit (h : Reachable commands w) {p : Pid}
    {command : PlanExecutionCommand} (hp : commands p = .plan command) {before after : Ledger}
    (hcommit : (before, after) ∈ commits (w.procs p).loc.trace) :
    (∃ e, Planned command e before after) ∨
      ∃ t, (p, .asked .now t) ∈ w.log ∧ PlanLapsed command t before after := by
  classical
  -- a plan that is still running could be stopped here
  have hcancelled : Interruption .cancelled := fun _ _ h => by cases h
  obtain ⟨w', r, new, hreach, hend, htrace, hcommits⟩ :=
    World.exists_stopped hcancelled someAnswer w p
  obtain ⟨r', hplan, -, -⟩ := Reachable.plan_end (h.trans hreach) hp hend
  have hall : commits (w'.procs p).loc.trace = commits (w.procs p).loc.trace := by
    rw [htrace, commits_append, hcommits]
    rfl
  have hnow : ∀ {t}, firstEvent (w'.procs p).loc.trace = some (.asked .now t) →
      (p, .asked .now t) ∈ w.log := by
    intro t ht
    obtain ⟨ev, hev⟩ : ∃ ev, firstEvent (w.procs p).loc.trace = some ev := by
      refine Option.ne_none_iff_exists'.1 fun hnone => ?_
      rw [List.getLast?_eq_none_iff.1 hnone] at hcommit
      cases hcommit
    rw [htrace, firstEvent_append hev] at ht
    cases ht
    exact (h.good.traces p _).2 (mem_of_firstEvent hev)
  rw [← hall] at hcommit
  cases hplan with
  | closed hbody =>
    cases hbody with
    | planned hcommits _ hplanned =>
      rw [hcommits, List.mem_singleton] at hcommit
      cases hcommit
      exact .inl ⟨_, hplanned⟩
    | lapsed hcommits _ ht hlapsed =>
      rw [hcommits, List.mem_singleton] at hcommit
      cases hcommit
      exact .inr ⟨_, hnow ht, hlapsed⟩
    | refused hcommits =>
      rw [hcommits] at hcommit
      cases hcommit
    | interrupted hcommits =>
      rw [hcommits] at hcommit
      cases hcommit
  | unclosed _ hcommits _ hunclosed =>
    rw [hcommits, List.mem_singleton] at hcommit
    cases hcommit
    exact hunclosed.imp id fun ⟨t, ht, hlapsed⟩ => ⟨t, hnow ht, hlapsed⟩

/-- The approval that the plan names is refused with `x`, or has expired, in a ledger that the
    plan found. -/
def ApprovalError (command : PlanExecutionCommand) (trace : List (Event Gateway)) (x : Exc) :
    Prop :=
  ∃ approvalId s, command.approvalId = some approvalId ∧ Found trace s ∧
    (ApprovalRefusal (consumeCommand command approvalId) s x ∨
      ∃ t message, firstEvent trace = some (.asked .now t) ∧
        ApprovalPast (consumeCommand command approvalId) s t ∧
        x = .nexus .approvalExpired message)

/-- The plan reports the race, in which somebody else has got the key after its lookup. -/
def RaceError (scope : IdempotencyScope) (trace : List (Event Gateway)) (x : Exc) : Prop :=
  x = .nexus .idempotencyRace "concurrent idempotency claim lost" ∧
    ∃ s, Found trace s ∧ s.claimedBy? scope ≠ none

/-- The error of a plan that wanted the key `scope`: it reports the execution that its
    lookup found; and where the lookup found none it reports the race, unless the approval
    it names or an identifier it generates fails first. -/
structure PlanError (command : PlanExecutionCommand) (scope : IdempotencyScope)
    (trace : List (Event Gateway)) (x : Exc) : Prop where
  reuse : ∀ s existing, firstSelect trace = some s → s.claimedBy? scope = some existing →
    x = idempotencyReuse existing command.argumentsDigest
  race : ∀ s, firstSelect trace = some s → s.claimedBy? scope = none →
    RaceError scope trace x ∨ ApprovalError command trace x ∨ GeneratedIdError trace x

omit [Sha256] in
theorem ExecutionLifecycle.PlanEnd.error {command : PlanExecutionCommand} {scope : IdempotencyScope}
    {trace : List (Event Gateway)} {x : Exc} (hscope : scopeOf command = some scope)
    (h : PlanEnd command trace (.error x)) :
    (∃ u op, .cut u op x ∈ trace) ∨ PlanError command scope trace x := by
  -- an error for which the lookup found nobody is not one for an execution it found
  have unclaimed : Unclaimed command (firstSelect trace) → ∀ s existing,
      firstSelect trace = some s → s.claimedBy? scope = some existing →
      x = idempotencyReuse existing command.argumentsDigest := by
    intro hlookup s existing hs hfound
    obtain ⟨s', hs', hnone⟩ := hlookup scope hscope
    rw [hs] at hs'
    cases hs'
    rw [hfound] at hnone
    cases hnone
  cases h with
  | unclosed htrace => exact .inl ⟨_, _, htrace ▸ List.mem_cons_self⟩
  | closed h =>
    cases h with
    | interrupted _ hcut => exact .inl ⟨_, _, hcut⟩
    | @lapsed message t before _ hcommits hlookup hnow h =>
      obtain ⟨approvalId, hnamed, hlapsed⟩ := h
      obtain ⟨u, hcommit⟩ := mem_commits.1 (hcommits ▸ List.mem_cons_self)
      refine .inr ⟨unclaimed hlookup, fun _ _ _ => .inr (.inl ?_)⟩
      exact ⟨approvalId, before, hnamed, ⟨u, _, _, hcommit⟩,
        .inr ⟨t, message, hnow, hlapsed.past, rfl⟩⟩
    | refused _ h =>
      refine .inr ?_
      cases h with
      | invalid hnone =>
        refine ⟨fun s _ hs => ?_, fun s hs => ?_⟩ <;> rw [hnone] at hs <;> cases hs
      | @reuse s scope' existing hs hscope' hfound =>
        obtain rfl : scope' = scope := Option.some.inj (hscope'.symm.trans hscope)
        refine ⟨fun s' existing' hs' hfound' => ?_, fun s' hs' hnone => ?_⟩
        · rw [hs] at hs'
          cases hs'
          rw [hfound] at hfound'
          cases hfound'
          rfl
        · rw [hs] at hs'
          cases hs'
          rw [hfound] at hnone
          cases hnone
      | approval hlookup hnamed hfound hrefusal =>
        exact ⟨unclaimed hlookup, fun _ _ _ => .inr (.inl ⟨_, _, hnamed, hfound, .inl hrefusal⟩)⟩
      | @race s scope' hlookup hfound hscope' hclaimed =>
        obtain rfl : scope' = scope := Option.some.inj (hscope'.symm.trans hscope)
        exact ⟨unclaimed hlookup, fun _ _ _ => .inl ⟨rfl, s, hfound, hclaimed⟩⟩
      | generated hlookup h => exact ⟨unclaimed hlookup, fun _ _ _ => .inr (.inr h)⟩

/-- A plan whose key was taken before it committed anything never plans an execution. -/
theorem Reachable.plan_of_taken (h : Reachable commands w) {p : Pid}
    {command : PlanExecutionCommand} {scope : IdempotencyScope} (hp : commands p = .plan command)
    (hscope : scopeOf command = some scope)
    {w₀ : World Gateway Pid (fun p => (commands p).Result)} (h₀ : Reachable commands w₀)
    (hto : World.Reaches Interruption w₀ w) (hfresh : commits (w₀.procs p).loc.trace = [])
    (htaken : w₀.store.claimedBy? scope ≠ none) {u : UnitOfWork} {before after : Ledger}
    (hlog : (p, .did u .commit before after) ∈ w.log) :
    ¬ (∃ e, Planned command e before after) ∧
      ∃ t, (p, .asked .now t) ∈ w.log ∧ PlanLapsed command t before after := by
  have hsince : Relation.ReflTransGen LedgerStep w₀.store before := by
    refine (logged_since h₀.good hto hlog).resolve_left fun hold => ?_
    have hmem := mem_commits.2 ⟨u, (h₀.good.traces p _).1 hold⟩
    rw [hfresh] at hmem
    cases hmem
  have hnot : ¬ ∃ e, Planned command e before after := fun ⟨e, hplanned⟩ =>
    LedgerStep.claimed_of_steps hsince htaken (hplanned.unclaimed hscope)
  have hcommit := mem_commits.2 ⟨u, (h.good.traces p _).1 hlog⟩
  exact ⟨hnot, (h.plan_commit hp hcommit).resolve_left hnot⟩

/-- However any number of plans, attempts, ends and whole calls are interleaved, a key
    belongs to one execution. A plan whose key is taken raises and leaves the ledger alone,
    save for an approval it finds expired, and every upstream call for a key is made for
    the execution that has it. -/
theorem idempotency_claim (h : Reachable commands w) :
    (∀ e ∈ w.store.executions, ∀ e' ∈ w.store.executions, ∀ scope,
      e.val.idempotencyScope = some scope → e'.val.idempotencyScope = some scope → e = e') ∧
    (∀ p command scope, commands p = .plan command → scopeOf command = some scope →
      (∀ w₀, Reachable commands w₀ → World.Reaches Interruption w₀ w →
        commits (w₀.procs p).loc.trace = [] → w₀.store.claimedBy? scope ≠ none →
        (∀ u before after, (p, .did u .commit before after) ∈ w.log →
          Untouched command (fun t => (p, .asked .now t) ∈ w.log) before after) ∧
        ∀ a, (w.procs p).prog ≠ .ret a) ∧
      ∀ x, (w.procs p).prog = .raise x →
        (∃ u op, .cut u op x ∈ (w.procs p).loc.trace) ∨
        PlanError command scope (w.procs p).loc.trace x) ∧
    (∀ existing argumentsDigest,
      ((∃ id message, idempotencyReuse existing argumentsDigest =
        .nexus (.idempotencyConflict id) message) ↔
        existing.val.argumentsDigest ≠ argumentsDigest) ∧
      (existing.val.argumentsDigest = argumentsDigest →
        idempotencyReuse existing argumentsDigest =
          reuseError existing.val.id existing.val.status)) ∧
    ∀ p request credential a, (p, .asked (.executeTool request credential) a) ∈ w.log →
      ∃ e, w.store.executions.find? request.val.executionId = some e ∧
        e.val.toolVersionId = request.val.tool.toolVersionId ∧
        e.val.idempotencyKey = request.val.idempotencyKey ∧
        ∀ e' ∈ w.store.executions, ∀ scope, e.val.idempotencyScope = some scope →
          e'.val.idempotencyScope = some scope → e'.val.id = request.val.executionId := by
  refine ⟨h.inv.claimed, fun p command scope hp hscope =>
    ⟨fun w₀ h₀ hto hfresh htaken => ⟨fun u before after hlog => ?_, fun a ha => ?_⟩,
      fun x hx => ?_⟩,
    fun existing digest => ⟨idempotencyReuse_conflict existing digest, idempotencyReuse_of_same⟩,
    fun p request credential a hlog => ?_⟩
  · obtain ⟨-, t, ht, hlapsed⟩ := h.plan_of_taken hp hscope h₀ hto hfresh htaken hlog
    exact hlapsed.untouched ht
  -- A plan that returns has committed its execution, which a claimed scope does not let it.
  · have hret : (w.procs p).prog = Prog.lift (.ok a) := ha
    obtain ⟨r', hend, -, hok⟩ := h.plan_end hp hret
    obtain ⟨e, rfl⟩ := hok a rfl
    cases hend with
    | closed hbody =>
      cases hbody with
      | planned hcommits _ hplanned =>
        obtain ⟨u, hmem⟩ := mem_commits.1 (hcommits ▸ List.mem_cons_self)
        exact (h.plan_of_taken hp hscope h₀ hto hfresh htaken ((h.good.traces p _).2 hmem)).1
          ⟨e, hplanned⟩
  · have hraise : (w.procs p).prog = Prog.lift (.error x) := hx
    obtain ⟨r', hend, herror, -⟩ := h.plan_end hp hraise
    rw [herror x rfl] at hend
    exact hend.error hscope
  -- The call was permitted by an execution that was recorded then, and no step removes one.
  · obtain ⟨s, hrecorded, hsteps⟩ := h.good.permitted p _ a hlog
    obtain ⟨e, hfound, hversion, hkey⟩ := CallRecorded.steps hrecorded hsteps
    refine ⟨e, hfound, hversion, hkey, fun e' he' scope hscope hscope' => ?_⟩
    rw [h.inv.claimed e' he' e (Table.mem_of_find? hfound) scope hscope' hscope]
    have hkey := Table.key_of_find? hfound
    exact hkey

omit [Sha256] in
/-- The second plan of the race has the key, alone. -/
theorem idempotency_claim_race :
    raceWorld.store.claimedBy? raceScope ≠ none ∧
    ∀ e ∈ raceWorld.store.executions, ∀ e' ∈ raceWorld.store.executions, ∀ scope,
      e.val.idempotencyScope = some scope → e'.val.idempotencyScope = some scope → e = e' :=
  ⟨raceWorld_legal.2.2, (@idempotency_claim raceSha256 _ _ _ raceWorld_reachable).1⟩

/-- The race when the first plan has looked at the approval. -/
def raceLost : World Gateway (Fin 4) (fun p => (raceCommands p).Result) :=
  (@LedgerWorld raceSha256 _ raceCommands).follow raceAnswer (raceSchedule ++ [2, 2])

/-- The caller that looks the key up first. -/
def loser : Fin 4 := 2

/-- The key is taken, though the lookup of the loser saw it free. -/
def LostRace (w : World Gateway (Fin 4) (fun p => (raceCommands p).Result)) : Prop :=
  w.store.claimedBy? raceScope ≠ none ∧
  (firstSelect (w.procs loser).loc.trace).map (·.claimedBy? raceScope) = some none

instance (w : World Gateway (Fin 4) (fun p => (raceCommands p).Result)) :
    Decidable (LostRace w) :=
  inferInstanceAs (Decidable (_ ∧ _))

set_option maxRecDepth 100000 in
omit [Sha256] in
theorem raceLost_legal :
    World.Legal raceAnswer (@LedgerWorld raceSha256 _ raceCommands) (raceSchedule ++ [2, 2]) ∧
    LostRace raceLost := by
  decide +kernel

set_option maxRecDepth 100000 in
omit [Sha256] in
theorem raceLost_raises : (raceLost.procs loser).prog =
    .raise (.nexus .approvalAlreadyConsumed "approval was already consumed") := by
  rfl

omit [Sha256] in
/-- The plan that lost the race for its key does not report the race: it stops at the
    approval, which the other plan has consumed. -/
theorem race_reports_approval :
    ¬ ∀ w, @Reachable raceSha256 _ raceCommands w → ∀ p command scope x s,
      raceCommands p = .plan command → scopeOf command = some scope →
      w.store.claimedBy? scope ≠ none →
      firstSelect (w.procs p).loc.trace = some s → s.claimedBy? scope = none →
      (w.procs p).prog = .raise x → (∃ message, x = .nexus .idempotencyRace message) := by
  intro h
  obtain ⟨hlegal, htaken, hlookup⟩ := raceLost_legal
  have hreach : @Reachable raceSha256 _ raceCommands raceLost := World.reaches_follow hlegal
  obtain ⟨s, hs, hnone⟩ := Option.map_eq_some_iff.1 hlookup
  have hscope : scopeOf racePlan = some raceScope := rfl
  obtain ⟨message, hx⟩ :=
    h raceLost hreach loser racePlan raceScope _ s rfl hscope htaken hs hnone raceLost_raises
  cases hx

end NexusMcp
