-- SUMMARY: How often the retrying executor calls, what it stores of each call, and how long it sleeps.
import Mathlib.Algebra.Order.BigOperators.Group.List
import Mathlib.Algebra.Order.Group.Nat
import Mathlib.Algebra.Ring.Nat
import Mathlib.Order.Bounds.Basic
import NexusMcp.Execution.Guarantees

/-!
# The Retry Discipline

A run of the loop alone at the store. What it shows, in order, are the attempts that its
transactions store, the calls of the executor and the sleeps.
-/

namespace NexusMcp

open Txn ExecutionLifecycle

/-! ## What a run shows -/

inductive Shown where
  | stored (attempt : ExecutionAttempt)
  | called (request : ExecutorRequest) (credential : Option ResolvedCredential)
  | slept (seconds : Binary.Value)

/-- The attempts that are new in the ledger, or have changed. -/
def storedAttempts (before after : Ledger) : List ExecutionAttempt :=
  after.attempts.rows.filter (· ∉ before.attempts.rows)

def shown : Event Gateway → List Shown
  | .did _ _ before after => (storedAttempts before after).map .stored
  | .asked (.executeTool request credential) _ => [.called request credential]
  | .asked (.sleep seconds) _ => [.slept seconds]
  | _ => []

/-- What the session has shown so far, oldest first. -/
def timeline (σ : Session Gateway) : List Shown := σ.trace.reverse.flatMap shown

/-- The number of calls in what was shown. -/
def callsIn (events : List Shown) : Nat := events.countP (· matches .called _ _)

theorem callsIn_append (events later : List Shown) :
    callsIn (events ++ later) = callsIn events + callsIn later :=
  List.countP_append

section Timeline

variable {σ : Session Gateway}

@[simp] theorem timeline_start {s : Ledger} : timeline (Session.start s) = [] := rfl

@[simp] theorem timeline_asked {q : Query} {a : q.Answer} :
    timeline (σ.asked q a) = timeline σ ++ shown (.asked q a) := by
  simp [timeline, Session.asked]

@[simp] theorem timeline_did {u : UnitOfWork} {op : Op Gateway} :
    timeline (σ.did u op) = timeline σ ++
      (storedAttempts σ.committed (op.committed σ.view σ.committed)).map .stored := by
  simp [timeline, Session.did, shown]

@[simp] theorem storedAttempts_self {s : Ledger} : storedAttempts s s = [] := by
  simp [storedAttempts]

theorem storedAttempts_of_rows {s s' : Ledger} {a : ExecutionAttempt}
    (hfree : s.attempts.find? a.val.id = none)
    (hrows : s'.attempts.rows = s.attempts.rows ++ [a]) : storedAttempts s s' = [a] := by
  have hnew : a ∉ s.attempts.rows := fun h => Table.find?_eq_none.1 hfree a h rfl
  simp [storedAttempts, hrows, hnew]

theorem rows_saveAttempt {s : Ledger} {a a' : ExecutionAttempt} {rows : List ExecutionAttempt}
    (hrows : s.attempts.rows = rows ++ [a]) (hrevises : a'.Revises a) :
    (s.saveAttempt a').attempts.rows = rows ++ [a'] := by
  have hsaved : (s.saveAttempt a').attempts = s.attempts.modify a.val.id (updateAttemptModel · a') := by
    rw [Ledger.saveAttempt, hrevises.id_eq]
  rw [hsaved, Table.rows_modify_last hrows rfl, show updateAttemptModel a a' = a' from hrevises]

theorem storedAttempts_saveAttempt {s : Ledger} {a a' : ExecutionAttempt}
    {rows : List ExecutionAttempt} (hrows : s.attempts.rows = rows ++ [a])
    (hrevises : a'.Revises a) (hne : a' ≠ a) : storedAttempts s (s.saveAttempt a') = [a'] := by
  have hmem : a ∈ s.attempts := by
    rw [← Table.mem_rows, hrows]
    simp
  -- The revised attempt differs from the stored one with its id, so it was not stored before.
  have hnew : a' ∉ s.attempts.rows := fun h => hne (Table.eq_of_key_eq h hmem hrevises.id_eq)
  have hold : ∀ x ∈ rows, x ∈ s.attempts.rows := by
    intro x hx
    rw [hrows]
    exact List.mem_append_left _ hx
  unfold storedAttempts
  rw [rows_saveAttempt hrows hrevises, List.filter_append,
    List.filter_eq_nil_iff.2 (by simpa using hold)]
  simp [hnew]

end Timeline

/-! ## The surroundings of a run -/

/-- The store operations succeed, identifiers are new, and the executor ends its calls with the
    outcomes, the first of which is `outcomes 1`. -/
structure CallsEndWith (outcomes : Nat → Except Exc ExecutorResult) (env : Env Gateway) :
    Prop where
  faultless : env.Faultless
  newId : ∀ σ : Session Gateway, isBlank (env.answer σ .newId) = false ∧
    σ.view.attempts.find? (env.answer σ .newId) = none
  slept : ∀ σ seconds, env.answer σ (.sleep seconds) = .ok ()
  called : ∀ σ request credential, env.answer σ (.executeTool request credential) =
    outcomes (callsIn (timeline σ) + 1)

/-- New identifiers are not blank, and those of no attempt. -/
def NewIds (env : Env Gateway) : Prop :=
  ∀ σ : Session Gateway, isBlank (env.answer σ .newId) = false ∧
    σ.view.attempts.find? (env.answer σ .newId) = none

/-- The execution of the request is running, and its session is between two transactions. -/
structure Attemptable (request : ExecutorRequest) (σ : Session Gateway) : Prop where
  settled : σ.Settled
  inv : LedgerInv σ.committed
  running : ∃ e, σ.committed.executions.find? request.val.executionId = some e ∧
    e.val.tenantId = request.val.tool.tenantId ∧ e.val.status = .running

theorem attemptable_start {request : ExecutorRequest} {s : Ledger} (hinv : LedgerInv s)
    {e : ToolExecution} (hfound : s.executions.find? request.val.executionId = some e)
    (htenant : e.val.tenantId = request.val.tool.tenantId) (hrunning : e.val.status = .running) :
    Attemptable request (Session.start s) :=
  ⟨rfl, hinv, e, hfound, htenant, hrunning⟩

theorem Attemptable.asked {request : ExecutorRequest} {σ : Session Gateway}
    (h : Attemptable request σ) {q : Query} {a : q.Answer} : Attemptable request (σ.asked q a) :=
  ⟨h.settled, h.inv, h.running⟩

/-- The outcome can be recorded: the call was not cancelled. -/
def Recordable : Except Exc ExecutorResult → Prop
  | .ok result => ExecutionAttempt.RecordableStatus result.upstreamStatus
  | .error (.executorFailure failure) => ExecutionAttempt.RecordableStatus failure.upstreamStatus
  | .error e => e ≠ .cancelled

/-! ## Operations of a transaction

Each has one rule. `Stops` is what is left to show where one is interrupted. -/

/-- The transaction that began at `σ₀` sees `view`, and nothing was shown or interrupted
    since. -/
structure Inside (σ₀ : Session Gateway) (view : Ledger) (σ : Session Gateway) : Prop where
  committed : σ.committed = σ₀.committed
  view : σ.view = view
  shows : timeline σ = timeline σ₀
  uncut : ∀ u op x, .cut u op x ∈ σ.trace → .cut u op x ∈ σ₀.trace

/-- What ends the transaction that began at `σ₀` when an operation is interrupted. -/
def Stops {α : Type} (env : Env Gateway) (u : UnitOfWork)
    (Q : Except Exc α → Session Gateway → Prop) (σ₀ : Session Gateway) : Prop :=
  ∀ view σ op x, Inside σ₀ view σ → op ≠ .close → env.fault σ u op = some x →
    Q (.error x) (σ.cut u op x)

section Operations

variable {env : Env Gateway} {σ₀ σ : Session Gateway} {view : Ledger} {u : UnitOfWork} {α : Type}
  {Q : Except Exc α → Session Gateway → Prop}

/-- Nothing interrupts a transaction. -/
theorem stops_of_faultless (henv : env.Faultless) : Stops env u Q σ₀ := by
  intro view σ op x _ _ hx
  rw [henv] at hx
  cases hx

theorem inside_of_settled (h : σ.Settled) : Inside σ σ.committed σ :=
  ⟨rfl, h, rfl, fun _ _ _ h => h⟩

theorem Inside.asked {q : Query} {a : q.Answer} (h : Inside σ₀ view σ)
    (hquiet : shown (.asked q a) = []) : Inside σ₀ view (σ.asked q a) := by
  refine ⟨h.committed, h.view, by rw [timeline_asked, hquiet, List.append_nil, h.shows], ?_⟩
  intro u op x hmem
  cases hmem with
  | tail _ hmem => exact h.uncut u op x hmem

theorem Inside.did (h : Inside σ₀ view σ) (op : Op Gateway)
    (hop : op.committed σ.view σ.committed = σ.committed) :
    Inside σ₀ (op.view view σ.committed) (σ.did u op) := by
  refine ⟨hop.trans h.committed, ?_, ?_, ?_⟩
  · rw [← h.view]
    rfl
  · rw [timeline_did, hop, storedAttempts_self, List.map_nil, List.append_nil, h.shows]
  · intro u op x hmem
    cases hmem with
    | tail _ hmem => exact h.uncut u op x hmem

theorem Inside.wp_lock {row : LedgerRow} {k : Ledger → Program α} (h : Inside σ₀ view σ)
    (hstops : Stops env u Q σ₀) (hk : ∀ σ', Inside σ₀ view σ' → wp env (k view) Q σ') :
    wp env ((Prog.lock u row).bind k) Q σ := by
  refine wp_lock_bind (fun x hx => hstops view σ _ x h (by simp) hx) ?_
  rw [h.view]
  exact fun _ => hk _ (h.did (.lock row) rfl)

theorem Inside.wp_select {k : Ledger → Program α} (h : Inside σ₀ view σ)
    (hstops : Stops env u Q σ₀) (hk : ∀ σ', Inside σ₀ view σ' → wp env (k view) Q σ') :
    wp env ((Prog.select u).bind k) Q σ := by
  refine wp_select_bind (fun x hx => hstops view σ _ x h (by simp) hx) ?_
  rw [h.view]
  exact fun _ => hk _ (h.did .select rfl)

theorem Inside.wp_write {update : Ledger → Ledger} {k : Unit → Program α} (h : Inside σ₀ view σ)
    (hstops : Stops env u Q σ₀) (hk : ∀ σ', Inside σ₀ (update view) σ' → wp env (k ()) Q σ') :
    wp env ((Prog.write u update).bind k) Q σ :=
  wp_write_bind (fun x hx => hstops view σ _ x h (by simp) hx)
    fun _ => hk _ (h.did (.write update) rfl)

/-- The transaction that began at `σ₀` has stored `view` and is over. -/
structure Stored (σ₀ : Session Gateway) (view : Ledger) (σ : Session Gateway) : Prop where
  committed : σ.committed = view
  settled : σ.Settled
  shows : timeline σ = timeline σ₀ ++ (storedAttempts σ₀.committed view).map .stored

/-- The last operation stores what the transaction sees. -/
theorem Inside.wp_commit {a : α} (h : Inside σ₀ view σ) (hstops : Stops env u Q σ₀)
    (hQ : ∀ σ', Stored σ₀ view (σ'.did u .close) →
      (∀ u op x, .cut u op x ∈ σ'.trace → .cut u op x ∈ σ₀.trace) → Q (.ok a) σ') :
    wp env ((Prog.commit u).bind fun _ => .ret a) Q σ := by
  refine wp_commit_bind (fun x hx => hstops view σ _ x h (by simp) hx) fun _ => ?_
  refine hQ (σ.did u .commit) ⟨h.view, rfl, ?_⟩ fun u op x hmem => ?_
  · simp [h.shows, h.committed, h.view, Op.committed]
  · cases hmem with
    | tail _ hmem => exact h.uncut u op x hmem

/-- A transaction that stores a view and ends leaves no session open. -/
theorem wp_uow_faultless {body : Program α} (henv : env.Faultless)
    (h : wp env body (fun r σ' => Q r (σ'.did u .close)) σ) : wp env (Prog.uow u body) Q σ := by
  apply wp_uow
  refine wp_mono (fun r σ' hQ => ⟨fun x hx => ?_, fun _ => hQ⟩) h
  rw [henv] at hx
  cases hx

theorem Inside.wp_claimKey {row : LedgerRow} {taken : Ledger → Bool} {e : Exc}
    {k : Unit → Program α} (h : Inside σ₀ view σ) (hstops : Stops env u Q σ₀)
    (hfree : taken view = false) (hk : ∀ σ', Inside σ₀ view σ' → wp env (k ()) Q σ') :
    wp env ((claimKey u row taken e).bind k) Q σ := by
  simp only [claimKey, Prog.bind_eq, Prog.bind_assoc]
  refine h.wp_lock hstops fun σ₁ h₁ => ?_
  rw [hfree]
  exact hk σ₁ h₁

theorem Inside.wp_saveRow {tenantId ownTenantId : Id} {crossed missing : String}
    {loads : Ledger → Bool} {update : Ledger → Ledger} {k : Unit → Program α}
    (h : Inside σ₀ view σ) (hstops : Stops env u Q σ₀) (htenant : ownTenantId = tenantId)
    (hloads : loads view = true)
    (hk : ∀ σ', Inside σ₀ (update view) σ' → wp env (k ()) Q σ') :
    wp env ((saveRow u tenantId ownTenantId crossed loads missing update).bind k) Q σ := by
  simp only [saveRow, requireTenant, Prog.bind_eq, Prog.bind_assoc]
  refine wp_raiseIf_bind (fun hne => absurd htenant hne) fun _ => ?_
  refine h.wp_select hstops fun σ₁ h₁ => ?_
  rw [hloads]
  exact h₁.wp_write hstops hk

theorem Inside.wp_getExecution {tenantId executionId : Id}
    {k : Option ToolExecution → Program α} (h : Inside σ₀ view σ) (hstops : Stops env u Q σ₀)
    (hk : ∀ σ', Inside σ₀ view σ' → wp env (k (view.execution? tenantId executionId)) Q σ') :
    wp env ((Executions.getForUpdate u tenantId executionId).bind k) Q σ := by
  simp only [Executions.getForUpdate, Prog.bind_eq, Prog.bind_assoc]
  exact h.wp_lock hstops hk

theorem Inside.wp_getAttempt {tenantId attemptId : Id} {k : Option ExecutionAttempt → Program α}
    (h : Inside σ₀ view σ) (hstops : Stops env u Q σ₀)
    (hk : ∀ σ', Inside σ₀ view σ' → wp env (k (view.attempt? tenantId attemptId)) Q σ') :
    wp env ((Attempts.getForUpdate u tenantId attemptId).bind k) Q σ := by
  simp only [Attempts.getForUpdate, Prog.bind_eq, Prog.bind_assoc]
  exact h.wp_lock hstops hk

theorem Inside.wp_saveExecution {tenantId : Id} {e e' : ToolExecution} {k : Unit → Program α}
    (h : Inside σ₀ view σ) (hstops : Stops env u Q σ₀) (hrevises : e'.Revises e)
    (hfound : view.execution? tenantId e.val.id = some e)
    (hk : ∀ σ', Inside σ₀ (view.saveExecution e') σ' → wp env (k ()) Q σ') :
    wp env ((Executions.save u tenantId e').bind k) Q σ := by
  have htenant : e'.val.tenantId = e.val.tenantId := congrArg (·.val.tenantId) hrevises.symm
  refine h.wp_saveRow hstops ?_ ?_ hk
  · rw [htenant]
    exact (Ledger.execution?_eq_some.1 hfound).2
  · rw [hrevises.id_eq, hfound]
    rfl

theorem Inside.wp_saveAttempt {tenantId : Id} {a a' : ExecutionAttempt} {k : Unit → Program α}
    (h : Inside σ₀ view σ) (hstops : Stops env u Q σ₀) (hrevises : a'.Revises a)
    (hfound : view.attempt? tenantId a.val.id = some a)
    (hk : ∀ σ', Inside σ₀ (view.saveAttempt a') σ' → wp env (k ()) Q σ') :
    wp env ((Attempts.save u tenantId a').bind k) Q σ := by
  have htenant : a'.val.tenantId = a.val.tenantId := congrArg (·.val.tenantId) hrevises.symm
  refine h.wp_saveRow hstops ?_ ?_ hk
  · rw [htenant]
    exact (Ledger.attempt?_eq_some.1 hfound).2
  · rw [hrevises.id_eq, hfound]
    rfl

theorem Inside.wp_addAttempt {tenantId : Id} {a : ExecutionAttempt} {k : Unit → Program α}
    (h : Inside σ₀ view σ) (hstops : Stops env u Q σ₀) (htenant : a.val.tenantId = tenantId)
    (hfree : view.attempts.find? a.val.id = none)
    (hnumber : view.numbered? a.val.executionId a.val.attemptNumber = none)
    (hk : ∀ σ', Inside σ₀ (view.addAttempt a) σ' → wp env (k ()) Q σ') :
    wp env ((Attempts.add u tenantId a).bind k) Q σ := by
  simp only [Attempts.add, requireTenant, Prog.bind_eq, Prog.bind_assoc]
  refine wp_raiseIf_bind (fun hne => absurd htenant hne) fun _ => ?_
  refine h.wp_claimKey hstops (by rw [hfree]; rfl) fun σ₁ h₁ => ?_
  refine h₁.wp_claimKey hstops (by rw [hnumber]; rfl) fun σ₂ h₂ => ?_
  exact h₂.wp_write hstops hk

theorem Inside.wp_append {event : AuditEvent} {k : Unit → Program α} (h : Inside σ₀ view σ)
    (hstops : Stops env u Q σ₀) (hfree : view.audits.find? event.val.id = none)
    (hk : ∀ σ', Inside σ₀ (view.appendAudit event) σ' → wp env (k ()) Q σ') :
    wp env ((Audits.append u event).bind k) Q σ := by
  simp only [Audits.append, Prog.bind_eq, Prog.bind_assoc]
  refine h.wp_claimKey hstops (by rw [hfree]; rfl) fun σ₁ h₁ => ?_
  exact h₁.wp_write hstops hk

end Operations

/-! ## The transactions of an attempt -/

section Attempts

variable {outcomes : Nat → Except Exc ExecutorResult} {env : Env Gateway}
  {σ σ' : Session Gateway} {request : ExecutorRequest}

/-- The attempt that a transaction has started. -/
structure Started (request : ExecutorRequest) (σ : Session Gateway) (a : ExecutionAttempt)
    (σ' : Session Gateway) : Prop where
  attemptable : Attemptable request σ'
  rows : σ'.committed.attempts.rows = σ.committed.attempts.rows ++ [a]
  shows : timeline σ' = timeline σ ++ [.stored a]
  executionId : a.val.executionId = request.val.executionId
  tenantId : a.val.tenantId = request.val.tool.tenantId
  running : a.val.status = .running

theorem numbered?_eq_none {s : Ledger} (hinv : LedgerInv s) {e : ToolExecution}
    (he : e ∈ s.executions) {number : Nat} (hnumber : e.val.attemptCount < number) :
    s.numbered? e.val.id number = none := by
  refine List.find?_eq_none.2 fun a ha => ?_
  simp only [decide_eq_true_eq]
  rintro ⟨hexecution, rfl⟩
  have hmem : a.val.attemptNumber ∈ s.attemptNumbers e.val.id :=
    List.mem_filterMap.2 ⟨a, ha, if_pos hexecution⟩
  -- The stored numbers are `1` to the count, so a greater one is free.
  rw [hinv.numbered e he, List.mem_range'_1] at hmem
  omega

/-- A running execution can register another attempt. -/
theorem exists_registerAttempt {e : ToolExecution} (hrunning : e.val.status = .running) :
    ∃ e', e.registerAttempt = .ok e' := by
  have hvalid : Valid { e.val with attemptCount := e.val.attemptCount + 1 } := by
    have he := e.property
    simp_all [Valid, PostInit.checks]
  exact ⟨⟨_, hvalid⟩, ToolExecution.registerAttempt_eq_ok.2 ⟨hrunning, rfl⟩⟩

/-- The fields of a new attempt pass their checks. -/
theorem valid_newAttempt (e : ToolExecution) {id : Id} {number : Nat} (now : Time)
    (hid : isBlank id = false) (hnumber : 0 < number) :
    Valid ({
      id := id
      tenantId := e.val.tenantId
      executionId := e.val.id
      attemptNumber := number
      status := .running
      startedAt := now } : ExecutionAttemptFields) := by
  have he := e.property
  simp_all [Valid, PostInit.checks, nonBlank]
  omega

theorem started_of_stored (hσ : Attemptable request σ) {e e' : ToolExecution}
    {a : ExecutionAttempt} (hfound : σ.committed.executions.find? request.val.executionId = some e)
    (htenant : e.val.tenantId = request.val.tool.tenantId)
    (hregister : e.registerAttempt = .ok e') (hatenant : a.val.tenantId = e.val.tenantId)
    (hexecution : a.val.executionId = e.val.id) (hrunning : a.val.status = .running)
    (hnumber : a.val.attemptNumber = e'.val.attemptCount)
    (hfree : σ.committed.attempts.find? a.val.id = none)
    (hstored : Stored σ ((σ.committed.saveExecution e').addAttempt a) σ') :
    Started request σ a σ' := by
  have hid := Table.key_of_find? hfound
  have hrevises := ToolExecution.revises_of_register hregister
  obtain ⟨hstatus, hval⟩ := ToolExecution.registerAttempt_eq_ok.1 hregister
  rw [← hid] at hfound
  have hrows : σ'.committed.attempts.rows = σ.committed.attempts.rows ++ [a] := by
    rw [hstored.committed]
    exact Table.rows_insert hfree
  refine ⟨⟨hstored.settled, ?_, e', ?_, ?_, ?_⟩, hrows, ?_, ?_, ?_, hrunning⟩
  · rw [hstored.committed]
    exact hσ.inv.startAttempt hfound hregister hexecution hnumber hfree
  · rw [hstored.committed, ← hid]
    exact Ledger.find?_saveExecution_self hfound hrevises
  · rw [hval]
    exact htenant
  · rw [hval]
    exact hstatus
  · rw [hstored.shows, ← hstored.committed, storedAttempts_of_rows hfree hrows]
    rfl
  · rw [hexecution, hid]
  · rw [hatenant, htenant]

theorem wp_startAttempt (hfault : env.Faultless) (hnew : NewIds env)
    (hσ : Attemptable request σ) :
    wp env (startAttempt request.val.tool.tenantId request.val.executionId)
      (fun r σ' => ∃ a, r = .ok a ∧ Started request σ a σ') σ := by
  obtain ⟨e, hfound, htenant, hrunning⟩ := hσ.running
  obtain ⟨e', hregister⟩ := exists_registerAttempt hrunning
  have hid := Table.key_of_find? hfound
  have hexecution : σ.committed.execution? request.val.tool.tenantId request.val.executionId =
      some e := Ledger.execution?_eq_some.2 ⟨hfound, htenant⟩
  have hstops : ∀ {σ₀ Q}, Stops (α := ExecutionAttempt) env .startAttempt Q σ₀ :=
    stops_of_faultless hfault
  unfold startAttempt
  simp only [Prog.bind_eq, Prog.pure_eq]
  have h := (inside_of_settled hσ.settled).asked (q := .now) (a := env.answer σ .now) rfl
  refine wp_ask_bind (wp_uow_faultless hfault ?_)
  -- The unit of work locks the execution and registers the attempt, which gets a new id; then it
  -- saves the one and inserts the other.
  refine h.wp_getExecution hstops fun σ₁ h₁ => ?_
  rw [hexecution]
  refine wp_orRaise_bind (fun hnone => by cases hnone) fun x hx => ?_
  cases hx
  refine wp_raiseIf_bind (fun hnot => absurd hrunning hnot) fun _ => ?_
  refine wp_lift_bind (fun x hx => by rw [hregister] at hx; cases hx) fun x hx => ?_
  rw [hregister] at hx
  cases hx
  obtain ⟨-, hval⟩ := ToolExecution.registerAttempt_eq_ok.1 hregister
  obtain ⟨hblank, hfree⟩ := hnew σ₁
  rw [h₁.view] at hfree
  have h₂ := h₁.asked (q := .newId) (a := env.answer σ₁ .newId) rfl
  refine wp_ask_bind (wp_lift_bind ?_ fun a ha => ?_)
  · intro x hx
    -- A field out of range is the only way to fail, and none is.
    have hvalid := valid_newAttempt e (env.answer σ .now) hblank
      (show 0 < e'.val.attemptCount by rw [hval]; exact Nat.succ_pos _)
    rw [htenant, hid] at hvalid
    exact absurd hvalid (error_of_construct hx).1
  · have hattempt := val_of_construct ha
    have hfree' : σ.committed.attempts.find? a.val.id = none := by rwa [hattempt]
    refine h₂.wp_saveExecution hstops (ToolExecution.revises_of_register hregister)
      (by rwa [hid]) fun σ₃ h₃ => ?_
    refine h₃.wp_addAttempt hstops (by rw [hattempt]) hfree' ?_ fun σ₄ h₄ => ?_
    -- The number is one more than the count, so it is free.
    · rw [hattempt, ← hid]
      refine numbered?_eq_none (s := σ.committed) hσ.inv (Table.mem_of_find? hfound) ?_
      rw [hval]
      exact Nat.lt_succ_self _
    · refine h₄.wp_commit hstops fun σ₅ hstored _ => ⟨a, rfl, ?_⟩
      exact started_of_stored hσ hfound htenant hregister (by rw [hattempt, htenant])
        (by rw [hattempt, hid]) (by rw [hattempt]) (by rw [hattempt]) hfree' hstored

/-- The attempt that a transaction has finished, as the outcome of its call is recorded. -/
structure Finished (request : ExecutorRequest) (rows : List ExecutionAttempt)
    (outcome : Except Exc ExecutorResult) (σ : Session Gateway) (a a' : ExecutionAttempt)
    (σ' : Session Gateway) : Prop where
  attemptable : Attemptable request σ'
  rows : σ'.committed.attempts.rows = rows ++ [a']
  shows : timeline σ' = timeline σ ++ [.stored a']
  records : ∃ t, (ExecuteWithRetry.attemptOutcome outcome).transition a t = .ok a'

/-- A running attempt can record the outcome of its call. -/
theorem exists_transition {a : ExecutionAttempt} {outcome : Except Exc ExecutorResult}
    (hrunning : a.val.status = .running) (h : Recordable outcome) (t : Time) :
    ∃ a', (ExecuteWithRetry.attemptOutcome outcome).transition a t = .ok a' := by
  have hfailed : ∀ code category unknown upstreamStatus,
      ExecutionAttempt.RecordableStatus upstreamStatus →
      ∃ a', a.fail code category t unknown upstreamStatus = .ok a' := by
    intro code category unknown upstreamStatus hstatus
    have hvalid : Valid { a.val with
        status := if unknown then .unknown else .failed, finishedAt := some t,
        errorCode := some code, errorCategory := some category,
        upstreamStatus := upstreamStatus } :=
      (ExecutionAttempt.valid_terminal_iff t (by cases unknown <;> decide)
        (by cases unknown <;> simp) (by simp)).2 hstatus
    exact ⟨⟨_, hvalid⟩, ExecutionAttempt.fail_eq_ok.2 ⟨hrunning, rfl⟩⟩
  rcases outcome with (_ | failure | _ | _ | _ | _) | result
  · exact hfailed _ _ _ none nofun
  -- The executor's failure is the only one that comes with an upstream status.
  · exact hfailed _ _ _ _ h
  · exact hfailed _ _ _ none nofun
  · exact hfailed _ _ _ none nofun
  -- A cancelled call records nothing.
  · exact absurd rfl h
  · exact hfailed _ _ _ none nofun
  · obtain ⟨hcode, hcategory⟩ := ExecutionAttempt.no_error_of_running hrunning
    have hvalid : Valid { a.val with
        status := .succeeded, finishedAt := some t, errorCode := none, errorCategory := none,
        upstreamStatus := result.upstreamStatus } :=
      (ExecutionAttempt.valid_terminal_iff t (by decide) (by simp) (by simp)).2 h
    refine ⟨⟨_, hvalid⟩, ExecutionAttempt.succeed_eq_ok.2 ⟨hrunning, ?_⟩⟩
    simp [hcode, hcategory]

theorem wp_record (hfault : env.Faultless) (hσ : Attemptable request σ)
    {a : ExecutionAttempt} {rows : List ExecutionAttempt} {outcome : Except Exc ExecutorResult}
    (hrows : σ.committed.attempts.rows = rows ++ [a])
    (htenant : a.val.tenantId = request.val.tool.tenantId) (hrunning : a.val.status = .running)
    (houtcome : Recordable outcome) :
    wp env (ExecuteWithRetry.record request.val.tool.tenantId a.val.id outcome)
      (fun r σ' => ∃ a', r = .ok a' ∧ Finished request rows outcome σ a a' σ') σ := by
  obtain ⟨a', hfinish⟩ := exists_transition hrunning houtcome (env.answer σ .now)
  have hrevises := ExecutionAttempt.revises_of_finish hfinish
  have hmem : a ∈ σ.committed.attempts := by
    rw [← Table.mem_rows, hrows]
    simp
  have hfound : σ.committed.attempt? request.val.tool.tenantId a.val.id = some a :=
    Ledger.attempt?_eq_some.2 ⟨Table.find?_of_mem hmem, htenant⟩
  have hstops : ∀ {σ₀ Q}, Stops (α := ExecutionAttempt) env .finishAttempt Q σ₀ :=
    stops_of_faultless hfault
  rw [ExecuteWithRetry.record_eq]
  unfold finishAttempt
  simp only [Prog.bind_eq, Prog.pure_eq]
  have h := (inside_of_settled hσ.settled).asked (q := .now) (a := env.answer σ .now) rfl
  refine wp_ask_bind (wp_uow_faultless hfault ?_)
  -- The unit of work locks the attempt, which is running still, ends it and saves it.
  refine h.wp_getAttempt hstops fun σ₁ h₁ => ?_
  rw [hfound]
  refine wp_orRaise_bind (fun hnone => by cases hnone) fun x hx => ?_
  cases hx
  refine wp_raiseIf_bind (fun hnot => absurd hrunning hnot) fun _ => ?_
  refine wp_lift_bind (fun x hx => by rw [hfinish] at hx; cases hx) fun x hx => ?_
  rw [hfinish] at hx
  cases hx
  refine h₁.wp_saveAttempt hstops hrevises hfound fun σ₂ h₂ => ?_
  refine h₂.wp_commit hstops fun σ₃ hstored _ => ⟨a', rfl, ?_⟩
  -- An ended attempt is no running one, so the save shows.
  have hne : a' ≠ a := by
    rintro rfl
    exact (AttemptOutcome.transition_ok hfinish).2.1 hrunning
  refine ⟨⟨hstored.settled, ?_, ?_⟩, ?_, ?_, ⟨_, hfinish⟩⟩
  · rw [hstored.committed]
    exact hσ.inv.step (.finishAttempt (Table.find?_of_mem hmem) hfinish)
  · rw [hstored.committed]
    exact hσ.running
  · rw [hstored.committed]
    exact rows_saveAttempt hrows hrevises
  · rw [hstored.shows, storedAttempts_saveAttempt hrows hrevises hne]
    rfl

end Attempts

/-! ## The calls -/

namespace ExecuteWithRetry

/-- The outcome ends the calls: it is anything but a failure that may be retried. -/
def Ends (request : ExecutorRequest) : Except Exc ExecutorResult → Prop
  | .error (.executorFailure error) => disposition request error ≠ .retry
  | _ => True

/-- What the loop passes on of the outcome that ended it. -/
def passedOn (request : ExecutorRequest) : Except Exc ExecutorResult → Except Exc ExecutorResult
  | .error (.executorFailure error) => .error (.executorFailure (escaping request error))
  | outcome => outcome

/-- The attempt before and after a call. -/
structure Round where
  started : ExecutionAttempt
  finished : ExecutionAttempt

/-- The attempt records the call of the request, and how it ended. -/
structure Round.Records (round : Round) (request : ExecutorRequest)
    (outcome : Except Exc ExecutorResult) : Prop where
  executionId : round.started.val.executionId = request.val.executionId
  tenantId : round.started.val.tenantId = request.val.tool.tenantId
  running : round.started.val.status = .running
  ended : ∃ t, (attemptOutcome outcome).transition round.started t = .ok round.finished

variable (self : ExecuteWithRetry) (request : ExecutorRequest)
  (credential : Option ResolvedCredential) (outcomes : Nat → Except Exc ExecutorResult)

/-- What leaves the loop after call `last`, the last one: its outcome, or that no backoff could
    be computed for another call. -/
inductive Leaves (last : Nat) (outcome : Except Exc ExecutorResult) :
    Except Exc ExecutorResult → Prop where
  | passed (h : Ends request outcome ∨ last = self.maxAttempts) :
    Leaves last outcome (passedOn request outcome)
  | overflowed (h : ¬ Ends request outcome) (hlt : last < self.maxAttempts)
    (hover : last = overflowingAttempt) : Leaves last outcome (.error overflowError)

/-- A failure leaves one. -/
theorem Leaves.error {self : ExecuteWithRetry} {request : ExecutorRequest} {last : Nat} {x : Exc}
    {r : Except Exc ExecutorResult} (h : self.Leaves request last (.error x) r) :
    ∃ y, r = .error y := by
  cases h with
  | passed _ => rcases x with _ | _ | _ | _ | _ | _ <;> exact ⟨_, rfl⟩
  | overflowed _ _ _ => exact ⟨_, rfl⟩

/-- What call `k` shows, of which `last` is the last. -/
def callShown (last : Nat) (rounds : Nat → Round) (k : Nat) : List Shown :=
  [.stored (rounds k).started, .called request credential, .stored (rounds k).finished] ++
    if k < last then [.slept (self.backoffSeconds k)] else []

/-- The session has gone through the calls from `first` to `last`. -/
structure CallsMade (first last : Nat) (rounds : Nat → Round) (σ : Session Gateway)
    (result : Except Exc ExecutorResult) (σ' : Session Gateway) : Prop where
  result : self.Leaves request last (outcomes last) result
  rows : σ'.committed.attempts.rows = σ.committed.attempts.rows ++
    (List.range' first (last + 1 - first)).map fun k => (rounds k).finished
  shows : timeline σ' = timeline σ ++
    (List.range' first (last + 1 - first)).flatMap (self.callShown request credential last rounds)
  records : ∀ k, first ≤ k → k ≤ last → (rounds k).Records request (outcomes k)

/-- Call `last` is the first to end the calls, the last that is allowed, or the one whose
    backoff raises. -/
def IsLast (first last : Nat) : Prop :=
  IsLeast ({k | first ≤ k ∧ Ends request (outcomes k)} ∪ {self.maxAttempts, overflowingAttempt})
    last

variable {self request credential outcomes} {env : Env Gateway} {σ σ' σ'' : Session Gateway}
  {first last : Nat} {result : Except Exc ExecutorResult}

theorem isLast_self (hle : first ≤ self.maxAttempts) (hbound : first ≤ overflowingAttempt)
    (h : Ends request (outcomes first) ∨ first = self.maxAttempts ∨ first = overflowingAttempt) :
    IsLast self request outcomes first first := by
  refine ⟨h.imp (fun hends => ⟨le_refl _, hends⟩) id, ?_⟩
  rintro k (⟨hk, -⟩ | rfl | rfl)
  · exact hk
  · exact hle
  · exact hbound

theorem IsLast.le (h : IsLast self request outcomes first last)
    (hle : first ≤ self.maxAttempts) (hbound : first ≤ overflowingAttempt) : first ≤ last := by
  obtain ⟨hfirst, -⟩ | hmax | hover := h.1
  · exact hfirst
  · exact hle.trans_eq hmax.symm
  · exact hbound.trans_eq hover.symm

theorem IsLast.of_succ (h : IsLast self request outcomes (first + 1) last)
    (hends : ¬ Ends request (outcomes first)) : IsLast self request outcomes first last := by
  refine ⟨h.1.imp (fun ⟨hle, hk⟩ => ⟨Nat.le_of_succ_le hle, hk⟩) id, ?_⟩
  rintro k (⟨hk, hends'⟩ | hk)
  · obtain rfl | hlt := Nat.eq_or_lt_of_le hk
    · exact absurd hends' hends
    · exact h.2 (.inl ⟨hlt, hends'⟩)
  · exact h.2 (.inr hk)

/-- The session has gone through one call, before it sleeps. -/
structure CallMade (request : ExecutorRequest) (credential : Option ResolvedCredential)
    (outcome : Except Exc ExecutorResult) (round : Round) (σ σ' : Session Gateway) : Prop where
  attemptable : Attemptable request σ'
  rows : σ'.committed.attempts.rows = σ.committed.attempts.rows ++ [round.finished]
  shows : timeline σ' = timeline σ ++
    [.stored round.started, .called request credential, .stored round.finished]
  records : round.Records request outcome

theorem CallMade.calls {round : Round} {outcome : Except Exc ExecutorResult}
    (h : CallMade request credential outcome round σ σ') :
    callsIn (timeline σ') = callsIn (timeline σ) + 1 := by
  simp [h.shows, callsIn]

/-- The calls end with this one. -/
theorem CallMade.callsMade {round : Round}
    (h : CallMade request credential (outcomes first) round σ σ')
    (hresult : self.Leaves request first (outcomes first) result) :
    self.CallsMade request credential outcomes first first (fun _ => round) σ result σ' where
  result := hresult
  rows := by
    rw [h.rows, Nat.add_sub_cancel_left]
    rfl
  shows := by
    rw [h.shows, Nat.add_sub_cancel_left]
    simp [callShown]
  records k hfirst hlast := by
    rw [Nat.le_antisymm hlast hfirst]
    exact h.records

/-- A call, a sleep and the calls that follow. -/
theorem CallMade.cons {round : Round} {rounds : Nat → Round}
    (h : CallMade request credential (outcomes first) round σ σ') (hlt : first < last)
    (hrest : self.CallsMade request credential outcomes (first + 1) last rounds
      (σ'.asked (.sleep (self.backoffSeconds first)) (.ok ())) result σ'') :
    self.CallsMade request credential outcomes first last
      (fun k => if k = first then round else rounds k) σ result σ'' := by
  have hlength : last + 1 - first = (last + 1 - (first + 1)) + 1 := by omega
  have hlater : ∀ k ∈ List.range' (first + 1) (last + 1 - (first + 1)), k ≠ first := by
    intro k hk
    rw [List.mem_range'_1] at hk
    omega
  -- The rows and the events of this call come first, those of the later calls behind them.
  obtain ⟨hresult, hrows, hshows, hrecords⟩ := hrest
  refine ⟨hresult, ?_, ?_, ?_⟩
  · rw [hrows, Session.asked_committed, h.rows, hlength, List.range'_succ, List.map_cons,
      if_pos rfl, List.append_assoc, List.singleton_append]
    congr 2
    exact List.map_congr_left fun k hk => by rw [if_neg (hlater k hk)]
  · rw [hshows, timeline_asked, h.shows, hlength, List.range'_succ, List.flatMap_cons,
      List.append_assoc, List.append_assoc, ← List.append_assoc _ (shown _)]
    congr 2
    · simp [callShown, shown, hlt]
    · refine List.flatMap_congr fun k hk => ?_
      simp [callShown, hlater k hk]
  · intro k hfirst hlast
    split
    · next hk =>
      rw [hk]
      exact h.records
    · exact hrecords k (by omega) hlast

/-! ## The loop -/

variable {s : Ledger}

/-- One call, with the attempt that is stored before it and after it. -/
theorem wp_call (henv : CallsEndWith outcomes env) (hexecutor : self.executor = askExecutor)
    (houtcomes : ∀ k, Recordable (outcomes k)) (hσ : Attemptable request σ)
    (hfirst : callsIn (timeline σ) + 1 = first) {α : Type}
    {k : Except Exc ExecutorResult → Program α}
    {Q : Except Exc α → Session Gateway → Prop}
    (hk : ∀ round σ', CallMade request credential (outcomes first) round σ σ' →
      wp env (k (outcomes first)) Q σ') :
    wp env (do
      let attempt ← startAttempt request.val.tool.tenantId request.val.executionId
      let outcome ← (self.executor request credential).attempt
      let _ ← record request.val.tool.tenantId attempt.val.id outcome
      k outcome) Q σ := by
  simp only [Prog.bind_eq]
  refine wp_bind.2 (wp_mono ?_ (wp_startAttempt henv.faultless henv.newId hσ))
  rintro _ σ₁ ⟨a, rfl, hstarted⟩
  -- Starting an attempt calls nobody, so this is still call `first`.
  have hcall : env.answer σ₁ (.executeTool request credential) = outcomes first := by
    rw [henv.called, hstarted.shows, ← hfirst]
    simp [callsIn]
  rw [hexecutor]
  refine wp_bind.2 (wp_attempt.2 (wp_ask.2 (wp_lift.2 ?_)))
  rw [hcall]
  refine wp_bind.2 (wp_mono ?_ (wp_record henv.faultless hstarted.attemptable.asked hstarted.rows
    hstarted.tenantId hstarted.running (houtcomes first)))
  rintro _ σ₂ ⟨a', rfl, hfinished⟩
  refine hk ⟨a, a'⟩ σ₂ ⟨hfinished.attemptable, hfinished.rows, ?_, ?_⟩
  · rw [hfinished.shows, timeline_asked, hstarted.shows, List.append_assoc, List.append_assoc]
    rfl
  · exact ⟨hstarted.executionId, hstarted.tenantId, hstarted.running, hfinished.records⟩

theorem proceed_of_ends {outcome : Except Exc ExecutorResult}
    (h : Ends request outcome ∨ first = self.maxAttempts) :
    self.proceed request first outcome = Prog.lift ((passedOn request outcome).map some) := by
  rcases outcome with (_ | failure | _ | _ | _ | _) | result
  case error.executorFailure =>
    -- A failure is retried only if its disposition says so and attempts are left.
    have hretries : ¬ self.Retries request first failure := by
      rintro ⟨hretry, hlt⟩
      obtain hends | hmax := h
      · exact hends hretry
      · exact absurd hmax (Nat.ne_of_lt hlt)
    simp only [proceed, hretries, if_false]
    rfl
  all_goals rfl

theorem wp_proceed_of_ends {outcome : Except Exc ExecutorResult}
    {k : Option ExecutorResult → Program ExecutorResult}
    {Q : Except Exc ExecutorResult → Session Gateway → Prop} (hk : ∀ r, k (some r) = .ret r)
    (h : Ends request outcome ∨ first = self.maxAttempts) (hQ : Q (passedOn request outcome) σ) :
    wp env ((self.proceed request first outcome).bind k) Q σ := by
  rw [proceed_of_ends h]
  cases hpassed : passedOn request outcome with
  | error e =>
    rw [hpassed] at hQ
    exact hQ
  | ok result =>
    rw [hpassed] at hQ
    change wp env (k (some result)) Q σ
    rw [hk]
    exact hQ

theorem proceed_of_not_ends {outcome : Except Exc ExecutorResult} (h : ¬ Ends request outcome)
    (hlt : first < self.maxAttempts) :
    self.proceed request first outcome =
      (Prog.lift (self.backoff first)).bind fun seconds => (sleep seconds).bind fun _ =>
        .ret none := by
  rcases outcome with (_ | failure | _ | _ | _ | _) | result
  case error.executorFailure =>
    have hretries : self.Retries request first failure := ⟨not_not.1 h, hlt⟩
    simp only [proceed, hretries, if_true]
    rfl
  all_goals exact absurd trivial h

theorem wp_proceed_of_not_ends (hslept : ∀ σ seconds, env.answer σ (.sleep seconds) = .ok ())
    {outcome : Except Exc ExecutorResult} {k : Option ExecutorResult → Program ExecutorResult}
    {Q : Except Exc ExecutorResult → Session Gateway → Prop} (h : ¬ Ends request outcome)
    (hlt : first < self.maxAttempts) (hbound : first < overflowingAttempt)
    (hk : wp env (k none) Q (σ.asked (.sleep (self.backoffSeconds first)) (.ok ()))) :
    wp env ((self.proceed request first outcome).bind k) Q σ := by
  have hanswer : env.answer σ (.sleep (self.backoffSeconds first)) = .ok () := hslept _ _
  rw [proceed_of_not_ends h hlt, backoff_of_lt hbound, Prog.bind_assoc]
  change wp env (((sleep (self.backoffSeconds first)).bind fun _ => .ret none).bind k) Q σ
  rw [Prog.bind_assoc]
  refine wp_bind.2 (wp_ask.2 (wp_lift.2 ?_))
  rw [hanswer]
  exact hk

/-- A retry whose backoff raises. -/
theorem wp_proceed_of_overflow {outcome : Except Exc ExecutorResult}
    {k : Option ExecutorResult → Program ExecutorResult}
    {Q : Except Exc ExecutorResult → Session Gateway → Prop} (h : ¬ Ends request outcome)
    (hlt : first < self.maxAttempts) (hbound : overflowingAttempt ≤ first)
    (hQ : Q (.error overflowError) σ) :
    wp env ((self.proceed request first outcome).bind k) Q σ := by
  rw [proceed_of_not_ends h hlt, backoff_of_le hbound]
  exact hQ

theorem callsIn_flatMap {rounds : Nat → Round} (calls : List Nat) :
    callsIn (calls.flatMap (self.callShown request credential last rounds)) = calls.length := by
  induction calls with
  | nil => rfl
  | cons k calls ih =>
    rw [List.flatMap_cons, callsIn_append, ih, List.length_cons, callShown, Nat.add_comm]
    split <;> rfl

theorem wp_loop (henv : CallsEndWith outcomes env) (hexecutor : self.executor = askExecutor)
    (houtcomes : ∀ k, Recordable (outcomes k)) (remaining : Nat) (hσ : Attemptable request σ)
    (hfirst : callsIn (timeline σ) + 1 = first) (hmax : self.maxAttempts = first + remaining)
    (hbound : first ≤ overflowingAttempt) :
    wp env (self.loop request credential (remaining + 1) first) (fun r σ' => ∃ last rounds,
      IsLast self request outcomes first last ∧
        self.CallsMade request credential outcomes first last rounds σ r σ') σ := by
  -- By the attempts that remain after this one.
  induction remaining generalizing first σ with
  | zero =>
    simp only [loop, Prog.bind_eq]
    refine wp_call henv hexecutor houtcomes hσ hfirst fun round σ' hcall => ?_
    refine wp_proceed_of_ends (fun _ => rfl) (.inr hmax.symm) ?_
    exact ⟨first, _, isLast_self (Nat.le_of_eq hmax.symm) hbound (.inr (.inl hmax.symm)),
      hcall.callsMade (.passed (.inr hmax.symm))⟩
  | succ remaining ih =>
    rw [loop]
    simp only [Prog.bind_eq]
    refine wp_call henv hexecutor houtcomes hσ hfirst fun round σ' hcall => ?_
    have hlt : first < self.maxAttempts := by omega
    by_cases hends : Ends request (outcomes first)
    -- The outcome ends the calls, though attempts remain.
    · refine wp_proceed_of_ends (fun _ => rfl) (.inl hends) ?_
      exact ⟨first, _, isLast_self hlt.le hbound (.inl hends),
        hcall.callsMade (.passed (.inl hends))⟩
    -- another call is due: its backoff raises, or is slept through
    obtain hover | hfits := Nat.eq_or_lt_of_le hbound
    · refine wp_proceed_of_overflow hends hlt hover.ge ?_
      exact ⟨first, _, isLast_self hlt.le hbound (.inr (.inr hover)),
        hcall.callsMade (.overflowed hends hlt hover)⟩
    · refine wp_proceed_of_not_ends henv.slept hends hlt hfits ?_
      have hcalls : callsIn (timeline
          (σ'.asked (.sleep (self.backoffSeconds first)) (.ok ()))) + 1 = first + 1 := by
        rw [timeline_asked, callsIn_append, hcall.calls, hfirst]
        rfl
      refine wp_mono ?_ (ih hcall.attemptable.asked hcalls (by omega) hfits)
      -- The last of the later calls is the last of all, since this one ends nothing.
      rintro r σ'' ⟨last, rounds, hlast, hmade⟩
      have hlater : first < last := hlast.le hlt hfits
      exact ⟨last, _, hlast.of_succ hends, hcall.cons hlater hmade⟩

/-- A failure of this request is never retried. -/
def NeverRetried (request : ExecutorRequest) : Prop :=
  request.val.tool.sideEffect = .nonIdempotentWrite ∨ request.val.tool.sideEffect = .unknown ∨
    (request.val.tool.sideEffect = .idempotentWrite ∧ request.val.idempotencyKey = none)

theorem ends_of_neverRetried (h : NeverRetried request) (outcome : Except Exc ExecutorResult) :
    Ends request outcome := by
  rcases outcome with (_ | failure | _ | _ | _ | _) | result
  case error.executorFailure =>
    intro hretry
    unfold disposition retryDisposition at hretry
    -- Only a read, or an idempotent write with a key, is ever retried.
    split_ifs at hretry with _ _ _ hread hwrite
    · obtain h | h | ⟨h, -⟩ := h <;> rw [hread] at h <;> cases h
    · obtain h | h | ⟨-, hkey⟩ := h
      · rw [hwrite.1] at h
        cases h
      · rw [hwrite.1] at h
        cases h
      · rw [hkey] at hwrite
        cases hwrite.2
  all_goals trivial

theorem run_execute (hexecutor : self.executor = askExecutor)
    (houtcomes : ∀ k, Recordable (outcomes k)) (henv : CallsEndWith outcomes env)
    (hs : Attemptable request (Session.start s)) :
    ∃ last rounds, IsLast self request outcomes 1 last ∧
      self.CallsMade request credential outcomes 1 last rounds (Session.start s)
        (run env (self.execute request credential) (Session.start s)).1
        (run env (self.execute request credential) (Session.start s)).2 ∧
      callsIn (timeline (run env (self.execute request credential) (Session.start s)).2) =
        last := by
  obtain ⟨remaining, hmax⟩ := Nat.exists_eq_add_of_le (Nat.succ_le_of_lt self.maxAttempts_pos)
  have hloop : wp env (self.loop request credential (remaining + 1) 1) _ (Session.start s) :=
    wp_loop henv hexecutor houtcomes remaining hs rfl hmax (by decide)
  unfold execute
  rw [hmax, Nat.succ_eq_add_one, Nat.zero_add, Nat.add_comm 1]
  obtain ⟨last, rounds, hlast, hmade⟩ := hloop
  refine ⟨last, rounds, hlast, hmade, ?_⟩
  obtain ⟨-, -, hshows, -⟩ := hmade
  rw [hshows, timeline_start, List.nil_append, callsIn_flatMap, List.length_range']
  rfl

/-- The calls are as many as the attempts that are allowed, up to the first outcome that ends
    them, or up to the one whose backoff is out of range; each has an attempt of its own, which is
    finished before the next one starts, and is followed by a sleep that doubles. -/
theorem retry_discipline (self : ExecuteWithRetry) (hexecutor : self.executor = askExecutor)
    (request : ExecutorRequest) (credential : Option ResolvedCredential)
    (outcomes : Nat → Except Exc ExecutorResult) (houtcomes : ∀ k, Recordable (outcomes k))
    (env : Env Gateway) (henv : CallsEndWith outcomes env) (s : Ledger)
    (hs : Attemptable request (Session.start s)) :
    ∃ last rounds, IsLast self request outcomes 1 last ∧
      self.CallsMade request credential outcomes 1 last rounds (Session.start s)
        (run env (self.execute request credential) (Session.start s)).1
        (run env (self.execute request credential) (Session.start s)).2 ∧
      callsIn (timeline (run env (self.execute request credential) (Session.start s)).2) = last ∧
      (NeverRetried request → last = 1) := by
  obtain ⟨last, rounds, hlast, hmade, hcalls⟩ := run_execute hexecutor houtcomes henv hs
  refine ⟨last, rounds, hlast, hmade, hcalls, fun hnever => ?_⟩
  -- The first outcome ends the calls already.
  have hle := hlast.2 (.inl ⟨le_refl 1, ends_of_neverRetried hnever _⟩)
  exact Nat.le_antisymm hle (hlast.le self.maxAttempts_pos (by decide))

end ExecuteWithRetry

section Retried

/-- The call of the second plan of the race, which is running. -/
def raceRequest : ExecutorRequest where
  val := {
    executionId := "second"
    tool := {
      tenantId := "tenant"
      toolId := "tool"
      toolVersionId := "version"
      toolBindingId := "binding"
      upstreamServiceId := "upstream"
      canonicalName := "orders.update"
      version := 1
      inputSchema := []
      outputSchema := none
      sideEffect := .idempotentWrite
      visibility := .public_
      bindingType := .http
      bindingConfig := []
      upstreamEndpoint := "https://orders.example"
      upstreamAuthScheme := none }
    arguments := []
    timeoutSeconds := 5
    idempotencyKey := some "key" }
  property := by decide

/-- The first call meets a network error, and the second one succeeds. -/
def raceOutcomes : Nat → Except Exc ExecutorResult
  | 1 => .error (.executorFailure { code := "upstream_network_error", category := .network })
  | _ => .ok { data := .null, contentType := none, upstreamStatus := some 200 }

/-- An identifier that is longer than those of all attempts. -/
def freshId (σ : Session Gateway) : Id :=
  String.ofList (List.replicate
    ((σ.view.attempts.rows.map fun a => a.val.id.toList.length).sum + 1) 'a')

/-- Surroundings in which the calls end with these outcomes. -/
def callsEnv (outcomes : Nat → Except Exc ExecutorResult) : Env Gateway where
  answer σ
    | .newId => freshId σ
    | .sleep _ => .ok ()
    | .executeTool _ _ => outcomes (callsIn (timeline σ) + 1)
    | q => someAnswer q
  fault _ _ _ := none

/-- An identifier that is longer than all those of a table is free. -/
theorem find?_longer {ν : Type} {key : ν → Id} {table : Table key} {id : Id}
    (h : (table.rows.map fun v => (key v).toList.length).sum < id.toList.length) :
    table.find? id = none := by
  refine Table.find?_eq_none.2 fun v hv hid => ?_
  have hle := List.le_sum_of_mem (List.mem_map_of_mem (f := fun v => (key v).toList.length) hv)
  rw [hid] at hle
  omega

theorem callsEndWith_callsEnv (outcomes : Nat → Except Exc ExecutorResult) :
    CallsEndWith outcomes (callsEnv outcomes) where
  faultless _ _ _ := rfl
  newId σ := by
    refine ⟨?_, find?_longer ?_⟩
    · simp [callsEnv, freshId, isBlank, isSpace]
    · simp [callsEnv, freshId]
  slept _ _ := rfl
  called _ _ _ := rfl

set_option maxRecDepth 100000 in
theorem raceWorld_running :
    (raceWorld.store.executions.find? "second").any
      (fun e => e.val.tenantId = "tenant" ∧ e.val.status = .running) = true := by
  decide +kernel

theorem attemptable_race : Attemptable raceRequest (Session.start raceWorld.store) := by
  obtain ⟨e, hfound, hrunning⟩ := (Option.any_eq_true _ _).1 raceWorld_running
  obtain ⟨htenant, hstatus⟩ := of_decide_eq_true hrunning
  exact attemptable_start (@Reachable.inv raceSha256 _ _ _ raceWorld_reachable) hfound htenant
    hstatus

/-- A retry of the call. -/
def raceRetry : ExecuteWithRetry where
  executor := askExecutor
  maxAttempts_pos := by decide
  backoff_nonneg := by decide +kernel

theorem recordable_raceOutcomes (k : Nat) : Recordable (raceOutcomes k) := by
  match k with
  | 1 => nofun
  | 0 | k + 2 =>
    rintro _ ⟨⟩
    decide

theorem retry_discipline_race :
    ∃ last rounds, ExecuteWithRetry.IsLast raceRetry raceRequest raceOutcomes 1 last ∧
      raceRetry.CallsMade raceRequest none raceOutcomes 1 last rounds
        (Session.start raceWorld.store)
        (run (callsEnv raceOutcomes) (raceRetry.execute raceRequest none)
          (Session.start raceWorld.store)).1
        (run (callsEnv raceOutcomes) (raceRetry.execute raceRequest none)
          (Session.start raceWorld.store)).2 ∧
      callsIn (timeline (run (callsEnv raceOutcomes) (raceRetry.execute raceRequest none)
        (Session.start raceWorld.store)).2) = last ∧
      (ExecuteWithRetry.NeverRetried raceRequest → last = 1) :=
  ExecuteWithRetry.retry_discipline raceRetry rfl raceRequest none raceOutcomes
    recordable_raceOutcomes (callsEnv raceOutcomes) (callsEndWith_callsEnv raceOutcomes)
    raceWorld.store attemptable_race

/-- A retry that does not wait between its calls. -/
def patientRetry : ExecuteWithRetry where
  executor := askExecutor
  maxAttempts := 1026
  initialBackoffSeconds := .finite 0
  maxAttempts_pos := by decide
  backoff_nonneg := by decide +kernel

/-- Every call meets a network error. -/
def unreachableOutcomes (_ : Nat) : Except Exc ExecutorResult := raceOutcomes 1

/-- The calls of a retry can end before those that are allowed, with none that ends them. -/
theorem backoff_overflow_ends_retries :
    ¬ ∀ (self : ExecuteWithRetry) (request : ExecutorRequest)
      (credential : Option ResolvedCredential) (outcomes : Nat → Except Exc ExecutorResult)
      (env : Env Gateway) (s : Ledger), self.executor = askExecutor →
      (∀ k, Recordable (outcomes k)) → CallsEndWith outcomes env →
      Attemptable request (Session.start s) →
      IsLeast ({k | 1 ≤ k ∧ ExecuteWithRetry.Ends request (outcomes k)} ∪ {self.maxAttempts})
        (callsIn (timeline (run env (self.execute request credential) (Session.start s)).2)) := by
  intro h
  have hleast := h patientRetry raceRequest none unreachableOutcomes
    (callsEnv unreachableOutcomes) raceWorld.store rfl (fun _ => recordable_raceOutcomes 1)
    (callsEndWith_callsEnv _) attemptable_race
  obtain ⟨last, rounds, hlast, -, hcalls⟩ := @ExecuteWithRetry.run_execute patientRetry raceRequest
    none unreachableOutcomes (callsEnv unreachableOutcomes) raceWorld.store rfl
    (fun _ => recordable_raceOutcomes 1) (callsEndWith_callsEnv _) attemptable_race
  rw [hcalls] at hleast
  have hle : last ≤ ExecuteWithRetry.overflowingAttempt := hlast.2 (.inr (.inr rfl))
  obtain ⟨-, hends⟩ | hmax := hleast.1
  · exact hends (by decide)
  · have hmax' : last = 1026 := hmax
    unfold ExecuteWithRetry.overflowingAttempt at hle
    omega

end Retried

end NexusMcp
