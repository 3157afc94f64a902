-- SUMMARY: What the answer to a tool call tells of the ledger, in every interleaving.
import NexusMcp.Mcp.Attribution
import NexusMcp.Mcp.NamedRows

/-!
# Answers Backed by the Ledger

An answer may name an execution or an approval. The ledger holds what it names, and it
belongs to the call that is answered.
-/

namespace NexusMcp

open Txn ExecutionLifecycle Contract

/-! ## Ports that name no row -/

/-- The port answered with the error. -/
def Query.Raises : (q : Query) → q.Answer → Exc → Prop
  | .resolvePrincipal _, a, e => a = .error e
  | .resolveTool _ _, a, e => a = .error e
  | .validateArguments _ _, a, e => a = .error e
  | .evaluatePolicy _, a, e => a = .error e
  | .validateEndpoint _, a, e => a = .error e
  | .resolveBinding _ _ _ _, a, e => a = .error e
  | .resolveSecret _, a, e => a = .error e
  | _, _, _ => False

/-- No port named a row of the ledger, which it does not know. -/
def Discreet (trace : List (Event Gateway)) : Prop :=
  ∀ q a, .asked q a ∈ trace → ∀ e, q.Raises a e → NamesNothing e

theorem Discreet.of_mem {trace later : List (Event Gateway)} (h : Discreet later)
    (hmem : ∀ ev ∈ trace, ev ∈ later) : Discreet trace :=
  fun q a hev => h q a (hmem _ hev)

/-- The error of a port that has just been asked. -/
theorem namesNothing_of_port {l : Local Gateway} {q : Query} {a : q.Answer} {e : Exc}
    (he : q.Raises a e) (h : Discreet (l.asked q a).trace) : NamesNothing e :=
  h q a List.mem_cons_self e he

/-! ## What an answer tells -/

/-- The execution was planned or running in a ledger that the call looked at. -/
def FoundOpen (trace : List (Event Gateway)) (executionId : Id) : Prop :=
  ∃ u seen after, .did u .select seen after ∈ trace ∧ ∃ e ∈ seen.executions,
    e.val.id = executionId ∧ (e.val.status = .planned ∨ e.val.status = .running)

/-- The error tells how the execution that has the key stands. One that was in progress when the
    call looked may have ended since. -/
def ErrorClass.TellsOf (argumentsDigest : String) (trace : List (Event Gateway))
    (e : ToolExecutionFields) : ErrorClass → Prop
  | idempotencyConflict id => id = e.id ∧ e.argumentsDigest ≠ argumentsDigest
  | idempotencyInProgress id =>
    id = e.id ∧ e.argumentsDigest = argumentsDigest ∧ FoundOpen trace id
  | idempotencyAlreadyCompleted id =>
    id = e.id ∧ e.argumentsDigest = argumentsDigest ∧ e.status = .succeeded
  | idempotencyOutcomeUnknown id =>
    id = e.id ∧ e.argumentsDigest = argumentsDigest ∧ e.status = .unknown
  | idempotencyPreviousFailed id =>
    id = e.id ∧ e.argumentsDigest = argumentsDigest ∧
      (e.status = .failed ∨ e.status = .cancelled)
  | _ => False

/-- The execution has the key of the call: it is one of the same principal and tool. -/
structure AdmittedCall.HoldsKey (call : AdmittedCall) (params : CallToolRequestParams)
    (trace : List (Event Gateway)) (e : ToolExecutionFields) : Prop where
  tenantId : e.tenantId = call.context.tenantId
  idempotencyKey : e.idempotencyKey = call.key
  keyed : call.key ≠ none
  principal : ∃ principal : InternalPrincipal, e.principalId = principal.val.id ∧
    .asked (.resolvePrincipal call.context.toActorContext) (.ok principal) ∈ trace
  tool : ∃ tool : ResolvedExecutableTool, e.toolVersionId = tool.toolVersionId ∧
    .asked (.resolveTool call.context.tenantId params.name) (.ok (some tool)) ∈ trace

/-- What an error names is in the ledger, and belongs to the call. -/
structure AdmittedCall.ToldError [Sha256] (call : AdmittedCall) (params : CallToolRequestParams)
    (trace : List (Event Gateway)) (s : Ledger) (cls : ErrorClass) : Prop where
  approval : ∀ id, cls.approvalId? = some id → ∃ a ∈ s.approvals,
    call.Requests params a.val ∧ a.val.id = id ∧
      cls = .approvalRequired (some id) (some a.val.expiresAt)
  execution : cls.existingExecutionId? ≠ none → ∃ e ∈ s.executions,
    call.HoldsKey params trace e.val ∧
      ∃ digest, canonicalJsonDigest (.obj params.givenArguments) = .ok digest ∧
        cls.TellsOf digest trace e.val

/-- The result is that of an execution in the ledger, which carries out the call. -/
def AdmittedCall.ToldResult [Sha256] (call : AdmittedCall) (params : CallToolRequestParams)
    (s : Ledger) (result : CallToolResult) : Prop :=
  ∃ e ∈ s.executions, call.Plans params e.val ∧ e.val.status = .succeeded ∧
    result.executionId = e.val.id ∧ result.attemptCount = e.val.attemptCount

/-- What a call ended with is so in the ledger. -/
def AdmittedCall.Told [Sha256] (call : AdmittedCall) (params : CallToolRequestParams)
    (trace : List (Event Gateway)) (s : Ledger) : Except Exc CallToolResult → Prop
  | .ok result => call.ToldResult params s result
  | .error (.nexus cls _) => call.ToldError params trace s cls
  | .error _ => True

section Told

variable [Sha256] {call : AdmittedCall} {params : CallToolRequestParams}
  {trace later : List (Event Gateway)} {s s' : Ledger}

theorem NamesNothing.told {e : Exc} (h : NamesNothing e) : call.Told params trace s (.error e) := by
  unfold AdmittedCall.Told
  split
  case h_1 heq => cases heq
  case h_3 => trivial
  case h_2 heq =>
    cases heq
    obtain ⟨hexecution, happroval⟩ := h _ _ rfl
    constructor
    case approval =>
      intro id hid
      rw [happroval] at hid
      cases hid
    case execution => exact fun hnamed => absurd hexecution hnamed

omit [Sha256] in
theorem FoundOpen.of_mem {executionId : Id} (h : FoundOpen trace executionId)
    (hmem : ∀ ev ∈ trace, ev ∈ later) : FoundOpen later executionId := by
  obtain ⟨u, seen, after, hev, hopen⟩ := h
  exact ⟨u, seen, after, hmem _ hev, hopen⟩

omit [Sha256] in
/-- What is told of an execution stays so: one that ended is not revised any more. -/
theorem ErrorClass.TellsOf.steps {cls : ErrorClass} {digest : String} {e : ToolExecution}
    (h : cls.TellsOf digest trace e.val) (he : e ∈ s.executions)
    (hsteps : Relation.ReflTransGen LedgerStep s s') (hmem : ∀ ev ∈ trace, ev ∈ later) :
    ∃ e' ∈ s'.executions, e'.Revises e ∧ cls.TellsOf digest later e'.val := by
  have hfound := Table.find?_of_mem he
  by_cases hrunning : e.val.status = .running
  · obtain ⟨e', hfound', hrevises⟩ := LedgerStep.revised_execution hsteps hfound
    have hid : e'.val.id = e.val.id := hrevises.id_eq
    have hdigest : e'.val.argumentsDigest = e.val.argumentsDigest :=
      (congrArg (·.val.argumentsDigest) hrevises).symm
    refine ⟨e', Table.mem_of_find? hfound', hrevises, ?_⟩
    cases cls with
    | idempotencyConflict id => exact ⟨h.1.trans hid.symm, hdigest ▸ h.2⟩
    | idempotencyInProgress id =>
      obtain ⟨hnamed, hsame, hopen⟩ := h
      exact ⟨hnamed.trans hid.symm, hdigest.trans hsame, hopen.of_mem hmem⟩
    | idempotencyAlreadyCompleted id => simp [ErrorClass.TellsOf, hrunning] at h
    | idempotencyOutcomeUnknown id => simp [ErrorClass.TellsOf, hrunning] at h
    | idempotencyPreviousFailed id => simp [ErrorClass.TellsOf, hrunning] at h
    | _ => exact h
  · have hfound' := LedgerStep.ended_execution hsteps hfound hrunning
    refine ⟨e, Table.mem_of_find? hfound', .refl e, ?_⟩
    cases cls with
    | idempotencyInProgress id =>
      obtain ⟨hnamed, hsame, hopen⟩ := h
      exact ⟨hnamed, hsame, hopen.of_mem hmem⟩
    | _ => exact h

omit [Sha256] in
theorem AdmittedCall.HoldsKey.revises {e e' : ToolExecution}
    (h : call.HoldsKey params trace e.val) (hrevises : e'.Revises e)
    (hmem : ∀ ev ∈ trace, ev ∈ later) : call.HoldsKey params later e'.val where
  tenantId := (congrArg (·.val.tenantId) hrevises).symm.trans h.tenantId
  idempotencyKey := (congrArg (·.val.idempotencyKey) hrevises).symm.trans h.idempotencyKey
  keyed := h.keyed
  principal := by
    obtain ⟨principal, hprincipal, hev⟩ := h.principal
    exact ⟨principal, (congrArg (·.val.principalId) hrevises).symm.trans hprincipal, hmem _ hev⟩
  tool := by
    obtain ⟨tool, htool, hev⟩ := h.tool
    exact ⟨tool, (congrArg (·.val.toolVersionId) hrevises).symm.trans htool, hmem _ hev⟩

omit [Sha256] in
theorem ApprovalRequest.Revises.expiresAt_eq {a b : ApprovalRequest} (h : b.Revises a) :
    b.val.expiresAt = a.val.expiresAt :=
  (congrArg (·.val.expiresAt) h).symm

theorem AdmittedCall.Requests.revises {a b : ApprovalRequest} (h : call.Requests params a.val)
    (hrevises : b.Revises a) : call.Requests params b.val := by
  rw [← show updateApprovalModel a b = b from hrevises]
  exact ⟨h.tenantId, h.argumentsDigest, h.idempotencyKey⟩

theorem AdmittedCall.Plans.revises {e e' : ToolExecution} (h : call.Plans params e.val)
    (hrevises : e'.Revises e) : call.Plans params e'.val := by
  rw [← show updateExecutionModel e e' = e' from hrevises]
  exact ⟨h.tenantId, h.requestId, h.traceId, h.argumentsDigest, h.idempotencyKey, h.approvalId,
    h.scopeType, h.toolsetId, h.toolsetRevision⟩

/-- What was told stays so, whatever happens to the ledger. -/
theorem AdmittedCall.Told.steps {r : Except Exc CallToolResult} (h : call.Told params trace s r)
    (hsteps : Relation.ReflTransGen LedgerStep s s') (hmem : ∀ ev ∈ trace, ev ∈ later) :
    call.Told params later s' r := by
  rcases r with (⟨cls, message⟩ | _) | result
  case error.nexus =>
    constructor
    case approval =>
      intro id hid
      obtain ⟨a, ha, hrequests, rfl, hcls⟩ := h.approval id hid
      obtain ⟨b, hb, hrevises⟩ := LedgerStep.revised_approval hsteps (Table.find?_of_mem ha)
      refine ⟨b, Table.mem_of_find? hb, hrequests.revises hrevises, hrevises.id_eq, ?_⟩
      rw [hcls, hrevises.expiresAt_eq]
    case execution =>
      intro hnamed
      obtain ⟨e, he, hholds, digest, hdigest, htells⟩ := h.execution hnamed
      obtain ⟨e', he', hrevises, htells'⟩ := htells.steps he hsteps hmem
      exact ⟨e', he', hholds.revises hrevises hmem, digest, hdigest, htells'⟩
  case ok =>
    obtain ⟨e, he, hplans, hstatus, hid, hcount⟩ := h
    have hfound := LedgerStep.ended_execution hsteps (Table.find?_of_mem he) (by simp [hstatus])
    exact ⟨e, Table.mem_of_find? hfound, hplans, hstatus, hid, hcount⟩
  all_goals trivial

end Told

/-! ## What a call is told -/

section Calls

variable {Fault : Exc → Prop} {l : Local Gateway} {s : Ledger}

theorem resolveCredentialBinding_told (hl : Clean l) (service : CallTool) (tenantId : Id)
    (principal : InternalPrincipal) (tool : ResolvedExecutableTool) :
    ledgerContract.safe Fault
      (fun r l' _ => Clean l' ∧ ∀ e, r = .error e → Discreet l'.trace → NamesNothing e)
      (service.resolveCredentialBinding tenantId principal tool) l s := by
  have hown : ∀ {e : Exc}, NamesNothing e → ∀ e' : Exc, (.error e : Except Exc
      (Option CredentialBinding)) = .error e' → Discreet l.trace → NamesNothing e' := by
    rintro e he _ ⟨⟩ -
    exact he
  rw [CallTool.resolveCredentialBinding]
  by_cases hscheme : CallTool.authScheme tool = "none"
  · rw [if_pos hscheme]
    exact ⟨hl, fun _ h => by cases h⟩
  · rw [if_neg hscheme]
    simp only [Prog.bind_eq, Prog.pure_eq]
    refine step_raiseIf (fun _ => ⟨hl, hown (namesNothing_nexus rfl rfl)⟩) fun _ => ?_
    refine step_ask (fun _ => trivial) fun found _ _ => step_lift (fun e he => ⟨hl, ?_⟩)
      fun binding _ => step_orRaise (fun _ => ⟨hl, ?_⟩) fun _ _ => ⟨hl, fun _ h => by cases h⟩
    · rintro _ ⟨⟩
      exact namesNothing_of_port he
    · rintro _ ⟨⟩ -
      exact namesNothing_nexus rfl rfl

variable [Sha256] {call : AdmittedCall} {params : CallToolRequestParams}
  {command : CallToolCommand} (hfault : ∀ e, Fault e → Interruption e)
  (hcommand : GatewayRequest.Commands call params command)

/-- The clearance of the call, and the answers it rests on. -/
structure AdmittedCall.Cleared (call : AdmittedCall) (params : CallToolRequestParams)
    (trace : List (Event Gateway)) (cleared : CallTool.Clearance) : Prop where
  argumentsDigest : canonicalJsonDigest (.obj params.givenArguments) = .ok cleared.argumentsDigest
  principal : .asked (.resolvePrincipal call.context.toActorContext) (.ok cleared.principal) ∈ trace
  tool : .asked (.resolveTool call.context.tenantId params.name) (.ok (some cleared.tool)) ∈ trace

/-- How the clearance ends. -/
structure AdmittedCall.ClearPost (call : AdmittedCall) (params : CallToolRequestParams)
    (r : Except Exc CallTool.Clearance) (l : Local Gateway) (s : Ledger) : Prop where
  clean : Clean l
  cleared : ∀ cleared, r = .ok cleared → call.Cleared params l.trace cleared
  told : ∀ e, r = .error e → Discreet l.trace → call.Told params l.trace s (.error e)

omit hfault hcommand in
theorem AdmittedCall.clearPost_error {e : Exc} (hl : Clean l)
    (h : Discreet l.trace → call.Told params l.trace s (.error e)) :
    call.ClearPost params (.error e) l s where
  clean := hl
  cleared _ h := by cases h
  told _ he := by
    cases he
    exact h

include hfault hcommand

/-- The approval gate names the approval it has requested. -/
theorem passPolicy_told (hl : Clean l) (service : CallTool) (principal : InternalPrincipal)
    (tool : ResolvedExecutableTool) {digest : String} (decision : PolicyDecision)
    (hdigest : canonicalJsonDigest (.obj params.givenArguments) = .ok digest) :
    ledgerContract.safe Fault
      (fun r l' s' => (Clean l' ∧ ∀ e, r = .error e → call.Told params l'.trace s' (.error e)) ∧
        ledgerContract.Extends Fault l s l' s')
      (service.passPolicy command principal tool digest decision) l s := by
  have hown : ∀ e, NamesNothing e → ∀ {l' : Local Gateway} {s' : Ledger} {r : Except Exc Unit},
      r = .error e → ∀ e', r = .error e' → call.Told params l'.trace s' (.error e') := by
    rintro e he l' s' r rfl e' ⟨⟩
    exact he.told
  -- Every way out but one is an error of the gate's own, which names nothing.
  have hNothing : ∀ e, Fault e → NamesNothing e := fun e he => (hfault e he).namesNothing
  refine safe_extends ?_
  unfold CallTool.passPolicy CallTool.deny CallTool.passApprovalGate
  split
  · refine safe_bind.2 (safe_mono (fun recorded l₁ s₁ h₁ => ?_)
      (safe_throws hNothing (recordCallDecision_throws _) (recordCallDecision_safe hl _)))
    obtain ⟨hl₁, hthrows⟩ := h₁
    cases recorded with
    | error e => exact ⟨hl₁, hown e (hthrows e rfl) rfl⟩
    | ok _ => exact ⟨hl₁, hown _ (namesNothing_nexus rfl rfl) rfl⟩
  · split
    · exact ⟨hl, fun _ h => by cases h⟩
    · exact ⟨hl, hown _ (namesNothing_nexus rfl rfl) rfl⟩
    next service' _ _ =>
    refine safe_bind.2 (safe_mono (fun requested l₁ s₁ h₁ => ?_)
      (safe_throws hNothing (requestApproval_throws _ _)
        (requestApproval_returns hl service' _)))
    obtain ⟨⟨hl₁, hreturned⟩, hthrows⟩ := h₁
    cases requested with
    | error e => exact ⟨hl₁, hown e (hthrows e rfl) rfl⟩
    | ok approval =>
      refine ⟨hl₁, ?_⟩
      rintro _ ⟨⟩
      -- The approval is committed before it is named, and may have been revised since.
      obtain ⟨⟨htenant, hdigest', hkey⟩, b, hfound, hrevises⟩ := hreturned approval rfl
      constructor
      case execution => exact fun h => absurd rfl h
      case approval =>
        rintro _ ⟨⟩
        have hrequests : call.Requests params approval.val :=
          ⟨htenant.trans (congrArg (·.context.tenantId) hcommand), hdigest' ▸ hdigest,
            hkey.trans (congrArg (·.idempotencyKey) hcommand)⟩
        refine ⟨b, Table.mem_of_find? hfound, hrequests.revises hrevises, hrevises.id_eq, ?_⟩
        rw [hrevises.expiresAt_eq]
  · exact ⟨hl, fun _ h => by cases h⟩

theorem clear_told (hl : Clean l) (service : CallTool) :
    ledgerContract.safe Fault (call.ClearPost params) (service.clear command) l s := by
  have hcontext : command.val.context = call.context.toActorContext :=
    congrArg (·.context) hcommand
  have hname : command.val.toolName = params.name := congrArg (·.toolName) hcommand
  have harguments : command.val.arguments = params.givenArguments :=
    congrArg (·.arguments) hcommand
  have hport : ∀ {l : Local Gateway} {s : Ledger} {q : Query} {a : q.Answer} {e : Exc}, Clean l →
      q.Raises a e → call.ClearPost params (.error e) (l.asked q a) s := fun hl he =>
    AdmittedCall.clearPost_error hl fun h => (namesNothing_of_port he h).told
  have hown : ∀ {l : Local Gateway} {s : Ledger} {e : Exc}, Clean l → NamesNothing e →
      call.ClearPost params (.error e) l s := fun hl he =>
    AdmittedCall.clearPost_error hl fun _ => he.told
  unfold CallTool.clear
  simp only [Prog.bind_eq, Prog.pure_eq]
  -- Principal, tool, arguments and policy are asked for in turn. A port may raise anything, so
  -- what it raised is excused by the trace alone.
  refine step_ask (fun _ => trivial) fun _ _ _ => step_lift (fun e he => hport hl he)
    fun principal hprincipal => ?_
  refine step_ask (fun _ => trivial) fun _ _ _ => step_lift (fun e he => hport hl he)
    fun found hfound => ?_
  refine step_orRaise (fun _ => hown hl (namesNothing_nexus rfl rfl)) fun tool htool => ?_
  refine step_raiseIf (fun _ => hown hl (namesNothing_nexus rfl rfl)) fun _ => ?_
  refine step_ask (fun _ => trivial) fun _ _ _ => step_lift (fun e he => hport hl he) fun _ _ => ?_
  refine step_lift (fun e he => hown hl (CallTool.nameless_requireKeyUse _ _ e he)) fun _ _ => ?_
  refine step_lift (fun e he => hown hl (nameless_canonicalJsonDigest _ e he))
    fun digest hdigest => ?_
  refine step_lift (fun e he => hown hl (nameless_construct _ e he)) fun policyInput _ => ?_
  refine step_ask (fun _ => trivial) fun _ _ _ => step_lift (fun e he => hport hl he)
    fun decision _ => ?_
  refine safe_bind.2 (safe_mono (fun passed l₁ s₁ h₁ => ?_)
    (passPolicy_told hfault hcommand (by exact hl) service principal tool decision
      (harguments ▸ hdigest)))
  obtain ⟨⟨hl₁, htold⟩, hextends⟩ := h₁
  cases passed with
  | error e => exact AdmittedCall.clearPost_error hl₁ fun _ => htold e rfl
  | ok _ =>
  refine step_ask (fun _ => trivial) fun _ _ _ => step_lift (fun e he => hport hl₁ he) fun _ _ => ?_
  refine safe_bind.2 (safe_mono (fun resolved l₂ s₂ h₂ => ?_)
    (safe_extends (resolveCredentialBinding_told (by exact hl₁) service command.val.context.tenantId
      principal tool)))
  obtain ⟨⟨hl₂, hbinding⟩, hextends'⟩ := h₂
  cases resolved with
  | error e => exact AdmittedCall.clearPost_error hl₂ fun h => (hbinding e rfl h).told
  | ok binding =>
    refine ⟨hl₂, fun cleared hcleared => ?_, fun _ h => by cases h⟩
    cases hcleared
    have hasked : ∀ ev ∈ l₁.trace, ev ∈ l₂.trace := fun ev hev =>
      hextends'.mem (List.mem_cons_of_mem _ hev)
    refine ⟨harguments ▸ hdigest, hasked _ (hextends.mem ?_), hasked _ (hextends.mem ?_)⟩
    · rw [← hcontext, ← hprincipal]
      simp [Local.asked]
    · rw [← htool, ← hfound]
      simp [Local.asked, hcontext, hname]

omit hfault hcommand in
/-- The error for a taken key tells how its execution stands. -/
theorem told_reuse {seen after : Ledger} {u : UnitOfWork} {existing : ToolExecution}
    {digest : String} (hselect : .did u .select seen after ∈ l.trace) (hexisting : existing ∈ seen.executions) (hholds : call.HoldsKey params l.trace existing.val)
    (hdigest : canonicalJsonDigest (.obj params.givenArguments) = .ok digest)
    (hsteps : Relation.ReflTransGen LedgerStep seen s) :
    call.Told params l.trace s (.error (idempotencyReuse existing digest)) := by
  obtain ⟨cls, message, heq, happroval, htells⟩ : ∃ cls message, idempotencyReuse existing digest =
      .nexus cls message ∧ cls.approvalId? = none ∧
        cls.TellsOf digest l.trace existing.val := by
    have hopen : existing.val.status = .planned ∨ existing.val.status = .running →
        FoundOpen l.trace existing.val.id :=
      fun hstatus => ⟨u, seen, after, hselect, existing, hexisting, rfl, hstatus⟩
    -- The source compares the digests before it looks at the status.
    by_cases hsame : existing.val.argumentsDigest = digest
    case neg => exact ⟨_, _, if_pos hsame, rfl, rfl, hsame⟩
    case pos =>
      rw [idempotencyReuse_of_same hsame]
      cases hstatus : existing.val.status with
      | planned => exact ⟨_, _, rfl, rfl, rfl, hsame, hopen (.inl hstatus)⟩
      | running => exact ⟨_, _, rfl, rfl, rfl, hsame, hopen (.inr hstatus)⟩
      | succeeded => exact ⟨_, _, rfl, rfl, rfl, hsame, hstatus⟩
      | unknown => exact ⟨_, _, rfl, rfl, rfl, hsame, hstatus⟩
      | failed => exact ⟨_, _, rfl, rfl, rfl, hsame, .inl hstatus⟩
      | cancelled => exact ⟨_, _, rfl, rfl, rfl, hsame, .inr hstatus⟩
  rw [heq]
  constructor
  case approval =>
    intro id hid
    rw [happroval] at hid
    cases hid
  case execution =>
    intro _
    obtain ⟨e, he, hrevises, htells'⟩ := htells.steps hexisting hsteps fun _ hev => hev
    exact ⟨e, he, hholds.revises hrevises fun _ hev => hev, digest, hdigest, htells'⟩

omit [Sha256] hfault hcommand in
/-- What is claimed by the scope of the call has its key. -/
theorem holdsKey_of_scope {trace : List (Event Gateway)} {e : ToolExecutionFields} {key : String}
    {principal : InternalPrincipal} {tool : ResolvedExecutableTool} (hcall : call.key = some key)
    (hscope : e.idempotencyScope =
      some ⟨call.context.tenantId, principal.val.id, tool.toolVersionId, key⟩)
    (hprincipal : .asked (.resolvePrincipal call.context.toActorContext) (.ok principal) ∈ trace)
    (htool : .asked (.resolveTool call.context.tenantId params.name) (.ok (some tool)) ∈ trace) :
    call.HoldsKey params trace e := by
  obtain ⟨own, hown, hscope⟩ := Option.map_eq_some_iff.1 hscope
  obtain ⟨htenant, hprincipalId, hversion, rfl⟩ := IdempotencyScope.mk.inj hscope
  constructor
  case tenantId => exact htenant
  case idempotencyKey => exact hown.trans hcall.symm
  case keyed => simp [hcall]
  case principal => exact ⟨principal, hprincipalId, hprincipal⟩
  case tool => exact ⟨tool, hversion, htool⟩

/-- A plan that is refused names an execution only if that one has the key. -/
theorem plan_told (hl : Clean l) {cleared : CallTool.Clearance}
    (hcleared : call.Cleared params l.trace cleared) :
    ledgerContract.safe Fault (fun r l' s' => Clean l' ∧
        (∀ e, r = .ok e → Recorded e s' ∧ ∃ t id, e.val =
          { plannedFields (CallTool.planCommand command cleared) t id with
            status := .running, startedAt := some t }) ∧
        ∀ x, r = .error x → call.Told params l'.trace s' (.error x))
      (plan (CallTool.planCommand command cleared)) l s := by
  refine safe_mono ?_ (safe_extends (plan_safe hfault hl _))
  rintro r l' s' ⟨⟨hclean, new, htrace, hend, hrecorded⟩, hextends⟩
  obtain ⟨new', htrace', hprecedes⟩ := hextends.trace
  -- Both lemmas tell of the same new events: how the plan ended, and that they are past.
  obtain rfl : new' = new := List.append_cancel_right (htrace'.symm.trans htrace)
  refine ⟨hclean, fun e he => ⟨hrecorded e he, ?_⟩, ?_⟩
  · subst he
    cases hend with
    | closed h =>
    cases h with
    | planned _ _ h =>
    cases h with
    | intro hfields => exact ⟨_, _, hfields⟩
  rintro x rfl
  have hcut : ∀ {u : UnitOfWork} {op : Op Gateway}, .cut u op x ∈ new' →
      call.Told params l'.trace s' (.error x) := fun h =>
    (hfault x (hprecedes _ h)).namesNothing.told
  cases hend with
  | unclosed hnew => exact hcut (hnew ▸ List.mem_cons_self)
  | closed h =>
  cases h with
  | interrupted _ h => exact hcut h
  | lapsed => exact (namesNothing_nexus rfl rfl).told
  | refused _ h =>
  cases h with
  | invalid => exact namesNothing_valueError.told
  | race => exact (namesNothing_nexus rfl rfl).told
  | generated _ hgenerated =>
    cases hgenerated with
    | blank => exact namesNothing_valueError.told
    | execution => exact namesNothing_integrityError.told
    | audit => exact namesNothing_integrityError.told
  | approval _ _ _ hrefusal => cases hrefusal <;> exact (namesNothing_nexus rfl rfl).told
  -- The execution was found in a store that the plan saw, and is revised from there.
  | @reuse seen scope existing hlookup hscope hfound =>
    obtain ⟨u, after, hselect⟩ := exists_of_firstSelect hlookup
    have hsteps : Relation.ReflTransGen LedgerStep seen s' := hprecedes _ hselect
    have hkeyed : existing.val.idempotencyScope = some scope := by
      simpa using List.find?_some hfound
    obtain ⟨key, hkey, rfl⟩ := Option.map_eq_some_iff.1 hscope
    have hcall : call.key = some key := (congrArg (·.idempotencyKey) hcommand).symm.trans hkey
    have htenant : command.val.context.tenantId = call.context.tenantId :=
      congrArg (·.context.tenantId) hcommand
    have hseen : .did u .select seen after ∈ l'.trace :=
      htrace ▸ List.mem_append_left _ hselect
    refine told_reuse hseen (List.mem_of_find?_eq_some hfound) ?_ hcleared.argumentsDigest hsteps
    exact holdsKey_of_scope hcall (htenant ▸ hkeyed) (hextends.mem hcleared.principal)
      (hextends.mem hcleared.tool)

omit [Sha256] hcommand in
/-- The failed execution is recorded, and the error of the provider stays what it was. -/
theorem failCredential_told {α : Type} (hl : Clean l) (tenantId executionId : Id) {x : Exc}
    (hx : Discreet l.trace → NamesNothing x) :
    ledgerContract.safe Fault
      (fun r l' _ => Clean l' ∧ ∀ e, r = .error e → Discreet l'.trace → NamesNothing e)
      (CallTool.failCredential tenantId executionId x : Program α) l s := by
  have hfail : ∀ (code : String) (error : Exc), (Discreet l.trace → NamesNothing error) →
      ledgerContract.safe Fault
        (fun r l' _ => Clean l' ∧ ∀ e, r = .error e → Discreet l'.trace → NamesNothing e)
        ((fail tenantId executionId code .credential).bind fun _ => .raise error : Program α)
        l s := by
    intro code error herror
    refine safe_bind.2 (safe_mono (fun finished l₁ s₁ h₁ => ?_) (safe_extends
      (safe_throws (fun e he => (hfault e he).namesNothing) (finish_throws _ _ _)
        (finish_safe hl _ _ _))))
    obtain ⟨⟨hl₁, hthrows⟩, hextends⟩ := h₁
    cases finished with
    | error e =>
      refine ⟨hl₁, ?_⟩
      rintro _ ⟨⟩ -
      exact hthrows e rfl
    | ok _ =>
      refine ⟨hl₁, ?_⟩
      rintro _ ⟨⟩ hdiscreet
      exact herror (hdiscreet.of_mem fun _ hev => hextends.mem hev)
  rw [CallTool.failCredential.eq_def]
  split
  · refine ⟨hl, ?_⟩
    rintro _ ⟨⟩
    exact hx
  · exact hfail _ _ hx
  · exact hfail _ _ fun _ => namesNothing_nexus rfl rfl

omit [Sha256] hcommand in
theorem resolveSecret_told (hl : Clean l) (service : CallTool)
    (binding : Option CredentialBinding) (tenantId executionId : Id) :
    ledgerContract.safe Fault
      (fun r l' _ => Clean l' ∧ ∀ e, r = .error e → Discreet l'.trace → NamesNothing e)
      ((service.resolveSecret binding).tryCatch (CallTool.failCredential tenantId executionId))
      l s := by
  have hsecret : ledgerContract.safe Fault
      (fun r l' _ => Clean l' ∧ ∀ e, r = .error e → Discreet l'.trace → NamesNothing e)
      (service.resolveSecret binding) l s := by
    unfold CallTool.resolveSecret
    split
    · exact ⟨hl, fun _ h => by cases h⟩
    · refine step_raiseIf (fun _ => ⟨hl, ?_⟩) fun _ => step_ask (fun _ => trivial) fun _ _ _ => ?_
      · rintro _ ⟨⟩ -
        exact namesNothing_nexus rfl rfl
      · refine step_lift (fun e he => ⟨hl, ?_⟩) fun _ _ => ⟨hl, fun _ h => by cases h⟩
        rintro _ ⟨⟩
        exact namesNothing_of_port he
  refine safe_tryCatch.2 (safe_mono (fun secret l₁ s₁ h₁ => ?_) hsecret)
  cases secret with
  | ok credential => exact h₁
  | error x => exact failCredential_told hfault h₁.1 _ _ (h₁.2 x rfl)

/-- The result of a delivery is that of the execution it was for. -/
theorem deliver_told (hl : Clean l) {service : CallTool} (hwired : Wired service.executor)
    {cleared : CallTool.Clearance} {e : ToolExecution} {t : Time} {id : Id}
    (hfields : e.val = { plannedFields (CallTool.planCommand command cleared) t id with
      status := .running, startedAt := some t })
    (hdigest : canonicalJsonDigest (.obj params.givenArguments) = .ok cleared.argumentsDigest)
    (hrecorded : Recorded e s) :
    ledgerContract.safe Fault (fun r l' s' => Clean l' ∧
        (Discreet l'.trace → call.Told params l'.trace s' r)) (service.deliver command cleared e)
      l s := by
  have hNothing : ∀ e, Fault e → NamesNothing e := fun e he => (hfault e he).namesNothing
  rw [CallTool.deliver]
  simp only [Prog.bind_eq, Prog.pure_eq]
  refine safe_bind.2 (safe_mono (fun secret l₁ s₁ h₁ => ?_) (safe_history .refl
    (resolveSecret_told hfault hl service cleared.credentialBinding _ _)))
  obtain ⟨⟨hl₁, hsecret⟩, hsteps₁⟩ := h₁
  cases secret with
  | error x => exact ⟨hl₁, fun h => (hsecret x rfl h).told⟩
  | ok credential =>
  -- The executor may fail with what it likes: the handler turns that into an error of its own.
  have hexecutor : ledgerContract.safe Fault (fun _ l' _ => Clean l')
      ((service.callExecutor command cleared.tool e.val.id credential).tryCatch
        (CallTool.failExecution command.val.context.tenantId e.val.id)) l₁ s₁ := by
    refine safe_tryCatch.2 (safe_mono (fun result l₂ s₂ h₂ => ?_)
      (callExecutor_safe hwired hfields hl₁ (hrecorded.steps hsteps₁)))
    cases result with
    | error x => exact failExecution_safe h₂ _ _ x
    | ok result => exact h₂
  refine safe_bind.2 (safe_mono (fun result l₂ s₂ h₂ => ?_) (safe_history hsteps₁
    (safe_throws hNothing (Prog.throws_tryCatch (failExecution_throws _ _)) hexecutor)))
  obtain ⟨⟨hl₂, hthrows⟩, hsteps₂⟩ := h₂
  cases result with
  | error x => exact ⟨hl₂, fun _ => (hthrows x rfl).told⟩
  | ok result =>
  refine safe_bind.2 (safe_mono (fun finished l₃ s₃ h₃ => ?_) (safe_history hsteps₂
    (safe_throws hNothing (finish_throws _ _ _) (finish_returns hl₂ _ _ _))))
  obtain ⟨⟨⟨hl₃, hreturned⟩, hthrows⟩, hsteps₃⟩ := h₃
  cases finished with
  | error x => exact ⟨hl₃, fun _ => (hthrows x rfl).told⟩
  | ok terminal =>
    obtain ⟨hfound, running, t', htransition⟩ := hreturned terminal rfl
    obtain ⟨e', hfound', hrevises⟩ := hrecorded.steps hsteps₃
    -- The returned execution is the planned one, since its key is.
    obtain rfl : terminal = e' := Option.some.inj (hfound.symm.trans hfound')
    have hplans := GatewayRequest.plans_of_fields hcommand hdigest hfields
    have hstatus : terminal.val.status = .succeeded := by
      rw [(ToolExecution.succeed_eq_ok.1 htransition).2]
    exact ⟨hl₃, fun _ => ⟨terminal, Table.mem_of_find? hfound, hplans.revises hrevises, hstatus,
      hrevises.id_eq.symm, rfl⟩⟩

/-- What a call ends with is so in the ledger. -/
theorem callTool_told (hl : Clean l) {service : CallTool} (hwired : Wired service.executor) :
    ledgerContract.safe Fault (fun r l' s' => Clean l' ∧
        (Discreet l'.trace → call.Told params l'.trace s' r)) (service.execute command) l s := by
  rw [CallTool.execute]
  simp only [Prog.bind_eq]
  refine safe_bind.2 (safe_mono (fun cleared l₁ s₁ h₁ => ?_)
    (clear_told hfault hcommand hl service))
  cases cleared with
  | error x => exact ⟨h₁.clean, h₁.told x rfl⟩
  | ok cleared =>
  have hcleared := h₁.cleared cleared rfl
  refine safe_bind.2 (safe_mono (fun planned l₂ s₂ h₂ => ?_)
    (plan_told hfault hcommand h₁.clean hcleared))
  obtain ⟨hl₂, hplanned, htold⟩ := h₂
  cases planned with
  | error x => exact ⟨hl₂, fun _ => htold x rfl⟩
  | ok e =>
    obtain ⟨hrecorded, t, id, hfields⟩ := hplanned e rfl
    exact deliver_told hfault hcommand hl₂ hwired hfields hcleared.argumentsDigest hrecorded

end Calls

/-! ## What a client is answered -/

/-- Neither the access nor the search of the server names a row of the ledger. -/
structure McpServer.Discreet (server : McpServer) : Prop where
  context : ∀ ctx, Nameless (server.contextResolver ctx)
  access : ∀ resolver ∈ server.resolveToolsetAccess, ∀ context scope,
    Nameless (resolver context scope)
  search : ∀ search ∈ server.searchTools, ∀ query, Nameless (search query)

/-- What an answer to the request tells is so in the ledger, and belongs to the request. An
    error has the text of its class. -/
inductive GatewayRequest.Backs [Sha256] (request : GatewayRequest) (trace : List (Event Gateway))
    (s : Ledger) : CallAnswer → Prop where
  | result {admitted params result} (hadmits : request.Admits admitted params)
      (htold : admitted.ToldResult params s result) :
      Backs request trace s (.result (callResult result admitted.context))
  | inputRequired {admitted params} {a : ApprovalRequest} (hadmits : request.Admits admitted params)
      (hera : admitted.context.protocolEra = .modern) (ha : a ∈ s.approvals)
      (hrequests : admitted.Requests params a.val) :
      Backs request trace s
        (.inputRequired (approvalInputRequired params.name a.val.id (some a.val.expiresAt)))
  | reuse {admitted params digest} {cls : ErrorClass} {e : ToolExecution}
      (hadmits : request.Admits admitted params) (he : e ∈ s.executions)
      (hholds : admitted.HoldsKey params trace e.val)
      (hdigest : canonicalJsonDigest (.obj params.givenArguments) = .ok digest)
      (htells : cls.TellsOf digest trace e.val) :
      Backs request trace s (.result (toCallToolError cls.safe))
  | error {error : SafeError} (hsafe : error = .base ∨ ∃ cls : ErrorClass, error = cls.safe)
      (hnone : error.existingExecutionId = none) :
      Backs request trace s (.result (toCallToolError error))
  | search (answer : SearchAnswer) : Backs request trace s (.search answer)

/-- What the end of a call answers, if it answers. -/
def ObservedAnswer.Answers (r : Except Exc (ObservedAnswer CallAnswer)) (answer : CallAnswer) :
    Prop :=
  ∃ served, r = .ok served ∧ served.answer = .ok answer

section Servers

variable [Sha256] {request : GatewayRequest} {context : RequestContext}
  {params : CallToolRequestParams} {trace : List (Event Gateway)} {s : Ledger}

/-- What the attempt of a call ended with is told, or names nothing. -/
def GatewayRequest.CallTold (request : GatewayRequest) (context : RequestContext)
    (params : CallToolRequestParams) (trace : List (Event Gateway)) (s : Ledger)
    (r : Except Exc CallToolResult) : Prop :=
  (∃ e, r = .error e ∧ NamesNothing e) ∨ ∃ admitted : AdmittedCall,
    request.Admits admitted params ∧ admitted.context = context ∧ admitted.Told params trace s r

theorem backs_of_nameless {e : Exc} {cls : ErrorClass} {message : String}
    (h : NamesNothing e) (he : e = .nexus cls message) :
    request.Backs trace s (.result (toCallToolError cls.safe)) :=
  .error (.inr ⟨cls, rfl⟩) (h cls message he).1

theorem GatewayRequest.CallTold.backs {cls : ErrorClass} {message : String}
    (h : request.CallTold context params trace s (.error (.nexus cls message))) :
    request.Backs trace s (.result (toCallToolError cls.safe)) := by
  rcases h with ⟨e, he, hnothing⟩ | ⟨admitted, hadmits, -, htold⟩
  · cases he
    exact backs_of_nameless hnothing rfl
  · by_cases hnone : cls.existingExecutionId? = none
    · exact .error (.inr ⟨cls, rfl⟩) hnone
    · obtain ⟨e, he, hholds, digest, hdigest, htells⟩ := htold.execution hnone
      exact .reuse hadmits he hholds hdigest htells

variable {Fault : Exc → Prop} {l : Local Gateway} {self : McpServer} {scope : McpEndpointScope}
  {access : Option ResolvedToolsetAccess}

/-- The end of a request: no session is open, and the answer is backed. -/
def GatewayRequest.ServedPost (request : GatewayRequest)
    (r : Except Exc (ObservedAnswer CallAnswer)) (l : Local Gateway) (s : Ledger) : Prop :=
  Clean l ∧ (Discreet l.trace → ∀ answer, ObservedAnswer.Answers r answer →
    request.Backs l.trace s answer)

theorem servedPost_ok {served : ObservedAnswer CallAnswer} (hl : Clean l)
    (h : Discreet l.trace → ∀ answer, served.answer = .ok answer →
      request.Backs l.trace s answer) : request.ServedPost (.ok served) l s := by
  refine ⟨hl, fun hdiscreet answer hanswers => ?_⟩
  obtain ⟨_, ⟨⟩, hanswer⟩ := hanswers
  exact h hdiscreet answer hanswer

theorem servedPost_unfinished (hl : Clean l) (e : Exc) {mode : Option ToolRetrievalMode} :
    request.ServedPost (.ok (McpServer.unfinished e mode)) l s :=
  servedPost_ok hl fun _ _ h => by cases h

theorem servedPost_error {served : ObservedAnswer CallAnswer} {error : SafeError} (hl : Clean l)
    (hserved : served.answer = .ok (.result (toCallToolError error)))
    (hsafe : error = .base ∨ ∃ cls : ErrorClass, error = cls.safe)
    (hnone : error.existingExecutionId = none) : request.ServedPost (.ok served) l s := by
  refine servedPost_ok hl fun _ answer hanswer => ?_
  rw [hserved] at hanswer
  cases hanswer
  exact .error hsafe hnone

theorem reject_told (hl : Clean l) {cls : ErrorClass} {mode : Option ToolRetrievalMode}
    (h : ∀ later s', (∀ ev ∈ l.trace, ev ∈ later) → Relation.ReflTransGen LedgerStep s s' →
      Discreet later → request.Backs later s' (.result (toCallToolError cls.safe))) :
    ledgerContract.safe Fault request.ServedPost
      (self.reject context scope access params cls mode) l s := by
  unfold McpServer.reject
  refine safe_bind.2 (safe_attempt.2 (safe_mono (fun audited l₁ s₁ h₁ => ?_)
    (safe_extends (self.recordScopeDenial_safe hl context scope access params cls))))
  obtain ⟨hl₁, hextends⟩ := h₁
  refine servedPost_ok hl₁ fun hdiscreet answer hanswer => ?_
  cases audited with
  | error e => cases hanswer
  | ok _ =>
    cases hanswer
    exact h _ _ (fun _ hev => hextends.mem hev) hextends.steps hdiscreet

omit [Sha256] in
theorem nameless_idempotencyKey : Nameless (McpServer.idempotencyKey params) := by
  unfold McpServer.idempotencyKey
  split
  · exact nameless_ok _
  · exact nameless_ok _
  · split
    · exact nameless_ok _
    · rintro _ ⟨⟩
      exact namesNothing_nexus rfl rfl
  · rintro _ ⟨⟩
    exact namesNothing_nexus rfl rfl

omit [Sha256] in
theorem nameless_requireInScope (name : String) :
    Nameless (McpServer.requireInScope access name) := by
  unfold McpServer.requireInScope
  split
  · exact nameless_ok _
  · unfold ResolvedToolsetAccess.requireBusinessTool
    split_ifs
    · exact nameless_ok _
    all_goals
      rintro _ ⟨⟩
      exact namesNothing_nexus rfl rfl

omit [Sha256] in
theorem nameless_accessFor (hself : self.Discreet) : Nameless (self.accessFor context scope) := by
  unfold McpServer.accessFor
  split
  · exact nameless_ok _
  next resolver hresolver =>
  intro e he
  cases hresult : resolver context scope with
  | ok own =>
    rw [hresult] at he
    cases he
  | error own =>
    rw [hresult] at he
    cases he
    exact hself.access resolver hresolver _ _ _ hresult

omit [Sha256] in
theorem nameless_approvalDecision : Nameless (self.approvalDecision context params) := by
  unfold McpServer.approvalDecision
  split
  · exact nameless_ok _
  · rintro _ ⟨⟩
    exact namesNothing_nexus rfl rfl
  · refine (nameless_raiseIf (namesNothing_nexus rfl rfl)).bind fun _ => ?_
    refine (nameless_raiseIf (namesNothing_nexus rfl rfl)).bind fun _ => ?_
    split
    · exact (nameless_raiseIf (namesNothing_nexus rfl rfl)).bind fun _ => nameless_ok _
    · exact nameless_ok _
    · rintro _ ⟨⟩
      exact namesNothing_nexus rfl rfl

/-- The attempt of a call: it is admitted, unless it fails with an error that names nothing. -/
theorem tryCall_told (hfault : ∀ e, Fault e → Interruption e) (hl : Clean l) {service : CallTool}
    (hwired : Wired service.executor)
    (hadmits : ∀ key, McpServer.requireInScope access params.name = .ok () →
      McpServer.idempotencyKey params = .ok key →
      request.Admits ⟨context, scope, access, key⟩ params) :
    ledgerContract.safe Fault (fun r l' s' => Clean l' ∧
        (Discreet l'.trace → request.CallTold context params l'.trace s' r))
      (self.tryCall service context access params) l s := by
  have hown : ∀ {l : Local Gateway} {s : Ledger} {e : Exc}, Clean l → NamesNothing e →
      Clean l ∧ (Discreet l.trace → request.CallTold context params l.trace s (.error e)) :=
    fun hl he => ⟨hl, fun _ => .inl ⟨_, rfl, he⟩⟩
  unfold McpServer.tryCall McpServer.resolveInteractiveApproval
  simp only [Prog.bind_eq, Prog.pure_eq, Prog.bind_assoc]
  refine step_lift (fun e he => hown hl (nameless_requireInScope _ e he)) fun _ hinScope => ?_
  refine step_lift (fun e he => hown hl (nameless_approvalDecision e he)) fun decision _ => ?_
  -- What follows the decision is the same whether there was one or not.
  have hcall : ∀ {l : Local Gateway} {s : Ledger}, Clean l →
      ledgerContract.safe Fault (fun r l' s' => Clean l' ∧
          (Discreet l'.trace → request.CallTold context params l'.trace s' r))
        ((Prog.lift (McpServer.idempotencyKey params)).bind fun key =>
          (Prog.lift (construct (McpServer.commandFields context access params key))).bind
            fun command => service.execute command) l s := by
    intro l s hl
    refine step_lift (fun e he => hown hl (nameless_idempotencyKey e he)) fun key hkey => ?_
    refine step_lift (fun e he => hown hl (nameless_construct _ e he)) fun command hcommand => ?_
    rw [construct_eq_ok] at hcommand
    have hcommands : GatewayRequest.Commands ⟨context, scope, access, key⟩ params command :=
      hcommand
    refine safe_mono (fun r l' s' h => ⟨h.1, fun hdiscreet => .inr ?_⟩)
      (callTool_told hfault hcommands hl hwired)
    exact ⟨_, hadmits key hinScope hkey, rfl, h.2 hdiscreet⟩
  cases decision with
  | none => exact hcall hl
  | some decision =>
    refine safe_bind.2 (safe_bind.2 (safe_mono (fun decided l₁ s₁ h₁ => ?_)
      (safe_throws (fun e he => (hfault e he).namesNothing) (decideApproval_throws decision)
        (decideApproval_safe hl decision))))
    cases decided with
    | error e => exact hown h₁.1 (h₁.2 e rfl)
    | ok _ => exact hcall h₁.1

/-- What was told stays so while the denial is recorded. -/
theorem answerCall_told (hl : Clean l) {outcome : Except Exc CallToolResult}
    (h : Discreet l.trace → request.CallTold context params l.trace s outcome) :
    ledgerContract.safe Fault request.ServedPost
      (self.answerCall context scope access params outcome) l s := by
  unfold McpServer.answerCall
  split
  case h_1 result =>
    refine servedPost_ok hl fun hdiscreet answer hanswer => ?_
    cases hanswer
    rcases h hdiscreet with ⟨e, he, -⟩ | ⟨admitted, hadmits, rfl, htold⟩
    · cases he
    · exact .result hadmits htold
  case h_2 approvalId expiresAt message =>
    split
    case h_1 approvalId hera =>
      refine servedPost_ok hl fun hdiscreet answer hanswer => ?_
      cases hanswer
      rcases h hdiscreet with ⟨e, he, hnothing⟩ | ⟨admitted, hadmits, rfl, htold⟩
      · cases he
        cases (hnothing _ _ rfl).2
      · obtain ⟨a, ha, hrequests, rfl, hcls⟩ := htold.approval approvalId rfl
        cases hcls
        exact .inputRequired hadmits hera ha hrequests
    case h_2 => exact servedPost_error hl rfl (.inr ⟨_, rfl⟩) rfl
  case h_3 cls message _ =>
    -- The denial is written after the call has ended, so the ledger has moved on.
    refine reject_told hl fun later s' hmem hsteps hdiscreet => ?_
    rcases h (hdiscreet.of_mem hmem) with ⟨e, he, hnothing⟩ | ⟨admitted, hadmits, hcontext, htold⟩
    · cases he
      exact backs_of_nameless hnothing rfl
    · exact GatewayRequest.CallTold.backs
        (.inr ⟨admitted, hadmits, hcontext, htold.steps hsteps hmem⟩)
  case h_4 => exact servedPost_unfinished hl _
  case h_5 => exact servedPost_error hl rfl (.inl rfl) rfl

omit [Sha256] in
theorem nameless_parseSearchToolsQuery (actor : ActorContext) (arguments : JsonObject) :
    Nameless (parseSearchToolsQuery actor arguments) := by
  intro e he
  obtain ⟨message, rfl⟩ := onlyInvalid_parseSearchToolsQuery actor arguments e he
  exact namesNothing_nexus rfl rfl

omit [Sha256] in
theorem nameless_trySearch (hself : self.Discreet)
    {search : SearchToolsQuery → Except Exc SearchToolsResult}
    (hsearch : search ∈ self.searchTools) :
    Nameless (self.trySearch search context access params).2 := by
  have hquery : Nameless (self.searchQuery context access params) :=
    (nameless_raiseIf (namesNothing_nexus rfl rfl)).bind fun _ =>
      (nameless_parseSearchToolsQuery _ _).bind fun _ => nameless_ok _
  unfold McpServer.trySearch
  split
  next e he =>
    rintro _ ⟨⟩
    exact hquery e he
  next query _ =>
    intro e he
    cases hresult : search query with
    | ok result =>
      rw [hresult] at he
      cases he
    | error e' =>
      rw [hresult] at he
      cases he
      exact hself.search search hsearch query _ hresult

theorem serveSearch_told (hself : self.Discreet) (hl : Clean l) :
    ledgerContract.safe Fault request.ServedPost (self.serveSearch context scope access params)
      l s := by
  unfold McpServer.serveSearch
  split
  · exact servedPost_error hl rfl (.inl rfl) rfl
  next search hsearch =>
  have hnameless : Nameless (self.trySearch search context access params).2 :=
    nameless_trySearch hself hsearch
  generalize self.trySearch search context access params = tried at *
  split
  · refine servedPost_ok hl fun _ answer hanswer => ?_
    cases hanswer
    exact .search _
  next mode cls message =>
    refine reject_told hl fun later s' _ _ _ => ?_
    exact backs_of_nameless (hnameless (.nexus cls message) rfl) rfl
  · exact servedPost_unfinished hl _
  · exact servedPost_error hl rfl (.inl rfl) rfl

/-- Every answer of the server is backed. -/
theorem onCallTool_told (hfault : ∀ e, Fault e → Interruption e) (hl : Clean l)
    (hself : self.Discreet) (wired : ∀ service ∈ self.callTool, Wired service.executor)
    (ctx : RawServerContext) :
    ledgerContract.safe Fault (GatewayRequest.call self wired ctx params).ServedPost
      (self.onCallTool ctx params) l s := by
  unfold McpServer.onCallTool
  split
  next cls message hcontext =>
    exact servedPost_error hl rfl (.inr ⟨cls, rfl⟩) (hself.context ctx _ hcontext cls _ rfl).1
  · exact servedPost_unfinished hl _
  next own hown =>
  -- the observation changes nothing in the answer
  refine safe_bind.2 (safe_mono (fun served l₁ s₁ h₁ => ?_) (?_ : ledgerContract.safe Fault
    (GatewayRequest.call self wired ctx params).ServedPost
    (self.serve ctx (own.observed ctx) params) l s))
  · cases served with
    | error e =>
      refine ⟨h₁.1, fun _ answer hanswers => ?_⟩
      obtain ⟨_, h, -⟩ := hanswers
      cases h
    | ok served =>
      refine servedPost_ok h₁.1 fun hdiscreet answer hanswer => ?_
      exact h₁.2 hdiscreet answer ⟨served, rfl, hanswer⟩
  unfold McpServer.serve
  split
  · exact servedPost_unfinished hl _
  next scope hscope =>
  split
  next cls message haccess =>
    refine reject_told hl fun later s' _ _ _ => ?_
    exact backs_of_nameless (nameless_accessFor hself _ haccess) rfl
  · exact servedPost_unfinished hl _
  next access haccess =>
  split
  · exact serveSearch_told hself hl
  next hbusiness =>
  unfold McpServer.serveCall
  split
  · exact servedPost_error hl rfl (.inl rfl) rfl
  next service hservice =>
  have hadmits : ∀ key, McpServer.requireInScope access params.name = .ok () →
      McpServer.idempotencyKey params = .ok key →
      (GatewayRequest.call self wired ctx params).Admits ⟨own.observed ctx, scope, access, key⟩
        params := fun key hinScope hkey =>
    ⟨rfl, ⟨own, hown, rfl⟩, hscope, haccess, hbusiness, hinScope, hkey⟩
  exact safe_bind.2 (safe_attempt.2 (safe_mono (fun outcome l₂ s₂ h₂ => answerCall_told h₂.1 h₂.2)
    (tryCall_told hfault hl (wired service hservice) hadmits)))

end Servers

/-! ## Every run -/

namespace GatewayRequest

/-- The server of a call names no row of the ledger by itself. -/
def Discreet : GatewayRequest → Prop
  | call server _ _ _ => server.Discreet
  | decide _ => True

/-- The request ended with the answer. -/
def Answers : (request : GatewayRequest) → Except Exc request.Result → CallAnswer → Prop
  | call _ _ _ _, r, answer => ObservedAnswer.Answers r answer
  | decide _, _, _ => False

variable [Sha256]

def Post (request : GatewayRequest) (r : Except Exc request.Result) (l : Local Gateway)
    (s : Ledger) : Prop :=
  Clean l ∧ (request.Discreet → NexusMcp.Discreet l.trace → ∀ answer, request.Answers r answer →
    request.Backs l.trace s answer)

theorem told (request : GatewayRequest) (s : Ledger) :
    ledgerContract.safe Interruption request.Post request.program .start s := by
  by_cases hdiscreet : request.Discreet
  case neg =>
    exact safe_mono (fun _ _ _ h => ⟨h, fun hrequest => absurd hrequest hdiscreet⟩)
      (request.safe s)
  case pos =>
    cases request with
    | call server wired ctx params =>
      exact safe_mono (fun _ _ _ h => ⟨h.1, fun _ => h.2⟩)
        (onCallTool_told (fun _ h => h) clean_start hdiscreet wired ctx)
    | decide command =>
      exact safe_mono (fun _ _ _ h => ⟨h, fun _ _ _ hanswer => hanswer.elim⟩)
        ((decide command).safe s)

/-- What is backed stays so. -/
theorem Backs.steps {request : GatewayRequest} {trace : List (Event Gateway)} {s s' : Ledger}
    {answer : CallAnswer} (h : request.Backs trace s answer)
    (hsteps : Relation.ReflTransGen LedgerStep s s') : request.Backs trace s' answer := by
  cases h with
  | @result admitted params result hadmits htold =>
    have htold' : admitted.Told params trace s (.ok result) := htold
    exact .result hadmits (htold'.steps hsteps fun _ hev => hev)
  | inputRequired hadmits hera ha hrequests =>
    obtain ⟨b, hb, hrevises⟩ := LedgerStep.revised_approval hsteps (Table.find?_of_mem ha)
    have hb := Table.mem_of_find? hb
    rw [← hrevises.id_eq, ← hrevises.expiresAt_eq]
    exact .inputRequired hadmits hera hb (hrequests.revises hrevises)
  | reuse hadmits he hholds hdigest htells =>
    obtain ⟨e', he', hrevises, htells'⟩ := htells.steps he hsteps fun _ hev => hev
    exact .reuse hadmits he' (hholds.revises hrevises fun _ hev => hev) hdigest htells'
  | error hsafe hnone => exact .error hsafe hnone
  | search answer => exact .search answer

end GatewayRequest

section Runs

variable [Sha256] {Pid : Type} {requests : Pid → GatewayRequest}
  {w : World Gateway Pid (fun p => (requests p).Result)}

/-- In every interleaving, what a finished call was answered is so in the ledger, now and from
    then on: a result is that of an execution that carries out the call and succeeded, an input
    is required for an approval that was requested for the call, and the execution that an
    error names has the key of the call. -/
theorem answers_backed (h : Served requests w) {p : Pid} (hrequest : (requests p).Discreet)
    (hports : ∀ q a, (p, .asked q a) ∈ w.log → ∀ e, q.Raises a e → NamesNothing e)
    {r : Except Exc (requests p).Result} (hend : (w.procs p).prog = Prog.lift r)
    {answer : CallAnswer} (hanswer : (requests p).Answers r answer) :
    (requests p).Backs (w.procs p).loc.trace w.store answer := by
  have hgood : ledgerContract.Good Interruption (fun p => (requests p).Post) w :=
    good_of_reaches (good_start LedgerInv.empty fun p => (requests p).told _) h
  obtain ⟨s, hrely, -, hbacks⟩ := done_of_good hgood hend
  have hdiscreet : Discreet (w.procs p).loc.trace := fun q a hev =>
    hports q a ((hgood.traces p _).2 hev)
  exact (hbacks hrequest hdiscreet answer hanswer).steps hrely.steps

end Runs

/-! ## An answered call -/

/-- The port gave an answer. -/
def isAnswered : Event Gateway → Bool
  | .asked (.resolvePrincipal _) a => a.isOk
  | .asked (.resolveTool _ _) a => a.isOk
  | .asked (.validateArguments _ _) a => a.isOk
  | .asked (.evaluatePolicy _) a => a.isOk
  | .asked (.validateEndpoint _) a => a.isOk
  | .asked (.resolveBinding _ _ _ _) a => a.isOk
  | .asked (.resolveSecret _) a => a.isOk
  | _ => true

theorem not_raises_of_answered {q : Query} {a : q.Answer} {e : Exc}
    (h : isAnswered (.asked q a) = true) : ¬ q.Raises a e := by
  intro he
  cases q <;> first | exact he | (rw [show a = .error e from he] at h; cases h)

/-- The input that an ended call requires. -/
def inputRequired? : Program (ObservedAnswer CallAnswer) → Option InputRequiredResult
  | .ret served =>
    match served.answer with
    | .ok (.inputRequired result) => some result
    | _ => none
  | _ => none

theorem eq_of_inputRequired? {prog : Program (ObservedAnswer CallAnswer)}
    {result : InputRequiredResult} (h : inputRequired? prog = some result) :
    ∃ served, prog = .ret served ∧ served.answer = .ok (.inputRequired result) := by
  cases prog with
  | ret served =>
    refine ⟨served, rfl, ?_⟩
    simp only [inputRequired?] at h
    split at h
    next hanswer =>
      cases h
      exact hanswer
    · cases h
  | raise e => cases h
  | ask q k => cases h
  | db u op k => cases h

set_option maxRecDepth 100000 in
theorem confirmWorld_answered :
    (inputRequired? (confirmWorld.procs 0).prog).map (·.requestState) = some "approval" ∧
    ∀ entry ∈ confirmWorld.log, entry.1 = 0 → isAnswered entry.2 = true := by
  decide +kernel

theorem answers_backed_confirmed : ∃ result : InputRequiredResult,
    result.requestState = "approval" ∧ @GatewayRequest.Backs raceSha256 (confirmRequests 0)
      (confirmWorld.procs 0).loc.trace confirmWorld.store (.inputRequired result) := by
  obtain ⟨hrequired, hanswered⟩ := confirmWorld_answered
  obtain ⟨result, hresult, hstate⟩ := Option.map_eq_some_iff.1 hrequired
  obtain ⟨served, hend, hanswer⟩ := eq_of_inputRequired? hresult
  have hserver : confirmServer.Discreet := by
    refine ⟨fun ctx => nameless_ok _, fun resolver hresolver => ?_, fun search hsearch => ?_⟩
    · cases hresolver
    · cases hsearch
  have hports : ∀ q a, ((0 : Fin 3), .asked q a) ∈ confirmWorld.log → ∀ e, q.Raises a e →
      NamesNothing e := fun q a hlog e he =>
    absurd he (not_raises_of_answered (hanswered _ hlog rfl))
  exact ⟨result, hstate, @answers_backed raceSha256 _ _ _ confirmWorld_served 0 hserver hports
    (.ok served) hend _ ⟨served, rfl, hanswer⟩⟩

end NexusMcp
