-- SUMMARY: Any number of MCP requests and decisions of administrators at once, on one ledger.
import NexusMcp.Mcp.Server
import NexusMcp.Txn.Attribution

/-!
# Requests at Work

The tool calls of clients and the decisions of administrators are what reaches the ledger
from outside. Each request has its own server, so what access and search read for it may
differ from what they read for the others.
-/

namespace NexusMcp

open Txn Contract

/-! ## Requests -/

/-- A `tools/call` of a client, or a decision at the administration interface. -/
inductive GatewayRequest where
  | call (server : McpServer) (wired : ∀ service ∈ server.callTool, Wired service.executor)
      (ctx : RawServerContext) (params : CallToolRequestParams)
  | decide (command : DecideApprovalCommand)

namespace GatewayRequest

abbrev Result : GatewayRequest → Type
  | call _ _ _ _ => ObservedAnswer CallAnswer
  | decide _ => ApprovalRequest

def program [Sha256] : (request : GatewayRequest) → Program request.Result
  | call server _ ctx params => server.onCallTool ctx params
  | decide command => DecideApproval.execute command

end GatewayRequest

/-! ## Each request keeps the contract -/

namespace McpServer

variable [Sha256] {Fault : Exc → Prop} {l : Local Gateway} {s : Ledger}

theorem recordScopeDenial_safe (hl : Clean l) (self : McpServer) (context : RequestContext)
    (scope : McpEndpointScope) (access : Option ResolvedToolsetAccess)
    (params : CallToolRequestParams) (cls : ErrorClass) :
    ledgerContract.safe Fault (fun _ l' _ => Clean l')
      (self.recordScopeDenial context scope access params cls) l s := by
  unfold recordScopeDenial
  split
  · exact hl
  · refine safe_tryCatch.2 (safe_mono (fun audited l₁ s₁ h₁ => ?_) (step_lift (fun _ _ => hl)
      fun digest _ => NexusMcp.recordScopeDenial_safe hl _))
    cases audited with
    | ok _ => exact h₁
    | error e => cases e <;> exact h₁

theorem reject_safe (hl : Clean l) (self : McpServer) (context : RequestContext)
    (scope : McpEndpointScope) (access : Option ResolvedToolsetAccess)
    (params : CallToolRequestParams) (cls : ErrorClass) (mode : Option ToolRetrievalMode) :
    ledgerContract.safe Fault (fun _ l' _ => Clean l')
      (self.reject context scope access params cls mode) l s := by
  unfold reject
  refine safe_bind.2 (safe_attempt.2 (safe_mono (fun audited l₁ s₁ h₁ => ?_)
    (self.recordScopeDenial_safe hl context scope access params cls)))
  exact h₁

theorem serveSearch_safe (hl : Clean l) (self : McpServer) (context : RequestContext)
    (scope : McpEndpointScope) (access : Option ResolvedToolsetAccess)
    (params : CallToolRequestParams) :
    ledgerContract.safe Fault (fun _ l' _ => Clean l')
      (self.serveSearch context scope access params) l s := by
  unfold serveSearch
  split
  · exact hl
  · split
    case h_2 => exact self.reject_safe hl context scope access params _ _
    all_goals exact hl

theorem tryCall_safe (hfault : ∀ e, Fault e → Interruption e) (hl : Clean l) (self : McpServer)
    {callTool : CallTool} (hwired : Wired callTool.executor) (context : RequestContext)
    (access : Option ResolvedToolsetAccess) (params : CallToolRequestParams) :
    ledgerContract.safe Fault (fun _ l' _ => Clean l')
      (self.tryCall callTool context access params) l s := by
  unfold tryCall resolveInteractiveApproval
  simp only [Prog.bind_eq, Prog.pure_eq, Prog.bind_assoc]
  refine step_lift (fun _ _ => hl) fun _ _ => step_lift (fun _ _ => hl) fun decision _ => ?_
  have hcall : ∀ {l : Local Gateway} {s : Ledger}, Clean l →
      ledgerContract.safe Fault (fun _ l' _ => Clean l')
        ((Prog.lift (idempotencyKey params)).bind fun key =>
          (Prog.lift (construct (commandFields context access params key))).bind fun command =>
            callTool.execute command) l s := fun hl =>
    step_lift (fun _ _ => hl) fun _ _ => step_lift (fun _ _ => hl) fun command _ =>
      callTool_safe hfault hl hwired command
  cases decision with
  | none => exact hcall hl
  | some decision =>
    refine safe_bind.2 (safe_bind.2 (safe_mono (fun decided l₁ s₁ h₁ => ?_)
      (decideApproval_safe hl decision)))
    cases decided with
    | error e => exact h₁
    | ok _ => exact hcall h₁

theorem answerCall_safe (hl : Clean l) (self : McpServer) (context : RequestContext)
    (scope : McpEndpointScope) (access : Option ResolvedToolsetAccess)
    (params : CallToolRequestParams) (outcome : Except Exc CallToolResult) :
    ledgerContract.safe Fault (fun _ l' _ => Clean l')
      (self.answerCall context scope access params outcome) l s := by
  unfold answerCall
  split
  case h_1 => exact hl
  case h_2 => split <;> exact hl
  case h_3 => exact self.reject_safe hl context scope access params _ _
  all_goals exact hl

theorem onCallTool_safe (hfault : ∀ e, Fault e → Interruption e) (hl : Clean l)
    (self : McpServer) (hwired : ∀ service ∈ self.callTool, Wired service.executor)
    (ctx : RawServerContext) (params : CallToolRequestParams) :
    ledgerContract.safe Fault (fun _ l' _ => Clean l') (self.onCallTool ctx params) l s := by
  unfold onCallTool
  split
  · exact hl
  · exact hl
  next context hcontext =>
  refine safe_bind.2 (safe_mono (fun served l₁ s₁ h₁ => ?_) (?_ : ledgerContract.safe Fault
    (fun _ l' _ => Clean l') (self.serve ctx (context.observed ctx) params) l s))
  · cases served <;> exact h₁
  unfold serve
  split
  · exact hl
  · split
    · exact self.reject_safe hl _ _ _ _ _ _
    · exact hl
    · split
      · exact self.serveSearch_safe hl _ _ _ _
      · unfold serveCall
        split
        · exact hl
        next callTool hcallTool =>
        refine safe_bind.2 (safe_attempt.2 (safe_mono (fun outcome l₂ s₂ h₂ => ?_)
          (self.tryCall_safe hfault hl (hwired callTool hcallTool) _ _ params)))
        exact self.answerCall_safe h₂ _ _ _ _ outcome

end McpServer

theorem GatewayRequest.safe [Sha256] (request : GatewayRequest) (s : Ledger) :
    ledgerContract.safe Interruption (fun _ l _ => Clean l) request.program .start s := by
  cases request with
  | call server wired ctx params =>
    exact server.onCallTool_safe (fun _ h => h) clean_start wired ctx params
  | decide command => exact decideApproval_safe clean_start command

/-! ## Worlds -/

/-- Any number of requests, each about to be served on the empty ledger. -/
def GatewayWorld [Sha256] {Pid : Type} (requests : Pid → GatewayRequest) :
    World Gateway Pid (fun p => (requests p).Result) :=
  .start .empty fun p => (requests p).program

/-- `w` is reached by some interleaving in which any operation may be interrupted. -/
def Served [Sha256] {Pid : Type} (requests : Pid → GatewayRequest)
    (w : World Gateway Pid (fun p => (requests p).Result)) : Prop :=
  World.Reaches Interruption (GatewayWorld requests) w

namespace Served

variable [Sha256] {Pid : Type} {requests : Pid → GatewayRequest}
  {w : World Gateway Pid (fun p => (requests p).Result)}

theorem start_good : ledgerContract.Good Interruption (fun _ _ l _ => Clean l)
    (GatewayWorld requests) :=
  good_start LedgerInv.empty fun p => (requests p).safe _

theorem good (h : Served requests w) :
    ledgerContract.Good Interruption (fun _ _ l _ => Clean l) w :=
  good_of_reaches start_good h

/-- What the ledger promises holds behind the MCP boundary. -/
theorem inv (h : Served requests w) : LedgerInv w.store := h.good.inv

end Served

end NexusMcp
