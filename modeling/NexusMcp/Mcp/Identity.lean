-- SUMMARY: Who a client is: bearer tokens, contexts of requests, and the principals of the ledger.
import NexusMcp.Mcp.Approvals
import NexusMcp.Networking.Egress
import NexusMcp.Select.Fusion

/-!
# Identity of Clients

The gateway knows a client as the agent it is configured with, or by the bearer token that
the client presents. The principal travels in the context of the request, and whoever asks
for it takes it from there.
-/

namespace NexusMcp

open Txn
open Net (Unicode Text partition)

/-! ## Principals -/

namespace PrincipalType

def value : PrincipalType → String
  | agentService => "agent_service"
  | anonymous => "anonymous"

/-- `PrincipalType(value)`. -/
def ofValue? (value : String) : Option PrincipalType :=
  [agentService, anonymous].find? (·.value = value)

@[simp] theorem ofValue?_value (self : PrincipalType) : ofValue? self.value = some self := by
  cases self <;> rfl

end PrincipalType

/-- `ContextPrincipalResolver.resolve`. A type that is not known is the one that the
    identifier tells. -/
def ContextPrincipalResolver.resolve (context : ActorContext) : Except Exc InternalPrincipal :=
  construct {
    id := context.principalId
    tenantId := context.tenantId
    principalType := (PrincipalType.ofValue? context.principalType).getD
      (if context.principalId = anonymousPrincipalId then .anonymous else .agentService)
    authnMethod := context.authnMethod }

/-! ## Bearer tokens -/

structure StaticBearerAgentServiceMapping where
  token : SecretValue
  principal : InternalPrincipal

/-- `AgentServiceAuthenticator`: the principal of an authorization header, in a tenant. -/
abbrev AgentServiceAuthenticator := Option String → Id → Except Exc InternalPrincipal

/-- `_token_digest`. -/
def tokenDigest [Sha256] (token : String) : String := Sha256.hexdigest token

/-- Only the digests of the tokens are kept. -/
structure StaticBearerAgentServiceAuthenticator where
  principalsByDigest : List (String × InternalPrincipal)

namespace StaticBearerAgentServiceAuthenticator

variable [Sha256]

def ofIdentities (identities : List StaticBearerAgentServiceMapping) :
    StaticBearerAgentServiceAuthenticator where
  -- Of two identities with one digest, the later principal is kept.
  principalsByDigest := Select.ofItems <| identities.map fun identity =>
    (tokenDigest identity.token.val, identity.principal)

variable [Unicode]

def authenticate (self : StaticBearerAgentServiceAuthenticator) : AgentServiceAuthenticator
  | none, _ => .error (.nexus .authentication "authorization header was missing")
  | some authorizationHeader, tenantId =>
    match partition ' ' authorizationHeader.toList with
    | (_, none) => .error (.nexus .authentication
        "authorization header was not a valid bearer credential")
    | (scheme, some token) => do
      raiseIf (Unicode.lower scheme ≠ "bearer".toList ∨ token = []) (.nexus .authentication
        "authorization header was not a valid bearer credential")
      -- An unknown token and one of another tenant end in the same error.
      match self.principalsByDigest.lookup (tokenDigest (String.ofList token)) with
      | none => .error (.nexus .authentication
          "bearer credential did not resolve to a trusted principal")
      | some principal =>
        raiseIf (principal.val.tenantId ≠ tenantId) (.nexus .authentication
          "bearer credential did not resolve to a trusted principal")
        return principal

/-- The header presents a token of one of the identities, and the principal is its own. -/
structure Presents (identities : List StaticBearerAgentServiceMapping) (header : String)
    (principal : InternalPrincipal) : Prop where
  bearer : ∃ scheme token, header.toList = scheme ++ ' ' :: token ∧ ' ' ∉ scheme ∧
    Unicode.lower scheme = "bearer".toList ∧ token ≠ [] ∧
    ∃ identity ∈ identities, identity.principal = principal ∧
      tokenDigest identity.token.val = tokenDigest (String.ofList token)

theorem authenticate_ok {identities : List StaticBearerAgentServiceMapping}
    {header? : Option String} {tenantId : Id} {principal : InternalPrincipal}
    (h : (ofIdentities identities).authenticate header? tenantId = .ok principal) :
    principal.val.tenantId = tenantId ∧
      ∃ header, header? = some header ∧ Presents identities header principal := by
  unfold authenticate at h
  split at h
  · cases h
  next header =>
  split at h
  · cases h
  next scheme token hpartition =>
  rw [raiseIf_bind_eq_ok] at h
  obtain ⟨hcredential, h⟩ := h
  rw [not_or, not_not] at hcredential
  obtain ⟨hscheme, htoken⟩ := hcredential
  obtain ⟨hspace, hheader⟩ := Net.partition_eq_some.1 hpartition
  split at h
  · cases h
  next found hlookup =>
  rw [raiseIf_bind_eq_ok] at h
  obtain ⟨htenant, h⟩ := h
  cases h
  refine ⟨not_not.1 htenant, header, rfl, ?_⟩
  have hmem := Select.mem_of_lookup_ofItems hlookup
  obtain ⟨identity, hidentity, heq⟩ := List.mem_map.1 hmem
  obtain ⟨hdigest, hprincipal⟩ := Prod.mk.inj heq
  exact ⟨scheme, token, hheader, hspace, hscheme, htoken, identity, hidentity, hprincipal, hdigest⟩

end StaticBearerAgentServiceAuthenticator

/-! ## The context of a request -/

/-- The characters that `\d` matches, the decimal digits of Unicode. -/
class UnicodeDigits where
  isDigit : Char → Bool

/-- The identifiers that `uuid4` makes up for a request. -/
structure DrawnUuids where
  requestId : String
  traceId : String

section Contexts

variable [Unicode] [UnicodeDigits]

omit [UnicodeDigits] in
/-- `request_headers`. -/
def requestHeaders (ctx : RawServerContext) : List (String × String) :=
  Select.ofItems (ctx.headers.map fun (key, value) =>
    (String.ofList (Unicode.lower key.toList), value))

omit [Unicode] in
def isTraceDigit (c : Char) : Bool :=
  UnicodeDigits.isDigit c ∨ ('a' ≤ c ∧ c ≤ 'f') ∨ ('A' ≤ c ∧ c ≤ 'F')

omit [Unicode] in
/-- `_TRACEPARENT_PATTERN.fullmatch(traceparent)`, with its group. -/
def traceparentMatch (traceparent : Text) : Option Text :=
  match traceparent.splitOn '-' with
  | [version, traceId, parentId, flags] =>
    if version.length = 2 ∧ traceId.length = 32 ∧ parentId.length = 16 ∧ flags.length = 2 ∧
      (version ++ traceId ++ parentId ++ flags).all isTraceDigit then some traceId else none
  | _ => none

/-- `_trace_id`. -/
def traceId (fresh : DrawnUuids) (headers : List (String × String)) : String :=
  match traceparentMatch ((headers.lookup "traceparent").getD "").toList with
  | some group => String.ofList (Unicode.lower group)
  | none => fresh.traceId

def modernProtocolVersion : String := "2026-07-28"

/-- The fields that name a principal in a context. -/
def contextOf (fresh : DrawnUuids) (ctx : RawServerContext) (tenantId : Id)
    (principal : InternalPrincipal) : RequestContext where
  requestId := ctx.requestId.getD fresh.requestId
  traceId := traceId fresh (requestHeaders ctx)
  protocolVersion := ctx.protocolVersion
  protocolEra := if ctx.protocolVersion = modernProtocolVersion then .modern else .legacy
  tenantId := tenantId
  principalId := principal.val.id
  authnMethod := principal.val.authnMethod
  principalType := principal.val.principalType.value

/-- `resolve_request_context`. -/
def resolveRequestContext (fresh : DrawnUuids) (ctx : RawServerContext) (tenantId : Id) :
    Option InternalPrincipal → Except Exc RequestContext
  | some principal => .ok (contextOf fresh ctx tenantId principal)
  | none => (construct {
      id := anonymousPrincipalId
      tenantId := tenantId
      principalType := .anonymous
      authnMethod := "anonymous" }).map (contextOf fresh ctx tenantId)

/-- Whoever resolves the principal of a context finds the one that it was made of. -/
theorem resolve_contextOf {fresh : DrawnUuids} {ctx : RawServerContext} {tenantId : Id}
    {principal : InternalPrincipal} (h : principal.val.tenantId = tenantId) :
    ContextPrincipalResolver.resolve ((contextOf fresh ctx tenantId principal).observed
      ctx).toActorContext = .ok principal := by
  have hfields : ({
      id := principal.val.id
      tenantId := tenantId
      principalType := (PrincipalType.ofValue? principal.val.principalType.value).getD
        (if principal.val.id = anonymousPrincipalId then .anonymous else .agentService)
      authnMethod := principal.val.authnMethod } : InternalPrincipalFields) = principal.val := by
    rw [PrincipalType.ofValue?_value, ← h]
    rfl
  -- The observation changes the trace only, which the resolver does not read.
  change construct _ = _
  exact (congrArg construct hfields).trans (construct_of_valid principal.property)

/-! ## The clients of an application -/

inductive McpIdentityMode where
  | staticService
  | serviceIdentity
deriving Repr, DecidableEq

/-- The settings that tell who a client is. -/
structure McpIdentitySettings where
  localTenantId : Id := "local"
  mcpIdentityMode : McpIdentityMode := .staticService
  staticAgentPrincipalId : String := "local-agent-service"

/-- The fields of `static_agent_principal`. -/
def McpIdentitySettings.staticAgentFields (settings : McpIdentitySettings) :
    InternalPrincipalFields where
  id := settings.staticAgentPrincipalId
  tenantId := settings.localTenantId
  principalType := .agentService
  authnMethod := "static_service"

/-- The `static_agent_principal` of `create_app`. -/
def staticAgentPrincipal (settings : McpIdentitySettings)
    (authenticator : Option AgentServiceAuthenticator) :
    Except Exc (Option InternalPrincipal) :=
  match settings.mcpIdentityMode, authenticator with
  | .serviceIdentity, none => .error (.other "RuntimeError")
  | .serviceIdentity, some _ => .ok none
  | .staticService, some _ => .error (.other "RuntimeError")
  | .staticService, none => (construct settings.staticAgentFields).map some

/-- The `principal` of a request in `context_resolver`. -/
def clientPrincipal (settings : McpIdentitySettings) (configured : Option InternalPrincipal)
    (authenticator : Option AgentServiceAuthenticator) (ctx : RawServerContext) :
    Except Exc (Option InternalPrincipal) :=
  match authenticator with
  | none => .ok configured
  | some authenticate => (authenticate ((requestHeaders ctx).lookup "authorization")
      settings.localTenantId).map some

/-- The `context_resolver` that `create_app` makes of the settings. -/
def createContextResolver (settings : McpIdentitySettings)
    (authenticator : Option AgentServiceAuthenticator) :
    Except Exc (DrawnUuids → RawServerContext → Except Exc RequestContext) := do
  let configured ← staticAgentPrincipal settings authenticator
  return fun fresh ctx => do
    let principal ← clientPrincipal settings configured authenticator ctx
    resolveRequestContext fresh ctx settings.localTenantId principal

/-- An application, with the tokens of its agents where clients authenticate. -/
structure Application where
  settings : McpIdentitySettings
  identities : Option (List StaticBearerAgentServiceMapping)

variable [Sha256]

def Application.contextResolver (self : Application) :
    Except Exc (DrawnUuids → RawServerContext → Except Exc RequestContext) :=
  createContextResolver self.settings (self.identities.map fun identities =>
    (StaticBearerAgentServiceAuthenticator.ofIdentities identities).authenticate)

/-- Whom the application takes the client of a request for. -/
inductive Application.Recognizes (self : Application) (ctx : RawServerContext) :
    InternalPrincipal → Prop where
  | configured {principal} (hmode : self.settings.mcpIdentityMode = .staticService)
      (hprincipal : principal.val = self.settings.staticAgentFields) :
      Recognizes self ctx principal
  | authenticated {identities name header principal}
      (hmode : self.settings.mcpIdentityMode = .serviceIdentity)
      (hidentities : self.identities = some identities) (hheader : (name, header) ∈ ctx.headers)
      (hname : String.ofList (Unicode.lower name.toList) = "authorization")
      (hpresents : StaticBearerAgentServiceAuthenticator.Presents identities header principal)
      (htenant : principal.val.tenantId = self.settings.localTenantId) :
      Recognizes self ctx principal

omit [UnicodeDigits] in
theorem Application.Recognizes.tenant {self : Application} {ctx : RawServerContext}
    {principal : InternalPrincipal} (h : self.Recognizes ctx principal) :
    principal.val.tenantId = self.settings.localTenantId := by
  cases h with
  | configured hmode hprincipal =>
    rw [hprincipal]
    rfl
  | authenticated hmode hidentities hheader hname hpresents htenant => exact htenant

omit [UnicodeDigits] [Sha256] in
theorem mem_of_requestHeaders {ctx : RawServerContext} {key value : String}
    (h : (requestHeaders ctx).lookup key = some value) :
    ∃ name, (name, value) ∈ ctx.headers ∧ String.ofList (Unicode.lower name.toList) = key := by
  have hmem := Select.mem_of_lookup_ofItems h
  obtain ⟨⟨name, value'⟩, hheader, heq⟩ := List.mem_map.1 hmem
  obtain ⟨hname, rfl⟩ := Prod.mk.inj heq
  exact ⟨name, hheader, hname⟩

/-- A context is made of the principal that the application takes the client for. -/
theorem Application.contextResolver_ok {self : Application}
    {resolver : DrawnUuids → RawServerContext → Except Exc RequestContext}
    (h : self.contextResolver = .ok resolver) {fresh : DrawnUuids} {ctx : RawServerContext}
    {context : RequestContext} (hcontext : resolver fresh ctx = .ok context) :
    ∃ principal, self.Recognizes ctx principal ∧
      context = contextOf fresh ctx self.settings.localTenantId principal := by
  obtain ⟨configured, hconfigured, h⟩ := bind_eq_ok.1 h
  cases h
  obtain ⟨principal?, hprincipal, hresolved⟩ := bind_eq_ok.1 hcontext
  unfold staticAgentPrincipal at hconfigured
  split at hconfigured
  · cases hconfigured
  next hmode hauthenticator =>
    obtain ⟨identities, hidentities, rfl⟩ := Option.map_eq_some_iff.1 hauthenticator
    rw [hauthenticator] at hprincipal
    obtain ⟨principal, hauthenticated, rfl⟩ := map_eq_ok.1 hprincipal
    cases hresolved
    obtain ⟨htenant, header, hheader, hpresents⟩ :=
      StaticBearerAgentServiceAuthenticator.authenticate_ok hauthenticated
    obtain ⟨name, hmem, hname⟩ := mem_of_requestHeaders hheader
    exact ⟨principal, .authenticated hmode hidentities hmem hname hpresents htenant, rfl⟩
  · cases hconfigured
  next hmode hauthenticator =>
    rw [hauthenticator] at hprincipal
    cases hprincipal
    obtain ⟨principal, hconstruct, rfl⟩ := map_eq_ok.1 hconfigured
    cases hresolved
    exact ⟨principal, .configured hmode (val_of_construct hconstruct), rfl⟩

/-! ## The principals of the ledger -/

/-- The request reaches a server of the application. -/
def GatewayRequest.ServedBy (app : Application) : GatewayRequest → Prop
  | call server _ _ _ => ∃ resolver fresh, app.contextResolver = .ok resolver ∧
      server.contextResolver = resolver fresh
  | decide _ => True

omit [UnicodeDigits] in
/-- The application takes the client of the request for the principal. -/
def GatewayRequest.IsFrom (app : Application) : GatewayRequest → InternalPrincipal → Prop
  | call _ _ ctx _, principal => app.Recognizes ctx principal
  | decide _, _ => False

/-- Who asks for the principal of a context is answered by `ContextPrincipalResolver`. -/
def ResolvesPrincipals (given : Answers Gateway) : Prop :=
  ∀ context answer, given (.resolvePrincipal context) answer →
    answer = ContextPrincipalResolver.resolve context

/-- The execution is the principal's, for whom the policy decided and the credential was bound. -/
structure ExecutedFor (given : Answers Gateway) (principal : InternalPrincipal)
    (e : ToolExecutionFields) : Prop where
  tenantId : e.tenantId = principal.val.tenantId
  principalId : e.principalId = principal.val.id
  evaluated : ∃ input decision, given (.evaluatePolicy input) (.ok decision) ∧
    input.val.principal = principal ∧ e.policyVersion = decision.policyVersion ∧
    e.policyReasonCode = decision.reasonCode
  credential : e.credentialBindingId = none ∨ ∃ toolId upstreamServiceId binding,
    given (.resolveBinding e.tenantId principal toolId upstreamServiceId) (.ok (some binding)) ∧
      e.credentialBindingId = some binding.val.id

/-- The approval is asked for on behalf of the principal, for whom the policy wants one. -/
structure RequestedFor (given : Answers Gateway) (principal : InternalPrincipal)
    (a : ApprovalFields) : Prop where
  tenantId : a.tenantId = principal.val.tenantId
  principalId : a.principalId = principal.val.id
  evaluated : ∃ input decision, given (.evaluatePolicy input) (.ok decision) ∧
    input.val.principal = principal ∧ decision.effect = .requireApproval ∧
    a.policyVersion = decision.policyVersion

/-- Who decided the approval: the principal of a client of the tenant that answers for it, or
    an administrator of the tenant. -/
inductive DecidedBy (app : Application) (a : ApprovalFields) (approved : Bool) :
    GatewayRequest → Prop where
  | client {server wired ctx params principal} (hclient : app.Recognizes ctx principal)
      (htenant : a.tenantId = principal.val.tenantId)
      (hdecider : a.decidedBy = some principal.val.id)
      (hanswer : AnswersApproval params a.id approved) :
      DecidedBy app a approved (.call server wired ctx params)
  | administrator {command : DecideApprovalCommand} (hid : command.approvalId = a.id)
      (htenant : a.tenantId = command.context.tenantId)
      (hdecider : a.decidedBy = some command.context.principalId)
      (happroved : command.approved = approved) : DecidedBy app a approved (.decide command)

section Ledger

variable {app : Application} {request : GatewayRequest} {given : Answers Gateway}

/-- The context of an admitted call is made of the principal of its client. -/
theorem client_of_admits (hserved : request.ServedBy app) {admitted : AdmittedCall}
    {params : CallToolRequestParams} (hadmits : request.Admits admitted params) :
    ∃ principal, request.IsFrom app principal ∧
      admitted.context.tenantId = principal.val.tenantId ∧
      ContextPrincipalResolver.resolve admitted.context.toActorContext = .ok principal := by
  cases request with
  | decide command => exact hadmits.elim
  | call server wired ctx params' =>
    obtain ⟨resolver, fresh, hresolver, hserver⟩ := hserved
    obtain ⟨own, hown, hcontext⟩ := hadmits.2.context
    rw [hserver] at hown
    obtain ⟨principal, hclient, rfl⟩ := app.contextResolver_ok hresolver hown
    rw [hcontext]
    exact ⟨principal, hclient, hclient.tenant.symm, resolve_contextOf hclient.tenant⟩

/-- Whom a call is evaluated for is the principal of its client. -/
theorem client_of_evaluated (hserved : request.ServedBy app) (hport : ResolvesPrincipals given)
    {admitted : AdmittedCall} {params : CallToolRequestParams}
    (hadmits : request.Admits admitted params) {principal : InternalPrincipal}
    {tool : ResolvedExecutableTool} {digest : String} {decision : PolicyDecision}
    (h : admitted.Evaluated params given principal tool digest decision) :
    request.IsFrom app principal ∧ admitted.context.tenantId = principal.val.tenantId := by
  obtain ⟨client, hclient, htenant, hresolve⟩ := client_of_admits hserved hadmits
  have heq : client = principal := by
    have hanswer := hport _ _ h.resolved
    rw [hresolve] at hanswer
    exact (Except.ok.inj hanswer).symm
  exact heq ▸ ⟨hclient, htenant⟩

theorem executedFor_of_plans (hserved : request.ServedBy app) (hport : ResolvesPrincipals given)
    {e : ToolExecutionFields} (h : request.Plans given e) :
    ∃ principal, request.IsFrom app principal ∧ ExecutedFor given principal e := by
  obtain ⟨admitted, params, hadmits, hplans, cleared, hmediated, hrecorded⟩ := h
  obtain ⟨hclient, htenant⟩ := client_of_evaluated hserved hport hadmits hmediated.evaluated
  refine ⟨cleared.principal, hclient, hplans.tenantId.trans htenant, hrecorded.principalId, ?_, ?_⟩
  · obtain ⟨input, hdecided, hinput⟩ := hmediated.evaluated.decided
    refine ⟨input, cleared.decision, hdecided, ?_, hrecorded.policyVersion,
      hrecorded.policyReasonCode⟩
    rw [hinput]
  · rw [hrecorded.credentialBindingId, hplans.tenantId]
    rcases hmediated.credential with ⟨hnone, -⟩ | ⟨binding, hbinding, hgiven⟩
    · exact .inl (by rw [hnone]; rfl)
    · exact .inr ⟨_, _, binding, hgiven, by rw [hbinding]; rfl⟩

theorem requestedFor_of_requests (hserved : request.ServedBy app)
    (hport : ResolvesPrincipals given) {a : ApprovalFields} (h : request.Requests given a) :
    ∃ principal, request.IsFrom app principal ∧ RequestedFor given principal a := by
  obtain ⟨admitted, params, hadmits, hrequests, principal, tool, digest, decision, hevaluated,
    heffect, hprincipal, -, -, hversion⟩ := h
  obtain ⟨hclient, htenant⟩ := client_of_evaluated hserved hport hadmits hevaluated
  refine ⟨principal, hclient, hrequests.tenantId.trans htenant, hprincipal, ?_⟩
  obtain ⟨input, hdecided, hinput⟩ := hevaluated.decided
  refine ⟨input, decision, hdecided, ?_, heffect, hversion⟩
  rw [hinput]

theorem decidedBy_of_decided (hserved : request.ServedBy app) {a : ApprovalFields}
    {approved : Bool} (h : request.Decided a approved) : DecidedBy app a approved request := by
  cases h.confirmed with
  | administrator hid htenant hprincipal happroved =>
    exact .administrator hid htenant.symm hprincipal happroved
  | client hown hscope haccess hinScope htenant hprincipal hanswer =>
    obtain ⟨resolver, fresh, hresolver, hserver⟩ := hserved
    rw [hserver] at hown
    obtain ⟨principal, hclient, rfl⟩ := app.contextResolver_ok hresolver hown
    exact .client hclient (htenant.symm.trans hclient.tenant.symm) hprincipal hanswer

/-- In every interleaving, the principal of an execution and of an approval is the one that the
    application takes the client of some call for: the policy decided for it, and a credential
    was bound to it. An approval is decided by the principal of a client too, or by an
    administrator. -/
theorem ledger_authenticated {Pid : Type} {requests : Pid → GatewayRequest}
    {w : World Gateway Pid (fun p => (requests p).Result)} (h : Served requests w)
    (hserved : ∀ p, (requests p).ServedBy app) (hport : ∀ p, ResolvesPrincipals (w.Given p)) :
    (∀ e ∈ w.store.executions, ∃ p principal, (requests p).IsFrom app principal ∧
      ExecutedFor (w.Given p) principal e.val) ∧
    (∀ a ∈ w.store.approvals, ∃ p principal, (requests p).IsFrom app principal ∧
      RequestedFor (w.Given p) principal a.val) ∧
    (∀ a ∈ w.store.approvals, a.val.status = .approved ∨ a.val.status = .consumed →
      ∃ p, DecidedBy app a.val true (requests p)) ∧
    ∀ a ∈ w.store.approvals, a.val.status = .rejected →
      ∃ p, DecidedBy app a.val false (requests p) := by
  have hattributed := h.attributed
  have hdecided := h.decided
  refine ⟨fun e he => ?_, fun a ha => ?_, fun a ha hstatus => ?_, fun a ha hstatus => ?_⟩
  · exact (hattributed.executions e he).imp fun p hplans =>
      executedFor_of_plans (hserved p) (hport p) hplans
  · exact (hattributed.approvals a ha).imp fun p hrequests =>
      requestedFor_of_requests (hserved p) (hport p) hrequests
  · exact ((hdecided a ha).approved hstatus).imp fun p => decidedBy_of_decided (hserved p)
  · exact ((hdecided a ha).rejected hstatus).imp fun p => decidedBy_of_decided (hserved p)

end Ledger

end Contexts

/-! ## A client with a token -/

section Token

/-- SHA-256 on the two texts of the run, the token and the arguments. -/
@[reducible] def tokenSha256 : Sha256 where
  hexdigest text := if text = "token"
    then "3c469e9d6c5875d37a43f353d4f88e61fcf812c66eee3457465a40b0da4153e0"
    else "44136fa355b3678a1146ad16f7e8649e94fb4fc21fe77e8310c060f61caaff8a"

@[reducible] def asciiDigits : UnicodeDigits := ⟨Net.isDigit⟩

attribute [local instance] tokenSha256 asciiDigits asciiUnicode

theorem token_ne : "token" ≠ "" := by decide

def tokenApplication : Application where
  settings := { localTenantId := "tenant", mcpIdentityMode := .serviceIdentity }
  identities := some [⟨⟨"token", token_ne⟩, alice⟩]

def tokenResolver : RawServerContext → Except Exc RequestContext :=
  match tokenApplication.contextResolver with
  | .ok resolver => resolver ⟨"request", "trace"⟩
  | .error e => fun _ => .error e

def tokenServer : McpServer := { confirmServer with contextResolver := tokenResolver }

/-- The requests of the confirmed call, from a client that presents Alice's token. -/
def tokenRequests (p : Fin 3) : GatewayRequest :=
  match confirmRequests p with
  | .call _ _ _ params => .call tokenServer confirmServer_wired
      { protocolVersion := "2026-07-28", headers := [("Authorization", "Bearer token")] } params
  | .decide command => .decide command

def tokenAnswer (p : Fin 3) : (q : Query) → q.Answer
  | .resolvePrincipal context => ContextPrincipalResolver.resolve context
  | q => confirmAnswer p q

def tokenWorld : World Gateway (Fin 3) (fun p => (tokenRequests p).Result) :=
  (GatewayWorld tokenRequests).follow tokenAnswer confirmSchedule

set_option maxRecDepth 100000 in
theorem tokenWorld_legal :
    World.Legal tokenAnswer (GatewayWorld tokenRequests) confirmSchedule ∧
    tokenWorld.store.executions.rows.map (·.val.principalId) = ["alice"] ∧
    tokenWorld.store.approvals.rows.map (·.val.decidedBy) = [some "alice"] := by
  decide +kernel

theorem tokenRequests_served (p : Fin 3) : (tokenRequests p).ServedBy tokenApplication := by
  unfold tokenRequests
  split
  · exact ⟨_, ⟨"request", "trace"⟩, rfl, rfl⟩
  · trivial

theorem tokenWorld_served : Served tokenRequests tokenWorld :=
  World.reaches_follow tokenWorld_legal.1

theorem tokenWorld_port (p : Fin 3) : ResolvesPrincipals (tokenWorld.Given p) := by
  intro context answer hgiven
  rcases World.given_follow hgiven with hstart | hanswer
  · cases hstart
  · exact hanswer

/-- Alice's token stands behind the execution and its approval. -/
theorem ledger_authenticated_alice :
    tokenWorld.store.executions.rows.map (·.val.principalId) = ["alice"] ∧
    (∀ e ∈ tokenWorld.store.executions, ∃ p principal,
      (tokenRequests p).IsFrom tokenApplication principal ∧
        ExecutedFor (tokenWorld.Given p) principal e.val) ∧
    ∀ a ∈ tokenWorld.store.approvals, a.val.status = .approved ∨ a.val.status = .consumed →
      ∃ p, DecidedBy tokenApplication a.val true (tokenRequests p) := by
  obtain ⟨hexecutions, -, happrovals, -⟩ :=
    ledger_authenticated tokenWorld_served tokenRequests_served tokenWorld_port
  exact ⟨tokenWorld_legal.2.1, hexecutions, happrovals⟩

end Token

end NexusMcp
