-- SUMMARY: The MCP server: listing tools, calling them, searching them and answering an approval.
import NexusMcp.Execution.Commands
import NexusMcp.Mcp.MetaTools

/-!
# The MCP Server

`tools/list` and `tools/call` as the handlers serve them. Access and search read other
stores, so what they answer a request is a parameter of the server that serves it.
-/

namespace NexusMcp

open Txn
open Prog (lift)

/-- The arguments of `create_mcp_server`. `DecideApproval` and the scope audit have no
    state, so they are configured or not. -/
structure McpServer where
  contextResolver : RawServerContext → Except Exc RequestContext
  listVisibleTools : RequestContext → Except Exc (List PublishedTool)
  callTool : Option CallTool := none
  searchTools : Option (SearchToolsQuery → Except Exc SearchToolsResult) := none
  searchFirst : Bool := false
  hasDecideApproval : Bool := false
  resolveToolsetAccess :
    Option (RequestContext → McpEndpointScope → Except Exc ResolvedToolsetAccess) := none
  hasScopeAudit : Bool := false

namespace McpServer

/-! ## Access -/

/-- `_resolve_toolset_access`. -/
def accessFor (self : McpServer) (context : RequestContext) (scope : McpEndpointScope) :
    Except Exc (Option ResolvedToolsetAccess) :=
  match self.resolveToolsetAccess with
  | none => .ok none
  | some resolver => (resolver context scope).map some

/-- `_execution_scope_type`. -/
def executionScopeType : Option ResolvedToolsetAccess → McpScopeType
  | none => .root
  | some access => access.endpointScope.type

/-- `_search_first`. -/
def isSearchFirst (self : McpServer) : Option ResolvedToolsetAccess → Bool
  | none => self.searchFirst
  | some access =>
    match access.endpointScope with
    | .root => self.searchFirst
    | .toolset _ _ => access.discoveryMode = some .searchFirst

/-- `_meta_search_visible`. -/
def isMetaSearchVisible (self : McpServer) : Option ResolvedToolsetAccess → Bool
  | none => true
  | some access =>
    match access.endpointScope with
    | .root => true
    | .toolset _ _ => self.isSearchFirst (some access)

/-! ## Listing -/

inductive ListAnswer where
  | tools (tools : List ProtocolTool)
  | error (error : SafeError)

def protocolTool (context : RequestContext) (tool : PublishedTool) : ProtocolTool where
  name := tool.val.canonicalName
  title := tool.val.displayName
  description := tool.val.description
  inputSchema := tool.val.inputSchema
  outputSchema := protocolOutputSchema tool.val.outputSchema context
  metadata := [
    ("com.nexusmcp/toolId", .str tool.val.toolId),
    ("com.nexusmcp/toolVersionId", .str tool.val.toolVersionId),
    ("com.nexusmcp/toolVersion", .int tool.val.version)]

/-- The business tools that are listed. -/
def listedTools (self : McpServer) (context : RequestContext)
    (access : Option ResolvedToolsetAccess) : Except Exc (List PublishedTool) :=
  if self.isSearchFirst access then .ok []
  else match access with
    | some access => .ok access.tools
    | none => self.listVisibleTools context

/-- The body of the `try` in `on_list_tools`. -/
def tryListTools (self : McpServer) (ctx : RawServerContext) (context : RequestContext) :
    Except Exc (List ProtocolTool) := do
  let scope ← resolveEndpointScope ctx
  let access ← self.accessFor context scope
  let tools ← self.listedTools context access
  -- The source inserts the meta tool before the tools that it has already made.
  let metaTools := if self.searchTools.isSome ∧ self.isMetaSearchVisible access
    then [searchToolsDefinition] else []
  return metaTools ++ tools.map (protocolTool context)

/-- `on_list_tools`. A context that cannot be resolved is not observed. -/
def onListTools (self : McpServer) (ctx : RawServerContext) : ObservedAnswer ListAnswer :=
  match self.contextResolver ctx with
  | .error e => { answer := .error e, completion := none }
  | .ok context =>
    ObservedAnswer.observe <| match self.tryListTools ctx (context.observed ctx) with
      | .ok tools => { answer := .ok (.tools tools), completion := some { outcome := "success" } }
      | .error (.nexus cls _) =>
        { answer := .ok (.error cls.safe)
          completion := some { outcome := "rejected", errorCode := some cls.code } }
      -- `except Exception` lets a cancellation through, so nothing is finished here.
      | .error .cancelled => { answer := .error .cancelled, completion := none }
      | .error e =>
        { answer := .error e
          completion := some { outcome := "error", errorCode := some "unexpected_error" } }

/-! ## Ends of a call -/

/-- An answer that says nothing but that the call failed. -/
def failed (mode : Option ToolRetrievalMode) : ObservedAnswer CallAnswer where
  answer := .ok (.result (toCallToolError .base))
  completion := some {
    outcome := "error", errorCode := some "unexpected_error", searchMode := mode }

/-- An exception that no handler catches. The observation finishes it when it leaves, with the
    mode that was set. -/
def unfinished (e : Exc) (mode : Option ToolRetrievalMode := none) :
    ObservedAnswer CallAnswer where
  answer := .error e
  completion := mode.map fun mode =>
    { outcome := "error", errorCode := some "unexpected_error", searchMode := some mode }

/-- A rejection that no scope decided. -/
def rejected (error : SafeError) : ObservedAnswer CallAnswer where
  answer := .ok (.result (toCallToolError error))
  completion := some { outcome := "rejected", errorCode := some error.code }

/-- The denial that `_record_scope_denial` records. -/
def scopeDenialCommand (context : RequestContext) (scope : McpEndpointScope)
    (access : Option ResolvedToolsetAccess) (params : CallToolRequestParams) (cls : ErrorClass)
    (argumentsDigest : String) : RecordMcpScopeDenialCommand where
  context := context.toActorContext
  toolName := params.name
  argumentsDigest := argumentsDigest
  reasonCode := cls.code
  mcpScopeType := scope.type
  toolsetSlug := scope.slug?
  toolsetId := access.bind (·.toolsetId)
  toolsetRevision := access.bind (·.toolsetRevision)

/-- The handler around the audit: only a cancellation passes. -/
def ignoreFailure : Exc → Program Unit
  | .cancelled => throw .cancelled
  | _ => pure ()

/-- `_record_scope_denial`. -/
def recordScopeDenial [Sha256] (self : McpServer) (context : RequestContext)
    (scope : McpEndpointScope) (access : Option ResolvedToolsetAccess)
    (params : CallToolRequestParams) (cls : ErrorClass) : Program Unit :=
  -- Only errors of a toolset scope are denials that are audited.
  if ! self.hasScopeAudit ∨ ! cls.isToolsetScope then pure ()
  else
    let audit : Program Unit := do
      let argumentsDigest ← lift (canonicalJsonDigest (.obj params.givenArguments))
      ExecutionLifecycle.recordScopeDenial
        (scopeDenialCommand context scope access params cls argumentsDigest)
    audit.tryCatch ignoreFailure

/-- The `except NexusMcpError` of `on_call_tool`. -/
def reject [Sha256] (self : McpServer) (context : RequestContext) (scope : McpEndpointScope)
    (access : Option ResolvedToolsetAccess) (params : CallToolRequestParams) (cls : ErrorClass)
    (mode : Option ToolRetrievalMode := none) : Program (ObservedAnswer CallAnswer) := do
  let audited ← (self.recordScopeDenial context scope access params cls).attempt
  return {
    answer := audited.map fun _ => .result (toCallToolError cls.safe)
    completion := some {
      outcome := "rejected", errorCode := some cls.code, searchMode := mode } }

/-! ## Searching -/

/-- The query of a call of the meta tool. -/
def searchQuery (self : McpServer) (context : RequestContext)
    (access : Option ResolvedToolsetAccess) (params : CallToolRequestParams) :
    Except Exc SearchToolsQuery := do
  raiseIf (! self.isMetaSearchVisible access) (.nexus .toolsetAccessDenied
    "Meta Tool was outside the requested endpoint discovery mode")
  let query ← parseSearchToolsQuery context.toActorContext params.givenArguments
  return match access with
    | none => query
    -- The search itself is confined to the endpoint, before its result is filtered. The set of
    -- identifiers is a sorted list already.
    | some access => { query with eligibleToolIds := some access.availableToolIds }

/-- The body of the `try` around a search, with the mode it was observed with. -/
def trySearch (self : McpServer) (search : SearchToolsQuery → Except Exc SearchToolsResult)
    (context : RequestContext) (access : Option ResolvedToolsetAccess)
    (params : CallToolRequestParams) :
    Option ToolRetrievalMode × Except Exc SearchToolsResult :=
  match self.searchQuery context access params with
  | .error e => (none, .error e)
  | .ok query =>
    (some query.retrievalMode, (search query).map fun result =>
      match access with
      | none => result
      | some access => filterSearchResult result access)

/-- The branch of `on_call_tool` for the meta tool. -/
def serveSearch [Sha256] (self : McpServer) (context : RequestContext) (scope : McpEndpointScope)
    (access : Option ResolvedToolsetAccess) (params : CallToolRequestParams) :
    Program (ObservedAnswer CallAnswer) :=
  match self.searchTools with
  | none => return rejected .base
  | some search =>
    match self.trySearch search context access params with
    | (mode, .ok result) => return {
        answer := .ok (.search (searchToolsResult result))
        completion := some { outcome := "success", searchMode := mode } }
    | (mode, .error (.nexus cls _)) => self.reject context scope access params cls mode
    | (mode, .error .cancelled) => return unfinished .cancelled mode
    | (mode, .error _) => return failed mode

/-! ## Calling -/

/-- The content of an accepted answer confirms the approval. -/
def confirms (content : Option JsonObject) : Bool :=
  match content.bind (·.get "approved") with
  | some (.bool true) => true
  | _ => false

/-- `_resolve_interactive_approval`, up to its decision. -/
def approvalDecision (self : McpServer) (context : RequestContext)
    (params : CallToolRequestParams) : Except Exc (Option DecideApprovalCommand) :=
  match params.inputResponses, params.requestState with
  | none, _ => .ok none
  | some _, none =>
    .error (.nexus .approvalMismatch "approval input was missing trusted request state")
  | some responses, some approvalId => do
    raiseIf (! self.hasDecideApproval)
      (.nexus .approvalMismatch "approval input was missing trusted request state")
    -- The keys of the responses as a set.
    raiseIf ((responses.map Prod.fst).dedup ≠ ["approval"])
      (.nexus .approvalMismatch "approval input response keys did not match request")
    match responses.lookup "approval" with
    | some (.elicit .accept content) =>
      raiseIf (! confirms content)
        (.nexus .approvalMismatch "accepted approval input did not confirm approval")
      return some { context := context.toActorContext, approvalId, approved := true }
    -- A declined or cancelled input rejects the approval.
    | some (.elicit _ _) =>
      return some { context := context.toActorContext, approvalId, approved := false }
    | _ => .error (.nexus .approvalMismatch "approval input response had an invalid type")

/-- `_resolve_interactive_approval`. -/
def resolveInteractiveApproval (self : McpServer) (context : RequestContext)
    (params : CallToolRequestParams) : Program Unit := do
  match ← lift (self.approvalDecision context params) with
  | none => pure ()
  | some decision => do
    let _ ← DecideApproval.execute decision
    pure ()

/-- `_idempotency_key`. -/
def idempotencyKey (params : CallToolRequestParams) : Except Exc (Option String) :=
  match (params.metadata.getD []).get "com.nexusmcp/idempotencyKey" with
  | none | some .null => .ok none
  | some (.str key) =>
    if isValidIdempotencyKey key then .ok (some key)
    else .error (.nexus .invalidArguments "idempotency key metadata was invalid")
  | some _ => .error (.nexus .invalidArguments "idempotency key metadata was invalid")

/-- The command of a call. -/
def commandFields (context : RequestContext) (access : Option ResolvedToolsetAccess)
    (params : CallToolRequestParams) (key : Option String) : CallToolCommandFields where
  context := context.toActorContext
  toolName := params.name
  arguments := params.givenArguments
  idempotencyKey := key
  approvalId := params.requestState
  mcpScopeType := executionScopeType access
  toolsetId := access.bind (·.toolsetId)
  toolsetRevision := access.bind (·.toolsetRevision)

/-- `access.require_business_tool`, where there is a scope. -/
def requireInScope (access : Option ResolvedToolsetAccess) (name : String) : Except Exc Unit :=
  match access with
  | none => .ok ()
  | some access => access.requireBusinessTool name

/-- The body of the `try` around a call. -/
def tryCall [Sha256] (self : McpServer) (callTool : CallTool) (context : RequestContext)
    (access : Option ResolvedToolsetAccess) (params : CallToolRequestParams) :
    Program CallToolResult := do
  lift (requireInScope access params.name)
  -- The scope is checked before the answer of the client decides anything.
  self.resolveInteractiveApproval context params
  -- The decision above stands even where the key or the command is refused.
  let key ← lift (idempotencyKey params)
  let command : CallToolCommand ← lift (construct (commandFields context access params key))
  callTool.execute command

/-- What a call ended with, as the client is answered it. -/
def answerCall [Sha256] (self : McpServer) (context : RequestContext) (scope : McpEndpointScope)
    (access : Option ResolvedToolsetAccess) (params : CallToolRequestParams) :
    Except Exc CallToolResult → Program (ObservedAnswer CallAnswer)
  | .ok result => return {
      answer := .ok (.result (callResult result context))
      completion := some { outcome := "success" } }
  -- The more special `except` comes first, and records no denial.
  | .error (.nexus (.approvalRequired approvalId expiresAt) _) =>
    match context.protocolEra, approvalId with
    | .modern, some approvalId => return {
        answer := .ok (.inputRequired (approvalInputRequired params.name approvalId expiresAt))
        completion := some { outcome := "input_required" } }
    | _, _ => return rejected (ErrorClass.approvalRequired approvalId expiresAt).safe
  | .error (.nexus cls _) => self.reject context scope access params cls
  | .error .cancelled => return unfinished .cancelled
  | .error _ => return failed none

/-- The branch of `on_call_tool` for a business tool. -/
def serveCall [Sha256] (self : McpServer) (context : RequestContext) (scope : McpEndpointScope)
    (access : Option ResolvedToolsetAccess) (params : CallToolRequestParams) :
    Program (ObservedAnswer CallAnswer) :=
  match self.callTool with
  | none => return rejected .base
  | some callTool => do
    let outcome ← (self.tryCall callTool context access params).attempt
    self.answerCall context scope access params outcome

/-! ## Requests -/

/-- The part of `on_call_tool` that is observed. -/
def serve [Sha256] (self : McpServer) (ctx : RawServerContext) (context : RequestContext)
    (params : CallToolRequestParams) : Program (ObservedAnswer CallAnswer) :=
  match resolveEndpointScope ctx with
  -- A slug that is invalid is raised outside every `try`.
  | .error e => return unfinished e
  | .ok scope =>
    match self.accessFor context scope with
    | .error (.nexus cls _) => self.reject context scope none params cls
    | .error e => return unfinished e
    | .ok access =>
      if params.name = nexusSearchToolsName then self.serveSearch context scope access params
      else self.serveCall context scope access params

/-- `on_call_tool`. -/
def onCallTool [Sha256] (self : McpServer) (ctx : RawServerContext)
    (params : CallToolRequestParams) : Program (ObservedAnswer CallAnswer) :=
  match self.contextResolver ctx with
  | .error (.nexus cls _) =>
    return { answer := .ok (.result (toCallToolError cls.safe)), completion := none }
  | .error e => return unfinished e
  | .ok context => do
    let served ← self.serve ctx (context.observed ctx) params
    return served.observe

end McpServer

end NexusMcp
