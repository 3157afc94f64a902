-- SUMMARY: The requests and the answers of the MCP boundary, and the answer for an error.
import NexusMcp.ToolSearch.SearchTools

/-!
# The MCP Boundary

What the SDK hands over with a request and what it is given back. The context of a
request is what the resolver that the application configured makes of it.
-/

namespace NexusMcp

/-! ## Requests -/

inductive ProtocolEra where
  | modern
  | legacy
deriving Repr, DecidableEq

def ProtocolEra.value : ProtocolEra → String
  | modern => "modern"
  | legacy => "legacy"

structure RequestContext extends ActorContext where
  protocolVersion : String
  protocolEra : ProtocolEra
  policySnapshot : Option String := none
deriving DecidableEq

/-- A request as it comes in: the path parameters of its route, its headers, its
    identifier and its protocol version. `spanTraceId` is the trace of the span that
    observes it. -/
structure RawServerContext where
  pathParams : Option JsonObject := none
  headers : List (String × String) := []
  requestId : Option String := none
  protocolVersion : String
  spanTraceId : Option String := none

/-- `resolve_endpoint_scope`. -/
def resolveEndpointScope (ctx : RawServerContext) : Except Exc McpEndpointScope :=
  match ctx.pathParams.bind (·.get "toolset_slug") with
  -- A route without a slug is the root.
  | none | some .null => .ok .root
  | some (.str slug) =>
    if h : slug ≠ "" then .ok (.toolset slug h)
    else .error (.valueError "toolset endpoint path contained an invalid slug")
  | some _ => .error (.valueError "toolset endpoint path contained an invalid slug")

def McpEndpointScope.slug? : McpEndpointScope → Option String
  | root => none
  | toolset slug _ => some slug

def McpEndpointScope.type : McpEndpointScope → McpScopeType
  | root => .root
  | toolset _ _ => .toolset

/-- `replace(request_context, trace_id=...)`. -/
def RequestContext.observed (context : RequestContext) (ctx : RawServerContext) : RequestContext :=
  { context with traceId := ctx.spanTraceId.getD context.traceId }

inductive ElicitAction where
  | accept
  | decline
  | cancel
deriving Repr, DecidableEq

/-- The answer to an input request: an `ElicitResult`, or a result of another type. -/
inductive InputResponse where
  | elicit (action : ElicitAction) (content : Option JsonObject)
  | other

/-- `input_responses` is a dictionary, and `metadata` is the field `meta`. -/
structure CallToolRequestParams where
  name : String
  arguments : Option JsonObject := none
  inputResponses : Option (List (String × InputResponse)) := none
  requestState : Option String := none
  metadata : Option JsonObject := none

/-- `params.arguments or {}`. -/
def CallToolRequestParams.givenArguments (params : CallToolRequestParams) : JsonObject :=
  params.arguments.getD []

/-! ## Answers -/

/-- `types.Tool`. -/
structure ProtocolTool where
  name : String
  title : String
  description : String
  inputSchema : JsonObject
  outputSchema : Option JsonObject
  metadata : JsonObject

/-- `types.CallToolResult` with one text. A missing structured content is `null`. -/
structure ToolResult where
  text : String
  isError : Bool := false
  structuredContent : Json := .null
  metadata : JsonObject

structure ElicitRequest where
  message : String
  requestedSchema : JsonObject

/-- `types.InputRequiredResult`, with the approval in its metadata. -/
structure InputRequiredResult where
  inputRequests : List (String × ElicitRequest)
  requestState : Id
  approvalId : Id
  approvalExpiresAt : Option Time

/-- A candidate in the answer of the meta tool. -/
structure ToolCandidate where
  name : String
  title : String
  description : String
  namespaceName : String
  owner : Option String
  tags : List String
  version : Nat
  sideEffect : String
  inputSchema : JsonObject
  outputSchema : Option JsonObject
  toolId : Id
  toolVersionId : Id
  rank : Rat

/-- The structured content of the meta tool, and the index version in its metadata. -/
structure SearchAnswer where
  retrievalMode : ToolRetrievalMode
  tools : List ToolCandidate
  indexVersion : Option String

inductive CallAnswer where
  | result (result : ToolResult)
  | search (answer : SearchAnswer)
  | inputRequired (result : InputRequiredResult)

/-! ## Errors -/

/-- The class attributes of an error, and the execution that an idempotency error names. -/
structure SafeError where
  code : String
  safeMessage : String
  existingExecutionId : Option Id := none
deriving Repr, DecidableEq

/-- The execution of an `IdempotencyExecutionError`. -/
def ErrorClass.existingExecutionId? : ErrorClass → Option Id
  | idempotencyConflict id | idempotencyInProgress id | idempotencyAlreadyCompleted id
  | idempotencyOutcomeUnknown id | idempotencyPreviousFailed id => some id
  | _ => none

def ErrorClass.safe (cls : ErrorClass) : SafeError where
  code := cls.code
  safeMessage := cls.safeMessage
  existingExecutionId := cls.existingExecutionId?

/-- `NexusMcpError` itself. -/
def SafeError.base : SafeError where
  code := "nexusmcp_error"
  safeMessage := "The request could not be completed."

/-- `to_call_tool_error`. -/
def toCallToolError (error : SafeError) : ToolResult where
  text := error.safeMessage
  isError := true
  metadata := ("com.nexusmcp/errorCode", .str error.code) ::
    (error.existingExecutionId.map fun id => ("com.nexusmcp/existingExecutionId", .str id)).toList

/-- The subclasses of `ToolsetScopeError`, and itself. -/
def ErrorClass.isToolsetScope : ErrorClass → Bool
  | toolsetScope | toolsetNotFound | toolsetMemberUnavailable | toolsetNotActive
  | toolsetAccessDenied => true
  | _ => false

/-! ## Results -/

mutual

/-- `json.dumps` with `ensure_ascii=False` and the compact separators. -/
def Json.compact : Json → String
  | .null => "null"
  | .bool true => "true"
  | .bool false => "false"
  | .int i => toString i
  | .float repr =>
    if repr = "nan" then "NaN" else if repr = "inf" then "Infinity"
    else if repr = "-inf" then "-Infinity" else repr
  | .str s => quoteString s
  | .arr items => "[" ++ String.intercalate "," (Json.compactItems items) ++ "]"
  | .obj fields => "\x7b" ++ String.intercalate "," (Json.compactFields fields) ++ "\x7d"

def Json.compactItems : List Json → List String
  | [] => []
  | item :: items => item.compact :: Json.compactItems items

def Json.compactFields : List (String × Json) → List String
  | [] => []
  | (name, value) :: fields =>
    (quoteString name ++ ":" ++ value.compact) :: Json.compactFields fields

end

/-- The text of a result. -/
def resultText : Json → String
  | .str text => text
  | data => data.compact

/-- `_protocol_structured_content`. -/
def protocolStructuredContent (data : Json) (context : RequestContext) : Json :=
  match context.protocolEra, data with
  | .legacy, .obj fields => .obj fields
  | .legacy, _ => .null
  | .modern, data => data

/-- `_protocol_output_schema`. -/
def protocolOutputSchema (schema : Option JsonObject) (context : RequestContext) :
    Option JsonObject :=
  schema.filter fun schema =>
    -- A legacy client is shown no schema that is not one of an object.
    ! (context.protocolEra = .legacy ∧ isNotObjectSchema schema)

/-- The answer for a call that returned. -/
def callResult (result : CallToolResult) (context : RequestContext) : ToolResult where
  text := resultText result.data
  structuredContent := protocolStructuredContent result.data context
  metadata := [
    ("com.nexusmcp/executionId", .str result.executionId),
    ("com.nexusmcp/upstreamStatus",
      (result.upstreamStatus.map fun status => Json.int status).getD .null),
    ("com.nexusmcp/attemptCount", .int result.attemptCount)]

/-- `_approval_input_required`. -/
def approvalInputRequired (toolName : String) (approvalId : Id) (expiresAt : Option Time) :
    InputRequiredResult where
  inputRequests := [("approval", {
    message := "Approve one call to " ++ toolName ++ "?"
    requestedSchema := [
      ("type", .str "object"),
      ("properties", .obj [("approved", .obj [
        ("type", .str "boolean"), ("title", .str "Approve this tool call")])]),
      ("required", .arr [.str "approved"]),
      ("additionalProperties", .bool false)] })]
  requestState := approvalId
  approvalId := approvalId
  approvalExpiresAt := expiresAt

/-! ## Observations -/

/-- What the span and the metrics of a request are finished with. -/
structure Completion where
  outcome : String
  errorCode : Option String := none
  searchMode : Option ToolRetrievalMode := none
deriving DecidableEq

/-- How a request ended, and the first `finish` of its observation. -/
structure ObservedAnswer (α : Type) where
  answer : Except Exc α
  completion : Option Completion

/-- `observe_mcp_request`: what was not finished is finished when the request leaves. -/
def ObservedAnswer.observe {α : Type} (served : ObservedAnswer α) : ObservedAnswer α :=
  { served with
    completion := some <| served.completion.getD <| match served.answer with
      | .ok _ => { outcome := "success" }
      | .error _ => { outcome := "error", errorCode := some "unexpected_error" } }

end NexusMcp
