-- SUMMARY: The executor of HTTP bindings: the mapping of arguments to a request, and of the response.
import NexusMcp.Execution.Store
import NexusMcp.Networking.Contacted
import NexusMcp.Net.Replace

/-!
# The HTTP Executor

The client is not part of the model: the executor makes a request for it, and reads
the exchange that it reports.
-/

namespace NexusMcp

open Net (Text Unicode quote replaceAll)

/-! ## Values as texts -/

/-- `str` of a list or of a dictionary. -/
class PyStr where
  container : Json → String

/-- `str(value)`. -/
def pyStr [PyStr] : Json → String
  | .null => "None"
  | .bool true => "True"
  | .bool false => "False"
  | .int i => toString i
  | .float repr => repr
  | .str s => s
  | value => PyStr.container value

/-- `str(fields.get(name, ""))`. -/
def textField [PyStr] (fields : JsonObject) (name : String) : String :=
  (fields.get name).elim "" pyStr

/-- `fields.get(name) is True`. -/
def isTrue (fields : JsonObject) (name : String) : Bool := fields.get name matches some (.bool true)

/-- A dictionary of texts, in the order of insertion. -/
abbrev TextDict := List (String × String)

/-- `d[name] = value`. -/
def TextDict.set (d : TextDict) (name value : String) : TextDict :=
  if d.any (·.1 = name) then d.map fun e => if e.1 = name then (name, value) else e
  else d ++ [(name, value)]

def executorFailure {α : Type} (code : String) (category : ExecutionErrorCategory) :
    Except Exc α :=
  .error (.executorFailure { code := code, category := category })

/-! ## The mapping of the arguments -/

/-- What the arguments are mapped to. -/
structure MappedArguments where
  path : Text
  query : TextDict := []
  headers : TextDict := []

/-- `"{" + upstream_name + "}"`. -/
def placeholder (upstreamName : String) : Text := '{' :: (upstreamName.toList ++ ['}'])

section Mapping

variable [PyStr]

/-- An argument goes where the parameter says. -/
def mapValue (upstreamName location value : String) (mapped : MappedArguments) :
    Except Exc MappedArguments :=
  if location = "path" then
    if placeholder upstreamName <:+: mapped.path then
      .ok { mapped with
        path := replaceAll (placeholder upstreamName) (quote value.toList) mapped.path }
    else executorFailure "path_parameter_placeholder_missing" .validation
  else if location = "query" then
    .ok { mapped with query := mapped.query.set upstreamName value }
  else if location = "header" then
    .ok { mapped with headers := mapped.headers.set upstreamName value }
  else executorFailure "unsupported_parameter_location" .validation

/-- One round of the loop over the parameters. -/
def mapParameter (arguments : JsonObject) (mapped : MappedArguments) :
    Json → Except Exc MappedArguments
  | .obj parameter =>
    match arguments.get (textField parameter "argument_name") with
    | none =>
      if isTrue parameter "required" then
        executorFailure "required_argument_missing_after_validation" .validation
      else .ok mapped
    | some value =>
      mapValue (textField parameter "upstream_name") (textField parameter "location")
        (pyStr value) mapped
  | _ => executorFailure "invalid_parameter_mapping" .validation

/-- `_map_arguments`. -/
def mapArguments (pathTemplate : String) (rawParameters : Option Json) (arguments : JsonObject) :
    Except Exc MappedArguments :=
  match rawParameters with
  | some (.arr parameters) =>
    parameters.foldlM (mapParameter arguments) { path := pathTemplate.toList }
  | _ => executorFailure "invalid_parameter_mapping" .validation

/-- `_map_request_body`. -/
def mapRequestBody (method : String) (rawRequestBody : Option Json) (arguments : JsonObject) :
    Except Exc (Option Json) :=
  if method = "GET" then .ok none
  else
    match rawRequestBody with
    | some (.obj requestBody) =>
      if JsonObject.get requestBody "content_type" matches some (.str "application/json") then
        match arguments.get (textField requestBody "argument_name") with
        | none =>
          if isTrue requestBody "required" then
            executorFailure "required_request_body_missing_after_validation" .validation
          else .ok none
        | some value => .ok (some value)
      else executorFailure "unsupported_request_body_content_type" .validation
    | _ => executorFailure "put_binding_requires_json_body" .validation

end Mapping

/-! ## The request -/

/-- `name.lower() == other.lower()`. -/
def SameHeader [Unicode] (name other : String) : Prop :=
  Unicode.lower name.toList = Unicode.lower other.toList

instance [Unicode] (name other : String) : Decidable (SameHeader name other) :=
  inferInstanceAs (Decidable (_ = _))

/-- `_set_trusted_header`. Header names differ by more than their case. -/
def setTrustedHeader [Unicode] (headers : TextDict) (name value : String) : TextDict :=
  TextDict.set (headers.filter fun e => ¬ SameHeader e.1 name) name value

/-- `_inject_credential`. -/
def injectCredential [Unicode] (credential : Option ResolvedCredential) (mapped : MappedArguments) :
    MappedArguments :=
  match credential with
  | none => mapped
  | some credential =>
    let value := match credential.valueFormat with
      | .raw => credential.value.val
      | .bearer => "Bearer " ++ credential.value.val
    match credential.injectionLocation with
    | .header => { mapped with
        headers := setTrustedHeader mapped.headers credential.injectionName value }
    | .query => { mapped with query := mapped.query.set credential.injectionName value }

namespace HttpxToolExecutor

/-- The checks before the endpoint is validated again: they return the method. -/
def checkedMethod [PyStr] (request : ExecutorRequest) : Except Exc String := do
  let tool := request.val.tool
  raiseIf (tool.bindingType ≠ .http)
    (.executorFailure { code := "unsupported_binding_type", category := .validation })
  let method := upperAscii (textField tool.bindingConfig "method")
  raiseIf (method ∉ ["GET", "PUT"])
    (.executorFailure { code := "write_execution_not_enabled", category := .authorization })
  raiseIf (method = "PUT" ∧ tool.sideEffect ≠ .idempotentWrite)
    (.executorFailure
      { code := "put_tool_must_be_idempotent_write", category := .authorization })
  raiseIf (method = "PUT" ∧ request.val.idempotencyKey = none)
    (.executorFailure { code := "idempotency_key_required", category := .validation })
  raiseIf (method = "GET" ∧ ¬ (tool.bindingConfig.get "request_body" matches none | some .null))
    (.executorFailure
      { code := "get_binding_must_not_have_request_body", category := .validation })
  return method

/-- The endpoint is checked again right before it is contacted. -/
def recheckEndpoint (endpointPolicy : UpstreamEndpointPolicy) (endpoint : String) :
    Except Exc Unit :=
  match endpointPolicy endpoint with
  | .error (.nexus .unsafeUpstreamEndpoint _) =>
    executorFailure "unsafe_upstream_endpoint" .authorization
  | result => result

/-- The request that the client is given, whose path starts with a slash. -/
def buildRequest [PyStr] [Unicode] (request : ExecutorRequest)
    (credential : Option ResolvedCredential) (method : String) : Except Exc HttpRequest := do
  let tool := request.val.tool
  let config := tool.bindingConfig
  let pathTemplate := textField config "path_template"
  raiseIf (¬ pathTemplate.toList.head? = some '/')
    (.executorFailure { code := "invalid_path_template", category := .validation })
  let mapped ← mapArguments pathTemplate (config.get "parameters") request.val.arguments
  let body ← mapRequestBody method (config.get "request_body") request.val.arguments
  let mapped := match request.val.idempotencyKey with
    | none => mapped
    | some key => { mapped with headers := setTrustedHeader mapped.headers "Idempotency-Key" key }
  let mapped := injectCredential credential mapped
  return {
    method := method
    url := String.ofList (upstreamUrl tool.upstreamEndpoint.toList mapped.path)
    params := mapped.query
    headers := mapped.headers
    -- No body is a body of `None`.
    json := body.getD .null
    timeout := request.val.timeoutSeconds }

/-- The part of `execute` before the exchange. -/
def prepare [PyStr] [Unicode] (endpointPolicy : UpstreamEndpointPolicy) (request : ExecutorRequest)
    (credential : Option ResolvedCredential) : Except Exc HttpRequest := do
  let method ← checkedMethod request
  recheckEndpoint endpointPolicy request.val.tool.upstreamEndpoint
  buildRequest request credential method

end HttpxToolExecutor

/-! ## The response -/

namespace HttpxToolExecutor

/-- `f"upstream_{response.status_code}"`. -/
def upstreamCode (statusCode : Nat) : String := "upstream_" ++ toString statusCode

def upstreamFailure {α : Type} (category : ExecutionErrorCategory) (statusCode : Nat) :
    Except Exc α :=
  .error (.executorFailure {
    code := upstreamCode statusCode
    category := category
    upstreamStatus := some statusCode })

/-- The decoded content of a response with a status of success. -/
def readContent (response : HttpResponse) : Except Exc Json :=
  if response.mediaType = some "application/json" then
    match response.json with
    | .error (.valueError _) => executorFailure "upstream_invalid_json" .unknown
    | result => result
  else .ok (.str response.text)

/-- What a response of any status means. -/
def readResponse (maxResponseBytes : Nat) (response : HttpResponse) :
    Except Exc ExecutorResult := do
  let status := response.statusCode
  if 400 ≤ status ∧ status < 500 then upstreamFailure .upstream4xx status
  else if 500 ≤ status then upstreamFailure .upstream5xx status
  else if ¬ (200 ≤ status ∧ status < 300) then upstreamFailure .unknown status
  else if maxResponseBytes < response.contentLength then
    executorFailure "upstream_response_too_large" .unknown
  else
    let data ← readContent response
    return {
      data := data
      contentType := response.mediaType
      upstreamStatus := some status }

/-- The part of `execute` after the request was sent. -/
def readOutcome (maxResponseBytes : Nat) : HttpOutcome → Except Exc ExecutorResult
  | .response response => readResponse maxResponseBytes response
  | .timeoutException => .error (.executorFailure {
      code := "upstream_timeout"
      category := .timeoutAfterSend
      outcomeUnknown := true })
  | .networkError => executorFailure "upstream_network_error" .network
  | .raised error => .error error

end HttpxToolExecutor

/-! ## The executor -/

structure HttpxToolExecutor where
  client : HttpRequest → HttpOutcome
  endpointPolicy : UpstreamEndpointPolicy := fun _ => .ok ()
  maxResponseBytes : Nat := 1048576
  maxResponseBytes_pos : 0 < maxResponseBytes := by decide

def HttpxToolExecutor.execute [PyStr] [Unicode] (self : HttpxToolExecutor)
    (request : ExecutorRequest) (credential : Option ResolvedCredential) :
    Except Exc ExecutorResult := do
  let httpRequest ← prepare self.endpointPolicy request credential
  readOutcome self.maxResponseBytes (self.client httpRequest)

end NexusMcp
