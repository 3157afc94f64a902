-- SUMMARY: The parser of OpenAPI documents: references, parameters, bodies, responses and tool names.
import NexusMcp.OpenApi.Domain
import NexusMcp.Net.Replace

/-!
# Parsing OpenAPI Documents

The parser follows local references through the document, at most `maxRefDepth` nodes
deep, and puts together what a draft tool needs of each operation.
-/

namespace NexusMcp

open Net (replaceAll)

/-! ## Dictionaries -/

namespace JsonObject

/-- `fields[name] = value`. -/
def set (fields : JsonObject) (name : String) (value : Json) : JsonObject :=
  if fields.any (·.1 = name) then
    fields.map fun field => if field.1 = name then (name, value) else field
  else fields ++ [(name, value)]

/-- The dictionary with the entries of `fields` and those of `overrides` over them. -/
def merge (fields overrides : JsonObject) : JsonObject :=
  overrides.foldl (fun merged field => merged.set field.1 field.2) fields

end JsonObject

namespace OpenApiParser

/-- `_HTTP_METHODS`. -/
def httpMethods : List String := ["get", "post", "put", "patch", "delete"]

/-- `_PARAMETER_LOCATIONS`. -/
def parameterLocations : List String := ["path", "query", "header"]

/-- `_SIDE_EFFECTS`. -/
def sideEffects : List String :=
  ["read_only", "idempotent_write", "non_idempotent_write", "unknown"]

/-- `_MAX_REF_DEPTH`. -/
def maxRefDepth : Nat := 32

/-! ## Checks of values -/

/-- `_require_mapping`. -/
def requireMapping (value : Json) (fieldName : String) : Except Exc JsonObject :=
  match value with
  | .obj fields => .ok fields
  | _ => .error (openApiDocumentInvalid (fieldName ++ " must be an object"))

/-- `_require_sequence`. -/
def requireSequence (value : Json) (fieldName : String) : Except Exc (List Json) :=
  match value with
  | .arr items => .ok items
  | _ => .error (openApiDocumentInvalid (fieldName ++ " must be an array"))

/-- `mapping.get(name)`, with `None` as null. -/
def getOrNull (fields : JsonObject) (name : String) : Json := (fields.get name).getD .null

/-- `_string_list`. -/
def stringList (value : Json) : Except Exc (List String) := do
  (← requireSequence value "string list").mapM fun
    | .str item => .ok item
    | _ => .error (openApiDocumentInvalid "OpenAPI string list contained non-string value")

/-- `_optional_text`. -/
def optionalText (value : Json) : Json :=
  match value with
  | .str text => if isBlank text then .null else .str text
  | _ => .null

/-! ## References -/

/-- One part of a JSON pointer. -/
def unescapePart (part : List Char) : String :=
  String.ofList (replaceAll "~0".toList "~".toList (replaceAll "~1".toList "/".toList part))

/-- `_resolve_pointer`. -/
def resolvePointer (document : JsonObject) (reference : String) : Except Exc Json :=
  (((reference.toList.drop 2).splitOn '/').map unescapePart).foldlM
    (fun current part =>
      match current with
      | .obj fields =>
        match JsonObject.get fields part with
        | some value => .ok value
        | none => notFound
      | _ => notFound)
    (.obj document)
where
  notFound : Except Exc Json :=
    .error (openApiDocumentInvalid ("OpenAPI reference " ++ reference ++ " was not found"))

/-- The keys that `_resolve_node` leaves out of every object. -/
def droppedKeys : List String := ["example", "examples"]

/-- `_resolve_node`, with what is left of the depth. -/
def resolveNode (document : JsonObject) : Nat → List String → Json → Except Exc Json
  | 0, _, _ => .error (openApiFeatureUnsupported "OpenAPI reference depth exceeded")
  | depth + 1, stack, value =>
    match value with
    | .arr items => do
      return .arr (← items.mapM (resolveNode document depth stack))
    | .obj fields =>
      match getOrNull fields "$ref" with
      | .null => do
        -- The stack is handed on as it is: only references that are being followed make a cycle.
        return .obj (← (fields.filter (·.1 ∉ droppedKeys)).mapM fun field => do
          return (field.1, ← resolveNode document depth stack field.2))
      | .str reference => do
        raiseIf (¬ "#/".toList <+: reference.toList)
          (openApiFeatureUnsupported "only local OpenAPI references are supported")
        raiseIf (reference ∈ stack)
          (openApiFeatureUnsupported "cyclic OpenAPI references are not supported")
        let target ← resolvePointer document reference
        let resolved ← requireMapping
          (← resolveNode document depth (stack ++ [reference]) target) ("reference " ++ reference)
        -- The siblings of a reference override what it stands for.
        match ← resolveNode document depth stack (.obj (fields.filter (·.1 ≠ "$ref"))) with
        | .obj siblings => return .obj (resolved.merge siblings)
        | _ => .error (.other "TypeError")
      | _ => .error (openApiFeatureUnsupported "only local OpenAPI references are supported")
    | _ => return value

/-- `_resolve_node` as the parser calls it. -/
def resolve (document : JsonObject) (value : Json) : Except Exc Json :=
  resolveNode document (maxRefDepth + 1) [] value

/-! ## Names -/

/-- `_CAMEL_BOUNDARY.sub`. -/
def splitCamel : List Char → List Char
  | c :: d :: rest =>
    if ('a' ≤ c ∧ c ≤ 'z' ∨ '0' ≤ c ∧ c ≤ '9') ∧ 'A' ≤ d ∧ d ≤ 'Z' then
      c :: '_' :: splitCamel (d :: rest)
    else c :: splitCamel (d :: rest)
  | text => text

def isIdentifierChar (c : Char) : Bool :=
  ('a' ≤ c ∧ c ≤ 'z') ∨ ('A' ≤ c ∧ c ≤ 'Z') ∨ ('0' ≤ c ∧ c ≤ '9')

/-- `_NON_IDENTIFIER.sub`: each run of other characters becomes one underscore. -/
def joinIdentifiers : Bool → List Char → List Char
  | _, [] => []
  | inRun, c :: rest =>
    if isIdentifierChar c then c :: joinIdentifiers false rest
    else if inRun then joinIdentifiers true rest
    else '_' :: joinIdentifiers true rest

/-- The text with its identifiers joined, `strip("_")` and `lower`. -/
def snake (text : List Char) : String :=
  String.ofList ((((joinIdentifiers false text).dropWhile (· = '_')).rdropWhile (· = '_')).map
    Char.toLower)

/-- `_argument_name`. -/
def argumentName (name : String) : String := snake name.toList

/-- `_generated_tool_name`. -/
def generatedToolName (namespaceName : String) (operationId : Option String)
    (method path : String) : String :=
  let candidate := operationId.getD (method ++ "_" ++ path)
  namespaceName ++ "." ++ snake (splitCamel candidate.toList)

/-- `_side_effect`. -/
def sideEffect (operation : JsonObject) (method : String) : String :=
  let default :=
    if method = "get" then "read_only"
    else if method ∈ ["put", "delete"] then "idempotent_write"
    else if method = "post" then "non_idempotent_write"
    else "unknown"
  match operation.get "x-nexusmcp-side-effect" with
  | some (.str declared) => if declared ∈ sideEffects then declared else default
  | _ => default

/-- `_normalize_security`. -/
def normalizeSecurity (value : Json) : Except Exc Json := do
  match value with
  | .null => return .arr []
  | _ =>
    let requirements ← requireSequence value "security requirements"
    return .arr (← requirements.mapM fun requirement => do
      let mapping ← requireMapping requirement "security requirement"
      return .obj (← mapping.mapM fun field => do
        return (field.1, .arr ((← stringList field.2).map .str))))

/-! ## Parameters -/

/-- A key of a dictionary: lists and dictionaries have no hash. -/
def requireHashable (value : Json) : Except Exc Unit :=
  match value with
  | .arr _ | .obj _ => .error (.other "TypeError")
  | _ => .ok ()

/-- Equal keys. A float is compared by its text: a parameter whose name or location is a number
    is skipped, so it does not matter which of them are one. -/
def sameKey : Json → Json → Bool
  | .str s, .str t => s = t
  | .null, .null => true
  | .float s, .float t => s = t
  | .int i, .int j => i = j
  | .bool b, .bool c => b = c
  | .int i, .bool b | .bool b, .int i => i = if b then 1 else 0
  | _, _ => false

/-- `(parameter.get("name"), parameter.get("in"))`. -/
def parameterKey (parameter : JsonObject) : Json × Json :=
  (getOrNull parameter "name", getOrNull parameter "in")

/-- `merged[key] = parameter`. -/
def setParameter (merged : List JsonObject) (parameter : JsonObject) : List JsonObject :=
  let same (other : JsonObject) : Bool :=
    sameKey (parameterKey other).1 (parameterKey parameter).1 &&
      sameKey (parameterKey other).2 (parameterKey parameter).2
  if merged.any same then merged.map fun other => if same other then parameter else other
  else merged ++ [parameter]

/-- `_merge_parameters`. -/
def mergeParameters (pathParameters operationParameters : List Json) (document : JsonObject) :
    Except Exc (List JsonObject) :=
  (pathParameters ++ operationParameters).foldlM
    (fun merged rawParameter => do
      let parameter ← requireMapping (← resolve document rawParameter) "OpenAPI parameter"
      requireHashable (parameterKey parameter).1
      requireHashable (parameterKey parameter).2
      return setParameter merged parameter)
    []

/-- What the parameters of an operation add up to. -/
structure ParameterState where
  conflict : OperationConflictStatus
  normalizedParameters : List Json := []
  inputProperties : JsonObject := []
  requiredArguments : List String := []

/-- One round of the loop over the parameters. -/
def normalizeParameter (document : JsonObject) (state : ParameterState) (parameter : JsonObject) :
    Except Exc ParameterState := do
  match getOrNull parameter "in", getOrNull parameter "name" with
  | .str location, .str name =>
    if location ∈ parameterLocations ∧ name ≠ "" then
      let plain := argumentName name
      -- Only a name that is taken gets its location in front, and the longer one is not checked.
      let argument :=
        if state.inputProperties.any (·.1 = plain) then location ++ "_" ++ plain else plain
      let schema ← requireMapping ((parameter.get "schema").getD (.obj [])) "parameter schema"
      let resolvedSchema ← resolve document (.obj schema)
      -- `is True`: no other value makes a parameter required.
      let required := location = "path" ∨ parameter.get "required" matches some (.bool true)
      return { state with
        normalizedParameters := state.normalizedParameters ++ [.obj [
          ("argument_name", .str argument),
          ("upstream_name", .str name),
          ("location", .str location),
          ("required", .bool required),
          ("schema", resolvedSchema)]]
        inputProperties := state.inputProperties.set argument resolvedSchema
        requiredArguments := state.requiredArguments ++ if required then [argument] else [] }
    -- The parameter is skipped, and the operation is marked.
    else return { state with conflict := .unsupported }
  | _, _ => return { state with conflict := .unsupported }

/-! ## Bodies and responses -/

/-- The body of a request that is sent as JSON. -/
structure RequestBody where
  required : Bool
  schema : Json

def RequestBody.toJson (self : RequestBody) : Json :=
  .obj [("argument_name", .str "body"), ("required", .bool self.required),
    ("content_type", .str "application/json"), ("schema", self.schema)]

/-- `_normalize_request_body`: the body, and whether it is one that is not supported. -/
def normalizeRequestBody (rawRequestBody : Json) (document : JsonObject) :
    Except Exc (Option RequestBody × Bool) := do
  match rawRequestBody with
  | .null => return (none, false)
  | _ =>
    let requestBody ← requireMapping (← resolve document rawRequestBody) "request body"
    let content ← requireMapping (getOrNull requestBody "content") "request body content"
    match getOrNull content "application/json" with
    | .null => return (none, true)
    | mediaType =>
      let media ← requireMapping mediaType "application/json request body"
      let schema ← requireMapping ((media.get "schema").getD (.obj [])) "request body schema"
      return (some {
        required := requestBody.get "required" matches some (.bool true)
        schema := ← resolve document (.obj schema) }, false)

/-- What the responses of an operation add up to. -/
structure ResponseState where
  normalized : List Json := []
  outputSchema : Option Json := none
  unsupported : Bool := false

/-- One round of the loop over the responses. -/
def normalizeResponse (document : JsonObject) (state : ResponseState) (field : String × Json) :
    Except Exc ResponseState := do
  let statusCode := field.1
  let response ← requireMapping (← resolve document field.2) ("response " ++ statusCode)
  let content ← requireMapping ((response.get "content").getD (.obj []))
    ("response " ++ statusCode ++ " content")
  let normalized (schema : Json) : Json := .obj [
    ("status_code", .str statusCode),
    ("description", optionalText (getOrNull response "description")),
    ("content_types", .arr (((content.map (·.1)).insertionSort (· ≤ ·)).map .str)),
    ("schema", schema)]
  match getOrNull content "application/json" with
  | .null => return { state with
      normalized := state.normalized ++ [normalized .null]
      unsupported := state.unsupported || ! content.isEmpty }
  | jsonMedia =>
    let media ← requireMapping jsonMedia "response application/json"
    let rawSchema ← requireMapping ((media.get "schema").getD (.obj [])) "response schema"
    let schema ← resolve document (.obj rawSchema)
    return { state with
      normalized := state.normalized ++ [normalized schema]
      outputSchema :=
        -- The first success in the order of the status codes.
        if "2".toList <+: statusCode.toList ∧ state.outputSchema = none then some schema
        else state.outputSchema }

/-- `_normalize_responses`. -/
def normalizeResponses (rawResponses : Json) (document : JsonObject) :
    Except Exc ResponseState := do
  let responses ← requireMapping rawResponses "operation responses"
  (responses.insertionSort fun f g => f.1 ≤ g.1).foldlM (normalizeResponse document) {}

/-! ## Operations -/

/-- `_parse_operation`. -/
def parseOperation (document : JsonObject) (namespaceName method path operationKey : String)
    (operationId : Option String) (operation : JsonObject) (pathParameters : List Json) :
    Except Exc ParsedOperation := do
  let operationParameters ← requireSequence ((operation.get "parameters").getD (.arr []))
    "operation parameters"
  let combinedParameters ← mergeParameters pathParameters operationParameters document
  let parameters ← combinedParameters.foldlM (normalizeParameter document)
    { conflict := if operationId = none then .missingOperationId else .none }
  let (requestBody, bodyUnsupported) ←
    normalizeRequestBody (getOrNull operation "requestBody") document
  -- A parameter whose argument is named `body` loses its schema to the body.
  let inputProperties := requestBody.elim parameters.inputProperties fun body =>
    parameters.inputProperties.set "body" body.schema
  let requiredArguments := parameters.requiredArguments ++
    if requestBody.any (·.required) then ["body"] else []
  let responses ← normalizeResponses (getOrNull operation "responses") document
  let tags ← stringList ((operation.get "tags").getD (.arr []))
  let security ← normalizeSecurity ((operation.get "security").getD (.arr []))
  return {
    operationKey := operationKey
    operationId := operationId
    method := upperAscii method
    path := path
    normalizedOperation := [
      ("operation_id", operationId.elim .null .str),
      ("summary", optionalText (getOrNull operation "summary")),
      ("description", optionalText (getOrNull operation "description")),
      ("method", .str (upperAscii method)),
      ("path", .str path),
      ("tags", .arr (tags.map .str)),
      ("parameters", .arr parameters.normalizedParameters),
      ("request_body", requestBody.elim .null (·.toJson)),
      ("responses", .arr responses.normalized),
      ("security", security),
      ("side_effect", .str (sideEffect operation method)),
      ("tool_input_schema", .obj [
        ("type", .str "object"),
        ("properties", .obj inputProperties),
        ("required", .arr (requiredArguments.map .str)),
        ("additionalProperties", .bool false)]),
      ("tool_output_schema", responses.outputSchema.getD .null)]
    generatedToolName := some (generatedToolName namespaceName operationId method path)
    conflictStatus :=
      -- A missing operation id is covered by what is not supported.
      if bodyUnsupported ∨ responses.unsupported then .unsupported else parameters.conflict }

/-! ## Documents -/

/-- `_NAMESPACE_PATTERN.fullmatch`. -/
def isNamespace (namespaceName : String) : Bool :=
  match namespaceName.toList with
  | [] => false
  | c :: rest => ('a' ≤ c ∧ c ≤ 'z') ∧ rest.length ≤ 63 ∧
    rest.all fun c => ('a' ≤ c ∧ c ≤ 'z') ∨ ('0' ≤ c ∧ c ≤ '9') ∨ c = '_'

/-- `operationId` without the blanks around it. -/
def operationIdOf (operation : JsonObject) : Option String :=
  match operation.get "operationId" with
  | some (.str text) => if isBlank text then none else some (strip text)
  | _ => none

/-- One method of a path item: the operation, where there is one that is allowed. -/
def parseMethod (document : JsonObject) (namespaceName : String) (operationAllowlist : List String)
    (path : String) (pathItem : JsonObject) (pathParameters : List Json) (method : String) :
    Except Exc (List ParsedOperation) := do
  match getOrNull pathItem method with
  | .null => return []
  | rawOperation =>
    let operation ← requireMapping rawOperation ("operation " ++ method ++ " " ++ path)
    let operationId := operationIdOf operation
    let operationKey := upperAscii method ++ " " ++ path
    -- An empty list allows every operation.
    if operationAllowlist ≠ [] ∧ operationKey ∉ operationAllowlist ∧
        ¬ operationId.any (· ∈ operationAllowlist) then
      return []
    else
      return [← parseOperation document namespaceName method path operationKey operationId operation
        pathParameters]

/-- The operations of one path. -/
def parsePath (document : JsonObject) (namespaceName : String) (operationAllowlist : List String)
    (field : String × Json) : Except Exc (List ParsedOperation) := do
  let path := field.1
  raiseIf (¬ "/".toList <+: path.toList)
    (openApiDocumentInvalid "OpenAPI path must start with slash")
  let pathItem ← requireMapping field.2 ("path item " ++ path)
  let pathParameters ← requireSequence ((pathItem.get "parameters").getD (.arr []))
    "path parameters"
  return (← httpMethods.mapM
    (parseMethod document namespaceName operationAllowlist path pathItem pathParameters)).flatten

/-- Operations that generate one tool name collide. -/
def markCollision (operations : List ParsedOperation) (operation : ParsedOperation) :
    ParsedOperation :=
  if operation.generatedToolName ≠ none ∧
      1 < operations.countP (·.generatedToolName = operation.generatedToolName) ∧
      operation.conflictStatus = .none then
    { operation with conflictStatus := .nameCollision }
  else operation

/-- `parse`. -/
def parse (document : JsonObject) (namespaceName : String) (operationAllowlist : List String) :
    Except Exc ParsedOpenApiDocument := do
  raiseIf (¬ isNamespace namespaceName)
    (openApiDocumentInvalid "upstream namespace is not a valid tool namespace")
  let unsupported := openApiFeatureUnsupported "only OpenAPI 3.0 and 3.1 are supported"
  match document.get "openapi" with
  | some (.str openapiVersion) =>
    raiseIf (¬ ("3.0.".toList <+: openapiVersion.toList ∨ "3.1.".toList <+: openapiVersion.toList))
      unsupported
    let paths ← requireMapping (getOrNull document "paths") "OpenAPI paths"
    let operations := (← (paths.insertionSort fun f g => f.1 ≤ g.1).mapM
      (parsePath document namespaceName operationAllowlist)).flatten
    raiseIf (operations = [])
      (openApiDocumentInvalid "OpenAPI document did not contain allowed operations")
    return {
      openapiVersion := openapiVersion
      operations := operations.map (markCollision operations) }
  | _ => .error unsupported

/-- A parsed document has operations. -/
theorem parse_ne_nil {document : JsonObject} {namespaceName : String}
    {operationAllowlist : List String} {parsed : ParsedOpenApiDocument}
    (h : parse document namespaceName operationAllowlist = .ok parsed) :
    parsed.operations ≠ [] := by
  simp only [parse, raiseIf_bind_eq_ok] at h
  obtain ⟨-, h⟩ := h
  split at h
  · rw [raiseIf_bind_eq_ok] at h
    obtain ⟨-, h⟩ := h
    obtain ⟨paths, -, h⟩ := bind_eq_ok.1 h
    obtain ⟨operations, -, h⟩ := bind_eq_ok.1 h
    rw [raiseIf_bind_eq_ok] at h
    obtain ⟨hne, h⟩ := h
    cases h
    simpa using hne
  · cases h

/-! ## What the parser raises -/

/-- An invalid document, one that is not supported, or a key without a hash. -/
inductive ParserError : Exc → Prop where
  | invalid (message : String) : ParserError (openApiDocumentInvalid message)
  | unsupported (message : String) : ParserError (openApiFeatureUnsupported message)
  | typeError : ParserError (.other "TypeError")

/-- The computation raises nothing but errors of the parser. -/
def RaisesParserError {α : Type} (x : Except Exc α) : Prop := ∀ e, x = .error e → ParserError e

namespace RaisesParserError

variable {α β : Type}

theorem ok {a : α} : RaisesParserError (.ok a) := nofun

theorem error {e : Exc} (he : ParserError e) : RaisesParserError (.error e : Except Exc α) := by
  rintro _ ⟨⟩
  exact he

theorem bind {x : Except Exc α} {f : α → Except Exc β} (hx : RaisesParserError x)
    (hf : ∀ a, RaisesParserError (f a)) : RaisesParserError (x >>= f) := by
  cases x with
  | ok a => exact hf a
  | error e => exact error (hx e rfl)

theorem raiseIf {p : Prop} [Decidable p] {e : Exc} (he : ParserError e) :
    RaisesParserError (raiseIf p e) := by
  intro e' h
  rw [raiseIf_eq_error] at h
  rw [h.2]
  exact he

theorem mapM {f : α → Except Exc β} {l : List α} (hf : ∀ a, RaisesParserError (f a)) :
    RaisesParserError (l.mapM f) := by
  induction l with
  | nil => exact ok
  | cons a l ih =>
    rw [List.mapM_cons]
    exact bind (hf a) fun _ => bind ih fun _ => ok

theorem foldlM {f : β → α → Except Exc β} {b : β} {l : List α}
    (hf : ∀ b a, RaisesParserError (f b a)) : RaisesParserError (l.foldlM f b) := by
  induction l generalizing b with
  | nil => exact ok
  | cons a l ih =>
    rw [List.foldlM_cons]
    exact bind (hf b a) fun _ => ih

theorem requireMapping {value : Json} {fieldName : String} :
    RaisesParserError (requireMapping value fieldName) := by
  unfold OpenApiParser.requireMapping
  split
  · exact ok
  · exact error (.invalid _)

theorem requireSequence {value : Json} {fieldName : String} :
    RaisesParserError (requireSequence value fieldName) := by
  unfold OpenApiParser.requireSequence
  split
  · exact ok
  · exact error (.invalid _)

theorem stringList {value : Json} : RaisesParserError (stringList value) := by
  apply bind requireSequence
  intro items
  apply mapM
  intro item
  split
  · exact ok
  · exact error (.invalid _)

theorem resolvePointer {document : JsonObject} {reference : String} :
    RaisesParserError (resolvePointer document reference) := by
  apply foldlM
  intro current part
  split
  · split
    · exact ok
    · exact error (.invalid _)
  · exact error (.invalid _)

theorem resolveNode {document : JsonObject} {depth : Nat} {stack : List String} {value : Json} :
    RaisesParserError (resolveNode document depth stack value) := by
  induction depth generalizing stack value with
  | zero => exact error (.unsupported _)
  | succ depth ih =>
    unfold OpenApiParser.resolveNode
    split
    · exact bind (mapM fun _ => ih) fun _ => ok
    · split
      · exact bind (mapM fun _ => bind ih fun _ => ok) fun _ => ok
      · apply bind (raiseIf (.unsupported _))
        intro _
        apply bind (raiseIf (.unsupported _))
        intro _
        apply bind resolvePointer
        intro target
        apply bind ih
        intro resolved
        apply bind requireMapping
        intro fields
        apply bind ih
        intro siblings
        split
        · exact ok
        · exact error .typeError
      · exact error (.unsupported _)
    · exact ok

theorem resolve {document : JsonObject} {value : Json} :
    RaisesParserError (resolve document value) := resolveNode

theorem normalizeSecurity {value : Json} : RaisesParserError (normalizeSecurity value) := by
  unfold OpenApiParser.normalizeSecurity
  split
  · exact ok
  · apply bind requireSequence
    intro requirements
    refine bind (mapM fun requirement => ?_) fun _ => ok
    apply bind requireMapping
    intro mapping
    exact bind (mapM fun _ => bind stringList fun _ => ok) fun _ => ok

theorem requireHashable {value : Json} : RaisesParserError (requireHashable value) := by
  unfold OpenApiParser.requireHashable
  split
  · exact error .typeError
  · exact error .typeError
  · exact ok

theorem mergeParameters {pathParameters operationParameters : List Json} {document : JsonObject} :
    RaisesParserError (mergeParameters pathParameters operationParameters document) := by
  apply foldlM
  intro merged rawParameter
  apply bind resolve
  intro value
  apply bind requireMapping
  intro parameter
  exact bind requireHashable fun _ => bind requireHashable fun _ => ok

theorem normalizeParameter {document : JsonObject} {state : ParameterState}
    {parameter : JsonObject} :
    RaisesParserError (normalizeParameter document state parameter) := by
  unfold OpenApiParser.normalizeParameter
  split
  · split
    · exact bind requireMapping fun _ => bind resolve fun _ => ok
    · exact ok
  · exact ok

theorem normalizeRequestBody {rawRequestBody : Json} {document : JsonObject} :
    RaisesParserError (normalizeRequestBody rawRequestBody document) := by
  unfold OpenApiParser.normalizeRequestBody
  split
  · exact ok
  · apply bind resolve
    intro value
    apply bind requireMapping
    intro requestBody
    apply bind requireMapping
    intro content
    split
    · exact ok
    · exact bind requireMapping fun _ => bind requireMapping fun _ => bind resolve fun _ => ok

theorem normalizeResponse {document : JsonObject} {state : ResponseState}
    {field : String × Json} : RaisesParserError (normalizeResponse document state field) := by
  apply bind resolve
  intro value
  apply bind requireMapping
  intro response
  apply bind requireMapping
  intro content
  dsimp only
  split
  · exact ok
  · exact bind requireMapping fun _ => bind requireMapping fun _ => bind resolve fun _ => ok

theorem parseOperation {document : JsonObject} {namespaceName method path operationKey : String}
    {operationId : Option String} {operation : JsonObject} {pathParameters : List Json} :
    RaisesParserError (parseOperation document namespaceName method path operationKey operationId
      operation pathParameters) := by
  apply bind requireSequence
  intro operationParameters
  apply bind mergeParameters
  intro combinedParameters
  apply bind (foldlM fun _ _ => normalizeParameter)
  intro parameters
  apply bind normalizeRequestBody
  rintro ⟨requestBody, bodyUnsupported⟩
  apply bind
  · exact bind requireMapping fun _ => foldlM fun _ _ => normalizeResponse
  · exact fun _ => bind stringList fun _ => bind normalizeSecurity fun _ => ok

theorem parsePath {document : JsonObject} {namespaceName : String}
    {operationAllowlist : List String} {field : String × Json} :
    RaisesParserError (parsePath document namespaceName operationAllowlist field) := by
  apply bind (raiseIf (.invalid _))
  intro _
  apply bind requireMapping
  intro pathItem
  apply bind requireSequence
  intro pathParameters
  refine bind (mapM fun method => ?_) fun _ => ok
  unfold parseMethod
  split
  · exact ok
  · apply bind requireMapping
    intro operation
    dsimp only
    split
    · exact ok
    · exact bind parseOperation fun _ => ok

end RaisesParserError

/-- Whatever the document, the parser raises nothing but its own errors. -/
theorem parse_raises {document : JsonObject} {namespaceName : String}
    {operationAllowlist : List String} :
    RaisesParserError (parse document namespaceName operationAllowlist) := by
  apply RaisesParserError.bind (.raiseIf (.invalid _))
  intro _
  dsimp only
  split
  · apply RaisesParserError.bind (.raiseIf (.unsupported _))
    intro _
    apply RaisesParserError.bind .requireMapping
    intro paths
    apply RaisesParserError.bind (.mapM fun _ => .parsePath)
    intro operations
    exact .bind (.raiseIf (.invalid _)) fun _ => .ok
  · exact .error (.unsupported _)

end OpenApiParser

end NexusMcp
