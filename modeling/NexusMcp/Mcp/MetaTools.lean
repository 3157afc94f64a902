-- SUMMARY: The meta tool for searching tools: its definition, its arguments and its answer.
import NexusMcp.Mcp.Protocol

/-! # The Meta Tool -/

namespace NexusMcp

def nexusSearchToolsName : String := "nexus.search_tools"

/-! ## Definition -/

def searchToolsInputSchema : JsonObject := [
  ("type", .str "object"),
  ("properties", .obj [
    ("query", .obj [("type", .str "string"), ("minLength", .int 1), ("maxLength", .int 200)]),
    ("retrieval_mode", .obj [
      ("type", .str "string"),
      ("enum", .arr [.str "lexical", .str "hybrid"])]),
    ("limit", .obj [
      ("type", .str "integer"),
      ("minimum", .int 1),
      ("maximum", .int 10),
      ("default", .int 5)]),
    ("namespace", .obj [("type", .arr [.str "string", .str "null"])]),
    ("side_effect", .obj [
      ("type", .arr [.str "string", .str "null"]),
      ("enum", .arr [.str "read_only", .str "idempotent_write", .str "non_idempotent_write",
        .str "unknown", .null])])]),
  ("required", .arr [.str "query", .str "retrieval_mode"]),
  ("additionalProperties", .bool false)]

def searchToolsDefinition : ProtocolTool where
  name := nexusSearchToolsName
  title := "Search enterprise tools"
  description := "Search the visible enterprise Tool Catalog. Use lexical for explicit names, " ++
    "namespaces, tags, abbreviations, or domain keywords. Use hybrid for fuzzy, " ++
    "synonymous, or cross-language intent, and when lexical candidates are insufficient."
  inputSchema := searchToolsInputSchema
  outputSchema := some [
    ("type", .str "object"),
    ("properties", .obj [
      ("retrievalMode", .obj [("type", .str "string")]),
      ("tools", .obj [("type", .str "array"), ("items", .obj [("type", .str "object")])])]),
    ("required", .arr [.str "retrievalMode", .str "tools"])]
  metadata := [("com.nexusmcp/builtIn", .bool true)]

/-! ## Arguments -/

def ToolRetrievalMode.value : ToolRetrievalMode → String
  | lexical => "lexical"
  | hybrid => "hybrid"

/-- `ToolRetrievalMode(value)`. -/
def ToolRetrievalMode.of? : Option Json → Option ToolRetrievalMode
  | some (.str "lexical") => some .lexical
  | some (.str "hybrid") => some .hybrid
  | _ => none

/-- `ToolSideEffect(value)`. -/
def ToolSideEffect.of? : Json → Option ToolSideEffect
  | .str "read_only" => some .readOnly
  | .str "idempotent_write" => some .idempotentWrite
  | .str "non_idempotent_write" => some .nonIdempotentWrite
  | .str "unknown" => some .unknown
  | _ => none

namespace SearchToolsQuery

def allowed : List String := ["query", "retrieval_mode", "limit", "namespace", "side_effect"]

/-- The error for arguments that the meta tool does not take. -/
def invalid {α : Type} (message : String) : Except Exc α :=
  .error (.nexus .invalidArguments message)

def parseText : Option Json → Except Exc String
  | some (.str text) =>
    if isBlank text then invalid "Meta Tool search query must not be blank" else .ok text
  | _ => invalid "Meta Tool search query must not be blank"

def parseMode (mode : Option Json) : Except Exc ToolRetrievalMode :=
  match ToolRetrievalMode.of? mode with
  | some mode => .ok mode
  | none => invalid "Meta Tool retrieval mode was invalid"

/-- The limit is 5 when it is not given. -/
def parseLimit : Option Json → Except Exc Int
  | none => .ok 5
  -- A boolean is no limit, though Python counts it among the integers.
  | some (.int limit) => .ok limit
  | some _ => invalid "Meta Tool search limit must be an integer"

def parseNamespace : Option Json → Except Exc (Option String)
  | none | some .null => .ok none
  | some (.str name) => .ok (some name)
  | some _ => invalid "Meta Tool search namespace must be a string"

def parseSideEffect : Option Json → Except Exc (Option ToolSideEffect)
  | none | some .null => .ok none
  | some value =>
    match ToolSideEffect.of? value with
    | some sideEffect => .ok (some sideEffect)
    | none => invalid "Meta Tool side effect filter was invalid"

end SearchToolsQuery

open SearchToolsQuery in
def parseSearchToolsQuery (context : ActorContext) (arguments : JsonObject) :
    Except Exc SearchToolsQuery := do
  raiseIf (¬ ∀ name ∈ arguments.map Prod.fst, name ∈ allowed)
    (.nexus .invalidArguments "Meta Tool search arguments contained unknown fields")
  let text ← parseText (arguments.get "query")
  let retrievalMode ← parseMode (arguments.get "retrieval_mode")
  let limit ← parseLimit (arguments.get "limit")
  let namespaceName ← parseNamespace (arguments.get "namespace")
  let sideEffect ← parseSideEffect (arguments.get "side_effect")
  return { context, text, retrievalMode, limit, namespaceName, sideEffect }

namespace SearchToolsQuery

/-- Nothing but the arguments of the client is a reason to fail. -/
def OnlyInvalid {α : Type} (r : Except Exc α) : Prop :=
  ∀ e, r = .error e → ∃ message, e = .nexus .invalidArguments message

variable {α β : Type}

theorem onlyInvalid_ok (a : α) : OnlyInvalid (.ok a) := by
  rintro _ ⟨⟩

theorem onlyInvalid_invalid (message : String) : OnlyInvalid (invalid message : Except Exc α) := by
  rintro _ ⟨⟩
  exact ⟨message, rfl⟩

theorem OnlyInvalid.bind {r : Except Exc α} {next : α → Except Exc β} (h : OnlyInvalid r)
    (hnext : ∀ a, OnlyInvalid (next a)) : OnlyInvalid (r >>= next) := by
  intro e he
  cases r with
  | ok a => exact hnext a e he
  | error own =>
    cases he
    exact h e rfl

theorem onlyInvalid_parseText (value : Option Json) : OnlyInvalid (parseText value) := by
  unfold parseText
  split
  · split
    · exact onlyInvalid_invalid _
    · exact onlyInvalid_ok _
  · exact onlyInvalid_invalid _

theorem onlyInvalid_parseMode (value : Option Json) : OnlyInvalid (parseMode value) := by
  unfold parseMode
  split
  · exact onlyInvalid_ok _
  · exact onlyInvalid_invalid _

theorem onlyInvalid_parseLimit (value : Option Json) : OnlyInvalid (parseLimit value) := by
  unfold parseLimit
  split
  · exact onlyInvalid_ok _
  · exact onlyInvalid_ok _
  · exact onlyInvalid_invalid _

theorem onlyInvalid_parseNamespace (value : Option Json) : OnlyInvalid (parseNamespace value) := by
  unfold parseNamespace
  split
  · exact onlyInvalid_ok _
  · exact onlyInvalid_ok _
  · exact onlyInvalid_ok _
  · exact onlyInvalid_invalid _

theorem onlyInvalid_parseSideEffect (value : Option Json) :
    OnlyInvalid (parseSideEffect value) := by
  unfold parseSideEffect
  split
  · exact onlyInvalid_ok _
  · exact onlyInvalid_ok _
  · split
    · exact onlyInvalid_ok _
    · exact onlyInvalid_invalid _

end SearchToolsQuery

open SearchToolsQuery in
theorem onlyInvalid_parseSearchToolsQuery (context : ActorContext) (arguments : JsonObject) :
    OnlyInvalid (parseSearchToolsQuery context arguments) := by
  unfold parseSearchToolsQuery
  refine OnlyInvalid.bind ?_ fun _ => ?_
  · unfold raiseIf
    split
    · exact onlyInvalid_invalid _
    · exact onlyInvalid_ok _
  refine (onlyInvalid_parseText _).bind fun _ => (onlyInvalid_parseMode _).bind fun _ => ?_
  refine (onlyInvalid_parseLimit _).bind fun _ => (onlyInvalid_parseNamespace _).bind fun _ => ?_
  exact (onlyInvalid_parseSideEffect _).bind fun _ => onlyInvalid_ok _

/-! ## Answer -/

/-- `_candidate`. -/
def toolCandidate (hit : PublishedToolSearchHit) : ToolCandidate where
  name := hit.tool.val.canonicalName
  title := hit.tool.val.displayName
  description := hit.tool.val.description
  namespaceName := hit.tool.namespaceName
  owner := hit.tool.val.owner
  tags := hit.tool.val.tags
  version := hit.tool.val.version
  sideEffect := hit.tool.val.sideEffect.value
  inputSchema := hit.tool.val.inputSchema
  outputSchema := hit.tool.val.outputSchema
  toolId := hit.tool.val.toolId
  toolVersionId := hit.tool.val.toolVersionId
  rank := hit.rank

/-- `search_tools_result`. -/
def searchToolsResult (result : SearchToolsResult) : SearchAnswer where
  retrievalMode := result.retrievalMode
  tools := result.hits.map toolCandidate
  indexVersion := result.indexVersion

end NexusMcp
