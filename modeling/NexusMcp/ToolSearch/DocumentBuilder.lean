-- SUMMARY: The document by which a published tool is searched.
import NexusMcp.Catalog.Domain
import NexusMcp.Execution.HttpxExecutor

/-!
# Search Documents

The document of a tool is a text of eight lines. It summarises the fields of the input schema,
down to three levels.
-/

namespace NexusMcp

structure ToolSearchDocumentFields where
  tenantId : Id
  toolId : Id
  toolVersionId : Id
  canonicalName : String
  content : String
  sourceDigest : String
deriving Repr, DecidableEq

instance : PostInit ToolSearchDocumentFields where
  checks d := [
    nonBlank "tenant id" d.tenantId,
    nonBlank "tool id" d.toolId,
    nonBlank "tool version id" d.toolVersionId,
    nonBlank "canonical name" d.canonicalName,
    nonBlank "tool search document" d.content,
    (d.sourceDigest.length ≠ 64, "tool search source digest must be a SHA-256 hex digest")]

abbrev ToolSearchDocument := Checked ToolSearchDocumentFields

namespace ToolSearchDocumentBuilder

/-- `" ".join(value.split())`. -/
def normalizeText (value : String) : String :=
  " ".intercalate (((value.toList.splitOnP isSpace).filter (· ≠ [])).map String.ofList)

/-- `sorted(names)`. -/
def sorted (names : List String) : List String := names.insertionSort (· ≤ ·)

/-- `text or default`. -/
def orElse (text fallback : String) : String := if text = "" then fallback else text

/-- The values that a `for` loop over a value takes. -/
def iterate : Json → Except Exc (List Json)
  | .str s => .ok (s.toList.map fun c => .str (String.singleton c))
  | .arr items => .ok items
  | .obj fields => .ok (fields.map fun field => .str field.1)
  | .null | .bool _ | .int _ | .float _ => .error (.other "TypeError")

/-- `{str(name) for name in schema.get("required", ()) if isinstance(name, str)}`. -/
def requiredNames (schema : JsonObject) : Except Exc (List String) :=
  match schema.get "required" with
  | none => .ok []
  | some value => do
    return (← iterate value).filterMap fun
      | .str name => some name
      | _ => none

section

variable [PyStr]

def fieldTypeText : Option Json → String
  | some (.arr fieldType) => "|".intercalate (sorted (fieldType.map pyStr))
  | some fieldType => pyStr fieldType
  | none => "unknown"

/-- The summary of a field that has no fields of its own, or that is too deep. -/
def summary (path : String) (schema : JsonObject) (required : Bool) : String :=
  let suffix := if required then "required" else "optional"
  let text := path ++ " (" ++ fieldTypeText (schema.get "type") ++ ", " ++ suffix ++ ")"
  match schema.get "description" with
  | some (.str description) =>
    if isBlank description then text else text ++ ": " ++ normalizeText description
  | _ => text

/-- `_collect_field`, with the number of levels that are left. -/
def collectField : Nat → String → JsonObject → Bool → Except Exc (List String)
  | levels + 1, path, schema, required =>
    match schema.get "properties" with
    | some (.obj (field :: fields)) => do
      let nested : JsonObject := field :: fields
      let nestedRequired ← requiredNames schema
      let collected ← (sorted (nested.map (·.1))).mapM fun name =>
        match nested.get name with
        | some (.obj value) =>
          collectField levels (path ++ "." ++ name) value (name ∈ nestedRequired)
        | _ => .ok []
      return collected.flatten
    | _ => .ok [summary path schema required]
  | 0, path, schema, required => .ok [summary path schema required]

/-- `_input_field_summaries`. -/
def inputFieldSummaries (schema : JsonObject) : Except Exc (List String) := do
  let required ← requiredNames schema
  match schema.get "properties" with
  | some (.obj properties) => do
    let collected ← (sorted (properties.map (·.1))).mapM fun name =>
      match JsonObject.get properties name with
      | some (.obj value) => collectField 3 name value (name ∈ required)
      | _ => .ok []
    return collected.flatten
  | _ => return []

/-- `ToolSearchDocumentBuilder.build`. -/
def build [Sha256] (tool : PublishedTool) : Except Exc ToolSearchDocument := do
  let summaries ← inputFieldSummaries tool.val.inputSchema
  let content := "\n".intercalate [
    "Canonical Name: " ++ tool.val.canonicalName,
    "Display Name: " ++ normalizeText tool.val.displayName,
    "Namespace: " ++ tool.namespaceName,
    "Description: " ++ normalizeText tool.val.description,
    "Tags: " ++ orElse (", ".intercalate (sorted tool.val.tags)) "none",
    "Side Effect: " ++ tool.val.sideEffect.value,
    "Inputs: " ++ orElse (", ".intercalate summaries) "none",
    "Owner: " ++ normalizeText (orElse (tool.val.owner.getD "") "unknown")]
  construct {
    tenantId := tool.val.tenantId
    toolId := tool.val.toolId
    toolVersionId := tool.val.toolVersionId
    canonicalName := tool.val.canonicalName
    content := content
    sourceDigest := Sha256.hexdigest content }

/-- The document is that of the tool's version. -/
theorem build_eq_ok [Sha256] {tool : PublishedTool} {document : ToolSearchDocument}
    (h : build tool = .ok document) :
    document.val.tenantId = tool.val.tenantId ∧ document.val.toolId = tool.val.toolId ∧
      document.val.toolVersionId = tool.val.toolVersionId ∧
        document.val.canonicalName = tool.val.canonicalName := by
  obtain ⟨_, -, h⟩ := bind_eq_ok.1 h
  rw [val_of_construct h]
  exact ⟨rfl, rfl, rfl, rfl⟩

end

end ToolSearchDocumentBuilder

end NexusMcp
