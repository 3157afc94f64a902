-- SUMMARY: When the path parameters of an operation cover the placeholders of its path template.
import NexusMcp.OpenApi.ArgumentNames

/-!
# Placeholder Coverage

The template is the key of the path, and the parameters are declared beside it. The importer
compares neither with the other: the executor refuses a path parameter without a placeholder,
and leaves a placeholder without a parameter as it is.
-/

namespace NexusMcp

open Net (BraceFree NonNested Template Text Token braced render)
open OpenApiParser (DraftParameter OperationDrafts RequestBody inputSchemaOf)

/-! ## Coverage -/

/-- `{name}` stands in the template. -/
def IsPlaceholder (template : Text) (name : String) : Prop :=
  BraceFree name.toList ∧ braced name.toList <:+: template

instance (template : Text) (name : String) : Decidable (IsPlaceholder template name) :=
  inferInstanceAs (Decidable (_ ∧ _))

/-- The operation has a parameter of the name in its path. -/
def IsPathParameter (operation : ParsedOperation) (name : String) : Prop :=
  ∃ fields ∈ normalizedParameters operation,
    textOf fields "location" = "path" ∧ textOf fields "upstream_name" = name

/-- The arguments can be mapped, and no placeholder is left in the path. -/
def Covers [PyStr] (config arguments : JsonObject) : Prop :=
  ∃ mapped, mapArguments (textField config "path_template") (config.get "parameters") arguments =
      .ok mapped ∧
    ∀ name, IsPlaceholder (textField config "path_template").toList name →
      ¬ braced name.toList <:+: mapped.path

section Coverage

variable {operation : ParsedOperation} {parameters : List DraftParameter}
  {body : Option RequestBody} {conforms : Json → Json → Prop} {arguments : JsonObject}

theorem isPathParameter_iff (h : OperationDrafts operation parameters body) {name : String} :
    IsPathParameter operation name ↔ ∃ p ∈ parameters, p.location = "path" ∧ p.name = name := by
  rw [IsPathParameter, normalizedParameters_eq h]
  simp only [List.mem_map, exists_exists_and_eq_and]
  rfl

theorem covers_configOf [PyStr] : Covers (configOf operation parameters body) arguments ↔
    ∃ mapped, mapArguments operation.path (some (.arr (mappings parameters))) arguments =
        .ok mapped ∧
      ∀ name, IsPlaceholder operation.path.toList name → ¬ braced name.toList <:+: mapped.path :=
  Iff.rfl

section Placements

variable [PyStr]

variable {tokens : List Token} {tail : Text}

/-- Parameters in the path are always placed, so each of them needs its placeholder. -/
theorem puttable_iff (h : OperationDrafts operation parameters body)
    (haccepted : AcceptedBy conforms (inputSchemaOf parameters body) arguments)
    (ht : Template tokens tail operation.path.toList)
    (hnames : ∀ name, IsPathParameter operation name → BraceFree name.toList) :
    Puttable tokens ((mappings parameters).filterMap (placed? arguments)) ↔
      ∀ name, IsPathParameter operation name → IsPlaceholder operation.path.toList name := by
  constructor
  · intro hputtable name hname
    obtain ⟨p, hp, hpath, rfl⟩ := (isPathParameter_iff h).1 hname
    obtain ⟨value, hvalue⟩ := given_of_accepted haccepted
      (mem_requiredArgumentNames_iff.2 (.inl ⟨p, hp, (h.supported p hp).required hpath, rfl⟩))
    have hplaced := hputtable _ (mem_placements.2 ⟨p, hp, value, hvalue, rfl⟩)
    have hgroup : .group p.name.toList ∈ tokens := by
      obtain ⟨-, hgroup⟩ | hquery | hheader := hplaced
      · exact hgroup
      · exact absurd (hpath.symm.trans hquery) (by decide)
      · exact absurd (hpath.symm.trans hheader) (by decide)
    exact ⟨hnames _ hname, (Net.braced_infix_iff ht (hnames _ hname)).2 hgroup⟩
  · intro hplaceholders placed hplaced
    obtain ⟨p, hp, value, -, rfl⟩ := mem_placements.1 hplaced
    have hlocation := (h.supported p hp).location
    simp only [OpenApiParser.parameterLocations, List.mem_cons, List.not_mem_nil, or_false]
      at hlocation
    refine hlocation.imp_left fun hpath => ⟨hpath, ?_⟩
    obtain ⟨hfree, hinfix⟩ :=
      hplaceholders p.name ((isPathParameter_iff h).2 ⟨p, hp, hpath, rfl⟩)
    exact (Net.braced_infix_iff ht hfree).1 hinfix

/-- The placeholders without a value are those without a parameter. -/
theorem encodedArgument_eq_none_iff (h : OperationDrafts operation parameters body)
    (haccepted : AcceptedBy conforms (inputSchemaOf parameters body) arguments) {name : String} :
    encodedArgument arguments (mappings parameters) name.toList = none ↔
      ¬ IsPathParameter operation name := by
  rw [encodedArgument, pathValue, Option.map_eq_none_iff, List.find?_eq_none,
    isPathParameter_iff h]
  constructor
  · rintro hnone ⟨p, hp, hpath, rfl⟩
    obtain ⟨value, hvalue⟩ := given_of_accepted haccepted
      (mem_requiredArgumentNames_iff.2 (.inl ⟨p, hp, (h.supported p hp).required hpath, rfl⟩))
    exact hnone _ (mem_placements.2 ⟨p, hp, value, hvalue, rfl⟩) (by simpa using hpath)
  · intro hnone placed hplaced htrue
    obtain ⟨p, hp, value, -, rfl⟩ := mem_placements.1 hplaced
    obtain ⟨hpath, hname⟩ : p.location = "path" ∧ p.name.toList = name.toList := by
      simpa using htrue
    exact hnone ⟨p, hp, hpath, String.toList_inj.1 hname⟩

/-- Accepted arguments are covered exactly when the path parameters are the placeholders. -/
theorem covers_iff (h : OperationDrafts operation parameters body)
    (hkeys : (parameters.map fun p => (p.name, p.location)).Nodup)
    (haccepted : AcceptedBy conforms (inputSchemaOf parameters body) arguments)
    (htemplate : NonNested operation.path.toList)
    (hnames : ∀ name, IsPathParameter operation name → BraceFree name.toList) :
    Covers (configOf operation parameters body) arguments ↔
      ∀ name, IsPathParameter operation name ↔ IsPlaceholder operation.path.toList name := by
  obtain ⟨tokens, tail, ht⟩ := Net.exists_template htemplate
  have hfields : ∀ fields, .obj fields ∈ mappings parameters →
      textField fields "location" = "path" →
        BraceFree (textField fields "upstream_name").toList := by
    intro fields hmem hpath
    obtain ⟨p, hp, hobj⟩ := List.mem_map.1 hmem
    cases hobj
    exact hnames p.name ((isPathParameter_iff h).2 ⟨p, hp, hpath, rfl⟩)
  have hmap : ∀ mapped, mapArguments operation.path (some (.arr (mappings parameters)))
      arguments = .ok mapped ↔ _ :=
    fun mapped => mapArguments_iff ht hfields (distinct_mappings hkeys)
  -- A placeholder is left exactly when it has no value.
  have hleft : ∀ name, IsPlaceholder operation.path.toList name →
      (braced name.toList <:+: render (tokens.flatMap (Token.fill
        (encodedArgument arguments (mappings parameters)))) tail ↔
          ¬ IsPathParameter operation name) := by
    rintro name ⟨hfree, hinfix⟩
    have hvalues : ∀ name value,
        encodedArgument arguments (mappings parameters) name = some value → '{' ∉ value :=
      fun _ _ hvalue hbrace => plain_encodedArgument hvalue _ hbrace (by simp)
    have hfilled := ht.fill hvalues
    rw [Net.braced_infix_iff hfilled hfree, Net.group_mem_fill,
      encodedArgument_eq_none_iff h haccepted,
      and_iff_right ((Net.braced_infix_iff ht hfree).1 hinfix)]
  rw [covers_configOf]
  constructor
  · rintro ⟨mapped, hmapped, hnone⟩ name
    obtain ⟨⟨-, hputtable⟩, rfl⟩ := (hmap mapped).1 hmapped
    refine ⟨(puttable_iff h haccepted ht hnames).1 hputtable name, fun hname => ?_⟩
    by_contra hnot
    exact hnone name hname ((hleft name hname).2 hnot)
  · intro hsame
    have hputtable := (puttable_iff h haccepted ht hnames).2 fun name => (hsame name).1
    refine ⟨_, (hmap _).2 ⟨⟨wellPlaced_of_accepted haccepted, hputtable⟩, rfl⟩, fun name hname hinfix => ?_⟩
    exact (hleft name hname).1 hinfix ((hsame name).2 hname)

end Placements

end Coverage

/-! ## Accepted documents -/

/-- Where braces are not nested and the path parameters are the placeholders, the arguments that
    the schema accepts are mapped to a path without placeholders. They are not mapped so in any
    other case, where the path parameters have no braces in their names. -/
theorem placeholder_coverage [PyStr] (conforms : Json → Json → Prop) (document : JsonObject)
    (namespaceName : String) (operationAllowlist : List String) (parsed : ParsedOpenApiDocument)
    (operation : ParsedOperation) (config arguments : JsonObject)
    (hparsed : OpenApiParser.parse document namespaceName operationAllowlist = .ok parsed)
    (hmem : operation ∈ parsed.operations) (hconflict : operation.conflictStatus = .none)
    (hconfig : BindingConfigOf operation config)
    (haccepted : AcceptedBy conforms (toolInputSchema operation) arguments)
    (htemplate : NonNested operation.path.toList) :
    ((∀ name, IsPathParameter operation name ↔ IsPlaceholder operation.path.toList name) →
      Covers config arguments) ∧
    ((∀ name, IsPathParameter operation name → BraceFree name.toList) →
      Covers config arguments →
        ∀ name, IsPathParameter operation name ↔ IsPlaceholder operation.path.toList name) := by
  obtain ⟨parameters, body, hdrafts, -, hkeys⟩ :=
    OpenApiParser.exists_drafts hparsed hmem hconflict
  rw [(bindingConfigOf_iff hdrafts).1 hconfig]
  rw [toolInputSchema_eq hdrafts] at haccepted
  refine ⟨fun hsame => ?_, fun hnames => (covers_iff hdrafts hkeys haccepted htemplate hnames).1⟩
  have hnames : ∀ name, IsPathParameter operation name → BraceFree name.toList :=
    fun name hname => ((hsame name).1 hname).1
  exact (covers_iff hdrafts hkeys haccepted htemplate hnames).2 hsame

section Orders

attribute [local instance] scalarPyStr

open JsonSchema (Validator)

/-- An order is read at the path. -/
def orderPathDocument (path : String) (parameters : List Json) : JsonObject :=
  [("openapi", .str "3.0.3"), ("paths", .obj [(path, .obj [("get", .obj [
    ("operationId", .str "getOrder"),
    ("parameters", .arr parameters),
    ("responses", .obj [("200", .obj [])])])])])]

/-- The parameter of a draft for an `id` in the path. -/
def idDraft : DraftParameter where
  argument := "id"
  name := "id"
  location := "path"
  required := true
  schema := .obj [("type", .str "string")]

theorem namedInTurn_idDraft : OpenApiParser.NamedInTurn [idDraft] := by
  have hargument : idDraft.argument =
      idDraft.argumentFor (([] : List DraftParameter).map (·.argument)) := rfl
  exact .snoc .nil hargument

theorem supported_idDraft : ∀ p ∈ [idDraft], p.Supported := by
  intro p hp
  obtain rfl := List.mem_singleton.1 hp
  exact ⟨by decide, by decide, fun _ => rfl⟩

theorem accepted_id {id : String} (h : Validator.shapes.accepts idDraft.schema (.str id)) :
    AcceptedBy Validator.shapes.accepts (inputSchemaOf [idDraft] none) [("id", .str id)] := by
  refine (acceptedBy_iff (by decide)).2 ⟨fun name hname => hname, fun argument hargument => ?_⟩
  obtain rfl := List.mem_singleton.1 hargument
  exact ⟨idDraft.schema, List.mem_cons_self, h⟩

theorem placeholder_coverage_orders :
    ∃ parsed, OpenApiParser.parse (orderPathDocument "/orders/{id}" [textParameter "id" "path"])
        "orders" [] = .ok parsed ∧
      ∃ operation ∈ parsed.operations, operation.conflictStatus = .none ∧
        ∃ config, BindingConfigOf operation config ∧ Covers config [("id", .str "7/{id}")] := by
  obtain ⟨parsed, hparsed, operation, hmem, hconflict, hpath, hdrafts⟩ : ∃ parsed,
      OpenApiParser.parse (orderPathDocument "/orders/{id}" [textParameter "id" "path"])
        "orders" [] = .ok parsed ∧
      ∃ operation ∈ parsed.operations, operation.conflictStatus = .none ∧
        operation.path = "/orders/{id}" ∧ OperationDrafts operation [idDraft] none :=
    ⟨_, rfl, _, List.mem_cons_self, rfl, rfl, rfl, rfl, rfl, namedInTurn_idDraft,
      supported_idDraft⟩
  have hconfig := (bindingConfigOf_iff hdrafts).2 rfl
  have haccepted : AcceptedBy Validator.shapes.accepts (toolInputSchema operation)
      [("id", .str "7/{id}")] := toolInputSchema_eq hdrafts ▸ accepted_id (by decide +kernel)
  have htemplate : NonNested operation.path.toList := by
    rw [hpath]
    intro before between after h
    have hone : "/orders/{id}".toList.count '{' = 1 := by decide
    rw [h, List.count_append, List.count_cons_self, List.count_append,
      List.count_cons_self] at hone
    omega
  have hsame : ∀ name, IsPathParameter operation name ↔
      IsPlaceholder operation.path.toList name := by
    have ht : Template ("/orders/".toList.map .char ++ [.group "id".toList]) []
        "/orders/{id}".toList := by
      refine ⟨?_, .inl rfl, rfl⟩
      rw [List.forall_mem_append, List.forall_mem_map]
      refine ⟨show ∀ c ∈ "/orders/".toList, c ≠ '{' by decide, ?_⟩
      intro token htoken
      obtain rfl := List.mem_singleton.1 htoken
      exact show BraceFree "id".toList by decide
    intro name
    rw [isPathParameter_iff hdrafts, hpath]
    constructor
    · rintro ⟨p, hp, -, rfl⟩
      obtain rfl := List.mem_singleton.1 hp
      decide
    · rintro ⟨hfree, hinfix⟩
      have hgroup := (Net.braced_infix_iff ht hfree).1 hinfix
      have hname : name.toList = "id".toList := by simpa using hgroup
      exact ⟨idDraft, List.mem_singleton.2 rfl, rfl, (String.toList_inj.1 hname).symm⟩
  exact ⟨parsed, hparsed, operation, hmem, hconflict, _, hconfig,
    (placeholder_coverage Validator.shapes.accepts _ "orders" [] parsed operation _ _ hparsed hmem
      hconflict hconfig haccepted htemplate).1 hsame⟩

/-- A placeholder without a parameter is left in the path, a parameter without a placeholder is
    refused, and a value between two pairs of braces makes a placeholder again. -/
theorem accepted_arguments_not_covered :
    (∃ parsed, OpenApiParser.parse (orderPathDocument "/orders/{id}" []) "orders" [] = .ok parsed ∧
      ∃ operation ∈ parsed.operations, operation.conflictStatus = .none ∧
        ∃ config, BindingConfigOf operation config ∧
          AcceptedBy Validator.shapes.accepts (toolInputSchema operation) [] ∧
          ¬ Covers config []) ∧
    (∃ parsed, OpenApiParser.parse (orderPathDocument "/orders" [textParameter "id" "path"])
        "orders" [] = .ok parsed ∧
      ∃ operation ∈ parsed.operations, operation.conflictStatus = .none ∧
        ∃ config, BindingConfigOf operation config ∧
          AcceptedBy Validator.shapes.accepts (toolInputSchema operation) [("id", .str "7")] ∧
          ¬ Covers config [("id", .str "7")]) ∧
    ∃ parsed, OpenApiParser.parse (orderPathDocument "/orders/{{id}}" [textParameter "id" "path"])
        "orders" [] = .ok parsed ∧
      ∃ operation ∈ parsed.operations, operation.conflictStatus = .none ∧
        ∃ config, BindingConfigOf operation config ∧
          AcceptedBy Validator.shapes.accepts (toolInputSchema operation) [("id", .str "id")] ∧
          ¬ Covers config [("id", .str "id")] := by
  refine ⟨?_, ?_, ?_⟩
  · obtain ⟨parsed, hparsed, operation, hmem, hconflict, hpath, hdrafts⟩ : ∃ parsed,
        OpenApiParser.parse (orderPathDocument "/orders/{id}" []) "orders" [] = .ok parsed ∧
        ∃ operation ∈ parsed.operations, operation.conflictStatus = .none ∧
          operation.path = "/orders/{id}" ∧ OperationDrafts operation [] none :=
      ⟨_, rfl, _, List.mem_cons_self, rfl, rfl, rfl, rfl, rfl, .nil, by simp⟩
    refine ⟨parsed, hparsed, operation, hmem, hconflict, _, (bindingConfigOf_iff hdrafts).2 rfl,
      ?_, ?_⟩
    · rw [toolInputSchema_eq hdrafts]
      exact (acceptedBy_iff (by decide)).2 ⟨by decide, by simp⟩
    · rw [covers_configOf, hpath]
      rintro ⟨mapped, hmapped, hnone⟩
      cases hmapped
      exact hnone "id" (by decide) (by decide)
  · obtain ⟨parsed, hparsed, operation, hmem, hconflict, hpath, hdrafts⟩ : ∃ parsed,
        OpenApiParser.parse (orderPathDocument "/orders" [textParameter "id" "path"]) "orders" [] =
          .ok parsed ∧
        ∃ operation ∈ parsed.operations, operation.conflictStatus = .none ∧
          operation.path = "/orders" ∧ OperationDrafts operation [idDraft] none :=
      ⟨_, rfl, _, List.mem_cons_self, rfl, rfl, rfl, rfl, rfl, namedInTurn_idDraft,
        supported_idDraft⟩
    refine ⟨parsed, hparsed, operation, hmem, hconflict, _, (bindingConfigOf_iff hdrafts).2 rfl,
      toolInputSchema_eq hdrafts ▸ accepted_id (by decide +kernel), ?_⟩
    rw [covers_configOf, hpath]
    rintro ⟨mapped, hmapped, -⟩
    -- The executor does check that the parameter it fills in has a placeholder.
    have hrefused : mapArguments "/orders" (some (.arr (mappings [idDraft])))
        [("id", .str "7")] = executorFailure "path_parameter_placeholder_missing" .validation :=
      rfl
    rw [hrefused] at hmapped
    cases hmapped
  · obtain ⟨parsed, hparsed, operation, hmem, hconflict, hpath, hdrafts⟩ : ∃ parsed,
        OpenApiParser.parse (orderPathDocument "/orders/{{id}}" [textParameter "id" "path"])
          "orders" [] = .ok parsed ∧
        ∃ operation ∈ parsed.operations, operation.conflictStatus = .none ∧
          operation.path = "/orders/{{id}}" ∧ OperationDrafts operation [idDraft] none :=
      ⟨_, rfl, _, List.mem_cons_self, rfl, rfl, rfl, rfl, rfl, namedInTurn_idDraft,
        supported_idDraft⟩
    refine ⟨parsed, hparsed, operation, hmem, hconflict, _, (bindingConfigOf_iff hdrafts).2 rfl,
      toolInputSchema_eq hdrafts ▸ accepted_id (by decide +kernel), ?_⟩
    rw [covers_configOf, hpath]
    rintro ⟨mapped, hmapped, hnone⟩
    -- The inner pair of braces is replaced, and the outer one encloses the value.
    have hmade : mapArguments "/orders/{{id}}" (some (.arr (mappings [idDraft])))
        [("id", .str "id")] = .ok { path := "/orders/{id}".toList } := rfl
    rw [hmade] at hmapped
    cases hmapped
    exact hnone "id" (by decide) (by decide)

end Orders

end NexusMcp
