-- SUMMARY: When the arguments of an operation have names of their own and one destination each.
import NexusMcp.OpenApi.DraftOperation
import NexusMcp.Execution.ArgumentOrder

/-!
# The Names of Arguments

The importer names the arguments of an operation, and the executor finds by the name where the
value goes. They agree where the names are told apart. A name that is taken is patched with the
location once, and `body` is not patched at all.
-/

namespace NexusMcp

open Net (quote)

/-! ## Names that are taken -/

namespace OpenApiParser

/-- The names that declared parameters take, in their order. -/
inductive Taken : List DeclaredParameter → String → Prop where
  | plain {declared d} (h : d ∈ declared) : Taken declared (argumentName d.name)
  | prefixed {before d after} (h : Taken before (argumentName d.name)) :
    Taken (before ++ d :: after) (d.location ++ "_" ++ argumentName d.name)

theorem not_taken_nil {name : String} : ¬ Taken [] name := by
  intro h
  generalize hdeclared : ([] : List DeclaredParameter) = declared at h
  cases h with
  | plain hmem => exact absurd (hdeclared ▸ hmem) List.not_mem_nil
  | prefixed h => exact absurd hdeclared (by simp)

theorem Taken.append {declared : List DeclaredParameter} {name : String} (h : Taken declared name)
    (rest : List DeclaredParameter) : Taken (declared ++ rest) name := by
  cases h with
  | plain hmem => exact .plain (List.mem_append_left _ hmem)
  | prefixed h =>
    rw [List.append_assoc]
    exact .prefixed h

/-- The last parameter takes its own name, or the one with its location before it. -/
theorem taken_snoc {declared : List DeclaredParameter} {d : DeclaredParameter} {name : String} :
    Taken (declared ++ [d]) name ↔ Taken declared name ∨ name = argumentName d.name ∨
      Taken declared (argumentName d.name) ∧ name = d.location ++ "_" ++ argumentName d.name := by
  constructor
  · intro h
    generalize hall : declared ++ [d] = all at h
    cases h with
    | plain hmem =>
      subst hall
      obtain hmem | hmem := List.mem_append.1 hmem
      · exact .inl (.plain hmem)
      · rw [List.mem_singleton.1 hmem]
        exact .inr (.inl rfl)
    | @prefixed before d' after h =>
      obtain rfl | ⟨after', last, rfl⟩ := after.eq_nil_or_concat
      · obtain ⟨rfl, hlast⟩ := List.append_inj' hall rfl
        obtain rfl := (List.cons.inj hlast).1
        exact .inr (.inr ⟨h, rfl⟩)
      · rw [List.concat_eq_append, ← List.cons_append, ← List.append_assoc] at hall
        obtain ⟨rfl, -⟩ := List.append_inj' hall rfl
        exact .inl (.prefixed h)
  · rintro (h | rfl | ⟨h, rfl⟩)
    · exact h.append [d]
    · exact .plain (by simp)
    · exact .prefixed h

/-- The names of the arguments are those that are taken. -/
theorem mem_arguments_iff {parameters : List DraftParameter} (h : NamedInTurn parameters)
    {name : String} : name ∈ parameters.map (·.argument) ↔
      Taken (parameters.map (·.toDeclaredParameter)) name := by
  induction h generalizing name with
  | nil => exact iff_of_false List.not_mem_nil not_taken_nil
  | @snoc parameters p _ hargument ih =>
    rw [List.map_append, List.mem_append, List.map_singleton, List.mem_singleton, ih,
      List.map_append, List.map_singleton, taken_snoc, hargument, DeclaredParameter.argumentFor]
    by_cases htaken : Taken (parameters.map (·.toDeclaredParameter)) (argumentName p.name)
    · rw [if_pos (ih.2 htaken), and_iff_right htaken]
      refine or_congr_right' fun hfree => ⟨.inr, fun h => h.resolve_left ?_⟩
      rintro rfl
      exact hfree htaken
    · rw [if_neg (htaken <| ih.1 ·)]
      simp [htaken]

/-- The patched names are free. -/
def Patched (declared : List DeclaredParameter) : Prop :=
  ∀ before d after, declared = before ++ d :: after → Taken before (argumentName d.name) →
    ¬ Taken before (d.location ++ "_" ++ argumentName d.name)

/-- A parameter is named after those before it. -/
theorem NamedInTurn.split {before after : List DraftParameter} {p : DraftParameter}
    (h : NamedInTurn (before ++ p :: after)) :
    NamedInTurn before ∧ p.argument = p.argumentFor (before.map (·.argument)) := by
  induction after using List.reverseRecOn with
  | nil =>
    generalize hall : before ++ [p] = all at h
    cases h with
    | nil => simp at hall
    | snoc h hargument =>
      obtain ⟨rfl, hlast⟩ := List.append_inj' hall rfl
      obtain rfl := (List.cons.inj hlast).1
      exact ⟨h, hargument⟩
  | append_singleton after last ih =>
    generalize hall : before ++ p :: (after ++ [last]) = all at h
    cases h with
    | nil => simp at hall
    | snoc h hargument =>
      rw [← List.cons_append, ← List.append_assoc] at hall
      obtain ⟨rfl, -⟩ := List.append_inj' hall rfl
      exact ih h

/-- The names differ exactly where the patched ones are free. -/
theorem nodup_arguments_iff {parameters : List DraftParameter} (h : NamedInTurn parameters) :
    (parameters.map (·.argument)).Nodup ↔ Patched (parameters.map (·.toDeclaredParameter)) := by
  constructor
  · rintro hnodup _ d _ hsplit htaken hpatched
    obtain ⟨before, rest, rfl, rfl, hrest⟩ := List.map_eq_append_iff.1 hsplit
    obtain ⟨p, after, rfl, rfl, rfl⟩ := List.map_eq_cons_iff.1 hrest
    obtain ⟨hbefore, hargument⟩ := h.split
    rw [DeclaredParameter.argumentFor, if_pos ((mem_arguments_iff hbefore).2 htaken)] at hargument
    rw [← hargument, ← mem_arguments_iff hbefore] at hpatched
    rw [List.map_append, List.map_cons, List.nodup_append] at hnodup
    exact hnodup.2.2 _ hpatched _ List.mem_cons_self rfl
  · intro hpatched
    induction h with
    | nil => exact .nil
    | @snoc parameters p h hargument ih =>
      rw [List.map_append, List.map_singleton] at hpatched ⊢
      have hbefore : Patched (parameters.map (·.toDeclaredParameter)) := by
        intro before d after hsplit
        exact hpatched before d (after ++ [p.toDeclaredParameter]) (by rw [hsplit]; simp)
      rw [List.nodup_append]
      refine ⟨ih hbefore, by simp, ?_⟩
      rintro name hname _ hlast rfl
      rw [List.mem_singleton.1 hlast, hargument, mem_arguments_iff h,
        DeclaredParameter.argumentFor] at hname
      split at hname
      · next hmem =>
        exact hpatched _ _ [] rfl ((mem_arguments_iff h).1 hmem) hname
      · next hfree => exact hfree ((mem_arguments_iff h).2 hname)

/-- A name that is taken is not empty, where none is without the location before it. -/
theorem Taken.ne_empty {declared : List DeclaredParameter} {name : String}
    (h : Taken declared name) (hnamed : ∀ d ∈ declared, argumentName d.name ≠ "") : name ≠ "" := by
  cases h with
  | plain hmem => exact hnamed _ hmem
  | prefixed =>
    intro hempty
    have hlength := congrArg String.length hempty
    simp [String.length_append] at hlength

/-- Declared parameters with the names that they are given. -/
def draftOf (declared : List DeclaredParameter) : List DraftParameter :=
  declared.foldl (fun parameters d =>
    parameters ++ [{ d with argument := d.argumentFor (parameters.map (·.argument)) }]) []

theorem draftOf_append {declared : List DeclaredParameter} {d : DeclaredParameter} :
    draftOf (declared ++ [d]) = draftOf declared ++
      [{ d with argument := d.argumentFor ((draftOf declared).map (·.argument)) }] := by
  rw [draftOf, List.foldl_append]
  rfl

theorem namedInTurn_draftOf (declared : List DeclaredParameter) :
    NamedInTurn (draftOf declared) := by
  induction declared using List.reverseRecOn with
  | nil => exact .nil
  | append_singleton declared d ih =>
    rw [draftOf_append]
    exact ih.snoc rfl

theorem declared_draftOf (declared : List DeclaredParameter) :
    (draftOf declared).map (·.toDeclaredParameter) = declared := by
  induction declared using List.reverseRecOn with
  | nil => rfl
  | append_singleton declared d ih => rw [draftOf_append, List.map_append, ih, List.map_singleton]

instance (declared : List DeclaredParameter) (name : String) : Decidable (Taken declared name) :=
  decidable_of_iff (name ∈ (draftOf declared).map (·.argument)) <| by
    rw [mem_arguments_iff (namedInTurn_draftOf declared), declared_draftOf]

instance (declared : List DeclaredParameter) : Decidable (Patched declared) :=
  decidable_of_iff ((draftOf declared).map (·.argument)).Nodup <| by
    rw [nodup_arguments_iff (namedInTurn_draftOf declared), declared_draftOf]

end OpenApiParser

open OpenApiParser (Declares DeclaredParameter DraftParameter OperationDrafts NamedInTurn Patched
  RequestBody Taken argumentName inputSchemaOf parameterProperties requiredOf)

/-! ## What the importer and the executor do with a name -/

/-- The text under a name, or the empty one. -/
def textOf (fields : JsonObject) (name : String) : String :=
  ((fields.get name).bind asString).getD ""

def normalizedParameters (operation : ParsedOperation) : List JsonObject :=
  match operation.normalizedOperation.get "parameters" with
  | some (.arr items) => items.filterMap asObject
  | _ => []

def normalizedBody (operation : ParsedOperation) : Option JsonObject :=
  (operation.normalizedOperation.get "request_body").bind asObject

def toolInputSchema (operation : ParsedOperation) : JsonObject :=
  ((operation.normalizedOperation.get "tool_input_schema").bind asObject).getD []

/-- The names of the arguments, and `body` where there is one. -/
def argumentNames (operation : ParsedOperation) : List String :=
  (normalizedParameters operation).map (textOf · "argument_name") ++
    (normalizedBody operation).toList.map fun _ => "body"

/-- The name of each argument with the schema of its own parameter, or of the body. -/
def ownSchemas (operation : ParsedOperation) : JsonObject :=
  (normalizedParameters operation).map
      (fun fields => (textOf fields "argument_name", (fields.get "schema").getD .null)) ++
    (normalizedBody operation).toList.map fun fields => ("body", (fields.get "schema").getD .null)

/-- A schema without additional properties accepts the arguments: those that are required are
    given, and each is a property and conforms to its schema. -/
structure AcceptedBy (conforms : Json → Json → Prop) (schema arguments : JsonObject) : Prop where
  required : ∀ names, schema.get "required" = some (.arr names) →
    ∀ name, .str name ∈ names → name ∈ arguments.map (·.1)
  properties : ∀ properties, schema.get "properties" = some (.obj properties) →
    ∀ argument ∈ arguments, ∃ property,
      JsonObject.get properties argument.1 = some property ∧ conforms property argument.2

/-- Where an argument goes. -/
inductive Destination where
  | parameter (upstreamName location : String)
  | body
deriving Repr, DecidableEq

/-- The executor reads an argument for a destination of the binding. -/
inductive SentTo [PyStr] (config : JsonObject) (name : String) : Destination → Prop where
  | parameter {parameters fields} (hparameters : config.get "parameters" = some (.arr parameters))
    (hmem : .obj fields ∈ parameters) (hname : textField fields "argument_name" = name) :
    SentTo config name
      (.parameter (textField fields "upstream_name") (textField fields "location"))
  | body {fields} (hmethod : upperAscii (textField config "method") ≠ "GET")
    (hbody : config.get "request_body" = some (.obj fields))
    (hname : textField fields "argument_name" = name) : SentTo config name .body

/-- The executor places the arguments that are sent to parameters, and no others. -/
theorem mem_placements_iff [PyStr] {config arguments : JsonObject} {parameters : List Json}
    (hparameters : config.get "parameters" = some (.arr parameters)) {p : Placement} :
    p ∈ parameters.filterMap (placed? arguments) ↔
      ∃ name value, SentTo config name (.parameter p.upstreamName p.location) ∧
        arguments.get name = some value ∧ p.value = pyStr value := by
  rw [List.mem_filterMap]
  constructor
  · rintro ⟨raw, hraw, hplaced⟩
    cases raw with
    | obj fields =>
      unfold placed? placement at hplaced
      dsimp only at hplaced
      split at hplaced
      · split at hplaced <;> cases hplaced
      · next value hvalue =>
        cases hplaced
        exact ⟨_, value, .parameter hparameters hraw rfl, hvalue, rfl⟩
    | null | bool _ | int _ | float _ | str _ | arr _ => cases hplaced
  · rintro ⟨name, value, hsent, hvalue, htext⟩
    generalize hdestination : Destination.parameter p.upstreamName p.location = destination at hsent
    cases hsent with
    | body => cases hdestination
    | @parameter parameters' fields hparameters' hmem hname =>
      obtain rfl : parameters = parameters' := by
        simpa [hparameters] using hparameters'
      obtain ⟨hupstream, hlocation⟩ := Destination.parameter.inj hdestination
      refine ⟨.obj fields, hmem, ?_⟩
      have hplacement : placement arguments (.obj fields) = .ok (some p) := by
        rw [placement, hname, hvalue, ← hupstream, ← hlocation]
        dsimp only
        rw [← htext]
      rw [placed?, hplacement]
      rfl

/-- A body that is mapped is an argument that is sent to it. -/
theorem sentTo_of_mapRequestBody [PyStr] {config arguments : JsonObject} {value : Json}
    (h : mapRequestBody (upperAscii (textField config "method")) (config.get "request_body")
      arguments = .ok (some value)) :
    ∃ name, SentTo config name .body ∧ arguments.get name = some value := by
  unfold mapRequestBody at h
  split at h
  · cases h
  · next hmethod =>
    split at h
    · next fields hbody =>
      cases hvalue : arguments.get (textField fields "argument_name") with
      | none =>
        simp only [hvalue] at h
        split_ifs at h <;> cases h
      | some value' =>
        simp only [hvalue] at h
        split_ifs at h
        · cases h
          exact ⟨_, .body hmethod hbody rfl, hvalue⟩
        · cases h
    · cases h

/-- The configuration is that of a binding which is built for the operation. -/
def BindingConfigOf (operation : ParsedOperation) (config : JsonObject) : Prop :=
  ∃ (imported : ImportedOperation) (parameters : List JsonObject) (requestBody : Option JsonObject),
    imported.method = operation.method ∧ imported.path = operation.path ∧
    listOfMappings (operation.normalizedOperation.get "parameters") "parameters" = .ok parameters ∧
    optionalMapping (operation.normalizedOperation.get "request_body") "request body" =
      .ok requestBody ∧
    config = ReviewImportedOperation.bindingConfig imported parameters requestBody

/-- The result of the mapping has a value at a destination. The path is the template with its
    placeholders filled in one after the other, one of them with the value. -/
def HoldsAt [PyStr] (config arguments : JsonObject) (mapped : MappedArguments) (body : Option Json)
    (value : Json) : Destination → Prop
  | .parameter upstreamName location =>
    (location = "path" ∧ ∃ before after,
      substitutions (config.get "parameters") arguments =
        before ++ ⟨placeholder upstreamName, quote (pyStr value).toList⟩ :: after ∧
      placeholder upstreamName <:+: fill before (textField config "path_template").toList ∧
      mapped.path = fill (substitutions (config.get "parameters") arguments)
        (textField config "path_template").toList) ∨
    (location = "query" ∧ (upstreamName, pyStr value) ∈ mapped.query) ∨
    (location = "header" ∧ (upstreamName, pyStr value) ∈ mapped.headers)
  | .body => body = some value

/-- The mapping succeeds, has the value of each argument at one destination, and has nothing else
    in the query, in the headers and as the body. -/
structure Delivers [PyStr] (config arguments : JsonObject) (mapped : MappedArguments)
    (body : Option Json) : Prop where
  mapsArguments : mapArguments (textField config "path_template") (config.get "parameters")
    arguments = .ok mapped
  mapsBody : mapRequestBody (upperAscii (textField config "method")) (config.get "request_body")
    arguments = .ok body
  once : ∀ argument ∈ arguments, ∃! destination,
    SentTo config argument.1 destination ∧ HoldsAt config arguments mapped body argument.2 destination
  onlyTexts : ∀ location texts,
    (location, texts) ∈ [("query", mapped.query), ("header", mapped.headers)] →
      ∀ entry ∈ texts, ∃ argument ∈ arguments,
        SentTo config argument.1 (.parameter entry.1 location) ∧ entry.2 = pyStr argument.2
  onlyBody : ∀ value ∈ body, ∃ argument ∈ arguments,
    SentTo config argument.1 .body ∧ argument.2 = value

/-- The importer and the executor agree on the names of the arguments. -/
structure NamesAgree [PyStr] (conforms : Json → Json → Prop) (operation : ParsedOperation) :
    Prop where
  nonempty : ∀ name ∈ argumentNames operation, name ≠ ""
  distinct : (argumentNames operation).Nodup
  properties : (toolInputSchema operation).get "properties" = some (.obj (ownSchemas operation))
  required : ∃ names : List String,
    (toolInputSchema operation).get "required" = some (.arr (names.map .str)) ∧ names.Nodup
  sent : ∀ config, BindingConfigOf operation config → ∀ arguments,
    (arguments.map (·.1)).Nodup → AcceptedBy conforms (toolInputSchema operation) arguments →
      arguments ≠ [] → ∃ mapped body, Delivers config arguments mapped body

/-! ## When they agree -/

/-- Values for parameters and a body: one for each that is required, and each as the schema
    admits. -/
structure Offer (conforms : Json → Json → Prop) (declared : List DeclaredParameter)
    (body : Option RequestBody) where
  value : DeclaredParameter → Option Json
  bodyValue : Option Json
  required : ∀ d ∈ declared, d.required = true → value d ≠ none
  admitted : ∀ d ∈ declared, ∀ v ∈ value d, conforms d.schema v
  bodyDeclared : bodyValue ≠ none → body ≠ none
  bodyRequired : ∀ b ∈ body, b.required = true → bodyValue ≠ none
  bodyAdmitted : ∀ b ∈ body, ∀ v ∈ bodyValue, conforms b.schema v

namespace Offer

variable {conforms : Json → Json → Prop} {declared : List DeclaredParameter}
  {body : Option RequestBody}

/-- There is a value for something. -/
def Gives (self : Offer conforms declared body) : Prop :=
  (∃ d ∈ declared, self.value d ≠ none) ∨ self.bodyValue ≠ none

/-- What the path parameters put in the path. -/
def substitutions [PyStr] (self : Offer conforms declared body) : List Substitution :=
  declared.filterMap fun d =>
    if d.location = "path" then
      (self.value d).map fun v => ⟨placeholder d.name, quote (pyStr v).toList⟩
    else none

/-- The placeholder of each path parameter is in the path when its turn comes. A body is declared
    for a method that has one, and is given for no other. -/
structure Sendable [PyStr] (offer : Offer conforms declared body) (method path : String) :
    Prop where
  occur : Occur offer.substitutions path.toList
  bodySent : if method = "GET" then offer.bodyValue = none else body ≠ none

end Offer

/-- Every name is left with a letter or a digit, none is taken once it is patched, nor is `body`
    where there is one, and what can be given can be sent. -/
structure NamesSeparate [PyStr] (conforms : Json → Json → Prop) (method path : String)
    (declared : List DeclaredParameter) (body : Option RequestBody) : Prop where
  named : ∀ d ∈ declared, argumentName d.name ≠ ""
  patched : Patched declared
  unpatched : body ≠ none → ¬ Taken declared "body"
  sent : ∀ offer : Offer conforms declared body, offer.Gives → offer.Sendable method path

/-! ## Drafts -/

section Drafts

variable {operation : ParsedOperation} {parameters : List DraftParameter}
  {body : Option RequestBody}

/-- The names of the arguments of a draft. -/
def namesOf (parameters : List DraftParameter) (body : Option RequestBody) : List String :=
  parameters.map (·.argument) ++ body.toList.map fun _ => "body"

theorem filterMap_asObject_toJson :
    (parameters.map (·.toJson)).filterMap asObject = parameters.map (·.fields) := by
  rw [List.filterMap_map]
  exact congrFun List.filterMap_eq_map parameters

theorem listOfMappings_toJson {fieldName : String} :
    listOfMappings (some (.arr (parameters.map (·.toJson)))) fieldName =
      .ok (parameters.map (·.fields)) := by
  have hmapM : (parameters.map (·.toJson)).mapM asObject = some (parameters.map (·.fields)) := by
    induction parameters with
    | nil => rfl
    | cons p parameters ih =>
      rw [List.map_cons, List.mapM_cons, ih]
      rfl
  rw [listOfMappings, hmapM]
  rfl

theorem normalizedParameters_eq (h : OperationDrafts operation parameters body) :
    normalizedParameters operation = parameters.map (·.fields) := by
  rw [normalizedParameters, h.hasParameters]
  exact filterMap_asObject_toJson

theorem normalizedBody_eq (h : OperationDrafts operation parameters body) :
    normalizedBody operation = body.map (·.fields) := by
  rw [normalizedBody, h.hasBody]
  cases body <;> rfl

theorem argumentNames_eq (h : OperationDrafts operation parameters body) :
    argumentNames operation = namesOf parameters body := by
  rw [argumentNames, normalizedParameters_eq h, normalizedBody_eq h, List.map_map]
  cases body <;> rfl

theorem ownSchemas_eq (h : OperationDrafts operation parameters body) :
    ownSchemas operation = parameters.map (fun p => (p.argument, p.schema)) ++
      body.toList.map fun b => ("body", b.schema) := by
  rw [ownSchemas, normalizedParameters_eq h, normalizedBody_eq h, List.map_map]
  cases body <;> rfl

theorem toolInputSchema_eq (h : OperationDrafts operation parameters body) :
    toolInputSchema operation = inputSchemaOf parameters body := by
  rw [toolInputSchema, h.hasSchema]
  rfl

theorem optionalMapping_eq (h : OperationDrafts operation parameters body) {fieldName : String} :
    optionalMapping (operation.normalizedOperation.get "request_body") fieldName =
      .ok (body.map (·.fields)) := by
  rw [h.hasBody]
  cases body <;> rfl

/-- The mapping of a parameter of a draft. -/
def mappingOf (p : DraftParameter) : JsonObject := [
  ("argument_name", .str p.argument),
  ("upstream_name", .str p.name),
  ("location", .str p.location),
  ("required", .bool p.required)]

/-- The mapping of a body. -/
def bodyMappingOf (b : RequestBody) : JsonObject := [
  ("argument_name", .str "body"),
  ("content_type", .str "application/json"),
  ("required", .bool b.required)]

theorem parameterConfig_fields (p : DraftParameter) :
    ReviewImportedOperation.parameterConfig p.fields = .obj (mappingOf p) := by
  obtain ⟨⟨name, location, required, schema⟩, argument⟩ := p
  cases required <;> rfl

theorem requestBodyConfig_fields (b : RequestBody) :
    ReviewImportedOperation.requestBodyConfig b.fields = .obj (bodyMappingOf b) := by
  obtain ⟨required, schema⟩ := b
  cases required <;> rfl

/-- What the binding of a draft is configured with. -/
def configOf (operation : ParsedOperation) (parameters : List DraftParameter)
    (body : Option RequestBody) : JsonObject := [
  ("method", .str operation.method),
  ("path_template", .str operation.path),
  ("parameters", .arr (parameters.map fun p => .obj (mappingOf p))),
  ("request_body", body.elim .null fun b => .obj (bodyMappingOf b))]

theorem bindingConfig_fields {imported : ImportedOperation}
    (hmethod : imported.method = operation.method) (hpath : imported.path = operation.path) :
    ReviewImportedOperation.bindingConfig imported (parameters.map (·.fields))
      (body.map (·.fields)) = configOf operation parameters body := by
  have hparameters : (parameters.map (·.fields)).map ReviewImportedOperation.parameterConfig =
      parameters.map fun p => .obj (mappingOf p) := by
    rw [List.map_map]
    exact List.map_congr_left fun p _ => parameterConfig_fields p
  have hbody : ((body.map (·.fields)).map ReviewImportedOperation.requestBodyConfig).getD .null =
      body.elim .null fun b => .obj (bodyMappingOf b) := by
    cases body with
    | none => rfl
    | some b => exact requestBodyConfig_fields b
  rw [ReviewImportedOperation.bindingConfig, hparameters, hbody, hmethod, hpath, configOf]

theorem bindingConfigOf_iff (h : OperationDrafts operation parameters body) {config : JsonObject} :
    BindingConfigOf operation config ↔ config = configOf operation parameters body := by
  constructor
  · rintro ⟨imported, fields, requestBody, hmethod, hpath, hfields, hbody, rfl⟩
    rw [h.hasParameters, listOfMappings_toJson] at hfields
    rw [optionalMapping_eq h] at hbody
    cases hfields
    cases hbody
    exact bindingConfig_fields hmethod hpath
  · rintro rfl
    -- What an import adds to the operation does not matter.
    let imported : ImportedOperation := {
      id := ""
      tenantId := ""
      importJobId := ""
      upstreamServiceId := ""
      operationKey := operation.operationKey
      operationId := operation.operationId
      method := operation.method
      path := operation.path
      normalizedOperation := operation.normalizedOperation
      generatedToolName := operation.generatedToolName
      conflictStatus := operation.conflictStatus
      reviewStatus := .pending }
    refine ⟨imported, parameters.map (·.fields), body.map (·.fields), rfl, rfl, ?_,
      optionalMapping_eq h, (bindingConfig_fields rfl rfl).symm⟩
    rw [h.hasParameters, listOfMappings_toJson]

/-- What is read for a destination of a draft. -/
theorem sentTo_iff [PyStr] {name : String} {destination : Destination} :
    SentTo (configOf operation parameters body) name destination ↔
      (∃ p ∈ parameters, p.argument = name ∧ destination = .parameter p.name p.location) ∨
      (body ≠ none ∧ upperAscii operation.method ≠ "GET" ∧ name = "body" ∧
        destination = .body) := by
  constructor
  · intro hsent
    cases hsent with
    | parameter hparameters hmem hname =>
      cases hparameters
      obtain ⟨p, hp, hfields⟩ := List.mem_map.1 hmem
      cases hfields
      exact .inl ⟨p, hp, hname, rfl⟩
    | body hmethod hbody hname =>
      cases body with
      | none => cases hbody
      | some b =>
        cases hbody
        exact .inr ⟨by simp, hmethod, hname.symm, rfl⟩
  · rintro (⟨p, hp, rfl, rfl⟩ | ⟨hbody, hmethod, rfl, rfl⟩)
    · have hmem : .obj (mappingOf p) ∈ parameters.map fun p => Json.obj (mappingOf p) :=
        List.mem_map_of_mem hp
      exact SentTo.parameter rfl hmem rfl
    · obtain ⟨b, rfl⟩ := Option.ne_none_iff_exists'.1 hbody
      have hmapping : (configOf operation parameters (some b)).get "request_body" =
          some (.obj (bodyMappingOf b)) := rfl
      exact SentTo.body hmethod hmapping rfl

end Drafts

/-! ## The agreement -/

theorem get_of_mem {fields : JsonObject} (hnodup : (fields.map (·.1)).Nodup) {name : String}
    {value : Json} (h : (name, value) ∈ fields) : fields.get name = some value := by
  rw [JsonObject.get, Option.map_eq_some_iff]
  cases hfound : fields.find? (·.1 = name) with
  | none => simpa using List.find?_eq_none.1 hfound (name, value) h
  | some field =>
    have hname : field.1 = name := by simpa using List.find?_some hfound
    have hfield := List.inj_on_of_nodup_map hnodup (List.mem_of_find?_eq_some hfound) h hname
    exact ⟨field, rfl, congrArg (·.2) hfield⟩

theorem mem_of_get {fields : JsonObject} {name : String} {value : Json}
    (h : fields.get name = some value) : (name, value) ∈ fields := by
  obtain ⟨field, hfound, rfl⟩ := Option.map_eq_some_iff.1 h
  have hname : field.1 = name := by simpa using List.find?_some hfound
  rw [← hname]
  exact List.mem_of_find?_eq_some hfound

/-- A name that is given has a value. -/
theorem exists_get_of_mem_keys {fields : JsonObject} {name : String}
    (h : name ∈ fields.map (·.1)) : ∃ value, fields.get name = some value := by
  obtain ⟨field, hfield, hname⟩ := List.mem_map.1 h
  rw [JsonObject.get]
  cases hfound : fields.find? (·.1 = name) with
  | none => simpa [hname] using List.find?_eq_none.1 hfound field hfield
  | some field => exact ⟨field.2, rfl⟩

section Agreement

variable {operation : ParsedOperation} {parameters : List DraftParameter}
  {body : Option RequestBody} {conforms : Json → Json → Prop}

/-- The properties of a draft, each name with its own schema. -/
def propertiesOf (parameters : List DraftParameter) (body : Option RequestBody) : JsonObject :=
  parameters.map (fun p => (p.argument, p.schema)) ++ body.toList.map fun b => ("body", b.schema)

theorem keys_propertiesOf : (propertiesOf parameters body).map (·.1) = namesOf parameters body := by
  rw [propertiesOf, namesOf, List.map_append, List.map_map, List.map_map]
  rfl

theorem parameterProperties_eq (hnodup : (parameters.map (·.argument)).Nodup) :
    parameterProperties parameters = parameters.map fun p => (p.argument, p.schema) := by
  induction parameters using List.reverseRecOn with
  | nil => rfl
  | append_singleton parameters p ih =>
    rw [List.map_append, List.map_singleton, List.nodup_append] at hnodup
    have hfresh : p.argument ∉ (parameterProperties parameters).map (·.1) := by
      rw [OpenApiParser.mem_keys_parameterProperties]
      exact fun hmem => hnodup.2.2 _ hmem _ (List.mem_singleton.2 rfl) rfl
    rw [OpenApiParser.parameterProperties_append, OpenApiParser.set_of_not_mem_keys hfresh,
      ih hnodup.1, List.map_append, List.map_singleton]

/-- Where the names differ, nothing of the properties is overwritten. -/
theorem get_properties (hnodup : (namesOf parameters body).Nodup) :
    (inputSchemaOf parameters body).get "properties" =
      some (.obj (propertiesOf parameters body)) := by
  have hparameters : (parameters.map (·.argument)).Nodup := (List.nodup_append.1 hnodup).1
  have hset : (body.elim (parameterProperties parameters) fun body =>
      (parameterProperties parameters).set "body" body.schema) = propertiesOf parameters body := by
    cases body with
    | none => simp [propertiesOf, parameterProperties_eq hparameters]
    | some b =>
      have hfresh : "body" ∉ (parameterProperties parameters).map (·.1) := by
        rw [OpenApiParser.mem_keys_parameterProperties]
        exact fun hmem => (List.nodup_append.1 hnodup).2.2 _ hmem "body" (by simp) rfl
      rw [Option.elim_some, OpenApiParser.set_of_not_mem_keys hfresh,
        parameterProperties_eq hparameters]
      rfl
  rw [← hset]
  rfl

/-- The names that the schema requires. -/
def requiredArgumentNames (parameters : List DraftParameter) (body : Option RequestBody) :
    List String :=
  requiredOf parameters ++ if body.any (·.required) then ["body"] else []

theorem get_required : (inputSchemaOf parameters body).get "required" =
    some (.arr ((requiredArgumentNames parameters body).map .str)) := rfl

theorem sublist_requiredArgumentNames :
    (requiredArgumentNames parameters body).Sublist (namesOf parameters body) := by
  refine List.Sublist.append (List.filter_sublist.map _) ?_
  cases body with
  | none => exact List.Sublist.refl _
  | some b =>
    simp only [Option.any_some]
    split
    · exact List.Sublist.refl _
    · exact List.nil_sublist _

theorem mem_requiredArgumentNames_iff {name : String} :
    name ∈ requiredArgumentNames parameters body ↔
      (∃ p ∈ parameters, p.required = true ∧ p.argument = name) ∨
        ∃ b, body = some b ∧ b.required = true ∧ "body" = name := by
  rw [requiredArgumentNames, List.mem_append]
  refine or_congr ?_ ?_
  · simp [requiredOf, and_assoc]
  · cases body with
    | none => simp
    | some b =>
      rw [Option.any_some]
      constructor
      · intro hname
        split at hname
        · next hrequired => exact ⟨b, rfl, hrequired, (List.mem_singleton.1 hname).symm⟩
        · cases hname
      · rintro ⟨b', hb, hrequired, rfl⟩
        cases hb
        rw [if_pos hrequired]
        exact List.mem_singleton.2 rfl

/-- Accepted arguments are named, and what is required is given. -/
theorem acceptedBy_iff (hnodup : (namesOf parameters body).Nodup) {arguments : JsonObject} :
    AcceptedBy conforms (inputSchemaOf parameters body) arguments ↔
      (∀ name ∈ requiredArgumentNames parameters body, name ∈ arguments.map (·.1)) ∧
      ∀ argument ∈ arguments, ∃ property,
        (argument.1, property) ∈ propertiesOf parameters body ∧ conforms property argument.2 := by
  have hkeys : ((propertiesOf parameters body).map (·.1)).Nodup := by rwa [keys_propertiesOf]
  constructor
  · intro h
    refine ⟨fun name hname => h.required _ get_required name (List.mem_map_of_mem hname), ?_⟩
    intro argument hargument
    obtain ⟨property, hget, hconforms⟩ := h.properties _ (get_properties hnodup) argument hargument
    exact ⟨property, mem_of_get hget, hconforms⟩
  · rintro ⟨hrequired, hproperties⟩
    refine ⟨fun names hnames name hname => ?_, fun properties hget argument hargument => ?_⟩
    · rw [get_required] at hnames
      cases hnames
      obtain ⟨name', hmem, heq⟩ := List.mem_map.1 hname
      cases heq
      exact hrequired name hmem
    · rw [get_properties hnodup] at hget
      cases hget
      obtain ⟨property, hmem, hconforms⟩ := hproperties argument hargument
      exact ⟨property, get_of_mem hkeys hmem, hconforms⟩

/-- A property is that of a parameter, or that of the body. -/
theorem mem_propertiesOf {name : String} {property : Json} :
    (name, property) ∈ propertiesOf parameters body ↔
      (∃ p ∈ parameters, p.argument = name ∧ p.schema = property) ∨
        ∃ b, body = some b ∧ "body" = name ∧ b.schema = property := by
  simp [propertiesOf]

/-- A name has one property. -/
theorem property_unique (hnodup : (namesOf parameters body).Nodup) {name : String}
    {property property' : Json} (h : (name, property) ∈ propertiesOf parameters body)
    (h' : (name, property') ∈ propertiesOf parameters body) : property = property' := by
  rw [← keys_propertiesOf] at hnodup
  exact (Prod.mk.inj (List.inj_on_of_nodup_map hnodup h h' rfl)).2

/-- No parameter is named as the body is, where there is one. -/
theorem argument_ne_body (hnodup : (namesOf parameters body).Nodup) {p : DraftParameter}
    (hp : p ∈ parameters) (hbody : body ≠ none) : p.argument ≠ "body" := by
  obtain ⟨b, rfl⟩ := Option.ne_none_iff_exists'.1 hbody
  exact (List.nodup_append.1 hnodup).2.2 _ (List.mem_map_of_mem hp) _ (by simp)

/-- Every name that is required is given. -/
theorem given_of_accepted {arguments : JsonObject}
    (haccepted : AcceptedBy conforms (inputSchemaOf parameters body) arguments) {name : String}
    (hname : name ∈ requiredArgumentNames parameters body) :
    ∃ value, arguments.get name = some value :=
  exists_get_of_mem_keys (haccepted.required _ get_required _ (List.mem_map_of_mem hname))

/-! ### What can be given -/

/-- The arguments that are given. -/
def argumentsOf (parameters : List DraftParameter)
    (offer : Offer conforms (parameters.map (·.toDeclaredParameter)) body) : JsonObject :=
  parameters.filterMap (fun p =>
      (offer.value p.toDeclaredParameter).map fun v => (p.argument, v)) ++
    offer.bodyValue.toList.map fun v => ("body", v)

/-- The arguments are those of the offer. -/
structure MatchesOffer (offer : Offer conforms (parameters.map (·.toDeclaredParameter)) body)
    (arguments : JsonObject) : Prop where
  value : ∀ p ∈ parameters, arguments.get p.argument = offer.value p.toDeclaredParameter
  bodyValue : body ≠ none → arguments.get "body" = offer.bodyValue

section Offers

variable {offer : Offer conforms (parameters.map (·.toDeclaredParameter)) body}
  {arguments : JsonObject}

theorem mem_argumentsOf {name : String} {value : Json} :
    (name, value) ∈ argumentsOf parameters offer ↔
      (∃ p ∈ parameters, offer.value p.toDeclaredParameter = some value ∧ p.argument = name) ∨
        offer.bodyValue = some value ∧ "body" = name := by
  simp only [argumentsOf, List.mem_append, List.mem_filterMap, Option.map_eq_some_iff,
    Prod.mk.injEq, List.mem_map, Option.mem_toList]
  refine or_congr ?_ ?_
  · constructor
    · rintro ⟨p, hp, v, hvalue, hname, rfl⟩
      exact ⟨p, hp, hvalue, hname⟩
    · rintro ⟨p, hp, hvalue, hname⟩
      exact ⟨p, hp, value, hvalue, hname, rfl⟩
  · constructor
    · rintro ⟨v, hvalue, hname, rfl⟩
      exact ⟨hvalue, hname⟩
    · rintro ⟨hvalue, hname⟩
      exact ⟨value, hvalue, hname, rfl⟩

theorem body_ne_none_of_offer {v : Json} (h : offer.bodyValue = some v) : body ≠ none :=
  offer.bodyDeclared (by rw [h]; exact Option.some_ne_none v)

theorem sublist_keys {value : DraftParameter → Option Json} (parameters : List DraftParameter) :
    ((parameters.filterMap fun p => (value p).map fun v => (p.argument, v)).map (·.1)).Sublist
      (parameters.map (·.argument)) := by
  induction parameters with
  | nil => exact List.Sublist.refl _
  | cons p parameters ih =>
    rw [List.filterMap_cons]
    cases value p with
    | none => exact ih.cons _
    | some v => exact ih.cons_cons _

theorem sublist_keys_argumentsOf :
    ((argumentsOf parameters offer).map (·.1)).Sublist (namesOf parameters body) := by
  rw [argumentsOf, namesOf, List.map_append]
  refine (sublist_keys parameters).append ?_
  cases hvalue : offer.bodyValue with
  | none => exact List.nil_sublist _
  | some v =>
    obtain ⟨b, hb⟩ := Option.ne_none_iff_exists'.1 (body_ne_none_of_offer hvalue)
    rw [hb]
    exact List.Sublist.refl _

/-- The names differ, so that what is given for a name can be read back. -/
theorem matches_argumentsOf (hnodup : (namesOf parameters body).Nodup) :
    MatchesOffer offer (argumentsOf parameters offer) := by
  have hkeys := hnodup.sublist (@sublist_keys_argumentsOf _ _ _ offer)
  have hparameters := (List.nodup_append.1 hnodup).1
  constructor
  · intro p hp
    apply Option.ext
    intro v
    constructor
    · intro hget
      obtain ⟨q, hq, hvalue, hname⟩ | ⟨hvalue, hname⟩ := mem_argumentsOf.1 (mem_of_get hget)
      · rwa [← List.inj_on_of_nodup_map hparameters hq hp hname]
      · exact absurd hname.symm (argument_ne_body hnodup hp (body_ne_none_of_offer hvalue))
    · intro hvalue
      exact get_of_mem hkeys (mem_argumentsOf.2 (.inl ⟨p, hp, hvalue, rfl⟩))
  · intro hsome
    apply Option.ext
    intro v
    constructor
    · intro hget
      obtain ⟨q, hq, -, hname⟩ | ⟨hvalue, -⟩ := mem_argumentsOf.1 (mem_of_get hget)
      · exact absurd hname (argument_ne_body hnodup hq hsome)
      · exact hvalue
    · intro hvalue
      exact get_of_mem hkeys (mem_argumentsOf.2 (.inr ⟨hvalue, rfl⟩))

/-- What is given is accepted. -/
theorem acceptedBy_argumentsOf (hnodup : (namesOf parameters body).Nodup) :
    AcceptedBy conforms (inputSchemaOf parameters body) (argumentsOf parameters offer) := by
  rw [acceptedBy_iff hnodup]
  constructor
  · intro name hname
    obtain ⟨p, hp, hrequired, rfl⟩ | ⟨b, hb, hrequired, rfl⟩ :=
      mem_requiredArgumentNames_iff.1 hname
    · obtain ⟨v, hv⟩ := Option.ne_none_iff_exists'.1
        (offer.required _ (List.mem_map_of_mem hp) hrequired)
      exact List.mem_map.2 ⟨_, mem_argumentsOf.2 (.inl ⟨p, hp, hv, rfl⟩), rfl⟩
    · obtain ⟨v, hv⟩ := Option.ne_none_iff_exists'.1 (offer.bodyRequired b hb hrequired)
      exact List.mem_map.2 ⟨_, mem_argumentsOf.2 (.inr ⟨hv, rfl⟩), rfl⟩
  · rintro ⟨name, value⟩ hargument
    obtain ⟨p, hp, hvalue, rfl⟩ | ⟨hvalue, rfl⟩ := mem_argumentsOf.1 hargument
    · exact ⟨p.schema, mem_propertiesOf.2 (.inl ⟨p, hp, rfl, rfl⟩),
        offer.admitted _ (List.mem_map_of_mem hp) _ hvalue⟩
    · obtain ⟨b, hb⟩ := Option.ne_none_iff_exists'.1 (body_ne_none_of_offer hvalue)
      exact ⟨b.schema, mem_propertiesOf.2 (.inr ⟨b, hb, rfl, rfl⟩),
        offer.bodyAdmitted b hb _ hvalue⟩

theorem argumentsOf_ne_nil (h : offer.Gives) : argumentsOf parameters offer ≠ [] := by
  obtain ⟨d, hd, hvalue⟩ | hvalue := h
  · obtain ⟨p, hp, rfl⟩ := List.mem_map.1 hd
    obtain ⟨v, hv⟩ := Option.ne_none_iff_exists'.1 hvalue
    exact List.ne_nil_of_mem (mem_argumentsOf.2 (.inl ⟨p, hp, hv, rfl⟩))
  · obtain ⟨v, hv⟩ := Option.ne_none_iff_exists'.1 hvalue
    exact List.ne_nil_of_mem (mem_argumentsOf.2 (.inr ⟨hv, rfl⟩))

/-- Accepted arguments are those of an offer. -/
theorem exists_offer (hnodup : (namesOf parameters body).Nodup)
    (hkeys : (parameters.map fun p => (p.name, p.location)).Nodup)
    (haccepted : AcceptedBy conforms (inputSchemaOf parameters body) arguments) :
    ∃ offer : Offer conforms (parameters.map (·.toDeclaredParameter)) body,
      MatchesOffer offer arguments ∧ (arguments ≠ [] → offer.Gives) := by
  obtain ⟨-, hproperties⟩ := (acceptedBy_iff hnodup).1 haccepted
  have hadmitted : ∀ {name property v}, (name, property) ∈ propertiesOf parameters body →
      arguments.get name = some v → conforms property v := by
    intro name property v hproperty hget
    obtain ⟨property', hproperty', hconforms⟩ := hproperties _ (mem_of_get hget)
    rwa [property_unique hnodup hproperty hproperty']
  let value (d : DeclaredParameter) : Option Json :=
    (parameters.find? fun p => p.name = d.name ∧ p.location = d.location).bind
      (arguments.get ·.argument)
  -- A parameter is found by its name and its location.
  have hvalue : ∀ p ∈ parameters, value p.toDeclaredParameter = arguments.get p.argument := by
    intro p hp
    cases hfound : parameters.find? fun q => q.name = p.name ∧ q.location = p.location with
    | none => simpa using List.find?_eq_none.1 hfound p hp
    | some q =>
      have hsame : q.name = p.name ∧ q.location = p.location := by
        simpa using List.find?_some hfound
      have hq : q = p := List.inj_on_of_nodup_map hkeys (List.mem_of_find?_eq_some hfound) hp
        (Prod.ext hsame.1 hsame.2)
      simp only [value, hfound, Option.bind_some, hq]
  refine ⟨{
    value := value
    bodyValue := body.bind fun _ => arguments.get "body"
    required := ?_
    admitted := ?_
    bodyDeclared := ?_
    bodyRequired := ?_
    bodyAdmitted := ?_ }, ⟨?_, ?_⟩, ?_⟩
  · rw [List.forall_mem_map]
    intro p hp hrequired
    obtain ⟨v, hv⟩ := given_of_accepted haccepted (mem_requiredArgumentNames_iff.2
      (.inl ⟨p, hp, hrequired, rfl⟩))
    rw [hvalue p hp, hv]
    exact Option.some_ne_none v
  · rw [List.forall_mem_map]
    intro p hp v hv
    rw [hvalue p hp] at hv
    exact hadmitted (mem_propertiesOf.2 (.inl ⟨p, hp, rfl, rfl⟩)) hv
  · rintro hsome rfl
    exact hsome rfl
  · rintro b hb hrequired
    obtain ⟨v, hv⟩ := given_of_accepted haccepted (mem_requiredArgumentNames_iff.2
      (.inr ⟨b, hb, hrequired, rfl⟩))
    rw [Option.mem_def.1 hb, Option.bind_some, hv]
    exact Option.some_ne_none v
  · rintro b hb v hv
    rw [Option.mem_def.1 hb] at hv
    exact hadmitted (mem_propertiesOf.2 (.inr ⟨b, hb, rfl, rfl⟩)) hv
  · intro p hp
    exact (hvalue p hp).symm
  · intro hsome
    obtain ⟨b, rfl⟩ := Option.ne_none_iff_exists'.1 hsome
    rfl
  · intro hsome
    obtain ⟨⟨name, v⟩, hargument⟩ := List.exists_mem_of_ne_nil _ hsome
    obtain ⟨w, hw⟩ := exists_get_of_mem_keys (@List.mem_map_of_mem _ _ _ _ (·.1) hargument)
    obtain ⟨property, hproperty, -⟩ := hproperties _ hargument
    obtain ⟨p, hp, hname, -⟩ | ⟨b, rfl, hname, -⟩ := mem_propertiesOf.1 hproperty
    · refine .inl ⟨_, List.mem_map_of_mem hp, ?_⟩
      change value p.toDeclaredParameter ≠ none
      rw [hvalue p hp, hname, hw]
      exact Option.some_ne_none w
    · refine .inr ?_
      change arguments.get "body" ≠ none
      rw [hname, hw]
      exact Option.some_ne_none w

end Offers

/-! ### What is sent -/

section Sent

variable [PyStr] {offer : Offer conforms (parameters.map (·.toDeclaredParameter)) body}
  {arguments : JsonObject}

/-- The mappings of the parameters of a draft. -/
def mappings (parameters : List DraftParameter) : List Json :=
  parameters.map fun p => .obj (mappingOf p)

/-- What a parameter of a draft places. -/
theorem placement_mappingOf (p : DraftParameter) :
    placement arguments (.obj (mappingOf p)) =
      match arguments.get p.argument with
      | none =>
        if p.required then
          executorFailure "required_argument_missing_after_validation" .validation
        else .ok none
      | some value => .ok (some ⟨p.name, p.location, pyStr value⟩) := by
  obtain ⟨⟨name, location, required, schema⟩, argument⟩ := p
  cases required <;> rfl

theorem placed?_eq_some_iff {p : DraftParameter} {placed : Placement} :
    placed? arguments (.obj (mappingOf p)) = some placed ↔
      ∃ value, arguments.get p.argument = some value ∧
        placed = ⟨p.name, p.location, pyStr value⟩ := by
  rw [placed?, placement_mappingOf]
  cases arguments.get p.argument with
  | none =>
    dsimp only
    split <;> simp [executorFailure, Except.toOption]
  | some value => simp [Except.toOption, eq_comm]

theorem wellPlaced_iff {p : DraftParameter} : WellPlaced arguments (.obj (mappingOf p)) ↔
    (p.required = true → ∃ value, arguments.get p.argument = some value) := by
  rw [WellPlaced, placement_mappingOf]
  cases arguments.get p.argument with
  | none => cases hrequired : p.required <;> simp [executorFailure]
  | some value => simp

/-- Every parameter of accepted arguments is well-placed. -/
theorem wellPlaced_of_accepted
    (haccepted : AcceptedBy conforms (inputSchemaOf parameters body) arguments) :
    ∀ raw ∈ mappings parameters, WellPlaced arguments raw := by
  intro raw hraw
  obtain ⟨p, hp, rfl⟩ := List.mem_map.1 hraw
  rw [wellPlaced_iff]
  intro hrequired
  exact given_of_accepted haccepted (mem_requiredArgumentNames_iff.2
    (.inl ⟨p, hp, hrequired, rfl⟩))

theorem mem_placements {placed : Placement} :
    placed ∈ (mappings parameters).filterMap (placed? arguments) ↔
      ∃ p ∈ parameters, ∃ value, arguments.get p.argument = some value ∧
        placed = ⟨p.name, p.location, pyStr value⟩ := by
  rw [mappings, List.mem_filterMap]
  simp only [List.mem_map, exists_exists_and_eq_and, placed?_eq_some_iff]

theorem distinct_mappings (hkeys : (parameters.map fun p => (p.name, p.location)).Nodup) :
    (mappings parameters).Pairwise DistinctParameters := by
  rw [mappings, List.pairwise_map]
  refine (List.pairwise_map.1 hkeys).imp fun hne fields fields' hfields hfields' => ?_
  cases hfields
  cases hfields'
  exact hne

theorem substitution_mappingOf (p : DraftParameter) :
    substitution arguments (.obj (mappingOf p)) =
      if p.location = "path" then (arguments.get p.argument).map fun v =>
        ⟨placeholder p.name, quote (pyStr v).toList⟩
      else none := by
  obtain ⟨⟨name, location, required, schema⟩, argument⟩ := p
  cases required <;> rfl

/-- What is substituted in the path is what is offered for it. -/
theorem substitutions_eq (h : MatchesOffer offer arguments) :
    (mappings parameters).filterMap (substitution arguments) = offer.substitutions := by
  rw [mappings, Offer.substitutions, List.filterMap_map, List.filterMap_map]
  refine List.filterMap_congr fun p hp => ?_
  simp only [Function.comp_apply, substitution_mappingOf, h.value p hp]

/-- What the executor makes of the body. -/
theorem mapRequestBody_configOf {method : String} :
    mapRequestBody method ((configOf operation parameters body).get "request_body") arguments =
      if method = "GET" then .ok none
      else body.elim (executorFailure "put_binding_requires_json_body" .validation) fun b =>
        match arguments.get "body" with
        | none =>
          if b.required then
            executorFailure "required_request_body_missing_after_validation" .validation
          else .ok none
        | some value => .ok (some value) := by
  unfold mapRequestBody
  split
  · rfl
  · cases body with
    | none => rfl
    | some b =>
      obtain ⟨required, schema⟩ := b
      cases required <;> rfl

/-- A body that can be sent is what is offered. -/
theorem mapRequestBody_eq_ok (h : MatchesOffer offer arguments) {method path : String}
    (hsendable : offer.Sendable method path) :
    mapRequestBody method ((configOf operation parameters body).get "request_body") arguments =
      .ok offer.bodyValue := by
  have hsent := hsendable.bodySent
  rw [mapRequestBody_configOf]
  split_ifs at hsent ⊢ with hget
  · rw [hsent]
  · obtain ⟨b, rfl⟩ := Option.ne_none_iff_exists'.1 hsent
    rw [Option.elim_some, h.bodyValue hsent]
    cases hvalue : offer.bodyValue with
    | some v => rfl
    | none =>
      have hoptional : b.required ≠ true := fun hrequired =>
        offer.bodyRequired b rfl hrequired hvalue
      exact if_neg hoptional

/-- What a result of the mapping has in the query and in the headers. -/
theorem entries_of_mapArguments
    (hkeys : (parameters.map fun p => (p.name, p.location)).Nodup) {mapped : MappedArguments}
    (h : mapArguments operation.path (some (.arr (mappings parameters))) arguments = .ok mapped) :
    mapped.query = entries "query" ((mappings parameters).filterMap (placed? arguments)) ∧
      mapped.headers = entries "header" ((mappings parameters).filterMap (placed? arguments)) := by
  obtain ⟨parameters', hparameters', -, hput⟩ := mapArguments_eq_ok.1 h
  cases hparameters'
  have hdiffers := @differs_of_distinct _ arguments _ (distinct_mappings hkeys)
  have huntaken {location : String} :
      Untaken [] location ((mappings parameters).filterMap (placed? arguments)) := by
    intro entry hentry
    cases hentry
  have hentries := entries_of_putAll hput hdiffers huntaken huntaken
  exact hentries

omit [PyStr] in
theorem mem_entries_of_location {location : String} {placements : List Placement} {p : Placement}
    (h : p ∈ placements) (hp : p.location = location) :
    (p.upstreamName, p.value) ∈ entries location placements :=
  List.mem_map.2 ⟨p, List.mem_filter.2 ⟨h, decide_eq_true hp⟩, rfl⟩

/-- The value of a parameter is where the parameter goes. -/
theorem holds_parameter (hkeys : (parameters.map fun p => (p.name, p.location)).Nodup)
    {p : DraftParameter} (hp : p ∈ parameters) (hsupported : p.Supported) {value : Json}
    (hvalue : arguments.get p.argument = some value) {mapped : MappedArguments}
    (h : mapArguments operation.path (some (.arr (mappings parameters))) arguments = .ok mapped)
    {result : Option Json} :
    HoldsAt (configOf operation parameters body) arguments mapped result value
      (.parameter p.name p.location) := by
  have hplaced : ⟨p.name, p.location, pyStr value⟩ ∈
      (mappings parameters).filterMap (placed? arguments) :=
    mem_placements.2 ⟨p, hp, value, hvalue, rfl⟩
  obtain ⟨hquery, hheaders⟩ := entries_of_mapArguments hkeys h
  have hlocation := hsupported.location
  simp only [OpenApiParser.parameterLocations, List.mem_cons, List.not_mem_nil, or_false]
    at hlocation
  obtain hpath | hq | hh := hlocation
  -- A value in the path has its turn between the parameters before and those after it.
  · obtain ⟨hfill, hoccur⟩ := mapArguments_path h
    obtain ⟨before, after, rfl⟩ := List.append_of_mem hp
    have hsplit : substitutions (some (.arr (mappings (before ++ p :: after)))) arguments =
        (mappings before).filterMap (substitution arguments) ++
          ⟨placeholder p.name, quote (pyStr value).toList⟩ ::
            (mappings after).filterMap (substitution arguments) := by
      have hsub : substitution arguments (.obj (mappingOf p)) =
          some ⟨placeholder p.name, quote (pyStr value).toList⟩ := by
        rw [substitution_mappingOf, if_pos hpath, hvalue]
        rfl
      rw [substitutions, mappings, List.map_append, List.map_cons, List.filterMap_append,
        List.filterMap_cons_some hsub]
      rfl
    refine .inl ⟨hpath, _, _, hsplit, ?_, hfill⟩
    rw [hsplit, occur_append] at hoccur
    exact hoccur.2.1
  · refine .inr (.inl ⟨hq, ?_⟩)
    rw [hquery]
    exact mem_entries_of_location hplaced hq
  · refine .inr (.inr ⟨hh, ?_⟩)
    rw [hheaders]
    exact mem_entries_of_location hplaced hh

/-- An argument that is accepted goes to one destination, where the names differ and a body that
    is given can be sent. -/
theorem exists_destination (hnodup : (namesOf parameters body).Nodup) {name : String}
    {property : Json} (hproperty : (name, property) ∈ propertiesOf parameters body)
    (hsent : name = "body" → body ≠ none → upperAscii operation.method ≠ "GET") :
    ∃! destination, SentTo (configOf operation parameters body) name destination := by
  obtain ⟨p, hp, rfl, -⟩ | ⟨b, rfl, rfl, -⟩ := mem_propertiesOf.1 hproperty
  · refine ⟨.parameter p.name p.location, sentTo_iff.2 (.inl ⟨p, hp, rfl, rfl⟩), ?_⟩
    intro destination hdestination
    obtain ⟨q, hq, heq, rfl⟩ | ⟨hsome, -, heq, -⟩ := sentTo_iff.1 hdestination
    · rw [List.inj_on_of_nodup_map (List.nodup_append.1 hnodup).1 hq hp heq]
    · exact absurd heq (argument_ne_body hnodup hp hsome)
  · have hmethod := hsent rfl (by simp)
    refine ⟨.body, sentTo_iff.2 (.inr ⟨by simp, hmethod, rfl, rfl⟩), ?_⟩
    intro destination hdestination
    obtain ⟨q, hq, heq, -⟩ | ⟨-, -, -, rfl⟩ := sentTo_iff.1 hdestination
    · exact absurd heq (argument_ne_body hnodup hq (by simp))
    · rfl

/-- What can be sent is sent, each argument to one destination. -/
theorem exists_delivers (h : OperationDrafts operation parameters body)
    (hkeys : (parameters.map fun p => (p.name, p.location)).Nodup)
    (hnodup : (namesOf parameters body).Nodup) (hunique : (arguments.map (·.1)).Nodup)
    (haccepted : AcceptedBy conforms (inputSchemaOf parameters body) arguments)
    (hmatches : MatchesOffer offer arguments)
    (hsendable : offer.Sendable (upperAscii operation.method) operation.path) :
    ∃ mapped, Delivers (configOf operation parameters body) arguments mapped offer.bodyValue := by
  obtain ⟨mapped, hput⟩ : ∃ mapped,
      putAll ((mappings parameters).filterMap (placed? arguments))
        { path := operation.path.toList } = .ok mapped := by
    apply exists_putAll
    · intro placed hplaced
      obtain ⟨p, hp, value, -, rfl⟩ := mem_placements.1 hplaced
      simpa [OpenApiParser.parameterLocations] using (h.supported p hp).location
    · have hsubs : ((mappings parameters).filterMap (placed? arguments)).filterMap
          Placement.substitution = offer.substitutions := by
        rw [List.filterMap_filterMap, ← substitutions_eq hmatches]
        exact List.filterMap_congr fun raw _ => substitution_eq.symm
      rw [hsubs]
      exact hsendable.occur
  -- The placeholders of the path are met, so every argument can be put where it belongs.
  have hmapped : mapArguments operation.path (some (.arr (mappings parameters))) arguments =
      .ok mapped :=
    mapArguments_eq_ok.2 ⟨_, rfl, wellPlaced_of_accepted haccepted, hput⟩
  have hbody : mapRequestBody (upperAscii operation.method)
      ((configOf operation parameters body).get "request_body") arguments = .ok offer.bodyValue :=
    mapRequestBody_eq_ok hmatches hsendable
  refine ⟨mapped, hmapped, hbody, ?_, ?_, ?_⟩
  · rintro ⟨name, value⟩ hargument
    have hget := get_of_mem hunique hargument
    obtain ⟨-, hproperties⟩ := (acceptedBy_iff hnodup).1 haccepted
    obtain ⟨property, hproperty, -⟩ := hproperties _ hargument
    -- A `GET` sends no body, so none was given.
    have hgiven : name = "body" → body ≠ none → upperAscii operation.method ≠ "GET" := by
      rintro rfl hsome hmethod
      have hsent := hsendable.bodySent
      rw [if_pos hmethod, ← hmatches.bodyValue hsome, hget] at hsent
      cases hsent
    obtain ⟨destination, hsent, honly⟩ := exists_destination hnodup hproperty hgiven
    refine ⟨destination, ⟨hsent, ?_⟩, fun other hother => honly other hother.1⟩
    -- The value is that of a parameter, or it is the body.
    obtain ⟨p, hp, rfl, rfl⟩ | ⟨hsome, -, rfl, rfl⟩ := sentTo_iff.1 hsent
    · exact holds_parameter hkeys hp (h.supported p hp) hget hmapped
    · exact (hmatches.bodyValue hsome).symm.trans hget
  · intro location texts htexts entry hentry
    -- Nothing else stands in the query and the headers: each entry is of a placement.
    obtain ⟨hquery, hheaders⟩ := entries_of_mapArguments hkeys hmapped
    have hentries : texts =
        entries location ((mappings parameters).filterMap (placed? arguments)) := by
      rw [hquery, hheaders] at htexts
      simp only [List.mem_cons, Prod.mk.injEq, List.not_mem_nil, or_false] at htexts
      obtain ⟨rfl, rfl⟩ | ⟨rfl, rfl⟩ := htexts <;> rfl
    rw [hentries] at hentry
    obtain ⟨placed, hplaced, rfl⟩ := List.mem_map.1 hentry
    obtain ⟨hmem, hlocation⟩ := List.mem_filter.1 hplaced
    obtain rfl := of_decide_eq_true hlocation
    have hparameters : (configOf operation parameters body).get "parameters" =
        some (.arr (mappings parameters)) := rfl
    obtain ⟨name, value, hsent, hvalue, htext⟩ := (mem_placements_iff hparameters).1 hmem
    exact ⟨_, mem_of_get hvalue, hsent, htext⟩
  · intro value hvalue
    have hgiven : mapRequestBody
        (upperAscii (textField (configOf operation parameters body) "method"))
        ((configOf operation parameters body).get "request_body") arguments = .ok (some value) :=
      hbody.trans (congrArg _ hvalue)
    obtain ⟨name, hsent, hget⟩ := sentTo_of_mapRequestBody hgiven
    exact ⟨_, mem_of_get hget, hsent, rfl⟩

/-- What is sent can be sent. -/
theorem sendable_of_delivers (hnodup : (namesOf parameters body).Nodup)
    (hmatches : MatchesOffer offer arguments) {mapped : MappedArguments} {result : Option Json}
    (h : Delivers (configOf operation parameters body) arguments mapped result) :
    offer.Sendable (upperAscii operation.method) operation.path := by
  have hmapped : mapArguments operation.path (some (.arr (mappings parameters))) arguments =
      .ok mapped := h.mapsArguments
  have hbody : mapRequestBody (upperAscii operation.method)
      ((configOf operation parameters body).get "request_body") arguments = .ok result := h.mapsBody
  constructor
  · rw [← substitutions_eq hmatches]
    exact (mapArguments_path hmapped).2
  · rw [mapRequestBody_configOf] at hbody
    split_ifs at hbody ⊢ with hget
    · -- the value of a body would have no destination
      by_contra hsome
      obtain ⟨v, hv⟩ := Option.ne_none_iff_exists'.1 hsome
      have hdeclared := body_ne_none_of_offer hv
      have hargument := mem_of_get ((hmatches.bodyValue hdeclared).trans hv)
      obtain ⟨destination, ⟨hsent, -⟩, -⟩ := h.once _ hargument
      obtain ⟨p, hp, hname, -⟩ | ⟨-, hput, -⟩ := sentTo_iff.1 hsent
      · exact argument_ne_body hnodup hp hdeclared hname
      · exact hput hget
    · rintro rfl
      cases hbody

end Sent

/-- The names of a draft are told apart exactly where the patched ones are free and none of them
    is `body`, where there is one. -/
theorem nodup_namesOf_iff (h : NamedInTurn parameters) :
    (namesOf parameters body).Nodup ↔ Patched (parameters.map (·.toDeclaredParameter)) ∧
      (body ≠ none → ¬ Taken (parameters.map (·.toDeclaredParameter)) "body") := by
  rw [namesOf, List.nodup_append, OpenApiParser.nodup_arguments_iff h,
    ← OpenApiParser.mem_arguments_iff h]
  cases body with
  | none => simp
  | some b => simp

/-- The names of a draft agree exactly when the declared ones are separate. -/
theorem namesAgree_iff [PyStr] (h : OperationDrafts operation parameters body)
    (hkeys : (parameters.map fun p => (p.name, p.location)).Nodup)
    (hmethod : upperAscii operation.method = operation.method) :
    NamesAgree conforms operation ↔ NamesSeparate conforms operation.method operation.path
      (parameters.map (·.toDeclaredParameter)) body := by
  have hschema := toolInputSchema_eq h
  constructor
  · intro hagree
    have hnodup : (namesOf parameters body).Nodup := argumentNames_eq h ▸ hagree.distinct
    obtain ⟨hpatched, hunpatched⟩ := (nodup_namesOf_iff h.named).1 hnodup
    refine ⟨?_, hpatched, hunpatched, ?_⟩
    · intro d hd
      have hmem : argumentName d.name ∈ argumentNames operation := by
        rw [argumentNames_eq h]
        exact List.mem_append_left _ ((OpenApiParser.mem_arguments_iff h.named).2 (.plain hd))
      exact hagree.nonempty _ hmem
    · intro offer hgives
      -- Any offer can be made: its arguments under their names are accepted, and so they are sent.
      have haccepted := @acceptedBy_argumentsOf _ _ _ offer hnodup
      rw [← hschema] at haccepted
      obtain ⟨mapped, result, hdelivers⟩ := hagree.sent _ ((bindingConfigOf_iff h).2 rfl) _
        (hnodup.sublist sublist_keys_argumentsOf) haccepted (argumentsOf_ne_nil hgives)
      rw [← hmethod]
      exact sendable_of_delivers hnodup (matches_argumentsOf hnodup) hdelivers
  · intro hseparate
    have hnodup : (namesOf parameters body).Nodup :=
      (nodup_namesOf_iff h.named).2 ⟨hseparate.patched, hseparate.unpatched⟩
    refine ⟨?_, ?_, ?_, ?_, ?_⟩
    · rw [argumentNames_eq h, namesOf, List.forall_mem_append]
      refine ⟨fun name hname => ?_, by simp⟩
      exact ((OpenApiParser.mem_arguments_iff h.named).1 hname).ne_empty hseparate.named
    · rwa [argumentNames_eq h]
    · rw [hschema, get_properties hnodup, ownSchemas_eq h]
      rfl
    · exact ⟨requiredArgumentNames parameters body, by rw [hschema, get_required],
        hnodup.sublist sublist_requiredArgumentNames⟩
    · rw [hschema]
      intro config hconfig arguments hunique haccepted hnonempty
      rw [(bindingConfigOf_iff h).1 hconfig]
      -- Conversely accepted arguments are those of some offer.
      obtain ⟨offer, hmatches, hgives⟩ := exists_offer hnodup hkeys haccepted
      have hsendable := hseparate.sent offer (hgives hnonempty)
      rw [← hmethod] at hsendable
      obtain ⟨mapped, hdelivers⟩ :=
        exists_delivers h hkeys hnodup hunique haccepted hmatches hsendable
      exact ⟨mapped, _, hdelivers⟩

end Agreement

/-! ## Accepted documents -/

section Notes

attribute [local instance] scalarPyStr

open JsonSchema (Validator)

/-- A note is saved with a body, and with the parameters. -/
def noteDocument (parameters : List Json) : JsonObject :=
  [("openapi", .str "3.0.3"), ("paths", .obj [("/notes/{id}", .obj [("put", .obj [
    ("operationId", .str "saveNote"),
    ("parameters", .arr parameters),
    ("requestBody", .obj [("required", .bool true), ("content", .obj [("application/json",
      .obj [("schema", .obj [("type", .str "object")])])])]),
    ("responses", .obj [("200", .obj [])])])])])]

/-- A parameter that is a text. -/
def textParameter (name location : String) : Json :=
  .obj [("name", .str name), ("in", .str location), ("schema", .obj [("type", .str "string")])]

end Notes

end NexusMcp
