-- SUMMARY: What an operation without a conflict is drafted from: its parameters and its body.
import NexusMcp.OpenApi.ParsedOperations
import NexusMcp.OpenApi.Review

/-!
# Drafted Operations

The parameters of an operation are named one after the other: a name that is taken is tried
again with the location before it, and is then used whether or not it is taken again.
-/

namespace NexusMcp

namespace OpenApiParser

/-! ## Parameters of a draft -/

/-- What the document declares of a parameter. -/
structure DeclaredParameter where
  name : String
  location : String
  required : Bool
  schema : Json

/-- A parameter in the path is required, whatever it says. -/
def isDeclaredRequired (location : String) (parameter : JsonObject) : Bool :=
  location = "path" ∨ parameter.get "required" matches some (.bool true)

/-- What the document declares of a parameter that the parser can use. -/
def declared? (document parameter : JsonObject) : Option DeclaredParameter :=
  match getOrNull parameter "in", getOrNull parameter "name" with
  | .str location, .str name =>
    match requireMapping ((parameter.get "schema").getD (.obj [])) "parameter schema" >>=
        fun schema => resolve document (.obj schema) with
    | .ok schema => some {
        name := name
        location := location
        required := isDeclaredRequired location parameter
        schema := schema }
    | .error _ => none
  | _, _ => none

/-- The name of an argument, where some are taken. -/
def DeclaredParameter.argumentFor (self : DeclaredParameter) (taken : List String) : String :=
  if argumentName self.name ∈ taken then self.location ++ "_" ++ argumentName self.name
  else argumentName self.name

/-- The parser can use a parameter of this kind, and one in the path is always required. -/
structure DeclaredParameter.Supported (d : DeclaredParameter) : Prop where
  location : d.location ∈ parameterLocations
  name : d.name ≠ ""
  required : d.location = "path" → d.required = true

/-- A normalised parameter. -/
structure DraftParameter extends DeclaredParameter where
  argument : String

def DraftParameter.fields (self : DraftParameter) : JsonObject := [
  ("argument_name", .str self.argument),
  ("upstream_name", .str self.name),
  ("location", .str self.location),
  ("required", .bool self.required),
  ("schema", self.schema)]

def DraftParameter.toJson (self : DraftParameter) : Json := .obj self.fields

def RequestBody.fields (self : RequestBody) : JsonObject := [
  ("argument_name", .str "body"),
  ("required", .bool self.required),
  ("content_type", .str "application/json"),
  ("schema", self.schema)]

/-- Each parameter is named where those before it are. -/
inductive NamedInTurn : List DraftParameter → Prop where
  | nil : NamedInTurn []
  | snoc {parameters p} (h : NamedInTurn parameters)
    (hargument : p.argument = p.argumentFor (parameters.map (·.argument))) :
    NamedInTurn (parameters ++ [p])

/-- The properties of the parameters. -/
def parameterProperties (parameters : List DraftParameter) : JsonObject :=
  parameters.foldl (fun fields p => fields.set p.argument p.schema) []

/-- The arguments of the parameters that are required. -/
def requiredOf (parameters : List DraftParameter) : List String :=
  (parameters.filter (·.required)).map (·.argument)

/-- The loop over the parameters has got this far, with no conflict. -/
structure DraftedSoFar (state : ParameterState) (parameters : List DraftParameter) : Prop where
  normalized : state.normalizedParameters = parameters.map (·.toJson)
  properties : state.inputProperties = parameterProperties parameters
  required : state.requiredArguments = requiredOf parameters
  named : NamedInTurn parameters
  supported : ∀ p ∈ parameters, p.Supported

section Parameters

variable {document : JsonObject} {state state' : ParameterState} {parameter : JsonObject}
  {parameters : List DraftParameter}

theorem keys_set {fields : JsonObject} {name : String} {value : Json} :
    (fields.set name value).map (·.1) =
      if name ∈ fields.map (·.1) then fields.map (·.1) else fields.map (·.1) ++ [name] := by
  have hany : fields.any (·.1 = name) = true ↔ name ∈ fields.map (·.1) := by simp
  unfold JsonObject.set
  simp only [hany]
  split
  · rw [List.map_map]
    refine List.map_congr_left fun field _ => ?_
    simp only [Function.comp_apply]
    split
    · next heq => exact heq.symm
    · rfl
  · simp

theorem mem_keys_set {fields : JsonObject} {name name' : String} {value : Json} :
    name' ∈ (fields.set name value).map (·.1) ↔ name' ∈ fields.map (·.1) ∨ name' = name := by
  rw [keys_set]
  split
  · next hmem => exact ⟨.inl, fun h => h.elim id fun heq => heq ▸ hmem⟩
  · rw [List.mem_append, List.mem_singleton]

theorem set_of_not_mem_keys {fields : JsonObject} {name : String} {value : Json}
    (h : name ∉ fields.map (·.1)) : fields.set name value = fields ++ [(name, value)] := by
  have hany : ¬ fields.any (·.1 = name) = true := by simpa using h
  rw [JsonObject.set, if_neg hany]

theorem parameterProperties_append {p : DraftParameter} :
    parameterProperties (parameters ++ [p]) =
      (parameterProperties parameters).set p.argument p.schema := by
  rw [parameterProperties, List.foldl_append]
  rfl

theorem mem_keys_parameterProperties {name : String} :
    name ∈ (parameterProperties parameters).map (·.1) ↔ name ∈ parameters.map (·.argument) := by
  induction parameters using List.reverseRecOn with
  | nil => rfl
  | append_singleton parameters p ih =>
    rw [parameterProperties_append, mem_keys_set, ih, List.map_append, List.mem_append,
      List.map_singleton, List.mem_singleton]

theorem requiredOf_append {p : DraftParameter} :
    requiredOf (parameters ++ [p]) =
      requiredOf parameters ++ if p.required then [p.argument] else [] := by
  rw [requiredOf, requiredOf, List.filter_append, List.map_append]
  cases hrequired : p.required <;> simp [hrequired]

theorem draftedSoFar_nil {conflict : OperationConflictStatus} :
    DraftedSoFar { conflict := conflict } [] where
  normalized := rfl
  properties := rfl
  required := rfl
  named := .nil
  supported := by simp

/-- A parameter that is normalised without a conflict is named after those before it. -/
theorem DraftedSoFar.normalizeParameter (h : DraftedSoFar state parameters)
    (hnormalize : normalizeParameter document state parameter = .ok state')
    (hconflict : state'.conflict = .none) : state.conflict = .none ∧
      ∃ p, DraftedSoFar state' (parameters ++ [p]) ∧
        declared? document parameter = some p.toDeclaredParameter := by
  unfold OpenApiParser.normalizeParameter at hnormalize
  split at hnormalize
  · next location name hlocation hname =>
    split at hnormalize
    · next hsupported =>
      obtain ⟨schema, hschema, hnormalize⟩ := bind_eq_ok.1 hnormalize
      obtain ⟨resolved, hresolved, hnormalize⟩ := bind_eq_ok.1 hnormalize
      have htaken : state.inputProperties.any (·.1 = argumentName name) = true ↔
          argumentName name ∈ parameters.map (·.argument) := by
        rw [← mem_keys_parameterProperties, ← h.properties]
        simp
      let declared : DeclaredParameter := {
        name := name
        location := location
        required := isDeclaredRequired location parameter
        schema := resolved }
      -- A name that is taken already gets its location in front.
      have hargument : (if state.inputProperties.any (·.1 = argumentName name) then
          location ++ "_" ++ argumentName name else argumentName name) =
            declared.argumentFor (parameters.map (·.argument)) := by
        simp only [htaken]
        rfl
      have hrequired : (location = "path" ∨
          parameter.get "required" matches some (.bool true)) ↔ declared.required = true :=
        (decide_eq_true_iff (p := _)).symm
      simp only [hargument] at hnormalize
      cases hnormalize
      refine ⟨hconflict,
        { declared with argument := declared.argumentFor (parameters.map (·.argument)) },
        ⟨?_, ?_, ?_, h.named.snoc rfl, ?_⟩, ?_⟩
      · rw [List.map_append, ← h.normalized]
        rfl
      · rw [parameterProperties_append, ← h.properties]
      · rw [requiredOf_append, ← h.required]
        exact congrArg _ (if_congr hrequired rfl rfl)
      · rw [List.forall_mem_append]
        refine ⟨h.supported, ?_⟩
        simp only [List.mem_singleton, forall_eq]
        exact ⟨hsupported.1, hsupported.2, fun hpath => decide_eq_true (.inl hpath)⟩
      -- The declaration is read off the document in the same two steps.
      · have hboth : (requireMapping ((parameter.get "schema").getD (.obj []))
            "parameter schema" >>= fun schema => resolve document (.obj schema)) = .ok resolved :=
          bind_eq_ok.2 ⟨schema, hschema, hresolved⟩
        unfold declared?
        rw [hlocation, hname]
        simp only [hboth]
        rfl
    · cases hnormalize
      cases hconflict
  · cases hnormalize
    cases hconflict

/-- A conflict is not taken back. -/
theorem conflict_of_normalizeParameter_eq_none
    (h : OpenApiParser.normalizeParameter document state parameter = .ok state')
    (hconflict : state.conflict ≠ .none) : state'.conflict ≠ .none := by
  unfold OpenApiParser.normalizeParameter at h
  split at h
  · split at h
    · obtain ⟨_, -, h⟩ := bind_eq_ok.1 h
      obtain ⟨_, -, h⟩ := bind_eq_ok.1 h
      cases h
      exact hconflict
    · cases h
      simp
  · cases h
    simp

/-- The loop over the parameters names them all, one after the other. -/
theorem DraftedSoFar.foldlM {merged : List JsonObject} (h : DraftedSoFar state parameters)
    (hfold : merged.foldlM (OpenApiParser.normalizeParameter document) state = .ok state')
    (hconflict : state'.conflict = .none) : state.conflict = .none ∧
      ∃ rest, DraftedSoFar state' (parameters ++ rest) ∧
        merged.filterMap (declared? document) = rest.map (·.toDeclaredParameter) := by
  induction merged generalizing state parameters with
  | nil =>
    cases hfold
    exact ⟨hconflict, [], by simpa using h, rfl⟩
  | cons parameter merged ih =>
    rw [List.foldlM_cons, bind_eq_ok] at hfold
    obtain ⟨next, hnext, hfold⟩ := hfold
    have hnone : next.conflict = .none := by
      by_contra hne
      exact foldlM_invariant (·.conflict ≠ .none)
        (fun _ _ _ => conflict_of_normalizeParameter_eq_none) hne hfold hconflict
    obtain ⟨hstate, p, hp, hdeclared⟩ := h.normalizeParameter hnext hnone
    obtain ⟨-, rest, hrest, hmerged⟩ := ih hp hfold
    refine ⟨hstate, p :: rest, ?_, ?_⟩
    · rwa [List.append_assoc] at hrest
    · rw [List.filterMap_cons_some hdeclared, hmerged, List.map_cons]

/-! ## Merged parameters -/

/-- The name and the location of a parameter, where they are texts. -/
def textKey? (parameter : JsonObject) : Option (String × String) :=
  match parameterKey parameter with
  | (.str name, .str location) => some (name, location)
  | _ => none

/-- Two parameters have one key. -/
def sameParameter (parameter other : JsonObject) : Bool :=
  sameKey (parameterKey other).1 (parameterKey parameter).1 &&
    sameKey (parameterKey other).2 (parameterKey parameter).2

theorem sameKey_str_right {value : Json} {s : String} :
    sameKey value (.str s) ↔ value = .str s := by
  cases value <;> simp [sameKey]

theorem sameKey_str_left {value : Json} {s : String} :
    sameKey (.str s) value ↔ value = .str s := by
  cases value <;> simp [sameKey, eq_comm]

theorem textKey?_eq_some {name location : String} : textKey? parameter = some (name, location) ↔
    getOrNull parameter "name" = .str name ∧ getOrNull parameter "in" = .str location := by
  unfold textKey? parameterKey
  split
  · next heq =>
    obtain ⟨hname, hlocation⟩ := Prod.mk.inj heq
    simp [hname, hlocation]
  · next hnot =>
    constructor
    · intro h
      cases h
    · rintro ⟨hname, hlocation⟩
      exact absurd (by rw [hname, hlocation]) (hnot name location)

/-- A parameter with a text as its name and its location is told by them. -/
theorem sameParameter_iff {name location : String} {other : JsonObject}
    (h : textKey? parameter = some (name, location)) :
    sameParameter parameter other ↔ textKey? other = some (name, location) := by
  obtain ⟨hname, hlocation⟩ := textKey?_eq_some.1 h
  rw [textKey?_eq_some, sameParameter, Bool.and_eq_true, parameterKey, parameterKey, hname,
    hlocation, sameKey_str_right, sameKey_str_right]

theorem textKey?_of_sameParameter {other : JsonObject} (h : sameParameter parameter other) :
    textKey? other = textKey? parameter := by
  cases hkey : textKey? parameter with
  | some key => exact (sameParameter_iff hkey).1 h
  | none =>
    cases hother : textKey? other with
    | none => rfl
    | some key =>
      obtain ⟨hname, hlocation⟩ := textKey?_eq_some.1 hother
      rw [sameParameter, Bool.and_eq_true, parameterKey, parameterKey, hname, hlocation,
        sameKey_str_left, sameKey_str_left] at h
      rw [textKey?_eq_some.2 h] at hkey
      cases hkey

/-- Setting a parameter keeps the keys apart. -/
theorem nodup_setParameter {merged : List JsonObject} (h : (merged.filterMap textKey?).Nodup) :
    ((setParameter merged parameter).filterMap textKey?).Nodup := by
  change ((if merged.any (sameParameter parameter) then merged.map fun other =>
    if sameParameter parameter other then parameter else other
      else merged ++ [parameter]).filterMap textKey?).Nodup
  split
  · have hkept : (merged.map fun other => if sameParameter parameter other then parameter
        else other).filterMap textKey? = merged.filterMap textKey? := by
      rw [List.filterMap_map]
      refine List.filterMap_congr fun other _ => ?_
      simp only [Function.comp_apply]
      split
      · next hsame => exact (textKey?_of_sameParameter hsame).symm
      · rfl
    rwa [hkept]
  · next hnone =>
    rw [List.filterMap_append]
    cases hkey : textKey? parameter with
    | none => simpa [hkey] using h
    | some key =>
      rw [List.filterMap_cons_some hkey, List.filterMap_nil, List.nodup_append]
      refine ⟨h, by simp, ?_⟩
      rintro key' hmem _ hlast rfl
      obtain rfl := List.mem_singleton.1 hlast
      obtain ⟨other, hother, hkey'⟩ := List.mem_filterMap.1 hmem
      exact hnone (List.any_eq_true.2 ⟨other, hother, (sameParameter_iff hkey).2 hkey'⟩)

/-- No two merged parameters have one name and one location. -/
theorem nodup_mergeParameters {pathParameters operationParameters : List Json}
    {merged : List JsonObject}
    (h : mergeParameters pathParameters operationParameters document = .ok merged) :
    (merged.filterMap textKey?).Nodup := by
  refine foldlM_invariant (fun merged => (merged.filterMap textKey?).Nodup) ?_ List.nodup_nil h
  intro before raw after hround hbefore
  simp only [bind_eq_ok] at hround
  obtain ⟨_, -, parameter, -, _, -, _, -, hround⟩ := hround
  cases hround
  exact nodup_setParameter hbefore

theorem textKey?_of_declared? {d : DeclaredParameter} (h : declared? document parameter = some d) :
    textKey? parameter = some (d.name, d.location) := by
  unfold declared? at h
  split at h
  · next location name hlocation hname =>
    split at h
    · cases h
      exact textKey?_eq_some.2 ⟨hname, hlocation⟩
    · cases h
  · cases h

end Parameters

/-! ## Drafts -/

/-- The schema of the arguments. -/
def inputSchemaOf (parameters : List DraftParameter) (body : Option RequestBody) : JsonObject := [
  ("type", .str "object"),
  ("properties", .obj (body.elim (parameterProperties parameters) fun body =>
    (parameterProperties parameters).set "body" body.schema)),
  ("required", .arr ((requiredOf parameters ++
    if body.any (·.required) then ["body"] else []).map .str)),
  ("additionalProperties", .bool false)]

/-- What an operation without a conflict has been drafted from. -/
structure OperationDrafts (operation : ParsedOperation) (parameters : List DraftParameter)
    (body : Option RequestBody) : Prop where
  hasParameters : operation.normalizedOperation.get "parameters" =
    some (.arr (parameters.map (·.toJson)))
  hasBody : operation.normalizedOperation.get "request_body" = some (body.elim .null (·.toJson))
  hasSchema : operation.normalizedOperation.get "tool_input_schema" =
    some (.obj (inputSchemaOf parameters body))
  named : NamedInTurn parameters
  supported : ∀ p ∈ parameters, p.Supported

/-- What the document declares for the operation: its parameters and its body. -/
def Declares (document : JsonObject) (operation : ParsedOperation)
    (declared : List DeclaredParameter) (body : Option RequestBody) : Prop :=
  ∃ (paths pathItem rawOperation : JsonObject) (method : String)
      (pathParameters operationParameters : List Json) (merged : List JsonObject),
    getOrNull document "paths" = .obj paths ∧ (operation.path, .obj pathItem) ∈ paths ∧
    method ∈ httpMethods ∧ operation.method = upperAscii method ∧
    getOrNull pathItem method = .obj rawOperation ∧
    (pathItem.get "parameters").getD (.arr []) = .arr pathParameters ∧
    (rawOperation.get "parameters").getD (.arr []) = .arr operationParameters ∧
    mergeParameters pathParameters operationParameters document = .ok merged ∧
    declared = merged.filterMap (declared? document) ∧
    normalizeRequestBody (getOrNull rawOperation "requestBody") document = .ok (body, false)

section Documents

variable {document : JsonObject} {namespaceName : String} {operationAllowlist : List String}
  {operation : ParsedOperation} {declared declared' : List DeclaredParameter}
  {body body' : Option RequestBody}

theorem requireSequence_eq_ok {value : Json} {fieldName : String} {items : List Json} :
    requireSequence value fieldName = .ok items ↔ value = .arr items := by
  cases value <;> simp [requireSequence]

/-- An operation without a conflict is drafted from what the document declares for it. -/
theorem drafts_of_parseOperation {path method operationKey : String} {operationId : Option String}
    {rawOperation : JsonObject} {pathParameters : List Json}
    (h : parseOperation document namespaceName method path operationKey operationId rawOperation
      pathParameters = .ok operation) (hconflict : operation.conflictStatus = .none) :
    ∃ (operationParameters : List Json) (merged : List JsonObject)
        (parameters : List DraftParameter) (body : Option RequestBody),
      (rawOperation.get "parameters").getD (.arr []) = .arr operationParameters ∧
      mergeParameters pathParameters operationParameters document = .ok merged ∧
      merged.filterMap (declared? document) = parameters.map (·.toDeclaredParameter) ∧
      normalizeRequestBody (getOrNull rawOperation "requestBody") document = .ok (body, false) ∧
      OperationDrafts operation parameters body := by
  unfold parseOperation at h
  simp only [bind_eq_ok] at h
  obtain ⟨operationParameters, hsequence, merged, hmerged, state, hstate, ⟨body, bodyUnsupported⟩,
    hbody, responses, -, _, -, _, -, h⟩ := h
  cases h
  dsimp only at hconflict
  split_ifs at hconflict with hunsupported
  obtain ⟨-, parameters, hdrafted, hdeclared⟩ := draftedSoFar_nil.foldlM hstate hconflict
  rw [List.nil_append] at hdrafted
  obtain rfl : bodyUnsupported = false := by
    rw [← Bool.not_eq_true]
    exact fun hbodyUnsupported => hunsupported (.inl hbodyUnsupported)
  refine ⟨operationParameters, merged, parameters, body, requireSequence_eq_ok.1 hsequence,
    hmerged, hdeclared, hbody, ?_, rfl, ?_, hdrafted.named, hdrafted.supported⟩
  · rw [← hdrafted.normalized]
    rfl
  · rw [inputSchemaOf, ← hdrafted.properties, ← hdrafted.required]
    rfl

/-- An operation of an accepted document that has no conflict has been parsed as it is. -/
theorem exists_parseOperation {parsed : ParsedOpenApiDocument}
    (h : parse document namespaceName operationAllowlist = .ok parsed)
    (hmem : operation ∈ parsed.operations) (hconflict : operation.conflictStatus = .none) :
    ∃ (paths pathItem rawOperation : JsonObject) (pathParameters : List Json)
        (method operationKey : String) (operationId : Option String) (path : String),
      getOrNull document "paths" = .obj paths ∧ (path, .obj pathItem) ∈ paths ∧
      method ∈ httpMethods ∧ getOrNull pathItem method = .obj rawOperation ∧
      (pathItem.get "parameters").getD (.arr []) = .arr pathParameters ∧
      parseOperation document namespaceName method path operationKey operationId rawOperation
        pathParameters = .ok operation := by
  simp only [parse, raiseIf_bind_eq_ok] at h
  obtain ⟨-, h⟩ := h
  split at h
  · rw [raiseIf_bind_eq_ok] at h
    obtain ⟨-, h⟩ := h
    obtain ⟨paths, hpaths, h⟩ := bind_eq_ok.1 h
    obtain ⟨parsedPaths, hparsed, h⟩ := bind_eq_ok.1 h
    rw [raiseIf_bind_eq_ok] at h
    obtain ⟨-, h⟩ := h
    cases h
    obtain ⟨unmarked, hunmarked, hmarked⟩ := List.mem_map.1 hmem
    -- Only an operation that is not marked is without a conflict.
    obtain rfl : unmarked = operation := by
      unfold markCollision at hmarked
      split at hmarked
      · rw [← hmarked] at hconflict
        cases hconflict
      · exact hmarked
    obtain ⟨operations, hoperations, hunmarked⟩ := List.mem_flatten.1 hunmarked
    obtain ⟨⟨path, value⟩, hfield, hpath⟩ := (mem_mapM hparsed).1 hoperations
    unfold parsePath at hpath
    rw [raiseIf_bind_eq_ok] at hpath
    obtain ⟨-, hpath⟩ := hpath
    obtain ⟨pathItem, hpathItem, hpath⟩ := bind_eq_ok.1 hpath
    obtain rfl := requireMapping_eq_ok.1 hpathItem
    obtain ⟨pathParameters, hpathParameters, hpath⟩ := bind_eq_ok.1 hpath
    obtain ⟨methods, hmethods, hpath⟩ := bind_eq_ok.1 hpath
    cases hpath
    obtain ⟨ofMethod, hofMethod, hunmarked⟩ := List.mem_flatten.1 hunmarked
    obtain ⟨method, hmethod, hparse⟩ := (mem_mapM hmethods).1 hofMethod
    unfold parseMethod at hparse
    split at hparse
    · cases hparse
      cases hunmarked
    · next rawOperation hraw =>
      obtain ⟨mapping, hmapping, hparse⟩ := bind_eq_ok.1 hparse
      dsimp only at hparse
      split at hparse
      · cases hparse
        cases hunmarked
      · obtain ⟨parsedOperation, hparsedOperation, hparse⟩ := bind_eq_ok.1 hparse
        cases hparse
        obtain rfl := List.mem_singleton.1 hunmarked
        exact ⟨paths, pathItem, mapping, pathParameters, method, _, _, path,
          requireMapping_eq_ok.1 hpaths, (perm_sortByKey paths).mem_iff.1 hfield, hmethod,
          requireMapping_eq_ok.1 hmapping, requireSequence_eq_ok.1 hpathParameters,
          hparsedOperation⟩
  · cases h

/-- The names and the locations of declared parameters are told apart. -/
theorem nodup_declared {merged : List JsonObject} (h : (merged.filterMap textKey?).Nodup) :
    ((merged.filterMap (declared? document)).map fun d => (d.name, d.location)).Nodup := by
  refine h.sublist ?_
  rw [List.map_filterMap]
  induction merged with
  | nil => exact .slnil
  | cons parameter merged ih =>
    have hrest := ih (h.sublist ((List.sublist_cons_self _ _).filterMap _))
    cases hdeclared : declared? document parameter with
    | none =>
      rw [List.filterMap_cons_none (by rw [hdeclared]; rfl)]
      exact hrest.trans ((List.sublist_cons_self _ _).filterMap _)
    | some d =>
      rw [List.filterMap_cons_some (by rw [hdeclared]; rfl),
        List.filterMap_cons_some (textKey?_of_declared? hdeclared)]
      exact hrest.cons_cons _

/-- Every operation of an accepted document that has no conflict is a draft of what the document
    declares for it. -/
theorem exists_drafts {parsed : ParsedOpenApiDocument}
    (h : parse document namespaceName operationAllowlist = .ok parsed)
    (hmem : operation ∈ parsed.operations) (hconflict : operation.conflictStatus = .none) :
    ∃ parameters body, OperationDrafts operation parameters body ∧
      Declares document operation (parameters.map (·.toDeclaredParameter)) body ∧
      (parameters.map fun p => (p.name, p.location)).Nodup := by
  obtain ⟨paths, pathItem, rawOperation, pathParameters, method, operationKey, operationId, path,
    hpaths, hfield, hmethod, hraw, hpathParameters, hparse⟩ :=
      exists_parseOperation h hmem hconflict
  obtain ⟨operationParameters, merged, parameters, body, hoperationParameters, hmerged, hdeclared,
    hbody, hdrafts⟩ := drafts_of_parseOperation hparse hconflict
  obtain ⟨hplace, -, -⟩ := parseOperation_eq_ok hparse
  obtain ⟨rfl, hmethod'⟩ := Prod.mk.inj hplace
  have hnodup : ((merged.filterMap (declared? document)).map fun d => (d.name, d.location)).Nodup :=
    nodup_declared (nodup_mergeParameters hmerged)
  rw [hdeclared, List.map_map] at hnodup
  exact ⟨parameters, body, hdrafts, ⟨paths, pathItem, rawOperation, method, pathParameters,
    operationParameters, merged, hpaths, hfield, hmethod, hmethod', hraw, hpathParameters,
    hoperationParameters, hmerged, hdeclared.symm, hbody⟩, hnodup⟩

theorem upperAscii_inj_httpMethods :
    ∀ m ∈ httpMethods, ∀ n ∈ httpMethods, upperAscii m = upperAscii n → m = n := by
  decide +kernel

/-- A document declares one thing for an operation. -/
theorem Declares.unique (hpaths : DistinctPaths document)
    (h : Declares document operation declared body)
    (h' : Declares document operation declared' body') : declared = declared' ∧ body = body' := by
  obtain ⟨paths, pathItem, rawOperation, method, pathParameters, operationParameters, merged,
    hdocument, hfield, hmethod, hupper, hraw, hpathParameters, hoperationParameters, hmerged,
    rfl, hbody⟩ := h
  obtain ⟨paths', pathItem', rawOperation', method', pathParameters', operationParameters', merged',
    hdocument', hfield', hmethod', hupper', hraw', hpathParameters', hoperationParameters',
    hmerged', rfl, hbody'⟩ := h'
  obtain rfl : paths = paths' := Json.obj.inj (hdocument.symm.trans hdocument')
  have hitem := List.inj_on_of_nodup_map (hpaths paths hdocument) hfield hfield' rfl
  obtain rfl : pathItem = pathItem' := Json.obj.inj (Prod.mk.inj hitem).2
  obtain rfl : method = method' :=
    upperAscii_inj_httpMethods method hmethod method' hmethod' (hupper.symm.trans hupper')
  obtain rfl : rawOperation = rawOperation' := Json.obj.inj (hraw.symm.trans hraw')
  obtain rfl : pathParameters = pathParameters' :=
    Json.arr.inj (hpathParameters.symm.trans hpathParameters')
  obtain rfl : operationParameters = operationParameters' :=
    Json.arr.inj (hoperationParameters.symm.trans hoperationParameters')
  obtain rfl : merged = merged' := Except.ok.inj (hmerged.symm.trans hmerged')
  obtain ⟨rfl, -⟩ := Prod.mk.inj (Except.ok.inj (hbody.symm.trans hbody'))
  exact ⟨rfl, rfl⟩

end Documents

end OpenApiParser

end NexusMcp
