-- SUMMARY: The operations of a parsed document: which there are, in which order, and their names.
import NexusMcp.OpenApi.SchemaResolution
import NexusMcp.Shared.CanonicalJson

/-!
# Parsed Operations

The parser returns an operation for each method of each path that the allowlist admits. Two
operations are told apart by their path and method; their tool names may collide, and then
neither of them is free of conflicts.
-/

namespace NexusMcp

/-- What an operation is found under. -/
def ParsedOperation.place (operation : ParsedOperation) : String × String :=
  (operation.path, operation.method)

namespace OpenApiParser

variable {document : JsonObject} {namespaceName path method : String}
  {operationAllowlist : List String}

/-! ## What the document has -/

/-- The allowlist admits a method of a path item, by its key or its identifier. -/
def Admits (operationAllowlist : List String) (path : String) (pathItem : JsonObject)
    (method : String) : Prop :=
  operationAllowlist = [] ∨ upperAscii method ++ " " ++ path ∈ operationAllowlist ∨
    ∃ operation operationId, getOrNull pathItem method = .obj operation ∧
      operationIdOf operation = some operationId ∧ operationId ∈ operationAllowlist

/-- The path item has the method, and the allowlist admits it. -/
def Wanted (operationAllowlist : List String) (path : String) (pathItem : JsonObject)
    (method : String) : Prop :=
  getOrNull pathItem method ≠ .null ∧ Admits operationAllowlist path pathItem method

/-- The document has the method at the path, and the allowlist admits it. -/
def Present (document : JsonObject) (operationAllowlist : List String) (path method : String) :
    Prop :=
  ∃ paths pathItem, getOrNull document "paths" = .obj paths ∧ (path, .obj pathItem) ∈ paths ∧
    Wanted operationAllowlist path pathItem method

/-- Each path stands once among the paths, which are a dictionary. -/
def DistinctPaths (document : JsonObject) : Prop :=
  ∀ paths, getOrNull document "paths" = .obj paths → (paths.map Prod.fst).Nodup

/-- By path, and then in the order of the supported methods. -/
def PlacedBefore (place place' : String × String) : Prop :=
  place.1 < place'.1 ∨ place.1 = place'.1 ∧
    (httpMethods.map upperAscii).idxOf place.2 < (httpMethods.map upperAscii).idxOf place'.2

/-- What is said of the operations of a parsed document. -/
structure CompleteAndNamed (document : JsonObject) (operationAllowlist : List String)
    (parsed : ParsedOpenApiDocument) : Prop where
  complete : ∀ path method', (path, method') ∈ parsed.operations.map (·.place) ↔
    ∃ method ∈ httpMethods, method' = upperAscii method ∧
      Present document operationAllowlist path method
  ordered : (parsed.operations.map (·.place)).Pairwise PlacedBefore
  unshared : ∀ operation ∈ parsed.operations, ∀ other ∈ parsed.operations,
    operation.conflictStatus = .none → other.place ≠ operation.place →
    operation.generatedToolName ≠ other.generatedToolName
  collided : ∀ operation ∈ parsed.operations, operation.conflictStatus = .nameCollision →
    ∃ other ∈ parsed.operations, other.place ≠ operation.place ∧
      other.generatedToolName = operation.generatedToolName

/-! ## One operation -/

/-- Parameters do not collide with anything. -/
theorem conflict_of_normalizeParameter {state state' : ParameterState} {parameter : JsonObject}
    (h : normalizeParameter document state parameter = .ok state')
    (hstate : state.conflict ≠ .nameCollision) : state'.conflict ≠ .nameCollision := by
  unfold normalizeParameter at h
  split at h
  · split at h
    · obtain ⟨_, -, h⟩ := bind_eq_ok.1 h
      obtain ⟨_, -, h⟩ := bind_eq_ok.1 h
      cases h
      exact hstate
    · cases h
      simp
  · cases h
    simp

theorem conflict_of_foldlM {state state' : ParameterState} {parameters : List JsonObject}
    (h : parameters.foldlM (normalizeParameter document) state = .ok state')
    (hstate : state.conflict ≠ .nameCollision) : state'.conflict ≠ .nameCollision :=
  foldlM_invariant (·.conflict ≠ .nameCollision) (fun _ _ _ => conflict_of_normalizeParameter)
    hstate h

/-- An operation is parsed for its place, with a name and without a collision. -/
theorem parseOperation_eq_ok {operationKey : String} {operationId : Option String}
    {operation : JsonObject} {pathParameters : List Json} {parsed : ParsedOperation}
    (h : parseOperation document namespaceName method path operationKey operationId operation
      pathParameters = .ok parsed) :
    parsed.place = (path, upperAscii method) ∧ parsed.generatedToolName ≠ none ∧
      parsed.conflictStatus ≠ .nameCollision := by
  unfold parseOperation at h
  simp only [bind_eq_ok] at h
  obtain ⟨_, -, _, -, parameters, hparameters, ⟨body, bodyUnsupported⟩, -, responses, -, _, -, _, -,
    h⟩ := h
  cases h
  refine ⟨rfl, by simp, ?_⟩
  have hconflict : parameters.conflict ≠ .nameCollision := by
    apply conflict_of_foldlM hparameters
    dsimp only
    split <;> simp
  dsimp only
  split
  · simp
  · exact hconflict

/-! ## The places of the operations -/

/-- An operation that was parsed and has not been compared with others. -/
def Unmarked (operation : ParsedOperation) : Prop :=
  operation.generatedToolName ≠ none ∧ operation.conflictStatus ≠ .nameCollision

open Classical in
/-- The places of the operations that are wanted of a path. -/
noncomputable def wantedPlaces (operationAllowlist : List String) (field : String × Json) :
    List (String × String) :=
  match field.2 with
  | .obj pathItem => (httpMethods.filter (Wanted operationAllowlist field.1 pathItem ·)).map fun m =>
    (field.1, upperAscii m)
  | _ => []

/-- A method of a path item is parsed exactly when it is wanted. -/
theorem parseMethod_eq_ok {pathItem : JsonObject} {pathParameters : List Json}
    {operations : List ParsedOperation}
    (h : parseMethod document namespaceName operationAllowlist path pathItem pathParameters method =
      .ok operations) :
    (¬ Wanted operationAllowlist path pathItem method ∧ operations = []) ∨
    (Wanted operationAllowlist path pathItem method ∧ ∃ operation, operations = [operation] ∧
      operation.place = (path, upperAscii method) ∧ Unmarked operation) := by
  unfold parseMethod at h
  split at h
  · next hnull =>
    cases h
    exact .inl ⟨fun hwanted => hwanted.1 hnull, rfl⟩
  · next rawOperation hraw =>
    obtain ⟨operation, hoperation, h⟩ := bind_eq_ok.1 h
    rw [requireMapping_eq_ok] at hoperation
    dsimp only at h
    split at h
    · next hrefused =>
      cases h
      refine .inl ⟨?_, rfl⟩
      rintro ⟨-, hempty | hkey | ⟨operation', operationId, hobj, hid, hmem⟩⟩
      · exact hrefused.1 hempty
      · exact hrefused.2.1 hkey
      · obtain rfl : operation = operation' := Json.obj.inj (hoperation.symm.trans hobj)
        exact hrefused.2.2 (by simp [hid, hmem])
    · next hadmitted =>
      obtain ⟨parsed, hparsed, h⟩ := bind_eq_ok.1 h
      cases h
      obtain ⟨hplace, hunmarked⟩ := parseOperation_eq_ok hparsed
      refine .inr ⟨⟨hraw, ?_⟩, parsed, rfl, hplace, hunmarked⟩
      by_cases hempty : operationAllowlist = []
      · exact .inl hempty
      by_cases hkey : upperAscii method ++ " " ++ path ∈ operationAllowlist
      · exact .inr (.inl hkey)
      have hid : (operationIdOf operation).any (· ∈ operationAllowlist) = true := by
        by_contra hid
        exact hadmitted ⟨hempty, hkey, hid⟩
      cases hoperationId : operationIdOf operation with
      | none => simp [hoperationId] at hid
      | some operationId =>
        have hmem : operationId ∈ operationAllowlist := by simpa [hoperationId] using hid
        exact .inr (.inr ⟨operation, operationId, hoperation, hoperationId, hmem⟩)

open Classical in
/-- Each of some methods is parsed where it is wanted. -/
theorem places_of_parseMethod {pathItem : JsonObject} {pathParameters : List Json}
    {methods : List String} {parsed : List (List ParsedOperation)}
    (h : List.Forall₂ (fun method operations => parseMethod document namespaceName
      operationAllowlist path pathItem pathParameters method = .ok operations) methods parsed) :
    parsed.flatten.map (·.place) =
      (methods.filter (Wanted operationAllowlist path pathItem ·)).map
        (fun method => (path, upperAscii method)) ∧
    ∀ operation ∈ parsed.flatten, Unmarked operation := by
  induction h with
  | nil => exact ⟨rfl, by simp⟩
  | @cons method operations methods parsed hmethod _ ih =>
    obtain ⟨hplaces, hunmarked⟩ := ih
    obtain ⟨hunwanted, rfl⟩ | ⟨hwanted, operation, rfl, hplace, hoperation⟩ :=
      parseMethod_eq_ok hmethod
    · rw [List.flatten_cons, List.nil_append, List.filter_cons_of_neg (by simpa using hunwanted)]
      exact ⟨hplaces, hunmarked⟩
    · rw [List.flatten_cons, List.singleton_append, List.map_cons, hplaces, hplace,
        List.filter_cons_of_pos (by simpa using hwanted), List.map_cons, List.forall_mem_cons]
      exact ⟨rfl, hoperation, hunmarked⟩

theorem parsePath_eq_ok {field : String × Json} {operations : List ParsedOperation}
    (h : parsePath document namespaceName operationAllowlist field = .ok operations) :
    operations.map (·.place) = wantedPlaces operationAllowlist field ∧
      ∀ operation ∈ operations, Unmarked operation := by
  unfold parsePath at h
  rw [raiseIf_bind_eq_ok] at h
  obtain ⟨-, h⟩ := h
  obtain ⟨pathItem, hpathItem, h⟩ := bind_eq_ok.1 h
  rw [requireMapping_eq_ok] at hpathItem
  obtain ⟨pathParameters, -, h⟩ := bind_eq_ok.1 h
  obtain ⟨parsed, hparsed, h⟩ := bind_eq_ok.1 h
  cases h
  rw [wantedPlaces, hpathItem]
  exact places_of_parseMethod (mapM_eq_ok.1 hparsed)

theorem places_of_parsePath {fields : JsonObject} {parsed : List (List ParsedOperation)}
    (h : List.Forall₂ (fun field operations =>
      parsePath document namespaceName operationAllowlist field = .ok operations) fields parsed) :
    parsed.flatten.map (·.place) = fields.flatMap (wantedPlaces operationAllowlist) ∧
      ∀ operation ∈ parsed.flatten, Unmarked operation := by
  induction h with
  | nil => exact ⟨rfl, by simp⟩
  | @cons field operations fields parsed hfield _ ih =>
    obtain ⟨hplaces, hunmarked⟩ := parsePath_eq_ok hfield
    rw [List.flatten_cons, List.map_append, List.flatMap_cons, hplaces, ih.1,
      List.forall_mem_append]
    exact ⟨rfl, hunmarked, ih.2⟩

/-- The operations of an accepted document, before they are compared with each other. -/
theorem parse_eq_ok {parsed : ParsedOpenApiDocument}
    (h : parse document namespaceName operationAllowlist = .ok parsed) :
    ∃ (paths : JsonObject) (operations : List ParsedOperation),
      getOrNull document "paths" = .obj paths ∧
      operations.map (·.place) = (sortByKey paths).flatMap (wantedPlaces operationAllowlist) ∧
      (∀ operation ∈ operations, Unmarked operation) ∧
      parsed.operations = operations.map (markCollision operations) := by
  simp only [parse, raiseIf_bind_eq_ok] at h
  obtain ⟨-, h⟩ := h
  split at h
  · rw [raiseIf_bind_eq_ok] at h
    obtain ⟨-, h⟩ := h
    obtain ⟨paths, hpaths, h⟩ := bind_eq_ok.1 h
    obtain ⟨parsedPaths, hparsed, h⟩ := bind_eq_ok.1 h
    rw [raiseIf_bind_eq_ok] at h
    obtain ⟨-, h⟩ := h
    cases h
    obtain ⟨hplaces, hunmarked⟩ := places_of_parsePath (mapM_eq_ok.1 hparsed)
    exact ⟨paths, _, requireMapping_eq_ok.1 hpaths, hplaces, hunmarked, rfl⟩
  · cases h

/-! ## The order of the places -/

theorem mem_wantedPlaces {field : String × Json} {path' method' : String} :
    (path', method') ∈ wantedPlaces operationAllowlist field ↔
      ∃ method ∈ httpMethods, method' = upperAscii method ∧
        ∃ pathItem, field = (path', .obj pathItem) ∧
          Wanted operationAllowlist path' pathItem method := by
  obtain ⟨name, value⟩ := field
  unfold wantedPlaces
  dsimp only
  split
  · next pathItem =>
    simp only [List.mem_map, List.mem_filter, decide_eq_true_eq, Prod.mk.injEq]
    constructor
    · rintro ⟨method, ⟨hmethod, hwanted⟩, rfl, rfl⟩
      exact ⟨method, hmethod, rfl, pathItem, ⟨rfl, rfl⟩, hwanted⟩
    · rintro ⟨method, hmethod, rfl, pathItem', ⟨rfl, hpathItem⟩, hwanted⟩
      cases hpathItem
      exact ⟨method, ⟨hmethod, hwanted⟩, rfl, rfl⟩
  · next hobj =>
    constructor
    · intro h
      cases h
    · rintro ⟨_, _, _, pathItem, hfield, _⟩
      cases hfield
      exact absurd rfl (hobj pathItem)

theorem pairwise_wantedPlaces (field : String × Json) :
    (wantedPlaces operationAllowlist field).Pairwise PlacedBefore := by
  have hmethods : httpMethods.Pairwise fun m n =>
      (httpMethods.map upperAscii).idxOf (upperAscii m) <
        (httpMethods.map upperAscii).idxOf (upperAscii n) := by decide +kernel
  unfold wantedPlaces
  split
  · rw [List.pairwise_map]
    exact (hmethods.sublist List.filter_sublist).imp fun hlt => .inr ⟨rfl, hlt⟩
  · exact .nil

theorem pairwise_places {fields : JsonObject} (h : (fields.map Prod.fst).Nodup) :
    ((sortByKey fields).flatMap (wantedPlaces operationAllowlist)).Pairwise PlacedBefore := by
  have hsorted : (sortByKey fields).Pairwise fun f g => f.1 < g.1 := by
    have hnodup : ((sortByKey fields).map Prod.fst).Nodup :=
      ((perm_sortByKey fields).map Prod.fst).nodup_iff.2 h
    rw [List.nodup_iff_pairwise_ne, List.pairwise_map] at hnodup
    exact ((pairwise_sortByKey fields).and hnodup).imp fun hle => lt_of_le_of_ne hle.1 hle.2
  rw [List.pairwise_flatMap]
  refine ⟨fun field _ => pairwise_wantedPlaces field, hsorted.imp fun {f g} hlt => ?_⟩
  rintro ⟨path, method⟩ hf ⟨path', method'⟩ hg
  obtain ⟨_, _, _, _, rfl, _⟩ := mem_wantedPlaces.1 hf
  obtain ⟨_, _, _, _, rfl, _⟩ := mem_wantedPlaces.1 hg
  exact .inl hlt

/-! ## Collisions -/

theorem PlacedBefore.ne {place place' : String × String} (h : PlacedBefore place place') :
    place ≠ place' := by
  rintro rfl
  obtain hlt | ⟨-, hlt⟩ := h
  · exact lt_irrefl _ hlt
  · exact lt_irrefl _ hlt

/-- In a list whose members differ in a key, a second member with a property has another key. -/
theorem one_lt_countP_iff {α β : Type} {key : α → β} {l : List α} (h : (l.map key).Nodup)
    {p : α → Bool} {a : α} (ha : a ∈ l) (hp : p a = true) :
    1 < l.countP p ↔ ∃ b ∈ l, key b ≠ key a ∧ p b = true := by
  obtain ⟨s, t, rfl⟩ := List.append_of_mem ha
  have hcount : (s ++ a :: t).countP p = (s ++ t).countP p + 1 := by
    rw [List.countP_append, List.countP_cons_of_pos hp, List.countP_append, Nat.add_assoc]
  have hkeys : ∀ b ∈ s ++ t, key b ≠ key a := by
    rw [List.perm_middle.map key |>.nodup_iff, List.map_cons, List.nodup_cons] at h
    intro b hb heq
    exact h.1 (heq ▸ List.mem_map_of_mem hb)
  rw [hcount, Nat.lt_add_left_iff_pos, List.countP_pos_iff]
  constructor
  · rintro ⟨b, hb, hpb⟩
    exact ⟨b, List.perm_middle.mem_iff.2 (.tail a hb), hkeys b hb, hpb⟩
  · rintro ⟨b, hb, hne, hpb⟩
    rw [List.perm_middle.mem_iff, List.mem_cons] at hb
    exact ⟨b, hb.resolve_left (hne <| congrArg key ·), hpb⟩

variable {operations : List ParsedOperation} {operation : ParsedOperation}

@[simp] theorem place_markCollision :
    (markCollision operations operation).place = operation.place := by
  unfold markCollision
  split <;> rfl

@[simp] theorem generatedToolName_markCollision :
    (markCollision operations operation).generatedToolName = operation.generatedToolName := by
  unfold markCollision
  split <;> rfl

/-- An operation without a conflict shares its name with no other. -/
theorem unshared_of_markCollision (hplaces : (operations.map (·.place)).Nodup)
    (hmem : operation ∈ operations) (hunmarked : Unmarked operation)
    (h : (markCollision operations operation).conflictStatus = .none)
    {other : ParsedOperation} (hother : other ∈ operations)
    (hne : other.place ≠ operation.place) :
    operation.generatedToolName ≠ other.generatedToolName := by
  intro hname
  have hcount : 1 < operations.countP (·.generatedToolName = operation.generatedToolName) :=
    (one_lt_countP_iff hplaces hmem (by simp)).2 ⟨other, hother, hne, by simp [hname]⟩
  unfold markCollision at h
  split at h
  · cases h
  · next hkept => exact hkept ⟨hunmarked.1, hcount, h⟩

/-- An operation is marked for a name that another one has. -/
theorem collided_of_markCollision (hplaces : (operations.map (·.place)).Nodup)
    (hmem : operation ∈ operations) (hunmarked : Unmarked operation)
    (h : (markCollision operations operation).conflictStatus = .nameCollision) :
    ∃ other ∈ operations, other.place ≠ operation.place ∧
      other.generatedToolName = operation.generatedToolName := by
  unfold markCollision at h
  split at h
  · next hmarked =>
    obtain ⟨other, hother, hne, hname⟩ :=
      (one_lt_countP_iff hplaces hmem (by simp)).1 hmarked.2.1
    exact ⟨other, hother, hne, by simpa using hname⟩
  · exact absurd h hunmarked.2

/-! ## Accepted documents -/

theorem map_place_markCollision (operations others : List ParsedOperation) :
    (operations.map (markCollision others)).map (·.place) = operations.map (·.place) := by
  rw [List.map_map]
  exact List.map_congr_left fun operation _ => place_markCollision

/-- An accepted document is parsed into the operations that it has and the allowlist admits, one
    for each path and method, in the order of the paths and of the methods. -/
theorem parse_complete (hpaths : DistinctPaths document) {parsed : ParsedOpenApiDocument}
    (h : parse document namespaceName operationAllowlist = .ok parsed) :
    CompleteAndNamed document operationAllowlist parsed := by
  obtain ⟨paths, operations, hdocument, hplaces, hunmarked, hparsed⟩ := parse_eq_ok h
  have hordered : (operations.map (·.place)).Pairwise PlacedBefore :=
    hplaces ▸ pairwise_places (hpaths paths hdocument)
  have hnodup : (operations.map (·.place)).Nodup := hordered.imp PlacedBefore.ne
  have hkept : parsed.operations.map (·.place) = operations.map (·.place) :=
    hparsed ▸ map_place_markCollision operations operations
  refine ⟨?_, hkept ▸ hordered, ?_, ?_⟩
  · intro path method'
    rw [hkept, hplaces, List.mem_flatMap]
    constructor
    · rintro ⟨field, hfield, hplace⟩
      obtain ⟨method, hmethod, rfl, pathItem, rfl, hwanted⟩ := mem_wantedPlaces.1 hplace
      have hmem : (path, .obj pathItem) ∈ paths := (perm_sortByKey paths).mem_iff.1 hfield
      exact ⟨method, hmethod, rfl, paths, pathItem, hdocument, hmem, hwanted⟩
    · rintro ⟨method, hmethod, rfl, paths', pathItem, hdocument', hmem, hwanted⟩
      obtain rfl : paths = paths' := Json.obj.inj (hdocument.symm.trans hdocument')
      exact ⟨(path, .obj pathItem), (perm_sortByKey paths).mem_iff.2 hmem,
        mem_wantedPlaces.2 ⟨method, hmethod, rfl, pathItem, rfl, hwanted⟩⟩
  · rw [hparsed]
    simp only [List.forall_mem_map, place_markCollision, generatedToolName_markCollision]
    intro operation hmem other hother hnone hne
    exact unshared_of_markCollision hnodup hmem (hunmarked operation hmem) hnone hother hne
  · rw [hparsed]
    simp only [List.forall_mem_map, place_markCollision, generatedToolName_markCollision]
    intro operation hmem hcollision
    obtain ⟨other, hother, hne, hname⟩ :=
      collided_of_markCollision hnodup hmem (hunmarked operation hmem) hcollision
    exact ⟨markCollision operations other, List.mem_map_of_mem hother, by simpa using hne,
      by simpa using hname⟩

/-- An operation with an identifier and nothing in its response. -/
def namedOperation (operationId : String) : Json :=
  .obj [("operationId", .str operationId), ("responses", .obj [("200", .obj [])])]

/-- Two of the three operations generate the name `pets.list_pets`. -/
def collidingDocument : JsonObject :=
  [("openapi", .str "3.0.3"), ("paths", .obj [
    ("/pets", .obj [("post", namedOperation "addPet"), ("get", namedOperation "listPets")]),
    ("/all", .obj [("get", namedOperation " list_pets")])])]

theorem parse_complete_colliding :
    ∃ parsed, parse collidingDocument "pets" ["addPet", "GET /pets", "list_pets"] = .ok parsed ∧
      parsed.operations.map (·.conflictStatus) = [.nameCollision, .nameCollision, .none] ∧
      CompleteAndNamed collidingDocument ["addPet", "GET /pets", "list_pets"] parsed := by
  have hpaths : DistinctPaths collidingDocument := by
    intro paths h
    cases h
    decide
  obtain ⟨parsed, hparsed, hstatuses⟩ : ∃ parsed,
      parse collidingDocument "pets" ["addPet", "GET /pets", "list_pets"] = .ok parsed ∧
        parsed.operations.map (·.conflictStatus) = [.nameCollision, .nameCollision, .none] :=
    ⟨_, rfl, rfl⟩
  exact ⟨parsed, hparsed, hstatuses, parse_complete hpaths hparsed⟩

end OpenApiParser

end NexusMcp
