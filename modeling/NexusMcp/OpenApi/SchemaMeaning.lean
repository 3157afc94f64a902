-- SUMMARY: What a JSON Schema means to a validator, told from the places of its keywords and names.
import NexusMcp.Shared.Json
import Mathlib.Data.List.Forall2

/-!
# The Meaning of a Schema

Whether a key of an object is a keyword, a name that the author chose or a part of an
asserted value depends on where the object stands in the schema. A validator is taken
with the two laws that every one of them keeps: annotations decide nothing, and a schema
counts by its keywords and by what its subschemas give.
-/

namespace NexusMcp

/-- A property of JSON values holds when arrays and objects take it over from their parts. -/
theorem Json.induction {motive : Json → Prop}
    (arr : ∀ items, (∀ v ∈ items, motive v) → motive (.arr items))
    (obj : ∀ fields : JsonObject, (∀ f ∈ fields, motive f.2) → motive (.obj fields))
    (leaf : ∀ v, (∀ items, v ≠ .arr items) → (∀ fields, v ≠ .obj fields) → motive v) (v : Json) :
    motive v := by
  cases v with
  | arr items => exact arr items fun v hv => Json.induction arr obj leaf v
  | obj fields => exact obj fields fun f hf => Json.induction arr obj leaf f.2
  | null | bool | int | float | str => exact leaf _ (by simp) (by simp)
termination_by sizeOf v
decreasing_by
  · have hlt := List.sizeOf_lt_of_mem hv
    simp only [Json.arr.sizeOf_spec]
    omega
  · have hlt := List.sizeOf_lt_of_mem hf
    obtain ⟨name, value⟩ := f
    simp only [Json.obj.sizeOf_spec, Prod.mk.sizeOf_spec] at hlt ⊢
    omega

namespace JsonSchema

/-! ## Keywords -/

/-- What the value of a keyword is: a schema or a list of schemas, schemas under names
    that the author chose, a value that is asserted as it is, or nothing a validator
    minds. -/
inductive KeywordKind where
  | subschemas
  | named
  | assertion
  | descriptive
deriving Repr, DecidableEq

def subschemaKeywords : List String :=
  ["allOf", "anyOf", "oneOf", "not", "if", "then", "else", "items", "prefixItems",
    "additionalItems", "unevaluatedItems", "contains", "additionalProperties",
    "unevaluatedProperties", "propertyNames"]

def namedKeywords : List String := ["properties", "patternProperties", "dependentSchemas"]

def assertionKeywords : List String :=
  ["type", "enum", "const", "multipleOf", "maximum", "exclusiveMaximum", "minimum",
    "exclusiveMinimum", "maxLength", "minLength", "pattern", "format", "maxItems", "minItems",
    "uniqueItems", "maxContains", "minContains", "maxProperties", "minProperties", "required",
    "dependentRequired"]

/-- The keywords that stand for a schema elsewhere. -/
def referenceKeywords : List String := ["$ref", "$dynamicRef", "$recursiveRef"]

def keywordKind (name : String) : KeywordKind :=
  if name ∈ subschemaKeywords then .subschemas
  else if name ∈ namedKeywords then .named
  else if name ∈ assertionKeywords ++ referenceKeywords then .assertion
  else .descriptive

/-- The keyword decides something. -/
def Decides (name : String) : Bool := keywordKind name ≠ .descriptive

/-! ## Normal forms -/

mutual

/-- The schema without its annotations. A list of schemas is taken schema by schema. -/
def normalForm : Json → Json
  | .arr items => .arr (normalizeItems items)
  | .obj fields => .obj (normalizeKeywords fields)
  | value => value

def normalizeItems : List Json → List Json
  | [] => []
  | item :: items => normalForm item :: normalizeItems items

def normalizeKeywords : List (String × Json) → List (String × Json)
  | [] => []
  | (name, value) :: fields =>
    match keywordKind name with
    | .subschemas => (name, normalForm value) :: normalizeKeywords fields
    | .named => (name, normalizeMap value) :: normalizeKeywords fields
    | .assertion => (name, value) :: normalizeKeywords fields
    | .descriptive => normalizeKeywords fields

def normalizeMap : Json → Json
  | .obj names => .obj (normalizeNames names)
  | value => value

def normalizeNames : List (String × Json) → List (String × Json)
  | [] => []
  | (name, value) :: names => (name, normalForm value) :: normalizeNames names

end

/-- The value of the keyword `name`, without the annotations in it. -/
def normalizeKeyword (name : String) (value : Json) : Json :=
  match keywordKind name with
  | .subschemas => normalForm value
  | .named => normalizeMap value
  | .assertion => value
  | .descriptive => .null

theorem normalizeItems_eq (items : List Json) : normalizeItems items = items.map normalForm := by
  induction items with
  | nil => simp [normalizeItems]
  | cons item items ih => simp [normalizeItems, ih]

theorem normalizeNames_eq (names : JsonObject) :
    normalizeNames names = names.map fun f => (f.1, normalForm f.2) := by
  induction names with
  | nil => simp [normalizeNames]
  | cons field names ih => simp [normalizeNames, ih]

theorem normalizeKeywords_eq (fields : JsonObject) :
    normalizeKeywords fields =
      (fields.filter (Decides ·.1)).map fun f => (f.1, normalizeKeyword f.1 f.2) := by
  induction fields with
  | nil => simp [normalizeKeywords]
  | cons field fields ih =>
    obtain ⟨name, value⟩ := field
    unfold normalizeKeywords
    cases h : keywordKind name <;> simp [Decides, normalizeKeyword, h, ih]

/-! ## Declared names -/

mutual

/-- The names that a schema declares, with the way from the schema to each. -/
def declarations : Json → List (List String)
  | .arr items => itemDeclarations 0 items
  | .obj fields => keywordDeclarations fields
  | _ => []

def itemDeclarations : Nat → List Json → List (List String)
  | _, [] => []
  | i, item :: items =>
    (declarations item).map (toString i :: ·) ++ itemDeclarations (i + 1) items

def keywordDeclarations : List (String × Json) → List (List String)
  | [] => []
  | (name, value) :: fields =>
    match keywordKind name with
    | .subschemas => (declarations value).map (name :: ·) ++ keywordDeclarations fields
    | .named => (mapDeclarations value).map (name :: ·) ++ keywordDeclarations fields
    | .assertion => keywordDeclarations fields
    | .descriptive => keywordDeclarations fields

def mapDeclarations : Json → List (List String)
  | .obj names => nameDeclarations names
  | _ => []

def nameDeclarations : List (String × Json) → List (List String)
  | [] => []
  | (name, value) :: names =>
    [name] :: (declarations value).map (name :: ·) ++ nameDeclarations names

end

mutual

/-- Annotations declare nothing. -/
theorem declarations_normalize (s : Json) : declarations (normalForm s) = declarations s := by
  cases s with
  | arr items =>
    simp only [normalForm, declarations]
    exact itemDeclarations_normalize 0 items
  | obj fields =>
    simp only [normalForm, declarations]
    exact keywordDeclarations_normalize fields
  | null | bool | int | float | str => simp only [normalForm]

theorem itemDeclarations_normalize (i : Nat) (items : List Json) :
    itemDeclarations i (normalizeItems items) = itemDeclarations i items := by
  cases items with
  | nil => simp only [normalizeItems]
  | cons item items =>
    simp only [normalizeItems, itemDeclarations, declarations_normalize item,
      itemDeclarations_normalize (i + 1) items]

theorem keywordDeclarations_normalize (fields : List (String × Json)) :
    keywordDeclarations (normalizeKeywords fields) = keywordDeclarations fields := by
  match fields with
  | [] => simp only [normalizeKeywords]
  | (name, value) :: fields =>
    have ih := keywordDeclarations_normalize fields
    cases h : keywordKind name with
    | subschemas =>
      simp only [normalizeKeywords, keywordDeclarations, h, ih, declarations_normalize value]
    | named =>
      simp only [normalizeKeywords, keywordDeclarations, h, ih, mapDeclarations_normalize value]
    | assertion => simp only [normalizeKeywords, keywordDeclarations, h, ih]
    | descriptive => simp only [normalizeKeywords, keywordDeclarations, h, ih]

theorem mapDeclarations_normalize (value : Json) :
    mapDeclarations (normalizeMap value) = mapDeclarations value := by
  cases value with
  | obj names =>
    simp only [normalizeMap, mapDeclarations]
    exact nameDeclarations_normalize names
  | null | bool | int | float | str | arr => simp only [normalizeMap]

theorem nameDeclarations_normalize (names : List (String × Json)) :
    nameDeclarations (normalizeNames names) = nameDeclarations names := by
  match names with
  | [] => simp only [normalizeNames]
  | (name, value) :: names =>
    simp only [normalizeNames, nameDeclarations, declarations_normalize value,
      nameDeclarations_normalize names]

end

/-! ## References -/

mutual

/-- No schema in the schema has a reference. -/
def ReferenceFree : Json → Prop
  | .arr items => ItemsReferenceFree items
  | .obj fields => KeywordsReferenceFree fields
  | _ => True

def ItemsReferenceFree : List Json → Prop
  | [] => True
  | item :: items => ReferenceFree item ∧ ItemsReferenceFree items

def KeywordsReferenceFree : List (String × Json) → Prop
  | [] => True
  | (name, value) :: fields =>
    (name ∉ referenceKeywords ∧ match keywordKind name with
      | .subschemas => ReferenceFree value
      | .named => MapReferenceFree value
      | _ => True) ∧ KeywordsReferenceFree fields

def MapReferenceFree : Json → Prop
  | .obj names => NamesReferenceFree names
  | _ => True

def NamesReferenceFree : List (String × Json) → Prop
  | [] => True
  | (_, value) :: names => ReferenceFree value ∧ NamesReferenceFree names

end

/-- The keyword is no reference, and has none in its value. -/
def KeywordReferenceFree (name : String) (value : Json) : Prop :=
  name ∉ referenceKeywords ∧ match keywordKind name with
    | .subschemas => ReferenceFree value
    | .named => MapReferenceFree value
    | _ => True

theorem itemsReferenceFree_iff {items : List Json} :
    ItemsReferenceFree items ↔ ∀ v ∈ items, ReferenceFree v := by
  induction items with
  | nil => simp [ItemsReferenceFree]
  | cons item items ih => simp [ItemsReferenceFree, ih]

theorem keywordsReferenceFree_iff {fields : JsonObject} :
    KeywordsReferenceFree fields ↔ ∀ f ∈ fields, KeywordReferenceFree f.1 f.2 := by
  induction fields with
  | nil => simp [KeywordsReferenceFree]
  | cons field fields ih =>
    rw [KeywordsReferenceFree, ih, List.forall_mem_cons]
    rfl

theorem namesReferenceFree_iff {names : JsonObject} :
    NamesReferenceFree names ↔ ∀ f ∈ names, ReferenceFree f.2 := by
  induction names with
  | nil => simp [NamesReferenceFree]
  | cons field names ih => rw [NamesReferenceFree, ih, List.forall_mem_cons]

theorem decides_of_reference {name : String} (h : name ∈ referenceKeywords) :
    Decides name = true := by
  simp only [referenceKeywords, List.mem_cons, List.not_mem_nil, or_false] at h
  rcases h with rfl | rfl | rfl <;> decide

/-- Annotations hold no reference. -/
theorem referenceFree_normalize (v : Json) :
    (ReferenceFree (normalForm v) ↔ ReferenceFree v) ∧
      (MapReferenceFree (normalizeMap v) ↔ MapReferenceFree v) := by
  induction v using Json.induction with
  | arr items ih =>
    simp only [normalForm, normalizeMap, ReferenceFree, MapReferenceFree, itemsReferenceFree_iff,
      normalizeItems_eq, List.forall_mem_map, and_true]
    exact forall₂_congr fun v hv => (ih v hv).1
  | obj fields ih =>
    simp only [normalForm, normalizeMap, ReferenceFree, MapReferenceFree, keywordsReferenceFree_iff,
      namesReferenceFree_iff, normalizeKeywords_eq, normalizeNames_eq, List.forall_mem_map]
    refine ⟨?_, forall₂_congr fun f hf => (ih f hf).1⟩
    -- A keyword that decides is kept, and its value is normalised as its kind wants it.
    have hvalue : ∀ f ∈ fields, Decides f.1 = true →
        (KeywordReferenceFree f.1 (normalizeKeyword f.1 f.2) ↔ KeywordReferenceFree f.1 f.2) := by
      intro f hf _
      unfold KeywordReferenceFree normalizeKeyword
      obtain ⟨hschema, hmap⟩ := ih f hf
      cases hkind : keywordKind f.1 with
      | subschemas => exact and_congr_right fun _ => hschema
      | named => exact and_congr_right fun _ => hmap
      | assertion => exact Iff.rfl
      | descriptive => exact Iff.rfl
    constructor
    · intro h f hf
      by_cases hdecides : Decides f.1 = true
      · exact (hvalue f hf hdecides).1 (h f (List.mem_filter.2 ⟨hf, hdecides⟩))
      -- A keyword that is dropped is descriptive, hence no reference.
      · refine ⟨fun href => hdecides (decides_of_reference href), ?_⟩
        have hkind : keywordKind f.1 = .descriptive := by simpa [Decides] using hdecides
        rw [hkind]
        trivial
    · intro h f hf
      obtain ⟨hf, hdecides⟩ := List.mem_filter.1 hf
      exact (hvalue f hf hdecides).2 (h f hf)
  | leaf v harr hobj =>
    cases v with
    | arr items => exact absurd rfl (harr items)
    | obj fields => exact absurd rfl (hobj fields)
    | null | bool | int | float | str => simp [normalForm, normalizeMap]

/-! ## Validators -/

section Same

variable {Result : Type} (evaluate : Json → Json → Result)

mutual

/-- The schemas, or the schemas of the lists, give the same for every instance. -/
def Same : Json → Json → Prop
  | .arr items, .arr items' => SameItems items items'
  | s, s' => ∀ x, evaluate s x = evaluate s' x

def SameItems : List Json → List Json → Prop
  | [], [] => True
  | item :: items, item' :: items' => Same item item' ∧ SameItems items items'
  | _, _ => False

end

/-- The names are the same, and their schemas give the same for every instance. -/
def SameMap : Json → Json → Prop
  | .obj names, .obj names' => List.Forall₂ (fun f g => f.1 = g.1 ∧ Same evaluate f.2 g.2) names names'
  | value, value' => value = value'

/-- The values say the same as values of the keyword `name`. -/
def SameKeyword (name : String) (value value' : Json) : Prop :=
  match keywordKind name with
  | .subschemas => Same evaluate value value'
  | .named => SameMap evaluate value value'
  | .assertion => value = value'
  | .descriptive => True

end Same

/-- A validator of JSON Schema. What it gives for a schema and an instance may be more
    than the verdict, such as the parts of the instance it has evaluated. -/
structure Validator where
  Result : Type
  evaluate : Json → Json → Result
  accepted : Result → Prop
  annotations : ∀ fields x, ReferenceFree (.obj fields) →
    evaluate (.obj (fields.filter (Decides ·.1))) x = evaluate (.obj fields) x
  keywords : ∀ fields fields' x, ReferenceFree (.obj fields) → ReferenceFree (.obj fields') →
    List.Forall₂ (fun f g => f.1 = g.1 ∧ SameKeyword evaluate f.1 f.2 g.2) fields fields' →
    evaluate (.obj fields) x = evaluate (.obj fields') x

namespace Validator

def accepts (self : Validator) (schema x : Json) : Prop := self.accepted (self.evaluate schema x)

/-! ### The normal form decides -/

theorem sameItems_iff {Result : Type} {evaluate : Json → Json → Result} {items items' : List Json} :
    SameItems evaluate items items' ↔ List.Forall₂ (Same evaluate) items items' := by
  induction items generalizing items' with
  | nil => cases items' <;> simp [SameItems]
  | cons item items ih => cases items' <;> simp [SameItems, ih]

theorem same_normalize (self : Validator) (v : Json) :
    (ReferenceFree v → Same self.evaluate (normalForm v) v) ∧
      (MapReferenceFree v → SameMap self.evaluate (normalizeMap v) v) := by
  induction v using Json.induction with
  | arr items ih =>
    simp only [normalForm, normalizeMap, Same, SameMap, sameItems_iff, normalizeItems_eq,
      ReferenceFree, itemsReferenceFree_iff]
    exact ⟨fun h => List.forall₂_map_left_iff.2
      (List.forall₂_same.2 fun v hv => (ih v hv).1 (h v hv)), fun _ => trivial⟩
  | obj fields ih =>
    refine ⟨fun h => ?_, fun h => ?_⟩
    · simp only [normalForm, Same]
      intro x
      -- Keywords that decide nothing are no part of the normal form, so they may go here too.
      have hdecides : ReferenceFree (.obj (fields.filter (Decides ·.1))) := by
        rw [ReferenceFree, keywordsReferenceFree_iff] at h ⊢
        exact fun f hf => h f (List.mem_of_mem_filter hf)
      have hnormal := (referenceFree_normalize (.obj fields)).1.2 h
      rw [normalForm] at hnormal
      rw [← self.annotations fields x h]
      refine self.keywords _ _ x hnormal hdecides ?_
      rw [ReferenceFree, keywordsReferenceFree_iff] at h
      rw [normalizeKeywords_eq]
      refine List.forall₂_map_left_iff.2 (List.forall₂_same.2 fun f hf => ⟨rfl, ?_⟩)
      obtain ⟨hsame, hmap⟩ := ih f (List.mem_of_mem_filter hf)
      obtain ⟨-, hvalue⟩ := h f (List.mem_of_mem_filter hf)
      unfold SameKeyword normalizeKeyword
      cases hkind : keywordKind f.1 with
      | subschemas => exact hsame (by rwa [hkind] at hvalue)
      | named => exact hmap (by rwa [hkind] at hvalue)
      | assertion => rfl
      | descriptive => trivial
    · rw [MapReferenceFree, namesReferenceFree_iff] at h
      simp only [normalizeMap, SameMap, normalizeNames_eq]
      exact List.forall₂_map_left_iff.2
        (List.forall₂_same.2 fun f hf => ⟨rfl, (ih f hf).1 (h f hf)⟩)
  | leaf v harr hobj =>
    cases v with
    | arr items => exact absurd rfl (harr items)
    | obj fields => exact absurd rfl (hobj fields)
    | null | bool | int | float | str => simp [normalForm, normalizeMap, Same, SameMap]

/-- Schemas with one normal form and no references accept the same. -/
theorem accepts_iff_of_normalize_eq (self : Validator) {fields fields' : JsonObject}
    (hfree : ReferenceFree (.obj fields')) (h : normalForm (.obj fields) = normalForm (.obj fields'))
    (x : Json) : self.accepts (.obj fields) x ↔ self.accepts (.obj fields') x := by
  have hfree' : ReferenceFree (.obj fields) := by
    rw [← (referenceFree_normalize (.obj fields)).1, h]
    exact (referenceFree_normalize (.obj fields')).1.2 hfree
  have hsame : ∀ fields, ReferenceFree (.obj fields) →
      self.evaluate (normalForm (.obj fields)) x = self.evaluate (.obj fields) x := by
    intro fields hfields
    have hsame := (self.same_normalize (.obj fields)).1 hfields
    simp only [normalForm, Same] at hsame
    exact hsame x
  unfold accepts
  rw [← hsame fields hfree', ← hsame fields' hfree, h]

theorem normalize_eq_of_same {v v' : Json} (h : Same (fun s x : Json => (normalForm s, x)) v v') :
    normalForm v = normalForm v' := by
  induction v using Json.induction generalizing v' with
  | arr items ih =>
    cases v' with
    | arr items' =>
      simp only [Same, sameItems_iff] at h
      simp only [normalForm, normalizeItems_eq, Json.arr.injEq]
      induction h with
      | nil => rfl
      | cons hsame _ ih' =>
        rw [List.forall_mem_cons] at ih
        rw [List.map_cons, List.map_cons, ih.1 hsame, ih' ih.2]
    | null | bool | int | float | str | obj =>
      simp only [Same] at h
      exact congrArg Prod.fst (h .null)
  | obj fields =>
    simp only [Same] at h
    exact congrArg Prod.fst (h .null)
  | leaf v harr =>
    cases v with
    | arr items => exact absurd rfl (harr items)
    | null | bool | int | float | str | obj =>
      simp only [Same] at h
      exact congrArg Prod.fst (h .null)

theorem normalizeMap_eq_of_same {value value' : Json}
    (h : SameMap (fun s x : Json => (normalForm s, x)) value value') :
    normalizeMap value = normalizeMap value' := by
  unfold SameMap at h
  split at h
  · simp only [normalizeMap, normalizeNames_eq, Json.obj.injEq]
    induction h with
    | nil => rfl
    | cons hsame _ ih => rw [List.map_cons, List.map_cons, hsame.1, normalize_eq_of_same hsame.2, ih]
  · exact congrArg normalizeMap h

theorem normalizeKeyword_eq_of_same {name : String} {value value' : Json}
    (h : SameKeyword (fun s x : Json => (normalForm s, x)) name value value') :
    normalizeKeyword name value = normalizeKeyword name value' := by
  unfold SameKeyword at h
  unfold normalizeKeyword
  cases hkind : keywordKind name with
  | subschemas =>
    rw [hkind] at h
    exact normalize_eq_of_same h
  | named =>
    rw [hkind] at h
    exact normalizeMap_eq_of_same h
  | assertion =>
    rw [hkind] at h
    exact h
  | descriptive => rfl

theorem normalize_eq_of_sameKeywords {fields fields' : JsonObject}
    (h : List.Forall₂ (fun f g => f.1 = g.1 ∧
      SameKeyword (fun s x : Json => (normalForm s, x)) f.1 f.2 g.2) fields fields') :
    normalForm (.obj fields) = normalForm (.obj fields') := by
  simp only [normalForm, normalizeKeywords_eq, Json.obj.injEq]
  induction h with
  | nil => rfl
  | @cons f g _ _ hsame _ ih =>
    have hvalue := normalizeKeyword_eq_of_same hsame.2
    rw [List.filter_cons, List.filter_cons, ← hsame.1]
    split
    · rw [List.map_cons, List.map_cons, ih, ← hsame.1, hvalue]
    · exact ih

/-- The validator that accepts exactly the normal form of its schema. -/
def syntactic : Validator where
  Result := Json × Json
  evaluate s x := (normalForm s, x)
  accepted result := result.1 = result.2
  annotations fields x _ := by
    simp only [normalForm, normalizeKeywords_eq, List.filter_filter, Bool.and_self]
  keywords fields fields' x _ _ h := by rw [normalize_eq_of_sameKeywords h]

/-! ### A validator of shapes -/

/-- The names that the keyword `properties` declares. -/
def declaredNames (fields : JsonObject) : List String :=
  match JsonObject.get fields "properties" with
  | some (.obj names) => names.map (·.1)
  | _ => []

def typeHolds : Json → Json → Bool
  | .str "null", x => match x with | .null => true | _ => false
  | .str "boolean", x => match x with | .bool _ => true | _ => false
  | .str "integer", x => match x with | .int _ => true | _ => false
  | .str "number", x => match x with | .int _ | .float _ => true | _ => false
  | .str "string", x => match x with | .str _ => true | _ => false
  | .str "array", x => match x with | .arr _ => true | _ => false
  | .str "object", x => match x with | .obj _ => true | _ => false
  | _, _ => true

def requiredHolds (names : List Json) (x : Json) : Bool :=
  match x with
  | .obj members => names.all fun
    | .str name => (JsonObject.get members name).isSome
    | _ => true
  | _ => true

def assertionHolds (name : String) (value x : Json) : Bool :=
  match name, value with
  | "type", value => typeHolds value x
  | "required", .arr names => requiredHolds names x
  | _, _ => true

/-- Whether a keyword holds that has a schema, or a list of them, with the given verdicts. -/
def subschemaHolds (declared : List String) (name : String) (verdicts : Json → List Bool)
    (x : Json) : Bool :=
  match name, x with
  | "additionalProperties", .obj members =>
    members.all fun member => member.1 ∈ declared || (verdicts member.2).all id
  | "items", .arr items => items.all fun item => (verdicts item).all id
  | "allOf", x => (verdicts x).all id
  | "anyOf", x => (verdicts x).any id
  | "oneOf", x => (verdicts x).count true = 1
  | "not", x => !(verdicts x).all id
  | _, _ => true

mutual

/-- The verdict of a schema on an instance, or the verdicts of a list of schemas. -/
def verdicts : Json → Json → List Bool
  | .bool b, _ => [b]
  | .arr items, x => itemVerdicts items x
  | .obj fields, x => [keywordsHold (declaredNames fields) fields x]
  | _, _ => []

def itemVerdicts : List Json → Json → List Bool
  | [], _ => []
  | item :: items, x => verdicts item x ++ itemVerdicts items x

def keywordsHold (declared : List String) : List (String × Json) → Json → Bool
  | [], _ => true
  | (name, value) :: fields, x =>
    (match keywordKind name with
      | .subschemas => subschemaHolds declared name (verdicts value) x
      | .named => mapHolds name value x
      | .assertion => assertionHolds name value x
      | .descriptive => true) && keywordsHold declared fields x

def mapHolds (name : String) : Json → Json → Bool
  | .obj names, .obj members => name ≠ "properties" || propertiesHold names members
  | _, _ => true

def propertiesHold : List (String × Json) → JsonObject → Bool
  | [], _ => true
  | (name, value) :: names, members =>
    (match JsonObject.get members name with
      | some part => (verdicts value part).all id
      | none => true) && propertiesHold names members

end

def keywordHolds (declared : List String) (name : String) (value x : Json) : Bool :=
  match keywordKind name with
  | .subschemas => subschemaHolds declared name (verdicts value) x
  | .named => mapHolds name value x
  | .assertion => assertionHolds name value x
  | .descriptive => true

theorem keywordsHold_eq (declared : List String) (fields : JsonObject) (x : Json) :
    keywordsHold declared fields x = fields.all fun f => keywordHolds declared f.1 f.2 x := by
  induction fields with
  | nil => simp [keywordsHold]
  | cons f fields ih =>
    rw [keywordsHold, ih, List.all_cons]
    rfl

theorem propertiesHold_congr {names names' members : JsonObject}
    (h : List.Forall₂ (fun f g => f.1 = g.1 ∧ verdicts f.2 = verdicts g.2) names names') :
    propertiesHold names members = propertiesHold names' members := by
  induction h with
  | nil => rfl
  | @cons f g _ _ hfg _ ih => rw [propertiesHold, propertiesHold, hfg.1, hfg.2, ih]

theorem verdicts_eq_of_same {v v' : Json} (h : Same verdicts v v') : verdicts v = verdicts v' := by
  induction v using Json.induction generalizing v' with
  | arr items ih =>
    cases v' with
    | arr items' =>
      simp only [Same, sameItems_iff] at h
      funext x
      rw [verdicts, verdicts]
      induction h with
      | nil => rfl
      | cons hsame _ ih' =>
        rw [List.forall_mem_cons] at ih
        rw [itemVerdicts, itemVerdicts, ih.1 hsame, ih' ih.2]
    | null | bool | int | float | str | obj =>
      simp only [Same] at h
      exact funext h
  | obj fields =>
    simp only [Same] at h
    exact funext h
  | leaf v harr =>
    cases v with
    | arr items => exact absurd rfl (harr items)
    | null | bool | int | float | str | obj =>
      simp only [Same] at h
      exact funext h

theorem keywordHolds_congr {name : String} {value value' : Json} (declared : List String)
    (h : SameKeyword verdicts name value value') (x : Json) :
    keywordHolds declared name value x = keywordHolds declared name value' x := by
  unfold SameKeyword at h
  unfold keywordHolds
  cases hkind : keywordKind name with
  | subschemas =>
    rw [hkind] at h
    simp only [verdicts_eq_of_same h]
  | named =>
    simp only [hkind, SameMap] at h
    split at h
    · cases x with
      | obj members =>
        have hnames := h.imp fun f g hfg => And.intro hfg.1 (verdicts_eq_of_same hfg.2)
        simp only [mapHolds, propertiesHold_congr hnames]
      | null | bool | int | float | str | arr => simp only [mapHolds]
    · rw [h]
  | assertion =>
    rw [hkind] at h
    simp only [h]
  | descriptive => rfl

theorem keywordsHold_congr {fields fields' : JsonObject} (declared : List String)
    (h : List.Forall₂ (fun f g => f.1 = g.1 ∧ SameKeyword verdicts f.1 f.2 g.2) fields fields')
    (x : Json) : keywordsHold declared fields x = keywordsHold declared fields' x := by
  rw [keywordsHold_eq, keywordsHold_eq]
  induction h with
  | nil => rfl
  | cons hfg _ ih => rw [List.all_cons, List.all_cons, ih, ← hfg.1, keywordHolds_congr _ hfg.2]

theorem declaredNames_congr {fields fields' : JsonObject}
    (h : List.Forall₂ (fun f g => f.1 = g.1 ∧ SameKeyword verdicts f.1 f.2 g.2) fields fields') :
    declaredNames fields = declaredNames fields' := by
  unfold declaredNames JsonObject.get
  induction h with
  | nil => rfl
  | @cons f g _ _ hfg _ ih =>
    obtain ⟨hname, hsame⟩ := hfg
    rw [List.find?_cons, List.find?_cons, ← hname]
    by_cases h : f.1 = "properties"
    · have hkind : keywordKind "properties" = .named := by decide
      simp only [h, SameKeyword, hkind, SameMap] at hsame
      simp only [h, decide_true, Option.map_some]
      split at hsame
      · next hf hg =>
        simp only [hf, hg]
        rw [← List.forall₂_eq_eq_eq, List.forall₂_map_left_iff, List.forall₂_map_right_iff]
        exact hsame.imp fun f g hfg => hfg.1
      · rw [hsame]
    · simp only [h, decide_false]
      exact ih

theorem declaredNames_filter (fields : JsonObject) :
    declaredNames (fields.filter (Decides ·.1)) = declaredNames fields := by
  unfold declaredNames JsonObject.get
  rw [List.find?_filter]
  congr 3
  funext f
  by_cases h : f.1 = "properties"
  · simp [h, show Decides "properties" = true by decide]
  · simp [h]

/-- A validator that knows the keywords for the types, the members and the items of an
    instance, and those that combine schemas. -/
def shapes : Validator where
  Result := List Bool
  evaluate := verdicts
  accepted results := results.all id = true
  annotations fields x _ := by
    rw [verdicts, verdicts, declaredNames_filter, keywordsHold_eq, keywordsHold_eq, List.all_filter]
    congr 2
    funext f
    by_cases h : Decides f.1 = true
    · simp [h]
    · have hkind : keywordKind f.1 = .descriptive := by simpa [Decides] using h
      simp [h, keywordHolds, hkind]
  keywords fields fields' x _ _ h := by
    rw [verdicts, verdicts, declaredNames_congr h, keywordsHold_congr _ h]

instance (schema x : Json) : Decidable (shapes.accepts schema x) :=
  inferInstanceAs (Decidable ((verdicts schema x).all id = true))

/-- What all validators accept alike has one normal form. -/
theorem normalize_eq_of_accepts_iff {s s' : Json}
    (h : ∀ self : Validator, ∀ x, self.accepts s x ↔ self.accepts s' x) :
    normalForm s = normalForm s' :=
  ((h syntactic (normalForm s')).2 rfl)

end Validator

end JsonSchema

end NexusMcp
