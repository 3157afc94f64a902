-- SUMMARY: When resolving the references of a schema keeps what the schema means.
import NexusMcp.OpenApi.Parser
import NexusMcp.OpenApi.SchemaMeaning

/-!
# Schemas After Resolution

The parser walks a schema as it walks every node of the document: it follows `$ref` and
leaves `example` and `examples` out of every object. Read as a schema, a `$ref` is a
keyword, and these two are annotations, only where an object stands for a schema; among
the names of `properties`, or in the value of `const` or `enum`, they are names and
values like any other.
-/

namespace NexusMcp

namespace OpenApiParser

open JsonSchema

/-! ## Reading a schema -/

/-- The value of the keyword `name`, with the schemas in it read. -/
def readKeyword (read : Json → Except Exc Json) (name : String) (value : Json) :
    Except Exc Json :=
  match keywordKind name, value with
  | .subschemas, value => read value
  | .named, .obj names => do
    return .obj (← names.mapM fun field => do return (field.1, ← read field.2))
  | _, value => .ok value

/-- A schema with each `$ref` read as its target, overridden by the sibling keys. At most
    `fuel` schemas stand in each other. -/
def readSchema (document : JsonObject) : Nat → Json → Except Exc Json
  | 0, _ => .error (openApiFeatureUnsupported "OpenAPI reference depth exceeded")
  | fuel + 1, value =>
    match value with
    | .arr items => do
      return .arr (← items.mapM (readSchema document fuel))
    | .obj fields =>
      match JsonObject.get fields "$ref" with
      | some (.str reference) => do
        raiseIf (¬ "#/".toList <+: reference.toList)
          (openApiFeatureUnsupported "only local OpenAPI references are supported")
        let target ← resolvePointer document reference
        let read ← requireMapping (← readSchema document fuel target) ("reference " ++ reference)
        let siblings ← requireMapping
          (← readSchema document fuel (.obj (fields.filter (·.1 ≠ "$ref")))) "siblings"
        return .obj (read.merge siblings)
      | some _ => .error (openApiFeatureUnsupported "only local OpenAPI references are supported")
      | none => do
        raiseIf (fields.any (·.1 ∈ referenceKeywords))
          (openApiFeatureUnsupported "only local OpenAPI references are supported")
        return .obj (← fields.mapM fun field => do
          return (field.1, ← readKeyword (readSchema document fuel) field.1 field.2))
    | _ => return value

/-! ## What the parser touches -/

mutual

/-- No object in the value has a dropped key or a reference. -/
def Plain : Json → Prop
  | .arr items => PlainItems items
  | .obj fields => getOrNull fields "$ref" = .null ∧ PlainFields fields
  | _ => True

def PlainItems : List Json → Prop
  | [] => True
  | item :: items => Plain item ∧ PlainItems items

def PlainFields : List (String × Json) → Prop
  | [] => True
  | (name, value) :: fields => (name ∉ droppedKeys ∧ Plain value) ∧ PlainFields fields

end

theorem plainItems_iff {items : List Json} : PlainItems items ↔ ∀ v ∈ items, Plain v := by
  induction items with
  | nil => simp [PlainItems]
  | cons item items ih => simp [PlainItems, ih]

theorem plainFields_iff {fields : JsonObject} :
    PlainFields fields ↔ ∀ f ∈ fields, f.1 ∉ droppedKeys ∧ Plain f.2 := by
  induction fields with
  | nil => simp [PlainFields]
  | cons field fields ih => rw [PlainFields, ih, List.forall_mem_cons]

mutual

/-- Nothing that a validator minds stands where the parser touches it: no name that the
    author chose is a dropped key or a reference, and asserted values are plain. -/
def Unharmed : Json → Prop
  | .arr items => UnharmedItems items
  | .obj fields => UnharmedKeywords fields
  | _ => True

def UnharmedItems : List Json → Prop
  | [] => True
  | item :: items => Unharmed item ∧ UnharmedItems items

def UnharmedKeywords : List (String × Json) → Prop
  | [] => True
  | (name, value) :: fields =>
    (match keywordKind name with
      | .subschemas => Unharmed value
      | .named => UnharmedMap value
      | .assertion => Plain value
      | .descriptive => True) ∧ UnharmedKeywords fields

def UnharmedMap : Json → Prop
  | .obj names => getOrNull names "$ref" = .null ∧ UnharmedNames names
  | value => Plain value

def UnharmedNames : List (String × Json) → Prop
  | [] => True
  | (name, value) :: names => (name ∉ droppedKeys ∧ Unharmed value) ∧ UnharmedNames names

end

/-- The value of the keyword `name` is unharmed. -/
def UnharmedKeyword (name : String) (value : Json) : Prop :=
  match keywordKind name with
  | .subschemas => Unharmed value
  | .named => UnharmedMap value
  | .assertion => Plain value
  | .descriptive => True

theorem unharmedItems_iff {items : List Json} :
    UnharmedItems items ↔ ∀ v ∈ items, Unharmed v := by
  induction items with
  | nil => simp [UnharmedItems]
  | cons item items ih => simp [UnharmedItems, ih]

theorem unharmedKeywords_iff {fields : JsonObject} :
    UnharmedKeywords fields ↔ ∀ f ∈ fields, UnharmedKeyword f.1 f.2 := by
  induction fields with
  | nil => simp [UnharmedKeywords]
  | cons field fields ih =>
    rw [UnharmedKeywords, ih, List.forall_mem_cons]
    rfl

theorem unharmedNames_iff {names : JsonObject} :
    UnharmedNames names ↔ ∀ f ∈ names, f.1 ∉ droppedKeys ∧ Unharmed f.2 := by
  induction names with
  | nil => simp [UnharmedNames]
  | cons field names ih => rw [UnharmedNames, ih, List.forall_mem_cons]

/-! ## One step of the walks -/

section Steps

variable {document : JsonObject} {depth fuel : Nat} {stack : List String} {r e : Json}

/-- The results of a walk over the fields of an object, under the same keys. -/
theorem mapM_fields_eq_ok {f : String × Json → Except Exc Json} {fields results : JsonObject} :
    (fields.mapM fun field => do return (field.1, ← f field)) = .ok results ↔
      List.Forall₂ (fun field result => field.1 = result.1 ∧ f field = .ok result.2) fields
        results := by
  rw [mapM_eq_ok]
  refine Iff.of_eq (congrArg (List.Forall₂ · fields results) ?_)
  funext field result
  refine propext ?_
  rw [bind_eq_ok]
  constructor
  · rintro ⟨value, hvalue, h⟩
    cases h
    exact ⟨rfl, hvalue⟩
  · rintro ⟨hname, hvalue⟩
    exact ⟨result.2, hvalue, by rw [hname]; rfl⟩

theorem resolveNode_arr {items : List Json}
    (h : resolveNode document (depth + 1) stack (.arr items) = .ok r) :
    ∃ rs, r = .arr rs ∧
      List.Forall₂ (fun v r => resolveNode document depth stack v = .ok r) items rs := by
  rw [resolveNode, bind_eq_ok] at h
  obtain ⟨rs, hrs, h⟩ := h
  cases h
  exact ⟨rs, rfl, mapM_eq_ok.1 hrs⟩

theorem requireMapping_eq_ok {value : Json} {fieldName : String} {fields : JsonObject} :
    requireMapping value fieldName = .ok fields ↔ value = .obj fields := by
  unfold requireMapping
  cases value <;> simp

/-- The value of `$ref` names a place in the document. -/
def IsLocal (reference : String) : Prop := "#/".toList <+: reference.toList

/-- An object that is resolved was walked key by key, or its reference was followed. -/
theorem resolveNode_obj_eq_ok {fields : JsonObject} :
    resolveNode document (depth + 1) stack (.obj fields) = .ok r ↔
    (getOrNull fields "$ref" = .null ∧ ∃ rs, r = .obj rs ∧
      List.Forall₂ (fun f g => f.1 = g.1 ∧ resolveNode document depth stack f.2 = .ok g.2)
        (fields.filter (·.1 ∉ droppedKeys)) rs) ∨
    ∃ reference target resolved siblings, getOrNull fields "$ref" = .str reference ∧
      IsLocal reference ∧ reference ∉ stack ∧ resolvePointer document reference = .ok target ∧
      resolveNode document depth (stack ++ [reference]) target = .ok (.obj resolved) ∧
      resolveNode document depth stack (.obj (fields.filter (·.1 ≠ "$ref"))) =
        .ok (.obj siblings) ∧
      r = .obj (JsonObject.merge resolved siblings) := by
  rw [resolveNode]
  split
  · next href =>
    rw [bind_eq_ok]
    constructor
    · rintro ⟨rs, hrs, h⟩
      cases h
      exact .inl ⟨href, rs, rfl, mapM_fields_eq_ok.1 hrs⟩
    · rintro (⟨-, rs, rfl, hrs⟩ | ⟨reference, -, -, -, hstr, -⟩)
      · exact ⟨rs, mapM_fields_eq_ok.2 hrs, rfl⟩
      · rw [href] at hstr
        cases hstr
  · next reference href =>
    rw [raiseIf_bind_eq_ok, raiseIf_bind_eq_ok, not_not]
    simp only [bind_eq_ok, requireMapping_eq_ok]
    constructor
    · rintro ⟨hlocal, hfresh, target, htarget, _, hnode, resolved, rfl, rest, hrest, h⟩
      split at h
      · next siblings =>
        cases h
        exact .inr ⟨reference, target, resolved, siblings, href, hlocal, hfresh, htarget, hnode,
          hrest, rfl⟩
      · cases h
    · rintro (⟨hnull, -⟩ | ⟨reference', target, resolved, siblings, hstr, hlocal, hfresh, htarget,
        hnode, hrest, rfl⟩)
      · rw [href] at hnull
        cases hnull
      · obtain rfl : reference = reference' := Json.str.inj (href.symm.trans hstr)
        exact ⟨hlocal, hfresh, target, htarget, _, hnode, resolved, rfl, _, hrest, rfl⟩
  · next hnull hstr =>
    constructor
    · intro h
      cases h
    · rintro (⟨hnull', -⟩ | ⟨reference, -, -, -, hstr', -⟩)
      · exact absurd hnull' hnull
      · exact absurd hstr' (hstr reference)

/-- An object is walked key by key, or its reference is followed. -/
theorem resolveNode_obj {fields : JsonObject}
    (h : resolveNode document (depth + 1) stack (.obj fields) = .ok r) :
    (getOrNull fields "$ref" = .null ∧ ∃ rs, r = .obj rs ∧
      List.Forall₂ (fun f g => f.1 = g.1 ∧ resolveNode document depth stack f.2 = .ok g.2)
        (fields.filter (·.1 ∉ droppedKeys)) rs) ∨
    ∃ reference target stack' resolved siblings, getOrNull fields "$ref" = .str reference ∧
      resolvePointer document reference = .ok target ∧
      resolveNode document depth stack' target = .ok (.obj resolved) ∧
      resolveNode document depth stack (.obj (fields.filter (·.1 ≠ "$ref"))) =
        .ok (.obj siblings) ∧
      r = .obj (JsonObject.merge resolved siblings) := by
  obtain hwalked | ⟨reference, target, resolved, siblings, href, -, -, htarget, hnode, hrest, rfl⟩ :=
    resolveNode_obj_eq_ok.1 h
  · exact .inl hwalked
  · exact .inr ⟨reference, target, _, resolved, siblings, href, htarget, hnode, hrest, rfl⟩

/-- Any other value is left alone. -/
theorem resolveNode_leaf {v : Json} (harr : ∀ items, v ≠ .arr items)
    (hobj : ∀ fields, v ≠ .obj fields)
    (h : resolveNode document (depth + 1) stack v = .ok r) : r = v := by
  cases v with
  | arr items => exact absurd rfl (harr items)
  | obj fields => exact absurd rfl (hobj fields)
  | null | bool | int | float | str =>
    cases h
    rfl

theorem readSchema_arr {items : List Json}
    (h : readSchema document (fuel + 1) (.arr items) = .ok e) :
    ∃ es, e = .arr es ∧ List.Forall₂ (fun v e => readSchema document fuel v = .ok e) items es := by
  rw [readSchema, bind_eq_ok] at h
  obtain ⟨es, hes, h⟩ := h
  cases h
  exact ⟨es, rfl, mapM_eq_ok.1 hes⟩

/-- A schema is read keyword by keyword, or its reference is read. -/
theorem readSchema_obj {fields : JsonObject}
    (h : readSchema document (fuel + 1) (.obj fields) = .ok e) :
    ((∀ f ∈ fields, f.1 ∉ referenceKeywords) ∧ ∃ es, e = .obj es ∧
      List.Forall₂ (fun f g => f.1 = g.1 ∧
        readKeyword (readSchema document fuel) f.1 f.2 = .ok g.2) fields es) ∨
    ∃ reference target read siblings, getOrNull fields "$ref" = .str reference ∧
      resolvePointer document reference = .ok target ∧
      readSchema document fuel target = .ok (.obj read) ∧
      readSchema document fuel (.obj (fields.filter (·.1 ≠ "$ref"))) = .ok (.obj siblings) ∧
      e = .obj (JsonObject.merge read siblings) := by
  rw [readSchema] at h
  split at h
  · next reference href =>
    simp only [bind_eq_ok, requireMapping_eq_ok] at h
    obtain ⟨-, -, target, htarget, node, hnode, read, rfl, rest, hrest, siblings, rfl, h⟩ := h
    cases h
    refine .inr ⟨reference, target, read, siblings, ?_, htarget, hnode, hrest, rfl⟩
    rw [getOrNull, href]
    rfl
  · cases h
  · obtain ⟨_, hfree, h⟩ := bind_eq_ok.1 h
    obtain ⟨es, hes, h⟩ := bind_eq_ok.1 h
    cases h
    refine .inl ⟨?_, es, rfl, mapM_fields_eq_ok.1 hes⟩
    rw [raiseIf_eq_ok] at hfree
    simpa using hfree

theorem readSchema_leaf {v : Json} (harr : ∀ items, v ≠ .arr items)
    (hobj : ∀ fields, v ≠ .obj fields) (h : readSchema document (fuel + 1) v = .ok e) : e = v := by
  cases v with
  | arr items => exact absurd rfl (harr items)
  | obj fields => exact absurd rfl (hobj fields)
  | null | bool | int | float | str =>
    cases h
    rfl

end Steps

/-! ## Dictionaries -/

section Dictionaries

variable {fields overrides : JsonObject} {name name' : String} {value : Json}

theorem get_map_of_ne (h : name ≠ name') :
    JsonObject.get (fields.map fun f => if f.1 = name then (name, value) else f) name' =
      JsonObject.get fields name' := by
  induction fields with
  | nil => rfl
  | cons f fields ih =>
    unfold JsonObject.get at ih ⊢
    rw [List.map_cons, List.find?_cons, List.find?_cons]
    by_cases hf : f.1 = name
    · have hne : f.1 ≠ name' := fun heq => h (hf.symm.trans heq)
      rw [if_pos hf, decide_eq_false h, decide_eq_false hne]
      exact ih
    · rw [if_neg hf]
      by_cases hf' : f.1 = name'
      · rw [decide_eq_true hf']
      · rw [decide_eq_false hf']
        exact ih

theorem get_set_of_ne (h : name ≠ name') :
    JsonObject.get (fields.set name value) name' = JsonObject.get fields name' := by
  unfold JsonObject.set
  split
  · exact get_map_of_ne h
  · unfold JsonObject.get
    rw [List.find?_append]
    simp [h]

theorem get_merge_of_not_mem (h : ∀ f ∈ overrides, f.1 ≠ name) :
    JsonObject.get (fields.merge overrides) name = JsonObject.get fields name := by
  unfold JsonObject.merge
  induction overrides generalizing fields with
  | nil => rfl
  | cons f overrides ih =>
    rw [List.forall_mem_cons] at h
    rw [List.foldl_cons, ih h.2, get_set_of_ne h.1]

theorem mem_set {f : String × Json} (h : f ∈ fields.set name value) :
    f ∈ fields ∨ f = (name, value) := by
  unfold JsonObject.set at h
  split at h
  · obtain ⟨g, hg, rfl⟩ := List.mem_map.1 h
    split
    · exact .inr rfl
    · exact .inl hg
  · simpa using h

theorem mem_merge {f : String × Json} (h : f ∈ fields.merge overrides) :
    f ∈ fields ∨ f ∈ overrides := by
  unfold JsonObject.merge at h
  induction overrides generalizing fields with
  | nil => exact .inl h
  | cons g overrides ih =>
    rcases ih h with h | h
    · rcases mem_set h with h | rfl
      · exact .inl h
      · exact .inr List.mem_cons_self
    · exact .inr (List.mem_cons_of_mem g h)

theorem getOrNull_of_forall_ne (h : ∀ f ∈ fields, f.1 ≠ name) : getOrNull fields name = .null := by
  unfold getOrNull JsonObject.get
  rw [List.find?_eq_none.2 (by simpa using h)]
  rfl

/-- Dictionaries that agree key by key agree on a lookup. -/
theorem getOrNull_of_forall₂ {R : Json → Json → Prop} {results : JsonObject}
    (h : List.Forall₂ (fun f g => f.1 = g.1 ∧ R f.2 g.2) fields results) (name : String) :
    R (getOrNull fields name) (getOrNull results name) ∨
      getOrNull fields name = .null ∧ getOrNull results name = .null := by
  unfold getOrNull JsonObject.get
  induction h with
  | nil => exact .inr ⟨rfl, rfl⟩
  | @cons f g fields results hfg _ ih =>
    rw [List.find?_cons, List.find?_cons, ← hfg.1]
    by_cases hname : f.1 = name
    · simp only [hname, decide_true]
      exact .inl hfg.2
    · simp only [hname, decide_false]
      exact ih

end Dictionaries

/-! ## Plain values -/

section Plain

variable {document : JsonObject} {depth : Nat} {stack : List String} {v r : Json}

theorem getOrNull_filter_dropped (fields : JsonObject) :
    getOrNull (fields.filter (·.1 ∉ droppedKeys)) "$ref" = getOrNull fields "$ref" := by
  unfold getOrNull JsonObject.get
  rw [List.find?_filter]
  congr 3
  funext f
  by_cases h : f.1 = "$ref"
  · simp [h, droppedKeys]
  · simp [h]

theorem exists_of_forall₂_mem {α β : Type} {R : α → β → Prop} {l : List α} {l' : List β}
    (h : List.Forall₂ R l l') {b : β} (hb : b ∈ l') : ∃ a ∈ l, R a b := by
  induction h with
  | nil => cases hb
  | @cons a b' l l' hab _ ih =>
    rcases List.mem_cons.1 hb with rfl | hb
    · exact ⟨a, List.mem_cons_self, hab⟩
    · obtain ⟨a', ha', h⟩ := ih hb
      exact ⟨a', List.mem_cons_of_mem a ha', h⟩

theorem eq_of_forall₂ {α : Type} {R : α → α → Prop} {l l' : List α} (h : List.Forall₂ R l l')
    (heq : ∀ a ∈ l, ∀ b, R a b → b = a) : l' = l := by
  induction h with
  | nil => rfl
  | @cons a b l l' hab _ ih =>
    rw [List.forall_mem_cons] at heq
    rw [heq.1 b hab, ih heq.2]

/-- An object without a reference keeps to its keys. -/
theorem keys_of_resolveNode {fields results : JsonObject} (hfields : ∀ f ∈ fields, f.1 ≠ "$ref")
    (h : resolveNode document depth stack (.obj fields) = .ok (.obj results)) :
    ∀ g ∈ results, g.1 ≠ "$ref" := by
  cases depth with
  | zero => cases h
  | succ depth =>
  rcases resolveNode_obj h with ⟨-, rs, heq, hrs⟩ | ⟨reference, -, -, -, -, href, -⟩
  · cases heq
    intro g hg
    obtain ⟨f, hf, hname, -⟩ := exists_of_forall₂_mem hrs hg
    rw [← hname]
    exact hfields f (List.mem_of_mem_filter hf)
  · rw [getOrNull_of_forall_ne hfields] at href
    cases href

theorem resolveNode_null (h : resolveNode document depth stack .null = .ok r) : r = .null := by
  cases depth with
  | zero => cases h
  | succ depth => exact resolveNode_leaf (by simp) (by simp) h

/-- What the parser returns has no dropped key and no reference. -/
theorem plain_of_resolveNode (h : resolveNode document depth stack v = .ok r) : Plain r := by
  induction depth generalizing stack v r with
  | zero => cases h
  | succ depth ih =>
  cases v with
  | arr items =>
    obtain ⟨rs, rfl, hrs⟩ := resolveNode_arr h
    rw [Plain, plainItems_iff]
    intro v hv
    obtain ⟨item, -, hitem⟩ := exists_of_forall₂_mem hrs hv
    exact ih hitem
  | obj fields =>
    rcases resolveNode_obj h with ⟨href, rs, rfl, hrs⟩ |
      ⟨reference, target, stack', resolved, siblings, -, -, htarget, hsiblings, rfl⟩
    · rw [Plain, plainFields_iff]
      refine ⟨?_, fun g hg => ?_⟩
      -- The value under `$ref` is null or missing, and so is what it resolves to.
      · rcases getOrNull_of_forall₂ (R := fun v r => resolveNode document depth stack v = .ok r)
          hrs "$ref" with hnull | ⟨-, hnull⟩
        · rw [getOrNull_filter_dropped, href] at hnull
          exact resolveNode_null hnull
        · exact hnull
      · obtain ⟨f, hf, hname, hvalue⟩ := exists_of_forall₂_mem hrs hg
        exact ⟨by simpa [hname] using (List.mem_filter.1 hf).2, ih hvalue⟩
    -- Target and siblings are plain by induction, and each key of the merge is of one of them.
    · have hplain := ih htarget
      have hplain' := ih hsiblings
      rw [Plain, plainFields_iff] at hplain hplain' ⊢
      refine ⟨?_, fun f hf => ?_⟩
      · -- the siblings have no reference of their own
        rw [getOrNull, get_merge_of_not_mem (keys_of_resolveNode (by simp) hsiblings)]
        exact hplain.1
      · rcases mem_merge hf with h | h
        · exact hplain.2 f h
        · exact hplain'.2 f h
  | null | bool | int | float | str =>
    cases h
    trivial

/-- The parser returns a plain value as it is. -/
theorem resolveNode_of_plain (hv : Plain v) (h : resolveNode document depth stack v = .ok r) :
    r = v := by
  induction depth generalizing stack v r with
  | zero => cases h
  | succ depth ih =>
  cases v with
  | arr items =>
    obtain ⟨rs, rfl, hrs⟩ := resolveNode_arr h
    rw [Plain, plainItems_iff] at hv
    exact congrArg Json.arr (eq_of_forall₂ hrs fun item hitem r hr => ih (hv item hitem) hr)
  | obj fields =>
    rw [Plain, plainFields_iff] at hv
    obtain ⟨href, hfields⟩ := hv
    rcases resolveNode_obj h with ⟨-, rs, rfl, hrs⟩ | ⟨reference, -, -, -, -, hstr, -⟩
    -- No key is dropped, so the values stand side by side.
    · rw [List.filter_eq_self.2 fun f hf => by simpa using (hfields f hf).1] at hrs
      exact congrArg Json.obj (eq_of_forall₂ hrs fun f hf g hg =>
        Prod.ext hg.1.symm (ih (hfields f hf).2 hg.2))
    -- A plain object has no reference to follow.
    · rw [href] at hstr
      cases hstr
  | null | bool | int | float | str =>
    cases h
    rfl

end Plain

/-! ## Resolved and read side by side -/

/-- The keywords that the parser returned mean what those that were read mean, wherever
    these are unharmed, and nowhere else. -/
def FieldsKept (resolved read : JsonObject) : Prop :=
  List.Forall₂ (fun f g => f.1 = g.1 ∧
      (normalizeKeyword f.1 f.2 = normalizeKeyword g.1 g.2 ↔ UnharmedKeyword g.1 g.2))
    resolved (read.filter (·.1 ∉ droppedKeys))

/-- The schema that the parser returned means what the one that was read means, if that is
    unharmed, and not otherwise. -/
def Kept : Json → Json → Prop
  | .obj resolved, .obj read => FieldsKept resolved read
  | resolved, read => normalForm resolved = normalForm read ↔ Unharmed read

section Kept

variable {resolved resolved' read read' : JsonObject} {name : String} {value value' : Json}

theorem kind_of_dropped (h : name ∈ droppedKeys) : keywordKind name = .descriptive := by
  simp only [droppedKeys, List.mem_cons, List.not_mem_nil, or_false] at h
  rcases h with rfl | rfl <;> decide

theorem filter_decides_dropped (read : JsonObject) :
    (read.filter (·.1 ∉ droppedKeys)).filter (Decides ·.1) = read.filter (Decides ·.1) := by
  rw [List.filter_filter]
  refine List.filter_congr fun f _ => ?_
  by_cases h : f.1 ∈ droppedKeys
  · simp [h, Decides, kind_of_dropped h]
  · simp [h]

theorem FieldsKept.iff (h : FieldsKept resolved read) :
    normalForm (.obj resolved) = normalForm (.obj read) ↔ Unharmed (.obj read) := by
  have hread : (∀ f ∈ read, UnharmedKeyword f.1 f.2) ↔
      ∀ f ∈ read.filter (·.1 ∉ droppedKeys), UnharmedKeyword f.1 f.2 := by
    refine ⟨fun h f hf => h f (List.mem_of_mem_filter hf), fun h f hf => ?_⟩
    by_cases hdropped : f.1 ∈ droppedKeys
    · rw [UnharmedKeyword, kind_of_dropped hdropped]
      trivial
    · exact h f (List.mem_filter.2 ⟨hf, by simpa using hdropped⟩)
  rw [normalForm, normalForm, Unharmed, unharmedKeywords_iff, hread, Json.obj.injEq,
    normalizeKeywords_eq, normalizeKeywords_eq, ← filter_decides_dropped read]
  unfold FieldsKept at h
  -- The dropped keywords decide nothing, so both sides are about the kept ones, keyword by keyword.
  generalize read.filter (·.1 ∉ droppedKeys) = kept at h ⊢
  induction h with
  | nil => simp
  | @cons f g fs gs hfg _ ih =>
    obtain ⟨hname, hiff⟩ := hfg
    rw [List.forall_mem_cons, List.filter_cons, List.filter_cons, hname]
    refine Iff.trans ?_ (and_congr hiff ih)
    -- A descriptive keyword is left out of both normal forms.
    by_cases hdecides : Decides g.1 = true
    · simp [hdecides, hname]
    · have hkind : keywordKind g.1 = .descriptive := by simpa [Decides] using hdecides
      simp [hdecides, hname, normalizeKeyword, hkind]

theorem Kept.iff {r e : Json} (h : Kept r e) : normalForm r = normalForm e ↔ Unharmed e := by
  unfold Kept at h
  split at h
  · exact FieldsKept.iff h
  · exact h

/-! ### Overriding -/

theorem filter_map_set : (read.map fun f => if f.1 = name then (name, value) else f).filter
      (·.1 ∉ droppedKeys) =
    (read.filter (·.1 ∉ droppedKeys)).map fun f => if f.1 = name then (name, value) else f := by
  rw [List.filter_map]
  refine congrArg _ (List.filter_congr fun f _ => ?_)
  simp only [Function.comp_apply]
  split
  · next h => rw [h]
  · rfl

theorem filter_set_of_dropped (h : name ∈ droppedKeys) :
    (read.set name value).filter (·.1 ∉ droppedKeys) = read.filter (·.1 ∉ droppedKeys) := by
  unfold JsonObject.set
  split
  · rw [filter_map_set]
    refine (List.map_congr_left fun f hf => if_neg fun hname => ?_).trans (List.map_id _)
    simp [hname, h] at hf
  · rw [List.filter_append]
    simp [h]

theorem filter_set (h : name ∉ droppedKeys) :
    (read.set name value).filter (·.1 ∉ droppedKeys) =
      JsonObject.set (read.filter (·.1 ∉ droppedKeys)) name value := by
  have hany : (read.filter (·.1 ∉ droppedKeys)).any (·.1 = name) = read.any (·.1 = name) := by
    rw [List.any_filter]
    refine congrArg (List.any read) (funext fun f => ?_)
    by_cases hname : f.1 = name <;> simp [hname, h]
  unfold JsonObject.set
  rw [hany]
  split
  · exact filter_map_set
  · rw [List.filter_append]
    simp [h]

theorem forall₂_set {R : String × Json → String × Json → Prop}
    (hkeys : ∀ f g, R f g → f.1 = g.1) (h : List.Forall₂ R resolved read)
    (hvalue : R (name, value) (name, value')) :
    List.Forall₂ R (resolved.set name value) (read.set name value') := by
  -- The key stands on both sides or on neither, so it is replaced in both or appended to both.
  have hany : resolved.any (·.1 = name) = read.any (·.1 = name) := by
    induction h with
    | nil => rfl
    | cons hfg _ ih => simp only [List.any_cons, ih, hkeys _ _ hfg]
  unfold JsonObject.set
  rw [hany]
  split
  · refine List.forall₂_map_left_iff.2 (List.forall₂_map_right_iff.2 (h.imp fun f g hfg => ?_))
    rw [hkeys f g hfg]
    split
    · exact hvalue
    · exact hfg
  · exact List.rel_append h (.cons hvalue .nil)

theorem FieldsKept.merge (h : FieldsKept resolved read) (h' : FieldsKept resolved' read') :
    FieldsKept (resolved.merge resolved') (read.merge read') := by
  unfold JsonObject.merge
  -- By the overrides that were read. A dropped one has no counterpart in what the parser returned.
  induction read' generalizing resolved read resolved' with
  | nil =>
    cases h'
    exact h
  | cons g read' ih =>
    unfold FieldsKept at h'
    rw [List.filter_cons] at h'
    by_cases hdropped : g.1 ∈ droppedKeys
    · rw [if_neg (by simpa using hdropped)] at h'
      -- Overriding a dropped key changes nothing that is compared.
      have hset : FieldsKept resolved (read.set g.1 g.2) := by
        rw [FieldsKept, filter_set_of_dropped hdropped]
        exact h
      exact ih hset h'
    · rw [if_pos (by simpa using hdropped)] at h'
      cases h' with
      | @cons f _ fs _ hfg h' =>
        rw [List.foldl_cons, List.foldl_cons]
        refine ih ?_ h'
        rw [FieldsKept, filter_set hdropped, hfg.1]
        exact forall₂_set (fun _ _ h => h.1) h ⟨rfl, hfg.1 ▸ hfg.2⟩

end Kept

/-! ## Readings -/

section Readings

variable {document : JsonObject} {fuel : Nat} {v e : Json}

/-- Nothing that was read has a reference. -/
theorem referenceFree_of_read (h : readSchema document fuel v = .ok e) : ReferenceFree e := by
  induction fuel generalizing v e with
  | zero => cases h
  | succ fuel ih =>
  cases v with
  | arr items =>
    obtain ⟨es, rfl, hes⟩ := readSchema_arr h
    rw [ReferenceFree, itemsReferenceFree_iff]
    intro v hv
    obtain ⟨item, -, hitem⟩ := exists_of_forall₂_mem hes hv
    exact ih hitem
  | obj fields =>
    rcases readSchema_obj h with ⟨hfree, es, rfl, hes⟩ |
      ⟨reference, target, read, siblings, -, -, htarget, hsiblings, rfl⟩
    · rw [ReferenceFree, keywordsReferenceFree_iff]
      intro g hg
      obtain ⟨f, hf, hname, hvalue⟩ := exists_of_forall₂_mem hes hg
      refine ⟨hname ▸ hfree f hf, ?_⟩
      rw [hname] at hvalue
      unfold readKeyword at hvalue
      -- Below a keyword that holds no schemas a `$ref` is data and no reference.
      cases hkind : keywordKind g.1 with
      | subschemas =>
        rw [hkind] at hvalue
        exact ih hvalue
      | named =>
        simp only [hkind] at hvalue
        split at hvalue
        · next heq => cases heq
        · next names _ _ =>
          obtain ⟨names', hnames, h⟩ := bind_eq_ok.1 hvalue
          have hg2 : g.2 = .obj names' := (Except.ok.inj h).symm
          simp only [hg2, MapReferenceFree, namesReferenceFree_iff]
          intro n hn
          obtain ⟨f, -, -, hf⟩ := exists_of_forall₂_mem (mapM_fields_eq_ok.1 hnames) hn
          exact ih hf
        · next hobj =>
          rw [← Except.ok.inj hvalue]
          cases hf : f.2 with
          | obj names => exact absurd hf (hobj names rfl)
          | null | bool | int | float | str | arr => trivial
      | assertion => trivial
      | descriptive => trivial
    · have hfree := ih htarget
      have hfree' := ih hsiblings
      rw [ReferenceFree, keywordsReferenceFree_iff] at hfree hfree' ⊢
      intro f hf
      rcases mem_merge hf with h | h
      · exact hfree f h
      · exact hfree' f h
  | null | bool | int | float | str =>
    cases h
    trivial

/-- What is read of an object is one. -/
theorem obj_of_read {fields : JsonObject} (h : readSchema document fuel (.obj fields) = .ok e) :
    ∃ read, e = .obj read := by
  cases fuel with
  | zero => cases h
  | succ fuel =>
    rcases readSchema_obj h with ⟨-, es, rfl, -⟩ | ⟨-, -, read, siblings, -, -, -, -, rfl⟩
    · exact ⟨es, rfl⟩
    · exact ⟨_, rfl⟩

end Readings

/-! ## The parser against the reading -/

section Parsing

variable {document : JsonObject} {depth fuel : Nat} {stack : List String} {v r e : Json}

theorem eq_iff_plain (h : resolveNode document depth stack v = .ok r) : r = v ↔ Plain v :=
  ⟨fun heq => heq ▸ plain_of_resolveNode h, fun hv => resolveNode_of_plain hv h⟩

theorem getOrNull_normalizeNames (names : JsonObject) (name : String) :
    getOrNull (normalizeNames names) name = normalForm (getOrNull names name) := by
  unfold getOrNull JsonObject.get
  rw [normalizeNames_eq, List.find?_map]
  cases h : names.find? (fun f => decide (f.1 = name)) with
  | none => simp [Function.comp_def, h, normalForm]
  | some f => simp [Function.comp_def, h]

/-- Whatever is read of a value that is no array or object is the value. -/
theorem readSchema_getOrNull {names read : JsonObject}
    (h : List.Forall₂ (fun f g => f.1 = g.1 ∧ readSchema document fuel f.2 = .ok g.2) names read)
    (harr : ∀ items, getOrNull names "$ref" ≠ .arr items)
    (hobj : ∀ fields, getOrNull names "$ref" ≠ .obj fields) :
    getOrNull read "$ref" = getOrNull names "$ref" := by
  rcases getOrNull_of_forall₂ (R := fun v r => readSchema document fuel v = .ok r) h "$ref" with
    hread | ⟨hnull, hnull'⟩
  · cases fuel with
    | zero => cases hread
    | succ fuel => exact readSchema_leaf harr hobj hread
  · rw [hnull, hnull']

section Names

variable (ih : ∀ d < depth, ∀ stack v r fuel e, resolveNode document d stack v = .ok r →
  readSchema document fuel v = .ok e → Kept r e)

include ih

/-- The schemas under chosen names are kept one by one. -/
theorem names_kept {d : Nat} (hd : d < depth) {names resolved read : JsonObject}
    (hresolved : List.Forall₂ (fun f g => f.1 = g.1 ∧ resolveNode document d stack f.2 = .ok g.2)
      names resolved)
    (hread : List.Forall₂ (fun f g => f.1 = g.1 ∧ readSchema document fuel f.2 = .ok g.2)
      names read) :
    normalizeNames resolved = normalizeNames read ↔ ∀ f ∈ read, Unharmed f.2 := by
  induction hresolved generalizing read with
  | nil =>
    cases hread
    simp
  | @cons f g names resolved hfg _ ihNames =>
    cases hread with
    | @cons _ g' _ read hfg' hread =>
      have hkept := (ih d hd stack f.2 g.2 fuel g'.2 hfg.2 hfg'.2).iff
      rw [List.forall_mem_cons, ← hkept, ← ihNames hread, normalizeNames_eq, normalizeNames_eq,
        List.map_cons, List.map_cons, List.cons.injEq, Prod.mk.injEq, ← hfg.1, ← hfg'.1,
        ← normalizeNames_eq, ← normalizeNames_eq]
      simp

theorem items_kept {d : Nat} (hd : d < depth) {items resolved read : List Json}
    (hresolved : List.Forall₂ (fun v r => resolveNode document d stack v = .ok r) items resolved)
    (hread : List.Forall₂ (fun v e => readSchema document fuel v = .ok e) items read) :
    resolved.map normalForm = read.map normalForm ↔ ∀ v ∈ read, Unharmed v := by
  induction hresolved generalizing read with
  | nil =>
    cases hread
    simp
  | @cons item r items resolved hr _ ihItems =>
    cases hread with
    | @cons _ e _ read he hread =>
      have hkept := (ih d hd stack item r fuel e hr he).iff
      rw [List.forall_mem_cons, ← hkept, ← ihItems hread, List.map_cons, List.map_cons,
        List.cons.injEq]

theorem map_kept {names read : JsonObject}
    (hresolved : resolveNode document depth stack (.obj names) = .ok r)
    (hread : List.Forall₂ (fun f g => f.1 = g.1 ∧ readSchema document fuel f.2 = .ok g.2)
      names read) :
    normalizeMap r = normalizeMap (.obj read) ↔ UnharmedMap (.obj read) := by
  cases depth with
  | zero => cases hresolved
  | succ depth =>
  rw [UnharmedMap, unharmedNames_iff]
  rcases resolveNode_obj hresolved with ⟨href, resolved, rfl, hresults⟩ |
    ⟨reference, target, stack', resolved, siblings, href, -, -, -, rfl⟩
  · have hnull : getOrNull read "$ref" = .null := by
      rw [readSchema_getOrNull hread (by simp [href]) (by simp [href]), href]
    -- All names are kept, or one is dropped like a keyword.
    by_cases hall : ∀ f ∈ names, f.1 ∉ droppedKeys
    · rw [List.filter_eq_self.2 fun f hf => by simpa using hall f hf] at hresults
      have hnames : ∀ g ∈ read, g.1 ∉ droppedKeys := fun g hg => by
        obtain ⟨f, hf, hname, -⟩ := exists_of_forall₂_mem hread hg
        exact hname ▸ hall f hf
      rw [normalizeMap, normalizeMap, Json.obj.injEq,
        names_kept ih (Nat.lt_succ_self depth) hresults hread]
      exact ⟨fun h => ⟨hnull, fun f hf => ⟨hnames f hf, h f hf⟩⟩, fun h f hf => (h.2 f hf).2⟩
    · -- a chosen name is dropped, so there are fewer names
      obtain ⟨f, hf, hdropped⟩ : ∃ f ∈ names, f.1 ∈ droppedKeys := by simpa using hall
      obtain ⟨g, hg, hname, -⟩ := exists_of_forall₂_mem hread.flip hf
      refine iff_of_false (fun heq => ?_) fun h => (h.2 g hg).1 (hname ▸ hdropped)
      rw [normalizeMap, normalizeMap, Json.obj.injEq, normalizeNames_eq, normalizeNames_eq] at heq
      have hlength := congrArg List.length heq
      rw [List.length_map, List.length_map, ← hresults.length_eq, ← hread.length_eq] at hlength
      have hkept := List.length_filter_eq_length_iff.1 hlength f hf
      simp [hdropped] at hkept
  · -- the names are taken for a reference
    have hstr : getOrNull read "$ref" = .str reference := by
      rw [readSchema_getOrNull hread (by simp [href]) (by simp [href]), href]
    refine iff_of_false (fun heq => ?_) fun h => by simp [hstr] at h
    -- The result has no `$ref`, while the name `$ref` is among those that were read.
    have hplain := plain_of_resolveNode hresolved
    rw [Plain] at hplain
    rw [normalizeMap, normalizeMap, Json.obj.injEq] at heq
    have hlookup := congrArg (getOrNull · "$ref") heq
    simp only [getOrNull_normalizeNames, hplain.1, hstr, normalForm] at hlookup
    cases hlookup

theorem keyword_kept {name : String} {value resolved read : Json}
    (hself : ∀ {r e}, resolveNode document depth stack value = .ok r →
      readSchema document fuel value = .ok e → Kept r e)
    (hresolved : resolveNode document depth stack value = .ok resolved)
    (hread : readKeyword (readSchema document fuel) name value = .ok read) :
    normalizeKeyword name resolved = normalizeKeyword name read ↔ UnharmedKeyword name read := by
  unfold readKeyword at hread
  unfold normalizeKeyword UnharmedKeyword
  -- The parser resolves every value alike. What is read depends on the kind of the keyword.
  cases hkind : keywordKind name with
  | subschemas =>
    rw [hkind] at hread
    exact (hself hresolved hread).iff
  | named =>
    rw [hkind] at hread
    cases value with
    | obj names =>
      obtain ⟨names', hnames, h⟩ := bind_eq_ok.1 hread
      cases h
      exact map_kept ih hresolved (mapM_fields_eq_ok.1 hnames)
    | arr items =>
      cases hread
      cases depth with
      | zero => cases hresolved
      | succ depth =>
        obtain ⟨rs, rfl, -⟩ := resolveNode_arr hresolved
        simp only [normalizeMap, UnharmedMap]
        exact eq_iff_plain hresolved
    | null | bool | int | float | str =>
      cases hread
      cases depth with
      | zero => cases hresolved
      | succ depth =>
        rw [resolveNode_leaf (by simp) (by simp) hresolved]
        simp only [UnharmedMap, Plain]
  | assertion =>
    rw [hkind] at hread
    cases hread
    exact eq_iff_plain hresolved
  | descriptive => exact iff_of_true rfl trivial

end Names

/-- Results for the keys that are not dropped stand beside those for all keys. -/
theorem fields_kept {R S T : String × Json → String × Json → Prop}
    {fields resolved read : JsonObject}
    (hresolved : List.Forall₂ R (fields.filter (·.1 ∉ droppedKeys)) resolved)
    (hread : List.Forall₂ S fields read) (hkeys : ∀ f g, S f g → f.1 = g.1)
    (h : ∀ f g g', R f g → S f g' → T g g') :
    List.Forall₂ T resolved (read.filter (·.1 ∉ droppedKeys)) := by
  induction hread generalizing resolved with
  | nil =>
    cases hresolved
    exact .nil
  | @cons f g fields read hfg _ ih =>
    rw [List.filter_cons] at hresolved ⊢
    rw [← hkeys f g hfg]
    by_cases hdropped : f.1 ∈ droppedKeys
    · rw [if_neg (by simpa using hdropped)] at hresolved ⊢
      exact ih hresolved
    · rw [if_pos (by simpa using hdropped)] at hresolved ⊢
      cases hresolved with
      | cons hr hresolved => exact .cons (h _ _ _ hr hfg) (ih hresolved)

theorem obj_of_resolve {fields : JsonObject}
    (h : resolveNode document depth stack (.obj fields) = .ok r) : ∃ resolved, r = .obj resolved := by
  cases depth with
  | zero => cases h
  | succ depth =>
    rcases resolveNode_obj h with ⟨-, rs, rfl, -⟩ | ⟨-, -, -, resolved, siblings, -, -, -, -, rfl⟩
    · exact ⟨rs, rfl⟩
    · exact ⟨_, rfl⟩

/-- Whatever the parser returns for a schema stands beside what is read of it. -/
theorem kept_of_resolve (hresolved : resolveNode document depth stack v = .ok r)
    (hread : readSchema document fuel v = .ok e) : Kept r e := by
  -- By the depth of the parser. The schemas in a map of names stand two levels below, so the
  -- induction is a strong one.
  induction depth using Nat.strongRecOn generalizing stack v r fuel e with
  | ind depth ih =>
  cases depth with
  | zero => cases hresolved
  | succ depth =>
  cases fuel with
  | zero => cases hread
  | succ fuel =>
  cases v with
  | arr items =>
    obtain ⟨rs, rfl, hrs⟩ := resolveNode_arr hresolved
    obtain ⟨es, rfl, hes⟩ := readSchema_arr hread
    simp only [Kept, normalForm, Unharmed, Json.arr.injEq, normalizeItems_eq, unharmedItems_iff]
    exact items_kept (fun d hd stack v r fuel e => ih d hd) (Nat.lt_succ_self depth) hrs hes
  | obj fields =>
    rcases resolveNode_obj hresolved with ⟨href, rs, rfl, hrs⟩ |
      ⟨reference, target, stack', resolved, siblings, href, htarget, hnode, hrest, rfl⟩
    · rcases readSchema_obj hread with ⟨-, es, rfl, hes⟩ | ⟨reference, -, -, -, hstr, -⟩
      · refine fields_kept hrs hes (fun f g h => h.1) fun f g g' hfg hfg' => ?_
        obtain ⟨hname, hvalue⟩ := hfg
        obtain ⟨hname', hvalue'⟩ := hfg'
        -- No reference on either side: both go through the same keywords.
        refine ⟨hname.symm.trans hname', ?_⟩
        rw [← hname, ← hname']
        exact keyword_kept (fun d hd stack v r fuel e => ih d (hd.trans (Nat.lt_succ_self depth)))
          (ih depth (Nat.lt_succ_self depth)) hvalue hvalue'
      · rw [href] at hstr
        cases hstr
    · rcases readSchema_obj hread with ⟨hnone, -⟩ |
        ⟨reference', target', read, siblings', hstr, htarget', hnode', hrest', rfl⟩
      · rw [getOrNull_of_forall_ne fun f hf hname => hnone f hf (by rw [hname]; decide)] at href
        cases href
      -- Both follow the same reference to the same target, and merge the siblings over it.
      · obtain rfl : reference = reference' := Json.str.inj (href.symm.trans hstr)
        obtain rfl : target = target' := Except.ok.inj (htarget.symm.trans htarget')
        have hkept : FieldsKept resolved read :=
          ih depth (Nat.lt_succ_self depth) hnode hnode'
        have hsiblings : FieldsKept siblings siblings' :=
          ih depth (Nat.lt_succ_self depth) hrest hrest'
        exact hkept.merge hsiblings
  | null | bool | int | float | str =>
    cases hresolved
    cases hread
    simp [Kept, normalForm, Unharmed]

/-- The schema that resolution returns means what the one with its references read means,
    and declares the same names, exactly if no name or asserted value of the latter
    stands where the parser drops a key or follows a reference. -/
theorem schema_meaning_kept_iff (document schema : JsonObject) (fuel : Nat) {resolved read : Json}
    (hresolved : resolve document (.obj schema) = .ok resolved)
    (hread : readSchema document fuel (.obj schema) = .ok read) :
    ((∀ (validator : Validator) (x : Json),
        validator.accepts resolved x ↔ validator.accepts read x) ∧
      declarations resolved = declarations read) ↔ Unharmed read := by
  rw [← (kept_of_resolve hresolved hread).iff]
  constructor
  · rintro ⟨h, -⟩
    exact Validator.normalize_eq_of_accepts_iff h
  -- Of equal normal forms, every validator says the same, and the declared names are the same.
  · intro h
    refine ⟨fun validator x => ?_, by rw [← declarations_normalize, h, declarations_normalize]⟩
    have hfree := referenceFree_of_read hread
    obtain ⟨fields, rfl⟩ := obj_of_resolve hresolved
    obtain ⟨fields', rfl⟩ := obj_of_read hread
    exact validator.accepts_iff_of_normalize_eq hfree h x

/-- A document with one schema among its components. -/
def petDocument : JsonObject :=
  [("components", .obj [("schemas", .obj [("Pet", .obj
    [("type", .str "object"), ("example", .obj [("name", .str "Rex")]),
      ("properties", .obj [("name", .obj [("type", .str "string")])])])])])]

def namedPet : JsonObject :=
  [("$ref", .str "#/components/schemas/Pet"), ("required", .arr [.str "name"])]

/-- A reference to a schema whose only example is an annotation is kept. -/
theorem schema_meaning_kept_pet :
    ∃ resolved read, resolve petDocument (.obj namedPet) = .ok resolved ∧
      readSchema petDocument 5 (.obj namedPet) = .ok read ∧
      (∀ (validator : Validator) (x : Json),
        validator.accepts resolved x ↔ validator.accepts read x) ∧
      declarations resolved = declarations read := by
  refine ⟨_, _, rfl, rfl, (schema_meaning_kept_iff petDocument namedPet 5 rfl rfl).2 ?_⟩
  change Unharmed (.obj [("type", .str "object"), ("example", .obj [("name", .str "Rex")]),
    ("properties", .obj [("name", .obj [("type", .str "string")])]),
    ("required", .arr [.str "name"])])
  simp [Unharmed, UnharmedKeywords, UnharmedMap, UnharmedNames, Plain, PlainItems, keywordKind,
    subschemaKeywords, namedKeywords, assertionKeywords, referenceKeywords, droppedKeys, getOrNull,
    JsonObject.get]

/-- A closed schema that declares and requires a property named `example`. -/
def exampleRecord : JsonObject :=
  [("type", .str "object"), ("properties", .obj [("example", .obj [("type", .str "string")])]),
    ("required", .arr [.str "example"]), ("additionalProperties", .bool false)]

def exampleRecordReturned : JsonObject :=
  [("type", .str "object"), ("properties", .obj []), ("required", .arr [.str "example"]),
    ("additionalProperties", .bool false)]

/-- What is returned for the schema still requires the property, but no longer declares it,
    and accepts no object that has it. -/
theorem declared_example_lost :
    resolve [] (.obj exampleRecord) = .ok (.obj exampleRecordReturned) ∧
      readSchema [] 3 (.obj exampleRecord) = .ok (.obj exampleRecord) ∧
      ["properties", "example"] ∈ declarations (.obj exampleRecord) ∧
      ["properties", "example"] ∉ declarations (.obj exampleRecordReturned) ∧
      Validator.shapes.accepts (.obj exampleRecord) (.obj [("example", .str "a")]) ∧
      ¬ Validator.shapes.accepts (.obj exampleRecordReturned) (.obj [("example", .str "a")]) := by
  refine ⟨rfl, rfl, ?_⟩
  decide +kernel

end Parsing

end OpenApiParser

end NexusMcp
