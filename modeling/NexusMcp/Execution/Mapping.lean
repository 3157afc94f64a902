-- SUMMARY: What the mapping of the arguments does, one parameter after the other.
import NexusMcp.Execution.PathStructure

/-! # The Mapping of the Arguments -/

namespace NexusMcp

open Net (Text quote replaceAll)

/-! ## Dictionaries -/

namespace TextDict

variable {d : TextDict} {name value : String}

/-- No name is twice in the dictionary. -/
def Unique (d : TextDict) : Prop := (d.map (·.1)).Nodup

theorem set_of_not_mem (h : ∀ e ∈ d, e.1 ≠ name) : d.set name value = d ++ [(name, value)] := by
  have hany : d.any (·.1 = name) = false := by simpa using h
  rw [set, hany]
  rfl

theorem map_fst_set_of_mem (h : ∃ e ∈ d, e.1 = name) :
    (d.set name value).map (·.1) = d.map (·.1) := by
  have hany : d.any (·.1 = name) = true := by simpa using h
  rw [set, hany, if_pos rfl, List.map_map]
  refine List.map_congr_left fun e _ => ?_
  simp only [Function.comp_apply]
  split
  · next heq => exact heq.symm
  · rfl

theorem Unique.set (h : Unique d) : Unique (d.set name value) := by
  unfold Unique
  by_cases hmem : ∃ e ∈ d, e.1 = name
  · rw [map_fst_set_of_mem hmem]
    exact h
  · have hnone : ∀ e ∈ d, e.1 ≠ name := fun e he heq => hmem ⟨e, he, heq⟩
    rw [set_of_not_mem hnone, List.map_append, List.nodup_append]
    refine ⟨h, by simp, ?_⟩
    simpa using hnone

theorem mem_set_self : (name, value) ∈ d.set name value := by
  unfold set
  split
  · next hany =>
    obtain ⟨e, he, hname⟩ := List.any_eq_true.1 hany
    exact List.mem_map.2 ⟨e, he, if_pos (of_decide_eq_true hname)⟩
  · simp

/-- The value that a name was set to can be told. -/
theorem set_inj {value' : String} (h : d.set name value = d.set name value') : value = value' := by
  have hmem : (name, value) ∈ d.set name value' := h ▸ mem_set_self
  unfold set at hmem
  split at hmem
  · obtain ⟨e, -, he⟩ := List.mem_map.1 hmem
    split at he
    · exact (Prod.ext_iff.1 he).2.symm
    · next hne =>
      rw [he] at hne
      exact absurd rfl hne
  · next hnone =>
    obtain he | he := List.mem_append.1 hmem
    · exact absurd (List.any_eq_true.2 ⟨_, he, decide_eq_true rfl⟩) hnone
    · exact (Prod.ext_iff.1 (List.mem_singleton.1 he)).2

/-- Other names keep their entries, in their order. -/
theorem filter_set {p : String → Bool} (h : p name = false) :
    (d.set name value).filter (p ·.1) = d.filter (p ·.1) := by
  unfold set
  split
  · clear * - h
    induction d with
    | nil => rfl
    | cons e d ih =>
      rw [List.map_cons, List.filter_cons, List.filter_cons, ih]
      split
      · next heq => simp [heq, h]
      · rfl
  · simp [h]

/-- Where names are unique, an entry is the only one of its name. -/
theorem Unique.filter_eq {e : String × String} (h : Unique d) (he : e ∈ d) :
    d.filter (·.1 = e.1) = [e] := by
  induction d with
  | nil => exact absurd he List.not_mem_nil
  | cons x d ih =>
    obtain ⟨hx, hd⟩ := List.nodup_cons.1 h
    obtain rfl | he := List.mem_cons.1 he
    · have hnone : d.filter (·.1 = e.1) = [] := by
        refine List.filter_eq_nil_iff.2 fun y hy => ?_
        simp only [decide_eq_true_eq]
        intro heq
        exact hx (List.mem_map.2 ⟨y, hy, heq⟩)
      rw [List.filter_cons_of_pos (by simp), hnone]
    · have hne : ¬ x.1 = e.1 := fun heq => hx (List.mem_map.2 ⟨e, he, heq.symm⟩)
      rw [List.filter_cons_of_neg (by simpa using hne), ih hd he]

/-- The name has the value it was set to, and no other. -/
theorem Unique.filter_set_self (h : Unique d) :
    (d.set name value).filter (·.1 = name) = [(name, value)] :=
  h.set.filter_eq mem_set_self

end TextDict

/-! ## Placements -/

/-- Where the text of an argument goes. -/
structure Placement where
  upstreamName : String
  location : String
  value : String
deriving Repr, DecidableEq

/-- The placement of a parameter, or none where an optional argument is not given. -/
def placement [PyStr] (arguments : JsonObject) : Json → Except Exc (Option Placement)
  | .obj parameter =>
    match arguments.get (textField parameter "argument_name") with
    | none =>
      -- A required argument is given, since the arguments were validated.
      if isTrue parameter "required" then
        executorFailure "required_argument_missing_after_validation" .validation
      else .ok none
    | some value => .ok (some {
        upstreamName := textField parameter "upstream_name"
        location := textField parameter "location"
        value := pyStr value })
  | _ => executorFailure "invalid_parameter_mapping" .validation

/-- The argument is put where it goes. -/
def Placement.put (p : Placement) (mapped : MappedArguments) : Except Exc MappedArguments :=
  mapValue p.upstreamName p.location p.value mapped

/-- A parameter puts the argument that it places, if it places one. -/
def putPlaced (placed : Option Placement) (mapped : MappedArguments) :
    Except Exc MappedArguments :=
  placed.elim (.ok mapped) (·.put mapped)

theorem mapParameter_eq [PyStr] (arguments : JsonObject) (mapped : MappedArguments) (raw : Json) :
    mapParameter arguments mapped raw =
      (placement arguments raw >>= fun placed => putPlaced placed mapped) := by
  cases raw with
  | obj parameter =>
    unfold mapParameter placement
    dsimp only
    cases arguments.get (textField parameter "argument_name") with
    | none =>
      dsimp only
      split <;> rfl
    | some value => rfl
  | _ => rfl

/-- What a placement does, by its location. -/
theorem Placement.put_eq_ok {p : Placement} {mapped mapped' : MappedArguments} :
    p.put mapped = .ok mapped' ↔
      (p.location = "path" ∧ placeholder p.upstreamName <:+: mapped.path ∧
        mapped' = { mapped with
          path := replaceAll (placeholder p.upstreamName) (quote p.value.toList) mapped.path }) ∨
      (p.location = "query" ∧
        mapped' = { mapped with query := mapped.query.set p.upstreamName p.value }) ∨
      (p.location = "header" ∧
        mapped' = { mapped with headers := mapped.headers.set p.upstreamName p.value }) := by
  constructor
  · intro h
    unfold put mapValue at h
    -- A path parameter without its placeholder is refused, and so is any other location.
    split_ifs at h with hpath hoccurs hquery hheader
    · cases h
      exact .inl ⟨hpath, hoccurs, rfl⟩
    · cases h
    · cases h
      exact .inr (.inl ⟨hquery, rfl⟩)
    · cases h
      exact .inr (.inr ⟨hheader, rfl⟩)
    · cases h
  · rintro (⟨hpath, hoccurs, rfl⟩ | ⟨hquery, rfl⟩ | ⟨hheader, rfl⟩)
    · simp [put, mapValue, hpath, hoccurs]
    · simp [put, mapValue, hquery]
    · simp [put, mapValue, hheader]

/-- The substitution of a placement in the path. -/
def Placement.substitution (p : Placement) : Option Substitution :=
  if p.location = "path" then
    some { placeholder := placeholder p.upstreamName, value := quote p.value.toList }
  else none

/-! ## All parameters -/

section Parameters

variable [PyStr]

/-- The parameter is well-formed, and its argument is given if it is required. -/
def WellPlaced (arguments : JsonObject) (raw : Json) : Prop :=
  ∃ placed, placement arguments raw = .ok placed

/-- The placement of a parameter that has one. -/
def placed? (arguments : JsonObject) (raw : Json) : Option Placement :=
  (placement arguments raw).toOption.join

/-- The placements, one after the other. -/
def putAll (placements : List Placement) (mapped : MappedArguments) : Except Exc MappedArguments :=
  placements.foldlM (fun mapped p => p.put mapped) mapped

omit [PyStr] in
theorem putAll_cons {p : Placement} {placements : List Placement} {mapped : MappedArguments} :
    putAll (p :: placements) mapped = (p.put mapped >>= putAll placements) :=
  List.foldlM_cons ..

variable {arguments : JsonObject}

/-- The loop puts the placements of the parameters, once it has found them well-formed. -/
theorem foldlM_mapParameter_eq_ok {parameters : List Json} {mapped mapped' : MappedArguments} :
    parameters.foldlM (mapParameter arguments) mapped = .ok mapped' ↔
      (∀ raw ∈ parameters, WellPlaced arguments raw) ∧
        putAll (parameters.filterMap (placed? arguments)) mapped = .ok mapped' := by
  induction parameters generalizing mapped with
  | nil => simp [putAll]
  | cons raw parameters ih =>
    rw [List.foldlM_cons, List.forall_mem_cons, mapParameter_eq]
    cases hplaced : placement arguments raw with
    | error e =>
      have hnot : ¬ WellPlaced arguments raw := by
        rintro ⟨placed, h⟩
        rw [hplaced] at h
        cases h
      simp only [hnot, false_and, iff_false]
      intro h
      cases h
    | ok placed =>
      have hwell : WellPlaced arguments raw := ⟨placed, hplaced⟩
      have hsome : placed? arguments raw = placed := by
        rw [placed?, hplaced]
        cases placed <;> rfl
      rw [and_iff_right hwell]
      cases placed with
      | none =>
        rw [List.filterMap_cons_none hsome]
        exact ih
      | some p =>
        rw [List.filterMap_cons_some hsome, putAll_cons]
        change (p.put mapped >>= fun mapped => _) = _ ↔ _
        rw [bind_eq_ok, bind_eq_ok]
        constructor
        · rintro ⟨next, hput, hrest⟩
          exact ⟨(ih.1 hrest).1, next, hput, (ih.1 hrest).2⟩
        · rintro ⟨hwells, next, hput, hrest⟩
          exact ⟨next, hput, ih.2 ⟨hwells, hrest⟩⟩

/-- The path is changed by the placements in it. -/
theorem substitution_eq {raw : Json} :
    substitution arguments raw = (placed? arguments raw).bind Placement.substitution := by
  cases raw with
  | obj fields =>
    rw [substitution_obj, placed?, placement]
    cases arguments.get (textField fields "argument_name") with
    | none =>
      dsimp only
      split <;> split <;> rfl
    | some value => rfl
  | null | bool _ | int _ | float _ | str _ | arr _ => rfl

omit [PyStr] in
/-- Placements can be put where their locations are supported and each placeholder is in the path
    when its turn comes. -/
theorem exists_putAll {placements : List Placement} {mapped : MappedArguments}
    (hsupported : ∀ p ∈ placements,
      p.location = "path" ∨ p.location = "query" ∨ p.location = "header")
    (hoccur : Occur (placements.filterMap Placement.substitution) mapped.path) :
    ∃ mapped', putAll placements mapped = .ok mapped' := by
  induction placements generalizing mapped with
  | nil => exact ⟨mapped, rfl⟩
  | cons p placements ih =>
    rw [List.forall_mem_cons] at hsupported
    obtain ⟨next, hput, hnext⟩ : ∃ next, p.put mapped = .ok next ∧
        Occur (placements.filterMap Placement.substitution) next.path := by
      simp only [Placement.put_eq_ok]
      rw [List.filterMap_cons, Placement.substitution] at hoccur
      obtain hp | hp | hp := hsupported.1
      · rw [if_pos hp] at hoccur
        exact ⟨_, .inl ⟨hp, hoccur.1, rfl⟩, hoccur.2⟩
      · rw [if_neg (by rw [hp]; decide)] at hoccur
        exact ⟨_, .inr (.inl ⟨hp, rfl⟩), hoccur⟩
      · rw [if_neg (by rw [hp]; decide)] at hoccur
        exact ⟨_, .inr (.inr ⟨hp, rfl⟩), hoccur⟩
    obtain ⟨mapped', hrest⟩ := ih hsupported.2 hnext
    refine ⟨mapped', ?_⟩
    rw [putAll_cons, hput]
    exact hrest

theorem mapArguments_eq_ok {pathTemplate : String} {rawParameters : Option Json}
    {mapped : MappedArguments} :
    mapArguments pathTemplate rawParameters arguments = .ok mapped ↔
      ∃ parameters, rawParameters = some (.arr parameters) ∧
        (∀ raw ∈ parameters, WellPlaced arguments raw) ∧
          putAll (parameters.filterMap (placed? arguments)) { path := pathTemplate.toList } =
            .ok mapped := by
  unfold mapArguments
  split
  · simp [foldlM_mapParameter_eq_ok]
  · next hnone =>
    constructor
    · intro h
      cases h
    · rintro ⟨parameters, rfl, -⟩
      exact absurd rfl (hnone parameters)

end Parameters

end NexusMcp
