-- SUMMARY: The mapping of the arguments does not depend on the order of the parameters.
import NexusMcp.Execution.Mapping
import NexusMcp.Net.Template

/-!
# The Order of the Parameters

The loop replaces one placeholder after the other in the path it has so far. The values are
percent-encoded, so none of them brings in a brace.
-/

namespace NexusMcp

open Net (Text BraceFree NonNested Template Token braced render orValue quote replaceAll)

/-! ## What a list of placements does -/

/-- The value of the placeholder with a name. -/
def pathValue (placements : List Placement) (name : Text) : Option Text :=
  (placements.find? fun p => p.location = "path" ∧ p.upstreamName.toList = name).map
    fun p => quote p.value.toList

/-- The entries of a dictionary of the request. -/
def entries (location : String) (placements : List Placement) : TextDict :=
  (placements.filter (·.location = location)).map fun p => (p.upstreamName, p.value)

/-- Two placements have different names or different locations. -/
def Placement.Differs (p q : Placement) : Prop :=
  (p.upstreamName, p.location) ≠ (q.upstreamName, q.location)

/-- No placement at the location has a name that is taken. -/
def Untaken (d : TextDict) (location : String) (placements : List Placement) : Prop :=
  ∀ e ∈ d, ∀ p ∈ placements, p.location = location → e.1 ≠ p.upstreamName

/-- The placements that can be put: each has a location that is supported, and a placeholder. -/
def Puttable (tokens : List Token) (placements : List Placement) : Prop :=
  ∀ p ∈ placements, (p.location = "path" ∧ .group p.upstreamName.toList ∈ tokens) ∨
    p.location = "query" ∨ p.location = "header"

section Placements

variable {p : Placement} {placements : List Placement} {tokens : List Token} {tail : Text}
  {d : TextDict} {location : String}

theorem pathValue_cons_path (h : p.location = "path") :
    pathValue (p :: placements) =
      orValue (pathValue placements) p.upstreamName.toList (quote p.value.toList) := by
  funext name
  rw [pathValue, List.find?_cons]
  by_cases hname : p.upstreamName.toList = name
  · simp [h, hname, orValue]
  · simp [hname, orValue, Ne.symm hname, pathValue]

theorem pathValue_cons_of_ne (h : p.location ≠ "path") :
    pathValue (p :: placements) = pathValue placements := by
  funext name
  rw [pathValue, List.find?_cons]
  simp [h, pathValue]

theorem entries_cons_self (h : p.location = location) :
    entries location (p :: placements) =
      (p.upstreamName, p.value) :: entries location placements := by
  simp [entries, h]

theorem entries_cons_of_ne (h : p.location ≠ location) :
    entries location (p :: placements) = entries location placements := by
  simp [entries, h]

theorem Untaken.of_cons (h : Untaken d location (p :: placements)) :
    Untaken d location placements :=
  fun e he q hq => h e he q (List.mem_cons_of_mem _ hq)

/-- Setting an untaken name adds an entry, and leaves the other names untaken. -/
theorem Untaken.set (h : Untaken d location (p :: placements)) (hp : p.location = location)
    (hdiffers : ∀ q ∈ placements, p.Differs q) :
    d.set p.upstreamName p.value = d ++ [(p.upstreamName, p.value)] ∧
      Untaken (d ++ [(p.upstreamName, p.value)]) location placements := by
  refine ⟨TextDict.set_of_not_mem fun e he => h e he p List.mem_cons_self hp, ?_⟩
  intro e he q hq hlocation
  obtain he | he := List.mem_append.1 he
  · exact h.of_cons e he q hq hlocation
  · obtain rfl := List.mem_singleton.1 he
    intro heq
    exact hdiffers q hq (Prod.ext heq (hp.trans hlocation.symm))

theorem puttable_cons : Puttable tokens (p :: placements) ↔
    ((p.location = "path" ∧ .group p.upstreamName.toList ∈ tokens) ∨
      p.location = "query" ∨ p.location = "header") ∧ Puttable tokens placements :=
  List.forall_mem_cons

/-- Replacing the placeholder of one placement leaves those of the others. -/
theorem puttable_replace {value : Text} (hp : p.location = "path")
    (hdiffers : ∀ q ∈ placements, p.Differs q) :
    Puttable (tokens.flatMap (Token.replace p.upstreamName.toList value)) placements ↔
      Puttable tokens placements := by
  refine forall₂_congr fun q hq => or_congr_left (and_congr_right fun hpath => ?_)
  refine Net.group_mem_replace fun heq => hdiffers q hq ?_
  rw [String.toList_inj.1 heq, hp, hpath]

/-- A placement in the path needs its placeholder. -/
theorem put_path_eq_ok {mapped mapped' : MappedArguments} (hp : p.location = "path")
    (hpath : Template tokens tail mapped.path) (hname : BraceFree p.upstreamName.toList) :
    p.put mapped = .ok mapped' ↔ .group p.upstreamName.toList ∈ tokens ∧
      mapped' = { mapped with
        path := replaceAll (braced p.upstreamName.toList) (quote p.value.toList) mapped.path } := by
  rw [← Net.braced_infix_iff hpath hname, Placement.put_eq_ok, hp]
  simp [placeholder, braced]

theorem put_query_eq_ok {mapped mapped' : MappedArguments} (hp : p.location = "query") :
    p.put mapped = .ok mapped' ↔
      mapped' = { mapped with query := mapped.query.set p.upstreamName p.value } := by
  rw [Placement.put_eq_ok, hp]
  simp

theorem put_header_eq_ok {mapped mapped' : MappedArguments} (hp : p.location = "header") :
    p.put mapped = .ok mapped' ↔
      mapped' = { mapped with headers := mapped.headers.set p.upstreamName p.value } := by
  rw [Placement.put_eq_ok, hp]
  simp

/-- What a list of placements with distinct names does to a request. -/
theorem putAll_eq_ok {mapped mapped' : MappedArguments} (hpath : Template tokens tail mapped.path)
    (hnames : ∀ p ∈ placements, p.location = "path" → BraceFree p.upstreamName.toList)
    (hdiffers : placements.Pairwise Placement.Differs)
    (hquery : Untaken mapped.query "query" placements)
    (hheaders : Untaken mapped.headers "header" placements) :
    putAll placements mapped = .ok mapped' ↔ Puttable tokens placements ∧
      mapped' = {
        path := render (tokens.flatMap (Token.fill (pathValue placements))) tail
        query := mapped.query ++ entries "query" placements
        headers := mapped.headers ++ entries "header" placements } := by
  induction placements generalizing mapped tokens with
  | nil =>
    have hnone : tokens.flatMap (Token.fill (pathValue [])) = tokens := Net.fill_none
    have hputtable : Puttable tokens [] := nofun
    rw [hnone, ← hpath.text]
    constructor
    · intro h
      cases h
      exact ⟨hputtable, by simp [entries]⟩
    · rintro ⟨-, rfl⟩
      simp [putAll, entries]
      rfl
  | cons p placements ih =>
    rw [List.forall_mem_cons] at hnames
    rw [List.pairwise_cons] at hdiffers
    rw [putAll_cons, bind_eq_ok, puttable_cons]
    -- A path value has no opening brace, so no later placeholder can arise from it.
    by_cases hp : p.location = "path"
    · have hvalue : '{' ∉ quote p.value.toList := Net.not_mem_quote (by decide) (by decide)
      have hrest : putAll placements { mapped with
          path := replaceAll (braced p.upstreamName.toList) (quote p.value.toList) mapped.path } =
            .ok mapped' ↔ _ :=
        ih (hpath.replaceAll (hnames.1 hp) hvalue) hnames.2 hdiffers.2 hquery.of_cons
          hheaders.of_cons
      simp only [put_path_eq_ok hp hpath (hnames.1 hp), and_assoc, exists_and_left, exists_eq_left]
      rw [hrest, puttable_replace hp hdiffers.1, Net.fill_replace, ← pathValue_cons_path hp,
        entries_cons_of_ne (by rw [hp]; decide), entries_cons_of_ne (by rw [hp]; decide)]
      simp [hp]
    · by_cases hq : p.location = "query"
      -- Its name is not taken, so the entry is appended.
      · obtain ⟨hset, huntaken⟩ := hquery.set hq hdiffers.1
        have hrest : putAll placements { mapped with
            query := mapped.query ++ [(p.upstreamName, p.value)] } = .ok mapped' ↔ _ :=
          ih hpath hnames.2 hdiffers.2 huntaken hheaders.of_cons
        simp only [put_query_eq_ok hq, exists_eq_left]
        rw [hset, hrest, pathValue_cons_of_ne hp, entries_cons_self hq,
          entries_cons_of_ne (by rw [hq]; decide), List.append_assoc]
        simp [hq]
      · by_cases hh : p.location = "header"
        · obtain ⟨hset, huntaken⟩ := hheaders.set hh hdiffers.1
          have hrest : putAll placements { mapped with
              headers := mapped.headers ++ [(p.upstreamName, p.value)] } = .ok mapped' ↔ _ :=
            ih hpath hnames.2 hdiffers.2 hquery.of_cons huntaken
          simp only [put_header_eq_ok hh, exists_eq_left]
          rw [hset, hrest, pathValue_cons_of_ne hp, entries_cons_self hh,
            entries_cons_of_ne hq, List.append_assoc]
          simp [hh]
        · simp [Placement.put_eq_ok, hp, hq, hh]

/-- The entries of a request are the placements at their location. -/
theorem entries_of_putAll {mapped mapped' : MappedArguments}
    (h : putAll placements mapped = .ok mapped') (hdiffers : placements.Pairwise Placement.Differs)
    (hquery : Untaken mapped.query "query" placements)
    (hheaders : Untaken mapped.headers "header" placements) :
    mapped'.query = mapped.query ++ entries "query" placements ∧
      mapped'.headers = mapped.headers ++ entries "header" placements := by
  induction placements generalizing mapped with
  | nil =>
    cases h
    simp [entries]
  | cons p placements ih =>
    rw [List.pairwise_cons] at hdiffers
    rw [putAll_cons, bind_eq_ok] at h
    obtain ⟨next, hput, hrest⟩ := h
    obtain ⟨hp, -, rfl⟩ | ⟨hp, rfl⟩ | ⟨hp, rfl⟩ := Placement.put_eq_ok.1 hput
    · rw [entries_cons_of_ne (by rw [hp]; decide), entries_cons_of_ne (by rw [hp]; decide)]
      have hkept := ih hrest hdiffers.2 hquery.of_cons hheaders.of_cons
      exact hkept
    · obtain ⟨hset, huntaken⟩ := hquery.set hp hdiffers.1
      rw [hset] at hrest
      obtain ⟨hquery', hheaders'⟩ := ih hrest hdiffers.2 huntaken hheaders.of_cons
      rw [hquery', hheaders', entries_cons_self hp, entries_cons_of_ne (by rw [hp]; decide),
        List.append_assoc]
      exact ⟨rfl, rfl⟩
    · obtain ⟨hset, huntaken⟩ := hheaders.set hp hdiffers.1
      rw [hset] at hrest
      obtain ⟨hquery', hheaders'⟩ := ih hrest hdiffers.2 hquery.of_cons huntaken
      rw [hquery', hheaders', entries_cons_self hp, entries_cons_of_ne (by rw [hp]; decide),
        List.append_assoc]
      exact ⟨rfl, rfl⟩

/-! ### In another order -/

/-- Two requests are equal as dictionaries, or neither could be mapped. -/
def SameMapping : Except Exc MappedArguments → Except Exc MappedArguments → Prop
  | .ok mapped, .ok mapped' => mapped.path = mapped'.path ∧
      mapped.query.Perm mapped'.query ∧ mapped.headers.Perm mapped'.headers
  | .error _, .error _ => True
  | _, _ => False

theorem nodup_of_differs (hdiffers : placements.Pairwise Placement.Differs) :
    (placements.map fun p => (p.upstreamName, p.location)).Nodup :=
  List.pairwise_map.2 hdiffers

/-- Where no two placements are alike, the first of a name in the path is the only one. -/
theorem pathValue_eq_some {name value : Text} (hdiffers : placements.Pairwise Placement.Differs) :
    pathValue placements name = some value ↔ ∃ p ∈ placements, p.location = "path" ∧
      p.upstreamName.toList = name ∧ quote p.value.toList = value := by
  rw [pathValue, Option.map_eq_some_iff]
  constructor
  · rintro ⟨p, hfound, hvalue⟩
    obtain ⟨hpath, hname⟩ : p.location = "path" ∧ p.upstreamName.toList = name := by
      simpa using List.find?_some hfound
    exact ⟨p, List.mem_of_find?_eq_some hfound, hpath, hname, hvalue⟩
  · rintro ⟨p, hp, hpath, hname, hvalue⟩
    refine ⟨p, ?_, hvalue⟩
    cases hfound : placements.find? fun p => p.location = "path" ∧ p.upstreamName.toList = name with
    | none =>
      have hnot := List.find?_eq_none.1 hfound p hp
      exact absurd (decide_eq_true ⟨hpath, hname⟩) hnot
    | some q =>
      obtain ⟨hqpath, hqname⟩ : q.location = "path" ∧ q.upstreamName.toList = name := by
        simpa using List.find?_some hfound
      have hkey : (q.upstreamName, q.location) = (p.upstreamName, p.location) :=
        Prod.ext (String.toList_inj.1 (hqname.trans hname.symm)) (hqpath.trans hpath.symm)
      rw [List.inj_on_of_nodup_map (nodup_of_differs hdiffers)
        (List.mem_of_find?_eq_some hfound) hp hkey]

variable {placements' : List Placement}

theorem differs_perm (hdiffers : placements.Pairwise Placement.Differs)
    (h : placements.Perm placements') : placements'.Pairwise Placement.Differs := by
  have hnodup := (h.map fun p => (p.upstreamName, p.location)).nodup_iff.1
    (nodup_of_differs hdiffers)
  rwa [List.Nodup, List.pairwise_map] at hnodup

theorem pathValue_perm (hdiffers : placements.Pairwise Placement.Differs)
    (h : placements.Perm placements') : pathValue placements = pathValue placements' := by
  funext name
  refine Option.ext fun value => ?_
  rw [pathValue_eq_some hdiffers, pathValue_eq_some (differs_perm hdiffers h)]
  simp [h.mem_iff]

theorem puttable_perm (h : placements.Perm placements') :
    Puttable tokens placements ↔ Puttable tokens placements' := by
  simp [Puttable, h.mem_iff]

theorem entries_perm (h : placements.Perm placements') :
    (entries location placements).Perm (entries location placements') :=
  (h.filter _).map _

end Placements

/-! ## What the mapping does -/

section Mapping

variable [PyStr] (arguments : JsonObject)

/-- Two parameters have different upstream names or different locations. -/
def DistinctParameters (raw raw' : Json) : Prop :=
  ∀ fields fields', raw = .obj fields → raw' = .obj fields' →
    (textField fields "upstream_name", textField fields "location") ≠
      (textField fields' "upstream_name", textField fields' "location")

/-- The encoded argument for the placeholder with a name. -/
def encodedArgument (parameters : List Json) : Text → Option Text :=
  pathValue (parameters.filterMap (placed? arguments))

variable {arguments} {parameters parameters' : List Json}

/-- A placement has the name and the location of its parameter. -/
theorem placed?_eq_some {raw : Json} {p : Placement} (h : placed? arguments raw = some p) :
    ∃ fields, raw = .obj fields ∧ p.upstreamName = textField fields "upstream_name" ∧
      p.location = textField fields "location" := by
  cases raw with
  | obj fields =>
    unfold placed? placement at h
    dsimp only at h
    split at h
    · split at h <;> cases h
    · cases h
      exact ⟨fields, rfl, rfl, rfl⟩
  | null | bool _ | int _ | float _ | str _ | arr _ => cases h

/-- Distinct parameters have distinct placements. -/
theorem differs_of_distinct (h : parameters.Pairwise DistinctParameters) :
    (parameters.filterMap (placed? arguments)).Pairwise Placement.Differs := by
  refine h.filterMap _ fun raw raw' hdistinct p hp q hq => ?_
  obtain ⟨fields, rfl, hname, hlocation⟩ := placed?_eq_some hp
  obtain ⟨fields', rfl, hname', hlocation'⟩ := placed?_eq_some hq
  rw [Placement.Differs, hname, hlocation, hname', hlocation']
  exact hdistinct fields fields' rfl rfl

/-- What the parameters make of the arguments, for a template whose braces are not nested. -/
theorem mapArguments_iff {pathTemplate : String} {tokens : List Token} {tail : Text}
    (htemplate : Template tokens tail pathTemplate.toList)
    (hnames : ∀ fields, .obj fields ∈ parameters → textField fields "location" = "path" →
      BraceFree (textField fields "upstream_name").toList)
    (hdistinct : parameters.Pairwise DistinctParameters) {mapped : MappedArguments} :
    mapArguments pathTemplate (some (.arr parameters)) arguments = .ok mapped ↔
      ((∀ raw ∈ parameters, WellPlaced arguments raw) ∧
        Puttable tokens (parameters.filterMap (placed? arguments))) ∧
      mapped = {
        path := render (tokens.flatMap (Token.fill (encodedArgument arguments parameters))) tail
        query := entries "query" (parameters.filterMap (placed? arguments))
        headers := entries "header" (parameters.filterMap (placed? arguments)) } := by
  have hbraces : ∀ p ∈ parameters.filterMap (placed? arguments), p.location = "path" →
      BraceFree p.upstreamName.toList := by
    intro p hp hpath
    obtain ⟨raw, hraw, hplaced⟩ := List.mem_filterMap.1 hp
    obtain ⟨fields, rfl, hname, hlocation⟩ := placed?_eq_some hplaced
    rw [hname]
    exact hnames fields hraw (hlocation.symm.trans hpath)
  have hput : putAll (parameters.filterMap (placed? arguments)) { path := pathTemplate.toList } =
      .ok mapped ↔ _ :=
    putAll_eq_ok htemplate hbraces (differs_of_distinct hdistinct) nofun nofun
  rw [mapArguments_eq_ok]
  simp only [Option.some.injEq, Json.arr.injEq, exists_eq_left', hput, and_assoc,
    List.nil_append]
  rfl

/-- Whether the arguments can be mapped does not depend on the order. -/
theorem mappable_perm {tokens : List Token} (h : parameters.Perm parameters') :
    ((∀ raw ∈ parameters, WellPlaced arguments raw) ∧
        Puttable tokens (parameters.filterMap (placed? arguments))) ↔
      ((∀ raw ∈ parameters', WellPlaced arguments raw) ∧
        Puttable tokens (parameters'.filterMap (placed? arguments))) := by
  rw [puttable_perm (h.filterMap _)]
  simp [h.mem_iff]

/-- No text that is put into a path can end a segment, a path or a placeholder. -/
theorem plain_encodedArgument {name value : Text}
    (h : encodedArgument arguments parameters name = some value) :
    ∀ c ∈ value, c ∉ ['{', '}', '/', '?', '#'] := by
  obtain ⟨p, -, rfl⟩ := Option.map_eq_some_iff.1 h
  have hreserved : ∀ c ∈ ['{', '}', '/', '?', '#'], Net.isUnreserved c = false ∧ c ≠ '%' := by
    decide
  intro c hc hmem
  obtain ⟨hunreserved, hpercent⟩ := hreserved c hmem
  exact Net.not_mem_quote hunreserved hpercent hc

end Mapping

/-- In a template whose braces are not nested, parameters with distinct names map the arguments
    to the same request in every order, and the path is the template with the placeholders
    replaced by texts that cannot make or end a placeholder, a segment or the path. -/
theorem argument_order_irrelevant [PyStr] (pathTemplate : String)
    (parameters parameters' : List Json) (arguments : JsonObject)
    (htemplate : NonNested pathTemplate.toList)
    (hnames : ∀ fields, .obj fields ∈ parameters →
      BraceFree (textField fields "upstream_name").toList)
    (hdistinct : parameters.Pairwise DistinctParameters) (hperm : parameters.Perm parameters') :
    SameMapping (mapArguments pathTemplate (some (.arr parameters)) arguments)
        (mapArguments pathTemplate (some (.arr parameters')) arguments) ∧
      ∀ mapped, mapArguments pathTemplate (some (.arr parameters)) arguments = .ok mapped →
        ∃ tokens tail, Template tokens tail pathTemplate.toList ∧
          mapped.path =
            render (tokens.flatMap (Token.fill (encodedArgument arguments parameters))) tail ∧
          ∀ name value, encodedArgument arguments parameters name = some value →
            ∀ c ∈ value, c ∉ ['{', '}', '/', '?', '#'] := by
  obtain ⟨tokens, tail, ht⟩ := Net.exists_template htemplate
  have hpaths : ∀ fields, .obj fields ∈ parameters → textField fields "location" = "path" →
      BraceFree (textField fields "upstream_name").toList :=
    fun fields hmem _ => hnames fields hmem
  have hpaths' : ∀ fields, .obj fields ∈ parameters' → textField fields "location" = "path" →
      BraceFree (textField fields "upstream_name").toList :=
    fun fields hmem => hpaths fields (hperm.mem_iff.2 hmem)
  have hdistinct' : parameters'.Pairwise DistinctParameters := by
    refine hperm.pairwise hdistinct fun {raw raw'} hraw fields fields' hfields hfields' heq => ?_
    exact hraw fields' fields hfields' hfields heq.symm
  have hplaced := hperm.filterMap (placed? arguments)
  -- No two parameters have one place, so the order does not tell which value a name gets.
  have hvalue : encodedArgument arguments parameters = encodedArgument arguments parameters' :=
    pathValue_perm (differs_of_distinct hdistinct) hplaced
  refine ⟨?_, ?_⟩
  · by_cases hmappable : (∀ raw ∈ parameters, WellPlaced arguments raw) ∧
        Puttable tokens (parameters.filterMap (placed? arguments))
    · rw [(mapArguments_iff ht hpaths hdistinct).2 ⟨hmappable, rfl⟩,
        (mapArguments_iff ht hpaths' hdistinct').2 ⟨(mappable_perm hperm).1 hmappable, rfl⟩]
      refine ⟨?_, entries_perm hplaced, entries_perm hplaced⟩
      rw [hvalue]
    · cases h : mapArguments pathTemplate (some (.arr parameters)) arguments with
      | ok mapped => exact absurd ((mapArguments_iff ht hpaths hdistinct).1 h).1 hmappable
      | error e =>
        cases h' : mapArguments pathTemplate (some (.arr parameters')) arguments with
        | ok mapped =>
          have hmappable' := ((mapArguments_iff ht hpaths' hdistinct').1 h').1
          exact absurd ((mappable_perm hperm).2 hmappable') hmappable
        | error e' => trivial
  · intro mapped h
    refine ⟨tokens, tail, ht, ?_, fun name value => plain_encodedArgument⟩
    rw [((mapArguments_iff ht hpaths hdistinct).1 h).2]

section OrderItems

attribute [local instance] scalarPyStr

def idParameter : Json :=
  .obj [("argument_name", .str "id"), ("upstream_name", .str "id"), ("location", .str "path"),
    ("required", .bool true)]

def viewParameter : Json :=
  .obj [("argument_name", .str "view"), ("upstream_name", .str "view"),
    ("location", .str "query")]

theorem nonNested_orderTemplate : NonNested orderTemplate.toList := by
  intro before between after h
  have hone : orderTemplate.toList.count '{' = 1 := by decide
  rw [h, List.count_append, List.count_cons_self, List.count_append, List.count_cons_self] at hone
  omega

theorem argument_order_irrelevant_items :
    SameMapping
        (mapArguments orderTemplate (some (.arr [idParameter, viewParameter]))
          [("id", .str "a/{view}"), ("view", .str "full")])
        (mapArguments orderTemplate (some (.arr [viewParameter, idParameter]))
          [("id", .str "a/{view}"), ("view", .str "full")]) ∧
      ∀ mapped, mapArguments orderTemplate (some (.arr [idParameter, viewParameter]))
          [("id", .str "a/{view}"), ("view", .str "full")] = .ok mapped →
        ∃ tokens tail, Template tokens tail orderTemplate.toList ∧
          mapped.path = render (tokens.flatMap (Token.fill (encodedArgument
            [("id", .str "a/{view}"), ("view", .str "full")]
            [idParameter, viewParameter]))) tail ∧
          ∀ name value, encodedArgument [("id", .str "a/{view}"), ("view", .str "full")]
              [idParameter, viewParameter] name = some value →
            ∀ c ∈ value, c ∉ ['{', '}', '/', '?', '#'] := by
  refine argument_order_irrelevant orderTemplate [idParameter, viewParameter]
    [viewParameter, idParameter] _ nonNested_orderTemplate ?_ ?_ (.swap _ _ _)
  · intro fields hmem
    simp only [List.mem_cons, List.not_mem_nil, or_false, idParameter, viewParameter,
      Json.obj.injEq] at hmem
    obtain rfl | rfl := hmem <;> decide
  · simp only [List.pairwise_cons, List.mem_singleton, forall_eq]
    refine ⟨?_, nofun, .nil⟩
    rintro _ _ ⟨⟩ ⟨⟩
    decide

end OrderItems

end NexusMcp
