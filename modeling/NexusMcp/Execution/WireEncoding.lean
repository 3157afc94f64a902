-- SUMMARY: Which scalar arguments the upstream reads back as the values they are.
import NexusMcp.Execution.Mapping
import NexusMcp.Net.PercentDecode

/-!
# Scalars on the Wire

Every argument is written with `str`, which spells a boolean and `None` as Python does.
-/

namespace NexusMcp

open Net (quote replaceAll percentDecode)

/-! ## What is to be sent -/

/-- A string, an integer, a boolean or null. -/
def IsScalar : Json → Prop
  | .str _ | .int _ | .bool _ | .null => True
  | _ => False

/-- A boolean or null. -/
def IsLiteral : Json → Prop
  | .bool _ | .null => True
  | _ => False

/-- A string is sent as it is, and any other value as its JSON text. -/
def wireText : Json → Option String
  | .str s => some s
  | value => value.canonical.toOption

section Wire

variable [PyStr]

/-- The round for a parameter puts the text at its location, percent-encoded in the path. -/
structure Carries (fields : JsonObject) (text : String) (mapped mapped' : MappedArguments) :
    Prop where
  path : textField fields "location" = "path" → ∃ encoded,
    percentDecode encoded = some text.toList ∧ mapped'.path =
      replaceAll (placeholder (textField fields "upstream_name")) encoded mapped.path
  query : textField fields "location" = "query" →
    mapped'.query = mapped.query.set (textField fields "upstream_name") text
  header : textField fields "location" = "header" →
    mapped'.headers = mapped.headers.set (textField fields "upstream_name") text

/-- Every round of the mapping puts the text of its argument where the parameter says. -/
def ScalarsKept (pathTemplate : String) (parameters : List Json) (arguments : JsonObject) : Prop :=
  ∀ before fields after value text mapped mapped',
    parameters = before ++ .obj fields :: after →
    arguments.get (textField fields "argument_name") = some value → wireText value = some text →
    before.foldlM (mapParameter arguments) { path := pathTemplate.toList } = .ok mapped →
    mapParameter arguments mapped (.obj fields) = .ok mapped' →
    Carries fields text mapped mapped'

variable {fields : JsonObject} {arguments : JsonObject} {value : Json} {text : String}
  {mapped mapped' : MappedArguments}

/-- A round carries the text that `str` gives, and no other. -/
theorem carries_iff (hvalue : arguments.get (textField fields "argument_name") = some value)
    (h : mapParameter arguments mapped (.obj fields) = .ok mapped') :
    Carries fields text mapped mapped' ↔ pyStr value = text := by
  have hplaced : placement arguments (.obj fields) = .ok (some {
      upstreamName := textField fields "upstream_name"
      location := textField fields "location"
      value := pyStr value }) := by
    simp only [placement, hvalue]
  rw [mapParameter_eq, hplaced] at h
  obtain ⟨hpath, hoccurs, rfl⟩ | ⟨hquery, rfl⟩ | ⟨hheader, rfl⟩ := Placement.put_eq_ok.1 h
  · have hlocation : textField fields "location" = "path" := hpath
    constructor
    · intro hcarries
      obtain ⟨encoded, hdecoded, hreplaced⟩ := hcarries.path hlocation
      -- The placeholder occurs, so the new path determines what was put in its place.
      have hencoded := Net.replaceAll_inj hoccurs (List.cons_ne_nil _ _) hreplaced
      rw [← hencoded, Net.percentDecode_quote] at hdecoded
      exact String.toList_inj.1 (Option.some.inj hdecoded)
    · rintro rfl
      refine ⟨fun _ => ⟨_, Net.percentDecode_quote _, rfl⟩, ?_, ?_⟩
      · exact fun hother => absurd (hlocation.symm.trans hother) (by decide)
      · exact fun hother => absurd (hlocation.symm.trans hother) (by decide)
  · have hlocation : textField fields "location" = "query" := hquery
    constructor
    · intro hcarries
      exact TextDict.set_inj (hcarries.query hlocation)
    · rintro rfl
      refine ⟨?_, fun _ => rfl, ?_⟩
      · exact fun hother => absurd (hlocation.symm.trans hother) (by decide)
      · exact fun hother => absurd (hlocation.symm.trans hother) (by decide)
  · have hlocation : textField fields "location" = "header" := hheader
    constructor
    · intro hcarries
      exact TextDict.set_inj (hcarries.header hlocation)
    · rintro rfl
      refine ⟨?_, ?_, fun _ => rfl⟩
      · exact fun hother => absurd (hlocation.symm.trans hother) (by decide)
      · exact fun hother => absurd (hlocation.symm.trans hother) (by decide)

/-- `str` and JSON write a scalar alike, unless it is a boolean or null. -/
theorem pyStr_eq_iff (hscalar : IsScalar value) (htext : wireText value = some text) :
    pyStr value = text ↔ ¬ IsLiteral value := by
  cases value with
  | str s =>
    cases htext
    simp [pyStr, IsLiteral]
  | int i =>
    cases htext
    simp [pyStr, IsLiteral]
  | null =>
    cases htext
    simp [pyStr, IsLiteral]
  | bool b =>
    cases b with
    | true =>
      cases htext
      simp [pyStr, IsLiteral]
    | false =>
      cases htext
      simp [pyStr, IsLiteral]
  | float _ | arr _ | obj _ => exact hscalar.elim

omit [PyStr] in
theorem exists_wireText (hscalar : IsScalar value) : ∃ text, wireText value = some text := by
  cases value with
  | bool b => cases b <;> exact ⟨_, rfl⟩
  | str _ | int _ | null => exact ⟨_, rfl⟩
  | float _ | arr _ | obj _ => exact hscalar.elim

end Wire

/-- The upstream can read back every scalar that is sent exactly when none of them is a boolean
    or null. -/
theorem scalars_kept_iff [PyStr] (pathTemplate : String) (parameters : List Json)
    (arguments : JsonObject) (mapped : MappedArguments)
    (hmapped : mapArguments pathTemplate (some (.arr parameters)) arguments = .ok mapped)
    (hscalars : ∀ fields value, .obj fields ∈ parameters →
      arguments.get (textField fields "argument_name") = some value → IsScalar value) :
    ScalarsKept pathTemplate parameters arguments ↔
      ∀ fields value, .obj fields ∈ parameters →
        arguments.get (textField fields "argument_name") = some value → ¬ IsLiteral value := by
  constructor
  · intro hkept fields value hmem hvalue
    obtain ⟨before, after, rfl⟩ := List.append_of_mem hmem
    have hscalar := hscalars fields value hmem hvalue
    obtain ⟨text, htext⟩ := exists_wireText hscalar
    have hrounds : (before ++ .obj fields :: after).foldlM (mapParameter arguments)
        { path := pathTemplate.toList } = .ok mapped := hmapped
    rw [List.foldlM_append] at hrounds
    obtain ⟨reached, hbefore, hrest⟩ := bind_eq_ok.1 hrounds
    rw [List.foldlM_cons] at hrest
    obtain ⟨next, hround, -⟩ := bind_eq_ok.1 hrest
    have hcarries := hkept before fields after value text reached next rfl hvalue htext hbefore
      hround
    exact (pyStr_eq_iff hscalar htext).1 ((carries_iff hvalue hround).1 hcarries)
  · intro hliterals before fields after value text reached next hparameters hvalue htext _ hround
    have hmem : .obj fields ∈ parameters := by
      rw [hparameters]
      simp
    rw [carries_iff hvalue hround, pyStr_eq_iff (hscalars fields value hmem hvalue) htext]
    exact hliterals fields value hmem hvalue

section OrderQuery

attribute [local instance] scalarPyStr

/-- One parameter of a search for orders. -/
def orderQuery (name : String) : Json :=
  .obj [("argument_name", .str name), ("upstream_name", .str name), ("location", .str "query")]

theorem scalars_kept_limit :
    ScalarsKept "/orders" [orderQuery "limit"] [("limit", .int 10)] ↔
      ∀ fields value, .obj fields ∈ [orderQuery "limit"] →
        JsonObject.get [("limit", .int 10)] (textField fields "argument_name") = some value →
          ¬ IsLiteral value := by
  refine scalars_kept_iff "/orders" [orderQuery "limit"] [("limit", .int 10)]
    { path := "/orders".toList, query := [("limit", "10")] } rfl ?_
  intro fields value hmem hvalue
  obtain ⟨⟩ := List.mem_singleton.1 hmem
  cases hvalue
  trivial

/-- A boolean reaches the upstream in Python's spelling. -/
theorem boolean_sent_as_python :
    ¬ ∀ (pathTemplate : String) (parameters : List Json) (arguments : JsonObject)
      (mapped : MappedArguments),
      mapArguments pathTemplate (some (.arr parameters)) arguments = .ok mapped →
      (∀ fields value, .obj fields ∈ parameters →
        arguments.get (textField fields "argument_name") = some value → IsScalar value) →
      ScalarsKept pathTemplate parameters arguments := by
  intro h
  have hkept := h "/orders" [orderQuery "open"] [("open", .bool true)]
    { path := "/orders".toList, query := [("open", "True")] } rfl (by
      intro fields value hmem hvalue
      obtain ⟨⟩ := List.mem_singleton.1 hmem
      cases hvalue
      trivial)
  have hcarries := hkept [] _ [] (.bool true) "true" { path := "/orders".toList }
    { path := "/orders".toList, query := [("open", "True")] } rfl rfl rfl rfl rfl
  exact absurd (hcarries.query rfl) (by decide)

end OrderQuery

end NexusMcp
