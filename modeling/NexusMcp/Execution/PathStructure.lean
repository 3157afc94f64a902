-- SUMMARY: Which arguments leave the path of a request with the structure of its template.
import NexusMcp.Execution.HttpxExecutor

/-!
# Path Structure

The arguments are encoded, put in the place of the placeholders, and the client then
removes dot segments.
-/

namespace NexusMcp

open Net (Text quote replaceAll removeDots isDotSegment isPathChar)

/-! ## Substitutions -/

/-- What one parameter does to the path. -/
structure Substitution where
  placeholder : Text
  value : Text

section Substitutions

variable [PyStr]

/-- The substitution of a path parameter whose argument is given. -/
def substitution (arguments : JsonObject) : Json → Option Substitution
  | .obj parameter =>
    if textField parameter "location" = "path" then
      (arguments.get (textField parameter "argument_name")).map fun value =>
        { placeholder := placeholder (textField parameter "upstream_name")
          value := quote (pyStr value).toList }
    else none
  | _ => none

theorem substitution_obj {arguments : JsonObject} {parameter : List (String × Json)} :
    substitution arguments (.obj parameter) =
      if textField parameter "location" = "path" then
        (arguments.get (textField parameter "argument_name")).map fun value =>
          { placeholder := placeholder (textField parameter "upstream_name")
            value := quote (pyStr value).toList }
      else none := rfl

/-- The substitutions of a call, in the order of the parameters. -/
def substitutions (rawParameters : Option Json) (arguments : JsonObject) : List Substitution :=
  match rawParameters with
  | some (.arr parameters) => parameters.filterMap (substitution arguments)
  | _ => []

end Substitutions

/-- A text with all placeholders replaced. -/
def fill (subs : List Substitution) (s : Text) : Text :=
  subs.foldl (fun s sub => replaceAll sub.placeholder sub.value s) s

/-- Each placeholder is in the text when its turn comes. -/
def Occur : List Substitution → Text → Prop
  | [], _ => True
  | sub :: subs, s =>
    sub.placeholder <:+: s ∧ Occur subs (replaceAll sub.placeholder sub.value s)

theorem occur_append {subs subs' : List Substitution} {s : Text} :
    Occur (subs ++ subs') s ↔ Occur subs s ∧ Occur subs' (fill subs s) := by
  induction subs generalizing s with
  | nil => exact (and_iff_right trivial).symm
  | cons sub subs ih =>
    change _ ∧ Occur (subs ++ subs') _ ↔ (_ ∧ Occur subs _) ∧ _
    rw [ih, and_assoc]
    rfl

/-- A placeholder starts with a brace, and its value is percent-encoded. -/
def Substitution.Encoded (sub : Substitution) : Prop :=
  ∃ name value, sub.placeholder = NexusMcp.placeholder name ∧ sub.value = quote value

/-! ## What the mapping does to the path -/

section Mapping

variable [PyStr] {arguments : JsonObject}

theorem encoded_of_substitution {raw : Json} {sub : Substitution}
    (h : substitution arguments raw = some sub) : sub.Encoded := by
  unfold substitution at h
  split at h
  · split at h
    · obtain ⟨value, -, rfl⟩ := Option.map_eq_some_iff.1 h
      exact ⟨_, _, rfl, rfl⟩
    · cases h
  · cases h

theorem encoded_of_mem {rawParameters : Option Json} {sub : Substitution}
    (h : sub ∈ substitutions rawParameters arguments) : sub.Encoded := by
  unfold substitutions at h
  split at h
  · obtain ⟨raw, -, hsub⟩ := List.mem_filterMap.1 h
    exact encoded_of_substitution hsub
  · cases h

/-- One round changes the path by the substitution of the parameter, if it has one. -/
theorem mapParameter_path {raw : Json} {mapped mapped' : MappedArguments}
    (h : mapParameter arguments mapped raw = .ok mapped') :
    mapped'.path = fill (substitution arguments raw).toList mapped.path ∧
      Occur (substitution arguments raw).toList mapped.path := by
  match raw with
  | .obj parameter =>
    unfold mapParameter at h
    rw [substitution_obj]
    cases hargument : arguments.get (textField parameter "argument_name") with
    | none =>
      simp only [hargument] at h
      -- Without a value the round is refused or does nothing.
      have hsame : mapped' = mapped := by
        split at h
        · cases h
        · cases h
          rfl
      rw [hsame]
      split_ifs
      · exact ⟨rfl, trivial⟩
      · exact ⟨rfl, trivial⟩
    | some value =>
      simp only [hargument, mapValue] at h
      by_cases hpath : textField parameter "location" = "path"
      · rw [if_pos hpath] at h ⊢
        split at h
        · next hoccurs =>
          cases h
          exact ⟨rfl, hoccurs, trivial⟩
        · cases h
      · rw [if_neg hpath] at h ⊢
        split_ifs at h
        · cases h
          exact ⟨rfl, trivial⟩
        · cases h
          exact ⟨rfl, trivial⟩
        · cases h
  | .null | .bool _ | .int _ | .float _ | .str _ | .arr _ => cases h

theorem foldlM_path {parameters : List Json} {mapped mapped' : MappedArguments}
    (h : parameters.foldlM (mapParameter arguments) mapped = .ok mapped') :
    mapped'.path = fill (parameters.filterMap (substitution arguments)) mapped.path ∧
      Occur (parameters.filterMap (substitution arguments)) mapped.path := by
  induction parameters generalizing mapped with
  | nil =>
    cases h
    exact ⟨rfl, trivial⟩
  | cons raw parameters ih =>
    rw [List.foldlM_cons] at h
    obtain ⟨next, hnext, hrest⟩ := bind_eq_ok.1 h
    obtain ⟨hpath, hoccur⟩ := mapParameter_path hnext
    obtain ⟨hpath', hoccur'⟩ := ih hrest
    rw [List.filterMap_cons]
    cases hsub : substitution arguments raw with
    | none =>
      rw [hsub] at hpath
      have hsame : next.path = mapped.path := hpath
      rw [hsame] at hpath' hoccur'
      exact ⟨hpath', hoccur'⟩
    | some sub =>
      rw [hsub] at hpath hoccur
      have hreplaced : next.path = replaceAll sub.placeholder sub.value mapped.path := hpath
      rw [hreplaced] at hpath' hoccur'
      exact ⟨hpath', hoccur.1, hoccur'⟩

/-- The mapped path is the template with its placeholders replaced. -/
theorem mapArguments_path {pathTemplate : String} {rawParameters : Option Json}
    {mapped : MappedArguments} (h : mapArguments pathTemplate rawParameters arguments = .ok mapped) :
    mapped.path = fill (substitutions rawParameters arguments) pathTemplate.toList ∧
      Occur (substitutions rawParameters arguments) pathTemplate.toList := by
  unfold mapArguments at h
  split at h
  · exact foldlM_path h
  · cases h

end Mapping

/-! ## Segments -/

/-- The segments of an absolute path. -/
def segments (path : Text) : List Text := (path.drop 1).splitOn '/'

/-- The segments that reach the upstream: the path ends at a query or a fragment, and the client
    removes dot segments. -/
def sentSegments (path : Text) : List Text := removeDots [] (segments (path.takeWhile isPathChar))

/-- The path that reaches the upstream has the segments of the template: as many, those without
    a placeholder as they stand, and the others with their placeholders replaced. -/
structure PathStructureKept (subs : List Substitution) (template path : Text) : Prop where
  length : (sentSegments path).length = (segments template).length
  literal : ∀ (i : Nat) (segment : Text), (segments template)[i]? = some segment →
    (∀ sub ∈ subs, ¬ sub.placeholder <:+: segment) → (sentSegments path)[i]? = some segment
  filled : sentSegments path = (segments template).map (fill subs)

variable {subs : List Substitution} {t template : Text}

theorem fill_of_not_infix {segment : Text} (h : ∀ sub ∈ subs, ¬ sub.placeholder <:+: segment) :
    fill subs segment = segment := by
  induction subs with
  | nil => rfl
  | cons sub subs ih =>
    rw [List.forall_mem_cons] at h
    have hfirst : replaceAll sub.placeholder sub.value segment = segment :=
      Net.replaceAll_of_not_infix h.1
    rw [fill, List.foldl_cons, hfirst]
    exact ih h.2

theorem fill_cons {sub : Substitution} {s : Text} :
    fill (sub :: subs) s = fill subs (replaceAll sub.placeholder sub.value s) := rfl

/-- The leading slash stays. -/
theorem fill_slash (hsubs : ∀ sub ∈ subs, sub.Encoded) (t : Text) :
    fill subs ('/' :: t) = '/' :: fill subs t := by
  induction subs generalizing t with
  | nil => rfl
  | cons sub subs ih =>
    rw [List.forall_mem_cons] at hsubs
    obtain ⟨name, value, hplaceholder, -⟩ := hsubs.1
    rw [fill_cons, fill_cons, hplaceholder, placeholder,
      Net.replaceAll_cons_of_ne (by decide), ih hsubs.2]

theorem not_mem_value {sub : Substitution} (h : sub.Encoded) : '/' ∉ sub.value := by
  obtain ⟨name, value, -, hvalue⟩ := h
  rw [hvalue]
  exact Net.not_mem_quote (by decide) (by decide)

/-- Where no placeholder has a slash, the segments are filled one by one. -/
theorem splitOn_fill (hsubs : ∀ sub ∈ subs, sub.Encoded)
    (hslash : ∀ sub ∈ subs, '/' ∉ sub.placeholder) (t : Text) :
    (fill subs t).splitOn '/' = (t.splitOn '/').map (fill subs) := by
  induction subs generalizing t with
  | nil => exact (List.map_id _).symm
  | cons sub subs ih =>
    rw [List.forall_mem_cons] at hsubs hslash
    obtain ⟨name, value, hplaceholder, -⟩ := hsubs.1
    have hne : sub.placeholder ≠ [] := by
      rw [hplaceholder]
      exact List.cons_ne_nil _ _
    rw [fill_cons, ih hsubs.2 hslash.2,
      Net.splitOn_replaceAll hne hslash.1 (not_mem_value hsubs.1), List.map_map]
    rfl

/-- A placeholder with a slash takes segments away. -/
theorem count_fill (hsubs : ∀ sub ∈ subs, sub.Encoded) (hoccur : Occur subs t) :
    (fill subs t).count '/' ≤ t.count '/' ∧
      ((∃ sub ∈ subs, '/' ∈ sub.placeholder) → (fill subs t).count '/' < t.count '/') := by
  induction subs generalizing t with
  | nil =>
    refine ⟨le_rfl, ?_⟩
    rintro ⟨sub, hsub, -⟩
    exact absurd hsub List.not_mem_nil
  | cons sub subs ih =>
    rw [List.forall_mem_cons] at hsubs
    obtain ⟨hoccurs, hrest⟩ := hoccur
    obtain ⟨hle, hlt⟩ := ih hsubs.2 hrest
    have hvalue := not_mem_value hsubs.1
    have hfirst := Net.count_replaceAll_le sub.placeholder hvalue t
    rw [fill_cons]
    refine ⟨hle.trans hfirst, ?_⟩
    rintro ⟨x, hx, hslash⟩
    rcases List.mem_cons.1 hx with rfl | hx
    · exact hle.trans_lt (Net.count_replaceAll_lt hslash hvalue hoccurs)
    · exact (hlt ⟨x, hx, hslash⟩).trans_le hfirst

/-! ## When the structure is kept -/

theorem PathStructureKept.of_filled {path : Text}
    (h : sentSegments path = (segments template).map (fill subs)) :
    PathStructureKept subs template path where
  length := by rw [h, List.length_map]
  literal i segment hsegment hnone := by
    rw [h, List.getElem?_map, hsegment, Option.map_some, fill_of_not_infix hnone]
  filled := h

/-- The path without its leading slash is cut at a query, and dot segments are removed. -/
theorem sentSegments_slash (u : Text) :
    sentSegments ('/' :: u) = removeDots [] ((u.takeWhile isPathChar).splitOn '/') := by
  have htake : ('/' :: u).takeWhile isPathChar = '/' :: u.takeWhile isPathChar :=
    List.takeWhile_cons_of_pos (by decide)
  rw [sentSegments, segments, htake]
  rfl

/-- The segments of a path that reach the upstream as they stand. -/
theorem sentSegments_eq_iff (u : Text) :
    sentSegments ('/' :: u) = u.splitOn '/' ↔
      ∀ segment ∈ u.splitOn '/', isDotSegment segment = false ∧
        ∀ c ∈ segment, isPathChar c = true := by
  have hslash : isPathChar '/' = true := by decide
  rw [sentSegments_slash]
  constructor
  · intro h
    -- The segments that are sent come from the path before the first character that ends it, so
    -- there is no such character.
    have hchars : ∀ segment ∈ u.splitOn '/', ∀ c ∈ segment, isPathChar c = true := by
      intro segment hsegment c hc
      rw [← h] at hsegment
      rcases Net.mem_removeDots hsegment with hnone | hpart | rfl
      · exact absurd hnone List.not_mem_nil
      · have htaken : ∀ x ∈ u.takeWhile isPathChar, isPathChar x = true :=
          fun x hx => List.mem_takeWhile_imp hx
        exact (Net.forall_mem_splitOn hslash).2 htaken segment hpart c hc
      · exact absurd hc List.not_mem_nil
    rw [List.takeWhile_eq_self_iff.2 ((Net.forall_mem_splitOn hslash).1 hchars),
      Net.removeDots_eq_self_iff] at h
    intro segment hsegment
    exact ⟨h segment hsegment, hchars segment hsegment⟩
  · intro h
    have hchars := (Net.forall_mem_splitOn hslash).1 fun segment hsegment =>
      (h segment hsegment).2
    rw [List.takeWhile_eq_self_iff.2 hchars, Net.removeDots_eq_self_iff]
    exact fun segment hsegment => (h segment hsegment).1

/-- No more segments reach the upstream than the path has. -/
theorem length_sentSegments_le (u : Text) :
    (sentSegments ('/' :: u)).length ≤ u.count '/' + 1 := by
  rw [sentSegments_slash]
  apply (Net.length_removeDots_le _ _).trans
  rw [Net.length_splitOn, List.length_nil, Nat.zero_add]
  exact Nat.add_le_add_right ((List.takeWhile_prefix _).sublist.count_le '/') 1

/-- The structure of the path is kept exactly when no placeholder of a given argument has a slash
    in it, and no segment, with its placeholders replaced, is a dot segment or ends the path. -/
theorem pathStructureKept_iff (hsubs : ∀ sub ∈ subs, sub.Encoded)
    (hoccur : Occur subs ('/' :: t)) :
    PathStructureKept subs ('/' :: t) (fill subs ('/' :: t)) ↔
      (∀ sub ∈ subs, '/' ∉ sub.placeholder) ∧
        ∀ segment ∈ segments ('/' :: t), isDotSegment (fill subs segment) = false ∧
          ∀ c ∈ fill subs segment, isPathChar c = true := by
  have hsegments : segments ('/' :: t) = t.splitOn '/' := rfl
  have hcount := (count_fill hsubs hoccur).2
  rw [fill_slash hsubs] at hcount ⊢
  constructor
  · intro hkept
    -- A placeholder with a slash would take segments away, and nothing could bring them back,
    -- since what is put in its place has none.
    have hslash : ∀ sub ∈ subs, '/' ∉ sub.placeholder := by
      intro sub hsub hmem
      have hlt := hcount ⟨sub, hsub, hmem⟩
      have hle := length_sentSegments_le (fill subs t)
      rw [hkept.length, hsegments, Net.length_splitOn] at hle
      simp only [List.count_cons] at hlt
      omega
    have hfilled := hkept.filled
    rw [hsegments, ← splitOn_fill hsubs hslash, sentSegments_eq_iff,
      splitOn_fill hsubs hslash] at hfilled
    refine ⟨hslash, ?_⟩
    intro segment hsegment
    exact hfilled _ (List.mem_map_of_mem hsegment)
  · rintro ⟨hslash, hclean⟩
    apply PathStructureKept.of_filled
    rw [hsegments, ← splitOn_fill hsubs hslash, sentSegments_eq_iff, splitOn_fill hsubs hslash]
    intro segment hsegment
    obtain ⟨original, horiginal, rfl⟩ := List.mem_map.1 hsegment
    exact hclean original horiginal

/-- A mapped path keeps the structure of its template, once it is sent, exactly when no name of a
    path parameter has a slash in it, and no segment of the template becomes, with the encoded
    arguments, a dot segment or has a character that ends the path. -/
theorem path_structure_kept_iff [PyStr] (pathTemplate : String) (rawParameters : Option Json)
    (arguments : JsonObject) (mapped : MappedArguments)
    (hstart : pathTemplate.toList.head? = some '/')
    (hmapped : mapArguments pathTemplate rawParameters arguments = .ok mapped) :
    PathStructureKept (substitutions rawParameters arguments) pathTemplate.toList mapped.path ↔
      (∀ sub ∈ substitutions rawParameters arguments, '/' ∉ sub.placeholder) ∧
        ∀ segment ∈ segments pathTemplate.toList,
          isDotSegment (fill (substitutions rawParameters arguments) segment) = false ∧
            ∀ c ∈ fill (substitutions rawParameters arguments) segment, isPathChar c = true := by
  obtain ⟨hpath, hoccur⟩ := mapArguments_path hmapped
  cases htemplate : pathTemplate.toList with
  | nil =>
    rw [htemplate] at hstart
    cases hstart
  | cons c t =>
    rw [htemplate] at hstart hpath hoccur
    obtain rfl : c = '/' := Option.some.inj hstart
    rw [hpath]
    exact pathStructureKept_iff (fun sub hsub => encoded_of_mem hsub) hoccur

section OrderItems

/-- No list and no dictionary is among the arguments. -/
@[reducible] def scalarPyStr : PyStr := ⟨fun _ => ""⟩

attribute [local instance] scalarPyStr

/-- The parameters of an operation on one order. -/
def orderParameters : Option Json :=
  some (.arr [.obj [("argument_name", .str "id"), ("upstream_name", .str "id"),
    ("location", .str "path"), ("required", .bool true)]])

def orderTemplate : String := "/orders/\x7bid\x7d/items"

theorem path_structure_kept_order :
    PathStructureKept (substitutions orderParameters [("id", .str "a/.. b")]) orderTemplate.toList
      "/orders/a%2F..%20b/items".toList := by
  apply (path_structure_kept_iff orderTemplate orderParameters [("id", .str "a/.. b")]
    { path := "/orders/a%2F..%20b/items".toList } rfl rfl).2
  constructor <;> decide

/-- The argument that names the parent directory addresses another resource. -/
theorem parent_directory_addresses_another_path :
    ¬ ∀ (pathTemplate : String) (rawParameters : Option Json) (arguments : JsonObject)
      (mapped : MappedArguments), pathTemplate.toList.head? = some '/' →
      mapArguments pathTemplate rawParameters arguments = .ok mapped →
      PathStructureKept (substitutions rawParameters arguments) pathTemplate.toList mapped.path := by
  intro h
  have hkept := h orderTemplate orderParameters [("id", .str "..")]
    { path := "/orders/../items".toList } rfl rfl
  exact absurd hkept.length (by decide)

end OrderItems

end NexusMcp
