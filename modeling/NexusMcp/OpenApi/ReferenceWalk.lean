-- SUMMARY: Resolving references: when it refuses a document, and that its result is final.
import NexusMcp.OpenApi.SchemaResolution

/-!
# The Walk Through References

`_resolve_node` walks from a node into the items of an array, the values of an object, the
target of a reference and the keys beside it. It refuses the node exactly where this walk
meets something that it cannot resolve, and what it returns is resolved once and for all.
-/

namespace NexusMcp

namespace OpenApiParser

variable {document : JsonObject} {depth : Nat} {stack : List String} {v r : Json}

/-! ## The walk -/

/-- A node, with the references that are being expanded. -/
structure Visit where
  stack : List String
  node : Json

/-- One call of `_resolve_node` makes another. The values of `example` and `examples` are not
    visited. -/
inductive Step (document : JsonObject) : Visit → Visit → Prop
  | item {stack : List String} {items : List Json} {item : Json} : item ∈ items →
      Step document ⟨stack, .arr items⟩ ⟨stack, item⟩
  | field {stack : List String} {fields : JsonObject} {field : String × Json} :
      getOrNull fields "$ref" = .null → field ∈ fields → field.1 ∉ droppedKeys →
      Step document ⟨stack, .obj fields⟩ ⟨stack, field.2⟩
  | target {stack : List String} {fields : JsonObject} {reference : String} {target : Json} :
      getOrNull fields "$ref" = .str reference →
      resolvePointer document reference = .ok target →
      Step document ⟨stack, .obj fields⟩ ⟨stack ++ [reference], target⟩
  | siblings {stack : List String} {fields : JsonObject} {reference : String} :
      getOrNull fields "$ref" = .str reference →
      Step document ⟨stack, .obj fields⟩ ⟨stack, .obj (fields.filter (·.1 ≠ "$ref"))⟩

/-- A walk of some number of steps. -/
inductive Walk (document : JsonObject) : Nat → Visit → Visit → Prop
  | here (visit : Visit) : Walk document 0 visit visit
  | step {n : Nat} {visit next last : Visit} : Step document visit next →
      Walk document n next last → Walk document (n + 1) visit last

/-- What cannot be resolved, at a visit that lies `n` steps deep. -/
inductive Unresolvable (document : JsonObject) (n : Nat) : Visit → Prop
  /-- The nesting of containers and references is deeper than the bound. -/
  | deep (visit : Visit) : maxRefDepth < n → Unresolvable document n visit
  | notLocal {stack : List String} {fields : JsonObject} :
      getOrNull fields "$ref" ≠ .null →
      (∀ reference, getOrNull fields "$ref" = .str reference → ¬ IsLocal reference) →
      Unresolvable document n ⟨stack, .obj fields⟩
  /-- The reference leads back to one that is being expanded. -/
  | cyclic {stack : List String} {fields : JsonObject} {reference : String} :
      getOrNull fields "$ref" = .str reference → reference ∈ stack →
      Unresolvable document n ⟨stack, .obj fields⟩
  | missing {stack : List String} {fields : JsonObject} {reference : String} {e : Exc} :
      getOrNull fields "$ref" = .str reference → resolvePointer document reference = .error e →
      Unresolvable document n ⟨stack, .obj fields⟩
  | notMapping {stack : List String} {fields : JsonObject} {reference : String} {target r : Json} :
      getOrNull fields "$ref" = .str reference → resolvePointer document reference = .ok target →
      resolveNode document (maxRefDepth - n) (stack ++ [reference]) target = .ok r →
      (∀ resolved, r ≠ .obj resolved) →
      Unresolvable document n ⟨stack, .obj fields⟩

/-! ## One call -/

theorem mapM_eq_error {α β : Type} {f : α → Except Exc β} {l : List α} {e : Exc}
    (h : l.mapM f = .error e) : ∃ a ∈ l, f a = .error e := by
  induction l with
  | nil => cases h
  | cons a l ih =>
    rw [List.mapM_cons, bind_eq_error] at h
    obtain h | ⟨b, -, h⟩ := h
    · exact ⟨a, List.mem_cons_self, h⟩
    · obtain h | ⟨bs, -, h⟩ := bind_eq_error.1 h
      · obtain ⟨a', ha', h⟩ := ih h
        exact ⟨a', List.mem_cons_of_mem a ha', h⟩
      · cases h

/-- What `_resolve_node` raises for a document that it refuses. -/
inductive DocumentError : Exc → Prop where
  | invalid (message : String) : DocumentError (openApiDocumentInvalid message)
  | unsupported (message : String) : DocumentError (openApiFeatureUnsupported message)

/-- A target that is missing makes the document invalid. -/
theorem documentError_of_resolvePointer {reference : String} {e : Exc}
    (h : resolvePointer document reference = .error e) : DocumentError e := by
  obtain ⟨current, part, h⟩ := foldlM_eq_error h
  have hnotFound : DocumentError e ∨ ∃ value, (.ok value : Except Exc Json) = .error e := by
    split at h
    · split at h
      · exact .inr ⟨_, h⟩
      · cases h
        exact .inl (.invalid _)
    · cases h
      exact .inl (.invalid _)
  obtain hinvalid | ⟨_, hok⟩ := hnotFound
  · exact hinvalid
  · cases hok

theorem requireMapping_eq_error {value : Json} {fieldName : String} {e : Exc}
    (h : requireMapping value fieldName = .error e) :
    DocumentError e ∧ ∀ fields, value ≠ .obj fields := by
  unfold requireMapping at h
  split at h
  · cases h
  · next hobj =>
    cases h
    exact ⟨.invalid _, hobj⟩

/-- A refused object cannot be resolved itself, or a call for one of its parts is refused. -/
theorem resolveNode_obj_eq_error {fields : JsonObject} {e : Exc}
    (h : resolveNode document (depth + 1) stack (.obj fields) = .error e) :
    (∃ next, Step document ⟨stack, .obj fields⟩ next ∧
      resolveNode document depth next.stack next.node = .error e) ∨
    DocumentError e ∧ ∀ n, n + depth = maxRefDepth →
      Unresolvable document n ⟨stack, .obj fields⟩ := by
  rw [resolveNode] at h
  split at h
  · next href =>
    obtain h | ⟨_, _, h⟩ := bind_eq_error.1 h
    · obtain ⟨field, hfield, h⟩ := mapM_eq_error h
      obtain ⟨hmem, hkept⟩ := List.mem_filter.1 hfield
      obtain h | ⟨_, _, h⟩ := bind_eq_error.1 h
      · exact .inl ⟨_, .field href hmem (by simpa using hkept), h⟩
      · cases h
    · cases h
  · next reference href =>
    rw [raiseIf_bind_eq_error] at h
    obtain ⟨hlocal, rfl⟩ | ⟨hlocal, h⟩ := h
    · refine .inr ⟨.unsupported _, fun n _ => .notLocal (by simp [href]) ?_⟩
      intro reference' hstr
      rw [href] at hstr
      cases hstr
      exact hlocal
    rw [raiseIf_bind_eq_error] at h
    obtain ⟨hcyclic, rfl⟩ | ⟨hfresh, h⟩ := h
    · exact .inr ⟨.unsupported _, fun n _ => .cyclic href hcyclic⟩
    obtain h | ⟨target, htarget, h⟩ := bind_eq_error.1 h
    · exact .inr ⟨documentError_of_resolvePointer h, fun n _ => .missing href h⟩
    obtain h | ⟨node, hnode, h⟩ := bind_eq_error.1 h
    · exact .inl ⟨_, .target href htarget, h⟩
    obtain h | ⟨resolved, hresolved, h⟩ := bind_eq_error.1 h
    · obtain ⟨hinvalid, hnode'⟩ := requireMapping_eq_error h
      refine .inr ⟨hinvalid, fun n hn => .notMapping href htarget ?_ hnode'⟩
      rw [← hn, Nat.add_sub_cancel_left]
      exact hnode
    obtain h | ⟨rest, hrest, h⟩ := bind_eq_error.1 h
    · exact .inl ⟨_, .siblings href, h⟩
    -- The keys beside a reference make an object, so they can be put over the target.
    obtain ⟨siblings, rfl⟩ := obj_of_resolve hrest
    cases h
  · next hnull hstr =>
    cases h
    refine .inr ⟨.unsupported _, fun n _ => .notLocal hnull ?_⟩
    intro reference href
    exact absurd href (hstr reference)

/-! ## Where a node is refused -/

/-- A refused call stands at something that cannot be resolved, or makes a call that is refused. -/
theorem resolveNode_eq_error {visit : Visit} {e : Exc}
    (h : resolveNode document (depth + 1) visit.stack visit.node = .error e) :
    (∃ next, Step document visit next ∧
      resolveNode document depth next.stack next.node = .error e) ∨
    DocumentError e ∧ ∀ n, n + depth = maxRefDepth → Unresolvable document n visit := by
  obtain ⟨stack, v⟩ := visit
  cases v with
  | obj fields => exact resolveNode_obj_eq_error h
  | arr items =>
    rw [resolveNode] at h
    obtain h | ⟨_, _, h⟩ := bind_eq_error.1 h
    · obtain ⟨item, hitem, h⟩ := mapM_eq_error h
      exact .inl ⟨_, .item hitem, h⟩
    · cases h
  | null | bool | int | float | str => cases h

/-- A node is refused for what some walk from it meets, with one of the two document errors. -/
theorem walk_of_error {n : Nat} (visit : Visit) {e : Exc} (hn : n + depth = maxRefDepth + 1)
    (h : resolveNode document depth visit.stack visit.node = .error e) :
    DocumentError e ∧
      ∃ m last, Walk document m visit last ∧ Unresolvable document (n + m) last := by
  induction depth generalizing n visit with
  | zero =>
    cases h
    exact ⟨.unsupported _, 0, visit, .here visit, .deep visit (by omega)⟩
  | succ depth ih =>
    obtain ⟨next, hstep, hnext⟩ | ⟨he, hunresolvable⟩ := resolveNode_eq_error h
    · obtain ⟨he, m, last, hwalk, hlast⟩ := ih next (n := n + 1) (by omega) hnext
      refine ⟨he, m + 1, last, .step hstep hwalk, ?_⟩
      rwa [Nat.add_right_comm, Nat.add_assoc] at hlast
    · exact ⟨he, 0, visit, .here visit, hunresolvable n (by omega)⟩

/-- A node that is resolved has all its parts resolved. -/
theorem resolveNode_of_step {visit next : Visit} (hstep : Step document visit next)
    (h : resolveNode document (depth + 1) visit.stack visit.node = .ok r) :
    ∃ r', resolveNode document depth next.stack next.node = .ok r' := by
  cases hstep with
  | item hitem =>
    obtain ⟨rs, rfl, hrs⟩ := resolveNode_arr h
    obtain ⟨r', -, hr'⟩ := exists_of_forall₂_mem hrs.flip hitem
    exact ⟨r', hr'⟩
  | @field stack fields field href hfield hkept =>
    obtain ⟨-, rs, rfl, hrs⟩ | ⟨reference, -, -, -, hstr, -⟩ := resolveNode_obj_eq_ok.1 h
    · have hmem : field ∈ fields.filter (·.1 ∉ droppedKeys) :=
        List.mem_filter.2 ⟨hfield, by simpa using hkept⟩
      obtain ⟨g, -, -, hg⟩ := exists_of_forall₂_mem hrs.flip hmem
      exact ⟨g.2, hg⟩
    · rw [href] at hstr
      cases hstr
  | target href htarget =>
    obtain ⟨hnull, -⟩ | ⟨reference, target, resolved, -, hstr, -, -, htarget', hnode, -⟩ :=
      resolveNode_obj_eq_ok.1 h
    · rw [href] at hnull
      cases hnull
    · obtain rfl := Json.str.inj (href.symm.trans hstr)
      obtain rfl := Except.ok.inj (htarget.symm.trans htarget')
      exact ⟨_, hnode⟩
  | siblings href =>
    obtain ⟨hnull, -⟩ | ⟨reference, -, -, siblings, -, -, -, -, -, hrest, -⟩ :=
      resolveNode_obj_eq_ok.1 h
    · rw [href] at hnull
      cases hnull
    · exact ⟨_, hrest⟩

/-- A node that is resolved is not itself unresolvable. -/
theorem not_unresolvable {n : Nat} {visit : Visit} (hn : n + depth = maxRefDepth + 1)
    (h : resolveNode document depth visit.stack visit.node = .ok r) :
    ¬ Unresolvable document n visit := by
  cases depth with
  | zero => cases h
  | succ depth =>
  intro hunresolvable
  cases hunresolvable with
  | deep _ hdeep => omega
  | notLocal href hlocal =>
    obtain ⟨hnull, -⟩ | ⟨reference, -, -, -, hstr, hlocal', -⟩ := resolveNode_obj_eq_ok.1 h
    · exact href hnull
    · exact hlocal reference hstr hlocal'
  | cyclic href hcyclic =>
    obtain ⟨hnull, -⟩ | ⟨reference, -, -, -, hstr, -, hfresh, -⟩ := resolveNode_obj_eq_ok.1 h
    · rw [href] at hnull
      cases hnull
    · obtain rfl := Json.str.inj (href.symm.trans hstr)
      exact hfresh hcyclic
  | missing href hmissing =>
    obtain ⟨hnull, -⟩ | ⟨reference, _, -, -, hstr, -, -, htarget, -⟩ := resolveNode_obj_eq_ok.1 h
    · rw [href] at hnull
      cases hnull
    · obtain rfl := Json.str.inj (href.symm.trans hstr)
      rw [hmissing] at htarget
      cases htarget
  | notMapping href htarget hnode hobj =>
    obtain ⟨hnull, -⟩ | ⟨reference, _, resolved, -, hstr, -, -, htarget', hnode', -⟩ :=
      resolveNode_obj_eq_ok.1 h
    · rw [href] at hnull
      cases hnull
    · obtain rfl := Json.str.inj (href.symm.trans hstr)
      obtain rfl := Except.ok.inj (htarget.symm.trans htarget')
      -- The walk resolves the target at the depth that is left here.
      have hdepth : maxRefDepth - n = depth := by omega
      rw [hdepth, hnode'] at hnode
      exact hobj resolved (Except.ok.inj hnode).symm

/-- A node from which a walk meets something that cannot be resolved is refused. -/
theorem refused_of_walk {m n : Nat} {visit last : Visit} (hwalk : Walk document m visit last)
    (hlast : Unresolvable document (n + m) last) (hn : n + depth = maxRefDepth + 1) :
    ∀ r, resolveNode document depth visit.stack visit.node ≠ .ok r := by
  induction hwalk generalizing n depth with
  | here visit =>
    intro r h
    exact not_unresolvable hn h hlast
  | @step m visit next last hstep _ ih =>
    intro r h
    cases depth with
    | zero => cases h
    | succ depth =>
      obtain ⟨r', hnext⟩ := resolveNode_of_step hstep h
      have hlast' : Unresolvable document (n + 1 + m) last := by
        rwa [Nat.add_right_comm, Nat.add_assoc]
      exact ih hlast' (by omega) r' hnext

/-! ## The result is final -/

/-- More depth does not change what is resolved. -/
theorem resolveNode_succ (h : resolveNode document depth stack v = .ok r) :
    resolveNode document (depth + 1) stack v = .ok r := by
  induction depth generalizing stack v r with
  | zero => cases h
  | succ depth ih =>
  cases v with
  | arr items =>
    obtain ⟨rs, rfl, hrs⟩ := resolveNode_arr h
    rw [resolveNode, mapM_eq_ok.2 (hrs.imp fun _ _ hr => ih hr)]
    rfl
  | obj fields =>
    refine resolveNode_obj_eq_ok.2 ?_
    obtain ⟨href, rs, rfl, hrs⟩ | ⟨reference, target, resolved, siblings, href, hlocal, hfresh,
      htarget, hnode, hrest, rfl⟩ := resolveNode_obj_eq_ok.1 h
    · exact .inl ⟨href, rs, rfl, hrs.imp fun _ _ hr => ⟨hr.1, ih hr.2⟩⟩
    · exact .inr ⟨reference, target, resolved, siblings, href, hlocal, hfresh, htarget, ih hnode,
        ih hrest, rfl⟩
  | null | bool | int | float | str =>
    cases h
    rfl

theorem filter_of_plain {fields : JsonObject} (h : Plain (.obj fields)) :
    fields.filter (·.1 ∉ droppedKeys) = fields := by
  rw [Plain, plainFields_iff] at h
  exact List.filter_eq_self.2 fun f hf => by simpa using (h.2 f hf).1

/-- A plain object is resolved to itself when its values are. -/
theorem resolveNode_plain_obj {fields : JsonObject} (hplain : Plain (.obj fields))
    (h : ∀ f ∈ fields, resolveNode document depth stack f.2 = .ok f.2) :
    resolveNode document (depth + 1) stack (.obj fields) = .ok (.obj fields) := by
  refine resolveNode_obj_eq_ok.2 (.inl ⟨hplain.1, fields, rfl, ?_⟩)
  rw [filter_of_plain hplain, List.forall₂_same]
  exact fun f hf => ⟨rfl, h f hf⟩

theorem values_of_plain_obj {fields : JsonObject} (hplain : Plain (.obj fields))
    (h : resolveNode document depth stack (.obj fields) = .ok (.obj fields)) :
    ∀ f ∈ fields, resolveNode document depth stack f.2 = .ok f.2 := by
  cases depth with
  | zero => cases h
  | succ depth =>
  obtain ⟨-, rs, hrs, hvalues⟩ | ⟨reference, -, -, -, hstr, -⟩ := resolveNode_obj_eq_ok.1 h
  · obtain rfl := Json.obj.inj hrs
    rw [filter_of_plain hplain, List.forall₂_same] at hvalues
    exact fun f hf => resolveNode_succ (hvalues f hf).2
  · rw [hplain.1] at hstr
    cases hstr

/-- What was resolved is resolved again to itself, whatever is being expanded. -/
theorem resolveNode_resolved (h : resolveNode document depth stack v = .ok r)
    (stack' : List String) : resolveNode document depth stack' r = .ok r := by
  have hplain := plain_of_resolveNode h
  induction depth generalizing stack v r with
  | zero => cases h
  | succ depth ih =>
  cases v with
  | arr items =>
    obtain ⟨rs, rfl, hrs⟩ := resolveNode_arr h
    have hitems : ∀ r ∈ rs, resolveNode document depth stack' r = .ok r := by
      intro r hr
      obtain ⟨item, -, hitem⟩ := exists_of_forall₂_mem hrs hr
      exact ih hitem (plain_of_resolveNode hitem)
    rw [resolveNode, mapM_eq_ok.2 (List.forall₂_same.2 hitems)]
    rfl
  | obj fields =>
    obtain ⟨-, rs, rfl, hrs⟩ | ⟨_, _, resolved, siblings, -, -, -, -, hnode, hrest, rfl⟩ :=
      resolveNode_obj_eq_ok.1 h
    · refine resolveNode_plain_obj hplain fun g hg => ?_
      obtain ⟨f, -, -, hf⟩ := exists_of_forall₂_mem hrs hg
      exact ih hf (plain_of_resolveNode hf)
    · -- The target and the keys beside the reference were resolved to themselves, one level below.
      have hresolved := plain_of_resolveNode hnode
      have hsiblings := plain_of_resolveNode hrest
      refine resolveNode_plain_obj hplain fun f hf => ?_
      obtain hf | hf := mem_merge hf
      · exact values_of_plain_obj hresolved (ih hnode hresolved) f hf
      · exact values_of_plain_obj hsiblings (ih hrest hsiblings) f hf
  | null | bool | int | float | str =>
    cases h
    rfl

/-- Resolving a node ends with one of two document errors or with a value that has no reference
    and is resolved to itself; it is refused exactly when a walk from it meets a reference that
    leads back, is not local, has no target or no object for a target, or goes too deep. -/
theorem resolution_normalises (document : JsonObject) (value : Json) :
    ((∃ e, resolve document value = .error e ∧ DocumentError e) ∨
      ∃ resolved, resolve document value = .ok resolved ∧ Plain resolved ∧
        resolve document resolved = .ok resolved) ∧
    ((∃ e, resolve document value = .error e) ↔
      ∃ n last, Walk document n ⟨[], value⟩ last ∧ Unresolvable document n last) := by
  have hstart : 0 + (maxRefDepth + 1) = maxRefDepth + 1 := Nat.zero_add _
  refine ⟨?_, ?_, ?_⟩
  case refine_1 =>
    cases h : resolve document value with
    | error e => exact .inl ⟨e, rfl, (walk_of_error ⟨[], value⟩ hstart h).1⟩
    | ok resolved =>
      exact .inr ⟨resolved, rfl, plain_of_resolveNode h, resolveNode_resolved h []⟩
  case refine_2 =>
    rintro ⟨e, h⟩
    obtain ⟨-, n, last, hwalk, hlast⟩ := walk_of_error ⟨[], value⟩ hstart h
    exact ⟨n, last, hwalk, by rwa [Nat.zero_add] at hlast⟩
  case refine_3 =>
    rintro ⟨n, last, hwalk, hlast⟩
    cases h : resolve document value with
    | error e => exact ⟨e, rfl⟩
    | ok resolved =>
      exact absurd h (refused_of_walk hwalk (by rwa [Nat.zero_add]) hstart resolved)

/-! ## What is not visited -/

/-- A value that stands in another one, at any depth and under any key. -/
inductive Subvalue : Json → Json → Prop
  | refl (v : Json) : Subvalue v v
  | item {items : List Json} {item v : Json} : item ∈ items → Subvalue item v →
      Subvalue (.arr items) v
  | field {fields : JsonObject} {field : String × Json} {v : Json} : field ∈ fields →
      Subvalue field.2 v → Subvalue (.obj fields) v

/-- A reference out of the document. -/
def remotePet : JsonObject := [("$ref", .str "http://elsewhere/pet")]

/-- A reference that is not local goes unnoticed in the value of `example`. -/
theorem example_not_visited :
    resolve [] (.obj [("example", .obj remotePet)]) = .ok (.obj []) ∧
    ¬ ∀ (document : JsonObject) (value : Json) (fields : JsonObject) (reference : String),
      Subvalue value (.obj fields) → getOrNull fields "$ref" = .str reference →
      ¬ IsLocal reference → ∃ e, resolve document value = .error e := by
  have hresolve : resolve [] (.obj [("example", .obj remotePet)]) = .ok (.obj []) := rfl
  refine ⟨hresolve, fun h => ?_⟩
  have hwithin : Subvalue (.obj [("example", .obj remotePet)]) (.obj remotePet) :=
    .field (List.mem_singleton_self ("example", Json.obj remotePet)) (.refl _)
  obtain ⟨e, he⟩ := h [] _ remotePet "http://elsewhere/pet" hwithin rfl
    (by unfold IsLocal; decide)
  rw [hresolve] at he
  cases he

end OpenApiParser

end NexusMcp
