-- SUMMARY: What the digests of arguments, schemas and bindings say of their payloads.
import NexusMcp.Connectors.Domain
import NexusMcp.Execution.Domain
import NexusMcp.Shared.CanonicalJson

/-! # Payload Digests -/

namespace NexusMcp

/-! ## Payloads -/

/-- The payload of `calculate_schema_digest`. -/
def schemaPayload (inputSchema : JsonObject) (outputSchema : Option JsonObject) : Json :=
  .obj [("input_schema", .obj inputSchema),
    ("output_schema", (outputSchema.map Json.obj).getD .null)]

/-- The payload of `calculate_binding_digest`. -/
def bindingPayload (binding : ToolBindingFields) : Json :=
  .obj [("binding_type", .str binding.bindingType.value),
    ("upstream_service_id", .str binding.upstreamServiceId),
    ("binding_config", .obj binding.bindingConfig)]

/-- Two dictionaries are equal as JSON. -/
def JsonObject.Same (fields fields' : JsonObject) : Prop := Json.Same (.obj fields) (.obj fields')

/-- A dictionary without floats, at every depth. -/
def JsonObject.Exact (fields : JsonObject) : Prop := Json.Exact (.obj fields)

theorem exact_schemaPayload {inputSchema : JsonObject} {outputSchema : Option JsonObject}
    (hinput : inputSchema.Exact) (houtput : ∀ o ∈ outputSchema, JsonObject.Exact o) :
    (schemaPayload inputSchema outputSchema).Exact := by
  refine ⟨by simp, hinput, ?_, trivial⟩
  cases outputSchema with
  | none => trivial
  | some o => exact houtput o rfl

theorem same_str_iff {s t : String} : Json.Same (.str s) (.str t) ↔ s = t := by
  constructor
  · intro h
    cases h
    rfl
  · rintro rfl
    exact .str s

theorem same_schemaPayload_iff {inputSchema inputSchema' : JsonObject}
    {outputSchema outputSchema' : Option JsonObject} :
    (schemaPayload inputSchema outputSchema).Same (schemaPayload inputSchema' outputSchema') ↔
      inputSchema.Same inputSchema' ∧
        Option.Rel JsonObject.Same outputSchema outputSchema' := by
  have houtput : Json.Same ((outputSchema.map Json.obj).getD .null)
      ((outputSchema'.map Json.obj).getD .null) ↔
        Option.Rel JsonObject.Same outputSchema outputSchema' := by
    cases outputSchema with
    | none =>
      cases outputSchema' with
      | none => exact iff_of_true .null .none
      | some o => exact iff_of_false (fun h => by cases h) (fun h => by cases h)
    | some o =>
      cases outputSchema' with
      | none => exact iff_of_false (fun h => by cases h) (fun h => by cases h)
      | some o' =>
        constructor
        · intro h
          exact .some h
        · intro h
          cases h with
          | some h => exact h
  refine (same_obj_iff_of_keys (by rfl) (by simp)).trans ?_
  rw [sameFields_cons_iff, sameFields_cons_iff, houtput]
  simp only [true_and, JsonObject.Same]
  exact and_congr_right fun _ => and_iff_left .nil

theorem exact_bindingPayload {binding : ToolBindingFields} (h : binding.bindingConfig.Exact) :
    (bindingPayload binding).Exact :=
  ⟨by simp, trivial, trivial, h, trivial⟩

theorem bindingTypeValue_injective {t t' : ToolBindingType} (h : t.value = t'.value) : t = t' := by
  revert h
  cases t <;> cases t' <;> decide

theorem same_bindingPayload_iff {binding binding' : ToolBindingFields} :
    (bindingPayload binding).Same (bindingPayload binding') ↔
      binding.bindingType = binding'.bindingType ∧
        binding.upstreamServiceId = binding'.upstreamServiceId ∧
        binding.bindingConfig.Same binding'.bindingConfig := by
  refine (same_obj_iff_of_keys (by rfl) (by simp)).trans ?_
  rw [sameFields_cons_iff, sameFields_cons_iff, sameFields_cons_iff, same_str_iff, same_str_iff]
  simp only [true_and, JsonObject.Same]
  constructor
  · rintro ⟨htype, hservice, hconfig, -⟩
    exact ⟨bindingTypeValue_injective htype, hservice, hconfig⟩
  · rintro ⟨htype, hservice, hconfig⟩
    exact ⟨congrArg _ htype, hservice, hconfig, .nil⟩

/-! ## Digests -/

/-- The canonical text of a value determines it up to the order of keys. So do, as far as SHA-256
    has no collisions on the values met, the digests of arguments, schemas and bindings. -/
theorem canonical_encoding_faithful [Sha256] :
    (∀ x y : Json, x.Exact → y.Exact → ∃ text, x.canonical = .ok text ∧
      (y.canonical = .ok text ↔ x.Same y)) ∧
    ∀ values : Set Json, CollisionFree values →
      (∀ command command' : CallToolCommand,
        Json.obj command.val.arguments ∈ values → Json.obj command'.val.arguments ∈ values →
        command.val.arguments.Exact → command'.val.arguments.Exact →
        ∃ digest, command.argumentsDigest = .ok digest ∧
          (command'.argumentsDigest = .ok digest ↔
            command.val.arguments.Same command'.val.arguments)) ∧
      (∀ (inputSchema inputSchema' : JsonObject) (outputSchema outputSchema' : Option JsonObject),
        schemaPayload inputSchema outputSchema ∈ values →
        schemaPayload inputSchema' outputSchema' ∈ values →
        inputSchema.Exact → inputSchema'.Exact →
        (∀ o ∈ outputSchema, JsonObject.Exact o) → (∀ o ∈ outputSchema', JsonObject.Exact o) →
        ∃ digest, calculateSchemaDigest inputSchema outputSchema = .ok digest ∧
          (calculateSchemaDigest inputSchema' outputSchema' = .ok digest ↔
            inputSchema.Same inputSchema' ∧
              Option.Rel JsonObject.Same outputSchema outputSchema')) ∧
      (∀ binding binding' : ToolBindingFields,
        bindingPayload binding ∈ values → bindingPayload binding' ∈ values →
        binding.bindingConfig.Exact → binding'.bindingConfig.Exact →
        ∃ digest, calculateBindingDigest binding = .ok digest ∧
          (calculateBindingDigest binding' = .ok digest ↔
            binding.bindingType = binding'.bindingType ∧
              binding.upstreamServiceId = binding'.upstreamServiceId ∧
              binding.bindingConfig.Same binding'.bindingConfig)) := by
  refine ⟨?_, fun values hfree => ⟨?_, ?_, ?_⟩⟩
  case refine_1 =>
    intro x y hx hy
    refine ⟨_, canonical_eq hx, ?_⟩
    rw [← canonical_eq_iff hx hy, canonical_eq hx]
    exact eq_comm
  case refine_2 =>
    intro command command' hmem hmem' hexact hexact'
    exact canonicalJsonDigest_eq_iff hfree hmem hmem' hexact hexact'
  case refine_3 =>
    intro inputSchema inputSchema' outputSchema outputSchema' hmem hmem' hinput hinput' houtput
      houtput'
    -- The schemas are digested as one payload.
    rw [← same_schemaPayload_iff]
    exact canonicalJsonDigest_eq_iff hfree hmem hmem' (exact_schemaPayload hinput houtput)
      (exact_schemaPayload hinput' houtput')
  case refine_4 =>
    intro binding binding' hmem hmem' hexact hexact'
    -- And so is a binding, with its type and its upstream.
    rw [← same_bindingPayload_iff]
    exact canonicalJsonDigest_eq_iff hfree hmem hmem' (exact_bindingPayload hexact)
      (exact_bindingPayload hexact')

section Orders

/-- An order is read in full. -/
def orderText : String := "\x7b\"id\":7,\"view\":\"full\"\x7d"

/-- SHA-256 on the texts of two orders. -/
@[reducible] def orderSha256 : Sha256 where
  hexdigest text := if text = orderText
    then "ff748409a27aacea158795c15789c157a325c1511f6421953162644e9513d621"
    else "9fe0aac1bab2920bd2357aec30ed2e7f62d276e6443a31d345350c888f6fb472"

attribute [local instance] orderSha256

def orderFields (arguments : JsonObject) : CallToolCommandFields where
  context := { requestId := "request", traceId := "trace", tenantId := "tenant",
               principalId := "alice", authnMethod := "key" }
  toolName := "orders.get"
  arguments := arguments

theorem valid_orderFields (arguments : JsonObject) : Valid (orderFields arguments) := by
  have h : Valid (orderFields []) := by decide
  exact h

def orderCall (arguments : JsonObject) : CallToolCommand :=
  ⟨orderFields arguments, valid_orderFields arguments⟩

/-- The arguments of the calls: two for one order, and one for another. -/
def orderArguments : Set Json :=
  {.obj [("id", .int 7), ("view", .str "full")], .obj [("view", .str "full"), ("id", .int 7)],
    .obj [("id", .int 8), ("view", .str "full")]}

theorem collisionFree_orderArguments : CollisionFree orderArguments := by
  have htexts : ∀ x ∈ orderArguments, x.canonical = .ok orderText ∨
      x.canonical = .ok "\x7b\"id\":8,\"view\":\"full\"\x7d" := by
    rintro x (rfl | rfl | rfl)
    · exact .inl rfl
    · exact .inl rfl
    · exact .inr rfl
  intro x hx y hy text text' htext htext' hdigest
  obtain h | h := htexts x hx <;> obtain h' | h' := htexts y hy <;> rw [h] at htext <;>
    rw [h'] at htext' <;> cases htext <;> cases htext'
  · rfl
  · exact absurd hdigest (by decide)
  · exact absurd hdigest (by decide)
  · rfl

/-- The order of the keys does not change the digest, another order does. -/
theorem canonical_encoding_faithful_orders :
    ∃ digest, (orderCall [("id", .int 7), ("view", .str "full")]).argumentsDigest = .ok digest ∧
      (orderCall [("view", .str "full"), ("id", .int 7)]).argumentsDigest = .ok digest ∧
      (orderCall [("id", .int 8), ("view", .str "full")]).argumentsDigest ≠ .ok digest := by
  have hexact : JsonObject.Exact [("id", .int 7), ("view", .str "full")] :=
    ⟨by decide, trivial, trivial, trivial⟩
  have hcalls := (canonical_encoding_faithful.2 orderArguments collisionFree_orderArguments).1
  obtain ⟨digest, hdigest, hreordered⟩ :=
    hcalls (orderCall [("id", .int 7), ("view", .str "full")])
      (orderCall [("view", .str "full"), ("id", .int 7)]) (.inl rfl) (.inr (.inl rfl)) hexact
      ⟨by decide, trivial, trivial, trivial⟩
  obtain ⟨digest', hdigest', hother⟩ :=
    hcalls (orderCall [("id", .int 7), ("view", .str "full")])
      (orderCall [("id", .int 8), ("view", .str "full")]) (.inl rfl) (.inr (.inr rfl)) hexact
      ⟨by decide, trivial, trivial, trivial⟩
  obtain rfl : digest = digest' := Except.ok.inj (hdigest.symm.trans hdigest')
  have hself : Json.SameFields [("id", .int 7), ("view", .str "full")]
      [("id", .int 7), ("view", .str "full")] :=
    .cons (.int 7) (.cons (.str "full") .nil)
  refine ⟨digest, hdigest, hreordered.2 (.obj hself (.swap _ _ [])), ?_⟩
  intro hsame
  obtain ⟨ordered, hfields, hperm⟩ := same_obj_iff.1 (hother.1 hsame)
  cases hfields with
  | cons hid _ =>
    cases hid
    have hmem := hperm.subset List.mem_cons_self
    revert hmem
    simp [orderCall, orderFields]

end Orders

end NexusMcp
