-- SUMMARY: The provider of embeddings: the request for a batch and the decoding of its response.
import NexusMcp.Credentials.Domain
import NexusMcp.Num.Binary
import NexusMcp.Shared.Json

/-!
# Embedding Vectors

The service answers with a list of items in any order, each with the index of its text. The
client is not part of the model: the provider makes a request for it, and reads the exchange
that it reports.
-/

namespace NexusMcp

/-! ## Floats -/

/-- A value of `float`: one that was decoded, by the text `float.__repr__` gives for it, or the
    integer that one was rounded to. -/
inductive PyFloat where
  | repr (text : String)
  | ofInt (value : Int)
deriving Repr, DecidableEq

/-- `isfinite(value)`. -/
def PyFloat.isFinite : PyFloat → Bool
  | repr text => text ∉ ["nan", "inf", "-inf"]
  | ofInt _ => true

/-- `float(i)` of an integer, unless it is out of range. -/
def floatOfInt (i : Int) : Option PyFloat :=
  (Binary.ofNat 53 1024 i.natAbs).map fun value : Nat => .ofInt (i.sign * value)

/-- The integers that `float` does not take: half a unit in the last place is in their favour. -/
theorem floatOfInt_eq_none {i : Int} :
    floatOfInt i = none ↔ 2 ^ 1024 ≤ i.natAbs + 2 ^ 970 := by
  have hround := @Binary.ofNat_eq_none 53 1024 i.natAbs (by decide) (by decide)
  have hunit : 1024 - 53 - 1 = 970 := rfl
  rw [hunit] at hround
  unfold floatOfInt
  rw [Option.map_eq_none_iff]
  exact hround

/-! ## Vectors -/

structure EmbeddingVectorFields where
  model : String
  dimensions : Int
  values : List PyFloat
deriving Repr, DecidableEq

instance : PostInit EmbeddingVectorFields where
  checks v := [
    nonBlank "embedding model" v.model,
    (v.dimensions ≤ 0 ∨ v.values.length ≠ v.dimensions,
      "embedding vector dimensions did not match values"),
    (¬ ∀ value ∈ v.values, value.isFinite, "embedding vector values must be finite")]

abbrev EmbeddingVector := Checked EmbeddingVectorFields

/-- A vector has as many values as it has dimensions, and they are finite. -/
theorem EmbeddingVector.finite (vector : EmbeddingVector) :
    vector.val.values.length = vector.val.dimensions ∧
      ∀ value ∈ vector.val.values, value.isFinite := by
  have hvalid := vector.property
  simp only [Valid, PostInit.checks, List.forall_mem_cons, List.not_mem_nil, false_implies,
    implies_true, and_true] at hvalid
  obtain ⟨-, hlength, hfinite⟩ := hvalid
  simp only [decide_eq_false_iff_not, not_or, not_not] at hlength hfinite
  exact ⟨hlength.2, hfinite⟩

/-! ## The provider -/

structure SiliconFlowEmbeddingProviderFields where
  apiUrl : String
  model : String
  dimensions : Int
  timeoutSeconds : Rat := 60
  maxBatchSize : Int := 64
deriving Repr, DecidableEq

instance : PostInit SiliconFlowEmbeddingProviderFields where
  checks p := [
    (¬ ("https://".toList <+: p.apiUrl.toList ∨ "http://".toList <+: p.apiUrl.toList),
      "embedding API URL must use http or https"),
    nonBlank "embedding model" p.model,
    (p.dimensions ≤ 0, "embedding dimensions must be positive"),
    (p.timeoutSeconds ≤ 0, "embedding timeout must be positive"),
    (p.maxBatchSize ≤ 0, "embedding max batch size must be positive")]

abbrev SiliconFlowEmbeddingProvider := Checked SiliconFlowEmbeddingProviderFields

/-- What the client is asked to post. -/
structure EmbeddingRequest where
  apiUrl : String
  authorization : String
  model : String
  input : List String
  encodingFormat : String
  dimensions : Int
  timeout : Rat

/-- What the client reports of the exchange. A body that is not JSON has no value. -/
inductive EmbeddingExchange where
  | timedOut
  | networkError
  | raised (name : String)
  | response (statusCode : Nat) (body : Option Json)

def embeddingResponse (message : String) : Exc := .nexus .embeddingResponse message

namespace SiliconFlowEmbeddingProvider

/-! ## Decoding -/

/-- `float(value)`, of a number. -/
def parseValue : Json → Except Exc PyFloat
  | .int i =>
    match floatOfInt i with
    | some value => .ok value
    | none => .error (.other "OverflowError")
  | .float text => .ok (.repr text)
  | _ => .error (embeddingResponse "embedding response contained non-numeric value")

/-- The index and the vector of an item. -/
def parseItem (self : SiliconFlowEmbeddingProvider) : Json → Except Exc (Int × EmbeddingVector)
  | .obj rawItem =>
    match JsonObject.get rawItem "index" with
    | some (.int index) =>
      match JsonObject.get rawItem "embedding" with
      | some (.arr rawVector) => do
        let values ← rawVector.mapM parseValue
        let vector ← (construct {
          model := self.val.model
          dimensions := self.val.dimensions
          values := values }).mapError fun
            | .valueError _ => embeddingResponse "embedding vector validation failed"
            | e => e
        return (index, vector)
      | _ => .error (embeddingResponse "embedding response vector was invalid")
    | _ => .error (embeddingResponse "embedding response index was invalid")
  | _ => .error (embeddingResponse "embedding response item was invalid")

/-- One round of the loop over the items. -/
def addItem (self : SiliconFlowEmbeddingProvider) (byIndex : List (Int × EmbeddingVector))
    (rawItem : Json) : Except Exc (List (Int × EmbeddingVector)) := do
  let (index, vector) ← self.parseItem rawItem
  raiseIf (index ∈ byIndex.map (·.1))
    (embeddingResponse "embedding response index was duplicated")
  return byIndex ++ [(index, vector)]

/-- `set(by_index) == set(range(expected_count))`. -/
def Complete (byIndex : List (Int × EmbeddingVector)) (expectedCount : Nat) : Prop :=
  (∀ index ∈ byIndex.map (·.1), index ∈ (List.range expectedCount).map Int.ofNat) ∧
    ∀ index ∈ (List.range expectedCount).map Int.ofNat, index ∈ byIndex.map (·.1)

instance (byIndex : List (Int × EmbeddingVector)) (expectedCount : Nat) :
    Decidable (Complete byIndex expectedCount) :=
  inferInstanceAs (Decidable (_ ∧ _))

/-- `by_index[index]`. -/
def vectorAt (byIndex : List (Int × EmbeddingVector)) (index : Nat) :
    Except Exc EmbeddingVector :=
  match byIndex.find? (·.1 = Int.ofNat index) with
  | some (_, vector) => .ok vector
  | none => .error (.other "KeyError")

/-- `_parse_vectors`. -/
def parseVectors (self : SiliconFlowEmbeddingProvider) (payload : Json) (expectedCount : Nat) :
    Except Exc (List EmbeddingVector) :=
  match payload with
  | .obj root =>
    match JsonObject.get root "data" with
    | some (.arr rawData) => do
      raiseIf (rawData.length ≠ expectedCount)
        (embeddingResponse "embedding response count did not match request")
      let byIndex ← rawData.foldlM self.addItem []
      raiseIf (¬ Complete byIndex expectedCount)
        (embeddingResponse "embedding response indices were incomplete")
      (List.range expectedCount).mapM (vectorAt byIndex)
    | _ => .error (embeddingResponse "embedding response count did not match request")
  | _ => .error (embeddingResponse "embedding response root was not an object")

/-! ## Embedding a batch -/

/-- What `embed` makes of the exchange. -/
def readExchange (self : SiliconFlowEmbeddingProvider) (expectedCount : Nat) :
    EmbeddingExchange → Except Exc (List EmbeddingVector)
  | .timedOut => .error (.nexus .embeddingUnavailable "embedding provider timed out")
  | .networkError => .error (.nexus .embeddingUnavailable "embedding provider network failure")
  | .raised name => .error (.other name)
  | .response statusCode body => do
    raiseIf (statusCode = 401 ∨ statusCode = 403)
      (.nexus .embeddingAuthentication "embedding provider rejected credential")
    raiseIf (statusCode = 429)
      (.nexus .embeddingRateLimit "embedding provider returned rate limit")
    raiseIf (statusCode ≥ 500)
      (.nexus .embeddingUnavailable ("embedding provider returned HTTP " ++ toString statusCode))
    raiseIf (statusCode ≠ 200)
      (embeddingResponse ("embedding provider returned HTTP " ++ toString statusCode))
    match body with
    | none => .error (embeddingResponse "embedding response was not JSON")
    | some payload => self.parseVectors payload expectedCount

/-- The request for a batch of texts. -/
def request (self : SiliconFlowEmbeddingProvider) (apiKey : SecretValue) (texts : List String) :
    EmbeddingRequest where
  apiUrl := self.val.apiUrl
  authorization := "Bearer " ++ apiKey.val
  model := self.val.model
  input := texts
  encodingFormat := "float"
  dimensions := self.val.dimensions
  timeout := self.val.timeoutSeconds

/-- `SiliconFlowEmbeddingProvider.embed`. -/
def embed (self : SiliconFlowEmbeddingProvider) (apiKey : SecretValue)
    (post : EmbeddingRequest → EmbeddingExchange) (texts : List String) :
    Except Exc (List EmbeddingVector) := do
  valueErrorIf (texts = [] ∨ (texts.length : Int) > self.val.maxBatchSize)
    "embedding batch size was invalid"
  valueErrorIf (∃ text ∈ texts, isBlank text) "embedding text must not be blank"
  self.readExchange texts.length (post (self.request apiKey texts))

end SiliconFlowEmbeddingProvider

end NexusMcp
