-- SUMMARY: What the decoding of embedding vectors returns, and when an exception escapes it.
import NexusMcp.ToolSearch.SiliconFlow
import Mathlib.Data.List.Perm.Basic

/-!
# Decoding of Embedding Vectors

The indices of a response that is accepted are those of the texts, each once, so the order of
its items does not matter. The values are converted before they are validated, and `float`
refuses an integer that is too large with an exception that nothing catches.
-/

namespace NexusMcp

theorem mapM_eq_error {ε α β : Type} {f : α → Except ε β} {l : List α} {e : ε} :
    l.mapM f = .error e ↔ ∃ before a after, l = before ++ a :: after ∧
      (∀ b ∈ before, ∃ x, f b = .ok x) ∧ f a = .error e := by
  induction l with
  | nil =>
    constructor
    · nofun
    · rintro ⟨before, a, after, hl, -⟩
      simp at hl
  | cons a l ih =>
    rw [List.mapM_cons]
    cases ha : f a with
    | error e' =>
      constructor
      · intro h
        cases h
        exact ⟨[], a, l, rfl, nofun, ha⟩
      · rintro ⟨_ | ⟨b, before⟩, c, after, hl, hbefore, hc⟩
        · cases hl
          rw [ha] at hc
          cases hc
          rfl
        · cases hl
          obtain ⟨x, hx⟩ := hbefore a (.head _)
          rw [ha] at hx
          cases hx
    | ok x =>
      -- The head succeeds, so the error is one of the tail.
      have hrest : (do let bs ← l.mapM f; pure (x :: bs)) = Except.error e ↔
          l.mapM f = .error e := by
        cases l.mapM f with
        | ok bs => exact ⟨nofun, nofun⟩
        | error e' => exact Iff.rfl
      refine hrest.trans (ih.trans ?_)
      constructor
      · rintro ⟨before, b, after, rfl, hbefore, hb⟩
        refine ⟨a :: before, b, after, rfl, ?_, hb⟩
        rintro c (_ | ⟨_, hc⟩)
        · exact ⟨x, ha⟩
        · exact hbefore c hc
      · rintro ⟨_ | ⟨b, before⟩, c, after, hl, hbefore, hc⟩
        · cases hl
          rw [ha] at hc
          cases hc
        · cases hl
          exact ⟨before, c, after, rfl, fun d hd => hbefore d (.tail _ hd), hc⟩

namespace SiliconFlowEmbeddingProvider

variable {self : SiliconFlowEmbeddingProvider} {item payload : Json} {index : Int}
  {vector : EmbeddingVector} {data : List Json} {parsed : List (Int × EmbeddingVector)}
  {expectedCount : Nat} {e : Exc}

/-! ## Items -/

/-- The vector is the embedding of an item with the index. -/
structure Embeds (provider : SiliconFlowEmbeddingProvider) (item : Json) (index : Int)
    (vector : EmbeddingVector) : Prop where
  fields : ∃ fields rawVector, item = .obj fields ∧ JsonObject.get fields "index" =
      some (.int index) ∧ JsonObject.get fields "embedding" = some (.arr rawVector) ∧
    rawVector.mapM parseValue = .ok vector.val.values
  model : vector.val.model = provider.val.model
  dimensions : vector.val.dimensions = provider.val.dimensions

/-- The decoding of the item comes to an integer that `float` does not take. -/
def Overflows (item : Json) : Prop :=
  ∃ fields index before i after, item = .obj fields ∧
    JsonObject.get fields "index" = some (.int index) ∧
    JsonObject.get fields "embedding" = some (.arr (before ++ .int i :: after)) ∧
    (∀ value ∈ before, ∃ x, parseValue value = .ok x) ∧ floatOfInt i = none

theorem parseValue_eq_error {value : Json} (h : parseValue value = .error e) :
    (∃ message, e = embeddingResponse message) ∨
      (e = .other "OverflowError" ∧ ∃ i, value = .int i ∧ floatOfInt i = none) := by
  cases value with
  | int i =>
    simp only [parseValue] at h
    split at h
    · cases h
    · next hnone =>
      cases h
      exact .inr ⟨rfl, i, rfl, hnone⟩
  | float text => cases h
  | _ =>
    cases h
    exact .inl ⟨_, rfl⟩

theorem parseItem_eq_ok : self.parseItem item = .ok (index, vector) ↔
    Embeds self item index vector := by
  constructor
  · intro h
    unfold parseItem at h
    split at h
    · next fields =>
      split at h
      · next index' hindex =>
        split at h
        · next rawVector hvector =>
          obtain ⟨values, hvalues, h⟩ := bind_eq_ok.1 h
          obtain ⟨vector', hvector', h⟩ := bind_eq_ok.1 h
          cases h
          rw [mapError_eq_ok, construct_eq_ok] at hvector'
          refine ⟨⟨fields, rawVector, rfl, hindex, hvector, ?_⟩, ?_, ?_⟩ <;> rw [hvector']
          exact hvalues
        · cases h
      · cases h
    · cases h
  · rintro ⟨⟨fields, rawVector, rfl, hindex, hvector, hvalues⟩, hmodel, hdimensions⟩
    have hval : vector.val =
        ⟨self.val.model, self.val.dimensions, vector.val.values⟩ := by
      rw [← hmodel, ← hdimensions]
    simp only [parseItem, hindex, hvector]
    rw [hvalues]
    refine bind_eq_ok.2 ⟨_, rfl, bind_eq_ok.2 ⟨vector, ?_, rfl⟩⟩
    rw [mapError_eq_ok, construct_eq_ok]
    exact hval

theorem parseItem_eq_error (h : self.parseItem item = .error e) :
    (∃ message, e = embeddingResponse message) ∨
      (e = .other "OverflowError" ∧ Overflows item) := by
  unfold parseItem at h
  split at h
  · next fields =>
    split at h
    · next index' hindex =>
      split at h
      · next rawVector hvector =>
        cases hvalues : rawVector.mapM parseValue with
        | error e' =>
          rw [hvalues] at h
          cases h
          obtain ⟨before, value, after, rfl, hbefore, hvalue⟩ := mapM_eq_error.1 hvalues
          obtain hmessage | ⟨hoverflow, i, rfl, hi⟩ := parseValue_eq_error hvalue
          · exact .inl hmessage
          · exact .inr ⟨hoverflow, fields, index', before, i, after, rfl, hindex, hvector,
              hbefore, hi⟩
        | ok values =>
          rw [hvalues] at h
          change (Except.mapError _ (construct
            (EmbeddingVectorFields.mk self.val.model self.val.dimensions values)) >>= _) = _ at h
          cases hconstruct : construct
              (EmbeddingVectorFields.mk self.val.model self.val.dimensions values) with
          | ok vector =>
            rw [hconstruct] at h
            cases h
          | error e' =>
            rw [hconstruct] at h
            obtain ⟨-, rfl⟩ := error_of_construct hconstruct
            cases h
            exact .inl ⟨_, rfl⟩
      · cases h
        exact .inl ⟨_, rfl⟩
    · cases h
      exact .inl ⟨_, rfl⟩
  · cases h
    exact .inl ⟨_, rfl⟩

theorem parseItem_of_overflows (h : Overflows item) :
    self.parseItem item = .error (.other "OverflowError") := by
  obtain ⟨fields, index, before, i, after, rfl, hindex, hvector, hbefore, hi⟩ := h
  have hvalues : (before ++ .int i :: after).mapM parseValue = .error (.other "OverflowError") :=
    mapM_eq_error.2 ⟨before, .int i, after, rfl, hbefore, by simp only [parseValue, hi]⟩
  simp only [parseItem, hindex, hvector, hvalues]
  rfl

/-! ## The loop over the items -/

theorem addItem_eq_ok {byIndex byIndex' : List (Int × EmbeddingVector)} :
    self.addItem byIndex item = .ok byIndex' ↔
      ∃ index vector, self.parseItem item = .ok (index, vector) ∧
        index ∉ byIndex.map (·.1) ∧ byIndex' = byIndex ++ [(index, vector)] := by
  unfold addItem
  rw [bind_eq_ok]
  constructor
  · rintro ⟨⟨index, vector⟩, hitem, h⟩
    obtain ⟨hfresh, h⟩ := raiseIf_bind_eq_ok.1 h
    cases h
    exact ⟨index, vector, hitem, hfresh, rfl⟩
  · rintro ⟨index, vector, hitem, hfresh, rfl⟩
    exact ⟨(index, vector), hitem, raiseIf_bind_eq_ok.2 ⟨hfresh, rfl⟩⟩

theorem addItem_eq_error {byIndex : List (Int × EmbeddingVector)}
    (h : self.addItem byIndex item = .error e) :
    (∃ message, e = embeddingResponse message) ∨
      (e = .other "OverflowError" ∧ Overflows item) := by
  unfold addItem at h
  cases hitem : self.parseItem item with
  | error e' =>
    rw [hitem] at h
    cases h
    exact parseItem_eq_error hitem
  | ok parsed =>
    rw [hitem] at h
    obtain ⟨-, rfl⟩ | ⟨-, h⟩ := raiseIf_bind_eq_error.1 h
    · exact .inl ⟨_, rfl⟩
    · cases h

/-- The loop parses every item, and no two have one index. -/
theorem foldlM_addItem_eq_ok {byIndex byIndex' : List (Int × EmbeddingVector)}
    (hnodup : (byIndex.map (·.1)).Nodup) :
    data.foldlM self.addItem byIndex = .ok byIndex' ↔
      ∃ parsed, data.mapM self.parseItem = .ok parsed ∧ byIndex' = byIndex ++ parsed ∧
        (byIndex'.map (·.1)).Nodup := by
  induction data generalizing byIndex with
  | nil =>
    constructor
    · intro h
      cases h
      exact ⟨[], rfl, (List.append_nil _).symm, hnodup⟩
    · rintro ⟨parsed, hparsed, rfl, -⟩
      rw [mapM_eq_ok] at hparsed
      cases hparsed
      rw [List.append_nil]
      rfl
  | cons item data ih =>
    rw [List.foldlM_cons, bind_eq_ok]
    constructor
    · rintro ⟨byIndex₁, hitem, hdata⟩
      obtain ⟨index, vector, hparse, hfresh, rfl⟩ := addItem_eq_ok.1 hitem
      have hnodup₁ : ((byIndex ++ [(index, vector)]).map (·.1)).Nodup := by
        rw [List.map_append]
        exact hnodup.append (List.nodup_singleton _) (by simpa using hfresh)
      obtain ⟨parsed, hparsed, rfl, hall⟩ := (ih hnodup₁).1 hdata
      refine ⟨(index, vector) :: parsed, ?_, by simp, hall⟩
      rw [mapM_eq_ok] at hparsed ⊢
      exact .cons hparse hparsed
    · rintro ⟨parsed, hparsed, rfl, hall⟩
      rw [mapM_eq_ok] at hparsed
      obtain ⟨⟨index, vector⟩, parsed', hitem, hparsed', rfl⟩ :=
        List.forall₂_cons_left_iff.1 hparsed
      -- The item goes to the end of what is there, which keeps the indices different.
      have hsplit : byIndex ++ (index, vector) :: parsed' =
          (byIndex ++ [(index, vector)]) ++ parsed' := by simp
      rw [hsplit] at hall
      have hnodup₁ : ((byIndex ++ [(index, vector)]).map (·.1)).Nodup := by
        rw [List.map_append] at hall
        exact hall.of_append_left
      refine ⟨_, addItem_eq_ok.2 ⟨index, vector, hitem, ?_, rfl⟩,
        (ih hnodup₁).2 ⟨parsed', mapM_eq_ok.2 hparsed', hsplit, hsplit ▸ hall⟩⟩
      rw [List.map_append, List.nodup_append] at hnodup₁
      exact fun hmem => hnodup₁.2.2 _ hmem _ (.head _) rfl

theorem foldlM_addItem_eq_error {byIndex : List (Int × EmbeddingVector)}
    (h : data.foldlM self.addItem byIndex = .error e) :
    (∃ message, e = embeddingResponse message) ∨
      (e = .other "OverflowError" ∧ ∃ item ∈ data, Overflows item) := by
  induction data generalizing byIndex with
  | nil => cases h
  | cons item data ih =>
    rw [List.foldlM_cons] at h
    cases hitem : self.addItem byIndex item with
    | error e' =>
      rw [hitem] at h
      cases h
      exact (addItem_eq_error hitem).imp_right fun ⟨he, hoverflow⟩ => ⟨he, item, .head _, hoverflow⟩
    | ok byIndex₁ =>
      rw [hitem] at h
      refine (ih h).imp_right ?_
      rintro ⟨he, item', hmem, hoverflow⟩
      exact ⟨he, item', .tail _ hmem, hoverflow⟩

/-! ## The response -/

theorem vectorAt_eq_ok (hnodup : (parsed.map (·.1)).Nodup) {i : Nat} :
    vectorAt parsed i = .ok vector ↔ (Int.ofNat i, vector) ∈ parsed := by
  unfold vectorAt
  constructor
  · intro h
    split at h
    · next index vector' hfind =>
      cases h
      have hindex : index = Int.ofNat i := by simpa using List.find?_some hfind
      rw [← hindex]
      exact List.mem_of_find?_eq_some hfind
    · cases h
  · intro h
    cases hfind : parsed.find? (·.1 = Int.ofNat i) with
    | none => exact absurd (List.find?_eq_none.1 hfind _ h) (by simp)
    | some entry =>
      have hindex : entry.1 = Int.ofNat i := by simpa using List.find?_some hfind
      have hentry : entry = (Int.ofNat i, vector) :=
        List.inj_on_of_nodup_map hnodup (List.mem_of_find?_eq_some hfind) h hindex
      rw [hentry]

/-- The response has as many items as it should. -/
def HasItems (payload : Json) (expectedCount : Nat) (data : List Json) : Prop :=
  ∃ root, payload = .obj root ∧ JsonObject.get root "data" = some (.arr data) ∧
    data.length = expectedCount

theorem parseVectors_of_items (h : HasItems payload expectedCount data) :
    self.parseVectors payload expectedCount = (do
      let byIndex ← data.foldlM self.addItem []
      raiseIf (¬ Complete byIndex expectedCount)
        (embeddingResponse "embedding response indices were incomplete")
      (List.range expectedCount).mapM (vectorAt byIndex)) := by
  obtain ⟨root, rfl, hdata, hlength⟩ := h
  simp only [parseVectors, hdata, raiseIf, if_neg (not_not.2 hlength)]
  rfl

theorem parseVectors_of_no_items (h : ¬ ∃ data, HasItems payload expectedCount data) :
    ∃ message, self.parseVectors payload expectedCount = .error (embeddingResponse message) := by
  unfold parseVectors
  split
  · next root =>
    split
    · next data hdata =>
      have hlength : data.length ≠ expectedCount :=
        fun hlength => h ⟨data, root, rfl, hdata, hlength⟩
      exact ⟨_, raiseIf_bind_eq_error.2 (.inl ⟨hlength, rfl⟩)⟩
    · exact ⟨_, rfl⟩
  · exact ⟨_, rfl⟩

/-- The parsed items are those of the vectors. -/
structure Parsed (provider : SiliconFlowEmbeddingProvider) (data : List Json)
    (parsed : List (Int × EmbeddingVector)) (vectors : List EmbeddingVector) : Prop where
  items : data.mapM provider.parseItem = .ok parsed
  nodup : (parsed.map (·.1)).Nodup
  complete : Complete parsed data.length
  vectors : List.Forall₂ (fun (i : Nat) vector => (Int.ofNat i, vector) ∈ parsed)
    (List.range data.length) vectors

theorem parseVectors_eq_ok {vectors : List EmbeddingVector}
    (h : HasItems payload expectedCount data) :
    self.parseVectors payload expectedCount = .ok vectors ↔
      ∃ parsed, Parsed self data parsed vectors := by
  rw [parseVectors_of_items h]
  obtain ⟨-, -, -, rfl⟩ := h
  have hnil : (([] : List (Int × EmbeddingVector)).map (·.1)).Nodup := List.nodup_nil
  constructor
  · intro h
    obtain ⟨byIndex, hfold, h⟩ := bind_eq_ok.1 h
    obtain ⟨hcomplete, h⟩ := raiseIf_bind_eq_ok.1 h
    obtain ⟨_, hparsed, rfl, hnodup⟩ := (foldlM_addItem_eq_ok hnil).1 hfold
    refine ⟨byIndex, hparsed, hnodup, not_not.1 hcomplete, ?_⟩
    exact (mapM_eq_ok.1 h).imp fun _ _ => (vectorAt_eq_ok hnodup).1
  · rintro ⟨parsed, hparsed⟩
    refine bind_eq_ok.2 ⟨parsed, ?_, raiseIf_bind_eq_ok.2 ⟨not_not.2 hparsed.complete, ?_⟩⟩
    · exact (foldlM_addItem_eq_ok hnil).2 ⟨parsed, hparsed.items, rfl, hparsed.nodup⟩
    · exact mapM_eq_ok.2 (hparsed.vectors.imp fun _ _ => (vectorAt_eq_ok hparsed.nodup).2)

/-- An exception that is not that of the response is the one of an overflow. -/
theorem parseVectors_eq_error (h : HasItems payload expectedCount data)
    (he : self.parseVectors payload expectedCount = .error e) :
    (∃ message, e = embeddingResponse message) ∨
      (e = .other "OverflowError" ∧ ∃ item ∈ data, Overflows item) := by
  rw [parseVectors_of_items h] at he
  obtain ⟨-, -, -, rfl⟩ := h
  have hnil : (([] : List (Int × EmbeddingVector)).map (·.1)).Nodup := List.nodup_nil
  cases hfold : data.foldlM self.addItem [] with
  | error e' =>
    rw [hfold] at he
    cases he
    exact foldlM_addItem_eq_error hfold
  | ok parsed =>
    rw [hfold] at he
    obtain ⟨-, rfl⟩ | ⟨hcomplete, he⟩ := raiseIf_bind_eq_error.1 he
    · exact .inl ⟨_, rfl⟩
    · -- every index of the range has a vector
      obtain ⟨_, -, rfl, hnodup⟩ := (foldlM_addItem_eq_ok hnil).1 hfold
      obtain ⟨vectors, hvectors⟩ : ∃ vectors,
          (List.range data.length).mapM (vectorAt parsed) = .ok vectors := by
        refine mapM_ok_of_forall fun i hi => ?_
        have hindex := (not_not.1 hcomplete).2 _ (List.mem_map_of_mem hi)
        obtain ⟨⟨index, vector⟩, hmem, heq⟩ := List.mem_map.1 hindex
        cases heq
        exact ⟨vector, (vectorAt_eq_ok hnodup).2 hmem⟩
      rw [hvectors] at he
      cases he

/-! ## Positions -/

/-- The index of an item. -/
def itemIndex : Json → Option Int
  | .obj fields =>
    match JsonObject.get fields "index" with
    | some (.int index) => some index
    | _ => none
  | _ => none

theorem Embeds.itemIndex_eq (h : Embeds self item index vector) : itemIndex item = some index := by
  obtain ⟨⟨fields, _, rfl, hindex, -⟩, -⟩ := h
  simp only [itemIndex, hindex]

/-- The vectors are those of the items, in the order of their indices. -/
structure Decoded (provider : SiliconFlowEmbeddingProvider) (data : List Json)
    (vectors : List EmbeddingVector) : Prop where
  length : vectors.length = data.length
  indices : (data.map itemIndex).Perm ((List.range data.length).map fun i => some (Int.ofNat i))
  embeds : ∀ i (h : i < vectors.length), ∃ item ∈ data, Embeds provider item i vectors[i]
  valid : ∀ vector ∈ vectors, vector.val.values.length = provider.val.dimensions ∧
    ∀ value ∈ vector.val.values, value.isFinite

theorem Parsed.decoded {vectors : List EmbeddingVector} (h : Parsed self data parsed vectors) :
    Decoded self data vectors where
  length := by
    rw [← h.vectors.length_eq, List.length_range]
  indices := by
    have hindices : data.map itemIndex = (parsed.map (·.1)).map some := by
      have hitems := mapM_eq_ok.1 h.items
      clear h
      induction hitems with
      | nil => rfl
      | cons hitem _ ih =>
        rw [List.map_cons, (parseItem_eq_ok.1 hitem).itemIndex_eq, ih]
        rfl
    have hrange : (parsed.map (·.1)).Perm ((List.range data.length).map Int.ofNat) := by
      refine (List.perm_ext_iff_of_nodup h.nodup ?_).2 fun index =>
        ⟨h.complete.1 index, h.complete.2 index⟩
      exact List.nodup_range.map fun _ _ => Int.ofNat.inj
    rw [hindices]
    refine (hrange.map some).trans ?_
    rw [List.map_map]
    exact List.Perm.refl _
  embeds i hi := by
    have hi' : i < (List.range data.length).length := by
      rw [h.vectors.length_eq]
      exact hi
    have hmem := h.vectors.get hi' hi
    obtain ⟨item, hitem, hparse⟩ := (mem_mapM h.items).1 hmem
    rw [List.get_eq_getElem, List.getElem_range] at hparse
    exact ⟨item, hitem, parseItem_eq_ok.1 hparse⟩
  valid vector hvector := by
    obtain ⟨i, hi, rfl⟩ := List.getElem_of_mem hvector
    have hi' : i < (List.range data.length).length := by
      rw [h.vectors.length_eq]
      exact hi
    obtain ⟨item, -, hparse⟩ := (mem_mapM h.items).1 (h.vectors.get hi' hi)
    rw [← (parseItem_eq_ok.1 hparse).dimensions]
    exact EmbeddingVector.finite _

/-- The order of the items does not matter. -/
theorem Parsed.perm {vectors : List EmbeddingVector} {data' : List Json}
    (h : Parsed self data parsed vectors) (hperm : data'.Perm data) :
    ∃ parsed', Parsed self data' parsed' vectors := by
  obtain ⟨parsed', hitems, hparsed⟩ := List.perm_comp_forall₂ hperm (mapM_eq_ok.1 h.items)
  have hkeys : ∀ index, index ∈ parsed'.map (·.1) ↔ index ∈ parsed.map (·.1) :=
    fun index => (hparsed.map _).mem_iff
  refine ⟨parsed', mapM_eq_ok.2 hitems, (hparsed.map _).nodup_iff.2 h.nodup, ?_, ?_⟩
  · rw [hperm.length_eq]
    exact ⟨fun index hindex => h.complete.1 index ((hkeys index).1 hindex),
      fun index hindex => (hkeys index).2 (h.complete.2 index hindex)⟩
  · rw [hperm.length_eq]
    exact h.vectors.imp fun _ _ hmem => hparsed.mem_iff.2 hmem

/-- The two results are the same vectors, or both are errors of the response. -/
def SameOutcome (first second : Except Exc (List EmbeddingVector)) : Prop :=
  (∀ vectors, first = .ok vectors ↔ second = .ok vectors) ∧
    ((∃ message, first = .error (embeddingResponse message)) ↔
      ∃ message, second = .error (embeddingResponse message))

/-- What is promised of the decoding of a response. -/
structure DecodesSafely (provider : SiliconFlowEmbeddingProvider) (payload : Json)
    (expectedCount : Nat) : Prop where
  outcome : (∃ message, provider.parseVectors payload expectedCount =
      .error (embeddingResponse message)) ∨
    ∃ data vectors, HasItems payload expectedCount data ∧
      provider.parseVectors payload expectedCount = .ok vectors ∧ Decoded provider data vectors
  permuted : ∀ data data' payload', HasItems payload expectedCount data → data'.Perm data →
    HasItems payload' expectedCount data' →
    SameOutcome (provider.parseVectors payload' expectedCount)
      (provider.parseVectors payload expectedCount)

end SiliconFlowEmbeddingProvider

open SiliconFlowEmbeddingProvider in
/-- The decoding of a response is safe exactly if no item of it has an integer that `float`
    does not take, among its first numbers. -/
theorem embedding_decoding_iff (self : SiliconFlowEmbeddingProvider) (payload : Json)
    (expectedCount : Nat) : DecodesSafely self payload expectedCount ↔
      ¬ ∃ data, HasItems payload expectedCount data ∧ ∃ item ∈ data, Overflows item := by
  constructor
  · rintro hsafe ⟨data, hitems, item, hitem, hoverflow⟩
    obtain ⟨rest, hrest⟩ : ∃ rest, (item :: rest).Perm data := by
      obtain ⟨before, after, rfl⟩ := List.append_of_mem hitem
      exact ⟨before ++ after, List.perm_middle.symm⟩
    -- with the item in front, the exception escapes
    have hitems' : HasItems (.obj [("data", .arr (item :: rest))]) expectedCount
        (item :: rest) := by
      obtain ⟨-, -, -, hlength⟩ := hitems
      exact ⟨_, rfl, rfl, hrest.length_eq.trans hlength⟩
    have hescapes : self.parseVectors (.obj [("data", .arr (item :: rest))]) expectedCount =
        .error (.other "OverflowError") := by
      rw [parseVectors_of_items hitems', List.foldlM_cons]
      simp only [addItem, parseItem_of_overflows hoverflow]
      rfl
    obtain ⟨hvectors, hmessage⟩ := hsafe.permuted _ _ _ hitems hrest hitems'
    rw [hescapes] at hvectors hmessage
    obtain hresponse | ⟨-, vectors, -, hok, -⟩ := hsafe.outcome
    · obtain ⟨message, h⟩ := hmessage.2 hresponse
      cases h
    · cases (hvectors vectors).2 hok
  · intro hnone
    -- Without an overflow the decoding either succeeds or says what is wrong with the response.
    have hraises {payload' : Json} {data' : List Json} {e : Exc}
        (hitems' : HasItems payload' expectedCount data')
        (hnone' : ∀ item ∈ data', ¬ Overflows item)
        (he : self.parseVectors payload' expectedCount = .error e) :
        ∃ message, e = embeddingResponse message := by
      obtain hmessage | ⟨-, item, hitem, hoverflow⟩ := parseVectors_eq_error hitems' he
      · exact hmessage
      · exact absurd hoverflow (hnone' item hitem)
    constructor
    · by_cases hitems : ∃ data, HasItems payload expectedCount data
      · obtain ⟨data, hitems⟩ := hitems
        cases hresult : self.parseVectors payload expectedCount with
        | error e =>
          obtain ⟨message, rfl⟩ := hraises hitems
            (fun item hitem hoverflow => hnone ⟨data, hitems, item, hitem, hoverflow⟩) hresult
          exact .inl ⟨message, rfl⟩
        | ok vectors =>
          obtain ⟨parsed, hparsed⟩ := (parseVectors_eq_ok hitems).1 hresult
          exact .inr ⟨data, vectors, hitems, rfl, hparsed.decoded⟩
      · exact .inl (parseVectors_of_no_items hitems)
    · intro data data' payload' hitems hperm hitems'
      have hvectors (vectors : List EmbeddingVector) :
          self.parseVectors payload' expectedCount = .ok vectors ↔
            self.parseVectors payload expectedCount = .ok vectors := by
        -- The vectors are sorted by their index, so the order of the items does not matter.
        rw [parseVectors_eq_ok hitems, parseVectors_eq_ok hitems']
        exact ⟨fun ⟨_, hparsed⟩ => hparsed.perm hperm.symm, fun ⟨_, hparsed⟩ => hparsed.perm hperm⟩
      have hsafe : ∀ item ∈ data, ¬ Overflows item :=
        fun item hitem hoverflow => hnone ⟨data, hitems, item, hitem, hoverflow⟩
      refine ⟨hvectors, ?_, ?_⟩
      · rintro ⟨message, hmessage⟩
        cases hresult : self.parseVectors payload expectedCount with
        | ok vectors =>
          rw [(hvectors vectors).2 hresult] at hmessage
          cases hmessage
        | error e =>
          obtain ⟨message', rfl⟩ := hraises hitems hsafe hresult
          exact ⟨message', rfl⟩
      · rintro ⟨message, hmessage⟩
        cases hresult : self.parseVectors payload' expectedCount with
        | ok vectors =>
          rw [(hvectors vectors).1 hresult] at hmessage
          cases hmessage
        | error e =>
          obtain ⟨message', rfl⟩ := hraises hitems'
            (fun item hitem => hsafe item (hperm.mem_iff.1 hitem)) hresult
          exact ⟨message', rfl⟩

def embeddingProvider : SiliconFlowEmbeddingProvider :=
  ⟨{ apiUrl := "https://embeddings.internal", model := "model", dimensions := 1 },
    by decide +kernel⟩

/-- The embedding of one text has an integer that is too large for `float`. -/
def overflowingResponse : Json :=
  .obj [("data", .arr [.obj [("index", .int 0), ("embedding", .arr [.int (10 ^ 400)])]])]

/-- The exception of `float` escapes. -/
theorem embedding_decoding_overflow :
    ¬ ∀ (self : SiliconFlowEmbeddingProvider) (payload : Json) (expectedCount : Nat),
      SiliconFlowEmbeddingProvider.DecodesSafely self payload expectedCount := by
  intro h
  have hescapes : embeddingProvider.parseVectors overflowingResponse 1 =
      .error (.other "OverflowError") := by
    decide +kernel
  obtain ⟨message, hmessage⟩ | ⟨_, vectors, -, hok, -⟩ :=
    (h embeddingProvider overflowingResponse 1).outcome
  · rw [hescapes] at hmessage
    cases hmessage
  · rw [hescapes] at hok
    cases hok

end NexusMcp
