-- SUMMARY: Projections that keep a digest of each source: what is current and what is pending.
import Mathlib.Data.List.Nodup
import Mathlib.Logic.Function.Basic

/-!
# Projections by Digest

A projection keeps, under the key of each source, the digest that the source had when it was
written. It converges when every source is current. A round of writing that stops half way
leaves the rest pending, and nothing else.
-/

namespace Projection

/-- Sources, with the key a projection keeps them under and the digest it compares. -/
structure Sources (ι κ δ : Type) where
  key : ι → κ
  digest : ι → δ

namespace Sources

variable {ι κ δ : Type} (src : Sources ι κ δ) {v : κ → Option δ} {sources part rest : List ι}
  {d : ι}

/-- The projection has the digest of the source. -/
def Current (v : κ → Option δ) (d : ι) : Prop := v (src.key d) = some (src.digest d)

instance [DecidableEq δ] (v : κ → Option δ) (d : ι) : Decidable (src.Current v d) :=
  inferInstanceAs (Decidable (_ = _))

/-- The projection once the sources are written, one after the other. -/
def write [DecidableEq κ] (v : κ → Option δ) (part : List ι) : κ → Option δ :=
  part.foldl (fun v d => Function.update v (src.key d) (some (src.digest d))) v

/-- The sources that are not current. -/
def pending [DecidableEq δ] (v : κ → Option δ) (sources : List ι) : List ι :=
  sources.filter fun d => ¬ src.Current v d

/-! ## Writing -/

section

variable [DecidableEq κ]

@[simp] theorem write_nil : src.write v [] = v := rfl

theorem write_cons :
    src.write v (d :: part) =
      src.write (Function.update v (src.key d) (some (src.digest d))) part := rfl

theorem write_append {part' : List ι} :
    src.write v (part ++ part') = src.write (src.write v part) part' :=
  List.foldl_append

/-- What is written is a matter of the keys and the digests. -/
theorem write_congr {ι' : Type} {src' : Sources ι' κ δ} {part' : List ι'}
    (h : part'.map (fun d => (src'.key d, src'.digest d)) =
      part.map fun d => (src.key d, src.digest d)) :
    src'.write v part' = src.write v part := by
  have hwrite {ι : Type} (src : Sources ι κ δ) (part : List ι) :
      src.write v part = (part.map fun d => (src.key d, src.digest d)).foldl
        (fun (v : κ → Option δ) entry => Function.update v entry.1 (some entry.2)) v := by
    rw [List.foldl_map]
    rfl
  rw [hwrite, hwrite, h]

/-- What is not written stays as it is. -/
theorem write_of_notMem {k : κ} (hk : k ∉ part.map src.key) : src.write v part k = v k := by
  induction part generalizing v with
  | nil => rfl
  | cons d part ih =>
    rw [List.map_cons, List.mem_cons, not_or] at hk
    rw [write_cons, ih hk.2, Function.update_of_ne hk.1]

/-- What is written is current, as no other source is written to its key. -/
theorem current_write_of_mem (hnodup : (part.map src.key).Nodup) (hd : d ∈ part) :
    src.Current (src.write v part) d := by
  induction part generalizing v with
  | nil => cases hd
  | cons d' part ih =>
    rw [List.map_cons, List.nodup_cons] at hnodup
    rw [write_cons]
    rcases List.mem_cons.1 hd with rfl | hd
    · unfold Current
      rw [write_of_notMem src hnodup.1, Function.update_self]
    · exact ih hnodup.2 hd

/-- A source is current once it was written, or if it was current before. -/
theorem current_write_iff (hnodup : (sources.map src.key).Nodup) (hpart : part.Sublist sources)
    (hd : d ∈ sources) :
    src.Current (src.write v part) d ↔ d ∈ part ∨ src.Current v d := by
  by_cases hmem : d ∈ part
  · simp only [hmem, true_or, iff_true]
    exact src.current_write_of_mem (hnodup.sublist (hpart.map _)) hmem
  · have hk : src.key d ∉ part.map src.key := by
      intro hk
      obtain ⟨d', hd', hkey⟩ := List.mem_map.1 hk
      have heq := List.inj_on_of_nodup_map hnodup (hpart.subset hd') hd hkey
      exact hmem (heq ▸ hd')
    simp only [hmem, false_or]
    unfold Current
    rw [src.write_of_notMem hk]

end

/-! ## Rounds -/

variable [DecidableEq δ]

/-- A round writes all sources, or those that are pending. -/
def round (force : Bool) (v : κ → Option δ) (sources : List ι) : List ι :=
  if force then sources else src.pending v sources

theorem mem_pending : d ∈ src.pending v sources ↔ d ∈ sources ∧ ¬ src.Current v d := by
  simp [pending]

variable {force : Bool}

theorem round_sublist : (src.round force v sources).Sublist sources := by
  unfold round
  split
  · exact List.Sublist.refl _
  · exact List.filter_sublist

theorem pending_round : src.pending v (src.round force v sources) = src.pending v sources := by
  unfold round pending
  split
  · rfl
  · rw [List.filter_filter]
    simp

variable [DecidableEq κ]

theorem pending_write (hnodup : (sources.map src.key).Nodup) (hpart : part.Sublist sources) :
    src.pending (src.write v part) sources =
      (src.pending v sources).filter fun d => src.key d ∉ part.map src.key := by
  unfold pending
  rw [List.filter_filter]
  refine List.filter_congr fun d hd => ?_
  have hkey : src.key d ∈ part.map src.key ↔ d ∈ part := by
    refine ⟨fun hk => ?_, List.mem_map_of_mem⟩
    obtain ⟨d', hd', hkey⟩ := List.mem_map.1 hk
    exact List.inj_on_of_nodup_map hnodup (hpart.subset hd') hd hkey ▸ hd'
  rw [← Bool.decide_and, decide_eq_decide, hkey, src.current_write_iff hnodup hpart hd, not_or]

/-- After the first sources of a round, those of the rest are pending that were before. -/
theorem pending_write_of_append (hnodup : (sources.map src.key).Nodup)
    (hround : src.round force v sources = part ++ rest) :
    src.pending (src.write v part) sources = src.pending v rest := by
  have hsublist : (part ++ rest).Sublist sources := hround ▸ src.round_sublist
  have hkeys : ((part ++ rest).map src.key).Nodup := hnodup.sublist (hsublist.map _)
  rw [List.map_append, List.nodup_append] at hkeys
  rw [src.pending_write hnodup ((List.sublist_append_left part rest).trans hsublist),
    ← @pending_round _ _ _ src v sources _ force, hround]
  unfold pending
  rw [List.filter_append, List.filter_append]
  have hpart : ((part.filter fun d => ¬ src.Current v d).filter
      fun d => src.key d ∉ part.map src.key) = [] := by
    rw [List.filter_eq_nil_iff]
    intro d hd
    rw [decide_eq_true_eq, not_not]
    exact List.mem_map_of_mem (List.mem_of_mem_filter hd)
  have hrest : ((rest.filter fun d => ¬ src.Current v d).filter
      fun d => src.key d ∉ part.map src.key) = rest.filter fun d => ¬ src.Current v d := by
    rw [List.filter_eq_self]
    intro d hd
    rw [decide_eq_true_eq]
    exact fun hk => hkeys.2.2 _ hk _ (List.mem_map_of_mem (List.mem_of_mem_filter hd)) rfl
  rw [hpart, hrest, List.nil_append]

/-- After a whole round nothing is pending. -/
theorem pending_write_round (hnodup : (sources.map src.key).Nodup) :
    src.pending (src.write v (src.round force v sources)) sources = [] :=
  src.pending_write_of_append hnodup (List.append_nil _).symm

end Sources

end Projection
