-- SUMMARY: Several rankings fused into one score, and the dictionaries that add it up.
import Mathlib.Algebra.Order.BigOperators.Group.List
import Mathlib.Algebra.BigOperators.Group.List.Basic
import Mathlib.Data.List.Nodup

/-!
# Fusion of Rankings

Each ranking gives a candidate a share that depends on its first position there. The score
of a candidate is the sum of its shares, so it does not depend on the order of the rankings.
-/

namespace Select

/-! ## Dictionaries -/

section Dictionaries

variable {κ α : Type} [DecidableEq κ] {d : List (κ × α)} {k k' : κ} {v : α}

/-- The keys with one more: a key that is there keeps its place. -/
def withKey (keys : List κ) (k : κ) : List κ := if k ∈ keys then keys else keys ++ [k]

/-- `d[k] = v`. -/
def setItem : List (κ × α) → κ → α → List (κ × α)
  | [], k, v => [(k, v)]
  | e :: d, k, v => if e.1 = k then (k, v) :: d else e :: setItem d k v

/-- `d.setdefault(k, v)`. -/
def setDefault (d : List (κ × α)) (k : κ) (v : α) : List (κ × α) :=
  if k ∈ d.map Prod.fst then d else d ++ [(k, v)]

theorem nodup_withKey {keys : List κ} (h : keys.Nodup) : (withKey keys k).Nodup := by
  unfold withKey
  split
  · exact h
  · next hk =>
    refine List.nodup_append.2 ⟨h, List.nodup_singleton k, ?_⟩
    intro a ha b hb
    rw [List.mem_singleton.1 hb]
    exact ne_of_mem_of_not_mem ha hk

theorem keys_setItem : (setItem d k v).map Prod.fst = withKey (d.map Prod.fst) k := by
  induction d with
  | nil => rfl
  | cons e d ih =>
    unfold setItem
    split
    · next hk => simp [withKey, hk]
    · next hk =>
      rw [List.map_cons, ih]
      unfold withKey
      simp only [List.map_cons, List.mem_cons, Ne.symm hk, false_or]
      split <;> rfl

theorem keys_setDefault : (setDefault d k v).map Prod.fst = withKey (d.map Prod.fst) k := by
  unfold setDefault withKey
  split
  · rfl
  · simp

theorem lookup_cons_eq_ite {e : κ × α} :
    (e :: d).lookup k = if k = e.1 then some e.2 else d.lookup k := by
  rw [List.lookup_cons]
  by_cases hk : k = e.1
  · simp [hk]
  · rw [if_neg hk, beq_false_of_ne hk]

theorem lookup_setItem : (setItem d k v).lookup k' = if k' = k then some v else d.lookup k' := by
  induction d with
  | nil => rw [setItem, lookup_cons_eq_ite]
  | cons e d ih =>
    unfold setItem
    split
    · next hk =>
      subst hk
      simp only [lookup_cons_eq_ite]
      split <;> rfl
    · next hk =>
      simp only [lookup_cons_eq_ite, ih]
      split
      · next he => rw [if_neg (he ▸ hk)]
      · rfl

theorem lookup_eq_none : d.lookup k = none ↔ k ∉ d.map Prod.fst := by
  induction d with
  | nil => simp
  | cons e d ih =>
    rw [lookup_cons_eq_ite, List.map_cons, List.mem_cons]
    by_cases hk : k = e.1
    · simp [hk]
    · rw [if_neg hk, ih]
      simp [hk]

theorem lookup_setDefault :
    (setDefault d k v).lookup k' = (d.lookup k').or (if k' = k then some v else none) := by
  unfold setDefault
  split
  · next hk =>
    split
    · next he =>
      subst he
      cases hlookup : d.lookup k' with
      | none => exact absurd hk (lookup_eq_none.1 hlookup)
      | some _ => rfl
    · rw [Option.or_none]
  · rw [List.lookup_append, lookup_cons_eq_ite, List.lookup_nil]

theorem exists_lookup (h : k ∈ d.map Prod.fst) : ∃ v, d.lookup k = some v := by
  cases hlookup : d.lookup k with
  | none => exact absurd h (lookup_eq_none.1 hlookup)
  | some v => exact ⟨v, rfl⟩

theorem mem_of_lookup (h : d.lookup k = some v) : (k, v) ∈ d := by
  induction d with
  | nil => cases h
  | cons e d ih =>
    rw [lookup_cons_eq_ite] at h
    split at h
    · next hk =>
      cases h
      exact hk ▸ List.mem_cons_self
    · exact List.mem_cons_of_mem e (ih h)

theorem setItem_of_notMem (h : k ∉ d.map Prod.fst) : setItem d k v = d ++ [(k, v)] := by
  induction d with
  | nil => rfl
  | cons e d ih =>
    rw [List.map_cons, List.mem_cons, not_or] at h
    rw [setItem, if_neg (Ne.symm h.1), ih h.2, List.cons_append]

/-- A dictionary comprehension: the last item of a key is kept, in the place of the first. -/
def ofItems (items : List (κ × α)) : List (κ × α) :=
  items.foldl (fun d e => setItem d e.1 e.2) []

/-- Of the items of a key, the dictionary has the last one. -/
theorem lookup_ofItems (items : List (κ × α)) :
    (ofItems items).lookup k = items.reverse.lookup k := by
  suffices hfold : ∀ d : List (κ × α), (items.foldl (fun d e => setItem d e.1 e.2) d).lookup k =
      (items.reverse.lookup k).or (d.lookup k) from (hfold []).trans (Option.or_none)
  induction items with
  | nil => exact fun d => rfl
  | cons e items ih =>
    intro d
    rw [List.foldl_cons, ih, lookup_setItem, List.reverse_cons, List.lookup_append,
      lookup_cons_eq_ite, Option.or_assoc]
    split <;> rfl

theorem mem_of_lookup_ofItems {items : List (κ × α)} (h : (ofItems items).lookup k = some v) :
    (k, v) ∈ items :=
  List.mem_reverse.1 (mem_of_lookup (lookup_ofItems items ▸ h))

theorem ofItems_of_nodup {items : List (κ × α)} (h : (items.map Prod.fst).Nodup) :
    ofItems items = items := by
  suffices hfold : ∀ d : List (κ × α), ((d ++ items).map Prod.fst).Nodup →
      items.foldl (fun d e => setItem d e.1 e.2) d = d ++ items from hfold [] h
  clear h
  induction items with
  | nil => exact fun d _ => (List.append_nil d).symm
  | cons e items ih =>
    intro d h
    have hnew : e.1 ∉ d.map Prod.fst := by
      rw [List.map_append, List.nodup_append] at h
      exact fun hmem => h.2.2 _ hmem _ (List.mem_map_of_mem List.mem_cons_self) rfl
    rw [List.foldl_cons, setItem_of_notMem hnew, ih, List.append_assoc, List.singleton_append]
    rwa [List.append_assoc, List.singleton_append]

end Dictionaries

/-! ## Positions and scores -/

section Scores

variable {κ β : Type} [DecidableEq κ]

/-- The first position of a candidate in a ranking, counted from one. -/
def firstPosition (k : κ) (ranking : List κ) : Option Nat := (ranking.idxOf? k).map (· + 1)

theorem firstPosition_isSome {k : κ} {ranking : List κ} :
    (firstPosition k ranking).isSome ↔ k ∈ ranking := by
  simp [firstPosition, List.isSome_idxOf?]

theorem one_le_of_firstPosition {k : κ} {ranking : List κ} {p : Nat}
    (h : firstPosition k ranking = some p) : 1 ≤ p := by
  obtain ⟨i, -, rfl⟩ := Option.map_eq_some_iff.1 h
  exact Nat.le_add_left 1 i

theorem firstPosition_of_nodup {k : κ} {ranking : List κ} (h : ranking.Nodup) {i : Nat}
    (hi : ranking[i]? = some k) : firstPosition k ranking = some (i + 1) := by
  obtain ⟨hlt, rfl⟩ := List.getElem?_eq_some_iff.1 hi
  have hidx : ranking.idxOf? ranking[i] = some i := by
    rw [List.idxOf?_eq_some_iff]
    refine ⟨hlt, rfl, ?_⟩
    intro j hj heq
    exact hj.ne (h.getElem_inj_iff.1 heq)
  rw [firstPosition, hidx, Option.map_some]

/-- The score of a candidate: the weights of its first positions, over the rankings that
    contain it. -/
def score [AddMonoid β] (weight : Nat → β) (rankings : List (List κ)) (k : κ) : β :=
  (rankings.filterMap fun ranking => (firstPosition k ranking).map weight).sum

/-- What one ranking adds to the score. -/
def share [Zero β] (weight : Nat → β) (k : κ) (ranking : List κ) : β :=
  ((firstPosition k ranking).map weight).getD 0

theorem score_eq_sum_share [AddMonoid β] {weight : Nat → β} {rankings : List (List κ)} {k : κ} :
    score weight rankings k = (rankings.map (share weight k)).sum := by
  induction rankings with
  | nil => rfl
  | cons ranking rankings ih =>
    unfold score at ih ⊢
    cases hposition : firstPosition k ranking with
    | none => simp [share, hposition, ih]
    | some p => simp [share, hposition, ih]

theorem score_concat [AddMonoid β] {weight : Nat → β} {rankings : List (List κ)}
    {ranking : List κ} {k : κ} :
    score weight (rankings ++ [ranking]) k = score weight rankings k + share weight k ranking := by
  simp [score_eq_sum_share]

/-- The score does not depend on the order of the rankings. -/
theorem score_perm [AddCommMonoid β] {weight : Nat → β} {rankings rankings' : List (List κ)}
    (h : rankings.Perm rankings') (k : κ) : score weight rankings k = score weight rankings' k :=
  (h.filterMap _).sum_eq

/-- The first candidate stands in every ranking of the second, nowhere behind it and once
    before it. -/
def Dominates (rankings : List (List κ)) (k k' : κ) : Prop :=
  (∀ ranking ∈ rankings, ∀ p ∈ firstPosition k' ranking, ∃ q ∈ firstPosition k ranking, q ≤ p) ∧
  ∃ ranking ∈ rankings, ∃ p ∈ firstPosition k' ranking, ∃ q ∈ firstPosition k ranking, q < p

/-- Weights that are positive and fall with the position give a dominating candidate the higher
    score. -/
theorem Dominates.score_lt [AddCommMonoid β] [PartialOrder β] [IsOrderedCancelAddMonoid β]
    {weight : Nat → β} {rankings : List (List κ)} {k k' : κ}
    (hpos : ∀ p, 1 ≤ p → 0 < weight p) (hfall : ∀ q p, 1 ≤ q → q < p → weight p < weight q)
    (h : Dominates rankings k k') : score weight rankings k' < score weight rankings k := by
  obtain ⟨hall, ranking, hranking, p, hp, q, hq, hlt⟩ := h
  rw [score_eq_sum_share, score_eq_sum_share]
  apply List.sum_lt_sum
  · intro r hr
    unfold share
    cases hposition' : firstPosition k' r with
    | none =>
      cases hposition : firstPosition k r with
      | none => exact le_rfl
      | some q => exact (hpos q (one_le_of_firstPosition hposition)).le
    | some p =>
      obtain ⟨q, hq, hle⟩ := hall r hr p hposition'
      rw [Option.mem_def.1 hq]
      obtain rfl | hlt := hle.eq_or_lt
      · exact le_rfl
      · exact (hfall q p (one_le_of_firstPosition hq) hlt).le
  · refine ⟨ranking, hranking, ?_⟩
    simp only [share, Option.mem_def.1 hp, Option.mem_def.1 hq, Option.map_some, Option.getD_some]
    exact hfall q p (one_le_of_firstPosition hq) hlt

end Scores

end Select
