-- SUMMARY: Joins of rows, the greatest value of each group, and the rows of a sorted listing.
import NexusMcp.Batch.Slices
import Mathlib.Data.List.Dedup
import Mathlib.Data.List.Sort
import Mathlib.Data.List.MinMax

/-!
# Joins

A join of rows where each has at most one partner has no row twice. Neither has what is
selected, sorted and paged from it.
-/

namespace Select

variable {α β κ γ : Type}

/-! ## Joins -/

section Joins

variable (on : α → β → Prop) [∀ a b, Decidable (on a b)]

/-- The rows with their partners. -/
def join (rows : List α) (others : List β) : List (α × β) :=
  rows.flatMap fun a => (others.filter (on a)).map (a, ·)

/-- The rows with their partners, or with none. -/
def leftJoin (rows : List α) (others : List β) : List (α × Option β) :=
  rows.flatMap fun a => if others.filter (on a) = [] then [(a, none)]
    else (others.filter (on a)).map fun b => (a, some b)

variable {on} {rows : List α} {others : List β} {R : α → α → Prop}

theorem mem_join {a : α} {b : β} :
    (a, b) ∈ join on rows others ↔ a ∈ rows ∧ b ∈ others ∧ on a b := by
  simp only [join, List.mem_flatMap, List.mem_map, List.mem_filter, decide_eq_true_eq,
    Prod.mk.injEq]
  constructor
  · rintro ⟨a', ha, b', ⟨hb, hon⟩, rfl, rfl⟩
    exact ⟨ha, hb, hon⟩
  · rintro ⟨ha, hb, hon⟩
    exact ⟨a, ha, b, ⟨hb, hon⟩, rfl, rfl⟩

theorem mem_leftJoin_some {a : α} {b : β} :
    (a, some b) ∈ leftJoin on rows others ↔ a ∈ rows ∧ b ∈ others ∧ on a b := by
  simp only [leftJoin, List.mem_flatMap]
  constructor
  · rintro ⟨a', ha, hmem⟩
    split at hmem
    · simp at hmem
    · simp only [List.mem_map, List.mem_filter, decide_eq_true_eq, Prod.mk.injEq,
        Option.some.injEq] at hmem
      obtain ⟨b', ⟨hb, hon⟩, rfl, rfl⟩ := hmem
      exact ⟨ha, hb, hon⟩
  · rintro ⟨ha, hb, hon⟩
    have hfilter : b ∈ others.filter (on a) := List.mem_filter.2 ⟨hb, decide_eq_true hon⟩
    refine ⟨a, ha, ?_⟩
    -- A partner rules out the row without one.
    rw [if_neg (List.ne_nil_of_mem hfilter)]
    exact List.mem_map_of_mem hfilter

/-- A row that has a partner is not left without one. -/
theorem mem_leftJoin_none {a : α} :
    (a, none) ∈ leftJoin on rows others ↔ a ∈ rows ∧ ∀ b ∈ others, ¬ on a b := by
  simp only [leftJoin, List.mem_flatMap]
  constructor
  · rintro ⟨a', ha, hmem⟩
    split at hmem
    · next hnil =>
      rw [List.mem_singleton, Prod.mk.injEq] at hmem
      obtain ⟨rfl, -⟩ := hmem
      exact ⟨ha, by simpa [List.filter_eq_nil_iff] using hnil⟩
    · simp at hmem
  · rintro ⟨ha, hnone⟩
    have hnil : others.filter (on a) = [] := by simpa [List.filter_eq_nil_iff] using hnone
    exact ⟨a, ha, by rw [if_pos hnil]; exact List.mem_singleton_self _⟩

/-- The partners of one row, where it has at most one. -/
theorem filter_pairwise (hothers : others.Nodup) {a : α}
    (hunique : ∀ b ∈ others, ∀ b' ∈ others, on a b → on a b' → b = b') {S : β → β → Prop} :
    (others.filter (on a)).Pairwise S := by
  rw [List.pairwise_filter]
  apply hothers.imp_of_mem
  intro b b' hb hb' hne hon hon'
  exact absurd (hunique b hb b' hb' (of_decide_eq_true hon) (of_decide_eq_true hon')) hne

theorem pairwise_join (hrows : rows.Pairwise R) (hothers : others.Nodup)
    (hunique : ∀ a ∈ rows, ∀ b ∈ others, ∀ b' ∈ others, on a b → on a b' → b = b') :
    (join on rows others).Pairwise fun x y => R x.1 y.1 := by
  rw [join, List.pairwise_flatMap]
  constructor
  · intro a ha
    rw [List.pairwise_map]
    exact filter_pairwise hothers (hunique a ha)
  -- Rows of different origin are related as their origins are.
  · apply hrows.imp
    intro a a' hR x hx y hy
    obtain ⟨_, -, rfl⟩ := List.mem_map.1 hx
    obtain ⟨_, -, rfl⟩ := List.mem_map.1 hy
    exact hR

theorem pairwise_leftJoin (hrows : rows.Pairwise R) (hothers : others.Nodup)
    (hunique : ∀ a ∈ rows, ∀ b ∈ others, ∀ b' ∈ others, on a b → on a b' → b = b') :
    (leftJoin on rows others).Pairwise fun x y => R x.1 y.1 := by
  have hfst : ∀ a, ∀ x ∈ (if others.filter (on a) = [] then [(a, none)]
      else (others.filter (on a)).map fun b => (a, some b)), x.1 = a := by
    intro a x hx
    split at hx
    · rw [List.mem_singleton.1 hx]
    · obtain ⟨_, -, rfl⟩ := List.mem_map.1 hx
      rfl
  rw [leftJoin, List.pairwise_flatMap]
  constructor
  · intro a ha
    split
    · exact List.pairwise_singleton _ _
    · rw [List.pairwise_map]
      exact filter_pairwise hothers (hunique a ha)
  · apply hrows.imp
    intro a a' hR x hx y hy
    rwa [hfst a x hx, hfst a' y hy]

end Joins

/-! ## Groups -/

section Groups

variable [DecidableEq κ] [LinearOrder γ] {key : α → κ} {value : α → γ} {rows : List α}

/-- `SELECT key, max(value) FROM rows GROUP BY key`. -/
def groupMax (key : α → κ) (value : α → γ) (rows : List α) : List (κ × γ) :=
  (rows.map key).dedup.filterMap fun k =>
    ((rows.filter (key · = k)).map value).max?.map (k, ·)

theorem mem_groupMax {k : κ} {m : γ} : (k, m) ∈ groupMax key value rows ↔
    (∃ a ∈ rows, key a = k ∧ value a = m) ∧ ∀ a ∈ rows, key a = k → value a ≤ m := by
  simp only [groupMax, List.mem_filterMap, List.mem_dedup, List.mem_map, Option.map_eq_some_iff,
    Prod.mk.injEq, List.max?_eq_some_iff, List.mem_filter, decide_eq_true_eq]
  constructor
  · rintro ⟨k', -, m', ⟨⟨a, ⟨ha, hkey⟩, hvalue⟩, hmax⟩, rfl, rfl⟩
    exact ⟨⟨a, ha, hkey, hvalue⟩, fun b hb hb' => hmax _ ⟨b, ⟨hb, hb'⟩, rfl⟩⟩
  · rintro ⟨⟨a, ha, hkey, hvalue⟩, hmax⟩
    refine ⟨k, ⟨a, ha, hkey⟩, m, ⟨⟨a, ⟨ha, hkey⟩, hvalue⟩, ?_⟩, rfl, rfl⟩
    rintro _ ⟨b, ⟨hb, hb'⟩, rfl⟩
    exact hmax b hb hb'

theorem nodup_groupMax : (groupMax key value rows).Nodup := by
  refine (List.nodup_dedup _).filterMap fun k k' x hx hx' => ?_
  obtain ⟨_, -, rfl⟩ := Option.map_eq_some_iff.1 hx
  obtain ⟨_, -, heq⟩ := Option.map_eq_some_iff.1 hx'
  exact ((Prod.mk.inj heq).1).symm

/-- A group has one greatest value. -/
theorem groupMax_unique {k : κ} {m m' : γ} (h : (k, m) ∈ groupMax key value rows)
    (h' : (k, m') ∈ groupMax key value rows) : m = m' := by
  obtain ⟨⟨a, ha, hkey, rfl⟩, hmax⟩ := mem_groupMax.1 h
  obtain ⟨⟨b, hb, hkey', rfl⟩, hmax'⟩ := mem_groupMax.1 h'
  exact le_antisymm (hmax' a ha hkey) (hmax b hb hkey')

end Groups

/-! ## Orders -/

/-- Rows of different keys are sorted strictly by their keys. -/
theorem pairwise_sorted {before : α → α → Prop} [DecidableRel before] {key : α → κ} {rows : List α}
    (htotal : ∀ x y, before x y ∨ before y x)
    (htrans : ∀ x y z, before x y → before y z → before x z)
    (hrows : rows.Pairwise fun x y => key x ≠ key y) :
    (rows.insertionSort before).Pairwise fun x y => before x y ∧ key x ≠ key y := by
  have : Std.Total before := ⟨htotal⟩
  have : IsTrans α before := ⟨htrans⟩
  have hsorted := List.pairwise_insertionSort before rows
  have hperm := List.perm_insertionSort before rows
  -- The order is that of the sort, and no two keys are equal in any order of the rows.
  exact hsorted.and ((hperm.pairwise_iff fun h => Ne.symm h).2 hrows)

/-! ## Pages -/

/-- `rows.offset(offset).limit(limit)`. -/
def page (offset limit : Nat) (rows : List α) : List α := (rows.drop offset).take limit

/-- The pages of a query, taken one after the other with any limit, are the rows. -/
def Pages (query : Nat → Nat → List α) (rows : List α) : Prop :=
  ∀ limit, 0 < limit → ((List.range ((rows.length + limit - 1) / limit)).flatMap fun k =>
    query (k * limit) limit) = rows

theorem pages_page {rows : List α} : Pages (fun offset limit => page offset limit rows) rows :=
  fun _ hlimit => Batch.flatten_slices hlimit rows

theorem Pages.map {query : Nat → Nat → List α} {rows : List α} (h : Pages query rows) (f : α → β) :
    Pages (fun offset limit => (query offset limit).map f) (rows.map f) := by
  intro limit hlimit
  rw [List.length_map, ← List.map_flatMap, h limit hlimit]

end Select
