-- SUMMARY: Tables with a primary key, in insertion order.
import Mathlib.Data.List.Nodup

/-!
# Tables

A table keeps its rows in insertion order and carries the proof that no two rows
share a key. Inserting a row whose key is taken and modifying a row so that its
key changes both leave the table as it is.
-/

namespace Txn

/-- Rows of type `ν`, identified by `key`. -/
structure Table {κ ν : Type} (key : ν → κ) where
  rows : List ν
  nodup : (rows.map key).Nodup

namespace Table

variable {κ ν : Type} {key : ν → κ}

@[ext] theorem ext {t t' : Table key} (h : t.rows = t'.rows) : t = t' := by
  cases t; cases t'; cases h; rfl

instance [DecidableEq ν] : DecidableEq (Table key) := fun t t' =>
  decidable_of_iff (t.rows = t'.rows) ⟨ext, congrArg _⟩

instance : Membership ν (Table key) := ⟨fun t v => v ∈ t.rows⟩

/-- The table without rows. -/
def empty : Table key := ⟨[], List.nodup_nil⟩

@[simp] theorem mem_rows {t : Table key} {v : ν} : v ∈ t.rows ↔ v ∈ t := Iff.rfl

@[simp] theorem not_mem_empty {v : ν} : v ∉ (empty : Table key) := List.not_mem_nil

/-- Two rows with the same key are the same row. -/
theorem eq_of_key_eq {t : Table key} {v v' : ν} (hv : v ∈ t) (hv' : v' ∈ t)
    (h : key v = key v') : v = v' :=
  List.inj_on_of_nodup_map t.nodup hv hv' h

variable [DecidableEq κ]

/-! ## Looking up -/

/-- The row with key `k`. -/
def find? (t : Table key) (k : κ) : Option ν := t.rows.find? (fun v => key v = k)

theorem find?_eq_some {t : Table key} {k : κ} {v : ν} :
    t.find? k = some v ↔ v ∈ t ∧ key v = k := by
  constructor
  · intro h
    exact ⟨List.mem_of_find?_eq_some h, by simpa using List.find?_some h⟩
  · rintro ⟨hv, rfl⟩
    cases h : t.find? (key v) with
    | none => exact absurd (List.find?_eq_none.1 h v hv) (by simp)
    | some w =>
      have hw : key w = key v := by simpa using List.find?_some h
      rw [eq_of_key_eq (List.mem_of_find?_eq_some h) hv hw]

theorem find?_eq_none {t : Table key} {k : κ} :
    t.find? k = none ↔ ∀ v ∈ t, key v ≠ k := by
  simp [find?, Membership.mem]

theorem find?_of_mem {t : Table key} {v : ν} (h : v ∈ t) : t.find? (key v) = some v :=
  find?_eq_some.2 ⟨h, rfl⟩

theorem mem_of_find? {t : Table key} {k : κ} {v : ν} (h : t.find? k = some v) : v ∈ t :=
  (find?_eq_some.1 h).1

theorem key_of_find? {t : Table key} {k : κ} {v : ν} (h : t.find? k = some v) : key v = k :=
  (find?_eq_some.1 h).2

@[simp] theorem find?_empty {k : κ} : (empty : Table key).find? k = none := rfl

/-! ## Inserting -/

/-- Append a row, unless its key is taken. -/
def insert (t : Table key) (v : ν) : Table key :=
  if h : t.find? (key v) = none then
    ⟨t.rows ++ [v], by
      have hv : ∀ w ∈ t.rows, key w ≠ key v := find?_eq_none.1 h
      simp only [List.map_append, List.map_cons, List.map_nil]
      refine List.nodup_append.2 ⟨t.nodup, by simp, ?_⟩
      intro a ha b hb
      obtain ⟨w, hw, rfl⟩ := List.mem_map.1 ha
      rw [List.mem_singleton] at hb
      exact hb ▸ hv w hw⟩
  else t

theorem rows_insert {t : Table key} {v : ν} (h : t.find? (key v) = none) :
    (t.insert v).rows = t.rows ++ [v] := by
  simp [insert, h]

theorem insert_of_taken {t : Table key} {v : ν} (h : t.find? (key v) ≠ none) :
    t.insert v = t := by
  simp [insert, h]

theorem mem_insert {t : Table key} {v w : ν} (h : t.find? (key v) = none) :
    w ∈ t.insert v ↔ w ∈ t ∨ w = v := by
  rw [← mem_rows, rows_insert h]
  simp

/-- A row of the table after an insertion was there, or is the new one. -/
theorem mem_of_mem_insert {t : Table key} {v w : ν} (h : w ∈ t.insert v) : w ∈ t ∨ w = v := by
  by_cases hfree : t.find? (key v) = none
  · exact (mem_insert hfree).1 h
  · exact .inl (insert_of_taken hfree ▸ h)

theorem find?_insert_self {t : Table key} {v : ν} (h : t.find? (key v) = none) :
    (t.insert v).find? (key v) = some v :=
  find?_of_mem ((mem_insert h).2 (.inr rfl))

theorem find?_insert_ne {t : Table key} {v : ν} {k : κ} (hk : key v ≠ k) :
    (t.insert v).find? k = t.find? k := by
  by_cases h : t.find? (key v) = none
  · unfold find?
    rw [rows_insert h, List.find?_append]
    simp [hk]
  · rw [insert_of_taken h]

/-! ## Modifying -/

/-- Apply `f` to the row with key `k`, where that keeps the key. -/
def modify (t : Table key) (k : κ) (f : ν → ν) : Table key where
  rows := t.rows.map fun v => if key v = k ∧ key (f v) = k then f v else v
  nodup := by
    have h : (t.rows.map fun v => if key v = k ∧ key (f v) = k then f v else v).map key =
        t.rows.map key := by
      rw [List.map_map]
      refine List.map_congr_left fun v _ => ?_
      simp only [Function.comp_apply]
      split
      · next h => rw [h.1, h.2]
      · rfl
    rw [h]
    exact t.nodup

theorem mem_modify {t : Table key} {k : κ} {f : ν → ν} {w : ν}
    (hf : ∀ v ∈ t, key v = k → key (f v) = k) :
    w ∈ t.modify k f ↔ (w ∈ t ∧ key w ≠ k) ∨ ∃ v ∈ t, key v = k ∧ w = f v := by
  rw [← mem_rows]
  simp only [modify, List.mem_map, mem_rows]
  constructor
  · rintro ⟨v, hv, rfl⟩
    by_cases hk : key v = k
    · rw [if_pos ⟨hk, hf v hv hk⟩]
      exact .inr ⟨v, hv, hk, rfl⟩
    · rw [if_neg (fun h => hk h.1)]
      exact .inl ⟨hv, hk⟩
  · rintro (⟨hw, hk⟩ | ⟨v, hv, hk, rfl⟩)
    · exact ⟨w, hw, if_neg (fun h => hk h.1)⟩
    · exact ⟨v, hv, if_pos ⟨hk, hf v hv hk⟩⟩

/-- A row of the table after a modification was there, or comes from a row that was. -/
theorem mem_of_mem_modify {t : Table key} {k : κ} {f : ν → ν} {w : ν} (h : w ∈ t.modify k f) :
    w ∈ t ∨ ∃ v ∈ t, w = f v := by
  obtain ⟨v, hv, rfl⟩ := List.mem_map.1 h
  split
  · exact .inr ⟨v, hv, rfl⟩
  · exact .inl hv

theorem find?_modify_self {t : Table key} {k : κ} {f : ν → ν} {v : ν}
    (h : t.find? k = some v) (hf : key (f v) = k) : (t.modify k f).find? k = some (f v) := by
  have ht : ∀ w ∈ t, key w = k → key (f w) = k := by
    intro w hw hk
    rw [eq_of_key_eq hw (mem_of_find? h) (hk.trans (key_of_find? h).symm)]
    exact hf
  exact find?_eq_some.2
    ⟨(mem_modify ht).2 (.inr ⟨v, mem_of_find? h, key_of_find? h, rfl⟩), hf⟩

theorem find?_modify_ne {t : Table key} {k k' : κ} {f : ν → ν} (hk : k' ≠ k) :
    (t.modify k f).find? k' = t.find? k' := by
  unfold find? modify
  rw [List.find?_map]
  have hp : (fun v => decide (key v = k')) ∘
      (fun v => if key v = k ∧ key (f v) = k then f v else v) = fun v => decide (key v = k') := by
    funext v
    simp only [Function.comp_apply]
    split
    · next h => simp [h.1, h.2]
    · rfl
  rw [hp]
  cases hv : t.rows.find? (fun v => decide (key v = k')) with
  | none => rfl
  | some v =>
    have hkv : key v = k' := by simpa using List.find?_some hv
    have hne : ¬ (key v = k ∧ key (f v) = k) := fun h => hk (hkv ▸ h.1)
    rw [Option.map_some, if_neg hne]

theorem find?_modify_none {t : Table key} {k k' : κ} {f : ν → ν} (h : t.find? k' = none) :
    (t.modify k f).find? k' = none := by
  by_cases hk : k' = k
  · subst hk
    refine find?_eq_none.2 fun w hw => ?_
    rw [← mem_rows] at hw
    obtain ⟨v, hv, rfl⟩ := List.mem_map.1 hw
    have hne := find?_eq_none.1 h v hv
    rw [if_neg (fun h => hne h.1)]
    exact hne
  · rw [find?_modify_ne hk, h]

/-- A modification of the last row keeps the rows before it. -/
theorem rows_modify_last {t : Table key} {f : ν → ν} {v : ν} {rows : List ν}
    (h : t.rows = rows ++ [v]) (hf : key (f v) = key v) :
    (t.modify (key v) f).rows = rows ++ [f v] := by
  have hnodup := t.nodup
  rw [h, List.map_append, List.nodup_append] at hnodup
  have hothers : ∀ w ∈ rows, key w ≠ key v := fun w hw =>
    hnodup.2.2 _ (List.mem_map_of_mem hw) _ (by simp)
  have hrows : ∀ w ∈ rows, (if key w = key v ∧ key (f w) = key v then f w else w) = w :=
    fun w hw => if_neg fun h => hothers w hw h.1
  simp only [modify, h, List.map_append, List.map_cons, List.map_nil, hf, and_self, if_true]
  rw [List.map_congr_left hrows, List.map_id']

/-- Apply `f`, which keeps every key, to all rows. -/
def map (t : Table key) (f : ν → ν) (hf : ∀ v, key (f v) = key v) : Table key where
  rows := t.rows.map f
  nodup := by
    rw [List.map_map, show key ∘ f = key from funext hf]
    exact t.nodup

theorem find?_map {t : Table key} {f : ν → ν} {hf : ∀ v, key (f v) = key v} {k : κ} :
    (t.map f hf).find? k = (t.find? k).map f := by
  unfold find? map
  rw [List.find?_map]
  congr 2
  funext v
  simp [hf]

/-- A modification that `g` does not see leaves what `g` selects as it is. -/
theorem filterMap_modify {t : Table key} {k : κ} {f : ν → ν} {β : Type} {g : ν → Option β}
    (hg : ∀ v, key v = k → g (f v) = g v) :
    (t.modify k f).rows.filterMap g = t.rows.filterMap g := by
  unfold modify
  rw [List.filterMap_map]
  refine List.filterMap_congr fun v _ => ?_
  simp only [Function.comp_apply]
  split
  · next h => exact hg v h.1
  · rfl

/-- A modification that `p` does not see finds a row satisfying `p` where there was one. -/
theorem isSome_find?_modify {t : Table key} {k : κ} {f : ν → ν} {p : ν → Bool}
    (hp : ∀ v, p (f v) = p v) :
    ((t.modify k f).rows.find? p).isSome = (t.rows.find? p).isSome := by
  unfold modify
  rw [List.find?_map, Option.isSome_map]
  congr 2
  funext v
  simp only [Function.comp_apply]
  split
  · exact hp v
  · rfl

/-- Replacing the row `v` by `w`, which has the same key. -/
theorem mem_modify_row {t : Table key} {f : ν → ν} {v w x : ν} (h : t.find? (key v) = some v)
    (hf : f v = w) (hw : key w = key v) :
    x ∈ t.modify (key v) f ↔ (x ∈ t ∧ key x ≠ key v) ∨ x = w := by
  have hrow : ∀ u ∈ t, key u = key v → u = v := fun u hu hk =>
    eq_of_key_eq hu (mem_of_find? h) hk
  rw [mem_modify (fun u hu hk => by rw [hrow u hu hk, hf, hw])]
  constructor
  · rintro (hx | ⟨u, hu, hk, rfl⟩)
    · exact .inl hx
    · exact .inr (by rw [hrow u hu hk, hf])
  · rintro (hx | rfl)
    · exact .inl hx
    · exact .inr ⟨v, mem_of_find? h, rfl, hf.symm⟩

end Table

end Txn
