-- SUMMARY: The slices of a list that a loop over its batches takes.
import Mathlib.Data.List.Basic

/-! # Slices of a List -/

namespace Batch

variable {α : Type} {size : Nat} {l : List α}

/-- `l[start : start + size]` for each `start` in `range(0, len(l), size)`. -/
def slices (size : Nat) (l : List α) : List (List α) :=
  (List.range ((l.length + size - 1) / size)).map fun k => (l.drop (k * size)).take size

@[simp] theorem length_slices : (slices size l).length = (l.length + size - 1) / size := by
  simp [slices]

@[simp] theorem slices_nil (hsize : 0 < size) : slices size ([] : List α) = [] := by
  have hlt : size - 1 < size := by omega
  simp [slices, hlt]

/-- The loop takes the first slice and goes on with the rest. -/
theorem slices_of_ne_nil (hsize : 0 < size) (h : l ≠ []) :
    slices size l = l.take size :: slices size (l.drop size) := by
  have hlength : 0 < l.length := List.length_pos_of_ne_nil h
  have hcount : (l.length + size - 1) / size = ((l.drop size).length + size - 1) / size + 1 := by
    rw [List.length_drop]
    rcases Nat.le_total l.length size with hle | hle
    · have hzero : l.length - size = 0 := Nat.sub_eq_zero_of_le hle
      have hsplit : l.length + size - 1 = (l.length - 1) + size := by omega
      rw [hzero, hsplit, Nat.add_div_right _ hsize, Nat.div_eq_of_lt (by omega),
        Nat.div_eq_of_lt (by omega)]
    · have hsplit : l.length + size - 1 = (l.length - size + size - 1) + size := by omega
      rw [hsplit, Nat.add_div_right _ hsize]
  rw [slices, hcount, List.range_succ_eq_map, List.map_cons, List.map_map]
  refine congrArg₂ _ (by simp) (List.map_congr_left fun k _ => ?_)
  simp only [Function.comp, List.drop_drop, Nat.succ_mul, Nat.add_comm]

/-- Every slice has at least one element and at most as many as the size and the list allow. -/
theorem length_of_mem_slices (hsize : 0 < size) {slice : List α} (h : slice ∈ slices size l) :
    0 < slice.length ∧ slice.length ≤ min size l.length := by
  obtain ⟨k, hk, rfl⟩ := List.mem_map.1 h
  have hk := List.mem_range.1 hk
  have hstart : k * size < l.length := by
    have hmul := (Nat.lt_div_iff_mul_lt hsize).1 hk
    omega
  rw [List.length_take, List.length_drop]
  omega

/-- The first slices together. -/
theorem flatten_take_slices (hsize : 0 < size) (l : List α) (k : Nat) :
    ((slices size l).take k).flatten = l.take (k * size) := by
  induction k generalizing l with
  | zero => simp
  | succ k ih =>
    by_cases hl : l = []
    · subst hl
      simp [slices_nil hsize]
    · rw [slices_of_ne_nil hsize hl, List.take_succ_cons, List.flatten_cons, ih,
        Nat.succ_mul, Nat.add_comm, List.take_add]

theorem flatten_slices (hsize : 0 < size) (l : List α) : (slices size l).flatten = l := by
  have hall : l.length ≤ (slices size l).length * size := by
    rw [length_slices]
    have hdiv := Nat.div_add_mod (l.length + size - 1) size
    have hmod := Nat.mod_lt (l.length + size - 1) hsize
    rw [Nat.mul_comm] at hdiv
    omega
  have hflatten := flatten_take_slices hsize l (slices size l).length
  rwa [List.take_length, List.take_of_length_le hall] at hflatten

end Batch
