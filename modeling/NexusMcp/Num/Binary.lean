-- SUMMARY: The rounding of natural numbers to a binary floating-point format.
import Mathlib.Algebra.Order.Ring.Nat
import Mathlib.Data.Rat.Defs
import Mathlib.Tactic.Ring

/-!
# Rounding to Binary Floating Point

A natural number is rounded to a significand of some `precision`, half to even, and it
overflows if the result does not lie below two to the `exponent`.
-/

namespace Binary

/-- The integer that is next to `m / d`, the even one if there are two. -/
def roundHalfEven (m d : Nat) : Nat :=
  let q := m / d
  let r := m % d
  if 2 * r < d ∨ (2 * r = d ∧ q % 2 = 0) then q else q + 1

/-- The distance of the values that `m` lies between. -/
def ulp (precision m : Nat) : Nat := 2 ^ (m.log2 + 1 - precision)

/-- The value that `m` is rounded to. -/
@[irreducible] def ofNat (precision exponent m : Nat) : Option Nat :=
  let value := roundHalfEven m (ulp precision m) * ulp precision m
  if value < 2 ^ exponent then some value else none

variable {precision exponent m d : Nat}

theorem div_le_roundHalfEven : m / d ≤ roundHalfEven m d := by
  unfold roundHalfEven
  dsimp only
  split <;> omega

theorem roundHalfEven_le : roundHalfEven m d ≤ m / d + 1 := by
  unfold roundHalfEven
  dsimp only
  split <;> omega

theorem ulp_pos : 0 < ulp precision m := Nat.two_pow_pos _

/-- What is not below the bound stays there. -/
theorem le_round_of_le (hprecision : 0 < precision) (h : 2 ^ exponent ≤ m)
    (hexponent : precision ≤ exponent) :
    2 ^ exponent ≤ roundHalfEven m (ulp precision m) * ulp precision m := by
  have hm : m ≠ 0 := by
    have := Nat.two_pow_pos exponent
    omega
  have hlog : exponent ≤ m.log2 := (Nat.le_log2 hm).2 h
  have hpow : 2 ^ m.log2 = 2 ^ (precision - 1) * ulp precision m := by
    rw [ulp, ← Nat.pow_add]
    congr 1
    omega
  have hdiv : 2 ^ (precision - 1) ≤ m / ulp precision m := by
    rw [Nat.le_div_iff_mul_le ulp_pos, ← hpow]
    exact Nat.log2_self_le hm
  calc 2 ^ exponent ≤ 2 ^ m.log2 := Nat.pow_le_pow_right (by decide) hlog
    _ = 2 ^ (precision - 1) * ulp precision m := hpow
    _ ≤ _ := Nat.mul_le_mul_right _ (hdiv.trans div_le_roundHalfEven)

/-- What is far enough below the bound is rounded below it. -/
theorem round_lt_of_lt (hprecision : 0 < precision) (h : m < 2 ^ exponent) :
    roundHalfEven m (ulp precision m) * ulp precision m < 2 ^ (exponent + 1) := by
  have hulp : ulp precision m ≤ 2 ^ exponent := by
    by_cases hm : m = 0
    · subst hm
      refine Nat.pow_le_pow_right (by decide) ?_
      rw [Nat.log2_zero]
      omega
    · refine Nat.pow_le_pow_right (by decide) ?_
      have := (Nat.log2_lt hm).2 h
      omega
  calc roundHalfEven m (ulp precision m) * ulp precision m
      ≤ (m / ulp precision m + 1) * ulp precision m := Nat.mul_le_mul_right _ roundHalfEven_le
    _ = m / ulp precision m * ulp precision m + ulp precision m := Nat.succ_mul _ _
    _ ≤ m + ulp precision m := Nat.add_le_add_right (Nat.div_mul_le_self _ _) _
    _ < 2 ^ exponent + 2 ^ exponent := Nat.add_lt_add_of_lt_of_le h hulp
    _ = 2 ^ (exponent + 1) := by rw [Nat.pow_succ, Nat.mul_two]

/-- In between, half a unit decides. -/
theorem le_round_iff_of_lt {half : Nat} (hprecision : 0 < precision)
    (h : m < 2 ^ precision * (2 * half)) :
    2 ^ precision * (2 * half) ≤ roundHalfEven m (2 * half) * (2 * half) ↔
      2 ^ precision * (2 * half) ≤ m + half := by
  have hpos : 0 < 2 * half := Nat.pos_of_mul_pos_left (Nat.zero_lt_of_lt h)
  have hdiv : m / (2 * half) < 2 ^ precision := (Nat.div_lt_iff_lt_mul hpos).2 h
  have hmod := Nat.div_add_mod' m (2 * half)
  have hr : m % (2 * half) < 2 * half := Nat.mod_lt _ hpos
  have hodd : 2 ^ precision % 2 = 0 := by
    obtain ⟨n, rfl⟩ := Nat.exists_eq_succ_of_ne_zero hprecision.ne'
    rw [Nat.pow_succ, Nat.mul_mod_left]
  rw [Nat.mul_le_mul_right_iff hpos]
  unfold roundHalfEven
  generalize m / (2 * half) = q at hdiv hmod ⊢
  generalize m % (2 * half) = r at hmod hr ⊢
  generalize 2 ^ precision = bound at hdiv hodd ⊢
  dsimp only
  by_cases hlast : q + 1 = bound
  · have hbound : bound * (2 * half) = q * (2 * half) + 2 * half := by
      rw [← hlast, Nat.succ_mul]
    rw [hbound]
    split <;> omega
  · have hbound : (q + 2) * (2 * half) ≤ bound * (2 * half) :=
      Nat.mul_le_mul_right _ (by omega)
    rw [Nat.add_mul] at hbound
    split <;> omega

/-- Exactly what is not at least half a unit below the bound overflows. -/
theorem ofNat_eq_none (hprecision : 0 < precision) (hexponent : precision < exponent) :
    ofNat precision exponent m = none ↔ 2 ^ exponent ≤ m + 2 ^ (exponent - precision - 1) := by
  have hround : ofNat precision exponent m = none ↔
      2 ^ exponent ≤ roundHalfEven m (ulp precision m) * ulp precision m := by
    unfold ofNat
    dsimp only
    split <;> simp <;> omega
  rw [hround]
  have hhalf : 2 ^ (exponent - precision) = 2 * 2 ^ (exponent - precision - 1) := by
    rw [← Nat.pow_succ']
    congr 1
    omega
  have hbound : 2 ^ exponent = 2 ^ precision * (2 * 2 ^ (exponent - precision - 1)) := by
    rw [← hhalf, ← Nat.pow_add]
    congr 1
    omega
  -- Below the last binade rounding stays in range, and above the range it cannot come back. Between
  -- them the unit is known, and the bound is half a unit below the range.
  rcases Nat.lt_or_ge m (2 ^ (exponent - 1)) with hlow | hhigh
  · have hvalue := round_lt_of_lt hprecision hlow
    have hsucc : exponent - 1 + 1 = exponent := by omega
    have hunit : 2 ^ (exponent - precision - 1) ≤ 2 ^ (exponent - 1) :=
      Nat.pow_le_pow_right (by decide) (by omega)
    have hdouble : 2 ^ exponent = 2 ^ (exponent - 1) + 2 ^ (exponent - 1) := by
      rw [← Nat.mul_two, ← Nat.pow_succ, Nat.succ_eq_add_one, hsucc]
    rw [hsucc] at hvalue
    exact iff_of_false (by omega) (by omega)
  rcases Nat.lt_or_ge m (2 ^ exponent) with hin | hover
  · have hm : m ≠ 0 := by
      have := Nat.two_pow_pos (exponent - 1)
      omega
    have hlog : m.log2 = exponent - 1 :=
      (Nat.log2_eq_iff hm).2 ⟨hhigh, by rwa [show exponent - 1 + 1 = exponent by omega]⟩
    have hulp : ulp precision m = 2 * 2 ^ (exponent - precision - 1) := by
      rw [ulp, hlog, ← hhalf]
      congr 1
      omega
    rw [hulp, hbound]
    rw [hbound] at hin
    exact le_round_iff_of_lt hprecision hin
  · exact iff_of_true (le_round_of_le hprecision hover hexponent.le) (by omega)

/-! ## Powers of two -/

/-- No digit of a power of two is lost. -/
theorem roundHalfEven_two_pow {k : Nat} (hprecision : 0 < precision) :
    roundHalfEven (2 ^ k) (ulp precision (2 ^ k)) * ulp precision (2 ^ k) = 2 ^ k := by
  have hdvd : ulp precision (2 ^ k) ∣ 2 ^ k := by
    rw [ulp, Nat.log2_two_pow]
    exact Nat.pow_dvd_pow 2 (by omega)
  have hexact : roundHalfEven (2 ^ k) (ulp precision (2 ^ k)) = 2 ^ k / ulp precision (2 ^ k) := by
    unfold roundHalfEven
    dsimp only
    rw [Nat.mod_eq_zero_of_dvd hdvd, Nat.mul_zero, if_pos (.inl ulp_pos)]
  rw [hexact, Nat.div_mul_cancel hdvd]

theorem ofNat_two_pow {k : Nat} (hprecision : 0 < precision) :
    ofNat precision exponent (2 ^ k) = if k < exponent then some (2 ^ k) else none := by
  unfold ofNat
  dsimp only
  rw [roundHalfEven_two_pow hprecision]
  simp only [Nat.pow_lt_pow_iff_right (Nat.one_lt_two)]

/-! ## Values -/

/-- A value of a format, zeros without their signs. -/
inductive Value where
  | finite (value : Rat)
  | infinite (negative : Bool)
  | nan
deriving Repr, DecidableEq

/-- `value < 0`. -/
def Value.isNegative : Value → Bool
  | finite value => value < 0
  | infinite negative => negative
  | nan => false

/-- A value times a power of two: it keeps its digits, unless it overflows. -/
def Value.scale (exponent factor : Nat) : Value → Value
  | finite value =>
    let bound : Nat := 2 ^ exponent
    if value * factor ≤ -bound then infinite true
    else if bound ≤ value * factor then infinite false
    else finite (value * factor)
  | value => value

end Binary
