-- SUMMARY: The first candidates that pass a test, in a loop that stops at a limit.
import Mathlib.Data.List.Basic

/-!
# The First Allowed Candidates

The test may fail. A candidate below the last one that is returned is tested only as long as
the limit is not reached, so nothing depends on what is refused there.
-/

namespace Select

variable {ε α : Type}

/-- The loop over the candidates, with those found so far. It tests no candidate after the
    limit has been reached. -/
def firstAllowed (test : α → Except ε Bool) (limit : Nat) : List α → List α → Except ε (List α)
  | [], found => .ok found
  | a :: l, found => do
    let allowed ← test a
    let found := if allowed then found ++ [a] else found
    if found.length = limit then return found else firstAllowed test limit l found

/-- The test does not refuse the candidate. -/
def admits (test : α → Except ε Bool) (a : α) : Bool :=
  match test a with
  | .ok allowed => allowed
  | .error _ => true

variable {test : α → Except ε Bool} {limit : Nat} {a : α} {l found found' : List α}

theorem firstAllowed_of_error {e : ε} (h : test a = .error e) :
    firstAllowed test limit (a :: l) found = .error e := by
  rw [firstAllowed, h]
  rfl

theorem firstAllowed_of_refused (h : test a = .ok false) (hfound : found.length < limit) :
    firstAllowed test limit (a :: l) found = firstAllowed test limit l found := by
  rw [firstAllowed, h]
  exact if_neg (Nat.ne_of_lt hfound)

theorem firstAllowed_of_allowed (h : test a = .ok true) :
    firstAllowed test limit (a :: l) found =
      if found.length + 1 = limit then .ok (found ++ [a])
      else firstAllowed test limit l (found ++ [a]) := by
  have hlength : (found ++ [a]).length = found.length + 1 := List.length_append
  rw [firstAllowed, h, ← hlength]
  rfl

theorem length_lt_of_ne (hfound : found.length < limit) (hlimit : ¬ found.length + 1 = limit) :
    (found ++ [a]).length < limit := by
  rw [List.length_append, List.length_singleton]
  omega

/-- What is returned are the first candidates that are not refused. -/
theorem firstAllowed_eq_ok (h : firstAllowed test limit l found = .ok found')
    (hfound : found.length < limit) :
    found' = found ++ (l.filter (admits test)).take (limit - found.length) := by
  induction l generalizing found with
  | nil =>
    cases h
    simp
  | cons a l ih =>
    cases htest : test a with
    | error e =>
      rw [firstAllowed_of_error htest] at h
      cases h
    | ok allowed =>
      cases allowed with
      | false =>
        rw [firstAllowed_of_refused htest hfound] at h
        rw [ih h hfound, List.filter_cons_of_neg (by simp [admits, htest])]
      | true =>
        rw [firstAllowed_of_allowed htest] at h
        rw [List.filter_cons_of_pos (by simp [admits, htest])]
        split at h
        · next hlimit =>
          cases h
          simp [← hlimit]
        · next hlimit =>
          have hlength : (found ++ [a]).length < limit := length_lt_of_ne hfound hlimit
          have hleft : limit - found.length = limit - (found ++ [a]).length + 1 := by
            rw [List.length_append, List.length_singleton]
            omega
          rw [ih h hlength, hleft, List.take_succ_cons, List.append_assoc, List.singleton_append]

theorem firstAllowed_isOk (h : ∀ a ∈ l, ∃ allowed, test a = .ok allowed)
    (hfound : found.length < limit) :
    ∃ found', firstAllowed test limit l found = .ok found' := by
  induction l generalizing found with
  | nil => exact ⟨found, rfl⟩
  | cons a l ih =>
    obtain ⟨⟨allowed, htest⟩, hrest⟩ := List.forall_mem_cons.1 h
    cases allowed with
    | false =>
      rw [firstAllowed_of_refused htest hfound]
      exact ih hrest hfound
    | true =>
      rw [firstAllowed_of_allowed htest]
      split
      · exact ⟨_, rfl⟩
      · next hlimit => exact ih hrest (length_lt_of_ne hfound hlimit)

theorem firstAllowed_of_filter_nil (h : l.filter (admits test) = [])
    (hfound : found.length < limit) : firstAllowed test limit l found = .ok found := by
  induction l with
  | nil => rfl
  | cons a l ih =>
    obtain ⟨hrefused, hrest⟩ := List.forall_mem_cons.1 (List.filter_eq_nil_iff.1 h)
    have htest : test a = .ok false := by
      cases htest : test a <;> simp_all [admits]
    rw [firstAllowed_of_refused htest hfound]
    exact ih (List.filter_eq_nil_iff.2 hrest)

theorem le_length_or_eq_nil {l l' : List α} {n : Nat} (h : (l ++ l').take n = l.take n) :
    n ≤ l.length ∨ l' = [] := by
  have hlength := congrArg List.length h
  rw [List.length_take, List.length_take, List.length_append] at hlength
  rw [← List.length_eq_zero_iff]
  omega

/-- Refused candidates may come and go below those among which the limit is reached. -/
theorem firstAllowed_congr {above rest rest' : List α} (hfound : found.length < limit)
    (hreached : limit ≤ found.length + (above.filter (admits test)).length ∨
      rest.filter (admits test) = [])
    (hrest : rest.filter (admits test) = rest'.filter (admits test)) :
    firstAllowed test limit (above ++ rest) found =
      firstAllowed test limit (above ++ rest') found := by
  induction above generalizing found with
  | nil =>
    obtain hreached | hnil := hreached
    · simp only [List.filter_nil, List.length_nil] at hreached
      omega
    · rw [List.nil_append, List.nil_append, firstAllowed_of_filter_nil hnil hfound,
        firstAllowed_of_filter_nil (hrest ▸ hnil) hfound]
  | cons a above ih =>
    rw [List.cons_append, List.cons_append]
    cases htest : test a with
    | error e => rw [firstAllowed_of_error htest, firstAllowed_of_error htest]
    | ok allowed =>
      cases allowed with
      | false =>
        rw [firstAllowed_of_refused htest hfound, firstAllowed_of_refused htest hfound]
        rw [List.filter_cons_of_neg (by simp [admits, htest])] at hreached
        exact ih hfound hreached
      | true =>
        rw [firstAllowed_of_allowed htest, firstAllowed_of_allowed htest]
        rw [List.filter_cons_of_pos (by simp [admits, htest]), List.length_cons] at hreached
        split
        · rfl
        · next hlimit =>
          apply ih (length_lt_of_ne hfound hlimit)
          rw [List.length_append, List.length_singleton]
          exact hreached.imp_left fun h => by omega

end Select
