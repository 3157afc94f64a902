-- SUMMARY: Computations on a state that outlives their exceptions.
import Mathlib.Data.List.Forall2

/-!
# Lasting Effects

A use case that commits one transaction after the other: what it has committed stays when it
raises an exception later.
-/

namespace Txn

/-- A computation with its result, or its exception, and the state it leaves. -/
def Lasting (S E α : Type) := S → Except E α × S

namespace Lasting

variable {S E α β : Type}

def ret (a : α) : Lasting S E α := fun s => (.ok a, s)

def bind (m : Lasting S E α) (f : α → Lasting S E β) : Lasting S E β := fun s =>
  match m s with
  | (.ok a, s') => f a s'
  | (.error e, s') => (.error e, s')

instance : Monad (Lasting S E) where
  pure := .ret
  bind := .bind

theorem bind_apply {m : Lasting S E α} {f : α → Lasting S E β} {s : S} :
    (m >>= f) s = match m s with
      | (.ok a, s') => f a s'
      | (.error e, s') => (.error e, s') := rfl

instance : LawfulMonad (Lasting S E) := by
  refine LawfulMonad.mk' _ ?_ ?_ ?_
  · intro _ m
    funext s
    change (m >>= pure) s = m s
    rw [bind_apply]
    split <;> next h => exact h.symm
  · intros
    rfl
  · intro _ _ _ m f g
    funext s
    rw [bind_apply, bind_apply, bind_apply]
    cases h : m s with
    | mk result s' => cases result <;> rfl

/-- A computation that does not touch the state. -/
def lift (x : Except E α) : Lasting S E α := fun s => (x, s)

/-- What `f` reads of the state, which it changes. -/
def update (f : S → α × S) : Lasting S E α := fun s => (.ok (f s).1, (f s).2)

/-- A transaction on a part of the state: it is rolled back if it raises an exception. -/
def atomically (x : S → Except E S) : Lasting S E Unit := fun s =>
  match x s with
  | .ok s' => (.ok (), s')
  | .error e => (.error e, s)

/-- Two computations that both run to their end. The exception of the first goes first. -/
def gather (m : Lasting S E α) (n : Lasting S E β) : Lasting S E (α × β) := fun s =>
  match m s with
  | (.ok a, s₁) => ((n s₁).1.map (a, ·), (n s₁).2)
  | (.error e, s₁) => (.error e, (n s₁).2)

variable {m : Lasting S E α} {f : α → Lasting S E β} {s s' : S} {a : α} {b : β} {e : E}

theorem bind_eq_ok : (m >>= f) s = (.ok b, s') ↔
    ∃ a s₁, m s = (.ok a, s₁) ∧ f a s₁ = (.ok b, s') := by
  rw [bind_apply]
  constructor
  · intro h
    split at h
    · next a s₁ hm => exact ⟨a, s₁, hm, h⟩
    · cases h
  · rintro ⟨a, s₁, hm, hf⟩
    rw [hm]
    exact hf

theorem bind_eq_error : (m >>= f) s = (.error e, s') ↔
    m s = (.error e, s') ∨ ∃ a s₁, m s = (.ok a, s₁) ∧ f a s₁ = (.error e, s') := by
  rw [bind_apply]
  constructor
  · intro h
    split at h
    · next a s₁ hm => exact .inr ⟨a, s₁, hm, h⟩
    · next e' s₁ hm =>
      cases h
      exact .inl hm
  · rintro (hm | ⟨a, s₁, hm, hf⟩)
    · rw [hm]
    · rw [hm]
      exact hf

theorem pure_eq_ok {a' : α} : (pure a : Lasting S E α) s = (.ok a', s') ↔ a = a' ∧ s = s' := by
  constructor
  · intro h
    cases h
    exact ⟨rfl, rfl⟩
  · rintro ⟨rfl, rfl⟩
    rfl

theorem lift_eq_ok {x : Except E α} : lift x s = (.ok a, s') ↔ x = .ok a ∧ s = s' := by
  simp [lift]

theorem lift_eq_error {x : Except E α} : lift x s = (.error e, s') ↔ x = .error e ∧ s = s' := by
  simp [lift]

theorem lift_ok_bind : (lift (.ok a) >>= f) = f a := rfl

theorem atomically_eq_ok {x : S → Except E S} {u : Unit} :
    atomically x s = (.ok u, s') ↔ x s = .ok s' := by
  unfold atomically
  cases x s <;> simp

theorem atomically_eq_error {x : S → Except E S} :
    atomically x s = (.error e, s') ↔ x s = .error e ∧ s = s' := by
  unfold atomically
  cases x s <;> simp

theorem gather_eq_ok {n : Lasting S E β} : gather m n s = (.ok (a, b), s') ↔
    ∃ s₁, m s = (.ok a, s₁) ∧ n s₁ = (.ok b, s') := by
  unfold gather
  constructor
  · intro h
    split at h
    · next a₁ s₁ hm =>
      rcases hn : n s₁ with ⟨_ | b₁, s₂⟩ <;> rw [hn] at h <;> cases h
      exact ⟨s₁, hm, hn⟩
    · cases h
  · rintro ⟨s₁, hm, hn⟩
    rw [hm]
    simp only [hn, Except.map]

/-! ## Loops -/

/-- What holds of every step from a state to the next holds of the whole loop. -/
theorem mapM_related {f : α → Lasting S E β} {R : S → S → Prop} (hrefl : ∀ s, R s s)
    (htrans : ∀ s s' s'', R s s' → R s' s'' → R s s'') (hf : ∀ a s, R s (f a s).2) (l : List α)
    (s : S) : R s (l.mapM f s).2 := by
  induction l generalizing s with
  | nil => exact hrefl s
  | cons a l ih =>
    rw [List.mapM_cons, bind_apply]
    have hstep := hf a s
    cases h : f a s with
    | mk result s₁ =>
      rw [h] at hstep
      cases result with
      | error e => exact hstep
      | ok b =>
        refine htrans _ _ _ hstep ?_
        have hrest := ih s₁
        change R s₁ ((l.mapM f >>= fun bs => pure (b :: bs)) s₁).2
        rw [bind_apply]
        cases h' : l.mapM f s₁ with
        | mk result s₂ =>
          rw [h'] at hrest
          cases result <;> exact hrest

/-- The results of a loop are those of its steps. -/
theorem mapM_eq_ok {f : α → Lasting S E β} {l : List α} {bs : List β} {s s' : S}
    (h : l.mapM f s = (.ok bs, s')) :
    List.Forall₂ (fun a b => ∃ s s', f a s = (.ok b, s')) l bs := by
  induction l generalizing bs s with
  | nil =>
    cases h
    exact .nil
  | cons a l ih =>
    rw [List.mapM_cons, bind_eq_ok] at h
    obtain ⟨b, s₁, hb, h⟩ := h
    obtain ⟨bs', s₂, hbs, h⟩ := bind_eq_ok.1 h
    cases h
    exact .cons ⟨_, _, hb⟩ (ih hbs)

end Lasting

end Txn
