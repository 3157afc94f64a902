-- SUMMARY: Tables whose rows correspond one by one, and transactions that simulate each other.
import NexusMcp.Txn.Serial
import NexusMcp.Txn.Table
import Mathlib.Data.List.Forall2

/-!
# Simulation

Two stores correspond when their rows do, one by one and up to a renaming of the keys. A
transaction simulates another when each success of it is matched by one of the other from a
corresponding store, and the stores correspond again afterwards.
-/

namespace Txn

/-! ## Lists that correspond -/

section Lists

variable {α β γ δ : Type} {R : α → β → Prop} {l : List α} {m : List β}

theorem rel_find? {p : α → Bool} {q : β → Bool} (h : List.Forall₂ R l m)
    (hpq : ∀ a b, R a b → p a = q b) : Option.Rel R (l.find? p) (m.find? q) := by
  induction h with
  | nil => exact .none
  | @cons a b l m hab _ ih =>
    rw [List.find?_cons, List.find?_cons, ← hpq a b hab]
    cases p a with
    | true => exact .some hab
    | false => exact ih

theorem forall₂_filter {p : α → Bool} {q : β → Bool} (h : List.Forall₂ R l m)
    (hpq : ∀ a b, R a b → p a = q b) : List.Forall₂ R (l.filter p) (m.filter q) := by
  refine List.rel_filter ?_ h
  intro a b hab
  change p a = true ↔ q b = true
  rw [hpq a b hab]

/-- What is read off the rows is renamed as they are. -/
theorem map_eq_of_forall₂ {f : α → γ} {g : β → δ} {σ : γ → δ} (h : List.Forall₂ R l m)
    (hfg : ∀ a b, R a b → g b = σ (f a)) : m.map g = (l.map f).map σ := by
  induction h with
  | nil => rfl
  | cons hab _ ih => rw [List.map_cons, List.map_cons, List.map_cons, ih, hfg _ _ hab]

theorem nodup_map_iff_of_forall₂ {f : α → γ} {g : β → δ} {σ : γ → δ} (h : List.Forall₂ R l m)
    (hσ : Function.Injective σ) (hfg : ∀ a b, R a b → g b = σ (f a)) :
    (m.map g).Nodup ↔ (l.map f).Nodup := by
  rw [map_eq_of_forall₂ h hfg, List.nodup_map_iff hσ]

end Lists

/-! ## Tables that correspond -/

namespace Table

variable {κ κ' ν ν' : Type} {key : ν → κ} {key' : ν' → κ'} {t : Table key} {t' : Table key'}

/-- The rows correspond one by one. -/
def Related (R : ν → ν' → Prop) (t : Table key) (t' : Table key') : Prop :=
  List.Forall₂ R t.rows t'.rows

theorem related_refl {R : ν → ν → Prop} {t : Table key} (h : ∀ v ∈ t, R v v) : t.Related R t :=
  List.forall₂_same.2 h

/-- The rows correspond under a relation that renames the keys one to one. -/
structure Renames (R : ν → ν' → Prop) (key : ν → κ) (key' : ν' → κ') (ρ : κ → κ') : Prop where
  injective : Function.Injective ρ
  key : ∀ v w, R v w → key' w = ρ (key v)

variable [DecidableEq κ] [DecidableEq κ'] {R : ν → ν' → Prop} {ρ : κ → κ'} {v : ν} {w : ν'}

theorem Related.find? (h : t.Related R t') (hρ : Renames R key key' ρ) (k : κ) :
    Option.Rel R (t.find? k) (t'.find? (ρ k)) := by
  refine rel_find? h ?_
  intro v w hvw
  rw [hρ.key v w hvw, decide_eq_decide, hρ.injective.eq_iff]

theorem Related.find?_eq_none_iff (h : t.Related R t') (hρ : Renames R key key' ρ) {k : κ} :
    t'.find? (ρ k) = none ↔ t.find? k = none := by
  have hrel := h.find? hρ k
  generalize t.find? k = found at hrel
  generalize t'.find? (ρ k) = found' at hrel
  cases hrel with
  | none => simp
  | some _ => simp

/-- A row is inserted into both, or its key is taken in both. -/
theorem Related.insert (h : t.Related R t') (hρ : Renames R key key' ρ) (hvw : R v w) :
    (t.insert v).Related R (t'.insert w) := by
  have hkey := hρ.key v w hvw
  by_cases hfresh : t.find? (key v) = none
  · have hfresh' : t'.find? (key' w) = none := by
      rw [hkey]
      exact (h.find?_eq_none_iff hρ).2 hfresh
    unfold Related
    rw [rows_insert hfresh, rows_insert hfresh']
    exact List.rel_append h (.cons hvw .nil)
  · have htaken' : t'.find? (key' w) ≠ none := by
      rw [hkey]
      exact mt (h.find?_eq_none_iff hρ).1 hfresh
    rw [insert_of_taken hfresh, insert_of_taken htaken']
    exact h

/-- A row takes the place of the one under its key in both. -/
theorem Related.replace (h : t.Related R t') (hρ : Renames R key key' ρ) (hvw : R v w) :
    (t.modify (key v) fun _ => v).Related R (t'.modify (key' w) fun _ => w) := by
  refine List.rel_map ?_ h
  intro a b hab
  simp only [and_true, hρ.key a b hab, hρ.key v w hvw, hρ.injective.eq_iff]
  split
  · exact hvw
  · exact hab

end Table

/-! ## Transactions that simulate -/

section Simulates

variable {S T E F α β γ δ : Type} {R : S → T → Prop} {Q : α → β → Prop} {Q' : γ → δ → Prop}

/-- Each success of `x` is matched by one of `y`, from stores that correspond to stores that
    correspond, with results that correspond. -/
def Simulates (R : S → T → Prop) (Q : α → β → Prop) (x : Transaction S E α)
    (y : Transaction T F β) : Prop :=
  ∀ s t, R s t → ∀ a s', x s = .ok (a, s') → ∃ b t', y t = .ok (b, t') ∧ Q a b ∧ R s' t'

/-- One transaction and then another. -/
def Transaction.andThen (x : Transaction S E α) (f : α → Transaction S E γ) :
    Transaction S E γ := fun s =>
  match x s with
  | .ok (a, s') => f a s'
  | .error e => .error e

theorem Transaction.andThen_eq_ok {x : Transaction S E α} {f : α → Transaction S E γ} {s s'' : S}
    {c : γ} : x.andThen f s = .ok (c, s'') ↔ ∃ a s', x s = .ok (a, s') ∧ f a s' = .ok (c, s'') := by
  unfold andThen
  cases x s with
  | error e => simp
  | ok result =>
    obtain ⟨a, s'⟩ := result
    simp

namespace Simulates

variable {x : Transaction S E α} {y : Transaction T F β}

theorem andThen {f : α → Transaction S E γ} {g : β → Transaction T F δ} (h : Simulates R Q x y)
    (hfg : ∀ a b, Q a b → Simulates R Q' (f a) (g b)) :
    Simulates R Q' (x.andThen f) (y.andThen g) := by
  intro s t hst c s'' hc
  obtain ⟨a, s', hx, hf⟩ := Transaction.andThen_eq_ok.1 hc
  obtain ⟨b, t', hy, hab, hst'⟩ := h s t hst a s' hx
  obtain ⟨d, t'', hg, hcd, hst''⟩ := hfg a b hab s' t' hst' c s'' hf
  exact ⟨d, t'', Transaction.andThen_eq_ok.2 ⟨b, t', hy, hg⟩, hcd, hst''⟩

/-- Both look at the store. -/
theorem query {f : S → α} {g : T → β} (h : ∀ s t, R s t → Q (f s) (g t)) :
    Simulates R Q (fun s => (.ok (f s, s) : Except E (α × S)))
      (fun t => (.ok (g t, t) : Except F (β × T))) := by
  intro s t hst a s' hs
  cases hs
  exact ⟨_, _, rfl, h s t hst, hst⟩

/-- Neither touches the store. -/
theorem outside {p : Except E α} {q : Except F β} (h : ∀ a, p = .ok a → ∃ b, q = .ok b ∧ Q a b) :
    Simulates R Q (fun s => p.map (·, s)) (fun t => q.map (·, t)) := by
  intro s t hst a s' hs
  cases p with
  | error e => cases hs
  | ok a =>
    cases hs
    obtain ⟨b, rfl, hab⟩ := h a rfl
    exact ⟨b, t, rfl, hab, hst⟩

end Simulates

end Simulates

end Txn
