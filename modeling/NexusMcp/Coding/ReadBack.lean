-- SUMMARY: Encodings that can be read back, for concatenations, separated lists and runs.
import Mathlib.Data.List.Basic

/-!
# Encodings That Are Read Back

An encoding as a list of symbols can be read back where what follows it is known to be one of
some texts. The value and the rest of the text are then determined, without a parser.
-/

namespace Coding

variable {α β σ : Type}

/-- A value in the domain is determined by its encoding with something behind it, among the
    texts that may follow. -/
def ReadBack (enc : α → List σ) (Domain : α → Prop) (Follows : List σ → Prop) (x : α) : Prop :=
  ∀ y, Domain y → ∀ r s, Follows r → Follows s → enc x ++ r = enc y ++ s → x = y ∧ r = s

variable {enc : α → List σ} {Domain : α → Prop} {Follows Follows' : List σ → Prop} {x : α}

/-- Fewer texts may follow. -/
theorem ReadBack.mono (h : ReadBack enc Domain Follows x) (hle : ∀ r, Follows' r → Follows r) :
    ReadBack enc Domain Follows' x :=
  fun y hy r s hr hs => h y hy r s (hle r hr) (hle s hs)

/-- Where nothing follows, equal encodings are those of one value. -/
theorem ReadBack.eq (h : ReadBack enc Domain Follows x) (hnil : Follows []) {y : α}
    (hy : Domain y) (henc : enc x = enc y) : x = y :=
  (h y hy [] [] hnil hnil (by rw [henc])).1

/-! ## Concatenations -/

/-- A concatenation up to a symbol that no item starts with. -/
theorem readBack_concat {stop : σ} (hstart : ∀ x, Domain x → ∃ c rest, enc x = c :: rest ∧ c ≠ stop)
    {xs : List α} (hxs : ∀ x ∈ xs, Domain x)
    (hread : ∀ x ∈ xs, ReadBack enc Domain (fun _ => True) x) :
    ReadBack (fun xs => xs.flatMap enc ++ [stop]) (∀ x ∈ ·, Domain x) (fun _ => True) xs := by
  intro ys hys r s _ _ h
  simp only [List.append_assoc, List.singleton_append] at h
  induction xs generalizing ys with
  | nil =>
    cases ys with
    | nil => exact ⟨rfl, (List.cons.inj h).2⟩
    | cons y ys =>
      obtain ⟨c, rest, hy, hne⟩ := hstart y (hys y List.mem_cons_self)
      rw [List.flatMap_cons, hy] at h
      exact absurd (List.cons.inj h).1.symm hne
  | cons x xs ih =>
    cases ys with
    | nil =>
      obtain ⟨c, rest, hx, hne⟩ := hstart x (hxs x List.mem_cons_self)
      rw [List.flatMap_cons, hx] at h
      exact absurd (List.cons.inj h).1 hne
    | cons y ys =>
      rw [List.flatMap_cons, List.flatMap_cons, List.append_assoc, List.append_assoc] at h
      obtain ⟨rfl, hrest⟩ := hread x List.mem_cons_self y (hys y List.mem_cons_self) _ _ trivial
        trivial h
      obtain ⟨rfl, rfl⟩ := ih (fun z hz => hxs z (List.mem_cons_of_mem x hz))
        (fun z hz => hread z (List.mem_cons_of_mem x hz)) ys
        (fun z hz => hys z (List.mem_cons_of_mem x hz)) hrest
      exact ⟨rfl, rfl⟩

/-! ## Separated lists -/

/-- The items of a list with a separator between them, up to a closing symbol. -/
def closed (separator stop : σ) (enc : α → List σ) (xs : List α) : List σ :=
  [separator].intercalate (xs.map enc) ++ [stop]

theorem closed_cons_cons {separator stop : σ} {x x' : α} {xs : List α} :
    closed separator stop enc (x :: x' :: xs) =
      enc x ++ separator :: closed separator stop enc (x' :: xs) := by
  simp only [closed, List.map_cons, List.intercalate_cons_cons, List.append_assoc,
    List.nil_append, List.cons_append]

theorem closed_singleton {separator stop : σ} {x : α} :
    closed separator stop enc [x] = enc x ++ [stop] := by
  simp only [closed, List.map_cons, List.map_nil, List.intercalate_singleton]

/-- A separated list, where the separator and the closing symbol may follow an item and no item
    starts with the closing symbol. -/
theorem readBack_closed {separator stop : σ} (hne : separator ≠ stop)
    (hseparator : ∀ r, Follows (separator :: r)) (hstop : ∀ r, Follows (stop :: r))
    (hstart : ∀ x, Domain x → ∃ c rest, enc x = c :: rest ∧ c ≠ stop)
    {xs : List α} (hxs : ∀ x ∈ xs, Domain x) (hread : ∀ x ∈ xs, ReadBack enc Domain Follows x) :
    ReadBack (closed separator stop enc) (∀ x ∈ ·, Domain x) (fun _ => True) xs := by
  intro ys hys r s _ _ h
  -- A list that has an item does not close where another one begins.
  have hopen : ∀ z, Domain z → ∀ zs u v, closed separator stop enc (z :: zs) ++ u ≠ stop :: v := by
    intro z hz zs u v heq
    obtain ⟨c, rest, hc, hne⟩ := hstart z hz
    cases zs with
    | nil =>
      rw [closed_singleton, hc] at heq
      exact hne (List.cons.inj heq).1
    | cons z' zs =>
      rw [closed_cons_cons, hc] at heq
      exact hne (List.cons.inj heq).1
  induction xs generalizing ys with
  | nil =>
    cases ys with
    | nil => exact ⟨rfl, (List.cons.inj h).2⟩
    | cons y ys => exact absurd h.symm (hopen y (hys y List.mem_cons_self) ys s r)
  | cons x xs ih =>
    have hx := hxs x List.mem_cons_self
    cases ys with
    | nil => exact absurd h (hopen x hx xs r s)
    | cons y ys =>
      have hy := hys y List.mem_cons_self
      have hxy := hread x List.mem_cons_self y hy
      cases xs with
      | nil =>
        cases ys with
        | nil =>
          simp only [closed_singleton, List.append_assoc, List.singleton_append] at h
          obtain ⟨rfl, hrest⟩ := hxy _ _ (hstop r) (hstop s) h
          exact ⟨rfl, (List.cons.inj hrest).2⟩
        | cons y' ys =>
          simp only [closed_singleton, closed_cons_cons, List.append_assoc, List.cons_append] at h
          obtain ⟨-, hrest⟩ := hxy _ _ (hstop r) (hseparator _) h
          exact absurd (List.cons.inj hrest).1.symm hne
      | cons x' xs =>
        cases ys with
        | nil =>
          simp only [closed_singleton, closed_cons_cons, List.append_assoc, List.cons_append] at h
          obtain ⟨-, hrest⟩ := hxy _ _ (hseparator _) (hstop s) h
          exact absurd (List.cons.inj hrest).1 hne
        | cons y' ys =>
          simp only [closed_cons_cons, List.append_assoc, List.cons_append] at h
          obtain ⟨rfl, hrest⟩ := hxy _ _ (hseparator _) (hseparator _) h
          obtain ⟨htail, rfl⟩ := ih (fun z hz => hxs z (List.mem_cons_of_mem x hz))
            (fun z hz => hread z (List.mem_cons_of_mem x hz)) (y' :: ys)
            (fun z hz => hys z (List.mem_cons_of_mem x hz)) (List.cons.inj hrest).2
          exact ⟨by rw [htail], rfl⟩

/-! ## Runs -/

/-- Symbols of one kind, where one of another kind follows: the run is as long as it can be. -/
theorem run_append_inj {p : σ → Bool} {run run' r s : List σ} (hrun : ∀ c ∈ run, p c)
    (hrun' : ∀ c ∈ run', p c) (hr : ∀ c ∈ r.head?, p c = false) (hs : ∀ c ∈ s.head?, p c = false)
    (h : run ++ r = run' ++ s) : run = run' ∧ r = s := by
  have htake : ∀ {run r : List σ}, (∀ c ∈ run, p c) → (∀ c ∈ r.head?, p c = false) →
      (run ++ r).takeWhile p = run := by
    intro run r hrun hr
    rw [List.takeWhile_append_of_pos hrun]
    cases r with
    | nil => simp
    | cons c r => simp [hr c rfl]
  have heq : run = run' := by rw [← htake hrun hr, h, htake hrun' hs]
  subst heq
  exact ⟨rfl, List.append_cancel_left h⟩

theorem readBack_run {p : σ → Bool} (hinjective : Function.Injective enc)
    (hrun : ∀ x, ∀ c ∈ enc x, p c) :
    ReadBack enc Domain (fun r => ∀ c ∈ r.head?, p c = false) x := by
  intro y _ r s hr hs h
  obtain ⟨henc, hrest⟩ := run_append_inj (hrun x) (hrun y) hr hs h
  exact ⟨hinjective henc, hrest⟩

/-! ## Pairs -/

/-- Two encodings, one behind the other, with a symbol between them. -/
theorem readBack_pair {enc' : β → List σ} {Domain' : β → Prop} {middle : σ} {y : β}
    (hx : ReadBack enc Domain (fun _ => True) x) (hy : ReadBack enc' Domain' Follows y) :
    ReadBack (fun p : α × β => enc p.1 ++ middle :: enc' p.2) (fun p => Domain p.1 ∧ Domain' p.2)
      Follows (x, y) := by
  rintro ⟨x', y'⟩ ⟨hx', hy'⟩ r s hr hs h
  simp only [List.append_assoc, List.cons_append] at h
  obtain ⟨rfl, hrest⟩ := hx x' hx' _ _ trivial trivial h
  obtain ⟨rfl, rfl⟩ := hy y' hy' r s hr hs (List.cons.inj hrest).2
  exact ⟨rfl, rfl⟩

end Coding
