-- SUMMARY: Cutting a text at a character and stripping it.
import Mathlib.Data.List.DropRight
import Mathlib.Data.List.TakeWhile
import Mathlib.Data.Char

/-! # Texts as Lists of Characters -/

namespace Net

abbrev Text := List Char

instance Text.lawfulBEq : LawfulBEq Text := inferInstance

section

variable {p : Char → Prop} [DecidablePred p]

/-! What holds of the characters of a text is decided along the text, not over all characters. -/

instance (priority := high) (s : Text) : Decidable (∀ c ∈ s, p c) := List.decidableBAll p s

instance (priority := high) (s : Text) : Decidable (∃ c ∈ s, p c) := List.decidableBEx p s

instance (priority := high) decidableForallMemOption (c? : Option Char) : Decidable (∀ c ∈ c?, p c) :=
  Option.decidableForallMem c?

end

/-! ## Runs of characters -/

/-- A run of characters with `p` ends before `rest`. -/
def Stops (p : Char → Bool) (rest : Text) : Prop := ∀ c ∈ rest.head?, p c = false

@[simp] theorem stops_nil (p : Char → Bool) : Stops p [] := by
  intro c hc
  cases hc

@[simp] theorem stops_cons {p : Char → Bool} {c : Char} {rest : Text} :
    Stops p (c :: rest) ↔ p c = false := by
  simp [Stops]

variable {p : Char → Bool} {s rest : Text}

theorem takeWhile_append_stops (hs : ∀ c ∈ s, p c = true) (hrest : Stops p rest) :
    (s ++ rest).takeWhile p = s := by
  rw [List.takeWhile_append_of_pos hs]
  cases rest with
  | nil => simp
  | cons c rest => simp [stops_cons.1 hrest]

theorem dropWhile_append_stops (hs : ∀ c ∈ s, p c = true) (hrest : Stops p rest) :
    (s ++ rest).dropWhile p = rest := by
  rw [List.dropWhile_append_of_pos hs]
  cases rest with
  | nil => rfl
  | cons c rest => simp [stops_cons.1 hrest]

/-- Every text is a run and what stops it. -/
theorem exists_run (p : Char → Bool) (t : Text) :
    ∃ s rest, t = s ++ rest ∧ (∀ c ∈ s, p c = true) ∧ Stops p rest := by
  refine ⟨t.takeWhile p, t.dropWhile p, List.takeWhile_append_dropWhile.symm, ?_, ?_⟩
  · intro c hc
    exact List.mem_takeWhile_imp hc
  · intro c hc
    have hne : t.dropWhile p ≠ [] := by
      intro hnil
      simp [hnil] at hc
    have hhead := List.head_dropWhile_not p hne
    rw [List.head?_eq_some_head hne] at hc
    cases hc
    exact hhead

/-! ## Cutting at a character -/

/-- The text before the first `c`, and the text after it where there is one. -/
def partition (c : Char) (s : Text) : Text × Option Text :=
  (s.takeWhile (· ≠ c), match s.dropWhile (· ≠ c) with
    | [] => none
    | _ :: rest => some rest)

/-- The text after the last `c`, all of it where there is none. -/
def afterLast (c : Char) (s : Text) : Text := s.rtakeWhile (· ≠ c)

theorem forall_ne {c : Char} {s : Text} (h : c ∉ s) : ∀ x ∈ s, decide (x ≠ c) = true := by
  intro x hx
  rw [decide_eq_true_eq]
  rintro rfl
  exact h hx

@[simp] theorem partition_of_not_mem {c : Char} {s : Text} (h : c ∉ s) :
    partition c s = (s, none) := by
  have htake := takeWhile_append_stops (forall_ne h) (stops_nil _)
  have hdrop := dropWhile_append_stops (forall_ne h) (stops_nil _)
  rw [List.append_nil] at htake hdrop
  simp only [partition, htake, hdrop]

@[simp] theorem partition_append {c : Char} {s rest : Text} (h : c ∉ s) :
    partition c (s ++ c :: rest) = (s, some rest) := by
  have hstops : Stops (fun x => decide (x ≠ c)) (c :: rest) := by simp
  simp only [partition, takeWhile_append_stops (forall_ne h) hstops,
    dropWhile_append_stops (forall_ne h) hstops]

/-- A text has the character, and is cut at the first one, or it does not have it. -/
theorem partition_cases (c : Char) (s : Text) :
    c ∉ s ∨ ∃ before rest, c ∉ before ∧ s = before ++ c :: rest := by
  obtain ⟨before, rest, hs, hbefore, hrest⟩ := exists_run (fun x => decide (x ≠ c)) s
  have hnot : c ∉ before := by
    intro hc
    simpa using hbefore c hc
  cases rest with
  | nil =>
    left
    rwa [hs, List.append_nil]
  | cons x rest =>
    have hx : x = c := by simpa using hrest
    right
    exact ⟨before, rest, hnot, hx ▸ hs⟩

theorem partition_eq_some {c : Char} {s before rest : Text} :
    partition c s = (before, some rest) ↔ c ∉ before ∧ s = before ++ c :: rest := by
  constructor
  · intro h
    rcases partition_cases c s with hnot | ⟨before', rest', hnot, rfl⟩
    · rw [partition_of_not_mem hnot] at h
      cases h
    · rw [partition_append hnot] at h
      cases h
      exact ⟨hnot, rfl⟩
  · rintro ⟨hnot, rfl⟩
    exact partition_append hnot

theorem afterLast_of_not_mem {c : Char} {s : Text} (h : c ∉ s) : afterLast c s = s :=
  List.rtakeWhile_eq_self_iff.2 (forall_ne h)

/-! ## Stripping the end -/

theorem rdropWhile_append {t : Text} (h : ∃ c ∈ t, p c = false) :
    (s ++ t).rdropWhile p = s ++ t.rdropWhile p := by
  have hne : t.rdropWhile p ≠ [] := by
    rw [Ne, List.rdropWhile_eq_nil_iff]
    intro hall
    obtain ⟨c, hc, hp⟩ := h
    rw [hall c hc] at hp
    cases hp
  unfold List.rdropWhile at hne ⊢
  rw [List.reverse_append, List.dropWhile_append]
  split
  · next hempty =>
    rw [List.isEmpty_iff] at hempty
    exact absurd (by rw [hempty]; rfl) hne
  · simp

theorem rdropWhile_append_of_all {t : Text} (h : ∀ c ∈ t, p c = true) :
    (s ++ t).rdropWhile p = s.rdropWhile p := by
  unfold List.rdropWhile
  rw [List.reverse_append, List.dropWhile_append_of_pos]
  intro c hc
  exact h c (List.mem_reverse.1 hc)

/-- Only the end is stripped where the start does not end in a stripped character. -/
theorem rdropWhile_append_of_stable {t : Text} (h : s.rdropWhile p = s) :
    (s ++ t).rdropWhile p = s ++ t.rdropWhile p := by
  by_cases hall : ∀ c ∈ t, p c = true
  · rw [rdropWhile_append_of_all hall, h, List.rdropWhile_eq_nil_iff.2 hall, List.append_nil]
  · apply rdropWhile_append
    simpa using hall

theorem rdropWhile_append_of_none {t : Text} (hne : t ≠ []) (ht : ∀ c ∈ t, p c = false) :
    (s ++ t).rdropWhile p = s ++ t := by
  rw [List.rdropWhile_eq_self_iff]
  intro hnonempty
  rw [List.getLast_append_of_ne_nil hnonempty hne, ht _ (List.getLast_mem hne)]
  decide

/-- A character that is not dropped at the start is still there. -/
theorem mem_dropWhile_of_not {c : Char} (hc : c ∈ s) (hp : p c = false) : c ∈ s.dropWhile p := by
  rw [← List.takeWhile_append_dropWhile (p := p) (l := s)] at hc
  apply (List.mem_append.1 hc).resolve_left
  intro htake
  rw [List.mem_takeWhile_imp htake] at hp
  cases hp

theorem mem_rdropWhile_of_not {c : Char} (hc : c ∈ s) (hp : p c = false) : c ∈ s.rdropWhile p :=
  List.mem_reverse.2 (mem_dropWhile_of_not (List.mem_reverse.2 hc) hp)

/-- A text is what is left of it and a run of the stripped characters. -/
theorem exists_stripped (p : Char → Bool) (s : Text) :
    ∃ tail, s = s.rdropWhile p ++ tail ∧ ∀ c ∈ tail, p c = true := by
  refine ⟨s.rtakeWhile p, (List.rdropWhile_append_rtakeWhile).symm, ?_⟩
  intro c hc
  exact List.mem_rtakeWhile_imp hc

end Net
