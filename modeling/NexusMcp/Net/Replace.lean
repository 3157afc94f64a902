-- SUMMARY: Replacing a text in a text, segment by segment, percent-encoding, and removing dot segments.
import NexusMcp.Net.Url
import Mathlib.Data.List.Infix

/-!
# Replacement in Paths

A replacement that brings in no separator, and takes none away, works on each segment
of a path alone.
-/

namespace Net

/-! ## Replacement -/

/-- Replacing goes over the text once; the characters of an occurrence are skipped. -/
def replaceFrom (pattern value : Text) : Nat → Text → Text
  | _, [] => []
  | skip + 1, _ :: s => replaceFrom pattern value skip s
  | 0, c :: s =>
    if pattern.isPrefixOf (c :: s) then value ++ replaceFrom pattern value (pattern.length - 1) s
    else c :: replaceFrom pattern value 0 s

/-- `s.replace(pattern, value)`, for a pattern that is not empty. -/
def replaceAll (pattern value s : Text) : Text := replaceFrom pattern value 0 s

variable {pattern value s rest : Text}

theorem replaceFrom_zero_cons {c : Char} : replaceFrom pattern value 0 (c :: s) =
    if pattern.isPrefixOf (c :: s) then value ++ replaceFrom pattern value (pattern.length - 1) s
    else c :: replaceFrom pattern value 0 s := rfl

/-- A character of the result comes from the text or from the value. -/
theorem mem_replaceFrom {c : Char} {skip : Nat} (h : c ∈ replaceFrom pattern value skip s) :
    c ∈ value ∨ c ∈ s := by
  induction s generalizing skip with
  | nil => cases h
  | cons d s ih =>
    match skip with
    | skip + 1 =>
      rcases ih h with hvalue | hs
      · exact .inl hvalue
      · exact .inr (List.mem_cons_of_mem _ hs)
    | 0 =>
      unfold replaceFrom at h
      split at h
      · rcases List.mem_append.1 h with hvalue | hs
        · exact .inl hvalue
        · rcases ih hs with hvalue | hs
          · exact .inl hvalue
          · exact .inr (List.mem_cons_of_mem _ hs)
      · rcases List.mem_cons.1 h with rfl | hs
        · exact .inr List.mem_cons_self
        · rcases ih hs with hvalue | hs
          · exact .inl hvalue
          · exact .inr (List.mem_cons_of_mem _ hs)

theorem mem_replaceAll {c : Char} (h : c ∈ replaceAll pattern value s) : c ∈ value ∨ c ∈ s :=
  mem_replaceFrom h

/-- A text without an occurrence is not changed. -/
theorem replaceAll_of_not_infix (h : ¬ pattern <:+: s) : replaceAll pattern value s = s := by
  unfold replaceAll
  induction s with
  | nil => rfl
  | cons c s ih =>
    have hstarts : pattern.isPrefixOf (c :: s) = false := by
      rw [Bool.eq_false_iff]
      intro hstarts
      exact h (List.isPrefixOf_iff_prefix.1 hstarts).isInfix
    have hs : ¬ pattern <:+: s := fun hinfix => h (List.infix_cons hinfix)
    unfold replaceFrom
    rw [if_neg (by simp [hstarts]), ih hs]

/-- A character that no occurrence starts with stays in front. -/
theorem replaceAll_cons_of_ne {p c : Char} (h : p ≠ c) :
    replaceAll (p :: pattern) value (c :: s) = c :: replaceAll (p :: pattern) value s := by
  have hstarts : (p :: pattern).isPrefixOf (c :: s) = false := by simp [List.isPrefixOf, h]
  rw [replaceAll, replaceFrom_zero_cons, hstarts]
  rfl

/-- A pattern of one character is replaced wherever that stands. -/
theorem replaceAll_singleton {p : Char} :
    replaceAll [p] value s = s.flatMap fun c => if c = p then value else [c] := by
  induction s with
  | nil => rfl
  | cons c s ih =>
    rw [List.flatMap_cons, ← ih]
    by_cases h : c = p
    · have hstarts : [p].isPrefixOf (c :: s) = true := by simp [List.isPrefixOf, h]
      rw [if_pos h, replaceAll, replaceFrom_zero_cons, if_pos hstarts]
      rfl
    · rw [if_neg h, replaceAll_cons_of_ne (Ne.symm h), List.singleton_append]

/-- A longer value gives a longer text. -/
theorem length_replaceFrom_le (pattern : Text) {value' : Text}
    (h : value.length ≤ value'.length) (skip : Nat) (s : Text) :
    (replaceFrom pattern value skip s).length ≤ (replaceFrom pattern value' skip s).length := by
  induction s generalizing skip with
  | nil => simp [replaceFrom]
  | cons c s ih =>
    match skip with
    | skip + 1 => exact ih skip
    | 0 =>
      rw [replaceFrom_zero_cons, replaceFrom_zero_cons]
      split
      · rw [List.length_append, List.length_append]
        exact Nat.add_le_add h (ih _)
      · exact Nat.succ_le_succ (ih 0)

/-- A replacement that takes place tells its value. -/
theorem replaceAll_inj {value' : Text} (h : pattern <:+: s) (hne : pattern ≠ [])
    (heq : replaceAll pattern value s = replaceAll pattern value' s) : value = value' := by
  unfold replaceAll at heq
  induction s with
  | nil => exact absurd (List.infix_nil.1 h) hne
  | cons c s ih =>
    rw [replaceFrom_zero_cons, replaceFrom_zero_cons] at heq
    by_cases hstarts : pattern.isPrefixOf (c :: s) = true
    · rw [if_pos hstarts, if_pos hstarts] at heq
      have hlength := congrArg List.length heq
      rw [List.length_append, List.length_append] at hlength
      have hsame : value.length = value'.length := by
        rcases Nat.le_total value.length value'.length with hle | hle
        · have hrest := length_replaceFrom_le pattern hle (pattern.length - 1) s
          omega
        · have hrest := length_replaceFrom_le pattern hle (pattern.length - 1) s
          omega
      exact (List.append_inj heq hsame).1
    · rw [if_neg hstarts, if_neg hstarts] at heq
      rcases List.infix_cons_iff.1 h with hhead | htail
      · exact absurd (List.isPrefixOf_iff_prefix.2 hhead) hstarts
      · exact ih htail (List.cons.inj heq).2

/-! ### At a separator -/

section Separator

variable {sep : Char}

/-- An occurrence without the separator does not reach over it. -/
theorem isPrefixOf_append_cons (hsep : sep ∉ pattern) :
    pattern.isPrefixOf (s ++ sep :: rest) = pattern.isPrefixOf s := by
  induction pattern generalizing s with
  | nil => simp
  | cons p pattern ih =>
    rw [List.mem_cons, not_or] at hsep
    cases s with
    | nil =>
      have hne : (p == sep) = false := by simpa using fun heq => hsep.1 heq.symm
      simp [List.isPrefixOf, hne]
    | cons c s => simp only [List.cons_append, List.isPrefixOf, ih hsep.2]

/-- The replacement goes on anew after a separator. -/
theorem replaceFrom_append_cons (hne : pattern ≠ []) (hsep : sep ∉ pattern) {skip : Nat}
    (hskip : skip ≤ s.length) :
    replaceFrom pattern value skip (s ++ sep :: rest) =
      replaceFrom pattern value skip s ++ sep :: replaceFrom pattern value 0 rest := by
  induction s generalizing skip with
  | nil =>
    obtain rfl : skip = 0 := Nat.le_zero.1 hskip
    have hstarts : pattern.isPrefixOf (sep :: rest) = false := by
      have hnil : pattern.isPrefixOf ([] ++ sep :: rest) = pattern.isPrefixOf [] :=
        isPrefixOf_append_cons hsep
      rw [List.nil_append] at hnil
      rw [hnil]
      cases pattern with
      | nil => exact absurd rfl hne
      | cons p pattern => rfl
    simp [replaceFrom, hstarts]
  | cons c s ih =>
    match skip with
    | skip + 1 => exact ih (Nat.le_of_succ_le_succ hskip)
    | 0 =>
      rw [List.cons_append, replaceFrom_zero_cons, replaceFrom_zero_cons, ← List.cons_append,
        isPrefixOf_append_cons hsep]
      split
      · next hstarts =>
        have hlength := (List.isPrefixOf_iff_prefix.1 hstarts).length_le
        rw [List.length_cons] at hlength
        rw [ih (by omega), List.append_assoc]
      · rw [ih (Nat.zero_le _), List.cons_append]

theorem replaceAll_append_cons (hne : pattern ≠ []) (hsep : sep ∉ pattern) :
    replaceAll pattern value (s ++ sep :: rest) =
      replaceAll pattern value s ++ sep :: replaceAll pattern value rest :=
  replaceFrom_append_cons hne hsep (Nat.zero_le _)

/-- A replacement without the separator works on each part alone. -/
theorem splitOn_replaceAll (hne : pattern ≠ []) (hsep : sep ∉ pattern) (hvalue : sep ∉ value)
    (s : Text) :
    (replaceAll pattern value s).splitOn sep = (s.splitOn sep).map (replaceAll pattern value) := by
  have hnot {t : Text} (ht : sep ∉ t) : sep ∉ replaceAll pattern value t := by
    intro hmem
    exact (mem_replaceAll hmem).elim hvalue ht
  obtain ⟨n, hn⟩ : ∃ n, s.length = n := ⟨_, rfl⟩
  induction n using Nat.strong_induction_on generalizing s with
  | _ n ih =>
    rcases partition_cases sep s with hmem | ⟨before, rest, hmem, rfl⟩
    · rw [List.splitOn_eq_singleton hmem, List.splitOn_eq_singleton (hnot hmem), List.map_singleton]
    · have hlt : rest.length < n := by
        rw [← hn, List.length_append, List.length_cons]
        omega
      rw [replaceAll_append_cons hne hsep, List.splitOn_append_cons_self_of_not_mem hmem,
        List.splitOn_append_cons_self_of_not_mem (hnot hmem), ih _ hlt rest rfl, List.map_cons]

theorem length_splitOn (s : Text) : (s.splitOn sep).length = s.count sep + 1 := by
  induction s with
  | nil => rfl
  | cons c s ih =>
    rw [List.splitOn_cons_eq_if_modifyHead, List.count_cons]
    split
    · rw [List.length_cons, ih]
    · rw [List.length_modifyHead, ih]

/-- What holds of the separator and of the characters of the parts holds of the text. -/
theorem forall_mem_splitOn {P : Char → Prop} (hsep : P sep) {s : Text} :
    (∀ part ∈ s.splitOn sep, ∀ c ∈ part, P c) ↔ ∀ c ∈ s, P c := by
  induction s with
  | nil => simp
  | cons c s ih =>
    rw [List.splitOn_cons_eq_if_modifyHead, List.forall_mem_cons, ← ih]
    obtain ⟨first, others, hparts⟩ := List.exists_cons_of_ne_nil (List.splitOn_ne_nil sep s)
    split
    · next hc =>
      rw [beq_iff_eq.1 hc]
      simp [hsep]
    · rw [hparts, List.modifyHead_cons, List.forall_mem_cons, List.forall_mem_cons,
        List.forall_mem_cons, and_assoc]

/-- A value without the separator adds none. -/
theorem count_replaceFrom_le (pattern : Text) (hvalue : sep ∉ value) (skip : Nat) (s : Text) :
    (replaceFrom pattern value skip s).count sep ≤ (s.drop skip).count sep := by
  induction s generalizing skip with
  | nil => simp [replaceFrom]
  | cons c s ih =>
    match skip with
    | skip + 1 => exact ih skip
    | 0 =>
      rw [replaceFrom_zero_cons, List.drop_zero]
      split
      · rw [List.count_append, List.count_eq_zero.2 hvalue, Nat.zero_add]
        have hdrop := (List.drop_sublist (pattern.length - 1) s).count_le sep
        exact (ih _).trans (hdrop.trans List.count_le_count_cons)
      · rw [List.count_cons, List.count_cons]
        exact Nat.add_le_add_right (ih 0) _

theorem count_replaceAll_le (pattern : Text) (hvalue : sep ∉ value) (s : Text) :
    (replaceAll pattern value s).count sep ≤ s.count sep := by
  exact count_replaceFrom_le pattern hvalue 0 s

/-- Replacing an occurrence of a pattern with the separator takes separators away. -/
theorem count_replaceAll_lt (hsep : sep ∈ pattern) (hvalue : sep ∉ value) (h : pattern <:+: s) :
    (replaceAll pattern value s).count sep < s.count sep := by
  unfold replaceAll
  induction s with
  | nil =>
    rw [List.infix_nil.1 h] at hsep
    exact absurd hsep List.not_mem_nil
  | cons c s ih =>
    rw [replaceFrom_zero_cons]
    by_cases hstarts : pattern.isPrefixOf (c :: s) = true
    · rw [if_pos hstarts, List.count_append, List.count_eq_zero.2 hvalue, Nat.zero_add]
      obtain ⟨after, hafter⟩ := List.isPrefixOf_iff_prefix.1 hstarts
      have hrest := count_replaceFrom_le pattern hvalue (pattern.length - 1) s
      have hdrop : s.drop (pattern.length - 1) = after := by
        obtain ⟨p, pattern, rfl⟩ := List.exists_cons_of_ne_nil (List.ne_nil_of_mem hsep)
        have hs : pattern ++ after = s := (List.cons.inj hafter).2
        rw [← hs]
        simp
      have hcount := List.count_pos_iff.2 hsep
      rw [hdrop] at hrest
      rw [← hafter, List.count_append]
      omega
    · rw [if_neg hstarts, List.count_cons, List.count_cons]
      rcases List.infix_cons_iff.1 h with hhead | htail
      · exact absurd (List.isPrefixOf_iff_prefix.2 hhead) hstarts
      · exact Nat.add_lt_add_right (ih htail) _

end Separator

/-! ## Percent-encoding -/

/-- The characters that `quote` never encodes. -/
def isUnreserved (c : Char) : Bool :=
  isAlpha c ∨ isDigit c ∨ c = '_' ∨ c = '.' ∨ c = '-' ∨ c = '~'

/-- `%XX`. -/
def percentByte (b : UInt8) : Text :=
  ['%', (Nat.digitChar (b.toNat / 16)).toUpper, (Nat.digitChar (b.toNat % 16)).toUpper]

/-- `quote(value, safe="")`. -/
def quote (value : Text) : Text :=
  value.flatMap fun c =>
    if isUnreserved c then [c] else (String.utf8EncodeChar c).flatMap percentByte

/-- An encoded text has unreserved characters and percent signs only. -/
theorem mem_quote {value : Text} {c : Char} (h : c ∈ quote value) :
    isUnreserved c = true ∨ c = '%' := by
  obtain ⟨d, -, hd⟩ := List.mem_flatMap.1 h
  split at hd
  · next hunreserved =>
    rw [List.mem_singleton.1 hd]
    exact .inl hunreserved
  · obtain ⟨b, -, hb⟩ := List.mem_flatMap.1 hd
    have hdigits : ∀ n < 16, isUnreserved (Nat.digitChar n).toUpper = true := by decide
    have hlt := b.toNat_lt
    simp only [percentByte, List.mem_cons, List.not_mem_nil, or_false] at hb
    rcases hb with rfl | rfl | rfl
    · exact .inr rfl
    · exact .inl (hdigits _ (by omega))
    · exact .inl (hdigits _ (by omega))

theorem not_mem_quote {value : Text} {c : Char} (h : isUnreserved c = false) (hpercent : c ≠ '%') :
    c ∉ quote value := by
  intro hc
  rcases mem_quote hc with hunreserved | heq
  · rw [h] at hunreserved
    cases hunreserved
  · exact hpercent heq

/-! ## Dot segments -/

/-- A segment that `remove_dot_segments` takes out. -/
def isDotSegment (segment : Text) : Bool := segment = ['.'] ∨ segment = ['.', '.']

theorem removeDots_cons_cons {out rest : List Text} {s t : Text} :
    removeDots out (s :: t :: rest) =
      if s = ['.'] then removeDots out (t :: rest)
      else if s = ['.', '.'] then removeDots out.dropLast (t :: rest)
      else removeDots (out ++ [s]) (t :: rest) := rfl

theorem removeDots_of_none {segments : List Text} (h : ∀ s ∈ segments, isDotSegment s = false)
    (out : List Text) : removeDots out segments = out ++ segments := by
  induction segments generalizing out with
  | nil => simp [removeDots]
  | cons s rest ih =>
    rw [List.forall_mem_cons] at h
    have hs : s ≠ ['.'] ∧ s ≠ ['.', '.'] := by simpa [isDotSegment] using h.1
    cases rest with
    | nil => simp [removeDots, hs.1, hs.2]
    | cons t rest =>
      rw [removeDots_cons_cons, if_neg hs.1, if_neg hs.2, ih h.2, List.append_assoc]
      rfl

/-- Removing dot segments makes no segment. -/
theorem length_removeDots_le (out segments : List Text) :
    (removeDots out segments).length ≤ out.length + segments.length := by
  induction segments generalizing out with
  | nil => simp [removeDots]
  | cons s rest ih =>
    have hdropLast : out.dropLast.length ≤ out.length := by simp
    cases rest with
    | nil =>
      unfold removeDots
      split_ifs <;> simp
    | cons t rest =>
      rw [removeDots_cons_cons, List.length_cons]
      split_ifs
      · exact (ih out).trans (by omega)
      · exact (ih out.dropLast).trans (by omega)
      · refine (ih (out ++ [s])).trans ?_
        rw [List.length_append, List.length_singleton]
        omega

/-- What is left of the segments is one of them, or empty. -/
theorem mem_removeDots {out segments : List Text} {s : Text} (h : s ∈ removeDots out segments) :
    s ∈ out ∨ s ∈ segments ∨ s = [] := by
  induction segments generalizing out with
  | nil => exact .inl h
  | cons t rest ih =>
    have hdrop {x : Text} (hx : x ∈ out.dropLast) : x ∈ out := List.mem_of_mem_dropLast hx
    cases rest with
    | nil =>
      unfold removeDots at h
      split_ifs at h
      · rcases List.mem_append.1 h with hout | hnil
        · exact .inl hout
        · exact .inr (.inr (List.mem_singleton.1 hnil))
      · rcases List.mem_append.1 h with hout | hnil
        · exact .inl (hdrop hout)
        · exact .inr (.inr (List.mem_singleton.1 hnil))
      · rcases List.mem_append.1 h with hout | hself
        · exact .inl hout
        · exact .inr (.inl hself)
    | cons u rest =>
      rw [removeDots_cons_cons] at h
      split_ifs at h
      · rcases ih h with hout | hrest | hnil
        · exact .inl hout
        · exact .inr (.inl (List.mem_cons_of_mem _ hrest))
        · exact .inr (.inr hnil)
      · rcases ih h with hout | hrest | hnil
        · exact .inl (hdrop hout)
        · exact .inr (.inl (List.mem_cons_of_mem _ hrest))
        · exact .inr (.inr hnil)
      · rcases ih h with hout | hrest | hnil
        · rcases List.mem_append.1 hout with hout | hself
          · exact .inl hout
          · exact .inr (.inl (List.mem_singleton.1 hself ▸ List.mem_cons_self))
        · exact .inr (.inl (List.mem_cons_of_mem _ hrest))
        · exact .inr (.inr hnil)

/-- What is left of the segments differs from them where one of them is a dot segment. -/
theorem not_isDotSegment_of_removeDots {out segments : List Text}
    (h : removeDots out segments = out ++ segments) : ∀ s ∈ segments, isDotSegment s = false := by
  induction segments generalizing out with
  | nil => exact fun s hs => absurd hs List.not_mem_nil
  | cons s rest ih =>
    cases rest with
    | nil =>
      unfold removeDots at h
      rw [List.forall_mem_singleton]
      split_ifs at h with hone htwo
      · have hlast := List.append_inj_right' h rfl
        rw [hone] at hlast
        cases hlast
      · have hlast := List.append_inj_right' h rfl
        rw [htwo] at hlast
        cases hlast
      · simp [isDotSegment, hone, htwo]
    | cons t rest =>
      -- A dot segment in front of others is dropped for nothing, and then the list is shorter.
      have hlength := congrArg List.length h
      have hcons : (s :: t :: rest).length = (t :: rest).length + 1 := rfl
      rw [List.length_append, hcons] at hlength
      rw [removeDots_cons_cons] at h hlength
      rw [List.forall_mem_cons]
      split_ifs at h hlength with hone htwo
      · have hle := length_removeDots_le out (t :: rest)
        omega
      · have hle := length_removeDots_le out.dropLast (t :: rest)
        have hdropLast : out.dropLast.length ≤ out.length := by simp
        omega
      · have hnext : removeDots (out ++ [s]) (t :: rest) = (out ++ [s]) ++ t :: rest := by
          rw [h, List.append_assoc]
          rfl
        exact ⟨by simp [isDotSegment, hone, htwo], ih hnext⟩

/-- A path is its own exactly when it has no dot segment. -/
theorem removeDots_eq_self_iff {segments : List Text} :
    removeDots [] segments = segments ↔ ∀ s ∈ segments, isDotSegment s = false := by
  constructor
  · intro h
    have hnil : removeDots [] segments = [] ++ segments := h
    exact not_isDotSegment_of_removeDots hnil
  · intro h
    exact removeDots_of_none h []

end Net
