-- SUMMARY: Templates with placeholders in braces, and replacing placeholders in them.
import NexusMcp.Net.Replace

/-!
# Templates

A text whose braces are not nested is a sequence of characters and of groups in braces,
perhaps with a brace at its end that is not closed. Replacing a placeholder works on the
groups alone.
-/

namespace Net

/-! ## Tokens -/

/-- No brace is in the text. -/
def BraceFree (s : Text) : Prop := '{' ∉ s ∧ '}' ∉ s

instance (s : Text) : Decidable (BraceFree s) := inferInstanceAs (Decidable (_ ∧ _))

/-- Between two opening braces there is a closing one. -/
def NonNested (t : Text) : Prop :=
  ∀ before between after, t = before ++ '{' :: (between ++ '{' :: after) → '}' ∈ between

/-- `"{" + name + "}"`. -/
def braced (name : Text) : Text := '{' :: (name ++ ['}'])

inductive Token where
  | char (c : Char)
  | group (name : Text)
deriving DecidableEq

def Token.text : Token → Text
  | char c => [c]
  | group name => braced name

/-- The token is no part of another group. -/
def Token.Plain : Token → Prop
  | char c => c ≠ '{'
  | group name => BraceFree name

/-- An opening brace that is not closed, or nothing. -/
def Unclosed (tail : Text) : Prop := tail = [] ∨ ∃ s, BraceFree s ∧ tail = '{' :: s

/-- The text of a template. -/
def render (tokens : List Token) (tail : Text) : Text := tokens.flatMap Token.text ++ tail

theorem render_cons {token : Token} {tokens : List Token} {tail : Text} :
    render (token :: tokens) tail = token.text ++ render tokens tail := by
  rw [render, List.flatMap_cons, List.append_assoc]
  rfl

theorem render_append {tokens tokens' : List Token} {tail : Text} :
    render (tokens ++ tokens') tail = tokens.flatMap Token.text ++ render tokens' tail := by
  rw [render, List.flatMap_append, List.append_assoc]
  rfl

/-- The tokens are those of the text. -/
structure Template (tokens : List Token) (tail t : Text) : Prop where
  plain : ∀ token ∈ tokens, token.Plain
  unclosed : Unclosed tail
  text : t = render tokens tail

theorem Template.cons {token : Token} {tokens : List Token} {tail t : Text} (h : token.Plain)
    (ht : Template tokens tail t) : Template (token :: tokens) tail (token.text ++ t) where
  plain := List.forall_mem_cons.2 ⟨h, ht.plain⟩
  unclosed := ht.unclosed
  text := by rw [render_cons, ht.text]

theorem NonNested.of_append {s t : Text} (h : NonNested (s ++ t)) : NonNested t := by
  rintro before between after rfl
  exact h (s ++ before) between after (List.append_assoc ..).symm

/-- A text whose braces are not nested is a template. -/
theorem exists_template {t : Text} (h : NonNested t) : ∃ tokens tail, Template tokens tail t := by
  obtain ⟨n, hn⟩ : ∃ n, t.length = n := ⟨_, rfl⟩
  induction n using Nat.strong_induction_on generalizing t with
  | _ n ih =>
    cases t with
    | nil => exact ⟨[], [], by simp, .inl rfl, rfl⟩
    | cons c s =>
      -- A brace opens a group or is never closed. Any other character is one of the text.
      by_cases hc : c = '{'
      · subst hc
        rcases partition_cases '}' s with hnone | ⟨name, rest, hname, rfl⟩
        · have hopen : '{' ∉ s := by
            intro hmem
            obtain ⟨between, after, rfl⟩ := List.append_of_mem hmem
            exact hnone (List.mem_append_left _ (h [] between after rfl))
          exact ⟨[], '{' :: s, by simp, .inr ⟨s, ⟨hopen, hnone⟩, rfl⟩, rfl⟩
        -- No brace opens within a group, by the condition on the text.
        · have hopen : '{' ∉ name := by
            intro hmem
            obtain ⟨between, after, rfl⟩ := List.append_of_mem hmem
            refine hname (List.mem_append_left _ (h [] between (after ++ '}' :: rest) ?_))
            simp
          have hsplit : '{' :: (name ++ '}' :: rest) = braced name ++ rest := by simp [braced]
          rw [hsplit] at h hn ⊢
          have hlt : rest.length < n := by
            rw [← hn, List.length_append]
            simp [braced]
          obtain ⟨tokens, tail, ht⟩ := ih _ hlt h.of_append rfl
          have hgroup : Token.Plain (.group name) := ⟨hopen, hname⟩
          exact ⟨_, tail, ht.cons hgroup⟩
      · obtain ⟨tokens, tail, ht⟩ := ih s.length (by rw [← hn]; simp)
          (NonNested.of_append (s := [c]) h) rfl
        have hchar : Token.Plain (.char c) := hc
        exact ⟨_, tail, ht.cons hchar⟩

/-! ## Occurrences -/

variable {name value s rest tail t : Text} {tokens : List Token}

/-- The first closing brace ends a group. -/
theorem braced_prefix_iff {name' : Text} (hname : '}' ∉ name) (hname' : '}' ∉ name') :
    braced name <+: braced name' ++ rest ↔ name = name' := by
  constructor
  · rintro ⟨after, hafter⟩
    have htail : name ++ '}' :: after = name' ++ '}' :: rest := by simpa [braced] using hafter
    have hparts := congrArg (partition '}') htail
    rw [partition_append hname, partition_append hname'] at hparts
    exact congrArg Prod.fst hparts
  · rintro rfl
    exact List.prefix_append _ _

/-- No group begins before its opening brace. -/
theorem braced_infix_append (hs : '{' ∉ s) :
    braced name <:+: s ++ rest ↔ braced name <:+: rest := by
  induction s with
  | nil => rfl
  | cons c s ih =>
    rw [List.mem_cons, not_or] at hs
    rw [List.cons_append, List.infix_cons_iff, ih hs.2]
    constructor
    · rintro (⟨after, hafter⟩ | h)
      · exact absurd (List.cons.inj hafter).1 hs.1
      · exact h
    · exact .inr

theorem Unclosed.not_infix (h : Unclosed tail) : ¬ braced name <:+: tail := by
  intro hinfix
  have hclosing : '}' ∈ tail := hinfix.subset (by simp [braced])
  obtain rfl | ⟨s, hs, rfl⟩ := h
  · exact absurd hclosing List.not_mem_nil
  · obtain heq | hmem := List.mem_cons.1 hclosing
    · exact absurd heq (by decide)
    · exact hs.2 hmem

/-- A placeholder occurs in a template as a group. -/
theorem braced_infix_iff (ht : Template tokens tail t) (hname : BraceFree name) :
    braced name <:+: t ↔ .group name ∈ tokens := by
  obtain ⟨hplain, hunclosed, rfl⟩ := ht
  induction tokens with
  | nil =>
    have hnone : ¬ braced name <:+: render [] tail := hunclosed.not_infix
    simp [hnone]
  | cons token tokens ih =>
    rw [List.forall_mem_cons] at hplain
    rw [render_cons, List.mem_cons]
    cases token with
    | char c =>
      have hc : '{' ∉ [c] := fun h => hplain.1 (List.mem_singleton.1 h).symm
      rw [Token.text, braced_infix_append hc, ih hplain.2]
      simp
    | group name' =>
      have hsuffix : '{' ∉ name' ++ ['}'] := by simpa using hplain.1.1
      have hprefix : braced name <+: '{' :: (name' ++ ['}'] ++ render tokens tail) ↔
          name = name' := braced_prefix_iff hname.2 hplain.1.2
      change braced name <:+: '{' :: (name' ++ ['}'] ++ render tokens tail) ↔ _
      rw [List.infix_cons_iff, hprefix, braced_infix_append hsuffix, ih hplain.2,
        Token.group.injEq]

/-! ## Replacing -/

/-- The group of the name is replaced by the characters of a value. -/
def Token.replace (name value : Text) : Token → List Token
  | char c => [char c]
  | group name' => if name' = name then value.map char else [group name']

theorem replaceFrom_drop {skip : Nat} {pattern : Text} :
    replaceFrom pattern value skip s = replaceFrom pattern value 0 (s.drop skip) := by
  induction s generalizing skip with
  | nil => simp [replaceFrom]
  | cons c s ih =>
    cases skip with
    | zero => rfl
    | succ skip => exact ih

/-- An occurrence at the front is replaced. -/
theorem replaceAll_append_self {pattern : Text} (hne : pattern ≠ []) :
    replaceAll pattern value (pattern ++ s) = value ++ replaceAll pattern value s := by
  obtain ⟨p, ps, rfl⟩ := List.exists_cons_of_ne_nil hne
  have hstarts : (p :: ps).isPrefixOf (p :: (ps ++ s)) = true :=
    List.isPrefixOf_iff_prefix.2 (List.prefix_append (p :: ps) s)
  rw [List.cons_append, replaceAll, replaceFrom_zero_cons, if_pos hstarts, replaceFrom_drop]
  simp [replaceAll]

/-- Nothing is replaced before an opening brace. -/
theorem replaceAll_append (hs : '{' ∉ s) :
    replaceAll (braced name) value (s ++ rest) = s ++ replaceAll (braced name) value rest := by
  induction s with
  | nil => rfl
  | cons c s ih =>
    rw [List.mem_cons, not_or] at hs
    rw [List.cons_append, braced, replaceAll_cons_of_ne hs.1, ← braced, ih hs.2, List.cons_append]

/-- A group of another name is not replaced. -/
theorem replaceAll_braced_of_ne {name' : Text} (hname : BraceFree name) (hname' : BraceFree name')
    (hne : name' ≠ name) :
    replaceAll (braced name) value (braced name' ++ rest) =
      braced name' ++ replaceAll (braced name) value rest := by
  have hsuffix : '{' ∉ name' ++ ['}'] := by simpa using hname'.1
  have hstarts : (braced name).isPrefixOf ('{' :: (name' ++ ['}'] ++ rest)) = false := by
    rw [Bool.eq_false_iff]
    intro hstarts
    have hprefix : braced name <+: braced name' ++ rest := List.isPrefixOf_iff_prefix.1 hstarts
    exact hne ((braced_prefix_iff hname.2 hname'.2).1 hprefix).symm
  change replaceFrom (braced name) value 0 ('{' :: (name' ++ ['}'] ++ rest)) = _
  rw [replaceFrom_zero_cons, hstarts]
  exact congrArg ('{' :: ·) (replaceAll_append hsuffix)

/-- Replacing a placeholder replaces its groups. -/
theorem replaceAll_render (hplain : ∀ token ∈ tokens, token.Plain) (htail : Unclosed tail)
    (hname : BraceFree name) :
    replaceAll (braced name) value (render tokens tail) =
      render (tokens.flatMap (Token.replace name value)) tail := by
  induction tokens with
  | nil => exact replaceAll_of_not_infix htail.not_infix
  | cons token tokens ih =>
    rw [List.forall_mem_cons] at hplain
    rw [render_cons, List.flatMap_cons, render_append, ← ih hplain.2]
    cases token with
    | char c =>
      have hc : '{' ∉ [c] := fun h => hplain.1 (List.mem_singleton.1 h).symm
      exact replaceAll_append hc
    | group name' =>
      by_cases heq : name' = name
      · subst heq
        have htext : (value.map Token.char).flatMap Token.text = value := by
          rw [List.flatMap_map]
          exact List.flatMap_singleton' value
        rw [Token.replace, if_pos rfl, htext]
        exact replaceAll_append_self (List.cons_ne_nil _ _)
      · rw [Token.replace, if_neg heq, List.flatMap_singleton]
        exact replaceAll_braced_of_ne hname hplain.1 heq

/-- Replacing a placeholder by a text without braces gives a template again. -/
theorem Template.replaceAll (ht : Template tokens tail t) (hname : BraceFree name)
    (hvalue : '{' ∉ value) :
    Template (tokens.flatMap (Token.replace name value)) tail
      (replaceAll (braced name) value t) where
  plain := by
    intro token htoken
    obtain ⟨token', htoken', hmem⟩ := List.mem_flatMap.1 htoken
    have hplain := ht.plain token' htoken'
    cases token' with
    | char c =>
      obtain rfl := List.mem_singleton.1 hmem
      exact hplain
    | group name' =>
      rw [Token.replace] at hmem
      split_ifs at hmem
      · obtain ⟨c, hc, rfl⟩ := List.mem_map.1 hmem
        exact fun heq => hvalue (heq ▸ hc)
      · obtain rfl := List.mem_singleton.1 hmem
        exact hplain
  unclosed := ht.unclosed
  text := by rw [ht.text, replaceAll_render ht.plain ht.unclosed hname]

/-! ## Filling -/

/-- The groups whose names have a value are replaced by it. -/
def Token.fill (value? : Text → Option Text) : Token → List Token
  | char c => [char c]
  | group name => (value? name).elim [group name] fun value => value.map char

/-- A value more, for a name that has none yet. -/
def orValue (value? : Text → Option Text) (name value : Text) : Text → Option Text :=
  fun name' => if name' = name then some value else value? name'

theorem fill_chars {value? : Text → Option Text} :
    (value.map Token.char).flatMap (Token.fill value?) = value.map Token.char := by
  rw [List.flatMap_map]
  exact List.map_eq_flatMap.symm

/-- Replacing one placeholder and then filling is filling. -/
theorem fill_replace {value? : Text → Option Text} :
    (tokens.flatMap (Token.replace name value)).flatMap (Token.fill value?) =
      tokens.flatMap (Token.fill (orValue value? name value)) := by
  rw [List.flatMap_assoc]
  refine List.flatMap_congr fun token _ => ?_
  cases token with
  | char c => rfl
  | group name' =>
    by_cases heq : name' = name
    · subst heq
      simp [Token.replace, Token.fill, orValue, fill_chars]
    · simp [Token.replace, Token.fill, orValue, heq]

theorem fill_none : tokens.flatMap (Token.fill fun _ => none) = tokens := by
  refine (List.flatMap_congr fun token _ => ?_).trans (List.flatMap_singleton' tokens)
  cases token <;> rfl

/-- A group stays a group where its name has no value. -/
theorem group_mem_replace {name' : Text} (hne : name' ≠ name) :
    .group name' ∈ tokens.flatMap (Token.replace name value) ↔ .group name' ∈ tokens := by
  rw [List.mem_flatMap]
  constructor
  · rintro ⟨token, htoken, hmem⟩
    cases token with
    | char c => simp [Token.replace] at hmem
    | group name'' =>
      rw [Token.replace] at hmem
      split_ifs at hmem
      · simp at hmem
      · rwa [List.mem_singleton.1 hmem]
  · intro hmem
    exact ⟨_, hmem, by simp [Token.replace, hne]⟩

/-- A group is left where its name has no value. -/
theorem group_mem_fill {value? : Text → Option Text} :
    .group name ∈ tokens.flatMap (Token.fill value?) ↔
      .group name ∈ tokens ∧ value? name = none := by
  rw [List.mem_flatMap]
  constructor
  · rintro ⟨token, htoken, hmem⟩
    cases token with
    | char c => simp [Token.fill] at hmem
    | group name' =>
      cases hvalue : value? name' with
      | none =>
        rw [Token.fill, hvalue, Option.elim_none, List.mem_singleton] at hmem
        cases hmem
        exact ⟨htoken, hvalue⟩
      | some value => simp [Token.fill, hvalue] at hmem
  · rintro ⟨htoken, hnone⟩
    exact ⟨_, htoken, by simp [Token.fill, hnone]⟩

/-- Filling a template with texts without braces gives a template again. -/
theorem Template.fill {value? : Text → Option Text} (ht : Template tokens tail t)
    (hvalues : ∀ name value, value? name = some value → '{' ∉ value) :
    Template (tokens.flatMap (Token.fill value?)) tail
      (render (tokens.flatMap (Token.fill value?)) tail) where
  plain := by
    intro token htoken
    obtain ⟨token', htoken', hmem⟩ := List.mem_flatMap.1 htoken
    have hplain := ht.plain token' htoken'
    cases token' with
    | char c =>
      obtain rfl := List.mem_singleton.1 hmem
      exact hplain
    | group name =>
      cases hvalue : value? name with
      | none =>
        rw [Token.fill, hvalue, Option.elim_none, List.mem_singleton] at hmem
        rw [hmem]
        exact hplain
      | some value =>
        rw [Token.fill, hvalue, Option.elim_some] at hmem
        obtain ⟨c, hc, rfl⟩ := List.mem_map.1 hmem
        exact fun heq => hvalues name value hvalue (heq ▸ hc)
  unclosed := ht.unclosed
  text := rfl

end Net
