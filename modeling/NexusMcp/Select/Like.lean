-- SUMMARY: Patterns of `LIKE`, the texts they match, and the escaped text that matches only itself.
import Mathlib.Computability.Language
import Mathlib.Data.List.Infix

/-!
# Patterns

A pattern is a sequence of pieces, and matches the product of their languages. It is
written with three marks, which an escape character makes ordinary again.
-/

namespace Like

variable {σ : Type}

/-! ## Pieces -/

inductive Piece (σ : Type) where
  | char (c : σ)
  | one
  | many

namespace Piece

/-- The texts that the piece matches. -/
def language : Piece σ → Language σ
  | char c => {[c]}
  | one => {s | s.length = 1}
  | many => ⊤

def map (f : σ → σ) : Piece σ → Piece σ
  | char c => char (f c)
  | one => one
  | many => many

end Piece

/-- Whether the pieces match the text. -/
def isMatch [DecidableEq σ] : List (Piece σ) → List σ → Bool
  | [], s => s.isEmpty
  -- Any rest of the text may be what the other pieces match.
  | .many :: pieces, s => s.tails.any (isMatch pieces)
  | .char c :: pieces, d :: s => c = d ∧ isMatch pieces s
  | .one :: pieces, _ :: s => isMatch pieces s
  | .char _ :: _, [] | .one :: _, [] => false

/-- What the pieces match one after the other. -/
def language (pieces : List (Piece σ)) : Language σ := (pieces.map Piece.language).prod

theorem language_append {pieces pieces' : List (Piece σ)} :
    language (pieces ++ pieces') = language pieces * language pieces' := by
  rw [language, List.map_append, List.prod_append, language, language]

theorem language_cons {piece : Piece σ} {pieces : List (Piece σ)} :
    language (piece :: pieces) = piece.language * language pieces := by
  rw [language, List.map_cons, List.prod_cons, language]

theorem isMatch_iff [DecidableEq σ] {pieces : List (Piece σ)} {s : List σ} :
    isMatch pieces s = true ↔ s ∈ language pieces := by
  -- By the pieces, since each one takes its own prefix of the text.
  induction pieces generalizing s with
  | nil =>
    rw [isMatch, List.isEmpty_iff]
    exact Language.mem_one s
  | cons piece pieces ih =>
    rw [language_cons, Language.mem_mul]
    cases piece with
    | many =>
      rw [isMatch, List.any_eq_true]
      constructor
      · rintro ⟨t, ht, hmatch⟩
        obtain ⟨skipped, rfl⟩ := (List.mem_tails t s).1 ht
        exact ⟨skipped, trivial, t, ih.1 hmatch, rfl⟩
      · rintro ⟨skipped, -, t, ht, rfl⟩
        exact ⟨t, (List.mem_tails t _).2 (List.suffix_append skipped t), ih.2 ht⟩
    | char c =>
      cases s with
      | nil =>
        refine iff_of_false (by simp [isMatch]) ?_
        rintro ⟨a, rfl, t, -, h⟩
        cases h
      | cons d s =>
        rw [isMatch, decide_eq_true_eq, ih]
        constructor
        · rintro ⟨rfl, hs⟩
          exact ⟨[c], rfl, s, hs, rfl⟩
        · rintro ⟨a, rfl, t, ht, h⟩
          cases h
          exact ⟨rfl, ht⟩
    | one =>
      cases s with
      | nil =>
        refine iff_of_false (by simp [isMatch]) ?_
        rintro ⟨a, ha, t, -, h⟩
        have hlength : a.length = 1 := ha
        rw [List.append_eq_nil_iff] at h
        rw [h.1] at hlength
        cases hlength
      | cons d s =>
        rw [isMatch, ih]
        constructor
        · intro hs
          exact ⟨[d], rfl, s, hs, rfl⟩
        · rintro ⟨a, ha, t, ht, h⟩
          obtain ⟨e, rfl⟩ := List.length_eq_one_iff.1 ha
          cases h
          exact ht

theorem mem_language_chars {cs s : List σ} : s ∈ language (cs.map Piece.char) ↔ s = cs := by
  induction cs generalizing s with
  | nil => exact Language.mem_one s
  | cons c cs ih =>
    rw [List.map_cons, language_cons, Language.mem_mul]
    constructor
    · rintro ⟨a, rfl, t, ht, rfl⟩
      rw [ih.1 ht]
      rfl
    · rintro rfl
      exact ⟨[c], rfl, cs, ih.2 rfl, rfl⟩

/-- Characters with anything before and after them match the texts that contain them. -/
theorem mem_language_containing {cs s : List σ} :
    s ∈ language (.many :: (cs.map Piece.char ++ [.many])) ↔ cs <:+: s := by
  have hmany : language [Piece.many (σ := σ)] = ⊤ := by
    rw [language_cons, language, List.map_nil, List.prod_nil, mul_one]
    rfl
  rw [language_cons, language_append, hmany, Language.mem_mul]
  constructor
  · rintro ⟨before, -, _, hrest, rfl⟩
    obtain ⟨found, hfound, after, -, rfl⟩ := Language.mem_mul.1 hrest
    rw [mem_language_chars.1 hfound]
    exact ⟨before, after, by rw [List.append_assoc]⟩
  · rintro ⟨before, after, rfl⟩
    rw [List.append_assoc]
    refine ⟨before, trivial, cs ++ after, ?_, rfl⟩
    exact Language.mem_mul.2 ⟨cs, mem_language_chars.2 rfl, after, trivial, rfl⟩

/-! ## Marks -/

/-- The characters that are not ordinary in a pattern. -/
structure Marks (σ : Type) where
  many : σ
  one : σ
  escape : σ
  many_ne : many ≠ escape
  one_ne : one ≠ escape
  many_ne_one : many ≠ one

namespace Marks

variable [DecidableEq σ] {marks : Marks σ}

/-- The character is one of the marks. -/
def IsMark (marks : Marks σ) (c : σ) : Prop := c = marks.escape ∨ c = marks.many ∨ c = marks.one

instance (c : σ) : Decidable (marks.IsMark c) := inferInstanceAs (Decidable (_ ∨ _))

def piece (marks : Marks σ) (c : σ) : Piece σ :=
  if c = marks.many then .many else if c = marks.one then .one else .char c

/-- The pieces of a pattern, where the character before it may have been the escape. -/
def piecesFrom (marks : Marks σ) : Bool → List σ → Option (List (Piece σ))
  | false, [] => some []
  | true, [] => none
  -- After the escape every character stands for itself.
  | true, c :: pattern => (piecesFrom marks false pattern).map (.char c :: ·)
  | false, c :: pattern =>
    if c = marks.escape then piecesFrom marks true pattern
    else (piecesFrom marks false pattern).map (marks.piece c :: ·)

/-- The pieces of a pattern. One that ends with the escape is refused. -/
def pieces (marks : Marks σ) (pattern : List σ) : Option (List (Piece σ)) :=
  marks.piecesFrom false pattern

/-- `text LIKE pattern ESCAPE escape`. -/
def like (marks : Marks σ) (pattern text : List σ) : Option Bool :=
  (marks.pieces pattern).map (isMatch · text)

/-- The text with the escape before each mark. -/
def escaped (marks : Marks σ) (text : List σ) : List σ :=
  text.flatMap fun c => if marks.IsMark c then [marks.escape, c] else [c]

theorem pieces_many_cons {pattern : List σ} :
    marks.pieces (marks.many :: pattern) = (marks.pieces pattern).map (.many :: ·) := by
  rw [pieces, piecesFrom, if_neg marks.many_ne, piece, if_pos rfl, pieces]

/-- An escaped text stands for its own characters. -/
theorem pieces_escaped_append {text pattern : List σ} :
    marks.pieces (marks.escaped text ++ pattern) =
      (marks.pieces pattern).map (text.map Piece.char ++ ·) := by
  induction text with
  | nil => simp [escaped]
  | cons c text ih =>
    rw [escaped, List.flatMap_cons, ← escaped, List.append_assoc]
    -- A mark takes two characters of the pattern, any other character one.
    by_cases hmark : marks.IsMark c
    · rw [if_pos hmark, List.cons_append, List.cons_append, List.nil_append, pieces, piecesFrom,
        if_pos rfl, piecesFrom, ← pieces, ih, Option.map_map]
      rfl
    · have hpiece : marks.piece c = .char c := by
        simp only [IsMark, not_or] at hmark
        rw [piece, if_neg hmark.2.1, if_neg hmark.2.2]
      have hescape : c ≠ marks.escape := fun h => hmark (.inl h)
      rw [if_neg hmark, List.cons_append, List.nil_append, pieces, piecesFrom, if_neg hescape,
        ← pieces, ih, Option.map_map, hpiece]
      rfl

/-- A function that keeps the marks apart from the other characters. -/
def Keeps (marks : Marks σ) (f : σ → σ) : Prop := ∀ c m, marks.IsMark m → (f c = m ↔ c = m)

variable {f : σ → σ}

omit [DecidableEq σ] in
theorem Keeps.isMark_iff (hf : marks.Keeps f) {c : σ} : marks.IsMark (f c) ↔ marks.IsMark c := by
  simp only [IsMark, hf c _ (.inl rfl), hf c _ (.inr (.inl rfl)), hf c _ (.inr (.inr rfl))]

omit [DecidableEq σ] in
theorem Keeps.eq_of_isMark (hf : marks.Keeps f) {m : σ} (hm : marks.IsMark m) : f m = m :=
  (hf m m hm).2 rfl

/-- Such a function takes an escaped text to an escaped text. -/
theorem Keeps.map_escaped (hf : marks.Keeps f) (text : List σ) :
    (marks.escaped text).map f = marks.escaped (text.map f) := by
  rw [escaped, escaped, List.map_flatMap, List.flatMap_map]
  refine List.flatMap_congr fun c _ => ?_
  by_cases hmark : marks.IsMark c
  · rw [if_pos hmark, if_pos (hf.isMark_iff.2 hmark), List.map_cons, List.map_singleton,
      hf.eq_of_isMark (.inl rfl)]
  · rw [if_neg hmark, if_neg (mt hf.isMark_iff.1 hmark), List.map_singleton]

/-- Whatever its characters are, an escaped text is searched for literally. -/
theorem like_containing (hf : marks.Keeps f) (searched text : List σ) :
    marks.like ((marks.many :: (marks.escaped searched ++ [marks.many])).map f) (text.map f) =
      some (decide (searched.map f <:+: text.map f)) := by
  have hmany : f marks.many = marks.many := hf.eq_of_isMark (.inr (.inl rfl))
  have hpieces : marks.pieces [marks.many] = some [.many] := by
    rw [pieces_many_cons, pieces, piecesFrom, Option.map_some]
  rw [List.map_cons, List.map_append, List.map_singleton, hmany, hf.map_escaped, like,
    pieces_many_cons, pieces_escaped_append, hpieces, Option.map_some, Option.map_some,
    Option.map_some]
  refine congrArg some (Bool.eq_iff_iff.2 ?_)
  rw [isMatch_iff, mem_language_containing, decide_eq_true_eq]

end Marks

end Like
