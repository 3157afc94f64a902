-- SUMMARY: The canonical text of a JSON value determines it up to the order of object keys.
import NexusMcp.Coding.ReadBack
import NexusMcp.Shared.Json
import Mathlib.Data.List.Perm.Basic
import Mathlib.Data.String.Basic

/-!
# Canonical JSON

`json.dumps` with sorted keys writes the text of a value whose fields have been sorted. The
text alone can be read back, and values that sort to one value are the same up to the order
of their keys.
-/

namespace NexusMcp

/-! ## Values and sameness -/

mutual

/-- A value without floats, in which every object has different keys, as a dictionary has. -/
def Json.Exact : Json → Prop
  | .float _ => False
  | .arr items => Json.ExactItems items
  | .obj fields => (fields.map Prod.fst).Nodup ∧ Json.ExactFields fields
  | _ => True

def Json.ExactItems : List Json → Prop
  | [] => True
  | item :: items => item.Exact ∧ Json.ExactItems items

def Json.ExactFields : List (String × Json) → Prop
  | [] => True
  | (_, value) :: fields => value.Exact ∧ Json.ExactFields fields

end

theorem exactItems_iff {items : List Json} :
    Json.ExactItems items ↔ ∀ item ∈ items, item.Exact := by
  induction items with
  | nil => simp [Json.ExactItems]
  | cons item items ih => rw [Json.ExactItems, List.forall_mem_cons, ih]

theorem exactFields_iff {fields : List (String × Json)} :
    Json.ExactFields fields ↔ ∀ field ∈ fields, field.2.Exact := by
  induction fields with
  | nil => simp [Json.ExactFields]
  | cons field fields ih => rw [Json.ExactFields, List.forall_mem_cons, ih]

mutual

/-- Equality up to the order of the keys of objects, at every depth. -/
inductive Json.Same : Json → Json → Prop
  | null : Json.Same .null .null
  | bool (b : Bool) : Json.Same (.bool b) (.bool b)
  | int (i : Int) : Json.Same (.int i) (.int i)
  | str (s : String) : Json.Same (.str s) (.str s)
  | arr {items items' : List Json} : Json.SameItems items items' →
      Json.Same (.arr items) (.arr items')
  | obj {fields fields' ordered : List (String × Json)} : Json.SameFields fields ordered →
      ordered.Perm fields' → Json.Same (.obj fields) (.obj fields')

inductive Json.SameItems : List Json → List Json → Prop
  | nil : Json.SameItems [] []
  | cons {item item' : Json} {items items' : List Json} : Json.Same item item' →
      Json.SameItems items items' → Json.SameItems (item :: items) (item' :: items')

inductive Json.SameFields : List (String × Json) → List (String × Json) → Prop
  | nil : Json.SameFields [] []
  | cons {name : String} {value value' : Json} {fields fields' : List (String × Json)} :
      Json.Same value value' → Json.SameFields fields fields' →
      Json.SameFields ((name, value) :: fields) ((name, value') :: fields')

end

/-! ## Strings -/

/-- The characters of a string literal. -/
def quoteText (s : String) : List Char :=
  '"' :: (s.toList.flatMap (fun c => (escapeChar c).toList) ++ ['"'])

theorem toList_quoteString (s : String) : (quoteString s).toList = quoteText s := by
  simp [quoteString, quoteText, String.toList_join, List.flatMap_map]

def hexDigitValue (c : Char) : Nat := if c.isDigit then c.toNat - 48 else c.toNat - 87

/-- The character that an escape sequence stands for, and what follows it. -/
def unescape : List Char → Option (Char × List Char)
  | '\\' :: '"' :: r => some ('"', r)
  | '\\' :: '\\' :: r => some ('\\', r)
  | '\\' :: 'n' :: r => some ('\n', r)
  | '\\' :: 'r' :: r => some ('\r', r)
  | '\\' :: 't' :: r => some ('\t', r)
  | '\\' :: 'b' :: r => some (Char.ofNat 8, r)
  | '\\' :: 'f' :: r => some (Char.ofNat 12, r)
  | '\\' :: 'u' :: '0' :: '0' :: high :: low :: r =>
    some (Char.ofNat (16 * hexDigitValue high + hexDigitValue low), r)
  | c :: r => some (c, r)
  | [] => none

theorem unescape_of_ne {c : Char} {r : List Char} (h : c ≠ '\\') :
    unescape (c :: r) = some (c, r) := by
  unfold unescape
  split <;> simp_all

/-- A control character is written with its two hexadecimal digits. -/
theorem unescape_control {n : Nat} (h : n < 32) (r : List Char) :
    unescape ('\\' :: 'u' :: '0' :: '0' :: Nat.digitChar (n / 16) :: Nat.digitChar (n % 16) :: r) =
      some (Char.ofNat n, r) := by
  have hvalue : 16 * hexDigitValue (Nat.digitChar (n / 16)) +
      hexDigitValue (Nat.digitChar (n % 16)) = n := by
    revert n
    decide
  simp only [unescape, hvalue]

theorem unescape_escapeChar (c : Char) (r : List Char) :
    unescape ((escapeChar c).toList ++ r) = some (c, r) := by
  unfold escapeChar
  split_ifs with hquote hbackslash hnewline hreturn htab hback hfeed hcontrol
  case pos => subst hquote; rfl
  case pos => subst hbackslash; rfl
  case pos => subst hnewline; rfl
  case pos => subst hreturn; rfl
  case pos => subst htab; rfl
  case pos => rw [← Char.ofNat_toNat c, hback]; rfl
  case pos => rw [← Char.ofNat_toNat c, hfeed]; rfl
  case pos =>
    have hunescape := unescape_control hcontrol r
    rw [Char.ofNat_toNat] at hunescape
    simpa using hunescape
  case neg => simpa using unescape_of_ne hbackslash

/-- What an escape sequence starts with is not the quote that ends a string. -/
theorem escapeChar_eq_cons (c : Char) :
    ∃ d rest, (escapeChar c).toList = d :: rest ∧ d ≠ '"' := by
  unfold escapeChar
  split_ifs with hquote
  case neg => exact ⟨c, [], by simp, hquote⟩
  all_goals
    first
    | exact ⟨'\\', _, rfl, by decide⟩
    | exact ⟨'\\', ['u', '0', '0', (c.toNat / 16).digitChar, (c.toNat % 16).digitChar],
        by simp, by decide⟩

open Coding in
theorem readBack_escapeChar (c : Char) :
    ReadBack (fun c => (escapeChar c).toList) (fun _ => True) (fun _ => True) c := by
  intro d _ r s _ _ h
  have hunescape := congrArg unescape h
  simp only [unescape_escapeChar, Option.some.injEq, Prod.mk.injEq] at hunescape
  exact hunescape

/-- A string literal ends where it is closed. -/
theorem readBack_quoteText (s : String) :
    Coding.ReadBack quoteText (fun _ => True) (fun _ => True) s := by
  intro t _ u v _ _ h
  -- The characters are read back one by one, up to the quote, which no escaped one begins with.
  have hchars : Coding.ReadBack
      (fun cs => cs.flatMap (fun c => (escapeChar c).toList) ++ ['"'])
      (∀ c ∈ ·, (fun _ : Char => True) c) (fun _ => True) s.toList :=
    Coding.readBack_concat (fun c _ => escapeChar_eq_cons c) (fun _ _ => trivial)
      fun c _ => readBack_escapeChar c
  obtain ⟨heq, hrest⟩ := hchars t.toList (fun _ _ => trivial) u v trivial trivial
    (List.cons.inj h).2
  exact ⟨String.toList_injective heq, hrest⟩

/-! ## Integers -/

/-- A character of a number. -/
def isNumberChar (c : Char) : Bool := c.isDigit || c = '-'

theorem toList_toString_int (i : Int) : (toString i).toList =
    if 0 ≤ i then Nat.toDigits 10 i.natAbs else '-' :: Nat.toDigits 10 i.natAbs := by
  rw [Int.toString_eq_repr, Int.repr_eq_if]
  split
  · next h => 
    have habs : i.toNat = i.natAbs := by omega
    rw [Nat.toList_repr, habs]
  · next h =>
    have habs : (-i).toNat = i.natAbs := by omega
    rw [String.toList_append, Nat.toList_repr, habs]
    rfl

theorem isNumberChar_of_mem {i : Int} {c : Char} (h : c ∈ (toString i).toList) :
    isNumberChar c = true := by
  rw [toList_toString_int] at h
  have hdigit : ∀ d ∈ Nat.toDigits 10 i.natAbs, isNumberChar d = true := by
    intro d hd
    simp [isNumberChar, Nat.isDigit_of_mem_toDigits (by decide) (by decide) hd]
  split at h
  · exact hdigit c h
  · obtain rfl | hc := List.mem_cons.1 h
    · decide
    · exact hdigit c hc

/-- A number does not end at a digit or begin with what closes a list. -/
theorem toString_int_eq_cons (i : Int) :
    ∃ c rest, (toString i).toList = c :: rest ∧ isNumberChar c = true := by
  cases htext : (toString i).toList with
  | nil =>
    rw [toList_toString_int] at htext
    split at htext
    · exact absurd htext Nat.toDigits_ne_nil
    · cases htext
  | cons c rest =>
    have hmem : c ∈ (toString i).toList := htext ▸ List.mem_cons_self
    exact ⟨c, rest, rfl, isNumberChar_of_mem hmem⟩

theorem toList_toString_int_injective :
    Function.Injective fun i : Int => (toString i).toList := by
  intro i j h
  simp only [toList_toString_int] at h
  have hdigits : ∀ {m n : Nat}, Nat.toDigits 10 m = Nat.toDigits 10 n → m = n := by
    intro m n hmn
    have hm : Nat.ofDigitChars 10 (Nat.toDigits 10 m) 0 = m := Nat.ofDigitChars_ten_toDigits
    rw [← hm, hmn, Nat.ofDigitChars_ten_toDigits]
  have hminus : ∀ {m n : Nat}, '-' :: Nat.toDigits 10 m ≠ Nat.toDigits 10 n := by
    intro m n hmn
    have hmem : '-' ∈ Nat.toDigits 10 n := hmn ▸ List.mem_cons_self
    exact absurd (Nat.isDigit_of_mem_toDigits (by decide) (by decide) hmem) (by decide)
  split at h <;> split at h
  · have := hdigits h
    omega
  · exact absurd h.symm hminus
  · exact absurd h hminus
  · have := hdigits (List.cons.inj h).2
    omega

/-! ## Text -/

mutual

/-- The text of a value, with the fields of objects in their order. -/
def Json.text : Json → List Char
  | .null => ['n', 'u', 'l', 'l']
  | .bool true => ['t', 'r', 'u', 'e']
  | .bool false => ['f', 'a', 'l', 's', 'e']
  | .int i => (toString i).toList
  | .float repr => repr.toList
  | .str s => quoteText s
  | .arr items => '[' :: ([','].intercalate (Json.itemTexts items) ++ [']'])
  | .obj fields => '\x7b' :: ([','].intercalate (Json.fieldTexts fields) ++ ['\x7d'])

def Json.itemTexts : List Json → List (List Char)
  | [] => []
  | item :: items => item.text :: Json.itemTexts items

def Json.fieldTexts : List (String × Json) → List (List Char)
  | [] => []
  | (name, value) :: fields => (quoteText name ++ ':' :: value.text) :: Json.fieldTexts fields

end

/-- The text of a field. -/
def fieldText (field : String × Json) : List Char := quoteText field.1 ++ ':' :: field.2.text

theorem itemTexts_eq_map (items : List Json) : Json.itemTexts items = items.map Json.text := by
  induction items with
  | nil => rfl
  | cons item items ih => rw [Json.itemTexts, ih, List.map_cons]

theorem fieldTexts_eq_map (fields : List (String × Json)) :
    Json.fieldTexts fields = fields.map fieldText := by
  induction fields with
  | nil => rfl
  | cons field fields ih => rw [Json.fieldTexts, ih, List.map_cons, fieldText]

/-- What the first character of a text says of the value. -/
def startOf (c : Char) : Char := if isNumberChar c then '0' else c

def Json.start : Json → Char
  | .null => 'n'
  | .bool b => if b then 't' else 'f'
  | .int _ => '0'
  | .float _ => '.'
  | .str _ => '"'
  | .arr _ => '['
  | .obj _ => '\x7b'

/-- The texts of different kinds of values start differently. -/
theorem text_eq_cons {x : Json} (h : x.Exact) :
    ∃ c rest, x.text = c :: rest ∧ startOf c = x.start := by
  cases x with
  | null => exact ⟨_, _, rfl, by decide⟩
  | bool b => cases b <;> exact ⟨_, _, rfl, by decide⟩
  | int i =>
    obtain ⟨c, rest, htext, hc⟩ := toString_int_eq_cons i
    exact ⟨c, rest, htext, if_pos hc⟩
  | float repr => exact h.elim
  | str s => exact ⟨_, _, rfl, rfl⟩
  | arr items => exact ⟨_, _, rfl, rfl⟩
  | obj fields => exact ⟨_, _, rfl, rfl⟩

/-- Equal texts, with something behind each, are those of values of one kind. -/
theorem start_eq {x y : Json} {r s : List Char} (hx : x.Exact) (hy : y.Exact)
    (h : x.text ++ r = y.text ++ s) : x.start = y.start := by
  obtain ⟨c, rest, hc, hstart⟩ := text_eq_cons hx
  obtain ⟨c', rest', hc', hstart'⟩ := text_eq_cons hy
  rw [hc, hc'] at h
  rw [← hstart, ← hstart', (List.cons.inj h).1]

/-! ## Reading the text back -/

/-- What may stand behind a value: nothing, or what separates or closes a list. -/
def Follows (r : List Char) : Prop := ∀ c ∈ r.head?, c = ',' ∨ c = ']' ∨ c = '\x7d'

theorem not_isNumberChar_of_follows {r : List Char} (h : Follows r) :
    ∀ c ∈ r.head?, isNumberChar c = false := by
  intro c hc
  obtain rfl | rfl | rfl := h c hc <;> decide

/-- No value starts as a list closes. -/
theorem text_start_ne {x : Json} (h : x.Exact) :
    ∃ c rest, x.text = c :: rest ∧ c ≠ ']' := by
  obtain ⟨c, rest, htext, hstart⟩ := text_eq_cons h
  refine ⟨c, rest, htext, ?_⟩
  rintro rfl
  cases x with
  | bool b => cases b <;> exact absurd hstart (by decide)
  | _ => exact absurd hstart (by simp [Json.start]; try decide)

theorem readBack_int (i : Int) : Coding.ReadBack (fun i : Int => (toString i).toList)
    (fun _ => True) Follows i :=
  (Coding.readBack_run toList_toString_int_injective fun _ _ h => isNumberChar_of_mem h).mono
    fun _ h => not_isNumberChar_of_follows h

/-- The text of an array is read back where those of its items are. -/
theorem readBack_arr {items : List Json} (hitems : Json.ExactItems items)
    (h : ∀ item ∈ items, Coding.ReadBack Json.text Json.Exact Follows item) :
    Coding.ReadBack Json.text Json.Exact Follows (.arr items) := by
  intro y hy r s hr hs heq
  have hstart : (Json.arr items).start = y.start := start_eq hitems hy heq
  cases y with
  | arr items' =>
    have hclosed : Coding.ReadBack (Coding.closed ',' ']' Json.text) (∀ x ∈ ·, x.Exact)
        (fun _ => True) items :=
      Coding.readBack_closed (by decide) (fun _ => by simp [Follows]) (fun _ => by simp [Follows])
        (fun x hx => text_start_ne hx) (exactItems_iff.1 hitems) h
    simp only [Json.text, itemTexts_eq_map, List.cons_append] at heq
    obtain ⟨rfl, hrest⟩ := hclosed items' (exactItems_iff.1 hy) r s trivial trivial
      (List.cons.inj heq).2
    exact ⟨rfl, hrest⟩
  | bool b => cases b <;> simp [Json.start] at hstart
  | _ => simp [Json.start] at hstart

theorem readBack_field {field : String × Json}
    (h : Coding.ReadBack Json.text Json.Exact Follows field.2) :
    Coding.ReadBack fieldText (fun field => field.2.Exact) Follows field := by
  intro field' hfield' r s hr hs heq
  exact Coding.readBack_pair (readBack_quoteText field.1) h field' ⟨trivial, hfield'⟩ r s hr hs heq

/-- The text of an object is read back where those of its values are. -/
theorem readBack_obj {fields : List (String × Json)} (hobj : (Json.obj fields).Exact)
    (h : ∀ field ∈ fields, Coding.ReadBack Json.text Json.Exact Follows field.2) :
    Coding.ReadBack Json.text Json.Exact Follows (.obj fields) := by
  intro y hy r s hr hs heq
  -- The first character tells that the other value is an object as well.
  have hstart : (Json.obj fields).start = y.start := start_eq hobj hy heq
  cases y with
  | obj fields' =>
    have hclosed : Coding.ReadBack (Coding.closed ',' '\x7d' fieldText) (∀ x ∈ ·, x.2.Exact)
        (fun _ => True) fields :=
      Coding.readBack_closed (by decide) (fun _ => by simp [Follows]) (fun _ => by simp [Follows])
        (fun x hx => ⟨_, _, rfl, by decide⟩) (exactFields_iff.1 hobj.2)
        fun field hfield => readBack_field (h field hfield)
    simp only [Json.text, fieldTexts_eq_map, List.cons_append] at heq
    obtain ⟨rfl, hrest⟩ := hclosed fields' (exactFields_iff.1 hy.2) r s trivial trivial
      (List.cons.inj heq).2
    exact ⟨rfl, hrest⟩
  | bool b => cases b <;> simp [Json.start] at hstart
  | _ => simp [Json.start] at hstart

/-- The text of a value that has no parts is read back. -/
theorem readBack_leaf {x : Json} (hx : x.Exact) (hleaf : ∀ items, x ≠ .arr items)
    (hleaf' : ∀ fields, x ≠ .obj fields) :
    Coding.ReadBack Json.text Json.Exact Follows x := by
  intro y hy r s hr hs heq
  have hstart := start_eq hx hy heq
  cases x with
  | null =>
    cases y with
    | null => exact ⟨rfl, List.append_cancel_left heq⟩
    | bool b => cases b <;> simp [Json.start] at hstart
    | _ => simp [Json.start] at hstart
  | bool b =>
    cases y with
    | bool b' =>
      obtain rfl : b = b' := by cases b <;> cases b' <;> simp_all [Json.start]
      exact ⟨rfl, List.append_cancel_left heq⟩
    | _ => cases b <;> simp [Json.start] at hstart
  | int i =>
    cases y with
    | int j =>
      obtain ⟨rfl, hrest⟩ := readBack_int i j trivial r s hr hs heq
      exact ⟨rfl, hrest⟩
    | bool b => cases b <;> simp [Json.start] at hstart
    | _ => simp [Json.start] at hstart
  | float repr => exact hx.elim
  | str t =>
    cases y with
    | str t' =>
      obtain ⟨rfl, hrest⟩ := readBack_quoteText t t' trivial r s trivial trivial heq
      exact ⟨rfl, hrest⟩
    | bool b => cases b <;> simp [Json.start] at hstart
    | _ => simp [Json.start] at hstart
  | arr items => exact absurd rfl (hleaf items)
  | obj fields => exact absurd rfl (hleaf' fields)

mutual

theorem readBack_text : ∀ {x : Json}, x.Exact →
    Coding.ReadBack Json.text Json.Exact Follows x
  | .null, h => readBack_leaf h (by simp) (by simp)
  | .bool _, h => readBack_leaf h (by simp) (by simp)
  | .int _, h => readBack_leaf h (by simp) (by simp)
  | .float _, h => h.elim
  | .str _, h => readBack_leaf h (by simp) (by simp)
  | .arr _, h => readBack_arr h (readBack_items h)
  | .obj _, h => readBack_obj h (readBack_fields h.2)

theorem readBack_items : ∀ {items : List Json}, Json.ExactItems items →
    ∀ item ∈ items, Coding.ReadBack Json.text Json.Exact Follows item
  | [], _ => by simp
  | _ :: _, h => List.forall_mem_cons.2 ⟨readBack_text h.1, readBack_items h.2⟩

theorem readBack_fields : ∀ {fields : List (String × Json)}, Json.ExactFields fields →
    ∀ field ∈ fields, Coding.ReadBack Json.text Json.Exact Follows field.2
  | [], _ => by simp
  | _ :: _, h => List.forall_mem_cons.2 ⟨readBack_text h.1, readBack_fields h.2⟩

end

/-- The text of a value determines it. -/
theorem text_injective {x y : Json} (hx : x.Exact) (hy : y.Exact) (h : x.text = y.text) : x = y :=
  (readBack_text hx).eq (by simp [Follows]) hy h

/-! ## Sorting -/

/-- The fields of an object, by key. -/
def sortByKey {α : Type} (fields : List (String × α)) : List (String × α) :=
  fields.insertionSort fun f g => f.1 ≤ g.1

mutual

/-- The value with the fields of every object in the order of their keys. -/
def Json.sorted : Json → Json
  | .arr items => .arr (Json.sortedItems items)
  | .obj fields => .obj (sortByKey (Json.sortedFields fields))
  | x => x

def Json.sortedItems : List Json → List Json
  | [] => []
  | item :: items => item.sorted :: Json.sortedItems items

def Json.sortedFields : List (String × Json) → List (String × Json)
  | [] => []
  | (name, value) :: fields => (name, value.sorted) :: Json.sortedFields fields

end

theorem sortedItems_eq_map (items : List Json) :
    Json.sortedItems items = items.map Json.sorted := by
  induction items with
  | nil => rfl
  | cons item items ih => rw [Json.sortedItems, ih, List.map_cons]

theorem sortedFields_eq_map (fields : List (String × Json)) :
    Json.sortedFields fields = fields.map fun field => (field.1, field.2.sorted) := by
  induction fields with
  | nil => rfl
  | cons field fields ih => rw [Json.sortedFields, ih, List.map_cons]

theorem sortByKey_map {α β : Type} (f : α → β) (fields : List (String × α)) :
    sortByKey (fields.map fun field => (field.1, f field.2)) =
      (sortByKey fields).map fun field => (field.1, f field.2) := by
  symm
  apply List.map_insertionSort
  intro _ _ _ _
  exact Iff.rfl

theorem perm_sortByKey {α : Type} (fields : List (String × α)) :
    (sortByKey fields).Perm fields :=
  List.perm_insertionSort _ _

theorem pairwise_sortByKey {α : Type} (fields : List (String × α)) :
    (sortByKey fields).Pairwise fun f g => f.1 ≤ g.1 := by
  have : IsTrans (String × α) fun f g => f.1 ≤ g.1 := ⟨fun _ _ _ => le_trans⟩
  have : Std.Total fun f g : String × α => f.1 ≤ g.1 := ⟨fun _ _ => le_total _ _⟩
  exact List.pairwise_insertionSort _ _

/-- Fields with different keys sort to one list exactly when they are the same fields. -/
theorem sortByKey_eq_iff {α : Type} {fields fields' : List (String × α)}
    (h : (fields.map Prod.fst).Nodup) :
    sortByKey fields = sortByKey fields' ↔ fields.Perm fields' := by
  constructor
  · intro heq
    exact (perm_sortByKey fields).symm.trans (heq ▸ perm_sortByKey fields')
  · intro hperm
    refine List.Perm.eq_of_pairwise ?_ (pairwise_sortByKey fields) (pairwise_sortByKey fields') ?_
    · intro f g hf hg hfg hgf
      -- No key occurs twice, so two fields that are not above one another are the same.
      have hf' : f ∈ fields := (perm_sortByKey fields).mem_iff.1 hf
      have hg' : g ∈ fields := hperm.mem_iff.2 ((perm_sortByKey fields').mem_iff.1 hg)
      exact List.inj_on_of_nodup_map h hf' hg' (le_antisymm hfg hgf)
    · exact (perm_sortByKey fields).trans (hperm.trans (perm_sortByKey fields').symm)

theorem keys_sortedFields (fields : List (String × Json)) :
    (Json.sortedFields fields).map Prod.fst = fields.map Prod.fst := by
  rw [sortedFields_eq_map, List.map_map]
  rfl

mutual

theorem exact_sorted : ∀ {x : Json}, x.Exact → x.sorted.Exact
  | .null, h => h
  | .bool _, h => h
  | .int _, h => h
  | .float _, h => h
  | .str _, h => h
  | .arr _, h => exact_sortedItems h
  | .obj fields, h => by
    have hperm := perm_sortByKey (Json.sortedFields fields)
    refine ⟨(hperm.map Prod.fst).nodup_iff.2 (keys_sortedFields fields ▸ h.1), ?_⟩
    apply exactFields_iff.2
    intro field hfield
    exact exactFields_iff.1 (exact_sortedFields h.2) field (hperm.mem_iff.1 hfield)

theorem exact_sortedItems : ∀ {items : List Json}, Json.ExactItems items →
    Json.ExactItems (Json.sortedItems items)
  | [], h => h
  | _ :: _, h => ⟨exact_sorted h.1, exact_sortedItems h.2⟩

theorem exact_sortedFields : ∀ {fields : List (String × Json)}, Json.ExactFields fields →
    Json.ExactFields (Json.sortedFields fields)
  | [], h => h
  | _ :: _, h => ⟨exact_sorted h.1, exact_sortedFields h.2⟩

end

mutual

/-- What `json.dumps` writes is the text of the sorted value. -/
theorem canonical_eq : ∀ {x : Json}, x.Exact → x.canonical = .ok (String.ofList x.sorted.text)
  | .null, _ => rfl
  | .bool true, _ => rfl
  | .bool false, _ => rfl
  | .int i, _ => by
    simp only [Json.canonical, Json.sorted, Json.text, String.ofList_toList]
  | .float _, h => h.elim
  | .str s, _ => by
    simp only [Json.canonical, Json.sorted, Json.text, ← toList_quoteString, String.ofList_toList]
  | .arr items, h => by
    rw [Json.canonical, canonicalItems_eq h]
    simp only [Json.sorted, Json.text, itemTexts_eq_map, sortedItems_eq_map]
    refine congrArg Except.ok (String.toList_injective ?_)
    simp [String.toList_intercalate, Function.comp_def]
  | .obj fields, h => by
    have hsort : sortFields (fields.map fun f => (f.1, String.ofList f.2.sorted.text)) =
        (sortByKey fields).map fun f => (f.1, String.ofList f.2.sorted.text) :=
      sortByKey_map (fun x : Json => String.ofList x.sorted.text) fields
    have hsort' : sortByKey (Json.sortedFields fields) =
        (sortByKey fields).map fun f => (f.1, f.2.sorted) := by
      rw [sortedFields_eq_map]
      exact sortByKey_map Json.sorted fields
    rw [Json.canonical, canonicalFields_eq h.2]
    simp only [Json.sorted, Json.text, fieldTexts_eq_map, hsort']
    refine congrArg Except.ok (String.toList_injective ?_)
    simp [String.toList_intercalate, Function.comp_def, hsort, fieldText, toList_quoteString]

theorem canonicalItems_eq : ∀ {items : List Json}, Json.ExactItems items →
    Json.canonicalItems items = .ok (items.map fun item => String.ofList item.sorted.text)
  | [], _ => rfl
  | _ :: _, h => by
    rw [Json.canonicalItems, canonical_eq h.1, canonicalItems_eq h.2]
    rfl

theorem canonicalFields_eq : ∀ {fields : List (String × Json)}, Json.ExactFields fields →
    Json.canonicalFields fields =
      .ok (fields.map fun field => (field.1, String.ofList field.2.sorted.text))
  | [], _ => rfl
  | (_, _) :: _, h => by
    rw [Json.canonicalFields, canonical_eq h.1, canonicalFields_eq h.2]
    rfl

end

theorem same_arr_iff {items items' : List Json} :
    Json.Same (.arr items) (.arr items') ↔ Json.SameItems items items' := by
  constructor
  · rintro (_ | _ | _ | _ | hitems)
    exact hitems
  · exact .arr

theorem same_obj_iff {fields fields' : List (String × Json)} :
    Json.Same (.obj fields) (.obj fields') ↔
      ∃ ordered, Json.SameFields fields ordered ∧ ordered.Perm fields' := by
  constructor
  · intro h
    cases h with
    | obj hfields hperm => exact ⟨_, hfields, hperm⟩
  · rintro ⟨ordered, hfields, hperm⟩
    exact .obj hfields hperm

/-- Fields whose values are sorted, in another order, are those of fields in another order. -/
theorem perm_sortedFields_iff {fields fields' : List (String × Json)} :
    (Json.sortedFields fields).Perm (Json.sortedFields fields') ↔
      ∃ ordered, Json.sortedFields fields = Json.sortedFields ordered ∧ ordered.Perm fields' := by
  have h := List.eq_map_comp_perm fun field : String × Json => (field.1, field.2.sorted)
  rw [sortedFields_eq_map fields']
  rw [← congrFun (congrFun h (Json.sortedFields fields)) fields']
  simp only [Relation.Comp, sortedFields_eq_map]

/-- A value that has no parts is the same as itself only. -/
theorem same_leaf_iff {x y : Json} (hrefl : x.Same x) (harr : ∀ items, x ≠ .arr items)
    (hobj : ∀ fields, x ≠ .obj fields) (heq : x.Same y → x = y) :
    x.Same y ↔ x.sorted = y.sorted := by
  constructor
  · intro h
    rw [heq h]
  · intro h
    have hx : x.sorted = x := by
      unfold Json.sorted
      split
      · next items => exact absurd rfl (harr items)
      · next fields => exact absurd rfl (hobj fields)
      · rfl
    have hy : y = x := by
      rw [hx] at h
      unfold Json.sorted at h
      split at h
      · exact absurd h (harr _)
      · exact absurd h (hobj _)
      · exact h.symm
    rw [hy]
    exact hrefl

theorem sameItems_cons_iff {x y : Json} {items items' : List Json} :
    Json.SameItems (x :: items) (y :: items') ↔ x.Same y ∧ Json.SameItems items items' := by
  constructor
  · rintro (_ | ⟨hxy, hitems⟩)
    exact ⟨hxy, hitems⟩
  · rintro ⟨hxy, hitems⟩
    exact .cons hxy hitems

theorem sameFields_cons_iff {name name' : String} {x y : Json}
    {fields fields' : List (String × Json)} :
    Json.SameFields ((name, x) :: fields) ((name', y) :: fields') ↔
      (name = name' ∧ x.Same y) ∧ Json.SameFields fields fields' := by
  constructor
  · rintro (_ | ⟨hxy, hfields⟩)
    exact ⟨⟨rfl, hxy⟩, hfields⟩
  · rintro ⟨⟨rfl, hxy⟩, hfields⟩
    exact .cons hxy hfields

mutual

/-- Values are the same exactly when they sort to one value. -/
theorem same_iff : ∀ {x y : Json}, x.Exact → y.Exact → (x.Same y ↔ x.sorted = y.sorted)
  | .arr items, y, hx, hy => by
    cases y with
    | arr items' =>
      rw [same_arr_iff, sameItems_iff hx hy, Json.sorted, Json.sorted, Json.arr.injEq,
        sortedItems_eq_map, sortedItems_eq_map]
    | _ => exact iff_of_false (fun h => by cases h) (by simp [Json.sorted])
  | .obj fields, y, hx, hy => by
    cases y with
    | obj fields' =>
      have hkeys : ((Json.sortedFields fields).map Prod.fst).Nodup := by
        rw [keys_sortedFields]
        exact hx.1
      rw [same_obj_iff, Json.sorted, Json.sorted, Json.obj.injEq, sortByKey_eq_iff hkeys,
        perm_sortedFields_iff]
      -- The fields of the one value are reordered like those of the other, and compared one by one.
      refine exists_congr fun ordered => and_congr_left fun hperm => ?_
      refine sameFields_iff hx.2 (exactFields_iff.2 fun field hfield => ?_)
      exact exactFields_iff.1 hy.2 field (hperm.mem_iff.1 hfield)
    | _ => exact iff_of_false (fun h => by cases h) (by simp [Json.sorted])
  | .null, y, _, _ => same_leaf_iff .null (by simp) (by simp) (fun h => by cases h; rfl)
  | .bool b, y, _, _ => same_leaf_iff (.bool b) (by simp) (by simp) (fun h => by cases h; rfl)
  | .int i, y, _, _ => same_leaf_iff (.int i) (by simp) (by simp) (fun h => by cases h; rfl)
  | .str s, y, _, _ => same_leaf_iff (.str s) (by simp) (by simp) (fun h => by cases h; rfl)
  | .float _, _, h, _ => h.elim

theorem sameItems_iff : ∀ {items items' : List Json}, Json.ExactItems items →
    Json.ExactItems items' →
    (Json.SameItems items items' ↔ items.map Json.sorted = items'.map Json.sorted)
  | [], [], _, _ => iff_of_true .nil rfl
  | [], _ :: _, _, _ => iff_of_false (fun h => by cases h) (by simp)
  | _ :: _, [], _, _ => iff_of_false (fun h => by cases h) (by simp)
  | x :: items, y :: items', h, h' => by
    rw [List.map_cons, List.map_cons, List.cons.injEq, ← same_iff h.1 h'.1,
      ← sameItems_iff h.2 h'.2, sameItems_cons_iff]

theorem sameFields_iff : ∀ {fields fields' : List (String × Json)}, Json.ExactFields fields →
    Json.ExactFields fields' → (Json.SameFields fields fields' ↔
      Json.sortedFields fields = Json.sortedFields fields')
  | [], [], _, _ => iff_of_true .nil rfl
  | [], _ :: _, _, _ => iff_of_false (fun h => by cases h) (by simp [Json.sortedFields])
  | _ :: _, [], _, _ => iff_of_false (fun h => by cases h) (by simp [Json.sortedFields])
  | (name, x) :: fields, (name', y) :: fields', h, h' => by
    simp only [Json.sortedFields, List.cons.injEq, Prod.mk.injEq, ← same_iff h.1 h'.1,
      ← sameFields_iff h.2 h'.2, sameFields_cons_iff]

end

/-- The canonical texts of two values are equal exactly when the values are the same up to the
    order of keys. -/
theorem canonical_eq_iff {x y : Json} (hx : x.Exact) (hy : y.Exact) :
    x.canonical = y.canonical ↔ x.Same y := by
  rw [canonical_eq hx, canonical_eq hy, Except.ok.injEq, String.ofList_inj, same_iff hx hy]
  constructor
  · exact text_injective (exact_sorted hx) (exact_sorted hy)
  · exact congrArg Json.text

/-! ## Objects under the same keys -/

theorem keys_of_sameFields : ∀ {fields fields' : List (String × Json)},
    Json.SameFields fields fields' → fields.map Prod.fst = fields'.map Prod.fst
  | [], [], _ => rfl
  | (_, _) :: _, (_, _) :: _, h => by
    obtain ⟨⟨rfl, -⟩, hfields⟩ := sameFields_cons_iff.1 h
    rw [List.map_cons, List.map_cons, keys_of_sameFields hfields]

/-- The same fields with their keys in the same order are the same list. -/
theorem eq_of_perm_of_keys {α : Type} {fields fields' : List (String × α)}
    (hperm : fields.Perm fields') (hkeys : fields.map Prod.fst = fields'.map Prod.fst)
    (hnodup : (fields'.map Prod.fst).Nodup) : fields = fields' := by
  induction fields' generalizing fields with
  | nil => exact hperm.eq_nil
  | cons f' fields' ih =>
    cases fields with
    | nil => exact absurd hperm.symm.eq_nil (by simp)
    | cons f fields =>
      obtain ⟨hkey, hrest⟩ := List.cons.inj hkeys
      have hmem : f ∈ f' :: fields' := hperm.mem_iff.1 List.mem_cons_self
      obtain rfl : f = f' := List.inj_on_of_nodup_map hnodup hmem List.mem_cons_self hkey
      rw [ih ((List.perm_cons f).1 hperm) hrest (List.nodup_cons.1 hnodup).2]

/-- Objects with the same keys in one order are compared key by key. -/
theorem same_obj_iff_of_keys {fields fields' : List (String × Json)}
    (hkeys : fields.map Prod.fst = fields'.map Prod.fst) (hnodup : (fields'.map Prod.fst).Nodup) :
    Json.Same (.obj fields) (.obj fields') ↔ Json.SameFields fields fields' := by
  rw [same_obj_iff]
  constructor
  · rintro ⟨ordered, hfields, hperm⟩
    have hordered : ordered.map Prod.fst = fields'.map Prod.fst :=
      (keys_of_sameFields hfields).symm.trans hkeys
    exact eq_of_perm_of_keys hperm hordered hnodup ▸ hfields
  · intro hfields
    exact ⟨fields', hfields, List.Perm.refl _⟩

/-! ## Digests -/

/-- SHA-256 has no collision among the canonical texts of the values. -/
def CollisionFree [Sha256] (values : Set Json) : Prop :=
  ∀ x ∈ values, ∀ y ∈ values, ∀ text text', x.canonical = .ok text → y.canonical = .ok text' →
    Sha256.hexdigest text = Sha256.hexdigest text' → text = text'

/-- Without collisions, values share a digest exactly when they are the same. -/
theorem canonicalJsonDigest_eq_iff [Sha256] {values : Set Json} (hfree : CollisionFree values)
    {x y : Json} (hxmem : x ∈ values) (hymem : y ∈ values) (hx : x.Exact) (hy : y.Exact) :
    ∃ digest, canonicalJsonDigest x = .ok digest ∧
      (canonicalJsonDigest y = .ok digest ↔ x.Same y) := by
  have htext := canonical_eq hx
  have htext' := canonical_eq hy
  refine ⟨_, by rw [canonicalJsonDigest, htext, Except.map], ?_⟩
  rw [canonicalJsonDigest, htext', Except.map, Except.ok.injEq, ← canonical_eq_iff hx hy, htext,
    htext', Except.ok.injEq]
  constructor
  · intro hdigest
    exact hfree x hxmem y hymem _ _ htext htext' hdigest.symm
  · intro hsame
    rw [hsame]

end NexusMcp
