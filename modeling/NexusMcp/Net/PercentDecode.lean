-- SUMMARY: Percent-decoding, and that it undoes percent-encoding.
import NexusMcp.Net.Replace

/-! # Percent-Decoding -/

namespace Net

/-- The value of a hexadecimal digit. -/
def hexValue (c : Char) : Option Nat :=
  if isDigit c then some (c.toNat - '0'.toNat)
  else if 'A' ≤ c ∧ c ≤ 'F' then some (c.toNat - 'A'.toNat + 10)
  else if 'a' ≤ c ∧ c ≤ 'f' then some (c.toNat - 'a'.toNat + 10)
  else none

/-- The bytes of a text, with `%XX` for one byte. -/
def percentBytes : Text → List UInt8
  | '%' :: a :: b :: s =>
    match hexValue a, hexValue b with
    | some high, some low => UInt8.ofNat (16 * high + low) :: percentBytes s
    | _, _ => String.utf8EncodeChar '%' ++ percentBytes (a :: b :: s)
  | c :: s => String.utf8EncodeChar c ++ percentBytes s
  | [] => []

/-- The text whose bytes are encoded, where they are the bytes of a text. -/
def percentDecode (s : Text) : Option Text :=
  (percentBytes s).toByteArray.utf8Decode?.map Array.toList

theorem percentBytes_cons_of_ne {c : Char} {s : Text} (h : c ≠ '%') :
    percentBytes (c :: s) = String.utf8EncodeChar c ++ percentBytes s := by
  rw [percentBytes]
  rintro a b rest rfl
  exact absurd rfl h

theorem hexValue_digit (n : Nat) (h : n < 16) : hexValue (Nat.digitChar n).toUpper = some n := by
  revert n
  decide

theorem percentBytes_percentByte (b : UInt8) (s : Text) :
    percentBytes (percentByte b ++ s) = b :: percentBytes s := by
  have hlt := b.toNat_lt
  have hhigh := hexValue_digit (b.toNat / 16) (by omega)
  have hlow := hexValue_digit (b.toNat % 16) (by omega)
  simp only [percentByte, List.cons_append, List.nil_append, percentBytes, hhigh, hlow]
  rw [Nat.div_add_mod, UInt8.ofNat_toNat]

theorem percentBytes_bytes (bytes : List UInt8) (s : Text) :
    percentBytes (bytes.flatMap percentByte ++ s) = bytes ++ percentBytes s := by
  induction bytes with
  | nil => rfl
  | cons b bytes ih =>
    rw [List.flatMap_cons, List.append_assoc, percentBytes_percentByte, ih, List.cons_append]

/-- The bytes of an encoded text are its own. -/
theorem percentBytes_quote (value : Text) :
    percentBytes (quote value) = value.flatMap String.utf8EncodeChar := by
  induction value with
  | nil => rfl
  | cons c value ih =>
    have hquote : quote (c :: value) =
        (if isUnreserved c then [c] else (String.utf8EncodeChar c).flatMap percentByte) ++
          quote value := List.flatMap_cons ..
    rw [hquote, List.flatMap_cons]
    split
    · next hunreserved =>
      have hne : c ≠ '%' := by
        rintro rfl
        revert hunreserved
        decide
      rw [List.singleton_append, percentBytes_cons_of_ne hne, ih]
    · rw [percentBytes_bytes, ih]

/-- Decoding undoes encoding. -/
theorem percentDecode_quote (value : Text) : percentDecode (quote value) = some value := by
  have hbytes : (percentBytes (quote value)).toByteArray = value.utf8Encode := by
    rw [percentBytes_quote]
    rfl
  rw [percentDecode, hbytes, List.utf8Decode?_utf8Encode]
  rfl

end Net
