-- SUMMARY: JSON values, their canonical text, and the digests taken of it.
import NexusMcp.Shared.Errors
import Mathlib.Data.List.Sort

/-!
# JSON

The values a decoded JSON document is made of, and `canonical_json_digest`. The
fields of an object keep the order of the dictionary they model. A float is kept as
the text `float.__repr__` gives for it.
-/

namespace NexusMcp

inductive Json where
  | null
  | bool (b : Bool)
  | int (i : Int)
  | float (repr : String)
  | str (s : String)
  | arr (items : List Json)
  | obj (fields : List (String × Json))
deriving Repr

/-- A dictionary with string keys. -/
abbrev JsonObject := List (String × Json)

/-- `mapping.get(name)`. -/
def JsonObject.get (fields : JsonObject) (name : String) : Option Json :=
  (fields.find? (·.1 = name)).map (·.2)

/-! ## Canonical text -/

/-- The escape of a character in a JSON string that keeps non-ASCII characters. -/
def escapeChar (c : Char) : String :=
  if c = '"' then "\\\""
  else if c = '\\' then "\\\\"
  else if c = '\n' then "\\n"
  else if c = '\r' then "\\r"
  else if c = '\t' then "\\t"
  else if c.toNat = 8 then "\\b"
  else if c.toNat = 12 then "\\f"
  else if c.toNat < 32 then
    "\\u00" ++ String.singleton (Nat.digitChar (c.toNat / 16))
      ++ String.singleton (Nat.digitChar (c.toNat % 16))
  else String.singleton c

def quoteString (s : String) : String :=
  "\"" ++ String.join (s.toList.map escapeChar) ++ "\""

/-- The encoded fields of an object, by key. -/
def sortFields (fields : List (String × String)) : List (String × String) :=
  fields.insertionSort (fun f g => f.1 ≤ g.1)

mutual

/-- `json.dumps` with `ensure_ascii=False`, `allow_nan=False`, `sort_keys=True` and the
    compact separators. -/
def Json.canonical : Json → Except Exc String
  | .null => .ok "null"
  | .bool true => .ok "true"
  | .bool false => .ok "false"
  | .int i => .ok (toString i)
  | .float repr =>
    if repr ∈ ["nan", "inf", "-inf"] then
      .error (.valueError ("Out of range float values are not JSON compliant: " ++ repr))
    else .ok repr
  | .str s => .ok (quoteString s)
  | .arr items => do
    let texts ← Json.canonicalItems items
    return "[" ++ String.intercalate "," texts ++ "]"
  | .obj fields => do
    let texts ← Json.canonicalFields fields
    return "\x7b" ++ String.intercalate "," ((sortFields texts).map fun f =>
      quoteString f.1 ++ ":" ++ f.2) ++ "\x7d"

def Json.canonicalItems : List Json → Except Exc (List String)
  | [] => .ok []
  | item :: items => do
    let text ← item.canonical
    return text :: (← Json.canonicalItems items)

def Json.canonicalFields : List (String × Json) → Except Exc (List (String × String))
  | [] => .ok []
  | (name, value) :: fields => do
    let text ← value.canonical
    return (name, text) :: (← Json.canonicalFields fields)

end

/-! ## Digests -/

/-- SHA-256 of the UTF-8 bytes of a text, in hexadecimal digits. -/
class Sha256 where
  hexdigest : String → String

def canonicalJsonDigest [Sha256] (value : Json) : Except Exc String :=
  value.canonical.map Sha256.hexdigest

end NexusMcp
