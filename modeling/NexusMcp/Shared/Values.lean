-- SUMMARY: Identifiers, times, blank text, and dataclasses that check themselves on construction.

/-!
# Shared Values

Identifiers are the canonical text of a UUID, and times are microseconds. A
dataclass of the source whose `__post_init__` raises is a value of `Checked`: its
fields together with the proof that no check is violated.
-/

namespace NexusMcp

abbrev Id := String

abbrev Time := Nat

/-! ## Text -/

/-- The characters `str.strip` removes. -/
def isSpace (c : Char) : Bool :=
  c.toNat ∈ [9, 10, 11, 12, 13, 28, 29, 30, 31, 32, 133, 160, 5760, 8192, 8193, 8194, 8195, 8196,
    8197, 8198, 8199, 8200, 8201, 8202, 8232, 8233, 8239, 8287, 12288]

/-- `not value.strip()`. -/
def isBlank (value : String) : Bool := value.toList.all isSpace

/-- `value.strip()`. -/
def strip (value : String) : String :=
  String.ofList (((value.toList.dropWhile isSpace).reverse.dropWhile isSpace).reverse)

/-- `str.lower` on the ASCII letters; the other characters are left as they are. -/
def lowerAscii (value : String) : String := String.ofList (value.toList.map Char.toLower)

/-- `str.upper` on the ASCII letters; the other characters are left as they are. -/
def upperAscii (value : String) : String := String.ofList (value.toList.map Char.toUpper)

/-! ## Request context -/

structure ActorContext where
  requestId : String
  traceId : String
  tenantId : Id
  principalId : String
  authnMethod : String
  principalType : String := "agent_service"
deriving Repr, DecidableEq

/-! ## Checked dataclasses -/

/-- A dataclass with a `__post_init__`: the conditions it rejects, in order, with the
    message of the `ValueError` each one raises. -/
class PostInit (δ : Type) where
  checks : δ → List (Bool × String)

/-- A required text field. -/
def nonBlank (fieldName value : String) : Bool × String :=
  (isBlank value, fieldName ++ " must not be blank")

/-- No check is violated. -/
def Valid {δ : Type} [PostInit δ] (d : δ) : Prop :=
  ∀ check ∈ PostInit.checks d, check.1 = false

instance {δ : Type} [PostInit δ] (d : δ) : Decidable (Valid d) :=
  inferInstanceAs (Decidable (∀ check ∈ PostInit.checks d, check.1 = false))

/-- The message of the first check that is violated. -/
def firstViolation {δ : Type} [PostInit δ] (d : δ) : String :=
  (((PostInit.checks d).find? (·.1)).map (·.2)).getD ""

/-- An instance of the dataclass that passed its own checks. -/
abbrev Checked (δ : Type) [PostInit δ] := { d : δ // Valid d }

end NexusMcp
