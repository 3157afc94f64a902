-- SUMMARY: IP addresses and networks: their textual forms, their classes and the IPv4-mapped addresses.
import Mathlib.Algebra.Group.Nat.Defs
import NexusMcp.Net.Text

/-!
# IP Addresses

The `ipaddress` module. The classes of an IPv4-mapped IPv6 address are those of the
IPv4 address in it, but it is not equal to that address and not in its networks.
-/

namespace Net

inductive IpAddress where
  | v4 (value : BitVec 32)
  | v6 (value : BitVec 128) (scopeId : Option Text)
deriving DecidableEq

/-! ## Textual forms -/

def isDigit (c : Char) : Bool := '0' ≤ c ∧ c ≤ '9'

def isHexDigit (c : Char) : Bool := isDigit c ∨ ('a' ≤ c ∧ c ≤ 'f') ∨ ('A' ≤ c ∧ c ≤ 'F')

/-- The value of a digit. -/
def digitValue (c : Char) : Nat :=
  if isDigit c then c.toNat - '0'.toNat else c.toLower.toNat - 'a'.toNat + 10

/-- The number that digits denote. -/
def numeral (base : Nat) (s : Text) : Nat := s.foldl (fun n c => base * n + digitValue c) 0

/-- `_parse_octet`. A leading zero is ambiguous, so it is refused. -/
def parseOctet (s : Text) : Option Nat :=
  if s ≠ [] ∧ s.all isDigit ∧ s.length ≤ 3 ∧ (s = ['0'] ∨ s.head? ≠ some '0') ∧
      numeral 10 s ≤ 255 then
    some (numeral 10 s)
  else none

/-- `IPv4Address(s)`. -/
def parseIpv4 (s : Text) : Option (BitVec 32) :=
  match (s.splitOn '.').mapM parseOctet with
  | some [a, b, c, d] => some (BitVec.ofNat 32 (((a * 256 + b) * 256 + c) * 256 + d))
  | _ => none

/-- `_parse_hextet`. -/
def parseHextet (s : Text) : Option Nat :=
  if s ≠ [] ∧ s.all isHexDigit ∧ s.length ≤ 4 then some (numeral 16 s) else none

/-- The parts of an IPv6 text, with an IPv4 suffix rewritten to two hextets. -/
def hextetParts (s : Text) : Option (List Text) :=
  let parts := s.splitOn ':'
  match parts.getLast? with
  | some last =>
    if parts.length < 3 then none
    else if '.' ∈ last then
      (parseIpv4 last).map fun v => parts.dropLast ++
        [Nat.toDigits 16 (v.toNat / 65536), Nat.toDigits 16 (v.toNat % 65536)]
    else some parts
  | none => none

/-- The empty parts that are neither the first nor the last. -/
def skipIndices (parts : List Text) : List Nat :=
  (List.range parts.length).filter fun i => 1 ≤ i ∧ i + 1 < parts.length ∧ parts[i]? = some []

/-- The parts before or after `::`; an empty endpoint must be all there is. -/
def besideSkip (parts : List Text) (endpoint : Option Text) : Option (List Text) :=
  if endpoint = some [] then if parts.length = 1 then some [] else none else some parts

/-- `_ip_int_from_string`. -/
def parseIpv6 (s : Text) : Option (BitVec 128) := do
  let parts ← hextetParts s
  guard (parts.length ≤ 9)
  let hextets ← match skipIndices parts with
    | [] => do
      guard (parts.length = 8)
      parts.mapM parseHextet
    | [skip] => do
      let hi ← besideSkip (parts.take skip) parts.head?
      let lo ← besideSkip (parts.drop (skip + 1)) parts.getLast?
      guard (hi.length + lo.length < 8)
      let before ← hi.mapM parseHextet
      let after ← lo.mapM parseHextet
      pure (before ++ List.replicate (8 - (hi.length + lo.length)) 0 ++ after)
    | _ => none
  return BitVec.ofNat 128 (hextets.foldl (fun n h => 65536 * n + h) 0)

/-- `IPv6Address(s)`. -/
def parseIpv6Scoped (s : Text) : Option IpAddress :=
  if '/' ∈ s then none
  else
    match partition '%' s with
    | (address, none) => (parseIpv6 address).map (.v6 · none)
    | (address, some scopeId) =>
      if scopeId = [] ∨ '%' ∈ scopeId then none
      else (parseIpv6 address).map (.v6 · (some scopeId))

/-- `ip_address(s)`. -/
def ipAddress (s : Text) : Option IpAddress := ((parseIpv4 s).map .v4).orElse fun _ =>
  parseIpv6Scoped s

/-! ## Networks -/

inductive IpNetwork where
  | v4 (address : BitVec 32) (prefixLength : Nat)
  | v6 (address : BitVec 128) (prefixLength : Nat)

/-- The first `n` bits of two addresses agree. -/
def samePrefix {w : Nat} (n : Nat) (a b : BitVec w) : Bool :=
  a.toNat / 2 ^ (w - n) = b.toNat / 2 ^ (w - n)

/-- `address in network`. -/
def IpNetwork.contains : IpNetwork → IpAddress → Bool
  | .v4 network n, .v4 value => samePrefix n network value
  | .v6 network n, .v6 value _ => samePrefix n network value
  | _, _ => false

/-! ## Classes -/

namespace IpAddress

/-- `ipv4_mapped`. -/
def ipv4Mapped : IpAddress → Option (BitVec 32)
  | .v4 _ => none
  | .v6 value _ => if value.toNat / 2 ^ 32 = 0xFFFF then some (value.truncate 32) else none

/-- The address that is contacted: an IPv4-mapped address denotes the IPv4 address in it. -/
def denoted (a : IpAddress) : IpAddress := (a.ipv4Mapped.map .v4).getD a

/-- The value is in one of the networks, given by a first address and a length. -/
def inAny {w : Nat} (networks : List (Nat × Nat)) (value : BitVec w) : Bool :=
  networks.any fun network => samePrefix network.2 (BitVec.ofNat w network.1) value

/-- The classes of an address that is not IPv4-mapped. -/
def classOf (v4 v6 : List (Nat × Nat)) : IpAddress → Bool
  | .v4 value => inAny v4 value
  | .v6 value _ => inAny v6 value

def isLoopback (a : IpAddress) : Bool := classOf [(0x7F000000, 8)] [(1, 128)] a.denoted

def isLinkLocal (a : IpAddress) : Bool :=
  classOf [(0xA9FE0000, 16)] [(0xFE80 <<< 112, 10)] a.denoted

def isUnspecified (a : IpAddress) : Bool := classOf [(0, 32)] [(0, 128)] a.denoted

def isMulticast (a : IpAddress) : Bool :=
  classOf [(0xE0000000, 4)] [(0xFF00 <<< 112, 8)] a.denoted

def isReserved (a : IpAddress) : Bool :=
  classOf [(0xF0000000, 4)]
    [(0, 8), (0x100 <<< 112, 8), (0x200 <<< 112, 7), (0x400 <<< 112, 6), (0x800 <<< 112, 5),
      (0x1000 <<< 112, 4), (0x4000 <<< 112, 3), (0x6000 <<< 112, 3), (0x8000 <<< 112, 3),
      (0xA000 <<< 112, 3), (0xC000 <<< 112, 3), (0xE000 <<< 112, 4), (0xF000 <<< 112, 5),
      (0xF800 <<< 112, 6), (0xFE00 <<< 112, 9)] a.denoted

@[simp] theorem denoted_v4 (value : BitVec 32) : denoted (.v4 value) = .v4 value := rfl

/-- What an address denotes denotes itself. -/
@[simp] theorem denoted_denoted (a : IpAddress) : a.denoted.denoted = a.denoted := by
  unfold denoted
  cases h : a.ipv4Mapped with
  | none => simp [h]
  | some value => rfl

/-- The classes of an address are those of the address it denotes. -/
theorem isLoopback_denoted (a : IpAddress) : a.denoted.isLoopback = a.isLoopback := by
  simp [isLoopback]

/-- The loopback addresses are in no other class but the reserved ones. -/
theorem not_of_isLoopback {a : IpAddress} (h : a.isLoopback = true) :
    a.isLinkLocal = false ∧ a.isUnspecified = false ∧ a.isMulticast = false := by
  simp only [isLoopback, isLinkLocal, isUnspecified, isMulticast] at h ⊢
  cases hdenoted : a.denoted with
  | v4 value =>
    simp only [hdenoted, classOf, inAny, samePrefix, List.any_cons, List.any_nil, Bool.or_false,
      decide_eq_true_eq, decide_eq_false_iff_not, BitVec.toNat_ofNat] at h ⊢
    refine ⟨?_, ?_, ?_⟩ <;> omega
  | v6 value scopeId =>
    simp only [hdenoted, classOf, inAny, samePrefix, List.any_cons, List.any_nil, Bool.or_false,
      decide_eq_true_eq, decide_eq_false_iff_not, BitVec.toNat_ofNat] at h ⊢
    refine ⟨?_, ?_, ?_⟩ <;> omega

end IpAddress

end Net
