-- SUMMARY: The static egress policy: hosts, networks and ports that an upstream endpoint may name.
import NexusMcp.Net.Url
import NexusMcp.Shared.Errors

/-! # The Egress Policy -/

namespace NexusMcp

open Net (Text Unicode IpAddress IpNetwork ipAddress urlsplit)

/-! ## Hosts and addresses -/

/-- `_METADATA_ADDRESSES`. -/
def metadataAddresses : List IpAddress := [.v4 0x646464C8, .v4 0xA9FEA9FE]

/-- `_METADATA_HOSTS`. -/
def metadataHosts : List Text :=
  ["metadata.google.internal".toList, "metadata.google.internal.".toList]

/-- `_LOCAL_DEMO_HOSTS`. -/
def localDemoHosts : List Text := ["localhost".toList, "127.0.0.1".toList, "::1".toList]

/-- `value.strip().rstrip(".")`. -/
def trimHost (value : Text) : Text :=
  ((value.dropWhile isSpace).rdropWhile isSpace).rdropWhile (· = '.')

/-- `_normalize_host`, with the message of its `ValueError`. -/
def normalizeHost [Unicode] (value : Text) : Except String Text :=
  let host := Unicode.lower (trimHost value)
  if host = [] then .error "egress allowed host must not be blank"
  else if '%' ∈ host then .error "IPv6 zone identifiers are not allowed in egress hosts"
  -- An address may hold colons, a name may not.
  else if ipAddress host = none ∧ ∃ c ∈ host, isSpace c ∨ c ∈ ['/', '\\', '@', ':'] then
    .error "egress allowed host was invalid"
  else (Unicode.idna host).elim (.error "egress allowed host was invalid") .ok

/-- A host that is normalized is what the IDNA codec writes. -/
theorem idna_of_normalizeHost [Unicode] {value host : Text} (h : normalizeHost value = .ok host) :
    '%' ∉ Unicode.lower (trimHost value) ∧
      Unicode.idna (Unicode.lower (trimHost value)) = some host := by
  unfold normalizeHost at h
  dsimp only at h
  split_ifs at h with _ hzone
  cases hidna : Unicode.idna (Unicode.lower (trimHost value)) with
  | none =>
    rw [hidna] at h
    cases h
  | some encoded =>
    rw [hidna] at h
    cases h
    exact ⟨hzone, rfl⟩

/-! ## The policy -/

/-- The name resolution: `HostResolver`. -/
abbrev HostResolver := Text → Nat → Except Exc (List IpAddress)

structure StaticUpstreamEndpointPolicy where
  resolver : HostResolver
  allowedHosts : List Text
  allowedNetworks : List IpNetwork
  allowedPorts : List Nat
  allowLocalDemo : Bool
  portsValid : ∀ port ∈ allowedPorts, 1 ≤ port ∧ port ≤ 65535

def unsafeUpstreamEndpoint (message : String) : Exc := .nexus .unsafeUpstreamEndpoint message

namespace StaticUpstreamEndpointPolicy

/-- `__init__`, on networks that `ip_network` has read. -/
def init [Unicode] (resolver : HostResolver) (allowedHosts : List Text)
    (allowedNetworks : List IpNetwork) (allowedPorts : List Nat) (allowLocalDemo : Bool) :
    Except Exc StaticUpstreamEndpointPolicy := do
  let hosts ← (allowedHosts.mapM normalizeHost).mapError .valueError
  if h : allowedPorts ≠ [] ∧ ∀ port ∈ allowedPorts, 1 ≤ port ∧ port ≤ 65535 then
    return {
      resolver := resolver
      allowedHosts := hosts
      allowedNetworks := allowedNetworks
      allowedPorts := allowedPorts
      allowLocalDemo := allowLocalDemo
      portsValid := h.2 }
  else .error (.valueError "egress allowed ports were invalid")

/-- `_validate_address`. -/
def validateAddress (self : StaticUpstreamEndpointPolicy) (address : IpAddress) (host : Text) :
    Except Exc Unit :=
  -- Loopback is decided first: no allowlist lets it through.
  if address.isLoopback then
    if self.allowLocalDemo ∧ host ∈ localDemoHosts then .ok ()
    else .error (unsafeUpstreamEndpoint "upstream endpoint resolved to loopback")
  else if address ∈ metadataAddresses ∨ address.isLinkLocal ∨ address.isUnspecified ∨
      address.isMulticast ∨ address.isReserved then
    .error (unsafeUpstreamEndpoint "upstream endpoint resolved to a hard-denied address")
  else if host ∈ self.allowedHosts then .ok ()
  else if self.allowedNetworks.any (·.contains address) then .ok ()
  else .error (unsafeUpstreamEndpoint "upstream endpoint address was not allowlisted")

/-- The port that `validate` checks. A port written as zero is falsy. -/
def checkedPort (parsed : Net.SplitResult) : Except Exc Nat :=
  match parsed.port with
  | .ok (some (port + 1)) => .ok (port + 1)
  | .ok _ => .ok (if parsed.scheme = "https".toList then 443 else 80)
  | .error _ => .error (unsafeUpstreamEndpoint "upstream endpoint port was invalid")

/-- The addresses of a host that is not an address itself are those it resolves to. -/
def validateResolved (self : StaticUpstreamEndpointPolicy) (host : Text) (port : Nat) :
    Except Exc Unit := do
  raiseIf (host ∉ self.allowedHosts)
    (unsafeUpstreamEndpoint "upstream endpoint host was not allowlisted")
  -- A name is resolved only if it is allowlisted, and each of its addresses is checked.
  let addresses ← self.resolver host port
  addresses.forM (self.validateAddress · host)

/-- The checks on a normalized host. -/
def validateHost (self : StaticUpstreamEndpointPolicy) (host : Text) (port : Nat) :
    Except Exc Unit := do
  raiseIf (host ∈ metadataHosts) (unsafeUpstreamEndpoint "upstream endpoint targeted cloud metadata")
  match ipAddress host with
  | some literalAddress => self.validateAddress literalAddress host
  | none => self.validateResolved host port

/-- `validate`. -/
def validate [Unicode] (self : StaticUpstreamEndpointPolicy) (endpoint : Text) :
    Except Exc Unit := do
  let parsed ← (urlsplit endpoint).mapError .valueError
  raiseIf (parsed.scheme ∉ ["http".toList, "https".toList] ∨ parsed.hostname = none)
    (unsafeUpstreamEndpoint "upstream endpoint scheme or host was invalid")
  raiseIf (parsed.hasCredentials = true)
    (unsafeUpstreamEndpoint "upstream endpoint contained URL credentials")
  raiseIf (parsed.fragment ≠ []) (unsafeUpstreamEndpoint "upstream endpoint contained a fragment")
  let port ← checkedPort parsed
  raiseIf (port ∉ self.allowedPorts)
    (unsafeUpstreamEndpoint "upstream endpoint port was not allowed")
  let host ← (normalizeHost (parsed.hostname.getD [])).mapError fun _ =>
    unsafeUpstreamEndpoint "upstream endpoint host was invalid"
  self.validateHost host port

/-! ## What the policy accepts -/

/-- `validate` reads this host and port off the endpoint. -/
def Reads [Unicode] (endpoint host : Text) (port : Nat) : Prop :=
  ∃ parsed, urlsplit endpoint = .ok parsed ∧ checkedPort parsed = .ok port ∧
    normalizeHost (parsed.hostname.getD []) = .ok host

/-- An address that a connection to the host may use. -/
def MayConnect (self : StaticUpstreamEndpointPolicy) (host : Text) (port : Nat)
    (address : IpAddress) : Prop :=
  ipAddress host = some address ∨
    (ipAddress host = none ∧ ∃ addresses, self.resolver host port = .ok addresses ∧
      address ∈ addresses)

/-- The loopback address of a demo host. -/
def LocalDemo (self : StaticUpstreamEndpointPolicy) (host : Text) (address : IpAddress) : Prop :=
  address.isLoopback = true ∧ self.allowLocalDemo = true ∧ host ∈ localDemoHosts

/-- An address that may be contacted as `host`. -/
structure Safe (self : StaticUpstreamEndpointPolicy) (host : Text) (address : IpAddress) :
    Prop where
  notMetadata : address ∉ metadataAddresses
  notLinkLocal : address.denoted.isLinkLocal = false
  notUnspecified : address.denoted.isUnspecified = false
  notMulticast : address.denoted.isMulticast = false
  notReserved : address.denoted.isReserved = true → self.LocalDemo host address
  loopback : address.denoted.isLoopback = true → self.LocalDemo host address
  allowed : self.LocalDemo host address ∨ host ∈ self.allowedHosts ∨
    ∃ network ∈ self.allowedNetworks, network.contains address = true

theorem validateAddress_eq_ok {self : StaticUpstreamEndpointPolicy} {address : IpAddress}
    {host : Text} : self.validateAddress address host = .ok () ↔
      self.LocalDemo host address ∨ (address.isLoopback = false ∧
        ¬ (address ∈ metadataAddresses ∨ address.isLinkLocal ∨ address.isUnspecified ∨
          address.isMulticast ∨ address.isReserved) ∧
        (host ∈ self.allowedHosts ∨
          ∃ network ∈ self.allowedNetworks, network.contains address = true)) := by
  unfold validateAddress LocalDemo
  split_ifs <;> simp_all

/-- The metadata addresses are not loopback addresses. -/
theorem not_mem_metadataAddresses {address : IpAddress} (h : address.isLoopback = true) :
    address ∉ metadataAddresses := by
  intro hmem
  simp only [metadataAddresses, List.mem_cons, List.not_mem_nil, or_false] at hmem
  rcases hmem with rfl | rfl
  · exact absurd h (by decide)
  · exact absurd h (by decide)

theorem safe_of_validateAddress {self : StaticUpstreamEndpointPolicy} {address : IpAddress}
    {host : Text} (h : self.validateAddress address host = .ok ()) : self.Safe host address := by
  rcases validateAddress_eq_ok.1 h with hdemo | ⟨hloopback, hdenied, hallowed⟩
  · obtain ⟨hlinkLocal, hunspecified, hmulticast⟩ := IpAddress.not_of_isLoopback hdemo.1
    constructor
    · exact not_mem_metadataAddresses hdemo.1
    · simpa [IpAddress.isLinkLocal] using hlinkLocal
    · simpa [IpAddress.isUnspecified] using hunspecified
    · simpa [IpAddress.isMulticast] using hmulticast
    · intro _
      exact hdemo
    · intro _
      exact hdemo
    · exact .inl hdemo
  · simp only [not_or, Bool.not_eq_true] at hdenied
    obtain ⟨hmetadata, hlinkLocal, hunspecified, hmulticast, hreserved⟩ := hdenied
    constructor
    · exact hmetadata
    · simpa [IpAddress.isLinkLocal] using hlinkLocal
    · simpa [IpAddress.isUnspecified] using hunspecified
    · simpa [IpAddress.isMulticast] using hmulticast
    · intro h
      rw [IpAddress.isReserved, IpAddress.denoted_denoted] at h
      exact absurd (hreserved.symm.trans h) (by decide)
    · intro h
      rw [IpAddress.isLoopback_denoted, hloopback] at h
      cases h
    · exact .inr hallowed

theorem forM_eq_ok {α : Type} {f : α → Except Exc Unit} {l : List α} :
    l.forM f = .ok () ↔ ∀ a ∈ l, f a = .ok () := by
  induction l with
  | nil => exact ⟨fun _ a ha => absurd ha List.not_mem_nil, fun _ => rfl⟩
  | cons a l ih =>
    change (f a >>= fun _ => l.forM f) = _ ↔ _
    rw [bind_eq_ok, List.forall_mem_cons, ← ih]
    constructor
    · rintro ⟨⟨⟩, ha, hl⟩
      exact ⟨ha, hl⟩
    · rintro ⟨ha, hl⟩
      exact ⟨(), ha, hl⟩

/-- Every address of an accepted host passed the check of addresses. -/
theorem validateAddress_of_validateHost {self : StaticUpstreamEndpointPolicy} {host : Text}
    {port : Nat} {address : IpAddress} (h : self.validateHost host port = .ok ())
    (hconnect : self.MayConnect host port address) :
    self.validateAddress address host = .ok () := by
  simp only [validateHost, raiseIf_bind_eq_ok] at h
  obtain ⟨-, h⟩ := h
  rcases hconnect with hliteral | ⟨hname, addresses, hresolved, hmem⟩
  · rw [hliteral] at h
    exact h
  · rw [hname] at h
    simp only [validateResolved, raiseIf_bind_eq_ok, hresolved] at h
    exact forM_eq_ok.1 h.2 address hmem

/-- An accepted endpoint has a host and a port that passed their checks. -/
theorem validate_eq_ok [Unicode] {self : StaticUpstreamEndpointPolicy} {endpoint : Text} :
    self.validate endpoint = .ok () ↔ ∃ parsed port host, urlsplit endpoint = .ok parsed ∧
      parsed.scheme ∈ ["http".toList, "https".toList] ∧ parsed.hostname ≠ none ∧
      parsed.hasCredentials = false ∧ parsed.fragment = [] ∧ checkedPort parsed = .ok port ∧
      port ∈ self.allowedPorts ∧ normalizeHost (parsed.hostname.getD []) = .ok host ∧
      self.validateHost host port = .ok () := by
  simp only [validate, bind_eq_ok, mapError_eq_ok, raiseIf_eq_ok, exists_const, not_or, not_not,
    ne_eq, Bool.not_eq_true]
  constructor
  · rintro ⟨parsed, hsplit, ⟨hscheme, hhost⟩, hcredentials, hfragment, port, hport, hallowed, host,
      hnormalize, hvalid⟩
    exact ⟨parsed, port, host, hsplit, hscheme, hhost, hcredentials, hfragment, hport, hallowed,
      hnormalize, hvalid⟩
  · rintro ⟨parsed, port, host, hsplit, hscheme, hhost, hcredentials, hfragment, hport, hallowed,
      hnormalize, hvalid⟩
    exact ⟨parsed, hsplit, ⟨hscheme, hhost⟩, hcredentials, hfragment, port, hport, hallowed, host,
      hnormalize, hvalid⟩

/-- An endpoint is read in one way only. -/
theorem Reads.unique [Unicode] {endpoint host host' : Text} {port port' : Nat}
    (h : Reads endpoint host port) (h' : Reads endpoint host' port') :
    host = host' ∧ port = port' := by
  obtain ⟨parsed, hsplit, hport, hhost⟩ := h
  obtain ⟨parsed', hsplit', hport', hhost'⟩ := h'
  rw [hsplit] at hsplit'
  cases hsplit'
  rw [hport] at hport'
  rw [hhost] at hhost'
  cases hport'
  cases hhost'
  exact ⟨rfl, rfl⟩

/-- A host that was accepted has only safe addresses. -/
theorem safe_of_validate [Unicode] {self : StaticUpstreamEndpointPolicy} {endpoint host : Text}
    {port : Nat} {address : IpAddress} (h : self.validate endpoint = .ok ())
    (hreads : Reads endpoint host port) (hconnect : self.MayConnect host port address) :
    self.Safe host address := by
  obtain ⟨parsed, port', host', hsplit, -, -, -, -, hport, -, hhost, hvalid⟩ := validate_eq_ok.1 h
  obtain ⟨rfl, rfl⟩ := hreads.unique ⟨parsed, hsplit, hport, hhost⟩
  exact safe_of_validateAddress (validateAddress_of_validateHost hvalid hconnect)

end StaticUpstreamEndpointPolicy

open StaticUpstreamEndpointPolicy (Reads)

/-- Every address that an accepted endpoint may connect to is safe, and one address that is
    not rejects the endpoint. -/
theorem egress_sound [Unicode] (policy : StaticUpstreamEndpointPolicy) (endpoint : Text) :
    (policy.validate endpoint = .ok () → ∃ host port, Reads endpoint host port ∧
      ∀ address, policy.MayConnect host port address → policy.Safe host address) ∧
    ∀ host port address, Reads endpoint host port → policy.MayConnect host port address →
      ¬ policy.Safe host address → ∃ e, policy.validate endpoint = .error e := by
  constructor
  · intro haccepted
    obtain ⟨parsed, port, host, hsplit, -, -, -, -, hport, -, hhost, -⟩ :=
      StaticUpstreamEndpointPolicy.validate_eq_ok.1 haccepted
    have hreads : Reads endpoint host port := ⟨parsed, hsplit, hport, hhost⟩
    refine ⟨host, port, hreads, ?_⟩
    intro address hconnect
    exact StaticUpstreamEndpointPolicy.safe_of_validate haccepted hreads hconnect
  · intro host port address hreads hconnect hdropped
    cases hvalidate : policy.validate endpoint with
    | error e => exact ⟨e, rfl⟩
    | ok =>
      exact absurd (StaticUpstreamEndpointPolicy.safe_of_validate hvalidate hreads hconnect) hdropped

section

/-- The Unicode tables on ASCII texts. -/
@[reducible] def asciiUnicode : Unicode where
  lower := List.map Char.toLower
  nfkc := id
  idna s := if s.all (·.toNat < 128) then some s else none

attribute [local instance] asciiUnicode

/-- A policy that allows one host, in one network. -/
def internalPolicy : StaticUpstreamEndpointPolicy where
  resolver _ _ := .ok [.v4 0x0A000005, .v4 0x0A000006]
  allowedHosts := ["api.internal".toList]
  allowedNetworks := [.v4 0x0A000000 8]
  allowedPorts := [80, 443]
  allowLocalDemo := true
  portsValid := by decide

theorem egress_sound_internal :
    ∃ host port, Reads "https://Api.internal./v1".toList host port ∧
      ∀ address, internalPolicy.MayConnect host port address →
        internalPolicy.Safe host address :=
  (egress_sound internalPolicy "https://Api.internal./v1".toList).1 rfl

/-- The loopback address of a demo host is accepted though nothing allows it by name. -/
theorem local_demo_is_not_allowlisted :
    ¬ ∀ (policy : StaticUpstreamEndpointPolicy) (endpoint host : Text) (port : Nat)
      (address : IpAddress), policy.validate endpoint = .ok () → Reads endpoint host port →
      policy.MayConnect host port address → host ∈ policy.allowedHosts ∨
        ∃ network ∈ policy.allowedNetworks, network.contains address = true := by
  intro h
  have hallowed := h internalPolicy "http://127.0.0.1/".toList "127.0.0.1".toList 80
    (.v4 0x7F000001) rfl ⟨_, rfl, rfl, rfl⟩ (.inl rfl)
  revert hallowed
  decide

end

end NexusMcp
