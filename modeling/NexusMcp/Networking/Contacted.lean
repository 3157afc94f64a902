-- SUMMARY: Whether the URL that a call requests is the endpoint that the egress policy checked.
import NexusMcp.Registry.UseCases
import NexusMcp.Net.UrlForm

/-!
# The Contacted Endpoint

The policy reads the endpoint with `urlsplit`; the client reads the URL that the executor
makes of the endpoint and the mapped path.
-/

namespace NexusMcp

open Net (Text Unicode UrlForm Stops urlsplit parseUri uriHostPort isUnsafe isNetlocChar
  isPathChar)
open StaticUpstreamEndpointPolicy (checkedPort)

/-! ## The URL -/

/-- `f"{tool.upstream_endpoint.rstrip('/')}{path}"`. -/
def upstreamUrl (endpoint path : Text) : Text := endpoint.rdropWhile (· = '/') ++ path

/-- The port of a scheme that none is written for. -/
def defaultPort (scheme : Text) : Nat := if scheme = "https".toList then 443 else 80

/-- The URL has the scheme and the host that were checked, a port that is allowed, and the
    endpoint's path followed by the mapped path. The host that is checked is the normalized one;
    the scheme and the host of a URL are read without regard to case. -/
def ContactedAsChecked [Unicode] (policy : StaticUpstreamEndpointPolicy)
    (endpoint path : Text) : Prop :=
  ∃ (checked : Net.SplitResult) (checkedHost scheme authority host : Text) (port : Option Nat),
    urlsplit endpoint = .ok checked ∧
    normalizeHost (checked.hostname.getD []) = .ok checkedHost ∧
    parseUri (upstreamUrl endpoint path) =
      ⟨some scheme, some authority, (parseUri endpoint).path.rdropWhile (· = '/') ++ path⟩ ∧
    scheme.map Char.toLower = checked.scheme ∧
    uriHostPort authority = some (host, port) ∧
    host.map Char.toLower = checkedHost ∧
    port.getD (defaultPort checked.scheme) ∈ policy.allowedPorts

/-! ## The condition -/

/-- The endpoint starts with a scheme and an authority, and `urlsplit` drops none of their
    characters. -/
def StartsVerbatim (endpoint : Text) : Prop :=
  ∃ scheme authority rest, UrlForm endpoint scheme authority rest

/-- A host of ASCII characters, with no space at its ends and no dot at the last. -/
structure PlainHost (host : Text) : Prop where
  ascii : ∀ c ∈ host, c.toNat < 128
  first : ∀ c ∈ host.head?, isSpace c = false
  last : ∀ c ∈ host.getLast?, isSpace c = false ∧ c ≠ '.'

/-- The host is written as a plain one. -/
def HostPlain (endpoint : Text) : Prop :=
  ∀ authority ∈ (parseUri endpoint).authority, ∀ host port,
    uriHostPort authority = some (host, port) → PlainHost host

/-- The port is not written as zero. -/
def PortNotZero (endpoint : Text) : Prop :=
  ∀ authority ∈ (parseUri endpoint).authority, ∀ host,
    uriHostPort authority ≠ some (host, some 0)

/-- The mapped path goes on where the path of the endpoint ends. An endpoint with a query or a
    fragment ends elsewhere: there the URL has the expected path only where the mapped path is
    what the endpoint's own path ends in. -/
def PathContinues (endpoint path : Text) : Prop :=
  if endpoint.all isPathChar then path.all isPathChar = true
  else path = (parseUri endpoint).path.rtakeWhile (· = '/')

/-! ## The host that is checked -/

theorem mem_of_mem_trimHost {host : Text} {c : Char} (h : c ∈ trimHost host) : c ∈ host := by
  unfold trimHost at h
  apply (List.dropWhile_suffix isSpace).subset
  apply (List.rdropWhile_prefix isSpace _).subset
  exact (List.rdropWhile_prefix _ _).subset h

/-- Trimming leaves a text with no space at its ends and no dot at the last, and no other. -/
theorem trimHost_eq_self {host : Text} : trimHost host = host ↔
    (∀ c ∈ host.head?, isSpace c = false) ∧ ∀ c ∈ host.getLast?, isSpace c = false ∧ c ≠ '.' := by
  have hlast {p : Char → Bool} :
      host.rdropWhile p = host ↔ ∀ c ∈ host.getLast?, p c = false := by
    rw [List.rdropWhile_eq_self_iff]
    constructor
    · intro h c hc
      obtain ⟨hne, rfl⟩ := List.mem_getLast?_eq_getLast hc
      simpa using h hne
    · intro h hne
      simpa using h _ (List.getLast_mem_getLast? hne)
  have hfirst : host.dropWhile isSpace = host ↔ ∀ c ∈ host.head?, isSpace c = false := by
    cases host <;> simp
  constructor
  · intro h
    -- nothing is dropped in any of the three steps, or the text would be shorter
    have hdrop := (List.dropWhile_suffix isSpace (l := host)).length_le
    have hstrip := (List.rdropWhile_prefix isSpace (host.dropWhile isSpace)).length_le
    have hdots := (List.rdropWhile_prefix (fun c => decide (c = '.'))
      ((host.dropWhile isSpace).rdropWhile isSpace)).length_le
    have hlength := congrArg List.length h
    unfold trimHost at h hlength
    have hspaces := (List.dropWhile_suffix isSpace (l := host)).eq_of_length (by omega)
    rw [hspaces] at h hstrip hdots hlength
    have hends := (List.rdropWhile_prefix isSpace host).eq_of_length (by omega)
    rw [hends] at h
    refine ⟨hfirst.1 hspaces, ?_⟩
    intro c hc
    exact ⟨hlast.1 hends c hc, by simpa using hlast.1 h c hc⟩
  · rintro ⟨hhead, hend⟩
    unfold trimHost
    rw [hfirst.2 hhead, hlast.2 fun c hc => (hend c hc).1,
      hlast.2 fun c hc => by simpa using (hend c hc).2]

/-- What the case of an ASCII character has no part in. -/
theorem toLower_facts {c : Char} (hc : c.toNat < 128) :
    isSpace c.toLower = isSpace c ∧ (c.toLower = '.' ↔ c = '.') ∧ c.toLower.toNat < 128 ∧
      c.toLower.toLower = c.toLower := by
  have hall : ∀ n < 128, isSpace (Char.ofNat n).toLower = isSpace (Char.ofNat n) ∧
      ((Char.ofNat n).toLower = '.' ↔ Char.ofNat n = '.') ∧ (Char.ofNat n).toLower.toNat < 128 ∧
      (Char.ofNat n).toLower.toLower = (Char.ofNat n).toLower := by decide
  exact Net.forall_ascii (P := fun c => isSpace c.toLower = isSpace c ∧
    (c.toLower = '.' ↔ c = '.') ∧ c.toLower.toNat < 128 ∧ c.toLower.toLower = c.toLower) hall c hc

theorem ascii_of_toLower {c : Char} (h : c.toLower.toNat < 128) : c.toNat < 128 := by
  unfold Char.toLower at h
  split at h
  · next hupper =>
    have hle : c.toNat ≤ 90 := hupper.2
    omega
  · exact h

/-- The case of the letters has no part in what trimming leaves. -/
theorem trimHost_map_toLower {host : Text} (hascii : ∀ c ∈ host, c.toNat < 128) :
    trimHost (host.map Char.toLower) = host.map Char.toLower ↔ trimHost host = host := by
  rw [trimHost_eq_self, trimHost_eq_self, List.head?_map, List.getLast?_map]
  simp only [Option.mem_map, forall_exists_index, and_imp, forall_apply_eq_imp_iff₂]
  apply and_congr
  · apply forall₂_congr
    intro c hc
    rw [(toLower_facts (hascii c (List.mem_of_mem_head? hc))).1]
  · apply forall₂_congr
    intro c hc
    obtain ⟨hspace, hdot, -⟩ := toLower_facts (hascii c (List.mem_of_mem_getLast? hc))
    rw [hspace, Ne, hdot]

section Host

variable [Unicode] [Unicode.Lawful] {host checkedHost : Text}

/-- An ASCII host is checked as it is trimmed. -/
theorem normalizeHost_ascii (hascii : ∀ c ∈ host, c.toNat < 128)
    (h : normalizeHost (Unicode.lower host) = .ok checkedHost) :
    checkedHost = trimHost (host.map Char.toLower) := by
  obtain ⟨-, hidna⟩ := idna_of_normalizeHost h
  rw [Unicode.Lawful.lower_ascii host hascii] at hidna
  have hlowered : ∀ c ∈ trimHost (host.map Char.toLower),
      c.toNat < 128 ∧ c.toLower = c := by
    intro c hc
    obtain ⟨x, hx, rfl⟩ := List.mem_map.1 (mem_of_mem_trimHost hc)
    exact (toLower_facts (hascii x hx)).2.2
  have hself : (trimHost (host.map Char.toLower)).map Char.toLower =
      trimHost (host.map Char.toLower) :=
    (List.map_congr_left fun c hc => (hlowered c hc).2).trans (List.map_id _)
  rw [Unicode.Lawful.lower_ascii _ fun c hc => (hlowered c hc).1, hself] at hidna
  exact Unicode.Lawful.idna_ascii _ _ (fun c hc => (hlowered c hc).1) hidna

/-- A host is the one that is checked, up to case, exactly when it is plain. -/
theorem plainHost_iff (h : normalizeHost (Unicode.lower host) = .ok checkedHost) :
    host.map Char.toLower = checkedHost ↔ PlainHost host := by
  constructor
  · intro hsame
    have hascii : ∀ c ∈ host, c.toNat < 128 := by
      intro c hc
      apply ascii_of_toLower
      apply Unicode.Lawful.ascii_of_idna _ _ (idna_of_normalizeHost h).2
      rw [← hsame]
      exact List.mem_map_of_mem hc
    have htrim := (normalizeHost_ascii hascii h).symm.trans hsame.symm
    obtain ⟨hfirst, hlast⟩ := trimHost_eq_self.1 ((trimHost_map_toLower hascii).1 htrim)
    exact ⟨hascii, hfirst, hlast⟩
  · rintro ⟨hascii, hfirst, hlast⟩
    rw [normalizeHost_ascii hascii h]
    exact ((trimHost_map_toLower hascii).2 (trimHost_eq_self.2 ⟨hfirst, hlast⟩)).symm

end Host

/-! ## An endpoint in the form -/

section Verbatim

variable [Unicode] {policy : StaticUpstreamEndpointPolicy}
  {endpoint path scheme authority rest : Text}

omit [Unicode] in
/-- What is left of the path of an endpoint, and the mapped path after it, begin with a slash. -/
theorem stops_stripped (hrest : Stops isNetlocChar rest) (hpath : path.head? = some '/') :
    Stops isNetlocChar (rest.rdropWhile (· = '/') ++ path) := by
  obtain ⟨tail, hsplit, -⟩ := Net.exists_stripped (fun c => decide (c = '/')) rest
  cases hstripped : rest.rdropWhile (· = '/') with
  | nil =>
    cases path with
    | nil => cases hpath
    | cons c path =>
      obtain rfl : c = '/' := by simpa using hpath
      simp [isNetlocChar]
  | cons c stripped =>
    rw [hstripped] at hsplit
    rw [hsplit] at hrest
    simpa using hrest

omit [Unicode] in
/-- The port that was checked is the one written, unless that is zero. -/
theorem port_of_checkedPort {parsed : Net.SplitResult} {checked : Nat}
    (h : checkedPort parsed = .ok checked) : ∃ port, parsed.port = .ok port ∧
      (port ≠ some 0 → port.getD (defaultPort parsed.scheme) = checked) := by
  unfold checkedPort at h
  split at h
  · next port hport =>
    cases h
    exact ⟨_, hport, fun _ => rfl⟩
  · next port hnonzero hport =>
    cases h
    refine ⟨port, hport, ?_⟩
    intro hzero
    match port with
    | none => rfl
    | some 0 => exact absurd rfl hzero
    | some (n + 1) => exact (hnonzero n rfl).elim
  · cases h

/-- A host that is normalized has no zone identifier. -/
theorem not_mem_of_normalizeHost [Unicode.Lawful] {value host : Text}
    (h : normalizeHost value = .ok host) : '%' ∉ value := by
  intro hzone
  have htrim : '%' ∈ trimHost value := by
    unfold trimHost
    apply Net.mem_rdropWhile_of_not _ (by decide)
    apply Net.mem_rdropWhile_of_not _ (by decide)
    exact Net.mem_dropWhile_of_not hzone (by decide)
  exact (idna_of_normalizeHost h).1
    ((Unicode.Lawful.mem_lower '%' (trimHost value) (by decide) (by decide)).2 htrim)

/-- A host name without a zone identifier is the lower case of what the authority says. -/
theorem hostname_eq [Unicode.Lawful] {parsed : Net.SplitResult} (hhost : parsed.hostname ≠ none)
    (hzone : '%' ∉ parsed.hostname.getD []) :
    parsed.hostname = some (Unicode.lower parsed.hostinfo.1) ∧ parsed.hostinfo.1 ≠ [] := by
  unfold Net.SplitResult.hostname at hhost hzone ⊢
  split_ifs at hhost hzone ⊢ with hempty
  · exact absurd rfl hhost
  · rcases Net.partition_cases '%' parsed.hostinfo.1 with hnot | ⟨address, zone, hnot, hinfo⟩
    · rw [Net.partition_of_not_mem hnot]
      exact ⟨rfl, hempty⟩
    · rw [hinfo, Net.partition_append hnot] at hzone
      simp at hzone

omit [Unicode] in
theorem mem_map_toLower_of_isUnsafe {host : Text} {c : Char} (hc : Net.isUnsafe c = true)
    (hmem : c ∈ host) : c ∈ host.map Char.toLower := by
  refine List.mem_map.2 ⟨c, hmem, ?_⟩
  rcases Net.isUnsafe_iff.1 hc with rfl | rfl | rfl <;> rfl

/-- A character that `urlsplit` would drop gets into the normalized host in no way. -/
theorem mem_hostinfo_of_isUnsafe [Unicode.Lawful] {parsed : Net.SplitResult} {host : Text}
    {c : Char} (hhost : parsed.hostname ≠ none)
    (h : normalizeHost (parsed.hostname.getD []) = .ok host) (hc : Net.isUnsafe c = true)
    (hmem : c ∈ host) : c ∈ parsed.hostinfo.1 := by
  have hcontrol : c.toNat < 32 ∧ Net.isAlpha c = false := by
    rcases Net.isUnsafe_iff.1 hc with rfl | rfl | rfl <;> decide
  have hascii : c.toNat < 128 := hcontrol.1.trans (by decide)
  obtain ⟨hname, -⟩ := hostname_eq hhost (not_mem_of_normalizeHost h)
  have hlowered := Unicode.Lawful.mem_of_idna _ _ (idna_of_normalizeHost h).2 c hmem hcontrol.1
  have htrimmed := (Unicode.Lawful.mem_lower c _ hascii hcontrol.2).1 hlowered
  have hread := mem_of_mem_trimHost htrimmed
  rw [hname] at hread
  exact (Unicode.Lawful.mem_lower c _ hascii hcontrol.2).1 hread

/-- What an accepted endpoint is read as: its scheme, its host and its port are those that the
    generic syntax reads, and the host that is checked is the normalized one. -/
theorem checked_of_form [Unicode.Lawful] (hform : UrlForm endpoint scheme authority rest)
    (hvalid : policy.validate endpoint = .ok ()) :
    scheme ≠ [] ∧ authority ≠ [] ∧ ∃ (checked : Net.SplitResult) (checkedHost : Text)
      (port : Option Nat),
      urlsplit endpoint = .ok checked ∧ scheme.map Char.toLower = checked.scheme ∧
      uriHostPort authority = some (checked.hostinfo.1, port) ∧
      checked.hostname = some (Unicode.lower checked.hostinfo.1) ∧
      normalizeHost (Unicode.lower checked.hostinfo.1) = .ok checkedHost ∧
      (port ≠ some 0 → port.getD (defaultPort checked.scheme) ∈ policy.allowedPorts) := by
  obtain ⟨parsed, checkedPort, host, hsplit, hscheme, hhostname, hcredentials, -, hport, hallowed,
    hnormalized, -⟩ := StaticUpstreamEndpointPolicy.validate_eq_ok.1 hvalid
  have hsome : parsed.scheme ≠ [] := by
    intro hnil
    rw [hnil] at hscheme
    exact absurd hscheme (by decide)
  obtain ⟨hnonempty, hlower, hnetloc⟩ := hform.urlsplit hsplit hsome
  obtain ⟨-, -, hclosed, hbrackets⟩ := Net.urlsplit_eq_ok hsplit
  obtain ⟨hname, hinfo⟩ := hostname_eq hhostname (not_mem_of_normalizeHost hnormalized)
  obtain ⟨port, hparsedPort, hchecked⟩ := port_of_checkedPort hport
  have hat : '@' ∉ parsed.netloc := by simpa [Net.SplitResult.hasCredentials] using hcredentials
  -- Without credentials the network location is the host and the port in both syntaxes.
  have hhostPort := Net.SplitResult.uriHostPort_netloc hat hclosed hbrackets hparsedPort
  rw [hnetloc] at hhostPort
  have hchecks : normalizeHost (Unicode.lower parsed.hostinfo.1) = .ok host := by
    rwa [hname] at hnormalized
  refine ⟨hnonempty, ?_, parsed, host, port, hsplit, hlower.symm, hhostPort, hname, hchecks, ?_⟩
  · rintro rfl
    have hnone : uriHostPort [] = some ([], none) := rfl
    rw [hnone] at hhostPort
    exact hinfo (Prod.mk.inj (Option.some.inj hhostPort)).1.symm
  · intro hzero
    rw [hchecked hzero]
    exact hallowed

omit [Unicode] in
/-- The URL has the scheme and the authority of the endpoint. -/
theorem parseUri_upstreamUrl (hform : UrlForm endpoint scheme authority rest)
    (hscheme : scheme ≠ []) (hauthority : authority ≠ []) (hpath : path.head? = some '/') :
    parseUri (upstreamUrl endpoint path) = ⟨some scheme, some authority,
      (rest.rdropWhile (· = '/') ++ path).takeWhile isPathChar⟩ := by
  have hstripped : upstreamUrl endpoint path =
      scheme ++ ':' :: '/' :: '/' :: (authority ++ (rest.rdropWhile (· = '/') ++ path)) := by
    have hslash : ∀ c ∈ authority, decide (c = '/') = false := by
      intro c hc
      rw [decide_eq_false_iff_not]
      exact (Net.isNetlocChar_iff.1 (hform.authority c hc).1).1
    have hstable := Net.rdropWhile_append_of_none (s := scheme ++ [':', '/', '/']) hauthority hslash
    have hcut := Net.rdropWhile_append_of_stable (t := rest) hstable
    simp only [List.append_assoc, List.cons_append, List.nil_append] at hcut
    rw [upstreamUrl, hform.eq, hcut]
    simp only [List.append_assoc, List.cons_append]
  rw [hstripped]
  apply Net.parseUri_of_stops hscheme _ _ (stops_stripped hform.rest hpath)
  · intro c hc
    exact (Net.isSchemeChar_imp (hform.scheme c hc)).2.2
  · intro c hc
    exact (hform.authority c hc).1

/-! ### The path of the URL -/

omit [Unicode] in
/-- Where the rest of the endpoint is a path only, the URL's path goes on after it. -/
theorem takeWhile_path (hrest : ∀ c ∈ rest, isPathChar c = true) :
    (rest.rdropWhile (· = '/') ++ path).takeWhile isPathChar =
        (rest.takeWhile isPathChar).rdropWhile (· = '/') ++ path ↔
      path.all isPathChar = true := by
  have hstripped : ∀ c ∈ rest.rdropWhile (· = '/'), isPathChar c = true := by
    intro c hc
    exact hrest c ((List.rdropWhile_prefix _ rest).subset hc)
  rw [List.takeWhile_append_of_pos hstripped, List.takeWhile_eq_self_iff.2 hrest,
    List.append_cancel_left_eq, List.takeWhile_eq_self_iff, List.all_eq_true]

omit [Unicode] in
/-- Where the endpoint has a query, the URL's path ends with the endpoint's path. -/
theorem takeWhile_query {c : Char} {before after : Text} (hc : isPathChar c = false)
    (hbefore : ∀ x ∈ before, isPathChar x = true) :
    ((before ++ c :: after).rdropWhile (· = '/') ++ path).takeWhile isPathChar =
        ((before ++ c :: after).takeWhile isPathChar).rdropWhile (· = '/') ++ path ↔
      path = before.rtakeWhile (· = '/') := by
  have hslash : decide (c = '/') = false := by
    rw [decide_eq_false_iff_not]
    rintro rfl
    exact absurd hc (by decide)
  have hcut : (before ++ c :: after).rdropWhile (· = '/') =
      before ++ c :: after.rdropWhile (· = '/') := by
    have hstable := Net.rdropWhile_append_of_none (s := before)
      (p := fun x => decide (x = '/')) (List.cons_ne_nil c []) (by simpa using hslash)
    simpa using Net.rdropWhile_append_of_stable (t := after) hstable
  rw [hcut, List.append_assoc, List.cons_append,
    Net.takeWhile_append_stops hbefore (Net.stops_cons.2 hc),
    Net.takeWhile_append_stops hbefore (Net.stops_cons.2 hc)]
  have hparts : before.rdropWhile (· = '/') ++ before.rtakeWhile (· = '/') = before :=
    List.rdropWhile_append_rtakeWhile
  constructor
  · intro h
    exact (List.append_cancel_left (hparts.trans h)).symm
  · rintro rfl
    exact hparts.symm

omit [Unicode] in
theorem all_isPathChar_iff (hform : UrlForm endpoint scheme authority rest) :
    endpoint.all isPathChar = true ↔ ∀ c ∈ rest, isPathChar c = true := by
  have hscheme : ∀ c ∈ scheme, isPathChar c = true := by
    intro c hc
    have hstop := (Net.isSchemeChar_imp (hform.scheme c hc)).2.2
    rw [Net.isPathChar_iff]
    constructor <;> rintro rfl <;> exact absurd hstop (by decide)
  have hauthority : ∀ c ∈ authority, isPathChar c = true := by
    intro c hc
    rw [Net.isPathChar_iff]
    exact (Net.isNetlocChar_iff.1 (hform.authority c hc).1).2
  have hpunctuation : isPathChar ':' = true ∧ isPathChar '/' = true := by decide
  rw [hform.eq, List.all_eq_true]
  constructor
  · intro h c hc
    apply h
    simp [hc]
  · intro h c hc
    simp only [List.mem_append, List.mem_cons] at hc
    rcases hc with hc | rfl | rfl | rfl | hc | hc
    · exact hscheme c hc
    · exact hpunctuation.1
    · exact hpunctuation.2
    · exact hpunctuation.2
    · exact hauthority c hc
    · exact h c hc

omit [Unicode] in
/-- The path of the URL is the expected one exactly when the mapped path goes on where the
    endpoint's path ends. -/
theorem pathContinues_iff (hform : UrlForm endpoint scheme authority rest)
    (hscheme : scheme ≠ []) :
    PathContinues endpoint path ↔ (rest.rdropWhile (· = '/') ++ path).takeWhile isPathChar =
      (rest.takeWhile isPathChar).rdropWhile (· = '/') ++ path := by
  unfold PathContinues
  rw [hform.parseUri hscheme]
  split_ifs with hall
  · exact (takeWhile_path ((all_isPathChar_iff hform).1 hall)).symm
  · obtain ⟨before, after, rfl, hbefore, hafter⟩ := Net.exists_run isPathChar rest
    cases after with
    | nil =>
      rw [List.append_nil] at hform
      exact absurd ((all_isPathChar_iff hform).2 hbefore) hall
    | cons c after =>
      rw [takeWhile_query (Net.stops_cons.1 hafter) hbefore]
      dsimp only
      rw [Net.takeWhile_append_stops hbefore hafter]

/-! ### The endpoint in the form -/

/-- An accepted endpoint that starts verbatim is the one contacted exactly when its host is
    plain, its port is not zero and the mapped path goes on where its path ends. -/
theorem contacted_iff_of_form [Unicode.Lawful] (hform : UrlForm endpoint scheme authority rest)
    (hvalid : policy.validate endpoint = .ok ()) (hpath : path.head? = some '/') :
    ContactedAsChecked policy endpoint path ↔
      HostPlain endpoint ∧ PortNotZero endpoint ∧ PathContinues endpoint path := by
  obtain ⟨hscheme, hauthority, checked, checkedHost, port, hsplit, hlower, hhostPort, hname,
    hchecks, hallowed⟩ := checked_of_form hform hvalid
  have hurl := parseUri_upstreamUrl hform hscheme hauthority hpath
  have hendpoint := hform.parseUri hscheme
  have hnormalized : normalizeHost (checked.hostname.getD []) = .ok checkedHost := by
    rwa [hname]
  rw [pathContinues_iff hform hscheme]
  constructor
  · rintro ⟨checked', checkedHost', scheme', authority', host, port', hsplit', hnormalized', hurl',
      -, hhostPort', hhost, hallowed'⟩
    rw [hsplit] at hsplit'
    cases hsplit'
    rw [hnormalized] at hnormalized'
    cases hnormalized'
    rw [hurl, hendpoint, Net.UriReference.mk.injEq] at hurl'
    obtain ⟨-, hsame, hpaths⟩ := hurl'
    obtain rfl := Option.some.inj hsame
    -- the URL has the authority of the endpoint, so what is read off the one is read off the other
    have hread : ∀ a ∈ (parseUri endpoint).authority, ∀ h p, uriHostPort a = some (h, p) →
        h = checked.hostinfo.1 ∧ p = port' := by
      intro a ha h p hread
      rw [hendpoint] at ha
      obtain rfl := Option.some.inj ha
      rw [hhostPort] at hread hhostPort'
      cases hread
      cases hhostPort'
      exact ⟨rfl, rfl⟩
    have hinfo : host = checked.hostinfo.1 := by
      rw [hhostPort] at hhostPort'
      cases hhostPort'
      rfl
    refine ⟨?_, ?_, hpaths⟩
    · intro a ha h p hp
      rw [(hread a ha h p hp).1, ← plainHost_iff hchecks, ← hinfo]
      exact hhost
    · intro a ha h hzero
      rw [← (hread a ha h _ hzero).2] at hallowed'
      exact absurd (policy.portsValid 0 hallowed').1 (by decide)
  · rintro ⟨hplain, hnonzero, hpaths⟩
    have hsome : authority ∈ (parseUri endpoint).authority := by
      rw [hendpoint]
      rfl
    refine ⟨checked, checkedHost, scheme, authority, checked.hostinfo.1, port, hsplit, hnormalized,
      ?_, hlower, hhostPort, ?_, ?_⟩
    · rw [hurl, hendpoint, hpaths]
    · exact (plainHost_iff hchecks).2 (hplain authority hsome _ _ hhostPort)
    · apply hallowed
      rintro rfl
      exact hnonzero authority hsome _ hhostPort

/-! ### Only such endpoints are contacted as checked -/

omit [Unicode] in
/-- A slash in `scheme://authority` stands after the colon. -/
theorem colon_of_append {left right : Text} (hscheme : ∀ c ∈ scheme, Net.isSchemeStop c = false)
    (hauthority : ∀ c ∈ authority, isNetlocChar c = true)
    (hleft : left.rdropWhile (· = '/') = left)
    (h : scheme ++ ':' :: '/' :: '/' :: authority = left ++ '/' :: right) :
    left = scheme ++ [':'] := by
  have hslash : '/' ∉ scheme ++ [':'] := by
    intro hmem
    rcases List.mem_append.1 hmem with hmem | hmem
    · exact absurd (hscheme '/' hmem) (by decide)
    · exact absurd hmem (by decide)
  have hnot : '/' ∉ authority := fun hmem => absurd (hauthority '/' hmem) (by decide)
  have hsplit : (scheme ++ [':']) ++ ('/' :: '/' :: authority) = left ++ '/' :: right := by
    simpa using h
  rcases List.append_eq_append_iff.1 hsplit with ⟨mid, hmid, hrest⟩ | ⟨mid, hmid, hrest⟩
  · rcases List.cons_eq_append_iff.1 hrest with ⟨rfl, -⟩ | ⟨mid, rfl, hsecond⟩
    · rw [hmid, List.append_nil]
    rcases List.cons_eq_append_iff.1 hsecond with ⟨rfl, -⟩ | ⟨mid, rfl, hafter⟩
    · -- what is left would end in a slash
      have hlast := List.rdropWhile_eq_self_iff.1 hleft (by simp [hmid])
      simp [hmid] at hlast
    · rw [hafter] at hnot
      simp at hnot
  · rcases List.cons_eq_append_iff.1 hrest with ⟨rfl, -⟩ | ⟨mid, rfl, -⟩
    · rw [hmid, List.append_nil]
    · rw [hmid] at hslash
      simp at hslash

/-- An endpoint is more than a scheme and slashes. -/
theorem ne_scheme_slashes [Unicode.Lawful] {slashes : Text} (hcolon : ':' ∉ scheme)
    (hslashes : ∀ c ∈ slashes, c = '/') (hvalid : policy.validate endpoint = .ok ()) :
    endpoint ≠ scheme ++ ':' :: slashes := by
  rintro rfl
  obtain ⟨parsed, -, host, hsplit, hscheme, hhostname, -, -, -, -, hnormalized, -⟩ :=
    StaticUpstreamEndpointPolicy.validate_eq_ok.1 hvalid
  have hsome : parsed.scheme ≠ [] := by
    intro hnil
    rw [hnil] at hscheme
    exact absurd hscheme (by decide)
  have hnetloc := Net.netloc_of_slashes hcolon hslashes hsplit hsome
  obtain ⟨-, hinfo⟩ := hostname_eq hhostname (not_mem_of_normalizeHost hnormalized)
  obtain ⟨c, info, hcons⟩ := List.exists_cons_of_ne_nil hinfo
  have hmem : c ∈ parsed.netloc := by
    apply Net.SplitResult.mem_netloc
    rw [hcons]
    exact List.mem_cons_self
  rw [hnetloc] at hmem
  exact absurd hmem List.not_mem_nil

/-- The endpoint whose URL is contacted as it was checked starts with the scheme and the
    authority of the URL. -/
theorem startsVerbatim_of_contacted [Unicode.Lawful] (hvalid : policy.validate endpoint = .ok ())
    (hpath : path.head? = some '/') (h : ContactedAsChecked policy endpoint path) :
    StartsVerbatim endpoint := by
  obtain ⟨checked, checkedHost, scheme, authority, host, port, hsplit, hchecked, hurl, hlower,
    hhostPort, hhost, -⟩ := h
  obtain ⟨parsed, -, normalized, hsplit', hscheme, hhostname, -, -, -, -, hnormalized, -⟩ :=
    StaticUpstreamEndpointPolicy.validate_eq_ok.1 hvalid
  rw [hsplit] at hsplit'
  cases hsplit'
  obtain ⟨rest, heq, -, hstops, hnetloc, hrest, -⟩ := Net.parseUri_components hurl
  obtain ⟨slashes, hendpoint, hslashes⟩ :=
    Net.exists_stripped (fun c => decide (c = '/')) endpoint
  have hslashes' : ∀ c ∈ slashes, c = '/' := fun c hc => by simpa using hslashes c hc
  have hstable := List.rdropWhile_idempotent (fun c => decide (c = '/')) endpoint
  unfold upstreamUrl at heq
  -- the endpoint, without its trailing slashes, reaches at least to the end of the authority
  have hreach : ∃ mid, endpoint.rdropWhile (· = '/') =
      scheme ++ ':' :: '/' :: '/' :: (authority ++ mid) ∧ rest = mid ++ path := by
    rcases List.append_eq_append_iff.1
        (show endpoint.rdropWhile (· = '/') ++ path =
          (scheme ++ ':' :: '/' :: '/' :: authority) ++ rest by simpa using heq) with
      ⟨mid, hmid, hpathMid⟩ | ⟨mid, hmid, hrestMid⟩
    · cases mid with
      | nil =>
        refine ⟨[], ?_, hpathMid.symm⟩
        rw [List.append_nil, hmid, List.append_nil]
      | cons c mid =>
        have hc : c = '/' := by
          rw [hpathMid] at hpath
          simpa using hpath
        subst hc
        have hleft := colon_of_append hstops hnetloc hstable hmid
        refine absurd ?_ (ne_scheme_slashes (Net.not_mem_scheme hstops) hslashes' hvalid)
        rw [hendpoint, hleft]
        simp
    · exact ⟨mid, by simpa using hmid, hrestMid⟩
  obtain ⟨mid, hstripped, rfl⟩ := hreach
  refine ⟨scheme, authority, mid ++ slashes, ?_, ?_, ?_, ?_⟩
  · rw [hendpoint, hstripped]
    simp only [List.append_assoc, List.cons_append]
  · -- the scheme is `http` or `https`, up to the case of its letters
    intro c hc
    have hmem : c.toLower ∈ checked.scheme := by
      rw [← hlower]
      exact List.mem_map_of_mem hc
    apply Net.isSchemeChar_of_isAlpha
    apply Net.isAlpha_of_toLower
    have hletters : ∀ s ∈ ["http".toList, "https".toList], ∀ x ∈ s, Net.isAlpha x = true := by
      decide
    exact hletters _ hscheme _ hmem
  · -- a dropped character would be in the host, which has none
    intro c hc
    refine ⟨hnetloc c hc, ?_⟩
    by_contra hdropped
    rw [Bool.not_eq_false] at hdropped
    have hmem := Net.mem_host_of_isUnsafe hhostPort hc hdropped
    have hinfo := mem_hostinfo_of_isUnsafe hhostname hchecked hdropped
      (by rw [← hhost]; exact mem_map_toLower_of_isUnsafe hdropped hmem)
    have hsafe := Net.isUnsafe_of_mem_netloc hsplit (Net.SplitResult.mem_netloc hinfo)
    rw [hdropped] at hsafe
    cases hsafe
  · cases mid with
    | nil =>
      intro c hc
      have hslash := hslashes' c (List.mem_of_mem_head? hc)
      rw [hslash]
      decide
    | cons c mid => simpa using hrest

end Verbatim

/-! ## The contacted endpoint -/

/-- An accepted endpoint is the one contacted exactly when it starts verbatim, its host is plain,
    its port is not zero and the mapped path goes on where its path ends. -/
theorem contacted_as_checked_iff [Unicode] [Unicode.Lawful]
    (policy : StaticUpstreamEndpointPolicy) (endpoint path : Text)
    (hvalid : policy.validate endpoint = .ok ()) (hpath : path.head? = some '/') :
    ContactedAsChecked policy endpoint path ↔ StartsVerbatim endpoint ∧ HostPlain endpoint ∧
      PortNotZero endpoint ∧ PathContinues endpoint path := by
  constructor
  · intro h
    obtain ⟨scheme, authority, rest, hform⟩ := startsVerbatim_of_contacted hvalid hpath h
    exact ⟨⟨scheme, authority, rest, hform⟩, (contacted_iff_of_form hform hvalid hpath).1 h⟩
  · rintro ⟨⟨scheme, authority, rest, hform⟩, hcontinues⟩
    exact (contacted_iff_of_form hform hvalid hpath).2 hcontinues

section

attribute [local instance] asciiUnicode

theorem asciiUnicode_lawful : Unicode.Lawful where
  mem_lower c s _ hletter := by
    have hkept {x : Char} (hx : x.toLower = c) : x = c := by
      rw [← hx] at hletter
      rw [← Net.toLower_eq_self hletter, hx]
    have hc : c.toLower = c := by
      apply Net.toLower_eq_self
      cases hlower : Net.isAlpha c.toLower with
      | false => rfl
      | true => rw [Net.isAlpha_of_toLower hlower] at hletter; cases hletter
    change c ∈ s.map Char.toLower ↔ c ∈ s
    rw [List.mem_map]
    constructor
    · rintro ⟨x, hx, hlower⟩
      rwa [← hkept hlower]
    · intro hmem
      exact ⟨c, hmem, hc⟩
  lower_ascii _ _ := rfl
  idna_ascii s t _ h := by
    obtain ⟨-, hsame⟩ := Option.ite_none_right_eq_some.1 h
    exact (Option.some.inj hsame).symm
  ascii_of_idna s t h := by
    obtain ⟨hascii, hsame⟩ := Option.ite_none_right_eq_some.1 h
    obtain rfl := Option.some.inj hsame
    simpa using hascii
  mem_of_idna s t h := by
    obtain ⟨-, hsame⟩ := Option.ite_none_right_eq_some.1 h
    obtain rfl := Option.some.inj hsame
    intro c hc _
    exact hc

theorem contacted_as_checked_orders :
    ContactedAsChecked internalPolicy "https://Api.internal:443/v1/".toList
      "/orders".toList := by
  have := asciiUnicode_lawful
  apply (contacted_as_checked_iff internalPolicy _ _ rfl rfl).2
  have hread : ∀ authority ∈ (parseUri "https://Api.internal:443/v1/".toList).authority,
      ∀ host port, uriHostPort authority = some (host, port) →
        host = "Api.internal".toList ∧ port = some 443 := by
    intro authority hauthority host port hread
    obtain rfl : "Api.internal:443".toList = authority := Option.some.inj hauthority
    have hparts : uriHostPort "Api.internal:443".toList = some ("Api.internal".toList, some 443) :=
      rfl
    rw [hparts] at hread
    cases hread
    exact ⟨rfl, rfl⟩
  refine ⟨⟨"https".toList, "Api.internal:443".toList, "/v1/".toList, ?_⟩, ?_, ?_, ?_⟩
  · refine ⟨rfl, by decide, by decide, ?_⟩
    exact Net.stops_cons.2 (by decide)
  · intro authority hauthority host port hparts
    obtain ⟨rfl, -⟩ := hread authority hauthority host port hparts
    exact ⟨by decide, by decide, by decide⟩
  · intro authority hauthority host hzero
    cases (hread authority hauthority host _ hzero).2
  · unfold PathContinues
    decide

/-- The mapped path ends up in the query of the endpoint. -/
theorem endpoint_with_query_is_contacted_elsewhere :
    ¬ ∀ (policy : StaticUpstreamEndpointPolicy) (owner endpoint : String) (config : JsonObject)
      (serviceType : UpstreamServiceType) (path : Text),
      validateRegistration owner endpoint config serviceType = .ok () →
      policy.validate endpoint.toList = .ok () → path.head? = some '/' →
      ContactedAsChecked policy endpoint.toList path := by
  intro h
  obtain ⟨checked, checkedHost, scheme, authority, host, port, -, -, hurl, -⟩ := h internalPolicy
    "team" "https://api.internal/v1?tenant=a" [] .http "/orders".toList rfl rfl rfl
  have hpath : "/v1".toList = "/v1/orders".toList := congrArg Net.UriReference.path hurl
  exact absurd hpath (by decide)

end

end NexusMcp
