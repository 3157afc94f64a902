-- SUMMARY: The URL split of the standard library and the generic syntax of RFC 3986, on the same texts.
import NexusMcp.Net.IpAddress

/-!
# URLs

`urlsplit` forgives: it drops characters before it splits. RFC 3986 splits the text as
it is. Unicode tables are parameters.
-/

namespace Net

/-- The text operations that need Unicode tables. -/
class Unicode where
  /-- `str.lower`. -/
  lower : Text → Text
  /-- `unicodedata.normalize("NFKC", s)`. -/
  nfkc : Text → Text
  /-- `s.encode("idna")`. -/
  idna : Text → Option Text

/-! ## `urlsplit` -/

def isC0OrSpace (c : Char) : Bool := c.toNat ≤ 32

/-- `_UNSAFE_URL_BYTES_TO_REMOVE`. -/
def isUnsafe (c : Char) : Bool := c = '\t' ∨ c = '\r' ∨ c = '\n'

def isAlpha (c : Char) : Bool := ('a' ≤ c ∧ c ≤ 'z') ∨ ('A' ≤ c ∧ c ≤ 'Z')

def isSchemeChar (c : Char) : Bool := isAlpha c ∨ isDigit c ∨ c = '+' ∨ c = '-' ∨ c = '.'

/-- The text that `urlsplit` splits. -/
def cleaned (url : Text) : Text := (url.dropWhile isC0OrSpace).filter fun c => ! isUnsafe c

/-- The scheme, and the text after its colon. -/
def splitScheme (url : Text) : Text × Text :=
  match partition ':' url with
  | (c :: scheme, some rest) =>
    if isAlpha c ∧ (c :: scheme).all isSchemeChar then ((c :: scheme).map Char.toLower, rest)
    else ([], url)
  | _ => ([], url)

def isNetlocChar (c : Char) : Bool := c ≠ '/' ∧ c ≠ '?' ∧ c ≠ '#'

/-- The network location, and the text from its end. -/
def splitNetloc (url : Text) : Text × Text :=
  match url with
  | '/' :: '/' :: rest => (rest.takeWhile isNetlocChar, rest.dropWhile isNetlocChar)
  | _ => ([], url)

structure SplitResult where
  scheme : Text
  netloc : Text
  path : Text
  query : Text
  fragment : Text
deriving DecidableEq

namespace SplitResult

/-- The part of the network location after the user information. -/
def hostPart (self : SplitResult) : Text := afterLast '@' self.netloc

/-- `username is not None or password is not None`. -/
def hasCredentials (self : SplitResult) : Bool := '@' ∈ self.netloc

/-- `_hostinfo`. -/
def hostinfo (self : SplitResult) : Text × Text :=
  match partition '[' self.hostPart with
  | (_, some bracketed) =>
    let (hostname, afterBracket) := partition ']' bracketed
    (hostname, (partition ':' (afterBracket.getD [])).2.getD [])
  | (_, none) =>
    let (hostname, port) := partition ':' self.hostPart
    (hostname, port.getD [])

/-- `hostname`. A zone identifier keeps its case. -/
def hostname [Unicode] (self : SplitResult) : Option Text :=
  if self.hostinfo.1 = [] then none
  else
    match partition '%' self.hostinfo.1 with
    | (address, none) => some (Unicode.lower address)
    | (address, some zone) => some (Unicode.lower address ++ '%' :: zone)

/-- `port`. -/
def port (self : SplitResult) : Except String (Option Nat) :=
  if self.hostinfo.2 = [] then .ok none
  else if self.hostinfo.2.all isDigit then
    if numeral 10 self.hostinfo.2 ≤ 65535 then .ok (some (numeral 10 self.hostinfo.2))
    else .error "Port out of range 0-65535"
  else .error "Port could not be cast to integer value"

end SplitResult

/-- `_check_bracketed_host` accepts. -/
def bracketedHostOk (hostname : Text) : Bool :=
  match hostname with
  | 'v' :: rest =>
    match partition '.' rest with
    | (version, some address) => version ≠ [] ∧ version.all isHexDigit ∧ address ≠ []
    | _ => false
  | _ => ipAddress hostname matches some (.v6 _ _)

/-- `_check_bracketed_netloc` accepts. -/
def bracketedNetlocOk (netloc : Text) : Bool :=
  match partition '[' (afterLast '@' netloc) with
  | (before, some bracketed) =>
    let (hostname, afterBracket) := partition ']' bracketed
    before = [] ∧ (∀ c ∈ (afterBracket.getD []).head?, c = ':') ∧ bracketedHostOk hostname
  | (_, none) => bracketedHostOk (partition ':' (afterLast '@' netloc)).1

/-- `_checknetloc` accepts. -/
def checkNetloc [Unicode] (netloc : Text) : Bool :=
  netloc.all (·.toNat < 128) ∨
    let plain := netloc.filter fun c => c ∉ ['@', ':', '#', '?']
    plain = Unicode.nfkc plain ∨ ∀ c ∈ ['/', '?', '#', '@', ':'], c ∉ Unicode.nfkc plain

/-- `urlsplit`. -/
def urlsplit [Unicode] (url : Text) : Except String SplitResult :=
  let (scheme, rest) := splitScheme (cleaned url)
  let (netloc, rest) := splitNetloc rest
  if (('[' ∈ netloc) ≠ (']' ∈ netloc)) ∨ ('[' ∈ netloc ∧ ¬ bracketedNetlocOk netloc) then
    .error "Invalid IPv6 URL"
  else if ¬ checkNetloc netloc then
    .error "netloc contains invalid characters under NFKC normalization"
  else
    let (rest, fragment) := partition '#' rest
    let (path, query) := partition '?' rest
    .ok {
      scheme := scheme
      netloc := netloc
      path := path
      query := query.getD []
      fragment := fragment.getD [] }

/-! ## RFC 3986 -/

/-- The components of a URI reference, as appendix B splits them. -/
structure UriReference where
  scheme : Option Text
  authority : Option Text
  path : Text
deriving DecidableEq

def isSchemeStop (c : Char) : Bool := c = ':' ∨ c = '/' ∨ c = '?' ∨ c = '#'

def isPathChar (c : Char) : Bool := c ≠ '?' ∧ c ≠ '#'

/-- The scheme, and the text after its colon. -/
def uriScheme (uri : Text) : Option Text × Text :=
  match uri.takeWhile (fun c => ! isSchemeStop c), uri.dropWhile (fun c => ! isSchemeStop c) with
  | c :: scheme, ':' :: rest => (some (c :: scheme), rest)
  | _, _ => (none, uri)

/-- The authority, and the text from its end. -/
def uriAuthority (rest : Text) : Option Text × Text :=
  match rest with
  | '/' :: '/' :: rest => (some (rest.takeWhile isNetlocChar), rest.dropWhile isNetlocChar)
  | _ => (none, rest)

def parseUri (uri : Text) : UriReference where
  scheme := (uriScheme uri).1
  authority := (uriAuthority (uriScheme uri).2).1
  path := (uriAuthority (uriScheme uri).2).2.takeWhile isPathChar

/-- The port, which may be empty: `[ ":" port ]`. -/
def uriPort (s : Text) : Option (Option Nat) :=
  match s with
  | [] => some none
  | ':' :: digits =>
    if digits.all isDigit then some (if digits = [] then none else some (numeral 10 digits))
    else none
  | _ => none

/-- The host and the port of an authority without user information. The brackets of an IP
    literal are not part of the host. -/
def uriHostPort (authority : Text) : Option (Text × Option Nat) :=
  match authority with
  | '[' :: literal =>
    match partition ']' literal with
    | (host, some rest) => (uriPort rest).map (host, ·)
    | (_, none) => none
  | _ => (uriPort (authority.dropWhile (· ≠ ':'))).map (authority.takeWhile (· ≠ ':'), ·)

/-- `remove_dot_segments` on the segments of an absolute path, section 5.2.4. -/
def removeDots : List Text → List Text → List Text
  | out, [] => out
  | out, [segment] =>
    if segment = ['.'] then out ++ [[]]
    else if segment = ['.', '.'] then out.dropLast ++ [[]]
    else out ++ [segment]
  | out, segment :: rest =>
    if segment = ['.'] then removeDots out rest
    else if segment = ['.', '.'] then removeDots out.dropLast rest
    else removeDots (out ++ [segment]) rest

end Net
