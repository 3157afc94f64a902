-- SUMMARY: Where the two readings of a URL agree: a text that starts with a scheme and an authority.
import NexusMcp.Net.Url
import Mathlib.Data.List.Infix

/-!
# Two Readings of a URL

A text that starts with a scheme and an authority, none of whose characters is dropped,
has the same scheme, host and port in both readings.
-/

namespace Net

/-- The Unicode tables lower no letter to an ASCII character that is no letter and keep such a
    character, and work on ASCII texts as such. The IDNA codec leaves an ASCII text, writes only
    ASCII characters and no control character of its own. -/
class Unicode.Lawful [Unicode] : Prop where
  mem_lower : ∀ (c : Char) (s : Text), c.toNat < 128 → isAlpha c = false →
    (c ∈ Unicode.lower s ↔ c ∈ s)
  lower_ascii : ∀ s : Text, (∀ c ∈ s, c.toNat < 128) → Unicode.lower s = s.map Char.toLower
  idna_ascii : ∀ s t : Text, (∀ c ∈ s, c.toNat < 128) → Unicode.idna s = some t → t = s
  ascii_of_idna : ∀ s t : Text, Unicode.idna s = some t → ∀ c ∈ t, c.toNat < 128
  mem_of_idna : ∀ s t : Text, Unicode.idna s = some t → ∀ c ∈ t, c.toNat < 32 → c ∈ s

/-! ## Characters -/

/-- What holds of the ASCII characters is checked one by one. -/
theorem forall_ascii {P : Char → Prop} (h : ∀ n < 128, P (Char.ofNat n)) (c : Char)
    (hc : c.toNat < 128) : P c := by
  have hp := h c.toNat hc
  rwa [Char.ofNat_toNat] at hp

theorem isAlpha_of_toLower {c : Char} (h : isAlpha c.toLower = true) : isAlpha c = true := by
  unfold Char.toLower at h
  split at h
  · next hupper =>
    simp only [isAlpha, decide_eq_true_eq]
    exact .inr hupper
  · exact h

/-- A character that is lowered to no letter is kept. -/
theorem toLower_eq_self {c : Char} (h : isAlpha c.toLower = false) : c.toLower = c := by
  by_cases hascii : c.toNat < 128
  · have hall : ∀ n < 128, isAlpha (Char.ofNat n).toLower = false →
        (Char.ofNat n).toLower = Char.ofNat n := by decide
    exact forall_ascii (P := fun c => isAlpha c.toLower = false → c.toLower = c) hall c hascii h
  · unfold Char.toLower
    split
    · next hupper =>
      have hle : c.toNat ≤ 90 := hupper.2
      omega
    · rfl

theorem isSchemeChar_of_isAlpha {c : Char} (h : isAlpha c = true) : isSchemeChar c = true := by
  simp [isSchemeChar, h]

theorem lt_of_isSchemeChar {c : Char} (h : isSchemeChar c = true) : c.toNat < 128 := by
  simp only [isSchemeChar, isAlpha, isDigit, decide_eq_true_eq] at h
  have hle {a b : Char} (hab : a ≤ b) : a.toNat ≤ b.toNat := hab
  rcases h with (⟨-, h⟩ | ⟨-, h⟩) | ⟨-, h⟩ | rfl | rfl | rfl
  · exact (hle h).trans_lt (by decide)
  · exact (hle h).trans_lt (by decide)
  · exact (hle h).trans_lt (by decide)
  · decide
  · decide
  · decide

/-- A scheme character is kept by `urlsplit`, and it does not end a scheme. -/
theorem isSchemeChar_imp {c : Char} (h : isSchemeChar c = true) :
    isC0OrSpace c = false ∧ isUnsafe c = false ∧ isSchemeStop c = false := by
  have hall : ∀ n < 128, isSchemeChar (Char.ofNat n) = true → isC0OrSpace (Char.ofNat n) = false ∧
      isUnsafe (Char.ofNat n) = false ∧ isSchemeStop (Char.ofNat n) = false := by decide
  exact forall_ascii (P := fun c => isSchemeChar c = true → isC0OrSpace c = false ∧
    isUnsafe c = false ∧ isSchemeStop c = false) hall c (lt_of_isSchemeChar h) h

theorem isUnsafe_iff {c : Char} : isUnsafe c = true ↔ c = '\t' ∨ c = '\r' ∨ c = '\n' := by
  simp [isUnsafe]

theorem isNetlocChar_iff {c : Char} : isNetlocChar c = true ↔ c ≠ '/' ∧ c ≠ '?' ∧ c ≠ '#' := by
  simp [isNetlocChar]

theorem isPathChar_iff {c : Char} : isPathChar c = true ↔ c ≠ '?' ∧ c ≠ '#' := by
  simp [isPathChar]

/-- A text none of whose characters is unsafe is not changed by dropping those. -/
theorem filter_safe {s : Text} (h : ∀ c ∈ s, isUnsafe c = false) :
    s.filter (fun c => ! isUnsafe c) = s := by
  apply List.filter_eq_self.2
  intro c hc
  rw [h c hc]
  rfl

/-! ## The form -/

/-- The text is `scheme://authority` and a rest, and `urlsplit` drops no character before
    the rest. -/
structure UrlForm (url scheme authority rest : Text) : Prop where
  eq : url = scheme ++ ':' :: '/' :: '/' :: (authority ++ rest)
  scheme : ∀ c ∈ scheme, isSchemeChar c = true
  authority : ∀ c ∈ authority, isNetlocChar c = true ∧ isUnsafe c = false
  rest : Stops isNetlocChar rest

variable {url s a rest : Text}

theorem not_mem_scheme (hs : ∀ c ∈ s, isSchemeStop c = false) : ':' ∉ s := by
  intro hc
  exact absurd (hs ':' hc) (by decide)

/-- RFC 3986 reads the components as they stand. -/
theorem parseUri_of_stops (hnonempty : s ≠ []) (hs : ∀ c ∈ s, isSchemeStop c = false)
    (ha : ∀ c ∈ a, isNetlocChar c = true) (hrest : Stops isNetlocChar rest) :
    parseUri (s ++ ':' :: '/' :: '/' :: (a ++ rest)) =
      ⟨some s, some a, rest.takeWhile isPathChar⟩ := by
  have hs' : ∀ c ∈ s, (fun c => ! isSchemeStop c) c = true := by
    intro c hc
    simp [hs c hc]
  have hstops : Stops (fun c => ! isSchemeStop c) (':' :: '/' :: '/' :: (a ++ rest)) := by
    simp [isSchemeStop]
  have hscheme : uriScheme (s ++ ':' :: '/' :: '/' :: (a ++ rest)) =
      (some s, '/' :: '/' :: (a ++ rest)) := by
    unfold uriScheme
    rw [takeWhile_append_stops hs' hstops, dropWhile_append_stops hs' hstops]
    cases s with
    | nil => exact absurd rfl hnonempty
    | cons c s => rfl
  have hauthority : uriAuthority ('/' :: '/' :: (a ++ rest)) = (some a, rest) := by
    simp only [uriAuthority, takeWhile_append_stops ha hrest, dropWhile_append_stops ha hrest]
  simp only [parseUri, hscheme, hauthority]

theorem uriScheme_eq_some (h : uriScheme url = (some s, rest)) :
    url = s ++ ':' :: rest ∧ s ≠ [] ∧ ∀ c ∈ s, isSchemeStop c = false := by
  unfold uriScheme at h
  split at h
  · next c scheme tail htake hdrop =>
    cases h
    refine ⟨?_, List.cons_ne_nil _ _, ?_⟩
    · rw [← htake, ← hdrop, List.takeWhile_append_dropWhile]
    · intro x hx
      rw [← htake] at hx
      simpa using List.mem_takeWhile_imp hx
  · cases h

theorem uriAuthority_eq_some {t : Text} (h : uriAuthority t = (some a, rest)) :
    t = '/' :: '/' :: (a ++ rest) ∧ (∀ c ∈ a, isNetlocChar c = true) ∧
      Stops isNetlocChar rest := by
  unfold uriAuthority at h
  split at h
  · next tail =>
    obtain ⟨before, after, rfl, hbefore, hafter⟩ := exists_run isNetlocChar tail
    rw [takeWhile_append_stops hbefore hafter, dropWhile_append_stops hbefore hafter] at h
    cases h
    exact ⟨rfl, hbefore, hafter⟩
  · cases h

/-- A URI with a scheme and an authority has these components. -/
theorem parseUri_components {path : Text} (h : parseUri url = ⟨some s, some a, path⟩) :
    ∃ rest, url = s ++ ':' :: '/' :: '/' :: (a ++ rest) ∧ s ≠ [] ∧
      (∀ c ∈ s, isSchemeStop c = false) ∧ (∀ c ∈ a, isNetlocChar c = true) ∧
      Stops isNetlocChar rest ∧ path = rest.takeWhile isPathChar := by
  simp only [parseUri, UriReference.mk.injEq] at h
  obtain ⟨hscheme, hauthority, hpath⟩ := h
  obtain ⟨hurl, hnonempty, hstops⟩ := uriScheme_eq_some (Prod.ext hscheme rfl :
    uriScheme url = (some s, (uriScheme url).2))
  obtain ⟨htail, hnetloc, hrest⟩ := uriAuthority_eq_some (Prod.ext hauthority rfl :
    uriAuthority (uriScheme url).2 = (some a, (uriAuthority (uriScheme url).2).2))
  refine ⟨_, ?_, hnonempty, hstops, hnetloc, hrest, hpath.symm⟩
  rw [← htail]
  exact hurl

/-! ## What `urlsplit` returns -/

/-- The scheme and the network location of a split, and the checks on its brackets. -/
theorem urlsplit_eq_ok [Unicode] {r : SplitResult} (h : urlsplit url = .ok r) :
    r.scheme = (splitScheme (cleaned url)).1 ∧
      r.netloc = (splitNetloc (splitScheme (cleaned url)).2).1 ∧
      ('[' ∈ r.netloc ↔ ']' ∈ r.netloc) ∧
      ('[' ∈ r.netloc → bracketedNetlocOk r.netloc = true) := by
  unfold urlsplit at h
  dsimp only at h
  split at h
  · cases h
  · next hbrackets =>
    split at h
    · cases h
    · cases h
      rw [not_or, Ne, not_not, not_and, not_not] at hbrackets
      exact ⟨rfl, rfl, iff_of_eq hbrackets.1, hbrackets.2⟩

theorem splitScheme_eq (hs : ':' ∉ s) (h : (splitScheme (s ++ ':' :: rest)).1 ≠ []) :
    s ≠ [] ∧ (∀ c ∈ s, isSchemeChar c = true) ∧
      splitScheme (s ++ ':' :: rest) = (s.map Char.toLower, rest) := by
  unfold splitScheme at h ⊢
  rw [partition_append hs] at h ⊢
  match s with
  | [] => exact absurd rfl h
  | c :: s =>
    dsimp only at h ⊢
    split at h
    · next hvalid =>
      rw [if_pos hvalid]
      exact ⟨List.cons_ne_nil _ _, List.all_eq_true.1 hvalid.2, rfl⟩
    · exact absurd rfl h

theorem splitNetloc_eq (ha : ∀ c ∈ a, isNetlocChar c = true) (hrest : Stops isNetlocChar rest) :
    splitNetloc ('/' :: '/' :: (a ++ rest)) = (a, rest) := by
  simp only [splitNetloc, takeWhile_append_stops ha hrest, dropWhile_append_stops ha hrest]

theorem splitNetloc_slashes (h : ∀ c ∈ s, c = '/') : (splitNetloc s).1 = [] := by
  unfold splitNetloc
  split
  · next tail =>
    rw [List.takeWhile_eq_nil_iff]
    intro hlength
    rw [h _ (List.mem_cons_of_mem _ (List.mem_cons_of_mem _ (List.get_mem _ _)))]
    decide
  · rfl

/-- A text of a scheme and slashes has no network location. -/
theorem netloc_of_slashes [Unicode] {r : SplitResult} (hs : ':' ∉ s) (hrest : ∀ c ∈ rest, c = '/')
    (hsplit : urlsplit (s ++ ':' :: rest) = .ok r) (hscheme : r.scheme ≠ []) : r.netloc = [] := by
  obtain ⟨hrscheme, hrnetloc, -, -⟩ := urlsplit_eq_ok hsplit
  have hcleaned : ∃ s', ':' ∉ s' ∧ cleaned (s ++ ':' :: rest) =
      s' ++ ':' :: rest.filter fun c => ! isUnsafe c := by
    refine ⟨(s.dropWhile isC0OrSpace).filter fun c => ! isUnsafe c, ?_, ?_⟩
    · intro hmem
      exact hs ((List.dropWhile_suffix _).subset (List.mem_of_mem_filter hmem))
    · have hcolon : isC0OrSpace ':' = false ∧ isUnsafe ':' = false := by decide
      unfold cleaned
      rw [List.dropWhile_append]
      split
      · next hempty =>
        rw [List.isEmpty_iff.1 hempty, List.dropWhile_cons_of_neg (by simp [hcolon])]
        simp [hcolon]
      · simp [hcolon]
  obtain ⟨s', hs', hcleaned⟩ := hcleaned
  rw [hcleaned] at hrscheme hrnetloc
  rw [hrscheme] at hscheme
  obtain ⟨-, -, heq⟩ := splitScheme_eq hs' hscheme
  rw [hrnetloc, heq]
  apply splitNetloc_slashes
  intro c hc
  exact hrest c (List.mem_of_mem_filter hc)

/-- A network location has none of the characters that are dropped. -/
theorem isUnsafe_of_mem_netloc [Unicode] {r : SplitResult} (h : urlsplit url = .ok r) {c : Char}
    (hc : c ∈ r.netloc) : isUnsafe c = false := by
  rw [(urlsplit_eq_ok h).2.1] at hc
  have hnetloc : c ∈ (splitScheme (cleaned url)).2 := by
    unfold splitNetloc at hc
    split at hc
    · next hrest =>
      rw [hrest]
      exact List.mem_cons_of_mem _ (List.mem_cons_of_mem _ ((List.takeWhile_prefix _).subset hc))
    · cases hc
  have hcleaned : c ∈ cleaned url := by
    unfold splitScheme at hnetloc
    split at hnetloc
    · next scheme tail hpartition =>
      split_ifs at hnetloc
      · rw [(partition_eq_some.1 hpartition).2]
        exact List.mem_append_right _ (List.mem_cons_of_mem _ hnetloc)
      · exact hnetloc
    · exact hnetloc
  simpa using (List.mem_filter.1 hcleaned).2

/-! ## The form is what `urlsplit` splits -/

namespace UrlForm

theorem parseUri (h : UrlForm url s a rest) (hnonempty : s ≠ []) :
    Net.parseUri url = ⟨some s, some a, rest.takeWhile isPathChar⟩ := by
  rw [h.eq]
  apply parseUri_of_stops hnonempty _ _ h.rest
  · intro c hc
    exact (isSchemeChar_imp (h.scheme c hc)).2.2
  · intro c hc
    exact (h.authority c hc).1

/-- Only the rest loses characters. -/
theorem cleaned (h : UrlForm url s a rest) :
    Net.cleaned url = s ++ ':' :: '/' :: '/' :: (a ++ rest.filter fun c => ! isUnsafe c) := by
  have hstart : Stops isC0OrSpace url := by
    rw [h.eq]
    cases s with
    | nil => simp [isC0OrSpace]
    | cons c s =>
      rw [List.cons_append, stops_cons]
      exact (isSchemeChar_imp (h.scheme c List.mem_cons_self)).1
  have hdrop : url.dropWhile isC0OrSpace = url :=
    dropWhile_append_stops (s := []) (fun c hc => absurd hc List.not_mem_nil) hstart
  have hscheme := filter_safe fun c hc => (isSchemeChar_imp (h.scheme c hc)).2.1
  have hauthority := filter_safe fun c hc => (h.authority c hc).2
  have hpunctuation : isUnsafe ':' = false ∧ isUnsafe '/' = false := by decide
  unfold Net.cleaned
  rw [hdrop, h.eq]
  simp only [List.filter_append, List.filter_cons, hscheme, hauthority, hpunctuation,
    Bool.not_false, if_true]

/-- The scheme and the authority of the form are the scheme, in lower case, and the network
    location of an accepted split. -/
theorem urlsplit [Unicode] (h : UrlForm url s a rest) {r : SplitResult}
    (hsplit : Net.urlsplit url = .ok r) (hscheme : r.scheme ≠ []) :
    s ≠ [] ∧ r.scheme = s.map Char.toLower ∧ r.netloc = a := by
  obtain ⟨hrscheme, hrnetloc, -, -⟩ := urlsplit_eq_ok hsplit
  have hstops : Stops isNetlocChar (rest.filter fun c => ! isUnsafe c) := by
    cases rest with
    | nil => simp
    | cons c rest =>
      -- what ends the authority is not dropped
      have hc := stops_cons.1 h.rest
      have hsafe : isUnsafe c = false := by
        by_contra hdropped
        rw [Bool.not_eq_false, isUnsafe_iff] at hdropped
        rcases hdropped with rfl | rfl | rfl <;> exact absurd hc (by decide)
      rw [List.filter_cons_of_pos (by simp [hsafe]), stops_cons]
      exact hc
  have hcolon := not_mem_scheme fun c hc => (isSchemeChar_imp (h.scheme c hc)).2.2
  rw [h.cleaned] at hrscheme hrnetloc
  rw [hrscheme] at hscheme
  obtain ⟨hnonempty, -, heq⟩ := splitScheme_eq hcolon hscheme
  rw [heq] at hrscheme hrnetloc
  rw [splitNetloc_eq (fun c hc => (h.authority c hc).1) hstops] at hrnetloc
  exact ⟨hnonempty, hrscheme, hrnetloc⟩

end UrlForm

/-! ## The host and the port -/

namespace SplitResult

variable {r : SplitResult}

theorem port_eq_ok {port : Option Nat} (h : r.port = .ok port) :
    uriPort (':' :: r.hostinfo.2) = some port ∧ (r.hostinfo.2 = [] → port = none) := by
  unfold SplitResult.port at h
  split_ifs at h with hnil hdigits
  · cases h
    exact ⟨by rw [hnil]; rfl, fun _ => rfl⟩
  · cases h
    refine ⟨?_, fun hempty => absurd hempty hnil⟩
    simp only [uriPort, if_pos hdigits, if_neg hnil]

/-- The host and the port of a network location without user information are the same in both
    readings. -/
theorem uriHostPort_netloc {port : Option Nat} (hat : '@' ∉ r.netloc)
    (hclosed : '[' ∈ r.netloc ↔ ']' ∈ r.netloc)
    (hbrackets : '[' ∈ r.netloc → bracketedNetlocOk r.netloc = true)
    (hport : r.port = .ok port) : uriHostPort r.netloc = some (r.hostinfo.1, port) := by
  obtain ⟨hdigits, hempty⟩ := port_eq_ok hport
  have hhost : r.hostPart = r.netloc := afterLast_of_not_mem hat
  by_cases hopen : '[' ∈ r.netloc
  · -- the host stands between brackets, which start the network location
    obtain ⟨before, bracketed, hbefore, hnetloc⟩ :=
      (partition_cases '[' r.netloc).resolve_left (not_not_intro hopen)
    have hok := hbrackets hopen
    rw [bracketedNetlocOk, afterLast_of_not_mem hat, hnetloc, partition_append hbefore] at hok
    simp only [decide_eq_true_eq] at hok
    obtain ⟨rfl, hcolon, -⟩ := hok
    rw [List.nil_append] at hnetloc
    have hclose : ']' ∈ bracketed := by
      have hmem := hclosed.1 hopen
      rw [hnetloc, List.mem_cons] at hmem
      exact hmem.resolve_left (by decide)
    obtain ⟨host, after, hhostname, rfl⟩ :=
      (partition_cases ']' bracketed).resolve_left (not_not_intro hclose)
    rw [partition_append hhostname] at hcolon
    have hinfo : r.hostinfo = (host, (partition ':' after).2.getD []) := by
      have hfirst : partition '[' ('[' :: (host ++ ']' :: after)) =
          ([], some (host ++ ']' :: after)) := partition_append (s := []) hbefore
      rw [hostinfo, hhost, hnetloc, hfirst]
      simp only [partition_append hhostname, Option.getD_some]
    rw [hinfo] at hdigits hempty ⊢
    rw [hnetloc]
    simp only [uriHostPort, partition_append hhostname]
    cases after with
    | nil =>
      rw [hempty rfl]
      rfl
    | cons c digits =>
      obtain rfl : c = ':' := hcolon c rfl
      have hport' : partition ':' (':' :: digits) = ([], some digits) :=
        partition_append (s := []) (by simp)
      rw [hport'] at hdigits
      rw [Option.getD_some] at hdigits
      rw [hdigits]
      rfl
  · -- the host ends at the first colon
    have hinfo : r.hostinfo =
        ((partition ':' r.netloc).1, (partition ':' r.netloc).2.getD []) := by
      rw [hostinfo, hhost, partition_of_not_mem hopen]
    have hauthority : uriHostPort r.netloc = (uriPort (r.netloc.dropWhile (· ≠ ':'))).map
        (r.netloc.takeWhile (· ≠ ':'), ·) := by
      unfold uriHostPort
      split
      · next literal hnetloc =>
        rw [hnetloc] at hopen
        exact absurd List.mem_cons_self hopen
      · rfl
    rw [hauthority]
    rw [hinfo] at hdigits hempty ⊢
    rcases partition_cases ':' r.netloc with hnot | ⟨host, digits, hnot, hnetloc⟩
    · rw [partition_of_not_mem hnot] at hempty ⊢
      rw [List.takeWhile_eq_self_iff.2 (forall_ne hnot),
        List.dropWhile_eq_nil_iff.2 (forall_ne hnot), hempty rfl]
      rfl
    · have hstops : Stops (fun c => decide (c ≠ ':')) (':' :: digits) := by simp
      rw [hnetloc, partition_append hnot] at hdigits ⊢
      rw [takeWhile_append_stops (forall_ne hnot) hstops,
        dropWhile_append_stops (forall_ne hnot) hstops]
      rw [Option.getD_some] at hdigits
      rw [hdigits]
      rfl

end SplitResult

/-- The host name is a part of the network location. -/
theorem SplitResult.mem_netloc {r : SplitResult} {c : Char} (h : c ∈ r.hostinfo.1) :
    c ∈ r.netloc := by
  have hpart : c ∈ r.hostPart := by
    unfold hostinfo at h
    split at h
    · next before bracketed hopen =>
      rw [(partition_eq_some.1 hopen).2]
      have hmem : c ∈ bracketed := (List.takeWhile_prefix _).subset h
      exact List.mem_append_right _ (List.mem_cons_of_mem _ hmem)
    · exact (List.takeWhile_prefix _).subset h
  exact (List.rtakeWhile_suffix _ _).subset hpart

theorem isUnsafe_of_uriPort {t : Text} {port : Option Nat} (h : uriPort t = some port) {c : Char}
    (hc : c ∈ t) : isUnsafe c = false := by
  unfold uriPort at h
  split at h
  · cases hc
  · next digits =>
    by_cases hdigits : digits.all isDigit = true
    · rcases List.mem_cons.1 hc with rfl | hc
      · decide
      · have hdigit := List.all_eq_true.1 hdigits c hc
        exact (isSchemeChar_imp (by simp [isSchemeChar, hdigit])).2.1
    · rw [if_neg hdigits] at h
      cases h
  · cases h

/-- An unsafe character of an authority is in its host. -/
theorem mem_host_of_isUnsafe {host : Text} {port : Option Nat}
    (h : uriHostPort a = some (host, port)) {c : Char} (hc : c ∈ a) (hdropped : isUnsafe c = true) :
    c ∈ host := by
  have hport {t : Text} (ht : uriPort t = some port) : c ∉ t := by
    intro hmem
    rw [isUnsafe_of_uriPort ht hmem] at hdropped
    cases hdropped
  unfold uriHostPort at h
  split at h
  · next literal =>
    cases hliteral : partition ']' literal with
    | mk first after =>
      cases after with
      | none =>
        rw [hliteral] at h
        cases h
      | some rest =>
        rw [hliteral] at h
        obtain ⟨p, hp, heq⟩ := Option.map_eq_some_iff.1 h
        cases heq
        rw [(partition_eq_some.1 hliteral).2] at hc
        have hbracket : c ≠ '[' ∧ c ≠ ']' := by
          constructor <;> rintro rfl <;> exact absurd hdropped (by decide)
        simp only [List.mem_cons, List.mem_append, hbracket.1, hbracket.2, false_or] at hc
        exact hc.resolve_right (hport hp)
  · obtain ⟨p, hp, heq⟩ := Option.map_eq_some_iff.1 h
    cases heq
    rw [← List.takeWhile_append_dropWhile (p := fun x => decide (x ≠ ':')) (l := a)] at hc
    exact (List.mem_append.1 hc).resolve_right (hport hp)

end Net
