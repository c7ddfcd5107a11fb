import Mathlib.Data.List.DropRight
import Sana.Discovery.CanonicalUrl

/-!
# What a canonical URL keeps

The canonical form is put together of clean parts, so it is split into them again, up to blanks at
the end of a path that nothing follows. An IP literal has lost its brackets by then, and the port 0
is gone; names and values of the query are what they were if their bytes are UTF-8. Where none of
this applies the canonical form is its own canonical form and names the same resource.
-/

namespace Sana.Discovery

open Sana.Lib Lib.Url

/-- How the tables behave. -/
structure UrlText.Lawful (t : UrlText) : Prop where
  decode : ∀ cs, t.decode (Percent.utf8 cs) = cs
  lower_lower : ∀ cs, t.lower (t.lower cs) = t.lower cs
  lower_ascii : ∀ cs : List Char, (∀ c ∈ cs, c.toNat < 128) → t.lower cs = cs.map Char.toLower
  /-- No letter is lowered together with a `%`. -/
  lower_percent : ∀ a z, t.lower (a ++ '%' :: z) = t.lower a ++ '%' :: t.lower z
  /-- Of ASCII, only letters come out of lowering. -/
  lower_mem : ∀ cs, ∀ c ∈ t.lower cs, c ∈ cs ∨ c.isAlpha = true ∨ 128 ≤ c.toNat
  lower_ne_nil : ∀ cs, cs ≠ [] → t.lower cs ≠ []
  /-- The check looks for characters that are normalised to delimiters; lowering makes none. -/
  netloc_lower : ∀ host p q : List Char,
    (∀ c ∈ host, isDelimiter c = false ∧ c ≠ '@' ∧ c ≠ ':') →
    (∀ c ∈ p ++ q, c = ':' ∨ c.isDigit = true) →
    t.checks.netloc (host ++ p) = true → t.checks.netloc (t.lower host ++ q) = true

variable {t : UrlText} {url : List Char} {parsed : SplitResult}

namespace UrlText.Lawful

variable (ht : t.Lawful)
include ht

/-! ## Hosts -/

/-- Lowering a host in two pieces and then as a whole is lowering it. -/
theorem lower_hostname (host : List Char) :
    t.lower (t.lower (before '%' host) ++ host.dropWhile (· ≠ '%')) = t.lower host := by
  by_cases hmem : '%' ∈ host
  · obtain ⟨a, z, rfl, ha⟩ := List.eq_append_cons_of_mem hmem
    rw [before_append ha, dropWhile_stop (stops ha) (decide_eq_false (not_not_intro rfl)),
      ht.lower_percent, ht.lower_percent, ht.lower_lower]
  · have hall : host.dropWhile (· ≠ '%') = [] := List.dropWhile_eq_nil_iff.mpr (stops hmem)
    rw [before_of_notMem hmem, hall, List.append_nil, ht.lower_lower]

/-- A character that is no letter is not made by lowering. -/
theorem notMem_lower {c : Char} {cs : List Char} (h : c ∉ cs) (halpha : c.isAlpha = false)
    (hascii : c.toNat < 128) : c ∉ t.lower cs := fun hc =>
  (ht.lower_mem cs c hc).elim h fun hc => hc.elim (fun hc => by rw [hc] at halpha; cases halpha)
    fun hc => absurd hascii (Nat.not_lt.mpr hc)

end UrlText.Lawful

/-! ## Parts of the canonical form -/

/-- The parts the canonical form is put together of. -/
def canonicalParts (t : UrlText) (parsed : SplitResult) (hostname : List Char)
    (port : Option Nat) : SplitResult where
  scheme := t.lower parsed.scheme
  netloc := t.canonicalNetloc (t.lower parsed.scheme) hostname port
  path := if parsed.path = [] then ['/'] else parsed.path
  query := urlencode (t.keptPairs parsed.query)
  fragment := []

/-- What has to hold of a URL to be accepted. -/
structure Accepted (t : UrlText) (parsed : SplitResult) (hostname : List Char)
    (port : Option Nat) : Prop where
  hostname : parsed.hostname t.lower = some hostname
  scheme : t.lower parsed.scheme = "http".toList ∨ t.lower parsed.scheme = "https".toList
  user : '@' ∉ parsed.netloc
  port : parsed.port = some port

theorem user_iff : (parsed.username ≠ none ∨ parsed.password ≠ none) ↔ '@' ∈ parsed.netloc := by
  rw [SplitResult.username, SplitResult.password]
  by_cases h : '@' ∈ parsed.netloc
  · simp [h]
  · simp [h]

theorem canonical_iff {c : List Char} : t.canonical parsed = some c ↔
    ∃ hostname port, Accepted t parsed hostname port ∧
      c = urlunsplit (canonicalParts t parsed hostname port) := by
  constructor
  · intro h
    obtain ⟨hostname, hhostname, h⟩ := Option.bind_eq_some_iff.mp h
    split at h
    · exact nomatch h
    case isFalse hscheme =>
      split at h
      · exact nomatch h
      case isFalse huser =>
        obtain ⟨port, hport, rfl⟩ := Option.map_eq_some_iff.mp h
        refine ⟨hostname, port, ⟨hhostname, ?_, mt user_iff.mpr huser, hport⟩, rfl⟩
        simpa only [List.mem_cons, List.not_mem_nil, or_false, not_not] using hscheme
  · rintro ⟨hostname, port, h, rfl⟩
    have hscheme : ¬ t.lower parsed.scheme ∉ ["http".toList, "https".toList] := by
      simpa only [List.mem_cons, List.not_mem_nil, or_false, not_not] using h.scheme
    rw [UrlText.canonical, h.hostname, h.port]
    simp only [Option.bind_some, if_neg hscheme, if_neg (mt user_iff.mp h.user), Option.map_some]
    rfl

/-! ## Canonical parts are clean -/

section Clean

variable {hostname : List Char} {port : Option Nat}

/-- The scheme is `http` or `https` as it stands. -/
theorem lower_scheme (ht : t.Lawful) (hfound : parsed.Found t.checks) :
    t.lower parsed.scheme = parsed.scheme := by
  rw [ht.lower_ascii _ hfound.scheme.1, hfound.scheme.2]

/-- What a host is made of. -/
theorem mem_hostname (ht : t.Lawful) (h : parsed.hostname t.lower = some hostname) {c : Char}
    (hc : c ∈ t.lower hostname) (halpha : c.isAlpha = false) (hascii : c.toNat < 128) :
    c ∈ parsed.hostinfo.1 := by
  rw [SplitResult.hostname] at h
  split at h
  · exact nomatch h
  · obtain rfl := Option.some.inj h
    rw [ht.lower_hostname] at hc
    by_contra hnot
    exact ht.notMem_lower hnot halpha hascii hc

theorem mem_hostinfo {c : Char} (hc : c ∈ parsed.hostinfo.1) : c ∈ parsed.netloc := by
  have hpart : c ∈ parsed.hostPort := by
    rw [SplitResult.hostinfo] at hc
    split at hc
    · exact mem_of_mem_after (mem_of_mem_before hc)
    · exact mem_of_mem_before hc
  rw [SplitResult.hostPort, afterLast, List.mem_reverse] at hpart
  exact List.mem_reverse.mp ((List.takeWhile_sublist _).subset hpart)

theorem mem_canonicalNetloc {scheme : List Char} {c : Char}
    (hc : c ∈ t.canonicalNetloc scheme hostname port) :
    c ∈ t.lower hostname ∨ c = ':' ∨ c.isDigit = true := by
  rw [UrlText.canonicalNetloc] at hc
  split at hc
  · refine (List.mem_append.mp hc).imp_right fun hc => (List.mem_cons.mp hc).imp_right fun hc => ?_
    exact Nat.isDigit_of_mem_toDigits (by decide) (by decide) hc
  · exact .inl hc

/-- A delimiter in the network location of the canonical form was in the host. -/
theorem mem_netloc_of_canonical (ht : t.Lawful) (h : parsed.hostname t.lower = some hostname)
    {scheme : List Char} {c : Char} (hc : c ∈ t.canonicalNetloc scheme hostname port)
    (halpha : c.isAlpha = false) (hascii : c.toNat < 128) (hdigit : c.isDigit = false)
    (hcolon : c ≠ ':') : c ∈ parsed.hostinfo.1 := by
  rcases mem_canonicalNetloc hc with hc | hc | hc
  · exact mem_hostname ht h hc halpha hascii
  · exact absurd hc hcolon
  · rw [hc] at hdigit
    exact Bool.noConfusion hdigit

theorem formChar_plain : ∀ n < 128, isFormChar (Char.ofNat n) = true →
    Text.isSpace (Char.ofNat n) = false ∧ Char.ofNat n ≠ '#' ∧ isUnsafe (Char.ofNat n) = false := by
  decide +kernel

theorem clean_canonicalParts (ht : t.Lawful) (hfound : parsed.Found t.checks)
    (h : Accepted t parsed hostname port) : (canonicalParts t parsed hostname port).Clean := by
  have hnonempty : parsed.netloc ≠ [] := by
    intro hnil
    have hhost : parsed.hostinfo.1 = [] := by
      rw [List.eq_nil_iff_forall_not_mem]
      intro c hc
      have := mem_hostinfo hc
      rw [hnil] at this
      exact List.not_mem_nil this
    have hnone := h.hostname
    rw [SplitResult.hostname, if_pos hhost] at hnone
    exact nomatch hnone
  have hnot : ∀ {c : Char}, c ∈ (canonicalParts t parsed hostname port).netloc →
      c.isAlpha = false → c.toNat < 128 → c.isDigit = false → c ≠ ':' →
        isDelimiter c = false ∧ isUnsafe c = false := fun hc halpha hascii hdigit hcolon =>
    hfound.netloc _ (mem_hostinfo
      (mem_netloc_of_canonical ht h.hostname hc halpha hascii hdigit hcolon))
  refine ⟨?_, fun c hc => ⟨?_, ?_⟩, ?_, fun c hc => ?_, rfl⟩
  · have hscheme := h.scheme
    rw [canonicalParts]
    simp only
    rcases hscheme with hscheme | hscheme <;> rw [hscheme] <;> decide
  · cases hdelimiter : isDelimiter c with
    | false => rfl
    | true =>
      have := hdelimiter
      simp only [isDelimiter, Bool.or_eq_true, decide_eq_true_eq] at this
      rcases this with (rfl | rfl) | rfl <;>
        exact absurd (hnot hc (by decide) (by decide) (by decide) (by decide)).1 (by decide)
  · cases hunsafe : isUnsafe c with
    | false => rfl
    | true =>
      have := hunsafe
      simp only [isUnsafe, Bool.or_eq_true, decide_eq_true_eq] at this
      rcases this with (rfl | rfl) | rfl <;>
        exact absurd (hnot hc (by decide) (by decide) (by decide) (by decide)).2 (by decide)
  · rw [canonicalParts]
    simp only
    split
    case isTrue =>
      refine ⟨rfl, fun c hc => ?_⟩
      obtain rfl := List.mem_singleton.mp hc
      decide
    case isFalse hne => exact ⟨(hfound.rooted hnonempty).resolve_left hne, hfound.path⟩
  · have hform := formChar_plain _ (toNat_lt_of_isFormChar (isFormChar_urlencode hc))
    rw [Char.ofNat_toNat] at hform
    exact (hform (isFormChar_urlencode hc)).2

/-! ## Reading it again -/

/-- What is left of the path if nothing follows it. -/
def keptPath (parts : SplitResult) : List Char :=
  if parts.query = [] then parts.path.rdropWhile Text.isSpace else parts.path

theorem rdropWhile_append {p : Char → Bool} {a b : List Char} (h : b.rdropWhile p ≠ []) :
    (a ++ b).rdropWhile p = a ++ b.rdropWhile p := by
  have hne : (b.reverse.dropWhile p).isEmpty = false := by
    rw [List.isEmpty_eq_false_iff]
    exact fun hnil => h (by rw [List.rdropWhile, hnil, List.reverse_nil])
  rw [List.rdropWhile, List.reverse_append, List.dropWhile_append, hne, if_neg Bool.false_ne_true,
    List.reverse_append, List.reverse_reverse]
  rfl

theorem keptPath_clean {parts : SplitResult} (h : parts.Clean) :
    SplitResult.Clean { parts with path := keptPath parts } := by
  obtain ⟨path, hpath⟩ := List.head?_eq_some_iff.mp h.path.1
  refine ⟨h.scheme, h.netloc, ?_, h.query, h.fragment⟩
  simp only [keptPath]
  split
  case isTrue =>
    have hstarts : parts.path.rdropWhile Text.isSpace <+: parts.path :=
      List.rdropWhile_prefix _ _
    refine ⟨?_, fun c hc => h.path.2 c (hstarts.subset hc)⟩
    have hne : parts.path.rdropWhile Text.isSpace ≠ [] := by
      rw [Ne, List.rdropWhile_eq_nil_iff, hpath]
      exact fun hall => absurd (hall '/' List.mem_cons_self) (by decide)
    obtain ⟨c, rest, hc⟩ := List.exists_cons_of_ne_nil hne
    rw [hc, hpath, List.cons_prefix_cons] at hstarts
    rw [hc, hstarts.1]
    rfl
  case isFalse => exact h.path

/-- **Taking blanks off the canonical form takes them off its path**, if that is its end. -/
theorem strip_urlunsplit {parts : SplitResult} (h : parts.Clean)
    (hform : ∀ c ∈ parts.query, isFormChar c = true)
    (hhttp : parts.scheme = "http".toList ∨ parts.scheme = "https".toList) :
    Text.stripChars (urlunsplit parts) = urlunsplit { parts with path := keptPath parts } := by
  obtain ⟨scheme, hscheme⟩ : ∃ scheme, parts.scheme = 'h' :: scheme := by
    rcases hhttp with heq | heq <;> exact ⟨_, heq⟩
  have hfront : (urlunsplit parts).dropWhile Text.isSpace = urlunsplit parts := by
    rw [h.urlunsplit_eq, hscheme, List.cons_append, List.dropWhile_cons_of_neg (by decide)]
  have hback : Text.stripChars (urlunsplit parts) = (urlunsplit parts).rdropWhile Text.isSpace := by
    rw [Text.stripChars, hfront]
    rfl
  rw [hback, h.urlunsplit_eq, (keptPath_clean h).urlunsplit_eq]
  have hsplit : ∀ path tail : List Char, parts.scheme ++ (':' :: '/' :: '/' ::
      (parts.netloc ++ (path ++ tail))) =
        (parts.scheme ++ ':' :: '/' :: '/' :: parts.netloc) ++ (path ++ tail) := by
    intro path tail
    simp only [List.append_assoc, List.cons_append]
  rw [hsplit, hsplit]
  by_cases hquery : parts.query = []
  · simp only [keptPath, if_pos hquery, List.append_nil]
    refine rdropWhile_append fun hnil => ?_
    have hslash : '/' ∈ parts.path := List.mem_of_head? h.path.1
    exact absurd (List.rdropWhile_eq_nil_iff.mp hnil _ hslash) (by decide)
  · simp only [keptPath, if_neg hquery]
    have hlast : ('?' :: parts.query).rdropWhile Text.isSpace = '?' :: parts.query := by
      rw [List.rdropWhile_eq_self_iff]
      intro hne
      have hmem : ('?' :: parts.query).getLast hne ∈ parts.query := by
        rw [List.getLast_cons hquery]
        exact List.getLast_mem hquery
      have hplain := formChar_plain _ (toNat_lt_of_isFormChar (hform _ hmem))
      rw [Char.ofNat_toNat] at hplain
      rw [(hplain (hform _ hmem)).1]
      exact Bool.false_ne_true
    rw [← List.append_assoc, rdropWhile_append (by rw [hlast]; exact List.cons_ne_nil _ _), hlast]

end Clean

/-! ## Queries -/

theorem keptPairs_kept {query : List Char} :
    ∀ p ∈ t.keptPairs query, t.casefold p.1 ∉ trackingParameters := by
  intro p hp
  obtain ⟨f, hf, rfl⟩ := List.mem_map.mp hp
  exact of_decide_eq_true (List.mem_filter.mp hf).2

/-- The fields of the canonical query are all kept. -/
theorem filter_fields (ht : t.Lawful) (query : List Char) :
    (fields (urlencode (t.keptPairs query))).filter (t.Kept ·) =
      (t.keptPairs query).map fun (k, v) => (Percent.quotePlus k, Percent.quotePlus v) := by
  rw [fields_urlencode, List.filter_eq_self]
  intro f hf
  obtain ⟨p, hp, rfl⟩ := List.mem_map.mp hf
  refine decide_eq_true ?_
  rw [UrlText.Kept, Percent.unquotePlus_quotePlus ht.decode]
  exact keptPairs_kept p hp

theorem keptPairs_urlencode (ht : t.Lawful) (query : List Char) :
    t.keptPairs (urlencode (t.keptPairs query)) = t.keptPairs query := by
  rw [UrlText.keptPairs, filter_fields ht, List.map_map, List.map_congr_left (g := id), List.map_id]
  rintro ⟨k, v⟩ -
  simp only [Function.comp_apply, Percent.unquotePlus_quotePlus ht.decode, id_eq]

theorem rawPairs_urlencode (ht : t.Lawful) (query : List Char) :
    t.rawPairs (urlencode (t.keptPairs query)) =
      (t.keptPairs query).map fun (k, v) => (Percent.utf8 k, Percent.utf8 v) := by
  rw [UrlText.rawPairs, filter_fields ht, List.map_map]
  refine List.map_congr_left ?_
  rintro ⟨k, v⟩ -
  simp only [Function.comp_apply, UrlText.bytesOf, Percent.unquoteToBytes_quotePlus]

/-- The bytes of a text. -/
def IsUtf8 (bytes : List UInt8) : Prop := ∃ text, Percent.utf8 text = bytes

/-- **The canonical query has the same pairs exactly where names and values are UTF-8.** -/
theorem rawPairs_eq_iff (ht : t.Lawful) (query : List Char) :
    t.rawPairs (urlencode (t.keptPairs query)) = t.rawPairs query ↔
      ∀ f ∈ fields query, t.Kept f →
        IsUtf8 (UrlText.bytesOf f.1) ∧ IsUtf8 (UrlText.bytesOf f.2) := by
  rw [rawPairs_urlencode ht, UrlText.keptPairs, List.map_map, UrlText.rawPairs, List.map_inj_left]
  constructor
  · intro h f hf hkept
    have hpair := h f (List.mem_filter.mpr ⟨hf, decide_eq_true hkept⟩)
    exact ⟨⟨_, (Prod.ext_iff.mp hpair).1⟩, ⟨_, (Prod.ext_iff.mp hpair).2⟩⟩
  · intro h f hf
    obtain ⟨hmem, hkept⟩ := List.mem_filter.mp hf
    obtain ⟨hk, hv⟩ := h f hmem (of_decide_eq_true hkept)
    exact Prod.ext ((Percent.utf8_unquote_iff ht.decode _).mpr hk)
      ((Percent.utf8_unquote_iff ht.decode _).mpr hv)

/-! ## Hosts that are no IP literals -/

section Plain

variable {hostname : List Char} {port : Option Nat}

theorem hostPort_eq (h : '@' ∉ parsed.netloc) : parsed.hostPort = parsed.netloc :=
  afterLast_of_notMem h

theorem hostinfo_plain (huser : '@' ∉ parsed.netloc) (h : parsed.literal = false) :
    parsed.hostinfo = (before ':' parsed.netloc, after ':' parsed.netloc) := by
  rw [SplitResult.hostinfo, h, if_neg Bool.false_ne_true, hostPort_eq huser]

theorem literal_iff (huser : '@' ∉ parsed.netloc) :
    parsed.literal = true ↔ '[' ∈ parsed.netloc := by
  rw [SplitResult.literal, hostPort_eq huser, decide_eq_true_iff]

/-- An IP literal has lost its brackets. -/
theorem literal_lost (ht : t.Lawful) (h : Accepted t parsed hostname port)
    (hliteral : parsed.literal = true)
    (hvalid : validNetloc t.checks (canonicalParts t parsed hostname port).netloc = true) :
    '[' ∉ (canonicalParts t parsed hostname port).netloc := by
  have hclosed : ']' ∉ (canonicalParts t parsed hostname port).netloc := by
    intro hmem
    have hhost := mem_netloc_of_canonical ht h.hostname hmem (by decide) (by decide) (by decide)
      (by decide)
    rw [SplitResult.hostinfo, hliteral, if_pos rfl] at hhost
    exact notMem_before hhost
  rw [validNetloc, Bool.and_eq_true, Bool.and_eq_true, decide_eq_true_iff] at hvalid
  exact fun hmem => hclosed (hvalid.1.1.mp hmem)

/-- The port that is written. -/
def keptPort (scheme : List Char) (port : Option Nat) : Option Nat :=
  port.filter fun port => decide (port ≠ 0 ∧ port ≠ defaultPort scheme)

/-- The text behind the host. -/
def portText (port : Option Nat) : List Char := port.elim [] fun port => ':' :: Nat.toDigits 10 port

theorem canonicalNetloc_eq (scheme hostname : List Char) (port : Option Nat) :
    t.canonicalNetloc scheme hostname port = t.lower hostname ++ portText (keptPort scheme port) := by
  rw [UrlText.canonicalNetloc]
  cases port with
  | none => exact (List.append_nil _).symm
  | some port =>
    rw [Option.any_some, keptPort, Option.filter_some]
    split
    · rfl
    · exact (List.append_nil _).symm

theorem keptPort_le {scheme : List Char} (h : parsed.port = some port) :
    ∀ n ∈ keptPort scheme port, n ≤ 65535 := by
  intro n hn
  obtain ⟨rfl, -⟩ := Option.filter_eq_some_iff.mp hn
  rw [SplitResult.port] at h
  split at h
  · exact nomatch h
  · split at h
    case isTrue hport =>
      obtain rfl := Option.some.inj (Option.some.inj h)
      exact hport.2
    case isFalse => exact nomatch h

/-- The written port is read again. -/
theorem port_of_text {parts : SplitResult} {kept : Option Nat} (hle : ∀ n ∈ kept, n ≤ 65535)
    (h : parts.hostinfo.2 = (portText kept).drop 1) : parts.port = some kept := by
  rw [SplitResult.port, h]
  cases kept with
  | none => rfl
  | some n =>
    have hdigits : (Nat.toDigits 10 n).all Char.isDigit = true :=
      List.all_eq_true.mpr fun c => Nat.isDigit_of_mem_toDigits (by decide) (by decide)
    simp only [portText, Option.elim_some, List.drop_one, List.tail_cons]
    rw [if_neg Nat.toDigits_ne_nil, Nat.ofDigitChars_ten_toDigits, if_pos ⟨hdigits, hle n rfl⟩]

/-- What a host that is no IP literal is made of. -/
theorem host_plain (ht : t.Lawful) (h : Accepted t parsed hostname port)
    (hplain : parsed.literal = false) :
    before ':' parsed.netloc ≠ [] ∧ t.lower hostname = t.lower (before ':' parsed.netloc) := by
  have hhostname := h.hostname
  rw [SplitResult.hostname, hostinfo_plain h.user hplain] at hhostname
  simp only at hhostname
  split at hhostname
  case isTrue => exact nomatch hhostname
  case isFalse hne =>
    obtain rfl := Option.some.inj hhostname
    exact ⟨hne, ht.lower_hostname _⟩

/-- What stands behind the host is a colon and digits. -/
theorem portText_plain (h : Accepted t parsed hostname port) (hplain : parsed.literal = false) :
    ∃ p, parsed.netloc = before ':' parsed.netloc ++ p ∧ ∀ c ∈ p, c = ':' ∨ c.isDigit = true := by
  refine ⟨parsed.netloc.dropWhile (· ≠ ':'), (List.takeWhile_append_dropWhile).symm, ?_⟩
  have hport := h.port
  rw [SplitResult.port, hostinfo_plain h.user hplain] at hport
  have hdigits : ∀ c ∈ after ':' parsed.netloc, c.isDigit = true := by
    simp only at hport
    split at hport
    case isTrue hnil =>
      rw [hnil]
      exact List.forall_mem_nil _
    case isFalse =>
      split at hport
      case isTrue hall => exact List.all_eq_true.mp hall.1
      case isFalse => exact nomatch hport
  intro c hc
  cases hrest : parsed.netloc.dropWhile (· ≠ ':') with
  | nil =>
    rw [hrest] at hc
    exact absurd hc List.not_mem_nil
  | cons d rest =>
    have hhead : d = ':' := by
      have := List.head?_dropWhile_not (· ≠ ':') parsed.netloc
      rw [hrest] at this
      simpa using this
    rw [hrest] at hc
    rcases List.mem_cons.mp hc with rfl | hc
    · exact .inl hhead
    · refine .inr (hdigits c ?_)
      rw [after, hrest]
      exact hc

/-- The parts of the canonical form as they are read again. -/
def rereadParts (t : UrlText) (parsed : SplitResult) (hostname : List Char)
    (port : Option Nat) : SplitResult :=
  { canonicalParts t parsed hostname port with
    path := keptPath (canonicalParts t parsed hostname port) }

theorem notMem_portText {c : Char} (hcolon : c ≠ ':') (hdigit : c.isDigit = false)
    (kept : Option Nat) : c ∉ portText kept := by
  cases kept with
  | none => exact List.not_mem_nil
  | some n =>
    intro hc
    rcases List.mem_cons.mp hc with heq | hc
    · exact hcolon heq
    · rw [Nat.isDigit_of_mem_toDigits (by decide) (by decide) hc] at hdigit
      exact Bool.noConfusion hdigit

/-- A host and a port are told apart by the colon. -/
theorem before_after_portText {host : List Char} (h : ':' ∉ host) (kept : Option Nat) :
    before ':' (host ++ portText kept) = host ∧
      after ':' (host ++ portText kept) = (portText kept).drop 1 := by
  cases kept with
  | none =>
    rw [portText, Option.elim_none, List.append_nil]
    exact ⟨before_of_notMem h, after_of_notMem h⟩
  | some n => exact ⟨before_append h, after_append h⟩

/-- **A host that is no IP literal is found again**, and so is the port that was written. -/
theorem accepted_reread (ht : t.Lawful) (hfound : parsed.Found t.checks)
    (h : Accepted t parsed hostname port) (hplain : parsed.literal = false) :
    validNetloc t.checks (rereadParts t parsed hostname port).netloc = true ∧
      (rereadParts t parsed hostname port).literal = false ∧
      ∃ hostname', Accepted t (rereadParts t parsed hostname port) hostname'
          (keptPort (t.lower parsed.scheme) port) ∧ t.lower hostname' = t.lower hostname := by
  obtain ⟨hne, hhost⟩ := host_plain ht h hplain
  obtain ⟨p, hp, hdigits⟩ := portText_plain h hplain
  have hnetloc : (rereadParts t parsed hostname port).netloc =
      t.lower (before ':' parsed.netloc) ++ portText (keptPort (t.lower parsed.scheme) port) := by
    rw [← hhost, ← canonicalNetloc_eq]
    rfl
  -- no delimiter of the network location is made
  have hopen : '[' ∉ parsed.netloc := fun hmem => by
    rw [(literal_iff h.user).mpr hmem] at hplain
    exact Bool.noConfusion hplain
  have hvalid := hfound.valid
  rw [validNetloc, Bool.and_eq_true, Bool.and_eq_true, decide_eq_true_iff] at hvalid
  have hclosed : ']' ∉ parsed.netloc := fun hmem => hopen (hvalid.1.1.mpr hmem)
  have hnot : ∀ {c : Char}, c ∉ parsed.netloc → c.isAlpha = false → c.toNat < 128 → c ≠ ':' →
      c.isDigit = false → c ∉ (rereadParts t parsed hostname port).netloc := by
    intro c hc halpha hascii hcolon hdigit hmem
    rw [hnetloc] at hmem
    rcases List.mem_append.mp hmem with hmem | hmem
    · exact ht.notMem_lower (fun hc' => hc (mem_of_mem_before hc')) halpha hascii hmem
    · exact notMem_portText hcolon hdigit _ hmem
  have huser' := hnot h.user (by decide) (by decide) (by decide) (by decide)
  have hopen' := hnot hopen (by decide) (by decide) (by decide) (by decide)
  have hclosed' := hnot hclosed (by decide) (by decide) (by decide) (by decide)
  have hplain' : (rereadParts t parsed hostname port).literal = false :=
    Bool.eq_false_of_not_eq_true fun hliteral => hopen' ((literal_iff huser').mp hliteral)
  -- the host and the port
  have hcolon : ':' ∉ t.lower (before ':' parsed.netloc) :=
    ht.notMem_lower notMem_before (by decide) (by decide)
  obtain ⟨hbefore, hafter⟩ := before_after_portText hcolon (keptPort (t.lower parsed.scheme) port)
  have hinfo := hostinfo_plain huser' hplain'
  rw [hnetloc, hbefore, hafter] at hinfo
  refine ⟨?_, hplain', t.lower (before '%' (t.lower (before ':' parsed.netloc))) ++
    (t.lower (before ':' parsed.netloc)).dropWhile (· ≠ '%'), ⟨?_, ?_, huser', ?_⟩, ?_⟩
  · have hchecked : t.checks.netloc (rereadParts t parsed hostname port).netloc = true := by
      rw [hnetloc]
      have hplainHost : ∀ c ∈ before ':' parsed.netloc,
          isDelimiter c = false ∧ c ≠ '@' ∧ c ≠ ':' := by
        intro c hc
        have hmem : c ∈ parsed.netloc := mem_of_mem_before hc
        refine ⟨(hfound.netloc c hmem).1, ?_, ?_⟩
        · rintro rfl
          exact h.user hmem
        · rintro rfl
          exact notMem_before hc
      refine ht.netloc_lower _ p _ hplainHost (List.forall_mem_append.mpr ⟨hdigits, fun c hc => ?_⟩)
        (hp ▸ hvalid.2)
      by_contra hc'
      rw [not_or, Bool.not_eq_true] at hc'
      exact notMem_portText hc'.1 hc'.2 _ hc
    rw [validNetloc, hchecked]
    simp [hopen', hclosed']
  · rw [SplitResult.hostname, hinfo]
    exact if_neg (ht.lower_ne_nil _ hne)
  · show t.lower (t.lower parsed.scheme) = _ ∨ t.lower (t.lower parsed.scheme) = _
    rw [ht.lower_lower]
    exact h.scheme
  · refine port_of_text (keptPort_le h.port) ?_
    rw [hinfo]
  · rw [ht.lower_hostname, ht.lower_lower, hhost]

end Plain

/-! ## What is kept -/

/-- A URL whose canonical form names the same: no IP literal, no port 0, names and values that are
UTF-8, and no blank at the end of a path that no field follows. -/
structure Preservable (t : UrlText) (parsed : SplitResult) : Prop where
  literal : parsed.literal = false
  port : parsed.port ≠ some (some 0)
  fields : ∀ f ∈ fields parsed.query, t.Kept f →
    IsUtf8 (UrlText.bytesOf f.1) ∧ IsUtf8 (UrlText.bytesOf f.2)
  path : (∃ f ∈ Url.fields parsed.query, t.Kept f) ∨
    ∀ hne : parsed.path ≠ [], Text.isSpace (parsed.path.getLast hne) = false

section Kept

variable {hostname : List Char} {port : Option Nat}

/-- The port is what it was, unless it was 0. -/
theorem keptPort_getD {scheme : List Char} :
    (keptPort scheme port).getD (defaultPort scheme) = port.getD (defaultPort scheme) ↔
      port ≠ some 0 := by
  have hdefault : defaultPort scheme ≠ 0 := by
    rw [defaultPort]
    split <;> decide
  cases port with
  | none => exact ⟨fun _ => nofun, fun _ => rfl⟩
  | some n =>
    rw [keptPort, Option.filter_some]
    by_cases hzero : n = 0
    · subst hzero
      simp [hdefault]
    · by_cases hn : n = defaultPort scheme
      · subst hn
        simp [hdefault]
      · simp [hzero, hn]

theorem keptPairs_eq_nil_iff {query : List Char} :
    t.keptPairs query = [] ↔ ¬∃ f ∈ fields query, t.Kept f := by
  rw [UrlText.keptPairs, List.map_eq_nil_iff, List.filter_eq_nil_iff]
  simp

/-- The path is what it was, unless a blank at its end was taken off. -/
theorem keptPath_eq_iff :
    keptPath (canonicalParts t parsed hostname port) =
        (canonicalParts t parsed hostname port).path ↔
      (∃ f ∈ fields parsed.query, t.Kept f) ∨
        ∀ hne : parsed.path ≠ [], Text.isSpace (parsed.path.getLast hne) = false := by
  rw [keptPath]
  have hquery : (canonicalParts t parsed hostname port).query = [] ↔
      ¬∃ f ∈ fields parsed.query, t.Kept f := urlencode_eq_nil_iff.trans keptPairs_eq_nil_iff
  split
  case isTrue hnil =>
    rw [or_iff_right (hquery.mp hnil), List.rdropWhile_eq_self_iff]
    by_cases hpath : parsed.path = []
    · simp only [canonicalParts, if_pos hpath]
      exact ⟨fun _ hne => absurd hpath hne, fun _ _ => by rw [List.getLast_singleton]; decide⟩
    · simp only [canonicalParts, if_neg hpath, Bool.not_eq_true]
  case isFalse hne => exact ⟨fun _ => .inl (not_not.mp (mt hquery.mpr hne)), fun _ => rfl⟩

theorem rereadParts_path (h : (canonicalParts t parsed hostname port).Clean) :
    (rereadParts t parsed hostname port).path ≠ [] := fun hnil => by
  have hhead := (keptPath_clean h).path.1
  have hnone : (rereadParts t parsed hostname port).path.head? = none := by rw [hnil]; rfl
  exact nomatch hnone.symm.trans hhead

/-- Reading the canonical form again is reading its parts. -/
theorem urlsplit_canonical (ht : t.Lawful) (hfound : parsed.Found t.checks)
    (h : Accepted t parsed hostname port) :
    urlsplit t.checks (Text.stripChars (urlunsplit (canonicalParts t parsed hostname port))) =
      if validNetloc t.checks (rereadParts t parsed hostname port).netloc then
        some (rereadParts t parsed hostname port) else none := by
  have hclean := clean_canonicalParts ht hfound h
  rw [strip_urlunsplit hclean (fun c hc => isFormChar_urlencode hc) h.scheme]
  exact (keptPath_clean hclean).urlsplit_urlunsplit t.checks

/-- The canonical form of the canonical form, where the host is no IP literal. -/
theorem canonicalParts_reread (ht : t.Lawful) (hclean : (canonicalParts t parsed hostname port).Clean)
    {hostname' : List Char} (hhost : t.lower hostname' = t.lower hostname) :
    canonicalParts t (rereadParts t parsed hostname port) hostname'
      (keptPort (t.lower parsed.scheme) port) = rereadParts t parsed hostname port := by
  have hpath := rereadParts_path hclean
  have hport : keptPort (t.lower parsed.scheme) (keptPort (t.lower parsed.scheme) port) =
      keptPort (t.lower parsed.scheme) port := by
    rw [keptPort, keptPort, Option.filter_filter]
    simp only [Bool.and_self]
  have hnetloc : t.canonicalNetloc (t.lower (t.lower parsed.scheme)) hostname'
      (keptPort (t.lower parsed.scheme) port) =
        t.canonicalNetloc (t.lower parsed.scheme) hostname port := by
    rw [canonicalNetloc_eq, canonicalNetloc_eq, ht.lower_lower, hport, hhost]
  have hquery := keptPairs_urlencode ht parsed.query
  rw [canonicalParts, if_neg hpath]
  simp only [rereadParts, canonicalParts] at hpath ⊢
  rw [hnetloc, hquery, ht.lower_lower]

theorem resourceOf_eq (h : Accepted t parsed hostname port) : t.resourceOf parsed = some {
    scheme := parsed.scheme
    literal := parsed.literal
    host := t.lower hostname
    port := port.getD (defaultPort parsed.scheme)
    path := if parsed.path = [] then ['/'] else parsed.path
    pairs := t.rawPairs parsed.query } := by
  rw [UrlText.resourceOf, h.hostname, h.port]
  rfl

/-- **Where the host is no IP literal**, port, query and path decide. -/
theorem keeps_iff_of_plain (ht : t.Lawful) (hfound : parsed.Found t.checks)
    (h : Accepted t parsed hostname port) (hplain : parsed.literal = false) :
    (t.canonicalizeUrl (urlunsplit (canonicalParts t parsed hostname port)) =
          some (urlunsplit (canonicalParts t parsed hostname port)) ∧
        t.resource (urlunsplit (canonicalParts t parsed hostname port)) = t.resourceOf parsed) ↔
      Preservable t parsed := by
  have hclean := clean_canonicalParts ht hfound h
  obtain ⟨hvalid, hplain', hostname', haccepted, hhost⟩ := accepted_reread ht hfound h hplain
  have hsplit := urlsplit_canonical ht hfound h
  rw [if_pos hvalid] at hsplit
  have hagain : t.canonical (rereadParts t parsed hostname port) =
      some (urlunsplit (rereadParts t parsed hostname port)) :=
    canonical_iff.mpr ⟨_, _, haccepted, by rw [canonicalParts_reread ht hclean hhost]⟩
  rw [UrlText.canonicalizeUrl, UrlText.resource, hsplit, Option.bind_some, Option.bind_some, hagain,
    resourceOf_eq haccepted, resourceOf_eq h, if_neg (rereadParts_path hclean), hhost, hplain, hplain']
  have hscheme : (rereadParts t parsed hostname port).scheme = parsed.scheme :=
    lower_scheme ht hfound
  rw [hscheme, lower_scheme ht hfound]
  simp only [Option.some.injEq, Resource.mk.injEq, true_and]
  constructor
  · rintro ⟨-, hport, hpath, hpairs⟩
    refine ⟨hplain, ?_, (rawPairs_eq_iff ht _).mp hpairs, keptPath_eq_iff.mp hpath⟩
    rw [h.port]
    exact fun heq => keptPort_getD.mp hport (Option.some.inj heq)
  · intro hkeep
    have hpath : keptPath (canonicalParts t parsed hostname port) =
        (canonicalParts t parsed hostname port).path := keptPath_eq_iff.mpr hkeep.path
    refine ⟨?_, keptPort_getD.mpr fun heq => hkeep.port (by rw [h.port, heq]), hpath,
      (rawPairs_eq_iff ht _).mpr hkeep.fields⟩
    rw [rereadParts, hpath]

/-- An IP literal is none any more when the canonical form is read again. -/
theorem literal_reread (ht : t.Lawful) (h : Accepted t parsed hostname port)
    (hliteral : parsed.literal = true)
    (hvalid : validNetloc t.checks (rereadParts t parsed hostname port).netloc = true) :
    (rereadParts t parsed hostname port).literal = false := by
  have hlost := literal_lost ht h hliteral hvalid
  rw [SplitResult.literal]
  refine decide_eq_false fun hmem => hlost ?_
  rw [SplitResult.hostPort, afterLast, List.mem_reverse] at hmem
  exact List.mem_reverse.mp ((List.takeWhile_sublist _).subset hmem)

/-- **Which URLs keep what they name** under a canonical form that is its own. -/
theorem keeps_iff (ht : t.Lawful) (hfound : parsed.Found t.checks)
    (h : Accepted t parsed hostname port) :
    (t.canonicalizeUrl (urlunsplit (canonicalParts t parsed hostname port)) =
          some (urlunsplit (canonicalParts t parsed hostname port)) ∧
        t.resource (urlunsplit (canonicalParts t parsed hostname port)) = t.resourceOf parsed) ↔
      Preservable t parsed := by
  cases hliteral : parsed.literal with
  | false => exact keeps_iff_of_plain ht hfound h hliteral
  | true =>
    refine iff_of_false ?_ fun hkeep => ?_
    · -- what is accepted again is no IP literal, and names another host
      rintro ⟨hagain, hsame⟩
      have hsplit := urlsplit_canonical ht hfound h
      rw [UrlText.canonicalizeUrl, hsplit] at hagain
      rw [UrlText.resource, hsplit] at hsame
      split at hagain
      case isFalse => exact nomatch hagain
      case isTrue hvalid =>
        obtain ⟨hostname', port', haccepted, -⟩ := canonical_iff.mp hagain
        rw [if_pos hvalid, Option.bind_some, resourceOf_eq haccepted, resourceOf_eq h] at hsame
        have hboth := congrArg Resource.literal (Option.some.inj hsame)
        simp only [literal_reread ht h hliteral hvalid, hliteral] at hboth
        exact Bool.noConfusion hboth
    · rw [hkeep.literal] at hliteral
      exact Bool.noConfusion hliteral

end Kept

/-- What callers take from the canonical form `c` of a URL: it is its own canonical form, and it names
the same resource. -/
def Preserves (t : UrlText) (url c : List Char) : Prop :=
  t.canonicalizeUrl c = some c ∧ t.resource c = t.resource url

/-- **A canonical form preserves what is named** exactly where the URL has no IP literal, no port 0,
only UTF-8 in its kept fields, and no blank at the end of a path that no field follows; and such
URLs share a form only if they name the same. -/
theorem canonical_preserves_iff (ht : t.Lawful) {c : List Char}
    (h : t.canonicalizeUrl url = some c) :
    ∃ parsed, urlsplit t.checks (Text.stripChars url) = some parsed ∧
      (Preserves t url c ↔ Preservable t parsed) ∧
      ∀ other parsed', t.canonicalizeUrl other = some c →
        urlsplit t.checks (Text.stripChars other) = some parsed' →
          Preservable t parsed → Preservable t parsed' → t.resource other = t.resource url := by
  have hiff : ∀ {url parsed}, t.canonicalizeUrl url = some c →
      urlsplit t.checks (Text.stripChars url) = some parsed →
        (Preserves t url c ↔ Preservable t parsed) := by
    intro url parsed h hparsed
    rw [UrlText.canonicalizeUrl, hparsed, Option.bind_some] at h
    obtain ⟨hostname, port, haccepted, rfl⟩ := canonical_iff.mp h
    have hresource : t.resource url = t.resourceOf parsed := by
      rw [UrlText.resource, hparsed, Option.bind_some]
    rw [Preserves, hresource]
    exact keeps_iff ht (urlsplit_found hparsed) haccepted
  obtain ⟨parsed, hparsed, -⟩ := Option.bind_eq_some_iff.mp h
  refine ⟨parsed, hparsed, hiff h hparsed, fun other parsed' hother hparsed' hkeep hkeep' => ?_⟩
  rw [← ((hiff hother hparsed').mpr hkeep').2, ← ((hiff h hparsed).mpr hkeep).2]

/-! ## ASCII -/

/-- Tables that know ASCII only. -/
def asciiText : UrlText where
  checks := { bracketed := fun _ => true, netloc := fun _ => true }
  lower := List.map Char.toLower
  casefold := List.map Char.toLower
  decode bytes := (String.fromUTF8? bytes.toByteArray).elim [Char.ofNat 0xFFFD] String.toList

theorem toLower_of_le {c : Char} (h : 128 ≤ c.toNat) : c.toLower = c := by
  refine dif_neg ?_
  rintro ⟨-, hle⟩
  have : c.toNat ≤ 90 := hle
  omega

theorem toLower_plain : ∀ n < 128, (Char.ofNat n).toLower.toLower = (Char.ofNat n).toLower ∧
    ((Char.ofNat n).toLower = Char.ofNat n ∨ (Char.ofNat n).toLower.isAlpha = true) := by
  decide +kernel

theorem toLower_spec (c : Char) : c.toLower.toLower = c.toLower ∧
    (c.toLower = c ∨ c.toLower.isAlpha = true) := by
  by_cases hascii : c.toNat < 128
  · have hplain := toLower_plain _ hascii
    rwa [Char.ofNat_toNat] at hplain
  · have hself := toLower_of_le (Nat.not_lt.mp hascii)
    exact ⟨by rw [hself, hself], .inl hself⟩

theorem asciiText_lawful : asciiText.Lawful where
  decode cs := by
    have hbytes : (Percent.utf8 cs).toByteArray = (String.ofList cs).toUTF8 :=
      String.toByteArray_ofList.symm
    show (String.fromUTF8? (Percent.utf8 cs).toByteArray).elim _ _ = cs
    rw [hbytes, Utf8.fromUTF8?_toUTF8, Option.elim_some, String.toList_ofList]
  lower_lower cs := by
    show (cs.map Char.toLower).map Char.toLower = cs.map Char.toLower
    rw [List.map_map]
    exact List.map_congr_left fun c _ => (toLower_spec c).1
  lower_ascii _ _ := rfl
  lower_percent a z := by
    show (a ++ '%' :: z).map Char.toLower = _
    rw [List.map_append, List.map_cons]
    rfl
  lower_mem cs c hc := by
    obtain ⟨d, hd, rfl⟩ := List.mem_map.mp hc
    exact (toLower_spec d).2.imp (fun heq : d.toLower = d => heq.symm ▸ hd) .inl
  lower_ne_nil cs h := mt List.map_eq_nil_iff.mp h
  netloc_lower _ _ _ _ _ _ := rfl

/-- A query with a blank value, a tracking parameter and a port that is written. -/
theorem canonical_preserves_sample :
    let url := "http://A:8080/p?q=%C3%A9&utm_source=x&r=".toList
    ∃ c parsed, asciiText.canonicalizeUrl url = some c ∧
      urlsplit asciiText.checks (Text.stripChars url) = some parsed ∧
      (Preserves asciiText url c ↔ Preservable asciiText parsed) := by
  have haccepted : asciiText.canonicalizeUrl "http://A:8080/p?q=%C3%A9&utm_source=x&r=".toList =
      some "http://a:8080/p?q=%C3%A9&r=".toList := by decide +kernel
  obtain ⟨parsed, hparsed, hiff, -⟩ := canonical_preserves_iff asciiText_lawful haccepted
  exact ⟨_, parsed, haccepted, hparsed, hiff⟩

/-- `http://[::1]/` becomes `http://::1/`, which is refused; port 0 becomes port 80; and a byte that is
no UTF-8 becomes a replacement character. -/
theorem address_loses_brackets :
    (asciiText.canonicalizeUrl "http://[::1]/".toList = some "http://::1/".toList ∧
        asciiText.canonicalizeUrl "http://::1/".toList = none) ∧
      (asciiText.canonicalizeUrl "http://a:0/".toList = some "http://a/".toList ∧
        asciiText.resource "http://a/".toList ≠ asciiText.resource "http://a:0/".toList) ∧
      asciiText.canonicalizeUrl "http://a/?q=%FF".toList =
        asciiText.canonicalizeUrl "http://a/?q=%FE".toList ∧
      asciiText.resource "http://a/?q=%FF".toList ≠ asciiText.resource "http://a/?q=%FE".toList := by
  decide +kernel

end Sana.Discovery
