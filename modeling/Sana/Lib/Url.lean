import Mathlib.Data.List.TakeWhile
import Sana.Lib.Percent

/-!
# Splitting URLs

`urllib.parse`: a URL is split into scheme, network location, path, query and fragment, and put
together again. A URL that was put together of parts without each other's delimiters is split into
these parts (`urlsplit_urlunsplit`).
-/

namespace Sana.Lib.Url

/-! ## Splitting -/

/-- What stands behind the first `c`. -/
def after (c : Char) (l : List Char) : List Char := (l.dropWhile (· ≠ c)).drop 1

/-- What stands before the first `c`. -/
def before (c : Char) (l : List Char) : List Char := l.takeWhile (· ≠ c)

/-- What stands behind the last `c`; all of it where there is none. -/
def afterLast (c : Char) (l : List Char) : List Char := (l.reverse.takeWhile (· ≠ c)).reverse

/-- `SplitResult`. -/
structure SplitResult where
  scheme : List Char
  netloc : List Char
  path : List Char
  query : List Char
  fragment : List Char
deriving DecidableEq, Repr

/-- The checks of network locations, which go by tables. -/
structure Checks where
  /-- `_check_bracketed_host` takes what stands in brackets. -/
  bracketed : List Char → Bool
  /-- `_checknetloc` takes the network location. -/
  netloc : List Char → Bool

/-- `_WHATWG_C0_CONTROL_OR_SPACE`. -/
def isControl (c : Char) : Bool := c.toNat ≤ 32

/-- `_UNSAFE_URL_BYTES_TO_REMOVE`. -/
def isUnsafe (c : Char) : Bool := c = '\t' || c = '\r' || c = '\n'

/-- `scheme_chars`. -/
def isSchemeChar (c : Char) : Bool := c.isAlphanum || c = '+' || c = '-' || c = '.'

/-- The delimiters behind a network location. -/
def isDelimiter (c : Char) : Bool := c = '/' || c = '?' || c = '#'

/-- The scheme, and what follows it. -/
def takeScheme (url : List Char) : List Char × List Char :=
  let head := before ':' url
  if ':' ∈ url ∧ head.head?.any Char.isAlpha ∧ head.all isSchemeChar then
    (head.map Char.toLower, after ':' url)
  else ([], url)

/-- The network location, and what follows it. -/
def takeNetloc (url : List Char) : List Char × List Char :=
  if ['/', '/'].isPrefixOf url then
    ((url.drop 2).takeWhile (!isDelimiter ·), (url.drop 2).dropWhile (!isDelimiter ·))
  else ([], url)

variable (checks : Checks)

/-- Whether a network location passes the checks. -/
def validNetloc (netloc : List Char) : Bool :=
  ('[' ∈ netloc ↔ ']' ∈ netloc) &&
    ('[' ∉ netloc || checks.bracketed (before ']' (after '[' netloc))) && checks.netloc netloc

/-- What `urlsplit` does to the text first. -/
def cleaned (url : List Char) : List Char := (url.dropWhile isControl).filter (!isUnsafe ·)

/-- `urlsplit(url)`; `none` for a `ValueError`. -/
def urlsplit (url : List Char) : Option SplitResult :=
  let (scheme, rest) := takeScheme (cleaned url)
  let (netloc, rest) := takeNetloc rest
  let fragment := after '#' rest
  let rest := before '#' rest
  if validNetloc checks netloc then
    some ⟨scheme, netloc, before '?' rest, after '?' rest, fragment⟩
  else none

/-- `urlunsplit`, for a scheme and a network location that are not empty. -/
def urlunsplit (parts : SplitResult) : List Char :=
  let path := if parts.path ≠ [] ∧ parts.path.head? ≠ some '/' then '/' :: parts.path else parts.path
  parts.scheme ++ (':' :: '/' :: '/' :: (parts.netloc ++ (path
    ++ ((if parts.query = [] then [] else '?' :: parts.query)
      ++ (if parts.fragment = [] then [] else '#' :: parts.fragment)))))

/-! ## Network locations -/

namespace SplitResult

variable (parts : SplitResult)

/-- `username`. -/
def username : Option (List Char) :=
  if '@' ∈ parts.netloc then
    some (before ':' (parts.netloc.take (parts.netloc.length
      - (afterLast '@' parts.netloc).length - 1)))
  else none

/-- `password`. -/
def password : Option (List Char) :=
  let userinfo := parts.netloc.take (parts.netloc.length
    - (afterLast '@' parts.netloc).length - 1)
  if '@' ∈ parts.netloc ∧ ':' ∈ userinfo then some (after ':' userinfo) else none

/-- The part of the network location behind the user. -/
def hostPort : List Char := afterLast '@' parts.netloc

/-- The host stands in brackets. -/
def literal : Bool := '[' ∈ parts.hostPort

/-- `_hostinfo`: the host and the text of the port. -/
def hostinfo : List Char × List Char :=
  if parts.literal then
    (before ']' (after '[' parts.hostPort), after ':' (after ']' (after '[' parts.hostPort)))
  else (before ':' parts.hostPort, after ':' parts.hostPort)

/-- `hostname`; a zone behind `%` is not lowered. -/
def hostname (lower : List Char → List Char) : Option (List Char) :=
  let host := parts.hostinfo.1
  if host = [] then none
  else some (lower (before '%' host) ++ host.dropWhile (· ≠ '%'))

/-- `port`; the outer `none` is a `ValueError`. -/
def port : Option (Option Nat) :=
  let port := parts.hostinfo.2
  if port = [] then some none
  else if port.all Char.isDigit ∧ Nat.ofDigitChars 10 port 0 ≤ 65535 then
    some (some (Nat.ofDigitChars 10 port 0))
  else none

end SplitResult

/-! ## Queries -/

/-- `parse_qsl(query, keep_blank_values=True)` before the names and values are unquoted. -/
def fields (query : List Char) : List (List Char × List Char) :=
  ((query.splitOn '&').filter (· ≠ [])).map fun field => (before '=' field, after '=' field)

/-- `urlencode(pairs, doseq=True)`. -/
def urlencode (pairs : List (List Char × List Char)) : List Char :=
  ['&'].intercalate (pairs.map fun (k, v) => Percent.quotePlus k ++ '=' :: Percent.quotePlus v)

/-! ## Delimiters -/

section Lists

variable {α : Type} {p : α → Bool} {l rest : List α} {a : α}

theorem takeWhile_stop (h : ∀ x ∈ l, p x = true) (ha : p a = false) :
    (l ++ a :: rest).takeWhile p = l := by
  rw [List.takeWhile_append_of_pos h, List.takeWhile_cons_of_neg (by rw [ha]; exact Bool.false_ne_true),
    List.append_nil]

theorem dropWhile_stop (h : ∀ x ∈ l, p x = true) (ha : p a = false) :
    (l ++ a :: rest).dropWhile p = a :: rest := by
  rw [List.dropWhile_append_of_pos h,
    List.dropWhile_cons_of_neg (by rw [ha]; exact Bool.false_ne_true)]

end Lists

section Delimiters

variable {c : Char} {l rest : List Char}

theorem stops (h : c ∉ l) : ∀ x ∈ l, decide (x ≠ c) = true := fun _ hx =>
  decide_eq_true fun heq => h (heq ▸ hx)

theorem before_append (h : c ∉ l) : before c (l ++ c :: rest) = l :=
  takeWhile_stop (stops h) (decide_eq_false (not_not_intro rfl))

theorem after_append (h : c ∉ l) : after c (l ++ c :: rest) = rest := by
  rw [after, dropWhile_stop (stops h) (decide_eq_false (not_not_intro rfl)), List.drop_one,
    List.tail_cons]

theorem before_of_notMem (h : c ∉ l) : before c l = l :=
  List.takeWhile_eq_self_iff.mpr (stops h)

theorem after_of_notMem (h : c ∉ l) : after c l = [] := by
  rw [after, List.dropWhile_eq_nil_iff.mpr (stops h), List.drop_nil]

theorem notMem_before : c ∉ before c l := by
  intro h
  have hne := List.mem_takeWhile_imp h
  exact of_decide_eq_true hne rfl

theorem mem_of_mem_before {x : Char} (h : x ∈ before c l) : x ∈ l :=
  (List.takeWhile_sublist _).subset h

theorem mem_of_mem_after {x : Char} (h : x ∈ after c l) : x ∈ l :=
  (List.dropWhile_sublist _).subset ((List.drop_sublist _ _).subset h)

theorem afterLast_of_notMem (h : c ∉ l) : afterLast c l = l := by
  rw [afterLast, List.takeWhile_eq_self_iff.mpr (stops fun hc => h (List.mem_reverse.mp hc)),
    List.reverse_reverse]

end Delimiters

/-! ## Putting together and splitting -/

/-- Parts without each other's delimiters; the path begins with a slash and there is no fragment. -/
structure SplitResult.Clean (parts : SplitResult) : Prop where
  scheme : parts.scheme.head?.any Char.isAlpha = true ∧ parts.scheme.all isSchemeChar = true ∧
    parts.scheme.map Char.toLower = parts.scheme
  netloc : ∀ c ∈ parts.netloc, isDelimiter c = false ∧ isUnsafe c = false
  path : parts.path.head? = some '/' ∧ ∀ c ∈ parts.path, c ≠ '?' ∧ c ≠ '#' ∧ isUnsafe c = false
  query : ∀ c ∈ parts.query, c ≠ '#' ∧ isUnsafe c = false
  fragment : parts.fragment = []

namespace SplitResult.Clean

variable {parts : SplitResult} (h : parts.Clean)
include h

/-- Path and query, as they are written. -/
theorem urlunsplit_eq : urlunsplit parts = parts.scheme ++ (':' :: '/' :: '/' :: (parts.netloc ++
    (parts.path ++ if parts.query = [] then [] else '?' :: parts.query))) := by
  have hpath : ¬(parts.path ≠ [] ∧ parts.path.head? ≠ some '/') := fun hne => hne.2 h.path.1
  simp only [urlunsplit, if_neg hpath, h.fragment, if_true, List.append_nil]

theorem isSchemeChar_scheme {c : Char} (hc : c ∈ parts.scheme) : isSchemeChar c = true :=
  List.all_eq_true.mp h.scheme.2.1 c hc

theorem not_isUnsafe {c : Char} (hc : c ∈ urlunsplit parts) : isUnsafe c = false := by
  rw [h.urlunsplit_eq] at hc
  rcases List.mem_append.mp hc with hc | hc
  · have hscheme := h.isSchemeChar_scheme hc
    cases hunsafe : isUnsafe c with
    | false => rfl
    | true =>
      simp only [isUnsafe, Bool.or_eq_true, decide_eq_true_eq] at hunsafe
      rcases hunsafe with (rfl | rfl) | rfl <;> exact absurd hscheme (by decide)
  · simp only [List.mem_cons, List.mem_append] at hc
    rcases hc with rfl | rfl | rfl | hc | hc | hc
    · rfl
    · rfl
    · rfl
    · exact (h.netloc c hc).2
    · exact (h.path.2 c hc).2.2
    · split at hc
      · exact absurd hc List.not_mem_nil
      · rcases List.mem_cons.mp hc with rfl | hc
        · rfl
        · exact (h.query c hc).2

/-- **What is put together of clean parts is split into them.** -/
theorem urlsplit_urlunsplit (checks : Checks) : urlsplit checks (urlunsplit parts) =
    if validNetloc checks parts.netloc then some parts else none := by
  have hcolon : ':' ∉ parts.scheme := fun hc => absurd (h.isSchemeChar_scheme hc) (by decide)
  have hcleaned : cleaned (urlunsplit parts) = urlunsplit parts := by
    obtain ⟨c, hhead, halpha⟩ := (Option.any_eq_true _ _).mp h.scheme.1
    obtain ⟨scheme, hc⟩ := List.head?_eq_some_iff.mp hhead
    have hcontrol : isControl c = false := by
      refine decide_eq_false fun hle => ?_
      have hlow : ∀ n < 33, (Char.ofNat n).isAlpha = false := by decide
      have := hlow c.toNat (Nat.lt_succ_of_le hle)
      rw [Char.ofNat_toNat, halpha] at this
      exact absurd this Bool.noConfusion
    have hkept : (urlunsplit parts).dropWhile isControl = urlunsplit parts := by
      rw [h.urlunsplit_eq, hc, List.cons_append,
        List.dropWhile_cons_of_neg (by rw [hcontrol]; exact Bool.false_ne_true)]
    rw [cleaned, hkept, List.filter_eq_self]
    exact fun x hx => by rw [h.not_isUnsafe hx]; rfl
  have hscheme : takeScheme (urlunsplit parts) = (parts.scheme, '/' :: '/' :: (parts.netloc ++
      (parts.path ++ if parts.query = [] then [] else '?' :: parts.query))) := by
    rw [h.urlunsplit_eq, takeScheme, before_append hcolon, after_append hcolon,
      if_pos ⟨List.mem_append_right _ List.mem_cons_self, h.scheme.1, h.scheme.2.1⟩, h.scheme.2.2]
  obtain ⟨path, hpath⟩ : ∃ path, parts.path = '/' :: path := List.head?_eq_some_iff.mp h.path.1
  have hnetloc : takeNetloc ('/' :: '/' :: (parts.netloc ++
      (parts.path ++ if parts.query = [] then [] else '?' :: parts.query))) =
        (parts.netloc, parts.path ++ if parts.query = [] then [] else '?' :: parts.query) := by
    have hstop : ∀ x ∈ parts.netloc, (!isDelimiter x) = true := fun x hx => by
      rw [(h.netloc x hx).1]
      rfl
    rw [takeNetloc, if_pos (by simp [List.isPrefixOf]), hpath]
    simp only [List.drop_succ_cons, List.drop_zero, List.cons_append]
    rw [takeWhile_stop hstop rfl, dropWhile_stop hstop rfl]
  have hhash : '#' ∉ parts.path ++ if parts.query = [] then [] else '?' :: parts.query := by
    intro hmem
    rcases List.mem_append.mp hmem with hmem | hmem
    · exact (h.path.2 _ hmem).2.1 rfl
    · split at hmem
      · exact absurd hmem List.not_mem_nil
      · rcases List.mem_cons.mp hmem with heq | hmem
        · exact absurd heq (by decide)
        · exact (h.query _ hmem).1 rfl
  have hmark : '?' ∉ parts.path := fun hmem => (h.path.2 _ hmem).1 rfl
  have hpart : before '?' (parts.path ++ if parts.query = [] then [] else '?' :: parts.query) =
      parts.path ∧
      after '?' (parts.path ++ if parts.query = [] then [] else '?' :: parts.query) =
        parts.query := by
    split
    case isTrue hnil =>
      rw [List.append_nil, before_of_notMem hmark, after_of_notMem hmark, hnil]
      exact ⟨rfl, rfl⟩
    case isFalse => exact ⟨before_append hmark, after_append hmark⟩
  rw [urlsplit, hcleaned, hscheme]
  simp only [hnetloc, before_of_notMem hhash, after_of_notMem hhash, hpart.1, hpart.2]
  rw [← h.fragment]

end SplitResult.Clean

/-! ## What splitting finds -/

/-- What is known of the parts of a URL. -/
structure SplitResult.Found (checks : Checks) (parts : SplitResult) : Prop where
  valid : validNetloc checks parts.netloc = true
  scheme : (∀ c ∈ parts.scheme, c.toNat < 128) ∧ parts.scheme.map Char.toLower = parts.scheme
  netloc : ∀ c ∈ parts.netloc, isDelimiter c = false ∧ isUnsafe c = false
  path : ∀ c ∈ parts.path, c ≠ '?' ∧ c ≠ '#' ∧ isUnsafe c = false
  rooted : parts.netloc ≠ [] → parts.path = [] ∨ parts.path.head? = some '/'
  query : ∀ c ∈ parts.query, c ≠ '#' ∧ isUnsafe c = false

theorem toNat_lt_of_isSchemeChar {c : Char} (h : isSchemeChar c = true) : c.toNat < 128 := by
  delta isSchemeChar Char.isAlphanum Char.isAlpha Char.isUpper Char.isLower Char.isDigit at h
  simp only [Bool.or_eq_true, Bool.and_eq_true, decide_eq_true_eq, UInt32.le_iff_toNat_le,
    ge_iff_le] at h
  rcases h with ((((h | h) | h) | rfl) | rfl) | rfl
  · exact Nat.lt_of_le_of_lt h.2 (by decide)
  · exact Nat.lt_of_le_of_lt h.2 (by decide)
  · exact Nat.lt_of_le_of_lt h.2 (by decide)
  · decide
  · decide
  · decide

theorem toLower_ascii : ∀ n < 128, (Char.ofNat n).toLower.toNat < 128 ∧
    (Char.ofNat n).toLower.toLower = (Char.ofNat n).toLower := by
  decide +kernel

/-- A scheme is ASCII and in lower case. -/
theorem takeScheme_spec (url : List Char) : ((∀ c ∈ (takeScheme url).1, c.toNat < 128) ∧
      (takeScheme url).1.map Char.toLower = (takeScheme url).1) ∧
    ∀ c ∈ (takeScheme url).2, c ∈ url := by
  rw [takeScheme]
  split
  case isTrue h =>
    have hlower : ∀ c ∈ before ':' url, c.toLower.toNat < 128 ∧ c.toLower.toLower = c.toLower := by
      intro c hc
      have hc := toLower_ascii _ (toNat_lt_of_isSchemeChar (List.all_eq_true.mp h.2.2 c hc))
      rwa [Char.ofNat_toNat] at hc
    refine ⟨⟨fun c hc => ?_, ?_⟩, fun c => mem_of_mem_after⟩
    · obtain ⟨d, hd, rfl⟩ := List.mem_map.mp hc
      exact (hlower d hd).1
    · rw [List.map_map]
      exact List.map_congr_left fun c hc => (hlower c hc).2
  case isFalse => exact ⟨⟨List.forall_mem_nil _, rfl⟩, fun c hc => hc⟩

theorem takeNetloc_spec (url : List Char) : (∀ c ∈ (takeNetloc url).1, isDelimiter c = false ∧ c ∈ url) ∧
    (∀ c ∈ (takeNetloc url).2, c ∈ url) ∧
      ((takeNetloc url).1 ≠ [] → ∀ c ∈ (takeNetloc url).2.head?, isDelimiter c = true) := by
  rw [takeNetloc]
  split
  · refine ⟨fun c hc => ⟨?_, ?_⟩, fun c hc => ?_, fun _ c hc => ?_⟩
    · have := List.mem_takeWhile_imp hc
      rwa [Bool.not_eq_true'] at this
    · exact (List.drop_sublist 2 _).subset ((List.takeWhile_sublist _).subset hc)
    · exact (List.drop_sublist 2 _).subset ((List.dropWhile_sublist _).subset hc)
    · have := List.head?_dropWhile_not (!isDelimiter ·) (url.drop 2)
      rw [Option.mem_def] at hc
      rw [hc] at this
      simpa using this
  · exact ⟨List.forall_mem_nil _, fun c hc => hc, fun h => absurd rfl h⟩

theorem urlsplit_found {checks : Checks} {url : List Char} {parts : SplitResult}
    (h : urlsplit checks url = some parts) : parts.Found checks := by
  have hcleaned : ∀ c ∈ cleaned url, isUnsafe c = false := fun c hc => by
    have := (List.mem_filter.mp hc).2
    rwa [Bool.not_eq_true'] at this
  rw [urlsplit] at h
  obtain ⟨hscheme, hrest⟩ := takeScheme_spec (cleaned url)
  obtain ⟨hnetloc, hbehind, hrooted⟩ := takeNetloc_spec (takeScheme (cleaned url)).2
  simp only at h
  split at h
  case isFalse => exact nomatch h
  case isTrue hvalid =>
    obtain rfl := Option.some.inj h
    have hsafe : ∀ c ∈ (takeNetloc (takeScheme (cleaned url)).2).2, isUnsafe c = false :=
      fun c hc => hcleaned c (hrest c (hbehind c hc))
    refine ⟨hvalid, hscheme, fun c hc => ⟨(hnetloc c hc).1, hcleaned c (hrest c (hnetloc c hc).2)⟩,
      fun c hc => ⟨?_, ?_, hsafe c (mem_of_mem_before (mem_of_mem_before hc))⟩, fun hne => ?_,
      fun c hc => ⟨?_, hsafe c (mem_of_mem_before (mem_of_mem_after hc))⟩⟩
    · rintro rfl
      exact notMem_before hc
    · rintro rfl
      exact notMem_before (mem_of_mem_before hc)
    · have hhead := hrooted hne
      generalize (takeNetloc (takeScheme (cleaned url)).2).2 = rest at hhead
      cases rest with
      | nil => exact .inl rfl
      | cons c rest =>
        have hc := hhead c rfl
        simp only [isDelimiter, Bool.or_eq_true, decide_eq_true_eq] at hc
        rcases hc with (rfl | rfl) | rfl
        · exact .inr rfl
        · exact .inl rfl
        · exact .inl rfl
    · rintro rfl
      exact notMem_before (mem_of_mem_after hc)

/-! ## Queries -/

theorem notMem_quotePlus {c : Char} (hc : Percent.isQuoted c = false) (cs : List Char) :
    c ∉ Percent.quotePlus cs := fun h => by
  rw [Percent.isQuoted_quotePlus h] at hc
  exact Bool.noConfusion hc

/-- **An encoded query has the fields it was made of.** -/
theorem fields_urlencode (pairs : List (List Char × List Char)) : fields (urlencode pairs) =
    pairs.map fun (k, v) => (Percent.quotePlus k, Percent.quotePlus v) := by
  by_cases hnil : pairs = []
  · subst hnil
    rfl
  · have hamp : ∀ l ∈ pairs.map fun (k, v) => Percent.quotePlus k ++ '=' :: Percent.quotePlus v,
        '&' ∉ l := by
      intro l hl hmem
      obtain ⟨⟨k, v⟩, -, rfl⟩ := List.mem_map.mp hl
      rcases List.mem_append.mp hmem with hk | hv
      · exact notMem_quotePlus (by decide) k hk
      · rcases List.mem_cons.mp hv with heq | hv
        · exact absurd heq (by decide)
        · exact notMem_quotePlus (by decide) v hv
    rw [fields, urlencode, List.splitOn_intercalate _ hamp (by simpa using hnil),
      List.filter_eq_self.mpr, List.map_map]
    · refine List.map_congr_left fun (k, v) _ => ?_
      have hequals : '=' ∉ Percent.quotePlus k := notMem_quotePlus (by decide) k
      exact Prod.ext (before_append hequals) (after_append hequals)
    · intro l hl
      obtain ⟨⟨k, v⟩, -, rfl⟩ := List.mem_map.mp hl
      simp

/-- A character of an encoded query. -/
def isFormChar (c : Char) : Bool := Percent.isQuoted c || c = '&' || c = '='

theorem mem_intercalate {sep : List Char} {texts : List (List Char)} {c : Char}
    (h : c ∈ sep.intercalate texts) : c ∈ sep ∨ ∃ l ∈ texts, c ∈ l := by
  induction texts with
  | nil => exact absurd h List.not_mem_nil
  | cons l texts ih =>
    cases texts with
    | nil =>
      refine .inr ⟨l, List.mem_cons_self, ?_⟩
      simpa [List.intercalate] using h
    | cons m texts =>
      rw [List.intercalate_cons_cons, List.append_assoc, List.mem_append, List.mem_append] at h
      rcases h with h | h | h
      · exact .inr ⟨l, List.mem_cons_self, h⟩
      · exact .inl h
      · exact (ih h).imp_right fun ⟨n, hn, hc⟩ => ⟨n, List.mem_cons_of_mem _ hn, hc⟩

theorem isFormChar_urlencode {pairs : List (List Char × List Char)} {c : Char}
    (h : c ∈ urlencode pairs) : isFormChar c = true := by
  rcases mem_intercalate h with h | ⟨l, hl, h⟩
  · obtain rfl := List.mem_singleton.mp h
    decide
  · obtain ⟨⟨k, v⟩, -, rfl⟩ := List.mem_map.mp hl
    rcases List.mem_append.mp h with h | h
    · simp [isFormChar, Percent.isQuoted_quotePlus h]
    · rcases List.mem_cons.mp h with rfl | h
      · decide
      · simp [isFormChar, Percent.isQuoted_quotePlus h]

theorem toNat_lt_of_isFormChar {c : Char} (h : isFormChar c = true) : c.toNat < 128 := by
  simp only [isFormChar, Percent.isQuoted, Percent.isSafe, Bool.or_eq_true, Bool.and_eq_true,
    decide_eq_true_eq] at h
  rcases h with (((h | rfl) | rfl) | rfl) | rfl
  · omega
  · decide
  · decide
  · decide
  · decide

theorem urlencode_eq_nil_iff {pairs : List (List Char × List Char)} :
    urlencode pairs = [] ↔ pairs = [] := by
  constructor
  · intro h
    have hfields := fields_urlencode pairs
    rw [h] at hfields
    exact List.map_eq_nil_iff.mp hfields.symm
  · rintro rfl
    rfl

end Sana.Lib.Url
