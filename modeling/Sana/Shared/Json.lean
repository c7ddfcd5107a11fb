import Mathlib.Data.Rat.Defs
import Mathlib.Tactic
import Sana.Shared.Basic

/-!
# Spans of text, identifiers read from text, and JSON values

Model replies and artifacts reach the modelled functions as decoded JSON. What a
reply's text is does not matter beyond the value it decodes to: a text that does
not decode is a failed call. Positions in a text count code points, as the
source's slices do.
-/

namespace Sana

/-! ## Spans -/

namespace Text

/-- `s[start:end]` for offsets that are not negative. -/
def slice (s : String) (start stop : Nat) : String :=
  String.ofList ((s.toList.take stop).drop start)

/-- The first position at which `sub` occurs, on code points. -/
def indexChars (sub : List Char) : List Char → Option Nat
  | [] => if sub.isEmpty then some 0 else none
  | c :: cs =>
      if sub.isPrefixOf (c :: cs) then some 0 else (indexChars sub cs).map (· + 1)

/-- `s.index(sub)`, `none` where Python raises. -/
def index (s sub : String) : Option Nat := indexChars sub.toList s.toList

/-- `sub in s`. -/
def contains (s sub : String) : Bool := (index s sub).isSome

/-- `s.replace(old, new)` on code points; `skip` counts what is left of a match. -/
def replaceChars (old new : List Char) : Nat → List Char → List Char
  | _, [] => []
  | skip + 1, _ :: cs => replaceChars old new skip cs
  | 0, c :: cs =>
      if old.isPrefixOf (c :: cs) then new ++ replaceChars old new (old.length - 1) cs
      else c :: replaceChars old new 0 cs

/-- `s.replace(old, new)`, where `old` is not empty. -/
def replace (s old new : String) : String :=
  String.ofList (replaceChars old.toList new.toList 0 s.toList)

/-- A slice is as long as the offsets say, if the text is long enough. -/
theorem length_slice_le (s : String) (a b : Nat) : (slice s a b).length ≤ b - a := by
  rw [slice, String.length_ofList, List.length_drop, List.length_take]
  omega

/-- Nothing is replaced in a text that never shows the first code point of `old`. -/
theorem replaceChars_of_notMem {c : Char} {cs new l : List Char} (h : c ∉ l) :
    replaceChars (c :: cs) new 0 l = l := by
  induction l with
  | nil => rfl
  | cons x l ih =>
      rw [List.mem_cons, not_or] at h
      have hx : (c :: cs).isPrefixOf (x :: l) = false := by
        simp [List.isPrefixOf, h.1]
      rw [replaceChars, hx, ih h.2]
      simp

end Text

/-! ## Identifiers -/

namespace Uuid

/-- The value of a hexadecimal digit, of either case. -/
def hexValue (c : Char) : Option Nat :=
  let n := c.toNat
  if 48 ≤ n ∧ n ≤ 57 then some (n - 48)
  else if 97 ≤ n ∧ n ≤ 102 then some (n - 87)
  else if 65 ≤ n ∧ n ≤ 70 then some (n - 55)
  else none

/--
The digits of `int(text, 16)`: single underscores may stand between them. The
flag says whether an underscore, or the end, may come next.
-/
def hexNumber : Bool → Nat → List Char → Option Nat
  | afterDigit, acc, [] => if afterDigit then some acc else none
  | afterDigit, acc, c :: cs =>
      match hexValue c with
      | some d => hexNumber true (16 * acc + d) cs
      | none => if c = '_' ∧ afterDigit then hexNumber false acc cs else none

/-- `int(text, 16)`: blanks around it, a sign and the base's mark are read too. -/
def hexInt (l : List Char) : Option Int :=
  let unsigned : List Char → Option Nat
    | '0' :: 'x' :: '_' :: cs => hexNumber false 0 cs
    | '0' :: 'X' :: '_' :: cs => hexNumber false 0 cs
    | '0' :: 'x' :: cs => hexNumber false 0 cs
    | '0' :: 'X' :: cs => hexNumber false 0 cs
    | cs => hexNumber false 0 cs
  match Text.stripChars l with
  | '-' :: cs => (unsigned cs).map fun n => -Int.ofNat n
  | '+' :: cs => (unsigned cs).map Int.ofNat
  | cs => (unsigned cs).map Int.ofNat

/-- A code point `strip("{}")` removes. -/
def isBrace (c : Char) : Bool := c = '\x7b' || c = '\x7d'

/-- The 32 digits `UUID(text)` reads, on code points. -/
def parseDigits (l : List Char) : List Char :=
  let l := Text.replaceChars "urn:".toList [] 0 l
  let l := Text.replaceChars "uuid:".toList [] 0 l
  let l := ((l.dropWhile isBrace).reverse.dropWhile isBrace).reverse
  Text.replaceChars ['-'] [] 0 l

/-- `UUID(text)`, `none` where Python raises `ValueError`. -/
def parse (s : String) : Option Uuid :=
  let hex := parseDigits s.toList
  if hex.length ≠ 32 then none
  else match hexInt hex with
    | some (.ofNat n) => if n < 2 ^ 128 then some ⟨BitVec.ofNat 128 n⟩ else none
    | _ => none

/-! ### `UUID(str(uuid))` is `uuid` -/

theorem hexValue_hexDigit : ∀ n < 16, hexValue (hexDigit n) = some n := by decide

/-- A digit is none of the marks the parser treats specially. -/
theorem not_special {c : Char} (h : (hexValue c).isSome = true) :
    c ≠ 'u' ∧ c ≠ '-' ∧ c ≠ '+' ∧ c ≠ 'x' ∧ c ≠ 'X' ∧ isBrace c = false
      ∧ Text.isSpace c = false := by
  have hn : 48 ≤ c.toNat ∧ c.toNat ≤ 57 ∨ 97 ≤ c.toNat ∧ c.toNat ≤ 102
      ∨ 65 ≤ c.toNat ∧ c.toNat ≤ 70 := by
    unfold hexValue at h
    by_contra hno
    simp only [not_or] at hno
    simp [hno.1, hno.2.1, hno.2.2] at h
  have ne : ∀ d : Char, (¬(48 ≤ d.toNat ∧ d.toNat ≤ 57) ∧ ¬(97 ≤ d.toNat ∧ d.toNat ≤ 102)
      ∧ ¬(65 ≤ d.toNat ∧ d.toNat ≤ 70)) → c ≠ d := by
    intro d hd hcd
    subst hcd
    omega
  refine ⟨ne _ (by decide), ne _ (by decide), ne _ (by decide), ne _ (by decide),
    ne _ (by decide), ?_, ?_⟩
  · simp [isBrace, ne '\x7b' (by decide), ne '\x7d' (by decide)]
  · simp only [Text.isSpace, Bool.or_eq_false_iff, Bool.and_eq_false_iff, decide_eq_false_iff_not,
      beq_eq_false_iff_ne]
    omega

/-- Removing the dashes is filtering them out. -/
theorem replaceChars_dash (l : List Char) :
    Text.replaceChars ['-'] [] 0 l = l.filter (· ≠ '-') := by
  induction l with
  | nil => rfl
  | cons c l ih =>
      by_cases hc : c = '-'
      · subst hc
        rw [Text.replaceChars]
        simpa [List.isPrefixOf] using ih
      · have hp : ['-'].isPrefixOf (c :: l) = false := by
          simp [List.isPrefixOf, Ne.symm hc]
        rw [Text.replaceChars, hp, List.filter_cons_of_pos (by simpa using hc), ← ih]
        simp

/-- Nothing is trimmed off a text without any of the code points to trim. -/
theorem trim_of_forall {p : Char → Bool} {l : List Char} (h : ∀ c ∈ l, p c = false) :
    ((l.dropWhile p).reverse.dropWhile p).reverse = l := by
  have keep : ∀ m : List Char, (∀ c ∈ m, p c = false) → m.dropWhile p = m := by
    intro m hm
    cases m with
    | nil => rfl
    | cons c m => rw [List.dropWhile_cons_of_neg]; simp [hm c List.mem_cons_self]
  rw [keep l h, keep l.reverse (by simpa using h), List.reverse_reverse]

/-- A text of digits is read digit by digit. -/
theorem hexInt_of_digits {l : List Char} (h : ∀ c ∈ l, (hexValue c).isSome = true) :
    hexInt l = (hexNumber false 0 l).map Int.ofNat := by
  have hstrip : Text.stripChars l = l :=
    trim_of_forall fun c hc => (not_special (h c hc)).2.2.2.2.2.2
  unfold hexInt
  rw [hstrip]
  cases l with
  | nil => rfl
  | cons c l =>
      obtain ⟨-, hdash, hplus, -⟩ := not_special (h c List.mem_cons_self)
      cases l with
      | nil => simp [hdash, hplus]
      | cons d l =>
          obtain ⟨-, -, -, hx, hX, -⟩ := not_special (h d (by simp))
          simp [hdash, hplus, hx, hX]

/-- Reading digits is Horner's rule. -/
theorem hexNumber_map {ns : List Nat} (h : ∀ n ∈ ns, n < 16) (acc : Nat) :
    hexNumber true acc (ns.map hexDigit) = some (ns.foldl (fun a d => 16 * a + d) acc) := by
  induction ns generalizing acc with
  | nil => rfl
  | cons n ns ih =>
      rw [List.map_cons, hexNumber, hexValue_hexDigit n (h n List.mem_cons_self), List.foldl_cons]
      exact ih (fun m hm => h m (List.mem_cons_of_mem _ hm)) _

/-- The first `k` groups of four bits are the number without its last `32 - k`. -/
theorem foldl_nibbles {n : Nat} (hn : n < 16 ^ 32) :
    ∀ k ≤ 32, ((List.range k).map fun i => (n / 16 ^ (31 - i)) % 16).foldl
      (fun a d => 16 * a + d) 0 = n / 16 ^ (32 - k) := by
  intro k
  induction k with
  | zero =>
      intro _
      rw [Nat.sub_zero, Nat.div_eq_of_lt hn]
      rfl
  | succ k ih =>
      intro hk
      have hpow : 16 ^ (32 - k) = 16 ^ (31 - k) * 16 := by
        rw [← pow_succ]
        congr 1
        omega
      have hk' : 32 - (k + 1) = 31 - k := by omega
      rw [List.range_succ, List.map_append, List.foldl_append, ih (by omega), hk', hpow,
        ← Nat.div_div_eq_div_mul]
      simp only [List.map_cons, List.map_nil, List.foldl_cons, List.foldl_nil]
      omega

/-- The digits of an identifier, most significant first. -/
def digits (u : Uuid) : List Char := ((List.range 32).map u.nibble).map hexDigit

theorem nibble_lt {u : Uuid} {n : Nat} (h : n ∈ (List.range 32).map u.nibble) : n < 16 := by
  obtain ⟨i, -, rfl⟩ := List.mem_map.mp h
  exact Nat.mod_lt _ (by decide)

theorem isSome_of_digits {u : Uuid} {c : Char} (h : c ∈ u.digits) : (hexValue c).isSome = true := by
  obtain ⟨n, hn, rfl⟩ := List.mem_map.mp h
  rw [hexValue_hexDigit n (nibble_lt hn)]
  rfl

theorem str_toList (u : Uuid) : u.str.toList =
    u.digits.take 8 ++ '-' :: (u.digits.drop 8).take 4 ++ '-' :: (u.digits.drop 12).take 4
      ++ '-' :: (u.digits.drop 16).take 4 ++ '-' :: u.digits.drop 20 := by
  rw [str, String.toList_ofList, digits, List.map_map]
  rfl

/-- Without its dashes an identifier is its digits. -/
theorem filter_str (u : Uuid) : u.str.toList.filter (· ≠ '-') = u.digits := by
  have keep : ∀ l : List Char, (∀ c ∈ l, c ∈ u.digits) → l.filter (· ≠ '-') = l := by
    intro l hl
    rw [List.filter_eq_self]
    intro c hc
    simpa using (not_special (isSome_of_digits (hl c hc))).2.1
  have hdrop : ∀ k, ∀ c ∈ u.digits.drop k, c ∈ u.digits := fun k c => List.mem_of_mem_drop
  have htake : ∀ k m, ∀ c ∈ (u.digits.drop k).take m, c ∈ u.digits :=
    fun k m c hc => hdrop k c (List.mem_of_mem_take hc)
  have hdash : ∀ l : List Char, ('-' :: l).filter (· ≠ '-') = l.filter (· ≠ '-') :=
    fun l => List.filter_cons_of_neg (by simp)
  -- put the groups together again, from the right
  have glue : ∀ k m, (u.digits.drop k).take m ++ u.digits.drop (k + m) = u.digits.drop k := by
    intro k m
    rw [← List.drop_drop, List.take_append_drop]
  rw [str_toList]
  simp only [List.append_assoc, List.cons_append, List.filter_append, hdash]
  rw [keep _ fun c hc => List.mem_of_mem_take hc, keep _ (htake 8 4), keep _ (htake 12 4), keep _ (htake 16 4),
    keep _ (hdrop 20), glue 16 4, glue 12 4, glue 8 4]
  exact List.take_append_drop 8 u.digits

theorem parseDigits_str (u : Uuid) : parseDigits u.str.toList = u.digits := by
  -- every code point is a digit or a dash
  have hall : ∀ c ∈ u.str.toList, (hexValue c).isSome = true ∨ c = '-' := by
    intro c hc
    by_cases hd : c = '-'
    · exact .inr hd
    · refine .inl (isSome_of_digits (u := u) ?_)
      rw [← filter_str]
      exact List.mem_filter.mpr ⟨hc, by simpa using hd⟩
  have hu : 'u' ∉ u.str.toList := by
    intro hc
    rcases hall _ hc with h | h
    · exact (not_special h).1 rfl
    · exact absurd h (by decide)
  have hbrace : ∀ c ∈ u.str.toList, isBrace c = false := by
    intro c hc
    rcases hall c hc with h | rfl
    · exact (not_special h).2.2.2.2.2.1
    · decide
  unfold parseDigits
  have h1 : Text.replaceChars "urn:".toList [] 0 u.str.toList = u.str.toList :=
    Text.replaceChars_of_notMem hu
  have h2 : Text.replaceChars "uuid:".toList [] 0 u.str.toList = u.str.toList :=
    Text.replaceChars_of_notMem hu
  simp only [h1, h2, trim_of_forall hbrace, replaceChars_dash, filter_str]

theorem hexNumber_digits (u : Uuid) : hexNumber false 0 u.digits = some u.bits.toNat := by
  have hn : u.bits.toNat < 16 ^ 32 := by
    have := u.bits.isLt
    norm_num at this ⊢
    exact this
  -- before the first digit the flag makes no difference
  have hfirst : ∀ l : List Char, l ≠ [] → (∀ c ∈ l, (hexValue c).isSome = true) →
      hexNumber false 0 l = hexNumber true 0 l := by
    intro l hne hl
    cases l with
    | nil => exact absurd rfl hne
    | cons c l =>
        obtain ⟨d, hd⟩ := Option.isSome_iff_exists.mp (hl c List.mem_cons_self)
        rw [hexNumber, hexNumber, hd]
  rw [hfirst u.digits (by simp [digits]) fun c hc => isSome_of_digits hc, digits,
    hexNumber_map fun n h => nibble_lt h]
  have hfold := foldl_nibbles hn 32 (le_refl _)
  rw [Nat.sub_self, pow_zero, Nat.div_one] at hfold
  exact congrArg some hfold

/-- **An identifier reads back from the text it was written as.** -/
theorem parse_str (u : Uuid) : parse u.str = some u := by
  have hlen : u.digits.length = 32 := by simp [digits]
  have hint : hexInt u.digits = some (Int.ofNat u.bits.toNat) := by
    rw [hexInt_of_digits fun c hc => isSome_of_digits hc, hexNumber_digits]
    rfl
  unfold parse
  simp only [parseDigits_str, hlen, hint]
  rw [if_neg (by simp), if_pos u.bits.isLt, BitVec.ofNat_toNat, BitVec.setWidth_eq]

end Uuid

/-! ## JSON -/

/-- A decoded JSON value. An object's keys are distinct: the decoder keeps the last of equal ones. -/
inductive Json
  | null
  | bool (value : Bool)
  | number (value : Rat)
  | str (value : String)
  | arr (items : List Json)
  | obj (members : List (String × Json))

/-- The standard library's conversions, printed forms and digests. -/
structure Builtins where
  /-- `str(value)` of a value that is no string. -/
  strOf : Json → String
  /-- `float(text)`, `none` where it raises or the number is not finite. -/
  floatOf : String → Option Rat
  /-- `text.lower()`. -/
  lower : String → String
  /-- `time.isoformat()` and `datetime.fromisoformat(text)`. -/
  isoformat : Time → String
  fromisoformat : String → Option Time
  /-- `uuid.uuid5`. -/
  uuid5 : Uuid → String → Uuid
  /-- Hex digest of a text's UTF-8 bytes. -/
  sha256 : String → String

namespace Json

/-- `value[key]`, where `value` should be an object. -/
def member (key : String) : Json → Except Exn Json
  | .obj members =>
      match members.find? (·.1 = key) with
      | some m => .ok m.2
      | none => .error (.keyError key)
  | _ => .error (.typeError "object is not subscriptable")

/-- `str(value)`. -/
def text (b : Builtins) : Json → String
  | .str s => s
  | v => b.strOf v

/-- `UUID(str(value))`. -/
def uuid (b : Builtins) (v : Json) : Except Exn Uuid :=
  match Uuid.parse (v.text b) with
  | some u => .ok u
  | none => .error (.valueError "badly formed hexadecimal UUID string")

/-- `float(value)`. -/
def float (b : Builtins) : Json → Except Exn Rat
  | .number q => .ok q
  | .bool v => .ok (if v then 1 else 0)
  | .str s =>
      match b.floatOf s with
      | some q => .ok q
      | none => .error (.valueError "could not convert string to float")
  | _ => .error (.typeError "float() argument must be a string or a real number")

/-- What iterating over a value yields: the items, the code points or the keys. -/
def items : Json → Except Exn (List Json)
  | .arr l => .ok l
  | .str s => .ok (s.toList.map fun c => .str (String.ofList [c]))
  | .obj members => .ok (members.map fun m => .str m.1)
  | _ => .error (.typeError "object is not iterable")

end Json

end Sana
