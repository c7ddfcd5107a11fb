import Mathlib.Data.List.Basic
import Mathlib.Data.List.TakeWhile
import Sana.Lib.Transition

/-!
# JSON as text

Values are written compactly and without escaping more than the grammar asks for; the reader
takes any JSON text. How numbers with a fraction or an exponent are written and read, what
becomes of the constants that JSON does not have, and what an object is made of is left to
the parameters of both. The main result is that what was written is read again
(`loads_dumps`), and it says exactly which code points a written text has (`mem_dumps`).

A reader needs fuel only to be defined: twice the length of the text is enough for what the
writer wrote.
-/

namespace Sana.Lib.JsonText

/-- A JSON value; its numbers with a fraction or an exponent are of type `δ`. -/
inductive Value (δ : Type)
  | null
  | bool (b : Bool)
  | int (n : Int)
  | real (x : δ)
  | str (s : String)
  | arr (items : List (Value δ))
  | obj (members : List (String × Value δ))

variable {δ ε : Type}

/-! ## Writing -/

/-- What a code point is written as inside a string. -/
def escape (c : Char) : List Char :=
  if c = '"' then ['\\', '"']
  else if c = '\\' then ['\\', '\\']
  else if c = '\n' then ['\\', 'n']
  else if c = '\r' then ['\\', 'r']
  else if c = '\t' then ['\\', 't']
  else if c.toNat = 8 then ['\\', 'b']
  else if c.toNat = 12 then ['\\', 'f']
  else if c.toNat < 32 then
    ['\\', 'u', '0', '0', Nat.digitChar (c.toNat / 16), Nat.digitChar (c.toNat % 16)]
  else [c]

/-- A string in its quotes. -/
def quote (s : String) : List Char := '"' :: (s.toList.flatMap escape ++ ['"'])

/-- The digits of a number, and its sign. -/
def intText (n : Int) : List Char :=
  if n < 0 then '-' :: Nat.toDigits 10 n.natAbs else Nat.toDigits 10 n.natAbs

mutual

/-- `json.dumps` with compact separators; `p` writes the numbers of type `δ`. -/
def dumps (p : δ → List Char) : Value δ → List Char
  | .null => ['n', 'u', 'l', 'l']
  | .bool true => ['t', 'r', 'u', 'e']
  | .bool false => ['f', 'a', 'l', 's', 'e']
  | .int n => intText n
  | .real x => p x
  | .str s => quote s
  | .arr [] => ['[', ']']
  | .arr (v :: vs) => '[' :: (dumps p v ++ dumpsItems p vs)
  | .obj [] => ['\x7b', '\x7d']
  | .obj ((k, v) :: ms) => '\x7b' :: (quote k ++ ':' :: (dumps p v ++ dumpsMembers p ms))

/-- The items of an array after the first, and its end. -/
def dumpsItems (p : δ → List Char) : List (Value δ) → List Char
  | [] => [']']
  | v :: vs => ',' :: (dumps p v ++ dumpsItems p vs)

/-- The members of an object after the first, and its end. -/
def dumpsMembers (p : δ → List Char) : List (String × Value δ) → List Char
  | [] => ['\x7d']
  | (k, v) :: ms => ',' :: (quote k ++ ':' :: (dumps p v ++ dumpsMembers p ms))

end

/-! ## Reading strings and numbers -/

/-- A blank between two tokens. -/
def isBlank (c : Char) : Bool := c = ' ' || c = '\t' || c = '\n' || c = '\r'

/-- Blanks are passed over. -/
def skip (cs : List Char) : List Char := cs.dropWhile isBlank

/-- The value of a hexadecimal digit. -/
def hexValue (c : Char) : Option Nat :=
  let n := c.toNat
  if 48 ≤ n ∧ n ≤ 57 then some (n - 48)
  else if 97 ≤ n ∧ n ≤ 102 then some (n - 87)
  else if 65 ≤ n ∧ n ≤ 70 then some (n - 55)
  else none

/-- The number four hexadecimal digits stand for, and what follows. -/
def hex4 : List Char → Option (Nat × List Char)
  | a :: b :: c :: d :: rest => do
      let w ← hexValue a
      let x ← hexValue b
      let y ← hexValue c
      let z ← hexValue d
      return (((w * 16 + x) * 16 + y) * 16 + z, rest)
  | _ => none

/--
The code point after `\u`, and what follows. Two surrogates are one code point; a surrogate
on its own is none.
-/
def unicodeEscape (cs : List Char) : Option (Char × List Char) := do
  let (high, rest) ← hex4 cs
  if 0xD800 ≤ high ∧ high < 0xDC00 then
    match rest with
    | '\\' :: 'u' :: cs =>
        let (low, rest) ← hex4 cs
        if 0xDC00 ≤ low ∧ low < 0xE000 then
          return (Char.ofNat (0x10000 + (high - 0xD800) * 0x400 + (low - 0xDC00)), rest)
        none
    | _ => none
  else if 0xDC00 ≤ high ∧ high < 0xE000 then none
  else return (Char.ofNat high, rest)

/-- The code points that stand for another one after a backslash. -/
def simpleEscape (c : Char) : Option Char :=
  if c = '"' then some '"'
  else if c = '\\' then some '\\'
  else if c = '/' then some '/'
  else if c = 'b' then some '\x08'
  else if c = 'f' then some '\x0c'
  else if c = 'n' then some '\n'
  else if c = 'r' then some '\r'
  else if c = 't' then some '\t'
  else none

/-- The next code point of a string: `none` inside stands for the closing quote. -/
def nextChar : List Char → Option (Option Char × List Char)
  | [] => none
  | c :: cs =>
      if c = '"' then some (none, cs)
      else if c = '\\' then
        match cs with
        | [] => none
        | d :: cs =>
            if d = 'u' then (unicodeEscape cs).map fun x => (some x.1, x.2)
            else (simpleEscape d).map fun c => (some c, cs)
      else if c.toNat < 32 then none
      else some (some c, cs)

/-- The rest of a string after its opening quote, and what follows. -/
def stringBody : Nat → List Char → Option (List Char × List Char)
  | 0, _ => none
  | n + 1, cs =>
      match nextChar cs with
      | none => none
      | some (none, rest) => some ([], rest)
      | some (some c, rest) => (stringBody n rest).map fun x => (c :: x.1, x.2)

/-- A decimal digit. -/
def isDigit (c : Char) : Bool := c.isDigit

/-- `(?:0|[1-9]\d*)`, as much of it as is there. -/
def wholePart (cs : List Char) : List Char :=
  match cs with
  | '0' :: _ => ['0']
  | cs => cs.takeWhile isDigit

/-- `(\.\d+)?`. -/
def fraction (cs : List Char) : List Char :=
  match cs with
  | '.' :: cs => if cs.takeWhile isDigit = [] then [] else '.' :: cs.takeWhile isDigit
  | _ => []

/-- A sign. -/
def sign (cs : List Char) : List Char :=
  match cs with
  | '-' :: _ => ['-']
  | '+' :: _ => ['+']
  | _ => []

/-- `([eE][-+]?\d+)?`. -/
def exponent (cs : List Char) : List Char :=
  match cs with
  | [] => []
  | e :: cs =>
      let digits := (cs.drop (sign cs).length).takeWhile isDigit
      if (e = 'e' ∨ e = 'E') ∧ digits ≠ [] then e :: (sign cs ++ digits) else []

/-- A number as it is written: its sign, its digits, and its fraction and exponent. -/
structure Numeral where
  negative : Bool
  whole : List Char
  tail : List Char
deriving DecidableEq, Repr

/-- The text of a numeral. -/
def Numeral.text (m : Numeral) : List Char :=
  (if m.negative then ['-'] else []) ++ m.whole ++ m.tail

/-- The numeral at the start of a text, and what follows. -/
def numeral (cs : List Char) : Option (Numeral × List Char) :=
  let negative := cs.head? = some '-'
  let cs := if negative then cs.drop 1 else cs
  let whole := wholePart cs
  if whole = [] then none
  else
    let afterWhole := cs.drop whole.length
    let frac := fraction afterWhole
    let afterFrac := afterWhole.drop frac.length
    let exp := exponent afterFrac
    some (⟨negative, whole, frac ++ exp⟩, afterFrac.drop exp.length)

/-- The integer a numeral without a fraction and an exponent stands for. -/
def Numeral.int (m : Numeral) : Int :=
  if m.negative then -(Nat.ofDigitChars 10 m.whole 0 : Int) else Nat.ofDigitChars 10 m.whole 0

/-! ## Reading values -/

/-- What a reader is told: how it fails, and what it makes of reals, constants and objects. -/
structure Decoder (ε δ : Type) where
  /-- `JSONDecodeError`. -/
  malformed : ε
  /-- `parse_float`. -/
  real : List Char → Except ε δ
  /-- `parse_constant`. -/
  constant : String → Except ε (Value δ)
  /-- `object_pairs_hook`. -/
  object : List (String × Value δ) → Except ε (List (String × Value δ))

namespace Decoder

variable (d : Decoder ε δ)

/-- A result that may be missing; then the text is malformed. -/
def expect {α : Type} (x : Option α) : Except ε α := x.elim (.error d.malformed) .ok

/-- A string after its opening quote. -/
def string (cs : List Char) : Except ε (String × List Char) := do
  let (s, rest) ← d.expect (stringBody (cs.length + 1) cs)
  return (String.ofList s, rest)

/-- A number. -/
def number (cs : List Char) : Except ε (Value δ × List Char) := do
  let (m, rest) ← d.expect (numeral cs)
  if m.tail = [] then
    return (.int m.int, rest)
  let x ← d.real m.text
  return (.real x, rest)

/-- A value that is no string, array or object. -/
def scalar (cs : List Char) : Except ε (Value δ × List Char) :=
  let word (w : String) (v : Except ε (Value δ)) := v.map fun v => (v, cs.drop w.length)
  if "null".toList <+: cs then word "null" (.ok .null)
  else if "true".toList <+: cs then word "true" (.ok (.bool true))
  else if "false".toList <+: cs then word "false" (.ok (.bool false))
  else if "NaN".toList <+: cs then word "NaN" (d.constant "NaN")
  else if "Infinity".toList <+: cs then word "Infinity" (d.constant "Infinity")
  else if "-Infinity".toList <+: cs then word "-Infinity" (d.constant "-Infinity")
  else d.number cs

mutual

/-- The value at the start of a text, and what follows. -/
def value : Nat → List Char → Except ε (Value δ × List Char)
  | 0, _ => .error d.malformed
  | _ + 1, [] => .error d.malformed
  | n + 1, c :: cs =>
      if c = '"' then do
        let (s, rest) ← d.string cs
        return (.str s, rest)
      else if c = '[' then
        if (skip cs).head? = some ']' then .ok (.arr [], (skip cs).tail)
        else do
          let (v, rest) ← value n (skip cs)
          let (vs, rest) ← items n (skip rest)
          return (.arr (v :: vs), rest)
      else if c = '\x7b' then
        if (skip cs).head? = some '\x7d' then do
          let ms ← d.object []
          return (.obj ms, (skip cs).tail)
        else do
          let (m, rest) ← member n (skip cs)
          let (ms, rest) ← members n (skip rest)
          let ms ← d.object (m :: ms)
          return (.obj ms, rest)
      else d.scalar (c :: cs)

/-- The items of an array after the first, up to its end. -/
def items : Nat → List Char → Except ε (List (Value δ) × List Char)
  | 0, _ => .error d.malformed
  | _ + 1, [] => .error d.malformed
  | n + 1, c :: cs =>
      if c = ']' then .ok ([], cs)
      else if c = ',' then do
        let (v, rest) ← value n (skip cs)
        let (vs, rest) ← items n (skip rest)
        return (v :: vs, rest)
      else .error d.malformed

/-- A member of an object. -/
def member : Nat → List Char → Except ε ((String × Value δ) × List Char)
  | 0, _ => .error d.malformed
  | _ + 1, [] => .error d.malformed
  | n + 1, c :: cs =>
      if c = '"' then do
        let (k, rest) ← d.string cs
        if (skip rest).head? = some ':' then do
          let (v, rest) ← value n (skip (skip rest).tail)
          return ((k, v), rest)
        else .error d.malformed
      else .error d.malformed

/-- The members of an object after the first, up to its end. -/
def members : Nat → List Char → Except ε (List (String × Value δ) × List Char)
  | 0, _ => .error d.malformed
  | _ + 1, [] => .error d.malformed
  | n + 1, c :: cs =>
      if c = '\x7d' then .ok ([], cs)
      else if c = ',' then do
        let (m, rest) ← member n (skip cs)
        let (ms, rest) ← members n (skip rest)
        return (m :: ms, rest)
      else .error d.malformed

end

/-- `json.loads`. -/
def loads (cs : List Char) : Except ε (Value δ) := do
  let (v, rest) ← d.value (2 * cs.length + 2) (skip cs)
  if skip rest = [] then return v
  .error d.malformed

end Decoder

/-! ## What is written in a string is read -/

theorem hexValue_digitChar : ∀ n < 16, hexValue (Nat.digitChar n) = some n := by decide

theorem hex4_digitChar {n : Nat} (h : n < 32) (rest : List Char) :
    hex4 ('0' :: '0' :: Nat.digitChar (n / 16) :: Nat.digitChar (n % 16) :: rest) =
      some (n, rest) := by
  have hhigh := hexValue_digitChar (n / 16) (by omega)
  have hlow := hexValue_digitChar (n % 16) (by omega)
  have hzero : hexValue '0' = some 0 := by decide
  have hn : ((0 * 16 + 0) * 16 + n / 16) * 16 + n % 16 = n := by omega
  simp only [hex4, hhigh, hlow, hzero, Option.bind_eq_bind, Option.bind_some, Option.pure_def, hn]

theorem eq_of_toNat_eq {c d : Char} (h : c.toNat = d.toNat) : c = d := by
  rw [← Char.ofNat_toNat c, ← Char.ofNat_toNat d, h]

/-- One code point is read as it was written. -/
theorem nextChar_escape (c : Char) (rest : List Char) :
    nextChar (escape c ++ rest) = some (some c, rest) := by
  unfold escape
  split
  · rename_i h
    subst h
    rfl
  split
  · rename_i h
    subst h
    rfl
  split
  · rename_i h
    subst h
    rfl
  split
  · rename_i h
    subst h
    rfl
  split
  · rename_i h
    subst h
    rfl
  split
  · rename_i h
    obtain rfl : c = '\x08' := eq_of_toNat_eq h
    rfl
  split
  · rename_i h
    obtain rfl : c = '\x0c' := eq_of_toNat_eq h
    rfl
  split
  · rename_i h
    have hhigh : ¬(0xD800 ≤ c.toNat ∧ c.toNat < 0xDC00) := by omega
    have hlow : ¬(0xDC00 ≤ c.toNat ∧ c.toNat < 0xE000) := by omega
    have hcode : unicodeEscape ('0' :: '0' :: Nat.digitChar (c.toNat / 16) ::
        Nat.digitChar (c.toNat % 16) :: rest) = some (c, rest) := by
      simp only [unicodeEscape, hex4_digitChar h, Option.bind_eq_bind, Option.bind_some,
        if_neg hhigh, if_neg hlow, Option.pure_def, Char.ofNat_toNat]
    simp only [List.cons_append, List.nil_append, nextChar, if_neg (show '\\' ≠ '"' by decide),
      if_true, hcode, Option.map_some]
  · rename_i hquote hback _ _ _ _ _ hlow
    simp only [List.cons_append, List.nil_append, nextChar, if_neg hquote, if_neg hback,
      if_neg hlow]

/-- Every code point is written as at least one. -/
theorem escape_ne_nil (c : Char) : escape c ≠ [] := by
  unfold escape
  split_ifs <;> simp

theorem length_le_flatMap_escape (s : List Char) : s.length ≤ (s.flatMap escape).length := by
  induction s with
  | nil => simp
  | cons c s ih =>
      have hpos := List.length_pos_of_ne_nil (escape_ne_nil c)
      rw [List.flatMap_cons, List.length_append, List.length_cons]
      omega

theorem stringBody_escape (s rest : List Char) {n : Nat} (hn : s.length < n) :
    stringBody n (s.flatMap escape ++ '"' :: rest) = some (s, rest) := by
  induction s generalizing n with
  | nil =>
      obtain ⟨n, rfl⟩ := Nat.exists_eq_add_of_lt hn
      rfl
  | cons c s ih =>
      cases n with
      | zero => exact absurd hn (Nat.not_lt_zero _)
      | succ n =>
          rw [List.length_cons] at hn
          rw [List.flatMap_cons, List.append_assoc, stringBody, nextChar_escape]
          simp only [ih (show s.length < n by omega), Option.map_some]

/-- **A string is read as it was written.** -/
theorem Decoder.string_quote (d : Decoder ε δ) (s : String) (rest : List Char) :
    d.string (s.toList.flatMap escape ++ '"' :: rest) = .ok (s, rest) := by
  have hlen := length_le_flatMap_escape s.toList
  have hbody := stringBody_escape s.toList rest
    (n := (s.toList.flatMap escape ++ '"' :: rest).length + 1) (by
      rw [List.length_append]
      omega)
  simp only [Decoder.string, hbody, Decoder.expect, Option.elim_some, bind, Except.bind,
    String.ofList_toList]
  rfl

/-! ## What is written as a number is read -/

/-- What follows does not go on with a number. -/
def Stops (rest : List Char) : Prop :=
  ∀ c ∈ rest.head?, isDigit c = false ∧ c ∉ ['.', 'e', 'E', '-', '+']

theorem stops_nil : Stops [] := by simp [Stops]

theorem stops_cons {c : Char} {cs : List Char} (h : c ∈ [',', ']', '\x7d', ':']) :
    Stops (c :: cs) := by
  intro x hx
  obtain rfl : c = x := by simpa using hx
  simp only [List.mem_cons, List.not_mem_nil, or_false] at h
  rcases h with rfl | rfl | rfl | rfl <;> decide

theorem Stops.digit {rest : List Char} (h : Stops rest) : ∀ c ∈ rest.head?, isDigit c = false :=
  fun c hc => (h c hc).1

theorem takeDigits_append {rest : List Char} (h : ∀ c ∈ rest.head?, isDigit c = false)
    (cs : List Char) : (cs ++ rest).takeWhile isDigit = cs.takeWhile isDigit := by
  induction cs with
  | nil =>
      cases rest with
      | nil => rfl
      | cons c rest => simp [h c (by simp)]
  | cons c cs ih =>
      by_cases hc : isDigit c = true
      · simp [hc, ih]
      · simp [hc]

theorem wholePart_append {rest : List Char} (h : ∀ c ∈ rest.head?, isDigit c = false)
    (cs : List Char) : wholePart (cs ++ rest) = wholePart cs := by
  cases cs with
  | nil =>
      have hnil := takeDigits_append h []
      cases rest with
      | nil => rfl
      | cons c rest =>
          have hc := h c (by simp)
          have hzero : c ≠ '0' := by
            rintro rfl
            exact absurd hc (by decide)
          unfold wholePart
          split
          · rename_i heq
            simp only [List.nil_append, List.cons.injEq] at heq
            exact absurd heq.1 hzero
          · exact hnil
  | cons c cs =>
      by_cases hzero : c = '0'
      · subst hzero
        rfl
      · have hcons := takeDigits_append h (c :: cs)
        unfold wholePart
        split
        · rename_i heq
          simp only [List.cons_append, List.cons.injEq] at heq
          exact absurd heq.1 hzero
        · split
          · rename_i heq
            simp only [List.cons.injEq] at heq
            exact absurd heq.1 hzero
          · exact hcons

theorem fraction_append {rest : List Char} (h : Stops rest) (cs : List Char) :
    fraction (cs ++ rest) = fraction cs := by
  cases cs with
  | nil =>
      cases rest with
      | nil => rfl
      | cons c rest =>
          have hpoint : c ≠ '.' := fun hc => (h c (by simp)).2 (by simp [hc])
          unfold fraction
          split
          · rename_i heq
            simp only [List.nil_append, List.cons.injEq] at heq
            exact absurd heq.1 hpoint
          · rfl
  | cons c cs =>
      by_cases hpoint : c = '.'
      · subst hpoint
        simp only [List.cons_append, fraction, takeDigits_append h.digit]
      · unfold fraction
        split
        · rename_i heq
          simp only [List.cons_append, List.cons.injEq] at heq
          exact absurd heq.1 hpoint
        · split
          · rename_i heq
            simp only [List.cons.injEq] at heq
            exact absurd heq.1 hpoint
          · rfl

theorem sign_append {rest : List Char} (h : Stops rest) (cs : List Char) :
    sign (cs ++ rest) = sign cs := by
  cases cs with
  | nil =>
      cases rest with
      | nil => rfl
      | cons c rest =>
          have hmarks := (h c (by simp)).2
          have hminus : c ≠ '-' := fun hc => hmarks (by simp [hc])
          have hplus : c ≠ '+' := fun hc => hmarks (by simp [hc])
          simp [sign, hminus, hplus]
  | cons c cs =>
      by_cases hminus : c = '-'
      · subst hminus
        rfl
      · by_cases hplus : c = '+'
        · subst hplus
          rfl
        · simp [sign, hminus, hplus]

theorem sign_length_le (cs : List Char) : (sign cs).length ≤ cs.length := by
  unfold sign
  split <;> simp

theorem exponent_append {rest : List Char} (h : Stops rest) (cs : List Char) :
    exponent (cs ++ rest) = exponent cs := by
  cases cs with
  | nil =>
      cases rest with
      | nil => rfl
      | cons c rest =>
          have hmarks := (h c (by simp)).2
          have he : ¬(c = 'e' ∨ c = 'E') := by
            rintro (hc | hc)
            · exact hmarks (by simp [hc])
            · exact hmarks (by simp [hc])
          simp [exponent, he]
  | cons e cs =>
      have hdrop : (cs ++ rest).drop (sign cs).length = cs.drop (sign cs).length ++ rest :=
        List.drop_append_of_le_length (sign_length_le cs)
      simp only [List.cons_append, exponent, sign_append h, hdrop, takeDigits_append h.digit]

theorem wholePart_length_le (cs : List Char) : (wholePart cs).length ≤ cs.length := by
  unfold wholePart
  split
  · simp
  · exact (List.takeWhile_sublist _).length_le

theorem fraction_length_le (cs : List Char) : (fraction cs).length ≤ cs.length := by
  unfold fraction
  split
  · rename_i cs
    have hle := (List.takeWhile_sublist isDigit (l := cs)).length_le
    split
    · simp
    · rw [List.length_cons, List.length_cons]
      omega
  · simp

theorem exponent_length_le (cs : List Char) : (exponent cs).length ≤ cs.length := by
  cases cs with
  | nil => simp [exponent]
  | cons e cs =>
      have hsign := sign_length_le cs
      have hdigits := (List.takeWhile_sublist isDigit (l := cs.drop (sign cs).length)).length_le
      rw [List.length_drop] at hdigits
      simp only [exponent]
      split
      · rw [List.length_cons, List.length_append, List.length_cons]
        omega
      · simp

/-- A numeral ends where what follows does not go on with it. -/
theorem numeral_append {rest : List Char} (h : Stops rest) (cs : List Char) :
    numeral (cs ++ rest) = (numeral cs).map fun x => (x.1, x.2 ++ rest) := by
  have hhead : (cs ++ rest).head? = some '-' ↔ cs.head? = some '-' := by
    cases cs with
    | cons c cs => simp
    | nil =>
        cases rest with
        | nil => simp
        | cons c rest =>
            have hminus : c ≠ '-' := fun hc => (h c (by simp)).2 (by simp [hc])
            simp [hminus]
  have hbody : (if (cs ++ rest).head? = some '-' then (cs ++ rest).drop 1 else cs ++ rest) =
      (if cs.head? = some '-' then cs.drop 1 else cs) ++ rest := by
    simp only [hhead]
    split
    · cases cs with
      | nil => simp at *
      | cons c cs => rfl
    · rfl
  unfold numeral
  simp only [hbody, wholePart_append h.digit]
  generalize (if cs.head? = some '-' then cs.drop 1 else cs) = body
  by_cases hwhole : wholePart body = []
  · rw [if_pos hwhole, if_pos hwhole]
    rfl
  · rw [if_neg hwhole, if_neg hwhole, List.drop_append_of_le_length (wholePart_length_le body),
      fraction_append h, List.drop_append_of_le_length (fraction_length_le _), exponent_append h,
      List.drop_append_of_le_length (exponent_length_le _)]
    simp only [hhead, Option.map_some]

/-! ### Digits -/

theorem isDigit_toDigits {n : Nat} {c : Char} (h : c ∈ Nat.toDigits 10 n) : isDigit c = true :=
  Nat.isDigit_of_mem_toDigits (by decide) (by decide) h

theorem toDigits_ne_nil (n : Nat) : Nat.toDigits 10 n ≠ [] := by
  rw [Nat.toDigits_eq_if (by decide)]
  split <;> simp

theorem takeDigits_toDigits (n : Nat) :
    (Nat.toDigits 10 n).takeWhile isDigit = Nat.toDigits 10 n :=
  List.takeWhile_eq_self_iff.mpr fun _ hc => isDigit_toDigits hc

/-- Only zero is written with a leading zero. -/
theorem wholePart_toDigits (n : Nat) : wholePart (Nat.toDigits 10 n) = Nat.toDigits 10 n := by
  have hall := takeDigits_toDigits n
  have hzero : ∀ n, n ≠ 0 → (Nat.toDigits 10 n).head? ≠ some '0' := by
    intro n
    induction n using Nat.strongRecOn with
    | ind n ih =>
        intro hn
        rw [Nat.toDigits_eq_if (by decide)]
        split
        · rename_i hlt
          have hsmall : ∀ n < 10, n ≠ 0 → [n.digitChar].head? ≠ some '0' := by decide
          exact hsmall n hlt hn
        · rename_i hge
          have hhead := ih (n / 10) (by omega) (by omega)
          rw [List.head?_append_of_ne_nil _ (toDigits_ne_nil _)]
          exact hhead
  by_cases hn : n = 0
  · subst hn
    rfl
  · have hhead := hzero n hn
    unfold wholePart
    split
    · rename_i heq
      rw [heq] at hhead
      exact absurd rfl hhead
    · exact hall

theorem head_toDigits (n : Nat) : ∃ c cs, Nat.toDigits 10 n = c :: cs ∧ isDigit c = true := by
  cases h : Nat.toDigits 10 n with
  | nil => exact absurd h (toDigits_ne_nil n)
  | cons c cs => exact ⟨c, cs, rfl, isDigit_toDigits (n := n) (by rw [h]; simp)⟩

/-- An integer is a numeral with no more than its digits. -/
theorem numeral_intText (n : Int) :
    numeral (intText n) = some (⟨decide (n < 0), Nat.toDigits 10 n.natAbs, []⟩, []) := by
  obtain ⟨c, cs, hdigits, hc⟩ := head_toDigits n.natAbs
  have hminus : c ≠ '-' := by
    rintro rfl
    exact absurd hc (by decide)
  have hwhole := wholePart_toDigits n.natAbs
  have hne := toDigits_ne_nil n.natAbs
  unfold intText numeral
  by_cases hneg : n < 0
  · rw [if_pos hneg]
    simp [hneg, hwhole, hne, fraction, exponent]
  · have hhead : (Nat.toDigits 10 n.natAbs).head? ≠ some '-' := by
      rw [hdigits]
      simpa using hminus
    rw [if_neg hneg]
    simp [hneg, hwhole, hne, hhead, fraction, exponent]

/-- An integer is an exponent. -/
theorem exponent_intText (n : Int) : exponent ('E' :: intText n) = 'E' :: intText n := by
  have hdigits := takeDigits_toDigits n.natAbs
  have hne := toDigits_ne_nil n.natAbs
  unfold exponent intText
  by_cases hneg : n < 0
  · simp [hneg, sign, hdigits, hne]
  · obtain ⟨c, cs, hcs, hc⟩ := head_toDigits n.natAbs
    have hminus : c ≠ '-' := by
      rintro rfl
      exact absurd hc (by decide)
    have hplus : c ≠ '+' := by
      rintro rfl
      exact absurd hc (by decide)
    have hsign : sign (Nat.toDigits 10 n.natAbs) = [] := by
      rw [hcs]
      simp [sign, hminus, hplus]
    simp [hneg, hsign, hdigits, hne]

/-- Two integers with an `E` between them are a numeral. -/
theorem numeral_scientific (n k : Int) : numeral (intText n ++ 'E' :: intText k) =
    some (⟨decide (n < 0), Nat.toDigits 10 n.natAbs, 'E' :: intText k⟩, []) := by
  have hwhole : wholePart (Nat.toDigits 10 n.natAbs ++ 'E' :: intText k) =
      Nat.toDigits 10 n.natAbs := by
    rw [wholePart_append (by simpa using (by decide : isDigit 'E' = false)), wholePart_toDigits]
  have hexponent := exponent_intText k
  have hne := toDigits_ne_nil n.natAbs
  have hfraction : fraction ('E' :: intText k) = [] := rfl
  unfold numeral
  by_cases hneg : n < 0
  · have htext : intText n = '-' :: Nat.toDigits 10 n.natAbs := if_pos hneg
    simp [htext, hneg, hwhole, hne, hfraction, hexponent]
  · have htext : intText n = Nat.toDigits 10 n.natAbs := if_neg hneg
    obtain ⟨c, cs, hcs, hc⟩ := head_toDigits n.natAbs
    have hminus : c ≠ '-' := by
      rintro rfl
      exact absurd hc (by decide)
    have hhead : ¬(Nat.toDigits 10 n.natAbs).head?.getD 'E' = '-' := by
      rw [hcs]
      exact hminus
    simp [htext, hneg, hhead, hwhole, hne, hfraction, hexponent]

/-! ## What is written is read -/

mutual

/-- No object has two members of one name, at any depth. -/
def Value.Distinct : Value δ → Prop
  | .arr items => DistinctItems items
  | .obj members => (members.map (·.1)).Nodup ∧ DistinctMembers members
  | .null | .bool _ | .int _ | .real _ | .str _ => True

def DistinctItems : List (Value δ) → Prop
  | [] => True
  | v :: vs => v.Distinct ∧ DistinctItems vs

def DistinctMembers : List (String × Value δ) → Prop
  | [] => True
  | (_, v) :: ms => v.Distinct ∧ DistinctMembers ms

end

/--
A reader and a writer of reals that belong together: a real is written as a numeral with a
fraction or an exponent and read back from it, and objects without doubled names are kept.
-/
structure Codec (p : δ → List Char) (d : Decoder ε δ) : Prop where
  token : ∀ x, ∃ m, numeral (p x) = some (m, []) ∧ m.tail ≠ [] ∧ m.text = p x
  real : ∀ x, d.real (p x) = .ok x
  object : ∀ ms : List (String × Value δ), (ms.map (·.1)).Nodup → d.object ms = .ok ms

mutual

/-- How much fuel it takes to read what is written. -/
def Value.size : Value δ → Nat
  | .arr (v :: vs) => v.size + sizeItems vs + 1
  | .obj ((_, v) :: ms) => v.size + sizeMembers ms + 2
  | .arr [] | .obj [] | .null | .bool _ | .int _ | .real _ | .str _ => 1

def sizeItems : List (Value δ) → Nat
  | [] => 1
  | v :: vs => v.size + sizeItems vs + 1

def sizeMembers : List (String × Value δ) → Nat
  | [] => 1
  | (_, v) :: ms => v.size + sizeMembers ms + 2

end

theorem Value.size_pos (v : Value δ) : 0 < v.size := by
  cases v with
  | arr items => cases items <;> simp [Value.size]
  | obj members => cases members <;> simp [Value.size]
  | _ => simp [Value.size]

theorem sizeItems_pos (vs : List (Value δ)) : 0 < sizeItems vs := by
  cases vs <;> simp [sizeItems]

theorem sizeMembers_pos (ms : List (String × Value δ)) : 0 < sizeMembers ms := by
  cases ms <;> simp [sizeMembers]

section RoundTrip

variable {p : δ → List Char} {d : Decoder ε δ}

theorem numeral_head {cs : List Char} {x : Numeral × List Char} (h : numeral cs = some x) :
    ∃ c rest, cs = c :: rest ∧ (c = '-' ∨ isDigit c = true) := by
  cases cs with
  | nil => simp [numeral, wholePart] at h
  | cons c rest =>
      refine ⟨c, rest, rfl, ?_⟩
      by_cases hminus : c = '-'
      · exact .inl hminus
      · right
        by_contra hdigit
        have hzero : c ≠ '0' := by
          rintro rfl
          exact hdigit (by decide)
        simp [numeral, hminus, wholePart, hzero, hdigit] at h

/-- What a number begins with begins no other value. -/
theorem number_start {c : Char} (h : c = '-' ∨ isDigit c = true) :
    isBlank c = false ∧
      c ∉ ['"', '[', ']', '\x7b', '\x7d', 'n', 't', 'f', 'N', 'I'] := by
  rcases h with rfl | h
  · decide
  · constructor
    · simp only [isBlank, Bool.or_eq_false_iff, decide_eq_false_iff_not]
      refine ⟨⟨⟨?_, ?_⟩, ?_⟩, ?_⟩ <;> rintro rfl <;> exact absurd h (by decide)
    · intro hc
      simp only [List.mem_cons, List.not_mem_nil, or_false] at hc
      rcases hc with rfl | rfl | rfl | rfl | rfl | rfl | rfl | rfl | rfl | rfl <;>
        exact absurd h (by decide)

/-- A number is read as a number. -/
theorem Decoder.scalar_numeral {cs rest : List Char} {m : Numeral}
    (h : numeral cs = some (m, [])) (hrest : Stops rest) :
    d.scalar (cs ++ rest) = d.number (cs ++ rest) := by
  obtain ⟨c, body, rfl, hc⟩ := numeral_head h
  have hwords := (number_start hc).2
  simp only [List.mem_cons, List.not_mem_nil, or_false, not_or] at hwords
  -- after a sign comes a digit, so the text is no constant
  have hinfinity : ¬"-Infinity".toList <+: c :: body ++ rest := by
    intro hstarts
    obtain ⟨tail, htail⟩ := hstarts
    have hnone : numeral (c :: body ++ rest) = none := by
      rw [← htail]
      rfl
    rw [numeral_append hrest, h] at hnone
    cases hnone
  have hword : ∀ (w : String) (a : Char), w.toList.head? = some a → ¬c = a →
      ¬w.toList <+: c :: body ++ rest := by
    intro w a hw hne hstarts
    cases hlist : w.toList with
    | nil => simp [hlist] at hw
    | cons b l =>
        obtain rfl : b = a := by simpa [hlist] using hw
        rw [hlist, List.cons_append] at hstarts
        exact hne (List.cons_prefix_cons.mp hstarts).1.symm
  unfold Decoder.scalar
  simp only [if_neg hinfinity]
  rw [if_neg (hword "null" 'n' (by decide) hwords.2.2.2.2.2.1),
    if_neg (hword "true" 't' (by decide) hwords.2.2.2.2.2.2.1),
    if_neg (hword "false" 'f' (by decide) hwords.2.2.2.2.2.2.2.1),
    if_neg (hword "NaN" 'N' (by decide) hwords.2.2.2.2.2.2.2.2.1),
    if_neg (hword "Infinity" 'I' (by decide) hwords.2.2.2.2.2.2.2.2.2)]

/-- A value that begins like a number is one. -/
theorem Decoder.value_numeral {cs rest : List Char} {m : Numeral} {n : Nat}
    (h : numeral cs = some (m, [])) (hrest : Stops rest) :
    d.value (n + 1) (cs ++ rest) = d.number (cs ++ rest) := by
  have hscalar := Decoder.scalar_numeral (d := d) h hrest
  obtain ⟨c, body, rfl, hc⟩ := numeral_head h
  have hwords := (number_start hc).2
  simp only [List.mem_cons, List.not_mem_nil, or_false, not_or] at hwords
  rw [← hscalar, List.cons_append, Decoder.value, if_neg hwords.1, if_neg hwords.2.1,
    if_neg hwords.2.2.2.1]

theorem Decoder.value_int (n : Int) {rest : List Char} (hrest : Stops rest) (k : Nat) :
    d.value (k + 1) (intText n ++ rest) = .ok (.int n, rest) := by
  have hint : (⟨decide (n < 0), Nat.toDigits 10 n.natAbs, []⟩ : Numeral).int = n := by
    unfold Numeral.int
    simp only [Nat.ofDigitChars_ten_toDigits, decide_eq_true_eq]
    split <;> omega
  rw [Decoder.value_numeral (numeral_intText n) hrest]
  simp only [Decoder.number, numeral_append hrest, numeral_intText, Option.map_some,
    Decoder.expect, Option.elim_some, bind, Except.bind, if_true, hint, List.nil_append]
  rfl

theorem Decoder.value_real (hd : Codec p d) (x : δ) {rest : List Char} (hrest : Stops rest)
    (k : Nat) : d.value (k + 1) (p x ++ rest) = .ok (.real x, rest) := by
  obtain ⟨m, hm, htail, htext⟩ := hd.token x
  rw [Decoder.value_numeral hm hrest]
  simp only [Decoder.number, numeral_append hrest, hm, Option.map_some, Decoder.expect,
    Option.elim_some, bind, Except.bind, if_neg htail, htext, hd.real, List.nil_append]
  rfl

/-- What a value begins with: no blank, and not the end of an array or an object. -/
theorem dumps_head (hd : Codec p d) (v : Value δ) : ∃ c cs, dumps p v = c :: cs ∧
    isBlank c = false ∧ c ≠ ']' ∧ c ≠ '\x7d' := by
  have hnumeral : ∀ cs m, numeral cs = some (m, []) → ∃ c body, cs = c :: body ∧
      isBlank c = false ∧ c ≠ ']' ∧ c ≠ '\x7d' := by
    intro cs m h
    obtain ⟨c, body, hcs, hc⟩ := numeral_head h
    obtain ⟨hblank, hwords⟩ := number_start hc
    simp only [List.mem_cons, List.not_mem_nil, or_false, not_or] at hwords
    exact ⟨c, body, hcs, hblank, hwords.2.2.1, hwords.2.2.2.2.1⟩
  cases v with
  | null => exact ⟨'n', _, rfl, by decide⟩
  | bool b => cases b <;> exact ⟨_, _, rfl, by decide⟩
  | int n => exact hnumeral _ _ (numeral_intText n)
  | real x =>
      obtain ⟨m, hm, -⟩ := hd.token x
      exact hnumeral _ _ hm
  | str s => exact ⟨'"', _, rfl, by decide⟩
  | arr items => cases items <;> exact ⟨'[', _, rfl, by decide⟩
  | obj members =>
      cases members with
      | nil => exact ⟨'\x7b', _, rfl, by decide⟩
      | cons m ms =>
          obtain ⟨k, v⟩ := m
          exact ⟨'\x7b', _, rfl, by decide⟩

theorem skip_dumps (hd : Codec p d) (v : Value δ) (rest : List Char) :
    skip (dumps p v ++ rest) = dumps p v ++ rest := by
  obtain ⟨c, cs, hdumps, hblank, -⟩ := dumps_head hd v
  rw [hdumps, List.cons_append, skip, List.dropWhile_cons_of_neg (by rw [hblank]; decide)]

theorem skip_cons {c : Char} (h : isBlank c = false) (cs : List Char) :
    skip (c :: cs) = c :: cs := List.dropWhile_cons_of_neg (by rw [h]; decide)

theorem stops_dumpsItems (vs : List (Value δ)) (rest : List Char) :
    Stops (dumpsItems p vs ++ rest) := by
  cases vs <;> exact stops_cons (by decide)

theorem stops_dumpsMembers (ms : List (String × Value δ)) (rest : List Char) :
    Stops (dumpsMembers p ms ++ rest) := by
  cases ms with
  | nil => exact stops_cons (by decide)
  | cons m ms => exact stops_cons (by decide)

theorem skip_dumpsItems (vs : List (Value δ)) (rest : List Char) :
    skip (dumpsItems p vs ++ rest) = dumpsItems p vs ++ rest := by
  cases vs <;> exact skip_cons (by decide) _

theorem skip_dumpsMembers (ms : List (String × Value δ)) (rest : List Char) :
    skip (dumpsMembers p ms ++ rest) = dumpsMembers p ms ++ rest := by
  cases ms with
  | nil => exact skip_cons (by decide) _
  | cons m ms => exact skip_cons (by decide) _

theorem skip_quote (s : String) (rest : List Char) : skip (quote s ++ rest) = quote s ++ rest :=
  skip_cons (c := '"') (by decide) _

theorem member_append (k : String) (v : Value δ) (tail rest : List Char) :
    quote k ++ ':' :: (dumps p v ++ tail) ++ rest =
      quote k ++ ':' :: (dumps p v ++ (tail ++ rest)) := by
  simp

mutual

theorem Decoder.value_dumps (hd : Codec p d) : ∀ (v : Value δ) (n : Nat) (rest : List Char),
    v.Distinct → v.size ≤ n → Stops rest → d.value n (dumps p v ++ rest) = .ok (v, rest)
  | v, 0, _, _, hn, _ => absurd v.size_pos (Nat.not_lt.mpr hn)
  | .null, n + 1, rest, _, _, _ => rfl
  | .bool true, n + 1, rest, _, _, _ => rfl
  | .bool false, n + 1, rest, _, _, _ => rfl
  | .int k, n + 1, rest, _, _, hrest => Decoder.value_int k hrest n
  | .real x, n + 1, rest, _, _, hrest => Decoder.value_real hd x hrest n
  | .str s, n + 1, rest, _, _, _ => by
      rw [dumps, quote, List.cons_append, List.append_assoc, Decoder.value, if_pos rfl]
      simp only [List.cons_append, List.nil_append, Decoder.string_quote, bind, Except.bind]
      rfl
  | .arr [], n + 1, rest, _, _, _ => by
      rw [dumps, List.cons_append, Decoder.value, if_neg (by decide), if_pos rfl]
      rfl
  | .arr (v :: vs), n + 1, rest, hdistinct, hn, _ => by
      simp only [Value.Distinct, DistinctItems] at hdistinct
      simp only [Value.size] at hn
      have hv := Decoder.value_dumps hd v n (dumpsItems p vs ++ rest) hdistinct.1 (by omega)
        (stops_dumpsItems vs rest)
      have hvs := Decoder.items_dumps hd vs n rest hdistinct.2 (by omega)
      have hopen : (skip (dumps p v ++ (dumpsItems p vs ++ rest))).head? ≠ some ']' := by
        obtain ⟨c, cs, hdumps, -, hc, -⟩ := dumps_head hd v
        rw [skip_dumps hd, hdumps]
        simpa using hc
      rw [dumps, List.cons_append, List.append_assoc, Decoder.value, if_neg (by decide),
        if_pos rfl, if_neg hopen, skip_dumps hd, hv]
      simp only [bind, Except.bind, skip_dumpsItems, hvs]
      rfl
  | .obj [], n + 1, rest, _, _, _ => by
      rw [dumps, List.cons_append, Decoder.value, if_neg (by decide), if_neg (by decide),
        if_pos rfl]
      simp only [List.cons_append, List.nil_append, skip_cons (c := '\x7d') (by decide),
        List.head?_cons, if_true, hd.object [] (by simp), bind, Except.bind]
      rfl
  | .obj ((k, v) :: ms), n + 1, rest, hdistinct, hn, _ => by
      simp only [Value.Distinct, DistinctMembers] at hdistinct
      simp only [Value.size] at hn
      have hm := Decoder.member_dumps hd k v n (dumpsMembers p ms ++ rest) hdistinct.2.1 (by omega)
        (stops_dumpsMembers ms rest)
      have hms := Decoder.members_dumps hd ms n rest hdistinct.2.2 (by omega)
      rw [dumps, List.cons_append, Decoder.value, if_neg (by decide), if_neg (by decide),
        if_pos rfl, member_append, skip_quote, if_neg (by simp [quote]), hm]
      simp only [bind, Except.bind, skip_dumpsMembers, hms, hd.object _ hdistinct.1]
      rfl

theorem Decoder.items_dumps (hd : Codec p d) : ∀ (vs : List (Value δ)) (n : Nat)
    (rest : List Char), DistinctItems vs → sizeItems vs ≤ n →
      d.items n (dumpsItems p vs ++ rest) = .ok (vs, rest)
  | vs, 0, _, _, hn => absurd (sizeItems_pos vs) (Nat.not_lt.mpr hn)
  | [], n + 1, rest, _, _ => by
      rw [dumpsItems, List.cons_append, Decoder.items, if_pos rfl]
      rfl
  | v :: vs, n + 1, rest, hdistinct, hn => by
      simp only [DistinctItems] at hdistinct
      simp only [sizeItems] at hn
      have hv := Decoder.value_dumps hd v n (dumpsItems p vs ++ rest) hdistinct.1 (by omega)
        (stops_dumpsItems vs rest)
      have hvs := Decoder.items_dumps hd vs n rest hdistinct.2 (by omega)
      rw [dumpsItems, List.cons_append, List.append_assoc, Decoder.items, if_neg (by decide),
        if_pos rfl, skip_dumps hd, hv]
      simp only [bind, Except.bind, skip_dumpsItems, hvs]
      rfl

theorem Decoder.member_dumps (hd : Codec p d) (k : String) : ∀ (v : Value δ) (n : Nat)
    (rest : List Char), v.Distinct → v.size + 1 ≤ n → Stops rest →
      d.member n (quote k ++ ':' :: (dumps p v ++ rest)) = .ok ((k, v), rest)
  | _, 0, _, _, hn, _ => absurd hn (Nat.not_succ_le_zero _)
  | v, n + 1, rest, hdistinct, hn, hrest => by
      have hv := Decoder.value_dumps hd v n rest hdistinct (by omega) hrest
      rw [quote, List.cons_append, List.append_assoc, Decoder.member, if_pos rfl]
      simp only [List.cons_append, List.nil_append, Decoder.string_quote, bind, Except.bind,
        skip_cons (c := ':') (by decide), List.head?_cons, if_true, List.tail_cons,
        skip_dumps hd, hv]
      rfl

theorem Decoder.members_dumps (hd : Codec p d) : ∀ (ms : List (String × Value δ)) (n : Nat)
    (rest : List Char), DistinctMembers ms → sizeMembers ms ≤ n →
      d.members n (dumpsMembers p ms ++ rest) = .ok (ms, rest)
  | ms, 0, _, _, hn => absurd (sizeMembers_pos ms) (Nat.not_lt.mpr hn)
  | [], n + 1, rest, _, _ => by
      rw [dumpsMembers, List.cons_append, Decoder.members, if_pos rfl]
      rfl
  | (k, v) :: ms, n + 1, rest, hdistinct, hn => by
      simp only [DistinctMembers] at hdistinct
      simp only [sizeMembers] at hn
      have hm := Decoder.member_dumps hd k v n (dumpsMembers p ms ++ rest) hdistinct.1 (by omega)
        (stops_dumpsMembers ms rest)
      have hms := Decoder.members_dumps hd ms n rest hdistinct.2 (by omega)
      rw [dumpsMembers, List.cons_append, Decoder.members, if_neg (by decide), if_pos rfl,
        member_append, skip_quote, hm]
      simp only [bind, Except.bind, skip_dumpsMembers, hms]
      rfl

end

/-! ### The fuel is enough -/

theorem length_dumps (hd : Codec p d) (v : Value δ) : 0 < (dumps p v).length := by
  obtain ⟨c, cs, hdumps, -⟩ := dumps_head hd v
  rw [hdumps]
  simp

mutual

theorem size_le_length (hd : Codec p d) : ∀ v : Value δ, v.size ≤ 2 * (dumps p v).length
  | .null => by simp [Value.size, dumps]
  | .bool true => by simp [Value.size, dumps]
  | .bool false => by simp [Value.size, dumps]
  | .int n => by
      have hlen := length_dumps hd (.int n)
      simp only [Value.size]
      omega
  | .real x => by
      have hlen := length_dumps hd (.real x)
      simp only [Value.size]
      omega
  | .str s => by
      have hlen := length_dumps hd (.str s)
      simp only [Value.size]
      omega
  | .arr [] => by simp [Value.size, dumps]
  | .arr (v :: vs) => by
      have hv := size_le_length hd v
      have hvs := sizeItems_le_length hd vs
      simp only [Value.size, dumps, List.length_cons, List.length_append]
      omega
  | .obj [] => by simp [Value.size, dumps]
  | .obj ((k, v) :: ms) => by
      have hv := size_le_length hd v
      have hms := sizeMembers_le_length hd ms
      simp only [Value.size, dumps, List.length_cons, List.length_append]
      omega

theorem sizeItems_le_length (hd : Codec p d) :
    ∀ vs : List (Value δ), sizeItems vs ≤ 2 * (dumpsItems p vs).length
  | [] => by simp [sizeItems, dumpsItems]
  | v :: vs => by
      have hv := size_le_length hd v
      have hvs := sizeItems_le_length hd vs
      simp only [sizeItems, dumpsItems, List.length_cons, List.length_append]
      omega

theorem sizeMembers_le_length (hd : Codec p d) :
    ∀ ms : List (String × Value δ), sizeMembers ms ≤ 2 * (dumpsMembers p ms).length
  | [] => by simp [sizeMembers, dumpsMembers]
  | (k, v) :: ms => by
      have hv := size_le_length hd v
      have hms := sizeMembers_le_length hd ms
      simp only [sizeMembers, dumpsMembers, List.length_cons, List.length_append]
      omega

end

/-- **What was written is read again.** -/
theorem Decoder.loads_dumps (hd : Codec p d) (v : Value δ) (hv : v.Distinct) :
    d.loads (dumps p v) = .ok v := by
  have hsize := size_le_length hd v
  have hskip := skip_dumps hd v []
  have hvalue := Decoder.value_dumps hd v (2 * (dumps p v).length + 2) [] hv (by omega) stops_nil
  rw [List.append_nil] at hskip hvalue
  have hend : skip [] = [] := rfl
  simp only [Decoder.loads, hskip, hvalue, bind, Except.bind, hend, if_true]
  rfl

end RoundTrip

/-! ## The code points of a written text -/

mutual

/-- The code points of the strings in a value. -/
def Value.chars : Value δ → List Char
  | .str s => s.toList
  | .arr items => charsItems items
  | .obj members => charsMembers members
  | .null | .bool _ | .int _ | .real _ => []

def charsItems : List (Value δ) → List Char
  | [] => []
  | v :: vs => v.chars ++ charsItems vs

def charsMembers : List (String × Value δ) → List Char
  | [] => []
  | (k, v) :: ms => k.toList ++ v.chars ++ charsMembers ms

end

theorem mem_charsItems {x : Char} {vs : List (Value δ)} :
    x ∈ charsItems vs ↔ ∃ v ∈ vs, x ∈ v.chars := by
  induction vs with
  | nil => simp [charsItems]
  | cons v vs ih => simp [charsItems, ih]

theorem mem_charsMembers {x : Char} {ms : List (String × Value δ)} :
    x ∈ charsMembers ms ↔ ∃ m ∈ ms, x ∈ m.1.toList ∨ x ∈ m.2.chars := by
  induction ms with
  | nil => simp [charsMembers]
  | cons m ms ih =>
      obtain ⟨k, v⟩ := m
      simp [charsMembers, ih, or_assoc]

/-- A printable code point of ASCII. -/
def isPlain (c : Char) : Bool := 32 ≤ c.toNat && c.toNat < 128

theorem mem_escape {c x : Char} (h : x ∈ escape c) :
    isPlain x = true ∨ x = c ∧ 128 ≤ c.toNat := by
  have hpair : ∀ y, isPlain y = true → x ∈ ['\\', y] → isPlain x = true := by
    intro y hy hx
    rcases List.mem_pair.mp hx with rfl | rfl
    · decide
    · exact hy
  have hdigit : ∀ n < 16, isPlain (Nat.digitChar n) = true := by decide
  unfold escape at h
  split at h
  · exact .inl (hpair _ (by decide) h)
  split at h
  · exact .inl (hpair _ (by decide) h)
  split at h
  · exact .inl (hpair _ (by decide) h)
  split at h
  · exact .inl (hpair _ (by decide) h)
  split at h
  · exact .inl (hpair _ (by decide) h)
  split at h
  · exact .inl (hpair _ (by decide) h)
  split at h
  · exact .inl (hpair _ (by decide) h)
  split at h
  · rename_i hlow
    have hhigh := hdigit (c.toNat / 16) (by omega)
    have hrest := hdigit (c.toNat % 16) (by omega)
    simp only [List.mem_cons, List.not_mem_nil, or_false] at h
    rcases h with rfl | rfl | rfl | rfl | rfl | rfl
    · exact .inl (by decide)
    · exact .inl (by decide)
    · exact .inl (by decide)
    · exact .inl (by decide)
    · exact .inl hhigh
    · exact .inl hrest
  · rename_i hlow
    obtain rfl := List.mem_singleton.mp h
    by_cases hx : x.toNat < 128
    · left
      simp only [isPlain, Bool.and_eq_true, decide_eq_true_eq]
      omega
    · exact .inr ⟨rfl, by omega⟩

theorem mem_escape_self {c : Char} (h : 128 ≤ c.toNat) : c ∈ escape c := by
  have hne : ∀ x : Char, x.toNat < 128 → c ≠ x := by
    rintro x hx rfl
    omega
  simp [escape, hne '"' (by decide), hne '\\' (by decide), hne '\n' (by decide),
    hne '\r' (by decide), hne '\t' (by decide), show c.toNat ≠ 8 by omega,
    show c.toNat ≠ 12 by omega, show ¬c.toNat < 32 by omega]

/-- A string is written in printable ASCII and in those of its code points that are not ASCII. -/
theorem mem_quote {s : String} {x : Char} (h : x ∈ quote s) :
    isPlain x = true ∨ x ∈ s.toList ∧ 128 ≤ x.toNat := by
  simp only [quote, List.mem_cons, List.mem_append, List.mem_flatMap, List.not_mem_nil,
    or_false] at h
  rcases h with rfl | ⟨c, hc, hx⟩ | rfl
  · exact .inl (by decide)
  · rcases mem_escape hx with hplain | ⟨rfl, hlarge⟩
    · exact .inl hplain
    · exact .inr ⟨hc, hlarge⟩
  · exact .inl (by decide)

theorem mem_quote_of_mem {s : String} {x : Char} (h : x ∈ s.toList) (hx : 128 ≤ x.toNat) :
    x ∈ quote s := by
  simp only [quote, List.mem_cons, List.mem_append, List.mem_flatMap]
  exact .inr (.inl ⟨x, h, mem_escape_self hx⟩)

theorem isPlain_of_isDigit {c : Char} (h : isDigit c = true) : isPlain c = true := by
  simp only [isDigit, Char.isDigit, Bool.and_eq_true, decide_eq_true_eq] at h
  have hlow : 48 ≤ c.toNat := h.1
  have hhigh : c.toNat ≤ 57 := h.2
  simp only [isPlain, Bool.and_eq_true, decide_eq_true_eq]
  omega

/-- A numeral is written in printable code points of ASCII. -/
theorem isPlain_numeral {cs rest : List Char} {m : Numeral} (h : numeral cs = some (m, rest)) :
    ∀ c ∈ m.text, isPlain c = true := by
  have hdigits : ∀ l : List Char, ∀ c ∈ l.takeWhile isDigit, isPlain c = true :=
    fun l c hc => isPlain_of_isDigit (List.mem_takeWhile_imp hc)
  have hwhole : ∀ l, ∀ c ∈ wholePart l, isPlain c = true := by
    intro l c hc
    unfold wholePart at hc
    split at hc
    · obtain rfl := List.mem_singleton.mp hc
      decide
    · exact hdigits _ c hc
  have hfraction : ∀ l, ∀ c ∈ fraction l, isPlain c = true := by
    intro l c hc
    unfold fraction at hc
    split at hc
    · split at hc
      · cases hc
      · rcases List.mem_cons.mp hc with rfl | hc
        · decide
        · exact hdigits _ c hc
    · cases hc
  have hsign : ∀ l, ∀ c ∈ sign l, isPlain c = true := by
    intro l c hc
    unfold sign at hc
    split at hc
    · obtain rfl := List.mem_singleton.mp hc
      decide
    · obtain rfl := List.mem_singleton.mp hc
      decide
    · cases hc
  have hexponent : ∀ l, ∀ c ∈ exponent l, isPlain c = true := by
    intro l c hc
    cases l with
    | nil => cases hc
    | cons e l =>
        simp only [exponent] at hc
        split at hc
        · rename_i he
          simp only [List.mem_cons, List.mem_append] at hc
          rcases hc with rfl | hc | hc
          · rcases he.1 with rfl | rfl <;> decide
          · exact hsign _ c hc
          · exact hdigits _ c hc
        · cases hc
  unfold numeral at h
  dsimp only at h
  generalize (if cs.head? = some '-' then cs.drop 1 else cs) = body at h
  split at h
  · cases h
  · obtain ⟨rfl, -⟩ := Prod.mk.inj (Option.some.inj h)
    intro c hc
    simp only [Numeral.text, List.mem_append] at hc
    rcases hc with (hc | hc) | hc | hc
    · split at hc
      · obtain rfl := List.mem_singleton.mp hc
        decide
      · cases hc
    · exact hwhole _ c hc
    · exact hfraction _ c hc
    · exact hexponent _ c hc

theorem isPlain_of_forall {l : List Char} {x : Char} (hl : l.all isPlain = true) (h : x ∈ l) :
    isPlain x = true := List.all_eq_true.mp hl x h

section Chars

variable {p : δ → List Char} {d : Decoder ε δ}

mutual

/-- A value is written in printable ASCII and what is not ASCII in its strings. -/
theorem mem_dumps (hd : Codec p d) {x : Char} :
    ∀ v : Value δ, x ∈ dumps p v → isPlain x = true ∨ x ∈ v.chars ∧ 128 ≤ x.toNat
  | .null, h => .inl (isPlain_of_forall rfl h)
  | .bool true, h => .inl (isPlain_of_forall rfl h)
  | .bool false, h => .inl (isPlain_of_forall rfl h)
  | .int n, h => by
      have hplain := isPlain_numeral (numeral_intText n) x
      have htext : (⟨decide (n < 0), Nat.toDigits 10 n.natAbs, []⟩ : Numeral).text = intText n := by
        unfold Numeral.text intText
        by_cases hneg : n < 0 <;> simp [hneg]
      rw [htext] at hplain
      exact .inl (hplain h)
  | .real y, h => by
      obtain ⟨m, hm, -, htext⟩ := hd.token y
      rw [dumps, ← htext] at h
      exact .inl (isPlain_numeral hm x h)
  | .str s, h => mem_quote h
  | .arr [], h => .inl (isPlain_of_forall rfl h)
  | .arr (v :: vs), h => by
      simp only [dumps, List.mem_cons, List.mem_append] at h
      simp only [Value.chars, charsItems, List.mem_append]
      rcases h with rfl | h | h
      · exact .inl (by decide)
      · exact (mem_dumps hd v h).imp_right (And.imp_left .inl)
      · exact (mem_dumpsItems hd vs h).imp_right (And.imp_left .inr)
  | .obj [], h => .inl (isPlain_of_forall rfl h)
  | .obj ((k, v) :: ms), h => by
      simp only [dumps, List.mem_cons, List.mem_append] at h
      simp only [Value.chars, charsMembers, List.mem_append]
      rcases h with rfl | h | rfl | h | h
      · exact .inl (by decide)
      · exact (mem_quote h).imp_right (And.imp_left fun h => .inl (.inl h))
      · exact .inl (by decide)
      · exact (mem_dumps hd v h).imp_right (And.imp_left fun h => .inl (.inr h))
      · exact (mem_dumpsMembers hd ms h).imp_right (And.imp_left .inr)

theorem mem_dumpsItems (hd : Codec p d) {x : Char} :
    ∀ vs : List (Value δ), x ∈ dumpsItems p vs →
      isPlain x = true ∨ x ∈ charsItems vs ∧ 128 ≤ x.toNat
  | [], h => by
      obtain rfl := List.mem_singleton.mp h
      exact .inl (by decide)
  | v :: vs, h => by
      simp only [dumpsItems, List.mem_cons, List.mem_append] at h
      simp only [charsItems, List.mem_append]
      rcases h with rfl | h | h
      · exact .inl (by decide)
      · exact (mem_dumps hd v h).imp_right (And.imp_left .inl)
      · exact (mem_dumpsItems hd vs h).imp_right (And.imp_left .inr)

theorem mem_dumpsMembers (hd : Codec p d) {x : Char} :
    ∀ ms : List (String × Value δ), x ∈ dumpsMembers p ms →
      isPlain x = true ∨ x ∈ charsMembers ms ∧ 128 ≤ x.toNat
  | [], h => by
      obtain rfl := List.mem_singleton.mp h
      exact .inl (by decide)
  | (k, v) :: ms, h => by
      simp only [dumpsMembers, List.mem_cons, List.mem_append] at h
      simp only [charsMembers, List.mem_append]
      rcases h with rfl | h | rfl | h | h
      · exact .inl (by decide)
      · exact (mem_quote h).imp_right (And.imp_left fun h => .inl (.inl h))
      · exact .inl (by decide)
      · exact (mem_dumps hd v h).imp_right (And.imp_left fun h => .inl (.inr h))
      · exact (mem_dumpsMembers hd ms h).imp_right (And.imp_left .inr)

end

mutual

/-- What is not ASCII in the strings of a value stands in its text as it is. -/
theorem mem_dumps_of_chars {x : Char} (hx : 128 ≤ x.toNat) :
    ∀ v : Value δ, x ∈ v.chars → x ∈ dumps p v
  | .null, h | .bool _, h | .int _, h | .real _, h => by simp [Value.chars] at h
  | .str s, h => mem_quote_of_mem h hx
  | .arr [], h => by simp [Value.chars, charsItems] at h
  | .arr (v :: vs), h => by
      simp only [Value.chars, charsItems, List.mem_append] at h
      simp only [dumps, List.mem_cons, List.mem_append]
      rcases h with h | h
      · exact .inr (.inl (mem_dumps_of_chars hx v h))
      · exact .inr (.inr (mem_dumpsItems_of_chars hx vs h))
  | .obj [], h => by simp [Value.chars, charsMembers] at h
  | .obj ((k, v) :: ms), h => by
      simp only [Value.chars, charsMembers, List.mem_append] at h
      simp only [dumps, List.mem_cons, List.mem_append]
      rcases h with (h | h) | h
      · exact .inr (.inl (mem_quote_of_mem h hx))
      · exact .inr (.inr (.inr (.inl (mem_dumps_of_chars hx v h))))
      · exact .inr (.inr (.inr (.inr (mem_dumpsMembers_of_chars hx ms h))))

theorem mem_dumpsItems_of_chars {x : Char} (hx : 128 ≤ x.toNat) :
    ∀ vs : List (Value δ), x ∈ charsItems vs → x ∈ dumpsItems p vs
  | [], h => by simp [charsItems] at h
  | v :: vs, h => by
      simp only [charsItems, List.mem_append] at h
      simp only [dumpsItems, List.mem_cons, List.mem_append]
      rcases h with h | h
      · exact .inr (.inl (mem_dumps_of_chars hx v h))
      · exact .inr (.inr (mem_dumpsItems_of_chars hx vs h))

theorem mem_dumpsMembers_of_chars {x : Char} (hx : 128 ≤ x.toNat) :
    ∀ ms : List (String × Value δ), x ∈ charsMembers ms → x ∈ dumpsMembers p ms
  | [], h => by simp [charsMembers] at h
  | (k, v) :: ms, h => by
      simp only [charsMembers, List.mem_append] at h
      simp only [dumpsMembers, List.mem_cons, List.mem_append]
      rcases h with (h | h) | h
      · exact .inr (.inl (mem_quote_of_mem h hx))
      · exact .inr (.inr (.inr (.inl (mem_dumps_of_chars hx v h))))
      · exact .inr (.inr (.inr (.inr (mem_dumpsMembers_of_chars hx ms h))))

end

/-- The text of an object ends with its brace. -/
theorem dumpsMembers_end (ms : List (String × Value δ)) :
    ∃ l, dumpsMembers p ms = l ++ ['\x7d'] := by
  induction ms with
  | nil => exact ⟨[], rfl⟩
  | cons m ms ih =>
      obtain ⟨k, v⟩ := m
      obtain ⟨l, hl⟩ := ih
      refine ⟨',' :: (quote k ++ ':' :: (dumps p v ++ l)), ?_⟩
      rw [dumpsMembers, hl]
      simp

end Chars

end Sana.Lib.JsonText
