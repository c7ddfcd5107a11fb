import Mathlib.Algebra.Group.Nat.Defs
import Mathlib.Data.List.Basic
import Mathlib.Data.List.DropRight
import Sana.Lib.Transition

/-!
# Identifiers, time, text and errors

The vocabulary every subsystem shares. Times are instants in microseconds, the
resolution of the source's `datetime`. Identifiers are 128-bit UUIDs with the
database's order on them. The text helpers are the Python `str` methods the
modelled functions call, defined on the list of code points.
-/

namespace Sana

/-- A UUID, as the database stores it. -/
structure Uuid where
  /-- The 128 bits, most significant first. -/
  bits : BitVec 128
deriving DecidableEq, Repr

namespace Uuid

/-- Byte-wise order, which is the numeric order of the bits. -/
def le (a b : Uuid) : Bool := decide (a.bits.toNat ≤ b.bits.toNat)

/-- The four-bit group at position `i`, counted from the most significant end. -/
def nibble (u : Uuid) (i : Nat) : Nat := (u.bits.toNat / 16 ^ (31 - i)) % 16

/-- One lowercase hexadecimal digit. -/
def hexDigit (n : Nat) : Char :=
  if n < 10 then Char.ofNat (48 + n) else Char.ofNat (87 + n)

/-- `str(uuid)`: 32 lowercase hexadecimal digits in groups of 8-4-4-4-12. -/
def str (u : Uuid) : String :=
  let hex := (List.range 32).map fun i => hexDigit (u.nibble i)
  String.ofList (hex.take 8 ++ '-' :: (hex.drop 8).take 4 ++ '-' :: (hex.drop 12).take 4
    ++ '-' :: (hex.drop 16).take 4 ++ '-' :: hex.drop 20)

theorem hexDigit_injective : ∀ m < 16, ∀ n < 16, hexDigit m = hexDigit n → m = n := by decide

/-- The digits of a number determine it. -/
theorem eq_of_digits {k m n : Nat} (hm : m < 16 ^ k) (hn : n < 16 ^ k)
    (h : ∀ i < k, m / 16 ^ i % 16 = n / 16 ^ i % 16) : m = n := by
  induction k generalizing m n with
  | zero => omega
  | succ k ih =>
      have hlast := h 0 (by omega)
      have hrest : m / 16 = n / 16 := by
        refine ih (by omega) (by omega) fun i hi => ?_
        have := h (i + 1) (by omega)
        rwa [Nat.pow_succ', ← Nat.div_div_eq_div_mul, ← Nat.div_div_eq_div_mul] at this
      omega

/-- The text of a UUID determines it. -/
theorem str_injective : Function.Injective str := by
  intro u v h
  have hlist := congrArg String.toList h
  simp only [str, String.toList_ofList] at hlist
  have hmap : (List.range 32).map (fun i => hexDigit (u.nibble i))
      = (List.range 32).map fun i => hexDigit (v.nibble i) := by
    simp [List.range_succ] at hlist ⊢
    simp_all
  have hdigit : ∀ i < 32, u.nibble i = v.nibble i := by
    intro i hi
    refine hexDigit_injective _ (Nat.mod_lt _ (by omega)) _ (Nat.mod_lt _ (by omega)) ?_
    exact List.map_inj_left.mp hmap i (List.mem_range.mpr hi)
  have hbits : u.bits.toNat = v.bits.toNat := by
    refine eq_of_digits (k := 32) u.bits.isLt v.bits.isLt fun i hi => ?_
    have := hdigit (31 - i) (by omega)
    unfold nibble at this
    rwa [show 31 - (31 - i) = i by omega] at this
  cases u
  cases v
  congr 1
  exact BitVec.eq_of_toNat_eq hbits

end Uuid

/-- An instant, in microseconds. -/
abbrev Time := Int

/-- A duration, in microseconds. -/
abbrev Duration := Int

/-- `timedelta(seconds=n)`. -/
def seconds (n : Int) : Duration := n * 1000000

/-! ## Text -/

namespace Text

/-- The code points `str.strip` and `str.split` treat as whitespace. -/
def isSpace (c : Char) : Bool :=
  let n := c.toNat
  (0x09 ≤ n && n ≤ 0x0D) || (0x1C ≤ n && n ≤ 0x20) || n == 0x85 || n == 0xA0 || n == 0x1680
    || (0x2000 ≤ n && n ≤ 0x200A) || n == 0x2028 || n == 0x2029 || n == 0x202F || n == 0x205F
    || n == 0x3000

/-- `s.strip()` on code points. -/
def stripChars (l : List Char) : List Char :=
  ((l.dropWhile isSpace).reverse.dropWhile isSpace).reverse

/-- `s.strip()`. -/
def strip (s : String) : String := String.ofList (stripChars s.toList)

/-- `s.strip()` is empty: the string is blank. -/
def isBlank (s : String) : Bool := s.toList.all isSpace

theorem stripChars_eq (l : List Char) :
    stripChars l = (l.dropWhile isSpace).rdropWhile isSpace := rfl

/-- What is left of the front is not a space, whatever is cut off behind. -/
theorem dropWhile_of_isPrefix {l l' : List Char} (h : l' <+: l.dropWhile isSpace) :
    l'.dropWhile isSpace = l' := by
  obtain ⟨rest, hrest⟩ := h
  cases l' with
  | nil => rfl
  | cons c cs =>
      have hidem := List.dropWhile_idempotent isSpace l
      rw [← hrest, List.cons_append] at hidem
      refine List.dropWhile_cons_of_neg fun hc => ?_
      rw [List.dropWhile_cons_of_pos hc] at hidem
      have hle := (List.dropWhile_suffix isSpace (l := cs ++ rest)).length_le
      rw [hidem, List.length_cons] at hle
      omega

theorem strip_strip (s : String) : strip (strip s) = strip s := by
  have hidem : stripChars (stripChars s.toList) = stripChars s.toList := by
    simp only [stripChars_eq]
    rw [dropWhile_of_isPrefix (List.rdropWhile_prefix isSpace _), List.rdropWhile_idempotent]
  simp only [strip, String.toList_ofList, hidem]

/-- A string is blank if nothing is left of it. -/
theorem strip_eq_empty_iff (s : String) : strip s = "" ↔ isBlank s = true := by
  have hempty : strip s = "" ↔ stripChars s.toList = [] := by
    rw [strip, ← String.toList_inj, String.toList_ofList]
    rfl
  rw [hempty, stripChars_eq, List.rdropWhile_eq_nil_iff, isBlank, List.all_eq_true]
  constructor
  · intro h c hc
    by_contra hn
    have hmem : c ∈ s.toList.dropWhile isSpace := by
      rw [← List.takeWhile_append_dropWhile (p := isSpace) (l := s.toList), List.mem_append] at hc
      rcases hc with hc | hc
      · exact absurd (List.mem_takeWhile_imp hc) hn
      · exact hc
    exact hn (h c hmem)
  · intro h c hc
    exact h c ((List.dropWhile_suffix isSpace).subset hc)

/-- `s.startswith(pre)`. -/
def startsWith (s pre : String) : Bool := pre.toList.isPrefixOf s.toList

/-- `s.replace(old, new, 1)`, on code points: rewrite the first occurrence. -/
def replaceFirstChars (old new : List Char) : List Char → List Char
  | [] => if old.isEmpty then new else []
  | c :: cs =>
      if old.isPrefixOf (c :: cs) then new ++ (c :: cs).drop old.length
      else c :: replaceFirstChars old new cs

/-- `s.replace(old, new, 1)`. -/
def replaceFirst (s old new : String) : String :=
  String.ofList (replaceFirstChars old.toList new.toList s.toList)

/-- A string that starts with `old` has its prefix exchanged. -/
theorem replaceFirst_append (old new rest : String) (h : old.toList ≠ []) :
    replaceFirst (old ++ rest) old new = new ++ rest := by
  obtain ⟨c, cs, hc⟩ := List.exists_cons_of_ne_nil h
  apply String.toList_inj.mp
  have hp : old.toList.isPrefixOf (c :: (cs ++ rest.toList)) = true := by
    simp [hc]
  simp only [replaceFirst, String.toList_ofList, String.toList_append]
  rw [hc, List.cons_append, replaceFirstChars, ← hc, if_pos hp, ← List.cons_append, ← hc]
  simp

/-- Lowercase an ASCII letter. -/
def lowerAscii (s : String) : String := String.ofList (s.toList.map Char.toLower)

end Text

/-! ## Errors -/

/-- `ErrorCategory`. -/
inductive ErrorCategory
  | transient | permanent | budget | content | modelOutput | cancelled | internal
deriving DecidableEq, Repr

/-- The value the enumeration serialises to. -/
def ErrorCategory.value : ErrorCategory → String
  | .transient => "TRANSIENT"
  | .permanent => "PERMANENT"
  | .budget => "BUDGET"
  | .content => "CONTENT"
  | .modelOutput => "MODEL_OUTPUT"
  | .cancelled => "CANCELLED"
  | .internal => "INTERNAL"

/-- `TypedError`: an operational error that is persisted with the attempt it ended. -/
structure TypedError where
  category : ErrorCategory
  code : String
  message : String
  retryable : Bool
deriving DecidableEq, Repr

/-- What a transaction can raise. Raising rolls the transaction back. -/
inductive Exn
  /-- `InvariantViolation(message, code=...)`. -/
  | invariant (message code : String)
  /-- A uniqueness or check constraint refused the write; the name of the constraint. -/
  | integrity (constraint : String)
  | valueError (message : String)
  | typeError (message : String)
  | runtimeError (message : String)
  | lookupError (message : String)
  | keyError (key : String)
  /-- A `TypedError` raised as an exception. -/
  | typed (error : TypedError)
deriving DecidableEq, Repr

end Sana
