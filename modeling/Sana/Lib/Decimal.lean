import Mathlib.Algebra.Order.Field.Power
import Mathlib.Data.List.TakeWhile
import Mathlib.Data.Rat.Defs
import Mathlib.Tactic.FieldSimp
import Mathlib.Tactic.Positivity

/-!
# Decimal numbers

A decimal number keeps its coefficient and its exponent apart, so a value has many
representations. Written out in full it has none of a positive exponent; read back, such a
text gives a number of the same value that is written in the same way.
-/

namespace Sana.Lib

/-- A decimal number, with its special values. -/
inductive Decimal
  | finite (negative : Bool) (coefficient : Nat) (exponent : Int)
  | infinity (negative : Bool)
  | nan
deriving DecidableEq, Repr

namespace Decimal

/-- `is_finite()`. -/
def isFinite : Decimal → Bool
  | finite _ _ _ => true
  | _ => false

/-- The number a finite decimal stands for. -/
def value : Decimal → Option Rat
  | finite negative c e => some ((if negative then -1 else 1) * c * (10 : Rat) ^ e)
  | _ => none

/-- `d == d'`: by value, and nothing equals what is no number. -/
def eq : Decimal → Decimal → Bool
  | infinity a, infinity b => a = b
  | d, d' => d.isFinite && d'.isFinite && d.value = d'.value

/-- `d <= 0`, `none` where the comparison is refused. -/
def nonpos : Decimal → Option Bool
  | finite negative c _ => some (negative || c = 0)
  | infinity negative => some negative
  | nan => none

/-! ## Writing -/

/-- The digits of a number without exponent, with its point. -/
def fixedDigits (digits : List Char) (exponent : Int) : List Char :=
  if 0 ≤ exponent then
    if digits = ['0'] then digits else digits ++ List.replicate exponent.toNat '0'
  else
    let places := (-exponent).toNat
    if digits.length ≤ places then
      '0' :: '.' :: (List.replicate (places - digits.length) '0' ++ digits)
    else
      digits.take (digits.length - places) ++ '.' :: digits.drop (digits.length - places)

/-- `format(d, "f")`. -/
def format : Decimal → List Char
  | finite negative c e =>
      (if negative then ['-'] else []) ++ fixedDigits (Nat.toDigits 10 c) e
  | infinity negative => (if negative then ['-'] else []) ++ "Infinity".toList
  | nan => "NaN".toList

/-! ## Reading -/

/-- A sign, and what follows. -/
def takeSign : List Char → Bool × List Char
  | '-' :: cs => (true, cs)
  | '+' :: cs => (false, cs)
  | cs => (false, cs)

/-- `int(digits)`. -/
def number (digits : List Char) : Nat := Nat.ofDigitChars 10 digits 0

/-- The exponent after the digits: nothing, or the letter, a sign and digits up to the end. -/
def readExponent : List Char → Option Int
  | [] => some 0
  | e :: cs =>
      let (negative, digits) := takeSign cs
      if (e = 'e' ∨ e = 'E') ∧ digits ≠ [] ∧ digits.all Char.isDigit then
        some (if negative then -(number digits : Int) else number digits)
      else none

/-- The digits after a point, and what follows. -/
def takeFraction : List Char → List Char × List Char
  | '.' :: cs => (cs.takeWhile Char.isDigit, cs.dropWhile Char.isDigit)
  | cs => ([], cs)

/-- `Decimal(text)`, `none` where the text is no number. -/
def ofText (cs : List Char) : Option Decimal :=
  let (negative, body) := takeSign cs
  let lower := body.map Char.toLower
  if lower = "inf".toList ∨ lower = "infinity".toList then some (infinity negative)
  else if ("nan".toList <+: lower ∧ (lower.drop 3).all Char.isDigit)
      ∨ ("snan".toList <+: lower ∧ (lower.drop 4).all Char.isDigit) then some nan
  else
    let whole := body.takeWhile Char.isDigit
    let rest := body.drop whole.length
    let (fraction, rest) := takeFraction rest
    if whole = [] ∧ fraction = [] then none
    else (readExponent rest).map fun e =>
      finite negative (number (whole ++ fraction)) (e - fraction.length)

/-! ## What is written is read -/

/-- The number that the full text of a decimal is read as. -/
def fixed : Decimal → Decimal
  | finite negative c e =>
      if 0 ≤ e then finite negative (c * 10 ^ e.toNat) 0 else finite negative c e
  | d => d

theorem fixed_of_nonneg {e : Int} (he : 0 ≤ e) (negative : Bool) (c : Nat) :
    fixed (finite negative c e) = finite negative (c * 10 ^ e.toNat) 0 := if_pos he

theorem fixed_of_neg {e : Int} (he : ¬ 0 ≤ e) (negative : Bool) (c : Nat) :
    fixed (finite negative c e) = finite negative c e := if_neg he

theorem isDigit_of_mem_toDigits {n : Nat} {x : Char} (h : x ∈ Nat.toDigits 10 n) :
    x.isDigit = true := Nat.isDigit_of_mem_toDigits (by decide) (by decide) h

theorem isDigit_of_mem_replicate {n : Nat} {x : Char} (h : x ∈ List.replicate n '0') :
    x.isDigit = true := by
  rw [(List.mem_replicate.mp h).2]
  decide

theorem takeSign_sign (negative : Bool) {x : Char} (hx : x.isDigit = true) (cs : List Char) :
    takeSign ((if negative then ['-'] else []) ++ x :: cs) = (negative, x :: cs) := by
  cases negative with
  | true => rfl
  | false =>
      rw [if_neg Bool.false_ne_true, List.nil_append]
      unfold takeSign
      split
      · rename_i h
        obtain ⟨rfl, -⟩ := List.cons.inj h
        cases hx
      · rename_i h
        obtain ⟨rfl, -⟩ := List.cons.inj h
        cases hx
      · rfl

theorem toLower_of_isDigit {x : Char} (hx : x.isDigit = true) : x.toLower = x := by
  unfold Char.isDigit at hx
  unfold Char.toLower
  rw [Bool.and_eq_true, decide_eq_true_eq, decide_eq_true_eq] at hx
  rw [dif_neg]
  intro h
  exact absurd (UInt32.le_trans h.1 hx.2) (by decide)

/-- A word of letters is no beginning of what begins with a digit. -/
theorem not_prefix_of_isDigit {x : Char} (hx : x.isDigit = true) (cs : List Char) {w : List Char}
    (hw : w.head?.any Char.isDigit = false) (hne : w ≠ []) :
    ¬ w <+: (x :: cs).map Char.toLower := by
  obtain ⟨c, w, rfl⟩ := List.exists_cons_of_ne_nil hne
  rw [List.map_cons, toLower_of_isDigit hx]
  intro h
  rw [(List.cons_prefix_cons.mp h).1, List.head?_cons, Option.any_some, hx] at hw
  cases hw

/-- What is read of a text that begins with a digit. -/
theorem ofText_digit (negative : Bool) {x : Char} (hx : x.isDigit = true) (cs : List Char) :
    ofText ((if negative then ['-'] else []) ++ x :: cs) =
      let whole := (x :: cs).takeWhile Char.isDigit
      let rest := (x :: cs).drop whole.length
      let (fraction, rest) := takeFraction rest
      (readExponent rest).map fun e =>
        finite negative (number (whole ++ fraction)) (e - fraction.length) := by
  have hword : ∀ {w : List Char}, w.head?.any Char.isDigit = false → w ≠ [] →
      ¬ w <+: (x :: cs).map Char.toLower := not_prefix_of_isDigit hx cs
  have hinfinity : ¬((x :: cs).map Char.toLower = "inf".toList ∨
      (x :: cs).map Char.toLower = "infinity".toList) := by
    have hself : ∀ {w : List Char}, (x :: cs).map Char.toLower = w →
        w <+: (x :: cs).map Char.toLower := fun h => h ▸ List.prefix_refl _
    rintro (h | h)
    · exact hword (by decide) (by decide) (hself h)
    · exact hword (by decide) (by decide) (hself h)
  have hnan : ¬(("nan".toList <+: (x :: cs).map Char.toLower ∧
        (((x :: cs).map Char.toLower).drop 3).all Char.isDigit) ∨
      ("snan".toList <+: (x :: cs).map Char.toLower ∧
        (((x :: cs).map Char.toLower).drop 4).all Char.isDigit)) := by
    rintro (⟨h, -⟩ | ⟨h, -⟩)
    · exact hword (by decide) (by decide) h
    · exact hword (by decide) (by decide) h
  have hwhole : (x :: cs).takeWhile Char.isDigit ≠ [] := by
    rw [List.takeWhile_cons_of_pos hx]
    exact List.cons_ne_nil _ _
  unfold ofText
  rw [takeSign_sign negative hx cs]
  dsimp only
  rw [if_neg hinfinity, if_neg hnan, if_neg fun h => hwhole h.1]

/-- Digits up to the end are a number without places. -/
theorem ofText_whole (negative : Bool) {whole : List Char} (hne : whole ≠ [])
    (hwhole : ∀ c ∈ whole, c.isDigit = true) :
    ofText ((if negative then ['-'] else []) ++ whole) =
      some (finite negative (number whole) 0) := by
  obtain ⟨x, cs, rfl⟩ := List.exists_cons_of_ne_nil hne
  rw [ofText_digit negative (hwhole x List.mem_cons_self)]
  dsimp only
  rw [List.takeWhile_eq_self_iff.mpr hwhole, List.drop_length]
  simp [takeFraction, readExponent]

/-- Digits after the point are the places of the number. -/
theorem ofText_point (negative : Bool) {whole fraction : List Char} (hne : whole ≠ [])
    (hwhole : ∀ c ∈ whole, c.isDigit = true) (hfraction : ∀ c ∈ fraction, c.isDigit = true) :
    ofText ((if negative then ['-'] else []) ++ (whole ++ '.' :: fraction)) =
      some (finite negative (number (whole ++ fraction)) (-fraction.length)) := by
  obtain ⟨x, cs, rfl⟩ := List.exists_cons_of_ne_nil hne
  have hx := hwhole x List.mem_cons_self
  have htake : (x :: (cs ++ '.' :: fraction)).takeWhile Char.isDigit = x :: cs := by
    rw [← List.cons_append, List.takeWhile_append_of_pos hwhole,
      List.takeWhile_cons_of_neg (by decide), List.append_nil]
  have hdrop : (x :: (cs ++ '.' :: fraction)).drop (x :: cs).length = '.' :: fraction := by
    rw [← List.cons_append, List.drop_left]
  have hend : fraction.dropWhile Char.isDigit = [] := List.dropWhile_eq_nil_iff.mpr hfraction
  rw [List.cons_append, ofText_digit negative hx]
  dsimp only
  rw [htake, hdrop, takeFraction, List.takeWhile_eq_self_iff.mpr hfraction, hend]
  simp [readExponent]

theorem number_append_replicate (digits : List Char) (n : Nat) :
    number (digits ++ List.replicate n '0') = number digits * 10 ^ n := by
  unfold number
  rw [Nat.ofDigitChars_append, Nat.ofDigitChars_replicate_zero, Nat.mul_comm]

theorem number_replicate_append (digits : List Char) (n : Nat) :
    number (List.replicate n '0' ++ digits) = number digits := by
  unfold number
  rw [Nat.ofDigitChars_append, Nat.ofDigitChars_replicate_zero, Nat.mul_zero]

theorem number_toDigits (n : Nat) : number (Nat.toDigits 10 n) = n := Nat.ofDigitChars_ten_toDigits

theorem ofText_format_finite (negative : Bool) (c : Nat) (e : Int) :
    ofText (format (finite negative c e)) = some (fixed (finite negative c e)) := by
  have hdigits : ∀ x ∈ Nat.toDigits 10 c, x.isDigit = true := fun x => isDigit_of_mem_toDigits
  have hzeros : ∀ n, ∀ x ∈ List.replicate n '0', x.isDigit = true :=
    fun n x => isDigit_of_mem_replicate
  have hne : Nat.toDigits 10 c ≠ [] := Nat.toDigits_ne_nil
  unfold format fixedDigits fixed
  dsimp only
  by_cases he : 0 ≤ e
  · rw [if_pos he, if_pos he]
    by_cases hzero : Nat.toDigits 10 c = ['0']
    · rw [if_pos hzero]
      have hc : c = 0 := by rw [← number_toDigits c, hzero]; rfl
      rw [ofText_whole negative hne hdigits, number_toDigits, hc, Nat.zero_mul]
    · have hall : ∀ x ∈ Nat.toDigits 10 c ++ List.replicate e.toNat '0', x.isDigit = true :=
        List.forall_mem_append.mpr ⟨hdigits, hzeros _⟩
      rw [if_neg hzero, ofText_whole negative (List.append_ne_nil_of_left_ne_nil hne _) hall,
        number_append_replicate, number_toDigits]
  · rw [if_neg he, if_neg he]
    have hplaces : -((-e).toNat : Int) = e := by omega
    by_cases hle : (Nat.toDigits 10 c).length ≤ (-e).toNat
    · rw [if_pos hle]
      have hall : ∀ x ∈ List.replicate ((-e).toNat - (Nat.toDigits 10 c).length) '0' ++
          Nat.toDigits 10 c, x.isDigit = true :=
        List.forall_mem_append.mpr ⟨hzeros _, hdigits⟩
      have hlength : (List.replicate ((-e).toNat - (Nat.toDigits 10 c).length) '0' ++
          Nat.toDigits 10 c).length = (-e).toNat := by
        rw [List.length_append, List.length_replicate]
        omega
      have hzero : ∀ x ∈ ['0'], x.isDigit = true := List.forall_mem_singleton.mpr (by decide)
      have hpoint := ofText_point negative (List.cons_ne_nil '0' []) hzero hall
      rw [List.singleton_append] at hpoint
      rw [hpoint, hlength, hplaces]
      have hnumber : number ('0' :: (List.replicate ((-e).toNat - (Nat.toDigits 10 c).length) '0' ++
          Nat.toDigits 10 c)) = c := by
        rw [← List.cons_append, ← List.replicate_succ, number_replicate_append, number_toDigits]
      rw [List.singleton_append, hnumber]
    · rw [if_neg hle]
      have htake : (Nat.toDigits 10 c).take ((Nat.toDigits 10 c).length - (-e).toNat) ≠ [] := by
        intro h
        rw [List.take_eq_nil_iff] at h
        rcases h with h | h
        · omega
        · exact hne h
      rw [ofText_point negative htake (fun x hx => hdigits x (List.mem_of_mem_take hx))
        (fun x hx => hdigits x (List.mem_of_mem_drop hx)), List.take_append_drop, number_toDigits,
        List.length_drop]
      have hlength : (Nat.toDigits 10 c).length - ((Nat.toDigits 10 c).length - (-e).toNat) =
          (-e).toNat := by omega
      rw [hlength, hplaces]

theorem value_fixed (d : Decimal) : (fixed d).value = d.value := by
  cases d with
  | finite negative c e =>
      by_cases he : 0 ≤ e
      · have hpow : (10 : Rat) ^ e = (10 : Rat) ^ e.toNat := by
          rw [← zpow_natCast, Int.toNat_of_nonneg he]
        rw [fixed_of_nonneg he]
        simp only [value, hpow, zpow_zero, Nat.cast_mul, Nat.cast_pow, Nat.cast_ofNat, mul_one,
          mul_assoc]
      · rw [fixed_of_neg he]
  | infinity negative => rfl
  | nan => rfl

/-- A number times ten has one digit more, a zero. -/
theorem toDigits_mul_pow {c : Nat} (hc : c ≠ 0) (n : Nat) :
    Nat.toDigits 10 (c * 10 ^ n) = Nat.toDigits 10 c ++ List.replicate n '0' := by
  induction n with
  | zero => simp
  | succ n ih =>
      have hpos : 0 < c * 10 ^ n := by positivity
      have hten := Nat.toDigits_append_toDigits (b := 10) (d := 0) (by decide) hpos (by decide)
      have hmul : 10 * (c * 10 ^ n) + 0 = c * 10 ^ (n + 1) := by
        rw [Nat.add_zero, Nat.pow_succ, Nat.mul_left_comm, Nat.mul_comm 10]
      rw [← hmul, ← hten, ih, List.replicate_succ', List.append_assoc]
      rfl

/-- Both are written in the same way. -/
theorem format_fixed (d : Decimal) : format (fixed d) = format d := by
  cases d with
  | finite negative c e =>
      by_cases he : 0 ≤ e
      · rw [fixed_of_nonneg he]
        unfold format fixedDigits
        dsimp only
        rw [if_pos (le_refl 0), if_pos he, Int.toNat_zero, List.replicate_zero, List.append_nil,
          ite_self]
        by_cases hc : c = 0
        · subst hc
          rw [Nat.zero_mul]
          rfl
        · have hzero : Nat.toDigits 10 c ≠ ['0'] := by
            intro h
            have hnumber := number_toDigits c
            rw [h] at hnumber
            exact hc hnumber.symm
          rw [if_neg hzero, toDigits_mul_pow hc]
      · rw [fixed_of_neg he]
  | infinity negative => rfl
  | nan => rfl

theorem nonpos_fixed (d : Decimal) : (fixed d).nonpos = d.nonpos := by
  cases d with
  | finite negative c e =>
      by_cases he : 0 ≤ e
      · have hzero : decide (c * 10 ^ e.toNat = 0) = decide (c = 0) := by
          refine decide_eq_decide.mpr ⟨fun h => ?_, fun h => by rw [h, Nat.zero_mul]⟩
          exact (Nat.mul_eq_zero.mp h).resolve_right (by positivity)
        rw [fixed_of_nonneg he, nonpos, nonpos, hzero]
      · rw [fixed_of_neg he]
  | infinity negative => rfl
  | nan => rfl

theorem isFinite_fixed (d : Decimal) : (fixed d).isFinite = d.isFinite := by
  cases d with
  | finite negative c e =>
      by_cases he : 0 ≤ e
      · rw [fixed_of_nonneg he]
        rfl
      · rw [fixed_of_neg he]
  | infinity negative => rfl
  | nan => rfl

/-- A finite decimal equals what its text is read as. -/
theorem eq_fixed {d : Decimal} (h : d.isFinite = true) : d.eq (fixed d) = true := by
  have heq : ∀ d' : Decimal, d.eq d' = (d.isFinite && d'.isFinite && d.value = d'.value) := by
    cases d with
    | finite negative c e => exact fun d' => rfl
    | infinity negative => cases h
    | nan => cases h
  rw [heq, isFinite_fixed, value_fixed, h]
  simp

/-- **What a finite decimal is written as is read as the same number.** -/
theorem ofText_format {d : Decimal} (h : d.isFinite = true) : ofText (format d) = some (fixed d) := by
  cases d with
  | finite negative c e => exact ofText_format_finite negative c e
  | infinity negative => cases h
  | nan => cases h

theorem mem_fixedDigits {digits : List Char} (hdigits : ∀ x ∈ digits, x.isDigit = true)
    (e : Int) : ∀ x ∈ fixedDigits digits e, x = '.' ∨ x.isDigit = true := by
  intro x hx
  have hzero : ∀ n, x ∈ List.replicate n '0' → x.isDigit = true :=
    fun n => isDigit_of_mem_replicate
  unfold fixedDigits at hx
  dsimp only at hx
  split_ifs at hx
  · exact .inr (hdigits x hx)
  · rcases List.mem_append.mp hx with hx | hx
    · exact .inr (hdigits x hx)
    · exact .inr (hzero _ hx)
  · rw [List.mem_cons, List.mem_cons, List.mem_append] at hx
    rcases hx with rfl | rfl | hx | hx
    · exact .inr (by decide)
    · exact .inl rfl
    · exact .inr (hzero _ hx)
    · exact .inr (hdigits x hx)
  · rw [List.mem_append, List.mem_cons] at hx
    rcases hx with hx | rfl | hx
    · exact .inr (hdigits x (List.mem_of_mem_take hx))
    · exact .inl rfl
    · exact .inr (hdigits x (List.mem_of_mem_drop hx))

/-- A finite decimal is written in digits, a sign and a point. -/
theorem mem_format {d : Decimal} (h : d.isFinite = true) :
    ∀ x ∈ format d, x = '-' ∨ x = '.' ∨ x.isDigit = true := by
  cases d with
  | finite negative c e =>
      intro x hx
      rcases List.mem_append.mp hx with hx | hx
      · cases negative with
        | true => exact .inl (List.mem_singleton.mp hx)
        | false => cases hx
      · exact .inr (mem_fixedDigits (fun y => isDigit_of_mem_toDigits) e x hx)
  | infinity negative => cases h
  | nan => cases h

end Decimal

end Sana.Lib
