import Mathlib.Algebra.Order.Field.Rat
import Mathlib.Data.Int.Log
import Mathlib.Data.Rat.Floor
import Mathlib.Tactic.Linarith

/-!
# Calculating with floats

A finite float is the rational number it stands for, and a sum or a product of two floats is the exact
one, rounded. Which float that is depends on their format. What is used of it is that rounding keeps
order and leaves a float where it is, so a sum is not below its first operand and does not fall when
that operand grows. Sums of many floats depend on the order in which they are added.
-/

namespace Sana.Lib

/-- Sums and products of floats. -/
structure FloatArithmetic where
  plus : Rat → Rat → Rat
  times : Rat → Rat → Rat
  le_plus (a : Rat) {b : Rat} (hb : 0 ≤ b) : a ≤ plus a b
  plus_le_plus {a a' : Rat} (h : a ≤ a') (b : Rat) : plus a b ≤ plus a' b

namespace FloatArithmetic

/-- The sum of a start value and of a list, from left to right. -/
def total (floats : FloatArithmetic) (start : Rat) (l : List Rat) : Rat := l.foldl floats.plus start

variable {floats : FloatArithmetic} {a a' : Rat} {l l' : List Rat}

theorem total_le_total (h : a ≤ a') (l : List Rat) : floats.total a l ≤ floats.total a' l := by
  induction l generalizing a a' with
  | nil => exact h
  | cons x l ih => exact ih (floats.plus_le_plus h x)

theorem le_total (a : Rat) (h : ∀ x ∈ l, 0 ≤ x) : a ≤ floats.total a l := by
  induction l generalizing a with
  | nil => exact le_refl a
  | cons x l ih =>
      rw [List.forall_mem_cons] at h
      exact le_trans (floats.le_plus a h.1) (ih _ h.2)

/-- Fewer summands make no larger sum, whatever stands between them. -/
theorem total_sublist (a : Rat) (hsub : l'.Sublist l) (h : ∀ x ∈ l, 0 ≤ x) :
    floats.total a l' ≤ floats.total a l := by
  induction hsub generalizing a with
  | slnil => exact le_refl _
  | cons x hsub ih =>
      -- the summand that is left out only raises what the others are added to
      rw [List.forall_mem_cons] at h
      exact le_trans (ih a h.2) (total_le_total (floats.le_plus a h.1) _)
  | cons_cons x hsub ih =>
      rw [List.forall_mem_cons] at h
      exact ih _ h.2

/-! ## Roundings -/

/-- Without any rounding. -/
def exact : FloatArithmetic where
  plus a b := a + b
  times a b := a * b
  le_plus a b hb := by linarith
  plus_le_plus h b := by linarith

/--
What a rounding makes of sums and products. A float is not above its rounded sum with what is not
negative; the maximum is about numbers that are no floats.
-/
def ofRounding (round : Rat → Rat) (hmono : Monotone round) : FloatArithmetic where
  plus a b := if 0 ≤ b then max a (round (a + b)) else round (a + b)
  times a b := round (a * b)
  le_plus a b hb := by
    rw [if_pos hb]
    exact le_max_left _ _
  plus_le_plus := by
    intro a a' h b
    have hround : round (a + b) ≤ round (a' + b) := hmono (by linarith)
    split
    · exact max_le_max h hround
    · exact hround

theorem ofRounding_plus {round : Rat → Rat} (hmono : Monotone round) {a : Rat} (ha : round a = a)
    (b : Rat) : (ofRounding round hmono).plus a b = round (a + b) := by
  unfold ofRounding
  dsimp only
  split
  next hb =>
    refine max_eq_right ?_
    calc a = round a := ha.symm
      _ ≤ round (a + b) := hmono (by linarith)
  next => rfl

/-- To the nearest integer, halves to the even one. -/
def halfEven (x : Rat) : Int :=
  let rest := x - x.floor
  if rest < 1 / 2 then x.floor else if 1 / 2 < rest then x.floor + 1
  else if x.floor % 2 = 0 then x.floor else x.floor + 1

theorem halfEven_mono {x y : Rat} (h : x ≤ y) : halfEven x ≤ halfEven y := by
  have hfloor : x.floor ≤ y.floor := Rat.le_floor_iff.mpr ((Rat.floor_le x).trans h)
  rcases hfloor.eq_or_lt with heq | hlt
  · -- in one unit the remainders are in order
    unfold halfEven
    rw [heq]
    dsimp only
    split_ifs <;> first | omega | (exfalso; linarith)
  · -- the next integer after the first stands between the two
    have hup : halfEven x ≤ x.floor + 1 := by
      unfold halfEven
      dsimp only
      split_ifs <;> omega
    have hdown : y.floor ≤ halfEven y := by
      unfold halfEven
      dsimp only
      split_ifs <;> omega
    omega

theorem halfEven_intCast (n : Int) : halfEven n = n := by
  have hfloor : (n : Rat).floor = n := Rat.floor_intCast n
  unfold halfEven
  rw [hfloor, sub_self]
  exact if_pos (by norm_num)

/-- The distance of the floats with 53 bits around a number. -/
def unit (x : Rat) : Rat := 2 ^ (Int.log 2 |x| - 52)

/--
To the nearest number of 53 bits, halves to the even one: the rounding of the binary64 format,
without its bounds on the exponent.
-/
def toFloat (x : Rat) : Rat := halfEven (x / unit x) * unit x

theorem unit_pos (x : Rat) : 0 < unit x := by
  exact zpow_pos two_pos _

theorem unit_scaled (x : Rat) : (2 : Rat) ^ Int.log 2 |x| = 2 ^ 52 * unit x := by
  unfold unit
  rw [← zpow_natCast, ← zpow_add₀ two_ne_zero]
  congr 1
  omega

/-- A number has 53 bits before the point, counted in its unit. -/
theorem abs_div_unit {x : Rat} (hx : x ≠ 0) :
    2 ^ 52 ≤ |x| / unit x ∧ |x| / unit x ≤ 2 ^ 53 := by
  have hpos := unit_pos x
  have hlow : (2 : Rat) ^ Int.log 2 |x| ≤ |x| :=
    Int.zpow_log_le_self one_lt_two (abs_pos.mpr hx)
  have hhigh : |x| < (2 : Rat) ^ (Int.log 2 |x| + 1) := Int.lt_zpow_succ_log_self one_lt_two _
  rw [zpow_add_one₀ two_ne_zero, unit_scaled] at hhigh
  rw [unit_scaled] at hlow
  rw [le_div_iff₀ hpos, div_le_iff₀ hpos]
  constructor <;> linarith

/-- Rounding does not cross an integer. -/
theorem le_halfEven (n : Int) {x : Rat} (h : n ≤ x) : (n : Rat) ≤ halfEven x := by
  have hmono := halfEven_mono h
  rw [halfEven_intCast] at hmono
  exact_mod_cast hmono

theorem halfEven_le (n : Int) {x : Rat} (h : x ≤ n) : (halfEven x : Rat) ≤ n := by
  have hmono := halfEven_mono h
  rw [halfEven_intCast] at hmono
  exact_mod_cast hmono

/-- Numbers of one sign and one unit stay in order. -/
theorem toFloat_le_of_unit {x y : Rat} (h : x ≤ y) (hunit : unit x = unit y) :
    toFloat x ≤ toFloat y := by
  have hpos := unit_pos y
  unfold toFloat
  rw [hunit]
  have hdiv : x / unit y ≤ y / unit y := div_le_div_of_nonneg_right h hpos.le
  exact mul_le_mul_of_nonneg_right (by exact_mod_cast halfEven_mono hdiv) hpos.le

theorem toFloat_bounds {x : Rat} (hx : 0 < x) :
    2 ^ 52 * unit x ≤ toFloat x ∧ toFloat x ≤ 2 ^ 53 * unit x := by
  obtain ⟨hlow, hhigh⟩ := abs_div_unit hx.ne'
  rw [abs_of_pos hx] at hlow hhigh
  have hpos := unit_pos x
  have hle := le_halfEven ((2 : Int) ^ (52 : Nat)) (by push_cast; exact hlow)
  have hge := halfEven_le ((2 : Int) ^ (53 : Nat)) (by push_cast; exact hhigh)
  push_cast at hle hge
  exact ⟨mul_le_mul_of_nonneg_right hle hpos.le, mul_le_mul_of_nonneg_right hge hpos.le⟩

theorem toFloat_bounds_neg {x : Rat} (hx : x < 0) :
    -(2 ^ 53 * unit x) ≤ toFloat x ∧ toFloat x ≤ -(2 ^ 52 * unit x) := by
  obtain ⟨hlow, hhigh⟩ := abs_div_unit hx.ne
  rw [abs_of_neg hx, neg_div] at hlow hhigh
  have hpos := unit_pos x
  have hge := le_halfEven (-(2 : Int) ^ (53 : Nat)) (x := x / unit x) (by push_cast; linarith)
  have hle := halfEven_le (-(2 : Int) ^ (52 : Nat)) (x := x / unit x) (by push_cast; linarith)
  push_cast at hle hge
  rw [← neg_mul, ← neg_mul]
  exact ⟨mul_le_mul_of_nonneg_right hge hpos.le, mul_le_mul_of_nonneg_right hle hpos.le⟩

/-- A number with a larger exponent has at least twice the unit. -/
theorem unit_of_abs_le {x y : Rat} (hx : x ≠ 0) (h : |x| ≤ |y|) :
    unit x = unit y ∨ 2 * unit x ≤ unit y := by
  have hlog : Int.log 2 |x| ≤ Int.log 2 |y| := Int.log_mono_right (abs_pos.mpr hx) h
  rcases hlog.eq_or_lt with heq | hlt
  · left
    rw [unit, unit, heq]
  · right
    unfold unit
    rw [← zpow_one_add₀ two_ne_zero]
    exact zpow_le_zpow_right₀ one_le_two (by omega)

/-- **Rounding keeps order.** -/
theorem toFloat_mono : Monotone toFloat := by
  intro x y h
  have hzero : ∀ z : Rat, 0 ≤ z → 0 ≤ toFloat z := by
    intro z hz
    have hdiv : ((0 : Int) : Rat) ≤ z / unit z := by
      rw [Int.cast_zero]
      exact div_nonneg hz (unit_pos z).le
    have hround := le_halfEven 0 hdiv
    rw [Int.cast_zero] at hround
    exact mul_nonneg hround (unit_pos z).le
  rcases lt_trichotomy x 0 with hx | rfl | hx
  · by_cases hy : y < 0
    · -- the bounds of two units meet in a power of two
      rcases unit_of_abs_le hy.ne (abs_le_abs_of_nonpos hy.le h) with hunit | hunit
      · exact toFloat_le_of_unit h hunit.symm
      · have hleft := (toFloat_bounds_neg hx).2
        have hright := (toFloat_bounds_neg hy).1
        linarith
    · -- rounding changes no sign
      have hleft := (toFloat_bounds_neg hx).2
      have hright := hzero y (not_lt.mp hy)
      have hpos := unit_pos x
      linarith
  · have hnull : toFloat 0 = 0 := by
      unfold toFloat
      rw [zero_div, ← Int.cast_zero, halfEven_intCast, Int.cast_zero, zero_mul]
    rw [hnull]
    exact hzero y h
  · have hy : 0 < y := hx.trans_le h
    have habs : |x| ≤ |y| := by
      rw [abs_of_pos hx, abs_of_pos hy]
      exact h
    rcases unit_of_abs_le hx.ne' habs with hunit | hunit
    · exact toFloat_le_of_unit h hunit
    · have hleft := (toFloat_bounds hx).2
      have hright := (toFloat_bounds hy).1
      linarith

/-- Calculating in the binary64 format. -/
def binary64 : FloatArithmetic := ofRounding toFloat toFloat_mono

/-- A float plus a number is their rounded sum. -/
theorem binary64_plus {a : Rat} (ha : toFloat a = a) (b : Rat) :
    binary64.plus a b = toFloat (a + b) := ofRounding_plus toFloat_mono ha b

end FloatArithmetic

end Sana.Lib
