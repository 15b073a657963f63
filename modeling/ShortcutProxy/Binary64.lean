import Mathlib

/-!
# Rounding to double precision

A floating-point result is the exact rational result rounded to 53 significant
binary digits, halfway cases to the even neighbour. Numbers stay rational here, and
each operation of a program is written as the exact operation followed by
`binary64`. The exponent range of the format is not bounded, so neither overflow nor
gradual underflow occurs; that is exact for magnitudes from `2 ^ (-1022)` up to
`2 ^ 1024`.

What programs rely on is that rounding never changes an order.
-/

namespace ShortcutProxy.Binary64

open Int

/-! ## Rounding to an integer -/

/-- The nearest integer, halfway cases to the even one. -/
def nearestEven (number : ℚ) : ℤ :=
  if number - ⌊number⌋ < 1 / 2 then ⌊number⌋
  else if 1 / 2 < number - ⌊number⌋ then ⌊number⌋ + 1
  else if ⌊number⌋ % 2 = 0 then ⌊number⌋ else ⌊number⌋ + 1

theorem floor_le_nearestEven (number : ℚ) : ⌊number⌋ ≤ nearestEven number := by
  unfold nearestEven
  split_ifs <;> omega

theorem nearestEven_le_floor (number : ℚ) : nearestEven number ≤ ⌊number⌋ + 1 := by
  unfold nearestEven
  split_ifs <;> omega

theorem nearestEven_mono : Monotone nearestEven := by
  intro left right ordered
  rcases (floor_mono ordered).lt_or_eq with apart | same
  · have below := nearestEven_le_floor left
    have above := floor_le_nearestEven right
    omega
  · have fractions : left - ⌊left⌋ ≤ right - ⌊right⌋ := by
      rw [same]
      linarith
    unfold nearestEven
    rw [same] at fractions ⊢
    split_ifs <;> first | omega | (exfalso; linarith)

@[simp] theorem nearestEven_intCast (number : ℤ) : nearestEven number = number := by
  have small : (number : ℚ) - ⌊(number : ℚ)⌋ < 1 / 2 := by
    rw [floor_intCast, sub_self]
    norm_num
  rw [nearestEven, if_pos small, floor_intCast]

theorem nearestEven_two_pow (digits : ℕ) : nearestEven (2 ^ digits) = 2 ^ digits := by
  exact_mod_cast nearestEven_intCast (2 ^ digits)

/-- Rounding is symmetric about zero. -/
theorem nearestEven_neg (number : ℚ) : nearestEven (-number) = -nearestEven number := by
  by_cases whole : (⌊number⌋ : ℚ) = number
  · rw [← whole, ← cast_neg, nearestEven_intCast, nearestEven_intCast]
  · have above : (⌊number⌋ : ℚ) < number := lt_of_le_of_ne (floor_le number) whole
    have below : number < ⌊number⌋ + 1 := lt_floor_add_one number
    have mirrored : ⌊-number⌋ = -⌊number⌋ - 1 := by
      rw [floor_eq_iff]
      push_cast
      constructor <;> linarith
    unfold nearestEven
    rw [mirrored]
    push_cast
    split_ifs <;> first | omega | (exfalso; linarith)

/-- The number without its fraction, as a conversion to an integer cuts it off. -/
def truncated (number : ℚ) : ℤ := if number < 0 then ⌈number⌉ else ⌊number⌋

theorem truncated_mono : Monotone truncated := by
  intro left right ordered
  by_cases negative : right < 0
  · rw [truncated, truncated, if_pos (ordered.trans_lt negative), if_pos negative]
    exact ceil_mono ordered
  · by_cases below : left < 0
    · rw [truncated, truncated, if_pos below, if_neg negative]
      have left_nonpos : ⌈left⌉ ≤ 0 := ceil_le.mpr (by exact_mod_cast below.le)
      exact left_nonpos.trans (floor_nonneg.mpr (not_lt.mp negative))
    · rw [truncated, truncated, if_neg below, if_neg negative]
      exact floor_mono ordered

/-! ## Rounding to 53 digits -/

/-- The weight of the last of 53 binary digits of a number. -/
def unit (number : ℚ) : ℚ := 2 ^ (Int.log 2 |number| - 52)

/-- The double nearest to a number. -/
def binary64 (number : ℚ) : ℚ := nearestEven (number / unit number) * unit number

theorem unit_pos (number : ℚ) : 0 < unit number := zpow_pos two_pos _

theorem binary64_neg (number : ℚ) : binary64 (-number) = -binary64 number := by
  have same : unit (-number) = unit number := by rw [unit, unit, abs_neg]
  rw [binary64, same, neg_div, nearestEven_neg, binary64]
  push_cast
  ring

theorem binary64_nonneg {number : ℚ} (nonneg : 0 ≤ number) : 0 ≤ binary64 number := by
  have scaled : (0 : ℤ) ≤ nearestEven (number / unit number) := by
    have ordered := nearestEven_mono (div_nonneg nonneg (unit_pos number).le)
    rwa [← cast_zero, nearestEven_intCast] at ordered
  exact mul_nonneg (by exact_mod_cast scaled) (unit_pos number).le

section Positive

variable {number : ℚ} (positive : 0 < number)
include positive

/-- In units of the last digit a number has 53 binary digits. -/
theorem two_pow_le_div_unit : (2 : ℚ) ^ 52 ≤ number / unit number := by
  rw [le_div_iff₀ (unit_pos number), unit, abs_of_pos positive, ← zpow_natCast,
    ← zpow_add₀ two_ne_zero]
  have exponent : ((52 : ℕ) : ℤ) + (log 2 number - 52) = log 2 number := by omega
  rw [exponent]
  exact zpow_log_le_self Nat.one_lt_two positive

theorem div_unit_le_two_pow : number / unit number ≤ (2 : ℚ) ^ 53 := by
  rw [div_le_iff₀ (unit_pos number), unit, abs_of_pos positive, ← zpow_natCast,
    ← zpow_add₀ two_ne_zero]
  have exponent : ((53 : ℕ) : ℤ) + (log 2 number - 52) = log 2 number + 1 := by omega
  rw [exponent]
  exact (lt_zpow_succ_log_self Nat.one_lt_two number).le

/-- Rounding stays between the two powers of two around a number. -/
theorem two_zpow_log_le_binary64 : (2 : ℚ) ^ log 2 number ≤ binary64 number := by
  have digits : (2 : ℤ) ^ 52 ≤ nearestEven (number / unit number) := by
    have ordered := nearestEven_mono (two_pow_le_div_unit positive)
    rwa [nearestEven_two_pow] at ordered
  have scaled : (2 : ℚ) ^ 52 * unit number ≤ binary64 number :=
    mul_le_mul_of_nonneg_right (by exact_mod_cast digits) (unit_pos number).le
  refine le_trans (le_of_eq ?_) scaled
  rw [unit, abs_of_pos positive, ← zpow_natCast, ← zpow_add₀ two_ne_zero]
  congr 1
  omega

theorem binary64_le_two_zpow_log_succ : binary64 number ≤ (2 : ℚ) ^ (log 2 number + 1) := by
  have digits : nearestEven (number / unit number) ≤ (2 : ℤ) ^ 53 := by
    have ordered := nearestEven_mono (div_unit_le_two_pow positive)
    rwa [nearestEven_two_pow] at ordered
  have scaled : binary64 number ≤ (2 : ℚ) ^ 53 * unit number :=
    mul_le_mul_of_nonneg_right (by exact_mod_cast digits) (unit_pos number).le
  refine scaled.trans (le_of_eq ?_)
  rw [unit, abs_of_pos positive, ← zpow_natCast, ← zpow_add₀ two_ne_zero]
  congr 1
  omega

end Positive

theorem binary64_mono_of_pos {left right : ℚ} (positive : 0 < left) (ordered : left ≤ right) :
    binary64 left ≤ binary64 right := by
  have larger : 0 < right := positive.trans_le ordered
  rcases (log_mono_right positive ordered : log 2 left ≤ log 2 right).lt_or_eq with
    apart | same
  · calc binary64 left
        ≤ (2 : ℚ) ^ (log 2 left + 1) := binary64_le_two_zpow_log_succ positive
      _ ≤ (2 : ℚ) ^ log 2 right := zpow_le_zpow_right₀ one_le_two (by omega)
      _ ≤ binary64 right := two_zpow_log_le_binary64 larger
  · have units : unit left = unit right := by
      rw [unit, unit, abs_of_pos positive, abs_of_pos larger, same]
    rw [binary64, binary64, units]
    refine mul_le_mul_of_nonneg_right ?_ (unit_pos right).le
    have quotients := div_le_div_of_nonneg_right ordered (unit_pos right).le
    exact_mod_cast nearestEven_mono quotients

/-- Rounding to double precision never changes an order. -/
theorem binary64_mono : Monotone binary64 := by
  intro left right ordered
  rcases lt_or_ge 0 left with positive | nonpositive
  · exact binary64_mono_of_pos positive ordered
  · rcases lt_or_ge right 0 with negative | nonnegative
    · have mirrored := binary64_mono_of_pos (neg_pos.mpr negative) (neg_le_neg ordered)
      rw [binary64_neg, binary64_neg] at mirrored
      exact neg_le_neg_iff.mp mirrored
    · have below := binary64_nonneg (neg_nonneg.mpr nonpositive)
      rw [binary64_neg] at below
      exact (neg_nonneg.mp below).trans (binary64_nonneg nonnegative)

end ShortcutProxy.Binary64
