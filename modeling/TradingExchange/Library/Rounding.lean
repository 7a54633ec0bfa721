/-
**Rounding to double precision.**

`binary64 value` is the double that a positive rational is rounded to: the nearest multiple of the
spacing of doubles at its magnitude, the even one of two. It is defined for the normal range, where
the spacing is 52 binary places below the leading digit; subnormal numbers and overflow are not
treated.

* `binary64_natCast`: integers below 2^53 are doubles;
* `abs_binary64_sub_le`: the error is at most half the spacing.
-/

import Mathlib.Data.Int.Log
import Mathlib.Data.Rat.Floor
import Mathlib.Tactic.Linarith
import Mathlib.Tactic.NormNum

namespace TradingExchange

/-- The nearest integer, the even one of two. -/
def roundEven (value : ℚ) : ℤ :=
  let below := ⌊value⌋
  let rest := value - below
  if rest < 1 / 2 then below
  else if 1 / 2 < rest then below + 1
  else if below % 2 = 0 then below else below + 1

theorem roundEven_intCast (number : ℤ) : roundEven number = number := by
  rw [roundEven, Int.floor_intCast, sub_self, if_pos (by norm_num)]

theorem abs_roundEven_sub_le (value : ℚ) : |(roundEven value : ℚ) - value| ≤ 1 / 2 := by
  have low := Int.floor_le value
  have high := Int.lt_floor_add_one value
  rw [roundEven, abs_le]
  split
  · constructor <;> linarith
  · split
    · push_cast
      constructor <;> linarith
    · split
      · constructor <;> linarith
      · push_cast
        constructor <;> linarith

/-- What is nearer to an integer than a half rounds to it. -/
theorem roundEven_of_near {value : ℚ} {number : ℤ} (near : |value - number| < 1 / 2) :
    roundEven value = number := by
  have rounded := abs_roundEven_sub_le value
  have close : |((roundEven value - number : ℤ) : ℚ)| < 1 := by
    push_cast
    rw [abs_le] at rounded
    rw [abs_lt] at near ⊢
    constructor <;> linarith
  rw [← Int.cast_abs, ← Int.cast_one, Int.cast_lt, Int.abs_lt_one_iff] at close
  omega

/-- The distance of neighbouring doubles at a magnitude. -/
def spacing (value : ℚ) : ℚ := 2 ^ (Int.log 2 value - 52)

/-- The nearest double. -/
def binary64 (value : ℚ) : ℚ := roundEven (value / spacing value) * spacing value

theorem spacing_pos (value : ℚ) : 0 < spacing value := by
  unfold spacing
  exact zpow_pos (by norm_num) _

theorem abs_binary64_sub_le (value : ℚ) : |binary64 value - value| ≤ spacing value / 2 := by
  have positive := spacing_pos value
  have split : binary64 value - value =
      (roundEven (value / spacing value) - value / spacing value) * spacing value := by
    rw [binary64, sub_mul, div_mul_cancel₀ _ positive.ne']
  rw [split, abs_mul, abs_of_pos positive]
  have rounded := abs_roundEven_sub_le (value / spacing value)
  nlinarith

theorem binary64_zero : binary64 0 = 0 := by
  have zero : roundEven 0 = 0 := roundEven_intCast 0
  rw [binary64, zero_div, zero, Int.cast_zero, zero_mul]

theorem spacing_eq_zpow (value : ℚ) : spacing value = 2 ^ Int.log 2 value / 2 ^ 52 := by
  rw [spacing, zpow_sub₀ (by norm_num)]
  norm_num

/-- The spacing below a power of two. -/
theorem spacing_le {value : ℚ} (positive : 0 < value) {exponent : ℕ}
    (small : value < 2 ^ (exponent + 1)) : spacing value ≤ 2 ^ exponent / 2 ^ 52 := by
  have log : Int.log 2 value < exponent + 1 := by
    rw [← Int.lt_zpow_iff_log_lt (by norm_num) positive]
    exact_mod_cast small
  have power : (2 : ℚ) ^ Int.log 2 value ≤ 2 ^ (exponent : ℤ) :=
    zpow_le_zpow_right₀ (by norm_num) (by omega)
  rw [zpow_natCast] at power
  rw [spacing_eq_zpow]
  gcongr

/-- The spacing between two powers of two. -/
theorem spacing_eq {value : ℚ} {exponent : ℕ} (low : 2 ^ exponent ≤ value)
    (high : value < 2 ^ (exponent + 1)) : spacing value = 2 ^ exponent / 2 ^ 52 := by
  have positive : 0 < value := lt_of_lt_of_le (by positivity) low
  have above : Int.log 2 value < exponent + 1 := by
    rw [← Int.lt_zpow_iff_log_lt (by norm_num) positive]
    exact_mod_cast high
  have below : (exponent : ℤ) ≤ Int.log 2 value := by
    rw [← Int.zpow_le_iff_le_log (by norm_num) positive]
    exact_mod_cast low
  have log : Int.log 2 value = exponent := by omega
  rw [spacing_eq_zpow, log, zpow_natCast]

/-- **Integers below 2^53 are doubles.** -/
theorem binary64_natCast {number : ℕ} (small : number < 2 ^ 53) :
    binary64 number = number := by
  rcases Nat.eq_zero_or_pos number with rfl | positive
  · exact binary64_zero
  · have log : Nat.log 2 number < 53 := Nat.log_lt_of_lt_pow (Nat.ne_of_gt positive) small
    have step : spacing number = 1 / 2 ^ (52 - Nat.log 2 number) := by
      have exponent : (Nat.log 2 number : ℤ) - 52 = -((52 - Nat.log 2 number : ℕ) : ℤ) := by omega
      rw [spacing, Int.log_natCast, exponent, zpow_neg, zpow_natCast, one_div]
    have whole : (number : ℚ) / spacing number =
        ((number * 2 ^ (52 - Nat.log 2 number) : ℤ) : ℚ) := by
      rw [step, div_div_eq_mul_div, div_one]
      push_cast
      ring
    rw [binary64, whole, roundEven_intCast, ← whole, div_mul_cancel₀ _ (spacing_pos _).ne']

end TradingExchange
