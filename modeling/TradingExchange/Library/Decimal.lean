/-
**Numbers in decimal.**

`decimal places number` is the text of `number / 10 ^ places` with all its places, and
`fixed places value` that of a rational rounded to so many places. The digits determine the number
(`decimal_injective`), and a double that was meant to be a decimal fraction prints as that fraction
if doubles are dense enough there (`fixed_quotient`).
-/

import Std.Data.String.ToNat
import TradingExchange.Library.Rounding
import TradingExchange.Library.Text

namespace TradingExchange

/-- The digits of a number, with leading zeros. -/
def padded (places number : ℕ) : List Char :=
  List.replicate (places - (Nat.toDigits 10 number).length) '0' ++ Nat.toDigits 10 number

/-- A number of units of the last place. -/
def decimal (places number : ℕ) : String :=
  Nat.repr (number / 10 ^ places) ++ "." ++ String.ofList (padded places (number % 10 ^ places))

/-- A rational, rounded to so many places. -/
def fixed (places : ℕ) (value : ℚ) : String :=
  decimal places (roundEven (value * 10 ^ places)).toNat

/-- A character of a decimal number. -/
def Numeric (char : Char) : Prop := char.isDigit = true ∨ char = '.'

instance : DecidablePred Numeric := fun _ => inferInstanceAs (Decidable (_ ∨ _))

theorem isDigit_of_mem_repr {number : ℕ} {char : Char} (member : char ∈ (Nat.repr number).toList) :
    char.isDigit = true := by
  rw [Nat.toList_repr] at member
  exact Nat.isDigit_of_mem_toDigits (by decide) (by decide) member

theorem isDigit_of_mem_padded {places number : ℕ} {char : Char}
    (member : char ∈ padded places number) : char.isDigit = true := by
  rcases List.mem_append.mp member with zero | digit
  · rw [List.eq_of_mem_replicate zero]
    decide
  · exact Nat.isDigit_of_mem_toDigits (by decide) (by decide) digit

theorem toList_decimal (places number : ℕ) : (decimal places number).toList =
    (Nat.repr (number / 10 ^ places)).toList ++ '.' :: padded places (number % 10 ^ places) := by
  simp [decimal]

theorem numeric_of_mem_decimal {places number : ℕ} {char : Char}
    (member : char ∈ (decimal places number).toList) : Numeric char := by
  rw [toList_decimal] at member
  rcases List.mem_append.mp member with whole | fraction
  · exact .inl (isDigit_of_mem_repr whole)
  · rcases List.mem_cons.mp fraction with point | digit
    · exact .inr point
    · exact .inl (isDigit_of_mem_padded digit)

theorem numeric_of_mem_fixed {places : ℕ} {value : ℚ} {char : Char}
    (member : char ∈ (fixed places value).toList) : Numeric char :=
  numeric_of_mem_decimal member

theorem padded_injective {places number other : ℕ}
    (same : padded places number = padded places other) : number = other := by
  have value : ∀ number, Nat.ofDigitChars 10 (padded places number) 0 = number := by
    intro number
    rw [padded, Nat.ofDigitChars_append, Nat.ofDigitChars_replicate_zero, Nat.mul_zero,
      Nat.ofDigitChars_ten_toDigits]
  rw [← value number, same, value]

/-- **The text of a number with so many places determines it.** -/
theorem decimal_injective {places number other : ℕ}
    (same : decimal places number = decimal places other) : number = other := by
  have digits : ∀ number, ∀ char ∈ (Nat.repr number).toList, char.isDigit = true :=
    fun _ _ => isDigit_of_mem_repr
  have point : ∀ later : List Char, ∀ char ∈ ('.' :: later).head?, ¬ char.isDigit = true := by
    intro later char first
    obtain rfl := Option.some.inj first
    decide
  have texts := congrArg String.toList same
  rw [toList_decimal, toList_decimal] at texts
  obtain ⟨whole, rest⟩ := split_run (fun char => char.isDigit = true) (digits _) (digits _)
    (point _) (point _) texts
  have fraction := (List.cons.inj rest).2
  have one := Nat.repr_injective (String.toList_inj.mp whole)
  have two := padded_injective fraction
  rw [← Nat.div_add_mod number (10 ^ places), one, two, Nat.div_add_mod]

/-- **A value near a decimal fraction prints as that fraction.** -/
theorem fixed_of_near {places number : ℕ} {value : ℚ}
    (near : |value * 10 ^ places - number| < 1 / 2) :
    fixed places value = decimal places number := by
  have rounded : roundEven (value * 10 ^ places) = number := roundEven_of_near near
  rw [fixed, rounded, Int.toNat_natCast]

/-- **A double that stands for a decimal fraction prints as that fraction**, below the magnitude at
which doubles are less dense than the fractions. -/
theorem fixed_quotient {places number : ℕ} (exponent : ℕ) (dense : 10 ^ places * 2 ^ exponent < 2 ^ 52)
    (small : number < 10 ^ places * 2 ^ (exponent + 1)) :
    fixed places (binary64 ((number : ℚ) / 10 ^ places)) = decimal places number := by
  refine fixed_of_near ?_
  have scale : (0 : ℚ) < 10 ^ places := by positivity
  rcases Nat.eq_zero_or_pos number with rfl | positive
  · rw [Nat.cast_zero, zero_div, binary64_zero]
    norm_num
  · have value : (0 : ℚ) < number / 10 ^ places := by positivity
    have below : (number : ℚ) / 10 ^ places < 2 ^ (exponent + 1) := by
      rw [div_lt_iff₀ scale, mul_comm]
      exact_mod_cast small
    have step := spacing_le value below
    have error := abs_binary64_sub_le ((number : ℚ) / 10 ^ places)
    have units : binary64 ((number : ℚ) / 10 ^ places) * 10 ^ places - number =
        (binary64 ((number : ℚ) / 10 ^ places) - number / 10 ^ places) * 10 ^ places := by
      rw [sub_mul, div_mul_cancel₀ _ scale.ne']
    have fine : (10 : ℚ) ^ places * 2 ^ exponent < 2 ^ 52 := by exact_mod_cast dense
    rw [units, abs_mul, abs_of_pos scale]
    calc |binary64 ((number : ℚ) / 10 ^ places) - number / 10 ^ places| * 10 ^ places
        ≤ (2 ^ exponent / 2 ^ 52 / 2) * 10 ^ places := by
          gcongr
          linarith
      _ < 1 / 2 := by
          rw [div_div, div_mul_eq_mul_div, div_lt_iff₀ (by positivity)]
          linarith

end TradingExchange
