import Mathlib.Data.Int.Log
import Mathlib.Data.Rat.Floor
import Mathlib.Tactic.Positivity
import RagStack.Common.Rounding
import RagStack.Worker.Text

/-!
# Numbers as text

`Number.prototype.toFixed` of a finite number, with ties away from zero, and whole
numbers in decimal; the double that a finite number is rounded to.
-/

namespace RagStack.Api

open RagStack.Common
open RagStack.Worker (Text)

/-- The number times `10 ^ digits`, rounded; of a number that is not negative. -/
def scaleFixed (digits : ℕ) (value : ℚ) : ℕ := ⌊value * 10 ^ digits + 1 / 2⌋.toNat

/-- `Number(value.toFixed(digits))`. -/
def toFixed (digits : ℕ) (value : ℚ) : ℚ :=
  if value < 0 then -(scaleFixed digits (-value) / 10 ^ digits)
  else scaleFixed digits value / 10 ^ digits

/-- The decimals of `scaled` behind the point. -/
def decimals : ℕ → ℕ → Text
  | 0, _ => []
  | digits + 1, scaled =>
    Nat.digitChar (scaled / 10 ^ digits % 10) :: decimals digits scaled

/-- `value.toFixed(digits)` of a number that is not negative. -/
def fixedDigits (digits : ℕ) (value : ℚ) : Text :=
  let scaled := scaleFixed digits value
  Nat.toDigits 10 (scaled / 10 ^ digits) ++
    if digits = 0 then [] else '.' :: decimals digits scaled

/-- `value.toFixed(digits)`. -/
def fixedText (digits : ℕ) (value : ℚ) : Text :=
  if value < 0 then '-' :: fixedDigits digits (-value) else fixedDigits digits value

/-- A whole number as text. -/
def integerText (value : ℤ) : Text :=
  if value < 0 then '-' :: Nat.toDigits 10 value.natAbs else Nat.toDigits 10 value.natAbs

/-- The nearest integer, of two the even one. -/
def roundTiesToEven (value : ℚ) : ℤ :=
  if Int.fract value = 1 / 2 ∧ Even ⌊value⌋ then ⌊value⌋ else round value

/-- The double that stands for the number: the nearest multiple of the unit in the last of 53
    places. Numbers that overflow or underflow are left out. -/
def double (value : ℚ) : ℚ :=
  let ulp : ℚ := 2 ^ (Int.log 2 |value| - 52)
  roundTiesToEven (value / ulp) * ulp

example : double (double (35 / 100) + double (1 / 10)) < double (45 / 100) := by decide +kernel

/-- The nearest number with that many decimals. -/
theorem toFixed_of_nonneg (digits : ℕ) {value : ℚ} (h : 0 ≤ value) :
    toFixed digits value = round (value * 10 ^ digits) / 10 ^ digits := by
  have hround : (scaleFixed digits value : ℤ) = round (value * 10 ^ digits) := by
    rw [round_eq]
    exact Int.toNat_of_nonneg (Int.floor_nonneg.mpr (by positivity))
  rw [toFixed, if_neg (not_lt.mpr h), ← hround, Int.cast_natCast]

theorem toFixed_mono (digits : ℕ) {low high : ℚ} (hlow : 0 ≤ low) (h : low ≤ high) :
    toFixed digits low ≤ toFixed digits high := by
  rw [toFixed_of_nonneg digits hlow, toFixed_of_nonneg digits (hlow.trans h)]
  have hround : round (low * 10 ^ digits) ≤ round (high * 10 ^ digits) :=
    round_mono (mul_le_mul_of_nonneg_right h (by positivity))
  exact div_le_div_of_nonneg_right (Int.cast_le.mpr hround) (by positivity)

/-- A number with that many decimals stays as it is. -/
theorem toFixed_intCast_div (digits : ℕ) (scaled : ℤ) :
    toFixed digits (scaled / 10 ^ digits) = scaled / 10 ^ digits := by
  have hpos {n : ℤ} (hn : 0 ≤ n) : toFixed digits (n / 10 ^ digits) = n / 10 ^ digits := by
    have hcast : (0 : ℚ) ≤ n := Int.cast_nonneg hn
    rw [toFixed_of_nonneg digits (by positivity), div_mul_cancel₀ _ (by positivity), round_intCast]
  rcases le_or_gt 0 scaled with hscaled | hscaled
  · exact hpos hscaled
  · have hcast : (scaled : ℚ) < 0 := Int.cast_lt_zero.mpr hscaled
    have hneg : (scaled : ℚ) / 10 ^ digits < 0 := div_neg_of_neg_of_pos hcast (by positivity)
    have hflip : toFixed digits (-(scaled / 10 ^ digits)) = -(scaled / 10 ^ digits) := by
      rw [← neg_div, ← Int.cast_neg]
      exact hpos (by omega)
    rw [toFixed, if_pos hneg]
    rw [toFixed, if_neg (by linarith)] at hflip
    rw [hflip, neg_neg]

theorem toDigits_injective {m n : ℕ} (h : Nat.toDigits 10 m = Nat.toDigits 10 n) : m = n := by
  have hread : ∀ k, Nat.ofDigitChars 10 (Nat.toDigits 10 k) 0 = k :=
    fun _ => Nat.ofDigitChars_ten_toDigits
  rw [← hread m, h, hread]

example : fixedText 2 (2 / 3) = "0.67".toList := by decide +kernel

end RagStack.Api
