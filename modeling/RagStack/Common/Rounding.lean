import Mathlib.Algebra.Order.Round
import Mathlib.Tactic.Linarith

/-!
# Differences of rounded numbers

A difference `high - low` is compared with `step`, once as it is and once with all three
numbers rounded to the nearest integer, ties up.

* `round_sub_reaches_iff`: when the two comparisons agree, for steps that are integers
  and for differences that are the step or not close to it.
-/

namespace RagStack.Common

variable {α : Type} [Field α] [LinearOrder α] [IsStrictOrderedRing α] [FloorRing α]

/-! ## The nearest integer -/

theorem round_mono {x y : α} (h : x ≤ y) : round x ≤ round y := by
  rw [round_eq, round_eq]
  exact Int.floor_le_floor (by linarith)

theorem sub_half_lt_round (x : α) : x - 1 / 2 < round x := by
  rw [round_eq]
  have hfloor := Int.lt_floor_add_one (x + 1 / 2)
  linarith

theorem round_eq_floor {x : α} (h : Int.fract x < 1 / 2) : round x = ⌊x⌋ := by
  have hparts := Int.floor_add_fract x
  have hnonneg := Int.fract_nonneg x
  rw [round_eq, Int.floor_eq_iff]
  constructor <;> linarith

theorem round_eq_floor_add_one {x : α} (h : 1 / 2 ≤ Int.fract x) : round x = ⌊x⌋ + 1 := by
  have hparts := Int.floor_add_fract x
  have hlt := Int.fract_lt_one x
  rw [round_eq, Int.floor_eq_iff]
  push_cast
  constructor <;> linarith

/-! ## The difference and the step -/

/-- The difference of the rounded numbers reaches the rounded step where `high - low`
    does not reach `step`, or the other way round. -/
def RoundingDiffers (low high step : α) : Prop :=
  (high - low = step ∧ 1 / 2 ≤ Int.fract low ∧ 1 / 2 ≤ Int.fract step ∧
    Int.fract high < 1 / 2) ∨
  (high - low < step ∧ round (high - step) = round low)

/-- Nothing is lost when one of the parts is rounded down. -/
theorem round_add_round_le {x y : α} (h : Int.fract x < 1 / 2) :
    round x + round y ≤ round (x + y) := by
  rw [round_eq_floor h, ← round_intCast_add]
  exact round_mono (add_le_add_left (Int.floor_le x) y)

/-- A unit is lost where two parts are rounded up and their sum is rounded down. -/
theorem round_add_round_le_iff (low step : α) :
    round low + round step ≤ round (low + step) ↔
      ¬ (1 / 2 ≤ Int.fract low ∧ 1 / 2 ≤ Int.fract step ∧ Int.fract (low + step) < 1 / 2) := by
  rcases lt_or_ge (Int.fract low) (1 / 2) with hlow | hlow
  · exact iff_of_true (round_add_round_le hlow) fun h => absurd h.1 (not_le.mpr hlow)
  rcases lt_or_ge (Int.fract step) (1 / 2) with hstep | hstep
  · refine iff_of_true ?_ fun h => absurd h.2.1 (not_le.mpr hstep)
    rw [add_comm (round low), add_comm low]
    exact round_add_round_le hstep
  have hfloor : ⌊low + step⌋ = ⌊low⌋ + ⌊step⌋ + 1 := by
    have hlow' := Int.floor_add_fract low
    have hstep' := Int.floor_add_fract step
    have hlow1 := Int.fract_lt_one low
    have hstep1 := Int.fract_lt_one step
    rw [Int.floor_eq_iff]
    push_cast
    constructor <;> linarith
  rw [round_eq_floor_add_one hlow, round_eq_floor_add_one hstep]
  rcases lt_or_ge (Int.fract (low + step)) (1 / 2) with hsum | hsum
  · rw [round_eq_floor hsum, hfloor]
    exact iff_of_false (by omega) fun h => h ⟨hlow, hstep, hsum⟩
  · rw [round_eq_floor_add_one hsum, hfloor]
    exact iff_of_true (by omega) fun h => absurd h.2.2 (not_lt.mpr hsum)

/-- Below an integer step, rounding reaches it when no boundary of the rounding lies
    between `high - step` and `low`. -/
theorem round_add_intCast_le_iff {low high : α} {step : ℤ} (h : high - low < step) :
    round low + step ≤ round high ↔ round (high - step) = round low := by
  have hmono : round (high - step) ≤ round low := round_mono (by linarith)
  rw [round_sub_intCast] at hmono ⊢
  omega

/-- Each of the three roundings moves a number by at most one half. -/
theorem round_lt_of_far {low high step : α} (h : high - low < step - 2) :
    round high < round low + round step := by
  have hhigh := round_le_add_half high
  have hlow := sub_half_lt_round low
  have hstep := sub_half_lt_round step
  have hcast : (round high : α) < ((round low + round step : ℤ) : α) := by
    push_cast
    linarith
  exact Int.cast_lt.mp hcast

theorem round_ge_of_far {low high step : α} (h : step + 2 < high - low) :
    round low + round step ≤ round high := by
  have hhigh := sub_half_lt_round high
  have hlow := round_le_add_half low
  have hstep := round_le_add_half step
  have hcast : ((round low + round step : ℤ) : α) < round high := by
    push_cast
    linarith
  exact (Int.cast_lt.mp hcast).le

theorem round_sub_reaches_iff {low high step : α}
    (h : (∃ n : ℤ, step = n) ∨ high - low = step ∨ 2 < |high - low - step|) :
    (round low + round step ≤ round high ↔ step ≤ high - low) ↔
      ¬ RoundingDiffers low high step := by
  rcases lt_trichotomy (high - low) step with hlt | heq | hgt
  · have hdiffers : RoundingDiffers low high step ↔ round (high - step) = round low :=
      ⟨fun h => h.elim (fun h => absurd h.1 hlt.ne) And.right, fun h => Or.inr ⟨hlt, h⟩⟩
    rw [hdiffers, iff_false_right (not_le.mpr hlt), not_iff_not]
    rcases h with ⟨n, rfl⟩ | heq | hfar
    · rw [round_intCast]
      exact round_add_intCast_le_iff hlt
    · exact absurd heq hlt.ne
    · rw [abs_of_neg (by linarith)] at hfar
      have hbelow := round_lt_of_far (by linarith : high - low < step - 2)
      refine iff_of_false (not_le.mpr hbelow) fun hsame => ?_
      have hhigh := round_le_add_half (high - step)
      have hlow := sub_half_lt_round low
      rw [hsame] at hhigh
      linarith
  · have hdiffers : RoundingDiffers low high step ↔
        1 / 2 ≤ Int.fract low ∧ 1 / 2 ≤ Int.fract step ∧ Int.fract (low + step) < 1 / 2 := by
      have hhigh : low + step = high := by linarith
      rw [hhigh]
      exact ⟨fun h => h.elim And.right fun h => absurd heq h.1.ne, fun h => Or.inl ⟨heq, h⟩⟩
    rw [hdiffers, iff_true_right heq.ge, ← round_add_round_le_iff]
    rw [show low + step = high by linarith]
  · refine iff_of_true (iff_of_true ?_ hgt.le) ?_
    · rcases h with ⟨n, rfl⟩ | heq | hfar
      · rw [round_intCast, ← round_add_intCast]
        exact round_mono (by linarith)
      · exact absurd heq hgt.ne'
      · rw [abs_of_pos (by linarith)] at hfar
        exact round_ge_of_far (by linarith)
    · rintro (⟨heq, -⟩ | ⟨hlt, -⟩)
      · exact absurd heq hgt.ne'
      · exact absurd hlt hgt.le.not_gt

end RagStack.Common
