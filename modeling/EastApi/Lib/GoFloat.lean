import EastApi.Lib.GoBase
import Mathlib.Data.Rat.Floor

/-! Go's conversion of a `float64` to an `int`, for floats that are taken as exact rationals. -/

namespace Go

open Int

def truncate (x : ℚ) : Int := if 0 ≤ x then ⌊x⌋ else ⌈x⌉

/-- The nearest integer, away from zero of two. -/
def roundAway (x : ℚ) : Int := if 0 ≤ x then ⌊x + 1 / 2⌋ else -⌊-x + 1 / 2⌋

/-- The conversion of a value that no `int` holds is left to the processor: it gives the least `int`
on amd64 and the nearest one on arm64. -/
structure Processor where
  outOfRange : ℚ → Int
  extreme : ∀ x, outOfRange x = -2 ^ 63 ∨ outOfRange x = 2 ^ 63 - 1

def Processor.amd64 : Processor := ⟨fun _ => -2 ^ 63, fun _ => .inl rfl⟩

def Processor.toInt (cpu : Processor) (x : ℚ) : Int :=
  if -2 ^ 63 ≤ truncate x ∧ truncate x < 2 ^ 63 then truncate x else cpu.outOfRange x

theorem truncate_of_nonneg (nonneg : 0 ≤ x) : truncate x = ⌊x⌋ := if_pos nonneg

theorem truncate_of_le {x : ℚ} (negative : x ≤ -1) : truncate x = ⌈x⌉ :=
  if_neg (by linarith)

theorem ceil_neg_of_le {x : ℚ} (negative : x ≤ -1) : ⌈x⌉ < 0 := by
  have bound : ⌈x⌉ ≤ -1 := ceil_le.mpr (by exact_mod_cast negative)
  omega

theorem truncate_neg_iff (x : ℚ) : truncate x < 0 ↔ x ≤ -1 := by
  constructor
  · intro negative
    unfold truncate at negative
    split at negative
    · have := floor_nonneg.mpr (by assumption : 0 ≤ x)
      omega
    · have bound : ⌈x⌉ ≤ -1 := by omega
      exact_mod_cast ceil_le.mp bound
  · intro negative
    rw [truncate_of_le negative]
    exact ceil_neg_of_le negative

theorem truncate_nonneg_iff (x : ℚ) : 0 ≤ truncate x ↔ -1 < x := by
  have negative := truncate_neg_iff x
  constructor
  · intro h
    by_contra small
    have := negative.mpr (not_lt.mp small)
    omega
  · intro h
    by_contra small
    have := negative.mp (not_le.mp small)
    linarith

theorem truncate_eq_pos_iff (positive : 0 < n) : truncate x = n ↔ (n : ℚ) ≤ x ∧ x < n + 1 := by
  have cast : (0 : ℚ) < n := by exact_mod_cast positive
  unfold truncate
  split
  · exact floor_eq_iff
  next negative =>
    have ceil : ⌈x⌉ ≤ 0 := ceil_le.mpr (by push_cast; linarith)
    constructor
    · intro h
      omega
    · rintro ⟨lower, -⟩
      linarith

/-- The `int` of a float is negative, and can be subtracted from the positive `u` without an
overflow, just if the float is at most -1 and not too small. -/
theorem Processor.toInt_negative_iff (cpu : Processor) (x : ℚ) {u : Int} (positive : 0 < u)
    (fits : u < 2 ^ 63) :
    (cpu.toInt x < 0 ∧ 0 ≤ wrap64 (u - cpu.toInt x)) ↔ x ≤ -1 ∧ u < 2 ^ 63 + ⌈x⌉ := by
  unfold Processor.toInt
  split
  next inRange =>
    rw [truncate_neg_iff]
    refine and_congr_right fun negative => ?_
    rw [truncate_of_le negative] at inRange ⊢
    have below := ceil_neg_of_le negative
    by_cases room : u - ⌈x⌉ < 2 ^ 63
    · rw [wrap64_of_fits (by omega) room]
      omega
    · rw [wrap64_of_overflow (by omega) (by omega)]
      omega
  next outside =>
    constructor
    · rintro ⟨negative, subtracted⟩
      rcases cpu.extreme x with least | greatest
      · rw [least] at subtracted
        rw [wrap64_of_overflow (by omega) (by omega)] at subtracted
        omega
      · omega
    · rintro ⟨negative, room⟩
      have below := ceil_neg_of_le negative
      rw [truncate_of_le negative] at outside
      omega

/-- `Div` of `shopspring/decimal`: the quotient to 16 places. -/
def decimalDiv (x y : ℚ) : ℚ := roundAway (x / y * 10 ^ 16) / 10 ^ 16

theorem roundAway_intCast (n : Int) : roundAway n = n := by
  unfold roundAway
  split
  · rw [floor_eq_iff]
    constructor <;> linarith
  · have floor : ⌊-(n : ℚ) + 1 / 2⌋ = -n := by
      rw [floor_eq_iff]
      push_cast
      constructor <;> linarith
    rw [floor, neg_neg]

theorem roundAway_nonneg (nonneg : 0 ≤ x) : 0 ≤ roundAway x := by
  rw [roundAway, if_pos nonneg]
  exact floor_nonneg.mpr (by linarith)

theorem roundAway_nonpos (nonpos : x ≤ 0) : roundAway x ≤ 0 := by
  unfold roundAway
  split
  next nonneg =>
    have zero : x = 0 := le_antisymm nonpos nonneg
    rw [zero]
    norm_num
  · have floor : 0 ≤ ⌊-x + 1 / 2⌋ := floor_nonneg.mpr (by linarith)
    omega

theorem roundAway_mono (le : x ≤ y) : roundAway x ≤ roundAway y := by
  rcases le_total 0 x with nonneg | nonpos
  · rw [roundAway, roundAway, if_pos nonneg, if_pos (nonneg.trans le)]
    exact floor_le_floor (by linarith)
  · rcases lt_or_ge y 0 with negative | nonneg
    · rw [roundAway, roundAway, if_neg (by linarith), if_neg (by linarith)]
      exact neg_le_neg (floor_le_floor (by linarith))
    · exact (roundAway_nonpos nonpos).trans (roundAway_nonneg nonneg)

theorem truncate_intCast (n : Int) : truncate n = n := by
  unfold truncate
  split
  · exact floor_intCast n
  · exact ceil_intCast n

theorem decimalDiv_mul (positive : 0 < y) (n : Int) : decimalDiv (y * n : Int) y = n := by
  have nonzero : (y : ℚ) ≠ 0 := by exact_mod_cast positive.ne'
  have quotient : ((y * n : Int) : ℚ) / y * 10 ^ 16 = ((n * 10 ^ 16 : Int) : ℚ) := by
    push_cast
    rw [mul_div_cancel_left₀ _ nonzero]
    norm_num
  rw [decimalDiv, quotient, roundAway_intCast]
  push_cast
  exact mul_div_cancel_right₀ _ (by norm_num)

theorem decimalDiv_nonpos (nonpos : x ≤ 0) (positive : 0 < y) : decimalDiv x y ≤ 0 := by
  have quotient : x / y * 10 ^ 16 ≤ 0 :=
    mul_nonpos_of_nonpos_of_nonneg (div_nonpos_of_nonpos_of_nonneg nonpos positive.le) (by norm_num)
  have rounded : roundAway (x / y * 10 ^ 16) ≤ 0 := roundAway_nonpos quotient
  exact div_nonpos_of_nonpos_of_nonneg (by exact_mod_cast rounded) (by norm_num)

theorem decimalDiv_nonneg (nonneg : 0 ≤ x) (positive : 0 < y) : 0 ≤ decimalDiv x y := by
  have quotient : 0 ≤ x / y * 10 ^ 16 := by positivity
  have rounded : 0 ≤ roundAway (x / y * 10 ^ 16) := roundAway_nonneg quotient
  exact div_nonneg (by exact_mod_cast rounded) (by norm_num)

/-- The integer part of a quotient by a number of at most 16 digits is the whole quotient: the
rounding to 16 places does not reach the next integer. -/
theorem truncate_decimalDiv {x y : Int} (nonneg : 0 ≤ x) (positive : 0 < y) (digits : y ≤ 10 ^ 16) :
    truncate (decimalDiv x y) = x / y := by
  have cast : (0 : ℚ) < y := by exact_mod_cast positive
  have low : (y : ℚ) * (x / y : Int) ≤ x := by exact_mod_cast mul_ediv_self_le positive.ne'
  have high : (x : ℚ) + 1 ≤ y * ((x / y : Int) + 1) := by
    have next : x < y * (x / y) + y := lt_mul_ediv_self_add positive
    rw [mul_add, mul_one]
    exact_mod_cast next
  have places : (y : ℚ) ≤ 10 ^ 16 := by exact_mod_cast digits
  have whole : (0 : ℚ) ≤ (x / y : Int) := by exact_mod_cast ediv_nonneg nonneg positive.le
  generalize x / y = k at low high whole
  have below : (k : ℚ) ≤ x / y := (le_div_iff₀ cast).mpr (by linarith)
  -- the quotient is below the next integer by one part in `y`, which is one place at least
  have above : (x : ℚ) / y * 10 ^ 16 ≤ (k + 1) * 10 ^ 16 - 1 := by
    rw [div_mul_eq_mul_div, div_le_iff₀ cast]
    nlinarith
  have nonneg : (0 : ℚ) ≤ x / y * 10 ^ 16 := by positivity
  have rounded : k * 10 ^ 16 ≤ roundAway ((x : ℚ) / y * 10 ^ 16) ∧
      roundAway ((x : ℚ) / y * 10 ^ 16) < (k + 1) * 10 ^ 16 := by
    rw [roundAway, if_pos nonneg]
    constructor
    · refine le_floor.mpr ?_
      push_cast
      linarith
    · refine floor_lt.mpr ?_
      push_cast
      linarith
  have first : (k : ℚ) ≤ decimalDiv x y := by
    rw [decimalDiv, le_div_iff₀ (by norm_num)]
    exact_mod_cast rounded.1
  have last : decimalDiv x y < k + 1 := by
    rw [decimalDiv, div_lt_iff₀ (by norm_num)]
    exact_mod_cast rounded.2
  rw [truncate_of_nonneg (whole.trans first)]
  exact floor_eq_iff.mpr ⟨first, last⟩

end Go
