import Idic.Python.Decimal
import Mathlib.Algebra.Order.Field.Power
import Mathlib.Data.Int.Log

/-! Floating point: binary64, rounded to nearest with ties to even.

A double is the fraction it stands for (`Number`). `nearest` rounds a fraction to 53
binary places, or to the last place of the subnormal numbers; what is too large
becomes infinite (`Number.ofRat`). `nearest_near` is the one rule that an error
bound of several operations needs: each one adds a unit in the last place, at the
magnitude of the number it should be. -/
namespace Idic.Python

theorem abs_roundHalfEven_sub_le (q : ℚ) : |roundHalfEven q - q| ≤ 1 / 2 := by
  have hle := Int.floor_le q
  have hlt := Int.lt_floor_add_one q
  unfold roundHalfEven
  split
  · next h =>
    have hhalf : q - ⌊q⌋ ≤ 1 / 2 := h.elim le_of_lt fun heven => heven.1.le
    rw [abs_le]
    constructor <;> linarith
  · next h =>
    have hhalf : 1 / 2 ≤ q - ⌊q⌋ := not_lt.mp fun hlow => h (.inl hlow)
    push_cast
    rw [abs_le]
    constructor <;> linarith

/-! ### Rounding -/

/-- The exponent of the last binary place of a double as large as `q`. -/
def lastPlace (q : ℚ) : Int := max (Int.log 2 |q| - 52) (-1074)

/-- `q` rounded to its last place. -/
def nearest (q : ℚ) : ℚ := roundHalfEven (q / 2 ^ lastPlace q) * 2 ^ lastPlace q

@[simp] theorem nearest_zero : nearest 0 = 0 := by
  have hzero : roundHalfEven (0 : ℚ) = 0 := roundHalfEven_intCast 0
  rw [nearest, zero_div, hzero, Int.cast_zero, zero_mul]

/-- What a rounding may change: half of the last place. -/
theorem abs_nearest_sub_le (q : ℚ) : |nearest q - q| ≤ |q| / 2 ^ 53 + 2 ^ (-1075 : Int) := by
  by_cases hq : q = 0
  · rw [hq, nearest_zero, sub_self, abs_zero, zero_div, zero_add]
    positivity
  have hpos : (0 : ℚ) < 2 ^ lastPlace q := zpow_pos two_pos _
  have herror : |nearest q - q| ≤ 2 ^ lastPlace q / 2 := by
    have heq : nearest q - q = (roundHalfEven (q / 2 ^ lastPlace q) - q / 2 ^ lastPlace q) * 2 ^ lastPlace q := by
      rw [sub_mul, div_mul_cancel₀ _ hpos.ne', nearest]
    rw [heq, abs_mul, abs_of_pos hpos]
    have := mul_le_mul_of_nonneg_right (abs_roundHalfEven_sub_le (q / 2 ^ lastPlace q)) hpos.le
    linarith
  have hplace : (2 : ℚ) ^ lastPlace q ≤ |q| / 2 ^ 52 + 2 ^ (-1074 : Int) := by
    have hlog : (2 : ℚ) ^ Int.log 2 |q| ≤ |q| := by
      exact_mod_cast Int.zpow_log_le_self one_lt_two (abs_pos.mpr hq)
    unfold lastPlace
    rcases le_total (Int.log 2 |q| - 52) (-1074) with h | h
    · rw [max_eq_right h]
      have hnonneg : 0 ≤ |q| / 2 ^ 52 := by positivity
      exact le_add_of_nonneg_left hnonneg
    · rw [max_eq_left h, zpow_sub₀ two_ne_zero]
      have hdiv : (2 : ℚ) ^ Int.log 2 |q| / 2 ^ (52 : Int) ≤ |q| / 2 ^ 52 :=
        div_le_div_of_nonneg_right hlog (by positivity)
      exact hdiv.trans (le_add_of_nonneg_right (by positivity))
  have hhalf : (2 : ℚ) ^ (-1075 : Int) = 2 ^ (-1074 : Int) / 2 := by
    rw [div_eq_mul_inv, ← zpow_neg_one, ← zpow_add₀ two_ne_zero]
    rfl
  have hhalf' : |q| / 2 ^ 53 = |q| / 2 ^ 52 / 2 := by rw [div_div, ← pow_succ]
  rw [hhalf, hhalf']
  linarith

/-- **One more operation**: a number that is `k` units off what it should be is, once
rounded, one unit and a bit further off. -/
theorem nearest_near {q t m k : ℚ} (hm : 2 ^ (-1000 : Int) ≤ m) (hk : k ≤ 16) (ht : |t| ≤ m)
    (hq : |q - t| ≤ k * (m / 2 ^ 53)) : |nearest q - t| ≤ (k + 11 / 10) * (m / 2 ^ 53) := by
  have hround := abs_nearest_sub_le q
  have hm0 : 0 ≤ m / 2 ^ 53 := div_nonneg ((by positivity : (0 : ℚ) ≤ 2 ^ (-1000 : Int)).trans hm) (by positivity)
  have hsize : |q| ≤ m + k * (m / 2 ^ 53) := by
    have := abs_sub_abs_le_abs_sub q t
    linarith
  have hunits : k * (m / 2 ^ 53) / 2 ^ 53 ≤ 1 / 100 * (m / 2 ^ 53) := by
    have hsmall : k / 2 ^ 53 ≤ 1 / 100 := by
      rw [div_le_iff₀ (by positivity)]
      norm_num
      linarith
    calc k * (m / 2 ^ 53) / 2 ^ 53 = k / 2 ^ 53 * (m / 2 ^ 53) := by ring
      _ ≤ 1 / 100 * (m / 2 ^ 53) := mul_le_mul_of_nonneg_right hsmall hm0
  have htiny : (2 : ℚ) ^ (-1075 : Int) ≤ 1 / 100 * (m / 2 ^ 53) := by
    have hscale : (2 : ℚ) ^ (-1075 : Int) = 2 ^ (-1000 : Int) * (1 / 2 ^ 53) * (1 / 2 ^ 22) := by
      rw [one_div, one_div, ← zpow_natCast, ← zpow_natCast, ← zpow_neg, ← zpow_neg, ← zpow_add₀ two_ne_zero,
        ← zpow_add₀ two_ne_zero]
      rfl
    rw [hscale]
    have hscaled : (2 : ℚ) ^ (-1000 : Int) * (1 / 2 ^ 53) ≤ m / 2 ^ 53 := by
      rw [mul_one_div]
      exact div_le_div_of_nonneg_right hm (by positivity)
    calc (2 : ℚ) ^ (-1000 : Int) * (1 / 2 ^ 53) * (1 / 2 ^ 22) ≤ m / 2 ^ 53 * (1 / 2 ^ 22) :=
          mul_le_mul_of_nonneg_right hscaled (by positivity)
      _ ≤ 1 / 100 * (m / 2 ^ 53) := by linarith
  have hfirst : |q| / 2 ^ 53 ≤ m / 2 ^ 53 + k * (m / 2 ^ 53) / 2 ^ 53 := by
    rw [← add_div]
    exact div_le_div_of_nonneg_right hsize (by positivity)
  calc |nearest q - t| ≤ |nearest q - q| + |q - t| := abs_sub_le ..
    _ ≤ k * (m / 2 ^ 53) + 11 / 10 * (m / 2 ^ 53) := by linarith
    _ = (k + 11 / 10) * (m / 2 ^ 53) := (add_mul ..).symm

/-- The first rounding, of what a number should be. -/
theorem nearest_near_self {t m : ℚ} (hm : 2 ^ (-1000 : Int) ≤ m) (ht : |t| ≤ m) :
    |nearest t - t| ≤ 11 / 10 * (m / 2 ^ 53) := by
  have hzero : |t - t| ≤ 0 * (m / 2 ^ 53) := by rw [sub_self, abs_zero, zero_mul]
  have hround := nearest_near hm (by norm_num) ht hzero
  rwa [zero_add] at hround

/-! ### Numbers -/

/-- From here on a number rounds to infinity. -/
def overflowsAt : Nat := 2 ^ 1024 - 2 ^ 970

namespace Number

/-- The number for a fraction. -/
def ofRat (q : ℚ) : Number := if |q| < overflowsAt then .finite (nearest q) else .inf (q < 0)

/-- A number of arbitrary precision, rounded. -/
def round : Number → Number
  | .finite q => ofRat q
  | .inf negative => .inf negative
  | .nan => .nan

/-- `x - d`. -/
def sub (x : Number) (d : ℚ) : Number :=
  match x with
  | .finite q => ofRat (q - d)
  | .inf negative => .inf negative
  | .nan => .nan

/-- `x / d`. -/
def div (x : Number) (d : ℚ) : Except PyError Number :=
  if d = 0 then .error .zeroDivisionError
  else .ok (match x with
    | .finite q => ofRat (q / d)
    | .inf negative => .inf (negative ^^ decide (d < 0))
    | .nan => .nan)

@[simp] theorem div_zero (x : Number) : x.div 0 = .error .zeroDivisionError := if_pos rfl

theorem ofRat_finite {q y : ℚ} (h : ofRat q = .finite y) : y = nearest q := by
  unfold ofRat at h
  split at h
  · cases h
    rfl
  · cases h

theorem sub_finite {x : Number} {d y : ℚ} (h : x.sub d = .finite y) :
    ∃ q, x = .finite q ∧ y = nearest (q - d) := by
  cases x with
  | finite q => exact ⟨q, rfl, ofRat_finite h⟩
  | inf | nan => cases h

theorem div_finite {x : Number} {d y : ℚ} (h : x.div d = .ok (.finite y)) :
    ∃ q, x = .finite q ∧ y = nearest (q / d) := by
  unfold div at h
  split at h
  · cases h
  · cases x with
    | finite q => exact ⟨q, rfl, ofRat_finite (Except.ok.inj h)⟩
    | inf | nan => cases h

end Number

/-- `0.1` is not a double, and neither is the number after 2 to the 53. -/
example : nearest (1 / 10) = 3602879701896397 / 2 ^ 55 ∧ nearest (2 ^ 53 + 1) = 2 ^ 53 := by decide +kernel

end Idic.Python
