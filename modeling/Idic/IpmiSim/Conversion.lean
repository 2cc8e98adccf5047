import Idic.IpmiSim.Coefficients
import Idic.IpmiSim.SensorInfo
import Idic.Python.Double

/-! The linear conversion in floating point.

`formula_2` rounds after each of its operations, and the number that is typed has
been rounded before; `floatFormula2_near` bounds what this adds up to. So a number
that keeps a margin from the readable values of -1 and 256 is converted to one
between them (`floatFormula2_mem`), and one beyond the margin is not. -/
namespace Idic.IpmiSim
open Python

/-- `int(x)`: toward zero. -/
def truncate (q : ℚ) : Int := if 0 ≤ q then ⌊q⌋ else ⌈q⌉

/-- `int(x)` of a floating point number. -/
def toInt : Number → Except PyError Int
  | .finite q => .ok (truncate q)
  | .inf _ => .error .overflowError
  | .nan => .error .valueError

/-- `float(n)` of an integer. -/
def toFloat (n : Int) : Except PyError ℚ :=
  if n.natAbs < overflowsAt then .ok (nearest n) else .error .overflowError

namespace Sensor

namespace ReadingFactor
variable (r : ReadingFactor)

/-- The converted value before the decimal point is moved. -/
def scaled (x : Int) : Int := r.M * x + r.B * 10 ^ r.Bexpo

/-- `formula_1`, as a float: an integer where the result exponent is not negative. -/
def floatFormula1 (n : Int) : Except PyError ℚ :=
  if 0 ≤ r.Rexpo then toFloat (r.scaled n * 10 ^ r.Rexpo.toNat)
  else (toFloat (r.scaled n)).map fun y => nearest (y * nearest (10 ^ r.Rexpo))

/-- `formula_2`. `10**Rexpo` and `B*10**Bexpo` become floats where they meet one; so
does `M`, which is small enough to stay what it is. -/
def floatFormula2 (x : Number) : Except PyError Number := do
  let y ← x.div (nearest (10 ^ r.Rexpo))
  (y.sub (nearest (r.B * 10 ^ r.Bexpo))).div r.M

/-- The reading of the raw value is in the range of a double, before it is rounded. -/
def InRange (n : Int) : Prop := (r.scaled n * 10 ^ r.Rexpo.toNat).natAbs < overflowsAt

instance (n : Int) : Decidable (r.InRange n) := inferInstanceAs (Decidable (_ < _))

/-- The offset of the conversion, in raw units. -/
def offset : ℚ := |(r.B * 10 ^ r.Bexpo : ℚ)| / r.M

/-- The ranges of what the bytes hold. -/
structure Bounded : Prop where
  M : 0 ≤ r.M ∧ r.M ≤ 1023
  B : -512 ≤ r.B ∧ r.B ≤ 511
  Rexpo : -8 ≤ r.Rexpo ∧ r.Rexpo ≤ 7
  Bexpo : r.Bexpo ≤ 15

end ReadingFactor

theorem getReadingFactor_bounded {s : Sensor} {r : ReadingFactor} (h : s.getReadingFactor = .ok r) :
    r.Bounded := by
  unfold getReadingFactor at h
  cases hf : s.factors with
  | none =>
    rw [hf] at h
    cases h
  | some f =>
    rw [hf] at h
    cases h
    have hmLb := f.mLb.toNat_lt
    have hmUb := f.mUb.toNat_lt
    have hbLb := f.bLb.toNat_lt
    have hbUb := f.bUb.toNat_lt
    have hexp := f.exp.toNat_lt
    refine ⟨?_, ?_, ?_, ?_⟩ <;> dsimp only
    · rw [upperBits _ hmUb]
      omega
    · rw [signBit _ hbUb, ninthBit _ hbUb, upperBits _ hbUb]
      split
      · rw [complement _ (by omega), not_natCast]
        omega
      · omega
    · rw [resultExponent _ hexp]
      split <;> omega
    · rw [offsetExponent _ hexp]
      omega

/-! ### What the roundings add up to -/

theorem tiny_le : (2 : ℚ) ^ (-1000 : Int) ≤ 1 / 2 ^ 27 := by
  have hmono : (2 : ℚ) ^ (-1000 : Int) ≤ 2 ^ (-27 : Int) := zpow_le_zpow_right₀ (by norm_num) (by norm_num)
  exact hmono.trans (by norm_num)

/-- A quotient whose divisor is rounded: `c` is the divisor by what it should be. -/
theorem abs_div_sub_le {a t m c : ℚ} (ht : |t| ≤ m) (ha : |a - t| ≤ 11 / 10 * (m / 2 ^ 53))
    (hc : |c - 1| ≤ 11 / 10 * (1 / 2 ^ 53)) : |a / c - t| ≤ 23 / 10 * (m / 2 ^ 53) := by
  have hm : 0 ≤ m := (abs_nonneg t).trans ht
  have hlow : 22 / 23 ≤ c := by
    have := (abs_le.mp hc).1
    linarith
  have hpos : 0 < c := by linarith
  have heq : a / c - t = ((a - t) - t * (c - 1)) / c := by
    field_simp
    ring
  have hprod : |t * (c - 1)| ≤ 11 / 10 * (m / 2 ^ 53) := by
    rw [abs_mul]
    calc |t| * |c - 1| ≤ m * (11 / 10 * (1 / 2 ^ 53)) := mul_le_mul ht hc (abs_nonneg _) hm
      _ = 11 / 10 * (m / 2 ^ 53) := by ring
  have hnum : |(a - t) - t * (c - 1)| ≤ 22 / 10 * (m / 2 ^ 53) := by
    have := abs_sub (a - t) (t * (c - 1))
    linarith
  rw [heq, abs_div, abs_of_pos hpos, div_le_iff₀ hpos]
  have hscaled := mul_le_mul_of_nonneg_left hlow (show 0 ≤ 23 / 10 * (m / 2 ^ 53) by positivity)
  linarith

/-- The first division: both of its operands have been rounded, and so is the quotient. -/
theorem nearest_div_near {x p m : ℚ} (hp : 1 / 2 ^ 27 ≤ p) (hm : 1 ≤ m) (ht : |x / p| ≤ m) :
    |nearest (nearest x / nearest p) - x / p| ≤ 34 / 10 * (m / 2 ^ 53) := by
  have hpos : 0 < p := lt_of_lt_of_le (by norm_num) hp
  have hdividend : |nearest x / p - x / p| ≤ 11 / 10 * (m / 2 ^ 53) := by
    have hsize : |x| ≤ m * p := by rwa [abs_div, abs_of_pos hpos, div_le_iff₀ hpos] at ht
    have hlarge : (2 : ℚ) ^ (-1000 : Int) ≤ m * p :=
      tiny_le.trans (hp.trans (le_mul_of_one_le_left hpos.le hm))
    have hround := nearest_near_self hlarge hsize
    rw [← sub_div, abs_div, abs_of_pos hpos, div_le_iff₀ hpos]
    linarith
  have hdivisor : |nearest p / p - 1| ≤ 11 / 10 * (1 / 2 ^ 53) := by
    have hround := nearest_near_self (tiny_le.trans hp) (abs_of_pos hpos).le
    have hone : nearest p / p - 1 = (nearest p - p) / p := by rw [sub_div, div_self hpos.ne']
    rw [hone, abs_div, abs_of_pos hpos, div_le_iff₀ hpos]
    linarith
  have hquotient := abs_div_sub_le ht hdividend hdivisor
  rw [div_div_div_cancel_right₀ hpos.ne'] at hquotient
  exact (nearest_near (tiny_le.trans (by linarith)) (by norm_num) ht hquotient).trans (by linarith)

namespace ReadingFactor
variable {r : ReadingFactor}

/-- The conversion in floating point, operation by operation. -/
theorem floatFormula2_eq {x y : ℚ} (h : r.floatFormula2 (.ofRat x) = .ok (.finite y)) :
    y = nearest (nearest (nearest (nearest x / nearest (10 ^ r.Rexpo)) - nearest (r.B * 10 ^ r.Bexpo)) / r.M) := by
  obtain ⟨n, hn, hrest⟩ := bind_eq_ok.mp h
  obtain ⟨q, hq, hy⟩ := Number.div_finite hrest
  obtain ⟨q', hq', heq⟩ := Number.sub_finite hq
  rw [hq'] at hn
  obtain ⟨q'', hq'', heq'⟩ := Number.div_finite hn
  rw [hy, heq, heq', Number.ofRat_finite hq'']

/-- **The error of the conversion**: seven units in the last place, at the size of the
numbers it goes through; `c` bounds the raw value. -/
theorem floatFormula2_near (hr : r.Bounded) (hM : 0 < r.M) {x y c : ℚ} (hc : 1 ≤ c)
    (hx : |x / 10 ^ r.Rexpo - r.B * 10 ^ r.Bexpo| ≤ c * r.M)
    (h : r.floatFormula2 (.ofRat x) = .ok (.finite y)) :
    |y - (x / 10 ^ r.Rexpo - r.B * 10 ^ r.Bexpo) / r.M| ≤ 7 * ((c + r.offset) / 2 ^ 53) := by
  rw [floatFormula2_eq h, offset]
  have hM1 : (1 : ℚ) ≤ r.M := by exact_mod_cast hM
  have hMpos : (0 : ℚ) < r.M := by linarith
  have hp : (1 : ℚ) / 2 ^ 27 ≤ 10 ^ r.Rexpo := by
    have hmono : (10 : ℚ) ^ (-8 : Int) ≤ 10 ^ r.Rexpo := zpow_le_zpow_right₀ (by norm_num) hr.Rexpo.1
    exact le_trans (by norm_num) hmono
  generalize (10 : ℚ) ^ r.Rexpo = p at hx hp ⊢
  generalize (r.B * 10 ^ r.Bexpo : ℚ) = b at hx ⊢
  generalize (r.M : ℚ) = d at hx hM1 hMpos ⊢
  obtain ⟨m, hm⟩ : ∃ m, m = c * d + |b| := ⟨_, rfl⟩
  have hb0 := abs_nonneg b
  have hcd := one_le_mul_of_one_le_of_one_le hc hM1
  have hm1 : 1 ≤ m := by linarith
  have ht : |x / p| ≤ m := by
    have := abs_sub_abs_le_abs_sub (x / p) b
    linarith
  have hlarge : (2 : ℚ) ^ (-1000 : Int) ≤ m := tiny_le.trans (by linarith)
  have hfirst := nearest_div_near hp hm1 ht
  have hoffset : |nearest b - b| ≤ 11 / 10 * (m / 2 ^ 53) := nearest_near_self hlarge (by linarith)
  have hsecond : |nearest (nearest (nearest x / nearest p) - nearest b) - (x / p - b)| ≤ 56 / 10 * (m / 2 ^ 53) := by
    have hdiff : |nearest (nearest x / nearest p) - nearest b - (x / p - b)| ≤ 45 / 10 * (m / 2 ^ 53) := by
      have := abs_sub (nearest (nearest x / nearest p) - x / p) (nearest b - b)
      rw [sub_sub_sub_comm] at this
      linarith
    have hround := nearest_near hlarge (by norm_num) (show |x / p - b| ≤ m by linarith) hdiff
    linarith
  have hunit : (c + |b| / d) / 2 ^ 53 = m / 2 ^ 53 / d := by
    rw [hm]
    field_simp
  have hthird : |nearest (nearest (nearest x / nearest p) - nearest b) / d - (x / p - b) / d| ≤
      56 / 10 * ((c + |b| / d) / 2 ^ 53) := by
    rw [hunit, ← sub_div, abs_div, abs_of_pos hMpos, ← mul_div_assoc]
    exact div_le_div_of_nonneg_right hsecond hMpos.le
  have htarget : |(x / p - b) / d| ≤ c + |b| / d := by
    rw [abs_div, abs_of_pos hMpos, div_le_iff₀ hMpos, add_mul, div_mul_cancel₀ _ hMpos.ne']
    linarith
  have hquot0 : 0 ≤ |b| / d := div_nonneg hb0 hMpos.le
  have hround := nearest_near (tiny_le.trans (by linarith)) (by norm_num) htarget hthird
  have hunit0 : 0 ≤ (c + |b| / d) / 2 ^ 53 := by positivity
  linarith

/-! ### Numbers that become bytes -/

/-- What the roundings may add up to where the raw value is a byte. -/
def margin (r : ReadingFactor) : ℚ := (256 + r.offset) / 2 ^ 50

/-- The conversion back undoes the conversion, and keeps the order. -/
theorem le_formula2_iff (hM : 0 < r.M) (x y : ℚ) :
    y ≤ (x / 10 ^ r.Rexpo - r.B * 10 ^ r.Bexpo) / r.M ↔ r.formula1 y ≤ x := by
  have hM' : (0 : ℚ) < r.M := by exact_mod_cast hM
  have hten : (0 : ℚ) < 10 ^ r.Rexpo := zpow_pos (by norm_num) _
  rw [formula1, le_div_iff₀ hM', le_sub_iff_add_le, le_div_iff₀ hten, mul_comm y]

theorem formula2_le_iff (hM : 0 < r.M) (x y : ℚ) :
    (x / 10 ^ r.Rexpo - r.B * 10 ^ r.Bexpo) / r.M ≤ y ↔ x ≤ r.formula1 y := by
  have hM' : (0 : ℚ) < r.M := by exact_mod_cast hM
  have hten : (0 : ℚ) < 10 ^ r.Rexpo := zpow_pos (by norm_num) _
  rw [formula1, div_le_iff₀ hM', sub_le_iff_le_add, div_le_iff₀ hten, mul_comm y]

theorem abs_le_mul_of_div {a d c : ℚ} (hd : 0 < d) (h : |a / d| ≤ c) : |a| ≤ c * d := by
  rwa [abs_div, abs_of_pos hd, div_le_iff₀ hd] at h

/-- A number that keeps the margin from the readable values of -1 and 256 comes out
between them. -/
theorem floatFormula2_mem (hr : r.Bounded) (hM : 0 < r.M) {x y : ℚ} (hlow : r.formula1 (-1 + r.margin) ≤ x)
    (hhigh : x ≤ r.formula1 (256 - r.margin)) (h : r.floatFormula2 (.ofRat x) = .ok (.finite y)) :
    -1 < y ∧ y < 256 := by
  rw [← r.le_formula2_iff hM, margin] at hlow
  rw [← r.formula2_le_iff hM, margin] at hhigh
  have hoffset : 0 ≤ r.offset := div_nonneg (abs_nonneg _) (by exact_mod_cast hM.le)
  have hsize : |x / 10 ^ r.Rexpo - r.B * 10 ^ r.Bexpo| ≤ 256 * r.M := by
    have hM' : (0 : ℚ) < r.M := by exact_mod_cast hM
    refine abs_le_mul_of_div hM' (abs_le.mpr ?_)
    constructor <;> linarith
  have hnear := abs_le.mp (floatFormula2_near hr hM (by norm_num) hsize h)
  constructor <;> linarith

/-- A number beyond the margin does not. -/
theorem floatFormula2_not_mem (hr : r.Bounded) (hM : 0 < r.M) {x y : ℚ}
    (hx : x ≤ r.formula1 (-1 - r.margin) ∨ r.formula1 (256 + r.margin) ≤ x)
    (h : r.floatFormula2 (.ofRat x) = .ok (.finite y)) : ¬ (-1 < y ∧ y < 256) := by
  have hoffset : 0 ≤ r.offset := div_nonneg (abs_nonneg _) (by exact_mod_cast hM.le)
  have hM' : (0 : ℚ) < r.M := by exact_mod_cast hM
  rw [← r.formula2_le_iff hM, ← r.le_formula2_iff hM, margin] at hx
  rcases hx with hx | hx
  · -- The size is the raw value's own, or 256 if that is more.
    have hnear := abs_le.mp (floatFormula2_near hr hM (le_max_of_le_left (by norm_num))
      (abs_le_mul_of_div hM' (le_max_right 256 _)) h)
    rw [abs_of_nonpos (by linarith)] at hnear
    rcases max_cases (256 : ℚ) (-((x / 10 ^ r.Rexpo - r.B * 10 ^ r.Bexpo) / r.M)) with hmax | hmax
    all_goals
      rw [hmax.1] at hnear
      intro hy
      linarith
  · have hpos : 0 ≤ (x / 10 ^ r.Rexpo - r.B * 10 ^ r.Bexpo) / r.M := by linarith
    have hle := abs_le_mul_of_div hM' (abs_of_nonneg hpos).le
    have hnear := abs_le.mp (floatFormula2_near hr hM (by linarith) hle h)
    intro hy
    linarith

end ReadingFactor

end Sensor

/-! ### Readings in range -/

namespace Sensor.ReadingFactor
variable {r : ReadingFactor}

/-- `formula_1` gives a float exactly in the range of a double. -/
theorem floatFormula1_eq_ok {n : Int} (h : r.InRange n) : ∃ y, r.floatFormula1 n = .ok y := by
  unfold floatFormula1 toFloat
  rw [InRange] at h
  by_cases hR : 0 ≤ r.Rexpo
  · rw [if_pos hR, if_pos h]
    exact ⟨_, rfl⟩
  · rw [Int.toNat_of_nonpos (by omega), pow_zero, mul_one] at h
    rw [if_neg hR, if_pos h]
    exact ⟨_, rfl⟩

theorem floatFormula1_eq_error {n : Int} (h : ¬ r.InRange n) : r.floatFormula1 n = .error .overflowError := by
  unfold floatFormula1 toFloat
  rw [InRange] at h
  by_cases hR : 0 ≤ r.Rexpo
  · rw [if_pos hR, if_neg h]
  · rw [Int.toNat_of_nonpos (by omega), pow_zero, mul_one] at h
    rw [if_neg hR, if_neg h]
    rfl

/-- Readings of bytes are, and so are those of signed bytes. -/
theorem inRange_of_natAbs_le (hr : r.Bounded) {n : Int} (hn : n.natAbs ≤ 255) : r.InRange n := by
  obtain ⟨⟨hM, hM'⟩, ⟨hB, hB'⟩, ⟨-, hR⟩, hE⟩ := hr
  have hlinear : (r.M * n).natAbs ≤ 1023 * 255 := by
    rw [Int.natAbs_mul]
    exact Nat.mul_le_mul (by omega) hn
  have hoffset : (r.B * 10 ^ r.Bexpo).natAbs ≤ 512 * 10 ^ 15 := by
    rw [Int.natAbs_mul, Int.natAbs_pow]
    exact Nat.mul_le_mul (by omega) (Nat.pow_le_pow_right (by norm_num) hE)
  have hscaled : (r.scaled n).natAbs ≤ 1023 * 255 + 512 * 10 ^ 15 :=
    (Int.natAbs_add_le ..).trans (Nat.add_le_add hlinear hoffset)
  rw [InRange, Int.natAbs_mul, Int.natAbs_pow]
  calc (r.scaled n).natAbs * 10 ^ r.Rexpo.toNat ≤ (1023 * 255 + 512 * 10 ^ 15) * 10 ^ 7 :=
        Nat.mul_le_mul hscaled (Nat.pow_le_pow_right (by norm_num) (by omega))
    _ < overflowsAt := by decide +kernel

end Sensor.ReadingFactor

/-- The conversions in doubles. -/
def doubleFloats : Floats where
  Number := Number
  ofText text := (floatOf text).map Number.round
  rawValue r x := do toInt (← r.floatFormula2 x)
  reading r
    | .int n => (r.floatFormula1 n).map (fixed 3)
    | _ => .error .typeError

end Idic.IpmiSim
