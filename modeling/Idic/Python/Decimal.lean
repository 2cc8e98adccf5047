import Idic.Python.Text
import Mathlib.Data.Rat.Floor
import Mathlib.Tactic.FieldSimp
import Mathlib.Tactic.Linarith
import Mathlib.Tactic.Positivity

/-! Decimal texts of numbers, with exact fractions in place of floating point.

`fixed` is what `'%.3f' % q` writes and `floatOf` what `float(s)` reads. Reading what
was written gives the rounded number (`floatOf_fixed`); `roundHalfEven_div` says what
rounding makes of a fraction of integers. -/
namespace Idic.Python

/-! ### Rounding -/

/-- The nearest integer, and of two the even one. -/
def roundHalfEven (q : ℚ) : Int :=
  if q - ⌊q⌋ < 1 / 2 ∨ q - ⌊q⌋ = 1 / 2 ∧ ⌊q⌋ % 2 = 0 then ⌊q⌋ else ⌊q⌋ + 1

/-- The fraction `n / d` is rounded to the integer above it. -/
def RoundsUp (n d : Int) : Prop := d < 2 * (n % d) ∨ 2 * (n % d) = d ∧ n / d % 2 = 1

instance (n d : Int) : Decidable (RoundsUp n d) :=
  inferInstanceAs (Decidable (d < 2 * (n % d) ∨ 2 * (n % d) = d ∧ n / d % 2 = 1))

theorem roundHalfEven_div (n : Int) {d : Nat} (hd : 0 < d) :
    roundHalfEven (n / d) = if RoundsUp n d then n / d + 1 else n / d := by
  have hpos : (0 : ℚ) < d := Nat.cast_pos.mpr hd
  have hfrac : (n / d : ℚ) - (n / d : Int) = (n % d : Int) / d := by
    rw [Int.emod_def, Int.cast_sub, Int.cast_mul, Int.cast_natCast]
    field_simp
  have hlt : ((n % d : Int) / d : ℚ) < 1 / 2 ↔ 2 * (n % d) < d := by
    rw [div_lt_div_iff₀ hpos two_pos, one_mul, mul_comm]
    exact_mod_cast Iff.rfl
  have heq : ((n % d : Int) / d : ℚ) = 1 / 2 ↔ 2 * (n % d) = d := by
    rw [div_eq_div_iff hpos.ne' two_ne_zero, one_mul, mul_comm]
    exact_mod_cast Iff.rfl
  have hup : RoundsUp n d ↔ ¬ (((n % d : Int) / d : ℚ) < 1 / 2 ∨
      ((n % d : Int) / d : ℚ) = 1 / 2 ∧ n / d % 2 = 0) := by
    rw [hlt, heq, RoundsUp]
    omega
  rw [roundHalfEven, Rat.floor_intCast_div_natCast, hfrac]
  by_cases h : RoundsUp n d
  · rw [if_pos h, if_neg (hup.mp h)]
  · rw [if_neg h, if_pos (not_not.mp fun hnot => h (hup.mpr hnot))]

theorem roundHalfEven_intCast (n : Int) : roundHalfEven n = n := by
  have hfloor : ⌊(n : ℚ)⌋ = n := Int.floor_intCast n
  rw [roundHalfEven, hfloor, sub_self, if_pos (.inl (by norm_num))]

theorem roundHalfEven_nonneg {q : ℚ} (h : 0 ≤ q) : 0 ≤ roundHalfEven q := by
  have hfloor : 0 ≤ ⌊q⌋ := Int.floor_nonneg.mpr h
  unfold roundHalfEven
  split <;> omega

theorem roundHalfEven_nonpos {q : ℚ} (h : q < 0) : roundHalfEven q ≤ 0 := by
  have hfloor : ⌊q⌋ < 0 := Int.floor_lt.mpr (by exact_mod_cast h)
  unfold roundHalfEven
  split <;> omega

/-! ### Texts -/

/-- `'%.nf' % q`, for a positive `n`. -/
def fixed (places : Nat) (q : ℚ) : Str :=
  let n := (roundHalfEven (q * 10 ^ places)).natAbs
  (if q < 0 then ['-'] else []) ++
    (digits 10 (n / 10 ^ places) ++ '.' :: zfill places (digits 10 (n % 10 ^ places)))

/-- A floating point number. -/
inductive Number where
  | finite (q : ℚ)
  | inf (negative : Bool)
  | nan
  deriving DecidableEq, Repr

def Number.neg : Number → Number
  | .finite q => .finite (-q)
  | .inf negative => .inf (!negative)
  | .nan => .nan

def isDigit (c : Char) : Bool := '0' ≤ c && c ≤ '9'

/-- The number a run of decimal digits writes, high digit first. -/
def decimalNumber (s : Str) : Nat := Nat.ofDigits 10 (s.reverse.map hexValue)

def natOfDecimal (s : Str) : Option Nat :=
  if s ≠ [] ∧ s.all isDigit then some (decimalNumber s) else none

/-- What may stand behind the digits of a number. -/
def exponentOf : Str → Option Int
  | [] => some 0
  | c :: t =>
    if c = 'e' ∨ c = 'E' then
      match t with
      | '-' :: t => (natOfDecimal t).map fun n => -(n : Int)
      | '+' :: t => (natOfDecimal t).map fun n => (n : Int)
      | t => (natOfDecimal t).map fun n => (n : Int)
    else none

/-- The digits before and behind the point, and what is behind them. -/
def fractionOf (whole part tail : Str) : Option ℚ := do
  let n ← natOfDecimal (whole ++ part)
  let e ← exponentOf tail
  return n * 10 ^ (e - part.length)

/-- A number without a sign, unless it is one of the names. -/
def unsignedOf (s : Str) : Option ℚ :=
  match s.dropWhile isDigit with
  | '.' :: t => fractionOf (s.takeWhile isDigit) (t.takeWhile isDigit) (t.dropWhile isDigit)
  | t => fractionOf (s.takeWhile isDigit) [] t

/-- `float(s)`: blanks around, a sign, and digits or the name of a number that has none. -/
def floatOf (s : Str) : Option Number :=
  let read (t : Str) : Option Number :=
    match unsignedOf t with
    | some q => some (.finite q)
    | none =>
      let name := t.map Char.toLower
      if name = "inf".toList ∨ name = "infinity".toList then some (.inf false)
      else if name = "nan".toList then some .nan
      else none
  match strip s with
  | '-' :: t => (read t).map Number.neg
  | '+' :: t => read t
  | t => read t

example : floatOf " -1.25e1 ".toList = some (.finite (-12.5)) := by decide +kernel

/-! ### Reading what was written -/

theorem digits_isDigit (n : Nat) : ∀ c ∈ digits 10 n, isDigit c := by
  have hchar : ∀ d < 10, isDigit (Nat.digitChar d) = true := by decide
  intro c hc
  unfold digits at hc
  split at hc
  · rw [List.mem_singleton.mp hc]
    decide
  · obtain ⟨d, hd, heq⟩ := List.mem_map.mp hc
    subst heq
    exact hchar d (Nat.digits_lt_base (by decide) (List.mem_reverse.mp hd))

theorem isDigit_not_sign {c : Char} (h : isDigit c) : c ≠ '-' ∧ c ≠ '+' := by
  constructor <;> intro heq <;> subst heq <;> exact absurd h (by decide)

theorem isDigit_not_space {c : Char} (h : isDigit c) : isSpace c = false := by
  simp only [isDigit, Bool.and_eq_true, decide_eq_true_eq] at h
  exact IsHexDigit.not_space (by rw [IsHexDigit, hexDigit?, if_pos h]; rfl)

theorem digits_ne_nil (n : Nat) : digits 10 n ≠ [] := by
  unfold digits
  split
  · exact List.cons_ne_nil _ _
  · next h => simpa [Nat.digits_ne_nil_iff_ne_zero] using h

theorem decimalNumber_append (s t : Str) :
    decimalNumber (s ++ t) = decimalNumber t + 10 ^ t.length * decimalNumber s := by
  rw [decimalNumber, List.reverse_append, List.map_append, Nat.ofDigits_append, List.length_map,
    List.length_reverse]
  rfl

theorem decimalNumber_digits (n : Nat) : decimalNumber (digits 10 n) = n :=
  ofDigits_digits_text 10 n (by decide) (by decide)

/-- The digits of a number behind zeros. -/
theorem zfill_digits (w n : Nat) (h : n < 10 ^ w) (hw : 0 < w) :
    (zfill w (digits 10 n)).length = w ∧ (∀ c ∈ zfill w (digits 10 n), isDigit c) ∧
      decimalNumber (zfill w (digits 10 n)) = n := by
  have hlen : (digits 10 n).length ≤ w := digits_length_le 10 n w (by decide) hw h
  have hzeros : decimalNumber (List.replicate (w - (digits 10 n).length) '0') = 0 := by
    rw [decimalNumber, List.reverse_replicate, List.map_replicate]
    exact Nat.ofDigits_replicate_zero ..
  rw [zfill_of_no_sign w _ (digits_head 10 n (by decide) (by decide))]
  refine ⟨?_, ?_, ?_⟩
  · rw [List.length_append, List.length_replicate]
    omega
  · intro c hc
    rcases List.mem_append.mp hc with hzero | hdigit
    · rw [List.eq_of_mem_replicate hzero]
      decide
    · exact digits_isDigit n c hdigit
  · rw [decimalNumber_append, hzeros, mul_zero, add_zero, decimalNumber_digits]

theorem unsignedOf_point {whole part : Str} (hwhole : ∀ c ∈ whole, isDigit c) (hne : whole ≠ [])
    (hpart : ∀ c ∈ part, isDigit c) : unsignedOf (whole ++ '.' :: part) =
      some (((decimalNumber part + 10 ^ part.length * decimalNumber whole : Nat) : ℚ) / 10 ^ part.length) := by
  have hpoint : isDigit '.' = false := by decide
  have htake : (whole ++ '.' :: part).takeWhile isDigit = whole := by
    rw [List.takeWhile_append_of_pos hwhole, List.takeWhile_cons_of_neg (by simp [hpoint]), List.append_nil]
  have hdrop : (whole ++ '.' :: part).dropWhile isDigit = '.' :: part := by
    rw [List.dropWhile_append_of_pos hwhole, List.dropWhile_cons_of_neg (by simp [hpoint])]
  have hall : (whole ++ part).all isDigit := by
    rw [List.all_append, Bool.and_eq_true, List.all_eq_true, List.all_eq_true]
    exact ⟨hwhole, hpart⟩
  rw [unsignedOf, hdrop]
  show fractionOf _ (part.takeWhile isDigit) (part.dropWhile isDigit) = _
  rw [htake, List.takeWhile_eq_self_iff.mpr hpart, List.dropWhile_eq_nil_iff.mpr hpart, fractionOf,
    natOfDecimal, if_pos ⟨by simp [hne], hall⟩, decimalNumber_append]
  simp [exponentOf, zpow_neg, div_eq_mul_inv]

/-- The sign in front of the digits. -/
theorem roundHalfEven_sign (q : ℚ) (places : Nat) :
    (if q < 0 then -((roundHalfEven (q * 10 ^ places)).natAbs : Int)
      else (roundHalfEven (q * 10 ^ places)).natAbs) = roundHalfEven (q * 10 ^ places) := by
  have hten : (0 : ℚ) < 10 ^ places := by positivity
  split
  · next hneg =>
    have := roundHalfEven_nonpos (mul_neg_of_neg_of_pos hneg hten)
    omega
  · next hpos =>
    have := roundHalfEven_nonneg (mul_nonneg (not_lt.mp hpos) hten.le)
    omega

/-- What has no sign is read with a sign in front of it. -/
theorem floatOf_of_unsigned {s : Str} {q : ℚ} (hread : unsignedOf s = some q)
    (hsign : ∀ c ∈ s, c ≠ '-' ∧ c ≠ '+') (hblank : ∀ c ∈ s, isSpace c = false) :
    floatOf s = some (.finite q) ∧ floatOf ('-' :: s) = some (.finite (-q)) := by
  have hblank' : ∀ c ∈ '-' :: s, isSpace c = false := by
    intro c hc
    rcases List.mem_cons.mp hc with heq | hc
    · rw [heq]
      decide
    · exact hblank c hc
  constructor
  · unfold floatOf
    rw [strip_of_not_space s hblank]
    split
    · exact absurd rfl (hsign '-' (List.mem_cons_self ..)).1
    · exact absurd rfl (hsign '+' (List.mem_cons_self ..)).2
    · simp only [hread]
  · unfold floatOf
    rw [strip_of_not_space _ hblank']
    simp only [hread]
    rfl

/-- **Reading what was written** gives the number rounded to the places. -/
theorem floatOf_fixed {places : Nat} (h : 0 < places) (q : ℚ) :
    floatOf (fixed places q) = some (.finite (roundHalfEven (q * 10 ^ places) / 10 ^ places)) := by
  have hsign := roundHalfEven_sign q places
  unfold fixed
  generalize roundHalfEven (q * 10 ^ places) = n at hsign ⊢
  have hlt : n.natAbs % 10 ^ places < 10 ^ places := Nat.mod_lt _ (by positivity)
  obtain ⟨hlength, hpart, hvalue⟩ := zfill_digits places _ hlt h
  have hwhole := digits_isDigit (n.natAbs / 10 ^ places)
  have hread := unsignedOf_point hwhole (digits_ne_nil _) hpart
  rw [hlength, hvalue, decimalNumber_digits, Nat.mod_add_div] at hread
  have hchars : ∀ c ∈ digits 10 (n.natAbs / 10 ^ places) ++
      '.' :: zfill places (digits 10 (n.natAbs % 10 ^ places)), isDigit c ∨ c = '.' := by
    intro c hc
    rcases List.mem_append.mp hc with hc | hc
    · exact .inl (hwhole c hc)
    · rcases List.mem_cons.mp hc with heq | hc
      · exact .inr heq
      · exact .inl (hpart c hc)
  obtain ⟨hplain, hnegative⟩ := floatOf_of_unsigned hread
    (fun c hc => (hchars c hc).elim isDigit_not_sign fun heq => heq ▸ by decide)
    (fun c hc => (hchars c hc).elim isDigit_not_space fun heq => heq ▸ by decide)
  by_cases hq : q < 0
  · rw [if_pos hq] at hsign ⊢
    have hn : (n : ℚ) = -(n.natAbs : ℚ) := by rw [← Int.cast_natCast, ← Int.cast_neg, hsign]
    rw [hn, neg_div]
    exact hnegative
  · rw [if_neg hq] at hsign ⊢
    have hn : (n : ℚ) = (n.natAbs : ℚ) := by rw [← Int.cast_natCast, hsign]
    rw [hn]
    exact hplain

end Idic.Python
