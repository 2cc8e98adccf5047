import Idic.IpmiSim.SdrSensors
import Mathlib.Algebra.Order.Field.Power
import Mathlib.Tactic.FieldSimp

/-! The coefficients of the linear conversion.

A full record has them in two's complement: `M` and `B` in ten bits over two bytes,
the exponents in the two halves of a byte. `getReadingFactor_eq` says what the code
makes of any four of them: it knows the signs of `B` and of the result exponent
only. `conversion_iff` says when that is the conversion the record means. -/
namespace Idic.IpmiSim
open Python

/-! ### Two's complement -/

/-- The coefficients that the bytes of a record stand for. -/
structure Coefficients where
  M : Int
  B : Int
  R : Int
  E : Int
  M_mem : -512 ≤ M ∧ M ≤ 511
  B_mem : -512 ≤ B ∧ B ≤ 511
  R_mem : -8 ≤ R ∧ R ≤ 7
  E_mem : -8 ≤ E ∧ E ≤ 7

/-- The bytes of a record have the coefficients in two's complement. -/
structure Coefficients.StoredIn (c : Coefficients) (f : Factors) : Prop where
  M : c.M % 1024 = (f.mLb.toNat + 256 * (f.mUb.toNat / 64) : Nat)
  B : c.B % 1024 = (f.bLb.toNat + 256 * (f.bUb.toNat / 64) : Nat)
  R : c.R % 16 = (f.exp.toNat / 16 : Nat)
  E : c.E % 16 = (f.exp.toNat % 16 : Nat)

instance (c : Coefficients) (f : Factors) : Decidable (c.StoredIn f) :=
  decidable_of_iff (_ ∧ _ ∧ _ ∧ _)
    ⟨fun ⟨h₁, h₂, h₃, h₄⟩ => ⟨h₁, h₂, h₃, h₄⟩, fun h => ⟨h.M, h.B, h.R, h.E⟩⟩

/-! ### The expressions of the code, on bytes -/

theorem upperBits : ∀ u < 256, (u &&& 0xc0) <<< 2 = 256 * (u / 64) := by decide +kernel

theorem ninthBit : ∀ u < 256, (u &&& 0x40) <<< 2 = 256 * (u / 64 % 2) := by decide +kernel

theorem signBit : ∀ u < 256, (u >>> 7) &&& 0x1 = u / 128 := by decide +kernel

theorem complement : ∀ n < 512, n ^^^ 0x1ff = 511 - n := by decide +kernel

theorem resultExponent : ∀ e < 256, (if (e >>> 7) &&& 0x1 = 1
    then ~~~(((e &&& 0x70) >>> 4) ^^^ 0x07 : Nat) else ((e &&& 0xf0) >>> 4 : Nat) : Int) =
    if e / 16 < 8 then ((e / 16 : Nat) : Int) else ((e / 16 : Nat) : Int) - 16 := by decide +kernel

theorem not_natCast (n : Nat) : ~~~(n : Int) = -n - 1 := by
  show Int.negSucc n = -n - 1
  omega

theorem offsetExponent : ∀ e < 256, e &&& 0x0f = e % 16 := by decide +kernel

/-- What the code reads: `M` and the exponent of `B` come out as if they had no sign. -/
theorem getReadingFactor_eq {s : Sensor} {f : Factors} {c : Coefficients} (hf : s.factors = some f)
    (hc : c.StoredIn f) : ∃ r, s.getReadingFactor = .ok r ∧ r.M = c.M % 1024 ∧ r.B = c.B ∧
      r.Rexpo = c.R ∧ (r.Bexpo : Int) = c.E % 16 := by
  have hmUb := f.mUb.toNat_lt
  have hbLb := f.bLb.toNat_lt
  have hbUb := f.bUb.toNat_lt
  have hexp := f.exp.toNat_lt
  have hB := hc.B
  have hR := hc.R
  have hB_mem := c.B_mem
  have hR_mem := c.R_mem
  simp only [Sensor.getReadingFactor, hf]
  refine ⟨_, rfl, ?_, ?_, ?_, ?_⟩
  · show (((f.mUb.toNat &&& 0xc0) <<< 2) + f.mLb.toNat : Nat) = c.M % 1024
    rw [upperBits _ hmUb, hc.M, Nat.add_comm]
  · show (if (f.bUb.toNat >>> 7) &&& 0x1 = 1
      then ~~~((((f.bUb.toNat &&& 0x40) <<< 2) + f.bLb.toNat) ^^^ 0x1ff : Nat)
      else (((f.bUb.toNat &&& 0xc0) <<< 2) + f.bLb.toNat : Nat) : Int) = c.B
    rw [signBit _ hbUb, ninthBit _ hbUb, upperBits _ hbUb]
    split
    · rw [complement _ (by omega), not_natCast]
      omega
    · omega
  · show (if (f.exp.toNat >>> 7) &&& 0x1 = 1
      then ~~~(((f.exp.toNat &&& 0x70) >>> 4) ^^^ 0x07 : Nat)
      else ((f.exp.toNat &&& 0xf0) >>> 4 : Nat) : Int) = c.R
    rw [resultExponent _ hexp]
    split <;> omega
  · show ((f.exp.toNat &&& 0x0f : Nat) : Int) = c.E % 16
    rw [offsetExponent _ hexp, hc.E]

/-! ### The conversions -/

/-- The readable value of a raw reading. -/
def Coefficients.reading (c : Coefficients) (x : ℚ) : ℚ := (c.M * x + c.B * 10 ^ c.E) * 10 ^ c.R

/-- The second conversion is the inverse of the first. -/
structure Sensor.ReadingFactor.Inverts (r : Sensor.ReadingFactor) : Prop where
  left : ∀ x, r.formula2 (r.formula1 x) = .ok x
  right : ∀ y, ∃ x, r.formula2 y = .ok x ∧ r.formula1 x = y

theorem Sensor.ReadingFactor.inverts {r : Sensor.ReadingFactor} (hM : r.M ≠ 0) : r.Inverts := by
  have hM' : (r.M : ℚ) ≠ 0 := Int.cast_ne_zero.mpr hM
  have hten : (10 : ℚ) ^ r.Rexpo ≠ 0 := zpow_ne_zero _ (by norm_num)
  refine ⟨fun x => ?_, fun y => ⟨_, if_neg hM, ?_⟩⟩
  · rw [formula2, if_neg hM, formula1, mul_div_cancel_right₀ _ hten, add_sub_cancel_right,
      mul_div_cancel_left₀ _ hM']
  · rw [formula1, mul_div_cancel₀ _ hM', sub_add_cancel, div_mul_cancel₀ _ hten]

/-- What `get_reading_factor` returns converts the raw reading as the record means it. -/
def Sensor.Converts (s : Sensor) (c : Coefficients) (x : Int) : Prop :=
  ∃ r, s.getReadingFactor = .ok r ∧ r.formula1 x = c.reading x ∧ (c.M ≠ 0 → r.Inverts)

/-- All raw readings are converted exactly when the code makes no sign disappear. -/
theorem Sensor.converts_iff {s : Sensor} {f : Factors} {c : Coefficients} (hf : s.factors = some f)
    (hc : c.StoredIn f) : (∀ x : Int, s.Converts c x) ↔ 0 ≤ c.M ∧ (0 ≤ c.E ∨ c.B = 0) := by
  obtain ⟨r, hr, hM, hB, hR, hE⟩ := getReadingFactor_eq hf hc
  have hM_mem := c.M_mem
  have hE_mem := c.E_mem
  have hten : (10 : ℚ) ^ c.R ≠ 0 := zpow_ne_zero _ (by norm_num)
  have hone (x : Int) : s.Converts c x ↔
      r.M * x + r.B * 10 ^ r.Bexpo = (c.M * x + c.B * 10 ^ c.E : ℚ) ∧ (c.M ≠ 0 → r.Inverts) := by
    unfold Converts ReadingFactor.formula1 Coefficients.reading
    constructor
    · intro hsome
      obtain ⟨r', hr', heq, hinverts⟩ := hsome
      cases hr.symm.trans hr'
      rw [hR] at heq
      exact ⟨mul_right_cancel₀ hten heq, hinverts⟩
    · intro hboth
      obtain ⟨heq, hinverts⟩ := hboth
      exact ⟨r, hr, by rw [hR, heq], hinverts⟩
  constructor
  · intro hall
    have hzero := ((hone 0).mp (hall 0)).1
    have hstep := ((hone 1).mp (hall 1)).1
    simp only [Int.cast_zero, mul_zero, zero_add, Int.cast_one, mul_one] at hzero hstep
    rw [hzero, add_left_inj, Int.cast_inj] at hstep
    refine ⟨by omega, ?_⟩
    by_cases hoffset : c.B = 0
    · exact .inr hoffset
    · rw [hB, mul_right_inj' (Int.cast_ne_zero.mpr hoffset), ← zpow_natCast] at hzero
      have := zpow_right_injective₀ (by norm_num : (0 : ℚ) < 10) (by norm_num) hzero
      omega
  · intro hboth x
    obtain ⟨hpos, hoffset⟩ := hboth
    have hMeq : r.M = c.M := by omega
    refine (hone x).mpr ⟨?_, fun hne => Sensor.ReadingFactor.inverts (hMeq ▸ hne)⟩
    rw [hMeq, hB, add_right_inj]
    rcases hoffset with hexp | hzero
    · rw [← zpow_natCast, show (r.Bexpo : Int) = c.E by omega]
    · rw [hzero, Int.cast_zero, zero_mul, zero_mul]

/-! ### Sensors of a dump -/

namespace Sdr

/-- The conversion bytes of the record at an offset. -/
def factorsAt (file : List UInt8) (start : Nat) : Factors :=
  ⟨byteOf file start 24, byteOf file start 25, byteOf file start 26, byteOf file start 27,
    byteOf file start 28, byteOf file start 29⟩

/-- The sensor parsed from a record, by its place in the file. -/
def ParsedFrom (file : List UInt8) (st : State) (start : Nat) (s : Sensor) : Prop :=
  (start, s) ∈ (sensorStarts file 0).zip st.sensorList

theorem Built.sensorAt {ipmitool : Ipmitool} {file : List UInt8} {requests start : Nat} {starts : List Nat}
    {s : Sensor} {sensors : List Sensor} (h : Built ipmitool file requests starts sensors)
    (hs : (start, s) ∈ starts.zip sensors) : ∃ value, s = sensorAt file start value := by
  induction h with
  | nil => cases hs
  | cons _ _ ih =>
    rcases List.mem_cons.mp hs with heq | hs
    · cases heq
      exact ⟨_, rfl⟩
    · exact ih hs

theorem ParsedFrom.factors {ipmitool : Ipmitool} {file : List UInt8} {st : State} {start : Nat} {s : Sensor}
    (hst : parseSdrs ipmitool (some file) = .ok st) (hs : ParsedFrom file st start s)
    (hfull : byteOf file start 3 = 0x1) : s.factors = some (factorsAt file start) := by
  obtain ⟨value, heq⟩ := (parseSdrs_built hst).sensorAt hs
  rw [heq]
  simp [sensorAt, Sensor.initializeSel, factorsAt, hfull]

end Sdr

/-- **When coefficients decode as IPMI encodes them.** For every full record of any
accepted dump and every four coefficients in its bytes, whatever the other bits are:
the conversion is right for all raw readings exactly when neither sign that the code
drops is there to be dropped. -/
theorem conversion_iff (ipmitool : Sdr.Ipmitool) (file : List UInt8) (st : Sdr.State) (start : Nat)
    (s : Sensor) (c : Coefficients) (hst : Sdr.parseSdrs ipmitool (some file) = .ok st)
    (hs : Sdr.ParsedFrom file st start s) (hfull : Sdr.byteOf file start 3 = 0x1)
    (hc : c.StoredIn (Sdr.factorsAt file start)) :
    (∀ x : Int, s.Converts c x) ↔ 0 ≤ c.M ∧ (0 ≤ c.E ∨ c.B = 0) :=
  Sensor.converts_iff (hs.factors hst hfull) hc

/-! ### A sensor with a negative exponent -/

namespace Sdr

def voltageSensor : Sensor := voltageRecord.sensor (.int 0x1a)

def voltageState : State where
  offset := 63
  requests := 1
  sensorList := [voltageSensor]
  sensorIdMap := [((0xd8, 0x20), 0)]

theorem voltageRecord_parsed :
    parseSdrs constantTool (some (dump [voltageRecord])) = .ok voltageState := by
  decide +kernel

theorem voltageSensor_parsedFrom : ParsedFrom (dump [voltageRecord]) voltageState 0 voltageSensor := by
  have hstarts : sensorStarts (dump [voltageRecord]) 0 = [0] := by
    have hlt : 0 < (dump [voltageRecord]).length := by decide
    have hend : (dump [voltageRecord]).length ≤ recordEnd (dump [voltageRecord]) 0 := by decide
    rw [sensorStarts, recordStarts_cons hlt, recordStarts_nil hend]
    decide
  rw [ParsedFrom, hstarts]
  exact List.mem_cons_self ..

end Sdr

/-- Volts: `(65 * x - 326 / 10) / 10000`. -/
def voltageCoefficients : Coefficients where
  M := 65
  B := -326
  R := -4
  E := -1
  M_mem := by decide
  B_mem := by decide
  R_mem := by decide
  E_mem := by decide

open Sdr in
theorem voltageSensor_stored :
    voltageCoefficients.StoredIn (factorsAt (dump [voltageRecord]) 0) := by decide

open Sdr in
theorem conversion_iff_voltageSensor : (∀ x : Int, voltageSensor.Converts voltageCoefficients x) ↔
    0 ≤ voltageCoefficients.M ∧ (0 ≤ voltageCoefficients.E ∨ voltageCoefficients.B = 0) :=
  conversion_iff constantTool (dump [voltageRecord]) voltageState 0 voltageSensor voltageCoefficients
    voltageRecord_parsed voltageSensor_parsedFrom (by decide) voltageSensor_stored

open Sdr in
/-- Its reading 0xe7 is 1.49824 V and comes out as minus 32.6 million million. -/
theorem voltageSensor_misread :
    parseSdrs constantTool (some (dump [voltageRecord])) = .ok voltageState ∧
    ParsedFrom (dump [voltageRecord]) voltageState 0 voltageSensor ∧
    voltageCoefficients.StoredIn (factorsAt (dump [voltageRecord]) 0) ∧
    voltageCoefficients.reading 0xe7 = 1.49824 ∧
    (∃ r, voltageSensor.getReadingFactor = .ok r ∧ r.formula1 0xe7 = -32599999999998.4985) ∧
    ¬ voltageSensor.Converts voltageCoefficients 0xe7 := by
  have hfactor : voltageSensor.getReadingFactor = .ok ⟨65, -326, -4, 15⟩ := by decide
  have hmeant : voltageCoefficients.reading 0xe7 = 1.49824 := by
    norm_num [Coefficients.reading, voltageCoefficients]
  have hread : (⟨65, -326, -4, 15⟩ : Sensor.ReadingFactor).formula1 0xe7 = -32599999999998.4985 := by
    norm_num [Sensor.ReadingFactor.formula1]
  refine ⟨voltageRecord_parsed, voltageSensor_parsedFrom, voltageSensor_stored, hmeant,
    ⟨_, hfactor, hread⟩, fun hconverts => ?_⟩
  obtain ⟨r, hr, heq, -⟩ := hconverts
  cases hfactor.symm.trans hr
  have hcast : ((0xe7 : Int) : ℚ) = 0xe7 := by norm_num
  rw [hcast, hread, hmeant] at heq
  norm_num at heq

end Idic.IpmiSim
