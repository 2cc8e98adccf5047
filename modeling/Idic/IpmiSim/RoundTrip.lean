import Idic.IpmiSim.RawBytes
import Idic.IpmiSim.ValueCommand
import Idic.Python.Decimal

/-! A value that is shown, set again.

`sensor value get` rounds to three decimals, and `sensor value set` cuts off behind
the point: what the one rounds down the other takes for the raw value below.
`shownSets_iff` says for which raw values this does no harm. The numbers are exact
here (`exactFloats`), so that rounding is all that is lost. -/
namespace Idic.IpmiSim
open Python Effect Sim Sensor

/-- The conversions with exact numbers. -/
def exactFloats : Floats where
  Number := Number
  ofText := floatOf
  rawValue r
    | .finite q => (r.formula2 q).map truncate
    | .inf _ => .error (if r.M = 0 then .zeroDivisionError else .overflowError)
    | .nan => .error (if r.M = 0 then .zeroDivisionError else .valueError)
  reading r
    | .int n => .ok (fixed 3 (r.formula1 n))
    | _ => .error .typeError

/-! ### Rounded and converted back -/

/-- Below 0 the next integer is above, so 0 is left of more numbers than others are. -/
theorem truncate_eq_iff (q : ℚ) (x : Nat) :
    truncate q = x ↔ (if x = 0 then -1 < q else x ≤ q) ∧ q < x + 1 := by
  have hx : (0 : ℚ) ≤ x := Nat.cast_nonneg x
  unfold truncate
  by_cases hq : 0 ≤ q
  · rw [if_pos hq, Int.floor_eq_iff, Int.cast_natCast]
    split
    · next hzero =>
      rw [hzero, Nat.cast_zero]
      exact and_congr_left' (iff_of_true hq (by linarith))
    · rfl
  · rw [if_neg hq, Int.ceil_eq_iff, Int.cast_natCast]
    split
    · next hzero =>
      rw [hzero, Nat.cast_zero]
      refine ⟨fun h => ⟨by linarith [h.1], by linarith⟩, fun h => ⟨by linarith [h.1], by linarith⟩⟩
    · next hne =>
      have hone : (1 : ℚ) ≤ x := by exact_mod_cast Nat.one_le_iff_ne_zero.mpr hne
      exact iff_of_false (fun h => by linarith [h.1]) fun h => by linarith [h.1]

/-- What `int` makes of a natural number with an error. -/
theorem truncate_add_div (x : Nat) (e : Int) {d : Int} (hd : 0 < d) :
    truncate (x + e / d) = x ↔ (if x = 0 then -d < e else 0 ≤ e) ∧ e < d := by
  have hpos : (0 : ℚ) < d := Int.cast_pos.mpr hd
  rw [truncate_eq_iff, add_lt_add_iff_left, div_lt_one hpos, Int.cast_lt]
  apply and_congr_left'
  split
  · next hzero =>
    rw [hzero, Nat.cast_zero, zero_add, lt_div_iff₀ hpos, neg_one_mul]
    exact_mod_cast Iff.rfl
  · rw [le_add_iff_nonneg_right, le_div_iff₀ hpos, zero_mul, Int.cast_nonneg_iff]

namespace Sensor.ReadingFactor

/-- The third decimal, in units of the last one. -/
def thousandth (r : ReadingFactor) : Nat := 10 ^ (-3 - r.Rexpo).toNat

/-- Nothing is cut off, or it is made up for by less than a step; 0 may also lose
less than a step. -/
def Survives (r : ReadingFactor) (x : Nat) : Prop :=
  r.scaled x % r.thousandth = 0 ∨
    if RoundsUp (r.scaled x) r.thousandth then r.thousandth - r.scaled x % r.thousandth < r.M
    else x = 0 ∧ r.scaled x % r.thousandth < r.M

instance (r : ReadingFactor) (x : Nat) : Decidable (r.Survives x) := by
  unfold Survives
  infer_instance

/-- The number that is shown. -/
def shown (r : ReadingFactor) (x : Int) : ℚ := roundHalfEven (r.formula1 x * 10 ^ 3) / 10 ^ 3

/-- It as a text. -/
def shownText (r : ReadingFactor) (x : Int) : Str := fixed 3 (r.formula1 x)

theorem thousandth_pos (r : ReadingFactor) : 0 < r.thousandth := Nat.pow_pos (by decide)

/-- With three decimals or fewer the number is shown as it is. -/
theorem shown_of_exact {r : ReadingFactor} (h : -3 ≤ r.Rexpo) (x : Int) : r.shown x = r.formula1 x := by
  have hint : r.formula1 x * 10 ^ 3 = (r.scaled x * 10 ^ (r.Rexpo + 3).toNat : Int) := by
    have hexp : (10 : ℚ) ^ r.Rexpo * 10 ^ 3 = 10 ^ (r.Rexpo + 3).toNat := by
      rw [← zpow_natCast, ← zpow_natCast, ← zpow_add₀ (by norm_num)]
      congr 1
      omega
    rw [formula1, mul_assoc, hexp, scaled]
    push_cast
    rfl
  rw [shown, hint, roundHalfEven_intCast, ← hint]
  exact mul_div_cancel_right₀ _ (by norm_num)

/-- With more, it is off by what rounding a fraction adds or takes away. -/
theorem formula2_shown {r : ReadingFactor} (hM : r.M ≠ 0) (h : r.Rexpo < -3) (x : Int) :
    r.formula2 (r.shown x) = .ok (x +
      ((if RoundsUp (r.scaled x) r.thousandth then r.thousandth - r.scaled x % r.thousandth
        else -(r.scaled x % r.thousandth) : Int) : ℚ) / r.M) := by
  have hM' : (r.M : ℚ) ≠ 0 := Int.cast_ne_zero.mpr hM
  have hpos : (0 : ℚ) < r.thousandth := Nat.cast_pos.mpr r.thousandth_pos
  have hexp : (10 : ℚ) ^ r.Rexpo = 1 / (r.thousandth * 10 ^ 3) := by
    rw [thousandth, Nat.cast_pow, ← zpow_natCast, ← zpow_natCast, Nat.cast_ofNat,
      ← zpow_add₀ (by norm_num), one_div, ← zpow_neg]
    congr 1
    omega
  have hscaled : (r.M * x + r.B * 10 ^ r.Bexpo : ℚ) = r.scaled x := by
    rw [scaled]
    push_cast
    rfl
  have hfraction : r.formula1 x * 10 ^ 3 = r.scaled x / r.thousandth := by
    rw [formula1, hscaled, hexp]
    field_simp
  have hback (n : Int) : r.formula2 (n / 10 ^ 3) =
      .ok (x + ((n * r.thousandth - r.scaled x : Int) : ℚ) / r.M) := by
    rw [formula2, if_neg hM, hexp, Int.cast_sub, ← hscaled]
    congr 1
    field_simp
    push_cast
    ring
  rw [shown, hfraction, roundHalfEven_div _ r.thousandth_pos, hback]
  have hdiv := Int.emod_add_mul_ediv (r.scaled x) r.thousandth
  have herror : (if RoundsUp (r.scaled x) r.thousandth then r.scaled x / r.thousandth + 1
        else r.scaled x / r.thousandth) * r.thousandth - r.scaled x =
      if RoundsUp (r.scaled x) r.thousandth then r.thousandth - r.scaled x % r.thousandth
        else -(r.scaled x % r.thousandth) := by
    split
    · rw [add_mul, one_mul, mul_comm]
      omega
    · rw [mul_comm]
      omega
  rw [herror]

/-- What is shown is read back as `x` exactly when `x` survives. -/
theorem truncate_formula2_shown {r : ReadingFactor} (hM : 0 < r.M) (x : Nat) :
    (r.formula2 (r.shown x)).map truncate = .ok x ↔ r.Survives x := by
  have hnonneg := Int.emod_nonneg (r.scaled x) (Int.natCast_ne_zero.mpr r.thousandth_pos.ne')
  have hlt := Int.emod_lt_of_pos (r.scaled x) (Int.natCast_pos.mpr r.thousandth_pos)
  by_cases h : -3 ≤ r.Rexpo
  · have hone : r.thousandth = 1 := by
      rw [thousandth, show (-3 - r.Rexpo).toNat = 0 by omega, pow_zero]
    have hself : truncate (x : Int) = x := by
      rw [truncate, if_pos (by exact_mod_cast Nat.zero_le x)]
      exact Int.floor_intCast _
    rw [shown_of_exact h, (inverts hM.ne').left]
    refine iff_of_true (congrArg Except.ok hself) (.inl ?_)
    rw [hone]
    omega
  · rw [formula2_shown hM.ne' (not_le.mp h)]
    show Except.ok (truncate ((x : Int) + _)) = Except.ok (x : Int) ↔ _
    rw [Except.ok.injEq, Int.cast_natCast, truncate_add_div x _ hM, Survives]
    by_cases hup : RoundsUp (r.scaled x) r.thousandth
    · have hne : r.scaled x % r.thousandth ≠ 0 := by
        unfold RoundsUp at hup
        omega
      rw [if_pos hup, if_pos hup]
      split <;> omega
    · rw [if_neg hup, if_neg hup]
      split <;> omega

end Sensor.ReadingFactor

/-! ### The commands -/

/-- What `sensor value get` says of a threshold sensor. -/
def Sensor.valueLine (s : Sensor) (text : Str) : Str :=
  s.name ++ " : ".toList ++ text ++ " ".toList ++ s.getUnit ++ "\n".toList

theorem Sensor.valueLine_injective (s : Sensor) : Function.Injective s.valueLine := by
  intro text text' h
  have hfront := List.append_cancel_right (List.append_cancel_right (List.append_cancel_right h))
  exact List.append_cancel_left hfront

theorem getSensorValue_run {σ : Type} (py : Interpreter σ) {sim : Sim σ} {strNum : Str} {i : σ}
    (h : sim.named strNum = some i) (hthreshold : (sim.obj i).getEventType = .threshold)
    {r : ReadingFactor} (hr : (sim.obj i).getReadingFactor = .ok r) {text : Str}
    (hreading : py.floats.reading r (sim.obj i).value = .ok text) :
    (getSensorValue py [strNum]).run sim =
      (.ok (), {sim with msgQueue := sim.msgQueue ++ [(sim.obj i).valueLine text]}) := by
  rw [getSensorValue, withSensor_some h, objOf, gets_bind]
  simp only [hthreshold, hr, hreading, lift_ok_bind]
  rfl

/-- The value that is stored when the shown number is given back. -/
theorem Sensor.assigned_shown {s : Sensor} (hthreshold : s.getEventType = .threshold) {r : ReadingFactor}
    (hr : s.getReadingFactor = .ok r) {x n : Int} (hn : (r.formula2 (r.shown x)).map truncate = .ok n) :
    s.assigned exactFloats (r.shownText x) =
      some (.int n, [.sensorSetValue s.mc s.lun s.ID n]) := by
  have hread : exactFloats.ofText (r.shownText x) = some (.finite (r.shown x)) :=
    floatOf_fixed (by decide) _
  have hraw : exactFloats.rawValue r (.finite (r.shown x)) = .ok n := hn
  rw [assigned]
  simp only [hthreshold, hread, hr]
  show (exactFloats.rawValue r (.finite (r.shown x))).toOption.bind _ = _
  rw [hraw]
  rfl

/-- The text that is shown of a sensor's value, given back to it, is recorded and
sent as `x`. -/
def ShownSets {σ : Type} [DecidableEq σ] (py : Interpreter σ) (sim : Sim σ) (strNum : Str) (i : σ)
    (x : Int) : Prop :=
  ∃ text sim',
    (getSensorValue py [strNum]).run sim = (.ok (), sim') ∧
    sim' = {sim with msgQueue := sim.msgQueue ++ [(sim.obj i).valueLine text]} ∧
    ((setSensorValue py [strNum, text]).run sim').1 = .ok () ∧
    (((setSensorValue py [strNum, text]).run sim').2.obj i).value = .int x ∧
    ((setSensorValue py [strNum, text]).run sim').2.sent =
      sim.sent ++ [.sensorSetValue (sim.obj i).mc (sim.obj i).lun (sim.obj i).ID x]

/-- There is one text in the line that is shown. -/
theorem shownSets_of_run {σ : Type} [DecidableEq σ] {py : Interpreter σ} {sim sim' : Sim σ} {strNum : Str}
    {i : σ} {x : Int} {text : Str} (hget : (getSensorValue py [strNum]).run sim = (.ok (), sim'))
    (hline : sim' = {sim with msgQueue := sim.msgQueue ++ [(sim.obj i).valueLine text]}) :
    ShownSets py sim strNum i x ↔ ((setSensorValue py [strNum, text]).run sim').1 = .ok () ∧
      (((setSensorValue py [strNum, text]).run sim').2.obj i).value = .int x ∧
      ((setSensorValue py [strNum, text]).run sim').2.sent =
        sim.sent ++ [.sensorSetValue (sim.obj i).mc (sim.obj i).lun (sim.obj i).ID x] := by
  constructor
  · intro hsets
    obtain ⟨text', sim'', hget', hline', hset⟩ := hsets
    obtain ⟨-, heq⟩ := Prod.mk.inj (hget.symm.trans hget')
    subst heq
    have hqueues := congrArg Sim.msgQueue (hline.symm.trans hline')
    have htext : text = text' :=
      (sim.obj i).valueLine_injective (List.cons.inj (List.append_cancel_left hqueues)).1
    rw [htext]
    exact hset
  · intro hset
    exact ⟨text, sim', hget, hline, hset⟩

/-- **When setting the displayed value is a no-op.** For every threshold sensor whose
decoded `M` is not 0, every raw value recorded and every state of the rest: what
`sensor value get` shows sets the same raw value exactly when that survives the
rounding. -/
theorem shownSets_iff {σ : Type} [DecidableEq σ] (py : Interpreter σ) (sim : Sim σ) (strNum : Str) (i : σ)
    (r : ReadingFactor) (x : Nat) (hnamed : sim.named strNum = some i)
    (hthreshold : (sim.obj i).getEventType = .threshold) (hr : (sim.obj i).getReadingFactor = .ok r)
    (hM : r.M ≠ 0) (hvalue : (sim.obj i).value = .int x) :
    ShownSets {py with floats := exactFloats} sim strNum i x ↔ r.Survives x := by
  have hpos : 0 < r.M := lt_of_le_of_ne (getReadingFactor_bounded hr).M.1 hM.symm
  have hreading : exactFloats.reading r (sim.obj i).value = .ok (r.shownText x) := by
    rw [hvalue]
    rfl
  have hget := getSensorValue_run {py with floats := exactFloats} hnamed hthreshold hr hreading
  obtain ⟨n, hn⟩ : ∃ n, (r.formula2 (r.shown x)).map truncate = .ok n := by
    rw [ReadingFactor.formula2, if_neg hM]
    exact ⟨_, rfl⟩
  generalize hsim : ({sim with
    msgQueue := sim.msgQueue ++ [(sim.obj i).valueLine (r.shownText x)]} : Sim σ) = sim' at hget
  have hobj : sim'.obj i = sim.obj i := by rw [← hsim]
  have hnamed' : sim'.named strNum = some i := by
    rw [← hnamed]
    exact named_congr (by rw [← hsim]) strNum
  have hassigned := Sensor.assigned_shown (s := sim'.obj i) (by rw [hobj, hthreshold]) (by rw [hobj, hr]) hn
  obtain ⟨hok, hrecorded, hsent⟩ :=
    setSensorValue_stores {py with floats := exactFloats} hnamed' hassigned
  rw [shownSets_of_run hget hsim.symm, ← ReadingFactor.truncate_formula2_shown hpos, hn, Except.ok.injEq,
    hrecorded, Value.int.injEq]
  constructor
  · intro hset
    exact hset.2.1
  · intro heq
    subst heq
    refine ⟨hok, rfl, ?_⟩
    rw [hsent, hobj, ← hsim]

namespace Sdr

/-- The record of the 1.05 V sensor 0xd3 in the data of `quanta_t41`. -/
def busRecord : Record where
  idLo := 0x2e
  idHi := 0x00
  version := 0x51
  type := 0x1
  body := [
    0x20, 0x00, 0xd3, 0x07, 0x01, 0x77, 0x48, 0x02, 0x01, 0x04, 0x22, 0x04, 0x22, 0x12, 0x12, 0x00,
    0x04, 0x00, 0x00, 0x62, 0x00, 0x00, 0x00, 0x00, 0xc0, 0x00, 0x6b, 0x70, 0x66, 0xff, 0x00, 0x00,
    0x71, 0x00, 0x00, 0x65, 0x00, 0x00, 0x00, 0x00, 0x00, 0x00, 0xca, 0x56, 0x6f, 0x6c, 0x74, 0x5f,
    0x50, 0x31, 0x56, 0x30, 0x35]
  body_lt := by decide
  full := by decide
  compact := by decide

/-- The reading that comes with the data. -/
def busTool : Ipmitool := fun _ _ => .stdout " 6c c0 00 00\n".toList

def busSensor : Sensor := busRecord.sensor (.int 0x6c)

def busState : State where
  offset := 58
  requests := 1
  sensorList := [busSensor]
  sensorIdMap := [((0xd3, 0x20), 0)]

theorem busRecord_parsed : parseSdrs busTool (some (dump [busRecord])) = .ok busState := by
  decide +kernel

end Sdr

/-- An interpreter with exact numbers. -/
def exactInterpreter (σ : Type) : Interpreter σ := {plainInterpreter σ with floats := exactFloats}

open Sdr in
def busSim : Sim (Fin busState.sensorList.length) := boot busState

theorem shownSets_iff_busSensor :
    ShownSets {plainInterpreter _ with floats := exactFloats} busSim "0xd3".toList ⟨0, by decide⟩ (0x6c : Nat) ↔
      (⟨98, 0, -4, 0⟩ : ReadingFactor).Survives 0x6c :=
  shownSets_iff (plainInterpreter _) busSim "0xd3".toList ⟨0, by decide⟩ ⟨98, 0, -4, 0⟩ 0x6c
    (by decide +kernel) (by decide) (by decide) (by decide) (by decide)

open Sdr in
/-- 1.0584 V is shown as 1.058, which is 107.96 steps and is set as 107. -/
theorem busSensor_losesStep : parseSdrs busTool (some (dump [busRecord])) = .ok busState ∧
    (∀ i, (busSim.obj i).value = .int 0x6c) ∧
    ((getSensorValue (exactInterpreter _) ["0xd3".toList]).run busSim).2.msgQueue =
      ["Volt_P1V05 : 1.058 Volts\n".toList] ∧
    (∀ i, (((setSensorValue (exactInterpreter _) ["0xd3".toList, "1.058".toList]).run
      ((getSensorValue (exactInterpreter _) ["0xd3".toList]).run busSim).2).2.obj i).value = .int 0x6b) ∧
    ∀ i, ¬ ShownSets (exactInterpreter _) busSim "0xd3".toList i 0x6c := by
  have hnamed : ∀ i, busSim.named "0xd3".toList = some i := by decide +kernel
  have hthreshold : ∀ i, (busSim.obj i).getEventType = .threshold := by decide +kernel
  have hfactor : ∀ i, (busSim.obj i).getReadingFactor = .ok ⟨98, 0, -4, 0⟩ := by decide +kernel
  have hreading : ∀ i, exactFloats.reading ⟨98, 0, -4, 0⟩ (busSim.obj i).value = .ok "1.058".toList := by
    decide +kernel
  have hset : ∀ i, (((setSensorValue (exactInterpreter _) ["0xd3".toList, "1.058".toList]).run
      ((getSensorValue (exactInterpreter _) ["0xd3".toList]).run busSim).2).2.obj i).value = .int 0x6b := by
    decide +kernel
  refine ⟨busRecord_parsed, by decide +kernel, by decide +kernel, hset, fun i hsets => ?_⟩
  have hget := getSensorValue_run (exactInterpreter _) (hnamed i) (hthreshold i) (hfactor i) (hreading i)
  have hvalue := ((shownSets_of_run hget rfl).mp hsets).2.1
  have hlost := hset i
  rw [hget, hvalue] at hlost
  cases hlost

end Idic.IpmiSim
