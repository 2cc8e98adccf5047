import Idic.IpmiSim.RawBytes
import Idic.IpmiSim.Ranges

/-! Which thresholds a generated value crosses.

The readable thresholds of a sensor are ordered in the number format of its
readings. Auto mode should stay strictly between them and fault mode should reach
the one that is asked for and no other alarm. The code compares the bytes of the
thresholds, and bounds a fault by the next more severe threshold only:
`getRandomValue_between_iff` and `getFaultValue_exact_iff` say when that is enough. -/
namespace Idic.IpmiSim
open Python

/-! ### Number formats -/

inductive NumberFormat where
  | unsigned
  | onesComplement
  | twosComplement
  deriving DecidableEq, Repr

/-- The number of a raw value: a byte from 0x80 on is negative in the signed formats. -/
def NumberFormat.number : NumberFormat → Int → Int
  | .unsigned, n => n
  | .onesComplement, n => if n < 128 then n else n - 255
  | .twosComplement, n => if n < 128 then n else n - 256

/-- Between two bytes that are in order as numbers, raw values are in order too. -/
theorem NumberFormat.number_between (format : NumberFormat) {lower upper v : Int} (hlower : 0 ≤ lower)
    (hupper : upper < 256) (hlow : lower < v) (hhigh : v < upper)
    (h : format.number lower < format.number upper) :
    format.number lower < format.number v ∧ format.number v < format.number upper := by
  cases format with
  | unsigned => exact ⟨hlow, hhigh⟩
  | onesComplement | twosComplement =>
    simp only [number] at h ⊢
    constructor <;> split_ifs at h ⊢ <;> omega

/-- Raw values on the side of the numbers that are not negative are what they are. -/
theorem NumberFormat.number_of_lt (format : NumberFormat) {v : Int} (h : v < 128) : format.number v = v := by
  cases format <;> simp [number, h]

/-- The format that the unit byte declares, if the readings are numbers. -/
def Sensor.numberFormat (s : Sensor) : Option NumberFormat :=
  if s.su1 >>> 6 = 0 then some .unsigned
  else if s.su1 >>> 6 = 1 then some .onesComplement
  else if s.su1 >>> 6 = 2 then some .twosComplement
  else none

theorem Sensor.signed_iff {s : Sensor} {format : NumberFormat} (h : s.numberFormat = some format) :
    s.signed ↔ format ≠ .unsigned := by
  unfold numberFormat at h
  unfold signed
  split_ifs at h with h₀ h₁ h₂
  · cases h
    simp [h₀]
  · cases h
    simp [h₁]
  · cases h
    simp [h₂]

/-! ### Levels -/

namespace Level

/-- From the lowest threshold to the highest. -/
def rank : Level → Nat
  | .lnr => 0
  | .lc => 1
  | .lnc => 2
  | .unc => 3
  | .uc => 4
  | .unr => 5

def IsLower (l : Level) : Prop := l.rank < 3

instance (l : Level) : Decidable l.IsLower := inferInstanceAs (Decidable (l.rank < 3))

/-- Farther out on the same side. -/
def MoreSevere (l l' : Level) : Prop :=
  if l.IsLower then l'.rank < l.rank else l.rank < l'.rank

instance (l l' : Level) : Decidable (l.MoreSevere l') := inferInstanceAs (Decidable (ite ..))

def OtherSide (l l' : Level) : Prop := l.IsLower ↔ ¬ l'.IsLower

instance (l l' : Level) : Decidable (l.OtherSide l') := inferInstanceAs (Decidable (_ ↔ _))

/-- The next more severe level. -/
def next : Level → Option Level
  | .lnc => some .lc
  | .lc => some .lnr
  | .unc => some .uc
  | .uc => some .unr
  | .lnr | .unr => none

theorem next_moreSevere {l l' : Level} (h : l' ∈ l.next) : l.MoreSevere l' := by
  cases l <;> cases h <;> decide

/-- Beyond a level there is the next one, and what is beyond that. -/
theorem MoreSevere.next {l l' : Level} (h : l.MoreSevere l') :
    ∃ n ∈ l.next, l' = n ∨ n.MoreSevere l' := by
  cases l <;> cases l' <;> first | exact absurd h (by decide) | exact ⟨_, rfl, by decide⟩

theorem MoreSevere.sameSide {l l' : Level} (h : l.MoreSevere l') : l.IsLower ↔ l'.IsLower := by
  cases l <;> cases l' <;> first | exact absurd h (by decide) | decide

end Level

namespace Sensor

/-- The readable thresholds are strictly ordered. -/
def Ordered (s : Sensor) (format : NumberFormat) : Prop :=
  ∀ l l' : Level, l.rank < l'.rank → s.readable l → s.readable l' →
    format.number (s.threshold l) < format.number (s.threshold l')

theorem threshold_lt (s : Sensor) (l : Level) : s.threshold l < 256 := by
  cases l <;> exact UInt8.toNat_lt _

/-! ### Auto mode -/

/-- Strictly above the readable lower thresholds and below the upper ones. -/
def Between (s : Sensor) (format : NumberFormat) (v : Int) : Prop :=
  ∀ l, s.readable l → if l.IsLower then format.number (s.threshold l) < format.number v
    else format.number v < format.number (s.threshold l)

/-- The first readable of some levels, with how it stands to the others. -/
theorem firstReadable_some {s : Sensor} {R : Level → Level → Prop} {ls : List Level} {b : Nat}
    (hR : ls.Pairwise R) (h : s.firstReadable ls = some b) :
    ∃ l ∈ ls, s.readable l ∧ s.threshold l = b ∧ ∀ l' ∈ ls, s.readable l' → l' = l ∨ R l l' := by
  induction ls with
  | nil => cases h
  | cons l rest ih =>
    rw [List.pairwise_cons] at hR
    by_cases hl : s.readable l
    · have hb : some (s.threshold l) = some b := by simpa [firstReadable, hl] using h
      refine ⟨l, List.mem_cons_self .., hl, Option.some.inj hb, fun l' hl' _ => ?_⟩
      rcases List.mem_cons.mp hl' with heq | hl'
      · exact .inl heq
      · exact .inr (hR.1 l' hl')
    · have hrest : s.firstReadable rest = some b := by simpa [firstReadable, hl] using h
      obtain ⟨l₁, hmem, hl₁, hb, hothers⟩ := ih hR.2 hrest
      refine ⟨l₁, List.mem_cons_of_mem l hmem, hl₁, hb, fun l' hl' hread => ?_⟩
      rcases List.mem_cons.mp hl' with heq | hl'
      · exact absurd (heq ▸ hread) hl
      · exact hothers l' hl' hread

theorem firstReadable_lt {s : Sensor} {ls : List Level} {b : Nat} (h : s.firstReadable ls = some b) :
    b < 256 := by
  obtain ⟨l, -, heq⟩ := Option.map_eq_some_iff.mp h
  exact heq ▸ s.threshold_lt l

theorem firstReadable_none {s : Sensor} {ls : List Level} :
    s.firstReadable ls = none ↔ ∀ l ∈ ls, ¬ s.readable l := by
  simp [firstReadable]

theorem mem_lower (l : Level) : l ∈ [Level.lnc, .lc, .lnr] ↔ l.IsLower := by
  cases l <;> decide

theorem mem_upper (l : Level) : l ∈ [Level.unc, .uc, .unr] ↔ ¬ l.IsLower := by
  cases l <;> decide

/-- The innermost readable thresholds decide. -/
theorem between_iff {s : Sensor} {format : NumberFormat} (hord : s.Ordered format) (v : Int) :
    s.Between format v ↔
      (∀ b ∈ s.firstReadable [.lnc, .lc, .lnr], format.number b < format.number v) ∧
      ∀ b ∈ s.firstReadable [.unc, .uc, .unr], format.number v < format.number b := by
  have hlower : [Level.lnc, .lc, .lnr].Pairwise fun l l' => l'.rank < l.rank := by decide
  have hupper : [Level.unc, .uc, .unr].Pairwise fun l l' => l.rank < l'.rank := by decide
  constructor
  · intro hbetween
    constructor
    · intro b hb
      obtain ⟨l, hmem, hl, heq, -⟩ := firstReadable_some hlower hb
      have h := hbetween l hl
      rwa [if_pos ((mem_lower l).mp hmem), heq] at h
    · intro b hb
      obtain ⟨l, hmem, hl, heq, -⟩ := firstReadable_some hupper hb
      have h := hbetween l hl
      rwa [if_neg ((mem_upper l).mp hmem), heq] at h
  · intro hboth l hl
    obtain ⟨hbelow, habove⟩ := hboth
    split
    · next hside =>
      cases hfirst : s.firstReadable [.lnc, .lc, .lnr] with
      | none => exact absurd hl (firstReadable_none.mp hfirst l ((mem_lower l).mpr hside))
      | some b =>
        obtain ⟨l₁, -, hl₁, heq, hothers⟩ := firstReadable_some hlower hfirst
        have hb := hbelow b hfirst
        rcases hothers l ((mem_lower l).mpr hside) hl with hsame | hlt
        · rwa [hsame, heq]
        · exact lt_trans (heq ▸ hord l l₁ hlt hl hl₁) hb
    · next hside =>
      cases hfirst : s.firstReadable [.unc, .uc, .unr] with
      | none => exact absurd hl (firstReadable_none.mp hfirst l ((mem_upper l).mpr hside))
      | some b =>
        obtain ⟨l₁, -, hl₁, heq, hothers⟩ := firstReadable_some hupper hfirst
        have hb := habove b hfirst
        rcases hothers l ((mem_upper l).mpr hside) hl with hsame | hlt
        · rwa [hsame, heq]
        · exact lt_trans hb (heq ▸ hord l₁ l hlt hl₁ hl)

/-- The innermost thresholds of the two sides are in order. -/
theorem innermost_lt {s : Sensor} {format : NumberFormat} (hord : s.Ordered format) {lower upper : Nat}
    (hlower : s.firstReadable [.lnc, .lc, .lnr] = some lower)
    (hupper : s.firstReadable [.unc, .uc, .unr] = some upper) :
    format.number lower < format.number upper := by
  obtain ⟨l, hmem, hl, heq, -⟩ := firstReadable_some (R := fun _ _ => True) (by decide) hlower
  obtain ⟨l', hmem', hl', heq', -⟩ := firstReadable_some (R := fun _ _ => True) (by decide) hupper
  have hside := (mem_lower l).mp hmem
  have hside' := (mem_upper l').mp hmem'
  unfold Level.IsLower at hside hside'
  rw [← heq, ← heq']
  exact hord l l' (by omega) hl hl'

theorem lowValue_some {s : Sensor} {lower : Nat} (h : s.firstReadable [.lnc, .lc, .lnr] = some lower) :
    s.lowValue = lower + 1 := by rw [lowValue_eq, h]

theorem lowValue_none {s : Sensor} (h : s.firstReadable [.lnc, .lc, .lnr] = none) :
    s.lowValue = if s.signed then -127 else 0 := by rw [lowValue_eq, h]

theorem highValue_some {s : Sensor} {upper : Nat} (h : s.firstReadable [.unc, .uc, .unr] = some upper) :
    s.highValue = upper - 1 := by rw [highValue_eq, h]

theorem highValue_none {s : Sensor} (h : s.firstReadable [.unc, .uc, .unr] = none) :
    s.highValue = if s.signed then 127 else 255 := by rw [highValue_eq, h]

/-- With signed readings and no readable lower threshold, the innermost readable upper
one is not negative. -/
def UpperFits (s : Sensor) : Prop :=
  s.signed → s.firstReadable [.lnc, .lc, .lnr] = none →
    ∀ upper ∈ s.firstReadable [.unc, .uc, .unr], upper < 128

instance (s : Sensor) : Decidable s.UpperFits := inferInstanceAs (Decidable (_ → _ → _))

end Sensor

/-- **When auto mode crosses no threshold.** For every sensor whose readable thresholds
are in order, in whichever of the three formats: all values that auto mode can return
lie strictly between them exactly when a signed sensor without a readable lower
threshold has no negative upper one. -/
theorem getRandomValue_between_iff (s : Sensor) (format : NumberFormat) (hformat : s.numberFormat = some format)
    (hord : s.Ordered format) :
    (∀ rng v, s.getRandomValue rng = .ok v → s.Between format v) ↔ s.UpperFits := by
  have hsigned := Sensor.signed_iff hformat
  constructor
  · intro hall hs hnone upper hupper
    by_contra hnegative
    have hdraw : s.getRandomValue 127 = .ok 0 := by
      have hlow : s.lowValue = -127 := (Sensor.lowValue_none hnone).trans (if_pos hs)
      have hhigh := Sensor.highValue_some hupper
      have hzero : 127 % ((upper : Int) - 1 - -127 + 1).toNat = 127 := Nat.mod_eq_of_lt (by omega)
      rw [Sensor.getRandomValue, Sensor.randint, if_pos (by omega), hlow, hhigh, hzero]
      rfl
    have hbelow := ((Sensor.between_iff hord 0).mp (hall _ _ hdraw)).2 upper hupper
    have hbyte := Sensor.firstReadable_lt hupper
    cases format with
    | unsigned => exact hsigned.mp hs rfl
    | onesComplement | twosComplement =>
      simp only [NumberFormat.number] at hbelow
      split_ifs at hbelow <;> omega
  · intro hfits rng v hv
    obtain ⟨hlow, hhigh⟩ := Sensor.randint_mem hv
    refine (Sensor.between_iff hord v).mpr ⟨fun lower hlower => ?_, fun upper hupper => ?_⟩
    · have hbyte := Sensor.firstReadable_lt hlower
      rw [Sensor.lowValue_some hlower] at hlow
      cases hupper : s.firstReadable [.unc, .uc, .unr] with
      | some upper =>
        have hbyte' := Sensor.firstReadable_lt hupper
        have hinner := Sensor.innermost_lt hord hlower hupper
        rw [Sensor.highValue_some hupper] at hhigh
        exact (format.number_between (by omega) (by omega) (by omega) (by omega) hinner).1
      | none =>
        rw [Sensor.highValue_none hupper] at hhigh
        by_cases hs : s.signed
        · rw [if_pos hs] at hhigh
          rw [format.number_of_lt (by omega), format.number_of_lt (by omega)]
          omega
        · cases not_not.mp fun h => hs (hsigned.mpr h)
          exact (by omega : (lower : Int) < v)
    · have hbyte := Sensor.firstReadable_lt hupper
      rw [Sensor.highValue_some hupper] at hhigh
      cases hlower : s.firstReadable [.lnc, .lc, .lnr] with
      | some lower =>
        have hinner := Sensor.innermost_lt hord hlower hupper
        rw [Sensor.lowValue_some hlower] at hlow
        exact (format.number_between (by omega) (by omega) (by omega) (by omega) hinner).2
      | none =>
        rw [Sensor.lowValue_none hlower] at hlow
        by_cases hs : s.signed
        · have hsmall := hfits hs hlower upper hupper
          rw [format.number_of_lt (by omega), format.number_of_lt (by omega)]
          omega
        · cases not_not.mp fun h => hs (hsigned.mpr h)
          exact (by omega : v < (upper : Int))

namespace Sdr

/-- A full record of a threshold sensor, with some of its bytes given. -/
def thresholdRecord (rtm su1 unc lnr lnc : UInt8) : Record where
  idLo := 1
  idHi := 0
  version := 0x51
  type := 0x1
  body := [0x20, 0, 0x10, 0, 0, 0, 0, 0x01, 0x01, 0, 0, 0, 0, rtm, 0, su1] ++ List.replicate 17 0 ++
    [unc, lnr, 0, lnc] ++ List.replicate 6 0
  body_lt := by simp
  full := by simp
  compact := by simp

/-- A two's complement sensor with three readable thresholds: -20, -5 and 30. -/
def freezerSensor : Sensor := (thresholdRecord 0x0d 0x80 0x1e 0xec 0xfb).sensor (.int 0x1a)

theorem freezerSensor_ordered : freezerSensor.Ordered .twosComplement := by
  intro l l'
  cases l <;> cases l' <;> decide

/-- A two's complement sensor whose only readable threshold, the upper non-critical
one, is -10. -/
def coldRecord : Record := thresholdRecord 0x08 0x80 0xf6 0 0

def coldSensor : Sensor := coldRecord.sensor (.int 0x1a)

def coldState : State where
  offset := 48
  requests := 1
  sensorList := [coldSensor]
  sensorIdMap := [((0x10, 0x20), 0)]

theorem coldRecord_parsed : parseSdrs constantTool (some (dump [coldRecord])) = .ok coldState := by
  decide +kernel

theorem coldSensor_ordered : coldSensor.Ordered .twosComplement := by
  have hunc (l : Level) (h : coldSensor.readable l) : l = .unc := by
    cases l <;> first | rfl | exact absurd h (by decide)
  intro l l' hlt hl hl'
  rw [hunc l hl, hunc l' hl'] at hlt
  exact absurd hlt (lt_irrefl _)

end Sdr

open Sdr in
theorem getRandomValue_between_iff_freezerSensor :
    (∀ rng v, freezerSensor.getRandomValue rng = .ok v → freezerSensor.Between .twosComplement v) ↔
      freezerSensor.UpperFits :=
  getRandomValue_between_iff freezerSensor .twosComplement (by decide) freezerSensor_ordered

open Sdr in
/-- Auto mode draws 0 for it, which is above -10. -/
theorem coldSensor_crosses : parseSdrs constantTool (some (dump [coldRecord])) = .ok coldState ∧
    coldState.sensorList = [coldSensor] ∧ coldSensor.getEventType = .threshold ∧
    coldSensor.numberFormat = some .twosComplement ∧ coldSensor.Ordered .twosComplement ∧
    coldSensor.getRandomValue 127 = .ok 0 ∧ ¬ coldSensor.Between .twosComplement 0 := by
  refine ⟨coldRecord_parsed, rfl, by decide, by decide, coldSensor_ordered, by decide, fun hbetween => ?_⟩
  have hunc := hbetween .unc (by decide)
  exact absurd hunc (by decide)

/-! ### Fault mode -/

namespace Sensor

/-- The threshold is reached: from above for the lower levels, from below for the others. -/
def Reaches (s : Sensor) (v : Int) (l : Level) : Prop :=
  if l.IsLower then v ≤ s.threshold l else s.threshold l ≤ v

/-- A fault at a level reaches that level and neither a more severe one nor one of the
other side; without a threshold there is none. -/
def ExactFault (s : Sensor) (l : Level) : Prop :=
  ∀ rng, ∃ value messages, ({s with faultLevel := some l} : Sensor).getFaultValue rng = .ok (value, messages) ∧
    (value = none ↔ ¬ s.readable l) ∧
    ∀ v ∈ value, s.Reaches v l ∧
      ∀ l', s.readable l' → l.MoreSevere l' ∨ l.OtherSide l' → ¬ s.Reaches v l'

/-- Where a more severe threshold is readable, the next more severe one is. -/
def NoGap (s : Sensor) (l : Level) : Prop :=
  ∀ l', l.MoreSevere l' → s.readable l' → ∃ n ∈ l.next, s.readable n

/-- Where the generated value ends away from the requested threshold. -/
def faultEnd (s : Sensor) (l : Level) : Int :=
  match l.next.filter fun n => s.readable n with
  | some n => if l.IsLower then s.threshold n + 1 else s.threshold n - 1
  | none => if l.IsLower then 0 else s.maxValue

theorem faultValueAt_eq {s : Sensor} {l : Level} (h : s.readable l) (rng : Nat) :
    s.faultValueAt l rng =
      (if l.IsLower then randint rng (s.faultEnd l) (s.threshold l)
        else randint rng (s.threshold l) (s.faultEnd l)).map fun v => (some v, []) := by
  have hlower : Level.lnc.IsLower ∧ Level.lc.IsLower ∧ Level.lnr.IsLower := by decide
  have hupper : ¬ Level.unc.IsLower ∧ ¬ Level.uc.IsLower ∧ ¬ Level.unr.IsLower := by decide
  cases l with
  | lnc =>
    by_cases hn : s.readable .lc <;>
      simp [faultValueAt, faultEnd, Level.next, Option.filter, threshold, h, hn, hlower]
  | lc =>
    by_cases hn : s.readable .lnr <;>
      simp [faultValueAt, faultEnd, Level.next, Option.filter, threshold, h, hn, hlower]
  | lnr => simp [faultValueAt, faultEnd, Level.next, Option.filter, threshold, h, hlower]
  | unc =>
    by_cases hn : s.readable .uc <;>
      simp [faultValueAt, faultEnd, Level.next, Option.filter, threshold, h, hn, hupper]
  | uc =>
    by_cases hn : s.readable .unr <;>
      simp [faultValueAt, faultEnd, Level.next, Option.filter, threshold, h, hn, hupper]
  | unr => simp [faultValueAt, faultEnd, Level.next, Option.filter, threshold, h, hupper]

theorem faultEnd_some {s : Sensor} {l n : Level} (hn : n ∈ l.next) (hread : s.readable n) :
    s.faultEnd l = if l.IsLower then (s.threshold n : Int) + 1 else s.threshold n - 1 := by
  have hfilter : l.next.filter (fun n => s.readable n) = some n := by
    rw [Option.mem_def.mp hn]
    exact if_pos (decide_eq_true hread)
  rw [faultEnd, hfilter]

theorem faultEnd_none {s : Sensor} {l : Level} (h : ∀ n ∈ l.next, ¬ s.readable n) :
    s.faultEnd l = if l.IsLower then 0 else s.maxValue := by
  have hfilter : l.next.filter (fun n => s.readable n) = none := by
    rw [Option.filter_eq_none_iff]
    exact fun n hn => by simpa using h n hn
  rw [faultEnd, hfilter]

theorem maxValue_unsigned {s : Sensor} (hformat : s.numberFormat = some .unsigned) : s.maxValue = 0xFF :=
  if_neg fun hs => (signed_iff hformat).mp hs rfl

/-- The generator can choose every value of a range. -/
theorem randint_eq {a b v : Int} (ha : a ≤ v) (hb : v ≤ b) : randint (v - a).toNat a b = .ok v := by
  have hmod : (v - a).toNat % (b - a + 1).toNat = (v - a).toNat := Nat.mod_eq_of_lt (by omega)
  rw [randint, if_pos (by omega), hmod]
  exact congrArg Except.ok (by omega)

theorem faultValueAt_missing {s : Sensor} {l : Level} (h : ¬ s.readable l) (rng : Nat) :
    s.faultValueAt l rng = .ok (none, [s.notCrossed l]) := by
  cases l <;> simp [faultValueAt, h]

/-- What a fault draws from a range that is not empty. -/
theorem faultValueAt_drawn {s : Sensor} {l : Level} (hl : s.readable l)
    (hroom : if l.IsLower then s.faultEnd l ≤ s.threshold l else (s.threshold l : Int) ≤ s.faultEnd l)
    (rng : Nat) : ∃ v, s.faultValueAt l rng = .ok (some v, []) ∧
      if l.IsLower then s.faultEnd l ≤ v ∧ v ≤ s.threshold l
        else s.threshold l ≤ v ∧ v ≤ s.faultEnd l := by
  rw [faultValueAt_eq hl]
  split at hroom
  · next hside =>
    obtain ⟨v, hv⟩ := (randint_ok_iff rng _ _).mpr hroom
    refine ⟨v, ?_, ?_⟩
    · rw [if_pos hside, hv]
      rfl
    · rw [if_pos hside]
      exact randint_mem hv
  · next hside =>
    obtain ⟨v, hv⟩ := (randint_ok_iff rng _ _).mpr hroom
    refine ⟨v, ?_, ?_⟩
    · rw [if_neg hside, hv]
      rfl
    · rw [if_neg hside]
      exact randint_mem hv

/-- The end of the range can be drawn. -/
theorem faultEnd_drawn {s : Sensor} {l : Level} (hl : s.readable l)
    (hroom : if l.IsLower then s.faultEnd l ≤ s.threshold l else (s.threshold l : Int) ≤ s.faultEnd l) :
    ∃ rng, s.faultValueAt l rng = .ok (some (s.faultEnd l), []) := by
  split at hroom
  · next hside =>
    refine ⟨(s.faultEnd l - s.faultEnd l).toNat, ?_⟩
    rw [faultValueAt_eq hl, if_pos hside, randint_eq (le_refl _) hroom]
    rfl
  · next hside =>
    refine ⟨(s.faultEnd l - s.threshold l).toNat, ?_⟩
    rw [faultValueAt_eq hl, if_neg hside, randint_eq hroom (le_refl _)]
    rfl

section Unsigned
variable {s : Sensor} (hord : s.Ordered .unsigned)
include hord

theorem ordered_lt {l l' : Level} (h : l.rank < l'.rank) (hl : s.readable l) (hl' : s.readable l') :
    s.threshold l < s.threshold l' := by
  have hlt : (s.threshold l : Int) < s.threshold l' := hord l l' h hl hl'
  omega

/-- Farther out on its side is farther down or farther up. -/
theorem moreSevere_lt {l l' : Level} (h : l.MoreSevere l') (hl : s.readable l) (hl' : s.readable l') :
    if l.IsLower then s.threshold l' < s.threshold l else s.threshold l < s.threshold l' := by
  unfold Level.MoreSevere at h
  split at h
  · next hside =>
    rw [if_pos hside]
    exact ordered_lt hord h hl' hl
  · next hside =>
    rw [if_neg hside]
    exact ordered_lt hord h hl hl'

/-- The threshold beyond bounds the values away from everything more severe. -/
theorem exactFault_value {l : Level} (hl : s.readable l) (hgap : s.NoGap l) {v : Int}
    (hv : if l.IsLower then s.faultEnd l ≤ v ∧ v ≤ s.threshold l
      else s.threshold l ≤ v ∧ v ≤ s.faultEnd l) :
    s.Reaches v l ∧ ∀ l', s.readable l' → l.MoreSevere l' ∨ l.OtherSide l' → ¬ s.Reaches v l' := by
  unfold Reaches
  by_cases hside : l.IsLower
  · rw [if_pos hside] at hv ⊢
    refine ⟨hv.2, fun l' hl' hfar => ?_⟩
    rcases hfar with hsevere | hother
    · obtain ⟨n, hn, hread⟩ := hgap l' hsevere hl'
      obtain ⟨n', hn', hbeyond⟩ := hsevere.next
      cases hn.symm.trans hn'
      have hend := faultEnd_some hn hread
      rw [if_pos hside] at hend
      rw [if_pos (hsevere.sameSide.mp hside)]
      rcases hbeyond with heq | hbeyond
      · subst heq
        omega
      · have hlt := moreSevere_lt hord hbeyond hread hl'
        rw [if_pos ((Level.next_moreSevere hn).sameSide.mp hside)] at hlt
        omega
    · have hside' := hother.mp hside
      rw [if_neg hside']
      unfold Level.IsLower at hside hside'
      have hlt := ordered_lt hord (show l.rank < l'.rank by omega) hl hl'
      omega
  · rw [if_neg hside] at hv ⊢
    refine ⟨hv.1, fun l' hl' hfar => ?_⟩
    rcases hfar with hsevere | hother
    · obtain ⟨n, hn, hread⟩ := hgap l' hsevere hl'
      obtain ⟨n', hn', hbeyond⟩ := hsevere.next
      cases hn.symm.trans hn'
      have hend := faultEnd_some hn hread
      rw [if_neg hside] at hend
      rw [if_neg fun h => hside (hsevere.sameSide.mpr h)]
      rcases hbeyond with heq | hbeyond
      · subst heq
        omega
      · have hlt := moreSevere_lt hord hbeyond hread hl'
        rw [if_neg fun h => hside ((Level.next_moreSevere hn).sameSide.mpr h)] at hlt
        omega
    · have hside' := not_not.mp fun h => hside (hother.mpr h)
      rw [if_pos hside']
      unfold Level.IsLower at hside hside'
      have hlt := ordered_lt hord (show l'.rank < l.rank by omega) hl' hl
      omega

/-- The range of a fault is not empty. -/
theorem faultEnd_room (hformat : s.numberFormat = some .unsigned) {l : Level} (hl : s.readable l) :
    if l.IsLower then s.faultEnd l ≤ s.threshold l else (s.threshold l : Int) ≤ s.faultEnd l := by
  have hbyte := s.threshold_lt l
  by_cases hnext : ∃ n ∈ l.next, s.readable n
  · obtain ⟨n, hn, hread⟩ := hnext
    have hlt := moreSevere_lt hord (Level.next_moreSevere hn) hl hread
    rw [faultEnd_some hn hread]
    by_cases hside : l.IsLower
    · simp only [if_pos hside] at hlt ⊢
      omega
    · simp only [if_neg hside] at hlt ⊢
      omega
  · rw [faultEnd_none fun n hn hread => hnext ⟨n, hn, hread⟩, maxValue_unsigned hformat]
    split <;> omega

end Unsigned

end Sensor

/-- **When a requested fault is exactly that fault.** For every sensor of unsigned
readings whose readable thresholds are in order and every level: nothing is generated
exactly without a threshold, and otherwise only values that reach it and no other
alarm, exactly when the next more severe threshold of a readable one is readable if
any more severe one is. -/
theorem getFaultValue_exact_iff (s : Sensor) (l : Level) (hformat : s.numberFormat = some .unsigned)
    (hord : s.Ordered .unsigned) : s.ExactFault l ↔ (s.readable l → s.NoGap l) := by
  have hfault (rng : Nat) :
      ({s with faultLevel := some l} : Sensor).getFaultValue rng = s.faultValueAt l rng := rfl
  constructor
  · intro hexact hl l' hsevere hl'
    by_contra hgap
    have hend := Sensor.faultEnd_none fun n hn hread => hgap ⟨n, hn, hread⟩
    obtain ⟨rng, hdrawn⟩ := Sensor.faultEnd_drawn hl (Sensor.faultEnd_room hord hformat hl)
    obtain ⟨value, messages, hvalue, -, hreaches⟩ := hexact rng
    cases hdrawn.symm.trans hvalue
    refine (hreaches _ rfl).2 l' hl' (.inl hsevere) ?_
    have hbyte := s.threshold_lt l'
    rw [hend, Sensor.maxValue_unsigned hformat]
    unfold Sensor.Reaches
    by_cases hside : l.IsLower
    · rw [if_pos (hsevere.sameSide.mp hside), if_pos hside]
      omega
    · rw [if_neg fun h => hside (hsevere.sameSide.mpr h), if_neg hside]
      omega
  · intro hgap rng
    rw [hfault]
    by_cases hl : s.readable l
    · obtain ⟨v, hdrawn, hv⟩ := Sensor.faultValueAt_drawn hl (Sensor.faultEnd_room hord hformat hl) rng
      refine ⟨some v, [], hdrawn, iff_of_false nofun (not_not.mpr hl), fun v' hv' => ?_⟩
      cases hv'
      exact Sensor.exactFault_value hord hl (hgap hl) hv
    · exact ⟨none, _, Sensor.faultValueAt_missing hl rng, iff_of_true rfl hl, fun v hv => nomatch hv⟩

namespace Sdr

/-- An unsigned sensor with the lower non-critical threshold 20 and the lower
non-recoverable one 10. -/
def gapRecord : Record := thresholdRecord 0x05 0 0 10 20

def gapSensor : Sensor := gapRecord.sensor (.int 0x1a)

def gapState : State where
  offset := 48
  requests := 1
  sensorList := [gapSensor]
  sensorIdMap := [((0x10, 0x20), 0)]

theorem gapRecord_parsed : parseSdrs constantTool (some (dump [gapRecord])) = .ok gapState := by
  decide +kernel

theorem gapSensor_ordered : gapSensor.Ordered .unsigned := by
  have hlower (l : Level) (h : gapSensor.readable l) : l = .lnr ∨ l = .lnc := by
    cases l <;> first | exact .inl rfl | exact .inr rfl | exact absurd h (by decide)
  intro l l' hlt hl hl'
  rcases hlower l hl with rfl | rfl <;> rcases hlower l' hl' with rfl | rfl <;> revert hlt <;> decide

end Sdr

open Sdr in
theorem getFaultValue_exact_iff_gapSensor :
    gapSensor.ExactFault .lnc ↔ (gapSensor.readable .lnc → gapSensor.NoGap .lnc) :=
  getFaultValue_exact_iff gapSensor .lnc (by decide) gapSensor_ordered

open Sdr in
/-- The fault at the lower non-critical level draws 0 for it, which reaches the lower
non-recoverable threshold too. -/
theorem gapSensor_reachesBoth : parseSdrs constantTool (some (dump [gapRecord])) = .ok gapState ∧
    gapState.sensorList = [gapSensor] ∧ gapSensor.getEventType = .threshold ∧
    gapSensor.numberFormat = some .unsigned ∧ gapSensor.Ordered .unsigned ∧
    ({gapSensor with faultLevel := some .lnc} : Sensor).getFaultValue 0 = .ok (some 0, []) ∧
    gapSensor.readable .lnr ∧ gapSensor.Reaches 0 .lnr ∧ ¬ gapSensor.ExactFault .lnc := by
  have hdrawn : ({gapSensor with faultLevel := some .lnc} : Sensor).getFaultValue 0 = .ok (some 0, []) := by
    decide
  have hread : gapSensor.readable .lnr := by decide
  have hreaches : gapSensor.Reaches 0 .lnr := Int.natCast_nonneg _
  refine ⟨gapRecord_parsed, rfl, by decide, by decide, gapSensor_ordered, hdrawn, hread, hreaches,
    fun hexact => ?_⟩
  obtain ⟨value, messages, hvalue, -, hfault⟩ := hexact 0
  cases hdrawn.symm.trans hvalue
  exact (hfault 0 rfl).2 .lnr hread (.inl (by decide)) hreaches

end Idic.IpmiSim
