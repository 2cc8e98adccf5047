import Idic.Python.Text
import Mathlib.Algebra.Field.Rat
import Mathlib.Algebra.GroupWithZero.Basic

/-! One sensor of the simulator.

A `Sensor` is built from one SDR record (`Sdr.lean`). Its SDR data never change
afterwards; the mode, the fault level, the recorded value, the quit flag and the
SEL object do. The value a sensor's thread generates is drawn from a range that
the readable thresholds bound: `getRandomValue` in auto mode, `getFaultValue` in
fault mode. The generator's choice is an argument, so that a statement about
every choice is a statement about every `rng`. -/
namespace Idic.IpmiSim
open Python

inductive Mode where
  | user
  | auto
  | fault
  deriving DecidableEq, Repr

/-- The six thresholds, which are also the fault levels. -/
inductive Level where
  | lnr
  | lc
  | lnc
  | unc
  | uc
  | unr
  deriving DecidableEq, Repr

def Level.text : Level → Str
  | .lnr => "lnr".toList
  | .lc => "lc".toList
  | .lnc => "lnc".toList
  | .unc => "unc".toList
  | .uc => "uc".toList
  | .unr => "unr".toList

inductive EventType where
  | NA
  | threshold
  | discrete
  deriving DecidableEq, Repr

/-- What `Sensor.value` holds: an integer for a threshold sensor, a text such as
`0x1ac0` for a discrete one, nothing when the event type is 0. -/
inductive Value where
  | none
  | int (n : Int)
  | str (s : Str)
  deriving DecidableEq, Repr

/-- A standard SEL record under construction (`sel.SEL`). -/
structure SEL where
  mc : Int := 0x20
  recordType : Int := 0x02
  ts1 : Int := 0
  ts2 : Int := 0
  ts3 : Int := 0
  ts4 : Int := 0
  gid1 : Int := 0
  gid2 : Int := 0
  evmRev : Int := 0x04
  sensorType : Int := 0
  sensorNum : Int := 0
  eventDir : Int := 0
  eventType : Int := 0
  eventData1 : Int := 0
  eventData2 : Int := 0
  eventData3 : Int := 0
  deriving DecidableEq, Repr

/-- The conversion bytes, which only a full record has. -/
structure Factors where
  mLb : UInt8
  mUb : UInt8
  bLb : UInt8
  bUb : UInt8
  accuracy : UInt8
  exp : UInt8
  deriving DecidableEq, Repr

/-- `Sensor` objects. The fields from `mc` on are attributes that the constructor
does not set: `parse_sdrs` sets them on every sensor it builds, but `factors` on
those of full records only and `faultLevel` on none. -/
structure Sensor where
  name : Str
  ID : UInt8
  value : Value
  tp : UInt8
  mode : Mode := .user
  quit : Bool := false
  lnr : UInt8 := 0
  lnc : UInt8 := 0
  lc : UInt8 := 0
  unc : UInt8 := 0
  uc : UInt8 := 0
  unr : UInt8 := 0
  sel : SEL := {}
  mc : UInt8 := 0
  lun : UInt8 := 0
  eventType : UInt8 := 0
  cap : UInt8 := 0
  ltmLb : UInt8 := 0
  ltmUb : UInt8 := 0
  utmLb : UInt8 := 0
  utmUb : UInt8 := 0
  rtm : UInt8 := 0
  stm : UInt8 := 0
  su1 : UInt8 := 0
  su2 : UInt8 := 0
  factors : Option Factors := none
  faultLevel : Option Level := none
  deriving DecidableEq, Repr

namespace Sensor

def getEventType (s : Sensor) : EventType :=
  if s.eventType = 0x0 then .NA else if s.eventType = 0x1 then .threshold else .discrete

def initializeSel (s : Sensor) : Sensor :=
  {s with sel := {s.sel with
    mc := s.mc.toNat
    gid1 := s.mc.toNat
    gid2 := s.lun.toNat
    sensorType := s.tp.toNat
    sensorNum := s.ID.toNat
    eventType := s.eventType.toNat}}

/-- The decorator `with_type`. On another event type it means to raise a
`TypeError`, but the message reads `self.expect_type`, which does not exist. -/
def withType {α : Type} (s : Sensor) (expect : EventType) (fn : Except PyError α) :
    Except PyError α :=
  if s.getEventType = expect then fn else .error .attributeError

/-! ### Linear conversion -/

/-- What the two lambdas of `get_reading_factor` close over. -/
structure ReadingFactor where
  M : Int
  B : Int
  Rexpo : Int
  Bexpo : Nat
  deriving DecidableEq, Repr

def getReadingFactor (s : Sensor) : Except PyError ReadingFactor :=
  match s.factors with
  | none => .error .attributeError
  | some f =>
    let mLb := f.mLb.toNat
    let mUb := f.mUb.toNat
    let bLb := f.bLb.toNat
    let bUb := f.bUb.toNat
    let exp := f.exp.toNat
    .ok {
      M := (((mUb &&& 0xc0) <<< 2) + mLb : Nat)
      B := if (bUb >>> 7) &&& 0x1 = 1
        then ~~~((((bUb &&& 0x40) <<< 2) + bLb) ^^^ 0x1ff : Nat)
        else (((bUb &&& 0xc0) <<< 2) + bLb : Nat)
      Rexpo := if (exp >>> 7) &&& 0x1 = 1
        then ~~~(((exp &&& 0x70) >>> 4) ^^^ 0x07 : Nat)
        else ((exp &&& 0xf0) >>> 4 : Nat)
      Bexpo := exp &&& 0x0f }

/-- Raw value to human readable value. -/
def ReadingFactor.formula1 (r : ReadingFactor) (x : ℚ) : ℚ :=
  (r.M * x + r.B * 10 ^ r.Bexpo) * 10 ^ r.Rexpo

/-- Human readable value to raw value. -/
def ReadingFactor.formula2 (r : ReadingFactor) (x : ℚ) : Except PyError ℚ :=
  if r.M = 0 then .error .zeroDivisionError
  else .ok ((x / 10 ^ r.Rexpo - r.B * 10 ^ r.Bexpo) / r.M)

/-! ### Generated values -/

/-- `random.randint(a, b)`, with the generator's choice given. -/
def randint (rng : Nat) (a b : Int) : Except PyError Int :=
  if a ≤ b then .ok (a + (rng % (b - a + 1).toNat : Nat)) else .error .valueError

/-- The mask of a threshold in the readable threshold mask. -/
def Level.mask : Level → UInt8
  | .lnr => 0x04
  | .lc => 0x02
  | .lnc => 0x01
  | .unc => 0x08
  | .uc => 0x10
  | .unr => 0x20

def readable (s : Sensor) (l : Level) : Prop := s.rtm &&& Level.mask l ≠ 0

instance (s : Sensor) (l : Level) : Decidable (s.readable l) :=
  inferInstanceAs (Decidable (s.rtm &&& Level.mask l ≠ 0))

/-- Readings in one's or two's complement (the top bits of the unit byte). -/
def signed (s : Sensor) : Prop := s.su1 >>> 6 = 1 ∨ s.su1 >>> 6 = 2

instance (s : Sensor) : Decidable s.signed :=
  inferInstanceAs (Decidable (s.su1 >>> 6 = 1 ∨ s.su1 >>> 6 = 2))

def lowValue (s : Sensor) : Int :=
  if s.readable .lnc then s.lnc.toNat + 1
  else if s.readable .lc then s.lc.toNat + 1
  else if s.readable .lnr then s.lnr.toNat + 1
  else if s.signed then -127
  else 0

def highValue (s : Sensor) : Int :=
  if s.readable .unc then s.unc.toNat - 1
  else if s.readable .uc then s.uc.toNat - 1
  else if s.readable .unr then s.unr.toNat - 1
  else if s.signed then 127
  else 255

def getRandomValue (s : Sensor) (rng : Nat) : Except PyError Int :=
  randint rng s.lowValue s.highValue

/-- The largest raw value of the number format, `MAX`. -/
def maxValue (s : Sensor) : Int := if s.signed then 0x7F else 0xFF

/-- The message put on `msg_queue` when the level has no readable threshold. -/
def notCrossed (s : Sensor) (l : Level) : Str :=
  "WARN: Sensor ".toList ++ s.name ++ " did not cross ".toList ++ l.text ++
    " threshold since it does not exist\n".toList

/-- The fault value for a level, or nothing and a message. -/
def faultValueAt (s : Sensor) (l : Level) (rng : Nat) : Except PyError (Option Int × List Str) :=
  let missing : Except PyError (Option Int × List Str) := .ok (none, [s.notCrossed l])
  let draw (a b : Int) : Except PyError (Option Int × List Str) :=
    (randint rng a b).map fun v => (some v, [])
  match l with
  | .lnc =>
    if ¬ s.readable .lnc then missing
    else if ¬ s.readable .lc then draw 0 s.lnc.toNat
    else draw (s.lc.toNat + 1) s.lnc.toNat
  | .lc =>
    if ¬ s.readable .lc then missing
    else if ¬ s.readable .lnr then draw 0 s.lc.toNat
    else draw (s.lnr.toNat + 1) s.lc.toNat
  | .lnr =>
    if ¬ s.readable .lnr then missing
    else draw 0 s.lnr.toNat
  | .unc =>
    if ¬ s.readable .unc then missing
    else if ¬ s.readable .uc then draw s.unc.toNat s.maxValue
    else draw s.unc.toNat (s.uc.toNat - 1)
  | .uc =>
    if ¬ s.readable .uc then missing
    else if ¬ s.readable .unr then draw s.uc.toNat s.maxValue
    else draw s.uc.toNat (s.unr.toNat - 1)
  | .unr =>
    if ¬ s.readable .unr then missing
    else draw s.unr.toNat s.maxValue

/-- A sensor whose fault level was never set has no such attribute to read. -/
def getFaultValue (s : Sensor) (rng : Nat) : Except PyError (Option Int × List Str) :=
  match s.faultLevel with
  | none => .error .attributeError
  | some l => s.faultValueAt l rng

end Sensor

/-! ### Requests -/

/-- What `sensor mode set` accepts: a mode, and with `fault` a level. -/
inductive ModeRequest where
  | user
  | auto
  | fault (l : Level)
  deriving DecidableEq, Repr

def ModeRequest.mode : ModeRequest → Mode
  | .user => .user
  | .auto => .auto
  | .fault _ => .fault

/-- The fields an accepted request writes: the level first, then the mode. -/
def Sensor.acceptMode (s : Sensor) (r : ModeRequest) : Sensor :=
  match r with
  | .fault l => {s with faultLevel := some l, mode := .fault}
  | r => {s with mode := r.mode}

end Idic.IpmiSim
