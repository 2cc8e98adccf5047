import Idic.IpmiSim.Sensor

/-! What is shown of a sensor.

The conversion between raw and readable values is done in the interpreter's
floating point, which is left open here: `Floats` says what comes out of it.
Everything else that `output_info` puts into its line is written out. -/
namespace Idic.IpmiSim
open Python

/-- What the interpreter's floating point makes of the linear conversion. -/
structure Floats where
  Number : Type
  /-- `float(text)`, unless it raises -/
  ofText : Str → Option Number
  /-- `int(formula_2(x))` -/
  rawValue : Sensor.ReadingFactor → Number → Except PyError Int
  /-- `'%.3f' % formula_1(value)` -/
  reading : Sensor.ReadingFactor → Value → Except PyError Str

/-- `sensor_unit`. -/
def sensorUnit : List (Nat × String) :=
  [(0, "percent"), (1, "degrees C"), (2, "degrees F"), (3, "degrees K"), (4, "Volts"),
   (5, "Amps"), (6, "Watts"), (7, "Joules"), (8, "Coulombs"), (9, "VA"), (10, "Nits"),
   (11, "lumen"), (12, "lux"), (13, "Candela"), (14, "kPa"), (15, "PSI"), (16, "Newton"),
   (17, "CFM"), (18, "RPM"), (19, "Hz"), (20, "microsecond"), (21, "millisecond"), (22, "second"),
   (23, "minute"), (24, "hour"), (25, "day"), (26, "week"), (27, "mil"), (28, "inches"),
   (29, "feet"), (30, "cu in"), (31, "cu feet"), (32, "mm"), (33, "cm"), (34, "m"), (35, "cu cm"),
   (36, "cu m"), (37, "liters"), (38, "fluid ounce"), (39, "radians"), (40, "steradians"),
   (41, "revolutions"), (42, "cycles"), (43, "gravities"), (44, "ounce"), (45, "pound"),
   (46, "ft-lb"), (47, "oz-in"), (48, "gauss"), (49, "gilberts"), (50, "henry"),
   (51, "millihenry"), (52, "farad"), (53, "microfarad"), (54, "ohms"), (55, "siemens"),
   (56, "mole"), (57, "becquerel"), (58, "PPM (parts/million)"), (59, "reserved"),
   (60, "Decibels"), (61, "DbA"), (62, "DbC"), (63, "gray"), (64, "sievert"),
   (65, "color temp deg K"), (66, "bit"), (67, "kilobit"), (68, "megabit"), (69, "gigabit"),
   (70, "byte"), (71, "kilobyte"), (72, "megabyte"), (73, "gigabyte"), (74, "word (data)"),
   (75, "dword"), (76, "qword"), (77, "line (re. mem.  line)"), (78, "hit"), (79, "miss"),
   (80, "retry"), (81, "reset"), (82, "overrun / overflow"), (83, "underrun"), (84, "collision"),
   (85, "packets"), (86, "messages"), (87, "characters"), (88, "error"),
   (89, "correctable error"), (90, "uncorrectable error"), (91, "fatal error"), (92, "grams")]

/-- `"{0:<w}".format(s)`. -/
def ljust (w : Nat) (s : Str) : Str := s ++ List.replicate (w - s.length) ' '

/-- `str(value)`. -/
def Value.text : Value → Str
  | .none => "None".toList
  | .int n => decimal n
  | .str s => s

namespace Sensor

def getUnit (s : Sensor) : Str :=
  if s.getEventType = .threshold then
    match sensorUnit.lookup s.su2.toNat with
    | some unit => unit.toList
    | none => "unknown".toList
  else "discrete".toList

/-- A threshold as it is shown. -/
def thresholdInfo (fl : Floats) (s : Sensor) (l : Level) (byte : UInt8) : Except PyError Str :=
  if s.getEventType = .threshold ∧ s.readable l then do
    fl.reading (← s.getReadingFactor) (.int byte.toNat)
  else .ok "NA".toList

/-- The value as it is shown; for event type 0 the variable is never assigned. -/
def valueInfo (fl : Floats) (s : Sensor) : Except PyError Str :=
  match s.getEventType with
  | .threshold => do fl.reading (← s.getReadingFactor) s.value
  | .discrete => .ok s.value.text
  | .NA => .error .unboundLocalError

def outputInfo (fl : Floats) (s : Sensor) : Except PyError Str := do
  let value ← s.valueInfo fl
  let lnr ← s.thresholdInfo fl .lnr s.lnr
  let lc ← s.thresholdInfo fl .lc s.lc
  let lnc ← s.thresholdInfo fl .lnc s.lnc
  let unc ← s.thresholdInfo fl .unc s.unc
  let uc ← s.thresholdInfo fl .uc s.uc
  let unr ← s.thresholdInfo fl .unr s.unr
  return ("| ".toList).intercalate [ljust 20 s.name, ljust 10 (hex s.ID.toNat), ljust 10 value,
    ljust 20 s.getUnit, ljust 10 lnr, ljust 10 lc, ljust 10 lnc, ljust 10 unc, ljust 10 uc, unr]

end Sensor

end Idic.IpmiSim
