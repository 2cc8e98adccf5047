import Idic.IpmiSim.Command
import Idic.IpmiSim.Sel
import Idic.IpmiSim.SensorInfo
import Idic.Python.Effects

/-! The commands of the prompt.

`handleCommand` is `Command_Handler.handle_command` from the text of a line on: the
line is cut into words, and the words go down the handlers, each of which looks at
one word or at all that are left. A sensor object is a name; the map leads to
names. What wakes a sensor's thread is in `Command.lean`: here a line is carried
out as if nothing else happened meanwhile. -/
namespace Idic.IpmiSim
open Python

/-! ### The handlers' state -/

/-- The sensor objects `σ`, with what the handlers share. -/
structure Sim (σ : Type) where
  obj : σ → Sensor
  sensorIdMap : List ((UInt8 × UInt8) × σ)
  commandHistory : List Str := []
  msgQueue : List Str := []
  sent : List SimCommand := []

abbrev Handler (σ α : Type) : Type := Effect (Sim σ) α

/-- What the interpreter decides: floating point, and the order of a dictionary. -/
structure Interpreter (σ : Type) where
  floats : Floats
  items : List ((UInt8 × UInt8) × σ) → List ((UInt8 × UInt8) × σ)
  items_perm : ∀ d, (items d).Perm d

section Actions
variable {σ : Type} [DecidableEq σ]

/-- `common.msg_queue.put`. -/
def putMsg (msg : Str) : Handler σ Unit :=
  .modify fun sim => {sim with msgQueue := sim.msgQueue ++ [msg]}

/-- `common.send_ipmi_sim_command`. -/
def sendCommand (c : SimCommand) : Handler σ Unit :=
  .modify fun sim => {sim with sent := sim.sent ++ [c]}

def objOf (i : σ) : Handler σ Sensor := .gets fun sim => sim.obj i

def updateObj (i : σ) (f : Sensor → Sensor) : Handler σ Unit :=
  .modify fun sim => {sim with obj := Function.update sim.obj i (f (sim.obj i))}

end Actions

/-! ### Texts -/

/-- The lines of a docstring, and the newline that is put behind it. -/
def docText (lines : List String) : Str := '\n' :: lines.flatMap fun line => line.toList ++ ['\n']

/-- What `handle_sensor_mode` says of itself, and below the other handlers. -/
def sensorModeDoc : Str := docText [
  "        Available 'sensor mode' commands:",
  "            sensor mode set <sensorID> <user|auto|fault> <lnr | lc | lnc | unc | uc | unr>",
  "            sensor mode get <sensorID>",
  "        "]

def sensorValueDoc : Str := docText [
  "        Available 'sensor value' commands:",
  "            set: set <sensor id> <value>",
  "                 set <sensor id> state <state id> 1|0",
  "            get: get <sensor id>",
  "        "]

def sensorCommandDoc : Str := docText [
  "        Available sensor commands:",
  "            info mode value",
  "        "]

def selCommandDoc : Str := docText [
  "        Available 'sel' commands:",
  "            set <sensorID> <event_id> <'assert'/'deassert'>",
  "            get <sensorID>",
  "",
  "            'record type 0x2'",
  "            set oem <record_Type> <generate_id_1> <generate_id_2> <sensor_type>",
  "                    <sensor_num> <event_type> <event_data_1> <event_data_2> <event_data_3>",
  "",
  "            'record type 0xC0 - 0xDF'",
  "            set oem <record_Type> <oem_byte1> <oem_byte2> <oem_byte3> <oem_byte4>",
  "                    <oem_byte5> <oem_byte6>",
  "",
  "            'record type 0xE0 - 0xFF'",
  "            set oem <record_Type> <oem_byte1> <oem_byte2> <oem_byte3> <oem_byte4>",
  "                    <oem_byte5> <oem_byte6> <oem_byte7> <oem_byte8> <oem_byte9>",
  "                    <oem_byte10> <oem_byte11> <oem_byte12> <oem_byte13>",
  "",
  "        "]

def helpDoc : Str := docText [
  "        Available commands:",
  "            sensor info",
  "            sensor mode set <sensorID> <user>",
  "            sensor mode set <sensorID> <auto>",
  "            sensor mode set <sensorID> <fault> <lnr | lc | lnc | unc | uc | unr>",
  "            sensor mode get <sensorID>",
  "            sensor value set <sensorID> <value>",
  "            sensor value get <sensorID>",
  "            sel set <sensorID> <event_id> <'assert'/'deassert'>",
  "            sel get <sensorID>",
  "            help",
  "            history",
  "            quit/exit",
  "        "]

def Mode.text : Mode → Str
  | .user => "user".toList
  | .auto => "auto".toList
  | .fault => "fault".toList

def Mode.ofText (text : Str) : Option Mode := [.user, .auto, .fault].find? fun m => m.text = text

def Level.ofText (text : Str) : Option Level :=
  [.lnr, .lc, .lnc, .unc, .uc, .unr].find? fun l => l.text = text

/-- The separators `[\s\,\;]` of a command line. -/
def isSeparator (c : Char) : Bool := isSpace c || c = ',' || c = ';'

/-! ### Sensors by number -/

/-- The object under `(sensor_id, mc)` in `sensor_id_map`. -/
def Sim.find {σ : Type} (sim : Sim σ) (sensorId mc : Int) : Option σ :=
  (sim.sensorIdMap.find? fun e => (e.1.1.toNat : Int) = sensorId ∧ (e.1.2.toNat : Int) = mc).map Prod.snd

section Handlers
variable {σ : Type} [DecidableEq σ]

/-- `get_sensor_instance`; no caller gives another `mc` than the default. -/
def getSensorInstance (strNum : Str) : Handler σ (Option σ) :=
  match intBase16 strNum with
  | .error _ => pure none
  | .ok sensorId => do
    match ← Effect.gets fun sim => sim.find sensorId 0x20 with
    | none => do
      putMsg ("sensor: ".toList ++ strNum ++ " not exist\n".toList)
      return none
    | some i => return some i

/-- The handlers return where there is no such sensor. -/
def withSensor (strNum : Str) (body : σ → Handler σ Unit) : Handler σ Unit := do
  match ← getSensorInstance strNum with
  | none => return ()
  | some i => body i

/-! ### Writes of a sensor -/

def setThresholdValue (i : σ) (value : Int) : Handler σ Unit := do
  let s ← objOf i
  Effect.lift (s.withType .threshold (.ok ()))
  updateObj i fun s => {s with value := .int value}
  sendCommand (.sensorSetValue s.mc s.lun s.ID value)

def setDiscreteValue (i : σ) (value : Str) : Handler σ Unit := do
  let s ← objOf i
  let l ← Effect.lift (s.setDiscreteValue value)
  updateObj i fun s => {s with value := .str l.value}
  Effect.each (fun bit => sendCommand (.sensorSetBit s.mc s.lun s.ID bit.1 bit.2)) l.bits

/-- `set_sel` of a sensor. -/
def setSensorSel (i : σ) (eventId : Int) (eventDir : Direction) : Handler σ Unit := do
  let s ← objOf i
  let o ← Effect.lift (s.setSel eventId eventDir)
  updateObj i fun s => {s with sel := o.sel}
  Effect.each putMsg o.messages
  Effect.each sendCommand o.sent

/-- `get_sel` of a sensor. -/
def getSensorSel (i : σ) : Handler σ Unit := do
  let s ← objOf i
  let o ← Effect.lift s.getSel
  Effect.each putMsg o.messages

variable (py : Interpreter σ)

/-! ### `sensor info` -/

def outputSensor (i : σ) : Handler σ Unit := do
  let s ← objOf i
  let info ← Effect.lift (s.outputInfo py.floats)
  putMsg (info ++ "\n".toList)

def outputSensors : List Str → Handler σ Unit
  | [] => return ()
  | strNum :: rest => withSensor strNum fun i => do
    outputSensor py i
    outputSensors rest

def dumpAllSensorInfo : Handler σ Unit := do
  let items ← Effect.gets fun sim => py.items sim.sensorIdMap
  Effect.each (fun item => outputSensor py item.2) items

def dumpSensorInfo (args : List Str) : Handler σ Unit := do
  if args = [] then dumpAllSensorInfo py
  outputSensors py args

/-! ### `sensor mode` -/

/-- The end of `set_sensor_mode`, from the read of the previous mode on. -/
def changeMode (i : σ) (mode : Mode) : Handler σ Unit := do
  updateObj i fun s => {s with mode := mode}
  let s ← objOf i
  putMsg ("Sensor ".toList ++ s.name ++ " changed to ".toList ++ mode.text ++ "\n".toList)

def setSensorMode : List Str → Handler σ Unit
  | strNum :: modeText :: rest => withSensor strNum fun i =>
    match Mode.ofText modeText with
    | none => putMsg sensorModeDoc
    | some .fault =>
      match rest.head?.bind Level.ofText with
      | none => putMsg sensorModeDoc
      | some l => do
        updateObj i fun s => {s with faultLevel := some l}
        changeMode i .fault
    | some mode => changeMode i mode
  | _ => putMsg sensorModeDoc

def getSensorMode : List Str → Handler σ Unit
  | [strNum] => withSensor strNum fun i => do
    let s ← objOf i
    putMsg ("Sensor ".toList ++ s.name ++ " mode: ".toList ++ s.mode.text ++ "\n".toList)
  | _ => putMsg sensorModeDoc

def handleSensorMode : List Str → Handler σ Unit
  | [] => putMsg sensorModeDoc
  | word :: args =>
    if word = "set".toList then setSensorMode args
    else if word = "get".toList then getSensorMode args
    else return ()

/-! ### `sensor value` -/

/-- The value part of `set_sensor_value`. The branch for four arguments is behind
the check for two. -/
def assignValue (i : σ) (text : Str) : Handler σ Unit := do
  let s ← objOf i
  match s.getEventType with
  | .threshold =>
    match py.floats.ofText text with
    | none => putMsg ("illegal sensor value: ".toList ++ text ++ "\n".toList)
    | some analogValue => do
      let formula ← Effect.lift s.getReadingFactor
      let rawValue ← Effect.lift (py.floats.rawValue formula analogValue)
      setThresholdValue i rawValue
  | .discrete =>
    match (ValueArg.mk text none).word with
    | none => putMsg sensorValueDoc
    | some rawValue => setDiscreteValue i rawValue
  | .NA => return ()

def setSensorValue : List Str → Handler σ Unit
  | [strNum, text] => withSensor strNum fun i => do
    let s ← objOf i
    if s.mode = .auto then updateObj i fun s => {s with mode := .user}
    assignValue py i text
  | _ => putMsg sensorValueDoc

def getSensorValue : List Str → Handler σ Unit
  | [strNum] => withSensor strNum fun i => do
    let s ← objOf i
    match s.getEventType with
    | .threshold => do
      let formula ← Effect.lift s.getReadingFactor
      let value ← Effect.lift (py.floats.reading formula s.value)
      putMsg (s.name ++ " : ".toList ++ value ++ " ".toList ++ s.getUnit ++ "\n".toList)
    | .discrete => putMsg (s.name ++ " : ".toList ++ s.value.text)
    | .NA => return ()
  | _ => putMsg sensorValueDoc

def handleSensorValue : List Str → Handler σ Unit
  | [] => putMsg sensorValueDoc
  | word :: args =>
    if word = "set".toList then setSensorValue py args
    else if word = "get".toList then getSensorValue py args
    else return ()

def handleSensorCommand : List Str → Handler σ Unit
  | [] => putMsg sensorCommandDoc
  | word :: args =>
    if word = "info".toList then dumpSensorInfo py args
    else if word = "mode".toList then handleSensorMode args
    else if word = "value".toList then handleSensorValue py args
    else return ()

/-! ### `sel` -/

/-- The classes of OEM records have no `set_sensor_type`, which is called on them
once their bytes have been read. -/
def setOemRecord (size : Nat) (args : List Str) : Handler σ Unit :=
  if args.length ≠ size then putMsg selCommandDoc
  else
    match args.tail.mapM intBase16 with
    | .error _ => return ()
    | .ok _ => .raise .attributeError

def setOemSel : List Str → Handler σ Unit
  | [] => .raise .indexError
  | recordText :: bytes =>
    match intBase16 recordText with
    | .error _ => return ()
    | .ok recordType =>
      if recordType = 0x02 then
        match bytes with
        | [_, _, _, _, _, _, _, _] =>
          match bytes.mapM intBase16 with
          | .ok [gid1, gid2, sensorType, sensorNum, eventType, data1, data2, data3] =>
            sendCommand (.selAdd {gid1, gid2, sensorType, sensorNum, eventType
                                  eventData1 := data1, eventData2 := data2, eventData3 := data3})
          | _ => return ()
        | _ => putMsg selCommandDoc
      else if 0xC0 ≤ recordType ∧ recordType ≤ 0xDF then setOemRecord 7 (recordText :: bytes)
      else if 0xE0 ≤ recordType ∧ recordType ≤ 0xFF then setOemRecord 14 (recordText :: bytes)
      else return ()

def setSel : List Str → Handler σ Unit
  | strNum :: idText :: action :: rest =>
    if lower strNum = "oem".toList then setOemSel (idText :: action :: rest)
    else withSensor strNum fun i =>
      match intBase10 idText with
      | .error _ => return ()
      | .ok eventId =>
        if action = "assert".toList then setSensorSel i eventId .assert
        else if action = "deassert".toList then setSensorSel i eventId .deassert
        else putMsg selCommandDoc
  | _ => putMsg selCommandDoc

def getSel : List Str → Handler σ Unit
  | [strNum] => withSensor strNum getSensorSel
  | _ => putMsg selCommandDoc

def handleSelCommand : List Str → Handler σ Unit
  | [] => putMsg selCommandDoc
  | word :: args =>
    if word = "set".toList then setSel args
    else if word = "get".toList then getSel args
    else return ()

/-! ### The line -/

def handleHelp : Handler σ Unit := putMsg helpDoc

/-- The first thirty lines that are kept. -/
def handleHistory : Handler σ Unit := do
  let history ← Effect.gets fun sim => sim.commandHistory
  Effect.each (fun (command, i) =>
    putMsg (decimal (i : Nat) ++ "  ".toList ++ command ++ "\n".toList)) (history.take 30).zipIdx

/-- A line that was carried out is kept, among the last thirty. -/
def keepCommand (cmd : Str) : Handler σ Unit :=
  .modify fun sim => {sim with commandHistory :=
    (if 30 ≤ sim.commandHistory.length then sim.commandHistory.tail else sim.commandHistory) ++ [cmd]}

/-- The words of a line. -/
def words (cmd : Str) : List Str := reSplit isSeparator (strip cmd)

def handleCommand (line : Str) : Handler σ Unit := do
  let cmd := strip line
  if cmd = [] then return ()
  else
    match words line with
    | [] => return ()
    | word :: args =>
      if word = "sensor".toList then do
        handleSensorCommand py args
        keepCommand cmd
      else if word = "sel".toList then do
        handleSelCommand args
        keepCommand cmd
      else if word = "help".toList then do
        handleHelp
        keepCommand cmd
      else if word = "history".toList then do
        handleHistory
        keepCommand cmd
      else putMsg "illegal command\n".toList

end Handlers

end Idic.IpmiSim
