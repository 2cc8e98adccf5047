import Idic.IpmiSim.SdrBytes
import Mathlib.Data.Int.Bitwise
import Mathlib.Tactic.IntervalCases

/-! The system event log of a sensor.

A sensor has one `SEL` object, which every request for its log goes through: two
checks on its type bytes, a lookup in one of two tables, and for `sel set` the
record that is sent to the BMC. `setSel_eq` says what becomes of a request on a
sensor whose object has been through others, and `selRequests_settled_iff` for
which sensors every request is answered or refused. -/
namespace Idic.IpmiSim
open Python

/-! ### Commands to the BMC -/

/-- The commands that are sent to the BMC's console. -/
inductive SimCommand where
  | sensorSetValue (mc lun num : UInt8) (value : Int)
  | sensorSetBit (mc lun num : UInt8) (stateId stateBit : Int)
  | selAdd (sel : SEL)
  deriving DecidableEq, Repr

def SimCommand.text (c : SimCommand) : Str :=
  let words : List Str := match c with
    | .sensorSetValue mc lun num value =>
      ["sensor_set_value".toList, hex mc.toNat, hex lun.toNat, hex num.toNat, hexLong value,
        "0x01".toList]
    | .sensorSetBit mc lun num stateId stateBit =>
      ["sensor_set_bit".toList, hex mc.toNat, hex lun.toNat, hex num.toNat, decimal stateId,
        decimal stateBit, "0x01".toList]
    | .selAdd sel =>
      "sel_add".toList :: [sel.mc, sel.recordType, sel.ts1, sel.ts2, sel.ts3, sel.ts4, sel.gid1,
        sel.gid2, sel.evmRev, sel.sensorType, sel.sensorNum, Int.lor (sel.eventDir <<< 7) sel.eventType,
        sel.eventData1, sel.eventData2, sel.eventData3].map hexLong
  unwords words ++ "\n".toList

/-! ### Events -/

/-- A sensor specific event: its three data bytes and its description. -/
structure SensorEvent where
  data1 : Int
  data2 : Int
  data3 : Int
  description : String
  deriving DecidableEq, Repr

/-- `events_map`: the events of a generic event type. -/
def eventsMap : List (Int × List (Int × String)) :=
  [(0x01, [
    (0x00, "Lower Non-critical - going low"),
    (0x01, "Lower Non-critical - going high"),
    (0x02, "Lower Critical - going low"),
    (0x03, "Lower Critical - going high"),
    (0x04, "Lower Non-recoverable - going low"),
    (0x05, "Lower Non-recoverable - going high"),
    (0x06, "Upper Non-critical - going low"),
    (0x07, "Upper Non-critical - going high"),
    (0x08, "Upper Critical - going low"),
    (0x09, "Upper Critical - going high"),
    (0x0A, "Upper Non-recoverable - going low"),
    (0x0B, "Upper Non-recoverable - going high")]),
   (0x02, [
    (0x00, "Transition to Idle"),
    (0x01, "Transition to Active"),
    (0x02, "Transition to Busy")]),
   (0x03, [
    (0x00, "State Deasserted"),
    (0x01, "State Asserted")]),
   (0x04, [
    (0x00, "Predictive Failure deasserted"),
    (0x01, "Predictive Failure asserted")]),
   (0x05, [
    (0x00, "Limit Not Exceeded"),
    (0x01, "Limit Exceeded")]),
   (0x06, [
    (0x00, "Performance Met"),
    (0x01, "Performance Lags")]),
   (0x07, [
    (0x00, "transition to OK"),
    (0x01, "transition to Non-Critical from OK"),
    (0x02, "transition to Critical from less severe"),
    (0x03, "transition to Non-recoverable from less severe"),
    (0x04, "transition to Non-Critical from more severe"),
    (0x05, "transition to Critical from Non-recoverable "),
    (0x06, "transition to Non-recoverable"),
    (0x07, "Monitor "),
    (0x08, "Informational")]),
   (0x08, [
    (0x00, "Device Removed / Device Absent "),
    (0x01, "Device Inserted / Device Present")]),
   (0x09, [
    (0x00, "Device Disabled"),
    (0x01, "Device Enabled ")]),
   (0x0A, [
    (0x00, "transition to Running"),
    (0x01, "transition to In Test"),
    (0x02, "transition to Power Off"),
    (0x03, "transition to On Line"),
    (0x04, "ransition to Off Line"),
    (0x05, "transition to Off Duty"),
    (0x06, "transition to Degraded"),
    (0x07, "transition to Power Save"),
    (0x08, "Install Error ")]),
   (0x0B, [
    (0x00, "Fully Redundant (formerly .Redundancy Regained.) "),
    (0x01, "Redundancy Lost Entered any non-redundant state"),
    (0x02, "Redundancy Degraded Redundancy still exists, but at a less than full level."),
    (0x03, "Non-redundant Entered from Redundancy Degraded or Fully Redundant"),
    (0x04, "Non-redundant Entered from Non-redundant:Insufficient Resources"),
    (0x05, "Non-redundant:Insufficient Resources Unit is non-redundant and has insufficient resources " ++
      "to maintain normal operation."),
    (0x06, "Redundancy Degraded from Fully Redundant Unit has lost some redundant resource(s) " ++
      "but is still in a redundant state"),
    (0x07, "Entered from Non-redundant:Sufficient Resources or Non-redundant:Insufficient Resources")]),
   (0x0C, [
    (0x00, "D0 Power State"),
    (0x01, "D1 Power State"),
    (0x02, "D2 Power State"),
    (0x03, "D3 Power State")])]

/-- `sensor_specific_event_map`: the events of a sensor type. -/
def sensorSpecificEventMap : List (Int × List (Int × SensorEvent)) :=
  [(0x05, [
    (0x00, ⟨0x0, 0x0, 0x0, "General Chassis Intrusion"⟩),
    (0x01, ⟨0x1, 0x0, 0x0, "Drive Bay intrusion"⟩),
    (0x02, ⟨0x2, 0x0, 0x0, "I/O Card area intrusion"⟩),
    (0x03, ⟨0x3, 0x0, 0x0, "Processor area intrusion"⟩),
    (0x04, ⟨0x4, 0x0, 0x0, "LAN Leash Lost (system is unplugged from LAN)"⟩),
    (0x05, ⟨0x5, 0x0, 0x0, "Unauthorized dock"⟩),
    (0x06, ⟨0x6, 0x0, 0x0, "FAN area intrusion (supports detection of hot plug fan tampering)"⟩)]),
   (0x06, [
    (0x00, ⟨0x0, 0x0, 0x0, "Secure Mode (Front Panel Lockout) Violation attempt"⟩),
    (0x01, ⟨0x1, 0x0, 0x0, "Pre-boot Password Violation - user password"⟩),
    (0x02, ⟨0x2, 0x0, 0x0, "Pre-boot Password Violation attempt - setup password"⟩),
    (0x03, ⟨0x3, 0x0, 0x0, "Pre-boot Password Violation - network boot password"⟩),
    (0x04, ⟨0x4, 0x0, 0x0, "Other pre-boot Password Violation"⟩),
    (0x05, ⟨0x5, 0x0, 0x0, "Out-of-band Access Password Violation "⟩)]),
   (0x07, [
    (0x00, ⟨0x0, 0x0, 0x0, "IERR"⟩),
    (0x01, ⟨0x1, 0x0, 0x0, "Thermal Trip"⟩),
    (0x02, ⟨0x2, 0x0, 0x0, "FRB1/BIST failure "⟩),
    (0x03, ⟨0x3, 0x0, 0x0, "FRB2/Hang in POST failure "⟩),
    (0x04, ⟨0x4, 0x0, 0x0, "FRB3/Processor Startup/Initialization failure (CPU didn.t start) "⟩),
    (0x05, ⟨0x5, 0x0, 0x0, "Configuration Error"⟩),
    (0x06, ⟨0x6, 0x0, 0x0, "SM BIOS Uncorrectable CPU-complex Error"⟩),
    (0x07, ⟨0x7, 0x0, 0x0, "Processor Presence detected "⟩),
    (0x08, ⟨0x8, 0x0, 0x0, "Processor disabled"⟩),
    (0x09, ⟨0x9, 0x0, 0x0, "Terminator Presence Detected"⟩),
    (0x0A, ⟨0xA, 0x0, 0x0, "Processor Automatically Throttled"⟩),
    (0x0B, ⟨0xB, 0x0, 0x0, "Machine Check Exception (Uncorrectable)"⟩),
    (0x0C, ⟨0xC, 0x0, 0x0, "Correctable Machine Check Error"⟩)]),
   (0x08, [
    (0x00, ⟨0x0, 0x0, 0x0, "Presence detected "⟩),
    (0x01, ⟨0x1, 0x0, 0x0, "Power Supply Failure detected "⟩),
    (0x02, ⟨0x2, 0x0, 0x0, "Predictive Failure"⟩),
    (0x03, ⟨0x3, 0x0, 0x0, "Power Supply input lost (AC/DC)"⟩),
    (0x04, ⟨0x4, 0x0, 0x0, "Power Supply input lost or out-of-range"⟩),
    (0x05, ⟨0x5, 0x0, 0x0, "Power Supply input out-of-range, but presen"⟩),
    (0x06, ⟨0x36, 0x0, 0x0, "Configuration error.Vendor mismatch, for power supplies that include this status"⟩),
    (0x07, ⟨0x36, 0x0, 0x1, "Revision mismatch, for power supplies that include this status."⟩),
    (0x08, ⟨0x36, 0x0, 0x2, "Processor missing"⟩),
    (0x09, ⟨0x36, 0x0, 0x3, "Power Supply rating mismatch"⟩),
    (0x0A, ⟨0x36, 0x0, 0x4, "Voltage rating mismatch"⟩)]),
   (0x09, [
    (0x00, ⟨0x0, 0x0, 0x0, "Power Off / Power Down "⟩),
    (0x01, ⟨0x1, 0x0, 0x0, "Power Cycle"⟩),
    (0x02, ⟨0x2, 0x0, 0x0, "240VA Power Down"⟩),
    (0x03, ⟨0x3, 0x0, 0x0, "Interlock Power Down"⟩),
    (0x04, ⟨0x4, 0x0, 0x0, "AC lost / Power input lost "⟩),
    (0x05, ⟨0x5, 0x0, 0x0, "Soft Power Control Failure"⟩),
    (0x06, ⟨0x6, 0x0, 0x0, "Power Unit Failure detected"⟩),
    (0x07, ⟨0x7, 0x0, 0x0, "Predictive Failure"⟩)]),
   (0x0C, [
    (0x00, ⟨0x0, 0x0, 0x0, "Correctable ECC / other correctable memory error"⟩),
    (0x01, ⟨0x1, 0x0, 0x0, "Uncorrectable ECC / other uncorrectable memory error "⟩),
    (0x02, ⟨0x2, 0x0, 0x0, "Parity"⟩),
    (0x03, ⟨0x3, 0x0, 0x0, "Memory Scrub Failed (stuck bit)"⟩),
    (0x04, ⟨0x4, 0x0, 0x0, "Memory Device Disabled"⟩),
    (0x05, ⟨0x5, 0x0, 0x0, "Correctable ECC / other correctable memory error logging limit reached"⟩),
    (0x06, ⟨0x6, 0x0, 0x0, "Presence detected. Indicates presence of entity associated with the sensor"⟩),
    (0x07, ⟨0x7, 0x0, 0x0, "Configuration error. Indicates a memory configuration error " ++
      "for the entity associated with the sensor"⟩),
    (0x08, ⟨0x8, 0x0, 0x0, "Spare. Indicates entity associated with the sensor represents a spare unit of memory"⟩),
    (0x09, ⟨0x9, 0x0, 0x0, "Memory Automatically Throttled"⟩),
    (0x0A, ⟨0xA, 0x0, 0x0, "Critical Overtemperature"⟩)]),
   (0x0D, [
    (0x00, ⟨0x0, 0x0, 0x0, "Drive Presence"⟩),
    (0x01, ⟨0x1, 0x0, 0x0, "Drive Fault"⟩),
    (0x02, ⟨0x2, 0x0, 0x0, "Predictive Failure"⟩),
    (0x03, ⟨0x3, 0x0, 0x0, "Hot Spare"⟩),
    (0x04, ⟨0x4, 0x0, 0x0, "Consistency Check / Parity Check in progress"⟩),
    (0x05, ⟨0x5, 0x0, 0x0, "In Critical Array"⟩),
    (0x06, ⟨0x6, 0x0, 0x0, "In Failed Array "⟩),
    (0x07, ⟨0x7, 0x0, 0x0, "Rebuild/Remap in progress"⟩),
    (0x08, ⟨0x8, 0x0, 0x0, "Rebuild/Remap Aborted (was not completed normally)"⟩)]),
   (0x0F, [
    (0x00, ⟨0x0, 0x0, 0x0, "System Firmware Error (POST Error) "⟩),
    (0x01, ⟨0x1, 0x0, 0x0, "System Firmware Hang"⟩),
    (0x02, ⟨0x2, 0x0, 0x0, "System Firmware Progress"⟩)]),
   (0x10, [
    (0x00, ⟨0x0, 0x0, 0x0, "Correctable Memory Error Logging Disabled "⟩),
    (0x01, ⟨0x1, 0x0, 0x0, "Event Type Logging Disabled"⟩),
    (0x02, ⟨0x2, 0x0, 0x0, "Log Area Reset/Cleared"⟩),
    (0x03, ⟨0x3, 0x0, 0x0, "All Event Logging Disabled"⟩),
    (0x04, ⟨0x4, 0x0, 0x0, "SEL Full"⟩),
    (0x05, ⟨0x5, 0x0, 0x0, "SEL Almost Full"⟩),
    (0x06, ⟨0x6, 0x0, 0x0, "Correctable Machine Check Error Logging Disabled"⟩)]),
   (0x11, [
    (0x00, ⟨0x0, 0x0, 0x0, "BIOS Watchdog Reset "⟩),
    (0x01, ⟨0x1, 0x0, 0x0, "OS Watchdog Reset "⟩),
    (0x02, ⟨0x2, 0x0, 0x0, "OS Watchdog Shut Down"⟩),
    (0x03, ⟨0x3, 0x0, 0x0, "OS Watchdog Power Down"⟩),
    (0x04, ⟨0x4, 0x0, 0x0, "OS Watchdog Power Cycle"⟩),
    (0x05, ⟨0x5, 0x0, 0x0, "OS Watchdog NMI / Diagnostic Interrupt"⟩),
    (0x06, ⟨0x6, 0x0, 0x0, "OS Watchdog Expired, status only"⟩),
    (0x07, ⟨0x7, 0x0, 0x0, "OS Watchdog pre-timeout Interrupt, non-NMI"⟩)]),
   (0x12, [
    (0x00, ⟨0x0, 0x0, 0x0, "System Reconfigured "⟩),
    (0x01, ⟨0x1, 0x0, 0x0, "OEM System Boot Event "⟩),
    (0x02, ⟨0x2, 0x0, 0x0, "Undetermined system hardware failure"⟩),
    (0x03, ⟨0x3, 0x0, 0x0, "Entry added to Auxiliary Log"⟩),
    (0x04, ⟨0x4, 0x0, 0x0, "PEF Action"⟩),
    (0x05, ⟨0x5, 0x0, 0x0, "Timestamp Clock Synch."⟩)]),
   (0x13, [
    (0x00, ⟨0x0, 0x0, 0x0, "Front Panel NMI / Diagnostic Interrupt "⟩),
    (0x01, ⟨0x1, 0x0, 0x0, "Bus Timeout "⟩),
    (0x02, ⟨0x2, 0x0, 0x0, "I/O channel check NMI "⟩),
    (0x03, ⟨0x3, 0x0, 0x0, "Software NMI "⟩),
    (0x04, ⟨0x4, 0x0, 0x0, "PCI PERR"⟩),
    (0x05, ⟨0x5, 0x0, 0x0, "PCI SERR"⟩),
    (0x06, ⟨0x6, 0x0, 0x0, "EISA Fail Safe Timeout"⟩),
    (0x07, ⟨0x7, 0x0, 0x0, "Bus Correctable Error"⟩),
    (0x08, ⟨0x8, 0x0, 0x0, "Bus Uncorrectable Error "⟩),
    (0x09, ⟨0x9, 0x0, 0x0, "Fatal NMI (port 61h, bit 7)"⟩),
    (0x0A, ⟨0xA, 0x0, 0x0, "Bus Fatal Error"⟩),
    (0x0B, ⟨0xB, 0x0, 0x0, "Bus Degraded (bus operating in a degraded performance state)"⟩)]),
   (0x14, [
    (0x00, ⟨0x0, 0x0, 0x0, "Power Button pressed"⟩),
    (0x01, ⟨0x1, 0x0, 0x0, "Sleep Button pressed"⟩),
    (0x02, ⟨0x2, 0x0, 0x0, "Reset Button pressed"⟩),
    (0x03, ⟨0x3, 0x0, 0x0, "FRU latch open"⟩),
    (0x04, ⟨0x4, 0x0, 0x0, "FRU service request button "⟩)]),
   (0x19, [
    (0x00, ⟨0x0, 0x0, 0x0, "Soft Power Control Failure "⟩),
    (0x01, ⟨0x1, 0x0, 0x0, "Thermal Trip"⟩)]),
   (0x1B, [
    (0x00, ⟨0x0, 0x0, 0x0, "Cable/Interconnect is connected"⟩),
    (0x01, ⟨0x1, 0x0, 0x0, "Configuration Error - Incorrect cable connected / Incorrect interconnection"⟩)]),
   (0x1D, [
    (0x00, ⟨0x0, 0x0, 0x0, "Initiated by power up"⟩),
    (0x01, ⟨0x1, 0x0, 0x0, "Initiated by hard reset"⟩),
    (0x02, ⟨0x2, 0x0, 0x0, "Initiated by warm reset"⟩),
    (0x03, ⟨0x3, 0x0, 0x0, "User requested PXE boot"⟩),
    (0x04, ⟨0x4, 0x0, 0x0, "Automatic boot to diagnostic"⟩),
    (0x05, ⟨0x5, 0x0, 0x0, "OS / run-time software initiated hard reset"⟩),
    (0x06, ⟨0x6, 0x0, 0x0, "OS / run-time software initiated warm reset "⟩),
    (0x07, ⟨0x7, 0x0, 0x0, "System Restart"⟩)]),
   (0x1E, [
    (0x00, ⟨0x0, 0x0, 0x0, "No bootable media"⟩),
    (0x01, ⟨0x1, 0x0, 0x0, "Non-bootable diskette left in drive "⟩),
    (0x02, ⟨0x2, 0x0, 0x0, "PXE Server not found"⟩),
    (0x03, ⟨0x3, 0x0, 0x0, "Invalid boot sector"⟩),
    (0x04, ⟨0x4, 0x0, 0x0, "Timeout waiting for user selection of boot source"⟩)]),
   (0x1F, [
    (0x00, ⟨0x0, 0x0, 0x0, "A: boot completed"⟩),
    (0x01, ⟨0x1, 0x0, 0x0, "C: boot completed"⟩),
    (0x02, ⟨0x2, 0x0, 0x0, "PXE boot completed"⟩),
    (0x03, ⟨0x3, 0x0, 0x0, "Diagnostic boot completed"⟩),
    (0x04, ⟨0x4, 0x0, 0x0, "CD-ROM boot completed "⟩),
    (0x05, ⟨0x5, 0x0, 0x0, "ROM boot completed"⟩),
    (0x06, ⟨0x6, 0x0, 0x0, "boot completed - boot device not specified "⟩)]),
   (0x20, [
    (0x00, ⟨0x0, 0x0, 0x0, "Critical sStop during OS load / initialization"⟩),
    (0x01, ⟨0x1, 0x0, 0x0, "Run-time Critical Stop"⟩),
    (0x02, ⟨0x2, 0x0, 0x0, "OS Graceful Stop "⟩),
    (0x03, ⟨0x3, 0x0, 0x0, "OS Graceful Shutdown"⟩),
    (0x04, ⟨0x4, 0x0, 0x0, "Soft Shutdown initiated by PEF"⟩)]),
   (0x21, [
    (0x00, ⟨0x0, 0x0, 0x0, "Fault Status asserted"⟩),
    (0x01, ⟨0x1, 0x0, 0x0, "Identify Status asserted"⟩),
    (0x02, ⟨0x2, 0x0, 0x0, "Slot / Connector Device installed/attached"⟩),
    (0x03, ⟨0x3, 0x0, 0x0, "Slot / Connector Ready for Device Installation"⟩),
    (0x04, ⟨0x4, 0x0, 0x0, "Slot/Connector Ready for Device Removal"⟩),
    (0x05, ⟨0x5, 0x0, 0x0, "Slot Power is Off"⟩),
    (0x06, ⟨0x6, 0x0, 0x0, "Slot / Connector Device Removal Request"⟩),
    (0x07, ⟨0x7, 0x0, 0x0, "Interlock asserted"⟩),
    (0x08, ⟨0x8, 0x0, 0x0, "Slot is Disabled"⟩),
    (0x09, ⟨0x9, 0x0, 0x0, "Slot holds spare device"⟩)]),
   (0x22, [
    (0x00, ⟨0x0, 0x0, 0x0, "S0 / G0 working"⟩),
    (0x01, ⟨0x1, 0x0, 0x0, "S1 sleeping with system h/w & processor context maintained"⟩),
    (0x02, ⟨0x2, 0x0, 0x0, "S2 sleeping, processor context lost"⟩),
    (0x03, ⟨0x3, 0x0, 0x0, "S3 sleeping, processor & h/w context lost, memory retained."⟩),
    (0x04, ⟨0x4, 0x0, 0x0, "S4 non-volatile sleep / suspend-to disk"⟩),
    (0x05, ⟨0x5, 0x0, 0x0, "S5 / G2 soft-off"⟩),
    (0x06, ⟨0x6, 0x0, 0x0, "S4 / S5 soft-off, particular S4 / S5 state cannot be determined"⟩),
    (0x07, ⟨0x7, 0x0, 0x0, "G3 / Mechanical Off"⟩),
    (0x08, ⟨0x8, 0x0, 0x0, "Sleeping in an S1, S2, or S3 states"⟩),
    (0x09, ⟨0x9, 0x0, 0x0, "G1 sleeping (S1-S4 state cannot be determined)"⟩),
    (0x0A, ⟨0xA, 0x0, 0x0, "S5 entered by override"⟩),
    (0x0B, ⟨0xB, 0x0, 0x0, "Legacy ON state"⟩),
    (0x0C, ⟨0xC, 0x0, 0x0, "Legacy OFF state"⟩),
    (0x0D, ⟨0xD, 0x0, 0x0, "Unknown"⟩)]),
   (0x23, [
    (0x00, ⟨0x0, 0x0, 0x0, "Timer expired, status only"⟩),
    (0x01, ⟨0x1, 0x0, 0x0, "Hard Reset"⟩),
    (0x02, ⟨0x2, 0x0, 0x0, "Power Down"⟩),
    (0x03, ⟨0x3, 0x0, 0x0, "Power Cycle"⟩),
    (0x04, ⟨0x5, 0x0, 0x0, "Timer interrupt"⟩)]),
   (0x24, [
    (0x00, ⟨0x0, 0x0, 0x0, "platform generated page"⟩),
    (0x01, ⟨0x1, 0x0, 0x0, "platform generated LAN alert "⟩),
    (0x02, ⟨0x2, 0x0, 0x0, "Platform Event Trap generated, formatted per IPMI PET"⟩),
    (0x03, ⟨0x3, 0x0, 0x0, "platform generated SNMP trap, OEM format"⟩)]),
   (0x25, [
    (0x00, ⟨0x0, 0x0, 0x0, "Entity Present"⟩),
    (0x01, ⟨0x1, 0x0, 0x0, "Entity Absent"⟩),
    (0x02, ⟨0x2, 0x0, 0x0, "Entity Disabled"⟩)]),
   (0x27, [
    (0x00, ⟨0x0, 0x0, 0x0, "LAN Heartbeat Lost "⟩),
    (0x01, ⟨0x1, 0x0, 0x0, "LAN Heartbeat"⟩)]),
   (0x28, [
    (0x00, ⟨0x0, 0x0, 0x0, "sensor access degraded or unavailable"⟩),
    (0x01, ⟨0x1, 0x0, 0x0, "controller access degraded or unavailable"⟩),
    (0x02, ⟨0x2, 0x0, 0x0, "management controller off-line"⟩),
    (0x03, ⟨0x3, 0x0, 0x0, "management controller unavailable"⟩),
    (0x04, ⟨0x5, 0x0, 0x0, "FRU failure"⟩)]),
   (0x29, [
    (0x00, ⟨0x0, 0x0, 0x0, "battery low (predictive failure)"⟩),
    (0x01, ⟨0x1, 0x0, 0x0, "battery failed"⟩),
    (0x02, ⟨0x2, 0x0, 0x0, "battery presence detected"⟩)]),
   (0x2A, [
    (0x00, ⟨0x0, 0x0, 0x0, "Session Activated"⟩),
    (0x01, ⟨0x1, 0x0, 0x0, "Session Deactivated"⟩),
    (0x02, ⟨0x2, 0x0, 0x0, "Invalid Username or Password "⟩),
    (0x03, ⟨0x3, 0x0, 0x0, "Invalid password disable A users access has been disabled " ++
      "due to a series of bad password attempts"⟩)]),
   (0x2B, [
    (0x00, ⟨0x0, 0x0, 0x0, "Hardware change detected with associated Entity"⟩),
    (0x01, ⟨0x1, 0x0, 0x0, "Firmware or software change detected with associated Entity"⟩),
    (0x02, ⟨0x2, 0x0, 0x0, "Hardware incompatibility detected with associated Entity"⟩),
    (0x03, ⟨0x3, 0x0, 0x0, "Firmware or software incompatibility detected with associated Entity"⟩),
    (0x04, ⟨0x4, 0x0, 0x0, "Entity is of an invalid or unsupported hardware version"⟩),
    (0x05, ⟨0x5, 0x0, 0x0, "Entity contains an invalid or unsupported firmware or software version."⟩),
    (0x06, ⟨0x6, 0x0, 0x0, "Hardware Change detected with associated Entity was successful"⟩),
    (0x07, ⟨0x7, 0x0, 0x0, "Software or F/W Change detected with associated Entity was successful"⟩)]),
   (0x2C, [
    (0x00, ⟨0x0, 0x0, 0x0, "FRU Not Installed"⟩),
    (0x01, ⟨0x1, 0x0, 0x0, "FRU Inactive (in standby or hot spare state)"⟩),
    (0x02, ⟨0x2, 0x0, 0x0, "FRU Activation Requested"⟩),
    (0x03, ⟨0x3, 0x0, 0x0, "FRU Activation In Progress"⟩),
    (0x04, ⟨0x4, 0x0, 0x0, "FRU Active"⟩),
    (0x05, ⟨0x5, 0x0, 0x0, "FRU Deactivation Requested"⟩),
    (0x06, ⟨0x6, 0x0, 0x0, "FRU Deactivation In Progress"⟩),
    (0x07, ⟨0x7, 0x0, 0x0, "FRU Communication Lost"⟩)])]

/-! ### The SEL object -/

namespace SEL

/-- `check_event_type`: what it complains of when it returns False. -/
def checkEventType (sel : SEL) : Option Str :=
  if sel.eventType = 0x6F then none
  else if 0x1 ≤ sel.eventType ∧ sel.eventType ≤ 0x0C then none
  else some ("sensor num: ".toList ++ hexLong sel.sensorNum ++ "\n".toList ++ "event type ".toList ++
    hexLong sel.eventType ++
    " not in the sensor events.                    perhaps OEM defined".toList)

/-- `check_sensor_type`, in the same way. -/
def checkSensorType (sel : SEL) : Option Str :=
  if 0x1 ≤ sel.sensorType ∧ sel.sensorType ≤ 0x2C then none
  else some ("sensor num: ".toList ++ hexLong sel.sensorNum ++ "\n".toList ++ "sensor type ".toList ++
    hexLong sel.sensorType ++
    " not exist in the stardard                     system\n".toList)

/-- A line of the list of supported events. -/
def eventLine (eventId : Int) (description : String) : Str :=
  "\tID: ".toList ++ decimal eventId ++ "\t".toList ++ description.toList ++ "\n".toList

/-- `get_event`: the messages it puts. -/
def getEvent (sel : SEL) : Except PyError (List Str) :=
  if 0x1 ≤ sel.eventType ∧ sel.eventType ≤ 0x0C then do
    let events ← item eventsMap sel.eventType
    return events.map fun (eventId, description) => eventLine eventId description
  else if sel.eventType = 0x6F then do
    let events ← item sensorSpecificEventMap sel.sensorType
    return events.map fun (eventId, event) => eventLine eventId event.description
  else
    .ok ["sensor num: ".toList ++ hexLong sel.sensorNum ++ " event type ".toList ++
      hexLong sel.eventType ++ " not exist\n".toList]

/-- The message for an event that is not in the table of its `kind`. -/
def noEvent (sel : SEL) (kind : Str) (eventId : Int) : Str :=
  "event id ".toList ++ decimal eventId ++ " not in the sensor ".toList ++ kind ++ "\n".toList ++
    "sensor num: ".toList ++ hexLong sel.sensorNum ++ " sensor type: ".toList ++
    hexLong sel.sensorType ++ " event type: ".toList ++ hexLong sel.eventType ++ "\n".toList

/-- `set_event_data`: the object with the event's data, or the message of a refusal. -/
def setEventData (sel : SEL) (eventId : Int) : Except PyError (SEL ⊕ Str) :=
  if 0x1 ≤ sel.eventType ∧ sel.eventType ≤ 0x0C then do
    let events ← item eventsMap sel.eventType
    match events.lookup eventId with
    | none => return .inr (sel.noEvent "event".toList eventId)
    | some _ => return .inl {sel with eventData1 := eventId, eventData2 := 0, eventData3 := 0}
  else if sel.eventType = 0x6F then do
    let events ← item sensorSpecificEventMap sel.sensorType
    match events.lookup eventId with
    | none => return .inr (sel.noEvent "specific event".toList eventId)
    | some event => return .inl {sel with
        eventData1 := event.data1, eventData2 := event.data2, eventData3 := event.data3}
  else
    .ok (.inr ("event type ".toList ++ decimal sel.eventType ++ " not exist\n".toList ++
      "sensor num: ".toList ++ decimal sel.sensorNum ++ "\n".toList))

/-- Types that pass both checks. -/
def Standard (sel : SEL) : Prop :=
  (sel.eventType = 0x6F ∨ 0x1 ≤ sel.eventType ∧ sel.eventType ≤ 0x0C) ∧
    0x1 ≤ sel.sensorType ∧ sel.sensorType ≤ 0x2C

instance (sel : SEL) : Decidable sel.Standard :=
  inferInstanceAs (Decidable ((_ ∨ _ ∧ _) ∧ _ ∧ _))

/-- The two checks in front of every request. -/
def check (sel : SEL) : Option Str := sel.checkEventType.or sel.checkSensorType

theorem check_eq_none (sel : SEL) : sel.check = none ↔ sel.Standard := by
  have hevent : sel.checkEventType = none ↔
      sel.eventType = 0x6F ∨ 0x1 ≤ sel.eventType ∧ sel.eventType ≤ 0x0C := by
    unfold checkEventType
    split
    · next h => simp [h]
    · next h => split <;> simp_all
  have hsensor : sel.checkSensorType = none ↔ 0x1 ≤ sel.sensorType ∧ sel.sensorType ≤ 0x2C := by
    unfold checkSensorType
    split <;> simp_all
  rw [check, Option.or_eq_none_iff, hevent, hsensor, Standard]

end SEL

/-! ### Requests -/

inductive Direction where
  | assert
  | deassert
  deriving DecidableEq, Repr

def Direction.bit : Direction → Int
  | .assert => 0
  | .deassert => 1

/-- What a request leaves behind: the object, the commands sent and the messages put. -/
structure SelOutcome where
  sel : SEL
  sent : List SimCommand
  messages : List Str
  deriving DecidableEq, Repr

namespace Sensor

def getSel (s : Sensor) : Except PyError SelOutcome :=
  match s.sel.check with
  | some complaint => .ok ⟨s.sel, [], [complaint]⟩
  | none => do
    let messages ← s.sel.getEvent
    return ⟨s.sel, [], messages⟩

def setSel (s : Sensor) (eventId : Int) (eventDir : Direction) : Except PyError SelOutcome :=
  match s.sel.check with
  | some complaint => .ok ⟨s.sel, [], [complaint]⟩
  | none => do
    match ← s.sel.setEventData eventId with
    | .inr complaint => return ⟨s.sel, [], [complaint]⟩
    | .inl sel =>
      let sel := {sel with eventDir := eventDir.bit}
      return ⟨sel, [.selAdd sel], []⟩

end Sensor

inductive SelRequest where
  | get
  | set (eventId : Int) (eventDir : Direction)
  deriving DecidableEq, Repr

def SelRequest.perform (r : SelRequest) (s : Sensor) : Except PyError SelOutcome :=
  match r with
  | .get => s.getSel
  | .set eventId eventDir => s.setSel eventId eventDir

/-- The sensor after requests, one after another; one that raises has done nothing. -/
def Sensor.afterSel (s : Sensor) : List SelRequest → Sensor
  | [] => s
  | r :: rest =>
    match r.perform s with
    | .ok o => ({s with sel := o.sel}).afterSel rest
    | .error _ => s.afterSel rest

/-! ### What a record says of its events -/

/-- What a sensor's SDR record has to do with its events. -/
structure SdrIdentity where
  mc : UInt8
  lun : UInt8
  sensorType : UInt8
  number : UInt8
  eventType : UInt8
  deriving DecidableEq, Repr

def Sensor.identity (s : Sensor) : SdrIdentity := ⟨s.mc, s.lun, s.tp, s.ID, s.eventType⟩

namespace SdrIdentity
variable (d : SdrIdentity)

/-- The object as `initialize_sel` leaves it. -/
def sel : SEL where
  mc := d.mc.toNat
  gid1 := d.mc.toNat
  gid2 := d.lun.toNat
  sensorType := d.sensorType.toNat
  sensorNum := d.number.toNat
  eventType := d.eventType.toNat

/-- The three data bytes of an event, if the tables have it for the record's types. -/
def eventData (eventId : Int) : Option (Int × Int × Int) :=
  if d.sel.eventType = 0x6F then
    ((sensorSpecificEventMap.lookup d.sel.sensorType).bind fun events => events.lookup eventId).map
      fun event => (event.data1, event.data2, event.data3)
  else
    ((eventsMap.lookup d.sel.eventType).bind fun events => events.lookup eventId).map
      fun _ => (eventId, 0, 0)

/-- The record of an event, if there is one. -/
def record (eventId : Int) (eventDir : Direction) : Option SEL :=
  if d.sel.Standard then
    (d.eventData eventId).map fun (data1, data2, data3) => {d.sel with
      eventDir := eventDir.bit, eventData1 := data1, eventData2 := data2, eventData3 := data3}
  else none

/-- A sensor type whose own events are asked for is in the table of them. -/
def Tabled : Prop :=
  d.sel.Standard → d.sel.eventType = 0x6F → (sensorSpecificEventMap.lookup d.sel.sensorType).isSome

instance : Decidable d.Tabled := inferInstanceAs (Decidable (_ → _ → _))

end SdrIdentity

/-- What is to become of a request on a sensor with the identity `d`: it does not
raise, and a `sel set` sends the one record that its event has, or is refused. -/
def SelRequest.Settled (d : SdrIdentity) (before : SEL) (r : SelRequest) :
    Except PyError SelOutcome → Prop
  | .error _ => False
  | .ok o =>
    match r with
    | .get => o.sel = before ∧ o.sent = []
    | .set eventId eventDir =>
      match d.record eventId eventDir with
      | some sel => o.sent = [.selAdd sel]
      | none => o.sel = before ∧ o.sent = [] ∧ o.messages ≠ []

/-! ### One request -/

/-- The object without the fields that requests write. -/
def SEL.unset (sel : SEL) : SEL :=
  {sel with eventDir := 0, eventData1 := 0, eventData2 := 0, eventData3 := 0}

theorem SEL.eq_of_unset {sel sel' : SEL} (h : sel.unset = sel') (dir data1 data2 data3 : Int) :
    {sel with eventDir := dir, eventData1 := data1, eventData2 := data2, eventData3 := data3} =
      {sel' with eventDir := dir, eventData1 := data1, eventData2 := data2, eventData3 := data3} := by
  subst h
  rfl

/-- Every generic event type has its events. -/
theorem eventsMap_isSome (eventType : Int) (h : 0x1 ≤ eventType ∧ eventType ≤ 0x0C) :
    (eventsMap.lookup eventType).isSome := by
  obtain ⟨hlow, hhigh⟩ := h
  interval_cases eventType <;> rfl

theorem item_of_isSome {ν : Type} {d : List (Int × ν)} {k : Int} (h : (d.lookup k).isSome) :
    ∃ v, d.lookup k = some v ∧ item d k = .ok v := by
  obtain ⟨v, hv⟩ := Option.isSome_iff_exists.mp h
  exact ⟨v, hv, by rw [item, hv]⟩

namespace SEL
variable {sel : SEL} {d : SdrIdentity}

theorem unset_eventType (h : sel.unset = d.sel) : sel.eventType = d.sel.eventType := by
  rw [← h]
  rfl

theorem unset_sensorType (h : sel.unset = d.sel) : sel.sensorType = d.sel.sensorType := by
  rw [← h]
  rfl

theorem unset_standard (h : sel.unset = d.sel) : sel.Standard ↔ d.sel.Standard := by
  rw [Standard, Standard, unset_eventType h, unset_sensorType h]

theorem getEvent_ok (h : sel.unset = d.sel) (hs : d.sel.Standard) (ht : d.Tabled) :
    ∃ messages, sel.getEvent = .ok messages := by
  rw [getEvent, unset_eventType h, unset_sensorType h]
  split
  · next hgeneric =>
    obtain ⟨events, -, hevents⟩ := item_of_isSome (eventsMap_isSome _ hgeneric)
    exact ⟨_, by rw [hevents]; rfl⟩
  · next hgeneric =>
    have hspecific := hs.1.resolve_right hgeneric
    obtain ⟨events, -, hevents⟩ := item_of_isSome (ht hs hspecific)
    exact ⟨_, by rw [if_pos hspecific, hevents]; rfl⟩

/-- With its types in the tables, an event's data are found or it is refused. -/
theorem setEventData_ok (h : sel.unset = d.sel) (hs : d.sel.Standard) (ht : d.Tabled) (eventId : Int) :
    ∃ complaint, sel.setEventData eventId = .ok (match d.eventData eventId with
      | some (data1, data2, data3) =>
        .inl {sel with eventData1 := data1, eventData2 := data2, eventData3 := data3}
      | none => .inr complaint) := by
  rw [setEventData, unset_eventType h, unset_sensorType h, SdrIdentity.eventData]
  split
  · next hgeneric =>
    obtain ⟨events, hlookup, hevents⟩ := item_of_isSome (eventsMap_isSome _ hgeneric)
    rw [if_neg (by omega), hevents, hlookup]
    cases hevent : events.lookup eventId with
    | none => exact ⟨_, by simp only [ok_bind, hevent, Option.bind_some, Option.map_none]; rfl⟩
    | some event => exact ⟨[], by simp only [ok_bind, hevent, Option.bind_some, Option.map_some]; rfl⟩
  · next hgeneric =>
    have hspecific := hs.1.resolve_right hgeneric
    obtain ⟨events, hlookup, hevents⟩ := item_of_isSome (ht hs hspecific)
    rw [if_pos hspecific, if_pos hspecific, hevents, hlookup]
    cases hevent : events.lookup eventId with
    | none => exact ⟨_, by simp only [ok_bind, hevent, Option.bind_some, Option.map_none]; rfl⟩
    | some event => exact ⟨[], by simp only [ok_bind, hevent, Option.bind_some, Option.map_some]; rfl⟩

end SEL

/-- What an accepted event writes are the event fields. -/
theorem SEL.setEventData_unset (sel : SEL) (eventId : Int) :
    Ensures (sel.setEventData eventId) fun r => ∀ sel' ∈ r.getLeft?, sel'.unset = sel.unset := by
  unfold setEventData
  split
  · refine Ensures.bind _ fun events => ?_
    split <;> exact Ensures.pure (by simp [unset])
  · split
    · refine Ensures.bind _ fun events => ?_
      split <;> exact Ensures.pure (by simp [unset])
    · exact Ensures.pure (by simp)

theorem SelRequest.perform_unset (r : SelRequest) (s : Sensor) :
    Ensures (r.perform s) fun o => o.sel.unset = s.sel.unset := by
  cases r with
  | get =>
    simp only [perform, Sensor.getSel]
    split
    · exact Ensures.pure rfl
    · exact Ensures.bind _ fun messages => Ensures.pure rfl
  | set eventId eventDir =>
    simp only [perform, Sensor.setSel]
    split
    · exact Ensures.pure rfl
    · refine Ensures.bindWith (s.sel.setEventData_unset eventId) fun r hr => ?_
      cases r with
      | inr complaint => exact Ensures.pure rfl
      | inl sel => exact Ensures.pure (hr sel rfl)

/-- What a request sends is the record it leaves in the object. -/
theorem SelRequest.perform_sent (r : SelRequest) (s : Sensor) :
    Ensures (r.perform s) fun o => ∀ c ∈ o.sent, c = .selAdd o.sel := by
  cases r with
  | get =>
    simp only [perform, Sensor.getSel]
    split
    · exact Ensures.pure (by simp)
    · exact Ensures.bind _ fun messages => Ensures.pure (by simp)
  | set eventId eventDir =>
    simp only [perform, Sensor.setSel]
    split
    · exact Ensures.pure (by simp)
    · refine Ensures.bind _ fun r => ?_
      cases r <;> exact Ensures.pure (by simp)

theorem Sensor.getSel_settled {s : Sensor} (h : s.sel.unset = s.identity.sel) (ht : s.identity.Tabled) :
    SelRequest.get.Settled s.identity s.sel s.getSel := by
  unfold getSel
  cases hcheck : s.sel.check with
  | some complaint => exact ⟨rfl, rfl⟩
  | none =>
    have hs := (SEL.unset_standard h).mp (s.sel.check_eq_none.mp hcheck)
    obtain ⟨messages, hmessages⟩ := SEL.getEvent_ok h hs ht
    rw [hmessages]
    exact ⟨rfl, rfl⟩

theorem Sensor.setSel_settled {s : Sensor} (h : s.sel.unset = s.identity.sel) (ht : s.identity.Tabled)
    (eventId : Int) (eventDir : Direction) :
    (SelRequest.set eventId eventDir).Settled s.identity s.sel (s.setSel eventId eventDir) := by
  unfold setSel
  cases hcheck : s.sel.check with
  | some complaint =>
    have hs : ¬ s.identity.sel.Standard := by
      rw [← SEL.unset_standard h, ← SEL.check_eq_none, hcheck]
      exact nofun
    simp only [SelRequest.Settled, SdrIdentity.record, if_neg hs]
    exact ⟨trivial, trivial, List.cons_ne_nil _ _⟩
  | none =>
    have hs := (SEL.unset_standard h).mp (s.sel.check_eq_none.mp hcheck)
    obtain ⟨complaint, hdata⟩ := SEL.setEventData_ok h hs ht eventId
    simp only [hdata, ok_bind]
    cases hevent : s.identity.eventData eventId with
    | none =>
      simp only [SelRequest.Settled, SdrIdentity.record, if_pos hs, hevent, Option.map_none]
      exact ⟨rfl, rfl, List.cons_ne_nil _ _⟩
    | some data =>
      simp only [SelRequest.Settled, SdrIdentity.record, if_pos hs, hevent, Option.map_some]
      exact congrArg (fun sel => [SimCommand.selAdd sel]) (SEL.eq_of_unset h ..)

theorem SelRequest.settled {s : Sensor} (h : s.sel.unset = s.identity.sel) (ht : s.identity.Tabled)
    (r : SelRequest) : r.Settled s.identity s.sel (r.perform s) := by
  cases r with
  | get => exact s.getSel_settled h ht
  | set eventId eventDir => exact s.setSel_settled h ht eventId eventDir

/-- Asking for events that are in no table raises. -/
theorem Sensor.getSel_raises {s : Sensor} (h : s.sel.unset = s.identity.sel) (ht : ¬ s.identity.Tabled) :
    s.getSel = .error .keyError := by
  simp only [SdrIdentity.Tabled, Classical.not_imp, Bool.not_eq_true, Option.isSome_eq_false_iff,
    Option.isNone_iff_eq_none] at ht
  obtain ⟨hs, hspecific, hmissing⟩ := ht
  have hcheck : s.sel.check = none := s.sel.check_eq_none.mpr ((SEL.unset_standard h).mpr hs)
  rw [getSel, hcheck, SEL.getEvent, SEL.unset_eventType h, SEL.unset_sensorType h,
    if_neg (by omega), if_pos hspecific, item, hmissing]
  rfl

/-! ### Requests one after another -/

theorem Sensor.afterSel_unset (history : List SelRequest) (s : Sensor) (h : s.sel.unset = s.identity.sel) :
    (s.afterSel history).sel.unset = s.identity.sel ∧ (s.afterSel history).identity = s.identity := by
  induction history generalizing s with
  | nil => exact ⟨h, rfl⟩
  | cons r rest ih =>
    rw [afterSel]
    cases hr : r.perform s with
    | error e => exact ih s h
    | ok o => exact ih {s with sel := o.sel} ((r.perform_unset s o hr).trans h)

namespace Sdr

/-- The SEL object of a new sensor has what its record says. -/
theorem parseSdrs_sel (ipmitool : Ipmitool) (sdrBin : Option (List UInt8)) :
    Ensures (parseSdrs ipmitool sdrBin) fun st => ∀ s ∈ st.sensorList, s.sel = s.identity.sel := by
  cases sdrBin with
  | none => exact nofun
  | some file =>
    refine parseLoop_ensures ipmitool file (fun st hst st' hst' => ?_) {} (fun _ h => nomatch h)
    cases parseRecord_eq_ok.mp hst' with
    | skip => exact hst
    | sensor =>
      intro s hs
      rcases List.mem_append.mp hs with hs | hs
      · exact hst s hs
      · rw [List.mem_singleton.mp hs]
        rfl

end Sdr

/-- **When SEL requests are settled.** For a sensor of any accepted dump: after any
history of requests every request is answered, sends the record of its event, or
is refused, exactly when a sensor type that is asked for its own events is in the
table of them. -/
theorem selRequests_settled_iff (ipmitool : Sdr.Ipmitool) (sdrBin : Option (List UInt8))
    (st : Sdr.State) (s : Sensor) (hst : Sdr.parseSdrs ipmitool sdrBin = .ok st)
    (hs : s ∈ st.sensorList) :
    (∀ history (r : SelRequest),
      r.Settled s.identity (s.afterSel history).sel (r.perform (s.afterSel history))) ↔
    s.identity.Tabled := by
  have hsel : s.sel.unset = s.identity.sel := by
    rw [Sdr.parseSdrs_sel ipmitool sdrBin st hst s hs]
    rfl
  constructor
  · intro hall
    by_contra ht
    have hget := hall [] .get
    simp only [Sensor.afterSel, SelRequest.perform, s.getSel_raises hsel ht] at hget
    exact hget
  · intro ht history r
    obtain ⟨hunset, hidentity⟩ := s.afterSel_unset history hsel
    rw [← hidentity] at hunset ht ⊢
    exact r.settled hunset ht

namespace Sdr

/-- A compact record of a temperature sensor with the sensor specific event type. -/
def temperatureRecord : Record where
  idLo := 1
  idHi := 0
  version := 0x51
  type := 0x2
  body := [0x20, 0, 0x31, 0, 0, 0, 0, 0x01, 0x6f] ++ List.replicate 18 0 ++ [0x41]
  body_lt := by decide
  full := by decide
  compact := by decide

def temperatureSensor : Sensor := temperatureRecord.sensor (.str "0x0080".toList)

def temperatureState : State where
  offset := 33
  requests := 1
  sensorList := [temperatureSensor]
  sensorIdMap := [((0x31, 0x20), 0)]

theorem temperatureRecord_parsed :
    parseSdrs constantTool (some (dump [temperatureRecord])) = .ok temperatureState := by
  decide +kernel

end Sdr

open Sdr in
theorem selRequests_settled_iff_temperatureSensor :
    (∀ history (r : SelRequest), r.Settled temperatureSensor.identity
      (temperatureSensor.afterSel history).sel (r.perform (temperatureSensor.afterSel history))) ↔
    temperatureSensor.identity.Tabled :=
  selRequests_settled_iff constantTool (some (dump [temperatureRecord])) temperatureState
    temperatureSensor temperatureRecord_parsed (List.mem_singleton.mpr rfl)

open Sdr in
/-- The table of sensor specific events has no entry for temperature sensors. -/
theorem temperatureSensor_selRaises :
    parseSdrs constantTool (some (dump [temperatureRecord])) = .ok temperatureState ∧
      temperatureState.sensorList = [temperatureSensor] ∧
      temperatureSensor.setSel 0 .assert = .error .keyError ∧
      temperatureSensor.getSel = .error .keyError :=
  ⟨temperatureRecord_parsed, rfl, by decide +kernel, by decide +kernel⟩

end Idic.IpmiSim
