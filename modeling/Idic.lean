import Idic.Python.Text
import Idic.IpmiSim.Sensor
import Idic.IpmiSim.Sdr
import Idic.IpmiSim.SdrRecords
import Idic.IpmiSim.SdrBytes
import Idic.IpmiSim.SdrSensors
import Idic.IpmiSim.Sel
import Idic.IpmiSim.SensorInfo
import Idic.IpmiSim.Ranges
import Idic.IpmiSim.Delivery
import Idic.Threads.Locks
import Idic.Threads.System
import Idic.IpmiSim.Command
import Idic.Python.Effects
import Idic.IpmiSim.CommandHandler
import Idic.IpmiSim.World
import Idic.IpmiSim.Ownership
import Idic.IpmiSim.Spot
import Idic.IpmiSim.CommandFrame
import Idic.IpmiSim.Addressing
import Idic.IpmiSim.Wakeup
import Idic.IpmiSim.Agreement
import Idic.IpmiSim.UserValue
import Idic.IpmiSim.ModeRequests
import Idic.IpmiSim.LostUpdate
import Idic.IpmiSim.Shape
import Idic.IpmiSim.RawBytes
import Idic.IpmiSim.OemSel
import Idic.IpmiSim.Coefficients
import Idic.Python.Double
import Idic.IpmiSim.Conversion
import Idic.IpmiSim.Crossing
import Idic.IpmiSim.ValueCommand
import Idic.IpmiSim.Paths
import Idic.Python.Decimal
import Idic.IpmiSim.RoundTrip
import Idic.IpmiSim.Display
import Idic.IpmiSim.Prompt
import Idic.IpmiSim.Separators
import Idic.IpmiSim.History
import Idic.IpmiSim.Sessions
import Idic.IpmiSim.Replies
import Idic.Ipmi.Chassiscontrol
import Idic.Shell.Patterns
import Idic.Shell.Sections
import Idic.Shell.Script
import Idic.Ipmi.Lancontrol
import Idic.Ipmi.Interfaces
import Idic.Ipmi.Validation
import Idic.Ipmi.SetScript
import Idic.Ipmi.NewStanza
import Idic.Ipmi.Disks
import Idic.Shell.Files
import Idic.Shell.Lines
import Idic.Shell.Entries
import Idic.Ipmi.Network
import Idic.Ipmi.Bridges
import Idic.Ipmi.BridgeConf
import Idic.Ipmi.InterfaceUpdate
import Idic.Ipmi.LastLine
import Idic.IpmiSim.Console
import Idic.Kconfig.CheckConf
import Idic.Kconfig.Rounds
import Idic.Kconfig.Enclosing
