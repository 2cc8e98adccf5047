import Idic.Ipmi.Lancontrol
import Idic.Python.Decimal
import Idic.Shell.Lines

/-! The network interfaces of the virtual host.

`startcmd` takes the interfaces in the order `find` lists them. For the one with the
number `i` it allows the bridge `br<i>` to `qemu`, adds the interface to it, brings
it up and attaches a device of the virtual host to it. -/
namespace Idic.Ipmi.Startcmd
open Python Shell

/-! ### `network.function` -/

/-- The devices in `/sys/class/net` that are no bridges, the bridges, and which device
was added to which bridge. -/
structure Net where
  interfaces : List Str
  bridges : List Str
  ports : List (Str × Str)
  deriving DecidableEq, Repr

/-- In the order of the model. The one `find` gives may be another. -/
def networkInterfaceList (intPrefix : Str) (net : Net) : List Str :=
  if intPrefix = [] then [] else (net.interfaces ++ net.bridges).filter fun d => intPrefix.isPrefixOf d

/-- The function returns 1 where the bridge exists. -/
def checkBridge (brint : Str) (net : Net) : Bool := (networkInterfaceList "br".toList net).contains brint

def bindedIntefaceListOnBridge (br : Str) (net : Net) : List Str :=
  if br = [] then []
  else if !checkBridge br net then []
  else (net.ports.filter fun p => p.1 = br).map Prod.snd

/-- The function returns 1 where the interface is in the bridge. -/
def checkInterface (br intf : Str) (net : Net) : Bool :=
  if br = [] || intf = [] then false else (bindedIntefaceListOnBridge br net).contains intf

/-- It fails where there is a device of that name. -/
def brctlAddbr (br : Str) (net : Net) : Net :=
  if (net.interfaces ++ net.bridges).contains br then net else {net with bridges := net.bridges ++ [br]}

/-- It fails where the interface is in a bridge already, also in another one. -/
def brctlAddif (br intf : Str) (net : Net) : Net :=
  if net.bridges.contains br && net.interfaces.contains intf && !(net.ports.map Prod.snd).contains intf then
    {net with ports := net.ports ++ [(br, intf)]}
  else net

theorem brctlAddbr_of_new {br : Str} {net : Net} (h : br ∉ net.interfaces ++ net.bridges) :
    brctlAddbr br net = {net with bridges := net.bridges ++ [br]} :=
  if_neg fun hcontains => h (List.contains_iff_mem.mp hcontains)

theorem brctlAddif_of_mem (br : Str) {intf : Str} {net : Net} (h : intf ∈ net.ports.map Prod.snd) :
    brctlAddif br intf net = net := by
  rw [brctlAddif, List.contains_iff_mem.mpr h, Bool.not_true, Bool.and_false, if_neg Bool.false_ne_true]

theorem brctlAddif_of_free {br intf : Str} {net : Net} (hbr : br ∈ net.bridges) (hintf : intf ∈ net.interfaces)
    (h : intf ∉ net.ports.map Prod.snd) : brctlAddif br intf net = {net with ports := net.ports ++ [(br, intf)]} := by
  have hfree : (net.ports.map Prod.snd).contains intf = false :=
    Bool.eq_false_iff.mpr fun hcontains => h (List.contains_iff_mem.mp hcontains)
  rw [brctlAddif, List.contains_iff_mem.mpr hbr, List.contains_iff_mem.mpr hintf, hfree]
  rfl

def addIntfToBridge (br intf : Str) (net : Net) : Net :=
  if br = [] || intf = [] then net
  else
    let net := if checkBridge br net then net else brctlAddbr br net
    if checkInterface br intf net then net else brctlAddif br intf net

structure Host where
  net : Net
  /-- `/etc/qemu/bridge.conf` -/
  bridgeConf : Option Str
  /-- `/etc/network/interfaces` -/
  interfaces : Option Str
  /-- What `ifup` was run for. -/
  ups : List Str
  deriving DecidableEq, Repr

/-- `grep -qs "^auto $1"` -/
def hasAuto (br text : Str) : Bool := (lines '\n' text).any (Pattern.lit ("auto ".toList ++ br)).starts

def addStanza (br text : Str) : Str :=
  appendLast '\n' ("iface ".toList ++ br ++ " inet dhcp".toList) (appendLast '\n' ("auto ".toList ++ br) text)

def ifupInterface (br : Str) (host : Host) : Host :=
  if br = [] then host
  else match host.interfaces with
    | none => host
    | some text =>
      if hasAuto br text then host
      else {host with interfaces := some (addStanza br text), ups := host.ups ++ [br]}

/-! ### The loop of `startcmd` -/

/-- `br${nic_index}` -/
def bridgeName (nicIndex : Nat) : Str := "br".toList ++ digits 10 nicIndex

theorem bridgeName_ne_nil (i : Nat) : bridgeName i ≠ [] := List.cons_ne_nil _ _

theorem digits_injective {i j : Nat} (h : digits 10 i = digits 10 j) : i = j := by
  rw [← decimalNumber_digits i, h, decimalNumber_digits]

theorem bridgeName_injective {i j : Nat} (h : bridgeName i = bridgeName j) : i = j :=
  digits_injective (List.append_cancel_left h)

theorem prefix_bridgeName (i : Nat) : "br".toList <+: bridgeName i := List.prefix_append ..

/-- A line is added where no line has the name of the bridge in it. -/
def allowText (br text : Str) : Str :=
  if (lines '\n' text).any (Pattern.lit br).found then text else appendLine '\n' ("allow ".toList ++ br) text

/-- The file is created where it is missing. -/
def allowBridge (br : Str) (host : Host) : Host :=
  {host with bridgeConf := some (allowText br (host.bridgeConf.getD []))}

/-- What an interface adds to `NETWORK_OPTION`. -/
def networkText (nicIndex : Nat) (suffix : Str) : Str :=
  "-device e1000,netdev=net".toList ++ digits 10 nicIndex ++ ",mac=52:54:BE:EF:".toList ++ suffix ++
    " -netdev bridge,br=".toList ++ bridgeName nicIndex ++
    ",helper=/libexec/qemu-bridge-helper,id=net".toList ++ digits 10 nicIndex ++ " ".toList

/-- The variables of the loop. -/
structure Nics where
  host : Host
  nicIndex : Nat
  networkOption : Str
  deriving DecidableEq, Repr

section Loop
variable (suffix : Str → Str)

/-- One interface of the loop. `suffix` is the end of its hardware address. -/
def addNic (s : Nics) (n : Str) : Nics :=
  let br := bridgeName s.nicIndex
  let host := allowBridge br s.host
  let host := {host with net := addIntfToBridge br n host.net}
  { host := ifupInterface br host,
    nicIndex := s.nicIndex + 1,
    networkOption := s.networkOption ++ networkText s.nicIndex (suffix n) }

/-- The loop over the interfaces in the order they are listed in. -/
def addNics (host : Host) (networkIntfList : List Str) : Nics :=
  networkIntfList.foldl (addNic suffix) ⟨host, 0, []⟩

/-- What a run leaves. -/
def run (host : Host) (networkIntfList : List Str) : Host := (addNics suffix host networkIntfList).host

/-! ### The parts of a run -/

/-- The interfaces added one by one, from the number of the first. -/
def addAll : Nat → List Str → Net → Net
  | _, [], net => net
  | i, n :: rest, net => addAll (i + 1) rest (addIntfToBridge (bridgeName i) n net)

theorem ifupInterface_frame (br : Str) (host : Host) :
    (ifupInterface br host).net = host.net ∧ (ifupInterface br host).bridgeConf = host.bridgeConf := by
  unfold ifupInterface
  split
  · exact ⟨rfl, rfl⟩
  · split
    · exact ⟨rfl, rfl⟩
    · split <;> exact ⟨rfl, rfl⟩

theorem ifupInterface_interfaces (i : Nat) {host : Host} {text : Str} (h : host.interfaces = some text) :
    (ifupInterface (bridgeName i) host).interfaces =
      some (if hasAuto (bridgeName i) text then text else addStanza (bridgeName i) text) := by
  rw [ifupInterface, if_neg (bridgeName_ne_nil i), h]
  show Host.interfaces (if hasAuto _ _ then _ else _) = _
  split
  · exact h
  · rfl

theorem foldl_addNic_net (order : List Str) (s : Nics) :
    (order.foldl (addNic suffix) s).host.net = addAll s.nicIndex order s.host.net := by
  induction order generalizing s with
  | nil => rfl
  | cons n rest ih =>
    rw [List.foldl_cons, ih]
    show addAll (s.nicIndex + 1) rest (ifupInterface _ _).net = _
    rw [(ifupInterface_frame _ _).1]
    rfl

theorem foldl_addNic_networkOption (order : List Str) (s : Nics) :
    (order.foldl (addNic suffix) s).networkOption =
      s.networkOption ++ (order.zipIdx s.nicIndex).flatMap fun p => networkText p.2 (suffix p.1) := by
  induction order generalizing s with
  | nil => exact (List.append_nil _).symm
  | cons n rest ih =>
    rw [List.foldl_cons, ih, List.zipIdx_cons, List.flatMap_cons, ← List.append_assoc]
    rfl

/-- The virtual host gets a device for each interface, on the bridge of its number. -/
theorem addNics_networkOption (host : Host) (order : List Str) :
    (addNics suffix host order).networkOption = order.zipIdx.flatMap fun p => networkText p.2 (suffix p.1) :=
  foldl_addNic_networkOption suffix order ⟨host, 0, []⟩

theorem run_net (host : Host) (order : List Str) : (run suffix host order).net = addAll 0 order host.net :=
  foldl_addNic_net suffix order ⟨host, 0, []⟩

end Loop

end Idic.Ipmi.Startcmd
