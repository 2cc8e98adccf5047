import Idic.Ipmi.Validation
import Idic.Shell.Script

/-! The `set` operation of `lancontrol`, command by command.

The operation writes files in `/tmp`, moves the live file and takes the interface
down and up again. `doSet_exits` is about every exit of it, and `doInterfaces_refines`
says that where it does not exit it leaves what `Lancontrol.doInterfaces` computes. -/
namespace Idic.Ipmi.Lancontrol.SetScript
open Python Shell Script

/-- The files in `/tmp`. -/
inductive TmpFile where
  | ipmi_ifaces_stanza
  | ipmi_interfaces_unchanged
  | ipmi_old_stanza
  | ipmi_old_stanza_src
  | ipmi_old_stanza_dst (number : Nat)
  | impi_new_interfaces
  deriving DecidableEq, Repr

inductive Command where
  | ifdown (device : Str)
  | ifup (device : Str)
  deriving DecidableEq, Repr

/-- What is in `/etc/network`, and the commands that were run on the interface. -/
structure Live where
  network : Bool
  interfaces : Option File
  interfacesOld : Option File
  commands : List Command
  deriving DecidableEq, Repr

structure Machine where
  live : Live
  tmp : TmpFile → Content Char

/-- A command whose output goes to a file in `/tmp`. -/
def write (f : TmpFile) (content : (TmpFile → Content Char) → Content Char) : Script Machine Unit :=
  .update fun m => {m with tmp := Function.update m.tmp f (content m.tmp)}

/-- A line at the end of the new stanza. -/
def append (line : Line) : Script Machine Unit :=
  write .ipmi_ifaces_stanza fun tmp => (tmp .ipmi_ifaces_stanza).append line

/-- A line for a parameter that may be set. -/
def appendIfSet (val : Option Str) (line : Str → Line) : Script Machine Unit :=
  match val with
  | some val => append (line val)
  | none => pure ()

/-- A line for a parameter that has to be set. -/
def appendOrExit (val : Option Str) (line : Str → Line) (text : Str) : Script Machine Unit :=
  match val with
  | some val => append (line val)
  | none => exit text

section Operation
variable (device : Str) (split : Content Char → Content Char × Content Char) (v : Assigned)

/-- The line that starts a stanza of the script's own. -/
def ifaceText (src : Str) : Line := "iface ".toList ++ device ++ " inet ".toList ++ src

def doCreateStanza : Script Machine Unit :=
  match v .ip_addr_src with
  | none => exit "ip_addr_src required for new interface stanza - fail".toList
  | some src =>
    if src = "dhcp".toList then do
      write .ipmi_ifaces_stanza fun _ => .ofLines [ifaceText device "dhcp".toList]
      appendIfSet (v .mac_addr) fun val => "\thwaddress ".toList ++ val
      append "\t".toList
    else if src = "static".toList then do
      write .ipmi_ifaces_stanza fun _ => .ofLines [ifaceText device "static".toList]
      appendOrExit (v .ip_addr) (fun val => "\taddress ".toList ++ val)
        "static configuration requires ip_addr - fail".toList
      appendOrExit (v .subnet_mask) (fun val => "\tnetmask ".toList ++ val)
        "static configuration requires subnet_mask - fail".toList
      appendIfSet (v .default_gw_ip_addr) fun val => "\tgateway ".toList ++ val
      appendIfSet (v .mac_addr) fun val => "\thwaddress ether ".toList ++ val
      append "  ".toList
    else pure ()

/-- `split` is what the two `sed` commands print. What they take the device's name for
may be any pattern, also one that they reject. -/
def doSplitInterfaces (file : File) : Script Machine Unit := do
  write .ipmi_interfaces_unchanged fun _ => (split file.content).1
  write .ipmi_old_stanza fun _ => (split file.content).2

/-- `sed '/^[ \t]*name/d'` from one file to the other. -/
def dropOption (name : Str) (number : Nat) : Script Machine Unit :=
  write (.ipmi_old_stanza_dst number) fun tmp =>
    (tmp .ipmi_old_stanza_src).filter fun l => !(optionLine name).starts l

/-- `cp` back. -/
def copyBack (number : Nat) : Script Machine Unit :=
  write .ipmi_old_stanza_src fun tmp => tmp (.ipmi_old_stanza_dst number)

/-- The first line of the stanza, where the old one has its own. -/
def startStanza : Script Machine Unit :=
  match v .ip_addr_src with
  | some src => do
    dropOption "iface".toList 1
    write .ipmi_ifaces_stanza fun _ => .ofLines [ifaceText device src]
    copyBack 1
  | none => do
    write .ipmi_ifaces_stanza fun tmp => (tmp .ipmi_old_stanza_src).first
    dropOption "iface".toList 1
    copyBack 1

def setOption (number : Nat) (o : OptionOf) : Script Machine Unit :=
  match v o.parm with
  | some val => do
    dropOption o.name number
    append ("\t".toList ++ o.name ++ o.before ++ val)
    copyBack number
  | none => pure ()

def doModifyStanza : Script Machine Unit := do
  let old ← gets fun m => m.tmp .ipmi_old_stanza
  if old.isEmpty then doCreateStanza device v
  else do
    write .ipmi_old_stanza_src fun tmp => tmp .ipmi_old_stanza
    startStanza device v
    setOption v 2 ⟨.ip_addr, "address".toList, " ".toList⟩
    setOption v 3 ⟨.subnet_mask, "netmask".toList, " ".toList⟩
    setOption v 4 ⟨.default_gw_ip_addr, "gateway".toList, " ".toList⟩
    setOption v 5 ⟨.mac_addr, "hwaddress".toList, " ether ".toList⟩
    write .ipmi_ifaces_stanza fun tmp => (tmp .ipmi_ifaces_stanza).cat (tmp .ipmi_old_stanza_src)

/-- `mv /etc/network/interfaces /etc/network/interfaces.old` -/
def moveInterfaces : Script Machine Unit :=
  .update fun m => {m with live := {m.live with interfaces := none, interfacesOld := m.live.interfaces}}

/-- `cp` of a file in `/tmp` to `/etc/network/interfaces`. -/
def copyInterfaces (new : TmpFile) : Script Machine Unit :=
  .update fun m => {m with live := {m.live with interfaces := some ⟨m.tmp new, true⟩}}

def doInterfaces : Script Machine Unit := do
  let live ← gets Machine.live
  if live.network then
    match live.interfaces with
    | some file =>
      if file.writable then do
        doSplitInterfaces split file
        doModifyStanza device v
        write .impi_new_interfaces fun tmp => (tmp .ipmi_interfaces_unchanged).cat (tmp .ipmi_ifaces_stanza)
        moveInterfaces
        copyInterfaces .impi_new_interfaces
      else exit "/etc/network/interfaces exists and is not writable -fail".toList
    | none => do
      doCreateStanza device v
      copyInterfaces .ipmi_ifaces_stanza
  else exit "No /etc/network directory found - failing".toList

def runCommand (c : Command) : Script Machine Unit :=
  .update fun m => {m with live := {m.live with commands := m.live.commands ++ [c]}}

/-- `lancontrol <device> set <args>`. -/
def doSet (args : List Str) : Script Machine Unit :=
  match validateSet args with
  | .error text => exit text
  | .ok v => do
    doInterfaces device split v
    runCommand (.ifdown device)
    runCommand (.ifup device)

end Operation

/-! ### Exits -/

section Exits
variable {device : Str} {split : Content Char → Content Char × Content Char} {v : Assigned}

theorem write_keeps (f : TmpFile) (content : (TmpFile → Content Char) → Content Char) :
    Keeps Machine.live (write f content) := .update fun _ => rfl

theorem appendIfSet_keeps (val : Option Str) (line : Str → Line) :
    Keeps Machine.live (appendIfSet val line) := by
  cases val with
  | some val => exact write_keeps _ _
  | none => exact .pure ()

theorem appendOrExit_keeps (val : Option Str) (line : Str → Line) (text : Str) :
    Keeps Machine.live (appendOrExit val line text) := by
  cases val with
  | some val => exact write_keeps _ _
  | none => exact .exit text

theorem doCreateStanza_keeps : Keeps Machine.live (doCreateStanza device v) := by
  unfold doCreateStanza
  split
  · exact .exit _
  · refine .ite ?_ (.ite ?_ (.pure ()))
    · exact (write_keeps _ _).bind fun _ => (appendIfSet_keeps _ _).bind fun _ => write_keeps _ _
    · exact (write_keeps _ _).bind fun _ => (appendOrExit_keeps _ _ _).bind fun _ =>
        (appendOrExit_keeps _ _ _).bind fun _ => (appendIfSet_keeps _ _).bind fun _ =>
        (appendIfSet_keeps _ _).bind fun _ => write_keeps _ _

theorem startStanza_keeps : Keeps Machine.live (startStanza device v) := by
  unfold startStanza
  split
  · exact (write_keeps _ _).bind fun _ => (write_keeps _ _).bind fun _ => write_keeps _ _
  · exact (write_keeps _ _).bind fun _ => (write_keeps _ _).bind fun _ => write_keeps _ _

theorem setOption_keeps (number : Nat) (o : OptionOf) : Keeps Machine.live (setOption v number o) := by
  unfold setOption
  split
  · exact (write_keeps _ _).bind fun _ => (write_keeps _ _).bind fun _ => write_keeps _ _
  · exact .pure ()

theorem doModifyStanza_keeps : Keeps Machine.live (doModifyStanza device v) := by
  refine Keeps.bind (.gets _) fun old => .ite doCreateStanza_keeps ?_
  exact (write_keeps _ _).bind fun _ => startStanza_keeps.bind fun _ => (setOption_keeps _ _).bind fun _ =>
    (setOption_keeps _ _).bind fun _ => (setOption_keeps _ _).bind fun _ => (setOption_keeps _ _).bind fun _ =>
    write_keeps _ _

/-- The live file is moved behind the last exit. -/
theorem doInterfaces_exitsBefore : ExitsBefore Machine.live (doInterfaces device split v) := by
  refine ExitsBefore.bind (.gets _) fun live => ?_
  split
  · split
    · split
      · refine ExitsBefore.bind ((write_keeps _ _).bind fun _ => write_keeps _ _) fun _ => ?_
        refine ExitsBefore.bind doModifyStanza_keeps fun _ => ExitsBefore.bind (write_keeps _ _) fun _ => ?_
        exact (Returns.bind (.update _) fun _ => .update _).exitsBefore
      · exact Keeps.exitsBefore (.exit _)
    · exact ExitsBefore.bind doCreateStanza_keeps fun _ => Returns.exitsBefore (.update _)
  · exact Keeps.exitsBefore (.exit _)

/-- **A set that exits leaves the network alone**: whatever the arguments and the files,
nothing in `/etc/network` has changed and no command was run on the interface. -/
theorem doSet_exits (device : Str) (split : Content Char → Content Char × Content Char) (args : List Str)
    (m : Machine) (text : Str) (h : ((doSet device split args).runFrom m).1 = .error text) :
    ((doSet device split args).runFrom m).2.live = m.live := by
  have hexits : ExitsBefore Machine.live (doSet device split args) := by
    unfold doSet
    split
    · exact Keeps.exitsBefore (.exit _)
    · exact doInterfaces_exitsBefore.bind_returns fun _ => Returns.bind (.update _) fun _ => .update _
  exact hexits m text h

/-- A host without a stanza of `eth0`, and files of an earlier run. -/
def loopbackOnly : Machine :=
  ⟨⟨true, some ⟨.ofLines ["auto lo".toList, "iface lo inet loopback".toList], true⟩, none, []⟩,
    fun _ => .ofLines ["stale".toList]⟩

/-- It exits behind the files that it has written in `/tmp`. -/
theorem noMask_exits :
    let args := ["ip_addr_src".toList, "static".toList, "ip_addr".toList, "10.0.0.1".toList]
    let after := (doSet "eth0".toList (fun file => (file, .ofLines [])) args).runFrom loopbackOnly
    after.1 = .error "static configuration requires subnet_mask - fail".toList ∧
    after.2.tmp .ipmi_ifaces_stanza =
      .ofLines ["iface eth0 inet static".toList, "\taddress 10.0.0.1".toList] ∧
    after.2.live = loopbackOnly.live := by
  have hexit : ((doSet "eth0".toList (fun file => (file, .ofLines []))
      ["ip_addr_src".toList, "static".toList, "ip_addr".toList, "10.0.0.1".toList]).runFrom loopbackOnly).1 =
      .error "static configuration requires subnet_mask - fail".toList := by
    decide +kernel
  exact ⟨hexit, by decide +kernel, doSet_exits _ _ _ _ _ hexit⟩

end Exits

/-! ### The files that are left -/

def Machine.host (m : Machine) : Host :=
  ⟨m.live.network, m.live.interfaces, m.live.interfacesOld, m.tmp .ipmi_ifaces_stanza⟩

/-- The host that a script leaves, if it does not exit. -/
def hostAfter (script : Script Machine Unit) (m : Machine) : Except Str Host :=
  (script.runFrom m).1.map fun _ => (script.runFrom m).2.host

section Files
variable (device : Device) (v : Vars)

theorem ifaceText_eq (src : Str) : ifaceText device.text src = Lancontrol.ifaceText device src := rfl

theorem texts_eq (p : Parm) : v.texts p = if (v p).need then some (v p).value.text else none := by
  rw [Vars.texts, Vars.given]
  split <;> rfl

theorem toList_texts (p : Parm) (line : Str → Line) :
    ((v.texts p).map line).toList = if (v p).need then [line (v p).value.text] else [] := by
  rw [texts_eq]
  split <;> rfl

theorem write_bind {α : Type} (f : TmpFile) (content : (TmpFile → Content Char) → Content Char)
    (k : Unit → Script Machine α) (m : Machine) :
    (write f content >>= k).runFrom m =
      (k ()).runFrom {m with tmp := Function.update m.tmp f (content m.tmp)} := rfl

/-- The machine with another new stanza. -/
def Machine.withStanza (m : Machine) (stanza : Content Char) : Machine :=
  {m with tmp := Function.update m.tmp .ipmi_ifaces_stanza stanza}

theorem withStanza_self (m : Machine) : m.withStanza (m.tmp .ipmi_ifaces_stanza) = m := by
  rw [Machine.withStanza, Function.update_eq_self]

theorem write_withStanza_bind {α : Type} (stanza : Content Char) (k : Unit → Script Machine α) (m : Machine) :
    (write .ipmi_ifaces_stanza (fun _ => stanza) >>= k).runFrom m = (k ()).runFrom (m.withStanza stanza) := rfl

theorem append_run (line : Line) (m : Machine) (lines : List Line) :
    (append line).runFrom (m.withStanza (.ofLines lines)) = (.ok (), m.withStanza (.ofLines (lines ++ [line]))) := by
  show (Except.ok (), (_ : Machine)) = _
  simp [Machine.withStanza, Content.append, Content.ofLines]

theorem appendIfSet_run (val : Option Str) (line : Str → Line) (m : Machine) (lines : List Line) :
    (appendIfSet val line).runFrom (m.withStanza (.ofLines lines)) =
      (.ok (), m.withStanza (.ofLines (lines ++ (val.map line).toList))) := by
  cases val with
  | some val => exact append_run _ m lines
  | none =>
    rw [Option.map_none, Option.toList_none, List.append_nil]
    rfl

theorem doCreateStanza_run (m : Machine) : ∃ stanza,
    (doCreateStanza device.text v.texts).runFrom m =
      ((Lancontrol.doCreateStanza device v (m.tmp .ipmi_ifaces_stanza)).map fun _ => (), m.withStanza stanza) ∧
    ∀ st, Lancontrol.doCreateStanza device v (m.tmp .ipmi_ifaces_stanza) = .ok st → stanza = st := by
  rw [doCreateStanza, Lancontrol.doCreateStanza, texts_eq]
  cases hsource : (v .ip_addr_src).need with
  | false => exact ⟨_, by rw [withStanza_self]; rfl, nofun⟩
  | true =>
    simp only [Bool.not_true, Bool.false_eq_true, if_false, if_true]
    by_cases hdhcp : (v .ip_addr_src).value.text = "dhcp".toList
    · rw [if_pos hdhcp, if_pos hdhcp, write_withStanza_bind]
      refine ⟨_, ?_, fun _ h => Except.ok.inj h⟩
      simp only [runFrom_bind, appendIfSet_run, append_run, toList_texts]
      rfl
    · rw [if_neg hdhcp, if_neg hdhcp]
      by_cases hstatic : (v .ip_addr_src).value.text = "static".toList
      · rw [if_pos hstatic, if_pos hstatic, write_withStanza_bind, texts_eq, texts_eq]
        cases hip : (v .ip_addr).need with
        | false => exact ⟨_, rfl, nofun⟩
        | true =>
          cases hmask : (v .subnet_mask).need with
          | false =>
            refine ⟨.ofLines [Lancontrol.ifaceText device "static".toList,
              "\taddress ".toList ++ (v .ip_addr).value.text], ?_, nofun⟩
            simp only [if_true, runFrom_bind, appendOrExit, append_run]
            rfl
          | true =>
            refine ⟨_, ?_, fun _ h => Except.ok.inj h⟩
            simp only [if_true, runFrom_bind, appendOrExit, append_run, appendIfSet_run, toList_texts]
            rfl
      · rw [if_neg hstatic, if_neg hstatic]
        exact ⟨_, by rw [withStanza_self]; rfl, fun _ h => Except.ok.inj h⟩

/-- The files that an option is set in. -/
def Machine.stanzaFiles (m : Machine) : Content Char × Content Char :=
  (m.tmp .ipmi_old_stanza_src, m.tmp .ipmi_ifaces_stanza)

/-- What is left alone meanwhile. -/
def Machine.rest (m : Machine) : Live × Content Char := (m.live, m.tmp .ipmi_interfaces_unchanged)

theorem setOption_run (number : Nat) (o : OptionOf) (m : Machine) : ∃ m',
    (setOption v.texts number o).runFrom m = (.ok (), m') ∧ m'.rest = m.rest ∧
    m'.stanzaFiles = Lancontrol.setOption v m.stanzaFiles o := by
  rw [setOption, Lancontrol.setOption, texts_eq]
  cases (v o.parm).need with
  | false => exact ⟨m, rfl, rfl, rfl⟩
  | true =>
    refine ⟨_, rfl, rfl, ?_⟩
    simp [Machine.stanzaFiles, OptionOf.line]

theorem startStanza_run (m : Machine) : ∃ m',
    (startStanza device.text v.texts).runFrom m = (.ok (), m') ∧ m'.rest = m.rest ∧
    m'.stanzaFiles = ((m.tmp .ipmi_old_stanza_src).filter fun l => !(optionLine "iface".toList).starts l,
      if (v .ip_addr_src).need then .ofLines [Lancontrol.ifaceText device (v .ip_addr_src).value.text]
      else (m.tmp .ipmi_old_stanza_src).first) := by
  rw [startStanza, texts_eq]
  cases (v .ip_addr_src).need with
  | false =>
    simp only [dropOption, write_bind, Bool.false_eq_true, if_false]
    refine ⟨_, rfl, rfl, ?_⟩
    simp [Machine.stanzaFiles]
  | true =>
    simp only [dropOption, write_bind, if_true]
    refine ⟨_, rfl, rfl, ?_⟩
    simp [Machine.stanzaFiles, ifaceText_eq]

theorem doModifyStanza_run (m : Machine) : ∃ m',
    (doModifyStanza device.text v.texts).runFrom m =
      ((Lancontrol.doModifyStanza device v (m.tmp .ipmi_old_stanza) (m.tmp .ipmi_ifaces_stanza)).map fun _ => (), m') ∧
    m'.rest = m.rest ∧
    ∀ st, Lancontrol.doModifyStanza device v (m.tmp .ipmi_old_stanza) (m.tmp .ipmi_ifaces_stanza) = .ok st →
      m'.tmp .ipmi_ifaces_stanza = st := by
  have hrun : (doModifyStanza device.text v.texts).runFrom m =
      (if (m.tmp .ipmi_old_stanza).isEmpty then doCreateStanza device.text v.texts else do
        write .ipmi_old_stanza_src fun tmp => tmp .ipmi_old_stanza
        startStanza device.text v.texts
        setOption v.texts 2 ⟨.ip_addr, "address".toList, " ".toList⟩
        setOption v.texts 3 ⟨.subnet_mask, "netmask".toList, " ".toList⟩
        setOption v.texts 4 ⟨.default_gw_ip_addr, "gateway".toList, " ".toList⟩
        setOption v.texts 5 ⟨.mac_addr, "hwaddress".toList, " ether ".toList⟩
        write .ipmi_ifaces_stanza fun tmp => (tmp .ipmi_ifaces_stanza).cat (tmp .ipmi_old_stanza_src)).runFrom m := rfl
  rw [hrun, Lancontrol.doModifyStanza]
  split
  · obtain ⟨stanza, hcreate, hst⟩ := doCreateStanza_run device v m
    refine ⟨m.withStanza stanza, hcreate, rfl, fun st hok => ?_⟩
    rw [← hst st hok]
    simp [Machine.withStanza]
  · rw [write_bind, runFrom_bind]
    obtain ⟨m₁, hrun₁, hrest₁, hfiles₁⟩ := startStanza_run device v
      {m with tmp := Function.update m.tmp .ipmi_old_stanza_src (m.tmp .ipmi_old_stanza)}
    obtain ⟨m₂, hrun₂, hrest₂, hfiles₂⟩ := setOption_run v 2 ⟨.ip_addr, "address".toList, " ".toList⟩ m₁
    obtain ⟨m₃, hrun₃, hrest₃, hfiles₃⟩ := setOption_run v 3 ⟨.subnet_mask, "netmask".toList, " ".toList⟩ m₂
    obtain ⟨m₄, hrun₄, hrest₄, hfiles₄⟩ := setOption_run v 4 ⟨.default_gw_ip_addr, "gateway".toList, " ".toList⟩ m₃
    obtain ⟨m₅, hrun₅, hrest₅, hfiles₅⟩ := setOption_run v 5 ⟨.mac_addr, "hwaddress".toList, " ether ".toList⟩ m₄
    simp only [hrun₁, runFrom_bind, hrun₂, hrun₃, hrun₄, hrun₅]
    refine ⟨_, rfl, ?_, fun st hok => ?_⟩
    · exact hrest₅.trans (hrest₄.trans (hrest₃.trans (hrest₂.trans hrest₁)))
    · have hfiles : m₅.stanzaFiles = options.foldl (Lancontrol.setOption v) m₁.stanzaFiles := by
        rw [hfiles₅, hfiles₄, hfiles₃, hfiles₂]
        rfl
      have hold : Function.update m.tmp .ipmi_old_stanza_src (m.tmp .ipmi_old_stanza) .ipmi_old_stanza_src =
          m.tmp .ipmi_old_stanza := Function.update_self ..
      rw [← Except.ok.inj hok, ← hold, ← hfiles₁, ← hfiles]
      simp [Machine.stanzaFiles]

theorem hostAfter_bind {script : Script Machine Unit} {next : Unit → Script Machine Unit} {m m' : Machine}
    (h : script.runFrom m = (.ok (), m')) : hostAfter (script >>= next) m = hostAfter (next ()) m' := by
  rw [hostAfter, runFrom_bind, h]
  rfl

theorem hostAfter_bind_exit {script : Script Machine Unit} {next : Unit → Script Machine Unit} {m m' : Machine}
    {text : Str} (h : script.runFrom m = (.error text, m')) :
    hostAfter (script >>= next) m = .error text := by
  rw [hostAfter, runFrom_bind, h]
  rfl

theorem doSplitInterfaces_run (file : File) (m : Machine) : ∃ m',
    (doSplitInterfaces (Lancontrol.doSplitInterfaces device) file).runFrom m = (.ok (), m') ∧
    m'.rest = (m.live, (Lancontrol.doSplitInterfaces device file.content).1) ∧
    m'.tmp .ipmi_old_stanza = (Lancontrol.doSplitInterfaces device file.content).2 ∧
    m'.tmp .ipmi_ifaces_stanza = m.tmp .ipmi_ifaces_stanza :=
  ⟨_, rfl, rfl, rfl, rfl⟩

/-- The end of the operation on a file that is there. -/
def commit : Script Machine Unit := do
  write .impi_new_interfaces fun tmp => (tmp .ipmi_interfaces_unchanged).cat (tmp .ipmi_ifaces_stanza)
  moveInterfaces
  copyInterfaces .impi_new_interfaces

theorem commit_hostAfter (m : Machine) : hostAfter commit m =
    .ok ⟨m.live.network, some ⟨(m.tmp .ipmi_interfaces_unchanged).cat (m.tmp .ipmi_ifaces_stanza), true⟩,
      m.live.interfaces, m.tmp .ipmi_ifaces_stanza⟩ := rfl

/-- What a live file is replaced by. -/
theorem update_hostAfter (file : File) (m : Machine) :
    hostAfter (doSplitInterfaces (Lancontrol.doSplitInterfaces device) file >>= fun _ =>
      doModifyStanza device.text v.texts >>= fun _ => commit) m =
      (Lancontrol.doModifyStanza device v (Lancontrol.doSplitInterfaces device file.content).2
        (m.tmp .ipmi_ifaces_stanza)).map fun stanza =>
          ⟨m.live.network, some ⟨(Lancontrol.doSplitInterfaces device file.content).1.cat stanza, true⟩,
            m.live.interfaces, stanza⟩ := by
  obtain ⟨m₁, hsplit, hrest₁, hold, hstale⟩ := doSplitInterfaces_run device file m
  obtain ⟨m₂, hmodify, hrest₂, hst⟩ := doModifyStanza_run device v m₁
  rw [hold, hstale] at hmodify hst
  rw [hostAfter_bind hsplit]
  cases hpure : Lancontrol.doModifyStanza device v (Lancontrol.doSplitInterfaces device file.content).2
      (m.tmp .ipmi_ifaces_stanza) with
  | error text =>
    rw [hpure] at hmodify
    exact hostAfter_bind_exit hmodify
  | ok stanza =>
    rw [hpure] at hmodify
    obtain ⟨hlive, hunchanged⟩ := Prod.mk.inj (hrest₂.trans hrest₁)
    rw [hostAfter_bind hmodify, commit_hostAfter, hst stanza hpure, hlive, hunchanged]
    rfl

/-- What a file that is not there is created with. -/
theorem create_hostAfter (m : Machine) :
    hostAfter (doCreateStanza device.text v.texts >>= fun _ => copyInterfaces .ipmi_ifaces_stanza) m =
      (Lancontrol.doCreateStanza device v (m.tmp .ipmi_ifaces_stanza)).map fun stanza =>
        ⟨m.live.network, some ⟨stanza, true⟩, m.live.interfacesOld, stanza⟩ := by
  obtain ⟨stanza, hcreate, hst⟩ := doCreateStanza_run device v m
  cases hpure : Lancontrol.doCreateStanza device v (m.tmp .ipmi_ifaces_stanza) with
  | error text =>
    rw [hpure] at hcreate
    exact hostAfter_bind_exit hcreate
  | ok st =>
    obtain rfl := hst st hpure
    rw [hpure] at hcreate
    have hnew : (m.withStanza stanza).tmp .ipmi_ifaces_stanza = stanza := by simp [Machine.withStanza]
    rw [hostAfter_bind hcreate]
    show Except.ok (Host.mk _ (some ⟨(m.withStanza stanza).tmp .ipmi_ifaces_stanza, true⟩) _
      ((m.withStanza stanza).tmp .ipmi_ifaces_stanza)) = _
    rw [hnew]
    rfl

/-- The script leaves what `Lancontrol.doInterfaces` computes, and exits where it fails. -/
theorem doInterfaces_refines (m : Machine) :
    hostAfter (doInterfaces device.text (Lancontrol.doSplitInterfaces device) v.texts) m =
      Lancontrol.doInterfaces device v m.host := by
  have hlive : hostAfter (doInterfaces device.text (Lancontrol.doSplitInterfaces device) v.texts) m = hostAfter
      (if m.live.network then
        match m.live.interfaces with
        | some file =>
          if file.writable then
            doSplitInterfaces (Lancontrol.doSplitInterfaces device) file >>= fun _ =>
              doModifyStanza device.text v.texts >>= fun _ => commit
          else exit "/etc/network/interfaces exists and is not writable -fail".toList
        | none => doCreateStanza device.text v.texts >>= fun _ => copyInterfaces .ipmi_ifaces_stanza
      else exit "No /etc/network directory found - failing".toList) m := rfl
  rw [hlive, Lancontrol.doInterfaces]
  show _ = if m.live.network then (match m.live.interfaces with | some file => _ | none => _) else _
  split
  · cases hfile : m.live.interfaces with
    | some file =>
      simp only
      split
      · rw [update_hostAfter, hfile]
        rfl
      · rfl
    | none => exact create_hostAfter device v m
  · rfl

/-- The commands on the interface change no file. -/
theorem runCommands_hostAfter (script : Script Machine Unit) (m : Machine) :
    hostAfter (script >>= fun _ => runCommand (.ifdown device.text) >>= fun _ =>
      runCommand (.ifup device.text)) m = hostAfter script m := by
  rw [hostAfter, hostAfter, runFrom_bind]
  rcases script.runFrom m with ⟨_ | _, m'⟩ <;> rfl

/-- On words that stand for themselves the operation leaves what `Lancontrol.doSet` computes. -/
theorem doSet_refines (args : List Word) (m : Machine) :
    hostAfter (doSet device.text (Lancontrol.doSplitInterfaces device) (args.map Word.text)) m =
      Lancontrol.doSet device args m.host := by
  rw [doSet, Lancontrol.doSet, validateSet, fields_words]
  cases args with
  | nil => rfl
  | cons w rest =>
    have hvalidate := validate_words (w :: rest) initial
    rw [Vars.texts_initial] at hvalidate
    have hwords : (w :: rest).map Word.text ≠ [] := List.cons_ne_nil _ _
    rw [if_neg hwords, hvalidate]
    cases setLoop (w :: rest) initial with
    | error text => rfl
    | ok v => exact (runCommands_hostAfter device _ m).trans (doInterfaces_refines device v m)

end Files

end Idic.Ipmi.Lancontrol.SetScript
