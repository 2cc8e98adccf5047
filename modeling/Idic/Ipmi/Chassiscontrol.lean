import Idic.Python.Text
import Idic.Threads.System

/-! Power and boot device of the virtual host.

`chassiscontrol` and the `startcmd` that it runs have one file in common,
`/boot/bootdev`. A `set boot` writes the device to it, a start reads it and then
writes `none`; a `get boot` writes `default` where there is none. `startcmd` tries
several times to bring the host up, and `up run retry` says whether the given retry
of its given run does. `boot_device_used_once` says when every start uses what was
last requested for it. -/
namespace Idic.Ipmi.Chassiscontrol
open Python Threads

/-- The option `-boot order=..,menu=..`. -/
structure BootOrder where
  order : Str
  menu : Str
  deriving DecidableEq, Repr

/-- The devices that `set boot` accepts. -/
inductive BootDevice where
  | none
  | pxe
  | default
  | bios
  | cdrom
  deriving DecidableEq, Repr

def BootDevice.text : BootDevice → Str
  | .none => "none".toList
  | .pxe => "pxe".toList
  | .default => "default".toList
  | .bios => "bios".toList
  | .cdrom => "cdrom".toList

def BootDevice.all : List BootDevice := [.none, .pxe, .default, .bios, .cdrom]

def BootDevice.ofText (text : Str) : Option BootDevice := all.find? fun d => d.text = text

/-- The `case` on what the file holds, or on nothing. -/
def bootOrder (device : Str) : BootOrder :=
  if device = "none".toList then ⟨"ncd".toList, "off".toList⟩
  else if device = "pxe".toList then ⟨"n".toList, "off".toList⟩
  else if device = "default".toList then ⟨"c".toList, "off".toList⟩
  else if device = "cdrom".toList then ⟨"d".toList, "off".toList⟩
  else if device = "bios".toList then ⟨"ncd".toList, "on".toList⟩
  else ⟨"ncd".toList, "off".toList⟩

/-- The file, if it exists, with what `cat` gives of it; whether the host runs; the
runs of `startcmd` so far, and the boot orders that have brought the host up. -/
structure Machine where
  bootdev : Option Str := none
  running : Bool := false
  runs : Nat := 0
  started : List BootOrder := []
  deriving DecidableEq, Repr

/-- The boot order that the next start would use. -/
def Machine.order (m : Machine) : BootOrder := bootOrder (m.bootdev.getD [])

/-! ### `startcmd` -/

/-- The retry loop, with `left` attempts left. -/
def startLoop (up : Nat → Bool) (retry : Nat) : Nat → Bool
  | 0 => false
  | left + 1 => up retry || startLoop up (retry + 1) left

/-- Ten retries after the first attempt. -/
def attempts : Nat := 11

theorem startLoop_eq_true_iff (up : Nat → Bool) (retry left : Nat) :
    startLoop up retry left = true ↔ ∃ k, retry ≤ k ∧ k < retry + left ∧ up k = true := by
  induction left generalizing retry with
  | zero =>
    refine ⟨nofun, fun ⟨k, hlow, hhigh, _⟩ => ?_⟩
    omega
  | succ left ih =>
    rw [startLoop, Bool.or_eq_true, ih]
    constructor
    · intro hcase
      rcases hcase with hup | ⟨k, hlow, hhigh, hup⟩
      · exact ⟨retry, le_refl _, by omega, hup⟩
      · exact ⟨k, by omega, by omega, hup⟩
    · intro hsome
      obtain ⟨k, hlow, hhigh, hup⟩ := hsome
      by_cases hk : k = retry
      · exact .inl (hk ▸ hup)
      · exact .inr ⟨k, by omega, by omega, hup⟩

section Scripts
variable (up : Nat → Nat → Bool)

/-- Whether the next run of `startcmd` brings the host up. -/
def Machine.starts (m : Machine) : Bool := startLoop (up m.runs) 0 attempts

/-- `/etc/ipmi/startcmd`. -/
def startcmd (m : Machine) : Machine where
  bootdev := some "none".toList
  running := m.starts up
  runs := m.runs + 1
  started := if m.starts up then m.started ++ [m.order] else m.started

/-! ### `chassiscontrol` -/

/-- What a script leaves: the machine, its output and its exit status. -/
structure Exit where
  machine : Machine
  output : List Str
  status : Nat
  deriving DecidableEq, Repr

/-- One turn of the loop of `do_get`: the value, if the parameter has one. -/
def getParm (parm : Str) (m : Machine) : Option (Str × Machine) :=
  if parm = "power".toList then some ((if m.running then "1" else "0").toList, m)
  else if parm = "boot".toList then
    match m.bootdev with
    | some val => some (val, m)
    | none => some ("default".toList, {m with bootdev := some "default".toList})
  else none

def doGet (m : Machine) : List Str → Exit
  | [] => ⟨m, [], 0⟩
  | parm :: rest =>
    match getParm parm m with
    | none => ⟨m, [], 1⟩
    | some (val, m) =>
      let exit := doGet m rest
      {exit with output := (parm ++ ":".toList ++ val) :: exit.output}

def setPower (val : Str) (m : Machine) : Machine :=
  if val = "1".toList then if m.running then m else startcmd up m
  else if val = "0".toList then {m with running := false}
  else m

/-- One turn of the loop of `do_set` on a parameter with one value. -/
def setParm (parm val : Str) (m : Machine) : Option Machine :=
  if parm = "power".toList then some (setPower up val m)
  else if parm = "reset".toList then some (startcmd up {m with running := false})
  else if parm = "boot".toList then
    (BootDevice.ofText val).map fun _ => {m with bootdev := some val}
  else none

/-- `identify` takes two values and touches neither the host nor its boot device. -/
def doSet (m : Machine) : List Str → Exit
  | [] => ⟨m, [], 0⟩
  | [_] => ⟨m, [], 1⟩
  | parm :: val :: rest =>
    if parm = "identify".toList then
      match rest with
      | [] => ⟨m, [], 0⟩
      | _force :: rest => doSet m rest
    else
      match setParm up parm val m with
      | none => ⟨m, [], 1⟩
      | some m => doSet m rest

/-- `chassiscontrol <device> <op> <args>`. -/
def chassiscontrol (op : Str) (args : List Str) (m : Machine) : Exit :=
  if op = "get".toList then doGet m args
  else if op = "set".toList then doSet up m args
  else ⟨m, [], 1⟩

end Scripts

/-! ### Invocations with one parameter -/

inductive Invocation where
  | getPower
  | getBoot
  | setBoot (d : BootDevice)
  | setPower (on : Bool)
  | reset (val : Str)
  deriving DecidableEq, Repr

def Invocation.op : Invocation → Str
  | .getPower | .getBoot => "get".toList
  | .setBoot _ | .setPower _ | .reset _ => "set".toList

def Invocation.args : Invocation → List Str
  | .getPower => ["power".toList]
  | .getBoot => ["boot".toList]
  | .setBoot d => ["boot".toList, d.text]
  | .setPower on => ["power".toList, (if on then "1" else "0").toList]
  | .reset val => ["reset".toList, val]

section Runs
variable (up : Nat → Nat → Bool)

def Invocation.run (i : Invocation) (m : Machine) : Machine :=
  (chassiscontrol up i.op i.args m).machine

/-- The invocations that run `startcmd`. -/
def Invocation.Starts (i : Invocation) (m : Machine) : Prop :=
  match i with
  | .setPower on => on = true ∧ m.running = false
  | .reset _ => True
  | _ => False

instance (i : Invocation) (m : Machine) : Decidable (i.Starts m) := by
  unfold Invocation.Starts
  split <;> infer_instance

theorem BootDevice.ofText_text (d : BootDevice) : ofText d.text = some d := by
  cases d <;> decide

/-- What an invocation does to the machine. -/
inductive Invocation.Effect (m : Machine) : Invocation → Machine → Prop where
  | nothing {i} (h : ¬ i.Starts m) (hget : i = .getBoot → m.bootdev ≠ none) (hset : ∀ d, i ≠ .setBoot d) :
      Effect m i m
  | creates (h : m.bootdev = none) : Effect m .getBoot {m with bootdev := some "default".toList}
  | requests (d : BootDevice) : Effect m (.setBoot d) {m with bootdev := some d.text}
  | stops : Effect m (.setPower false) {m with running := false}
  | starts {i} (h : i.Starts m) : Effect m i (startcmd up {m with running := false})

theorem Invocation.run_effect (i : Invocation) (m : Machine) : i.Effect up m (i.run up m) := by
  cases i with
  | getPower => exact .nothing nofun nofun nofun
  | getBoot =>
    have hrun : (Invocation.getBoot).run up m =
        match m.bootdev with
        | some _ => m
        | none => {m with bootdev := some "default".toList} := by
      simp [run, op, args, chassiscontrol, doGet, getParm]
      cases m.bootdev <;> rfl
    rw [hrun]
    cases hb : m.bootdev with
    | none => exact .creates hb
    | some val => exact .nothing nofun (fun _ => by simp [hb]) nofun
  | setBoot d =>
    have hrun : (Invocation.setBoot d).run up m = {m with bootdev := some d.text} := by
      cases d <;> rfl
    rw [hrun]
    exact .requests d
  | setPower on =>
    cases on with
    | true =>
      have hrun : (Invocation.setPower true).run up m = if m.running then m else startcmd up m := rfl
      rw [hrun]
      cases hrunning : m.running with
      | true => exact .nothing (fun h => by cases hrunning.symm.trans h.2) nofun nofun
      | false => exact .starts ⟨rfl, hrunning⟩
    | false => exact .stops
  | reset val => exact .starts trivial

/-! ### What is due -/

/-- The order of a machine that nothing was requested of. -/
def usualOrder : BootOrder := ⟨"ncd".toList, "off".toList⟩

def dueOrder : Option BootDevice → BootOrder
  | none => usualOrder
  | some d => bootOrder d.text

/-- The last device that was requested since the host last came up, and the orders
that the starts should have used. -/
structure History where
  pending : Option BootDevice := none
  due : List BootOrder := []
  deriving DecidableEq

def record (i : Invocation) (m : Machine) (h : History) : History :=
  match i with
  | .setBoot d => {h with pending := some d}
  | i => if i.Starts m ∧ m.starts up then ⟨none, h.due ++ [dueOrder h.pending]⟩ else h

/-- A `get boot` finds the file, and a start that fails found the usual order. -/
def KeepsRequest (i : Invocation) (m : Machine) : Prop :=
  (i = .getBoot → m.bootdev ≠ none) ∧ (i.Starts m → m.starts up = false → m.order = usualOrder)

/-- The machine with `/boot/bootdev` absent, and single invocations. -/
def host : System Machine Invocation where
  init m := m.bootdev = none ∧ m.runs = 0 ∧ m.started = []
  step i m := some (i.run up m)

theorem record_of_not_starts {i : Invocation} {m : Machine} (h : ¬ i.Starts m) (hset : ∀ d, i ≠ .setBoot d)
    (past : History) : record up i m past = past := by
  cases i with
  | setBoot d => exact absurd rfl (hset d)
  | getPower | getBoot | setPower | reset => simp only [record, h, false_and, if_false]

theorem record_of_starts {i : Invocation} {m : Machine} (h : i.Starts m) (past : History) :
    record up i m past =
      if m.starts up then ⟨none, past.due ++ [dueOrder past.pending]⟩ else past := by
  cases i with
  | getPower | getBoot | setBoot => exact h.elim
  | setPower | reset => simp only [record, h, true_and]

/-- The next start would use what is due for it. -/
def InForce (m : Machine) (past : History) : Prop := m.order = dueOrder past.pending

/-- The condition is exact: the next start uses what is due for it after an
invocation, as before, exactly when the invocation meets the condition. -/
theorem inForce_iff {i : Invocation} {m : Machine} {past : History} (h : InForce m past) :
    InForce (i.run up m) (record up i m past) ↔ KeepsRequest up i m := by
  have heffect := i.run_effect up m
  generalize i.run up m = m' at heffect
  cases heffect with
  | nothing hstarts hget hset =>
    rw [record_of_not_starts up hstarts hset]
    exact iff_of_true h ⟨hget, fun hs => absurd hs hstarts⟩
  | creates hb =>
    have husual : m.order = usualOrder := by rw [Machine.order, hb]; decide
    refine iff_of_false ?_ fun hkeeps => hkeeps.1 rfl hb
    intro hdefault
    have hdue : usualOrder = dueOrder past.pending := husual.symm.trans h
    have hc : bootOrder "default".toList = dueOrder past.pending := hdefault
    exact absurd (hc.trans hdue.symm) (by decide)
  | requests d => exact iff_of_true rfl ⟨nofun, nofun⟩
  | stops => exact iff_of_true h ⟨nofun, fun hs => by cases hs.1⟩
  | starts hs =>
    have husual : (startcmd up {m with running := false}).order = usualOrder :=
      show bootOrder "none".toList = usualOrder by decide
    have hnot : i ≠ .getBoot := by
      intro heq
      subst heq
      exact hs
    rw [record_of_starts up hs, InForce, husual]
    cases hup : m.starts up with
    | true => exact iff_of_true rfl ⟨fun hget => absurd hget hnot, fun _ hfail => by cases hup.symm.trans hfail⟩
    | false =>
      constructor
      · exact fun hdue => ⟨fun hget => absurd hget hnot, fun _ _ => h.trans hdue.symm⟩
      · exact fun hkeeps => (hkeeps.2 hs hup).symm.trans h

/-- What has brought the host up is what was due, if it is now. -/
theorem started_eq_due {i : Invocation} {m : Machine} {past : History} (h : InForce m past)
    (hdue : m.started = past.due) : (i.run up m).started = (record up i m past).due := by
  have heffect := i.run_effect up m
  generalize i.run up m = m' at heffect
  cases heffect with
  | nothing hstarts _ hset =>
    rw [record_of_not_starts up hstarts hset]
    exact hdue
  | creates | requests | stops => exact hdue
  | starts hs =>
    rw [record_of_starts up hs]
    show (if m.starts up then m.started ++ [m.order] else m.started) = _
    split
    · rw [hdue, h]
    · exact hdue

/-- **The one-shot boot device is used once, by the next start**, in every run in
which no `get boot` comes before the file exists and no start fails on a request
for another than the usual order. -/
theorem boot_device_used_once (m : Machine) (past : History)
    (h : ((host up).withHistory {} (record up)).Reach (fun i x => KeepsRequest up i x.1) (m, past)) :
    m.started = past.due := by
  refine (h.invariant (I := fun x => InForce x.1 x.2 ∧ x.1.started = x.2.due) ?_ ?_).2
  · rintro ⟨m, past⟩ ⟨⟨hb, -, hstarted⟩, rfl⟩
    refine ⟨?_, hstarted⟩
    show bootOrder (m.bootdev.getD []) = usualOrder
    rw [show m.bootdev = none from hb]
    decide
  · rintro i ⟨m, past⟩ x' ⟨hforce, hdue⟩ hkeeps hs
    cases hs
    exact ⟨(inForce_iff up hforce).mpr hkeeps, started_eq_due up hforce hdue⟩

end Runs

/-! ### A first read, and a start that fails -/

instance (up : Nat → Nat → Bool) (i : Invocation) (m : Machine) : Decidable (KeepsRequest up i m) :=
  inferInstanceAs (Decidable ((_ → _) ∧ (_ → _ → _)))

/-- Runs of `startcmd` that bring the host up at once. -/
def atOnce (_run _retry : Nat) : Bool := true

/-- Only the first run of `startcmd` fails, all of its attempts. -/
def firstFails (run _retry : Nat) : Bool := run != 0

theorem host_withHistory (up : Nat → Nat → Bool) (allowed : Invocation → Machine × History → Prop) :
    ((host up).withHistory {} (record up)).Reach allowed ({}, {}) := .init ⟨⟨rfl, rfl, rfl⟩, rfl⟩

theorem boot_device_used_once_pxe : ∃ m : Machine, ∃ past : History,
    m.started = [bootOrder "pxe".toList, usualOrder] ∧ m.started = past.due := by
  obtain ⟨⟨m, past⟩, hreach, hstarted⟩ := (host_withHistory atOnce
      (fun i x => KeepsRequest atOnce i x.1)).exists_of_run
    [.setBoot .pxe, .setPower true, .getBoot, .reset "1".toList]
    (fun x => x.1.started = [bootOrder "pxe".toList, usualOrder]) (by decide +kernel)
  exact ⟨m, past, hstarted, boot_device_used_once atOnce m past hreach⟩

/-- After a `get boot` on a new machine the first start uses the order of `default`,
and a request is lost to a start that fails. -/
theorem bootDevice_invented_and_lost :
    (∃ x, ((host atOnce).withHistory {} (record atOnce)).Reachable x ∧
      x.1.started = [bootOrder "default".toList] ∧ x.2.due = [usualOrder]) ∧
    ∃ x, ((host firstFails).withHistory {} (record firstFails)).Reachable x ∧
      x.1.started = [usualOrder] ∧ x.2.due = [bootOrder "pxe".toList] := by
  constructor
  · exact (host_withHistory atOnce System.any).exists_of_run [.getBoot, .setPower true] _ (by decide +kernel)
  · exact (host_withHistory firstFails System.any).exists_of_run
      [.setBoot .pxe, .setPower true, .setPower true] _ (by decide +kernel)

end Idic.Ipmi.Chassiscontrol
