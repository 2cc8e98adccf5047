import Idic.IpmiSim.Delivery
import Idic.Threads.Locks

/-! `Sensor.execute`, one atomic action at a time.

A sensor's thread, the command sessions and the main thread meet in the sensor
object, its condition and its write lock, and in `common.lock`, which one sensor's
threads see together (`View`). A send takes `common.lock`, transmits and gives the
lock back. `ThreadPc` has a point before each read, write, lock operation and wait
of `execute`; the mode is read up to three times in one iteration, and each read is
an action of its own. -/
namespace Idic.IpmiSim
open Python Threads

/-! ### What is shared -/

/-- What the BMC holds for one sensor: the last reading it was sent, and the states. -/
structure Bmc where
  reading : Option Int
  states : StateBits

inductive BmcCommand where
  | sensorSetValue (v : Int)
  | sensorSetBit (bit : Nat × Int)
  | selAdd

def Bmc.receive (bmc : Bmc) : BmcCommand → Bmc
  | .sensorSetValue v => {bmc with reading := some v}
  | .sensorSetBit bit => {bmc with states := setBit bmc.states bit}
  | .selAdd => bmc

/-- One sensor with its locks, and what the BMC holds for it. -/
structure Shared (θ : Type) where
  obj : Sensor
  condition : Condition θ
  lockSensorWrite : Option θ
  bmc : Bmc

/-- One sensor, and `common.lock`. -/
structure View (θ : Type) extends Shared θ where
  lock : Option θ

namespace View
variable {θ : Type}

def setMode (v : View θ) (m : Mode) : View θ := {v with obj := {v.obj with mode := m}}

def setValue (v : View θ) (x : Value) : View θ := {v with obj := {v.obj with value := x}}

def setCondition (v : View θ) (c : Condition θ) : View θ := {v with condition := c}

end View

/-! ### Sends -/

/-- The actions of `send_ipmi_sim_command`. -/
inductive SendPhase where
  | acquire
  | transmit
  | release
  deriving DecidableEq, Repr

/-- One of them, and the phase that is left after it. A `socket.error` in
`transmit` is caught, and the lock is given back all the same. -/
def SendPhase.step {θ : Type} (t : θ) (delivered : Bool) (c : BmcCommand) (v : View θ) :
    SendPhase → Option (Option SendPhase × View θ)
  | .acquire => (lockAcquire v.lock t).map fun l => (some .transmit, {v with lock := l})
  | .transmit => some (some .release, if delivered then {v with bmc := v.bmc.receive c} else v)
  | .release => some (none, {v with lock := none})

/-! ### The thread -/

/-- Where a thread goes once its `finally` clause has released the condition. -/
inductive Leave where
  | loop
  | exit
  | died (e : PyError)
  deriving DecidableEq, Repr

inductive ThreadPc where
  /-- `while not self.quit` -/
  | testQuit
  | acquire
  /-- `if self.mode == "user"` -/
  | testUser
  | wait
  /-- blocked in `wait`, with a time limit or without -/
  | waiting (timed : Bool)
  /-- `if self.quit == True` -/
  | woken
  /-- the first `if self.mode == "auto"` -/
  | testAuto
  | random
  | fault
  /-- `self.mode = "user"` -/
  | clear (sValue : Option Int)
  /-- `self.value = s_value` -/
  | store (sValue : Int)
  | send (sValue : Int) (ph : SendPhase)
  /-- the second `if self.mode == "auto"` -/
  | testAutoAgain
  | timedWait
  | release (next : Leave)
  | ended
  | died (e : PyError)
  deriving DecidableEq, Repr

def Leave.target : Leave → ThreadPc
  | .loop => .testQuit
  | .exit => .ended
  | .died e => .died e

/-- One action of `execute` by thread `t`, if it can happen. `rng` is the choice of
the random generator, `delivered` says whether a transmission arrives. -/
def ThreadPc.step {θ : Type} [DecidableEq θ] (t : θ) (rng : Nat) (delivered : Bool) (v : View θ) :
    ThreadPc → Option (ThreadPc × View θ)
  | .testQuit => some (if v.obj.quit then .ended else .acquire, v)
  | .acquire => (v.condition.acquire t).map fun c => (.testUser, v.setCondition c)
  | .testUser => some (if v.obj.mode = .user then .wait else .testAuto, v)
  | .wait => some (.waiting false, v.setCondition (v.condition.wait t))
  | .waiting _ => (v.condition.wake t).map fun c => (.woken, v.setCondition c)
  | .woken => some (.release (if v.obj.quit then .exit else .loop), v)
  | .testAuto => some (if v.obj.mode = .auto then .random else .fault, v)
  | .random =>
    match v.obj.getRandomValue rng with
    | .ok s => some (.store s, v)
    | .error e => some (.release (.died e), v)
  | .fault =>
    match v.obj.getFaultValue rng with
    | .ok (s, _) => some (.clear s, v)
    | .error e => some (.release (.died e), v)
  -- Without a value the iteration ends here (`continue`).
  | .clear s => some (match s with | some s => .store s | none => .release .loop, v.setMode .user)
  | .store s => some (.send s .acquire, v.setValue (.int s))
  | .send s ph => (ph.step t delivered (.sensorSetValue s) v).map fun (ph', v') =>
      (match ph' with | some ph' => .send s ph' | none => .testAutoAgain, v')
  | .testAutoAgain => some (if v.obj.mode = .auto then .timedWait else .release .loop, v)
  | .timedWait => some (.waiting true, v.setCondition (v.condition.wait t))
  | .release next => some (next.target, v.setCondition v.condition.release)
  | .ended => none
  | .died _ => none

/-- `spawn_sensor_thread` starts a thread for threshold sensors only. -/
def ThreadPc.start (s : Sensor) : ThreadPc :=
  if s.getEventType = .threshold then .testQuit else .ended

/-! ### Locks held and wanted -/

/-- The locks that one sensor's threads take. -/
inductive LocalLock where
  | condition
  | write
  | common
  deriving DecidableEq, Repr

/-- `common.lock` is taken last. -/
def LocalLock.rank : LocalLock → Nat
  | .condition => 0
  | .write => 0
  | .common => 1

def View.owner {θ : Type} (v : View θ) : LocalLock → Option θ
  | .condition => v.condition.owner
  | .write => v.lockSensorWrite
  | .common => v.lock

/-- Where in a send `common.lock` is held; not before it and not after it. -/
def SendPhase.Inside : SendPhase → Prop
  | .acquire => False
  | .transmit | .release => True

def SendPhase.InsideNext : Option SendPhase → Prop
  | none => False
  | some ph => ph.Inside

/-- The points of an iteration at which the thread owns the condition. -/
def ThreadPc.InIteration : ThreadPc → Prop
  | .testQuit | .acquire | .waiting _ | .ended | .died _ => False
  | _ => True

def ThreadPc.holds (pc : ThreadPc) : LocalLock → Prop
  | .condition => pc.InIteration
  | .write => False
  | .common => match pc with
    | .send _ ph => ph.Inside
    | _ => False

/-- The lock that a blocked thread waits for; a notified `wait` wants its lock back. -/
def ThreadPc.wants : ThreadPc → Option LocalLock
  | .acquire => some .condition
  | .waiting _ => some .condition
  | .send _ .acquire => some .common
  | _ => none

variable {θ : Type}

theorem SendPhase.step_moved {t : θ} {delivered : Bool} {c : BmcCommand} {v v' : View θ}
    {ph : SendPhase} {ph' : Option SendPhase} (h : ph.step t delivered c v = some (ph', v')) :
    Moved t v.lock v'.lock ph.Inside (InsideNext ph') ∧
      v'.obj = v.obj ∧ v'.condition = v.condition ∧ v'.lockSensorWrite = v.lockSensorWrite := by
  cases ph with
  | acquire =>
    obtain ⟨l, hl, heq⟩ := Option.map_eq_some_iff.mp h
    obtain ⟨hfree, rfl⟩ := lockAcquire_eq_some hl
    cases heq
    exact ⟨.taken hfree rfl trivial, rfl, rfl, rfl⟩
  | transmit =>
    cases h
    cases delivered <;> exact ⟨.kept rfl Iff.rfl, rfl, rfl, rfl⟩
  | release =>
    cases h
    exact ⟨.given trivial rfl not_false, rfl, rfl, rfl⟩

theorem SendPhase.step_bmc {t : θ} {delivered : Bool} {c : BmcCommand} {v v' : View θ}
    {ph : SendPhase} {ph' : Option SendPhase} (h : ph.step t delivered c v = some (ph', v')) :
    v'.bmc = if ph = .transmit ∧ delivered = true then v.bmc.receive c else v.bmc := by
  cases ph with
  | acquire =>
    obtain ⟨l, -, heq⟩ := Option.map_eq_some_iff.mp h
    cases heq
    rfl
  | transmit =>
    cases h
    cases delivered <;> rfl
  | release =>
    cases h
    rfl

/-- No step of the thread changes a lock unless it says so in `holds`. -/
theorem ThreadPc.step_moved [DecidableEq θ] {t : θ} {rng : Nat} {delivered : Bool} {v v' : View θ}
    {pc pc' : ThreadPc} (h : pc.step t rng delivered v = some (pc', v')) (k : LocalLock) :
    Moved t (v.owner k) (v'.owner k) (pc.holds k) (pc'.holds k) := by
  cases pc with
  | testQuit =>
    cases h
    cases v.obj.quit <;> cases k <;> exact .kept rfl Iff.rfl
  | acquire =>
    obtain ⟨c, hc, heq⟩ := Option.map_eq_some_iff.mp h
    obtain ⟨hfree, rfl⟩ := Condition.acquire_eq_some hc
    cases heq
    cases k with
    | condition => exact .taken hfree rfl trivial
    | write | common => exact .kept rfl Iff.rfl
  | waiting timed =>
    obtain ⟨c, hc, heq⟩ := Option.map_eq_some_iff.mp h
    obtain ⟨-, hfree, rfl⟩ := Condition.wake_eq_some hc
    cases heq
    cases k with
    | condition => exact .taken hfree rfl trivial
    | write | common => exact .kept rfl Iff.rfl
  | testUser | testAuto | testAutoAgain =>
    cases h
    split <;> cases k <;> exact .kept rfl Iff.rfl
  | wait | timedWait =>
    cases h
    cases k with
    | condition => exact .given trivial rfl not_false
    | write | common => exact .kept rfl Iff.rfl
  | woken | store =>
    cases h
    cases k <;> exact .kept rfl Iff.rfl
  | random | fault =>
    simp only [step] at h
    split at h <;> cases h <;> cases k <;> exact .kept rfl Iff.rfl
  | clear s =>
    cases h
    cases s <;> cases k <;> exact .kept rfl Iff.rfl
  | send s ph =>
    obtain ⟨⟨ph', v''⟩, hph, heq⟩ := Option.map_eq_some_iff.mp h
    obtain ⟨hlock, -, hcondition, hwrite⟩ := SendPhase.step_moved hph
    cases heq
    cases k with
    | condition => cases ph' <;> exact .kept (congrArg Condition.owner hcondition) Iff.rfl
    | write => exact .kept hwrite Iff.rfl
    | common => cases ph' <;> exact hlock
  | release next =>
    cases h
    cases k with
    | condition => cases next <;> exact .given trivial rfl not_false
    | write | common => cases next <;> exact .kept rfl Iff.rfl
  | ended | died => cases h

theorem ThreadPc.wants_rank {pc : ThreadPc} {k k' : LocalLock} (hw : pc.wants = some k)
    (hh : pc.holds k') : k'.rank < k.rank := by
  cases pc with
  | send s ph =>
    cases ph with
    | acquire =>
      cases hw
      cases k' with
      | condition => decide
      | write | common => exact hh.elim
    | transmit | release => cases hw
  | acquire | waiting => cases k' <;> exact hh.elim
  | _ => cases hw

/-! ### What a step can do -/

def SendPhase.next : SendPhase → Option SendPhase
  | .acquire => some .transmit
  | .transmit => some .release
  | .release => none

theorem SendPhase.step_next {t : θ} {delivered : Bool} {c : BmcCommand} {v v' : View θ}
    {ph : SendPhase} {ph' : Option SendPhase} (h : ph.step t delivered c v = some (ph', v')) :
    ph' = ph.next := by
  cases ph with
  | acquire =>
    obtain ⟨l, -, heq⟩ := Option.map_eq_some_iff.mp h
    cases heq
    rfl
  | transmit | release =>
    cases h
    rfl

/-- The point after a point, with what was read on the way. -/
inductive ThreadPc.Next (obj : Sensor) : ThreadPc → ThreadPc → Prop where
  | quit (h : obj.quit = true) : Next obj .testQuit .ended
  | goOn (h : obj.quit = false) : Next obj .testQuit .acquire
  | enter : Next obj .acquire .testUser
  | user (h : obj.mode = .user) : Next obj .testUser .wait
  | notUser (h : obj.mode ≠ .user) : Next obj .testUser .testAuto
  | sleep : Next obj .wait (.waiting false)
  | wake (timed : Bool) : Next obj (.waiting timed) .woken
  | stop (h : obj.quit = true) : Next obj .woken (.release .exit)
  | stay (h : obj.quit = false) : Next obj .woken (.release .loop)
  | auto (h : obj.mode = .auto) : Next obj .testAuto .random
  | notAuto (h : obj.mode ≠ .auto) : Next obj .testAuto .fault
  | drawn {rng : Nat} {s : Int} (h : obj.getRandomValue rng = .ok s) : Next obj .random (.store s)
  | emptyRange {rng : Nat} {e : PyError} (h : obj.getRandomValue rng = .error e) :
      Next obj .random (.release (.died e))
  | evaluated {rng : Nat} {s : Option Int} {messages : List Str} {l : Level} (hl : obj.faultLevel = some l)
      (h : obj.faultValueAt l rng = .ok (s, messages)) : Next obj .fault (.clear s)
  | notEvaluated {rng : Nat} {e : PyError} (h : obj.getFaultValue rng = .error e) :
      Next obj .fault (.release (.died e))
  | value (s : Int) : Next obj (.clear (some s)) (.store s)
  | noValue : Next obj (.clear none) (.release .loop)
  | stored (s : Int) : Next obj (.store s) (.send s .acquire)
  | sending {ph ph' : SendPhase} (s : Int) (h : ph.next = some ph') : Next obj (.send s ph) (.send s ph')
  | sent (s : Int) : Next obj (.send s .release) .testAutoAgain
  | stillAuto (h : obj.mode = .auto) : Next obj .testAutoAgain .timedWait
  | noLongerAuto (h : obj.mode ≠ .auto) : Next obj .testAutoAgain (.release .loop)
  | doze : Next obj .timedWait (.waiting true)
  | loop : Next obj (.release .loop) .testQuit
  | exit : Next obj (.release .exit) .ended
  | die (e : PyError) : Next obj (.release (.died e)) (.died e)

theorem ThreadPc.step_next [DecidableEq θ] {t : θ} {rng : Nat} {delivered : Bool} {v v' : View θ}
    {pc pc' : ThreadPc} (h : pc.step t rng delivered v = some (pc', v')) : pc.Next v.obj pc' := by
  cases pc with
  | testQuit =>
    cases h
    cases hq : v.obj.quit
    · exact .goOn hq
    · exact .quit hq
  | acquire | waiting =>
    obtain ⟨c, -, heq⟩ := Option.map_eq_some_iff.mp h
    cases heq
    constructor
  | testUser =>
    cases h
    split
    · next hm => exact .user hm
    · next hm => exact .notUser hm
  | wait | store | timedWait =>
    cases h
    constructor
  | release next =>
    cases h
    cases next <;> constructor
  | woken =>
    cases h
    cases hq : v.obj.quit
    · exact .stay hq
    · exact .stop hq
  | testAuto =>
    cases h
    split
    · next hm => exact .auto hm
    · next hm => exact .notAuto hm
  | random =>
    simp only [step] at h
    split at h
    · next hok =>
      cases h
      exact .drawn hok
    · next herr =>
      cases h
      exact .emptyRange herr
  | fault =>
    simp only [step] at h
    split at h
    · next hok =>
      cases h
      cases hl : v.obj.faultLevel with
      | none =>
        rw [Sensor.getFaultValue, hl] at hok
        cases hok
      | some l =>
        rw [Sensor.getFaultValue, hl] at hok
        exact .evaluated hl hok
    · next herr =>
      cases h
      exact .notEvaluated herr
  | clear s =>
    cases h
    cases s <;> constructor
  | send s ph =>
    obtain ⟨⟨ph', v''⟩, hph, heq⟩ := Option.map_eq_some_iff.mp h
    obtain rfl := SendPhase.step_next hph
    cases heq
    cases ph with
    | acquire | transmit => exact .sending s rfl
    | release => exact .sent s
  | testAutoAgain =>
    cases h
    split
    · next hm => exact .stillAuto hm
    · next hm => exact .noLongerAuto hm
  | ended | died => cases h

/-! ### Effects -/

/-- What an action of the thread writes to the sensor. -/
def ThreadPc.writes (pc : ThreadPc) (obj : Sensor) : Sensor :=
  match pc with
  | .clear _ => {obj with mode := .user}
  | .store s => {obj with value := .int s}
  | _ => obj

theorem ThreadPc.writes_quit (pc : ThreadPc) (obj : Sensor) : (pc.writes obj).quit = obj.quit := by
  cases pc <;> rfl

/-- What it does to the threads blocked in `wait`. -/
def ThreadPc.waits (pc : ThreadPc) (t : θ) (waiters : List θ) : List θ :=
  match pc with
  | .wait | .timedWait => waiters ++ [t]
  | _ => waiters

/-- What the BMC receives from it. -/
def ThreadPc.sends (pc : ThreadPc) (delivered : Bool) (bmc : Bmc) : Bmc :=
  match pc with
  | .send s .transmit => if delivered then bmc.receive (.sensorSetValue s) else bmc
  | _ => bmc

theorem ThreadPc.step_effect [DecidableEq θ] {t : θ} {rng : Nat} {delivered : Bool} {v v' : View θ}
    {pc pc' : ThreadPc} (h : pc.step t rng delivered v = some (pc', v')) :
    v'.obj = pc.writes v.obj ∧ v'.condition.waiters = pc.waits t v.condition.waiters ∧
      v'.bmc = pc.sends delivered v.bmc := by
  cases pc with
  | testQuit | testUser | wait | woken | testAuto | clear | store | testAutoAgain | timedWait | release =>
    cases h
    exact ⟨rfl, rfl, rfl⟩
  | acquire =>
    obtain ⟨c, hc, heq⟩ := Option.map_eq_some_iff.mp h
    obtain ⟨-, rfl⟩ := Condition.acquire_eq_some hc
    cases heq
    exact ⟨rfl, rfl, rfl⟩
  | waiting =>
    obtain ⟨c, hc, heq⟩ := Option.map_eq_some_iff.mp h
    obtain ⟨-, -, rfl⟩ := Condition.wake_eq_some hc
    cases heq
    exact ⟨rfl, rfl, rfl⟩
  | random | fault =>
    simp only [step] at h
    split at h <;> cases h <;> exact ⟨rfl, rfl, rfl⟩
  | send s ph =>
    obtain ⟨⟨ph', v''⟩, hph, heq⟩ := Option.map_eq_some_iff.mp h
    obtain ⟨-, hobj, hcondition, -⟩ := SendPhase.step_moved hph
    have hbmc := SendPhase.step_bmc hph
    cases heq
    refine ⟨hobj, congrArg Condition.waiters hcondition, ?_⟩
    cases ph <;> cases delivered <;> exact hbmc
  | ended | died => cases h

end Idic.IpmiSim
