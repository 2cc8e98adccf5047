import Idic.IpmiSim.Execute

/-! The command sessions and the main thread, one atomic action at a time.

`CommandPc` has the points of `set_sensor_mode`, `set_sensor_value`, `set_sel` and
of the writes of `Sensor` that they call; a command whose checks fail, or that
raises, has returned. `FreePhase` is one turn of the loop of `free_resource`. -/
namespace Idic.IpmiSim
open Python Threads

/-! ### Commands -/

/-- A call of `set_discrete_value` or `set_state`. -/
inductive DiscreteCall where
  | value (text : Str)
  | state (stateId stateBit : Int)
  deriving DecidableEq, Repr

def DiscreteCall.locked (c : DiscreteCall) (s : Sensor) : Except PyError Locked :=
  match c with
  | .value text => s.setDiscreteValue text
  | .state stateId stateBit => s.setState stateId stateBit

/-- The value given to `sensor value set`: its text, and the raw value that
`int(formula(float(text)))` makes of it, if that does not raise. -/
structure ValueArg where
  text : Str
  raw : Option Int
  deriving DecidableEq, Repr

def lower (s : Str) : Str := s.map Char.toLower

/-- The word text a discrete sensor is given, if the text passes the checks. -/
def ValueArg.word (a : ValueArg) : Option Str :=
  match intBase16 a.text with
  | .error _ => none
  | .ok _ =>
    if (lower a.text).take 2 = "0x".toList ∧ a.text.length = 6 then some a.text
    else if (lower a.text).take 2 ≠ "0x".toList ∧ a.text.length = 4 then some ("0x".toList ++ a.text)
    else none

/-- What a session can start on a sensor. `threshold` and `discrete` call the
sensor's own methods. -/
inductive Command where
  | modeSet (r : ModeRequest)
  | valueSet (a : ValueArg)
  | threshold (v : Int)
  | discrete (c : DiscreteCall)
  /-- `sel set` of an event that passes the checks of its sensor, or does not -/
  | selSet (checked : Bool)
  deriving DecidableEq, Repr

/-! ### Notifications -/

/-- `condition.acquire()`, `condition.notify()`, `condition.release()`. -/
inductive NotifyPhase where
  | acquire
  | notify
  | release
  deriving DecidableEq, Repr

def NotifyPhase.step {θ : Type} (t : θ) (v : View θ) :
    NotifyPhase → Option (Option NotifyPhase × View θ)
  | .acquire => (v.condition.acquire t).map fun c => (some .notify, v.setCondition c)
  | .notify => some (some .release, v.setCondition v.condition.notify)
  | .release => some (none, v.setCondition v.condition.release)

/-! ### Sessions -/

inductive CommandPc where
  | returned
  /-- `sensor_obj.set_fault_level(fault_level)` -/
  | writeLevel (l : Level)
  /-- `pre_mode = sensor_obj.get_mode()` -/
  | readMode (r : ModeRequest)
  | writeMode (r : ModeRequest) (preMode : Mode)
  /-- the notification of a mode request, or of a value request -/
  | notify (ph : NotifyPhase) (after : Option ValueArg)
  /-- `if sensor_obj.get_mode() == "auto"` -/
  | testMode (a : ValueArg)
  | writeUser (a : ValueArg)
  | testType (a : ValueArg)
  /-- `set_threshold_value` -/
  | store (v : Int)
  | send (v : Int) (ph : SendPhase)
  /-- `set_discrete_value` and `set_state` up to the lock -/
  | compute (c : DiscreteCall)
  /-- `lock_sensor_write.acquire()`; what was read is kept for the statements -/
  | lockWrite (c : DiscreteCall) (read : Value) (l : Locked)
  | storeText (l : Locked)
  /-- the sends that are left; with none left, `lock_sensor_write.release()` -/
  | bits (todo : List (Nat × Int)) (ph : SendPhase)
  | sel (ph : SendPhase)
  deriving DecidableEq, Repr

def Command.start : Command → CommandPc
  | .modeSet (.fault l) => .writeLevel l
  | .modeSet r => .readMode r
  | .valueSet a => .testMode a
  | .threshold v => .store v
  | .discrete c => .compute c
  | .selSet checked => if checked then .sel .acquire else .returned

/-- Where `set_sensor_value` goes from the sensor's type. -/
def ValueArg.call (a : ValueArg) (s : Sensor) : CommandPc :=
  match s.getEventType with
  | .threshold => (a.raw.map CommandPc.store).getD .returned
  | .discrete => (a.word.map fun text => CommandPc.compute (.value text)).getD .returned
  | .NA => .returned

/-- One action of a command by thread `t`, if it can happen. -/
def CommandPc.step {θ : Type} (t : θ) (delivered : Bool) (v : View θ) :
    CommandPc → Option (CommandPc × View θ)
  | .returned => none
  | .writeLevel l => some (.readMode (.fault l), {v with obj := {v.obj with faultLevel := some l}})
  | .readMode r => some (.writeMode r v.obj.mode, v)
  | .writeMode r preMode => some
      (if r.mode ≠ .user ∧ preMode = .user then .notify .acquire none else .returned, v.setMode r.mode)
  | .notify ph a => (ph.step t v).map fun (ph', v') =>
      (match ph', a with
        | some ph', _ => .notify ph' a
        | none, none => .returned
        | none, some a => .testType a, v')
  | .testMode a => some (if v.obj.mode = .auto then .writeUser a else .testType a, v)
  | .writeUser a => some (.notify .acquire (some a), v.setMode .user)
  | .testType a => some (a.call v.obj, v)
  | .store x => some (match v.obj.withType .threshold (.ok ()) with
      | .ok _ => (.send x .acquire, v.setValue (.int x))
      | .error _ => (.returned, v))
  | .send x ph => (ph.step t delivered (.sensorSetValue x) v).map fun (ph', v') =>
      (match ph' with | some ph' => .send x ph' | none => .returned, v')
  | .compute c => some (match c.locked v.obj with
      | .ok l => .lockWrite c v.obj.value l
      | .error _ => .returned, v)
  | .lockWrite _ _ l => (lockAcquire v.lockSensorWrite t).map fun o =>
      (.storeText l, {v with lockSensorWrite := o})
  | .storeText l => some (.bits l.bits .acquire, v.setValue (.str l.value))
  | .bits [] _ => some (.returned, {v with lockSensorWrite := none})
  | .bits (b :: rest) ph => (ph.step t delivered (.sensorSetBit b) v).map fun (ph', v') =>
      (match ph' with | some ph' => .bits (b :: rest) ph' | none => .bits rest .acquire, v')
  | .sel ph => (ph.step t delivered .selAdd v).map fun (ph', v') =>
      (match ph' with | some ph' => .sel ph' | none => .returned, v')

/-! ### The main thread -/

/-- What `free_resource` does for one sensor. -/
inductive FreePhase where
  | setMode
  | setQuit
  | notify (ph : NotifyPhase)
  deriving DecidableEq, Repr

def FreePhase.step {θ : Type} (t : θ) (v : View θ) : FreePhase → Option (Option FreePhase × View θ)
  | .setMode => some (some .setQuit, v.setMode .user)
  | .setQuit => some (some (.notify .acquire), {v with obj := {v.obj with quit := true}})
  | .notify ph => (ph.step t v).map fun (ph', v') => (ph'.map FreePhase.notify, v')

/-! ### Locks held and wanted -/

def NotifyPhase.Inside : NotifyPhase → Prop
  | .acquire => False
  | .notify | .release => True

def NotifyPhase.InsideNext : Option NotifyPhase → Prop
  | none => False
  | some ph => ph.Inside

def CommandPc.holds (pc : CommandPc) : LocalLock → Prop
  | .condition => match pc with
    | .notify ph _ => ph.Inside
    | _ => False
  | .write => match pc with
    | .storeText _ | .bits .. => True
    | _ => False
  | .common => match pc with
    | .send _ ph | .bits (_ :: _) ph | .sel ph => ph.Inside
    | _ => False

def CommandPc.wants : CommandPc → Option LocalLock
  | .notify .acquire _ => some .condition
  | .lockWrite .. => some .write
  | .send _ .acquire | .bits (_ :: _) .acquire | .sel .acquire => some .common
  | _ => none

def FreePhase.holds (ph : FreePhase) : LocalLock → Prop
  | .condition => match ph with
    | .notify ph => ph.Inside
    | _ => False
  | _ => False

def FreePhase.holdsNext : Option FreePhase → LocalLock → Prop
  | none => fun _ => False
  | some ph => ph.holds

def FreePhase.wants : FreePhase → Option LocalLock
  | .notify .acquire => some .condition
  | _ => none

variable {θ : Type}

theorem NotifyPhase.step_moved {t : θ} {v v' : View θ} {ph : NotifyPhase} {ph' : Option NotifyPhase}
    (h : ph.step t v = some (ph', v')) :
    Moved t v.condition.owner v'.condition.owner ph.Inside (InsideNext ph') ∧
      v'.obj = v.obj ∧ v'.lockSensorWrite = v.lockSensorWrite ∧ v'.lock = v.lock := by
  cases ph with
  | acquire =>
    obtain ⟨c, hc, heq⟩ := Option.map_eq_some_iff.mp h
    obtain ⟨hfree, rfl⟩ := Condition.acquire_eq_some hc
    cases heq
    exact ⟨.taken hfree rfl trivial, rfl, rfl, rfl⟩
  | notify =>
    cases h
    exact ⟨.kept rfl Iff.rfl, rfl, rfl, rfl⟩
  | release =>
    cases h
    exact ⟨.given trivial rfl not_false, rfl, rfl, rfl⟩

/-- A value request goes on to one write of the sensor, or returns. -/
theorem ValueArg.call_eq (a : ValueArg) (s : Sensor) : a.call s = .returned ∨
    (∃ x ∈ a.raw, a.call s = .store x) ∨ ∃ text ∈ a.word, a.call s = .compute (.value text) := by
  unfold call
  cases s.getEventType with
  | NA => exact .inl rfl
  | threshold =>
    cases a.raw with
    | none => exact .inl rfl
    | some x => exact .inr (.inl ⟨x, rfl, rfl⟩)
  | discrete =>
    cases a.word with
    | none => exact .inl rfl
    | some text => exact .inr (.inr ⟨text, rfl, rfl⟩)

theorem ValueArg.call_holds (a : ValueArg) (s : Sensor) (k : LocalLock) :
    (a.call s).holds k ↔ False := by
  rcases a.call_eq s with h | ⟨x, -, h⟩ | ⟨text, -, h⟩ <;> rw [h] <;> cases k <;> exact Iff.rfl

theorem CommandPc.step_moved {t : θ} {delivered : Bool} {v v' : View θ} {pc pc' : CommandPc}
    (h : pc.step t delivered v = some (pc', v')) (k : LocalLock) :
    Moved t (v.owner k) (v'.owner k) (pc.holds k) (pc'.holds k) := by
  cases pc with
  | returned => cases h
  | writeLevel | readMode | writeUser =>
    cases h
    cases k <;> exact .kept rfl Iff.rfl
  | storeText l =>
    cases h
    obtain ⟨value, bits⟩ := l
    cases bits <;> cases k <;> exact .kept rfl Iff.rfl
  | writeMode | testMode =>
    cases h
    split <;> cases k <;> exact .kept rfl Iff.rfl
  | notify ph a =>
    obtain ⟨⟨ph', v''⟩, hph, heq⟩ := Option.map_eq_some_iff.mp h
    obtain ⟨hcondition, -, hwrite, hlock⟩ := NotifyPhase.step_moved hph
    cases heq
    cases k with
    | condition => cases ph' <;> cases a <;> exact hcondition
    | write => cases ph' <;> cases a <;> exact .kept hwrite Iff.rfl
    | common => cases ph' <;> cases a <;> exact .kept hlock Iff.rfl
  | testType a =>
    cases h
    exact .kept rfl ((a.call_holds v.obj k).trans (by cases k <;> exact Iff.rfl))
  | store =>
    simp only [step] at h
    split at h <;> cases h <;> cases k <;> exact .kept rfl Iff.rfl
  | compute =>
    simp only [step] at h
    split at h <;> cases h <;> cases k <;> exact .kept rfl Iff.rfl
  | lockWrite c read l =>
    obtain ⟨o, ho, heq⟩ := Option.map_eq_some_iff.mp h
    obtain ⟨hfree, rfl⟩ := lockAcquire_eq_some ho
    cases heq
    cases k with
    | write => exact .taken hfree rfl trivial
    | condition | common => exact .kept rfl Iff.rfl
  | send x ph | sel ph =>
    obtain ⟨⟨ph', v''⟩, hph, heq⟩ := Option.map_eq_some_iff.mp h
    obtain ⟨hlock, -, hcondition, hwrite⟩ := SendPhase.step_moved hph
    cases heq
    cases k with
    | condition => cases ph' <;> exact .kept (congrArg Condition.owner hcondition) Iff.rfl
    | write => cases ph' <;> exact .kept hwrite Iff.rfl
    | common => cases ph' <;> exact hlock
  | bits todo ph =>
    cases todo with
    | nil =>
      cases h
      cases k with
      | write => exact .given trivial rfl not_false
      | condition | common => exact .kept rfl Iff.rfl
    | cons b rest =>
      obtain ⟨⟨ph', v''⟩, hph, heq⟩ := Option.map_eq_some_iff.mp h
      obtain ⟨hlock, -, hcondition, hwrite⟩ := SendPhase.step_moved hph
      cases heq
      cases k with
      | condition => cases ph' <;> exact .kept (congrArg Condition.owner hcondition) Iff.rfl
      | write => cases ph' <;> exact .kept hwrite Iff.rfl
      | common => cases ph' <;> cases rest <;> exact hlock

theorem CommandPc.wants_rank {pc : CommandPc} {k k' : LocalLock} (hw : pc.wants = some k)
    (hh : pc.holds k') : k'.rank < k.rank := by
  cases pc with
  | send x ph | sel ph =>
    cases ph with
    | acquire => cases k' <;> exact hh.elim
    | transmit | release => cases hw
  | bits todo ph =>
    cases todo with
    | nil => cases hw
    | cons b rest =>
      cases ph with
      | acquire =>
        cases hw
        cases k' with
        | write => decide
        | condition | common => exact hh.elim
      | transmit | release => cases hw
  | notify ph a =>
    cases ph with
    | acquire => cases k' <;> exact hh.elim
    | notify | release => cases hw
  | lockWrite => cases k' <;> exact hh.elim
  | _ => cases hw

theorem FreePhase.step_moved {t : θ} {v v' : View θ} {ph : FreePhase} {ph' : Option FreePhase}
    (h : ph.step t v = some (ph', v')) (k : LocalLock) :
    Moved t (v.owner k) (v'.owner k) (ph.holds k) (holdsNext ph' k) := by
  cases ph with
  | setMode | setQuit =>
    cases h
    cases k <;> exact .kept rfl Iff.rfl
  | notify ph =>
    obtain ⟨⟨ph', v''⟩, hph, heq⟩ := Option.map_eq_some_iff.mp h
    obtain ⟨hcondition, -, hwrite, hlock⟩ := NotifyPhase.step_moved hph
    cases heq
    cases k with
    | condition => cases ph' <;> exact hcondition
    | write => cases ph' <;> exact .kept hwrite Iff.rfl
    | common => cases ph' <;> exact .kept hlock Iff.rfl

theorem FreePhase.wants_rank {ph : FreePhase} {k k' : LocalLock} (hw : ph.wants = some k)
    (hh : ph.holds k') : k'.rank < k.rank := by
  cases ph with
  | setMode | setQuit => cases hw
  | notify ph =>
    cases ph with
    | acquire => cases k' <;> exact hh.elim
    | notify | release => cases hw

/-! ### What a step can do -/

def NotifyPhase.next : NotifyPhase → Option NotifyPhase
  | .acquire => some .notify
  | .notify => some .release
  | .release => none

theorem NotifyPhase.step_next {t : θ} {v v' : View θ} {ph : NotifyPhase} {ph' : Option NotifyPhase}
    (h : ph.step t v = some (ph', v')) : ph' = ph.next := by
  cases ph with
  | acquire =>
    obtain ⟨c, -, heq⟩ := Option.map_eq_some_iff.mp h
    cases heq
    rfl
  | notify | release =>
    cases h
    rfl

/-- The point after a point of a command, with what was read on the way. -/
inductive CommandPc.Next (obj : Sensor) : CommandPc → CommandPc → Prop where
  | leveled (l : Level) : Next obj (.writeLevel l) (.readMode (.fault l))
  | read (r : ModeRequest) : Next obj (.readMode r) (.writeMode r obj.mode)
  | wakes {r : ModeRequest} {preMode : Mode} (h : r.mode ≠ .user ∧ preMode = .user) :
      Next obj (.writeMode r preMode) (.notify .acquire none)
  | wakesNot {r : ModeRequest} {preMode : Mode} (h : ¬ (r.mode ≠ .user ∧ preMode = .user)) :
      Next obj (.writeMode r preMode) .returned
  | notifying {ph ph' : NotifyPhase} (after : Option ValueArg) (h : ph.next = some ph') :
      Next obj (.notify ph after) (.notify ph' after)
  | notified : Next obj (.notify .release none) .returned
  | notifiedFor (a : ValueArg) : Next obj (.notify .release (some a)) (.testType a)
  | auto (a : ValueArg) (h : obj.mode = .auto) : Next obj (.testMode a) (.writeUser a)
  | notAuto (a : ValueArg) (h : obj.mode ≠ .auto) : Next obj (.testMode a) (.testType a)
  | user (a : ValueArg) : Next obj (.writeUser a) (.notify .acquire (some a))
  | calls (a : ValueArg) : Next obj (.testType a) (a.call obj)
  | stored (x : Int) (h : obj.getEventType = .threshold) : Next obj (.store x) (.send x .acquire)
  | notStored (x : Int) (h : obj.getEventType ≠ .threshold) : Next obj (.store x) .returned
  | sending {ph ph' : SendPhase} (x : Int) (h : ph.next = some ph') : Next obj (.send x ph) (.send x ph')
  | sent (x : Int) : Next obj (.send x .release) .returned
  | computed {c : DiscreteCall} {l : Locked} (h : c.locked obj = .ok l) :
      Next obj (.compute c) (.lockWrite c obj.value l)
  | refused (c : DiscreteCall) : Next obj (.compute c) .returned
  | locked (c : DiscreteCall) (read : Value) (l : Locked) : Next obj (.lockWrite c read l) (.storeText l)
  | storedText (l : Locked) : Next obj (.storeText l) (.bits l.bits .acquire)
  | sendingBit {b : Nat × Int} {rest : List (Nat × Int)} {ph ph' : SendPhase} (h : ph.next = some ph') :
      Next obj (.bits (b :: rest) ph) (.bits (b :: rest) ph')
  | sentBit (b : Nat × Int) (rest : List (Nat × Int)) :
      Next obj (.bits (b :: rest) .release) (.bits rest .acquire)
  | unlocked (ph : SendPhase) : Next obj (.bits [] ph) .returned
  | logging {ph ph' : SendPhase} (h : ph.next = some ph') : Next obj (.sel ph) (.sel ph')
  | logged : Next obj (.sel .release) .returned

theorem CommandPc.step_next {t : θ} {delivered : Bool} {v v' : View θ} {pc pc' : CommandPc}
    (h : pc.step t delivered v = some (pc', v')) : pc.Next v.obj pc' := by
  cases pc with
  | returned => cases h
  | writeLevel | readMode | writeUser | testType | storeText =>
    cases h
    constructor
  | writeMode r preMode =>
    cases h
    split
    · next hwakes => exact .wakes hwakes
    · next hwakes => exact .wakesNot hwakes
  | testMode a =>
    cases h
    split
    · next hm => exact .auto a hm
    · next hm => exact .notAuto a hm
  | notify ph a =>
    obtain ⟨⟨ph', v''⟩, hph, heq⟩ := Option.map_eq_some_iff.mp h
    obtain rfl := NotifyPhase.step_next hph
    cases heq
    cases ph with
    | acquire | notify => exact .notifying a rfl
    | release => cases a <;> constructor
  | store x =>
    simp only [step, Sensor.withType] at h
    by_cases ht : v.obj.getEventType = .threshold
    · rw [if_pos ht] at h
      cases h
      exact .stored x ht
    · rw [if_neg ht] at h
      cases h
      exact .notStored x ht
  | send x ph =>
    obtain ⟨⟨ph', v''⟩, hph, heq⟩ := Option.map_eq_some_iff.mp h
    obtain rfl := SendPhase.step_next hph
    cases heq
    cases ph with
    | acquire | transmit => exact .sending x rfl
    | release => exact .sent x
  | compute c =>
    simp only [step] at h
    split at h
    · next hok =>
      cases h
      exact .computed hok
    · cases h
      exact .refused c
  | lockWrite c read l =>
    obtain ⟨o, -, heq⟩ := Option.map_eq_some_iff.mp h
    cases heq
    exact .locked c read l
  | bits todo ph =>
    cases todo with
    | nil =>
      cases h
      exact .unlocked ph
    | cons b rest =>
      obtain ⟨⟨ph', v''⟩, hph, heq⟩ := Option.map_eq_some_iff.mp h
      obtain rfl := SendPhase.step_next hph
      cases heq
      cases ph with
      | acquire | transmit => exact .sendingBit rfl
      | release => exact .sentBit b rest
  | sel ph =>
    obtain ⟨⟨ph', v''⟩, hph, heq⟩ := Option.map_eq_some_iff.mp h
    obtain rfl := SendPhase.step_next hph
    cases heq
    cases ph with
    | acquire | transmit => exact .logging rfl
    | release => exact .logged

def FreePhase.next : FreePhase → Option FreePhase
  | .setMode => some .setQuit
  | .setQuit => some (.notify .acquire)
  | .notify ph => ph.next.map FreePhase.notify

theorem FreePhase.step_next {t : θ} {v v' : View θ} {ph : FreePhase} {ph' : Option FreePhase}
    (h : ph.step t v = some (ph', v')) : ph' = ph.next := by
  cases ph with
  | setMode | setQuit =>
    cases h
    rfl
  | notify ph =>
    obtain ⟨⟨ph'', v''⟩, hph, heq⟩ := Option.map_eq_some_iff.mp h
    obtain rfl := NotifyPhase.step_next hph
    cases heq
    rfl

/-! ### Effects -/

theorem NotifyPhase.step_waiters {t : θ} {v v' : View θ} {ph : NotifyPhase} {ph' : Option NotifyPhase}
    (h : ph.step t v = some (ph', v')) : v'.condition.waiters =
      (if ph = .notify then v.condition.waiters.tail else v.condition.waiters) ∧ v'.bmc = v.bmc := by
  cases ph with
  | acquire =>
    obtain ⟨c, hc, heq⟩ := Option.map_eq_some_iff.mp h
    obtain ⟨-, rfl⟩ := Condition.acquire_eq_some hc
    cases heq
    exact ⟨rfl, rfl⟩
  | notify | release =>
    cases h
    exact ⟨rfl, rfl⟩

/-- What an action of a command writes to the sensor. -/
def CommandPc.writes (pc : CommandPc) (obj : Sensor) : Sensor :=
  match pc with
  | .writeLevel l => {obj with faultLevel := some l}
  | .writeMode r _ => {obj with mode := r.mode}
  | .writeUser _ => {obj with mode := .user}
  | .store x => if obj.getEventType = .threshold then {obj with value := .int x} else obj
  | .storeText l => {obj with value := .str l.value}
  | _ => obj

/-- The mode that it writes, if it writes one. -/
def CommandPc.writesMode : CommandPc → Option Mode
  | .writeMode r _ => some r.mode
  | .writeUser _ => some .user
  | _ => none

theorem CommandPc.writes_mode (pc : CommandPc) (obj : Sensor) :
    (pc.writes obj).mode = pc.writesMode.getD obj.mode := by
  cases pc with
  | store x =>
    simp only [writes]
    split <;> rfl
  | _ => rfl

theorem CommandPc.writes_quit (pc : CommandPc) (obj : Sensor) :
    (pc.writes obj).quit = obj.quit := by
  cases pc with
  | store x =>
    simp only [writes]
    split <;> rfl
  | _ => rfl

def CommandPc.waits (pc : CommandPc) (waiters : List θ) : List θ :=
  match pc with
  | .notify .notify _ => waiters.tail
  | _ => waiters

theorem CommandPc.mem_waits {pc : CommandPc} {t : θ} {waiters : List θ} (h : t ∈ pc.waits waiters) :
    t ∈ waiters := by
  unfold waits at h
  split at h
  · exact List.mem_of_mem_tail h
  · exact h

def CommandPc.sends (pc : CommandPc) (delivered : Bool) (bmc : Bmc) : Bmc :=
  match pc with
  | .send x .transmit => if delivered then bmc.receive (.sensorSetValue x) else bmc
  | .bits (b :: _) .transmit => if delivered then bmc.receive (.sensorSetBit b) else bmc
  | _ => bmc

theorem CommandPc.step_effect {t : θ} {delivered : Bool} {v v' : View θ} {pc pc' : CommandPc}
    (h : pc.step t delivered v = some (pc', v')) :
    v'.obj = pc.writes v.obj ∧ v'.condition.waiters = pc.waits v.condition.waiters ∧
      v'.bmc = pc.sends delivered v.bmc := by
  cases pc with
  | returned => cases h
  | writeLevel | readMode | writeMode | testMode | writeUser | testType | compute | storeText =>
    cases h
    exact ⟨rfl, rfl, rfl⟩
  | notify ph a =>
    obtain ⟨⟨ph', v''⟩, hph, heq⟩ := Option.map_eq_some_iff.mp h
    obtain ⟨-, hobj, -, -⟩ := NotifyPhase.step_moved hph
    obtain ⟨hwaiters, hbmc⟩ := NotifyPhase.step_waiters hph
    cases heq
    refine ⟨hobj, ?_, hbmc⟩
    cases ph <;> exact hwaiters
  | store x =>
    simp only [step, Sensor.withType] at h
    by_cases ht : v.obj.getEventType = .threshold
    · rw [if_pos ht] at h
      cases h
      exact ⟨(if_pos ht).symm, rfl, rfl⟩
    · rw [if_neg ht] at h
      cases h
      exact ⟨(if_neg ht).symm, rfl, rfl⟩
  | lockWrite =>
    obtain ⟨o, -, heq⟩ := Option.map_eq_some_iff.mp h
    cases heq
    exact ⟨rfl, rfl, rfl⟩
  | send x ph | sel ph =>
    obtain ⟨⟨ph', v''⟩, hph, heq⟩ := Option.map_eq_some_iff.mp h
    obtain ⟨-, hobj, hcondition, -⟩ := SendPhase.step_moved hph
    have hbmc := SendPhase.step_bmc hph
    cases heq
    refine ⟨hobj, congrArg Condition.waiters hcondition, ?_⟩
    cases ph <;> cases delivered <;> exact hbmc
  | bits todo ph =>
    cases todo with
    | nil =>
      cases h
      exact ⟨rfl, rfl, rfl⟩
    | cons b rest =>
      obtain ⟨⟨ph', v''⟩, hph, heq⟩ := Option.map_eq_some_iff.mp h
      obtain ⟨-, hobj, hcondition, -⟩ := SendPhase.step_moved hph
      have hbmc := SendPhase.step_bmc hph
      cases heq
      refine ⟨hobj, congrArg Condition.waiters hcondition, ?_⟩
      cases ph <;> cases delivered <;> exact hbmc

def FreePhase.writes (ph : FreePhase) (obj : Sensor) : Sensor :=
  match ph with
  | .setMode => {obj with mode := .user}
  | .setQuit => {obj with quit := true}
  | .notify _ => obj

def FreePhase.waits (ph : FreePhase) (waiters : List θ) : List θ :=
  match ph with
  | .notify .notify => waiters.tail
  | _ => waiters

theorem FreePhase.mem_waits {ph : FreePhase} {t : θ} {waiters : List θ} (h : t ∈ ph.waits waiters) :
    t ∈ waiters := by
  unfold waits at h
  split at h
  · exact List.mem_of_mem_tail h
  · exact h

theorem FreePhase.step_effect {t : θ} {v v' : View θ} {ph : FreePhase} {ph' : Option FreePhase}
    (h : ph.step t v = some (ph', v')) :
    v'.obj = ph.writes v.obj ∧ v'.condition.waiters = ph.waits v.condition.waiters ∧
      v'.bmc = v.bmc := by
  cases ph with
  | setMode | setQuit =>
    cases h
    exact ⟨rfl, rfl, rfl⟩
  | notify ph =>
    obtain ⟨⟨ph', v''⟩, hph, heq⟩ := Option.map_eq_some_iff.mp h
    obtain ⟨-, hobj, -, -⟩ := NotifyPhase.step_moved hph
    obtain ⟨hwaiters, hbmc⟩ := NotifyPhase.step_waiters hph
    cases heq
    refine ⟨hobj, ?_, hbmc⟩
    cases ph <;> exact hwaiters

end Idic.IpmiSim
