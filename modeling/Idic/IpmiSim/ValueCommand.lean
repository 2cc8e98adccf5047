import Idic.IpmiSim.Coefficients
import Idic.IpmiSim.CommandFrame
import Idic.IpmiSim.Delivery

/-! What `sensor value set` does.

The command finds its sensor, leaves auto mode, and only then looks at the value. The
value to store and the commands to send are worked out by `Sensor.assigned`;
`setSensorValue_run` is the whole command in terms of it. A refused value changes
nothing unless the mode had to be left (`refused_unchanged_iff`), and the form with a
state, which the command's documentation lists, is refused like any other command of
four arguments (`stateForm_iff`). -/
namespace Idic.IpmiSim
open Python Effect Sim

/-! ### Running the handlers -/

section Runs
variable {σ : Type} {sim : Sim σ} {strNum : Str} {i : σ}

theorem getSensorInstance_some (h : sim.named strNum = some i) :
    (getSensorInstance strNum).run sim = (.ok (some i), sim) := by
  have hreturns := getSensorInstance_returns strNum sim
  rw [h] at hreturns
  unfold getSensorInstance at hreturns ⊢
  split at hreturns
  · cases hreturns
  · next sensorId hnum =>
    rw [gets_bind] at hreturns ⊢
    cases hfind : sim.find sensorId 0x20 with
    | none =>
      rw [hfind] at hreturns
      cases hreturns
    | some j =>
      rw [hfind] at hreturns
      cases hreturns
      rfl

/-- The sensor of a number is in the map. -/
theorem named_eq (sim : Sim σ) (strNum : Str) : sim.named strNum =
    match intBase16 strNum with
    | .error _ => none
    | .ok sensorId => sim.find sensorId 0x20 := by
  unfold Sim.named getSensorInstance
  cases intBase16 strNum with
  | error e => rfl
  | ok sensorId =>
    simp only [gets_bind]
    cases sim.find sensorId 0x20 with
    | none => rfl
    | some j => rfl

theorem named_congr {sim' : Sim σ} (h : sim'.sensorIdMap = sim.sensorIdMap) (strNum : Str) :
    sim'.named strNum = sim.named strNum := by
  rw [named_eq, named_eq]
  unfold Sim.find
  rw [h]

theorem withSensor_some (h : sim.named strNum = some i) (body : σ → Handler σ Unit) :
    (withSensor strNum body).run sim = (body i).run sim := by
  rw [withSensor, run_bind, getSensorInstance_some h]

/-- Without a sensor there is nothing more to do. -/
theorem withSensor_none_run (h : sim.named strNum = none)
    (body : σ → Handler σ Unit) :
    (withSensor strNum body).run sim = (.ok (), ((getSensorInstance strNum).run sim).2) := by
  have hreturns := getSensorInstance_returns strNum sim
  rw [withSensor, run_bind]
  rcases hrun : (getSensorInstance strNum).run sim with ⟨r, sim'⟩
  rw [hrun, h] at hreturns
  cases hreturns
  rfl

/-- At most a message has been put. -/
theorem withSensor_none (h : sim.named strNum = none) (body : σ → Handler σ Unit) :
    sim.Quiet ((withSensor strNum body).run sim).2 := by
  rw [withSensor_none_run h]
  exact getSensorInstance_keeps putMsg_quiet strNum sim

theorem sendCommands_run {α : Type} (f : α → SimCommand) (as : List α) (sim : Sim σ) :
    (Effect.each (fun a => sendCommand (f a)) as).run sim =
      (.ok (), {sim with sent := sim.sent ++ as.map f}) := by
  induction as generalizing sim with
  | nil => simp [Effect.each]
  | cons a rest ih =>
    have hnext := ih {sim with sent := sim.sent ++ [f a]}
    rw [Effect.each]
    show (Effect.each _ rest).run {sim with sent := sim.sent ++ [f a]} = _
    rw [hnext, List.append_assoc]
    rfl

variable [DecidableEq σ]

theorem setThresholdValue_run (h : (sim.obj i).getEventType = .threshold) (n : Int) :
    (setThresholdValue i n).run sim = (.ok (), {sim with
      obj := Function.update sim.obj i {sim.obj i with value := .int n}
      sent := sim.sent ++ [.sensorSetValue (sim.obj i).mc (sim.obj i).lun (sim.obj i).ID n]}) := by
  rw [setThresholdValue, objOf, gets_bind, Sensor.withType, if_pos h, lift_ok_bind]
  rfl

/-- The commands of the bits that are to be sent. -/
def Sensor.bitCommands (s : Sensor) (bits : List (Nat × Int)) : List SimCommand :=
  bits.map fun bit => .sensorSetBit s.mc s.lun s.ID bit.1 bit.2

theorem setDiscreteValue_run {text : Str} {l : Locked} (h : (sim.obj i).setDiscreteValue text = .ok l) :
    (setDiscreteValue i text).run sim = (.ok (), {sim with
      obj := Function.update sim.obj i {sim.obj i with value := .str l.value}
      sent := sim.sent ++ (sim.obj i).bitCommands l.bits}) := by
  rw [setDiscreteValue, objOf, gets_bind, h, lift_ok_bind]
  exact sendCommands_run _ _ _

theorem setDiscreteValue_error {text : Str} {e : PyError} (h : (sim.obj i).setDiscreteValue text = .error e) :
    (setDiscreteValue i text).run sim = (.error e, sim) := by
  rw [setDiscreteValue, objOf, gets_bind, h]
  rfl

end Runs

/-! ### The value that is stored -/

/-- The value that is stored for a text, and the commands for the BMC, if it gets so
far. -/
def Sensor.assigned (fl : Floats) (s : Sensor) (text : Str) : Option (Value × List SimCommand) :=
  match s.getEventType with
  | .threshold => do
    let x ← fl.ofText text
    let r ← s.getReadingFactor.toOption
    let n ← (fl.rawValue r x).toOption
    return (.int n, [.sensorSetValue s.mc s.lun s.ID n])
  | .discrete => do
    let w ← (ValueArg.mk text none).word
    let l ← (s.setDiscreteValue w).toOption
    return (.str l.value, s.bitCommands l.bits)
  | .NA => none

/-- Modes and recorded values are as before, and nothing has been sent. -/
structure Sim.Unchanged {σ : Type} (sim sim' : Sim σ) : Prop where
  mode : ∀ i, (sim'.obj i).mode = (sim.obj i).mode
  value : ∀ i, (sim'.obj i).value = (sim.obj i).value
  sent : sim'.sent = sim.sent

theorem Sim.Quiet.unchanged {σ : Type} {sim sim' : Sim σ} (h : sim.Quiet sim') : sim.Unchanged sim' :=
  ⟨fun i => by rw [h.obj], fun i => by rw [h.obj], h.sent⟩

section Assign
variable {σ : Type} [DecidableEq σ] (py : Interpreter σ) {sim : Sim σ} {i : σ} {text : Str}

/-- A value that is stored is stored with its commands sent, and nothing else is done. -/
theorem assignValue_some {value : Value} {commands : List SimCommand}
    (h : (sim.obj i).assigned py.floats text = some (value, commands)) :
    (assignValue py i text).run sim = (.ok (), {sim with
      obj := Function.update sim.obj i {sim.obj i with value := value}
      sent := sim.sent ++ commands}) := by
  rw [assignValue, objOf, gets_bind]
  unfold Sensor.assigned at h
  cases hty : (sim.obj i).getEventType with
  | threshold =>
    simp only [hty, Option.bind_eq_bind, Option.bind_eq_some_iff, toOption_eq_some] at h
    obtain ⟨x, hx, r, hr, n, hn, heq⟩ := h
    cases heq
    simp only [hx, hr, hn, lift_ok_bind]
    exact setThresholdValue_run hty n
  | discrete =>
    simp only [hty, Option.bind_eq_bind, Option.bind_eq_some_iff, toOption_eq_some] at h
    obtain ⟨w, hw, l, hl, heq⟩ := h
    cases heq
    simp only [hw]
    exact setDiscreteValue_run hl
  | NA =>
    rw [hty] at h
    cases h

/-- A value that is not stored leaves no trace but a message. -/
theorem assignValue_none (h : (sim.obj i).assigned py.floats text = none) :
    sim.Quiet ((assignValue py i text).run sim).2 := by
  rw [assignValue, objOf, gets_bind]
  unfold Sensor.assigned at h
  cases hty : (sim.obj i).getEventType with
  | threshold =>
    simp only [hty] at h
    cases hx : py.floats.ofText text with
    | none => exact putMsg_quiet _ sim
    | some x =>
      cases hr : (sim.obj i).getReadingFactor with
      | error e => exact ⟨rfl, rfl, rfl⟩
      | ok r =>
        cases hn : py.floats.rawValue r x with
        | error e => simp only [lift_ok_bind, hn, lift_error_bind]; exact ⟨rfl, rfl, rfl⟩
        | ok n => simp [hx, hr, hn, Except.toOption] at h
  | discrete =>
    simp only [hty] at h
    cases hw : (ValueArg.mk text none).word with
    | none => exact putMsg_quiet _ sim
    | some w =>
      cases hl : (sim.obj i).setDiscreteValue w with
      | error e =>
        simp only
        rw [setDiscreteValue_error hl]
        exact ⟨rfl, rfl, rfl⟩
      | ok l => simp [hw, hl, Except.toOption] at h
  | NA => exact ⟨rfl, rfl, rfl⟩

/-! ### The command -/

/-- The sensor as it is when its value is looked at. -/
def Sensor.leaveAuto (s : Sensor) : Sensor := if s.mode = .auto then {s with mode := .user} else s

/-- The state in which the value is looked at. -/
def Sim.leaveAuto (sim : Sim σ) (i : σ) : Sim σ :=
  {sim with obj := Function.update sim.obj i (sim.obj i).leaveAuto}

@[simp] theorem Sim.leaveAuto_obj (sim : Sim σ) (i : σ) : (sim.leaveAuto i).obj i = (sim.obj i).leaveAuto :=
  Function.update_self ..

theorem Sim.leaveAuto_of_ne (h : (sim.obj i).mode ≠ .auto) : sim.leaveAuto i = sim := by
  rw [leaveAuto, Sensor.leaveAuto, if_neg h, Function.update_eq_self]

/-- The mode has no part in what is stored. -/
theorem Sensor.leaveAuto_assigned (fl : Floats) (s : Sensor) (text : Str) :
    s.leaveAuto.assigned fl text = s.assigned fl text := by
  unfold leaveAuto
  split <;> rfl

/-- The command on a sensor that there is. -/
theorem setSensorValue_run {strNum : Str} (h : sim.named strNum = some i) (text : Str) :
    (setSensorValue py [strNum, text]).run sim = (assignValue py i text).run (sim.leaveAuto i) := by
  rw [setSensorValue, withSensor_some h, objOf, gets_bind]
  by_cases hauto : (sim.obj i).mode = .auto
  · rw [if_pos hauto, Sim.leaveAuto, Sensor.leaveAuto, if_pos hauto]
    rfl
  · rw [if_neg hauto, Sim.leaveAuto_of_ne hauto]

/-- The command ends in a stored value. -/
def Stores (sim : Sim σ) (args : List Str) : Prop :=
  ∃ strNum text i, args = [strNum, text] ∧ sim.named strNum = some i ∧
    ((sim.obj i).assigned py.floats text).isSome

/-- The command is for a sensor in auto mode. -/
def LeavesAuto (sim : Sim σ) (args : List Str) : Prop :=
  ∃ strNum text i, args = [strNum, text] ∧ sim.named strNum = some i ∧ (sim.obj i).mode = .auto

/-- A command that stores a value stores it. -/
theorem setSensorValue_stores {strNum : Str} (h : sim.named strNum = some i) {value : Value}
    {commands : List SimCommand} (hassigned : (sim.obj i).assigned py.floats text = some (value, commands)) :
    ((setSensorValue py [strNum, text]).run sim).1 = .ok () ∧
    (((setSensorValue py [strNum, text]).run sim).2.obj i).value = value ∧
    ((setSensorValue py [strNum, text]).run sim).2.sent = sim.sent ++ commands := by
  have hleft : ((sim.leaveAuto i).obj i).assigned py.floats text = some (value, commands) := by
    rw [Sim.leaveAuto_obj, Sensor.leaveAuto_assigned, hassigned]
  rw [setSensorValue_run py h, assignValue_some py hleft]
  exact ⟨rfl, by simp, rfl⟩

end Assign

/-- **When a refused value changes nothing.** For every state, every argument list
and every reason for which the command stores no value: modes, recorded values and
BMC are as before exactly when the command was not for a sensor in auto mode. -/
theorem refused_unchanged_iff {σ : Type} [DecidableEq σ] (py : Interpreter σ) (sim : Sim σ) (args : List Str)
    (hrefused : ¬ Stores py sim args) :
    sim.Unchanged ((setSensorValue py args).run sim).2 ↔ ¬ LeavesAuto sim args := by
  by_cases hnamed : ∃ strNum text i, args = [strNum, text] ∧ sim.named strNum = some i
  · obtain ⟨strNum, text, i, hargs, hi⟩ := hnamed
    subst hargs
    have hnone : (sim.obj i).assigned py.floats text = none :=
      Option.not_isSome_iff_eq_none.mp fun hsome => hrefused ⟨_, _, _, rfl, hi, hsome⟩
    have hleft : ((sim.leaveAuto i).obj i).assigned py.floats text = none := by
      rw [Sim.leaveAuto_obj, Sensor.leaveAuto_assigned, hnone]
    have hquiet := assignValue_none py hleft
    rw [setSensorValue_run py hi]
    by_cases hauto : (sim.obj i).mode = .auto
    · refine iff_of_false (fun hunchanged => ?_) (not_not.mpr ⟨_, _, _, rfl, hi, hauto⟩)
      have hmode := hunchanged.mode i
      rw [hquiet.obj, Sim.leaveAuto_obj, Sensor.leaveAuto, if_pos hauto, hauto] at hmode
      cases hmode
    · rw [Sim.leaveAuto_of_ne hauto] at hquiet ⊢
      refine iff_of_true hquiet.unchanged fun hleaves => ?_
      obtain ⟨_, _, j, heq, hj, hmode⟩ := hleaves
      cases heq
      cases hi.symm.trans hj
      exact hauto hmode
  · have hleaves : ¬ LeavesAuto sim args :=
      fun ⟨strNum, text, i, hargs, hi, _⟩ => hnamed ⟨strNum, text, i, hargs, hi⟩
    refine iff_of_true ?_ hleaves
    unfold setSensorValue
    split
    · next strNum text =>
      cases hi : sim.named strNum with
      | none => exact (withSensor_none hi _).unchanged
      | some i => exact absurd ⟨_, _, _, rfl, hi⟩ hnamed
    · exact (putMsg_quiet _ sim).unchanged

open Sdr in
/-- The 1.5 V sensor has been set to auto mode. -/
def autoState : Sim (Fin voltageState.sensorList.length) :=
  ((handleCommand (plainInterpreter _) "sensor mode set 0xd8 auto".toList).run (boot voltageState)).2

/-- A number that is none. -/
def badValue : List Str := ["0xd8".toList, "abc".toList]

theorem badValue_refused : ¬ Stores (plainInterpreter _) autoState badValue := by
  have hthreshold : ∀ i, (autoState.obj i).getEventType = .threshold := by decide +kernel
  intro hstores
  obtain ⟨_, text, i, -, -, hsome⟩ := hstores
  rw [Sensor.assigned, hthreshold i] at hsome
  cases hsome

theorem refused_unchanged_iff_badValue :
    autoState.Unchanged ((setSensorValue (plainInterpreter _) badValue).run autoState).2 ↔
      ¬ LeavesAuto autoState badValue :=
  refused_unchanged_iff (plainInterpreter _) autoState badValue badValue_refused

open Sdr in
/-- The number is refused, and the sensor has left auto mode. -/
theorem badValue_leavesAuto : autoState.Reachable (plainInterpreter _) ∧
    ¬ Stores (plainInterpreter _) autoState badValue ∧
    (∀ i, (autoState.obj i).mode = .auto ∧
      (((setSensorValue (plainInterpreter _) badValue).run autoState).2.obj i).mode = .user) ∧
    ¬ autoState.Unchanged ((setSensorValue (plainInterpreter _) badValue).run autoState).2 := by
  have hmode : ∀ i, (autoState.obj i).mode = .auto ∧
      (((setSensorValue (plainInterpreter _) badValue).run autoState).2.obj i).mode = .user := by
    decide +kernel
  refine ⟨.line (.initial (boot_initial voltageRecord_parsed)) _, badValue_refused, hmode, fun hunchanged => ?_⟩
  have hsame := hunchanged.mode ⟨0, by decide⟩
  rw [(hmode _).1, (hmode _).2] at hsame
  cases hsame

/-! ### The form with a state -/

/-- The state and the bit of the documented form `state <state id> 1|0`. -/
def stateForm (keyword idText bitText : Str) : Option (Fin 15 × Bool) :=
  if keyword = "state".toList then
    match intBase10 idText with
    | .error _ => none
    | .ok k =>
      if h : k.toNat < 15 ∧ 0 ≤ k then
        if bitText = "1".toList then some (⟨k.toNat, h.1⟩, true)
        else if bitText = "0".toList then some (⟨k.toNat, h.1⟩, false)
        else none
      else none
  else none

section StateForm
variable {σ : Type} [DecidableEq σ]

/-- A state of the recorded word has been set, and nothing else. -/
structure SetsState (sim sim' : Sim σ) (i : σ) (k : Fin 15) (b : Bool) : Prop where
  recorded : ∃ w : WordText, (sim'.obj i).value = .str w.text ∧
    ∀ j < 16, stateOf w.text j = if j = k.val then b else (sim.obj i).value.states j
  sent : sim'.sent = sim.sent ++ [.sensorSetBit (sim.obj i).mc (sim.obj i).lun (sim.obj i).ID k.val
    (if b then 1 else 0)]

/-- The documented form sets its state; any other form of four arguments does nothing. -/
def StateFormWorks (py : Interpreter σ) (sim : Sim σ) (i : σ) (strNum keyword idText bitText : Str) : Prop :=
  let sim' := ((handleSensorCommand py ("value".toList :: "set".toList ::
    [strNum, keyword, idText, bitText])).run sim).2
  match stateForm keyword idText bitText with
  | some (k, b) => SetsState sim sim' i k b
  | none => sim'.obj = sim.obj ∧ sim'.sent = sim.sent

/-- Four arguments get as far as the count of them. -/
theorem fourArguments_run (py : Interpreter σ) (sim : Sim σ) (strNum keyword idText bitText : Str) :
    (handleSensorCommand py ("value".toList :: "set".toList :: [strNum, keyword, idText, bitText])).run sim =
      (putMsg sensorValueDoc).run sim := by
  have hvalue : "value".toList ≠ "info".toList ∧ "value".toList ≠ "mode".toList := by decide
  rw [handleSensorCommand, if_neg hvalue.1, if_neg hvalue.2, if_pos rfl, handleSensorValue, if_pos rfl]
  rfl

end StateForm

/-- **When the form with a state works.** For every sensor, whatever it has recorded,
and every four arguments: what is documented for them is done exactly when they are
not of the documented form, so that nothing is to be done. -/
theorem stateForm_iff {σ : Type} [DecidableEq σ] (py : Interpreter σ) (sim : Sim σ) (i : σ)
    (strNum keyword idText bitText : Str) :
    StateFormWorks py sim i strNum keyword idText bitText ↔ stateForm keyword idText bitText = none := by
  unfold StateFormWorks
  rw [fourArguments_run]
  cases hform : stateForm keyword idText bitText with
  | none => exact iff_of_true ⟨rfl, rfl⟩ rfl
  | some request =>
    refine iff_of_false (fun hsets => ?_) nofun
    have hlength := congrArg List.length hsets.sent
    rw [List.length_append, List.length_singleton] at hlength
    exact absurd hlength (Nat.ne_of_lt (Nat.lt_succ_self _))

open Sdr in
/-- State 0 of a discrete sensor is to be set, as the documentation has it, and stays
as it was. -/
theorem temperatureSensor_stateKept :
    (boot temperatureState).named "0x31".toList = some ⟨0, by decide⟩ ∧
    ((boot temperatureState).obj ⟨0, by decide⟩).getEventType = .discrete ∧
    WellFormed "0x0080".toList ∧
    ((boot temperatureState).obj ⟨0, by decide⟩).value = .str "0x0080".toList ∧
    stateForm "state".toList "0".toList "1".toList = some (⟨0, by decide⟩, true) ∧
    ¬ StateFormWorks (plainInterpreter _) (boot temperatureState) ⟨0, by decide⟩
      "0x31".toList "state".toList "0".toList "1".toList := by
  have hform : stateForm "state".toList "0".toList "1".toList = some (⟨0, by decide⟩, true) := by
    decide +kernel
  refine ⟨by decide +kernel, by decide +kernel, by decide, by decide +kernel, hform, fun hworks => ?_⟩
  rw [StateFormWorks, fourArguments_run, hform] at hworks
  exact absurd hworks.sent (by decide +kernel)

end Idic.IpmiSim
