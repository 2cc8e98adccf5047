import Idic.IpmiSim.CommandHandler
import Idic.IpmiSim.LostUpdate
import Idic.IpmiSim.SdrSensors

/-! What a sensor's recorded value looks like.

A threshold sensor records an integer and a discrete one a word's text: that is
what `Sensor.Shaped` asks, and what every request on the sensor relies on. No
command that is given at the prompt and no turn of a thread breaks it
(`shaped_moves`). The first reading can: `shaped_iff` says for which replies of
the tool the values have their shape from the start and for ever. -/
namespace Idic.IpmiSim
open Python Threads

/-! ### Shapes -/

/-- An integer for a threshold sensor, a word's text for a discrete one. -/
def Sensor.Shaped (s : Sensor) : Prop :=
  match s.getEventType with
  | .threshold => ∃ n, s.value = .int n
  | .discrete => ∃ v : WordText, s.value = .str v.text
  | .NA => True

/-- No request fails on account of the recorded value. -/
def Sensor.Operable (s : Sensor) : Prop :=
  s.getEventType = .discrete → ∀ r : Request, (r.locked s).isOk = true

theorem Sensor.Shaped.operable {s : Sensor} (h : s.Shaped) : s.Operable := by
  intro hdiscrete r
  unfold Shaped at h
  rw [hdiscrete] at h
  obtain ⟨v, hv⟩ := h
  obtain ⟨new, hlocked, -⟩ := r.locked_eq s v hdiscrete hv
  rw [hlocked]
  rfl

/-- Another value of the right kind keeps the shape. -/
theorem Sensor.shaped_of_eq {s s' : Sensor} (h : s.Shaped) (hty : s'.getEventType = s.getEventType)
    (hvalue : s'.value = s.value) : s'.Shaped := by
  unfold Shaped at h ⊢
  rw [hty, hvalue]
  exact h

theorem Sensor.shaped_int {s : Sensor} (hty : s.getEventType = .threshold) {n : Int}
    (hvalue : s.value = .int n) : s.Shaped := by
  rw [Shaped, hty]
  exact ⟨n, hvalue⟩

theorem Sensor.shaped_word {s : Sensor} (hty : s.getEventType = .discrete) {text : Str}
    (hvalue : s.value = .str text) (h : WellFormed text) : s.Shaped := by
  rw [Shaped, hty]
  exact ⟨⟨text, h⟩, hvalue⟩

/-! ### Commands from the prompt -/

/-- What the command handler starts: a word that it is given has no blanks. -/
def Command.FromPrompt : Command → Prop
  | .modeSet _ | .selSet _ => True
  | .valueSet a => ∀ c ∈ a.text, isSpace c = false
  | .threshold _ | .discrete _ => False

def Event.FromPrompt {σ ι : Type} : Event σ ι → Prop
  | .begin _ _ c => c.FromPrompt
  | _ => True

/-- What a session carries to a write of the sensor. -/
def CommandPc.Shaped : CommandPc → Prop
  | .testMode a | .writeUser a | .testType a | .notify _ (some a) => ∀ c ∈ a.text, isSpace c = false
  | .compute c => c.Documented
  | .lockWrite _ _ l | .storeText l => WellFormed l.value
  | _ => True

theorem Command.FromPrompt.start {c : Command} (h : c.FromPrompt) : c.start.Shaped := by
  cases c with
  | modeSet r => cases r <;> trivial
  | selSet checked => cases checked <;> trivial
  | valueSet a => exact h
  | threshold | discrete => exact h.elim

/-- What a documented request works out from a word is a word. -/
theorem DiscreteCall.locked_wellFormed {c : DiscreteCall} {s : Sensor} {l : Locked} (hdoc : c.Documented)
    (hs : s.Shaped) (h : c.locked s = .ok l) : WellFormed l.value := by
  have hdiscrete := DiscreteCall.locked_ok h
  rw [Sensor.Shaped, hdiscrete] at hs
  obtain ⟨old, hold⟩ := hs
  obtain ⟨r, -, hlocked⟩ := locked_request hdoc h
  obtain ⟨new, heq, -⟩ := r.locked_eq s old hdiscrete hold
  rw [Except.ok.inj (hlocked.symm.trans heq)]
  exact new.wellFormed

theorem CommandPc.Next.shaped {obj : Sensor} {pc pc' : CommandPc} (h : pc.Next obj pc') (hobj : obj.Shaped)
    (hpc : pc.Shaped) : pc'.Shaped := by
  cases h with
  | notifying after =>
    cases after with
    | none => trivial
    | some a => exact hpc
  | notifiedFor | auto | notAuto | user | locked => exact hpc
  | calls a =>
    rcases a.call_eq obj with hcall | ⟨x, -, hcall⟩ | ⟨text, htext, hcall⟩ <;> rw [hcall]
    · trivial
    · trivial
    · exact ValueArg.word_documented hpc htext
  | computed hok => exact DiscreteCall.locked_wellFormed hpc hobj hok
  | _ => trivial

/-- What an action of a command writes keeps the shape. -/
theorem CommandPc.Shaped.writes {obj : Sensor} {pc : CommandPc} (hpc : pc.Shaped)
    (hfits : pc.Fits obj.getEventType) (hobj : obj.Shaped) : (pc.writes obj).Shaped := by
  cases pc with
  | store x =>
    simp only [CommandPc.writes]
    split
    · next hthreshold => exact Sensor.shaped_int hthreshold rfl
    · exact hobj
  | storeText l => exact Sensor.shaped_word hfits rfl hpc
  | _ => exact Sensor.shaped_of_eq hobj rfl rfl

theorem ThreadPc.writes_shaped {obj : Sensor} (pc : ThreadPc) (hthreshold : obj.getEventType = .threshold)
    (hobj : obj.Shaped) : (pc.writes obj).Shaped := by
  cases pc with
  | store x => exact Sensor.shaped_int hthreshold rfl
  | _ => exact Sensor.shaped_of_eq hobj rfl rfl

/-! ### The invariant -/

namespace Spot
variable {σ ι : Type}

structure Shaped (p : Spot σ ι) : Prop where
  obj : p.shared.obj.Shaped
  session : ∀ i, (p.session i).Shaped

variable [DecidableEq σ] [DecidableEq ι]

theorem shaped_moves {listed : Prop} {s : σ} {e : Event σ ι} {p p' : Spot σ ι} (hsane : p.Sane s)
    (h : p.Shaped) (hprompt : e.FromPrompt) (hm : p.Moves listed s e p') : p'.Shaped := by
  cases hm with
  | thread hstep =>
    have hthreshold : p.shared.obj.getEventType = .threshold := by
      by_contra hne
      rw [hsane.typed.thread hne] at hstep
      cases hstep
    obtain ⟨hobj, -, -⟩ := ThreadPc.step_effect hstep
    exact ⟨hobj ▸ ThreadPc.writes_shaped _ hthreshold h.obj, h.session⟩
  | timeout | elsewhere => exact ⟨h.obj, h.session⟩
  | begin c =>
    refine ⟨h.obj, ?_⟩
    rw [Function.forall_update_iff _ fun _ pc => CommandPc.Shaped pc]
    exact ⟨hprompt.start, fun j _ => h.session j⟩
  | @session i _ _ _ _ hstep =>
    obtain ⟨hobj, -, -⟩ := CommandPc.step_effect hstep
    refine ⟨hobj ▸ (h.session i).writes (hsane.typed.session i) h.obj, ?_⟩
    rw [Function.forall_update_iff _ fun _ pc => CommandPc.Shaped pc]
    exact ⟨(CommandPc.step_next hstep).shaped h.obj (h.session i), fun j _ => h.session j⟩
  | @mainTurn ph _ _ _ _ hstep | @mainLeaves ph _ _ _ _ hstep =>
    obtain ⟨hobj, -, -⟩ := FreePhase.step_effect hstep
    refine ⟨?_, h.session⟩
    rw [hobj]
    cases ph <;> exact Sensor.shaped_of_eq h.obj rfl rfl

end Spot

/-! ### First readings -/

namespace Sdr

/-- The third and the fourth word of the reply make up two bytes in hexadecimal. -/
def StateBytes (reply : Reply) : Prop :=
  ∃ text low high, reply = .stdout text ∧ (split text)[2]? = some low ∧ (split text)[3]? = some high ∧
    (low ++ high).length = 4 ∧ AllHexDigits (low ++ high)

/-- The reading request of every discrete sensor among the records is answered with
its state bytes, when `requests` requests have been made before. -/
def StatesAnswered (ipmitool : Ipmitool) (file : List UInt8) : Nat → List Nat → Prop
  | _, [] => True
  | requests, start :: rest =>
    if byteOf file start 13 = 0x0 then StatesAnswered ipmitool file requests rest
    else (byteOf file start 13 ≠ 0x1 →
        StateBytes (ipmitool requests (readingRequest (byteOf file start 7)))) ∧
      StatesAnswered ipmitool file (requests + 1) rest

theorem wellFormed_bytes_iff (low high : Str) : WellFormed ("0x".toList ++ low ++ high) ↔
    (low ++ high).length = 4 ∧ AllHexDigits (low ++ high) := by
  rw [List.append_assoc]
  constructor
  · intro h
    have hlength := h.length
    rw [List.length_append] at hlength
    have htwo : "0x".toList.length = 2 := rfl
    exact ⟨by omega, h.digits⟩
  · intro hboth
    obtain ⟨hlength, hdigits⟩ := hboth
    refine ⟨?_, rfl, hdigits⟩
    rw [List.length_append, hlength]
    rfl

theorem index_eq_ok {α : Type} {l : List α} {i : Nat} {a : α} : index l i = .ok a ↔ l[i]? = some a := by
  unfold index
  cases l[i]? with
  | none => exact ⟨fun h => (by cases h), fun h => (by cases h)⟩
  | some b => exact ⟨fun h => congrArg some (Except.ok.inj h), fun h => congrArg Except.ok (Option.some.inj h)⟩

/-- A first reading of a threshold sensor is an integer, failed or not. -/
theorem readSensorRawValue_threshold (reply : Reply) :
    Ensures (readSensorRawValue reply .threshold) fun value => ∃ n, value = .int n := by
  cases reply with
  | failed => exact Ensures.pure ⟨0, rfl⟩
  | stdout text => exact Ensures.bind _ fun _ => Ensures.bind _ fun n => Ensures.pure ⟨n, rfl⟩

theorem readSensorRawValue_discrete {reply : Reply} {value : Value}
    (h : readSensorRawValue reply .discrete = .ok value) :
    (∃ v : WordText, value = .str v.text) ↔ StateBytes reply := by
  cases reply with
  | failed =>
    cases h
    constructor
    · intro hsome
      obtain ⟨v, hv⟩ := hsome
      cases hv
    · intro hsome
      obtain ⟨text, low, high, hreply, -⟩ := hsome
      cases hreply
  | stdout text =>
    simp only [readSensorRawValue, bind_eq_ok, index_eq_ok] at h
    obtain ⟨low, hlow, high, hhigh, hvalue⟩ := h
    cases hvalue
    constructor
    · intro hsome
      obtain ⟨v, hv⟩ := hsome
      have hformat := v.wellFormed
      rw [← Value.str.inj hv, wellFormed_bytes_iff] at hformat
      exact ⟨text, low, high, rfl, hlow, hhigh, hformat⟩
    · intro hsome
      obtain ⟨text', low', high', hreply, hlow', hhigh', hformat⟩ := hsome
      cases hreply
      cases hlow.symm.trans hlow'
      cases hhigh.symm.trans hhigh'
      exact ⟨⟨_, (wellFormed_bytes_iff low high).mpr hformat⟩, rfl⟩

theorem sensorAt_eventType (file : List UInt8) (start : Nat) (value : Value) :
    (sensorAt file start value).getEventType = if byteOf file start 13 = 0x0 then .NA
      else if byteOf file start 13 = 0x1 then .threshold else .discrete := rfl

/-- The sensors that are built have their shape exactly when the tool says so. -/
theorem Built.sensors_shaped_iff {ipmitool : Ipmitool} {file : List UInt8} {requests : Nat} {starts : List Nat}
    {sensors : List Sensor} (h : Built ipmitool file requests starts sensors) :
    (∀ s ∈ sensors, s.Shaped) ↔ StatesAnswered ipmitool file requests starts := by
  induction h with
  | nil => exact ⟨fun _ => trivial, fun _ _ h => nomatch h⟩
  | @cons requests asked start starts value sensors hvalue _ ih =>
    have hty := sensorAt_eventType file start value
    rw [List.forall_mem_cons, ih, StatesAnswered]
    unfold initialValue at hvalue
    by_cases hna : byteOf file start 13 = 0x0
    · rw [if_pos hna] at hvalue hty ⊢
      cases hvalue
      simp only [Sensor.Shaped, hty, true_and, Nat.add_zero]
    · rw [if_neg hna] at hvalue hty ⊢
      obtain ⟨reading, hreading, heq⟩ := map_eq_ok.mp hvalue
      cases heq
      refine and_congr_left fun _ => ?_
      by_cases hthreshold : byteOf file start 13 = 0x1
      · rw [if_pos hthreshold] at hreading hty
        simp only [Sensor.Shaped, hty, hthreshold, ne_eq, not_true_eq_false, false_implies, iff_true]
        exact readSensorRawValue_threshold _ _ hreading
      · rw [if_neg hthreshold] at hreading hty
        simp only [Sensor.Shaped, hty, ne_eq, hthreshold, not_false_eq_true, true_implies]
        exact readSensorRawValue_discrete hreading

end Sdr

/-- The simulator that comes up with the sensors of a dump. -/
def simulator (ι : Type) [DecidableEq ι] (st : Sdr.State) :
    System (World (Fin st.sensorList.length) ι) (Event (Fin st.sensorList.length) ι) :=
  (system _ ι (List.finRange st.sensorList.length)).startingIn fun w =>
    ∀ s, (w.shared s).obj = st.sensorList.get s

/-- **When recorded values keep their shape.** For every dump and every sequence of
replies that `parse_sdrs` gets through: in every run, whatever is typed at the
prompt, all values have their shape, and no request fails on their account, exactly
when the reading request of every discrete sensor was answered with state bytes. -/
theorem shaped_iff (ι : Type) [DecidableEq ι] (ipmitool : Sdr.Ipmitool) (file : List UInt8)
    (st : Sdr.State) (h : Sdr.parseSdrs ipmitool (some file) = .ok st) :
    (∀ w, (simulator ι st).Reach (fun e _ => e.FromPrompt) w →
      ∀ s, (w.shared s).obj.Shaped ∧ (w.shared s).obj.Operable) ↔
    Sdr.StatesAnswered ipmitool file 0 (Sdr.sensorStarts file 0) := by
  rw [← (Sdr.parseSdrs_built h).sensors_shaped_iff]
  constructor
  · intro hall s hs
    obtain ⟨i, hi, rfl⟩ := List.getElem_of_mem hs
    have hboot := World.boot_parseSdrs h (fun _ _ => false) (fun _ : ι => ⟨i, hi⟩)
    exact (hall _ (.init ⟨hboot, fun _ => rfl⟩) ⟨i, hi⟩).1
  · intro hall w hw s
    have hshaped : (w.spot s).Shaped := by
      refine hw.invariantWith (J := fun w => (w.spot s).Sane s) (I := fun w => (w.spot s).Shaped)
        (fun w hw => ?_) (fun w hinit => ?_) fun e w w' hsane hI ha hs => ?_
      · have hreach : (system _ ι (List.finRange st.sensorList.length)).Reachable w :=
          System.Reach.mono (M := simulator ι st) (fun _ h => h.1) rfl hw.reachable
        exact Spot.reachable_sane hreach s
      · refine ⟨?_, fun i => ?_⟩
        · show (w.shared s).obj.Shaped
          rw [hinit.2 s]
          exact hall _ (List.getElem_mem s.isLt)
        · rw [hinit.1.on_returned]
          trivial
      · exact Spot.shaped_moves hsane hI ha (World.step_moves s hs)
    exact ⟨hshaped.obj, hshaped.obj.operable⟩

open Sdr in
theorem shaped_iff_boardRecords :
    (∀ w, (simulator (Fin 1) boardState).Reach (fun e _ => e.FromPrompt) w →
      ∀ s, (w.shared s).obj.Shaped ∧ (w.shared s).obj.Operable) ↔
    StatesAnswered constantTool (dump boardRecords) 0 (sensorStarts (dump boardRecords) 0) :=
  shaped_iff (Fin 1) constantTool (dump boardRecords) boardState boardRecords_parsed

/-! ### A reading that fails -/

namespace Sdr

/-- A tool that answers no request. -/
def silentTool : Ipmitool := fun _ _ => .failed

/-- The door of the compact record, its reading having failed. -/
def silentState : State where
  offset := 33
  requests := 1
  sensorList := [compactRecord.sensor (.int 0)]
  sensorIdMap := [((0x31, 0x20), 0)]

theorem silentState_parsed : parseSdrs silentTool (some (dump [compactRecord])) = .ok silentState := by
  decide +kernel

end Sdr

open Sdr in
/-- After a failed reading a discrete sensor records the integer 0, on which every
request raises. -/
theorem silentState_notShaped : ∃ w, (simulator (Fin 1) silentState).Reach (fun e _ => e.FromPrompt) w ∧
    ∃ s, (w.shared s).obj.getEventType = .discrete ∧ (w.shared s).obj.value = .int 0 ∧
      (w.shared s).obj.setDiscreteValue "0x0100".toList = .error .typeError ∧
      (w.shared s).obj.setState 0 1 = .error .typeError := by
  have hboot := World.boot_parseSdrs silentState_parsed (fun _ _ => false) (fun _ : Fin 1 => ⟨0, by decide⟩)
  refine ⟨_, .init ⟨hboot, fun _ => rfl⟩, ⟨0, by decide⟩, ?_⟩
  decide +kernel

end Idic.IpmiSim
