import Idic.IpmiSim.CommandHandler
import Idic.IpmiSim.SdrSensors
import Idic.IpmiSim.Spot

/-! What a command line can touch.

Every handler is shown to stay inside a frame: most of them change no sensor and
send nothing (`Quiet`), and those for one sensor change that sensor alone and send
commands that carry its own address and number (`Tending`). `handleCommand_frame`
puts the handlers together for every line and every reachable state. -/
namespace Idic.IpmiSim
open Python

/-! ### Frames -/

/-- The command names the management controller and the number of a record. -/
def SimCommand.Carries (c : SimCommand) (d : SdrIdentity) : Prop :=
  match c with
  | .sensorSetValue mc _ num _ => mc = d.mc ∧ num = d.number
  | .sensorSetBit mc _ num _ _ => mc = d.mc ∧ num = d.number
  | .selAdd sel => sel.mc = d.mc.toNat ∧ sel.sensorNum = d.number.toNat

/-- The SEL object has what `initialize_sel` wrote to it. -/
def Sensor.Ready (s : Sensor) : Prop := s.sel.unset = s.identity.sel

namespace Sim
variable {σ : Type}

def Ready (sim : Sim σ) : Prop := ∀ i, (sim.obj i).Ready

/-- From one state to another no sensor but `target` has changed, no sensor has
another record, and the commands sent meanwhile are for `target`. -/
structure Frame (target : Option σ) (sim sim' : Sim σ) : Prop where
  map : sim'.sensorIdMap = sim.sensorIdMap
  others : ∀ i, some i ≠ target → sim'.obj i = sim.obj i
  identity : ∀ i, (sim'.obj i).identity = (sim.obj i).identity
  sent : ∃ new, sim'.sent = sim.sent ++ new ∧ ∀ c ∈ new, ∃ i ∈ target, c.Carries (sim.obj i).identity

/-- Nothing has changed but the messages and the lines that are kept. -/
structure Quiet (sim sim' : Sim σ) : Prop where
  map : sim'.sensorIdMap = sim.sensorIdMap
  obj : sim'.obj = sim.obj
  sent : sim'.sent = sim.sent

/-- What a handler does that works on the sensor `i`, whose record says `d`. -/
def Tending (i : σ) (d : SdrIdentity) (sim sim' : Sim σ) : Prop :=
  sim.Ready → (sim.obj i).identity = d →
    sim'.Ready ∧ (sim'.obj i).identity = d ∧ sim.Frame (some i) sim'

instance : Std.Refl (Quiet (σ := σ)) where
  refl _ := ⟨rfl, rfl, rfl⟩

instance : IsTrans (Sim σ) Quiet where
  trans _ _ _ h h' := ⟨h'.map.trans h.map, h'.obj.trans h.obj, h'.sent.trans h.sent⟩

theorem Frame.refl (target : Option σ) (sim : Sim σ) : sim.Frame target sim :=
  ⟨rfl, fun _ _ => rfl, fun _ => rfl, [], (List.append_nil _).symm, fun _ h => nomatch h⟩

theorem Frame.trans {target : Option σ} {sim sim' sim'' : Sim σ} (h : sim.Frame target sim')
    (h' : sim'.Frame target sim'') : sim.Frame target sim'' := by
  obtain ⟨new, hnew, hcarries⟩ := h.sent
  obtain ⟨new', hnew', hcarries'⟩ := h'.sent
  refine ⟨h'.map.trans h.map, fun i hi => (h'.others i hi).trans (h.others i hi),
    fun i => (h'.identity i).trans (h.identity i), new ++ new', ?_, fun c hc => ?_⟩
  · rw [hnew', hnew, List.append_assoc]
  · rcases List.mem_append.mp hc with hc | hc
    · exact hcarries c hc
    · obtain ⟨i, hi, hcarry⟩ := hcarries' c hc
      exact ⟨i, hi, h.identity i ▸ hcarry⟩

theorem Quiet.frame {sim sim' : Sim σ} (h : sim.Quiet sim') (target : Option σ) :
    sim.Frame target sim' :=
  ⟨h.map, fun i _ => congrFun h.obj i, fun i => congrArg Sensor.identity (congrFun h.obj i), [],
    by rw [h.sent, List.append_nil], fun _ hc => nomatch hc⟩

theorem Quiet.ready {sim sim' : Sim σ} (h : sim.Quiet sim') (hready : sim.Ready) : sim'.Ready := by
  intro i
  rw [h.obj]
  exact hready i

variable {i : σ} {d : SdrIdentity}

instance : Std.Refl (Tending i d) where
  refl sim hready hd := ⟨hready, hd, .refl _ sim⟩

instance : IsTrans (Sim σ) (Tending i d) where
  trans _ _ _ h h' hready hd := by
    obtain ⟨hready, hd, hframe⟩ := h hready hd
    obtain ⟨hready, hd, hframe'⟩ := h' hready hd
    exact ⟨hready, hd, hframe.trans hframe'⟩

theorem Quiet.tending {sim sim' : Sim σ} (h : sim.Quiet sim') : Tending i d sim sim' :=
  fun hready hd => ⟨h.ready hready, by rw [h.obj]; exact hd, h.frame _⟩

end Sim

open Effect Sim

/-! ### Handlers that put messages -/

section Messages
variable {σ : Type} {R : Sim σ → Sim σ → Prop} [Std.Refl R]
variable (hput : ∀ msg, Keeps R (putMsg msg : Handler σ Unit)) (py : Interpreter σ)
include hput

theorem setOemRecord_keeps (size : Nat) (args : List Str) : Keeps R (setOemRecord size args : Handler σ Unit) := by
  refine Keeps.ite (fun _ => hput _) fun _ => ?_
  split
  · exact .pure _
  · exact .raise _

theorem setOemSel_keeps (hsend : ∀ c, Keeps R (sendCommand c : Handler σ Unit)) (args : List Str) :
    Keeps R (setOemSel args : Handler σ Unit) := by
  unfold setOemSel
  split
  · exact .raise _
  · split
    · exact .pure _
    · refine Keeps.ite (fun _ => ?_) fun _ => ?_
      · split
        · split
          · exact hsend _
          · exact .pure _
        · exact hput _
      · refine Keeps.ite (fun _ => setOemRecord_keeps hput _ _) fun _ => ?_
        exact Keeps.ite (fun _ => setOemRecord_keeps hput _ _) fun _ => .pure _

variable [IsTrans (Sim σ) R]

theorem getSensorInstance_keeps (strNum : Str) : Keeps R (getSensorInstance strNum : Handler σ (Option σ)) := by
  unfold getSensorInstance
  split
  · exact .pure _
  · refine Keeps.bind (.gets _) fun i => ?_
    cases i with
    | none => exact (hput _).bind fun _ => .pure _
    | some i => exact .pure _

/-- What messages keep and the sensor's part keeps. -/
theorem withSensor_keeps (strNum : Str) {body : σ → Handler σ Unit} (h : ∀ i, Keeps R (body i)) :
    Keeps R (withSensor strNum body) := by
  refine (getSensorInstance_keeps hput strNum).bind fun i => ?_
  cases i with
  | none => exact .pure _
  | some i => exact h i

theorem outputSensor_keeps (i : σ) : Keeps R (outputSensor py i) :=
  Keeps.bind (.gets _) fun _ => Keeps.bind (.lift _) fun _ => hput _

theorem outputSensors_keeps (args : List Str) : Keeps R (outputSensors py args) := by
  induction args with
  | nil => exact .pure _
  | cons strNum rest ih =>
    exact withSensor_keeps hput strNum fun i => (outputSensor_keeps hput py i).bind fun _ => ih

theorem dumpSensorInfo_keeps (args : List Str) : Keeps R (dumpSensorInfo py args) := by
  have hall : Keeps R (dumpAllSensorInfo py) :=
    Keeps.bind (.gets _) fun _ => .each fun _ _ => outputSensor_keeps hput py _
  have hsome := outputSensors_keeps hput py args
  unfold dumpSensorInfo
  split
  · exact hall.bind fun _ => hsome
  · exact hsome

theorem getSensorMode_keeps (args : List Str) : Keeps R (getSensorMode args : Handler σ Unit) := by
  unfold getSensorMode
  split
  · exact withSensor_keeps hput _ fun i => Keeps.bind (.gets _) fun _ => hput _
  · exact hput _

theorem getSensorValue_keeps (args : List Str) : Keeps R (getSensorValue py args) := by
  unfold getSensorValue
  split
  · refine withSensor_keeps hput _ fun i => Keeps.bind (.gets _) fun s => ?_
    split
    · exact Keeps.bind (.lift _) fun _ => Keeps.bind (.lift _) fun _ => hput _
    · exact hput _
    · exact .pure _
  · exact hput _

theorem getSel_keeps (args : List Str) : Keeps R (getSel args : Handler σ Unit) := by
  unfold getSel
  split
  · refine withSensor_keeps hput _ fun i => Keeps.bind (.gets _) fun _ => Keeps.bind (.lift _) fun _ => ?_
    exact .each fun _ _ => hput _
  · exact hput _

theorem handleHistory_keeps : Keeps R (handleHistory : Handler σ Unit) :=
  Keeps.bind (.gets _) fun _ => .each fun _ _ => hput _

end Messages

section Quiet
variable {σ : Type}

theorem putMsg_quiet (msg : Str) : Keeps Quiet (putMsg msg : Handler σ Unit) :=
  .modify fun _ => ⟨rfl, rfl, rfl⟩

theorem keepCommand_quiet (cmd : Str) : Keeps Quiet (keepCommand cmd : Handler σ Unit) :=
  .modify fun _ => ⟨rfl, rfl, rfl⟩

end Quiet

/-! ### Handlers for one sensor -/

section Tending
variable {σ : Type} {i : σ} {d : SdrIdentity}

theorem Keeps.tending {α : Type} {m : Handler σ α} (h : Keeps Quiet m) : Keeps (Tending i d) m :=
  fun sim => (h sim).tending

theorem sendCommand_tending {c : SimCommand} (h : c.Carries d) :
    Keeps (Tending i d) (sendCommand c) := by
  refine Keeps.modify fun sim hready hd => ⟨hready, hd, rfl, fun _ _ => rfl, fun _ => rfl, [c], rfl, ?_⟩
  intro c' hc
  rw [List.mem_singleton.mp hc]
  exact ⟨i, rfl, hd ▸ h⟩

/-- What a handler reads of its sensor first. -/
theorem objOf_tending {body : Sensor → Handler σ Unit}
    (h : ∀ s, s.Ready → s.identity = d → Keeps (Tending i d) (body s)) :
    Keeps (Tending i d) (objOf i >>= body) :=
  fun sim hready hd => h (sim.obj i) (hready i) hd sim hready hd

variable [DecidableEq σ]

theorem updateObj_tending {f : Sensor → Sensor}
    (h : ∀ s, s.Ready → s.identity = d → (f s).Ready ∧ (f s).identity = d) :
    Keeps (Tending i d) (updateObj i f) := by
  refine Keeps.modify fun sim hready hd => ?_
  obtain ⟨hi, hid⟩ := h (sim.obj i) (hready i) hd
  have hother (j : σ) (hj : j ≠ i) : Function.update sim.obj i (f (sim.obj i)) j = sim.obj j :=
    Function.update_of_ne hj _ _
  refine ⟨fun j => ?_, by simpa using hid, rfl, fun j hj => hother j (fun h => hj (h ▸ rfl)), fun j => ?_,
    [], (List.append_nil _).symm, fun _ hc => nomatch hc⟩
  · by_cases hj : j = i
    · subst hj
      simpa using hi
    · show Sensor.Ready (Function.update sim.obj i (f (sim.obj i)) j)
      rw [hother j hj]
      exact hready j
  · by_cases hj : j = i
    · subst hj
      rw [hd]
      simpa using hid
    · exact congrArg Sensor.identity (hother j hj)

theorem setThresholdValue_tending (value : Int) : Keeps (Tending i d) (setThresholdValue i value) := by
  refine objOf_tending fun s _ hs => Keeps.bind (.lift _) fun _ => ?_
  refine Keeps.bind (updateObj_tending fun s hready hs => ⟨hready, hs⟩) fun _ => ?_
  subst hs
  exact sendCommand_tending ⟨rfl, rfl⟩

theorem setDiscreteValue_tending (value : Str) : Keeps (Tending i d) (setDiscreteValue i value) := by
  refine objOf_tending fun s _ hs => Keeps.bind (.lift _) fun l => ?_
  refine Keeps.bind (updateObj_tending fun s hready hs => ⟨hready, hs⟩) fun _ => ?_
  subst hs
  refine .each fun bit _ => sendCommand_tending ?_
  exact ⟨rfl, rfl⟩

theorem changeMode_tending (mode : Mode) : Keeps (Tending i d) (changeMode i mode) :=
  Keeps.bind (updateObj_tending fun _ hready hs => ⟨hready, hs⟩) fun _ =>
    objOf_tending fun _ _ _ => Keeps.tending (putMsg_quiet _)

theorem setSensorSel_tending (eventId : Int) (eventDir : Direction) :
    Keeps (Tending i d) (setSensorSel i eventId eventDir) := by
  refine objOf_tending fun s hready hs => ?_
  cases ho : s.setSel eventId eventDir with
  | error e =>
    rw [lift_error_bind]
    exact .raise e
  | ok o =>
    have hunset : o.sel.unset = d.sel :=
      ((SelRequest.set eventId eventDir).perform_unset s o ho).trans (hs ▸ hready)
    have hsent := (SelRequest.set eventId eventDir).perform_sent s o ho
    rw [lift_ok_bind]
    refine Keeps.bind (updateObj_tending fun s _ hs => ⟨?_, hs⟩) fun _ => ?_
    · exact hunset.trans (congrArg SdrIdentity.sel hs.symm)
    · refine Keeps.bind (.each fun _ _ => Keeps.tending (putMsg_quiet _)) fun _ => ?_
      refine .each fun c hc => sendCommand_tending ?_
      rw [hsent c hc]
      exact ⟨congrArg SEL.mc hunset, congrArg SEL.sensorNum hunset⟩

variable (py : Interpreter σ)

theorem assignValue_tending (text : Str) : Keeps (Tending i d) (assignValue py i text) := by
  refine objOf_tending fun s _ _ => ?_
  split
  · split
    · exact Keeps.tending (putMsg_quiet _)
    · exact Keeps.bind (.lift _) fun _ => Keeps.bind (.lift _) fun _ => setThresholdValue_tending _
  · split
    · exact Keeps.tending (putMsg_quiet _)
    · exact setDiscreteValue_tending _
  · exact .pure _

end Tending

/-! ### The sensor of a line -/

section Named
variable {σ : Type}

/-- The sensor that `get_sensor_instance` returns. -/
def Sim.named (sim : Sim σ) (strNum : Str) : Option σ :=
  match ((getSensorInstance strNum).run sim).1 with
  | .ok i => i
  | .error _ => none

theorem getSensorInstance_returns (strNum : Str) (sim : Sim σ) :
    ((getSensorInstance strNum).run sim).1 = .ok (sim.named strNum) := by
  have hreturns : ∃ i, ((getSensorInstance strNum).run sim).1 = .ok i := by
    unfold getSensorInstance
    split
    · exact ⟨none, rfl⟩
    · next sensorId _ =>
      rw [gets_bind]
      split
      · exact ⟨none, rfl⟩
      · next i _ => exact ⟨some i, rfl⟩
  obtain ⟨i, hi⟩ := hreturns
  rw [Sim.named, hi]

/-- What is done with the sensor that is named. -/
theorem withSensor_frame {strNum : Str} {body : σ → Handler σ Unit}
    (h : ∀ i d, Keeps (Tending i d) (body i)) {sim : Sim σ} (hready : sim.Ready) :
    ((withSensor strNum body).run sim).2.Ready ∧
      sim.Frame (sim.named strNum) ((withSensor strNum body).run sim).2 := by
  have hquiet := getSensorInstance_keeps putMsg_quiet strNum sim
  have hreturns := getSensorInstance_returns strNum sim
  rw [withSensor, run_bind]
  rcases hrun : (getSensorInstance strNum).run sim with ⟨r, sim'⟩
  rw [hrun] at hquiet hreturns
  obtain rfl : r = .ok (sim.named strNum) := hreturns
  cases hnamed : sim.named strNum with
  | none => exact ⟨hquiet.ready hready, hquiet.frame none⟩
  | some i =>
    obtain ⟨hready', -, hframe⟩ := h i _ sim' (hquiet.ready hready) rfl
    exact ⟨hready', (hquiet.frame (some i)).trans hframe⟩

/-- What quiet changes do not break, a quiet end of a sequence does not break. -/
theorem run_then_quiet {α : Type} {P : Sim σ → Prop} (hP : ∀ sim sim', P sim → sim.Quiet sim' → P sim')
    {m : Handler σ α} {f : α → Handler σ Unit} {sim : Sim σ} (hm : P (m.run sim).2)
    (hf : ∀ a, Keeps Quiet (f a)) : P ((m >>= f).run sim).2 := by
  rw [run_bind]
  rcases hrun : m.run sim with ⟨_ | a, sim'⟩
  · rwa [hrun] at hm
  · rw [hrun] at hm
    exact hP _ _ hm (hf a sim')

end Named

/-! ### The handlers for one sensor, from their words -/

section Words
variable {σ : Type} {sim : Sim σ}

/-- The state is ready and framed. -/
def Framed (target : Option σ) (sim sim' : Sim σ) : Prop := sim'.Ready ∧ sim.Frame target sim'

theorem Framed.quiet {target : Option σ} {sim₀ : Sim σ} (sim sim' : Sim σ) (h : Framed target sim₀ sim)
    (hquiet : sim.Quiet sim') : Framed target sim₀ sim' :=
  ⟨hquiet.ready h.1, h.2.trans (hquiet.frame target)⟩

theorem Framed.of_keeps (hready : sim.Ready) (target : Option σ) {m : Handler σ Unit}
    (h : Keeps Quiet m) : Framed target sim (m.run sim).2 :=
  ⟨(h sim).ready hready, (h sim).frame target⟩

/-- No sensor has changed. -/
def Sim.SameObjects (sim sim' : Sim σ) : Prop := sim'.obj = sim.obj

instance : Std.Refl (Sim.SameObjects (σ := σ)) where
  refl _ := rfl

instance : IsTrans (Sim σ) Sim.SameObjects where
  trans _ _ _ h h' := Eq.trans h' h

theorem putMsg_sameObjects (msg : Str) : Keeps SameObjects (putMsg msg : Handler σ Unit) :=
  .modify fun _ => rfl

theorem Sim.SameObjects.ready {sim sim' : Sim σ} (h : sim.SameObjects sim') (hready : sim.Ready) :
    sim'.Ready := by
  intro i
  rw [show sim'.obj = sim.obj from h]
  exact hready i

theorem setOemSel_sameObjects (args : List Str) : Keeps SameObjects (setOemSel args : Handler σ Unit) :=
  setOemSel_keeps putMsg_sameObjects (fun _ => .modify fun _ => rfl) args

variable [DecidableEq σ] (py : Interpreter σ)

theorem setSensorMode_framed (hready : sim.Ready) (args : List Str) :
    Framed (args.head?.bind sim.named) sim ((setSensorMode args).run sim).2 := by
  unfold setSensorMode
  split
  · refine withSensor_frame (fun i d => ?_) hready
    split
    · exact Keeps.tending (putMsg_quiet _)
    · split
      · exact Keeps.tending (putMsg_quiet _)
      · exact Keeps.bind (updateObj_tending fun _ hready hs => ⟨hready, hs⟩) fun _ =>
          changeMode_tending _
    · exact changeMode_tending _
  · exact .of_keeps hready _ (putMsg_quiet _)

theorem setSensorValue_framed (hready : sim.Ready) (args : List Str) :
    Framed (args.head?.bind sim.named) sim ((setSensorValue py args).run sim).2 := by
  unfold setSensorValue
  split
  · refine withSensor_frame (fun i d => objOf_tending fun s _ _ => ?_) hready
    have hassign := assignValue_tending (i := i) (d := d) py
    split
    · exact Keeps.bind (updateObj_tending fun _ hready hs => ⟨hready, hs⟩) fun _ => hassign _
    · exact hassign _
  · exact .of_keeps hready _ (putMsg_quiet _)

/-- The first word after `sel set` asks for a record of another kind. -/
def IsOem (args : List Str) : Prop := args.head?.map lower = some "oem".toList

theorem setSel_framed (hready : sim.Ready) (args : List Str) (h : ¬ IsOem args) :
    Framed (args.head?.bind sim.named) sim ((setSel args).run sim).2 := by
  unfold setSel
  split
  · next strNum idText action rest =>
    rw [if_neg fun hoem => h (congrArg some hoem)]
    refine withSensor_frame (fun i d => ?_) hready
    split
    · exact .pure _
    · refine Keeps.ite (fun _ => setSensorSel_tending _ _) fun _ => ?_
      exact Keeps.ite (fun _ => setSensorSel_tending _ _) fun _ => Keeps.tending (putMsg_quiet _)
  · exact .of_keeps hready _ (putMsg_quiet _)

theorem setSel_oem (args : List Str) (h : IsOem args) :
    Keeps SameObjects (setSel args : Handler σ Unit) := by
  unfold setSel
  split
  · rw [if_pos (Option.some.inj h)]
    exact setOemSel_sameObjects _
  · exact putMsg_sameObjects _

/-! ### Dispatch -/

theorem handleSensorMode_quiet {args : List Str} (h : ∀ rest, args ≠ "set".toList :: rest) :
    Keeps Quiet (handleSensorMode args : Handler σ Unit) := by
  unfold handleSensorMode
  split
  · exact putMsg_quiet _
  · refine Keeps.ite (fun hset => absurd (congrArg (· :: _) hset) (h _)) fun _ => ?_
    exact Keeps.ite (fun _ => getSensorMode_keeps putMsg_quiet _) fun _ => .pure _

theorem handleSensorValue_quiet {args : List Str} (h : ∀ rest, args ≠ "set".toList :: rest) :
    Keeps Quiet (handleSensorValue py args) := by
  unfold handleSensorValue
  split
  · exact putMsg_quiet _
  · refine Keeps.ite (fun hset => absurd (congrArg (· :: _) hset) (h _)) fun _ => ?_
    exact Keeps.ite (fun _ => getSensorValue_keeps putMsg_quiet py _) fun _ => .pure _

theorem handleSensorCommand_quiet {args : List Str}
    (hmode : ∀ rest, args ≠ "mode".toList :: "set".toList :: rest)
    (hvalue : ∀ rest, args ≠ "value".toList :: "set".toList :: rest) :
    Keeps Quiet (handleSensorCommand py args) := by
  unfold handleSensorCommand
  split
  · exact putMsg_quiet _
  · next word args =>
    refine Keeps.ite (fun _ => dumpSensorInfo_keeps putMsg_quiet py _) fun _ => ?_
    refine Keeps.ite (fun hword => handleSensorMode_quiet fun rest hrest => ?_) fun _ => ?_
    · exact hmode rest (by rw [hword, hrest])
    refine Keeps.ite (fun hword => handleSensorValue_quiet py fun rest hrest => ?_) fun _ => .pure _
    exact hvalue rest (by rw [hword, hrest])

theorem handleSelCommand_quiet {args : List Str} (h : ∀ rest, args ≠ "set".toList :: rest) :
    Keeps Quiet (handleSelCommand args : Handler σ Unit) := by
  unfold handleSelCommand
  split
  · exact putMsg_quiet _
  · refine Keeps.ite (fun hset => absurd (congrArg (· :: _) hset) (h _)) fun _ => ?_
    exact Keeps.ite (fun _ => getSel_keeps putMsg_quiet _) fun _ => .pure _

/-- Only a command line that begins with one of these can change a sensor or send. -/
def writeWords : List (List Str) :=
  [["sensor".toList, "mode".toList, "set".toList], ["sensor".toList, "value".toList, "set".toList],
    ["sel".toList, "set".toList]]

theorem handleCommand_quiet {line : Str} (h : ∀ p ∈ writeWords, ¬ p <+: words line) :
    Keeps Quiet (handleCommand py line) := by
  have hmode (rest : List Str) :
      words line ≠ "sensor".toList :: "mode".toList :: "set".toList :: rest :=
    fun hw => h _ (List.mem_cons_self ..) ⟨rest, hw.symm⟩
  have hvalue (rest : List Str) :
      words line ≠ "sensor".toList :: "value".toList :: "set".toList :: rest :=
    fun hw => h _ (List.mem_cons_of_mem _ (List.mem_cons_self ..)) ⟨rest, hw.symm⟩
  have hsel (rest : List Str) : words line ≠ "sel".toList :: "set".toList :: rest :=
    fun hw => h ["sel".toList, "set".toList] (by simp [writeWords]) ⟨rest, hw.symm⟩
  have hkeep := keepCommand_quiet (σ := σ) (strip line)
  unfold handleCommand
  refine Keeps.ite (fun _ => .pure _) fun _ => ?_
  split
  · exact .pure _
  · next word args hwords =>
    refine Keeps.ite (fun hword => ?_) fun _ => ?_
    · refine (handleSensorCommand_quiet py (fun rest hrest => ?_) fun rest hrest => ?_).bind fun _ => hkeep
      · exact hmode rest (by rw [hwords, hword, hrest])
      · exact hvalue rest (by rw [hwords, hword, hrest])
    refine Keeps.ite (fun hword => ?_) fun _ => ?_
    · refine (handleSelCommand_quiet fun rest hrest => ?_).bind fun _ => hkeep
      exact hsel rest (by rw [hwords, hword, hrest])
    refine Keeps.ite (fun _ => (putMsg_quiet _).bind fun _ => hkeep) fun _ => ?_
    exact Keeps.ite (fun _ => (handleHistory_keeps putMsg_quiet).bind fun _ => hkeep) fun _ => putMsg_quiet _

/-- A line with one of these beginnings goes to the handler they name. -/
theorem handleCommand_eq {line : Str} (hline : strip line ≠ []) (args : List Str) :
    (words line = "sensor".toList :: "mode".toList :: "set".toList :: args →
      handleCommand py line = setSensorMode args >>= fun _ => keepCommand (strip line)) ∧
    (words line = "sensor".toList :: "value".toList :: "set".toList :: args →
      handleCommand py line = setSensorValue py args >>= fun _ => keepCommand (strip line)) ∧
    (words line = "sel".toList :: "set".toList :: args →
      handleCommand py line = setSel args >>= fun _ => keepCommand (strip line)) := by
  refine ⟨fun hw => ?_, fun hw => ?_, fun hw => ?_⟩ <;>
    simp [handleCommand, hline, hw, handleSensorCommand, handleSensorMode, handleSensorValue,
      handleSelCommand]

theorem handleCommand_framed (hready : sim.Ready) {line : Str} {p args : List Str}
    (hp : p ∈ writeWords) (hw : words line = p ++ args)
    (hoem : ¬ (p = ["sel".toList, "set".toList] ∧ IsOem args)) :
    Framed (args.head?.bind sim.named) sim ((handleCommand py line).run sim).2 := by
  by_cases hline : strip line = []
  · refine .of_keeps hready _ ?_
    rw [handleCommand, if_pos hline]
    exact .pure _
  · obtain ⟨hmode, hvalue, hsel⟩ := handleCommand_eq py hline args
    have hkeep (target : Option σ) {m : Handler σ Unit} (hm : Framed target sim (m.run sim).2) :=
      run_then_quiet (f := fun _ => keepCommand (strip line)) Framed.quiet hm
        fun _ => keepCommand_quiet _
    simp only [writeWords, List.mem_cons, List.not_mem_nil, or_false] at hp
    rcases hp with rfl | rfl | rfl
    · rw [hmode hw]
      exact hkeep _ (setSensorMode_framed hready args)
    · rw [hvalue hw]
      exact hkeep _ (setSensorValue_framed py hready args)
    · rw [hsel hw]
      exact hkeep _ (setSel_framed hready args fun h => hoem ⟨rfl, h⟩)

theorem handleCommand_oem {line : Str} {args : List Str}
    (hw : words line = ["sel".toList, "set".toList] ++ args) (hoem : IsOem args) :
    Keeps SameObjects (handleCommand py line) := by
  by_cases hline : strip line = []
  · rw [handleCommand, if_pos hline]
    exact .pure _
  · rw [(handleCommand_eq py hline args).2.2 hw]
    exact (setSel_oem args hoem).bind fun _ => .modify fun _ => rfl

/-- Whatever a line does, the SEL objects keep what `initialize_sel` wrote. -/
theorem handleCommand_ready (hready : sim.Ready) (line : Str) :
    ((handleCommand py line).run sim).2.Ready := by
  by_cases hwrites : ∃ p ∈ writeWords, p <+: words line
  · obtain ⟨p, hp, args, hw⟩ := hwrites
    by_cases hoem : p = ["sel".toList, "set".toList] ∧ IsOem args
    · obtain ⟨rfl, hoem⟩ := hoem
      exact SameObjects.ready (handleCommand_oem py hw.symm hoem sim) hready
    · exact (handleCommand_framed py hready hp hw.symm hoem).1
  · simp only [not_exists, not_and] at hwrites
    exact (handleCommand_quiet py hwrites sim).ready hready

end Words

/-! ### Lines in any order -/

/-- What other threads leave alone of a sensor while a line is carried out. -/
structure Sensor.Elsewhere (s s' : Sensor) : Prop where
  identity : s'.identity = s.identity
  sel : s'.sel.unset = s.sel.unset

/-- The sensor's thread, the main thread and the other sessions leave it alone. -/
theorem Sensor.SameRecord.elsewhere {s s' : Sensor} (h : s.SameRecord s') : s.Elsewhere s' := by
  rw [Sensor.SameRecord] at h
  rw [h]
  exact ⟨rfl, rfl⟩

namespace Sim

/-- Nothing has happened since `parse_sdrs`. -/
def Initial {σ : Type} (sim : Sim σ) : Prop := ∀ i, (sim.obj i).sel = (sim.obj i).identity.sel

/-- The handlers' state as it comes up with the sensors of a dump. -/
def boot (st : Sdr.State) : Sim (Fin st.sensorList.length) where
  obj i := st.sensorList[i]
  sensorIdMap := st.sensorIdMap.filterMap fun (k, i) =>
    if h : i < st.sensorList.length then some (k, ⟨i, h⟩) else none

theorem boot_initial {ipmitool : Sdr.Ipmitool} {sdrBin : Option (List UInt8)} {st : Sdr.State}
    (h : Sdr.parseSdrs ipmitool sdrBin = .ok st) : (boot st).Initial :=
  fun i => Sdr.parseSdrs_sel ipmitool sdrBin st h _ (List.getElem_mem i.isLt)

/-- The states that lines lead to, with other threads at work before and after. -/
inductive Reachable {σ : Type} [DecidableEq σ] (py : Interpreter σ) : Sim σ → Prop where
  | initial {sim : Sim σ} (h : sim.Initial) : Reachable py sim
  | line {sim : Sim σ} (h : Reachable py sim) (line : Str) :
      Reachable py ((handleCommand py line).run sim).2
  | meanwhile {sim sim' : Sim σ} (h : Reachable py sim) (hmap : sim'.sensorIdMap = sim.sensorIdMap)
      (hobj : ∀ i, (sim.obj i).Elsewhere (sim'.obj i)) : Reachable py sim'

theorem Reachable.ready {σ : Type} [DecidableEq σ] {py : Interpreter σ} {sim : Sim σ}
    (h : Reachable py sim) : sim.Ready := by
  induction h with
  | initial h =>
    intro i
    rw [Sensor.Ready, h i]
    rfl
  | line _ line ih => exact handleCommand_ready py ih line
  | meanwhile _ _ hobj ih =>
    intro i
    rw [Sensor.Ready, (hobj i).sel, (hobj i).identity]
    exact ih i

end Sim

/-- **Commands touch only what they name.** In every reachable state and for every
line, whether its handlers return or raise: a line without one of the three
beginnings changes no sensor and sends nothing; a line with one changes at most the
sensor it names and sends commands for that one only; an OEM record changes none. -/
theorem handleCommand_frame {σ : Type} [DecidableEq σ] (py : Interpreter σ) (sim : Sim σ)
    (h : Reachable py sim) (line : Str) :
    ((∀ p ∈ writeWords, ¬ p <+: words line) → sim.Quiet ((handleCommand py line).run sim).2) ∧
    (∀ p ∈ writeWords, ∀ args, words line = p ++ args →
      ¬ (p = ["sel".toList, "set".toList] ∧ IsOem args) →
        sim.Frame (args.head?.bind sim.named) ((handleCommand py line).run sim).2) ∧
    (∀ args, words line = ["sel".toList, "set".toList] ++ args → IsOem args →
      sim.SameObjects ((handleCommand py line).run sim).2) := by
  refine ⟨fun hwords => handleCommand_quiet py hwords sim, fun p hp args hw hoem => ?_,
    fun args hw hoem => handleCommand_oem py hw hoem sim⟩
  exact (handleCommand_framed py h.ready hp hw hoem).2

/-- An interpreter that takes a dictionary in the order of its entries. -/
def plainInterpreter (σ : Type) : Interpreter σ where
  floats := ⟨Empty, fun _ => none, fun _ x => x.elim, fun _ _ => .error .typeError⟩
  items d := d
  items_perm _ := .rfl

open Sdr in
theorem handleCommand_frame_temperatureSensor :
    (boot temperatureState).Frame ((boot temperatureState).named "0x31".toList)
      ((handleCommand (plainInterpreter _) "sensor value set 0x31 0x0100".toList).run
        (boot temperatureState)).2 :=
  (handleCommand_frame (plainInterpreter _) (boot temperatureState)
    (.initial (boot_initial temperatureRecord_parsed)) "sensor value set 0x31 0x0100".toList).2.1
    ["sensor".toList, "value".toList, "set".toList] (by simp [writeWords])
    ["0x31".toList, "0x0100".toList] (by decide +kernel) (fun h => absurd h.1 (by decide))

end Idic.IpmiSim
