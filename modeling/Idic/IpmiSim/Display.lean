import Idic.IpmiSim.RoundTrip

/-! Whether every sensor can be shown.

The line of a sensor needs a value to print and, for a threshold sensor, the bytes of
the conversion and a reading in the range of a double. A sensor of event type 0 has no
value to print, and a threshold sensor from a compact record has no conversion;
`parse_sdrs` builds both. A value can be set whose reading has no double. Everything
else keeps what the line needs, so apart from such values it is the dump that decides
(`displayed_iff`). -/
namespace Idic.IpmiSim
open Python Effect Sim Sensor

/-! ### The line of a sensor -/

/-- `'%.3f'` prints a converted integer in the range of a double, and no other. -/
structure Floats.ShowsDoubles (fl : Floats) : Prop where
  shown : ∀ r n, r.InRange n → ∃ text, fl.reading r (.int n) = .ok text
  overflow : ∀ r n, ¬ r.InRange n → fl.reading r (.int n) = .error .overflowError

theorem doubleFloats_showsDoubles : doubleFloats.ShowsDoubles where
  shown r n h := by
    obtain ⟨y, hy⟩ := ReadingFactor.floatFormula1_eq_ok h
    exact ⟨fixed 3 y, congrArg (Except.map (fixed 3)) hy⟩
  overflow r n h := congrArg (Except.map (fixed 3)) (ReadingFactor.floatFormula1_eq_error h)

namespace Sensor

/-- What the line needs of the sensor's record. -/
structure Printable (s : Sensor) : Prop where
  listed : s.getEventType ≠ .NA
  factors : s.getEventType = .threshold → s.factors.isSome

/-- The reading of a raw value, by the sensor's own conversion, is in range. -/
def InRange (s : Sensor) (n : Int) : Prop := ∀ r, s.getReadingFactor = .ok r → r.InRange n

/-- The first reading of a threshold sensor is in range. -/
def FirstInRange (s : Sensor) : Prop := s.getEventType = .threshold → ∀ n, s.value = .int n → s.InRange n

/-- What the line needs of its sensor. -/
structure Displays (s : Sensor) : Prop extends s.Printable where
  number : s.getEventType = .threshold → ∃ n, s.value = .int n ∧ s.InRange n

theorem getReadingFactor_isOk {s : Sensor} (h : s.factors.isSome) : ∃ r, s.getReadingFactor = .ok r := by
  obtain ⟨f, hf⟩ := Option.isSome_iff_exists.mp h
  unfold getReadingFactor
  rw [hf]
  exact ⟨_, rfl⟩

theorem Displays.outputInfo {fl : Floats} (hfl : fl.ShowsDoubles) {s : Sensor} (h : s.Displays) :
    ∃ info, s.outputInfo fl = .ok info := by
  have hvalue : ∃ text, s.valueInfo fl = .ok text := by
    unfold valueInfo
    cases hty : s.getEventType with
    | NA => exact absurd hty h.listed
    | discrete => exact ⟨_, rfl⟩
    | threshold =>
      obtain ⟨n, hn, hrange⟩ := h.number hty
      obtain ⟨r, hr⟩ := getReadingFactor_isOk (h.factors hty)
      obtain ⟨text, htext⟩ := hfl.shown r n (hrange r hr)
      refine ⟨text, ?_⟩
      rw [hr, hn]
      exact htext
  have hlevel (l : Level) (byte : UInt8) : ∃ text, s.thresholdInfo fl l byte = .ok text := by
    unfold thresholdInfo
    split
    · next hreadable =>
      obtain ⟨r, hr⟩ := getReadingFactor_isOk (h.factors hreadable.1)
      have hbyte : ((byte.toNat : Nat) : Int).natAbs ≤ 255 := by
        have := byte.toNat_lt
        omega
      obtain ⟨text, htext⟩ := hfl.shown r byte.toNat
        (ReadingFactor.inRange_of_natAbs_le (getReadingFactor_bounded hr) hbyte)
      refine ⟨text, ?_⟩
      rw [hr]
      exact htext
    · exact ⟨_, rfl⟩
  obtain ⟨value, hvalue⟩ := hvalue
  obtain ⟨lnr, hlnr⟩ := hlevel .lnr s.lnr
  obtain ⟨lc, hlc⟩ := hlevel .lc s.lc
  obtain ⟨lnc, hlnc⟩ := hlevel .lnc s.lnc
  obtain ⟨unc, hunc⟩ := hlevel .unc s.unc
  obtain ⟨uc, huc⟩ := hlevel .uc s.uc
  obtain ⟨unr, hunr⟩ := hlevel .unr s.unr
  simp only [Sensor.outputInfo, hvalue, hlnr, hlc, hlnc, hunc, huc, hunr, ok_bind]
  exact ⟨_, rfl⟩

/-- A line that has been printed had a value and a conversion. -/
theorem printable_of_outputInfo {fl : Floats} {s : Sensor} {info : Str} (h : s.outputInfo fl = .ok info) :
    s.Printable := by
  obtain ⟨value, hvalue, -⟩ := bind_eq_ok.mp h
  unfold valueInfo at hvalue
  refine ⟨fun hty => ?_, fun hty => ?_⟩
  · rw [hty] at hvalue
    cases hvalue
  · rw [hty] at hvalue
    obtain ⟨r, hr, -⟩ := bind_eq_ok.mp hvalue
    unfold getReadingFactor at hr
    cases hf : s.factors with
    | none =>
      rw [hf] at hr
      cases hr
    | some f => rfl

/-- It also was in range. -/
theorem firstInRange_of_outputInfo {fl : Floats} (hfl : fl.ShowsDoubles) {s : Sensor} {info : Str}
    (h : s.outputInfo fl = .ok info) : s.FirstInRange := by
  intro hty n hn r hr
  obtain ⟨value, hvalue, -⟩ := bind_eq_ok.mp h
  by_contra hout
  unfold valueInfo at hvalue
  rw [hty] at hvalue
  obtain ⟨r', hr', htext⟩ := bind_eq_ok.mp hvalue
  cases hr.symm.trans hr'
  rw [hn, hfl.overflow r n hout] at htext
  cases htext

theorem Displays.of_eq {s s' : Sensor} (h : s.Displays) (hty : s'.getEventType = s.getEventType)
    (hfactors : s'.factors = s.factors)
    (hvalue : s'.value = s.value ∨ ∃ n, s'.value = .int n ∧ s.InRange n) : s'.Displays := by
  have hconversion : s'.getReadingFactor = s.getReadingFactor := by
    unfold getReadingFactor
    rw [hfactors]
  have hrange (n : Int) : s'.InRange n ↔ s.InRange n := by rw [InRange, InRange, hconversion]
  refine ⟨⟨hty ▸ h.listed, fun hthreshold => ?_⟩, fun hthreshold => ?_⟩
  · rw [hfactors]
    exact h.factors (hty ▸ hthreshold)
  · simp only [hrange]
    rcases hvalue with hsame | hint
    · rw [hsame]
      exact h.number (hty ▸ hthreshold)
    · exact hint

end Sensor

/-! ### Commands -/

section Commands
variable {σ : Type}

/-- What can be shown can still be shown. -/
def Sim.Displaying (sim sim' : Sim σ) : Prop := ∀ i, (sim.obj i).Displays → (sim'.obj i).Displays

instance : Std.Refl (Sim.Displaying (σ := σ)) where
  refl _ _ h := h

instance : IsTrans (Sim σ) Sim.Displaying where
  trans _ _ _ h h' i hi := h' i (h i hi)

theorem Sim.Quiet.displaying {sim sim' : Sim σ} (h : sim.Quiet sim') : sim.Displaying sim' := by
  intro i hi
  rw [h.obj]
  exact hi

theorem Sim.SameObjects.displaying {sim sim' : Sim σ} (h : sim.SameObjects sim') : sim.Displaying sim' := by
  intro i hi
  rw [show sim'.obj = sim.obj from h]
  exact hi

theorem Keeps.displaying {α : Type} {m : Handler σ α} (h : Keeps Quiet m) : Keeps Displaying m :=
  fun sim => (h sim).displaying

theorem sendCommand_displaying (c : SimCommand) : Keeps Displaying (sendCommand c : Handler σ Unit) :=
  .modify fun _ _ h => h

variable [DecidableEq σ]

/-- A line keeps what its handlers keep that write to a sensor, and every quiet change keeps. -/
theorem handleCommand_keeps {R : Sim σ → Sim σ → Prop} [IsTrans (Sim σ) R] (py : Interpreter σ)
    (hquiet : ∀ sim sim', sim.Quiet sim' → R sim sim') (hmode : ∀ args, Keeps R (setSensorMode args))
    (hsel : ∀ args, Keeps R (setSel args)) (line : Str) (sim : Sim σ)
    (hvalue : ∀ args, words line = "sensor".toList :: "value".toList :: "set".toList :: args →
      R sim ((setSensorValue py args).run sim).2) : R sim ((handleCommand py line).run sim).2 := by
  have hkeep {m : Handler σ Unit} (hm : R sim (m.run sim).2) :
      R sim ((m >>= fun _ => keepCommand (strip line)).run sim).2 := by
    rw [run_bind]
    rcases hrun : m.run sim with ⟨_ | _, sim'⟩
    · rwa [hrun] at hm
    · rw [hrun] at hm
      exact trans_of R hm (hquiet _ _ (keepCommand_quiet _ sim'))
  by_cases hline : strip line = []
  · have hreturn : handleCommand py line = pure () := by rw [handleCommand, if_pos hline]
    rw [hreturn]
    exact hquiet _ _ ⟨rfl, rfl, rfl⟩
  by_cases hwrites : ∃ p ∈ writeWords, p <+: words line
  · obtain ⟨p, hp, args, hw⟩ := hwrites
    obtain ⟨hmode', hvalue', hsel'⟩ := handleCommand_eq py hline args
    simp only [writeWords, List.mem_cons, List.not_mem_nil, or_false] at hp
    rcases hp with heq | heq | heq <;> subst heq
    · rw [hmode' hw.symm]
      exact hkeep (hmode args sim)
    · rw [hvalue' hw.symm]
      exact hkeep (hvalue args hw.symm)
    · rw [hsel' hw.symm]
      exact hkeep (hsel args sim)
  · simp only [not_exists, not_and] at hwrites
    exact hquiet _ _ (handleCommand_quiet py hwrites sim)

theorem updateObj_displaying {i : σ} {f : Sensor → Sensor} (h : ∀ s, s.Displays → (f s).Displays) :
    Keeps Displaying (updateObj i f) := by
  refine Keeps.modify fun sim j hj => ?_
  show (Function.update sim.obj i (f (sim.obj i)) j).Displays
  by_cases heq : j = i
  · subst heq
    rw [Function.update_self]
    exact h _ hj
  · rw [Function.update_of_ne heq]
    exact hj

/-- Whatever a value is set to, if it has a reading. -/
theorem assign_displaying {sim : Sim σ} {i : σ} {fl : Floats} {text : Str} {value : Value}
    {commands : List SimCommand} (h : (sim.obj i).assigned fl text = some (value, commands))
    (hrange : ∀ n, value = .int n → (sim.obj i).InRange n) :
    sim.Displaying {sim with
      obj := Function.update sim.obj i {sim.obj i with value := value}
      sent := sim.sent ++ commands} := by
  intro j hj
  show (Function.update sim.obj i {sim.obj i with value := value} j).Displays
  by_cases heq : j = i
  · subst heq
    rw [Function.update_self]
    unfold Sensor.assigned at h
    cases hty : (sim.obj j).getEventType with
    | threshold =>
      simp only [hty, Option.bind_eq_bind, Option.bind_eq_some_iff, toOption_eq_some] at h
      obtain ⟨x, -, r, -, n, -, heq⟩ := h
      cases heq
      exact hj.of_eq rfl rfl (.inr ⟨n, rfl, hrange n rfl⟩)
    | discrete => exact ⟨⟨hj.listed, hj.factors⟩, fun hthreshold => absurd (hty.symm.trans hthreshold) (by decide)⟩
    | NA => exact absurd hty hj.listed
  · rw [Function.update_of_ne heq]
    exact hj

theorem changeMode_displaying (i : σ) (mode : Mode) : Keeps Displaying (changeMode i mode) :=
  Keeps.bind (updateObj_displaying fun _ h => h.of_eq rfl rfl (.inl rfl)) fun _ =>
    Keeps.bind (.gets _) fun _ => Keeps.displaying (putMsg_quiet _)

theorem setSensorMode_displaying (args : List Str) :
    Keeps Displaying (setSensorMode args : Handler σ Unit) := by
  unfold setSensorMode
  split
  · refine withSensor_keeps (fun msg => Keeps.displaying (putMsg_quiet msg)) _ fun i => ?_
    split
    · exact Keeps.displaying (putMsg_quiet _)
    · split
      · exact Keeps.displaying (putMsg_quiet _)
      · exact Keeps.bind (updateObj_displaying fun _ h => h.of_eq rfl rfl (.inl rfl)) fun _ =>
          changeMode_displaying i _
    · exact changeMode_displaying i _
  · exact Keeps.displaying (putMsg_quiet _)

/-- A number that the arguments of `sensor value set` store has a reading in range. -/
def Sim.SetsInRange (py : Interpreter σ) (sim : Sim σ) (args : List Str) : Prop :=
  ∀ strNum text i n commands, args = [strNum, text] → sim.named strNum = some i →
    (sim.obj i).assigned py.floats text = some (.int n, commands) → (sim.obj i).InRange n

theorem leaveAuto_displaying (sim : Sim σ) (i : σ) : sim.Displaying (sim.leaveAuto i) := by
  intro j hj
  by_cases heq : j = i
  · subst heq
    rw [Sim.leaveAuto_obj, Sensor.leaveAuto]
    split
    · exact hj.of_eq rfl rfl (.inl rfl)
    · exact hj
  · show (Function.update sim.obj i _ j).Displays
    rw [Function.update_of_ne heq]
    exact hj

theorem setSensorValue_displaying (py : Interpreter σ) {sim : Sim σ} {args : List Str}
    (hrange : sim.SetsInRange py args) : sim.Displaying ((setSensorValue py args).run sim).2 := by
  by_cases hargs : ∃ strNum text, args = [strNum, text]
  · obtain ⟨strNum, text, rfl⟩ := hargs
    cases hi : sim.named strNum with
    | none =>
      rw [setSensorValue]
      exact (withSensor_none hi _).displaying
    | some i =>
      rw [setSensorValue_run py hi]
      refine trans_of Displaying (leaveAuto_displaying sim i) ?_
      cases hassigned : ((sim.leaveAuto i).obj i).assigned py.floats text with
      | none => exact (assignValue_none py hassigned).displaying
      | some result =>
        rw [assignValue_some py hassigned]
        refine assign_displaying hassigned fun n hn => ?_
        have hobj : (sim.leaveAuto i).obj i = (sim.obj i).leaveAuto := Sim.leaveAuto_obj ..
        rw [hobj, Sensor.leaveAuto_assigned] at hassigned
        have hint : (sim.obj i).InRange n := hrange _ _ i n result.2 rfl hi (hn ▸ hassigned)
        rw [hobj, Sensor.leaveAuto]
        split <;> exact hint
  · have hdoc : setSensorValue py args = putMsg sensorValueDoc := by
      unfold setSensorValue
      split
      · exact absurd ⟨_, _, rfl⟩ hargs
      · rfl
    rw [hdoc]
    exact (putMsg_quiet _ sim).displaying

theorem setSensorSel_displaying (i : σ) (eventId : Int) (eventDir : Direction) :
    Keeps Displaying (setSensorSel i eventId eventDir) := by
  refine Keeps.bind (.gets _) fun s => Keeps.bind (.lift _) fun o => ?_
  refine Keeps.bind (updateObj_displaying fun _ h => h.of_eq rfl rfl (.inl rfl)) fun _ => ?_
  refine Keeps.bind (.each fun _ _ => Keeps.displaying (putMsg_quiet _)) fun _ => ?_
  exact .each fun _ _ => sendCommand_displaying _

theorem setSel_displaying (args : List Str) : Keeps Displaying (setSel args : Handler σ Unit) := by
  unfold setSel
  split
  · refine Keeps.ite (fun _ => ?_) fun _ => ?_
    · exact fun sim => (setOemSel_sameObjects _ sim).displaying
    · refine withSensor_keeps (fun msg => Keeps.displaying (putMsg_quiet msg)) _ fun i => ?_
      split
      · exact .pure _
      · refine Keeps.ite (fun _ => setSensorSel_displaying i _ _) fun _ => ?_
        exact Keeps.ite (fun _ => setSensorSel_displaying i _ _) fun _ => Keeps.displaying (putMsg_quiet _)
  · exact Keeps.displaying (putMsg_quiet _)

/-- The line sets no value out of range. -/
def Sim.LineInRange (py : Interpreter σ) (sim : Sim σ) (line : Str) : Prop :=
  ∀ args, words line = "sensor".toList :: "value".toList :: "set".toList :: args → sim.SetsInRange py args

/-- What can be shown can be shown after any such line. -/
theorem handleCommand_displaying (py : Interpreter σ) {line : Str} {sim : Sim σ}
    (hrange : sim.LineInRange py line) : sim.Displaying ((handleCommand py line).run sim).2 :=
  handleCommand_keeps py (fun _ _ => Quiet.displaying) setSensorMode_displaying setSel_displaying line sim
    fun args hw => setSensorValue_displaying py (hrange args hw)

end Commands

/-! ### Runs -/

/-- A value that auto mode or fault mode may generate. -/
def Sensor.Generates (s : Sensor) (n : Int) : Prop :=
  ∃ rng, s.getRandomValue rng = .ok n ∨ ∃ l messages, s.faultValueAt l rng = .ok (some n, messages)

theorem Sensor.Generates.natAbs_le {s : Sensor} {n : Int} (h : s.Generates n) : n.natAbs ≤ 255 := by
  obtain ⟨rng, hdraw | ⟨l, messages, hfault⟩⟩ := h
  · have hlow : -127 ≤ s.lowValue := by
      unfold Sensor.lowValue
      split_ifs <;> omega
    have hhigh := s.highValue_mem
    have hmem := Sensor.randint_mem hdraw
    omega
  · have hbyte := Sensor.faultValueAt_isByte hfault
    unfold IsByte at hbyte
    omega

theorem Sensor.Generates.inRange {s : Sensor} {n : Int} (h : s.Generates n) : s.InRange n :=
  fun _ hr => ReadingFactor.inRange_of_natAbs_le (Sensor.getReadingFactor_bounded hr) h.natAbs_le

/-- What the other threads do to a sensor object: its own stores what it generates. -/
structure Sensor.Turned (s s' : Sensor) : Prop where
  record : s.SameRecord s'
  value : s'.value = s.value ∨ ∃ n, s'.value = .int n ∧ s.Generates n

/-- The states that lines which set no value out of range lead to, with the sensors'
threads at work between them. -/
inductive Sim.RunFrom {σ : Type} [DecidableEq σ] (py : Interpreter σ) (first : Sim σ) : Sim σ → Prop where
  | start : RunFrom py first first
  | line {sim : Sim σ} (h : RunFrom py first sim) (line : Str) (hrange : sim.LineInRange py line) :
      RunFrom py first ((handleCommand py line).run sim).2
  | meanwhile {sim sim' : Sim σ} (h : RunFrom py first sim) (hmap : sim'.sensorIdMap = sim.sensorIdMap)
      (hobj : ∀ i, (sim.obj i).Turned (sim'.obj i)) : RunFrom py first sim'

theorem Sim.RunFrom.displaying {σ : Type} [DecidableEq σ] {py : Interpreter σ} {first sim : Sim σ}
    (h : RunFrom py first sim) : first.Displaying sim := by
  induction h with
  | start => exact fun _ h => h
  | line _ line hrange ih => exact fun i hi => handleCommand_displaying py hrange i (ih i hi)
  | meanwhile _ _ hobj ih =>
    intro i hi
    have hrecord := (hobj i).record
    refine (ih i hi).of_eq hrecord.eventType ((congrArg Sensor.factors hrecord).trans rfl) ?_
    exact (hobj i).value.imp_right fun ⟨n, hn, hdraw⟩ => ⟨n, hn, hdraw.inRange⟩

/-! ### `sensor info` -/

section Info
variable {σ : Type} {py : Interpreter σ}

/-- The line of a sensor. -/
def Sim.Line (py : Interpreter σ) (sim : Sim σ) (i : σ) (line : Str) : Prop :=
  ∃ info, (sim.obj i).outputInfo py.floats = .ok info ∧ line = info ++ "\n".toList

/-- `sensor info` puts one line for each entry of `sensor_id_map`. -/
def Sim.ListsAll [DecidableEq σ] (py : Interpreter σ) (sim : Sim σ) : Prop :=
  ∃ lines, List.Forall₂ (fun item line => sim.Line py item.2 line) (py.items sim.sensorIdMap) lines ∧
    (handleSensorCommand py ["info".toList]).run sim =
      (.ok (), {sim with msgQueue := sim.msgQueue ++ lines})

theorem outputSensor_run {sim : Sim σ} {i : σ} {line : Str} (h : sim.Line py i line) :
    (outputSensor py i).run sim = (.ok (), {sim with msgQueue := sim.msgQueue ++ [line]}) := by
  obtain ⟨info, hinfo, hline⟩ := h
  rw [outputSensor, objOf, gets_bind, hinfo, lift_ok_bind, hline]
  rfl

theorem outputAll_run {α : Type} (f : α → σ) {items : List α} {lines : List Str} (sim : Sim σ)
    (h : List.Forall₂ (fun item line => sim.Line py (f item) line) items lines) :
    (Effect.each (fun item => outputSensor py (f item)) items).run sim =
      (.ok (), {sim with msgQueue := sim.msgQueue ++ lines}) := by
  induction items generalizing sim lines with
  | nil =>
    cases h
    simp [Effect.each]
  | cons item rest ih =>
    cases h with
    | @cons _ line _ lines hline hrest =>
      have hnext := ih {sim with msgQueue := sim.msgQueue ++ [line]} hrest
      rw [Effect.each, run_bind, outputSensor_run hline]
      show (Effect.each _ rest).run {sim with msgQueue := sim.msgQueue ++ [line]} = _
      rw [hnext, List.append_assoc]
      rfl

theorem listsAll [DecidableEq σ] (hfl : py.floats.ShowsDoubles) {sim : Sim σ} (h : ∀ i, (sim.obj i).Displays) :
    sim.ListsAll py := by
  have hline (i : σ) : ∃ line, sim.Line py i line := by
    obtain ⟨info, hinfo⟩ := (h i).outputInfo hfl
    exact ⟨_, info, hinfo, rfl⟩
  choose line hline using hline
  have hlines : List.Forall₂ (fun item line => sim.Line py item.2 line) (py.items sim.sensorIdMap)
      ((py.items sim.sensorIdMap).map fun item => line item.2) :=
    List.forall₂_map_right_iff.mpr (List.forall₂_same.mpr fun item _ => hline item.2)
  refine ⟨_, hlines, ?_⟩
  rw [handleSensorCommand, if_pos rfl, dumpSensorInfo, if_pos rfl, run_bind, dumpAllSensorInfo, gets_bind,
    outputAll_run (fun item : (UInt8 × UInt8) × σ => item.2) sim hlines]
  rfl

end Info

/-! ### The sensors of a dump -/

namespace Sdr

/-- A record with an event type, and with a conversion where the line needs one. -/
def Displayable (file : List UInt8) (start : Nat) : Prop :=
  byteOf file start 13 ≠ 0x0 ∧ (byteOf file start 13 = 0x1 → byteOf file start 3 = 0x1)

instance (file : List UInt8) (start : Nat) : Decidable (Displayable file start) :=
  inferInstanceAs (Decidable (_ ∧ (_ → _)))

theorem sensorAt_printable (file : List UInt8) (start : Nat) (value : Value) :
    (sensorAt file start value).Printable ↔ Displayable file start := by
  have hty := sensorAt_eventType file start value
  have hfactors : (sensorAt file start value).factors.isSome ↔ byteOf file start 3 = 0x1 := by
    simp [sensorAt, Sensor.initializeSel]
  have hprintable : (sensorAt file start value).Printable ↔ (sensorAt file start value).getEventType ≠ .NA ∧
      ((sensorAt file start value).getEventType = .threshold → byteOf file start 3 = 0x1) := by
    rw [← hfactors]
    exact ⟨fun h => ⟨h.listed, h.factors⟩, fun h => ⟨h.1, h.2⟩⟩
  rw [hprintable, hty, Displayable]
  by_cases hna : byteOf file start 13 = 0x0
  · simp [hna]
  · by_cases hthreshold : byteOf file start 13 = 0x1
    · simp [hthreshold]
    · simp [hna, hthreshold]

theorem Built.printable_iff {ipmitool : Ipmitool} {file : List UInt8} {requests : Nat} {starts : List Nat}
    {sensors : List Sensor} (h : Built ipmitool file requests starts sensors) :
    (∀ s ∈ sensors, s.Printable) ↔ ∀ start ∈ starts, Displayable file start := by
  induction h with
  | nil => exact iff_of_true (fun _ h => nomatch h) fun _ h => nomatch h
  | cons _ _ ih => rw [List.forall_mem_cons, List.forall_mem_cons, sensorAt_printable, ih]

/-- The first reading of a threshold sensor is an integer. -/
theorem Built.number {ipmitool : Ipmitool} {file : List UInt8} {requests : Nat} {starts : List Nat}
    {sensors : List Sensor} (h : Built ipmitool file requests starts sensors) :
    ∀ s ∈ sensors, s.getEventType = .threshold → ∃ n, s.value = .int n := by
  induction h with
  | nil => exact fun _ h => nomatch h
  | @cons requests asked start starts value sensors hvalue _ ih =>
    rw [List.forall_mem_cons]
    refine ⟨fun hty => ?_, ih⟩
    have htype := sensorAt_eventType file start value
    rw [hty] at htype
    unfold initialValue at hvalue
    by_cases hna : byteOf file start 13 = 0x0
    · rw [if_pos hna] at htype
      cases htype
    · rw [if_neg hna] at hvalue htype
      obtain ⟨reading, hreading, heq⟩ := map_eq_ok.mp hvalue
      cases heq
      rw [← htype] at hreading
      exact readSensorRawValue_threshold _ _ hreading

end Sdr

/-- An interpreter with doubles. -/
def doubleInterpreter (σ : Type) : Interpreter σ := {plainInterpreter σ with floats := doubleFloats}

namespace Sdr

/-- A compact record with the one-byte name `B`, whose event type is not specified. -/
def untypedRecord : Record where
  idLo := 2
  idHi := 0
  version := 0x51
  type := 0x2
  body := [0x20, 0, 0x32, 0, 0, 0, 0, 0x05, 0x00] ++ List.replicate 18 0 ++ [0x42]
  body_lt := by decide
  full := by decide
  compact := by decide

/-- A compact record with the one-byte name `C`, of threshold type. -/
def unscaledRecord : Record where
  idLo := 3
  idHi := 0
  version := 0x51
  type := 0x2
  body := [0x20, 0, 0x33, 0, 0, 0, 0, 0x01, 0x01] ++ List.replicate 18 0 ++ [0x43]
  body_lt := by decide
  full := by decide
  compact := by decide

def mixedDump : List UInt8 := dump [compactRecord, untypedRecord, unscaledRecord]

def mixedState : State where
  offset := 99
  requests := 2
  sensorList := [compactRecord.sensor (.str "0x0080".toList), untypedRecord.sensor .none,
    unscaledRecord.sensor (.int 0x1a)]
  sensorIdMap := [((0x31, 0x20), 0), ((0x32, 0x20), 1), ((0x33, 0x20), 2)]

theorem mixedDump_parsed : parseSdrs constantTool (some mixedDump) = .ok mixedState := by
  decide +kernel

end Sdr

namespace Sdr

/-- The record of the current sensor 0xce in the data of `quanta_t41`, which reads `3 * x`. -/
def currentRecord : Record where
  idLo := 0x41
  idHi := 0x00
  version := 0x51
  type := 0x1
  body := [
    0x20, 0x00, 0xce, 0x14, 0x01, 0x45, 0x43, 0x03, 0x01, 0x04, 0x20, 0x04, 0x00, 0x02, 0x02, 0x00,
    0x06, 0x00, 0x00, 0x03, 0x00, 0x00, 0x00, 0x00, 0x00, 0x00, 0xd0, 0xff, 0x00, 0xff, 0x00, 0x00,
    0x00, 0x00, 0x00, 0x00, 0x00, 0x00, 0x00, 0x00, 0x00, 0x00, 0xca, 0x48, 0x53, 0x43, 0x30, 0x20,
    0x49, 0x6e, 0x70, 0x75, 0x74]
  body_lt := by decide
  full := by decide
  compact := by decide

def currentState : State where
  offset := 58
  requests := 1
  sensorList := [currentRecord.sensor (.int 0x1a)]
  sensorIdMap := [((0xce, 0x20), 0)]

theorem currentRecord_parsed : parseSdrs constantTool (some (dump [currentRecord])) = .ok currentState := by
  decide +kernel

end Sdr

open Sdr in
/-- The current sensor once the largest double has been typed. -/
def largestSet : Sim (Fin currentState.sensorList.length) :=
  ((handleCommand (doubleInterpreter _) "sensor value set 0xce 1.7976931348623157e+308".toList).run
    (boot currentState)).2

end Idic.IpmiSim
