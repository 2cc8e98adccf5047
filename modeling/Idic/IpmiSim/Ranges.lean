import Idic.IpmiSim.SdrRecords
import Idic.IpmiSim.Shape

/-! Whether a sensor's thread dies of the values it generates.

`randint` raises on an empty range, and an exception ends the sensor's thread for
good. The ranges come from the record alone: `NonemptyRanges` says on the bytes of
the record when none of them is empty. `execute` reads the mode twice before it
generates a value; when `auto` has become `user` in between, `get_fault_value` reads
a fault level that may never have been set. `threads_never_raise` says that in the
runs without that the thread stays alive exactly when no range is empty. -/
namespace Idic.IpmiSim
open Python Threads

namespace Sensor

/-! ### The condition on the bytes -/

def threshold (s : Sensor) : Level → Nat
  | .lnr => s.lnr.toNat
  | .lc => s.lc.toNat
  | .lnc => s.lnc.toNat
  | .unc => s.unc.toNat
  | .uc => s.uc.toNat
  | .unr => s.unr.toNat

/-- The first of the levels that is readable, as its byte. -/
def firstReadable (s : Sensor) (ls : List Level) : Option Nat :=
  (ls.find? (fun l => s.readable l)).map s.threshold

/-- Between the innermost readable thresholds there is room for a value. -/
def AutoRoom (s : Sensor) : Prop :=
  match s.firstReadable [.lnc, .lc, .lnr], s.firstReadable [.unc, .uc, .unr] with
  | some lower, some upper => lower + 2 ≤ upper
  | some lower, none => if s.signed then lower < 127 else lower < 255
  | none, some upper => s.signed ∨ 0 < upper
  | none, none => True

/-- Room between a threshold and the next more severe one on its side, or the end
of the number format where that one is not readable. -/
def FaultRoomAt (s : Sensor) : Level → Prop
  | .lnc => s.readable .lc → s.lc < s.lnc
  | .lc => s.readable .lnr → s.lnr < s.lc
  | .lnr => True
  | .unc => if s.readable .uc then s.unc < s.uc else s.signed → s.unc ≤ 127
  | .uc => if s.readable .unr then s.uc < s.unr else s.signed → s.uc ≤ 127
  | .unr => s.signed → s.unr ≤ 127

instance (s : Sensor) : Decidable s.AutoRoom := by
  unfold AutoRoom
  split <;> infer_instance

instance (s : Sensor) (l : Level) : Decidable (s.FaultRoomAt l) := by
  unfold FaultRoomAt
  split <;> infer_instance

/-- No range drawn from is empty, read off the record's bytes. -/
structure NonemptyRanges (s : Sensor) : Prop where
  auto : s.AutoRoom
  fault : ∀ l, s.readable l → s.FaultRoomAt l

/-! ### The ranges -/

theorem randint_ok_iff (rng : Nat) (a b : Int) : (∃ v, randint rng a b = .ok v) ↔ a ≤ b := by
  unfold randint
  constructor
  · intro hsome
    obtain ⟨v, hv⟩ := hsome
    split at hv
    · assumption
    · cases hv
  · intro h
    exact ⟨_, if_pos h⟩

theorem draw_ok_iff {α : Type} (rng : Nat) (a b : Int) (f : Int → α) :
    (∃ r, (randint rng a b).map f = .ok r) ↔ a ≤ b := by
  rw [← randint_ok_iff rng a b]
  cases randint rng a b with
  | error e => simp [Except.map]
  | ok v => simp [Except.map]

theorem lowValue_eq (s : Sensor) : s.lowValue =
    match s.firstReadable [.lnc, .lc, .lnr] with
    | some lower => lower + 1
    | none => if s.signed then -127 else 0 := by
  unfold lowValue firstReadable
  by_cases hlnc : s.readable .lnc
  · simp [hlnc, threshold]
  by_cases hlc : s.readable .lc
  · simp [hlnc, hlc, threshold]
  by_cases hlnr : s.readable .lnr <;> simp [hlnc, hlc, hlnr, threshold]

theorem highValue_eq (s : Sensor) : s.highValue =
    match s.firstReadable [.unc, .uc, .unr] with
    | some upper => upper - 1
    | none => if s.signed then 127 else 255 := by
  unfold highValue firstReadable
  by_cases hunc : s.readable .unc
  · simp [hunc, threshold]
  by_cases huc : s.readable .uc
  · simp [hunc, huc, threshold]
  by_cases hunr : s.readable .unr <;> simp [hunc, huc, hunr, threshold]

theorem low_le_high_iff (s : Sensor) : s.lowValue ≤ s.highValue ↔ s.AutoRoom := by
  rw [lowValue_eq, highValue_eq, AutoRoom]
  cases s.firstReadable [.lnc, .lc, .lnr] with
  | some lower =>
    cases s.firstReadable [.unc, .uc, .unr] with
    | some upper =>
      show (lower : Int) + 1 ≤ upper - 1 ↔ lower + 2 ≤ upper
      omega
    | none =>
      show (lower : Int) + 1 ≤ (if s.signed then 127 else 255) ↔ _
      split <;> omega
  | none =>
    cases s.firstReadable [.unc, .uc, .unr] with
    | some upper =>
      show (if s.signed then -127 else 0 : Int) ≤ upper - 1 ↔ s.signed ∨ 0 < upper
      split
      · next h => exact ⟨fun _ => .inl h, fun _ => by omega⟩
      · next h => simp only [h, false_or]; omega
    | none =>
      show (if s.signed then -127 else 0 : Int) ≤ (if s.signed then 127 else 255) ↔ True
      split <;> simp

theorem getRandomValue_ok_iff (s : Sensor) (rng : Nat) :
    (∃ v, s.getRandomValue rng = .ok v) ↔ s.AutoRoom := by
  rw [getRandomValue, randint_ok_iff, low_le_high_iff]

theorem le_maxValue_iff (s : Sensor) (b : UInt8) :
    (b.toNat : Int) ≤ s.maxValue ↔ (s.signed → b ≤ 127) := by
  have hlt := UInt8.toNat_lt b
  rw [UInt8.le_iff_toNat_le]
  unfold maxValue
  split
  · next h =>
    show _ ↔ (s.signed → b.toNat ≤ 127)
    simp only [h, true_implies]
    omega
  · next h =>
    simp only [h, false_implies, iff_true]
    omega

/-- A fault request raises exactly when its level is readable and has no room. -/
theorem faultValueAt_ok_iff (s : Sensor) (l : Level) (rng : Nat) :
    (∃ r, s.faultValueAt l rng = .ok r) ↔ (s.readable l → s.FaultRoomAt l) := by
  have hlower (a b : UInt8) : (a.toNat + 1 : Int) ≤ b.toNat ↔ a < b := by
    rw [UInt8.lt_iff_toNat_lt]
    omega
  have hupper (a b : UInt8) : (a.toNat : Int) ≤ b.toNat - 1 ↔ a < b := by
    rw [UInt8.lt_iff_toNat_lt]
    omega
  by_cases hl : s.readable l
  · simp only [hl, true_implies]
    cases l with
    | lnc =>
      by_cases hlc : s.readable .lc <;>
        simp [faultValueAt, hl, hlc, FaultRoomAt, draw_ok_iff, hlower]
    | lc =>
      by_cases hlnr : s.readable .lnr <;>
        simp [faultValueAt, hl, hlnr, FaultRoomAt, draw_ok_iff, hlower]
    | lnr => simp [faultValueAt, hl, FaultRoomAt, draw_ok_iff]
    | unc =>
      by_cases huc : s.readable .uc <;>
        simp [faultValueAt, hl, huc, FaultRoomAt, draw_ok_iff, hupper, le_maxValue_iff]
    | uc =>
      by_cases hunr : s.readable .unr <;>
        simp [faultValueAt, hl, hunr, FaultRoomAt, draw_ok_iff, hupper, le_maxValue_iff]
    | unr => simp [faultValueAt, hl, FaultRoomAt, draw_ok_iff, le_maxValue_iff]
  · refine ⟨fun _ h => absurd h hl, fun _ => ⟨(none, [s.notCrossed l]), ?_⟩⟩
    cases l <;> simp only [faultValueAt, hl, not_false_eq_true, if_true]

end Sensor

/-! ### The thread -/

/-- The thread has raised in an iteration. -/
def ThreadPc.Died (pc : ThreadPc) : Prop := ∃ e, pc = .release (.died e) ∨ pc = .died e

/-- The second read of the mode finds `user` only after some level has been requested;
otherwise `get_fault_value` would have none to read. -/
def FindsLevel {σ ι : Type} [DecidableEq σ] (s : σ) (e : Event σ ι) (w : World σ ι) : Prop :=
  match e with
  | .thread s' _ _ => s' = s → w.thread s = .testAuto → (w.shared s).obj.mode = .user →
      (w.shared s).obj.faultLevel ≠ none
  | _ => True

/-- A fault request on its way to the mode has written its level. -/
def CommandPc.SetsFault : CommandPc → Prop
  | .readMode (.fault _) | .writeMode (.fault _) _ => True
  | _ => False

theorem Command.start_setsFault (c : Command) : ¬ c.start.SetsFault := by
  cases c with
  | modeSet r => cases r <;> exact id
  | selSet checked => cases checked <;> exact id
  | valueSet | threshold | discrete => exact id

theorem ValueArg.call_setsFault (a : ValueArg) (s : Sensor) : ¬ (a.call s).SetsFault := by
  rcases a.call_eq s with h | ⟨x, -, h⟩ | ⟨text, -, h⟩ <;> rw [h] <;> exact id

theorem CommandPc.faultLevel_kept {obj : Sensor} (pc : CommandPc) (h : obj.faultLevel ≠ none) :
    (pc.writes obj).faultLevel ≠ none := by
  cases pc with
  | writeLevel l => exact nofun
  | store x =>
    simp only [writes]
    split <;> exact h
  | _ => exact h

/-- A session gets to a fault request, or to its write of the mode, with a level set. -/
theorem CommandPc.Next.setsFault {obj : Sensor} {pc pc' : CommandPc} (h : pc.Next obj pc')
    (hpc : pc.SetsFault → obj.faultLevel ≠ none) (hpc' : pc'.SetsFault) :
    (pc.writes obj).faultLevel ≠ none := by
  cases h with
  | leveled l => exact nofun
  | read r => cases r <;> first | exact hpc trivial | exact hpc'.elim
  | calls a => exact absurd hpc' (a.call_setsFault obj)
  | _ => exact hpc'.elim

/-- What the runs keep at a sensor whose ranges are not empty: whoever is about to
generate a fault value, or lets the thread do so, finds a fault level. -/
structure Spot.Alive {σ ι : Type} (p : Spot σ ι) : Prop where
  ranges : p.shared.obj.NonemptyRanges
  mode : p.shared.obj.mode = .fault → p.shared.obj.faultLevel ≠ none
  session : ∀ i, (p.session i).SetsFault → p.shared.obj.faultLevel ≠ none
  thread : p.thread = .fault → p.shared.obj.faultLevel ≠ none
  alive : ¬ p.thread.Died

theorem ThreadPc.Next.not_died {obj : Sensor} {pc pc' : ThreadPc} (h : pc.Next obj pc')
    (hranges : obj.NonemptyRanges) (hlevel : pc = .fault → obj.faultLevel ≠ none) (halive : ¬ pc.Died) :
    ¬ pc'.Died := by
  cases h with
  | @emptyRange rng e herr =>
    obtain ⟨v, hv⟩ := (obj.getRandomValue_ok_iff rng).mpr hranges.auto
    cases hv.symm.trans herr
  | @notEvaluated rng e herr =>
    obtain ⟨l, hl⟩ := Option.ne_none_iff_exists'.mp (hlevel rfl)
    obtain ⟨r, hr⟩ := (obj.faultValueAt_ok_iff l rng).mpr (hranges.fault l)
    rw [Sensor.getFaultValue, hl] at herr
    cases hr.symm.trans herr
  | die e => exact absurd ⟨e, .inl rfl⟩ halive
  | _ => rintro ⟨e, hpc' | hpc'⟩ <;> cases hpc'

theorem Sensor.SameRecord.ranges {s s' : Sensor} (h : s.SameRecord s') (hranges : s.NonemptyRanges) :
    s'.NonemptyRanges := by
  have hranges := (congrArg Sensor.NonemptyRanges h).mpr ⟨hranges.auto, hranges.fault⟩
  exact ⟨hranges.auto, hranges.fault⟩

namespace Spot
variable {σ ι : Type} [DecidableEq σ] [DecidableEq ι]

theorem alive_moves {listed : Prop} {s : σ} {e : Event σ ι} {w : World σ ι} {p' : Spot σ ι}
    (h : (w.spot s).Alive) (hfinds : FindsLevel s e w) (hm : (w.spot s).Moves listed s e p') : p'.Alive := by
  have hranges := hm.sameRecord.ranges h.ranges
  cases hm with
  | @thread rng delivered l pc v hstep =>
    obtain ⟨hobj, -, -⟩ := ThreadPc.step_effect hstep
    have hnext := ThreadPc.step_next hstep
    have hlevel : v.obj.faultLevel = (w.shared s).obj.faultLevel := by
      rw [hobj]
      cases (w.spot s).thread <;> rfl
    refine ⟨hranges, fun hmode => ?_, fun i hi => ?_, fun hfault => ?_, ?_⟩
    · rw [hlevel]
      refine h.mode ?_
      rw [hobj] at hmode
      cases hpc : (w.spot s).thread <;> rw [hpc] at hmode <;> first | exact hmode | cases hmode
    · rw [hlevel]
      exact h.session i hi
    · -- From the second read of the mode, which is not `auto`.
      rw [hlevel]
      cases hfault
      generalize hpc : (w.spot s).thread = pc at hnext
      cases hnext with
      | notAuto hne =>
        cases hmode : (w.shared s).obj.mode with
        | user => exact hfinds rfl hpc hmode
        | auto => exact absurd hmode hne
        | fault => exact h.mode hmode
    · exact hnext.not_died h.ranges h.thread h.alive
  | timeout => exact ⟨hranges, h.mode, h.session, h.thread, h.alive⟩
  | begin c =>
    refine ⟨hranges, h.mode, ?_, h.thread, h.alive⟩
    rw [Function.forall_update_iff _ fun _ pc => CommandPc.SetsFault pc → _]
    exact ⟨fun hc => absurd hc c.start_setsFault, fun j _ => h.session j⟩
  | @session i delivered l pc v hstep =>
    obtain ⟨hobj, -, -⟩ := CommandPc.step_effect hstep
    have hnext := CommandPc.step_next hstep
    have hkept (hlevel : (w.shared s).obj.faultLevel ≠ none) : v.obj.faultLevel ≠ none :=
      hobj ▸ CommandPc.faultLevel_kept _ hlevel
    refine ⟨hranges, fun hmode => ?_, ?_, fun hfault => hkept (h.thread hfault), h.alive⟩
    · rw [hobj, CommandPc.writes_mode] at hmode
      have hi := h.session i
      cases hpc : (w.spot s).session i <;> rw [hpc] at hmode hi <;> try exact hkept (h.mode hmode)
      · next r preMode => cases r <;> first | exact hkept (hi trivial) | cases hmode
      · cases hmode
    · rw [Function.forall_update_iff _ fun _ pc => CommandPc.SetsFault pc → _]
      exact ⟨fun hpc => hobj ▸ hnext.setsFault (h.session i) hpc, fun j _ hj => hkept (h.session j hj)⟩
  | @mainTurn ph _ _ _ _ hstep | @mainLeaves ph _ _ _ _ hstep =>
    obtain ⟨hobj, -, -⟩ := FreePhase.step_effect hstep
    have hlevel : (ph.writes (w.shared s).obj).faultLevel = (w.shared s).obj.faultLevel := by
      cases ph <;> rfl
    have hmode : (ph.writes (w.shared s).obj).mode = .fault → (w.shared s).obj.mode = .fault := by
      cases ph <;> first | exact id | exact nofun
    rw [← show _ = ph.writes (w.shared s).obj from hobj] at hlevel hmode
    exact ⟨hranges, fun hm => hlevel ▸ h.mode (hmode hm), fun i hi => hlevel ▸ h.session i hi,
      fun hpc => hlevel ▸ h.thread hpc, h.alive⟩
  | elsewhere => exact ⟨hranges, h.mode, h.session, h.thread, h.alive⟩

end Spot

/-! ### A request and the thread, alone -/

section Raises
variable {θ : Type} [DecidableEq θ] {t : θ} {rng : Nat} {delivered : Bool} {v : View θ} {e : PyError}

theorem ThreadPc.random_raises (h : v.obj.getRandomValue rng = .error e) :
    ThreadPc.step t rng delivered v .random = some (.release (.died e), v) := by simp only [step, h]

theorem ThreadPc.fault_raises (h : v.obj.getFaultValue rng = .error e) :
    ThreadPc.step t rng delivered v .fault = some (.release (.died e), v) := by simp only [step, h]

end Raises

section Serves
variable {ι : Type} [DecidableEq ι] {st : Sdr.State}

/-- A run gets to where the thread of `s` is at `pc`, session `i` at `c` on `s`, and
both see `v`. -/
def Gets (s : Fin st.sensorList.length) (i : ι) (pc : ThreadPc) (c : CommandPc)
    (v : View (Tid (Fin st.sensorList.length) ι)) : Prop :=
  ∃ w, (simulator ι st).Reach (FindsLevel s) w ∧ w.thread s = pc ∧ w.session i = (s, c) ∧ w.view s = v

variable {s : Fin st.sensorList.length} {i : ι} {pc pc' : ThreadPc} {c c' : CommandPc}
  {v v' : View (Tid (Fin st.sensorList.length) ι)}

theorem Gets.thread (h : Gets s i pc c v) (rng : Nat)
    (hlevel : pc = .testAuto → v.obj.mode = .user → v.obj.faultLevel ≠ none)
    (hstep : pc.step (.sensor s) rng true v = some (pc', v')) : Gets s i pc' c v' := by
  obtain ⟨w, hw, rfl, hi, rfl⟩ := h
  have hmoves : w.step (List.finRange _) (.thread s rng true) = some ((w.put s v').setThread s pc') := by
    simp only [World.step, hstep, Option.map_some]
  have hfinds : FindsLevel s (.thread s rng true) w := fun _ => hlevel
  refine ⟨_, .step hw hfinds hmoves, Function.update_self .., hi, ?_⟩
  simp only [World.view, World.setThread, World.put, Function.update_self]

theorem Gets.session (h : Gets s i pc c v) (hstep : c.step (.session i) true v = some (c', v')) :
    Gets s i pc c' v' := by
  obtain ⟨w, hw, hpc, hi, rfl⟩ := h
  have hmoves : w.step (List.finRange _) (.session i true) = some ((w.put s v').setSession i s c') := by
    simp only [World.step, hi, hstep, Option.map_some]
  have hfinds : FindsLevel s (.session i true) w := trivial
  refine ⟨_, .step hw hfinds hmoves, hpc, Function.update_self .., ?_⟩
  simp only [World.view, World.setSession, World.put, Function.update_self]

theorem Gets.begin (h : Gets s i pc .returned v) (command : Command) : Gets s i pc command.start v := by
  obtain ⟨w, hw, hpc, hi, hv⟩ := h
  have hmoves : w.step (List.finRange _) (.begin i s command) = some (w.setSession i s command.start) := by
    simp only [World.step, hi, if_true]
  have hfinds : FindsLevel s (.begin i s command) w := trivial
  exact ⟨_, .step hw hfinds hmoves, hpc, Function.update_self .., hv⟩

/-- What a sensor and its thread look like before any event. -/
def bootView (obj : Sensor) : View (Tid (Fin st.sensorList.length) ι) :=
  ⟨⟨obj, ⟨none, []⟩, none, ⟨none, fun _ => false⟩⟩, none⟩

theorem Gets.boot {ipmitool : Sdr.Ipmitool} {sdrBin : Option (List UInt8)}
    (h : Sdr.parseSdrs ipmitool sdrBin = .ok st) (s : Fin st.sensorList.length) (i : ι) :
    Gets s i (ThreadPc.start (st.sensorList.get s)) .returned (bootView (st.sensorList.get s)) :=
  ⟨World.boot _ (fun _ _ => false) fun _ => s, .init ⟨World.boot_parseSdrs h _ _, fun _ => rfl⟩, rfl, rfl, rfl⟩

/-- An accepted request writes its fields; then the session goes to wake the thread. -/
theorem Gets.request {obj : Sensor} (h : Gets s i pc .returned (bootView obj)) (hmode : obj.mode = .user)
    {r : ModeRequest} (hr : r.mode ≠ .user) : Gets s i pc (.notify .acquire none) (bootView (obj.acceptMode r)) := by
  have hset := h.begin (.modeSet r)
  cases r with
  | user => exact absurd rfl hr
  | auto => exact (hset.session rfl).session (by simp [CommandPc.step, bootView, hmode, ModeRequest.mode]; rfl)
  | fault l =>
    exact ((hset.session rfl).session rfl).session (by simp [CommandPc.step, bootView, hmode, ModeRequest.mode]; rfl)

/-- The thread goes into an iteration and up to its second read of the mode. -/
theorem Gets.serves {obj : Sensor} (h : Gets s i .testQuit c (bootView obj)) (hquit : obj.quit = false)
    (hmode : obj.mode ≠ .user) :
    Gets s i .testAuto c ((bootView obj).setCondition ⟨some (.sensor s), []⟩) := by
  have hacquire : Gets s i .acquire c (bootView obj) :=
    h.thread 0 (fun hpc => by cases hpc) (by simp [ThreadPc.step, bootView, hquit])
  have htest := hacquire.thread 0 (fun hpc => by cases hpc) rfl
  exact htest.thread 0 (fun hpc => by cases hpc) (by simp [ThreadPc.step, bootView, View.setCondition, hmode])

/-- If the thread never dies, an auto request does not make it. -/
theorem Gets.autoRoom {obj : Sensor} (hserved : Gets s i .testAuto c
      ((bootView (obj.acceptMode .auto)).setCondition ⟨some (.sensor s), []⟩))
    (halive : ∀ w, (simulator ι st).Reach (FindsLevel s) w → ¬ (w.thread s).Died) : obj.AutoRoom := by
  refine (obj.getRandomValue_ok_iff 0).mp ?_
  cases hv : obj.getRandomValue 0 with
  | ok v => exact ⟨v, rfl⟩
  | error e =>
    have hrandom := hserved.thread 0 (fun _ => nofun) rfl
    obtain ⟨w, hw, hpc, -⟩ := hrandom.thread 0 nofun (ThreadPc.random_raises hv)
    exact absurd ⟨e, .inl hpc⟩ (halive w hw)

/-- Neither does a fault request. -/
theorem Gets.faultRoom {obj : Sensor} {l : Level} (hserved : Gets s i .testAuto c
      ((bootView (obj.acceptMode (.fault l))).setCondition ⟨some (.sensor s), []⟩))
    (halive : ∀ w, (simulator ι st).Reach (FindsLevel s) w → ¬ (w.thread s).Died) :
    obj.readable l → obj.FaultRoomAt l := by
  refine (obj.faultValueAt_ok_iff l 0).mp ?_
  cases hv : obj.faultValueAt l 0 with
  | ok r => exact ⟨r, rfl⟩
  | error e =>
    have hfault := hserved.thread 0 (fun _ => nofun) rfl
    obtain ⟨w, hw, hpc, -⟩ := hfault.thread 0 nofun (ThreadPc.fault_raises hv)
    exact absurd ⟨e, .inl hpc⟩ (halive w hw)

end Serves

/-- **No sensor's thread dies of the values it generates exactly when the record leaves
room in every range**: in every run, with any number of sensors and sessions, in
which the second read of the mode does not find `user` before any level was
requested. -/
theorem threads_never_raise (ι : Type) [DecidableEq ι] [Nonempty ι] (ipmitool : Sdr.Ipmitool)
    (sdrBin : Option (List UInt8)) (st : Sdr.State) (hparse : Sdr.parseSdrs ipmitool sdrBin = .ok st)
    (s : Fin st.sensorList.length) (hthreshold : (st.sensorList.get s).getEventType = .threshold) :
    (∀ w, (simulator ι st).Reach (FindsLevel s) w → ¬ (w.thread s).Died) ↔
      (st.sensorList.get s).NonemptyRanges := by
  have hfresh := Sdr.parseSdrs_fresh ipmitool sdrBin st hparse (st.sensorList.get s) (List.getElem_mem s.isLt)
  constructor
  · intro halive
    obtain ⟨i⟩ := ‹Nonempty ι›
    have hstart : Gets s i .testQuit .returned (bootView (st.sensorList.get s)) := by
      have hboot := Gets.boot hparse s i
      rwa [ThreadPc.start, if_pos hthreshold] at hboot
    have hserved (r : ModeRequest) (hr : r.mode ≠ .user) :=
      (hstart.request hfresh.mode hr).serves (by cases r <;> exact hfresh.quit) (by cases r <;> exact hr)
    have hauto := hserved .auto fun hmode => by cases hmode
    exact ⟨hauto.autoRoom halive, fun l => (hserved (.fault l) fun hmode => by cases hmode).faultRoom halive⟩
  · intro hranges w hw
    have hspot : (w.spot s).Alive := by
      refine hw.invariant (I := fun w => (w.spot s).Alive) (fun w hinit => ?_) fun e w w' hI ha hs => ?_
      · have hobj : (w.spot s).shared.obj = st.sensorList.get s := hinit.2 s
        have hmode : (w.spot s).shared.obj.mode = .user := hobj ▸ hfresh.mode
        have hthread : (w.spot s).thread = .testQuit := by
          rw [← hobj] at hthreshold
          exact (hinit.1.thread s).trans (if_pos hthreshold)
        refine ⟨hobj ▸ hranges, fun hfault => ?_, fun i hi => ?_, fun hfault => ?_, ?_⟩
        · cases hmode.symm.trans hfault
        · rw [hinit.1.on_returned] at hi
          exact hi.elim
        · cases hthread.symm.trans hfault
        · rw [hthread]
          rintro ⟨e, hpc | hpc⟩ <;> cases hpc
      · exact Spot.alive_moves hI ha (World.step_moves s hs)
    exact hspot.alive

/-! ### Two sensors -/

namespace Sdr

/-- A two's complement threshold sensor whose only readable threshold, the lower
non-critical one, is -10. -/
def signedRecord : Record where
  idLo := 1
  idHi := 0
  version := 0x51
  type := 0x1
  body := [0x20, 0, 0x10, 0, 0, 0, 0, 0x01, 0x01, 0, 0, 0, 0, 0x01, 0, 0x80] ++
    List.replicate 20 0 ++ [0xf6] ++ List.replicate 6 0
  body_lt := by decide
  full := by decide
  compact := by decide

/-- An unsigned one with room between its six thresholds. -/
def roomRecord : Record where
  idLo := 2
  idHi := 0
  version := 0x51
  type := 0x1
  body := [0x20, 0, 0x11, 0, 0, 0, 0, 0x01, 0x01, 0, 0, 0, 0, 0x3f, 0, 0x00] ++
    List.replicate 15 0 ++ [240, 220, 200, 10, 20, 30] ++ List.replicate 6 0
  body_lt := by decide
  full := by decide
  compact := by decide

def signedSensor : Sensor := signedRecord.sensor (.int 0x1a)

def roomSensor : Sensor := roomRecord.sensor (.int 0x1a)

def roomState : State where
  offset := 96
  requests := 2
  sensorList := [signedSensor, roomSensor]
  sensorIdMap := [((0x10, 0x20), 0), ((0x11, 0x20), 1)]

theorem roomState_parsed : parseSdrs constantTool (some (dump [signedRecord, roomRecord])) = .ok roomState := by
  decide +kernel

theorem roomState_second : 1 < roomState.sensorList.length := by decide

theorem roomSensor_nonempty : roomSensor.NonemptyRanges where
  auto := by decide +kernel
  fault l := by cases l <;> decide +kernel

end Sdr

/-- An accepted request, `n` actions of its session and `m` of the sensor's thread. -/
def requestRun {σ ι : Type} (s : σ) (i : ι) (r : ModeRequest) (n m : Nat) : List (Event σ ι) :=
  .begin i s (.modeSet r) :: List.replicate n (.session i true) ++ List.replicate m (.thread s 0 true)

open Sdr in
theorem threads_never_raise_roomSensor :
    roomSensor.NonemptyRanges ∧ ∀ w, (simulator (Fin 1) roomState).Reach (FindsLevel ⟨1, roomState_second⟩) w →
      ¬ (w.thread ⟨1, roomState_second⟩).Died :=
  ⟨roomSensor_nonempty, (threads_never_raise (Fin 1) constantTool (some (dump [signedRecord, roomRecord])) roomState
    roomState_parsed ⟨1, roomState_second⟩ (by decide +kernel)).mpr roomSensor_nonempty⟩

open Sdr in
/-- In auto mode the first sensor's thread draws from a range that starts above the
byte 0xf6 and ends at 127. The second one has room, but its thread finds `auto`
first and `user` then, and no level to read. -/
theorem threads_raise :
    (∃ w, (simulator (Fin 1) roomState).Reachable w ∧ w.thread ⟨0, by decide⟩ = .release (.died .valueError)) ∧
      roomSensor.NonemptyRanges ∧ ∃ w, (simulator (Fin 1) roomState).Reachable w ∧
        w.thread ⟨1, roomState_second⟩ = .release (.died .attributeError) := by
  have hboot : (simulator (Fin 1) roomState).Reachable
      (World.boot (fun s => roomState.sensorList[s]) (fun _ _ => false) fun _ => ⟨0, by decide⟩) :=
    .init ⟨World.boot_parseSdrs roomState_parsed _ _, fun _ => rfl⟩
  refine ⟨?_, roomSensor_nonempty, ?_⟩
  · exact hboot.exists_of_run (requestRun ⟨0, by decide⟩ 0 .auto 2 5) _ (by decide +kernel)
  · exact hboot.exists_of_run (requestRun ⟨1, roomState_second⟩ 0 .auto 5 3 ++
      requestRun ⟨1, roomState_second⟩ 0 .user 2 2) _ (by decide +kernel)

end Idic.IpmiSim
