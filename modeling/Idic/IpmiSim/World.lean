import Idic.IpmiSim.Command
import Idic.IpmiSim.Sdr
import Idic.Threads.System

/-! The whole simulator: sensors with their threads, command sessions, the main thread.

`system` has one event for each action of one thread, for the time limit of a
`wait`, for a session starting a command and for the interrupt that sends the main
thread into `free_resource`. Nothing bounds the number of sensors or sessions or
says which thread acts next. What concerns one sensor `s` is its `Spot`:
what is shared, its thread, the sessions where they work on it and the main
thread's place; `step_moves` lists what a step of the system can do there. -/
namespace Idic.IpmiSim
open Python Threads

/-- A thread: a session, a sensor's thread or the main thread. -/
inductive Tid (σ ι : Type) where
  | session (i : ι)
  | sensor (s : σ)
  | main
  deriving DecidableEq

/-- The main thread serves, or is in the loop of `free_resource` with the sensors
that are left, at `ph` for the first of them. With none left it joins. -/
inductive MainPc (σ : Type) where
  | serving
  | freeing (todo : List σ) (ph : FreePhase)
  deriving DecidableEq

/-- A session is kept with the sensor of its last command. -/
structure World (σ ι : Type) where
  shared : σ → Shared (Tid σ ι)
  lock : Option (Tid σ ι)
  thread : σ → ThreadPc
  session : ι → σ × CommandPc
  main : MainPc σ

inductive Event (σ ι : Type) where
  | thread (s : σ) (rng : Nat) (delivered : Bool)
  | timeout (s : σ)
  | begin (i : ι) (s : σ) (c : Command)
  | session (i : ι) (delivered : Bool)
  | interrupt
  | main
  deriving DecidableEq

/-- The session that acts in an event. -/
def Event.session? {σ ι : Type} : Event σ ι → Option ι
  | .session i _ => some i
  | _ => none

namespace World
variable {σ ι : Type}

def view (w : World σ ι) (s : σ) : View (Tid σ ι) := ⟨w.shared s, w.lock⟩

/-- Nothing has happened since `parse_sdrs` and `spawn_sensor_thread`. -/
structure Initial (w : World σ ι) : Prop where
  fresh : ∀ s, Sdr.Fresh (w.shared s).obj
  reading : ∀ s, (w.shared s).bmc.reading = none
  condition : ∀ s, (w.shared s).condition = ⟨none, []⟩
  lockSensorWrite : ∀ s, (w.shared s).lockSensorWrite = none
  lock : w.lock = none
  thread : ∀ s, w.thread s = ThreadPc.start (w.shared s).obj
  session : ∀ i, (w.session i).2 = .returned
  main : w.main = .serving

/-- The simulator as it comes up with its sensors, before any event. -/
def boot (obj : σ → Sensor) (states : σ → StateBits) (last : ι → σ) : World σ ι where
  shared s := ⟨obj s, ⟨none, []⟩, none, ⟨none, states s⟩⟩
  lock := none
  thread s := ThreadPc.start (obj s)
  session i := (last i, .returned)
  main := .serving

theorem boot_initial {obj : σ → Sensor} (h : ∀ s, Sdr.Fresh (obj s)) (states : σ → StateBits)
    (last : ι → σ) : (boot obj states last).Initial :=
  ⟨h, fun _ => rfl, fun _ => rfl, fun _ => rfl, rfl, fun _ => rfl, fun _ => rfl, rfl⟩

/-- The sensors that `parse_sdrs` builds are ones the simulator comes up with. -/
theorem boot_parseSdrs {ipmitool : Sdr.Ipmitool} {sdrBin : Option (List UInt8)} {st : Sdr.State}
    (h : Sdr.parseSdrs ipmitool sdrBin = .ok st)
    (states : Fin st.sensorList.length → StateBits) (last : ι → Fin st.sensorList.length) :
    (boot (fun s => st.sensorList[s]) states last).Initial :=
  boot_initial (fun s => Sdr.parseSdrs_fresh ipmitool sdrBin st h _ (List.getElem_mem s.isLt)) states last

variable [DecidableEq σ] [DecidableEq ι]

def put (w : World σ ι) (s : σ) (v : View (Tid σ ι)) : World σ ι :=
  {w with shared := Function.update w.shared s v.toShared, lock := v.lock}

def setThread (w : World σ ι) (s : σ) (pc : ThreadPc) : World σ ι :=
  {w with thread := Function.update w.thread s pc}

def setSession (w : World σ ι) (i : ι) (s : σ) (pc : CommandPc) : World σ ι :=
  {w with session := Function.update w.session i (s, pc)}

def setMain (w : World σ ι) (m : MainPc σ) : World σ ι := {w with main := m}

/-- After the first sensor's turn, the next one's. -/
def nextMain (s : σ) (rest : List σ) : Option FreePhase → MainPc σ
  | some ph => .freeing (s :: rest) ph
  | none => .freeing rest .setMode

/-- One event; `sensorList` is the list that `free_resource` goes through. -/
def step (sensorList : List σ) (e : Event σ ι) (w : World σ ι) : Option (World σ ι) :=
  match e with
  | .thread s rng delivered =>
    ((w.thread s).step (.sensor s) rng delivered (w.view s)).map fun (pc, v) =>
      (w.put s v).setThread s pc
  | .timeout s =>
    if w.thread s = .waiting true then
      some (w.put s ((w.view s).setCondition ((w.shared s).condition.expire (.sensor s))))
    else none
  | .begin i s c =>
    if (w.session i).2 = .returned then
      some (w.setSession i s c.start)
    else none
  | .session i delivered =>
    let (s, pc) := w.session i
    (pc.step (.session i) delivered (w.view s)).map fun (pc, v) =>
      (w.put s v).setSession i s pc
  | .interrupt =>
    match w.main with
    | .serving => some (w.setMain (.freeing sensorList .setMode))
    | .freeing .. => none
  | .main =>
    match w.main with
    | .freeing (s :: rest) ph =>
      (ph.step .main (w.view s)).map fun (ph, v) => (w.put s v).setMain (nextMain s rest ph)
    | _ => none

end World

/-- The simulator as a system of events. -/
def system (σ ι : Type) [DecidableEq σ] [DecidableEq ι] (sensorList : List σ) :
    System (World σ ι) (Event σ ι) where
  init := World.Initial
  step := World.step sensorList

/-! ### One sensor's spot -/

/-- The main thread seen from one sensor: not there yet, in its turn, or done with it. -/
inductive MainAt where
  | ahead
  | at (ph : FreePhase)
  | past
  deriving DecidableEq, Repr

structure Spot (σ ι : Type) where
  shared : Shared (Tid σ ι)
  thread : ThreadPc
  session : ι → CommandPc
  main : MainAt

variable {σ ι : Type} [DecidableEq σ]

def MainPc.at (m : MainPc σ) (s : σ) : MainAt :=
  match m with
  | .serving => .ahead
  | .freeing [] _ => .past
  | .freeing (s' :: rest) ph => if s' = s then .at ph else if s ∈ rest then .ahead else .past

/-- Where a session is as far as sensor `s` is concerned. -/
def World.on (w : World σ ι) (s : σ) (i : ι) : CommandPc :=
  if (w.session i).1 = s then (w.session i).2 else .returned

def World.spot (w : World σ ι) (s : σ) : Spot σ ι :=
  ⟨w.shared s, w.thread s, w.on s, w.main.at s⟩

/-- Events that act on the spot of `s`. -/
def Event.Concerns (s : σ) (p : Spot σ ι) : Event σ ι → Prop
  | .thread s' .. | .timeout s' | .begin _ s' _ => s' = s
  | .session i _ => p.session i ≠ .returned
  | .interrupt => False
  | .main => ∃ ph, p.main = .at ph

/-- How the main thread's place can change while it works on other sensors. -/
inductive MainAt.Onward (listed : Prop) : MainAt → MainAt → Prop where
  | stay (m : MainAt) : Onward listed m m
  | arrive : Onward listed .ahead (.at .setMode)
  | unlisted (h : ¬ listed) : Onward listed .ahead .past

/-- Where the main thread is after its turn: `s` may be in the list again. -/
def MainAt.Left (m : MainAt) : Prop := ∀ ph, m = .at ph → ph = .setMode

variable [DecidableEq ι] in
/-- What one event can do to the spot of `s`. -/
inductive Spot.Moves (listed : Prop) (s : σ) (p : Spot σ ι) : Event σ ι → Spot σ ι → Prop where
  | thread {rng delivered l pc v} (h : p.thread.step (.sensor s) rng delivered ⟨p.shared, l⟩ = some (pc, v)) :
      Moves listed s p (.thread s rng delivered) {p with shared := v.toShared, thread := pc}
  | timeout (h : p.thread = .waiting true) :
      Moves listed s p (.timeout s)
        {p with shared := {p.shared with condition := p.shared.condition.expire (.sensor s)}}
  | begin {i} (c : Command) (h : p.session i = .returned) :
      Moves listed s p (.begin i s c) {p with session := Function.update p.session i c.start}
  | session {i delivered l pc v}
      (h : (p.session i).step (.session i) delivered ⟨p.shared, l⟩ = some (pc, v)) :
      Moves listed s p (.session i delivered)
        {p with shared := v.toShared, session := Function.update p.session i pc}
  | mainTurn {ph ph' l v} (hat : p.main = .at ph) (h : ph.step .main ⟨p.shared, l⟩ = some (some ph', v)) :
      Moves listed s p .main {p with shared := v.toShared, main := .at ph'}
  | mainLeaves {ph l v m} (hat : p.main = .at ph) (h : ph.step .main ⟨p.shared, l⟩ = some (none, v))
      (hm : m.Left) : Moves listed s p .main {p with shared := v.toShared, main := m}
  | elsewhere {e m} (he : ¬ e.Concerns s p) (hm : p.main.Onward listed m) :
      Moves listed s p e {p with main := m}

/-! ### Steps at the spot -/

namespace World
variable {sensorList : List σ}

theorem spot_put (w : World σ ι) (s : σ) (v : View (Tid σ ι)) :
    (w.put s v).spot s = {w.spot s with shared := v.toShared} := by
  simp only [spot, put, Function.update_self]
  rfl

theorem spot_put_of_ne (w : World σ ι) {s s' : σ} (h : s ≠ s') (v : View (Tid σ ι)) :
    (w.put s' v).spot s = w.spot s := by
  simp only [spot, put, Function.update_of_ne h]
  rfl

theorem spot_setThread (w : World σ ι) (s : σ) (pc : ThreadPc) :
    (w.setThread s pc).spot s = {w.spot s with thread := pc} := by
  simp only [spot, setThread, Function.update_self]
  rfl

theorem spot_setThread_of_ne (w : World σ ι) {s s' : σ} (h : s ≠ s') (pc : ThreadPc) :
    (w.setThread s' pc).spot s = w.spot s := by
  simp only [spot, setThread, Function.update_of_ne h]
  rfl

theorem spot_setMain (w : World σ ι) (s : σ) (m : MainPc σ) :
    (w.setMain m).spot s = {w.spot s with main := m.at s} := rfl

theorem on_of_eq {w : World σ ι} {s : σ} {i : ι} {pc : CommandPc} (h : w.session i = (s, pc)) :
    w.on s i = pc := by
  simp only [on, h, if_true]

theorem on_of_ne {w : World σ ι} {s s' : σ} {i : ι} {pc : CommandPc} (h : w.session i = (s', pc))
    (hne : s' ≠ s) : w.on s i = .returned := by
  simp only [on, h, if_neg hne]

/-- Before any event no session is at work on any sensor. -/
theorem Initial.on_returned {w : World σ ι} (h : w.Initial) (s : σ) (i : ι) :
    (w.spot s).session i = .returned := by
  show w.on s i = .returned
  simp only [on, h.session i, ite_self]

section Sessions
variable [DecidableEq ι]

theorem on_setSession (w : World σ ι) (s s' : σ) (i : ι) (pc : CommandPc) :
    (w.setSession i s' pc).on s = Function.update (w.on s) i (if s' = s then pc else .returned) := by
  funext j
  by_cases hj : j = i
  · subst hj
    simp only [on, setSession, Function.update_self]
  · simp only [on, setSession, Function.update_of_ne hj]

theorem spot_setSession (w : World σ ι) (s : σ) (i : ι) (pc : CommandPc) :
    (w.setSession i s pc).spot s =
      {w.spot s with session := Function.update (w.spot s).session i pc} := by
  simp only [spot, on_setSession, if_true]
  rfl

theorem spot_setSession_of_ne (w : World σ ι) {s s' : σ} (h : s' ≠ s) (i : ι) (pc : CommandPc)
    (hreturned : w.on s i = .returned) : (w.setSession i s' pc).spot s = w.spot s := by
  simp only [spot, on_setSession, if_neg h]
  rw [← hreturned, Function.update_eq_self]
  rfl

end Sessions

theorem nextMain_left (s : σ) (rest : List σ) : ((nextMain s rest none).at s).Left := by
  intro ph hph
  cases rest with
  | nil => cases hph
  | cons s' rest =>
    simp only [nextMain, MainPc.at] at hph
    split at hph
    · exact (MainAt.at.inj hph).symm
    · split at hph <;> cases hph

/-- Setting out on a list, as one of its sensors sees it. -/
theorem freeing_onward (s : σ) (todo : List σ) (listed : Prop) (h : s ∉ todo → ¬ listed) :
    MainAt.ahead.Onward listed ((MainPc.freeing todo .setMode).at s) := by
  cases todo with
  | nil => exact .unlisted (h (by simp))
  | cons s' rest =>
    simp only [MainPc.at]
    by_cases hs : s' = s
    · rw [if_pos hs]
      exact .arrive
    · rw [if_neg hs]
      by_cases hrest : s ∈ rest
      · rw [if_pos hrest]
        exact .stay _
      · rw [if_neg hrest]
        exact .unlisted (h (by simp [Ne.symm hs, hrest]))

theorem freeing_of_not_mem {s : σ} {todo : List σ} (h : s ∉ todo) (ph : FreePhase) :
    (MainPc.freeing todo ph).at s = .past := by
  cases todo with
  | nil => rfl
  | cons s' rest =>
    simp only [List.mem_cons, not_or] at h
    simp only [MainPc.at, if_neg (Ne.symm h.1), if_neg h.2]

theorem nextMain_onward {s s' : σ} (hne : s' ≠ s) (rest : List σ) (ph : FreePhase)
    (ph' : Option FreePhase) (listed : Prop) :
    ((MainPc.freeing (s' :: rest) ph).at s).Onward listed ((nextMain s' rest ph').at s) := by
  have hat (ph : FreePhase) :
      (MainPc.freeing (s' :: rest) ph).at s = if s ∈ rest then .ahead else .past := by
    simp only [MainPc.at, if_neg hne]
  cases ph' with
  | some ph' =>
    rw [nextMain, hat, hat]
    exact .stay _
  | none =>
    rw [nextMain, hat]
    by_cases hrest : s ∈ rest
    · rw [if_pos hrest]
      exact freeing_onward s rest listed (fun h => absurd hrest h)
    · rw [if_neg hrest, freeing_of_not_mem hrest]
      exact .stay _

variable [DecidableEq ι]

theorem session_moves (s : σ) {i : ι} {delivered : Bool} {w w' : World σ ι}
    (h : w.step sensorList (.session i delivered) = some w') :
    (w.spot s).Moves (s ∈ sensorList) s (.session i delivered) (w'.spot s) := by
  rcases hi : w.session i with ⟨s', pc₀⟩
  simp only [step, hi] at h
  obtain ⟨⟨pc, v⟩, hpc, rfl⟩ := Option.map_eq_some_iff.mp h
  show (w.spot s).Moves _ s _ (((w.put s' v).setSession i s' pc).spot s)
  by_cases hs : s' = s
  · subst hs
    rw [spot_setSession, spot_put]
    rw [← on_of_eq hi] at hpc
    exact .session hpc
  · have hon : (w.put s' v).on s i = .returned := on_of_ne hi hs
    rw [spot_setSession_of_ne _ hs i pc hon, spot_put_of_ne w (Ne.symm hs)]
    exact .elsewhere (fun hconcerns => hconcerns hon) (.stay _)

theorem main_moves (s : σ) {w : World σ ι} {s' : σ} {rest : List σ} {ph : FreePhase}
    (hmain : w.main = .freeing (s' :: rest) ph) {ph' : Option FreePhase} {v : View (Tid σ ι)}
    (hph : ph.step .main (w.view s') = some (ph', v)) :
    (w.spot s).Moves (s ∈ sensorList) s .main (((w.put s' v).setMain (nextMain s' rest ph')).spot s) := by
  by_cases hs : s' = s
  · subst hs
    have hat : (w.spot s').main = .at ph := by simp only [spot, hmain, MainPc.at, if_true]
    rw [spot_setMain, spot_put]
    cases ph' with
    | some ph' =>
      rw [show (nextMain s' rest (some ph')).at s' = .at ph' by simp [nextMain, MainPc.at]]
      exact .mainTurn hat hph
    | none => exact .mainLeaves hat hph (nextMain_left s' rest)
  · have honward := nextMain_onward hs rest ph ph' (s ∈ sensorList)
    rw [← hmain] at honward
    rw [spot_setMain, spot_put_of_ne w (Ne.symm hs)]
    refine .elsewhere ?_ honward
    intro hsome
    obtain ⟨ph'', hph''⟩ := hsome
    simp only [spot, hmain, MainPc.at, if_neg hs] at hph''
    split at hph'' <;> cases hph''

/-- Every step of the system is, at the spot of `s`, one of the moves. -/
theorem step_moves (s : σ) {e : Event σ ι} {w w' : World σ ι} (h : w.step sensorList e = some w') :
    (w.spot s).Moves (s ∈ sensorList) s e (w'.spot s) := by
  cases e with
  | thread s' rng delivered =>
    obtain ⟨⟨pc, v⟩, hpc, rfl⟩ := Option.map_eq_some_iff.mp h
    show (w.spot s).Moves _ s _ (((w.put s' v).setThread s' pc).spot s)
    by_cases hs : s' = s
    · subst hs
      rw [spot_setThread, spot_put]
      exact .thread hpc
    · rw [spot_setThread_of_ne _ (Ne.symm hs), spot_put_of_ne _ (Ne.symm hs)]
      exact .elsewhere hs (.stay _)
  | timeout s' =>
    simp only [step] at h
    split at h
    · next hwaiting =>
      cases h
      by_cases hs : s' = s
      · subst hs
        rw [spot_put]
        exact .timeout hwaiting
      · rw [spot_put_of_ne w (Ne.symm hs)]
        exact .elsewhere hs (.stay _)
    · cases h
  | begin i s' c =>
    simp only [step] at h
    split at h
    · next hreturned =>
      cases h
      have hon : w.on s i = .returned := by simp only [on, hreturned, ite_self]
      by_cases hs : s' = s
      · subst hs
        rw [spot_setSession]
        exact .begin c hon
      · rw [spot_setSession_of_ne w hs i c.start hon]
        exact .elsewhere hs (.stay _)
    · cases h
  | session i delivered => exact session_moves s h
  | interrupt =>
    simp only [step] at h
    split at h
    · next hmain =>
      cases h
      rw [spot_setMain]
      refine .elsewhere id ?_
      rw [show (w.spot s).main = .ahead by simp only [spot, hmain, MainPc.at]]
      exact freeing_onward s sensorList _ id
    · cases h
  | main =>
    simp only [step] at h
    split at h
    · next s' rest ph hmain =>
      obtain ⟨⟨ph', v⟩, hph, rfl⟩ := Option.map_eq_some_iff.mp h
      exact main_moves s hmain hph
    · cases h

end World

/-! ### A small simulator -/

/-- A fan with all six thresholds readable. -/
def fanSensor : Sensor where
  name := "Fan".toList
  ID := 0x30
  value := .int 100
  tp := 0x04
  lnr := 10
  lc := 20
  lnc := 30
  unc := 200
  uc := 220
  unr := 240
  mc := 0x20
  eventType := 0x01
  rtm := 0x3f
  factors := some ⟨0x01, 0x00, 0x00, 0x00, 0x00, 0x00⟩

/-- One fan, and the sessions `ι`. -/
def fanWorld (ι : Type) : World Unit ι :=
  World.boot (fun _ => fanSensor) (fun _ _ => false) (fun _ => ())

theorem fanWorld_initial (ι : Type) : (fanWorld ι).Initial :=
  World.boot_initial (fun _ => ⟨rfl, rfl, rfl⟩) _ _

theorem fanWorld_reachable (ι : Type) [DecidableEq ι]
    (allowed : Event Unit ι → World Unit ι → Prop) :
    (system Unit ι [()]).Reach allowed (fanWorld ι) :=
  .init (fanWorld_initial ι)

theorem fanWorld_withHistory (ι : Type) [DecidableEq ι] {H : Type} (start : H)
    (update : Event Unit ι → World Unit ι → H → H)
    (allowed : Event Unit ι → World Unit ι × H → Prop) :
    ((system Unit ι [()]).withHistory start update).Reach allowed (fanWorld ι, start) :=
  .init ⟨fanWorld_initial ι, rfl⟩

/-- `n` actions of the fan's thread, every send delivered. -/
def threadSteps (ι : Type) (n : Nat) : List (Event Unit ι) := List.replicate n (.thread () 0 true)

/-- `n` actions of a session. -/
def sessionSteps {ι : Type} (i : ι) (n : Nat) : List (Event Unit ι) :=
  List.replicate n (.session i true)

/-- The start of a command on the fan and `n` actions of it. -/
def commandSteps {ι : Type} (i : ι) (c : Command) (n : Nat) : List (Event Unit ι) :=
  .begin i () c :: sessionSteps i n

end Idic.IpmiSim
