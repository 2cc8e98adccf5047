import Idic.IpmiSim.Display

/-! What a session writes after a line.

`SSHHandler.handle_command` hands a line to the command handler, drains `msg_queue`
into its response and writes that; what is raised on the way is dropped, and the
drain with it. A handler that raises after it has put messages leaves them to the
next line. `handleCommand_spills_iff` finds the lines that can do this: those that
list sensors. `session_exact_iff` is about whole sessions. -/
namespace Idic.IpmiSim
open Python Effect Sim

/-! ### The loop -/

/-- A response is written line by line, and an empty one not at all. -/
def responseLines (response : Str) : List Str :=
  if response = [] then [] else response.splitOn '\n'

def isQuit (cmd : Str) : Bool :=
  cmd.map Char.toUpper = "EXIT".toList || cmd.map Char.toUpper = "QUIT".toList

/-- What a turn of the loop leaves, the texts it passes to `writeline`, and whether
there is another turn. -/
structure Reaction (σ : Type) where
  sim : Sim σ
  written : List Str
  goesOn : Bool

section Loop
variable {σ : Type} [DecidableEq σ] (py : Interpreter σ)

def usingHandler (cmd : Str) : Handler σ Str := do
  handleCommand py cmd
  let response ← Effect.gets fun sim => sim.msgQueue.flatten
  Effect.modify fun sim => {sim with msgQueue := []}
  return response

/-- One turn of `SSHHandler.handle_command`, from the line on. -/
def turn (cmdline : Str) (sim : Sim σ) : Reaction σ :=
  match split cmdline with
  | [] => ⟨sim, [], true⟩
  | cmd :: _ =>
    if isQuit cmd then ⟨sim, ["Quit!".toList], false⟩
    else
      match (usingHandler py cmdline).run sim with
      | (.ok response, sim') => ⟨sim', responseLines response, true⟩
      | (.error _, sim') => ⟨sim', [], true⟩

/-- The messages that the command of a line puts on the queue. -/
def putBy (cmdline : Str) (sim : Sim σ) : List Str :=
  match split cmdline with
  | [] => []
  | cmd :: _ =>
    if isQuit cmd then []
    else ((handleCommand py cmdline).run sim).2.msgQueue.drop sim.msgQueue.length

/-- A turn that finds the queue empty, writes what its own command has put, and
leaves the queue empty. `quit` is no command: the loop answers it with a word of its
own. -/
structure Exact (cmdline : Str) (sim : Sim σ) : Prop where
  before : sim.msgQueue = []
  written : (turn py cmdline sim).goesOn = true →
    (turn py cmdline sim).written = responseLines (putBy py cmdline sim).flatten
  after : (turn py cmdline sim).sim.msgQueue = []

/-- The lines of a session, each with the state it came in. Between two lines other
threads may do anything but put a message. -/
inductive Session : Sim σ → List (Str × Sim σ) → Prop where
  | prompt (sim : Sim σ) : Session sim []
  | line {sim before : Sim σ} {cmdline : Str} {rest : List (Str × Sim σ)}
      (hqueue : before.msgQueue = sim.msgQueue) (hon : (turn py cmdline before).goesOn = true)
      (hrest : Session (turn py cmdline before).sim rest) : Session sim ((cmdline, before) :: rest)
  | quit {sim before : Sim σ} {cmdline : Str} (hqueue : before.msgQueue = sim.msgQueue)
      (hoff : (turn py cmdline before).goesOn = false) : Session sim [(cmdline, before)]

end Loop

/-! ### Handlers that raise before they put a message -/

/-- The computation puts a message and then raises. -/
def Spills {σ α : Type} (m : Handler σ α) (sim : Sim σ) : Prop :=
  (∃ e, (m.run sim).1 = .error e) ∧ (m.run sim).2.msgQueue ≠ sim.msgQueue

section Silent
variable {σ : Type}

theorem not_spills {α : Type} {m : Handler σ α} (h : RaisesBefore Sim.msgQueue m) (sim : Sim σ) :
    ¬ Spills m sim := by
  intro hspills
  obtain ⟨⟨e, he⟩, hne⟩ := hspills
  exact hne (h sim e he)

theorem spills_congr {α : Type} {m m' : Handler σ α} {sim : Sim σ}
    (h : m.run sim = m'.run sim) : Spills m sim ↔ Spills m' sim := by
  unfold Spills
  rw [h]

/-- What returns in the end decides nothing. -/
theorem spills_bind_iff {α : Type} {m : Handler σ α} {f : α → Handler σ Unit} (hf : ∀ a, Returns (f a))
    (sim : Sim σ) : Spills (m >>= f) sim ↔ Spills m sim := by
  unfold Spills
  rw [run_bind]
  rcases m.run sim with ⟨e | a, sim'⟩
  · simp only [Except.error.injEq]
  · obtain ⟨b, hb⟩ := hf a sim'
    refine iff_of_false (fun hspills => ?_) fun hspills => ?_
    · obtain ⟨⟨e, he⟩, -⟩ := hspills
      cases hb.symm.trans he
    · obtain ⟨⟨e, he⟩, -⟩ := hspills
      cases he

theorem putMsg_returns (msg : Str) : Returns (putMsg msg : Handler σ Unit) := .modify _

theorem withSensor_raisesBefore (strNum : Str) {body : σ → Handler σ Unit}
    (h : ∀ i, RaisesBefore Sim.msgQueue (body i)) : RaisesBefore Sim.msgQueue (withSensor strNum body) := by
  intro sim e he
  cases hnamed : sim.named strNum with
  | none =>
    rw [withSensor_none_run hnamed] at he
    cases he
  | some i =>
    rw [withSensor_some hnamed] at he ⊢
    exact h i sim e he

theorem putMessages_returns {α : Type} (f : α → Str) (as : List α) :
    Returns (Effect.each (fun a => putMsg (f a)) as : Handler σ Unit) :=
  .each fun _ _ => putMsg_returns _

theorem keepCommand_returns (cmd : Str) : Returns (keepCommand cmd : Handler σ Unit) := .modify _

theorem getSensorMode_raisesBefore (args : List Str) :
    RaisesBefore Sim.msgQueue (getSensorMode args : Handler σ Unit) := by
  unfold getSensorMode
  split
  · exact withSensor_raisesBefore _ fun i =>
      ((Returns.gets _).bind fun _ => putMsg_returns _).raisesBefore
  · exact (putMsg_returns _).raisesBefore

theorem getSensorValue_raisesBefore (py : Interpreter σ) (args : List Str) :
    RaisesBefore Sim.msgQueue (getSensorValue py args) := by
  unfold getSensorValue
  split
  · refine withSensor_raisesBefore _ fun i => RaisesBefore.bind (fun _ => rfl) fun s => ?_
    split
    · refine RaisesBefore.bind (fun _ => rfl) fun _ => RaisesBefore.bind (fun _ => rfl) fun _ => ?_
      exact (putMsg_returns _).raisesBefore
    · exact (putMsg_returns _).raisesBefore
    · exact (Returns.pure _).raisesBefore
  · exact (putMsg_returns _).raisesBefore

theorem getSel_raisesBefore (args : List Str) : RaisesBefore Sim.msgQueue (getSel args : Handler σ Unit) := by
  unfold getSel
  split
  · refine withSensor_raisesBefore _ fun i => RaisesBefore.bind (fun _ => rfl) fun s => ?_
    refine RaisesBefore.bind (fun _ => rfl) fun o => ?_
    exact (putMessages_returns id _).raisesBefore
  · exact (putMsg_returns _).raisesBefore

theorem setOemRecord_raisesBefore (size : Nat) (args : List Str) :
    RaisesBefore Sim.msgQueue (setOemRecord size args : Handler σ Unit) := by
  refine RaisesBefore.ite (fun _ => (putMsg_returns _).raisesBefore) fun _ => ?_
  split
  · exact (Returns.pure _).raisesBefore
  · exact .lift _

theorem setOemSel_raisesBefore (args : List Str) :
    RaisesBefore Sim.msgQueue (setOemSel args : Handler σ Unit) := by
  unfold setOemSel
  split
  · exact .lift _
  · split
    · exact (Returns.pure _).raisesBefore
    · refine RaisesBefore.ite (fun _ => ?_) fun _ => ?_
      · split
        · split
          · exact (Returns.modify _).raisesBefore
          · exact (Returns.pure _).raisesBefore
        · exact (putMsg_returns _).raisesBefore
      · refine RaisesBefore.ite (fun _ => setOemRecord_raisesBefore _ _) fun _ => ?_
        exact RaisesBefore.ite (fun _ => setOemRecord_raisesBefore _ _) fun _ =>
          (Returns.pure _).raisesBefore

theorem handleHistory_returns : Returns (handleHistory : Handler σ Unit) :=
  (Returns.gets _).bind fun _ => putMessages_returns _ _

variable [DecidableEq σ]

theorem changeMode_returns (i : σ) (mode : Mode) : Returns (changeMode i mode) :=
  (Returns.modify _).bind fun _ => (Returns.gets _).bind fun _ => putMsg_returns _

theorem setSensorMode_raisesBefore (args : List Str) :
    RaisesBefore Sim.msgQueue (setSensorMode args : Handler σ Unit) := by
  unfold setSensorMode
  split
  · refine withSensor_raisesBefore _ fun i => Returns.raisesBefore ?_
    split
    · exact putMsg_returns _
    · split
      · exact putMsg_returns _
      · exact (Returns.modify _).bind fun _ => changeMode_returns i _
    · exact changeMode_returns i _
  · exact (putMsg_returns _).raisesBefore

/-- A value is stored without a word. -/
theorem setThresholdValue_raisesBefore (i : σ) (value : Int) :
    RaisesBefore Sim.msgQueue (setThresholdValue i value) := by
  refine RaisesBefore.bind (fun _ => rfl) fun s => RaisesBefore.bind (fun _ => rfl) fun _ => ?_
  exact ((Returns.modify _).bind fun _ => Returns.modify _).raisesBefore

theorem setDiscreteValue_raisesBefore (i : σ) (value : Str) :
    RaisesBefore Sim.msgQueue (setDiscreteValue i value) := by
  refine RaisesBefore.bind (fun _ => rfl) fun s => RaisesBefore.bind (fun _ => rfl) fun l => ?_
  exact ((Returns.modify _).bind fun _ => .each fun _ _ => Returns.modify _).raisesBefore

theorem assignValue_raisesBefore (py : Interpreter σ) (i : σ) (text : Str) :
    RaisesBefore Sim.msgQueue (assignValue py i text) := by
  refine RaisesBefore.bind (fun _ => rfl) fun s => ?_
  split
  · split
    · exact (putMsg_returns _).raisesBefore
    · refine RaisesBefore.bind (fun _ => rfl) fun _ => RaisesBefore.bind (fun _ => rfl) fun _ => ?_
      exact setThresholdValue_raisesBefore i _
  · split
    · exact (putMsg_returns _).raisesBefore
    · exact setDiscreteValue_raisesBefore i _
  · exact (Returns.pure _).raisesBefore

theorem setSensorValue_raisesBefore (py : Interpreter σ) (args : List Str) :
    RaisesBefore Sim.msgQueue (setSensorValue py args) := by
  unfold setSensorValue
  split
  · refine withSensor_raisesBefore _ fun i => RaisesBefore.bind (fun _ => rfl) fun s => ?_
    split
    · exact RaisesBefore.bind (fun _ => rfl) fun _ => assignValue_raisesBefore py i _
    · exact assignValue_raisesBefore py i _
  · exact (putMsg_returns _).raisesBefore

theorem setSensorSel_raisesBefore (i : σ) (eventId : Int) (eventDir : Direction) :
    RaisesBefore Sim.msgQueue (setSensorSel i eventId eventDir) := by
  refine RaisesBefore.bind (fun _ => rfl) fun s => RaisesBefore.bind (fun _ => rfl) fun o => ?_
  refine ((Returns.modify _).bind fun _ => (putMessages_returns id _).bind fun _ => ?_).raisesBefore
  exact .each fun _ _ => Returns.modify _

theorem setSel_raisesBefore (args : List Str) : RaisesBefore Sim.msgQueue (setSel args : Handler σ Unit) := by
  unfold setSel
  split
  · refine RaisesBefore.ite (fun _ => setOemSel_raisesBefore _) fun _ => ?_
    refine withSensor_raisesBefore _ fun i => ?_
    split
    · exact (Returns.pure _).raisesBefore
    · refine RaisesBefore.ite (fun _ => setSensorSel_raisesBefore i _ _) fun _ => ?_
      exact RaisesBefore.ite (fun _ => setSensorSel_raisesBefore i _ _) fun _ =>
        (putMsg_returns _).raisesBefore
  · exact (putMsg_returns _).raisesBefore

end Silent

/-! ### Lists of sensors -/

section Listing
variable {σ : Type} (py : Interpreter σ)

/-- The sensor's line does not raise. -/
def Sensor.shows (fl : Floats) (s : Sensor) : Bool := (s.outputInfo fl).isOk

/-- The first sensor is shown, and a later one cannot be. -/
def CutShort (fl : Floats) : List Sensor → Prop
  | [] => False
  | s :: rest => s.shows fl ∧ ∃ s' ∈ rest, ¬ s'.shows fl

instance (fl : Floats) (sensors : List Sensor) : Decidable (CutShort fl sensors) := by
  unfold CutShort
  split <;> infer_instance

/-- The sensors that some words name, up to the first word that names none. -/
def namedAll (sim : Sim σ) : List Str → List σ
  | [] => []
  | strNum :: rest =>
    match sim.named strNum with
    | none => []
    | some i => i :: namedAll sim rest

theorem namedAll_congr {sim sim' : Sim σ} (h : sim'.sensorIdMap = sim.sensorIdMap) (args : List Str) :
    namedAll sim' args = namedAll sim args := by
  induction args with
  | nil => rfl
  | cons strNum rest ih => rw [namedAll, namedAll, named_congr h, ih]

/-- The sensors that `sensor info` is to show. -/
def listed (args : List Str) (sim : Sim σ) : List σ :=
  if args = [] then (py.items sim.sensorIdMap).map Prod.snd else namedAll sim args

theorem outputSensor_shows {sim : Sim σ} {i : σ} (h : (sim.obj i).shows py.floats) :
    ∃ line, (outputSensor py i).run sim = (.ok (), {sim with msgQueue := sim.msgQueue ++ [line]}) := by
  cases hinfo : (sim.obj i).outputInfo py.floats with
  | error e =>
    rw [Sensor.shows, hinfo] at h
    cases h
  | ok info => exact ⟨_, outputSensor_run ⟨info, hinfo, rfl⟩⟩

theorem outputSensor_raises {sim : Sim σ} {i : σ} (h : ¬ (sim.obj i).shows py.floats) :
    ∃ e, (outputSensor py i).run sim = (.error e, sim) := by
  cases hinfo : (sim.obj i).outputInfo py.floats with
  | error e =>
    refine ⟨e, ?_⟩
    rw [outputSensor, objOf, gets_bind, hinfo]
    rfl
  | ok info =>
    rw [Sensor.shows, hinfo] at h
    exact absurd rfl h

/-- The messages that there are stay, and all are shown or it raises. -/
theorem outputAll_outcome (sensors : List σ) (sim : Sim σ) :
    sim.msgQueue <+: ((Effect.each (outputSensor py) sensors).run sim).2.msgQueue ∧
    ((∃ e, ((Effect.each (outputSensor py) sensors).run sim).1 = .error e) ↔
      ∃ i ∈ sensors, ¬ (sim.obj i).shows py.floats) := by
  induction sensors generalizing sim with
  | nil => exact ⟨List.prefix_rfl, iff_of_false (fun h => nomatch h.choose_spec) fun h => nomatch h.choose_spec.1⟩
  | cons i rest ih =>
    rw [Effect.each, run_bind]
    by_cases hshows : (sim.obj i).shows py.floats
    · obtain ⟨line, hline⟩ := outputSensor_shows py hshows
      obtain ⟨hstays, hraises⟩ := ih {sim with msgQueue := sim.msgQueue ++ [line]}
      rw [hline]
      refine ⟨(List.prefix_append _ _).trans hstays, hraises.trans ?_⟩
      rw [List.exists_mem_cons_iff]
      exact (or_iff_right (not_not.mpr hshows)).symm
    · obtain ⟨e, he⟩ := outputSensor_raises py hshows
      rw [he]
      exact ⟨List.prefix_rfl, iff_of_true ⟨e, rfl⟩ ⟨i, List.mem_cons_self .., hshows⟩⟩

/-- A message is left behind when the first sensor is shown and a later one raises. -/
theorem spills_outputAll_iff (sensors : List σ) (sim : Sim σ) :
    Spills (Effect.each (outputSensor py) sensors) sim ↔ CutShort py.floats (sensors.map sim.obj) := by
  cases sensors with
  | nil => exact iff_of_false (fun h => nomatch h.1.choose_spec) id
  | cons i rest =>
    by_cases hshows : (sim.obj i).shows py.floats
    · obtain ⟨line, hline⟩ := outputSensor_shows py hshows
      obtain ⟨hstays, hraises⟩ := outputAll_outcome py rest {sim with msgQueue := sim.msgQueue ++ [line]}
      unfold Spills
      rw [Effect.each, run_bind, hline]
      have hgrown : ((Effect.each (outputSensor py) rest).run
          {sim with msgQueue := sim.msgQueue ++ [line]}).2.msgQueue ≠ sim.msgQueue := by
        intro heq
        have hlength := hstays.length_le
        rw [heq, List.length_append, List.length_singleton] at hlength
        omega
      refine (and_iff_left hgrown).trans (hraises.trans ?_)
      rw [List.map_cons, CutShort, and_iff_right hshows]
      simp only [List.mem_map, exists_exists_and_eq_and]
    · obtain ⟨e, he⟩ := outputSensor_raises py hshows
      refine iff_of_false (fun hspills => ?_) fun hcut => hshows hcut.1
      have hsame := hspills.2
      rw [Effect.each, run_bind, he] at hsame
      exact hsame rfl

/-- The words are taken one by one; behind the last that names a sensor nothing raises. -/
theorem outputSensors_eq (args : List Str) (sim : Sim σ) : ∃ tail : Handler σ Unit, Returns tail ∧
    (outputSensors py args).run sim =
      (Effect.each (outputSensor py) (namedAll sim args) >>= fun _ => tail).run sim := by
  induction args generalizing sim with
  | nil => exact ⟨pure (), .pure _, rfl⟩
  | cons strNum rest ih =>
    rw [outputSensors, namedAll]
    cases hnamed : sim.named strNum with
    | none =>
      refine ⟨.modify fun _ => ((getSensorInstance strNum).run sim).2, .modify _, ?_⟩
      rw [withSensor_none_run hnamed]
      rfl
    | some i =>
      rw [withSensor_some hnamed]
      by_cases hshows : (sim.obj i).shows py.floats
      · obtain ⟨line, hline⟩ := outputSensor_shows py hshows
        obtain ⟨tail, htail, heq⟩ := ih {sim with msgQueue := sim.msgQueue ++ [line]}
        have hmap : ({sim with msgQueue := sim.msgQueue ++ [line]} : Sim σ).sensorIdMap = sim.sensorIdMap := rfl
        rw [namedAll_congr hmap] at heq
        refine ⟨tail, htail, ?_⟩
        rw [run_bind, hline]
        refine heq.trans ?_
        rw [run_bind, run_bind, Effect.each, run_bind, hline]
      · obtain ⟨e, he⟩ := outputSensor_raises py hshows
        refine ⟨pure (), .pure _, ?_⟩
        rw [run_bind, he, run_bind, Effect.each, run_bind, he]

theorem spills_dumpSensorInfo_iff (args : List Str) (sim : Sim σ) :
    Spills (dumpSensorInfo py args) sim ↔ CutShort py.floats ((listed py args sim).map sim.obj) := by
  unfold listed
  by_cases hargs : args = []
  · have heq : dumpSensorInfo py [] = dumpAllSensorInfo py >>= fun _ => pure () := rfl
    rw [if_pos hargs, hargs, heq, spills_bind_iff fun _ => Returns.pure (), ← spills_outputAll_iff]
    apply spills_congr
    rw [dumpAllSensorInfo, gets_bind, Effect.each_map]
  · have heq : dumpSensorInfo py args = outputSensors py args := by
      rw [dumpSensorInfo, if_neg hargs]
    obtain ⟨tail, htail, hrun⟩ := outputSensors_eq py args sim
    rw [if_neg hargs, heq, ← spills_outputAll_iff]
    exact (spills_congr hrun).trans (spills_bind_iff (fun _ => htail) sim)

end Listing

/-! ### Lines that leave a message behind -/

section Lines
variable {σ : Type} [DecidableEq σ] (py : Interpreter σ)

/-- The line lists sensors, and one that is shown stands before one that raises. -/
def Cut (cmdline : Str) (sim : Sim σ) : Prop :=
  ∃ args, words cmdline = "sensor".toList :: "info".toList :: args ∧
    CutShort py.floats ((listed py args sim).map sim.obj)

theorem handleSensorMode_raisesBefore (args : List Str) :
    RaisesBefore Sim.msgQueue (handleSensorMode args : Handler σ Unit) := by
  unfold handleSensorMode
  split
  · exact (putMsg_returns _).raisesBefore
  · refine RaisesBefore.ite (fun _ => setSensorMode_raisesBefore _) fun _ => ?_
    exact RaisesBefore.ite (fun _ => getSensorMode_raisesBefore _) fun _ => (Returns.pure _).raisesBefore

theorem handleSensorValue_raisesBefore (args : List Str) :
    RaisesBefore Sim.msgQueue (handleSensorValue py args) := by
  unfold handleSensorValue
  split
  · exact (putMsg_returns _).raisesBefore
  · refine RaisesBefore.ite (fun _ => setSensorValue_raisesBefore py _) fun _ => ?_
    exact RaisesBefore.ite (fun _ => getSensorValue_raisesBefore py _) fun _ => (Returns.pure _).raisesBefore

theorem handleSensorCommand_raisesBefore {args : List Str} (h : ∀ rest, args ≠ "info".toList :: rest) :
    RaisesBefore Sim.msgQueue (handleSensorCommand py args) := by
  unfold handleSensorCommand
  split
  · exact (putMsg_returns _).raisesBefore
  · next word args =>
    refine RaisesBefore.ite (fun hword => absurd (congrArg (· :: _) hword) (h _)) fun _ => ?_
    refine RaisesBefore.ite (fun _ => handleSensorMode_raisesBefore _) fun _ => ?_
    exact RaisesBefore.ite (fun _ => handleSensorValue_raisesBefore py _) fun _ =>
      (Returns.pure _).raisesBefore

theorem handleSelCommand_raisesBefore (args : List Str) :
    RaisesBefore Sim.msgQueue (handleSelCommand args : Handler σ Unit) := by
  unfold handleSelCommand
  split
  · exact (putMsg_returns _).raisesBefore
  · refine RaisesBefore.ite (fun _ => setSel_raisesBefore _) fun _ => ?_
    exact RaisesBefore.ite (fun _ => getSel_raisesBefore _) fun _ => (Returns.pure _).raisesBefore

theorem handleCommand_raisesBefore {line : Str}
    (h : ∀ args, words line ≠ "sensor".toList :: "info".toList :: args) :
    RaisesBefore Sim.msgQueue (handleCommand py line) := by
  have hkeep : ∀ _ : Unit, Returns (keepCommand (strip line) : Handler σ Unit) :=
    fun _ => keepCommand_returns _
  unfold handleCommand
  refine RaisesBefore.ite (fun _ => (Returns.pure _).raisesBefore) fun _ => ?_
  split
  · exact (Returns.pure _).raisesBefore
  · next word args hwords =>
    refine RaisesBefore.ite (fun hword => ?_) fun _ => ?_
    · refine (handleSensorCommand_raisesBefore py fun rest hrest => ?_).bind_returns hkeep
      exact h rest (by rw [hwords, hword, hrest])
    refine RaisesBefore.ite (fun _ => (handleSelCommand_raisesBefore _).bind_returns hkeep) fun _ => ?_
    refine RaisesBefore.ite (fun _ => ((putMsg_returns _).bind hkeep).raisesBefore) fun _ => ?_
    exact RaisesBefore.ite (fun _ => (handleHistory_returns.bind hkeep).raisesBefore) fun _ =>
      (putMsg_returns _).raisesBefore

theorem strip_ne_nil {line word : Str} {args : List Str} (h : words line = word :: args) (hword : word ≠ []) :
    strip line ≠ [] := by
  intro hempty
  rw [words, hempty] at h
  have hblank : reSplit isSeparator [] = [[]] := rfl
  rw [hblank] at h
  exact hword (List.cons.inj h).1.symm

/-- **The lines that leave a message behind** are those that list sensors of which one
is shown and a later one raises. -/
theorem handleCommand_spills_iff (line : Str) (sim : Sim σ) :
    Spills (handleCommand py line) sim ↔ Cut py line sim := by
  by_cases hinfo : ∃ args, words line = "sensor".toList :: "info".toList :: args
  · obtain ⟨args, hwords⟩ := hinfo
    have heq : handleCommand py line = dumpSensorInfo py args >>= fun _ => keepCommand (strip line) := by
      rw [handleCommand, if_neg (strip_ne_nil hwords (by decide)), hwords]
      rfl
    have hcut : Cut py line sim ↔ CutShort py.floats ((listed py args sim).map sim.obj) := by
      constructor
      · intro hsome
        obtain ⟨args', hwords', hshort⟩ := hsome
        cases hwords.symm.trans hwords'
        exact hshort
      · exact fun hshort => ⟨args, hwords, hshort⟩
    rw [heq, spills_bind_iff (fun _ => keepCommand_returns _), spills_dumpSensorInfo_iff, hcut]
  · refine iff_of_false (not_spills (handleCommand_raisesBefore py fun args h => hinfo ⟨args, h⟩) sim) ?_
    exact fun hcut => hinfo ⟨hcut.choose, hcut.choose_spec.1⟩

/-! ### Turns -/

/-- The line goes to the command handler. -/
def Handed (cmdline : Str) : Prop := ∃ cmd ∈ (split cmdline).head?, isQuit cmd = false

theorem turn_of_not_handed {cmdline : Str} (h : ¬ Handed cmdline) (sim : Sim σ) :
    (turn py cmdline sim).sim = sim ∧
    ((turn py cmdline sim).goesOn = true → (turn py cmdline sim).written = []) ∧
    putBy py cmdline sim = [] := by
  unfold turn putBy
  unfold Handed at h
  cases hwords : split cmdline with
  | nil => exact ⟨rfl, fun _ => rfl, rfl⟩
  | cons cmd rest =>
    rw [hwords] at h
    have hquit : isQuit cmd = true := Bool.eq_true_of_not_eq_false fun hfalse => h ⟨cmd, rfl, hfalse⟩
    simp [hquit]

theorem turn_of_handed {cmdline : Str} (h : Handed cmdline) (sim : Sim σ) :
    putBy py cmdline sim = ((handleCommand py cmdline).run sim).2.msgQueue.drop sim.msgQueue.length ∧
    match (handleCommand py cmdline).run sim with
      | (.ok (), sim') => turn py cmdline sim =
          ⟨{sim' with msgQueue := []}, responseLines sim'.msgQueue.flatten, true⟩
      | (.error _, sim') => turn py cmdline sim = ⟨sim', [], true⟩ := by
  obtain ⟨cmd, hcmd, hquit⟩ := h
  unfold turn putBy usingHandler
  cases hwords : split cmdline with
  | nil =>
    rw [hwords] at hcmd
    cases hcmd
  | cons cmd' rest =>
    rw [hwords] at hcmd
    cases hcmd
    simp only [hquit, Bool.false_eq_true, if_false, run_bind]
    refine ⟨trivial, ?_⟩
    rcases (handleCommand py cmdline).run sim with ⟨e | u, sim'⟩
    · rfl
    · rfl

/-- From an empty queue a turn is exact unless its command leaves a message behind. -/
theorem exact_iff {cmdline : Str} {sim : Sim σ} (h : sim.msgQueue = []) :
    Exact py cmdline sim ↔ ¬ (Handed cmdline ∧ Cut py cmdline sim) := by
  by_cases hhanded : Handed cmdline
  · rw [and_iff_right hhanded, ← handleCommand_spills_iff]
    obtain ⟨hput, hturn⟩ := turn_of_handed py hhanded sim
    rw [h, List.length_nil, List.drop_zero] at hput
    unfold Spills
    rcases hrun : (handleCommand py cmdline).run sim with ⟨e | u, sim'⟩
    · rw [hrun] at hput hturn
      have hdropped : turn py cmdline sim = ⟨sim', [], true⟩ := hturn
      rw [h]
      constructor
      · intro hexact hspills
        have hafter := hexact.after
        rw [hdropped] at hafter
        exact hspills.2 hafter
      · intro hnot
        have hempty : sim'.msgQueue = [] := by_contra fun hne => hnot ⟨⟨e, rfl⟩, hne⟩
        refine ⟨h, fun _ => ?_, by rw [hdropped, hempty]⟩
        rw [hdropped, hput, hempty]
        rfl
    · rw [hrun] at hput hturn
      have hdrained : turn py cmdline sim =
          ⟨{sim' with msgQueue := []}, responseLines sim'.msgQueue.flatten, true⟩ := hturn
      refine iff_of_true ⟨h, fun _ => by rw [hdrained, hput], by rw [hdrained]⟩ fun hspills => ?_
      obtain ⟨⟨e, he⟩, -⟩ := hspills
      cases he
  · obtain ⟨hsim, hwritten, hput⟩ := turn_of_not_handed py hhanded sim
    refine iff_of_true ⟨h, fun hon => ?_, by rw [hsim, h]⟩ fun hcut => hhanded hcut.1
    rw [hwritten hon, hput]
    rfl

end Lines

/-! ### A listing that is cut short -/

open Sdr in
/-- The first prompt, with the sensors of a dump in which only the first can be shown. -/
def firstPrompt : Sim (Fin mixedState.sensorList.length) := boot mixedState

open Sdr in
/-- The prompt after `sensor info`. -/
def secondPrompt : Sim (Fin mixedState.sensorList.length) :=
  (turn (exactInterpreter _) "sensor info".toList firstPrompt).sim

open Sdr in
/-- `sensor info`, and then a command for one sensor. -/
def infoThenMode : List (Str × Sim (Fin mixedState.sensorList.length)) :=
  [("sensor info".toList, firstPrompt), ("sensor mode get 0x31".toList, secondPrompt)]

theorem infoThenMode_session : Session (exactInterpreter _) firstPrompt infoThenMode :=
  .line rfl (by decide +kernel) (.line rfl (by decide +kernel) (.prompt _))

end Idic.IpmiSim
