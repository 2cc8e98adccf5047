import Idic.IpmiSim.Separators
import Idic.Threads.System
import Mathlib.Data.List.DropRight

/-! The lines that the sessions keep.

The sessions share one `Command_Handler` and with it one history. A session reads the
history's length before it runs a command, and goes by it afterwards when it keeps the
line. `sessions` lets any number of sessions do this at once, and `record` watches the
lines that were ever kept beside it. `history_recent` is about the runs in which no
session goes by a length that is out of date. -/
namespace Idic.IpmiSim
open Python Effect Sim Threads

/-! ### What the commands do to the history -/

section Kept
variable {σ : Type} {R : Sim σ → Sim σ → Prop} [Std.Refl R] [IsTrans (Sim σ) R]

/-- The actions of the handlers stay in a relation: messages, commands and changes of a
sensor. Then so does every handler. -/
structure ActionsKeep [DecidableEq σ] (R : Sim σ → Sim σ → Prop) : Prop where
  put : ∀ msg, Keeps R (putMsg msg : Handler σ Unit)
  send : ∀ c, Keeps R (sendCommand c : Handler σ Unit)
  update : ∀ i f, Keeps R (updateObj i f : Handler σ Unit)

namespace ActionsKeep
variable [DecidableEq σ] (h : ActionsKeep R) (py : Interpreter σ)
include h

theorem setThresholdValue (i : σ) (value : Int) : Keeps R (IpmiSim.setThresholdValue i value) :=
  Keeps.bind (.gets _) fun _ => Keeps.bind (.lift _) fun _ => (h.update i _).bind fun _ => h.send _

theorem setDiscreteValue (i : σ) (value : Str) : Keeps R (IpmiSim.setDiscreteValue i value) :=
  Keeps.bind (.gets _) fun _ => Keeps.bind (.lift _) fun _ => (h.update i _).bind fun _ =>
    .each fun _ _ => h.send _

theorem setSensorSel (i : σ) (eventId : Int) (eventDir : Direction) :
    Keeps R (IpmiSim.setSensorSel i eventId eventDir) :=
  Keeps.bind (.gets _) fun _ => Keeps.bind (.lift _) fun _ => (h.update i _).bind fun _ =>
    Keeps.bind (.each fun _ _ => h.put _) fun _ => .each fun _ _ => h.send _

theorem changeMode (i : σ) (mode : Mode) : Keeps R (IpmiSim.changeMode i mode) :=
  (h.update i _).bind fun _ => Keeps.bind (.gets _) fun _ => h.put _

theorem handleSensorMode (args : List Str) : Keeps R (IpmiSim.handleSensorMode args) := by
  have hset (args : List Str) : Keeps R (setSensorMode args) := by
    unfold setSensorMode
    split
    · refine withSensor_keeps h.put _ fun i => ?_
      split
      · exact h.put _
      · split
        · exact h.put _
        · exact (h.update i _).bind fun _ => h.changeMode i _
      · exact h.changeMode i _
    · exact h.put _
  unfold IpmiSim.handleSensorMode
  split
  · exact h.put _
  · exact Keeps.ite (fun _ => hset _) fun _ =>
      Keeps.ite (fun _ => getSensorMode_keeps h.put _) fun _ => .pure _

theorem assignValue (i : σ) (text : Str) : Keeps R (IpmiSim.assignValue py i text) := by
  refine Keeps.bind (.gets _) fun s => ?_
  split
  · split
    · exact h.put _
    · exact Keeps.bind (.lift _) fun _ => Keeps.bind (.lift _) fun _ => h.setThresholdValue i _
  · split
    · exact h.put _
    · exact h.setDiscreteValue i _
  · exact .pure _

theorem handleSensorValue (args : List Str) : Keeps R (IpmiSim.handleSensorValue py args) := by
  have hset (args : List Str) : Keeps R (setSensorValue py args) := by
    unfold setSensorValue
    split
    · refine withSensor_keeps h.put _ fun i => Keeps.bind (.gets _) fun s => ?_
      split
      · exact (h.update i _).bind fun _ => h.assignValue py i _
      · exact h.assignValue py i _
    · exact h.put _
  unfold IpmiSim.handleSensorValue
  split
  · exact h.put _
  · exact Keeps.ite (fun _ => hset _) fun _ =>
      Keeps.ite (fun _ => getSensorValue_keeps h.put py _) fun _ => .pure _

theorem handleSensorCommand (args : List Str) : Keeps R (IpmiSim.handleSensorCommand py args) := by
  unfold IpmiSim.handleSensorCommand
  split
  · exact h.put _
  · refine Keeps.ite (fun _ => dumpSensorInfo_keeps h.put py _) fun _ => ?_
    exact Keeps.ite (fun _ => h.handleSensorMode _) fun _ =>
      Keeps.ite (fun _ => h.handleSensorValue py _) fun _ => .pure _

theorem handleSelCommand (args : List Str) : Keeps R (IpmiSim.handleSelCommand args : Handler σ Unit) := by
  have hset (args : List Str) : Keeps R (setSel args) := by
    unfold setSel
    split
    · refine Keeps.ite (fun _ => setOemSel_keeps h.put h.send _) fun _ => withSensor_keeps h.put _ fun i => ?_
      split
      · exact .pure _
      · exact Keeps.ite (fun _ => h.setSensorSel i _ _) fun _ =>
          Keeps.ite (fun _ => h.setSensorSel i _ _) fun _ => h.put _
    · exact h.put _
  unfold IpmiSim.handleSelCommand
  split
  · exact h.put _
  · exact Keeps.ite (fun _ => hset _) fun _ =>
      Keeps.ite (fun _ => getSel_keeps h.put _) fun _ => .pure _

theorem dispatch (args : List Str) : Keeps R (IpmiSim.dispatch py args) := by
  unfold IpmiSim.dispatch
  split
  · exact .pure _
  · refine Keeps.ite (fun _ => (h.handleSensorCommand py _).bind fun _ => .pure _) fun _ => ?_
    refine Keeps.ite (fun _ => (h.handleSelCommand _).bind fun _ => .pure _) fun _ => ?_
    refine Keeps.ite (fun _ => (h.put _).bind fun _ => .pure _) fun _ => ?_
    exact Keeps.ite (fun _ => (handleHistory_keeps h.put).bind fun _ => .pure _) fun _ =>
      (h.put _).bind fun _ => .pure _

end ActionsKeep

end Kept

/-- The history is not touched while a command runs. -/
def Sim.SameHistory {σ : Type} (sim sim' : Sim σ) : Prop := sim'.commandHistory = sim.commandHistory

instance {σ : Type} : Std.Refl (Sim.SameHistory (σ := σ)) where
  refl _ := rfl

instance {σ : Type} : IsTrans (Sim σ) Sim.SameHistory where
  trans _ _ _ h h' := Eq.trans h' h

theorem actionsKeep_sameHistory {σ : Type} [DecidableEq σ] : ActionsKeep (σ := σ) Sim.SameHistory where
  put _ := .modify fun _ => rfl
  send _ := .modify fun _ => rfl
  update _ _ := .modify fun _ => rfl

theorem dispatch_sameHistory {σ : Type} [DecidableEq σ] (py : Interpreter σ) (args : List Str) (sim : Sim σ) :
    ((dispatch py args).run sim).2.commandHistory = sim.commandHistory :=
  actionsKeep_sameHistory.dispatch py args sim

/-- The lines of `history`. -/
def listing (commands : List Str) : List Str :=
  commands.zipIdx.map fun (command, i) => decimal (i : Nat) ++ "  ".toList ++ command ++ "\n".toList

theorem putEach_run {σ α : Type} (f : α → Str) (as : List α) (sim : Sim σ) :
    (Effect.each (fun a => putMsg (f a)) as : Handler σ Unit).run sim =
      (.ok (), {sim with msgQueue := sim.msgQueue ++ as.map f}) := by
  induction as generalizing sim with
  | nil => rw [List.map_nil, List.append_nil]; rfl
  | cons a rest ih =>
    rw [Effect.each, run_bind]
    show (Effect.each (fun a => putMsg (f a)) rest).run {sim with msgQueue := sim.msgQueue ++ [f a]} = _
    rw [ih, List.map_cons, List.append_assoc, List.singleton_append]

theorem handleHistory_run {σ : Type} (sim : Sim σ) :
    handleHistory.run sim =
      (.ok (), {sim with msgQueue := sim.msgQueue ++ listing (sim.commandHistory.take 30)}) :=
  putEach_run _ _ sim

/-- The end of `handle_command`, by the length that was read at its start. -/
def keepAfter {σ : Type} (num : Nat) (cmd : Str) (sim : Sim σ) : Sim σ :=
  {sim with commandHistory :=
    (if 30 ≤ num then sim.commandHistory.tail else sim.commandHistory) ++ [cmd]}

/-! ### Sessions -/

namespace History

/-- Where a session is in `handle_command`. -/
inductive Pc where
  | idle
  /-- the command runs; `num` is the length that was read -/
  | runs (num : Nat) (line : Str)
  /-- the command was accepted and has returned -/
  | keeps (num : Nat) (cmd : Str)
  deriving DecidableEq

/-- The length that a session has read. -/
def Pc.num : Pc → Nat
  | .idle => 0
  | .runs num _ | .keeps num _ => num

/-- What the sessions share, and where each is. -/
structure State (σ ι : Type) where
  sim : Sim σ
  pc : ι → Pc

/-- A session is handed a line, runs its command or keeps it, or other threads do
something. -/
inductive Event (σ ι : Type) where
  | line (i : ι) (line : Str)
  | run (i : ι)
  | keep (i : ι)
  | other (sim : Sim σ)

section Kept
variable {σ ι : Type}

/-- The lines that were ever kept. -/
def record (e : Event σ ι) (w : State σ ι) (kept : List Str) : List Str :=
  match e with
  | .keep i =>
    match w.pc i with
    | .keeps _ cmd => kept ++ [cmd]
    | _ => kept
  | _ => kept

/-- The history is the last thirty lines that were kept, and `history` lists them. -/
structure Recent (kept : List Str) (sim : Sim σ) : Prop where
  bounded : sim.commandHistory.length ≤ 30
  recent : sim.commandHistory = kept.rtake 30
  listed : (handleHistory.run sim).2.msgQueue = sim.msgQueue ++ listing (kept.rtake 30)

/-- A session that has read fewer than thirty entries keeps its line while there still
are fewer. -/
def KeepsInTime (e : Event σ ι) (w : State σ ι) : Prop :=
  ∀ i, e = .keep i → ∀ num cmd, w.pc i = .keeps num cmd → num < 30 → w.sim.commandHistory.length < 30

/-! ### The last thirty lines -/

theorem length_rtake_le (kept : List Str) : (kept.rtake 30).length ≤ 30 := by
  rw [List.rtake, List.length_drop]
  omega

theorem rtake_of_short {kept : List Str} (h : kept.length ≤ 30) : kept.rtake 30 = kept := by
  rw [List.rtake, Nat.sub_eq_zero_of_le h, List.drop_zero]

/-- Behind a full history the oldest line gives way. -/
theorem tail_rtake_append {kept : List Str} (h : 30 ≤ kept.length) (cmd : Str) :
    (kept.rtake 30).tail ++ [cmd] = (kept ++ [cmd]).rtake 30 := by
  have hnext : kept.length + 1 - 30 = kept.length - 30 + 1 := by omega
  rw [List.rtake, List.rtake, List.tail_drop, List.length_append, List.length_singleton, hnext,
    List.drop_append_of_le_length (by omega)]

/-- The history is the last thirty lines, and whoever has read a full one found thirty
lines kept. -/
structure Invariant (kept : List Str) (w : State σ ι) : Prop where
  recent : w.sim.commandHistory = kept.rtake 30
  full : ∀ i, 30 ≤ (w.pc i).num → 30 ≤ kept.length

theorem recent_of_eq {kept : List Str} {sim : Sim σ} (h : sim.commandHistory = kept.rtake 30) :
    Recent kept sim := by
  have hbounded : sim.commandHistory.length ≤ 30 := h ▸ length_rtake_le kept
  refine ⟨hbounded, h, ?_⟩
  rw [handleHistory_run, List.take_of_length_le hbounded, h]

/-- Where a session goes by the length it has read, the history stays the last thirty
lines exactly when that length is not out of date. -/
theorem recent_keepAfter_iff {kept : List Str} {w : State σ ι} (hI : Invariant kept w) {i : ι} {num : Nat}
    {cmd : Str} (hpc : w.pc i = .keeps num cmd) :
    Recent (kept ++ [cmd]) (keepAfter num cmd w.sim) ↔ (num < 30 → w.sim.commandHistory.length < 30) := by
  by_cases hnum : 30 ≤ num
  · have hfull : 30 ≤ kept.length := hI.full i (by rw [hpc]; exact hnum)
    refine iff_of_true (recent_of_eq ?_) fun hlt => absurd hnum (Nat.not_le.mpr hlt)
    rw [keepAfter, if_pos hnum, hI.recent]
    exact tail_rtake_append hfull cmd
  · have hkept : (keepAfter num cmd w.sim).commandHistory = w.sim.commandHistory ++ [cmd] := by
      rw [keepAfter, if_neg hnum]
    constructor
    · intro h _
      have hbounded := h.bounded
      rw [hkept, List.length_append, List.length_singleton] at hbounded
      omega
    · intro h
      have hroom := h (Nat.not_le.mp hnum)
      have hshort : kept.length < 30 := by
        rw [hI.recent, List.rtake, List.length_drop] at hroom
        omega
      refine recent_of_eq ?_
      rw [hkept, hI.recent, rtake_of_short (by omega), rtake_of_short (by simpa using hshort)]

theorem record_keep {w : State σ ι} {i : ι} {num : Nat} {cmd : Str} (h : w.pc i = .keeps num cmd)
    (kept : List Str) : record (.keep i) w kept = kept ++ [cmd] := by
  simp only [record, h]

end Kept

/-! ### Steps -/

section Steps
variable {σ ι : Type}

/-- What raises or is not accepted is not kept. -/
def afterRun (num : Nat) (line : Str) : Except PyError Bool → Pc
  | .ok true => .keeps num (strip line)
  | _ => .idle

variable [DecidableEq σ] [DecidableEq ι] (py : Interpreter σ)

def State.step (e : Event σ ι) (w : State σ ι) : Option (State σ ι) :=
  match e with
  | .line i line =>
    if w.pc i = .idle then
      some (if strip line = [] then w
        else {w with pc := Function.update w.pc i (.runs w.sim.commandHistory.length line)})
    else none
  | .run i =>
    match w.pc i with
    | .runs num line =>
      let ran := (dispatch py (words line)).run w.sim
      some ⟨ran.2, Function.update w.pc i (afterRun num line ran.1)⟩
    | _ => none
  | .keep i =>
    match w.pc i with
    | .keeps num cmd => some ⟨keepAfter num cmd w.sim, Function.update w.pc i .idle⟩
    | _ => none
  | .other sim => if sim.commandHistory = w.sim.commandHistory then some {w with sim := sim} else none

/-- The sessions of a handler that has kept nothing yet. -/
def sessions : System (State σ ι) (Event σ ι) where
  init w := w.sim.commandHistory = [] ∧ ∀ i, w.pc i = .idle
  step := State.step py

/-! ### What a step does -/

/-- The steps, by what they do to the history. -/
inductive State.Moves (w : State σ ι) : Event σ ι → State σ ι → Prop where
  | blank {i line} : Moves w (.line i line) w
  | read {i line} : Moves w (.line i line)
      {w with pc := Function.update w.pc i (.runs w.sim.commandHistory.length line)}
  | ran {i num line sim pc} (h : w.pc i = .runs num line)
      (hhistory : sim.commandHistory = w.sim.commandHistory) (hpc : pc.num ≤ num) :
      Moves w (.run i) ⟨sim, Function.update w.pc i pc⟩
  | kept {i num cmd} (h : w.pc i = .keeps num cmd) :
      Moves w (.keep i) ⟨keepAfter num cmd w.sim, Function.update w.pc i .idle⟩
  | other {sim} (h : sim.commandHistory = w.sim.commandHistory) : Moves w (.other sim) {w with sim := sim}

theorem num_afterRun (num : Nat) (line : Str) (x : Except PyError Bool) : (afterRun num line x).num ≤ num := by
  unfold afterRun
  split
  · exact le_refl num
  · exact Nat.zero_le num

variable {py}

theorem State.step_moves {e : Event σ ι} {w w' : State σ ι} (h : w.step py e = some w') : w.Moves e w' := by
  cases e with
  | line i line =>
    simp only [step] at h
    split at h
    · split at h
      · cases h
        exact .blank
      · cases h
        exact .read
    · cases h
  | run i =>
    simp only [step] at h
    split at h
    · next hpc =>
      cases h
      exact .ran hpc (dispatch_sameHistory py _ _) (num_afterRun _ _ _)
    · cases h
  | keep i =>
    simp only [step] at h
    split at h
    · next hpc =>
      cases h
      exact .kept hpc
    · cases h
  | other sim =>
    simp only [step] at h
    split at h
    · next hsame =>
      cases h
      exact .other hsame
    · cases h

/-- The condition is exact: after a step the history is the last thirty lines, as
before, exactly when the step meets the condition. -/
theorem recent_iff_keepsInTime {e : Event σ ι} {w w' : State σ ι} {kept : List Str}
    (hI : Invariant kept w) (hs : w.step py e = some w') :
    Recent (record e w kept) w'.sim ↔ KeepsInTime e w := by
  cases State.step_moves hs with
  | blank => exact iff_of_true (recent_of_eq hI.recent) nofun
  | read => exact iff_of_true (recent_of_eq hI.recent) nofun
  | ran _ hhistory => exact iff_of_true (recent_of_eq (hhistory.trans hI.recent)) nofun
  | other hhistory => exact iff_of_true (recent_of_eq (hhistory.trans hI.recent)) nofun
  | @kept i num cmd hpc =>
    rw [record_keep hpc, recent_keepAfter_iff hI hpc]
    constructor
    · intro h i' he num' cmd' hpc'
      cases he
      cases hpc.symm.trans hpc'
      exact h
    · intro h
      exact h i rfl num cmd hpc

/-- No step makes a session take a history for full that is not. -/
theorem full_step {e : Event σ ι} {w w' : State σ ι} {kept : List Str} (hI : Invariant kept w)
    (hs : w.step py e = some w') : ∀ i, 30 ≤ (w'.pc i).num → 30 ≤ (record e w kept).length := by
  intro j hj
  cases State.step_moves hs with
  | blank => exact hI.full j hj
  | other => exact hI.full j hj
  | @read i line =>
    by_cases hji : j = i
    · subst hji
      have hread : 30 ≤ w.sim.commandHistory.length := by simpa [Pc.num] using hj
      rw [hI.recent, List.rtake, List.length_drop] at hread
      exact hread.trans (Nat.sub_le ..)
    · exact hI.full j (by simpa [hji] using hj)
  | @ran i num line sim pc hpc _ hnum =>
    by_cases hji : j = i
    · subst hji
      have hread : 30 ≤ pc.num := by simpa using hj
      exact hI.full j (by rw [hpc]; exact hread.trans hnum)
    · exact hI.full j (by simpa [hji] using hj)
  | @kept i num cmd hpc =>
    rw [record_keep hpc, List.length_append]
    by_cases hji : j = i
    · subst hji
      simp [Pc.num] at hj
    · exact (hI.full j (by simpa [hji] using hj)).trans (Nat.le_add_right ..)

variable (py)

/-- **The history is the last thirty lines that were kept**, in every run in which each
session that has read a history with room finds room when it keeps its line. -/
theorem history_recent (w : State σ ι) (kept : List Str)
    (h : ((sessions py).withHistory [] record).Reach (fun e x => KeepsInTime e x.1) (w, kept)) :
    Recent kept w.sim := by
  have hI : Invariant kept w := by
    refine h.invariant (I := fun x => Invariant x.2 x.1) ?_ ?_
    · rintro ⟨w, kept⟩ ⟨⟨hempty, hidle⟩, hkept⟩
      obtain rfl : kept = [] := hkept
      refine ⟨hempty, fun i hi => ?_⟩
      rw [hidle i] at hi
      cases hi
    · rintro e ⟨w, kept⟩ x' hI hkeeps hs
      obtain ⟨w', hs', rfl⟩ := Option.map_eq_some_iff.mp hs
      exact ⟨((recent_iff_keepsInTime hI hs').mpr hkeeps).recent, full_step hI hs'⟩
  exact recent_of_eq hI.recent

/-- A session that nothing comes between does what `handle_command` does. -/
theorem handleCommand_steps {line : Str} (h : strip line ≠ []) (sim : Sim σ) :
    ((handleCommand py line).run sim).2 =
      let ran := (dispatch py (words line)).run sim
      match afterRun sim.commandHistory.length line ran.1 with
      | .keeps num cmd => keepAfter num cmd ran.2
      | _ => ran.2 := by
  have hsame := dispatch_sameHistory py (words line) sim
  rw [handleCommand_dispatch py h, run_bind]
  rcases hran : (dispatch py (words line)).run sim with ⟨_ | accepted, sim'⟩
  · rfl
  · rw [hran] at hsame
    cases accepted with
    | false => rfl
    | true =>
      show _ = keepAfter sim.commandHistory.length (strip line) sim'
      rw [keepAfter, ← hsame]
      rfl

end Steps

/-! ### Two sessions -/

instance {σ ι : Type} (e : Event σ ι) (w : State σ ι) : Decidable (KeepsInTime e w) :=
  match e with
  | .keep i => decidable_of_iff
      ((match w.pc i with
        | .keeps num _ => decide (num < 30 → w.sim.commandHistory.length < 30)
        | _ => true) = true) <| by
    constructor
    · intro h i' he num cmd hpc
      cases he
      simpa only [hpc, decide_eq_true_eq] using h
    · intro h
      split
      · next hpc => exact decide_eq_true (h i rfl _ _ hpc)
      · rfl
  | .line .. | .run _ | .other _ => .isTrue nofun

/-- A handler without sensors. -/
def noSensors : State (Fin 0) (Fin 2) := ⟨⟨Fin.elim0, [], [], [], []⟩, fun _ => .idle⟩

theorem noSensors_initial (allowed : Event (Fin 0) (Fin 2) → State (Fin 0) (Fin 2) × List Str → Prop) :
    ((sessions (plainInterpreter (Fin 0))).withHistory [] record).Reach allowed (noSensors, []) :=
  .init ⟨⟨rfl, fun _ => rfl⟩, rfl⟩

theorem history_recent_twoSessions : ∃ w : State (Fin 0) (Fin 2),
    w.sim.commandHistory = ["history".toList, "help".toList] ∧
    Recent ["history".toList, "help".toList] w.sim := by
  obtain ⟨⟨w, kept⟩, hreach, hhistory, hkept⟩ := (noSensors_initial fun e x => KeepsInTime e x.1).exists_of_run
    [.line 0 "help".toList, .line 1 " history ".toList, .run 0, .run 1, .keep 1, .keep 0]
    (fun x => x.1.sim.commandHistory = ["history".toList, "help".toList] ∧
      x.2 = ["history".toList, "help".toList]) (by decide +kernel)
  obtain rfl : kept = _ := hkept
  exact ⟨w, hhistory, history_recent (plainInterpreter (Fin 0)) w _ hreach⟩

/-- Both sessions find twenty-nine entries, and both keep their lines. -/
theorem history_exceeds : ∃ x : State (Fin 0) (Fin 2) × List Str,
    ((sessions (plainInterpreter (Fin 0))).withHistory [] record).Reachable x ∧ x.1.sim.commandHistory.length = 31 :=
  (noSensors_initial System.any).exists_of_run
    ((List.replicate 29 [.line 0 "help".toList, .run 0, .keep 0]).flatten ++
      [.line 0 "help".toList, .line 1 "help".toList, .run 0, .run 1, .keep 0, .keep 1])
    (fun x => x.1.sim.commandHistory.length = 31) (by decide +kernel)

end History

end Idic.IpmiSim
