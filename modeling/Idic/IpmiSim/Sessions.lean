import Idic.Python.Text
import Idic.Threads.System
import Mathlib.Logic.Function.Basic

/-! The command sessions and the queue that they share.

One `SSHHandler` serves every session: they have one response buffer, one
`msg_queue` and no lock. `server` has one event for each action of a session, for
a line that a client types and for a message that a sensor's thread puts on the
queue. `get_never_blocks` is about the queue running empty under a session that
has found it filled; whose messages a session writes is the matter of `Replies`. -/
namespace Idic.IpmiSim.Sshsrv
open Python Threads

/-- A message, with the session whose command put it, if one did, and how many that
session had put before. The code keeps the text only. -/
structure Message (ι : Type) where
  sender : Option ι
  number : Nat
  text : Str
  deriving DecidableEq

/-- What a client types: nothing to do, `quit` or `exit`, or a command that does not
raise, with the messages it puts. -/
inductive Input where
  | skip
  | quit
  | command (messages : List Str)
  deriving DecidableEq

inductive Pc (ι : Type) where
  /-- `self.response = ''` -/
  | clear
  /-- `script.expect(..)` -/
  | expect
  /-- in `handle_command`, with the messages that are left to put -/
  | puts (todo : List Str)
  /-- `common.msg_queue.empty() is False` -/
  | testEmpty
  /-- `common.msg_queue.get()` -/
  | get
  /-- `self.writeresponse(..)` -/
  | append (m : Message ι)
  /-- `if len(self.response)` and the lines it writes -/
  | write
  | ended
  deriving DecidableEq

/-- The messages that the sessions have put, and written to their channels, are kept
beside the state of the code. -/
structure State (ι : Type) where
  queue : List (Message ι)
  response : List (Message ι)
  pc : ι → Pc ι
  channel : ι → List (Message ι)
  put : ι → List (Message ι)

inductive Event (ι : Type) where
  | session (i : ι)
  | line (i : ι) (input : Input)
  | produce (text : Str)
  deriving DecidableEq

def Input.target {ι : Type} : Input → Pc ι
  | .skip => .clear
  | .quit => .ended
  | .command messages => .puts messages

namespace State
variable {ι : Type}

def init : State ι := ⟨[], [], fun _ => .clear, fun _ => [], fun _ => []⟩

/-- The next message of a session. -/
def next (w : State ι) (i : ι) (text : Str) : Message ι := ⟨some i, (w.put i).length, text⟩

variable [DecidableEq ι]

def goto (w : State ι) (i : ι) (pc : Pc ι) : State ι := {w with pc := Function.update w.pc i pc}

/-- A message that a session's command puts on the queue. -/
def putMsg (w : State ι) (i : ι) (m : Message ι) : State ι :=
  {w with queue := w.queue ++ [m], put := Function.update w.put i (w.put i ++ [m])}

/-- The response that a session writes to its channel; without any text it is
written as nothing. -/
def reply (w : State ι) (i : ι) : State ι :=
  {w with channel := Function.update w.channel i (w.channel i ++ w.response)}

/-- One action of a session. At `expect` it waits for its client, at `get` for a
message. -/
def stepSession (w : State ι) (i : ι) : Option (State ι) :=
  match w.pc i with
  | .clear => some (({w with response := []} : State ι).goto i .expect)
  | .expect => none
  | .puts [] => some (w.goto i .testEmpty)
  | .puts (text :: todo) => some ((w.putMsg i (w.next i text)).goto i (.puts todo))
  | .testEmpty => some (w.goto i (if w.queue = [] then .write else .get))
  | .get =>
    match w.queue with
    | [] => none
    | m :: queue => some (({w with queue := queue} : State ι).goto i (.append m))
  | .append m => some (({w with response := w.response ++ [m]} : State ι).goto i .testEmpty)
  | .write => some ((w.reply i).goto i .clear)
  | .ended => none

def step (e : Event ι) (w : State ι) : Option (State ι) :=
  match e with
  | .session i => w.stepSession i
  | .line i input => if w.pc i = .expect then some (w.goto i input.target) else none
  | .produce text => some {w with queue := w.queue ++ [⟨none, 0, text⟩]}

end State

def server (ι : Type) [DecidableEq ι] : System (State ι) (Event ι) where
  init w := w = .init
  step := State.step

variable {ι : Type}

/-! ### What a step does -/

section Moves
variable [DecidableEq ι]

/-- The places of the other sessions stay. -/
@[simp] theorem State.goto_pc (w : State ι) (i : ι) (pc : Pc ι) :
    (w.goto i pc).pc = Function.update w.pc i pc := rfl

/-- The steps, one constructor for each line of the loop. -/
inductive State.Moves (w : State ι) : Event ι → State ι → Prop where
  | cleared {i} (h : w.pc i = .clear) :
      Moves w (.session i) (({w with response := []} : State ι).goto i .expect)
  | read {i} (input : Input) (h : w.pc i = .expect) : Moves w (.line i input) (w.goto i input.target)
  | puts {i text todo} (h : w.pc i = .puts (text :: todo)) :
      Moves w (.session i) ((w.putMsg i (w.next i text)).goto i (.puts todo))
  | handled {i} (h : w.pc i = .puts []) : Moves w (.session i) (w.goto i .testEmpty)
  | drained {i} (h : w.pc i = .testEmpty) (hq : w.queue = []) : Moves w (.session i) (w.goto i .write)
  | filled {i} (h : w.pc i = .testEmpty) (hq : w.queue ≠ []) : Moves w (.session i) (w.goto i .get)
  | got {i m queue} (h : w.pc i = .get) (hq : w.queue = m :: queue) :
      Moves w (.session i) (({w with queue := queue} : State ι).goto i (.append m))
  | appended {i m} (h : w.pc i = .append m) :
      Moves w (.session i) (({w with response := w.response ++ [m]} : State ι).goto i .testEmpty)
  | written {i} (h : w.pc i = .write) : Moves w (.session i) ((w.reply i).goto i .clear)
  | produced (text : Str) : Moves w (.produce text) {w with queue := w.queue ++ [⟨none, 0, text⟩]}

theorem State.step_moves {e : Event ι} {w w' : State ι} (h : w.step e = some w') : w.Moves e w' := by
  cases e with
  | session i =>
    simp only [step, stepSession] at h
    split at h
    · next hpc =>
      cases h
      exact .cleared hpc
    · cases h
    · next hpc =>
      cases h
      exact .handled hpc
    · next hpc =>
      cases h
      exact .puts hpc
    · next hpc =>
      by_cases hq : w.queue = []
      · rw [if_pos hq] at h
        cases h
        exact .drained hpc hq
      · rw [if_neg hq] at h
        cases h
        exact .filled hpc hq
    · next hpc =>
      split at h
      · cases h
      · next hq =>
        cases h
        exact .got hpc hq
    · next hpc =>
      cases h
      exact .appended hpc
    · next hpc =>
      cases h
      exact .written hpc
    · cases h
  | line i input =>
    simp only [step] at h
    split at h
    · next hpc =>
      cases h
      exact .read input hpc
    · cases h
  | produce text =>
    cases h
    exact .produced text

end Moves

/-! ### An empty queue -/

namespace State

/-- A session is at its `get`, which would block. -/
def Blocks (w : State ι) : Prop := ∃ i, w.pc i = .get ∧ w.queue = []

/-- What leaves the queue filled, and brings sessions to their `get` only when it is
filled, makes none of them block. -/
theorem not_blocks_of {w w' : State ι} (h : ¬ w.Blocks) (hqueue : w.queue ≠ [] → w'.queue ≠ [])
    (hget : ∀ j, w'.pc j = .get → w.pc j = .get ∨ w.queue ≠ []) : ¬ w'.Blocks := by
  intro hsome
  obtain ⟨j, hj, hempty⟩ := hsome
  have hfilled : w.queue ≠ [] := (hget j hj).elim (fun hj hq => h ⟨j, hj, hq⟩) id
  exact hqueue hfilled hempty

end State

/-- A session that takes the last message finds no other session between its test
and its `get`. -/
def TakesLast (e : Event ι) (w : State ι) : Prop :=
  ∀ i, e = .session i → w.pc i = .get → w.queue.length = 1 → ∀ j ≠ i, w.pc j ≠ .get

theorem takesLast_of_ne {w : State ι} {i : ι} (h : w.pc i ≠ .get) : TakesLast (.session i) w := by
  intro i' he hget
  cases he
  exact absurd hget h

namespace State
variable [DecidableEq ι]

/-- A session that goes somewhere else than to its `get` is no longer there. -/
theorem goto_get {w : State ι} {i j : ι} {pc : Pc ι} (hpc : pc ≠ .get) (h : (w.goto i pc).pc j = .get) :
    j ≠ i ∧ w.pc j = .get := by
  rw [goto_pc, Function.update_apply] at h
  split at h
  · exact absurd h hpc
  · next hne => exact ⟨hne, h⟩

theorem not_blocks_goto {w w' : State ι} (h : ¬ w.Blocks) (hqueue : w.queue ≠ [] → w'.queue ≠ [])
    {i : ι} {pc : Pc ι} (hpc : pc ≠ .get) (hsame : w'.pc = w.pc) : ¬ (w'.goto i pc).Blocks :=
  not_blocks_of h hqueue fun _ hj => .inl (hsame ▸ (goto_get hpc hj).2)

/-- The condition is exact: where no session is about to block, none is after a step
exactly when the step meets the condition. -/
theorem step_blocks_iff {e : Event ι} {w w' : State ι} (h : ¬ w.Blocks)
    (hs : w.step e = some w') : ¬ w'.Blocks ↔ TakesLast e w := by
  have hother {i : ι} {pc : Pc ι} (hi : w.pc i = pc) (hpc : pc ≠ .get) : TakesLast (.session i) w :=
    takesLast_of_ne (hi ▸ hpc)
  cases step_moves hs with
  | @got i m queue hpc hq =>
    constructor
    · intro hnot i' he _ hlast j hne hj
      cases he
      rw [hq, List.length_cons, Nat.add_eq_right, List.length_eq_zero_iff] at hlast
      exact hnot ⟨j, (Function.update_of_ne hne ..).trans hj, hlast⟩
    · rintro htakes ⟨j, hj, hempty⟩
      have happend : (Pc.append m : Pc ι) ≠ .get := nofun
      obtain ⟨hne, hj⟩ := goto_get happend hj
      refine htakes i rfl hpc ?_ j hne hj
      rw [hq, show queue = [] from hempty]
      rfl
  | cleared hpc => exact iff_of_true (not_blocks_goto h id nofun rfl) (hother hpc nofun)
  | @read i input hpc =>
    refine iff_of_true (not_blocks_goto h id ?_ rfl) nofun
    cases input <;> exact nofun
  | puts hpc => exact iff_of_true (not_blocks_goto h (fun _ => by simp [putMsg]) nofun rfl) (hother hpc nofun)
  | handled hpc => exact iff_of_true (not_blocks_goto h id nofun rfl) (hother hpc nofun)
  | drained hpc => exact iff_of_true (not_blocks_goto h id nofun rfl) (hother hpc nofun)
  | filled hpc hq => exact iff_of_true (not_blocks_of h id fun _ _ => .inr hq) (hother hpc nofun)
  | appended hpc => exact iff_of_true (not_blocks_goto h id nofun rfl) (hother hpc nofun)
  | written hpc => exact iff_of_true (not_blocks_goto h id nofun rfl) (hother hpc nofun)
  | produced => exact iff_of_true (not_blocks_of h (fun _ => by simp) fun _ => .inl) nofun

end State

variable [DecidableEq ι]

/-- **No `get` blocks** in a run in which sessions take last messages only while no
other session has found the queue filled. -/
theorem get_never_blocks (w : State ι) (h : (server ι).Reach TakesLast w) : ¬ w.Blocks := by
  refine h.invariant (I := fun w => ¬ w.Blocks) ?_ fun e w w' hI ha hs => (w.step_blocks_iff hI hs).mpr ha
  rintro w rfl ⟨i, hi, -⟩
  cases hi

/-! ### Two sessions and one message -/

instance (e : Event (Fin 2)) (w : State (Fin 2)) : Decidable (TakesLast e w) :=
  match e with
  | .session i => decidable_of_iff (w.pc i = .get → w.queue.length = 1 → ∀ j ≠ i, w.pc j ≠ .get)
      ⟨fun h i' he => by cases he; exact h, fun h => h i rfl⟩
  | .line .. | .produce _ => .isTrue nofun

instance (w : State (Fin 2)) : Decidable w.Blocks := inferInstanceAs (Decidable (∃ _, _))

theorem server_initial (ι : Type) [DecidableEq ι] (allowed : Event ι → State ι → Prop) :
    (server ι).Reach allowed .init := .init rfl

/-- A command, up to its first test of the queue. -/
def commandRun (i : Fin 2) (messages : List Str) : List (Event (Fin 2)) :=
  [.session i, .line i (.command messages)] ++ List.replicate (messages.length + 1) (.session i)

theorem get_never_blocks_twoSessions : ∃ w : State (Fin 2), w.pc 0 = .get ∧ ¬ w.Blocks := by
  obtain ⟨w, hw, hpc⟩ := (server_initial (Fin 2) TakesLast).exists_of_run
    (commandRun 0 ["a\n".toList] ++ commandRun 1 ["b\n".toList] ++ [.session 0, .session 1])
    (fun w => w.pc 0 = .get ∧ w.pc 1 = .get) (by decide +kernel)
  exact ⟨w, hpc.1, get_never_blocks w hw⟩

/-- Both sessions find the last message, and one of them takes it. -/
theorem twoSessions_block : ∃ w : State (Fin 2), (server (Fin 2)).Reachable w ∧ w.Blocks :=
  (server_initial (Fin 2) System.any).exists_of_run
    (commandRun 0 ["a\n".toList] ++ commandRun 1 ["b\n".toList] ++
      List.replicate 4 (.session 0) ++ [.session 1, .session 0])
    State.Blocks (by decide +kernel)

end Idic.IpmiSim.Sshsrv
