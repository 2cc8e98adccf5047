import Idic.IpmiSim.Prompt
import Idic.Sshim.Expect

/-! A session, from the bytes that a client sends.

`SSHHandler.handle_command` reads a line with `expect` and hands it to the command
handler, unless it is empty, until a line says to quit or `expect` raises: that is not
caught, and ends the session. `serve_eq_turns` says that a session does with the bytes
what the loop does with the lines that were typed, one turn for each that is not
empty. -/
namespace Idic.IpmiSim.Console
open Python Sshim

def WELCOME : Str := "You have connected to the test server.".toList

def PROMPT : Str := "IPMI_SIM> ".toList

/-- A line that has been read, without its characters that are not of the code. There are
none. -/
def text (line : Bytes) : Str := line.map fun byte => Char.ofNat byte.toNat

/-- What is put into the channel. -/
inductive Output where
  | writeline (text : Str)
  | write (text : Str)
  | sendall (sent : Bytes)
  deriving DecidableEq, Repr

/-- How the loop is left. -/
inductive Ending where
  | quit
  | raised (e : Raised)
  deriving DecidableEq, Repr

structure Served (σ : Type) where
  sim : Sim σ
  output : List Output
  ending : Ending

def Served.after {σ : Type} (r : Served σ) (output : List Output) : Served σ :=
  {r with output := output ++ r.output}

theorem expect_shorter {echo : Bool} {input line rest : Bytes}
    (h : (expect echo input).result = .ok (line, rest)) : rest.length < input.length := by
  obtain ⟨keys, e, -, hinput, -⟩ := keys_of_expect echo input (by rw [← h])
  rw [hinput, List.length_append, List.length_cons]
  omega

section Session
variable {σ : Type} [DecidableEq σ] (py : Interpreter σ) (meanwhile : Nat → Sim σ → Sim σ)

/-- The loop of `handle_command`, with `done` lines handled. `meanwhile` is what other
threads do between two of them. -/
def serve (done : Nat) (sim : Sim σ) (input : Bytes) : Served σ :=
  let r := expect true input
  match h : r.result with
  | .error e => ⟨sim, [.write PROMPT, .sendall r.sent], .raised e⟩
  | .ok (line, rest) =>
    if line = [] then (serve done sim rest).after [.write PROMPT, .sendall r.sent]
    else
      let t := turn py (text line) (meanwhile done sim)
      let output := .write PROMPT :: .sendall r.sent :: t.written.map .writeline
      if t.goesOn then (serve (done + 1) t.sim rest).after output else ⟨t.sim, output, .quit⟩
termination_by input.length
decreasing_by all_goals exact expect_shorter h

/-- The whole session. -/
def handleCommand (sim : Sim σ) (input : Bytes) : Served σ :=
  (serve py meanwhile 0 sim input).after [.writeline WELCOME]

end Session

/-! ### Lines -/

/-- Keys and the enter behind them. -/
structure Line where
  keys : List Key
  enter : UInt8
  isEnter : IsEnter enter

namespace Line

def bytes (l : Line) : Bytes := keyBytes l.keys ++ [l.enter]

/-- What the keys leave of the line. -/
def typed (l : Line) : Bytes := Sshim.typed [] l.keys

/-- The codec knows every byte of it. -/
def Decodes (l : Line) : Prop := l.typed.all isAscii = true

instance (l : Line) : Decidable l.Decodes := inferInstanceAs (Decidable (_ = _))

end Line

/-- What comes behind the last line that `expect` returns, with what it raises. -/
inductive Rest : Bytes → Raised → Prop where
  | ends (keys : List Key) {tail : Bytes} (h : Ends tail) : Rest (keyBytes keys ++ tail) .eofError
  | undecodable (l : Line) (h : ¬ l.Decodes) (rest : Bytes) : Rest (l.bytes ++ rest) .unicodeDecodeError

/-- The input is lines that `expect` returns, and a rest on which it raises. -/
structure Splits (input : Bytes) (lines : List Line) (rest : Bytes) (e : Raised) : Prop where
  eq : input = lines.flatMap Line.bytes ++ rest
  decodes : ∀ l ∈ lines, l.Decodes
  raises : Rest rest e

theorem Rest.splits {rest : Bytes} {e : Raised} (h : Rest rest e) : Splits rest [] rest e :=
  ⟨rfl, fun _ hl => (List.not_mem_nil hl).elim, h⟩

theorem exists_lines (input : Bytes) : ∃ lines rest e, Splits input lines rest e := by
  induction hn : input.length using Nat.strongRecOn generalizing input with
  | ind n ih =>
    obtain ⟨keys, tail, hinput, hend | ⟨enter, rest, henter, htail⟩⟩ := exists_keys input
    · exact ⟨_, _, _, hinput ▸ (Rest.ends keys hend).splits⟩
    · let l : Line := ⟨keys, enter, henter⟩
      have hline : input = l.bytes ++ rest := by
        rw [hinput, htail, Line.bytes, List.append_assoc]
        rfl
      by_cases hdecodes : l.Decodes
      · have hlt : rest.length < n := by
          rw [← hn, hline, Line.bytes, List.length_append, List.length_append, List.length_singleton]
          omega
        obtain ⟨lines, last, e, hrest, hlines, hlast⟩ := ih rest.length hlt rest rfl
        refine ⟨l :: lines, last, e, ?_, List.forall_mem_cons.mpr ⟨hdecodes, hlines⟩, hlast⟩
        rw [hline, hrest, List.flatMap_cons, List.append_assoc]
      · exact ⟨_, _, _, hline ▸ (Rest.undecodable l hdecodes rest).splits⟩

/-! ### The loop over lines -/

/-- What there is to see of a session besides the prompts and the echo. -/
structure Outcome (σ : Type) where
  sim : Sim σ
  written : List Str
  ending : Ending

def Output.written : Output → Option Str
  | .writeline text => some text
  | _ => none

def Served.outcome {σ : Type} (r : Served σ) : Outcome σ :=
  ⟨r.sim, r.output.filterMap Output.written, r.ending⟩

def Outcome.after {σ : Type} (o : Outcome σ) (written : List Str) : Outcome σ :=
  {o with written := written ++ o.written}

section Turns
variable {σ : Type} [DecidableEq σ] (py : Interpreter σ) (meanwhile : Nat → Sim σ → Sim σ)

/-- One turn for each line, until one says to quit. -/
def turns (raised : Raised) (done : Nat) (sim : Sim σ) : List Str → Outcome σ
  | [] => ⟨sim, [], .raised raised⟩
  | line :: rest =>
    let t := turn py line (meanwhile done sim)
    if t.goesOn then (turns raised (done + 1) t.sim rest).after t.written else ⟨t.sim, t.written, .quit⟩

omit [DecidableEq σ] in
theorem outcome_after (r : Served σ) (output : List Output) :
    (r.after output).outcome = r.outcome.after (output.filterMap Output.written) := by
  simp only [Served.outcome, Served.after, Outcome.after, List.filterMap_append]

theorem written_lines (sent : Bytes) (texts : List Str) :
    (Output.write PROMPT :: Output.sendall sent :: texts.map Output.writeline).filterMap Output.written = texts := by
  rw [List.filterMap_cons_none rfl, List.filterMap_cons_none rfl, List.filterMap_map]
  exact List.filterMap_some

theorem serve_raised (done : Nat) (sim : Sim σ) {input : Bytes} {e : Raised}
    (h : (expect true input).result = .error e) :
    (serve py meanwhile done sim input).outcome = ⟨sim, [], .raised e⟩ := by
  rw [serve]
  split
  · next e' he =>
    cases h.symm.trans he
    rfl
  · next hok => cases h.symm.trans hok

theorem serve_line (done : Nat) (sim : Sim σ) {input line rest : Bytes}
    (h : (expect true input).result = .ok (line, rest)) :
    (serve py meanwhile done sim input).outcome =
      if line = [] then (serve py meanwhile done sim rest).outcome
      else
        let t := turn py (text line) (meanwhile done sim)
        if t.goesOn then (serve py meanwhile (done + 1) t.sim rest).outcome.after t.written
        else ⟨t.sim, t.written, .quit⟩ := by
  rw [serve]
  split
  · next he => cases h.symm.trans he
  · next line' rest' hok =>
    cases h.symm.trans hok
    split
    · rw [outcome_after]
      rfl
    · dsimp only
      split
      · rw [outcome_after, written_lines]
      · rw [Served.outcome, written_lines]

theorem expect_line (l : Line) (hdecodes : l.Decodes) (rest : Bytes) :
    (expect true (l.bytes ++ rest)).result = .ok (l.typed, rest) := by
  rw [Line.bytes, List.append_assoc, List.singleton_append, expect_enter true l.keys l.isEnter]
  exact if_pos hdecodes

theorem expect_rest {rest : Bytes} {e : Raised} (h : Rest rest e) : (expect true rest).result = .error e := by
  cases h with
  | ends keys h => exact expect_ends true keys h
  | undecodable l h rest =>
    rw [Line.bytes, List.append_assoc, List.singleton_append, expect_enter true l.keys l.isEnter]
    exact if_neg h

/-- The lines that are handled: an empty one is not. -/
def handled (lines : List Line) : List Str := ((lines.map Line.typed).filter (· ≠ [])).map text

/-- The loop does with the bytes what it does with the lines. -/
theorem serve_lines (done : Nat) (sim : Sim σ) {lines : List Line} (hlines : ∀ l ∈ lines, l.Decodes)
    {rest : Bytes} {e : Raised} (hrest : Rest rest e) :
    (serve py meanwhile done sim (lines.flatMap Line.bytes ++ rest)).outcome =
      turns py meanwhile e done sim (handled lines) := by
  induction lines generalizing done sim with
  | nil => exact serve_raised py meanwhile done sim (expect_rest hrest)
  | cons l lines ih =>
    obtain ⟨hl, hlines⟩ := List.forall_mem_cons.mp hlines
    rw [List.flatMap_cons, List.append_assoc, serve_line py meanwhile done sim (expect_line l hl _)]
    by_cases hempty : l.typed = []
    · have hhandled : handled (l :: lines) = handled lines := by simp [handled, hempty]
      rw [if_pos hempty, ih _ _ hlines, hhandled]
    · have hhandled : handled (l :: lines) = text l.typed :: handled lines := by simp [handled, hempty]
      rw [if_neg hempty, hhandled, turns]
      dsimp only
      rw [ih _ _ hlines]

/-- **A session does with what is typed what the loop does with its lines.** Every
stream of bytes is lines and a rest. However the other threads interfere between them,
the session leaves the simulator, writes and ends as the loop does on the lines, from
which the keys that were taken back, the empty lines and the ends of the lines are gone. -/
theorem serve_eq_turns (sim : Sim σ) (input : Bytes) : (∃ lines rest e, Splits input lines rest e) ∧
    ∀ lines rest e, Splits input lines rest e → (handleCommand py meanwhile sim input).outcome =
      (turns py meanwhile e 0 sim (handled lines)).after [WELCOME] := by
  refine ⟨exists_lines input, fun lines rest e h => ?_⟩
  rw [handleCommand, outcome_after, h.eq, serve_lines py meanwhile 0 sim h.decodes h.raises]
  rfl

end Turns

end Idic.IpmiSim.Console
