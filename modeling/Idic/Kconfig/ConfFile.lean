import Idic.Kconfig.Lines
import Idic.Kconfig.Session

/-! The configuration file.

`conf_write` writes one line for every symbol that has an entry, in the order of the
entries, and the titles of the entries that have none. `conf_read` forgets what the user
has set and takes over what the lines say. -/
namespace Idic.Kconfig
open Python (Str)
open Memo (Prog)

variable {σ : Type}

/-- The value of a text between its quotes. -/
def escape : Str → Str
  | [] => []
  | ch :: str => if ch = '"' ∨ ch = '\\' then '\\' :: ch :: escape str else ch :: escape str

/-- The text up to the closing quote, which may be missing. -/
def unescape : Str → Option Str
  | [] => none
  | '"' :: _ => some []
  | '\\' :: [] => none
  | '\\' :: ch :: str => (unescape str).map (ch :: ·)
  | ch :: str => (unescape str).map (ch :: ·)

section Write
variable (T : Table σ)

/-- What is written of a symbol. An `m` is not. -/
def symbolText (s : σ) (c : Cell) : Str :=
  match T.getType s with
  | .boolean | .tristate =>
    match c.tri with
    | .no => "# ".toList ++ T.name s ++ " is not set\n".toList
    | .mod => []
    | .yes => T.name s ++ "=y\n".toList
  | .string => T.name s ++ "=\"".toList ++ escape c.val ++ "\"\n".toList
  | .int | .hex => T.name s ++ ['='] ++ (if c.val = [] then ['0'] else c.val) ++ ['\n']
  | .unknown | .other => []

def titleText (text : Str) : Str := "\n#\n# ".toList ++ text ++ "\n#\n".toList

/-- `menu_is_visible`, of an entry without a symbol. -/
def calcShown (m : Entry σ) : Prog σ Cell Tristate :=
  match m.prompt with
  | some visible => calcPresent T.type visible
  | none => pure .no

/-- The loop of `conf_write`. What has been written already has lost
`SYMBOL_FORCEWRITE`. -/
def writeEntries [DecidableEq σ] : List (Entry σ) → List σ → Prog σ Cell Str
  | [], _ => pure []
  | m :: ms, written =>
    match m.sym with
    | none => do
      let visible ← calcShown T m
      let rest ← writeEntries ms written
      return (if visible ≠ .no then titleText m.text else []) ++ rest
    | some s =>
      if m.choice then writeEntries ms written
      else do
        let c ← Prog.get s
        let rest ← writeEntries ms (s :: written)
        return (if s ∈ written then [] else symbolText T s c) ++ rest

def fileHeader : Str := "#\n# Automatically generated make config: don't edit\n#\n".toList

/-- `conf_write`: the file, under the entries below `rootmenu`. -/
def confWrite [DecidableEq σ] [Fintype σ] (ms : Menus σ) (x : Session σ) : Str × Session σ :=
  let r := Memo.run (calcValue T x.user) (writeEntries T (Menus.visited (Menus.rise [ms])) []) x.memo
  (fileHeader ++ r.1, {x with memo := r.2})

end Write

section Read
variable [DecidableEq σ] (T : Table σ)

/-- `sym_find`. The symbols that have a name of their own are not among the variables, and
nothing is assigned to them. -/
def symFind (name : Str) : Option σ :=
  if builtIn name then none else T.symbols.find? fun s => T.name s = name

/-- The name in a line that says of it that it is not set. -/
def unsetName (rest : Str) : Option Str :=
  match rest.dropWhile (· ≠ ' ') with
  | [] => none
  | _ :: p => if "is not set".toList.isPrefixOf p then some (rest.takeWhile (· ≠ ' ')) else none

/-- `sym->user` after an assignment, if the program does not exit. -/
def assign (type : SymbolType) (user : User) (p : Str) : Option User :=
  match type with
  | .boolean | .tristate =>
    match p with
    | 'm' :: _ => some (if type = .tristate then {user with isNew := false, tri := .mod} else user)
    | 'y' :: _ => some {user with isNew := false, tri := .yes}
    | 'n' :: _ => some {user with isNew := false, tri := .no}
    | _ => some user
  | .string =>
    match p with
    | '"' :: p => (unescape p).map fun str => {user with isNew := false, val := some str}
    | _ => some user
  | .int | .hex => if stringValid type p then some {user with isNew := false, val := some p} else none
  | .unknown | .other => some user

/-- One line of `conf_read`. -/
def readLine (user : σ → User) (line : Str) : Option (σ → User) :=
  match line with
  | '#' :: ' ' :: rest =>
    match (unsetName rest).bind (symFind T) with
    | some s =>
      if T.type s = .boolean ∨ T.type s = .tristate then
        some (Function.update user s {user s with isNew := false, tri := .no})
      else some user
    | none => some user
  | ch :: _ =>
    if 'A' ≤ ch ∧ ch ≤ 'Z' then
      match line.dropWhile (· ≠ '=') with
      | [] => some user
      | _ :: p =>
        match symFind T (line.takeWhile (· ≠ '=')) with
        | some s => (assign (T.type s) (user s) (p.takeWhile (· ≠ '\n'))).map (Function.update user s)
        | none => some user
    else some user
  | [] => some user

/-- What is done with a symbol when the file has been read: its value is not taken for one
of the user when it cannot be seen, or is not valid, which without a range is the same as not
within it. -/
def settle [Fintype σ] (x : Session σ) (s : σ) : Session σ :=
  let x := x.calculate T s
  let user := x.user s
  if !user.isNew ∧ ((x.memo.cells s).visible = .no ∨
      ((T.type s).isText ∧ !stringValid (T.type s) (user.val.getD []))) then
    x.setUser s {user with isNew := true}
  else x

/-- `char line[1024]` -/
def lineRoom : Nat := 1022

/-- `conf_read`, with what the symbols were before. It fails where the program exits. -/
def confRead [Fintype σ] (stale : σ → Cell) (text : Str) : Option (Session σ) :=
  ((Lines.lines lineRoom text).foldlM (readLine T) fun _ => ⟨true, .no, none⟩).map fun user =>
    T.symbols.foldl (settle T) ⟨user, ∅, stale⟩

end Read

end Idic.Kconfig
