import Idic.Kconfig.Session

/-! Questions and answers.

`conf_sym` and `conf_string` ask for the value of a symbol until they are given one that
is accepted. An answer of nothing stands for the value that the symbol has, and there is
no other answer once the input has come to its end. -/
namespace Idic.Kconfig
open Python (Str strip)

variable {σ : Type}

/-- `input_mode`, as far as a configuration is read in it: without an option, with `-o`, `-s`
and `-d`. -/
inductive InputMode where
  | askAll
  | askNew
  | askSilent
  | setDefault
  deriving DecidableEq

/-- `conf_cnt`, the lines that are left on the standard input, and the session. -/
structure Dialogue (σ : Type) where
  count : Nat
  input : List Str
  session : Session σ

/-- `sym_is_changable` -/
def isChangable (s : σ) (x : Session σ) : Bool := (x.memo.cells s).revDep < (x.memo.cells s).visible

section Ask
variable (mode : InputMode) (validStdin : Bool)

/-- A symbol that is not asked for keeps the value that it has. -/
def waits (s : σ) (x : Session σ) : Bool :=
  isChangable s x && match mode with
    | .askAll => true
    | .askNew | .askSilent => (x.user s).isNew
    | .setDefault => false

/-- `check_stdin` -/
def aborts : Bool := mode = .askSilent && !validStdin

/-- `conf_askvalue`: `line`, and what is left of the input. It fails where the program exits.
Behind the end of the input `fgets` leaves the line as it is. -/
def askValue (s : σ) (d : Dialogue σ) : Option (Str × List Str) :=
  if !waits mode s d.session then some (['\n'], d.input)
  else if aborts mode validStdin then none
  else
    match d.input with
    | [] => some (['\n'], [])
    | line :: input => some (line, input)

/-- The loop of `conf_sym` and `conf_string`. Where nothing has been read it does not end. -/
def askUntil (s : σ) (accept : Str → Session σ → Option (Session σ)) (d : Dialogue σ) : Option (Dialogue σ) :=
  match askValue mode validStdin s d with
  | none => none
  | some (line, input) =>
    match accept line d.session with
    | some x => some {d with input := input, session := x}
    | none => if input.length < d.input.length then askUntil s accept {d with input := input} else none
termination_by d.input.length

/-- The line that is accepted is one of the input, or an empty one. -/
theorem askUntil_accepted {s : σ} {accept : Str → Session σ → Option (Session σ)} {d d' : Dialogue σ}
    (h : askUntil mode validStdin s accept d = some d') :
    ∃ line x, (line = ['\n'] ∨ line ∈ d.input) ∧ accept line d.session = some x ∧
      d'.count = d.count ∧ d'.session = x ∧ d'.input ⊆ d.input := by
  induction hn : d.input.length using Nat.strongRecOn generalizing d with
  | ind n ih =>
    have hline : ∀ line input, askValue mode validStdin s d = some (line, input) →
        (line = ['\n'] ∨ line ∈ d.input) ∧ input ⊆ d.input := by
      intro line input hask
      unfold askValue at hask
      split_ifs at hask
      · cases hask; exact ⟨.inl rfl, List.Subset.refl _⟩
      · split at hask
        · next hnil => cases hask; exact ⟨.inl rfl, List.nil_subset _⟩
        · next hcons =>
          cases hask
          rw [hcons]
          exact ⟨.inr List.mem_cons_self, List.subset_cons_self _ _⟩
    rw [askUntil] at h
    split at h
    · cases h
    · next line input hask =>
      obtain ⟨hmem, hsub⟩ := hline line input hask
      split at h
      · next x hx => cases h; exact ⟨line, x, hmem, hx, rfl, rfl, hsub⟩
      · split at h
        · next hless =>
          obtain ⟨line', x, hmem', hx, hcount, hsession, hsub'⟩ := ih _ (hn ▸ hless) h rfl
          exact ⟨line', x, hmem'.imp_right fun hl => hsub hl, hx, hcount, hsession, List.Subset.trans hsub' hsub⟩
        · cases h

/-- The loop does not end when nothing that can be read is accepted. -/
theorem askUntil_eq_none_iff (s : σ) (accept : Str → Session σ → Option (Session σ)) (d : Dialogue σ) :
    askUntil mode validStdin s accept d = none ↔
      (waits mode s d.session = true ∧ aborts mode validStdin = true) ∨
        (accept ['\n'] d.session = none ∧
          (waits mode s d.session = true → ∀ line ∈ d.input, accept line d.session = none)) := by
  induction hn : d.input.length using Nat.strongRecOn generalizing d with
  | ind n ih =>
    rw [askUntil, askValue]
    cases hwaits : waits mode s d.session with
    | false => cases haccept : accept ['\n'] d.session <;> simp [haccept]
    | true =>
      cases haborts : aborts mode validStdin with
      | true => simp
      | false =>
        cases hinput : d.input with
        | nil => cases haccept : accept ['\n'] d.session <;> simp [haccept]
        | cons line input =>
          have hless : input.length < n := by rw [← hn, hinput]; exact Nat.lt_succ_self _
          have hrest := ih _ hless {d with input := input} rfl
          rw [hwaits, haborts] at hrest
          cases haccept : accept line d.session with
          | none => simp [haccept, hrest]
          | some x => simp [haccept]

end Ask

section Conf
variable [DecidableEq σ] (T : Table σ) (mode : InputMode) (validStdin : Bool)

/-- The value that `conf_sym` takes a line for, which is `oldval` when nothing is left of it. -/
def answer (oldval : Tristate) : Str → Option Tristate
  | [] => some oldval
  | 'n' :: rest | 'N' :: rest => if rest = [] ∨ rest = ['o'] then some .no else none
  | 'm' :: rest | 'M' :: rest => if rest = [] then some .mod else none
  | 'y' :: rest | 'Y' :: rest => if rest = [] ∨ rest = "es".toList then some .yes else none
  | _ => none

def acceptTristate (s : σ) (line : Str) (x : Session σ) : Option (Session σ) :=
  match answer (x.memo.cells s).tri (strip line) with
  | none => none
  | some newval =>
    let r := setTristateValue T s newval x
    if r.1 then some r.2 else none

/-- `conf_sym` -/
def confSym (s : σ) : Dialogue σ → Option (Dialogue σ) := askUntil mode validStdin s (acceptTristate T s)

/-- `def`, which is nothing when the line asks for help. -/
def defOf (s : σ) (x : Session σ) : Str → Option Str
  | '\n' :: _ => some ((x.memo.cells s).string (T.type s))
  | '?' :: '\n' :: _ => none
  | line => some line.dropLast

def acceptString (s : σ) (line : Str) (x : Session σ) : Option (Session σ) :=
  match defOf T s x line with
  | none => none
  | some newval =>
    let r := setStringValue T s newval x
    if r.1 then some r.2 else none

/-- `conf_string` -/
def confString (s : σ) : Dialogue σ → Option (Dialogue σ) := askUntil mode validStdin s (acceptString T s)

variable {T mode validStdin}

theorem acceptTristate_empty (s : σ) (x : Session σ) : acceptTristate T s ['\n'] x ≠ none := by
  have hset : (setTristateValue T s (x.memo.cells s).tri x).1 = true := by simp [setTristateValue]
  show (if (setTristateValue T s (x.memo.cells s).tri x).1 = true then _ else none) ≠ none
  rw [if_pos hset]
  exact Option.some_ne_none _

theorem setStringValue_accepts {s : σ} (htext : (T.type s).isText = true) (newval : Str) (x : Session σ) :
    (setStringValue T s newval x).1 = stringValid (T.type s) newval := by
  unfold setStringValue
  split
  · next h => rw [h] at htext; cases htext
  · next h => rw [h] at htext; cases htext
  · dsimp only
    split
    · next h => simpa using h.symm
    · next h =>
      have hvalid : stringValid (T.type s) newval = true := by simpa using h
      split <;> exact hvalid.symm

theorem acceptString_eq_none_iff {s : σ} (htext : (T.type s).isText = true) (line : Str) (x : Session σ) :
    acceptString T s line x = none ↔
      ∀ newval, defOf T s x line = some newval → stringValid (T.type s) newval = false := by
  unfold acceptString
  cases defOf T s x line with
  | none => simp
  | some newval => simp [setStringValue_accepts htext]

omit [DecidableEq σ] in
theorem string_text {s : σ} (htext : (T.type s).isText = true) (c : Cell) : c.string (T.type s) = c.val := by
  unfold Cell.string
  split
  · next h => rw [h] at htext; cases htext
  · next h => rw [h] at htext; cases htext
  · rfl

omit [DecidableEq σ] in
theorem defOf_eq {s : σ} (htext : (T.type s).isText = true) {x : Session σ} {line newval : Str}
    (h : defOf T s x line = some newval) : newval = (x.memo.cells s).val ∨ newval = line.dropLast := by
  unfold defOf at h
  split at h
  · exact .inl ((Option.some.inj h).symm.trans (string_text htext _))
  · cases h
  · exact .inr (Option.some.inj h).symm

theorem confSym_eq_none_iff (s : σ) (d : Dialogue σ) :
    confSym T mode validStdin s d = none ↔ waits mode s d.session = true ∧ aborts mode validStdin = true := by
  rw [confSym, askUntil_eq_none_iff]
  exact ⟨fun h => h.resolve_right fun hnone => acceptTristate_empty s d.session hnone.1, .inl⟩

theorem confString_eq_none_iff {s : σ} (htext : (T.type s).isText = true) (d : Dialogue σ) :
    confString T mode validStdin s d = none ↔ (waits mode s d.session = true ∧ aborts mode validStdin = true) ∨
      (stringValid (T.type s) (d.session.memo.cells s).val = false ∧
        (waits mode s d.session = true → ∀ line ∈ d.input, ∀ newval,
          defOf T s d.session line = some newval → stringValid (T.type s) newval = false)) := by
  have hempty : acceptString T s ['\n'] d.session = none ↔
      stringValid (T.type s) (d.session.memo.cells s).val = false := by
    rw [acceptString_eq_none_iff htext, ← string_text htext]
    exact ⟨fun h => h _ rfl, fun h newval hdef => Option.some.inj hdef ▸ h⟩
  rw [confString, askUntil_eq_none_iff, hempty]
  simp only [acceptString_eq_none_iff htext]

/-- A question with a `y`, `m` or `n` comes to its end, if the program does not exit. One with a
text does not when the value itself is not valid, and no line that is left is. -/
theorem dialogue_ends (s : σ) (d : Dialogue σ) :
    (confSym T mode validStdin s d = none ↔ waits mode s d.session = true ∧ aborts mode validStdin = true) ∧
      ((T.type s).isText = true → (confString T mode validStdin s d = none ↔
        (waits mode s d.session = true ∧ aborts mode validStdin = true) ∨
          (stringValid (T.type s) (d.session.memo.cells s).val = false ∧
            (waits mode s d.session = true → ∀ line ∈ d.input, ∀ newval,
              defOf T s d.session line = some newval → stringValid (T.type s) newval = false)))) :=
  ⟨confSym_eq_none_iff s d, fun htext => confString_eq_none_iff htext d⟩

theorem setTristateValue_user {s s' : σ} (hs : s' ≠ s) (val : Tristate) (x : Session σ) :
    (setTristateValue T s val x).2.user s' = x.user s' := by
  rcases Session.setTristateValue_cases (T := T) s val x with ⟨-, -, hx⟩ | ⟨-, hx⟩ | ⟨-, hx⟩ <;> rw [hx]
  · exact Function.update_of_ne hs _ _
  · exact Function.update_of_ne hs _ _

theorem setStringValue_user {s s' : σ} (htext : (T.type s).isText = true) (hs : s' ≠ s) (newval : Str)
    (x : Session σ) : (setStringValue T s newval x).2.user s' = x.user s' := by
  rcases Session.setStringValue_cases htext newval x with hx | ⟨-, -, hx⟩ | hx <;> rw [hx]
  · exact Function.update_of_ne hs _ _
  · exact Function.update_of_ne hs _ _

theorem setStringValue_isNew {s : σ} (htext : (T.type s).isText = true) {newval : Str} {x : Session σ}
    (hset : (setStringValue T s newval x).1 = true) : ((setStringValue T s newval x).2.user s).isNew = false := by
  rcases Session.setStringValue_cases htext newval x with hx | ⟨-, -, hx⟩ | hx <;> rw [hx] at hset ⊢
  · cases hset
  · simp [Session.setUser]
  · simp [Session.setUser, Session.clear]

variable (T) in
/-- What is kept is right, and no line that is left is a text which a new symbol has kept from
before: `sym_set_string_value` would take it for no change. -/
structure Dialogue.Sound (d : Dialogue σ) : Prop where
  coherent : d.session.Coherent T
  unkept : ∀ s, (T.type s).isText = true → (d.session.user s).isNew = true →
    ∀ line ∈ d.input, (d.session.user s).val ≠ some line.dropLast

variable {d d' : Dialogue σ} {s : σ}

theorem confSym_sound (hwf : WellFounded T.Before) (hd : d.Sound T) (hs : s ∈ d.session.memo.valid)
    (htext : (T.type s).isText = false) (h : confSym T mode validStdin s d = some d') : d'.Sound T := by
  obtain ⟨line, x, -, haccept, -, rfl, hsub⟩ := askUntil_accepted mode validStdin h
  unfold acceptTristate at haccept
  split at haccept
  · cases haccept
  · next newval hnewval =>
    dsimp only at haccept
    split at haccept
    · have hx := Option.some.inj haccept
      refine ⟨hx ▸ Session.setTristateValue_coherent hwf hd.coherent hs htext newval,
        fun s' htext' hnew line hline => ?_⟩
      have hne : s' ≠ s := by
        rintro rfl
        rw [htext] at htext'
        cases htext'
      rw [← hx, setTristateValue_user hne] at hnew ⊢
      exact hd.unkept s' htext' hnew line (hsub hline)
    · cases haccept

theorem confString_sound (hwf : WellFounded T.Before) (hd : d.Sound T) (hs : s ∈ d.session.memo.valid)
    (htext : (T.type s).isText = true) (h : confString T mode validStdin s d = some d') : d'.Sound T := by
  obtain ⟨line, x, hline, haccept, -, rfl, hsub⟩ := askUntil_accepted mode validStdin h
  unfold acceptString at haccept
  split at haccept
  · cases haccept
  · next newval hnewval =>
    dsimp only at haccept
    split at haccept
    · next hset =>
      have hx := Option.some.inj haccept
      have hstale : (d.session.user s).isNew → (d.session.user s).val = some newval →
          (d.session.memo.cells s).val = newval := by
        intro hnew hval
        rcases defOf_eq htext hnewval with hdef | hdef
        · exact hdef.symm
        · rcases hline with rfl | hmem
          · exact (Option.some.inj ((string_text htext _ ▸ hnewval : some _ = some newval)))
          · exact absurd (hdef ▸ hval) (hd.unkept s htext hnew line hmem)
      refine ⟨hx ▸ Session.setStringValue_coherent hwf hd.coherent hs htext hstale, fun s' htext' hnew line hline => ?_⟩
      by_cases hne : s' = s
      · subst hne
        rw [← hx, setStringValue_isNew htext hset] at hnew
        cases hnew
      · rw [← hx, setStringValue_user htext hne] at hnew ⊢
        exact hd.unkept s' htext' hnew line (hsub hline)
    · cases haccept

end Conf

end Idic.Kconfig
