import Idic.Kconfig.Dialogue
import Idic.Kconfig.OldConfig

/-! `make config` and `make oldconfig`.

`conf` asks for every symbol below an entry. In silent mode `check_conf` looks for symbols
that nothing is known of, and calls `conf` for the menu that such a symbol is in, which in
turn leaves the menus within that menu to `check_conf`. This goes on until a round comes
across no such symbol. What is written then has an answer for all that can be seen
(`configure_answered`), and `conf -s` leaves it alone (`oldConfig_stable`). -/
namespace Idic.Kconfig
open Python (Str)
open Memo (Prog)

variable {σ : Type}

section Visible
variable (T : Table σ)

/-- `menu_is_visible`. An entry whose prompt cannot be seen may hold one that can. -/
def isVisible (m : Entry σ) (children : Prog σ Cell Bool) : Prog σ Cell Bool :=
  match m.prompt with
  | none => pure false
  | some visible =>
    match m.sym with
    | none => do
      let tri ← calcPresent T.type visible
      return tri ≠ .no
    | some s => do
      let c ← Prog.get s
      -- Calculated with the symbol, which has left it at `n` where the symbol has no type.
      let tri ← if (T.type s).isKnown then calcPresent T.type visible else pure .no
      if tri ≠ .no then pure true else if c.tri = .no then pure false else children

/-- Its loop over the entries below. -/
def anyVisible : Menus σ → Prog σ Cell Bool
  | .nil => pure false
  | .cons m list next => do
    let visible ← isVisible T m (anyVisible list)
    if visible then pure true else anyVisible next

end Visible

variable [DecidableEq σ] [Fintype σ] (T : Table σ)

/-- To calculate something, within a session. -/
def Session.ask {α : Type} (p : Prog σ Cell α) (x : Session σ) : α × Session σ :=
  let r := Memo.run (calcValue T x.user) p x.memo
  (r.1, {x with memo := r.2})

/-- `sym_is_changable(sym) && !sym_has_value(sym)` -/
def toBeAsked (s : σ) (x : Session σ) : Bool := isChangable s x && (x.user s).isNew

/-- Nothing below a choice is come to, unless it is `m`. -/
def stopsAt (m : Entry σ) (x : Session σ) : Bool :=
  match m.sym with
  | none => false
  | some s => m.choice && (x.memo.cells s).tri ≠ .mod

/-- What `conf` and `check_conf` do with an entry when it is visible: something for its own
symbol, and then for the entries below. -/
def visit (m : Entry σ) (list : Menus σ) (own below : Dialogue σ → Option (Dialogue σ)) (d : Dialogue σ) :
    Option (Dialogue σ) :=
  let r := d.session.ask T (isVisible T m (anyVisible T list))
  let d := {d with session := r.2}
  if r.1 then (own d).bind fun d => if stopsAt m d.session then some d else below d else some d

section Conf
variable (mode : InputMode) (validStdin : Bool) (choose : Entry σ → Dialogue σ → Option (Dialogue σ))

/-- The symbol of an entry, in `conf`. `choose` is `conf_choice`. -/
def confEntry (m : Entry σ) (d : Dialogue σ) : Option (Dialogue σ) :=
  match m.sym with
  | none => some d
  | some s =>
    if m.choice then choose m d
    else if (T.type s).isText then confString T mode validStdin s d
    else confSym T mode validStdin s d

/-- The symbol of an entry, in `check_conf`. `root` is `conf(rootEntry)`. -/
def askEntry (root : Dialogue σ → Option (Dialogue σ)) (m : Entry σ) (d : Dialogue σ) : Option (Dialogue σ) :=
  match m.sym with
  | none => some d
  | some s => if toBeAsked s d.session then root {d with count := d.count + 1} else some d

mutual

/-- `conf`, for an entry and those behind it. -/
def conf : Menus σ → Dialogue σ → Option (Dialogue σ)
  | .nil, d => some d
  | .cons m list next, d =>
    let root := visit T m list (confEntry T mode validStdin choose m) (conf list)
    let check := visit T m list (askEntry root m) (checkConf root list)
    (if m.menu ∧ mode = .askSilent then visit T m list check some d else root d).bind (conf next)

/-- `check_conf`, for an entry and those behind it. A menu is its own `menu_get_parent_menu`. -/
def checkConf (root : Dialogue σ → Option (Dialogue σ)) : Menus σ → Dialogue σ → Option (Dialogue σ)
  | .nil, d => some d
  | .cons m list next, d =>
    let root' := if m.menu then visit T m list (confEntry T mode validStdin choose m) (conf list) else root
    (visit T m list (askEntry root' m) (checkConf root' list) d).bind (checkConf root next)

end

/-- `do { conf_cnt = 0; check_conf(&rootmenu); } while (conf_cnt);`, for so many rounds. -/
def checkLoop (ms : Menus σ) : Nat → Dialogue σ → Option (Dialogue σ)
  | 0, _ => none
  | rounds + 1, d =>
    (checkConf T mode validStdin choose some (.cons root ms .nil) {d with count := 0}).bind fun d =>
      if d.count = 0 then some d else checkLoop ms rounds d

/-- `char line[128]` -/
def answerRoom : Nat := 126

/-- But for `-s`, all entries are gone through to begin with. -/
def askFirst (ms : Menus σ) (d : Dialogue σ) : Option (Dialogue σ) :=
  if mode ≠ .askSilent then conf T mode validStdin choose (.cons root ms .nil) d else some d

/-- What `make config` goes on in. -/
def InputMode.thenMode (mode : InputMode) : InputMode := if mode = .askAll then .askSilent else mode

/-- `main`, behind `conf_parse`: the configuration that is left, when the program comes to its
end with one. `text` is the one there was. -/
def configure (ms : Menus σ) (rounds : Nat) (stale : σ → Cell) (text stdin : Str) : Option Str := do
  let x ← confRead T stale text
  let d ← askFirst T mode validStdin choose ms ⟨0, Lines.lines answerRoom stdin, x⟩
  let d ← checkLoop T mode.thenMode (validStdin || mode = .askAll) choose ms rounds d
  return (confWrite T ms d.session).1

end Conf

section Check
variable {T} {user : σ → User} {S : Solution T user}

/-- What is kept is the solution. -/
structure Keeps (S : Solution T user) (x : Session σ) : Prop where
  same : x.user = user
  agrees : Memo.Agrees S.cells ∅ x.memo

theorem ask_keeps {α : Type} (hwf : WellFounded T.Before) {x : Session σ} (h : Keeps S x) (p : Prog σ Cell α) :
    (x.ask T p).1 = p.value S.cells ∧ Keeps S (x.ask T p).2 := by
  obtain ⟨rfl, hagrees⟩ := h
  obtain ⟨hvalue, hagrees'⟩ := Memo.run_solves S.solves hwf (Prog.Asks.all T.mem_symbols p) hagrees
  exact ⟨hvalue, rfl, hagrees'⟩

/-- An entry that is seen has been calculated. -/
theorem isVisible_valid (hwf : WellFounded T.Before) {x : Session σ} (h : Keeps S x) {m : Entry σ} {s : σ}
    (hsym : m.sym = some s) {p : Prog σ Cell Bool} (hseen : (x.ask T (isVisible T m p)).1 = true) :
    s ∈ (x.ask T (isVisible T m p)).2.memo.valid := by
  obtain ⟨rfl, hagrees⟩ := h
  unfold isVisible at hseen ⊢
  rw [hsym] at hseen ⊢
  cases hprompt : m.prompt with
  | none => rw [hprompt] at hseen; cases hseen
  | some visible =>
    have hvalid := (Memo.demand_agrees S.solves hwf s ∅ (by simp) x.memo hagrees).2
    show s ∈ (Memo.run (Memo.demand (T.rules x.user)) (Prog.get s >>= _) x.memo).2.valid
    rw [Memo.run_get]
    exact Memo.run_grows Memo.demand_grows _ _ hvalid

/-- The symbol cannot be changed, or has a value of the user. -/
def Answered (S : Solution T user) (s : σ) : Prop :=
  (S.cells s).revDep < (S.cells s).visible → (user s).isNew = false

/-- No entry that can be come to is to be asked for. -/
def AllAnswered (S : Solution T user) : Menus σ → Prop
  | .nil => True
  | .cons m list next =>
    ((isVisible T m (anyVisible T list)).value S.cells = true → (∀ s ∈ m.sym, Answered S s) ∧
      ((∃ s ∈ m.sym, m.choice = true ∧ (S.cells s).tri ≠ .mod) ∨ AllAnswered S list)) ∧
      AllAnswered S next

omit [Fintype σ] in
theorem allAnswered_of_answered (h : ∀ s, Answered S s) (ms : Menus σ) : AllAnswered S ms := by
  induction ms with
  | nil => trivial
  | cons m list next ihlist ihnext => exact ⟨fun _ => ⟨fun s _ => h s, .inr ihlist⟩, ihnext⟩

omit [Fintype σ] in
theorem stopsAt_iff {m : Entry σ} {x : Session σ} (h : Keeps S x) (hvalid : ∀ s ∈ m.sym, s ∈ x.memo.valid) :
    stopsAt m x = true ↔ ∃ s ∈ m.sym, m.choice = true ∧ (S.cells s).tri ≠ .mod := by
  obtain ⟨-, hagrees⟩ := h
  unfold stopsAt
  cases hsym : m.sym with
  | none => exact ⟨nofun, fun ⟨s, hs, _⟩ => by cases hs⟩
  | some s =>
    have hcell : x.memo.cells s = S.cells s := hagrees s (hvalid s hsym) (Finset.notMem_empty s)
    simp [hcell]

/-- What is come to when an entry is visited: it has been calculated when it is seen. -/
theorem visit_eq (hwf : WellFounded T.Before) (m : Entry σ) (list : Menus σ)
    (own below : Dialogue σ → Option (Dialogue σ)) {d : Dialogue σ} (h : Keeps S d.session) :
    ∃ x, Keeps S x ∧ ((isVisible T m (anyVisible T list)).value S.cells = true → ∀ s ∈ m.sym, s ∈ x.memo.valid) ∧
      visit T m list own below d =
        if (isVisible T m (anyVisible T list)).value S.cells then
          (own {d with session := x}).bind fun d => if stopsAt m d.session then some d else below d
        else some {d with session := x} := by
  obtain ⟨hvalue, hkeeps⟩ := ask_keeps hwf h (isVisible T m (anyVisible T list))
  refine ⟨_, hkeeps, fun hseen s hs => ?_, ?_⟩
  · rw [← hvalue] at hseen
    exact isVisible_valid hwf h hs hseen
  · rw [visit, hvalue]

section Quiet
variable {mode : InputMode} {validStdin : Bool} {choose : Entry σ → Dialogue σ → Option (Dialogue σ)}

omit [Fintype σ] in
/-- An entry whose symbol has been calculated is asked for unless it is answered. -/
theorem askEntry_cases {m : Entry σ} {d : Dialogue σ} (h : Keeps S d.session)
    (hvalid : ∀ s ∈ m.sym, s ∈ d.session.memo.valid) (root : Dialogue σ → Option (Dialogue σ)) :
    ((∀ s ∈ m.sym, Answered S s) ∧ askEntry root m d = some d) ∨
      (¬ (∀ s ∈ m.sym, Answered S s) ∧ askEntry root m d = root {d with count := d.count + 1}) := by
  obtain ⟨hsame, hagrees⟩ := h
  subst hsame
  unfold askEntry
  cases hsym : m.sym with
  | none => exact .inl ⟨nofun, rfl⟩
  | some s =>
    have hcell : d.session.memo.cells s = S.cells s := hagrees s (hvalid s hsym) (Finset.notMem_empty s)
    have hask : toBeAsked s d.session = true ↔ ¬ Answered S s := by
      unfold toBeAsked isChangable Answered
      rw [hcell]
      simp
    dsimp only
    split
    · next hasked => exact .inr ⟨fun hall => hask.mp hasked (hall s rfl), rfl⟩
    · next hasked =>
      refine .inl ⟨fun s' hs' => ?_, rfl⟩
      cases hs'
      exact not_not.mp (mt hask.mpr hasked)

variable (mode validStdin choose) in
/-- Nothing happens in a round in which nothing is left to be asked for. -/
theorem checkConf_quiet (hwf : WellFounded T.Before) (ms : Menus σ) (hall : AllAnswered S ms)
    (root : Dialogue σ → Option (Dialogue σ)) {d : Dialogue σ} (h : Keeps S d.session) :
    ∃ d', checkConf T mode validStdin choose root ms d = some d' ∧ d'.count = d.count ∧ Keeps S d'.session := by
  induction ms generalizing root d with
  | nil => exact ⟨d, rfl, rfl, h⟩
  | cons m list next ihlist ihnext =>
    obtain ⟨hm, hnext⟩ := hall
    have hvisit : ∀ root' : Dialogue σ → Option (Dialogue σ), ∃ d',
        visit T m list (askEntry root' m) (checkConf T mode validStdin choose root' list) d = some d' ∧
          d'.count = d.count ∧ Keeps S d'.session := by
      intro root'
      obtain ⟨x, hx, hvalid, heq⟩ := visit_eq hwf m list (askEntry root' m)
        (checkConf T mode validStdin choose root' list) h
      rw [heq]
      split
      · next hseen =>
        obtain ⟨hanswered, hlist⟩ := hm hseen
        rcases askEntry_cases (d := {d with session := x}) hx (hvalid hseen) root' with ⟨-, hask⟩ | ⟨hnot, -⟩
        · rw [hask]
          show ∃ d', (if stopsAt m x = true then _ else _) = some d' ∧ _
          split
          · exact ⟨_, rfl, rfl, hx⟩
          · next hstop =>
            have hlist' := hlist.resolve_left fun hchoice => hstop ((stopsAt_iff hx (hvalid hseen)).mpr hchoice)
            exact ihlist hlist' root' (d := {d with session := x}) hx
        · exact absurd hanswered hnot
      · exact ⟨_, rfl, rfl, hx⟩
    rw [checkConf]
    obtain ⟨d₁, hd₁, hcount₁, hkeeps₁⟩ := hvisit (if m.menu = true then
      visit T m list (confEntry T mode validStdin choose m) (conf T mode validStdin choose list) else root)
    obtain ⟨d₂, hd₂, hcount₂, hkeeps₂⟩ := ihnext hnext root hkeeps₁
    refine ⟨d₂, ?_, hcount₂.trans hcount₁, hkeeps₂⟩
    rw [hd₁]
    exact hd₂

end Quiet

section Closed

variable (T) in
/-- What holds of everything that `conf` and `check_conf` do to a dialogue: `P`, or `Q` of what
is done for the symbol of an entry. -/
structure Closed (P : (Dialogue σ → Option (Dialogue σ)) → Prop)
    (Q : Entry σ → (Dialogue σ → Option (Dialogue σ)) → Prop) : Prop where
  none : P some
  bind {f g : Dialogue σ → Option (Dialogue σ)} : P f → P g → P fun d => (f d).bind g
  visit {m : Entry σ} (list : Menus σ) {own below : Dialogue σ → Option (Dialogue σ)} :
    Q m own → P below → P (visit T m list own below)
  ask {root : Dialogue σ → Option (Dialogue σ)} (m : Entry σ) : P root → Q m (askEntry root m)
  own {f : Dialogue σ → Option (Dialogue σ)} (m : Entry σ) : P f → Q m f

variable {P : (Dialogue σ → Option (Dialogue σ)) → Prop} {Q : Entry σ → (Dialogue σ → Option (Dialogue σ)) → Prop}
  {mode : InputMode} {validStdin : Bool} {choose : Entry σ → Dialogue σ → Option (Dialogue σ)}

theorem conf_closed (h : Closed T P Q) (ms : Menus σ)
    (hconf : ∀ m ∈ ms.order, Q m (confEntry T mode validStdin choose m)) :
    P (conf T mode validStdin choose ms) ∧
      ∀ root, P root → P (checkConf T mode validStdin choose root ms) := by
  induction ms with
  | nil => exact ⟨h.none, fun _ _ => h.none⟩
  | cons m list next ihlist ihnext =>
    rw [Menus.order, List.forall_mem_cons, List.forall_mem_append] at hconf
    obtain ⟨hm, hlist, hnext⟩ := hconf
    have hroot := h.visit list hm (ihlist hlist).1
    have hcheck : ∀ root, P root →
        P (visit T m list (askEntry root m) (checkConf T mode validStdin choose root list)) :=
      fun root hroot => h.visit list (h.ask m hroot) ((ihlist hlist).2 root hroot)
    refine ⟨?_, fun root hroot' => h.bind (hcheck _ ?_) ((ihnext hnext).2 root hroot')⟩
    · refine h.bind (f := fun d => if m.menu ∧ mode = .askSilent then _ else _) ?_ (ihnext hnext).1
      by_cases hmenu : m.menu = true ∧ mode = .askSilent
      · simp only [if_pos hmenu]
        exact h.visit list (h.own m (hcheck _ hroot)) h.none
      · simp only [if_neg hmenu]
        exact hroot
    · split
      · exact hroot
      · exact hroot'

end Closed

section Sound

variable (T) in
/-- What is done to a dialogue keeps what has been calculated right, and `conf_cnt` does not
go back. -/
def Proper (f : Dialogue σ → Option (Dialogue σ)) : Prop :=
  ∀ d d', d.Sound T → f d = some d' → d'.Sound T ∧ d.count ≤ d'.count

variable (T) in
/-- The same, of an entry whose symbol has been calculated. -/
def ProperOwn (m : Entry σ) (f : Dialogue σ → Option (Dialogue σ)) : Prop :=
  ∀ d d', d.Sound T → (∀ s ∈ m.sym, s ∈ d.session.memo.valid) → f d = some d' →
    d'.Sound T ∧ d.count ≤ d'.count

variable {mode : InputMode} {validStdin : Bool} {choose : Entry σ → Dialogue σ → Option (Dialogue σ)}

theorem ask_sound {α : Type} (hwf : WellFounded T.Before) {d : Dialogue σ} (hd : d.Sound T) (p : Prog σ Cell α) :
    Dialogue.Sound T {d with session := (d.session.ask T p).2} := by
  obtain ⟨S, hst⟩ := hd.coherent
  exact ⟨⟨S, (ask_keeps hwf ⟨rfl, hst⟩ p).2.agrees⟩, hd.unkept⟩

theorem visit_proper (hwf : WellFounded T.Before) {m : Entry σ} {list : Menus σ}
    {own below : Dialogue σ → Option (Dialogue σ)}
    (hown : ProperOwn T m own) (hbelow : Proper T below) : Proper T (visit T m list own below) := by
  intro d d' hd h
  obtain ⟨S, hst⟩ := hd.coherent
  have hsound := ask_sound hwf hd (isVisible T m (anyVisible T list))
  unfold visit at h
  dsimp only at h
  split at h
  · next hseen =>
    obtain ⟨d₁, hd₁, hrest⟩ := Option.bind_eq_some_iff.mp h
    obtain ⟨hsound₁, hcount₁⟩ := hown _ _ hsound
      (fun s hs => isVisible_valid (S := S) hwf ⟨rfl, hst⟩ hs hseen) hd₁
    split at hrest
    · cases hrest; exact ⟨hsound₁, hcount₁⟩
    · obtain ⟨hsound₂, hcount₂⟩ := hbelow _ _ hsound₁ hrest
      exact ⟨hsound₂, hcount₁.trans hcount₂⟩
  · cases h; exact ⟨hsound, le_refl _⟩

omit [Fintype σ] in
theorem confEntry_proper (hwf : WellFounded T.Before) {m : Entry σ} (hchoose : m.choice = true → Proper T (choose m)) :
    ProperOwn T m (confEntry T mode validStdin choose m) := by
  intro d d' hd hvalid h
  unfold confEntry at h
  split at h
  · cases h; exact ⟨hd, le_refl _⟩
  · next s hs =>
    split at h
    · next hchoice => exact hchoose hchoice _ _ hd h
    · split at h
      · next htext =>
        obtain ⟨-, -, -, -, hcount, -⟩ := askUntil_accepted mode validStdin h
        exact ⟨confString_sound hwf hd (hvalid s hs) htext h, hcount.ge⟩
      · next htext =>
        obtain ⟨-, -, -, -, hcount, -⟩ := askUntil_accepted mode validStdin h
        exact ⟨confSym_sound hwf hd (hvalid s hs) (eq_false_of_ne_true htext) h, hcount.ge⟩

omit [Fintype σ] in
theorem askEntry_proper {root : Dialogue σ → Option (Dialogue σ)} (m : Entry σ) (hroot : Proper T root) :
    ProperOwn T m (askEntry root m) := by
  intro d d' hd _ h
  unfold askEntry at h
  split at h
  · cases h; exact ⟨hd, le_refl _⟩
  · split at h
    · obtain ⟨hsound, hcount⟩ := hroot {d with count := d.count + 1} d' ⟨hd.coherent, hd.unkept⟩ h
      exact ⟨hsound, (Nat.le_succ _).trans hcount⟩
    · cases h; exact ⟨hd, le_refl _⟩

omit [Fintype σ] in
theorem bind_proper {f g : Dialogue σ → Option (Dialogue σ)} (hf : Proper T f) (hg : Proper T g) :
    Proper T fun d => (f d).bind g := by
  intro d d' hd h
  obtain ⟨d₁, hd₁, hrest⟩ := Option.bind_eq_some_iff.mp h
  obtain ⟨hsound₁, hcount₁⟩ := hf d d₁ hd hd₁
  obtain ⟨hsound₂, hcount₂⟩ := hg d₁ d' hsound₁ hrest
  exact ⟨hsound₂, hcount₁.trans hcount₂⟩

omit [Fintype σ] in
theorem some_proper : Proper T some := fun d d' hd h => by cases h; exact ⟨hd, le_refl _⟩

theorem closed_proper (hwf : WellFounded T.Before) : Closed T (Proper T) (ProperOwn T) where
  none := some_proper
  bind := bind_proper
  visit _ _ _ hown hbelow := visit_proper hwf hown hbelow
  ask := askEntry_proper
  own _ hf d d' hd _ h := hf d d' hd h

/-- Whatever is answered. -/
theorem conf_proper (hwf : WellFounded T.Before) (ms : Menus σ)
    (hchoose : ∀ m ∈ ms.order, m.choice = true → Proper T (choose m)) :
    Proper T (conf T mode validStdin choose ms) ∧
      ∀ root, Proper T root → Proper T (checkConf T mode validStdin choose root ms) :=
  conf_closed (closed_proper hwf) ms fun m hm => confEntry_proper hwf (hchoose m hm)

omit [Fintype σ] in
theorem sound_of_keeps {d : Dialogue σ} (hd : d.Sound T) (h : Keeps S d.session) {x : Session σ} (hx : Keeps S x) :
    Dialogue.Sound T {d with session := x} := by
  obtain ⟨rfl, hagrees⟩ := h
  obtain ⟨hsame, hagrees'⟩ := hx
  refine ⟨?_, ?_⟩
  · rw [Session.Coherent, hsame]
    exact ⟨S, hagrees'⟩
  · rw [hsame]
    exact hd.unkept

/-- Where `conf_cnt` has not changed, the symbol of the entry was not asked for. -/
theorem visit_answered (hwf : WellFounded T.Before) {m : Entry σ} {list : Menus σ}
    {root below : Dialogue σ → Option (Dialogue σ)} (hroot : Proper T root)
    (hlist : ∀ d d', d.Sound T → Keeps S d.session → below d = some d' → d'.count = d.count →
      AllAnswered S list ∧ Keeps S d'.session)
    (hbelow : Proper T below) {d d' : Dialogue σ} (hd : d.Sound T) (hkeeps : Keeps S d.session)
    (h : visit T m list (askEntry root m) below d = some d') (hcount : d'.count = d.count) :
    ((isVisible T m (anyVisible T list)).value S.cells = true → (∀ s ∈ m.sym, Answered S s) ∧
      ((∃ s ∈ m.sym, m.choice = true ∧ (S.cells s).tri ≠ .mod) ∨ AllAnswered S list)) ∧ Keeps S d'.session := by
  obtain ⟨x, hx, hvalid, heq⟩ := visit_eq hwf m list (askEntry root m) below hkeeps
  have hsound := sound_of_keeps hd hkeeps hx
  rw [heq] at h
  split at h
  · next hseen =>
    rcases askEntry_cases (d := {d with session := x}) hx (hvalid hseen) root with ⟨hall, hask⟩ | ⟨-, hask⟩
    · rw [hask, Option.bind_some] at h
      split at h
      · next hstop =>
        cases h
        exact ⟨fun _ => ⟨hall, .inl ((stopsAt_iff hx (hvalid hseen)).mp hstop)⟩, hx⟩
      · obtain ⟨hbelow', hkeeps'⟩ := hlist _ d' hsound hx h hcount
        exact ⟨fun _ => ⟨hall, .inr hbelow'⟩, hkeeps'⟩
    · rw [hask] at h
      obtain ⟨d₁, hd₁, hrest⟩ := Option.bind_eq_some_iff.mp h
      obtain ⟨hsound₁, hle₁⟩ :=
        hroot {d with count := d.count + 1, session := x} d₁ ⟨hsound.coherent, hsound.unkept⟩ hd₁
      have hle : d₁.count ≤ d'.count := by
        split at hrest
        · cases hrest; exact le_refl _
        · exact (hbelow d₁ d' hsound₁ hrest).2
      have hmore : d.count + 1 ≤ d'.count := hle₁.trans hle
      omega
  · next hseen => cases h; exact ⟨fun h => absurd h hseen, hx⟩

/-- When a round has come across no symbol to be asked for, there is none. -/
theorem checkConf_answered (hwf : WellFounded T.Before) (ms : Menus σ)
    (hchoose : ∀ m ∈ ms.order, m.choice = true → Proper T (choose m)) {root : Dialogue σ → Option (Dialogue σ)}
    (hroot : Proper T root) {d d' : Dialogue σ} (hd : d.Sound T)
    (hkeeps : Keeps S d.session) (h : checkConf T mode validStdin choose root ms d = some d')
    (hcount : d'.count = d.count) : AllAnswered S ms ∧ Keeps S d'.session := by
  induction ms generalizing root d d' with
  | nil => cases h; exact ⟨trivial, hkeeps⟩
  | cons m list next ihlist ihnext =>
    rw [Menus.order, List.forall_mem_cons, List.forall_mem_append] at hchoose
    obtain ⟨hm, hlist, hnext⟩ := hchoose
    rw [checkConf] at h
    obtain ⟨d₁, hd₁, hafter⟩ := Option.bind_eq_some_iff.mp h
    generalize hroot₁ : (if m.menu = true then
      visit T m list (confEntry T mode validStdin choose m) (conf T mode validStdin choose list)
      else root) = root₁ at hd₁
    have hproper₁ : Proper T root₁ := by
      rw [← hroot₁]
      split
      · exact visit_proper hwf (confEntry_proper hwf hm) (conf_proper hwf list hlist).1
      · exact hroot
    have hbelow : Proper T (checkConf T mode validStdin choose root₁ list) :=
      (conf_proper hwf list hlist).2 root₁ hproper₁
    obtain ⟨hsound₁, hle₁⟩ := visit_proper hwf (askEntry_proper m hproper₁) hbelow d d₁ hd hd₁
    have hle := ((conf_proper hwf next hnext).2 root hroot d₁ d' hsound₁ hafter).2
    have hcount₁ : d₁.count = d.count := le_antisymm (hle.trans hcount.le) hle₁
    obtain ⟨hanswered, hkeeps₁⟩ :=
      visit_answered hwf hproper₁ (fun _ _ => ihlist hlist hproper₁) hbelow hd hkeeps hd₁ hcount₁
    obtain ⟨hall, hkeeps'⟩ := ihnext hnext hroot hsound₁ hkeeps₁ hafter (hcount.trans hcount₁.symm)
    exact ⟨⟨hanswered, hall⟩, hkeeps'⟩

omit [Fintype σ] in
/-- The root has no symbol, and is always visible. -/
theorem allAnswered_root {ms : Menus σ} (h : AllAnswered S (.cons root ms .nil)) : AllAnswered S ms :=
  ((h.1 (Prog.value_bind ..)).2.resolve_left fun ⟨_, hs, _⟩ => by cases hs)

omit [DecidableEq σ] [Fintype σ] in
theorem forall_root {P : Entry σ → Prop} (hroot : P root) {ms : Menus σ} (h : ∀ m ∈ ms.order, P m) :
    ∀ m ∈ (Menus.cons root ms .nil).order, P m := by
  rw [Menus.order, List.forall_mem_cons, Menus.order, List.append_nil]
  exact ⟨hroot, h⟩

omit [Fintype σ] in
/-- Nor is it a choice. -/
theorem choose_root {ms : Menus σ} (hchoose : ∀ m ∈ ms.order, m.choice = true → Proper T (choose m)) :
    ∀ m ∈ (Menus.cons root ms .nil).order, m.choice = true → Proper T (choose m) :=
  forall_root (fun hchoice => Bool.noConfusion hchoice) hchoose

theorem checkLoop_answered (hwf : WellFounded T.Before) {ms : Menus σ}
    (hchoose : ∀ m ∈ ms.order, m.choice = true → Proper T (choose m)) {rounds : Nat} {d d' : Dialogue σ}
    (hd : d.Sound T) (h : checkLoop T mode validStdin choose ms rounds d = some d') :
    ∃ (user : σ → User) (S : Solution T user), AllAnswered S ms ∧ Keeps S d'.session := by
  induction rounds generalizing d with
  | zero => cases h
  | succ rounds ih =>
    have hstart : Dialogue.Sound T {d with count := 0} := ⟨hd.coherent, hd.unkept⟩
    obtain ⟨d₁, hd₁, hrest⟩ := Option.bind_eq_some_iff.mp h
    split at hrest
    · next hcount =>
      cases hrest
      obtain ⟨S, hst⟩ := hd.coherent
      obtain ⟨hall, hkeeps⟩ := checkConf_answered (S := S) hwf _ (choose_root hchoose) some_proper hstart
        ⟨rfl, hst⟩ hd₁ hcount
      exact ⟨_, S, allAnswered_root hall, hkeeps⟩
    · exact ih (((conf_proper hwf _ (choose_root hchoose)).2 some some_proper _ d₁ hstart hd₁).1) hrest

end Sound

section Main
variable {mode : InputMode} {validStdin : Bool} {choose : Entry σ → Dialogue σ → Option (Dialogue σ)} {ms : Menus σ}

theorem confWrite_keeps (hwf : WellFounded T.Before) {x : Session σ} (h : Keeps S x) (ms : Menus σ) :
    (confWrite T ms x).1 = (S.fileLines ms).flatten := by
  obtain ⟨rfl, hagrees⟩ := h
  exact confWrite_eq hwf S hagrees ms

variable (validStdin choose) in
/-- The file of a solution is read, asked nothing about, and written again. -/
theorem configure_fileLines (hwf : WellFounded T.Before) (S : Solution T user) (h : S.Writable ms)
    (rounds : Nat) (stale : σ → Cell) (stdin : Str) :
    configure T .askSilent validStdin choose ms (rounds + 1) stale (S.fileLines ms).flatten stdin =
      some (S.fileLines ms).flatten := by
  obtain ⟨x, hread, htaken, S', hcells, hst⟩ := confRead_fileLines hwf S h stale
  have hall : AllAnswered S' (.cons root ms .nil) := by
    refine allAnswered_of_answered (fun s hs => (htaken s fun hno => ?_).1) _
    rw [hcells, hno] at hs
    exact absurd hs (not_lt_of_ge (Tristate.no_le _))
  obtain ⟨d, hd, hcount, hkeeps⟩ := checkConf_quiet .askSilent validStdin choose hwf _ hall some
    (d := ⟨0, Lines.lines answerRoom stdin, x⟩) ⟨rfl, hst⟩
  have hloop : checkLoop T .askSilent validStdin choose ms (rounds + 1)
      ⟨0, Lines.lines answerRoom stdin, x⟩ = some d := by
    rw [checkLoop]
    show (checkConf T .askSilent validStdin choose some (.cons root ms .nil) _).bind _ = _
    rw [hd, Option.bind_some, if_pos hcount]
  rw [configure, hread]
  show (checkLoop T .askSilent (validStdin || false) choose ms (rounds + 1) _).bind
    (fun d => some (confWrite T ms d.session).1) = _
  rw [Bool.or_false, hloop, ← fileLines_congr hcells]
  exact congrArg some (confWrite_keeps hwf hkeeps ms)

/-- A configuration that a front end has written, with its symbols in whatever state, `conf -s`
leaves as it is, without a question. -/
theorem oldConfig_stable {x : Session σ} (hwf : WellFounded T.Before) (S : Solution T x.user)
    (hst : Memo.Agrees S.cells ∅ x.memo) (h : S.Writable ms) (rounds : Nat) (stale : σ → Cell) (stdin : Str) :
    configure T .askSilent validStdin choose ms (rounds + 1) stale (confWrite T ms x).1 stdin =
      some (confWrite T ms x).1 := by
  rw [confWrite_eq hwf S hst, configure_fileLines validStdin choose hwf S h]

/-- Whatever file there was, and whatever is answered, the file that is left is that of a
solution with nothing left to be asked for, if no answer is a text that a symbol has kept
from the file without having it. If it can be written down at all, it stays from then on. -/
theorem configure_answered (hwf : WellFounded T.Before) (hchoice : ∀ m ∈ ms.order, m.choice = false)
    {rounds : Nat} {stale : σ → Cell} {text stdin out : Str}
    (hkept : ∀ x, confRead T stale text = some x → ∀ s, (T.type s).isText = true → (x.user s).isNew = true →
      ∀ line ∈ Lines.lines answerRoom stdin, (x.user s).val ≠ some line.dropLast)
    (h : configure T mode validStdin choose ms rounds stale text stdin = some out) :
    ∃ (user : σ → User) (S : Solution T user), AllAnswered S ms ∧ out = (S.fileLines ms).flatten ∧
      (S.Writable ms → ∀ validStdin' choose' rounds' stale' stdin',
        configure T .askSilent validStdin' choose' ms (rounds' + 1) stale' out stdin' = some out) := by
  have hchoose : ∀ m ∈ ms.order, m.choice = true → Proper T (choose m) :=
    fun m hm htrue => Bool.noConfusion ((hchoice m hm).symm.trans htrue)
  obtain ⟨x, hread, hrest⟩ := Option.bind_eq_some_iff.mp h
  obtain ⟨d, hconf, hrest⟩ := Option.bind_eq_some_iff.mp hrest
  obtain ⟨d', hloop, hout⟩ := Option.bind_eq_some_iff.mp hrest
  have hstart : Dialogue.Sound T ⟨0, Lines.lines answerRoom stdin, x⟩ := ⟨confRead_coherent hwf hread, hkept x hread⟩
  have hd : d.Sound T := by
    unfold askFirst at hconf
    split at hconf
    · exact ((conf_proper hwf _ (choose_root hchoose)).1 _ d hstart hconf).1
    · cases hconf; exact hstart
  obtain ⟨user, S, hall, hkeeps⟩ := checkLoop_answered hwf hchoose hd hloop
  have hout' : out = (S.fileLines ms).flatten := by
    rw [← confWrite_keeps hwf hkeeps]
    exact (Option.some.inj hout).symm
  refine ⟨user, S, hall, hout', fun hwritable validStdin' choose' rounds' stale' stdin' => ?_⟩
  rw [hout', configure_fileLines validStdin' choose' hwf S hwritable]

end Main

end Check

section Example

/-- There is no choice. -/
def noChoice : Entry Pdu → Dialogue Pdu → Option (Dialogue Pdu) := fun _ => some

theorem pdu_oldConfig_stable :
    configure pdu .askSilent false noChoice pduMenus 1 pduSolution.cells (confWrite pdu pduMenus pduSession).1
        "n\n".toList = some (confWrite pdu pduMenus pduSession).1 :=
  oldConfig_stable (x := pduSession) pdu_wellFounded pduSolution pduSession_agrees pdu_writable 0 pduSolution.cells
    "n\n".toList

/-- The simulation is wanted, the service is left as it is, and the url is given. -/
def pduAnswers : Str := "y\n\nssh://git\n".toList

theorem pdu_unkept (x : Session Pdu) (h : confRead pdu (fun _ => default) [] = some x) (s : Pdu) :
    (x.user s).val = none := by
  have hval : (confRead pdu (fun _ => default) []).map (fun x => (x.user s).val) = some none := by
    cases s <;> decide +kernel
  rw [h] at hval
  exact Option.some.inj hval

theorem pdu_configure_answered :
    configure pdu .askAll false noChoice pduMenus 2 (fun _ => default) [] pduAnswers = some pduFile ∧
    ∃ (user : Pdu → User) (S : Solution pdu user), AllAnswered S pduMenus ∧ pduFile = (S.fileLines pduMenus).flatten ∧
      (S.Writable pduMenus → ∀ validStdin' choose' rounds' stale' stdin',
        configure pdu .askSilent validStdin' choose' pduMenus (rounds' + 1) stale' pduFile stdin' = some pduFile) := by
  have hfile : configure pdu .askAll false noChoice pduMenus 2 (fun _ => default) [] pduAnswers = some pduFile := by
    decide +kernel
  refine ⟨hfile, configure_answered pdu_wellFounded (by decide) (fun x hread s _ _ line _ => ?_) hfile⟩
  rw [pdu_unkept x hread s]
  exact (Option.some_ne_none _).symm

end Example

end Idic.Kconfig
