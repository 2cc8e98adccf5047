import Idic.Kconfig.Solution

/-! A run of a front end.

The front ends calculate symbols and set them, and what has been calculated is kept until
a value is changed. `Coherent` says that what is kept is the solution under the values of
the user as they are now. Every step keeps it (`step_coherent`), and a value that is
accepted is the one the symbol has then (`setTristateValue_solution`). -/
namespace Idic.Kconfig
open Python (Str)
open Memo (Prog)

variable {σ : Type} [DecidableEq σ] (T : Table σ)

/-- What the user has set, and what has been calculated. -/
structure Session (σ : Type) where
  user : σ → User
  memo : Memo.State σ Cell

namespace Session

/-- `sym_calc_value` -/
def calculate [Fintype σ] (s : σ) (x : Session σ) : Session σ := {x with memo := calcValue T x.user s x.memo}

@[simp] theorem calculate_user [Fintype σ] (s : σ) (x : Session σ) : (x.calculate T s).user = x.user := rfl

/-- `sym_clear_all_valid` -/
def clear (x : Session σ) : Session σ := {x with memo := {x.memo with valid := ∅}}

def setUser (s : σ) (user : User) (x : Session σ) : Session σ :=
  {x with user := Function.update x.user s user}

@[simp] theorem setUser_user (s : σ) (user : User) (x : Session σ) : (x.setUser s user).user s = user := by
  simp [setUser]

end Session

/-- `sym_tristate_within_range` of a symbol that is not a value of a choice. -/
def tristateWithinRange (s : σ) (c : Cell) (val : Tristate) : Bool :=
  c.visible ≠ .no && (T.getType s = .boolean || T.getType s = .tristate) &&
    !(T.getType s = .boolean && val = .mod) && c.revDep < c.visible && (c.revDep ≤ val && val ≤ c.visible)

/-- `sym_set_tristate_value`, where neither a choice nor `MODULES` is set. -/
def setTristateValue (s : σ) (val : Tristate) (x : Session σ) : Bool × Session σ :=
  let oldval := (x.memo.cells s).tri
  if oldval ≠ val ∧ !tristateWithinRange T s (x.memo.cells s) val then (false, x)
  else
    let x := x.setUser s {x.user s with isNew := false, tri := val}
    (true, if oldval ≠ val then x.clear else x)

/-- The order in which `sym_toggle_tristate_value` goes through the values. -/
def Tristate.next : Tristate → Tristate
  | no => mod
  | mod => yes
  | yes => no

/-- `sym_toggle_tristate_value`: what comes next and can be set, which the value itself
always can. -/
def toggleTristateValue (s : σ) (x : Session σ) : Tristate × Session σ :=
  let oldval := (x.memo.cells s).tri
  let first := setTristateValue T s oldval.next x
  if first.1 then (oldval.next, first.2)
  else
    let second := setTristateValue T s oldval.next.next first.2
    if second.1 then (oldval.next.next, second.2)
    else (oldval, (setTristateValue T s oldval second.2).2)

/-- `isdigit` and `isxdigit` -/
def isDigit (ch : Char) : Bool := '0' ≤ ch && ch ≤ '9'

def isHexDigit (ch : Char) : Bool := isDigit ch || ('a' ≤ ch && ch ≤ 'f') || ('A' ≤ ch && ch ≤ 'F')

/-- `str[0] == '0' && (str[1] == 'x' || str[1] == 'X')` -/
def hasHexMark : Str → Bool
  | '0' :: 'x' :: _ | '0' :: 'X' :: _ => true
  | _ => false

/-- `sym_string_valid`, of an integer without its sign. -/
def digitsValid : Str → Bool
  | [] => false
  | ch :: str => isDigit ch && !(ch = '0' && str ≠ []) && str.all isDigit

/-- `sym_string_valid` -/
def stringValid (type : SymbolType) (str : Str) : Bool :=
  match type with
  | .string => true
  | .int =>
    match str with
    | '-' :: str => digitsValid str
    | str => digitsValid str
  | .hex =>
    let str := if hasHexMark str then str.drop 2 else str
    str ≠ [] && str.all isHexDigit
  | .boolean | .tristate =>
    match str with
    | ch :: _ => ch ∈ ['y', 'Y', 'm', 'M', 'n', 'N']
    | [] => false
  | .unknown | .other => false

/-- The types of symbols that are worth a text. -/
def SymbolType.isText : SymbolType → Bool
  | .int | .hex | .string => true
  | _ => false

/-- What `sym_set_string_value` keeps of a text. -/
def keptString (type : SymbolType) (newval : Str) : Str :=
  if type = .hex ∧ !hasHexMark newval then '0' :: 'x' :: newval else newval

/-- `sym_set_string_value`. Without a range a text is within it when it is valid. Nothing is
calculated again when the text is the one that is kept already. -/
def setStringValue (s : σ) (newval : Str) (x : Session σ) : Bool × Session σ :=
  match T.type s with
  | .boolean | .tristate =>
    match newval with
    | 'y' :: _ | 'Y' :: _ => setTristateValue T s .yes x
    | 'm' :: _ | 'M' :: _ => setTristateValue T s .mod x
    | 'n' :: _ | 'N' :: _ => setTristateValue T s .no x
    | _ => (false, x)
  | type =>
    if !stringValid type newval then (false, x)
    else
      let oldval := (x.user s).val
      let set := x.setUser s {x.user s with isNew := false, val := some (keptString type newval)}
      if (type = .hex ∧ !hasHexMark newval) ∨ oldval ≠ some newval then (true, set.clear) else (true, set)

/-- What a front end does. A symbol that is set has been calculated. -/
inductive Action (σ : Type) where
  | calculate (s : σ)
  | tristate (s : σ) (val : Tristate)
  | toggle (s : σ)
  | string (s : σ) (newval : Str)
  | clear

/-- The text is the one that a symbol has kept from before it was new. -/
def Action.Stale (x : Session σ) : Action σ → Prop
  | .string s newval => (x.user s).isNew ∧ (x.user s).val = some newval
  | _ => False

namespace Session

/-- `conf_string` is for the types of texts, and `conf_sym` for the others. -/
def step [Fintype σ] (x : Session σ) : Action σ → Session σ
  | .calculate s => x.calculate T s
  | .tristate s val => if (T.type s).isText then x else (setTristateValue T s val (x.calculate T s)).2
  | .toggle s => if (T.type s).isText then x else (toggleTristateValue T s (x.calculate T s)).2
  | .string s newval => if (T.type s).isText then (setStringValue T s newval (x.calculate T s)).2 else x
  | .clear => x.clear

/-- What is kept is right. -/
def Coherent (x : Session σ) : Prop := ∃ S : Solution T x.user, Memo.Agrees S.cells ∅ x.memo

/-- What a front end comes to, when no text is given that a symbol has kept from before. -/
inductive Reachable [Fintype σ] : Session σ → Prop
  | start (user : σ → User) (stale : σ → Cell) : Reachable ⟨user, ∅, stale⟩
  | step (x : Session σ) (a : Action σ) (h : Reachable x) (ha : ¬ a.Stale x) : Reachable (x.step T a)

end Session

section Rules
variable {T} {user user' : σ → User} {s : σ}

omit [DecidableEq σ] in
theorem second_congr (h : user' s = user s) : T.second user' s = T.second user s := by
  funext c
  unfold Table.second Table.calcTri Table.calcUserTri
  rw [h]

/-- A value, as it is seen and selected. -/
def limit (T : Table σ) (s : σ) (c : Cell) (tri : Tristate) : Tristate :=
  T.promoted s (Op.or.apply (Op.and.apply tri c.visible) c.revDep)

omit [DecidableEq σ] in
theorem limit_limit {c : Cell} (hvisible : T.getType s = .boolean → c.visible ≠ .mod)
    (hrev : T.getType s = .boolean → c.revDep ≠ .mod) (tri : Tristate) :
    limit T s c (limit T s c tri) = limit T s c tri := by
  unfold limit Table.promoted
  by_cases h : T.getType s = .boolean
  · have hvisible := hvisible h
    have hrev := hrev h
    simp only [h, and_true]
    revert hvisible hrev
    cases tri <;> cases c.visible <;> cases c.revDep <;> decide
  · simp only [h, and_false, if_false]
    cases tri <;> cases c.visible <;> cases c.revDep <;> rfl

omit [DecidableEq σ] in
/-- What is within the range is not cut down. -/
theorem limit_of_within {c : Cell} {val : Tristate} (h : tristateWithinRange T s c val = true) :
    limit T s c val = val := by
  simp only [tristateWithinRange, Bool.and_eq_true, Bool.not_eq_true', decide_eq_true_eq] at h
  obtain ⟨⟨⟨-, hboolean⟩, -⟩, hrev, hvisible⟩ := h
  rw [limit, Op.and_eq_min, Op.or_eq_max, min_eq_left hvisible, max_eq_left hrev]
  exact Table.promoted_of_ne_mod fun h hmod => by simp [h, hmod] at hboolean

omit [DecidableEq σ] in
theorem calcTri_seen (sol : σ → Cell) {c : Cell} (h : Op.or.apply c.visible c.revDep ≠ .no) :
    T.promoted s ((T.calcTri user s c).value sol) = limit T s c ((T.calcUserTri user s).value sol) := by
  rw [Table.calcTri, if_pos h, Prog.value_bind, Prog.value_pure, limit]

omit [DecidableEq σ] in
/-- A symbol that is no text is set to its own value. -/
theorem value_second_self (sol : σ → Cell) {c : Cell} (hvisible : T.getType s = .boolean → c.visible ≠ .mod)
    (hrev : T.getType s = .boolean → c.revDep ≠ .mod) (htext : (T.getType s).isText = false)
    (hnew : (user' s).isNew = false) (htri : (user' s).tri = ((T.second user s c).value sol).tri) :
    (T.second user' s c).value sol = (T.second user s c).value sol := by
  by_cases h : T.getType s = .boolean ∨ T.getType s = .tristate
  · rw [value_second_tri sol h] at htri ⊢
    rw [value_second_tri sol h]
    congr 1
    by_cases hseen : Op.or.apply c.visible c.revDep ≠ .no
    · rw [calcTri_seen sol hseen] at htri ⊢
      rw [calcTri_seen sol hseen, Table.calcUserTri, hnew, if_neg Bool.false_ne_true, Prog.value_pure, htri]
      exact limit_limit hvisible hrev _
    · rw [Table.calcTri, Table.calcTri, if_neg hseen, if_neg hseen]
  · unfold Table.second
    split <;> simp_all [SymbolType.isText]

end Rules

omit [DecidableEq σ] in
theorem isText_getType (s : σ) : (T.getType s).isText = (T.type s).isText := by
  unfold Table.getType
  split
  · next h => rw [h]; split <;> rfl
  · rfl

omit [DecidableEq σ] in
theorem getType_text {T : Table σ} {s : σ} (h : (T.type s).isText = true) :
    T.getType s = .int ∨ T.getType s = .hex ∨ T.getType s = .string := by
  rw [← isText_getType] at h
  cases htype : T.getType s <;> simp_all [SymbolType.isText]

namespace Solution
variable {T} {user : σ → User} (S : Solution T user) {s : σ} {u : User}

/-- To set a symbol to what it is changes nothing. -/
def keep (hnew : u.isNew = false) (htri : u.tri = (S.cells s).tri) (htext : (T.type s).isText = false) :
    Solution T (Function.update user s u) where
  cells := S.cells
  solves s' := by
    refine (S.cells_eq s').trans ?_
    show _ = (T.second (Function.update user s u) s' ((T.first s').value S.cells)).value S.cells
    by_cases hs : s' = s
    · subst hs
      symm
      refine value_second_self S.cells (fun h => ?_) (fun h => ?_) ?_ ?_ ?_
      · rw [S.first_visible]
        exact S.visible_ne_mod h
      · rw [S.first_revDep]
        exact S.revDep_ne_mod h
      · rw [isText_getType, htext]
      · rw [Function.update_self, hnew]
      · rw [Function.update_self, htri]
        exact congrArg Cell.tri (S.cells_eq s')
    · rw [second_congr (Function.update_of_ne hs u user)]

/-- The same for a text. -/
def keepText (hnew : u.isNew = false) (hval : u.val = some (S.cells s).val) (htext : (T.type s).isText = true) :
    Solution T (Function.update user s u) where
  cells := S.cells
  solves s' := by
    refine (S.cells_eq s').trans ?_
    show _ = (T.second (Function.update user s u) s' ((T.first s').value S.cells)).value S.cells
    by_cases hs : s' = s
    · subst hs
      have htype := getType_text htext
      have hcell := S.cells_eq s'
      rw [value_second_text _ htype] at hcell
      rw [value_second_text _ htype, value_second_text _ htype, Function.update_self, hnew, hval]
      congr 1
      by_cases hvisible : ((T.first s').value S.cells).visible ≠ .no
      · rw [if_pos (c := _ ∧ (!false) = true) ⟨hvisible, rfl⟩]
        exact (congrArg Cell.val hcell).symm
      · rw [if_neg fun h => hvisible h.1, if_neg fun h => hvisible h.1]
    · rw [second_congr (Function.update_of_ne hs u user)]

/-- Only what depends on a symbol changes when it is set. -/
theorem unchanged (hwf : WellFounded T.Before) (S' : Solution T (Function.update user s u)) (s' : σ)
    (hs' : ¬ Relation.ReflTransGen T.Before s s') : S'.cells s' = S.cells s' := by
  have hbefore : WellFounded (T.rules user).Before := hwf
  refine Memo.unchanged hbefore S.solves S'.solves (fun j hj => ?_) s' hs'
  show (T.second (Function.update user s u) j ((T.first j).value S'.cells)).value S'.cells =
    (T.second user j ((T.first j).value S'.cells)).value S'.cells
  rw [second_congr (Function.update_of_ne hj u user)]

/-- Nor does what it depends on itself. -/
theorem seen_unchanged (hwf : WellFounded T.Before) (S' : Solution T (Function.update user s u))
    (h : (T.type s).isKnown = true) :
    (S'.cells s).visible = (S.cells s).visible ∧ (S'.cells s).revDep = (S.cells s).revDep := by
  have hdeps : ∀ s' ∈ T.deps s, S'.cells s' = S.cells s' := fun s' hs' =>
    S.unchanged hwf S' s' fun hpath => hwf.transGen.irrefl.irrefl s (.tail' hpath hs')
  rw [S'.visible_eq h, S.visible_eq h, S'.revDep_eq h, S.revDep_eq h]
  exact ⟨(T.calcVisible_asks s).value_congr hdeps, (T.calcRevDep_asks s).value_congr hdeps⟩

end Solution

namespace Session
variable {T} {x : Session σ}

/-- A value is rejected, or is what the symbol has already, or is within the range. -/
theorem setTristateValue_cases (s : σ) (val : Tristate) (x : Session σ) :
    ((x.memo.cells s).tri ≠ val ∧ tristateWithinRange T s (x.memo.cells s) val = false ∧
        setTristateValue T s val x = (false, x)) ∨
      ((x.memo.cells s).tri = val ∧
        setTristateValue T s val x = (true, x.setUser s {x.user s with isNew := false, tri := val})) ∨
      (tristateWithinRange T s (x.memo.cells s) val = true ∧
        setTristateValue T s val x = (true, (x.setUser s {x.user s with isNew := false, tri := val}).clear)) := by
  unfold setTristateValue
  by_cases hval : (x.memo.cells s).tri = val
  · exact .inr (.inl ⟨hval, by simp [hval]⟩)
  · cases hrange : tristateWithinRange T s (x.memo.cells s) val with
    | false => exact .inl ⟨hval, rfl, by simp [hval]⟩
    | true => exact .inr (.inr ⟨rfl, by simp [hval]⟩)

/-- What is rejected changes nothing. -/
theorem setTristateValue_rejected {s : σ} {val : Tristate} (h : (setTristateValue T s val x).1 = false) :
    setTristateValue T s val x = (false, x) := by
  rcases setTristateValue_cases (T := T) s val x with ⟨-, -, hx⟩ | ⟨-, hx⟩ | ⟨-, hx⟩
  · exact hx
  · rw [hx] at h; cases h
  · rw [hx] at h; cases h

omit [DecidableEq σ] in
theorem getType_of_within {s : σ} {c : Cell} {val : Tristate} (h : tristateWithinRange T s c val = true) :
    T.getType s = .boolean ∨ T.getType s = .tristate := by
  simp only [tristateWithinRange, Bool.and_eq_true, Bool.or_eq_true, decide_eq_true_eq] at h
  exact h.1.1.1.2

omit [DecidableEq σ] in
theorem seen_of_within {s : σ} {c : Cell} {val : Tristate} (h : tristateWithinRange T s c val = true) :
    Op.or.apply c.visible c.revDep ≠ .no := by
  simp only [tristateWithinRange, Bool.and_eq_true, decide_eq_true_eq] at h
  rw [Op.or_eq_max]
  exact fun hno => h.1.1.1.1 (le_antisymm (hno ▸ le_max_left _ _) (Tristate.no_le _))

/-- A value that is accepted is the one that the symbol has then. -/
theorem setTristateValue_solution (hwf : WellFounded T.Before) (S : Solution T x.user)
    (hst : Memo.Agrees S.cells ∅ x.memo) {s : σ} (hs : s ∈ x.memo.valid) (htext : (T.type s).isText = false)
    (val : Tristate) (hset : (setTristateValue T s val x).1 = true) :
    ∃ S' : Solution T (setTristateValue T s val x).2.user,
      Memo.Agrees S'.cells ∅ (setTristateValue T s val x).2.memo ∧ (S'.cells s).tri = val ∧
        ∀ s', ¬ Relation.ReflTransGen T.Before s s' → S'.cells s' = S.cells s' := by
  have hcell : x.memo.cells s = S.cells s := hst s hs (Finset.notMem_empty s)
  rcases setTristateValue_cases (T := T) s val x with ⟨-, -, hx⟩ | ⟨hval, hx⟩ | ⟨hrange, hx⟩
  · rw [hx] at hset; cases hset
  · rw [hx]
    rw [hcell] at hval
    exact ⟨S.keep rfl hval.symm htext, hst, hval, fun _ _ => rfl⟩
  · rw [hx]
    obtain ⟨S'⟩ := exists_solution (x.setUser s {x.user s with isNew := false, tri := val}).user hwf
    have hunchanged := S.unchanged hwf S'
    refine ⟨S', fun i hi => absurd hi (Finset.notMem_empty i), ?_, hunchanged⟩
    have htype := getType_of_within hrange
    obtain ⟨hvisible, hrev⟩ := S.seen_unchanged hwf S' (T.isKnown_of_getType s htype)
    rw [hcell] at hrange
    have hrange' : tristateWithinRange T s (S'.cells s) val = true := by
      rw [← hrange, tristateWithinRange, tristateWithinRange, hvisible, hrev]
    rw [S'.tri_eq htype, calcTri_seen S'.cells (seen_of_within hrange')]
    rw [Table.calcUserTri, setUser_user, if_neg Bool.false_ne_true, Prog.value_pure]
    exact limit_of_within hrange'

/-- A value that the symbol may not have is rejected, and nothing changes. Any other one is
what the symbol has then, and nothing changes but what depends on it. -/
theorem setTristateValue_value (hwf : WellFounded T.Before) (S : Solution T x.user)
    (hst : Memo.Agrees S.cells ∅ x.memo) {s : σ} (hs : s ∈ x.memo.valid) (htext : (T.type s).isText = false)
    (val : Tristate) :
    ((S.cells s).tri ≠ val ∧ tristateWithinRange T s (S.cells s) val = false ∧
        setTristateValue T s val x = (false, x)) ∨
      (((S.cells s).tri = val ∨ tristateWithinRange T s (S.cells s) val = true) ∧
        (setTristateValue T s val x).1 = true ∧
        ∃ S' : Solution T (setTristateValue T s val x).2.user,
          Memo.Agrees S'.cells ∅ (setTristateValue T s val x).2.memo ∧ (S'.cells s).tri = val ∧
            ∀ s', ¬ Relation.ReflTransGen T.Before s s' → S'.cells s' = S.cells s') := by
  have hset := setTristateValue_solution hwf S hst hs htext val
  rw [← hst s hs (Finset.notMem_empty s)]
  rcases setTristateValue_cases (T := T) s val x with ⟨hne, hrange, hx⟩ | ⟨hval, hx⟩ | ⟨hrange, hx⟩
  · exact .inl ⟨hne, hrange, hx⟩
  · exact .inr ⟨.inl hval, by rw [hx], hset (by rw [hx])⟩
  · exact .inr ⟨.inr hrange, by rw [hx], hset (by rw [hx])⟩

/-- A text is rejected, or is what the symbol has kept, or all is calculated again. -/
theorem setStringValue_cases {s : σ} (htext : (T.type s).isText = true) (newval : Str) (x : Session σ) :
    setStringValue T s newval x = (false, x) ∨
      ((x.user s).val = some newval ∧ keptString (T.type s) newval = newval ∧
        setStringValue T s newval x =
          (true, x.setUser s {x.user s with isNew := false, val := some newval})) ∨
      setStringValue T s newval x = (true, (x.setUser s
        {x.user s with isNew := false, val := some (keptString (T.type s) newval)}).clear) := by
  unfold setStringValue
  split
  · next h => rw [h] at htext; cases htext
  · next h => rw [h] at htext; cases htext
  · dsimp only
    split
    · exact .inl rfl
    · split
      · exact .inr (.inr rfl)
      · next hkept =>
        obtain ⟨hmark, hval⟩ := not_or.mp hkept
        have hkeep : keptString (T.type s) newval = newval := by rw [keptString, if_neg hmark]
        refine .inr (.inl ⟨not_not.mp hval, hkeep, ?_⟩)
        rw [hkeep]

theorem setUser_same {s : σ} {newval : Str} (hstale : ¬ ((x.user s).isNew ∧ (x.user s).val = some newval))
    (hval : (x.user s).val = some newval) :
    x.setUser s {x.user s with isNew := false, val := some newval} = x := by
  have hold : (x.user s).isNew = false := eq_false_of_ne_true fun hnew => hstale ⟨hnew, hval⟩
  rw [← hold, ← hval, setUser, Function.update_eq_self]

/-- A text that is accepted is the one that the symbol has when it can be seen, unless it
had kept the text from before it was new. -/
theorem setStringValue_value (hwf : WellFounded T.Before) (S : Solution T x.user)
    (hst : Memo.Agrees S.cells ∅ x.memo) {s : σ} (htext : (T.type s).isText = true) {newval : Str}
    (hstale : ¬ ((x.user s).isNew ∧ (x.user s).val = some newval))
    (hset : (setStringValue T s newval x).1 = true) :
    ∃ S' : Solution T (setStringValue T s newval x).2.user,
      Memo.Agrees S'.cells ∅ (setStringValue T s newval x).2.memo ∧
        ((S'.cells s).visible ≠ .no → (S'.cells s).val = keptString (T.type s) newval) ∧
        ∀ s', ¬ Relation.ReflTransGen T.Before s s' → S'.cells s' = S.cells s' := by
  have htype : T.getType s = .int ∨ T.getType s = .hex ∨ T.getType s = .string := getType_text htext
  rcases setStringValue_cases htext newval x with hx | ⟨hval, hkeep, hx⟩ | hx
  · rw [hx] at hset; cases hset
  · have hold : (x.user s).isNew = false := eq_false_of_ne_true fun hnew => hstale ⟨hnew, hval⟩
    rw [hx, setUser_same hstale hval]
    refine ⟨S, hst, fun hvisible => ?_, fun _ _ => rfl⟩
    rw [S.val_eq htype, if_pos ⟨hvisible, by rw [hold]; rfl⟩, hval, hkeep]
    rfl
  · rw [hx]
    obtain ⟨S'⟩ := exists_solution
      (x.setUser s {x.user s with isNew := false, val := some (keptString (T.type s) newval)}).user hwf
    refine ⟨S', fun i hi => absurd hi (Finset.notMem_empty i), fun hvisible => ?_, S.unchanged hwf S'⟩
    rw [S'.val_eq htype, if_pos ⟨hvisible, by rw [setUser_user]; rfl⟩, setUser_user]
    rfl

section Coherent

theorem calculate_coherent [Fintype σ] (hwf : WellFounded T.Before) (s : σ) (h : x.Coherent T) :
    (x.calculate T s).Coherent T ∧ s ∈ (x.calculate T s).memo.valid := by
  obtain ⟨S, hst⟩ := h
  obtain ⟨hagrees, hvalid⟩ := Memo.demand_agrees S.solves hwf s ∅ (by simp) x.memo hst
  exact ⟨⟨S, hagrees⟩, hvalid⟩

theorem clear_coherent (hwf : WellFounded T.Before) : x.clear.Coherent T := by
  obtain ⟨S⟩ := exists_solution x.user hwf
  exact ⟨S, fun i hi => absurd hi (Finset.notMem_empty i)⟩

theorem setTristateValue_coherent (hwf : WellFounded T.Before) (h : x.Coherent T) {s : σ}
    (hs : s ∈ x.memo.valid) (htext : (T.type s).isText = false) (val : Tristate) :
    (setTristateValue T s val x).2.Coherent T := by
  obtain ⟨S, hst⟩ := h
  rcases setTristateValue_cases (T := T) s val x with ⟨-, -, hx⟩ | ⟨hval, hx⟩ | ⟨-, hx⟩
  · rw [hx]; exact ⟨S, hst⟩
  · rw [hst s hs (Finset.notMem_empty s)] at hval
    rw [hx]; exact ⟨S.keep rfl hval.symm htext, hst⟩
  · rw [hx]; exact clear_coherent hwf

theorem setStringValue_coherent (hwf : WellFounded T.Before) (h : x.Coherent T) {s : σ} (hs : s ∈ x.memo.valid)
    (htext : (T.type s).isText = true) {newval : Str}
    (hstale : (x.user s).isNew → (x.user s).val = some newval → (x.memo.cells s).val = newval) :
    (setStringValue T s newval x).2.Coherent T := by
  rcases setStringValue_cases htext newval x with hx | ⟨hval, -, hx⟩ | hx
  · rw [hx]; exact h
  · rw [hx]
    by_cases hnew : (x.user s).isNew
    · obtain ⟨S, hst⟩ := h
      have hcell := hstale hnew hval
      rw [hst s hs (Finset.notMem_empty s)] at hcell
      exact ⟨S.keepText rfl (congrArg some hcell.symm) htext, hst⟩
    · rw [setUser_same (fun h => hnew h.1) hval]
      exact h
  · rw [hx]; exact clear_coherent hwf

/-- Toggling sets a value that is accepted. -/
theorem toggleTristateValue_set (s : σ) (x : Session σ) :
    ∃ val, (setTristateValue T s val x).1 = true ∧
      toggleTristateValue T s x = (val, (setTristateValue T s val x).2) := by
  have hback : ∀ val, ¬ (setTristateValue T s val x).1 = true → (setTristateValue T s val x).2 = x := by
    intro val hset
    rw [setTristateValue_rejected (eq_false_of_ne_true hset)]
  unfold toggleTristateValue
  dsimp only
  split
  · next hset => exact ⟨_, hset, rfl⟩
  · next hset =>
    rw [hback _ hset]
    split
    · next hset => exact ⟨_, hset, rfl⟩
    · next hset =>
      rw [hback _ hset]
      exact ⟨_, by simp [setTristateValue], rfl⟩

theorem toggleTristateValue_coherent (hwf : WellFounded T.Before) (h : x.Coherent T) {s : σ}
    (hs : s ∈ x.memo.valid) (htext : (T.type s).isText = false) : (toggleTristateValue T s x).2.Coherent T := by
  obtain ⟨val, -, htoggle⟩ := toggleTristateValue_set (T := T) s x
  rw [htoggle]
  exact setTristateValue_coherent hwf h hs htext val

/-- The value that is come to by toggling is the one that the symbol has then. -/
theorem toggleTristateValue_value (hwf : WellFounded T.Before) (S : Solution T x.user)
    (hst : Memo.Agrees S.cells ∅ x.memo) {s : σ} (hs : s ∈ x.memo.valid) (htext : (T.type s).isText = false) :
    ∃ S' : Solution T (toggleTristateValue T s x).2.user,
      Memo.Agrees S'.cells ∅ (toggleTristateValue T s x).2.memo ∧
        (S'.cells s).tri = (toggleTristateValue T s x).1 := by
  obtain ⟨val, hset, htoggle⟩ := toggleTristateValue_set (T := T) s x
  rw [htoggle]
  obtain ⟨S', hst', hval, -⟩ := setTristateValue_solution hwf S hst hs htext val hset
  exact ⟨S', hst', hval⟩

theorem step_coherent [Fintype σ] (hwf : WellFounded T.Before) (h : x.Coherent T) (a : Action σ) (ha : ¬ a.Stale x) :
    (x.step T a).Coherent T := by
  cases a with
  | calculate s => exact (calculate_coherent hwf s h).1
  | clear => exact clear_coherent hwf
  | tristate s val =>
    rw [step]
    split
    · exact h
    · next htext =>
      obtain ⟨hcalc, hs⟩ := calculate_coherent hwf s h
      exact setTristateValue_coherent hwf hcalc hs (eq_false_of_ne_true htext) val
  | toggle s =>
    rw [step]
    split
    · exact h
    · next htext =>
      obtain ⟨hcalc, hs⟩ := calculate_coherent hwf s h
      exact toggleTristateValue_coherent hwf hcalc hs (eq_false_of_ne_true htext)
  | string s newval =>
    rw [step]
    split
    · next htext =>
      obtain ⟨hcalc, hs⟩ := calculate_coherent hwf s h
      exact setStringValue_coherent hwf hcalc hs htext fun hnew hval => absurd ⟨hnew, hval⟩ ha
    · exact h

/-- Whatever a front end does, what is kept is right. -/
theorem reachable_coherent [Fintype σ] (hwf : WellFounded T.Before) (h : Reachable T x) : x.Coherent T := by
  induction h with
  | start user stale =>
    obtain ⟨S⟩ := exists_solution user hwf
    exact ⟨S, fun i hi => absurd hi (Finset.notMem_empty i)⟩
  | step x a _ ha ih => exact step_coherent hwf ih a ha

end Coherent

end Session

section Example

/-- All symbols have been calculated. -/
def pduSession : Session Pdu := ⟨chosen, Finset.univ, pduSolution.cells⟩

theorem pduSession_agrees : Memo.Agrees pduSolution.cells ∅ pduSession.memo := fun _ _ _ => rfl

/-- From nothing that is set to `chosen`, and a value that follows from it. -/
def choosing : Session Pdu :=
  ([.tristate .simulation .yes, .string .url "ssh://git".toList, .calculate .python] : List (Action Pdu)).foldl
    (Session.step pdu) ⟨unset, ∅, fun _ => default⟩

theorem pdu_reachable_coherent : choosing.Coherent pdu ∧ choosing.memo.valid = {.simulation, .vpduserv, .python} ∧
    choosing.memo.cells .python = pduSolution.cells .python := by
  refine ⟨Session.reachable_coherent pdu_wellFounded ?_, by decide +kernel, by decide +kernel⟩
  have hwanted : Session.Reachable pdu (Session.step pdu ⟨unset, ∅, fun _ => default⟩ (.tristate .simulation .yes)) :=
    .step _ _ (.start unset _) id
  refine .step _ (.calculate .python) (.step _ (.string .url "ssh://git".toList) hwanted fun hkept => ?_) id
  exact absurd hkept.2 (by decide +kernel)

theorem pdu_setTristateValue_value :
    ((pduSolution.cells .simulation).tri ≠ .no ∧
        tristateWithinRange pdu .simulation (pduSolution.cells .simulation) .no = false ∧
        setTristateValue pdu .simulation .no pduSession = (false, pduSession)) ∨
      (((pduSolution.cells .simulation).tri = .no ∨
          tristateWithinRange pdu .simulation (pduSolution.cells .simulation) .no = true) ∧
        (setTristateValue pdu .simulation .no pduSession).1 = true ∧
        ∃ S' : Solution pdu (setTristateValue pdu .simulation .no pduSession).2.user,
          Memo.Agrees S'.cells ∅ (setTristateValue pdu .simulation .no pduSession).2.memo ∧
            (S'.cells .simulation).tri = .no ∧
            ∀ s', ¬ Relation.ReflTransGen pdu.Before .simulation s' → S'.cells s' = pduSolution.cells s') :=
  Session.setTristateValue_value (x := pduSession) pdu_wellFounded pduSolution pduSession_agrees
    (Finset.mem_univ _) rfl .no

theorem pdu_toggleTristateValue_value :
    ∃ S' : Solution pdu (toggleTristateValue pdu .simulation pduSession).2.user,
      Memo.Agrees S'.cells ∅ (toggleTristateValue pdu .simulation pduSession).2.memo ∧
        (S'.cells .simulation).tri = (toggleTristateValue pdu .simulation pduSession).1 :=
  Session.toggleTristateValue_value (x := pduSession) pdu_wellFounded pduSolution pduSession_agrees
    (Finset.mem_univ _) rfl

/-- The text can be seen, so it is what is given. -/
theorem pdu_setStringValue_value : (pduSolution.cells .url).visible = .yes ∧
    ∃ S' : Solution pdu (setStringValue pdu .url "https://git".toList pduSession).2.user,
      Memo.Agrees S'.cells ∅ (setStringValue pdu .url "https://git".toList pduSession).2.memo ∧
        ((S'.cells .url).visible ≠ .no → (S'.cells .url).val = keptString (pdu.type .url) "https://git".toList) ∧
        ∀ s', ¬ Relation.ReflTransGen pdu.Before .url s' → S'.cells s' = pduSolution.cells s' :=
  ⟨rfl, Session.setStringValue_value (x := pduSession) pdu_wellFounded pduSolution pduSession_agrees rfl
    (fun h => by cases h.1) rfl⟩

end Example

end Idic.Kconfig
