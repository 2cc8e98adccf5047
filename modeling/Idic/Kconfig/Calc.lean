import Idic.Kconfig.Memo
import Idic.Kconfig.Symbols

/-! The values of the symbols.

`sym_calc_value` first finds out whether a symbol can be seen and what it is selected to,
and gives it a value in case it is asked for again. Then come what the user has set it
to and its defaults. Both parts ask for the values of other symbols. -/
namespace Idic.Kconfig
open Python (Str)
open Memo (Prog)

/-- `sym->user`. A symbol that is `SYMBOL_NEW` has no value of the user, but may have kept
an old one. -/
structure User where
  isNew : Bool
  tri : Tristate
  val : Option Str
  deriving DecidableEq

/-- `sym->curr`, with `sym->visible` and `sym->rev_dep.tri`. -/
structure Cell where
  val : Str
  tri : Tristate
  visible : Tristate
  revDep : Tristate
  deriving DecidableEq

instance : Inhabited Cell := ⟨⟨[], .no, .no, .no⟩⟩

/-- `sym_get_string_value` -/
def Cell.string (type : SymbolType) (c : Cell) : Str :=
  match type with
  | .boolean | .tristate => c.tri.str
  | _ => c.val

variable {σ : Type}

namespace Sym

/-- `sym_calc_value(sym)`, for what it does. -/
def calculate : Sym σ → Prog σ Cell Unit
  | var s => do
    let _ ← Prog.get s
  | _ => pure ()

/-- `sym_calc_value(sym)`, and then `sym->curr.tri`. -/
def calcTri : Sym σ → Prog σ Cell Tristate
  | yes => pure .yes
  | mod => pure .mod
  | no => pure .no
  | const _ _ => pure .no
  | var s => do return (← Prog.get s).tri

/-- `sym_calc_value(sym)`, and then `sym->curr.val`. -/
def calcVal : Sym σ → Prog σ Cell Str
  | yes => pure ['y']
  | mod => pure ['m']
  | no => pure ['n']
  | const name _ => pure name
  | var s => do return (← Prog.get s).val

/-- `sym_get_string_value` of a symbol that has been calculated. -/
def string (types : σ → SymbolType) : Sym σ → Prog σ Cell Str
  | var s => do return (← Prog.get s).string (types s)
  | s => s.calcVal

theorem calculate_asks (s : Sym σ) : s.calculate.Asks s.vars := by
  cases s with
  | var s => exact .bind (.get (List.mem_singleton.mpr rfl)) fun _ => .pure ()
  | _ => exact .pure ()

theorem calcTri_asks (s : Sym σ) : s.calcTri.Asks s.vars := by
  cases s with
  | var s => exact .bind (.get (List.mem_singleton.mpr rfl)) fun c => .pure c.tri
  | _ => exact .pure _

theorem calcVal_asks (s : Sym σ) : s.calcVal.Asks s.vars := by
  cases s with
  | var s => exact .bind (.get (List.mem_singleton.mpr rfl)) fun c => .pure c.val
  | _ => exact .pure _

theorem string_asks (types : σ → SymbolType) (s : Sym σ) : (s.string types).Asks s.vars := by
  cases s with
  | var s => exact .bind (.get (List.mem_singleton.mpr rfl)) fun c => .pure (c.string (types s))
  | _ => exact .pure _

end Sym

namespace Expr
variable (types : σ → SymbolType)

/-- `expr_calc_value`, which calculates both sides of a comparison before it looks at
one of them. -/
def calculate : Expr σ → Prog σ Cell Tristate
  | symbol s => s.calcTri
  | not e => do return (← e.calculate).not
  | comp c s t => do
    s.calculate
    t.calculate
    let str1 ← s.string types
    let str2 ← t.string types
    return c.value (str1 = str2)
  | bin op l r => do
    let val1 ← l.calculate
    let val2 ← r.calculate
    return op.apply val1 val2

theorem calculate_asks (e : Expr σ) : (e.calculate types).Asks e.vars := by
  induction e with
  | symbol s => exact s.calcTri_asks
  | not e ih => exact .bind ih fun _ => .pure _
  | comp c s t =>
    have hs : s.vars ⊆ s.vars ++ t.vars := List.subset_append_left _ _
    have ht : t.vars ⊆ s.vars ++ t.vars := List.subset_append_right _ _
    exact .bind (s.calculate_asks.mono hs) fun _ => .bind (t.calculate_asks.mono ht) fun _ =>
      .bind ((s.string_asks types).mono hs) fun _ => .bind ((t.string_asks types).mono ht) fun _ => .pure _
  | bin op l r ihl ihr =>
    exact .bind (ihl.mono (List.subset_append_left _ _)) fun _ =>
      .bind (ihr.mono (List.subset_append_right _ _)) fun _ => .pure _

end Expr

/-- `expr_calc_value`, in which no expression is worth `y`. -/
def calcPresent (types : σ → SymbolType) : Option (Expr σ) → Prog σ Cell Tristate
  | none => pure .yes
  | some e => e.calculate types

theorem calcPresent_asks (types : σ → SymbolType) (e : Option (Expr σ)) :
    (calcPresent types e).Asks (conditionVars e) := by
  cases e with
  | none => exact .pure _
  | some e => exact e.calculate_asks types

namespace Property
variable (types : σ → SymbolType)

/-- The loop of `sym_calc_visibility` over the prompts. -/
def calcPrompts : List (Property σ) → Tristate → Prog σ Cell Tristate
  | [], tri => pure tri
  | prompt _ visible :: props, tri => do calcPrompts props (Op.or.apply tri (← calcPresent types visible))
  | default _ _ :: props, tri => calcPrompts props tri

/-- What is done with the property that `sym_get_default_prop` returns. -/
def withDefault {α : Type} (f : Option (Expr σ) → Prog σ Cell α) : List (Property σ) → Prog σ Cell α
  | [] => f none
  | prompt _ _ :: props => withDefault f props
  | default expr visible :: props => do
    if (← calcPresent types visible) ≠ .no then f (some expr) else withDefault f props

variable {keys : List σ} {props : List (Property σ)}

theorem calcPrompts_asks (h : ∀ prop ∈ props, prop.vars ⊆ keys) (tri : Tristate) :
    (calcPrompts types props tri).Asks keys := by
  induction props generalizing tri with
  | nil => exact .pure tri
  | cons prop props ih =>
    obtain ⟨hprop, hprops⟩ := List.forall_mem_cons.mp h
    cases prop with
    | prompt text visible => exact .bind ((calcPresent_asks types visible).mono hprop) fun _ => ih hprops _
    | default expr visible => exact ih hprops tri

theorem withDefault_asks {α : Type} {f : Option (Expr σ) → Prog σ Cell α} (hnone : (f none).Asks keys)
    (hsome : ∀ e : Expr σ, e.vars ⊆ keys → (f (some e)).Asks keys) (h : ∀ prop ∈ props, prop.vars ⊆ keys) :
    (withDefault types f props).Asks keys := by
  induction props with
  | nil => exact hnone
  | cons prop props ih =>
    obtain ⟨hprop, hprops⟩ := List.forall_mem_cons.mp h
    cases prop with
    | prompt text visible => exact ih hprops
    | default expr visible =>
      obtain ⟨hvisible, hexpr⟩ := List.append_subset.mp hprop
      refine .bind ((calcPresent_asks types visible).mono hvisible) fun tri => ?_
      split
      · exact hsome expr hexpr
      · exact ih hprops

end Property

/-- The value a symbol is given before its own is known: `symbol_empty.curr` or
`symbol_no.curr`, and for a symbol without a type its name. -/
def SymbolType.initial (name : Str) : SymbolType → Str
  | .int | .hex | .string => []
  | .boolean | .tristate => ['n']
  | .unknown | .other => name

/-- `sym->type` is one that has a visibility. -/
def SymbolType.isKnown : SymbolType → Bool
  | .unknown | .other => false
  | _ => true

namespace Table

variable (T : Table σ) (user : σ → User)

/-- `m` is `y` for a symbol that is boolean. -/
def promoted (s : σ) (tri : Tristate) : Tristate :=
  if tri = .mod ∧ T.getType s = .boolean then .yes else tri

/-- `sym->visible`, in `sym_calc_visibility` -/
def calcVisible (s : σ) : Prog σ Cell Tristate := do
  let tri ← Property.calcPrompts T.type (T.props s) .no
  return if tri = .mod ∧ (T.type s ≠ .tristate ∨ T.modules = .no) then .yes else tri

section Rules
variable [DecidableEq σ]

/-- Nothing is selected where there is no expression. -/
def calcSelected (s : σ) : Prog σ Cell Tristate :=
  match T.revDep s with
  | some e => e.calculate T.type
  | none => pure .no

/-- `sym->rev_dep.tri`, in `sym_calc_visibility` -/
def calcRevDep (s : σ) : Prog σ Cell Tristate := do
  return T.promoted s (← T.calcSelected s)

/-- `sym_calc_value` of a symbol that is neither a choice nor a value of one, up to where it
has a value in case it is asked for again. -/
def first (s : σ) : Prog σ Cell Cell :=
  if (T.type s).isKnown then do
    let visible ← T.calcVisible s
    let revDep ← T.calcRevDep s
    return ⟨(T.type s).initial (T.name s), .no, visible, revDep⟩
  else pure ⟨(T.type s).initial (T.name s), .no, .no, .no⟩

end Rules

def calcDefaultTri (s : σ) : Prog σ Cell Tristate :=
  Property.withDefault T.type (fun
    | some e => e.calculate T.type
    | none => pure .no) (T.props s)

def calcDefaultVal (s : σ) : Prog σ Cell Str :=
  Property.withDefault T.type (fun
    | some (.symbol ds) => ds.calcVal
    | _ => pure []) (T.props s)

/-- The value of the user, or the default. -/
def calcUserTri (s : σ) : Prog σ Cell Tristate :=
  if (user s).isNew then T.calcDefaultTri s else pure (user s).tri

/-- `newval.tri` of a symbol that can be seen or is selected, and of one that is not. -/
def calcTri (s : σ) (c : Cell) : Prog σ Cell Tristate :=
  if Op.or.apply c.visible c.revDep ≠ .no then do
    let tri ← T.calcUserTri user s
    return Op.or.apply (Op.and.apply tri c.visible) c.revDep
  else T.calcDefaultTri s

/-- The rest of `sym_calc_value`. -/
def second (s : σ) (c : Cell) : Prog σ Cell Cell :=
  match T.getType s with
  | .boolean | .tristate => do
    return {c with tri := T.promoted s (← T.calcTri user s c)}
  | .int | .hex | .string =>
    if c.visible ≠ .no ∧ !(user s).isNew then return {c with val := (user s).val.getD []}
    else do return {c with val := ← T.calcDefaultVal s}
  | .unknown | .other => return c

section Asks
variable [DecidableEq σ] (s : σ)

theorem calcVisible_asks : (T.calcVisible s).Asks (T.deps s) :=
  .bind (Property.calcPrompts_asks T.type (fun _ hprop _ h => T.mem_deps_of_prop hprop h) .no) fun _ => .pure _

theorem calcSelected_asks : (T.calcSelected s).Asks (T.deps s) := by
  unfold calcSelected
  split
  · next e he =>
    refine (e.calculate_asks T.type).mono fun s' hs' => T.mem_deps_of_revDep ?_
    rw [he]
    exact hs'
  · exact .pure _

theorem calcRevDep_asks : (T.calcRevDep s).Asks (T.deps s) := .bind (T.calcSelected_asks s) fun _ => .pure _

theorem first_asks : (T.first s).Asks (T.deps s) := by
  unfold first
  split
  · exact .bind (T.calcVisible_asks s) fun _ => .bind (T.calcRevDep_asks s) fun _ => .pure _
  · exact .pure _

theorem calcDefaultTri_asks : (T.calcDefaultTri s).Asks (T.deps s) :=
  Property.withDefault_asks T.type (.pure _) (fun e he => (e.calculate_asks T.type).mono he)
    fun _ hprop _ h => T.mem_deps_of_prop hprop h

theorem calcDefaultVal_asks : (T.calcDefaultVal s).Asks (T.deps s) := by
  refine Property.withDefault_asks T.type (.pure _) (fun e he => ?_)
    fun _ hprop _ h => T.mem_deps_of_prop hprop h
  cases e with
  | symbol ds => exact ds.calcVal_asks.mono he
  | _ => exact .pure _

theorem calcUserTri_asks : (T.calcUserTri user s).Asks (T.deps s) := by
  unfold calcUserTri
  split
  · exact T.calcDefaultTri_asks s
  · exact .pure _

theorem calcTri_asks (c : Cell) : (T.calcTri user s c).Asks (T.deps s) := by
  unfold calcTri
  split
  · exact .bind (T.calcUserTri_asks user s) fun _ => .pure _
  · exact T.calcDefaultTri_asks s

theorem second_asks (c : Cell) : (T.second user s c).Asks (T.deps s) := by
  unfold second
  split
  · exact .bind (T.calcTri_asks user s c) fun _ => .pure _
  · exact .bind (T.calcTri_asks user s c) fun _ => .pure _
  · split
    · exact .pure _
    · exact .bind (T.calcDefaultVal_asks s) fun _ => .pure _
  · split
    · exact .pure _
    · exact .bind (T.calcDefaultVal_asks s) fun _ => .pure _
  · split
    · exact .pure _
    · exact .bind (T.calcDefaultVal_asks s) fun _ => .pure _
  · exact .pure _
  · exact .pure _

/-- `sym_calc_value` -/
def rules : Memo.Rules σ Cell where
  deps := T.deps
  first := T.first
  second := T.second user
  first_asks := T.first_asks
  second_asks := T.second_asks user

end Asks

end Table

end Idic.Kconfig
