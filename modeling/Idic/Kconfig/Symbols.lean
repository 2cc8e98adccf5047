import Mathlib.Data.Fintype.Card
import Mathlib.Order.WellFounded
import Idic.Kconfig.Menu
import Idic.Kconfig.Recursion

/-! The symbol table.

What a configuration leaves of a symbol is its type, the conditions of its prompts and
defaults, and the symbols that select it. All of these are expressions over symbols, and
`conf_parse` looks for a symbol that depends on itself in this way. The configuration has no
choices, no ranges and no `MODULES` symbol. -/
namespace Idic.Kconfig
open Python (Str)

variable {σ : Type}

/-- The variables of an expression, from left to right. -/
def Sym.vars : Sym σ → List σ
  | .var s => [s]
  | _ => []

def Expr.vars : Expr σ → List σ
  | .symbol s => s.vars
  | .not e => e.vars
  | .comp _ s t => s.vars ++ t.vars
  | .bin _ l r => l.vars ++ r.vars

/-- No expression is looked at where there is none. -/
def conditionVars (e : Option (Expr σ)) : List σ := (e.map Expr.vars).getD []

/-- A property, with `prop->visible.expr`. Only a prompt has a text. There are neither
`P_RANGE` nor `P_CHOICE`. -/
inductive Property (σ : Type) where
  | prompt (text : Str) (visible : Option (Expr σ))
  | default (expr : Expr σ) (visible : Option (Expr σ))

namespace Property

/-- What `sym_check_deps` looks at in a property. -/
def vars : Property σ → List σ
  | prompt _ visible => conditionVars visible
  | default expr visible => conditionVars visible ++ expr.vars

end Property

/-- The entry of a symbol selects another one. -/
structure Select (σ : Type) where
  sym : σ
  target : σ
  dep : Option (Expr σ)

/-- The condition under which the entry selects, and the entry itself. -/
def Select.condition (sel : Select σ) : Option (Expr σ) := allocAnd (some (.symbol (.var sel.sym))) sel.dep

/-- All symbols, with what the configuration says of them: `symbols` are those of the hash
table, in its order. None is a choice or a value of one. `modules` is `modules_val`, which
nothing changes where no symbol is called `MODULES`. -/
structure Table (σ : Type) where
  name : σ → Str
  type : σ → SymbolType
  props : σ → List (Property σ)
  selects : List (Select σ)
  modules : Tristate
  symbols : List σ
  mem_symbols : ∀ s, s ∈ symbols

namespace Table

variable (T : Table σ)

/-- `sym_get_type` -/
def getType (s : σ) : SymbolType :=
  match T.type s with
  | .tristate => if T.modules = .no then .boolean else .tristate
  | type => type

section Select
variable [DecidableEq σ]

/-- `sym->rev_dep.expr`, as `menu_finalize` puts it together. -/
def revDep (s : σ) : Option (Expr σ) :=
  (T.selects.filter fun sel => sel.target = s).foldl (fun e sel => allocOr e sel.condition) none

/-- The symbols that `sym_check_deps` goes on with, from a symbol that is no choice. -/
def deps (s : σ) : List σ := conditionVars (T.revDep s) ++ (T.props s).flatMap Property.vars

theorem mem_deps_of_revDep {s s' : σ} (h : s' ∈ conditionVars (T.revDep s)) : s' ∈ T.deps s :=
  List.mem_append_left _ h

theorem mem_deps_of_prop {s s' : σ} {prop : Property σ} (hprop : prop ∈ T.props s) (h : s' ∈ prop.vars) :
    s' ∈ T.deps s :=
  List.mem_append_right _ (List.mem_flatMap.mpr ⟨prop, hprop, h⟩)

/-- A symbol comes before another one that depends on it. -/
def Before (s s' : σ) : Prop := s ∈ T.deps s'

variable [Fintype σ]

/-- The warnings of `conf_parse`: the loop over all symbols that follows the parser. -/
def checkDeps : List (List σ) := Recursion.searches T.deps ∅ ∅ T.symbols

theorem checkDeps_eq_nil_iff : T.checkDeps = [] ↔ WellFounded T.Before := Recursion.searches_nil_iff T.mem_symbols

/-- There is a warning exactly when a symbol depends on itself, and each one shows a
recursion. -/
theorem checkDeps_exact :
    (T.checkDeps = [] ↔ WellFounded T.Before) ∧ (WellFounded T.Before ↔ ∀ s, ¬ Relation.TransGen T.Before s s) ∧
      ∀ names ∈ T.checkDeps, Recursion.Recursive T.deps names := by
  refine ⟨T.checkDeps_eq_nil_iff, ⟨?_, ?_⟩, Recursion.searches_recursive⟩
  · exact fun hwf s => hwf.transGen.irrefl.irrefl s
  · intro h
    have hirrefl : Std.Irrefl (Relation.TransGen T.Before) := ⟨h⟩
    have htrans : IsTrans σ (Relation.TransGen T.Before) := ⟨fun _ _ _ => .trans⟩
    exact Subrelation.wf Relation.TransGen.single (Finite.wellFounded_of_trans_of_irrefl (Relation.TransGen T.Before))

end Select

end Table

end Idic.Kconfig
