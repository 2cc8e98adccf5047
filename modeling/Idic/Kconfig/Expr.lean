import Idic.Kconfig.Tristate
import Idic.Python.Text

/-! Dependency expressions.

What a configuration entry depends on is an expression over symbols. A symbol of the
table is known by its address: `y`, `m` and `n` have one symbol each, a quoted name has
one that is constant, and all others are variables (`σ`). What a variable is worth is
left to `Values`, in which a boolean symbol is never `mod`. -/
namespace Idic.Kconfig
open Python (Str)

inductive SymbolType where
  | unknown
  | boolean
  | tristate
  | int
  | hex
  | string
  | other
  deriving DecidableEq, Repr

def Tristate.str : Tristate → Str
  | .no => ['n']
  | .mod => ['m']
  | .yes => ['y']

/-- The name is one that `sym_lookup` has a symbol of its own for. -/
def builtIn (name : Str) : Bool := name == ['y'] || name == ['m'] || name == ['n']

theorem builtIn_str (a : Tristate) : builtIn a.str = true := by cases a <;> rfl

theorem Tristate.str_injective : Function.Injective str := by
  intro a b h
  cases a <;> cases b <;> first | rfl | cases h

inductive Sym (σ : Type) where
  | yes
  | mod
  | no
  | const (name : Str) (h : builtIn name = false)
  | var (s : σ)
  deriving DecidableEq

namespace Sym

variable {σ : Type}

/-- `flags & SYMBOL_CONST` -/
def isConst : Sym σ → Bool
  | var _ => false
  | _ => true

/-- `flags & (SYMBOL_YES|SYMBOL_NO)` -/
def isYesOrNo : Sym σ → Bool
  | var _ => false
  | mod => false
  | _ => true

/-- `sym->type`. Only a variable is ever given one. -/
def type (types : σ → SymbolType) : Sym σ → SymbolType
  | var s => types s
  | _ => .unknown

end Sym

section Op
variable {σ : Type}

def Tristate.sym : Tristate → Sym σ
  | .no => .no
  | .mod => .mod
  | .yes => .yes

/-- The symbol of the value that changes nothing. -/
def Op.unitSym (op : Op) : Sym σ := op.unit.sym

/-- The symbol of the value that decides everything. -/
def Op.zeroSym (op : Op) : Sym σ := op.zero.sym

end Op

inductive Comp where
  | equal
  | unequal
  deriving DecidableEq, Repr

namespace Comp

def not : Comp → Comp
  | equal => unequal
  | unequal => equal

/-- The value of a comparison whose sides are the same or not. -/
def value (same : Prop) [Decidable same] : Comp → Tristate
  | equal => if same then .yes else .no
  | unequal => if same then .no else .yes

variable (c : Comp) (same : Prop) [Decidable same]

theorem not_not : c.not.not = c := by cases c <;> rfl

/-- A comparison is decided. -/
theorem value_ne_mod : c.value same ≠ .mod := by
  cases c <;> simp only [value] <;> split <;> decide

theorem value_not : c.not.value same = (c.value same).not := by
  cases c <;> simp only [Comp.not, value] <;> split <;> rfl

section Tristate
variable {a b sym : Tristate}

theorem value_congr {same' : Prop} [Decidable same'] (h : same ↔ same') : c.value same = c.value same' := by
  cases c <;> simp only [value, h]

/-- A decided value is `sym` when its negation is not. -/
theorem value_not_eq (ha : a ≠ .mod) (hsym : sym ≠ .mod) : c.not.value (a = sym) = c.value (a.not = sym) := by
  cases c <;> cases a <;> cases sym <;> first | rfl | contradiction

/-- A decided value is had back from its comparison with `y` or `n`. -/
theorem value_eq_self (ha : a ≠ .mod) : equal.value (a = .yes) = a := by
  cases a <;> first | rfl | contradiction

theorem value_eq_not (ha : a ≠ .mod) : equal.value (a = .no) = a.not := by
  cases a <;> first | rfl | contradiction

theorem value_apply_yes (op : Op) :
    equal.value (op.apply a b = .yes) = op.apply (equal.value (a = .yes)) (equal.value (b = .yes)) := by
  cases op <;> cases a <;> cases b <;> rfl

theorem value_apply_no (op : Op) :
    equal.value (op.apply a b = .no) = op.dual.apply (equal.value (a = .no)) (equal.value (b = .no)) := by
  cases op <;> cases a <;> cases b <;> rfl

end Tristate

end Comp

inductive Expr (σ : Type) where
  | symbol (s : Sym σ)
  | not (e : Expr σ)
  | comp (c : Comp) (s t : Sym σ)
  | bin (op : Op) (l r : Expr σ)
  deriving DecidableEq

/-- The values the symbols have been calculated to, under the types they were declared
with. `val` is what a symbol is worth that is no tristate. -/
structure Values {σ : Type} (types : σ → SymbolType) where
  tri : σ → Tristate
  val : σ → Str
  boolean : ∀ s, types s = .boolean → tri s ≠ .mod

section Values
variable {σ : Type} {types : σ → SymbolType} (v : Values types)

namespace Values

def triOf : Sym σ → Tristate
  | .yes => .yes
  | .mod => .mod
  | .no => .no
  | .const _ _ => .no
  | .var s => v.tri s

/-- `sym_get_string_value` -/
def stringOf : Sym σ → Str
  | .yes => ['y']
  | .mod => ['m']
  | .no => ['n']
  | .const name _ => name
  | .var s =>
    match types s with
    | .boolean | .tristate => (v.tri s).str
    | _ => v.val s

theorem stringOf_var {s : σ} (h : types s = .boolean ∨ types s = .tristate) :
    v.stringOf (.var s) = (v.tri s).str := by
  rcases h with h | h <;> simp only [stringOf, h]

theorem stringOf_const_ne (name : Str) (h : builtIn name = false) (a : Tristate) : name ≠ a.str := by
  rintro rfl
  rw [builtIn_str] at h
  cases h

/-- Two constants with the same text are one symbol. -/
theorem stringOf_injective {s t : Sym σ} (hs : s.isConst = true) (ht : t.isConst = true)
    (h : v.stringOf s = v.stringOf t) : s = t := by
  cases s with
  | var s => cases hs
  | const name hname =>
    cases t with
    | var t => cases ht
    | const name' hname' =>
      cases (h : name = name')
      rfl
    | yes => exact absurd h (stringOf_const_ne name hname .yes)
    | mod => exact absurd h (stringOf_const_ne name hname .mod)
    | no => exact absurd h (stringOf_const_ne name hname .no)
  | yes | mod | no =>
    cases t with
    | var t => cases ht
    | const name hname =>
      first
      | exact absurd h.symm (stringOf_const_ne name hname .yes)
      | exact absurd h.symm (stringOf_const_ne name hname .mod)
      | exact absurd h.symm (stringOf_const_ne name hname .no)
    | yes | mod | no => first | rfl | cases h

@[simp] theorem triOf_sym (a : Tristate) : v.triOf a.sym = a := by cases a <;> rfl

@[simp] theorem stringOf_sym (a : Tristate) : v.stringOf a.sym = a.str := by cases a <;> rfl

@[simp] theorem triOf_unitSym (op : Op) : v.triOf op.unitSym = op.unit := v.triOf_sym _

@[simp] theorem triOf_zeroSym (op : Op) : v.triOf op.zeroSym = op.zero := v.triOf_sym _

end Values

/-- `expr_calc_value` -/
@[simp] def Expr.calcValue : Expr σ → Tristate
  | symbol s => v.triOf s
  | not e => e.calcValue.not
  | comp c s t => c.value (v.stringOf s = v.stringOf t)
  | bin op l r => op.apply l.calcValue r.calcValue

end Values

namespace Expr

variable {σ : Type}

def size : Expr σ → Nat
  | symbol _ | comp _ _ _ => 1
  | not e => e.size + 1
  | bin _ l r => l.size + r.size + 1

def height : Expr σ → Nat
  | symbol _ | comp _ _ _ => 0
  | not e => e.height + 1
  | bin _ l r => max l.height r.height + 1

theorem size_pos (e : Expr σ) : 0 < e.size := by cases e <;> simp [size]

/-- `e->type == E_OR` or `E_AND`, as the operator has it. -/
def isBin (op : Op) : Expr σ → Bool
  | bin op' _ _ => op' == op
  | _ => false

variable [DecidableEq σ]

/-- What `expr_eliminate_yn` makes of a node when it has been in its operands. -/
def shortcut (op : Op) (left right : Expr σ) : Expr σ :=
  if left = symbol op.zeroSym then symbol op.zeroSym
  else if left = symbol op.unitSym then right
  else if right = symbol op.zeroSym then symbol op.zeroSym
  else if right = symbol op.unitSym then left
  else bin op left right

/-- `expr_eliminate_yn` -/
def eliminateYn : Expr σ → Expr σ
  | bin op l r => shortcut op l.eliminateYn r.eliminateYn
  | e => e

theorem calcValue_shortcut {types : σ → SymbolType} (v : Values types) (op : Op) (l r : Expr σ) :
    (shortcut op l r).calcValue v = op.apply (l.calcValue v) (r.calcValue v) := by
  unfold shortcut
  split
  · next h => simp [h]
  split
  · next h => simp [h]
  split
  · next h => simp [h]
  split
  · next h => simp [h]
  · rfl

@[simp] theorem calcValue_eliminateYn {types : σ → SymbolType} (v : Values types) (e : Expr σ) :
    e.eliminateYn.calcValue v = e.calcValue v := by
  induction e with
  | symbol s => rfl
  | not e => rfl
  | comp c s t => rfl
  | bin op l r ihl ihr => rw [eliminateYn, calcValue_shortcut, ihl, ihr, calcValue]

theorem shortcut_size_le (op : Op) (l r : Expr σ) : (shortcut op l r).size ≤ l.size + r.size + 1 := by
  have hl := l.size_pos
  have hr := r.size_pos
  unfold shortcut
  split_ifs <;> (try simp only [size]) <;> omega

theorem eliminateYn_size_le (e : Expr σ) : e.eliminateYn.size ≤ e.size := by
  induction e with
  | symbol s => exact le_refl _
  | not e => exact le_refl _
  | comp c s t => exact le_refl _
  | bin op l r ihl ihr =>
    have h := shortcut_size_le op l.eliminateYn r.eliminateYn
    simp only [eliminateYn, size]
    omega

end Expr

end Idic.Kconfig
