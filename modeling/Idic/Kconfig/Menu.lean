import Idic.Kconfig.EliminateDups

/-! The menu tree.

`menu_finalize` gives every entry the conditions of the entries it stands in, and then
puts an entry into the one before it when it depends on that one: either the symbol is
among what it depends on, or `expr_eliminate_eq` leaves nothing of the other's
condition. Entries without a prompt give up what they hold to the list they are in. -/
namespace Idic.Kconfig
open Python (Str)

variable {σ : Type}

open Idic.Kconfig.Expr

section Dependency
variable [DecidableEq σ]

/-- `expr_contains_symbol` -/
def Expr.containsSymbol (sym : Sym σ) : Expr σ → Bool
  | symbol s => s = sym
  | comp _ s t => s = sym || t = sym
  | not e => e.containsSymbol sym
  | bin _ l r => l.containsSymbol sym || r.containsSymbol sym

/-- `expr_depends_symbol` -/
def Expr.dependsSymbol (sym : Sym σ) : Expr σ → Bool
  | bin .and l r => l.dependsSymbol sym || r.dependsSymbol sym
  | symbol s => s = sym
  | comp .equal s t => s = sym && (t = .yes || t = .mod)
  | comp .unequal s t => s = sym && t = .no
  | _ => false

end Dependency

def alloc (op : Op) : Option (Expr σ) → Option (Expr σ) → Option (Expr σ)
  | none, e2 => e2
  | some e1, none => some e1
  | some e1, some e2 => some (.bin op e1 e2)

/-- `expr_alloc_and` -/
def allocAnd : Option (Expr σ) → Option (Expr σ) → Option (Expr σ) := alloc .and

/-- `expr_alloc_or` -/
def allocOr : Option (Expr σ) → Option (Expr σ) → Option (Expr σ) := alloc .or

/-- `expr_calc_value`, in which no expression is worth `y`. -/
def calcCondition {types : σ → SymbolType} (v : Values types) : Option (Expr σ) → Tristate
  | none => .yes
  | some e => e.calcValue v

/-- An entry, with the conditions of its prompt and of its other properties. `text` is
that of the prompt, which is one of a menu or not. -/
structure Entry (σ : Type) where
  sym : Option σ
  text : Str
  choice : Bool
  menu : Bool
  dep : Option (Expr σ)
  prompt : Option (Option (Expr σ))
  props : List (Option (Expr σ))

/-- `menu->list` is what an entry holds, `menu->next` what comes behind it. -/
inductive Menus (σ : Type) where
  | nil
  | cons (m : Entry σ) (list next : Menus σ)

namespace Menus

def isNil : Menus σ → Bool
  | nil => true
  | cons _ _ _ => false

def size : Menus σ → Nat
  | nil => 0
  | cons _ list next => list.size + next.size + 1

/-- The entries in the order in which they were read. -/
def order : Menus σ → List (Entry σ)
  | nil => []
  | cons m list next => m :: (list.order ++ next.order)

def append : Menus σ → Menus σ → Menus σ
  | nil, ms => ms
  | cons m list next, ms => cons m list (next.append ms)

/-- For the entries of a list, but not for what they hold. -/
def mapEntries (f : Entry σ → Entry σ) : Menus σ → Menus σ
  | nil => nil
  | cons m list next => cons (f m) list (next.mapEntries f)

/-- The last part of `menu_finalize`. What an entry without a prompt holds is moved
behind it, and the loop goes on with that. -/
def splice : Menus σ → Menus σ
  | nil => nil
  | cons m list next =>
    if !list.isNil && m.prompt.isNone then cons m nil (list.splice.append next.splice)
    else cons m list next.splice

theorem order_append (ms ms' : Menus σ) : (ms.append ms').order = ms.order ++ ms'.order := by
  induction ms with
  | nil => rfl
  | cons m list next _ ih => rw [append, order, ih, order, List.cons_append, List.append_assoc]

theorem order_splice (ms : Menus σ) : ms.splice.order = ms.order := by
  induction ms with
  | nil => rfl
  | cons m list next ihl ihn =>
    rw [splice]
    split
    · rw [order, order_append, ihl, ihn]; rfl
    · rw [order, ihn]; rfl

/-- The loop of `next_menu`: up, until something comes behind. What comes behind each of
the entries above is on the stack. -/
def rise : List (Menus σ) → List (Menus σ)
  | [] => []
  | nil :: up => rise up
  | cons m list next :: up => cons m list next :: up

/-- `next_menu` -/
def nextMenu : List (Menus σ) → List (Menus σ)
  | cons _ list next :: up => if list.isNil then rise (next :: up) else list :: next :: up
  | _ => []

theorem rise_size_le (up : List (Menus σ)) : ((rise up).map size).sum ≤ (up.map size).sum := by
  induction up with
  | nil => exact le_refl _
  | cons ms up ih =>
    cases ms with
    | nil => simpa [rise, size] using ih
    | cons m list next => exact le_refl _

theorem nextMenu_size (m : Entry σ) (list next : Menus σ) (up : List (Menus σ)) :
    ((nextMenu (cons m list next :: up)).map size).sum < ((cons m list next :: up).map size).sum := by
  have hrise := rise_size_le (next :: up)
  simp only [List.map_cons, List.sum_cons] at hrise
  rw [nextMenu]
  split <;> simp only [List.map_cons, List.sum_cons, size] <;> omega

/-- `while (menu) { ..; menu = next_menu(menu); }` -/
def visited : List (Menus σ) → List (Entry σ)
  | cons m list next :: up => m :: visited (nextMenu (cons m list next :: up))
  | _ => []
termination_by up => (up.map size).sum
decreasing_by exact nextMenu_size m list next up

/-- All entries are come to, in their order. -/
theorem visited_rise (up : List (Menus σ)) : visited (rise up) = up.flatMap order := by
  induction hn : (up.map size).sum using Nat.strongRecOn generalizing up with
  | ind n ih =>
    induction up with
    | nil => simp [rise, visited]
    | cons ms up ihup =>
      cases ms with
      | nil => exact ihup (by simpa [size] using hn)
      | cons m list next =>
        rw [rise, visited, nextMenu]
        have hless : ∀ up' : List (Menus σ), (up'.map size).sum < n → visited (rise up') = up'.flatMap order :=
          fun up' h => ih _ h up' rfl
        simp only [List.map_cons, List.sum_cons, size] at hn
        cases list with
        | nil =>
          have hnext := hless (next :: up) (by simp only [List.map_cons, List.sum_cons]; omega)
          simp only [isNil, if_true, hnext, List.flatMap_cons, order, List.nil_append, List.cons_append]
        | cons m' list' next' =>
          have hlist := hless (cons m' list' next' :: next :: up)
            (by simp only [List.map_cons, List.sum_cons]; omega)
          rw [rise] at hlist
          simp only [isNil, Bool.false_eq_true, if_false, hlist, List.flatMap_cons, order, List.cons_append,
            List.append_assoc]

theorem mapEntries_size (f : Entry σ → Entry σ) (ms : Menus σ) : (ms.mapEntries f).size = ms.size := by
  induction ms with
  | nil => rfl
  | cons m list next _ ih => rw [mapEntries, size, ih, size]

end Menus

section Finalize
variable [DecidableEq σ] (types : σ → SymbolType)

/-- The condition that an entry is taken to have. -/
def Entry.condition (m : Entry σ) : Option (Expr σ) :=
  match m.prompt with
  | some visible => visible
  | none => m.dep

/-- What an entry passes on to those it holds. -/
def Entry.parentdep (m : Entry σ) : Option (Expr σ) :=
  match m.sym with
  | some s => if m.choice then some (.symbol (.var s)) else m.condition
  | none => m.condition

/-- `expr_eliminate_dups(expr_alloc_and(dep1, expr_transform(dep2)))` -/
def restrict (dep1 dep2 : Option (Expr σ)) : Option (Expr σ) :=
  (allocAnd dep1 (dep2.map (transform types))).map (eliminateDups types)

/-- The condition of a property, under that of its entry. -/
def restrictVisible (m : Entry σ) (basedep visible : Option (Expr σ)) : Option (Expr σ) :=
  let dep := restrict types basedep visible
  match m.sym with
  | some s => if types s ≠ .tristate then dep.map (transBool types) else dep
  | none => dep

/-- The first loop of `menu_finalize`, for one entry. -/
def Entry.restricted (parentdep : Option (Expr σ)) (m : Entry σ) : Entry σ :=
  let basedep := restrict types parentdep m.dep
  {m with
    dep := basedep
    prompt := m.prompt.map (restrictVisible types m basedep)
    props := m.props.map (restrictVisible types m basedep)}

/-- `expr_trans_compare(dep, E_UNEQUAL, &symbol_no)`, and then what is done to it. -/
def compared (dep : Option (Expr σ)) : Expr σ :=
  let e :=
    match dep with
    | some e => transCompare .unequal .no e
    | none => .not (.symbol .no)
  eliminateDups types (e.transform types)

/-- The entry goes into the one before it, which has the symbol. What stands before it
without a prompt has no condition here. -/
def nestsUnder (sym : σ) (parent m : Entry σ) : Bool :=
  match m.condition with
  | none => false
  | some dep =>
    if !dep.containsSymbol (.var sym) then false
    else if dep.dependsSymbol (.var sym) then true
    else (eliminateEq (compared types (some dep)) (compared types parent.prompt.join)).2 = .symbol .yes

/-- The loops over `menu->next`: an entry is finalized, and then taken, as long as `nests`
says so. What is not taken any more is left. An entry that holds nothing yet takes
from what comes behind it. -/
def siblings (nests : Entry σ → Bool) : (ms : Menus σ) → {x : Menus σ × Menus σ // x.2.size ≤ ms.size}
  | .nil => ⟨(.nil, .nil), le_refl _⟩
  | .cons m list next =>
    have hlist : (list.mapEntries (Entry.restricted types m.parentdep)).size <
        (Menus.cons m list next).size := by
      rw [Menus.mapEntries_size, Menus.size]; omega
    have hnext : next.size < (Menus.cons m list next).size := by rw [Menus.size]; omega
    if nests m then
      let x : {x : Menus σ × Menus σ // x.2.size ≤ next.size} :=
        if list.isNil then
          match m.sym with
          | some s => siblings (nestsUnder types s m) next
          | none => ⟨(.nil, next), le_refl _⟩
        else ⟨((siblings (fun _ => true) (list.mapEntries (Entry.restricted types m.parentdep))).1.1, next),
          le_refl _⟩
      have hrest : x.1.2.size < (Menus.cons m list next).size := x.2.trans_lt hnext
      let y := siblings nests x.1.2
      ⟨(.cons m x.1.1.splice y.1.1, y.1.2), y.2.trans hrest.le⟩
    else ⟨(.nil, .cons m list next), le_refl _⟩
termination_by ms => ms.size

/-- `menu_finalize(&rootmenu)`. The prompt of the root has no condition. -/
def finalize (ms : Menus σ) : Menus σ :=
  (siblings types (fun _ => true) (ms.mapEntries (Entry.restricted types none))).1.1.splice

end Finalize

end Idic.Kconfig
