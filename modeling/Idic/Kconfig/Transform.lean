import Idic.Kconfig.Expr

/-! Rewriting an expression.

`expr_transform` moves negations inwards until they stand before a symbol, and turns a
comparison of a boolean symbol into the symbol or its negation. It works on what it has
made itself over again, which ends because the weight of an expression gets smaller. -/
namespace Idic.Kconfig

variable {σ : Type}

namespace Expr

/-- What gets smaller when a negation is moved inwards. -/
def weight : Expr σ → Nat
  | symbol _ => 1
  | not e => 2 * e.weight
  | comp _ _ _ => 3
  | bin _ l r => l.weight + r.weight + 2

theorem weight_pos (e : Expr σ) : 0 < e.weight := by
  induction e with
  | symbol s => exact Nat.one_pos
  | not e ih => exact Nat.mul_pos Nat.two_pos ih
  | comp c s t => exact Nat.succ_pos 2
  | bin op l r _ _ => exact Nat.succ_pos _

theorem weight_lt_not (e : Expr σ) : e.weight < (not e).weight := by
  have hpos := e.weight_pos
  simp only [weight]
  omega

theorem weight_lt_bin_left (op : Op) (l r : Expr σ) : l.weight < (bin op l r).weight := by
  simp only [weight]
  omega

theorem weight_lt_bin_right (op : Op) (l r : Expr σ) : r.weight < (bin op l r).weight := by
  simp only [weight]
  omega

theorem weight_bin_mono (op : Op) {l l' r r' : Expr σ} (hl : l'.weight ≤ l.weight) (hr : r'.weight ≤ r.weight) :
    (bin op l' r').weight ≤ (bin op l r).weight := by
  simp only [weight]
  omega

theorem weight_deMorgan_lt {op : Op} {l r e : Expr σ} (h : (bin op l r).weight ≤ e.weight) :
    (bin op.dual (not l) (not r)).weight < (not e).weight := by
  simp only [weight] at h ⊢
  omega

variable (types : σ → SymbolType)

/-- `expr_transform` for a comparison. -/
def transformComp (c : Comp) (s t : Sym σ) : Expr σ :=
  if s.type types = .boolean then
    match c, t with
    | .equal, .no => not (symbol s)
    | .equal, .mod => symbol .no
    | .equal, .yes => symbol s
    | .unequal, .no => symbol s
    | .unequal, .mod => symbol .yes
    | .unequal, .yes => not (symbol s)
    | _, _ => comp c s t
  else comp c s t

theorem transformComp_weight_le (c : Comp) (s t : Sym σ) : (transformComp types c s t).weight ≤ 3 := by
  unfold transformComp
  repeat' split
  all_goals simp [weight]

/-- `expr_transform`, with what its recursion rests on. -/
def transformed : (e : Expr σ) → {e' : Expr σ // e'.weight ≤ e.weight}
  | symbol s => ⟨symbol s, le_refl _⟩
  | comp c s t => ⟨transformComp types c s t, transformComp_weight_le types c s t⟩
  | bin op l r =>
    have hl : l.weight < (bin op l r).weight := weight_lt_bin_left op l r
    have hr : r.weight < (bin op l r).weight := weight_lt_bin_right op l r
    let l' := transformed l
    let r' := transformed r
    ⟨bin op l'.1 r'.1, weight_bin_mono op l'.2 r'.2⟩
  | not e =>
    have he : e.weight < (not e).weight := e.weight_lt_not
    match transformed e with
    | ⟨not a, h⟩ =>
      -- !!a -> a
      have ha : a.weight < (not e).weight := (a.weight_lt_not.trans_le h).trans e.weight_lt_not
      let a' := transformed a
      ⟨a'.1, a'.2.trans ha.le⟩
    | ⟨comp c s t, h⟩ =>
      -- !a='x' -> a!='x'
      ⟨comp c.not s t, h.trans e.weight_lt_not.le⟩
    | ⟨bin op l r, h⟩ =>
      -- !(a || b) -> !a && !b
      have hb : (bin op.dual (not l) (not r)).weight < (not e).weight := weight_deMorgan_lt h
      let b' := transformed (bin op.dual (not l) (not r))
      ⟨b'.1, b'.2.trans hb.le⟩
    | ⟨symbol s, h⟩ =>
      match s with
      | .yes => ⟨symbol .no, (not e).weight_pos⟩
      | .mod => ⟨symbol .mod, (not e).weight_pos⟩
      | .no => ⟨symbol .yes, (not e).weight_pos⟩
      | s => ⟨not (symbol s), Nat.mul_le_mul_left 2 h⟩
termination_by e => e.weight

/-- `expr_transform` -/
def transform (e : Expr σ) : Expr σ := (transformed types e).1

theorem transform_weight_le (e : Expr σ) : (e.transform types).weight ≤ e.weight :=
  (transformed types e).2

@[simp] theorem transform_symbol (s : Sym σ) : (symbol s).transform types = symbol s := by
  rw [transform, transformed]

@[simp] theorem transform_comp (c : Comp) (s t : Sym σ) :
    (comp c s t).transform types = transformComp types c s t := by
  rw [transform, transformed]

@[simp] theorem transform_bin (op : Op) (l r : Expr σ) :
    (bin op l r).transform types = bin op (l.transform types) (r.transform types) := by
  rw [transform, transformed]
  rfl

/-- The case of a negation, when its operand has been transformed to `e`. -/
def transformNot : Expr σ → Expr σ
  | not a => a.transform types
  | comp c s t => comp c.not s t
  | bin op l r => (bin op.dual (not l) (not r)).transform types
  | symbol .yes => symbol .no
  | symbol .mod => symbol .mod
  | symbol .no => symbol .yes
  | symbol s => not (symbol s)

theorem transform_not (e : Expr σ) :
    (not e).transform types = transformNot types (e.transform types) := by
  rw [transform, transformed]
  change _ = transformNot types (transformed types e).1
  rcases transformed types e with ⟨e', h⟩
  cases e' with
  | symbol s => cases s <;> rfl
  | not a => rfl
  | comp c s t => rfl
  | bin op l r => rfl

/-- Induction along the calls of `expr_transform`. -/
theorem transform_induction {motive : Expr σ → Prop} (symbol : ∀ s, motive (symbol s))
    (comp : ∀ c s t, motive (comp c s t))
    (bin : ∀ op l r, motive l → motive r → motive (bin op l r))
    (not : ∀ e, motive e → (∀ a, e.transform types = not a → motive a) →
      (∀ op l r, e.transform types = .bin op l r → motive (.bin op.dual (.not l) (.not r))) →
      motive (.not e)) (e : Expr σ) : motive e := by
  induction hn : e.weight using Nat.strongRecOn generalizing e with
  | ind n ih =>
    cases e with
    | symbol s => exact symbol s
    | comp c s t => exact comp c s t
    | bin op l r =>
      simp only [weight] at hn
      exact bin op l r (ih l.weight (by omega) l rfl) (ih r.weight (by omega) r rfl)
    | not e =>
      have hpos := e.weight_pos
      have hle := e.transform_weight_le types
      simp only [weight] at hn
      refine not e (ih _ (by omega) e rfl) (fun a ha => ?_) (fun op l r hb => ?_)
      · simp only [ha, weight] at hle
        exact ih _ (by omega) a rfl
      · simp only [hb, weight] at hle
        exact ih _ (by simp only [weight]; omega) (.bin op.dual (.not l) (.not r)) rfl

section Value
variable {types} (v : Values types)

/-- A boolean symbol is `y` or `n`. -/
theorem calcValue_transformComp (c : Comp) (s t : Sym σ) :
    (transformComp types c s t).calcValue v = (comp c s t).calcValue v := by
  unfold transformComp
  split
  · next hs =>
    cases s with
    | var s =>
      have hstring : v.stringOf (.var s) = (v.tri s).str := v.stringOf_var (.inl hs)
      have hmod := v.boolean s hs
      cases c <;> cases t <;> simp only [calcValue, hstring, Values.triOf, Comp.value] <;>
        cases hv : v.tri s <;> first | rfl | exact absurd hv hmod
    | yes | mod | no | const name h => cases hs
  · rfl

theorem calcValue_transform (e : Expr σ) : (e.transform types).calcValue v = e.calcValue v := by
  induction e using transform_induction types with
  | symbol s => rw [transform_symbol]
  | comp c s t => rw [transform_comp, calcValue_transformComp]
  | bin op l r ihl ihr => rw [transform_bin, calcValue, ihl, ihr, calcValue]
  | not e ih ihnot ihbin =>
    rw [transform_not, calcValue, ← ih]
    cases he : e.transform types with
    | symbol s => cases s <;> rfl
    | not a => rw [transformNot, ihnot a he, calcValue, Tristate.not_not]
    | comp c s t => rw [transformNot, calcValue, Comp.value_not, calcValue]
    | bin op l r => simp only [transformNot, ihbin op l r he, calcValue, Op.not_apply]

end Value

/-- A negation stands before a symbol only, and one that is not built in, and no boolean
symbol is compared with `y`, `m` or `n`. -/
def Normal : Expr σ → Prop
  | symbol _ => True
  | not (symbol s) => s ≠ .yes ∧ s ≠ .mod ∧ s ≠ .no
  | not _ => False
  | comp c s t => transformComp types c s t = comp c s t
  | bin _ l r => l.Normal ∧ r.Normal

variable {types}

theorem transform_of_normal {e : Expr σ} (h : e.Normal types) : e.transform types = e := by
  induction e with
  | symbol s => rw [transform_symbol]
  | comp c s t => rw [transform_comp]; exact h
  | bin op l r ihl ihr => rw [transform_bin, ihl h.1, ihr h.2]
  | not e =>
    cases e with
    | symbol s =>
      rw [transform_not, transform_symbol]
      cases s with
      | yes => exact absurd rfl h.1
      | mod => exact absurd rfl h.2.1
      | no => exact absurd rfl h.2.2
      | const name hname => rfl
      | var s => rfl
    | not e => exact h.elim
    | comp c s t => exact h.elim
    | bin op l r => exact h.elim

theorem transformComp_normal (c : Comp) (s t : Sym σ) : (transformComp types c s t).Normal types := by
  unfold transformComp
  split
  · next hs =>
    cases s with
    | var s => cases c <;> cases t <;> simp_all [Normal, transformComp]
    | yes | mod | no | const name h => cases hs
  · next hs => simp only [Normal, transformComp, if_neg hs]

theorem transformComp_not {c : Comp} {s t : Sym σ} (h : transformComp types c s t = comp c s t) :
    transformComp types c.not s t = comp c.not s t := by
  unfold transformComp at *
  split
  · next hs =>
    rw [if_pos hs] at h
    cases c <;> cases t <;> first | rfl | cases h
  · rfl

variable (types)

/-- What `expr_transform` makes is in normal form, and so is left alone by it. -/
theorem transform_normal (e : Expr σ) : (e.transform types).Normal types := by
  induction e using transform_induction types with
  | symbol s => rw [transform_symbol]; trivial
  | comp c s t => rw [transform_comp]; exact transformComp_normal c s t
  | bin op l r ihl ihr => rw [transform_bin]; exact ⟨ihl, ihr⟩
  | not e ih ihnot ihbin =>
    rw [transform_not]
    cases he : e.transform types with
    | symbol s => cases s <;> simp [transformNot, Normal]
    | not a => exact ihnot a he
    | comp c s t => rw [he] at ih; exact transformComp_not ih
    | bin op l r => exact ihbin op l r he

/-- What comes out is normal, stays as it is, and is worth what went in. -/
theorem transform_correct (e : Expr σ) :
    (e.transform types).Normal types ∧ (e.transform types).transform types = e.transform types ∧
      ∀ v : Values types, (e.transform types).calcValue v = e.calcValue v :=
  ⟨e.transform_normal types, transform_of_normal (e.transform_normal types), fun v => calcValue_transform v e⟩

/-- `expr_trans_bool` -/
def transBool : Expr σ → Expr σ
  | bin op l r => bin op l.transBool r.transBool
  | not e => not e.transBool
  | comp .unequal s .no => if s.type types = .tristate then symbol s else comp .unequal s .no
  | e => e

/-- `expr_trans_compare` for `&symbol_yes`, `&symbol_mod` and `&symbol_no`. -/
def transCompare (c : Comp) (sym : Tristate) : Expr σ → Expr σ
  | bin op l r =>
    let e :=
      match sym with
      | .yes => bin op (transCompare .equal sym l) (transCompare .equal sym r)
      | .no => bin op.dual (transCompare .equal sym l) (transCompare .equal sym r)
      | .mod => bin op l r
    match c with
    | .equal => e
    | .unequal => not e
  | not e => transCompare c.not sym e
  | comp d s t =>
    match c, sym with
    | .equal, .yes => comp d s t
    | .equal, .mod => symbol .no
    | .equal, .no => not (comp d s t)
    | .unequal, .yes => not (comp d s t)
    | .unequal, .mod => symbol .yes
    | .unequal, .no => comp d s t
  | symbol s => comp c s sym.sym

/-- The symbol is a built-in one, or was declared as boolean or tristate. -/
def Logical : Sym σ → Prop
  | .yes | .mod | .no => True
  | .const _ _ => False
  | .var s => types s = .boolean ∨ types s = .tristate

section Compare
variable {types} (v : Values types)

/-- What stands alone is a logical symbol, and what is negated is decided. -/
def Settled : Expr σ → Prop
  | symbol s => Logical types s
  | not e => e.calcValue v ≠ .mod ∧ e.Settled
  | comp _ _ _ => True
  | bin _ l r => l.Settled ∧ r.Settled

variable {v}

theorem stringOf_logical {s : Sym σ} (h : Logical types s) : v.stringOf s = (v.triOf s).str := by
  cases s with
  | yes => rfl
  | mod => rfl
  | no => rfl
  | const name hname => exact h.elim
  | var s => exact v.stringOf_var h

/-- A comparison for inequality is the negation of the other one. -/
theorem calcValue_transCompare_bin (c : Comp) (sym : Tristate) (op : Op) (l r : Expr σ) (a : Tristate)
    (h : ((bin op l r).transCompare .equal sym).calcValue v = Comp.equal.value (a = sym)) :
    ((bin op l r).transCompare c sym).calcValue v = c.value (a = sym) := by
  cases c with
  | equal => exact h
  | unequal =>
    have hnot := Comp.value_not .equal (a = sym)
    rw [← h] at hnot
    exact hnot.symm

/-- The result is worth what the comparison of the whole expression says. -/
theorem calcValue_transCompare {sym : Tristate} (hsym : sym ≠ .mod) (c : Comp) {e : Expr σ}
    (h : e.Settled v) : (e.transCompare c sym).calcValue v = c.value (e.calcValue v = sym) := by
  induction e generalizing c with
  | symbol s =>
    simp only [transCompare, calcValue]
    refine c.value_congr _ ?_
    rw [stringOf_logical h, Values.stringOf_sym, Tristate.str_injective.eq_iff]
  | not e ih => rw [transCompare, ih c.not h.2, Comp.value_not_eq c h.1 hsym]; rfl
  | comp d s t =>
    have hd := d.value_ne_mod (v.stringOf s = v.stringOf t)
    cases sym with
    | mod => contradiction
    | yes =>
      have heq := Comp.value_eq_self hd
      cases c with
      | equal => exact heq.symm
      | unequal => exact ((Comp.value_not .equal _).trans (congrArg Tristate.not heq)).symm
    | no =>
      have heq := Comp.value_eq_not hd
      cases c with
      | equal => exact heq.symm
      | unequal =>
        exact ((Comp.value_not .equal _).trans ((congrArg Tristate.not heq).trans (Tristate.not_not _))).symm
  | bin op l r ihl ihr =>
    refine calcValue_transCompare_bin c sym op l r _ ?_
    have hl := ihl .equal h.1
    have hr := ihr .equal h.2
    cases sym with
    | mod => contradiction
    | yes => rw [calcValue, Comp.value_apply_yes, ← hl, ← hr]; rfl
    | no => rw [calcValue, Comp.value_apply_no, ← hl, ← hr]; rfl

end Compare

/-- A negation stands before a symbol only. -/
def Nnf : Expr σ → Prop
  | symbol _ => True
  | not (symbol _) => True
  | not _ => False
  | comp _ _ _ => True
  | bin _ l r => l.Nnf ∧ r.Nnf

variable {types}

theorem Normal.nnf {e : Expr σ} (h : e.Normal types) : e.Nnf := by
  induction e with
  | symbol s => trivial
  | comp c s t => trivial
  | bin op l r ihl ihr => exact ⟨ihl h.1, ihr h.2⟩
  | not e =>
    cases e with
    | symbol s => trivial
    | not e => exact h
    | comp c s t => exact h
    | bin op l r => exact h

/-- For a symbol that is no tristate, `sym_calc_visibility` makes `y` of `m`. -/
theorem promote_transBool (v : Values types) {e : Expr σ} (h : e.Nnf) :
    ((e.transBool types).calcValue v).promote = (e.calcValue v).promote := by
  induction e with
  | symbol s => rfl
  | not e =>
    cases e with
    | symbol s => rfl
    | not e => exact h.elim
    | comp c s t => exact h.elim
    | bin op l r => exact h.elim
  | bin op l r ihl ihr =>
    rw [transBool, calcValue, calcValue, Op.promote_apply, Op.promote_apply, ihl h.1, ihr h.2]
  | comp c s t =>
    cases c with
    | equal => rfl
    | unequal =>
      cases t <;> first | rfl | skip
      rw [transBool]
      split
      · next hs =>
        cases s with
        | var s =>
          have hstring : v.stringOf (.var s) = (v.tri s).str := v.stringOf_var (.inr hs)
          simp only [calcValue, hstring, Values.triOf]
          cases v.tri s <;> rfl
        | yes | mod | no | const name h => cases hs
      · rfl

end Expr

end Idic.Kconfig
