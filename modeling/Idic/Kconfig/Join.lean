import Idic.Kconfig.Equality

/-! Two operands made one.

`expr_join_or` and `expr_join_and` look at two operands of a chain that are about one
symbol, and find one expression for both. A boolean or tristate symbol has no other
values than `n`, `m` and `y`, so that two comparisons with two of them leave the third. -/
namespace Idic.Kconfig

variable {σ : Type}

/-- The built-in symbol beside two others. -/
def third : Sym σ → Sym σ → Option (Sym σ)
  | .yes, .mod | .mod, .yes => some .no
  | .yes, .no | .no, .yes => some .mod
  | .mod, .no | .no, .mod => some .yes
  | _, _ => none

namespace Expr

/-- `sym1`, the symbol that `e1` is about. -/
def subject1 : Expr σ → Option (Sym σ)
  | symbol s => some s
  | comp _ s _ => some s
  | not (symbol s) => some s
  | not (comp _ s _) => some s
  | _ => none

/-- `sym2`. Here a negated comparison is not looked into. -/
def subject2 : Expr σ → Option (Sym σ)
  | symbol s => some s
  | comp _ s _ => some s
  | not (symbol s) => some s
  | _ => none

variable [DecidableEq σ] (types : σ → SymbolType)

/-- What both joins begin with: the expression is had from `rules`, for the one boolean
or tristate symbol that both are about. -/
def joined (rules : Sym σ → Option (Expr σ)) (e1 e2 : Expr σ) : Option (Expr σ) :=
  if e1.eq e2 then some e1
  else
    match subject1 e1, subject2 e2 with
    | some sym1, some sym2 =>
      if sym1 ≠ sym2 then none
      else if sym1.type types ≠ .boolean ∧ sym1.type types ≠ .tristate then none
      else rules sym1
    | _, _ => none

def orTristate (sym1 : Sym σ) : Expr σ → Expr σ → Option (Expr σ)
  -- (a='y') || (a='m') -> (a!='n')
  | comp .equal _ a, comp .equal _ b => (third a b).map (comp .unequal sym1)
  | _, _ => none

def orBoolean : Expr σ → Expr σ → Option (Expr σ)
  | not (symbol _), symbol _ => some (symbol .yes)
  | symbol _, not (symbol _) => some (symbol .yes)
  | _, _ => none

/-- `expr_join_or` -/
def joinOr (e1 e2 : Expr σ) : Option (Expr σ) :=
  joined types (fun sym1 =>
    if sym1.type types = .tristate then orTristate sym1 e1 e2 else orBoolean e1 e2) e1 e2

/-- (a) && (a='y') -> (a='y'), and the two other rules for a symbol alone. -/
def andSymbol (sym1 : Sym σ) : Comp → Sym σ → Option (Expr σ)
  | .equal, .yes => some (comp .equal sym1 .yes)
  | .unequal, .no => some (symbol sym1)
  | .unequal, .mod => some (comp .equal sym1 .yes)
  | _, _ => none

/-- (a='b') && (a!='c') -> 'b'='c' ? 'n' : a='b' -/
def andConst (sym1 b c : Sym σ) : Option (Expr σ) :=
  if c.isConst && b.isConst then some (if b ≠ c then comp .equal sym1 b else symbol .no) else none

def andTristate (sym1 : Sym σ) : Expr σ → Expr σ → Option (Expr σ)
  | comp .equal _ b, comp .unequal _ c => andConst sym1 b c
  | comp .unequal _ c, comp .equal _ b => andConst sym1 b c
  -- (a!='y') && (a!='n') -> (a='m')
  | comp .unequal _ a, comp .unequal _ b => (third a b).map (comp .equal sym1)
  | _, _ => none

/-- `expr_join_and` -/
def joinAnd (e1 e2 : Expr σ) : Option (Expr σ) :=
  joined types (fun sym1 =>
    match e1, e2 with
    | symbol _, comp c _ t => andSymbol sym1 c t
    | comp c _ t, symbol _ => andSymbol sym1 c t
    | e1, e2 => if sym1.type types = .tristate then andTristate sym1 e1 e2 else none) e1 e2

def join : Op → Expr σ → Expr σ → Option (Expr σ)
  | .or => joinOr types
  | .and => joinAnd types

variable {types}

theorem joined_eq_some {rules : Sym σ → Option (Expr σ)} {e1 e2 e : Expr σ}
    (h : joined types rules e1 e2 = some e) :
    (e1.eq e2 = true ∧ e = e1) ∨
      ∃ s, (types s = .boolean ∨ types s = .tristate) ∧ subject1 e1 = some (.var s) ∧
        subject2 e2 = some (.var s) ∧ rules (.var s) = some e := by
  unfold joined at h
  split at h
  · next heq => exact .inl ⟨heq, (Option.some.inj h).symm⟩
  · split at h
    · next sym1 sym2 h1 h2 =>
      split_ifs at h with hne htype
      obtain rfl : sym1 = sym2 := not_not.mp hne
      cases sym1 with
      | var s => exact .inr ⟨s, by simpa [Sym.type, or_iff_not_imp_left] using htype, h1, h2, h⟩
      | yes | mod | no | const name hname => exact absurd ⟨by simp [Sym.type], by simp [Sym.type]⟩ htype
    · cases h

/-- A symbol or a comparison. -/
def IsLeaf : Expr σ → Prop
  | symbol _ => True
  | comp _ _ _ => True
  | _ => False

omit [DecidableEq σ] in
theorem orTristate_leaf {sym1 : Sym σ} {e1 e2 e : Expr σ} (h : orTristate sym1 e1 e2 = some e) :
    e.IsLeaf := by
  unfold orTristate at h
  split at h
  · obtain ⟨c, -, rfl⟩ := Option.map_eq_some_iff.mp h
    trivial
  · cases h

omit [DecidableEq σ] in
theorem orBoolean_leaf {e1 e2 e : Expr σ} (h : orBoolean e1 e2 = some e) : e.IsLeaf := by
  unfold orBoolean at h
  split at h <;> cases h <;> trivial

omit [DecidableEq σ] in
theorem andSymbol_leaf {sym1 t : Sym σ} {c : Comp} {e : Expr σ} (h : andSymbol sym1 c t = some e) :
    e.IsLeaf := by
  unfold andSymbol at h
  split at h <;> cases h <;> trivial

theorem andConst_leaf {sym1 b c : Sym σ} {e : Expr σ} (h : andConst sym1 b c = some e) :
    e.IsLeaf := by
  unfold andConst at h
  split_ifs at h <;> cases h <;> trivial

theorem andTristate_leaf {sym1 : Sym σ} {e1 e2 e : Expr σ} (h : andTristate sym1 e1 e2 = some e) :
    e.IsLeaf := by
  unfold andTristate at h
  split at h
  · exact andConst_leaf h
  · exact andConst_leaf h
  · obtain ⟨c, -, rfl⟩ := Option.map_eq_some_iff.mp h
    trivial
  · cases h

/-- The operator's chains are not made any longer. -/
theorem join_form {op : Op} {e1 e2 e : Expr σ} (h : join types op e1 e2 = some e) :
    e = e1 ∨ e.IsLeaf := by
  cases op with
  | or =>
    obtain ⟨-, rfl⟩ | ⟨s, -, -, -, hrule⟩ := joined_eq_some h
    · exact .inl rfl
    · split at hrule
      · exact .inr (orTristate_leaf hrule)
      · exact .inr (orBoolean_leaf hrule)
  | and =>
    obtain ⟨-, rfl⟩ | ⟨s, -, -, -, hrule⟩ := joined_eq_some h
    · exact .inl rfl
    · split at hrule
      · exact .inr (andSymbol_leaf hrule)
      · exact .inr (andSymbol_leaf hrule)
      · split_ifs at hrule
        exact .inr (andTristate_leaf hrule)

section Value
variable (v : Values types) {s : σ}

omit [DecidableEq σ] in
theorem third_eq_some {a b c : Sym σ} (h : third a b = some c) :
    ∃ x y z : Tristate, a = x.sym ∧ b = y.sym ∧ c = z.sym ∧ x ≠ y ∧ z ≠ x ∧ z ≠ y := by
  unfold third at h
  split at h <;> cases h
  · exact ⟨.yes, .mod, .no, rfl, rfl, rfl, nofun, nofun, nofun⟩
  · exact ⟨.mod, .yes, .no, rfl, rfl, rfl, nofun, nofun, nofun⟩
  · exact ⟨.yes, .no, .mod, rfl, rfl, rfl, nofun, nofun, nofun⟩
  · exact ⟨.no, .yes, .mod, rfl, rfl, rfl, nofun, nofun, nofun⟩
  · exact ⟨.mod, .no, .yes, rfl, rfl, rfl, nofun, nofun, nofun⟩
  · exact ⟨.no, .mod, .yes, rfl, rfl, rfl, nofun, nofun, nofun⟩

omit [DecidableEq σ] in
/-- A comparison of a boolean or tristate symbol with a built-in one. -/
theorem calcValue_comp_var (h : types s = .boolean ∨ types s = .tristate) (c : Comp) (a : Tristate) :
    (comp c (.var s) a.sym).calcValue v = c.value (v.tri s = a) := by
  refine c.value_congr _ ?_
  rw [v.stringOf_var h, v.stringOf_sym, Tristate.str_injective.eq_iff]

omit [DecidableEq σ] in
theorem orTristate_sound (hs : types s = .tristate) {e1 e2 e : Expr σ}
    (h1 : subject1 e1 = some (.var s)) (h2 : subject2 e2 = some (.var s))
    (h : orTristate (.var s) e1 e2 = some e) :
    Op.or.apply (e1.calcValue v) (e2.calcValue v) = e.calcValue v := by
  unfold orTristate at h
  split at h
  · next a b =>
    obtain ⟨c, hthird, rfl⟩ := Option.map_eq_some_iff.mp h
    obtain ⟨x, y, z, rfl, rfl, rfl, hxy, hzx, hzy⟩ := third_eq_some hthird
    cases h1
    cases h2
    simp only [calcValue_comp_var v (.inr hs)]
    cases x <;> cases y <;> cases z <;> first | contradiction | skip
    all_goals cases v.tri s <;> rfl
  · cases h

omit [DecidableEq σ] in
theorem orBoolean_sound (hs : types s = .boolean) {e1 e2 e : Expr σ}
    (h1 : subject1 e1 = some (.var s)) (h2 : subject2 e2 = some (.var s))
    (h : orBoolean e1 e2 = some e) :
    Op.or.apply (e1.calcValue v) (e2.calcValue v) = e.calcValue v := by
  have hmod := v.boolean s hs
  unfold orBoolean at h
  split at h <;> cases h <;> cases h1 <;> cases h2
  all_goals
    simp only [calcValue, Values.triOf]
    cases hv : v.tri s <;> first | rfl | contradiction

omit [DecidableEq σ] in
theorem andSymbol_sound (hs : types s = .boolean ∨ types s = .tristate) {c : Comp} {t : Sym σ}
    {e : Expr σ} (h : andSymbol (.var s) c t = some e) :
    Op.and.apply (v.tri s) ((comp c (.var s) t).calcValue v) = e.calcValue v := by
  unfold andSymbol at h
  split at h <;> cases h
  · have hcomp := calcValue_comp_var v hs .equal .yes
    simp only [Tristate.sym] at hcomp
    rw [hcomp]
    cases v.tri s <;> rfl
  · have hcomp := calcValue_comp_var v hs .unequal .no
    simp only [Tristate.sym] at hcomp
    rw [hcomp, calcValue, Values.triOf]
    cases v.tri s <;> rfl
  · have hcomp := calcValue_comp_var v hs .unequal .mod
    have hcomp' := calcValue_comp_var v hs .equal .yes
    simp only [Tristate.sym] at hcomp hcomp'
    rw [hcomp, hcomp']
    cases v.tri s <;> rfl

/-- Two constants that are different symbols have different texts. -/
theorem andConst_sound {b c a : Sym σ} {e : Expr σ} (h : andConst a b c = some e) :
    Op.and.apply ((comp .equal a b).calcValue v) ((comp .unequal a c).calcValue v) = e.calcValue v := by
  unfold andConst at h
  split at h
  · next hconst =>
    rw [Bool.and_eq_true] at hconst
    simp only [calcValue, Comp.value]
    split at h <;> cases h
    · next hne =>
      have htext : v.stringOf b ≠ v.stringOf c :=
        fun heq => hne (v.stringOf_injective hconst.2 hconst.1 heq)
      by_cases hb : v.stringOf a = v.stringOf b
      · simp only [calcValue, Comp.value, hb, htext, if_true, if_false]
        rfl
      · simp only [calcValue, Comp.value, hb, if_false]
        exact Op.zero_apply .and _
    · next heq =>
      obtain rfl : b = c := not_not.mp heq
      by_cases hb : v.stringOf a = v.stringOf b <;> simp only [hb, if_true, if_false] <;> rfl
  · cases h

theorem andTristate_sound (hs : types s = .tristate) {e1 e2 e : Expr σ}
    (h1 : subject1 e1 = some (.var s)) (h2 : subject2 e2 = some (.var s))
    (h : andTristate (.var s) e1 e2 = some e) :
    Op.and.apply (e1.calcValue v) (e2.calcValue v) = e.calcValue v := by
  unfold andTristate at h
  split at h
  · cases h1
    cases h2
    exact andConst_sound v h
  · cases h1
    cases h2
    rw [Op.apply_comm]
    exact andConst_sound v h
  · next a b =>
    obtain ⟨c, hthird, rfl⟩ := Option.map_eq_some_iff.mp h
    obtain ⟨x, y, z, rfl, rfl, rfl, hxy, hzx, hzy⟩ := third_eq_some hthird
    cases h1
    cases h2
    simp only [calcValue_comp_var v (.inr hs)]
    cases x <;> cases y <;> cases z <;> first | contradiction | skip
    all_goals cases v.tri s <;> rfl
  · cases h

theorem joinOr_sound {e1 e2 e : Expr σ} (h : joinOr types e1 e2 = some e) :
    Op.or.apply (e1.calcValue v) (e2.calcValue v) = e.calcValue v := by
  obtain ⟨heq, rfl⟩ | ⟨s, hs, h1, h2, hrule⟩ := joined_eq_some h
  · rw [eq_sound v heq, Op.apply_self]
  · split at hrule
    · next htype => exact orTristate_sound v htype h1 h2 hrule
    · next htype => exact orBoolean_sound v (hs.resolve_right htype) h1 h2 hrule

theorem joinAnd_sound {e1 e2 e : Expr σ} (h : joinAnd types e1 e2 = some e) :
    Op.and.apply (e1.calcValue v) (e2.calcValue v) = e.calcValue v := by
  obtain ⟨heq, rfl⟩ | ⟨s, hs, h1, h2, hrule⟩ := joined_eq_some h
  · rw [eq_sound v heq, Op.apply_self]
  · split at hrule
    · cases h1
      cases h2
      exact andSymbol_sound v hs hrule
    · cases h1
      cases h2
      rw [Op.apply_comm]
      exact andSymbol_sound v hs hrule
    · split_ifs at hrule with htype
      exact andTristate_sound v htype h1 h2 hrule

theorem calcValue_join {op : Op} {e1 e2 e : Expr σ} (h : join types op e1 e2 = some e) :
    op.apply (e1.calcValue v) (e2.calcValue v) = e.calcValue v := by
  cases op with
  | or => exact joinOr_sound v h
  | and => exact joinAnd_sound v h

end Value

end Expr

end Idic.Kconfig
