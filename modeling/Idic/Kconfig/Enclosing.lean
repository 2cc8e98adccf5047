import Idic.Kconfig.Nesting

/-! The conditions of the finalized tree.

Each condition that `menu_finalize` leaves is worth what all the conditions are that the
entry stands in, and its own (`finalize_conditions`). It has been put together from
copies that `expr_eliminate_dups` and `expr_trans_bool` have changed on every level, so
the two agree only as far as these two go: nothing is visible that should not be, and
without an `m` nothing is hidden that should not be. -/
namespace Idic.Kconfig
open Python (Str)

variable {σ : Type}

open Idic.Kconfig.Expr
open Tristate (Sharpens)

/-- The conditions that are passed on to what an entry holds. -/
def Entry.passed (above : List (Option (Expr σ))) (m : Entry σ) : List (Option (Expr σ)) :=
  if m.choice ∧ m.sym.isSome then [m.sym.map fun s => .symbol (.var s)] else above ++ m.dep :: m.prompt.toList

/-- The entries in their order, each with the conditions that it stands in. -/
def Menus.enclosed (above : List (Option (Expr σ))) : Menus σ → List (List (Option (Expr σ)) × Entry σ)
  | nil => []
  | cons m list next => (above ++ [m.dep], m) :: (list.enclosed (m.passed above) ++ next.enclosed above)

section Values
variable {types : σ → SymbolType} (v : Values types)

/-- What conditions are worth that all have to be met. -/
def metAll (conds : List (Option (Expr σ))) : Tristate :=
  conds.foldr (fun e t => Op.and.apply (calcCondition v e) t) .yes

theorem metAll_append (conds conds' : List (Option (Expr σ))) :
    metAll v (conds ++ conds') = Op.and.apply (metAll v conds) (metAll v conds') := by
  induction conds with
  | nil => exact (Op.unit_apply .and _).symm
  | cons e conds ih =>
    show Op.and.apply _ (metAll v (conds ++ conds')) = Op.and.apply (Op.and.apply _ _) _
    rw [ih, Op.apply_assoc]
    rfl

theorem metAll_singleton (e : Option (Expr σ)) : metAll v [e] = calcCondition v e := Op.apply_unit .and _

/-- What was done to an entry. `R` is how a condition may differ from what it stands for. -/
structure Restricted (R : Tristate → Tristate → Prop) (above : List (Option (Expr σ))) (m m' : Entry σ) : Prop where
  sym : m'.sym = m.sym
  text : m'.text = m.text
  choice : m'.choice = m.choice
  menu : m'.menu = m.menu
  dep : R (metAll v above) (calcCondition v m'.dep)
  prompt : Option.Rel (fun visible visible' => R (metAll v (above ++ [visible])) (calcCondition v visible'))
    m.prompt m'.prompt
  props : List.Forall₂ (fun visible visible' => R (metAll v (above ++ [visible])) (calcCondition v visible'))
    m.props m'.props

/-- A way to differ that nothing leads out of. -/
structure Carried (R : Tristate → Tristate → Prop) : Prop where
  refl (a : Tristate) : R a a
  and {a a' b b' : Tristate} : R a a' → R b b' → R (Op.and.apply a b) (Op.and.apply a' b')
  sharpens {a b c : Tristate} : R a b → Sharpens b c → R a c
  transBool {a : Tristate} {e : Expr σ} : e.Nnf → R a (e.calcValue v) → R a ((e.transBool types).calcValue v)

/-- Nothing gets visible by what is done. -/
theorem carried_hidden : Carried v fun a b => a = .no → b = .no where
  refl _ := id
  and {a a' b b'} ha hb := by
    revert ha hb
    cases a <;> cases a' <;> cases b <;> cases b' <;> decide
  sharpens hab hbc ha := (hbc.eq (by rw [hab ha]; decide)).trans (hab ha)
  transBool {a e} hnnf he ha := by
    have hpromote := promote_transBool v hnnf
    rw [he ha] at hpromote
    revert hpromote
    cases (e.transBool types).calcValue v <;> first | exact fun _ => rfl | exact nofun

variable {v}

theorem calcValue_transBool (hv : ∀ s, v.tri s ≠ .mod) (e : Expr σ) :
    (e.transBool types).calcValue v = e.calcValue v := by
  induction e with
  | symbol s => rfl
  | not e ih => rw [transBool, calcValue, ih, calcValue]
  | bin op l r ihl ihr => rw [transBool, calcValue, ihl, ihr, calcValue]
  | comp c s t =>
    cases c with
    | equal => rfl
    | unequal =>
      cases t <;> first | rfl | skip
      rw [transBool]
      split
      · next hs =>
        cases s with
        | var s =>
          have hstring : v.stringOf (.var s) = (v.tri s).str := v.stringOf_var (.inr hs)
          have hmod := hv s
          simp only [calcValue, hstring, Values.triOf]
          cases hs : v.tri s <;> first | rfl | exact absurd hs hmod
        | yes | mod | no | const name h => cases hs
      · rfl

/-- Without an `m` among the symbols, a condition only gets decided. -/
theorem carried_sharpens (hv : ∀ s, v.tri s ≠ .mod) : Carried v Sharpens where
  refl := Sharpens.refl
  and := Op.sharpens_apply
  sharpens := Sharpens.trans
  transBool _ he := by rw [calcValue_transBool hv]; exact he

end Values

section Finalize
variable [DecidableEq σ] {types : σ → SymbolType} {v : Values types} {R : Tristate → Tristate → Prop}

theorem restrict_carried (hR : Carried v R) {above : List (Option (Expr σ))} {dep1 : Option (Expr σ)}
    (h : R (metAll v above) (calcCondition v dep1)) (dep2 : Option (Expr σ)) :
    R (metAll v (above ++ [dep2])) (calcCondition v (restrict types dep1 dep2)) := by
  have htransform : calcCondition v (dep2.map (transform types)) = calcCondition v dep2 := by
    cases dep2 with
    | none => rfl
    | some e => exact calcValue_transform v e
  have hand : R (metAll v (above ++ [dep2])) (calcCondition v (allocAnd dep1 (dep2.map (transform types)))) := by
    rw [metAll_append, metAll_singleton, calcCondition_allocAnd, htransform]
    exact hR.and h (hR.refl _)
  unfold restrict
  cases hdep : allocAnd dep1 (dep2.map (transform types)) with
  | none => rw [hdep] at hand; exact hand
  | some e => rw [hdep] at hand; exact hR.sharpens hand (eliminateDups_sharpens v e)

theorem restrictVisible_carried (hR : Carried v R) {above : List (Option (Expr σ))} {basedep : Option (Expr σ)}
    (hnnf : NnfCondition basedep) (h : R (metAll v above) (calcCondition v basedep)) (m : Entry σ)
    (visible : Option (Expr σ)) :
    R (metAll v (above ++ [visible])) (calcCondition v (restrictVisible types m basedep visible)) := by
  have hdep := restrict_carried hR h visible
  have hnnf' : NnfCondition (restrict types basedep visible) := restrict_nnf hnnf visible
  unfold restrictVisible
  dsimp only
  split
  · split
    · cases hr : restrict types basedep visible with
      | none => rw [hr] at hdep; exact hdep
      | some e => rw [hr] at hdep hnnf'; exact hR.transBool hnnf' hdep
    · exact hdep
  · exact hdep

theorem restricted_carried (hR : Carried v R) {above : List (Option (Expr σ))} {parentdep : Option (Expr σ)}
    (hnnf : NnfCondition parentdep) (h : R (metAll v above) (calcCondition v parentdep)) (m : Entry σ) :
    Restricted v R (above ++ [m.dep]) m (m.restricted types parentdep) := by
  have hbase := restrict_carried hR h m.dep
  have hnnf' : NnfCondition (restrict types parentdep m.dep) := restrict_nnf hnnf m.dep
  have hvisible := restrictVisible_carried hR hnnf' hbase m
  refine ⟨rfl, rfl, rfl, rfl, hbase, ?_, ?_⟩
  · show Option.Rel _ _ (m.prompt.map _)
    cases m.prompt with
    | none => exact .none
    | some visible => exact .some (hvisible visible)
  · show List.Forall₂ _ _ (m.props.map _)
    exact List.forall₂_map_right_iff.mpr (List.forall₂_same.mpr fun visible _ => hvisible visible)

omit [DecidableEq σ] in
/-- What an entry passes on stands for what it is said to pass on. -/
theorem parentdep_carried (hR : Carried v R) {above : List (Option (Expr σ))} {m m' : Entry σ}
    (h : Restricted v R (above ++ [m.dep]) m m') : R (metAll v (m.passed above)) (calcCondition v m'.parentdep) := by
  have hcondition : R (metAll v (above ++ m.dep :: m.prompt.toList)) (calcCondition v m'.condition) := by
    have hprompt := h.prompt
    have hdep := h.dep
    unfold Entry.condition
    cases hm : m.prompt <;> cases hm' : m'.prompt <;> rw [hm, hm'] at hprompt <;> cases hprompt
    · exact hdep
    · next hvisible => simpa using hvisible
  have hpassed : ∀ s, m'.sym = some s → m'.choice = true →
      R (metAll v (m.passed above)) (calcCondition v (some (.symbol (.var s)))) := by
    intro s hs hchoice
    rw [Entry.passed, ← h.choice, ← h.sym, hs, if_pos ⟨hchoice, rfl⟩, Option.map_some, metAll_singleton]
    exact hR.refl _
  have hpassed' : ¬ (m'.choice = true ∧ m'.sym.isSome = true) →
      R (metAll v (m.passed above)) (calcCondition v m'.condition) := by
    intro hnot
    rw [Entry.passed, ← h.choice, ← h.sym, if_neg hnot]
    exact hcondition
  unfold Entry.parentdep
  split
  · next s hs =>
    split
    · next hchoice => exact hpassed s hs hchoice
    · next hchoice => exact hpassed' fun hnot => hchoice hnot.1
  · next hs => exact hpassed' fun hnot => by rw [hs] at hnot; cases hnot.2

theorem restrictAll_carried (hR : Carried v R) {above : List (Option (Expr σ))} {parentdep : Option (Expr σ)}
    (hnnf : NnfCondition parentdep) (h : R (metAll v above) (calcCondition v parentdep)) (ms : Menus σ) :
    List.Forall₂ (fun x m' => Restricted v R x.1 x.2 m') (ms.enclosed above)
      (restrictAll types parentdep ms).order := by
  induction ms generalizing above parentdep with
  | nil => exact .nil
  | cons m list next ihlist ihnext =>
    have hm := restricted_carried hR hnnf h m
    exact .cons hm (List.rel_append (ihlist (restricted_nnf hnnf m) (parentdep_carried hR hm)) (ihnext hnnf h))

/-- All entries are there, in the order in which they were read, and each one has the
conditions it stood in. -/
theorem finalize_conditions (v : Values types) (ms : Menus σ) :
    List.Forall₂ (fun x m' => Restricted v (fun a b => a = .no → b = .no) x.1 x.2 m') (ms.enclosed [])
        (finalize types ms).order ∧
      ((∀ s, v.tri s ≠ .mod) →
        List.Forall₂ (fun x m' => Restricted v Sharpens x.1 x.2 m') (ms.enclosed []) (finalize types ms).order) := by
  rw [finalize_order]
  have hnone : NnfCondition (none : Option (Expr σ)) := trivial
  refine ⟨restrictAll_carried (carried_hidden v) hnone id ms, fun hv => ?_⟩
  exact restrictAll_carried (carried_sharpens hv) hnone (.refl _) ms

/-- All symbols of the package are set. -/
theorem package_conditions :
    List.Forall₂ (fun x m' => Restricted allYes (fun a b => a = .no → b = .no) x.1 x.2 m') (package.enclosed [])
        (finalize (fun _ => .boolean) package).order ∧
      List.Forall₂ (fun x m' => Restricted allYes Sharpens x.1 x.2 m') (package.enclosed [])
        (finalize (fun _ => .boolean) package).order :=
  (finalize_conditions allYes package).imp_right fun h => h fun _ => nofun

end Finalize

end Idic.Kconfig
