import Idic.Kconfig.Calc
import Idic.Kconfig.Nesting

/-! What the symbols are worth in the end.

A solution gives every symbol the value that `sym_calc_value` says it has under the
others. When no symbol depends on itself there is one solution, and it is what is
calculated, whatever is asked for first (`calculate_solves`). `Solution.bounds` says what
a value is held to: what selects a symbol from below, and from above what it can be
seen as. -/
namespace Idic.Kconfig
open Python (Str)
open Memo (Prog)

variable {σ : Type}

namespace Table

variable (T : Table σ) (s : σ)

theorem getType_boolean_iff :
    T.getType s = .boolean ↔ T.type s = .boolean ∨ (T.type s = .tristate ∧ T.modules = .no) := by
  unfold getType
  split
  · next h => split <;> simp_all
  · next h => exact ⟨.inl, fun h' => h'.elim id fun h' => (h h'.1).elim⟩

theorem isKnown_of_getType (h : T.getType s = .boolean ∨ T.getType s = .tristate) :
    (T.type s).isKnown = true := by
  unfold getType at h
  split at h
  · next htype => rw [htype]; rfl
  · rcases h with h | h <;> rw [h] <;> rfl

variable {T s} {tri : Tristate}

theorem promoted_ne_mod (h : T.getType s = .boolean) : T.promoted s tri ≠ .mod := by
  unfold promoted
  split
  · decide
  · next hmod => exact fun heq => hmod ⟨heq, h⟩

theorem promoted_of_ne_mod (h : T.getType s = .boolean → tri ≠ .mod) : T.promoted s tri = tri :=
  if_neg fun h' => h h'.2 h'.1

theorem le_promoted : tri ≤ T.promoted s tri := by
  unfold promoted
  split
  · exact Tristate.le_yes tri
  · exact le_refl tri

theorem promoted_mono {tri' : Tristate} (h : tri ≤ tri') : T.promoted s tri ≤ T.promoted s tri' := by
  unfold promoted
  split
  · next hmod =>
    split
    · exact le_refl _
    · next hmod' =>
      have hne : tri' ≠ .mod := fun heq => hmod' ⟨heq, hmod.2⟩
      rw [hmod.1] at h
      revert h hne
      cases tri' <;> decide
  · split
    · exact h.trans (Tristate.le_yes _)
    · exact h

end Table

section Cells
variable {T : Table σ} {user : σ → User} {s : σ} {c : Cell} (sol : σ → Cell)

theorem value_second_visible : ((T.second user s c).value sol).visible = c.visible := by
  unfold Table.second
  split <;> (try split) <;> simp

theorem value_second_revDep : ((T.second user s c).value sol).revDep = c.revDep := by
  unfold Table.second
  split <;> (try split) <;> simp

theorem value_second_tri (h : T.getType s = .boolean ∨ T.getType s = .tristate) :
    (T.second user s c).value sol = {c with tri := T.promoted s ((T.calcTri user s c).value sol)} := by
  unfold Table.second
  rcases h with h | h <;> simp [h]

theorem value_second_text (h : T.getType s = .int ∨ T.getType s = .hex ∨ T.getType s = .string) :
    (T.second user s c).value sol =
      {c with val := if c.visible ≠ .no ∧ !(user s).isNew then (user s).val.getD []
        else (T.calcDefaultVal s).value sol} := by
  unfold Table.second
  rcases h with h | h | h <;> rw [h] <;> dsimp only <;> split <;> simp

theorem value_visible_ne_mod (h : T.getType s = .boolean) : (T.calcVisible s).value sol ≠ .mod := by
  have htype : T.type s ≠ .tristate ∨ T.modules = .no := by
    rcases (T.getType_boolean_iff s).mp h with h | h
    · exact .inl (by rw [h]; decide)
    · exact .inr h.2
  simp only [Table.calcVisible, Prog.value_bind, Prog.value_pure]
  split
  · decide
  · next hmod => exact fun heq => hmod ⟨heq, htype⟩

variable [DecidableEq σ]

theorem value_first (h : (T.type s).isKnown = true) :
    (T.first s).value sol =
      ⟨(T.type s).initial (T.name s), .no, (T.calcVisible s).value sol, (T.calcRevDep s).value sol⟩ := by
  rw [Table.first, if_pos h]
  simp

end Cells

/-- Values under which every symbol has what its rule says. -/
structure Solution [DecidableEq σ] (T : Table σ) (user : σ → User) where
  cells : σ → Cell
  solves : ∀ s, cells s = (T.rules user).yields cells s

namespace Solution

variable [DecidableEq σ] {T : Table σ} {user : σ → User} (S : Solution T user) {s : σ}

theorem cells_eq (s : σ) : S.cells s = (T.second user s ((T.first s).value S.cells)).value S.cells := S.solves s

theorem visible_eq (h : (T.type s).isKnown = true) : (S.cells s).visible = (T.calcVisible s).value S.cells := by
  rw [cells_eq, value_second_visible, value_first _ h]

theorem revDep_eq (h : (T.type s).isKnown = true) : (S.cells s).revDep = (T.calcRevDep s).value S.cells := by
  rw [cells_eq, value_second_revDep, value_first _ h]

theorem first_visible : ((T.first s).value S.cells).visible = (S.cells s).visible :=
  (value_second_visible S.cells).symm.trans (congrArg Cell.visible (S.cells_eq s)).symm

theorem first_revDep : ((T.first s).value S.cells).revDep = (S.cells s).revDep :=
  (value_second_revDep S.cells).symm.trans (congrArg Cell.revDep (S.cells_eq s)).symm

/-- The user's value or the default, cut down to what it may be. -/
theorem tri_eq (h : T.getType s = .boolean ∨ T.getType s = .tristate) :
    (S.cells s).tri = T.promoted s ((T.calcTri user s (S.cells s)).value S.cells) := by
  have hcongr : T.calcTri user s ((T.first s).value S.cells) = T.calcTri user s (S.cells s) := by
    rw [Table.calcTri, Table.calcTri, S.first_visible, S.first_revDep]
  have hcell := congrArg Cell.tri (S.cells_eq s)
  rw [value_second_tri _ h, hcongr] at hcell
  exact hcell

theorem val_eq (h : T.getType s = .int ∨ T.getType s = .hex ∨ T.getType s = .string) :
    (S.cells s).val =
      if (S.cells s).visible ≠ .no ∧ !(user s).isNew then (user s).val.getD []
      else (T.calcDefaultVal s).value S.cells := by
  have hcell := congrArg Cell.val (S.cells_eq s)
  rw [value_second_text _ h, S.first_visible] at hcell
  exact hcell

theorem tri_ne_mod (h : T.getType s = .boolean) : (S.cells s).tri ≠ .mod := by
  rw [S.tri_eq (.inl h)]
  exact Table.promoted_ne_mod h

/-- The values of a solution are values in which no boolean symbol is `m`. -/
def values : Values T.type where
  tri s := (S.cells s).tri
  val s := (S.cells s).val
  boolean s h := S.tri_ne_mod ((T.getType_boolean_iff s).mpr (.inl h))

theorem string_eq (t : Sym σ) : (t.string T.type).value S.cells = S.values.stringOf t := by
  cases t with
  | var s =>
    simp only [Sym.string, Prog.value_bind, Prog.value_get, Prog.value_pure, Values.stringOf, Cell.string]
    generalize T.type s = type
    cases type <;> rfl
  | _ => rfl

/-- Under a solution an expression is calculated to its value. -/
theorem calculate_eq (e : Expr σ) : (e.calculate T.type).value S.cells = e.calcValue S.values := by
  induction e with
  | symbol t => cases t <;> rfl
  | not e ih => simp only [Expr.calculate, Prog.value_bind, Prog.value_pure, ih, Expr.calcValue]
  | comp c t t' => simp only [Expr.calculate, Prog.value_bind, Prog.value_pure, string_eq, Expr.calcValue]
  | bin op l r ihl ihr => simp only [Expr.calculate, Prog.value_bind, Prog.value_pure, ihl, ihr, Expr.calcValue]

section Bounds

/-- What an expression selects a symbol to. -/
def selectValue (v : Values T.type) : Option (Expr σ) → Tristate
  | some e => e.calcValue v
  | none => .no

variable (v : Values T.type)

omit [DecidableEq σ] in
theorem selectValue_allocOr (e1 e2 : Option (Expr σ)) :
    selectValue v (allocOr e1 e2) = max (selectValue v e1) (selectValue v e2) := by
  rw [← Op.or_eq_max]
  cases e1 with
  | none => exact (Op.unit_apply .or _).symm
  | some e1 =>
    cases e2 with
    | none => exact (Op.apply_unit .or _).symm
    | some e2 => rfl

omit [DecidableEq σ] in
theorem selectValue_condition (sel : Select σ) :
    selectValue v sel.condition = min (v.tri sel.sym) (calcCondition v sel.dep) := by
  have hvalue : selectValue v sel.condition = calcCondition v sel.condition := by
    unfold Select.condition
    cases sel.dep <;> rfl
  rw [hvalue, Select.condition, calcCondition_allocAnd, Op.and_eq_min]
  rfl

omit [DecidableEq σ] in
/-- Every entry that selects is among what is put together. -/
theorem selectValue_le (sels : List (Select σ)) (e : Option (Expr σ)) :
    selectValue v e ≤ selectValue v (sels.foldl (fun e sel => allocOr e sel.condition) e) ∧
      ∀ sel ∈ sels, selectValue v sel.condition ≤
        selectValue v (sels.foldl (fun e sel => allocOr e sel.condition) e) := by
  induction sels generalizing e with
  | nil => exact ⟨le_refl _, nofun⟩
  | cons sel sels ih =>
    obtain ⟨hinit, hsels⟩ := ih (allocOr e sel.condition)
    rw [selectValue_allocOr] at hinit
    refine ⟨(le_max_left _ _).trans hinit, fun sel' hsel' => ?_⟩
    rcases List.mem_cons.mp hsel' with rfl | hsel'
    · exact (le_max_right _ _).trans hinit
    · exact hsels sel' hsel'

/-- A selected symbol is at least what the selecting entry is under its condition. -/
theorem select_le_revDep {sel : Select σ} (hsel : sel ∈ T.selects) (h : (T.type sel.target).isKnown = true) :
    min (S.cells sel.sym).tri (calcCondition S.values sel.dep) ≤ (S.cells sel.target).revDep := by
  have hselected : (T.calcSelected sel.target).value S.cells = selectValue S.values (T.revDep sel.target) := by
    unfold Table.calcSelected
    cases T.revDep sel.target with
    | none => rfl
    | some e => exact S.calculate_eq e
  have hmem : sel ∈ T.selects.filter fun sel' => sel'.target = sel.target :=
    List.mem_filter.mpr ⟨hsel, decide_eq_true rfl⟩
  have hle := (selectValue_le S.values _ none).2 sel hmem
  rw [selectValue_condition] at hle
  rw [S.revDep_eq h, Table.calcRevDep, Prog.value_bind, Prog.value_pure, hselected]
  exact hle.trans Table.le_promoted

theorem visible_ne_mod (h : T.getType s = .boolean) : (S.cells s).visible ≠ .mod := by
  rw [S.visible_eq (T.isKnown_of_getType s (.inl h))]
  exact value_visible_ne_mod S.cells h

theorem revDep_ne_mod (h : T.getType s = .boolean) : (S.cells s).revDep ≠ .mod := by
  rw [S.revDep_eq (T.isKnown_of_getType s (.inl h)), Table.calcRevDep, Prog.value_bind, Prog.value_pure]
  exact Table.promoted_ne_mod h

/-- A value is not below what selects the symbol, and not above that and what the symbol
can be seen as, unless it is the default of a symbol that is neither. -/
theorem bounds (h : T.getType s = .boolean ∨ T.getType s = .tristate) :
    (T.getType s = .boolean → (S.cells s).tri ≠ .mod) ∧
      (∀ sel ∈ T.selects, sel.target = s →
        min (S.cells sel.sym).tri (calcCondition S.values sel.dep) ≤ (S.cells s).tri) ∧
      (max (S.cells s).visible (S.cells s).revDep ≠ .no →
        (S.cells s).tri ≤ max (S.cells s).visible (S.cells s).revDep) := by
  have hknown := T.isKnown_of_getType s h
  have htri := S.tri_eq h
  rw [Table.calcTri, Op.or_eq_max] at htri
  have hrev : (S.cells s).revDep ≤ (S.cells s).tri := by
    rw [htri]
    split
    · rw [Prog.value_bind, Prog.value_pure, Op.or_eq_max]
      exact (le_max_right _ _).trans Table.le_promoted
    · next hno =>
      have hle : (S.cells s).revDep ≤ .no := not_not.mp hno ▸ le_max_right _ _
      exact hle.trans (Tristate.no_le _)
  refine ⟨S.tri_ne_mod, ?_, fun hseen => ?_⟩
  · rintro sel hsel rfl
    exact (S.select_le_revDep hsel hknown).trans hrev
  · have hlimit : T.promoted s (max (S.cells s).visible (S.cells s).revDep) =
        max (S.cells s).visible (S.cells s).revDep := by
      refine Table.promoted_of_ne_mod fun hboolean => ?_
      rcases max_choice (S.cells s).visible (S.cells s).revDep with hmax | hmax <;> rw [hmax]
      · exact S.visible_ne_mod hboolean
      · exact S.revDep_ne_mod hboolean
    rw [htri, if_pos hseen, Prog.value_bind, Prog.value_pure, Op.or_eq_max, Op.and_eq_min, ← hlimit]
    exact Table.promoted_mono (max_le_max (min_le_right _ _) (le_refl _))

end Bounds

end Solution

section Calculate
variable [DecidableEq σ] [Fintype σ] (T : Table σ) (user : σ → User)

/-- `sym_calc_value` -/
def calcValue (s : σ) (st : Memo.State σ Cell) : Memo.State σ Cell := Memo.demand (T.rules user) s st

variable {T}

omit [Fintype σ] in
theorem exists_solution (hwf : WellFounded T.Before) : Nonempty (Solution T user) := by
  obtain ⟨sol, hsol, -⟩ := Memo.exists_unique_solution (T.rules user) hwf
  exact ⟨sol, hsol⟩

omit [Fintype σ] in
theorem Solution.unique (hwf : WellFounded T.Before) (S S' : Solution T user) : S = S' := by
  have hunique := Memo.exists_unique_solution (T.rules user) hwf
  have hcells : S.cells = S'.cells := hunique.unique S.solves S'.solves
  cases S
  cases S'
  cases hcells
  rfl

/-- When `conf_parse` has no warning, there is one solution, and it is what is calculated,
in whatever order the symbols are asked for and whatever was in them before. -/
theorem calculate_solves (h : T.checkDeps = []) :
    ∃ S : Solution T user, (∀ S' : Solution T user, S' = S) ∧
      ∀ (calls : List σ) (stale : σ → Cell), ∀ s ∈ calls,
        (calls.foldl (fun st s => calcValue T user s st) ⟨∅, stale⟩).cells s = S.cells s := by
  have hwf := T.checkDeps_eq_nil_iff.mp h
  obtain ⟨S⟩ := exists_solution user hwf
  refine ⟨S, fun S' => S'.unique user hwf S, fun calls stale s hs => ?_⟩
  have hstale : Memo.Agrees S.cells ∅ ⟨∅, stale⟩ := fun i hi => absurd hi (Finset.notMem_empty i)
  obtain ⟨hagrees, -, hvalid⟩ := Memo.demands_solve S.solves hwf calls hstale
  exact hagrees s (hvalid s hs) (Finset.notMem_empty s)

end Calculate

section Example

/-- The symbols of a package: its service, where that is had from and what it needs. -/
inductive Pdu where
  | simulation
  | vpduserv
  | url
  | python
  deriving DecidableEq

instance : Fintype Pdu := ⟨{.simulation, .vpduserv, .url, .python}, fun s => by cases s <;> decide⟩

def pdu : Table Pdu where
  name
    | .simulation => "CONFIG_PDU_SIMULATION".toList
    | .vpduserv => "CONFIG_PKG_vpduserv".toList
    | .url => "CONFIG_GIT_VPDU_URL".toList
    | .python => "CONFIG_PKG_python".toList
  type
    | .simulation | .vpduserv | .python => .boolean
    | .url => .string
  props
    | .simulation => [.prompt "PDU simulation".toList none, .default (.symbol .no) none]
    | .vpduserv => [.prompt "vPDU Service".toList (some (.symbol (.var .simulation))),
        .default (.symbol .yes) (some (.symbol (.var .simulation)))]
    | .url => [.prompt "Git URL".toList (some (.symbol (.var .vpduserv)))]
    | .python => [.prompt "python".toList none]
  selects := [⟨.vpduserv, .python, some (.symbol (.var .simulation))⟩]
  modules := .no
  symbols := [.simulation, .vpduserv, .url, .python]
  mem_symbols s := by cases s <;> decide

theorem pdu_wellFounded : WellFounded pdu.Before := by
  let rank : Pdu → Nat
    | .simulation => 0
    | .vpduserv => 1
    | .url | .python => 2
  refine Subrelation.wf (fun {s s'} h => ?_) (InvImage.wf rank Nat.lt_wfRel.wf)
  have hdeps : ∀ s', ∀ s ∈ pdu.deps s', rank s < rank s' := by decide
  exact hdeps s' s h

/-- What nobody has set yet. -/
def unset : Pdu → User := fun _ => ⟨true, .no, none⟩

/-- What is set when the simulation is wanted, from a place of one's own. -/
def chosen : Pdu → User
  | .simulation => ⟨false, .yes, none⟩
  | .url => ⟨false, .no, some "ssh://git".toList⟩
  | .vpduserv | .python => ⟨true, .no, none⟩

def pduSolution : Solution pdu chosen where
  cells
    | .simulation => ⟨['n'], .yes, .yes, .no⟩
    | .vpduserv => ⟨['n'], .yes, .yes, .no⟩
    | .url => ⟨"ssh://git".toList, .no, .yes, .no⟩
    | .python => ⟨['n'], .yes, .yes, .yes⟩
  solves s := by cases s <;> rfl

/-- The service selects what it needs. -/
theorem pdu_bounds : (pdu.getType .python = .boolean → (pduSolution.cells .python).tri ≠ .mod) ∧
    (∀ sel ∈ pdu.selects, sel.target = .python →
      min (pduSolution.cells sel.sym).tri (calcCondition pduSolution.values sel.dep) ≤
        (pduSolution.cells .python).tri) ∧
    (max (pduSolution.cells .python).visible (pduSolution.cells .python).revDep ≠ .no →
      (pduSolution.cells .python).tri ≤
        max (pduSolution.cells .python).visible (pduSolution.cells .python).revDep) :=
  pduSolution.bounds (.inl rfl)

theorem pdu_calculate_solves : ∃ S : Solution pdu chosen, (∀ S' : Solution pdu chosen, S' = S) ∧
    ∀ (calls : List Pdu) (stale : Pdu → Cell), ∀ s ∈ calls,
      (calls.foldl (fun st s => calcValue pdu chosen s st) ⟨∅, stale⟩).cells s = S.cells s :=
  calculate_solves chosen (pdu.checkDeps_eq_nil_iff.mpr pdu_wellFounded)

end Example

end Idic.Kconfig
