import Mathlib.Data.Finset.Card
import Mathlib.Data.Fintype.Basic
import Mathlib.Order.WellFounded
import Idic.Kconfig.Recursion

/-! Values that are calculated when they are asked for, and kept.

The rule for a key is a program that may ask for the values of other keys, in two
parts: after the first one the key has a value already, which is seen if the key is
asked for again before it is done. A key that has been begun is not calculated again.
When no key depends on itself, all this makes no difference: there is one way to give
every key the value its rule says, and whatever is asked for gets that. -/
namespace Idic.Kconfig.Memo
open Recursion (sdiff_insert_ssubset)

variable {ι κ α β : Type}

inductive Prog (ι κ : Type) (α : Type) where
  | ret (a : α)
  | ask (i : ι) (next : κ → Prog ι κ α)

namespace Prog

def bind : Prog ι κ α → (α → Prog ι κ β) → Prog ι κ β
  | ret a, f => f a
  | ask i next, f => ask i fun c => (next c).bind f

instance : Monad (Prog ι κ) where
  pure := ret
  bind := bind

/-- To ask for a value and give it back. -/
def get (i : ι) : Prog ι κ κ := ask i ret

/-- What the program gives under values that are fixed. -/
def value (sol : ι → κ) : Prog ι κ α → α
  | ret a => a
  | ask i next => (next (sol i)).value sol

/-- The program asks for these keys only. -/
inductive Asks (keys : List ι) : Prog ι κ α → Prop
  | ret (a : α) : Asks keys (.ret a)
  | ask (i : ι) (next : κ → Prog ι κ α) (hi : i ∈ keys) (h : ∀ c, Asks keys (next c)) :
    Asks keys (.ask i next)

@[simp] theorem value_pure (sol : ι → κ) (a : α) : (pure a : Prog ι κ α).value sol = a := rfl

@[simp] theorem value_get (sol : ι → κ) (i : ι) : (get i).value sol = sol i := rfl

@[simp] theorem value_bind (sol : ι → κ) (p : Prog ι κ α) (f : α → Prog ι κ β) :
    (p >>= f).value sol = (f (p.value sol)).value sol := by
  induction p with
  | ret a => rfl
  | ask i next ih => exact ih _

theorem Asks.pure {keys : List ι} (a : α) : Asks keys (pure a : Prog ι κ α) := .ret a

theorem Asks.get {keys : List ι} {i : ι} (hi : i ∈ keys) : Asks keys (get i : Prog ι κ κ) := .ask i _ hi fun c => .ret c

theorem Asks.bind {keys : List ι} {p : Prog ι κ α} {f : α → Prog ι κ β} (hp : Asks keys p)
    (hf : ∀ a, Asks keys (f a)) : Asks keys (p >>= f) := by
  induction hp with
  | ret a => exact hf a
  | ask i next hi _ ih => exact .ask i _ hi ih

theorem Asks.mono {keys keys' : List ι} {p : Prog ι κ α} (hp : Asks keys p) (h : keys ⊆ keys') :
    Asks keys' p := by
  induction hp with
  | ret a => exact .ret a
  | ask i next hi _ ih => exact .ask i _ (h hi) ih

theorem Asks.all {keys : List ι} (h : ∀ i, i ∈ keys) (p : Prog ι κ α) : p.Asks keys := by
  induction p with
  | ret a => exact .ret a
  | ask i next ih => exact .ask i next (h i) ih

theorem Asks.value_congr {keys : List ι} {p : Prog ι κ α} (hp : Asks keys p) {sol sol' : ι → κ}
    (h : ∀ i ∈ keys, sol i = sol' i) : p.value sol = p.value sol' := by
  induction hp with
  | ret a => rfl
  | ask i next hi _ ih => rw [value, value, ← h i hi, ih]

end Prog

/-- The keys that have been begun, and the values. -/
structure State (ι κ : Type) where
  valid : Finset ι
  cells : ι → κ

/-- The rule for each key, and what it may ask for. -/
structure Rules (ι κ : Type) where
  deps : ι → List ι
  first : ι → Prog ι κ κ
  second : ι → κ → Prog ι κ κ
  first_asks : ∀ i, (first i).Asks (deps i)
  second_asks : ∀ i c, (second i c).Asks (deps i)

def State.set [DecidableEq ι] (st : State ι κ) (i : ι) (c : κ) : State ι κ :=
  {st with cells := Function.update st.cells i c}

def State.begin [DecidableEq ι] (st : State ι κ) (i : ι) : State ι κ := {st with valid := insert i st.valid}

/-- A program under the calls that calculate a key. -/
def run (call : ι → State ι κ → State ι κ) : Prog ι κ α → State ι κ → α × State ι κ
  | .ret a, st => (a, st)
  | .ask i next, st =>
    let st := call i st
    run call (next (st.cells i)) st

theorem run_get (call : ι → State ι κ → State ι κ) (i : ι) (f : κ → Prog ι κ α) (st : State ι κ) :
    run call (Prog.get i >>= f) st = run call (f ((call i st).cells i)) (call i st) := rfl

section Demand
variable [DecidableEq ι] (R : Rules ι κ)

/-- Nothing is done for a key that has been begun. -/
def demandWith (call : ι → State ι κ → State ι κ) (i : ι) (st : State ι κ) : State ι κ :=
  if i ∈ st.valid then st
  else
    let x := run call (R.first i) (st.begin i)
    let y := run call (R.second i x.1) (x.2.set i x.1)
    y.2.set i y.1

def demandUpTo : Nat → ι → State ι κ → State ι κ
  | 0, _, st => st
  | n + 1, i, st => demandWith R (demandUpTo n) i st

/-- Every call within a call finds one more key begun. -/
def demand [Fintype ι] (i : ι) (st : State ι κ) : State ι κ :=
  demandUpTo R ((Finset.univ \ st.valid).card + 1) i st

end Demand

section Calls
variable [DecidableEq ι] {R : Rules ι κ}

/-- A call only begins more keys. -/
def Grows (call : ι → State ι κ → State ι κ) : Prop := ∀ i st, st.valid ⊆ (call i st).valid

omit [DecidableEq ι] in
theorem run_grows {call : ι → State ι κ → State ι κ} (h : Grows call) (p : Prog ι κ α) (st : State ι κ) :
    st.valid ⊆ (run call p st).2.valid := by
  induction p generalizing st with
  | ret a => exact Finset.Subset.refl _
  | ask i next ih => exact Finset.Subset.trans (h i st) (ih _ _)

theorem demandWith_grows {call : ι → State ι κ → State ι κ} (h : Grows call) : Grows (demandWith R call) := by
  intro i st
  unfold demandWith
  split
  · exact Finset.Subset.refl _
  · have hfirst := run_grows h (R.first i) (st.begin i)
    have hsecond := run_grows h (R.second i (run call (R.first i) (st.begin i)).1)
      ((run call (R.first i) (st.begin i)).2.set i (run call (R.first i) (st.begin i)).1)
    exact Finset.Subset.trans (Finset.subset_insert i st.valid) (Finset.Subset.trans hfirst hsecond)

theorem demandUpTo_grows (n : Nat) : Grows (demandUpTo R n) := by
  induction n with
  | zero => exact fun _ _ => Finset.Subset.refl _
  | succ n ih => exact demandWith_grows ih

omit [DecidableEq ι] in
/-- Calls that agree where these keys have been begun give the same run. -/
theorem run_congr {call call' : ι → State ι κ → State ι κ} (hgrows : Grows call) {keys : Finset ι}
    (h : ∀ i st, keys ⊆ st.valid → call i st = call' i st) (p : Prog ι κ α) {st : State ι κ}
    (hst : keys ⊆ st.valid) : run call p st = run call' p st := by
  induction p generalizing st with
  | ret a => rfl
  | ask i next ih =>
    rw [run, run, ← h i st hst]
    exact ih _ (Finset.Subset.trans hst (hgrows i st))

theorem demandWith_congr {call call' : ι → State ι κ → State ι κ} (hgrows : Grows call) {i : ι}
    {st : State ι κ} (h : i ∉ st.valid → ∀ j st', insert i st.valid ⊆ st'.valid → call j st' = call' j st') :
    demandWith R call i st = demandWith R call' i st := by
  unfold demandWith
  split
  · rfl
  · next hi =>
    have hcall := h hi
    have hfirst : run call (R.first i) (st.begin i) = run call' (R.first i) (st.begin i) :=
      run_congr hgrows hcall _ (Finset.Subset.refl _)
    have hbegun : insert i st.valid ⊆
        ((run call (R.first i) (st.begin i)).2.set i (run call (R.first i) (st.begin i)).1).valid :=
      run_grows hgrows (R.first i) (st.begin i)
    dsimp only
    rw [← hfirst, run_congr hgrows hcall (R.second i _) hbegun]

variable [Fintype ι]

/-- Any bound above the number of keys that are left gives the same. -/
theorem demandUpTo_stable (n m : Nat) (i : ι) (st : State ι κ) (hn : (Finset.univ \ st.valid).card < n)
    (hm : (Finset.univ \ st.valid).card < m) : demandUpTo R n i st = demandUpTo R m i st := by
  induction n generalizing m i st with
  | zero => exact absurd hn (Nat.not_lt_zero _)
  | succ n ih =>
    obtain ⟨m, rfl⟩ : ∃ m', m = m' + 1 := ⟨m - 1, by omega⟩
    refine demandWith_congr (demandUpTo_grows n) fun hi j st' hst' => ?_
    have hless : (Finset.univ \ st'.valid).card < (Finset.univ \ st.valid).card :=
      Nat.lt_of_le_of_lt (Finset.card_le_card (Finset.sdiff_subset_sdiff (Finset.Subset.refl _) hst'))
        (Finset.card_lt_card (sdiff_insert_ssubset hi))
    exact ih m j st' (by omega) (by omega)

/-- A call goes on with calls of itself. -/
theorem demand_eq (i : ι) (st : State ι κ) : demand R i st = demandWith R (demand R) i st := by
  refine demandWith_congr (demandUpTo_grows _) fun hi j st' hst' => ?_
  have hless : (Finset.univ \ st'.valid).card < (Finset.univ \ st.valid).card :=
    Nat.lt_of_le_of_lt (Finset.card_le_card (Finset.sdiff_subset_sdiff (Finset.Subset.refl _) hst'))
      (Finset.card_lt_card (sdiff_insert_ssubset hi))
  exact demandUpTo_stable _ _ j st' hless (Nat.lt_succ_self _)

theorem demand_grows : Grows (demand R) := fun i st => demandUpTo_grows _ i st

end Calls

section Solution
variable (R : Rules ι κ)

/-- The value that the rule of a key says, under values of the others. -/
def Rules.yields (sol : ι → κ) (i : ι) : κ := (R.second i ((R.first i).value sol)).value sol

/-- To come before a key is to be asked for in its rule. -/
def Rules.Before (i j : ι) : Prop := i ∈ R.deps j

variable {R}

theorem yields_congr {sol sol' : ι → κ} {i : ι} (h : ∀ j ∈ R.deps i, sol j = sol' j) :
    R.yields sol i = R.yields sol' i := by
  rw [Rules.yields, Rules.yields, (R.first_asks i).value_congr h, (R.second_asks i _).value_congr h]

/-- Where no key depends on itself, there is one way to meet all rules. -/
theorem exists_unique_solution (R : Rules ι κ) [Inhabited κ] [DecidableEq ι] (hwf : WellFounded R.Before) :
    ∃! sol : ι → κ, ∀ i, sol i = R.yields sol i := by
  -- the rule of a key, under the values of those before it
  let sol : ι → κ := hwf.fix fun i below => R.yields (fun j => if h : j ∈ R.deps i then below j h else default) i
  have hsol : ∀ i, sol i = R.yields sol i := by
    intro i
    refine (hwf.fix_eq _ i).trans (yields_congr fun j hj => ?_)
    exact dif_pos hj
  refine ⟨sol, hsol, fun sol' hsol' => funext fun i => ?_⟩
  induction i using hwf.induction with
  | h i ih => rw [hsol', hsol, yields_congr ih]

section Correct
variable [DecidableEq ι] [Fintype ι] {sol : ι → κ}

/-- What has been begun has its value, or is being worked on above. -/
def Agrees (sol : ι → κ) (above : Finset ι) (st : State ι κ) : Prop :=
  ∀ i ∈ st.valid, i ∉ above → st.cells i = sol i

omit [Fintype ι] in
theorem Agrees.set {above : Finset ι} {st : State ι κ} {i : ι} (h : Agrees sol (insert i above) st)
    (c : κ) : Agrees sol (insert i above) (st.set i c) := by
  intro j hj habove
  have hne : j ≠ i := fun hji => habove (hji ▸ Finset.mem_insert_self i above)
  have hcells : (st.set i c).cells j = st.cells j := by simp [State.set, hne]
  rw [hcells]
  exact h j hj habove

omit [DecidableEq ι] [Fintype ι] in
/-- A program whose keys are not worked on gives what it gives under the solution. -/
theorem run_agrees {keys : List ι} {above : Finset ι} {call : ι → State ι κ → State ι κ}
    (hcall : ∀ i ∈ keys, ∀ st, Agrees sol above st →
      Agrees sol above (call i st) ∧ i ∈ (call i st).valid ∧ i ∉ above)
    {p : Prog ι κ α} (hp : p.Asks keys) {st : State ι κ} (hst : Agrees sol above st) :
    (run call p st).1 = p.value sol ∧ Agrees sol above (run call p st).2 := by
  induction hp generalizing st with
  | ret a => exact ⟨rfl, hst⟩
  | ask i next hi _ ih =>
    obtain ⟨hagrees, hvalid, habove⟩ := hcall i hi st hst
    rw [run, Prog.value, ← hagrees i hvalid habove]
    exact ih _ hagrees

/-- A key that has been asked for gets its value, when the keys worked on depend on it. -/
theorem demand_agrees (hsol : ∀ i, sol i = R.yields sol i) (hwf : WellFounded R.Before) (i : ι)
    (above : Finset ι) (habove : ∀ j ∈ above, Relation.TransGen R.Before i j) (st : State ι κ)
    (hst : Agrees sol above st) :
    Agrees sol above (demand R i st) ∧ i ∈ (demand R i st).valid := by
  induction i using hwf.induction generalizing above st with
  | h i ih =>
    rw [demand_eq]
    unfold demandWith
    split
    · next hi => exact ⟨hst, hi⟩
    · next hi =>
      have hcall : ∀ j ∈ R.deps i, ∀ st', Agrees sol (insert i above) st' →
          Agrees sol (insert i above) (demand R j st') ∧ j ∈ (demand R j st').valid ∧ j ∉ insert i above := by
        intro j hj st' hst'
        have habove' : ∀ k ∈ insert i above, Relation.TransGen R.Before j k := by
          intro k hk
          rcases Finset.mem_insert.mp hk with rfl | hk
          · exact .single hj
          · exact .head hj (habove k hk)
        obtain ⟨hagrees, hvalid⟩ := ih j hj (insert i above) habove' st' hst'
        exact ⟨hagrees, hvalid, fun hk => hwf.transGen.irrefl.irrefl j (habove' j hk)⟩
      have hbegin : Agrees sol (insert i above) (st.begin i) := by
        intro j hj hout
        have hne : j ≠ i := fun hji => hout (hji ▸ Finset.mem_insert_self i above)
        exact hst j (Finset.mem_of_mem_insert_of_ne hj hne) fun ha => hout (Finset.mem_insert_of_mem ha)
      obtain ⟨hx, hfirst⟩ := run_agrees hcall (R.first_asks i) hbegin
      obtain ⟨hy, hsecond⟩ := run_agrees hcall (R.second_asks i _) (hfirst.set _)
      refine ⟨fun j hj hout => ?_, ?_⟩
      · by_cases hji : j = i
        · subst hji
          exact (Function.update_self j _ _).trans (hy.trans (by rw [hx, hsol j, Rules.yields]))
        · exact (Function.update_of_ne hji _ _).trans (hsecond j hj (by simp [hji, hout]))
      · have hgrows : Grows (demand R) := demand_grows
        have hvalid := run_grows hgrows (R.first i) (st.begin i) (Finset.mem_insert_self i st.valid)
        exact run_grows hgrows (R.second i _) ((run (demand R) (R.first i) (st.begin i)).2.set i _) hvalid

/-- What has been asked for has its value, at any time and in any order. -/
theorem demand_solves (hsol : ∀ i, sol i = R.yields sol i) (hwf : WellFounded R.Before) {st : State ι κ}
    (hst : Agrees sol ∅ st) (i : ι) : Agrees sol ∅ (demand R i st) ∧ (demand R i st).cells i = sol i := by
  obtain ⟨hagrees, hvalid⟩ := demand_agrees hsol hwf i ∅ (by simp) st hst
  exact ⟨hagrees, hagrees i hvalid (Finset.notMem_empty i)⟩

/-- The same of one call after the other. -/
theorem demands_solve (hsol : ∀ i, sol i = R.yields sol i) (hwf : WellFounded R.Before) (calls : List ι)
    {st : State ι κ} (hst : Agrees sol ∅ st) :
    Agrees sol ∅ (calls.foldl (fun st i => demand R i st) st) ∧
      st.valid ⊆ (calls.foldl (fun st i => demand R i st) st).valid ∧
      ∀ i ∈ calls, i ∈ (calls.foldl (fun st i => demand R i st) st).valid := by
  induction calls generalizing st with
  | nil => exact ⟨hst, Finset.Subset.refl _, nofun⟩
  | cons i calls ih =>
    obtain ⟨hagrees, hvalid⟩ := demand_agrees hsol hwf i ∅ (by simp) st hst
    obtain ⟨hcalls, hgrows, hmem⟩ := ih hagrees
    exact ⟨hcalls, (demand_grows i st).trans hgrows, List.forall_mem_cons.mpr ⟨hgrows hvalid, hmem⟩⟩

/-- A program that is run gives what it gives under the solution. -/
theorem run_solves (hsol : ∀ i, sol i = R.yields sol i) (hwf : WellFounded R.Before) {keys : List ι}
    {p : Prog ι κ α} (hp : p.Asks keys) {st : State ι κ} (hst : Agrees sol ∅ st) :
    (run (demand R) p st).1 = p.value sol ∧ Agrees sol ∅ (run (demand R) p st).2 := by
  refine run_agrees (fun i _ st' hst' => ?_) hp hst
  obtain ⟨hagrees, hvalid⟩ := demand_agrees hsol hwf i ∅ (by simp) st' hst'
  exact ⟨hagrees, hvalid, Finset.notMem_empty i⟩

end Correct

section Change
variable {R' : Rules ι κ} {sol sol' : ι → κ}

/-- Where one rule is changed, only what depends on its key changes. -/
theorem unchanged (hwf : WellFounded R.Before) (hsol : ∀ i, sol i = R.yields sol i)
    (hsol' : ∀ i, sol' i = R'.yields sol' i) {i : ι} (hrule : ∀ j, j ≠ i → R'.yields sol' j = R.yields sol' j)
    (j : ι) (hj : ¬ Relation.ReflTransGen R.Before i j) : sol' j = sol j := by
  induction j using hwf.induction with
  | h j ih =>
    have hne : j ≠ i := fun h => hj (h ▸ .refl)
    rw [hsol', hrule j hne, hsol]
    exact yields_congr fun k hk => ih k hk fun hik => hj (hik.tail hk)

end Change

end Solution

end Idic.Kconfig.Memo
