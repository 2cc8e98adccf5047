import Idic.Kconfig.Expr

/-! What two expressions have in common.

Two chains of one operator are gone through operand by operand, and an operand that
stands in both is taken out of both. `expr_eq` and `expr_eliminate_eq` call each other:
two chains are equal when nothing but one and the same symbol is left of them. That is
an equality up to the order of the operands, and up to double ones. -/
namespace Idic.Kconfig

variable {σ τ : Type}

section Pairs
variable (op : Op) (step : τ → Expr σ → Expr σ → τ × Expr σ × Expr σ)

/-- The operands of the second chain, for one operand of the first. An operand that
`step` changes becomes a symbol, and so stays one. -/
def pairsRight (t : τ) (e1 : Expr σ) : Expr σ → τ × Expr σ × Expr σ
  | .bin op' l r =>
    if op' = op then
      let (t, e1, l) := pairsRight t e1 l
      let (t, e1, r) := pairsRight t e1 r
      (t, e1, .bin op' l r)
    else step t e1 (.bin op' l r)
  | e2 => step t e1 e2

def pairs (t : τ) : Expr σ → Expr σ → τ × Expr σ × Expr σ
  | .bin op' l r, e2 =>
    if op' = op then
      let (t, l, e2) := pairs t l e2
      let (t, r, e2) := pairs t r e2
      (t, .bin op' l r, e2)
    else pairsRight op step t (.bin op' l r) e2
  | e1, e2 => pairsRight op step t e1 e2

variable {op step}

theorem pairsRight_bin (t : τ) (e1 l r : Expr σ) :
    pairsRight op step t e1 (.bin op l r) =
      let x := pairsRight op step t e1 l
      let y := pairsRight op step x.1 x.2.1 r
      (y.1, y.2.1, .bin op x.2.2 y.2.2) := by
  rw [pairsRight]
  exact if_pos rfl

theorem pairsRight_operand (t : τ) (e1 : Expr σ) {e2 : Expr σ} (h : e2.isBin op = false) :
    pairsRight op step t e1 e2 = step t e1 e2 := by
  cases e2 with
  | bin op' l r =>
    rw [pairsRight]
    exact if_neg (by simpa [Expr.isBin] using h)
  | symbol s => rfl
  | not e => rfl
  | comp c s s' => rfl

theorem pairs_bin (t : τ) (l r e2 : Expr σ) :
    pairs op step t (.bin op l r) e2 =
      let x := pairs op step t l e2
      let y := pairs op step x.1 r x.2.2
      (y.1, .bin op x.2.1 y.2.1, y.2.2) := by
  rw [pairs]
  exact if_pos rfl

theorem pairs_operand (t : τ) {e1 : Expr σ} (h : e1.isBin op = false) (e2 : Expr σ) :
    pairs op step t e1 e2 = pairsRight op step t e1 e2 := by
  cases e1 with
  | bin op' l r =>
    rw [pairs]
    exact if_neg (by simpa [Expr.isBin] using h)
  | symbol s => rw [pairs]; nofun
  | not e => rw [pairs]; nofun
  | comp c s s' => rw [pairs]; nofun

end Pairs

/-- A chain is a node of the operator, or one operand. -/
theorem Expr.chain_induction (op : Op) {motive : Expr σ → Prop}
    (operand : ∀ e, e.isBin op = false → motive e)
    (node : ∀ l r, motive l → motive r → motive (.bin op l r)) (e : Expr σ) : motive e := by
  induction e with
  | symbol s => exact operand _ rfl
  | not e _ => exact operand _ rfl
  | comp c s t => exact operand _ rfl
  | bin op' l r ihl ihr =>
    by_cases h : op' = op
    · exact h ▸ node l r ihl ihr
    · exact operand _ (by simpa [Expr.isBin] using h)

section Shared
variable {types : σ → SymbolType} (v : Values types) {op : Op}
  {step : τ → Expr σ → Expr σ → τ × Expr σ × Expr σ} (keeps : τ → Tristate → τ → Prop)

/-- What has been taken out of both expressions is worth `c`, and is in `keeps`. -/
def Shared (op : Op) (t : τ) (e1 e2 : Expr σ) (x : τ × Expr σ × Expr σ) : Prop :=
  ∃ c, keeps t c x.1 ∧ e1.calcValue v = op.apply (x.2.1.calcValue v) c ∧
    e2.calcValue v = op.apply (x.2.2.calcValue v) c

variable {v keeps}
  (hcomp : ∀ t c t' c' t'', keeps t c t' → keeps t' c' t'' → keeps t (op.apply c c') t'')
  (hstep : ∀ t e1 e2, Shared v keeps op t e1 e2 (step t e1 e2))
include hcomp hstep

theorem pairsRight_shared (t : τ) (e1 e2 : Expr σ) :
    Shared v keeps op t e1 e2 (pairsRight op step t e1 e2) := by
  induction e2 using Expr.chain_induction op generalizing t e1 with
  | operand e2 h => rw [pairsRight_operand t e1 h]; exact hstep t e1 e2
  | node l r ihl ihr =>
    obtain ⟨c, hkeep, h1, hl⟩ := ihl t e1
    obtain ⟨c', hkeep', h1', hr⟩ := ihr (pairsRight op step t e1 l).1 (pairsRight op step t e1 l).2.1
    rw [pairsRight_bin]
    refine ⟨op.apply c c', hcomp _ _ _ _ _ hkeep hkeep', ?_, ?_⟩
    · rw [h1, h1']; ac_rfl
    · simp only [Expr.calcValue]
      rw [hl, hr]; ac_rfl

theorem pairs_shared (t : τ) (e1 e2 : Expr σ) :
    Shared v keeps op t e1 e2 (pairs op step t e1 e2) := by
  induction e1 using Expr.chain_induction op generalizing t e2 with
  | operand e1 h => rw [pairs_operand t h]; exact pairsRight_shared hcomp hstep t e1 e2
  | node l r ihl ihr =>
    obtain ⟨c, hkeep, hl, h2⟩ := ihl t e2
    obtain ⟨c', hkeep', hr, h2'⟩ := ihr (pairs op step t l e2).1 (pairs op step t l e2).2.2
    rw [pairs_bin]
    refine ⟨op.apply c c', hcomp _ _ _ _ _ hkeep hkeep', ?_, ?_⟩
    · simp only [Expr.calcValue]
      rw [hl, hr]; ac_rfl
    · rw [h2, h2']; ac_rfl

end Shared

section Through
variable {types : σ → SymbolType} (v : Values types)

/-- The values of both expressions are had from those of the pair, by one function that
is monotone. -/
def Through (e1 e2 : Expr σ) (x : Expr σ × Expr σ) : Prop :=
  ∃ f : Tristate → Tristate, Monotone f ∧
    e1.calcValue v = f (x.1.calcValue v) ∧ e2.calcValue v = f (x.2.calcValue v)

variable {v}

theorem Through.refl (e1 e2 : Expr σ) : Through v e1 e2 (e1, e2) := ⟨id, monotone_id, rfl, rfl⟩

theorem Through.trans {e1 e2 : Expr σ} {x y : Expr σ × Expr σ} (h : Through v e1 e2 x)
    (h' : Through v x.1 x.2 y) : Through v e1 e2 y := by
  obtain ⟨f, hf, h1, h2⟩ := h
  obtain ⟨g, hg, h1', h2'⟩ := h'
  exact ⟨f ∘ g, hf.comp hg, by rw [h1, h1', Function.comp], by rw [h2, h2', Function.comp]⟩

theorem Shared.through {op : Op} {t : τ} {keeps : τ → Tristate → τ → Prop} {e1 e2 : Expr σ}
    {x : τ × Expr σ × Expr σ} (h : Shared v keeps op t e1 e2 x) : Through v e1 e2 x.2 := by
  obtain ⟨c, -, h1, h2⟩ := h
  exact ⟨fun a => op.apply a c, fun a b hab => Op.apply_mono hab (le_refl c), h1, h2⟩

end Through

section Congr
variable {op : Op} {step step' : τ → Expr σ → Expr σ → τ × Expr σ × Expr σ} {k : Nat}
  (hstep : ∀ t e1 e2, e1.height ≤ k → step t e1 e2 = step' t e1 e2)
  (hheight : ∀ t e1 e2, (step t e1 e2).2.1.height ≤ e1.height)
include hheight

theorem pairsRight_height_le (t : τ) (e1 e2 : Expr σ) :
    (pairsRight op step t e1 e2).2.1.height ≤ e1.height := by
  induction e2 using Expr.chain_induction op generalizing t e1 with
  | operand e2 h => rw [pairsRight_operand t e1 h]; exact hheight t e1 e2
  | node l r ihl ihr => rw [pairsRight_bin]; exact (ihr _ _).trans (ihl t e1)

include hstep

/-- Only the height of the first expression counts. -/
theorem pairsRight_congr (t : τ) (e1 e2 : Expr σ) (h : e1.height ≤ k) :
    pairsRight op step t e1 e2 = pairsRight op step' t e1 e2 := by
  induction e2 using Expr.chain_induction op generalizing t e1 with
  | operand e2 h2 => rw [pairsRight_operand t e1 h2, pairsRight_operand t e1 h2, hstep t e1 e2 h]
  | node l r ihl ihr =>
    have hl : (pairsRight op step t e1 l).2.1.height ≤ k :=
      (pairsRight_height_le hheight t e1 l).trans h
    rw [pairsRight_bin, pairsRight_bin, ← ihl t e1 h]
    simp only [ihr _ _ hl]

theorem pairs_congr (t : τ) (e1 e2 : Expr σ) (h : e1.height ≤ k) :
    pairs op step t e1 e2 = pairs op step' t e1 e2 := by
  induction e1 using Expr.chain_induction op generalizing t e2 with
  | operand e1 h1 =>
    rw [pairs_operand t h1, pairs_operand t h1, pairsRight_congr hstep hheight t e1 e2 h]
  | node l r ihl ihr =>
    simp only [Expr.height] at h
    rw [pairs_bin, pairs_bin, ihl t e2 (by omega)]
    simp only [ihr _ _ (by omega)]

/-- Under a node of the operator it is the operands' heights that count. -/
theorem pairs_node_congr (t : τ) (l r e2 : Expr σ) (h : max l.height r.height ≤ k) :
    pairs op step t (.bin op l r) e2 = pairs op step' t (.bin op l r) e2 := by
  have hl : pairs op step t l e2 = pairs op step' t l e2 :=
    pairs_congr hstep hheight t l e2 (by omega)
  have hr : ∀ t e2, pairs op step t r e2 = pairs op step' t r e2 :=
    fun t e2 => pairs_congr hstep hheight t r e2 (by omega)
  rw [pairs_bin, pairs_bin, hl]
  simp only [hr]

end Congr

/-- A chain stays one. -/
theorem pairs_isBin {op : Op} {step : τ → Expr σ → Expr σ → τ × Expr σ × Expr σ} (t : τ)
    (e1 : Expr σ) {e2 : Expr σ} (h : e2.isBin op = true) :
    (pairs op step t e1 e2).2.2.isBin op = true := by
  induction e1 using Expr.chain_induction op generalizing t e2 with
  | operand e1 h1 =>
    rw [pairs_operand t h1]
    cases e2 with
    | bin op' l r =>
      obtain rfl : op' = op := by simpa [Expr.isBin] using h
      rw [pairsRight_bin]
      exact h
    | symbol s => cases h
    | not e => cases h
    | comp c s s' => cases h
  | node l r ihl ihr => rw [pairs_bin]; exact ihr _ (ihl t h)

namespace Expr

variable [DecidableEq σ]

/-- Both are the same symbol, and a constant one that is not `m`. -/
def sameYesOrNo : Expr σ → Expr σ → Bool
  | symbol s, symbol t => s = t && s.isYesOrNo
  | _, _ => false

/-- `__expr_eliminate_eq` for two operands, under the equality that `expr_eq` is for
what they consist of. -/
def eliminateOperand (eq : Expr σ → Expr σ → Bool) (op : Op) (_ : Unit) (e1 e2 : Expr σ) :
    Unit × Expr σ × Expr σ :=
  if sameYesOrNo e1 e2 then ((), e1, e2)
  else if eq e1 e2 then ((), symbol op.unitSym, symbol op.unitSym)
  else ((), e1, e2)

/-- `__expr_eliminate_eq` -/
def eliminateChains (eq : Expr σ → Expr σ → Bool) (op : Op) (e1 e2 : Expr σ) : Expr σ × Expr σ :=
  (pairs op (eliminateOperand eq op) () e1 e2).2

/-- The first switch of `expr_eliminate_eq`, on the type of `e1`. -/
def eliminateFirst (eq : Expr σ → Expr σ → Bool) (e1 e2 : Expr σ) : Expr σ × Expr σ :=
  match e1 with
  | bin op _ _ => eliminateChains eq op e1 e2
  | _ => (e1, e2)

/-- The second one, on the type of `e2` when it is another. -/
def eliminateSecond (eq : Expr σ → Expr σ → Bool) (e1 e2 : Expr σ) : Expr σ × Expr σ :=
  match e2 with
  | bin op _ _ => if e1.isBin op then (e1, e2) else eliminateChains eq op e1 e2
  | _ => (e1, e2)

def eliminateEqWith (eq : Expr σ → Expr σ → Bool) (e1 e2 : Expr σ) : Expr σ × Expr σ :=
  let x := eliminateFirst eq e1 e2
  let y := eliminateSecond eq x.1 x.2
  (y.1.eliminateYn, y.2.eliminateYn)

/-- Both have come to one symbol. -/
def oneSymbol : Expr σ × Expr σ → Bool
  | (symbol s, symbol t) => s = t
  | _ => false

/-- `expr_eq`, for expressions up to a height. -/
def eqUpTo : Nat → Expr σ → Expr σ → Bool
  | _, symbol s, symbol t => s = t
  | _, comp c s s', comp c' t t' => c = c' && s = t && s' = t'
  | n + 1, not e1, not e2 => eqUpTo n e1 e2
  | n + 1, bin op l r, bin op' l' r' =>
    op = op' && oneSymbol (eliminateEqWith (eqUpTo n) (bin op l r) (bin op' l' r'))
  | _, _, _ => false

/-- `expr_eq` -/
def eq (e1 e2 : Expr σ) : Bool := eqUpTo e1.height e1 e2

/-- `expr_eliminate_eq` -/
def eliminateEq : Expr σ → Expr σ → Expr σ × Expr σ := eliminateEqWith eq

section Sound
variable {types : σ → SymbolType} {v : Values types}

theorem through_eliminateYn {e1 e2 : Expr σ} {x : Expr σ × Expr σ} (h : Through v e1 e2 x) :
    Through v e1 e2 (x.1.eliminateYn, x.2.eliminateYn) := by
  obtain ⟨f, hf, h1, h2⟩ := h
  exact ⟨f, hf, by rw [calcValue_eliminateYn, h1], by rw [calcValue_eliminateYn, h2]⟩

variable {eq : Expr σ → Expr σ → Bool}
  (heq : ∀ e1 e2, eq e1 e2 = true → e1.calcValue v = e2.calcValue v)
include heq

theorem eliminateOperand_shared (op : Op) (t : Unit) (e1 e2 : Expr σ) :
    Shared v (fun _ _ _ => True) op t e1 e2 (eliminateOperand eq op t e1 e2) := by
  have kept : Shared v (fun _ _ _ => True) op t e1 e2 ((), e1, e2) :=
    ⟨op.unit, trivial, by simp, by simp⟩
  unfold eliminateOperand
  split
  · exact kept
  split
  · next h => exact ⟨e1.calcValue v, trivial, by simp, by simp [heq e1 e2 h]⟩
  · exact kept

theorem eliminateChains_through (op : Op) (e1 e2 : Expr σ) :
    Through v e1 e2 (eliminateChains eq op e1 e2) :=
  Shared.through (pairs_shared (fun _ _ _ _ _ _ _ => trivial) (eliminateOperand_shared heq op) () e1 e2)

theorem eliminateFirst_through (e1 e2 : Expr σ) : Through v e1 e2 (eliminateFirst eq e1 e2) := by
  unfold eliminateFirst
  split
  · exact eliminateChains_through heq _ _ e2
  · exact .refl e1 e2

theorem eliminateSecond_through (e1 e2 : Expr σ) : Through v e1 e2 (eliminateSecond eq e1 e2) := by
  unfold eliminateSecond
  split
  · split
    · exact .refl e1 _
    · exact eliminateChains_through heq _ e1 _
  · exact .refl e1 e2

theorem eliminateEqWith_through (e1 e2 : Expr σ) : Through v e1 e2 (eliminateEqWith eq e1 e2) :=
  through_eliminateYn ((eliminateFirst_through heq e1 e2).trans (eliminateSecond_through heq _ _))

end Sound

theorem oneSymbol_eq {x : Expr σ × Expr σ} (h : oneSymbol x = true) : x.1 = x.2 := by
  obtain ⟨e1, e2⟩ := x
  cases e1 <;> cases e2 <;> first | cases h | skip
  rw [of_decide_eq_true h]

theorem eqUpTo_sound {types : σ → SymbolType} (v : Values types) (n : Nat) (e1 e2 : Expr σ)
    (h : eqUpTo n e1 e2 = true) : e1.calcValue v = e2.calcValue v := by
  induction n generalizing e1 e2 with
  | zero =>
    cases e1 <;> cases e2 <;> simp_all [eqUpTo]
  | succ n ih =>
    cases e1 <;> cases e2 <;> simp only [eqUpTo, Bool.and_eq_true, decide_eq_true_eq, reduceCtorEq] at h
    case symbol.symbol => rw [h]
    case comp.comp => obtain ⟨⟨rfl, rfl⟩, rfl⟩ := h; rfl
    case not.not e1 e2 => rw [calcValue, calcValue, ih e1 e2 h]
    case bin.bin op l r op' l' r' =>
      obtain ⟨f, -, h1, h2⟩ := eliminateEqWith_through ih (bin op l r) (bin op' l' r')
      rw [h1, h2, oneSymbol_eq h.2]

/-- Equal expressions are worth the same, whatever the symbols are. -/
theorem eq_sound {types : σ → SymbolType} (v : Values types) {e1 e2 : Expr σ}
    (h : e1.eq e2 = true) : e1.calcValue v = e2.calcValue v := eqUpTo_sound v _ e1 e2 h

/-- `expr_eliminate_eq` makes no two expressions comparable that were not so before. -/
theorem eliminateEq_through {types : σ → SymbolType} (v : Values types) (e1 e2 : Expr σ) :
    Through v e1 e2 (eliminateEq e1 e2) := eliminateEqWith_through (fun _ _ => eq_sound v) e1 e2

theorem eliminateEq_le {types : σ → SymbolType} (v : Values types) (e1 e2 : Expr σ)
    (h : (eliminateEq e1 e2).1.calcValue v ≤ (eliminateEq e1 e2).2.calcValue v) :
    e1.calcValue v ≤ e2.calcValue v := by
  obtain ⟨f, hmono, h1, h2⟩ := eliminateEq_through v e1 e2
  rw [h1, h2]
  exact hmono h

/-- Expressions that are found to be the same are worth the same. What is left of two
expressions when that which they share is taken out compares as they did, if at all. -/
theorem eliminateEq_correct {types : σ → SymbolType} (v : Values types) (e1 e2 : Expr σ) :
    (e1.eq e2 = true → e1.calcValue v = e2.calcValue v) ∧ Through v e1 e2 (eliminateEq e1 e2) ∧
      ((eliminateEq e1 e2).1.calcValue v ≤ (eliminateEq e1 e2).2.calcValue v → e1.calcValue v ≤ e2.calcValue v) :=
  ⟨eq_sound v, eliminateEq_through v e1 e2, eliminateEq_le v e1 e2⟩

section Height
variable {k : Nat} {eq eq' : Expr σ → Expr σ → Bool}

theorem eliminateOperand_height_le (op : Op) (t : Unit) (e1 e2 : Expr σ) :
    (eliminateOperand eq op t e1 e2).2.1.height ≤ e1.height := by
  unfold eliminateOperand
  split_ifs
  · exact le_refl _
  · exact Nat.zero_le _
  · exact le_refl _

theorem eliminateSecond_same {op : Op} {e1 e2 : Expr σ} (h1 : e1.isBin op = true)
    (h2 : e2.isBin op = true) : eliminateSecond eq e1 e2 = (e1, e2) := by
  cases e2 with
  | bin op' l r =>
    obtain rfl : op' = op := by simpa [isBin] using h2
    exact if_pos h1
  | symbol s => rfl
  | not e => rfl
  | comp c s t => rfl

/-- Two chains of one operator stay chains of it, so that the second switch does nothing,
and only what is lower than the first of them is compared. -/
theorem eliminateEqWith_congr (h : ∀ e1 e2, e1.height ≤ k → eq e1 e2 = eq' e1 e2) (op : Op)
    {l r : Expr σ} (hk : max l.height r.height ≤ k) (l' r' : Expr σ) :
    eliminateEqWith eq (bin op l r) (bin op l' r') = eliminateEqWith eq' (bin op l r) (bin op l' r') := by
  have hfirst : eliminateFirst eq (bin op l r) (bin op l' r') =
      eliminateFirst eq' (bin op l r) (bin op l' r') := by
    refine congrArg Prod.snd (pairs_node_congr ?_ (eliminateOperand_height_le op) () l r _ hk)
    intro t e1 e2 he
    unfold eliminateOperand
    rw [h e1 e2 he]
  have hleft : (eliminateFirst eq' (bin op l r) (bin op l' r')).1.isBin op = true := by
    simp only [eliminateFirst, eliminateChains, pairs_bin, isBin, beq_self_eq_true]
  have hright : (eliminateFirst eq' (bin op l r) (bin op l' r')).2.isBin op = true :=
    pairs_isBin () _ (by simp only [isBin, beq_self_eq_true])
  simp only [eliminateEqWith, hfirst, eliminateSecond_same hleft hright]

/-- Any height from that of the first expression on gives the same. -/
theorem eqUpTo_stable (n m : Nat) (e1 e2 : Expr σ) (hn : e1.height ≤ n) (hm : e1.height ≤ m) :
    eqUpTo n e1 e2 = eqUpTo m e1 e2 := by
  induction n generalizing m e1 e2 with
  | zero =>
    cases e1 <;> simp only [height, Nat.le_zero, reduceCtorEq, Nat.add_eq_zero_iff, and_false] at hn
    all_goals cases e2 <;> simp only [eqUpTo]
  | succ n ih =>
    cases e1 with
    | symbol s => cases e2 <;> simp only [eqUpTo]
    | comp c s t => cases e2 <;> simp only [eqUpTo]
    | not e1 =>
      simp only [height] at hn hm
      obtain ⟨m, rfl⟩ : ∃ m', m = m' + 1 := ⟨m - 1, by omega⟩
      cases e2 <;> simp only [eqUpTo]
      exact ih m e1 _ (by omega) (by omega)
    | bin op l r =>
      simp only [height] at hn hm
      obtain ⟨m, rfl⟩ : ∃ m', m = m' + 1 := ⟨m - 1, by omega⟩
      cases e2 <;> simp only [eqUpTo]
      next op' l' r' =>
        by_cases hop : op = op'
        · subst hop
          have hk : max l.height r.height ≤ min n m := by omega
          rw [eliminateEqWith_congr (fun e1 e2 he => ih m e1 e2 (by omega) (by omega)) op hk]
        · simp [hop]

end Height

theorem eqUpTo_eq {n : Nat} {e1 : Expr σ} (e2 : Expr σ) (h : e1.height ≤ n) :
    eqUpTo n e1 e2 = e1.eq e2 := eqUpTo_stable n e1.height e1 e2 h (le_refl _)

/-- `expr_eq` of two chains, with `expr_eliminate_eq` as the source calls it. -/
theorem eq_bin (op op' : Op) (l r l' r' : Expr σ) :
    (bin op l r).eq (bin op' l' r') =
      (op = op' && oneSymbol (eliminateEq (bin op l r) (bin op' l' r'))) := by
  by_cases h : op = op'
  · subst h
    have hbelow := fun (e1 e2 : Expr σ) (he : e1.height ≤ max l.height r.height) => eqUpTo_eq e2 he
    rw [eq, height, eqUpTo, eliminateEqWith_congr hbelow op (le_refl _), eliminateEq]
  · simp [eq, height, eqUpTo, h]

theorem eq_not (e1 e2 : Expr σ) : (not e1).eq (not e2) = e1.eq e2 := rfl

section Extract
variable (op : Op)

/-- `expr_extract_eq` for two operands. `ep` is what has been taken out so far. -/
def extractOperand (ep : Option (Expr σ)) (e1 e2 : Expr σ) : Option (Expr σ) × Expr σ × Expr σ :=
  if e1.eq e2 then
    (some (match ep with | some e => bin op e e1 | none => e1), symbol op.unitSym, symbol op.unitSym)
  else (ep, e1, e2)

/-- `expr_extract_eq` -/
def extractEq (ep : Option (Expr σ)) (e1 e2 : Expr σ) : Option (Expr σ) × Expr σ × Expr σ :=
  pairs op (extractOperand op) ep e1 e2

/-- `expr_extract_eq_and` and `expr_extract_eq_or` -/
def extractEqOf (e1 e2 : Expr σ) : Option (Expr σ) × Expr σ × Expr σ :=
  let x := extractEq op none e1 e2
  if x.1.isSome then (x.1, x.2.1.eliminateYn, x.2.2.eliminateYn) else x

def extractEqAnd : Expr σ → Expr σ → Option (Expr σ) × Expr σ × Expr σ := extractEqOf .and

def extractEqOr : Expr σ → Expr σ → Option (Expr σ) × Expr σ × Expr σ := extractEqOf .or

variable {types : σ → SymbolType} (v : Values types)

/-- What an expression that has not been begun yet is worth. -/
def taken : Option (Expr σ) → Tristate
  | some e => e.calcValue v
  | none => op.unit

variable {op v}

theorem extractOperand_shared (ep : Option (Expr σ)) (e1 e2 : Expr σ) :
    Shared v (fun t c t' => taken op v t' = op.apply (taken op v t) c) op ep e1 e2
      (extractOperand op ep e1 e2) := by
  unfold extractOperand
  split
  · next h =>
    refine ⟨e1.calcValue v, ?_, by simp, by simp [eq_sound v h]⟩
    cases ep <;> simp [taken]
  · exact ⟨op.unit, by simp, by simp, by simp⟩

/-- What was taken out of both and what is left of one make that one up. -/
theorem extractEqOf_sound (e1 e2 : Expr σ) :
    let x := extractEqOf op e1 e2
    e1.calcValue v = op.apply (x.2.1.calcValue v) (taken op v x.1) ∧
      e2.calcValue v = op.apply (x.2.2.calcValue v) (taken op v x.1) := by
  have hshared : Shared v (fun t c t' => taken op v t' = op.apply (taken op v t) c) op none e1 e2
      (extractEq op none e1 e2) :=
    pairs_shared (fun t c t' c' t'' h h' => by rw [h', h]; ac_rfl) extractOperand_shared none e1 e2
  obtain ⟨c, hkeep, h1, h2⟩ := hshared
  have hc : taken op v (extractEq op none e1 e2).1 = c := by simpa [extractEq, taken] using hkeep
  dsimp only [extractEqOf]
  split
  · simp only [calcValue_eliminateYn, hc]
    exact ⟨h1, h2⟩
  · rw [hc]
    exact ⟨h1, h2⟩

end Extract

end Expr

end Idic.Kconfig
