import Idic.Kconfig.Chain
import Idic.Kconfig.Join
import Idic.Kconfig.Transform

/-! Doing away with operands.

`expr_eliminate_dups` takes pairs of operands of a chain together, and looks for an
operand whose negation is in the chain as well. The chain is gone through against
itself, so that what is changed is seen by every later pair. A pair of which one is made
the unit is counted, and the passes go on as long as something was counted. -/
namespace Idic.Kconfig

variable {σ : Type}

namespace Expr

/-- The chain of an operator that an expression begins with. A position is the way down
to it. -/
def chain (op : Op) : Expr σ → Chain (List Bool)
  | bin op' l r =>
    if op' = op then .node ((l.chain op).map (false :: ·)) ((r.chain op).map (true :: ·)) else .operand []
  | _ => .operand []

def operandAt (op : Op) : Expr σ → List Bool → Expr σ
  | bin op' l r, p =>
    if op' = op then
      match p with
      | [] => bin op' l r
      | false :: p => l.operandAt op p
      | true :: p => r.operandAt op p
    else bin op' l r
  | e, _ => e

theorem chain_operand {op : Op} {e : Expr σ} (h : e.isBin op = false) : e.chain op = .operand [] := by
  cases e with
  | bin op' l r => rw [chain]; exact if_neg (by simpa [isBin] using h)
  | symbol s => rfl
  | not e => rfl
  | comp c s t => rfl

theorem operandAt_operand {op : Op} {e : Expr σ} (h : e.isBin op = false) (p : List Bool) :
    e.operandAt op p = e := by
  cases e with
  | bin op' l r => rw [operandAt.eq_def]; exact if_neg (by simpa [isBin] using h)
  | symbol s => rw [operandAt.eq_def]
  | not e => rw [operandAt.eq_def]
  | comp c s t => rw [operandAt.eq_def]

theorem chain_bin (op : Op) (l r : Expr σ) : (bin op l r).chain op =
    .node ((l.chain op).map (false :: ·)) ((r.chain op).map (true :: ·)) := by
  rw [chain]
  exact if_pos rfl

theorem operandAt_nil (op : Op) (l r : Expr σ) : (bin op l r).operandAt op [] = bin op l r := by
  rw [operandAt]
  exact if_pos rfl

theorem operandAt_false (op : Op) (l r : Expr σ) (p : List Bool) :
    (bin op l r).operandAt op (false :: p) = l.operandAt op p := by
  rw [operandAt]
  exact if_pos rfl

theorem operandAt_true (op : Op) (l r : Expr σ) (p : List Bool) :
    (bin op l r).operandAt op (true :: p) = r.operandAt op p := by
  rw [operandAt]
  exact if_pos rfl

/-- An expression is its chain with its operands in it. -/
theorem fold_chain (op : Op) (e : Expr σ) : (e.chain op).fold (bin op) (e.operandAt op) = e := by
  induction e using chain_induction op with
  | operand e h => rw [chain_operand h, Chain.fold, operandAt_operand h]
  | node l r ihl ihr =>
    have hl : (bin op l r).operandAt op ∘ (false :: ·) = l.operandAt op :=
      funext (operandAt_false op l r)
    have hr : (bin op l r).operandAt op ∘ (true :: ·) = r.operandAt op :=
      funext (operandAt_true op l r)
    rw [chain_bin, Chain.fold, Chain.fold_map, Chain.fold_map, hl, hr, ihl, ihr]

theorem chain_leaves_nodup (op : Op) (e : Expr σ) : (e.chain op).leaves.Nodup := by
  induction e using chain_induction op with
  | operand e h => rw [chain_operand h]; exact List.nodup_singleton _
  | node l r ihl ihr =>
    rw [chain_bin, Chain.leaves, Chain.leaves_map, Chain.leaves_map]
    refine List.nodup_append'.mpr ⟨ihl.map (List.cons_injective), ihr.map (List.cons_injective), ?_⟩
    intro p hl hr
    obtain ⟨q, -, rfl⟩ := List.mem_map.mp hl
    obtain ⟨q', -, hq⟩ := List.mem_map.mp hr
    cases hq

/-- The operands while a chain is gone through, and `trans_count`. -/
structure Sweep (σ : Type) where
  xs : List Bool → Expr σ
  count : Nat

section Sweep
variable [DecidableEq σ] (types : σ → SymbolType) (op : Op) (inner : Expr σ → Expr σ × Nat)

/-- The call for an operand that is a chain of the other operator. -/
def inside (i : List Bool) (s : Sweep σ) : Sweep σ :=
  if (s.xs i).isBin op.dual then
    let x := inner (s.xs i)
    ⟨Function.update s.xs i x.1, s.count + x.2⟩
  else s

/-- `expr_join_or` or `expr_join_and` for two operands. -/
def joinPair (i j : List Bool) (s : Sweep σ) : Sweep σ :=
  match join types op (s.xs i) (s.xs j) with
  | some tmp => ⟨Function.update (Function.update s.xs i (symbol op.unitSym)) j tmp, s.count + 1⟩
  | none => s

/-- `expr_eliminate_dups1` for two operands. -/
def dups1Pair (i j : List Bool) (s : Sweep σ) : Sweep σ :=
  if i = j then s else joinPair types op i j (inside op inner i s)

/-- (FOO || BAR) && (!FOO && !BAR) -> n -/
def cancel (i : List Bool) (d : Chain (List Bool)) (s : Sweep σ) : Sweep σ :=
  let tmp1 := (not (s.xs i)).transform types
  let x := extractEqOf op tmp1 (d.fold (bin op) s.xs)
  if x.2.1 = symbol op.unitSym then ⟨Function.update s.xs i (symbol op.zeroSym), s.count + 1⟩ else s

/-- `expr_eliminate_dups2` for an operand and a part of the chain. Behind the calls for
the parts of a part there is no return. -/
def dups2Pair (i : List Bool) (d : Chain (List Bool)) (s : Sweep σ) : Sweep σ :=
  if d = .operand i then s
  else if (s.xs i).isBin op.dual then cancel types op i d (inside op inner i s)
  else s

end Sweep

section Change
variable [DecidableEq σ] (types : σ → SymbolType)
variable (op : Op) (inner : Expr σ → Expr σ × Nat) (c : Chain (List Bool))

/-- What can be done to the operands of a chain: the other operator's chains in it are
worked on, two operands are joined, or one is made the zero that the chain cancels. -/
inductive Change : Sweep σ → Sweep σ → Prop
  | inner (s : Sweep σ) (i : List Bool) (hi : i ∈ c.leaves) (h : (s.xs i).isBin op.dual = true) :
    Change s ⟨Function.update s.xs i (inner (s.xs i)).1, s.count + (inner (s.xs i)).2⟩
  | join (s : Sweep σ) (i j : List Bool) (hi : i ∈ c.leaves) (hj : j ∈ c.leaves) (hij : i ≠ j)
    (tmp : Expr σ) (h : join types op (s.xs i) (s.xs j) = some tmp) :
    Change s ⟨Function.update (Function.update s.xs i (symbol op.unitSym)) j tmp, s.count + 1⟩
  | cancel (s : Sweep σ) (i : List Bool) (hi : i ∈ c.leaves) (hc : c ≠ .operand i)
    (h : ∀ v : Values types, op.apply ((s.xs i).calcValue v).not
      ((c.fold (bin op) s.xs).calcValue v) = (c.fold (bin op) s.xs).calcValue v) :
    Change s ⟨Function.update s.xs i (symbol op.zeroSym), s.count + 1⟩

variable {types op inner c}

theorem inside_change {i : List Bool} (hi : i ∈ c.leaves) (s : Sweep σ) :
    Relation.ReflTransGen (Change types op inner c) s (inside op inner i s) := by
  unfold inside
  split
  · next h => exact .single (.inner s i hi h)
  · exact .refl

theorem dups1Pair_change {i j : List Bool} (hi : i ∈ c.leaves) (hj : j ∈ c.leaves) (s : Sweep σ) :
    Relation.ReflTransGen (Change types op inner c) s (dups1Pair types op inner i j s) := by
  unfold dups1Pair
  split
  · exact .refl
  · next hij =>
    refine (inside_change hi s).trans ?_
    unfold joinPair
    split
    · next tmp h => exact .single (.join _ i j hi hj hij tmp h)
    · exact .refl

omit [DecidableEq σ] in
theorem calcValue_fold (v : Values types) (c : Chain (List Bool)) (xs : List Bool → Expr σ) :
    (c.fold (bin op) xs).calcValue v = c.fold op.apply (fun p => (xs p).calcValue v) :=
  Chain.fold_hom (fun _ _ => rfl) xs c

/-- When nothing but the unit is left of an expression, what it was is in the other one. -/
theorem extractEqOf_unit (v : Values types) {e1 e2 : Expr σ}
    (h : (extractEqOf op e1 e2).2.1 = symbol op.unitSym) :
    op.apply (e1.calcValue v) (e2.calcValue v) = e2.calcValue v := by
  have hsound : let x := extractEqOf op e1 e2
      e1.calcValue v = op.apply (x.2.1.calcValue v) (taken op v x.1) ∧
        e2.calcValue v = op.apply (x.2.2.calcValue v) (taken op v x.1) := extractEqOf_sound e1 e2
  obtain ⟨h1, h2⟩ := hsound
  rw [h, calcValue, Values.triOf_unitSym, Op.unit_apply] at h1
  rw [h1, h2, op.apply_comm, op.apply_assoc, op.apply_self]

/-- The negation of the operand is in the part, and the part is in the chain. -/
theorem cancel_change {i : List Bool} (hi : i ∈ c.leaves) (hc : c ≠ .operand i)
    {d : Chain (List Bool)} (hd : ∀ i ∈ d.leaves, i ∈ c.leaves) (s : Sweep σ) :
    Relation.ReflTransGen (Change types op inner c) s (cancel types op i d s) := by
  unfold cancel
  dsimp only
  split
  · next h =>
    refine .single (.cancel s i hi hc fun v => ?_)
    have hpart := extractEqOf_unit v h
    have hchain : op.apply ((d.fold (bin op) s.xs).calcValue v) ((c.fold (bin op) s.xs).calcValue v) =
        (c.fold (bin op) s.xs).calcValue v := by
      rw [calcValue_fold, calcValue_fold]
      exact Chain.fold_absorb _ hd
    rw [calcValue_transform, calcValue] at hpart
    rw [← hchain, ← op.apply_assoc, hpart]
  · exact .refl

theorem dups2Pair_change {i : List Bool} (hi : i ∈ c.leaves) {d : Chain (List Bool)}
    (hd : d ∈ c.parts) (s : Sweep σ) :
    Relation.ReflTransGen (Change types op inner c) s (dups2Pair types op inner i d s) := by
  unfold dups2Pair
  split_ifs with hskip hdual
  · exact .refl
  · have hc : c ≠ .operand i := by
      rintro rfl
      exact hskip (List.mem_singleton.mp hd)
    exact (inside_change hi s).trans (cancel_change hi hc (Chain.leaves_of_mem_parts hd) _)
  · exact .refl

end Change

section Pass
variable [DecidableEq σ] {τ : Type} {types : σ → SymbolType}

/-- How often the operator changes on the way down, seen from an operator. -/
def rank : Expr σ → Op → Nat
  | bin op' l r, op => max (l.rank op') (r.rank op') + if op' = op then 0 else 1
  | _, _ => 0

variable (types τ) in
/-- A way to go through a chain: against which targets, and what is done at a pair, under
the call for the other operator's chains. -/
structure Pass where
  targets : Chain (List Bool) → List τ
  pair : Op → (Expr σ → Expr σ × Nat) → List Bool → τ → Sweep σ → Sweep σ
  change : ∀ (op : Op) (inner : Expr σ → Expr σ × Nat) (c : Chain (List Bool)), ∀ i ∈ c.leaves,
    ∀ t ∈ targets c, ∀ s, Relation.ReflTransGen (Change types op inner c) s (pair op inner i t s)
  congr : ∀ (op : Op) (inner inner' : Expr σ → Expr σ × Nat) (i : List Bool) (t : τ) (s : Sweep σ),
    ((s.xs i).isBin op.dual = true → inner (s.xs i) = inner' (s.xs i)) →
      pair op inner i t s = pair op inner' i t s

namespace Pass

variable (P : Pass τ types)

/-- The chain of one operator, with the call for the chains of the other one in it. -/
def sweepChain (op : Op) (inner : Expr σ → Expr σ × Nat) (e : Expr σ) : Expr σ × Nat :=
  let c := e.chain op
  let s := Chain.sweep (P.pair op inner) (P.targets c) c.leaves ⟨e.operandAt op, 0⟩
  (c.fold (bin op) s.xs, s.count)

/-- For expressions below a rank. -/
def upTo : Nat → Op → Expr σ → Expr σ × Nat
  | 0, _, e => (e, 0)
  | n + 1, op, e => P.sweepChain op (upTo n op.dual) e

def run (op : Op) (e : Expr σ) : Expr σ × Nat := P.upTo (e.rank op + 1) op e

end Pass

omit [DecidableEq σ] in
theorem inside_congr {op : Op} {inner inner' : Expr σ → Expr σ × Nat} {i : List Bool} {s : Sweep σ}
    (h : (s.xs i).isBin op.dual = true → inner (s.xs i) = inner' (s.xs i)) :
    inside op inner i s = inside op inner' i s := by
  unfold inside
  split
  · next hdual => rw [h hdual]
  · rfl

variable (types)

/-- `expr_eliminate_dups1`, for a chain and itself. -/
def dups1 : Pass (List Bool) types where
  targets := Chain.leaves
  pair := dups1Pair types
  change _ _ _ _ hi _ hj s := dups1Pair_change hi hj s
  congr op inner inner' i j s h := by rw [dups1Pair, dups1Pair, inside_congr h]

/-- `expr_eliminate_dups2`, for a chain and itself. -/
def dups2 : Pass (Chain (List Bool)) types where
  targets := Chain.parts
  pair := dups2Pair types
  change _ _ _ _ hi _ hd s := dups2Pair_change hi hd s
  congr op inner inner' i d s h := by rw [dups2Pair, dups2Pair, inside_congr h]

/-- The loop's body, and `trans_count` after it. -/
def dupsPass : Expr σ → Expr σ × Nat
  | bin op l r =>
    let x := (dups1 types).run op (bin op l r)
    let y := (dups2 types).run op x.1
    (y.1, x.2 + y.2)
  | e => (e, 0)

/-- A property of the results of a pass, with an invariant of the operands that every
change keeps. -/
structure Kept (Q : Op → Expr σ → Expr σ × Nat → Prop) where
  Inv : Op → Expr σ → Sweep σ → Prop
  unchanged : ∀ op e, Q op e (e, 0)
  initial : ∀ op e, Inv op e ⟨e.operandAt op, 0⟩
  change : ∀ {op e inner}, (∀ x, Q op.dual x (inner x)) →
    ∀ {s s'}, Change types op inner (e.chain op) s s' → Inv op e s → Inv op e s'
  final : ∀ {op e s}, Inv op e s → Q op e ((e.chain op).fold (bin op) s.xs, s.count)

namespace Kept

variable {types} {Q : Op → Expr σ → Expr σ × Nat → Prop} (K : Kept types Q) (P : Pass τ types)
include K

theorem pair {op : Op} {inner : Expr σ → Expr σ × Nat} (hinner : ∀ x, Q op.dual x (inner x))
    {e : Expr σ} {i : List Bool} (hi : i ∈ (e.chain op).leaves) {t : τ}
    (ht : t ∈ P.targets (e.chain op)) {s : Sweep σ} (hs : K.Inv op e s) :
    K.Inv op e (P.pair op inner i t s) := by
  have hrun := P.change op inner (e.chain op) i hi t ht s
  generalize P.pair op inner i t s = s' at hrun
  induction hrun with
  | refl => exact hs
  | tail _ hlast ih => exact K.change hinner hlast ih

theorem upTo (n : Nat) (op : Op) (e : Expr σ) : Q op e (P.upTo n op e) := by
  induction n generalizing op e with
  | zero => exact K.unchanged op e
  | succ n ih =>
    exact K.final (Chain.sweep_invariant (fun i hi t ht s hs => K.pair P (ih op.dual) hi ht hs)
      (K.initial op e))

theorem run (op : Op) (e : Expr σ) : Q op e (P.run op e) := K.upTo P _ op e

end Kept

end Pass

end Expr

end Idic.Kconfig
