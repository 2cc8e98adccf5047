import Idic.Kconfig.Passes

/-! `expr_eliminate_dups`.

The passes call themselves for the chains inside a chain, and are repeated as long as
something was counted. What comes out is worth what went in wherever that is `n` or `y`,
and no two of its operands can be joined any more. -/
namespace Idic.Kconfig

variable {σ τ : Type} [DecidableEq σ] {types : σ → SymbolType}

namespace Expr

open Tristate (Sharpens)

section Calls
variable (P : Pass τ types)

/-- Any bound above the rank gives the same. -/
theorem Pass.upTo_stable (n m : Nat) (op : Op) (e : Expr σ) (hn : e.rank op < n) (hm : e.rank op < m) :
    P.upTo n op e = P.upTo m op e := by
  induction n generalizing m op e with
  | zero => exact absurd hn (Nat.not_lt_zero _)
  | succ n ih =>
    obtain ⟨m, rfl⟩ : ∃ m', m = m' + 1 := ⟨m - 1, by omega⟩
    have hsweep : Chain.sweep (P.pair op (P.upTo n op.dual)) (P.targets (e.chain op)) (e.chain op).leaves
        ⟨e.operandAt op, 0⟩ = Chain.sweep (P.pair op (P.upTo m op.dual)) (P.targets (e.chain op))
          (e.chain op).leaves ⟨e.operandAt op, 0⟩ := by
      refine Chain.sweep_congr (fun i _ t _ s hs => P.congr op _ _ i t s fun hdual => ?_)
        (fun i hi t ht s hs => keptRank.pair P (keptRank.upTo P n op.dual) hi ht hs)
        (operandAt_rank_le op e)
      have hi := hs i
      rw [rank_dual hdual] at hi
      exact ih m op.dual (s.xs i) (by omega) (by omega)
    rw [upTo, upTo, sweepChain, sweepChain, hsweep]

/-- A pass over a chain calls itself for the chains of the other operator in it. -/
theorem Pass.run_eq (op : Op) (e : Expr σ) : P.run op e = P.sweepChain op (P.run op.dual) e := by
  have hsweep : Chain.sweep (P.pair op (P.upTo (e.rank op) op.dual)) (P.targets (e.chain op))
      (e.chain op).leaves ⟨e.operandAt op, 0⟩ = Chain.sweep (P.pair op (P.run op.dual))
        (P.targets (e.chain op)) (e.chain op).leaves ⟨e.operandAt op, 0⟩ := by
    refine Chain.sweep_congr (fun i _ t _ s hs => P.congr op _ _ i t s fun hdual => ?_)
      (fun i hi t ht s hs => keptRank.pair P (keptRank.upTo P _ op.dual) hi ht hs)
      (operandAt_rank_le op e)
    have hi := hs i
    rw [rank_dual hdual] at hi
    exact P.upTo_stable _ _ op.dual (s.xs i) hi (Nat.lt_succ_self _)
  rw [run, upTo, sweepChain, sweepChain, hsweep]

end Calls

section Loop

variable (types)

theorem dupsPass_size_le (e : Expr σ) : (dupsPass types e).1.size ≤ e.size := by
  cases e with
  | bin op l r =>
    exact (keptSize.run (dups2 types) op _).trans (keptSize.run (dups1 types) op _)
  | symbol s => exact le_refl _
  | not e => exact le_refl _
  | comp c s t => exact le_refl _

theorem dupsPass_count (e : Expr σ) :
    ((dupsPass types e).2 = 0 ∧ (dupsPass types e).1 = e) ∨
      (0 < (dupsPass types e).2 ∧ (dupsPass types e).1.Loose) := by
  cases e with
  | bin op l r =>
    have h1 := keptCount.run (dups1 types) op (bin op l r)
    have h2 := keptCount.run (dups2 types) op ((dups1 types).run op (bin op l r)).1
    dsimp only [dupsPass]
    rcases h2 with ⟨hcount, hsame⟩ | ⟨hcount, hloose⟩
    · rw [hcount, hsame]
      exact h1
    · exact .inr ⟨Nat.lt_of_lt_of_le hcount (Nat.le_add_left _ _), hloose⟩
  | symbol s => exact .inl ⟨rfl, rfl⟩
  | not e => exact .inl ⟨rfl, rfl⟩
  | comp c s t => exact .inl ⟨rfl, rfl⟩

/-- A pass that has counted something makes the expression smaller. -/
theorem dupsPass_size_lt {e : Expr σ} (h : (dupsPass types e).2 ≠ 0) :
    (dupsPass types e).1.eliminateYn.size < e.size := by
  rcases dupsPass_count types e with ⟨hcount, -⟩ | ⟨-, hloose⟩
  · exact absurd hcount h
  · exact Nat.lt_of_lt_of_le hloose (dupsPass_size_le types e)

/-- `expr_eliminate_dups` -/
def eliminateDups (e : Expr σ) : Expr σ :=
  if (dupsPass types e).2 = 0 then (dupsPass types e).1
  else eliminateDups (dupsPass types e).1.eliminateYn
termination_by e.size
decreasing_by exact dupsPass_size_lt types ‹_›

variable {types}

/-- A property of one expression and another that both steps of the loop keep. -/
theorem eliminateDups_induction {R : Expr σ → Expr σ → Prop}
    (trans : ∀ {a b c}, R a b → R b c → R a c) (pass : ∀ e, R e (dupsPass types e).1)
    (yn : ∀ e, R e e.eliminateYn) (e : Expr σ) : R e (eliminateDups types e) := by
  induction hn : e.size using Nat.strongRecOn generalizing e with
  | ind n ih =>
    rw [eliminateDups]
    split
    · exact pass e
    · next h =>
      have hlt := dupsPass_size_lt types h
      exact trans (trans (pass e) (yn _)) (ih _ (hn ▸ hlt) _ rfl)

theorem dupsPass_sharpens (v : Values types) (e : Expr σ) :
    Sharpens (e.calcValue v) ((dupsPass types e).1.calcValue v) := by
  cases e with
  | bin op l r =>
    exact ((keptValue v).run (dups1 types) op _).trans ((keptValue v).run (dups2 types) op _)
  | symbol s => exact .refl _
  | not e => exact .refl _
  | comp c s t => exact .refl _

/-- An expression that is `n` or `y` stays so. One that is `m` may become either. -/
theorem eliminateDups_sharpens (v : Values types) (e : Expr σ) :
    Sharpens (e.calcValue v) ((eliminateDups types e).calcValue v) :=
  eliminateDups_induction (R := fun a b => Sharpens (a.calcValue v) (b.calcValue v))
    (fun h h' => h.trans h') (dupsPass_sharpens v) (fun e => .inr (calcValue_eliminateYn v e)) e

theorem shortcut_nnf (op : Op) {l r : Expr σ} (hl : l.Nnf) (hr : r.Nnf) : (shortcut op l r).Nnf := by
  unfold shortcut
  split_ifs
  · trivial
  · exact hr
  · trivial
  · exact hl
  · exact ⟨hl, hr⟩

theorem eliminateYn_nnf {e : Expr σ} (h : e.Nnf) : e.eliminateYn.Nnf := by
  induction e with
  | symbol s => exact h
  | not e => exact h
  | comp c s t => exact h
  | bin op l r ihl ihr => exact shortcut_nnf op (ihl h.1) (ihr h.2)

theorem dupsPass_nnf {e : Expr σ} (h : e.Nnf) : (dupsPass types e).1.Nnf := by
  cases e with
  | bin op l r => exact keptNnf.run (dups2 types) op _ (keptNnf.run (dups1 types) op _ h)
  | symbol s => exact h
  | not e => exact h
  | comp c s t => exact h

theorem eliminateDups_nnf {e : Expr σ} (h : e.Nnf) : (eliminateDups types e).Nnf :=
  eliminateDups_induction (R := fun a b => a.Nnf → b.Nnf) (fun h h' he => h' (h he))
    (fun _ => dupsPass_nnf) (fun _ => eliminateYn_nnf) e h

/-- The last pass found nothing to do. -/
theorem dupsPass_eliminateDups (e : Expr σ) :
    dupsPass types (eliminateDups types e) = (eliminateDups types e, 0) := by
  induction hn : e.size using Nat.strongRecOn generalizing e with
  | ind n ih =>
    rw [eliminateDups]
    split
    · next h =>
      rcases dupsPass_count types e with ⟨-, hsame⟩ | ⟨hpos, -⟩
      · rw [hsame]
        exact Prod.ext hsame h
      · exact absurd h hpos.ne'
    · next h => exact ih _ (hn ▸ dupsPass_size_lt types h) _ rfl

theorem eliminateDups_idem (e : Expr σ) :
    eliminateDups types (eliminateDups types e) = eliminateDups types e := by
  have hlast : dupsPass types (eliminateDups types e) = (eliminateDups types e, 0) :=
    dupsPass_eliminateDups e
  rw [eliminateDups, if_pos (congrArg Prod.snd hlast), congrArg Prod.fst hlast]

end Loop

section Reduced

variable (types) in
/-- No two operands of the chain can be joined, and none of the chains in it has two that
can be. -/
inductive ReducedChain : Op → Expr σ → Prop
  | mk (op : Op) (e : Expr σ)
    (apart : ∀ i ∈ (e.chain op).leaves, ∀ j ∈ (e.chain op).leaves, i ≠ j →
      join types op (e.operandAt op i) (e.operandAt op j) = none)
    (inner : ∀ i ∈ (e.chain op).leaves, (e.operandAt op i).isBin op.dual = true →
      ReducedChain op.dual (e.operandAt op i)) : ReducedChain op e

variable (types) in
def Reduced (e : Expr σ) : Prop := ∀ op, e.isBin op = true → ReducedChain types op e

section Quiet
variable {op : Op} {inner : Expr σ → Expr σ × Nat} {i j : List Bool} {s : Sweep σ}

omit [DecidableEq σ] in
theorem inside_count_le : s.count ≤ (inside op inner i s).count := by
  unfold inside
  split
  · exact Nat.le_add_right _ _
  · exact le_refl _

theorem joinPair_count_le : s.count ≤ (joinPair types op i j s).count := by
  unfold joinPair
  split
  · exact Nat.le_succ _
  · exact le_refl _

theorem joinPair_quiet (h : (joinPair types op i j s).count = s.count) :
    joinPair types op i j s = s ∧ join types op (s.xs i) (s.xs j) = none := by
  unfold joinPair at *
  split at h
  · exact absurd h (Nat.succ_ne_self _)
  · next hnone => exact ⟨rfl, hnone⟩

theorem inside_quiet (hinner : ∀ x, ((inner x).2 = 0 ∧ (inner x).1 = x) ∨ (0 < (inner x).2 ∧ (inner x).1.Loose))
    (h : (inside op inner i s).count = s.count) :
    inside op inner i s = s ∧ ((s.xs i).isBin op.dual = true → (inner (s.xs i)).2 = 0) := by
  unfold inside at *
  split at h
  · next hdual =>
    dsimp only at h
    have hcount : (inner (s.xs i)).2 = 0 := by omega
    rcases hinner (s.xs i) with ⟨-, hsame⟩ | ⟨hpos, -⟩
    · refine ⟨?_, fun _ => hcount⟩
      rw [if_pos hdual]
      dsimp only
      rw [hsame, hcount, Function.update_eq_self]
      rfl
    · exact absurd hcount hpos.ne'
  · next hdual => exact ⟨if_neg hdual, fun h => absurd h hdual⟩

theorem dups1Pair_count_le : s.count ≤ (dups1Pair types op inner i j s).count := by
  unfold dups1Pair
  split
  · exact le_refl _
  · exact inside_count_le.trans joinPair_count_le

/-- Where nothing is counted for two operands, they cannot be joined. -/
theorem dups1Pair_quiet
    (hinner : ∀ x, ((inner x).2 = 0 ∧ (inner x).1 = x) ∨ (0 < (inner x).2 ∧ (inner x).1.Loose))
    (h : (dups1Pair types op inner i j s).count = s.count) :
    dups1Pair types op inner i j s = s ∧ (i ≠ j → join types op (s.xs i) (s.xs j) = none ∧
      ((s.xs i).isBin op.dual = true → (inner (s.xs i)).2 = 0)) := by
  unfold dups1Pair at *
  split at h
  · next hij => exact ⟨if_pos hij, fun h => absurd hij h⟩
  · next hij =>
    have hinside : s.count ≤ (inside op inner i s).count := inside_count_le
    have hjoin : (inside op inner i s).count ≤ (joinPair types op i j (inside op inner i s)).count :=
      joinPair_count_le
    have hcount : (inside op inner i s).count = s.count := by omega
    obtain ⟨hsame, hchain⟩ := inside_quiet hinner hcount
    rw [hsame] at h
    obtain ⟨hpair, hnone⟩ := joinPair_quiet h
    rw [if_neg hij, hsame]
    exact ⟨hpair, fun _ => ⟨hnone, hchain⟩⟩

end Quiet

omit [DecidableEq σ] in
theorem exists_other_leaf {op : Op} {e : Expr σ} (h : e.isBin op = true) {i : List Bool}
    (hi : i ∈ (e.chain op).leaves) : ∃ j ∈ (e.chain op).leaves, i ≠ j := by
  cases e with
  | bin op' l r =>
    obtain rfl : op' = op := by simpa [isBin] using h
    rw [chain_bin, Chain.leaves, Chain.leaves_map, Chain.leaves_map] at *
    obtain ⟨p, hp⟩ := Chain.exists_mem_leaves (l.chain op')
    obtain ⟨q, hq⟩ := Chain.exists_mem_leaves (r.chain op')
    rcases List.mem_append.mp hi with hi | hi
    · obtain ⟨p', -, rfl⟩ := List.mem_map.mp hi
      exact ⟨_, List.mem_append_right _ (List.mem_map_of_mem hq), by simp⟩
    · obtain ⟨q', -, rfl⟩ := List.mem_map.mp hi
      exact ⟨_, List.mem_append_left _ (List.mem_map_of_mem hp), by simp⟩
  | symbol s => cases h
  | not e => cases h
  | comp c s t => cases h

theorem reducedChain_of_count {op : Op} {e : Expr σ} (he : e.isBin op = true)
    (h : ((dups1 types).run op e).2 = 0) : ReducedChain types op e := by
  induction hn : e.rank op using Nat.strongRecOn generalizing op e with
  | ind n ih =>
    rw [Pass.run_eq] at h
    have hinner := keptCount.run (dups1 types) op.dual
    obtain ⟨-, hall⟩ := Chain.sweep_quiet Sweep.count (fun i j s => dups1Pair_count_le)
      (fun i j s hsame => (dups1Pair_quiet hinner hsame).1) h
    have hpair := fun i hi j hj => (dups1Pair_quiet hinner (congrArg Sweep.count (hall i hi j hj))).2
    refine .mk op e (fun i hi j hj hij => (hpair i hi j hj hij).1) fun i hi hdual => ?_
    obtain ⟨j, hj, hij⟩ := exists_other_leaf he hi
    have hrank := operandAt_rank_le op e i
    rw [rank_dual hdual] at hrank
    exact ih _ (by omega) hdual ((hpair i hi j hj hij).2 hdual) rfl

theorem eliminateDups_reduced (e : Expr σ) : Reduced types (eliminateDups types e) := by
  intro op he
  have hlast : (dupsPass types (eliminateDups types e)).2 = 0 :=
    congrArg Prod.snd (dupsPass_eliminateDups e)
  cases hresult : eliminateDups types e with
  | bin op' l r =>
    rw [hresult] at he hlast
    obtain rfl : op' = op := by simpa [isBin] using he
    simp only [dupsPass] at hlast
    exact reducedChain_of_count he (by omega)
  | symbol s => rw [hresult] at he; cases he
  | not e => rw [hresult] at he; cases he
  | comp c s t => rw [hresult] at he; cases he

/-- What comes out has no two operands that could be joined, stays as it is, and is worth
what went in where that was decided. -/
theorem eliminateDups_correct (e : Expr σ) :
    Reduced types (eliminateDups types e) ∧
      eliminateDups types (eliminateDups types e) = eliminateDups types e ∧
      ∀ v : Values types, Sharpens (e.calcValue v) ((eliminateDups types e).calcValue v) :=
  ⟨eliminateDups_reduced e, eliminateDups_idem e, fun v => eliminateDups_sharpens v e⟩

end Reduced

end Expr

end Idic.Kconfig
