import Idic.Kconfig.Duplicates

/-! What the passes of `expr_eliminate_dups` keep.

A pass leaves the value as it is, but for `m`, which a cancelled chain makes `n` or `y`:
there the value gets sharper. A pass that has counted something leaves an operand that
`expr_eliminate_yn` takes away, so that the expression gets smaller and the loop ends. -/
namespace Idic.Kconfig

variable {σ : Type} [DecidableEq σ] {types : σ → SymbolType}

namespace Expr

open Tristate (Sharpens)

section Value
variable (v : Values types)

theorem Change.sharpens {op : Op} {inner : Expr σ → Expr σ × Nat} {c : Chain (List Bool)}
    (hinner : ∀ x, Sharpens (x.calcValue v) ((inner x).1.calcValue v)) {s s' : Sweep σ}
    (h : Change types op inner c s s') :
    Sharpens ((c.fold (bin op) s.xs).calcValue v) ((c.fold (bin op) s'.xs).calcValue v) := by
  cases h with
  | inner i hi hdual =>
    rw [calcValue_fold, calcValue_fold]
    refine Chain.fold_rel Op.sharpens_apply (fun p => ?_) c
    dsimp only
    by_cases hp : p = i
    · subst hp
      rw [Function.update_self]
      exact hinner _
    · rw [Function.update_of_ne hp]
      exact .refl _
  | join i j hi hj hij tmp h =>
    have hsame : c.fold op.apply (fun p => (s.xs p).calcValue v) = c.fold op.apply (fun p =>
        (Function.update (Function.update s.xs i (symbol op.unitSym)) j tmp p).calcValue v) := by
      refine Chain.fold_exchange hi hj ?_ fun p hpi hpj => ?_
      · rw [Function.update_of_ne hij, Function.update_self, Function.update_self, calcValue,
          Values.triOf_unitSym, Op.unit_apply, calcValue_join v h]
      · rw [Function.update_of_ne hpj, Function.update_of_ne hpi]
    rw [calcValue_fold, calcValue_fold, hsame]
    exact .refl _
  | cancel i hi hc h =>
    have hleaves : ∀ p ∈ (Chain.operand i).leaves, p ∈ c.leaves := fun p hp =>
      List.mem_singleton.mp hp ▸ hi
    have hoperand : op.apply ((s.xs i).calcValue v) ((c.fold (bin op) s.xs).calcValue v) =
        (c.fold (bin op) s.xs).calcValue v := by
      rw [calcValue_fold]
      exact Chain.fold_absorb _ hleaves
    have hzero : (c.fold (bin op) (Function.update s.xs i (symbol op.zeroSym))).calcValue v = op.zero := by
      rw [calcValue_fold]
      have habsorb : op.apply _ _ = _ := Chain.fold_absorb
        (fun p => (Function.update s.xs i (symbol op.zeroSym) p).calcValue v) hleaves
      rw [← habsorb, Chain.fold, Function.update_self, calcValue, Values.triOf_zeroSym, Op.zero_apply]
    rw [hzero]
    exact Op.sharpens_contradiction hoperand (h v)

/-- The value gets no other way than from `m` to `n` or `y`. -/
def keptValue : Kept types fun _ e x => Sharpens (e.calcValue v) (x.1.calcValue v) where
  Inv op e s := Sharpens (e.calcValue v) (((e.chain op).fold (bin op) s.xs).calcValue v)
  unchanged _ _ := .refl _
  initial op e := by rw [fold_chain]; exact .refl _
  change hinner _ _ h hs := hs.trans (h.sharpens v hinner)
  final hs := hs

end Value

omit [DecidableEq σ] in
theorem update_all {P : Expr σ → Prop} {xs : List Bool → Expr σ} (hxs : ∀ p, P (xs p)) (i : List Bool)
    {e : Expr σ} (he : P e) (p : List Bool) : P (Function.update xs i e p) := by
  by_cases hp : p = i
  · rw [hp, Function.update_self]
    exact he
  · rw [Function.update_of_ne hp]
    exact hxs p

section Nnf

omit [DecidableEq σ] in
theorem operandAt_nnf (op : Op) {e : Expr σ} (h : e.Nnf) (p : List Bool) : (e.operandAt op p).Nnf := by
  induction e using chain_induction op generalizing p with
  | operand e he => rw [operandAt_operand he]; exact h
  | node l r ihl ihr =>
    cases p with
    | nil => rw [operandAt_nil]; exact h
    | cons b p =>
      cases b with
      | false => rw [operandAt_false]; exact ihl h.1 p
      | true => rw [operandAt_true]; exact ihr h.2 p

omit [DecidableEq σ] in
theorem IsLeaf.nnf {e : Expr σ} (h : e.IsLeaf) : e.Nnf := by
  cases e with
  | symbol s => trivial
  | comp c s t => trivial
  | not e => exact h.elim
  | bin op l r => exact h.elim

/-- Negations stay before symbols. -/
def keptNnf : Kept types fun _ e x => e.Nnf → x.1.Nnf where
  Inv _ e s := e.Nnf → ∀ p, (s.xs p).Nnf
  unchanged _ _ := id
  initial op e h p := operandAt_nnf op h p
  change := by
    intro op e inner hinner s s' h hs he
    have hxs := hs he
    have hsymbol : ∀ t : Sym σ, (symbol t).Nnf := fun _ => trivial
    cases h with
    | inner i hi hdual => exact update_all hxs i (hinner _ (hxs i))
    | join i j hi hj hij tmp h =>
      have htmp : tmp.Nnf := by
        rcases join_form h with rfl | hleaf
        · exact hxs i
        · exact hleaf.nnf
      exact update_all (P := Nnf) (update_all (P := Nnf) hxs i (hsymbol op.unitSym)) j htmp
    | cancel i hi hc h => exact update_all (P := Nnf) hxs i (hsymbol op.zeroSym)
  final hs he := Chain.fold_all (fun _ _ ha hb => ⟨ha, hb⟩) (hs he) _

end Nnf

section Rank

omit [DecidableEq σ] in
theorem rank_node (op : Op) (l r : Expr σ) : (bin op l r).rank op = max (l.rank op) (r.rank op) := by
  rw [rank, if_pos rfl, Nat.add_zero]

omit [DecidableEq σ] in
theorem rank_le_succ (e : Expr σ) (op op' : Op) : e.rank op ≤ e.rank op' + 1 := by
  cases e with
  | bin op'' l r =>
    simp only [rank]
    split_ifs <;> omega
  | symbol s => exact Nat.zero_le _
  | not e => exact Nat.zero_le _
  | comp c s t => exact Nat.zero_le _

omit [DecidableEq σ] in
theorem rank_dual {op : Op} {e : Expr σ} (h : e.isBin op.dual = true) : e.rank op = e.rank op.dual + 1 := by
  cases e with
  | bin op' l r =>
    obtain rfl : op' = op.dual := by simpa [isBin] using h
    cases op <;> rfl
  | symbol s => cases h
  | not e => cases h
  | comp c s t => cases h

omit [DecidableEq σ] in
theorem operandAt_rank_le (op : Op) (e : Expr σ) (p : List Bool) :
    (e.operandAt op p).rank op ≤ e.rank op := by
  induction e using chain_induction op generalizing p with
  | operand e he => rw [operandAt_operand he]
  | node l r ihl ihr =>
    cases p with
    | nil => rw [operandAt_nil]
    | cons b p =>
      cases b with
      | false => rw [operandAt_false, rank_node]; exact (ihl p).trans (le_max_left _ _)
      | true => rw [operandAt_true, rank_node]; exact (ihr p).trans (le_max_right _ _)

omit [DecidableEq σ] in
theorem IsLeaf.rank_eq {e : Expr σ} (h : e.IsLeaf) (op : Op) : e.rank op = 0 := by
  cases e with
  | symbol s => rfl
  | comp c s t => rfl
  | not e => exact h.elim
  | bin op l r => exact h.elim

theorem Change.rank_le {op : Op} {inner : Expr σ → Expr σ × Nat} {c : Chain (List Bool)} {k : Nat}
    (hinner : ∀ x, (inner x).1.rank op.dual ≤ x.rank op.dual) {s s' : Sweep σ}
    (h : Change types op inner c s s') (hxs : ∀ p, (s.xs p).rank op ≤ k) :
    ∀ p, (s'.xs p).rank op ≤ k := by
  have hsymbol : ∀ t : Sym σ, (symbol t).rank op ≤ k := fun _ => Nat.zero_le k
  cases h with
  | inner i hi hdual =>
    refine update_all (P := fun x => x.rank op ≤ k) hxs i ?_
    have hi := hxs i
    rw [rank_dual hdual] at hi
    exact (rank_le_succ _ op op.dual).trans ((Nat.succ_le_succ (hinner _)).trans hi)
  | join i j hi hj hij tmp h =>
    have htmp : tmp.rank op ≤ k := by
      rcases join_form h with rfl | hleaf
      · exact hxs i
      · exact (hleaf.rank_eq op).trans_le (Nat.zero_le k)
    exact update_all (P := fun x => x.rank op ≤ k)
      (update_all (P := fun x => x.rank op ≤ k) hxs i (hsymbol op.unitSym)) j htmp
  | cancel i hi hc h => exact update_all (P := fun x => x.rank op ≤ k) hxs i (hsymbol op.zeroSym)

def keptRank : Kept types fun op e x => x.1.rank op ≤ e.rank op where
  Inv op e s := ∀ p, (s.xs p).rank op ≤ e.rank op
  unchanged _ _ := le_refl _
  initial op e := operandAt_rank_le op e
  change hinner _ _ h := h.rank_le hinner
  final {op e s} hs := by
    have hnode : ∀ a b : Expr σ, a.rank op ≤ e.rank op → b.rank op ≤ e.rank op →
        (bin op a b).rank op ≤ e.rank op :=
      fun a b ha hb => (rank_node op a b).trans_le (max_le ha hb)
    exact Chain.fold_all (P := fun x : Expr σ => x.rank op ≤ e.rank op) hnode hs (e.chain op)

end Rank

section Size

omit [DecidableEq σ] in
theorem size_fold (op : Op) (xs : List Bool → Expr σ) (c : Chain (List Bool)) :
    (c.fold (bin op) xs).size = c.total fun p => (xs p).size :=
  Chain.fold_hom (fun _ _ => rfl) xs c

omit [DecidableEq σ] in
theorem IsLeaf.size_eq {e : Expr σ} (h : e.IsLeaf) : e.size = 1 := by
  cases e with
  | symbol s => rfl
  | comp c s t => rfl
  | not e => exact h.elim
  | bin op l r => exact h.elim

omit [DecidableEq σ] in
theorem size_update (op : Op) {c : Chain (List Bool)} (hc : c.leaves.Nodup) (xs : List Bool → Expr σ)
    {i : List Bool} (hi : i ∈ c.leaves) (e : Expr σ) :
    (c.fold (bin op) (Function.update xs i e)).size + (xs i).size =
      (c.fold (bin op) xs).size + e.size := by
  have hcomp : (fun p => (Function.update xs i e p).size) =
      Function.update (fun p => (xs p).size) i e.size :=
    Function.comp_update size xs i e
  rw [size_fold, size_fold, hcomp]
  exact Chain.total_update _ _ hc hi

theorem Change.size_le {op : Op} {inner : Expr σ → Expr σ × Nat} {c : Chain (List Bool)}
    (hc : c.leaves.Nodup) (hinner : ∀ x, (inner x).1.size ≤ x.size) {s s' : Sweep σ}
    (h : Change types op inner c s s') : (c.fold (bin op) s'.xs).size ≤ (c.fold (bin op) s.xs).size := by
  cases h with
  | inner i hi hdual =>
    have hsum := size_update op hc s.xs hi (inner (s.xs i)).1
    have hle := hinner (s.xs i)
    dsimp only
    omega
  | join i j hi hj hij tmp h =>
    have hsum := size_update op hc s.xs hi (symbol op.unitSym)
    have hsum' := size_update op hc (Function.update s.xs i (symbol op.unitSym)) hj tmp
    rw [Function.update_of_ne hij.symm] at hsum'
    have hpos := (s.xs i).size_pos
    have hpos' := (s.xs j).size_pos
    have hunit : (symbol op.unitSym : Expr σ).size = 1 := rfl
    dsimp only
    rcases join_form h with rfl | hleaf
    · omega
    · have htmp := hleaf.size_eq
      omega
  | cancel i hi hcne h =>
    have hsum := size_update op hc s.xs hi (symbol op.zeroSym)
    have hpos := (s.xs i).size_pos
    have hzero : (symbol op.zeroSym : Expr σ).size = 1 := rfl
    dsimp only
    omega

def keptSize : Kept types fun _ e x => x.1.size ≤ e.size where
  Inv op e s := ((e.chain op).fold (bin op) s.xs).size ≤ e.size
  unchanged _ _ := le_refl _
  initial op e := by rw [fold_chain]
  change hinner _ _ h hs := (h.size_le (chain_leaves_nodup _ _) hinner).trans hs
  final hs := hs

end Size

section Loose

/-- `expr_eliminate_yn` makes the expression smaller. -/
def Loose (e : Expr σ) : Prop := e.eliminateYn.size < e.size

theorem Loose.bin {op : Op} {l r : Expr σ} (h : l.Loose ∨ r.Loose) : (bin op l r).Loose := by
  have hl := l.eliminateYn_size_le
  have hr := r.eliminateYn_size_le
  have hle := shortcut_size_le op l.eliminateYn r.eliminateYn
  simp only [Loose, eliminateYn, size] at h ⊢
  omega

theorem shortcut_size_lt {op : Op} {l r : Expr σ} {t : Sym σ} (ht : t = op.unitSym ∨ t = op.zeroSym)
    (h : l = symbol t ∨ r = symbol t) : (shortcut op l r).size < l.size + r.size + 1 := by
  have hl := l.size_pos
  have hr := r.size_pos
  have hone : ∀ t : Sym σ, (symbol t : Expr σ).size = 1 := fun _ => rfl
  unfold shortcut
  split_ifs with h1 h2 h3 h4
  · rw [hone]; omega
  · omega
  · rw [hone]; omega
  · omega
  · rcases ht with rfl | rfl <;> rcases h with rfl | rfl <;> contradiction

/-- A node one of whose sides decides or changes nothing. -/
theorem loose_of_side {op : Op} {l r : Expr σ} {t : Sym σ} (ht : t = op.unitSym ∨ t = op.zeroSym)
    (h : l = symbol t ∨ r = symbol t) : (bin op l r).Loose := by
  have hl := l.eliminateYn_size_le
  have hr := r.eliminateYn_size_le
  have hlt : (shortcut op l.eliminateYn r.eliminateYn).size <
      l.eliminateYn.size + r.eliminateYn.size + 1 := by
    refine shortcut_size_lt ht (h.imp ?_ ?_)
    · exact fun h => (congrArg eliminateYn h).trans rfl
    · exact fun h => (congrArg eliminateYn h).trans rfl
  simp only [Loose, eliminateYn, size]
  omega

/-- At a position something was done that `expr_eliminate_yn` goes on with. -/
def Marked (op : Op) (c : Chain (List Bool)) (xs : List Bool → Expr σ) (i : List Bool) : Prop :=
  (c ≠ .operand i ∧ (xs i = symbol op.unitSym ∨ xs i = symbol op.zeroSym)) ∨ (xs i).Loose

theorem Marked.loose {op : Op} {c : Chain (List Bool)} {xs : List Bool → Expr σ} {i : List Bool}
    (hi : i ∈ c.leaves) (h : Marked op c xs i) : (c.fold (bin op) xs).Loose := by
  induction c with
  | operand j =>
    obtain rfl := List.mem_singleton.mp hi
    rcases h with ⟨hc, -⟩ | h
    · exact absurd rfl hc
    · exact h
  | node l r ihl ihr =>
    -- a symbol that is a side of this node counts here, and anything else in its side
    have hside : ∀ d : Chain (List Bool), (i ∈ d.leaves → Marked op d xs i → (d.fold (bin op) xs).Loose) →
        i ∈ d.leaves → (d.fold (bin op) xs).Loose ∨
          ∃ t, (t = op.unitSym ∨ t = op.zeroSym) ∧ d.fold (bin op) xs = symbol t := by
      intro d ih hi
      rcases h with ⟨-, hsymbol⟩ | h
      · by_cases hd : d = .operand i
        · subst hd
          exact .inr (hsymbol.elim (fun h => ⟨_, .inl rfl, h⟩) fun h => ⟨_, .inr rfl, h⟩)
        · exact .inl (ih hi (.inl ⟨hd, hsymbol⟩))
      · exact .inl (ih hi (.inr h))
    rcases List.mem_append.mp hi with hi | hi
    · rcases hside l (fun hi h => ihl hi h) hi with h | ⟨t, ht, h⟩
      · exact Loose.bin (.inl h)
      · exact loose_of_side ht (.inl h)
    · rcases hside r (fun hi h => ihr hi h) hi with h | ⟨t, ht, h⟩
      · exact Loose.bin (.inr h)
      · exact loose_of_side ht (.inr h)

/-- Nothing was counted and nothing was done, or there is a mark. -/
def keptCount : Kept types fun _ e x => (x.2 = 0 ∧ x.1 = e) ∨ (0 < x.2 ∧ x.1.Loose) where
  Inv op e s := (s.count = 0 ∧ s.xs = e.operandAt op) ∨
    (0 < s.count ∧ ∃ i ∈ (e.chain op).leaves, Marked op (e.chain op) s.xs i)
  unchanged _ _ := .inl ⟨rfl, rfl⟩
  initial _ _ := .inl ⟨rfl, rfl⟩
  change := by
    intro op e inner hinner s s' h hs
    cases h with
    | inner i hi hdual =>
      rcases hinner (s.xs i) with ⟨hcount, hsame⟩ | ⟨hcount, hloose⟩
      · rw [hcount, hsame, Function.update_eq_self, Nat.add_zero]
        exact hs
      · refine .inr ⟨Nat.lt_of_lt_of_le hcount (Nat.le_add_left _ _), i, hi, .inr ?_⟩
        dsimp only
        rw [Function.update_self]
        exact hloose
    | join i j hi hj hij tmp h =>
      refine .inr ⟨Nat.succ_pos _, i, hi, .inl ⟨fun hc => ?_, .inl ?_⟩⟩
      · rw [hc] at hj
        exact hij (List.mem_singleton.mp hj).symm
      · dsimp only
        rw [Function.update_of_ne hij, Function.update_self]
    | cancel i hi hc h =>
      exact .inr ⟨Nat.succ_pos _, i, hi, .inl ⟨hc, .inr (Function.update_self ..)⟩⟩
  final := by
    rintro op e s (⟨hcount, hxs⟩ | ⟨hcount, i, hi, hmark⟩)
    · exact .inl ⟨hcount, hxs ▸ fold_chain op e⟩
    · exact .inr ⟨hcount, hmark.loose hi⟩

end Loose

end Expr

end Idic.Kconfig
