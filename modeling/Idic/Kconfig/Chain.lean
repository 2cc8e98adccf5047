import Mathlib.Data.List.Nodup
import Mathlib.Logic.Function.Basic
import Mathlib.Logic.Relation

/-! Chains of one operator.

A chain is a tree with a position at each of its leaves. What stands at the positions is
kept apart from it, so that it can be changed while the chain is gone through, and seen
changed from every part of the chain at once. For an operator that is associative,
commutative and idempotent a chain is worth what its positions are worth together. -/
namespace Idic.Kconfig

inductive Chain (ι : Type) where
  | operand (i : ι)
  | node (l r : Chain ι)
  deriving DecidableEq

namespace Chain

variable {ι κ α : Type}

def leaves : Chain ι → List ι
  | operand i => [i]
  | node l r => l.leaves ++ r.leaves

/-- All parts of a chain, each after the parts of its own. -/
def parts : Chain ι → List (Chain ι)
  | operand i => [operand i]
  | node l r => l.parts ++ r.parts ++ [node l r]

def map (g : ι → κ) : Chain ι → Chain κ
  | operand i => operand (g i)
  | node l r => node (l.map g) (r.map g)

/-- The chain with `x` at its positions. -/
def fold (f : α → α → α) (x : ι → α) : Chain ι → α
  | operand i => x i
  | node l r => f (l.fold f x) (r.fold f x)

theorem exists_mem_leaves (c : Chain ι) : ∃ i, i ∈ c.leaves := by
  induction c with
  | operand i => exact ⟨i, List.mem_singleton.mpr rfl⟩
  | node l r ihl _ => exact ihl.imp fun _ hi => List.mem_append_left _ hi

theorem leaves_map (g : ι → κ) (c : Chain ι) : (c.map g).leaves = c.leaves.map g := by
  induction c with
  | operand i => rfl
  | node l r ihl ihr => rw [map, leaves, leaves, List.map_append, ihl, ihr]

theorem fold_map (f : α → α → α) (g : ι → κ) (x : κ → α) (c : Chain ι) :
    (c.map g).fold f x = c.fold f (x ∘ g) := by
  induction c with
  | operand i => rfl
  | node l r ihl ihr => rw [map, fold, fold, ihl, ihr]

theorem leaves_of_mem_parts {c d : Chain ι} (h : d ∈ c.parts) : ∀ i ∈ d.leaves, i ∈ c.leaves := by
  induction c with
  | operand i =>
    rw [parts, List.mem_singleton] at h
    exact h ▸ fun _ h => h
  | node l r ihl ihr =>
    intro i hi
    simp only [parts, List.mem_append, List.mem_singleton] at h
    rcases h with (h | h) | rfl
    · exact List.mem_append_left _ (ihl h i hi)
    · exact List.mem_append_right _ (ihr h i hi)
    · exact hi

theorem fold_hom {β : Type} {f : α → α → α} {g : β → β → β} {h : α → β}
    (hom : ∀ a b, h (f a b) = g (h a) (h b)) (x : ι → α) (c : Chain ι) :
    h (c.fold f x) = c.fold g (h ∘ x) := by
  induction c with
  | operand i => rfl
  | node l r ihl ihr => rw [fold, hom, ihl, ihr, fold]

theorem fold_congr {f : α → α → α} {x y : ι → α} {c : Chain ι} (h : ∀ i ∈ c.leaves, x i = y i) :
    c.fold f x = c.fold f y := by
  induction c with
  | operand i => exact h i (List.mem_singleton.mpr rfl)
  | node l r ihl ihr =>
    rw [fold, fold, ihl fun i hi => h i (List.mem_append_left _ hi),
      ihr fun i hi => h i (List.mem_append_right _ hi)]

/-- A relation that the operator keeps holds of chains when it holds at each position. -/
theorem fold_rel {f : α → α → α} {R : α → α → Prop}
    (hf : ∀ {a b a' b'}, R a a' → R b b' → R (f a b) (f a' b')) {x y : ι → α}
    (h : ∀ i, R (x i) (y i)) (c : Chain ι) : R (c.fold f x) (c.fold f y) := by
  induction c with
  | operand i => exact h i
  | node l r ihl ihr => exact hf ihl ihr

theorem fold_all {f : α → α → α} {P : α → Prop} (hf : ∀ a b, P a → P b → P (f a b)) {x : ι → α}
    (h : ∀ i, P (x i)) (c : Chain ι) : P (c.fold f x) := by
  induction c with
  | operand i => exact h i
  | node l r ihl ihr => exact hf _ _ ihl ihr

section Absorb
variable {f : α → α → α} [Std.Associative f] [Std.Commutative f]

/-- Beside `w` two chains are worth the same when their positions are. -/
theorem fold_beside {x y : ι → α} {w : α} (h : ∀ i, f (x i) w = f (y i) w) (c : Chain ι) :
    f (c.fold f x) w = f (c.fold f y) w := by
  induction c with
  | operand i => exact h i
  | node l r ihl ihr =>
    calc f (f (l.fold f x) (r.fold f x)) w
        = f (l.fold f x) (f (r.fold f x) w) := ‹Std.Associative f›.assoc _ _ _
      _ = f (l.fold f x) (f (r.fold f y) w) := by rw [ihr]
      _ = f (r.fold f y) (f (l.fold f x) w) := by ac_rfl
      _ = f (r.fold f y) (f (l.fold f y) w) := by rw [ihl]
      _ = f (f (l.fold f y) (r.fold f y)) w := by ac_rfl

variable [Std.IdempotentOp f]

/-- A part adds nothing to the chain it is a part of. -/
theorem fold_absorb (x : ι → α) {c d : Chain ι} (h : ∀ i ∈ d.leaves, i ∈ c.leaves) :
    f (d.fold f x) (c.fold f x) = c.fold f x := by
  induction d with
  | operand i =>
    have hi : i ∈ c.leaves := h i (List.mem_singleton.mpr rfl)
    clear h
    induction c with
    | operand j =>
      obtain rfl := List.mem_singleton.mp hi
      exact Std.IdempotentOp.idempotent _
    | node l r ihl ihr =>
      rw [fold, fold] at *
      rcases List.mem_append.mp hi with hi | hi
      · rw [← ‹Std.Associative f›.assoc, ihl hi]
      · rw [‹Std.Commutative f›.comm (l.fold f x), ← ‹Std.Associative f›.assoc, ihr hi]
  | node l r ihl ihr =>
    rw [fold, ‹Std.Associative f›.assoc, ihr fun i hi => h i (List.mem_append_right _ hi),
      ihl fun i hi => h i (List.mem_append_left _ hi)]

/-- Two positions may be given other values that are worth the same together. -/
theorem fold_exchange {x y : ι → α} {i j : ι} {c : Chain ι} (hi : i ∈ c.leaves) (hj : j ∈ c.leaves)
    (hij : f (x i) (x j) = f (y i) (y j)) (h : ∀ k, k ≠ i → k ≠ j → x k = y k) :
    c.fold f x = c.fold f y := by
  have habsorb : ∀ a b, f a (f a b) = f a b := fun a b => by
    rw [← ‹Std.Associative f›.assoc, ‹Std.IdempotentOp f›.idempotent]
  have hpair : ∀ z : ι → α, f (c.fold f z) (f (z i) (z j)) = c.fold f z := by
    intro z
    rw [‹Std.Commutative f›.comm]
    have hleaves : ∀ k ∈ (node (operand i) (operand j)).leaves, k ∈ c.leaves := by
      intro k hk
      rcases List.mem_cons.mp hk with rfl | hk
      · exact hi
      · exact List.mem_singleton.mp hk ▸ hj
    exact fold_absorb z hleaves
  rw [← hpair x, ← hpair y, ← hij]
  refine fold_beside (fun k => ?_) c
  by_cases hk : k = i
  · rw [hk, habsorb, hij, habsorb]
  by_cases hk' : k = j
  · rw [hk', ‹Std.Commutative f›.comm (x i), habsorb, ‹Std.Commutative f›.comm (x j), hij,
      ‹Std.Commutative f›.comm (y i), habsorb]
  · rw [h k hk hk']

end Absorb

section Update
variable [DecidableEq ι]

/-- The nodes and what is counted at the positions. -/
abbrev total (n : ι → Nat) (c : Chain ι) : Nat := c.fold (fun a b => a + b + 1) n

theorem total_update_of_notMem (n : ι → Nat) {i : ι} (a : Nat) {c : Chain ι} (h : i ∉ c.leaves) :
    c.total (Function.update n i a) = c.total n :=
  fold_congr fun _ hj => Function.update_of_ne (ne_of_mem_of_not_mem hj h) a n

theorem total_update (n : ι → Nat) {i : ι} (a : Nat) {c : Chain ι} (hc : c.leaves.Nodup)
    (hi : i ∈ c.leaves) : c.total (Function.update n i a) + n i = c.total n + a := by
  induction c with
  | operand j =>
    obtain rfl := List.mem_singleton.mp hi
    simp [total, fold, Nat.add_comm]
  | node l r ihl ihr =>
    obtain ⟨hl, hr, hlr⟩ := List.nodup_append'.mp hc
    simp only [total, fold]
    rcases List.mem_append.mp hi with hi | hi
    · have hsum := ihl hl hi
      have hother := total_update_of_notMem n a (hlr hi)
      simp only [total] at hsum hother
      omega
    · have hsum := ihr hr hi
      have hother := total_update_of_notMem n a (fun hl => hlr hl hi)
      simp only [total] at hsum hother
      omega

end Update

section Sweep
variable {S τ : Type} (body : ι → τ → S → S)

/-- All targets for the first position, then all of them for the next one. -/
def sweep (targets : List τ) (positions : List ι) (s : S) : S :=
  positions.foldl (fun s i => targets.foldl (fun s t => body i t s) s) s

variable {body} {targets : List τ} {positions : List ι} {s : S}

theorem sweep_invariant {I : S → Prop}
    (hbody : ∀ i ∈ positions, ∀ t ∈ targets, ∀ s, I s → I (body i t s)) (h : I s) :
    I (sweep body targets positions s) :=
  List.foldlRecOn positions _ h fun _ hs i hi =>
    List.foldlRecOn targets _ hs fun s' hs' t ht => hbody i hi t ht s' hs'

theorem sweep_congr {body' : ι → τ → S → S} {I : S → Prop}
    (heq : ∀ i ∈ positions, ∀ t ∈ targets, ∀ s, I s → body i t s = body' i t s)
    (hbody : ∀ i ∈ positions, ∀ t ∈ targets, ∀ s, I s → I (body i t s)) (h : I s) :
    sweep body targets positions s = sweep body' targets positions s := by
  -- a fold of steps that agree where the invariant holds
  have hfold : ∀ {α : Type} (step step' : S → α → S) (l : List α),
      (∀ a ∈ l, ∀ s, I s → step s a = step' s a ∧ I (step s a)) →
        ∀ s, I s → l.foldl step s = l.foldl step' s ∧ I (l.foldl step s) := by
    intro α step step' l
    induction l with
    | nil => exact fun _ s hs => ⟨rfl, hs⟩
    | cons a l ih =>
      intro hstep s hs
      obtain ⟨heq, hI⟩ := hstep a List.mem_cons_self s hs
      rw [List.foldl_cons, List.foldl_cons, ← heq]
      exact ih (fun a ha => hstep a (List.mem_cons_of_mem _ ha)) _ hI
  refine (hfold _ _ positions (fun i hi s hs => ?_) s h).1
  exact hfold _ _ targets (fun t ht s hs => ⟨heq i hi t ht s hs, hbody i hi t ht s hs⟩) s hs

/-- When the count has not moved, nothing has been done at any pair. -/
theorem sweep_quiet (count : S → Nat) (hmono : ∀ i t s, count s ≤ count (body i t s))
    (hquiet : ∀ i t s, count (body i t s) = count s → body i t s = s)
    (h : count (sweep body targets positions s) = count s) :
    sweep body targets positions s = s ∧ ∀ i ∈ positions, ∀ t ∈ targets, body i t s = s := by
  -- a fold of steps that are monotone and quiet, for the targets and for the positions
  have hfold : ∀ {α : Type} (step : S → α → S), (∀ s a, count s ≤ count (step s a)) →
      (∀ s a, count (step s a) = count s → step s a = s) → ∀ (l : List α) s,
      count s ≤ count (l.foldl step s) ∧
        (count (l.foldl step s) = count s → l.foldl step s = s ∧ ∀ a ∈ l, step s a = s) := by
    intro α step hle hsame l
    induction l with
    | nil => exact fun s => ⟨Nat.le_refl _, fun _ => ⟨rfl, nofun⟩⟩
    | cons a l ih =>
      intro s
      have hhead := hle s a
      obtain ⟨hrest, hrest'⟩ := ih (step s a)
      rw [List.foldl_cons]
      refine ⟨Nat.le_trans hhead hrest, fun heq => ?_⟩
      have hstep := hsame s a (by omega)
      rw [hstep] at heq hrest' ⊢
      obtain ⟨hl, hall⟩ := hrest' heq
      exact ⟨hl, List.forall_mem_cons.mpr ⟨hstep, hall⟩⟩
  have htargets := fun i => hfold (fun s t => body i t s) (fun s t => hmono i t s)
    (fun s t => hquiet i t s) targets
  obtain ⟨-, hpositions⟩ := hfold (fun s i => targets.foldl (fun s t => body i t s) s)
    (fun s i => (htargets i s).1) (fun s i heq => ((htargets i s).2 heq).1) positions s
  obtain ⟨hsame, hall⟩ := hpositions h
  exact ⟨hsame, fun i hi => ((htargets i s).2 (congrArg count (hall i hi))).2⟩

end Sweep

end Chain

end Idic.Kconfig
