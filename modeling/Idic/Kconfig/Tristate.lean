import Mathlib.Order.Lattice

/-! Three truth values.

A configuration symbol is `no`, `mod` or `yes`. The operators are the maximum, the
minimum and the mirror image. `Sharpens` is the other order on the three values: in it
`mod` is what is not decided yet, and the operators are monotone in it. -/
namespace Idic.Kconfig

inductive Tristate where
  | no
  | mod
  | yes
  deriving DecidableEq, Repr

namespace Tristate

def toNat : Tristate → Nat
  | no => 0
  | mod => 1
  | yes => 2

theorem toNat_injective : Function.Injective toNat := by
  intro a b h
  cases a <;> cases b <;> first | rfl | cases h

instance : LinearOrder Tristate := .lift' toNat toNat_injective

theorem le_yes (a : Tristate) : a ≤ yes := by cases a <;> decide

theorem no_le (a : Tristate) : no ≤ a := by cases a <;> decide

/-- `E_NOT(dep)` -/
def not : Tristate → Tristate
  | no => yes
  | mod => mod
  | yes => no

theorem not_not (a : Tristate) : a.not.not = a := by cases a <;> rfl

/-- What `m` is where there are no modules. -/
def promote : Tristate → Tristate
  | no => no
  | mod => yes
  | yes => yes

/-- The value is decided by the other one, or is the same. -/
def Sharpens (a b : Tristate) : Prop := a = mod ∨ b = a

theorem Sharpens.refl (a : Tristate) : Sharpens a a := .inr rfl

theorem Sharpens.trans {a b c : Tristate} (h : Sharpens a b) (h' : Sharpens b c) : Sharpens a c := by
  rcases h with hmod | rfl
  · exact .inl hmod
  · exact h'

theorem Sharpens.eq {a b : Tristate} (h : Sharpens a b) (ha : a ≠ mod) : b = a := h.resolve_left ha

theorem Sharpens.not {a b : Tristate} (h : Sharpens a b) : Sharpens a.not b.not := by
  rcases h with rfl | rfl
  · exact .inl rfl
  · exact .refl _

end Tristate

/-- The two operators. -/
inductive Op where
  | or
  | and
  deriving DecidableEq, Repr

namespace Op
open Tristate

/-- `E_OR(dep1, dep2)` and `E_AND(dep1, dep2)` -/
def apply : Op → Tristate → Tristate → Tristate
  | or, dep1, dep2 => if dep2 < dep1 then dep1 else dep2
  | and, dep1, dep2 => if dep1 < dep2 then dep1 else dep2

/-- The value that changes nothing. -/
def unit : Op → Tristate
  | or => no
  | and => yes

/-- The value that decides everything. -/
def zero : Op → Tristate
  | or => yes
  | and => no

def dual : Op → Op
  | or => and
  | and => or

theorem or_eq_max (a b : Tristate) : Op.or.apply a b = max a b := by cases a <;> cases b <;> rfl

theorem and_eq_min (a b : Tristate) : Op.and.apply a b = min a b := by cases a <;> cases b <;> rfl

variable (op : Op) (a b c : Tristate)

theorem apply_comm : op.apply a b = op.apply b a := by cases op <;> cases a <;> cases b <;> rfl

theorem apply_assoc : op.apply (op.apply a b) c = op.apply a (op.apply b c) := by
  cases op <;> cases a <;> cases b <;> cases c <;> rfl

instance : Std.Commutative op.apply := ⟨op.apply_comm⟩

instance : Std.Associative op.apply := ⟨op.apply_assoc⟩

@[simp] theorem apply_self : op.apply a a = a := by cases op <;> cases a <;> rfl

instance : Std.IdempotentOp op.apply := ⟨op.apply_self⟩

@[simp] theorem unit_apply : op.apply op.unit a = a := by cases op <;> cases a <;> rfl

@[simp] theorem apply_unit : op.apply a op.unit = a := by cases op <;> cases a <;> rfl

@[simp] theorem zero_apply : op.apply op.zero a = op.zero := by cases op <;> cases a <;> rfl

@[simp] theorem apply_zero : op.apply a op.zero = op.zero := by cases op <;> cases a <;> rfl

@[simp] theorem dual_dual : op.dual.dual = op := by cases op <;> rfl

theorem promote_apply : (op.apply a b).promote = op.apply a.promote b.promote := by
  cases op <;> cases a <;> cases b <;> rfl

/-- De Morgan's law. -/
theorem not_apply : (op.apply a b).not = op.dual.apply a.not b.not := by
  cases op <;> cases a <;> cases b <;> rfl

variable {op a b c}

theorem apply_mono {a' b' : Tristate} (ha : a ≤ a') (hb : b ≤ b') : op.apply a b ≤ op.apply a' b' := by
  revert ha hb
  cases op <;> cases a <;> cases b <;> cases a' <;> cases b' <;> decide

theorem sharpens_apply {a' b' : Tristate} (ha : Sharpens a a') (hb : Sharpens b b') :
    Sharpens (op.apply a b) (op.apply a' b') := by
  unfold Sharpens at *
  revert ha hb
  cases op <;> cases a <;> cases b <;> cases a' <;> cases b' <;> decide

/-- A value beside its own negation is not decided, or is the deciding one. -/
theorem sharpens_contradiction (h : op.apply a c = c) (h' : op.apply a.not c = c) : Sharpens c op.zero := by
  unfold Sharpens
  revert h h'
  cases op <;> cases a <;> cases c <;> decide

end Op

end Idic.Kconfig
