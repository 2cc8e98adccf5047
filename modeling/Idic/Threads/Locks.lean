import Mathlib.Data.Set.Basic

/-! Locks and condition variables.

A mutex is its owner. A condition variable is a mutex and the threads blocked in
`wait`, oldest first; a thread returns from `wait` when it is no longer among them
and the mutex is free. Which locks a thread holds can be read off its program
point: `Consistent` says that the owners agree with that, and `Consistent.moved`
that steps which take or give back locks one at a time keep it so.
`no_deadlock` is the lock-order argument. -/
namespace Idic.Threads

/-! ### Condition variables -/

structure Condition (θ : Type) where
  owner : Option θ
  waiters : List θ

namespace Condition
variable {θ : Type}

/-- Taking the lock, which blocks while another thread has it. -/
def acquire (c : Condition θ) (t : θ) : Option (Condition θ) :=
  if c.owner.isNone then some {c with owner := some t} else none

def release (c : Condition θ) : Condition θ := {c with owner := none}

/-- Going to sleep gives the lock back. -/
def wait (c : Condition θ) (t : θ) : Condition θ := ⟨none, c.waiters ++ [t]⟩

/-- Waking the thread that has slept longest, if one sleeps. -/
def notify (c : Condition θ) : Condition θ := {c with waiters := c.waiters.tail}

theorem acquire_eq_some {c c' : Condition θ} {t : θ} (h : c.acquire t = some c') :
    c.owner = none ∧ c' = {c with owner := some t} := by
  unfold acquire at h
  split at h
  · next hfree => exact ⟨Option.isNone_iff_eq_none.mp hfree, (Option.some.inj h).symm⟩
  · cases h

variable [DecidableEq θ]

/-- Returning from `wait`: not before the thread is woken and the lock is free. -/
def wake (c : Condition θ) (t : θ) : Option (Condition θ) :=
  if t ∈ c.waiters then none else c.acquire t

/-- The time limit of a `wait` passes. -/
def expire (c : Condition θ) (t : θ) : Condition θ := {c with waiters := c.waiters.erase t}

theorem wake_eq_some {c c' : Condition θ} {t : θ} (h : c.wake t = some c') :
    t ∉ c.waiters ∧ c.owner = none ∧ c' = {c with owner := some t} := by
  unfold wake at h
  split at h
  · cases h
  · next hwoken => exact ⟨hwoken, acquire_eq_some h⟩

end Condition

/-! ### Mutexes -/

/-- Taking a plain lock. -/
def lockAcquire {θ : Type} (owner : Option θ) (t : θ) : Option (Option θ) :=
  if owner.isNone then some (some t) else none

theorem lockAcquire_eq_some {θ : Type} {owner owner' : Option θ} {t : θ}
    (h : lockAcquire owner t = some owner') : owner = none ∧ owner' = some t := by
  unfold lockAcquire at h
  split at h
  · next hfree => exact ⟨Option.isNone_iff_eq_none.mp hfree, (Option.some.inj h).symm⟩
  · cases h

/-! ### Owners and holders -/

section Owners
variable {θ L : Type}

/-- A lock's owner is the thread whose program point holds it. -/
def Consistent (owner : L → Option θ) (held : θ → L → Prop) : Prop :=
  ∀ l t, owner l = some t ↔ held t l

/-- What one step of `t` may do to one lock: nothing, take it, or give it back. -/
inductive Moved (t : θ) (owner owner' : Option θ) (holds holds' : Prop) : Prop where
  | kept (hown : owner' = owner) (hholds : holds' ↔ holds)
  | taken (hfree : owner = none) (hown : owner' = some t) (hholds : holds')
  | given (hheld : holds) (hown : owner' = none) (hholds : ¬ holds')

/-- A step of `t` that moves each lock so, and leaves the other threads at their
program points, keeps owners and holders in agreement. -/
theorem Consistent.moved {owner owner' : L → Option θ} {held held' : θ → L → Prop} (t : θ)
    (h : Consistent owner held)
    (hmoved : ∀ l, Moved t (owner l) (owner' l) (held t l) (held' t l))
    (hother : ∀ u, u ≠ t → held' u = held u) : Consistent owner' held' := by
  intro l u
  by_cases hu : u = t
  · subst hu
    cases hmoved l with
    | kept hown hholds => rw [hown, hholds, h l u]
    | taken _ hown hholds => simp [hown, hholds]
    | given _ hown hholds => simp [hown, hholds]
  · rw [hother u hu]
    cases hmoved l with
    | kept hown _ => rw [hown, h l u]
    | taken hfree hown _ =>
      have hnot : ¬ held u l := fun hheld => by
        rw [(h l u).mpr hheld] at hfree
        cases hfree
      simp [hown, hnot, Ne.symm hu]
    | given hheld hown _ =>
      have hnot : ¬ held u l := fun hheld' => by
        have := (h l u).mpr hheld'
        rw [(h l t).mpr hheld] at this
        exact hu (Option.some.inj this).symm
      simp [hown, hnot]

/-! ### Deadlock -/

/-- Each thread of the set waits for a lock that a thread of the set owns. -/
def Deadlocked (owner : L → Option θ) (wants : θ → L → Prop) (S : Set θ) : Prop :=
  S.Nonempty ∧ ∀ t ∈ S, ∃ u ∈ S, ∃ l, wants t l ∧ owner l = some u

/-- If every thread waits only for locks that come after all it holds, in an order
with a last place, no set of threads is deadlocked. -/
theorem no_deadlock {owner : L → Option θ} {held wants : θ → L → Prop} (h : Consistent owner held)
    (rank : L → Nat) (bound : Nat) (hbound : ∀ l, rank l ≤ bound)
    (horder : ∀ t l, wants t l → ∀ l', held t l' → rank l' < rank l) (S : Set θ) :
    ¬ Deadlocked owner wants S := by
  intro hsome
  obtain ⟨⟨t, ht⟩, hwait⟩ := hsome
  -- The ranks of the locks waited for grow along the chain of owners.
  have hgrow : ∀ n, ∃ u ∈ S, ∃ v ∈ S, ∃ l, wants u l ∧ owner l = some v ∧ n ≤ rank l := by
    intro n
    induction n with
    | zero =>
      obtain ⟨u, hu, l, hl, hown⟩ := hwait t ht
      exact ⟨t, ht, u, hu, l, hl, hown, Nat.zero_le _⟩
    | succ n ih =>
      obtain ⟨u, -, v, hv, l, -, hown, hn⟩ := ih
      obtain ⟨w, hw, l', hl', hown'⟩ := hwait v hv
      have hlt : rank l < rank l' := horder v l' hl' l ((h l v).mp hown)
      exact ⟨v, hv, w, hw, l', hl', hown', by omega⟩
  obtain ⟨u, -, v, -, l, -, -, hl⟩ := hgrow (bound + 1)
  have := hbound l
  omega

end Owners

end Idic.Threads
