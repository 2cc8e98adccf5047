/-! Systems that move by events, and what holds along their runs.

A `System` has its initial states and, for each event, the state the event leads
to, if it can happen. `Reach` collects the states of all runs whose steps satisfy
a condition; with no condition these are the reachable states. A property is
proved of them from one step (`Reach.invariant`). A history variable watches a run
and remembers what the states forget, without changing what can happen
(`withHistory`). -/
namespace Idic.Threads

structure System (S E : Type) where
  init : S → Prop
  step : E → S → Option S

namespace System
variable {S E H : Type} (M : System S E)

/-- The states of the runs whose every step meets `allowed`, a condition on the
event and the state before it. -/
inductive Reach (allowed : E → S → Prop) : S → Prop where
  | init {s} : M.init s → Reach allowed s
  | step {e s s'} : Reach allowed s → allowed e s → M.step e s = some s' → Reach allowed s'

/-- No condition. -/
def any (_ : E) (_ : S) : Prop := True

def Reachable : S → Prop := M.Reach any

instance (e : E) (s : S) : Decidable (any e s) := .isTrue trivial

/-- The state after a list of events, if each can happen and meets the condition. -/
def run (allowed : E → S → Prop) [∀ e s, Decidable (allowed e s)] (s : S) : List E → Option S
  | [] => some s
  | e :: rest => if allowed e s then (M.step e s).bind (fun s' => run allowed s' rest) else none

variable {M}

/-- An invariant of the steps is an invariant of the runs. -/
theorem Reach.invariant {allowed : E → S → Prop} {I : S → Prop} (hinit : ∀ s, M.init s → I s)
    (hstep : ∀ e s s', I s → allowed e s → M.step e s = some s' → I s') {s : S}
    (h : M.Reach allowed s) : I s := by
  induction h with
  | init h => exact hinit _ h
  | step _ ha hs ih => exact hstep _ _ _ ih ha hs

/-- The same, when the step may use what is already known of every state. -/
theorem Reach.invariantWith {allowed : E → S → Prop} {I J : S → Prop}
    (hJ : ∀ s, M.Reach allowed s → J s) (hinit : ∀ s, M.init s → I s)
    (hstep : ∀ e s s', J s → I s → allowed e s → M.step e s = some s' → I s') {s : S}
    (h : M.Reach allowed s) : I s := by
  induction h with
  | init h => exact hinit _ h
  | step hr ha hs ih => exact hstep _ _ _ (hJ _ hr) ih ha hs

theorem Reach.weaken {allowed allowed' : E → S → Prop} (hw : ∀ e s, allowed e s → allowed' e s)
    {s : S} (h : M.Reach allowed s) : M.Reach allowed' s := by
  induction h with
  | init h => exact .init h
  | step _ ha hs ih => exact .step ih (hw _ _ ha) hs

theorem Reach.reachable {allowed : E → S → Prop} {s : S} (h : M.Reach allowed s) : M.Reachable s :=
  h.weaken fun _ _ _ => trivial

/-- A list of events that runs through leads to a state of the runs. -/
theorem Reach.of_run {allowed : E → S → Prop} [∀ e s, Decidable (allowed e s)] {s s' : S}
    (h : M.Reach allowed s) (es : List E) (hr : M.run allowed s es = some s') :
    M.Reach allowed s' := by
  induction es generalizing s with
  | nil =>
    cases hr
    exact h
  | cons e rest ih =>
    simp only [run] at hr
    split at hr
    · next ha =>
      obtain ⟨t, ht, hrest⟩ := Option.bind_eq_some_iff.mp hr
      exact ih (.step h ha ht) hrest
    · cases hr

/-- The same, for a property that the last state of the list is seen to have. -/
theorem Reach.exists_of_run {allowed : E → S → Prop} [∀ e s, Decidable (allowed e s)] {s : S}
    (h : M.Reach allowed s) (es : List E) (p : S → Prop) [DecidablePred p]
    (hp : (M.run allowed s es).any (fun s' => p s') = true) : ∃ s', M.Reach allowed s' ∧ p s' := by
  obtain ⟨s', hs', hps'⟩ := (Option.any_eq_true ..).mp hp
  exact ⟨s', h.of_run es hs', of_decide_eq_true hps'⟩

variable (M) in
/-- The system, started only in some of its initial states. -/
def startingIn (P : S → Prop) : System S E := {M with init := fun s => M.init s ∧ P s}

/-- A system with fewer initial states and the same steps has fewer runs. -/
theorem Reach.mono {N : System S E} (hinit : ∀ s, M.init s → N.init s) (hstep : M.step = N.step)
    {allowed : E → S → Prop} {s : S} (h : M.Reach allowed s) : N.Reach allowed s := by
  induction h with
  | init h => exact .init (hinit _ h)
  | step _ ha hs ih => exact .step ih ha (hstep ▸ hs)

/-! ### History variables -/

variable (M) in
/-- The system with a value that starts as `start` and is updated on every step
from the event and the state before it. -/
def withHistory (start : H) (update : E → S → H → H) : System (S × H) E where
  init := fun x => M.init x.1 ∧ x.2 = start
  step := fun e x => (M.step e x.1).map (fun s' => (s', update e x.1 x.2))

theorem Reach.erase {start : H} {update : E → S → H → H} {allowed : E → S × H → Prop} {x : S × H}
    (h : (M.withHistory start update).Reach allowed x) : M.Reachable x.1 := by
  induction h with
  | init h => exact .init h.1
  | step _ _ hs ih =>
    obtain ⟨s', hs', rfl⟩ := Option.map_eq_some_iff.mp hs
    exact .step ih trivial hs'

end System

end Idic.Threads
