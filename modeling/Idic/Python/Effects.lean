import Idic.Python.Text
import Mathlib.Order.Defs.Unbundled

/-! Computations that change a state, and return or raise.

What a computation has done before it raises stays done: the state comes out with
the exception. `Keeps R` says of a computation that the states before and after it
are in `R`, however it ends; for a preorder it goes along sequences and loops.
`RaisesBefore g` says that it does not raise once it has changed what `g` sees. -/
namespace Idic.Python

/-- From a state, what is returned or raised, and the state then. -/
def Effect (S α : Type) : Type := S → Except PyError α × S

namespace Effect
variable {S α β : Type}

instance : Monad (Effect S) where
  pure a := fun s => (.ok a, s)
  bind m f := fun s =>
    match m s with
    | (.ok a, s') => f a s'
    | (.error e, s') => (.error e, s')

/-- What neither reads the state nor changes it. -/
def lift (x : Except PyError α) : Effect S α := fun s => (x, s)

def raise (e : PyError) : Effect S α := lift (.error e)

def gets (f : S → α) : Effect S α := fun s => (.ok (f s), s)

def modify (f : S → S) : Effect S Unit := fun s => (.ok (), f s)

/-- One after another, for each element of a list. -/
def each (f : α → Effect S Unit) : List α → Effect S Unit
  | [] => pure ()
  | a :: rest => f a >>= fun _ => each f rest

/-- The computation from a state. -/
def run (m : Effect S α) (s : S) : Except PyError α × S := m s

@[simp] theorem run_pure (a : α) (s : S) : (pure a : Effect S α).run s = (.ok a, s) := rfl

@[simp] theorem run_lift (x : Except PyError α) (s : S) : (lift x).run s = (x, s) := rfl

@[simp] theorem run_gets (f : S → α) (s : S) : (gets f).run s = (.ok (f s), s) := rfl

@[simp] theorem run_modify (f : S → S) (s : S) : (modify f).run s = (.ok (), f s) := rfl

theorem run_bind (m : Effect S α) (f : α → Effect S β) (s : S) :
    (m >>= f).run s = match m.run s with
      | (.ok a, s') => (f a).run s'
      | (.error e, s') => (.error e, s') := rfl

theorem gets_bind (g : S → α) (f : α → Effect S β) (s : S) :
    (gets g >>= f).run s = (f (g s)).run s := rfl

theorem lift_ok_bind (a : α) (f : α → Effect S β) : (lift (.ok a) >>= f) = f a := rfl

theorem lift_error_bind (e : PyError) (f : α → Effect S β) : (lift (.error e) >>= f) = raise e := rfl

theorem bind_pure_bind {γ : Type} (m : Effect S α) (b : β) (f : β → Effect S γ) :
    ((m >>= fun _ => pure b) >>= f) = m >>= fun _ => f b := by
  funext s
  show ((m >>= fun _ => pure b) >>= f).run s = (m >>= fun _ => f b).run s
  rw [run_bind, run_bind, run_bind]
  rcases m.run s with ⟨_ | a, s'⟩ <;> rfl

theorem each_map {γ : Type} (f : γ → Effect S Unit) (g : α → γ) (as : List α) :
    each f (as.map g) = each (fun a => f (g a)) as := by
  induction as with
  | nil => rfl
  | cons a rest ih => rw [List.map_cons, each, each, ih]

/-- However it ends, the state after it is related to the state before it. -/
def Keeps (R : S → S → Prop) (m : Effect S α) : Prop := ∀ s, R s (m.run s).2

variable {R : S → S → Prop}

section
variable [Std.Refl R]

theorem Keeps.pure (a : α) : Keeps R (Pure.pure a : Effect S α) := fun s => refl_of R s

theorem Keeps.lift (x : Except PyError α) : Keeps R (Effect.lift x) := fun s => refl_of R s

theorem Keeps.raise (e : PyError) : Keeps R (Effect.raise e : Effect S α) := Keeps.lift _

theorem Keeps.gets (f : S → α) : Keeps R (Effect.gets f) := fun s => refl_of R s

end

theorem Keeps.modify {f : S → S} (h : ∀ s, R s (f s)) : Keeps R (Effect.modify f) := h

section
variable [IsTrans S R]

theorem Keeps.bind {m : Effect S α} {f : α → Effect S β} (hm : Keeps R m) (hf : ∀ a, Keeps R (f a)) :
    Keeps R (m >>= f) := by
  intro s
  have hfirst := hm s
  rw [run_bind]
  rcases hms : m.run s with ⟨_ | a, s'⟩
  · rwa [hms] at hfirst
  · rw [hms] at hfirst
    exact trans_of R hfirst (hf a s')

variable [Std.Refl R]

theorem Keeps.each {f : α → Effect S Unit} {as : List α} (h : ∀ a ∈ as, Keeps R (f a)) :
    Keeps R (Effect.each f as) := by
  induction as with
  | nil => exact .pure ()
  | cons a rest ih =>
    exact (h a (List.mem_cons_self ..)).bind fun _ => ih fun b hb => h b (List.mem_cons_of_mem a hb)

end

theorem Keeps.ite {c : Prop} [Decidable c] {m m' : Effect S α} (h : c → Keeps R m)
    (h' : ¬ c → Keeps R m') : Keeps R (if c then m else m') := by
  split
  · next hc => exact h hc
  · next hc => exact h' hc

/-! ### Where a computation raises -/

/-- It returns, from any state. -/
def Returns (m : Effect S α) : Prop := ∀ s, ∃ a, (m.run s).1 = .ok a

theorem Returns.pure (a : α) : Returns (Pure.pure a : Effect S α) := fun _ => ⟨a, rfl⟩

theorem Returns.gets (f : S → α) : Returns (Effect.gets f) := fun s => ⟨f s, rfl⟩

theorem Returns.modify (f : S → S) : Returns (Effect.modify f) := fun _ => ⟨(), rfl⟩

theorem Returns.bind {m : Effect S α} {f : α → Effect S β} (hm : Returns m) (hf : ∀ a, Returns (f a)) :
    Returns (m >>= f) := by
  intro s
  obtain ⟨a, ha⟩ := hm s
  rw [run_bind]
  rcases hms : m.run s with ⟨r, s'⟩
  rw [hms] at ha
  cases ha
  exact hf a s'

theorem Returns.each {f : α → Effect S Unit} {as : List α} (h : ∀ a ∈ as, Returns (f a)) :
    Returns (Effect.each f as) := by
  induction as with
  | nil => exact .pure ()
  | cons a rest ih =>
    exact (h a (List.mem_cons_self ..)).bind fun _ => ih fun b hb => h b (List.mem_cons_of_mem a hb)

variable {γ : Type} {g : S → γ}

/-- Where it raises, what `g` sees of the state has not changed. -/
def RaisesBefore (g : S → γ) (m : Effect S α) : Prop := ∀ s e, (m.run s).1 = .error e → g (m.run s).2 = g s

theorem Returns.raisesBefore {m : Effect S α} (h : Returns m) : RaisesBefore g m := by
  intro s e he
  obtain ⟨a, ha⟩ := h s
  cases ha.symm.trans he

theorem RaisesBefore.lift (x : Except PyError α) : RaisesBefore g (Effect.lift x) := fun _ _ _ => rfl

/-- What has not changed it may go on to raise. -/
theorem RaisesBefore.bind {m : Effect S α} {f : α → Effect S β} (hm : Keeps (fun s s' => g s' = g s) m)
    (hf : ∀ a, RaisesBefore g (f a)) : RaisesBefore g (m >>= f) := by
  intro s e he
  have hfirst := hm s
  rw [run_bind] at he ⊢
  rcases hms : m.run s with ⟨_ | a, s'⟩
  · rwa [hms] at hfirst
  · rw [hms] at he hfirst
    exact (hf a s' e he).trans hfirst

/-- What has changed it may not. -/
theorem RaisesBefore.bind_returns {m : Effect S α} {f : α → Effect S β} (hm : RaisesBefore g m)
    (hf : ∀ a, Returns (f a)) : RaisesBefore g (m >>= f) := by
  intro s e he
  have hfirst := hm s
  rw [run_bind] at he ⊢
  rcases hms : m.run s with ⟨e' | a, s'⟩
  · rw [hms] at hfirst
    exact hfirst e' rfl
  · rw [hms] at he
    obtain ⟨b, hb⟩ := hf a s'
    cases hb.symm.trans he

theorem RaisesBefore.ite {c : Prop} [Decidable c] {m m' : Effect S α} (h : c → RaisesBefore g m)
    (h' : ¬ c → RaisesBefore g m') : RaisesBefore g (if c then m else m') := by
  split
  · next hc => exact h hc
  · next hc => exact h' hc

end Effect

end Idic.Python
