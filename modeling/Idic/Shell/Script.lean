import Mathlib.Init

/-! Scripts that change a state and may exit.

What a script has done before it exits stays done: the state comes out with the
text of the exit. `Keeps g` says of a script that `g` sees no change, however it ends,
and `ExitsBefore g` that it does not exit once `g` has seen one. -/
namespace Idic.Shell

/-- A script over the state, which may exit with a text. -/
abbrev Script (S : Type) := ExceptT (List Char) (StateM S)

namespace Script
variable {S α β γ : Type} {g : S → γ}

/-- The script from a state: what it returns or exits with, and the state then. -/
def runFrom (m : Script S α) (s : S) : Except (List Char) α × S := m s

def exit (text : List Char) : Script S α := fun s => (.error text, s)

def gets (f : S → α) : Script S α := fun s => (.ok (f s), s)

def update (f : S → S) : Script S Unit := fun s => (.ok (), f s)

theorem runFrom_bind (m : Script S α) (f : α → Script S β) (s : S) :
    (m >>= f).runFrom s = match m.runFrom s with
      | (.ok a, s') => (f a).runFrom s'
      | (.error e, s') => (.error e, s') := by
  simp only [runFrom, bind, ExceptT.bind, ExceptT.mk, StateT.bind]
  rcases m s with ⟨_ | a, s'⟩ <;> rfl

/-- However it ends, `g` sees no change. -/
def Keeps (g : S → γ) (m : Script S α) : Prop := ∀ s, g (m.runFrom s).2 = g s

theorem Keeps.pure (a : α) : Keeps g (Pure.pure a : Script S α) := fun _ => rfl

theorem Keeps.exit (text : List Char) : Keeps g (Script.exit text : Script S α) := fun _ => rfl

theorem Keeps.gets (f : S → α) : Keeps g (Script.gets f) := fun _ => rfl

theorem Keeps.update {f : S → S} (h : ∀ s, g (f s) = g s) : Keeps g (Script.update f) := h

theorem Keeps.bind {m : Script S α} {f : α → Script S β} (hm : Keeps g m) (hf : ∀ a, Keeps g (f a)) :
    Keeps g (m >>= f) := by
  intro s
  have hfirst := hm s
  rw [runFrom_bind]
  rcases hms : m.runFrom s with ⟨_ | a, s'⟩
  · rwa [hms] at hfirst
  · rw [hms] at hfirst
    exact (hf a s').trans hfirst

theorem Keeps.ite {c : Prop} [Decidable c] {m m' : Script S α} (h : Keeps g m) (h' : Keeps g m') :
    Keeps g (if c then m else m') := by
  split
  · exact h
  · exact h'

/-- Where it exits, `g` has seen no change. -/
def ExitsBefore (g : S → γ) (m : Script S α) : Prop :=
  ∀ s text, (m.runFrom s).1 = .error text → g (m.runFrom s).2 = g s

theorem Keeps.exitsBefore {m : Script S α} (h : Keeps g m) : ExitsBefore g m := fun s _ _ => h s

/-- What has changed nothing yet may go on to exit. -/
theorem ExitsBefore.bind {m : Script S α} {f : α → Script S β} (hm : Keeps g m)
    (hf : ∀ a, ExitsBefore g (f a)) : ExitsBefore g (m >>= f) := by
  intro s text h
  have hfirst := hm s
  rw [runFrom_bind] at h ⊢
  rcases hms : m.runFrom s with ⟨_ | a, s'⟩
  · rwa [hms] at hfirst
  · rw [hms] at h hfirst
    exact (hf a s' text h).trans hfirst

/-- It does not exit, from any state. -/
def Returns (m : Script S α) : Prop := ∀ s, ∃ a, (m.runFrom s).1 = .ok a

theorem Returns.update (f : S → S) : Returns (Script.update f) := fun _ => ⟨(), rfl⟩

theorem Returns.bind {m : Script S α} {f : α → Script S β} (hm : Returns m) (hf : ∀ a, Returns (f a)) :
    Returns (m >>= f) := by
  intro s
  obtain ⟨a, ha⟩ := hm s
  rw [runFrom_bind]
  rcases hms : m.runFrom s with ⟨r, s'⟩
  rw [hms] at ha
  cases ha
  exact hf a s'

theorem Returns.exitsBefore {m : Script S α} (h : Returns m) : ExitsBefore g m := by
  intro s text hexit
  obtain ⟨a, ha⟩ := h s
  cases ha.symm.trans hexit

/-- What exits before a change may be followed by what does not exit. -/
theorem ExitsBefore.bind_returns {m : Script S α} {f : α → Script S β} (hm : ExitsBefore g m)
    (hf : ∀ a, Returns (f a)) : ExitsBefore g (m >>= f) := by
  intro s text h
  have hfirst := hm s
  rw [runFrom_bind] at h ⊢
  rcases hms : m.runFrom s with ⟨e | a, s'⟩
  · rw [hms] at hfirst
    exact hfirst e rfl
  · rw [hms] at h
    obtain ⟨b, hb⟩ := hf a s'
    cases hb.symm.trans h

end Script

end Idic.Shell
