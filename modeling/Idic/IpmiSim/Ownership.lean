import Idic.IpmiSim.World

/-! Who owns which lock.

In every reachable state the locks are owned by the threads whose program points
hold them (`owners_consistent`). A sensor's thread takes `common.lock` while it
owns its condition, a session while it owns the write lock, and no thread waits for
another lock while it owns `common.lock`: hence no deadlock, and nothing left
locked behind (`locks_never_deadlock`). -/
namespace Idic.IpmiSim
open Python Threads

/-! ### Locks of the simulator -/

inductive LockName (σ : Type) where
  | common
  | condition (s : σ)
  | write (s : σ)

/-- A lock as a thread at work on sensor `s` knows it. -/
def LocalLock.at {σ : Type} (k : LocalLock) (s : σ) : LockName σ :=
  match k with
  | .common => .common
  | .condition => .condition s
  | .write => .write s

def LockName.rank {σ : Type} : LockName σ → Nat
  | .common => 1
  | .condition _ | .write _ => 0

namespace World
variable {σ ι : Type}

def owner (w : World σ ι) : LockName σ → Option (Tid σ ι)
  | .common => w.lock
  | .condition s => (w.shared s).condition.owner
  | .write s => (w.shared s).lockSensorWrite

/-- The sensor a thread works on, the locks it holds and the lock it waits for. -/
structure Work (σ : Type) where
  sensor : σ
  holds : LocalLock → Prop
  wants : Option LocalLock

def work (w : World σ ι) : Tid σ ι → Option (Work σ)
  | .session i => some ⟨(w.session i).1, (w.session i).2.holds, (w.session i).2.wants⟩
  | .sensor s => some ⟨s, (w.thread s).holds, (w.thread s).wants⟩
  | .main =>
    match w.main with
    | .freeing (s :: _) ph => some ⟨s, ph.holds, ph.wants⟩
    | _ => none

def held (w : World σ ι) (t : Tid σ ι) (l : LockName σ) : Prop :=
  ∃ work ∈ w.work t, ∃ k, work.holds k ∧ l = k.at work.sensor

/-- The thread is blocked on the lock, or about to ask for it. -/
def wants (w : World σ ι) (t : Tid σ ι) (l : LockName σ) : Prop :=
  ∃ work ∈ w.work t, ∃ k ∈ work.wants, l = k.at work.sensor

end World

theorem LocalLock.at_inj {σ : Type} {k k' : LocalLock} {s : σ} (h : k.at s = k'.at s) : k = k' := by
  cases k <;> cases k' <;> first | rfl | cases h

theorem LocalLock.at_eq {σ : Type} {k k' : LocalLock} {s s' : σ} (hk : k ≠ .common)
    (h : k.at s = k'.at s') : s = s' ∧ k = k' := by
  cases k <;> cases k' <;> cases h <;> first | exact absurd rfl hk | exact ⟨rfl, rfl⟩

theorem LocalLock.rank_at {σ : Type} (k : LocalLock) (s : σ) : (k.at s).rank = k.rank := by
  cases k <;> rfl

/-! ### Holding and waiting -/

namespace World
variable {σ ι : Type}

theorem held_of_work {w : World σ ι} {t : Tid σ ι} {x : Work σ} (h : w.work t = some x)
    (l : LockName σ) : w.held t l ↔ ∃ k, x.holds k ∧ l = k.at x.sensor := by
  simp only [held, h, Option.mem_some_iff, exists_eq_left']

/-- A thread that is outside the code that takes locks. -/
def Outside (w : World σ ι) (t : Tid σ ι) : Prop := ∀ x ∈ w.work t, ∀ k, ¬ x.holds k

theorem Outside.not_held {w : World σ ι} {t : Tid σ ι} (h : w.Outside t) (l : LockName σ) :
    ¬ w.held t l := fun ⟨x, hx, k, hk, _⟩ => h x hx k hk

theorem initial_consistent {w : World σ ι} (h : w.Initial) : Consistent w.owner w.held := by
  have howner : ∀ l, w.owner l = none := fun l => by
    cases l with
    | common => exact h.lock
    | condition s => simp only [owner, h.condition]
    | write s => exact h.lockSensorWrite s
  have hout : ∀ t, w.Outside t := fun t => by
    cases t with
    | session i =>
      rintro _ ⟨⟩ k
      show ¬ (w.session i).2.holds k
      rw [h.session i]
      cases k <;> exact not_false
    | sensor s =>
      rintro _ ⟨⟩ k
      show ¬ (w.thread s).holds k
      rw [h.thread s, ThreadPc.start]
      split <;> cases k <;> exact not_false
    | main =>
      intro x hx
      simp only [work, h.main] at hx
      cases hx
  intro l t
  rw [howner]
  exact iff_of_false (fun heq => by cases heq) ((hout t).not_held l)

theorem start_outside (c : Command) (k : LocalLock) : ¬ c.start.holds k := by
  cases c with
  | modeSet r => cases r <;> cases k <;> exact not_false
  | selSet checked => cases checked <;> cases k <;> exact not_false
  | _ => cases k <;> exact not_false

theorem setMode_outside (w : World σ ι) (todo : List σ) (h : w.main = .freeing todo .setMode) :
    w.Outside .main := by
  intro x hx k
  cases todo with
  | nil =>
    simp only [work, h] at hx
    cases hx
  | cons s rest =>
    simp only [work, h] at hx
    cases hx
    cases k <;> exact not_false

/-- Locks are asked for in order: `common.lock` last, and nothing before it twice. -/
theorem wants_after_held {w : World σ ι} {t : Tid σ ι} {l l' : LockName σ} (hw : w.wants t l)
    (hh : w.held t l') : l'.rank < l.rank := by
  obtain ⟨x, hx, k, hk, rfl⟩ := hw
  obtain ⟨x', hx', k', hk', rfl⟩ := hh
  obtain rfl : x' = x := Option.some.inj (hx'.symm.trans hx)
  rw [LocalLock.rank_at, LocalLock.rank_at]
  cases t with
  | session i =>
    cases hx
    exact CommandPc.wants_rank hk hk'
  | sensor s =>
    cases hx
    exact ThreadPc.wants_rank hk hk'
  | main =>
    simp only [work] at hx
    split at hx
    · cases hx
      exact FreePhase.wants_rank hk hk'
    · cases hx

/-- The program points outside every operation: a session that has returned, a
thread before its next iteration or at its end, and the main thread between the
turns of `free_resource`. -/
def Left (w : World σ ι) : Tid σ ι → Prop
  | .session i => (w.session i).2 = .returned
  | .sensor s => w.thread s = .testQuit ∨ w.thread s = .ended ∨ ∃ e, w.thread s = .died e
  | .main => w.main = .serving ∨ ∃ todo, w.main = .freeing todo .setMode

theorem Left.outside {w : World σ ι} {t : Tid σ ι} (h : w.Left t) : w.Outside t := by
  cases t with
  | session i =>
    rintro _ ⟨⟩ k
    show ¬ (w.session i).2.holds k
    rw [h]
    cases k <;> exact not_false
  | sensor s =>
    rintro _ ⟨⟩ k
    show ¬ (w.thread s).holds k
    rcases h with h | h | ⟨e, h⟩ <;> rw [h] <;> cases k <;> exact not_false
  | main =>
    rcases h with h | ⟨todo, h⟩
    · intro x hx
      simp only [work, h] at hx
      cases hx
    · exact setMode_outside w todo h

/-! ### Steps -/

/-- A step that changes no lock and is made from outside to outside. -/
theorem consistent_outside {w w' : World σ ι} (hw : Consistent w.owner w.held) (t : Tid σ ι)
    (howner : w'.owner = w.owner) (hout : w.Outside t) (hout' : w'.Outside t)
    (hother : ∀ u, u ≠ t → w'.work u = w.work u) : Consistent w'.owner w'.held := by
  refine hw.moved t (fun l => ?_) (fun u hu => funext fun l => by rw [held, hother u hu]; rfl)
  rw [howner]
  exact .kept rfl (iff_of_false (hout'.not_held l) (hout.not_held l))

theorem work_setMain_of_ne (w : World σ ι) {u : Tid σ ι} (hu : u ≠ .main) (m : MainPc σ) :
    (w.setMain m).work u = w.work u := by
  cases u with
  | session | sensor => rfl
  | main => exact absurd rfl hu

theorem work_setSession [DecidableEq ι] (w : World σ ι) (i : ι) (s : σ) (pc : CommandPc) :
    (w.setSession i s pc).work (.session i) = some ⟨s, pc.holds, pc.wants⟩ := by
  simp only [work, setSession, Function.update_self]

theorem work_setSession_of_ne [DecidableEq ι] (w : World σ ι) {i : ι} {u : Tid σ ι}
    (hu : u ≠ .session i) (s : σ)
    (pc : CommandPc) : (w.setSession i s pc).work u = w.work u := by
  cases u with
  | sensor | main => rfl
  | session j =>
    have hne : j ≠ i := fun hj => hu (hj ▸ rfl)
    simp only [work, setSession, Function.update_of_ne hne]

variable [DecidableEq σ]

theorem work_setThread (w : World σ ι) (s : σ) (pc : ThreadPc) :
    (w.setThread s pc).work (.sensor s) = some ⟨s, pc.holds, pc.wants⟩ := by
  simp only [work, setThread, Function.update_self]

theorem work_setThread_of_ne (w : World σ ι) {s : σ} {u : Tid σ ι} (hu : u ≠ .sensor s) (pc : ThreadPc) :
    (w.setThread s pc).work u = w.work u := by
  cases u with
  | session | main => rfl
  | sensor s' =>
    have hne : s' ≠ s := fun hs => hu (hs ▸ rfl)
    simp only [work, setThread, Function.update_of_ne hne]

theorem owner_put (w : World σ ι) (s : σ) (v : View (Tid σ ι)) (k : LocalLock) :
    (w.put s v).owner (k.at s) = v.owner k := by
  cases k with
  | common => rfl
  | condition | write => simp only [LocalLock.at, owner, put, Function.update_self, View.owner]

theorem owner_put_of_ne (w : World σ ι) (s : σ) (v : View (Tid σ ι)) (l : LockName σ)
    (h : ∀ k : LocalLock, l ≠ k.at s) : (w.put s v).owner l = w.owner l := by
  cases l with
  | common => exact absurd rfl (h .common)
  | condition s' =>
    have hne : s' ≠ s := fun hs => h .condition (hs ▸ rfl)
    simp only [owner, put, Function.update_of_ne hne]
  | write s' =>
    have hne : s' ≠ s := fun hs => h .write (hs ▸ rfl)
    simp only [owner, put, Function.update_of_ne hne]

/-- A step of one thread on the view of one sensor, whatever kind of thread it is. -/
theorem consistent_put {w w' : World σ ι} (hw : Consistent w.owner w.held) (t : Tid σ ι) (s : σ)
    (v : View (Tid σ ι)) (holds holds' : LocalLock → Prop) (howner : w'.owner = (w.put s v).owner)
    (hmoved : ∀ k, Moved t ((w.view s).owner k) (v.owner k) (holds k) (holds' k))
    (hheld : ∀ l, w.held t l ↔ ∃ k, holds k ∧ l = k.at s)
    (hheld' : ∀ l, w'.held t l ↔ ∃ k, holds' k ∧ l = k.at s)
    (hother : ∀ u, u ≠ t → w'.work u = w.work u) : Consistent w'.owner w'.held := by
  refine hw.moved t (fun l => ?_) (fun u hu => funext fun l => by rw [held, hother u hu]; rfl)
  rw [howner]
  by_cases hl : ∃ k : LocalLock, l = k.at s
  · obtain ⟨k, rfl⟩ := hl
    have hat (P : LocalLock → Prop) : (∃ k', P k' ∧ k.at s = k'.at s) ↔ P k :=
      ⟨fun ⟨k', hk', heq⟩ => LocalLock.at_inj heq ▸ hk', fun h => ⟨k, h, rfl⟩⟩
    have hview : w.owner (k.at s) = (w.view s).owner k := by cases k <;> rfl
    rw [owner_put, hview, hheld, hheld', hat, hat]
    exact hmoved k
  · have hne : ∀ k : LocalLock, l ≠ k.at s := fun k hk => hl ⟨k, hk⟩
    refine .kept (owner_put_of_ne w s v l hne) ?_
    rw [hheld, hheld']
    exact ⟨fun ⟨k, _, hk⟩ => absurd hk (hne k), fun ⟨k, _, hk⟩ => absurd hk (hne k)⟩

variable [DecidableEq ι] {sensorList : List σ}

theorem step_consistent {e : Event σ ι} {w w' : World σ ι} (hw : Consistent w.owner w.held)
    (h : w.step sensorList e = some w') : Consistent w'.owner w'.held := by
  cases e with
  | thread s rng delivered =>
    obtain ⟨⟨pc, v⟩, hpc, rfl⟩ := Option.map_eq_some_iff.mp h
    have hwork : w.work (.sensor s) = some ⟨s, (w.thread s).holds, (w.thread s).wants⟩ := rfl
    exact consistent_put hw (.sensor s) s v _ _ rfl (ThreadPc.step_moved hpc) (held_of_work hwork)
      (held_of_work (work_setThread _ s pc)) fun _ hu => work_setThread_of_ne (w.put s v) hu pc
  | timeout s =>
    simp only [step] at h
    split at h
    · cases h
      have hwork : w.work (.sensor s) = some ⟨s, (w.thread s).holds, (w.thread s).wants⟩ := rfl
      exact consistent_put hw (.sensor s) s _ _ _ rfl (fun k => by cases k <;> exact .kept rfl Iff.rfl)
        (held_of_work hwork) (held_of_work hwork) (fun _ _ => rfl)
    · cases h
  | begin i s c =>
    simp only [step] at h
    split at h
    · next hreturned =>
      cases h
      refine consistent_outside hw (.session i) rfl ?_ ?_ fun _ hu => work_setSession_of_ne w hu s c.start
      · exact Left.outside hreturned
      · intro x hx
        rw [work_setSession] at hx
        cases hx
        exact start_outside c
    · cases h
  | session i delivered =>
    rcases hi : w.session i with ⟨s, pc₀⟩
    simp only [step, hi] at h
    obtain ⟨⟨pc, v⟩, hpc, rfl⟩ := Option.map_eq_some_iff.mp h
    have hwork : w.work (.session i) = some ⟨s, pc₀.holds, pc₀.wants⟩ := by simp only [work, hi]
    exact consistent_put hw (.session i) s v _ _ rfl (CommandPc.step_moved hpc) (held_of_work hwork)
      (held_of_work (work_setSession _ i s pc)) fun _ hu => work_setSession_of_ne (w.put s v) hu s pc
  | interrupt =>
    simp only [step] at h
    split at h
    · next hmain =>
      cases h
      exact consistent_outside hw .main rfl (Left.outside (.inl hmain)) (setMode_outside _ sensorList rfl)
        fun _ hu => work_setMain_of_ne w hu _
    · cases h
  | main =>
    simp only [step] at h
    split at h
    · next s rest ph hmain =>
      obtain ⟨⟨ph', v⟩, hph, rfl⟩ := Option.map_eq_some_iff.mp h
      have hwork : w.work .main = some ⟨s, ph.holds, ph.wants⟩ := by simp only [work, hmain]
      refine consistent_put hw .main s v _ _ rfl (FreePhase.step_moved hph) (held_of_work hwork)
        (fun l => ?_) fun _ hu => work_setMain_of_ne (w.put s v) hu _
      cases ph' with
      | some ph' =>
        have hwork' : ((w.put s v).setMain (nextMain s rest (some ph'))).work .main =
          some ⟨s, ph'.holds, ph'.wants⟩ := rfl
        exact held_of_work hwork' l
      | none =>
        refine iff_of_false ((setMode_outside _ rest rfl).not_held l) ?_
        intro hsome
        obtain ⟨_, hk, _⟩ := hsome
        exact hk
    · cases h

/-- **Owners are holders.** In every reachable state. -/
theorem owners_consistent {w : World σ ι} (h : (system σ ι sensorList).Reachable w) :
    Consistent w.owner w.held :=
  h.invariant (I := fun w => Consistent w.owner w.held) (fun _ => initial_consistent)
    fun _ _ _ hw _ hs => step_consistent hw hs

/-! ### Deadlock -/

/-- **No deadlock, and no lock left behind.** -/
theorem locks_never_deadlock (w : World σ ι) (h : (system σ ι sensorList).Reachable w) :
    (∀ S : Set (Tid σ ι), ¬ Deadlocked w.owner w.wants S) ∧
      ∀ t, w.Left t → ∀ l, w.owner l ≠ some t := by
  have hw := owners_consistent h
  have hbound : ∀ l : LockName σ, l.rank ≤ 1 := fun l => by cases l <;> simp [LockName.rank]
  refine ⟨no_deadlock hw LockName.rank 1 hbound (fun t l hwant l' hheld => wants_after_held hwant hheld), ?_⟩
  intro t ht l hown
  exact ht.outside.not_held l ((hw l t).mp hown)

/-- A session has left `mode set fault`; the thread serves it and holds both its
condition and `common.lock`. -/
theorem locks_never_deadlock_fan : ∃ w : World Unit Unit,
    w.owner (.condition ()) = some (.sensor ()) ∧ w.owner .common = some (.sensor ()) ∧
      (∀ S : Set (Tid Unit Unit), ¬ Deadlocked w.owner w.wants S) ∧
      ∀ l, w.owner l ≠ some (.session ()) := by
  obtain ⟨w, hw, hcondition, hlock, hreturned⟩ := (fanWorld_reachable Unit System.any).exists_of_run
    (commandSteps () (.modeSet (.fault .lc)) 6 ++ threadSteps Unit 8)
    (fun w => (w.shared ()).condition.owner = some (.sensor ()) ∧ w.lock = some (.sensor ()) ∧
      (w.session ()).2 = .returned) (by decide +kernel)
  obtain ⟨hfree, hleft⟩ := locks_never_deadlock w hw
  exact ⟨w, hcondition, hlock, hfree, hleft (.session ()) hreturned⟩

end World
end Idic.IpmiSim
