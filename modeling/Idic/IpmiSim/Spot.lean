import Idic.IpmiSim.Ownership

/-! What holds at every sensor's spot.

A spot is `Sane` when the owner of the condition is the thread whose program point
says so, only the sensor's own thread sleeps in `wait`, and nobody works on the
sensor in a way its event type excludes. `invariant` packages the induction: a
property of the spot that every move preserves, at sane spots, holds in every
reachable state. -/
namespace Idic.IpmiSim
open Python Threads

theorem Sensor.withType_ok {α : Type} {s : Sensor} {expect : EventType} {fn : Except PyError α}
    {a : α} (h : s.withType expect fn = .ok a) : s.getEventType = expect := by
  unfold withType at h
  split at h
  · assumption
  · cases h

/-! ### The record -/

/-- A sensor with the same record: only what its threads write may differ. -/
def Sensor.SameRecord (s s' : Sensor) : Prop :=
  s' = {s with value := s'.value, mode := s'.mode, quit := s'.quit, faultLevel := s'.faultLevel}

theorem Sensor.SameRecord.eventType {s s' : Sensor} (h : s.SameRecord s') :
    s'.getEventType = s.getEventType := (congrArg getEventType h).trans rfl

theorem ThreadPc.writes_sameRecord (pc : ThreadPc) (obj : Sensor) : obj.SameRecord (pc.writes obj) := by
  cases pc <;> rfl

theorem CommandPc.writes_sameRecord (pc : CommandPc) (obj : Sensor) : obj.SameRecord (pc.writes obj) := by
  cases pc with
  | store x =>
    simp only [writes]
    split <;> rfl
  | _ => rfl

theorem FreePhase.writes_sameRecord (ph : FreePhase) (obj : Sensor) : obj.SameRecord (ph.writes obj) := by
  cases ph <;> rfl

/-! ### Event types -/

/-- The points that only sensors of one event type lead to. -/
def CommandPc.Fits (pc : CommandPc) (ty : EventType) : Prop :=
  match pc with
  | .send .. => ty = .threshold
  | .lockWrite .. | .storeText _ | .bits .. => ty = .discrete
  | _ => True

theorem Command.start_fits (c : Command) (ty : EventType) : c.start.Fits ty := by
  cases c with
  | modeSet r => cases r <;> trivial
  | selSet checked => cases checked <;> trivial
  | _ => trivial

theorem DiscreteCall.locked_ok {c : DiscreteCall} {s : Sensor} {l : Locked} (h : c.locked s = .ok l) :
    s.getEventType = .discrete := by
  cases c <;> exact Sensor.withType_ok h

theorem ValueArg.call_fits (a : ValueArg) (s : Sensor) (ty : EventType) : (a.call s).Fits ty := by
  rcases a.call_eq s with h | ⟨x, -, h⟩ | ⟨text, -, h⟩ <;> rw [h] <;> trivial

theorem CommandPc.Next.fits {obj : Sensor} {pc pc' : CommandPc} (h : pc.Next obj pc')
    (hfits : pc.Fits obj.getEventType) : pc'.Fits obj.getEventType := by
  cases h with
  | calls a => exact a.call_fits ..
  | stored _ ht => exact ht
  | computed hok => exact DiscreteCall.locked_ok hok
  | sending | locked | storedText | sendingBit | sentBit => exact hfits
  | _ => trivial

namespace Spot
variable {σ ι : Type}

structure Typed (p : Spot σ ι) : Prop where
  thread : p.shared.obj.getEventType ≠ .threshold → p.thread = .ended
  session : ∀ i, (p.session i).Fits p.shared.obj.getEventType

/-! ### Sleepers -/

/-- Nobody but the sensor's thread sleeps in its condition, and then it is at `wait`. -/
def Waits (s : σ) (p : Spot σ ι) : Prop :=
  p.shared.condition.waiters = [] ∨
    p.shared.condition.waiters = [.sensor s] ∧ ∃ timed, p.thread = .waiting timed

theorem Waits.nil {s : σ} {p : Spot σ ι} (h : p.Waits s) (ht : ∀ timed, p.thread ≠ .waiting timed) :
    p.shared.condition.waiters = [] :=
  h.resolve_right fun ⟨_, timed, hw⟩ => ht timed hw

theorem Waits.tail {s : σ} {p : Spot σ ι} (h : p.Waits s) : p.shared.condition.waiters.tail = [] := by
  rcases h with h | ⟨h, -⟩ <;> rw [h] <;> rfl

/-- A move that leaves the thread alone and wakes it at most. -/
theorem Waits.of_le {s : σ} {p p' : Spot σ ι} (h : p.Waits s) (hthread : p'.thread = p.thread)
    (hw : p'.shared.condition.waiters = p.shared.condition.waiters ∨
      p'.shared.condition.waiters = p.shared.condition.waiters.tail) : p'.Waits s := by
  rcases hw with hw | hw
  · rwa [Waits, hw, hthread]
  · exact .inl (hw.trans h.tail)

theorem Waits.thread [DecidableEq (Tid σ ι)] {s : σ} {p : Spot σ ι} (h : p.Waits s) {rng : Nat}
    {delivered : Bool} {v v' : View (Tid σ ι)} (hv : v.toShared = p.shared) {pc : ThreadPc}
    (hstep : p.thread.step (.sensor s) rng delivered v = some (pc, v')) :
    ({p with shared := v'.toShared, thread := pc} : Spot σ ι).Waits s := by
  obtain ⟨-, hwaiters, -⟩ := ThreadPc.step_effect hstep
  have hcondition : v.condition = p.shared.condition := congrArg Shared.condition hv
  rw [hcondition] at hwaiters
  cases hpc : p.thread with
  | wait | timedWait =>
    have hnil := h.nil (fun timed => by rw [hpc]; exact nofun)
    rw [hpc] at hstep hwaiters
    cases hstep
    refine .inr ⟨hwaiters.trans ?_, _, rfl⟩
    rw [hnil]
    rfl
  | waiting timed =>
    rw [hpc] at hstep hwaiters
    obtain ⟨c, hc, -⟩ := Option.map_eq_some_iff.mp hstep
    obtain ⟨hnot, -, -⟩ := Condition.wake_eq_some hc
    rw [hcondition] at hnot
    refine .inl (hwaiters.trans (h.resolve_right ?_))
    intro hboth
    obtain ⟨hsleep, -⟩ := hboth
    rw [hsleep] at hnot
    exact hnot (List.mem_singleton.mpr rfl)
  | _ =>
    rw [hpc] at hwaiters
    exact .inl (hwaiters.trans (h.nil (fun timed => by rw [hpc]; exact nofun)))

/-! ### Owners -/

/-- The owners of the sensor's two locks, at their program points. -/
structure Owned (s : σ) (p : Spot σ ι) : Prop where
  sensor : p.shared.condition.owner = some (.sensor s) ↔ p.thread.InIteration
  session : ∀ i, p.shared.condition.owner = some (.session i) ↔ (p.session i).holds .condition
  main : p.shared.condition.owner = some .main ↔ ∃ ph, p.main = .at ph ∧ ph.holds .condition
  write : ∀ i, p.shared.lockSensorWrite = some (.session i) ↔ (p.session i).holds .write

structure Sane (s : σ) (p : Spot σ ι) : Prop where
  owned : p.Owned s
  waits : p.Waits s
  typed : p.Typed

/-- While a session notifies, the thread is outside its iterations. -/
theorem Sane.not_inIteration {s : σ} {p : Spot σ ι} (h : p.Sane s) {i : ι}
    (hi : (p.session i).holds .condition) : ¬ p.thread.InIteration := by
  intro ht
  have hown := h.owned.sensor.mpr ht
  rw [(h.owned.session i).mpr hi] at hown
  cases hown

theorem Sane.main_not_inIteration {s : σ} {p : Spot σ ι} (h : p.Sane s) {ph : FreePhase}
    (hat : p.main = .at ph) (hph : ph.holds .condition) : ¬ p.thread.InIteration := by
  intro ht
  have hown := h.owned.sensor.mpr ht
  rw [h.owned.main.mpr ⟨ph, hat, hph⟩] at hown
  cases hown

theorem held_sensor (w : World σ ι) (s : σ) :
    w.held (.sensor s) (.condition s) ↔ (w.thread s).InIteration := by
  rw [World.held_of_work (x := ⟨s, (w.thread s).holds, (w.thread s).wants⟩) rfl]
  constructor
  · intro hsome
    obtain ⟨k, hk, heq⟩ := hsome
    obtain ⟨-, rfl⟩ := LocalLock.at_eq (k := .condition) (by decide) heq
    exact hk
  · intro ht
    exact ⟨.condition, ht, rfl⟩

variable [DecidableEq σ]

theorem held_session (w : World σ ι) (s : σ) (i : ι) {k : LocalLock} (hk : k ≠ .common) :
    w.held (.session i) (k.at s) ↔ (w.on s i).holds k := by
  rcases hi : w.session i with ⟨s', pc⟩
  rw [World.held_of_work (x := ⟨s', pc.holds, pc.wants⟩) (by simp only [World.work, hi])]
  constructor
  · intro hsome
    obtain ⟨k', hk', heq⟩ := hsome
    obtain ⟨rfl, rfl⟩ := LocalLock.at_eq hk heq
    rw [World.on_of_eq hi]
    exact hk'
  · intro hon
    by_cases hs : s' = s
    · subst hs
      rw [World.on_of_eq hi] at hon
      exact ⟨k, hon, rfl⟩
    · rw [World.on_of_ne hi hs] at hon
      cases k <;> exact hon.elim

theorem held_main (w : World σ ι) (s : σ) :
    w.held .main (.condition s) ↔ ∃ ph, w.main.at s = .at ph ∧ ph.holds .condition := by
  constructor
  · intro hsome
    obtain ⟨x, hx, k, hk, heq⟩ := hsome
    simp only [World.work] at hx
    split at hx
    · next s' rest ph hmain =>
      cases hx
      obtain ⟨rfl, rfl⟩ := LocalLock.at_eq (k := .condition) (by decide) heq
      exact ⟨ph, by simp only [hmain, MainPc.at, if_true], hk⟩
    · cases hx
  · intro hsome
    obtain ⟨ph, hat, hph⟩ := hsome
    unfold MainPc.at at hat
    split at hat
    · cases hat
    · cases hat
    · next s' rest ph' hmain =>
      split at hat
      · next hs =>
        subst hs
        cases hat
        exact ⟨⟨s', ph.holds, ph.wants⟩, by simp [World.work, hmain], .condition, hph, rfl⟩
      · split at hat <;> cases hat

theorem owned_of_consistent {w : World σ ι} (h : Threads.Consistent w.owner w.held) (s : σ) :
    (w.spot s).Owned s where
  sensor := (h (.condition s) (.sensor s)).trans (held_sensor w s)
  session i := (h (.condition s) (.session i)).trans (held_session w s i (k := .condition) (by decide))
  main := (h (.condition s) .main).trans (held_main w s)
  write i := (h (.write s) (.session i)).trans (held_session w s i (k := .write) (by decide))

/-! ### Reachable spots -/

theorem initial_waits {w : World σ ι} (h : w.Initial) (s : σ) : (w.spot s).Waits s :=
  .inl (congrArg Condition.waiters (h.condition s))

theorem initial_typed {w : World σ ι} (h : w.Initial) (s : σ) : (w.spot s).Typed where
  thread hty := (h.thread s).trans (if_neg hty)
  session i := by
    rw [h.on_returned]
    trivial

variable [DecidableEq ι] {sensorList : List σ}

theorem Moves.waits {listed : Prop} {s : σ} {e : Event σ ι} {p p' : Spot σ ι} (h : p.Waits s)
    (hm : p.Moves listed s e p') : p'.Waits s := by
  cases hm with
  | thread hstep => exact h.thread rfl hstep
  | timeout =>
    refine .inl ?_
    rcases h with h | ⟨h, -⟩ <;> simp [Condition.expire, h]
  | begin => exact h
  | session hstep =>
    refine h.of_le rfl ?_
    obtain ⟨-, hwaiters, -⟩ := CommandPc.step_effect hstep
    rw [hwaiters]
    unfold CommandPc.waits
    split
    · exact .inr rfl
    · exact .inl rfl
  | mainTurn _ hstep | mainLeaves _ hstep =>
    refine h.of_le rfl ?_
    obtain ⟨-, hwaiters, -⟩ := FreePhase.step_effect hstep
    rw [hwaiters]
    unfold FreePhase.waits
    split
    · exact .inr rfl
    · exact .inl rfl
  | elsewhere => exact h

theorem Moves.sameRecord {listed : Prop} {s : σ} {e : Event σ ι} {p p' : Spot σ ι}
    (hm : p.Moves listed s e p') : p.shared.obj.SameRecord p'.shared.obj := by
  cases hm with
  | thread hstep =>
    obtain ⟨hobj, -, -⟩ := ThreadPc.step_effect hstep
    exact hobj ▸ ThreadPc.writes_sameRecord _ _
  | session hstep =>
    obtain ⟨hobj, -, -⟩ := CommandPc.step_effect hstep
    exact hobj ▸ CommandPc.writes_sameRecord _ _
  | mainTurn _ hstep | mainLeaves _ hstep =>
    obtain ⟨hobj, -, -⟩ := FreePhase.step_effect hstep
    exact hobj ▸ FreePhase.writes_sameRecord _ _
  | timeout | begin | elsewhere => rfl

/-- The event type is the record's. -/
theorem Moves.eventType {listed : Prop} {s : σ} {e : Event σ ι} {p p' : Spot σ ι}
    (hm : p.Moves listed s e p') : p'.shared.obj.getEventType = p.shared.obj.getEventType :=
  hm.sameRecord.eventType

theorem Moves.typed {listed : Prop} {s : σ} {e : Event σ ι} {p p' : Spot σ ι} (h : p.Typed)
    (hm : p.Moves listed s e p') : p'.Typed := by
  have hty := hm.eventType
  cases hm with
  | thread hstep =>
    refine ⟨fun hne => ?_, fun i => hty ▸ h.session i⟩
    rw [h.thread (hty ▸ hne)] at hstep
    cases hstep
  | begin c =>
    refine ⟨h.thread, ?_⟩
    rw [Function.forall_update_iff _ fun _ pc => CommandPc.Fits pc _]
    exact ⟨c.start_fits _, fun j _ => h.session j⟩
  | @session i _ _ _ _ hstep =>
    refine ⟨fun hne => h.thread (hty ▸ hne), ?_⟩
    rw [Function.forall_update_iff _ fun _ pc => CommandPc.Fits pc _, hty]
    exact ⟨(CommandPc.step_next hstep).fits (h.session i), fun j _ => h.session j⟩
  | mainTurn | mainLeaves => exact ⟨fun hne => h.thread (hty ▸ hne), fun i => hty ▸ h.session i⟩
  | timeout | elsewhere => exact ⟨h.thread, h.session⟩

theorem reachable_sane {w : World σ ι} (h : (system σ ι sensorList).Reachable w) (s : σ) :
    (w.spot s).Sane s where
  owned := owned_of_consistent (World.owners_consistent h) s
  waits := h.invariant (I := fun w => (w.spot s).Waits s) (fun _ hw => initial_waits hw s)
    fun _ _ _ hI _ hs => (World.step_moves s hs).waits hI
  typed := h.invariant (I := fun w => (w.spot s).Typed) (fun _ hw => initial_typed hw s)
    fun _ _ _ hI _ hs => (World.step_moves s hs).typed hI

/-- What every move at a sane spot preserves holds of every reachable state. -/
theorem invariant {allowed : Event σ ι → World σ ι → Prop} (s : σ) {I : Spot σ ι → Prop}
    (hinit : ∀ w : World σ ι, w.Initial → I (w.spot s))
    (hmoves : ∀ e w p', (w.spot s).Sane s → I (w.spot s) → allowed e w →
      (w.spot s).Moves (s ∈ sensorList) s e p' → I p')
    {w : World σ ι} (h : (system σ ι sensorList).Reach allowed w) : I (w.spot s) :=
  h.invariantWith (J := fun w => (w.spot s).Sane s) (fun _ hw => reachable_sane hw.reachable s)
    hinit fun e w _ hsane hI ha hs => hmoves e w _ hsane hI ha (World.step_moves s hs)

/-- The same for a history variable that watches the runs. -/
theorem invariantWithHistory {M : System (World σ ι) (Event σ ι)} {H : Type} {start : H}
    {update : Event σ ι → World σ ι → H → H} {allowed : Event σ ι → World σ ι × H → Prop} (s : σ)
    {I : Spot σ ι → H → Prop} (hM : ∀ w, M.init w → w.Initial) (hstep : M.step = World.step sensorList)
    (hinit : ∀ w, M.init w → I (w.spot s) start)
    (hmoves : ∀ e w h p', (w.spot s).Sane s → I (w.spot s) h → allowed e (w, h) →
      (w.spot s).Moves (s ∈ sensorList) s e p' → I p' (update e w h))
    {x : World σ ι × H} (h : (M.withHistory start update).Reach allowed x) : I (x.1.spot s) x.2 := by
  have hsane : ∀ x : World σ ι × H, (M.withHistory start update).Reach allowed x →
      (x.1.spot s).Sane s := by
    intro x hx
    have hreach : (system σ ι sensorList).Reachable x.1 := System.Reach.mono hM hstep hx.erase
    exact reachable_sane hreach s
  refine h.invariantWith (J := fun x => (x.1.spot s).Sane s) (I := fun x => I (x.1.spot s) x.2)
    hsane ?_ ?_
  · rintro ⟨w, h⟩ ⟨hw, rfl⟩
    exact hinit w hw
  · rintro e ⟨w, h⟩ x' hsane hI ha hs
    obtain ⟨w', hw', rfl⟩ := Option.map_eq_some_iff.mp hs
    rw [hstep] at hw'
    exact hmoves e w h _ hsane hI ha (World.step_moves s hw')

end Spot
end Idic.IpmiSim
