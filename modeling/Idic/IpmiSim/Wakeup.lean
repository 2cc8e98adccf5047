import Idic.IpmiSim.Spot

/-! Who wakes a sensor's thread.

A thread that found its sensor in user mode sleeps until it is notified. A session
notifies it when the mode it read before writing was user; that read may be stale.
`no_lost_wakeup` says that this is the only way to leave the thread asleep in
another mode. `free_resource` notifies each thread once; `no_stranded_thread` says
that this misses a thread only between its test of the quit flag and its
`acquire`. -/
namespace Idic.IpmiSim
open Python Threads

/-- The mode request a session is about to write, with the mode it read before. -/
def CommandPc.modeWrite? : CommandPc → Option (ModeRequest × Mode)
  | .writeMode r preMode => some (r, preMode)
  | _ => none

/-- The points of a thread that `free_resource` has notified. -/
def ThreadPc.WayOut : ThreadPc → Prop
  | .testQuit | .waiting _ | .woken | .release _ | .ended | .died _ => True
  | _ => False

namespace Spot
variable {σ ι : Type}

/-- Blocked in the untimed `wait`, and not notified. -/
def Asleep (s : σ) (p : Spot σ ι) : Prop :=
  p.thread = .waiting false ∧ .sensor s ∈ p.shared.condition.waiters

/-- Asleep, or bound to be: the mode has been read. -/
def Committed (s : σ) (p : Spot σ ι) : Prop := p.thread = .wait ∨ p.Asleep s

/-- A session has yet to notify the thread. -/
def OnTheWay (p : Spot σ ι) : Prop := ∃ i ph a, p.session i = .notify ph a ∧ ph ≠ .release

/-! ### Lost wake-ups -/

/-- A mode to serve, a thread asleep and no session to wake it. -/
def LostWakeup (s : σ) (p : Spot σ ι) : Prop :=
  p.shared.obj.mode ≠ .user ∧ p.Asleep s ∧ ¬ p.OnTheWay

/-- The invariant: who commits to sleep has read user mode, and a session that
changes the mode after that notifies. -/
def Attended (s : σ) (p : Spot σ ι) : Prop :=
  p.Committed s → p.shared.obj.mode = .user ∨ p.OnTheWay

theorem committed_next {obj : Sensor} {pc pc' : ThreadPc} (h : pc.Next obj pc')
    (hc : pc' = .wait ∨ pc' = .waiting false) :
    pc = .wait ∨ pc = .testUser ∧ obj.mode = .user := by
  rcases hc with rfl | rfl
  · cases h with
    | user hm => exact .inr ⟨rfl, hm⟩
  · cases h with
    | sleep => exact .inl rfl

theorem not_asleep_of_tail {s : σ} {p : Spot σ ι} (h : p.Waits s) :
    .sensor s ∉ p.shared.condition.waiters.tail := by
  rw [h.tail]
  exact List.not_mem_nil

theorem committed_of_notified {s : σ} {p : Spot σ ι} (h : p.Sane s) {shared : Shared (Tid σ ι)}
    (hw : shared.condition.waiters = p.shared.condition.waiters.tail)
    (hout : ¬ p.thread.InIteration) {session : ι → CommandPc} {main : MainAt} :
    ¬ ({p with shared := shared, session := session, main := main} : Spot σ ι).Committed s := by
  intro hcase
  rcases hcase with hwait | ⟨-, hasleep⟩
  · exact hout (show p.thread.InIteration by rw [show p.thread = .wait from hwait]; trivial)
  · rw [show shared.condition.waiters = _ from hw] at hasleep
    exact not_asleep_of_tail h.waits hasleep

theorem Attended.main {s : σ} {p : Spot σ ι} (hsane : p.Sane s) (h : p.Attended s) {ph : FreePhase}
    (hat : p.main = .at ph) {l : Option (Tid σ ι)} {ph' : Option FreePhase} {v : View (Tid σ ι)}
    {main : MainAt} (hstep : ph.step .main ⟨p.shared, l⟩ = some (ph', v)) :
    ({p with shared := v.toShared, main := main} : Spot σ ι).Attended s := by
  obtain ⟨hobj, hwaiters, -⟩ := FreePhase.step_effect hstep
  intro hc
  have hcommitted : p.Committed s := hc.imp_right fun ⟨ht, hmem⟩ =>
    ⟨ht, FreePhase.mem_waits (hwaiters ▸ hmem)⟩
  cases ph with
  | setMode => exact .inl (hobj ▸ rfl)
  | setQuit => exact (h hcommitted).imp (hobj ▸ ·) id
  | notify ph =>
    cases ph with
    | acquire | release => exact (h hcommitted).imp (hobj ▸ ·) id
    | notify =>
      have hout := hsane.main_not_inIteration hat trivial
      exact absurd hc (committed_of_notified hsane hwaiters hout)

theorem OnTheWay.update [DecidableEq ι] {p : Spot σ ι} {i : ι} (h : p.OnTheWay)
    (hi : ∀ ph a, p.session i = .notify ph a → ph = .release) {shared : Shared (Tid σ ι)}
    (pc : CommandPc) : ({p with shared := shared, session := Function.update p.session i pc} :
      Spot σ ι).OnTheWay := by
  obtain ⟨j, ph, a, hj, hph⟩ := h
  have hne : j ≠ i := fun heq => hph (hi ph a (heq ▸ hj))
  exact ⟨j, ph, a, (Function.update_of_ne hne ..).trans hj, hph⟩

/-- A session that changes user mode while the thread is bound to sleep has read
user mode. -/
def ReadsUser (s : σ) (e : Event σ ι) (p : Spot σ ι) : Prop :=
  ∀ i ∈ e.session?, ∀ write ∈ (p.session i).modeWrite?,
    write.1.mode ≠ .user → p.shared.obj.mode = .user → p.Committed s → write.2 = .user

theorem Attended.session [DecidableEq ι] {s : σ} {p : Spot σ ι} (hsane : p.Sane s) (h : p.Attended s) {i : ι}
    {delivered : Bool} {v v' : View (Tid σ ι)} (hv : v.toShared = p.shared) {pc : CommandPc}
    (ha : p.ReadsUser s (.session i delivered))
    (hstep : (p.session i).step (.session i) delivered v = some (pc, v')) :
    ({p with shared := v'.toShared, session := Function.update p.session i pc} : Spot σ ι).Attended s := by
  obtain ⟨hobj, hwaiters, -⟩ := CommandPc.step_effect hstep
  have hnext := CommandPc.step_next hstep
  rw [show v.obj = p.shared.obj from congrArg Shared.obj hv] at hobj
  rw [show v.condition = p.shared.condition from congrArg Shared.condition hv] at hwaiters
  intro hc
  have hcommitted : p.Committed s := hc.imp_right fun ⟨ht, hmem⟩ =>
    ⟨ht, CommandPc.mem_waits (hwaiters ▸ hmem)⟩
  have hmode : v'.obj.mode = (p.session i).writesMode.getD p.shared.obj.mode := by
    rw [hobj, CommandPc.writes_mode]
  cases hpc : p.session i with
  | notify ph a =>
    rw [hpc] at hwaiters hmode hnext
    cases ph with
    | notify =>
      have hout := hsane.not_inIteration (show (p.session i).holds .condition by rw [hpc]; trivial)
      exact absurd hc (committed_of_notified hsane hwaiters hout)
    | acquire =>
      cases hnext with
      | notifying _ hph =>
        cases hph
        exact .inr ⟨i, .notify, a, Function.update_self .., nofun⟩
    | release =>
      exact (h hcommitted).imp hmode.trans fun hway => hway.update (by simp [hpc]) pc
  | writeMode r preMode =>
    rw [hpc] at hmode hnext
    by_cases hr : r.mode = .user
    · exact .inl (hmode.trans hr)
    rcases h hcommitted with huser | hway
    · -- The mode leaves user here, and the session has seen it.
      obtain rfl : preMode = .user := ha i rfl (r, preMode) (by rw [hpc]; rfl) hr huser hcommitted
      cases hnext with
      | wakes => exact .inr ⟨i, .acquire, none, Function.update_self .., nofun⟩
      | wakesNot hnot => exact absurd ⟨hr, rfl⟩ hnot
    · exact .inr (hway.update (by simp [hpc]) pc)
  | writeUser a =>
    rw [hpc] at hmode
    exact .inl hmode
  | _ =>
    rw [hpc] at hmode
    exact (h hcommitted).imp hmode.trans fun hway => hway.update (by simp [hpc]) pc

theorem attended_moves [DecidableEq σ] [DecidableEq ι] {listed : Prop} {s : σ} {e : Event σ ι}
    {p p' : Spot σ ι}
    (hsane : p.Sane s) (h : p.Attended s) (ha : p.ReadsUser s e) (hm : p.Moves listed s e p') :
    p'.Attended s := by
  cases hm with
  | @thread _ _ _ pc v hstep =>
    obtain ⟨hobj, hwaiters, -⟩ := ThreadPc.step_effect hstep
    have hnext := ThreadPc.step_next hstep
    intro hc
    rcases committed_next hnext (hc.imp_right And.left) with hwait | ⟨huser, hmode⟩
    · rw [hwait] at hobj
      exact (h (.inl hwait)).imp (hobj ▸ ·) id
    · rw [huser] at hobj
      exact .inl (hobj ▸ hmode)
  | timeout hw =>
    intro hcase
    rcases hcase with hwait | ⟨hasleep, -⟩
    · rw [show p.thread = .wait from hwait] at hw
      cases hw
    · rw [show p.thread = .waiting false from hasleep] at hw
      cases hw
  | begin c hreturned =>
    intro hc
    exact (h hc).imp id fun hway => hway.update (by simp [hreturned]) _
  | session hstep => exact h.session hsane rfl ha hstep
  | mainTurn hat hstep | mainLeaves hat hstep => exact h.main hsane hat hstep
  | elsewhere => exact h

/-! ### Shutdown -/

/-- `free_resource` does not notify while the thread is between its test of the
quit flag and its `acquire`. -/
def NotifiesInTime (e : Event σ ι) (p : Spot σ ι) : Prop :=
  e = .main → p.main = .at (.notify .notify) → p.thread ≠ .acquire

/-- The thread is on its way out, and nothing will put it to sleep again. -/
structure Leaving (s : σ) (p : Spot σ ι) : Prop where
  quit : p.shared.obj.quit = true
  point : p.thread.WayOut
  notified : .sensor s ∉ p.shared.condition.waiters

/-- The invariant: the notification of `free_resource` finds the flag set and
leaves the thread on its way out. -/
structure Freed (s : σ) (p : Spot σ ι) : Prop where
  quit : ∀ ph, p.main = .at (.notify ph) → p.shared.obj.quit = true
  leaving : p.main = .at (.notify .release) ∨ p.main = .past → p.Leaving s

/-- A move of others keeps a leaving thread leaving. -/
theorem Leaving.of_le {s : σ} {p p' : Spot σ ι} (h : p.Leaving s)
    (hquit : p'.shared.obj.quit = p.shared.obj.quit) (hthread : p'.thread = p.thread)
    (hw : .sensor s ∈ p'.shared.condition.waiters → .sensor s ∈ p.shared.condition.waiters) :
    p'.Leaving s :=
  ⟨hquit.trans h.quit, hthread ▸ h.point, fun hmem => h.notified (hw hmem)⟩

theorem Leaving.thread [DecidableEq σ] [DecidableEq ι] {s : σ} {p : Spot σ ι} (h : p.Leaving s)
    {rng : Nat} {delivered : Bool}
    {l : Option (Tid σ ι)} {pc : ThreadPc} {v : View (Tid σ ι)}
    (hstep : p.thread.step (.sensor s) rng delivered ⟨p.shared, l⟩ = some (pc, v)) :
    ({p with shared := v.toShared, thread := pc} : Spot σ ι).Leaving s := by
  obtain ⟨hobj, hwaiters, -⟩ := ThreadPc.step_effect hstep
  have hnext := ThreadPc.step_next hstep
  have hpoint := h.point
  have hquit : v.obj.quit = true := by rw [hobj, ThreadPc.writes_quit]; exact h.quit
  have hnotified : .sensor s ∉ v.condition.waiters := by
    rw [hwaiters]
    cases hpc : p.thread <;> rw [hpc] at hpoint <;> first | exact hpoint.elim | exact h.notified
  refine ⟨hquit, ?_, hnotified⟩
  cases hpc : p.thread <;> rw [hpc] at hnext hpoint <;> cases hnext <;>
    first | exact hpoint.elim | trivial | skip
  -- A thread that tests the flag finds it set.
  next hgo => exact absurd (h.quit.symm.trans hgo) nofun

/-- The notification of `free_resource`: the thread is outside its iterations, and
not at `acquire`. -/
theorem leaving_of_notify {s : σ} {p : Spot σ ι} (hsane : p.Sane s) (hat : p.main = .at (.notify .notify))
    (hquit : p.shared.obj.quit = true) (hnot : p.thread ≠ .acquire) {shared : Shared (Tid σ ι)}
    (hobj : shared.obj = p.shared.obj)
    (hw : shared.condition.waiters = p.shared.condition.waiters.tail) {main : MainAt} :
    ({p with shared := shared, main := main} : Spot σ ι).Leaving s := by
  have hout := hsane.main_not_inIteration hat trivial
  refine ⟨(congrArg Sensor.quit hobj).trans hquit, ?_, hw ▸ not_asleep_of_tail hsane.waits⟩
  show p.thread.WayOut
  cases hpc : p.thread <;> rw [hpc] at hout hnot <;>
    first | trivial | exact absurd rfl hnot | exact absurd trivial hout

theorem Freed.turn {s : σ} {p : Spot σ ι} (hsane : p.Sane s) (h : p.Freed s)
    (ha : p.NotifiesInTime .main) {ph ph' : FreePhase} (hat : p.main = .at ph)
    {l : Option (Tid σ ι)} {v : View (Tid σ ι)}
    (hstep : ph.step .main ⟨p.shared, l⟩ = some (some ph', v)) :
    ({p with shared := v.toShared, main := .at ph'} : Spot σ ι).Freed s := by
  obtain ⟨hobj, hwaiters, -⟩ := FreePhase.step_effect hstep
  have hnext := FreePhase.step_next hstep
  cases ph with
  | setMode =>
    cases hnext
    exact ⟨nofun, by simp⟩
  | setQuit =>
    cases hnext
    exact ⟨fun _ _ => congrArg Sensor.quit hobj, by simp⟩
  | notify ph =>
    have hquit : v.obj.quit = true := (congrArg Sensor.quit hobj).trans (h.quit ph hat)
    refine ⟨fun _ _ => hquit, fun hdone => ?_⟩
    cases ph with
    | acquire =>
      cases hnext
      simp at hdone
    | notify => exact leaving_of_notify hsane hat (h.quit _ hat) (ha rfl hat) hobj hwaiters
    | release => cases hnext

theorem Freed.leaves {s : σ} {p : Spot σ ι} (h : p.Freed s) {ph : FreePhase} (hat : p.main = .at ph)
    {l : Option (Tid σ ι)} {v : View (Tid σ ι)} {m : MainAt}
    (hstep : ph.step .main ⟨p.shared, l⟩ = some (none, v)) (hleft : m.Left) :
    ({p with shared := v.toShared, main := m} : Spot σ ι).Freed s := by
  obtain ⟨hobj, hwaiters, -⟩ := FreePhase.step_effect hstep
  have hnext := FreePhase.step_next hstep
  refine ⟨fun ph' hph' => absurd (hleft _ hph') nofun, fun hdone => ?_⟩
  rcases hdone with hrelease | -
  · exact absurd (hleft _ hrelease) nofun
  cases ph with
  | setMode | setQuit => cases hnext
  | notify ph =>
    cases ph with
    | acquire | notify => cases hnext
    | release =>
      exact (h.leaving (.inl hat)).of_le (congrArg Sensor.quit hobj) rfl fun hmem =>
        FreePhase.mem_waits (hwaiters ▸ hmem)

theorem freed_moves [DecidableEq σ] [DecidableEq ι] {listed : Prop} (hlisted : listed) {s : σ}
    {e : Event σ ι} {p p' : Spot σ ι} (hsane : p.Sane s) (h : p.Freed s) (ha : p.NotifiesInTime e)
    (hm : p.Moves listed s e p') : p'.Freed s := by
  cases hm with
  | thread hstep =>
    obtain ⟨hobj, -, -⟩ := ThreadPc.step_effect hstep
    have hquit := (congrArg Sensor.quit hobj).trans (ThreadPc.writes_quit _ _)
    exact ⟨fun ph hph => hquit.trans (h.quit ph hph), fun hdone => (h.leaving hdone).thread hstep⟩
  | timeout =>
    exact ⟨h.quit, fun hdone => (h.leaving hdone).of_le rfl rfl List.mem_of_mem_erase⟩
  | begin => exact ⟨h.quit, fun hdone => (h.leaving hdone).of_le rfl rfl id⟩
  | session hstep =>
    obtain ⟨hobj, hwaiters, -⟩ := CommandPc.step_effect hstep
    have hquit := (congrArg Sensor.quit hobj).trans (CommandPc.writes_quit _ _)
    exact ⟨fun ph hph => hquit.trans (h.quit ph hph), fun hdone =>
      (h.leaving hdone).of_le hquit rfl fun hmem => CommandPc.mem_waits (hwaiters ▸ hmem)⟩
  | mainTurn hat hstep => exact h.turn hsane ha hat hstep
  | mainLeaves hat hstep hleft => exact h.leaves hat hstep hleft
  | elsewhere _ honward =>
    generalize hmain : p.main = m at honward
    cases honward with
    | stay => exact hmain ▸ h
    | arrive => exact ⟨nofun, by simp⟩
    | unlisted hnot => exact absurd hlisted hnot

theorem initial_attended [DecidableEq σ] {w : World σ ι} (h : w.Initial) (s : σ) : (w.spot s).Attended s :=
  fun _ => .inl (h.fresh s).mode

theorem initial_freed [DecidableEq σ] {w : World σ ι} (h : w.Initial) (s : σ) : (w.spot s).Freed s := by
  have hmain : (w.spot s).main = .ahead := congrArg (MainPc.at · s) h.main
  exact ⟨by simp [hmain], by simp [hmain]⟩

section Decidable
variable [DecidableEq σ] [DecidableEq ι]

instance (s : σ) (p : Spot σ ι) : Decidable (p.Asleep s) :=
  inferInstanceAs (Decidable (_ = _ ∧ _ ∈ _))

instance (s : σ) (p : Spot σ ι) : Decidable (p.Committed s) :=
  inferInstanceAs (Decidable (_ = _ ∨ p.Asleep s))

instance (s : σ) (e : Event σ ι) (p : Spot σ ι) : Decidable (p.ReadsUser s e) :=
  inferInstanceAs (Decidable (∀ i ∈ e.session?, ∀ write ∈ (p.session i).modeWrite?, _))

instance (e : Event σ ι) (p : Spot σ ι) : Decidable (p.NotifiesInTime e) :=
  inferInstanceAs (Decidable (_ → _ → _))

end Decidable

end Spot

variable {σ ι : Type} [DecidableEq σ] [DecidableEq ι]

/-- **No lost wake-up.** In every run whose sessions have read user mode when they
change it under a thread that is bound to sleep. -/
theorem no_lost_wakeup (sensorList : List σ) (s : σ) (w : World σ ι)
    (h : (system σ ι sensorList).Reach (fun e w => (w.spot s).ReadsUser s e) w) :
    ¬ (w.spot s).LostWakeup s := by
  have hattended : (w.spot s).Attended s :=
    Spot.invariant s (fun _ hw => Spot.initial_attended hw s)
      (fun _ _ _ hsane hI ha hm => Spot.attended_moves hsane hI ha hm) h
  intro hboth
  obtain ⟨hmode, hasleep, hway⟩ := hboth
  exact (hattended (.inr hasleep)).elim hmode hway

/-! ### A run that loses one -/

/-- The second request reads fault, the thread resets it and goes to sleep, and
then the request writes auto. -/
def lostWakeupRun : List (Event Unit Unit) :=
  commandSteps () (.modeSet (.fault .lc)) 6 ++ threadSteps Unit 5 ++
    commandSteps () (.modeSet .auto) 1 ++ threadSteps Unit 11 ++ sessionSteps () 1

theorem fan_stays_asleep : ∃ w : World Unit Unit,
    (system Unit Unit [()]).Reachable w ∧ (w.spot ()).LostWakeup () := by
  obtain ⟨w, hw, hmode, hasleep, hreturned⟩ := (fanWorld_reachable Unit System.any).exists_of_run lostWakeupRun
    (fun w => (w.shared ()).obj.mode ≠ .user ∧ (w.spot ()).Asleep () ∧ w.on () () = .returned)
    (by decide +kernel)
  refine ⟨w, hw, hmode, hasleep, ?_⟩
  intro hsome
  obtain ⟨_, ph, a, hi, -⟩ := hsome
  cases hreturned.symm.trans hi

/-- The thread is asleep, and a session that has just written auto is on its way. -/
theorem no_lost_wakeup_fan : ∃ w : World Unit Unit,
    (w.shared ()).obj.mode = .auto ∧ (w.spot ()).Asleep () ∧ ¬ (w.spot ()).LostWakeup () := by
  obtain ⟨w, hw, hmode, hasleep⟩ := (fanWorld_reachable Unit
      (fun e w => (w.spot ()).ReadsUser () e)).exists_of_run
    (threadSteps Unit 4 ++ commandSteps () (.modeSet .auto) 2)
    (fun w => (w.shared ()).obj.mode = .auto ∧ (w.spot ()).Asleep ()) (by decide +kernel)
  exact ⟨w, hmode, hasleep, no_lost_wakeup [()] () w hw⟩

/-! ### Stranded threads -/

/-- `free_resource` has released the condition of `s` and left it behind. -/
def World.PastRelease (w : World σ ι) (s : σ) : Prop := ∃ todo ph, w.main = .freeing todo ph ∧ s ∉ todo

/-- **No stranded thread.** In every run in which `free_resource` notifies in time. -/
theorem no_stranded_thread (sensorList : List σ) (s : σ) (hs : s ∈ sensorList) (w : World σ ι)
    (h : (system σ ι sensorList).Reach (fun e w => (w.spot s).NotifiesInTime e) w)
    (hpast : w.PastRelease s) : ¬ (w.spot s).Asleep s := by
  have hfreed : (w.spot s).Freed s :=
    Spot.invariant s (fun _ hw => Spot.initial_freed hw s)
      (fun _ _ _ hsane hI ha hm => Spot.freed_moves hs hsane hI ha hm) h
  obtain ⟨todo, ph, hmain, hnot⟩ := hpast
  have hat : (w.spot s).main = .past :=
    (congrArg (MainPc.at · s) hmain).trans (World.freeing_of_not_mem hnot ph)
  intro hboth
  obtain ⟨-, hasleep⟩ := hboth
  exact (hfreed.leaving (.inr hat)).notified hasleep

/-- The thread has tested the flag before it is set, and asks for the condition
after it was notified. -/
def strandedRun : List (Event Unit Unit) :=
  threadSteps Unit 1 ++ [.interrupt] ++ List.replicate 5 .main ++ threadSteps Unit 3

theorem fan_is_stranded : ∃ w : World Unit Unit,
    (system Unit Unit [()]).Reachable w ∧ w.PastRelease () ∧ (w.spot ()).Asleep () := by
  obtain ⟨w, hw, hmain, hasleep⟩ := (fanWorld_reachable Unit System.any).exists_of_run strandedRun
    (fun w => w.main = .freeing [] .setMode ∧ (w.spot ()).Asleep ()) (by decide +kernel)
  exact ⟨w, hw, ⟨[], .setMode, hmain, List.not_mem_nil⟩, hasleep⟩

/-- Interrupted with the thread asleep. -/
theorem no_stranded_thread_fan : ∃ w : World Unit Unit,
    w.main = .freeing [] .setMode ∧ w.thread () = .waiting false ∧ ¬ (w.spot ()).Asleep () := by
  obtain ⟨w, hw, hmain, hthread⟩ := (fanWorld_reachable Unit
      (fun e w => (w.spot ()).NotifiesInTime e)).exists_of_run
    (threadSteps Unit 4 ++ [.interrupt] ++ List.replicate 5 .main)
    (fun w => w.main = .freeing [] .setMode ∧ w.thread () = .waiting false) (by decide +kernel)
  exact ⟨w, hmain, hthread, no_stranded_thread [()] () (List.mem_singleton.mpr rfl) w hw
    ⟨[], .setMode, hmain, List.not_mem_nil⟩⟩

end Idic.IpmiSim
