import Idic.IpmiSim.Spot

/-! A value that a session has set, against the sensor's thread.

`set_sensor_value` takes the sensor over from its thread only when it reads mode
auto. `user_value_stays` says that with one session this is enough, and that it
is also enough to find the thread still: in user mode and not past a read of
another mode. A fault request that the thread has not served is neither. -/
namespace Idic.IpmiSim
open Python Threads

/-! ### The thread -/

/-- Past a read of a mode other than user, and before the value is stored. -/
def ThreadPc.generating : ThreadPc → Bool
  | .testAuto | .random | .fault | .clear _ | .store _ => true
  | _ => false

/-- The thread has left its loop. -/
def ThreadPc.over : ThreadPc → Bool
  | .release .exit | .release (.died _) | .ended | .died _ => true
  | _ => false

theorem ThreadPc.Next.generating {obj : Sensor} {pc pc' : ThreadPc} (h : pc.Next obj pc')
    (hpc : ¬ pc.generating) (hquiet : obj.mode = .user ∨ pc.over) : ¬ pc'.generating := by
  cases h with
  | notUser hm => exact absurd (hquiet.resolve_right nofun) hm
  | auto | notAuto | drawn | emptyRange | evaluated | notEvaluated | value | noValue | stored =>
    exact absurd rfl hpc
  | _ => exact nofun

theorem ThreadPc.Next.over {obj : Sensor} {pc pc' : ThreadPc} (h : pc.Next obj pc')
    (hpc : pc.over) : pc'.over := by
  cases h <;> first | rfl | cases hpc

theorem ThreadPc.writes_of_not_generating {pc : ThreadPc} (h : ¬ pc.generating) (obj : Sensor) :
    pc.writes obj = obj := by
  cases pc with
  | clear | store => exact absurd rfl h
  | _ => rfl

/-! ### The session -/

/-- What a session can type: `sensor mode set`, `sensor value set`, `sel set`. -/
def Command.fromPrompt : Command → Bool
  | .modeSet _ | .valueSet _ | .selSet _ => true
  | .threshold _ | .discrete _ => false

/-- Commands other than `sel set`. -/
def Command.setsSensor : Command → Bool
  | .selSet _ => false
  | _ => true

/-- The value request whose mode test is next. -/
def CommandPc.modeTest? : CommandPc → Option ValueArg
  | .testMode a => some a
  | _ => none

/-- The raw value of a value request whose next action is its last. -/
def CommandPc.returning? : CommandPc → Option Int
  | .send x .release => some x
  | _ => none

/-- The command that starts on sensor `s` in an event. -/
def Event.command? {σ ι : Type} [DecidableEq σ] (s : σ) : Event σ ι → Option Command
  | .begin _ s' c => if s' = s then some c else none
  | _ => none

/-- The raw value that the last `sensor value set` on `s` has stored, from its
return until the next command that sets the sensor begins. -/
def keptValue {σ ι : Type} [DecidableEq σ] (s : σ) (e : Event σ ι) (w : World σ ι)
    (kept : Option Int) : Option Int :=
  match e with
  | .begin _ s' c => if s' = s ∧ c.setsSensor then none else kept
  | .session i _ => (w.on s i).returning?.or kept
  | _ => kept

namespace Spot
variable {σ : Type}

/-- The thread will not store a value by itself. -/
def Still {ι : Type} (p : Spot σ ι) : Prop :=
  ¬ p.thread.generating ∧ (p.shared.obj.mode = .user ∨ p.thread.over)

/-- A value request finds mode auto, or the thread still. -/
def HandsOver {ι : Type} (e : Event σ ι) (p : Spot σ ι) : Prop :=
  ∀ i ∈ e.session?, (p.session i).modeTest?.isSome → p.shared.obj.mode = .auto ∨ p.Still

/-- What a session has made sure of when it gets to a program point. -/
def Stage {ι : Type} (p : Spot σ ι) : CommandPc → Prop
  | .notify _ (some _) => p.shared.obj.mode = .user
  | .testType _ | .store _ => p.Still
  | .send x _ => p.Still ∧ p.shared.obj.value = .int x
  | _ => True

/-- The invariant of the only session, with the value that is to stay. -/
structure Kept (p : Spot σ Unit) (kept : Option Int) : Prop where
  stage : p.Stage (p.session ())
  value : ∀ x ∈ kept, p.Still ∧ p.shared.obj.value = .int x
  outside : kept.isSome → p.session () = .returned ∨ ∃ ph, p.session () = .sel ph

/-! ### Moves of the others -/

theorem Still.thread {ι : Type} [DecidableEq (Tid σ ι)] {s : σ} {p : Spot σ ι} (h : p.Still) {rng : Nat}
    {delivered : Bool} {l : Option (Tid σ ι)} {pc : ThreadPc} {v : View (Tid σ ι)}
    (hstep : p.thread.step (.sensor s) rng delivered ⟨p.shared, l⟩ = some (pc, v)) :
    v.obj = p.shared.obj ∧ ({p with shared := v.toShared, thread := pc} : Spot σ ι).Still := by
  obtain ⟨hobj, -, -⟩ := ThreadPc.step_effect hstep
  have hnext := ThreadPc.step_next hstep
  have hsame : v.obj = p.shared.obj := hobj.trans (ThreadPc.writes_of_not_generating h.1 _)
  exact ⟨hsame, hnext.generating h.1 h.2, h.2.imp (congrArg Sensor.mode hsame).trans hnext.over⟩

/-- A move of the thread, the main thread or the clock keeps what the session has
made sure of, if it keeps the thread still, the value then and user mode. -/
theorem Kept.of_le {p p' : Spot σ Unit} {kept : Option Int} (h : p.Kept kept)
    (hsession : p'.session = p.session)
    (hmode : p.shared.obj.mode = .user → p'.shared.obj.mode = .user)
    (hstill : p.Still → p'.Still ∧ p'.shared.obj.value = p.shared.obj.value) : p'.Kept kept := by
  refine ⟨?_, fun x hx => ?_, hsession ▸ h.outside⟩
  · have hstage := h.stage
    rw [hsession]
    unfold Stage at hstage ⊢
    split at hstage
    · exact hmode hstage
    · exact (hstill hstage).1
    · exact (hstill hstage).1
    · exact ⟨(hstill hstage.1).1, (hstill hstage.1).2.trans hstage.2⟩
    · trivial
  · obtain ⟨hx₁, hx₂⟩ := h.value x hx
    exact ⟨(hstill hx₁).1, (hstill hx₁).2.trans hx₂⟩

theorem Kept.thread {s : σ} [DecidableEq (Tid σ Unit)] {p : Spot σ Unit} {kept : Option Int}
    (h : p.Kept kept) {rng : Nat} {delivered : Bool} {l : Option (Tid σ Unit)} {pc : ThreadPc}
    {v : View (Tid σ Unit)}
    (hstep : p.thread.step (.sensor s) rng delivered ⟨p.shared, l⟩ = some (pc, v)) :
    ({p with shared := v.toShared, thread := pc} : Spot σ Unit).Kept kept := by
  obtain ⟨hobj, -, -⟩ := ThreadPc.step_effect hstep
  refine h.of_le rfl (fun hm => ?_) fun hstill => ?_
  · show v.obj.mode = .user
    rw [hobj]
    cases p.thread <;> first | rfl | exact hm
  · obtain ⟨hsame, hstill'⟩ := hstill.thread hstep
    exact ⟨hstill', congrArg Sensor.value hsame⟩

theorem Kept.main {p : Spot σ Unit} {kept : Option Int} (h : p.Kept kept) {ph : FreePhase}
    {ph' : Option FreePhase} {l : Option (Tid σ Unit)} {v : View (Tid σ Unit)} {m : MainAt}
    (hstep : ph.step .main ⟨p.shared, l⟩ = some (ph', v)) :
    ({p with shared := v.toShared, main := m} : Spot σ Unit).Kept kept := by
  obtain ⟨hobj, -, -⟩ := FreePhase.step_effect hstep
  have hmode (hm : p.shared.obj.mode = .user) : v.obj.mode = .user := by
    rw [hobj]
    cases ph <;> first | rfl | exact hm
  have hvalue : v.obj.value = p.shared.obj.value := by
    rw [hobj]
    cases ph <;> rfl
  exact h.of_le rfl hmode fun hstill => ⟨⟨hstill.1, hstill.2.imp hmode id⟩, hvalue⟩

/-! ### Moves of the session -/

theorem Kept.none {p : Spot σ Unit} {kept : Option Int} (h : p.Kept kept)
    (hreturned : p.session () ≠ .returned) (hsel : ∀ ph, p.session () ≠ .sel ph) : kept = none := by
  cases kept with
  | none => rfl
  | some x =>
    rcases h.outside rfl with hpc | ⟨ph, hpc⟩
    · exact absurd hpc hreturned
    · exact absurd hpc (hsel ph)

theorem not_generating {pc : ThreadPc} (h : ¬ pc.InIteration) : ¬ pc.generating := by
  cases pc <;> first | exact absurd trivial h | exact nofun

/-- The stage after one action of a session on a threshold sensor. -/
theorem Stage.step {ι : Type} {s : σ} {p : Spot σ ι} (hsane : p.Sane s)
    (hthreshold : p.shared.obj.getEventType = .threshold) {i : ι} {pc₀ : CommandPc}
    (hpc : p.session i = pc₀) (h : p.Stage pc₀)
    (hands : pc₀.modeTest?.isSome → p.shared.obj.mode = .auto ∨ p.Still)
    {delivered : Bool} {l : Option (Tid σ ι)} {pc : CommandPc} {v : View (Tid σ ι)}
    (hstep : pc₀.step (.session i) delivered ⟨p.shared, l⟩ = some (pc, v)) :
    ({p with shared := v.toShared} : Spot σ ι).Stage pc := by
  obtain ⟨hobj, -, -⟩ := CommandPc.step_effect hstep
  have hstill (hm : v.obj.mode = p.shared.obj.mode) (hp : p.Still) :
      ({p with shared := v.toShared} : Spot σ ι).Still := ⟨hp.1, hp.2.imp hm.trans id⟩
  cases CommandPc.step_next hstep with
  | notifying a =>
    cases a with
    | none => trivial
    | some a => exact (congrArg Sensor.mode hobj).trans h
  | notifiedFor a =>
    have hout := hsane.not_inIteration (i := i) (by rw [hpc]; trivial)
    exact ⟨not_generating hout, .inl ((congrArg Sensor.mode hobj).trans h)⟩
  | notAuto a hauto => exact hstill (congrArg Sensor.mode hobj) ((hands rfl).resolve_left hauto)
  | user a => exact congrArg Sensor.mode hobj
  | calls a =>
    simp only [ValueArg.call, hthreshold]
    cases a.raw with
    | none => trivial
    | some x => exact hstill (congrArg Sensor.mode hobj) h
  | stored x =>
    simp only [CommandPc.writes, if_pos hthreshold] at hobj
    exact ⟨hstill (by rw [hobj]) h, congrArg Sensor.value hobj⟩
  | sending x => exact ⟨hstill (congrArg Sensor.mode hobj) h.1, (congrArg Sensor.value hobj).trans h.2⟩
  | _ => trivial

theorem Kept.session {s : σ} {p : Spot σ Unit} (hsane : p.Sane s)
    (hthreshold : p.shared.obj.getEventType = .threshold) {kept : Option Int} (h : p.Kept kept)
    (hands : (p.session ()).modeTest?.isSome → p.shared.obj.mode = .auto ∨ p.Still)
    {delivered : Bool} {l : Option (Tid σ Unit)} {pc : CommandPc} {v : View (Tid σ Unit)}
    (hstep : (p.session ()).step (.session ()) delivered ⟨p.shared, l⟩ = some (pc, v)) :
    ({p with shared := v.toShared, session := Function.update p.session () pc} : Spot σ Unit).Kept
      ((p.session ()).returning?.or kept) := by
  have hstage := Stage.step hsane hthreshold rfl h.stage hands hstep
  obtain ⟨hobj, -, -⟩ := CommandPc.step_effect hstep
  have hnext := CommandPc.step_next hstep
  have hself : Function.update p.session () pc () = pc := Function.update_self ..
  rw [← hself] at hstage
  -- Outside `sel set` and the end of a value request there is no value to keep.
  have hnone (hreturned : p.session () ≠ .returned) (hsel : ∀ ph, p.session () ≠ .sel ph)
      (hreturning : (p.session ()).returning? = Option.none) :
      ({p with shared := v.toShared, session := Function.update p.session () pc} : Spot σ Unit).Kept
        ((p.session ()).returning?.or kept) := by
    rw [hreturning, h.none hreturned hsel]
    exact ⟨hstage, nofun, nofun⟩
  cases hpc : p.session () with
  | returned =>
    rw [hpc] at hnext
    cases hnext
  | sel ph =>
    rw [hpc] at hnext hobj
    refine ⟨hstage, fun x hx => ?_, fun _ => ?_⟩
    · obtain ⟨hstill, hvalue⟩ := h.value x hx
      exact ⟨⟨hstill.1, hstill.2.imp (congrArg Sensor.mode hobj).trans id⟩,
        (congrArg Sensor.value hobj).trans hvalue⟩
    · cases hnext with
      | logging => exact .inr ⟨_, hself⟩
      | logged => exact .inl hself
  | send x ph =>
    cases ph with
    | acquire | transmit => exact hpc ▸ hnone (by simp [hpc]) (by simp [hpc]) (by rw [hpc]; rfl)
    | release =>
      have hsent := h.stage
      rw [hpc] at hnext hobj hsent
      cases hnext with
      | sending _ hph => cases hph
      | sent =>
        refine ⟨hstage, fun y hy => ?_, fun _ => .inl hself⟩
        cases hy
        exact ⟨⟨hsent.1.1, hsent.1.2.imp (congrArg Sensor.mode hobj).trans id⟩,
          (congrArg Sensor.value hobj).trans hsent.2⟩
  | _ => exact hpc ▸ hnone (by simp [hpc]) (by simp [hpc]) (by rw [hpc]; rfl)

theorem Kept.begin {s : σ} [DecidableEq σ] {w : World σ Unit} {p : Spot σ Unit} {kept : Option Int}
    (h : p.Kept kept) {c : Command} (hprompt : c.fromPrompt) :
    ({p with session := Function.update p.session () c.start} : Spot σ Unit).Kept
      (keptValue s (.begin () s c) w kept) := by
  have hself : Function.update p.session () c.start () = c.start := Function.update_self ..
  have hstage (hc : ∀ q : Spot σ Unit, q.Stage c.start) :
      Stage ({p with session := Function.update p.session () c.start} : Spot σ Unit)
        (Function.update p.session () c.start ()) := by
    rw [hself]
    exact hc _
  cases c with
  | modeSet r =>
    refine ⟨hstage fun _ => ?_, ?_, ?_⟩
    · cases r <;> trivial
    · simp [keptValue, Command.setsSensor]
    · simp [keptValue, Command.setsSensor]
  | valueSet a =>
    refine ⟨hstage fun _ => trivial, ?_, ?_⟩
    · simp [keptValue, Command.setsSensor]
    · simp [keptValue, Command.setsSensor]
  | threshold | discrete => cases hprompt
  | selSet checked =>
    have hkept : keptValue s (.begin () s (.selSet checked)) w kept = kept := if_neg (by simp [Command.setsSensor])
    rw [hkept]
    refine ⟨hstage fun _ => ?_, h.value, fun _ => ?_⟩
    · cases checked <;> trivial
    · cases checked with
      | false => exact .inl hself
      | true => exact .inr ⟨.acquire, hself⟩

/-- What happens elsewhere does not change the value that is kept. -/
theorem keptValue_elsewhere {s : σ} [DecidableEq σ] {e : Event σ Unit} {w : World σ Unit}
    (h : ¬ e.Concerns s (w.spot s)) (kept : Option Int) : keptValue s e w kept = kept := by
  cases e with
  | thread | timeout | interrupt | main => rfl
  | begin i s' c => exact if_neg fun hs => h hs.1
  | session i delivered =>
    have hreturned : w.on s i = .returned := not_not.mp h
    simp only [keptValue, hreturned, CommandPc.returning?, Option.none_or]

theorem kept_moves [DecidableEq σ] {listed : Prop} {s : σ} {e : Event σ Unit} {w : World σ Unit}
    {p' : Spot σ Unit} {kept : Option Int} (hsane : (w.spot s).Sane s)
    (hthreshold : (w.spot s).shared.obj.getEventType = .threshold) (h : (w.spot s).Kept kept)
    (hprompt : ∀ c ∈ e.command? s, c.fromPrompt) (hands : (w.spot s).HandsOver e)
    (hm : (w.spot s).Moves listed s e p') : p'.Kept (keptValue s e w kept) := by
  cases hm with
  | thread hstep => exact h.thread hstep
  | timeout => exact h.of_le rfl id fun hstill => ⟨hstill, rfl⟩
  | begin c hreturned => exact h.begin (hprompt c (if_pos rfl))
  | session hstep => exact h.session hsane hthreshold (hands () rfl) hstep
  | mainTurn _ hstep | mainLeaves _ hstep => exact h.main hstep
  | elsewhere he =>
    rw [keptValue_elsewhere he]
    exact h.of_le rfl id fun hstill => ⟨hstill, rfl⟩

theorem initial_kept [DecidableEq σ] {w : World σ Unit} (h : w.Initial) (s : σ) :
    (w.spot s).Kept none := by
  refine ⟨?_, fun x hx => ?_, fun hx => ?_⟩
  · rw [h.on_returned]
    trivial
  · cases hx
  · cases hx

instance {ι : Type} (p : Spot σ ι) : Decidable p.Still :=
  inferInstanceAs (Decidable (_ ∧ (_ ∨ _)))

instance {ι : Type} (e : Event σ ι) (p : Spot σ ι) : Decidable (p.HandsOver e) :=
  inferInstanceAs (Decidable (∀ i ∈ e.session?, _ → _ ∨ _))

end Spot

/-- **A value set by the user stays.** In every run of one session at the prompt
whose value requests find mode auto or the thread still. -/
theorem user_value_stays {σ : Type} [DecidableEq σ] (sensorList : List σ) (s : σ)
    (w : World σ Unit) (kept : Option Int) (hthreshold : (w.shared s).obj.getEventType = .threshold)
    (h : ((system σ Unit sensorList).withHistory none (keptValue s)).Reach
      (fun e x => (∀ c ∈ e.command? s, c.fromPrompt) ∧ (x.1.spot s).HandsOver e) (w, kept)) :
    ∀ x ∈ kept, (w.shared s).obj.value = .int x := by
  have hkept : (w.spot s).shared.obj.getEventType = .threshold → (w.spot s).Kept kept := by
    refine Spot.invariantWithHistory s
      (I := fun p kept => p.shared.obj.getEventType = .threshold → p.Kept kept)
      (fun _ => id) rfl (fun w hw _ => Spot.initial_kept hw s) ?_ h
    intro e w kept p' hsane hI ha hm hty
    have hty := hm.eventType.symm.trans hty
    exact Spot.kept_moves hsane hty (hI hty) ha.1 ha.2 hm
  exact fun x hx => ((hkept hthreshold).value x hx).2

/-- A fault request that the thread has not served yet, a value request, and then
the thread. -/
def overwrittenRun : List (Event Unit Unit) :=
  commandSteps () (.modeSet (.fault .lc)) 6 ++
    commandSteps () (.valueSet ⟨"50".toList, some 50⟩) 6 ++ threadSteps Unit 7

theorem fan_overwrites : ∃ w : World Unit Unit,
    ((system Unit Unit [()]).withHistory none (keptValue ())).Reach
      (fun e _ => ∀ c ∈ e.command? (), c.fromPrompt) (w, some 50) ∧
    (w.shared ()).obj.value ≠ .int 50 := by
  obtain ⟨⟨w, kept⟩, hw, hkept, hvalue⟩ := (fanWorld_withHistory Unit none (keptValue ())
      (fun e _ => ∀ c ∈ e.command? (), c.fromPrompt)).exists_of_run overwrittenRun
    (fun x => x.2 = some 50 ∧ (x.1.shared ()).obj.value = .int 11) (by decide +kernel)
  obtain rfl : kept = some 50 := hkept
  refine ⟨w, hw, fun h50 => ?_⟩
  cases hvalue.symm.trans h50

/-- The same value request in auto mode, with the thread in its timed wait. -/
theorem user_value_stays_fan : ∃ w : World Unit Unit,
    w.thread () = .waiting false ∧ (w.shared ()).obj.value = .int 50 := by
  obtain ⟨⟨w, kept⟩, hw, hty, hkept, hthread⟩ := (fanWorld_withHistory Unit none (keptValue ())
      (fun e x => (∀ c ∈ e.command? (), c.fromPrompt) ∧ (x.1.spot ()).HandsOver e)).exists_of_run
    (commandSteps () (.modeSet .auto) 5 ++ threadSteps Unit 11 ++
      commandSteps () (.valueSet ⟨"50".toList, some 50⟩) 10 ++ threadSteps Unit 7)
    (fun x => (x.1.shared ()).obj.getEventType = .threshold ∧ x.2 = some 50 ∧
      x.1.thread () = .waiting false) (by decide +kernel)
  exact ⟨w, hthread, user_value_stays [()] () w kept hty hw 50 hkept⟩

end Idic.IpmiSim
