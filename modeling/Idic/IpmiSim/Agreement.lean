import Idic.IpmiSim.Spot
import Mathlib.Data.Fintype.Option

/-! A threshold sensor's recorded value and the reading the BMC holds.

The sensor's thread and the sessions that set a value store it first and send it
afterwards, and two of these writers can overtake each other in between.
`recorded_eq_reading` says that the two values agree whenever no writer is in
progress, provided no writer transmits a value that has been replaced after the
last writer has transmitted. -/
namespace Idic.IpmiSim
open Python Threads

/-! ### Writers -/

/-- The value that is about to be stored. -/
def ThreadPc.storing? : ThreadPc → Option Int
  | .store x => some x
  | _ => none

/-- The value that is stored, and still to be transmitted. -/
def ThreadPc.sending? : ThreadPc → Option Int
  | .send x .acquire | .send x .transmit => some x
  | _ => none

def ThreadPc.transmitting? : ThreadPc → Option Int
  | .send x .transmit => some x
  | _ => none

def CommandPc.storing? : CommandPc → Option Int
  | .store x => some x
  | _ => none

def CommandPc.sending? : CommandPc → Option Int
  | .send x .acquire | .send x .transmit => some x
  | _ => none

def CommandPc.transmitting? : CommandPc → Option Int
  | .send x .transmit => some x
  | _ => none

/-- The writer that acts in an event (`none` is the sensor's thread), and whether
its transmission arrives. -/
def Event.writer? {σ ι : Type} [DecidableEq σ] (s : σ) : Event σ ι → Option (Option ι × Bool)
  | .thread s' _ delivered => if s' = s then some (none, delivered) else none
  | .session i delivered => some (some i, delivered)
  | _ => none

namespace Spot
variable {σ ι : Type}

def storing? (p : Spot σ ι) : Option ι → Option Int
  | none => p.thread.storing?
  | some i => (p.session i).storing?

def sending? (p : Spot σ ι) : Option ι → Option Int
  | none => p.thread.sending?
  | some i => (p.session i).sending?

def transmitting? (p : Spot σ ι) : Option ι → Option Int
  | none => p.thread.transmitting?
  | some i => (p.session i).transmitting?

/-- The last reading that the BMC received, if any, is the recorded value. -/
def Agrees (p : Spot σ ι) : Prop := ∀ x ∈ p.shared.bmc.reading, p.shared.obj.value = .int x

/-- A writer has yet to store its value, or to transmit the recorded one. -/
def StillDue (p : Spot σ ι) (u : Option ι) : Prop :=
  (p.storing? u).isSome ∨ ∃ x ∈ p.sending? u, p.shared.obj.value = .int x

/-- The invariant. -/
def Settled (p : Spot σ ι) : Prop := p.Agrees ∨ ∃ u, p.StillDue u

/-- Every transmission arrives. -/
def Delivers [DecidableEq σ] (s : σ) (e : Event σ ι) (p : Spot σ ι) : Prop :=
  ∀ act ∈ e.writer? s, (p.transmitting? act.1).isSome → act.2 = true

/-- Who transmits a value that has been replaced is followed by another writer. -/
def InOrder [DecidableEq σ] (s : σ) (e : Event σ ι) (p : Spot σ ι) : Prop :=
  ∀ act ∈ e.writer? s, ∀ x ∈ p.transmitting? act.1,
    p.shared.obj.value = .int x ∨ ∃ u, u ≠ act.1 ∧ p.StillDue u

/-- What one action of a writer does. -/
inductive Writes (delivered : Bool) (u : Option ι) (p p' : Spot σ ι) : Prop where
  | store {x} (h : p.storing? u = some x) (h' : p'.sending? u = some x)
      (hvalue : p'.shared.obj.value = .int x)
  | wait {x} (hs : p.storing? u = none) (h : p.sending? u = some x) (h' : p'.sending? u = some x)
      (hvalue : p'.shared.obj.value = p.shared.obj.value)
      (hreading : p'.shared.bmc.reading = p.shared.bmc.reading)
  | transmit {x} (h : p.transmitting? u = some x)
      (hvalue : p'.shared.obj.value = p.shared.obj.value)
      (hreading : p'.shared.bmc.reading = if delivered then some x else p.shared.bmc.reading)
  | other (hs : p.storing? u = none) (h : p.sending? u = none)
      (hvalue : p'.shared.obj.value = p.shared.obj.value)
      (hreading : p'.shared.bmc.reading = p.shared.bmc.reading)

theorem StillDue.of_eq {p p' : Spot σ ι} {u : Option ι} (h : p.StillDue u)
    (hs : p'.storing? u = p.storing? u) (hd : p'.sending? u = p.sending? u)
    (hvalue : p'.shared.obj.value = p.shared.obj.value) : p'.StillDue u := by
  rwa [StillDue, hs, hd, hvalue]

theorem not_stillDue {p : Spot σ ι} {u : Option ι} (hs : p.storing? u = none)
    (hd : p.sending? u = none) : ¬ p.StillDue u := by
  intro hcase
  rcases hcase with h | ⟨x, hx, -⟩
  · rw [hs] at h
    cases h
  · rw [hd] at hx
    cases hx

/-- One action of one writer, the others where they were. -/
theorem Settled.writes {delivered : Bool} {u : Option ι} {p p' : Spot σ ι} (h : p.Settled)
    (hw : Writes delivered u p p')
    (hothers : ∀ u', u' ≠ u → p'.storing? u' = p.storing? u' ∧ p'.sending? u' = p.sending? u')
    (hdelivers : (p.transmitting? u).isSome → delivered = true)
    (horder : ∀ x ∈ p.transmitting? u, p.shared.obj.value = .int x ∨ ∃ u', u' ≠ u ∧ p.StillDue u') :
    p'.Settled := by
  have hkeep (hvalue : p'.shared.obj.value = p.shared.obj.value) {u' : Option ι} (hne : u' ≠ u)
      (hdue : p.StillDue u') : ∃ u', p'.StillDue u' :=
    ⟨u', hdue.of_eq (hothers u' hne).1 (hothers u' hne).2 hvalue⟩
  cases hw with
  | store hs hd hvalue => exact .inr ⟨u, .inr ⟨_, hd, hvalue⟩⟩
  | @wait x hs hd hd' hvalue hreading =>
    rcases h with hagrees | ⟨u', hdue⟩
    · exact .inl fun y hy => hvalue.trans (hagrees y (hreading ▸ hy))
    · by_cases hu : u' = u
      · subst hu
        rcases hdue with hstoring | ⟨y, hy, heq⟩
        · rw [hs] at hstoring
          cases hstoring
        · obtain rfl : y = x := Option.some.inj (hy.symm.trans hd)
          exact .inr ⟨u', .inr ⟨y, hd', hvalue.trans heq⟩⟩
      · exact .inr (hkeep hvalue hu hdue)
  | @transmit x hx hvalue hreading =>
    obtain rfl := hdelivers (by rw [hx]; rfl)
    rcases horder x hx with hcurrent | ⟨u', hne, hdue⟩
    · refine .inl fun y hy => ?_
      rw [hreading] at hy
      cases hy
      exact hvalue.trans hcurrent
    · exact .inr (hkeep hvalue hne hdue)
  | other hs hd hvalue hreading =>
    rcases h with hagrees | ⟨u', hdue⟩
    · exact .inl fun y hy => hvalue.trans (hagrees y (hreading ▸ hy))
    · have hne : u' ≠ u := fun hu => not_stillDue hs hd (hu ▸ hdue)
      exact .inr (hkeep hvalue hne hdue)

theorem writes_thread [DecidableEq σ] [DecidableEq ι] {s : σ} {p : Spot σ ι} {rng : Nat}
    {delivered : Bool} {l : Option (Tid σ ι)} {pc : ThreadPc} {v : View (Tid σ ι)}
    (hstep : p.thread.step (.sensor s) rng delivered ⟨p.shared, l⟩ = some (pc, v)) :
    Writes delivered none p {p with shared := v.toShared, thread := pc} := by
  obtain ⟨hobj, -, hbmc⟩ := ThreadPc.step_effect hstep
  have hnext := ThreadPc.step_next hstep
  have hvalue := congrArg Sensor.value hobj
  have hreading := congrArg Bmc.reading hbmc
  cases hpc : p.thread with
  | store x =>
    rw [hpc] at hnext hvalue
    cases hnext
    exact .store (congrArg ThreadPc.storing? hpc) rfl hvalue
  | send x ph =>
    rw [hpc] at hnext hvalue hreading
    cases ph with
    | acquire =>
      cases hnext with
      | sending _ hph =>
        cases hph
        exact .wait (congrArg ThreadPc.storing? hpc) (congrArg ThreadPc.sending? hpc) rfl hvalue hreading
    | transmit =>
      refine .transmit (congrArg ThreadPc.transmitting? hpc) hvalue (hreading.trans ?_)
      cases delivered <;> rfl
    | release => exact .other (congrArg ThreadPc.storing? hpc) (congrArg ThreadPc.sending? hpc) hvalue hreading
  | _ =>
    rw [hpc] at hvalue hreading
    exact .other (congrArg ThreadPc.storing? hpc) (congrArg ThreadPc.sending? hpc) hvalue hreading

/-- On a threshold sensor, which the discrete writes leave alone. -/
theorem writes_session [DecidableEq ι] {p : Spot σ ι} (htyped : p.Typed)
    (hthreshold : p.shared.obj.getEventType = .threshold) {i : ι} {delivered : Bool}
    {l : Option (Tid σ ι)} {pc : CommandPc} {v : View (Tid σ ι)}
    (hstep : (p.session i).step (.session i) delivered ⟨p.shared, l⟩ = some (pc, v)) :
    Writes delivered (some i) p
      {p with shared := v.toShared, session := Function.update p.session i pc} := by
  obtain ⟨hobj, -, hbmc⟩ := CommandPc.step_effect hstep
  have hnext := CommandPc.step_next hstep
  have hvalue := congrArg Sensor.value hobj
  have hreading := congrArg Bmc.reading hbmc
  have hfits := htyped.session i
  rw [hthreshold] at hfits
  have hself : (Function.update p.session i pc) i = pc := Function.update_self ..
  cases hpc : p.session i with
  | store x =>
    rw [hpc] at hnext hvalue
    simp only [CommandPc.writes, if_pos hthreshold] at hvalue
    cases hnext with
    | stored => exact .store (congrArg CommandPc.storing? hpc) (congrArg CommandPc.sending? hself) hvalue
    | notStored _ hty => exact absurd hthreshold hty
  | send x ph =>
    rw [hpc] at hnext hvalue hreading
    cases ph with
    | acquire =>
      cases hnext with
      | sending _ hph =>
        cases hph
        exact .wait (congrArg CommandPc.storing? hpc) (congrArg CommandPc.sending? hpc)
          (congrArg CommandPc.sending? hself) hvalue hreading
    | transmit =>
      refine .transmit (congrArg CommandPc.transmitting? hpc) hvalue (hreading.trans ?_)
      cases delivered <;> rfl
    | release =>
      exact .other (congrArg CommandPc.storing? hpc) (congrArg CommandPc.sending? hpc) hvalue hreading
  | storeText l =>
    rw [hpc] at hfits
    cases hfits
  | bits todo ph =>
    rw [hpc] at hfits
    cases hfits
  | _ =>
    rw [hpc] at hvalue hreading
    exact .other (congrArg CommandPc.storing? hpc) (congrArg CommandPc.sending? hpc) hvalue hreading

/-- Moves that touch neither the values nor the writers. -/
theorem Settled.of_eq {p p' : Spot σ ι} (h : p.Settled)
    (hdue : ∀ u, p.StillDue u → p'.storing? u = p.storing? u ∧ p'.sending? u = p.sending? u)
    (hvalue : p'.shared.obj.value = p.shared.obj.value)
    (hreading : p'.shared.bmc.reading = p.shared.bmc.reading) : p'.Settled := by
  rcases h with hagrees | ⟨u, hu⟩
  · exact .inl fun x hx => hvalue.trans (hagrees x (hreading ▸ hx))
  · exact .inr ⟨u, hu.of_eq (hdue u hu).1 (hdue u hu).2 hvalue⟩

theorem update_session [DecidableEq ι] {p : Spot σ ι} {shared : Shared (Tid σ ι)} {i : ι}
    {pc : CommandPc} {u : Option ι} (hu : u ≠ some i) :
    let p' : Spot σ ι := {p with shared := shared, session := Function.update p.session i pc}
    p'.storing? u = p.storing? u ∧ p'.sending? u = p.sending? u := by
  cases u with
  | none => exact ⟨rfl, rfl⟩
  | some j =>
    have hj : (Function.update p.session i pc) j = p.session j :=
      Function.update_of_ne (fun h : j = i => hu (congrArg some h)) ..
    exact ⟨congrArg CommandPc.storing? hj, congrArg CommandPc.sending? hj⟩

theorem settled_moves [DecidableEq σ] [DecidableEq ι] {listed : Prop} {s : σ} {e : Event σ ι}
    {p p' : Spot σ ι} (hsane : p.Sane s) (hthreshold : p.shared.obj.getEventType = .threshold)
    (h : p.Settled) (hdelivers : p.Delivers s e) (horder : p.InOrder s e)
    (hm : p.Moves listed s e p') : p'.Settled := by
  cases hm with
  | @thread _ delivered _ pc v hstep =>
    refine h.writes (writes_thread hstep) (fun u hu => ?_) (hdelivers (none, delivered) (if_pos rfl))
      (horder (none, delivered) (if_pos rfl))
    cases u with
    | none => exact absurd rfl hu
    | some i => exact ⟨rfl, rfl⟩
  | timeout => exact h.of_eq (fun _ _ => ⟨rfl, rfl⟩) rfl rfl
  | @begin i c hreturned =>
    refine h.of_eq (fun u hu => update_session (fun heq => ?_)) rfl rfl
    subst heq
    exact not_stillDue (p := p) (u := some i) (congrArg CommandPc.storing? hreturned)
      (congrArg CommandPc.sending? hreturned) hu
  | @session i delivered _ _ _ hstep =>
    exact h.writes (writes_session hsane.typed hthreshold hstep) (fun _ hu => update_session hu)
      (hdelivers (some i, delivered) rfl) (horder (some i, delivered) rfl)
  | @mainTurn ph _ _ _ _ hstep | @mainLeaves ph _ _ _ _ hstep =>
    obtain ⟨hobj, -, hbmc⟩ := FreePhase.step_effect hstep
    refine h.of_eq (fun _ _ => ⟨rfl, rfl⟩) ?_ (congrArg Bmc.reading hbmc)
    rw [hobj]
    cases ph <;> rfl
  | elsewhere => exact h.of_eq (fun _ _ => ⟨rfl, rfl⟩) rfl rfl

/-- No writer is in progress. -/
def Quiet (p : Spot σ ι) : Prop := ∀ u, p.storing? u = none ∧ p.sending? u = none

section Decidable
variable [DecidableEq σ] [Fintype ι] [DecidableEq ι]

instance (p : Spot σ ι) (u : Option ι) : Decidable (p.StillDue u) :=
  inferInstanceAs (Decidable (_ ∨ ∃ x ∈ p.sending? u, _))

instance (p : Spot σ ι) : Decidable p.Quiet :=
  inferInstanceAs (Decidable (∀ u, p.storing? u = none ∧ p.sending? u = none))

instance (s : σ) (e : Event σ ι) (p : Spot σ ι) : Decidable (p.Delivers s e) :=
  inferInstanceAs (Decidable (∀ act ∈ e.writer? s, _))

instance (s : σ) (e : Event σ ι) (p : Spot σ ι) : Decidable (p.InOrder s e) :=
  inferInstanceAs (Decidable (∀ act ∈ e.writer? s, ∀ x ∈ p.transmitting? act.1, _))

end Decidable
end Spot

/-- **The recorded value is the last one received.** In every run whose sends arrive
and whose writers transmit replaced values only while another writer is due. -/
theorem recorded_eq_reading {σ ι : Type} [DecidableEq σ] [DecidableEq ι] (sensorList : List σ) (s : σ)
    (w : World σ ι) (hthreshold : (w.shared s).obj.getEventType = .threshold)
    (h : (system σ ι sensorList).Reach
      (fun e w => (w.spot s).Delivers s e ∧ (w.spot s).InOrder s e) w)
    (hquiet : (w.spot s).Quiet) : (w.spot s).Agrees := by
  have hsettled : (w.spot s).shared.obj.getEventType = .threshold → (w.spot s).Settled := by
    refine Spot.invariant s (I := fun p => p.shared.obj.getEventType = .threshold → p.Settled) ?_ ?_ h
    · intro w hw _
      refine .inl fun x hx => ?_
      rw [show (w.spot s).shared.bmc.reading = none from hw.reading s] at hx
      cases hx
    · intro e w p' hsane hI ha hm hty
      have hty := hm.eventType.symm.trans hty
      exact Spot.settled_moves hsane hty (hI hty) ha.1 ha.2 hm
  refine (hsettled hthreshold).resolve_right ?_
  intro hsome
  obtain ⟨u, hu⟩ := hsome
  exact Spot.not_stillDue (hquiet u).1 (hquiet u).2 hu

/-- Two sessions set 50 and 60; the sends are in the other order than the stores. -/
def overtakingRun : List (Event Unit (Fin 2)) :=
  commandSteps 0 (.valueSet ⟨"50".toList, some 50⟩) 3 ++
    commandSteps 1 (.valueSet ⟨"60".toList, some 60⟩) 6 ++ sessionSteps 0 3

theorem fan_disagrees : ∃ w : World Unit (Fin 2),
    (system Unit (Fin 2) [()]).Reach (fun e w => (w.spot ()).Delivers () e) w ∧
      (w.spot ()).Quiet ∧ ¬ (w.spot ()).Agrees := by
  obtain ⟨w, hw, hquiet, hvalue, hreading⟩ := (fanWorld_reachable (Fin 2)
      (fun e w => (w.spot ()).Delivers () e)).exists_of_run overtakingRun
    (fun w => (w.spot ()).Quiet ∧ (w.shared ()).obj.value = .int 60 ∧
      (w.shared ()).bmc.reading = some 50) (by decide +kernel)
  refine ⟨w, hw, hquiet, fun hagrees => ?_⟩
  have h50 : (w.shared ()).obj.value = .int 50 := hagrees 50 hreading
  rw [hvalue] at h50
  cases h50

/-- The session that stored first sends first: its value is replaced, and the other
session is due. -/
theorem recorded_eq_reading_fan : ∃ w : World Unit (Fin 2),
    (w.shared ()).bmc.reading = some 60 ∧ (w.spot ()).Agrees := by
  obtain ⟨w, hw, hty, hquiet, hreading⟩ := (fanWorld_reachable (Fin 2)
      (fun e w => (w.spot ()).Delivers () e ∧ (w.spot ()).InOrder () e)).exists_of_run
    (commandSteps 0 (.valueSet ⟨"50".toList, some 50⟩) 3 ++
      commandSteps 1 (.valueSet ⟨"60".toList, some 60⟩) 3 ++ sessionSteps 0 3 ++ sessionSteps 1 3)
    (fun w => (w.shared ()).obj.getEventType = .threshold ∧ (w.spot ()).Quiet ∧
      (w.shared ()).bmc.reading = some 60) (by decide +kernel)
  exact ⟨w, hreading, recorded_eq_reading [()] () w hty hw hquiet⟩

end Idic.IpmiSim
