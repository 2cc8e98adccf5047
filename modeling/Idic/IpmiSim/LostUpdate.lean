import Idic.IpmiSim.Spot
import Mathlib.Data.Fintype.Basic

/-! Requests on a discrete sensor from many sessions.

Both requests work out what to record, and which bits to send, before they take
`lock_sensor_write`, and what they read can be replaced before they have it.
`Current` says which part of it still has to be true then. `no_lost_update` says
that with current requests the recorded value and the BMC come out as if the
requests had been made one after another, in the order in which they took the
lock. -/
namespace Idic.IpmiSim
open Python Threads

/-- The same in the states 0 to 14. -/
def SameStates (a b : StateBits) : Prop := ∀ k < 15, a k = b k

instance (a b : StateBits) : Decidable (SameStates a b) :=
  inferInstanceAs (Decidable (∀ k < 15, a k = b k))

theorem SameStates.symm {a b : StateBits} (h : SameStates a b) : SameStates b a :=
  fun k hk => (h k hk).symm

theorem SameStates.trans {a b c : StateBits} (h : SameStates a b) (h' : SameStates b c) :
    SameStates a c := fun k hk => (h k hk).trans (h' k hk)

theorem outcome_append (states : StateBits) (a b : List Request) :
    outcome states (a ++ b) = outcome (outcome states a) b := List.foldl_append ..

theorem SameStates.apply {a b : StateBits} (h : SameStates a b) (r : Request) :
    SameStates (r.apply a) (r.apply b) := by
  intro k hk
  cases r with
  | value v => rfl
  | state k₀ b =>
    simp only [Request.apply, Function.update_apply]
    split
    · rfl
    · exact h k hk

/-! ### Calls -/

theorem stateId_lt {stateId : Int} {P : Prop} (h : 0 ≤ stateId ∧ stateId < 15 ∧ P) :
    stateId.toNat < 15 := by omega

/-- The request that a call makes if it passes its checks. -/
def DiscreteCall.request? : DiscreteCall → Option Request
  | .value text => if h : WellFormed text then some (.value ⟨text, h⟩) else none
  | .state stateId stateBit =>
    if h : 0 ≤ stateId ∧ stateId < 15 ∧ 0 ≤ stateBit ∧ stateBit < 2 then
      some (.state ⟨stateId.toNat, stateId_lt h⟩ (stateBit ≠ 0))
    else none

/-- A word that the code accepts has the documented format. The conversion accepts
more: blanks or a sign among the digits. -/
def DiscreteCall.Documented : DiscreteCall → Prop
  | .value text =>
    text.length = 6 → text.take 2 = "0x".toList → (wordOf text).isOk = true → WellFormed text
  | .state .. => True

/-- The text of an accepted word request passes its checks and converts. -/
theorem Sensor.setDiscreteValue_ensures (s : Sensor) (text : Str) :
    Ensures (s.setDiscreteValue text) fun _ =>
      text.length = 6 ∧ text.take 2 = "0x".toList ∧ (wordOf text).isOk = true := by
  have hword : Ensures (wordInBin text) fun _ => (wordOf text).isOk = true := by
    intro t ht
    unfold wordInBin at ht
    cases hn : wordOf text with
    | ok n => rfl
    | error e =>
      rw [hn] at ht
      cases ht
  unfold setDiscreteValue withType
  by_cases hty : s.getEventType = .discrete
  · by_cases hshape : text.length ≠ 6 ∨ text.take 2 ≠ "0x".toList
    · rw [if_pos hty, if_pos hshape]
      exact nofun
    · rw [if_pos hty, if_neg hshape]
      obtain ⟨hlength, hmarker⟩ := not_or.mp hshape
      refine Ensures.bind _ fun recorded => Ensures.bind _ fun valueInBin => ?_
      refine Ensures.bindWith hword fun valueToSet hok => Ensures.bind _ fun listDiff => ?_
      exact Ensures.pure ⟨not_not.mp hlength, not_not.mp hmarker, hok⟩
  · rw [if_neg hty]
    exact nofun

theorem Sensor.setState_ensures (s : Sensor) (stateId stateBit : Int) :
    Ensures (s.setState stateId stateBit) fun _ =>
      (0 ≤ stateId ∧ stateId < 15) ∧ 0 ≤ stateBit ∧ stateBit < 2 := by
  unfold setState withType
  by_cases hty : s.getEventType = .discrete
  · by_cases hid : 0 ≤ stateId ∧ stateId < 15
    · by_cases hbit : 0 ≤ stateBit ∧ stateBit < 2
      · exact fun _ _ => ⟨hid, hbit⟩
      · rw [if_pos hty, if_neg (not_not.mpr hid), if_pos hbit]
        exact nofun
    · rw [if_pos hty, if_pos hid]
      exact nofun
  · rw [if_neg hty]
    exact nofun

/-- A call that gets as far as the lock has made its request. -/
theorem DiscreteCall.locked_request {c : DiscreteCall} {s : Sensor} {l : Locked} (hdoc : c.Documented)
    (h : c.locked s = .ok l) : ∃ r, c.request? = some r ∧ r.locked s = .ok l := by
  cases c with
  | value text =>
    obtain ⟨hlength, hmarker, hok⟩ := s.setDiscreteValue_ensures text l h
    have hformat : WellFormed text := hdoc hlength hmarker hok
    exact ⟨.value ⟨text, hformat⟩, dif_pos hformat, h⟩
  | state stateId stateBit =>
    obtain ⟨hid, hbit⟩ := s.setState_ensures stateId stateBit l h
    refine ⟨_, dif_pos ⟨hid.1, hid.2, hbit.1, hbit.2⟩, ?_⟩
    have hbit' : (if decide (stateBit ≠ 0) then 1 else 0 : Int) = stateBit := by
      by_cases h0 : stateBit = 0
      · simp [h0]
      · simp [h0]
        omega
    simp only [Request.locked, Int.toNat_of_nonneg hid.1, hbit']
    exact h

/-- The prompt splits its lines at blanks, and then a word is documented or refused. -/
theorem ValueArg.word_documented {a : ValueArg} {text : Str} (hblank : ∀ c ∈ a.text, isSpace c = false)
    (h : text ∈ a.word) : (DiscreteCall.value text).Documented := by
  intro hlength hmarker hok
  unfold word at h
  split at h
  · cases h
  next n hn =>
  have hread : (intBase16 a.text).isOk = true := by rw [hn]; rfl
  split at h
  · -- Six characters, read as they stand.
    cases h
    refine ⟨hlength, hmarker, ?_⟩
    have htext := List.take_append_drop 2 a.text
    rw [hmarker] at htext
    rw [← htext] at hread hblank
    exact intBase16_marked hblank hread
  split at h
  · next hshape =>
    -- Four digits, read in both orders: as they stand, and with the bytes swapped.
    cases h
    refine ⟨hlength, hmarker, ?_⟩
    obtain ⟨-, hfour⟩ := hshape
    match htext : a.text, hfour with
    | [b₁, b₂, b₃, b₄], _ =>
      rw [htext] at hread hblank hok
      have hswap : (intBase16 [b₃, b₄, b₁, b₂]).isOk = true := hok
      obtain ⟨h₁, h₃, h₄⟩ := intBase16_four hblank hread
      obtain ⟨h₃', h₁', h₂⟩ := intBase16_four (by grind) hswap
      have hb₁ : IsHexDigit b₁ := h₁'.resolve_right fun hx => hx.elim h₁.1 h₁.2
      have hb₃ : IsHexDigit b₃ := h₃.resolve_right fun hx => hx.elim h₃'.1 h₃'.2
      intro c hc
      have hmem : c ∈ [b₁, b₂, b₃, b₄] := hc
      simp only [List.mem_cons, List.not_mem_nil, or_false] at hmem
      rcases hmem with rfl | rfl | rfl | rfl <;> assumption
  · cases h
/-! ### Current requests -/

/-- What a request relies on of the states it has read: a word request on those it
leaves alone, a state request on those it copies. -/
def Request.Current (r : Request) (read recorded : StateBits) : Prop :=
  match r with
  | .value v => ∀ k < 15, read k = stateOf v.text k → recorded k = stateOf v.text k
  | .state k₀ _ => ∀ k < 15, k ≠ k₀.val → read k = recorded k

instance (r : Request) (read recorded : StateBits) : Decidable (r.Current read recorded) :=
  match r with
  | .value v => inferInstanceAs (Decidable (∀ k < 15, read k = stateOf v.text k → _))
  | .state k₀ _ => inferInstanceAs (Decidable (∀ k < 15, k ≠ k₀.val → _))

/-- Exactly then, what it records and what it sends are what they would be if it
read now. -/
theorem Request.current_iff (r : Request) (read recorded bmc : StateBits)
    (hagree : SameStates recorded bmc) : r.Current read recorded ↔
      SameStates (r.apply read) (r.apply recorded) ∧
        SameStates (setBits bmc (r.bits read)) (r.apply recorded) := by
  cases r with
  | value v =>
    have hsent (k : Nat) (hk : k < 15) :
        setBits bmc (changes read (stateOf v.text) (List.range 15)) k = stateOf v.text k ↔
          (read k = stateOf v.text k → recorded k = stateOf v.text k) := by
      rw [setBits_changes, ← hagree k hk]
      by_cases hread : read k = stateOf v.text k <;> simp [hread, hk]
    constructor
    · exact fun h => ⟨fun _ _ => rfl, fun k hk => (hsent k hk).mpr (h k hk)⟩
    · exact fun h k hk => (hsent k hk).mp (h.2 k hk)
  | state k₀ b =>
    have hrecorded (k : Nat) :
        Function.update read k₀.val b k = Function.update recorded k₀.val b k ↔
          (k ≠ k₀.val → read k = recorded k) := by
      by_cases hk₀ : k = k₀.val <;> simp [hk₀]
    have hsent : SameStates (setBits bmc ((Request.state k₀ b).bits read))
        ((Request.state k₀ b).apply recorded) := by
      intro k hk
      rw [setBits_request _ _ _ k hk]
      simp only [Request.apply, Function.update_apply, hagree k hk]
      by_cases hread : read k = bmc k <;> simp [hread]
    constructor
    · exact fun h => ⟨fun k hk => (hrecorded k).mpr (h k hk), hsent⟩
    · exact fun h k hk => (hrecorded k).mp (h.1 k hk)

/-! ### Runs -/

/-- From the read of the recorded value to the release of the lock. -/
def CommandPc.requesting : CommandPc → Bool
  | .compute _ | .lockWrite .. | .storeText _ | .bits .. => true
  | _ => false

def CommandPc.computing? : CommandPc → Option DiscreteCall
  | .compute c => some c
  | _ => none

/-- The request that takes the lock next, and what it has read. -/
def CommandPc.taking? : CommandPc → Option (Request × Value)
  | .lockWrite c read _ => c.request?.map fun r => (r, read)
  | _ => none

/-- The bits that have not been transmitted. -/
def CommandPc.pending : CommandPc → List (Nat × Int)
  | .bits todo .release => todo.tail
  | .bits todo _ => todo
  | _ => []

def CommandPc.sendsBit : CommandPc → Bool
  | .bits (_ :: _) .transmit => true
  | _ => false

/-- The requests on sensor `s`, in the order in which they took the lock. -/
def lockOrder {σ ι : Type} [DecidableEq σ] (s : σ) (e : Event σ ι) (w : World σ ι)
    (order : List Request) : List Request :=
  match e with
  | .session i _ => order ++ (w.on s i).taking?.toList.map Prod.fst
  | _ => order

namespace Spot
variable {σ ι : Type}

def site (p : Spot σ ι) : Site := ⟨p.shared.obj, p.shared.bmc.states⟩

/-- No request is in progress. -/
def Idle (p : Spot σ ι) : Prop := ∀ i, (p.session i).requesting = false

def Documented (e : Event σ ι) (p : Spot σ ι) : Prop :=
  ∀ i ∈ e.session?, ∀ c ∈ (p.session i).computing?, c.Documented

/-- Every bit that is sent arrives. -/
def BitsArrive (p : Spot σ ι) : Event σ ι → Prop
  | .session i delivered => (p.session i).sendsBit → delivered = true
  | _ => True

/-- A request that takes the lock is current. -/
def TakesCurrent (e : Event σ ι) (p : Spot σ ι) : Prop :=
  ∀ i ∈ e.session?, ∀ x ∈ (p.session i).taking?, x.1.Current x.2.states p.site.recorded

/-! ### The invariant -/

/-- What a request has worked out before it takes the lock. -/
def WorkedOut (c : DiscreteCall) (read : Value) (l : Locked) : Prop :=
  ∃ (r : Request) (new : WordText), c.request? = some r ∧
    l = ⟨new.text, r.bits read.states⟩ ∧ stateOf new.text = r.apply read.states

/-- What a request at a program point is sure of; under the lock it is on the way
to `goal`, the outcome of the requests that have taken the lock. -/
def Progress (p : Spot σ ι) (goal : StateBits) : CommandPc → Prop
  | .lockWrite c read l => WorkedOut c read l
  | .storeText l => (∃ new : WordText, l.value = new.text) ∧ SameStates (stateOf l.value) goal ∧
      SameStates (setBits p.site.bmc l.bits) goal
  | .bits todo ph => SameStates p.site.recorded goal ∧
      SameStates (setBits p.site.bmc (CommandPc.bits todo ph).pending) goal
  | _ => True

structure Serial (p : Spot σ ι) (goal : StateBits) : Prop where
  sound : p.site.Sound
  progress : ∀ i, p.Progress goal (p.session i)
  free : (∀ i, ¬ (p.session i).holds .write) →
    SameStates p.site.recorded goal ∧ SameStates p.site.bmc goal

theorem WorkedOut.of_locked {p : Spot σ ι} (hsound : p.site.Sound) {c : DiscreteCall} (hdoc : c.Documented)
    {l : Locked} (hok : c.locked p.shared.obj = .ok l) : WorkedOut c p.shared.obj.value l := by
  obtain ⟨r, hr, hlocked⟩ := DiscreteCall.locked_request hdoc hok
  obtain ⟨old, hold⟩ := hsound.text
  obtain ⟨new, heq, hnew⟩ := r.locked_eq _ old hsound.discrete hold
  have hread : stateOf old.text = p.shared.obj.value.states := (congrArg Value.states hold).symm
  rw [hread] at heq hnew
  exact ⟨r, new, hr, Except.ok.inj (hlocked.symm.trans heq), hnew⟩

/-- Outside the lock nothing is shared. -/
theorem Progress.of_not_holds {p p' : Spot σ ι} {goal goal' : StateBits} {pc : CommandPc}
    (h : p.Progress goal pc) (hpc : ¬ pc.holds .write) : p'.Progress goal' pc := by
  cases pc with
  | storeText | bits => exact absurd trivial hpc
  | lockWrite => exact h
  | _ => trivial

theorem Progress.of_eq {p p' : Spot σ ι} {goal : StateBits} {pc : CommandPc} (h : p.Progress goal pc)
    (hrecorded : p'.site.recorded = p.site.recorded) (hbmc : p'.site.bmc = p.site.bmc) :
    p'.Progress goal pc := by
  unfold Progress at h ⊢
  rw [hrecorded, hbmc]
  exact h

theorem Serial.of_eq {p p' : Spot σ ι} {goal : StateBits} (h : p.Serial goal)
    (hsession : p'.session = p.session)
    (hty : p'.shared.obj.getEventType = p.shared.obj.getEventType)
    (hvalue : p'.shared.obj.value = p.shared.obj.value) (hbmc : p'.site.bmc = p.site.bmc) :
    p'.Serial goal := by
  have hrecorded : p'.site.recorded = p.site.recorded := congrArg Value.states hvalue
  refine ⟨⟨hty.trans h.sound.discrete, ?_⟩, fun i => ?_, fun hfree => ?_⟩
  · obtain ⟨v, hv⟩ := h.sound.text
    exact ⟨v, hvalue.trans hv⟩
  · rw [hsession]
    exact (h.progress i).of_eq hrecorded hbmc
  · rw [hrecorded, hbmc]
    exact h.free fun i => hsession ▸ hfree i

theorem initial_serial [DecidableEq σ] {w : World σ ι} (hw : w.Initial) (s : σ) (hsound : (w.spot s).site.Sound)
    (hagree : SameStates (w.spot s).site.recorded (w.spot s).site.bmc) :
    (w.spot s).Serial (w.spot s).site.recorded := by
  refine ⟨hsound, fun i => ?_, fun _ => ⟨fun _ _ => rfl, hagree.symm⟩⟩
  rw [hw.on_returned]
  trivial

theorem Sane.no_writer {s : σ} {p : Spot σ ι} (hsane : p.Sane s) (hfree : p.shared.lockSensorWrite = none)
    (j : ι) : ¬ (p.session j).holds .write := by
  intro hj
  rw [(hsane.owned.write j).mpr hj] at hfree
  cases hfree

/-- Who holds the write lock is alone. -/
theorem Sane.only_writer {s : σ} {p : Spot σ ι} (hsane : p.Sane s) {i : ι} (hi : (p.session i).holds .write) :
    ∀ j ≠ i, ¬ (p.session j).holds .write := by
  intro j hne hj
  have hown := (hsane.owned.write i).mpr hi
  rw [(hsane.owned.write j).mpr hj] at hown
  cases hown
  exact hne rfl

theorem Idle.not_holds {p : Spot σ ι} (h : p.Idle) (i : ι) : ¬ (p.session i).holds .write := by
  have hi := h i
  generalize p.session i = pc at hi
  cases pc with
  | storeText | bits => cases hi
  | _ => exact not_false

/-! ### A session's action -/

variable [DecidableEq ι]

/-- Outside the lock, with the values left alone. -/
theorem Serial.outside {p : Spot σ ι} {goal : StateBits} (h : p.Serial goal) (i : ι) (pc : CommandPc)
    {shared : Shared (Tid σ ι)} (hty : shared.obj.getEventType = p.shared.obj.getEventType)
    (hvalue : shared.obj.value = p.shared.obj.value) (hbmc : shared.bmc.states = p.shared.bmc.states)
    (hout : ¬ (p.session i).holds .write) (hprogress : p.Progress goal pc) :
    ({p with shared := shared, session := Function.update p.session i pc} : Spot σ ι).Serial goal := by
  have hkept : ({p with shared := shared} : Spot σ ι).Serial goal := h.of_eq rfl hty hvalue hbmc
  refine ⟨hkept.sound, ?_, fun hfree => hkept.free fun j => ?_⟩
  · rw [Function.forall_update_iff _ fun _ pc => Progress _ goal pc]
    exact ⟨hprogress.of_eq (congrArg Value.states hvalue) hbmc, fun j _ => hkept.progress j⟩
  · by_cases hj : j = i
    · exact hj ▸ hout
    · have hother : ¬ (Function.update p.session i pc j).holds .write := hfree j
      rwa [Function.update_of_ne hj] at hother

/-- Under the lock, and taking it. -/
theorem Serial.inside {p : Spot σ ι} {goal goal' : StateBits} (h : p.Serial goal) {i : ι}
    {pc : CommandPc} {shared : Shared (Tid σ ι)} (hothers : ∀ j ≠ i, ¬ (p.session j).holds .write)
    (hsound : ({p with shared := shared} : Spot σ ι).site.Sound)
    (hprogress : ({p with shared := shared} : Spot σ ι).Progress goal' pc)
    (hfree : ¬ pc.holds .write → SameStates ({p with shared := shared} : Spot σ ι).site.recorded goal' ∧
      SameStates ({p with shared := shared} : Spot σ ι).site.bmc goal') :
    ({p with shared := shared, session := Function.update p.session i pc} : Spot σ ι).Serial goal' := by
  refine ⟨hsound, ?_, fun hnone => hfree ?_⟩
  · rw [Function.forall_update_iff _ fun _ pc => Progress _ goal' pc]
    exact ⟨hprogress, fun j hj => (h.progress j).of_not_holds (hothers j hj)⟩
  · have hself : ¬ (Function.update p.session i pc i).holds .write := hnone i
    rwa [Function.update_self] at hself

/-- Taking the lock: the request comes last in the order. -/
theorem Serial.takes {p : Spot σ ι} {goal : StateBits} (h : p.Serial goal)
    (hfree : ∀ j, ¬ (p.session j).holds .write) {i : ι} {c : DiscreteCall} {read : Value} {l : Locked}
    (hworked : WorkedOut c read l)
    (hcurrent : ∀ x ∈ (CommandPc.lockWrite c read l).taking?, x.1.Current x.2.states p.site.recorded)
    {shared : Shared (Tid σ ι)} (hobj : shared.obj = p.shared.obj) (hbmc : shared.bmc = p.shared.bmc) :
    ({p with shared := shared, session := Function.update p.session i (.storeText l)} : Spot σ ι).Serial
      (outcome goal ((CommandPc.lockWrite c read l).taking?.toList.map Prod.fst)) := by
  obtain ⟨r, new, hr, rfl, hstates⟩ := hworked
  have hlast : CommandPc.taking? (.lockWrite c read ⟨new.text, r.bits read.states⟩) = some (r, read) :=
    congrArg (Option.map fun r => (r, read)) hr
  have hsite : ({p with shared := shared} : Spot σ ι).site = p.site := by simp only [site, hobj, hbmc]
  obtain ⟨hrecorded, hbits⟩ := h.free hfree
  obtain ⟨happly, hsent⟩ := (r.current_iff _ _ p.site.bmc (hrecorded.trans hbits.symm)).mp
    (hcurrent _ hlast)
  have hgoal := hrecorded.apply r
  rw [hlast]
  refine h.inside (fun j _ => hfree j) (hsite ▸ h.sound) ⟨⟨new, rfl⟩, ?_, ?_⟩ (absurd trivial)
  · rw [hstates]
    exact happly.trans hgoal
  · rw [hsite]
    exact hsent.trans hgoal

/-- Storing the text. -/
theorem Serial.stores {p : Spot σ ι} {goal : StateBits} (h : p.Serial goal) {i : ι} {l : Locked}
    (hprogress : p.Progress goal (.storeText l)) (halone : ∀ j ≠ i, ¬ (p.session j).holds .write)
    {shared : Shared (Tid σ ι)} (hty : shared.obj.getEventType = p.shared.obj.getEventType)
    (hvalue : shared.obj.value = .str l.value) (hbmc : shared.bmc.states = p.shared.bmc.states) :
    ({p with shared := shared, session := Function.update p.session i (.bits l.bits .acquire)} :
      Spot σ ι).Serial goal := by
  obtain ⟨⟨new, hnew⟩, hstored, hbits⟩ := hprogress
  refine h.inside halone ⟨hty.trans h.sound.discrete, new, ?_⟩ ⟨?_, ?_⟩ (absurd trivial)
  · rw [← hnew]
    exact hvalue
  · rw [show ({p with shared := shared} : Spot σ ι).site.recorded = stateOf l.value from
      congrArg Value.states hvalue]
    exact hstored
  · rw [show ({p with shared := shared} : Spot σ ι).site.bmc = p.site.bmc from hbmc]
    exact hbits

/-- Working through the bits, up to the release of the lock. -/
theorem Serial.sends {p : Spot σ ι} {goal : StateBits} (h : p.Serial goal) {i : ι} {pc : CommandPc}
    (halone : ∀ j ≠ i, ¬ (p.session j).holds .write) {shared : Shared (Tid σ ι)}
    (hobj : shared.obj = p.shared.obj) (hpc : pc = .returned ∨ ∃ todo ph, pc = .bits todo ph)
    (hrecorded : SameStates p.site.recorded goal)
    (hsent : SameStates (setBits shared.bmc.states pc.pending) goal) :
    ({p with shared := shared, session := Function.update p.session i pc} : Spot σ ι).Serial goal := by
  have hsame : ({p with shared := shared} : Spot σ ι).site.recorded = p.site.recorded :=
    congrArg (fun s : Sensor => s.value.states) hobj
  rw [← hsame] at hrecorded
  obtain ⟨v, hv⟩ := h.sound.text
  refine h.inside halone ⟨?_, v, ?_⟩ ?_ fun hout => ?_
  · exact (congrArg Sensor.getEventType hobj).trans h.sound.discrete
  · exact (congrArg Sensor.value hobj).trans hv
  · rcases hpc with rfl | ⟨todo, ph, rfl⟩
    · trivial
    · exact ⟨hrecorded, hsent⟩
  · rcases hpc with rfl | ⟨todo, ph, rfl⟩
    · exact ⟨hrecorded, hsent⟩
    · exact absurd trivial hout

theorem Serial.session {s : σ} {p : Spot σ ι} (hsane : p.Sane s) {goal : StateBits}
    (h : p.Serial goal) {i : ι} (hdoc : ∀ c ∈ (p.session i).computing?, c.Documented)
    {delivered : Bool} (harrive : (p.session i).sendsBit → delivered = true)
    (hcurrent : ∀ x ∈ (p.session i).taking?, x.1.Current x.2.states p.site.recorded)
    {l : Option (Tid σ ι)} {pc : CommandPc} {v : View (Tid σ ι)}
    (hstep : (p.session i).step (.session i) delivered ⟨p.shared, l⟩ = some (pc, v)) :
    ({p with shared := v.toShared, session := Function.update p.session i pc} : Spot σ ι).Serial
      (outcome goal ((p.session i).taking?.toList.map Prod.fst)) := by
  obtain ⟨hobj, -, hbmc⟩ := CommandPc.step_effect hstep
  have hty := (congrArg Sensor.getEventType hobj).trans (CommandPc.writes_sameRecord _ _).eventType
  have hvalue := congrArg Sensor.value hobj
  have hstates := congrArg Bmc.states hbmc
  have hnext := CommandPc.step_next hstep
  have hmoved := CommandPc.step_moved hstep .write
  have hdiscrete : p.shared.obj.getEventType = .discrete := h.sound.discrete
  have hfits := hsane.typed.session i
  rw [hdiscrete] at hfits
  have hprogress := h.progress i
  have houtside := h.outside i pc hty
  have halone := hsane.only_writer (i := i)
  generalize p.session i = pc₀ at *
  cases hnext with
  | computed hok => exact houtside hvalue hstates not_false (.of_locked h.sound (hdoc _ rfl) hok)
  | locked =>
    have hfree : p.shared.lockSensorWrite = none := by
      cases hmoved with
      | taken hnone => exact hnone
      | kept _ hholds => exact (hholds.mp trivial).elim
      | given hheld => exact hheld.elim
    exact h.takes (hsane.no_writer hfree) hprogress hcurrent hobj hbmc
  | storedText l' => exact h.stores hprogress (halone trivial) hty hvalue hstates
  | @sendingBit b rest ph ph' hph =>
    refine h.sends (halone trivial) hobj (.inr ⟨_, _, rfl⟩) hprogress.1 ?_
    cases ph with
    | acquire =>
      cases hph
      rw [hstates]
      exact hprogress.2
    | transmit =>
      cases hph
      obtain rfl := harrive rfl
      rw [hstates]
      exact hprogress.2
    | release => cases hph
  | sentBit b rest =>
    refine h.sends (halone trivial) hobj (.inr ⟨_, _, rfl⟩) hprogress.1 ?_
    rw [hstates]
    exact hprogress.2
  | unlocked ph =>
    refine h.sends (halone trivial) hobj (.inl rfl) hprogress.1 ?_
    rw [hstates]
    cases ph <;> exact hprogress.2
  | stored x hthreshold => exact absurd (hdiscrete.symm.trans hthreshold) nofun
  | notStored x hne =>
    rw [CommandPc.writes, if_neg hne] at hvalue
    exact houtside hvalue hstates not_false trivial
  | sending | sent => cases hfits
  | calls a =>
    refine houtside hvalue hstates not_false ?_
    rcases a.call_eq p.shared.obj with hcall | ⟨x, -, hcall⟩ | ⟨text, -, hcall⟩ <;> rw [hcall] <;> trivial
  | _ => exact houtside hvalue hstates not_false trivial

theorem Serial.begin {p : Spot σ ι} {goal : StateBits} (h : p.Serial goal) {i : ι} (c : Command)
    (hreturned : p.session i = .returned) :
    ({p with session := Function.update p.session i c.start} : Spot σ ι).Serial goal := by
  refine h.outside i c.start rfl rfl rfl (hreturned ▸ not_false) ?_
  cases c with
  | modeSet r => cases r <;> trivial
  | selSet checked => cases checked <;> trivial
  | _ => trivial

variable [DecidableEq σ]

theorem serial_moves {listed : Prop} {s : σ} {e : Event σ ι} {w : World σ ι} {p' : Spot σ ι}
    (hsane : (w.spot s).Sane s) {states : StateBits} {order : List Request}
    (h : (w.spot s).Serial (outcome states order)) (hdoc : (w.spot s).Documented e)
    (harrive : (w.spot s).BitsArrive e) (hcurrent : (w.spot s).TakesCurrent e)
    (hm : (w.spot s).Moves listed s e p') : p'.Serial (outcome states (lockOrder s e w order)) := by
  cases hm with
  | thread hstep =>
    have hdiscrete : (w.spot s).shared.obj.getEventType = .discrete := h.sound.discrete
    rw [hsane.typed.thread (by rw [hdiscrete]; exact nofun)] at hstep
    cases hstep
  | timeout => exact h.of_eq rfl rfl rfl rfl
  | begin c hreturned => exact h.begin c hreturned
  | @session i delivered _ _ _ hstep =>
    rw [lockOrder, outcome_append]
    exact h.session hsane (hdoc i rfl) harrive (hcurrent i rfl) hstep
  | @mainTurn ph _ _ _ _ hstep | @mainLeaves ph _ _ _ _ hstep =>
    obtain ⟨hobj, -, hbmc⟩ := FreePhase.step_effect hstep
    refine h.of_eq rfl ?_ ?_ (congrArg Bmc.states hbmc)
    · exact (congrArg Sensor.getEventType hobj).trans (FreePhase.writes_sameRecord _ _).eventType
    · rw [hobj]
      cases ph <;> rfl
  | elsewhere he _ =>
    have horder : lockOrder s e w order = order := by
      cases e with
      | session i =>
        have hreturned : w.on s i = .returned := not_not.mp he
        rw [lockOrder, hreturned]
        exact List.append_nil _
      | _ => rfl
    rw [horder]
    exact h.of_eq rfl rfl rfl rfl

section Decidable

instance (c : DiscreteCall) : Decidable c.Documented :=
  match c with
  | .value _ => inferInstanceAs (Decidable (_ → _ → _ → _))
  | .state .. => .isTrue trivial

instance [Fintype ι] (p : Spot σ ι) : Decidable p.Idle :=
  inferInstanceAs (Decidable (∀ i, (p.session i).requesting = false))

instance (e : Event σ ι) (p : Spot σ ι) : Decidable (p.Documented e) :=
  inferInstanceAs (Decidable (∀ i ∈ e.session?, ∀ c ∈ (p.session i).computing?, c.Documented))

instance (e : Event σ ι) (p : Spot σ ι) : Decidable (p.BitsArrive e) :=
  match e with
  | .session .. => inferInstanceAs (Decidable (_ → _))
  | .thread .. | .timeout _ | .begin .. | .interrupt | .main => .isTrue trivial

instance (e : Event σ ι) (p : Spot σ ι) : Decidable (p.TakesCurrent e) :=
  inferInstanceAs (Decidable (∀ i ∈ e.session?, ∀ x ∈ (p.session i).taking?, _))

end Decidable
end Spot

variable {σ ι : Type} [DecidableEq σ] [DecidableEq ι]

/-- The runs from a given site, with the order in which requests took the lock. -/
def requestRuns (ι : Type) [DecidableEq ι] (sensorList : List σ) (s : σ) (st : Site) :
    System (World σ ι × List Request) (Event σ ι) :=
  ((system σ ι sensorList).startingIn fun w => (w.spot s).site = st).withHistory [] (lockOrder s)

/-- **No lost update.** In every run whose requests are current when they take the
lock, and whose sends arrive. -/
theorem no_lost_update (sensorList : List σ) (s : σ) (st : Site) (hsound : st.Sound)
    (hagree : SameStates st.recorded st.bmc) (w : World σ ι) (order : List Request)
    (h : (requestRuns ι sensorList s st).Reach (fun e x => (x.1.spot s).Documented e ∧
      (x.1.spot s).BitsArrive e ∧ (x.1.spot s).TakesCurrent e) (w, order))
    (hidle : (w.spot s).Idle) :
    SameStates (w.spot s).site.recorded (w.spot s).site.bmc ∧
      SameStates (w.spot s).site.recorded (st.performsAll order).recorded ∧
      SameStates (w.spot s).site.bmc (st.performsAll order).bmc := by
  have hserial : (w.spot s).Serial (outcome st.recorded order) := by
    refine Spot.invariantWithHistory (M := (system σ ι sensorList).startingIn _) s
      (I := fun p order => p.Serial (outcome st.recorded order)) (fun _ hw => hw.1) rfl ?_ ?_ h
    · rintro w ⟨hw, rfl⟩
      exact Spot.initial_serial hw s hsound hagree
    · intro e w order p' hsane hI ha hm
      exact Spot.serial_moves hsane hI ha.1 ha.2.1 ha.2.2 hm
  obtain ⟨hrecorded, hbmc⟩ := hserial.free hidle.not_holds
  have hperformed := st.performsAll_agrees hsound order hagree
  rw [← st.performsAll_recorded hsound order] at hrecorded hbmc
  exact ⟨hrecorded.trans hbmc.symm, hrecorded, hbmc.trans hperformed⟩

/-! ### Runs on a door -/

/-- One door sensor, and two sessions. -/
def doorWorld : World Unit (Fin 2) :=
  World.boot (fun _ => doorSensor) (fun _ _ => false) (fun _ => ())

theorem doorWorld_reachable (allowed : Event Unit (Fin 2) → World Unit (Fin 2) × List Request → Prop) :
    (requestRuns (Fin 2) [()] () doorSite).Reach allowed (doorWorld, []) :=
  .init ⟨⟨World.boot_initial (fun _ => ⟨rfl, rfl, rfl⟩) _ _, rfl⟩, rfl⟩

/-- Two sessions set state 0 and state 1 of the zero word, and the first reads it
before the second has stored: state 1 is set at the BMC and lost in the recorded
value. -/
theorem door_loses_update : ∃ (w : World Unit (Fin 2)) (order : List Request),
    (requestRuns (Fin 2) [()] () doorSite).Reach
      (fun e x => (x.1.spot ()).Documented e ∧ (x.1.spot ()).BitsArrive e) (w, order) ∧
    (w.spot ()).Idle ∧ ¬ SameStates (w.spot ()).site.recorded (w.spot ()).site.bmc ∧
      ¬ SameStates (w.spot ()).site.recorded (doorSite.performsAll order).recorded := by
  obtain ⟨⟨w, order⟩, hw, hidle, hbmc, hserial⟩ := (doorWorld_reachable
      (fun e x => (x.1.spot ()).Documented e ∧ (x.1.spot ()).BitsArrive e)).exists_of_run
    (commandSteps 0 (.discrete (.state 0 1)) 1 ++ commandSteps 1 (.discrete (.state 1 1)) 7 ++
      sessionSteps 0 6)
    (fun x => (x.1.spot ()).Idle ∧ ¬ SameStates (x.1.spot ()).site.recorded (x.1.spot ()).site.bmc ∧
      ¬ SameStates (x.1.spot ()).site.recorded (doorSite.performsAll x.2).recorded) (by decide +kernel)
  exact ⟨w, order, hw, hidle, hbmc, hserial⟩

/-- A request that sets state 0 overlaps a word request for the same state, which
relies on the other states only. -/
theorem no_lost_update_door : ∃ (w : World Unit (Fin 2)) (order : List Request), order.length = 2 ∧
    SameStates (w.spot ()).site.recorded (w.spot ()).site.bmc ∧
      SameStates (w.spot ()).site.recorded (doorSite.performsAll order).recorded ∧
      SameStates (w.spot ()).site.bmc (doorSite.performsAll order).bmc := by
  obtain ⟨⟨w, order⟩, hw, hidle, hlength⟩ := (doorWorld_reachable (fun e x =>
      (x.1.spot ()).Documented e ∧ (x.1.spot ()).BitsArrive e ∧ (x.1.spot ()).TakesCurrent e)).exists_of_run
    (commandSteps 1 (.discrete (.value oneWord.text)) 1 ++ commandSteps 0 (.discrete (.state 0 1)) 7 ++
      sessionSteps 1 6)
    (fun x => (x.1.spot ()).Idle ∧ x.2.length = 2) (by decide +kernel)
  exact ⟨w, order, hlength, no_lost_update [()] () doorSite doorSite_sound (by decide) w order hw hidle⟩

end Idic.IpmiSim
