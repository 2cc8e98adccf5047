import Idic.IpmiSim.Agreement
import Idic.IpmiSim.Conversion
import Idic.IpmiSim.Shape

/-! Whether raw readings stay bytes.

Three writers make raw values: a number at the prompt is converted back, auto mode
draws between the thresholds, and fault mode draws beyond one. Fault mode always
draws bytes. `Covers.isByte` and `getRandomValue_isByte_iff` say when the other two
do, and `raw_values_are_bytes` that in runs in which only such requests are made
every value that is recorded or sent is a byte. -/
namespace Idic.IpmiSim
open Python Threads

def IsByte (n : Int) : Prop := 0 ≤ n ∧ n ≤ 255

instance (n : Int) : Decidable (IsByte n) := inferInstanceAs (Decidable (_ ∧ _))

theorem isByte_toNat (b : UInt8) : IsByte b.toNat := by
  have := b.toNat_lt
  exact ⟨by omega, by omega⟩

/-! ### Numbers from the prompt -/

theorem truncate_isByte_iff (q : ℚ) : IsByte (truncate q) ↔ -1 < q ∧ q < 256 := by
  unfold IsByte truncate
  split
  · next h =>
    have hfloor : (0 : Int) ≤ ⌊q⌋ := Int.floor_nonneg.mpr h
    have hlow : (-1 : ℚ) < q := by linarith
    have hhigh : ⌊q⌋ ≤ 255 ↔ q < 256 := by
      rw [← Int.lt_add_one_iff, Int.floor_lt]
      norm_num
    simp only [hfloor, hlow, hhigh, true_and]
  · next h =>
    have hneg : q < 0 := not_le.mp h
    have hhigh : q < 256 := by linarith
    have hceil : ⌈q⌉ ≤ (255 : Int) := Int.ceil_le.mpr (by push_cast; linarith)
    have hlow : 0 ≤ ⌈q⌉ ↔ -1 < q := by
      rw [show 0 ≤ ⌈q⌉ ↔ -1 < ⌈q⌉ by omega, Int.lt_ceil]
      norm_num
    simp only [hceil, hhigh, hlow, and_true]

namespace Sensor

/-- `int(formula(analog_value))`, in floating point. -/
def rawValue (s : Sensor) (x : Number) : Except PyError Int := do
  doubleFloats.rawValue (← s.getReadingFactor) x

/-- The number lies between the readable values of the raw values -1 and 256, with a
margin for the roundings, or is not converted at all. -/
def Covers (s : Sensor) (x : ℚ) : Prop :=
  match s.getReadingFactor with
  | .ok r => r.M = 0 ∨ r.formula1 (-1 + r.margin) ≤ x ∧ x ≤ r.formula1 (256 - r.margin)
  | .error _ => True

/-- The number lies beyond one of the readable values, by the margin. -/
def Misses (s : Sensor) (x : ℚ) : Prop :=
  ∃ r, s.getReadingFactor = .ok r ∧ (x ≤ r.formula1 (-1 - r.margin) ∨ r.formula1 (256 + r.margin) ≤ x)

instance (s : Sensor) (x : ℚ) : Decidable (s.Covers x) := by
  unfold Covers
  split <;> infer_instance

/-- A raw value is what `int` makes of a double. -/
theorem rawValue_eq_ok {s : Sensor} {x : ℚ} {n : Int} (h : s.rawValue (.ofRat x) = .ok n) :
    ∃ r y, s.getReadingFactor = .ok r ∧ 0 < r.M ∧ r.floatFormula2 (.ofRat x) = .ok (.finite y) ∧
      n = truncate y := by
  obtain ⟨r, hr, hraw⟩ := bind_eq_ok.mp h
  obtain ⟨z, hz, hn⟩ := bind_eq_ok.mp hraw
  have hM : r.M ≠ 0 := by
    intro hzero
    obtain ⟨z', -, hdiv⟩ := bind_eq_ok.mp hz
    rw [hzero, Int.cast_zero, Number.div_zero] at hdiv
    cases hdiv
  cases z with
  | finite y =>
    cases hn
    exact ⟨r, y, hr, lt_of_le_of_ne (getReadingFactor_bounded hr).M.1 hM.symm, hz, rfl⟩
  | inf | nan => cases hn

theorem Covers.isByte {s : Sensor} {x : ℚ} (hx : s.Covers x) {n : Int} (h : s.rawValue (.ofRat x) = .ok n) :
    IsByte n := by
  obtain ⟨r, y, hr, hM, hy, rfl⟩ := rawValue_eq_ok h
  rw [Covers, hr] at hx
  obtain ⟨hlow, hhigh⟩ := hx.resolve_left hM.ne'
  rw [truncate_isByte_iff]
  exact ReadingFactor.floatFormula2_mem (getReadingFactor_bounded hr) hM hlow hhigh hy

/-- Only within the margin it depends on the roundings what a number becomes. -/
theorem Misses.not_isByte {s : Sensor} {x : ℚ} (hx : s.Misses x) {n : Int}
    (h : s.rawValue (.ofRat x) = .ok n) : ¬ IsByte n := by
  obtain ⟨r, y, hr, hM, hy, rfl⟩ := rawValue_eq_ok h
  obtain ⟨r', hr', hbeyond⟩ := hx
  cases hr.symm.trans hr'
  rw [truncate_isByte_iff]
  exact ReadingFactor.floatFormula2_not_mem (getReadingFactor_bounded hr) hM hbeyond hy

end Sensor

/-! ### Generated values -/

namespace Sensor

theorem randint_mem {rng : Nat} {a b v : Int} (h : randint rng a b = .ok v) : a ≤ v ∧ v ≤ b := by
  unfold randint at h
  split at h
  · next hle =>
    cases h
    have := Nat.mod_lt rng (show 0 < (b - a + 1).toNat by omega)
    omega
  · cases h

theorem randint_isByte {rng : Nat} {a b v : Int} (h : randint rng a b = .ok v) (ha : 0 ≤ a)
    (hb : b ≤ 255) : IsByte v := by
  have := randint_mem h
  exact ⟨by omega, by omega⟩

/-- Signed readings have a readable lower threshold, so that auto mode does not draw
from -127 on. -/
def LowerEnd (s : Sensor) : Prop :=
  s.signed → s.readable .lnc ∨ s.readable .lc ∨ s.readable .lnr

instance (s : Sensor) : Decidable s.LowerEnd := inferInstanceAs (Decidable (_ → _ ∨ _ ∨ _))

theorem LowerEnd.lowValue {s : Sensor} (h : s.LowerEnd) : 0 ≤ s.lowValue := by
  unfold Sensor.lowValue
  split_ifs with h₁ h₂ h₃ h₄
  · omega
  · omega
  · omega
  · rcases h h₄ with h | h | h
    · exact absurd h h₁
    · exact absurd h h₂
    · exact absurd h h₃
  · exact le_refl 0

theorem highValue_mem (s : Sensor) : -1 ≤ s.highValue ∧ s.highValue ≤ 255 := by
  have hunc := isByte_toNat s.unc
  have huc := isByte_toNat s.uc
  have hunr := isByte_toNat s.unr
  unfold IsByte at hunc huc hunr
  unfold highValue
  split_ifs <;> omega

/-- Auto mode draws bytes only, exactly when signed readings have a lower end. -/
theorem getRandomValue_isByte_iff (s : Sensor) :
    (∀ rng v, s.getRandomValue rng = .ok v → IsByte v) ↔ s.LowerEnd := by
  constructor
  · intro hbytes hsigned
    by_contra hnone
    simp only [not_or] at hnone
    have hlow : s.lowValue = -127 := by
      rw [lowValue, if_neg hnone.1, if_neg hnone.2.1, if_neg hnone.2.2, if_pos hsigned]
    have hhigh := (s.highValue_mem).1
    have hdraw : s.getRandomValue 0 = .ok (-127) := by
      rw [getRandomValue, randint, if_pos (by omega), hlow, Nat.zero_mod]
      rfl
    exact absurd (hbytes 0 _ hdraw) (by decide)
  · exact fun hlow rng v hv => randint_isByte hv hlow.lowValue s.highValue_mem.2

theorem maxValue_le (s : Sensor) : s.maxValue ≤ 255 := by
  unfold maxValue
  split <;> omega

/-- Fault mode draws bytes only. -/
theorem faultValueAt_isByte {s : Sensor} {l : Level} {rng : Nat} {v : Int} {messages : List Str}
    (h : s.faultValueAt l rng = .ok (some v, messages)) : IsByte v := by
  have hdraw {a b : Int} (h : (randint rng a b).map (fun v => (some v, ([] : List Str))) =
      .ok (some v, messages)) (ha : 0 ≤ a) (hb : b ≤ 255) : IsByte v := by
    obtain ⟨v', hv', heq⟩ := map_eq_ok.mp h
    cases heq
    exact randint_isByte hv' ha hb
  have hbyte (b : UInt8) := isByte_toNat b
  unfold IsByte at hbyte
  have hmax := s.maxValue_le
  have hlnr := hbyte s.lnr
  have hlc := hbyte s.lc
  have hlnc := hbyte s.lnc
  have hunc := hbyte s.unc
  have huc := hbyte s.uc
  have hunr := hbyte s.unr
  cases l <;> simp only [faultValueAt] at h <;> split_ifs at h <;>
    first | exact hdraw h (by omega) (by omega) | cases h

theorem getFaultValue_isByte {s : Sensor} {rng : Nat} {v : Int} {messages : List Str}
    (h : s.getFaultValue rng = .ok (some v, messages)) : IsByte v := by
  unfold getFaultValue at h
  split at h
  · cases h
  · exact faultValueAt_isByte h

end Sensor

/-! ### What is typed at the prompt -/

namespace Sensor

/-- What `sensor value set` makes of a word: `float(word)` is rounded. -/
def valueArg (s : Sensor) (word : Str) : ValueArg :=
  ⟨word, (doubleFloats.ofText word).bind fun x => (s.rawValue x).toOption⟩

/-- A word that is a number the sensor covers, or none that can be converted. -/
def CoversWord (s : Sensor) (word : Str) : Prop :=
  match floatOf word with
  | some (.finite x) => s.Covers x
  | _ => True

instance (s : Sensor) (word : Str) : Decidable (s.CoversWord word) := by
  unfold CoversWord
  split <;> infer_instance

/-- Infinite numbers and those that are none have no raw value. -/
theorem rawValue_finite {s : Sensor} {x : Number} {n : Int} (h : s.rawValue x = .ok n) : ∃ q, x = .finite q := by
  obtain ⟨r, -, hraw⟩ := bind_eq_ok.mp h
  obtain ⟨z, hz, hn⟩ := bind_eq_ok.mp hraw
  cases z with
  | finite y =>
    obtain ⟨y', hy', hdiv⟩ := bind_eq_ok.mp hz
    obtain ⟨q, hq, -⟩ := Number.div_finite hdiv
    obtain ⟨q', rfl, -⟩ := Number.sub_finite hq
    obtain ⟨q'', hq'', -⟩ := Number.div_finite hy'
    exact ⟨q'', hq''⟩
  | inf | nan => cases hn

theorem valueArg_isByte {s : Sensor} {word : Str} (h : s.CoversWord word) :
    ∀ n ∈ (s.valueArg word).raw, IsByte n := by
  intro n hn
  obtain ⟨x, hx, hraw⟩ := Option.bind_eq_some_iff.mp hn
  obtain ⟨typed, htyped, rfl⟩ := Option.map_eq_some_iff.mp hx
  have hok : s.rawValue typed.round = .ok n := by
    cases hq : s.rawValue typed.round with
    | error e =>
      rw [hq] at hraw
      cases hraw
    | ok n' =>
      rw [hq] at hraw
      cases hraw
      rfl
  cases typed with
  | finite q =>
    rw [CoversWord, htyped] at h
    exact h.isByte hok
  | inf | nan =>
    obtain ⟨q, hq⟩ := rawValue_finite hok
    cases hq

/-- Auto mode is left to sensors without a thread, or with a lower end. -/
def AutoBytes (s : Sensor) : Prop := s.getEventType = .threshold → s.LowerEnd

instance (s : Sensor) : Decidable s.AutoBytes := inferInstanceAs (Decidable (_ → _))

theorem SameRecord.autoBytes {s s' : Sensor} (h : s.SameRecord s') : s'.AutoBytes ↔ s.AutoBytes :=
  (congrArg AutoBytes h).to_iff

end Sensor

section Prompt
variable {σ ι : Type}

/-- What the command handler starts: a value comes as a word. -/
def Event.AtPrompt (w : World σ ι) : Event σ ι → Prop
  | .begin _ s (.valueSet a) => a = (w.shared s).obj.valueArg a.text
  | .begin _ _ (.threshold _) | .begin _ _ (.discrete _) => False
  | _ => True

/-- The values that are set lie in the range of a byte, and so do those that auto
mode may draw. -/
def Event.StaysInRange (w : World σ ι) : Event σ ι → Prop
  | .begin _ s (.valueSet a) =>
    (w.shared s).obj.getEventType = .threshold → (w.shared s).obj.CoversWord a.text
  | .begin _ s (.modeSet .auto) => (w.shared s).obj.AutoBytes
  | _ => True

instance (w : World σ ι) (e : Event σ ι) : Decidable (e.AtPrompt w) := by
  unfold Event.AtPrompt
  split <;> infer_instance

instance (w : World σ ι) (e : Event σ ι) : Decidable (e.StaysInRange w) := by
  unfold Event.StaysInRange
  split <;> infer_instance

end Prompt

/-! ### The values on their way -/

/-- The values of the `sensor_set_value` commands for `s` so far. -/
def sentValues {σ ι : Type} [DecidableEq σ] (s : σ) (e : Event σ ι) (w : World σ ι)
    (sent : List Int) : List Int :=
  match e with
  | .thread s' _ _ => if s' = s then (w.thread s).transmitting?.toList ++ sent else sent
  | .session i _ => (w.on s i).transmitting?.toList ++ sent
  | _ => sent

/-- The thread has drawn a byte, or is to draw one. -/
def ThreadPc.Bytes (obj : Sensor) : ThreadPc → Prop
  | .random => obj.AutoBytes
  | .clear (some x) | .store x | .send x _ => IsByte x
  | _ => True

/-- A session has worked out a byte, or leaves the sensor to its thread. -/
def CommandPc.Bytes (obj : Sensor) : CommandPc → Prop
  | .readMode r | .writeMode r _ => r.mode = .auto → obj.AutoBytes
  | .testMode a | .writeUser a | .testType a | .notify _ (some a) =>
    obj.getEventType = .threshold → ∀ n ∈ a.raw, IsByte n
  | .store x | .send x _ => IsByte x
  | _ => True

theorem ThreadPc.Next.bytes {obj : Sensor} {pc pc' : ThreadPc} (h : pc.Next obj pc')
    (hthreshold : obj.getEventType = .threshold) (hauto : obj.mode = .auto → obj.AutoBytes)
    (hpc : pc.Bytes obj) : pc'.Bytes obj := by
  cases h with
  | auto hmode => exact hauto hmode
  | drawn hok => exact (Sensor.getRandomValue_isByte_iff obj).mpr (hpc hthreshold) _ _ hok
  | @evaluated rng s _ l _ hok =>
    cases s with
    | none => trivial
    | some x => exact Sensor.faultValueAt_isByte hok
  | value | stored | sending => exact hpc
  | _ => trivial

theorem CommandPc.Next.bytes {obj : Sensor} {pc pc' : CommandPc} (h : pc.Next obj pc')
    (hpc : pc.Bytes obj) : pc'.Bytes obj := by
  cases h with
  | leveled l => exact nofun
  | notifying after =>
    cases after with
    | none => trivial
    | some a => exact hpc
  | calls a =>
    unfold ValueArg.call
    cases hty : obj.getEventType with
    | threshold =>
      cases hraw : a.raw with
      | none => trivial
      | some x => exact hpc hty x hraw
    | discrete => cases a.word <;> trivial
    | NA => trivial
  | read | notifiedFor | auto | notAuto | user | stored | sending => exact hpc
  | _ => trivial

theorem CommandPc.Bytes.sameRecord {obj obj' : Sensor} {pc : CommandPc} (h : pc.Bytes obj)
    (hsame : obj.SameRecord obj') : pc.Bytes obj' := by
  have hty := hsame.eventType
  have hauto := hsame.autoBytes
  unfold Bytes at h ⊢
  split at h
  · exact fun hmode => hauto.mpr (h hmode)
  · exact fun hmode => hauto.mpr (h hmode)
  all_goals first | exact hty ▸ h | exact h

theorem ThreadPc.Bytes.sameRecord {obj obj' : Sensor} {pc : ThreadPc} (h : pc.Bytes obj)
    (hsame : obj.SameRecord obj') : pc.Bytes obj' := by
  cases pc with
  | random => exact hsame.autoBytes.mpr h
  | clear x => cases x <;> exact h
  | _ => exact h

theorem ThreadPc.Bytes.transmitting {obj : Sensor} {pc : ThreadPc} (h : pc.Bytes obj) :
    ∀ n ∈ pc.transmitting?.toList, IsByte n := by
  unfold transmitting?
  split
  · exact List.forall_mem_singleton.mpr h
  · exact nofun

theorem CommandPc.Bytes.transmitting {obj : Sensor} {pc : CommandPc} (h : pc.Bytes obj) :
    ∀ n ∈ pc.transmitting?.toList, IsByte n := by
  unfold transmitting?
  split
  · exact List.forall_mem_singleton.mpr h
  · exact nofun

/-- A threshold sensor's recorded value is a byte. -/
def Sensor.RecordsByte (s : Sensor) : Prop :=
  s.getEventType = .threshold → ∃ n, s.value = .int n ∧ IsByte n

theorem ThreadPc.Bytes.writes {obj : Sensor} {pc : ThreadPc} (h : pc.Bytes obj)
    (hobj : obj.RecordsByte) : (pc.writes obj).RecordsByte := by
  cases pc with
  | store x => exact fun _ => ⟨x, rfl, h⟩
  | _ => exact hobj

theorem CommandPc.Bytes.writes {obj : Sensor} {pc : CommandPc} (h : pc.Bytes obj)
    (hfits : pc.Fits obj.getEventType) (hobj : obj.RecordsByte) : (pc.writes obj).RecordsByte := by
  cases pc with
  | store x =>
    simp only [CommandPc.writes]
    split
    · exact fun _ => ⟨x, rfl, h⟩
    · exact hobj
  | storeText l =>
    intro hthreshold
    cases (show obj.getEventType = .threshold from hthreshold).symm.trans hfits
  | _ => exact hobj

/-! ### The invariant -/

namespace Spot
variable {σ ι : Type}

structure Bytes (p : Spot σ ι) (sent : List Int) : Prop where
  value : p.shared.obj.RecordsByte
  sent : ∀ n ∈ sent, IsByte n
  mode : p.shared.obj.mode = .auto → p.shared.obj.AutoBytes
  thread : p.thread.Bytes p.shared.obj
  session : ∀ i, (p.session i).Bytes p.shared.obj

/-- Everything but the recorded value survives a move that keeps the record. -/
theorem Bytes.sameRecord {p : Spot σ ι} {sent : List Int} (h : p.Bytes sent) {shared : Shared (Tid σ ι)}
    (hsame : p.shared.obj.SameRecord shared.obj) (hvalue : shared.obj.RecordsByte)
    (hmode : shared.obj.mode = .auto → p.shared.obj.AutoBytes) :
    ({p with shared := shared} : Spot σ ι).Bytes sent :=
  ⟨hvalue, h.sent, fun hauto => hsame.autoBytes.mpr (hmode hauto), h.thread.sameRecord hsame,
    fun i => (h.session i).sameRecord hsame⟩

variable [DecidableEq σ]

theorem begin_bytes {s : σ} {w : World σ ι} {i : ι} {c : Command}
    (hprompt : (Event.begin i s c).AtPrompt w)
    (hrange : (Event.begin i s c).StaysInRange w) : c.start.Bytes (w.spot s).shared.obj := by
  cases c with
  | modeSet r =>
    cases r with
    | user => exact nofun
    | auto => exact fun _ => hrange
    | fault l => trivial
  | valueSet a =>
    intro hthreshold
    rw [hprompt]
    exact Sensor.valueArg_isByte (hrange hthreshold)
  | threshold | discrete => exact hprompt.elim
  | selSet checked => cases checked <;> trivial

/-- What happens elsewhere sends nothing to this sensor. -/
theorem sentValues_elsewhere {s : σ} {e : Event σ ι} {w : World σ ι} (h : ¬ e.Concerns s (w.spot s))
    (sent : List Int) : sentValues s e w sent = sent := by
  cases e with
  | thread s' => exact if_neg h
  | session i delivered =>
    have hreturned : w.on s i = .returned := not_not.mp h
    simp only [sentValues, hreturned, CommandPc.transmitting?, Option.toList_none, List.nil_append]
  | timeout | begin | interrupt | main => rfl

variable [DecidableEq ι]

theorem bytes_moves {listed : Prop} {s : σ} {e : Event σ ι} {w : World σ ι}
    {p' : Spot σ ι} {sent : List Int} (hsane : (w.spot s).Sane s) (h : (w.spot s).Bytes sent)
    (hprompt : e.AtPrompt w) (hrange : e.StaysInRange w)
    (hm : (w.spot s).Moves listed s e p') : p'.Bytes (sentValues s e w sent) := by
  have hsame := hm.sameRecord
  cases hm with
  | thread hstep =>
    have hthreshold : (w.spot s).shared.obj.getEventType = .threshold := by
      by_contra hne
      rw [hsane.typed.thread hne] at hstep
      cases hstep
    obtain ⟨hobj, -, -⟩ := ThreadPc.step_effect hstep
    have hnext := (ThreadPc.step_next hstep).bytes hthreshold h.mode h.thread
    have hmoved := h.sameRecord hsame (hobj ▸ h.thread.writes h.value) fun hauto => by
      refine h.mode ?_
      rw [hobj] at hauto
      cases hpc : (w.spot s).thread <;> rw [hpc] at hauto <;> first | exact hauto | cases hauto
    refine ⟨hmoved.value, ?_, hmoved.mode, hnext.sameRecord hsame, hmoved.session⟩
    rw [sentValues, if_pos rfl, List.forall_mem_append]
    exact ⟨h.thread.transmitting, h.sent⟩
  | timeout => exact ⟨h.value, h.sent, h.mode, h.thread, h.session⟩
  | begin c =>
    refine ⟨h.value, h.sent, h.mode, h.thread, ?_⟩
    rw [Function.forall_update_iff _ fun _ pc => CommandPc.Bytes _ pc]
    exact ⟨begin_bytes hprompt hrange, fun j _ => h.session j⟩
  | @session i _ _ _ _ hstep =>
    obtain ⟨hobj, -, -⟩ := CommandPc.step_effect hstep
    have hnext := (CommandPc.step_next hstep).bytes (h.session i)
    have hwrites := (h.session i).writes (hsane.typed.session i) h.value
    have hmoved := h.sameRecord hsame (hobj ▸ hwrites) fun hauto => by
      rw [hobj, CommandPc.writes_mode] at hauto
      have hpc := h.session i
      cases hi : (w.spot s).session i <;> rw [hi] at hauto hpc <;>
        first | exact h.mode hauto | exact hpc hauto | cases hauto
    refine ⟨hmoved.value, ?_, hmoved.mode, hmoved.thread, ?_⟩
    · rw [sentValues, List.forall_mem_append]
      exact ⟨(h.session i).transmitting, h.sent⟩
    · rw [Function.forall_update_iff _ fun _ pc => CommandPc.Bytes _ pc]
      exact ⟨hnext.sameRecord hsame, fun j _ => hmoved.session j⟩
  | @mainTurn ph _ _ _ _ hstep | @mainLeaves ph _ _ _ _ hstep =>
    obtain ⟨hobj, -, -⟩ := FreePhase.step_effect hstep
    have hvalue : (ph.writes (w.spot s).shared.obj).RecordsByte := by
      cases ph <;> exact h.value
    have hmoved := h.sameRecord hsame (hobj ▸ hvalue) fun hauto => by
      refine h.mode ?_
      rw [hobj] at hauto
      cases ph <;> first | exact hauto | cases hauto
    exact ⟨hmoved.value, hmoved.sent, hmoved.mode, hmoved.thread, hmoved.session⟩
  | elsewhere he =>
    rw [sentValues_elsewhere he]
    exact ⟨h.value, h.sent, h.mode, h.thread, h.session⟩

end Spot

/-! ### First readings -/

namespace Sdr

/-- The reading of a threshold sensor is a byte. -/
def ReadsBytes (ipmitool : Ipmitool) : Prop := ∀ requests request n,
  readSensorRawValue (ipmitool requests request) .threshold = .ok (.int n) → IsByte n

theorem Built.recordsByte {ipmitool : Ipmitool} (htool : ReadsBytes ipmitool) {file : List UInt8}
    {requests : Nat} {starts : List Nat} {sensors : List Sensor}
    (h : Built ipmitool file requests starts sensors) : ∀ s ∈ sensors, s.RecordsByte := by
  induction h with
  | nil => exact fun _ hs => absurd hs List.not_mem_nil
  | @cons requests asked start starts value sensors hvalue _ ih =>
    refine List.forall_mem_cons.mpr ⟨fun hthreshold => ?_, ih⟩
    rw [sensorAt_eventType] at hthreshold
    split_ifs at hthreshold with hna hone
    rw [initialValue, if_neg hna, if_pos hone] at hvalue
    obtain ⟨reading, hreading, heq⟩ := map_eq_ok.mp hvalue
    cases heq
    obtain ⟨n, rfl⟩ := readSensorRawValue_threshold _ _ hreading
    exact ⟨n, rfl, htool _ _ n hreading⟩

theorem parseSdrs_recordsByte {ipmitool : Ipmitool} (htool : ReadsBytes ipmitool)
    {sdrBin : Option (List UInt8)} {st : State} (h : parseSdrs ipmitool sdrBin = .ok st) :
    ∀ s ∈ st.sensorList, s.RecordsByte := by
  cases sdrBin with
  | none => cases h
  | some file => exact (parseSdrs_built h).recordsByte htool

end Sdr

/-- **Raw readings stay bytes** in every run in which the values that are set lie in
the range of a byte, and auto mode is left to sensors whose range has a lower end. -/
theorem raw_values_are_bytes (ι : Type) [DecidableEq ι] (ipmitool : Sdr.Ipmitool)
    (sdrBin : Option (List UInt8)) (st : Sdr.State)
    (hparse : Sdr.parseSdrs ipmitool sdrBin = .ok st) (htool : Sdr.ReadsBytes ipmitool)
    (s : Fin st.sensorList.length) (w : World (Fin st.sensorList.length) ι) (sent : List Int)
    (h : ((simulator ι st).withHistory [] (sentValues s)).Reach
      (fun e x => e.AtPrompt x.1 ∧ e.StaysInRange x.1) (w, sent)) :
    (w.shared s).obj.RecordsByte ∧ ∀ n ∈ sent, IsByte n := by
  have hbytes : (w.spot s).Bytes sent := by
    refine Spot.invariantWithHistory (M := simulator ι st) (x := (w, sent)) s (fun _ h => h.1) rfl
      (fun w hinit => ?_) ?_ h
    · refine ⟨?_, nofun, fun hauto => ?_, ?_, fun i => ?_⟩
      · show (w.shared s).obj.RecordsByte
        rw [hinit.2 s]
        exact Sdr.parseSdrs_recordsByte htool hparse _ (List.getElem_mem s.isLt)
      · cases hauto.symm.trans (hinit.1.fresh s).mode
      · show (w.thread s).Bytes _
        rw [hinit.1.thread s, ThreadPc.start]
        split <;> trivial
      · rw [hinit.1.on_returned]
        trivial
    · exact fun e w sent p' hsane hI ha hm => Spot.bytes_moves hsane hI ha.1 ha.2 hm
  exact ⟨hbytes.value, hbytes.sent⟩

/-! ### A sensor without thresholds -/

namespace Sdr

/-- A two's complement threshold sensor that reads `1 * x` and has no readable
threshold. -/
def bareRecord : Record where
  idLo := 1
  idHi := 0
  version := 0x51
  type := 0x1
  body := [0x20, 0, 0x30, 0, 0, 0, 0, 0x01, 0x01, 0, 0, 0, 0, 0, 0, 0x80, 0, 0, 0, 1] ++
    List.replicate 23 0
  body_lt := by decide
  full := by decide
  compact := by decide

def bareState : State where
  offset := 48
  requests := 1
  sensorList := [bareRecord.sensor (.int 0x1a)]
  sensorIdMap := [((0x30, 0x20), 0)]

theorem bareRecord_parsed : parseSdrs constantTool (some (dump [bareRecord])) = .ok bareState := by
  decide +kernel

theorem constantTool_readsBytes : ReadsBytes constantTool := by
  intro _ _ n h
  have hread : readSensorRawValue (.stdout " 1a c0 00 80\n".toList) .threshold = .ok (.int 0x1a) := by
    decide +kernel
  cases hread.symm.trans h
  decide

end Sdr

/-- Next to the readable value of 256 the roundings decide. -/
example : ((Sdr.bareRecord.sensor (.int 0x1a)).valueArg "255.99999999999999999".toList).raw = some 256 := by
  decide +kernel

open Sdr in
theorem bareWorld_withHistory (s : Fin bareState.sensorList.length)
    (allowed : Event (Fin bareState.sensorList.length) (Fin 1) →
      World (Fin bareState.sensorList.length) (Fin 1) × List Int → Prop) :
    ((simulator (Fin 1) bareState).withHistory [] (sentValues s)).Reach allowed
      (World.boot (fun s => bareState.sensorList[s]) (fun _ _ => false) fun _ => s, []) :=
  .init ⟨⟨World.boot_parseSdrs bareRecord_parsed _ _, fun _ => rfl⟩, rfl⟩

/-- A value that is set, and `n` actions of the session. -/
def setsValue (text : String) (raw : Int) (n : Nat) :
    List (Event (Fin Sdr.bareState.sensorList.length) (Fin 1)) :=
  .begin 0 ⟨0, by decide⟩ (.valueSet ⟨text.toList, some raw⟩) :: List.replicate n (.session 0 true)

/-- Auto mode is set, and the thread draws and sends a value. -/
def autoDraw : List (Event (Fin Sdr.bareState.sensorList.length) (Fin 1)) :=
  .begin 0 ⟨0, by decide⟩ (.modeSet .auto) :: List.replicate 2 (.session 0 true) ++
    List.replicate 8 (.thread ⟨0, by decide⟩ 0 true)

open Sdr in
theorem raw_values_are_bytes_bareRecord :
    ∃ w : World (Fin bareState.sensorList.length) (Fin 1),
      (w.shared ⟨0, by decide⟩).obj.RecordsByte ∧ ∀ n ∈ [(100 : Int)], IsByte n := by
  obtain ⟨⟨w, sent⟩, hw, hsent⟩ := (bareWorld_withHistory ⟨0, by decide⟩
      (fun e x => e.AtPrompt x.1 ∧ e.StaysInRange x.1)).exists_of_run
    (setsValue "100" 100 6) (fun x => x.2 = [100]) (by decide +kernel)
  obtain rfl : sent = [100] := hsent
  exact ⟨w, raw_values_are_bytes (Fin 1) constantTool (some (dump [bareRecord])) bareState
    bareRecord_parsed constantTool_readsBytes ⟨0, by decide⟩ w [100] hw⟩

open Sdr in
/-- 1000 is recorded and sent as it is, and auto mode draws -127. -/
theorem bareRecord_leavesBytes :
    (∃ x, ((simulator (Fin 1) bareState).withHistory [] (sentValues ⟨0, by decide⟩)).Reach
        (fun e x => e.AtPrompt x.1) x ∧
      (x.1.shared ⟨0, by decide⟩).obj.getEventType = .threshold ∧
      (x.1.shared ⟨0, by decide⟩).obj.value = .int 1000 ∧ x.2 = [1000]) ∧
    ∃ x, ((simulator (Fin 1) bareState).withHistory [] (sentValues ⟨0, by decide⟩)).Reach
        (fun e x => e.AtPrompt x.1) x ∧
      (x.1.shared ⟨0, by decide⟩).obj.value = .int (-127) ∧ x.2 = [-127] := by
  constructor
  · exact (bareWorld_withHistory ⟨0, by decide⟩ fun e x => e.AtPrompt x.1).exists_of_run
      (setsValue "1000" 1000 6) _ (by decide +kernel)
  · exact (bareWorld_withHistory ⟨0, by decide⟩ fun e x => e.AtPrompt x.1).exists_of_run
      autoDraw _ (by decide +kernel)

end Idic.IpmiSim
