import Idic.IpmiSim.Sensor
import Mathlib.Data.Int.Bitwise

/-! Writing a discrete sensor.

A discrete sensor records its two state bytes as a text in little endian, such as
`0x1ac0`. Both ways to write it work out, from the recorded text, the text to
record and the bits to send (`Locked`), and only then take the lock under which
they store the text and send the bits. `setDiscreteValue_eq` and `setState_eq`
say what is worked out, on the sixteen state bits of the word. -/
namespace Idic.IpmiSim
open Python

/-- What is left to do under `lock_sensor_write`: the text to record, and for each
`sensor_set_bit` the state and its bit. -/
structure Locked where
  value : Str
  bits : List (Nat × Int)
  deriving DecidableEq, Repr

/-- `int(value[4:6] + value[2:4], 16)`. -/
def wordOf (value : Str) : Except PyError Int := intBase16 (slice value 4 6 ++ slice value 2 4)

/-- The word as sixteen binary digits, state 0 last. -/
def wordInBin (value : Str) : Except PyError Str :=
  (wordOf value).map fun n => zfill 16 (formatBinary n)

/-- The loop that fills `list_diff`, over the states that are left. -/
def diffLoop (valueInBin valueToSet : Str) : List Nat → Except PyError (List (Nat × Int))
  | [] => .ok []
  | stateId :: rest => do
    let bitOrig ← index valueInBin (15 - stateId)
    let bitTarg ← index valueToSet (15 - stateId)
    if bitOrig ≠ bitTarg then
      let bit ← intOfDigit bitTarg
      let listDiff ← diffLoop valueInBin valueToSet rest
      return (stateId, bit) :: listDiff
    else diffLoop valueInBin valueToSet rest

namespace Sensor

/-- The recorded value where the code slices it. -/
def recordedText (s : Sensor) : Except PyError Str :=
  match s.value with
  | .str v => .ok v
  | _ => .error .typeError

/-- `set_discrete_value` up to the lock. -/
def setDiscreteValue (s : Sensor) (value : Str) : Except PyError Locked :=
  s.withType .discrete do
    if value.length ≠ 6 ∨ value.take 2 ≠ "0x".toList then throw .valueError
    let recorded ← s.recordedText
    let valueInBin ← wordInBin recorded
    let valueToSet ← wordInBin value
    let listDiff ← diffLoop valueInBin valueToSet (List.range 15)
    return ⟨value, listDiff⟩

/-- `set_state` up to the lock. -/
def setState (s : Sensor) (stateId stateBit : Int) : Except PyError Locked :=
  s.withType .discrete do
    if ¬ (0 ≤ stateId ∧ stateId < 15) then throw .valueError
    if ¬ (0 ≤ stateBit ∧ stateBit < 2) then throw .valueError
    let recorded ← s.recordedText
    let valueInInt ← wordOf recorded
    let mask : Int := (1 <<< stateId.toNat : Nat)
    let valueInInt := if stateBit ≠ 0 then Int.lor valueInInt mask
      else Int.land valueInInt (Int.lnot mask)
    let valueInHex := zfill 4 ((hex valueInInt).drop 2)
    return ⟨"0x".toList ++ slice valueInHex 2 4 ++ slice valueInHex 0 2,
      [(stateId.toNat, stateBit)]⟩

end Sensor

/-! ### Words -/

/-- A word's text: `0x` and four hexadecimal digits, of either case. -/
structure WellFormed (value : Str) : Prop where
  length : value.length = 6
  marker : value.take 2 = "0x".toList
  digits : AllHexDigits (value.drop 2)

instance (value : Str) : Decidable (WellFormed value) :=
  decidable_of_iff (value.length = 6 ∧ value.take 2 = "0x".toList ∧ AllHexDigits (value.drop 2))
    ⟨fun ⟨h₁, h₂, h₃⟩ => ⟨h₁, h₂, h₃⟩, fun h => ⟨h.length, h.marker, h.digits⟩⟩

/-- The digits of a word's text in big endian. -/
def bigEndian (value : Str) : Str := slice value 4 6 ++ slice value 2 4

def word (value : Str) : Nat := hexNumber (bigEndian value)

/-- State `i` of the word: bit `i`, bit 15 being reserved. -/
def stateOf (value : Str) (i : Nat) : Bool := (word value).testBit i

theorem WellFormed.bigEndian_length {value : Str} (h : WellFormed value) :
    (bigEndian value).length = 4 := by
  simp [bigEndian, slice, h.length]

theorem WellFormed.bigEndian_digits {value : Str} (h : WellFormed value) :
    AllHexDigits (bigEndian value) := by
  intro c hc
  apply h.digits
  have hslice (i : Nat) : ∀ c ∈ slice value (2 + i) (4 + i), c ∈ value.drop 2 := by
    intro c hc
    have hdrop : c ∈ value.drop (2 + i) := by
      unfold slice at hc
      rw [List.drop_take] at hc
      exact List.mem_of_mem_take hc
    rw [← List.drop_drop] at hdrop
    exact List.mem_of_mem_drop hdrop
  rcases List.mem_append.mp hc with hc | hc
  · exact hslice 2 c hc
  · exact hslice 0 c hc

theorem WellFormed.word_lt {value : Str} (h : WellFormed value) : word value < 2 ^ 16 := by
  have hlt : word value < 16 ^ ((bigEndian value).reverse.map hexValue).length := by
    apply Nat.ofDigits_lt_base_pow_length (by decide)
    intro d hd
    obtain ⟨c, -, rfl⟩ := List.mem_map.mp hd
    exact hexValue_lt c
  rw [List.length_map, List.length_reverse, h.bigEndian_length] at hlt
  exact hlt

theorem WellFormed.wordOf_eq {value : Str} (h : WellFormed value) :
    wordOf value = .ok (word value : Int) := by
  apply intBase16_hexDigits _ _ h.bigEndian_digits
  intro hnil
  have hlen := h.bigEndian_length
  rw [hnil] at hlen
  exact absurd hlen (by decide)

theorem digitAt_two (n i : Nat) : digitAt 2 n i = if n.testBit i then '1' else '0' := by
  rw [digitAt, Nat.testBit_eq_decide_div_mod_eq]
  rcases Nat.mod_two_eq_zero_or_one (n / 2 ^ i) with h | h <;> simp [h, Nat.digitChar]

/-- The binary text of a word, indexed as the code indexes it. -/
theorem WellFormed.wordInBin_index {value : Str} (h : WellFormed value) :
    ∃ t, wordInBin value = .ok t ∧
      ∀ i < 16, index t (15 - i) = .ok (if stateOf value i then '1' else '0') := by
  have hpad := paddedDigits_eq 2 (word value) 16 (by decide) (by decide) (by decide) h.word_lt
  refine ⟨zfill 16 (Python.digits 2 (word value)), ?_, fun i hi => ?_⟩
  · rw [wordInBin, h.wordOf_eq]
    rfl
  · have hlen : ((List.range 16).map (digitAt 2 (word value))).length = 16 := by simp
    have hget : (((List.range 16).map (digitAt 2 (word value))).reverse)[15 - i]? =
        some (digitAt 2 (word value) i) := by
      rw [List.getElem?_reverse (by omega), hlen, List.getElem?_map,
        List.getElem?_range (by omega), show 16 - 1 - (15 - i) = i by omega]
      rfl
    rw [hpad, index, hget, digitAt_two, stateOf]

/-! ### The difference list -/

/-- The states among `ids` in which two words differ, with the new word's bits. -/
def changes (old new : Nat → Bool) (ids : List Nat) : List (Nat × Int) :=
  (ids.filter (fun i => old i != new i)).map (fun i => (i, if new i then 1 else 0))

theorem diffLoop_eq (orig targ : Str) (old new : Nat → Bool) (ids : List Nat)
    (horig : ∀ i ∈ ids, index orig (15 - i) = .ok (if old i then '1' else '0'))
    (htarg : ∀ i ∈ ids, index targ (15 - i) = .ok (if new i then '1' else '0')) :
    diffLoop orig targ ids = .ok (changes old new ids) := by
  induction ids with
  | nil => rfl
  | cons i rest ih =>
    have ih := ih (fun j hj => horig j (List.mem_cons_of_mem i hj))
      (fun j hj => htarg j (List.mem_cons_of_mem i hj))
    simp only [diffLoop, horig i (List.mem_cons_self ..), htarg i (List.mem_cons_self ..), ih, ok_bind]
    cases ho : old i <;> cases hn : new i <;> simp [changes, ho, hn] <;> rfl

/-! ### The text that is recorded -/

theorem hexNumber_four (d₃ d₂ d₁ d₀ : Char) : hexNumber [d₃, d₂, d₁, d₀] =
    hexValue d₀ + 16 * (hexValue d₁ + 16 * (hexValue d₂ + 16 * hexValue d₃)) := by
  simp [hexNumber, Nat.ofDigits_cons]

/-- The four digits of a word, high first, as `hex(n)[2:].zfill(4)` gives them. -/
theorem hexText_eq (n : Nat) (hn : n < 2 ^ 16) :
    zfill 4 ((hex n).drop 2) = [digitAt 16 n 3, digitAt 16 n 2, digitAt 16 n 1, digitAt 16 n 0] := by
  have hdrop : (hex n).drop 2 = Python.digits 16 n := rfl
  rw [hdrop, paddedDigits_eq 16 n 4 (by decide) (by decide) (by decide) hn]
  rfl

/-- A word written as a text, low byte first, is well formed and reads back. -/
theorem littleEndian_eq (n : Nat) (hn : n < 2 ^ 16) :
    let h := zfill 4 ((hex n).drop 2)
    let value := "0x".toList ++ slice h 2 4 ++ slice h 0 2
    WellFormed value ∧ word value = n := by
  have hdigit (i : Nat) : n / 16 ^ i % 16 < 16 := Nat.mod_lt _ (by decide)
  have hvalue (i : Nat) : hexValue (digitAt 16 n i) = n / 16 ^ i % 16 :=
    hexValue_digitChar _ (hdigit i)
  have hhex (i : Nat) : IsHexDigit (digitAt 16 n i) := isHexDigit_digitChar _ (hdigit i)
  intro h value
  have hh : h = [digitAt 16 n 3, digitAt 16 n 2, digitAt 16 n 1, digitAt 16 n 0] := hexText_eq n hn
  have hv : value = ['0', 'x', digitAt 16 n 1, digitAt 16 n 0, digitAt 16 n 3, digitAt 16 n 2] := by
    simp only [value, hh]
    rfl
  have hbig : bigEndian value = [digitAt 16 n 3, digitAt 16 n 2, digitAt 16 n 1, digitAt 16 n 0] := by
    rw [hv]
    rfl
  refine ⟨⟨by rw [hv]; rfl, by rw [hv]; rfl, ?_⟩, ?_⟩
  · rw [hv]
    intro c hc
    simp only [List.drop_succ_cons, List.drop_zero, List.mem_cons, List.not_mem_nil, or_false] at hc
    rcases hc with rfl | rfl | rfl | rfl <;> exact hhex _
  · rw [word, hbig, hexNumber_four, hvalue, hvalue, hvalue, hvalue]
    omega

/-! ### What the two requests work out -/

variable (s : Sensor)

theorem Sensor.withType_discrete {α : Type} (h : s.getEventType = .discrete) (fn : Except PyError α) :
    s.withType .discrete fn = fn := if_pos h

theorem Sensor.setDiscreteValue_eq (old new : Str) (hs : s.getEventType = .discrete)
    (hvalue : s.value = .str old) (hold : WellFormed old) (hnew : WellFormed new) :
    s.setDiscreteValue new = .ok ⟨new, changes (stateOf old) (stateOf new) (List.range 15)⟩ := by
  obtain ⟨orig, horig, hindexOrig⟩ := hold.wordInBin_index
  obtain ⟨targ, htarg, hindexTarg⟩ := hnew.wordInBin_index
  have hdiff := diffLoop_eq orig targ (stateOf old) (stateOf new) (List.range 15)
    (fun i hi => hindexOrig i (by have := List.mem_range.mp hi; omega))
    (fun i hi => hindexTarg i (by have := List.mem_range.mp hi; omega))
  rw [setDiscreteValue, s.withType_discrete hs, if_neg (by simp [hnew.length, hnew.marker])]
  simp only [recordedText, hvalue, horig, htarg, hdiff, ok_bind]
  rfl

/-- The word after `set_state`'s mask, as a natural number. -/
def maskState (n k : Nat) (b : Bool) : Nat := if b then n ||| 2 ^ k else Nat.ldiff n (2 ^ k)

theorem testBit_maskState (n k : Nat) (b : Bool) (i : Nat) :
    (maskState n k b).testBit i = if i = k then b else n.testBit i := by
  unfold maskState
  cases b with
  | true =>
    simp only [if_true, Nat.testBit_or, Nat.testBit_two_pow]
    by_cases h : i = k
    · simp [h]
    · simp [h, Ne.symm h]
  | false =>
    simp only [Bool.false_eq_true, if_false, Nat.testBit_ldiff, Nat.testBit_two_pow]
    by_cases h : i = k
    · simp [h]
    · simp [h, Ne.symm h]

theorem maskState_lt (n k : Nat) (b : Bool) (hn : n < 2 ^ 16) (hk : k < 16) :
    maskState n k b < 2 ^ 16 := by
  apply Nat.lt_pow_two_of_testBit
  intro i hi
  rw [testBit_maskState, if_neg (by omega)]
  exact Nat.testBit_lt_two_pow (lt_of_lt_of_le hn (Nat.pow_le_pow_right (by decide) hi))

/-- The masks act on a word as `maskState` does. -/
theorem mask_eq (n k : Nat) (b : Bool) :
    (if (if b then 1 else 0 : Int) ≠ 0 then Int.lor n ((1 <<< k : Nat) : Int)
      else Int.land n (Int.lnot ((1 <<< k : Nat) : Int))) = (maskState n k b : Int) := by
  rw [Nat.one_shiftLeft]
  cases b <;> rfl

theorem Sensor.setState_eq (old : Str) (k : Nat) (b : Bool) (hs : s.getEventType = .discrete)
    (hvalue : s.value = .str old) (hold : WellFormed old) (hk : k < 15) :
    ∃ new, s.setState k (if b then 1 else 0) = .ok ⟨new, [(k, if b then 1 else 0)]⟩ ∧
      WellFormed new ∧ ∀ i, stateOf new i = if i = k then b else stateOf old i := by
  have hlt := maskState_lt (word old) k b hold.word_lt (by omega)
  obtain ⟨hnew, hword⟩ := littleEndian_eq (maskState (word old) k b) hlt
  refine ⟨_, ?_, hnew, fun i => by rw [stateOf, hword, testBit_maskState, stateOf]⟩
  have hbit : 0 ≤ (if b then 1 else 0 : Int) ∧ (if b then 1 else 0 : Int) < 2 := by cases b <;> decide
  rw [setState, s.withType_discrete hs, if_neg (by omega), if_neg (by simpa using hbit)]
  simp only [recordedText, hvalue, hold.wordOf_eq, ok_bind, Int.toNat_natCast, mask_eq]
  rfl

end Idic.IpmiSim
