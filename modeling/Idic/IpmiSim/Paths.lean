import Idic.IpmiSim.Delivery

/-! Two ways to the same state.

A state of a discrete sensor can be set by its number or by a whole word. The two
methods share no code: one masks an integer, the other compares binary texts.
`paths_agree` says that they record the same word and leave the BMC in the same
states, and which bits a word sends. -/
namespace Idic.IpmiSim
open Python

/-- A word is determined by its sixteen bits. -/
theorem word_ext {v w : WordText} (h : ∀ j < 16, stateOf v.text j = stateOf w.text j) :
    word v.text = word w.text := by
  apply Nat.eq_of_testBit_eq
  intro j
  by_cases hj : j < 16
  · exact h j hj
  · have hlarge (u : WordText) : (word u.text).testBit j = false := by
      apply Nat.testBit_lt_two_pow
      exact lt_of_lt_of_le u.wellFormed.word_lt (Nat.pow_le_pow_right (by decide) (by omega))
    rw [hlarge v, hlarge w]

theorem mem_changes (old new : Nat → Bool) (ids : List Nat) (j : Nat) (c : Int) :
    (j, c) ∈ changes old new ids ↔ j ∈ ids ∧ old j ≠ new j ∧ c = if new j then 1 else 0 := by
  simp only [changes, List.mem_map, List.mem_filter, bne_iff_ne, Prod.mk.injEq]
  constructor
  · intro hsome
    obtain ⟨i, hi, hij, hc⟩ := hsome
    subst hij
    exact ⟨hi.1, hi.2, hc.symm⟩
  · intro hall
    obtain ⟨hj, hne, hc⟩ := hall
    exact ⟨j, ⟨hj, hne⟩, rfl, hc.symm⟩

theorem changes_nodup (old new : Nat → Bool) {ids : List Nat} (h : ids.Nodup) :
    ((changes old new ids).map Prod.fst).Nodup := by
  have hfst : (changes old new ids).map Prod.fst = ids.filter fun i => old i != new i := by
    rw [changes, List.map_map]
    exact List.map_id _
  rw [hfst]
  exact h.filter _

/-- The states a request leaves in a BMC that agreed with the recorded word. -/
theorem setBits_agreeing (r : Request) {old bmc : StateBits} (h : ∀ j < 15, old j = bmc j) (j : Nat) :
    setBits bmc (r.bits old) j = if j < 15 then r.apply old j else bmc j := by
  split
  · next hj => rw [setBits_request r old bmc j hj, if_pos (h j hj)]
  · next hj =>
    cases r with
    | value v =>
      rw [Request.bits, setBits_changes, if_neg]
      intro hboth
      exact hj (List.mem_range.mp hboth.1)
    | state k b =>
      have hne : j ≠ k.val := fun heq => hj (heq ▸ k.isLt)
      simp [Request.bits, setBits, setBit, hne]

/-- Two sites with the same word recorded and the same states in the BMC. -/
structure Site.SameStates (st st' : Site) : Prop where
  recorded : ∃ v v' : WordText, st.sensor.value = .str v.text ∧ st'.sensor.value = .str v'.text ∧
    word v.text = word v'.text
  bmc : ∀ j, st.bmc j = st'.bmc j

/-- Every send arrives. -/
def allDelivered : Nat → Bool := fun _ => true

/-- Requests that ask for the same states do the same. -/
theorem Site.perform_sameStates (st : Site) (h : st.Sound) (r r' : Request)
    (hagree : ∀ j < 15, st.recorded j = st.bmc j)
    (hsame : ∀ j < 16, r.apply st.recorded j = r'.apply st.recorded j) :
    (st.perform r allDelivered).SameStates (st.perform r' allDelivered) := by
  obtain ⟨old, new, -, -, hperform, hstates⟩ := st.perform_eq h r allDelivered
  obtain ⟨old', new', -, -, hperform', hstates'⟩ := st.perform_eq h r' allDelivered
  have hsend (bits : List (Nat × Int)) := sendBits_delivered bits allDelivered (fun _ _ => rfl) st.bmc
  rw [hperform, hperform', hsend, hsend]
  refine ⟨⟨new, new', rfl, rfl, word_ext fun j hj => ?_⟩, fun j => ?_⟩
  · rw [hstates, hstates', hsame j hj]
  · show setBits st.bmc (r.bits st.recorded) j = setBits st.bmc (r'.bits st.recorded) j
    rw [setBits_agreeing r hagree, setBits_agreeing r' hagree]
    split
    · exact hsame j (by omega)
    · rfl

/-- **Bit path and word path agree.** For every discrete sensor with a word recorded:
setting a state and setting the word with that state replaced leave the same word, and
the same states in a BMC that agreed; and a word sends a bit for exactly the states in
which it differs from what is recorded, each once. -/
theorem paths_agree (s : Sensor) (w : WordText) (hdiscrete : s.getEventType = .discrete)
    (hvalue : s.value = .str w.text) :
    (∀ (k : Fin 15) (b : Bool) (w' : WordText) (bmc : StateBits),
      (∀ j < 16, stateOf w'.text j = if j = k.val then b else stateOf w.text j) →
      (∀ j < 15, bmc j = stateOf w.text j) →
        ((Site.mk s bmc).perform (.state k b) allDelivered).SameStates
          ((Site.mk s bmc).perform (.value w') allDelivered)) ∧
    ∀ v : WordText, ∃ bits, s.setDiscreteValue v.text = .ok ⟨v.text, bits⟩ ∧
      (bits.map Prod.fst).Nodup ∧
      ∀ j c, (j, c) ∈ bits ↔
        j < 15 ∧ stateOf w.text j ≠ stateOf v.text j ∧ c = if stateOf v.text j then 1 else 0 := by
  constructor
  · intro k b w' bmc hw' hagree
    have hrecorded : (Site.mk s bmc).recorded = stateOf w.text := congrArg Value.states hvalue
    refine Site.perform_sameStates ⟨s, bmc⟩ ⟨hdiscrete, w, hvalue⟩ _ _ (fun j hj => ?_) fun j hj => ?_
    · rw [hrecorded]
      exact (hagree j hj).symm
    · rw [hrecorded]
      simp only [Request.apply, Function.update_apply]
      exact (hw' j hj).symm
  · intro v
    refine ⟨_, s.setDiscreteValue_eq w.text v.text hdiscrete hvalue w.wellFormed v.wellFormed,
      changes_nodup _ _ List.nodup_range, fun j c => ?_⟩
    rw [mem_changes, List.mem_range]

theorem paths_agree_doorSensor :
    (∀ (k : Fin 15) (b : Bool) (w' : WordText) (bmc : StateBits),
      (∀ j < 16, stateOf w'.text j = if j = k.val then b else stateOf zeroWord.text j) →
      (∀ j < 15, bmc j = stateOf zeroWord.text j) →
        ((Site.mk doorSensor bmc).perform (.state k b) allDelivered).SameStates
          ((Site.mk doorSensor bmc).perform (.value w') allDelivered)) ∧
    ∀ v : WordText, ∃ bits, doorSensor.setDiscreteValue v.text = .ok ⟨v.text, bits⟩ ∧
      (bits.map Prod.fst).Nodup ∧
      ∀ j c, (j, c) ∈ bits ↔
        j < 15 ∧ stateOf zeroWord.text j ≠ stateOf v.text j ∧ c = if stateOf v.text j then 1 else 0 :=
  paths_agree doorSensor zeroWord (by decide) rfl

end Idic.IpmiSim
