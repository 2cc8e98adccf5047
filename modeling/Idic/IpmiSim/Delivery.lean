import Idic.IpmiSim.Discrete

/-! Requests on a discrete sensor, one after another, when sends may fail.

A send that fails is logged and forgotten: the text is recorded all the same. The
next word request sends only its differences against the recorded text, so a
state whose send failed stays wrong until some request asks for the other bit.
`delivered_value_iff` says exactly when a word request whose own sends all arrive
leaves the BMC with that word. -/
namespace Idic.IpmiSim
open Python

/-- A word's text with its well-formedness. -/
structure WordText where
  text : Str
  wellFormed : WellFormed text

/-- A request on a discrete sensor that passes its checks. -/
inductive Request where
  | value (v : WordText)
  | state (k : Fin 15) (b : Bool)

/-- What a request works out before it takes the lock. -/
def Request.locked (r : Request) (s : Sensor) : Except PyError Locked :=
  match r with
  | .value v => s.setDiscreteValue v.text
  | .state k b => s.setState k.val (if b then 1 else 0)

/-- The state bits the BMC holds for one sensor. -/
abbrev StateBits := Nat → Bool

/-- The states of a recorded value. -/
def Value.states : Value → StateBits
  | .str v => stateOf v
  | _ => fun _ => false

/-- `sensor_set_bit` as the BMC carries it out. -/
def setBit (bmc : StateBits) (c : Nat × Int) : StateBits := Function.update bmc c.1 (c.2 ≠ 0)

/-- `send_ipmi_sim_command`: a `socket.error` leaves the BMC as it was. -/
def sendBit (delivered : Bool) (bmc : StateBits) (c : Nat × Int) : StateBits :=
  if delivered then setBit bmc c else bmc

/-- One send per entry; `delivered j` says whether the `j`-th arrives. -/
def sendBits (delivered : Nat → Bool) (bmc : StateBits) : List (Nat × Int) → StateBits
  | [] => bmc
  | c :: rest => sendBits (fun j => delivered (j + 1)) (sendBit (delivered 0) bmc c) rest

/-- A discrete sensor and what the BMC holds for it. -/
structure Site where
  sensor : Sensor
  bmc : StateBits

namespace Site

/-- A whole request, with nothing else going on. -/
def perform (st : Site) (r : Request) (delivered : Nat → Bool) : Site :=
  match r.locked st.sensor with
  | .error _ => st
  | .ok l => ⟨{st.sensor with value := .str l.value}, sendBits delivered st.bmc l.bits⟩

def performs (st : Site) : List (Request × (Nat → Bool)) → Site
  | [] => st
  | (r, delivered) :: rest => (st.perform r delivered).performs rest

def recorded (st : Site) : StateBits := st.sensor.value.states

/-- A discrete sensor with a word recorded. -/
structure Sound (st : Site) : Prop where
  discrete : st.sensor.getEventType = .discrete
  text : ∃ v : WordText, st.sensor.value = .str v.text

end Site

/-! ### One request -/

/-- The states of a word after a request. -/
def Request.apply (r : Request) (states : StateBits) : StateBits :=
  match r with
  | .value v => stateOf v.text
  | .state k b => Function.update states k.val b

/-- The bits a request sends when the recorded states are `old`. -/
def Request.bits (r : Request) (old : StateBits) : List (Nat × Int) :=
  match r with
  | .value v => changes old (stateOf v.text) (List.range 15)
  | .state k b => [(k.val, if b then 1 else 0)]

/-- Both kinds of requests record the word they ask for, with its bits to send. -/
theorem Request.locked_eq (r : Request) (s : Sensor) (old : WordText)
    (hs : s.getEventType = .discrete) (hvalue : s.value = .str old.text) :
    ∃ new : WordText, r.locked s = .ok ⟨new.text, r.bits (stateOf old.text)⟩ ∧
      stateOf new.text = r.apply (stateOf old.text) := by
  cases r with
  | value v => exact ⟨v, s.setDiscreteValue_eq old.text v.text hs hvalue old.wellFormed v.wellFormed, rfl⟩
  | state k b =>
    obtain ⟨new, hlocked, hnew, hstates⟩ :=
      s.setState_eq old.text k.val b hs hvalue old.wellFormed k.isLt
    refine ⟨⟨new, hnew⟩, hlocked, funext fun i => ?_⟩
    rw [hstates i]
    simp [Request.apply, Function.update_apply]

theorem Site.perform_eq (st : Site) (h : st.Sound) (r : Request) (delivered : Nat → Bool) :
    ∃ old new : WordText, st.sensor.value = .str old.text ∧
      r.locked st.sensor = .ok ⟨new.text, r.bits st.recorded⟩ ∧
      st.perform r delivered = ⟨{st.sensor with value := .str new.text},
        sendBits delivered st.bmc (r.bits st.recorded)⟩ ∧
      stateOf new.text = r.apply st.recorded := by
  obtain ⟨old, hold⟩ := h.text
  have hrec : st.recorded = stateOf old.text := congrArg Value.states hold
  obtain ⟨new, hlocked, hstates⟩ := r.locked_eq st.sensor old h.discrete hold
  refine ⟨old, new, hold, by rw [hrec]; exact hlocked, ?_, by rw [hrec]; exact hstates⟩
  rw [perform, hlocked, hrec]

theorem Site.perform_sound (st : Site) (h : st.Sound) (r : Request) (delivered : Nat → Bool) :
    (st.perform r delivered).Sound := by
  obtain ⟨old, new, -, -, hperform, -⟩ := st.perform_eq h r delivered
  rw [hperform]
  exact ⟨h.discrete, new, rfl⟩

theorem Site.performs_sound (run : List (Request × (Nat → Bool))) (st : Site) (h : st.Sound) :
    (st.performs run).Sound := by
  induction run generalizing st with
  | nil => exact h
  | cons e rest ih => exact ih _ (st.perform_sound h e.1 e.2)

/-! ### Sends -/

/-- The BMC after a list of bits has arrived. -/
def setBits (bmc : StateBits) (bits : List (Nat × Int)) : StateBits := bits.foldl setBit bmc

theorem sendBits_delivered (bits : List (Nat × Int)) (delivered : Nat → Bool)
    (hall : ∀ j < bits.length, delivered j = true) (bmc : StateBits) :
    sendBits delivered bmc bits = setBits bmc bits := by
  induction bits generalizing delivered bmc with
  | nil => rfl
  | cons c rest ih =>
    have hfirst : delivered 0 = true := hall 0 (Nat.zero_lt_succ _)
    rw [sendBits, sendBit, if_pos hfirst]
    exact ih _ (fun j hj => hall (j + 1) (Nat.succ_lt_succ hj)) _

/-- Sending the differences between two words changes the states that differ. -/
theorem setBits_changes (old new : StateBits) (ids : List Nat) (bmc : StateBits) (i : Nat) :
    setBits bmc (changes old new ids) i = if i ∈ ids ∧ old i ≠ new i then new i else bmc i := by
  induction ids generalizing bmc with
  | nil => rfl
  | cons k rest ih =>
    by_cases hk : old k = new k
    · have hskip : changes old new (k :: rest) = changes old new rest := by simp [changes, hk]
      rw [hskip, ih]
      by_cases hik : i = k
      · subst hik
        simp [hk]
      · simp [hik]
    · have htake : changes old new (k :: rest) =
          (k, if new k then 1 else 0) :: changes old new rest := by simp [changes, hk]
      have hbit : (decide ((if new k then 1 else 0 : Int) ≠ 0)) = new k := by cases new k <;> decide
      rw [htake, setBits, List.foldl_cons, ← setBits, ih, setBit, hbit]
      by_cases hik : i = k
      · subst hik
        simp [hk]
      · simp [hik]

/-- When every send arrives, a request leaves the BMC with the word it asks for in
every state where the BMC agreed with the recorded text, and in those it sent. -/
theorem setBits_request (r : Request) (old bmc : StateBits) (i : Nat) (hi : i < 15) :
    setBits bmc (r.bits old) i = if old i = bmc i then r.apply old i
      else match r with
        | .value v => if old i ≠ stateOf v.text i then stateOf v.text i else bmc i
        | .state k b => if i = k.val then b else bmc i := by
  cases r with
  | value v =>
    rw [Request.bits, setBits_changes]
    simp only [List.mem_range, hi, true_and, Request.apply]
    by_cases h : old i = bmc i
    · rw [if_pos h, ← h]
      by_cases hn : old i = stateOf v.text i <;> simp [hn]
    · rw [if_neg h]
  | state k b =>
    have hbit : (decide ((if b then 1 else 0 : Int) ≠ 0)) = b := by cases b <;> decide
    simp only [Request.bits, setBits, List.foldl_cons, List.foldl_nil, setBit, hbit, Request.apply,
      Function.update_apply]
    by_cases h : old i = bmc i <;> simp [h]

/-! ### Runs -/

/-- With every send delivered, recorded value and BMC stay in agreement. -/
theorem Site.perform_agrees (st : Site) (h : st.Sound) (r : Request) (delivered : Nat → Bool)
    (hall : ∀ j < (r.bits st.recorded).length, delivered j = true)
    (hagree : ∀ i < 15, st.recorded i = st.bmc i) :
    ∀ i < 15, (st.perform r delivered).recorded i = (st.perform r delivered).bmc i := by
  obtain ⟨old, new, -, -, hperform, hstates⟩ := st.perform_eq h r delivered
  intro i hi
  rw [hperform, sendBits_delivered _ _ hall]
  show stateOf new.text i = setBits st.bmc (r.bits st.recorded) i
  rw [setBits_request r _ _ i hi, if_pos (hagree i hi), hstates]

/-- Requests one after another, every send delivered. -/
def Site.performsAll (st : Site) (requests : List Request) : Site :=
  st.performs (requests.map fun r => (r, fun _ => true))

/-- The states after requests on a word. -/
def outcome (states : StateBits) (requests : List Request) : StateBits :=
  requests.foldl (fun states r => r.apply states) states

theorem Site.performsAll_recorded (st : Site) (h : st.Sound) (requests : List Request) :
    (st.performsAll requests).recorded = outcome st.recorded requests := by
  induction requests generalizing st with
  | nil => rfl
  | cons r rest ih =>
    obtain ⟨old, new, -, -, hperform, hstates⟩ := st.perform_eq h r (fun _ => true)
    have hfirst : (st.perform r (fun _ => true)).recorded = r.apply st.recorded := by
      rw [hperform]
      exact hstates
    have hrest := ih _ (st.perform_sound h r (fun _ => true))
    rw [hfirst] at hrest
    exact hrest

theorem Site.performsAll_agrees (st : Site) (h : st.Sound) (requests : List Request)
    (hagree : ∀ i < 15, st.recorded i = st.bmc i) :
    ∀ i < 15, (st.performsAll requests).recorded i = (st.performsAll requests).bmc i := by
  induction requests generalizing st with
  | nil => exact hagree
  | cons r rest ih =>
    have hfirst := st.perform_agrees h r (fun _ => true) (fun _ _ => rfl) hagree
    exact ih _ (st.perform_sound h r (fun _ => true)) hfirst

/-- **When a word request lands.** After any run, whatever failed in it, a word
request all of whose own sends arrive leaves the BMC with that word exactly when
it asks for a change in every state the BMC and the recorded value disagree on. -/
theorem delivered_value_iff (st : Site) (h : st.Sound) (run : List (Request × (Nat → Bool)))
    (v : WordText) (delivered : Nat → Bool)
    (hall : ∀ l, (Request.value v).locked (st.performs run).sensor = .ok l →
      ∀ j < l.bits.length, delivered j = true) :
    (∀ i < 15, ((st.performs run).perform (.value v) delivered).bmc i = stateOf v.text i) ↔
      ∀ i < 15, (st.performs run).bmc i ≠ (st.performs run).recorded i →
        stateOf v.text i ≠ (st.performs run).recorded i := by
  obtain ⟨old, new, -, hlocked, hperform, -⟩ :=
    (st.performs run).perform_eq (st.performs_sound run h) (.value v) delivered
  have hbmc : ((st.performs run).perform (.value v) delivered).bmc =
      setBits (st.performs run).bmc ((Request.value v).bits (st.performs run).recorded) := by
    rw [hperform]
    exact sendBits_delivered _ _ (hall _ hlocked) _
  rw [hbmc]
  apply forall_congr'
  intro i
  apply imp_congr_right
  intro hi
  rw [setBits_request _ _ _ i hi]
  generalize (st.performs run).recorded i = r
  generalize (st.performs run).bmc i = b
  simp only [Request.apply]
  cases r <;> cases b <;> cases stateOf v.text i <;> decide

/-! ### A run that stays wrong -/

def zeroWord : WordText := ⟨"0x0000".toList, by decide⟩

/-- State 0 and no other. -/
def oneWord : WordText := ⟨"0x0100".toList, by decide⟩

def doorSensor : Sensor where
  name := "Door".toList
  ID := 0x31
  value := .str zeroWord.text
  tp := 0x05
  mc := 0x20
  eventType := 0x6f

def doorSite : Site := ⟨doorSensor, fun _ => false⟩

theorem doorSite_sound : doorSite.Sound := ⟨by decide, zeroWord, rfl⟩

theorem delivered_value_iff_doorSite :
    (∀ i < 15, ((doorSite.performs [(.state 0 true, fun _ => false)]).perform
        (.value oneWord) (fun _ => true)).bmc i = stateOf oneWord.text i) ↔
      ∀ i < 15, (doorSite.performs [(.state 0 true, fun _ => false)]).bmc i ≠
          (doorSite.performs [(.state 0 true, fun _ => false)]).recorded i →
        stateOf oneWord.text i ≠ (doorSite.performs [(.state 0 true, fun _ => false)]).recorded i :=
  delivered_value_iff doorSite doorSite_sound [(.state 0 true, fun _ => false)] oneWord
    (fun _ => true) (fun _ _ _ _ => rfl)

/-- The send of state 0 fails, and the word request after it sends nothing: the
recorded value has state 0 already, and the BMC never gets it. -/
theorem doorSite_stays_wrong :
    (∀ i < 15, doorSite.recorded i = doorSite.bmc i) ∧
      ((doorSite.performs [(.state 0 true, fun _ => false)]).perform
        (.value oneWord) (fun _ => true)).bmc 0 ≠ stateOf oneWord.text 0 := by
  decide +kernel

end Idic.IpmiSim
