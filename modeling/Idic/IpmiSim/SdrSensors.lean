import Idic.IpmiSim.SdrBytes

/-! The list and the map of an accepted dump.

`build_sensors` enters every sensor at the end of a list and in a map under its
number and its management controller. `parseSdrs_built` says which sensors the
list has, and with which reading; `parseSdrs_indexed` that the map leads to the
last sensor of a key. -/
namespace Idic.IpmiSim.Sdr
open Python

/-! ### The list -/

/-- Where the sensor records are, from an offset on. -/
def sensorStarts (file : List UInt8) (offset : Nat) : List Nat :=
  (recordStarts file offset).filter fun start => IsSensorRecord file start

/-- The sensors of the records at some offsets, when `requests` reading requests
have been made before. -/
inductive Built (ipmitool : Ipmitool) (file : List UInt8) : Nat → List Nat → List Sensor → Prop where
  | nil (requests : Nat) : Built ipmitool file requests [] []
  | cons {requests asked offset : Nat} {offsets : List Nat} {value : Value} {sensors : List Sensor}
      (hvalue : initialValue ipmitool requests (byteOf file offset 7) (byteOf file offset 13) =
        .ok (value, asked))
      (hrest : Built ipmitool file (requests + asked) offsets sensors) :
      Built ipmitool file requests (offset :: offsets) (sensorAt file offset value :: sensors)

theorem Loop.sensors {ipmitool : Ipmitool} {file : List UInt8} {st st' : State}
    (h : Loop ipmitool file st st') : ∃ sensors, st'.sensorList = st.sensorList ++ sensors ∧
      Built ipmitool file st.requests (sensorStarts file st.offset) sensors := by
  induction h with
  | done hend =>
    refine ⟨[], (List.append_nil _).symm, ?_⟩
    rw [sensorStarts, recordStarts_nil hend]
    exact .nil _
  | turn hlt hturn _ ih =>
    obtain ⟨sensors, hlist, hbuilt⟩ := ih
    rw [hturn.offset] at hbuilt
    rw [sensorStarts, recordStarts_cons hlt]
    cases hturn with
    | skip _ ht =>
      rw [List.filter_cons_of_neg (by simpa using ht)]
      exact ⟨sensors, hlist, hbuilt⟩
    | sensor _ ht hvalue =>
      rw [List.filter_cons_of_pos (by simpa using ht)]
      refine ⟨_ :: sensors, ?_, .cons hvalue hbuilt⟩
      rw [hlist]
      exact List.append_assoc ..

/-- The sensors of an accepted dump are its sensor records, in file order. -/
theorem parseSdrs_built {ipmitool : Ipmitool} {file : List UInt8} {st : State}
    (h : parseSdrs ipmitool (some file) = .ok st) :
    Built ipmitool file 0 (sensorStarts file 0) st.sensorList := by
  obtain ⟨sensors, hlist, hbuilt⟩ := (parseLoop_loop h).sensors
  rw [hlist]
  exact hbuilt

/-- A field that does not depend on the reading, all along the list. -/
theorem Built.map_eq {ipmitool : Ipmitool} {file : List UInt8} {requests : Nat} {offsets : List Nat}
    {sensors : List Sensor} {α : Type} {field : Sensor → α} {byte : Nat → α}
    (hfield : ∀ offset value, field (sensorAt file offset value) = byte offset)
    (h : Built ipmitool file requests offsets sensors) : sensors.map field = offsets.map byte := by
  induction h with
  | nil => rfl
  | cons _ _ ih => rw [List.map_cons, List.map_cons, hfield, ih]

/-! ### The map -/

/-- The key that a sensor is entered under. -/
def key (s : Sensor) : UInt8 × UInt8 := (s.ID, s.mc)

/-- The place of the last sensor with a key. -/
def IsLast (sensors : List Sensor) (k : UInt8 × UInt8) (i : Nat) : Prop :=
  sensors[i]?.map key = some k ∧ ∀ j > i, sensors[j]?.map key ≠ some k

/-- The map leads to the last sensor of a key, and has each key once. -/
structure Indexed (st : State) : Prop where
  nodup : (st.sensorIdMap.map Prod.fst).Nodup
  last : ∀ k i, st.sensorIdMap.lookup k = some i ↔ IsLast st.sensorList k i

section Dict
variable {κ ν : Type} [DecidableEq κ]

theorem lookup_cons_eq [BEq κ] [LawfulBEq κ] (k : κ) (v : ν) (rest : List (κ × ν)) (k' : κ) :
    ((k, v) :: rest).lookup k' = if k' = k then some v else rest.lookup k' := by
  by_cases h : k' = k
  · subst h
    rw [List.lookup_cons_self, if_pos rfl]
  · have hbeq : (k' == k) = false := beq_eq_false_iff_ne.mpr h
    rw [List.lookup_cons, hbeq, if_neg h]

theorem lookup_dictSet [BEq κ] [LawfulBEq κ] (d : List (κ × ν)) (k : κ) (v : ν) (k' : κ) :
    (dictSet d k v).lookup k' = if k' = k then some v else d.lookup k' := by
  induction d with
  | nil => exact lookup_cons_eq k v [] k'
  | cons e rest ih =>
    obtain ⟨k₀, v₀⟩ := e
    by_cases hk : k₀ = k
    · subst hk
      rw [dictSet, if_pos rfl, lookup_cons_eq, lookup_cons_eq]
      split <;> rfl
    · rw [dictSet, if_neg hk, lookup_cons_eq, lookup_cons_eq, ih]
      by_cases h₀ : k' = k₀
      · subst h₀
        rw [if_pos rfl, if_neg hk, if_pos rfl]
      · rw [if_neg h₀, if_neg h₀]

theorem dictSet_keys (d : List (κ × ν)) (k : κ) (v : ν) : (dictSet d k v).map Prod.fst =
    if k ∈ d.map Prod.fst then d.map Prod.fst else d.map Prod.fst ++ [k] := by
  induction d with
  | nil => rfl
  | cons e rest ih =>
    obtain ⟨k₀, v₀⟩ := e
    by_cases hk : k₀ = k
    · simp [dictSet, hk]
    · simp only [dictSet, if_neg hk, List.map_cons, ih, List.mem_cons, Ne.symm hk, false_or]
      split <;> rfl

theorem dictSet_nodup {d : List (κ × ν)} (h : (d.map Prod.fst).Nodup) (k : κ) (v : ν) :
    ((dictSet d k v).map Prod.fst).Nodup := by
  rw [dictSet_keys]
  split
  · exact h
  · next hk => exact List.nodup_append.mpr ⟨h, List.nodup_singleton k, by
      rintro a ha b hb rfl
      exact hk (List.mem_singleton.mp hb ▸ ha)⟩

/-- An entry of a map that has each key once is what its key leads to. -/
theorem lookup_of_mem [BEq κ] [LawfulBEq κ] {d : List (κ × ν)} (h : (d.map Prod.fst).Nodup) {k : κ}
    {v : ν} (hmem : (k, v) ∈ d) : d.lookup k = some v := by
  induction d with
  | nil => cases hmem
  | cons e rest ih =>
    obtain ⟨k₀, v₀⟩ := e
    rw [List.map_cons, List.nodup_cons] at h
    rcases List.mem_cons.mp hmem with heq | hmem
    · cases heq
      rw [lookup_cons_eq, if_pos rfl]
    · have hne : k ≠ k₀ := fun heq => h.1 (heq ▸ List.mem_map.mpr ⟨_, hmem, rfl⟩)
      rw [lookup_cons_eq, if_neg hne]
      exact ih h.2 hmem

end Dict

theorem isLast_append (sensors : List Sensor) (s : Sensor) (k : UInt8 × UInt8) (i : Nat) :
    IsLast (sensors ++ [s]) k i ↔ if k = key s then i = sensors.length else IsLast sensors k i := by
  have hlt {j : Nat} (hj : j < sensors.length) : (sensors ++ [s])[j]? = sensors[j]? :=
    List.getElem?_append_left hj
  have hend : (sensors ++ [s])[sensors.length]? = some s := by simp
  have hout {j : Nat} (hj : sensors.length < j) : (sensors ++ [s])[j]? = none := by simp; omega
  have hout' {j : Nat} (hj : sensors.length ≤ j) : sensors[j]? = none := by simp; omega
  unfold IsLast
  split
  · next hk =>
    subst hk
    constructor
    · intro hboth
      obtain ⟨hi, hlast⟩ := hboth
      rcases Nat.lt_trichotomy i sensors.length with h | h | h
      · exact absurd (by rw [hend]; rfl) (hlast _ h)
      · exact h
      · rw [hout h] at hi
        cases hi
    · intro heq
      subst heq
      refine ⟨by rw [hend]; rfl, fun j hj => ?_⟩
      rw [hout hj]
      exact nofun
  · next hk =>
    constructor
    · intro hboth
      obtain ⟨hi, hlast⟩ := hboth
      rcases Nat.lt_trichotomy i sensors.length with h | rfl | h
      · rw [hlt h] at hi
        refine ⟨hi, fun j hj => ?_⟩
        by_cases hj' : j < sensors.length
        · rw [← hlt hj']
          exact hlast j hj
        · rw [hout' (Nat.le_of_not_lt hj')]
          exact nofun
      · rw [hend] at hi
        exact absurd (Option.some.inj hi).symm hk
      · rw [hout h] at hi
        cases hi
    · intro hboth
      obtain ⟨hi, hlast⟩ := hboth
      have h : i < sensors.length := by
        by_contra h
        rw [hout' (Nat.le_of_not_lt h)] at hi
        cases hi
      refine ⟨by rwa [hlt h], fun j hj => ?_⟩
      rcases Nat.lt_trichotomy j sensors.length with hj' | rfl | hj'
      · rw [hlt hj']
        exact hlast j hj
      · rw [hend]
        exact fun heq => hk (Option.some.inj heq).symm
      · rw [hout hj']
        exact nofun

theorem Indexed.buildSensors {st : State} (h : Indexed st) (s : Sensor) :
    Indexed (st.buildSensors s) := by
  refine ⟨dictSet_nodup h.nodup _ _, fun k i => ?_⟩
  show (dictSet st.sensorIdMap (key s) st.sensorList.length).lookup k = some i ↔
    IsLast (st.sensorList ++ [s]) k i
  rw [lookup_dictSet, isLast_append]
  split
  · rw [Option.some.injEq, eq_comm]
  · exact h.last k i

theorem parseRecord_indexed (ipmitool : Ipmitool) (file : List UInt8) (st : State) (h : Indexed st) :
    Ensures (parseRecord ipmitool file st) Indexed := by
  intro st' hst'
  cases parseRecord_eq_ok.mp hst' with
  | skip => exact ⟨h.nodup, h.last⟩
  | @sensor value =>
    have hbuilt := h.buildSensors (sensorAt file st.offset value)
    exact ⟨hbuilt.nodup, hbuilt.last⟩

/-- The map of an accepted dump leads to the last sensor of every key. -/
theorem parseSdrs_indexed (ipmitool : Ipmitool) (sdrBin : Option (List UInt8)) :
    Ensures (parseSdrs ipmitool sdrBin) Indexed := by
  cases sdrBin with
  | none => exact nofun
  | some file =>
    refine parseLoop_ensures ipmitool file (parseRecord_indexed ipmitool file) {} ?_
    exact ⟨List.nodup_nil, fun k i => by simp [IsLast]⟩

end Idic.IpmiSim.Sdr
