import Idic.IpmiSim.CommandFrame

/-! Whether every sensor can be named at the prompt.

The list has every sensor record of the dump; the map has one sensor for each
number and management controller, the last; and the prompt looks under one
management controller only. `sensors_addressable_iff` says for which dumps every
sensor that is listed, or shown by `sensor info`, is the one that its own number
leads to. -/
namespace Idic.IpmiSim
open Python Sdr

namespace Sim
variable {st : State}

/-- An entry of the map as it comes up. -/
theorem mem_boot_map {k : UInt8 × UInt8} {i : Fin st.sensorList.length} :
    (k, i) ∈ (boot st).sensorIdMap ↔ (k, i.val) ∈ st.sensorIdMap := by
  simp only [boot, List.mem_filterMap]
  constructor
  · intro hsome
    obtain ⟨⟨k', j⟩, hmem, hj⟩ := hsome
    by_cases hlt : j < st.sensorList.length
    · rw [dif_pos hlt] at hj
      cases hj
      exact hmem
    · rw [dif_neg hlt] at hj
      cases hj
  · exact fun hmem => ⟨(k, i.val), hmem, dif_pos i.isLt⟩

theorem lookup_iff_mem (h : Indexed st) {k : UInt8 × UInt8} {i : Nat} :
    st.sensorIdMap.lookup k = some i ↔ (k, i) ∈ st.sensorIdMap := by
  constructor
  · intro hlookup
    obtain ⟨before, after, heq, -⟩ := List.lookup_eq_some_iff.mp hlookup
    rw [heq]
    simp
  · exact lookup_of_mem h.nodup

/-- The prompt's lookup finds what the map has for the number and the controller. -/
theorem find_boot (h : Indexed st) (number mc : UInt8) (i : Fin st.sensorList.length) :
    (boot st).find number.toNat mc.toNat = some i ↔ IsLast st.sensorList (number, mc) i := by
  rw [← h.last, lookup_iff_mem h, ← mem_boot_map, find]
  have hkey (k : UInt8 × UInt8) :
      ((k.1.toNat : Int) = number.toNat ∧ (k.2.toNat : Int) = mc.toNat) ↔ k = (number, mc) := by
    rw [Nat.cast_inj, Nat.cast_inj, UInt8.toNat_inj, UInt8.toNat_inj, Prod.ext_iff]
  simp only [hkey, Option.map_eq_some_iff]
  constructor
  · intro hsome
    obtain ⟨⟨k, j⟩, hfind, rfl⟩ := hsome
    have hk : k = (number, mc) := by simpa using List.find?_some hfind
    exact hk ▸ List.mem_of_find?_eq_some hfind
  · intro hmem
    cases hfind : (boot st).sensorIdMap.find? fun e => decide (e.1 = (number, mc)) with
    | none => simpa using List.find?_eq_none.mp hfind _ hmem
    | some e =>
      obtain ⟨k, j⟩ := e
      have hk : k = (number, mc) := by simpa using List.find?_some hfind
      have hj := mem_boot_map.mp (List.mem_of_find?_eq_some hfind)
      rw [hk, ← lookup_iff_mem h, lookup_iff_mem h |>.mpr (mem_boot_map.mp hmem)] at hj
      exact ⟨_, rfl, Fin.ext (Option.some.inj hj).symm⟩

theorem named_hex {σ : Type} (sim : Sim σ) (n : Nat) : sim.named (hex n) = sim.find n 0x20 := by
  rw [named, getSensorInstance, intBase16_hex]
  simp only
  rw [Effect.gets_bind]
  cases sim.find n 0x20 <;> rfl

/-- The sensor that its own number leads to, when it is looked up from the prompt. -/
def Addressable (sim : Sim σ) (i : σ) : Prop := sim.named (hex (sim.obj i).ID.toNat) = some i

theorem addressable_iff (h : Indexed st) (i : Fin st.sensorList.length) :
    (boot st).Addressable i ↔ IsLast st.sensorList ((st.sensorList.get i).ID, 0x20) i := by
  rw [Addressable, named_hex]
  exact find_boot h (st.sensorList.get i).ID 0x20 i

/-- All sensors are addressable when they have the prompt's management controller,
and numbers of their own. -/
theorem all_addressable_iff (h : Indexed st) : (∀ i, (boot st).Addressable i) ↔
    (∀ s ∈ st.sensorList, s.mc = 0x20) ∧ (st.sensorList.map Sensor.ID).Nodup := by
  simp only [addressable_iff h]
  have hget (i : Nat) (hi : i < st.sensorList.length) :
      st.sensorList[i]?.map key = some (st.sensorList[i].ID, st.sensorList[i].mc) := by
    rw [List.getElem?_eq_getElem hi]
    rfl
  constructor
  · intro hlast
    have hmc (i : Nat) (hi : i < st.sensorList.length) : st.sensorList[i].mc = 0x20 := by
      have hi' := (hlast ⟨i, hi⟩).1
      rw [hget i hi] at hi'
      exact (Prod.ext_iff.mp (Option.some.inj hi')).2
    refine ⟨fun s hs => ?_, ?_⟩
    · obtain ⟨i, hi, rfl⟩ := List.getElem_of_mem hs
      exact hmc i hi
    · rw [List.Nodup, List.pairwise_map, List.pairwise_iff_getElem]
      intro i j hi hj hij heq
      apply (hlast ⟨i, hi⟩).2 j hij
      rw [hget j hj, hmc j hj, ← heq]
      rfl
  · rintro ⟨hmc, hnodup⟩ i
    rw [List.Nodup, List.pairwise_map, List.pairwise_iff_getElem] at hnodup
    refine ⟨?_, fun j hj heq => ?_⟩
    · rw [hget i i.isLt, hmc _ (List.getElem_mem i.isLt)]
      rfl
    · by_cases hlt : j < st.sensorList.length
      · rw [hget j hlt] at heq
        exact hnodup i j i.isLt hlt hj (Prod.ext_iff.mp (Option.some.inj heq)).1.symm
      · rw [List.getElem?_eq_none (Nat.le_of_not_lt hlt)] at heq
        cases heq

end Sim

/-- **When every sensor is addressable.** For every accepted dump: every sensor that
was appended to the list, and every one that `sensor info` shows, is the sensor its
number leads to, exactly when every sensor record names the management controller
0x20 and no two sensor records have the same number. -/
theorem sensors_addressable_iff (ipmitool : Ipmitool) (file : List UInt8) (st : State)
    (py : Interpreter (Fin st.sensorList.length)) (h : parseSdrs ipmitool (some file) = .ok st) :
    ((∀ i, (Sim.boot st).Addressable i) ∧
      ∀ item ∈ py.items (Sim.boot st).sensorIdMap, (Sim.boot st).Addressable item.2) ↔
    (∀ start ∈ sensorStarts file 0, byteOf file start 5 = 0x20) ∧
      ((sensorStarts file 0).map fun start => byteOf file start 7).Nodup := by
  have hbuilt := parseSdrs_built h
  have hmc : st.sensorList.map Sensor.mc = (sensorStarts file 0).map fun start => byteOf file start 5 :=
    hbuilt.map_eq fun _ _ => rfl
  have hnumber : st.sensorList.map Sensor.ID = (sensorStarts file 0).map fun start => byteOf file start 7 :=
    hbuilt.map_eq fun _ _ => rfl
  have hall : (∀ s ∈ st.sensorList, s.mc = 0x20) ↔
      ∀ start ∈ sensorStarts file 0, byteOf file start 5 = 0x20 := by
    rw [← List.forall_mem_map (f := Sensor.mc) (P := fun mc => mc = 0x20), hmc, List.forall_mem_map]
  rw [← hnumber, ← hall, ← Sim.all_addressable_iff (parseSdrs_indexed ipmitool (some file) st h)]
  exact ⟨fun hboth => hboth.1, fun hlisted => ⟨hlisted, fun item _ => hlisted item.2⟩⟩

/-! ### A dump with a sensor of another controller -/

namespace Sdr

/-- The record of the sensor 0x31 of the management controller 0x2c. -/
def satelliteRecord : Record where
  idLo := 1
  idHi := 0
  version := 0x51
  type := 0x2
  body := [0x2c, 0, 0x31, 0, 0, 0, 0, 0x05, 0x6f] ++ List.replicate 18 0 ++ [0x41]
  body_lt := by decide
  full := by decide
  compact := by decide

def satelliteState : State where
  offset := 33
  requests := 1
  sensorList := [satelliteRecord.sensor (.str "0x0080".toList)]
  sensorIdMap := [((0x31, 0x2c), 0)]

theorem satelliteRecord_parsed :
    parseSdrs constantTool (some (dump [satelliteRecord])) = .ok satelliteState := by
  decide +kernel

end Sdr

theorem sensors_addressable_iff_boardRecords :
    ((∀ i, (Sim.boot boardState).Addressable i) ∧
      ∀ item ∈ (plainInterpreter _).items (Sim.boot boardState).sensorIdMap,
        (Sim.boot boardState).Addressable item.2) ↔
    (∀ start ∈ sensorStarts (dump boardRecords) 0, byteOf (dump boardRecords) start 5 = 0x20) ∧
      ((sensorStarts (dump boardRecords) 0).map fun start => byteOf (dump boardRecords) start 7).Nodup :=
  sensors_addressable_iff constantTool (dump boardRecords) boardState (plainInterpreter _) boardRecords_parsed

/-- The sensor is listed and shown as 0x31, and 0x31 leads to no sensor. -/
theorem satelliteSensor_hidden :
    parseSdrs constantTool (some (dump [satelliteRecord])) = .ok satelliteState ∧
      satelliteState.sensorList.length = 1 ∧
      ∀ i, (Sim.boot satelliteState).named (hex ((Sim.boot satelliteState).obj i).ID.toNat) = none :=
  ⟨satelliteRecord_parsed, rfl, by decide +kernel⟩

end Idic.IpmiSim
