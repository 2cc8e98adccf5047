import Idic.IpmiSim.Sensor

/-! Reading the dump of the SDR repository.

`parseSdrs` walks the dump record by record with an absolute seek in front of
every byte it reads. A read past the end of the file gives the empty string, on
which `ord` raises. The tool that answers reading requests is outside the
program: it is a parameter that gives the reply to the `k`-th request. -/
namespace Idic.IpmiSim.Sdr
open Python

/-- What `send_ipmitool_command` returns: -1, or the tool's standard output. -/
inductive Reply where
  | failed
  | stdout (text : Str)
  deriving DecidableEq, Repr

/-- The reply to the `k`-th reading request, given the request's arguments. -/
abbrev Ipmitool := Nat → List Str → Reply

/-- The arguments of a reading request. -/
def readingRequest (sensorNum : UInt8) : List Str :=
  ["raw".toList, "0x04".toList, "0x2d".toList, hex sensorNum.toNat]

def readSensorRawValue (result : Reply) (eventType : EventType) : Except PyError Value :=
  match result with
  | .failed => .ok (.int 0)
  | .stdout text =>
    match eventType with
    | .threshold => do
      let value ← index (split text) 0
      let n ← intBase16 value
      return .int n
    | .discrete => do
      let low ← index (split text) 2
      let high ← index (split text) 3
      return .str ("0x".toList ++ low ++ high)
    | .NA => return .none

/-- `fd.seek(pos)` and `ord(fd.read(1))`. -/
def readAt (file : List UInt8) (pos : Nat) : Except PyError UInt8 :=
  match file[pos]? with
  | some b => .ok b
  | none => .error .typeError

def chr (b : UInt8) : Char := Char.ofNat b.toNat

/-- `n` bytes from `pos` on, one read at a time. -/
def readName (file : List UInt8) (pos : Nat) : Nat → Except PyError Str
  | 0 => .ok []
  | n + 1 => do
    let b ← readAt file pos
    let rest ← readName file (pos + 1) n
    return chr b :: rest

/-- The loop's variables and the module's lists: a sensor object is known by its
place in `sensorList`, which is what `sensorIdMap` keeps for `(ID, mc)`. -/
structure State where
  offset : Nat := 0
  requests : Nat := 0
  sensorList : List Sensor := []
  sensorIdMap : List ((UInt8 × UInt8) × Nat) := []
  deriving DecidableEq, Repr

def recordHeaderSize : Nat := 5

/-- Assignment to a key of a dictionary. -/
def dictSet {κ ν : Type} [DecidableEq κ] (d : List (κ × ν)) (k : κ) (v : ν) : List (κ × ν) :=
  match d with
  | [] => [(k, v)]
  | (k', v') :: rest => if k' = k then (k, v) :: rest else (k', v') :: dictSet rest k v

/-- `build_sensors` enters the object in the list and in the map. -/
def State.buildSensors (st : State) (sensor : Sensor) : State :=
  {st with
    sensorList := st.sensorList ++ [sensor]
    sensorIdMap := dictSet st.sensorIdMap (sensor.ID, sensor.mc) st.sensorList.length}

/-- The value a new sensor starts with, and how many requests it took. -/
def initialValue (ipmitool : Ipmitool) (requests : Nat) (sensorNum eventType : UInt8) :
    Except PyError (Value × Nat) :=
  if eventType = 0x0 then .ok (.none, 0)
  else
    let kind := if eventType = 0x1 then EventType.threshold else .discrete
    (readSensorRawValue (ipmitool requests (readingRequest sensorNum)) kind).map fun v => (v, 1)

/-- The branch of full records: the conversion bytes and the thresholds. Its last
step evaluates the reading factors and drops them. -/
def readFull (file : List UInt8) (offset : Nat) (sensor : Sensor) : Except PyError Sensor := do
  let mLb ← readAt file (offset + 24)
  let mUb ← readAt file (offset + 25)
  let bLb ← readAt file (offset + 26)
  let bUb ← readAt file (offset + 27)
  let accuracy ← readAt file (offset + 28)
  let exp ← readAt file (offset + 29)
  let unr ← readAt file (offset + 36)
  let uc ← readAt file (offset + 37)
  let unc ← readAt file (offset + 38)
  let lnr ← readAt file (offset + 39)
  let lc ← readAt file (offset + 40)
  let lnc ← readAt file (offset + 41)
  let sensor := {sensor with
    factors := some ⟨mLb, mUb, bLb, bUb, accuracy, exp⟩
    unr := unr, uc := uc, unc := unc, lnr := lnr, lc := lc, lnc := lnc}
  let _ ← sensor.getReadingFactor
  return sensor

/-- The two branches on the record type; a compact record adds nothing here. -/
def readKind (file : List UInt8) (offset : Nat) (recordType : UInt8) (sensor : Sensor) :
    Except PyError Sensor :=
  if recordType = 0x1 then readFull file offset sensor else .ok sensor

/-- The body of the loop on a record of type 0x1 or 0x2. -/
def parseSensor (ipmitool : Ipmitool) (file : List UInt8) (st : State)
    (recordType recordLength : UInt8) : Except PyError State := do
  let offset := st.offset
  let mc ← readAt file (offset + 5)
  let lun ← readAt file (offset + 6)
  let sensorNum ← readAt file (offset + 7)
  let cap ← readAt file (offset + 11)
  let sensorType ← readAt file (offset + 12)
  let eventType ← readAt file (offset + 13)
  let (value, asked) ← initialValue ipmitool st.requests sensorNum eventType
  let ltmLb ← readAt file (offset + 14)
  let ltmUb ← readAt file (offset + 15)
  let utmLb ← readAt file (offset + 16)
  let utmUb ← readAt file (offset + 17)
  let rtm ← readAt file (offset + 18)
  let stm ← readAt file (offset + 19)
  let su1 ← readAt file (offset + 20)
  let su2 ← readAt file (offset + 21)
  let nameAt := if recordType = 0x1 then 48 else 32
  let name ← readName file (offset + nameAt) (recordHeaderSize + recordLength.toNat - nameAt)
  let sensor ← readKind file offset recordType
    {name := name, ID := sensorNum, value := value, tp := sensorType}
  let sensor := {sensor with
    mc := mc, lun := lun, ltmLb := ltmLb, ltmUb := ltmUb, utmLb := utmLb, utmUb := utmUb
    stm := stm, rtm := rtm, su1 := su1, su2 := su2, cap := cap, eventType := eventType}
  let st := st.buildSensors sensor.initializeSel
  return {st with
    requests := st.requests + asked
    offset := offset + recordLength.toNat + recordHeaderSize}

/-- One turn of the loop. -/
def parseRecord (ipmitool : Ipmitool) (file : List UInt8) (st : State) : Except PyError State := do
  let recordType ← readAt file (st.offset + 3)
  let recordLength ← readAt file (st.offset + 4)
  if recordType ≠ 0x1 ∧ recordType ≠ 0x2 then
    return {st with offset := st.offset + recordHeaderSize + recordLength.toNat}
  parseSensor ipmitool file st recordType recordLength

theorem parseSensor_offset (ipmitool : Ipmitool) (file : List UInt8) (st : State)
    (recordType recordLength : UInt8) :
    Ensures (parseSensor ipmitool file st recordType recordLength)
      (fun st' => st'.offset = st.offset + recordLength.toNat + recordHeaderSize) := by
  unfold parseSensor
  iterate 17 (apply Ensures.bind; intro _)
  exact Ensures.pure rfl

/-- Every turn moves the cursor past a header at least. -/
theorem parseRecord_offset (ipmitool : Ipmitool) (file : List UInt8) (st : State) :
    Ensures (parseRecord ipmitool file st) (fun st' => st.offset < st'.offset) := by
  unfold parseRecord
  iterate 2 (apply Ensures.bind; intro _)
  split
  · apply Ensures.pure
    simp only [recordHeaderSize]
    omega
  · intro st' h
    have := parseSensor_offset ipmitool file st _ _ st' h
    simp only [recordHeaderSize] at this
    omega

/-- `while offset < file_size`. -/
def parseLoop (ipmitool : Ipmitool) (file : List UInt8) (st : State) : Except PyError State :=
  if st.offset < file.length then
    match _h : parseRecord ipmitool file st with
    | .ok st' => parseLoop ipmitool file st'
    | .error e => .error e
  else .ok st
termination_by file.length - st.offset
decreasing_by
  have := parseRecord_offset ipmitool file st st' _h
  omega

theorem parseLoop_done (ipmitool : Ipmitool) (file : List UInt8) (st : State)
    (h : file.length ≤ st.offset) : parseLoop ipmitool file st = .ok st := by
  rw [parseLoop, if_neg (Nat.not_lt.mpr h)]

theorem parseLoop_turn (ipmitool : Ipmitool) (file : List UInt8) (st st' : State)
    (h : st.offset < file.length) (hst : parseRecord ipmitool file st = .ok st') :
    parseLoop ipmitool file st = parseLoop ipmitool file st' := by
  rw [parseLoop, if_pos h]
  split
  · next st₁ h₁ =>
    rw [hst] at h₁
    rw [Except.ok.inj h₁]
  · next e h₁ =>
    rw [hst] at h₁
    cases h₁

/-- What every turn keeps, the loop keeps. -/
theorem parseLoop_ensures {I : State → Prop} (ipmitool : Ipmitool) (file : List UInt8)
    (hturn : ∀ st, I st → Ensures (parseRecord ipmitool file st) I) (st : State) (h : I st) :
    Ensures (parseLoop ipmitool file st) I := by
  induction st using parseLoop.induct ipmitool file with
  | case1 st hlt st' hst ih =>
    rw [parseLoop_turn ipmitool file st st' hlt hst]
    exact ih (hturn st h st' hst)
  | case2 st hlt e he =>
    intro st' hst'
    rw [parseLoop, if_pos hlt] at hst'
    split at hst'
    · next h₁ =>
      rw [he] at h₁
      cases h₁
    · cases hst'
  | case3 st hlt =>
    rw [parseLoop_done ipmitool file st (Nat.not_lt.mp hlt)]
    exact Ensures.pure h

/-- `parse_sdrs` on the content of `sdr.bin`, or on no such file. -/
def parseSdrs (ipmitool : Ipmitool) (sdrBin : Option (List UInt8)) : Except PyError State :=
  match sdrBin with
  | none => .error (.systemExit 1)
  | some file => parseLoop ipmitool file {}

/-! ### Fresh sensors -/

/-- A sensor that nothing has happened to since it was built. -/
structure Fresh (s : Sensor) : Prop where
  mode : s.mode = .user
  quit : s.quit = false
  faultLevel : s.faultLevel = none

theorem readKind_fresh (file : List UInt8) (offset : Nat) (recordType : UInt8) (s : Sensor)
    (h : Fresh s) : Ensures (readKind file offset recordType s) Fresh := by
  unfold readKind
  split
  · unfold readFull
    iterate 13 (apply Ensures.bind; intro _)
    exact Ensures.pure ⟨h.mode, h.quit, h.faultLevel⟩
  · exact Ensures.pure h

theorem parseSensor_fresh (ipmitool : Ipmitool) (file : List UInt8) (st : State)
    (recordType recordLength : UInt8) (h : ∀ s ∈ st.sensorList, Fresh s) :
    Ensures (parseSensor ipmitool file st recordType recordLength)
      (fun st' => ∀ s ∈ st'.sensorList, Fresh s) := by
  unfold parseSensor
  iterate 16 (apply Ensures.bind; intro _)
  refine Ensures.bindWith (readKind_fresh file _ _ _ ⟨rfl, rfl, rfl⟩) fun sensor hs => Ensures.pure ?_
  intro s hmem
  rcases List.mem_append.mp hmem with hmem | hmem
  · exact h s hmem
  · rw [List.mem_singleton.mp hmem]
    exact ⟨hs.mode, hs.quit, hs.faultLevel⟩

theorem parseRecord_fresh (ipmitool : Ipmitool) (file : List UInt8) (st : State)
    (h : ∀ s ∈ st.sensorList, Fresh s) :
    Ensures (parseRecord ipmitool file st) (fun st' => ∀ s ∈ st'.sensorList, Fresh s) := by
  unfold parseRecord
  iterate 2 (apply Ensures.bind; intro _)
  split
  · exact Ensures.pure h
  · exact parseSensor_fresh ipmitool file st _ _ h

/-- The sensors `parse_sdrs` builds are in user mode, with no fault level. -/
theorem parseSdrs_fresh (ipmitool : Ipmitool) (sdrBin : Option (List UInt8)) :
    Ensures (parseSdrs ipmitool sdrBin) (fun st => ∀ s ∈ st.sensorList, Fresh s) := by
  cases sdrBin with
  | none => intro st h; cases h
  | some file =>
    exact parseLoop_ensures ipmitool file (parseRecord_fresh ipmitool file) {} (fun _ h => nomatch h)

end Idic.IpmiSim.Sdr
