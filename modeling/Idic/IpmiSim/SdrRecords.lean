import Idic.IpmiSim.Sdr
import Mathlib.Data.List.Forall2

/-! Dumps made of whole records.

A `Record` is a header and a body of the length the header gives, long enough
for the fields its type promises. `parseSdrs_dump` says what `parseSdrs` does on
the concatenation of any list of them: it ends with the cursor at the end of the
file, and the sensors are the records of the two sensor types, in order, each
with the bytes of its own record. -/
namespace Idic.IpmiSim.Sdr
open Python

/-! ### Records -/

structure Record where
  idLo : UInt8
  idHi : UInt8
  version : UInt8
  type : UInt8
  body : List UInt8
  /-- The length byte of the header can say how long the body is. -/
  body_lt : body.length < 256
  full : type = 0x1 → 43 ≤ body.length
  compact : type = 0x2 → 27 ≤ body.length

namespace Record

def bytes (r : Record) : List UInt8 :=
  [r.idLo, r.idHi, r.version, r.type, UInt8.ofNat r.body.length] ++ r.body

/-- The byte at an offset from the start of the record. -/
def byteAt (r : Record) (k : Nat) : UInt8 := r.bytes.getD k 0

/-- Full and compact sensor records. -/
def isSensor (r : Record) : Bool := r.type = 0x1 || r.type = 0x2

def nameAt (r : Record) : Nat := if r.type = 0x1 then 48 else 32

/-- The record's name: its bytes from a fixed offset to its end. -/
def name (r : Record) : Str := (r.bytes.drop r.nameAt).map chr

theorem bytes_length (r : Record) : r.bytes.length = recordHeaderSize + r.body.length := by
  simp only [bytes, List.length_append, List.length_cons, List.length_nil, recordHeaderSize]

theorem type_byte (r : Record) : r.byteAt 3 = r.type := rfl

theorem length_byte (r : Record) : (r.byteAt 4).toNat = r.body.length := by
  show (UInt8.ofNat r.body.length).toNat = r.body.length
  rw [UInt8.toNat_ofNat']
  exact Nat.mod_eq_of_lt r.body_lt

/-- A sensor record reaches the byte its name starts at. -/
theorem nameAt_le (r : Record) (h : r.isSensor = true) : r.nameAt ≤ r.bytes.length := by
  rw [bytes_length]
  simp only [isSensor, Bool.or_eq_true, decide_eq_true_eq] at h
  unfold nameAt recordHeaderSize
  rcases h with h | h
  · have := r.full h
    simp [h]
    omega
  · have := r.compact h
    simp [h]
    omega

end Record

def dump (rs : List Record) : List UInt8 := rs.flatMap Record.bytes

/-! ### What a sensor says of its record -/

/-- Every field of the sensor is the byte at that field's offset in the record. -/
structure Decodes (r : Record) (s : Sensor) : Prop where
  mc : s.mc = r.byteAt 5
  lun : s.lun = r.byteAt 6
  number : s.ID = r.byteAt 7
  capability : s.cap = r.byteAt 11
  sensorType : s.tp = r.byteAt 12
  eventType : s.eventType = r.byteAt 13
  lowerMask : s.ltmLb = r.byteAt 14 ∧ s.ltmUb = r.byteAt 15
  upperMask : s.utmLb = r.byteAt 16 ∧ s.utmUb = r.byteAt 17
  readableMask : s.rtm = r.byteAt 18
  settableMask : s.stm = r.byteAt 19
  units : s.su1 = r.byteAt 20 ∧ s.su2 = r.byteAt 21
  factors : r.type = 0x1 → s.factors = some
    ⟨r.byteAt 24, r.byteAt 25, r.byteAt 26, r.byteAt 27, r.byteAt 28, r.byteAt 29⟩
  upper : r.type = 0x1 → s.unr = r.byteAt 36 ∧ s.uc = r.byteAt 37 ∧ s.unc = r.byteAt 38
  lower : r.type = 0x1 → s.lnr = r.byteAt 39 ∧ s.lc = r.byteAt 40 ∧ s.lnc = r.byteAt 41
  name : s.name = r.name

/-- The sensor a record describes, once its first reading is known. -/
def Record.sensor (r : Record) (value : Value) : Sensor :=
  let full : Bool := r.type = 0x1
  let threshold (k : Nat) : UInt8 := if full then r.byteAt k else 0
  Sensor.initializeSel
    { name := r.name
      ID := r.byteAt 7
      value := value
      tp := r.byteAt 12
      mc := r.byteAt 5
      lun := r.byteAt 6
      eventType := r.byteAt 13
      cap := r.byteAt 11
      ltmLb := r.byteAt 14
      ltmUb := r.byteAt 15
      utmLb := r.byteAt 16
      utmUb := r.byteAt 17
      rtm := r.byteAt 18
      stm := r.byteAt 19
      su1 := r.byteAt 20
      su2 := r.byteAt 21
      factors := if full then some ⟨r.byteAt 24, r.byteAt 25, r.byteAt 26, r.byteAt 27,
        r.byteAt 28, r.byteAt 29⟩ else none
      unr := threshold 36
      uc := threshold 37
      unc := threshold 38
      lnr := threshold 39
      lc := threshold 40
      lnc := threshold 41 }

theorem decodes_sensor (r : Record) (value : Value) : Decodes r (r.sensor value) := by
  constructor
  case factors | upper | lower => intro h; simp [Record.sensor, Sensor.initializeSel, h]
  all_goals simp [Record.sensor, Sensor.initializeSel]

/-! ### Readings -/

def HexByte (t : Str) : Prop := t.length = 2 ∧ AllHexDigits t

instance (t : Str) : Decidable (HexByte t) :=
  inferInstanceAs (Decidable (t.length = 2 ∧ AllHexDigits t))

/-- The tool answers every request, with at least four hexadecimal bytes. -/
def Answers (ipmitool : Ipmitool) : Prop :=
  ∀ k args, ∃ text, ipmitool k args = .stdout text ∧ 4 ≤ (split text).length ∧
    ∀ t ∈ (split text).take 4, HexByte t

theorem index_of_lt {α : Type} (s : List α) (i : Nat) (h : i < s.length) :
    index s i = .ok s[i] := by
  unfold index
  rw [List.getElem?_eq_getElem h]

theorem intBase16_hexByte (t : Str) (h : HexByte t) : ∃ n : Int, intBase16 t = .ok n := by
  have hne : t ≠ [] := by
    intro heq
    subst heq
    exact absurd h.1 (by decide)
  exact ⟨_, intBase16_hexDigits t hne h.2⟩

/-- With such a tool the first reading always succeeds. -/
theorem initialValue_ok (ipmitool : Ipmitool) (h : Answers ipmitool) (requests : Nat)
    (sensorNum eventType : UInt8) :
    ∃ v, initialValue ipmitool requests sensorNum eventType = .ok v := by
  obtain ⟨text, hreply, hlen, hhex⟩ := h requests (readingRequest sensorNum)
  have hindex (i : Nat) (hi : i < 4) : index (split text) i = .ok (split text)[i] :=
    index_of_lt _ i (by omega)
  have hbyte : HexByte (split text)[0] := hhex _ (List.mem_take_iff_getElem.mpr ⟨0, by omega, rfl⟩)
  obtain ⟨n, hn⟩ := intBase16_hexByte _ hbyte
  unfold initialValue
  rw [hreply]
  split
  · exact ⟨_, rfl⟩
  · split
    · refine ⟨(.int n, 1), ?_⟩
      simp only [readSensorRawValue, hindex 0 (by decide)]
      show Except.map _ ((intBase16 (split text)[0]).bind _) = _
      rw [hn]
      rfl
    · refine ⟨(.str ("0x".toList ++ (split text)[2] ++ (split text)[3]), 1), ?_⟩
      simp only [readSensorRawValue, hindex 2 (by decide), hindex 3 (by decide)]
      rfl

/-! ### Reading inside a record -/

/-- The record stands at an offset of the file. -/
def At (file : List UInt8) (offset : Nat) (r : Record) : Prop :=
  ∃ before after, file = before ++ r.bytes ++ after ∧ offset = before.length

theorem At.getElem? {file : List UInt8} {offset : Nat} {r : Record} (h : At file offset r) (k : Nat)
    (hk : k < r.bytes.length) : file[offset + k]? = some (r.byteAt k) := by
  obtain ⟨before, after, rfl, rfl⟩ := h
  rw [List.append_assoc, List.getElem?_append_right (by omega), Nat.add_sub_cancel_left,
    List.getElem?_append_left hk, Record.byteAt, List.getD_eq_getElem _ _ hk,
    List.getElem?_eq_getElem hk]

theorem At.readAt {file : List UInt8} {offset : Nat} {r : Record} (h : At file offset r) (k : Nat)
    (hk : k < r.bytes.length) : readAt file (offset + k) = .ok (r.byteAt k) := by
  unfold Sdr.readAt
  rw [h.getElem? k hk]

/-- Reading `n` bytes to the end of the record gives the end of the record. -/
theorem At.readName {file : List UInt8} {offset : Nat} {r : Record} (h : At file offset r) (n k : Nat)
    (hk : k + n = r.bytes.length) :
    readName file (offset + k) n = .ok ((r.bytes.drop k).map chr) := by
  induction n generalizing k with
  | zero =>
    rw [List.drop_eq_nil_of_le (by omega)]
    rfl
  | succ n ih =>
    have hlt : k < r.bytes.length := by omega
    have hbyte : r.byteAt k = r.bytes[k] := by
      rw [Record.byteAt, List.getD_eq_getElem _ _ hlt]
    have hrest := ih (k + 1) (by omega)
    simp only [Sdr.readName, h.readAt k hlt]
    rw [Nat.add_assoc, List.drop_eq_getElem_cons hlt, List.map_cons, ← hbyte]
    show ((Sdr.readName file (offset + (k + 1)) n).bind _) = _
    rw [hrest]
    rfl

/-! ### One turn of the loop -/

/-- A record of another type only moves the cursor, to the end of the record. -/
theorem parseRecord_skip (ipmitool : Ipmitool) (file : List UInt8) (st : State) (r : Record)
    (h : At file st.offset r) (hr : r.isSensor = false) :
    parseRecord ipmitool file st = .ok {st with offset := st.offset + r.bytes.length} := by
  have hlen := r.bytes_length
  simp only [recordHeaderSize] at hlen
  have htype : r.type ≠ 0x1 ∧ r.type ≠ 0x2 := by
    simpa only [Record.isSensor, Bool.or_eq_false_iff, decide_eq_false_iff_not] using hr
  simp only [parseRecord, h.readAt 3 (by omega), h.readAt 4 (by omega), r.type_byte, ok_bind,
    if_pos htype]
  rw [r.length_byte, Nat.add_assoc, ← r.bytes_length]
  rfl

theorem readKind_record (file : List UInt8) (offset : Nat) (r : Record) (h : At file offset r)
    (hr : r.isSensor = true) (s : Sensor) :
    readKind file offset r.type s = .ok (if r.type = 0x1 then {s with
      factors := some ⟨r.byteAt 24, r.byteAt 25, r.byteAt 26, r.byteAt 27, r.byteAt 28, r.byteAt 29⟩
      unr := r.byteAt 36, uc := r.byteAt 37, unc := r.byteAt 38
      lnr := r.byteAt 39, lc := r.byteAt 40, lnc := r.byteAt 41} else s) := by
  unfold readKind
  split
  · next hfull =>
    have hlen : 48 ≤ r.bytes.length := by
      have := r.nameAt_le hr
      rwa [Record.nameAt, if_pos hfull] at this
    have hread (k : Nat) (hk : k < 48) : readAt file (offset + k) = .ok (r.byteAt k) :=
      h.readAt k (by omega)
    simp (disch := decide) only [readFull, hread, ok_bind, Sensor.getReadingFactor]
    rfl
  · rfl

/-- A sensor record adds the sensor it describes and moves the cursor to its end. -/
theorem parseRecord_sensor (ipmitool : Ipmitool) (ha : Answers ipmitool) (file : List UInt8)
    (st : State) (r : Record) (h : At file st.offset r) (hr : r.isSensor = true) :
    ∃ value requests, parseRecord ipmitool file st = .ok
      {(st.buildSensors (r.sensor value)) with
        requests := requests
        offset := st.offset + r.bytes.length} := by
  obtain ⟨⟨value, asked⟩, hvalue⟩ := initialValue_ok ipmitool ha st.requests (r.byteAt 7) (r.byteAt 13)
  refine ⟨value, st.requests + asked, ?_⟩
  have hlen := r.bytes_length
  have hname := r.nameAt_le hr
  have hread (k : Nat) (hk : k < 32) : readAt file (st.offset + k) = .ok (r.byteAt k) := by
    apply h.readAt
    unfold Record.nameAt at hname
    split at hname <;> omega
  have htype : ¬ (r.type ≠ 0x1 ∧ r.type ≠ 0x2) := by
    simp only [Record.isSensor, Bool.or_eq_true, decide_eq_true_eq] at hr
    rcases hr with hr | hr <;> simp [hr]
  have hend : recordHeaderSize + r.body.length - r.nameAt = r.bytes.length - r.nameAt := by
    rw [hlen]
  have hread_name := h.readName (r.bytes.length - r.nameAt) r.nameAt (by omega)
  have hnameAt : (if r.type = 0x1 then 48 else 32) = r.nameAt := rfl
  simp (disch := decide) only [parseRecord, parseSensor, hread, r.type_byte, r.length_byte, ok_bind,
    if_neg htype, hvalue, hnameAt, hend, hread_name, readKind_record file st.offset r h hr]
  have hoffset : st.offset + r.body.length + recordHeaderSize = st.offset + r.bytes.length := by
    rw [hlen]
    omega
  rw [hoffset]
  by_cases hfull : r.type = 0x1
  · simp only [Record.sensor, hfull, decide_true, if_true]
    rfl
  · simp only [Record.sensor, hfull, decide_false]
    rfl

/-! ### The whole dump -/

theorem dump_cons (r : Record) (rs : List Record) : dump (r :: rs) = r.bytes ++ dump rs := rfl

/-- From the start of any record to the end of the file: one sensor for each
sensor record still ahead. -/
theorem parseLoop_records (ipmitool : Ipmitool) (ha : Answers ipmitool) (file before : List UInt8)
    (rs : List Record) (st : State) (hfile : file = before ++ dump rs)
    (hoffset : st.offset = before.length) :
    ∃ st', parseLoop ipmitool file st = .ok st' ∧ st'.offset = file.length ∧
      ∃ sensors, st'.sensorList = st.sensorList ++ sensors ∧
        List.Forall₂ Decodes (rs.filter Record.isSensor) sensors := by
  induction rs generalizing before st with
  | nil =>
    have hend : file.length = st.offset := by rw [hfile, hoffset]; simp [dump]
    refine ⟨st, parseLoop_done ipmitool file st (by omega), hend.symm, [], ?_, List.Forall₂.nil⟩
    rw [List.append_nil]
  | cons r rest ih =>
    have hat : At file st.offset r := ⟨before, dump rest, by rw [hfile, dump_cons, List.append_assoc], hoffset⟩
    have hnext : file = (before ++ r.bytes) ++ dump rest := by
      rw [hfile, dump_cons, List.append_assoc]
    have hlt : st.offset < file.length := by
      rw [hnext, hoffset, List.length_append, List.length_append, r.bytes_length]
      simp only [recordHeaderSize]
      omega
    have hmoved : st.offset + r.bytes.length = (before ++ r.bytes).length := by
      rw [List.length_append, hoffset]
    cases hr : r.isSensor with
    | false =>
      have hturn := parseRecord_skip ipmitool file st r hat hr
      rw [parseLoop_turn ipmitool file st _ hlt hturn, List.filter_cons_of_neg (by simp [hr])]
      exact ih (before ++ r.bytes) {st with offset := st.offset + r.bytes.length} hnext hmoved
    | true =>
      obtain ⟨value, requests, hturn⟩ := parseRecord_sensor ipmitool ha file st r hat hr
      rw [parseLoop_turn ipmitool file st _ hlt hturn, List.filter_cons_of_pos hr]
      obtain ⟨st', hloop, hend, sensors, hlist, hall⟩ := ih (before ++ r.bytes)
        {(st.buildSensors (r.sensor value)) with
          requests := requests
          offset := st.offset + r.bytes.length} hnext hmoved
      refine ⟨st', hloop, hend, r.sensor value :: sensors, ?_, .cons (decodes_sensor r value) hall⟩
      rw [hlist]
      simp [State.buildSensors]

/-- **Decoding is exact.** On any list of records, whatever the tool answers as
long as it answers, the cursor ends at the end of the file and the sensors are
the sensor records, in file order, each with the bytes of its own record. -/
theorem parseSdrs_dump (ipmitool : Ipmitool) (ha : Answers ipmitool) (rs : List Record) :
    ∃ st, parseSdrs ipmitool (some (dump rs)) = .ok st ∧ st.offset = (dump rs).length ∧
      List.Forall₂ Decodes (rs.filter Record.isSensor) st.sensorList := by
  obtain ⟨st, hloop, hend, sensors, hlist, hall⟩ :=
    parseLoop_records ipmitool ha (dump rs) [] rs {} rfl rfl
  refine ⟨st, hloop, hend, ?_⟩
  rw [hlist]
  exact hall

/-- A tool that answers every request with the same four bytes. -/
def constantTool : Ipmitool := fun _ _ => .stdout " 1a c0 00 80\n".toList

theorem constantTool_answers : Answers constantTool :=
  fun _ _ => ⟨_, rfl, by decide, by decide⟩

/-- A compact record with the one-byte name `A`. -/
def compactRecord : Record where
  idLo := 1
  idHi := 0
  version := 0x51
  type := 0x2
  body := [0x20, 0, 0x31, 0, 0, 0, 0, 0x05, 0x6f] ++ List.replicate 18 0 ++ [0x41]
  body_lt := by decide
  full := by decide
  compact := by decide

/-- The record of the 1.5 V sensor 0xd8 in the data of `vnode`. -/
def voltageRecord : Record where
  idLo := 0x22
  idHi := 0x00
  version := 0x51
  type := 0x1
  body := [
    0x20, 0x00, 0xd8, 0x07, 0x01, 0x7f, 0x68, 0x02, 0x01, 0x85, 0x32, 0x85, 0x32, 0x1b, 0x1b, 0x00,
    0x04, 0x00, 0x00, 0x41, 0x00, 0xba, 0x80, 0x00, 0xcf, 0x07, 0xe7, 0xf2, 0xdb, 0xff, 0x00, 0x00,
    0xfc, 0xf5, 0x00, 0xd3, 0xd9, 0x01, 0x01, 0x00, 0x00, 0x00, 0xcf, 0x42, 0x42, 0x20, 0x2b, 0x31,
    0x2e, 0x35, 0x56, 0x20, 0x50, 0x31, 0x20, 0x4d, 0x45, 0x4d]
  body_lt := by decide
  full := by decide
  compact := by decide

/-- The locator of the management controller in the data of `quanta_t41`, which is no sensor. -/
def locatorRecord : Record where
  idLo := 1
  idHi := 0
  version := 0x51
  type := 0x12
  body := [
    0x20, 0x00, 0x00, 0xff, 0x00, 0x00, 0x00, 0x00, 0x01, 0x00, 0xc7, 0x41, 0x53, 0x54, 0x32, 0x34,
    0x30, 0x30]
  body_lt := by decide
  full := by decide
  compact := by decide

def boardRecords : List Record := [voltageRecord, locatorRecord, compactRecord]

def boardState : State where
  offset := 119
  requests := 2
  sensorList := [voltageRecord.sensor (.int 0x1a), compactRecord.sensor (.str "0x0080".toList)]
  sensorIdMap := [((0xd8, 0x20), 0), ((0x31, 0x20), 1)]

theorem boardRecords_parsed : parseSdrs constantTool (some (dump boardRecords)) = .ok boardState := by
  decide +kernel

theorem parseSdrs_dump_boardRecords :
    ∃ st, parseSdrs constantTool (some (dump boardRecords)) = .ok st ∧
      st.offset = (dump boardRecords).length ∧
      List.Forall₂ Decodes (boardRecords.filter Record.isSensor) st.sensorList :=
  parseSdrs_dump constantTool constantTool_answers boardRecords

end Idic.IpmiSim.Sdr
