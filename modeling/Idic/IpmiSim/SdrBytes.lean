import Idic.IpmiSim.SdrRecords

/-! Dumps of any bytes.

Nothing says that `sdr.bin` is made of whole records: a header may be cut short,
and a length byte may promise less than the fields need. `Turn` is what one turn
of the loop does on any bytes: a record of another type is skipped, and a sensor
record becomes the sensor of the bytes at fixed offsets from its start, as long as
the file has them. `parseSdrs_safe_iff` says when no turn raises and no byte of a
sensor comes from behind its record. -/
namespace Idic.IpmiSim.Sdr
open Python

/-! ### Bytes from the start of a record -/

/-- The byte at `k` from the start of the record, where the file has one. -/
def byteOf (file : List UInt8) (offset k : Nat) : UInt8 := file.getD (offset + k) 0

/-- Where the record ends by its header. -/
def recordEnd (file : List UInt8) (offset : Nat) : Nat :=
  offset + recordHeaderSize + (byteOf file offset 4).toNat

def IsSensorRecord (file : List UInt8) (offset : Nat) : Prop :=
  byteOf file offset 3 = 0x1 ∨ byteOf file offset 3 = 0x2

instance (file : List UInt8) (offset : Nat) : Decidable (IsSensorRecord file offset) :=
  inferInstanceAs (Decidable (byteOf file offset 3 = 0x1 ∨ byteOf file offset 3 = 0x2))

theorem not_otherType {file : List UInt8} {offset : Nat} (h : IsSensorRecord file offset) :
    ¬ (byteOf file offset 3 ≠ 0x1 ∧ byteOf file offset 3 ≠ 0x2) :=
  fun hother => h.elim hother.1 hother.2

/-- How far into the record the loop's body reads: to the end of the name, or to
the last field where the length leaves no name. -/
def reach (file : List UInt8) (offset : Nat) : Nat :=
  let size := recordHeaderSize + (byteOf file offset 4).toNat
  if byteOf file offset 3 = 0x1 then if 48 < size then size else 42
  else if byteOf file offset 3 = 0x2 then if 32 < size then size else 22
  else recordHeaderSize

def nameOf (file : List UInt8) (offset : Nat) : Str :=
  let nameAt := if byteOf file offset 3 = 0x1 then 48 else 32
  ((file.drop (offset + nameAt)).take
    (recordHeaderSize + (byteOf file offset 4).toNat - nameAt)).map chr

/-- The sensor of the bytes from `offset` on, once its first reading is known. -/
def sensorAt (file : List UInt8) (offset : Nat) (value : Value) : Sensor :=
  let byte (k : Nat) : UInt8 := byteOf file offset k
  let full : Bool := byte 3 = 0x1
  let threshold (k : Nat) : UInt8 := if full then byte k else 0
  Sensor.initializeSel
    { name := nameOf file offset
      ID := byte 7
      value := value
      tp := byte 12
      mc := byte 5
      lun := byte 6
      eventType := byte 13
      cap := byte 11
      ltmLb := byte 14
      ltmUb := byte 15
      utmLb := byte 16
      utmUb := byte 17
      rtm := byte 18
      stm := byte 19
      su1 := byte 20
      su2 := byte 21
      factors := if full then some ⟨byte 24, byte 25, byte 26, byte 27, byte 28, byte 29⟩ else none
      unr := threshold 36
      uc := threshold 37
      unc := threshold 38
      lnr := threshold 39
      lc := threshold 40
      lnc := threshold 41 }

/-! ### Reads -/

theorem readAt_eq_ok {file : List UInt8} {pos : Nat} {b : UInt8} :
    readAt file pos = .ok b ↔ pos < file.length ∧ file.getD pos 0 = b := by
  unfold readAt
  by_cases h : pos < file.length
  · simp [h]
  · simp [h]

theorem readAt_byteOf_eq_ok {file : List UInt8} {offset k : Nat} {b : UInt8} :
    readAt file (offset + k) = .ok b ↔ offset + k < file.length ∧ byteOf file offset k = b :=
  readAt_eq_ok

theorem readAt_byteOf {file : List UInt8} {offset k : Nat} (h : offset + k < file.length) :
    readAt file (offset + k) = .ok (byteOf file offset k) :=
  readAt_eq_ok.mpr ⟨h, rfl⟩

theorem readName_eq {file : List UInt8} {n pos : Nat} (h : pos + n ≤ file.length) :
    readName file pos n = .ok (((file.drop pos).take n).map chr) := by
  induction n generalizing pos with
  | zero => rfl
  | succ n ih =>
    have hlt : pos < file.length := by omega
    have hread : readAt file pos = .ok file[pos] :=
      readAt_eq_ok.mpr ⟨hlt, List.getD_eq_getElem _ _ hlt⟩
    simp only [readName, hread, ok_bind, ih (show pos + 1 + n ≤ file.length by omega)]
    rw [List.drop_eq_getElem_cons hlt, List.take_succ_cons, List.map_cons]
    rfl

theorem readName_room {file : List UInt8} {n pos : Nat} {name : Str}
    (h : readName file pos n = .ok name) (hn : 0 < n) : pos + n ≤ file.length := by
  induction n generalizing pos name with
  | zero => exact absurd hn (lt_irrefl 0)
  | succ n ih =>
    simp only [readName, bind_eq_ok] at h
    obtain ⟨b, hb, rest, hrest, -⟩ := h
    have hpos := (readAt_eq_ok.mp hb).1
    cases n with
    | zero => exact hpos
    | succ n =>
      have := ih hrest (Nat.succ_pos n)
      omega

/-- A longer name leaves the record's end where it is. -/
theorem nameEnd_le {file : List UInt8} {offset nameAt size : Nat} {name : Str}
    (h : readName file (offset + nameAt) (size - nameAt) = .ok name) (hsize : nameAt < size) :
    offset + size ≤ file.length := by
  have := readName_room h (by omega)
  omega

theorem readFull_room {file : List UInt8} {offset : Nat} {s s' : Sensor}
    (h : readFull file offset s = .ok s') : offset + 41 < file.length := by
  simp only [readFull, bind_eq_ok] at h
  obtain ⟨_, -, _, -, _, -, _, -, _, -, _, -, _, -, _, -, _, -, _, -, _, -, lnc, hlnc, -⟩ := h
  exact (readAt_eq_ok.mp hlnc).1

/-! ### One turn of the loop -/

/-- The state after a sensor record. -/
def State.record (st : State) (file : List UInt8) (value : Value) (asked : Nat) : State :=
  {(st.buildSensors (sensorAt file st.offset value)) with
    requests := st.requests + asked
    offset := recordEnd file st.offset}

/-- One turn on any bytes that are there. -/
inductive Turn (ipmitool : Ipmitool) (file : List UInt8) (st : State) : State → Prop where
  | skip (hroom : st.offset + reach file st.offset ≤ file.length)
      (ht : ¬ IsSensorRecord file st.offset) :
      Turn ipmitool file st {st with offset := recordEnd file st.offset}
  | sensor {value : Value} {asked : Nat} (hroom : st.offset + reach file st.offset ≤ file.length)
      (ht : IsSensorRecord file st.offset)
      (hvalue : initialValue ipmitool st.requests (byteOf file st.offset 7)
        (byteOf file st.offset 13) = .ok (value, asked)) :
      Turn ipmitool file st (st.record file value asked)

theorem Turn.room {ipmitool : Ipmitool} {file : List UInt8} {st st' : State}
    (h : Turn ipmitool file st st') : st.offset + reach file st.offset ≤ file.length := by
  cases h <;> assumption

theorem Turn.offset {ipmitool : Ipmitool} {file : List UInt8} {st st' : State}
    (h : Turn ipmitool file st st') : st'.offset = recordEnd file st.offset := by
  cases h <;> rfl

theorem reach_full {file : List UInt8} {offset : Nat} (h : byteOf file offset 3 = 0x1) :
    reach file offset = if 48 < recordHeaderSize + (byteOf file offset 4).toNat
      then recordHeaderSize + (byteOf file offset 4).toNat else 42 := by
  rw [reach, if_pos h]

theorem reach_compact {file : List UInt8} {offset : Nat} (h : byteOf file offset 3 = 0x2) :
    reach file offset = if 32 < recordHeaderSize + (byteOf file offset 4).toNat
      then recordHeaderSize + (byteOf file offset 4).toNat else 22 := by
  rw [reach, if_neg (by rw [h]; decide), if_pos h]

theorem le_reach (file : List UInt8) (offset : Nat) : recordHeaderSize ≤ reach file offset := by
  by_cases hfull : byteOf file offset 3 = 0x1
  · rw [reach_full hfull]
    split <;> simp only [recordHeaderSize] <;> omega
  by_cases hcompact : byteOf file offset 3 = 0x2
  · rw [reach_compact hcompact]
    split <;> simp only [recordHeaderSize] <;> omega
  · simp only [reach, hfull, hcompact, if_false, le_refl]

theorem readKind_eq {file : List UInt8} {offset : Nat}
    (hroom : offset + reach file offset ≤ file.length) (s : Sensor) :
    readKind file offset (byteOf file offset 3) s =
      .ok (if byteOf file offset 3 = 0x1 then {s with
        factors := some ⟨byteOf file offset 24, byteOf file offset 25, byteOf file offset 26,
          byteOf file offset 27, byteOf file offset 28, byteOf file offset 29⟩
        unr := byteOf file offset 36, uc := byteOf file offset 37, unc := byteOf file offset 38
        lnr := byteOf file offset 39, lc := byteOf file offset 40, lnc := byteOf file offset 41}
      else s) := by
  unfold readKind
  split
  · next hfull =>
    have hlong : 42 ≤ reach file offset := by
      rw [reach_full hfull]
      split <;> omega
    have hread (k : Nat) (hk : k < 42) : readAt file (offset + k) = .ok (byteOf file offset k) :=
      readAt_byteOf (by omega)
    simp (disch := decide) only [readFull, hread, ok_bind, Sensor.getReadingFactor]
    rfl
  · rfl

/-- With the bytes in the file and a reading, a sensor record becomes its sensor. -/
theorem parseSensor_eq {ipmitool : Ipmitool} {file : List UInt8} {st : State} {value : Value}
    {asked : Nat} (hroom : st.offset + reach file st.offset ≤ file.length)
    (ht : IsSensorRecord file st.offset)
    (hvalue : initialValue ipmitool st.requests (byteOf file st.offset 7)
      (byteOf file st.offset 13) = .ok (value, asked)) :
    parseSensor ipmitool file st (byteOf file st.offset 3) (byteOf file st.offset 4) =
      .ok (st.record file value asked) := by
  have hlong : 22 ≤ reach file st.offset := by
    rcases ht with ht | ht
    · rw [reach_full ht]
      split <;> omega
    · rw [reach_compact ht]
      split <;> omega
  have hread (k : Nat) (hk : k < 22) : readAt file (st.offset + k) = .ok (byteOf file st.offset k) :=
    readAt_byteOf (by omega)
  have hname : readName file (st.offset + if byteOf file st.offset 3 = 0x1 then 48 else 32)
      (recordHeaderSize + (byteOf file st.offset 4).toNat -
        if byteOf file st.offset 3 = 0x1 then 48 else 32) = .ok (nameOf file st.offset) := by
    by_cases hn : recordHeaderSize + (byteOf file st.offset 4).toNat ≤
        if byteOf file st.offset 3 = 0x1 then 48 else 32
    · rw [nameOf, Nat.sub_eq_zero_of_le hn]
      rfl
    · apply readName_eq
      rcases ht with ht | ht
      · rw [reach_full ht] at hroom
        simp only [ht, if_true] at hn ⊢
        split at hroom <;> omega
      · rw [reach_compact ht] at hroom
        have hcompact : ¬ byteOf file st.offset 3 = 0x1 := by rw [ht]; decide
        simp only [hcompact, if_false] at hn ⊢
        split at hroom <;> omega
  simp (disch := decide) only [parseSensor, hread, ok_bind, hvalue, hname, readKind_eq hroom]
  have hend : st.offset + (byteOf file st.offset 4).toNat + recordHeaderSize =
      recordEnd file st.offset := by
    unfold recordEnd
    omega
  rw [hend]
  by_cases hfull : byteOf file st.offset 3 = 0x1
  · simp only [State.record, sensorAt, hfull, decide_true, if_true]
    rfl
  · simp only [State.record, sensorAt, hfull, decide_false]
    rfl

/-- A sensor record is not built without its bytes and a reading. -/
theorem parseSensor_room {ipmitool : Ipmitool} {file : List UInt8} {st st' : State}
    (ht : IsSensorRecord file st.offset)
    (h : parseSensor ipmitool file st (byteOf file st.offset 3) (byteOf file st.offset 4) = .ok st') :
    st.offset + reach file st.offset ≤ file.length ∧ ∃ value asked,
      initialValue ipmitool st.requests (byteOf file st.offset 7) (byteOf file st.offset 13) =
        .ok (value, asked) := by
  simp only [parseSensor, bind_eq_ok] at h
  obtain ⟨_, -, _, -, num, hnum, _, -, _, -, ty, hty, ⟨value, asked⟩, hvalue, _, -, _, -, _, -, _, -,
    _, -, _, -, _, -, su2, hsu2, name, hname, s, hkind, -⟩ := h
  obtain ⟨-, rfl⟩ := readAt_byteOf_eq_ok.mp hnum
  obtain ⟨-, rfl⟩ := readAt_byteOf_eq_ok.mp hty
  refine ⟨?_, value, asked, hvalue⟩
  have hfields := (readAt_eq_ok.mp hsu2).1
  rcases ht with ht | ht
  · rw [reach_full ht]
    rw [ht, if_pos rfl] at hname
    rw [readKind, if_pos ht] at hkind
    have hfull := readFull_room hkind
    split
    · next hsize => exact nameEnd_le hname hsize
    · omega
  · rw [reach_compact ht]
    rw [ht, if_neg (by decide)] at hname
    split
    · next hsize => exact nameEnd_le hname hsize
    · omega

/-- A turn of the loop, read off the bytes. -/
theorem parseRecord_eq_ok {ipmitool : Ipmitool} {file : List UInt8} {st st' : State} :
    parseRecord ipmitool file st = .ok st' ↔ Turn ipmitool file st st' := by
  have hother (hroom : st.offset + 4 < file.length) (ht : ¬ IsSensorRecord file st.offset) :
      st.offset + reach file st.offset ≤ file.length := by
    have ht' : ¬ byteOf file st.offset 3 = 0x1 ∧ ¬ byteOf file st.offset 3 = 0x2 := not_or.mp ht
    simp only [reach, ht'.1, ht'.2, if_false, recordHeaderSize]
    omega
  constructor
  · intro h
    simp only [parseRecord, bind_eq_ok] at h
    obtain ⟨type, htype, len, hlen, h⟩ := h
    obtain ⟨-, rfl⟩ := readAt_byteOf_eq_ok.mp htype
    obtain ⟨hroom, rfl⟩ := readAt_byteOf_eq_ok.mp hlen
    by_cases ht : IsSensorRecord file st.offset
    · rw [if_neg (not_otherType ht)] at h
      obtain ⟨hroom, value, asked, hvalue⟩ := parseSensor_room ht h
      cases (parseSensor_eq hroom ht hvalue).symm.trans h
      exact .sensor hroom ht hvalue
    · rw [if_pos (not_or.mp ht)] at h
      cases h
      exact .skip (hother hroom ht) ht
  · intro h
    have hle := le_reach file st.offset
    have hroom := h.room
    have hread (k : Nat) (hk : k < recordHeaderSize) :
        readAt file (st.offset + k) = .ok (byteOf file st.offset k) := readAt_byteOf (by omega)
    simp (disch := decide) only [parseRecord, hread, ok_bind]
    cases h with
    | skip _ ht =>
      rw [if_pos (not_or.mp ht)]
      rfl
    | sensor _ ht hvalue =>
      rw [if_neg (not_otherType ht)]
      exact parseSensor_eq hroom ht hvalue

/-! ### The loop -/

/-- Where the loop finds its records, from an offset on. -/
def recordStarts (file : List UInt8) (offset : Nat) : List Nat :=
  if offset < file.length then offset :: recordStarts file (recordEnd file offset) else []
termination_by file.length - offset
decreasing_by
  simp only [recordEnd, recordHeaderSize]
  omega

theorem recordStarts_cons {file : List UInt8} {offset : Nat} (h : offset < file.length) :
    recordStarts file offset = offset :: recordStarts file (recordEnd file offset) := by
  rw [recordStarts, if_pos h]

theorem recordStarts_nil {file : List UInt8} {offset : Nat} (h : file.length ≤ offset) :
    recordStarts file offset = [] := by
  rw [recordStarts, if_neg (Nat.not_lt.mpr h)]

/-- The turns of a loop that returns. -/
inductive Loop (ipmitool : Ipmitool) (file : List UInt8) : State → State → Prop where
  | done {st : State} (h : file.length ≤ st.offset) : Loop ipmitool file st st
  | turn {st mid st' : State} (h : st.offset < file.length) (hturn : Turn ipmitool file st mid)
      (hrest : Loop ipmitool file mid st') : Loop ipmitool file st st'

theorem parseLoop_loop {ipmitool : Ipmitool} {file : List UInt8} {st st' : State}
    (h : parseLoop ipmitool file st = .ok st') : Loop ipmitool file st st' := by
  induction st using parseLoop.induct ipmitool file with
  | case1 st hlt mid hmid ih =>
    rw [parseLoop_turn ipmitool file st mid hlt hmid] at h
    exact .turn hlt (parseRecord_eq_ok.mp hmid) (ih h)
  | case2 st hlt e he =>
    rw [parseLoop, if_pos hlt] at h
    split at h
    · next hok => cases he.symm.trans hok
    · cases h
  | case3 st hlt =>
    rw [parseLoop_done ipmitool file st (Nat.not_lt.mp hlt)] at h
    cases h
    exact .done (Nat.not_lt.mp hlt)

/-- The states at the head of the loop. -/
inductive Visits (ipmitool : Ipmitool) (file : List UInt8) : State → Prop where
  | start : Visits ipmitool file {}
  | turn {st st' : State} (h : Visits ipmitool file st) (hlt : st.offset < file.length)
      (hst : parseRecord ipmitool file st = .ok st') : Visits ipmitool file st'

theorem Visits.starts {ipmitool : Ipmitool} {file : List UInt8} {st : State}
    (h : Visits ipmitool file st) :
    ∀ offset ∈ recordStarts file st.offset, offset ∈ recordStarts file 0 := by
  induction h with
  | start => exact fun _ h => h
  | turn _ hlt hst ih =>
    intro offset hmem
    rw [(parseRecord_eq_ok.mp hst).offset] at hmem
    apply ih
    rw [recordStarts_cons hlt]
    exact List.mem_cons_of_mem _ hmem

/-! ### Safety -/

/-- The turn reads no byte behind the record: it does the same on the file cut off
where the record ends. -/
def ReadsInside (ipmitool : Ipmitool) (file : List UInt8) (st : State) : Prop :=
  parseRecord ipmitool (file.take (recordEnd file st.offset)) st = parseRecord ipmitool file st

/-- A record whose fields are its own and in the file. -/
structure RecordFits (file : List UInt8) (offset : Nat) : Prop where
  room : offset + reach file offset ≤ file.length
  full : byteOf file offset 3 = 0x1 → 37 ≤ (byteOf file offset 4).toNat
  compact : byteOf file offset 3 = 0x2 → 17 ≤ (byteOf file offset 4).toNat

instance (file : List UInt8) (offset : Nat) : Decidable (RecordFits file offset) :=
  decidable_of_iff (offset + reach file offset ≤ file.length ∧
      (byteOf file offset 3 = 0x1 → 37 ≤ (byteOf file offset 4).toNat) ∧
      (byteOf file offset 3 = 0x2 → 17 ≤ (byteOf file offset 4).toNat))
    ⟨fun ⟨h₁, h₂, h₃⟩ => ⟨h₁, h₂, h₃⟩, fun h => ⟨h.room, h.full, h.compact⟩⟩

theorem reach_le_iff (file : List UInt8) (offset : Nat) :
    offset + reach file offset ≤ recordEnd file offset ↔
      (byteOf file offset 3 = 0x1 → 37 ≤ (byteOf file offset 4).toNat) ∧
        (byteOf file offset 3 = 0x2 → 17 ≤ (byteOf file offset 4).toNat) := by
  have hne : ¬ (0x1 : UInt8) = 0x2 ∧ ¬ (0x2 : UInt8) = 0x1 := by decide
  unfold recordEnd
  by_cases hfull : byteOf file offset 3 = 0x1
  · rw [reach_full hfull, hfull]
    simp only [hne.1, true_implies, false_implies, and_true]
    split <;> simp only [recordHeaderSize] at * <;> omega
  by_cases hcompact : byteOf file offset 3 = 0x2
  · rw [reach_compact hcompact, hcompact]
    simp only [hne.2, true_implies, false_implies, true_and]
    split <;> simp only [recordHeaderSize] at * <;> omega
  · simp only [reach, hfull, hcompact, if_false, false_implies, and_true, iff_true]
    omega

section Cut
variable (file : List UInt8) (offset : Nat)

theorem byteOf_cut {k : Nat} (h : offset + k < recordEnd file offset) :
    byteOf (file.take (recordEnd file offset)) offset k = byteOf file offset k := by
  unfold byteOf
  rw [List.getD_eq_getElem?_getD, List.getD_eq_getElem?_getD, List.getElem?_take_of_lt h]

theorem byteOf_cut_header {k : Nat} (h : k < recordHeaderSize) :
    byteOf (file.take (recordEnd file offset)) offset k = byteOf file offset k := by
  apply byteOf_cut
  unfold recordEnd
  omega

theorem reach_cut : reach (file.take (recordEnd file offset)) offset = reach file offset := by
  simp (disch := decide) only [reach, byteOf_cut_header]

theorem recordEnd_cut :
    recordEnd (file.take (recordEnd file offset)) offset = recordEnd file offset := by
  conv_lhs => rw [recordEnd, byteOf_cut_header file offset (by decide)]
  rfl

theorem nameOf_cut : nameOf (file.take (recordEnd file offset)) offset = nameOf file offset := by
  simp (disch := decide) only [nameOf, byteOf_cut_header]
  generalize (if byteOf file offset 3 = 0x1 then 48 else 32) = nameAt
  rw [List.drop_take, List.take_take]
  congr 2
  simp only [recordEnd]
  omega

theorem sensorAt_cut (hinside : offset + reach file offset ≤ recordEnd file offset)
    (ht : IsSensorRecord file offset) (value : Value) :
    sensorAt (file.take (recordEnd file offset)) offset value = sensorAt file offset value := by
  have hbyte (k : Nat) (hk : k < reach file offset) :
      byteOf (file.take (recordEnd file offset)) offset k = byteOf file offset k :=
    byteOf_cut file offset (by omega)
  by_cases hfull : byteOf file offset 3 = 0x1
  · have hlong : 42 ≤ reach file offset := by
      rw [reach_full hfull]
      split <;> omega
    have hbyte (k : Nat) (hk : k < 42) := hbyte k (by omega)
    simp (disch := decide) only [sensorAt, nameOf_cut, hbyte]
  · have hlong : 22 ≤ reach file offset := by
      rw [reach_compact (ht.resolve_left hfull)]
      split <;> omega
    have hbyte (k : Nat) (hk : k < 22) := hbyte k (by omega)
    simp (disch := decide) only [sensorAt, nameOf_cut, hbyte, hfull, decide_false, Bool.false_eq_true,
      if_false]

end Cut

/-- On the file cut off at the record's end a turn is the same turn, or none. -/
theorem turn_cut {ipmitool : Ipmitool} {file : List UInt8} {st st' : State} :
    Turn ipmitool (file.take (recordEnd file st.offset)) st st' ↔
      Turn ipmitool file st st' ∧ st.offset + reach file st.offset ≤ recordEnd file st.offset := by
  have hlen : (file.take (recordEnd file st.offset)).length =
      min (recordEnd file st.offset) file.length := List.length_take
  have htype : IsSensorRecord (file.take (recordEnd file st.offset)) st.offset ↔
      IsSensorRecord file st.offset := by
    simp (disch := decide) only [IsSensorRecord, byteOf_cut_header]
  have hvalue (hinside : st.offset + reach file st.offset ≤ recordEnd file st.offset)
      (ht : IsSensorRecord file st.offset) (k : Nat) (hk : k < 22) :
      byteOf (file.take (recordEnd file st.offset)) st.offset k = byteOf file st.offset k := by
    apply byteOf_cut
    have := (reach_le_iff file st.offset).mp hinside
    unfold recordEnd recordHeaderSize
    rcases ht with ht | ht
    · have := this.1 ht
      omega
    · have := this.2 ht
      omega
  constructor
  · intro h
    have hroom := h.room
    rw [reach_cut, hlen, Nat.le_min] at hroom
    refine ⟨?_, hroom.1⟩
    cases h with
    | skip _ ht =>
      rw [recordEnd_cut]
      exact .skip hroom.2 (fun h => ht (htype.mpr h))
    | sensor _ ht hv =>
      have ht := htype.mp ht
      rw [hvalue hroom.1 ht 7 (by decide), hvalue hroom.1 ht 13 (by decide)] at hv
      rw [State.record, sensorAt_cut file st.offset hroom.1 ht, recordEnd_cut]
      exact .sensor hroom.2 ht hv
  · intro hboth
    obtain ⟨h, hinside⟩ := hboth
    have hroom : st.offset + reach (file.take (recordEnd file st.offset)) st.offset ≤
        (file.take (recordEnd file st.offset)).length := by
      rw [reach_cut, hlen]
      exact Nat.le_min.mpr ⟨hinside, h.room⟩
    cases h with
    | skip _ ht =>
      have hskip : Turn ipmitool _ st _ := .skip hroom fun h => ht (htype.mp h)
      rwa [recordEnd_cut] at hskip
    | sensor _ ht hv =>
      rw [← hvalue hinside ht 7 (by decide), ← hvalue hinside ht 13 (by decide)] at hv
      have hsensor := Turn.sensor hroom (htype.mpr ht) hv
      rwa [State.record, sensorAt_cut file st.offset hinside ht, recordEnd_cut] at hsensor

theorem RecordFits.inside {file : List UInt8} {offset : Nat} (h : RecordFits file offset) :
    offset + reach file offset ≤ recordEnd file offset :=
  (reach_le_iff file offset).mpr ⟨h.full, h.compact⟩

/-- With a tool that answers, a record that fits takes a turn. -/
theorem RecordFits.turn {ipmitool : Ipmitool} (ha : Answers ipmitool) {file : List UInt8} {st : State}
    (h : RecordFits file st.offset) : ∃ st', Turn ipmitool file st st' := by
  by_cases ht : IsSensorRecord file st.offset
  · obtain ⟨⟨value, asked⟩, hvalue⟩ := initialValue_ok ipmitool ha st.requests
      (byteOf file st.offset 7) (byteOf file st.offset 13)
    exact ⟨_, .sensor h.room ht hvalue⟩
  · exact ⟨_, .skip h.room ht⟩

/-- A turn that reads inside its record is one on a record that fits. -/
theorem readsInside_iff {ipmitool : Ipmitool} {file : List UInt8} {st st' : State}
    (h : Turn ipmitool file st st') : ReadsInside ipmitool file st ↔ RecordFits file st.offset := by
  have hst := parseRecord_eq_ok.mpr h
  unfold ReadsInside
  rw [hst, parseRecord_eq_ok, turn_cut]
  constructor
  · intro hboth
    obtain ⟨-, hinside⟩ := hboth
    obtain ⟨hfull, hcompact⟩ := (reach_le_iff file st.offset).mp hinside
    exact ⟨h.room, hfull, hcompact⟩
  · exact fun hfits => ⟨h, hfits.inside⟩

theorem parseLoop_of_fits {ipmitool : Ipmitool} (ha : Answers ipmitool) {file : List UInt8} (st : State)
    (hfits : ∀ offset ∈ recordStarts file st.offset, RecordFits file offset) :
    ∃ st', parseLoop ipmitool file st = .ok st' := by
  induction st using parseLoop.induct ipmitool file with
  | case1 st hlt mid hmid ih =>
    rw [parseLoop_turn ipmitool file st mid hlt hmid]
    apply ih
    rw [recordStarts_cons hlt] at hfits
    rw [(parseRecord_eq_ok.mp hmid).offset]
    exact fun offset hmem => hfits offset (List.mem_cons_of_mem _ hmem)
  | case2 st hlt e he =>
    rw [recordStarts_cons hlt] at hfits
    obtain ⟨st', hturn⟩ := (hfits st.offset (List.mem_cons_self ..)).turn ha
    cases (parseRecord_eq_ok.mpr hturn).symm.trans he
  | case3 st hlt => exact ⟨st, parseLoop_done ipmitool file st (Nat.not_lt.mp hlt)⟩

theorem Loop.fits {ipmitool : Ipmitool} {file : List UInt8} {st st' : State}
    (h : Loop ipmitool file st st') (hvisits : Visits ipmitool file st)
    (hinside : ∀ st, Visits ipmitool file st → st.offset < file.length →
      ReadsInside ipmitool file st) :
    ∀ offset ∈ recordStarts file st.offset, RecordFits file offset := by
  induction h with
  | done hend =>
    rw [recordStarts_nil hend]
    exact fun _ h => nomatch h
  | turn hlt hturn _ ih =>
    have hfits := (readsInside_iff hturn).mp (hinside _ hvisits hlt)
    have hrest := ih (hvisits.turn hlt (parseRecord_eq_ok.mpr hturn))
    rw [hturn.offset] at hrest
    rw [recordStarts_cons hlt]
    exact List.forall_mem_cons.mpr ⟨hfits, hrest⟩

/-- **When reading a dump is safe.** On any bytes, with a tool that answers: the
loop returns and reads nothing behind a record exactly when every record has what
its type's fields and its own length need, and the file has it too. -/
theorem parseSdrs_safe_iff (ipmitool : Ipmitool) (ha : Answers ipmitool) (file : List UInt8) :
    ((∃ st, parseSdrs ipmitool (some file) = .ok st) ∧
      ∀ st, Visits ipmitool file st → st.offset < file.length → ReadsInside ipmitool file st) ↔
    ∀ offset ∈ recordStarts file 0, RecordFits file offset := by
  constructor
  · intro hsome
    obtain ⟨⟨st, hst⟩, hinside⟩ := hsome
    exact (parseLoop_loop hst).fits .start hinside
  · intro hfits
    refine ⟨parseLoop_of_fits ha {} hfits, fun st hst hlt => ?_⟩
    have hfit : RecordFits file st.offset := by
      apply hfits _ (hst.starts _ ?_)
      rw [recordStarts_cons hlt]
      exact List.mem_cons_self ..
    obtain ⟨st', hturn⟩ := hfit.turn ha
    exact (readsInside_iff hturn).mpr hfit

theorem parseSdrs_safe_iff_boardRecords :
    ((∃ st, parseSdrs constantTool (some (dump boardRecords)) = .ok st) ∧
      ∀ st, Visits constantTool (dump boardRecords) st →
        st.offset < (dump boardRecords).length →
        ReadsInside constantTool (dump boardRecords) st) ↔
    ∀ offset ∈ recordStarts (dump boardRecords) 0, RecordFits (dump boardRecords) offset :=
  parseSdrs_safe_iff constantTool constantTool_answers (dump boardRecords)

/-- A compact record with a body of ten bytes, and an OEM record behind it. -/
def shortDump : List UInt8 :=
  [1, 0, 0x51, 0x2, 10, 0x20, 0, 0x31, 0, 0, 0, 0, 0x05, 0x6f, 0] ++
    [2, 0, 0x51, 0xc0, 10, 1, 2, 3, 4, 5, 6, 7, 8, 9, 10]

/-- A header that is cut short raises; a body that is too short takes its fields
from the record behind it. -/
theorem shortDump_not_safe :
    parseSdrs constantTool (some (shortDump.take 4)) = .error .typeError ∧
      (parseSdrs constantTool (some shortDump)).map (fun st => st.sensorList.map Sensor.su2) =
        .ok [shortDump[21]] ∧
      ¬ ReadsInside constantTool shortDump {} := by
  refine ⟨by decide +kernel, by decide +kernel, ?_⟩
  unfold ReadsInside
  decide +kernel

end Idic.IpmiSim.Sdr
