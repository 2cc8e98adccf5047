import Idic.IpmiSim.CommandFrame
import Idic.IpmiSim.RawBytes

/-! Records that `sel set oem` sends.

The docstring of `handle_sel_command` lists three layouts: a standard record and
two ranges of OEM record types. Their arguments are read alike, but the standard
record has a class of its own, and the classes of the other two lack what the
handler calls on them. `oem_delivered_iff` says for which arguments exactly the
record is sent that was given. -/
namespace Idic.IpmiSim
open Python

/-! ### What the docstring promises -/

/-- The bytes of a record behind its type, as they are sent. -/
def SEL.data (sel : SEL) : List Int :=
  [sel.ts1, sel.ts2, sel.ts3, sel.ts4, sel.gid1, sel.gid2, sel.evmRev, sel.sensorType, sel.sensorNum,
    Int.lor (sel.eventDir <<< 7) sel.eventType, sel.eventData1, sel.eventData2, sel.eventData3]

theorem selAdd_text (sel : SEL) : (SimCommand.selAdd sel).text =
    unwords ("sel_add".toList :: (sel.mc :: sel.recordType :: sel.data).map hexLong) ++ "\n".toList := rfl

/-- How many bytes are given for a record type. -/
def oemSize (recordType : Int) : Option Nat :=
  if recordType = 0x02 then some 8
  else if 0xC0 ≤ recordType ∧ recordType ≤ 0xDF then some 6
  else if 0xE0 ≤ recordType ∧ recordType ≤ 0xFF then some 13
  else none

/-- The arguments are numbers, as many as the record type takes. -/
def HasLayout (args : List Str) (recordType : Int) (given : List Int) : Prop :=
  args.mapM intBase16 = .ok (recordType :: given) ∧ oemSize recordType = some given.length

/-- The given bytes at the end of a record; a standard one has the revision of the
event message between the generator ids and the others. -/
def EndsWith (recordType : Int) (given data : List Int) : Prop :=
  if recordType = 0x02 then ∃ timestamp evmRev, timestamp.length = 4 ∧
    data = timestamp ++ given.take 2 ++ evmRev :: given.drop 2
  else given <:+ data

instance (args : List Str) (recordType : Int) (given : List Int) : Decidable (HasLayout args recordType given) :=
  inferInstanceAs (Decidable (_ ∧ _))

section Delivery
variable {σ : Type} [DecidableEq σ]

/-- `sel set oem` with these arguments. -/
def selSetOem (args : List Str) : Handler σ Unit :=
  handleSelCommand ("set".toList :: "oem".toList :: args)

/-- Exactly the record that was given is sent; with other arguments nothing is. -/
structure DeliversAsGiven (sim : Sim σ) (args : List Str) : Prop where
  record : ∀ recordType given, HasLayout args recordType given → (∀ b ∈ given, IsByte b) →
    ((selSetOem args).run sim).1 = .ok () ∧
    ∃ sel : SEL, ((selSetOem args).run sim).2.sent = sim.sent ++ [.selAdd sel] ∧
      sel.mc = 0x20 ∧ sel.recordType = recordType ∧ sel.data.length = 13 ∧
      (∀ b ∈ sel.data, IsByte b) ∧ EndsWith recordType given sel.data
  nothing : (¬ ∃ recordType given, HasLayout args recordType given ∧ ∀ b ∈ given, IsByte b) →
    ((selSetOem args).run sim).2.sent = sim.sent

end Delivery

/-- Numbers that fill a layout are a standard record's exactly when they are bytes. -/
def Deliverable (args : List Str) : Prop :=
  ∀ recordType given, HasLayout args recordType given → (recordType = 0x02 ↔ ∀ b ∈ given, IsByte b)

/-! ### Numbers and their texts -/

theorem HasLayout.length {args : List Str} {recordType : Int} {given : List Int}
    (h : HasLayout args recordType given) : args.length = given.length + 1 := by
  rw [← mapM_ok_length h.1, List.length_cons]

theorem HasLayout.unique {args : List Str} {recordType recordType' : Int} {given given' : List Int}
    (h : HasLayout args recordType given) (h' : HasLayout args recordType' given') :
    recordType = recordType' ∧ given = given' := by
  have heq := Except.ok.inj (h.1.symm.trans h'.1)
  exact ⟨List.head_eq_of_cons_eq heq, List.tail_eq_of_cons_eq heq⟩

/-- The layouts by their sizes. -/
theorem oemSize_cases {recordType : Int} {n : Nat} (h : oemSize recordType = some n) :
    recordType = 0x02 ∧ n = 8 ∨
    recordType ≠ 0x02 ∧ (0xC0 ≤ recordType ∧ recordType ≤ 0xDF) ∧ n = 6 ∨
    recordType ≠ 0x02 ∧ ¬ (0xC0 ≤ recordType ∧ recordType ≤ 0xDF) ∧
      (0xE0 ≤ recordType ∧ recordType ≤ 0xFF) ∧ n = 13 := by
  unfold oemSize at h
  split_ifs at h with h₁ h₂ h₃
  · exact .inl ⟨h₁, (Option.some.inj h).symm⟩
  · exact .inr (.inl ⟨h₁, h₂, (Option.some.inj h).symm⟩)
  · exact .inr (.inr ⟨h₁, h₂, h₃, (Option.some.inj h).symm⟩)

theorem zero_lor (n : Int) : Int.lor 0 n = n := by
  cases n with
  | ofNat n => exact congrArg Int.ofNat (Nat.zero_or n)
  | negSucc n => simp [Int.lor, Nat.ldiff]

/-! ### What the handler does -/

section Runs
variable {σ : Type} [DecidableEq σ] {sim : Sim σ} {args : List Str}

/-- Two arguments and more get through to `set_oem_sel`. -/
theorem selSetOem_eq (h : 2 ≤ args.length) : selSetOem args = (setOemSel args : Handler σ Unit) := by
  obtain ⟨a, b, rest, heq⟩ : ∃ a b rest, args = a :: b :: rest := by
    cases args with
    | nil => exact absurd h (by decide)
    | cons a rest =>
      cases rest with
      | nil => exact absurd h (by simp)
      | cons b rest => exact ⟨a, b, rest, rfl⟩
  subst heq
  have hoem : lower "oem".toList = "oem".toList := by decide
  rw [selSetOem, handleSelCommand, if_pos rfl, setSel, if_pos hoem]

/-- Numbers in the layout of a standard record are sent. -/
theorem selSetOem_standard (sim : Sim σ) {given : List Int} (h : HasLayout args 0x02 given) :
    ∃ gid1 gid2 sensorType sensorNum eventType data1 data2 data3,
      given = [gid1, gid2, sensorType, sensorNum, eventType, data1, data2, data3] ∧
      (selSetOem args).run sim = (.ok (), {sim with sent := sim.sent ++ [.selAdd
        {gid1, gid2, sensorType, sensorNum, eventType
         eventData1 := data1, eventData2 := data2, eventData3 := data3}]}) := by
  have hlength := h.length
  have hsize : given.length = 8 := by
    rcases oemSize_cases h.2 with hcase | hcase | hcase
    · exact hcase.2
    · exact absurd rfl hcase.1
    · exact absurd rfl hcase.1
  obtain ⟨gid1, gid2, sensorType, sensorNum, eventType, data1, data2, data3, hgiven⟩ :
      ∃ a b c d e f g i, given = [a, b, c, d, e, f, g, i] := by
    match given, hsize with
    | [a, b, c, d, e, f, g, i], _ => exact ⟨a, b, c, d, e, f, g, i, rfl⟩
  refine ⟨gid1, gid2, sensorType, sensorNum, eventType, data1, data2, data3, hgiven, ?_⟩
  rw [selSetOem_eq (by omega)]
  match args, hlength, h with
  | recordText :: bytes, hlength, h =>
    obtain ⟨recordType, given', hrecord, hbytes, heq⟩ := mapM_cons_eq_ok.mp h.1
    cases heq
    have hcount : bytes.length = 8 := by
      rw [List.length_cons] at hlength
      omega
    match bytes, hcount, hbytes with
    | [_, _, _, _, _, _, _, _], _, hbytes =>
      rw [hgiven] at hbytes
      simp only [setOemSel, hrecord, hbytes, if_true]
      rfl

/-- Numbers in the layout of an OEM record raise, before anything is sent. -/
theorem selSetOem_oem (sim : Sim σ) {recordType : Int} {given : List Int}
    (h : HasLayout args recordType given) (hoem : recordType ≠ 0x02) :
    (selSetOem args).run sim = (.error .attributeError, sim) := by
  have hlength := h.length
  have hsize := oemSize_cases h.2
  rw [selSetOem_eq (by omega)]
  match args, hlength, h with
  | recordText :: bytes, hlength, h =>
    obtain ⟨_, _, hrecord, hbytes, heq⟩ := mapM_cons_eq_ok.mp h.1
    cases heq
    have hraises (size : Nat) (hn : (recordText :: bytes).length = size) :
        (setOemRecord size (recordText :: bytes) : Handler σ Unit).run sim = (.error .attributeError, sim) := by
      rw [setOemRecord, if_neg (by simpa using hn), List.tail_cons, hbytes]
      rfl
    rcases hsize with ⟨htwo, -⟩ | ⟨-, hrange, hn⟩ | ⟨-, hrange, hrange', hn⟩
    · exact absurd htwo hoem
    · simp only [setOemSel, hrecord, if_neg hoem, if_pos hrange]
      exact hraises 7 (by omega)
    · simp only [setOemSel, hrecord, if_neg hoem, if_neg hrange, if_pos hrange']
      exact hraises 14 (by omega)

/-- Other arguments send nothing. -/
theorem selSetOem_nothing (h : ¬ ∃ recordType given, HasLayout args recordType given) :
    ((selSetOem args).run sim).2.sent = sim.sent := by
  by_cases hshort : args.length < 2
  · match args, hshort with
    | [], _ => rfl
    | [_], _ => rfl
  rw [selSetOem_eq (by omega)]
  match args, hshort, h with
  | recordText :: bytes, _, h =>
    cases hrecord : intBase16 recordText with
    | error e => simp only [setOemSel, hrecord]; rfl
    | ok recordType =>
      have hother (size : Nat) : ((setOemRecord size (recordText :: bytes) : Handler σ Unit).run sim).2.sent =
          sim.sent := by
        unfold setOemRecord
        split
        · rfl
        · split <;> rfl
      simp only [setOemSel, hrecord]
      split_ifs with htwo hrange hrange'
      · split
        · next _ _ _ _ _ _ _ _ =>
          split
          · next hbytes =>
            refine absurd ⟨recordType, _, mapM_cons_eq_ok.mpr ⟨_, _, hrecord, hbytes, rfl⟩, ?_⟩ h
            rw [oemSize, if_pos htwo]
            rfl
          · rfl
        · rfl
      · exact hother 7
      · exact hother 14
      · rfl

end Runs

/-- **When OEM records are delivered as given.** For every argument list: a record
that fits a layout is sent as given, and nothing else is, exactly when the arguments
fill no layout or are the bytes of a standard record or no bytes of an OEM record. -/
theorem oem_delivered_iff {σ : Type} [DecidableEq σ] (sim : Sim σ) (args : List Str) :
    DeliversAsGiven sim args ↔ Deliverable args := by
  by_cases hlayout : ∃ recordType given, HasLayout args recordType given
  · obtain ⟨recordType, given, h⟩ := hlayout
    have hdeliverable : Deliverable args ↔ (recordType = 0x02 ↔ ∀ b ∈ given, IsByte b) := by
      refine ⟨fun hall => hall _ _ h, fun hiff recordType' given' h' => ?_⟩
      obtain ⟨hrecord, hgiven⟩ := h.unique h'
      rw [← hrecord, ← hgiven]
      exact hiff
    rw [hdeliverable]
    by_cases htwo : recordType = 0x02
    · subst htwo
      obtain ⟨gid1, gid2, sensorType, sensorNum, eventType, data1, data2, data3, hgiven, hrun⟩ :=
        selSetOem_standard sim h
      simp only [true_iff]
      constructor
      · intro hdelivers
        by_contra hbytes
        have hnothing := hdelivers.nothing fun ⟨_, _, h', hbytes'⟩ => hbytes ((h.unique h').2 ▸ hbytes')
        rw [hrun] at hnothing
        exact absurd hnothing (by simp)
      · intro hbytes
        refine ⟨fun recordType' given' h' _ => ?_, fun hnone => absurd ⟨_, _, h, hbytes⟩ hnone⟩
        obtain ⟨htwo, heq⟩ := h.unique h'
        subst htwo heq hgiven
        rw [hrun]
        refine ⟨rfl, _, rfl, rfl, rfl, rfl, ?_, ?_⟩
        · have hzero : IsByte 0 := by decide
          have hrev : IsByte 0x04 := by decide
          simpa [SEL.data, hzero, hrev, zero_lor] using hbytes
        · exact ⟨[0, 0, 0, 0], 0x04, rfl, by simp [SEL.data, zero_lor]⟩
    · have hrun := selSetOem_oem sim h htwo
      simp only [htwo, false_iff]
      constructor
      · intro hdelivers hbytes
        obtain ⟨hok, -⟩ := hdelivers.record _ _ h hbytes
        rw [hrun] at hok
        cases hok
      · intro hbytes
        refine ⟨fun _ _ h' hbytes' => ?_, fun _ => by rw [hrun]⟩
        obtain ⟨-, heq⟩ := h.unique h'
        exact absurd (heq ▸ hbytes') hbytes
  · have hnone (recordType : Int) (given : List Int) : ¬ HasLayout args recordType given :=
      fun h => hlayout ⟨_, _, h⟩
    refine iff_of_true ⟨fun _ _ h => absurd h (hnone _ _), fun _ => ?_⟩ fun _ _ h => absurd h (hnone _ _)
    exact selSetOem_nothing hlayout

/-- An OEM record of type 0xC0, as it is documented. -/
def oemArgs : List Str :=
  ["0xc0".toList, "0x1".toList, "0x2".toList, "0x3".toList, "0x4".toList, "0x5".toList, "0x6".toList]

open Sdr in
/-- It raises, and nothing is sent. -/
theorem oemArgs_notDelivered : HasLayout oemArgs 0xC0 [1, 2, 3, 4, 5, 6] ∧
    (∀ b ∈ [1, 2, 3, 4, 5, 6], IsByte b) ∧
    ((selSetOem oemArgs).run (Sim.boot temperatureState)).1 = .error .attributeError ∧
    ((selSetOem oemArgs).run (Sim.boot temperatureState)).2.sent = [] ∧
    ¬ DeliversAsGiven (Sim.boot temperatureState) oemArgs := by
  have hlayout : HasLayout oemArgs 0xC0 [1, 2, 3, 4, 5, 6] := by decide +kernel
  have hbytes : ∀ b ∈ [1, 2, 3, 4, 5, 6], IsByte b := by decide
  have hrun := selSetOem_oem (Sim.boot temperatureState) hlayout (by decide)
  refine ⟨hlayout, hbytes, by rw [hrun], by rw [hrun]; rfl, fun hdelivers => ?_⟩
  have hok := (hdelivers.record _ _ hlayout hbytes).1
  rw [hrun] at hok
  cases hok

end Idic.IpmiSim
