import Idic.Ipmi.Lancontrol
import Idic.Python.Decimal

/-! The disks of the virtual host.

`startcmd` gives every disk but `sda` a port of a controller, in the order `find`
lists them, and declares the controllers in a second loop. `addDisks_eq` says where
the three counters of the first loop stand, `options_assign` what the options are. -/
namespace Idic.Ipmi.Startcmd
open Python Shell
open Lancontrol (Word isBlank)

def CONTROLLER_TYPE : Str := "ahci".toList

def MAX_DISK_INDEX_PER_CONTROLLER : Nat := 6

/-- The variables of the loop over the disks. -/
structure Disks where
  index : Nat := 0
  diskIndex : Nat := 0
  controllerIndex : Nat := 0
  driveOption : Str := " ".toList
  deriving DecidableEq, Repr

section Options
variable (controllerType : Str)

/-- What a disk adds to `DRIVE_OPTION`. -/
def driveText (d : Str) (controllerIndex index : Nat) : Str :=
  if controllerType = "lsi".toList || controllerType = "megasas".toList then
    "-drive file=/dev/".toList ++ d ++ ",if=none,id=".toList ++ d ++
      ",media=disk -device scsi-disk,drive=".toList ++ d ++ ",bus=scsi".toList ++
      digits 10 controllerIndex ++ ".0 ".toList
  else if controllerType = "ahci".toList then
    "-drive file=/dev/".toList ++ d ++ ",if=none,id=".toList ++ d ++ " -device ide-drive,drive=".toList ++ d ++
      ",bus=ahci".toList ++ digits 10 controllerIndex ++ ".".toList ++ digits 10 index ++ " ".toList
  else []

/-- What a controller adds to `CONTROLLER_OPTION`. -/
def controllerText (i : Nat) : Str :=
  if "lsi".toList.isPrefixOf controllerType || "megasas".toList.isPrefixOf controllerType then
    "-device ".toList ++ controllerType ++ ",id=scsi".toList ++ digits 10 i ++ " ".toList
  else if controllerType = "ahci".toList then
    "-device ".toList ++ controllerType ++ ",id=ahci".toList ++ digits 10 i ++ " ".toList
  else []

/-- A disk behind the last port of a controller goes to the next controller. -/
def nextController (s : Disks) : Disks :=
  if s.diskIndex % MAX_DISK_INDEX_PER_CONTROLLER = 0 ∧ s.index ≠ 0 then
    {s with index := 0, controllerIndex := s.controllerIndex + 1}
  else s

/-- One disk of the loop. -/
def addDisk (s : Disks) (d : Word) : Disks :=
  if d.text = "sda".toList then s
  else
    let s := nextController s
    {s with driveOption := s.driveOption ++ driveText controllerType d.text s.controllerIndex s.index,
            index := s.index + 1, diskIndex := s.diskIndex + 1}

def addDisks (disks : List Word) : Disks := disks.foldl (addDisk controllerType) {}

/-- The loop over `seq 0 $controller_index`. -/
def controllerOption (controllerIndex : Nat) : Str :=
  (List.range (controllerIndex + 1)).foldl (fun text i => text ++ controllerText controllerType i) []

end Options

/-- `DRIVE_OPTION` and `CONTROLLER_OPTION`. -/
def diskOptions (disks : List Word) : Str × Str :=
  let s := addDisks CONTROLLER_TYPE disks
  (s.driveOption, controllerOption CONTROLLER_TYPE s.controllerIndex)

/-! ### The slots -/

/-- A disk on a port of a controller. -/
structure Slot where
  disk : Word
  controller : Nat
  port : Nat
  deriving DecidableEq

def Slot.place (s : Slot) : Nat × Nat := (s.controller, s.port)

/-- The drive and the device of a slot, as `qemu` gets them. -/
def Slot.args (s : Slot) : List Str :=
  ["-drive".toList, "file=/dev/".toList ++ s.disk.text ++ ",if=none,id=".toList ++ s.disk.text,
    "-device".toList, "ide-drive,drive=".toList ++ s.disk.text ++ ",bus=ahci".toList ++
      digits 10 s.controller ++ ".".toList ++ digits 10 s.port]

def controllerArgs (i : Nat) : List Str := ["-device".toList, "ahci,id=ahci".toList ++ digits 10 i]

/-- Every disk but `sda` has one slot, and every slot a place and a controller that is
declared once. -/
structure Assigns (disks : List Word) (slots : List Slot) (controllers : List Nat) : Prop where
  once : ∀ d ∈ disks, d.text ≠ "sda".toList → slots.countP (fun s => s.disk = d) = 1
  only : ∀ s ∈ slots, s.disk ∈ disks ∧ s.disk.text ≠ "sda".toList
  apart : slots.Pairwise fun s t => s.place ≠ t.place
  below : ∀ s ∈ slots, s.port < MAX_DISK_INDEX_PER_CONTROLLER
  declared : ∀ s ∈ slots, controllers.count s.controller = 1
  used : ∀ c ∈ controllers, (∃ s ∈ slots, s.controller = c) ∨ slots = [] ∧ controllers = [c]

/-- The disks in the order of the list, on the ports of one controller after another. -/
def slotsOf (disks : List Word) : List Slot :=
  (disks.filter fun d => d.text ≠ "sda".toList).mapIdx fun k d =>
    ⟨d, k / MAX_DISK_INDEX_PER_CONTROLLER, k % MAX_DISK_INDEX_PER_CONTROLLER⟩

section Loop
variable (disks : List Word)

/-- What the disk adds, as words with a blank behind each. -/
theorem driveText_eq (s : Slot) :
    driveText CONTROLLER_TYPE s.disk.text s.controller s.port = s.args.flatMap (· ++ [' ']) := by
  have htype : (CONTROLLER_TYPE = "lsi".toList || CONTROLLER_TYPE = "megasas".toList) = false := by decide
  rw [driveText, htype, if_neg Bool.false_ne_true, if_pos (show CONTROLLER_TYPE = "ahci".toList from rfl)]
  simp [Slot.args]

theorem controllerText_eq (i : Nat) :
    controllerText CONTROLLER_TYPE i = (controllerArgs i).flatMap (· ++ [' ']) := by
  have htype : ("lsi".toList.isPrefixOf CONTROLLER_TYPE || "megasas".toList.isPrefixOf CONTROLLER_TYPE) = false := by
    decide
  rw [controllerText, htype, if_neg Bool.false_ne_true, if_pos (show CONTROLLER_TYPE = "ahci".toList from rfl)]
  simp [controllerArgs, CONTROLLER_TYPE]

theorem slotsOf_concat (d : Word) : slotsOf (disks ++ [d]) =
    if d.text = "sda".toList then slotsOf disks
    else slotsOf disks ++ [⟨d, (slotsOf disks).length / MAX_DISK_INDEX_PER_CONTROLLER,
      (slotsOf disks).length % MAX_DISK_INDEX_PER_CONTROLLER⟩] := by
  rw [slotsOf, List.filter_append, List.filter_singleton]
  split
  · next h =>
    have hd : decide (d.text ≠ "sda".toList) = false := decide_eq_false (not_not.mpr h)
    rw [hd, cond_false, List.append_nil]
    rfl
  · next h =>
    have hd : decide (d.text ≠ "sda".toList) = true := decide_eq_true h
    rw [hd, cond_true, List.mapIdx_concat]
    simp only [slotsOf, List.length_mapIdx]

/-- The counters behind `k` disks: the port of the last one is `index - 1`. -/
def reached (k : Nat) (driveOption : Str) : Disks where
  index := if k = 0 then 0 else (k - 1) % MAX_DISK_INDEX_PER_CONTROLLER + 1
  diskIndex := k
  controllerIndex := (k - 1) / MAX_DISK_INDEX_PER_CONTROLLER
  driveOption := driveOption

/-- The next disk goes to the place of its number. -/
theorem nextController_reached (k : Nat) (text : Str) : nextController (reached k text) =
    ⟨k % MAX_DISK_INDEX_PER_CONTROLLER, k, k / MAX_DISK_INDEX_PER_CONTROLLER, text⟩ := by
  rw [nextController, reached]
  rcases Nat.eq_zero_or_pos k with rfl | hk
  · rfl
  · simp only [Nat.pos_iff_ne_zero.mp hk, if_false, MAX_DISK_INDEX_PER_CONTROLLER]
    split
    · next h =>
      simp only [Disks.mk.injEq, and_true, true_and]
      omega
    · next h =>
      simp only [Disks.mk.injEq, and_true, true_and]
      omega

theorem addDisk_reached (k : Nat) (text : Str) {d : Word} (h : d.text ≠ "sda".toList) :
    addDisk CONTROLLER_TYPE (reached k text) d = reached (k + 1)
      (text ++ (Slot.args ⟨d, k / MAX_DISK_INDEX_PER_CONTROLLER, k % MAX_DISK_INDEX_PER_CONTROLLER⟩).flatMap
        (· ++ [' '])) := by
  rw [addDisk, if_neg h, nextController_reached, ← driveText_eq]
  rfl

/-- The counters and the option behind every disk of the loop. -/
theorem addDisks_eq : addDisks CONTROLLER_TYPE disks = reached (slotsOf disks).length
    (" ".toList ++ ((slotsOf disks).flatMap Slot.args).flatMap (· ++ [' '])) := by
  induction disks using List.reverseRecOn with
  | nil => rfl
  | append_singleton ds d ih =>
    rw [addDisks, List.foldl_concat, ← addDisks, ih, slotsOf_concat]
    split
    · next h => rw [addDisk, if_pos h]
    · next h =>
      rw [addDisk_reached _ _ h, List.length_append, List.flatMap_append, List.flatMap_append, List.append_assoc]
      rfl

theorem controllerOption_eq (c : Nat) : controllerOption CONTROLLER_TYPE c =
    ((List.range (c + 1)).flatMap controllerArgs).flatMap (· ++ [' ']) := by
  rw [controllerOption]
  induction c + 1 with
  | zero => rfl
  | succ n ih =>
    rw [List.range_succ, List.foldl_concat, ih, controllerText_eq, List.flatMap_append, List.flatMap_append]
    simp

/-! ### The words of the options -/

theorem isDigit_not_blank {c : Char} (h : isDigit c = true) : isBlank c = false := by
  rw [isBlank, Bool.or_eq_false_iff, decide_eq_false_iff_not, decide_eq_false_iff_not]
  constructor <;> rintro rfl <;> exact absurd h (by decide)

theorem digits_not_blank (n : Nat) : ∀ c ∈ digits 10 n, isBlank c = false :=
  fun c hc => isDigit_not_blank (digits_isDigit n c hc)

theorem not_blank {s : Str} (h : s.all (fun c => !isBlank c) = true) : ∀ c ∈ s, isBlank c = false :=
  fun c hc => by simpa using List.all_eq_true.mp h c hc

/-- Texts of the options without a blank. -/
theorem Slot.isWord_args (s : Slot) : ∀ w ∈ s.args, IsWord isBlank w := by
  have hdisk := s.disk.isWord.2
  intro w hw
  simp only [Slot.args, List.mem_cons, List.not_mem_nil, or_false] at hw
  rcases hw with rfl | rfl | rfl | rfl
  · decide
  · refine ⟨by simp, ?_⟩
    simp only [List.forall_mem_append]
    exact ⟨⟨⟨not_blank (by decide), hdisk⟩, not_blank (by decide)⟩, hdisk⟩
  · decide
  · refine ⟨by simp, ?_⟩
    simp only [List.forall_mem_append]
    exact ⟨⟨⟨⟨⟨not_blank (by decide), hdisk⟩, not_blank (by decide)⟩, digits_not_blank _⟩, not_blank (by decide)⟩,
      digits_not_blank _⟩

theorem isWord_controllerArgs (i : Nat) : ∀ w ∈ controllerArgs i, IsWord isBlank w := by
  intro w hw
  simp only [controllerArgs, List.mem_cons, List.not_mem_nil, or_false] at hw
  rcases hw with rfl | rfl
  · decide
  · refine ⟨by simp, ?_⟩
    exact List.forall_mem_append.mpr ⟨not_blank (by decide), digits_not_blank _⟩

theorem words_drives : words isBlank (diskOptions disks).1 = (slotsOf disks).flatMap Slot.args := by
  rw [diskOptions, addDisks_eq]
  show words isBlank (" ".toList ++ _) = _
  have hspace : ∀ c ∈ " ".toList, isBlank c = true := fun c hc => by
    rw [List.mem_singleton.mp hc]
    rfl
  rw [words_append_of_sep hspace, words_flatMap_sep rfl]
  intro w hw
  obtain ⟨s, -, hw⟩ := List.mem_flatMap.mp hw
  exact s.isWord_args w hw

theorem words_controllers : words isBlank (diskOptions disks).2 =
    (List.range (((slotsOf disks).length - 1) / MAX_DISK_INDEX_PER_CONTROLLER + 1)).flatMap controllerArgs := by
  rw [diskOptions, addDisks_eq]
  show words isBlank (controllerOption CONTROLLER_TYPE _) = _
  rw [controllerOption_eq]
  refine words_flatMap_sep rfl fun w hw => ?_
  obtain ⟨i, -, hw⟩ := List.mem_flatMap.mp hw
  exact isWord_controllerArgs i w hw

/-! ### The assignment -/

theorem getElem_slotsOf {k : Nat} (h : k < (slotsOf disks).length) :
    (slotsOf disks)[k].place = (k / MAX_DISK_INDEX_PER_CONTROLLER, k % MAX_DISK_INDEX_PER_CONTROLLER) := by
  simp [slotsOf, Slot.place]

theorem slotsOf_disks : (slotsOf disks).map Slot.disk = disks.filter fun d => d.text ≠ "sda".toList := by
  refine List.ext_getElem (by simp [slotsOf]) fun k h h' => ?_
  simp [slotsOf]

theorem place_of_mem {s : Slot} (h : s ∈ slotsOf disks) : ∃ k < (slotsOf disks).length,
    s.controller = k / MAX_DISK_INDEX_PER_CONTROLLER ∧ s.port = k % MAX_DISK_INDEX_PER_CONTROLLER := by
  obtain ⟨k, hk, rfl⟩ := List.mem_iff_getElem.mp h
  exact ⟨k, hk, Prod.mk.inj (getElem_slotsOf disks hk)⟩

theorem slotsOf_assigns (h : disks.Nodup) : Assigns disks (slotsOf disks)
    (List.range (((slotsOf disks).length - 1) / MAX_DISK_INDEX_PER_CONTROLLER + 1)) where
  once d hd hsda := by
    have hcount : ((slotsOf disks).map Slot.disk).count d = 1 := by
      rw [slotsOf_disks]
      exact List.count_eq_one_of_mem (h.filter _) (List.mem_filter.mpr ⟨hd, decide_eq_true hsda⟩)
    rw [← hcount, List.count, List.countP_map]
    congr
  only s hs := by
    have hmem := List.mem_map_of_mem (f := Slot.disk) hs
    rw [slotsOf_disks, List.mem_filter, decide_eq_true_eq] at hmem
    exact hmem
  apart := by
    rw [List.pairwise_iff_getElem]
    intro i j hi hj hij
    rw [getElem_slotsOf, getElem_slotsOf, ne_eq, Prod.mk.injEq, MAX_DISK_INDEX_PER_CONTROLLER]
    omega
  below s hs := by
    obtain ⟨k, -, -, hport⟩ := place_of_mem disks hs
    rw [hport]
    exact Nat.mod_lt k (by decide)
  declared s hs := by
    obtain ⟨k, hk, hcontroller, -⟩ := place_of_mem disks hs
    refine List.count_eq_one_of_mem List.nodup_range (List.mem_range.mpr ?_)
    rw [hcontroller, MAX_DISK_INDEX_PER_CONTROLLER]
    omega
  used c hc := by
    rw [List.mem_range, MAX_DISK_INDEX_PER_CONTROLLER] at hc
    rcases Nat.eq_zero_or_pos (slotsOf disks).length with hnone | hsome
    · right
      have hslots := List.length_eq_zero_iff.mp hnone
      obtain rfl : c = 0 := by omega
      rw [hslots]
      exact ⟨rfl, rfl⟩
    · left
      have hk : 6 * c < (slotsOf disks).length := by omega
      refine ⟨(slotsOf disks)[6 * c], List.getElem_mem hk, ?_⟩
      have hplace := (Prod.mk.inj (getElem_slotsOf disks hk)).1
      rw [MAX_DISK_INDEX_PER_CONTROLLER] at hplace
      omega

/-- **The options are an assignment**: for every list of disks, the arguments that `qemu`
gets are those of slots that assign the disks to ports of the declared controllers. -/
theorem options_assign (h : disks.Nodup) : ∃ slots controllers,
    words isBlank (diskOptions disks).1 = slots.flatMap Slot.args ∧
    words isBlank (diskOptions disks).2 = controllers.flatMap controllerArgs ∧
    Assigns disks slots controllers :=
  ⟨_, _, words_drives disks, words_controllers disks, slotsOf_assigns disks h⟩

/-- Eight disks, with `sda` among them. -/
def eightDisks : List Word :=
  [⟨"sdb".toList, by decide, by decide⟩, ⟨"sdc".toList, by decide, by decide⟩,
    ⟨"sda".toList, by decide, by decide⟩, ⟨"sdd".toList, by decide, by decide⟩,
    ⟨"sde".toList, by decide, by decide⟩, ⟨"sdf".toList, by decide, by decide⟩,
    ⟨"sdg".toList, by decide, by decide⟩, ⟨"sdh".toList, by decide, by decide⟩]

/-- The seventh goes to the second controller. -/
theorem eightDisks_assigned : eightDisks.Nodup ∧
    (diskOptions eightDisks).2 = "-device ahci,id=ahci0 -device ahci,id=ahci1 ".toList ∧
    ∃ slots controllers, words isBlank (diskOptions eightDisks).1 = slots.flatMap Slot.args ∧
      words isBlank (diskOptions eightDisks).2 = controllers.flatMap controllerArgs ∧
      Assigns eightDisks slots controllers :=
  have hnodup : eightDisks.Nodup := by decide
  ⟨hnodup, by decide, options_assign eightDisks hnodup⟩

end Loop

end Idic.Ipmi.Startcmd
