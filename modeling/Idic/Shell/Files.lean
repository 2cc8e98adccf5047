import Idic.Shell.Patterns

/-! Text files whose last line may have no newline.

A file is the lines that a newline ends, and what stands behind the last of them. `cat`
and `echo >>` go on with that rest, `sed` prints it as it is, and a reader takes it for a
line (`Content.all`). What reads the same in both is what the commands do to a file
without a rest. -/
namespace Idic.Shell

/-- `rest` is a line without a newline, or nothing. -/
structure Content (α : Type) where
  lines : List (List α)
  rest : List α
  deriving DecidableEq, Repr

namespace Content
variable {α : Type}

def ofLines (ls : List (List α)) : Content α := ⟨ls, []⟩

/-- The lines that are read. -/
def all (c : Content α) : List (List α) := c.lines ++ if c.rest.isEmpty then [] else [c.rest]

/-- `[ -s c ]` fails. -/
def isEmpty (c : Content α) : Bool := c.lines.isEmpty && c.rest.isEmpty

/-- `echo l >> c` -/
def append (c : Content α) (l : List α) : Content α := ⟨c.lines ++ [c.rest ++ l], []⟩

/-- `cat c d` -/
def cat (c d : Content α) : Content α :=
  match d.lines with
  | [] => ⟨c.lines, c.rest ++ d.rest⟩
  | l :: ls => ⟨c.lines ++ (c.rest ++ l) :: ls, d.rest⟩

/-- `sed -n 1p c` -/
def first (c : Content α) : Content α :=
  match c.lines with
  | [] => ⟨[], c.rest⟩
  | l :: _ => ⟨[l], []⟩

/-- `sed` with a command that deletes every line that is not kept. -/
def filter (keep : List α → Bool) (c : Content α) : Content α :=
  ⟨c.lines.filter keep, if keep c.rest then c.rest else []⟩

section Ranges
variable (start stop : List α → Bool)

/-- The rest is in a range. -/
def endsInside (c : Content α) : Bool := insideAfter start stop false c.lines || start c.rest

/-- `sed '/start/,/stop/d' c` -/
def deleteRanges (c : Content α) : Content α :=
  ⟨Shell.deleteRanges start stop false c.lines, if c.endsInside start stop then [] else c.rest⟩

/-- `sed -n '/start/,/stop/p' c` -/
def printRanges (c : Content α) : Content α :=
  ⟨Shell.printRanges start stop false c.lines, if c.endsInside start stop then c.rest else []⟩

end Ranges

/-! ### What is read of the files -/

variable {c d : Content α}

@[simp] theorem all_ofLines (ls : List (List α)) : (ofLines ls).all = ls := List.append_nil ls

theorem all_of_rest (h : c.rest ≠ []) : c.all = c.lines ++ [c.rest] := by
  rw [all, if_neg (by simpa using h)]

theorem all_of_no_rest (h : c.rest = []) : c.all = c.lines := by
  rw [all, h]
  exact List.append_nil _

theorem isEmpty_iff : c.isEmpty = true ↔ c.all = [] := by
  cases hrest : c.rest <;> simp [isEmpty, all, hrest]

theorem all_filter (keep : List α → Bool) (c : Content α) : (c.filter keep).all = c.all.filter keep := by
  by_cases hrest : c.rest = []
  · simp [all, filter, hrest]
  · cases hkeep : keep c.rest <;> simp [all, filter, hrest, hkeep]

theorem filter_filter (keep keep' : List α → Bool) (c : Content α) :
    (c.filter keep).filter keep' = c.filter fun l => keep l && keep' l := by
  cases hkeep : keep c.rest <;> simp [filter, hkeep, List.filter_filter, Bool.and_comm]

theorem filter_true (c : Content α) : c.filter (fun _ => true) = c := by
  rw [filter, List.filter_true, if_pos rfl]

theorem all_deleteRanges (start stop : List α → Bool) (c : Content α) :
    (c.deleteRanges start stop).all = Shell.deleteRanges start stop false c.all := by
  by_cases hrest : c.rest = []
  · simp [all, deleteRanges, hrest]
  · rw [all_of_rest hrest, deleteRanges_concat, ← endsInside]
    cases hinside : c.endsInside start stop <;> simp [all, deleteRanges, hrest, hinside]

theorem all_printRanges (start stop : List α → Bool) (c : Content α) :
    (c.printRanges start stop).all = Shell.printRanges start stop false c.all := by
  by_cases hrest : c.rest = []
  · simp [all, printRanges, hrest]
  · rw [all_of_rest hrest, printRanges_concat, ← endsInside]
    cases hinside : c.endsInside start stop <;> simp [all, printRanges, hrest, hinside]

/-! ### Lines at the end -/

theorem cat_of_no_rest (h : c.rest = []) (d : Content α) : c.cat d = ⟨c.lines ++ d.lines, d.rest⟩ := by
  cases hlines : d.lines <;> simp [cat, hlines, h]

theorem cat_ofLines_nil (c : Content α) : c.cat (ofLines []) = c :=
  congrArg (Content.mk c.lines) (List.append_nil c.rest)

theorem foldl_append (ls : List (List α)) (c : Content α) : ls.foldl append c = c.cat (ofLines ls) := by
  induction ls generalizing c with
  | nil => exact (cat_ofLines_nil c).symm
  | cons l ls ih =>
    rw [List.foldl_cons, ih, append]
    cases ls <;> simp [cat, ofLines]

/-- Behind a rest the first line is glued to it. -/
theorem cat_of_lines {l : List α} {ls : List (List α)} (h : d.lines = l :: ls) :
    c.cat d = ⟨c.lines ++ (c.rest ++ l) :: ls, d.rest⟩ := by rw [cat, h]

end Content

end Idic.Shell
