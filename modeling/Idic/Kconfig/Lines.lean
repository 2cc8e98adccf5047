import Idic.Python.Text

/-! A text that is read line by line into a buffer.

`fgets` stops behind a newline, or when the buffer is full. A text that was put together
from lines that fit is taken apart into these. -/
namespace Idic.Kconfig.Lines
open Python (Str)

/-- `fgets` with room for `n` characters: what is read and what is left. -/
def fgets : Nat → Str → Str × Str
  | 0, text => ([], text)
  | _, [] => ([], [])
  | n + 1, ch :: text => if ch = '\n' then ([ch], text) else (ch :: (fgets n text).1, (fgets n text).2)

theorem fgets_left (n : Nat) (ch : Char) (text : Str) :
    (fgets (n + 1) (ch :: text)).2.length < (ch :: text).length := by
  induction n generalizing ch text with
  | zero => simp [fgets]
  | succ n ih =>
    rw [fgets]
    split
    · exact Nat.lt_succ_self _
    · cases text with
      | nil => simp [fgets]
      | cons ch' text => exact (ih ch' text).trans (Nat.lt_succ_self _)

/-- `while (fgets(line, n + 2, in))` -/
def lines (n : Nat) : Str → List Str
  | [] => []
  | ch :: text => (fgets (n + 1) (ch :: text)).1 :: lines n (fgets (n + 1) (ch :: text)).2
termination_by text => text.length
decreasing_by exact fgets_left n ch text

/-- A line with its newline, which fits. -/
structure IsLine (n : Nat) (line : Str) : Prop where
  body : ∃ text, line = text ++ ['\n'] ∧ '\n' ∉ text
  fits : line.length ≤ n + 1

theorem fgets_append {n : Nat} {text : Str} (hbody : '\n' ∉ text) (hn : text.length < n) (rest : Str) :
    fgets n (text ++ '\n' :: rest) = (text ++ ['\n'], rest) := by
  induction text generalizing n with
  | nil =>
    obtain ⟨n, rfl⟩ : ∃ m, n = m + 1 := ⟨n - 1, by simp at hn; omega⟩
    simp [fgets]
  | cons ch text ih =>
    obtain ⟨n, rfl⟩ : ∃ m, n = m + 1 := ⟨n - 1, by simp at hn; omega⟩
    obtain ⟨hch, hbody⟩ := not_or.mp (mt List.mem_cons.mpr hbody)
    have hn : text.length < n := by simpa using hn
    rw [List.cons_append, fgets, if_neg (Ne.symm hch), ih hbody hn]
    rfl

/-- Lines that fit are read one by one. -/
theorem lines_flatten {n : Nat} {ls : List Str} (h : ∀ line ∈ ls, IsLine n line) : lines n ls.flatten = ls := by
  induction ls with
  | nil => rw [List.flatten_nil, lines]
  | cons line ls ih =>
    obtain ⟨hline, hls⟩ := List.forall_mem_cons.mp h
    obtain ⟨⟨text, rfl, hbody⟩, hfits⟩ := hline
    have hn : text.length < n + 1 := by simpa using hfits
    have hread : fgets (n + 1) ((text ++ ['\n']) ++ ls.flatten) = (text ++ ['\n'], ls.flatten) := by
      rw [List.append_assoc]
      exact fgets_append hbody hn ls.flatten
    rw [List.flatten_cons]
    obtain ⟨ch, rest, hcons⟩ : ∃ ch rest, (text ++ ['\n']) ++ ls.flatten = ch :: rest := by
      cases text with
      | nil => exact ⟨_, _, rfl⟩
      | cons ch text => exact ⟨_, _, rfl⟩
    rw [hcons, lines, ← hcons, hread, ih hls]

end Idic.Kconfig.Lines
