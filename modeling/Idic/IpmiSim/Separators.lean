import Idic.IpmiSim.CommandFrame
import Idic.Shell.Patterns

/-! What separators mean in a line.

`handle_command` strips blanks off a line and cuts the rest at blanks, commas and
semicolons. A comma or a semicolon at an end is not stripped and leaves an empty word
there. `separators_iff` says for which lines the words are the runs of other
characters, so that lines with the same runs do the same. -/
namespace Idic.Python

/-- Where only the pieces between the ends are filtered, nothing empty is left exactly if the
ends are not empty. -/
theorem filter_between_iff (first last : Str) (front : List Str) :
    first :: (front.filter (fun t => t ≠ []) ++ [last]) =
      (first :: (front ++ [last])).filter (fun t => !t.isEmpty) ↔ first ≠ [] ∧ last ≠ [] := by
  constructor
  · intro heq
    have hne : ∀ t ∈ first :: (front.filter (fun t => t ≠ []) ++ [last]), t ≠ [] := by
      intro t ht
      rw [heq] at ht
      simpa using (List.mem_filter.mp ht).2
    exact ⟨hne first (List.mem_cons_self ..),
      hne last (List.mem_cons_of_mem _ (List.mem_append_right _ (List.mem_singleton_self _)))⟩
  · rintro ⟨hfirst, hlast⟩
    have hfilter : (front.filter fun t => decide (t ≠ [])) = front.filter fun t => !t.isEmpty :=
      List.filter_congr fun t _ => by cases t <;> rfl
    rw [hfilter, List.filter_cons_of_pos (by simpa using hfirst), List.filter_append,
      List.filter_cons_of_pos (by simpa using hlast)]
    rfl

/-- A text is cut into its words when it neither starts nor ends with a separator. -/
theorem reSplit_eq_words_iff (sep : Char → Bool) {s : Str} (hs : s ≠ []) :
    reSplit sep s = Shell.words sep s ↔
      (∀ c ∈ s.head?, sep c = false) ∧ ∀ c ∈ s.getLast?, sep c = false := by
  have hfirst : (s.splitOnP sep).head? = some (s.takeWhile fun c => !sep c) := Shell.head?_splitOnP s
  have hlast : (s.splitOnP sep).getLast? = some (s.rtakeWhile fun c => !sep c) := Shell.getLast?_splitOnP s
  have hstart : s.takeWhile (fun c => !sep c) ≠ [] ↔ ∀ c ∈ s.head?, sep c = false := by
    cases s with
    | nil => exact absurd rfl hs
    | cons c s => simp [List.takeWhile_cons]
  have hend : s.rtakeWhile (fun c => !sep c) ≠ [] ↔ ∀ c ∈ s.getLast?, sep c = false := by
    rw [Ne, List.rtakeWhile_eq_nil_iff, List.getLast?_eq_some_getLast hs]
    simp [hs]
  rw [Shell.words_eq_filter, ← hstart, ← hend]
  cases hsplit : s.splitOnP sep with
  | nil => exact absurd hsplit (List.splitOnP_ne_nil sep s)
  | cons first rest =>
    rw [hsplit] at hfirst hlast
    rw [← Option.some.inj hfirst]
    rcases List.eq_nil_or_concat rest with hrest | ⟨front, last, hrest⟩
    · subst hrest
      have hsame : first = s.rtakeWhile fun c => !sep c := Option.some.inj hlast
      have heq : reSplit sep s = [first] := by rw [reSplit, hsplit]; rfl
      rw [heq, ← hsame, and_self]
      cases first with
      | nil => exact iff_of_false (by decide) fun h => h rfl
      | cons c t => exact iff_of_true rfl (List.cons_ne_nil c t)
    · rw [List.concat_eq_append] at hrest
      subst hrest
      have hlast' : (first :: (front ++ [last])).getLast? = some last := List.getLast?_concat (l := first :: front)
      have heq : reSplit sep s = first :: (front.filter (fun t => t ≠ []) ++ [last]) := by
        rw [reSplit, hsplit]
        simp
      rw [heq, ← Option.some.inj (hlast'.symm.trans hlast)]
      exact filter_between_iff first last front

/-- Stripping takes blanks off both ends, and leaves none there. -/
theorem strip_spec (s : Str) : ∃ u v, s = u ++ strip s ++ v ∧ (∀ c ∈ u, isSpace c = true) ∧
    (∀ c ∈ v, isSpace c = true) ∧ (∀ c ∈ (strip s).head?, isSpace c = false) ∧
    ∀ c ∈ (strip s).getLast?, isSpace c = false := by
  have hfront := List.takeWhile_append_dropWhile (p := isSpace) (l := s)
  have hback := List.rdropWhile_append_rtakeWhile (p := isSpace) (l := s.dropWhile isSpace)
  refine ⟨s.takeWhile isSpace, (s.dropWhile isSpace).rtakeWhile isSpace, ?_, fun _ hc => List.mem_takeWhile_imp hc,
    fun _ hc => List.mem_rtakeWhile_imp hc, fun c hc => ?_, fun c hc => ?_⟩
  · rw [List.append_assoc, strip, hback, hfront]
  · obtain ⟨t, ht⟩ := List.rdropWhile_prefix isSpace (l := s.dropWhile isSpace)
    have hhead := List.head?_dropWhile_not isSpace s
    rw [strip] at hc
    rw [← ht, List.head?_append_of_ne_nil _ (List.ne_nil_of_mem (List.mem_of_mem_head? hc)), hc] at hhead
    simpa using hhead
  · have hne : strip s ≠ [] := List.ne_nil_of_mem (List.mem_of_mem_getLast? hc)
    rw [List.getLast?_eq_some_getLast hne, Option.mem_some_iff] at hc
    rw [← hc]
    exact Bool.eq_false_iff.mpr (List.rdropWhile_last_not isSpace (s.dropWhile isSpace) hne)

end Idic.Python

namespace Idic.IpmiSim
open Python Effect Sim

/-! ### The words that are dispatched on -/

section Dispatch
variable {σ : Type} [DecidableEq σ] (py : Interpreter σ)

/-- What `handle_command` does on the words of a line, and whether it accepts them. -/
def dispatch : List Str → Handler σ Bool
  | [] => return false
  | word :: args =>
    if word = "sensor".toList then do
      handleSensorCommand py args
      return true
    else if word = "sel".toList then do
      handleSelCommand args
      return true
    else if word = "help".toList then do
      handleHelp
      return true
    else if word = "history".toList then do
      handleHistory
      return true
    else do
      putMsg "illegal command\n".toList
      return false

/-- A line goes by its words, and is kept if they are accepted. -/
theorem handleCommand_dispatch {line : Str} (h : strip line ≠ []) :
    handleCommand py line =
      dispatch py (words line) >>= fun accepted => if accepted then keepCommand (strip line) else pure () := by
  rw [handleCommand, if_neg h]
  cases words line with
  | nil => rfl
  | cons word args =>
    simp only [dispatch]
    split_ifs <;> rw [bind_pure_bind] <;> rfl

/-- What the line is dispatched on; nothing is for a blank line. -/
def argsOf (line : Str) : List Str := if strip line = [] then [] else words line

/-- The maximal runs of characters that are no separators. -/
def runs (line : Str) : List Str := Shell.words isSeparator line

/-- The two lines do the same to the sensors and the BMC, put the same messages and
end alike. -/
structure SameEffect (line line' : Str) (sim : Sim σ) : Prop where
  outcome : ((handleCommand py line).run sim).1 = ((handleCommand py line').run sim).1
  sensors : ((handleCommand py line).run sim).2.obj = ((handleCommand py line').run sim).2.obj
  bmc : ((handleCommand py line).run sim).2.sent = ((handleCommand py line').run sim).2.sent
  messages : ((handleCommand py line).run sim).2.msgQueue = ((handleCommand py line').run sim).2.msgQueue

/-- Separators carry no meaning in two lines: the words are the runs, and lines with
the same runs do the same. -/
structure SeparatorsMeanNothing (line line' : Str) : Prop where
  args : argsOf line = runs line
  args' : argsOf line' = runs line'
  effect : runs line = runs line' → ∀ sim, SameEffect py line line' sim

end Dispatch

/-- No comma or semicolon is at an end of the line but for blanks. -/
def CleanEnds (line : Str) : Prop :=
  ∀ c, c ∈ (strip line).head? ∨ c ∈ (strip line).getLast? → c ≠ ',' ∧ c ≠ ';'

/-! ### Runs -/

theorem isSeparator_of_isSpace {c : Char} (h : isSpace c = true) : isSeparator c = true := by
  simp [isSeparator, h]

theorem isSeparator_eq_false_iff {c : Char} (h : isSpace c = false) :
    isSeparator c = false ↔ c ≠ ',' ∧ c ≠ ';' := by
  simp [isSeparator, h]

theorem runs_strip (line : Str) : runs line = Shell.words isSeparator (strip line) := by
  obtain ⟨u, v, hline, hu, hv, -, -⟩ := strip_spec line
  rw [runs]
  conv_lhs => rw [hline]
  rw [Shell.words_append_sep _ fun c hc => isSeparator_of_isSpace (hv c hc),
    Shell.words_append_of_sep fun c hc => isSeparator_of_isSpace (hu c hc)]

theorem argsOf_eq_runs_iff (line : Str) : argsOf line = runs line ↔ CleanEnds line := by
  rw [runs_strip, argsOf]
  by_cases hline : strip line = []
  · rw [if_pos hline, hline]
    exact iff_of_true rfl fun c hc => by simp [hline] at hc
  · obtain ⟨-, -, -, -, -, hhead, hlast⟩ := strip_spec line
    rw [if_neg hline, words, reSplit_eq_words_iff isSeparator hline]
    constructor
    · intro hends c hc
      rcases hc with hc | hc
      · exact (isSeparator_eq_false_iff (hhead c hc)).mp (hends.1 c hc)
      · exact (isSeparator_eq_false_iff (hlast c hc)).mp (hends.2 c hc)
    · intro hclean
      exact ⟨fun c hc => (isSeparator_eq_false_iff (hhead c hc)).mpr (hclean c (.inl hc)),
        fun c hc => (isSeparator_eq_false_iff (hlast c hc)).mpr (hclean c (.inr hc))⟩

theorem reSplit_ne_nil (sep : Char → Bool) (s : Str) : reSplit sep s ≠ [] := by
  rw [reSplit]
  split
  · next h => exact absurd h (List.splitOnP_ne_nil sep s)
  · split
    · exact List.cons_ne_nil _ _
    · exact List.cons_ne_nil _ _

/-! ### Lines with the same words -/

section Lines
variable {σ : Type} [DecidableEq σ] (py : Interpreter σ)

theorem sameEffect_of_argsOf {line line' : Str} (h : argsOf line = argsOf line') (sim : Sim σ) :
    SameEffect py line line' sim := by
  have hblank (l : Str) : argsOf l = [] ↔ strip l = [] := by
    rw [argsOf]
    split
    · next hl => exact iff_of_true rfl hl
    · next hl => exact iff_of_false (reSplit_ne_nil _ _) hl
  by_cases hline : strip line = []
  · have hline' : strip line' = [] := (hblank line').mp (h.symm.trans ((hblank line).mpr hline))
    have hrun (l : Str) (hl : strip l = []) : handleCommand py l = pure () := by rw [handleCommand, if_pos hl]
    refine ⟨?_, ?_, ?_, ?_⟩ <;> rw [hrun line hline, hrun line' hline']
  · have hline' : strip line' ≠ [] := fun hl => hline ((hblank line).mp (h.trans ((hblank line').mpr hl)))
    rw [argsOf, argsOf, if_neg hline, if_neg hline'] at h
    have hrun := handleCommand_dispatch py hline
    have hrun' := handleCommand_dispatch py hline'
    rw [← h] at hrun'
    rcases hd : (dispatch py (words line)).run sim with ⟨_ | accepted, sim'⟩
    · refine ⟨?_, ?_, ?_, ?_⟩ <;> rw [hrun, hrun', run_bind, run_bind, hd]
    · refine ⟨?_, ?_, ?_, ?_⟩ <;> rw [hrun, hrun', run_bind, run_bind, hd] <;> cases accepted <;> rfl

/-- **Separators carry no meaning in lines without a comma or a semicolon at an end**,
and in no others: the words of a line are its runs exactly when its ends are clean,
and lines with the same runs then do the same. -/
theorem separators_iff (line line' : Str) :
    SeparatorsMeanNothing py line line' ↔ CleanEnds line ∧ CleanEnds line' := by
  constructor
  · intro h
    exact ⟨(argsOf_eq_runs_iff line).mp h.args, (argsOf_eq_runs_iff line').mp h.args'⟩
  · rintro ⟨hclean, hclean'⟩
    have hargs := (argsOf_eq_runs_iff line).mpr hclean
    have hargs' := (argsOf_eq_runs_iff line').mpr hclean'
    exact ⟨hargs, hargs', fun h sim => sameEffect_of_argsOf py (hargs.trans (h.trans hargs'.symm)) sim⟩

end Lines

/-- A semicolon in front of a line hides its command. -/
theorem semicolonHelp_illegal :
    runs ";help".toList = ["help".toList] ∧ runs "help".toList = ["help".toList] ∧
    argsOf ";help".toList = ["".toList, "help".toList] ∧
    ((handleCommand (plainInterpreter (Fin 0)) ";help".toList).run ⟨Fin.elim0, [], [], [], []⟩).2.msgQueue =
      ["illegal command\n".toList] ∧
    ((handleCommand (plainInterpreter (Fin 0)) "help".toList).run ⟨Fin.elim0, [], [], [], []⟩).2.msgQueue =
      [helpDoc] := by
  decide +kernel

end Idic.IpmiSim
