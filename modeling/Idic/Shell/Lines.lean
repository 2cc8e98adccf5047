import Idic.Shell.Patterns

/-! The lines of a text.

A text is taken as its lines, each of which a newline ends, but for the last one, which
may have none. Two ways to put a line at the end of a file differ in that: `echo >>`
goes on with a last line that is not ended, and `sed` ends it first, but does nothing on
an empty file. -/
namespace Idic.Shell

variable {α : Type} {nl : α}

section Ended

variable (nl) in
/-- The last line, if there is one, has its newline. -/
def Ended (t : List α) : Prop := ∀ c ∈ t.getLast?, c = nl

variable (nl) in
/-- `echo l >> file` -/
def appendLine (l t : List α) : List α := t ++ l ++ [nl]

theorem ended_nil : Ended nl ([] : List α) := nofun

theorem ended_cons {t : List α} (h : t ≠ []) (c : α) : Ended nl (c :: t) ↔ Ended nl t := by
  cases t with
  | nil => exact absurd rfl h
  | cons c' t => rw [Ended, List.getLast?_cons_cons, ← Ended]

theorem ended_appendLine (l t : List α) : Ended nl (appendLine nl l t) := by
  simp [Ended, appendLine]

theorem Ended.tail {c : α} {t : List α} (h : Ended nl (c :: t)) : Ended nl t := by
  by_cases ht : t = []
  · rw [ht]
    exact ended_nil
  · exact (ended_cons ht c).mp h

end Ended

section Infix
variable {c : α} {p : List α}

/-- A text without the character does not reach over it. -/
theorem infix_append_cons (hp : c ∉ p) {s t : List α} : p <:+: s ++ c :: t ↔ p <:+: s ∨ p <:+: c :: t := by
  rw [List.infix_append_iff_ne_nil]
  constructor
  · rintro (hs | ht | ⟨u, v, -, hv, rfl, -, hprefix⟩)
    · exact .inl hs
    · exact .inr ht
    · obtain ⟨c', v, rfl⟩ := List.exists_cons_of_ne_nil hv
      rw [(List.cons_prefix_cons.mp hprefix).1] at hp
      exact absurd (List.mem_append_right u (List.mem_cons_self ..)) hp
  · rintro (hs | ht)
    · exact .inl hs
    · exact .inr (.inl ht)

theorem infix_cons_of_not_mem (hne : p ≠ []) (hp : c ∉ p) {t : List α} : p <:+: c :: t ↔ p <:+: t := by
  rw [List.infix_cons_iff, or_iff_right]
  intro hprefix
  obtain ⟨c', p', rfl⟩ := List.exists_cons_of_ne_nil hne
  rw [(List.cons_prefix_cons.mp hprefix).1] at hp
  exact hp (List.mem_cons_self ..)

theorem infix_append_of_not_mem (hne : p ≠ []) {s : List α} (hp : ∀ c ∈ s, c ∉ p) {t : List α} :
    p <:+: s ++ t ↔ p <:+: t := by
  induction s with
  | nil => rfl
  | cons c s ih =>
    obtain ⟨hc, hs⟩ := List.forall_mem_cons.mp hp
    rw [List.cons_append, infix_cons_of_not_mem hne hc, ih hs]

end Infix

variable [DecidableEq α]

variable (nl) in
def lines : List α → List (List α)
  | [] => []
  | c :: t =>
    if c = nl then [] :: lines t
    else match lines t with
      | [] => [[c]]
      | l :: ls => (c :: l) :: ls

instance (t : List α) : Decidable (Ended nl t) :=
  match h : t.getLast? with
  | none => .isTrue (by simp [Ended, h])
  | some c => decidable_of_iff (c = nl) (by simp [Ended, h])

variable (nl) in
/-- `sed -i '$ a\l' file` -/
def appendLast (l t : List α) : List α :=
  if t = [] then []
  else if Ended nl t then appendLine nl l t
  else appendLine nl l (t ++ [nl])

theorem lines_cons_newline (t : List α) : lines nl (nl :: t) = [] :: lines nl t := if_pos rfl

theorem lines_cons {c : α} (hc : c ≠ nl) {t l : List α} {ls : List (List α)} (h : lines nl t = l :: ls) :
    lines nl (c :: t) = (c :: l) :: ls := by
  rw [lines, if_neg hc, h]

theorem lines_ne_nil {t : List α} (h : t ≠ []) : lines nl t ≠ [] := by
  cases t with
  | nil => exact absurd rfl h
  | cons c t =>
    rw [lines]
    split
    · exact List.cons_ne_nil _ _
    · split <;> exact List.cons_ne_nil _ _

theorem Ended.lines_append {t : List α} (h : Ended nl t) (u : List α) :
    lines nl (t ++ u) = lines nl t ++ lines nl u := by
  induction t with
  | nil => rfl
  | cons c t ih =>
    by_cases hc : c = nl
    · subst hc
      rw [List.cons_append, lines_cons_newline, lines_cons_newline, ih h.tail, List.cons_append]
    · -- The newline is further on.
      have ht : t ≠ [] := by
        rintro rfl
        exact hc (h c rfl)
      have hlines : lines nl t ≠ [] := lines_ne_nil ht
      obtain ⟨l, ls, hls⟩ := List.exists_cons_of_ne_nil hlines
      rw [List.cons_append, lines_cons hc hls, lines_cons hc (by rw [ih h.tail, hls, List.cons_append]),
        List.cons_append]

theorem lines_of_not_mem {l : List α} (hne : l ≠ []) (h : nl ∉ l) : lines nl l = [l] := by
  induction l with
  | nil => exact absurd rfl hne
  | cons c l ih =>
    obtain ⟨hc, hl⟩ := not_or.mp (List.mem_cons.not.mp h)
    cases l with
    | nil => rw [lines, if_neg (Ne.symm hc), lines]
    | cons c' l => exact lines_cons (Ne.symm hc) (ih (List.cons_ne_nil _ _) hl)

theorem lines_line {l : List α} (h : nl ∉ l) : lines nl (l ++ [nl]) = [l] := by
  induction l with
  | nil => exact lines_cons_newline []
  | cons c l ih =>
    obtain ⟨hc, hl⟩ := not_or.mp (List.mem_cons.not.mp h)
    exact lines_cons (Ne.symm hc) (ih hl)

/-- What is before a last line without its newline. -/
theorem exists_last {t : List α} (h : ¬Ended nl t) : ∃ u l, t = u ++ l ∧ Ended nl u ∧ l ≠ [] ∧ nl ∉ l := by
  induction t with
  | nil => exact absurd ended_nil h
  | cons c t ih =>
    by_cases ht : Ended nl t
    · -- Then nothing is behind `c`, for a text ends as its tail does.
      have hnil : t = [] := by
        by_contra hne
        exact h ((ended_cons hne c).mpr ht)
      subst hnil
      refine ⟨[], [c], rfl, ended_nil, List.cons_ne_nil _ _, ?_⟩
      rw [List.mem_singleton]
      rintro rfl
      exact h fun _ hc => (Option.some.inj hc).symm
    · obtain ⟨u, l, rfl, hu, hne, hl⟩ := ih ht
      by_cases hnil : u = []
      · subst hnil
        by_cases hc : c = nl
        · exact ⟨[c], l, rfl, fun _ hx => (Option.some.inj hx).symm.trans hc, hne, hl⟩
        · refine ⟨[], c :: l, rfl, ended_nil, List.cons_ne_nil _ _, ?_⟩
          exact List.mem_cons.not.mpr (not_or.mpr ⟨Ne.symm hc, hl⟩)
      · exact ⟨c :: u, l, rfl, (ended_cons hnil c).mpr hu, hne, hl⟩

theorem lines_flatMap {ls : List (List α)} (h : ∀ l ∈ ls, nl ∉ l) : lines nl (ls.flatMap (· ++ [nl])) = ls := by
  induction ls with
  | nil => rfl
  | cons l ls ih =>
    obtain ⟨hl, hls⟩ := List.forall_mem_cons.mp h
    have hended : Ended nl (l ++ [nl]) := ended_appendLine l []
    rw [List.flatMap_cons, hended.lines_append, lines_line hl, ih hls, List.singleton_append]

/-- The first line goes on to the first newline. -/
theorem lines_eq_cons {t l : List α} {ls : List (List α)} (h : lines nl t = l :: ls) :
    t = l ∧ ls = [] ∨ ∃ u, t = l ++ nl :: u ∧ lines nl u = ls := by
  induction t generalizing l with
  | nil => cases h
  | cons c t ih =>
    by_cases hc : c = nl
    · subst hc
      rw [lines_cons_newline] at h
      obtain ⟨rfl, rfl⟩ := List.cons.inj h
      exact .inr ⟨t, rfl, rfl⟩
    · rw [lines, if_neg hc] at h
      split at h
      · next hnil =>
        obtain ⟨rfl, rfl⟩ := List.cons.inj h
        have ht : t = [] := by
          by_contra hne
          exact lines_ne_nil hne hnil
        exact .inl ⟨by rw [ht], rfl⟩
      · next l' ls' hls =>
        obtain ⟨rfl, rfl⟩ := List.cons.inj h
        rcases ih hls with ⟨rfl, rfl⟩ | ⟨u, rfl, hu⟩
        · exact .inl ⟨rfl, rfl⟩
        · exact .inr ⟨u, rfl, hu⟩

/-- A text without a newline is in the whole if and only if it is in a line. -/
theorem infix_iff_lines {p : List α} (hne : p ≠ []) (hp : nl ∉ p) (t : List α) :
    p <:+: t ↔ ∃ l ∈ lines nl t, p <:+: l := by
  induction hls : lines nl t generalizing t with
  | nil =>
    have ht : t = [] := by
      by_contra hnil
      exact lines_ne_nil hnil hls
    simp [ht, hne]
  | cons l ls ih =>
    rcases lines_eq_cons hls with ⟨rfl, rfl⟩ | ⟨u, rfl, hu⟩
    · simp
    · rw [infix_append_cons hp, infix_cons_of_not_mem hne hp, ih u hu, List.exists_mem_cons_iff]

/-! ### A line at the end -/

theorem Ended.lines_appendLine {l t : List α} (h : Ended nl t) (hl : nl ∉ l) :
    lines nl (appendLine nl l t) = lines nl t ++ [l] := by
  rw [appendLine, List.append_assoc, h.lines_append, lines_line hl]

/-- What is put behind a last line that has no newline becomes part of it. -/
theorem lines_appendLine_open {u last l : List α} (hu : Ended nl u) (hlast : nl ∉ last) (hl : nl ∉ l) :
    lines nl (appendLine nl l (u ++ last)) = lines nl u ++ [last ++ l] := by
  rw [appendLine, List.append_assoc, List.append_assoc, hu.lines_append, ← List.append_assoc last, lines_line]
  exact List.mem_append.not.mpr (not_or.mpr ⟨hlast, hl⟩)

theorem appendLast_ne_nil {l t : List α} (hne : t ≠ []) : appendLast nl l t ≠ [] := by
  unfold appendLast
  rw [if_neg hne]
  split <;> exact List.append_ne_nil_of_right_ne_nil _ (List.cons_ne_nil _ _)

/-- `sed` leaves every line as it is. -/
theorem lines_appendLast {l t : List α} (hne : t ≠ []) (hl : nl ∉ l) :
    lines nl (appendLast nl l t) = lines nl t ++ [l] := by
  rw [appendLast, if_neg hne]
  split
  · next ht => exact ht.lines_appendLine hl
  · next ht =>
    obtain ⟨u, last, rfl, hu, hlast, hmem⟩ := exists_last ht
    have hended : Ended nl (u ++ last ++ [nl]) := ended_appendLine last u
    rw [hended.lines_appendLine hl, List.append_assoc, hu.lines_append, hu.lines_append, lines_line hmem,
      lines_of_not_mem hlast hmem]

end Idic.Shell
