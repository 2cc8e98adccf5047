import Mathlib.Data.List.DropRight
import Mathlib.Data.List.Forall2
import Mathlib.Data.List.TakeWhile

/-! Words, patterns and the line ranges of `sed`.

Over arbitrary characters: the words of a line between separators; patterns, which
give what may be left of a text after a match at its start; and, over arbitrary
lines, the two commands that delete or print the lines from one that matches a start
to the next one that matches a stop. -/
namespace Idic.Shell

section Words
variable {α : Type} (sep : α → Bool)

def words : List α → List (List α)
  | [] => []
  | c :: s =>
    if sep c then words s
    else match s with
      | [] => [[c]]
      | c' :: _ => if sep c' then [c] :: words s else (words s).modifyHead (c :: ·)

variable {sep}

theorem words_cons_sep {c : α} (h : sep c = true) (s : List α) : words sep (c :: s) = words sep s := by
  rw [words.eq_def]
  exact if_pos h

theorem words_append_of_sep {u : List α} (h : ∀ c ∈ u, sep c = true) (s : List α) :
    words sep (u ++ s) = words sep s := by
  induction u with
  | nil => rfl
  | cons c u ih =>
    obtain ⟨hc, hu⟩ := List.forall_mem_cons.mp h
    rw [List.cons_append, words_cons_sep hc, ih hu]

theorem words_of_sep {s : List α} (h : ∀ c ∈ s, sep c = true) : words sep s = [] := by
  have happend := words_append_of_sep h []
  rw [List.append_nil] at happend
  exact happend

variable (sep) in
/-- A text without a separator. -/
def IsWord (w : List α) : Prop := w ≠ [] ∧ ∀ c ∈ w, sep c = false

instance [DecidableEq α] (w : List α) : Decidable (IsWord sep w) := inferInstanceAs (Decidable (_ ∧ _))

variable (sep) in
/-- A text that does not go on with the word before it. -/
def Ends (s : List α) : Prop := ∀ c ∈ s.head?, sep c = true

theorem ends_dropWhile (s : List α) : Ends sep (s.dropWhile fun c => !sep c) := by
  intro c hc
  have h := List.head?_dropWhile_not (fun c => !sep c) s
  rw [hc] at h
  simpa using h

theorem words_word_append {w : List α} (hw : IsWord sep w) {s : List α} (hs : Ends sep s) :
    words sep (w ++ s) = w :: words sep s := by
  obtain ⟨hne, hw⟩ := hw
  induction w with
  | nil => exact absurd rfl hne
  | cons c w ih =>
    obtain ⟨hc, hw⟩ := List.forall_mem_cons.mp hw
    rw [List.cons_append, words.eq_def]
    simp only [hc, Bool.false_eq_true, if_false]
    cases w with
    | nil =>
      cases s with
      | nil => rfl
      | cons c' s =>
        rw [List.nil_append]
        simp only [hs c' rfl, if_true]
    | cons c' w =>
      have hc' := hw c' (List.mem_cons_self ..)
      rw [ih (List.cons_ne_nil _ _) hw]
      simp only [List.cons_append, hc', Bool.false_eq_true, if_false, List.modifyHead_cons]

theorem words_word_cons {w : List α} (hw : IsWord sep w) {c : α} (hc : sep c = true) (s : List α) :
    words sep (w ++ c :: s) = w :: words sep s := by
  rw [words_word_append hw (fun c' hc' => by cases hc'; exact hc), words_cons_sep hc]

theorem words_word {w : List α} (hw : IsWord sep w) : words sep w = [w] := by
  have h := words_word_append hw (s := []) (fun _ h => nomatch h)
  rw [List.append_nil] at h
  exact h

theorem words_flatMap_sep {c : α} (hc : sep c = true) {ws : List (List α)} (hws : ∀ w ∈ ws, IsWord sep w) :
    words sep (ws.flatMap (· ++ [c])) = ws := by
  induction ws with
  | nil => rfl
  | cons w ws ih =>
    obtain ⟨hw, hws⟩ := List.forall_mem_cons.mp hws
    rw [List.flatMap_cons, List.append_assoc, List.singleton_append, words_word_cons hw hc, ih hws]

/-- The first word of a line goes on to the next separator. -/
theorem words_prefix {u w : List α} (hu : ∀ c ∈ u, sep c = true) (hw : IsWord sep w) (s : List α) :
    words sep (u ++ w ++ s) =
      (w ++ s.takeWhile fun c => !sep c) :: words sep (s.dropWhile fun c => !sep c) := by
  have hlong : IsWord sep (w ++ s.takeWhile fun c => !sep c) :=
    ⟨by simp [hw.1], List.forall_mem_append.mpr ⟨hw.2, fun c hc => by simpa using List.mem_takeWhile_imp hc⟩⟩
  calc words sep (u ++ w ++ s)
      = words sep ((w ++ s.takeWhile fun c => !sep c) ++ s.dropWhile fun c => !sep c) := by
        rw [List.append_assoc, words_append_of_sep hu, List.append_assoc, List.takeWhile_append_dropWhile]
    _ = _ := words_word_append hlong (ends_dropWhile s)

variable (sep) in
/-- A line has no word, or it is its first word with separators around it and the
rest. -/
theorem words_cases (s : List α) : (words sep s = [] ∧ ∀ c ∈ s, sep c = true) ∨
    ∃ u w rest, s = u ++ w ++ rest ∧ (∀ c ∈ u, sep c = true) ∧ IsWord sep w ∧ Ends sep rest ∧
      words sep s = w :: words sep rest := by
  have hu : ∀ c ∈ s.takeWhile sep, sep c = true := fun c hc => List.mem_takeWhile_imp hc
  have hs := List.takeWhile_append_dropWhile (p := sep) (l := s)
  cases hv : s.dropWhile sep with
  | nil =>
    rw [hv, List.append_nil] at hs
    rw [hs] at hu
    exact .inl ⟨words_of_sep hu, hu⟩
  | cons c v =>
    have hc : sep c = false := by
      have h := List.head?_dropWhile_not sep s
      rw [hv] at h
      simpa using h
    have hw : IsWord sep ((c :: v).takeWhile fun c => !sep c) :=
      ⟨by simp [hc], fun x hx => by simpa using List.mem_takeWhile_imp hx⟩
    have hsplit : s = s.takeWhile sep ++ (c :: v).takeWhile (fun c => !sep c) ++
        (c :: v).dropWhile (fun c => !sep c) := by
      rw [List.append_assoc, List.takeWhile_append_dropWhile, ← hv, List.takeWhile_append_dropWhile]
    refine .inr ⟨_, _, _, hsplit, hu, hw, ends_dropWhile _, ?_⟩
    rw [hsplit, List.append_assoc, words_append_of_sep hu, words_word_append hw (ends_dropWhile _)]

/-- What is put behind a line goes on with its first word at most by a first word of its
own. -/
theorem words_glue {s w : List α} {ws : List (List α)} (h : words sep s = w :: ws) (t : List α) :
    ∃ v ws', words sep (s ++ t) = (w ++ v) :: ws' ∧ (v = [] ∨ v ∈ (words sep t).head?) := by
  rcases words_cases sep s with ⟨hnil, -⟩ | ⟨u, w', rest, rfl, hu, hw, hends, hwords⟩
  · cases hnil.symm.trans h
  obtain ⟨rfl, -⟩ := List.cons.inj (hwords.symm.trans h)
  cases rest with
  | cons c rest =>
    have hends' : Ends sep (c :: rest ++ t) := fun c' hc' => hends c' hc'
    refine ⟨[], words sep (c :: rest ++ t), ?_, .inl rfl⟩
    rw [List.append_assoc, List.append_assoc, words_append_of_sep hu, words_word_append hw hends', List.append_nil]
  | nil =>
    rw [List.append_nil, words_prefix hu hw]
    refine ⟨_, _, rfl, ?_⟩
    cases t with
    | nil => exact .inl rfl
    | cons c t =>
      cases hc : sep c with
      | true => exact .inl (by simp [hc])
      | false =>
        have hfirst : IsWord sep ((c :: t).takeWhile fun c => !sep c) :=
          ⟨by simp [hc], fun x hx => by simpa using List.mem_takeWhile_imp hx⟩
        have hsplit := words_word_append hfirst (ends_dropWhile (c :: t))
        rw [List.takeWhile_append_dropWhile] at hsplit
        refine .inr ?_
        rw [hsplit, List.head?_cons]
        exact rfl

/-- Separators behind the last word. -/
theorem words_append_sep (s : List α) {v : List α} (hv : ∀ c ∈ v, sep c = true) :
    words sep (s ++ v) = words sep s := by
  induction s with
  | nil => exact words_of_sep hv
  | cons c s ih =>
    cases hc : sep c with
    | true => rw [List.cons_append, words_cons_sep hc, words_cons_sep hc, ih]
    | false =>
      cases s with
      | nil =>
        have hends : Ends sep v := fun c' hc' => hv c' (List.mem_of_mem_head? hc')
        have hword : IsWord sep [c] := ⟨List.cons_ne_nil _ _, List.forall_mem_singleton.mpr hc⟩
        rw [words_word_append hword hends, words_of_sep hv, words_word hword]
      | cons c' s =>
        have hleft := words.eq_def sep (c :: c' :: s ++ v)
        have hright := words.eq_def sep (c :: c' :: s)
        simp only [List.cons_append, hc, Bool.false_eq_true, if_false] at hleft hright ih
        rw [List.cons_append, List.cons_append, hleft, hright, ih]

/-- The words are what is not empty between separators. -/
theorem words_eq_filter (s : List α) : words sep s = (s.splitOnP sep).filter fun t => !t.isEmpty := by
  induction s with
  | nil => rfl
  | cons c s ih =>
    rw [List.splitOnP_cons_eq_if_modifyHead]
    cases hc : sep c with
    | true => exact (words_cons_sep hc s).trans ih
    | false =>
      rw [words.eq_def]
      simp only [hc, Bool.false_eq_true, if_false]
      cases s with
      | nil => rfl
      | cons c' s =>
        rw [List.splitOnP_cons_eq_if_modifyHead] at ih ⊢
        cases hc' : sep c' with
        | true =>
          simp only [hc', if_true] at ih ⊢
          rw [ih]
          rfl
        | false =>
          simp only [hc', Bool.false_eq_true, if_false] at ih ⊢
          obtain ⟨first, rest, hfirst⟩ := List.exists_cons_of_ne_nil (List.splitOnP_ne_nil sep s)
          rw [ih, hfirst]
          rfl

/-- What is before the first separator. -/
theorem head?_splitOnP (s : List α) : (s.splitOnP sep).head? = some (s.takeWhile fun c => !sep c) := by
  have hfront : ∀ c ∈ s.takeWhile (fun c => !sep c), sep c = false :=
    fun c hc => by simpa using List.mem_takeWhile_imp hc
  have hs := List.takeWhile_append_dropWhile (p := fun c => !sep c) (l := s)
  cases hv : s.dropWhile fun c => !sep c with
  | nil =>
    rw [hv, List.append_nil] at hs
    rw [hs] at hfront ⊢
    rw [List.splitOnP_eq_singleton hfront]
    rfl
  | cons c v =>
    have hc : sep c = true := ends_dropWhile s c (by rw [hv]; rfl)
    rw [hv] at hs
    conv_lhs => rw [← hs, List.splitOnP_append_cons _ _ hc, List.splitOnP_eq_singleton hfront]
    rfl

/-- What is behind the last separator. -/
theorem getLast?_splitOnP (s : List α) :
    (s.splitOnP sep).getLast? = some (s.rtakeWhile fun c => !sep c) := by
  have hback : ∀ c ∈ s.rtakeWhile (fun c => !sep c), sep c = false :=
    fun c hc => by simpa using List.mem_rtakeWhile_imp hc
  have hs := List.rdropWhile_append_rtakeWhile (p := fun c => !sep c) (l := s)
  rcases List.eq_nil_or_concat (s.rdropWhile fun c => !sep c) with hu | ⟨u, c, hu⟩
  · rw [hu, List.nil_append] at hs
    rw [hs] at hback ⊢
    rw [List.splitOnP_eq_singleton hback]
    rfl
  · have hc : sep c = true := by
      have hlast := List.rdropWhile_last_not (fun c => !sep c) s (by simp [hu])
      simpa [hu] using hlast
    rw [hu, List.concat_eq_append, List.append_assoc] at hs
    conv_lhs => rw [← hs, List.singleton_append, List.splitOnP_append_cons _ _ hc,
      List.splitOnP_eq_singleton hback]
    exact List.getLast?_concat

theorem ne_nil_of_mem_words {w s : List α} (h : w ∈ words sep s) : w ≠ [] := by
  rw [words_eq_filter] at h
  simpa using (List.mem_filter.mp h).2

end Words

/-! ### Patterns -/

/-- What may be left of a text after a match at its start. -/
abbrev Pattern (α : Type) := List α → List (List α)

namespace Pattern
variable {α : Type}

def one (p : α → Bool) : Pattern α
  | [] => []
  | c :: s => if p c then [s] else []

def seq (a b : Pattern α) : Pattern α := fun s => (a s).flatMap b

/-- One character after another. -/
def all : List (α → Bool) → Pattern α
  | [] => fun s => [s]
  | p :: ps => seq (one p) (all ps)

/-- Any number of characters. -/
def star (p : α → Bool) : Pattern α
  | [] => [[]]
  | c :: s => (c :: s) :: if p c then star p s else []

/-- From one to `n + 1` characters. -/
def upTo (p : α → Bool) : Nat → Pattern α
  | 0 => one p
  | n + 1 => fun s => one p s ++ seq (one p) (upTo p n) s

/-- At the start of the text. -/
def starts (a : Pattern α) (s : List α) : Bool := !(a s).isEmpty

/-- Anywhere in the text. -/
def found (a : Pattern α) : List α → Bool
  | [] => a.starts []
  | c :: s => a.starts (c :: s) || found a s

theorem starts_iff {a : Pattern α} {s : List α} : a.starts s = true ↔ ∃ r, r ∈ a s := by
  rw [starts, Bool.not_eq_true', List.isEmpty_eq_false_iff_exists_mem]

theorem mem_one {p : α → Bool} {s r : List α} : r ∈ one p s ↔ ∃ c, p c = true ∧ s = c :: r := by
  cases s with
  | nil => simp [one]
  | cons c s =>
    rw [one]
    constructor
    · intro hr
      split at hr
      · next hc => exact ⟨c, hc, by rw [List.mem_singleton.mp hr]⟩
      · exact absurd hr List.not_mem_nil
    · intro hsome
      obtain ⟨c', hc, heq⟩ := hsome
      obtain ⟨rfl, rfl⟩ := List.cons.inj heq
      rw [if_pos hc]
      exact List.mem_singleton_self _

theorem mem_seq {a b : Pattern α} {s r : List α} : r ∈ seq a b s ↔ ∃ t ∈ a s, r ∈ b t := List.mem_flatMap

theorem mem_star {p : α → Bool} {s r : List α} :
    r ∈ star p s ↔ ∃ u, s = u ++ r ∧ ∀ c ∈ u, p c = true := by
  induction s with
  | nil =>
    rw [star, List.mem_singleton]
    constructor
    · intro heq
      subst heq
      exact ⟨[], rfl, fun _ h => absurd h List.not_mem_nil⟩
    · intro hsome
      obtain ⟨u, hu, -⟩ := hsome
      exact (List.append_eq_nil_iff.mp hu.symm).2
  | cons c s ih =>
    rw [star, List.mem_cons]
    constructor
    · intro hcase
      rcases hcase with rfl | hr
      · exact ⟨[], rfl, fun _ h => absurd h List.not_mem_nil⟩
      · split at hr
        · next hc =>
          obtain ⟨u, hs, hu⟩ := ih.mp hr
          exact ⟨c :: u, by rw [hs, List.cons_append], List.forall_mem_cons.mpr ⟨hc, hu⟩⟩
        · exact absurd hr List.not_mem_nil
    · intro hsome
      obtain ⟨u, hs, hu⟩ := hsome
      cases u with
      | nil => exact .inl hs.symm
      | cons c' u =>
        obtain ⟨rfl, rfl⟩ := List.cons.inj hs
        obtain ⟨hc, hu⟩ := List.forall_mem_cons.mp hu
        rw [if_pos hc]
        exact .inr (ih.mpr ⟨u, rfl, hu⟩)

theorem mem_all {ps : List (α → Bool)} {s r : List α} :
    r ∈ all ps s ↔ ∃ u, s = u ++ r ∧ List.Forall₂ (fun p c => p c = true) ps u := by
  induction ps generalizing s with
  | nil =>
    rw [all, List.mem_singleton]
    constructor
    · intro heq
      subst heq
      exact ⟨[], rfl, .nil⟩
    · intro hsome
      obtain ⟨u, rfl, hu⟩ := hsome
      cases hu
      rfl
  | cons p ps ih =>
    rw [all, mem_seq]
    constructor
    · intro hsome
      obtain ⟨t, ht, hr⟩ := hsome
      obtain ⟨c, hc, rfl⟩ := mem_one.mp ht
      obtain ⟨u, rfl, hu⟩ := ih.mp hr
      exact ⟨c :: u, rfl, .cons hc hu⟩
    · intro hsome
      obtain ⟨u, rfl, hu⟩ := hsome
      cases hu with
      | cons hc hu => exact ⟨_, mem_one.mpr ⟨_, hc, rfl⟩, ih.mpr ⟨_, rfl, hu⟩⟩

/-- `L` is what the pattern matches, whatever is behind it. -/
def Matches (a : Pattern α) (L : List α → Prop) : Prop := ∀ s r, r ∈ a s ↔ ∃ w, L w ∧ s = w ++ r

theorem Matches.congr {a : Pattern α} {L L' : List α → Prop} (h : a.Matches L) (hL : ∀ w, L w ↔ L' w) :
    a.Matches L' := by
  intro s r
  rw [h s r]
  exact exists_congr fun w => and_congr_left' (hL w)

theorem Matches.seq {a b : Pattern α} {L L' : List α → Prop} (ha : a.Matches L) (hb : b.Matches L') :
    (Pattern.seq a b).Matches fun w => ∃ u v, L u ∧ L' v ∧ w = u ++ v := by
  intro s r
  rw [mem_seq]
  constructor
  · intro hsome
    obtain ⟨t, ht, hr⟩ := hsome
    obtain ⟨u, hu, rfl⟩ := (ha s t).mp ht
    obtain ⟨v, hv, rfl⟩ := (hb t r).mp hr
    exact ⟨u ++ v, ⟨u, v, hu, hv, rfl⟩, (List.append_assoc ..).symm⟩
  · intro hsome
    obtain ⟨w, ⟨u, v, hu, hv, rfl⟩, rfl⟩ := hsome
    exact ⟨v ++ r, (ha _ _).mpr ⟨u, hu, List.append_assoc ..⟩, (hb _ _).mpr ⟨v, hv, rfl⟩⟩

theorem matches_one (p : α → Bool) : (one p).Matches fun w => ∃ c, p c = true ∧ w = [c] := by
  intro s r
  rw [mem_one]
  constructor
  · intro hsome
    obtain ⟨c, hc, rfl⟩ := hsome
    exact ⟨[c], ⟨c, hc, rfl⟩, rfl⟩
  · intro hsome
    obtain ⟨_, ⟨c, hc, rfl⟩, rfl⟩ := hsome
    exact ⟨c, hc, rfl⟩

/-- From one to `n + 1` characters. -/
theorem matches_upTo (p : α → Bool) (n : Nat) :
    (upTo p n).Matches fun w => w ≠ [] ∧ w.length ≤ n + 1 ∧ ∀ c ∈ w, p c = true := by
  induction n with
  | zero =>
    refine (matches_one p).congr fun w => ?_
    constructor
    · intro hsome
      obtain ⟨c, hc, rfl⟩ := hsome
      exact ⟨List.cons_ne_nil _ _, le_refl 1, List.forall_mem_singleton.mpr hc⟩
    · intro hw
      obtain ⟨hne, hlength, hw⟩ := hw
      match w, hne, hlength with
      | [c], _, _ => exact ⟨c, hw c (List.mem_singleton_self c), rfl⟩
  | succ n ih =>
    intro s r
    have hseq := (matches_one p).seq ih
    rw [upTo, List.mem_append, matches_one p s r, hseq s r]
    constructor
    · intro hcase
      rcases hcase with ⟨_, ⟨c, hc, rfl⟩, hs⟩ | ⟨_, ⟨_, v, ⟨c, hc, rfl⟩, ⟨-, hlength, hv⟩, rfl⟩, hs⟩
      · exact ⟨[c], ⟨List.cons_ne_nil _ _, Nat.succ_le_succ (Nat.zero_le _), List.forall_mem_singleton.mpr hc⟩, hs⟩
      · exact ⟨c :: v, ⟨List.cons_ne_nil _ _, Nat.succ_le_succ hlength, List.forall_mem_cons.mpr ⟨hc, hv⟩⟩, hs⟩
    · intro hsome
      obtain ⟨w, ⟨hne, hlength, hw⟩, hs⟩ := hsome
      match w, hne, hlength with
      | [c], _, _ => exact .inl ⟨[c], ⟨c, hw c (List.mem_singleton_self c), rfl⟩, hs⟩
      | c :: c' :: v, _, hlength =>
        obtain ⟨hc, hv⟩ := List.forall_mem_cons.mp hw
        exact .inr ⟨c :: c' :: v, ⟨[c], c' :: v, ⟨c, hc, rfl⟩,
          ⟨List.cons_ne_nil _ _, Nat.le_of_succ_le_succ hlength, hv⟩, rfl⟩, hs⟩

/-- Anywhere in the text. -/
theorem Matches.found_iff {a : Pattern α} {L : List α → Prop} (h : a.Matches L) {s : List α} :
    a.found s = true ↔ ∃ u w t, L w ∧ s = u ++ w ++ t := by
  induction s with
  | nil =>
    rw [found, starts_iff]
    constructor
    · intro hsome
      obtain ⟨r, hr⟩ := hsome
      obtain ⟨w, hw, hs⟩ := (h [] r).mp hr
      exact ⟨[], w, r, hw, hs⟩
    · intro hsome
      obtain ⟨u, w, t, hw, hs⟩ := hsome
      obtain ⟨huw, rfl⟩ := List.append_eq_nil_iff.mp hs.symm
      exact ⟨[], (h [] []).mpr ⟨w, hw, by rw [(List.append_eq_nil_iff.mp huw).2]; rfl⟩⟩
  | cons c s ih =>
    rw [found, Bool.or_eq_true, starts_iff, ih]
    constructor
    · intro hcase
      rcases hcase with ⟨r, hr⟩ | ⟨u, w, t, hw, hs⟩
      · obtain ⟨w, hw, hs⟩ := (h _ r).mp hr
        exact ⟨[], w, r, hw, hs⟩
      · exact ⟨c :: u, w, t, hw, by rw [hs]; rfl⟩
    · intro hsome
      obtain ⟨u, w, t, hw, hs⟩ := hsome
      cases u with
      | nil => exact .inl ⟨t, (h _ t).mpr ⟨w, hw, hs⟩⟩
      | cons c' u => exact .inr ⟨u, w, t, hw, (List.cons.inj hs).2⟩

variable [DecidableEq α]

/-- The text itself. -/
def lit (t : List α) : Pattern α := all (t.map fun c x => x = c)

theorem mem_lit {t s r : List α} : r ∈ lit t s ↔ s = t ++ r := by
  rw [lit, mem_all]
  constructor
  · intro hsome
    obtain ⟨u, rfl, hu⟩ := hsome
    rw [List.forall₂_map_left_iff] at hu
    have heq : t = u := by
      induction hu with
      | nil => rfl
      | cons hc _ ih => rw [ih, of_decide_eq_true hc]
    rw [heq]
  · intro heq
    subst heq
    refine ⟨t, rfl, ?_⟩
    rw [List.forall₂_map_left_iff]
    exact List.forall₂_same.mpr fun _ _ => decide_eq_true rfl

theorem matches_lit (t : List α) : (lit t).Matches (· = t) := by
  intro s r
  rw [mem_lit]
  constructor
  · exact fun hs => ⟨t, rfl, hs⟩
  · intro hsome
    obtain ⟨w, rfl, hs⟩ := hsome
    exact hs

theorem starts_lit {t s : List α} : (lit t).starts s = true ↔ t <+: s := by
  rw [starts_iff]
  exact exists_congr fun r => mem_lit.trans eq_comm

theorem found_lit {t s : List α} : (lit t).found s = true ↔ t <:+: s := by
  rw [(matches_lit t).found_iff]
  constructor
  · rintro ⟨u, _, v, rfl, hs⟩
    exact ⟨u, v, hs.symm⟩
  · rintro ⟨u, v, hs⟩
    exact ⟨u, t, v, rfl, hs.symm⟩

end Pattern

/-! ### Ranges of lines -/

section Ranges
variable {β : Type} (start stop : β → Bool)

/-- `sed '/start/,/stop/d'`, inside a range or not. A stop is looked for from the line
after the start. -/
def deleteRanges : Bool → List β → List β
  | _, [] => []
  | false, l :: rest => if start l then deleteRanges true rest else l :: deleteRanges false rest
  | true, l :: rest => deleteRanges (!stop l) rest

/-- `sed -n '/start/,/stop/p'`. -/
def printRanges : Bool → List β → List β
  | _, [] => []
  | false, l :: rest => if start l then l :: printRanges true rest else printRanges false rest
  | true, l :: rest => l :: printRanges (!stop l) rest

/-- The line behind the file is in a range that goes on there. -/
def insideAfter : Bool → List β → Bool
  | inside, [] => inside
  | false, l :: rest => insideAfter (start l) rest
  | true, l :: rest => insideAfter (!stop l) rest

/-- The lines before the first start. -/
def beforeRange (file : List β) : List β := file.takeWhile fun l => !start l

/-- The lines from after the first start to before the next stop. -/
def insideRange (file : List β) : List β :=
  (file.dropWhile fun l => !start l).tail.takeWhile fun l => !stop l

/-- The lines behind that stop. -/
def behindRange (file : List β) : List β :=
  ((file.dropWhile fun l => !start l).tail.dropWhile fun l => !stop l).tail

variable {start stop}

theorem ranges_concat (inside : Bool) (file : List β) (l : β) :
    deleteRanges start stop inside (file ++ [l]) =
        deleteRanges start stop inside file ++ (if insideAfter start stop inside file || start l then [] else [l]) ∧
      printRanges start stop inside (file ++ [l]) =
        printRanges start stop inside file ++ if insideAfter start stop inside file || start l then [l] else [] := by
  induction file generalizing inside with
  | nil => cases inside <;> cases hl : start l <;> simp [deleteRanges, printRanges, insideAfter, hl]
  | cons l' file ih =>
    cases inside with
    | true =>
      obtain ⟨hdelete, hprint⟩ := ih (!stop l')
      exact ⟨hdelete, congrArg (l' :: ·) hprint⟩
    | false =>
      obtain ⟨hdelete, hprint⟩ := ih (start l')
      have hinside : insideAfter start stop false (l' :: file) = insideAfter start stop (start l') file := rfl
      rw [hinside, List.cons_append, deleteRanges, printRanges, deleteRanges, printRanges]
      cases hl : start l' <;> rw [hl] at hdelete hprint
      · exact ⟨congrArg (l' :: ·) hdelete, hprint⟩
      · exact ⟨hdelete, congrArg (l' :: ·) hprint⟩

theorem deleteRanges_concat (inside : Bool) (file : List β) (l : β) :
    deleteRanges start stop inside (file ++ [l]) = deleteRanges start stop inside file ++
      if insideAfter start stop inside file || start l then [] else [l] := (ranges_concat inside file l).1

theorem printRanges_concat (inside : Bool) (file : List β) (l : β) :
    printRanges start stop inside (file ++ [l]) = printRanges start stop inside file ++
      if insideAfter start stop inside file || start l then [l] else [] := (ranges_concat inside file l).2

variable (stop) in
theorem ranges_of_no_start {file : List β} (h : ∀ l ∈ file, start l = false) :
    deleteRanges start stop false file = file ∧ printRanges start stop false file = [] := by
  induction file with
  | nil => exact ⟨rfl, rfl⟩
  | cons l rest ih =>
    obtain ⟨hl, hrest⟩ := List.forall_mem_cons.mp h
    obtain ⟨hdelete, hprint⟩ := ih hrest
    simp only [deleteRanges, printRanges, hl, Bool.false_eq_true, if_false, hdelete, hprint, and_self]

variable (stop) in
theorem ranges_inside {rest : List β} (h : ∀ l ∈ rest, start l = false) :
    deleteRanges start stop true rest = (rest.dropWhile fun l => !stop l).tail ∧
      printRanges start stop true rest =
        rest.takeWhile (fun l => !stop l) ++ (rest.dropWhile fun l => !stop l).take 1 := by
  induction rest with
  | nil => exact ⟨rfl, rfl⟩
  | cons l rest ih =>
    obtain ⟨-, hrest⟩ := List.forall_mem_cons.mp h
    cases hl : stop l with
    | true =>
      obtain ⟨hdelete, hprint⟩ := ranges_of_no_start stop hrest
      simp [deleteRanges, printRanges, hl, hdelete, hprint]
    | false => simp [deleteRanges, printRanges, hl, ih hrest]

variable (stop) in
theorem ranges_append {front : List β} (h : ∀ l ∈ front, start l = false) (rest : List β) :
    deleteRanges start stop false (front ++ rest) = front ++ deleteRanges start stop false rest ∧
      printRanges start stop false (front ++ rest) = printRanges start stop false rest := by
  induction front with
  | nil => exact ⟨rfl, rfl⟩
  | cons l front ih =>
    obtain ⟨hl, hfront⟩ := List.forall_mem_cons.mp h
    obtain ⟨hdelete, hprint⟩ := ih hfront
    simp only [List.cons_append, deleteRanges, printRanges, hl, Bool.false_eq_true, if_false, hdelete,
      hprint, and_self]

variable (stop) in
/-- With one start, what is cut out runs from it to the first stop, if there is one. -/
theorem ranges_of_one_start {file : List β} {h : β} (hfile : file.filter start = [h]) :
    ∃ stops : List β, (∀ l ∈ stops, stop l = true) ∧
      file = beforeRange start file ++ h ::
        (insideRange start stop file ++ stops ++ behindRange start stop file) ∧
      deleteRanges start stop false file = beforeRange start file ++ behindRange start stop file ∧
      printRanges start stop false file = h :: (insideRange start stop file ++ stops) := by
  obtain ⟨front, rest, rfl, hfront, hh, hnil⟩ := List.filter_eq_cons_iff.mp hfile
  have hfront' : ∀ l ∈ front, start l = false := fun l hl => by simpa using hfront l hl
  have hrest : ∀ l ∈ rest, start l = false := fun l hl => by simpa using List.filter_eq_nil_iff.mp hnil l hl
  obtain ⟨hdelete, hprint⟩ := ranges_append stop hfront' (h :: rest)
  obtain ⟨hdelete', hprint'⟩ := ranges_inside stop hrest
  have hbefore : beforeRange start (front ++ h :: rest) = front := by
    rw [beforeRange, List.takeWhile_append_of_pos fun l hl => by simp [hfront' l hl],
      List.takeWhile_cons_of_neg (by simp [hh]), List.append_nil]
  have hdrop : (front ++ h :: rest).dropWhile (fun l => !start l) = h :: rest := by
    rw [List.dropWhile_append_of_pos fun l hl => by simp [hfront' l hl],
      List.dropWhile_cons_of_neg (by simp [hh])]
  refine ⟨(rest.dropWhile fun l => !stop l).take 1, ?_, ?_, ?_, ?_⟩
  · intro l hl
    cases hd : rest.dropWhile fun l => !stop l with
    | nil =>
      rw [hd] at hl
      exact absurd hl List.not_mem_nil
    | cons l' rest' =>
      have hstop := List.head?_dropWhile_not (fun l => !stop l) rest
      rw [hd] at hl hstop
      rw [List.mem_singleton.mp hl]
      simpa using hstop
  · rw [hbefore, insideRange, behindRange, hdrop, List.tail_cons, List.append_assoc]
    congr 2
    rw [← List.drop_one, List.take_append_drop, List.takeWhile_append_dropWhile]
  · rw [hdelete, hbefore, behindRange, hdrop, List.tail_cons, deleteRanges, if_pos hh, hdelete']
  · rw [hprint, insideRange, hdrop, List.tail_cons, printRanges, if_pos hh, hprint']

/-- The two commands divide the file. -/
theorem ranges_perm (inside : Bool) (file : List β) :
    (deleteRanges start stop inside file ++ printRanges start stop inside file).Perm file := by
  induction file generalizing inside with
  | nil => cases inside <;> exact .nil
  | cons l rest ih =>
    cases inside with
    | true => exact List.perm_middle.trans ((ih _).cons l)
    | false =>
      rw [deleteRanges, printRanges]
      split
      · exact List.perm_middle.trans ((ih true).cons l)
      · exact (ih false).cons l

/-- What is printed starts with a start. -/
theorem head_printRanges (file : List β) : ∀ l ∈ (printRanges start stop false file).head?, start l = true := by
  induction file with
  | nil => exact fun _ h => by cases h
  | cons l rest ih =>
    rw [printRanges]
    split
    · next hl =>
      intro l' hl'
      cases hl'
      exact hl
    · exact ih

/-- Every start is in a range. -/
theorem start_of_mem_deleteRanges (inside : Bool) (file : List β) :
    ∀ l ∈ deleteRanges start stop inside file, start l = false := by
  induction file generalizing inside with
  | nil => cases inside <;> exact fun _ h => absurd h List.not_mem_nil
  | cons l rest ih =>
    cases inside with
    | true => exact ih _
    | false =>
      rw [deleteRanges]
      split
      · exact ih true
      · next hl => exact List.forall_mem_cons.mpr ⟨by simpa using hl, ih false⟩

end Ranges

end Idic.Shell
