import Mathlib.Data.Finset.BooleanAlgebra
import Mathlib.Data.Finset.Card
import Mathlib.Data.List.Chain
import Mathlib.Logic.Relation

/-! Looking for a recursive dependency.

A search goes from a symbol to all that it depends on. What is being looked at is on a
stack, and to come upon one of these is a recursion, for which the search ends. What
an earlier search has been through is not gone into from above again. `searches_nil_iff`
says that nothing is found exactly when there is no recursion. -/
namespace Idic.Kconfig.Recursion

variable {α : Type} [Fintype α] [DecidableEq α] (deps : α → List α)

/-- One more on the stack is one less to come. -/
theorem sdiff_insert_ssubset {stack : Finset α} {a : α} (h : a ∉ stack) :
    Finset.univ \ insert a stack ⊂ Finset.univ \ stack := by
  rw [← Finset.compl_eq_univ_sdiff, ← Finset.compl_eq_univ_sdiff]
  exact Finset.compl_ssubset_compl.mpr (Finset.ssubset_insert h)

/-- The symbols that are printed when a recursion is found, the one that was met again
first, and the symbols that have been looked at. -/
def search {α : Type} [Fintype α] [DecidableEq α] (deps : α → List α) (done stack checked : Finset α) :
    List α → Option (List α) × Finset α
  | [] => (none, checked)
  | a :: as =>
    if a ∈ done then search deps done stack checked as
    else if a ∈ stack then (some [a], checked)
    else
      match search deps done (insert a stack) (insert a checked) (deps a) with
      | (some names, checked) => (some (names ++ [a]), checked)
      | (none, checked) => search deps done stack checked as
termination_by as => ((Finset.univ \ stack).card, as.length)
decreasing_by
  · exact Prod.Lex.right _ (Nat.lt_succ_self _)
  · refine Prod.Lex.left _ _ (Finset.card_lt_card ?_)
    exact sdiff_insert_ssubset ‹_›
  · exact Prod.Lex.right _ (Nat.lt_succ_self _)

/-- The searches from one symbol after the other, but not from what has been looked at. -/
def searches (done checked : Finset α) : List α → List (List α)
  | [] => []
  | a :: as =>
    if a ∈ checked then searches (insert a done) checked as
    else
      match search deps done ∅ checked [a] with
      | (some names, checked) => names :: searches done checked as
      | (none, checked) => searches (insert a done) checked as

variable (done : Finset α)

/-- Induction along a search. -/
theorem search_induction {motive : Finset α → Finset α → List α → Prop}
    (nil : ∀ stack checked, motive stack checked [])
    (skip : ∀ stack checked a as, a ∈ done → motive stack checked as → motive stack checked (a :: as))
    (met : ∀ stack checked a as, a ∉ done → a ∈ stack → motive stack checked (a :: as))
    (into : ∀ stack checked a as, a ∉ done → a ∉ stack →
      motive (insert a stack) (insert a checked) (deps a) → (∀ checked', motive stack checked' as) →
      motive stack checked (a :: as)) (stack checked : Finset α) (as : List α) :
    motive stack checked as := by
  induction hn : (Finset.univ \ stack).card using Nat.strongRecOn generalizing stack checked as with
  | ind n ih =>
    induction as generalizing checked with
    | nil => exact nil stack checked
    | cons a as ihas =>
      by_cases hdone : a ∈ done
      · exact skip _ _ _ _ hdone (ihas checked)
      by_cases hstack : a ∈ stack
      · exact met _ _ _ _ hdone hstack
      · refine into _ _ _ _ hdone hstack (ih _ ?_ _ _ _ rfl) ihas
        rw [← hn]
        exact Finset.card_lt_card (sdiff_insert_ssubset hstack)

variable {deps done}

section Equations
variable {stack checked : Finset α} {a : α}

theorem search_skip (ha : a ∈ done) (as : List α) :
    search deps done stack checked (a :: as) = search deps done stack checked as := by
  rw [search, if_pos ha]

theorem search_met (ha : a ∉ done) (hs : a ∈ stack) (as : List α) :
    search deps done stack checked (a :: as) = (some [a], checked) := by
  rw [search, if_neg ha, if_pos hs]

theorem search_into (ha : a ∉ done) (hs : a ∉ stack) (as : List α) :
    search deps done stack checked (a :: as) =
      match search deps done (insert a stack) (insert a checked) (deps a) with
      | (some names, checked) => (some (names ++ [a]), checked)
      | (none, checked) => search deps done stack checked as := by
  rw [search, if_neg ha, if_neg hs]

end Equations

/-- To depend on nothing that depends on itself. -/
abbrev Sound (deps : α → List α) : α → Prop := Acc fun a b => a ∈ deps b

/-- When nothing is found, what was looked at is sound. -/
theorem search_none (hdone : ∀ a ∈ done, Sound deps a) (stack checked : Finset α) (as : List α)
    (h : (search deps done stack checked as).1 = none) :
    (∀ a ∈ as, Sound deps a) ∧
      ∀ a ∈ (search deps done stack checked as).2, a ∈ checked ∨ Sound deps a := by
  induction stack, checked, as using search_induction deps done with
  | nil stack checked =>
    rw [search]
    exact ⟨nofun, fun a ha => .inl ha⟩
  | skip stack checked a as ha ih =>
    rw [search_skip ha] at h ⊢
    obtain ⟨has, hchecked⟩ := ih h
    exact ⟨List.forall_mem_cons.mpr ⟨hdone a ha, has⟩, hchecked⟩
  | met stack checked a as ha hs =>
    rw [search_met ha hs] at h
    cases h
  | into stack checked a as ha hs ihinto ih =>
    rw [search_into ha hs] at h ⊢
    split at h
    · cases h
    · next checked' hinto =>
      rw [hinto] at ihinto
      obtain ⟨hdeps, hbelow⟩ := ihinto rfl
      obtain ⟨has, hrest⟩ := ih checked' h
      have hsound : Sound deps a := .intro a hdeps
      refine ⟨List.forall_mem_cons.mpr ⟨hsound, has⟩, fun b hb => ?_⟩
      rcases hrest b hb with hb | hb
      · rcases hbelow b hb with hb | hb
        · rcases Finset.mem_insert.mp hb with rfl | hb
          · exact .inr hsound
          · exact .inl hb
        · exact .inr hb
      · exact .inr hb

/-- Each of the names depends on the one before it, and the first one is met again. -/
structure Recursive (deps : α → List α) (names : List α) : Prop where
  chain : names.IsChain fun a b => a ∈ deps b
  again : ∃ a rest, names = a :: rest ∧ a ∈ rest

/-- What is found is a way down from the stack, to something on the stack. -/
theorem search_some {stack checked : Finset α} {as names : List α}
    (h : (search deps done stack checked as).1 = some names) :
    names.IsChain (fun a b => a ∈ deps b) ∧ (∃ b ∈ names.getLast?, b ∈ as) ∧
      ∃ a rest, names = a :: rest ∧ (a ∈ rest ∨ a ∈ stack) := by
  induction stack, checked, as using search_induction deps done generalizing names with
  | nil stack checked => rw [search] at h; cases h
  | skip stack checked a as ha ih =>
    rw [search_skip ha] at h
    obtain ⟨hchain, ⟨b, hb, hmem⟩, hagain⟩ := ih h
    exact ⟨hchain, ⟨b, hb, List.mem_cons_of_mem _ hmem⟩, hagain⟩
  | met stack checked a as ha hs =>
    rw [search_met ha hs] at h
    cases h
    exact ⟨.singleton a, ⟨a, rfl, List.mem_cons_self⟩, a, [], rfl, .inr hs⟩
  | into stack checked a as ha hs ihinto ih =>
    rw [search_into ha hs] at h
    split at h
    · next found checked' hinto =>
      cases h
      rw [hinto] at ihinto
      obtain ⟨hchain, ⟨b, hb, hmem⟩, c, rest, rfl, hagain⟩ := ihinto rfl
      refine ⟨?_, ⟨a, List.getLast?_concat, List.mem_cons_self⟩, c, rest ++ [a], rfl, ?_⟩
      · refine List.isChain_append.mpr ⟨hchain, .singleton a, fun x hx y hy => ?_⟩
        cases Option.mem_unique hx hb
        cases hy
        exact hmem
      · rcases hagain with hc | hc
        · exact .inl (List.mem_append_left _ hc)
        · rcases Finset.mem_insert.mp hc with rfl | hc
          · exact .inl (List.mem_append_right _ (List.mem_singleton.mpr rfl))
          · exact .inr hc
    · next checked' hinto =>
      obtain ⟨hchain, ⟨b, hb, hmem⟩, hagain⟩ := ih checked' h
      exact ⟨hchain, ⟨b, hb, List.mem_cons_of_mem _ hmem⟩, hagain⟩

/-- Every warning shows a recursion. -/
theorem searches_recursive {done checked : Finset α} {as : List α} :
    ∀ names ∈ searches deps done checked as, Recursive deps names := by
  induction as generalizing done checked with
  | nil => rw [searches]; exact nofun
  | cons a as ih =>
    intro names hnames
    rw [searches] at hnames
    split at hnames
    · exact ih names hnames
    · split at hnames
      · next found checked' hfound =>
        rcases List.mem_cons.mp hnames with rfl | hnames
        · obtain ⟨hchain, -, b, rest, hnames, hagain⟩ := search_some (congrArg Prod.fst hfound)
          exact ⟨hchain, b, rest, hnames, hagain.resolve_right (Finset.notMem_empty b)⟩
        · exact ih names hnames
      · exact ih names hnames

theorem searches_nil {done checked : Finset α} {as : List α} (hdone : ∀ a ∈ done, Sound deps a)
    (hchecked : ∀ a ∈ checked, Sound deps a) (h : searches deps done checked as = []) :
    ∀ a ∈ as, Sound deps a := by
  induction as generalizing done checked with
  | nil => exact nofun
  | cons a as ih =>
    have hinsert : Sound deps a → ∀ b ∈ insert a done, Sound deps b := fun ha b hb =>
      (Finset.mem_insert.mp hb).elim (fun hb => hb ▸ ha) (hdone b)
    rw [searches] at h
    split at h
    · next ha => exact List.forall_mem_cons.mpr ⟨hchecked a ha, ih (hinsert (hchecked a ha)) hchecked h⟩
    · split at h
      · cases h
      · next checked' hnone =>
        obtain ⟨has, hbelow⟩ := search_none hdone ∅ checked [a] (congrArg Prod.fst hnone)
        have ha := has a (List.mem_singleton.mpr rfl)
        rw [hnone] at hbelow
        exact List.forall_mem_cons.mpr
          ⟨ha, ih (hinsert ha) (fun b hb => (hbelow b hb).elim (hchecked b) id) h⟩

omit [Fintype α] [DecidableEq α] in
theorem Sound.not_below_self {a : α} (h : Sound deps a) : ¬ Relation.TransGen (fun a b => a ∈ deps b) a a := by
  have htrans : Acc (Relation.TransGen fun a b => a ∈ deps b) a := acc_transGen_iff.mpr h
  induction htrans with
  | intro a _ ih => exact fun hself => ih a hself h hself

omit [Fintype α] [DecidableEq α] in
/-- What comes again is below itself. -/
theorem Recursive.not_sound {names : List α} (h : Recursive deps names) :
    ∃ a ∈ names, ¬ Sound deps a := by
  obtain ⟨hchain, a, rest, rfl, hagain⟩ := h
  have hchain' : (a :: rest).IsChain (Relation.TransGen fun a b => a ∈ deps b) :=
    hchain.imp fun _ _ h => .single h
  have hpairs := hchain'.pairwise
  exact ⟨a, List.mem_cons_self, fun hsound => hsound.not_below_self (List.rel_of_pairwise_cons hpairs hagain)⟩

/-- There is no warning exactly when nothing depends on itself. -/
theorem searches_nil_iff {as : List α} (hall : ∀ a, a ∈ as) :
    searches deps ∅ ∅ as = [] ↔ WellFounded fun a b => a ∈ deps b := by
  constructor
  · exact fun h => ⟨fun a => searches_nil (by simp) (by simp) h a (hall a)⟩
  · intro hwf
    refine List.eq_nil_iff_forall_not_mem.mpr fun names hnames => ?_
    obtain ⟨a, -, ha⟩ := (searches_recursive names hnames).not_sound
    exact ha (hwf.apply a)

end Idic.Kconfig.Recursion
