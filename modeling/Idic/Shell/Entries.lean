import Mathlib.Logic.Basic

/-! Entries that a text gets where it does not have them.

A loop looks for one entry after another and puts each that it does not find at the end.
Where no entry is taken for one that comes later, it adds exactly those that are missing
before the loop, and a second loop adds nothing. -/
namespace Idic.Shell

variable {β ι : Type} (has : ι → List β → Prop) [∀ i s, Decidable (has i s)] (entry : ι → List β)

def addEntry (s : List β) (i : ι) : List β := if has i s then s else s ++ entry i

def addEntries (s : List β) (is : List ι) : List β := is.foldl (addEntry has entry) s

def missing (s : List β) (is : List ι) : List ι := is.filter fun i => ¬has i s

omit [∀ i s, Decidable (has i s)] in
/-- What an entry is found by: it stays, and an entry is not taken for one behind it. -/
structure Apart (before : ι → ι → Prop) : Prop where
  stays : ∀ i s t, has i s → has i (s ++ t)
  own : ∀ i s, has i (s ++ entry i)
  other : ∀ i j s, before i j → has j (s ++ entry i) → has j s

variable {has entry} {before : ι → ι → Prop} {is : List ι}

theorem Apart.addEntry_has (h : Apart has entry before) (s : List β) (i : ι) :
    has i (addEntry has entry s i) := by
  unfold addEntry
  split
  · assumption
  · exact h.own i s

theorem Apart.addEntries_stays (h : Apart has entry before) {i : ι} {s : List β} (hi : has i s) :
    has i (addEntries has entry s is) := by
  induction is generalizing s with
  | nil => exact hi
  | cons j is ih =>
    refine ih ?_
    unfold addEntry
    split
    · exact hi
    · exact h.stays i s _ hi

/-- Every entry is there in the end. -/
theorem Apart.addEntries_has (h : Apart has entry before) (s : List β) :
    ∀ i ∈ is, has i (addEntries has entry s is) := by
  induction is generalizing s with
  | nil => exact fun i hi => absurd hi List.not_mem_nil
  | cons j is ih =>
    intro i hi
    rw [addEntries, List.foldl_cons, ← addEntries]
    rcases List.mem_cons.mp hi with rfl | hi
    · exact h.addEntries_stays (h.addEntry_has s i)
    · exact ih _ i hi

theorem addEntries_of_has {s : List β} (h : ∀ i ∈ is, has i s) : addEntries has entry s is = s := by
  induction is with
  | nil => rfl
  | cons i is ih =>
    obtain ⟨hi, his⟩ := List.forall_mem_cons.mp h
    rw [addEntries, List.foldl_cons, addEntry, if_pos hi]
    exact ih his

/-- A second loop adds nothing. -/
theorem Apart.addEntries_twice (h : Apart has entry before) (s : List β) :
    addEntries has entry (addEntries has entry s is) is = addEntries has entry s is :=
  addEntries_of_has (h.addEntries_has s)

/-- The loop adds what is missing before it. -/
theorem Apart.addEntries_eq (h : Apart has entry before) (his : is.Pairwise before) (s : List β) :
    addEntries has entry s is = s ++ (missing has s is).flatMap entry := by
  induction is generalizing s with
  | nil => exact (List.append_nil s).symm
  | cons i is ih =>
    obtain ⟨hbefore, his⟩ := List.pairwise_cons.mp his
    rw [addEntries, List.foldl_cons, addEntry, missing]
    split
    · next hi =>
      rw [List.filter_cons_of_neg (by simpa using hi)]
      exact ih his s
    · next hi =>
      have hsame : missing has (s ++ entry i) is = missing has s is := by
        refine List.filter_congr fun j hj => ?_
        rw [decide_eq_decide, not_iff_not]
        exact ⟨h.other i j s (hbefore j hj), h.stays j s _⟩
      rw [List.filter_cons_of_pos (by simpa using hi), List.flatMap_cons, ← List.append_assoc, ← missing, ← hsame]
      exact ih his (s ++ entry i)

end Idic.Shell
